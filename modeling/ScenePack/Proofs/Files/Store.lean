import ScenePack.Proofs.Files.Directory

/-!
# Files written one after another

A directory that is made leaves everything at its place, and a file that is written stays where it
is as long as no other file is written there. So files of different names, all written into one
directory, hold their bytes when the last is written, wherever that directory is and whatever was
there before.

* `Directory.Keeps`: a place keeps what it holds.
* `Directory.Written`: files are written into a directory, one after another, all with success.

Results:
* `Path.names_join`, `exists_eq_child_of_locate_join`: where a name in a directory leads.
* `keptBy_makeDirectories`: making directories changes nothing that is there.
* **`Written.read`**, **`Written.content?_eq`**: what written files hold, and that nothing else
  changed.
-/

namespace ScenePack

/-! ## Names in a directory -/

namespace Path

theorem splitSlashes_ne_nil (cs : List Char) : splitSlashes cs ≠ [] := by
  cases cs with
  | nil => nofun
  | cons c cs =>
    rw [splitSlashes]
    split
    · nofun
    · split <;> nofun

theorem splitSlashes_append (cs more : List Char) :
    splitSlashes (cs ++ '/' :: more) = splitSlashes cs ++ splitSlashes more := by
  induction cs with
  | nil =>
    obtain ⟨name, names, hmore⟩ := List.exists_cons_of_ne_nil (splitSlashes_ne_nil more)
    simp [splitSlashes, hmore]
  | cons c cs ih =>
    obtain ⟨name, names, hcs⟩ := List.exists_cons_of_ne_nil (splitSlashes_ne_nil cs)
    rw [List.cons_append, splitSlashes, ih, splitSlashes, hcs]
    by_cases hc : c = '/' <;> simp [hc]

theorem splitSlashes_of_not_mem {cs : List Char} (h : '/' ∉ cs) : splitSlashes cs = [cs] := by
  induction cs with
  | nil => rfl
  | cons c cs ih =>
    obtain ⟨hc, hcs⟩ := not_or.mp (fun hmem => h (List.mem_cons.mpr hmem))
    simp [splitSlashes, ih hcs, Ne.symm hc]

/-- The last name of a path that is joined of a directory and a name is that name. -/
theorem names_join (directory : String) {name : String} (h : '/' ∉ name.toList) :
    ∃ before, names (join directory name) = before ++ [name] := by
  have hlast (cs : List Char) : (splitSlashes (cs ++ '/' :: name.toList)).map String.ofList =
      (splitSlashes cs).map String.ofList ++ [name] := by
    rw [splitSlashes_append, splitSlashes_of_not_mem h, List.map_append, List.map_singleton,
      String.ofList_toList]
  unfold names join
  split
  · rename_i hslash
    obtain ⟨cs, hcs⟩ := List.getLast?_eq_some_iff.mp hslash
    rw [String.toList_append, hcs, List.append_assoc]
    exact ⟨_, hlast cs⟩
  · rw [String.toList_append, String.toList_append, List.append_assoc]
    exact ⟨_, hlast directory.toList⟩

end Path

namespace Directory

variable {d d₁ d' : Directory} {dir : String} {q : Place}

/-- A name that is one step down. -/
structure IsPlain (name : String) : Prop where
  step : Path.isIdle name = false
  down : name ≠ ".."
  single : '/' ∉ name.toList

/-- **A name in a directory leads to a place of that name.** -/
theorem exists_eq_child_of_locate_join {name : String} (hname : IsPlain name)
    (h : d.locate (Path.join dir name) = .ok q) : ∃ parent : Place, q = parent.child name := by
  obtain ⟨before, hnames⟩ := Path.names_join dir hname.single
  have hfollow := (locate_eq_ok_iff.mp h).2
  rw [hnames] at hfollow
  generalize origin (Path.join dir name) = start at hfollow
  clear hnames
  induction before generalizing start with
  | nil =>
    obtain ⟨-, next, hstep, hnext⟩ := follow_cons_eq_ok_iff.mp hfollow
    obtain rfl : next = q := Except.ok.inj hnext
    cases hstep with
    | stay hidle => simp [hname.step] at hidle
    | up hidle hup => exact absurd hup hname.down
    | down => exact ⟨start, rfl⟩
  | cons first before ih =>
    obtain ⟨-, next, -, hnext⟩ := follow_cons_eq_ok_iff.mp hfollow
    exact ih next hnext

/-- Two names in a directory do not lead to the same place of it. -/
theorem ne_of_locate_join {d₂ : Directory} {name other : String} (hname : IsPlain name)
    (hother : IsPlain other) (hne : name ≠ other) (hinside : q ≠ .outside)
    (h : d.locate (Path.join dir name) = .ok q) : d₂.locate (Path.join dir other) ≠ .ok q := by
  intro hq
  obtain ⟨parent, rfl⟩ := exists_eq_child_of_locate_join hname h
  obtain ⟨parent', hchild⟩ := exists_eq_child_of_locate_join hother hq
  cases parent with
  | outside => exact hinside rfl
  | inside names =>
    cases parent' with
    | outside => exact absurd hchild nofun
    | inside names' =>
      obtain ⟨-, hlast⟩ := List.append_inj' (Place.inside.inj hchild) rfl
      exact hne (List.singleton_inj.mp hlast)

/-! ## Directories -/

/-- A step is done in a directory, and the next in what it leaves. -/
theorem bind_of_eq {α β : Type} {step : StateM Directory α} {next : α → StateM Directory β} {a : α}
    (h : step d = (a, d₁)) : (step >>= next) d = next a d₁ := by
  show next (step d).1 (step d).2 = next a d₁
  rw [h]

/-- A place keeps what it holds, though a directory may be made where nothing was. -/
def Keeps (d d' : Directory) (q : Place) : Prop :=
  d'.content? q = d.content? q ∨ d.content? q = none ∧ d'.content? q = some .directory

theorem Keeps.refl (d : Directory) (q : Place) : d.Keeps d q := .inl rfl

theorem Keeps.trans (h : d.Keeps d₁ q) (h' : d₁.Keeps d' q) : d.Keeps d' q := by
  rcases h' with h' | ⟨hnone, h'⟩
  · unfold Keeps
    rwa [h']
  · rcases h with h | ⟨-, h⟩
    · exact .inr ⟨h.symm.trans hnone, h'⟩
    · rw [h] at hnone
      exact absurd hnone nofun

/-- A step that leaves what is at a place there. -/
def KeptBy {α : Type} (q : Place) (step : StateM Directory α) : Prop :=
  ∀ d : Directory, d.Keeps (step d).2 q

theorem KeptBy.pure {α : Type} (a : α) : KeptBy q (pure a) := fun d => .refl d q

theorem KeptBy.bind {α β : Type} {step : StateM Directory α} {next : α → StateM Directory β}
    (h : KeptBy q step) (hnext : ∀ a, KeptBy q (next a)) : KeptBy q (step >>= next) :=
  fun d => (h d).trans (hnext (step d).1 (step d).2)

theorem keptBy_makeDirectory (q : Place) (path : String) : KeptBy q (store.makeDirectory path) := by
  intro d
  cases h : d.makeDirectory path with
  | error e =>
    have hsame : (store.makeDirectory path d).2 = d := by simp [store, changed, h]
    rw [hsame]
    exact .refl d q
  | ok d' =>
    have hmade : (store.makeDirectory path d).2 = d' := by simp [store, changed, h]
    obtain ⟨place, hnone, hsets⟩ := makeDirectory_sets h
    unfold Keeps
    rw [hmade, hsets.after]
    split
    · rename_i hq
      exact .inr ⟨hq ▸ hnone, rfl⟩
    · exact .inl rfl

theorem keptBy_ensured (q : Place) (path : String) (made : Except FileError Unit) :
    KeptBy q (store.ensured path made) := by
  cases made with
  | ok u => exact .pure _
  | error e => exact .bind (fun d => .refl d q) fun _ => .pure _

theorem keptBy_makeFirst (q : Place) (paths : List String) : KeptBy q (store.makeFirst paths) := by
  induction paths with
  | nil => exact .pure _
  | cons path parents ih =>
    rw [FileStore.makeFirst]
    refine .bind (keptBy_makeDirectory q path) fun made => ?_
    split
    · refine .bind ih fun above => ?_
      split
      · exact .bind (keptBy_makeDirectory q path) fun made => keptBy_ensured q path made
      · exact .pure _
    · exact keptBy_ensured q path _

/-- **Making directories changes nothing that is there.** -/
theorem keptBy_makeDirectories (q : Place) (path : String) :
    KeptBy q (store.makeDirectories path) := by
  unfold FileStore.makeDirectories
  split
  · exact .pure _
  · exact keptBy_makeFirst q _

/-! ## Files -/

/-- Files are written into a directory, one after another, all with success. -/
inductive Written (dir : String) : Directory → List (String × List UInt8) → Directory → Prop where
  | nil {d : Directory} : Written dir d [] d
  | cons {d d₁ d' : Directory} {name : String} {bytes : List UInt8}
      {rest : List (String × List UInt8)} : d.write (Path.join dir name) ⟨bytes.toArray⟩ = .ok d₁ →
      Written dir d₁ rest d' → Written dir d ((name, bytes) :: rest) d'

variable {files : List (String × List UInt8)}

theorem Written.grows (h : Written dir d files d') : d.Grows d' := by
  induction h with
  | nil => exact ⟨fun _ h => h, fun _ h => h⟩
  | cons hwrite _ ih =>
    obtain ⟨place, hnot, hsets, -⟩ := write_sets hwrite
    have hgrows := hsets.grows hnot
    exact ⟨fun q hq => ih.directory q (hgrows.directory q hq),
      fun q hq => ih.isSome q (hgrows.isSome q hq)⟩

/-- **No place is changed but those of the files.** -/
theorem Written.content?_eq (h : Written dir d files d')
    (hq : ∀ file ∈ files, d'.locate (Path.join dir file.1) ≠ .ok q) :
    d'.content? q = d.content? q := by
  induction h with
  | nil => rfl
  | cons hwrite hrest ih =>
    obtain ⟨place, -, hsets, hlocate⟩ := write_sets hwrite
    obtain ⟨hfirst, hothers⟩ := List.forall_mem_cons.mp hq
    rw [ih hothers, hsets.after, if_neg]
    rintro rfl
    exact hfirst (locate_of_grows hrest.grows hlocate)

/-- **Every file holds its bytes**, if all have different names. -/
theorem Written.read (h : Written dir d files d') (hplain : ∀ file ∈ files, IsPlain file.1)
    (hnodup : (files.map (·.1)).Nodup) :
    ∀ file ∈ files, d'.read (Path.join dir file.1) = .ok ⟨file.2.toArray⟩ := by
  induction h with
  | nil => nofun
  | cons hwrite hrest ih =>
    obtain ⟨hname, hplain⟩ := List.forall_mem_cons.mp hplain
    obtain ⟨hnew, hnodup⟩ := List.nodup_cons.mp hnodup
    refine List.forall_mem_cons.mpr ⟨?_, ih hplain hnodup⟩
    obtain ⟨place, -, hsets, hlocate⟩ := write_sets hwrite
    have hlocate := locate_of_grows hrest.grows hlocate
    refine read_eq_ok_iff.mpr ⟨place, hlocate, ?_⟩
    -- the files behind it have other names, so they are at other places
    rw [hrest.content?_eq fun file hfile => ?_, hsets.after, if_pos rfl]
    refine ne_of_locate_join hname (hplain file hfile) ?_ hsets.inside hlocate
    intro heq
    exact hnew (List.mem_map.mpr ⟨file, hfile, heq.symm⟩)

end Directory

end ScenePack
