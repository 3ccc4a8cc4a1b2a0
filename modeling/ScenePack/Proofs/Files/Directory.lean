import ScenePack.Files.Directory

/-!
# What directories hold

A file holds a text if its bytes encode one. A directory is known by what is at each place: a file
with its bytes, a directory, or nothing.
Following a path looks at nothing else, and every change of a directory is a change at one place.

* `Content`, `Directory.content?`: what is at a place.
* `Directory.Sets`: the one change that a write or a new directory makes.
* `Directory.locate`: where a path leads.

Results:
* `textOfBytes_toUTF8`, `textOfBytes_eq_error`: the text of a file's bytes.
* `putAt_sets`: a node put into a directory changes one place.
* `follow_cons_eq_ok_iff`, `follow_of_grows`: a path is followed step by step, and leads where it led
  if nothing on its way was taken away.
* **`write_sets`**, **`makeDirectory_sets`**: what a successful change does.
* **`read_of_write`**: what was written is read.
-/

namespace ScenePack

/-! ## Bytes and text -/

/-- The bytes of a text are read as that text. -/
theorem textOfBytes_toUTF8 (text : String) : textOfBytes text.toUTF8 = .ok text := by
  have h : String.fromUTF8? text.toUTF8 = some text := by
    simp only [String.fromUTF8?, String.toUTF8_eq_toByteArray, dif_pos text.isValidUTF8]
    rfl
  rw [textOfBytes, h]

theorem toUTF8_of_fromUTF8? {bytes : ByteArray} {text : String}
    (h : String.fromUTF8? bytes = some text) : text.toUTF8 = bytes := by
  unfold String.fromUTF8? at h
  split at h
  · obtain rfl := Option.some.inj h
    rfl
  · exact absurd h nofun

/-- **Bytes that encode no text are said to be no text.** -/
theorem textOfBytes_eq_error {bytes : ByteArray} (h : ∀ text : String, text.toUTF8 ≠ bytes) :
    textOfBytes bytes = .error .notText := by
  unfold textOfBytes
  cases hbytes : String.fromUTF8? bytes with
  | none => rfl
  | some text => exact absurd (toUTF8_of_fromUTF8? hbytes) (h text)

/-! ## Places -/

/-- What is at a place: a file with its bytes, or a directory. -/
inductive Content where
  | file (bytes : ByteArray)
  | directory

namespace FileNode

/-- What a node is, apart from what lies in it. -/
def content : FileNode → Content
  | file bytes => .file bytes
  | directory _ => .directory

/-- A node in which nothing lies. -/
def IsLeaf (node : FileNode) : Prop := ∀ name rest, find? (name :: rest) node = none

theorem isLeaf_file (bytes : ByteArray) : (file bytes).IsLeaf := fun _ _ => rfl

theorem isLeaf_empty : (directory []).IsLeaf := fun _ _ => rfl

theorem lookup_cons_eq (name other : String) (node : FileNode) (entries : List (String × FileNode)) :
    List.lookup other ((name, node) :: entries) =
      if other = name then some node else entries.lookup other := by
  by_cases h : other = name
  · simp [h]
  · have hbeq : (other == name) = false := beq_false_of_ne h
    simp [List.lookup_cons, hbeq, h]

theorem lookup_putEntry (name other : String) (node : FileNode) (entries : List (String × FileNode)) :
    (putEntry name node entries).lookup other =
      if other = name then some node else entries.lookup other := by
  induction entries with
  | nil => exact lookup_cons_eq name other node []
  | cons entry entries ih =>
    obtain ⟨key, old⟩ := entry
    by_cases hkey : key = name
    · subst hkey
      by_cases h : other = key <;> simp [putEntry, lookup_cons_eq, h]
    · simp only [putEntry, if_neg hkey, lookup_cons_eq, ih]
      by_cases h : other = key
      · subst h
        simp [hkey]
      · simp [h]

theorem find?_append (names more : List String) (root : FileNode) :
    find? (names ++ more) root = (find? names root).bind (find? more) := by
  induction names generalizing root with
  | nil => rfl
  | cons name names ih =>
    cases root with
    | file bytes => rfl
    | directory entries =>
      cases hlookup : entries.lookup name with
      | none => simp [find?, hlookup]
      | some node => simp [find?, hlookup, ih]

/-- **A leaf in the place of a leaf, or of nothing, changes no other place.** -/
theorem content_find?_put {node : FileNode} (hleaf : node.IsLeaf) (name : String)
    {before : List String} {root : FileNode} {entries : List (String × FileNode)}
    (hbefore : find? before root = some (directory entries))
    (hold : ∀ old, entries.lookup name = some old → old.IsLeaf) (names : List String) :
    (find? names (put node (before ++ [name]) root)).map content =
      if names = before ++ [name] then some node.content else (find? names root).map content := by
  induction before generalizing root names with
  | nil =>
    obtain rfl : root = directory entries := Option.some.inj hbefore
    cases names with
    | nil => rfl
    | cons first rest =>
      simp only [List.nil_append, put, find?, lookup_putEntry]
      by_cases hfirst : first = name
      · subst hfirst
        rw [if_pos rfl, Option.bind_some]
        cases rest with
        | nil => simp [find?]
        | cons next rest =>
          rw [hleaf, if_neg (by simp)]
          cases hlookup : entries.lookup first with
          | none => rfl
          | some old => rw [Option.bind_some, hold old hlookup]
      · simp [hfirst]
  | cons step before ih =>
    cases root with
    | file bytes => simp [find?] at hbefore
    | directory outer =>
      obtain ⟨inner, hinner, hfound⟩ := Option.bind_eq_some_iff.mp hbefore
      cases names with
      | nil => rfl
      | cons first rest =>
        simp only [List.cons_append, put, find?, lookup_putEntry, hinner, Option.getD_some]
        by_cases hfirst : first = step
        · subst hfirst
          simp [ih hfound, hinner]
        · simp [hfirst]

end FileNode

namespace Directory

variable {d d' : Directory} {path : String} {place : Place} {bytes : ByteArray}

/-- What is at a place. -/
def content? (d : Directory) (place : Place) : Option Content := (d.at? place).map FileNode.content

/-- One place of a directory is given something to hold; every other place keeps what it held. -/
structure Sets (d : Directory) (place : Place) (content : Content) (d' : Directory) : Prop where
  inside : place ≠ .outside
  after : ∀ q, d'.content? q = if q = place then some content else d.content? q

theorem content?_outside (d : Directory) : d.content? .outside = some .directory := rfl

/-- **A leaf put into a directory in the place of a leaf, or of nothing, sets one place.** -/
theorem putAt_sets {node : FileNode} {names : List String} {name : String}
    {entries : List (String × FileNode)} (hleaf : node.IsLeaf)
    (hparent : d.at? (.inside names) = some (.directory entries))
    (hold : ∀ old, entries.lookup name = some old → old.IsLeaf) :
    d.Sets (.inside (names ++ [name])) node.content (d.putAt node (.inside (names ++ [name]))) := by
  refine ⟨nofun, fun q => ?_⟩
  cases q with
  | outside => simp [content?_outside]
  | inside other =>
    have hput := FileNode.content_find?_put hleaf name hparent hold other
    have hroot : (d.putAt node (.inside (names ++ [name]))).at? (.inside other) =
        FileNode.find? other (FileNode.put node (names ++ [name]) (.directory d.entries)) := by
      cases names <;> rfl
    rw [content?, hroot, hput]
    simp [content?, at?]

/-! ## Paths -/

/-- Whatever was somewhere still is, and directories still are directories. -/
structure Grows (d d' : Directory) : Prop where
  directory : ∀ q, d.content? q = some .directory → d'.content? q = some .directory
  isSome : ∀ q, (d.content? q).isSome → (d'.content? q).isSome

theorem Sets.grows {content : Content} (h : d.Sets place content d')
    (hold : d.content? place ≠ some .directory) : d.Grows d' := by
  constructor
  · intro q hq
    rw [h.after, if_neg (by rintro rfl; exact hold hq), hq]
  · intro q hq
    rw [h.after]
    split
    · rfl
    · exact hq

theorem content?_of_at? {entries : List (String × FileNode)}
    (h : d.at? place = some (.directory entries)) : d.content? place = some .directory := by
  simp [content?, h, FileNode.content]

/-- What lies in a directory is at the places below it; nothing is known of what lies outside. -/
theorem lookup_eq_at? {entries : List (String × FileNode)} {name : String}
    (h : d.at? place = some (.directory entries)) :
    entries.lookup name = if place = .outside then none else d.at? (place.child name) := by
  cases place with
  | outside =>
    obtain rfl : [] = entries := by simpa [at?] using h
    rfl
  | inside names =>
    have hnode : FileNode.find? names (.directory d.entries) = some (.directory entries) := h
    rw [if_neg nofun, Place.child, at?, FileNode.find?_append, hnode, Option.bind_some]
    cases hlookup : entries.lookup name <;> simp [FileNode.find?, hlookup]

/-- One name on the way of a path: one stays, goes up, or goes down to what is there. -/
inductive Steps (d : Directory) (place : Place) (name : String) : Place → Prop
  | stay : Path.isIdle name = true → Steps d place name place
  | up : Path.isIdle name = false → name = ".." → Steps d place name place.parent
  | down : Path.isIdle name = false → name ≠ ".." → ¬ maxName < name.utf8ByteSize →
      place ≠ .outside → (d.content? (place.child name)).isSome → Steps d place name (place.child name)

/-- **A path is followed from directory to directory**, name by name. -/
theorem follow_cons_eq_ok_iff {name : String} {names : List String} {q : Place} :
    d.follow place (name :: names) = .ok q ↔ d.content? place = some .directory ∧
      ∃ next, d.Steps place name next ∧ d.follow next names = .ok q := by
  rw [follow]
  cases hnode : d.at? place with
  | none => simp [content?, hnode]
  | some node =>
    cases node with
    | file bytes => simp [content?, hnode, FileNode.content]
    | directory entries =>
      have hsome : (entries.lookup name).isSome = true ↔
          place ≠ .outside ∧ (d.content? (place.child name)).isSome = true := by
        rw [lookup_eq_at? hnode, content?, Option.isSome_map]
        split <;> simp_all
      simp only [content?_of_at? hnode, true_and]
      constructor
      · intro h
        split at h
        · exact ⟨_, .stay ‹_›, h⟩
        rename_i hidle
        have hidle : Path.isIdle name = false := Bool.eq_false_iff.mpr hidle
        split at h
        · exact ⟨_, .up hidle ‹_›, h⟩
        rename_i hup
        split at h
        · exact absurd h nofun
        rename_i hlong
        split at h
        · rename_i hthere
          exact ⟨_, .down hidle hup hlong (hsome.mp hthere).1 (hsome.mp hthere).2, h⟩
        · exact absurd h nofun
      · rintro ⟨next, hstep, h⟩
        cases hstep with
        | stay hidle => rwa [if_pos hidle]
        | up hidle hup => rwa [if_neg (by simp [hidle]), if_pos hup]
        | down hidle hup hlong hplace hchild =>
          rwa [if_neg (by simp [hidle]), if_neg hup, if_neg hlong, if_pos (hsome.mpr ⟨hplace, hchild⟩)]

/-- **A path leads where it led**, if nothing on its way was taken away. -/
theorem follow_of_grows (h : d.Grows d') {names : List String} {q : Place}
    (hq : d.follow place names = .ok q) : d'.follow place names = .ok q := by
  induction names generalizing place with
  | nil => exact hq
  | cons name names ih =>
    obtain ⟨hplace, next, hstep, hnext⟩ := follow_cons_eq_ok_iff.mp hq
    refine follow_cons_eq_ok_iff.mpr ⟨h.directory _ hplace, next, ?_, ih hnext⟩
    cases hstep with
    | stay hidle => exact .stay hidle
    | up hidle hup => exact .up hidle hup
    | down hidle hup hlong hinside hchild => exact .down hidle hup hlong hinside (h.isSome _ hchild)

theorem follow_append {names more : List String} {q r : Place} (hq : d.follow place names = .ok q)
    (hr : d.follow q more = .ok r) : d.follow place (names ++ more) = .ok r := by
  induction names generalizing place with
  | nil =>
    obtain rfl : place = q := Except.ok.inj hq
    exact hr
  | cons name names ih =>
    obtain ⟨hplace, next, hstep, hnext⟩ := follow_cons_eq_ok_iff.mp hq
    exact follow_cons_eq_ok_iff.mpr ⟨hplace, next, hstep, ih hnext⟩

/-- Where a path leads. -/
def locate (d : Directory) (path : String) : Except FileError Place := do
  checkPath path
  d.follow (origin path) (Path.names path)

theorem locate_eq_ok_iff : d.locate path = .ok place ↔
    checkPath path = .ok () ∧ d.follow (origin path) (Path.names path) = .ok place := by
  unfold locate
  cases checkPath path with
  | error e => exact ⟨nofun, fun h => absurd h.1 nofun⟩
  | ok u => exact ⟨fun h => ⟨rfl, h⟩, fun h => h.2⟩

theorem locate_of_grows (h : d.Grows d') (hlocate : d.locate path = .ok place) :
    d'.locate path = .ok place := by
  rw [locate_eq_ok_iff] at hlocate ⊢
  exact ⟨hlocate.1, follow_of_grows h hlocate.2⟩

/-- **A file is read where its path leads.** -/
theorem read_eq_ok_iff : d.read path = .ok bytes ↔
    ∃ place, d.locate path = .ok place ∧ d.content? place = some (.file bytes) := by
  unfold read locate
  cases checkPath path with
  | error e => simp [bind, Except.bind]
  | ok u =>
    cases d.follow (origin path) (Path.names path) with
    | error e => simp [bind, Except.bind]
    | ok place =>
      cases hnode : d.at? place with
      | none => simp [bind, Except.bind, throw, throwThe, MonadExceptOf.throw, content?, hnode]
      | some node =>
        cases node <;>
          simp [bind, Except.bind, pure, Except.pure, throw, throwThe, MonadExceptOf.throw,
            content?, hnode, FileNode.content]

/-! ## Changes -/

/-- What a path leads to whose last name need not be there. -/
theorem destination_eq_ok {noName : FileError} {there : Option FileNode}
    (h : d.destination path noName = .ok (place, there)) :
    ∃ name before parent entries, checkPath path = .ok () ∧ reversedNames path = name :: before ∧
      d.follow (origin path) before.reverse = .ok parent ∧
      d.at? parent = some (.directory entries) ∧ name ≠ "." ∧ name ≠ ".." ∧
      ¬ maxName < name.utf8ByteSize ∧ place = parent.child name ∧ there = entries.lookup name := by
  unfold destination at h
  cases hcheck : checkPath path with
  | error e =>
    rw [hcheck] at h
    exact absurd h nofun
  | ok u =>
    simp only [hcheck, bind, Except.bind] at h
    split at h
    · exact absurd h nofun
    rename_i name before hnames
    split at h
    · exact absurd h nofun
    rename_i parent hparent
    split at h
    · exact absurd h nofun
    rename_i entries hentries
    by_cases hdots : name = "." ∨ name = ".."
    · rw [if_pos hdots] at h
      exact absurd h nofun
    rw [if_neg hdots] at h
    by_cases hlong : maxName < name.utf8ByteSize
    · rw [if_pos hlong] at h
      exact absurd h nofun
    rw [if_neg hlong] at h
    obtain ⟨hplace, hthere⟩ := Prod.mk.inj (Except.ok.inj h)
    have hnode : d.at? parent = some (.directory entries) := by
      unfold entriesAt at hentries
      split at hentries
      · rename_i hat
        rw [hat, Except.ok.inj hentries]
      · exact absurd hentries nofun
      · exact absurd hentries nofun
    exact ⟨name, before, parent, entries, rfl, hnames, hparent, hnode, (not_or.mp hdots).1,
      (not_or.mp hdots).2, hlong, hplace.symm, hthere.symm⟩

/-- A path that does not end in a slash has its last name. -/
theorem names_eq {name : String} {before : List String} (h : reversedNames path = name :: before)
    (hlast : (Path.names path).getLast? ≠ some "") :
    Path.names path = before.reverse ++ [name] ∧ name ≠ "" := by
  unfold reversedNames at h
  have hdrop : (Path.names path).reverse.dropWhile (· = "") = (Path.names path).reverse := by
    cases hnames : (Path.names path).reverse with
    | nil => rfl
    | cons last rest =>
      rw [← List.head?_reverse, hnames] at hlast
      exact List.dropWhile_cons_of_neg (by simpa using hlast)
  rw [hdrop] at h
  have hnames : Path.names path = before.reverse ++ [name] := by
    rw [← List.reverse_reverse (Path.names path), h, List.reverse_cons]
  refine ⟨hnames, ?_⟩
  rintro rfl
  exact hlast (by simp [hnames])

theorem write_eq_ok {d' : Directory} (h : d.write path bytes = .ok d') : ∃ place there,
    d.destination path .isDirectory = .ok (place, there) ∧
      (∀ entries, there ≠ some (.directory entries)) ∧ (Path.names path).getLast? ≠ some "" ∧
      place ≠ .outside ∧ d' = d.putAt (.file bytes) place := by
  unfold write at h
  cases hdestination : d.destination path .isDirectory with
  | error e =>
    rw [hdestination] at h
    exact absurd h nofun
  | ok found =>
    obtain ⟨place, there⟩ := found
    rw [hdestination] at h
    simp only [bind, Except.bind] at h
    split at h
    · exact absurd h nofun
    rename_i hfile
    by_cases hlast : (Path.names path).getLast? = some ""
    · rw [if_pos hlast] at h
      exact absurd h nofun
    rw [if_neg hlast] at h
    by_cases houtside : place = .outside
    · rw [if_pos houtside] at h
      exact absurd h nofun
    rw [if_neg houtside] at h
    exact ⟨place, there, rfl, fun entries hthere => hfile entries hthere, hlast, houtside,
      (Except.ok.inj h).symm⟩

theorem makeDirectory_eq_ok {d' : Directory} (h : d.makeDirectory path = .ok d') : ∃ place,
    d.destination path .exists = .ok (place, none) ∧ place ≠ .outside ∧
      d' = d.putAt (.directory []) place := by
  unfold makeDirectory at h
  cases hdestination : d.destination path .exists with
  | error e =>
    rw [hdestination] at h
    exact absurd h nofun
  | ok found =>
    obtain ⟨place, there⟩ := found
    rw [hdestination] at h
    simp only [bind, Except.bind] at h
    cases there with
    | some old => exact absurd h nofun
    | none =>
      have hnone : ¬ (none : Option FileNode).isSome = true := nofun
      by_cases houtside : place = .outside
      · rw [if_neg hnone, if_pos houtside] at h
        exact absurd h nofun
      rw [if_neg hnone, if_neg houtside] at h
      exact ⟨place, rfl, houtside, (Except.ok.inj h).symm⟩

/-- A leaf put where a path leads sets that place. -/
theorem putAt_destination_sets {noName : FileError} {there : Option FileNode} {node : FileNode}
    (hleaf : node.IsLeaf) (h : d.destination path noName = .ok (place, there))
    (hinside : place ≠ .outside) (hold : ∀ old, there = some old → old.IsLeaf) :
    d.content? place = there.map FileNode.content ∧
      d.Sets place node.content (d.putAt node place) := by
  obtain ⟨name, before, parent, entries, -, -, -, hnode, -, -, -, rfl, rfl⟩ := destination_eq_ok h
  cases parent with
  | outside => exact absurd rfl hinside
  | inside names =>
    refine ⟨?_, putAt_sets hleaf hnode hold⟩
    rw [lookup_eq_at? hnode, if_neg nofun]
    rfl

/-- **What a successful write does**: the file is where its path leads, and nothing else changed. -/
theorem write_sets {d' : Directory} (h : d.write path bytes = .ok d') :
    ∃ place, d.content? place ≠ some .directory ∧ d.Sets place (.file bytes) d' ∧
      d'.locate path = .ok place := by
  obtain ⟨place, there, hdestination, hfile, hlast, hinside, rfl⟩ := write_eq_ok h
  have hold : ∀ old, there = some old → old.IsLeaf := by
    rintro (bytes | entries) hthere
    · exact FileNode.isLeaf_file bytes
    · exact absurd hthere (hfile entries)
  obtain ⟨hcontent, hsets⟩ :=
    putAt_destination_sets (FileNode.isLeaf_file bytes) hdestination hinside hold
  have hnot : d.content? place ≠ some .directory := by
    rw [hcontent]
    rcases there with - | (bytes | entries)
    · nofun
    · nofun
    · exact absurd rfl (hfile entries)
  refine ⟨place, hnot, hsets, ?_⟩
  obtain ⟨name, before, parent, entries, hcheck, hnames, hparent, hnode, hdot, hdots, hlong, rfl, -⟩ :=
    destination_eq_ok hdestination
  obtain ⟨hpath, hempty⟩ := names_eq hnames hlast
  have hgrows := hsets.grows hnot
  refine locate_eq_ok_iff.mpr ⟨hcheck, ?_⟩
  rw [hpath]
  -- the parent is where it was, and the last name is in it now
  refine follow_append (follow_of_grows hgrows hparent) (follow_cons_eq_ok_iff.mpr ?_)
  refine ⟨hgrows.directory _ (content?_of_at? hnode), _, .down ?_ hdots hlong ?_ ?_, rfl⟩
  · simp [Path.isIdle, hempty, hdot]
  · rintro rfl
    exact hinside rfl
  · rw [hsets.after, if_pos rfl]
    rfl

/-- **What a successful making of a directory does**: it is there, empty, and nothing else changed. -/
theorem makeDirectory_sets {d' : Directory} (h : d.makeDirectory path = .ok d') :
    ∃ place, d.content? place = none ∧ d.Sets place .directory d' := by
  obtain ⟨place, hdestination, hinside, rfl⟩ := makeDirectory_eq_ok h
  exact ⟨place, putAt_destination_sets FileNode.isLeaf_empty hdestination hinside nofun⟩

/-- **What was written is read.** -/
theorem read_of_write {d' : Directory} (h : d.write path bytes = .ok d') :
    d'.read path = .ok bytes := by
  obtain ⟨place, -, hsets, hlocate⟩ := write_sets h
  exact read_eq_ok_iff.mpr ⟨place, hlocate, by rw [hsets.after, if_pos rfl]⟩

end Directory

end ScenePack
