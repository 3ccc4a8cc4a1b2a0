import ScenePack.Proofs.Json.Reprint
import ScenePack.Proofs.Scene.Fallback

/-!
# Versions that are numbers

A version that is written as a number stands for the text that the number is printed as, which need
not be the literal. So the scene is that of the literal as a string exactly if the literal is printed
again: an integer is as far as 64 bits go, a fraction of few digits if no zero is behind it and it is
not small.

* `Json.Value.version?`, `Json.Value.withVersion`: the version of a tree, and another in its place.
* `SceneDescription.versioned`: what comes of a scene with another version.

Results:
* `ofJson_number`: a number is read as its printed text.
* `ofJson_withVersion`: the rest of a scene does not depend on its version.
* **`numeric_version_printed`**: what a numeric version is read as, and when that is its literal.
-/

namespace ScenePack

open Json (Value Fields Number Spells FitsInteger IsSmall signText)
open Outcome Text

/-! ## Versions in trees -/

namespace Json.Value

/-- What a tree writes as the version of its scene. -/
def version? : Value → Option Value
  | object root =>
    match Fields.get? root "scene" with
    | some (object scene) => Fields.get? scene "version"
    | _ => none
  | _ => none

/-- A tree with another version in its place. -/
def withVersion (tree v : Value) : Value :=
  tree.mapObject (Fields.mapAt "scene" (mapObject (Fields.mapAt "version" fun _ => v)))

/-- A tree with a version has a section with it. -/
theorem version?_eq_some {tree v : Value} (h : tree.version? = some v) : ∃ root scene : Fields,
    tree = object root ∧ root.get? "scene" = some (object scene) ∧
      scene.get? "version" = some v := by
  unfold version? at h
  split at h
  · rename_i root
    split at h
    · rename_i scene hscene
      exact ⟨root, scene, rfl, hscene, h⟩
    · contradiction
  · contradiction

end Json.Value

/-! ## The header -/

namespace SceneHeader

variable {scene : Fields} {u : Value} {t : String} {n : Number} {header : SceneHeader}

theorem ofFields_of_version (h : scene.get? "version" = some u) : ofFields scene = do
    let name ← Field.lookup scene "name" none (Field.nullable Field.string)
    let version ← Reading.within (.key "version") (Field.nullable versionText u)
    return { name, version } := by
  have hlookup : Field.lookup scene "version" none (Field.nullable versionText) =
      Reading.within (.key "version") (Field.nullable versionText u) := by
    unfold Field.lookup
    rw [h]
  unfold ofFields
  rw [hlookup]

/-- A number is read as its printed text. -/
theorem ofFields_number (h : scene.get? "version" = some (.number n)) :
    ofFields (scene.mapAt "version" fun _ => .string n.print) = ofFields scene := by
  have hstring : (scene.mapAt "version" fun _ => .string n.print).get? "version" =
      some (.string n.print) := by
    rw [Json.Fields.get?_mapAt_self, h]
    rfl
  rw [ofFields_of_version hstring, ofFields_of_version h,
    Field.lookup_congr (Json.Fields.get?_mapAt_of_ne (by decide))]
  rfl

/-- A string is a version, whatever it says. -/
theorem ofFields_string_iff (h : scene.get? "version" = some (.string t)) :
    (ofFields scene).result = .ok header ↔
      (Field.lookup scene "name" none (Field.nullable Field.string)).result = .ok header.name ∧
        header.version = some t := by
  have hversion : (Reading.within (.key "version")
      (Field.nullable versionText (.string t))).result = .ok (some t) := rfl
  obtain ⟨name, version⟩ := header
  simp only [ofFields_of_version h, bind_eq_ok_iff, pure_eq_ok_iff, hversion, Except.ok.injEq,
    SceneHeader.mk.injEq]
  constructor
  · rintro ⟨name, hname, version, rfl, rfl, rfl⟩
    exact ⟨hname, rfl⟩
  · rintro ⟨hname, rfl⟩
    exact ⟨name, hname, _, rfl, rfl, rfl⟩

end SceneHeader

/-! ## Scenes with another version -/

namespace SceneDescription

open SceneReading

variable {fallback : Bool} {d : SceneDescription} {root root' scene : Fields} {tree v : Value}
  {s t : String} {n : Number}

/-- A section that is an object. -/
theorem part_of_object {α : Type} {key : String} {absent : α} {read : Fields → Reading α}
    (h : root.get? key = some (.object scene)) :
    part root key absent read = object [.key key] read (.object scene) := by
  unfold part
  rw [h]

/-- What comes of a scene with the text of another version. -/
def versioned (d : SceneDescription) (t : String) : Except SceneFault SceneDescription :=
  match SchemaVersion.parse? t with
  | some schema => .ok { d with info := ⟨d.info.name, t, schema⟩ }
  | none => .error ⟨.field [.key "scene", .key "version"], .badVersion t⟩

/-- **Different texts are different versions**, or different faults. -/
theorem versioned_inj : d.versioned s = d.versioned t ↔ s = t := by
  refine ⟨fun h => ?_, fun h => by rw [h]⟩
  unfold versioned at h
  split at h
  · split at h
    · have hinfo := congrArg SceneDescription.info (Except.ok.inj h)
      exact congrArg SceneInfo.version hinfo
    · contradiction
  · split at h
    · contradiction
    · have hproblem := congrArg SceneFault.problem (Except.error.inj h)
      exact Problem.badVersion.inj hproblem

/-- The other parts of a scene do not depend on its header. -/
theorem ReadFrom.congr_root (h : d.ReadFrom fallback root)
    (hget : ∀ key, key ≠ "scene" → root'.get? key = root.get? key) {info : SceneInfo}
    (hinfo : ∃ header, (part root' "scene" .blank SceneHeader.ofFields).result = .ok header ∧
      (SceneInfo.ofHeader header).result = .ok info) :
    ({ d with info } : SceneDescription).ReadFrom fallback root' := by
  have hmaterials : items root' "materials" = items root "materials" :=
    items_congr (hget _ (by decide))
  have hobjects : items root' "objects" = items root "objects" := items_congr (hget _ (by decide))
  refine ⟨hinfo, ?_, ?_, ?_, ?_, ?_⟩
  · rw [part_congr (hget _ (by decide))]
    exact h.camera
  · rw [part_congr (hget _ (by decide))]
    exact h.sky
  · rw [part_congr (hget _ (by decide))]
    exact h.render
  · rw [hmaterials]
    exact h.materials
  · rw [hobjects]
    exact h.objects

/-- Scenes with the same header and the same other parts are the same. -/
theorem ofRoot_congr (hget : ∀ key, key ≠ "scene" → root'.get? key = root.get? key)
    (hheader : part root' "scene" .blank SceneHeader.ofFields =
      part root "scene" .blank SceneHeader.ofFields) :
    ofRoot fallback root' = ofRoot fallback root := by
  have hmaterials : items root' "materials" = items root "materials" :=
    items_congr (hget _ (by decide))
  have hobjects : items root' "objects" = items root "objects" := items_congr (hget _ (by decide))
  unfold ofRoot
  rw [hheader, part_congr (hget "camera" (by decide)), part_congr (hget "sky" (by decide)),
    part_congr (hget "render" (by decide)), hmaterials, hobjects]

/-- A root with another version in its scene. -/
def rootWith (root : Fields) (u : Value) : Fields :=
  root.mapAt "scene" (Value.mapObject (Fields.mapAt "version" fun _ => u))

theorem get?_rootWith_of_ne (u : Value) (key : String) (h : key ≠ "scene") :
    (rootWith root u).get? key = root.get? key := Json.Fields.get?_mapAt_of_ne h

theorem get?_rootWith_self (hroot : root.get? "scene" = some (.object scene)) (u : Value) :
    (rootWith root u).get? "scene" = some (.object (scene.mapAt "version" fun _ => u)) := by
  rw [rootWith, Json.Fields.get?_mapAt_self, hroot]
  rfl

/-- **A number is read as its printed text.** -/
theorem ofJson_number (htree : tree.version? = some (.number n)) :
    ofJson fallback (tree.withVersion (.string n.print)) = ofJson fallback tree := by
  obtain ⟨root, scene, rfl, hroot, hscene⟩ := Value.version?_eq_some htree
  show ofRoot fallback (rootWith root (.string n.print)) = ofRoot fallback root
  refine ofRoot_congr (get?_rootWith_of_ne _) ?_
  rw [part_of_object hroot, part_of_object (get?_rootWith_self hroot _)]
  simp only [object, SceneHeader.ofFields_number hscene]

/-- The header of a scene with another version. -/
theorem part_rootWith_iff (hroot : root.get? "scene" = some (.object scene))
    (hscene : scene.get? "version" = some v) {header : SceneHeader} :
    (part (rootWith root (.string t)) "scene" .blank SceneHeader.ofFields).result = .ok header ↔
      (Field.lookup scene "name" none (Field.nullable Field.string)).result = .ok header.name ∧
        header.version = some t := by
  have hversion : (scene.mapAt "version" fun _ => .string t).get? "version" = some (.string t) := by
    rw [Json.Fields.get?_mapAt_self, hscene]
    rfl
  rw [part_of_object (get?_rootWith_self hroot _), object_eq_ok_iff,
    ← Field.lookup_congr (Json.Fields.get?_mapAt_of_ne (by decide : "name" ≠ "version")),
    ← SceneHeader.ofFields_string_iff hversion]
  simp

/-- The header of a scene with a version. -/
theorem ofHeader_version (name : Option String) (t : String) :
    (SceneInfo.ofHeader ⟨name, some t⟩).result =
      match SchemaVersion.parse? t with
      | some schema => .ok ⟨name.getD SceneInfo.default.name, t, schema⟩
      | none => .error ⟨.field [.key "scene", .key "version"], .badVersion t⟩ := by
  unfold SceneInfo.ofHeader
  dsimp only [Option.getD_some]
  cases SchemaVersion.parse? t <;> rfl

/-- **The rest of a scene does not depend on its version.** -/
theorem ofJson_withVersion (htree : tree.version? = some v)
    (hread : (ofJson fallback (tree.withVersion (.string s))).result = .ok d) (t : String) :
    (ofJson fallback (tree.withVersion (.string t))).result = d.versioned t := by
  obtain ⟨root, scene, rfl, hroot, hscene⟩ := Value.version?_eq_some htree
  have hfrom : d.ReadFrom fallback (rootWith root (.string s)) := ofRoot_eq_ok_iff.mp hread
  obtain ⟨⟨name, version⟩, hheader, hinfo⟩ := hfrom.info
  obtain ⟨hname, rfl⟩ := (part_rootWith_iff hroot hscene).mp hheader
  have hheader' : (part (rootWith root (.string t)) "scene" .blank SceneHeader.ofFields).result =
      .ok ⟨name, some t⟩ := (part_rootWith_iff hroot hscene).mpr ⟨hname, rfl⟩
  have hdefault : d.info.name = name.getD SceneInfo.default.name := by
    rw [ofHeader_version] at hinfo
    split at hinfo
    · rw [← Except.ok.inj hinfo]
    · contradiction
  have hversion := ofHeader_version name t
  show (ofRoot fallback (rootWith root (.string t))).result = d.versioned t
  unfold versioned
  cases hschema : SchemaVersion.parse? t with
  | some schema =>
    rw [hschema, ← hdefault] at hversion
    refine ofRoot_eq_ok_iff.mpr (hfrom.congr_root (fun key hkey => ?_) ⟨_, hheader', hversion⟩)
    rw [get?_rootWith_of_ne _ key hkey, get?_rootWith_of_ne _ key hkey]
  | none =>
    rw [hschema] at hversion
    unfold ofRoot
    rw [result_bind_of_ok hheader', result_bind_of_error hversion]

theorem parse_of_tree {text : String}
    (htext : Json.parse (Comment.strip text.toList) = .ok tree) :
    parse fallback text = ofJson fallback tree := by
  unfold parse ofStripped
  rw [htext]

/-- **A numeric version is read as the text that its number is printed as**, and so as its literal
exactly if that is printed again. Let a text have the number of a literal as its version, and another
text, else the same, the literal as a string.

* The first is read as if the printed text stood in it as a string, and if that is the literal, as
  the second.
* If some version makes a scene of the rest, each text is that scene with its version, or a fault at
  the version, and the two agree only if the literal is printed again.
* An integer is printed as its literal exactly if it fits 64 bits.
* A fraction of few digits is printed without the zeros behind it, or with an exponent if it is
  small. -/
theorem numeric_version_printed (fallback : Bool) {text text' literal : String}
    (htext : Json.parse (Comment.strip text.toList) = .ok tree)
    (hversion : tree.version? = some (.number n))
    (hliteral : Spells literal.toList (.plain (.ok (.number n))))
    (htext' : Json.parse (Comment.strip text'.toList) = .ok (tree.withVersion (.string literal))) :
    parse fallback text = ofJson fallback (tree.withVersion (.string n.print)) ∧
    (n.print = literal → parse fallback text = parse fallback text') ∧
    (∀ s d, (ofJson fallback (tree.withVersion (.string s))).result = .ok d →
      (parse fallback text).result = d.versioned n.print ∧
      (parse fallback text').result = d.versioned literal ∧
      ((parse fallback text).result = (parse fallback text').result ↔ n.print = literal)) ∧
    (∀ negative ds, PlainDigits ds → literal.toList = signText negative ++ ds →
      (n.print = literal ↔ FitsInteger negative (ofDigits ds))) ∧
    ∀ negative whole fraction, PlainDigits whole → Digits fraction →
      whole.length + fraction.length ≤ 15 →
      literal.toList = signText negative ++ (whole ++ '.' :: fraction) →
      (¬ IsSmall whole fraction →
        n.print.toList = signText negative ++ (whole ++ '.' :: trimZeros fraction)) ∧
      (IsSmall whole fraction → 'e' ∈ n.print.toList) := by
  have hprinted : parse fallback text = ofJson fallback (tree.withVersion (.string n.print)) :=
    (parse_of_tree htext).trans (ofJson_number hversion).symm
  have hquoted : parse fallback text' = ofJson fallback (tree.withVersion (.string literal)) :=
    parse_of_tree htext'
  refine ⟨hprinted, fun h => by rw [hprinted, hquoted, h], fun s d hread => ?_, ?_, ?_⟩
  · rw [hprinted, hquoted, ofJson_withVersion hversion hread, ofJson_withVersion hversion hread]
    exact ⟨rfl, rfl, versioned_inj⟩
  · intro negative ds hds hsplit
    rw [← String.toList_inj, hsplit]
    exact Json.print_integer_iff hds (hsplit ▸ hliteral)
  · intro negative whole fraction hwhole hfraction hlength hsplit
    exact Json.print_fraction hwhole hfraction hlength (hsplit ▸ hliteral)

/-- The text of a scene that is a version and nothing else. -/
def bareText (version : String) : String :=
  "\x7b\"scene\":\x7b\"version\":" ++ version ++ "\x7d\x7d"

/-- The tree of such a text. -/
def bareTree (version : Value) : Value := .object [("scene", .object [("version", version)])]

theorem numeric_version_printed_trailing_zero : ∃ n,
    Json.parse (Comment.strip (bareText "1.10").toList) = .ok (bareTree (.number n)) ∧
    Spells "1.10".toList (.plain (.ok (.number n))) ∧ n.print = "1.1" ∧
    (parse false (bareText "1.10")).result ≠ (parse false (bareText "\"1.10\"")).result := by
  obtain ⟨n, htext, hliteral⟩ : ∃ n,
      Json.parse (Comment.strip (bareText "1.10").toList) = .ok (bareTree (.number n)) ∧
      Spells "1.10".toList (.plain (.ok (.number n))) := by
    refine ⟨Json.signed false (Json.shiftDown (Double.ofInt (110 : Nat)) 2), rfl, ?_⟩
    have hquotient (x : Double) : Json.shiftDown x 2 = x.div (Json.powerOfTen 2) :=
      if_pos (by decide)
    have hwhole : PlainDigits ['1'] := ⟨by decide, by decide⟩
    have hfraction : Digits ['1', '0'] := by decide
    rw [hquotient]
    exact Json.spells_fraction false hwhole hfraction (by decide) (by decide)
  have htext' : Json.parse (Comment.strip (bareText "\"1.10\"").toList) =
      .ok ((bareTree (.number n)).withVersion (.string "1.10")) := rfl
  obtain ⟨-, -, hscene, -, hfraction⟩ :=
    numeric_version_printed false htext rfl hliteral htext'
  obtain ⟨d, hd⟩ := Outcome.isOk_iff.mp
    (show (ofJson false (bareTree (.string "1"))).result.isOk = true by decide)
  have hprint : n.print = "1.1" := String.toList_inj.mp
    ((hfraction false ['1'] ['1', '0'] ⟨by decide, by decide⟩ (by decide) (by decide) rfl).1
      (by decide))
  refine ⟨n, htext, hliteral, hprint, fun heq => ?_⟩
  rw [(hscene "1" d hd).2.2.mp heq] at hprint
  exact absurd hprint (by decide)

/-- A version that is written as `1.10` is `1.1` as a number, and `1.10` as a string. -/
theorem version_loses_zero :
    (parse false (bareText "1.10")).result.toOption.map (·.info) =
      some ⟨"Untitled Scene", "1.1", ⟨1, 1⟩⟩ ∧
    (parse false (bareText "\"1.10\"")).result.toOption.map (·.info) =
      some ⟨"Untitled Scene", "1.10", ⟨1, 10⟩⟩ := by
  decide +kernel

end SceneDescription

end ScenePack
