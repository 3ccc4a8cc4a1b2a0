import ScenePack.Proofs.Material.Field
import ScenePack.Proofs.Scene.Success

/-!
# What material entries author

An entry of a scene's materials authors some fields and leaves the others to its template. What it
authors goes from a key in the text through an optional component of the overrides and the overlay
into a record. All of that way is one equation for every field: the record has there what the entry
authors for it, or else what its template has.

* `FieldKind.authored?` is what a value authors, by its shape alone: it names no reader.
* `MaterialField.ofEntry?` is what an entry authors for a field, `MaterialTemplate.ofEntry?` the
  template that it comes to.

Results:
* `authored?_vector`, `authored?_scalar`, `authored?_mode`: the readers take what is authored.
* `written_of_ok`: the overrides that an entry is read as.
* `ofEntry?_of_ok`: the template that an entry is read as.
* **`words_record_of_ok`**: the words of each field of the record of an entry.
-/

namespace ScenePack

open Json (Value Fields)
open Outcome

/-! ## What a value authors -/

namespace FieldKind

/-- The word that stands for a mode in a record, by the mode's tag. -/
def modeWord? : String → Option UInt32
  | "physical" => some 0
  | "absolute" => some 1
  | _ => none

/-- The words that a value authors for a field of some kind, if it is well formed for it. A vector
is an array whose first three items are numbers, and a scalar is a number. A mode is a tag, or an
object with the tag as its one key and `null` as its value. -/
def authored? : FieldKind → Value → Option (List UInt32)
  | vector, .array (.number x :: .number y :: .number z :: _) =>
    some [x.toDouble.toSingle.bits, y.toDouble.toSingle.bits, z.toDouble.toSingle.bits]
  | scalar, .number n => some [n.toSingle.bits]
  | mode, .string tag => (modeWord? tag).map ([·])
  | mode, .object [(tag, .null)] => (modeWord? tag).map ([·])
  | _, _ => none

end FieldKind

/-- The words that an entry authors for a field. -/
def MaterialField.ofEntry? (f : MaterialField) (entry : Fields) : Option (List UInt32) :=
  (entry.get? f.key).bind f.kind.authored?

/-- The template of an entry: the default one if it names none, or, with `fallback`, if it names an
unknown one. -/
def MaterialTemplate.ofEntry? (fallback : Bool) (entry : Fields) : Option MaterialTemplate :=
  match entry.get? "template" with
  | none | some .null => some .default
  | some (.string tag) =>
    match ofTag? tag with
    | some t => some t
    | none => if fallback then some .default else none
  | some (.object [(tag, .null)]) => ofTag? tag
  | some _ => none

/-! ## What the readers take -/

/-- The single of a value, if it is a number. -/
def Field.single? : Value → Option Single
  | .number n => some n.toSingle
  | _ => none

/-- The mode of a value: its tag, or an object with the tag as its one key and `null` as its
value. -/
def EmissionMode.ofValue? : Value → Option EmissionMode
  | .string tag => ofTag? tag
  | .object [(tag, .null)] => ofTag? tag
  | _ => none

namespace FieldKind

theorem authored?_vector (v : Value) : vector.authored? v = (Field.vec3? v).map (·.words) := by
  unfold Field.vec3?
  split
  · rfl
  · rename_i hother
    unfold authored?
    split
    · exact absurd rfl (hother _ _ _ _)
    all_goals first | contradiction | rfl

theorem authored?_scalar (v : Value) : scalar.authored? v = (Field.single? v).map ([·.bits]) := by
  cases v <;> rfl

theorem modeWord?_eq (tag : String) :
    modeWord? tag = (EmissionMode.ofTag? tag).map EmissionMode.word := by
  unfold modeWord?
  split
  · rfl
  · rfl
  · rename_i hphysical habsolute
    simp [EmissionMode.ofTag?, EmissionMode.all, EmissionMode.tag, Ne.symm hphysical,
      Ne.symm habsolute]

theorem authored?_mode (v : Value) :
    mode.authored? v = ((EmissionMode.ofValue? v).map (·.word)).map ([·]) := by
  unfold EmissionMode.ofValue?
  split
  · rw [← modeWord?_eq]
    rfl
  · rw [← modeWord?_eq]
    rfl
  · unfold authored?
    split <;> simp_all

end FieldKind

/-! ## What an entry is read as -/

variable {entry : Fields} {key : String}

theorem single?_of_ok (v : Value) (s : Single) (h : (Field.single v).result = .ok s) :
    Field.single? v = some s := by
  cases v with
  | number n => exact congrArg some (pure_eq_ok_iff.mp h)
  | _ => exact absurd h nofun

theorem ofValue?_of_ok {known : List String} (v : Value) (mode : EmissionMode)
    (h : (Field.variant known EmissionMode.ofTag? v).result = .ok mode) :
    EmissionMode.ofValue? v = some mode := by
  obtain ⟨tag, rfl | rfl, htag⟩ := Field.variant_eq_ok_iff.mp h
  · exact htag
  · exact htag

/-- The words of a vector that is read. -/
theorem words_vector_of_ok {u : Option Vec3}
    (h : (Field.lookup entry key none Field.sparseVec3).result = .ok u) :
    u.map (·.words) = (entry.get? key).bind FieldKind.vector.authored? := by
  have hu : u = (entry.get? key).bind Field.vec3? := Field.lookup_sparse_of_ok
    (fun _ _ hv => (Except.ok.inj (Field.sparseVec3_result.symm.trans hv)).symm) h
  rw [hu, Option.map_bind, funext FieldKind.authored?_vector]
  rfl

/-- The word of a scalar that is read. -/
theorem words_scalar_of_ok {s : Option Single}
    (h : (Field.lookup entry key none (Field.nullable Field.single)).result = .ok s) :
    s.map ([·.bits]) = (entry.get? key).bind FieldKind.scalar.authored? := by
  have hs : s = (entry.get? key).bind Field.single? :=
    Field.lookup_sparse_of_ok (Field.nullable_of_ok rfl single?_of_ok) h
  rw [hs, Option.map_bind, funext FieldKind.authored?_scalar]
  rfl

/-- The word of a mode that is read. -/
theorem words_mode_of_ok {known : List String} {mode : Option EmissionMode}
    (h : (Field.lookup entry key none
      (Field.nullable (Field.variant known EmissionMode.ofTag?))).result = .ok mode) :
    (mode.map (·.word)).map ([·]) = (entry.get? key).bind FieldKind.mode.authored? := by
  have hmode : mode = (entry.get? key).bind EmissionMode.ofValue? :=
    Field.lookup_sparse_of_ok (Field.nullable_of_ok rfl ofValue?_of_ok) h
  rw [hmode, Option.map_bind, Option.map_bind, funext FieldKind.authored?_mode]
  rfl

/-- **The overrides of an entry** write to every field what the entry authors for it. -/
theorem MaterialOverrides.written_of_ok {o : MaterialOverrides}
    (h : (ofFields entry).result = .ok o) (f : MaterialField) : f.written o = f.ofEntry? entry := by
  simp only [ofFields, bind_eq_ok_iff, pure_eq_ok_iff] at h
  obtain ⟨absorption, habsorption, albedo, halbedo, clearcoat, hclearcoat, clearcoatRoughness,
    hclearcoatRoughness, emission, hemission, emissionMode, hemissionMode, emissionStrength,
    hemissionStrength, ior, hior, metallic, hmetallic, roughness, hroughness,
    scatteringAnisotropy, hscatteringAnisotropy, sheen, hsheen, specular, hspecular,
    specularTint, hspecularTint, subsurface, hsubsurface, subsurfaceRadius, hsubsurfaceRadius,
    transmission, htransmission, rfl⟩ := h
  cases f with
  | albedo => exact words_vector_of_ok halbedo
  | emission => exact words_vector_of_ok hemission
  | emissionStrength => exact words_scalar_of_ok hemissionStrength
  | emissionMode => exact words_mode_of_ok hemissionMode
  | roughness => exact words_scalar_of_ok hroughness
  | metallic => exact words_scalar_of_ok hmetallic
  | transmission => exact words_scalar_of_ok htransmission
  | ior => exact words_scalar_of_ok hior
  | specularTint => exact words_vector_of_ok hspecularTint
  | specular => exact words_scalar_of_ok hspecular
  | clearcoat => exact words_scalar_of_ok hclearcoat
  | clearcoatRoughness => exact words_scalar_of_ok hclearcoatRoughness
  | subsurface => exact words_scalar_of_ok hsubsurface
  | absorption => exact words_vector_of_ok habsorption
  | sheen => exact words_scalar_of_ok hsheen
  | subsurfaceRadius => exact words_scalar_of_ok hsubsurfaceRadius
  | scatteringAnisotropy => exact words_scalar_of_ok hscatteringAnisotropy

/-- A template's name is known, or it is a string. -/
theorem TemplateName.ofValue_of_ok {v : Value} {name : TemplateName}
    (h : (ofValue v).result = .ok name) :
    (∃ tag t, (v = .string tag ∨ v = .object [(tag, .null)]) ∧
      MaterialTemplate.ofTag? tag = some t ∧ name = known t) ∨
    ∃ tag, v = .string tag ∧ MaterialTemplate.ofTag? tag = none ∧ name = unknown tag := by
  unfold ofValue at h
  split at h
  · rename_i tag
    have hname := pure_eq_ok_iff.mp h
    cases htag : MaterialTemplate.ofTag? tag with
    | some t =>
      rw [htag] at hname
      exact .inl ⟨tag, t, .inl rfl, htag, hname.symm⟩
    | none =>
      rw [htag] at hname
      exact .inr ⟨tag, rfl, htag, hname.symm⟩
  · rename_i tag
    split at h
    · rename_i t htag
      exact .inl ⟨tag, t, .inr rfl, htag, (pure_eq_ok_iff.mp h).symm⟩
    · exact absurd h nofun
  · exact absurd h nofun

theorem MaterialHeader.resolve_of_ok {header : MaterialHeader} {fallback : Bool}
    {t : MaterialTemplate} (h : (header.resolve fallback).result = .ok t) :
    header.template = some (.known t) ∨
      t = .default ∧ (header.template = none ∨
        fallback = true ∧ ∃ tag, header.template = some (.unknown tag)) := by
  unfold resolve at h
  split at h
  · rename_i hnone
    exact .inr ⟨(pure_eq_ok_iff.mp h).symm, .inl hnone⟩
  · rename_i t' hknown
    rw [pure_eq_ok_iff.mp h] at hknown
    exact .inl hknown
  · rename_i tag hunknown
    cases fallback with
    | true => exact .inr ⟨(Except.ok.inj h).symm, .inr ⟨rfl, tag, hunknown⟩⟩
    | false => exact absurd h nofun

/-- **The template of an entry** is the one that it names, or the default one. -/
theorem MaterialTemplate.ofEntry?_of_ok {fallback : Bool} {header : MaterialHeader}
    {t : MaterialTemplate} (hheader : (MaterialHeader.ofFields entry).result = .ok header)
    (ht : (header.resolve fallback).result = .ok t) : ofEntry? fallback entry = some t := by
  simp only [MaterialHeader.ofFields, bind_eq_ok_iff, pure_eq_ok_iff] at hheader
  obtain ⟨name, -, template, htemplate, rfl⟩ := hheader
  unfold ofEntry?
  -- no template, `null`, a known name, an unknown one: each resolves in one way
  rcases Field.lookup_eq_ok_iff.mp htemplate with ⟨hget, rfl⟩ | ⟨v, hget, hv⟩
  · rcases MaterialHeader.resolve_of_ok ht with hknown | ⟨rfl, -⟩
    · exact absurd hknown nofun
    · rw [hget]
  rw [hget]
  rcases Field.nullable_eq_ok_iff.mp hv with ⟨rfl, rfl⟩ | ⟨-, name, hname, rfl⟩
  · rcases MaterialHeader.resolve_of_ok ht with hknown | ⟨rfl, -⟩
    · exact absurd hknown nofun
    · rfl
  · rcases TemplateName.ofValue_of_ok hname with ⟨tag, t', hform, htag, rfl⟩ | ⟨tag, rfl, htag, rfl⟩
    · rcases MaterialHeader.resolve_of_ok ht with hknown | ⟨-, hnone | ⟨-, tag', hunknown⟩⟩
      · obtain rfl := TemplateName.known.inj (Option.some.inj hknown)
        rcases hform with rfl | rfl
        · simp only [htag]
        · exact htag
      · exact absurd hnone nofun
      · exact absurd hunknown nofun
    · rcases MaterialHeader.resolve_of_ok ht with hknown | ⟨rfl, hnone | ⟨hfallback, -⟩⟩
      · exact absurd hknown nofun
      · exact absurd hnone nofun
      · simp only [htag, hfallback, if_true]

theorem Material.ofFields_of_ok {fallback : Bool} {m : Material}
    (h : (ofFields fallback entry).result = .ok m) :
    MaterialTemplate.ofEntry? fallback entry = some m.template ∧
      (MaterialOverrides.ofFields entry).result = .ok m.overrides := by
  simp only [ofFields, bind_eq_ok_iff, pure_eq_ok_iff] at h
  obtain ⟨header, hheader, t, ht, o, ho, rfl⟩ := h
  exact ⟨MaterialTemplate.ofEntry?_of_ok hheader ht, ho⟩

/-- **The words of a field of an entry's record** are those that the entry authors, or else its
template's. -/
theorem Material.words_record_of_ok {fallback : Bool} {m : Material}
    (h : (ofFields fallback entry).result = .ok m) (f : MaterialField) :
    f.words m.record = (f.ofEntry? entry).getD (f.words m.template.record) := by
  rw [record, f.words_overlay, MaterialOverrides.written_of_ok (ofFields_of_ok h).2 f]

end ScenePack
