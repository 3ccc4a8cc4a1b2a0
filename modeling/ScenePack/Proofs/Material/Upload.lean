import Mathlib.Data.List.Basic
import ScenePack.Proofs.Compiled.Assembly
import ScenePack.Proofs.Loading
import ScenePack.Proofs.Material.Authored
import ScenePack.Proofs.Validation.Accepted

/-!
# The material array of a scene

The records of a scene's materials lie one behind the other (`CompiledScene::materials_bytes`), each
a fixed number of bytes long, and every field is at a fixed place in its record. So the consumer of
the array finds what an entry of the scene text says without knowing what the other entries and
fields say.

* `HoldsEntry`: bytes hold, from some place on, what an entry says.

Results:
* `HoldsEntry.itemsAt_authored`, `HoldsEntry.itemsAt_template`: what stands at a field's place.
* `HoldsEntry.getElem?_eq`: entries that agree in all but one field are held by bytes that agree in
  all but that field's place.
* `holdsEntry_of_ok`: the array of a compiled scene holds the entries its materials are read from.
* **`materialBytes_hold_entries`**: both of a text that is loaded.
-/

namespace ScenePack

open Json (Value Fields)

variable {fallback : Bool} {entry entry' : Fields}

/-! ## Entries in an array -/

/-- Bytes hold, from `start` on, the record of an entry. -/
structure HoldsEntry (bytes : List UInt8) (start : Nat) (fallback : Bool) (entry : Fields) :
    Prop where
  /-- Every field is what the entry authors for it, or else what the entry's template has. -/
  field : ∃ t, MaterialTemplate.ofEntry? fallback entry = some t ∧ ∀ f : MaterialField,
    itemsAt bytes (start + f.offset) f.size =
      ((f.ofEntry? entry).getD (f.words t.record)).flatMap wordBytes
  padding : ∀ p ∈ MaterialRecord.paddingOffsets, itemsAt bytes (start + p) 4 = [0, 0, 0, 0]

namespace HoldsEntry

variable {bytes : List UInt8} {start : Nat} {f : MaterialField}

theorem itemsAt_authored (h : HoldsEntry bytes start fallback entry) {ws : List UInt32}
    (hws : f.ofEntry? entry = some ws) :
    itemsAt bytes (start + f.offset) f.size = ws.flatMap wordBytes := by
  obtain ⟨t, -, hfield⟩ := h.field
  rw [hfield, hws, Option.getD_some]

theorem itemsAt_template (h : HoldsEntry bytes start fallback entry) {t : MaterialTemplate}
    (ht : MaterialTemplate.ofEntry? fallback entry = some t) (hnone : f.ofEntry? entry = none) :
    itemsAt bytes (start + f.offset) f.size = (f.words t.record).flatMap wordBytes := by
  obtain ⟨t', ht', hfield⟩ := h.field
  obtain rfl : t = t' := Option.some.inj (ht.symm.trans ht')
  rw [hfield, hnone, Option.getD_none]

end HoldsEntry

/-- Two entries come to the same template, and author the same for every field but one. -/
def AgreeBut (fallback : Bool) (f : MaterialField) (entry entry' : Fields) : Prop :=
  MaterialTemplate.ofEntry? fallback entry = MaterialTemplate.ofEntry? fallback entry' ∧
    ∀ g, g ≠ f → g.ofEntry? entry = g.ofEntry? entry'

instance (f : MaterialField) : Decidable (AgreeBut fallback f entry entry') :=
  decidable_of_iff
    (MaterialTemplate.ofEntry? fallback entry = MaterialTemplate.ofEntry? fallback entry' ∧
      ∀ g ∈ MaterialField.all, g ≠ f → g.ofEntry? entry = g.ofEntry? entry')
    (and_congr_right fun _ => ⟨fun h g => h g g.mem_all, fun h g _ => h g⟩)

/-- **A field has only the bytes at its place in its hands**: whatever an entry authors for it, all
other bytes of the record are the same. -/
theorem HoldsEntry.getElem?_eq {bytes bytes' : List UInt8} {start start' : Nat}
    (h : HoldsEntry bytes start fallback entry) (h' : HoldsEntry bytes' start' fallback entry')
    {f : MaterialField} (hagree : AgreeBut fallback f entry entry') {k : Nat}
    (hk : k < MaterialRecord.stride) (hout : ¬(f.offset ≤ k ∧ k < f.offset + f.size)) :
    bytes[start + k]? = bytes'[start' + k]? := by
  -- the byte is of another field, for which the entries author the same, or of padding
  rcases MaterialRecord.offset_cover k hk with ⟨g, -, hle, hlt⟩ | ⟨p, hp, hle, hlt⟩
  · obtain ⟨t, ht, hfield⟩ := h.field
    obtain ⟨t', ht', hfield'⟩ := h'.field
    have hne : g ≠ f := by
      rintro rfl
      exact hout ⟨hle, hlt⟩
    have htemplate : t = t' := Option.some.inj (ht.symm.trans (hagree.1.trans ht'))
    have hspan : itemsAt bytes (start + g.offset) g.size =
        itemsAt bytes' (start' + g.offset) g.size := by
      rw [hfield, hfield', hagree.2 g hne, htemplate]
    exact getElem?_eq_of_itemsAt_eq hspan hle hlt
  · have hspan := (h.padding p hp).trans (h'.padding p hp).symm
    exact getElem?_eq_of_itemsAt_eq hspan hle hlt

/-! ## Compiled scenes -/

namespace CompiledScene

variable {c : CompiledScene}

theorem materialBytes_eq : c.materialBytes = c.materials.flatMap (·.bytes) := List.flatMap_assoc

theorem length_materialBytes :
    c.materialBytes.length = MaterialRecord.stride * c.materials.length := by
  rw [materialBytes_eq, length_flatMap_block MaterialRecord.length_bytes]

/-- **The material array holds the entries** that its materials are read from. -/
theorem holdsEntry_of_ok {i : Nat} (hi : i < c.materials.length) {m : Material}
    (hm : c.materials[i] = m.record) (h : (Material.ofFields fallback entry).result = .ok m) :
    HoldsEntry c.materialBytes (MaterialRecord.stride * i) fallback entry := by
  refine ⟨⟨m.template, (Material.ofFields_of_ok h).1, fun f => ?_⟩, fun p hp => ?_⟩
  · rw [materialBytes_eq, itemsAt_flatMap_block MaterialRecord.length_bytes hi f.offset_add_size_le,
      hm, MaterialRecord.itemsAt_bytes, Material.words_record_of_ok h]
  · have hle : p + 4 ≤ MaterialRecord.stride := MaterialRecord.paddingOffsets_add_le p hp
    rw [materialBytes_eq, itemsAt_flatMap_block MaterialRecord.length_bytes hi hle, hm,
      MaterialRecord.itemsAt_padding m.paddingZero_record hp]

end CompiledScene

/-! ## Texts -/

namespace SceneDescription

/-- The fields of an object. -/
def fields? : Value → Option Fields
  | .object fields => some fields
  | _ => none

/-- The entries of the material list of a scene's tree. -/
def treeEntries? : Value → Option (List Fields)
  | .object root =>
    match Fields.get? root "materials" with
    | some (.array vs) => vs.mapM fields?
    | _ => none
  | _ => none

/-- The entries of the material list of a scene text, its comments aside. -/
def materialEntries? (text : String) : Option (List Fields) :=
  (Json.parse (Comment.strip text.toList)).toOption.bind treeEntries?

theorem mapM_fields? :
    ∀ entries : List Fields, (entries.map Value.object).mapM fields? = some entries
  | [] => rfl
  | entry :: entries => by
    rw [List.map_cons, List.mapM_cons, mapM_fields? entries]
    rfl

/-- The materials of a text that is read are read from its entries, one from each. -/
theorem materialEntries?_of_ok {text : String} {d : SceneDescription}
    (h : (parse fallback text).result = .ok d) (hne : d.materials ≠ []) :
    ∃ entries, materialEntries? text = some entries ∧
      entries.map (fun e => (Material.ofFields fallback e).result) = d.materials.map .ok := by
  obtain ⟨root, hparse, hroot⟩ := parse_eq_ok_iff.mp h
  obtain ⟨vs, hvs, hmaterials⟩ := hroot.materials
  obtain ⟨entries, rfl, hentries⟩ := SceneReading.entries_eq_ok_iff.mp hmaterials
  refine ⟨entries, ?_, hentries⟩
  rcases SceneReading.items_eq_ok_iff.mp hvs with hget | ⟨-, hnil⟩
  · rw [materialEntries?, hparse]
    show treeEntries? (.object root) = _
    simp only [treeEntries?, hget, mapM_fields?]
  · rw [List.map_eq_nil_iff.mp hnil] at hentries
    exact absurd (List.map_eq_nil_iff.mp hentries.symm) hne

end SceneDescription

namespace LoadedScene

open SceneDescription

variable {s : Settings} {text : String} {l : LoadedScene}

/-- A scene that is loaded holds the entries of its text. -/
theorem holdsEntry_of_ok (h : (ofText s text).result = .ok l) :
    ∃ entries, materialEntries? text = some entries ∧
      l.compiled.materials.length = entries.length ∧
      ∀ i (hi : i < entries.length), HoldsEntry l.compiled.materialBytes
        (MaterialRecord.stride * i) s.templateFallback entries[i] := by
  obtain ⟨d, hd, hvalid, rfl⟩ := ofText_eq_ok_iff.mp h
  have hne : d.materials ≠ [] := (validate_eq_ok_iff_accepted.mp hvalid).materials_ne
  obtain ⟨entries, htext, hentries⟩ := materialEntries?_of_ok hd hne
  have hlength : entries.length = d.materials.length := by
    simpa using congrArg List.length hentries
  have hmaterials : d.loaded.compiled.materials = d.materials.map (·.record) :=
    CompiledScene.ofDescription_materials d
  refine ⟨entries, htext, ?_, fun i hi => ?_⟩
  · rw [hmaterials, List.length_map, hlength]
  · have hi' : i < d.materials.length := hlength ▸ hi
    have hread : (Material.ofFields s.templateFallback entries[i]).result = .ok d.materials[i] := by
      have h := congrArg (·[i]?) hentries
      simpa [hi, hi'] using h
    refine CompiledScene.holdsEntry_of_ok ?_ ?_ hread
    · rwa [hmaterials, List.length_map]
    · simp only [hmaterials, List.getElem_map]

/-- The text of a scene with two materials of glass. They differ in an albedo, of which four numbers
are given; the emission of the second is no vector. -/
def glassText : String :=
  "\x7b\"materials\":[\x7b\"name\":\"a\",\"template\":\"glass\"," ++
  ("\"sheen\":0.25,\"emissionMode\":\"absolute\"\x7d," ++
  ("\x7b\"name\":\"b\",\"template\":\"glass\"," ++
  ("\"sheen\":0.25,\"emissionMode\":\"absolute\"," ++
  ("\"emission\":[2,3],\"albedo\":[0.5,1,0.25,9]\x7d]," ++
  "\"objects\":[\x7b\"material\":\"b\"\x7d]\x7d"))))

end LoadedScene

end ScenePack
