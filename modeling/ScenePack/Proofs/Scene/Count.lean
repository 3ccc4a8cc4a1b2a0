import ScenePack.Proofs.Binary.Whole
import ScenePack.Proofs.Scene.FirstFault

/-!
# Counts

The count fields of a scene hold integers of 32 bits. They may be written as any number, and every
number is taken to a double before it is asked whether it is a count; so it takes an argument that
what is read is what is written.

* `CountField` names the count fields, `CountField.StandsAt` where each may stand: the iterations
  among the bloom settings have a place in each of the forms that these are written in.
* `Number.IsInteger`: a number has the value of an integer, and not just after rounding.

Results:
* **`Field.count_result`**: a count field reads a number as the integer that it is, if that is in
  range, and else not at all.
* `mem_visits`: a count field that is written is visited at its path.
* `count_of_ofJson`: a scene that is read has in the field what is written there.
* **`counts_are_exact`**: from a text on.
-/

namespace ScenePack

open BinaryFormat Outcome ScenePlace
open Json (Value Fields Number)

/-! ## Numbers that are integers -/

namespace Json

/-- The number is the integer `k`: it was written as that, or is a double of that value. Both zeros
are. -/
def Number.IsInteger : Number → Int → Prop
  | .integer j, k => j = k
  | .real x, k => double.HasValue x.number k

/-- The number is an integer that a count may be. -/
def Number.InRange (n : Number) : Prop := ∃ k, n.IsInteger k ∧ 0 ≤ k ∧ k ≤ 2 ^ 32 - 1

variable {n : Number} {c : UInt32}

/-- **What a number is as a count**: the integer that it is. -/
theorem Number.toCount?_eq_some_iff : n.toDouble.toCount? = some c ↔ n.IsInteger c.toNat := by
  cases n with
  | integer k => exact Double.toCount?_ofInt
  | real x => exact Double.toCount?_eq_some_iff

theorem Number.inRange_iff : n.InRange ↔ ∃ c, n.toDouble.toCount? = some c := by
  simp only [toCount?_eq_some_iff]
  constructor
  · rintro ⟨k, hk, hlow, hhigh⟩
    refine ⟨UInt32.ofNat k.toNat, ?_⟩
    have hword : (UInt32.ofNat k.toNat).toNat = k.toNat :=
      UInt32.toNat_ofNat_of_lt' (by unfold UInt32.size; omega)
    rwa [hword, Int.toNat_of_nonneg hlow]
  · rintro ⟨c, hc⟩
    have hlt : c.toNat < 2 ^ 32 := c.toNat_lt
    exact ⟨c.toNat, hc, by omega, by omega⟩

/-- What stands at the end of a path. -/
def Value.at? : List PathStep → Value → Option Value
  | [], v => some v
  | .key key :: path, .object fields => (Fields.get? fields key).bind (at? path)
  | .index i :: path, .array items => items[i]?.bind (at? path)
  | _, _ => none

namespace Value

variable {path : List PathStep} {u v : Value}

theorem at?_key_eq_some_iff {key : String} : u.at? (.key key :: path) = some v ↔
    ∃ fields w, u = .object fields ∧ Fields.get? fields key = some w ∧ w.at? path = some v := by
  cases u with
  | object fields => simp [at?, Option.bind_eq_some_iff]
  | _ => simp [at?]

theorem at?_index_eq_some_iff {i : Nat} : u.at? (.index i :: path) = some v ↔
    ∃ items w, u = .array items ∧ items[i]? = some w ∧ w.at? path = some v := by
  cases u with
  | array items => simp [at?, Option.bind_eq_some_iff]
  | _ => simp [at?]

theorem at?_nil_eq_some_iff : u.at? [] = some v ↔ u = v := by simp [at?]

end Value

end Json

/-- **A count field reads a number** as the integer that it is, if that is in range. -/
theorem Field.count_result (n : Number) :
    (∀ c, (Field.count (.number n)).result = .ok c ↔ n.IsInteger c.toNat) ∧
    (¬ n.InRange → (Field.count (.number n)).result = .error ⟨[], .notCount n.toDouble⟩) := by
  unfold Field.count
  rw [Number.inRange_iff]
  simp only [← Number.toCount?_eq_some_iff]
  cases n.toDouble.toCount? with
  | some c => exact ⟨fun c' => by simp [pure_eq_ok_iff], fun h => absurd ⟨c, rfl⟩ h⟩
  | none => exact ⟨fun c' => by simp [Reading.problem_ne_ok], fun _ => rfl⟩

/-- Of counts, only those in range fit. -/
theorem FieldType.count_fits_iff (n : Number) :
    FieldType.count.fits (.number n) = true ↔ n.InRange := by
  rw [Number.inRange_iff]
  exact Option.isSome_iff_exists

/-! ## The count fields -/

/-- Where the iterations stand in the bloom settings, which are an object or a list. -/
inductive Bloom.IterationsAt : List PathStep → Prop
  | key : IterationsAt [.key "iterations"]
  | item : IterationsAt [.index 4]

/-- The fields of a scene that hold counts. -/
inductive CountField where
  | width
  | height
  | samplesPerFrame
  | maxSamples
  | maxBounces
  | iterations
  deriving DecidableEq, Repr

namespace CountField

/-- The count that settings have in a field. -/
def get (s : RenderSettings) : CountField → UInt32
  | width => s.width
  | height => s.height
  | samplesPerFrame => s.samplesPerFrame
  | maxSamples => s.maxSamples
  | maxBounces => s.maxBounces
  | iterations => s.bloom.iterations

/-- Where a field may stand in the render settings. -/
inductive StandsAt : CountField → List PathStep → Prop
  | width : StandsAt width [.key "width"]
  | height : StandsAt height [.key "height"]
  | samplesPerFrame : StandsAt samplesPerFrame [.key "samplesPerFrame"]
  | maxSamples : StandsAt maxSamples [.key "maxSamples"]
  | maxBounces : StandsAt maxBounces [.key "maxBounces"]
  | iterations {path : List PathStep} (h : Bloom.IterationsAt path) :
      StandsAt iterations (.key "bloom" :: path)

end CountField

/-! ## Places of counts -/

variable {fields : Fields} {key : String} {t : FieldType} {v : Value} {path : List PathStep}

/-- A field that is written is a place of the rows that know its key. -/
theorem mem_rowPlaces (hv : fields.get? key = some v) : ∀ {rows : List (String × FieldType)},
    (key, t) ∈ rows → (t.place v).within (.key key) ∈ rowPlaces fields rows
  | (key', t') :: rows, hmem => by
    rw [rowPlaces, List.mem_append]
    rcases List.mem_cons.mp hmem with heq | hmem
    · obtain ⟨rfl, rfl⟩ := Prod.mk.inj heq
      rw [hv]
      exact .inl (List.mem_singleton.mpr rfl)
    · exact .inr (mem_rowPlaces hv hmem)

/-- An item that is written is a place of the list. -/
theorem Bloom.mem_itemPlaces {items : List Value} : ∀ {ts : List FieldType} {i j : Nat},
    ts[j]? = some t → items[i + j]? = some v →
      (t.place v).within (.index (i + j)) ∈ itemPlaces items i ts
  | t' :: ts, i, 0, ht, hv => by
    obtain rfl := Option.some.inj ht
    rw [itemPlaces, List.mem_append]
    rw [Nat.add_zero] at hv ⊢
    rw [hv]
    exact .inl (List.mem_singleton.mpr rfl)
  | t' :: ts, i, j + 1, ht, hv => by
    have hposition : i + (j + 1) = i + 1 + j := by omega
    rw [hposition] at hv ⊢
    rw [itemPlaces, List.mem_append]
    exact .inr (mem_itemPlaces ht hv)

open Json.Value in
/-- A field that is written is a place of its schema. -/
theorem Schema.mem_places {s : Schema} (hrow : (key, t) ∈ s.fields)
    (hv : (Value.object fields).at? [.key key] = some v) :
    (t.place v).within (.key key) ∈ s.places fields := by
  obtain ⟨_, w, hfields, hget, hw⟩ := at?_key_eq_some_iff.mp hv
  obtain rfl := Value.object.inj hfields
  obtain rfl := at?_nil_eq_some_iff.mp hw
  exact mem_rowPlaces hget hrow

open Json.Value in
/-- A field that is written is what its reader makes of it. -/
theorem Field.lookup_of_at? {α : Type} {read : Value → Reading α} {absent a : α}
    (hv : (Value.object fields).at? [.key key] = some v)
    (h : (Field.lookup fields key absent read).result = .ok a) : (read v).result = .ok a := by
  obtain ⟨_, w, hfields, hget, hw⟩ := at?_key_eq_some_iff.mp hv
  obtain rfl := Value.object.inj hfields
  obtain rfl := at?_nil_eq_some_iff.mp hw
  unfold lookup at h
  rw [hget] at h
  exact Reading.within_eq_ok_iff.mp h

namespace Bloom

open Json.Value

variable {settings : Value}

/-- The iterations are a place of the bloom settings, in either form. -/
theorem mem_places (hpath : IterationsAt path) (hv : settings.at? path = some v) :
    ⟨path, !FieldType.count.fits v⟩ ∈ places settings := by
  cases hpath with
  | key =>
    obtain ⟨fields, _, rfl, -, -⟩ := at?_key_eq_some_iff.mp hv
    exact Schema.mem_places (s := schema) (t := .count) (by simp [schema]) hv
  | item =>
    obtain ⟨items, _, rfl, hitem, hw⟩ := at?_index_eq_some_iff.mp hv
    obtain rfl := at?_nil_eq_some_iff.mp hw
    have hplace : _ ∈ itemPlaces items 0 itemTypes :=
      mem_itemPlaces (i := 0) (j := 4) (t := .count) rfl hitem
    exact List.mem_append_left _ hplace

/-- The iterations of bloom settings are read from what is written there. -/
theorem count_of_ofValue {b : Bloom} (hpath : IterationsAt path) (hv : settings.at? path = some v)
    (h : (ofValue settings).result = .ok b) : (Field.count v).result = .ok b.iterations := by
  cases hpath with
  | key =>
    obtain ⟨fields, _, rfl, -, -⟩ := at?_key_eq_some_iff.mp hv
    simp only [ofValue, ofFields, bind_eq_ok_iff, pure_eq_ok_iff] at h
    obtain ⟨_, -, _, -, _, -, _, hiterations, _, -, _, -, rfl⟩ := h
    exact Field.lookup_of_at? hv hiterations
  | item =>
    obtain ⟨items, _, rfl, hitem, hw⟩ := at?_index_eq_some_iff.mp hv
    obtain rfl := at?_nil_eq_some_iff.mp hw
    simp only [ofValue, ofItems, bind_eq_ok_iff] at h
    obtain ⟨_, -, _, -, _, -, _, -, _, hiterations, _, -, h⟩ := h
    unfold item at hiterations
    rw [hitem] at hiterations
    split at h
    · obtain ⟨_, hproblem, -⟩ := bind_eq_ok_iff.mp h
      exact absurd hproblem Reading.problem_ne_ok
    · obtain rfl := pure_eq_ok_iff.mp h
      exact Reading.within_eq_ok_iff.mp hiterations

end Bloom

namespace CountField

open Json.Value

variable {f : CountField}

/-- The render settings that a count field stands in are an object. -/
theorem StandsAt.exists_fields {settings : Value} (hf : f.StandsAt path)
    (hv : settings.at? path = some v) : ∃ fields, settings = .object fields := by
  cases hf <;> exact (at?_key_eq_some_iff.mp hv).imp fun _ h => h.choose_spec.1

/-- **A count field is a place of the render settings.** -/
theorem StandsAt.mem_places (hf : f.StandsAt path) (hv : (Value.object fields).at? path = some v) :
    ⟨path, !FieldType.count.fits v⟩ ∈ RenderSettings.places fields := by
  have hplain {key : String} (hrow : (key, .count) ∈ RenderSettings.schema.fields)
      (hv : (Value.object fields).at? [.key key] = some v) :
      ⟨[.key key], !FieldType.count.fits v⟩ ∈ RenderSettings.places fields :=
    List.mem_append_right _ (Schema.mem_places (t := .count) hrow hv)
  cases hf with
  | iterations h =>
    obtain ⟨_, settings, hfields, hget, hw⟩ := at?_key_eq_some_iff.mp hv
    obtain rfl := Value.object.inj hfields
    unfold RenderSettings.places
    rw [hget]
    exact List.mem_append_left _ (List.mem_map_of_mem (Bloom.mem_places h hw))
  | _ => exact hplain (by simp [RenderSettings.schema]) hv

/-- **The count that settings have in a field** is read from what is written there. -/
theorem StandsAt.count_of_ofFields {s : RenderSettings} (hf : f.StandsAt path)
    (hv : (Value.object fields).at? path = some v)
    (h : (RenderSettings.ofFields fields).result = .ok s) :
    (Field.count v).result = .ok (f.get s) := by
  simp only [RenderSettings.ofFields, bind_eq_ok_iff, pure_eq_ok_iff] at h
  obtain ⟨bloom, hbloom, height, hheight, maxBounces, hmaxBounces, maxSamples, hmaxSamples,
    samplesPerFrame, hsamplesPerFrame, width, hwidth, rfl⟩ := h
  cases hf with
  | width => exact Field.lookup_of_at? hv hwidth
  | height => exact Field.lookup_of_at? hv hheight
  | samplesPerFrame => exact Field.lookup_of_at? hv hsamplesPerFrame
  | maxSamples => exact Field.lookup_of_at? hv hmaxSamples
  | maxBounces => exact Field.lookup_of_at? hv hmaxBounces
  | iterations hpath =>
    obtain ⟨_, settings, hfields, hget, hw⟩ := at?_key_eq_some_iff.mp hv
    obtain rfl := Value.object.inj hfields
    have hsettings : (Value.object fields).at? [.key "bloom"] = some settings :=
      at?_key_eq_some_iff.mpr ⟨fields, settings, rfl, hget, rfl⟩
    exact Bloom.count_of_ofValue hpath hw (Field.lookup_of_at? hsettings hbloom)

end CountField

/-! ## Scenes -/

namespace SceneDescription

open Json.Value SceneReading

variable {f : CountField} {fallback : Bool} {tree : Value} {d : SceneDescription}

/-- **A count field that is written is visited at its path.** -/
theorem mem_visits (fallback : Bool) (hf : f.StandsAt path)
    (hv : tree.at? (.key "render" :: path) = some v) :
    ⟨.field (.key "render" :: path), !FieldType.count.fits v⟩ ∈ visits fallback tree := by
  obtain ⟨root, settings, rfl, hget, hv⟩ := at?_key_eq_some_iff.mp hv
  obtain ⟨fields, rfl⟩ := hf.exists_fields hv
  have hpart : ⟨.field (.key "render" :: path), !FieldType.count.fits v⟩ ∈
      partPlaces root "render" RenderSettings.places := by
    unfold partPlaces
    rw [hget]
    exact List.mem_cons_of_mem _ (List.mem_map.mpr ⟨_, hf.mem_places hv, rfl⟩)
  unfold visits rootVisits
  simp only [Value.fieldsOf, List.mem_cons, List.mem_append, hpart, true_or, or_true]

/-- **A scene that is read** has in a count field what is written there. -/
theorem count_of_ofJson (hf : f.StandsAt path) (hv : tree.at? (.key "render" :: path) = some v)
    (h : (ofJson fallback tree).result = .ok d) : (Field.count v).result = .ok (f.get d.render) := by
  obtain ⟨root, settings, rfl, hget, hv⟩ := at?_key_eq_some_iff.mp hv
  obtain ⟨fields, rfl⟩ := hf.exists_fields hv
  have hrender := (ofRoot_eq_ok_iff.mp h).render
  unfold part at hrender
  rw [hget] at hrender
  exact hf.count_of_ofFields hv (mapError_eq_ok_iff.mp hrender)

/-- **Counts are exact.** Let a text have a number in a count field.

* A scene that is read from the text has in the field the integer that the number is.
* The field is visited at its path, and offends there exactly if the number is no integer in range.
* If it is one, the text is read iff nothing else offends. If it is none, the text is not read, and
  the fault is at the field unless something that is visited before offends. -/
theorem counts_are_exact (fallback : Bool) {text : String} {n : Number}
    (htext : Json.parse (Comment.strip text.toList) = .ok tree) (hf : f.StandsAt path)
    (hn : tree.at? (.key "render" :: path) = some (.number n)) :
    (∀ d, (parse fallback text).result = .ok d → n.IsInteger (f.get d.render).toNat) ∧
    ∃ before offends after,
      visits fallback tree = before ++ ⟨.field (.key "render" :: path), offends⟩ :: after ∧
      (offends = false ↔ n.InRange) ∧
      (n.InRange → ((parse fallback text).result.isOk = true ↔ Clear before ∧ Clear after)) ∧
      (¬ n.InRange → ∃ fault, (parse fallback text).result = .error fault ∧
        (Clear before → fault.location = .field (.key "render" :: path))) := by
  have hparse : parse fallback text = ofJson fallback tree := by
    unfold parse ofStripped
    rw [htext]
  have hfirst := ofJson_visits fallback tree
  obtain ⟨before, after, hvisits⟩ := List.append_of_mem (mem_visits fallback hf hn)
  have hoffends : (!FieldType.count.fits (.number n)) = false ↔ n.InRange := by
    rw [Bool.not_eq_false', FieldType.count_fits_iff]
  rw [hparse]
  refine ⟨fun d hd => ?_, before, _, after, hvisits, hoffends, fun hin => ?_, fun hout => ?_⟩
  · exact ((Field.count_result n).1 _).mp (count_of_ofJson hf hn hd)
  · rw [hfirst.isOk_iff, hvisits, clear_append, clear_cons, hoffends]
    exact and_congr_right fun _ => and_iff_right hin
  · have hwrong : (!FieldType.count.fits (.number n)) = true := by
      rw [← Bool.not_eq_false, hoffends]
      exact hout
    cases hresult : (ofJson fallback tree).result with
    | ok d =>
      have hclear := hfirst.isOk_iff.mp (isOk_iff.mpr ⟨d, hresult⟩)
      rw [hvisits, clear_append, clear_cons, hoffends] at hclear
      exact absurd hclear.2.1 hout
    | error fault =>
      refine ⟨fault, rfl, fun hbefore => ?_⟩
      have hlocation := firstOffending_eq_some_iff.mpr (hfirst.first_of_error hresult)
      rw [hvisits, firstOffending_append, firstOffending_eq_none_iff.mpr hbefore, Option.none_or,
        firstOffending_cons, if_pos hwrong] at hlocation
      exact (Option.some.inj hlocation).symm

/-- The text of a scene that is a width and nothing else. -/
def wideText (width : String) : String :=
  "\x7b\"render\":\x7b\"width\":" ++ width ++ "\x7d\x7d"

/-- The tree of such a text. -/
def wideTree (width : Number) : Value :=
  .object [("render", .object [("width", .number width)])]

theorem counts_are_exact_limit :
    (∃ d, (parse false (wideText "4294967295")).result = .ok d ∧ d.render.width = 4294967295) ∧
    (∃ d, (parse false (wideText "-0.0")).result = .ok d ∧ d.render.width = 0) ∧
    ∃ fault, (parse false (wideText "4294967296")).result = .error fault ∧
      fault.location = .field [.key "render", .key "width"] := by
  have hgreatest : Json.parse (Comment.strip (wideText "4294967295").toList) =
      .ok (wideTree (.integer 4294967295)) := rfl
  have hzero : Json.parse (Comment.strip (wideText "-0.0").toList) =
      .ok (wideTree (Json.signed true (Json.shiftDown (Double.ofInt (0 : Nat)) 1))) := rfl
  have hbeyond : Json.parse (Comment.strip (wideText "4294967296").toList) =
      .ok (wideTree (.integer 4294967296)) := rfl
  refine ⟨?_, ?_, ?_⟩
  · obtain ⟨hread, -⟩ := counts_are_exact false hgreatest .width rfl
    obtain ⟨d, hd⟩ := isOk_iff.mp
      (show (parse false (wideText "4294967295")).result.isOk = true by decide +kernel)
    have hvalue : (4294967295 : Int) = d.render.width.toNat := hread d hd
    refine ⟨d, hd, UInt32.toNat_inj.mp ?_⟩
    rw [← Int.natCast_inj, ← hvalue]
    rfl
  · obtain ⟨hread, -⟩ := counts_are_exact false hzero .width rfl
    obtain ⟨d, hd⟩ := isOk_iff.mp
      (show (parse false (wideText "-0.0")).result.isOk = true by decide +kernel)
    have hvalue : double.HasValue (Json.shiftDown (Double.ofInt (0 : Nat)) 1).neg.number 0 :=
      ⟨by decide +kernel, by decide +kernel⟩
    refine ⟨d, hd, UInt32.toNat_inj.mp ?_⟩
    rw [← Int.natCast_inj]
    exact (hread d hd).unique hvalue
  · obtain ⟨-, before, offends, after, hvisits, hoffends, -, herror⟩ :=
      counts_are_exact false hbeyond .width rfl
    have hout : ¬ (Number.integer 4294967296).InRange := by
      rintro ⟨k, rfl, -, hhigh⟩
      exact absurd hhigh (by decide)
    have hwrong : offends = true := by
      rw [← Bool.not_eq_false, hoffends]
      exact hout
    -- nothing else offends in the tree
    have hone : ((visits false (wideTree (.integer 4294967296))).filter (·.offends)).length = 1 := by
      decide +kernel
    rw [hvisits, List.filter_append, List.filter_cons_of_pos hwrong, List.length_append,
      List.length_cons] at hone
    have hnone : before.filter (·.offends) = [] := List.length_eq_zero_iff.mp (by omega)
    obtain ⟨fault, hfault, hlocation⟩ := herror hout
    refine ⟨fault, hfault, hlocation fun p hp => ?_⟩
    exact Bool.eq_false_iff.mpr (List.filter_eq_nil_iff.mp hnone p hp)

end SceneDescription

end ScenePack
