import Mathlib.Data.List.Nodup
import ScenePack.Proofs.Scene.Agreement
import ScenePack.Proofs.Scene.Log
import ScenePack.Proofs.Scene.Success
import ScenePack.Proofs.Scene.Visit

/-!
# Fields that say nothing

Where a vector is wanted and no list of three numbers stands, and where `null` stands in a field or
a section that need not be there, the reader goes on as if the key were missing. It logs the value
that it leaves aside, unless that is `null`, and that is all the difference.

* `FieldType.silent` says of a value that it says nothing, `FieldType.leftAside` what is logged of
  it.
* `dropSilent`, `Value.withoutSilent`: fields, and a scene, without the keys that say nothing.
* `Value.leftAside`: the vectors of a scene that are left aside, section by section, entry by entry
  and in the order of their keys.
* `Value.withShortVectors`: a scene whose vectors have three items each.
* `Outcome.Sheds` compares a run with one that leaves nothing aside.

Results:
* `Sheds.bind`, `ShedsBy.row`, `ShedsBy.bind`: runs are compared step by step, fields row by row.
* `Camera.ofFields_sheds` and its like: sections and entries.
* `ofRoot_sheds`: a whole scene.
* **`silent_as_missing`**: the same comes of a scene without what says nothing, and without the
  items that no vector has; and what is left aside is logged in order.
-/

namespace ScenePack

open Json (Value Fields)

/-! ## What says nothing -/

/-- The vector that an event says was left aside. -/
def Event.vector? : Event → Option Value
  | .vectorIgnored v => some v
  | _ => none

namespace FieldType

/-- A value that says as little as a missing field. -/
def silent : FieldType → Value → Bool
  | vector, v => (Field.vec3? v).isNone
  | nullable _, v => v.isNull
  | _, _ => false

/-- What is said to be left aside of a value. -/
def leftAside (t : FieldType) (v : Value) : List Value :=
  if t.silent v && !v.isNull then [v] else []

end FieldType

/-- What is left aside of fields, row by row. -/
def leftAsideOf (rows : List (String × FieldType)) (fields : Fields) : List Value :=
  rows.flatMap fun row => (fields.get? row.1).toList.flatMap row.2.leftAside

/-- The fields without the keys that say nothing. -/
def dropSilent (rows : List (String × FieldType)) (fields : Fields) : Fields :=
  fields.keep fun key =>
    !rows.any fun row => row.1 = key && (fields.get? key).any row.2.silent

/-- The fields with vectors of three items. -/
def shorten (rows : List (String × FieldType)) (fields : Fields) : Fields :=
  fields.map fun field =>
    (field.1, match rows.find? (·.1 = field.1) with
      | some row => row.2.core field.2
      | none => field.2)

namespace SceneSection

/-- The object of a section, or the entries of a list. -/
def objectsOf : SceneSection → Value → List Fields
  | materials, v | objects, v => v.itemsOf.map (·.fieldsOf)
  | _, v => [v.fieldsOf]

/-- What is left aside in a section of a root. -/
def leftAside (s : SceneSection) (root : Fields) : List Value :=
  (root.get? s.key).toList.flatMap fun v => (s.objectsOf v).flatMap (leftAsideOf s.rows)

end SceneSection

namespace Json

/-- A root without the sections that are `null`. -/
def Fields.withoutNullSections (root : Fields) : Fields :=
  root.keep fun key => !((SceneSection.ofKey? key).isSome && (root.get? key).any Value.isNull)

/-- A root without the keys that say nothing, in its sections and among them. -/
def Fields.withoutSilent (root : Fields) : Fields :=
  root.withoutNullSections.mapSections fun s => s.mapObjects (dropSilent s.rows)

namespace Value

/-- A scene without the keys that say nothing. -/
def withoutSilent : Value → Value := mapObject Fields.withoutSilent

/-- A scene whose vectors have three items each. -/
def withShortVectors : Value → Value :=
  mapObject (Fields.mapSections fun s => s.mapObjects (shorten s.rows))

/-- The vectors of a scene that are left aside, in the order in which they are looked at. -/
def leftAside (v : Value) : List Value := SceneSection.all.flatMap fun s => s.leftAside v.fieldsOf

end Value

end Json

/-! ## Comparing runs -/

section Sheds

variable {ε δ α β : Type} {x x' : Outcome ε α} {f f' : α → Outcome ε β} {vs ws : List Value}

/-- A run, what it leaves aside if it succeeds, and one that comes to the same without saying that
anything is left aside. -/
structure Outcome.Sheds (x : Outcome ε α) (vs : List Value) (x' : Outcome ε α) : Prop where
  result : x'.result = x.result
  log : x'.log = x.log.filter (·.vector?.isNone)
  left : ∀ a, x.result = .ok a → x.log.filterMap Event.vector? = vs

namespace Outcome.Sheds

theorem bind (hx : x.Sheds vs x') (hf : ∀ a, (f a).Sheds ws (f' a)) :
    (x >>= f).Sheds (vs ++ ws) (x' >>= f') := by
  have hresult := hx.result
  cases h : x.result with
  | error e =>
    rw [h] at hresult
    have hbind : x >>= f = ⟨.error e, x.log⟩ := by
      show Outcome.bind x f = _
      simp only [Outcome.bind, h]
    have hbind' : x' >>= f' = ⟨.error e, x'.log⟩ := by
      show Outcome.bind x' f' = _
      simp only [Outcome.bind, hresult]
    rw [hbind, hbind']
    refine ⟨rfl, hx.log, fun a ha => ?_⟩
    contradiction
  | ok a =>
    rw [h] at hresult
    have hbind : x >>= f = ⟨(f a).result, x.log ++ (f a).log⟩ := by
      show Outcome.bind x f = _
      simp only [Outcome.bind, h]
    have hbind' : x' >>= f' = ⟨(f' a).result, x'.log ++ (f' a).log⟩ := by
      show Outcome.bind x' f' = _
      simp only [Outcome.bind, hresult]
    rw [hbind, hbind']
    refine ⟨(hf a).result, ?_, fun b hb => ?_⟩
    · show x'.log ++ (f' a).log = _
      rw [List.filter_append, hx.log, (hf a).log]
    · rw [List.filterMap_append, hx.left a h, (hf a).left b hb]

/-- A run that never says that anything is left aside is compared with itself. -/
theorem of_logsOnly (h : x.LogsOnly (·.vector? = none)) : x.Sheds [] x where
  result := rfl
  log := (List.filter_eq_self.mpr fun e he => by rw [h e he]; rfl).symm
  left _ _ := List.filterMap_eq_nil_iff.mpr h

theorem pure {a : α} : (Pure.pure a : Outcome ε α).Sheds [] (Pure.pure a) := of_logsOnly .pure

/-- A run that says of some values that they are left aside, and of nothing else. -/
theorem of_log {a : α} (hresult : x.result = .ok a) (hlog : x.log = vs.map .vectorIgnored) :
    x.Sheds vs (Pure.pure a) where
  result := hresult.symm
  log := by
    rw [hlog]
    refine (List.filter_eq_nil_iff.mpr fun e he => ?_).symm
    obtain ⟨v, -, rfl⟩ := List.mem_map.mp he
    exact Bool.false_ne_true
  left _ _ := by
    rw [hlog, List.filterMap_map]
    exact List.filterMap_some

theorem mapError {g : ε → δ} (hx : x.Sheds vs x') : (x.mapError g).Sheds vs (x'.mapError g) where
  result := congrArg (Except.mapError g) hx.result
  log := hx.log
  left a ha := hx.left a (Outcome.mapError_eq_ok_iff.mp ha)

theorem bind_pure {g : α → β} (hx : x.Sheds vs x') :
    (x >>= fun a => Pure.pure (g a)).Sheds vs (x' >>= fun a => Pure.pure (g a)) := by
  rw [← List.append_nil vs]
  exact hx.bind fun _ => pure

end Outcome.Sheds

end Sheds

open Outcome (Sheds)

variable {α β : Type} {rows rows' : List (String × FieldType)}

/-! ## Fields -/

/-- What a reader makes of a value that says nothing is what stands for a missing field. It logs
what is left aside. -/
structure Lenient (t : FieldType) (absent : α) (read : Value → Reading α) : Prop where
  result : ∀ v, t.silent v = true → (read v).result = .ok absent
  log : ∀ v, (read v).log = (t.leftAside v).map .vectorIgnored

/-- The fields behind lack what says nothing before, row by row. -/
def Pared (rows : List (String × FieldType)) (fields fields' : Fields) : Prop :=
  ∀ row ∈ rows, fields'.get? row.1 = (fields.get? row.1).filter fun v => !row.2.silent v

/-- A reader of fields that takes what says nothing for missing. -/
def ShedsBy (rows : List (String × FieldType)) (read : Fields → Reading α) : Prop :=
  ∀ fields fields', Pared rows fields fields' →
    (read fields).Sheds (leftAsideOf rows fields) (read fields')

namespace Field

variable {t : FieldType} {absent : α} {read : Value → Reading α}

/-- A reader that logs nothing takes nothing for missing but what it says. -/
theorem lenient_of_logsOnly (hresult : ∀ v, t.silent v = true → (read v).result = .ok absent)
    (hnull : ∀ v, t.silent v = true → v.isNull = true)
    (hlog : ∀ v, (read v).LogsOnly fun _ => False) : Lenient t absent read where
  result := hresult
  log v := by
    have hleft : t.leftAside v = [] := by
      unfold FieldType.leftAside
      cases hsilent : t.silent v with
      | false => rfl
      | true => simp [hnull v hsilent]
    rw [hleft]
    exact List.eq_nil_iff_forall_not_mem.mpr (hlog v)

theorem lenient_of_strict (hsilent : ∀ v, t.silent v = false)
    (hlog : ∀ v, (read v).LogsOnly fun _ => False) : Lenient t absent read := by
  refine lenient_of_logsOnly (fun v h => ?_) (fun v h => ?_) hlog
  · exact absurd h (by simp [hsilent v])
  · exact absurd h (by simp [hsilent v])

theorem single_lenient {absent : Single} : Lenient .single absent single :=
  lenient_of_strict (fun _ => rfl) single_logs

theorem nullable_lenient (hlog : ∀ v, (read v).LogsOnly fun _ => False) :
    Lenient (.nullable t) none (nullable read) := by
  refine lenient_of_logsOnly (fun v h => ?_) (fun v h => h) (nullable_logs hlog)
  cases v with
  | null => rfl
  | _ => exact absurd h Bool.false_ne_true

theorem sparseVec3_lenient : Lenient .vector none sparseVec3 where
  result v h := by
    rw [sparseVec3_result, Option.isNone_iff_eq_none.mp h]
  log v := by
    have hleft : FieldType.vector.leftAside v =
        if (vec3? v).isNone && !v.isNull then [v] else [] := rfl
    rw [hleft]
    unfold sparseVec3
    cases vec3? v with
    | some u => rfl
    | none =>
      cases v.isNull with
      | true => rfl
      | false => rfl

theorem vec3_lenient (fallback : Vec3) : Lenient .vector fallback (vec3 fallback) where
  result v h := by
    have hsparse := sparseVec3_lenient.result v h
    unfold vec3
    rw [Outcome.result_map, hsparse]
    rfl
  log v := by
    rw [← sparseVec3_lenient.log v]
    show (sparseVec3 v >>= fun u => Pure.pure (u.getD fallback)).log = _
    rw [Outcome.log_bind_of_ok sparseVec3_result]
    exact List.append_nil _

theorem lookup_sheds (hread : Lenient t absent read) {fields fields' : Fields} {key : String}
    (h : fields'.get? key = (fields.get? key).filter fun v => !t.silent v) :
    (lookup fields key absent read).Sheds ((fields.get? key).toList.flatMap t.leftAside)
      (lookup fields' key absent read) := by
  unfold lookup
  cases hget : fields.get? key with
  | none =>
    rw [hget] at h
    rw [h]
    exact .pure
  | some v =>
    rw [hget] at h
    have hleft : (some v).toList.flatMap t.leftAside = t.leftAside v := by simp
    rw [hleft]
    cases hsilent : t.silent v with
    | true =>
      have hmissing : fields'.get? key = none := by simpa [Option.filter, hsilent] using h
      rw [hmissing]
      exact .of_log (Outcome.mapError_eq_ok_iff.mpr (hread.result v hsilent)) (hread.log v)
    | false =>
      have hsame : fields'.get? key = some v := by simpa [Option.filter, hsilent] using h
      have hnone : t.leftAside v = [] := by simp [FieldType.leftAside, hsilent]
      have hlog : (read v).log = [] := by rw [hread.log v, hnone, List.map_nil]
      rw [hsame, hnone]
      refine .of_logsOnly fun e he => ?_
      have hmem : e ∈ (read v).log := he
      rw [hlog] at hmem
      exact absurd hmem List.not_mem_nil

end Field

namespace ShedsBy

theorem pure {a : α} : ShedsBy [] fun _ => (Pure.pure a : Reading α) := fun _ _ _ => .pure

/-- **A row is looked at**, then the rows behind it. -/
theorem row {key : String} {t : FieldType} {absent : α} {read : Value → Reading α}
    {next : α → Fields → Reading β} (hread : Lenient t absent read)
    (hnext : ∀ a, ShedsBy rows (next a)) :
    ShedsBy ((key, t) :: rows) fun fields =>
      Field.lookup fields key absent read >>= fun a => next a fields := by
  intro fields fields' h
  obtain ⟨hrow, hrows⟩ := List.forall_mem_cons.mp h
  exact (Field.lookup_sheds hread hrow).bind fun a => hnext a fields fields' hrows

/-- A reader that looks at rows, then at more of them. -/
theorem bind {read : Fields → Reading α} {next : α → Fields → Reading β}
    (hread : ShedsBy rows read) (hnext : ∀ a, ShedsBy rows' (next a)) :
    ShedsBy (rows ++ rows') fun fields => read fields >>= fun a => next a fields := by
  intro fields fields' h
  obtain ⟨hrows, hrows'⟩ := List.forall_mem_append.mp h
  unfold leftAsideOf
  rw [List.flatMap_append]
  exact (hread fields fields' hrows).bind fun a => hnext a fields fields' hrows'

/-- What is done before a reader looks at anything says nothing of vectors. -/
theorem after {x : Reading α} {next : α → Fields → Reading β}
    (hx : x.LogsOnly (·.vector? = none)) (hnext : ∀ a, ShedsBy rows (next a)) :
    ShedsBy rows fun fields => x >>= fun a => next a fields :=
  fun fields fields' h => (Sheds.of_logsOnly hx).bind fun a => hnext a fields fields' h

/-- A reader that is only rounded off. -/
theorem bind_pure {read : Fields → Reading α} {g : α → β} (hread : ShedsBy rows read) :
    ShedsBy rows fun fields => read fields >>= fun a => Pure.pure (g a) :=
  fun fields fields' h => (hread fields fields' h).bind_pure

end ShedsBy

open ScenePack.Field

/-! ## Sections -/

theorem SceneHeader.ofFields_sheds : ShedsBy schema.fields ofFields :=
  .row (nullable_lenient string_logs) fun _ => .row (nullable_lenient versionText_logs) fun _ =>
    .pure

theorem Camera.ofFields_sheds : ShedsBy schema.fields ofFields :=
  .row single_lenient fun _ => .row single_lenient fun _ => .row single_lenient fun _ =>
    .row (vec3_lenient _) fun _ => .row (vec3_lenient _) fun _ => .pure

theorem Sky.ofFields_sheds : ShedsBy schema.fields ofFields :=
  .row (vec3_lenient _) fun _ => .row (vec3_lenient _) fun _ => .pure

/-! ## Materials and objects -/

theorem MaterialHeader.ofFields_sheds : ShedsBy schema.fields ofFields :=
  .row (nullable_lenient string_logs) fun _ =>
    .row (nullable_lenient TemplateName.ofValue_logs) fun _ => .pure

theorem MaterialOverrides.ofFields_sheds : ShedsBy schema.fields ofFields := by
  have scalar : Lenient (.nullable .single) Option.none (nullable single) :=
    nullable_lenient single_logs
  exact .row sparseVec3_lenient fun _ => .row sparseVec3_lenient fun _ => .row scalar fun _ =>
    .row scalar fun _ => .row sparseVec3_lenient fun _ =>
    .row (nullable_lenient (variant_logs _ _)) fun _ => .row scalar fun _ => .row scalar fun _ =>
    .row scalar fun _ => .row scalar fun _ => .row scalar fun _ => .row scalar fun _ =>
    .row scalar fun _ => .row sparseVec3_lenient fun _ => .row scalar fun _ => .row scalar fun _ =>
    .row scalar fun _ => .pure

theorem Material.ofFields_sheds (fallback : Bool) :
    ShedsBy SceneSection.materials.rows (ofFields fallback) :=
  .bind MaterialHeader.ofFields_sheds fun header =>
    .after (header.resolve_logs (fun _ _ => rfl) fallback) fun _ =>
    .bind_pure MaterialOverrides.ofFields_sheds

theorem Geometry.ofFields_sheds : ShedsBy schema.fields ofFields :=
  .row (vec3_lenient _) fun _ => .row single_lenient fun _ => .row single_lenient fun _ =>
    .row (vec3_lenient _) fun _ => .row single_lenient fun _ => .row (vec3_lenient _) fun _ =>
    .row (vec3_lenient _) fun _ => .pure

theorem SceneObject.ofFields_sheds : ShedsBy SceneSection.objects.rows ofFields :=
  .row (lenient_of_strict (fun _ => rfl) bool_logs) fun _ =>
    .row (lenient_of_strict (fun _ => rfl) string_logs) fun _ =>
    .row (lenient_of_strict (fun _ => rfl) (variant_logs _ _)) fun _ =>
    .bind_pure Geometry.ofFields_sheds

/-! ## Scenes -/

theorem SceneSection.nodup_rows (s : SceneSection) : (s.rows.map (·.1)).Nodup := by
  cases s <;> decide

/-- What is found at a row once the keys that say nothing are gone. -/
theorem pared_dropSilent (hrows : (rows.map (·.1)).Nodup) (fields : Fields) :
    Pared rows fields (dropSilent rows fields) := by
  intro row hrow
  unfold dropSilent
  rw [Json.Fields.get?_keep]
  -- of the rows, no other has the key
  have hany : (rows.any fun row' => row'.1 = row.1 && (fields.get? row.1).any row'.2.silent) =
      (fields.get? row.1).any row.2.silent := by
    rw [Bool.eq_iff_iff, List.any_eq_true]
    constructor
    · rintro ⟨row', hrow', h⟩
      simp only [Bool.and_eq_true, decide_eq_true_eq] at h
      rw [List.inj_on_of_nodup_map hrows hrow' hrow h.1] at h
      exact h.2
    · intro h
      exact ⟨row, hrow, by simpa using h⟩
  rw [hany]
  cases fields.get? row.1 with
  | none => simp
  | some v => cases h : row.2.silent v <;> simp [Option.filter, h]

/-- Where every row is strict, nothing is dropped. -/
theorem dropSilent_of_strict (hrows : ∀ row ∈ rows, ∀ v, row.2.silent v = false) (fields : Fields) :
    dropSilent rows fields = fields := by
  refine List.filter_eq_self.mpr fun field _ => ?_
  have hnone : (rows.any fun row => row.1 = field.1 && (fields.get? field.1).any row.2.silent) =
      false := by
    rw [List.any_eq_false]
    intro row hrow
    cases fields.get? field.1 with
    | none => simp
    | some v => simp [hrows row hrow v]
  simp [hnone]

theorem RenderSettings.ofFields_sheds (fields : Fields) :
    (ofFields fields).Sheds (leftAsideOf schema.fields fields)
      (ofFields (dropSilent schema.fields fields)) := by
  have hstrict : ∀ row ∈ schema.fields, ∀ v, row.2.silent v = false := by
    simp [schema, FieldType.silent]
  have hleft : leftAsideOf schema.fields fields = [] := by
    refine List.flatMap_eq_nil_iff.mpr fun row hrow => List.flatMap_eq_nil_iff.mpr fun v _ => ?_
    simp [FieldType.leftAside, hstrict row hrow v]
  rw [hleft, dropSilent_of_strict hstrict]
  exact .of_logsOnly ofFields_logs

namespace Json.Fields

theorem get?_withoutNullSections {root : Fields} {s : SceneSection} :
    root.withoutNullSections.get? s.key = (root.get? s.key).filter fun v => !v.isNull := by
  unfold withoutNullSections
  rw [get?_keep, SceneSection.ofKey?_key]
  cases root.get? s.key with
  | none => simp
  | some v => cases v <;> rfl

theorem get?_withoutSilent {root : Fields} {s : SceneSection} :
    root.withoutSilent.get? s.key =
      ((root.get? s.key).filter fun v => !v.isNull).map (s.mapObjects (dropSilent s.rows)) := by
  unfold withoutSilent
  rw [get?_mapSections, get?_withoutNullSections]

end Json.Fields

namespace SceneReading

variable {read : Fields → Reading α} {path : List PathStep} {root root' : Fields} {key : String}
  {absent : α}

theorem object_sheds (hread : ∀ fields, (read fields).Sheds (leftAsideOf rows fields)
    (read (dropSilent rows fields))) (v : Value) :
    (object path read v).Sheds (leftAsideOf rows v.fieldsOf)
      (object path read (v.mapObject (dropSilent rows))) := by
  unfold object Value.mapObject
  cases v with
  | object fields => exact (hread fields).mapError
  | _ => exact ⟨rfl, rfl, fun _ => nofun⟩

theorem part_sheds (hread : ∀ fields, (read fields).Sheds (leftAsideOf rows fields)
      (read (dropSilent rows fields)))
    (h : root'.get? key =
      ((root.get? key).filter fun v => !v.isNull).map (Value.mapObject (dropSilent rows))) :
    (part root key absent read).Sheds
      ((root.get? key).toList.flatMap fun v => [v.fieldsOf].flatMap (leftAsideOf rows))
      (part root' key absent read) := by
  unfold part
  rw [h]
  cases root.get? key with
  | none => exact .pure
  | some v =>
    have hleft : ((some v).toList.flatMap fun v => [v.fieldsOf].flatMap (leftAsideOf rows)) =
        leftAsideOf rows v.fieldsOf := by simp
    rw [hleft]
    cases v with
    | null =>
      have hnone : leftAsideOf rows [] = [] := by simp [leftAsideOf, Json.Fields.get?]
      show Sheds _ (leftAsideOf rows []) _
      rw [hnone]
      exact .pure
    | _ => exact object_sheds hread _

theorem entries_sheds (hread : ∀ fields, (read fields).Sheds (leftAsideOf rows fields)
    (read (dropSilent rows fields))) (i : Nat) (vs : List Value) :
    (entries key read i vs).Sheds (vs.flatMap fun v => leftAsideOf rows v.fieldsOf)
      (entries key read i (vs.map (Value.mapObject (dropSilent rows)))) := by
  induction vs generalizing i with
  | nil => exact .pure
  | cons v vs ih => exact (object_sheds hread v).bind fun _ => (ih (i + 1)).bind_pure

/-- A list is found, then read entry by entry. -/
theorem list_sheds (hread : ∀ fields, (read fields).Sheds (leftAsideOf rows fields)
      (read (dropSilent rows fields)))
    (h : root'.get? key = ((root.get? key).filter fun v => !v.isNull).map
      (Value.mapItems (Value.mapObject (dropSilent rows))))
    {next : List α → SceneReading β} {ws : List Value} {next' : List α → SceneReading β}
    (hnext : ∀ as, (next as).Sheds ws (next' as)) :
    (items root key >>= fun vs => entries key read 0 vs >>= next).Sheds
      (((root.get? key).toList.flatMap fun v =>
        (v.itemsOf.map (·.fieldsOf)).flatMap (leftAsideOf rows)) ++ ws)
      (items root' key >>= fun vs => entries key read 0 vs >>= next') := by
  have hlist (vs : List Value) : (entries key read 0 vs >>= next).Sheds
      (((vs.map (·.fieldsOf)).flatMap (leftAsideOf rows)) ++ ws)
      (entries key read 0 (vs.map (Value.mapObject (dropSilent rows))) >>= next') := by
    rw [List.flatMap_map]
    exact (entries_sheds hread 0 vs).bind hnext
  have hfound (vs : List Value) {f : List Value → SceneReading β} :
      (pure vs : SceneReading (List Value)) >>= f = f vs := rfl
  unfold items
  rw [h]
  cases root.get? key with
  | none => exact hlist []
  | some v =>
    have hleft : ((some v).toList.flatMap fun v =>
        (v.itemsOf.map (·.fieldsOf)).flatMap (leftAsideOf rows)) =
        (v.itemsOf.map (·.fieldsOf)).flatMap (leftAsideOf rows) := by simp
    rw [hleft]
    cases v with
    | null => exact hlist []
    | array vs => exact hlist vs
    | _ => exact ⟨rfl, rfl, fun _ => nofun⟩

end SceneReading

namespace SceneDescription

open SceneReading

/-- **A scene is read as it is without what says nothing**, but for saying what is left aside. -/
theorem ofRoot_sheds (fallback : Bool) (root : Fields) :
    (ofRoot fallback root).Sheds (SceneSection.all.flatMap fun s => s.leftAside root)
      (ofRoot fallback root.withoutSilent) := by
  have hget (s : SceneSection) : root.withoutSilent.get? s.key =
      ((root.get? s.key).filter fun v => !v.isNull).map (s.mapObjects (dropSilent s.rows)) :=
    Json.Fields.get?_withoutSilent
  have hby {α : Type} {read : Fields → Reading α} {s : SceneSection} (h : ShedsBy s.rows read)
      (fields : Fields) : (read fields).Sheds (leftAsideOf s.rows fields)
        (read (dropSilent s.rows fields)) := h fields _ (pared_dropSilent s.nodup_rows fields)
  have hall : (SceneSection.all.flatMap fun s => s.leftAside root) =
      SceneSection.scene.leftAside root ++ (SceneSection.camera.leftAside root ++
        (SceneSection.sky.leftAside root ++ (SceneSection.render.leftAside root ++
        (SceneSection.materials.leftAside root ++ (SceneSection.objects.leftAside root ++ []))))) :=
    rfl
  rw [hall]
  refine (part_sheds (hby (s := .scene) SceneHeader.ofFields_sheds) (hget .scene)).bind
    fun header => ?_
  have hinfo : (SceneInfo.ofHeader header).Sheds [] (SceneInfo.ofHeader header) :=
    .of_logsOnly (SceneInfo.ofHeader_logs header)
  refine hinfo.bind fun info => ?_
  refine (part_sheds (hby (s := .camera) Camera.ofFields_sheds) (hget .camera)).bind
    fun camera => ?_
  refine (part_sheds (hby (s := .sky) Sky.ofFields_sheds) (hget .sky)).bind fun sky => ?_
  refine (part_sheds RenderSettings.ofFields_sheds (hget .render)).bind fun render => ?_
  refine list_sheds (hby (s := .materials) (Material.ofFields_sheds fallback)) (hget .materials)
    fun materials => ?_
  refine list_sheds (hby (s := .objects) SceneObject.ofFields_sheds) (hget .objects)
    fun objects => ?_
  exact .of_logsOnly (.bind (.emit rfl) fun _ => .pure)

end SceneDescription

/-! ## Vectors of three items -/

theorem FieldType.core_core (t : FieldType) (v : Value) : t.core (t.core v) = t.core v := by
  cases t with
  | vector =>
    cases h : Field.vec3? v with
    | none => rw [core_of_vec3?_eq_none h, core_of_vec3?_eq_none h]
    | some u =>
      unfold Field.vec3? at h
      split at h
      · rfl
      · exact absurd h nofun
  | _ => rfl

theorem get?_shorten (fields : Fields) (key : String) : (shorten rows fields).get? key =
    (fields.get? key).map fun v =>
      match rows.find? (·.1 = key) with
      | some row => row.2.core v
      | none => v := by
  unfold Json.Fields.get? shorten
  rw [List.find?_map, Option.map_map, Option.map_map]
  refine Option.map_congr fun field hfield => ?_
  have hkey : field.1 = key := by simpa using List.find?_some hfield
  subst hkey
  rfl

theorem rowsAgree_shorten (hrows : (rows.map (·.1)).Nodup) (fields : Fields) :
    RowsAgree rows fields (shorten rows fields) := by
  intro row hrow
  have hfind : rows.find? (·.1 = row.1) = some row := by
    cases h : rows.find? (·.1 = row.1) with
    | none => exact absurd (List.find?_eq_none.mp h row hrow) (by simp)
    | some row' =>
      have hkey : row'.1 = row.1 := by simpa using List.find?_some h
      rw [List.inj_on_of_nodup_map hrows (List.mem_of_find?_eq_some h) hrow hkey]
  rw [get?_shorten, hfind, Option.map_map]
  refine Option.map_congr fun v _ => ?_
  exact row.2.core_core v

theorem SceneSection.alike_shorten (s : SceneSection) (v : Value) :
    s.Alike v (s.mapObjects (shorten s.rows) v) := by
  have hrows := rowsAgree_shorten s.nodup_rows
  cases s with
  | render =>
    refine Alike.mapObject (fun fields => ⟨?_, hrows fields⟩) v
    have hbloom : (shorten render.rows fields).get? "bloom" = fields.get? "bloom" := by
      rw [get?_shorten]
      exact Option.map_id'
    rw [hbloom]
    exact rel_refl .same _
  | materials => exact ArrayAlike.mapItems hrows v
  | objects => exact ArrayAlike.mapItems hrows v
  | _ => exact Alike.mapObject hrows v

namespace SceneDescription

theorem ofJson_withShortVectors (fallback : Bool) (v : Value) :
    ofJson fallback v.withShortVectors = ofJson fallback v := by
  refine ofJson_alike fallback (Alike.mapObject (fun root s => ?_) v)
  rw [Json.Fields.get?_mapSections]
  cases root.get? s.key with
  | none => exact .none
  | some v => exact .some (s.alike_shorten v)

theorem ofJson_sheds (fallback : Bool) (v : Value) :
    (ofJson fallback v).Sheds v.leftAside (ofJson fallback v.withoutSilent) := by
  cases v with
  | object root => exact ofRoot_sheds fallback root
  | _ => exact ⟨rfl, rfl, fun _ => nofun⟩

/-- **What says nothing is as good as missing.** Without the vectors that are none and the `null`s
that may stand for nothing, a scene gives the same description or the same fault, and logs the same
but for the vectors that are left aside. Of those, a scene that is read logs each, in order. And the
items of a vector behind its third change nothing. -/
theorem silent_as_missing (fallback : Bool) (v : Value) :
    (ofJson fallback v.withoutSilent).result = (ofJson fallback v).result ∧
    (ofJson fallback v.withoutSilent).log =
      (ofJson fallback v).log.filter (·.vector?.isNone) ∧
    (ofJson fallback v.withoutSilent).log.filterMap Event.vector? = [] ∧
    (∀ d, (ofJson fallback v).result = .ok d →
      (ofJson fallback v).log.filterMap Event.vector? = v.leftAside) ∧
    ofJson fallback v.withShortVectors = ofJson fallback v := by
  have hsheds := ofJson_sheds fallback v
  refine ⟨hsheds.result, hsheds.log, ?_, hsheds.left, ofJson_withShortVectors fallback v⟩
  rw [hsheds.log, List.filterMap_eq_nil_iff]
  intro e he
  exact Option.isNone_iff_eq_none.mp (List.mem_filter.mp he).2

/-- A scene with three vectors that are none, a long one, and some `null`s. -/
def gappyTree : Value :=
  .object
    [("camera", .object [("position", .array [.null]), ("rotation", .null)]),
     ("materials", .array [.object [("albedo", .string "red"), ("name", .null)]]),
     ("objects", .array [.object
       [("center", .array [.number (.integer 1), .number (.integer 2), .number (.integer 3), .null]),
        ("size", .bool true)]]),
     ("sky", .null)]

/-- The scene without any of that. -/
def gaplessTree : Value :=
  .object
    [("camera", .object []),
     ("materials", .array [.object []]),
     ("objects", .array [.object
       [("center", .array [.number (.integer 1), .number (.integer 2), .number (.integer 3)])]])]

theorem silent_as_missing_gappy :
    gappyTree.withShortVectors.withoutSilent = gaplessTree ∧
    (ofJson false gaplessTree).result = (ofJson false gappyTree).result ∧
    (∃ d, (ofJson false gappyTree).result = .ok d) ∧
    (ofJson false gappyTree).log.filterMap Event.vector? =
      [.array [.null], .string "red", .bool true] := by
  have hgapless : gappyTree.withShortVectors.withoutSilent = gaplessTree := rfl
  obtain ⟨d, hd⟩ := Outcome.isOk_iff.mp
    (show (ofJson false gappyTree).result.isOk = true by decide)
  obtain ⟨-, -, -, hlog, hshort⟩ := silent_as_missing false gappyTree
  refine ⟨hgapless, ?_, ⟨d, hd⟩, hlog d hd⟩
  rw [← hgapless, (silent_as_missing false gappyTree.withShortVectors).1, hshort]

end SceneDescription

end ScenePack
