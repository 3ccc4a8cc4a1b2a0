import ScenePack.Compile
import ScenePack.Proofs.Outcome

/-!
# What reading a scene logs

Reading leaves vectors aside, replaces templates and, at its end, says what it read; of a file also
that it was opened. It logs nothing else: materials are placed and looked up only later.

Results:
* `Field.single_logs` and its like: a strict field logs nothing, and so do sections of such fields.
* `Field.sparseVec3_reads`, `Field.vec3_reads`: what a vector logs.
* **`SceneDescription.parse_reads`**, **`SceneDescription.ofFile_reads`**: all that reading logs is
  `Event.OfReading`.
-/

namespace ScenePack

open Json (Value Fields)

/-- An event of reading a scene. -/
def Event.OfReading : Event → Prop
  | .loading _ | .vectorIgnored _ | .templateReplaced .. | .described .. => True
  | .building _ | .materialPlaced .. | .materialMissing _ | .planeLight _ | .built .. => False

/-- Whatever comes of it, nothing is logged that is not about reading. -/
def Outcome.Reads {ε α : Type} (x : Outcome ε α) : Prop := x.LogsOnly Event.OfReading

variable {α : Type} {fields : Fields} {P : Event → Prop}

/-! ## Fields -/

namespace Field

theorem single_logs (v : Value) : (single v).LogsOnly P := by
  unfold single
  split
  · exact .pure
  · exact .fail _

theorem count_logs (v : Value) : (count v).LogsOnly P := by
  unfold count
  split
  · split
    · exact .pure
    · exact .fail _
  · exact .fail _

theorem bool_logs (v : Value) : (bool v).LogsOnly P := by
  unfold bool
  split
  · exact .pure
  · exact .fail _

theorem string_logs (v : Value) : (string v).LogsOnly P := by
  unfold string
  split
  · exact .pure
  · exact .fail _

theorem nullable_logs {read : Value → Reading α} (h : ∀ v, (read v).LogsOnly P) (v : Value) :
    (nullable read v).LogsOnly P := by
  unfold nullable
  split
  · exact .pure
  · exact .map (h _)

theorem sparseVec3_reads (v : Value) : (sparseVec3 v).Reads := by
  unfold sparseVec3
  split
  · exact .pure
  · split
    · exact .pure
    · exact .bind (.emit trivial) fun _ => .pure

theorem vec3_reads (fallback : Vec3) (v : Value) : (vec3 fallback v).Reads :=
  .map (sparseVec3_reads v)

theorem variant_logs (known : List String) (ofName? : String → Option α) (v : Value) :
    (variant known ofName? v).LogsOnly P := by
  unfold variant
  split
  · split
    · exact .pure
    · exact .fail _
  · split
    · exact .fail _
    · split
      · exact .pure
      · exact .mapError (.fail _)
  · exact .fail _
  · exact .fail _

theorem lookup_logs {read : Value → Reading α} (h : ∀ v, (read v).LogsOnly P) (key : String)
    (absent : α) : (lookup fields key absent read).LogsOnly P := by
  unfold lookup
  split
  · exact .pure
  · exact .mapError (h _)

end Field

open ScenePack.Field

/-! ## Sections -/

theorem Camera.ofFields_reads : (Camera.ofFields fields).Reads :=
  .bind (lookup_logs single_logs _ _) fun _ => .bind (lookup_logs single_logs _ _) fun _ =>
    .bind (lookup_logs single_logs _ _) fun _ => .bind (lookup_logs (vec3_reads _) _ _) fun _ =>
    .bind (lookup_logs (vec3_reads _) _ _) fun _ => .pure

theorem Sky.ofFields_reads : (Sky.ofFields fields).Reads :=
  .bind (lookup_logs (vec3_reads _) _ _) fun _ => .bind (lookup_logs (vec3_reads _) _ _) fun _ =>
    .pure

namespace Bloom

theorem ofFields_logs : (ofFields fields).LogsOnly P :=
  .bind (lookup_logs single_logs _ _) fun _ => .bind (lookup_logs bool_logs _ _) fun _ =>
    .bind (lookup_logs single_logs _ _) fun _ => .bind (lookup_logs count_logs _ _) fun _ =>
    .bind (lookup_logs single_logs _ _) fun _ => .bind (lookup_logs single_logs _ _) fun _ =>
    .pure

theorem item_logs {read : Value → Reading α} (h : ∀ v, (read v).LogsOnly P) (items : List Value)
    (i : Nat) (absent : α) : (item items i absent read).LogsOnly P := by
  unfold item
  split
  · exact .pure
  · exact .mapError (h _)

theorem ofItems_logs (items : List Value) : (ofItems items).LogsOnly P := by
  refine .bind (item_logs bool_logs _ _ _) fun _ => .bind (item_logs single_logs _ _ _) fun _ =>
    .bind (item_logs single_logs _ _ _) fun _ => .bind (item_logs single_logs _ _ _) fun _ =>
    .bind (item_logs count_logs _ _ _) fun _ => .bind (item_logs single_logs _ _ _) fun _ => ?_
  by_cases h : 6 < items.length
  · simp only [if_pos h]
    exact .bind (.fail _) fun _ => .pure
  · simp only [if_neg h]
    exact .pure

theorem ofValue_logs (v : Value) : (ofValue v).LogsOnly P := by
  unfold ofValue
  split
  · exact ofFields_logs
  · exact ofItems_logs _
  · exact .fail _

end Bloom

theorem RenderSettings.ofFields_logs : (RenderSettings.ofFields fields).LogsOnly P :=
  .bind (lookup_logs Bloom.ofValue_logs _ _) fun _ =>
    .bind (lookup_logs count_logs _ _) fun _ => .bind (lookup_logs count_logs _ _) fun _ =>
    .bind (lookup_logs count_logs _ _) fun _ => .bind (lookup_logs count_logs _ _) fun _ =>
    .bind (lookup_logs count_logs _ _) fun _ => .pure

theorem SceneHeader.versionText_logs (v : Value) : (versionText v).LogsOnly P := by
  unfold versionText
  split
  · exact .pure
  · exact .pure
  · exact .fail _

theorem SceneHeader.ofFields_logs : (SceneHeader.ofFields fields).LogsOnly P :=
  .bind (lookup_logs (nullable_logs string_logs) _ _) fun _ =>
    .bind (lookup_logs (nullable_logs versionText_logs) _ _) fun _ => .pure

/-! ## Materials and objects -/

theorem TemplateName.ofValue_logs (v : Value) : (TemplateName.ofValue v).LogsOnly P := by
  unfold ofValue
  split
  · exact .pure
  · split
    · exact .pure
    · exact .fail _
  · exact .fail _

theorem MaterialHeader.resolve_logs (hP : ∀ material tag, P (.templateReplaced material tag))
    (h : MaterialHeader) (fallback : Bool) : (h.resolve fallback).LogsOnly P := by
  unfold resolve
  split
  · exact .pure
  · exact .pure
  · split
    · exact .bind (.emit (hP _ _)) fun _ => .pure
    · exact .mapError (.fail _)

theorem MaterialOverrides.ofFields_reads : (MaterialOverrides.ofFields fields).Reads := by
  have vector (key : String) : (lookup fields key .none sparseVec3).Reads :=
    lookup_logs sparseVec3_reads _ _
  have scalar (key : String) : (lookup fields key .none (nullable single)).Reads :=
    lookup_logs (nullable_logs single_logs) _ _
  exact .bind (vector _) fun _ => .bind (vector _) fun _ => .bind (scalar _) fun _ =>
    .bind (scalar _) fun _ => .bind (vector _) fun _ =>
    .bind (lookup_logs (nullable_logs (variant_logs _ _)) _ _) fun _ =>
    .bind (scalar _) fun _ => .bind (scalar _) fun _ => .bind (scalar _) fun _ =>
    .bind (scalar _) fun _ => .bind (scalar _) fun _ => .bind (scalar _) fun _ =>
    .bind (scalar _) fun _ => .bind (vector _) fun _ => .bind (scalar _) fun _ =>
    .bind (scalar _) fun _ => .bind (scalar _) fun _ => .pure

theorem Material.ofFields_reads (fallback : Bool) (fields : Fields) :
    (Material.ofFields fallback fields).Reads := by
  have hheader : (MaterialHeader.ofFields fields).Reads :=
    .bind (lookup_logs (nullable_logs string_logs) _ _) fun _ =>
      .bind (lookup_logs (nullable_logs TemplateName.ofValue_logs) _ _) fun _ => .pure
  exact .bind hheader fun header =>
    .bind (header.resolve_logs (fun _ _ => trivial) fallback) fun _ =>
    .bind MaterialOverrides.ofFields_reads fun _ => .pure

theorem Geometry.ofFields_reads : (Geometry.ofFields fields).Reads :=
  .bind (lookup_logs (vec3_reads _) _ _) fun _ => .bind (lookup_logs single_logs _ _) fun _ =>
    .bind (lookup_logs single_logs _ _) fun _ => .bind (lookup_logs (vec3_reads _) _ _) fun _ =>
    .bind (lookup_logs single_logs _ _) fun _ => .bind (lookup_logs (vec3_reads _) _ _) fun _ =>
    .bind (lookup_logs (vec3_reads _) _ _) fun _ => .pure

theorem SceneObject.ofFields_reads (fields : Fields) : (SceneObject.ofFields fields).Reads :=
  .bind (lookup_logs bool_logs _ _) fun _ => .bind (lookup_logs string_logs _ _) fun _ =>
    .bind (lookup_logs (variant_logs _ _) _ _) fun _ =>
    .bind Geometry.ofFields_reads fun _ => .pure

/-! ## Scenes -/

namespace SceneReading

theorem object_reads {read : Fields → Reading α} (h : ∀ fields, (read fields).Reads)
    (path : List PathStep) (v : Value) : (object path read v).Reads := by
  unfold object
  split
  · exact .mapError (h _)
  · exact .fail _

theorem part_reads {read : Fields → Reading α} (h : ∀ fields, (read fields).Reads) (key : String)
    (absent : α) : (part fields key absent read).Reads := by
  unfold part
  split
  · exact .pure
  · exact .pure
  · exact object_reads h _ _

theorem items_logs (key : String) : (items fields key).LogsOnly P := by
  unfold items
  split
  · exact .pure
  · exact .pure
  · exact .pure
  · exact .fail _

theorem entries_reads {read : Fields → Reading α} (h : ∀ fields, (read fields).Reads)
    (key : String) : ∀ (i : Nat) (vs : List Value), (entries key read i vs).Reads
  | _, [] => .pure
  | i, v :: vs =>
    .bind (object_reads h _ v) fun _ => .bind (entries_reads h key (i + 1) vs) fun _ => .pure

end SceneReading

theorem SceneInfo.ofHeader_logs (h : SceneHeader) : (SceneInfo.ofHeader h).LogsOnly P := by
  unfold ofHeader
  dsimp only
  split
  · exact .pure
  · exact .fail _

namespace SceneDescription

open SceneReading

theorem ofRoot_reads (fallback : Bool) (root : Fields) : (ofRoot fallback root).Reads :=
  .bind (part_reads (fun _ => SceneHeader.ofFields_logs) _ _) fun header =>
    .bind (SceneInfo.ofHeader_logs header) fun _ =>
    .bind (part_reads (fun _ => Camera.ofFields_reads) _ _) fun _ =>
    .bind (part_reads (fun _ => Sky.ofFields_reads) _ _) fun _ =>
    .bind (part_reads (fun _ => RenderSettings.ofFields_logs) _ _) fun _ =>
    .bind (items_logs _) fun vs =>
    .bind (entries_reads (Material.ofFields_reads fallback) _ 0 vs) fun _ =>
    .bind (items_logs _) fun vs =>
    .bind (entries_reads SceneObject.ofFields_reads _ 0 vs) fun _ =>
    .bind (.emit trivial) fun _ => .pure

theorem ofStripped_reads (fallback : Bool) (text : List Char) :
    (ofStripped fallback text).Reads := by
  unfold ofStripped
  split
  · unfold ofJson
    split
    · exact ofRoot_reads _ _
    · exact .fail _
  · exact .fail _

/-- **Reading a text logs nothing but events of reading.** -/
theorem parse_reads (fallback : Bool) (text : String) : (parse fallback text).Reads :=
  ofStripped_reads _ _

/-- **Reading a file logs nothing but events of reading.** -/
theorem ofFile_reads (fallback : Bool) (path : String) (bytes : Except FileError ByteArray) :
    (ofFile fallback path bytes).Reads := by
  unfold ofFile
  split
  · exact .fail _
  · dsimp only
    split
    · exact .fail _
    · exact .bind (.emit trivial) fun _ => .mapError (ofStripped_reads _ _)

end SceneDescription

end ScenePack
