import ScenePack.Proofs.Outcome

/-!
# Failing at the first place

A reader looks at one place after another and fails at the first where something is wrong. A
`ScenePlace` is where it looks and whether what stands there offends; `FailsFirst` says of an
outcome that it fails where the first of some places offends, and only if one does, whatever the
code that does so looks like.

Results:
* `firstOffending_append`, `firstOffending_relocate`: the first place of lists, and seen from
  elsewhere.
* `FailsFirst.bind`, `FailsFirst.map`, `FailsFirst.mapError`: a sequence looks at the places of its
  steps one after another. A later step may rely on the value of an earlier one.
* **`FailsFirst.isOk_iff`**, **`FailsFirst.first_of_error`**: what it comes to.
-/

namespace ScenePack

/-- A place that is looked at, and whether what stands there is wrong. -/
structure ScenePlace (ρ : Type) where
  location : ρ
  offends : Bool
  deriving DecidableEq, Repr

variable {ρ σ : Type}

namespace ScenePlace

/-- A place seen from elsewhere. -/
def relocate (f : ρ → σ) (p : ScenePlace ρ) : ScenePlace σ := ⟨f p.location, p.offends⟩

/-- Nothing offends. -/
def Clear (places : List (ScenePlace ρ)) : Prop := ∀ p ∈ places, p.offends = false

/-- The location of the first place that offends. -/
def firstOffending (places : List (ScenePlace ρ)) : Option ρ :=
  (places.find? (·.offends)).map (·.location)

variable {p : ScenePlace ρ} {places rest : List (ScenePlace ρ)}

theorem clear_append : Clear (places ++ rest) ↔ Clear places ∧ Clear rest :=
  List.forall_mem_append

theorem clear_cons : Clear (p :: rest) ↔ p.offends = false ∧ Clear rest := List.forall_mem_cons

theorem clear_relocate {f : ρ → σ} : Clear (places.map (relocate f)) ↔ Clear places :=
  List.forall_mem_map

theorem firstOffending_cons : firstOffending (p :: rest) =
    if p.offends then some p.location else firstOffending rest := by
  unfold firstOffending
  rw [List.find?_cons]
  cases p.offends <;> rfl

theorem firstOffending_append :
    firstOffending (places ++ rest) = (firstOffending places).or (firstOffending rest) := by
  unfold firstOffending
  rw [List.find?_append, Option.map_or]

theorem firstOffending_relocate (f : ρ → σ) :
    firstOffending (places.map (relocate f)) = (firstOffending places).map f := by
  unfold firstOffending
  rw [List.find?_map, Option.map_map, Option.map_map]
  rfl

theorem firstOffending_eq_none_iff : firstOffending places = none ↔ Clear places := by
  simp [firstOffending, Clear]

/-- **What is first**: it offends, and nothing before it does. -/
theorem firstOffending_eq_some_iff {l : ρ} : firstOffending places = some l ↔
    ∃ before p after, places = before ++ p :: after ∧ Clear before ∧ p.offends = true ∧
      p.location = l := by
  simp only [firstOffending, Clear, Option.map_eq_some_iff, List.find?_eq_some_iff_append,
    Bool.not_eq_true']
  constructor
  · rintro ⟨p, ⟨hp, before, after, hplaces, hbefore⟩, hl⟩
    exact ⟨before, p, after, hplaces, hbefore, hp, hl⟩
  · rintro ⟨before, p, after, hplaces, hbefore, hp, hl⟩
    exact ⟨p, ⟨hp, before, after, hplaces, hbefore⟩, hl⟩

end ScenePlace

open ScenePlace

namespace Outcome

variable {ε δ α β : Type}

/-- The error of an outcome. -/
def failure? (x : Outcome ε α) : Option ε :=
  match x.result with
  | .ok _ => none
  | .error e => some e

/-- The outcome fails where the first of some places offends, and only if one does. -/
def FailsFirst (locate : ε → ρ) (x : Outcome ε α) (places : List (ScenePlace ρ)) : Prop :=
  x.failure?.map locate = firstOffending places

namespace FailsFirst

variable {locate : ε → ρ} {x : Outcome ε α} {f : α → Outcome ε β}
  {places rest : List (ScenePlace ρ)}

theorem pure {a : α} : FailsFirst locate (Pure.pure a : Outcome ε α) [] := rfl

theorem emit {e : Event} : FailsFirst locate (Outcome.emit e : Outcome ε Unit) [] := rfl

/-- A sequence looks at the places of its steps one after another. -/
theorem bind (hx : FailsFirst locate x places)
    (hf : ∀ a, x.result = .ok a → FailsFirst locate (f a) rest) :
    FailsFirst locate (x >>= f) (places ++ rest) := by
  unfold FailsFirst failure? at *
  rw [firstOffending_append, ← hx]
  cases h : x.result with
  | ok a =>
    rw [result_bind_of_ok h]
    exact hf a h
  | error e => rw [result_bind_of_error h]; rfl

theorem map {g : α → β} (hx : FailsFirst locate x places) :
    FailsFirst locate (g <$> x) places := by
  unfold FailsFirst failure? at *
  rw [result_map, ← hx]
  cases x.result <;> rfl

/-- A step that is only rounded off is all that is looked at. -/
theorem bind_pure {g : α → β} (hx : FailsFirst locate x places) :
    FailsFirst locate (x >>= fun a => Pure.pure (g a)) places := map hx

/-- An error that is said from elsewhere is one of the places seen from there. -/
theorem mapError {g : ε → δ} {locate' : δ → σ} {move : ρ → σ}
    (hg : ∀ e, locate' (g e) = move (locate e)) (hx : FailsFirst locate x places) :
    FailsFirst locate' (x.mapError g) (places.map (relocate move)) := by
  unfold FailsFirst failure? at *
  rw [firstOffending_relocate, ← hx]
  show (match x.result.mapError g with | .ok _ => none | .error e => some e).map locate' = _
  cases x.result with
  | ok a => rfl
  | error e => exact congrArg some (hg e)

/-- What is looked at behind a place that offends does not matter. -/
theorem fail {e : ε} {p : ScenePlace ρ} (hp : p.offends = true) (he : locate e = p.location) :
    FailsFirst locate (Outcome.fail e : Outcome ε α) (p :: rest) := by
  unfold FailsFirst
  rw [firstOffending_cons, if_pos hp, ← he]
  rfl

/-- A place where nothing is wrong is passed. -/
theorem pass {p : ScenePlace ρ} (hp : p.offends = false) (hx : FailsFirst locate x places) :
    FailsFirst locate x (p :: places) := by
  unfold FailsFirst
  rw [firstOffending_cons, hp]
  exact hx

theorem isOk_iff (hx : FailsFirst locate x places) : x.result.isOk = true ↔ Clear places := by
  rw [← firstOffending_eq_none_iff, ← hx, failure?]
  cases x.result <;> simp [Except.isOk, Except.toBool]

/-- **An error is where the first place offends.** -/
theorem first_of_error {e : ε} (hx : FailsFirst locate x places) (h : x.result = .error e) :
    ∃ before p after, places = before ++ p :: after ∧ Clear before ∧ p.offends = true ∧
      p.location = locate e := by
  refine firstOffending_eq_some_iff.mp ?_
  rw [← hx, failure?, h]
  rfl

end FailsFirst

end Outcome

end ScenePack
