import ScenePack.Log.Outcome

/-!
# Outcomes, step by step

How the value and the log of a sequence of steps come out of those of the steps. An outcome's value
is taken apart by `bind_eq_ok_iff`, its log by `LogsOnly`.

Results:
* `pure_eq_ok_iff`, `bind_eq_ok_iff`, `map_eq_ok_iff`, `mapError_eq_ok_iff`: when a sequence
  succeeds, and with what.
* `result_bind_congr`, `result_bind_congr_map`: sequences whose steps come to the same come to the
  same.
* `log_bind_of_ok`, `log_bind_of_error`: the log goes on after a success, and ends at an error.
* `Gives.bind`, `Gives.mapError`: a sequence whose steps succeed with values of some kind succeeds
  with one of a kind.
* `LogsOnly.bind`, `LogsOnly.map`, `LogsOnly.mapError`: what all steps log within a set of events,
  the sequence does.
-/

namespace ScenePack

namespace Outcome

variable {ε δ α β : Type} {x : Outcome ε α} {f : α → Outcome ε β} {P : Event → Prop} {a : α} {b : β}

/-! ## Success -/

/-- An answer without a value says no more than that it succeeded. -/
theorem eq_ok_of_isOk {y : Except ε Unit} (h : y.isOk = true) : y = .ok () := by
  cases y with
  | ok _ => rfl
  | error _ => exact absurd h nofun

theorem isOk_iff : x.result.isOk = true ↔ ∃ a, x.result = .ok a := by
  cases h : x.result <;> simp [Except.isOk, Except.toBool]

theorem pure_eq_ok_iff {a' : α} : (Pure.pure a : Outcome ε α).result = .ok a' ↔ a = a' := by
  show Except.ok a = Except.ok a' ↔ a = a'
  rw [Except.ok.injEq]

theorem fail_ne_ok (e : ε) : (fail e : Outcome ε α).result ≠ .ok a := nofun

theorem bind_eq_ok_iff :
    (x >>= f).result = .ok b ↔ ∃ a, x.result = .ok a ∧ (f a).result = .ok b := by
  show (Outcome.bind x f).result = .ok b ↔ _
  unfold Outcome.bind
  cases h : x.result with
  | ok a => simp
  | error e => simp

theorem map_eq_ok_iff {g : α → β} :
    (g <$> x).result = .ok b ↔ ∃ a, x.result = .ok a ∧ g a = b :=
  bind_eq_ok_iff.trans (exists_congr fun _ => and_congr_right fun _ => pure_eq_ok_iff)

theorem mapError_eq_ok_iff {g : ε → δ} : (x.mapError g).result = .ok a ↔ x.result = .ok a := by
  show x.result.mapError g = .ok a ↔ _
  cases x.result with
  | ok a' =>
    show Except.ok a' = Except.ok a ↔ _
    rw [Except.ok.injEq, Except.ok.injEq]
  | error e => exact ⟨nofun, nofun⟩

/-- What an outcome succeeds with, if it does, has a property. -/
def Gives (Q : α → Prop) (x : Outcome ε α) : Prop := ∀ a, x.result = .ok a → Q a

namespace Gives

variable {Q : α → Prop} {R : β → Prop}

theorem pure (h : Q a) : (Pure.pure a : Outcome ε α).Gives Q := by
  intro a' ha'
  rw [← pure_eq_ok_iff.mp ha']
  exact h

theorem fail (e : ε) : (Outcome.fail e : Outcome ε α).Gives Q := fun _ h => absurd h (fail_ne_ok e)

theorem bind (hx : x.Gives Q) (hf : ∀ a, Q a → (f a).Gives R) : (x >>= f).Gives R := by
  intro b hb
  obtain ⟨a, ha, hb⟩ := bind_eq_ok_iff.mp hb
  exact hf a (hx a ha) b hb

theorem mapError {g : ε → δ} (hx : x.Gives Q) : (x.mapError g).Gives Q :=
  fun a ha => hx a (mapError_eq_ok_iff.mp ha)

end Gives

/-! ## Results -/

theorem result_bind_of_ok (h : x.result = .ok a) : (x >>= f).result = (f a).result := by
  show (Outcome.bind x f).result = _
  unfold Outcome.bind
  rw [h]

theorem result_bind_of_error {e : ε} (h : x.result = .error e) :
    (x >>= f).result = .error e := by
  show (Outcome.bind x f).result = _
  unfold Outcome.bind
  rw [h]

theorem result_map {g : α → β} : (g <$> x).result = x.result.map g := by
  cases h : x.result with
  | ok a => exact result_bind_of_ok h
  | error e => exact result_bind_of_error h

/-- Two sequences come to the same when their first steps do, the value of the one told by that of
the other, and the rest does after such values. -/
theorem result_bind_congr_map {γ : Type} {y : Outcome ε γ} {g : γ → Outcome ε β} (c : α → γ)
    (hxy : y.result = x.result.map c)
    (hfg : ∀ a, x.result = .ok a → (g (c a)).result = (f a).result) :
    (y >>= g).result = (x >>= f).result := by
  cases hx : x.result with
  | ok a =>
    rw [hx] at hxy
    rw [result_bind_of_ok hx, result_bind_of_ok hxy, hfg a hx]
  | error e =>
    rw [hx] at hxy
    rw [result_bind_of_error hx, result_bind_of_error hxy]

theorem result_bind_congr {y : Outcome ε α} {g : α → Outcome ε β} (hxy : y.result = x.result)
    (hfg : ∀ a, x.result = .ok a → (g a).result = (f a).result) :
    (y >>= g).result = (x >>= f).result := by
  refine result_bind_congr_map id ?_ hfg
  rw [hxy]
  cases x.result <;> rfl

/-! ## The log -/

theorem log_bind_of_ok (h : x.result = .ok a) : (x >>= f).log = x.log ++ (f a).log := by
  show (Outcome.bind x f).log = _
  unfold Outcome.bind
  rw [h]

theorem log_bind_of_error {e : ε} (h : x.result = .error e) : (x >>= f).log = x.log := by
  show (Outcome.bind x f).log = _
  unfold Outcome.bind
  rw [h]

/-- Every event logged has a property. -/
def LogsOnly (P : Event → Prop) (x : Outcome ε α) : Prop := ∀ e ∈ x.log, P e

namespace LogsOnly

theorem pure : (Pure.pure a : Outcome ε α).LogsOnly P := fun _ h => absurd h List.not_mem_nil

theorem fail (e : ε) : (Outcome.fail e : Outcome ε α).LogsOnly P :=
  fun _ h => absurd h List.not_mem_nil

theorem emit {e : Event} (h : P e) : (Outcome.emit e : Outcome ε Unit).LogsOnly P := by
  intro e' he
  rw [List.mem_singleton.mp he]
  exact h

theorem bind (hx : x.LogsOnly P) (hf : ∀ a, (f a).LogsOnly P) : (x >>= f).LogsOnly P := by
  show (Outcome.bind x f).LogsOnly P
  unfold Outcome.bind
  cases x.result with
  | ok a =>
    intro e he
    rcases List.mem_append.mp he with he | he
    · exact hx e he
    · exact hf a e he
  | error _ => exact hx

theorem map {g : α → β} (hx : x.LogsOnly P) : (g <$> x).LogsOnly P := bind hx fun _ => pure

theorem mapError {g : ε → δ} (hx : x.LogsOnly P) : (x.mapError g).LogsOnly P := hx

end LogsOnly

end Outcome

end ScenePack
