import ScenePack.Log.Event

/-!
# Outcomes with a log

An `Outcome` is what a step answers, a value or an error, together with the events logged on the
way. A step that fails ends the run, and the events before it stay in the log.
-/

namespace ScenePack

/-- A value or an error, and the events logged before it. -/
structure Outcome (ε α : Type) where
  result : Except ε α
  log : List Event

namespace Outcome

variable {ε δ α β : Type}

/-- A value, and nothing to log. -/
def pure (a : α) : Outcome ε α := ⟨.ok a, []⟩

/-- An error, and nothing to log. -/
def fail (e : ε) : Outcome ε α := ⟨.error e, []⟩

/-- Nothing but an event. -/
def emit (e : Event) : Outcome ε Unit := ⟨.ok (), [e]⟩

/-- Go on from the value of a step; an error stays. -/
def bind (x : Outcome ε α) (f : α → Outcome ε β) : Outcome ε β :=
  match x.result with
  | .ok a => let y := f a; ⟨y.result, x.log ++ y.log⟩
  | .error e => ⟨.error e, x.log⟩

instance : Monad (Outcome ε) where
  pure := pure
  bind := bind

/-- The same outcome with its error said otherwise. -/
def mapError (f : ε → δ) (x : Outcome ε α) : Outcome δ α := ⟨x.result.mapError f, x.log⟩

end Outcome

end ScenePack
