import HeaderFlattening.Conversion.Session
import Mathlib.Data.List.TakeWhile
import Mathlib.Tactic.SplitIfs

/-!
Runs of a conversion. A step leaves a state whether it succeeds or fails, and the next line starts
from there; the states that lines lead to in this way from an empty start are the reachable ones.
-/

set_option autoImplicit false
namespace HeaderFlattening.Conversion

variable {α β : Type} {s t : State}

/-- The state that a step leaves, also when it fails. -/
def stateAfter (x : Conversion α) (s : State) : State :=
  match x.run s with
  | .ok _ t => t
  | .error _ t => t

/-- The state behind lines that are read one after the other, whatever the outcome of each. -/
def runLines (config : Config) : List Text → State → State
  | [], s => s
  | raw :: rest, s => runLines config rest (stateAfter (processLine config raw) s)

theorem runLines_append (config : Config) (xs ys : List Text) (s : State) :
    runLines config (xs ++ ys) s = runLines config ys (runLines config xs s) := by
  induction xs generalizing s with
  | nil => rfl
  | cons x xs ih => exact ih _

/-- The states that lines can lead to when the sink has the given room. -/
inductive Reachable (config : Config) (room : Option Nat) : State → Prop
  | start : Reachable config room { sink := { room } }
  | line {s : State} (raw : Text) (h : Reachable config room s) :
      Reachable config room (stateAfter (processLine config raw) s)

theorem reachable_runLines (config : Config) (room : Option Nat) (ls : List Text)
    (h : Reachable config room s) : Reachable config room (runLines config ls s) := by
  induction ls generalizing s with
  | nil => exact h
  | cons raw ls ih => exact ih (.line raw h)

theorem run_tryCatch (x : Conversion α) (f : ConvertError → Conversion α) (s : State) :
    (tryCatch x f).run s =
      match x.run s with
      | .ok a t => .ok a t
      | .error e t => (f e).run t := by
  simp only [tryCatch, tryCatchThe, MonadExceptOf.tryCatch, EStateM.tryCatch, EStateM.run]
  cases x s <;> rfl

end HeaderFlattening.Conversion
