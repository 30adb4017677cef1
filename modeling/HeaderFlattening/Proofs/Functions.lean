import HeaderFlattening.Proofs.Arrival
import HeaderFlattening.Proofs.Scanning

/-!
The function stage on single lines: a line of a body is suppressed and its braces are counted, and a
line outside functions is read token by token and suppressed if that calls for it.
-/

set_option autoImplicit false
namespace HeaderFlattening

/-- What a suppressed line leaves in the output. -/
def Suppression.render (suppression : Suppression) (level : Int) (text : Text) : List Chunk :=
  match suppression with
  | .annotate => [⟨.suppressed, "//(".toList ++ Text.ofInt level ++ ") ".toList ++ text⟩]
  | .comment => [⟨.suppressed, "// ".toList ++ text⟩]
  | .drop => []

namespace State

/-- The function stage on a line of a body. -/
def followBody (s : State) (depth : Int) : State :=
  { s with
    mode := { s.mode with function := FunctionState.afterBodyLine depth s.line }
    trace := s.trace ++
      if FunctionState.afterBodyLine depth s.line = .outside then [.functionExited s.cursor.name]
      else [] }

/-- The function stage on a line that starts outside functions. -/
def followOutside (s : State) : State :=
  let scan := Scan.line s.line .outside s.cursor
  { s with
    mode := { s.mode with function := scan.function }
    cursor := scan.cursor
    functions := s.functions ++ scan.functions
    trace := s.trace ++ scan.trace }

/-- No enum and no struct is open, so that the function stage looks at lines. -/
structure Watching (s : State) : Prop where
  enum : s.mode.enumBody = none
  struct : s.mode.structBody = none

theorem mode_putAll (s : State) (cs : List Chunk) : (s.putAll cs).mode = s.mode := by
  induction cs generalizing s with
  | nil => rfl
  | cons c cs ih => exact (ih (s.put c)).trans (s.mode_put c)

theorem emitted_put (s : State) (c : Chunk) : (s.put c).emitted = s.emitted ++ [c] := by
  unfold put
  split_ifs <;> rfl

theorem emitted_putAll (s : State) (cs : List Chunk) :
    (s.putAll cs).emitted = s.emitted ++ cs := by
  induction cs generalizing s with
  | nil => exact (List.append_nil _).symm
  | cons c cs ih =>
    show ((s.put c).putAll cs).emitted = _
    rw [ih, emitted_put, List.append_assoc]
    rfl

end State

namespace Conversion

variable {config : Config} {raw : Text} {s t : State}

theorem leaves_emitSuppressed (config : Config) (s : State) :
    Leaves (emitSuppressed config) s ()
      (s.putAll (config.rules.suppression.render s.mode.function.level s.line.text)) := by
  unfold emitSuppressed
  refine .after_run rfl ?_
  cases config.rules.suppression with
  | annotate => exact leaves_emit _ _ s
  | comment => exact leaves_emit _ _ s
  | drop => exact .of_run rfl

theorem leaves_trackFunctions (w : s.Watching) (follow : followFunction.run s = .ok true t) :
    Leaves (trackFunctions config) s true
      (t.putAll (config.rules.suppression.render t.mode.function.level t.line.text)) := by
  unfold trackFunctions
  refine .after_run rfl ?_
  rw [w.enum, w.struct]
  refine .after_run follow ?_
  exact (leaves_emitSuppressed config t).then_pure fun _ => true

theorem run_followFunction_body {depth : Int} (h : s.mode.function = .body depth) :
    followFunction.run s = .ok true (s.followBody depth) := by
  unfold followFunction State.followBody
  simp only [EStateM.run_bind, EStateM.run_get, h]
  split_ifs
  · rfl
  · simp only [List.append_nil]
    rfl

theorem run_followFunction_outside (h : s.mode.function = .outside) :
    followFunction.run s = .ok (Scan.line s.line .outside s.cursor).suppress s.followOutside := by
  unfold followFunction State.followOutside
  simp only [EStateM.run_bind, EStateM.run_get, h]
  rfl

theorem leaves_late (h : Leaves (trackFunctions config) s true t) : Leaves (late config) s () t :=
  (leaves_firstClaim h _).claim rfl

variable {edit : Option MacroEdit} {l : Line}

theorem leaves_body {depth : Int} (w : s.Watching) (h : s.mode.function = .body depth)
    (arrives : Arrives config s.mode raw (.reached edit l)) :
    Leaves (processLine config raw) s ()
      (((s.arrive config raw (.reached edit l)).followBody depth).putAll
        (config.rules.suppression.render (FunctionState.afterBodyLine depth l).level l.text)) := by
  have seen : (s.arrive config raw (.reached edit l)).Watching := ⟨w.enum, w.struct⟩
  exact leaves_reached arrives (leaves_late (leaves_trackFunctions seen (run_followFunction_body h)))

/-- A line outside functions is suppressed if the function stage wants it to be. -/
theorem leaves_outside (w : s.Watching) (h : s.mode.function = .outside)
    (arrives : Arrives config s.mode raw (.reached edit l))
    (suppress : (Scan.line l .outside s.cursor).suppress = true) :
    Leaves (processLine config raw) s ()
      ((s.arrive config raw (.reached edit l)).followOutside.putAll
        (config.rules.suppression.render (Scan.line l .outside s.cursor).function.level l.text)) := by
  have seen : (s.arrive config raw (.reached edit l)).Watching := ⟨w.enum, w.struct⟩
  have outside : (s.arrive config raw (.reached edit l)).mode.function = .outside := h
  have follow := run_followFunction_outside outside
  rw [show (Scan.line (s.arrive config raw (.reached edit l)).line .outside
    (s.arrive config raw (.reached edit l)).cursor).suppress = true from suppress] at follow
  exact leaves_reached arrives (leaves_late (leaves_trackFunctions seen follow))

end Conversion
end HeaderFlattening
