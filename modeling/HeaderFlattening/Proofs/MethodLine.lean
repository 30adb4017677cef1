import HeaderFlattening.Proofs.Alteration
import HeaderFlattening.Proofs.StructBody

/-!
Lines of a struct that start with `virtual` and hold a method. No stage before the one for constants
claims such a line, whatever else is open, and the mode stays as it is; but a default value of a
constant parameter is found first, and then the line does not become a pointer to a function.
-/

set_option autoImplicit false
namespace HeaderFlattening

theorem Pattern.exists_replace_of_occursIn {p : Pattern} {t : Text} (h : p.occursIn t = true)
    (template : Text) : ∃ x, p.replace template t = some x := ⟨_, if_pos h⟩

namespace Conversion

variable {config : Config} {raw : Text} {s : State}

theorem arrives_virtual (outside : s.mode.inComment = false) (fits : config.Fits raw)
    (first : (Line.cut raw).word? 0 = some "virtual".toList) :
    Arrives config s.mode raw (.reached none (.cut (config.outdent s.mode raw).2)) := by
  obtain ⟨ws, words⟩ : ∃ ws, (Line.cut raw).words = "virtual".toList :: ws := by
    unfold Line.word? at first
    cases words : (Line.cut raw).words with
    | nil =>
      rw [words] at first
      cases first
    | cons w ws =>
      rw [words] at first
      exact ⟨ws, by rw [Option.some.inj first]⟩
  exact Arrives.reached_outdent outside fits (Line.unclaimed_of_first_word words
    (Line.not_externC words (by decide)) (by decide) (by decide) s.mode)

/-- A line that a stage has claimed with one text was not claimed with another. -/
theorem put_made_inj {u : State} {x y : Text} : u.put ⟨.made, y⟩ = u.put ⟨.made, x⟩ ↔ y = x := by
  refine ⟨fun same => ?_, fun same => by rw [same]⟩
  have emitted := congrArg State.emitted same
  rw [u.emitted_put, u.emitted_put] at emitted
  exact congrArg Chunk.text (List.singleton_inj.1 (List.append_cancel_left emitted))

/-- In a struct, be it in a class or in a function, a line that starts with `virtual` and holds a
method leaves the mode as it is. It becomes the filled template just if no constant is found in it, or
one that gives the same text; with the default template no constant does. -/
theorem method_converted_iff (outside : s.mode.inComment = false) (noEnum : s.mode.enumBody = none)
    (struct : s.mode.structBody.isSome = true) (fits : config.Fits raw)
    (first : (Line.cut raw).word? 0 = some "virtual".toList)
    (found : (config.outdent s.mode raw).2.hasMethod = true) :
    let line := (config.outdent s.mode raw).2
    let arrived := s.arrive config raw (.reached none (.cut line))
    ∃ x, Pattern.virtualMethod.replace config.rules.methodTemplate line = some x ∧
      (stateAfter (processLine config raw) s).mode = s.mode ∧
      (Leaves (processLine config raw) s () (arrived.put ⟨.made, x⟩) ↔
        ∀ y, Pattern.constMember.replace "#define $1 ($2)".toList line = some y → y = x) ∧
      (config.rules.methodTemplate = ({} : Rules).methodTemplate →
        (Leaves (processLine config raw) s () (arrived.put ⟨.made, x⟩) ↔
          line.hasConstant = false)) := by
  intro line arrived
  obtain ⟨x, converts⟩ := Pattern.exists_replace_of_occursIn found config.rules.methodTemplate
  have arrives := arrives_virtual outside fits first
  have mode (y : Text) : (arrived.put ⟨.made, y⟩).mode = s.mode := arrived.mode_put _
  refine ⟨x, converts, ?_⟩
  cases constant : Pattern.constMember.replace "#define $1 ($2)".toList line with
  | none =>
    have noConstant := hasConstant_of_replace_none constant
    have leaves := leaves_reached arrives
      (leaves_late_method (s := arrived) noEnum struct noConstant converts)
    refine ⟨(congrArg State.mode leaves.stateAfter_eq).trans (mode x), ?_, fun _ => ?_⟩
    · exact iff_of_true leaves fun y some => (Option.some_ne_none y some.symm).elim
    · exact iff_of_true leaves noConstant
  | some y =>
    have leaves := leaves_reached arrives
      (leaves_late_constant (s := arrived) (run_trackFunctions_inStruct struct) constant)
    have becomes : Leaves (processLine config raw) s () (arrived.put ⟨.made, x⟩) ↔ y = x := by
      constructor
      · intro other
        exact put_made_inj.1 (leaves.stateAfter_eq.symm.trans other.stateAfter_eq)
      · rintro rfl
        exact leaves
    refine ⟨(congrArg State.mode leaves.stateAfter_eq).trans (mode y), ?_, fun template => ?_⟩
    · rw [becomes]
      exact ⟨fun same z some => (Option.some.inj some).symm.trans same, fun all => all y rfl⟩
    · rw [becomes]
      rw [template] at converts
      refine iff_of_false (constant_ne_method constant converts) fun absent => ?_
      have occurs : Pattern.constMember.replace "#define $1 ($2)".toList line = none :=
        if_neg (ne_true_of_eq_false absent)
      rw [constant] at occurs
      cases occurs

theorem constantDefault_not_converted :
    let s := runLines {} ["struct ICanvas \x7b\n".toList] {}
    let raw := "    virtual void Draw(const int x = 5);\n".toList
    let converted := "    void (*Draw)(const int x = 5);\n".toList
    Pattern.virtualMethod.replace ({} : Config).rules.methodTemplate raw = some converted ∧
      ¬Leaves (processLine {} raw) s ()
        ((s.arrive {} raw (.reached none (.cut raw))).put ⟨.made, converted⟩) := by
  intro s raw converted
  have fits : ({} : Config).Fits raw := by decide +kernel
  obtain ⟨x, converts, -, -, default⟩ := method_converted_iff (s := s) (by decide +kernel)
    (by decide +kernel) (by decide +kernel) fits (by decide +kernel) (by decide +kernel)
  have result : Pattern.virtualMethod.replace ({} : Config).rules.methodTemplate raw =
      some converted := by decide +kernel
  have whole : (({} : Config).outdent s.mode raw).2 = raw := by decide +kernel
  rw [whole] at converts default
  obtain rfl := Option.some.inj (converts.symm.trans result)
  have constant : Text.hasConstant raw = true := by decide +kernel
  refine ⟨result, fun leaves => ?_⟩
  exact Bool.false_ne_true (((default rfl).1 leaves).symm.trans constant)

end Conversion
end HeaderFlattening
