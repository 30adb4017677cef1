import HeaderFlattening.Text.Basic

/-!
Patterns and what they match at one place of a text. `outcomes` lists all ways to match, the
preferred one first: a run takes as many characters as it can, and the first of two alternatives goes
before the second. `match?` finds the preferred way without listing the others; `match?_eq_head?` says
that it does. By `suffix_of_mem_outcomes` a match leaves an ending of the text.
-/

set_option autoImplicit false
namespace HeaderFlattening

inductive Pattern where
  | empty
  | one (ok : Char → Bool)
  /-- Any number of characters of a class, as many as the rest of the pattern allows. -/
  | many (ok : Char → Bool)
  | seq (first second : Pattern)
  | alt (first second : Pattern)
  | group (index : Nat) (p : Pattern)
  | atStart
  | atEnd

/-- The part of a text before an ending of it. -/
def Text.before (s rest : Text) : Text := s.take (s.length - rest.length)

namespace Pattern

/-- One way to match at a place: what is left of the text, and what each group took. A group on a
branch that was not used took nothing. -/
structure Outcome where
  rest : Text
  group : Nat → Option Text := fun _ => none

/-- The outcome of a second pattern behind that of a first one. -/
def Outcome.andThen (a b : Outcome) : Outcome :=
  { rest := b.rest, group := fun i => (a.group i).or (b.group i) }

/-- The outcome of a group that started where `s` was left. -/
def Outcome.remember (o : Outcome) (index : Nat) (s : Text) : Outcome :=
  { o with group := fun i => if i = index then some (s.before o.rest) else o.group i }

/-- What a run of characters of a class may leave, the longest run first, put before `shorter`. -/
def runs (ok : Char → Bool) (shorter : List Outcome) : Text → List Outcome
  | [] => { rest := [] } :: shorter
  | c :: s =>
    if ok c then runs ok ({ rest := c :: s } :: shorter) s
    else { rest := c :: s } :: shorter

/-- The ways to match at a place, the preferred one first. `first` tells whether the place is the
start of the whole text; `s` is the text from the place on. -/
def outcomes : Pattern → (first : Bool) → (s : Text) → List Outcome
  | .empty, _, s => [{ rest := s }]
  | .one _, _, [] => []
  | .one ok, _, c :: s => if ok c then [{ rest := s }] else []
  | .many ok, _, s => runs ok [] s
  | .seq p q, first, s =>
    (p.outcomes first s).flatMap fun a =>
      (q.outcomes (first && a.rest.length = s.length) a.rest).map a.andThen
  | .alt p q, first, s => p.outcomes first s ++ q.outcomes first s
  | .group i p, first, s => (p.outcomes first s).map fun a => a.remember i s
  | .atStart, first, s => if first then [{ rest := s }] else []
  | .atEnd, _, s => if s.isEmpty then [{ rest := s }] else []

/-- Tries the runs of a class, the longest first, until `next` accepts what one leaves. -/
def tryRuns (ok : Char → Bool) (next : Outcome → Option Outcome) : Text → Option Outcome
  | [] => next { rest := [] }
  | c :: s =>
    if ok c then
      match tryRuns ok next s with
      | some o => some o
      | none => next { rest := c :: s }
    else next { rest := c :: s }

/-- Tries the ways to match at a place in the order of preference until `next` accepts one. -/
def tryAll : Pattern → (first : Bool) → (s : Text) → (next : Outcome → Option Outcome) →
    Option Outcome
  | .empty, _, s, next => next { rest := s }
  | .one _, _, [], _ => none
  | .one ok, _, c :: s, next => if ok c then next { rest := s } else none
  | .many ok, _, s, next => tryRuns ok next s
  | .seq p q, first, s, next =>
    p.tryAll first s fun a =>
      q.tryAll (first && a.rest.length = s.length) a.rest fun b => next (a.andThen b)
  | .alt p q, first, s, next =>
    match p.tryAll first s next with
    | some o => some o
    | none => q.tryAll first s next
  | .group i p, first, s, next => p.tryAll first s fun a => next (a.remember i s)
  | .atStart, first, s, next => if first then next { rest := s } else none
  | .atEnd, _, s, next => if s.isEmpty then next { rest := s } else none

/-- The preferred way to match at a place. -/
def match? (p : Pattern) (first : Bool) (s : Text) : Option Outcome := p.tryAll first s some

def groupCount : Pattern → Nat
  | .seq p q | .alt p q => p.groupCount + q.groupCount
  | .group _ p => p.groupCount + 1
  | _ => 0

def char (c : Char) : Pattern := .one (· = c)

def literal : Text → Pattern
  | [] => .empty
  | [c] => .char c
  | c :: t => .seq (.char c) (literal t)

def sequence : List Pattern → Pattern
  | [] => .empty
  | [p] => p
  | p :: ps => .seq p (sequence ps)

def atLeastOne (ok : Char → Bool) : Pattern := .seq (.one ok) (.many ok)

def optional (p : Pattern) : Pattern := .alt p .empty

theorem runs_append (ok : Char → Bool) (shorter : List Outcome) (s : Text) :
    runs ok shorter s = runs ok [] s ++ shorter := by
  induction s generalizing shorter with
  | nil => rfl
  | cons c s ih =>
    rw [runs, runs]
    split
    · rw [ih, ih [_], List.append_assoc]
      rfl
    · rfl

theorem tryRuns_eq (ok : Char → Bool) (next : Outcome → Option Outcome) (s : Text) :
    tryRuns ok next s = (runs ok [] s).findSome? next := by
  induction s with
  | nil => simp [tryRuns, runs]
  | cons c s ih =>
    rw [tryRuns, runs]
    split
    · rw [runs_append, List.findSome?_append, ih]
      cases h : (runs ok [] s).findSome? next <;> simp
    · simp

theorem findSome?_flatMap {α β γ : Type} (l : List α) (f : α → List β) (g : β → Option γ) :
    (l.flatMap f).findSome? g = l.findSome? fun a => (f a).findSome? g := by
  induction l with
  | nil => rfl
  | cons a l ih =>
    rw [List.flatMap_cons, List.findSome?_append, List.findSome?_cons, ih]
    cases (f a).findSome? g <;> rfl

theorem tryAll_eq (p : Pattern) (first : Bool) (s : Text) (next : Outcome → Option Outcome) :
    p.tryAll first s next = (p.outcomes first s).findSome? next := by
  induction p generalizing first s next with
  | empty => simp [tryAll, outcomes]
  | one ok =>
    cases s with
    | nil => rfl
    | cons c s => by_cases h : ok c <;> simp [tryAll, outcomes, h]
  | many ok => exact tryRuns_eq ok next s
  | seq p q ihp ihq =>
    simp only [tryAll, outcomes, ihp, ihq, findSome?_flatMap, List.findSome?_map]
    rfl
  | alt p q ihp ihq =>
    rw [tryAll, outcomes, List.findSome?_append, ihp, ihq]
    cases (p.outcomes first s).findSome? next <;> rfl
  | group i p ih =>
    simp only [tryAll, outcomes, ih, List.findSome?_map]
    rfl
  | atStart => cases first <;> simp [tryAll, outcomes]
  | atEnd => cases s <;> simp [tryAll, outcomes]

theorem match?_eq_head? (p : Pattern) (first : Bool) (s : Text) :
    p.match? first s = (p.outcomes first s).head? := by
  rw [match?, tryAll_eq]
  cases p.outcomes first s <;> simp

theorem suffix_of_mem_runs {ok : Char → Bool} {s : Text} {o : Outcome} (h : o ∈ runs ok [] s) :
    o.rest <:+ s := by
  induction s with
  | nil => simp_all [runs]
  | cons c s ih =>
    rw [runs] at h
    split at h
    · rw [runs_append, List.mem_append] at h
      rcases h with h | h
      · exact (ih h).trans (List.suffix_cons c s)
      · simp_all
    · simp_all

/-- A match takes a beginning of the text and leaves an ending. -/
theorem suffix_of_mem_outcomes {p : Pattern} {first : Bool} {s : Text} {o : Outcome}
    (h : o ∈ p.outcomes first s) : o.rest <:+ s := by
  induction p generalizing first s o with
  | empty => simp_all [outcomes]
  | one ok =>
    cases s with
    | nil => simp [outcomes] at h
    | cons c s =>
      rw [outcomes] at h
      split at h <;> simp_all
  | many ok => exact suffix_of_mem_runs h
  | seq p q ihp ihq =>
    obtain ⟨a, ha, h⟩ := List.mem_flatMap.1 h
    obtain ⟨b, hb, rfl⟩ := List.mem_map.1 h
    exact (ihq hb).trans (ihp ha)
  | alt p q ihp ihq =>
    rcases List.mem_append.1 h with h | h
    · exact ihp h
    · exact ihq h
  | group i p ih =>
    obtain ⟨a, ha, rfl⟩ := List.mem_map.1 h
    show a.rest <:+ s
    exact ih ha
  | atStart | atEnd =>
    rw [outcomes] at h
    split at h <;> simp_all

end Pattern
end HeaderFlattening
