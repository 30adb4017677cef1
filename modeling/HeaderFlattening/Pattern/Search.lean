import HeaderFlattening.Pattern.Basic

/-!
All matches of a pattern in a text, from left to right and not overlapping. `pieces` cuts the text
into matches and the single characters between them. After a match that took nothing the search goes
on behind the next character, and a match that takes nothing directly behind another match does not
count.
-/

set_option autoImplicit false
namespace HeaderFlattening.Pattern

structure Hit where
  taken : Text
  group : Nat → Option Text

/-- What group `i` took; group 0 is the whole match. -/
def Hit.group? (h : Hit) (i : Nat) : Option Text := if i = 0 then some h.taken else h.group i

/-- The match with an outcome at the place where `s` was left. -/
def Outcome.toHit (o : Outcome) (s : Text) : Hit := ⟨s.before o.rest, o.group⟩

inductive Piece where
  | other (c : Char)
  | hit (h : Hit)

/-- The part of the text that the piece stands for. -/
def Piece.source : Piece → Text
  | .other c => [c]
  | .hit h => h.taken

def Piece.hit? : Piece → Option Hit
  | .other _ => none
  | .hit h => some h

/-- The pieces of the text from a place on. `first` tells whether the place is the start of the whole
text and `behind` whether a match has just ended there. -/
def piecesFrom (p : Pattern) (first behind : Bool) : Text → List Piece
  | [] =>
    match p.match? first [] with
    | none => []
    | some o => if behind then [] else [.hit (o.toHit [])]
  | c :: s =>
    match p.match? first (c :: s) with
    | none => .other c :: piecesFrom p false false s
    | some o =>
      if o.rest.length < (c :: s).length then
        .hit (o.toHit (c :: s)) :: piecesFrom p false true o.rest
      else if behind then .other c :: piecesFrom p false false s
      else .hit (o.toHit (c :: s)) :: .other c :: piecesFrom p false false s
termination_by s => s.length
decreasing_by all_goals (simp only [List.length_cons] at *; omega)

def pieces (p : Pattern) (s : Text) : List Piece := p.piecesFrom true false s

def hits (p : Pattern) (s : Text) : List Hit := (p.pieces s).filterMap Piece.hit?

/-- A match with the bytes of the text that it takes. -/
structure Located where
  start : Nat
  stop : Nat
  hit : Hit

/-- The matches among pieces of which the first starts at byte `i`. -/
def located (i : Nat) : List Piece → List Located
  | [] => []
  | .other c :: ps => located (i + c.utf8Size) ps
  | .hit h :: ps =>
    let stop := i + h.taken.byteLength
    ⟨i, stop, h⟩ :: located stop ps

def occursIn (p : Pattern) (s : Text) : Bool := !(p.hits s).isEmpty

theorem before_append {s rest : Text} (h : rest <:+ s) : s.before rest ++ rest = s := by
  obtain ⟨t, rfl⟩ := h
  simp [Text.before]

theorem suffix_of_match? {p : Pattern} {first : Bool} {s : Text} {o : Outcome}
    (h : p.match? first s = some o) : o.rest <:+ s := by
  rw [match?_eq_head?] at h
  exact suffix_of_mem_outcomes (List.mem_of_head? h)

/-- A match that leaves the whole text takes nothing. -/
theorem taken_toHit_of_le {o : Outcome} {s : Text} (h : s.length ≤ o.rest.length) :
    (o.toHit s).taken = [] := by
  simp [Outcome.toHit, Text.before, Nat.sub_eq_zero_of_le h]

/-- The pieces make up the text. -/
theorem flatMap_source_piecesFrom (p : Pattern) (first behind : Bool) (s : Text) :
    (p.piecesFrom first behind s).flatMap Piece.source = s := by
  fun_induction piecesFrom p first behind s with
  | case1 | case2 => rfl
  | case3 first behind o => simp [Piece.source, taken_toHit_of_le]
  | case4 first behind c s found ih => simp [Piece.source, ih]
  | case5 first behind c s o found shorter ih =>
    rw [List.flatMap_cons, ih]
    exact before_append (suffix_of_match? found)
  | case6 first c s o found whole ih => simp [Piece.source, ih]
  | case7 first behind c s o found whole fresh ih =>
    simp [Piece.source, ih, taken_toHit_of_le (Nat.le_of_not_lt whole)]

theorem flatMap_source_pieces (p : Pattern) (s : Text) : (p.pieces s).flatMap Piece.source = s :=
  p.flatMap_source_piecesFrom true false s

end HeaderFlattening.Pattern
