import Mathlib.Data.List.Basic
import HeaderFlattening.Proofs.EnumBody
import HeaderFlattening.Proofs.Occurrences

/-!
Texts behind spaces. The tokens of a text, the search texts of edits and the shapes of constants,
methods and declarations do not start at a space; so spaces in front of a text put off what is found
in it and change nothing else, and whatever takes the place of a find stands behind the same spaces.
-/

set_option autoImplicit false
namespace HeaderFlattening

namespace Text

def spaces (n : Nat) : Text := List.replicate n ' '

theorem spaces_succ (n : Nat) : spaces (n + 1) = ' ' :: spaces n := rfl

theorem spaces_add (m n : Nat) : spaces (m + n) = spaces m ++ spaces n :=
  (List.replicate_append_replicate ..).symm

theorem all_blank_spaces (n : Nat) : (spaces n).all isBlank = true := by
  rw [List.all_eq_true]
  intro c mem
  rw [List.eq_of_mem_replicate mem]
  decide

/-- A search text that does not start with a space is not found among the spaces. -/
theorem split_spaces {search : Text} (solid : search.head? ≠ some ' ') (n : Nat) (t : Text) :
    ∃ part parts, split search t = part :: parts ∧
      split search (spaces n ++ t) = (spaces n ++ part) :: parts := by
  induction n with
  | zero =>
    obtain ⟨part, parts, cut⟩ := exists_split search t
    exact ⟨part, parts, cut, cut⟩
  | succ n ih =>
    obtain ⟨part, parts, cut, behind⟩ := ih
    refine ⟨part, parts, cut, ?_⟩
    have missed : ¬(search ≠ [] ∧ search.isPrefixOf (' ' :: (spaces n ++ t)) = true) := by
      rintro ⟨ne, found⟩
      obtain ⟨c, rest, rfl⟩ := List.exists_cons_of_ne_nil ne
      rw [List.isPrefixOf, Bool.and_eq_true, beq_iff_eq] at found
      exact solid (congrArg some found.1)
    rw [spaces_succ, List.cons_append, split, dif_neg missed, behind]
    rfl

theorem replaceAll_spaces {search : Text} (solid : search.head? ≠ some ' ') (n : Nat)
    (t replacement : Text) :
    replaceAll (spaces n ++ t) search replacement none =
      (replaceAll t search replacement none).map (·.map (spaces n ++ ·)) := by
  obtain ⟨part, parts, cut, behind⟩ := split_spaces solid n t
  unfold replaceAll
  rw [cut, behind]
  simp only [List.length_cons, Nat.add_sub_cancel, join_append]
  split_ifs <;> rfl

end Text

namespace Pattern

/-- Whether the pattern asks for the start of the text. -/
def asksStart : Pattern → Bool
  | .atStart => true
  | .seq p q | .alt p q => p.asksStart || q.asksStart
  | .group _ p => p.asksStart
  | _ => false

/-- The ways to match such a pattern are the same everywhere in a text. -/
theorem outcomes_of_asksStart {p : Pattern} (free : p.asksStart = false) (first later : Bool)
    (s : Text) : p.outcomes first s = p.outcomes later s := by
  induction p generalizing first later s with
  | seq p q ihp ihq =>
    rw [asksStart, Bool.or_eq_false_iff] at free
    rw [outcomes, outcomes, ihp free.1 first later]
    refine List.flatMap_congr fun a _ => ?_
    rw [ihq free.2]
  | alt p q ihp ihq =>
    rw [asksStart, Bool.or_eq_false_iff] at free
    rw [outcomes, outcomes, ihp free.1 first later, ihq free.2 first later]
  | group i p ih => rw [outcomes, outcomes, ih free first later]
  | atStart => cases free
  | one ok => cases s <;> rfl
  | _ => rfl

/-- The pattern is nowhere found at a space, and does not ask for the start of the text. -/
structure Solid (p : Pattern) : Prop where
  free : p.asksStart = false
  skips : ∀ first t, p.outcomes first (' ' :: t) = []

namespace Solid

variable {p : Pattern} (solid : p.Solid)
include solid

theorem piecesFrom_first (first later behind : Bool) (t : Text) :
    p.piecesFrom first behind t = p.piecesFrom later behind t := by
  have same (t : Text) : p.match? first t = p.match? later t := by
    rw [match?_eq_head?, match?_eq_head?, outcomes_of_asksStart solid.free first later]
  cases t with
  | nil => rw [piecesFrom, piecesFrom, same]
  | cons c t => rw [piecesFrom, piecesFrom, same]

theorem pieces_spaces (n : Nat) (t : Text) :
    p.pieces (Text.spaces n ++ t) = (Text.spaces n).map .other ++ p.pieces t := by
  induction n with
  | zero => rfl
  | succ n ih =>
    have none : p.match? true (' ' :: (Text.spaces n ++ t)) = Option.none := by
      rw [match?_eq_head?, solid.skips]
      rfl
    have rest : p.piecesFrom false false (Text.spaces n ++ t) = p.pieces (Text.spaces n ++ t) :=
      solid.piecesFrom_first false true false _
    rw [Text.spaces_succ, List.cons_append, pieces, piecesFrom, none]
    simp only [rest, ih, List.map_cons, List.cons_append]

theorem hits_spaces (n : Nat) (t : Text) : p.hits (Text.spaces n ++ t) = p.hits t := by
  have silent : ((Text.spaces n).map Piece.other).filterMap Piece.hit? = [] := by
    rw [List.filterMap_eq_nil_iff]
    intro piece mem
    obtain ⟨c, -, rfl⟩ := List.mem_map.1 mem
    rfl
  rw [hits, solid.pieces_spaces, List.filterMap_append, silent]
  rfl

/-- Spaces stay in front of what a replacement makes of the text. -/
theorem replace_spaces (template : Text) (n : Nat) (t : Text) :
    p.replace template (Text.spaces n ++ t) = (p.replace template t).map (Text.spaces n ++ ·) := by
  have kept : ((Text.spaces n).map Piece.other).flatMap (Piece.replaced p.groupCount template) =
      Text.spaces n := by
    rw [List.flatMap_map]
    exact List.flatMap_singleton' _
  unfold replace occursIn
  rw [solid.hits_spaces, solid.pieces_spaces, List.flatMap_append, kept]
  split_ifs <;> rfl

end Solid

theorem solid_constMember : constMember.Solid where
  free := rfl
  skips first t := outcomes_seq_nil (outcomes_literal_of_ne (by decide) (by decide) first t)

theorem solid_virtualMethod : virtualMethod.Solid where
  free := rfl
  skips first t := outcomes_seq_nil (outcomes_literal_of_ne (by decide) (by decide) first t)

theorem solid_declaration : declaration.Solid where
  free := rfl
  skips first t := by
    have no : ¬(Text.isWord ' ' || decide (' ' = '*')) = true := by decide
    exact outcomes_seq_nil (outcomes_group_nil 1 (outcomes_seq_nil (if_neg no)))

end Pattern

namespace Text

theorem declaredName?_spaces (n : Nat) (t : Text) :
    declaredName? (spaces n ++ t) = declaredName? t := by
  rw [declaredName?, declaredName?, Pattern.solid_declaration.hits_spaces]

theorem isDeclaration_spaces (n : Nat) (t : Text) :
    isDeclaration (spaces n ++ t) = isDeclaration t := by
  rw [isDeclaration, isDeclaration, declaredName?_spaces]

end Text

namespace Pattern

variable {p : Pattern}

/-- A pattern that is found nowhere but at the start is found if it matches there. -/
theorem occursIn_of_start (start : ∀ s, p.outcomes false s = []) (s : Text) :
    p.occursIn s = !(p.outcomes true s).isEmpty := by
  have none (s : Text) : p.match? false s = Option.none := by
    rw [match?_eq_head?, start]
    rfl
  have behind (s : Text) : (p.piecesFrom false false s).filterMap Piece.hit? = [] := by
    induction s with
    | nil =>
      rw [piecesFrom, none]
      rfl
    | cons c s ih =>
      rw [piecesFrom, none]
      exact ih
  cases ways : p.outcomes true s with
  | cons o others =>
    have found : p.match? true s = some o := by
      rw [match?_eq_head?, ways]
      rfl
    rw [occursIn_of_match? found]
    rfl
  | nil =>
    have missed : p.match? true s = Option.none := by
      rw [match?_eq_head?, ways]
      rfl
    unfold occursIn hits pieces
    cases s with
    | nil =>
      rw [piecesFrom, missed]
      rfl
    | cons c s =>
      rw [piecesFrom, missed]
      simp only [List.filterMap_cons, Piece.hit?, behind]
      rfl

/-- A space more in front of a comment, or of nothing, makes no difference. -/
theorem isEmpty_outcomes_space (t : Text) :
    (blankOrComment.outcomes true (' ' :: t)).isEmpty = (blankOrComment.outcomes true t).isEmpty := by
  let mark : Pattern := .group 1 (.alt (literal "//".toList) .atEnd)
  have anywhere (first later : Bool) (s : Text) : mark.outcomes first s = mark.outcomes later s :=
    outcomes_of_asksStart rfl first later s
  have noMark (first : Bool) : mark.outcomes first (' ' :: t) = [] := rfl
  have behind (first : Bool) : (Pattern.seq (.many Text.isSpace) mark).outcomes first (' ' :: t) =
      (Pattern.seq (.many Text.isSpace) mark).outcomes first t := by
    have space : Text.isSpace ' ' = true := by decide
    rw [outcomes, outcomes, outcomes, outcomes, runs, if_pos space, runs_append, List.flatMap_append,
      List.flatMap_cons, noMark]
    simp only [List.map_nil, List.flatMap_nil, List.append_nil]
    refine List.flatMap_congr fun a _ => ?_
    rw [anywhere]
  have whole (s : Text) : blankOrComment.outcomes true s =
      ((Pattern.seq (.many Text.isSpace) mark).outcomes true s).map
        ({ rest := s } : Outcome).andThen := by
    have here : Pattern.atStart.outcomes true s = [{ rest := s }] := rfl
    change List.flatMap _ (Pattern.atStart.outcomes true s) = _
    rw [here, List.flatMap_cons, List.flatMap_nil, List.append_nil, decide_eq_true rfl, Bool.and_self]
    rfl
  rw [whole, whole, List.isEmpty_map, List.isEmpty_map, behind]

end Pattern

namespace Text

theorem isBlankOrComment_spaces (n : Nat) (t : Text) :
    isBlankOrComment (spaces n ++ t) = isBlankOrComment t := by
  have start (s : Text) : Pattern.blankOrComment.outcomes false s = [] := rfl
  induction n with
  | zero => rfl
  | succ n ih =>
    rw [← ih, isBlankOrComment, isBlankOrComment, Pattern.occursIn_of_start start,
      Pattern.occursIn_of_start start, spaces_succ, List.cons_append,
      Pattern.isEmpty_outcomes_space]

end Text

namespace Line

theorem words_spaces (n : Nat) (t : Text) : (cut (Text.spaces n ++ t)).words = (cut t).words :=
  Token.wordsOf_blank_append (Text.all_blank_spaces n) t

/-- Another text in the place of the first word. -/
theorem exists_spliced {t w : Text} (word : (cut t).word? 0 = some w) (v : Text) :
    ∃ x, ∀ n, ∃ span, (cut (Text.spaces n ++ t)).span? 0 = some span ∧
      (Text.spaces n ++ t).splice v span.start span.length none = .ok (Text.spaces n ++ x) := by
  cases tokens : (Token.scan t).1 with
  | nil =>
    rw [word?, Line.words, cut, tokens] at word
    cases word
  | cons first ts =>
    obtain ⟨rest, start, -⟩ := Token.exists_first (Prod.ext tokens rfl)
    refine ⟨first.gap ++ v ++ rest, fun n => ?_⟩
    have scanned := Token.scan_blank_append (Text.all_blank_spaces n) (Prod.ext tokens rfl)
    let gap := Text.spaces n ++ first.gap
    refine ⟨⟨gap.byteLength, gap.byteLength + first.text.byteLength⟩, ?_, ?_⟩
    · rw [span?, cut, scanned]
      simp only [Token.spans, Nat.zero_add, List.getElem?_cons_zero, gap]
    · have source : Text.spaces n ++ t = gap ++ (first.text ++ rest) := by
        rw [start.source]
        simp only [gap, List.append_assoc]
      rw [source, Span.length, Nat.add_sub_cancel_left, Text.splice_between]
      simp only [gap, List.append_assoc]

/-- An edit of a line behind spaces leaves the spaces where they are. -/
theorem edit?_spaces {config : Config} (solid : ∀ e ∈ config.edits, e.search.head? ≠ some ' ')
    (n : Nat) (t : Text) :
    (cut (Text.spaces n ++ t)).edit? config =
      ((cut t).edit? config).map fun change => (change.1, Text.spaces n ++ change.2) := by
  unfold edit? word?
  rw [words_spaces]
  by_cases define : (cut t).words[0]? = some "#define".toList
  · rw [if_pos define, if_pos define]
    cases found : (cut t).words[1]?.bind config.findEdit? with
    | none => rfl
    | some edit =>
      obtain ⟨name, -, known⟩ := Option.bind_eq_some_iff.1 found
      have listed : edit ∈ config.edits := List.mem_of_find?_eq_some known
      obtain ⟨r, replaced⟩ := Conversion.replaceAll_unlimited t edit.search edit.replacement
      have moved := Text.replaceAll_spaces (solid edit listed) n t edit.replacement
      rw [replaced] at moved
      simp only [cut, replaced, moved]
      cases r <;> rfl
  · rw [if_neg define, if_neg define]
    rfl

end Line

namespace Scan

/-- A scan asks nothing of the text of the line but whether it is a declaration. -/
theorem tokens_congr {source source' : Text} (same : source'.isDeclaration = source.isDeclaration)
    (startsInline : Bool) (two one : Option Text) (ws : List Text) (s : Scan) :
    tokens startsInline source' two one ws s = tokens startsInline source two one ws s := by
  induction ws generalizing two one s with
  | nil => rfl
  | cons w ws ih =>
    have step' : step startsInline source' two w s = step startsInline source two w s := by
      simp only [step, behindSignature, same]
    rw [tokens, tokens, step', ih]

theorem line_spaces (n : Nat) (t : Text) (function : FunctionState) (cursor : Cursor) :
    line (.cut (Text.spaces n ++ t)) function cursor = line (.cut t) function cursor := by
  unfold line Line.word?
  rw [Line.words_spaces]
  exact tokens_congr (Text.isDeclaration_spaces n t) ..

end Scan

/-- A run of spaces is told by its length. -/
theorem Text.takeWhile_space (t : Text) :
    t.takeWhile (· = ' ') = spaces (t.takeWhile (· = ' ')).length :=
  List.eq_replicate_iff.2 ⟨rfl, fun _ mem =>
    of_decide_eq_true (List.mem_takeWhile_imp (p := fun c : Char => decide (c = ' ')) mem)⟩

/-- What is taken from a line are some of the spaces that it starts with. -/
theorem Config.exists_outdent (config : Config) (m : Mode) (raw : Text) :
    ∃ i a, i + a = (raw.takeWhile (· = ' ')).length ∧
      config.outdent m raw = (Text.spaces i, Text.spaces a ++ raw.dropWhile (· = ' ')) := by
  have behind (t : Text) : t = Text.spaces (t.takeWhile (· = ' ')).length ++ t.dropWhile (· = ' ') := by
    rw [← Text.takeWhile_space, List.takeWhile_append_dropWhile]
  unfold Config.outdent
  split_ifs
  · let taken := (raw.take config.rules.unindentWidth).takeWhile (· = ' ')
    let rest := raw.drop taken.length
    have front : taken <+: raw := (List.takeWhile_prefix _).trans (List.take_prefix _ _)
    have source : raw = taken ++ rest := (List.prefix_iff_eq_append.1 front).symm
    have all : ∀ c ∈ taken, decide (c = ' ') = true := fun c mem =>
      List.mem_takeWhile_imp (p := fun c : Char => decide (c = ' ')) mem
    refine ⟨taken.length, (rest.takeWhile (· = ' ')).length, ?_, ?_⟩
    · rw [source, List.takeWhile_append_of_pos all, List.length_append]
    · have left : raw.dropWhile (· = ' ') = rest.dropWhile (· = ' ') := by
        rw [source, List.dropWhile_append_of_pos all]
      rw [left, ← behind rest, ← Text.takeWhile_space]
  · exact ⟨0, (raw.takeWhile (· = ' ')).length, Nat.zero_add _, by rw [← behind raw]; rfl⟩

end HeaderFlattening
