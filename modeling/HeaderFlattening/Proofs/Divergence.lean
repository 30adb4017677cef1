import HeaderFlattening.Proofs.Kept
import HeaderFlattening.Proofs.Matches
import HeaderFlattening.Proofs.Wrapper

/-!
Where the output of a line parts from the line. A stage that changes a line puts something else in the
place of a constant, a method, or the text that an edit looks for; other lines are written with
another first word, or anew. In each case the output can no longer be the line with the rest of the
text behind it, and no opener of an `extern "C"` block either.
-/

set_option autoImplicit false
namespace HeaderFlattening

namespace Text

/-- The texts begin alike, and then `b` goes on with `d` and `a` with something else. -/
def Parts (a b : Text) (d : Char) : Prop :=
  ∃ x c a' b', a = x ++ c :: a' ∧ b = x ++ d :: b' ∧ c ≠ d

variable {a b t : Text} {c d : Char}

theorem Parts.append_ne (h : a.Parts b d) (w v : Text) : a ++ w ≠ b ++ v := by
  obtain ⟨x, c, a', b', rfl, rfl, ne⟩ := h
  intro same
  rw [List.append_assoc, List.append_assoc] at same
  exact ne (List.cons_eq_cons.1 (List.append_cancel_left same)).1

/-- Texts that part from a third one at different characters do not go on alike. -/
theorem Parts.append_ne_of_parts (h : a.Parts t c) (k : b.Parts t d) (ne : c ≠ d) (w v : Text) :
    a ++ w ≠ b ++ v := by
  obtain ⟨x, c', a', t', rfl, rfl, left⟩ := h
  obtain ⟨y, d', b', t'', rfl, same, right⟩ := k
  rcases List.append_eq_append_iff.1 same with ⟨z, rfl, behind⟩ | ⟨z, rfl, behind⟩
  · cases z with
    | nil => exact absurd (List.cons_eq_cons.1 behind).1 ne
    | cons e z =>
      obtain ⟨rfl, -⟩ := List.cons_eq_cons.1 behind
      refine Parts.append_ne (d := c) ⟨x, c', a', z ++ d' :: b', rfl, ?_, left⟩ w v
      rw [List.append_assoc]
      rfl
  · cases z with
    | nil => exact absurd (List.cons_eq_cons.1 behind).1.symm ne
    | cons e z =>
      obtain ⟨rfl, -⟩ := List.cons_eq_cons.1 behind
      refine (Parts.append_ne (d := d) ⟨y, d', b', z ++ c' :: a', rfl, ?_, right⟩ v w).symm
      rw [List.append_assoc]
      rfl

/-- Different words part in the first of them or at the blank behind it. -/
theorem parts_of_ne {u r : Text} (h : ' ' ∉ u) (k : ' ' ∉ r) (ne : r ≠ u) (a b : Text) :
    ∃ d ∈ u ++ [' '], (r ++ ' ' :: a).Parts (u ++ ' ' :: b) d := by
  induction u generalizing r with
  | nil =>
    obtain ⟨c, r, rfl⟩ := List.exists_cons_of_ne_nil ne
    rw [List.mem_cons, not_or] at k
    exact ⟨' ', List.mem_cons_self, [], c, _, _, rfl, rfl, Ne.symm k.1⟩
  | cons d u ih =>
    rw [List.mem_cons, not_or] at h
    cases r with
    | nil => exact ⟨d, List.mem_cons_self, [], ' ', _, _, rfl, rfl, h.1⟩
    | cons c r =>
      rw [List.mem_cons, not_or] at k
      by_cases same : c = d
      · subst same
        obtain ⟨e, mem, x, c', a', b', left, right, apart⟩ := ih h.2 k.2 fun eq => ne (by rw [eq])
        refine ⟨e, List.mem_cons_of_mem c mem, c :: x, c', a', b', ?_, ?_, apart⟩
        · rw [List.cons_append, left]
          rfl
        · rw [List.cons_append, right]
          rfl
      · exact ⟨d, List.mem_cons_self, [], c, _, _, rfl, rfl, same⟩

/-- The first piece between the occurrences is what comes before the first of them. -/
theorem exists_of_split {search part more : Text} {parts : List Text}
    (h : split search t = part :: more :: parts) : ∃ y, t = part ++ (search ++ y) := by
  have source := join_split search t
  rw [h] at source
  exact ⟨join search (more :: parts), source.symm.trans (List.append_assoc _ _ _)⟩

/-- A replacement leaves what comes before the first occurrence. -/
theorem exists_of_replaceAll {search replacement e : Text}
    (h : t.replaceAll search replacement none = .ok (some e)) :
    ∃ x y z, t = x ++ (search ++ y) ∧ e = x ++ (replacement ++ z) := by
  obtain ⟨several, rfl⟩ := of_replaceAll h
  cases parts : split search t with
  | nil => simp [parts] at several
  | cons part others =>
    cases others with
    | nil => simp [parts] at several
    | cons more others =>
      obtain ⟨y, source⟩ := exists_of_split parts
      exact ⟨part, y, _, source, List.append_assoc _ _ _⟩

end Text

/-- What a stage makes of a line that holds a constant or a method, up to the place where it differs
from the line. -/
inductive Rewrites (t : Text) : Text → Prop
  | constant {x t' : Text} (e : Text) (source : t = x ++ 'c' :: t') : Rewrites t (x ++ '#' :: e)
  | method {x r t' : Text} (e : Text)
      (source : t = x ++ ("virtual ".toList ++ (r ++ ' ' :: t')))
      (ne : r ≠ []) (word : r.all Text.isWord = true) : Rewrites t (x ++ (r ++ ' ' :: '(' :: e))

/-- A line with a constant goes on with `#` where the constant starts. -/
theorem exists_of_constant {t e : Text}
    (h : Pattern.constMember.replace "#define $1 ($2)".toList t = some e) :
    ∃ x t' z, t = x ++ 'c' :: t' ∧ e = x ++ '#' :: z := by
  obtain ⟨x, u, o, first, z, rfl, found, rfl⟩ := Pattern.exists_of_replace h
  rw [Pattern.match?_eq_head?] at found
  obtain ⟨a, later, b, left, -, -⟩ := Pattern.exists_of_mem_seq (List.mem_of_head? found)
  obtain ⟨source, -⟩ := Pattern.source_of_mem_literal left
  rw [source]
  exact ⟨x, _, _, rfl, rfl⟩

theorem rewrites_constant {t e : Text}
    (h : Pattern.constMember.replace "#define $1 ($2)".toList t = some e) : Rewrites t e := by
  obtain ⟨x, t', z, source, rfl⟩ := exists_of_constant h
  exact .constant z source

theorem exists_methodTemplate (h : Pattern.Hit) : ∃ e,
    Pattern.expand Pattern.virtualMethod.groupCount h ({} : Config).rules.methodTemplate =
      (h.group? 1).getD [] ++ ' ' :: '(' :: e := ⟨_, rfl⟩

/-- A line with a method goes on with the result and the parenthesis where the method starts. -/
theorem exists_of_method {t e : Text}
    (h : Pattern.virtualMethod.replace ({} : Config).rules.methodTemplate t = some e) :
    ∃ x r t' z, t = x ++ ("virtual ".toList ++ (r ++ ' ' :: t')) ∧ e = x ++ (r ++ ' ' :: '(' :: z) ∧
      r ≠ [] ∧ r.all Text.isWord = true := by
  obtain ⟨x, u, o, first, z, rfl, found, rfl⟩ := Pattern.exists_of_replace h
  rw [Pattern.match?_eq_head?] at found
  obtain ⟨a, later, b, left, right, rfl⟩ := Pattern.exists_of_mem_seq (List.mem_of_head? found)
  obtain ⟨source, none⟩ := Pattern.source_of_mem_literal left
  obtain ⟨c, later, d, result, rest, rfl⟩ := Pattern.exists_of_mem_seq right
  obtain ⟨c, mem, rfl⟩ := List.mem_map.1 result
  obtain ⟨r, ne, word, taken⟩ := Pattern.exists_of_mem_atLeastOne mem
  obtain ⟨f, later, g, blank, -, -⟩ := Pattern.exists_of_mem_seq rest
  obtain ⟨space, -⟩ := Pattern.source_of_mem_char blank
  have group : ((a.andThen ((c.remember 1 a.rest).andThen d)).toHit u).group? 1 = some r := by
    show (a.group 1).or ((some (a.rest.before c.rest)).or (d.group 1)) = some r
    rw [none, taken, Text.before_append_right]
    rfl
  obtain ⟨e, filled⟩ :=
    exists_methodTemplate ((a.andThen ((c.remember 1 a.rest).andThen d)).toHit u)
  rw [filled, group, source, taken, show c.rest = ' ' :: f.rest from space, List.append_assoc]
  exact ⟨x, r, f.rest, _, rfl, rfl, ne, word⟩

theorem rewrites_method {t e : Text}
    (h : Pattern.virtualMethod.replace ({} : Config).rules.methodTemplate t = some e) :
    Rewrites t e := by
  obtain ⟨x, r, t', z, source, rfl, ne, word⟩ := exists_of_method h
  exact .method z source ne word

/-- The texts part within the word that the method starts with, or at the blank behind it. -/
theorem exists_parts_method {x r : Text} (word : r.all Text.isWord = true) (t e : Text) :
    ∃ d ∈ "virtual ".toList,
      (x ++ (r ++ ' ' :: '(' :: e)).Parts (x ++ ("virtual ".toList ++ (r ++ ' ' :: t))) d := by
  have blank : ' ' ∉ r := fun mem => absurd (List.all_eq_true.1 word ' ' mem) (by decide)
  by_cases same : r = "virtual".toList
  · refine ⟨'v', by decide, x ++ "virtual ".toList, '(', e, "irtual ".toList ++ t, ?_, ?_, by decide⟩
    · rw [same, List.append_assoc]
      rfl
    · rw [same, List.append_assoc]
      rfl
  · obtain ⟨d, mem, y, c, a, b, left, right, apart⟩ :=
      Text.parts_of_ne (by decide) blank same ('(' :: e) (r ++ ' ' :: t)
    refine ⟨d, mem, x ++ y, c, a, b, ?_, ?_, apart⟩
    · rw [left, List.append_assoc]
    · rw [List.append_assoc, ← right]
      rfl

/-- The text and the line that it comes from part, and not at an `e` of the line. -/
theorem Rewrites.exists_parts {t e : Text} (h : Rewrites t e) : ∃ d, d ≠ 'e' ∧ e.Parts t d := by
  cases h with
  | @constant x t' e source => exact ⟨'c', by decide, x, '#', e, t', rfl, source, by decide⟩
  | @method x r t' e source ne word =>
    rw [source]
    obtain ⟨d, mem, parts⟩ := exists_parts_method (x := x) word t' e
    refine ⟨d, ?_, parts⟩
    rintro rfl
    exact absurd mem (by decide)

/-- A constant and a method of one line do not give the same text. -/
theorem constant_ne_method {t y x : Text}
    (constant : Pattern.constMember.replace "#define $1 ($2)".toList t = some y)
    (method : Pattern.virtualMethod.replace ({} : Config).rules.methodTemplate t = some x) :
    y ≠ x := by
  obtain ⟨a, t', z, source, rfl⟩ := exists_of_constant constant
  obtain ⟨b, r, v, w, other, rfl, -, word⟩ := exists_of_method method
  obtain ⟨d, mem, parts⟩ := exists_parts_method (x := b) word v w
  rw [← other] at parts
  have left : (a ++ '#' :: z).Parts t 'c' := ⟨a, '#', z, t', rfl, source, by decide⟩
  have apart : 'c' ≠ d := by
    rintro rfl
    exact absurd mem (by decide)
  intro same
  exact left.append_ne_of_parts parts apart [] [] (by rw [same])

theorem Text.isLine_concat {a : Text} (h : '\n' ∉ a) : (a ++ ['\n']).IsLine :=
  ⟨List.getLast?_concat, by rwa [List.dropLast_concat]⟩

theorem Text.IsLine.wordsOf_append {a : Text} (h : a.IsLine) (b : Text) :
    Token.wordsOf (a ++ b) = Token.wordsOf a ++ Token.wordsOf b := by
  obtain ⟨c, rfl⟩ := List.getLast?_eq_some_iff.1 h.1
  have feed (s : Text) : Token.wordsOf (c ++ '\n' :: s) = Token.wordsOf c ++ Token.wordsOf s := by
    have outer : Token.isInner '\n' = false := by decide
    have stops : ('\n' :: s).head?.any Token.isInner = false := outer
    rw [Token.wordsOf_append stops, Token.wordsOf_cons_blank (by decide)]
  rw [List.append_assoc, List.singleton_append, feed b, feed []]
  exact congrArg (· ++ Token.wordsOf b) (List.append_nil _).symm

/-- A line of a text, in front of what follows it, be that given as a text or as lines. -/
def Text.LineBefore {α : Type} (raw : Text) (rest : List α) : Prop :=
  raw.IsLine ∨ rest = [] ∧ '\n' ∉ raw

theorem Text.lineBefore_of_lines {x raw : Text} {rest : List Text}
    (h : Text.lines x = raw :: rest) : raw.LineBefore rest ∧ ∃ y, Text.lines y = rest := by
  induction x generalizing raw rest with
  | nil => cases h
  | cons c x ih =>
    rw [Text.lines] at h
    split_ifs at h with feed
    · cases h
      exact ⟨.inl ⟨by rw [feed]; rfl, List.not_mem_nil⟩, x, rfl⟩
    · cases others : Text.lines x with
      | nil =>
        rw [others] at h
        cases h
        exact ⟨.inr ⟨rfl, fun mem => feed (List.mem_singleton.1 mem).symm⟩, [], rfl⟩
      | cons l ls =>
        rw [others] at h
        cases h
        obtain ⟨shape, y⟩ := ih others
        refine ⟨?_, y⟩
        rcases shape with ⟨last, plain⟩ | ⟨none, plain⟩
        · obtain ⟨a, rfl⟩ := List.getLast?_eq_some_iff.1 last
          rw [List.dropLast_concat] at plain
          have more : '\n' ∉ c :: a := by
            rw [List.mem_cons, not_or]
            exact ⟨Ne.symm feed, plain⟩
          exact .inl (Text.isLine_concat more)
        · refine .inr ⟨none, ?_⟩
          rw [List.mem_cons, not_or]
          exact ⟨Ne.symm feed, plain⟩

namespace Text.LineBefore

variable {raw rest : Text}

theorem oneLine {α : Type} {rest : List α} (h : raw.LineBefore rest) : '\n' ∉ raw.dropLast := by
  rcases h with line | ⟨-, plain⟩
  · exact line.2
  · exact fun mem => plain (List.dropLast_subset _ mem)

theorem flatten {ls : List Text} (h : raw.LineBefore ls) : raw.LineBefore ls.flatten := by
  rcases h with line | ⟨rfl, plain⟩
  · exact .inl line
  · exact .inr ⟨rfl, plain⟩

theorem wordsOf_append (h : raw.LineBefore rest) :
    Token.wordsOf (raw ++ rest) = Token.wordsOf raw ++ Token.wordsOf rest := by
  rcases h with line | ⟨rfl, -⟩
  · exact line.wordsOf_append rest
  · rw [List.append_nil]
    exact (List.append_nil _).symm

/-- Two texts with the same first line. -/
theorem eq_of_append {a : Text} (h : raw.LineBefore rest) (line : a.IsLine) {w : Text}
    (same : a ++ w = raw ++ rest) : raw = a := by
  obtain ⟨last, plain⟩ := line
  obtain ⟨c, rfl⟩ := List.getLast?_eq_some_iff.1 last
  rw [List.dropLast_concat] at plain
  rw [List.append_assoc] at same
  rcases h with ⟨last, plain'⟩ | ⟨rfl, none⟩
  · obtain ⟨d, rfl⟩ := List.getLast?_eq_some_iff.1 last
    rw [List.dropLast_concat] at plain'
    rw [List.append_assoc] at same
    obtain ⟨rfl, -, -⟩ := Text.mark_inj plain' plain same
    rfl
  · rw [List.append_nil] at same
    exact absurd (same ▸ List.mem_append_right _ List.mem_cons_self) none

end Text.LineBefore

/-- What stands before the brace of a line that opens an `extern "C"` block. -/
structure Text.Linkage (a : Text) : Prop where
  words : Token.wordsOf a = ["extern".toList, "\"C\"".toList]
  oneLine : '\n' ∉ a

namespace Text.Linkage

variable {a raw : Text}

theorem notMem (h : a.Linkage) {c : Char} (full : Text.isBlank c = false)
    (other : c ∉ ["extern".toList, "\"C\"".toList].flatten) : c ∉ a := by
  intro mem
  refine other ?_
  rw [← h.words, Token.flatten_wordsOf, List.mem_filter]
  exact ⟨mem, by rw [full]; rfl⟩

theorem exists_of_opensExternC (h : (Line.cut raw).opensExternC = true)
    (oneLine : '\n' ∉ raw.dropLast) : ∃ a b, raw = a ++ '\x7b' :: b ∧ a.Linkage := by
  obtain ⟨rest, words⟩ := List.isPrefixOf_iff_prefix.1 h
  have word : ['\x7b'] ∈ Token.wordsOf raw := by
    show ['\x7b'] ∈ (Line.cut raw).words
    rw [← words]
    exact List.mem_append_left _ (by decide)
  have brace : '\x7b' ∈ raw := Token.mem_of_mem_wordsOf word List.mem_cons_self
  obtain ⟨a, b, rfl, first⟩ := List.eq_append_cons_of_mem brace
  have cut : ["extern".toList, "\"C\"".toList] ++ ['\x7b'] :: rest =
      Token.wordsOf a ++ ['\x7b'] :: Token.wordsOf b := by
    rw [← Token.wordsOf_append_delimiter (by decide)]
    exact words
  have none : ['\x7b'] ∉ Token.wordsOf a :=
    fun mem => first (Token.mem_of_mem_wordsOf mem List.mem_cons_self)
  obtain ⟨eq, -⟩ := Text.mark_inj none (by decide) cut
  refine ⟨a, b, rfl, eq.symm, fun feed => oneLine ?_⟩
  rw [List.dropLast_append_of_ne_nil (List.cons_ne_nil _ _)]
  exact List.mem_append_left _ feed

theorem opensExternC (h : a.Linkage) (starts : a ++ ['\x7b'] <+: raw) :
    (Line.cut raw).opensExternC = true := by
  obtain ⟨b, rfl⟩ := starts
  refine List.isPrefixOf_iff_prefix.2 ⟨Token.wordsOf b, ?_⟩
  show _ = Token.wordsOf (a ++ ['\x7b'] ++ b)
  rw [List.append_assoc, List.singleton_append, Token.wordsOf_append_delimiter (by decide), h.words]
  rfl

/-- A line without such an opener does not go on like one behind any of its beginnings. -/
theorem append_ne (h : a.Linkage) (noOpener : (Line.cut raw).opensExternC = false) {x t y : Text}
    (source : raw = x ++ t) (plain : '\x7b' ∉ y) {m : Char} (mark : m = '#' ∨ m = '(')
    (w z : Text) : x ++ (y ++ m :: w) ≠ a ++ '\x7b' :: z := by
  have noBrace : '\x7b' ∉ a := h.notMem (by decide) (by decide)
  have noMark : m ∉ a := by
    rcases mark with rfl | rfl <;> exact h.notMem (by decide) (by decide)
  intro same
  by_cases inside : '\x7b' ∈ x
  · obtain ⟨b, c, rfl, first⟩ := List.eq_append_cons_of_mem inside
    rw [List.append_assoc] at same
    obtain ⟨rfl, -, -⟩ := Text.mark_inj noBrace first same
    have opener : (Line.cut raw).opensExternC = true := by
      refine h.opensExternC ⟨c ++ t, ?_⟩
      rw [source, List.append_assoc, List.append_assoc]
      rfl
    rw [noOpener] at opener
    exact Bool.false_ne_true opener
  · rw [← List.append_assoc] at same
    have fresh : '\x7b' ∉ x ++ y := by
      rw [List.mem_append, not_or]
      exact ⟨inside, plain⟩
    obtain ⟨-, rfl, -⟩ := Text.mark_inj noMark fresh same
    rcases mark with eq | eq <;> exact absurd eq (by decide)

end Text.Linkage

/-- How the output of a line begins that is neither copied nor left out. -/
inductive Changed (raw : Text) : Text → Prop
  /-- It begins with another word. -/
  | reworded {u v : Text} {c : Char} {us : List Text} (e : Text) (words : Token.wordsOf raw = u :: us)
      (ne : v ≠ []) (word : v.all Token.isInner = true) (stops : Token.isInner c = false)
      (other : v ≠ u) (notExtern : v ≠ "extern".toList) : Changed raw (v ++ c :: e)
  /-- It begins with another line. -/
  | remade {e : Text} (line : e.IsLine)
      (notExtern : (Token.wordsOf e).head?.any (· ≠ "extern".toList) = true) (ne : raw ≠ e) :
      Changed raw e
  | rewritten {e : Text} (h : Rewrites raw e) : Changed raw e
  | edited {t e : Text} {us : List Text} (change : raw.Parts t 'e')
      (words : Token.wordsOf t = "#define".toList :: us) (h : e = t ∨ Rewrites t e) : Changed raw e

namespace Changed

variable {raw rest e : Text}

/-- The output is not the line followed by the rest of the text. -/
theorem append_ne_line (h : Changed raw e) (line : raw.LineBefore rest) (w : Text) :
    e ++ w ≠ raw ++ rest := by
  intro same
  cases h with
  | @reworded u v c us e words ne word stops other =>
    have first := Token.wordsOf_inner (s := c :: (e ++ w)) ne word stops
    have both : v ++ c :: (e ++ w) = raw ++ rest := by
      rw [← same, List.append_assoc]
      rfl
    rw [both, line.wordsOf_append, words] at first
    exact other (List.cons_eq_cons.1 first).1.symm
  | remade made notExtern ne => exact ne (line.eq_of_append made same)
  | rewritten h =>
    obtain ⟨d, -, parts⟩ := h.exists_parts
    exact parts.append_ne w rest same
  | edited change words h =>
    rcases h with rfl | h
    · exact change.append_ne rest w same.symm
    · obtain ⟨d, ne, parts⟩ := h.exists_parts
      exact parts.append_ne_of_parts change ne w rest same

theorem exists_hash {t : Text} {us : List Text} (words : Token.wordsOf t = "#define".toList :: us)
    (h : e = t ∨ Rewrites t e) : ∃ b u, e = b ++ '#' :: u ∧ '\x7b' ∉ b := by
  obtain ⟨first, ts, tokens, word⟩ : ∃ first ts, (Token.scan t).1 = first :: ts ∧
      first.text = "#define".toList := by
    obtain ⟨first, ts, tokens, word, -⟩ := List.map_eq_cons_iff.1 words
    exact ⟨first, ts, tokens, word⟩
  obtain ⟨rest, start, -⟩ := Token.exists_first (Prod.ext tokens rfl)
  have blank (c : Char) (mem : c ∈ first.gap) : Text.isBlank c = true :=
    List.all_eq_true.1 start.blank c mem
  have plain : '\x7b' ∉ first.gap := fun mem => absurd (blank _ mem) (by decide)
  have source : t = first.gap ++ '#' :: ("define".toList ++ rest) := by
    rw [start.source, word, List.append_assoc]
    rfl
  -- What is put in place of the match stands behind the hash, or in the blanks before it.
  have behind {x t' y : Text} {c : Char} (eq : t = x ++ c :: t') (full : Text.isBlank c = false)
      (ne : c ≠ '#') : ∃ b u, x ++ y = b ++ '#' :: u ∧ '\x7b' ∉ b := by
    rw [source] at eq
    rcases List.append_eq_append_iff.1 eq with ⟨z, rfl, rest⟩ | ⟨z, gap, rest⟩
    · cases z with
      | nil => exact absurd (List.cons_eq_cons.1 rest).1.symm ne
      | cons d z =>
        obtain ⟨rfl, -⟩ := List.cons_eq_cons.1 rest
        exact ⟨first.gap, z ++ y, by rw [List.append_assoc]; rfl, plain⟩
    · cases z with
      | nil => exact absurd (List.cons_eq_cons.1 rest).1 ne
      | cons d z =>
        obtain ⟨rfl, -⟩ := List.cons_eq_cons.1 rest
        have inside : c ∈ first.gap := by
          rw [gap]
          exact List.mem_append_right _ List.mem_cons_self
        exact absurd (full.symm.trans (blank c inside)) (by decide)
  rcases h with rfl | h
  · exact ⟨first.gap, _, source, plain⟩
  · cases h with
    | constant e eq => exact behind eq (by decide) (by decide)
    | method e eq => exact behind eq (by decide) (by decide)

/-- The output does not begin with an opener of an `extern "C"` block. -/
theorem append_ne_linkage {a : Text} (h : Changed raw e) (linkage : a.Linkage)
    (noOpener : (Line.cut raw).opensExternC = false) (w z : Text) : e ++ w ≠ a ++ '\x7b' :: z := by
  have opener : Token.wordsOf (a ++ '\x7b' :: z) = "extern".toList :: "\"C\"".toList ::
      ['\x7b'] :: Token.wordsOf z := by
    rw [Token.wordsOf_append_delimiter (by decide), linkage.words]
    rfl
  intro same
  cases h with
  | @reworded u v c us e words ne word stops other notExtern =>
    have first := Token.wordsOf_inner (s := c :: (e ++ w)) ne word stops
    have both : v ++ c :: (e ++ w) = a ++ '\x7b' :: z := by
      rw [← same, List.append_assoc]
      rfl
    rw [both, opener] at first
    exact notExtern (List.cons_eq_cons.1 first).1.symm
  | remade made notExtern =>
    rw [← same, made.wordsOf_append] at opener
    cases words : Token.wordsOf e with
    | nil =>
      rw [words] at notExtern
      exact Bool.false_ne_true notExtern
    | cons u us =>
      rw [words] at opener notExtern
      have other : u ≠ "extern".toList := of_decide_eq_true notExtern
      exact other (List.cons_eq_cons.1 opener).1
  | rewritten h =>
    cases h with
    | @constant x t' e source =>
      rw [List.append_assoc] at same
      exact linkage.append_ne noOpener source List.not_mem_nil (.inl rfl) (e ++ w) z same
    | @method x r t' e source ne word =>
      have plain : '\x7b' ∉ r ++ [' '] := by
        rw [List.mem_append, not_or]
        exact ⟨fun mem => absurd (List.all_eq_true.1 word _ mem) (by decide), by decide⟩
      refine linkage.append_ne noOpener source plain (.inr rfl) (e ++ w) z ?_
      rw [← same]
      simp only [List.append_assoc, List.cons_append, List.nil_append]
  | edited change words h =>
    obtain ⟨b, u, rfl, plain⟩ := exists_hash words h
    rw [List.append_assoc] at same
    have noHash : '#' ∉ a := linkage.notMem (by decide) (by decide)
    obtain ⟨-, eq, -⟩ := Text.mark_inj noHash plain same
    exact absurd eq (by decide)

end Changed

namespace EnumLine

theorem mem_of_ofTokens? {tokens : List Token} {e : EnumLine} (h : ofTokens? tokens = some e) :
    ∀ t ∈ e.inner ++ [e.close], t ∈ tokens := by
  unfold ofTokens? at h
  simp only at h
  split_ifs at h
  cases opened : tokens.dropWhile (fun t => !decide (t.text = ['\x7b'])) with
  | nil => rw [opened] at h; cases h
  | cons brace rest =>
    rw [opened] at h
    simp only at h
    cases closed : rest.dropWhile (fun t => !decide (t.text = ['\x7d'])) with
    | nil => rw [closed] at h; cases h
    | cons close tail =>
      rw [closed] at h
      simp only at h
      split_ifs at h
      cases h
      have inside : rest <:+ tokens :=
        (List.suffix_cons brace rest).trans (opened ▸ List.dropWhile_suffix _)
      intro t mem
      refine inside.mem ?_
      rcases List.mem_append.1 mem with inner | last
      · exact (List.takeWhile_prefix _).mem inner
      · rw [List.mem_singleton.1 last]
        have behind : close :: tail <:+ rest := closed ▸ List.dropWhile_suffix _
        exact behind.mem List.mem_cons_self

end EnumLine

namespace Changed

variable {raw : Text}

theorem keyword {u v : Text} {ws : List Text} (words : Token.wordsOf raw = u :: ws) (other : v ≠ u)
    (known : v = "typedef".toList ∨ v = "struct".toList) (e : Text) :
    Changed raw (v ++ ' ' :: e) := by
  rcases known with rfl | rfl
  · exact .reworded e words (by decide) (by decide) (by decide) other (by decide)
  · exact .reworded e words (by decide) (by decide) (by decide) other (by decide)

theorem opener {keyword : Text} {ws : List Text} (words : Token.wordsOf raw = keyword :: ws)
    (known : keyword = "enum".toList ∨ keyword = "struct".toList) {name : Text}
    (ne : name = [] → raw ≠ keyword ++ "\n".toList) : Changed raw (openerText keyword name) := by
  cases name with
  | nil =>
    rcases known with rfl | rfl
    · exact .remade (by decide) (by decide) (ne rfl)
    · exact .remade (by decide) (by decide) (ne rfl)
  | cons c rest =>
    have other : "typedef".toList ≠ keyword := by
      rcases known with rfl | rfl <;> decide
    exact .keyword words other (.inl rfl) _

theorem enumLine {ws : List Text} (words : Token.wordsOf raw = "enum".toList :: ws)
    (oneLine : '\n' ∉ raw.dropLast) {e : EnumLine} {name : Text}
    (tokens : EnumLine.ofTokens? (Line.cut raw).tokens = some e) (ne : raw ≠ e.text none name) :
    Changed raw (e.text none name) := by
  unfold EnumLine.text at ne ⊢
  by_cases anonymous : name = []
  · rw [if_pos (List.isEmpty_iff.2 anonymous)] at ne ⊢
    have body : '\n' ∉ e.body none := by
      intro feed
      rw [EnumLine.body, EnumLine.rename_none] at feed
      obtain ⟨t, mem, inside⟩ : ∃ t ∈ e.inner ++ [e.close], '\n' ∈ t.source := by
        rcases List.mem_append.1 feed with inner | gap
        · obtain ⟨t, mem, inside⟩ := List.mem_flatMap.1 inner
          exact ⟨t, List.mem_append_left _ mem, inside⟩
        · exact ⟨e.close, List.mem_append_right _ List.mem_cons_self, List.mem_append_left _ gap⟩
      exact Token.notMem_source_of_line oneLine (EnumLine.mem_of_ofTokens? tokens t mem) inside
    have line : Text.IsLine ("enum ".toList ++ ("\x7b".toList ++ e.body none ++ "\x7d".toList)
        ++ ";\n".toList) := by
      have split : (";\n".toList : Text) = [';'] ++ ['\n'] := by decide
      rw [split, ← List.append_assoc]
      apply Text.isLine_concat
      simp [body]
    refine .remade line ?_ ne
    have blank : Token.isInner ' ' = false := by decide
    have first (t : Text) : Token.wordsOf ("enum".toList ++ ' ' :: t) =
        "enum".toList :: Token.wordsOf (' ' :: t) := Token.wordsOf_inner (by decide) (by decide) blank
    rw [List.append_assoc, show "enum ".toList = "enum".toList ++ [' '] from rfl, List.append_assoc,
      List.singleton_append, first]
    rfl
  · rw [if_neg fun empty => anonymous (List.isEmpty_iff.1 empty)]
    exact .keyword words (by decide) (.inl rfl) _

theorem closer (ne : raw ≠ closerText []) : Changed raw (closerText []) :=
  .remade (by decide) (by decide) ne

end Changed

end HeaderFlattening
