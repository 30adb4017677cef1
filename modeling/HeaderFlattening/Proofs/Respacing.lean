import Mathlib.Data.List.Forall2
import HeaderFlattening.Proofs.Indentation
import HeaderFlattening.Proofs.Lockstep

/-!
The states of two conversions that take different numbers of spaces from the lines of a class. They
differ in the spaces in front of the line at hand, and for that in the spaces in front of lines in
their output; what they know and where they are is the same. What one state becomes and what the other
becomes differ again in no more than that.
-/

set_option autoImplicit false
namespace HeaderFlattening

/-- The settings with another width of indentation. -/
def Config.withUnindent (config : Config) (width : Nat) : Config :=
  { config with rules := { config.rules with unindentWidth := width } }

/-- What is put before the text of a line where it is emitted. -/
def Config.mark (config : Config) (level : Int) : Origin → Text
  | .suppressed =>
    if config.rules.suppression = .annotate then
      "//(".toList ++ Text.ofInt level ++ ") ".toList
    else "// ".toList
  | _ => []

/-- The same text, or the text of one line with other spaces in front of it. The text of a data member
is the same. -/
inductive Chunk.Respaced (config : Config) : Chunk → Chunk → Prop
  | same (c : Chunk) : Respaced config c c
  | spaced {o : Origin} (line : o ≠ .member) (level : Int) (a b : Nat) (y : Text) :
      Respaced config ⟨o, config.mark level o ++ (Text.spaces a ++ y)⟩
        ⟨o, config.mark level o ++ (Text.spaces b ++ y)⟩

theorem Chunk.Respaced.isBlankOrComment {config : Config} {c d : Chunk} (h : c.Respaced config d) :
    d.text.isBlankOrComment = c.text.isBlankOrComment := by
  cases h with
  | same => rfl
  | @spaced o line level a b y =>
    have slashes (z : Text) : Text.isBlankOrComment (config.mark level .suppressed ++ z) = true := by
      unfold Config.mark
      split_ifs
      · exact Text.isBlankOrComment_slashes _
      · exact Text.isBlankOrComment_slashes _
    cases o with
    | member => exact absurd rfl line
    | suppressed => exact (slashes _).trans (slashes _).symm
    | copied | made =>
      exact (Text.isBlankOrComment_spaces b y).trans (Text.isBlankOrComment_spaces a y).symm

theorem Chunk.members_of_respaced {config : Config} {l k : List Chunk}
    (h : List.Forall₂ (Chunk.Respaced config) l k) :
    k.filter (·.origin = .member) = l.filter (·.origin = .member) := by
  induction h with
  | nil => rfl
  | cons related rest ih =>
    cases related with
    | same c => rw [List.filter_cons, List.filter_cons, ih]
    | spaced line level a b y =>
      rw [List.filter_cons, List.filter_cons, if_neg (by simpa using line),
        if_neg (by simpa using line), ih]

/-- All that was written behind `base`, of which data members start with so many spaces. -/
def Carries (lead : Nat) (base offered : List Chunk) : Prop :=
  ∃ new, offered = base ++ new ∧ ∀ c ∈ new, c.origin = .member → Text.spaces lead <+: c.text

theorem Carries.append {lead : Nat} {base offered more : List Chunk} (h : Carries lead base offered)
    (k : ∀ c ∈ more, c.origin = .member → Text.spaces lead <+: c.text) :
    Carries lead base (offered ++ more) := by
  obtain ⟨new, eq, carried⟩ := h
  exact ⟨new ++ more, by rw [eq, List.append_assoc], List.forall_mem_append.2 ⟨carried, k⟩⟩

theorem carries_refl (lead : Nat) (base : List Chunk) : Carries lead base base :=
  ⟨[], (List.append_nil _).symm, nofun⟩

/-- The states of the two conversions, as far as lines to come depend on them. `base` is what the first
of them had written before the line at hand, which starts with `lead` spaces. -/
structure Matched (config : Config) (lead : Nat) (base : List Chunk) (s t : State) : Prop where
  mode : t.mode = s.mode
  lineNumber : t.lineNumber = s.lineNumber
  memberNames : t.memberNames = s.memberNames
  cursor : t.cursor = s.cursor
  enumValues : t.enumValues = s.enumValues
  functions : t.functions = s.functions
  classes : t.classes = s.classes
  diagnostics : t.diagnostics = s.diagnostics
  pendingEnums : List.Forall₂ (Chunk.Respaced config) s.pendingEnums t.pendingEnums
  pendingMembers : List.Forall₂ (Chunk.Respaced config) s.pendingMembers t.pendingMembers
  lifted : ∀ c ∈ s.pendingEnums ++ s.pendingMembers, c.origin ≠ .member
  free : s.sink.room = none
  free' : t.sink.room = none
  offered : List.Forall₂ (Chunk.Respaced config) s.sink.offered t.sink.offered
  carried : Carries lead base s.sink.offered

theorem matched_start (config : Config) : Matched config 0 [] {} {} where
  mode := rfl
  lineNumber := rfl
  memberNames := rfl
  cursor := rfl
  enumValues := rfl
  functions := rfl
  classes := rfl
  diagnostics := rfl
  pendingEnums := .nil
  pendingMembers := .nil
  lifted := nofun
  free := rfl
  free' := rfl
  offered := .nil
  carried := carries_refl 0 []

/-- The line at hand is the same behind the spaces that are left of it. -/
structure Aligned (config : Config) (lead : Nat) (base : List Chunk) (s t : State) : Prop
    extends Matched config lead base s t where
  lines : ∃ i j a b y, i + a = lead ∧ j + b = lead ∧
    s.indent = Text.spaces i ∧ t.indent = Text.spaces j ∧
    s.line = .cut (Text.spaces a ++ y) ∧ t.line = .cut (Text.spaces b ++ y)

theorem forall₂_takeWhile {α : Type} {r : α → α → Prop} {p : α → Bool} {l k : List α}
    (same : ∀ a b, r a b → p b = p a) (h : List.Forall₂ r l k) :
    List.Forall₂ r (l.takeWhile p) (k.takeWhile p) ∧
      List.Forall₂ r (l.dropWhile p) (k.dropWhile p) := by
  induction h with
  | nil => exact ⟨.nil, .nil⟩
  | @cons a b l k related rest ih =>
    rw [List.takeWhile_cons, List.takeWhile_cons, List.dropWhile_cons, List.dropWhile_cons,
      same a b related]
    split_ifs
    · exact ⟨.cons related ih.1, ih.2⟩
    · exact ⟨.nil, .cons related rest⟩

namespace Matched

variable {config : Config} {lead : Nat} {base : List Chunk} {s t : State} {c d : Chunk}

/-- Where a line starts. -/
theorem rebase (h : Matched config lead base s t) (lead' : Nat) :
    Matched config lead' s.sink.offered s t := { h with carried := carries_refl lead' _ }

/-- What was written is not told apart any more into what stood there and what came from the line. -/
theorem forget (h : Matched config lead base s t) : Matched config 0 [] s t :=
  { h with carried := ⟨s.sink.offered, rfl, fun _ _ _ => List.nil_prefix⟩ }

theorem report (h : Matched config lead base s t) : t.report = s.report := by
  unfold State.report
  rw [h.lineNumber, h.enumValues, h.functions, h.classes, h.diagnostics]

theorem putDirect (h : Matched config lead base s t) (related : c.Respaced config d)
    (carried : c.origin = .member → Text.spaces lead <+: c.text) :
    Matched config lead base (s.putDirect c) (t.putDirect d) :=
  { h with
    offered := List.rel_append h.offered (.cons related .nil)
    carried := h.carried.append fun e mem => by rw [List.mem_singleton.1 mem]; exact carried }

theorem put (h : Matched config lead base s t) (related : c.Respaced config d)
    (line : c.origin ≠ .member) : Matched config lead base (s.put c) (t.put d) := by
  have kept := List.forall_mem_append.1 h.lifted
  have one : ∀ e ∈ [c], e.origin ≠ .member := fun e mem => by rw [List.mem_singleton.1 mem]; exact line
  unfold State.put
  rw [h.mode]
  split_ifs
  · exact { h with
      mode := rfl
      pendingEnums := List.rel_append h.pendingEnums (.cons related .nil)
      lifted := List.forall_mem_append.2 ⟨List.forall_mem_append.2 ⟨kept.1, one⟩, kept.2⟩ }
  · exact { h with
      mode := rfl
      pendingMembers := List.rel_append h.pendingMembers (.cons related .nil)
      lifted := List.forall_mem_append.2 ⟨kept.1, List.forall_mem_append.2 ⟨kept.2, one⟩⟩ }
  · exact h.putDirect related fun member => absurd member line

theorem gather (h : Matched config lead base s t) : Matched config lead base s.gather t.gather := by
  have cut := forall₂_takeWhile (p := fun c => c.text.isBlankOrComment)
    (fun _ _ related => related.isBlankOrComment) (List.rel_reverse h.pendingMembers)
  refine { h with
    pendingEnums := List.rel_append h.pendingEnums (List.rel_reverse cut.1)
    pendingMembers := List.rel_reverse cut.2
    lifted := fun c mem => h.lifted c ?_ }
  change c ∈ s.pendingEnums ++ s.trailingComments ++ s.membersProper at mem
  rw [← s.membersProper_append]
  simp only [List.mem_append] at mem ⊢
  rcases mem with (enums | trailing) | proper
  · exact .inl enums
  · exact .inr (.inr trailing)
  · exact .inr (.inl proper)

theorem flushed (h : Matched config lead base s t) : Matched config lead base s.flushed t.flushed :=
  { h with
    pendingEnums := .nil
    pendingMembers := .nil
    lifted := nofun
    offered := List.rel_append h.offered (List.rel_append h.pendingEnums h.pendingMembers)
    carried := h.carried.append fun c mem member => absurd member (h.lifted c mem) }

theorem exitClass (h : Matched config lead base s t) (name : Text) :
    Matched config lead base (s.exitClass name) (t.exitClass name) := by
  have classes : t.classes ++ [⟨name, t.memberNames.toList⟩] =
      s.classes ++ [⟨name, s.memberNames.toList⟩] := by rw [h.classes, h.memberNames]
  exact { h with
    mode := congrArg (fun m : Mode => { m with classState := .none }) h.mode
    memberNames := rfl
    classes := classes
    pendingEnums := .nil
    pendingMembers := .nil
    lifted := nofun
    offered := List.rel_append h.offered
      (.cons (.same _) (List.rel_append h.pendingEnums h.pendingMembers))
    carried := h.carried.append (List.forall_mem_cons.2
      ⟨nofun, fun c mem member => absurd member (h.lifted c mem)⟩) }

theorem withMode (h : Matched config lead base s t) (g : Mode → Mode) :
    Matched config lead base (s.withMode g) (t.withMode g) := { h with mode := congrArg g h.mode }

theorem enterClass (h : Matched config lead base s t) (c : ClassState) :
    Matched config lead base (s.enterClass c) (t.enterClass c) :=
  { h with
    mode := congrArg (fun m : Mode => { m with classState := c }) h.mode
    memberNames := rfl }

theorem addValue (h : Matched config lead base s t) (name : Text) :
    Matched config lead base (s.addValue name) (t.addValue name) := by
  unfold State.addValue
  rw [h.enumValues]
  split_ifs
  · exact h
  · exact { h with enumValues := rfl }

theorem addMember (h : Matched config lead base s t) (name : Text) :
    Matched config lead base (s.addMember name) (t.addMember name) := by
  unfold State.addMember
  rw [h.memberNames]
  split_ifs
  · exact h
  · exact { h with memberNames := rfl }

theorem remarked (h : Matched config lead base s t) (d : Diagnostic) :
    Matched config lead base (s.remarked d) (t.remarked d) :=
  { h with
    diagnostics := by
      unfold State.remarked
      rw [h.diagnostics, h.lineNumber] }

end Matched

theorem State.indent_put (s : State) (c : Chunk) : (s.put c).indent = s.indent := by
  unfold State.put
  split_ifs <;> rfl

theorem Line.isEmpty_congr {l l' : Line} (words : l'.words = l.words) : l'.isEmpty = l.isEmpty := by
  have eq (l : Line) : l.isEmpty = l.words.isEmpty := List.isEmpty_map.symm
  rw [eq, eq, words]

/-- Tokens are found, or there are too many, behind any number of spaces. -/
theorem Line.retokenize_spaces (limit : Nat) (t : Text) :
    (∀ n, (Line.ofText (Text.spaces n ++ t)).retokenize limit = .ok (.cut (Text.spaces n ++ t))) ∨
      ∀ n, (Line.ofText (Text.spaces n ++ t)).retokenize limit = .error ⟨limit⟩ := by
  have count (n : Nat) : (Line.cut (Text.spaces n ++ t)).tokens.length = (Line.cut t).words.length := by
    rw [← Line.words_spaces n t, Line.words, List.length_map]
  by_cases fits : (Line.cut t).words.length ≤ limit
  · exact .inl fun n => Line.retokenize_ofText (by rw [count]; exact fits)
  · refine .inr fun n => ?_
    have crowded : limit < (Line.cut (Text.spaces n ++ t)).tokens.length := by
      rw [count]
      exact Nat.not_le.1 fits
    have tokens : Token.tokenize (Text.spaces n ++ t) limit = .error ⟨limit⟩ := if_pos crowded
    change (Token.tokenize (Text.spaces n ++ t) limit).bind _ = _
    rw [tokens]
    rfl

namespace Aligned

variable {config : Config} {lead : Nat} {base : List Chunk} {s t u v : State} {c d : Chunk}

/-- Steps that leave the line at hand as it is. -/
theorem keep (h : Aligned config lead base s t) (next : Matched config lead base u v)
    (line : u.line = s.line) (indent : u.indent = s.indent) (line' : v.line = t.line)
    (indent' : v.indent = t.indent) : Aligned config lead base u v :=
  ⟨next, by rw [line, indent, line', indent']; exact h.lines⟩

theorem put (h : Aligned config lead base s t) (related : c.Respaced config d)
    (line : c.origin ≠ .member) : Aligned config lead base (s.put c) (t.put d) :=
  h.keep (h.toMatched.put related line) (s.line_put c) (s.indent_put c) (t.line_put d)
    (t.indent_put d)

theorem putDirect (h : Aligned config lead base s t) (related : c.Respaced config d)
    (carried : c.origin = .member → Text.spaces lead <+: c.text) :
    Aligned config lead base (s.putDirect c) (t.putDirect d) :=
  h.keep (h.toMatched.putDirect related carried) rfl rfl rfl rfl

theorem addValue (h : Aligned config lead base s t) (name : Text) :
    Aligned config lead base (s.addValue name) (t.addValue name) := by
  have kept (s : State) : (s.addValue name).line = s.line ∧ (s.addValue name).indent = s.indent := by
    unfold State.addValue
    split_ifs <;> exact ⟨rfl, rfl⟩
  exact h.keep (h.toMatched.addValue name) (kept s).1 (kept s).2 (kept t).1 (kept t).2

theorem addMember (h : Aligned config lead base s t) (name : Text) :
    Aligned config lead base (s.addMember name) (t.addMember name) := by
  have kept (s : State) : (s.addMember name).line = s.line ∧
      (s.addMember name).indent = s.indent := by
    unfold State.addMember
    split_ifs <;> exact ⟨rfl, rfl⟩
  exact h.keep (h.toMatched.addMember name) (kept s).1 (kept s).2 (kept t).1 (kept t).2

theorem words (h : Aligned config lead base s t) : t.line.words = s.line.words := by
  obtain ⟨i, j, a, b, y, -, -, -, -, line, line'⟩ := h.lines
  rw [line, line', Line.words_spaces, Line.words_spaces]

theorem isEmpty (h : Aligned config lead base s t) : t.line.isEmpty = s.line.isEmpty :=
  Line.isEmpty_congr h.words

theorem word? (h : Aligned config lead base s t) (i : Nat) : t.line.word? i = s.line.word? i := by
  rw [Line.word?, Line.word?, h.words]

theorem exists_text (h : Aligned config lead base s t) :
    ∃ a b y, s.line.text = Text.spaces a ++ y ∧ t.line.text = Text.spaces b ++ y := by
  obtain ⟨i, j, a, b, y, -, -, -, -, line, line'⟩ := h.lines
  exact ⟨a, b, y, by rw [line]; rfl, by rw [line']; rfl⟩

/-- The line with all of its spaces. -/
theorem exists_whole (h : Aligned config lead base s t) :
    t.indent ++ t.line.text = s.indent ++ s.line.text ∧
      Text.spaces lead <+: s.indent ++ s.line.text := by
  obtain ⟨i, j, a, b, y, left, right, indent, indent', line, line'⟩ := h.lines
  have whole : s.indent ++ s.line.text = Text.spaces lead ++ y := by
    rw [indent, line, ← left, Text.spaces_add, List.append_assoc]
    rfl
  have whole' : t.indent ++ t.line.text = Text.spaces lead ++ y := by
    rw [indent', line', ← right, Text.spaces_add, List.append_assoc]
    rfl
  exact ⟨by rw [whole, whole'], whole ▸ List.prefix_append _ _⟩

theorem declaredName? (h : Aligned config lead base s t) :
    t.line.text.declaredName? = s.line.text.declaredName? := by
  obtain ⟨a, b, y, text, text'⟩ := h.exists_text
  rw [text, text', Text.declaredName?_spaces, Text.declaredName?_spaces]

theorem ofTokens? (h : Aligned config lead base s t) {w : Text} {rest : List Text}
    (words : s.line.words = w :: rest) (ne : w ≠ ['{']) :
    EnumLine.ofTokens? t.line.tokens = EnumLine.ofTokens? s.line.tokens := by
  obtain ⟨i, j, a, b, y, -, -, -, -, line, line'⟩ := h.lines
  rw [line, Line.words_spaces] at words
  have behind (n : Nat) := Line.ofTokens?_blank_append (Text.all_blank_spaces n) words ne
  rw [line, line', behind, behind]

theorem scan (h : Aligned config lead base s t) (function : FunctionState) (cursor : Cursor) :
    Scan.line t.line function cursor = Scan.line s.line function cursor := by
  obtain ⟨i, j, a, b, y, -, -, -, -, line, line'⟩ := h.lines
  rw [line, line', Scan.line_spaces, Scan.line_spaces]

theorem followBody (h : Aligned config lead base s t) (depth : Int) :
    Aligned config lead base (s.followBody depth) (t.followBody depth) := by
  have mode : (t.followBody depth).mode = (s.followBody depth).mode := by
    unfold State.followBody
    rw [h.mode, afterBodyLine_congr h.words]
  exact h.keep { h.toMatched with mode := mode } rfl rfl rfl rfl

theorem followScan (h : Aligned config lead base s t) :
    Aligned config lead base s.followScan t.followScan := by
  have scan : Scan.line t.line t.mode.function t.cursor =
      Scan.line s.line s.mode.function s.cursor := by rw [h.mode, h.cursor, h.scan]
  have mode : t.followScan.mode = s.followScan.mode := by
    unfold State.followScan
    rw [scan, h.mode]
  have functions : t.followScan.functions = s.followScan.functions := by
    unfold State.followScan
    rw [scan, h.functions]
  exact h.keep { h.toMatched with
    mode := mode
    cursor := congrArg Scan.cursor scan
    functions := functions } rfl rfl rfl rfl

end Aligned

end HeaderFlattening
