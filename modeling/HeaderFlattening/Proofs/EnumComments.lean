import HeaderFlattening.Proofs.Indentation
import HeaderFlattening.Proofs.Wrapper

/-!
Comments in front of an enum of a class. Whichever way an enum is opened, the blank lines and comments
that have been put off last go to the enums, the text of the enum follows them, and all else stays
with the members. Nothing of this is written before the class is closed.
-/

set_option autoImplicit false
namespace HeaderFlattening

namespace Text

/-- Nothing but white space, or a comment behind white space. -/
def IsRemark (t : Text) : Prop :=
  t.dropWhile isSpace = [] ∨ "//".toList <+: t.dropWhile isSpace

instance (t : Text) : Decidable t.IsRemark := inferInstanceAs (Decidable (_ ∨ _))

theorem exists_of_isBlankOrComment {t : Text} (h : t.isBlankOrComment = true) :
    ∃ b rest, t = b ++ rest ∧ b.all isSpace = true ∧ (rest = [] ∨ ∃ u, rest = '/' :: '/' :: u) := by
  rw [isBlankOrComment, Pattern.occursIn_of_start (fun _ => rfl)] at h
  cases ways : Pattern.blankOrComment.outcomes true t with
  | nil => simp [ways] at h
  | cons o others =>
    have way : o ∈ Pattern.blankOrComment.outcomes true t := by simp [ways]
    obtain ⟨a, _, b, start, behind, -⟩ := Pattern.exists_of_mem_seq way
    obtain ⟨u, _, v, run, last, -⟩ := Pattern.exists_of_mem_seq behind
    obtain rfl := List.mem_singleton.1 start
    obtain ⟨w, spaces, source⟩ := Pattern.exists_of_mem_runs run
    obtain ⟨mark, last, -⟩ := List.mem_map.1 last
    refine ⟨w, u.rest, source, spaces, ?_⟩
    rcases List.mem_append.1 last with slashes | ends
    · exact .inr ⟨mark.rest, (Pattern.source_of_mem_literal slashes).1⟩
    · left
      rw [Pattern.outcomes] at ends
      split_ifs at ends with empty
      · exact List.isEmpty_iff.1 empty
      · cases ends

theorem isBlankOrComment_iff (t : Text) : t.isBlankOrComment = true ↔ t.IsRemark := by
  constructor
  · intro found
    obtain ⟨b, rest, rfl, spaces, remark⟩ := exists_of_isBlankOrComment found
    unfold IsRemark
    rw [List.dropWhile_append_of_pos (List.all_eq_true.1 spaces)]
    rcases remark with rfl | ⟨u, rfl⟩
    · exact .inl rfl
    · exact .inr ⟨u, rfl⟩
  · intro remark
    have found := isBlankOrComment_of_space (b := t.takeWhile isSpace) (t := t.dropWhile isSpace)
      List.all_takeWhile (remark.imp_right fun ⟨u, source⟩ => ⟨u, source.symm⟩)
    rwa [List.takeWhile_append_dropWhile] at found

end Text

/-- The line opens an enum in a class of this name, and `own` is what becomes of the line: the opening
of a body, an enum that stands on one line, or a line that is copied as it is flat already. -/
inductive Line.OpensEnum (className : Option Text) (l : Line) : List Chunk → Prop where
  | body {d : TypeDeclaration} (opener : TypeDeclaration.ofWords? "enum".toList l.words = some d)
      (notForward : d.brace ≠ .forward)
      (notWhole : d.brace = .sameLine → EnumLine.ofTokens? l.tokens = none) :
      OpensEnum className l (Conversion.openerChunks "enum".toList d)
  | whole {d : TypeDeclaration} {e : EnumLine}
      (opener : TypeDeclaration.ofWords? "enum".toList l.words = some d) (brace : d.brace = .sameLine)
      (line : EnumLine.ofTokens? l.tokens = some e) :
      OpensEnum className l [⟨.made, e.text className d.name⟩]
  | flat (opener : l.opensFlat "enum".toList = true) : OpensEnum className l [⟨.copied, l.text⟩]

namespace State

variable {s t : State} {own : List Chunk}

/-- The last of the members that stay is no comment. -/
theorem not_isRemark_of_getLast?_membersProper {c : Chunk} (h : s.membersProper.getLast? = some c) :
    ¬ c.text.IsRemark := by
  rw [membersProper, List.getLast?_reverse] at h
  have stops :=
    List.head?_dropWhile_not (fun c : Chunk => c.text.isBlankOrComment) s.pendingMembers.reverse
  rw [h] at stops
  rw [← c.text.isBlankOrComment_iff]
  simpa using stops

/-- No longer row of comments ends the members. -/
theorem suffix_trailingComments {cs : List Chunk} (suffix : cs <:+ s.pendingMembers)
    (remarks : ∀ c ∈ cs, c.text.IsRemark) : cs <:+ s.trailingComments := by
  obtain ⟨front, source⟩ := suffix
  have all : ∀ c ∈ cs.reverse, c.text.isBlankOrComment = true := by
    intro c mem
    exact c.text.isBlankOrComment_iff.2 (remarks c (List.mem_reverse.1 mem))
  rw [trailingComments, ← source, List.reverse_append, List.takeWhile_append_of_pos all,
    List.reverse_append, List.reverse_reverse]
  exact List.suffix_append _ _

/-- The comments at the end of the members and then the text of an enum have gone to the enums. -/
structure Gathered (s t : State) (own : List Chunk) : Prop where
  enums : t.pendingEnums = s.pendingEnums ++ s.trailingComments ++ own
  members : t.pendingMembers = s.membersProper
  sink : t.sink = s.sink

theorem gathered_enterEnum (body : TypeBody) (opened : s.mode.classState.isOpen = true)
    (own : List Chunk) : s.Gathered ((s.enterEnum body).putAll own) own := by
  have mode := s.mode_enterEnum body
  rw [putAll_open_enum own (by rw [mode]; exact opened) (by rw [mode]; rfl),
    s.enterEnum_open body opened]
  exact ⟨rfl, rfl, rfl⟩

theorem gathered_enumLineState (name : Text) (e : EnumLine)
    (opened : s.mode.classState.isOpen = true) :
    s.Gathered (Conversion.enumLineState name e s)
      [⟨.made, e.text s.mode.classState.name? name⟩] := by
  let u := s.addValues (e.values s.mode.classState.name?)
  obtain ⟨enums, members⟩ := s.pending_addValues (e.values s.mode.classState.name?)
  have trailing : u.trailingComments = s.trailingComments := by
    unfold trailingComments
    rw [members]
  have proper : u.membersProper = s.membersProper := by
    unfold membersProper
    rw [members]
  have opened' : u.mode.classState.isOpen = true := by
    rw [s.mode_addValues]
    exact opened
  have gathered := u.gathered_enterEnum ⟨name, true⟩ opened'
    [⟨.made, e.text s.mode.classState.name? name⟩]
  refine ⟨?_, gathered.members.trans proper, gathered.sink.trans (s.sink_addValues _)⟩
  rw [← enums, ← trailing]
  exact gathered.enums

end State

namespace Conversion

variable {config : Config} {raw : Text} {s t : State} {own : List Chunk}

theorem run_openFlatType_open (h : s.line.opensFlat "enum".toList = true)
    (opened : s.mode.classState.isOpen = true) :
    openFlatType.run s =
      .ok true ((s.enterEnum s.line.flatBody).putAll [⟨.copied, s.line.text⟩]) := by
  obtain ⟨typedef, enum, noEnd⟩ := Line.opensFlat_iff.1 h
  have copied (t : State) (line : t.line = s.line) (opened : t.mode.classState.isOpen = true) :
      (emitLine >>= fun _ => pure true).run t = .ok true (t.putAll [⟨.copied, s.line.text⟩]) := by
    rw [EStateM.run_bind, emitLine, EStateM.run_bind, EStateM.run_get]
    simp only []
    rw [run_emit_open _ _ opened, line]
    rfl
  unfold openFlatType
  rw [EStateM.run_bind, EStateM.run_get]
  simp only [typedef, enum, noEnd, ne_eq, not_true_eq_false, decide_false, Bool.or_self,
    Bool.false_eq_true, if_false, if_true]
  rw [EStateM.run_bind, modifyMode, EStateM.run_modify, s.enterEnum_open _ opened]
  simp only []
  rw [EStateM.run_bind, EStateM.run_get]
  simp only [opened, if_true]
  rw [EStateM.run_bind, run_takeEnumComments]
  exact copied _ rfl opened

/-- The stage for enums or the one for flat types claims the line. -/
theorem exists_run_trackTypes (opened : s.mode.classState.isOpen = true)
    (h : s.line.OpensEnum s.mode.classState.name? own) :
    ∃ t, trackTypes.run s = .ok true t ∧ s.Gathered t own := by
  have claimed {d : TypeDeclaration} {t : State}
      (opener : TypeDeclaration.ofWords? "enum".toList s.line.words = some d)
      (run : openEnum.run s = .ok true t) : trackTypes.run s = .ok true t := by
    obtain ⟨rest, words⟩ := TypeDeclaration.words_of_ofWords? opener
    rw [run_trackTypes_enum words]
    exact run_firstClaim_claimed _ run
  cases h with
  | @body d opener notForward notWhole =>
    exact ⟨_, claimed opener (run_openEnum_open opener notForward notWhole opened),
      s.gathered_enterEnum ⟨d.name, false⟩ opened _⟩
  | @whole d e opener brace line =>
    exact ⟨_, claimed opener (run_openEnum_whole opener brace line opened),
      s.gathered_enumLineState d.name e opened⟩
  | flat opener =>
    refine ⟨_, ?_, s.gathered_enterEnum s.line.flatBody opened _⟩
    obtain ⟨rest, words⟩ := words_of_opensFlat opener
    rw [run_trackTypes_typedef words]
    exact run_firstClaim_claimed _ (run_openFlatType_open opener opened)

/-- Opening an enum in a class moves the longest row of blank lines and comments at the end of the
members to the enums, puts the text of the enum behind them, leaves all other members, and writes
nothing. -/
theorem comments_stick_to_enum {edit : Option MacroEdit} {l : Line}
    (opened : s.mode.classState.isOpen = true)
    (seen : config.typesLine? s.mode raw = some (edit, l))
    (opens : l.OpensEnum s.mode.classState.name? own) :
    ∃ t kept remarks, (processLine config raw).run s = .ok () t ∧
      s.pendingMembers = kept ++ remarks ∧
      (∀ c ∈ remarks, c.text.IsRemark) ∧
      (∀ c, kept.getLast? = some c → ¬ c.text.IsRemark) ∧
      (∀ cs, cs <:+ s.pendingMembers → (∀ c ∈ cs, c.text.IsRemark) → cs <:+ remarks) ∧
      t.pendingEnums = s.pendingEnums ++ remarks ++ own ∧
      t.pendingMembers = kept ∧
      t.sink = s.sink := by
  obtain ⟨t, types, gathered⟩ :=
    exists_run_trackTypes (s := s.arrive config raw (.reached edit l)) opened opens
  refine ⟨t, s.membersProper, s.trailingComments, run_processLine_types seen types,
    s.membersProper_append.symm, ?_, ?_, ?_, gathered.enums, gathered.members, gathered.sink⟩
  · exact fun c mem => c.text.isBlankOrComment_iff.1 (State.isBlankOrComment_of_mem_trailing mem)
  · exact fun c last => State.not_isRemark_of_getLast?_membersProper last
  · exact fun cs suffix remarks => State.suffix_trailingComments suffix remarks

theorem comments_stick_to_enum_behind_member :
    let s := runLines {} ["class A \x7b\n".toList, "friend\n".toList, "\t// kinds\n".toList] {}
    ∃ t, (processLine {} "    enum Kind \x7b\n".toList).run s = .ok () t ∧
      t.pendingEnums = ⟨.copied, "\t// kinds\n".toList⟩ ::
        openerChunks "enum".toList ⟨"Kind".toList, .sameLine⟩ ∧
      t.pendingMembers = [⟨.copied, "friend\n".toList⟩] := by
  intro s
  have pending : s.pendingEnums = [] ∧ s.pendingMembers =
      [⟨.copied, "friend\n".toList⟩, ⟨.copied, "\t// kinds\n".toList⟩] := by decide +kernel
  have seen : Config.typesLine? {} s.mode "    enum Kind \x7b\n".toList =
      some (none, .cut "enum Kind \x7b\n".toList) := by decide +kernel
  obtain ⟨t, kept, remarks, run, parts, all, last, -, enums, members, -⟩ :=
    comments_stick_to_enum (by decide +kernel) seen
      (.body (d := ⟨"Kind".toList, .sameLine⟩) (by decide) (by decide) fun _ => by decide)
  rw [pending.2] at parts
  rw [pending.1] at enums
  refine ⟨t, run, ?_⟩
  -- The member is no comment and the comment is one, so there is just one way to part them.
  rcases kept with _ | ⟨c, kept⟩
  · have member := all ⟨.copied, "friend\n".toList⟩ (by rw [← List.nil_append remarks, ← parts]; simp)
    exact absurd member (by decide)
  obtain ⟨rfl, others⟩ := List.cons.inj parts
  rcases kept with _ | ⟨c, kept⟩
  · obtain rfl : [⟨.copied, "\t// kinds\n".toList⟩] = remarks := others
    exact ⟨enums, members⟩
  · obtain ⟨rfl, none⟩ := List.cons.inj others
    obtain ⟨rfl, -⟩ := List.append_eq_nil_iff.1 none.symm
    exact absurd (by decide) (last _ rfl)

end Conversion

end HeaderFlattening
