import HeaderFlattening.Proofs.Kept

/-!
Headers that are flat already. Such a header is a sequence of remarks, forward declarations, blocks in
the flat form, and loose lines between them that no stage has a use for; converting it gives it back
and reports nothing but the values of its enums.
-/

set_option autoImplicit false
namespace HeaderFlattening

/-- A declaration of an enum or a struct without a body. -/
def Line.isForward (l : Line) : Bool :=
  ["enum".toList, "struct".toList].any fun keyword =>
    (TypeDeclaration.ofWords? keyword l.words).any (·.brace = .forward)

/-- The kinds of blocks in a flat header. -/
inductive FlatKind where
  | enum
  | struct
  deriving DecidableEq, Repr

namespace FlatKind

def keyword : FlatKind → Text
  | enum => "enum".toList
  | struct => "struct".toList

/-- The mode in such a block and in no other. -/
def inside (body : TypeBody) : FlatKind → Mode
  | enum => { enumBody := some body }
  | struct => { structBody := some body }

end FlatKind

/-- A line between the blocks: it starts nothing, it ends nothing, and the words that are read for
functions hold no parenthesis. -/
structure Line.IsLoose (config : Config) (l : Line) : Prop where
  plain : l.Plain config {}
  notInline : l.word? 0 ≠ some "inline".toList
  noParen : ['('] ∉ l.read
  noConstant : l.text.hasConstant = false

/-- A line of a block. It may hold parentheses. -/
structure Line.IsPart (config : Config) (kind : FlatKind) (body : TypeBody) (l : Line) : Prop where
  plain : l.Plain config (kind.inside body)
  noConstant : l.text.hasConstant = false
  noMethod : kind = .struct → l.text.hasMethod = false

instance (config : Config) (l : Line) : Decidable (l.IsLoose config) :=
  decidable_of_iff
    (l.Plain config {} ∧ l.word? 0 ≠ some "inline".toList ∧ l.read.contains ['('] = false ∧
      l.text.hasConstant = false) <| by
    rw [← Bool.not_eq_true, List.contains_iff_mem]
    exact ⟨fun ⟨a, b, c, d⟩ => ⟨a, b, c, d⟩, fun ⟨a, b, c, d⟩ => ⟨a, b, c, d⟩⟩

instance (config : Config) (kind : FlatKind) (body : TypeBody) (l : Line) :
    Decidable (l.IsPart config kind body) :=
  decidable_of_iff
    (l.Plain config (kind.inside body) ∧ l.text.hasConstant = false ∧
      (kind = .struct → l.text.hasMethod = false))
    ⟨fun ⟨a, b, c⟩ => ⟨a, b, c⟩, fun ⟨a, b, c⟩ => ⟨a, b, c⟩⟩

/-- A part of a flat header. -/
inductive FlatItem where
  /-- A blank line or a `//` line. -/
  | remark (raw : Text)
  | forward (raw : Text)
  | loose (raw : Text)
  /-- The opening line of an enum or struct, the lines behind it and the closing line. -/
  | block (kind : FlatKind) (opener : Text) (body : List Text) (closer : Text)

namespace FlatItem

def lines : FlatItem → List Text
  | remark raw | forward raw | loose raw => [raw]
  | block _ opener body closer => opener :: (body ++ [closer])

/-- The lines have the form that the item stands for. -/
def Valid (config : Config) : FlatItem → Prop
  | remark raw => (Line.cut raw).Passed
  | forward raw => (Line.cut raw).isForward = true
  | loose raw => (Line.cut raw).IsLoose config
  | block kind opener body closer =>
    (Line.cut opener).opensFlat kind.keyword = true ∧
      (∀ line ∈ body, (Line.cut line).Passed ∨
        (Line.cut line).IsPart config kind (Line.cut opener).flatBody) ∧
      (Line.cut closer).isTypeCloser = true

instance (config : Config) : (item : FlatItem) → Decidable (item.Valid config)
  | remark _ => inferInstanceAs (Decidable (Line.Passed _))
  | forward _ => inferInstanceAs (Decidable (_ = true))
  | loose _ => inferInstanceAs (Decidable (Line.IsLoose _ _))
  | block .. => inferInstanceAs (Decidable (_ ∧ _))

/-- The enum values of the item: the identifiers that the lines of an enum start with. -/
def values : FlatItem → List Text
  | block .enum _ body _ => body.flatMap fun line => (Line.cut line).value?.toList
  | _ => []

end FlatItem

theorem Line.value?_of_passed {raw : Text} (h : (Line.cut raw).Passed) :
    (Line.cut raw).value? = none := by
  unfold Line.value?
  cases tokens : (Token.scan raw).1 with
  | nil =>
    rw [word?, words, cut, tokens]
    rfl
  | cons first ts =>
    obtain ⟨after, eq⟩ := slashes_of_passed h tokens
    have slash : Text.isNameChar '/' = false := by decide
    have other : Text.isIdentifier first.text = false := by
      rw [eq, Text.isIdentifier, List.all_cons, slash, Bool.false_and, Bool.and_false]
    rw [word?, words_cut_cons tokens, List.getElem?_cons_zero, Option.filter_some,
      if_neg (ne_true_of_eq_false other)]

namespace Conversion

variable {config : Config} {raw : Text} {p : Place}

theorem kept_forward (outside : p.mode.inComment = false) (forward : (Line.cut raw).isForward = true) :
    Kept config raw p p [] := by
  unfold Line.isForward at forward
  obtain ⟨keyword, known, declares⟩ := List.any_eq_true.1 forward
  obtain ⟨d, opener, brace⟩ := (Option.any_eq_true _ _).1 declares
  refine .type outside (.forward ?_ opener (of_decide_eq_true brace))
  simpa using known

theorem kept_loose (loose : (Line.cut raw).IsLoose config) (mode : p.mode = {}) :
    ∃ q : Place, q.mode = {} ∧ Kept config raw p q [] := by
  have plain : (Line.cut raw).Plain config p.mode := mode ▸ loose.plain
  have quiet : (Line.cut raw).Quiet p.previous :=
    ⟨loose.notInline, Scan.opens_of_noParen loose.noParen⟩
  exact ⟨⟨p.mode, (Line.cut raw).read.getLast?.getD p.previous⟩, mode,
    .loose plain (by rw [mode]) (by rw [mode]) quiet loose.noConstant⟩

theorem kept_part {kind : FlatKind} {body : TypeBody} (mode : p.mode = kind.inside body)
    (line : (Line.cut raw).Passed ∨ (Line.cut raw).IsPart config kind body) :
    Kept config raw p p (if kind = .enum then (Line.cut raw).value?.toList else []) := by
  rcases line with passed | part
  · rw [Line.value?_of_passed passed, Option.toList_none, ite_self]
    exact .passed passed
  · have plain : (Line.cut raw).Plain config p.mode := mode ▸ part.plain
    cases kind with
    | enum =>
      refine .value plain (by rw [mode]; rfl) part.noConstant fun struct => ?_
      rw [mode] at struct
      cases struct
    | struct =>
      exact .field plain (by rw [mode]; rfl) (by rw [mode]; rfl) part.noConstant (part.noMethod rfl)

theorem keptLines_parts {kind : FlatKind} {body : TypeBody} (mode : p.mode = kind.inside body)
    (ls : List Text)
    (valid : ∀ line ∈ ls, (Line.cut line).Passed ∨ (Line.cut line).IsPart config kind body)
    (fits : ∀ line ∈ ls, config.Fits line) :
    KeptLines config ls p p
      (ls.flatMap fun line => if kind = .enum then (Line.cut line).value?.toList else []) := by
  induction ls with
  | nil => exact .nil p
  | cons raw ls ih =>
    have others := ih (fun line mem => valid line (List.mem_cons_of_mem raw mem))
      fun line mem => fits line (List.mem_cons_of_mem raw mem)
    exact .cons (kept_part mode (valid raw List.mem_cons_self)) (fits raw List.mem_cons_self) others

/-- A block is entered at its opening line and left at its closing line. -/
theorem keptLines_block {kind : FlatKind} {opener closer : Text} {body : List Text}
    (valid : (FlatItem.block kind opener body closer).Valid config)
    (fits : ∀ line ∈ (FlatItem.block kind opener body closer).lines, config.Fits line)
    (mode : p.mode = {}) :
    KeptLines config (FlatItem.block kind opener body closer).lines p p
      (FlatItem.block kind opener body closer).values := by
  obtain ⟨opens, parts, closes⟩ := valid
  let inner : Place := ⟨kind.inside (Line.cut opener).flatBody, p.previous⟩
  have back : p = ⟨{}, p.previous⟩ := by rw [← mode]
  have outside : p.mode.inComment = false := by rw [mode]
  have first : Kept config opener p inner [] := by
    rw [back]
    cases kind with
    | enum => exact .type rfl (.flatEnum opens)
    | struct => exact .type rfl (.flatStruct opens)
  have last : Kept config closer inner p [] := by
    rw [back]
    cases kind with
    | enum => exact .type rfl (.closeEnum closes rfl (.inl rfl))
    | struct => exact .type rfl (.closeStruct closes rfl rfl (.inl rfl))
  have middle := keptLines_parts (p := inner) rfl body parts
    fun line mem => fits line (List.mem_cons_of_mem opener (List.mem_append_left _ mem))
  have values : (FlatItem.block kind opener body closer).values =
      [] ++ ((body.flatMap fun line => if kind = .enum then (Line.cut line).value?.toList else [])
        ++ ([] ++ [])) := by
    rw [List.nil_append, List.append_nil, List.append_nil]
    cases kind with
    | enum => rfl
    | struct => exact (List.flatMap_eq_nil_iff.2 fun _ _ => rfl).symm
  rw [values]
  refine .cons first (fits opener List.mem_cons_self) (middle.append (.cons last ?_ (.nil p)))
  exact fits closer (List.mem_cons_of_mem opener (List.mem_append_right _ List.mem_cons_self))

theorem keptLines_item (item : FlatItem) (valid : item.Valid config)
    (fits : ∀ line ∈ item.lines, config.Fits line) (mode : p.mode = {}) :
    ∃ q : Place, q.mode = {} ∧ KeptLines config item.lines p q item.values := by
  cases item with
  | remark raw =>
    exact ⟨p, mode, .cons (.passed valid) (fits raw List.mem_cons_self) (.nil p)⟩
  | forward raw =>
    have outside : p.mode.inComment = false := by rw [mode]
    exact ⟨p, mode, .cons (kept_forward outside valid) (fits raw List.mem_cons_self) (.nil p)⟩
  | loose raw =>
    obtain ⟨q, after, kept⟩ := kept_loose valid mode
    exact ⟨q, after, .cons kept (fits raw List.mem_cons_self) (.nil q)⟩
  | block kind opener body closer => exact ⟨p, mode, keptLines_block valid fits mode⟩

theorem keptLines_items (items : List FlatItem) (valid : ∀ item ∈ items, item.Valid config)
    (fits : ∀ line ∈ items.flatMap FlatItem.lines, config.Fits line) (mode : p.mode = {}) :
    ∃ q : Place, q.mode = {} ∧
      KeptLines config (items.flatMap FlatItem.lines) p q (items.flatMap FlatItem.values) := by
  induction items generalizing p with
  | nil => exact ⟨p, mode, .nil p⟩
  | cons item items ih =>
    obtain ⟨q, after, first⟩ := keptLines_item item (valid item List.mem_cons_self)
      (fun line mem => fits line (List.mem_append_left _ mem)) mode
    obtain ⟨r, last, others⟩ := ih (fun other mem => valid other (List.mem_cons_of_mem item mem))
      (fun line mem => fits line (List.mem_append_right _ mem)) after
    exact ⟨r, last, first.append others⟩

/-- A flat header is left as it is, whatever the settings, and nothing is open behind it. -/
theorem flat_header_unchanged (config : Config) (items : List FlatItem) (t : Text)
    (lines : t.lines = items.flatMap FlatItem.lines) (valid : ∀ item ∈ items, item.Valid config)
    (fits : ∀ line ∈ t.lines, config.Fits line) :
    convertText config t = .ok ⟨t, {
      lines := t.lines.length
      enumValues := (NameList.insertAll {} (items.flatMap FlatItem.values)).toList
      functions := []
      classes := []
      diagnostics := [] }⟩ ∧
    (runLines config t.lines {}).mode = {} := by
  obtain ⟨q, mode, kept⟩ := keptLines_items (p := {}) items valid
    (fun line mem => fits line (lines ▸ mem)) rfl
  rw [← lines] at kept
  obtain ⟨converts, place⟩ := convertText_of_kept kept
  exact ⟨converts, (congrArg Place.mode place).trans mode⟩

/-- A header with one item of each kind and one block of each kind. -/
def flatItems : List FlatItem := [
  .remark "// units\n".toList,
  .loose "#include <windows.h>\n".toList,
  .loose "typedef float REAL;\n".toList,
  .loose "#define AREA(w, h) ((w) * (h))\n".toList,
  .remark "\n".toList,
  .forward "struct Pen;\n".toList,
  .block .enum "typedef enum _Unit\n".toList
    ["\x7b\n".toList, "  // values\n".toList, "  UnitWorld = BASE(0),\n".toList, "  UnitPixel\n".toList]
    "\x7d Unit;\n".toList,
  .block .struct "typedef struct _Size \x7b\n".toList
    ["  REAL (*GetArea)(struct _Size *size);\n".toList, "  REAL w;\n".toList] "\x7d Size;".toList]

theorem flatItems_unchanged :
    let t : Text := (flatItems.flatMap FlatItem.lines).flatten
    t.lines = flatItems.flatMap FlatItem.lines ∧ (∀ item ∈ flatItems, item.Valid {}) ∧
    (∀ line ∈ t.lines, ({} : Config).Fits line) ∧
    convertText {} t =
      .ok ⟨t, ⟨16, ["UnitWorld".toList, "UnitPixel".toList], [], [], []⟩⟩ := by
  intro t
  have lines : t.lines = flatItems.flatMap FlatItem.lines := by decide +kernel
  have valid : ∀ item ∈ flatItems, item.Valid {} := by decide +kernel
  have fits : ∀ line ∈ t.lines, ({} : Config).Fits line := by decide +kernel
  have same := (flat_header_unchanged {} flatItems t lines valid fits).1
  have count : t.lines.length = 16 := by
    rw [lines]
    decide
  have values : (NameList.insertAll {} (flatItems.flatMap FlatItem.values)).toList =
      ["UnitWorld".toList, "UnitPixel".toList] := by decide +kernel
  rw [count, values] at same
  exact ⟨lines, valid, fits, same⟩

end Conversion
end HeaderFlattening
