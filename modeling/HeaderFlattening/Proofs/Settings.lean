import HeaderFlattening.Proofs.Magnitude
import HeaderFlattening.Proofs.Statements

/-!
Settings that are written are read back. The text is a document of one section for the folders, one for
the rules and one for each edit, and such a document is read as the tables that it was written from.
Settings that were read fit the integers of a document, so they can be written at all.
-/

set_option autoImplicit false
namespace HeaderFlattening

open Toml

namespace Toml

/-! Tables -/

variable {es more front : Entries} {key : Text} {items : List Value}

/-- No key stands twice. -/
def Entries.Distinct (es : Entries) : Prop := (es.map Prod.fst).Nodup

/-- The assignments that fill a table. -/
def Entries.body (es : Entries) : List Assignment := es.map fun e => ⟨[e.1], e.2⟩

/-- The section that holds a table under a name. -/
def Entries.section (es : Entries) (repeated : Bool) (key : Text) : Section := ⟨repeated, [key], es.body⟩

theorem Entries.lookup_eq_none (h : key ∉ es.map Prod.fst) : es.lookup key = none := by
  rw [List.lookup_eq_none_iff]
  rintro ⟨k, v⟩ mem
  rw [bne_iff_ne]
  rintro rfl
  exact h (List.mem_map.2 ⟨(key, v), mem, rfl⟩)

/-- The assignments of a table fill it again, behind what is there. -/
theorem Entries.assignAll_body (h : Entries.Distinct (es ++ more)) :
    Entries.assignAll es more.body = some (es ++ more) := by
  induction more generalizing es with
  | nil => rw [List.append_nil]; rfl
  | cons e more ih =>
    have new : e.1 ∉ es.map Prod.fst := by
      unfold Entries.Distinct at h
      rw [List.map_append, List.nodup_append] at h
      exact fun mem => h.2.2 _ mem _ List.mem_cons_self rfl
    have first : Entries.assign e.2 [e.1] es = some (es ++ [e]) := by
      rw [Entries.assign, Entries.lookup_eq_none new]
      rfl
    have others := @ih (es ++ [e]) (by rwa [List.append_assoc])
    rw [List.append_assoc] at others
    change (Entries.assign e.2 [e.1] es).bind (fun es => Entries.assignAll es (Entries.body more)) = _
    rw [first]
    exact others

theorem Entries.put_new (h : es.lookup key = none) (v : Value) : es.put key v = es ++ [(key, v)] := by
  unfold Entries.put
  rw [h]
  rfl

theorem Entries.lookup_last (h : front.lookup key = none) (v : Value) :
    List.lookup key (front ++ [(key, v)]) = some v := by
  rw [List.lookup_append, h, Option.none_or, List.lookup_cons, beq_self_eq_true]

theorem Entries.put_last (h : front.lookup key = none) (old v : Value) :
    Entries.put (front ++ [(key, old)]) key v = front ++ [(key, v)] := by
  have others : front.map (fun e => if e.1 = key then (key, v) else e) = front := by
    refine (List.map_congr_left fun e mem => if_neg fun eq => ?_).trans front.map_id
    exact absurd (List.lookup_eq_none_iff.1 h e mem) (by simp [eq])
  unfold Entries.put
  rw [Entries.lookup_last h, List.map_append, others]
  simp

theorem Entries.put_assignAll_body (h : more.Distinct) (made : Entries → Value) :
    ((Entries.assignAll [] more.body).bind fun sub => some (es.put key (made sub))) =
      some (es.put key (made more)) := by
  have filled : Entries.assignAll [] more.body = some more := Entries.assignAll_body h
  rw [filled]
  rfl

/-- A header with a new name adds a table. -/
theorem Entries.addSection_table (new : es.lookup key = none) (h : more.Distinct) :
    Entries.addSection false more.body key es = some (es ++ [(key, .table .header more)]) := by
  unfold Entries.addSection
  rw [new]
  exact (Entries.put_assignAll_body h _).trans (congrArg some (Entries.put_new new _))

/-- A repeated header with a new name adds a list of tables. -/
theorem Entries.addSection_first (new : es.lookup key = none) (h : more.Distinct) :
    Entries.addSection true more.body key es = some (es ++ [(key, .tables [.table .header more])]) := by
  unfold Entries.addSection
  rw [new]
  exact (Entries.put_assignAll_body h fun sub => .tables ([] ++ [.table .header sub])).trans
    (congrArg some (Entries.put_new new _))

/-- A repeated header with the name of a list adds a table to the list. -/
theorem Entries.addSection_again (new : front.lookup key = none) (h : more.Distinct) :
    Entries.addSection true more.body key (front ++ [(key, .tables items)]) =
      some (front ++ [(key, .tables (items ++ [.table .header more]))]) := by
  unfold Entries.addSection
  rw [Entries.lookup_last new]
  exact (Entries.put_assignAll_body h fun sub => .tables (items ++ [.table .header sub])).trans
    (congrArg some (Entries.put_last new _ _))

theorem Entries.ofSections_eq {body : List Assignment} (found : Entries.assignAll [] body = some es)
    (sections : List Section) : Entries.ofSections body sections = es.placeAll sections := by
  unfold Entries.ofSections
  rw [found]
  rfl

theorem Entries.placeAll_section {repeated : Bool} {before after : Entries}
    (found : Entries.addSection repeated es.body key before = some after) (sections : List Section) :
    before.placeAll (es.section repeated key :: sections) = after.placeAll sections := by
  rw [Entries.placeAll]
  change (Entries.addSection repeated es.body key before).bind _ = _
  rw [found]
  rfl

theorem Entries.placeAll_again (new : front.lookup key = none) (tables : List Entries)
    (h : ∀ t ∈ tables, t.Distinct) (items : List Value) :
    Entries.placeAll (front ++ [(key, .tables items)]) (tables.map fun t => t.section true key) =
      some (front ++ [(key, .tables (items ++ tables.map (.table .header)))]) := by
  induction tables generalizing items with
  | nil => rw [List.map_nil, List.map_nil, List.append_nil]; rfl
  | cons t tables ih =>
    have others := ih (fun t mem => h t (List.mem_cons_of_mem _ mem)) (items ++ [.table .header t])
    rw [List.append_assoc] at others
    rw [List.map_cons, Entries.placeAll_section (Entries.addSection_again new (h t List.mem_cons_self))]
    exact others

/-! Choices -/

/-- The name of a choice is read back as the choice. -/
theorem choice?_nameOf {α : Type} [DecidableEq α] {names : List (Text × α)} {a : α}
    (distinct : (names.map Prod.fst).Nodup) (named : a ∈ names.map Prod.snd) :
    choice? names (.string (Config.nameOf names a)) = some a := by
  obtain ⟨e, mem, rfl⟩ := List.mem_map.1 named
  have some' : (names.find? (·.2 = e.2)).isSome = true :=
    List.find?_isSome.2 ⟨e, mem, decide_eq_true rfl⟩
  obtain ⟨⟨k, b⟩, found⟩ := Option.isSome_iff_exists.1 some'
  obtain ⟨same, front, back, rfl, -⟩ := List.find?_eq_some_iff_append.1 found
  have apart : ∀ p ∈ front, (k != p.1) = true := by
    rw [List.map_append, List.nodup_append] at distinct
    intro p before
    exact bne_iff_ne.2 (distinct.2.2 _ (List.mem_map_of_mem before) _ List.mem_cons_self).symm
  obtain rfl := of_decide_eq_true same
  unfold choice? Config.nameOf
  rw [found]
  exact List.lookup_eq_some_iff.2 ⟨front, back, rfl, apart⟩

end Toml

/-! The tables of settings -/

def Folders.entries (f : Folders) : Entries :=
  [("input_dir".toList, .string f.input), ("output_dir".toList, .string f.output)]

def Rules.entries (r : Rules) : Entries :=
  [("unindent_width".toList, .integer r.unindentWidth), ("max_tokens".toList, .integer r.maxTokens),
    ("suppressed_declarations".toList, .string (Config.nameOf Suppression.names r.suppression)),
    ("token_overflow".toList, .string (Config.nameOf Overflow.names r.overflow)),
    ("virtual_method_template".toList, .string r.methodTemplate)]

def MacroEdit.entries (e : MacroEdit) : Entries :=
  [("macro".toList, .string e.name), ("search".toList, .string e.search),
    ("replace".toList, .string e.replacement)]

theorem Folders.distinct_entries (f : Folders) : f.entries.Distinct :=
  (by decide +kernel : Folders.names.Nodup)

theorem Rules.distinct_entries (r : Rules) : r.entries.Distinct :=
  (by decide +kernel : Rules.names.Nodup)

theorem MacroEdit.distinct_entries (e : MacroEdit) : e.entries.Distinct :=
  (by decide +kernel : MacroEdit.names.Nodup)

theorem Folders.ofValue?_table (f : Folders) (origin : Toml.Origin) :
    ofValue? (.table origin f.entries) = some f := rfl

theorem Suppression.mem_names (s : Suppression) : s ∈ names.map Prod.snd := by
  cases s <;> decide

theorem Overflow.mem_names (o : Overflow) : o ∈ names.map Prod.snd := by
  cases o <;> decide

theorem Rules.ofValue?_table (r : Rules) (origin : Toml.Origin) :
    ofValue? (.table origin r.entries) = some r := by
  have suppression := choice?_nameOf (by decide +kernel) r.suppression.mem_names
  have overflow := choice?_nameOf (by decide +kernel) r.overflow.mem_names
  have fields : fields? names (.table origin r.entries) = some (r.entries.map fun e => some e.2) := rfl
  unfold ofValue?
  rw [fields]
  simp only [entries, List.map_cons, List.map_nil, Option.bind_eq_bind, Option.bind_some, fieldD,
    suppression, overflow]
  rfl

theorem MacroEdit.ofValue?_table (e : MacroEdit) (origin : Toml.Origin) :
    ofValue? (.table origin e.entries) = some e := rfl

/-- The numbers are integers that a document can hold. -/
structure Rules.Fit (r : Rules) : Prop where
  width : r.unindentWidth < integerBound
  tokens : r.maxTokens < integerBound

namespace Config

variable {c : Config} {t : Text}

/-- The sections of the document. -/
def sections (c : Config) : List Section :=
  c.folders.entries.section false "layout".toList :: c.rules.entries.section false "conversion".toList ::
    c.edits.map fun e => e.entries.section true "rewrite".toList

/-- The tables that every document has. -/
def tables (c : Config) : Entries :=
  [("layout".toList, .table .header c.folders.entries),
    ("conversion".toList, .table .header c.rules.entries)]

/-- The entries of the document. An empty list of edits stands before the sections. -/
def entries (c : Config) : Entries :=
  if c.edits.isEmpty then ("rewrite".toList, .array []) :: c.tables
  else c.tables ++ [("rewrite".toList, .tables (c.edits.map fun e => .table .header e.entries))]

/-! The text of settings -/

theorem tells_foldersToml (f : Folders) :
    Tells (foldersToml f) (f.entries.section false "layout".toList).statements := by
  have source : "[layout]\n".toList = headerLine false "layout".toList := by decide +kernel
  have header := (isLine_headerLine (k := "layout".toList) (by decide +kernel) false).tells
  have input := header.tomlLine (k := "input_dir".toList) (by decide +kernel) (denotes_writeString f.input)
  have output := input.tomlLine (k := "output_dir".toList) (by decide +kernel) (denotes_writeString f.output)
  unfold foldersToml
  rw [source]
  exact output

theorem tells_rulesToml {r : Rules} (fit : r.Fit) :
    Tells (rulesToml r) (r.entries.section false "conversion".toList).statements := by
  have source : "[conversion]\n".toList = headerLine false "conversion".toList := by decide +kernel
  have header := (isLine_headerLine (k := "conversion".toList) (by decide +kernel) false).tells
  have first := header.tomlLine (k := "unindent_width".toList) (by decide +kernel) (denotes_ofNat fit.width)
  have second := first.tomlLine (k := "max_tokens".toList) (by decide +kernel) (denotes_ofNat fit.tokens)
  have third := second.tomlLine (k := "suppressed_declarations".toList) (by decide +kernel)
    (denotes_writeString (nameOf Suppression.names r.suppression))
  have fourth := third.tomlLine (k := "token_overflow".toList) (by decide +kernel)
    (denotes_writeString (nameOf Overflow.names r.overflow))
  have last := fourth.tomlLine (k := "virtual_method_template".toList) (by decide +kernel)
    (denotes_writeString r.methodTemplate)
  unfold rulesToml
  rw [source]
  exact last

theorem tells_editToml (e : MacroEdit) :
    Tells (editToml e) (e.entries.section true "rewrite".toList).statements := by
  have source : "[[rewrite]]\n".toList = headerLine true "rewrite".toList := by decide +kernel
  have header := (isLine_headerLine (k := "rewrite".toList) (by decide +kernel) true).tells
  have name := header.tomlLine (k := "macro".toList) (by decide +kernel) (denotes_writeString e.name)
  have search := name.tomlLine (k := "search".toList) (by decide +kernel) (denotes_writeString e.search)
  have last := search.tomlLine (k := "replace".toList) (by decide +kernel)
    (denotes_writeString e.replacement)
  unfold editToml
  rw [source]
  exact last

/-- What is written is one section for the folders, one for the rules and one for each edit. -/
theorem tells_join_sections (fit : c.rules.Fit) :
    Tells (Text.join ['\n'] (foldersToml c.folders :: rulesToml c.rules :: c.edits.map editToml))
      (spaced c.sections) := by
  refine tells_join (.cons (tells_foldersToml c.folders) (.cons (tells_rulesToml fit) ?_))
  rw [List.forall₂_map_left_iff, List.forall₂_map_right_iff]
  exact List.forall₂_same.2 fun e _ => tells_editToml e

theorem tells_noEdits (c : Config) :
    Tells (if c.edits.isEmpty then "rewrite = []\n\n".toList else [])
      (if c.edits.isEmpty then [.assignment ⟨["rewrite".toList], .array []⟩, .blank] else []) := by
  split_ifs
  · have source : "rewrite = []\n\n".toList = tomlLine "rewrite".toList ['[', ']'] ++ ['\n'] := by
      decide +kernel
    rw [source]
    exact (isLine_tomlLine (k := "rewrite".toList) (by decide +kernel) denotes_brackets).tells.append
      isLine_blank.tells
  · exact tells_nil

/-! From sections to tables, and from tables to settings -/

/-- The first two sections of every document give its first two tables. -/
theorem placeAll_tables {es : Entries} (layout : "layout".toList ∉ es.map Prod.fst)
    (conversion : "conversion".toList ∉ es.map Prod.fst) (c : Config) (more : List Section) :
    es.placeAll (c.folders.entries.section false "layout".toList ::
      c.rules.entries.section false "conversion".toList :: more) =
      Entries.placeAll (es ++ c.tables) more := by
  have apart : "conversion".toList ∉
      (es ++ [("layout".toList, Value.table .header c.folders.entries)]).map Prod.fst := by
    rw [List.map_append, List.mem_append, not_or]
    exact ⟨conversion, (by decide +kernel : "conversion".toList ∉ ["layout".toList])⟩
  rw [Entries.placeAll_section (Entries.addSection_table (Entries.lookup_eq_none layout)
      c.folders.distinct_entries),
    Entries.placeAll_section (Entries.addSection_table (Entries.lookup_eq_none apart)
      c.rules.distinct_entries), List.append_assoc]
  rfl

theorem lookup_rewrite (c : Config) : List.lookup "rewrite".toList c.tables = none :=
  Entries.lookup_eq_none
    (by decide +kernel : "rewrite".toList ∉ ["layout".toList, "conversion".toList])

theorem ofSections_sections (c : Config) :
    Entries.ofSections (if c.edits.isEmpty then [⟨["rewrite".toList], .array []⟩] else []) c.sections =
      some c.entries := by
  unfold sections entries
  cases edits : c.edits with
  | nil =>
    -- The empty list is assigned in front of all headers.
    have start : Entries.assignAll [] [⟨["rewrite".toList], .array []⟩] =
        some [("rewrite".toList, .array [])] := rfl
    have layout : "layout".toList ∉ [("rewrite".toList, Value.array [])].map Prod.fst := by
      decide +kernel
    have conversion : "conversion".toList ∉ [("rewrite".toList, Value.array [])].map Prod.fst := by
      decide +kernel
    rw [if_pos List.isEmpty_nil, if_pos List.isEmpty_nil, List.map_nil, Entries.ofSections_eq start,
      placeAll_tables layout conversion]
    rfl
  | cons e more =>
    -- The first edit starts the list, and the others are added to it.
    have others := Entries.placeAll_again c.lookup_rewrite (more.map MacroEdit.entries)
      (fun t mem => by
        obtain ⟨e, -, rfl⟩ := List.mem_map.1 mem
        exact e.distinct_entries)
      [.table .header e.entries]
    rw [List.map_map, List.map_map] at others
    have filled : ¬(e :: more).isEmpty = true := Bool.false_ne_true
    rw [if_neg filled, if_neg filled, List.map_cons, Entries.ofSections_eq rfl,
      placeAll_tables List.not_mem_nil List.not_mem_nil, List.nil_append,
      Entries.placeAll_section (Entries.addSection_first c.lookup_rewrite e.distinct_entries)]
    exact others

theorem listOfValue?_map (edits : List MacroEdit) :
    MacroEdit.listOfValue? (.tables (edits.map fun e => .table .header e.entries)) = some edits := by
  unfold MacroEdit.listOfValue?
  dsimp only
  induction edits with
  | nil => rfl
  | cons e edits ih =>
    rw [List.map_cons, List.mapM_cons, MacroEdit.ofValue?_table, ih]
    rfl

theorem ofEntries?_eq {es : Entries} {v : Value}
    (layout : es.lookup "layout".toList = some (.table .header c.folders.entries))
    (conversion : es.lookup "conversion".toList = some (.table .header c.rules.entries))
    (rewrite : es.lookup "rewrite".toList = some v) (edits : MacroEdit.listOfValue? v = some c.edits) :
    ofEntries? es = some c := by
  unfold ofEntries?
  rw [layout, conversion, rewrite]
  simp only [fieldD, Folders.ofValue?_table, Rules.ofValue?_table, edits]
  rfl

theorem ofEntries?_entries (c : Config) : ofEntries? c.entries = some c := by
  unfold entries
  split_ifs with empty
  · refine ofEntries?_eq (v := .array []) rfl rfl rfl ?_
    rw [List.isEmpty_iff.1 empty]
    rfl
  · exact ofEntries?_eq rfl rfl (Entries.lookup_last c.lookup_rewrite _) (listOfValue?_map c.edits)

/-! Settings that are written -/

theorem toToml_eq (fit : c.rules.Fit) :
    c.toToml = .ok ((if c.edits.isEmpty then "rewrite = []\n\n".toList else [])
      ++ Text.join "\n".toList (foldersToml c.folders :: rulesToml c.rules :: c.edits.map editToml)) := by
  unfold toToml
  rw [if_neg]
  rintro (large | large)
  · exact Nat.not_le_of_lt fit.width large
  · exact Nat.not_le_of_lt fit.tokens large

theorem ofToml_eq_ok {es : Entries} (parsed : parse? t = some es) (decoded : ofEntries? es = some c)
    (valid : c.invalid? = none) : ofToml t = .ok c := by
  unfold ofToml
  rw [parsed, Option.bind_some, decoded]
  dsimp only
  rw [valid]

theorem parse?_text (fit : c.rules.Fit) :
    parse? ((if c.edits.isEmpty then "rewrite = []\n\n".toList else [])
      ++ Text.join "\n".toList (foldersToml c.folders :: rulesToml c.rules :: c.edits.map editToml)) =
      some c.entries := by
  have told := (tells_noEdits c).append (tells_join_sections fit)
  refine (parse?_of_tells told ?_).trans ?_
  · split_ifs
    · exact fun eq => absurd (Option.some.inj eq) (by decide)
    · exact fun eq => absurd (Option.some.inj eq) (by decide)
  · rw [← ofSections_sections c]
    split_ifs
    · rw [List.cons_append, List.cons_append, List.nil_append, Toml.sections, Toml.sections,
        sections_spaced]
    · rw [List.nil_append, sections_spaced]

/-- Settings that are accepted and fit the integers of a document are written, and read back. -/
theorem exists_toToml (valid : c.invalid? = none) (fit : c.rules.Fit) :
    ∃ u, c.toToml = .ok u ∧ ofToml u = .ok c :=
  ⟨_, toToml_eq fit, ofToml_eq_ok (parse?_text fit) (ofEntries?_entries c) valid⟩

/-! Settings that were read -/

theorem exists_of_ofToml (h : ofToml t = .ok c) :
    ∃ es, parse? t = some es ∧ ofEntries? es = some c ∧ c.invalid? = none := by
  unfold ofToml at h
  split at h
  · cases h
  · rename_i d read
    split at h
    · cases h
    · rename_i valid
      obtain rfl := Except.ok.inj h
      obtain ⟨es, parsed, decoded⟩ := Option.bind_eq_some_iff.1 read
      exact ⟨es, parsed, decoded, valid⟩

theorem unindentWidth_le (valid : c.invalid? = none) : c.rules.unindentWidth ≤ maxUnindentWidth := by
  unfold invalid? at valid
  split_ifs at valid with wide
  · exact Nat.le_of_not_lt wide

/-- The fields of a record have the values that the document gives them. -/
theorem bounded_fields? {names : List Text} {v : Value} {fields : List (Option Value)} (h : v.Bounded)
    (found : fields? names v = some fields) : ∀ w, some w ∈ fields → w.Bounded := by
  intro w mem
  unfold fields? at found
  split at found
  · obtain rfl := Option.some.inj found
    obtain ⟨name, -, read⟩ := List.mem_map.1 mem
    exact (Entries.bounded_of_table h).lookup read
  · rename_i items
    obtain rfl := Option.some.inj found
    obtain ⟨i, -, read⟩ := List.mem_mapIdx.1 mem
    cases h with
    | array all => exact all w (List.mem_of_getElem? read)
  · rename_i items
    obtain rfl := Option.some.inj found
    obtain ⟨i, -, read⟩ := List.mem_mapIdx.1 mem
    cases h with
    | tables all => exact all w (List.mem_of_getElem? read)
  · obtain rfl := Option.some.inj found
    obtain ⟨name, -, read⟩ := List.mem_map.1 mem
    cases read
  · cases found

theorem lt_of_nat? {v : Value} {n : Nat} (h : v.Bounded) (read : nat? v = some n) : n < integerBound := by
  unfold nat? at read
  split at read
  · obtain rfl := Option.some.inj read
    cases h with
    | integer low high => exact Int.ofNat_lt.1 high
  · cases read

theorem maxTokens_lt_of_value {v : Value} {r : Rules} (h : v.Bounded) (decoded : Rules.ofValue? v = some r) :
    r.maxTokens < integerBound := by
  obtain ⟨fields, given, decoded⟩ := Option.bind_eq_some_iff.1 decoded
  split at decoded
  · rename_i width tokens suppression overflow template
    obtain ⟨w, -, decoded⟩ := Option.bind_eq_some_iff.1 decoded
    obtain ⟨m, read, decoded⟩ := Option.bind_eq_some_iff.1 decoded
    obtain ⟨s, -, decoded⟩ := Option.bind_eq_some_iff.1 decoded
    obtain ⟨o, -, decoded⟩ := Option.bind_eq_some_iff.1 decoded
    obtain ⟨t, -, decoded⟩ := Option.bind_eq_some_iff.1 decoded
    obtain rfl := Option.some.inj decoded
    cases tokens with
    | none =>
      obtain rfl := Option.some.inj read
      exact (by decide : 1023 < integerBound)
    | some v => exact lt_of_nat? (bounded_fields? h given v (by simp)) read
  · cases decoded

theorem maxTokens_lt {es : Entries} (h : es.Bounded) (decoded : ofEntries? es = some c) :
    c.rules.maxTokens < integerBound := by
  obtain ⟨folders, -, decoded⟩ := Option.bind_eq_some_iff.1 decoded
  obtain ⟨rules, read, decoded⟩ := Option.bind_eq_some_iff.1 decoded
  obtain ⟨edits, -, decoded⟩ := Option.bind_eq_some_iff.1 decoded
  obtain rfl := Option.some.inj decoded
  cases known : es.lookup "conversion".toList with
  | none =>
    rw [known] at read
    obtain rfl := Option.some.inj read
    exact (by decide : 1023 < integerBound)
  | some v =>
    rw [known] at read
    exact maxTokens_lt_of_value (h.lookup known) read

/-- Settings can be read from some document just if they are accepted and fit. -/
theorem exists_ofToml_iff : (∃ t, ofToml t = .ok c) ↔ c.invalid? = none ∧ c.rules.Fit := by
  constructor
  · rintro ⟨t, h⟩
    obtain ⟨es, parsed, decoded, valid⟩ := exists_of_ofToml h
    have width : maxUnindentWidth < integerBound := by decide
    exact ⟨valid, Nat.lt_of_le_of_lt (unindentWidth_le valid) width,
      maxTokens_lt (bounded_parse? parsed) decoded⟩
  · rintro ⟨valid, fit⟩
    obtain ⟨u, -, read⟩ := exists_toToml valid fit
    exact ⟨u, read⟩

/-- Settings that were read are written, and read back as they were. -/
theorem ofToml_toToml (h : ofToml t = .ok c) : ∃ u, c.toToml = .ok u ∧ ofToml u = .ok c := by
  obtain ⟨valid, fit⟩ := exists_ofToml_iff.1 ⟨t, h⟩
  exact exists_toToml valid fit

/-- Quotes, a backslash, a line end, a null character and a letter with an accent, and no edits. -/
def escapedText : Text :=
  "rewrite = []\n[layout]\ninput_dir = \"a\\\"\\\"\\\"\x27\x27\x27\\\\\\n\\u0000é\"\n".toList

def escapedSettings : Config where
  folders := { input := "a\"\"\"\x27\x27\x27\\\n\x00é".toList }
  edits := []

theorem escapedSettings_ofToml_toToml : ofToml escapedText = .ok escapedSettings ∧
    ∃ u, escapedSettings.toToml = .ok u ∧ ofToml u = .ok escapedSettings := by
  have read : ofToml escapedText = .ok escapedSettings := by decide +kernel
  exact ⟨read, ofToml_toToml read⟩

end Config
end HeaderFlattening
