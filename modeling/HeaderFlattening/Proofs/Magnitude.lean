import HeaderFlattening.Toml.Document
import Mathlib.Tactic.SplitIfs

/-!
The integers of a document have 64 bits. A reader of values gives only such integers, and growing a
table out of dotted keys and headers moves values about without changing them.
-/

set_option autoImplicit false
namespace HeaderFlattening.Toml

/-- All integers in the value have 64 bits. -/
inductive Value.Bounded : Value → Prop
  | string (text : Text) : Bounded (.string text)
  | integer {n : Int} (low : -integerBound ≤ n) (high : n < integerBound) : Bounded (.integer n)
  | float (source : Text) : Bounded (.float source)
  | boolean (b : Bool) : Bounded (.boolean b)
  | moment (source : Text) : Bounded (.moment source)
  | array {items : List Value} (all : ∀ v ∈ items, Bounded v) : Bounded (.array items)
  | table {origin : Origin} {entries : List (Text × Value)} (all : ∀ e ∈ entries, Bounded e.2) :
      Bounded (.table origin entries)
  | tables {items : List Value} (all : ∀ v ∈ items, Bounded v) : Bounded (.tables items)

namespace Reader

variable {α : Type} {P : α → Prop} {p q : Reader α}

/-- All that the reader gives has this property. -/
def Yields (P : α → Prop) (p : Reader α) : Prop := ∀ s a rest, p s = some (a, rest) → P a

theorem Yields.many (h : Yields P p) (s : Text) : ∀ a ∈ (Reader.many p s).1, P a := by
  fun_induction Reader.many p s with
  | case1 | case3 => exact fun a mem => absurd mem List.not_mem_nil
  | case2 s a rest found shorter after ih =>
    intro b mem
    rcases List.mem_cons.1 mem with rfl | mem
    · exact h s b rest found
    · exact ih b mem

theorem Yields.orElse (h : Yields P p) (k : Yields P q) : Yields P (Reader.orElse p q) := by
  intro s a rest found
  unfold Reader.orElse at found
  split at found
  · rename_i r read
    exact h s a rest (read.trans found)
  · exact k s a rest found

theorem Yields.separated (h : Yields P p) (separator : Char) :
    Yields (fun as => ∀ a ∈ as, P a) (Reader.separated separator p) := by
  intro s as rest found
  obtain ⟨⟨a, t⟩, first, found⟩ := Option.bind_eq_some_iff.1 found
  obtain ⟨rfl, -⟩ := Prod.mk.inj (Option.some.inj found)
  intro b mem
  rcases List.mem_cons.1 mem with rfl | mem
  · exact h s b t first
  · refine Yields.many (p := fun s => do p (← Reader.char separator s).2) (fun s a rest found => ?_) t
      b mem
    obtain ⟨r, -, found⟩ := Option.bind_eq_some_iff.1 found
    exact h r.2 a rest found

end Reader

namespace Entries

def Bounded (es : Entries) : Prop := ∀ e ∈ es, e.2.Bounded

variable {es es' sub : Entries} {key : Text} {path : List Text} {v : Value} {items : List Value}
  {body : List Assignment}

theorem bounded_nil : Bounded [] := fun _ mem => absurd mem List.not_mem_nil

theorem Bounded.lookup (h : es.Bounded) (found : es.lookup key = some v) : v.Bounded := by
  induction es with
  | nil => cases found
  | cons e es ih =>
    rw [List.lookup_cons] at found
    split at found
    · obtain rfl := Option.some.inj found
      exact h e List.mem_cons_self
    · exact ih (fun e mem => h e (List.mem_cons_of_mem _ mem)) found

theorem Bounded.add (h : es.Bounded) (k : v.Bounded) (key : Text) : Bounded (es ++ [(key, v)]) := by
  intro e mem
  rcases List.mem_append.1 mem with mem | mem
  · exact h e mem
  · rw [List.mem_singleton.1 mem]
    exact k

theorem Bounded.put (h : es.Bounded) (k : v.Bounded) (key : Text) : Bounded (es.put key v) := by
  unfold Entries.put
  split_ifs
  · intro e mem
    obtain ⟨f, old, rfl⟩ := List.mem_map.1 mem
    split_ifs
    · exact k
    · exact h f old
  · exact h.add k key

theorem bounded_of_table {origin : Origin} (h : (Value.table origin es).Bounded) : es.Bounded := by
  cases h with
  | table all => exact all

theorem bounded_of_tables (h : (Value.tables items).Bounded) : ∀ v ∈ items, v.Bounded := by
  cases h with
  | tables all => exact all

theorem bounded_modifyLast {f : Entries → Option Entries} {items' : List Value}
    (h : ∀ v ∈ items, v.Bounded) (step : ∀ es es', es.Bounded → f es = some es' → es'.Bounded)
    (found : modifyLast? f items = some items') : ∀ v ∈ items', v.Bounded := by
  unfold modifyLast? at found
  split at found
  · rename_i origin sub last
    obtain ⟨sub', changed, rfl⟩ := Option.map_eq_some_iff.1 found
    intro v mem
    rcases List.mem_append.1 mem with mem | mem
    · exact h v (List.dropLast_subset items mem)
    · rw [List.mem_singleton.1 mem]
      exact .table (step sub sub' (bounded_of_table (h _ (List.mem_of_getLast? last))) changed)
  · cases found

theorem Bounded.assign (h : es.Bounded) (k : v.Bounded) (found : assign v path es = some es') :
    es'.Bounded := by
  induction path generalizing es es' with
  | nil => cases found
  | cons key path ih =>
    cases path with
    | nil =>
      rw [Entries.assign] at found
      split_ifs at found
      obtain rfl := Option.some.inj found
      exact h.add k key
    | cons next rest =>
      rw [Entries.assign] at found
      cases known : es.lookup key with
      | none =>
        simp only [known] at found
        obtain ⟨sub, inner, rfl⟩ := Option.map_eq_some_iff.1 found
        exact h.add (.table (ih bounded_nil inner)) key
      | some w =>
        have old := h.lookup known
        simp only [known] at found
        split at found
        · rename_i eq
          cases eq
        · rename_i sub eq
          obtain rfl := Option.some.inj eq
          obtain ⟨sub', inner, rfl⟩ := Option.map_eq_some_iff.1 found
          exact h.put (.table (ih (bounded_of_table old) inner)) key
        · rename_i sub eq
          obtain rfl := Option.some.inj eq
          split_ifs at found
          obtain ⟨sub', inner, rfl⟩ := Option.map_eq_some_iff.1 found
          exact h.put (.table (ih (bounded_of_table old) inner)) key
        · rename_i items eq
          obtain rfl := Option.some.inj eq
          split_ifs at found
          obtain ⟨items', inner, rfl⟩ := Option.map_eq_some_iff.1 found
          exact h.put (.tables (bounded_modifyLast (bounded_of_tables old) (fun _ _ => ih) inner)) key
        · cases found

theorem Bounded.assignAll (h : es.Bounded) (k : ∀ a ∈ body, a.value.Bounded)
    (found : assignAll es body = some es') : es'.Bounded := by
  induction body generalizing es with
  | nil =>
    obtain rfl := Option.some.inj found
    exact h
  | cons a more ih =>
    obtain ⟨next, first, found⟩ := Option.bind_eq_some_iff.1 found
    exact ih (h.assign (k a List.mem_cons_self) first)
      (fun b mem => k b (List.mem_cons_of_mem a mem)) found

theorem Bounded.put_filled {base : Entries} {made : Entries → Value} (h : es.Bounded)
    (k : ∀ a ∈ body, a.value.Bounded) (old : base.Bounded)
    (bounded : ∀ sub : Entries, sub.Bounded → (made sub).Bounded)
    (found : ((Entries.assignAll base body).bind fun sub => some (es.put key (made sub))) = some es') :
    es'.Bounded := by
  obtain ⟨sub, filled, found⟩ := Option.bind_eq_some_iff.1 found
  obtain rfl := Option.some.inj found
  exact h.put (bounded sub (old.assignAll k filled)) key

theorem bounded_append_table (h : ∀ v ∈ items, v.Bounded) (k : sub.Bounded) :
    (Value.tables (items ++ [.table .header sub])).Bounded := by
  refine .tables fun v mem => ?_
  rcases List.mem_append.1 mem with mem | mem
  · exact h v mem
  · rw [List.mem_singleton.1 mem]
    exact .table k

theorem Bounded.addSection {repeated : Bool} (h : es.Bounded) (k : ∀ a ∈ body, a.value.Bounded)
    (found : addSection repeated body key es = some es') : es'.Bounded := by
  unfold Entries.addSection at found
  cases repeated with
  | true =>
    cases known : es.lookup key with
    | none =>
      simp only [known] at found
      refine h.put_filled k bounded_nil (fun sub => bounded_append_table ?_) found
      exact fun v mem => absurd mem List.not_mem_nil
    | some w =>
      have old := h.lookup known
      simp only [known] at found
      cases w with
      | tables items =>
        exact h.put_filled k bounded_nil (fun sub => bounded_append_table (bounded_of_tables old)) found
      | _ => cases found
  | false =>
    cases known : es.lookup key with
    | none =>
      simp only [known] at found
      exact h.put_filled k bounded_nil (fun sub => .table) found
    | some w =>
      have old := h.lookup known
      simp only [known] at found
      cases w with
      | table origin sub =>
        cases origin with
        | implied => exact h.put_filled k (bounded_of_table old) (fun sub => .table) found
        | _ => cases found
      | _ => cases found

theorem Bounded.place {repeated : Bool} (h : es.Bounded) (k : ∀ a ∈ body, a.value.Bounded)
    (found : place repeated body path es = some es') : es'.Bounded := by
  induction path generalizing es es' with
  | nil => cases found
  | cons key path ih =>
    cases path with
    | nil => exact h.addSection k found
    | cons next rest =>
      rw [Entries.place] at found
      cases known : es.lookup key with
      | none =>
        simp only [known] at found
        obtain ⟨sub, inner, rfl⟩ := Option.map_eq_some_iff.1 found
        exact h.add (.table (ih bounded_nil inner)) key
      | some w =>
        have old := h.lookup known
        simp only [known] at found
        split at found
        · rename_i eq
          cases eq
        · cases found
        · rename_i origin sub _ eq
          obtain rfl := Option.some.inj eq
          obtain ⟨sub', inner, rfl⟩ := Option.map_eq_some_iff.1 found
          exact h.put (.table (ih (bounded_of_table old) inner)) key
        · rename_i items eq
          obtain rfl := Option.some.inj eq
          obtain ⟨items', inner, rfl⟩ := Option.map_eq_some_iff.1 found
          exact h.put (.tables (bounded_modifyLast (bounded_of_tables old) (fun _ _ => ih) inner)) key
        · cases found

theorem Bounded.placeAll {sections : List Section} (h : es.Bounded)
    (k : ∀ s ∈ sections, ∀ a ∈ s.body, a.value.Bounded)
    (found : placeAll es sections = some es') : es'.Bounded := by
  induction sections generalizing es with
  | nil =>
    obtain rfl := Option.some.inj found
    exact h
  | cons s sections ih =>
    obtain ⟨next, placed, found⟩ := Option.bind_eq_some_iff.1 found
    exact ih (h.place (k s List.mem_cons_self) placed)
      (fun s mem => k s (List.mem_cons_of_mem _ mem)) found

theorem bounded_ofSections {sections : List Section} (k : ∀ a ∈ body, a.value.Bounded)
    (inner : ∀ s ∈ sections, ∀ a ∈ s.body, a.value.Bounded)
    (found : ofSections body sections = some es) : es.Bounded := by
  obtain ⟨root, filled, found⟩ := Option.bind_eq_some_iff.1 found
  exact (bounded_nil.assignAll k filled).placeAll inner found

end Entries

open Reader

variable {p : Reader Value}

theorem yields_assignment (h : Yields Value.Bounded p) :
    Yields (fun a => a.value.Bounded) (assignment p) := by
  intro s a rest found
  obtain ⟨⟨path, t⟩, -, found⟩ := Option.bind_eq_some_iff.1 found
  obtain ⟨⟨_, t⟩, -, found⟩ := Option.bind_eq_some_iff.1 found
  obtain ⟨⟨v, t⟩, read, found⟩ := Option.bind_eq_some_iff.1 found
  obtain ⟨rfl, -⟩ := Prod.mk.inj (Option.some.inj found)
  exact h _ v t read

theorem yields_arrayRest (h : Yields Value.Bounded p) : Yields Value.Bounded (arrayRest p) := by
  have item : Yields Value.Bounded fun s =>
      (p (skipGaps s)).bind fun r => some (r.1, skipGaps r.2) := by
    intro s v rest found
    obtain ⟨r, read, found⟩ := Option.bind_eq_some_iff.1 found
    obtain ⟨rfl, -⟩ := Prod.mk.inj (Option.some.inj found)
    exact h _ r.1 r.2 read
  intro s v rest found
  unfold arrayRest at found
  dsimp only at found
  split at found
  · rename_i items t read
    obtain ⟨⟨_, t⟩, -, found⟩ := Option.bind_eq_some_iff.1 found
    obtain ⟨rfl, -⟩ := Prod.mk.inj (Option.some.inj found)
    exact .array (item.separated ',' s items _ read)
  · obtain ⟨⟨_, t⟩, -, found⟩ := Option.bind_eq_some_iff.1 found
    obtain ⟨rfl, -⟩ := Prod.mk.inj (Option.some.inj found)
    exact .array fun v mem => absurd mem List.not_mem_nil

theorem yields_inlineTableRest (h : Yields Value.Bounded p) :
    Yields Value.Bounded (inlineTableRest p) := by
  have item : Yields (fun a => a.value.Bounded) fun s =>
      (assignment p s).bind fun r => some (r.1, skipBlanks r.2) := by
    intro s a rest found
    obtain ⟨r, read, found⟩ := Option.bind_eq_some_iff.1 found
    obtain ⟨rfl, -⟩ := Prod.mk.inj (Option.some.inj found)
    exact yields_assignment h _ r.1 r.2 read
  intro s v rest found
  unfold inlineTableRest at found
  dsimp only at found
  obtain ⟨⟨_, t⟩, -, found⟩ := Option.bind_eq_some_iff.1 found
  obtain ⟨es, filled, found⟩ := Option.bind_eq_some_iff.1 found
  obtain ⟨rfl, -⟩ := Prod.mk.inj (Option.some.inj found)
  refine .table (Entries.bounded_nil.assignAll (fun a mem => ?_) filled)
  generalize given : separated ',' _ s = items at mem
  cases items with
  | none => exact absurd mem List.not_mem_nil
  | some r => exact item.separated ',' s r.1 r.2 given a mem

theorem bounded_of_inRange {n : Int} {v : Value} (h : inRange n = some v) : v.Bounded := by
  unfold inRange at h
  split_ifs at h with inside
  obtain rfl := Option.some.inj h
  exact .integer inside.1 inside.2

theorem yields_basedInteger (base : Nat) (ok : Char → Bool) :
    Yields Value.Bounded (basedInteger base ok) := by
  intro s v rest found
  obtain ⟨⟨ds, t⟩, -, found⟩ := Option.bind_eq_some_iff.1 found
  obtain ⟨w, inside, found⟩ := Option.bind_eq_some_iff.1 found
  obtain ⟨rfl, -⟩ := Prod.mk.inj (Option.some.inj found)
  exact bounded_of_inRange inside

theorem yields_integer : Yields Value.Bounded integer := by
  intro s v rest found
  unfold integer at found
  split at found
  · exact yields_basedInteger _ _ _ _ _ found
  · exact yields_basedInteger _ _ _ _ _ found
  · exact yields_basedInteger _ _ _ _ _ found
  · obtain ⟨⟨ds, t⟩, -, found⟩ := Option.bind_eq_some_iff.1 found
    obtain ⟨w, inside, found⟩ := Option.bind_eq_some_iff.1 found
    obtain ⟨rfl, -⟩ := Prod.mk.inj (Option.some.inj found)
    exact bounded_of_inRange inside

theorem yields_float : Yields Value.Bounded float := by
  refine Yields.orElse (fun s v rest found => ?_) fun s v rest found => ?_
  · obtain ⟨⟨ds, t⟩, -, found⟩ := Option.bind_eq_some_iff.1 found
    have kept (b : Bool) (t : Text) (r : Text)
        (found : (if b = true then none else some (Value.float t, r)) = some (v, rest)) :
        v.Bounded := by
      split_ifs at found
      obtain ⟨rfl, -⟩ := Prod.mk.inj (Option.some.inj found)
      exact .float t
    dsimp only at found
    split at found
    · split at found
      · exact kept _ _ _ found
      · exact kept _ _ _ found
    · split at found
      · exact kept _ _ _ found
      · cases found
  · obtain ⟨⟨_, t⟩, -, found⟩ := Option.bind_eq_some_iff.1 found
    obtain ⟨rfl, -⟩ := Prod.mk.inj (Option.some.inj found)
    exact .float _

theorem yields_moment : Yields Value.Bounded moment := by
  intro s v rest found
  obtain ⟨⟨_, t⟩, -, found⟩ := Option.bind_eq_some_iff.1 found
  obtain ⟨rfl, -⟩ := Prod.mk.inj (Option.some.inj found)
  exact .moment _

theorem yields_boolean : Yields Value.Bounded boolean := by
  intro s v rest found
  unfold boolean at found
  split at found
  · obtain ⟨rfl, -⟩ := Prod.mk.inj (Option.some.inj found)
    exact .boolean true
  · obtain ⟨r, -, found⟩ := Option.map_eq_some_iff.1 found
    obtain ⟨rfl, -⟩ := Prod.mk.inj found
    exact .boolean false

theorem yields_value (depth : Nat) : Yields Value.Bounded (value depth) := by
  -- Arrays and inline tables hold values that nest less deep; all other values are read in one step.
  induction depth using Nat.strongRecOn with
  | ind depth ih =>
    intro s v rest
    fun_cases value depth s <;> intro found
    case case1 | case3 | case5 => cases found
    case case2 =>
      obtain ⟨r, -, found⟩ := Option.map_eq_some_iff.1 found
      obtain ⟨rfl, -⟩ := Prod.mk.inj found
      exact .string r.1
    case case4 => exact yields_arrayRest (ih _ (Nat.lt_succ_self _)) _ v rest found
    case case6 => exact yields_inlineTableRest (ih _ (Nat.lt_succ_self _)) _ v rest found
    case case7 => exact yields_boolean _ v rest found
    case case8 => exact yields_moment.orElse (yields_float.orElse yields_integer) _ v rest found

/-- The statement assigns nothing but values with integers of 64 bits. -/
def Statement.Bounded (st : Statement) : Prop := ∀ a, st = .assignment a → a.value.Bounded

theorem yields_header : Yields Statement.Bounded header := by
  intro s st rest found
  unfold header at found
  split at found
  · obtain ⟨⟨path, t⟩, -, found⟩ := Option.bind_eq_some_iff.1 found
    obtain ⟨⟨_, t⟩, -, found⟩ := Option.bind_eq_some_iff.1 found
    obtain ⟨rfl, -⟩ := Prod.mk.inj (Option.some.inj found)
    exact fun _ eq => Statement.noConfusion eq
  · obtain ⟨⟨path, t⟩, -, found⟩ := Option.bind_eq_some_iff.1 found
    obtain ⟨⟨_, t⟩, -, found⟩ := Option.bind_eq_some_iff.1 found
    obtain ⟨rfl, -⟩ := Prod.mk.inj (Option.some.inj found)
    exact fun _ eq => Statement.noConfusion eq
  · cases found

theorem yields_content : Yields Statement.Bounded content := by
  intro s st rest found
  unfold content at found
  split at found
  · obtain ⟨rfl, -⟩ := Prod.mk.inj (Option.some.inj found)
    exact fun _ eq => Statement.noConfusion eq
  · split_ifs at found
    · exact yields_header _ st rest found
    · obtain ⟨rfl, -⟩ := Prod.mk.inj (Option.some.inj found)
      exact fun _ eq => Statement.noConfusion eq
    · obtain ⟨r, assigned, found⟩ := Option.map_eq_some_iff.1 found
      obtain ⟨rfl, -⟩ := Prod.mk.inj found
      rintro a ⟨⟩
      exact yields_assignment (yields_value _) _ r.1 r.2 assigned

theorem yields_statement : Yields Statement.Bounded statement := by
  intro s st rest found
  obtain ⟨⟨first, t⟩, read, found⟩ := Option.bind_eq_some_iff.1 found
  obtain ⟨⟨_, t⟩, -, found⟩ := Option.bind_eq_some_iff.1 found
  obtain ⟨rfl, -⟩ := Prod.mk.inj (Option.some.inj found)
  exact yields_content _ first _ read

theorem bounded_sections {statements : List Statement} (h : ∀ st ∈ statements, st.Bounded) :
    (∀ a ∈ (sections statements).1, a.value.Bounded) ∧
      ∀ s ∈ (sections statements).2, ∀ a ∈ s.body, a.value.Bounded := by
  induction statements with
  | nil => exact ⟨fun a mem => absurd mem List.not_mem_nil, fun s mem => absurd mem List.not_mem_nil⟩
  | cons st more ih =>
    obtain ⟨body, inner⟩ := ih fun st mem => h st (List.mem_cons_of_mem _ mem)
    cases st with
    | header repeated path =>
      refine ⟨fun a mem => absurd mem List.not_mem_nil, fun s mem => ?_⟩
      rcases List.mem_cons.1 mem with rfl | mem
      · exact body
      · exact inner s mem
    | assignment a =>
      refine ⟨fun b mem => ?_, inner⟩
      rcases List.mem_cons.1 mem with rfl | mem
      · exact h _ List.mem_cons_self b rfl
      · exact body b mem
    | blank => exact ⟨body, inner⟩

/-- All integers of a document have 64 bits. -/
theorem bounded_parse? {t : Text} {es : Entries} (h : parse? t = some es) : es.Bounded := by
  unfold parse? at h
  split at h
  · rename_i statements read
    have all := yields_statement.many (skipByteOrderMark t)
    rw [read] at all
    obtain ⟨body, inner⟩ := bounded_sections all
    exact Entries.bounded_ofSections body inner h
  · cases h

end HeaderFlattening.Toml
