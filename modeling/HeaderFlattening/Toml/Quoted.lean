import HeaderFlattening.Toml.Reader

/-!
Strings in TOML: between double quotes with escapes, or between single quotes as they are, each on one
line or, with three quotes, on several. Reading knows all forms; writing chooses the plainest form that
can hold the text.
-/

set_option autoImplicit false
namespace HeaderFlattening.Toml

/-! Reading -/

def isHexDigit (c : Char) : Bool :=
  c.isDigit || ('a' ≤ c && c ≤ 'f') || ('A' ≤ c && c ≤ 'F')

def hexValue (c : Char) : Nat :=
  if c.isDigit then c.toNat - '0'.toNat
  else if 'a' ≤ c then c.toNat - 'a'.toNat + 10
  else c.toNat - 'A'.toNat + 10

def digitsValue (base : Nat) (digits : Text) : Nat :=
  digits.foldl (fun n c => n * base + hexValue c) 0

/-- The character with a code point of `count` hexadecimal digits. -/
def codePoint (count : Nat) : Reader Char := fun s =>
  let digits := s.take count
  if digits.length = count && digits.all isHexDigit then
    let n := digitsValue 16 digits
    if n.isValidChar then some (Char.ofNat n, s.drop count) else none
  else none

/-- What stands behind a backslash. -/
def escape : Reader Char
  | [] => none
  | c :: s =>
    match c with
    | 'b' => some ('\x08', s)
    | 't' => some ('\t', s)
    | 'n' => some ('\n', s)
    | 'f' => some ('\x0c', s)
    | 'r' => some ('\r', s)
    | '"' => some ('"', s)
    | '\\' => some ('\\', s)
    | 'u' => codePoint 4 s
    | 'U' => codePoint 8 s
    | _ => none

theorem escape_shorter {s rest : Text} {c : Char} (h : escape s = some (c, rest)) :
    rest.length < s.length := by
  have code : ∀ {n : Nat} {t : Text}, codePoint n t = some (c, rest) → rest.length ≤ t.length := by
    intro n t ht
    simp only [codePoint] at ht
    split at ht
    · split at ht
      · simp only [Option.some.injEq, Prod.mk.injEq] at ht
        rw [← ht.2, List.length_drop]
        omega
      · simp at ht
    · simp at ht
  cases s with
  | nil => simp [escape] at h
  | cons d s =>
    simp only [escape] at h
    split at h <;> simp_all
    · have := code h
      omega
    · have := code h
      omega

def basicRest (s : Text) : Option (Text × Text) :=
  match s with
  | [] => none
  | c :: s =>
    if c = '"' then some ([], s)
    else if c = '\\' then
      match _found : escape s with
      | none => none
      | some (e, rest) => (basicRest rest).map fun r => (e :: r.1, r.2)
    else if Reader.isPlain c then (basicRest s).map fun r => (c :: r.1, r.2)
    else none
termination_by s.length
decreasing_by
  · have := escape_shorter _found
    simp only [List.length_cons]
    omega
  · simp

def literalRest : Reader Text
  | [] => none
  | c :: s =>
    if c = '\x27' then some ([], s)
    else if Reader.isPlain c then (literalRest s).map fun r => (c :: r.1, r.2)
    else none

/-- The text behind leading blanks and line ends. -/
def skipBlankLines : Text → Text
  | [] => []
  | '\r' :: '\n' :: s => skipBlankLines s
  | c :: s => if Reader.isInlineBlank c || c = '\n' then skipBlankLines s else c :: s

theorem length_skipBlankLines_le (s : Text) : (skipBlankLines s).length ≤ s.length := by
  fun_induction skipBlankLines s <;> simp_all <;> omega

/-- The text behind a line end that a backslash takes back, and behind the blanks and line ends that
follow it. -/
def continuation (s : Text) : Option Text :=
  (Reader.newline (Reader.skipBlanks s)).map fun r => skipBlankLines r.2

theorem continuation_shorter {s rest : Text} (h : continuation s = some rest) :
    rest.length < s.length := by
  have skip : (Reader.skipBlanks s).length ≤ s.length := (List.dropWhile_suffix _).length_le
  obtain ⟨⟨_, t⟩, ht, rfl⟩ := Option.map_eq_some_iff.1 h
  have := length_skipBlankLines_le t
  unfold Reader.newline at ht
  split at ht <;> simp_all <;> omega

/-- The line end at the start of a text in three quotes, which does not count. -/
def skipNewline (s : Text) : Text :=
  match Reader.newline s with
  | some (_, rest) => rest
  | none => s

/-- The number of equal quotes at the start of a text. -/
def quoteRun (quote : Char) (s : Text) : Nat := (s.takeWhile (· = quote)).length

/-- The end of a text in three quotes: up to two quotes directly before the closing three belong to
the text. -/
def closing (quote : Char) (s : Text) : Option (Text × Text) :=
  let run := min (quoteRun quote s) 5
  if 3 ≤ run then some (List.replicate (run - 3) quote, s.drop run) else none

def basicLines (s : Text) : Option (Text × Text) :=
  match closing '"' s with
  | some r => some r
  | none =>
    match s with
    | [] => none
    | c :: s =>
      if c = '\\' then
        match _found : continuation s with
        | some rest => basicLines rest
        | none =>
          match _escaped : escape s with
          | none => none
          | some (e, rest) => (basicLines rest).map fun r => (e :: r.1, r.2)
      else if c = '\r' then
        match s with
        | '\n' :: s => (basicLines s).map fun r => ('\n' :: r.1, r.2)
        | _ => none
      else if c = '\n' || Reader.isPlain c then (basicLines s).map fun r => (c :: r.1, r.2)
      else none
termination_by s.length
decreasing_by
  · have := continuation_shorter _found
    simp only [List.length_cons]
    omega
  · have := escape_shorter _escaped
    simp only [List.length_cons]
    omega
  · simp only [List.length_cons]
    omega
  · simp

def literalLines (s : Text) : Option (Text × Text) :=
  match closing '\x27' s with
  | some r => some r
  | none =>
    match s with
    | [] => none
    | '\r' :: '\n' :: s => (literalLines s).map fun r => ('\n' :: r.1, r.2)
    | c :: s =>
      if c = '\n' || Reader.isPlain c then (literalLines s).map fun r => (c :: r.1, r.2) else none
termination_by s.length

def lineString : Reader Text
  | '"' :: s => basicRest s
  | '\x27' :: s => literalRest s
  | _ => none

def string : Reader Text
  | '"' :: '"' :: '"' :: s => basicLines (skipNewline s)
  | '\x27' :: '\x27' :: '\x27' :: s => literalLines (skipNewline s)
  | s => lineString s

/-! Writing -/

inductive Form where
  | basic
  | literal
  | basicLines
  | literalLines
  deriving DecidableEq, Repr

/-- The length of the longest run of a character. -/
def longestRun (quote : Char) : Text → Nat
  | [] => 0
  | c :: s => max (quoteRun quote (c :: s)) (longestRun quote s)

/-- A control character that only an escape can write. -/
def isCode (c : Char) : Bool := !Reader.isPlain c && c ≠ '\n'

def Form.of (t : Text) : Form :=
  let codes := t.any isCode
  let lines := t.contains '\n'
  if !codes && !lines && !t.contains '\\' && !t.contains '"' then .basic
  else if !codes && !lines && !t.contains '\x27' then .literal
  else if !codes && !t.contains '\\' && longestRun '"' t ≤ 2 then .basicLines
  else if !codes && longestRun '\x27' t ≤ 2 then .literalLines
  else if lines then .basicLines
  else .basic

/-- Two hexadecimal digits in capitals. -/
def hexByte (n : Nat) : Text :=
  [(Nat.digitChar (n / 16)).toUpper, (Nat.digitChar (n % 16)).toUpper]

/-- The form of a character other than a quote between double quotes. A line end is written as it is if
`lines` says so. -/
def shown (lines : Bool) (c : Char) : Text :=
  match c with
  | '\x08' => ['\\', 'b']
  | '\t' => ['\\', 't']
  | '\n' => if lines then ['\n'] else ['\\', 'n']
  | '\x0c' => ['\\', 'f']
  | '\r' => ['\\', 'r']
  | '\\' => ['\\', '\\']
  | c => if isCode c then "\\u00".toList ++ hexByte c.toNat else [c]

/-- The escaped form of a text in which at most `quotes` quotes may stand together; `run` quotes have
just been written. -/
def escaped (quotes : Nat) (lines : Bool) : (run : Nat) → Text → Text
  | _, [] => []
  | run, c :: s =>
    if c = '"' then
      if quotes ≤ run then '\\' :: '"' :: escaped quotes lines 0 s
      else c :: escaped quotes lines (run + 1) s
    else shown lines c ++ escaped quotes lines 0 s

/-- The line end that keeps a first line end of the text from being dropped; a text on one line needs
none. -/
def opening (t : Text) : Text := if t.contains '\n' then ['\n'] else []

def Form.write (t : Text) : Form → Text
  | .basic => "\"".toList ++ escaped 0 false 0 t ++ "\"".toList
  | .literal => "\x27".toList ++ t ++ "\x27".toList
  | .basicLines => "\"\"\"".toList ++ opening t ++ escaped 2 true 0 t ++ "\"\"\"".toList
  | .literalLines => "\x27\x27\x27".toList ++ opening t ++ t ++ "\x27\x27\x27".toList

def writeString (t : Text) : Text := (Form.of t).write t

end HeaderFlattening.Toml
