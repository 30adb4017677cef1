import HeaderFlattening.Toml.Quoted
import HeaderFlattening.Toml.Value

/-!
Numbers in TOML: integers of 64 bits in four bases, and floating-point numbers, which are kept as they
are written. A positive number beyond the range of binary64 is refused.
-/

set_option autoImplicit false
namespace HeaderFlattening.Toml

/-- The digits at the start of a text; single underscores may stand between digits. -/
def moreDigits (ok : Char → Bool) : Text → Text × Text
  | [] => ([], [])
  | [c] => if ok c then ([c], []) else ([], [c])
  | c :: d :: s =>
    if ok c then
      let after := moreDigits ok (d :: s)
      (c :: after.1, after.2)
    else if c = '_' && ok d then
      let after := moreDigits ok s
      (d :: after.1, after.2)
    else ([], c :: d :: s)

def digits (ok : Char → Bool) : Reader Text
  | [] => none
  | c :: s => if ok c then some (moreDigits ok (c :: s)) else none

/-- A sign, if there is one; tells whether it is a minus. -/
def sign : Text → Bool × Text
  | '-' :: s => (true, s)
  | '+' :: s => (false, s)
  | s => (false, s)

/-- The digits of a decimal number, which starts with a zero only if it is zero. -/
def decimalDigits : Reader Text
  | '0' :: s => some (['0'], s)
  | s => digits Char.isDigit s

/-- The least number above the integers of 64 bits. -/
def integerBound : Nat := Nat.pow 2 63

def inRange (n : Int) : Option Value :=
  if -integerBound ≤ n ∧ n < integerBound then some (.integer n) else none

/-- The digits of a number in a base other than ten. -/
def basedInteger (base : Nat) (ok : Char → Bool) : Reader Value := fun s => do
  let (ds, rest) ← digits ok s
  return (← inRange (digitsValue base ds), rest)

def integer : Reader Value
  | '0' :: 'x' :: s => basedInteger 16 isHexDigit s
  | '0' :: 'o' :: s => basedInteger 8 (fun c => '0' ≤ c && c ≤ '7') s
  | '0' :: 'b' :: s => basedInteger 2 (fun c => c = '0' || c = '1') s
  | s => do
    let (negative, s) := sign s
    let (ds, rest) ← decimalDigits s
    let n : Int := digitsValue 10 ds
    return (← inRange (if negative then -n else n), rest)

/-- The least number that rounds to infinity in binary64. -/
def overflowBound : Nat := Nat.pow 2 1024 - Nat.pow 2 970

/-- Whether `ds` times ten to the power `exponent` reaches the bound, which has 309 digits. -/
def overflows (ds : Text) (exponent : Int) : Bool :=
  let significant := ds.dropWhile (· = '0')
  let size := significant.length + exponent
  if significant.isEmpty || size < 309 then false
  else if 309 < size then true
  else
    let n := digitsValue 10 significant
    if significant.length ≤ 309 then overflowBound ≤ n * Nat.pow 10 (309 - significant.length)
    else overflowBound ≤ n / Nat.pow 10 (significant.length - 309)

def fraction : Reader Text
  | '.' :: s => digits Char.isDigit s
  | _ => none

def exponent : Reader Int
  | [] => none
  | e :: s =>
    if e = 'e' || e = 'E' then do
      let (negative, s) := sign s
      let (ds, rest) ← digits Char.isDigit s
      let n : Int := digitsValue 10 ds
      return (if negative then -n else n, rest)
    else none

def decimalFloat : Reader Value := fun source => do
  let (negative, s) := sign source
  let (whole, s) ← decimalDigits s
  let (part, power, rest) ← match fraction s with
    | some (part, s) =>
      match exponent s with
      | some (power, rest) => some (part, power, rest)
      | none => some (part, 0, s)
    | none =>
      match exponent s with
      | some (power, rest) => some ([], power, rest)
      | none => none
  if !negative && overflows (whole ++ part) (power - part.length) then none
  else return (.float (source.take (source.length - rest.length)), rest)

def specialFloat : Reader Value := fun source => do
  let s := (sign source).2
  let (_, rest) ← Reader.orElse (Reader.literal "inf".toList) (Reader.literal "nan".toList) s
  return (.float (source.take (source.length - rest.length)), rest)

def float : Reader Value := Reader.orElse decimalFloat specialFloat

end HeaderFlattening.Toml
