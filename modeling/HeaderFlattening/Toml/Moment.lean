import HeaderFlattening.Toml.Reader
import HeaderFlattening.Toml.Value

/-!
Dates and times in TOML: a date, a time, or a date with a time and perhaps its offset from universal
time. They are checked against the calendar and the clock and kept as they are written.
-/

set_option autoImplicit false
namespace HeaderFlattening.Toml.Moment

def number (count : Nat) : Reader Nat := fun s =>
  let ds := s.take count
  if ds.length = count && ds.all Char.isDigit then
    some (ds.foldl (fun n c => 10 * n + (c.toNat - '0'.toNat)) 0, s.drop count)
  else none

def between (low high : Nat) : Reader Nat := fun s => do
  let (n, s) ← number 2 s
  if low ≤ n && n ≤ high then return (n, s) else none

def isLeapYear (year : Nat) : Bool := year % 4 = 0 && (year % 100 ≠ 0 || year % 400 = 0)

def daysOfMonth (year month : Nat) : Nat :=
  if month = 2 then (if isLeapYear year then 29 else 28)
  else if month = 4 || month = 6 || month = 9 || month = 11 then 30
  else 31

def date : Reader Unit := fun s => do
  let (year, s) ← number 4 s
  let (_, s) ← Reader.char '-' s
  let (month, s) ← between 1 12 s
  let (_, s) ← Reader.char '-' s
  let (_, s) ← between 1 (daysOfMonth year month) s
  return ((), s)

def secondFraction : Text → Text
  | '.' :: d :: s => if d.isDigit then s.dropWhile Char.isDigit else '.' :: d :: s
  | s => s

def time : Reader Unit := fun s => do
  let (_, s) ← between 0 23 s
  let (_, s) ← Reader.char ':' s
  let (_, s) ← between 0 59 s
  let (_, s) ← Reader.char ':' s
  let (_, s) ← between 0 60 s
  return ((), secondFraction s)

def offset : Reader Unit
  | [] => none
  | c :: s =>
    if c = 'Z' || c = 'z' then some ((), s)
    else if c = '+' || c = '-' then do
      let (_, s) ← between 0 23 s
      let (_, s) ← Reader.char ':' s
      let (_, s) ← between 0 59 s
      return ((), s)
    else none

def timeBehindDate : Reader Unit
  | [] => none
  | c :: s =>
    if c = 'T' || c = 't' || c = ' ' then do
      let (_, s) ← time s
      return ((), ((offset s).map Prod.snd).getD s)
    else none

def dateAndTime : Reader Unit := fun s => do
  let (_, s) ← date s
  return ((), ((timeBehindDate s).map Prod.snd).getD s)

end HeaderFlattening.Toml.Moment

namespace HeaderFlattening.Toml

def moment : Reader Value := fun s => do
  let (_, rest) ← Reader.orElse Moment.dateAndTime Moment.time s
  return (.moment (s.take (s.length - rest.length)), rest)

end HeaderFlattening.Toml
