import HeaderFlattening.Config
import HeaderFlattening.Fault
import HeaderFlattening.Toml.Document

/-!
The settings as a TOML document. A document says only what differs from the defaults; keys that mean
nothing are ignored. A record may also be given as an array of its fields in their order.
-/

set_option autoImplicit false
namespace HeaderFlattening

inductive ConfigError where
  | unreadable (fault : StreamFault)
  /-- The text is no TOML document, or a value in it is of the wrong kind. -/
  | malformed
  | invalid (reason : InvalidConfig)
  /-- A number is too large for TOML. -/
  | unwritable
  deriving DecidableEq, Repr

def ConfigError.message : ConfigError → Text
  | .unreadable fault => "Failed to read config file: ".toList ++ fault.message
  | .malformed => "Failed to parse TOML config".toList
  | .invalid reason => "Config validation error: ".toList ++ reason.message
  | .unwritable => "Failed to serialize TOML config: out-of-range value for u64 type".toList

namespace Toml

/-- The fields of a record, as far as they are given. -/
def fields? (names : List Text) : Value → Option (List (Option Value))
  | .table _ es => some (names.map fun name => es.lookup name)
  | .array items | .tables items => some (names.mapIdx fun i _ => items[i]?)
  | .moment _ => some (names.map fun _ => none)
  | _ => none

def text? : Value → Option Text
  | .string t => some t
  | _ => none

def nat? : Value → Option Nat
  | .integer (.ofNat n) => some n
  | _ => none

/-- A value that says no more than the key it stands under. -/
def isUnit : Value → Bool
  | .array items | .tables items => items.isEmpty
  | .table _ es => es.isEmpty
  | _ => false

/-- One of several names, alone or as the only key of a table. -/
def choice? {α : Type} (names : List (Text × α)) : Value → Option α
  | .string t => names.lookup t
  | .table _ [(key, v)] => if isUnit v then names.lookup key else none
  | _ => none

def fieldD {α : Type} (decode : Value → Option α) (default : α) : Option Value → Option α
  | none => some default
  | some v => decode v

end Toml

open Toml

def Suppression.names : List (Text × Suppression) :=
  [("annotate".toList, .annotate), ("comment".toList, .comment), ("drop".toList, .drop)]

def Overflow.names : List (Text × Overflow) :=
  [("abort".toList, .abort), ("skip".toList, .skip)]

def Folders.names : List Text := ["input_dir".toList, "output_dir".toList]

def Folders.ofValue? (v : Value) : Option Folders := do
  let default : Folders := {}
  let [input, output] ← fields? names v | none
  return {
    input := ← fieldD text? default.input input
    output := ← fieldD text? default.output output }

def Rules.names : List Text :=
  ["unindent_width".toList, "max_tokens".toList, "suppressed_declarations".toList,
    "token_overflow".toList, "virtual_method_template".toList]

def Rules.ofValue? (v : Value) : Option Rules := do
  let default : Rules := {}
  let [unindentWidth, maxTokens, suppression, overflow, methodTemplate] ← fields? names v | none
  return {
    unindentWidth := ← fieldD nat? default.unindentWidth unindentWidth
    maxTokens := ← fieldD nat? default.maxTokens maxTokens
    suppression := ← fieldD (choice? Suppression.names) default.suppression suppression
    overflow := ← fieldD (choice? Overflow.names) default.overflow overflow
    methodTemplate := ← fieldD text? default.methodTemplate methodTemplate }

def MacroEdit.names : List Text := ["macro".toList, "search".toList, "replace".toList]

def MacroEdit.ofValue? (v : Value) : Option MacroEdit := do
  let [some name, some search, some replacement] ← fields? names v | none
  return { name := ← text? name, search := ← text? search, replacement := ← text? replacement }

def MacroEdit.listOfValue? : Value → Option (List MacroEdit)
  | .array items | .tables items => items.mapM MacroEdit.ofValue?
  | _ => none

namespace Config

def ofEntries? (es : Entries) : Option Config := do
  let default : Config := {}
  return {
    folders := ← fieldD Folders.ofValue? default.folders (es.lookup "layout".toList)
    rules := ← fieldD Rules.ofValue? default.rules (es.lookup "conversion".toList)
    edits := ← fieldD MacroEdit.listOfValue? default.edits (es.lookup "rewrite".toList) }

/-- Reads settings and checks them. -/
def ofToml (t : Text) : Except ConfigError Config :=
  match (Toml.parse? t).bind ofEntries? with
  | none => .error .malformed
  | some c =>
    match c.invalid? with
    | some reason => .error (.invalid reason)
    | none => .ok c

/-- A line with a key and its value. -/
def tomlLine (key value : Text) : Text := key ++ " = ".toList ++ value ++ "\n".toList

def nameOf {α : Type} [DecidableEq α] (names : List (Text × α)) (a : α) : Text :=
  ((names.find? (·.2 = a)).map Prod.fst).getD []

def foldersToml (f : Folders) : Text :=
  "[layout]\n".toList ++ tomlLine "input_dir".toList (writeString f.input)
    ++ tomlLine "output_dir".toList (writeString f.output)

def rulesToml (r : Rules) : Text :=
  "[conversion]\n".toList ++ tomlLine "unindent_width".toList (Text.ofNat r.unindentWidth)
    ++ tomlLine "max_tokens".toList (Text.ofNat r.maxTokens)
    ++ tomlLine "suppressed_declarations".toList (writeString (nameOf Suppression.names r.suppression))
    ++ tomlLine "token_overflow".toList (writeString (nameOf Overflow.names r.overflow))
    ++ tomlLine "virtual_method_template".toList (writeString r.methodTemplate)

def editToml (r : MacroEdit) : Text :=
  "[[rewrite]]\n".toList ++ tomlLine "macro".toList (writeString r.name)
    ++ tomlLine "search".toList (writeString r.search)
    ++ tomlLine "replace".toList (writeString r.replacement)

/-- Writes settings. The empty list of edits is written out, because a missing one would mean the
default. -/
def toToml (c : Config) : Except ConfigError Text :=
  if Toml.integerBound ≤ c.rules.unindentWidth ∨ Toml.integerBound ≤ c.rules.maxTokens then
    .error .unwritable
  else
    let sections := foldersToml c.folders :: rulesToml c.rules :: c.edits.map editToml
    .ok ((if c.edits.isEmpty then "rewrite = []\n\n".toList else [])
      ++ Text.join "\n".toList sections)

end Config
end HeaderFlattening
