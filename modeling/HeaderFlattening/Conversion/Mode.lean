import HeaderFlattening.NameList

/-!
Where a conversion is: which comment, block, type, class and function are open. The parts of the mode
are independent of each other.
-/

set_option autoImplicit false
namespace HeaderFlattening

/-- An open `enum` or `struct`. -/
structure TypeBody where
  /-- The declared name, empty for an anonymous type. -/
  name : Text
  /-- Whether the source already has the flat form, so that its closing line is copied. -/
  flat : Bool
  deriving DecidableEq, Repr

/-- Where the conversion is with respect to a class. -/
inductive ClassState where
  | none
  /-- The name was seen and the brace was not. -/
  | pending (name : Text)
  /-- In the body. -/
  | opened (name : Text)
  deriving DecidableEq, Repr

namespace ClassState

def name? : ClassState → Option Text
  | .none => Option.none
  | .pending name | .opened name => some name

def awaited? : ClassState → Option Text
  | .pending name => some name
  | _ => Option.none

def isActive : ClassState → Bool
  | .none => false
  | _ => true

def isOpen : ClassState → Bool
  | .opened _ => true
  | _ => false

end ClassState

/-- Where the conversion is with respect to a function. -/
inductive FunctionState where
  | outside
  /-- Between the parentheses of a signature. -/
  | signature
  /-- Behind the signature, with the number of braces that are open since. The number may be of any
  size here; `Conversion.function_depth_wellFormed` says when it is one of 32 bits. -/
  | body (depth : Int)
  deriving DecidableEq, Repr

/-- The number that annotations show: 0 outside, -1 in a signature, 1 and the depth in a body. -/
def FunctionState.level : FunctionState → Int
  | .outside => 0
  | .signature => -1
  | .body depth => 1 + depth

structure Mode where
  inComment : Bool := false
  inExternC : Bool := false
  enumBody : Option TypeBody := none
  structBody : Option TypeBody := none
  classState : ClassState := .none
  function : FunctionState := .outside
  deriving DecidableEq, Repr

end HeaderFlattening
