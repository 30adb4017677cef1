import HeaderFlattening.NameList

/-!
The events of a conversion, in the order in which they happen.
-/

set_option autoImplicit false
namespace HeaderFlattening

inductive Event where
  | lineSkipped (line limit : Nat)
  | classUnclosed (name : Text)
  | macroEdited (name : Text)
  | classEntered (name : Text)
  | classClosed (name : Text) (members : NameList)
  | functionEntered (name : Text) (params : NameList)
  | functionExited (name : Text)
  | declarationSkipped (name : Text)
  | enumValueAdded (name : Text)
  | memberAdded (name : Text)
  deriving DecidableEq, Repr

inductive Event.Level where
  | warn
  | debug
  | trace
  deriving DecidableEq, Repr

namespace Event

def level : Event → Level
  | .lineSkipped .. | .classUnclosed _ => .warn
  | .macroEdited _ | .classEntered _ | .functionEntered .. | .functionExited _
  | .declarationSkipped _ => .debug
  | .classClosed .. | .enumValueAdded _ | .memberAdded _ => .trace

def message : Event → Text
  | .lineSkipped line limit =>
    "line ".toList ++ Text.ofNat line ++ ": more than ".toList ++ Text.ofNat limit
      ++ " tokens, copied unchanged".toList
  | .classUnclosed name => "class ".toList ++ name ++ " is not closed at end of input".toList
  | .macroEdited name => "rewrite macro ".toList ++ name
  | .classEntered name => "enter class ".toList ++ name
  | .classClosed name members =>
    "close class ".toList ++ name ++ " (".toList ++ members.join [','] ++ ")".toList
  | .functionEntered name params =>
    "enter function ".toList ++ name ++ "(".toList ++ params.join [','] ++ ")".toList
  | .functionExited name => "exit function ".toList ++ name
  | .declarationSkipped name => "skip function declaration ".toList ++ name
  | .enumValueAdded name => "add enum value ".toList ++ name
  | .memberAdded name => "add class member ".toList ++ name

end Event
end HeaderFlattening
