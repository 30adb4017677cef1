import HeaderFlattening.Text.Basic

/-!
Where the converted text goes. A sink with room for a number of bytes keeps that many of the bytes
that it is offered, in order, and no others.
-/

set_option autoImplicit false
namespace HeaderFlattening

/-- What a piece of output comes from. -/
inductive Origin where
  | copied
  /-- Text made for a recognised line. -/
  | made
  /-- A line of a function, in the form that the settings ask for. -/
  | suppressed
  /-- A data member of a class. -/
  | member
  deriving DecidableEq, Repr

structure Chunk where
  origin : Origin
  text : Text
  deriving DecidableEq, Repr

structure Sink where
  /-- The most bytes that are kept; no limit if absent. -/
  room : Option Nat := none
  /-- All that was offered, in order. -/
  offered : List Chunk := []
  deriving DecidableEq, Repr

namespace Sink

/-- The bytes offered so far. -/
def demand (s : Sink) : List UInt8 := s.offered.flatMap (·.text.bytes)

/-- The bytes kept so far. -/
def bytes (s : Sink) : List UInt8 :=
  match s.room with
  | none => s.demand
  | some room => s.demand.take room

def text (s : Sink) : Text := s.offered.flatMap Chunk.text

def offer (s : Sink) (c : Chunk) : Sink := { s with offered := s.offered ++ [c] }

/-- Whether all bytes offered so far were kept. -/
def hasAll (s : Sink) : Bool :=
  match s.room with
  | none => true
  | some room => s.demand.length ≤ room

end Sink
end HeaderFlattening
