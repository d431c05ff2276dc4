import EntityWorld.Script.Scalar
import EntityWorld.System
import Std.Data.ExtTreeMap.Basic

namespace EntityWorld.Script

inductive Operator where
  | add
  | sub
  | mul
  | mod
  | lt
  | eq

/-- Sums, differences and products wrap around. The remainder is never
    negative, and zero for a zero divisor. Comparisons give one or zero. -/
def Operator.apply (op : Operator) (a b : Int64) : Int64 :=
  match op with
  | add => a + b
  | sub => a - b
  | mul => a * b
  | mod => if b = 0 then 0 else .ofInt (a.toInt % b.toInt)
  | lt => if a < b then 1 else 0
  | eq => if a = b then 1 else 0

/-- A number that depends on the invocation. -/
inductive Expr where
  | literal (n : Int64)
  | calls
  | state
  | tick
  | queued
  | active
  | inactive
  | field (param : Nat) (name : String)
  | binary (op : Operator) (a b : Expr)

/-- A step of an invocation. Parameters are given by their position. Steps on
    a parameter that is no component to be written do nothing. -/
inductive Act where
  | setNumber (param : Nat) (field : String) (number : Expr)
  | setValue (param : Nat) (field : String) (value : Value)
  | push (param : Nat) (field : String) (item : Value)
  | addFloat (param : Nat) (field : String) (other : Nat) (otherField : String)
  | enqueue (sample : Scalar) (number : Expr) (text : String)
  | assign (number : Expr) (text : String)
  | branch (condition : Expr) (yes no : List Act)

/-- How an invocation ends. A number other than zero keeps the entity active. -/
inductive Reply where
  | settle (isActive : Bool)
  | test (number : Expr)
  | fail (reason : String)
  | panic (message : String)
  | branch (condition : Expr) (yes no : Reply)

/-- The script of an entry point: what it does, written down as data. A script computes with 64-bit
    integers that wrap around. An entry point that is `plain` has no way to fail, and settles its
    entity as inactive instead. -/
structure ShapeScript where
  signature : Signature
  acts : List Act := []
  reply : Reply := .settle true
  plain : Bool := false

/-- The script of a system. -/
structure SystemScript where
  number : Nat
  id : TypeId
  after : List TypeId := []
  shapes : List ShapeScript := []

/-- An invocation that took place: of which system and entry point, and with
    which arguments. -/
structure Call (S : Schema) where
  system : Nat
  shape : Nat
  arguments : List (Argument S)

/-- The private data of scripted systems: how often each was invoked, and the
    invocations in their order. -/
structure Ledger (S : Schema) where
  counts : Std.ExtTreeMap Nat Nat := ∅
  calls : Array (Call S) := #[]

end EntityWorld.Script
