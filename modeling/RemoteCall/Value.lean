/-
# Generic values

A generic value is a tree of nulls, booleans, numbers, strings, arrays and objects whose type is
not declared anywhere.  An object is a list of named fields in increasing order of the names, each
name once; `Fields.insert` keeps that order and replaces the field that is there.  Names are
ordered by code point, which is the order of their UTF-8 bytes.

Numbers are integers of any size or fractions.  Only integers that fit a signed 64-bit word have a
wire form.
-/
import RemoteCall.Wire.Token

namespace RemoteCall

/-- A value of undeclared type. -/
inductive Value where
  | null
  | bool (b : Bool)
  | integer (n : Int)
  /-- A number that is not written as an integer, by its spelling. -/
  | fraction (literal : String)
  | string (text : String)
  | array (items : List Value)
  | object (fields : List (String × Value))
  deriving Repr, Inhabited, BEq

/-- Named things in increasing order of their names. -/
abbrev Fields (α : Type) := List (String × α)

namespace Fields

variable {α : Type}

/-- Puts a field in its place; one of the same name gives way. -/
def insert (name : String) (value : α) : Fields α → Fields α
  | [] => [(name, value)]
  | (other, old) :: rest =>
    if name < other then (name, value) :: (other, old) :: rest
    else if name = other then (name, value) :: rest
    else (other, old) :: insert name value rest

/-- The field of a name. -/
def get? (fields : Fields α) (name : String) : Option α := fields.lookup name

/-- The fields of a list in which a later field replaces an earlier one of its name. -/
def ofList (entries : List (String × α)) : Fields α :=
  entries.foldl (fun fields entry => fields.insert entry.1 entry.2) []

/-- Whether the names increase strictly. -/
def Ordered (fields : Fields α) : Prop := fields.Pairwise (·.1 < ·.1)

end Fields

namespace Value

/-- The integers that fit a signed 64-bit word. -/
def toInt64? (n : Int) : Option Int64 :=
  if Int64.minValue.toInt ≤ n ∧ n ≤ Int64.maxValue.toInt then some (Int64.ofInt n) else none

/-- Whether the value is null. -/
def isNull : Value → Bool
  | .null => true
  | _ => false

/-- The kind of a value as messages name it.  Integers beyond 64 bits count as floats. -/
def kind : Value → String
  | .null => "null"
  | .bool _ => "boolean"
  | .integer n =>
    if (toInt64? n).isSome then "integer"
    else if 0 ≤ n ∧ n.toNat < UInt64.size then "unsigned integer out of i64 range"
    else "float"
  | .fraction _ => "float"
  | .string _ => "string"
  | .array _ => "array"
  | .object _ => "object"

end Value

end RemoteCall
