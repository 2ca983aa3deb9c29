/-
# Declared types and their values

A declared type is an integer of some width, a scalar, a generic value, an option, list or map of a
declared type, or a model: a named object type whose members are declared in a catalog.  Models may
refer to themselves and to each other.  Some types have no adapter of their own.

A datum is a value of a declared type.  The type is not part of the datum; a record holds the
values of a model's members in the order of their declaration.
-/
import RemoteCall.Value

namespace RemoteCall

/-! ## 1. Types -/

/-- The widths of integers. -/
inductive IntWidth where
  | i8
  | i16
  | i32
  | i64
  | u8
  | u16
  | u32
  | u64
  deriving DecidableEq, Repr

namespace IntWidth

/-- The width as messages name it. -/
def name : IntWidth → String
  | i8 => "i8"
  | i16 => "i16"
  | i32 => "i32"
  | i64 => "i64"
  | u8 => "u8"
  | u16 => "u16"
  | u32 => "u32"
  | u64 => "u64"

/-- The least integer of the width. -/
def least : IntWidth → Int
  | i8 => -128
  | i16 => -32768
  | i32 => -2147483648
  | i64 => -9223372036854775808
  | u8 | u16 | u32 | u64 => 0

/-- The greatest integer of the width. -/
def greatest : IntWidth → Int
  | i8 => 127
  | i16 => 32767
  | i32 => 2147483647
  | i64 => 9223372036854775807
  | u8 => 255
  | u16 => 65535
  | u32 => 4294967295
  | u64 => 18446744073709551615

/-- All widths. -/
def all : List IntWidth := [i8, i16, i32, i64, u8, u16, u32, u64]

/-- Whether an integer has the width. -/
def contains (width : IntWidth) (n : Int) : Bool := width.least ≤ n ∧ n ≤ width.greatest

end IntWidth

/-- How a map keeps its entries.  The wire form is the same. -/
inductive MapKind where
  | sorted
  | hashed
  deriving DecidableEq, Repr

/-- A declared type. -/
inductive Ty where
  | integer (width : IntWidth)
  | bool
  | string
  | unit
  /-- A point in time. -/
  | instant
  /-- A generic value. -/
  | value
  | option (inner : Ty)
  | list (element : Ty)
  /-- A map from texts. -/
  | map (kind : MapKind) (element : Ty)
  /-- An object type declared in the catalog. -/
  | model (name : String)
  /-- A type without an adapter of its own. -/
  | foreign (name : String)
  /-- A type whose own adapter always refuses to be built. -/
  | refusing (name reason : String)
  deriving DecidableEq, Repr, Inhabited

/-- The full name of a type, as messages give it. -/
def Ty.name : Ty → String
  | integer width => width.name
  | bool => "bool"
  | string => "alloc::string::String"
  | unit => "()"
  | instant => "std::time::SystemTime"
  | value => "serde_json::value::Value"
  | option inner => s!"core::option::Option<{inner.name}>"
  | list element => s!"alloc::vec::Vec<{element.name}>"
  | map .sorted element =>
    s!"alloc::collections::btree::map::BTreeMap<alloc::string::String, {element.name}>"
  | map .hashed element =>
    s!"std::collections::hash::map::HashMap<alloc::string::String, {element.name}>"
  | model name => name
  | foreign name => name
  | refusing name _ => name

/-! ## 2. Values -/

/-- A value of a declared type. -/
inductive Datum where
  | integer (n : Int)
  | bool (b : Bool)
  | string (text : String)
  | unit
  /-- A point in time, in nanoseconds since the epoch. -/
  | instant (nanoseconds : Int)
  | value (value : Value)
  | none
  | some (inner : Datum)
  | list (items : List Datum)
  | map (entries : List (String × Datum))
  /-- The members of a model, in the order of their declaration. -/
  | record (members : List Datum)
  deriving Repr, Inhabited, BEq

/-! ## 3. Models -/

/-- A member of a model. -/
structure Member where
  name : String
  wireName : String
  type : Ty
  /-- The value of the member in the model's default. -/
  default : Datum
  deriving Repr

/-- The models that types may name. -/
abbrev Catalog := List (String × List Member)

end RemoteCall
