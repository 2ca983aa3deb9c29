/-
# Adapters: how the values of a declared type travel

A table says, for the types resolved so far, by which rule their values are written and read: by
the type's own structure, by the members of a model, or by a custom rule that was registered for
the type.  Structure leads from a type to other types, and those are looked up in the same table;
that is how a recursive model refers to itself.  A type that the table does not know yet is still
being resolved, and every use of its adapter fails.

An absent value (nothing, the unit, a null) is left out of objects and cannot be written anywhere
else.  The operations of an adapter are

* `isAbsent` and `absent`: whether a value is absent, and the value that stands for missing data;
* `token`: the kind of value announced in an object;
* `write` and `read`;
* `isObject` and `writeFields`: whether values can be spread as fields of an open object, and that.
-/
import RemoteCall.Typed.Instant
import RemoteCall.Typed.Type
import RemoteCall.Value.Codec

namespace RemoteCall

open Wire

/-! ## 1. Custom rules -/

/-- A rule registered for one type in place of the type's own. -/
inductive CustomRule where
  /-- A string, written in capitals and read in small letters (both of ASCII letters only). -/
  | capitals
  /-- A string, always written as one text. -/
  | constant (text : String)
  /-- An integer as a wire number. -/
  | number
  /-- An integer as a wire number, of which zero counts as absent. -/
  | zeroAbsent
  /-- A boolean announced as a string and written as a number. -/
  | disguised
  /-- A list of integers written as their sum and read as a list of one. -/
  | sum
  deriving DecidableEq, Repr

namespace CustomRule

/-- The token that the rule announces. -/
def token : CustomRule → Token
  | capitals | constant _ | disguised => .string
  | number | zeroAbsent | sum => .number

/-- Whether the rule counts a value as absent. -/
def isAbsent : CustomRule → Datum → Bool
  | zeroAbsent, .integer n => n == 0
  | _, _ => false

/-- The value that stands for missing data of `type`. -/
def absent (type : Ty) : CustomRule → Except Error Datum
  | zeroAbsent => .ok (.integer 0)
  | _ => .error (.value (.missing type.name))

/-- The integer of a datum. -/
def integerOf : Datum → Int
  | .integer n => n
  | _ => 0

/-- Writes a value of `type` by the rule. -/
def write (type : Ty) : CustomRule → Datum → Write Unit
  | capitals, .string text => Writer.writeString (text.map Char.toUpper)
  | constant text, .string _ => Writer.writeString text
  | number, .integer n => Writer.writeNumber (Int64.ofInt n)
  | zeroAbsent, .integer n => Writer.writeNumber (Int64.ofInt n)
  | disguised, .bool b => Writer.writeNumber (if b then 1 else 0)
  | sum, .list items => Writer.writeNumber (Int64.ofInt (items.foldr (integerOf · + ·) 0))
  | _, _ => throw (.value (.mistyped type.name))

/-- Reads a value by the rule. -/
def read : CustomRule → Read Datum
  | capitals => do return .string ((← Reader.readString).map Char.toLower)
  | constant _ => do return .string (← Reader.readString)
  | number => do return .integer (← Reader.readNumber).toInt
  | zeroAbsent => do return .integer (← Reader.readNumber).toInt
  | disguised => do return .bool ((← Reader.readNumber) != 0)
  | sum => do return .list [.integer (← Reader.readNumber).toInt]

end CustomRule

/-! ## 2. Tables -/

/-- How the values of a resolved type travel. -/
inductive Rule where
  /-- By the structure of the type. -/
  | structural
  /-- As an object with these members. -/
  | members (members : List Member)
  | custom (rule : CustomRule)
  deriving Repr

/-- The rules of the types resolved so far. -/
abbrev Table := List (Ty × Rule)

namespace Table

/-- The rule of a type. -/
def rule? (table : Table) (type : Ty) : Option Rule := table.lookup type

/-! ## 3. Absence -/

/-- Whether a value is absent. -/
def isAbsent (table : Table) : (datum : Datum) → (type : Ty) → Bool
  | datum, type =>
    match table.rule? type with
    | none => false
    | some (.custom rule) => rule.isAbsent datum
    | some _ =>
      match type, datum with
      | .unit, _ => true
      | .value, .value value => value.isNull
      | .option _, .none => true
      | .option inner, .some datum => isAbsent table datum inner
      | _, _ => false

/-- The value that stands for missing data. -/
def absent (table : Table) (type : Ty) : Except Error Datum :=
  match table.rule? type with
  | none => .error (.value (.unresolved type.name))
  | some (.custom rule) => rule.absent type
  | some _ =>
    match type with
    | .unit => .ok .unit
    | .option _ => .ok .none
    | .value => .ok (.value .null)
    | _ => .error (.value (.missing type.name))

/-! ## 4. Writing -/

/-- The token that announces a value. -/
def token (table : Table) : (datum : Datum) → (type : Ty) → Except Error Token
  | datum, type =>
    match table.rule? type with
    | none => .error (.value (.unresolved type.name))
    | some (.custom rule) => .ok rule.token
    | some _ =>
      match type, datum with
      | .integer _, _ => .ok .number
      | .bool, _ => .ok .boolean
      | .string, _ => .ok .string
      | .unit, _ => .error (.value .unitValue)
      | .instant, _ => .ok .number
      | .value, .value value => value.token
      | .option _, .none => .error (.value .noneToken)
      | .option inner, .some datum => token table datum inner
      | .list _, _ => .ok .beginArray
      | .map _ _, _ => .ok .beginObject
      | .model _, _ => .ok .beginObject
      | _, _ => .error (.value (.mistyped type.name))

/-- Writes the name of an entry whose value follows. -/
def writeName (table : Table) (name : String) (datum : Datum) (type : Ty) : Write Unit :=
  match table.token datum type with
  | .ok token => Writer.writeName name token
  | .error error => throw error

mutual

/-- Writes a value. -/
def write (table : Table) : (datum : Datum) → (type : Ty) → Write Unit
  | datum, type =>
    match table.rule? type with
    | none => throw (.value (.unresolved type.name))
    | some (.custom rule) => rule.write type datum
    | some rule =>
      match datum with
      | .integer n =>
        match type with
        | .integer width =>
          match Value.toInt64? n with
          | some word => Writer.writeNumber word
          | none => throw (.value (.unfit width.name))
        | _ => throw (.value (.mistyped type.name))
      | .bool b =>
        match type with
        | .bool => Writer.writeBool b
        | _ => throw (.value (.mistyped type.name))
      | .string text =>
        match type with
        | .string => Writer.writeString text
        | _ => throw (.value (.mistyped type.name))
      | .unit => throw (.value .unitValue)
      | .instant nanoseconds =>
        match type, Instant.toSeconds nanoseconds with
        | .instant, .ok seconds => Writer.writeNumber seconds
        | .instant, .error error => throw error
        | _, _ => throw (.value (.mistyped type.name))
      | .value value =>
        match type with
        | .value => value.write
        | _ => throw (.value (.mistyped type.name))
      | .none => throw (.value .noneValue)
      | .some datum =>
        match type with
        | .option inner => write table datum inner
        | _ => throw (.value (.mistyped type.name))
      | .list items =>
        match type with
        | .list element => do
          Writer.beginArray
          writeItems table items element
          Writer.endArray
        | _ => throw (.value (.mistyped type.name))
      | .map entries =>
        match type with
        | .map _ element => do
          Writer.beginObject
          writeEntries table entries element
          Writer.endObject
        | _ => throw (.value (.mistyped type.name))
      | .record values =>
        match rule with
        | .members members => do
          Writer.beginObject
          writeMembers table values members
          Writer.endObject
        | _ => throw (.value (.mistyped type.name))

/-- Writes the elements of a list, none of which may be absent. -/
def writeItems (table : Table) : (items : List Datum) → (element : Ty) → Write Unit
  | [], _ => pure ()
  | item :: items, element =>
    if table.isAbsent item element then
      throw (.value (.absentElement element.name))
    else do
      write table item element
      writeItems table items element

/-- Writes the entries of a map that are not absent into the open object. -/
def writeEntries (table : Table) : (entries : List (String × Datum)) → (element : Ty) → Write Unit
  | [], _ => pure ()
  | (name, datum) :: entries, element => do
    if table.isAbsent datum element then
      pure ()
    else
      table.writeName name datum element
      write table datum element
    writeEntries table entries element

/-- Writes the members of a record that are not absent into the open object. -/
def writeMembers (table : Table) : (values : List Datum) → (members : List Member) → Write Unit
  | datum :: values, member :: members => do
    if table.isAbsent datum member.type then
      pure ()
    else
      table.writeName member.wireName datum member.type
      write table datum member.type
    writeMembers table values members
  | _, _ => pure ()

end

/-- Whether the values of a type can be spread as fields. -/
def isObject (table : Table) (type : Ty) : Bool :=
  match table.rule? type, type with
  | some .structural, .map _ _ => true
  | some .structural, .value => true
  | some (.members _), _ => true
  | _, _ => false

/-- Writes the fields of an object value into the open object. -/
def writeFields (table : Table) (datum : Datum) (type : Ty) : Write Unit :=
  match table.rule? type with
  | none => throw (.value (.unresolved type.name))
  | some (.custom _) => throw (.noFields type.name)
  | some (.members members) =>
    match datum with
    | .record values => table.writeMembers values members
    | _ => throw (.value (.mistyped type.name))
  | some .structural =>
    match type, datum with
    | .map _ element, .map entries => table.writeEntries entries element
    | .value, .value (.object fields) => Value.writeFields fields
    | .value, .value value => throw (.value (.notInlined value.kind))
    | _, _ => throw (.noFields type.name)

/-! ## 5. Reading -/

/-- Puts the value of a member in its place in a record. -/
def readMember (read : Ty → Read Datum) (members : List Member) (values : List Datum) :
    Read (List Datum) := do
  let name ← Reader.nextName
  match members.findIdx? (·.wireName == name) with
  | some index =>
    match members[index]? with
    | some member => return values.set index (← read member.type)
    | none => return values
  | none =>
    Reader.skip
    return values

/-- Reads an integer of a width. -/
def readInteger (width : IntWidth) : Read Datum := do
  let n := (← Reader.readNumber).toInt
  if width.contains n then return .integer n
  else throw (.value (.outOfRange n width.name))

/-- Reads a point in time. -/
def readInstant : Read Datum := do
  match Instant.ofSeconds (← Reader.readNumber) with
  | .ok nanoseconds => return .instant nanoseconds
  | .error error => throw error

/-- Reads a value, and the values inside of an array or object with `inside`. -/
def readWith (table : Table) (inside : Ty → Read Datum) (type : Ty) : Read Datum :=
  match table.rule? type with
  | none => throw (.value (.unresolved type.name))
  | some (.custom rule) => rule.read
  | some (.members members) => do
    Reader.beginObject
    let values ← Reader.untilEnd (readMember inside members) (members.map (·.default))
    Reader.endObject
    return .record values
  | some .structural =>
    match type with
    | .integer width => readInteger width
    | .bool => do return .bool (← Reader.readBool)
    | .string => do return .string (← Reader.readString)
    | .unit => do
      Reader.skip
      return .unit
    | .instant => readInstant
    | .value => do return .value (← Value.read)
    | .option inner => do return .some (← readWith table inside inner)
    | .list element => do
      Reader.beginArray
      let items ← Reader.items (inside element)
      Reader.endArray
      return .list items
    | .map _ element => do
      Reader.beginObject
      let entries ← Reader.untilEnd (fun (entries : Fields Datum) => do
        let name ← Reader.nextName
        let datum ← inside element
        return entries.insert name datum) []
      Reader.endObject
      return .map entries
    | .model name => throw (.value (.mistyped name))
    | .foreign name => throw (.value (.mistyped name))
    | .refusing name _ => throw (.value (.mistyped name))

/-- Reads a value nested at most `budget - 1` scopes deep. -/
def readWithin (table : Table) : (budget : Nat) → (type : Ty) → Read Datum
  | 0, _ => Reader.fail .tooDeep
  | budget + 1, type => readWith table (readWithin table budget) type

/-- Reads a value. -/
def read (table : Table) (type : Ty) : Read Datum := table.readWithin (maxDepth + 1) type

end Table

/-! ## 6. Adapters -/

/-- The adapter of a type: the type with the rules by which it was resolved. -/
structure Adapter where
  table : Table
  type : Ty
  deriving Repr

namespace Adapter

/-- Whether a value is absent. -/
def isAbsent (adapter : Adapter) (datum : Datum) : Bool :=
  adapter.table.isAbsent datum adapter.type

/-- The value that stands for missing data. -/
def absent (adapter : Adapter) : Except Error Datum := adapter.table.absent adapter.type

/-- The token that announces a value. -/
def token (adapter : Adapter) (datum : Datum) : Except Error Token :=
  adapter.table.token datum adapter.type

/-- Writes a value. -/
def write (adapter : Adapter) (datum : Datum) : Write Unit :=
  adapter.table.write datum adapter.type

/-- Writes a value under a name, or nothing if the value is absent. -/
def writeEntry (adapter : Adapter) (name : String) (datum : Datum) : Write Unit :=
  if adapter.isAbsent datum then pure ()
  else do
    adapter.table.writeName name datum adapter.type
    adapter.write datum

/-- Reads a value. -/
def read (adapter : Adapter) : Read Datum := adapter.table.read adapter.type

/-- Whether values can be spread as fields. -/
def isObject (adapter : Adapter) : Bool := adapter.table.isObject adapter.type

/-- Writes the fields of an object value into the open object. -/
def writeFields (adapter : Adapter) (datum : Datum) : Write Unit :=
  adapter.table.writeFields datum adapter.type

/-- A value as a whole stream. -/
def encode (adapter : Adapter) (datum : Datum) : Except Error Bytes :=
  Writer.toBytes (adapter.write datum)

/-- Reads a value that is a whole stream. -/
def readAll (adapter : Adapter) : Read Datum := do
  let datum ← adapter.read
  discard Reader.finish
  return datum

/-- The value of a whole stream. -/
def decode (adapter : Adapter) (bytes : Bytes) : Except Error Datum :=
  Reader.onBytes adapter.readAll bytes

end Adapter

end RemoteCall
