/-
# How adapters are put together

A registry keeps the rule of each type and looks up the types that a rule leads to when the rule is
used.  A workshop keeps the adapters themselves.  An adapter here is a `Piece`: its rule together
with the adapters that it calls on, which were at hand when it was made.

The adapter of a type that refers to itself is asked for before it is finished.  Whoever asks gets a
placeholder, which refers to a cell.  The cell is opened when the construction of an adapter begins.
If that succeeds the cell is filled, once and for all, and from then on the placeholder hands every
operation on to the finished adapter.  If it fails the cell is abandoned: it stays empty, and every
use of the placeholder fails.  What has been finished meanwhile may hold that placeholder, so it is
thrown away.
-/
import RemoteCall.Typed.Registry

namespace RemoteCall

open Wire

/-! ## 1. Pieces and cells -/

mutual

/-- How an adapter is held by those that call on it. -/
inductive Handle where
  | direct (piece : Piece)
  /-- Stands for the adapter that is built in a cell. -/
  | placeholder (cell : Nat)

/-- An adapter: its rule, and the adapters that it calls on. -/
structure Piece where
  rule : Rule
  held : List Handle

end

/-- Where the adapter of a type is built. -/
structure Cell where
  type : Ty
  piece : Option Piece

namespace Handle

/-- The finished adapter that a handle stands for. -/
def piece? (cells : List Cell) : Handle → Option Piece
  | direct piece => some piece
  | placeholder cell => cells[cell]?.bind (·.piece)

/-! ## 2. What a handle does -/

/-- Whether a value is absent. -/
def isAbsent (cells : List Cell) : (datum : Datum) → (type : Ty) → (handle : Handle) → Bool
  | datum, type, handle =>
    match handle.piece? cells with
    | none => false
    | some ⟨.custom rule, _⟩ => rule.isAbsent datum
    | some ⟨_, held⟩ =>
      match type, datum, held with
      | .unit, _, _ => true
      | .value, .value value, _ => value.isNull
      | .option _, .none, _ => true
      | .option inner, .some datum, [handle] => isAbsent cells datum inner handle
      | _, _, _ => false

/-- The value that stands for missing data. -/
def absent (cells : List Cell) (type : Ty) (handle : Handle) : Except Error Datum :=
  match handle.piece? cells with
  | none => .error (.value (.unresolved type.name))
  | some ⟨.custom rule, _⟩ => rule.absent type
  | some _ =>
    match type with
    | .unit => .ok .unit
    | .option _ => .ok .none
    | .value => .ok (.value .null)
    | _ => .error (.value (.missing type.name))

/-- The token that announces a value. -/
def token (cells : List Cell) : (datum : Datum) → (type : Ty) → (handle : Handle) →
    Except Error Token
  | datum, type, handle =>
    match handle.piece? cells with
    | none => .error (.value (.unresolved type.name))
    | some ⟨.custom rule, _⟩ => .ok rule.token
    | some ⟨_, held⟩ =>
      match type, datum, held with
      | .integer _, _, _ => .ok .number
      | .bool, _, _ => .ok .boolean
      | .string, _, _ => .ok .string
      | .unit, _, _ => .error (.value .unitValue)
      | .instant, _, _ => .ok .number
      | .value, .value value, _ => value.token
      | .option _, .none, _ => .error (.value .noneToken)
      | .option inner, .some datum, [handle] => token cells datum inner handle
      | .list _, _, _ => .ok .beginArray
      | .map _ _, _, _ => .ok .beginObject
      | .model _, _, _ => .ok .beginObject
      | _, _, _ => .error (.value (.mistyped type.name))

/-- Writes the name of an entry whose value follows. -/
def writeName (cells : List Cell) (name : String) (datum : Datum) (type : Ty) (handle : Handle) :
    Write Unit :=
  match handle.token cells datum type with
  | .ok token => Writer.writeName name token
  | .error error => throw error

mutual

/-- Writes a value. -/
def write (cells : List Cell) : (datum : Datum) → (type : Ty) → (handle : Handle) → Write Unit
  | datum, type, handle =>
    match handle.piece? cells with
    | none => throw (.value (.unresolved type.name))
    | some ⟨.custom rule, _⟩ => rule.write type datum
    | some ⟨rule, held⟩ =>
      match datum with
      | .integer n =>
        match type with
        | .integer width =>
          match Value.toInt64? n with
          | some word => Writer.writeNumber word
          | none => throw (.value (.unfit width.name))
        | _ => throw (.value (.mistyped type.name))
      | .bool b =>
        match type with
        | .bool => Writer.writeBool b
        | _ => throw (.value (.mistyped type.name))
      | .string text =>
        match type with
        | .string => Writer.writeString text
        | _ => throw (.value (.mistyped type.name))
      | .unit => throw (.value .unitValue)
      | .instant nanoseconds =>
        match type, Instant.toSeconds nanoseconds with
        | .instant, .ok seconds => Writer.writeNumber seconds
        | .instant, .error error => throw error
        | _, _ => throw (.value (.mistyped type.name))
      | .value value =>
        match type with
        | .value => value.write
        | _ => throw (.value (.mistyped type.name))
      | .none => throw (.value .noneValue)
      | .some datum =>
        match type, held with
        | .option inner, [handle] => write cells datum inner handle
        | _, _ => throw (.value (.mistyped type.name))
      | .list items =>
        match type, held with
        | .list element, [handle] => do
          Writer.beginArray
          writeItems cells items element handle
          Writer.endArray
        | _, _ => throw (.value (.mistyped type.name))
      | .map entries =>
        match type, held with
        | .map _ element, [handle] => do
          Writer.beginObject
          writeEntries cells entries element handle
          Writer.endObject
        | _, _ => throw (.value (.mistyped type.name))
      | .record values =>
        match rule with
        | .members members => do
          Writer.beginObject
          writeMembers cells values members held
          Writer.endObject
        | _ => throw (.value (.mistyped type.name))

/-- Writes the elements of a list, none of which may be absent. -/
def writeItems (cells : List Cell) : (items : List Datum) → (element : Ty) → (handle : Handle) →
    Write Unit
  | [], _, _ => pure ()
  | item :: items, element, handle =>
    if handle.isAbsent cells item element then
      throw (.value (.absentElement element.name))
    else do
      write cells item element handle
      writeItems cells items element handle

/-- Writes the entries of a map that are not absent into the open object. -/
def writeEntries (cells : List Cell) : (entries : List (String × Datum)) → (element : Ty) →
    (handle : Handle) → Write Unit
  | [], _, _ => pure ()
  | (name, datum) :: entries, element, handle => do
    if handle.isAbsent cells datum element then
      pure ()
    else
      handle.writeName cells name datum element
      write cells datum element handle
    writeEntries cells entries element handle

/-- Writes the members of a record that are not absent into the open object. -/
def writeMembers (cells : List Cell) : (values : List Datum) → (members : List Member) →
    (held : List Handle) → Write Unit
  | datum :: values, member :: members, handle :: held => do
    if handle.isAbsent cells datum member.type then
      pure ()
    else
      handle.writeName cells member.wireName datum member.type
      write cells datum member.type handle
    writeMembers cells values members held
  | _, _, _ => pure ()

end

/-- Whether the values of a type can be spread as fields. -/
def isObject (cells : List Cell) (type : Ty) (handle : Handle) : Bool :=
  match handle.piece? cells, type with
  | some ⟨.structural, _⟩, .map _ _ => true
  | some ⟨.structural, _⟩, .value => true
  | some ⟨.members _, _⟩, _ => true
  | _, _ => false

/-- Writes the fields of an object value into the open object. -/
def writeFields (cells : List Cell) (datum : Datum) (type : Ty) (handle : Handle) : Write Unit :=
  match handle.piece? cells with
  | none => throw (.value (.unresolved type.name))
  | some ⟨.custom _, _⟩ => throw (.noFields type.name)
  | some ⟨.members members, held⟩ =>
    match datum with
    | .record values => writeMembers cells values members held
    | _ => throw (.value (.mistyped type.name))
  | some ⟨.structural, held⟩ =>
    match type, datum, held with
    | .map _ element, .map entries, [handle] => writeEntries cells entries element handle
    | .value, .value (.object fields), _ => Value.writeFields fields
    | .value, .value value, _ => throw (.value (.notInlined value.kind))
    | _, _, _ => throw (.noFields type.name)

/-- Puts the value of a member in its place in a record. -/
def readMember (read : Ty → Handle → Read Datum) (members : List Member) (held : List Handle)
    (values : List Datum) : Read (List Datum) := do
  let name ← Reader.nextName
  match members.findIdx? (·.wireName == name) with
  | some index =>
    match members[index]?, held[index]? with
    | some member, some handle => return values.set index (← read member.type handle)
    | _, _ => return values
  | none =>
    Reader.skip
    return values

/-- Reads a value, and the values inside of an array or object with `inside`. -/
def readWith (cells : List Cell) (inside : Ty → Handle → Read Datum) : (type : Ty) →
    (handle : Handle) → Read Datum
  | type, handle =>
    match handle.piece? cells with
    | none => throw (.value (.unresolved type.name))
    | some ⟨.custom rule, _⟩ => rule.read
    | some ⟨.members members, held⟩ => do
      Reader.beginObject
      let values ← Reader.untilEnd (readMember inside members held) (members.map (·.default))
      Reader.endObject
      return .record values
    | some ⟨.structural, held⟩ =>
      match type, held with
      | .integer width, _ => Table.readInteger width
      | .bool, _ => do return .bool (← Reader.readBool)
      | .string, _ => do return .string (← Reader.readString)
      | .unit, _ => do
        Reader.skip
        return .unit
      | .instant, _ => Table.readInstant
      | .value, _ => do return .value (← Value.read)
      | .option inner, [handle] => do return .some (← readWith cells inside inner handle)
      | .list element, [handle] => do
        Reader.beginArray
        let items ← Reader.items (inside element handle)
        Reader.endArray
        return .list items
      | .map _ element, [handle] => do
        Reader.beginObject
        let entries ← Reader.untilEnd (fun (entries : Fields Datum) => do
          let name ← Reader.nextName
          let datum ← inside element handle
          return entries.insert name datum) []
        Reader.endObject
        return .map entries
      | _, _ => throw (.value (.mistyped type.name))

/-- Reads a value nested at most `budget - 1` scopes deep. -/
def readWithin (cells : List Cell) : (budget : Nat) → (type : Ty) → (handle : Handle) → Read Datum
  | 0, _, _ => Reader.fail .tooDeep
  | budget + 1, type, handle => readWith cells (readWithin cells budget) type handle

/-- Reads a value. -/
def read (cells : List Cell) (type : Ty) (handle : Handle) : Read Datum :=
  handle.readWithin cells (maxDepth + 1) type

end Handle

/-! ## 3. Building -/

/-- A construction under way: all cells, and the adapters that have been finished for it. -/
structure Build where
  cells : List Cell
  staged : List (Ty × Piece)

/-- The finished adapters together with what building depends on. -/
structure Workshop where
  catalog : Catalog
  factories : List Factory
  cache : List (Ty × Piece)
  cells : List Cell

/-- The rules of adapters. -/
def rules (pieces : List (Ty × Piece)) : Table := pieces.map fun entry => (entry.1, entry.2.rule)

namespace Workshop

/-- A workshop in which nothing has been built. -/
def new (catalog : Catalog) (factories : List Factory) : Workshop := ⟨catalog, factories, [], []⟩

/-- What has been resolved, without the adapters. -/
def registry (workshop : Workshop) : Registry :=
  ⟨workshop.catalog, workshop.factories, rules workshop.cache⟩

/-- Hands out the adapter of a type. -/
abbrev Supply := Ty → EStateM TypeFault Build Handle

/-- The adapter that a type itself says to have. -/
def ownPiece (catalog : Catalog) (supply : Supply) (type : Ty) :
    EStateM TypeFault Build Piece :=
  match type with
  | .option inner => do return ⟨.structural, [← supply inner]⟩
  | .list element => do return ⟨.structural, [← supply element]⟩
  | .map _ element => do return ⟨.structural, [← supply element]⟩
  | .model name =>
    match catalog.lookup name with
    | none => throw (.unregistered name)
    | some members => do
      let held ← members.mapM fun member => supply member.type
      match Registry.sharedName? name members with
      | some fault => throw fault
      | none => return ⟨.members members, held⟩
  | .foreign name => throw (.unregistered name)
  | .refusing _ reason => throw (.refused reason)
  | _ => return ⟨.structural, []⟩

/-- The adapter of a type: that of the first factory that answers, or its own. -/
def pieceOf (catalog : Catalog) (supply : Supply) (type : Ty) :
    List Factory → EStateM TypeFault Build Piece
  | [] => ownPiece catalog supply type
  | .declining :: rest => pieceOf catalog supply type rest
  | .exact target rule :: rest =>
    if target = type then return ⟨.custom rule, []⟩
    else pieceOf catalog supply type rest
  | .through target via answer :: rest =>
    if target = type then do
      match ← observing (supply via) with
      | .error _ => pieceOf catalog supply type rest
      | .ok handle =>
        match answer with
        | some rule => return ⟨.custom rule, [handle]⟩
        | none => throw (.foreign type.name)
    else
      pieceOf catalog supply type rest

/-- Builds the adapter of a type in a new cell, which is at hand for whoever asks for the type
meanwhile.  A failure undoes what was staged for it. -/
def construct (workshop : Workshop) (supply : (cell : Nat) → Supply) (type : Ty) :
    EStateM TypeFault Build Handle := do
  let build ← get
  let cell := build.cells.length
  modify fun build => { build with cells := build.cells ++ [⟨type, none⟩] }
  match ← observing (pieceOf workshop.catalog (supply cell) type workshop.factories) with
  | .ok piece =>
    modify fun build =>
      ⟨build.cells.set cell ⟨type, some piece⟩, build.staged ++ [(type, piece)]⟩
    return .direct piece
  | .error fault =>
    modify fun failed => { failed with staged := failed.staged.take build.staged.length }
    throw fault

/-- Supplies the adapter of a type while those of `pending` types are being built in their cells. -/
def supply (workshop : Workshop) : (fuel : Nat) → (pending : List (Ty × Nat)) → Supply
  | 0, _, type => throw (.unregistered type.name)
  | fuel + 1, pending, type => do
    let build ← get
    match workshop.cache.lookup type, pending.lookup type, build.staged.lookup type with
    | some piece, _, _ => return .direct piece
    | none, some cell, _ => return .placeholder cell
    | none, none, some piece => return .direct piece
    | none, none, none =>
      workshop.construct (fun cell => supply workshop fuel ((type, cell) :: pending)) type

/-- The adapter of a type.  The cache gains what was built for it, or nothing if that fails. -/
def adapter (type : Ty) : EStateM TypeFault Workshop Handle := do
  let workshop ← get
  let build : Build := ⟨workshop.cells, []⟩
  match (workshop.supply (workshop.registry.reach type + 1) [] type).run build with
  | .ok handle build =>
    set { workshop with cache := workshop.cache ++ build.staged, cells := build.cells }
    return handle
  | .error fault build =>
    set { workshop with cells := build.cells }
    throw fault

end Workshop

end RemoteCall
