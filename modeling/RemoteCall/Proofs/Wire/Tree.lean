/-
# The wire grammar

A stream is a sequence of values.  The derivation of one value is a `Tree`, with one constructor
for each production of the grammar; `Tree.tag` and `Tree.payload` are the bytes it derives.

    value   ::=  0x01  eight bytes, a signed word in two's complement
              |  0x02  size in four bytes, that many bytes of UTF-8
              |  0x03  0x00 or 0x01
              |  0x04  value*  0x05
              |  0x06  entry*  0x07
    entry   ::=  the value's tag, size of the name in two bytes, name in UTF-8, the value's payload
    stream  ::=  value*  and then the end of the bytes, or 0x00 and anything

Numbers have the most significant byte first.  The tag of an entry's value stands before the name,
so tag and payload of a value are kept apart.  Whether the values of a tree fit the nesting limit
is a matter of its `depth`; every other side condition of the grammar is carried by the types.

`Tree.value` is the meaning of a tree: of several entries of one name the last one stands.
-/
import RemoteCall.Proofs.Bytes
import RemoteCall.Value

namespace RemoteCall.Wire

/-! ## 1. Texts with their size -/

/-- A text whose size in bytes can be written in `width` bytes. -/
structure SizedText (width : Nat) where
  text : String
  fits : text.utf8ByteSize < 256 ^ width

/-- The size of a text and then its UTF-8 form. -/
def SizedText.bytes {width : Nat} (sized : SizedText width) : Bytes :=
  Bytes.bigEndian width sized.text.utf8ByteSize ++ Bytes.ofString sized.text

/-! ## 2. Trees -/

/-- A derivation of one value. -/
inductive Tree where
  | number (n : Int64)
  | string (text : SizedText 4)
  | boolean (b : Bool)
  | array (items : List Tree)
  | object (entries : List (SizedText 2 × Tree))

namespace Tree

/-- The kind of value derived. -/
def token : Tree → Token
  | number _ => .number
  | string _ => .string
  | boolean _ => .boolean
  | array _ => .beginArray
  | object _ => .beginObject

/-- The byte that a value starts with. -/
def tag : Tree → UInt8
  | number _ => 0x01
  | string _ => 0x02
  | boolean _ => 0x03
  | array _ => 0x04
  | object _ => 0x06

@[simp] theorem tag_token (tree : Tree) : tree.token.tag = tree.tag := by
  cases tree <;> rfl

@[simp] theorem startsValue_token (tree : Tree) : tree.token.startsValue = true := by
  cases tree <;> rfl

/-- The word of a number. -/
def number? : Tree → Option Int64
  | number n => some n
  | _ => none

/-- The text of a string. -/
def text? : Tree → Option String
  | string text => some text.text
  | _ => none

/-- The truth value of a boolean. -/
def bool? : Tree → Option Bool
  | boolean b => some b
  | _ => none

/-- The values in an array. -/
def items? : Tree → Option (List Tree)
  | array items => some items
  | _ => none

/-- The entries of an object. -/
def entries? : Tree → Option (List (SizedText 2 × Tree))
  | object entries => some entries
  | _ => none

mutual

/-- The bytes after the tag, and in an object after the name. -/
def payload : Tree → Bytes
  | number n => Bytes.ofInt64 n
  | string text => text.bytes
  | boolean b => [if b then 0x01 else 0x00]
  | array items => itemsBytes items ++ [0x05]
  | object entries => entriesBytes entries ++ [0x07]

/-- Values one after the other. -/
def itemsBytes : List Tree → Bytes
  | [] => []
  | item :: items => (item.tag :: item.payload) ++ itemsBytes items

/-- Entries one after the other. -/
def entriesBytes : List (SizedText 2 × Tree) → Bytes
  | [] => []
  | (name, tree) :: entries => (tree.tag :: (name.bytes ++ tree.payload)) ++ entriesBytes entries

end

/-- A value that stands outside of an object. -/
def bytes (tree : Tree) : Bytes := tree.tag :: tree.payload

mutual

/-- How deep arrays and objects are nested. -/
def depth : Tree → Nat
  | array items => itemsDepth items + 1
  | object entries => entriesDepth entries + 1
  | _ => 0

/-- The greatest depth among values. -/
def itemsDepth : List Tree → Nat
  | [] => 0
  | item :: items => max item.depth (itemsDepth items)

/-- The greatest depth among the values of entries. -/
def entriesDepth : List (SizedText 2 × Tree) → Nat
  | [] => 0
  | (_, tree) :: entries => max tree.depth (entriesDepth entries)

end

theorem itemsDepth_le_iff {n : Nat} : ∀ {items : List Tree},
    itemsDepth items ≤ n ↔ ∀ item ∈ items, item.depth ≤ n
  | [] => by simp [itemsDepth]
  | item :: items => by
    simp only [itemsDepth, Nat.max_le, itemsDepth_le_iff, List.forall_mem_cons]

theorem entriesDepth_le_iff {n : Nat} : ∀ {entries : List (SizedText 2 × Tree)},
    entriesDepth entries ≤ n ↔ ∀ entry ∈ entries, entry.2.depth ≤ n
  | [] => by simp [entriesDepth]
  | (_, tree) :: entries => by
    simp only [entriesDepth, Nat.max_le, entriesDepth_le_iff, List.forall_mem_cons]

/-! ## 3. Meaning -/

mutual

/-- The value derived.  Of several entries of one name the last one stands. -/
def value : Tree → Value
  | number n => .integer n.toInt
  | string text => .string text.text
  | boolean b => .bool b
  | array items => .array (itemValues items)
  | object entries => .object (Fields.ofList (entryValues entries))

/-- The values derived one after the other. -/
def itemValues : List Tree → List Value
  | [] => []
  | item :: items => item.value :: itemValues items

/-- The named values derived one after the other. -/
def entryValues : List (SizedText 2 × Tree) → List (String × Value)
  | [] => []
  | (name, tree) :: entries => (name.text, tree.value) :: entryValues entries

end

theorem itemValues_eq_map : ∀ items : List Tree, itemValues items = items.map value
  | [] => rfl
  | item :: items => by rw [itemValues, itemValues_eq_map items, List.map_cons]

theorem entryValues_eq_map : ∀ entries : List (SizedText 2 × Tree),
    entryValues entries = entries.map fun entry => (entry.1.text, entry.2.value)
  | [] => rfl
  | (name, tree) :: entries => by rw [entryValues, entryValues_eq_map entries, List.map_cons]

end Tree

/-! ## 4. What stands in a scope

Outside of an object a value stands alone; inside one it stands in an entry, with a name.  A reader
treats both alike but for the name, so both are elements. -/

/-- A value with or without a name. -/
class Element (ε : Type) where
  /-- The name, inside an object. -/
  name? : ε → Option (SizedText 2)
  /-- The value. -/
  tree : ε → Tree

instance : Element Tree := ⟨fun _ => none, id⟩

instance : Element (SizedText 2 × Tree) := ⟨fun entry => some entry.1, Prod.snd⟩

namespace Element

variable {ε : Type} [Element ε]

/-- The bytes of a name, if there is one. -/
def nameBytes : Option (SizedText 2) → Bytes
  | none => []
  | some name => name.bytes

/-- The bytes of an element. -/
def bytes (element : ε) : Bytes :=
  (tree element).tag :: (nameBytes (name? element) ++ (tree element).payload)

theorem bytes_tree (tree : Tree) : bytes tree = tree.bytes := rfl

theorem bytes_entry (entry : SizedText 2 × Tree) :
    bytes entry = entry.2.tag :: (entry.1.bytes ++ entry.2.payload) := rfl

end Element

theorem Tree.itemsBytes_eq_flatMap : ∀ items : List Tree,
    itemsBytes items = items.flatMap bytes
  | [] => rfl
  | item :: items => by
    rw [itemsBytes, itemsBytes_eq_flatMap items, List.flatMap_cons, Tree.bytes]

theorem Tree.entriesBytes_eq_flatMap : ∀ entries : List (SizedText 2 × Tree),
    entriesBytes entries = entries.flatMap Element.bytes
  | [] => rfl
  | (name, tree) :: entries => by
    rw [entriesBytes, entriesBytes_eq_flatMap entries, List.flatMap_cons, Element.bytes_entry]

/-! ## 5. Room for nesting -/

/-- How many more scopes may be opened. -/
def room (scopes : List Scope) : Nat := maxDepth - scopes.length

theorem room_le (scopes : List Scope) : room scopes ≤ maxDepth := Nat.sub_le _ _

theorem succ_le_room_iff {scopes : List Scope} {scope : Scope} {depth : Nat} :
    depth + 1 ≤ room scopes ↔ scopes.length < maxDepth ∧ depth ≤ room (scope :: scopes) := by
  simp only [room, List.length_cons]
  omega

/-- A scope that may still be opened leaves less room inside. -/
theorem room_cons_lt {scopes : List Scope} {scope : Scope} {budget : Nat}
    (hroom : scopes.length < maxDepth) (h : room scopes < budget + 1) :
    room (scope :: scopes) < budget := by
  simp only [room, List.length_cons] at h ⊢
  omega

/-! ## 6. Values that are scopes

An array and an object are written, read and measured alike: what differs is the scope, its opening
token and whether the elements have names. -/

/-- `gather` makes one value of the elements of a scope. -/
structure Gathers {ε : Type} [Element ε] (scope : Scope) (opening : Token)
    (gather : List ε → Tree) : Prop where
  /-- The elements have names exactly if the scope is an object. -/
  named : ∀ element : ε, (Element.name? element).isSome ↔ scope = .object
  token : ∀ elements, (gather elements).token = opening
  payload : ∀ elements,
    (gather elements).payload = elements.flatMap Element.bytes ++ [scope.closing.tag]
  /-- The scope takes one level of nesting, and its elements have to fit inside. -/
  depth_le_room_iff : ∀ {elements : List ε} {scopes : List Scope},
    (gather elements).depth ≤ room scopes ↔ scopes.length < maxDepth ∧
      ∀ element ∈ elements, (Element.tree element).depth ≤ room (scope :: scopes)

theorem gathers_array : Gathers .array .beginArray Tree.array where
  named _ := by simp [Element.name?]
  token _ := rfl
  payload items := by
    rw [Tree.payload, Tree.itemsBytes_eq_flatMap]
    rfl
  depth_le_room_iff := by
    intro items scopes
    rw [Tree.depth, succ_le_room_iff, Tree.itemsDepth_le_iff]
    rfl

theorem gathers_object : Gathers .object .beginObject Tree.object where
  named _ := by simp [Element.name?]
  token _ := rfl
  payload entries := by
    rw [Tree.payload, Tree.entriesBytes_eq_flatMap]
    rfl
  depth_le_room_iff := by
    intro entries scopes
    rw [Tree.depth, succ_le_room_iff, Tree.entriesDepth_le_iff]
    rfl

/-! ## 7. The end of a stream -/

/-- What may follow the values of a stream: nothing, or the terminator and any bytes. -/
def EndsStream (tail : Bytes) : Prop := tail = [] ∨ ∃ rest, tail = 0x00 :: rest

end RemoteCall.Wire
