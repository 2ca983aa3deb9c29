/-
# The tag alphabet

Every value on the wire starts with one tag byte.  Scalars carry a payload after the tag: eight
bytes for a number, a length and UTF-8 bytes for a string, one byte for a boolean.  The boundaries
of arrays and objects, and the end of the stream, carry none.
-/

namespace RemoteCall.Wire

/-- The kinds of tag. -/
inductive Token where
  | number
  | string
  | boolean
  | beginArray
  | endArray
  | beginObject
  | endObject
  | endOfStream
  deriving DecidableEq, Repr, Inhabited

namespace Token

/-- The tag byte of a token. -/
def tag : Token → UInt8
  | endOfStream => 0
  | number => 1
  | string => 2
  | boolean => 3
  | beginArray => 4
  | endArray => 5
  | beginObject => 6
  | endObject => 7

/-- The token of a tag byte. -/
def ofTag? (byte : UInt8) : Option Token :=
  if byte = 0 then some endOfStream
  else if byte = 1 then some number
  else if byte = 2 then some string
  else if byte = 3 then some boolean
  else if byte = 4 then some beginArray
  else if byte = 5 then some endArray
  else if byte = 6 then some beginObject
  else if byte = 7 then some endObject
  else none

/-- Whether a value starts with the token: scalars and opening boundaries. -/
def startsValue : Token → Bool
  | number | string | boolean | beginArray | beginObject => true
  | endArray | endObject | endOfStream => false

/-- The token as messages name it. -/
def name : Token → String
  | number => "NUMBER"
  | string => "STRING"
  | boolean => "BOOLEAN"
  | beginArray => "BEGIN_ARRAY"
  | endArray => "END_ARRAY"
  | beginObject => "BEGIN_OBJECT"
  | endObject => "END_OBJECT"
  | endOfStream => "END_OF_STREAM"

/-- All tokens, by tag. -/
def all : List Token :=
  [endOfStream, number, string, boolean, beginArray, endArray, beginObject, endObject]

/-- The token that messages name so. -/
def ofName? (text : String) : Option Token := all.find? (·.name == text)

@[simp] theorem ofTag?_tag (token : Token) : ofTag? token.tag = some token := by
  cases token <;> rfl

theorem tag_of_ofTag? {byte : UInt8} {token : Token} (h : ofTag? byte = some token) :
    token.tag = byte := by
  unfold ofTag? at h
  repeat' split at h
  all_goals first | (cases h; simp_all [tag]) | cases h

end Token

/-- What a reader or writer stands inside of, when it is not at top level. -/
inductive Scope where
  | array
  | object
  deriving DecidableEq, Repr

/-- The scope as messages name it. -/
def Scope.name : Scope → String
  | .array => "array"
  | .object => "object"

/-- The token that closes a scope. -/
def Scope.closing : Scope → Token
  | .array => .endArray
  | .object => .endObject

/-- The deepest nesting of arrays and objects that is read or written. -/
def maxDepth : Nat := 512

end RemoteCall.Wire
