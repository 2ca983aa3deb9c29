/-
# Wire names

Members, parameters and methods are named on the wire by a name derived from their own: words
joined by underscores become one word with inner capitals.  Empty words, which leading, trailing
and doubled underscores leave, do not count, and a leading `r#` is dropped.  A name that consists of
underscores alone is its own wire name.

A binding ties a member to its wire name, derived or chosen.  The bindings of one request must have
names, and different ones.
-/
import RemoteCall.Error
import RemoteCall.Text.Uppercase

namespace RemoteCall.Naming

/-! ## 1. Deriving a name -/

/-- The words of a name: its longest runs without an underscore.  `word` holds the run under way,
last character first. -/
def wordsFrom (word : List Char) : List Char → List (List Char)
  | [] => if word.isEmpty then [] else [word.reverse]
  | c :: cs =>
    if c = '_' then
      if word.isEmpty then wordsFrom [] cs else word.reverse :: wordsFrom [] cs
    else
      wordsFrom (c :: word) cs

/-- The words of a name. -/
def words (name : List Char) : List (List Char) := wordsFrom [] name

/-- A word with its first character in upper case. -/
def capitalize : List Char → List Char
  | [] => []
  | c :: cs => Uppercase.ofChar c ++ cs

/-- A name without a leading `r#`. -/
def dropRaw : List Char → List Char
  | 'r' :: '#' :: rest => rest
  | name => name

/-- The derived name, as characters. -/
def deriveChars (member : List Char) : List Char :=
  let name := dropRaw member
  match words name with
  | [] => name
  | first :: others => first ++ (others.map capitalize).flatten

/-- The wire name derived from the name of a member, parameter or method. -/
def derive (member : String) : String := String.ofList (deriveChars member.toList)

/-! ## 2. Bindings -/

/-- A member and the wire name under which it is sent. -/
structure Binding where
  member : String
  wireName : String
  deriving DecidableEq, Repr

/-- Binds a member under its derived name. -/
def Binding.derived (member : String) : Binding := ⟨member, derive member⟩

/-- The first rule that bindings break whose predecessors use the names `seen`: every binding has a
name, and no two have the same. -/
def faultAfter (context : String) (seen : List String) : List Binding → Option CompositionFault
  | [] => none
  | binding :: rest =>
    if binding.wireName = "" then some (.namelessParameter context binding.member)
    else if binding.wireName ∈ seen then some (.repeatedName context binding.wireName)
    else faultAfter context (binding.wireName :: seen) rest

/-- The first rule that the bindings of a request break. -/
def fault? (context : String) (bindings : List Binding) : Option CompositionFault :=
  faultAfter context [] bindings

end RemoteCall.Naming
