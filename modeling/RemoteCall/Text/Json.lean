/-
# Reading JSON text

`Json.parse?` reads strict JSON: one value with blanks around it and nothing else, no comments, no
trailing commas, no leading zeros, no raw control characters in strings.  Numbers keep their
spelling, because whether a number is written as an integer matters to those who read it, and
objects keep their fields in order and with repetitions.

The escapes of a string may name halves of surrogate pairs that do not meet their other half.  Such
a string is well formed but spells no text.
-/
import RemoteCall.Text.Hex

namespace RemoteCall

/-- A JSON value as it is written. -/
inductive Json where
  | null
  | bool (b : Bool)
  | number (literal : String)
  /-- A string; `none` if its escapes spell no text. -/
  | string (text : Option String)
  | array (items : List Json)
  | object (fields : List (Option String × Json))
  deriving Repr, Inhabited, BEq

namespace Json

/-! ## 1. Strings -/

/-- The number that hexadecimal digits spell. -/
def hexNumber? (digits : List Char) : Option Nat :=
  digits.foldlM (fun n c => (Hex.value? c).map (16 * n + ·)) 0

/-- The character of an escape of one letter. -/
def escape? : Char → Option Char
  | '"' => some '"'
  | '\\' => some '\\'
  | '/' => some '/'
  | 'b' => some '\x08'
  | 'f' => some '\x0c'
  | 'n' => some '\n'
  | 'r' => some '\r'
  | 't' => some '\t'
  | _ => none

/-- Reads a string after its opening quote.  `half` is the first half of a surrogate pair read just
before; `spelled` holds the characters so far, last first, while they spell a text. -/
def scanString (half : Option Nat) (spelled : Option (List Char)) :
    List Char → Option (Option String × List Char)
  | [] => none
  | '"' :: rest =>
    let spelled := if half.isSome then none else spelled
    some (spelled.map fun reversed => String.ofList reversed.reverse, rest)
  | '\\' :: 'u' :: a :: b :: c :: d :: rest =>
    match hexNumber? [a, b, c, d] with
    | none => none
    | some unit =>
      if 0xD800 ≤ unit ∧ unit < 0xDC00 then
        scanString (some unit) (if half.isSome then none else spelled) rest
      else if 0xDC00 ≤ unit ∧ unit < 0xE000 then
        match half with
        | some first =>
          let code := 0x10000 + (first - 0xD800) * 0x400 + (unit - 0xDC00)
          scanString none (spelled.map (Char.ofNat code :: ·)) rest
        | none => scanString none none rest
      else
        let spelled := if half.isSome then none else spelled
        scanString none (spelled.map (Char.ofNat unit :: ·)) rest
  | '\\' :: letter :: rest =>
    match escape? letter with
    | none => none
    | some c =>
      let spelled := if half.isSome then none else spelled
      scanString none (spelled.map (c :: ·)) rest
  | c :: rest =>
    if c < ' ' then none
    else
      let spelled := if half.isSome then none else spelled
      scanString none (spelled.map (c :: ·)) rest

/-! ## 2. Numbers -/

/-- Splits off the longest run of decimal digits. -/
def digits (cs : List Char) : List Char × List Char := cs.span Char.isDigit

/-- Splits off digits of which there must be one. -/
def digits1? (cs : List Char) : Option (List Char × List Char) :=
  match digits cs with
  | ([], _) => none
  | split => some split

/-- Splits off an optional fraction. -/
def fraction? : List Char → Option (List Char × List Char)
  | '.' :: rest => (digits1? rest).map fun (ds, rest) => ('.' :: ds, rest)
  | cs => some ([], cs)

/-- Splits off an optional exponent. -/
def exponent? : List Char → Option (List Char × List Char)
  | [] => some ([], [])
  | e :: rest =>
    if e = 'e' ∨ e = 'E' then
      match rest with
      | '+' :: rest => (digits1? rest).map fun (ds, rest) => (e :: '+' :: ds, rest)
      | '-' :: rest => (digits1? rest).map fun (ds, rest) => (e :: '-' :: ds, rest)
      | rest => (digits1? rest).map fun (ds, rest) => (e :: ds, rest)
    else
      some ([], e :: rest)

/-- Splits off the digits before the point: a zero alone or digits that do not start with one. -/
def whole? : List Char → Option (List Char × List Char)
  | '0' :: rest => some (['0'], rest)
  | cs => digits1? cs

/-- Splits off a number. -/
def number? (cs : List Char) : Option (List Char × List Char) := do
  let (sign, cs) := match cs with
    | '-' :: cs => (['-'], cs)
    | cs => ([], cs)
  let (whole, cs) ← whole? cs
  let (fraction, cs) ← fraction? cs
  let (exponent, cs) ← exponent? cs
  return (sign ++ whole ++ fraction ++ exponent, cs)

/-- The integer that a number literal spells.  A literal with a fraction or an exponent spells
none, nor does a negative zero. -/
def integer? (literal : String) : Option Int :=
  if literal == "-0" then none else literal.toInt?

/-! ## 3. Values -/

/-- Skips blanks. -/
def skipBlanks (cs : List Char) : List Char :=
  cs.dropWhile fun c => c == ' ' || c == '\n' || c == '\t' || c == '\r'

mutual

/-- Reads a value that blanks may precede. -/
def scanValue : (fuel : Nat) → List Char → Option (Json × List Char)
  | 0, _ => none
  | fuel + 1, cs =>
    match skipBlanks cs with
    | 'n' :: 'u' :: 'l' :: 'l' :: rest => some (.null, rest)
    | 't' :: 'r' :: 'u' :: 'e' :: rest => some (.bool true, rest)
    | 'f' :: 'a' :: 'l' :: 's' :: 'e' :: rest => some (.bool false, rest)
    | '"' :: rest => (scanString none (some []) rest).map fun (text, rest) => (.string text, rest)
    | '[' :: rest =>
      match skipBlanks rest with
      | ']' :: rest => some (.array [], rest)
      | rest => scanItems fuel [] rest
    | '{' :: rest =>
      match skipBlanks rest with
      | '}' :: rest => some (.object [], rest)
      | rest => scanFields fuel [] rest
    | cs => (number? cs).map fun (literal, rest) => (.number (String.ofList literal), rest)

/-- Reads the items of an array up to its end; `done` holds those before, last first. -/
def scanItems : (fuel : Nat) → (done : List Json) → List Char → Option (Json × List Char)
  | 0, _, _ => none
  | fuel + 1, done, cs =>
    match scanValue fuel cs with
    | none => none
    | some (item, rest) =>
      match skipBlanks rest with
      | ',' :: rest => scanItems fuel (item :: done) rest
      | ']' :: rest => some (.array (item :: done).reverse, rest)
      | _ => none

/-- Reads the fields of an object up to its end; `done` holds those before, last first. -/
def scanFields : (fuel : Nat) → (done : List (Option String × Json)) → List Char →
    Option (Json × List Char)
  | 0, _, _ => none
  | fuel + 1, done, cs =>
    match skipBlanks cs with
    | '"' :: rest =>
      match scanString none (some []) rest with
      | none => none
      | some (name, rest) =>
        match skipBlanks rest with
        | ':' :: rest =>
          match scanValue fuel rest with
          | none => none
          | some (value, rest) =>
            match skipBlanks rest with
            | ',' :: rest => scanFields fuel ((name, value) :: done) rest
            | '}' :: rest => some (.object ((name, value) :: done).reverse, rest)
            | _ => none
        | _ => none
    | _ => none

end

/-- The value that a text spells.  Every second step of the reader takes a character, so twice the
length of the text is fuel enough. -/
def parse? (text : String) : Option Json :=
  let cs := text.toList
  match scanValue (2 * cs.length + 2) cs with
  | some (value, rest) => if (skipBlanks rest).isEmpty then some value else none
  | none => none

end Json

end RemoteCall
