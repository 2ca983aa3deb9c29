/-
# Texts in quotes

A text is quoted for a description by double quotes around it.  Quotes and backslashes inside are
escaped by a backslash, line ends, tabs and NUL by a letter or digit, and the other characters that
would not show on their own by their code.
-/
import RemoteCall.Text.Visible

namespace RemoteCall.Quoted

/-- A number in hexadecimal digits. -/
def hexDigits (n : Nat) : String := String.ofList (Nat.toDigits 16 n)

/-- A character inside quotes. -/
def escape (c : Char) : String :=
  match c with
  | '"' => "\\\""
  | '\\' => "\\\\"
  | '\n' => "\\n"
  | '\r' => "\\r"
  | '\t' => "\\t"
  | '\x00' => "\\0"
  | c => if isVisible c then c.toString else "\\u\x7b" ++ hexDigits c.toNat ++ "\x7d"

/-- A text in quotes. -/
def encode (text : String) : String := "\"" ++ String.join (text.toList.map escape) ++ "\""

end RemoteCall.Quoted
