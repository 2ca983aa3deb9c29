/-
# Socket addresses

The address of an endpoint is a host and a port with a colon between them; the last colon counts.
Opening connections is not part of the library: an address that is in order stands for an endpoint
where nothing listens.
-/
import RemoteCall.Error

namespace RemoteCall.Transport.Address

/-- The text after the last colon. -/
def port? (address : List Char) : Option (List Char) :=
  if ':' ∈ address then some (address.reverse.takeWhile (· ≠ ':')).reverse else none

/-- Whether a text is a 16-bit number: decimal digits, which a plus sign may precede. -/
def isPort (text : List Char) : Bool :=
  let digits := match text with
    | '+' :: rest => rest
    | text => text
  !digits.isEmpty && digits.all Char.isDigit
    && digits.foldl (fun n c => min (10 * n + (c.toNat - '0'.toNat)) UInt16.size) 0 < UInt16.size

/-- Why a text is not an address. -/
def fault? (address : String) : Option AddressFault :=
  match port? address.toList with
  | none => some .noPort
  | some port => if isPort port then none else some .invalidPort

/-- How connecting to an address fails. -/
def connectError (address : String) : Error :=
  match fault? address with
  | some fault => .connection (.invalidAddress address fault)
  | none => .connection (.unreachable address)

end RemoteCall.Transport.Address
