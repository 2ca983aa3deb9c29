/-
# An endpoint in memory

A loopback endpoint answers requests by the name of their method and counts what happens on its
connections.  Every opening, send and receive has a number among those of its kind; faults strike by
these numbers.  While the endpoint holds, no receive comes back except on an aborted connection.

An operation has two parts.  `enter` counts it; then, after whoever waits for that event has acted,
`perform` lets it fail or happen, or finds that it has to wait.
-/
import RemoteCall.Client.Exchange
import RemoteCall.Message.Request
import RemoteCall.Message.Response
import RemoteCall.Text.Hex

namespace RemoteCall.Client

/-- The kinds of events that are counted. -/
inductive EventKind where
  | connect
  | send
  | receive
  deriving DecidableEq, Repr

/-- The kind of an operation. -/
def Operation.event : Operation → EventKind
  | connect => .connect
  | send .. => .send
  | receive _ => .receive

/-- A failure that strikes an event by its number; zero strikes every one. -/
structure Fault where
  event : EventKind
  number : Nat
  /-- The error it fails with; without one the operation panics. -/
  error : Option Error
  deriving DecidableEq, Repr

/-- A connection as the endpoint sees it. -/
structure Link where
  conn : ConnId
  /-- The responses that have not been received yet. -/
  pending : List Bytes
  aborted : Bool
  deriving DecidableEq, Repr

/-- An endpoint in memory. -/
structure Loopback where
  connects : Nat
  sends : Nat
  receives : Nat
  links : List Link
  holding : Bool
  faults : List Fault
  /-- The requests that have come, last first. -/
  inbox : List ReceivedRequest
  deriving Repr

namespace Loopback

/-- An endpoint on which nothing has happened. -/
def new (faults : List Fault) : Loopback := ⟨0, 0, 0, [], false, faults, []⟩

/-! ## 1. Responses -/

/-- The response to a request, by the name of its method. -/
def respond (request : ReceivedRequest) : Response :=
  let parameter (name : String) : Value := (request.parameter? name).getD .null
  match request.method with
  | "echo" => .success (parameter "value")
  | "params" => .success (.object request.parameters)
  | "payloadSize" => .success (.integer request.payload.length)
  | "empty" => .empty
  | "fail" =>
    let code := match parameter "code" with
      | .integer n => (Value.toInt64? n).getD 7
      | _ => 7
    let message := match parameter "message" with
      | .string text => text
      | _ => "rejected"
    .failure code message
  | "failData" => ⟨2, none, some (.string "extra")⟩
  | method => .success (.string method)

/-- The frame of the response to a request.  The method `raw` says itself what it is. -/
def reply (request : ReceivedRequest) : Except Error Bytes :=
  if request.method = "raw" then
    match request.parameter? "hex" with
    | some (.string digits) => .ok ((Hex.decode? digits).getD [])
    | _ => .ok []
  else
    (respond request).encode

/-! ## 2. Connections -/

/-- The connection of a number. -/
def link? (loopback : Loopback) (conn : ConnId) : Option Link :=
  loopback.links.find? (·.conn == conn)

/-- Whether a connection is aborted. -/
def isAborted (loopback : Loopback) (conn : ConnId) : Bool :=
  (loopback.link? conn).any (·.aborted)

/-- Changes one connection. -/
def modify (loopback : Loopback) (conn : ConnId) (change : Link → Link) : Loopback :=
  { loopback with
    links := loopback.links.map fun link => if link.conn = conn then change link else link }

/-- Aborts a connection. -/
def abort (loopback : Loopback) (conn : ConnId) : Loopback :=
  loopback.modify conn fun link => { link with aborted := true }

/-- Forgets a connection that is closed. -/
def close (loopback : Loopback) (conn : ConnId) : Loopback :=
  { loopback with links := loopback.links.filter (·.conn != conn) }

/-! ## 3. Operations -/

/-- Counts an operation and gives it its number.  A send on an aborted connection fails before it
counts. -/
def enter (loopback : Loopback) (operation : Operation) : Except Answer (Nat × Loopback) :=
  match operation with
  | .connect =>
    .ok (loopback.connects + 1, { loopback with connects := loopback.connects + 1 })
  | .send conn _ =>
    if loopback.isAborted conn then .error (.failed (.connection .aborted))
    else .ok (loopback.sends + 1, { loopback with sends := loopback.sends + 1 })
  | .receive _ =>
    .ok (loopback.receives + 1, { loopback with receives := loopback.receives + 1 })

/-- The fault that strikes an event. -/
def fault? (loopback : Loopback) (event : EventKind) (number : Nat) : Option Fault :=
  loopback.faults.find? fun fault =>
    fault.event = event ∧ (fault.number = 0 ∨ fault.number = number)

/-- Takes a request and keeps its response for the connection. -/
def accept (loopback : Loopback) (conn : ConnId) (frame : Bytes) : Except Error Loopback := do
  let request ← ReceivedRequest.decode frame
  let response ← reply request
  let loopback := loopback.modify conn fun link =>
    { link with pending := link.pending ++ [response] }
  return { loopback with inbox := request :: loopback.inbox }

/-- Takes the oldest response of a connection. -/
def takeResponse (loopback : Loopback) (conn : ConnId) : Answer × Loopback :=
  match (loopback.link? conn).map (·.pending) with
  | some (frame :: pending) =>
    (.received frame, loopback.modify conn fun link => { link with pending := pending })
  | _ => (.failed (.connection .noResponse), loopback)

/-- Lets an operation happen; none if it has to wait.  `opened` is the number of the connection
that an opening gives. -/
def happen (loopback : Loopback) (opened : ConnId) : Operation → Option (Answer × Loopback)
  | .connect => some (.connected, { loopback with links := ⟨opened, [], false⟩ :: loopback.links })
  | .send conn frame =>
    match loopback.accept conn frame with
    | .ok loopback => some (.sent, loopback)
    | .error error => some (.failed error, loopback)
  | .receive conn =>
    if loopback.isAborted conn then some (.failed (.connection .aborted), loopback)
    else if loopback.holding then none
    else some (loopback.takeResponse conn)

/-- Lets an operation of a number fail or happen; none if it has to wait. -/
def perform (loopback : Loopback) (opened : ConnId) (number : Nat) (operation : Operation) :
    Option (Answer × Loopback) :=
  match loopback.fault? operation.event number with
  | some ⟨_, _, some error⟩ => some (.failed error, loopback)
  | some ⟨_, _, none⟩ => some (.panicked, loopback)
  | none => loopback.happen opened operation

/-- The requests that have come since the last time, in order. -/
def takeInbox (loopback : Loopback) : List ReceivedRequest × Loopback :=
  (loopback.inbox.reverse, { loopback with inbox := [] })

end Loopback

end RemoteCall.Client
