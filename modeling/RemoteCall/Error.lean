/-
# What can go wrong, and how it is worded

Every failure of the library is one value of `Error`, built from its cause: what was read or
written, where, and against which rule.  The wording is in `Error.text` and `Error.message` alone,
so that a statement about a failure is about its cause and never about a string.

Each error has a *kind*.  Only the kinds of the byte exchange itself (`Error.isTransport`) end a
whole batch; every other failure concerns the one request that produced it.
-/
import RemoteCall.Text.Hex
import RemoteCall.Text.Utf8
import RemoteCall.Wire.Token

namespace RemoteCall

open Wire

/-! ## 1. Causes -/

/-- Why a stream is malformed, or why an operation does not fit the nesting it meets. -/
inductive StreamFault where
  /-- The bytes end inside a scope. -/
  | endsInside (scope : Scope) (position : Nat)
  | unknownTag (tag : UInt8) (position : Nat)
  /-- A closing token at top level. -/
  | unbalanced (token : Token)
  /-- A closing token that does not close the innermost scope. -/
  | misplaced (token : Token) (scope : Scope) (position : Nat)
  /-- Fewer bytes are left than a payload needs. -/
  | truncated (needed position available : Nat)
  | nameNotUtf8 (fault : Utf8.Fault)
  | textNotUtf8 (fault : Utf8.Fault)
  | invalidBoolean (byte : UInt8)
  /-- A field name was asked for outside of an object. -/
  | nameOutsideObject
  /-- A value was asked for before the name of its entry was taken. -/
  | nameNotTaken (token : Token)
  | tooDeep
  /-- A scope is closed that is not the innermost one. -/
  | notOpen (scope : Scope)
  /-- A scope is closed while it still has values. -/
  | unread (scope : Scope) (next : Token)
  /-- The stream is finished inside a scope. -/
  | unclosed (scope : Scope)
  /-- The stream is finished where a value follows. -/
  | moreValues (next : Token)
  | nameWrittenOutside (name : String)
  /-- A name is written while the value announced by the last one is missing. -/
  | nameWhilePending (name : String) (announced : Token)
  /-- A name announces something that is no value. -/
  | nameForNoValue (name : String) (token : Token)
  | announcedOther (announced written : Token)
  | valueWithoutName (token : Token)
  | closedWhilePending (scope : Scope) (announced : Token)
  deriving DecidableEq, Repr

/-- What a reader was asked for when it met something else. -/
inductive Expectation where
  | number
  | string
  | boolean
  | arrayStart
  | objectStart
  | value
  | fieldName
  | other (words : String)
  deriving DecidableEq, Repr

/-- Why a value has no wire form, or a wire form no value of the wanted type. -/
inductive ValueFault where
  | nameTooLong (size : Nat)
  | textTooLong (size : Nat)
  | nullValue
  | nullToken
  /-- A number that is not a signed 64-bit integer. -/
  | notInteger (kind : String)
  | notScalar (field kind : String)
  | parametersNotObject (kind : String)
  | noResultCode
  /-- A response without data for a type that has no absent value. -/
  | missing (type : String)
  | notInlined (kind : String)
  | unfit (type : String)
  | outOfRange (number : Int) (type : String)
  | unitValue
  | noneValue
  | noneToken
  | absentElement (type : String)
  | instantOutOfRange
  | secondsOutOfRange (seconds : Int)
  /-- An adapter was used while its type was still being resolved. -/
  | unresolved (type : String)
  /-- A value that is not of the type it is written as. -/
  | mistyped (type : String)
  deriving DecidableEq, Repr

/-- Why a declared type has no adapter, or not the one that is needed. -/
inductive TypeFault where
  /-- The type has no adapter of its own and no factory answered for it. -/
  | unregistered (type : String)
  /-- The factory that answered returned an adapter of another type. -/
  | foreign (type : String)
  /-- Two members of a model share a wire name. -/
  | sharedName (model first second wireName : String)
  /-- The type's own adapter refuses to be built. -/
  | refused (reason : String)
  /-- The values of the type are no objects, so they cannot be spread as parameters. -/
  | fieldless (type : String)
  deriving DecidableEq, Repr

/-- The part that a type plays in a method. -/
inductive Role where
  | argument
  | response
  deriving DecidableEq, Repr

/-- Why a method cannot be composed. -/
inductive CompositionFault where
  | namelessMethod (ident : String)
  | mixedParameters (method : String)
  | namelessParameter (context member : String)
  | repeatedName (context wireName : String)
  | arity (method : String) (declared actual : Nat)
  | undeclaredObject (method : String)
  | missingObject (method : String)
  | bindingCount (given expected : Nat)
  | type (method : String) (role : Role) (fault : TypeFault)
  | noCallAdapter (method shape : String)
  | unfitCallAdapter (method shape : String)
  deriving DecidableEq, Repr

/-- How an object was used against its rules. -/
inductive UsageFault where
  | callExecuted (method : String)
  | batchStarted
  | duplicateKey
  | batchExecuted
  | callFutureFinished
  | batchFutureFinished
  | noEndpoint
  | malformedConfiguration
  | zeroLimit (setting : String)
  deriving DecidableEq, Repr

/-- Why an exchange failed that is neither a lost connection nor a timeout. -/
inductive TransportFault where
  | messageTooLarge (size limit : Nat)
  | callTaskFailed
  | batchWithoutResult
  | batchThreadPanicked
  | unanswered (answered total : Nat)
  deriving DecidableEq, Repr

/-- Why a text is not a socket address. -/
inductive AddressFault where
  | noPort
  | invalidPort
  deriving DecidableEq, Repr

/-- How a connection was lost or could not be opened. -/
inductive ConnectionFault where
  | lost (activity : String)
  | invalidAddress (address : String) (fault : AddressFault)
  | unreachable (address : String)
  | leaseReleased
  | aborted
  | noResponse
  deriving DecidableEq, Repr

/-- The kinds of error. -/
inductive ErrorKind where
  | structural
  | unexpectedToken
  | serialization
  | unsupportedType
  | composition
  | usage
  | cancelled
  | transport
  | timeout
  | poolTimeout
  | connection
  | io
  | application
  deriving DecidableEq, Repr

/-- The name of a kind. -/
def ErrorKind.name : ErrorKind → String
  | structural => "Structural"
  | unexpectedToken => "UnexpectedToken"
  | serialization => "Serialization"
  | unsupportedType => "UnsupportedType"
  | composition => "Composition"
  | usage => "Usage"
  | cancelled => "Cancelled"
  | transport => "Transport"
  | timeout => "Timeout"
  | poolTimeout => "PoolTimeout"
  | connection => "Connection"
  | io => "Io"
  | application => "Application"

/-- All kinds. -/
def ErrorKind.all : List ErrorKind :=
  [structural, unexpectedToken, serialization, unsupportedType, composition, usage, cancelled,
    transport, timeout, poolTimeout, connection, io, application]

/-- The kind of a name. -/
def ErrorKind.ofName? (name : String) : Option ErrorKind := all.find? (·.name == name)

/-- A failure, by its cause. -/
inductive Error where
  | stream (fault : StreamFault)
  | unexpected (expected : Expectation) (found : Token)
  | value (fault : ValueFault)
  | type (fault : TypeFault)
  /-- A type that is not an object type was asked for its fields. -/
  | noFields (type : String)
  | composition (fault : CompositionFault)
  | usage (fault : UsageFault)
  | cancelled
  | transport (fault : TransportFault)
  | timeout (milliseconds : Nat)
  | poolTimeout (milliseconds : Nat)
  | connection (fault : ConnectionFault)
  | io (text : String)
  /-- A response that came through and carries a result code other than zero. -/
  | application (code : Int64) (message : String)
  /-- An error that someone outside the library reports in words of their own. -/
  | stated (kind : ErrorKind) (words : String)
  deriving DecidableEq, Repr

/-! ## 2. Wording -/

/-- The wording of a stream fault. -/
def StreamFault.text : StreamFault → String
  | .endsInside scope position => s!"truncated stream inside {scope.name} at byte {position}"
  | .unknownTag tag position => s!"unknown tag 0x{Hex.encode [tag]} at byte {position}"
  | .unbalanced token => s!"unbalanced {token.name} at top level"
  | .misplaced token scope position => s!"{token.name} inside {scope.name} at byte {position}"
  | .truncated needed position available =>
    s!"truncated stream: needed {needed} bytes at byte {position}, {available} available"
  | .nameNotUtf8 fault => s!"invalid UTF-8 in field name: {fault.message}"
  | .textNotUtf8 fault => s!"invalid UTF-8 in string: {fault.message}"
  | .invalidBoolean byte => s!"invalid boolean byte 0x{Hex.encode [byte]}"
  | .nameOutsideObject => "next_name called outside of an object"
  | .nameNotTaken token => s!"{token.name} read before its field name"
  | .tooDeep => s!"nesting deeper than {maxDepth} levels"
  | .notOpen scope => s!"{scope.closing.name} without a matching open {scope.name}"
  | .unread scope next => s!"{scope.name} still has unread values (next is {next.name})"
  | .unclosed scope => s!"stream finished with an open {scope.name}"
  | .moreValues next => s!"expected END_OF_STREAM, found {next.name}"
  | .nameWrittenOutside name => s!"field name '{name}' written outside of an object"
  | .nameWhilePending name announced =>
    s!"field name '{name}' written while a {announced.name} value is still pending"
  | .nameForNoValue name token => s!"field '{name}' cannot hold {token.name}"
  | .announcedOther announced written =>
    s!"field announced as {announced.name} but {written.name} was written"
  | .valueWithoutName token => s!"{token.name} written inside an object without a field name"
  | .closedWhilePending scope announced =>
    s!"{scope.name} closed while a {announced.name} value is still pending"

/-- The wording of an expectation. -/
def Expectation.text : Expectation → String
  | .number => "a number"
  | .string => "a string"
  | .boolean => "a boolean"
  | .arrayStart => "the start of an array"
  | .objectStart => "the start of an object"
  | .value => "a value"
  | .fieldName => "a field name"
  | .other words => words

/-- The wording of a value fault. -/
def ValueFault.text : ValueFault → String
  | .nameTooLong size => s!"field name of {size} bytes is too long"
  | .textTooLong size => s!"string of {size} bytes is too long"
  | .nullValue => "null has no wire representation outside of an object field"
  | .nullToken => "null has no wire token"
  | .notInteger kind => s!"{kind} cannot be encoded as a wire number"
  | .notScalar field kind => s!"field '{field}' has unsupported type {kind}"
  | .parametersNotObject kind => s!"request parameters must be an object, found {kind}"
  | .noResultCode => "response has no result code"
  | .missing type => s!"missing value for {type}"
  | .notInlined kind => s!"{kind} cannot be inlined as object fields"
  | .unfit type => s!"{type} value does not fit in a wire number"
  | .outOfRange number type => s!"{number} is out of range for {type}"
  | .unitValue => "() has no wire representation"
  | .noneValue => "None can only be written as an omitted object field"
  | .noneToken => "None has no wire token"
  | .absentElement type => s!"absent element in array of {type}"
  | .instantOutOfRange => "timestamp out of range"
  | .secondsOutOfRange seconds => s!"timestamp {seconds} out of range"
  | .unresolved type => s!"adapter for {type} used before its construction completed"
  | .mistyped type => s!"value is not of type {type}"

/-- The wording of a type fault. -/
def TypeFault.text : TypeFault → String
  | .unregistered type => s!"no adapter registered for {type}"
  | .foreign type => s!"adapter registered for {type} has a different type"
  | .sharedName model first second wireName =>
    s!"{model}: members '{first}' and '{second}' share the wire name '{wireName}'"
  | .refused reason => reason
  | .fieldless type => s!"{type} has no fields to send as parameters"

/-- The kind of a type fault. -/
def TypeFault.kind : TypeFault → ErrorKind
  | .unregistered _ | .fieldless _ => .unsupportedType
  | .foreign _ | .sharedName .. => .serialization
  | .refused _ => .composition

/-- The words that stand before the text of an error of this kind. -/
def ErrorKind.lead : ErrorKind → String
  | .structural => "Structural error: "
  | .unexpectedToken => "Unexpected token: "
  | .serialization => "Serialization error: "
  | .unsupportedType => "Unsupported type: "
  | .composition => "Composition error: "
  | .usage => "Usage error: "
  | .transport => "Transport error: "
  | .connection => "Connection error: "
  | .io => "IO error: "
  | .cancelled | .timeout | .poolTimeout | .application => ""

/-- The word for a role. -/
def Role.name : Role → String
  | .argument => "argument"
  | .response => "response"

/-- The wording of a composition fault. -/
def CompositionFault.text : CompositionFault → String
  | .namelessMethod ident => s!"method '{ident}' has an empty wire name"
  | .mixedParameters method =>
    s!"{method}: a request object cannot be combined with positional parameters"
  | .namelessParameter context member => s!"{context}: parameter '{member}' has an empty wire name"
  | .repeatedName context wireName => s!"{context}: wire name '{wireName}' is used more than once"
  | .arity method declared actual =>
    s!"{method}: {declared} parameters declared but the argument type has {actual}"
  | .undeclaredObject method => s!"{method}: a RequestObject argument needs request_object()"
  | .missingObject method => s!"{method}: request_object() needs a RequestObject argument"
  | .bindingCount given expected => s!"{given} bindings for {expected} arguments"
  | .type method role fault => s!"{method}: {role.name} type: {fault.kind.lead}{fault.text}"
  | .noCallAdapter method shape => s!"{method}: no call adapter for return type {shape}"
  | .unfitCallAdapter method shape => s!"{method}: call adapter chosen for {shape} cannot produce it"

/-- The wording of a usage fault. -/
def UsageFault.text : UsageFault → String
  | .callExecuted method => s!"call to '{method}' was already executed; clone it to run again"
  | .batchStarted => "cannot add to a batch that has started"
  | .duplicateKey => "duplicate batch key"
  | .batchExecuted => "batch was already executed; clone it to run again"
  | .callFutureFinished => "call future polled after completion"
  | .batchFutureFinished => "batch future polled after completion"
  | .noEndpoint => "client endpoint not set; call tcp() or connector()"
  | .malformedConfiguration => "invalid client configuration"
  | .zeroLimit setting => s!"{setting} must be at least 1"

/-- The wording of a transport fault. -/
def TransportFault.text : TransportFault → String
  | .messageTooLarge size limit => s!"Message too large: {size} bytes (max {limit} bytes)"
  | .callTaskFailed => "call task failed"
  | .batchWithoutResult => "batch ended without a result"
  | .batchThreadPanicked => "batch thread panicked"
  | .unanswered answered total => s!"batch ended with {answered} of {total} items answered"

/-- The wording of an address fault. -/
def AddressFault.text : AddressFault → String
  | .noPort => "invalid socket address"
  | .invalidPort => "invalid port value"

/-- The wording of a connection fault. -/
def ConnectionFault.text : ConnectionFault → String
  | .lost activity => s!"{activity}: Connection lost"
  | .invalidAddress address fault => s!"Invalid address '{address}': {fault.text}"
  | .unreachable address => s!"Failed to connect to {address}"
  | .leaseReleased => "lease already released"
  | .aborted => "connection aborted"
  | .noResponse => "no response pending"

namespace Error

/-- The kind of an error. -/
def kind : Error → ErrorKind
  | .stream _ => .structural
  | .unexpected .. => .unexpectedToken
  | .value _ => .serialization
  | .type fault => fault.kind
  | .noFields _ => .unsupportedType
  | .composition _ => .composition
  | .usage _ => .usage
  | .cancelled => .cancelled
  | .transport _ => .transport
  | .timeout _ => .timeout
  | .poolTimeout _ => .poolTimeout
  | .connection _ => .connection
  | .io _ => .io
  | .application .. => .application
  | .stated kind _ => kind

/-- The wording of an error after the words that name its kind. -/
def text : Error → String
  | .stream fault => fault.text
  | .unexpected expected found => s!"expected {expected.text}, found {found.name}"
  | .value fault => fault.text
  | .type fault => fault.text
  | .noFields typeName => s!"{typeName} is not an object type"
  | .composition fault => fault.text
  | .usage fault => fault.text
  | .cancelled => "Operation cancelled"
  | .transport fault => fault.text
  | .timeout milliseconds => s!"Request timeout after {milliseconds}ms"
  | .poolTimeout milliseconds =>
    s!"Connection pool acquisition timed out after {milliseconds}ms"
  | .connection fault => fault.text
  | .io text => text
  | .application code message => s!"Application error {code.toInt}: {message}"
  | .stated _ words => words

/-- The whole message of an error. -/
def message (error : Error) : String := error.kind.lead ++ error.text

/-- Whether the byte exchange itself failed.  Such a failure ends a whole batch; every other one
concerns the single request that produced it. -/
def isTransport (error : Error) : Bool :=
  match error.kind with
  | .transport | .timeout | .poolTimeout | .connection | .io => true
  | _ => false

/-- Whether the operation was cancelled. -/
def isCancelled (error : Error) : Bool := error.kind == .cancelled

end Error

end RemoteCall
