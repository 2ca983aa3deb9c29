/-
# Composing methods

A method is declared by a specification: its name, its parameters, and whether it takes one object
whose fields are the parameters.  Composing checks the specification against the argument type and
resolves every type up front, so that an invocation only has to write its arguments.

* `MethodSpec.fault?` is the first rule that a specification breaks, before any type is looked at.
* `compose` resolves the argument types in order and then the response type.  Types that were
  resolved stay resolved also if a later one fails.
* `composeAdapted` first chooses the call adapter: the factories are asked in order, the built-in one
  for futures last, and the first that does not decline must answer with the right one.
-/
import RemoteCall.Client.Notice
import RemoteCall.Message.Request
import RemoteCall.Naming
import RemoteCall.Typed.Registry

namespace RemoteCall.Client

open Naming

/-! ## 1. Specifications -/

/-- What a method takes. -/
inductive ArgumentType where
  /-- Values that are named by the parameters of the method. -/
  | positional (types : List Ty)
  /-- One value whose fields are the parameters. -/
  | object (type : Ty)
  deriving DecidableEq, Repr

/-- The arguments of one invocation. -/
inductive Arguments where
  | positional (values : List Datum)
  | object (value : Datum)
  deriving Repr

/-- The declaration of a method. -/
structure MethodSpec where
  ident : String
  /-- The name sent on the wire, if it is not the one derived from `ident`. -/
  wireName : Option String
  parameters : List Binding
  /-- Whether the method takes one object in place of parameters. -/
  takesObject : Bool
  deriving DecidableEq, Repr

namespace MethodSpec

/-- The name sent on the wire. -/
def methodName (spec : MethodSpec) : String := spec.wireName.getD (derive spec.ident)

/-- Why the arguments do not fit the declared parameters. -/
def shapeFault? (spec : MethodSpec) : ArgumentType → Option CompositionFault
  | .positional types =>
    if spec.takesObject then some (.missingObject spec.methodName)
    else if types.length = spec.parameters.length then none
    else some (.arity spec.methodName spec.parameters.length types.length)
  | .object _ => if spec.takesObject then none else some (.undeclaredObject spec.methodName)

/-- The first rule that a specification breaks for arguments of a type. -/
def fault? (spec : MethodSpec) (arguments : ArgumentType) : Option CompositionFault :=
  if spec.methodName = "" then some (.namelessMethod spec.ident)
  else if spec.takesObject ∧ spec.parameters ≠ [] then some (.mixedParameters spec.methodName)
  else
    match Naming.fault? spec.methodName spec.parameters with
    | some fault => some fault
    | none => spec.shapeFault? arguments

end MethodSpec

/-! ## 2. Resolving types -/

/-- A registry at work: what it has resolved, and the types resolved on request since, last first. -/
structure Workbench where
  registry : Registry
  resolved : List Ty
  deriving Repr

/-- Resolves the adapter of a type. -/
def Workbench.adapter (type : Ty) : EStateM TypeFault Workbench Adapter := fun bench =>
  match bench.registry.resolve type with
  | .error fault => .error fault bench
  | .ok registry =>
    let isNew := !Registry.knows bench.registry.cache type
    .ok (registry.adapter type)
      ⟨registry, if isNew then type :: bench.resolved else bench.resolved⟩

/-- The adapters of an argument type. -/
inductive Encoder where
  | positional (adapters : List Adapter)
  | object (adapter : Adapter)
  deriving Repr

namespace Encoder

/-- Resolves an argument type. -/
def resolve : ArgumentType → EStateM TypeFault Workbench Encoder
  | .positional types => do return .positional (← types.mapM Workbench.adapter)
  | .object type => do
    let adapter ← Workbench.adapter type
    if adapter.isObject then return .object adapter
    else throw (.fieldless type.name)

/-- The argument type that was resolved. -/
def argumentType : Encoder → ArgumentType
  | .positional adapters => .positional (adapters.map (·.type))
  | .object adapter => .object adapter.type

/-- Writes values under the names of their bindings; absent values are left out. -/
def writeEach : List Adapter → List Binding → List Datum → Wire.Write Unit
  | adapter :: adapters, binding :: bindings, value :: values => do
    adapter.writeEntry binding.wireName value
    writeEach adapters bindings values
  | _, _, _ => pure ()

/-- Writes arguments into the open parameter object. -/
def write (encoder : Encoder) (bindings : List Binding) (arguments : Arguments) :
    Wire.Write Unit :=
  match encoder, arguments with
  | .positional adapters, .positional values =>
    if adapters.isEmpty ∨ bindings.length = adapters.length then
      writeEach adapters bindings values
    else
      throw (.composition (.bindingCount bindings.length adapters.length))
  | .object adapter, .object value => adapter.writeFields value
  | .positional _, .object _ => throw (.value (.mistyped "()"))
  | .object adapter, .positional _ => throw (.value (.mistyped adapter.type.name))

end Encoder

/-! ## 3. Methods -/

/-- A composed method. -/
structure Method where
  name : String
  bindings : List Binding
  encoder : Encoder
  decoder : Adapter
  deriving Repr

namespace Method

/-- The request of an invocation. -/
def request (method : Method) (arguments : Arguments) (payload : Option Bytes) :
    Except Error Request := do
  let request ← Request.build method.name (method.encoder.write method.bindings arguments)
  match payload with
  | some payload => return request.withPayload payload
  | none => return request

end Method

/-- A failed resolution as a failed composition.  A type's own refusal keeps its words. -/
def compositionError (method : String) (role : Role) (fault : TypeFault) : Error :=
  if fault.kind = .composition then .type fault
  else .composition (.type method role fault)

/-- Resolves types on a workbench for the composition of a method. -/
def resolving {α : Type} (method : String) (role : Role)
    (resolve : EStateM TypeFault Workbench α) : EStateM Error Workbench α := fun bench =>
  match resolve.run bench with
  | .ok value bench => .ok value bench
  | .error fault bench => .error (compositionError method role fault) bench

/-- Composes a method. -/
def compose (spec : MethodSpec) (arguments : ArgumentType) (response : Ty) :
    EStateM Error Workbench Method := do
  match spec.fault? arguments with
  | some fault => throw (.composition fault)
  | none =>
    let encoder ← resolving spec.methodName .argument (Encoder.resolve arguments)
    let decoder ← resolving spec.methodName .response (Workbench.adapter response)
    return ⟨spec.methodName, spec.parameters, encoder, decoder⟩

/-! ## 4. Adapted methods -/

/-- A family of return types that calls are adapted to. -/
structure ReturnFamily where
  name : String
  /-- The kind of call adapter that makes its return types. -/
  adapter : String
  deriving DecidableEq, Repr

/-- Supplies call adapters.  Asked for the name of a family and the type of the responses, a factory
answers with the kind of its adapter, or declines. -/
abbrev CallAdapterFactory := (family : String) → (element : Ty) → Option String

/-- The call adapters of a client. -/
structure CallAdapters where
  /-- The family of futures. -/
  futures : ReturnFamily
  /-- The factories that the user has registered. -/
  registered : List CallAdapterFactory

namespace CallAdapters

/-- The factory for futures. -/
def futureFactory (adapters : CallAdapters) : CallAdapterFactory := fun family _ =>
  if family = adapters.futures.name then some adapters.futures.adapter else none

/-- The factories in the order in which they are asked: that for futures comes last. -/
def factories (adapters : CallAdapters) : List CallAdapterFactory :=
  adapters.registered ++ [adapters.futureFactory]

/-- The answer of the first factory that does not decline. -/
def choose? (adapters : CallAdapters) (family : String) (element : Ty) : Option String :=
  adapters.factories.findSome? fun factory => factory family element

end CallAdapters

/-- A return type as messages name it. -/
def shapeName (family : String) (element : Ty) : String :=
  s!"ReturnShape \x7b family: {family}, element: {element.name} \x7d"

/-- Why no call adapter produces a return type. -/
def adapterFault? (adapters : CallAdapters) (method : String) (family : ReturnFamily)
    (element : Ty) : Option CompositionFault :=
  match adapters.choose? family.name element with
  | none => some (.noCallAdapter method (shapeName family.name element))
  | some adapter =>
    if adapter = family.adapter then none
    else some (.unfitCallAdapter method (shapeName family.name element))

/-- Composes a method whose calls are adapted to a family of return types. -/
def composeAdapted (adapters : CallAdapters) (family : ReturnFamily) (spec : MethodSpec)
    (arguments : ArgumentType) (response : Ty) : EStateM Error Workbench Method := do
  match adapterFault? adapters spec.methodName family response with
  | some fault => throw (.composition fault)
  | none => compose spec arguments response

end RemoteCall.Client
