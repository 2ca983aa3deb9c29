/-
# Resolving types

A registry remembers the types that have been resolved, in a cache.  To resolve a type it asks the
registered factories in order, then the type itself; the structure of the type leads to further
types, which are resolved on the way.  Three rules make this work on types that refer to
themselves and keep a failed resolution from leaving anything behind.

* A type met while it is itself being resolved is taken for resolved (it is *pending*).
* Types finished on the way are *staged*.  They may refer to pending types, so they reach the cache
  only when the type that was asked for is finished too.
* A failure undoes everything staged since the failed type was begun.

The depth of the search is bounded by the number of types there are to be met: everything that
occurs in the wanted type, in the catalog or in a factory.
-/
import RemoteCall.Typed.Adapter

namespace RemoteCall

/-- The number of types that occur in a type. -/
def Ty.size : Ty → Nat
  | .option inner => inner.size + 1
  | .list element => element.size + 1
  | .map _ element => element.size + 1
  | _ => 1

/-- Supplies custom rules for the types it recognizes. -/
inductive Factory where
  /-- Answers for one type with one rule. -/
  | exact (target : Ty) (rule : CustomRule)
  /-- Never answers. -/
  | declining
  /-- Asked for `target` it resolves `via` and, if that succeeds, answers with a rule for its target
  or, without one, with an adapter of another type. -/
  | through (target via : Ty) (answer : Option CustomRule)
  deriving DecidableEq, Repr

/-- The resolved types together with what resolving depends on. -/
structure Registry where
  catalog : Catalog
  factories : List Factory
  cache : Table
  deriving Repr

namespace Registry

/-- A registry that has resolved nothing. -/
def new (catalog : Catalog) (factories : List Factory) : Registry := ⟨catalog, factories, []⟩

/-! ## 1. One type -/

/-- Resolves a type given the types staged so far, and answers those staged after it. -/
abbrev Resolve := Ty → Table → Except TypeFault Table

/-- The first member of a model that shares its wire name with one of those `seen` before it. -/
def sharedNameAfter (model : String) (seen : List Member) : List Member → Option TypeFault
  | [] => none
  | member :: rest =>
    match seen.find? (·.wireName == member.wireName) with
    | some previous => some (.sharedName model previous.name member.name member.wireName)
    | none => sharedNameAfter model (member :: seen) rest

/-- The first two members of a model that share a wire name. -/
def sharedName? (model : String) (members : List Member) : Option TypeFault :=
  sharedNameAfter model [] members

/-- Resolves the types of members in order. -/
def resolveMembers (resolve : Resolve) (members : List Member) (staged : Table) :
    Except TypeFault Table :=
  members.foldlM (fun staged member => resolve member.type staged) staged

/-- The rule by which a type itself says that its values travel. -/
def ownRule (catalog : Catalog) (resolve : Resolve) (type : Ty) (staged : Table) :
    Except TypeFault (Rule × Table) :=
  match type with
  | .option inner => do return (.structural, ← resolve inner staged)
  | .list element => do return (.structural, ← resolve element staged)
  | .map _ element => do return (.structural, ← resolve element staged)
  | .model name =>
    match catalog.lookup name with
    | none => .error (.unregistered name)
    | some members => do
      let staged ← resolveMembers resolve members staged
      match sharedName? name members with
      | some fault => .error fault
      | none => return (.members members, staged)
  | .foreign name => .error (.unregistered name)
  | .refusing _ reason => .error (.refused reason)
  | _ => .ok (.structural, staged)

/-- The rule of a type: that of the first factory that answers, or its own. -/
def ruleOf (catalog : Catalog) (resolve : Resolve) (type : Ty) (staged : Table) :
    List Factory → Except TypeFault (Rule × Table)
  | [] => ownRule catalog resolve type staged
  | .declining :: rest => ruleOf catalog resolve type staged rest
  | .exact target rule :: rest =>
    if target = type then .ok (.custom rule, staged)
    else ruleOf catalog resolve type staged rest
  | .through target via answer :: rest =>
    if target = type then
      match resolve via staged with
      | .error _ => ruleOf catalog resolve type staged rest
      | .ok staged =>
        match answer with
        | some rule => .ok (.custom rule, staged)
        | none => .error (.foreign type.name)
    else
      ruleOf catalog resolve type staged rest

/-! ## 2. Everything a type leads to -/

/-- Whether a table knows a type. -/
def knows (table : Table) (type : Ty) : Bool := (table.rule? type).isSome

/-- Resolves a type while `pending` types are being resolved. -/
def visit (registry : Registry) : (fuel : Nat) → (pending : List Ty) → Resolve
  | 0, _, type, _ => .error (.unregistered type.name)
  | fuel + 1, pending, type, staged =>
    if knows registry.cache type || type ∈ pending || knows staged type then .ok staged
    else do
      let (rule, staged) ←
        ruleOf registry.catalog (visit registry fuel (type :: pending)) type staged
          registry.factories
      return staged ++ [(type, rule)]

/-- The types that a factory may ask for. -/
def Factory.size : Factory → Nat
  | .through _ via _ => via.size
  | _ => 0

/-- How many different types the search for `type` may meet. -/
def reach (registry : Registry) (type : Ty) : Nat :=
  type.size
    + registry.catalog.foldr (fun model n =>
        1 + model.2.foldr (fun member n => member.type.size + n) 0 + n) 0
    + registry.factories.foldr (fun factory n => Factory.size factory + n) 0

/-- Resolves a type.  The cache gains the types met on the way, or nothing if that fails. -/
def resolve (registry : Registry) (type : Ty) : Except TypeFault Registry := do
  let staged ← registry.visit (registry.reach type + 1) [] type []
  return { registry with cache := registry.cache ++ staged }

/-- The number of resolved types. -/
def size (registry : Registry) : Nat := registry.cache.length

/-- The adapter of a type by what has been resolved so far. -/
def adapter (registry : Registry) (type : Ty) : Adapter := ⟨registry.cache, type⟩

/-- Resolves a type and returns its adapter with the registry after it. -/
def adapter? (registry : Registry) (type : Ty) : Except TypeFault (Adapter × Registry) := do
  let registry ← registry.resolve type
  return (registry.adapter type, registry)

/-- The wire names of a model, whose members are resolved one by one. -/
def wireNames? (registry : Registry) (model : String) : Except TypeFault (List String) :=
  match registry.catalog.lookup model with
  | none => .error (.unregistered model)
  | some members => do
    discard (members.foldlM (fun (registry : Registry) member => registry.resolve member.type)
      registry)
    match sharedName? model members with
    | some fault => .error fault
    | none => return members.map (·.wireName)

/-! ## 3. Whole streams -/

/-- Writes a value of a type, resolving it first. -/
def encode (registry : Registry) (type : Ty) (datum : Datum) : Except Error Bytes :=
  match registry.adapter? type with
  | .ok (adapter, _) => adapter.encode datum
  | .error fault => .error (.type fault)

/-- Reads a value of a type, resolving it first. -/
def decode (registry : Registry) (type : Ty) (bytes : Bytes) : Except Error Datum :=
  match registry.adapter? type with
  | .ok (adapter, _) => adapter.decode bytes
  | .error fault => .error (.type fault)

end Registry

end RemoteCall
