/-
# A composed method sends exactly its arguments

Composing resolves the argument types one after the other and keeps an adapter of each, so the
adapters of one method were made of caches of different length.  What they share is that each
`Serves` its type: its cache hangs together and knows the type (`Encoder.resolve_ok`).  That is
enough to know what trees an invocation writes, and `Request.decode_frame` does the rest.

Positional arguments are written like the members of a record whose wire names are those of the
bindings (`boundMembers`), so the generic view of such a record is also theirs.  An object argument
is written as the entries of its own tree, without the object around them.

The registry has no factories.  The types may have been resolved before, and others after.
-/
import RemoteCall.Client.Method
import RemoteCall.Proofs.Message.Request
import RemoteCall.Proofs.Typed.Cache
import RemoteCall.Proofs.Typed.Generic
import RemoteCall.Proofs.Typed.TreeWriting

namespace RemoteCall

open Naming Wire Success
open Registry (chain)

variable {catalog : Catalog} {type : Ty} {datum : Datum}

/-! ## 1. Adapters that serve their type -/

/-- The adapter is one of the type, made of a cache that hangs together and knows the type. -/
structure Adapter.Serves (catalog : Catalog) (type : Ty) (adapter : Adapter) : Prop where
  type_eq : adapter.type = type
  closed : adapter.table.Closed catalog
  known : Registry.knows adapter.table type = true

namespace Registry

variable {registry : Registry}

/-- What is known stays known. -/
theorem knows_resolveAll (later : List Ty) (h : knows registry.cache type = true) :
    knows (registry.resolveAll later).cache type = true := by
  obtain ⟨rule, hrule⟩ := Option.isSome_iff_exists.mp h
  exact Option.isSome_iff_exists.mpr ⟨rule, extends_resolveAll later registry type rule hrule⟩

/-- A value with a tree that fits is encoded by whatever registry knows its type. -/
theorem encode_of_tree? {types : List Ty} {tree : Tree} (htype : HasType catalog datum type)
    (hknown : knows ((new catalog []).resolveAll types).cache type = true)
    (htree : datum.tree? catalog type = some tree) (hdepth : tree.depth ≤ maxDepth) :
    ((new catalog []).resolveAll types).encode type datum = .ok (tree.bytes ++ [0x00]) := by
  obtain ⟨cache, hall, hclosed⟩ := resolveAll_new catalog types
  rw [hall] at hknown ⊢
  rw [encode_eq_of_tree? hclosed hknown htype htree, if_pos hdepth]

end Registry

/-- **The fields of an object value are the entries of its tree.**  A generic value has fields only
if it is an object. -/
theorem Adapter.Serves.writesAll_writeFields {adapter : Adapter} (h : adapter.Serves catalog type)
    (hobject : adapter.isObject = true) (htype : HasType catalog datum type)
    (scopes : List Scope) :
    ∃ entries?, Writer.WritesAll (adapter.writeFields datum) (.object :: scopes) entries? ∧
      ∀ entries, entries? = some entries → datum.tree? catalog type = some (.object entries) := by
  obtain ⟨rfl, hclosed, hknown⟩ := h
  obtain ⟨rule, hrule, hgrounded⟩ := hclosed.rule? hknown
  unfold Adapter.isObject Table.isObject at hobject
  unfold Adapter.writeFields Table.writeFields
  rw [hrule] at hobject ⊢
  generalize adapter.type = type at *
  cases hgrounded
  case value =>
    cases htype with
    | @value value hordered =>
      cases value
      case object fields =>
        refine ⟨_, Value.writesAll_writeFields fields, fun entries hentries => ?_⟩
        rw [Datum.tree?, Value.tree?, hentries]
        rfl
      all_goals exact ⟨none, Writer.writesAll_throw, fun _ hentries => by cases hentries⟩
  case map kind element helement =>
    obtain ⟨entries, rfl⟩ : ∃ entries, datum = .map entries := by
      cases htype <;> exact ⟨_, rfl⟩
    obtain ⟨_, _, htypes, hentries⟩ := htype.of_map
    cases htypes
    refine ⟨_, Table.writesAll_writeEntries hclosed entries helement hentries, ?_⟩
    intro trees htrees
    rw [Datum.tree?, htrees]
    rfl
  case model name members hfound hnames hmembers =>
    cases htype with
    | record hfound' hvalues =>
      cases hfound.symm.trans hfound'
      refine ⟨_, Table.writesAll_writeMembers hclosed _ hmembers hvalues, ?_⟩
      intro trees htrees
      rw [Datum.tree?, hfound, Option.getD_some, htrees]
      rfl
  all_goals cases hobject

/-- What is written as an object is one. -/
theorem Value.fields_of_tree? {value : Value} {entries : List (SizedText 2 × Tree)}
    (h : value.tree? = some (.object entries)) : ∃ fields, value = .object fields := by
  cases value
  case object fields => exact ⟨fields, rfl⟩
  case null => cases h
  case bool b => cases h
  case fraction literal => cases h
  all_goals
    obtain ⟨_, -, h⟩ := Option.map_eq_some_iff.mp h
    cases h

namespace Client

/-! ## 2. Composing -/

/-- The types of the arguments of a method. -/
def ArgumentType.types : ArgumentType → List Ty
  | .positional types => types
  | .object type => [type]

/-- The adapters serve the argument type. -/
inductive Encoder.Serves (catalog : Catalog) : ArgumentType → Encoder → Prop
  | positional {types : List Ty} {adapters : List Adapter}
    (serves : List.Forall₂ (Adapter.Serves catalog) types adapters) :
    Serves catalog (.positional types) (.positional adapters)
  | object {type : Ty} {adapter : Adapter} (serves : adapter.Serves catalog type)
    (spreads : adapter.isObject = true) : Serves catalog (.object type) (.object adapter)

/-- The registry of a workbench without factories, after the types resolved so far. -/
def Workbench.Resolved (catalog : Catalog) (types : List Ty) (bench : Workbench) : Prop :=
  bench.registry = (Registry.new catalog []).resolveAll types

variable {bench bench' : Workbench} {earlier : List Ty}

theorem Workbench.adapter_ok {adapter : Adapter} (hbench : bench.Resolved catalog earlier)
    (h : Workbench.adapter type bench = .ok adapter bench') :
    adapter.Serves catalog type ∧ bench'.Resolved catalog (earlier ++ [type]) ∧
      Registry.knows bench'.registry.cache type = true := by
  unfold Workbench.adapter at h
  cases hresolve : bench.registry.resolve type with
  | error fault =>
    rw [hresolve] at h
    cases h
  | ok next =>
    rw [hresolve] at h
    cases h
    have hnext : next = (Registry.new catalog []).resolveAll (earlier ++ [type]) := by
      rw [Registry.resolveAll_append, ← hbench, Registry.resolveAll_cons_of_ok hresolve]
      rfl
    obtain ⟨cache, hbefore, hclosed⟩ := Registry.resolveAll_new catalog earlier
    rw [hbench, hbefore] at hresolve
    obtain ⟨more, rfl, hknown, hmore⟩ := Registry.resolve_ok rfl hclosed hresolve
    exact ⟨⟨rfl, hmore, hknown⟩, hnext, hknown⟩

theorem Workbench.adapters_ok : ∀ {types : List Ty} {adapters : List Adapter} {earlier : List Ty}
    {bench bench' : Workbench}, bench.Resolved catalog earlier →
    types.mapM Workbench.adapter bench = .ok adapters bench' →
    List.Forall₂ (Adapter.Serves catalog) types adapters ∧
      bench'.Resolved catalog (earlier ++ types) ∧
      ∀ type ∈ types, Registry.knows bench'.registry.cache type = true
  | [], adapters, earlier, bench, bench', hbench, h => by
    obtain ⟨rfl, rfl⟩ := pure_ok.mp h
    exact ⟨.nil, by rwa [List.append_nil], fun _ hmem => absurd hmem List.not_mem_nil⟩
  | type :: types, adapters, earlier, bench, bench', hbench, h => by
    rw [List.mapM_cons] at h
    obtain ⟨adapter, mid, hadapter, h⟩ := bind_ok.mp h
    obtain ⟨others, _, hothers, h⟩ := bind_ok.mp h
    obtain ⟨rfl, rfl⟩ := pure_ok.mp h
    obtain ⟨hserves, hmid, hknown⟩ := Workbench.adapter_ok hbench hadapter
    obtain ⟨hall, hbench', hknows⟩ := Workbench.adapters_ok hmid hothers
    have hlater : bench'.registry = mid.registry.resolveAll types := by
      rw [hbench', hmid, Registry.resolveAll_append]
    rw [List.append_assoc, List.singleton_append] at hbench'
    refine ⟨.cons hserves hall, hbench', List.forall_mem_cons.mpr ⟨?_, hknows⟩⟩
    rw [hlater]
    exact Registry.knows_resolveAll types hknown

/-- **The encoder of a composed method serves its argument type.** -/
theorem Encoder.resolve_ok {arguments : ArgumentType} {encoder : Encoder}
    (hbench : bench.Resolved catalog earlier)
    (h : Encoder.resolve arguments bench = .ok encoder bench') :
    encoder.Serves catalog arguments ∧ bench'.Resolved catalog (earlier ++ arguments.types) ∧
      ∀ type ∈ arguments.types, Registry.knows bench'.registry.cache type = true := by
  cases arguments with
  | positional types =>
    obtain ⟨adapters, _, hadapters, h⟩ := bind_ok.mp h
    obtain ⟨rfl, rfl⟩ := pure_ok.mp h
    obtain ⟨hserves, hbench', hknows⟩ := Workbench.adapters_ok hbench hadapters
    exact ⟨.positional hserves, hbench', hknows⟩
  | object type =>
    obtain ⟨adapter, _, hadapter, h⟩ := bind_ok.mp h
    obtain ⟨hspreads, h⟩ : adapter.isObject = true ∧ _ := by
      split at h
      · rename_i hspreads
        exact ⟨hspreads, pure_ok.mp h⟩
      · exact (throw_ok.mp h).elim
    obtain ⟨rfl, rfl⟩ := h
    obtain ⟨hserves, hbench', hknown⟩ := Workbench.adapter_ok hbench hadapter
    exact ⟨.object hserves hspreads, hbench', List.forall_mem_singleton.mpr hknown⟩

theorem resolving_ok {α : Type} {method : String} {role : Role}
    {resolve : EStateM TypeFault Workbench α} {value : α} :
    resolving method role resolve bench = .ok value bench' ↔ resolve bench = .ok value bench' := by
  unfold resolving EStateM.run
  cases resolve bench <;> simp

/-- **What composing leaves behind**: a method with the name and the parameters of a specification
without fault, whose encoder serves the argument type. -/
theorem compose_ok {spec : MethodSpec} {arguments : ArgumentType} {response : Ty} {method : Method}
    (hbench : bench.Resolved catalog earlier)
    (h : compose spec arguments response bench = .ok method bench') :
    spec.fault? arguments = none ∧ method.name = spec.methodName ∧
      method.bindings = spec.parameters ∧ method.encoder.Serves catalog arguments ∧
      (∃ types, bench'.Resolved catalog types) ∧
      ∀ type ∈ arguments.types, Registry.knows bench'.registry.cache type = true := by
  unfold compose at h
  cases hfault : spec.fault? arguments with
  | some fault =>
    rw [hfault] at h
    exact (throw_ok.mp h).elim
  | none =>
    rw [hfault] at h
    obtain ⟨encoder, mid, hencoder, h⟩ := bind_ok.mp h
    obtain ⟨decoder, _, hdecoder, h⟩ := bind_ok.mp h
    obtain ⟨rfl, rfl⟩ := pure_ok.mp h
    obtain ⟨hserves, hmid, hknows⟩ := Encoder.resolve_ok hbench (resolving_ok.mp hencoder)
    obtain ⟨-, hbench', -⟩ := Workbench.adapter_ok hmid (resolving_ok.mp hdecoder)
    have hlater : bench'.registry = mid.registry.resolveAll [response] := by
      rw [hbench', hmid, Registry.resolveAll_append]
    refine ⟨rfl, rfl, rfl, hserves, ⟨_, hbench'⟩, fun type htype => ?_⟩
    rw [hlater]
    exact Registry.knows_resolveAll [response] (hknows type htype)

/-- A method is composed as such, or for a family of return types. -/
def Composes (spec : MethodSpec) (arguments : ArgumentType) (response : Ty) (bench : Workbench)
    (method : Method) (bench' : Workbench) : Prop :=
  compose spec arguments response bench = .ok method bench' ∨
    ∃ adapters family,
      composeAdapted adapters family spec arguments response bench = .ok method bench'

/-- Composing for a family of return types is composing, after a look at the call adapters. -/
theorem Composes.compose {spec : MethodSpec} {arguments : ArgumentType} {response : Ty}
    {method : Method} (h : Composes spec arguments response bench method bench') :
    compose spec arguments response bench = .ok method bench' := by
  rcases h with h | ⟨adapters, family, h⟩
  · exact h
  · unfold composeAdapted at h
    cases hfault : adapterFault? adapters spec.methodName family response with
    | some fault =>
      rw [hfault] at h
      exact (throw_ok.mp h).elim
    | none =>
      rw [hfault] at h
      exact h

/-! ## 3. Specifications without fault -/

theorem faultAfter_eq_none_iff {context : String} : ∀ {bindings : List Binding}
    {seen : List String}, faultAfter context seen bindings = none ↔
      (bindings.map (·.wireName)).Nodup ∧
        ∀ binding ∈ bindings, binding.wireName ≠ "" ∧ binding.wireName ∉ seen
  | [], seen => by simp [faultAfter]
  | binding :: bindings, seen => by
    rw [List.map_cons, List.nodup_cons, List.forall_mem_cons, faultAfter]
    by_cases hname : binding.wireName = ""
    · simp [hname]
    · by_cases hseen : binding.wireName ∈ seen
      · simp [hname, hseen]
      · rw [if_neg hname, if_neg hseen, faultAfter_eq_none_iff]
        simp only [List.mem_cons, not_or, List.mem_map, not_exists, not_and]
        constructor
        · rintro ⟨hnodup, hothers⟩
          refine ⟨⟨fun other hother => (hothers other hother).2.1, hnodup⟩, ⟨hname, hseen⟩, ?_⟩
          exact fun other hother => ⟨(hothers other hother).1, (hothers other hother).2.2⟩
        · rintro ⟨⟨hfirst, hnodup⟩, -, hothers⟩
          refine ⟨hnodup, fun other hother => ⟨(hothers other hother).1, ?_, ?_⟩⟩
          · exact hfirst other hother
          · exact (hothers other hother).2

/-- The parameters of a method without fault have different names and are as many as the
arguments. -/
theorem MethodSpec.parameters_of_faultless {spec : MethodSpec} {types : List Ty}
    (h : spec.fault? (.positional types) = none) :
    (spec.parameters.map (·.wireName)).Nodup ∧ spec.parameters.length = types.length := by
  unfold MethodSpec.fault? at h
  split at h
  · cases h
  · split at h
    · cases h
    · cases hnames : Naming.fault? spec.methodName spec.parameters with
      | some fault =>
        rw [hnames] at h
        cases h
      | none =>
        rw [hnames] at h
        refine ⟨(faultAfter_eq_none_iff.mp hnames).1, ?_⟩
        simp only [MethodSpec.shapeFault?] at h
        split at h
        · cases h
        · split at h
          · rename_i hlength
            exact hlength.symm
          · cases h

/-! ## 4. What an invocation writes -/

/-- The arguments have the types that the method was composed for. -/
inductive Arguments.Typed (catalog : Catalog) : ArgumentType → Arguments → Prop
  | positional {types : List Ty} {values : List Datum}
    (values_typed : List.Forall₂ (HasType catalog) values types) :
    Typed catalog (.positional types) (.positional values)
  | object {type : Ty} {value : Datum} (value_typed : HasType catalog value type) :
    Typed catalog (.object type) (.object value)

/-- Parameters as the members of a record: each has the wire name of its binding and its type. -/
def boundMembers : List Binding → List Ty → List Member :=
  List.zipWith fun binding type => ⟨binding.member, binding.wireName, type, .none⟩

theorem boundMembers_typed : ∀ {bindings : List Binding} {types : List Ty} {values : List Datum},
    bindings.length = types.length → List.Forall₂ (HasType catalog) values types →
    List.Forall₂ (fun value member => HasType catalog value member.type) values
      (boundMembers bindings types)
  | [], _, _, _, .nil => .nil
  | _ :: _, _, _, hlength, .cons hvalue hvalues =>
    .cons hvalue (boundMembers_typed (Nat.succ.inj hlength) hvalues)

theorem wireName_boundMembers : ∀ {bindings : List Binding} {types : List Ty},
    bindings.length = types.length →
    (boundMembers bindings types).map (·.wireName) = bindings.map (·.wireName)
  | [], _, _ => rfl
  | _ :: _, [], hlength => by cases hlength
  | binding :: bindings, type :: types, hlength =>
    congrArg (binding.wireName :: ·) (wireName_boundMembers (Nat.succ.inj hlength))

/-- **Positional arguments are written like the members of a record.** -/
theorem Encoder.writesAll_writeEach (scopes : List Scope) : ∀ {types : List Ty}
    {adapters : List Adapter} {bindings : List Binding} {values : List Datum},
    List.Forall₂ (Adapter.Serves catalog) types adapters →
    List.Forall₂ (HasType catalog) values types → bindings.length = types.length →
    Writer.WritesAll (Encoder.writeEach adapters bindings values) (.object :: scopes)
      (Datum.memberTrees? catalog values (boundMembers bindings types))
  | _, _, bindings, _, .nil, .nil, _ => by
    rw [Encoder.writeEach, Datum.memberTrees?]
    · exact Writer.writesAll_nil
    all_goals simp
  | _, _, binding :: bindings, value :: values, .cons hserves hall, .cons hvalue hvalues,
      hlength => by
    obtain ⟨rfl, hclosed, hknown⟩ := hserves
    have hwrite := Table.writes_write hclosed value (.object :: scopes) hknown hvalue
    have hrest := Encoder.writesAll_writeEach scopes hall hvalues (Nat.succ.inj hlength)
    have hentry := Table.writesAll_entry hclosed hknown hvalue hwrite binding.wireName hrest
    rw [Encoder.writeEach, Adapter.writeEntry, Adapter.isAbsent]
    split at hentry
    · rename_i habsent
      rw [if_pos habsent]
      exact hentry
    · rename_i habsent
      rw [if_neg habsent, bind_assoc]
      exact hentry

theorem Method.request_ok {method : Method} {data : Arguments} {payload : Option Bytes}
    {request : Request} : method.request data payload = .ok request ↔
      ∃ built, Request.build method.name (method.encoder.write method.bindings data) = .ok built ∧
        request = { built with payload := payload } := by
  unfold Method.request
  rw [except_bind_ok]
  refine exists_congr fun built => and_congr_right fun hbuilt => ?_
  obtain ⟨body, -, hbody⟩ := except_bind_ok.mp hbuilt
  cases hbody
  cases payload with
  | none => exact ⟨fun h => by cases h; rfl, fun h => by rw [h]; rfl⟩
  | some bytes => exact ⟨fun h => by cases h; rfl, fun h => by rw [h]; rfl⟩

/-! ## 5. What is received -/

/-- What the parameters of a request show of arguments that were sent.

* Of positional arguments each that is not absent, under the wire name of its binding, and nothing
  else.
* Of an object argument the fields of the object that a registry encodes it as; a generic value is
  one that has fields. -/
def Arguments.ShownBy (catalog : Catalog) (registry : Registry) (bindings : List Binding) :
    ArgumentType → Arguments → Fields Value → Prop
  | .positional types, .positional values, parameters =>
    (bindings.map (·.wireName)).Nodup ∧ Fields.Ordered parameters ∧
      parameters.Perm (Datum.genericMembers catalog values (boundMembers bindings types))
  | .object type, .object datum, parameters =>
    (∃ bytes, registry.encode type datum = .ok bytes ∧
      Value.dump bytes = .ok [.object parameters]) ∧
    ∀ value, datum = .value value → ∃ fields, value = .object fields
  | _, _, _ => False

/-- The members of a record of positional arguments are what is shown of them. -/
theorem Arguments.shownBy_positional {registry : Registry} {bindings : List Binding}
    {types : List Ty} {values : List Datum} {entries : List (SizedText 2 × Tree)}
    (hnodup : (bindings.map (·.wireName)).Nodup) (hlength : bindings.length = types.length)
    (hvalues : List.Forall₂ (HasType catalog) values types)
    (hentries : Datum.memberTrees? catalog values (boundMembers bindings types) = some entries) :
    Arguments.ShownBy catalog registry bindings (.positional types) (.positional values)
      (Fields.ofList (Tree.entryValues entries)) := by
  have hmembers := boundMembers_typed hlength hvalues
  rw [Datum.values_of_memberTrees? values hmembers hentries]
  refine ⟨hnodup, Fields.ordered_ofList _, Fields.perm_ofList ?_⟩
  rw [← wireName_boundMembers hlength] at hnodup
  exact hnodup.sublist (Datum.names_genericMembers values (boundMembers bindings types))

/-- The entries of an object's tree are what is shown of it, whatever else has been resolved. -/
theorem Arguments.shownBy_object {types : List Ty} {bindings : List Binding}
    {entries : List (SizedText 2 × Tree)} (htype : HasType catalog datum type)
    (hknown : Registry.knows ((Registry.new catalog []).resolveAll types).cache type = true)
    (htree : datum.tree? catalog type = some (.object entries))
    (hdepth : (Tree.object entries).depth ≤ maxDepth) :
    Arguments.ShownBy catalog ((Registry.new catalog []).resolveAll types) bindings (.object type)
      (.object datum) (Fields.ofList (Tree.entryValues entries)) := by
  have hencode := Registry.encode_of_tree? htype hknown htree hdepth
  have hdump := Value.dump_stream (List.forall_mem_singleton.mpr hdepth) (.inr ⟨[], rfl⟩)
  rw [List.flatMap_singleton] at hdump
  refine ⟨⟨_, hencode, hdump⟩, ?_⟩
  rintro value rfl
  exact Value.fields_of_tree? htree

/-- **A composed method sends exactly its arguments.**  Whoever decodes the frame of its request
finds the name of the method, the payload, and parameters that show the arguments. -/
theorem compose_sends {spec : MethodSpec} {arguments : ArgumentType} {response : Ty}
    {method : Method} {data : Arguments} {payload : Option Bytes} {request : Request}
    (hbench : bench.Resolved catalog earlier)
    (hcompose : Composes spec arguments response bench method bench')
    (htyped : data.Typed catalog arguments)
    (hrequest : method.request data payload = .ok request) :
    ∃ parameters,
      ReceivedRequest.decode request.frame =
        .ok ⟨spec.methodName, parameters, payload.getD []⟩ ∧
      ∀ later, data.ShownBy catalog (bench'.registry.resolveAll later) spec.parameters arguments
        parameters := by
  obtain ⟨hfaultless, hname, hbindings, hserves, ⟨resolved, hbench'⟩, hknows⟩ :=
    compose_ok hbench hcompose.compose
  obtain ⟨built, hbuilt, rfl⟩ := Method.request_ok.mp hrequest
  rw [hname, hbindings] at hbuilt
  generalize method.encoder = encoder at hserves hbuilt
  cases htyped with
  | @positional types values hvalues =>
    obtain ⟨hnodup, hlength⟩ := MethodSpec.parameters_of_faultless hfaultless
    cases hserves with
    | @positional _ adapters hserves =>
      have hwrites : Writer.WritesAll
          ((Encoder.positional adapters).write spec.parameters (.positional values)) [.object]
          (Datum.memberTrees? catalog values (boundMembers spec.parameters types)) := by
        rw [Encoder.write, if_pos (.inr (hlength.trans hserves.length_eq))]
        exact Encoder.writesAll_writeEach [] hserves hvalues hlength
      obtain ⟨entries, hentries, -, hreceived⟩ := Request.decode_frame hwrites hbuilt payload
      exact ⟨_, hreceived, fun _ => Arguments.shownBy_positional hnodup hlength hvalues hentries⟩
  | @object type datum hdatum =>
    cases hserves with
    | object hserves hspreads =>
      obtain ⟨entries?, hwrites, htree⟩ := hserves.writesAll_writeFields hspreads hdatum []
      obtain ⟨entries, hentries, hdepth, hreceived⟩ := Request.decode_frame hwrites hbuilt payload
      refine ⟨_, hreceived, fun later => ?_⟩
      have hknown := Registry.knows_resolveAll later (hknows type (List.mem_singleton_self type))
      rw [hbench', ← Registry.resolveAll_append] at hknown ⊢
      exact Arguments.shownBy_object hdatum hknown (htree entries hentries) hdepth

/-- A method of two parameters. -/
def listSpec : MethodSpec :=
  ⟨"list_notes", some "notes.list", [⟨"notebook", "notebook"⟩, ⟨"max_results", "maxResults"⟩],
    false⟩

/-- A method that takes an object. -/
def linkSpec : MethodSpec := ⟨"link", some "link", [], true⟩

/-- A missing argument is not sent.  Of an object its members are sent, next to a payload that looks
like the end of a stream. -/
theorem compose_sends_list_link :
    (∃ method bench request,
      compose listSpec (.positional [.string, .option (.integer .i32)]) .unit
          ⟨Registry.new chain [], []⟩ = .ok method bench ∧
        method.request (.positional [.string "inbox", .none]) none = .ok request ∧
        ReceivedRequest.decode request.frame =
          .ok ⟨"notes.list", [("notebook", .string "inbox")], []⟩) ∧
    ∃ method bench request parameters bytes,
      compose linkSpec (.object (.model "Chain")) .bool
          ⟨(Registry.new chain []).resolveAll [.bool], []⟩ = .ok method bench ∧
        method.request (.object (.record [.none, .instant 0, .none])) (some [0x00, 0x00]) =
          .ok request ∧
        ReceivedRequest.decode request.frame = .ok ⟨"link", parameters, [0x00, 0x00]⟩ ∧
        bench.registry.encode (.model "Chain") (.record [.none, .instant 0, .none]) = .ok bytes ∧
        Value.dump bytes = .ok [.object parameters] := by
  constructor
  · have htyped : Arguments.Typed chain (.positional [.string, .option (.integer .i32)])
        (.positional [.string "inbox", .none]) :=
      .positional (.cons (.string _) (.cons (.none _) .nil))
    have hbench : Workbench.Resolved chain [] ⟨Registry.new chain [], []⟩ := rfl
    obtain ⟨method, bench, hcompose, request, hrequest⟩ : ∃ method bench,
        compose listSpec (.positional [.string, .option (.integer .i32)]) .unit
          ⟨Registry.new chain [], []⟩ = .ok method bench ∧
        ∃ request, method.request (.positional [.string "inbox", .none]) none = .ok request :=
      ⟨_, _, rfl, _, rfl⟩
    obtain ⟨parameters, hdecode, hshown⟩ := compose_sends hbench (.inl hcompose) htyped hrequest
    obtain rfl : parameters = [("notebook", .string "inbox")] :=
      List.perm_singleton.mp (hshown []).2.2
    exact ⟨method, bench, request, hcompose, hrequest, hdecode⟩
  · have htyped : Arguments.Typed chain (.object (.model "Chain"))
        (.object (.record [.none, .instant 0, .none])) :=
      .object (.record rfl (.cons (.none _) (.cons (.instant _) (.cons (.none _) .nil))))
    have hbench : Workbench.Resolved chain [.bool]
      ⟨(Registry.new chain []).resolveAll [.bool], []⟩ := rfl
    obtain ⟨method, bench, hcompose, request, hrequest⟩ : ∃ method bench,
        compose linkSpec (.object (.model "Chain")) .bool
          ⟨(Registry.new chain []).resolveAll [.bool], []⟩ = .ok method bench ∧
        ∃ request, method.request (.object (.record [.none, .instant 0, .none]))
          (some [0x00, 0x00]) = .ok request :=
      ⟨_, _, rfl, _, rfl⟩
    obtain ⟨parameters, hdecode, hshown⟩ := compose_sends hbench (.inl hcompose) htyped hrequest
    obtain ⟨⟨bytes, hencode, hdump⟩, -⟩ := hshown []
    exact ⟨method, bench, request, parameters, bytes, hcompose, hrequest, hdecode, hencode, hdump⟩

end Client

end RemoteCall
