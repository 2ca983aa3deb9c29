/-
# What a user does in a session

`Deed` lists what a user does with methods, calls and batches, by name: compose, call, build
batches, run and cancel, also on threads of its own and inside the operations of the endpoint.  A
deed that fails leaves a session behind too, and the user goes on from there.

Whatever a deed does is a sequence of changes, and `Deed.May` says what it can order at most: a deed
orders something for the batch that it names and for no other one, and most deeds build nothing
(`leads_perform`).  What a deed only reads it leaves as it is (`Quiet`).
-/
import RemoteCall.Proofs.Client.Session.Change
import RemoteCall.Proofs.Outcome

namespace RemoteCall.Client

open Success

/-! ## 1. Deeds -/

/-- What a user does with methods, calls and batches. -/
inductive Deed where
  | compose (name : String) (family : Option ReturnFamily) (spec : MethodSpec)
    (arguments : ArgumentType) (response : Ty)
  | call (name methodName : String) (arguments : Arguments) (payload : Option Bytes)
  | rawCall (name methodName : String) (parameters : Fields Value) (response : Ty)
    (payload : Option Bytes)
  | execute (name : String)
  | cancel (name : String)
  | clone (name copy : String)
  | newBatch (name : String)
  | add (name key methodName : String) (arguments : Arguments)
  | addCall (name key callName : String)
  | cloneBatch (name copy : String)
  | executeBatch (name : String) (listening : Listening)
  | enqueueBatch (name : String) (listening : Listening) (cancelled : Bool)
  | cancelBatch (name : String)
  | arm (event : EventKind) (number : Nat) (target : Session.Target) (cancels : Bool)
  | spawnThread (name : String) (target : Session.Target) (listening : Listening)
  | join (name : String)
  | hold (holding : Bool)
  | received

namespace Deed

/-- Whether a deed makes a batch or extends one. -/
def builds : Deed → Bool
  | newBatch _ | add .. | addCall .. | cloneBatch .. => true
  | _ => false

/-- The batch that a target is. -/
def targetBatch? (session : Session) : Session.Target → Option Nat
  | .call _ => none
  | .batch name => session.batches.lookup name

/-- The batch that a deed extends, runs or cancels. -/
def batch? (session : Session) : Deed → Option Nat
  | add name .. | addCall name .. | executeBatch name _ | enqueueBatch name .. | cancelBatch name =>
    session.batches.lookup name
  | arm _ _ target _ | spawnThread _ target _ => targetBatch? session target
  | _ => none

/-- What a deed can order. -/
structure May (session : Session) (deed : Deed) (order : Order) : Prop where
  batch : ∀ id, order.batch? = some id → deed.batch? session = some id
  builds : order.builds = true → deed.builds = true

end Deed

namespace Session

/-- What a deed does. -/
def act : Deed → Act Unit
  | .compose name family spec arguments response =>
    discard (compose name family spec arguments response)
  | .call name methodName arguments payload => discard (call name methodName arguments payload)
  | .rawCall name methodName parameters response payload =>
    discard (rawCall name methodName parameters response payload)
  | .execute name => discard (execute name)
  | .cancel name => cancel name
  | .clone name copy => clone name copy
  | .newBatch name => keepBatch name (.ofItems [])
  | .add name key methodName arguments => discard (add name key methodName arguments)
  | .addCall name key callName => discard (addCall name key callName)
  | .cloneBatch name copy => cloneBatch name copy
  | .executeBatch name listening => discard (executeBatch name listening)
  | .enqueueBatch name listening cancelled => discard (enqueueBatch name listening cancelled)
  | .cancelBatch name => cancelBatch name
  | .arm event number target cancels => arm event number target cancels
  | .spawnThread name target listening => spawnThread name target listening
  | .join name => discard (join name)
  | .hold holding => hold holding
  | .received => discard received

/-- The session after a deed, whether the deed has succeeded or failed. -/
def perform (session : Session) (deed : Deed) : Session := (effect (act deed) session).2

/-- Whether a deed succeeds. -/
def succeeds (session : Session) (deed : Deed) : Bool := (effect (act deed) session).1.isNone

/-- The session after deeds. -/
def performAll (session : Session) (deeds : List Deed) : Session := deeds.foldl perform session

/-! ## 2. Looking things up -/

section

variable {α β : Type} {session session' : Session} {name : String}

/-- The act leaves the session as it is. -/
def Quiet (x : Act α) : Prop := ∀ session, (effect x session).2 = session

theorem Quiet.of_ok {x : Act α} {a : α} (h : Quiet x) (hx : x session = .ok a session') :
    session' = session := by
  have := h session
  rwa [effect_eq_none_iff.mpr ⟨a, hx⟩] at this

theorem Quiet.of_error {x : Act α} {failure : Failure} (h : Quiet x)
    (hx : x session = .error failure session') : session' = session := by
  have := h session
  rwa [effect_eq_some_iff.mpr hx] at this

theorem Quiet.bind {x : Act α} {f : α → Act β} (hx : Quiet x) (hf : ∀ a, Quiet (f a)) :
    Quiet (x >>= f) := by
  intro session
  cases h : x session with
  | ok a session' =>
    obtain rfl := hx.of_ok h
    rw [effect_bind_of_ok h]
    exact hf a _
  | error failure session' =>
    obtain rfl := hx.of_error h
    rw [effect_bind_of_error h]

theorem quiet_pure (a : α) : Quiet (pure a) := fun _ => rfl

theorem quiet_get_bind {f : Session → Act α} (hf : ∀ session, Quiet (f session)) :
    Quiet (get >>= f) := fun session => hf session session

theorem quiet_check (result : Except Error α) : Quiet (check result) := by
  cases result <;> exact fun _ => rfl

theorem check_ok {result : Except Error α} {a : α} (h : check result session = .ok a session') :
    session' = session ∧ result = .ok a := by
  cases result with
  | error => cases h
  | ok b => cases h; exact ⟨rfl, rfl⟩

theorem find_of_some {noun : String} {table : Session → List (String × α)} {a : α}
    (h : (table session).lookup name = some a) : find noun table name session = .ok a session := by
  rw [find, get_bind, h]
  rfl

theorem find_of_none {noun : String} {table : Session → List (String × α)}
    (h : (table session).lookup name = none) :
    find noun table name session = .error (.missing noun) session := by
  rw [find, get_bind, h]
  rfl

theorem find_ok_iff {noun : String} {table : Session → List (String × α)} {a : α} :
    find noun table name session = .ok a session' ↔
      session' = session ∧ (table session).lookup name = some a := by
  cases h : (table session).lookup name with
  | none => simp [find_of_none h]
  | some b =>
    rw [find_of_some h, EStateM.Result.ok.injEq, Option.some.injEq]
    exact ⟨fun ⟨h₁, h₂⟩ => ⟨h₂.symm, h₁⟩, fun ⟨h₁, h₂⟩ => ⟨h₂, h₁.symm⟩⟩

theorem quiet_find (noun : String) (table : Session → List (String × α)) (name : String) :
    Quiet (find noun table name) := by
  intro session
  cases h : (table session).lookup name with
  | none => simp [effect, find_of_none h]
  | some a => simp [effect, find_of_some h]

/-- The thing of a name as it is. -/
def fetch (noun : String) (names : Session → List (String × Nat)) (things : Session → List α)
    (name : String) : Act α := do
  match (things (← get))[← find noun names name]? with
  | some thing => return thing
  | none => throw (.missing noun)

theorem callNamed_eq_fetch :
    callNamed name = fetch "call" (·.calls) (·.machine.calls) name :=
  bind_congr fun session => bind_congr fun id => by
    cases session.machine.calls[id]? <;> rfl

theorem batchNamed_eq_fetch :
    batchNamed name = fetch "batch" (·.batches) (·.machine.batches) name :=
  bind_congr fun session => bind_congr fun id => by
    cases session.machine.batches[id]? <;> rfl

section

variable {noun : String} {names : Session → List (String × Nat)} {things : Session → List α}

theorem quiet_fetch : Quiet (fetch noun names things name) :=
  quiet_get_bind fun session => (quiet_find _ _ name).bind fun id => by
    intro other
    cases (things session)[id]? <;> rfl

theorem fetch_ok_iff {a : α} : fetch noun names things name session = .ok a session' ↔
    session' = session ∧ ∃ id, (names session).lookup name = some id ∧
      (things session)[id]? = some a := by
  simp only [fetch, get_bind, bind_ok, find_ok_iff]
  constructor
  · rintro ⟨id, t, ⟨rfl, hname⟩, h⟩
    cases hfound : (things t)[id]? with
    | none =>
      rw [hfound] at h
      cases h
    | some b =>
      rw [hfound] at h
      obtain ⟨rfl, rfl⟩ := pure_ok.mp h
      exact ⟨rfl, id, hname, hfound⟩
  · rintro ⟨rfl, id, hname, hfound⟩
    exact ⟨id, session', ⟨rfl, hname⟩, by rw [hfound]; rfl⟩

end

end

/-! ## 3. What a deed orders -/

section

variable {α β : Type} {may : Order → Prop} {config : Config} {session session' : Session}
  {name : String}

/-- A chain of acts is a sequence of changes if its parts are. -/
theorem leads_bind {x : Act α} {f : α → Act β} (hx : Leads may session (effect x session).2)
    (hf : ∀ a t, x session = .ok a t → Leads may t (effect (f a) t).2) :
    Leads may session (effect (x >>= f) session).2 := by
  cases h : x session with
  | ok a t =>
    rw [effect_eq_none_iff.mpr ⟨a, h⟩] at hx
    rw [effect_bind_of_ok h]
    exact hx.trans (hf a t h)
  | error failure t =>
    rw [effect_eq_some_iff.mpr h] at hx
    rw [effect_bind_of_error h]
    exact hx

/-- What comes after an act that only reads starts where the act did. -/
theorem leads_quiet_bind {x : Act α} {f : α → Act β} (hx : Quiet x)
    (hf : ∀ a, x session = .ok a session → Leads may session (effect (f a) session).2) :
    Leads may session (effect (x >>= f) session).2 := by
  refine leads_bind (by rw [hx]; exact .refl) fun a t h => ?_
  obtain rfl := hx.of_ok h
  exact hf a h

theorem leads_find_bind {noun : String} {table : Session → List (String × α)} {f : α → Act β}
    (hf : ∀ a, (table session).lookup name = some a → Leads may session (effect (f a) session).2) :
    Leads may session (effect (find noun table name >>= f) session).2 :=
  leads_quiet_bind (quiet_find noun table name) fun a h => hf a (find_ok_iff.mp h).2

theorem leads_discard {x : Act α} (h : Leads may session (effect x session).2) :
    Leads may session (effect (discard x) session).2 := by
  rwa [effect_discard]

/-- What has a name is there. -/
theorem lt_of_lookup {entries : List (String × Nat)} {id n : Nat}
    (hknown : ∀ entry ∈ entries, entry.2 < n) (h : entries.lookup name = some id) : id < n := by
  obtain ⟨before, after, rfl, -⟩ := List.lookup_eq_some_iff.mp h
  exact hknown (name, id) (by simp)

theorem leads_begin {order : Order} {task : Task} (hmay : may order)
    (htask : order.task? = some task) (hfresh : task.IsFresh session.machine) :
    Leads may session (session.spawn task).2 :=
  Leads.refl.tail (.obeyed hmay (Machine.obey_of_task? htask hfresh))

theorem leads_await (task : TaskId) : Leads may session (effect (await task) session).2 := by
  have hmoved : Leads may session (awaitWithin task patience session) := leads_awaitWithin _ _
  refine leads_bind hmoved fun _ t _ => ?_
  rw [effect_get_bind]
  split <;> exact .refl

/-- A task that is begun before something else is done. -/
theorem leads_begin_bind {order : Order} {task : Task} {f : TaskId → Act β} (hmay : may order)
    (htask : order.task? = some task) (hfresh : task.IsFresh session.machine)
    (hf : ∀ i t, Leads may t (effect (f i) t).2) :
    Leads may session (effect (begin task >>= f) session).2 :=
  (leads_begin hmay htask hfresh).trans (hf _ _)

theorem leads_run {order : Order} {task : Task} (hmay : may order)
    (htask : order.task? = some task) (hfresh : task.IsFresh session.machine) :
    Leads may session (effect (run task) session).2 :=
  leads_begin_bind hmay htask hfresh fun i _ => leads_discard (leads_await i)

theorem leads_beginBatch {id : Nat} (listening : Listening) (hmay : may (.collect id))
    (hid : id < session.machine.batches.length) :
    Leads may session (effect (beginBatch id listening) session).2 :=
  (leads_begin hmay rfl (.collecting hid)).books rfl rfl rfl rfl fun _ hhook => hhook

theorem leads_settle : Leads may session (effect settle session).2 := leads_quiesceWithin _ _

/-- What is resolved on the workbench does not concern the client. -/
theorem leads_atBench (work : EStateM Error Workbench α) :
    Leads may session (effect (atBench work) session).2 := by
  rw [atBench, effect_get_bind]
  split
  refine leads_bind (Leads.refl.books rfl rfl rfl rfl fun _ hhook => hhook) fun _ t _ => ?_
  rw [quiet_check]
  exact .refl

/-! ### Methods and calls -/

theorem leads_compose {family : Option ReturnFamily} {spec : MethodSpec}
    {arguments : ArgumentType} {response : Ty} :
    Leads may session (effect (compose name family spec arguments response) session).2 := by
  rw [compose, effect_get_bind]
  refine leads_bind (leads_atBench _) fun method t _ => ?_
  exact Leads.refl.books rfl rfl rfl rfl fun _ hhook => hhook

/-- A call that is ordered is kept under a name. -/
theorem leads_keepCall {order : Order} {call : Call} (hmay : may order)
    (hdone : session.machine.obey order = some (session.machine.addCall call).2) :
    Leads may session (effect (keepCall name call) session).2 := by
  refine (Leads.refl.tail (.obeyed hmay hdone)).tail
    (.kept rfl rfl ?_ (fun _ h => .inl h) fun _ h => .inl h)
  rintro entry (_ | ⟨_, hentry⟩)
  · exact .inr (by simp [Machine.addCall])
  · exact .inl hentry

theorem quiet_newCall (method : Method) (arguments : Arguments) (payload : Option Bytes) :
    Quiet (newCall method arguments payload) :=
  (quiet_check _).bind fun _ => quiet_pure _

/-- The call of a method is one of the request that its arguments make. -/
theorem newCall_ok {method : Method} {arguments : Arguments} {payload : Option Bytes} {call : Call}
    (h : newCall method arguments payload session = .ok call session') :
    ∃ request, method.request arguments payload = .ok request ∧
      call = .new request method.decoder := by
  cases hrequest : method.request arguments payload with
  | error error =>
    rw [newCall, hrequest] at h
    cases h
  | ok request =>
    rw [newCall, hrequest] at h
    cases h
    exact ⟨request, rfl, rfl⟩

theorem leads_call {methodName : String} {arguments : Arguments} {payload : Option Bytes}
    (hmay : ∀ request decoder, may (.newCall request decoder)) :
    Leads may session (effect (call name methodName arguments payload) session).2 := by
  refine leads_find_bind fun found _ => ?_
  refine leads_quiet_bind (quiet_newCall _ _ _) fun made hmade => ?_
  obtain ⟨request, -, rfl⟩ := newCall_ok hmade
  exact leads_bind (leads_keepCall (hmay _ _) rfl) fun _ _ _ => .refl

theorem leads_rawCall {methodName : String} {parameters : Fields Value} {response : Ty}
    {payload : Option Bytes} (hmay : ∀ request decoder, may (.newCall request decoder)) :
    Leads may session (effect (rawCall name methodName parameters response payload) session).2 := by
  refine leads_quiet_bind (quiet_check _) fun request _ => ?_
  refine leads_bind (leads_atBench _) fun decoder t _ => ?_
  exact leads_bind (leads_keepCall (hmay _ _) rfl) fun _ _ _ => .refl

theorem leads_execute (hcoherent : session.Coherent config)
    (hmay : ∀ id, may (.execute id)) : Leads may session (effect (execute name) session).2 :=
  leads_find_bind fun id hname => leads_begin_bind (hmay id) rfl
    (.executing (lt_of_lookup hcoherent.calls hname)) fun i _ => leads_await i

theorem leads_cancel (hcoherent : session.Coherent config)
    (hmay : ∀ id, may (.cancel id)) : Leads may session (effect (cancel name) session).2 :=
  leads_find_bind fun id hname => leads_run (hmay id) rfl
    (.cancelling (lt_of_lookup hcoherent.calls hname))

theorem leads_clone {copy : String} (hmay : ∀ id, may (.cloneCall id)) :
    Leads may session (effect (clone name copy) session).2 := by
  rw [clone, callNamed_eq_fetch]
  refine leads_quiet_bind quiet_fetch fun found hfetched => ?_
  obtain ⟨-, id, -, hfound⟩ := fetch_ok_iff.mp hfetched
  exact leads_keepCall (hmay id) (by simp only [Machine.obey, hfound, Option.map_some])

/-! ### Batches -/

/-- A batch that is ordered is kept under a name. -/
theorem leads_keepBatch {order : Order} {batch : Batch} (hmay : may order)
    (hdone : session.machine.obey order = some (session.machine.addBatch batch).2) :
    Leads may session (effect (keepBatch name batch) session).2 := by
  refine (Leads.refl.tail (.obeyed hmay hdone)).tail
    (.kept rfl rfl (fun _ h => .inl h) ?_ fun _ h => .inl h)
  rintro entry (_ | ⟨_, hentry⟩)
  · exact .inr (by simp [Machine.addBatch])
  · exact .inl hentry

theorem leads_cloneBatch {copy : String} (hmay : ∀ id, may (.cloneBatch id)) :
    Leads may session (effect (cloneBatch name copy) session).2 := by
  rw [cloneBatch, batchNamed_eq_fetch]
  refine leads_quiet_bind quiet_fetch fun found hfetched => ?_
  obtain ⟨-, id, -, hfound⟩ := fetch_ok_iff.mp hfetched
  exact leads_keepBatch (hmay id) (by simp only [Machine.obey, hfound, Option.map_some])

theorem quiet_checkKey (batch : Batch) (key : String) : Quiet (checkKey batch key) := by
  intro session
  unfold checkKey
  cases batch.addFault? key <;> rfl

theorem checkKey_ok {batch : Batch} {key : String}
    (h : checkKey batch key session = .ok () session') : batch.addFault? key = none := by
  unfold checkKey at h
  cases hfault : batch.addFault? key with
  | none => rfl
  | some fault =>
    rw [hfault] at h
    cases h

/-- An item that may be added is ordered. -/
theorem leads_addItem {id : Nat} {batch : Batch} {key : String} {call : Call}
    (hfound : session.machine.batches[id]? = some batch) (hallowed : batch.addFault? key = none)
    (hmay : ∀ item, may (.addItem id item)) :
    Leads may session (effect (addItem id batch key call) session).2 := by
  refine Leads.refl.tail (.obeyed (hmay ⟨key, call.request, call.decoder⟩) ?_)
  simp only [Machine.obey, hfound, Option.bind_some, hallowed]

theorem leads_add {key methodName : String} {arguments : Arguments}
    (hmay : ∀ id item, session.batches.lookup name = some id → may (.addItem id item)) :
    Leads may session (effect (add name key methodName arguments) session).2 := by
  rw [add, batchNamed_eq_fetch]
  refine leads_quiet_bind quiet_fetch fun batch hfetched => ?_
  obtain ⟨-, id, hname, hfound⟩ := fetch_ok_iff.mp hfetched
  refine leads_find_bind fun found _ => ?_
  refine leads_quiet_bind (quiet_checkKey batch key) fun _ hchecked => ?_
  refine leads_find_bind fun id' hname' => ?_
  obtain rfl : id = id' := Option.some.inj (hname.symm.trans hname')
  exact leads_quiet_bind (quiet_newCall _ _ _) fun made _ =>
    leads_addItem hfound (checkKey_ok hchecked) fun item => hmay id item hname

theorem leads_addCall {key callName : String}
    (hmay : ∀ id item, session.batches.lookup name = some id → may (.addItem id item)) :
    Leads may session (effect (addCall name key callName) session).2 := by
  rw [addCall, batchNamed_eq_fetch, callNamed_eq_fetch]
  refine leads_quiet_bind quiet_fetch fun batch hfetched => ?_
  obtain ⟨-, id, hname, hfound⟩ := fetch_ok_iff.mp hfetched
  refine leads_quiet_bind quiet_fetch fun made _ => ?_
  refine leads_quiet_bind (quiet_checkKey batch key) fun _ hchecked => ?_
  refine leads_find_bind fun id' hname' => ?_
  obtain rfl : id = id' := Option.some.inj (hname.symm.trans hname')
  exact leads_addItem hfound (checkKey_ok hchecked) fun item => hmay id item hname

theorem leads_executeBatch {listening : Listening} (hcoherent : session.Coherent config)
    (hmay : ∀ id, session.batches.lookup name = some id → may (.collect id)) :
    Leads may session (effect (executeBatch name listening) session).2 :=
  leads_find_bind fun id hname =>
    leads_bind (leads_beginBatch listening (hmay id hname) (lt_of_lookup hcoherent.batches hname))
      fun i _ _ => leads_await i

theorem leads_cancelBatch (hcoherent : session.Coherent config)
    (hmay : ∀ id, session.batches.lookup name = some id → may (.stop id)) :
    Leads may session (effect (cancelBatch name) session).2 :=
  leads_find_bind fun id hname => leads_run (hmay id hname) rfl
    (.stopping (lt_of_lookup hcoherent.batches hname))

/-- Waiting for a batch in the background, after cancelling it on demand. -/
theorem leads_attend {id : Nat} (task : TaskId) (cancelled : Bool) (hmay : may (.stop id))
    (hid : id < session.machine.batches.length) :
    Leads may session (effect (do
      settle
      let running := !(← get).machine.isOver task
      if cancelled then run (.stopping id .entry)
      return (← await task, running) : Act (Outcome × Bool)) session).2 := by
  refine leads_bind leads_settle fun _ t ht => ?_
  -- the batch is still there whatever has happened in the meantime
  have hid' : id < t.machine.batches.length := by
    cases ht
    have hmoved : Leads may session (quiesceWithin patience session) := leads_quiesceWithin _ _
    exact Nat.lt_of_lt_of_le hid hmoved.batches_le
  rw [effect_get_bind]
  have hend : ∀ u : Session, Leads may u
      (effect (do return (← await task, !t.machine.isOver task) : Act (Outcome × Bool)) u).2 :=
    fun u => leads_bind (leads_await task) fun _ _ _ => .refl
  cases cancelled with
  | true => exact leads_bind (leads_run hmay rfl (.stopping hid')) fun _ u _ => hend u
  | false => exact hend t

/-- A batch that is started in the background is ordered. -/
theorem leads_enqueue (listening : Listening) {id : Nat} {enqueued : TaskId × Machine}
    (hmay : may (.enqueue id)) (h : session.machine.enqueue id = .ok enqueued) :
    Leads may session { session with
      machine := enqueued.2
      audiences := ⟨enqueued.1, listening, []⟩ :: session.audiences } :=
  (Leads.refl.tail (.obeyed hmay (by simp only [Machine.obey, h]))).books rfl rfl rfl rfl
    fun _ hhook => hhook

theorem leads_enqueueBatch {listening : Listening} {cancelled : Bool}
    (hcoherent : session.Coherent config)
    (hmay : ∀ id, session.batches.lookup name = some id → may (.enqueue id) ∧ may (.stop id)) :
    Leads may session (effect (enqueueBatch name listening cancelled) session).2 := by
  refine leads_find_bind fun id hname => ?_
  obtain ⟨henqueue, hstop⟩ := hmay id hname
  rw [effect_get_bind]
  refine leads_quiet_bind (quiet_check _) fun enqueued hchecked => ?_
  have hstarted := leads_enqueue listening henqueue (check_ok hchecked).2
  refine leads_bind hstarted fun _ t ht => ?_
  cases ht
  exact leads_attend _ _ hstop (Nat.lt_of_lt_of_le (lt_of_lookup hcoherent.batches hname)
    hstarted.batches_le)

/-! ### Threads and hooks -/

/-- What a target asks for is started on something that is there. -/
theorem taskOn_ok {target : Target} {cancels : Bool} {task : Task}
    (hcoherent : session.Coherent config)
    (h : taskOn target cancels session = .ok task session') :
    task.IsFresh session.machine ∧ ∃ order : Order, order.task? = some task ∧
      order.builds = false ∧
        ∀ id, order.batch? = some id → Deed.targetBatch? session target = some id := by
  cases target with
  | call name =>
    obtain ⟨id, t, hname, hresult⟩ := bind_ok.mp h
    obtain ⟨rfl, hname⟩ := find_ok_iff.mp hname
    obtain ⟨rfl, -⟩ := pure_ok.mp hresult
    have hid := lt_of_lookup hcoherent.calls hname
    cases cancels with
    | true => exact ⟨.cancelling hid, .cancel id, rfl, rfl, fun _ h => nomatch h⟩
    | false => exact ⟨.executing hid, .execute id, rfl, rfl, fun _ h => nomatch h⟩
  | batch name =>
    obtain ⟨id, t, hname, hresult⟩ := bind_ok.mp h
    obtain ⟨rfl, hname⟩ := find_ok_iff.mp hname
    obtain ⟨rfl, -⟩ := pure_ok.mp hresult
    have hid := lt_of_lookup hcoherent.batches hname
    cases cancels with
    | true => exact ⟨.stopping hid, .stop id, rfl, rfl, fun _ h => h ▸ hname⟩
    | false => exact ⟨.collecting hid, .collect id, rfl, rfl, fun _ h => h ▸ hname⟩

theorem quiet_taskOn (target : Target) (cancels : Bool) : Quiet (taskOn target cancels) := by
  cases target <;> exact (quiet_find _ _ _).bind fun _ => quiet_pure _

theorem leads_arm {event : EventKind} {number : Nat} {target : Target} {cancels : Bool}
    (hcoherent : session.Coherent config)
    (hmay : ∀ order : Order, order.builds = false →
      (∀ id, order.batch? = some id → Deed.targetBatch? session target = some id) → may order) :
    Leads may session (effect (arm event number target cancels) session).2 := by
  refine leads_quiet_bind (quiet_taskOn target cancels) fun task htask => ?_
  obtain ⟨hfresh, order, hordered, hbuilds, hbatch⟩ := taskOn_ok hcoherent htask
  refine Leads.refl.tail
    (.kept rfl rfl (fun _ h => .inl h) (fun _ h => .inl h) fun hook hhook => ?_)
  rcases List.mem_append.mp hhook with hold | hnew
  · exact .inl hold
  · obtain rfl := List.mem_singleton.mp hnew
    exact .inr ⟨hfresh, order, hmay order hbuilds hbatch, hordered⟩

theorem leads_spawnThread {target : Target} {listening : Listening}
    (hcoherent : session.Coherent config)
    (hmay : ∀ order : Order, order.builds = false →
      (∀ id, order.batch? = some id → Deed.targetBatch? session target = some id) → may order) :
    Leads may session (effect (spawnThread name target listening) session).2 := by
  have hrest : ∀ (i : TaskId) (t : Session), Leads may t
      (effect (do
        modify fun session => { session with threads := (name, i) :: session.threads }
        settle : Act Unit) t).2 := fun i t =>
    leads_bind (Leads.refl.books rfl rfl rfl rfl fun _ hhook => hhook) fun _ _ _ => leads_settle
  cases target with
  | call other =>
    refine leads_find_bind fun id hname => ?_
    exact leads_begin_bind (hmay (.execute id) rfl fun _ h => nomatch h) rfl
      (.executing (lt_of_lookup hcoherent.calls hname)) hrest
  | batch other =>
    refine leads_find_bind fun id hname => leads_bind ?_ fun i t _ => hrest i t
    exact leads_beginBatch listening (hmay (.collect id) rfl fun _ h => h ▸ hname)
      (lt_of_lookup hcoherent.batches hname)

theorem leads_join : Leads may session (effect (join name) session).2 :=
  leads_find_bind fun i _ => leads_await i

/-! ### All deeds -/

/-- **A deed is a sequence of changes**, and gives only the orders that it can give. -/
theorem leads_perform (hcoherent : session.Coherent config) (deed : Deed) :
    Leads (deed.May session) session (session.perform deed) := by
  have hunbuilt : ∀ order : Order, order.builds = false →
      (∀ id, order.batch? = some id → deed.batch? session = some id) → deed.May session order :=
    fun order hbuilds hbatch => ⟨hbatch, fun h => absurd (hbuilds.symm.trans h) (by simp)⟩
  cases deed with
  | compose => exact leads_discard leads_compose
  | call =>
    exact leads_discard (leads_call fun _ _ => hunbuilt _ rfl fun _ h => nomatch h)
  | rawCall =>
    exact leads_discard (leads_rawCall fun _ _ => hunbuilt _ rfl fun _ h => nomatch h)
  | execute =>
    exact leads_discard (leads_execute hcoherent fun _ => hunbuilt _ rfl fun _ h => nomatch h)
  | cancel => exact leads_cancel hcoherent fun _ => hunbuilt _ rfl fun _ h => nomatch h
  | clone => exact leads_clone fun _ => hunbuilt _ rfl fun _ h => nomatch h
  | newBatch name =>
    have hmay : Deed.May session (.newBatch name) .newBatch :=
      ⟨fun _ h => (nomatch h), fun _ => rfl⟩
    exact leads_keepBatch hmay rfl
  | add =>
    exact leads_discard (leads_add fun _ _ hname => ⟨fun _ h => h ▸ hname, fun _ => rfl⟩)
  | addCall =>
    exact leads_discard (leads_addCall fun _ _ hname => ⟨fun _ h => h ▸ hname, fun _ => rfl⟩)
  | cloneBatch => exact leads_cloneBatch fun _ => ⟨fun _ h => (nomatch h), fun _ => rfl⟩
  | executeBatch =>
    exact leads_discard (leads_executeBatch hcoherent fun _ hname =>
      hunbuilt _ rfl fun _ h => h ▸ hname)
  | enqueueBatch =>
    exact leads_discard (leads_enqueueBatch hcoherent fun _ hname =>
      ⟨hunbuilt _ rfl fun _ h => h ▸ hname, hunbuilt _ rfl fun _ h => h ▸ hname⟩)
  | cancelBatch =>
    exact leads_cancelBatch hcoherent fun _ hname => hunbuilt _ rfl fun _ h => h ▸ hname
  | arm => exact leads_arm hcoherent hunbuilt
  | spawnThread => exact leads_spawnThread hcoherent hunbuilt
  | join => exact leads_discard leads_join
  | hold => exact Leads.refl.books rfl rfl rfl rfl fun _ hhook => hhook
  | received => exact Leads.refl.books rfl rfl rfl rfl fun _ hhook => hhook

/-- A session that has just begun. -/
theorem coherent_new (config : Config) (registry : Registry) (adapters : CallAdapters)
    (endpoint : Endpoint) (faults : List Fault) :
    (Session.new config registry adapters endpoint faults).Coherent config :=
  ⟨⟨[], .new⟩, List.forall_mem_nil _, List.forall_mem_nil _, List.forall_mem_nil _,
    List.forall_mem_nil _⟩

theorem Coherent.perform (hcoherent : session.Coherent config) (deed : Deed) :
    (session.perform deed).Coherent config :=
  hcoherent.leads (leads_perform hcoherent deed)

/-- **The client of a session is one that a run comes to**, whatever its user does. -/
theorem Coherent.performAll (hcoherent : session.Coherent config) (deeds : List Deed) :
    (session.performAll deeds).Coherent config := by
  induction deeds generalizing session with
  | nil => exact hcoherent
  | cons deed deeds ih => exact ih (hcoherent.perform deed)

end

end Session

end RemoteCall.Client
