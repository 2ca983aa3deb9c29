/-
# Building batches

A batch keeps two collections: its items, in order, and the set of the keys that are taken.  Whether
a key may be added is asked of the set, and what runs are the items, so the two have to say the
same.  They do after every sequence of deeds, successful or not (`building_in_step`):

* the keys that are taken are those of the items, each of one item, in the order of insertion;
* what fails to be added leaves the whole session as it was, wherever it fails, so an item whose
  arguments could not be encoded keeps no key from being used;
* a batch that has been executed is not executed again, and the attempt runs nothing;
* a clone has the items of its original and nothing of its run, and neither sees what becomes of the
  other.

Insertions are noted in a record of their own (`Session.history`), which looks at the deeds and at
whether they succeed, and not at the batches.
-/
import RemoteCall.Proofs.Client.Session.Refusal

namespace RemoteCall.Client.Session

open Success

/-! ## 1. Adding -/

/-- The session with a batch replaced. -/
def replaced (session : Session) (id : Nat) (batch : Batch) : Session :=
  { session with machine := { session.machine with
      batches := session.machine.batches.set id batch } }

/-- What comes of adding an item for `call` to batch `id` under a key; there is no call if its
arguments cannot be encoded.  Whatever fails leaves the session as it was. -/
structure Adds (session : Session) (id : Nat) (batch : Batch) (key : String)
    (call : Except Error Call) (act : Act Nat) : Prop where
  /-- The batch is extended at its end, and nothing else is different. -/
  added : batch.started = false → key ∉ keysOf batch.items → ∀ made, call = .ok made →
    ∃ batch', batch'.items = batch.items ++ [⟨key, made.request, made.decoder⟩] ∧
      batch' = { batch with items := batch'.items, keys := batch'.keys } ∧
      (∀ other, other ∈ batch'.keys ↔ other ∈ batch.keys ∨ other = key) ∧
      act session = .ok batch'.items.length (session.replaced id batch')
  started : batch.started = true →
    act session = .error (.error (.usage .batchStarted)) session
  duplicate : batch.started = false → key ∈ keysOf batch.items →
    act session = .error (.error (.usage .duplicateKey)) session
  unencodable : batch.started = false → key ∉ keysOf batch.items → ∀ error, call = .error error →
    act session = .error (.error error) session

section

variable {session session' : Session} {name key methodName callName : String} {id : Nat}
  {batch : Batch} {call : Except Error Call}

/-- Adding is checking the batch and the key, then encoding, then extending. -/
theorem adds_of_eq {act : Act Nat} (hkeyed : batch.Keyed)
    (h : act session =
      (checkKey batch key >>= fun _ => check call >>= addItem id batch key : Act Nat) session) :
    session.Adds id batch key call act := by
  have htaken : batch.contains key = decide (key ∈ keysOf batch.items) := by
    rw [Batch.contains, hkeyed.keys_eq, List.contains_eq_mem]
  constructor
  case added =>
    rintro hunstarted hfree made rfl
    have hallowed : batch.addFault? key = none := by
      simp [Batch.addFault?, hunstarted, htaken, hfree]
    refine ⟨batch.add ⟨key, made.request, made.decoder⟩, rfl, rfl, fun other => ?_, ?_⟩
    · simp [Batch.add, htaken, hfree]
    · rw [h, checkKey, hallowed]
      rfl
  case started =>
    intro hstarted
    rw [h, checkKey, show batch.addFault? key = some .batchStarted by
      simp [Batch.addFault?, hstarted]]
    rfl
  case duplicate =>
    intro hunstarted hused
    rw [h, checkKey, show batch.addFault? key = some .duplicateKey by
      simp [Batch.addFault?, hunstarted, htaken, hused]]
    rfl
  case unencodable =>
    rintro hunstarted hfree error rfl
    rw [h, checkKey, show batch.addFault? key = none by
      simp [Batch.addFault?, hunstarted, htaken, hfree]]
    rfl

theorem batchNamed_of_some (hname : session.batches.lookup name = some id)
    (hfound : session.machine.batches[id]? = some batch) :
    batchNamed name session = .ok batch session := by
  rw [batchNamed_eq_fetch]
  exact fetch_ok_iff.mpr ⟨rfl, id, hname, hfound⟩

/-- **Adding a call of a method.**  The arguments are encoded last. -/
theorem adds_add {arguments : Arguments} {found : NamedMethod}
    (hname : session.batches.lookup name = some id)
    (hfound : session.machine.batches[id]? = some batch) (hkeyed : batch.Keyed)
    (hmethod : session.methods.lookup methodName = some found) :
    session.Adds id batch key
      ((found.method.request arguments none).map (.new · found.method.decoder))
      (add name key methodName arguments) := by
  refine adds_of_eq hkeyed ?_
  rw [add, bind_of_ok (batchNamed_of_some hname hfound), method, bind_of_ok (find_of_some hmethod)]
  refine bind_congr_of_ok rfl fun _ t hchecked => ?_
  obtain rfl := (quiet_checkKey batch key).of_ok hchecked
  rw [batchId, bind_of_ok (find_of_some hname), newCall]
  cases found.method.request arguments none <;> rfl

/-- **Adding the request of a call.** -/
theorem adds_addCall {callId : Nat} {made : Call}
    (hname : session.batches.lookup name = some id)
    (hfound : session.machine.batches[id]? = some batch) (hkeyed : batch.Keyed)
    (hcall : session.calls.lookup callName = some callId)
    (hmade : session.machine.calls[callId]? = some made) :
    session.Adds id batch key (.ok made) (addCall name key callName) := by
  refine adds_of_eq hkeyed ?_
  have hcallNamed : callNamed callName session = .ok made session := by
    rw [callNamed_eq_fetch]
    exact fetch_ok_iff.mpr ⟨rfl, callId, hcall, hmade⟩
  rw [addCall, bind_of_ok (batchNamed_of_some hname hfound), bind_of_ok hcallNamed]
  refine bind_congr_of_ok rfl fun _ t hchecked => ?_
  obtain rfl := (quiet_checkKey batch key).of_ok hchecked
  rw [batchId, bind_of_ok (find_of_some hname)]
  rfl

/-- A chain that reads and ends with an act that does not fail leaves the session as it was where it
fails. -/
theorem unchanged_of_error {α β : Type} {x : Act α} {f : α → Act β} {failure : Failure}
    (hx : Quiet x) (hf : ∀ a, x session = .ok a session → f a session = .error failure session' →
      session' = session) (h : (x >>= f) session = .error failure session') :
    session' = session := by
  cases hresult : x session with
  | ok a t =>
    obtain rfl := hx.of_ok hresult
    rw [bind_of_ok hresult] at h
    exact hf a hresult h
  | error other t =>
    obtain rfl := hx.of_error hresult
    have hstopped := effect_bind_of_error (f := f) hresult
    rw [effect_eq_some_iff.mpr h] at hstopped
    exact congrArg Prod.snd hstopped

/-- **What cannot be added leaves the whole session as it was**, whatever the reason. -/
theorem unchanged_of_add {arguments : Arguments} {failure : Failure}
    (h : add name key methodName arguments session = .error failure session') :
    session' = session := by
  rw [add, batchNamed_eq_fetch] at h
  refine unchanged_of_error quiet_fetch (fun batch _ => ?_) h
  refine unchanged_of_error (quiet_find _ _ _) fun found _ => ?_
  refine unchanged_of_error (quiet_checkKey _ _) fun _ _ => ?_
  refine unchanged_of_error (quiet_find _ _ _) fun _ _ => ?_
  exact unchanged_of_error (quiet_newCall _ _ _) fun _ _ h => by cases h

theorem unchanged_of_addCall {failure : Failure}
    (h : addCall name key callName session = .error failure session') : session' = session := by
  rw [addCall, batchNamed_eq_fetch, callNamed_eq_fetch] at h
  refine unchanged_of_error quiet_fetch (fun batch _ => ?_) h
  refine unchanged_of_error quiet_fetch fun made _ => ?_
  refine unchanged_of_error (quiet_checkKey _ _) fun _ _ => ?_
  exact unchanged_of_error (quiet_find _ _ _) fun _ _ h => by cases h

end

/-! ## 2. What has been inserted -/

/-- The keys of every batch, in order. -/
def keys (session : Session) : List (List String) :=
  session.machine.batches.map fun batch => keysOf batch.items

/-- The record after a deed that has succeeded. -/
def inserted (session : Session) (record : List (List String)) : Deed → List (List String)
  | .newBatch _ => record ++ [[]]
  | .add name key .. | .addCall name key _ =>
    match session.batches.lookup name with
    | some id => record.modify id (· ++ [key])
    | none => record
  | .cloneBatch name _ =>
    match session.batches.lookup name with
    | some id => record ++ record[id]?.toList
    | none => record
  | _ => record

/-- The record after a deed: what fails inserts nothing. -/
def noted (session : Session) (record : List (List String)) (deed : Deed) : List (List String) :=
  if session.succeeds deed then session.inserted record deed else record

/-- The keys that deeds insert into the batches, in order: those that are recorded already, and then
one for each `add` that succeeds. -/
def history (session : Session) (record : List (List String)) : List Deed → List (List String)
  | [] => record
  | deed :: deeds => (session.perform deed).history (session.noted record deed) deeds

section

variable {config : Config} {session session' : Session} {name key methodName callName copy : String}
  {id : Nat} {batch batch' : Batch} {deed : Deed} {record : List (List String)}

theorem keys_replaced (hfound : session.machine.batches[id]? = some batch)
    (hkeys : keysOf batch'.items = keysOf batch.items ++ [key]) :
    (session.replaced id batch').keys = session.keys.modify id (· ++ [key]) := by
  have hold : session.keys[id]? = some (keysOf batch.items) := by simp [keys, hfound]
  rw [List.modify_eq_set, hold]
  simp [keys, replaced, List.map_set, hkeys]

/-- What has been added extends a batch that is there by the key. -/
theorem added_of_add {arguments : Arguments} {count : Nat}
    (h : add name key methodName arguments session = .ok count session') :
    ∃ id batch item, session.batches.lookup name = some id ∧
      session.machine.batches[id]? = some batch ∧ item.key = key ∧
        session' = session.replaced id (batch.add item) := by
  rw [add, batchNamed_eq_fetch] at h
  obtain ⟨batch, t, hfetched, hfinding⟩ := bind_ok.mp h
  obtain ⟨rfl, id, hname, hfound⟩ := fetch_ok_iff.mp hfetched
  obtain ⟨found, u, hmethod, hchecking⟩ := bind_ok.mp hfinding
  obtain ⟨rfl, -⟩ := find_ok_iff.mp hmethod
  obtain ⟨⟨⟩, v, hchecked, hnaming⟩ := bind_ok.mp hchecking
  obtain rfl := (quiet_checkKey _ _).of_ok hchecked
  obtain ⟨id', w, hname', hmaking⟩ := bind_ok.mp hnaming
  obtain ⟨rfl, hname'⟩ := find_ok_iff.mp hname'
  obtain rfl : id = id' := Option.some.inj (hname.symm.trans hname')
  obtain ⟨made, x, hmade, hadded⟩ := bind_ok.mp hmaking
  obtain rfl := (quiet_newCall _ _ _).of_ok hmade
  cases hadded
  exact ⟨id, batch, ⟨key, made.request, made.decoder⟩, hname, hfound, rfl, rfl⟩

theorem added_of_addCall {count : Nat}
    (h : addCall name key callName session = .ok count session') :
    ∃ id batch item, session.batches.lookup name = some id ∧
      session.machine.batches[id]? = some batch ∧ item.key = key ∧
        session' = session.replaced id (batch.add item) := by
  rw [addCall, batchNamed_eq_fetch, callNamed_eq_fetch] at h
  obtain ⟨batch, t, hfetched, hfinding⟩ := bind_ok.mp h
  obtain ⟨rfl, id, hname, hfound⟩ := fetch_ok_iff.mp hfetched
  obtain ⟨made, u, hmade, hchecking⟩ := bind_ok.mp hfinding
  obtain rfl := quiet_fetch.of_ok hmade
  obtain ⟨⟨⟩, v, hchecked, hnaming⟩ := bind_ok.mp hchecking
  obtain rfl := (quiet_checkKey _ _).of_ok hchecked
  obtain ⟨id', w, hname', hadded⟩ := bind_ok.mp hnaming
  obtain ⟨rfl, hname'⟩ := find_ok_iff.mp hname'
  obtain rfl : id = id' := Option.some.inj (hname.symm.trans hname')
  cases hadded
  exact ⟨id, batch, ⟨key, made.request, made.decoder⟩, hname, hfound, rfl, rfl⟩

theorem cloneBatch_of_some (hname : session.batches.lookup name = some id)
    (hfound : session.machine.batches[id]? = some batch) :
    cloneBatch name copy session = .ok () { session with
      machine := { session.machine with batches := session.machine.batches ++ [batch.clone] }
      batches := (copy, session.machine.batches.length) :: session.batches } := by
  rw [cloneBatch, bind_of_ok (batchNamed_of_some hname hfound)]
  rfl

/-- A batch that is not there is not cloned. -/
theorem cloneBatch_ok (h : cloneBatch name copy session = .ok () session') :
    ∃ id batch, session.batches.lookup name = some id ∧
      session.machine.batches[id]? = some batch := by
  rw [cloneBatch, batchNamed_eq_fetch] at h
  obtain ⟨batch, t, hfetched, -⟩ := bind_ok.mp h
  obtain ⟨rfl, id, hname, hfound⟩ := fetch_ok_iff.mp hfetched
  exact ⟨id, batch, hname, hfound⟩

/-- What a deed comes to is what its act comes to. -/
theorem succeeds_of_ok {α : Type} {x : Act α} {a : α}
    (hact : effect (act deed) session = effect x session) (h : x session = .ok a session') :
    session.succeeds deed = true := by
  rw [succeeds, hact, effect_eq_none_iff.mpr ⟨a, h⟩]
  rfl

theorem failed_of_error {α : Type} {x : Act α} {failure : Failure}
    (hact : effect (act deed) session = effect x session)
    (h : x session = .error failure session') :
    session.succeeds deed = false ∧ session.perform deed = session' := by
  rw [succeeds, perform, hact, effect_eq_some_iff.mpr h]
  exact ⟨rfl, rfl⟩

/-- An insertion shows in the record if it succeeds, and leaves no trace if it fails. -/
theorem keys_of_act {α : Type} {x : Act α} (hact : effect (act deed) session = effect x session)
    (hfailed : ∀ failure session', x session = .error failure session' →
      session'.keys = session.keys)
    (hadded : ∀ a session', x session = .ok a session' →
      session'.keys = session.inserted session.keys deed) :
    (session.perform deed).keys = session.noted session.keys deed := by
  rw [noted, succeeds, perform, hact]
  cases h : x session with
  | ok a session' =>
    rw [effect_eq_none_iff.mpr ⟨a, h⟩]
    exact hadded a session' h
  | error failure session' =>
    rw [effect_eq_some_iff.mpr h]
    exact hfailed failure session' h

theorem keys_of_added (h : ∃ id batch item, session.batches.lookup name = some id ∧
      session.machine.batches[id]? = some batch ∧ item.key = key ∧
        session' = session.replaced id (batch.add item)) :
    ∃ id, session.batches.lookup name = some id ∧
      session'.keys = session.keys.modify id (· ++ [key]) := by
  obtain ⟨id, batch, item, hname, hfound, rfl, rfl⟩ := h
  exact ⟨id, hname, keys_replaced hfound (by simp [Batch.add, keysOf])⟩

/-- **The keys of the batches are those that have been inserted.** -/
theorem keys_perform (hcoherent : session.Coherent config) (deed : Deed) :
    (session.perform deed).keys = session.noted session.keys deed := by
  -- what builds nothing leaves all items as they are
  have hunbuilt : deed.builds = false → session.inserted session.keys deed = session.keys →
      (session.perform deed).keys = session.noted session.keys deed := by
    intro hbuilds hinserted
    have hitems := (leads_perform hcoherent deed).items_eq fun order hmay => by
      rw [← Bool.not_eq_true] at hbuilds ⊢
      exact fun horder => hbuilds (hmay.builds horder)
    rw [noted, hinserted, ite_self]
    simpa only [keys, List.map_map, Function.comp_def] using congrArg (List.map keysOf) hitems
  cases deed with
  | newBatch => exact List.map_append
  | add =>
    refine keys_of_act (effect_discard session)
      (fun failure session' h => congrArg keys (unchanged_of_add h)) fun count session' h => ?_
    obtain ⟨id, hname, hkeys⟩ := keys_of_added (added_of_add h)
    simpa only [inserted, hname] using hkeys
  | addCall =>
    refine keys_of_act (effect_discard session)
      (fun failure session' h => congrArg keys (unchanged_of_addCall h)) fun count session' h => ?_
    obtain ⟨id, hname, hkeys⟩ := keys_of_added (added_of_addCall h)
    simpa only [inserted, hname] using hkeys
  | cloneBatch name copy =>
    have hact : effect (act (.cloneBatch name copy)) session =
      effect (cloneBatch name copy) session := rfl
    refine keys_of_act hact (fun failure session' h => ?_) fun _ session' h => ?_
    · rw [cloneBatch, batchNamed_eq_fetch] at h
      exact congrArg keys (unchanged_of_error quiet_fetch (fun _ _ h => by cases h) h)
    · obtain ⟨id, batch, hname, hfound⟩ := cloneBatch_ok h
      cases (cloneBatch_of_some hname hfound).symm.trans h
      simp [inserted, hname, keys, hfound, Batch.clone, Batch.ofItems]
  | _ => exact hunbuilt rfl rfl

theorem keys_performAll (hcoherent : session.Coherent config) (deeds : List Deed) :
    (session.performAll deeds).keys = session.history session.keys deeds := by
  induction deeds generalizing session with
  | nil => rfl
  | cons deed deeds ih =>
    rw [history, ← keys_perform hcoherent]
    exact ih (hcoherent.perform deed)

end

/-! ## 3. Clones -/

/-- What comes of cloning a batch: a batch of the items that it has now, under a new name, on which
nobody works, and nothing else. -/
structure Clones (session : Session) (batch : Batch) (copy : String) (session' : Session) :
    Prop where
  named : session'.batches = (copy, session.machine.batches.length) :: session.batches
  fresh : ∃ fresh, session'.machine =
      { session.machine with batches := session.machine.batches ++ [fresh] } ∧
    fresh = .ofItems batch.items ∧ fresh.started = false ∧ fresh.cancelled = false
  idle : session'.Idle session.machine.batches.length

/-- No deed extends, runs or cancels the batch. -/
def Avoids (id : Nat) (session : Session) : List Deed → Prop
  | [] => True
  | deed :: deeds => deed.batch? session ≠ some id ∧ (session.perform deed).Avoids id deeds

/-- What becomes of a batch in one go if nothing is done with it: nothing, or what a task of its own
does in a turn. -/
def Minds (id : Nat) (session session' : Session) : Prop :=
  session'.machine.batches[id]? = session.machine.batches[id]? ∨
    ∃ i task effects, session.machine.tasks[i]? = some task ∧ task.user = .batch id ∧
      session.machine.Turn i (session'.machine, effects)

section

variable {config : Config} {session session' : Session} {name copy : String} {id : Nat}
  {batch : Batch} {may : Order → Prop} {deeds : List Deed}

theorem clones_of_some (hcoherent : session.Coherent config)
    (hname : session.batches.lookup name = some id)
    (hfound : session.machine.batches[id]? = some batch) :
    ∃ session', cloneBatch name copy session = .ok () session' ∧
      session.Clones batch copy session' := by
  obtain ⟨log, hreachable⟩ := hcoherent.reachable
  refine ⟨_, cloneBatch_of_some hname hfound, rfl,
    ⟨_, rfl, (hreachable.keyed hfound).clone_eq, rfl, rfl⟩, ?_, ?_, ?_⟩
  · simp
  · -- whoever works works on a batch that was there
    intro task htask huser
    have htidy := (hreachable.holds Team.Balanced.lasting).tidy task htask
    cases task with
    | executing | cancelling => cases huser
    | collecting => cases huser; exact absurd htidy.1 (Nat.lt_irrefl _)
    | working | stopping => cases huser; exact absurd htidy (Nat.lt_irrefl _)
  · intro hook hhook huser
    have hfresh := hcoherent.hooks hook hhook
    generalize hook.task = task at hfresh huser
    cases hfresh with
    | executing | cancelling => cases huser
    | collecting hknown | stopping hknown => cases huser; exact absurd hknown (Nat.lt_irrefl _)

theorem Change.minds (hknown : id < session.machine.batches.length)
    (hmay : ∀ order, may order → order.batch? ≠ some id) (h : Change may session session') :
    Minds id session session' := by
  cases h with
  | obeyed hallowed hdone => exact .inl (Machine.obey_leaves hknown (hmay _ hallowed) hdone).1
  | @moved i _ effects hturn =>
    obtain ⟨mover, _, hmover, hstep, -⟩ := hturn.step
    by_cases huser : mover.user = .batch id
    · exact .inr ⟨i, mover, effects, hmover, huser, hturn⟩
    · exact .inl (hstep.leaves huser).1
  | hooked | stopped | paused => exact .inl rfl
  | kept hmachine => exact .inl (by rw [hmachine])

theorem Leads.minds (hknown : id < session.machine.batches.length)
    (hmay : ∀ order, may order → order.batch? ≠ some id) (h : Leads may session session') :
    Relation.ReflTransGen (Minds id) session session' := by
  induction h with
  | refl => exact .refl
  | tail hbefore hchange ih =>
    exact ih.tail (hchange.minds (Nat.lt_of_lt_of_le hknown (Leads.batches_le hbefore)) hmay)

/-- **A batch minds its own business**: what is done with others changes nothing about it. -/
theorem minds_of_avoids (hcoherent : session.Coherent config)
    (hknown : id < session.machine.batches.length) (h : session.Avoids id deeds) :
    Relation.ReflTransGen (Minds id) session (session.performAll deeds) := by
  induction deeds generalizing session with
  | nil => exact .refl
  | cons deed deeds ih =>
    have hdone := leads_perform hcoherent deed
    exact (hdone.minds hknown fun order hmay horder => h.1 (hmay.batch id horder)).trans
      (ih (hcoherent.perform deed) (Nat.lt_of_lt_of_le hknown hdone.batches_le) h.2)

/-- **A batch on which nobody works does not change at all** until something is done with it. -/
theorem unchanged_of_avoids (hcoherent : session.Coherent config) (hidle : session.Idle id)
    (h : session.Avoids id deeds) :
    (session.performAll deeds).machine.batches[id]? = session.machine.batches[id]? := by
  induction deeds generalizing session with
  | nil => rfl
  | cons deed deeds ih =>
    obtain ⟨hidle', hsame⟩ := (leads_perform hcoherent deed).idle
      (fun order hmay horder => h.1 (hmay.batch id horder)) hidle
    exact (ih (hcoherent.perform deed) hidle' h.2).trans hsame

theorem started_performAll (hcoherent : session.Coherent config) (deeds : List Deed)
    (hstarted : session.machine.HasStarted id) :
    (session.performAll deeds).machine.HasStarted id := by
  induction deeds generalizing session with
  | nil => exact hstarted
  | cons deed deeds ih =>
    exact ih (hcoherent.perform deed) ((leads_perform hcoherent deed).started hcoherent hstarted)

end

/-! ## 4. Batches under construction -/

/-- Items and keys of the batches of a session are in step with each other and with the record, and
building goes on so. -/
structure Built (session : Session) (record : List (List String)) : Prop where
  /-- The items of a batch have the keys that have been inserted, in the order of insertion. -/
  recorded : session.keys = record
  /-- The keys that are taken are those of the items, and each belongs to one item. -/
  keyed : ∀ (id : Nat) (batch : Batch), session.machine.batches[id]? = some batch →
    (∀ key, key ∈ batch.keys ↔ ∃ item ∈ batch.items, item.key = key) ∧
      (batch.items.map (·.key)).Nodup
  add : ∀ (name : String) (id : Nat) (batch : Batch) (key methodName : String)
      (found : NamedMethod) (arguments : Arguments),
    session.batches.lookup name = some id → session.machine.batches[id]? = some batch →
      session.methods.lookup methodName = some found →
        session.Adds id batch key
          ((found.method.request arguments none).map (.new · found.method.decoder))
          (Session.add name key methodName arguments)
  addCall : ∀ (name : String) (id : Nat) (batch : Batch) (key callName : String) (callId : Nat)
      (call : Call),
    session.batches.lookup name = some id → session.machine.batches[id]? = some batch →
      session.calls.lookup callName = some callId →
        session.machine.calls[callId]? = some call →
          session.Adds id batch key (.ok call) (Session.addCall name key callName)
  /-- What fails to be added leaves the whole session as it was, whatever the reason. -/
  unadded : ∀ name key methodName arguments failure session',
    Session.add name key methodName arguments session = .error failure session' → session' = session
  unaddedCall : ∀ name key callName failure session',
    Session.addCall name key callName session = .error failure session' → session' = session
  /-- A key whose arguments could not be encoded can be added with others. -/
  retried : ∀ (name : String) (id : Nat) (batch : Batch) (key methodName other : String)
      (found found' : NamedMethod) (arguments arguments' : Arguments) (error : Error)
      (request : Request),
    session.batches.lookup name = some id → session.machine.batches[id]? = some batch →
      batch.started = false → key ∉ batch.keys →
        session.methods.lookup methodName = some found →
          found.method.request arguments none = .error error →
        session.methods.lookup other = some found' →
          found'.method.request arguments' none = .ok request →
            session.succeeds (.add name key methodName arguments) = false ∧
              (session.perform (.add name key methodName arguments)).succeeds
                (.add name key other arguments') = true
  /-- A batch is started by being executed. -/
  executed : ∀ name id listening outcome session', session.batches.lookup name = some id →
    executeBatch name listening session = .ok outcome session' → session'.machine.HasStarted id
  enqueued : ∀ name id listening cancelled result session',
    session.batches.lookup name = some id →
      enqueueBatch name listening cancelled session = .ok result session' →
        session'.machine.HasStarted id
  /-- A started batch stays started. -/
  lasting : ∀ id deeds, session.machine.HasStarted id →
    (session.performAll deeds).machine.HasStarted id
  /-- A started batch is not executed again. -/
  refuses : ∀ name id, session.batches.lookup name = some id → session.machine.HasStarted id →
    session.Refuses name id
  clones : ∀ (name : String) (id : Nat) (batch : Batch) (copy : String),
    session.batches.lookup name = some id → session.machine.batches[id]? = some batch →
      ∃ session', cloneBatch name copy session = .ok () session' ∧
        session.Clones batch copy session'
  /-- What is done with other batches does nothing to a batch, be it a clone or an original. -/
  independent : ∀ id deeds, id < session.machine.batches.length → session.Avoids id deeds →
    Relation.ReflTransGen (Minds id) session (session.performAll deeds)
  /-- A batch on which nobody works is then the same for good. -/
  unchanged : ∀ id deeds, session.Idle id → session.Avoids id deeds →
    (session.performAll deeds).machine.batches[id]? = session.machine.batches[id]?

theorem built_of_coherent {config : Config} {session : Session} {record : List (List String)}
    (hcoherent : session.Coherent config) (hrecorded : session.keys = record) :
    session.Built record := by
  obtain ⟨log, hreachable⟩ := hcoherent.reachable
  have hkeyed : ∀ {id : Nat} {batch : Batch}, session.machine.batches[id]? = some batch →
      batch.Keyed := fun hfound => hreachable.keyed hfound
  constructor
  case recorded => exact hrecorded
  case keyed =>
    intro id batch hfound
    refine ⟨fun key => ?_, (hkeyed hfound).keys_nodup⟩
    rw [(hkeyed hfound).keys_eq, keysOf, List.mem_map]
  case add =>
    intro name id batch key methodName found arguments hname hfound hmethod
    exact adds_add hname hfound (hkeyed hfound) hmethod
  case addCall =>
    intro name id batch key callName callId call hname hfound hcall hmade
    exact adds_addCall hname hfound (hkeyed hfound) hcall hmade
  case unadded => exact fun _ _ _ _ _ _ h => unchanged_of_add h
  case unaddedCall => exact fun _ _ _ _ _ h => unchanged_of_addCall h
  case retried =>
    intro name id batch key methodName other found found' arguments arguments' error request hname
      hfound hunstarted hfree hmethod hrequest hmethod' hrequest'
    rw [(hkeyed hfound).keys_eq] at hfree
    have hact : ∀ methodName arguments, effect (act (.add name key methodName arguments)) session =
        effect (Session.add name key methodName arguments) session :=
      fun _ _ => effect_discard session
    obtain ⟨hfails, hsame⟩ := failed_of_error (hact methodName arguments)
      ((adds_add hname hfound (hkeyed hfound) hmethod).unencodable hunstarted hfree error
        (by rw [hrequest]; rfl))
    obtain ⟨batch', -, -, -, hadded⟩ :=
      (adds_add hname hfound (hkeyed hfound) hmethod').added hunstarted hfree
        (.new request found'.method.decoder) (by rw [hrequest']; rfl)
    rw [hsame]
    exact ⟨hfails, succeeds_of_ok (hact other arguments') hadded⟩
  case executed => exact fun _ _ _ _ _ hname h => started_of_executeBatch hcoherent hname h
  case enqueued => exact fun _ _ _ _ _ _ hname h => started_of_enqueueBatch hcoherent hname h
  case lasting => exact fun _ deeds hstarted => started_performAll hcoherent deeds hstarted
  case refuses => exact fun _ _ hname hstarted => refuses_of_started hcoherent hname hstarted
  case clones => exact fun _ _ _ _ hname hfound => clones_of_some hcoherent hname hfound
  case independent => exact fun _ _ hknown havoids => minds_of_avoids hcoherent hknown havoids
  case unchanged => exact fun _ _ hidle havoids => unchanged_of_avoids hcoherent hidle havoids

/-- **Building keeps items and keys in step**, after whatever has been done, successfully or not. -/
theorem building_in_step (config : Config) (registry : Registry) (adapters : CallAdapters)
    (endpoint : Endpoint) (faults : List Fault) (deeds : List Deed) :
    ((Session.new config registry adapters endpoint faults).performAll deeds).Built
      ((Session.new config registry adapters endpoint faults).history [] deeds) := by
  have hcoherent := coherent_new config registry adapters endpoint faults
  exact built_of_coherent (hcoherent.performAll deeds) (keys_performAll hcoherent deeds)

end RemoteCall.Client.Session
