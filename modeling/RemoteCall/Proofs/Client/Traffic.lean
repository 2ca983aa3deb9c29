/-
# What goes over a connection

On a connection that has not been struck by a panic the responses come in the order of the requests
(`Traffic.ordered`): whoever holds it knows which of the requests that were sent are still to be
answered (`Traffic.owed`), and on a connection that lies idle every request has been answered
(`Traffic.spare`).  Like the places of the connections this follows from what a step does on its
connection, whichever task takes it.
-/
import RemoteCall.Proofs.Client.Holdings

namespace RemoteCall.Client

/-! ## 1. The traffic of a step -/

namespace Log

/-- What the requests on a connection were sent for. -/
def sentFor (log : Log) (conn : ConnId) : List Subject := (log.sentOn conn).map Prod.fst

/-- What the responses on a connection were received for. -/
def receivedFor (log : Log) (conn : ConnId) : List Subject := (log.receivedOn conn).map Prod.fst

/-- The requests on a connection are answered except for those that are owed, the last ones. -/
def Level (log : Log) (conn : ConnId) (owed : List Subject) : Prop :=
  log.sentFor conn = log.receivedFor conn ++ owed

/-- Nothing is sent or received on a connection. -/
def Silent (events : Log) (conn : ConnId) : Prop :=
  events.sentOn conn = [] ∧ events.receivedOn conn = []

variable {log events : Log} {conn : ConnId} {owed : List Subject}

theorem sentOn_append : (log ++ events).sentOn conn = log.sentOn conn ++ events.sentOn conn := by
  unfold sentOn
  rw [List.filterMap_append]

theorem receivedOn_append :
    (log ++ events).receivedOn conn = log.receivedOn conn ++ events.receivedOn conn := by
  unfold receivedOn
  rw [List.filterMap_append]

theorem sentFor_append :
    (log ++ events).sentFor conn = log.sentFor conn ++ events.sentFor conn := by
  rw [sentFor, sentOn_append, List.map_append]
  rfl

theorem receivedFor_append :
    (log ++ events).receivedFor conn = log.receivedFor conn ++ events.receivedFor conn := by
  rw [receivedFor, receivedOn_append, List.map_append]
  rfl

theorem struck_append : (log ++ events).Struck conn ↔ log.Struck conn ∨ events.Struck conn := by
  simp only [Struck, List.mem_append, or_and_right, exists_or]

theorem unstruck_of_append (h : ¬ (log ++ events).Struck conn) : ¬ log.Struck conn :=
  fun hstruck => h (struck_append.mpr (.inl hstruck))

theorem failed_append : (log ++ events).Failed conn ↔ log.Failed conn ∨ events.Failed conn := by
  simp only [Failed, List.mem_append, or_and_right, exists_or]

theorem Silent.sentFor (h : events.Silent conn) :
    (log ++ events).sentFor conn = log.sentFor conn := by
  rw [sentFor_append, Log.sentFor, Log.sentFor, h.1, List.map_nil, List.append_nil]

theorem Silent.receivedFor (h : events.Silent conn) :
    (log ++ events).receivedFor conn = log.receivedFor conn := by
  rw [receivedFor_append, Log.receivedFor, Log.receivedFor, h.2, List.map_nil, List.append_nil]

theorem Silent.level (h : events.Silent conn) (hlevel : log.Level conn owed) :
    (log ++ events).Level conn owed := by
  rw [Level, h.sentFor, h.receivedFor]
  exact hlevel

theorem silent_quiet (h : ∀ event ∈ events, event.IsQuiet) : events.Silent conn := by
  constructor
  · refine List.filterMap_eq_nil_iff.mpr fun event hevent => ?_
    have hquiet := h event hevent
    cases event with
    | exchange => exact hquiet.elim
    | _ => rfl
  · refine List.filterMap_eq_nil_iff.mpr fun event hevent => ?_
    have hquiet := h event hevent
    cases event with
    | exchange => exact hquiet.elim
    | _ => rfl

theorem silent_failed {subject? : Option Subject} {operation : Operation} {error : Error} :
    Silent [.exchange subject? operation (.failed error)] conn := by
  cases operation <;> cases subject? <;> exact ⟨rfl, rfl⟩

theorem silent_giveBackEvents {pool : Pool} {other : ConnId} {broken : Bool} :
    Silent (pool.giveBackEvents other broken) conn := by
  cases broken <;> exact ⟨rfl, rfl⟩

theorem silent_struck {subject? : Option Subject} {operation : Operation} {pool : Pool}
    {other : ConnId} {broken : Bool} :
    Silent (.exchange subject? operation .panicked :: pool.giveBackEvents other broken) conn := by
  cases operation <;> cases subject? <;> exact silent_giveBackEvents

theorem unfailed_quiet (h : ∀ event ∈ events, event.IsQuiet) : ¬ events.Failed conn := by
  rintro ⟨subject?, operation, error, hmem, -⟩
  exact h _ hmem

end Log

section

variable {pool pool' : Pool} {before after grips : List Grip} {grip grip' : Grip}
  {log events : Log} {conn : ConnId}

/-- What is done on one connection leaves the others as they are. -/
theorem Handling.silent (h : Handling pool grip events pool' grip')
    (hconn : grip.conn? ≠ some conn) : Log.Silent events conn := by
  cases h with
  | rest hquiet => exact Log.silent_quiet hquiet
  | condemn hquiet => exact Log.silent_quiet hquiet
  | reuse hfound hquiet => exact Log.silent_quiet hquiet
  | reserve => exact ⟨rfl, rfl⟩
  | connected => exact ⟨rfl, rfl⟩
  | refused hquiet =>
    have hsilent : Log.Silent _ conn := Log.silent_quiet hquiet
    exact ⟨hsilent.1, hsilent.2⟩
  | lost => exact ⟨rfl, rfl⟩
  | sent =>
    have hne : _ ≠ conn := fun h => hconn (congrArg some h)
    exact ⟨by simp [Log.sentOn, hne], rfl⟩
  | received =>
    have hne : _ ≠ conn := fun h => hconn (congrArg some h)
    exact ⟨rfl, by simp [Log.receivedOn, hne]⟩
  | failed => exact Log.silent_failed
  | gaveBack => exact Log.silent_giveBackEvents
  | struck => exact Log.silent_struck

/-! ## 2. The traffic of a client -/

/-- What has gone over the connections of a client.  Of a connection that a panic has struck nothing
is said. -/
structure Traffic (pool : Pool) (grips : List Grip) (log : Log) : Prop where
  /-- On a connection that is idle or yet to be opened nothing is owed. -/
  spare : ∀ conn, conn ∈ pool.idle ∨ pool.opened < conn → ¬ log.Struck conn → log.Level conn []
  owed : ∀ conn owed, .holds conn (some owed) ∈ grips → ¬ log.Struck conn → log.Level conn owed
  /-- Responses come in the order of the requests. -/
  ordered : ∀ conn, ¬ log.Struck conn → log.receivedFor conn <+: log.sentFor conn

/-- Whoever holds a connection knows after a step what is owed. -/
theorem Handling.owed {owed : List Subject} (h : Handling pool grip events pool' grip')
    (htraffic : Traffic pool (before ++ grip :: after) log)
    (hgrip' : grip' = .holds conn (some owed)) (hunstruck : ¬ log.Struck conn) :
    (log ++ events).Level conn owed := by
  have howed : ∀ owed, grip = .holds conn (some owed) → log.Level conn owed := by
    intro owed hgrip
    have hheld : .holds conn (some owed) ∈ before ++ grip :: after :=
      hgrip ▸ List.mem_append_right _ (List.mem_cons_self ..)
    exact htraffic.owed conn owed hheld hunstruck
  cases h with
  | rest hquiet => exact (Log.silent_quiet hquiet).level (howed owed hgrip')
  | condemn hquiet => cases hgrip'
  | @reuse other idle hfound _ hquiet =>
    cases hgrip'
    have hidle : conn ∈ pool.idle := hfound ▸ List.mem_cons_self ..
    exact (Log.silent_quiet hquiet).level (htraffic.spare conn (.inl hidle) hunstruck)
  | reserve => cases hgrip'
  | connected =>
    cases hgrip'
    have hsilent : Log.Silent [.exchange none .connect .connected] (pool.opened + 1) := ⟨rfl, rfl⟩
    exact hsilent.level (htraffic.spare _ (.inr (Nat.lt_succ_self _)) hunstruck)
  | refused hquiet => cases hgrip'
  | lost => cases hgrip'
  | @sent _ subject frame owed₀ =>
    cases hgrip'
    have hlevel : log.sentFor conn = log.receivedFor conn ++ owed₀ := howed owed₀ rfl
    rw [Log.Level, Log.sentFor_append, Log.receivedFor_append, hlevel]
    simp [Log.sentFor, Log.receivedFor, Log.sentOn, Log.receivedOn]
  | @received _ subject frame =>
    cases hgrip'
    have hlevel : log.sentFor conn = log.receivedFor conn ++ subject :: owed := howed _ rfl
    rw [Log.Level, Log.sentFor_append, Log.receivedFor_append, hlevel]
    simp [Log.sentFor, Log.receivedFor, Log.sentOn, Log.receivedOn]
  | @failed _ subject operation error owed? owed?' honConn hkept =>
    cases hgrip'
    rcases hkept with hkept | hkept
    · exact Log.silent_failed.level (howed owed (by rw [hkept]))
    · cases hkept
  | gaveBack hlevel => cases hgrip'
  | struck honConn => cases hgrip'

/-- A connection that its holder leaves spare is level. -/
theorem Handling.spare (h : Handling pool grip events pool' grip')
    (htraffic : Traffic pool (before ++ grip :: after) log) (hconn : grip.conn? = some conn)
    (hidle : conn ∉ pool.idle) (hopened : conn ≤ pool.opened)
    (hspare : conn ∈ pool'.idle ∨ pool'.opened < conn)
    (hunstruck : ¬ (log ++ events).Struck conn) : (log ++ events).Level conn [] := by
  rw [Log.struck_append, not_or] at hunstruck
  have hbusy : ¬ (conn ∈ pool.idle ∨ pool.opened < conn) :=
    not_or.mpr ⟨hidle, Nat.not_lt.mpr hopened⟩
  cases h with
  | @gaveBack other broken owed? hlevel =>
    cases hconn
    cases broken with
    | true => exact absurd hspare hbusy
    | false =>
      obtain rfl := hlevel rfl
      have hheld : .holds conn (some []) ∈ before ++ .holds conn (some []) :: after :=
        List.mem_append_right _ (List.mem_cons_self ..)
      exact Log.silent_giveBackEvents.level (htraffic.owed conn [] hheld hunstruck.1)
  | @struck other subject operation owed? honConn =>
    cases hconn
    exact absurd ⟨some subject, operation, List.mem_cons_self .., honConn⟩ hunstruck.2
  | reuse | reserve | connected | refused | lost => cases hconn
  | rest | condemn | sent | received | failed => exact absurd hspare hbusy

/-- No other connection becomes spare. -/
theorem Handling.spare_before (h : Handling pool grip events pool' grip')
    (hconn : grip.conn? ≠ some conn) (hspare : conn ∈ pool'.idle ∨ pool'.opened < conn) :
    conn ∈ pool.idle ∨ pool.opened < conn := by
  have hdropped : ∀ {other broken}, other ≠ conn →
      conn ∈ (pool.release other broken).idle ∨ pool.opened < conn →
      conn ∈ pool.idle ∨ pool.opened < conn := by
    intro other broken hne hspare
    cases broken with
    | true => exact hspare
    | false => exact hspare.imp_left fun hmem => (List.mem_cons.mp hmem).resolve_left (Ne.symm hne)
  cases h with
  | reuse hfound => exact hspare.imp_left fun hmem => hfound ▸ List.mem_cons_of_mem _ hmem
  | connected => exact hspare.imp_right fun hlt => Nat.lt_of_succ_lt hlt
  | gaveBack => exact hdropped (fun h => hconn (congrArg some h)) hspare
  | struck => exact hdropped (fun h => hconn (congrArg some h)) hspare
  | _ => exact hspare

/-- A response comes to the oldest request that is not answered. -/
theorem Handling.ordered (h : Handling pool grip events pool' grip')
    (htraffic : Traffic pool (before ++ grip :: after) log)
    (hunstruck : ¬ log.Struck conn) :
    (log ++ events).receivedFor conn <+: (log ++ events).sentFor conn := by
  have hprefix := htraffic.ordered conn hunstruck
  have hsame : Log.Silent events conn →
      (log ++ events).receivedFor conn <+: (log ++ events).sentFor conn := by
    intro hsilent
    rw [hsilent.receivedFor, hsilent.sentFor]
    exact hprefix
  by_cases hconn : grip.conn? = some conn
  · cases h with
    | rest hquiet => exact hsame (Log.silent_quiet hquiet)
    | condemn hquiet => exact hsame (Log.silent_quiet hquiet)
    | sent =>
      rw [Log.receivedFor_append, Log.sentFor_append]
      exact (List.append_nil (log.receivedFor conn)).symm ▸ hprefix.trans (List.prefix_append _ _)
    | @received _ subject frame owed =>
      cases hconn
      have hheld : .holds conn (some (subject :: owed)) ∈
          before ++ .holds conn (some (subject :: owed)) :: after :=
        List.mem_append_right _ (List.mem_cons_self ..)
      have hlevel : log.sentFor conn = log.receivedFor conn ++ subject :: owed :=
        htraffic.owed conn _ hheld hunstruck
      rw [Log.receivedFor_append, Log.sentFor_append, hlevel]
      exact ⟨owed, by simp [Log.receivedFor, Log.receivedOn, Log.sentFor, Log.sentOn]⟩
    | failed => exact hsame Log.silent_failed
    | gaveBack => exact hsame Log.silent_giveBackEvents
    | struck => exact hsame Log.silent_struck
    | _ => cases hconn
  · exact hsame (h.silent hconn)

/-- **Whatever a task does on its connection**, the traffic stays in order. -/
theorem Traffic.handle (h : Traffic pool (before ++ grip :: after) log)
    (hholdings : Holdings pool (before ++ grip :: after) log)
    (hhandling : Handling pool grip events pool' grip') :
    Traffic pool' (before ++ grip' :: after) (log ++ events) := by
  have hothers : ∀ conn owed, .holds conn (some owed) ∈ before ++ after →
      ¬ (log ++ events).Struck conn → (log ++ events).Level conn owed := by
    intro conn owed hheld hnew
    have hconn : grip.conn? ≠ some conn := fun hself => (hholdings.apart hself).2.2 _ hheld rfl
    have hbefore : .holds conn (some owed) ∈ before ++ grip :: after :=
      List.mem_append.mpr ((List.mem_append.mp hheld).imp_right (List.mem_cons_of_mem _))
    exact (hhandling.silent hconn).level (h.owed conn owed hbefore (Log.unstruck_of_append hnew))
  refine ⟨fun conn hspare hnew => ?_, fun conn owed hheld hnew => ?_, fun conn hnew =>
    hhandling.ordered h (Log.unstruck_of_append hnew)⟩
  · by_cases hself : grip.conn? = some conn
    · obtain ⟨hidle, hopened, -⟩ := hholdings.apart hself
      exact hhandling.spare h hself hidle hopened hspare hnew
    · exact (hhandling.silent hself).level
        (h.spare conn (hhandling.spare_before hself hspare) (Log.unstruck_of_append hnew))
  · rcases List.mem_append.mp hheld with hheld | hheld
    · exact hothers conn owed (List.mem_append_left _ hheld) hnew
    · rcases List.mem_cons.mp hheld with hself | hheld
      · exact hhandling.owed h hself.symm (Log.unstruck_of_append hnew)
      · exact hothers conn owed (List.mem_append_right _ hheld) hnew

/-- Steps without traffic keep the traffic in order. -/
theorem Traffic.add_free (h : Traffic pool grips log) (n : Nat)
    (hquiet : ∀ event ∈ events, event.IsQuiet) :
    Traffic pool (grips ++ List.replicate n .free) (log ++ events) := by
  have hsilent : ∀ conn, Log.Silent events conn := fun conn => Log.silent_quiet hquiet
  refine ⟨fun conn hspare hnew => ?_, fun conn owed hheld hnew => ?_, fun conn hnew => ?_⟩
  · exact (hsilent conn).level (h.spare conn hspare (Log.unstruck_of_append hnew))
  · rcases List.mem_append.mp hheld with hheld | hheld
    · exact (hsilent conn).level (h.owed conn owed hheld (Log.unstruck_of_append hnew))
    · cases (List.mem_replicate.mp hheld).2
  · rw [(hsilent conn).receivedFor, (hsilent conn).sentFor]
    exact h.ordered conn (Log.unstruck_of_append hnew)

end

/-- **The traffic is in order in every run.** -/
theorem World.Reachable.traffic {config : Config} {world : World} (h : Reachable config world) :
    Traffic world.machine.pool world.machine.grips world.log := by
  have hnew : Traffic (Machine.new config).pool (Machine.new config).grips [] :=
    ⟨fun _ _ _ => rfl, fun _ _ hheld => absurd hheld List.not_mem_nil, fun _ _ => List.prefix_rfl⟩
  refine @Reachable.induct config (fun machine log => Traffic machine.pool machine.grips log) hnew
    (fun {machine mover? machine' log events} hreachable htraffic hstep => ?_) world h
  have hholdings : Holdings machine.pool machine.grips log := hreachable.holdings
  rcases hstep.grips with ⟨before, after, mover, grip', -, hgrips, hgrips', hhandling⟩ |
    ⟨n, -, hpool, hgrips', hquiet⟩
  · rw [hgrips] at hholdings htraffic
    rw [hgrips']
    exact htraffic.handle hholdings hhandling
  · rw [hgrips', hpool]
    exact htraffic.add_free n hquiet

end RemoteCall.Client
