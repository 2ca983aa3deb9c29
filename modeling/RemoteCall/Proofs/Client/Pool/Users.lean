/-
# The users of a pool

Any number of users share a pool.  A user wants one connection.  It looks at the pool from time to
time, and what a look does is one step: it finds that it has been cancelled, takes the connection or
the slot that there is, or finds the pool full and gives up if it is late.  Connecting happens
outside of the pool, so how that ended is a step of its own.  Whoever holds a connection may find it
broken, any number of times, and gives it back in the end.  Between any two steps of one user the
others take theirs, and idle connections may be dropped.

`SharedPool.step` is one of these steps and `SharedPool.run` a finite interleaving of them.  What a
user does with the pool is what the tasks of a client do (`UserMove.handling`); `PoolTrial.take_run`
shows that a user alone is the user of a trial.

The log and `returned` are not read by any step.  They keep what has happened: which connections
were closed, and in which order connections came back.
-/
import RemoteCall.Client.PoolTrial
import RemoteCall.Proofs.Client.Holdings

namespace RemoteCall.Client

/-! ## 1. Users and their steps -/

/-- Where a user stands that wants a connection. -/
inductive PoolUser where
  | waiting
  /-- It opens a connection for the slot that it was given. -/
  | connecting
  | holding (lease : TrialLease)
  /-- It has given its connection back. -/
  | departed
  | failed (error : Error)
  deriving Repr

/-- What a user does, or what happens to it. -/
inductive UserAction where
  /-- It looks at the pool, after it was cancelled or not, and with its time over or not. -/
  | look (cancelled late : Bool)
  | connected
  | refused (error : Error)
  | markBroken
  | drop

/-- A pool and its users. -/
structure SharedPool where
  pool : Pool
  timeoutMs : Nat
  users : List PoolUser
  /-- The connections that came back to be used again, the last one first. -/
  returned : List ConnId
  log : Log

/-- What happens to a pool. -/
inductive PoolAction where
  /-- Another user wants a connection. -/
  | begin
  | user (index : Nat) (action : UserAction)
  | clearIdle

/-- The user that acts. -/
def PoolAction.user? : PoolAction → Option Nat
  | user index _ => some index
  | begin | clearIdle => none

namespace SharedPool

/-- A new pool, with no users yet. -/
def new (limit timeoutMs : Nat) : SharedPool := ⟨Pool.new limit, timeoutMs, [], [], []⟩

/-- The shared pool after a user has changed the pool. -/
def after (shared : SharedPool) (pool : Pool) (events : List Event) : SharedPool :=
  { shared with pool := pool, log := shared.log ++ events }

/-- What an action of a user changes, and where it leaves the user; none if the user is not where it
can act so. -/
def act (shared : SharedPool) : PoolUser → UserAction → Option (SharedPool × PoolUser)
  | .waiting, .look cancelled late =>
    if cancelled then some (shared, .failed .cancelled)
    else
      match shared.pool.acquire with
      | (.leased conn, pool, effects) =>
        some (shared.after pool (effects.map .effect), .holding ⟨conn, false⟩)
      | (.opening, pool, effects) => some (shared.after pool (effects.map .effect), .connecting)
      | (.waiting, _, _) =>
        some (shared, if late then .failed (.poolTimeout shared.timeoutMs) else .waiting)
  | .connecting, .connected =>
    let (conn, pool) := shared.pool.connected
    some (shared.after pool [.exchange none .connect .connected], .holding ⟨conn, false⟩)
  | .connecting, .refused error =>
    let (pool, effects) := shared.pool.refuse error
    some (shared.after pool (.exchange none .connect (.failed error) :: effects.map .effect),
      .failed error)
  | .holding lease, .markBroken => some (shared, .holding { lease with broken := true })
  | .holding ⟨conn, broken⟩, .drop =>
    let (pool, effects) := shared.pool.giveBack conn broken
    let returned := if broken then shared.returned else conn :: shared.returned
    some ({ shared.after pool (effects.map .effect) with returned := returned }, .departed)
  | _, _ => none

/-- One step. -/
def step (shared : SharedPool) : PoolAction → Option SharedPool
  | .begin => some { shared with users := shared.users ++ [.waiting] }
  | .user index action => do
    let user ← shared.users[index]?
    let (shared, user) ← shared.act user action
    return { shared with users := shared.users.set index user }
  | .clearIdle =>
    let closes := shared.pool.idle.map fun conn => .effect (.close conn)
    some (shared.after shared.pool.clearIdle closes)

/-- Steps one after the other. -/
def run (shared : SharedPool) (actions : List PoolAction) : Option SharedPool :=
  actions.foldlM step shared

end SharedPool

/-! ## 2. What a step does -/

/-- What a step of a user changes, and where it leaves the user. -/
inductive UserMove (shared : SharedPool) : PoolUser → SharedPool → PoolUser → Prop
  | waits : UserMove shared .waiting shared .waiting
  | gaveUp {error : Error} (reason : error = .cancelled ∨ error = .poolTimeout shared.timeoutMs) :
    UserMove shared .waiting shared (.failed error)
  | reused {conn : ConnId} {idle : List ConnId} {notice : Notice}
    (found : shared.pool.idle = conn :: idle) :
    UserMove shared .waiting
      (shared.after { shared.pool with idle := idle, leased := shared.pool.leased + 1 }
        [.effect (.notice notice)]) (.holding ⟨conn, false⟩)
  | reserved (none_idle : shared.pool.idle = []) (room : shared.pool.leased < shared.pool.limit) :
    UserMove shared .waiting
      (shared.after { shared.pool with leased := shared.pool.leased + 1 } []) .connecting
  | connected :
    UserMove shared .connecting
      (shared.after { shared.pool with opened := shared.pool.opened + 1 }
        [.exchange none .connect .connected]) (.holding ⟨shared.pool.opened + 1, false⟩)
  | refused {error : Error} {notice : Notice} :
    UserMove shared .connecting
      (shared.after shared.pool.connectFailed
        [.exchange none .connect (.failed error), .effect (.notice notice)]) (.failed error)
  | marked {lease : TrialLease} :
    UserMove shared (.holding lease) shared (.holding { lease with broken := true })
  | returned {conn : ConnId} :
    UserMove shared (.holding ⟨conn, false⟩)
      { shared.after (shared.pool.release conn false) (shared.pool.giveBackEvents conn false) with
        returned := conn :: shared.returned } .departed
  | discarded {conn : ConnId} :
    UserMove shared (.holding ⟨conn, true⟩)
      (shared.after (shared.pool.release conn true) (shared.pool.giveBackEvents conn true))
      .departed

theorem SharedPool.act_ok {shared shared' : SharedPool} {user user' : PoolUser}
    {action : UserAction} (h : shared.act user action = some (shared', user')) :
    UserMove shared user shared' user' := by
  cases user with
  | waiting =>
    cases action with
    | look cancelled late =>
      cases cancelled with
      | true =>
        cases h
        exact .gaveUp (.inl rfl)
      | false =>
        obtain ⟨conn, idle, notice, hidle, hacquire⟩ | ⟨hidle, hroom, hacquire⟩ |
          ⟨-, -, hacquire⟩ := shared.pool.acquire_cases
        all_goals
          simp only [SharedPool.act, hacquire, Bool.false_eq_true, if_false, Option.some.injEq] at h
        · cases h
          exact .reused hidle
        · cases h
          exact .reserved hidle hroom
        · cases late with
          | true =>
            cases h
            exact .gaveUp (.inr rfl)
          | false =>
            cases h
            exact .waits
    | _ => cases h
  | connecting =>
    cases action with
    | connected =>
      cases h
      exact .connected
    | refused error =>
      cases h
      exact .refused
    | _ => cases h
  | holding lease =>
    obtain ⟨conn, broken⟩ := lease
    cases action with
    | markBroken =>
      cases h
      exact .marked
    | drop =>
      cases broken with
      | false =>
        cases h
        exact .returned
      | true =>
        cases h
        exact .discarded
    | _ => cases h
  | departed => cases h
  | failed error => cases h

/-- **What a step does**: a user is added, one user moves and the others stay, or all idle
connections are closed. -/
inductive SharedStep (shared : SharedPool) : PoolAction → SharedPool → Prop
  | begin : SharedStep shared .begin { shared with users := shared.users ++ [.waiting] }
  | user {index : Nat} {action : UserAction} {user user' : PoolUser} {shared' : SharedPool}
    (found : shared.users[index]? = some user) (move : UserMove shared user shared' user') :
    SharedStep shared (.user index action) { shared' with users := shared.users.set index user' }
  | clearIdle : SharedStep shared .clearIdle
      (shared.after { shared.pool with idle := [] }
        (shared.pool.idle.map fun conn => .effect (.close conn)))

theorem UserMove.users_eq {shared shared' : SharedPool} {user user' : PoolUser}
    (h : UserMove shared user shared' user') : shared'.users = shared.users := by
  cases h <;> rfl

theorem SharedPool.step_ok {shared shared' : SharedPool} {action : PoolAction}
    (h : shared.step action = some shared') : SharedStep shared action shared' := by
  cases action with
  | begin =>
    cases h
    exact .begin
  | user index action =>
    obtain ⟨user, huser, h⟩ := Option.bind_eq_some_iff.mp h
    obtain ⟨⟨next, user'⟩, hact, h⟩ := Option.bind_eq_some_iff.mp h
    cases h
    have hmove := SharedPool.act_ok hact
    rw [hmove.users_eq]
    exact .user huser hmove
  | clearIdle =>
    cases h
    exact .clearIdle

/-- **What holds at first and is kept by every step holds after every run.** -/
theorem SharedPool.run_induct {motive : SharedPool → Prop} {shared : SharedPool}
    (hfirst : motive shared) (hstep : ∀ {shared shared' : SharedPool} {action : PoolAction},
      motive shared → SharedStep shared action shared' → motive shared') :
    ∀ {actions : List PoolAction} {shared' : SharedPool},
      shared.run actions = some shared' → motive shared' := by
  intro actions
  induction actions generalizing shared with
  | nil =>
    intro shared' h
    cases h
    exact hfirst
  | cons action actions ih =>
    intro shared' h
    obtain ⟨next, hnext, h⟩ := Option.bind_eq_some_iff.mp h
    exact ih (hstep hfirst (SharedPool.step_ok hnext)) h

/-! ## 3. Users and tasks -/

/-- What a user holds of the pool, in the terms of the tasks of a client. -/
def PoolUser.grip : PoolUser → Grip
  | connecting => .slot
  | holding ⟨conn, false⟩ => .holds conn (some [])
  | holding ⟨conn, true⟩ => .holds conn none
  | waiting | departed | failed _ => .free

/-- **What a user does with the pool is what tasks do.** -/
theorem UserMove.handling {shared shared' : SharedPool} {user user' : PoolUser}
    (h : UserMove shared user shared' user') :
    ∃ events, shared'.log = shared.log ++ events ∧
      Handling shared.pool user.grip events shared'.pool user'.grip := by
  have hquiet : ∀ event ∈ ([] : List Event), event.IsQuiet := List.forall_mem_nil _
  cases h with
  | waits => exact ⟨[], (List.append_nil _).symm, .rest hquiet⟩
  | gaveUp => exact ⟨[], (List.append_nil _).symm, .rest hquiet⟩
  | reused hfound => exact ⟨_, rfl, .reuse hfound (List.forall_mem_singleton.mpr trivial)⟩
  | reserved hidle hroom => exact ⟨_, rfl, .reserve hidle hroom⟩
  | connected => exact ⟨_, rfl, .connected⟩
  | refused => exact ⟨_, rfl, .refused (List.forall_mem_singleton.mpr trivial)⟩
  | @marked lease =>
    obtain ⟨conn, broken⟩ := lease
    refine ⟨[], (List.append_nil _).symm, ?_⟩
    cases broken <;> exact .condemn hquiet
  | returned => exact ⟨_, rfl, .gaveBack fun _ => rfl⟩
  | discarded => exact ⟨_, rfl, .gaveBack (by simp)⟩

/-- A user alone with a pool. -/
def PoolTrial.alone (trial : PoolTrial) (users : List PoolUser) (log : Log) : SharedPool :=
  ⟨trial.pool, trial.timeoutMs, users, [], log⟩

/-- Where the user of a trial is left. -/
def PoolUser.ofResult : Except Error ConnId → PoolUser
  | .ok conn => holding ⟨conn, false⟩
  | .error error => failed error

/-- One step of a user that is alone. -/
theorem SharedPool.run_alone {trial trial' : PoolTrial} {user user' : PoolUser} {log log' : Log}
    {action : UserAction} {actions : List UserAction}
    (h : (trial.alone [user] log).act user action = some (trial'.alone [user] log', user')) :
    (trial.alone [user] log).run ((action :: actions).map (.user 0)) =
      (trial'.alone [user'] log').run (actions.map (.user 0)) := by
  have hstep : (trial.alone [user] log).step (.user 0 action) =
      some (trial'.alone [user'] log') := by
    show (do
      let (shared, user) ← (trial.alone [user] log).act user action
      return { shared with users := shared.users.set 0 user }) = _
    rw [h]
    rfl
  rw [List.map_cons, run, List.foldlM_cons, hstep]
  rfl

/-- What a user that is alone finds when it looks at the pool. -/
theorem PoolTrial.alone_look {trial : PoolTrial} {reservation : Reservation} {pool : Pool}
    (h : trial.pool.reserve = (reservation, pool)) (log : Log) (late : Bool) :
    ∃ log', (trial.alone [.waiting] log).act .waiting (.look false late) =
      match reservation with
      | .reused conn =>
        some ({ trial with pool := pool }.alone [.waiting] log', .holding ⟨conn, false⟩)
      | .opening => some ({ trial with pool := pool }.alone [.waiting] log', .connecting)
      | .full => some (trial.alone [.waiting] log',
        if late then .failed (.poolTimeout trial.timeoutMs) else .waiting) := by
  cases reservation with
  | reused conn =>
    refine ⟨log ++ [.effect (.notice (.reusingConnection pool.idle.length pool.leased))], ?_⟩
    simp only [SharedPool.act, Pool.acquire, alone, h, Bool.false_eq_true, if_false]
    rfl
  | opening =>
    refine ⟨log ++ [], ?_⟩
    simp only [SharedPool.act, Pool.acquire, alone, h, Bool.false_eq_true, if_false]
    rfl
  | full =>
    refine ⟨log, ?_⟩
    simp only [SharedPool.act, Pool.acquire, alone, h, Bool.false_eq_true, if_false]

/-- **The user of a trial takes a connection like any user of a pool**: it looks, again if need be,
and connects if it is given a slot. -/
theorem PoolTrial.take_run (trial : PoolTrial) (giveUpAt : Nat) :
    ∃ (actions : List UserAction) (log : Log),
      (trial.alone [.waiting] []).run (actions.map (.user 0)) =
        some ((trial.take giveUpAt).2.alone [.ofResult (trial.take giveUpAt).1] log) := by
  have hcancel : (trial.alone [.waiting] []).run ([.look true false].map (.user 0)) =
      some (trial.alone [.failed .cancelled] []) := rfl
  unfold take
  by_cases hnow : giveUpAt = 1
  · rw [if_pos hnow]
    exact ⟨_, _, hcancel⟩
  · rw [if_neg hnow]
    obtain ⟨reservation, pool, hreserve⟩ : ∃ reservation pool,
      trial.pool.reserve = (reservation, pool) := ⟨_, _, rfl⟩
    rw [hreserve]
    cases reservation with
    | reused conn =>
      obtain ⟨log, hlook⟩ := alone_look hreserve [] false
      refine ⟨[.look false false], log, ?_⟩
      rw [SharedPool.run_alone hlook]
      rfl
    | opening =>
      obtain ⟨log, hlook⟩ := alone_look hreserve [] false
      cases hrefusing : trial.refusing with
      | true =>
        let error : Error := .stated .connection "refused"
        refine ⟨[.look false false, .refused error], log ++
          [.exchange none .connect (.failed error), .effect (.notice (.connectFailed error))], ?_⟩
        rw [SharedPool.run_alone hlook]
        simp only [if_true]
        rfl
      | false =>
        refine ⟨[.look false false, .connected], log ++ [.exchange none .connect .connected], ?_⟩
        rw [SharedPool.run_alone hlook]
        simp only [Bool.false_eq_true, if_false]
        rfl
    | full =>
      obtain ⟨log, hlook⟩ := alone_look hreserve [] true
      by_cases hgives : giveUpAt ≠ 0 ∧ giveUpAt ≤ trial.looks
      · simp only [if_pos hgives]
        exact ⟨_, _, hcancel⟩
      · refine ⟨[.look false true], log, ?_⟩
        rw [SharedPool.run_alone hlook]
        simp only [if_neg hgives, if_true]
        rfl

end RemoteCall.Client
