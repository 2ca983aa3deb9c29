/-
# A pool is safe

Whatever the limit and however the steps of the users interleave, a pool never holds more
connections than its limit, loses none and hands out none twice, and never hands out again what was
found broken (`pool_safety`).

`SharedPool.Sound` is what every step keeps.  Where the connections are is the invariant of client
runs (`Holdings`); here no slot is ever lost, since connecting either succeeds or fails.  What is
new is the order: the idle connections are those that came back last (`Recent`), so the one that is
handed out first is the one that came back last.

A user that was not served has changed nothing, counting its own steps only (`movesOf`).  What it
took is what it holds (`movesOf_balance`), and it never was in a place where it could take or give
back a connection (`movesOf_keeps`).
-/
import Mathlib.Algebra.Ring.Int.Defs
import RemoteCall.Proofs.Client.Pool.Users

namespace RemoteCall.Client

/-! ## 1. What users hold -/

namespace PoolUser

/-- Whether the user holds a connection. -/
def isHolding : PoolUser → Bool
  | holding _ => true
  | _ => false

/-- Whether the user is opening a connection. -/
def isConnecting : PoolUser → Bool
  | connecting => true
  | _ => false

/-- Whether the user holds this connection. -/
def holds (conn : ConnId) : PoolUser → Bool
  | holding lease => lease.conn == conn
  | _ => false

theorem holdersOf_grips (users : List PoolUser) : holdersOf (users.map grip) =
    users.countP (·.isHolding) + users.countP (·.isConnecting) := by
  induction users with
  | nil => rfl
  | cons user users ih =>
    unfold holdersOf at ih ⊢
    rw [List.map_cons, List.countP_cons, List.countP_cons, List.countP_cons, ih]
    cases user with
    | holding lease =>
      obtain ⟨conn, broken⟩ := lease
      cases broken <;> simp [grip, isHolding, isConnecting] <;> omega
    | _ => simp [grip, isHolding, isConnecting] <;> omega

theorem heldCount_grips (users : List PoolUser) (conn : ConnId) :
    heldCount (users.map grip) conn = users.countP (·.holds conn) := by
  induction users with
  | nil => rfl
  | cons user users ih =>
    unfold heldCount at ih ⊢
    rw [List.map_cons, List.countP_cons, ← ih]
    cases user with
    | holding lease =>
      obtain ⟨other, broken⟩ := lease
      cases broken <;> simp [grip, Grip.conn?, holds, List.count_cons]
    | _ => rfl

end PoolUser

/-! ## 2. The order of the idle connections -/

/-- The idle connections came back in this order, the first one last, and none that is idle came
back after the first one. -/
inductive Recent : List ConnId → List ConnId → Prop
  | nil (returned : List ConnId) : Recent returned []
  | cons {before after idle : List ConnId} {conn : ConnId}
    (apart : ∀ other ∈ before, other ∉ conn :: idle) (rest : Recent after idle) :
    Recent (before ++ conn :: after) (conn :: idle)

namespace Recent

variable {returned idle : List ConnId} {conn : ConnId}

/-- Connections that came back since do not matter if they are not idle. -/
theorem append_left (h : Recent returned idle) {more : List ConnId}
    (hmore : ∀ other ∈ more, other ∉ idle) : Recent (more ++ returned) idle := by
  cases h with
  | nil => exact .nil _
  | cons hapart hrest =>
    rw [← List.append_assoc]
    exact .cons (List.forall_mem_append.mpr ⟨hmore, hapart⟩) hrest

/-- A connection that comes back is the latest. -/
theorem push (h : Recent returned idle) (conn : ConnId) :
    Recent (conn :: returned) (conn :: idle) :=
  .cons (List.forall_mem_nil _) h

/-- Without the latest connection the others are still in order. -/
theorem pop (h : Recent returned (conn :: idle)) (hconn : conn ∉ idle) : Recent returned idle := by
  cases h with
  | @cons before after _ _ hapart hrest =>
    rw [List.append_cons]
    refine hrest.append_left (List.forall_mem_append.mpr ⟨?_, List.forall_mem_singleton.mpr hconn⟩)
    exact fun other hother hidle => hapart other hother (List.mem_cons_of_mem _ hidle)

/-- The first of the idle connections came back last. -/
theorem latest (h : Recent returned (conn :: idle)) : ∃ before after,
    returned = before ++ conn :: after ∧ ∀ other ∈ before, other ∉ conn :: idle := by
  cases h with
  | cons hapart => exact ⟨_, _, rfl, hapart⟩

end Recent

/-! ## 3. What every step keeps -/

/-- The invariant of a shared pool. -/
structure SharedPool.Sound (shared : SharedPool) : Prop where
  bounded : shared.pool.idle.length + shared.pool.leased ≤ shared.pool.limit
  holdings : Holdings shared.pool (shared.users.map PoolUser.grip) shared.log
  nothing_lost : shared.log.lostSlots = 0
  recent : Recent shared.returned shared.pool.idle

namespace SharedPool

variable {shared shared' : SharedPool} {user user' : PoolUser} {index : Nat}

/-- An idle connection is idle once. -/
theorem Sound.idle_count_le (h : shared.Sound) (conn : ConnId) :
    shared.pool.idle.count conn ≤ 1 := by
  have honce := h.holdings.once conn
  have hopened : shared.pool.openedCount conn ≤ 1 := by
    unfold Pool.openedCount
    split <;> omega
  omega

/-- A user that takes up a slot is counted. -/
theorem Sound.leased_pos (h : shared.Sound) (hfound : shared.users[index]? = some user)
    (hgrip : user.grip ≠ .free) : 0 < shared.pool.leased := by
  have hmem : user.grip ∈ shared.users.map PoolUser.grip :=
    List.mem_map_of_mem (List.mem_of_getElem? hfound)
  have hpos : 0 < holdersOf (shared.users.map PoolUser.grip) :=
    List.countP_pos_iff.mpr ⟨_, hmem, by simpa using hgrip⟩
  rw [h.holdings.leased_eq]
  omega

end SharedPool

section

variable {shared shared' : SharedPool} {user user' : PoolUser} {index : Nat}

/-- A user never loses its slot, and takes one only within the limit. -/
theorem UserMove.within (h : UserMove shared user shared' user') (hlost : shared.log.lostSlots = 0)
    (hbounded : shared.pool.idle.length + shared.pool.leased ≤ shared.pool.limit)
    (hcounted : user.grip ≠ .free → 0 < shared.pool.leased) :
    shared'.log.lostSlots = 0 ∧
      shared'.pool.idle.length + shared'.pool.leased ≤ shared'.pool.limit := by
  cases h with
  | waits => exact ⟨hlost, hbounded⟩
  | gaveUp => exact ⟨hlost, hbounded⟩
  | @reused conn idle notice hfound =>
    rw [hfound, List.length_cons] at hbounded
    refine ⟨?_, ?_⟩
    · exact Log.lostSlots_append.trans (by rw [hlost]; rfl)
    · simp only [SharedPool.after]
      omega
  | reserved hidle hroom =>
    refine ⟨?_, ?_⟩
    · exact Log.lostSlots_append.trans (by rw [hlost]; rfl)
    · simp only [SharedPool.after, hidle, List.length_nil]
      omega
  | connected =>
    exact ⟨Log.lostSlots_append.trans (by rw [hlost]; rfl), hbounded⟩
  | refused =>
    have hpos := hcounted (by simp [PoolUser.grip])
    refine ⟨Log.lostSlots_append.trans (by rw [hlost]; rfl), ?_⟩
    simp only [SharedPool.after, Pool.connectFailed]
    omega
  | marked => exact ⟨hlost, hbounded⟩
  | returned =>
    have hpos := hcounted (by simp [PoolUser.grip])
    refine ⟨?_, ?_⟩
    · exact Log.lostSlots_append.trans (by rw [hlost, Pool.lostSlots_giveBackEvents])
    · simp only [SharedPool.after, Pool.release, Bool.false_eq_true, if_false, List.length_cons]
      omega
  | discarded =>
    have hpos := hcounted (by simp [PoolUser.grip])
    refine ⟨?_, ?_⟩
    · exact Log.lostSlots_append.trans (by rw [hlost, Pool.lostSlots_giveBackEvents])
    · simp only [SharedPool.after, Pool.release, if_true]
      omega

/-- The order of the idle connections is kept if none of them is idle twice. -/
theorem UserMove.recent (h : UserMove shared user shared' user')
    (hrecent : Recent shared.returned shared.pool.idle)
    (honce : ∀ conn, shared.pool.idle.count conn ≤ 1) :
    Recent shared'.returned shared'.pool.idle := by
  cases h with
  | @reused conn idle notice hfound =>
    have hconn := honce conn
    rw [hfound] at hrecent hconn
    refine hrecent.pop fun hmem => ?_
    have hpos := List.count_pos_iff.mpr hmem
    rw [List.count_cons_self] at hconn
    omega
  | @returned conn => exact hrecent.push conn
  | reserved hidle => exact hrecent
  | _ => exact hrecent

theorem SharedPool.Sound.move (h : shared.Sound) (hfound : shared.users[index]? = some user)
    (hmove : UserMove shared user shared' user') :
    ({ shared' with users := shared.users.set index user' } : SharedPool).Sound := by
  obtain ⟨before, after, hsplit, hset⟩ := exists_split hfound
  obtain ⟨events, hlog, hhandling⟩ := hmove.handling
  obtain ⟨hlost, hbounded⟩ := hmove.within h.nothing_lost h.bounded (h.leased_pos hfound)
  have hholdings := h.holdings
  rw [hsplit, List.map_append, List.map_cons] at hholdings
  refine ⟨hbounded, ?_, hlost, hmove.recent h.recent h.idle_count_le⟩
  rw [hset, List.map_append, List.map_cons, hlog]
  exact hholdings.handle hhandling

/-- Dropping the idle connections closes each of them. -/
theorem SharedPool.Sound.clear (h : shared.Sound) :
    (shared.after { shared.pool with idle := [] }
      (shared.pool.idle.map fun conn => .effect (.close conn))).Sound := by
  have hclosed : Log.closed (shared.pool.idle.map fun conn => .effect (.close conn)) =
      shared.pool.idle := by
    unfold Log.closed
    rw [List.filterMap_map]
    exact List.filterMap_some
  have hlost : Log.lostSlots (shared.pool.idle.map fun conn => .effect (.close conn)) = 0 := by
    refine List.countP_eq_zero.mpr fun event hevent => ?_
    obtain ⟨conn, -, rfl⟩ := List.mem_map.mp hevent
    exact Bool.false_ne_true
  refine ⟨?_, ⟨fun conn => ?_, ?_⟩, ?_, .nil _⟩
  · have hbounded := h.bounded
    simp only [SharedPool.after, List.length_nil]
    omega
  · have honce := h.holdings.once conn
    simp only [SharedPool.after, Log.closed_append, hclosed, List.count_append, List.count_nil]
    exact honce
  · have hleased := h.holdings.leased_eq
    simp only [SharedPool.after, Log.lostSlots_append, hlost]
    exact hleased
  · simp only [SharedPool.after, Log.lostSlots_append, hlost, h.nothing_lost]

theorem SharedPool.Sound.step {action : PoolAction} (h : shared.Sound)
    (hstep : SharedStep shared action shared') : shared'.Sound := by
  cases hstep with
  | begin =>
    refine ⟨h.bounded, ?_, h.nothing_lost, h.recent⟩
    have hquiet : ∀ event ∈ ([] : Log), event.IsQuiet := List.forall_mem_nil _
    have hholdings := h.holdings.add_free 1 hquiet
    rw [List.append_nil] at hholdings
    rw [List.map_append]
    exact hholdings
  | user hfound hmove => exact h.move hfound hmove
  | clearIdle => exact h.clear

theorem SharedPool.sound_new (limit timeoutMs : Nat) : (SharedPool.new limit timeoutMs).Sound := by
  refine ⟨Nat.zero_le _, ⟨fun conn => ?_, rfl⟩, rfl, .nil _⟩
  unfold Pool.openedCount
  rw [if_neg fun h => absurd (Nat.le_trans h.1 h.2) (by simp [SharedPool.new, Pool.new])]
  rfl

/-! ## 4. Connections that were found broken -/

/-- The connection is held by a user that found it broken, or closed. -/
def SharedPool.Condemned (shared : SharedPool) (conn : ConnId) : Prop :=
  .holding ⟨conn, true⟩ ∈ shared.users ∨ conn ∈ shared.log.closed

/-- Steps add to the log. -/
theorem SharedStep.log_prefix {action : PoolAction} (h : SharedStep shared action shared') :
    ∃ events, shared'.log = shared.log ++ events := by
  cases h with
  | begin => exact ⟨[], (List.append_nil _).symm⟩
  | user hfound hmove =>
    obtain ⟨events, hlog, -⟩ := hmove.handling
    exact ⟨events, hlog⟩
  | clearIdle => exact ⟨_, rfl⟩

/-- A user that holds a broken connection goes on holding it, or closes it. -/
theorem UserMove.condemned {conn : ConnId}
    (h : UserMove shared (.holding ⟨conn, true⟩) shared' user') :
    user' = .holding ⟨conn, true⟩ ∨ conn ∈ shared'.log.closed := by
  cases h with
  | marked => exact .inl rfl
  | discarded =>
    refine .inr ?_
    simp only [SharedPool.after, Log.closed_append, Pool.closed_giveBackEvents, if_true]
    exact List.mem_append_right _ (List.mem_singleton_self conn)

theorem SharedStep.condemned {action : PoolAction} {conn : ConnId}
    (h : SharedStep shared action shared') (hcondemned : shared.Condemned conn) :
    shared'.Condemned conn := by
  rcases hcondemned with hheld | hclosed
  · cases h with
    | begin => exact .inl (List.mem_append_left _ hheld)
    | clearIdle => exact .inl hheld
    | @user index action user user' next hfound hmove =>
      obtain ⟨before, after, hsplit, hset⟩ := exists_split hfound
      rw [hsplit] at hheld
      rcases List.mem_append.mp hheld with hheld | hheld
      · exact .inl (by rw [hset]; exact List.mem_append_left _ hheld)
      · rcases List.mem_cons.mp hheld with rfl | hheld
        · refine hmove.condemned.imp_left fun huser' => ?_
          rw [hset, huser']
          exact List.mem_append_right _ List.mem_cons_self
        · exact .inl (by
            rw [hset]
            exact List.mem_append_right _ (List.mem_cons_of_mem _ hheld))
  · obtain ⟨events, hlog⟩ := h.log_prefix
    refine .inr ?_
    rw [hlog, Log.closed_append]
    exact List.mem_append_left _ hclosed

theorem SharedPool.Sound.not_idle {conn : ConnId} (h : shared.Sound)
    (hcondemned : shared.Condemned conn) : conn ∉ shared.pool.idle := by
  intro hidle
  have honce := h.holdings.once conn
  have hidle := List.count_pos_iff.mpr hidle
  have hopened : shared.pool.openedCount conn ≤ 1 := by
    unfold Pool.openedCount
    split <;> omega
  rw [PoolUser.heldCount_grips] at honce
  rcases hcondemned with hheld | hclosed
  · have hheld : 0 < shared.users.countP (·.holds conn) :=
      List.countP_pos_iff.mpr ⟨_, hheld, by simp [PoolUser.holds]⟩
    omega
  · have hclosed := List.count_pos_iff.mpr hclosed
    omega

/-! ## 5. Users that are not served -/

/-- What a user takes up of the count. -/
def PoolUser.share : Option PoolUser → Int
  | some .connecting | some (.holding _) => 1
  | _ => 0

/-- The user has not been given a connection yet. -/
def PoolUser.Unserved : Option PoolUser → Prop
  | some (.holding _) | some .departed => False
  | _ => True

/-- What a user takes is what it holds then. -/
theorem UserMove.share_eq (h : UserMove shared user shared' user')
    (hcounted : user.grip ≠ .free → 0 < shared.pool.leased) :
    (shared'.pool.leased : Int) - shared.pool.leased + PoolUser.share (some user) =
      PoolUser.share (some user') := by
  cases h with
  | waits => simp
  | gaveUp => simp [PoolUser.share]
  | reused =>
    simp only [PoolUser.share, SharedPool.after]
    omega
  | reserved =>
    simp only [PoolUser.share, SharedPool.after]
    omega
  | connected => simp [PoolUser.share, SharedPool.after]
  | refused =>
    have hpos := hcounted (by simp [PoolUser.grip])
    simp only [PoolUser.share, SharedPool.after, Pool.connectFailed]
    omega
  | marked => simp [PoolUser.share]
  | returned =>
    have hpos := hcounted (by simp [PoolUser.grip])
    simp only [PoolUser.share, SharedPool.after, Pool.release]
    omega
  | discarded =>
    have hpos := hcounted (by simp [PoolUser.grip])
    simp only [PoolUser.share, SharedPool.after, Pool.release]
    omega

/-- A step after which the user is not served leaves the idle connections alone. -/
theorem UserMove.idle_eq (h : UserMove shared user shared' user')
    (hunserved : PoolUser.Unserved (some user')) :
    shared'.pool.idle = shared.pool.idle ∧ PoolUser.Unserved (some user) := by
  cases h with
  | waits => exact ⟨rfl, trivial⟩
  | gaveUp => exact ⟨rfl, trivial⟩
  | reserved => exact ⟨rfl, trivial⟩
  | refused => exact ⟨rfl, trivial⟩
  | reused => exact hunserved.elim
  | connected => exact hunserved.elim
  | marked => exact hunserved.elim
  | returned => exact hunserved.elim
  | discarded => exact hunserved.elim

/-- The pool before and after each step of one user in a run. -/
def SharedPool.movesOf (index : Nat) : SharedPool → List PoolAction → List (Pool × Pool)
  | _, [] => []
  | shared, action :: actions =>
    match shared.step action with
    | none => []
    | some next =>
      if action.user? = some index then (shared.pool, next.pool) :: movesOf index next actions
      else movesOf index next actions

/-- What the steps of one user do to the count, taken together. -/
def netLeased (moves : List (Pool × Pool)) : Int :=
  (moves.map fun move => (move.2.leased : Int) - move.1.leased).sum

/-- A step of another user leaves this one where it is. -/
theorem SharedStep.others {action : PoolAction} (h : SharedStep shared action shared')
    (hother : action.user? ≠ some index) :
    shared'.users[index]? = shared.users[index]? ∨
      shared.users[index]? = none ∧ shared'.users[index]? = some .waiting := by
  cases h with
  | begin =>
    rcases Nat.lt_trichotomy index shared.users.length with hlt | rfl | hgt
    · exact .inl (List.getElem?_append_left hlt)
    · exact .inr ⟨List.getElem?_eq_none_iff.mpr (Nat.le_refl _), by simp⟩
    · refine .inl ?_
      rw [List.getElem?_eq_none_iff.mpr (Nat.le_of_lt hgt), List.getElem?_eq_none_iff.mpr]
      rw [List.length_append]
      exact hgt
  | clearIdle => exact .inl rfl
  | @user other action user user' next hfound hmove =>
    exact .inl (List.getElem?_set_ne fun heq => hother (congrArg some heq))

/-- A step of a user moves this user. -/
theorem SharedStep.own {action : PoolAction} (h : SharedStep shared action shared')
    (hown : action.user? = some index) :
    ∃ user user' next, shared.users[index]? = some user ∧ UserMove shared user next user' ∧
      shared' = { next with users := shared.users.set index user' } ∧
      shared'.users[index]? = some user' := by
  cases h with
  | begin => cases hown
  | clearIdle => cases hown
  | user hfound hmove =>
    cases hown
    obtain ⟨hlt, -⟩ := List.getElem?_eq_some_iff.mp hfound
    exact ⟨_, _, _, hfound, hmove, rfl, List.getElem?_set_self hlt⟩

/-- **What the steps of a user have taken, taken together, is what it holds.** -/
theorem SharedPool.movesOf_balance (index : Nat) : ∀ {actions : List PoolAction}
    {shared shared' : SharedPool}, shared.Sound → shared.run actions = some shared' →
    netLeased (shared.movesOf index actions) + PoolUser.share shared.users[index]? =
      PoolUser.share shared'.users[index]?
  | [], shared, _, _, h => by
    cases h
    exact Int.zero_add _
  | action :: actions, shared, shared', hsound, h => by
    obtain ⟨next, hnext, h⟩ := Option.bind_eq_some_iff.mp h
    have hstep := SharedPool.step_ok hnext
    have ih := movesOf_balance index (hsound.step hstep) h
    rw [movesOf, hnext]
    by_cases hown : action.user? = some index
    · simp only [if_pos hown]
      obtain ⟨user, user', moved, hfound, hmove, rfl, hfound'⟩ := hstep.own hown
      have hshare := hmove.share_eq (hsound.leased_pos hfound)
      rw [hfound'] at ih
      rw [hfound, netLeased, List.map_cons, List.sum_cons]
      unfold netLeased at ih
      dsimp only
      omega
    · simp only [if_neg hown]
      rcases hstep.others hown with heq | ⟨hnone, hwaiting⟩
      · rw [← ih, heq]
      · rw [← ih, hnone, hwaiting]
        rfl

/-- **A user that is not served has never touched the idle connections.** -/
theorem SharedPool.movesOf_keeps (index : Nat) : ∀ {actions : List PoolAction}
    {shared shared' : SharedPool}, shared.run actions = some shared' →
    PoolUser.Unserved shared'.users[index]? →
    (∀ move ∈ shared.movesOf index actions, move.2.idle = move.1.idle) ∧
      PoolUser.Unserved shared.users[index]?
  | [], shared, _, h, hunserved => by
    cases h
    exact ⟨List.forall_mem_nil _, hunserved⟩
  | action :: actions, shared, shared', h, hunserved => by
    obtain ⟨next, hnext, h⟩ := Option.bind_eq_some_iff.mp h
    have hstep := SharedPool.step_ok hnext
    obtain ⟨hrest, hunserved⟩ := movesOf_keeps index h hunserved
    rw [movesOf, hnext]
    by_cases hown : action.user? = some index
    · simp only [if_pos hown]
      obtain ⟨user, user', moved, hfound, hmove, rfl, hfound'⟩ := hstep.own hown
      rw [hfound'] at hunserved
      obtain ⟨hidle, hbefore⟩ := hmove.idle_eq hunserved
      rw [hfound]
      exact ⟨List.forall_mem_cons.mpr ⟨hidle, hrest⟩, hbefore⟩
    · simp only [if_neg hown]
      refine ⟨hrest, ?_⟩
      rcases hstep.others hown with heq | ⟨hnone, -⟩
      · rwa [heq] at hunserved
      · rw [hnone]
        trivial

end

/-! ## 6. Whole runs -/

/-- What users may rely on in a pool of a limit after some actions. -/
structure SharedPool.Safe (limit timeoutMs : Nat) (actions : List PoolAction)
    (shared : SharedPool) : Prop where
  bounded : shared.pool.idle.length + shared.pool.leased ≤ max limit 1
  /-- The count is the leases that are alive and the connections that are being opened. -/
  leased_eq : shared.pool.leased =
    shared.users.countP (·.isHolding) + shared.users.countP (·.isConnecting)
  /-- It never falls below zero: who gives something back takes one off a count that has it. -/
  gives_back : ∀ index action next, shared.step (.user index action) = some next →
    (action = .drop ∨ ∃ error, action = .refused error) →
    next.pool.leased + 1 = shared.pool.leased
  /-- A connection that was opened is idle once, in one lease that is alive, or closed. -/
  once : ∀ conn, shared.pool.idle.count conn + shared.users.countP (·.holds conn) +
    shared.log.closed.count conn = if 1 ≤ conn ∧ conn ≤ shared.pool.opened then 1 else 0
  /-- What was found broken is never handed out again. -/
  condemned : ∀ conn, PoolUser.holding ⟨conn, true⟩ ∈ shared.users → ∀ later next,
    shared.run later = some next → conn ∉ next.pool.idle
  /-- A slot for a new connection is given only if no connection is idle. -/
  opens_last : ∀ (index : Nat) action next, shared.users[index]? = some PoolUser.waiting →
    shared.step action = some next → next.users[index]? = some PoolUser.connecting →
    shared.pool.idle = []
  /-- Otherwise who looks gets the idle connection that came back last. -/
  reuses_latest : ∀ (index : Nat) late, shared.users[index]? = some PoolUser.waiting →
    shared.pool.idle ≠ [] →
    ∃ conn next before after, shared.step (.user index (.look false late)) = some next ∧
      next.users[index]? = some (PoolUser.holding ⟨conn, false⟩) ∧
      shared.pool.idle = conn :: next.pool.idle ∧ next.pool.opened = shared.pool.opened ∧
      shared.returned = before ++ conn :: after ∧ ∀ other ∈ before, other ∉ shared.pool.idle
  /-- Who gave up or could not connect leaves the pool as it was, the steps of others aside. -/
  unserved : ∀ (index : Nat) error, shared.users[index]? = some (PoolUser.failed error) →
    (∀ move ∈ (SharedPool.new limit timeoutMs).movesOf index actions,
      move.2.idle = move.1.idle) ∧
    netLeased ((SharedPool.new limit timeoutMs).movesOf index actions) = 0

variable {shared shared' : SharedPool} {index : Nat}

/-- Who drops a lease or cannot connect gives back what is counted. -/
theorem SharedPool.Sound.gives_back {next : SharedPool} {action : UserAction} (h : shared.Sound)
    (hstep : shared.step (.user index action) = some next)
    (haction : action = .drop ∨ ∃ error, action = .refused error) :
    next.pool.leased + 1 = shared.pool.leased := by
  obtain ⟨user, hfound, hstep⟩ := Option.bind_eq_some_iff.mp hstep
  obtain ⟨⟨moved, user'⟩, hact, hstep⟩ := Option.bind_eq_some_iff.mp hstep
  cases hstep
  have hpos := h.leased_pos hfound
  rcases haction with rfl | ⟨error, rfl⟩
  · cases user with
    | holding lease =>
      obtain ⟨conn, broken⟩ := lease
      cases hact
      exact Nat.sub_add_cancel (hpos (by cases broken <;> simp [PoolUser.grip]))
    | _ => cases hact
  · cases user with
    | connecting =>
      cases hact
      exact Nat.sub_add_cancel (hpos (by simp [PoolUser.grip]))
    | _ => cases hact

/-- A user that waits is given a slot only if no connection is idle. -/
theorem SharedPool.opens_last {next : SharedPool} {action : PoolAction}
    (hwaiting : shared.users[index]? = some .waiting) (hstep : shared.step action = some next)
    (hconnecting : next.users[index]? = some .connecting) : shared.pool.idle = [] := by
  have hstep := SharedPool.step_ok hstep
  by_cases hown : action.user? = some index
  · obtain ⟨user, user', moved, hfound, hmove, rfl, hfound'⟩ := hstep.own hown
    cases hfound.symm.trans hwaiting
    cases hfound'.symm.trans hconnecting
    cases hmove with
    | reserved hidle => exact hidle
  · rcases hstep.others hown with heq | ⟨hnone, -⟩
    · rw [heq, hwaiting] at hconnecting
      cases hconnecting
    · rw [hnone] at hwaiting
      cases hwaiting

/-- A user that looks while a connection is idle gets the one that came back last. -/
theorem SharedPool.Sound.reuses_latest (h : shared.Sound) (late : Bool)
    (hwaiting : shared.users[index]? = some .waiting) (hidle : shared.pool.idle ≠ []) :
    ∃ conn next before after, shared.step (.user index (.look false late)) = some next ∧
      next.users[index]? = some (.holding ⟨conn, false⟩) ∧
      shared.pool.idle = conn :: next.pool.idle ∧ next.pool.opened = shared.pool.opened ∧
      shared.returned = before ++ conn :: after ∧
      ∀ other ∈ before, other ∉ shared.pool.idle := by
  obtain ⟨conn, idle, notice, hfound, hacquire⟩ | ⟨hnone, -⟩ | ⟨hnone, -⟩ :=
    shared.pool.acquire_cases
  · obtain ⟨hlt, -⟩ := List.getElem?_eq_some_iff.mp hwaiting
    have hrecent := h.recent
    rw [hfound] at hrecent ⊢
    obtain ⟨before, after, hreturned, hapart⟩ := hrecent.latest
    have hact : shared.act .waiting (.look false late) =
        some (shared.after { shared.pool with idle := idle, leased := shared.pool.leased + 1 }
          [.effect (.notice notice)], .holding ⟨conn, false⟩) := by
      simp only [SharedPool.act, hacquire, Bool.false_eq_true, if_false]
      rfl
    have hstep : shared.step (.user index (.look false late)) = some
        { shared.after { shared.pool with idle := idle, leased := shared.pool.leased + 1 }
          [.effect (.notice notice)] with
          users := shared.users.set index (.holding ⟨conn, false⟩) } := by
      unfold SharedPool.step
      simp only [hwaiting, hact, Option.bind_eq_bind, Option.bind_some]
      rfl
    exact ⟨conn, _, before, after, hstep, List.getElem?_set_self hlt, rfl, rfl, hreturned, hapart⟩
  · exact absurd hnone hidle
  · exact absurd hnone hidle

/-- No step changes the limit. -/
theorem SharedStep.limit_eq {action : PoolAction} (h : SharedStep shared action shared') :
    shared'.pool.limit = shared.pool.limit := by
  cases h with
  | begin => rfl
  | clearIdle => rfl
  | user hfound hmove => cases hmove <;> rfl

/-- **A pool is safe in every run.** -/
theorem pool_safety {limit timeoutMs : Nat} {actions : List PoolAction}
    (h : (SharedPool.new limit timeoutMs).run actions = some shared) :
    shared.Safe limit timeoutMs actions := by
  have hsound : shared.Sound := SharedPool.run_induct (SharedPool.sound_new limit timeoutMs)
    (fun hsound hstep => hsound.step hstep) h
  have hlimit : shared.pool.limit = max limit 1 :=
    SharedPool.run_induct (motive := fun shared => shared.pool.limit = max limit 1) rfl
      (fun hlimit hstep => hstep.limit_eq.trans hlimit) h
  refine ⟨?_, ?_, ?_, ?_, ?_, ?_, ?_, ?_⟩
  · rw [← hlimit]
    exact hsound.bounded
  · rw [← PoolUser.holdersOf_grips, hsound.holdings.leased_eq, hsound.nothing_lost]
    rfl
  · exact fun index action next hstep haction => hsound.gives_back hstep haction
  · intro conn
    have honce := hsound.holdings.once conn
    rw [PoolUser.heldCount_grips, Pool.openedCount] at honce
    omega
  · intro conn hheld later next hlater
    have hkept : next.Condemned conn ∧ next.Sound :=
      SharedPool.run_induct (motive := fun shared => shared.Condemned conn ∧ shared.Sound)
        ⟨.inl hheld, hsound⟩
        (fun hboth hstep => ⟨hstep.condemned hboth.1, hboth.2.step hstep⟩) hlater
    exact hkept.2.not_idle hkept.1
  · exact fun index action next hwaiting hstep => SharedPool.opens_last hwaiting hstep
  · exact fun index late hwaiting hidle => hsound.reuses_latest late hwaiting hidle
  · intro index error hfailed
    have hbalance := SharedPool.movesOf_balance index (SharedPool.sound_new limit timeoutMs) h
    obtain ⟨hkeeps, -⟩ := SharedPool.movesOf_keeps index h (by rw [hfailed]; trivial)
    rw [hfailed] at hbalance
    exact ⟨hkeeps, by simpa [SharedPool.new, PoolUser.share] using hbalance⟩

/-- Six users of a pool of one connection.  The second one waits too long, the first one finds its
connection broken, the third one cannot connect, the fifth one is cancelled, and the last one gets
the connection that the fourth one has given back. -/
def sixUsers : List PoolAction :=
  [.begin, .begin, .user 0 (.look false false), .user 1 (.look false false), .user 0 .connected,
    .user 1 (.look false true), .user 0 .markBroken, .user 0 .drop, .begin,
    .user 2 (.look false false), .user 2 (.refused (.connection (.unreachable "broker"))),
    .begin, .user 3 (.look false false), .user 3 .connected, .user 3 .drop, .begin,
    .user 4 (.look true false), .begin, .user 5 (.look false false)]

/-- One of the two connections is in use in the end, and the other is closed. -/
theorem pool_safety_sixUsers :
    ∃ shared, (SharedPool.new 0 10).run sixUsers = some shared ∧
      shared.pool = ⟨1, [], 1, 2⟩ ∧ shared.log.closed = [1] ∧ shared.Safe 0 10 sixUsers :=
  ⟨_, rfl, rfl, rfl, pool_safety rfl⟩

end RemoteCall.Client
