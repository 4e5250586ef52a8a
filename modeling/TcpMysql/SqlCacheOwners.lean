import TcpMysql.SqlCacheMemo

/-!
# Who owns the cached replies

Read line 74 as making a statement for the new pair, and count only the owners
that the code keeps.  The pair of a miss is owned by a local pointer of
`onMessage` alone, so it is gone when the call returns, while its statement stays
in the newest bucket.  The first message therefore leaves a statement without a
pair behind.
-/

namespace TcpMysql

/-- The fault a computation ended with. -/
def faultOf {State Value : Type} : EStateM.Result Fault State Value → Option Fault
  | .ok _ _ => none
  | .error fault _ => some fault

namespace SqlCache

open CircularBuffer

variable {Wheel : Type → Type} [CircularBuffer Wheel] {Db : Type}

/-- Every statement in a bucket has a live pair. -/
def PairsLive (cache : SqlCache Wheel Db) : Prop :=
  ∀ stmt, cache.Held stmt → ∃ sql, cache.pairOf stmt = some sql

/-- The call follows a null pointer. -/
def DerefsNull (reading : Reading) (process : Process Db) (cache : SqlCache Wheel Db) :
    CacheEvent → Prop
  | .message msg =>
      faultOf ((answer reading process msg).run cache) = some .nullPointer
  | .timer => faultOf (onTimer.run cache) = some .nullPointer

instance (reading : Reading) (process : Process Db) (cache : SqlCache Wheel Db)
    (event : CacheEvent) : Decidable (DerefsNull reading process cache event) :=
  match event with
  | .message msg =>
      inferInstanceAs (Decidable
        (faultOf ((answer reading process msg).run cache) = some .nullPointer))
  | .timer =>
      inferInstanceAs (Decidable (faultOf (onTimer.run cache) = some .nullPointer))

omit [CircularBuffer Wheel] in
theorem pairOf_eq_none {cache : SqlCache Wheel Db} (noOwners : cache.pairOwners = [])
    (stmt : StmtId) : cache.pairOf stmt = none := by
  simp [pairOf, lockPair, noOwners]

/-! ## Before the first message -/

/-- The cache before the first message. -/
structure Blank (cache : SqlCache Wheel Db) : Prop extends cache.Untouched where
  noOwners : cache.pairOwners = []

theorem new_blank {idleSeconds : Nat} (positive : 0 < idleSeconds) (db : Db) :
    (new Wheel idleSeconds db).Blank :=
  ⟨new_untouched positive db, rfl⟩

namespace Blank

variable {cache : SqlCache Wheel Db}

theorem pairsLive (blank : cache.Blank) : cache.PairsLive := by
  rintro stmt ⟨bucket, member, inBucket⟩
  simp [blank.noStmts bucket member] at inBucket

theorem onTimer (blank : cache.Blank) :
    ∃ after, SqlCache.onTimer.run cache = .ok () after ∧ after.Blank := by
  obtain ⟨after, ran, untouched, ownersEq⟩ := blank.toUntouched.onTimer
  exact ⟨after, ran, untouched, ownersEq.trans blank.noOwners⟩

/-- The first message leaves a statement whose pair is gone. -/
theorem message (blank : cache.Blank) (process : Process Db) (msg : Bytes) :
    ∃ after,
      (system (.freshStmt false) process).next cache (.message msg) = some after ∧
        ¬after.PairsLive := by
  obtain ⟨list, ran, inserted⟩ := run_miss_freshStmt blank.full false process msg
  have answered : (answer (.freshStmt false) process msg).run cache =
      .ok (process cache.mysqlserver_ (cStr msg)).1
        (cache.stored false msg (process cache.mysqlserver_ (cStr msg)) list) := by
    simp [answer, blank.noEntries msg, ran]
  refine ⟨_, okState_eq_some.mpr ⟨_, answered⟩, ?_⟩
  intro live
  have held : (cache.stored false msg (process cache.mysqlserver_ (cStr msg))
      list).Held cache.stmts.length := inserted.held.mpr (.inr rfl)
  have noOwners : (cache.stored false msg (process cache.mysqlserver_ (cStr msg))
      list).pairOwners = [] := blank.noOwners
  obtain ⟨sql, pairEq⟩ := live _ held
  rw [pairOf_eq_none noOwners] at pairEq
  simp at pairEq

end Blank

/-! ## Whole runs -/

theorem Blank.of_pairsLive {cache : SqlCache Wheel Db} (blank : cache.Blank)
    (process : Process Db) {events : List CacheEvent}
    (live : ∀ visitedCache ∈ (system (.freshStmt false) process).visited cache events,
      visitedCache.PairsLive) :
    ∀ event ∈ events, event = .timer := by
  induction events generalizing cache with
  | nil => simp
  | cons first rest ih =>
      cases first with
      | message msg =>
          obtain ⟨after, stepTo, dead⟩ := blank.message process msg
          have visit : after ∈ (system (.freshStmt false) process).visited cache
              (.message msg :: rest) := by
            simp [EventSystem.visited, stepTo, EventSystem.self_mem_visited]
          exact absurd (live after visit) dead
      | timer =>
          obtain ⟨after, ran, afterBlank⟩ := blank.onTimer
          have stepTo : (system (.freshStmt false) process).next cache .timer =
              some after := okState_eq_some.mpr ⟨(), ran⟩
          have rest := ih afterBlank fun later visit => live later (by
            simp [EventSystem.visited, stepTo, visit])
          simpa using rest

theorem Blank.of_timers {cache : SqlCache Wheel Db} (blank : cache.Blank)
    (process : Process Db) {events : List CacheEvent}
    (timers : ∀ event ∈ events, event = .timer) :
    (∀ visitedCache ∈ (system (.freshStmt false) process).visited cache events,
      visitedCache.PairsLive) ∧
      ∀ before event,
        (before, event) ∈ (system (.freshStmt false) process).attempts cache events →
          ¬DerefsNull (.freshStmt false) process before event := by
  induction events generalizing cache with
  | nil => simp [EventSystem.visited, EventSystem.attempts, blank.pairsLive]
  | cons first rest ih =>
      obtain rfl : first = .timer := timers first (by simp)
      obtain ⟨after, ran, afterBlank⟩ := blank.onTimer
      have stepTo : (system (.freshStmt false) process).next cache .timer =
          some after := okState_eq_some.mpr ⟨(), ran⟩
      obtain ⟨restLive, restSafe⟩ :=
        ih afterBlank fun event member => timers event (by simp [member])
      constructor
      · intro visitedCache visit
        simp only [EventSystem.visited, stepTo, List.mem_cons] at visit
        rcases visit with rfl | later
        · exact blank.pairsLive
        · exact restLive visitedCache later
      · intro before event attempted
        simp only [EventSystem.attempts, stepTo, List.mem_cons] at attempted
        rcases attempted with equal | later
        · obtain ⟨rfl, rfl⟩ := Prod.mk.inj equal
          simp [DerefsNull, ran, faultOf]
        · exact restSafe before event later

theorem new_zero_pairsLive (db : Db) : (new Wheel 0 db).PairsLive := by
  rintro stmt ⟨bucket, member, -⟩
  rw [new, elements_filled] at member
  simp at member

/-- Every statement in a bucket has a live pair throughout a run, and no call
follows a null pointer, exactly when the run has no message.  Without buckets
`front` and `back` are undefined, and only the run without calls is considered. -/
theorem pairs_live_iff {idleSeconds : Nat} (process : Process Db) (db : Db)
    {events : List CacheEvent} (defined : 1 ≤ idleSeconds ∨ events = []) :
    ((∀ cache ∈ (system (.freshStmt false) process).visited
        (new Wheel idleSeconds db) events, cache.PairsLive) ∧
      ∀ before event,
        (before, event) ∈ (system (.freshStmt false) process).attempts
            (new Wheel idleSeconds db) events →
          ¬DerefsNull (.freshStmt false) process before event) ↔
      ∀ event ∈ events, event = .timer := by
  rcases Nat.eq_zero_or_pos idleSeconds with rfl | positive
  · obtain rfl : events = [] := defined.resolve_left (by decide)
    simp [EventSystem.visited, EventSystem.attempts, new_zero_pairsLive]
  · have blank : (new Wheel idleSeconds db).Blank := new_blank positive db
    constructor
    · rintro ⟨live, -⟩
      exact blank.of_pairsLive process live
    · intro timers
      exact blank.of_timers process timers

/-- A cache of five buckets that is only ticked. -/
theorem pairs_live_two_ticks :
    (∀ cache ∈ (system (.freshStmt false) numbering).visited
        (new BoundedList 5 0) [.timer, .timer], cache.PairsLive) ∧
      ∀ before event,
        (before, event) ∈ (system (.freshStmt false) numbering).attempts
            (new BoundedList 5 0) [.timer, .timer] →
          ¬DerefsNull (.freshStmt false) numbering before event :=
  (pairs_live_iff numbering 0 (.inl (by decide))).mpr (by simp)

/-- The reply to the first message has no owner.  The same message once more
follows the null pointer, and so does the tick that expires the statement. -/
theorem first_reply_orphaned :
    (∃ cache,
      (system (.freshStmt false) numbering).Reaches (new BoundedList 5 0) [.message [97]] cache ∧
        cache.Held 0 ∧ cache.pairOf 0 = none ∧
          DerefsNull (.freshStmt false) numbering cache (.message [97])) ∧
      ∃ cache,
        (system (.freshStmt false) numbering).Reaches (new BoundedList 5 0)
            [.message [97], .timer, .timer, .timer, .timer] cache ∧
          DerefsNull (.freshStmt false) numbering cache .timer := by
  constructor
  · exact EventSystem.exists_reaches_of_play
      (system (.freshStmt false) numbering) (new BoundedList 5 0) [.message [97]]
      (fun cache => cache.Held 0 ∧ cache.pairOf 0 = none ∧
        DerefsNull (.freshStmt false) numbering cache (.message [97]))
      (by decide +kernel)
  · exact EventSystem.exists_reaches_of_play
      (system (.freshStmt false) numbering) (new BoundedList 5 0)
      [.message [97], .timer, .timer, .timer, .timer]
      (fun cache => DerefsNull (.freshStmt false) numbering cache .timer)
      (by decide +kernel)

end SqlCache

end TcpMysql
