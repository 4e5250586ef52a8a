import TcpMysql.SqlCache

/-!
# The cache remembers the latest replies

Read line 74 as making a statement for the new pair, and take the pairs as kept.
Then every text in the index leads, through a statement that some bucket owns, to
a pair with this text.  A superseded statement may linger in newer buckets and
erase the entry of its successor early, but never makes an entry dangle, because
an entry goes with the bucket of its own statement.
-/

namespace TcpMysql

namespace SqlCache

open CircularBuffer

variable {Wheel : Type → Type} [CircularBuffer Wheel] {Db : Type}

/-- Every statement in the wheel has a live pair, and every text of the index
leads to a statement in the wheel whose pair has this text. -/
structure Good (idleSeconds : Nat) (cache : SqlCache Wheel Db) : Prop where
  full : Full cache.sqlstmtlist_
  capacity_eq : capacity cache.sqlstmtlist_ = idleSeconds
  live : ∀ stmt, cache.Held stmt → ∃ sql, cache.pairOf stmt = some sql
  keyed : ∀ msg weak, cache.sqlchecklist_.lookup msg = some weak →
    cache.Held weak ∧ ∃ reply, cache.pairOf weak = some (msg, reply)

/-- The reply the database gave the last time it was asked this text. -/
def mostRecentMiss (cache : SqlCache Wheel Db) (msg : Bytes) : Option Bytes :=
  cache.misses.lookup msg

/-- The index leads to the most recent reply for each of its texts. -/
structure Remembers (idleSeconds : Nat) (cache : SqlCache Wheel Db) : Prop
    extends cache.Good idleSeconds where
  latest : ∀ msg weak reply, cache.sqlchecklist_.lookup msg = some weak →
    cache.pairOf weak = some (msg, reply) → cache.mostRecentMiss msg = some reply

theorem Inserted.held {before after : SqlCache Wheel Db} {stmt other : StmtId}
    (inserted : Inserted before after stmt) :
    after.Held other ↔ before.Held other ∨ other = stmt := by
  obtain ⟨older, newest, beforeEq, afterEq⟩ := inserted.buckets
  unfold Held
  rw [beforeEq, afterEq]
  constructor
  · rintro ⟨bucket, member, inBucket⟩
    rcases List.mem_append.mp member with old | last
    · exact .inl ⟨bucket, by simp [old], inBucket⟩
    · obtain rfl := List.mem_singleton.mp last
      rcases List.mem_insert_iff.mp inBucket with same | earlier
      · exact .inr same
      · exact .inl ⟨newest, by simp, earlier⟩
  · rintro (⟨bucket, member, inBucket⟩ | rfl)
    · rcases List.mem_append.mp member with old | last
      · exact ⟨bucket, by simp [old], inBucket⟩
      · obtain rfl := List.mem_singleton.mp last
        exact ⟨bucket.insert stmt, by simp, List.mem_insert_of_mem inBucket⟩
    · exact ⟨newest.insert other, by simp, List.mem_insert_self⟩

/-! ## What keeps the cache good -/

theorem new_good {idleSeconds : Nat} (positive : 1 ≤ idleSeconds) (db : Db) :
    (new Wheel idleSeconds db).Good idleSeconds := by
  refine ⟨filled_full positive _, capacity_filled idleSeconds _, ?_, ?_⟩
  · rintro stmt ⟨bucket, member, inBucket⟩
    rw [new, elements_filled] at member
    have empty : bucket = [] := List.eq_of_mem_replicate member
    simp [empty] at inBucket
  · intro msg weak found
    simp [new] at found

theorem stored_held {cache : SqlCache Wheel Db} {list : Wheel Bucket}
    (inserted :
      Inserted cache { cache with sqlstmtlist_ := list } cache.stmts.length)
    (msg : Bytes) (result : Bytes × Db) (stmt : StmtId) :
    (cache.stored true msg result list).Held stmt ↔
      cache.Held stmt ∨ stmt = cache.stmts.length :=
  inserted.held

omit [CircularBuffer Wheel] in
/-- The entries after a miss are the new one and those of the other texts. -/
theorem stored_lookup_cases {cache : SqlCache Wheel Db} {keepPairs : Bool}
    {msg other : Bytes} {result : Bytes × Db} {list : Wheel Bucket}
    {weak : StmtId}
    (found : (cache.stored keepPairs msg result list).sqlchecklist_.lookup other =
      some weak) :
    (other = msg ∧ weak = cache.stmts.length) ∨
      (other ≠ msg ∧ cache.sqlchecklist_.lookup other = some weak) := by
  by_cases same : other = msg
  · subst same
    left
    refine ⟨rfl, ?_⟩
    have stored : cache.stmts.length = weak := by simpa [SqlCache.stored] using found
    exact stored.symm
  · right
    refine ⟨same, ?_⟩
    simpa [SqlCache.stored, AList.lookup_insert_ne same] using found

namespace Good

variable {idleSeconds : Nat} {cache : SqlCache Wheel Db}

/-- A hit sends the reply of its pair and changes only the newest bucket. -/
theorem answer_hit (good : cache.Good idleSeconds) (reading : Reading)
    (process : Process Db) {msg : Bytes} {weak : StmtId}
    (found : cache.sqlchecklist_.lookup msg = some weak) :
    ∃ reply list,
      (answer reading process msg).run cache =
          .ok reply { cache with sqlstmtlist_ := list } ∧
        Inserted cache { cache with sqlstmtlist_ := list } weak ∧
          cache.pairOf weak = some (msg, reply) := by
  obtain ⟨held, reply, pairEq⟩ := good.keyed msg weak found
  obtain ⟨list, ran, inserted⟩ := run_hit good.full held pairEq
  refine ⟨reply, list, ?_, inserted, pairEq⟩
  simp [answer, found, ran]

theorem answer_miss (good : cache.Good idleSeconds) (keepPairs : Bool)
    (process : Process Db) {msg : Bytes}
    (absent : cache.sqlchecklist_.lookup msg = none) :
    ∃ list,
      (answer (.freshStmt keepPairs) process msg).run cache =
          .ok (process cache.mysqlserver_ (cStr msg)).1
            (cache.stored keepPairs msg (process cache.mysqlserver_ (cStr msg)) list) ∧
        Inserted cache { cache with sqlstmtlist_ := list } cache.stmts.length := by
  obtain ⟨list, ran, inserted⟩ := run_miss_freshStmt good.full keepPairs process msg
  refine ⟨list, ?_, inserted⟩
  simp [answer, absent, ran]

theorem of_inserted (good : cache.Good idleSeconds) {list : Wheel Bucket}
    {weak : StmtId} (inserted : Inserted cache { cache with sqlstmtlist_ := list } weak)
    {sql : Bytes × Bytes} (pairEq : cache.pairOf weak = some sql) :
    SqlCache.Good idleSeconds { cache with sqlstmtlist_ := list } := by
  refine ⟨inserted.full, inserted.sameCapacity.trans good.capacity_eq, ?_, ?_⟩
  · intro stmt held
    rcases inserted.held.mp held with before | rfl
    · exact good.live stmt before
    · exact ⟨sql, pairEq⟩
  · intro msg other found
    obtain ⟨held, pairs⟩ := good.keyed msg other found
    exact ⟨inserted.held.mpr (.inl held), pairs⟩

theorem stored (good : cache.Good idleSeconds) {list : Wheel Bucket}
    (inserted :
      Inserted cache { cache with sqlstmtlist_ := list } cache.stmts.length)
    (msg : Bytes) (result : Bytes × Db) :
    (cache.stored true msg result list).Good idleSeconds := by
  have newPair := cache.stored_pairOf_new msg result list
  refine ⟨inserted.full, inserted.sameCapacity.trans good.capacity_eq, ?_, ?_⟩
  · intro stmt held
    rcases (stored_held inserted msg result stmt).mp held with before | rfl
    · obtain ⟨sql, pairEq⟩ := good.live stmt before
      exact ⟨sql, stored_pairOf pairEq true msg result list⟩
    · exact ⟨_, newPair⟩
  · intro other weak found
    rcases stored_lookup_cases found with ⟨rfl, rfl⟩ | ⟨-, before⟩
    · exact ⟨(stored_held inserted other result _).mpr (.inr rfl), _, newPair⟩
    · obtain ⟨held, reply, pairEq⟩ := good.keyed other weak before
      exact ⟨(stored_held inserted msg result weak).mpr (.inl held), reply,
        stored_pairOf pairEq true msg result list⟩

/-- A tick drops the oldest bucket with the entries of its texts. -/
theorem onTimer (good : cache.Good idleSeconds) :
    ∃ oldest rest index list,
      SqlCache.onTimer.run cache =
          .ok () { cache with sqlchecklist_ := index, sqlstmtlist_ := list } ∧
        elements cache.sqlstmtlist_ = oldest :: rest ∧
          elements list = rest ++ [[]] ∧
            (∀ msg weak, index.lookup msg = some weak ↔
              cache.sqlchecklist_.lookup msg = some weak ∧
                ¬cache.Expires oldest msg) ∧
              SqlCache.Good idleSeconds
                { cache with sqlchecklist_ := index, sqlstmtlist_ := list } := by
  obtain ⟨oldest, rest, elementsEq, -⟩ := good.full.exists_front
  have oldestLive : ∀ stmt ∈ oldest, ∃ sql, cache.pairOf stmt = some sql := by
    intro stmt member
    exact good.live stmt ⟨oldest, by simp [elementsEq], member⟩
  obtain ⟨index, list, ran, listEq, listFull, capacityEq, gone, kept⟩ :=
    run_onTimer good.full elementsEq oldestLive
  have lookupEq (msg : Bytes) (weak : StmtId) : index.lookup msg = some weak ↔
      cache.sqlchecklist_.lookup msg = some weak ∧ ¬cache.Expires oldest msg := by
    by_cases expires : cache.Expires oldest msg
    · simp [gone msg expires, expires]
    · simp [kept msg expires, expires]
  refine ⟨oldest, rest, index, list, ran, elementsEq, listEq, lookupEq,
    listFull, capacityEq.trans good.capacity_eq, ?_, ?_⟩
  · rintro stmt ⟨bucket, member, inBucket⟩
    have inRest : bucket ∈ rest ++ [[]] := listEq ▸ member
    rcases List.mem_append.mp inRest with older | last
    · exact good.live stmt ⟨bucket, by simp [elementsEq, older], inBucket⟩
    · simp [List.mem_singleton.mp last] at inBucket
  · intro msg weak found
    obtain ⟨foundBefore, notExpired⟩ := (lookupEq msg weak).mp found
    obtain ⟨⟨bucket, member, inBucket⟩, reply, pairEq⟩ :=
      good.keyed msg weak foundBefore
    refine ⟨⟨bucket, ?_, inBucket⟩, reply, pairEq⟩
    -- a statement of the oldest bucket would have taken its text with it
    rw [elementsEq, List.mem_cons] at member
    change bucket ∈ elements list
    rw [listEq]
    rcases member with rfl | older
    · exact absurd ⟨weak, inBucket, reply, pairEq⟩ notExpired
    · simp [older]

theorem after_hit (good : cache.Good idleSeconds) {reading : Reading}
    {process : Process Db} {msg : Bytes} {weak : StmtId} {after : SqlCache Wheel Db}
    (found : cache.sqlchecklist_.lookup msg = some weak)
    (stepTo : (system reading process).next cache (.message msg) = some after) :
    ∃ reply list, after = { cache with sqlstmtlist_ := list } ∧
      Inserted cache { cache with sqlstmtlist_ := list } weak ∧
        cache.pairOf weak = some (msg, reply) := by
  obtain ⟨value, ran⟩ := okState_eq_some.mp stepTo
  obtain ⟨reply, list, ran', inserted, pairEq⟩ := good.answer_hit reading process found
  exact ⟨reply, list, (EStateM.Result.ok.inj (ran.symm.trans ran')).2, inserted, pairEq⟩

theorem after_miss (good : cache.Good idleSeconds) {keepPairs : Bool}
    {process : Process Db} {msg : Bytes} {after : SqlCache Wheel Db}
    (absent : cache.sqlchecklist_.lookup msg = none)
    (stepTo : (system (.freshStmt keepPairs) process).next cache (.message msg) =
      some after) :
    ∃ list,
      after = cache.stored keepPairs msg (process cache.mysqlserver_ (cStr msg)) list ∧
        Inserted cache { cache with sqlstmtlist_ := list } cache.stmts.length := by
  obtain ⟨value, ran⟩ := okState_eq_some.mp stepTo
  obtain ⟨list, ran', inserted⟩ := good.answer_miss keepPairs process absent
  exact ⟨list, (EStateM.Result.ok.inj (ran.symm.trans ran')).2, inserted⟩

theorem after_timer (good : cache.Good idleSeconds) {after : SqlCache Wheel Db}
    (stepTo : okState (SqlCache.onTimer.run cache) = some after) :
    ∃ oldest rest index list,
      after = { cache with sqlchecklist_ := index, sqlstmtlist_ := list } ∧
        elements cache.sqlstmtlist_ = oldest :: rest ∧
          elements list = rest ++ [[]] ∧
            (∀ msg weak, index.lookup msg = some weak ↔
              cache.sqlchecklist_.lookup msg = some weak ∧
                ¬cache.Expires oldest msg) ∧
              SqlCache.Good idleSeconds
                { cache with sqlchecklist_ := index, sqlstmtlist_ := list } := by
  obtain ⟨value, ran⟩ := okState_eq_some.mp stepTo
  obtain ⟨oldest, rest, index, list, ran', facts⟩ := good.onTimer
  exact ⟨oldest, rest, index, list,
    (EStateM.Result.ok.inj (ran.symm.trans ran')).2, facts⟩

theorem step_returns (good : cache.Good idleSeconds) (process : Process Db)
    (event : CacheEvent) :
    ∃ after, (system (.freshStmt true) process).next cache event = some after := by
  cases event with
  | message msg =>
      cases found : cache.sqlchecklist_.lookup msg with
      | some weak =>
          obtain ⟨reply, list, ran, -⟩ :=
            good.answer_hit (.freshStmt true) process found
          exact ⟨_, okState_eq_some.mpr ⟨reply, ran⟩⟩
      | none =>
          obtain ⟨list, ran, -⟩ := good.answer_miss true process found
          exact ⟨_, okState_eq_some.mpr ⟨_, ran⟩⟩
  | timer =>
      obtain ⟨_, _, index, list, ran, -⟩ := good.onTimer
      exact ⟨_, okState_eq_some.mpr ⟨(), ran⟩⟩

end Good

/-! ## What keeps the replies the latest ones -/

theorem new_remembers {idleSeconds : Nat} (positive : 1 ≤ idleSeconds) (db : Db) :
    (new Wheel idleSeconds db).Remembers idleSeconds := by
  refine ⟨new_good positive db, ?_⟩
  intro msg weak reply found
  simp [new] at found

/-- A hit sends the most recent reply and changes only the newest bucket. -/
theorem Remembers.answer_hit {idleSeconds : Nat} {cache : SqlCache Wheel Db}
    (remembers : cache.Remembers idleSeconds) (reading : Reading)
    (process : Process Db) {msg : Bytes} {weak : StmtId}
    (found : cache.sqlchecklist_.lookup msg = some weak) :
    ∃ reply list,
      (answer reading process msg).run cache =
          .ok reply { cache with sqlstmtlist_ := list } ∧
        Inserted cache { cache with sqlstmtlist_ := list } weak ∧
          cache.pairOf weak = some (msg, reply) ∧
            cache.mostRecentMiss msg = some reply := by
  obtain ⟨reply, list, ran, inserted, pairEq⟩ :=
    remembers.toGood.answer_hit reading process found
  exact ⟨reply, list, ran, inserted, pairEq,
    remembers.latest msg weak reply found pairEq⟩

theorem Remembers.of_inserted {idleSeconds : Nat} {cache : SqlCache Wheel Db}
    (remembers : cache.Remembers idleSeconds) {list : Wheel Bucket}
    {weak : StmtId} (inserted : Inserted cache { cache with sqlstmtlist_ := list } weak)
    {sql : Bytes × Bytes} (pairEq : cache.pairOf weak = some sql) :
    SqlCache.Remembers idleSeconds { cache with sqlstmtlist_ := list } :=
  ⟨remembers.toGood.of_inserted inserted pairEq, remembers.latest⟩

theorem Remembers.stored {idleSeconds : Nat} {cache : SqlCache Wheel Db}
    (remembers : cache.Remembers idleSeconds) {list : Wheel Bucket}
    (inserted :
      Inserted cache { cache with sqlstmtlist_ := list } cache.stmts.length)
    (msg : Bytes) (result : Bytes × Db) :
    (cache.stored true msg result list).Remembers idleSeconds := by
  refine ⟨remembers.toGood.stored inserted msg result, ?_⟩
  intro other weak reply found pairEq
  rcases stored_lookup_cases found with ⟨rfl, rfl⟩ | ⟨same, before⟩
  · have newPair := cache.stored_pairOf_new other result list
    have replyEq : result.1 = reply :=
      congrArg Prod.snd (Option.some.inj (newPair.symm.trans pairEq))
    simp [mostRecentMiss, SqlCache.stored, replyEq]
  · obtain ⟨-, oldReply, oldPair⟩ := remembers.keyed other weak before
    have samePair := (stored_pairOf oldPair true msg result list).symm.trans pairEq
    obtain rfl : oldReply = reply := congrArg Prod.snd (Option.some.inj samePair)
    have latest := remembers.latest other weak oldReply before oldPair
    have differs : (other == msg) = false := by simpa using same
    simpa [mostRecentMiss, SqlCache.stored, List.lookup_cons, differs] using latest

theorem Remembers.answer_miss {idleSeconds : Nat} {cache : SqlCache Wheel Db}
    (remembers : cache.Remembers idleSeconds) (process : Process Db) {msg : Bytes}
    (absent : cache.sqlchecklist_.lookup msg = none) :
    ∃ list,
      (answer (.freshStmt true) process msg).run cache =
          .ok (process cache.mysqlserver_ (cStr msg)).1
            (cache.stored true msg (process cache.mysqlserver_ (cStr msg)) list) ∧
        (cache.stored true msg (process cache.mysqlserver_ (cStr msg)) list).Remembers
          idleSeconds := by
  obtain ⟨list, ran, inserted⟩ := remembers.toGood.answer_miss true process absent
  exact ⟨list, ran, remembers.stored inserted msg _⟩

theorem Remembers.of_ticked {idleSeconds : Nat} {cache : SqlCache Wheel Db}
    (remembers : cache.Remembers idleSeconds)
    {index : AList fun _ : Bytes => StmtId} {list : Wheel Bucket}
    (good : SqlCache.Good idleSeconds
      { cache with sqlchecklist_ := index, sqlstmtlist_ := list })
    (fewer : ∀ msg weak, index.lookup msg = some weak →
      cache.sqlchecklist_.lookup msg = some weak) :
    SqlCache.Remembers idleSeconds
      { cache with sqlchecklist_ := index, sqlstmtlist_ := list } := by
  refine ⟨good, ?_⟩
  intro msg weak reply found
  exact remembers.latest msg weak reply (fewer msg weak found)

theorem Remembers.onTimer {idleSeconds : Nat} {cache : SqlCache Wheel Db}
    (remembers : cache.Remembers idleSeconds) :
    ∃ index list,
      SqlCache.onTimer.run cache =
          .ok () { cache with sqlchecklist_ := index, sqlstmtlist_ := list } ∧
        SqlCache.Remembers idleSeconds
          { cache with sqlchecklist_ := index, sqlstmtlist_ := list } := by
  obtain ⟨oldest, rest, index, list, ran, -, -, lookupEq, good⟩ :=
    remembers.toGood.onTimer
  exact ⟨index, list, ran, remembers.of_ticked good fun msg weak found =>
    ((lookupEq msg weak).mp found).1⟩

/-! ## The misses are the calls of the database -/

/-- The replies of the database to texts handed to it one after the other, and the
database afterwards. -/
def processAll (process : Process Db) : Db → List Bytes → List Bytes × Db
  | db, [] => ([], db)
  | db, text :: texts =>
      let result := process db text
      let rest := processAll process result.2 texts
      (result.1 :: rest.1, rest.2)

theorem processAll_append_singleton (process : Process Db) (db : Db) (texts : List Bytes)
    (text : Bytes) :
    processAll process db (texts ++ [text]) =
      ((processAll process db texts).1 ++
          [(process (processAll process db texts).2 text).1],
        (process (processAll process db texts).2 text).2) := by
  induction texts generalizing db with
  | nil => rfl
  | cons first texts ih => simp [processAll, ih]

/-- The recorded misses are what the database was asked since the start, each
text up to its first zero byte, and what it replied. -/
structure MissesProcessed (process : Process Db) (db : Db) (cache : SqlCache Wheel Db) :
    Prop where
  texts : cache.processed = (cache.misses.map fun miss => cStr miss.1).reverse
  replies : processAll process db cache.processed =
    ((cache.misses.map Prod.snd).reverse, cache.mysqlserver_)

omit [CircularBuffer Wheel] in
theorem MissesProcessed.stored {process : Process Db} {db : Db}
    {cache : SqlCache Wheel Db} (processed : cache.MissesProcessed process db)
    (keepPairs : Bool) (msg : Bytes) (list : Wheel Bucket) :
    (cache.stored keepPairs msg (process cache.mysqlserver_ (cStr msg))
      list).MissesProcessed process db where
  texts := by
    simp [SqlCache.stored, processed.texts]
  replies := by
    have before := processed.replies
    simp only [SqlCache.stored, processAll_append_singleton, before, List.map_cons,
      List.reverse_cons]

theorem step_missesProcessed {idleSeconds : Nat} {cache after : SqlCache Wheel Db}
    {keepPairs : Bool} {process : Process Db} {db : Db} {event : CacheEvent}
    (good : cache.Good idleSeconds) (processed : cache.MissesProcessed process db)
    (stepTo : (system (.freshStmt keepPairs) process).next cache event = some after) :
    after.MissesProcessed process db := by
  cases event with
  | message msg =>
      cases found : cache.sqlchecklist_.lookup msg with
      | some weak =>
          obtain ⟨_, list, rfl, -⟩ := good.after_hit found stepTo
          exact ⟨processed.texts, processed.replies⟩
      | none =>
          obtain ⟨list, rfl, -⟩ := good.after_miss found stepTo
          exact processed.stored keepPairs msg list
  | timer =>
      obtain ⟨_, _, index, list, rfl, -⟩ := good.after_timer stepTo
      exact ⟨processed.texts, processed.replies⟩

/-! ## Whole runs -/

theorem step_remembers {idleSeconds : Nat} {cache after : SqlCache Wheel Db}
    (process : Process Db) {event : CacheEvent}
    (remembers : cache.Remembers idleSeconds)
    (stepTo : (system (.freshStmt true) process).next cache event = some after) :
    after.Remembers idleSeconds := by
  cases event with
  | message msg =>
      cases found : cache.sqlchecklist_.lookup msg with
      | some weak =>
          obtain ⟨reply, list, rfl, inserted, pairEq⟩ :=
            remembers.toGood.after_hit found stepTo
          exact remembers.of_inserted inserted pairEq
      | none =>
          obtain ⟨list, rfl, inserted⟩ := remembers.toGood.after_miss found stepTo
          exact remembers.stored inserted msg _
  | timer =>
      obtain ⟨_, _, index, list, rfl, -, -, lookupEq, good⟩ :=
        remembers.toGood.after_timer stepTo
      exact remembers.of_ticked good fun msg weak found =>
        ((lookupEq msg weak).mp found).1

theorem remembers_of_reaches {idleSeconds : Nat} (positive : 1 ≤ idleSeconds)
    {process : Process Db} {db : Db} {events : List CacheEvent} {cache : SqlCache Wheel Db}
    (run : (system (.freshStmt true) process).Reaches (new Wheel idleSeconds db) events cache) :
    cache.Remembers idleSeconds := by
  apply run.invariant fun _ cache => cache.Remembers idleSeconds
  · exact new_remembers positive db
  · intro _ before event after _ remembers _ stepTo
    exact step_remembers process remembers stepTo

theorem missesProcessed_of_reaches {idleSeconds : Nat} (positive : 1 ≤ idleSeconds)
    {process : Process Db} {db : Db} {events : List CacheEvent}
    {cache : SqlCache Wheel Db}
    (run : (system (.freshStmt true) process).Reaches (new Wheel idleSeconds db) events
      cache) :
    cache.MissesProcessed process db := by
  apply run.invariant fun _ cache => cache.MissesProcessed process db
  · exact ⟨rfl, rfl⟩
  · intro _ before event after reached processed _ stepTo
    have good := (remembers_of_reaches positive reached).toGood
    exact step_missesProcessed good processed stepTo

/-- In every reachable cache each text of the index leads, through a statement
that a bucket holds, to the pair of this text and the reply of the most recent
miss on it, and a hit sends this reply.  The misses are what the database was
asked and what it replied.  No call fails. -/
theorem cached_reply_most_recent {idleSeconds : Nat} (positive : 1 ≤ idleSeconds)
    (process : Process Db) (db : Db) {events : List CacheEvent} {cache : SqlCache Wheel Db}
    (run : (system (.freshStmt true) process).Reaches (new Wheel idleSeconds db) events cache) :
    (∀ msg weak, cache.sqlchecklist_.lookup msg = some weak →
      (∃ bucket ∈ elements cache.sqlstmtlist_, weak ∈ bucket) ∧
        ∃ reply sqlstmt, cache.mostRecentMiss msg = some reply ∧
          cache.lockStmt weak = some sqlstmt ∧
            cache.lockPair sqlstmt.weaksql_ = some (msg, reply) ∧
              ∃ after,
                (answer (.freshStmt true) process msg).run cache = .ok reply after ∧
                  after.misses = cache.misses) ∧
      cache.MissesProcessed process db ∧
        ∀ event, ∃ after,
          (system (.freshStmt true) process).next cache event = some after := by
  have remembers := remembers_of_reaches positive run
  refine ⟨?_, missesProcessed_of_reaches positive run,
    remembers.toGood.step_returns process⟩
  intro msg weak found
  obtain ⟨held, -⟩ := remembers.keyed msg weak found
  obtain ⟨reply, list, ran, -, pairEq, latest⟩ :=
    remembers.answer_hit (.freshStmt true) process found
  obtain ⟨sqlstmt, stmtEq, lockEq⟩ := pairOf_eq_some.mp pairEq
  refine ⟨held, reply, sqlstmt, latest, ?_, lockEq, _, ran, rfl⟩
  rw [lockStmt, if_pos held, stmtEq]

/-- A database that numbers its replies. -/
def numbering : Process Nat :=
  fun count _ => ([count.toUInt8], count + 1)

/-- After two ticks the second reply to a statement has replaced the first. -/
theorem cached_reply_most_recent_second :
    ∃ cache,
      (system (.freshStmt true) numbering).Reaches (new BoundedList 2 0)
          [.message [97], .timer, .timer, .message [97]] cache ∧
        cache.sqlchecklist_.lookup [97] = some 1 ∧
          ∃ reply sqlstmt, cache.mostRecentMiss [97] = some reply ∧
            cache.lockStmt 1 = some sqlstmt ∧
              cache.lockPair sqlstmt.weaksql_ = some ([97], reply) := by
  obtain ⟨cache, run, found⟩ := EventSystem.exists_reaches_of_play
    (system (.freshStmt true) numbering) (new BoundedList 2 0)
    [.message [97], .timer, .timer, .message [97]]
    (fun cache => cache.sqlchecklist_.lookup [97] = some 1) (by decide +kernel)
  obtain ⟨-, reply, sqlstmt, latest, stmtEq, pairEq, -⟩ :=
    (cached_reply_most_recent (by decide) numbering 0 run).1 [97] 1 found
  exact ⟨cache, run, found, reply, sqlstmt, latest, stmtEq, pairEq⟩

end SqlCache

end TcpMysql
