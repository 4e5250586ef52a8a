import TcpMysql.CircularBuffer
import TcpMysql.EventRuns
import TcpMysql.TcpConnection
import Mathlib.Data.List.AList

/-!
# The statement cache and its time wheel

`onMessage` keeps the replies of the database in pairs of statement and reply.
A pair is reached through two weak pointers: `sqlchecklist_` maps a statement to
a `SqlStmt`, which refers to the pair.  The statements are owned by the buckets
of a circular buffer, and every second `onTimer` drops the oldest bucket.  The
circular buffer is `boost::circular_buffer`, a parameter with its documented laws.

The objects live in two heaps that only grow; whether a weak pointer can still be
locked depends on who owns the object it refers to.  A statement is owned by the
buckets that hold it, and a pair by the owners listed with the heap.
-/

namespace TcpMysql

abbrev PairId := Nat

abbrev StmtId := Nat

/-- `SqlStmt`: the weak pointer to its pair. -/
structure SqlStmt where
  weaksql_ : PairId

/-- `std::unordered_set<SqlStmtPtr>`. -/
abbrev Bucket := List StmtId

/-- What line 74 of `onMessage` makes of the new pair.  As it is written it casts
a pointer to the pair to a pointer to a statement.  The other reading is that it
makes a new statement which refers to the pair, and then the pairs are kept or
are not. -/
inductive Reading
  | asWritten
  | freshStmt (keepPairs : Bool)

/-- What a `boost::any` holds in `onMessage`. -/
inductive AnyValue
  | sqlPtr (pair : PairId)
  | weakSqlStmtPtr (stmt : StmtId)

/-- The cache with the database behind it.  `processed` records the arguments of
the calls of `process`, and `misses` the messages that led to them with the
replies, newest first. -/
structure SqlCache (Wheel : Type → Type) (Db : Type) where
  pairs : List (Bytes × Bytes)
  pairOwners : List PairId
  stmts : List SqlStmt
  sqlstmtlist_ : Wheel Bucket
  sqlchecklist_ : AList (fun _ : Bytes => StmtId)
  mysqlserver_ : Db
  processed : List Bytes
  misses : List (Bytes × Bytes)

/-- `MysqlServer::process`, as the server sees it: a statement takes the database
to a new state and gives a reply. -/
abbrev Process (Db : Type) := Db → Bytes → Bytes × Db

/-- `msg.c_str()`: the callee sees the text up to the first zero byte. -/
def cStr (msg : Bytes) : Bytes :=
  msg.takeWhile (· ≠ 0)

/-- The state in which a computation ended without a fault. -/
def okState {State Value : Type} : EStateM.Result Fault State Value → Option State
  | .ok _ state => some state
  | .error _ _ => none

theorem okState_eq_some {State Value : Type}
    {result : EStateM.Result Fault State Value} {state : State} :
    okState result = some state ↔ ∃ value, result = .ok value state := by
  cases result <;> simp [okState]

/-- The state in which a computation ended, with or without a fault. -/
def endState {State Value : Type} : EStateM.Result Fault State Value → State
  | .ok _ state => state
  | .error _ state => state

namespace SqlCache

open CircularBuffer

variable {Wheel : Type → Type} [CircularBuffer Wheel] {Db : Type}

/-- Computations that change the cache.  The changes made before a fault stay. -/
abbrev CacheM (Wheel : Type → Type) (Db : Type) := EStateM Fault (SqlCache Wheel Db)

def new (Wheel : Type → Type) [CircularBuffer Wheel] (idleSeconds : Nat) (db : Db) :
    SqlCache Wheel Db where
  pairs := []
  pairOwners := []
  stmts := []
  sqlstmtlist_ := CircularBuffer.resize (withCapacity idleSeconds) idleSeconds []
  sqlchecklist_ := ∅
  mysqlserver_ := db
  processed := []
  misses := []

/-- `sqlchecklist_.find(msg)!=sqlchecklist_.end()`. -/
def contains (cache : SqlCache Wheel Db) (msg : Bytes) : Bool :=
  (cache.sqlchecklist_.lookup msg).isSome

/-- Some bucket owns the statement. -/
def Held (cache : SqlCache Wheel Db) (stmt : StmtId) : Prop :=
  ∃ bucket ∈ elements cache.sqlstmtlist_, stmt ∈ bucket

instance (cache : SqlCache Wheel Db) (stmt : StmtId) : Decidable (cache.Held stmt) :=
  inferInstanceAs (Decidable (∃ bucket ∈ elements cache.sqlstmtlist_, stmt ∈ bucket))

/-- `lock()` of a weak pointer to a statement. -/
def lockStmt (cache : SqlCache Wheel Db) (weak : StmtId) : Option SqlStmt :=
  if cache.Held weak then cache.stmts[weak]? else none

/-- `lock()` of a weak pointer to a pair. -/
def lockPair (cache : SqlCache Wheel Db) (weak : PairId) : Option (Bytes × Bytes) :=
  if weak ∈ cache.pairOwners then cache.pairs[weak]? else none

/-- Follow a pointer that may be null. -/
def deref {Value : Type} : Option Value → CacheM Wheel Db Value
  | none => throw .nullPointer
  | some value => pure value

/-- `sqlstmtlist_.back().insert(stmt)`.  Without a bucket `back` is undefined. -/
def insertBack (stmt : StmtId) : CacheM Wheel Db Unit := do
  let list := (← get).sqlstmtlist_
  if nonempty : elements list ≠ [] then
    modify fun cache =>
      { cache with sqlstmtlist_ := modifyBack list nonempty (List.insert stmt) }
  else
    throw .emptyContainer

/-- The branch of `onMessage` for a statement in `sqlchecklist_`. -/
def hit (weak : StmtId) : CacheM Wheel Db Bytes := do
  let sqlstmt ← deref ((← get).lockStmt weak)
  let sql ← deref ((← get).lockPair sqlstmt.weaksql_)
  insertBack weak
  return sql.2

/-- Hand a statement to the database. -/
def callProcess (process : Process Db) (msg : Bytes) : CacheM Wheel Db Bytes :=
  modifyGet fun cache =>
    let result := process cache.mysqlserver_ (cStr msg)
    (result.1,
      { cache with
        mysqlserver_ := result.2
        processed := cache.processed ++ [cStr msg]
        misses := (msg, result.1) :: cache.misses })

/-- Line 73: the pair, owned by a local pointer. -/
def newPair (msg echo : Bytes) : CacheM Wheel Db PairId :=
  modifyGet fun cache =>
    (cache.pairs.length, { cache with pairs := cache.pairs ++ [(msg, echo)] })

/-- `boost::any_cast<WeakSqlStmtPtr>`. -/
def anyCast : AnyValue → CacheM Wheel Db StmtId
  | .sqlPtr _ => throw .badAnyCast
  | .weakSqlStmtPtr stmt => pure stmt

/-- Line 74. -/
def weakSqlStmt (reading : Reading) (sqlptr : PairId) : CacheM Wheel Db StmtId :=
  match reading with
  | .asWritten => anyCast (.sqlPtr sqlptr)
  | .freshStmt keepPairs =>
      modifyGet fun cache =>
        (cache.stmts.length,
          { cache with
            stmts := cache.stmts ++ [⟨sqlptr⟩]
            pairOwners :=
              if keepPairs then sqlptr :: cache.pairOwners else cache.pairOwners })

/-- The branch of `onMessage` for a statement that is not in
`sqlchecklist_`. -/
def miss (reading : Reading) (process : Process Db) (msg : Bytes) :
    CacheM Wheel Db Bytes := do
  let echo ← callProcess process msg
  let sqlptr ← newPair msg echo
  let weak ← weakSqlStmt reading sqlptr
  modify fun cache =>
    { cache with sqlchecklist_ := cache.sqlchecklist_.insert msg weak }
  insertBack weak
  return echo

/-- The part of `onMessage` that finds the reply. -/
def answer (reading : Reading) (process : Process Db) (msg : Bytes) :
    CacheM Wheel Db Bytes := do
  match (← get).sqlchecklist_.lookup msg with
  | some weak => hit weak
  | none => miss reading process msg

/-- One round of the loop in `onTimer`. -/
def expire (stmt : StmtId) : CacheM Wheel Db Unit := do
  let sqlstmt ← deref (← get).stmts[stmt]?
  let sql ← deref ((← get).lockPair sqlstmt.weaksql_)
  modify fun cache =>
    { cache with sqlchecklist_ := cache.sqlchecklist_.erase sql.1 }

/-- `TcpMysqlServer::onTimer`.  Without a bucket `front` is undefined. -/
def onTimer : CacheM Wheel Db Unit := do
  let list := (← get).sqlstmtlist_
  if nonempty : elements list ≠ [] then
    forM (front list nonempty) expire
    modify fun cache => { cache with sqlstmtlist_ := pushBack cache.sqlstmtlist_ [] }
  else
    throw .emptyContainer

/-- The calls that reach the cache. -/
inductive CacheEvent
  | message (msg : Bytes)
  | timer

/-- The cache under any sequence of messages and ticks. -/
def system (reading : Reading) (process : Process Db) :
    EventSystem (SqlCache Wheel Db) CacheEvent where
  next cache event :=
    match event with
    | .message msg => okState ((answer reading process msg).run cache)
    | .timer => okState (onTimer.run cache)
  offered _ _ := True

instance (reading : Reading) (process : Process Db) (cache : SqlCache Wheel Db)
    (event : CacheEvent) :
    Decidable ((system reading process).offered cache event) :=
  inferInstanceAs (Decidable True)

/-! ## What each part does when its pointers are good -/

/-- The pair of a statement, if it is still there. -/
def pairOf (cache : SqlCache Wheel Db) (stmt : StmtId) : Option (Bytes × Bytes) :=
  cache.stmts[stmt]?.bind fun sqlstmt => cache.lockPair sqlstmt.weaksql_

omit [CircularBuffer Wheel] in
theorem pairOf_eq_some {cache : SqlCache Wheel Db} {stmt : StmtId} {sql : Bytes × Bytes} :
    cache.pairOf stmt = some sql ↔
      ∃ sqlstmt, cache.stmts[stmt]? = some sqlstmt ∧
        cache.lockPair sqlstmt.weaksql_ = some sql := by
  simp [pairOf, Option.bind_eq_some_iff]

/-- The same statement is inserted into the newest bucket. -/
structure Inserted (before after : SqlCache Wheel Db) (stmt : StmtId) : Prop where
  buckets : ∃ older newest, elements before.sqlstmtlist_ = older ++ [newest] ∧
    elements after.sqlstmtlist_ = older ++ [newest.insert stmt]
  sameCapacity : capacity after.sqlstmtlist_ = capacity before.sqlstmtlist_
  full : Full after.sqlstmtlist_

theorem run_insertBack {cache : SqlCache Wheel Db} (full : Full cache.sqlstmtlist_)
    (stmt : StmtId) :
    ∃ list, (insertBack stmt).run cache = .ok () { cache with sqlstmtlist_ := list } ∧
      Inserted cache { cache with sqlstmtlist_ := list } stmt := by
  obtain ⟨older, newest, elementsEq, modifiedEq, modifiedFull⟩ :=
    full.modifyBack (List.insert stmt)
  refine ⟨_, ?_, ⟨⟨older, newest, elementsEq, modifiedEq⟩, capacity_modifyBack _ _ _,
    modifiedFull⟩⟩
  simp [insertBack, full.ne_nil]

theorem run_hit {cache : SqlCache Wheel Db} (full : Full cache.sqlstmtlist_)
    {weak : StmtId} {sql : Bytes × Bytes} (held : cache.Held weak)
    (pairEq : cache.pairOf weak = some sql) :
    ∃ list, (hit weak).run cache = .ok sql.2 { cache with sqlstmtlist_ := list } ∧
      Inserted cache { cache with sqlstmtlist_ := list } weak := by
  obtain ⟨sqlstmt, stmtEq, lockEq⟩ := pairOf_eq_some.mp pairEq
  obtain ⟨list, inserted, shape⟩ := run_insertBack full weak
  refine ⟨list, ?_, shape⟩
  have stmtLock : cache.lockStmt weak = some sqlstmt := by
    rw [lockStmt, if_pos held, stmtEq]
  simp [hit, stmtLock, lockEq, deref, inserted, -bind_pure_comp]

/-- The cache after a miss with a fresh statement, whose newest bucket already
holds the statement. -/
def stored (cache : SqlCache Wheel Db) (keepPairs : Bool) (msg : Bytes)
    (result : Bytes × Db) (list : Wheel Bucket) : SqlCache Wheel Db where
  pairs := cache.pairs ++ [(msg, result.1)]
  pairOwners :=
    if keepPairs then cache.pairs.length :: cache.pairOwners else cache.pairOwners
  stmts := cache.stmts ++ [⟨cache.pairs.length⟩]
  sqlstmtlist_ := list
  sqlchecklist_ := cache.sqlchecklist_.insert msg cache.stmts.length
  mysqlserver_ := result.2
  processed := cache.processed ++ [cStr msg]
  misses := (msg, result.1) :: cache.misses

/-- A miss with a fresh statement stores the reply under the statement's text. -/
theorem run_miss_freshStmt {cache : SqlCache Wheel Db} (full : Full cache.sqlstmtlist_)
    (keepPairs : Bool) (process : Process Db) (msg : Bytes) :
    ∃ list,
      (miss (.freshStmt keepPairs) process msg).run cache =
          .ok (process cache.mysqlserver_ (cStr msg)).1
            (cache.stored keepPairs msg (process cache.mysqlserver_ (cStr msg)) list) ∧
        Inserted cache { cache with sqlstmtlist_ := list } cache.stmts.length := by
  obtain ⟨older, newest, elementsEq, modifiedEq, modifiedFull⟩ :=
    full.modifyBack (List.insert cache.stmts.length)
  refine ⟨_, ?_, ⟨⟨older, newest, elementsEq, modifiedEq⟩, capacity_modifyBack _ _ _,
    modifiedFull⟩⟩
  simp [miss, callProcess, newPair, weakSqlStmt, insertBack, full.ne_nil, stored,
    -bind_pure_comp]

omit [CircularBuffer Wheel] in
theorem stored_pairOf {cache : SqlCache Wheel Db} {stmt : StmtId} {sql : Bytes × Bytes}
    (pairEq : cache.pairOf stmt = some sql) (keepPairs : Bool) (msg : Bytes)
    (result : Bytes × Db) (list : Wheel Bucket) :
    (cache.stored keepPairs msg result list).pairOf stmt = some sql := by
  obtain ⟨sqlstmt, stmtEq, lockEq⟩ := pairOf_eq_some.mp pairEq
  unfold lockPair at lockEq
  split at lockEq
  · rename_i owned
    refine pairOf_eq_some.mpr ⟨sqlstmt, ?_, ?_⟩
    · exact (List.getElem?_append_left (List.getElem?_eq_some_iff.mp stmtEq).1).trans stmtEq
    · have stillOwned : sqlstmt.weaksql_ ∈
          (cache.stored keepPairs msg result list).pairOwners := by
        cases keepPairs <;> simp [stored, owned]
      rw [lockPair, if_pos stillOwned]
      exact (List.getElem?_append_left (List.getElem?_eq_some_iff.mp lockEq).1).trans lockEq
  · simp at lockEq

omit [CircularBuffer Wheel] in
theorem stored_pairOf_new (cache : SqlCache Wheel Db) (msg : Bytes) (result : Bytes × Db)
    (list : Wheel Bucket) :
    (cache.stored true msg result list).pairOf cache.stmts.length =
      some (msg, result.1) := by
  simp [pairOf, stored, lockPair]

/-- As line 74 is written, a miss asks the database and then throws. -/
theorem run_miss_asWritten (cache : SqlCache Wheel Db) (process : Process Db)
    (msg : Bytes) :
    ∃ after, (miss .asWritten process msg).run cache = .error .badAnyCast after :=
  ⟨_, rfl⟩

omit [CircularBuffer Wheel] in
theorem run_expire {cache : SqlCache Wheel Db} {stmt : StmtId} {sql : Bytes × Bytes}
    (pairEq : cache.pairOf stmt = some sql) :
    (expire stmt).run cache =
      .ok () { cache with sqlchecklist_ := cache.sqlchecklist_.erase sql.1 } := by
  obtain ⟨sqlstmt, stmtEq, lockEq⟩ := pairOf_eq_some.mp pairEq
  simp [expire, stmtEq, lockEq, deref]

/-- Some statement of the bucket belongs to this text. -/
def Expires (cache : SqlCache Wheel Db) (bucket : Bucket) (msg : Bytes) : Prop :=
  ∃ stmt ∈ bucket, ∃ reply, cache.pairOf stmt = some (msg, reply)

omit [CircularBuffer Wheel] in
/-- The loop of `onTimer` erases the texts of the bucket's statements and leaves
the other entries alone. -/
theorem run_forM_expire {cache : SqlCache Wheel Db} {bucket : Bucket}
    (live : ∀ stmt ∈ bucket, ∃ sql, cache.pairOf stmt = some sql) :
    ∃ index,
      (forM bucket expire : CacheM Wheel Db PUnit).run cache =
          .ok () { cache with sqlchecklist_ := index } ∧
        (∀ msg, cache.Expires bucket msg → index.lookup msg = none) ∧
          ∀ msg, ¬cache.Expires bucket msg →
            index.lookup msg = cache.sqlchecklist_.lookup msg := by
  induction bucket generalizing cache with
  | nil =>
      refine ⟨cache.sqlchecklist_, rfl, ?_, fun _ _ => rfl⟩
      rintro msg ⟨stmt, member, -⟩
      simp at member
  | cons stmt bucket ih =>
      obtain ⟨⟨text, reply⟩, pairEq⟩ := live stmt (by simp)
      have liveRest : ∀ other ∈ bucket, ∃ sql,
          SqlCache.pairOf
            { cache with sqlchecklist_ := cache.sqlchecklist_.erase text } other =
              some sql :=
        fun other member => live other (by simp [member])
      obtain ⟨index, runRest, gone, kept⟩ := ih liveRest
      refine ⟨index, ?_, ?_, ?_⟩
      · simp [List.forM_cons, run_expire pairEq, runRest]
      · rintro msg ⟨other, member, otherReply, otherPair⟩
        by_cases later : cache.Expires bucket msg
        · exact gone msg later
        · rcases List.mem_cons.mp member with rfl | inRest
          · have textEq : text = msg :=
              congrArg Prod.fst (Option.some.inj (pairEq.symm.trans otherPair))
            rw [kept msg later, ← textEq, AList.lookup_erase]
          · exact absurd ⟨other, inRest, otherReply, otherPair⟩ later
      · intro msg notExpired
        have differs : msg ≠ text := by
          rintro rfl
          exact notExpired ⟨stmt, by simp, reply, pairEq⟩
        have notLater : ¬cache.Expires bucket msg := by
          rintro ⟨other, member, rest⟩
          exact notExpired ⟨other, by simp [member], rest⟩
        rw [kept msg notLater, AList.lookup_erase_ne differs]

/-- A tick erases the texts of the oldest bucket, drops the bucket and adds an
empty one. -/
theorem run_onTimer {cache : SqlCache Wheel Db} (full : Full cache.sqlstmtlist_)
    {oldest : Bucket} {rest : List Bucket}
    (elementsEq : elements cache.sqlstmtlist_ = oldest :: rest)
    (live : ∀ stmt ∈ oldest, ∃ sql, cache.pairOf stmt = some sql) :
    ∃ index list,
      onTimer.run cache =
          .ok () { cache with sqlchecklist_ := index, sqlstmtlist_ := list } ∧
        elements list = rest ++ [[]] ∧ Full list ∧
          capacity list = capacity cache.sqlstmtlist_ ∧
            (∀ msg, cache.Expires oldest msg → index.lookup msg = none) ∧
              ∀ msg, ¬cache.Expires oldest msg →
                index.lookup msg = cache.sqlchecklist_.lookup msg := by
  obtain ⟨index, looped, gone, kept⟩ := run_forM_expire live
  refine ⟨index, pushBack cache.sqlstmtlist_ [], ?_, full.elements_pushBack elementsEq [],
    full.pushBack [], capacity_pushBack _ _, gone, kept⟩
  have frontEq : front cache.sqlstmtlist_ full.ne_nil = oldest := by
    rw [front_eq]
    simp [elementsEq]
  simp [onTimer, full.ne_nil, frontEq, looped]

/-! ## Before the first reply is stored -/

/-- Nothing has been stored: the index and all buckets are empty. -/
structure Untouched (cache : SqlCache Wheel Db) : Prop where
  full : Full cache.sqlstmtlist_
  noEntries : ∀ msg, cache.sqlchecklist_.lookup msg = none
  noStmts : ∀ bucket ∈ elements cache.sqlstmtlist_, bucket = []

theorem new_untouched {idleSeconds : Nat} (positive : 1 ≤ idleSeconds) (db : Db) :
    (new Wheel idleSeconds db).Untouched := by
  refine ⟨filled_full positive _, ?_, ?_⟩
  · intro msg
    simp [new]
  · intro bucket member
    rw [new, elements_filled] at member
    exact List.eq_of_mem_replicate member

theorem Untouched.onTimer {cache : SqlCache Wheel Db} (untouched : cache.Untouched) :
    ∃ after, SqlCache.onTimer.run cache = .ok () after ∧ after.Untouched ∧
      after.pairOwners = cache.pairOwners := by
  obtain ⟨oldest, rest, elementsEq, -⟩ := untouched.full.exists_front
  have oldestEmpty : oldest = [] := untouched.noStmts oldest (by simp [elementsEq])
  have live : ∀ stmt ∈ oldest, ∃ sql, cache.pairOf stmt = some sql := by
    simp [oldestEmpty]
  obtain ⟨index, list, ran, listEq, listFull, -, -, kept⟩ :=
    run_onTimer untouched.full elementsEq live
  refine ⟨_, ran, ⟨listFull, ?_, ?_⟩, rfl⟩
  · intro msg
    have notExpired : ¬cache.Expires oldest msg := by
      rintro ⟨stmt, member, -⟩
      simp [oldestEmpty] at member
    exact (kept msg notExpired).trans (untouched.noEntries msg)
  · intro bucket member
    have inRest : bucket ∈ rest ++ [[]] := listEq ▸ member
    rcases List.mem_append.mp inRest with older | last
    · exact untouched.noStmts bucket (by simp [elementsEq, older])
    · exact List.mem_singleton.mp last

end SqlCache

end TcpMysql
