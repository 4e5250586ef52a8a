import TcpMysql.SqlCacheMemo
import TcpMysql.TimeWheel

/-!
# When a statement leaves the cache

Seen from one text, the buckets are a wheel of marks: a bucket is marked when it
holds a statement for the text.  A tick turns this wheel and erases the text when
the mark at the front says so; a hit marks the newest bucket and leaves the older
marks where they are.  So a hit prolongs the life of a text only when no older
bucket is marked, while a text that is not used is gone after a whole turn.
-/

namespace TcpMysql

namespace SqlCache

open CircularBuffer

variable {Wheel : Type → Type} [CircularBuffer Wheel] {Db : Type}

def CacheEvent.isTimer : CacheEvent → Bool
  | .message _ => false
  | .timer => true

/-- How often `onTimer` is called. -/
def ticks (events : List CacheEvent) : Nat :=
  events.countP CacheEvent.isTimer

theorem ticks_append_timer (events : List CacheEvent) :
    ticks (events ++ [.timer]) = ticks events + 1 := by
  simp [ticks, CacheEvent.isTimer]

theorem ticks_append_message (events : List CacheEvent) (msg : Bytes) :
    ticks (events ++ [.message msg]) = ticks events := by
  simp [ticks, CacheEvent.isTimer]

/-- For every bucket, whether it holds a statement for the text. -/
def marks (cache : SqlCache Wheel Db) (msg : Bytes) : List Prop :=
  (elements cache.sqlstmtlist_).map (cache.Expires · msg)

omit [CircularBuffer Wheel] in
theorem contains_iff {cache : SqlCache Wheel Db} {msg : Bytes} :
    cache.contains msg = true ↔ ∃ weak, cache.sqlchecklist_.lookup msg = some weak :=
  Option.isSome_iff_exists

theorem marks_of_items {cache : SqlCache Wheel Db} {older : List Bucket} {newest : Bucket}
    (elementsEq : elements cache.sqlstmtlist_ = older ++ [newest]) (msg : Bytes) :
    cache.marks msg =
      older.map (cache.Expires · msg) ++ [cache.Expires newest msg] := by
  simp [marks, elementsEq]

theorem Good.marks_length {idleSeconds : Nat} {cache : SqlCache Wheel Db}
    (good : cache.Good idleSeconds) (msg : Bytes) :
    (cache.marks msg).length = idleSeconds := by
  rw [marks, List.length_map, good.full.length_eq, good.capacity_eq]

/-! ## One call -/

omit [CircularBuffer Wheel] in
theorem expires_insert {cache : SqlCache Wheel Db} {weak : StmtId} {text reply : Bytes}
    (pairEq : cache.pairOf weak = some (text, reply)) (bucket : Bucket) (msg : Bytes) :
    cache.Expires (bucket.insert weak) msg ↔ cache.Expires bucket msg ∨ text = msg := by
  constructor
  · rintro ⟨stmt, member, found, stmtPair⟩
    rcases List.mem_insert_iff.mp member with rfl | earlier
    · right
      exact congrArg Prod.fst (Option.some.inj (pairEq.symm.trans stmtPair))
    · exact .inl ⟨stmt, earlier, found, stmtPair⟩
  · rintro (⟨stmt, member, rest⟩ | rfl)
    · exact ⟨stmt, List.mem_insert_of_mem member, rest⟩
    · exact ⟨weak, List.mem_insert_self, reply, pairEq⟩

/-- A tick turns the wheel of marks, and the text stays when it was there and the
oldest bucket was not marked. -/
theorem Good.timer_step {idleSeconds : Nat} {cache after : SqlCache Wheel Db}
    (good : cache.Good idleSeconds)
    (stepTo : okState (SqlCache.onTimer.run cache) = some after) :
    after.Good idleSeconds ∧
      ∀ msg, ∃ oldest rest, cache.marks msg = oldest :: rest ∧
        after.marks msg = rest ++ [False] ∧
          (after.contains msg = true ↔ cache.contains msg = true ∧ ¬oldest) := by
  obtain ⟨oldest, rest, index, list, rfl, elementsEq, listEq, lookupEq, afterGood⟩ :=
    good.after_timer stepTo
  refine ⟨afterGood, ?_⟩
  intro msg
  refine ⟨cache.Expires oldest msg, rest.map (cache.Expires · msg), ?_, ?_, ?_⟩
  · simp [marks, elementsEq]
  · have nothing : ¬cache.Expires [] msg := by
      rintro ⟨stmt, member, -⟩
      simp at member
    refine (marks_of_items listEq msg).trans ?_
    exact congrArg (_ ++ [·]) (eq_false nothing)
  · rw [contains_iff, contains_iff]
    constructor
    · rintro ⟨weak, found⟩
      obtain ⟨before, notExpired⟩ := (lookupEq msg weak).mp found
      exact ⟨⟨weak, before⟩, notExpired⟩
    · rintro ⟨⟨weak, before⟩, notExpired⟩
      exact ⟨weak, (lookupEq msg weak).mpr ⟨before, notExpired⟩⟩

/-- A hit marks the newest bucket for its own text and leaves the index alone. -/
theorem Good.hit_step {idleSeconds : Nat} {cache after : SqlCache Wheel Db}
    (good : cache.Good idleSeconds) {reading : Reading} {process : Process Db}
    {text : Bytes} (isHit : cache.contains text = true)
    (stepTo : (system reading process).next cache (.message text) = some after) :
    after.Good idleSeconds ∧ after.sqlchecklist_ = cache.sqlchecklist_ ∧
      ∀ msg, ∃ older newest, cache.marks msg = older ++ [newest] ∧
        after.marks msg = older ++ [newest ∨ text = msg] := by
  obtain ⟨weak, found⟩ := contains_iff.mp isHit
  obtain ⟨reply, list, rfl, inserted, pairEq⟩ := good.after_hit found stepTo
  refine ⟨good.of_inserted inserted pairEq, rfl, ?_⟩
  intro msg
  obtain ⟨older, newest, beforeEq, afterEq⟩ := inserted.buckets
  refine ⟨older.map (cache.Expires · msg), cache.Expires newest msg,
    marks_of_items beforeEq msg, ?_⟩
  refine (marks_of_items afterEq msg).trans ?_
  exact congrArg (_ ++ [·]) (propext (expires_insert pairEq newest msg))

theorem Good.expires_stored {idleSeconds : Nat} {cache : SqlCache Wheel Db}
    (good : cache.Good idleSeconds) {bucket : Bucket}
    (member : bucket ∈ elements cache.sqlstmtlist_) (text : Bytes)
    (result : Bytes × Db) (list : Wheel Bucket) (msg : Bytes) :
    (cache.stored true text result list).Expires bucket msg ↔
      cache.Expires bucket msg := by
  constructor
  · rintro ⟨stmt, inBucket, reply, pairEq⟩
    obtain ⟨sql, oldPair⟩ := good.live stmt ⟨bucket, member, inBucket⟩
    have same := (stored_pairOf oldPair true text result list).symm.trans pairEq
    exact ⟨stmt, inBucket, reply, oldPair.trans same⟩
  · rintro ⟨stmt, inBucket, reply, pairEq⟩
    exact ⟨stmt, inBucket, reply, stored_pairOf pairEq true text result list⟩

/-- A miss leaves the marks of the other texts alone. -/
theorem Good.miss_step {idleSeconds : Nat} {cache after : SqlCache Wheel Db}
    (good : cache.Good idleSeconds) {process : Process Db} {text : Bytes}
    (isMiss : cache.contains text = false)
    (stepTo : (system (.freshStmt true) process).next cache (.message text) =
      some after) :
    after.Good idleSeconds ∧
      ∀ msg, text ≠ msg → after.marks msg = cache.marks msg := by
  have absent : cache.sqlchecklist_.lookup text = none := by
    simpa [contains] using isMiss
  obtain ⟨list, rfl, inserted⟩ := good.after_miss absent stepTo
  refine ⟨good.stored inserted text _, ?_⟩
  intro msg differs
  obtain ⟨older, newest, beforeEq, afterEq⟩ := inserted.buckets
  have newPair :=
    cache.stored_pairOf_new text (process cache.mysqlserver_ (cStr text)) list
  have storedEq : elements (cache.stored true text
      (process cache.mysqlserver_ (cStr text)) list).sqlstmtlist_ =
        older ++ [newest.insert cache.stmts.length] := afterEq
  rw [marks_of_items beforeEq, marks_of_items storedEq]
  congr 1
  · apply List.map_congr_left
    intro bucket member
    exact propext (good.expires_stored (by simp [beforeEq, member]) text _ list msg)
  · refine congrArg ([·]) (propext ?_)
    refine (expires_insert newPair newest msg).trans ?_
    rw [good.expires_stored (by simp [beforeEq])]
    simp [differs]

/-! ## A text that is not used -/

theorem Good.unused_step {idleSeconds : Nat} {cache after : SqlCache Wheel Db}
    (good : cache.Good idleSeconds) {process : Process Db} {text msg : Bytes}
    (differs : text ≠ msg)
    (stepTo : (system (.freshStmt true) process).next cache (.message text) =
      some after) :
    after.Good idleSeconds ∧ after.marks msg = cache.marks msg := by
  cases isHit : cache.contains text with
  | true =>
      obtain ⟨afterGood, -, marked⟩ := good.hit_step isHit stepTo
      obtain ⟨older, newest, beforeEq, afterEq⟩ := marked msg
      refine ⟨afterGood, ?_⟩
      rw [beforeEq, afterEq]
      simp [differs]
  | false =>
      obtain ⟨afterGood, sameMarks⟩ := good.miss_step isHit stepTo
      exact ⟨afterGood, sameMarks msg differs⟩

/-- While a text is not used, its marks only move towards the front. -/
theorem unused_turned {idleSeconds : Nat} {initial final : SqlCache Wheel Db}
    (good : initial.Good idleSeconds) {process : Process Db} {msg : Bytes}
    {events : List CacheEvent}
    (run : (system (.freshStmt true) process).Reaches initial events final)
    (unused : .message msg ∉ events) :
    final.Good idleSeconds ∧
      TimeWheel.Turned False (fun _ _ => False) (initial.marks msg) (ticks events)
        (final.marks msg) := by
  revert unused
  apply run.invariant fun events cache => .message msg ∉ events →
    cache.Good idleSeconds ∧
      TimeWheel.Turned False (fun _ _ => False) (initial.marks msg) (ticks events)
        (cache.marks msg)
  · intro _
    exact ⟨good, .start⟩
  · intro events before event after _ holds _ stepTo unused
    obtain ⟨beforeGood, turned⟩ := holds fun member => unused (by simp [member])
    cases event with
    | message text =>
        have differs : text ≠ msg := by
          rintro rfl
          simp at unused
        obtain ⟨afterGood, sameMarks⟩ := beforeGood.unused_step differs stepTo
        rw [ticks_append_message, sameMarks]
        exact ⟨afterGood, turned⟩
    | timer =>
        obtain ⟨afterGood, turns⟩ := beforeGood.timer_step stepTo
        obtain ⟨oldest, rest, beforeEq, afterEq, -⟩ := turns msg
        rw [beforeEq] at turned
        rw [ticks_append_timer, afterEq]
        exact ⟨afterGood, turned.turn⟩

theorem Good.not_contains_of_unmarked {idleSeconds : Nat} {cache : SqlCache Wheel Db}
    (good : cache.Good idleSeconds) {msg : Bytes}
    (unmarked : ∀ bucket ∈ elements cache.sqlstmtlist_, ¬cache.Expires bucket msg) :
    cache.contains msg = false := by
  rw [Bool.eq_false_iff]
  intro contained
  obtain ⟨weak, found⟩ := contains_iff.mp contained
  obtain ⟨⟨bucket, member, inBucket⟩, reply, pairEq⟩ := good.keyed msg weak found
  exact unmarked bucket member ⟨weak, inBucket, reply, pairEq⟩

/-- After `idleSeconds` ticks without a message for it, a text is neither in the
index nor in a bucket.  No call fails, and the number of buckets is constant. -/
theorem unused_text_expires {idleSeconds : Nat} (process : Process Db)
    {initial final : SqlCache Wheel Db} (good : initial.Good idleSeconds) {msg : Bytes}
    {events : List CacheEvent}
    (run : (system (.freshStmt true) process).Reaches initial events final)
    (unused : .message msg ∉ events) :
    (elements final.sqlstmtlist_).length = idleSeconds ∧
      (idleSeconds ≤ ticks events →
        final.sqlchecklist_.lookup msg = none ∧
          ∀ bucket ∈ elements final.sqlstmtlist_, ∀ stmt ∈ bucket, ∀ reply,
            final.pairOf stmt ≠ some (msg, reply)) ∧
        ∀ event, ∃ after,
          (system (.freshStmt true) process).next final event = some after := by
  obtain ⟨finalGood, turned⟩ := unused_turned good run unused
  refine ⟨finalGood.full.length_eq.trans finalGood.capacity_eq, ?_,
    finalGood.step_returns process⟩
  intro enough
  have allUnmarked : ∀ mark ∈ final.marks msg, ¬mark := by
    apply turned.all_added not_false
    · rintro _ _ ⟨⟩
    · rw [good.marks_length]
      exact enough
  have unmarked : ∀ bucket ∈ elements final.sqlstmtlist_, ¬final.Expires bucket msg := by
    intro bucket member
    exact allUnmarked _ (List.mem_map_of_mem member)
  constructor
  · have absent := finalGood.not_contains_of_unmarked unmarked
    simpa [contains] using absent
  · intro bucket member stmt inBucket reply pairEq
    exact unmarked bucket member ⟨stmt, inBucket, reply, pairEq⟩

/-- The cache of two buckets after the first message. -/
def oneReply : SqlCache BoundedList Nat where
  pairs := [([97], [0])]
  pairOwners := [0]
  stmts := [⟨0⟩]
  sqlstmtlist_ := ⟨2, [[], [0]], by decide⟩
  sqlchecklist_ := (∅ : AList fun _ : Bytes => StmtId).insert [97] 0
  mysqlserver_ := 1
  processed := [[97]]
  misses := [([97], [0])]

theorem oneReply_good : oneReply.Good 2 := by
  have run : (system (.freshStmt true) numbering).Reaches (new BoundedList 2 0)
      ([] ++ [.message [97]]) oneReply := .step .start trivial rfl
  exact (remembers_of_reaches (by decide) run).toGood

/-- Two ticks erase the first text, although another one is used between them. -/
theorem unused_text_expires_two_ticks :
    oneReply.contains [97] = true ∧
      ∃ final,
        (system (.freshStmt true) numbering).Reaches oneReply
            [.timer, .message [98], .timer] final ∧
          final.sqlchecklist_.lookup [97] = none := by
  obtain ⟨final, run, -⟩ := EventSystem.exists_reaches_of_play
    (system (.freshStmt true) numbering) oneReply [.timer, .message [98], .timer]
    (fun _ => True) (by decide +kernel)
  have unused : CacheEvent.message [97] ∉
      [CacheEvent.timer, .message [98], .timer] := by simp
  obtain ⟨-, expires, -⟩ := unused_text_expires numbering oneReply_good run unused
  exact ⟨by decide +kernel, final, run, (expires (by decide)).1⟩

/-! ## A text that is hit -/

/-- The cache under hits and ticks. -/
def hitsAndTicks (reading : Reading) (process : Process Db) :
    EventSystem (SqlCache Wheel Db) CacheEvent where
  next := (system reading process).next
  offered cache event :=
    match event with
    | .message msg => cache.contains msg = true
    | .timer => True

instance (reading : Reading) (process : Process Db) (cache : SqlCache Wheel Db)
    (event : CacheEvent) :
    Decidable ((hitsAndTicks reading process).offered cache event) :=
  match event with
  | .message msg => inferInstanceAs (Decidable (cache.contains msg = true))
  | .timer => inferInstanceAs (Decidable True)

theorem Good.hitsAndTicks_returns {idleSeconds : Nat} {cache : SqlCache Wheel Db}
    (good : cache.Good idleSeconds) (reading : Reading) (process : Process Db)
    {event : CacheEvent} (offered : (hitsAndTicks reading process).offered cache event) :
    ∃ after, (hitsAndTicks reading process).next cache event = some after := by
  cases event with
  | message msg =>
      obtain ⟨weak, found⟩ := contains_iff.mp offered
      obtain ⟨reply, list, ran, -⟩ := good.answer_hit reading process found
      exact ⟨_, okState_eq_some.mpr ⟨reply, ran⟩⟩
  | timer =>
      obtain ⟨_, _, index, list, ran, -⟩ := good.onTimer
      exact ⟨_, okState_eq_some.mpr ⟨(), ran⟩⟩

theorem Good.hitsAndTicks_step {idleSeconds : Nat} {cache after : SqlCache Wheel Db}
    (good : cache.Good idleSeconds) {reading : Reading} {process : Process Db}
    {event : CacheEvent} (offered : (hitsAndTicks reading process).offered cache event)
    (stepTo : (hitsAndTicks reading process).next cache event = some after) :
    after.Good idleSeconds := by
  cases event with
  | message msg => exact (good.hit_step offered stepTo).1
  | timer => exact (good.timer_step stepTo).1

theorem Good.of_hitsAndTicks {idleSeconds : Nat} {initial final : SqlCache Wheel Db}
    (good : initial.Good idleSeconds) {reading : Reading} {process : Process Db}
    {events : List CacheEvent}
    (run : (hitsAndTicks reading process).Reaches initial events final) :
    final.Good idleSeconds := by
  apply run.invariant fun _ cache => cache.Good idleSeconds
  · exact good
  · intro _ before event after _ beforeGood offered stepTo
    exact beforeGood.hitsAndTicks_step offered stepTo

/-- None of the first buckets is marked for the text. -/
def UnmarkedBefore (cache : SqlCache Wheel Db) (msg : Bytes) (count : Nat) : Prop :=
  ∀ mark ∈ (cache.marks msg).take count, ¬mark

theorem unmarkedBefore_succ {cache : SqlCache Wheel Db} {msg : Bytes} {count : Nat}
    {mark : Prop} (markAt : (cache.marks msg)[count]? = some mark) :
    cache.UnmarkedBefore msg (count + 1) ↔ cache.UnmarkedBefore msg count ∧ ¬mark := by
  unfold UnmarkedBefore
  rw [List.take_add_one, markAt]
  simp only [Option.toList_some, List.mem_append, List.mem_singleton, or_imp,
    forall_and, forall_eq]

theorem Good.unmarkedBefore_last {idleSeconds : Nat} {cache : SqlCache Wheel Db}
    (good : cache.Good idleSeconds) (msg : Bytes) :
    cache.UnmarkedBefore msg (idleSeconds - 1) ↔
      ∀ bucket ∈ (elements cache.sqlstmtlist_).dropLast, ¬cache.Expires bucket msg := by
  have lengthEq := good.full.length_eq.trans good.capacity_eq
  unfold UnmarkedBefore marks
  rw [List.dropLast_eq_take, lengthEq, ← List.map_take, List.forall_mem_map]

/-- During the turn of the wheel, a text stays until the first bucket marked for
it reaches the front. -/
theorem Good.contains_iff_unmarked {idleSeconds : Nat} {initial final : SqlCache Wheel Db}
    (good : initial.Good idleSeconds) {reading : Reading} {process : Process Db}
    {msg : Bytes} {events : List CacheEvent}
    (run : (hitsAndTicks reading process).Reaches initial events final) :
    TimeWheel.Turned False (fun _ _ => True) (initial.marks msg) (ticks events)
        (final.marks msg) ∧
      (ticks events < idleSeconds →
        (final.contains msg = true ↔
          initial.contains msg = true ∧ initial.UnmarkedBefore msg (ticks events))) := by
  apply run.invariant fun events cache =>
    TimeWheel.Turned False (fun _ _ => True) (initial.marks msg) (ticks events)
        (cache.marks msg) ∧
      (ticks events < idleSeconds →
        (cache.contains msg = true ↔
          initial.contains msg = true ∧ initial.UnmarkedBefore msg (ticks events)))
  · refine ⟨.start, fun _ => ?_⟩
    simp [UnmarkedBefore, ticks]
  · rintro events before event after reached ⟨turned, present⟩ offered stepTo
    have beforeGood := good.of_hitsAndTicks reached
    cases event with
    | message text =>
        obtain ⟨-, sameIndex, marked⟩ := beforeGood.hit_step offered stepTo
        obtain ⟨older, newest, beforeEq, afterEq⟩ := marked msg
        rw [beforeEq] at turned
        rw [ticks_append_message, afterEq, contains, sameIndex]
        exact ⟨turned.touch trivial, present⟩
    | timer =>
        obtain ⟨-, turns⟩ := beforeGood.timer_step stepTo
        obtain ⟨oldest, rest, beforeEq, afterEq, afterPresent⟩ := turns msg
        rw [beforeEq] at turned
        rw [ticks_append_timer, afterEq]
        refine ⟨turned.turn, fun inside => ?_⟩
        have front : (initial.marks msg)[ticks events]? = some oldest := by
          have older : ticks events + 0 + 1 < (initial.marks msg).length := by
            rw [good.marks_length]
            exact inside
          simpa using (turned.getElem?_older 0 older).symm
        rw [afterPresent, present (by omega), unmarkedBefore_succ front, and_assoc]

/-- A hit marks only the newest bucket. -/
theorem Good.unmarkedBefore_hit {idleSeconds : Nat} {cache after : SqlCache Wheel Db}
    (good : cache.Good idleSeconds) {reading : Reading} {process : Process Db}
    {text : Bytes} (isHit : cache.contains text = true)
    (stepTo : (system reading process).next cache (.message text) = some after)
    (msg : Bytes) {count : Nat} (older : count ≤ idleSeconds - 1) :
    after.UnmarkedBefore msg count ↔ cache.UnmarkedBefore msg count := by
  obtain ⟨-, -, marked⟩ := good.hit_step isHit stepTo
  obtain ⟨olderMarks, newest, beforeEq, afterEq⟩ := marked msg
  have lengthEq := good.marks_length msg
  rw [beforeEq, List.length_append, List.length_singleton] at lengthEq
  have inside : count ≤ olderMarks.length := by omega
  unfold UnmarkedBefore
  rw [beforeEq, afterEq, List.take_append_of_le_length inside,
    List.take_append_of_le_length inside]

theorem UnmarkedBefore.mono {cache : SqlCache Wheel Db} {msg : Bytes} {fewer count : Nat}
    (unmarked : cache.UnmarkedBefore msg count) (atMost : fewer ≤ count) :
    cache.UnmarkedBefore msg fewer := by
  intro mark member
  exact unmarked mark ((List.take_prefix_take_left atMost).subset member)

theorem Good.exists_ticks {idleSeconds : Nat} {cache : SqlCache Wheel Db}
    (good : cache.Good idleSeconds) (reading : Reading) (process : Process Db)
    (count : Nat) :
    ∃ events final, (hitsAndTicks reading process).Reaches cache events final ∧
      ticks events = count := by
  induction count with
  | zero => exact ⟨[], cache, .start, rfl⟩
  | succ count ih =>
      obtain ⟨events, middle, run, ticksEq⟩ := ih
      have middleGood := good.of_hitsAndTicks run
      have offered : (hitsAndTicks reading process).offered middle .timer := trivial
      obtain ⟨final, stepTo⟩ := middleGood.hitsAndTicks_returns reading process offered
      refine ⟨events ++ [.timer], final, run.step offered stepTo, ?_⟩
      rw [ticks_append_timer, ticksEq]

/-- A hit keeps its text for the next `idleSeconds - 1` ticks exactly when only
the newest bucket holds a statement for the text.  No hit and no tick fails. -/
theorem hit_keeps_text_iff {idleSeconds : Nat} (reading : Reading)
    (process : Process Db) {initial before : SqlCache Wheel Db}
    (good : initial.Good idleSeconds) {earlier : List CacheEvent}
    (run : (hitsAndTicks reading process).Reaches initial earlier before)
    {msg : Bytes} (isHit : before.contains msg = true) :
    ∃ after,
      (hitsAndTicks reading process).next before (.message msg) = some after ∧
        (∀ later final event,
          (hitsAndTicks reading process).Reaches after later final →
            (hitsAndTicks reading process).offered final event →
              ∃ next, (hitsAndTicks reading process).next final event = some next) ∧
          ((∀ later final,
            (hitsAndTicks reading process).Reaches after later final →
              ticks later ≤ idleSeconds - 1 → final.contains msg = true) ↔
            ∀ bucket ∈ (elements before.sqlstmtlist_).dropLast,
              ¬before.Expires bucket msg) := by
  have beforeGood := good.of_hitsAndTicks run
  have offered : (hitsAndTicks reading process).offered before (.message msg) := isHit
  obtain ⟨after, stepTo⟩ := beforeGood.hitsAndTicks_returns reading process offered
  have afterGood := beforeGood.hitsAndTicks_step offered stepTo
  have returns : ∀ later final event,
      (hitsAndTicks reading process).Reaches after later final →
        (hitsAndTicks reading process).offered final event →
          ∃ next, (hitsAndTicks reading process).next final event = some next := by
    intro later final event continued eventOffered
    have finalGood := afterGood.of_hitsAndTicks continued
    exact finalGood.hitsAndTicks_returns reading process eventOffered
  refine ⟨after, stepTo, returns, ?_⟩
  have positive : 0 < idleSeconds := good.capacity_eq ▸ good.full.positive
  have afterContains : after.contains msg = true := by
    rw [contains, (beforeGood.hit_step isHit stepTo).2.1]
    exact isHit
  rw [← beforeGood.unmarkedBefore_last msg]
  constructor
  · intro kept
    obtain ⟨later, final, continued, ticksEq⟩ :=
      afterGood.exists_ticks reading process (idleSeconds - 1)
    have present := kept later final continued (by omega)
    have unmarked :=
      ((afterGood.contains_iff_unmarked continued).2 (by omega)).mp present
    rw [ticksEq] at unmarked
    exact (beforeGood.unmarkedBefore_hit isHit stepTo msg (by omega)).mp unmarked.2
  · intro unmarked later final continued few
    apply ((afterGood.contains_iff_unmarked continued).2 (by omega)).mpr
    refine ⟨afterContains, ?_⟩
    apply (beforeGood.unmarkedBefore_hit isHit stepTo msg few).mpr
    exact unmarked.mono few

/-- A text hit while only the newest bucket holds it stays for one more tick. -/
theorem hit_keeps_text_newest_bucket :
    oneReply.contains [97] = true ∧
      ∃ final,
        (hitsAndTicks .asWritten numbering).Reaches oneReply
            [.message [97], .timer] final ∧
          final.contains [97] = true := by
  have isHit : oneReply.contains [97] = true := by decide +kernel
  obtain ⟨after, stepTo, returns, kept⟩ :=
    hit_keeps_text_iff .asWritten numbering oneReply_good .start isHit
  obtain ⟨final, ticked⟩ := returns [] after .timer .start trivial
  have noOlder : ∀ bucket ∈ (elements oneReply.sqlstmtlist_).dropLast,
      ¬oneReply.Expires bucket [97] := by
    intro bucket member
    have empty : bucket = [] := List.mem_singleton.mp member
    rintro ⟨stmt, inBucket, -⟩
    simp [empty] at inBucket
  have continued : (hitsAndTicks .asWritten numbering).Reaches after
      ([] ++ [.timer]) final := .step .start trivial ticked
  have whole : (hitsAndTicks .asWritten numbering).Reaches oneReply
      ([] ++ [.message [97]] ++ [.timer]) final :=
    .step (.step .start isHit stepTo) trivial ticked
  exact ⟨isHit, final, whole, kept.mpr noOlder _ final continued (by decide)⟩

/-- With two buckets, a text that is hit after a tick is lost at the next one: the
older bucket that holds its statement takes it along. -/
theorem hit_text_lost_next_tick :
    oneReply.Good 2 ∧
      ∃ final,
        (hitsAndTicks .asWritten numbering).Reaches oneReply
            [.timer, .message [97], .timer] final ∧
          final.contains [97] = false := by
  refine ⟨oneReply_good, ?_⟩
  exact EventSystem.exists_reaches_of_play (hitsAndTicks .asWritten numbering)
    oneReply [.timer, .message [97], .timer]
    (fun cache => cache.contains [97] = false) (by decide +kernel)

end SqlCache

end TcpMysql
