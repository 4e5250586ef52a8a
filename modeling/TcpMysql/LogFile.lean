import Mathlib.Algebra.Group.Int.Defs
import TcpMysql.Buffer
import TcpMysql.Fallible

/-!
# Log files that roll

`LogFile` appends to a file and starts a new one when the file has become too long or a
new day has begun.  The name of a file has the second in which it was created, and a file
is only rolled when the clock has passed the second of the last roll.  The clock may be
changed while the program runs, and the file system may accept less than it is given.
-/

namespace TcpMysql

def kRollPerSeconds_ : Int := 60 * 60 * 24

/-- A file, with the time in its name and the bytes that the stream has accepted.
`writtenBytes_` counts what was given to it. -/
structure AppendFile where
  created : Int
  content : Bytes
  writtenBytes_ : Nat
  deriving DecidableEq, Repr

namespace AppendFile

/-- The loop of `append`: how many more bytes are accepted, when `fwrite_unlocked`
accepts the given numbers of bytes one call after the other, and then none. -/
def writeRemaining : List Nat → Nat → Nat
  | [], _ => 0
  | accepts :: later, remain =>
      if remain = 0 then 0
      else if min accepts remain = 0 then 0
      else min accepts remain + writeRemaining later (remain - min accepts remain)

/-- How many bytes of a text of a given length are accepted. -/
def writeAll (writes : List Nat) (len : Nat) : Nat :=
  let n := min (writes.headD 0) len
  n + writeRemaining writes.tail (len - n)

def append (file : AppendFile) (logline : Bytes) (writes : List Nat) : AppendFile :=
  { file with
    content := file.content ++ logline.take (writeAll writes logline.length)
    writtenBytes_ := file.writtenBytes_ + logline.length }

/-- A stream that accepts something at every call accepts everything. -/
theorem writeRemaining_eq {writes : List Nat} {remain : Nat} (enough : remain ≤ writes.length)
    (accepting : ∀ accepts ∈ writes, 0 < accepts) : writeRemaining writes remain = remain := by
  induction writes generalizing remain with
  | nil =>
      have nothing : remain = 0 := by simpa using enough
      rw [nothing]
      rfl
  | cons accepts later ih =>
      have positive := accepting accepts List.mem_cons_self
      have shorter : remain - min accepts remain ≤ later.length := by
        rw [List.length_cons] at enough
        omega
      have rest := ih shorter fun other member => accepting other (List.mem_cons_of_mem _ member)
      unfold writeRemaining
      split
      · omega
      · rw [if_neg (by omega), rest]
        omega

theorem writeAll_eq {writes : List Nat} {len : Nat} (enough : len ≤ writes.length)
    (accepting : ∀ accepts ∈ writes, 0 < accepts) : writeAll writes len = len := by
  cases writes with
  | nil =>
      have nothing : len = 0 := by simpa using enough
      rw [nothing]
      rfl
  | cons accepts later =>
      have positive := accepting accepts List.mem_cons_self
      have shorter : len - min accepts len ≤ later.length := by
        rw [List.length_cons] at enough
        omega
      have rest := writeRemaining_eq shorter fun other member =>
        accepting other (List.mem_cons_of_mem _ member)
      simp only [writeAll, List.headD_cons, List.tail_cons]
      rw [rest]
      omega

end AppendFile

inductive LogFileFault
  | nullPointer
  deriving DecidableEq, Repr

/-- `closed` are the files that were open before. -/
structure LogFile where
  rollSize_ : Int
  flushInterval_ : Int
  checkEveryN_ : Int
  count_ : Int
  startOfPeriod_ : Int
  lastRoll_ : Int
  lastFlush_ : Int
  file_ : Option AppendFile
  closed : List AppendFile
  deriving DecidableEq, Repr

/-- A text to be appended, what the stream accepts of it, and what the clock shows in
`append_unlocked` and in `getLogFileName`. -/
structure LogAppend where
  logline : Bytes
  writes : List Nat
  now : Int
  nameNow : Int
  deriving DecidableEq, Repr

namespace LogFile

def rollFile (log : LogFile) (now : Int) : LogFile :=
  if log.lastRoll_ < now then
    { log with
      lastRoll_ := now
      lastFlush_ := now
      startOfPeriod_ := now.tdiv kRollPerSeconds_ * kRollPerSeconds_
      file_ := some ⟨now, [], 0⟩
      closed := log.closed ++ log.file_.toList }
  else
    log

def new (rollSize flushInterval checkEveryN now : Int) : LogFile :=
  rollFile
    { rollSize_ := rollSize
      flushInterval_ := flushInterval
      checkEveryN_ := checkEveryN
      count_ := 0
      startOfPeriod_ := 0
      lastRoll_ := 0
      lastFlush_ := 0
      file_ := none
      closed := [] } now

/-- What follows an append: the file is rolled, or flushed every few seconds. -/
def afterAppend (log : LogFile) (writtenBytes now nameNow : Int) : LogFile :=
  if log.rollSize_ < writtenBytes then
    log.rollFile nameNow
  else if log.count_ + 1 < log.checkEveryN_ then
    { log with count_ := log.count_ + 1 }
  else if now.tdiv kRollPerSeconds_ * kRollPerSeconds_ ≠ log.startOfPeriod_ then
    rollFile { log with count_ := 0 } nameNow
  else if log.flushInterval_ < now - log.lastFlush_ then
    { log with count_ := 0, lastFlush_ := now }
  else
    { log with count_ := 0 }

def append (log : LogFile) (item : LogAppend) : Except LogFileFault LogFile :=
  match log.file_ with
  | none => .error .nullPointer
  | some file =>
      let longer := file.append item.logline item.writes
      .ok (afterAppend { log with file_ := some longer } longer.writtenBytes_ item.now
        item.nameNow)

/-- All files, in the order in which they were created. -/
def files (log : LogFile) : List AppendFile :=
  log.closed ++ log.file_.toList

/-! ## What a roll keeps -/

/-- A file is open, and the names of the files are in the order of their creation. -/
structure Ordered (log : LogFile) : Prop where
  created : log.file_.map (·.created) = some log.lastRoll_
  older : ∀ file ∈ log.closed, file.created < log.lastRoll_
  pairwise : log.closed.Pairwise fun older newer => older.created < newer.created

/-- The same text in the files, and still in order. -/
structure Keeps (log after : LogFile) : Prop where
  ordered : after.Ordered
  content : after.files.flatMap (·.content) = log.files.flatMap (·.content)
  rollSize_ : after.rollSize_ = log.rollSize_

theorem Ordered.keeps_self {log : LogFile} (ordered : log.Ordered) : log.Keeps log :=
  ⟨ordered, rfl, rfl⟩

theorem Ordered.rollFile {log : LogFile} (ordered : log.Ordered) (now : Int) :
    log.Keeps (log.rollFile now) := by
  unfold LogFile.rollFile
  split
  · rename_i later
    obtain ⟨file, fileEq, createdEq⟩ := Option.map_eq_some_iff.mp ordered.created
    refine ⟨⟨rfl, ?_, ?_⟩, ?_, rfl⟩
    · intro old member
      rw [fileEq] at member
      rcases List.mem_append.mp member with older | last
      · exact Int.lt_trans (ordered.older old older) later
      · obtain rfl := List.mem_singleton.mp last
        rw [createdEq]
        exact later
    · rw [fileEq, Option.toList_some, List.pairwise_append]
      refine ⟨ordered.pairwise, List.pairwise_singleton _ _, ?_⟩
      intro old oldMember last lastMember
      obtain rfl := List.mem_singleton.mp lastMember
      rw [createdEq]
      exact ordered.older old oldMember
    · simp [files]
  · exact ordered.keeps_self

theorem Ordered.afterAppend {log : LogFile} (ordered : log.Ordered)
    (writtenBytes now nameNow : Int) :
    log.Keeps (log.afterAppend writtenBytes now nameNow) := by
  have counted : ∀ count lastFlush, Ordered { log with count_ := count, lastFlush_ := lastFlush } :=
    fun _ _ => ⟨ordered.created, ordered.older, ordered.pairwise⟩
  unfold LogFile.afterAppend
  split
  · exact ordered.rollFile nameNow
  · split
    · exact ⟨counted _ _, rfl, rfl⟩
    · split
      · have rolled := (counted 0 log.lastFlush_).rollFile nameNow
        exact ⟨rolled.ordered, rolled.content, rolled.rollSize_⟩
      · split <;> exact ⟨counted _ _, rfl, rfl⟩

/-- What the stream accepts of a text. -/
def accepted (item : LogAppend) : Bytes :=
  item.logline.take (AppendFile.writeAll item.writes item.logline.length)

theorem Ordered.append {log : LogFile} (ordered : log.Ordered) (item : LogAppend) :
    ∃ after, log.append item = .ok after ∧ after.Ordered ∧
      after.files.flatMap (·.content) = log.files.flatMap (·.content) ++ accepted item ∧
        after.rollSize_ = log.rollSize_ := by
  obtain ⟨file, fileEq, createdEq⟩ := Option.map_eq_some_iff.mp ordered.created
  have longer : Ordered { log with file_ := some (file.append item.logline item.writes) } :=
    ⟨congrArg some createdEq, ordered.older, ordered.pairwise⟩
  have kept := longer.afterAppend (file.append item.logline item.writes).writtenBytes_ item.now
    item.nameNow
  refine ⟨_, by rw [LogFile.append, fileEq], kept.ordered, ?_, kept.rollSize_⟩
  rw [kept.content]
  simp [files, fileEq, AppendFile.append, accepted]

theorem Ordered.files_pairwise {log : LogFile} (ordered : log.Ordered) :
    log.files.Pairwise fun older newer => older.created < newer.created := by
  obtain ⟨file, fileEq, createdEq⟩ := Option.map_eq_some_iff.mp ordered.created
  rw [files, fileEq, Option.toList_some, List.pairwise_append]
  refine ⟨ordered.pairwise, List.pairwise_singleton _ _, ?_⟩
  intro old oldMember last lastMember
  obtain rfl := List.mem_singleton.mp lastMember
  rw [createdEq]
  exact ordered.older old oldMember

/-- The open file is not too long, unless it is too early for another one. -/
def Bounded (log : LogFile) (clock : Int) : Prop :=
  ∀ file ∈ log.file_, file.writtenBytes_ ≤ log.rollSize_ ∨ clock ≤ log.lastRoll_

theorem bounded_rollFile (log : LogFile) (nonneg : 0 ≤ log.rollSize_) (now : Int) :
    (log.rollFile now).Bounded now := by
  unfold rollFile
  split
  · intro file member
    obtain rfl := Option.some.inj member
    exact .inl nonneg
  · rename_i early
    exact fun _ _ => .inr (Int.not_lt.mp early)

theorem bounded_afterAppend {log : LogFile} {file : AppendFile}
    (fileEq : log.file_ = some file) (nonneg : 0 ≤ log.rollSize_) (now nameNow : Int) :
    (log.afterAppend file.writtenBytes_ now nameNow).Bounded nameNow := by
  unfold afterAppend
  split
  · exact bounded_rollFile log nonneg nameNow
  · rename_i short
    have fits : ∀ other ∈ log.file_, other.writtenBytes_ ≤ log.rollSize_ := by
      intro other member
      obtain rfl := Option.some.inj (fileEq.symm.trans member)
      exact Int.not_lt.mp short
    split
    · exact fun other member => .inl (fits other member)
    · split
      · refine bounded_rollFile _ ?_ nameNow
        exact nonneg
      · split <;> exact fun other member => .inl (fits other member)

theorem bounded_append {log after : LogFile} {item : LogAppend} (nonneg : 0 ≤ log.rollSize_)
    (appended : log.append item = .ok after) : after.Bounded item.nameNow := by
  unfold append at appended
  split at appended
  · cases appended
  · obtain rfl := Except.ok.inj appended
    refine bounded_afterAppend rfl ?_ item.now item.nameNow
    exact nonneg

theorem new_ordered (rollSize flushInterval checkEveryN : Int) {now : Int} (started : 0 < now) :
    (new rollSize flushInterval checkEveryN now).Ordered ∧
      (new rollSize flushInterval checkEveryN now).files.flatMap (·.content) = [] ∧
        (new rollSize flushInterval checkEveryN now).rollSize_ = rollSize := by
  unfold new rollFile
  rw [if_pos (show (0 : Int) < now from started)]
  exact ⟨⟨rfl, nofun, List.Pairwise.nil⟩, rfl, rfl⟩

/-- The stream accepts something whenever it is given something. -/
def Accepting (item : LogAppend) : Prop :=
  item.logline.length ≤ item.writes.length ∧ ∀ accepts ∈ item.writes, 0 < accepts

theorem accepted_of_accepting {item : LogAppend} (accepting : Accepting item) :
    accepted item = item.logline := by
  rw [accepted, AppendFile.writeAll_eq accepting.1 accepting.2, List.take_length]

/-- Any number of appends. -/
theorem fold_append {rollSize start : Int} (nonneg : 0 ≤ rollSize) (started : 0 < start)
    (flushInterval checkEveryN : Int) (items : List LogAppend) :
    ∃ log, items.foldlM append (new rollSize flushInterval checkEveryN start) = .ok log ∧
      log.files.flatMap (·.content) = items.flatMap accepted ∧
      ((∀ item ∈ items, Accepting item) →
        log.files.flatMap (·.content) = items.flatMap (·.logline)) ∧
      log.files.Pairwise (fun older newer => older.created < newer.created) ∧
      ∀ last ∈ items.getLast?, log.Bounded last.nameNow := by
  suffices general : ∀ log : LogFile, log.Ordered → log.rollSize_ = rollSize →
      ∃ final, items.foldlM append log = .ok final ∧ final.Ordered ∧
        final.files.flatMap (·.content) =
          log.files.flatMap (·.content) ++ items.flatMap accepted ∧
        ∀ last ∈ items.getLast?, final.Bounded last.nameNow by
    obtain ⟨ordered, empty, sizeEq⟩ := new_ordered rollSize flushInterval checkEveryN started
    obtain ⟨log, ran, ordered, contentEq, bounded⟩ := general _ ordered sizeEq
    rw [empty, List.nil_append] at contentEq
    refine ⟨log, ran, contentEq, ?_, ordered.files_pairwise, bounded⟩
    intro accepting
    rw [contentEq, List.flatMap, List.flatMap,
      List.map_congr_left fun item member => accepted_of_accepting (accepting item member)]
  induction items with
  | nil => exact fun log ordered _ => ⟨log, rfl, ordered, by simp, by simp⟩
  | cons item items ih =>
      intro log ordered sizeEq
      obtain ⟨after, appended, afterOrdered, content, sameSize⟩ := ordered.append item
      obtain ⟨final, ran, finalOrdered, finalContent, bounded⟩ :=
        ih after afterOrdered (sameSize.trans sizeEq)
      refine ⟨final, ?_, finalOrdered, ?_, ?_⟩
      · rw [List.foldlM_cons, Except.bind_of_ok appended, ran]
      · rw [finalContent, content, List.flatMap_cons, List.append_assoc]
      · intro last member
        cases items with
        | nil =>
            obtain rfl := Option.some.inj member
            obtain rfl := Except.ok.inj ran
            exact bounded_append (sizeEq ▸ nonneg) appended
        | cons next rest => exact bounded last member

/-- The second text makes the file too long, the third one the next file within the same
second, and the clock goes back before the last one. -/
def threeBytes : List LogAppend :=
  [⟨[1, 2], [2, 1], 5, 5⟩, ⟨[3, 4], [1, 1], 6, 6⟩, ⟨[5, 6, 7, 8], [3, 3, 3, 3], 6, 6⟩,
    ⟨[9], [7], 2, 2⟩]

end LogFile

end TcpMysql
