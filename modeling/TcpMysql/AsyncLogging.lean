import TcpMysql.DecimalText
import TcpMysql.EventRuns
import TcpMysql.Fallible
import TcpMysql.LogFile

/-!
# The logging thread

Any thread appends lines to a buffer under a lock.  The logging thread swaps full
buffers, and from time to time one that is not full, for empty ones and writes them to
the log file without holding the lock.  Four buffers go around; the pointers to them are
moved, and a pointer that has been moved from is null.

A critical section is one step, and so is what the logging thread does with its own
variables between two of them.  `since` and `rounds` are histories: the lines since the
last round, and the rounds that are over.
-/

namespace TcpMysql

/-- `FixedBuffer<SIZE>`. -/
structure FixedBuffer (SIZE : Nat) where
  data : Bytes
  length_le : data.length ≤ SIZE

namespace FixedBuffer

variable {SIZE : Nat}

def new : FixedBuffer SIZE := ⟨[], Nat.zero_le _⟩

def avail (buffer : FixedBuffer SIZE) : Nat :=
  SIZE - buffer.data.length

/-- A text that does not fit is dropped. -/
def append (buffer : FixedBuffer SIZE) (text : Bytes) : FixedBuffer SIZE :=
  if fits : text.length < buffer.avail then
    ⟨buffer.data ++ text, by
      have bound := buffer.length_le
      unfold avail at fits
      rw [List.length_append]
      omega⟩
  else
    buffer

def reset (_ : FixedBuffer SIZE) : FixedBuffer SIZE := new

theorem data_append {buffer : FixedBuffer SIZE} {text : Bytes}
    (fits : text.length < buffer.avail) : (buffer.append text).data = buffer.data ++ text := by
  rw [append, dif_pos fits]

theorem append_of_full {buffer : FixedBuffer SIZE} {text : Bytes}
    (full : ¬text.length < buffer.avail) : buffer.append text = buffer :=
  dif_neg full

end FixedBuffer

/-- Where the logging thread is: not started, before `while (running_)`, in
`waitForSeconds`, outside the lock with the buffers that hold the given lines, or at
the end. -/
inductive LoggingPhase
  | created
  | atLoop
  | waiting
  | writing (lines : List Bytes)
  | finished
  deriving DecidableEq, Repr

/-- The lines that have been collected and not written. -/
def LoggingPhase.lines : LoggingPhase → List Bytes
  | .writing lines => lines
  | .created | .atLoop | .waiting | .finished => []

def LoggingPhase.isWriting : LoggingPhase → Bool
  | .writing _ => true
  | .created | .atLoop | .waiting | .finished => false

/-- The lines and the buffers of one round, and the time that was read in it. -/
structure LoggingRound where
  lines : List Bytes
  buffers : List Bytes
  now : Bytes
  deriving DecidableEq, Repr

inductive LoggingFault
  | assertion
  | nullPointer
  deriving DecidableEq, Repr

structure AsyncLogging (SIZE : Nat) where
  running_ : Bool
  currentBuffer_ : Option (FixedBuffer SIZE)
  nextBuffer_ : Option (FixedBuffer SIZE)
  buffers_ : List (FixedBuffer SIZE)
  phase : LoggingPhase
  newBuffer1 : Option (FixedBuffer SIZE)
  newBuffer2 : Option (FixedBuffer SIZE)
  buffersToWrite : List (FixedBuffer SIZE)
  output : List Bytes
  since : List Bytes
  rounds : List LoggingRound

inductive LoggingEvent
  | start
  | append (logline : Bytes)
  | stop
  | iterate
  | wake
  | write (now : Bytes)

/-- The text that stands in the log for buffers that were dropped.  `now` is the time as
`toFormattedString` writes it, and the text is cut to the 255 bytes that `buf` holds. -/
def droppedText (now : Bytes) (size : Nat) : Bytes :=
  (ascii "Dropped log messages at " ++ now ++ ascii ", " ++ decimal (size - 2) ++
    ascii " larger buffers\n").take 255

namespace AsyncLogging

variable {SIZE : Nat}

def new : AsyncLogging SIZE where
  running_ := false
  currentBuffer_ := some .new
  nextBuffer_ := some .new
  buffers_ := []
  phase := .created
  newBuffer1 := none
  newBuffer2 := none
  buffersToWrite := []
  output := []
  since := []
  rounds := []

def start (logging : AsyncLogging SIZE) : AsyncLogging SIZE :=
  { logging with
    running_ := true
    phase := .atLoop
    newBuffer1 := some .new
    newBuffer2 := some .new
    buffersToWrite := [] }

def append (logging : AsyncLogging SIZE) (logline : Bytes) :
    Except LoggingFault (AsyncLogging SIZE) :=
  match logging.currentBuffer_ with
  | none => .error .nullPointer
  | some current =>
      if logline.length < current.avail then
        .ok { logging with
          currentBuffer_ := some (current.append logline)
          since := logging.since ++ [logline] }
      else
        .ok { logging with
          buffers_ := logging.buffers_ ++ [current]
          currentBuffer_ := some ((logging.nextBuffer_.getD .new).append logline)
          nextBuffer_ := none
          since := logging.since ++ [logline] }

/-- The second half of the critical section of the logging thread.  The source would
push a null pointer and fail when it writes the buffer. -/
def collect (logging : AsyncLogging SIZE) : Except LoggingFault (AsyncLogging SIZE) :=
  match logging.currentBuffer_ with
  | none => .error .nullPointer
  | some current =>
      .ok { logging with
        phase := .writing logging.since
        currentBuffer_ := logging.newBuffer1
        newBuffer1 := none
        buffersToWrite := logging.buffers_ ++ [current]
        buffers_ := []
        nextBuffer_ := logging.nextBuffer_.or logging.newBuffer2
        newBuffer2 := if logging.nextBuffer_.isNone then none else logging.newBuffer2
        since := [] }

def iterate (logging : AsyncLogging SIZE) : Except LoggingFault (AsyncLogging SIZE) :=
  if logging.running_ then do
    check .assertion (logging.newBuffer1.map (·.data) = some [])
    check .assertion (logging.newBuffer2.map (·.data) = some [])
    check .assertion (logging.buffersToWrite.isEmpty)
    if logging.buffers_.isEmpty then
      return { logging with phase := .waiting }
    else
      logging.collect
  else
    .ok { logging with phase := .finished }

/-- An empty buffer for a pointer that is null, taken from the end of those that were
written. -/
def refill (pointer : Option (FixedBuffer SIZE)) (written : List (FixedBuffer SIZE)) :
    Except LoggingFault (Option (FixedBuffer SIZE) × List (FixedBuffer SIZE)) :=
  match pointer with
  | some buffer => .ok (some buffer, written)
  | none =>
      match written.getLast? with
      | none => .error .assertion
      | some last => .ok (some last.reset, written.dropLast)

/-- Of more than 25 buffers the logging thread keeps two. -/
def dropTooMany (buffers : List (FixedBuffer SIZE)) : List (FixedBuffer SIZE) :=
  if 25 < buffers.length then buffers.take 2 else buffers

/-- Two buffers are enough to refill the pointers. -/
def resizeToTwo (buffers : List (FixedBuffer SIZE)) : List (FixedBuffer SIZE) :=
  if 2 < buffers.length then buffers.take 2 else buffers

/-- What the logging thread does without the lock. -/
def write (logging : AsyncLogging SIZE) (now : Bytes) :
    Except LoggingFault (AsyncLogging SIZE) := do
  check .assertion (¬logging.buffersToWrite.isEmpty)
  let note :=
    if 25 < logging.buffersToWrite.length then
      [droppedText now logging.buffersToWrite.length]
    else []
  let toWrite := dropTooMany logging.buffersToWrite
  let (newBuffer1, rest) ← refill logging.newBuffer1 (resizeToTwo toWrite)
  let (newBuffer2, _) ← refill logging.newBuffer2 rest
  return { logging with
    phase := .atLoop
    newBuffer1 := newBuffer1
    newBuffer2 := newBuffer2
    buffersToWrite := []
    output := logging.output ++ (note ++ toWrite.map (·.data))
    rounds := logging.rounds ++ [⟨logging.phase.lines, logging.buffersToWrite.map (·.data), now⟩] }

def step (logging : AsyncLogging SIZE) :
    LoggingEvent → Except LoggingFault (AsyncLogging SIZE)
  | .start => .ok logging.start
  | .append logline => logging.append logline
  | .stop => .ok { logging with running_ := false }
  | .iterate => logging.iterate
  | .wake => logging.collect
  | .write now => logging.write now

/-- The logging thread waits until it is notified, until the time is over, or for no
reason at all. -/
def Offered (logging : AsyncLogging SIZE) : LoggingEvent → Prop
  | .start => logging.phase = .created
  | .append _ | .stop => True
  | .iterate => logging.phase = .atLoop
  | .wake => logging.phase = .waiting
  | .write _ => logging.phase.isWriting = true

instance (logging : AsyncLogging SIZE) (event : LoggingEvent) :
    Decidable (logging.Offered event) := by
  cases event <;> unfold Offered <;> infer_instance

def system (SIZE : Nat) : EventSystem (AsyncLogging SIZE) LoggingEvent where
  next logging event := (logging.step event).toOption
  offered := Offered

end AsyncLogging

/-! ## What is in the buffers -/

/-- The text of the lines that are shorter than a buffer. -/
def shortText (SIZE : Nat) (lines : List Bytes) : Bytes :=
  (lines.filter (·.length < SIZE)).flatten

/-- What is written in a round: at most 25 buffers, or else a note and two of them. -/
def LoggingRound.output (round : LoggingRound) : List Bytes :=
  if 25 < round.buffers.length then
    droppedText round.now round.buffers.length :: round.buffers.take 2
  else
    round.buffers

namespace AsyncLogging

variable {SIZE : Nat} {logged : List Bytes} {logging after : AsyncLogging SIZE}

/-- What the logging thread knows about its own variables. -/
def Backend (logging : AsyncLogging SIZE) : Prop :=
  match logging.phase with
  | .created | .finished => True
  | .atLoop | .waiting =>
      logging.newBuffer1.map (·.data) = some [] ∧
        logging.newBuffer2.map (·.data) = some [] ∧ logging.buffersToWrite = []
  | .writing lines =>
      logging.newBuffer1 = none ∧ (∀ buffer ∈ logging.newBuffer2, buffer.data = []) ∧
        (logging.newBuffer2 = none → 2 ≤ logging.buffersToWrite.length) ∧
          logging.buffersToWrite ≠ [] ∧
            logging.buffersToWrite.flatMap (·.data) = shortText SIZE lines

/-- The invariant, with all lines that have been logged.  A current buffer is always there.
The other one is empty, and it is only missing when a buffer has been filled since the last
round. -/
structure Invariant (logged : List Bytes) (logging : AsyncLogging SIZE) : Prop where
  pending : ∃ current, logging.currentBuffer_ = some current ∧
    (logging.buffers_ ++ [current]).flatMap (·.data) = shortText SIZE logging.since
  next_empty : ∀ buffer ∈ logging.nextBuffer_, buffer.data = []
  rotated : logging.nextBuffer_ = none → logging.buffers_ ≠ []
  backend : logging.Backend
  rounds_eq : ∀ round ∈ logging.rounds, round.buffers.flatten = shortText SIZE round.lines
  output_eq : logging.output = logging.rounds.flatMap LoggingRound.output
  logged_eq : logged =
    logging.rounds.flatMap (·.lines) ++ logging.phase.lines ++ logging.since

theorem shortText_append_singleton (lines : List Bytes) (line : Bytes) :
    shortText SIZE (lines ++ [line]) =
      shortText SIZE lines ++ if line.length < SIZE then line else [] := by
  unfold shortText
  rw [List.filter_append, List.flatten_append]
  by_cases short : line.length < SIZE <;> simp [short]

/-- A line goes into an empty buffer unless it is too long for any. -/
theorem data_append_empty {buffer : FixedBuffer SIZE} (empty : buffer.data = [])
    (line : Bytes) :
    (buffer.append line).data = if line.length < SIZE then line else [] := by
  have all : buffer.avail = SIZE := by
    rw [FixedBuffer.avail, empty]
    rfl
  by_cases fits : line.length < SIZE
  · rw [FixedBuffer.data_append (by rwa [all]), empty, if_pos fits, List.nil_append]
  · rw [FixedBuffer.append_of_full (by rwa [all]), empty, if_neg fits]

theorem new_invariant : Invariant [] (new : AsyncLogging SIZE) where
  pending := ⟨.new, rfl, rfl⟩
  next_empty := by
    intro buffer member
    obtain rfl := Option.some.inj member
    rfl
  rotated := fun missing => by simp [new] at missing
  backend := trivial
  rounds_eq := fun _ member => absurd member List.not_mem_nil
  output_eq := rfl
  logged_eq := rfl

theorem Invariant.start (invariant : logging.Invariant logged)
    (created : logging.phase = .created) : logging.start.Invariant logged where
  pending := invariant.pending
  next_empty := invariant.next_empty
  rotated := invariant.rotated
  backend := ⟨rfl, rfl, rfl⟩
  rounds_eq := invariant.rounds_eq
  output_eq := invariant.output_eq
  logged_eq := by
    rw [AsyncLogging.start]
    have loggedEq := invariant.logged_eq
    rw [created] at loggedEq
    exact loggedEq

theorem Invariant.stop (invariant : logging.Invariant logged) :
    Invariant logged { logging with running_ := false } :=
  ⟨invariant.pending, invariant.next_empty, invariant.rotated, invariant.backend,
    invariant.rounds_eq, invariant.output_eq, invariant.logged_eq⟩

/-- A line is appended to the current buffer, or to the next one. -/
theorem Invariant.append (invariant : logging.Invariant logged) (logline : Bytes) :
    ∃ after, logging.append logline = .ok after ∧ after.Invariant (logged ++ [logline]) := by
  obtain ⟨current, currentEq, pending⟩ := invariant.pending
  have loggedEq : logged ++ [logline] =
      logging.rounds.flatMap (·.lines) ++ logging.phase.lines ++
        (logging.since ++ [logline]) := by
    rw [invariant.logged_eq, List.append_assoc]
  unfold AsyncLogging.append
  simp only [currentEq]
  by_cases fits : logline.length < current.avail
  · have short : logline.length < SIZE := Nat.lt_of_lt_of_le fits (Nat.sub_le _ _)
    rw [if_pos fits]
    refine ⟨_, rfl, ⟨⟨_, rfl, ?_⟩, invariant.next_empty, invariant.rotated,
      invariant.backend, invariant.rounds_eq, invariant.output_eq, loggedEq⟩⟩
    rw [shortText_append_singleton, if_pos short, ← pending]
    simp [FixedBuffer.data_append fits]
  · rw [if_neg fits]
    refine ⟨_, rfl, ⟨⟨_, rfl, ?_⟩, by simp, ?_, invariant.backend, invariant.rounds_eq,
      invariant.output_eq, loggedEq⟩⟩
    · have empty : (logging.nextBuffer_.getD .new).data = [] := by
        cases nextEq : logging.nextBuffer_ with
        | none => rfl
        | some next => exact invariant.next_empty next nextEq
      rw [shortText_append_singleton, ← pending, List.flatMap_append]
      simp [data_append_empty empty]
    · intro _
      exact List.append_ne_nil_of_right_ne_nil _ (List.cons_ne_nil _ _)

/-- The buffers are swapped for empty ones.  The second one is only used up when there
are two buffers to write. -/
theorem Invariant.collect (invariant : logging.Invariant logged)
    (idle : logging.phase = .atLoop ∨ logging.phase = .waiting) :
    ∃ after, logging.collect = .ok after ∧ after.Invariant logged := by
  obtain ⟨current, currentEq, pending⟩ := invariant.pending
  have noLines : logging.phase.lines = [] := by
    rcases idle with phaseEq | phaseEq <;> rw [phaseEq] <;> rfl
  obtain ⟨ready1, ready2, -⟩ : logging.newBuffer1.map (·.data) = some [] ∧
      logging.newBuffer2.map (·.data) = some [] ∧ logging.buffersToWrite = [] := by
    have backend := invariant.backend
    unfold Backend at backend
    rcases idle with phaseEq | phaseEq <;> rwa [phaseEq] at backend
  obtain ⟨first, firstEq, firstEmpty⟩ := Option.map_eq_some_iff.mp ready1
  obtain ⟨second, secondEq, secondEmpty⟩ := Option.map_eq_some_iff.mp ready2
  unfold AsyncLogging.collect
  simp only [currentEq, firstEq, secondEq]
  refine ⟨_, rfl, ⟨⟨first, rfl, ?_⟩, ?_, ?_, ?_, invariant.rounds_eq, invariant.output_eq,
    ?_⟩⟩
  · simp [firstEmpty, shortText]
  · intro buffer member
    cases nextEq : logging.nextBuffer_ with
    | none =>
        rw [nextEq] at member
        obtain rfl := Option.some.inj member
        exact secondEmpty
    | some next =>
        rw [nextEq] at member
        obtain rfl := Option.some.inj member
        exact invariant.next_empty _ nextEq
  · intro missing
    cases nextEq : logging.nextBuffer_ <;> simp [nextEq] at missing
  · refine ⟨rfl, ?_, ?_, List.append_ne_nil_of_right_ne_nil _ (List.cons_ne_nil _ _), pending⟩
    · intro buffer member
      cases nextEq : logging.nextBuffer_ with
      | none => simp [nextEq] at member
      | some next =>
          simp only [nextEq] at member
          obtain rfl := Option.some.inj member
          exact secondEmpty
    · intro usedUp
      have missing : logging.nextBuffer_ = none := by
        cases nextEq : logging.nextBuffer_ with
        | none => rfl
        | some next => simp [nextEq] at usedUp
      have filled := List.length_pos_iff.mpr (invariant.rotated missing)
      rw [List.length_append]
      exact Nat.succ_le_succ filled
  · rw [invariant.logged_eq, noLines]
    simp [LoggingPhase.lines]

theorem Invariant.iterate (invariant : logging.Invariant logged) (idle : logging.phase = .atLoop) :
    ∃ after, logging.iterate = .ok after ∧ after.Invariant logged := by
  have backend := invariant.backend
  have loggedEq := invariant.logged_eq
  unfold Backend at backend
  rw [idle] at backend loggedEq
  obtain ⟨ready1, ready2, written⟩ := backend
  unfold AsyncLogging.iterate
  by_cases running : logging.running_ = true
  · rw [if_pos running, Except.bind_of_ok (check_of ready1), Except.bind_of_ok (check_of ready2),
      Except.bind_of_ok (check_of (by rw [written]; rfl))]
    by_cases nothing : logging.buffers_.isEmpty = true
    · rw [if_pos nothing]
      exact ⟨_, rfl, ⟨invariant.pending, invariant.next_empty, invariant.rotated,
        ⟨ready1, ready2, written⟩, invariant.rounds_eq, invariant.output_eq, loggedEq⟩⟩
    · rw [if_neg nothing]
      exact invariant.collect (.inl idle)
  · rw [if_neg running]
    exact ⟨_, rfl, ⟨invariant.pending, invariant.next_empty, invariant.rotated, trivial,
      invariant.rounds_eq, invariant.output_eq, loggedEq⟩⟩

/-- There is a buffer to refill a null pointer with. -/
theorem refill_returns {pointer : Option (FixedBuffer SIZE)}
    {written : List (FixedBuffer SIZE)} (empty : ∀ buffer ∈ pointer, buffer.data = [])
    (enough : pointer = none → written ≠ []) :
    ∃ buffer rest, refill pointer written = .ok (some buffer, rest) ∧ buffer.data = [] ∧
      (pointer = none → rest.length + 1 = written.length) := by
  cases pointer with
  | some buffer => exact ⟨buffer, written, rfl, empty buffer rfl, nofun⟩
  | none =>
      have nonempty := enough rfl
      have lastEq := List.getLast?_eq_some_getLast nonempty
      refine ⟨_, written.dropLast, by rw [refill, lastEq], rfl, ?_⟩
      intro _
      have positive := List.length_pos_iff.mpr nonempty
      rw [List.length_dropLast]
      omega

theorem length_resizeToTwo (buffers : List (FixedBuffer SIZE)) :
    (resizeToTwo (dropTooMany buffers)).length = min 2 buffers.length := by
  have resized : ∀ others : List (FixedBuffer SIZE), (resizeToTwo others).length =
      min 2 others.length := by
    intro others
    unfold resizeToTwo
    split
    · exact List.length_take
    · omega
  rw [resized]
  unfold dropTooMany
  split
  · rw [List.length_take]
    omega
  · rfl

theorem Invariant.write (invariant : logging.Invariant logged)
    (isWriting : logging.phase.isWriting = true) (now : Bytes) :
    ∃ after, logging.write now = .ok after ∧ after.Invariant logged := by
  obtain ⟨lines, phaseEq⟩ : ∃ lines, logging.phase = .writing lines := by
    cases phaseEq : logging.phase with
    | writing lines => exact ⟨lines, rfl⟩
    | created | atLoop | waiting | finished =>
        rw [phaseEq] at isWriting
        exact absurd isWriting Bool.false_ne_true
  have backend := invariant.backend
  have loggedEq := invariant.logged_eq
  unfold Backend at backend
  rw [phaseEq] at backend loggedEq
  obtain ⟨moved, empty2, enough2, nonempty, linesEq⟩ := backend
  have positive := List.length_pos_iff.mpr nonempty
  have resizedLength := length_resizeToTwo logging.buffersToWrite
  have empty1 : ∀ buffer ∈ logging.newBuffer1, buffer.data = [] := by simp [moved]
  have enough1 : resizeToTwo (dropTooMany logging.buffersToWrite) ≠ [] :=
    List.length_pos_iff.mp (by omega)
  obtain ⟨first, rest, firstEq, firstEmpty, restLength⟩ :=
    refill_returns empty1 fun _ => enough1
  have enoughRest : logging.newBuffer2 = none → rest ≠ [] := by
    intro usedUp
    have two := enough2 usedUp
    have one := restLength moved
    exact List.length_pos_iff.mp (by omega)
  obtain ⟨second, last, secondEq, secondEmpty, -⟩ := refill_returns empty2 enoughRest
  have some : ¬logging.buffersToWrite.isEmpty = true := by rwa [List.isEmpty_iff]
  unfold AsyncLogging.write
  rw [Except.bind_of_ok (check_of some)]
  refine ⟨_, (Except.bind_of_ok firstEq _).trans (Except.bind_of_ok secondEq _), ?_⟩
  refine ⟨invariant.pending, invariant.next_empty, invariant.rotated,
    ⟨?_, ?_, rfl⟩, ?_, ?_, ?_⟩
  · simp [firstEmpty]
  · simp [secondEmpty]
  · intro round member
    rcases List.mem_append.mp member with old | new
    · exact invariant.rounds_eq round old
    · obtain rfl := List.mem_singleton.mp new
      simp only [phaseEq]
      exact linesEq
  · simp only
    rw [List.flatMap_append, ← invariant.output_eq]
    congr 1
    simp [LoggingRound.output, dropTooMany]
    split <;> simp
  · simp only [phaseEq]
    rw [loggedEq]
    simp [LoggingPhase.lines]

/-! ## All runs -/

/-- The lines that have been logged, in order. -/
def loggedLines (events : List LoggingEvent) : List Bytes :=
  events.filterMap fun event =>
    match event with
    | .append logline => some logline
    | _ => none

theorem Invariant.step {events : List LoggingEvent} {event : LoggingEvent}
    (invariant : logging.Invariant (loggedLines events)) (offered : logging.Offered event) :
    ∃ after, logging.step event = .ok after ∧
      after.Invariant (loggedLines (events ++ [event])) := by
  unfold loggedLines at invariant ⊢
  rw [List.filterMap_append]
  cases event with
  | append logline => exact invariant.append logline
  | start =>
      rw [List.filterMap_cons_none rfl, List.filterMap_nil, List.append_nil]
      exact ⟨_, rfl, invariant.start offered⟩
  | stop =>
      rw [List.filterMap_cons_none rfl, List.filterMap_nil, List.append_nil]
      exact ⟨_, rfl, invariant.stop⟩
  | iterate =>
      rw [List.filterMap_cons_none rfl, List.filterMap_nil, List.append_nil]
      exact invariant.iterate offered
  | wake =>
      rw [List.filterMap_cons_none rfl, List.filterMap_nil, List.append_nil]
      exact invariant.collect (.inr offered)
  | write now =>
      rw [List.filterMap_cons_none rfl, List.filterMap_nil, List.append_nil]
      exact invariant.write offered now

theorem invariant_of_reaches {events : List LoggingEvent}
    (run : (system SIZE).Reaches .new events logging) :
    logging.Invariant (loggedLines events) := by
  refine run.invariant (fun events logging => logging.Invariant (loggedLines events))
    new_invariant ?_
  intro events before event after _ invariant offered stepTo
  obtain ⟨after', stepEq, kept⟩ := invariant.step offered
  have same : after' = after :=
    Except.ok.inj (stepEq.symm.trans (Except.toOption_eq_some_iff.mp stepTo))
  exact same ▸ kept

/-- Without too many buffers in a round, all of its text is written. -/
theorem output_of_few {rounds : List LoggingRound}
    (few : ∀ round ∈ rounds, round.buffers.length ≤ 25)
    (roundsEq : ∀ round ∈ rounds, round.buffers.flatten = shortText SIZE round.lines) :
    (rounds.flatMap LoggingRound.output).flatten =
      shortText SIZE (rounds.flatMap (·.lines)) := by
  induction rounds with
  | nil => rfl
  | cons round rounds ih =>
      have head : round.output.flatten = shortText SIZE round.lines := by
        rw [LoggingRound.output, if_neg (Nat.not_lt.mpr (few round List.mem_cons_self))]
        exact roundsEq round List.mem_cons_self
      have tail := ih (fun other member => few other (List.mem_cons_of_mem _ member))
        fun other member => roundsEq other (List.mem_cons_of_mem _ member)
      rw [List.flatMap_cons, List.flatten_append, head, tail]
      simp [shortText]

/-- When the logging thread has ended, nothing is written any more. -/
theorem finished_step {event : LoggingEvent} (finished : logging.phase = .finished)
    (offered : logging.Offered event) (stepped : logging.step event = .ok after) :
    after.phase = .finished ∧ after.output = logging.output := by
  cases event with
  | append logline =>
      simp only [step, append] at stepped
      split at stepped
      · cases stepped
      · split at stepped <;> (cases stepped; exact ⟨finished, rfl⟩)
  | stop =>
      cases stepped
      exact ⟨finished, rfl⟩
  | start | iterate | wake =>
      rw [Offered, finished] at offered
      cases offered
  | write now =>
      rw [Offered, finished] at offered
      cases offered

theorem finished_run {more : List LoggingEvent} (finished : logging.phase = .finished)
    (further : (system SIZE).Reaches logging more after) :
    after.phase = .finished ∧ after.output = logging.output := by
  refine further.invariant
    (fun _ after => after.phase = .finished ∧ after.output = logging.output)
    ⟨finished, rfl⟩ ?_
  intro events before event next _ soFar offered stepped
  have kept := finished_step soFar.1 offered (Except.toOption_eq_some_iff.mp stepped)
  exact ⟨kept.1, kept.2.trans soFar.2⟩

/-- However the threads interleave, no pointer is null where it is used and no assertion
fails.  The lines that were logged are those of the rounds that are over, of the round
that is being written, and those since then.  A round writes its lines in order, except
those that no buffer can hold; only a round with more than 25 buffers drops text, and it
leaves a note.  When the thread has ended, nothing is written any more, so that the lines
since the last round are lost. -/
theorem log_lines_written {events : List LoggingEvent}
    (run : (system SIZE).Reaches .new events logging) :
    (∀ event, logging.Offered event → ∃ after, logging.step event = .ok after) ∧
      loggedLines events =
        logging.rounds.flatMap (·.lines) ++ logging.phase.lines ++ logging.since ∧
      logging.output = logging.rounds.flatMap LoggingRound.output ∧
      (∀ round ∈ logging.rounds, round.buffers.flatten = shortText SIZE round.lines) ∧
      ((∀ round ∈ logging.rounds, round.buffers.length ≤ 25) →
        logging.output.flatten = shortText SIZE (logging.rounds.flatMap (·.lines))) ∧
      (logging.phase = .finished → ∀ more after,
        (system SIZE).Reaches logging more after → after.output = logging.output) := by
  have invariant := invariant_of_reaches run
  refine ⟨?_, invariant.logged_eq, invariant.output_eq, invariant.rounds_eq, ?_,
    fun finished more after further => (finished_run finished further).2⟩
  · intro event offered
    obtain ⟨after, stepEq, -⟩ := invariant.step offered
    exact ⟨after, stepEq⟩
  · intro few
    rw [invariant.output_eq]
    exact output_of_few few invariant.rounds_eq

instance (logging : AsyncLogging SIZE) (event : LoggingEvent) :
    Decidable ((system SIZE).offered logging event) :=
  inferInstanceAs (Decidable (logging.Offered event))

/-- Buffers of four bytes: the third line does not fit into any, and the last one comes
when the thread has been told to stop. -/
def fourBytes : List LoggingEvent :=
  [.append [1, 1], .start, .iterate, .append [2, 2, 2], .append [3, 3, 3, 3], .wake,
    .append [4], .stop, .write [], .append [5], .iterate]

theorem log_lines_written_four_bytes : ∃ logging : AsyncLogging 4,
    (system 4).Reaches .new fourBytes logging ∧ logging.phase = .finished ∧
      logging.output.flatten = [1, 1, 2, 2, 2] ∧
        shortText 4 (logging.rounds.flatMap (·.lines)) = [1, 1, 2, 2, 2] ∧
          loggedLines fourBytes =
            logging.rounds.flatMap (·.lines) ++ logging.phase.lines ++ [[4], [5]] := by
  obtain ⟨logging, run, phaseEq, outputEq, sinceEq, few⟩ :=
    EventSystem.exists_reaches_of_play (system 4) .new fourBytes
      (fun logging => logging.phase = .finished ∧
        logging.output.flatten = [1, 1, 2, 2, 2] ∧ logging.since = [[4], [5]] ∧
          ∀ round ∈ logging.rounds, round.buffers.length ≤ 25) (by decide +kernel)
  obtain ⟨-, loggedEq, -, -, complete, -⟩ := log_lines_written run
  refine ⟨logging, run, phaseEq, outputEq, ?_, ?_⟩
  · rw [← complete few, outputEq]
  · rw [← sinceEq]
    exact loggedEq

/-- What the logging thread has written then, as it is appended to the file. -/
def fourBytesOutput : List LogAppend :=
  [⟨[1, 1], [1, 1], 5, 5⟩, ⟨[2, 2, 2], [1, 1, 1], 6, 6⟩, ⟨[], [], 6, 6⟩]

end AsyncLogging

end TcpMysql
