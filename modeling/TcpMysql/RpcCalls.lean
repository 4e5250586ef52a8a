import TcpMysql.RpcChannel

/-!
# Every remote call gets its own reply, once

Every call that a side has made is at one stage: inside `CallMethod`, on its way, with
the method, on its way back, or finished.  The ids of the calls tell them apart as long
as a side has made fewer than `2 ^ 64` of them, so that a reply is matched with the
call that it answers.  Once an end is disconnected, requests and replies may get lost; the
calls that they belong to stay in `outstandings_`.
-/

namespace TcpMysql.RpcWorld

/-- The entry of `outstandings_` that belongs to an id. -/
def entry (made : List RpcCall) (id : Nat) : Option OutstandingCall :=
  made[id - 1]?.map fun call => ⟨id - 1, call.response, call.done⟩

/-- What is known about a call with an id at a stage.  `services` and `answered` are
those of the other side. -/
def Fits (services : RpcServices) (answered : List (RpcMessage × Bytes))
    (made : List RpcCall) (id : Nat) : Stage → Prop
  | .registering thread | .sending thread =>
      thread.id = id ∧ thread.number = id - 1 ∧ made[id - 1]? = some thread.call
  | .requested message =>
      ∃ call, made[id - 1]? = some call ∧ message = .ofCall id call
  | .serving message =>
      message.verdict services = .ok .NO_ERROR ∧
        ∃ call, made[id - 1]? = some call ∧ message = .ofCall id call
  | .replied message =>
      ∃ call, made[id - 1]? = some call ∧
        Answers services answered (.ofCall id call) message
  | .finished finished =>
      some finished.out = entry made id ∧
        finished = .ofReply finished.out finished.message ∧
          ∃ call, made[id - 1]? = some call ∧
            Answers services answered (.ofCall id call) finished.message

structure Invariant (services : RpcServices) (world : RpcWorld) (side : RpcSide) : Prop where
  id_eq : (world.channel side).id_ = (world.channel side).made.length
  ids : (world.jobs side).map Prod.fst = List.range' 1 (world.channel side).made.length
  fits : ∀ id stage, (id, stage) ∈ world.jobs side →
    Fits services (world.channel side.other).answered (world.channel side).made id stage
  registered : ∀ id stage, (id, stage) ∈ world.jobs side → stage.Waiting →
    (world.channel side).outstandings_ id = entry (world.channel side).made id
  waiting : ∀ id, (world.channel side).outstandings_ id ≠ none →
    ∃ stage, (id, stage) ∈ world.jobs side ∧ stage.Waiting

section Stages

variable {services : RpcServices} {answered answered' : List (RpcMessage × Bytes)}
  {made : List RpcCall} {id : Nat} {stage : Stage}

theorem Answers.mono {request reply : RpcMessage} (grows : answered ⊆ answered')
    (answers : Answers services answered request reply) :
    Answers services answered' request reply := by
  rcases answers with ⟨accepts, response, replyEq, member⟩ | refused
  · exact .inl ⟨accepts, response, replyEq, grows member⟩
  · exact .inr refused

theorem entry_append (inside : id - 1 < made.length) (call : RpcCall) :
    entry (made ++ [call]) id = entry made id := by
  rw [entry, entry, List.getElem?_append_left inside]

/-- More calls and more answers do not matter. -/
theorem Fits.mono (fits : Fits services answered made id stage) (grows : answered ⊆ answered')
    (inside : id - 1 < made.length) (more : List RpcCall) :
    Fits services answered' (made ++ more) id stage := by
  have sameCall : (made ++ more)[id - 1]? = made[id - 1]? := List.getElem?_append_left inside
  have sameEntry : entry (made ++ more) id = entry made id := by
    rw [entry, entry, sameCall]
  cases stage with
  | registering thread | sending thread =>
      unfold Fits at fits ⊢
      rwa [sameCall]
  | requested message | serving message =>
      unfold Fits at fits ⊢
      rwa [sameCall]
  | replied message =>
      obtain ⟨call, callEq, answers⟩ := fits
      exact ⟨call, sameCall.trans callEq, answers.mono grows⟩
  | finished finished =>
      obtain ⟨outEq, handled, call, callEq, answers⟩ := fits
      exact ⟨outEq.trans sameEntry.symm, handled, call, sameCall.trans callEq,
        answers.mono grows⟩

/-- A call that gets on still fits. -/
theorem Fits.follows {old new : Stage} (fits : Fits services answered made id old)
    (follows : Follows services answered old new) :
    Fits services answered made id new := by
  cases follows with
  | sent thread =>
      obtain ⟨idEq, -, callEq⟩ := fits
      exact ⟨thread.call, callEq, by rw [idEq]⟩
  | accepted accepts => exact ⟨accepts, fits⟩
  | refused refuses found =>
      obtain ⟨call, callEq, rfl⟩ := fits
      exact ⟨call, callEq, .inr ⟨_, refuses, found, rfl⟩⟩
  | answered member =>
      obtain ⟨accepts, call, callEq, rfl⟩ := fits
      exact ⟨call, callEq, .inl ⟨accepts, _, rfl, member⟩⟩

theorem Follows.waiting {old new : Stage} (follows : Follows services answered old new) :
    old.Waiting ∧ new.Waiting := by
  cases follows <;> exact ⟨trivial, trivial⟩

end Stages

namespace Invariant

variable {services : RpcServices} {world after : RpcWorld} {side : RpcSide} {id : Nat}
  {stage : Stage}

theorem new_invariant (services : RpcServices) (conn : RpcSide → Nat) (side : RpcSide) :
    Invariant services (.new conn) side where
  id_eq := rfl
  ids := rfl
  fits := by
    intro id stage member
    simp [jobs, new, threadJobs, requestJobs, servingJobs, replyJobs, finishedJobs,
      messageJobs, undelivered, RpcChannel.new] at member
  registered := by
    intro id stage member
    simp [jobs, new, threadJobs, requestJobs, servingJobs, replyJobs, finishedJobs,
      messageJobs, undelivered, RpcChannel.new] at member
  waiting := fun id registered => absurd rfl registered

theorem bounds (invariant : Invariant services world side)
    (member : (id, stage) ∈ world.jobs side) :
    1 ≤ id ∧ id ≤ (world.channel side).made.length := by
  have inIds : id ∈ (world.jobs side).map Prod.fst :=
    Multiset.mem_map_of_mem Prod.fst member
  rw [invariant.ids, Multiset.mem_coe, List.mem_range'_1] at inIds
  omega

/-- The ids of the calls are different. -/
theorem ne_of_rest (invariant : Invariant services world side) {rest : Jobs} {other : Stage}
    (split : world.jobs side = (id, stage) ::ₘ rest) {id' : Nat}
    (member : (id', other) ∈ rest) : id' ≠ id := by
  rintro rfl
  have nodup : ((world.jobs side).map Prod.fst).Nodup := by
    rw [invariant.ids, Multiset.coe_nodup]
    exact List.nodup_range'
  rw [split, Multiset.map_cons, Multiset.nodup_cons] at nodup
  exact nodup.1 (Multiset.mem_map.mpr ⟨_, member, rfl⟩)

theorem fits_after (invariant : Invariant services world side) {more : List RpcCall}
    (made : (after.channel side).made = (world.channel side).made ++ more)
    (grows : (world.channel side.other).answered ⊆ (after.channel side.other).answered)
    (member : (id, stage) ∈ world.jobs side) :
    Fits services (after.channel side.other).answered (after.channel side).made id stage := by
  have inside := invariant.bounds member
  rw [made]
  exact (invariant.fits id stage member).mono grows (by omega) more

/-- A call moves from one stage to the next, and no call is made. -/
theorem of_moved (invariant : Invariant services world side) {old new : Stage} {rest : Jobs}
    (grows : (world.channel side.other).answered ⊆ (after.channel side.other).answered)
    (noneMade : NoneMade world after side)
    (found : world.jobs side = (id, old) ::ₘ rest)
    (jobsEq : after.jobs side = (id, new) ::ₘ rest)
    (fits : Fits services (after.channel side.other).answered (after.channel side).made id old →
      Fits services (after.channel side.other).answered (after.channel side).made id new)
    (atOthers : ∀ other, other ≠ id → (after.channel side).outstandings_ other =
      (world.channel side).outstandings_ other)
    (registered : new.Waiting →
      (after.channel side).outstandings_ id = entry (world.channel side).made id)
    (waiting : (after.channel side).outstandings_ id ≠ none → new.Waiting) :
    Invariant services after side where
  id_eq := by rw [noneMade.id_, noneMade.made, invariant.id_eq]
  ids := by
    rw [noneMade.made, ← invariant.ids, found, jobsEq, Multiset.map_cons, Multiset.map_cons]
  fits := by
    have made := noneMade.made.trans (List.append_nil _).symm
    intro other stage member
    rw [jobsEq] at member
    rcases Multiset.mem_cons.mp member with equal | inRest
    · obtain ⟨rfl, rfl⟩ := Prod.mk.inj equal
      exact fits (invariant.fits_after made grows (found ▸ Multiset.mem_cons_self _ _))
    · exact invariant.fits_after made grows (found ▸ Multiset.mem_cons_of_mem inRest)
  registered := by
    intro other stage member isWaiting
    rw [jobsEq] at member
    rw [noneMade.made]
    rcases Multiset.mem_cons.mp member with equal | inRest
    · obtain ⟨rfl, rfl⟩ := Prod.mk.inj equal
      exact registered isWaiting
    · rw [atOthers other (invariant.ne_of_rest found inRest)]
      exact invariant.registered other stage (found ▸ Multiset.mem_cons_of_mem inRest)
        isWaiting
  waiting := by
    intro other isRegistered
    rw [jobsEq]
    by_cases same : other = id
    · subst same
      exact ⟨new, Multiset.mem_cons_self _ _, waiting isRegistered⟩
    · rw [atOthers other same] at isRegistered
      obtain ⟨stage, member, isWaiting⟩ := invariant.waiting other isRegistered
      rw [found] at member
      rcases Multiset.mem_cons.mp member with equal | inRest
      · exact absurd (Prod.mk.inj equal).1 same
      · exact ⟨stage, Multiset.mem_cons_of_mem inRest, isWaiting⟩

/-- A reply never finds its call missing. -/
theorem registered_of_replied (invariant : Invariant services world side)
    {message : RpcMessage} {rest : Jobs}
    (found : world.jobs side = (message.id, .replied message) ::ₘ rest) :
    (world.channel side).outstandings_ message.id ≠ none := by
  have member : (message.id, Stage.replied message) ∈ world.jobs side :=
    found ▸ Multiset.mem_cons_self _ _
  obtain ⟨call, callEq, -⟩ := invariant.fits _ _ member
  rw [invariant.registered _ _ member trivial, entry, callEq]
  simp

theorem of_called (invariant : Invariant services world side) {thread : CallingThread}
    (grows : (world.channel side.other).answered ⊆ (after.channel side.other).answered)
    (id_ : (after.channel side).id_ = thread.id)
    (idEq : thread.id = ((world.channel side).id_ + 1) % 2 ^ 64)
    (numberEq : thread.number = (world.channel side).made.length)
    (made : (after.channel side).made = (world.channel side).made ++ [thread.call])
    (jobsEq : after.jobs side = (thread.id, .registering thread) ::ₘ world.jobs side)
    (outstandings_ : (after.channel side).outstandings_ = (world.channel side).outstandings_)
    (few : (after.channel side).made.length < 2 ^ 64) :
    Invariant services after side := by
  have lengthEq : (after.channel side).made.length = (world.channel side).made.length + 1 := by
    rw [made, List.length_append, List.length_singleton]
  have newId : thread.id = (world.channel side).made.length + 1 := by
    rw [idEq, invariant.id_eq]
    omega
  refine ⟨by rw [id_, newId, lengthEq], ?_, ?_, ?_, ?_⟩
  · rw [jobsEq, Multiset.map_cons, invariant.ids, lengthEq, List.range'_1_concat, newId,
      Nat.add_comm 1]
    exact Multiset.coe_eq_coe.mpr (List.perm_append_singleton _ _).symm
  · intro id stage member
    rw [jobsEq] at member
    rcases Multiset.mem_cons.mp member with equal | old
    · obtain ⟨rfl, rfl⟩ := Prod.mk.inj equal
      refine ⟨rfl, by rw [newId, numberEq]; rfl, ?_⟩
      rw [made, newId]
      simp
    · exact invariant.fits_after made grows old
  · intro id stage member isWaiting
    rw [jobsEq] at member
    rcases Multiset.mem_cons.mp member with equal | old
    · obtain ⟨-, rfl⟩ := Prod.mk.inj equal
      exact False.elim isWaiting
    · have inside := invariant.bounds old
      rw [outstandings_, made, entry_append (by omega)]
      exact invariant.registered id stage old isWaiting
  · intro id isRegistered
    rw [outstandings_] at isRegistered
    obtain ⟨stage, member, isWaiting⟩ := invariant.waiting id isRegistered
    rw [jobsEq]
    exact ⟨stage, Multiset.mem_cons_of_mem member, isWaiting⟩

/-- Whatever a step does to the calls of a side, it keeps the invariant. -/
theorem of_moves (invariant : Invariant services world side)
    (moves : Moves services world after side)
    (grows : (world.channel side.other).answered ⊆ (after.channel side.other).answered)
    (few : (after.channel side).made.length < 2 ^ 64) : Invariant services after side := by
  cases moves with
  | same jobsEq noneMade outstandings_ =>
      have made := noneMade.made.trans (List.append_nil _).symm
      refine ⟨by rw [noneMade.id_, noneMade.made, invariant.id_eq],
        by rw [jobsEq, noneMade.made, invariant.ids], ?_, ?_, ?_⟩
      · intro id stage member
        exact invariant.fits_after made grows (jobsEq ▸ member)
      · rw [jobsEq, noneMade.made, outstandings_]
        exact invariant.registered
      · rw [jobsEq, outstandings_]
        exact invariant.waiting
  | called thread id_ idEq numberEq made jobsEq outstandings_ =>
      exact invariant.of_called grows id_ idEq numberEq made jobsEq outstandings_ few
  | registered thread rest found jobsEq noneMade outstandings_ =>
      refine invariant.of_moved grows noneMade found jobsEq id ?_ ?_ fun _ => trivial
      · intro other different
        rw [outstandings_, Function.update_of_ne different]
      · intro _
        obtain ⟨-, numberEq, callEq⟩ :=
          invariant.fits _ _ (found ▸ Multiset.mem_cons_self _ _)
        rw [outstandings_, Function.update_self, entry, callEq, Option.map_some, numberEq]
  | carried id old new rest follows found jobsEq noneMade outstandings_ =>
      have bothWait := follows.waiting
      refine invariant.of_moved grows noneMade found jobsEq (·.follows follows) ?_ ?_
        fun _ => bothWait.2
      · intro other _
        rw [outstandings_]
      · intro _
        rw [outstandings_]
        exact invariant.registered id old (found ▸ Multiset.mem_cons_self _ _) bothWait.1
  | finished message out rest found registered jobsEq noneMade outstandings_ =>
      have member : (message.id, Stage.replied message) ∈ world.jobs side :=
        found ▸ Multiset.mem_cons_self _ _
      have outEq : some out = entry (world.channel side).made message.id :=
        registered.symm.trans (invariant.registered _ _ member trivial)
      refine invariant.of_moved grows noneMade found jobsEq ?_ ?_ ?_ ?_
      · intro fits
        rw [← noneMade.made] at outEq
        exact ⟨outEq, rfl, fits⟩
      · intro other different
        rw [outstandings_, Function.update_of_ne different]
      · exact False.elim
      · intro stillRegistered
        rw [outstandings_, Function.update_self] at stillRegistered
        exact absurd rfl stillRegistered
  | dropped message rest found unregistered _ =>
      exact absurd unregistered (invariant.registered_of_replied found)

end Invariant

/-! ## All runs -/

section Runs

variable {services : RpcSide → RpcServices} {conn : RpcSide → Nat} {events : List RpcEvent}
  {world : RpcWorld}

theorem reaches_invariant (run : (system services).Reaches (.new conn) events world) :
    ∀ side, (world.channel side).made.length < 2 ^ 64 →
      Invariant (services side.other) world side := by
  refine run.invariant (fun _ world => ∀ side, (world.channel side).made.length < 2 ^ 64 →
    Invariant (services side.other) world side) ?_ ?_
  · exact fun side _ => .new_invariant _ conn side
  · intro events before event after _ invariant offered stepTo side few
    have stepEq := Except.toOption_eq_some_iff.mp stepTo
    have moves := step_moves offered stepEq side
    have fewBefore := Nat.lt_of_le_of_lt moves.made_le few
    exact (invariant side fewBefore).of_moves moves
      ((step_grows offered stepEq).answered side.other) few

/-- How the channels and the connections belong together. -/
structure Wired (world : RpcWorld) : Prop where
  conn_ : ∀ side, (world.channel side).conn_ = world.conn side
  nothingLost : (∀ side, world.connected side = true) → ∀ side, world.lost side = []

theorem Wired.grows {after : RpcWorld} (wired : world.Wired) (grows : Grows world after) :
    after.Wired where
  conn_ := fun side => by rw [grows.conn_, grows.conn, wired.conn_]
  nothingLost := fun connected side => by
    rw [grows.lost connected]
    exact wired.nothingLost (fun side => grows.connected side (connected side)) side

theorem reaches_wired (run : (system services).Reaches (.new conn) events world) :
    world.Wired := by
  refine run.invariant (fun _ world => world.Wired) ⟨fun _ => rfl, fun _ _ => rfl⟩ ?_
  intro events before event after _ wired offered stepTo
  exact wired.grows (step_grows offered (Except.toOption_eq_some_iff.mp stepTo))

/-- The second assertion of `onRpcMessage` holds. -/
theorem Invariant.reply_complete {side : RpcSide} {services : RpcServices}
    (invariant : Invariant services world side) {message : RpcMessage}
    {index : Nat} (wireEq : (world.wire side)[index]? = some message)
    (isReply : message.type = .RESPONSE) :
    message.response.isSome ∨ message.error.isSome := by
  have member : (message.id, Stage.replied message) ∈ world.jobs side := by
    have taken : (message.id, Stage.replied message) ∈
        replyJobs (world.undelivered side) := by
      rw [undelivered_pop wireEq, replyJobs_cons_reply isReply]
      exact Multiset.mem_cons_self _ _
    rw [jobs]
    exact Multiset.mem_add.mpr (.inl (Multiset.mem_add.mpr (.inr taken)))
  obtain ⟨call, -, answers⟩ := invariant.fits _ _ member
  rcases answers with ⟨-, response, replyEq, -⟩ | ⟨error, -, -, replyEq⟩
  · rw [replyEq]
    exact .inl rfl
  · rw [replyEq]
    exact .inr rfl

/-- No assertion fails for a message that arrives. -/
theorem Invariant.dispatch_returns {side : RpcSide}
    (invariant : Invariant (services side.other) world side)
    (noNull : (services side).NoNull) {message : RpcMessage} {index : Nat}
    (wireEq : (world.wire side)[index]? = some message) :
    ∃ result, (world.channel side).dispatch (services side) message = .ok result := by
  unfold RpcChannel.dispatch
  cases typeEq : message.type with
  | REQUEST =>
      obtain ⟨error, verdictEq⟩ := noNull.verdict_ok message
      dsimp only
      rw [Except.bind_of_ok verdictEq]
      split <;> exact ⟨_, rfl⟩
  | RESPONSE =>
      have complete := invariant.reply_complete wireEq typeEq
      exact ⟨_, Except.bind_of_ok (check_of complete) _⟩
  | ERROR => exact ⟨_, rfl⟩

theorem Invariant.step_returns
    (invariant : ∀ side, Invariant (services side.other) world side)
    (wired : world.Wired) (noNull : ∀ side, (services side).NoNull) {event : RpcEvent}
    (offered : world.Offered event) : ∃ after, step services world event = .ok after := by
  cases event with
  | call side call => exact ⟨_, rfl⟩
  | register side index | send side index | finish side index response =>
      simp only [step]
      split <;> exact ⟨_, rfl⟩
  | deliver side index =>
      have wireEq := List.getElem?_eq_getElem offered
      obtain ⟨result, dispatched⟩ := (invariant side).dispatch_returns (noNull side) wireEq
      have handled : (world.channel side).onRpcMessage (services side) (world.conn side)
          _ = .ok result :=
        (Except.bind_of_ok (check_of (wired.conn_ side).symm) _).trans dispatched
      simp only [step, wireEq]
      exact ⟨_, Except.bind_of_ok handled _⟩
  | disconnect side | lose side => exact ⟨_, rfl⟩

theorem mem_jobs_of_finished {side : RpcSide} {call : FinishedCall}
    (member : call ∈ (world.channel side).finished) :
    (call.message.id, Stage.finished call) ∈ world.jobs side := by
  have closed : (call.message.id, Stage.finished call) ∈ finishedJobs (world.channel side) :=
    Multiset.mem_coe.mpr (List.mem_map.mpr ⟨call, member, rfl⟩)
  rw [jobs]
  exact Multiset.mem_add.mpr (.inr closed)

/-- The number of a call goes with its id. -/
theorem Invariant.finished_number {side : RpcSide} {services : RpcServices}
    (invariant : Invariant services world side) {call : FinishedCall}
    (member : call ∈ (world.channel side).finished) :
    call.out.number + 1 = call.message.id := by
  have inJobs := mem_jobs_of_finished member
  have positive := (invariant.bounds inJobs).1
  obtain ⟨outEq, -⟩ := invariant.fits _ _ inJobs
  obtain ⟨made, -, entryEq⟩ := Option.map_eq_some_iff.mp outEq.symm
  rw [← entryEq]
  exact Nat.sub_add_cancel positive

/-- What is known about a call whose reply has been handled. -/
theorem Invariant.finished_call {side : RpcSide} {services : RpcServices}
    (invariant : Invariant services world side) {finished : FinishedCall}
    (member : finished ∈ (world.channel side).finished) : ∃ call,
      (world.channel side).made[finished.out.number]? = some call ∧
        finished = .ofReply ⟨finished.out.number, call.response, call.done⟩
          finished.message ∧
          Answers services (world.channel side.other).answered
            (.ofCall (finished.out.number + 1) call) finished.message := by
  obtain ⟨outEq, handled, call, callEq, answers⟩ :=
    invariant.fits _ _ (mem_jobs_of_finished member)
  rw [entry, callEq, Option.map_some] at outEq
  have numberEq := invariant.finished_number member
  refine ⟨call, ?_, ?_, ?_⟩
  · rw [← callEq, ← numberEq]
    rfl
  · rw [Option.some.inj outEq] at handled
    rw [← numberEq] at handled
    exact handled
  · rw [numberEq]
    exact answers

theorem Invariant.finished_ids {side : RpcSide} {services : RpcServices}
    (invariant : Invariant services world side) :
    (world.channel side).finished.map (·.message.id) =
      (world.channel side).finished.map (·.out.number + 1) :=
  List.map_congr_left fun _ member => (invariant.finished_number member).symm

/-- The finished calls are some of the calls, each once. -/
theorem Invariant.finished_nodup {side : RpcSide} {services : RpcServices}
    (invariant : Invariant services world side) :
    ((world.channel side).finished.map (·.out.number)).Nodup := by
  have nodup : ((world.jobs side).map Prod.fst).Nodup := by
    rw [invariant.ids, Multiset.coe_nodup]
    exact List.nodup_range'
  rw [jobs, Multiset.map_add] at nodup
  have closed := Multiset.nodup_of_le (Multiset.le_add_left _ _) nodup
  rw [finishedJobs, Multiset.map_coe, Multiset.coe_nodup, List.map_map] at closed
  refine List.Nodup.of_map (· + 1) ?_
  rw [List.map_map]
  exact invariant.finished_ids ▸ closed

/-- Nothing is going on: no thread is in `CallMethod`, no method runs, and no message is
on its way. -/
def Quiet (world : RpcWorld) : Prop :=
  ∀ side, (world.channel side).calling = [] ∧ (world.channel side).serving = [] ∧
    world.wire side = []

/-- The ids of the calls of a side whose request or reply is lost. -/
def lostIds (world : RpcWorld) (side : RpcSide) : List Nat :=
  ((world.lost side.other).filter (·.type = .REQUEST)).map (·.id) ++
    ((world.lost side).filter (·.type = .RESPONSE)).map (·.id)

/-- The calls of a side whose request or reply is lost. -/
def lostJobs (world : RpcWorld) (side : RpcSide) : Jobs :=
  requestJobs (world.lost side.other) + replyJobs (world.lost side)

theorem messageJobs_ids (type : MessageType) (stage : RpcMessage → Stage)
    (messages : List RpcMessage) : (messageJobs type stage messages).map Prod.fst =
      ((messages.filter (·.type = type)).map (·.id) : List Nat) := by
  induction messages with
  | nil => rfl
  | cons message messages hypothesis =>
      rw [← Multiset.cons_coe]
      by_cases sameType : message.type = type
      · rw [messageJobs_cons_same sameType, Multiset.map_cons, hypothesis]
        simp [sameType]
      · rw [messageJobs_cons_other sameType, hypothesis]
        simp [sameType]

theorem lostJobs_ids (side : RpcSide) :
    (world.lostJobs side).map Prod.fst = (world.lostIds side : Multiset Nat) := by
  rw [lostJobs, Multiset.map_add, requestJobs, replyJobs, messageJobs_ids, messageJobs_ids,
    Multiset.coe_add, lostIds]

theorem exists_of_mem_messageJobs {type : MessageType} {stage : RpcMessage → Stage}
    {messages : Multiset RpcMessage} {id : Nat} {found : Stage}
    (member : (id, found) ∈ messageJobs type stage messages) :
    ∃ message, found = stage message := by
  obtain ⟨message, -, equal⟩ := (Multiset.mem_filterMap _ _).mp member
  split at equal
  · exact ⟨message, (Prod.mk.inj (Option.some.inj equal)).2.symm⟩
  · cases equal

theorem waiting_of_lost {side : RpcSide} {id : Nat} {stage : Stage}
    (member : (id, stage) ∈ world.lostJobs side) : stage.Waiting := by
  rcases Multiset.mem_add.mp member with isRequest | isReply
  · obtain ⟨message, rfl⟩ := exists_of_mem_messageJobs isRequest
    trivial
  · obtain ⟨message, rfl⟩ := exists_of_mem_messageJobs isReply
    trivial

theorem Quiet.jobs_eq (quiet : world.Quiet) (side : RpcSide) :
    world.jobs side = world.lostJobs side + finishedJobs (world.channel side) := by
  obtain ⟨noThreads, -, noReplies⟩ := quiet side
  obtain ⟨-, noMethods, noRequests⟩ := quiet side.other
  simp [jobs, lostJobs, threadJobs, servingJobs, undelivered, noThreads, noMethods, noReplies,
    noRequests]

/-- At rest every call is finished or lost. -/
theorem Invariant.finished_of_quiet {side : RpcSide} {services : RpcServices}
    (invariant : Invariant services world side) (quiet : world.Quiet) :
    ((world.channel side).finished.map (fun call : FinishedCall => call.out.number + 1) ++
      world.lostIds side).Perm (List.range' 1 (world.channel side).made.length) := by
  have ids := invariant.ids
  rw [quiet.jobs_eq, Multiset.map_add, lostJobs_ids, finishedJobs, Multiset.map_coe,
    List.map_map, Multiset.add_comm, Multiset.coe_add] at ids
  rw [← invariant.finished_ids]
  exact Multiset.coe_eq_coe.mp ids

/-- At rest the lost calls are in `outstandings_`. -/
theorem Invariant.registered_of_quiet {side : RpcSide} {services : RpcServices}
    (invariant : Invariant services world side) (quiet : world.Quiet) (id : Nat) :
    (world.channel side).outstandings_ id ≠ none ↔ id ∈ world.lostIds side := by
  rw [← Multiset.mem_coe, ← lostJobs_ids, Multiset.mem_map]
  constructor
  · intro registered
    obtain ⟨stage, member, waiting⟩ := invariant.waiting id registered
    rw [quiet.jobs_eq] at member
    rcases Multiset.mem_add.mp member with isLost | closed
    · exact ⟨_, isLost, rfl⟩
    · obtain ⟨call, -, equal⟩ := List.mem_map.mp (Multiset.mem_coe.mp closed)
      obtain ⟨-, rfl⟩ := Prod.mk.inj equal
      exact False.elim waiting
  · rintro ⟨⟨id, stage⟩, isLost, rfl⟩
    have member : (id, stage) ∈ world.jobs side := by
      rw [quiet.jobs_eq]
      exact Multiset.mem_add.mpr (.inl isLost)
    have inside := invariant.bounds member
    rw [invariant.registered id stage member (waiting_of_lost isLost), entry,
      List.getElem?_eq_getElem (by omega)]
    simp

/-- Whatever the threads and the methods do, in whatever order messages arrive and methods
finish, and whenever an end is disconnected, no assertion fails at either side and no reply
of a call is handled twice; its closure is run if the call has a response object and a
closure.  When everything has come to rest, every call has been finished or its request or
reply was lost, the lost ones are those left in `outstandings_`, and there are none if both
ends are still connected. -/
theorem calls_finish_once (run : (system services).Reaches (.new conn) events world)
    (noNull : ∀ side, (services side).NoNull)
    (few : ∀ side, (world.channel side).made.length < 2 ^ 64) :
    (∀ event, world.Offered event → ∃ after, step services world event = .ok after) ∧
      ∀ side, ((world.channel side).finished.map (·.out.number)).Nodup ∧
        (∀ finished ∈ (world.channel side).finished, ∃ call,
          (world.channel side).made[finished.out.number]? = some call ∧
            finished.ran = (call.response && call.done)) ∧
        (world.Quiet →
          ((world.channel side).finished.map (fun call : FinishedCall => call.out.number + 1) ++
              world.lostIds side).Perm (List.range' 1 (world.channel side).made.length) ∧
            ∀ id, (world.channel side).outstandings_ id ≠ none ↔
              id ∈ world.lostIds side) ∧
        ((∀ end_, world.connected end_ = true) → world.lostIds side = []) := by
  have invariant := fun side => reaches_invariant run side (few side)
  have wired := reaches_wired run
  refine ⟨fun event => Invariant.step_returns invariant wired noNull, fun side => ?_⟩
  refine ⟨(invariant side).finished_nodup, ?_, ?_, ?_⟩
  · intro finished member
    obtain ⟨call, madeEq, handled, -⟩ := (invariant side).finished_call member
    exact ⟨call, madeEq, by rw [handled]; rfl⟩
  · exact fun quiet => ⟨(invariant side).finished_of_quiet quiet,
      (invariant side).registered_of_quiet quiet⟩
  · intro connected
    have nothingLost := wired.nothingLost connected
    rw [lostIds, nothingLost, nothingLost]
    rfl

/-- One service with one method, which takes requests that are not empty. -/
def echo : RpcSide → RpcServices := fun _ =>
  some fun service =>
    if service = "Echo" then
      some (some fun method =>
        if method = "Say" then some fun request => request ≠ [] else none)
    else none

theorem echo_noNull (side : RpcSide) : (echo side).NoNull := by
  intro registered registeredEq name
  obtain rfl := Option.some.inj registeredEq
  dsimp only
  split <;> simp

/-- The connections of the two ends. -/
def ends : RpcSide → Nat
  | .near => 1
  | .far => 2

/-- Three calls, the last one to a method that does not exist; the second one is answered
before the first. -/
def threeCalls : List RpcEvent :=
  [.call .near ⟨"Echo", "Say", [1], true, true⟩, .call .near ⟨"Echo", "Say", [2], true, true⟩,
    .register .near 1, .send .near 1, .register .near 0, .send .near 0,
    .call .near ⟨"Echo", "Tell", [3], true, true⟩, .register .near 0, .send .near 0,
    .deliver .far 0, .deliver .far 0, .finish .far 0 [12], .deliver .far 0,
    .finish .far 0 [11], .deliver .near 0, .deliver .near 0, .deliver .near 0]

/-- A call without a response object, and two whose replies are lost: one was on its way
when the connection broke, the other is dropped by the end that is not connected. -/
def brokenCalls : List RpcEvent :=
  [.call .near ⟨"Echo", "Say", [4], false, true⟩, .register .near 0, .send .near 0,
    .deliver .far 0, .finish .far 0 [14], .deliver .near 0,
    .call .near ⟨"Echo", "Say", [5], true, true⟩, .register .near 0, .send .near 0,
    .call .near ⟨"Echo", "Say", [6], true, true⟩, .register .near 0, .send .near 0,
    .deliver .far 1, .deliver .far 0, .finish .far 1 [15], .disconnect .far, .lose .near,
    .finish .far 0 [16]]

theorem calls_run : ∃ world,
    (system echo).Reaches (.new ends) (threeCalls ++ brokenCalls) world ∧
    ((world.channel .near).made.length = 6 ∧ (world.channel .far).made.length = 0 ∧
      (world.channel .near).finished.map (·.out.number) = [1, 2, 0, 3] ∧
      (world.channel .near).finished.map (·.ran) = [true, true, true, false] ∧
      world.lostIds .near = [5, 6]) ∧
      ((world.channel .near).calling = [] ∧ (world.channel .near).serving = [] ∧
        world.wire .near = []) ∧
      (world.channel .far).calling = [] ∧ (world.channel .far).serving = [] ∧
        world.wire .far = [] :=
  EventSystem.exists_reaches_of_play (system echo) (.new ends) (threeCalls ++ brokenCalls) _
    (by decide +kernel)

theorem calls_finish_once_broken : ∃ world,
    (system echo).Reaches (.new ends) (threeCalls ++ brokenCalls) world ∧
      (world.channel .near).finished.map (·.out.number) = [1, 2, 0, 3] ∧
        ∀ id, (world.channel .near).outstandings_ id ≠ none ↔ id ∈ [5, 6] := by
  obtain ⟨world, run, ⟨madeNear, madeFar, numbers, -, lost⟩, quietNear, quietFar⟩ := calls_run
  have few : ∀ side, (world.channel side).made.length < 2 ^ 64 := by
    refine forall_sides .near ?_ ?_
    · rw [madeNear]
      decide
    · exact madeFar ▸ Nat.two_pow_pos 64
  have quiet : world.Quiet := forall_sides .near quietNear quietFar
  have atRest := (((calls_finish_once run echo_noNull few).2 .near).2.2.1 quiet).2
  rw [lost] at atRest
  exact ⟨world, run, numbers, atRest⟩

/-- The reply that a call is finished with is the one to its own request: the error that
the other side found with it, or what the method of the other side answered to it. -/
theorem replies_match_calls (run : (system services).Reaches (.new conn) events world)
    (side : RpcSide) (few : (world.channel side).made.length < 2 ^ 64) :
    ∀ finished ∈ (world.channel side).finished, ∃ call,
      (world.channel side).made[finished.out.number]? = some call ∧
        finished.out.response = call.response ∧ finished.out.done = call.done ∧
          Answers (services side.other) (world.channel side.other).answered
            (.ofCall (finished.out.number + 1) call) finished.message := by
  intro finished member
  have invariant := reaches_invariant run side few
  obtain ⟨call, madeEq, handled, answers⟩ := invariant.finished_call member
  exact ⟨call, madeEq, by rw [handled]; rfl, by rw [handled]; rfl, answers⟩

theorem replies_match_calls_three : ∃ world,
    (system echo).Reaches (.new ends) threeCalls world ∧
      (world.channel .near).finished.map (·.out.number) = [1, 2, 0] ∧
      ∀ finished ∈ (world.channel .near).finished, ∃ call,
        (world.channel .near).made[finished.out.number]? = some call ∧
          finished.out.response = call.response ∧ finished.out.done = call.done ∧
            Answers (echo .far) (world.channel .far).answered
              (.ofCall (finished.out.number + 1) call) finished.message := by
  have play : ∃ world, (system echo).Reaches (.new ends) threeCalls world ∧
      (world.channel .near).made.length = 3 ∧
        (world.channel .near).finished.map (·.out.number) = [1, 2, 0] :=
    EventSystem.exists_reaches_of_play (system echo) (.new ends) threeCalls _
      (by decide +kernel)
  obtain ⟨world, run, made, numbers⟩ := play
  have few : (world.channel .near).made.length < 2 ^ 64 := by
    rw [made]
    decide
  exact ⟨world, run, numbers, replies_match_calls run .near few⟩

end Runs

end TcpMysql.RpcWorld
