import Mathlib.Algebra.Group.Nat.Defs
import Mathlib.Data.Multiset.Filter
import TcpMysql.Buffer
import TcpMysql.EventRuns
import TcpMysql.Fallible

/-!
# Remote calls over a connection

The two ends of a connection each have an `RpcChannel`.  Both may call methods of the
other and serve the other's calls, so that requests and replies of both directions
share the connection.  Several threads may be inside `CallMethod` at the same time, and
a method may finish long after it was called, and in another order.

The connection is modelled as the messages that are on their way in both directions.
Threads may overtake each other in `codec_.send`, and nothing is assumed about the order in
which messages arrive.  An end that is no longer `kConnected` drops what it is given to
send, and what was on its way may be lost then.  Number `k` of the calls of a channel stands for the
response object and the closure that were passed to it.
-/

namespace TcpMysql

inductive MessageType
  | REQUEST
  | RESPONSE
  | ERROR
  deriving DecidableEq, Repr

inductive RpcErrorCode
  | NO_ERROR
  | WRONG_PROTO
  | NO_SERVICE
  | NO_METHOD
  | INVALID_REQUEST
  | INVALID_RESPONSE
  | TIMEOUT
  deriving DecidableEq, Repr

structure RpcMessage where
  type : MessageType
  id : Nat
  service : Option String
  method : Option String
  request : Option Bytes
  response : Option Bytes
  error : Option RpcErrorCode
  deriving DecidableEq, Repr

/-- The arguments of `CallMethod`; the last two say that the pointers are not null. -/
structure RpcCall where
  service : String
  method : String
  request : Bytes
  response : Bool
  done : Bool
  deriving DecidableEq, Repr

structure OutstandingCall where
  number : Nat
  response : Bool
  done : Bool
  deriving DecidableEq, Repr

/-- A thread inside `CallMethod`, after it has got its id. -/
structure CallingThread where
  id : Nat
  number : Nat
  call : RpcCall
  registered : Bool
  deriving DecidableEq, Repr

/-- A call whose reply has been handled: what its response object was filled from, and
whether its closure was run. -/
structure FinishedCall where
  out : OutstandingCall
  message : RpcMessage
  parsed : Option Bytes
  ran : Bool
  deriving DecidableEq, Repr

/-- The methods of a service, and which requests a method can parse. -/
abbrev RpcService := String → Option (Bytes → Bool)

/-- `services_`, if it is set: a map from names to pointers, which may be null. -/
abbrev RpcServices := Option (String → Option (Option RpcService))

/-- `conn_` is the address of a connection.  `serving` are the requests whose method has
been called and has not run its closure yet.  `made`, `finished` and `answered` are
histories: the calls made, the replies that were handled, and what the methods have
answered. -/
structure RpcChannel where
  conn_ : Nat
  id_ : Nat
  outstandings_ : Nat → Option OutstandingCall
  calling : List CallingThread
  serving : List RpcMessage
  made : List RpcCall
  finished : List FinishedCall
  answered : List (RpcMessage × Bytes)

inductive RpcFault
  | assertion
  deriving DecidableEq, Repr

namespace RpcMessage

def ofCall (id : Nat) (call : RpcCall) : RpcMessage where
  type := .REQUEST
  id := id
  service := some call.service
  method := some call.method
  request := some call.request
  response := none
  error := none

def ofResponse (id : Nat) (response : Bytes) : RpcMessage where
  type := .RESPONSE
  id := id
  service := none
  method := none
  request := none
  response := some response
  error := none

def ofError (id : Nat) (error : RpcErrorCode) : RpcMessage where
  type := .RESPONSE
  id := id
  service := none
  method := none
  request := none
  response := none
  error := some error

@[simp]
theorem type_ofCall (id : Nat) (call : RpcCall) : (ofCall id call).type = .REQUEST := rfl

@[simp]
theorem type_ofResponse (id : Nat) (response : Bytes) :
    (ofResponse id response).type = .RESPONSE := rfl

@[simp]
theorem type_ofError (id : Nat) (error : RpcErrorCode) :
    (ofError id error).type = .RESPONSE := rfl

/-- What becomes of a request: `NO_ERROR` if its method is called.  A field that is not
set reads as empty. -/
def verdict (services : RpcServices) (message : RpcMessage) : Except RpcFault RpcErrorCode :=
  match services with
  | none => .ok .NO_SERVICE
  | some services =>
      match services (message.service.getD "") with
      | none => .ok .NO_SERVICE
      -- assert(service != NULL)
      | some none => .error .assertion
      | some (some service) =>
          match service (message.method.getD "") with
          | none => .ok .NO_METHOD
          | some parses =>
              .ok (if parses (message.request.getD []) then .NO_ERROR else .INVALID_REQUEST)

end RpcMessage

/-- No null pointer is registered as a service. -/
def RpcServices.NoNull (services : RpcServices) : Prop :=
  ∀ registered, services = some registered → ∀ name, registered name ≠ some none

theorem RpcServices.NoNull.verdict_ok {services : RpcServices} (noNull : services.NoNull)
    (message : RpcMessage) : ∃ error, message.verdict services = .ok error := by
  unfold RpcMessage.verdict
  split
  · exact ⟨_, rfl⟩
  · split
    · exact ⟨_, rfl⟩
    · rename_i found
      exact absurd found (noNull _ rfl _)
    · split <;> exact ⟨_, rfl⟩

/-- What becomes of a call that is taken out of `outstandings_` for a reply.  The closure
runs only if there is a response object, which an error leaves as it is. -/
def FinishedCall.ofReply (out : OutstandingCall) (message : RpcMessage) : FinishedCall where
  out := out
  message := message
  parsed := if out.response then message.response else none
  ran := out.response && out.done

namespace RpcChannel

def new (conn : Nat) : RpcChannel where
  conn_ := conn
  id_ := 0
  outstandings_ := fun _ => none
  calling := []
  serving := []
  made := []
  finished := []
  answered := []

/-- The first part of `CallMethod`: `id_.incrementAndGet()`. -/
def takeId (channel : RpcChannel) (call : RpcCall) : RpcChannel :=
  let id := (channel.id_ + 1) % 2 ^ 64
  { channel with
    id_ := id
    calling := channel.calling ++ [⟨id, channel.made.length, call, false⟩]
    made := channel.made ++ [call] }

/-- The second part of `CallMethod`: the call is entered under the lock. -/
def register (channel : RpcChannel) (index : Nat) (thread : CallingThread) : RpcChannel :=
  { channel with
    outstandings_ := Function.update channel.outstandings_ thread.id
      (some ⟨thread.number, thread.call.response, thread.call.done⟩)
    calling := channel.calling.set index { thread with registered := true } }

/-- A reply: the call is looked up and taken out under the lock. -/
def onResponse (channel : RpcChannel) (message : RpcMessage) : RpcChannel :=
  match channel.outstandings_ message.id with
  | none => channel
  | some out =>
      { channel with
        outstandings_ := Function.update channel.outstandings_ message.id none
        finished := channel.finished ++ [.ofReply out message] }

/-- What `onRpcMessage` does with a message of its connection.  The messages that it sends
are the second part of the result. -/
def dispatch (services : RpcServices) (channel : RpcChannel) (message : RpcMessage) :
    Except RpcFault (RpcChannel × List RpcMessage) :=
  match message.type with
  | .RESPONSE => do
      check .assertion (message.response.isSome ∨ message.error.isSome)
      return (channel.onResponse message, [])
  | .REQUEST => do
      let error ← message.verdict services
      if error = .NO_ERROR then
        return ({ channel with serving := channel.serving ++ [message] }, [])
      else
        return (channel, [.ofError message.id error])
  | .ERROR => .ok (channel, [])

def onRpcMessage (services : RpcServices) (conn : Nat) (channel : RpcChannel)
    (message : RpcMessage) : Except RpcFault (RpcChannel × List RpcMessage) := do
  check .assertion (conn = channel.conn_)
  channel.dispatch services message

end RpcChannel

/-! ## Both ends -/

inductive RpcSide
  | near
  | far
  deriving DecidableEq, Repr

def RpcSide.other : RpcSide → RpcSide
  | .near => .far
  | .far => .near

@[simp]
theorem RpcSide.other_other (side : RpcSide) : side.other.other = side := by
  cases side <;> rfl

@[simp]
theorem RpcSide.other_ne (side : RpcSide) : side.other ≠ side := by
  cases side <;> decide

@[simp]
theorem RpcSide.ne_other (side : RpcSide) : side ≠ side.other := by
  cases side <;> decide

/-- `conn` are the connections of the two ends, and `connected` says that they are
`kConnected`.  `wire side` are the messages on their way to a side, and `lost side` those
to it that never arrive. -/
structure RpcWorld where
  channel : RpcSide → RpcChannel
  conn : RpcSide → Nat
  connected : RpcSide → Bool
  wire : RpcSide → List RpcMessage
  lost : RpcSide → List RpcMessage

inductive RpcEvent
  | call (side : RpcSide) (call : RpcCall)
  | register (side : RpcSide) (index : Nat)
  | send (side : RpcSide) (index : Nat)
  | deliver (side : RpcSide) (index : Nat)
  | finish (side : RpcSide) (index : Nat) (response : Bytes)
  | disconnect (side : RpcSide)
  | lose (side : RpcSide)

namespace RpcWorld

/-- Each end has a channel for its connection, as `RpcServer::onConnection` sets it up. -/
def new (conn : RpcSide → Nat) : RpcWorld where
  channel := fun side => .new (conn side)
  conn := conn
  connected := fun _ => true
  wire := fun _ => []
  lost := fun _ => []

/-- A side has changed and has sent some messages.  `TcpConnection::send` drops them if
the connection is not `kConnected`. -/
def put (world : RpcWorld) (side : RpcSide) (channel : RpcChannel)
    (sent : List RpcMessage) : RpcWorld :=
  { world with
    channel := Function.update world.channel side channel
    wire :=
      if world.connected side then
        Function.update world.wire side.other (world.wire side.other ++ sent)
      else world.wire
    lost :=
      if world.connected side then world.lost
      else Function.update world.lost side.other (world.lost side.other ++ sent) }

/-- A message on its way to a side has arrived. -/
def pop (world : RpcWorld) (side : RpcSide) (index : Nat) : RpcWorld :=
  { world with wire := Function.update world.wire side ((world.wire side).eraseIdx index) }

/-- A thread enters `CallMethod`, registers its call or sends the request; a message
arrives; a method runs its closure, `doneCallback`; a connection goes down; what is on its
way to a side is lost. -/
def step (services : RpcSide → RpcServices) (world : RpcWorld) :
    RpcEvent → Except RpcFault RpcWorld
  | .call side call => .ok (world.put side ((world.channel side).takeId call) [])
  | .register side index =>
      match (world.channel side).calling[index]? with
      | none => .ok world
      | some thread => .ok (world.put side ((world.channel side).register index thread) [])
  | .send side index =>
      match (world.channel side).calling[index]? with
      | none => .ok world
      | some thread =>
          .ok (world.put side
            { world.channel side with
              calling := (world.channel side).calling.eraseIdx index }
            [.ofCall thread.id thread.call])
  | .deliver side index =>
      match (world.wire side)[index]? with
      | none => .ok world
      | some message => do
          let (channel, sent) ←
            (world.channel side).onRpcMessage (services side) (world.conn side) message
          return (world.pop side index).put side channel sent
  | .finish side index response =>
      match (world.channel side).serving[index]? with
      | none => .ok world
      | some message =>
          .ok (world.put side
            { world.channel side with
              serving := (world.channel side).serving.eraseIdx index
              answered := (world.channel side).answered ++ [(message, response)] }
            [.ofResponse message.id response])
  | .disconnect side =>
      .ok { world with connected := Function.update world.connected side false }
  | .lose side =>
      .ok { world with
        wire := Function.update world.wire side []
        lost := Function.update world.lost side (world.lost side ++ world.wire side) }

/-- A thread registers its call before it sends the request, and nothing is lost while
both ends are connected. -/
def Offered (world : RpcWorld) : RpcEvent → Prop
  | .call _ _ => True
  | .register side index =>
      ((world.channel side).calling[index]?).any (fun thread => !thread.registered) = true
  | .send side index =>
      ((world.channel side).calling[index]?).any (·.registered) = true
  | .deliver side index => index < (world.wire side).length
  | .finish side index _ => index < (world.channel side).serving.length
  | .disconnect _ => True
  | .lose side => world.connected side = false ∨ world.connected side.other = false

instance (world : RpcWorld) (event : RpcEvent) : Decidable (world.Offered event) := by
  cases event <;> unfold Offered <;> infer_instance

def system (services : RpcSide → RpcServices) : EventSystem RpcWorld RpcEvent where
  next world event := (step services world event).toOption
  offered := Offered

instance (services : RpcSide → RpcServices) (world : RpcWorld) (event : RpcEvent) :
    Decidable ((system services).offered world event) :=
  inferInstanceAs (Decidable (world.Offered event))

/-! ## Where the calls of a side are -/

/-- How far a call has got. -/
inductive Stage
  | registering (thread : CallingThread)
  | sending (thread : CallingThread)
  | requested (message : RpcMessage)
  | serving (message : RpcMessage)
  | replied (message : RpcMessage)
  | finished (call : FinishedCall)

/-- The stages in which the call is in `outstandings_`. -/
def Stage.Waiting : Stage → Prop
  | .registering _ | .finished _ => False
  | .sending _ | .requested _ | .serving _ | .replied _ => True

/-- The calls of a side, each with its id and how far it has got. -/
abbrev Jobs := Multiset (Nat × Stage)

def threadJob (thread : CallingThread) : Nat × Stage :=
  (thread.id, if thread.registered then .sending thread else .registering thread)

def threadJobs (channel : RpcChannel) : Jobs :=
  (channel.calling.map threadJob : List (Nat × Stage))

/-- The messages of one type, as calls at a stage. -/
def messageJobs (type : MessageType) (stage : RpcMessage → Stage)
    (messages : Multiset RpcMessage) : Jobs :=
  messages.filterMap fun message =>
    if message.type = type then some (message.id, stage message) else none

def requestJobs : Multiset RpcMessage → Jobs := messageJobs .REQUEST .requested

def servingJobs (channel : RpcChannel) : Jobs :=
  (channel.serving.map fun message => (message.id, .serving message) : List (Nat × Stage))

def replyJobs : Multiset RpcMessage → Jobs := messageJobs .RESPONSE .replied

def finishedJobs (channel : RpcChannel) : Jobs :=
  (channel.finished.map fun call => (call.message.id, .finished call) : List (Nat × Stage))

/-- The messages to a side that have not arrived: they are on their way or lost. -/
def undelivered (world : RpcWorld) (side : RpcSide) : Multiset RpcMessage :=
  (world.wire side : Multiset RpcMessage) + (world.lost side : Multiset RpcMessage)

/-- The calls of a side are found at both ends and between them in both directions.  A call
whose request or reply is lost stays where it was lost. -/
def jobs (world : RpcWorld) (side : RpcSide) : Jobs :=
  threadJobs (world.channel side) + requestJobs (world.undelivered side.other) +
    servingJobs (world.channel side.other) + replyJobs (world.undelivered side) +
    finishedJobs (world.channel side)

/-! ## What one step does to the calls of a side -/

section Places

variable {channel : RpcChannel} {messages : Multiset RpcMessage} {message : RpcMessage}

theorem messageJobs_cons_same {type : MessageType} {stage : RpcMessage → Stage}
    (same : message.type = type) : messageJobs type stage (message ::ₘ messages) =
      (message.id, stage message) ::ₘ messageJobs type stage messages :=
  Multiset.filterMap_cons_some _ _ _ (if_pos same)

theorem messageJobs_cons_other {type : MessageType} {stage : RpcMessage → Stage}
    (other : message.type ≠ type) :
    messageJobs type stage (message ::ₘ messages) = messageJobs type stage messages :=
  Multiset.filterMap_cons_none _ _ (if_neg other)

theorem requestJobs_cons_request (isRequest : message.type = .REQUEST) :
    requestJobs (message ::ₘ messages) =
      (message.id, .requested message) ::ₘ requestJobs messages :=
  messageJobs_cons_same isRequest

theorem requestJobs_cons_other (isOther : message.type ≠ .REQUEST) :
    requestJobs (message ::ₘ messages) = requestJobs messages :=
  messageJobs_cons_other isOther

theorem replyJobs_cons_reply (isReply : message.type = .RESPONSE) :
    replyJobs (message ::ₘ messages) =
      (message.id, .replied message) ::ₘ replyJobs messages :=
  messageJobs_cons_same isReply

theorem replyJobs_cons_other (isOther : message.type ≠ .RESPONSE) :
    replyJobs (message ::ₘ messages) = replyJobs messages :=
  messageJobs_cons_other isOther

/-- A thread is one of the threads. -/
theorem threadJobs_eraseIdx {index : Nat} {thread : CallingThread}
    (found : channel.calling[index]? = some thread) :
    threadJobs channel = threadJob thread ::ₘ
      threadJobs { channel with calling := channel.calling.eraseIdx index } := by
  obtain ⟨inside, rfl⟩ := List.getElem?_eq_some_iff.mp found
  have split := (List.getElem_cons_eraseIdx_perm inside).map threadJob
  exact (Multiset.coe_eq_coe.mpr split).symm

theorem threadJobs_set {index : Nat} (inside : index < channel.calling.length)
    (thread : CallingThread) :
    threadJobs { channel with calling := channel.calling.set index thread } =
      threadJob thread ::ₘ
        threadJobs { channel with calling := channel.calling.eraseIdx index } :=
  Multiset.coe_eq_coe.mpr ((List.set_perm_cons_eraseIdx inside thread).map threadJob)

theorem servingJobs_eraseIdx {index : Nat}
    (found : channel.serving[index]? = some message) :
    servingJobs channel = (message.id, .serving message) ::ₘ
      servingJobs { channel with serving := channel.serving.eraseIdx index } := by
  obtain ⟨inside, rfl⟩ := List.getElem?_eq_some_iff.mp found
  have split := (List.getElem_cons_eraseIdx_perm inside).map
    fun message => (message.id, Stage.serving message)
  exact (Multiset.coe_eq_coe.mpr split).symm

end Places

/-- A reply goes to a call: it is what the method has answered, or the error that the other
side found. -/
def Answers (services : RpcServices) (answered : List (RpcMessage × Bytes))
    (request reply : RpcMessage) : Prop :=
  (request.verdict services = .ok .NO_ERROR ∧
      ∃ response, reply = .ofResponse request.id response ∧ (request, response) ∈ answered) ∨
    ∃ error, error ≠ .NO_ERROR ∧ request.verdict services = .ok error ∧
      reply = .ofError request.id error

/-- How a call gets on between its registration and its reply. -/
inductive Follows (services : RpcServices) (answered : List (RpcMessage × Bytes)) :
    Stage → Stage → Prop
  | sent (thread : CallingThread) :
      Follows services answered (.sending thread) (.requested (.ofCall thread.id thread.call))
  | accepted {message : RpcMessage} (accepts : message.verdict services = .ok .NO_ERROR) :
      Follows services answered (.requested message) (.serving message)
  | refused {message : RpcMessage} {error : RpcErrorCode} (refuses : error ≠ .NO_ERROR)
      (found : message.verdict services = .ok error) :
      Follows services answered (.requested message) (.replied (.ofError message.id error))
  | answered {message : RpcMessage} {response : Bytes}
      (member : (message, response) ∈ answered) :
      Follows services answered (.serving message)
        (.replied (.ofResponse message.id response))

/-- No call has been made at a side. -/
structure NoneMade (before after : RpcWorld) (side : RpcSide) : Prop where
  made : (after.channel side).made = (before.channel side).made
  id_ : (after.channel side).id_ = (before.channel side).id_

/-- What a step can do to the calls of a side. -/
inductive Moves (services : RpcServices) (before after : RpcWorld) (side : RpcSide) : Prop
  | same (jobs : after.jobs side = before.jobs side) (noneMade : NoneMade before after side)
      (outstandings_ : (after.channel side).outstandings_ =
        (before.channel side).outstandings_)
  | called (thread : CallingThread)
      (id_ : (after.channel side).id_ = thread.id)
      (idEq : thread.id = ((before.channel side).id_ + 1) % 2 ^ 64)
      (numberEq : thread.number = (before.channel side).made.length)
      (made : (after.channel side).made = (before.channel side).made ++ [thread.call])
      (jobs : after.jobs side = (thread.id, .registering thread) ::ₘ before.jobs side)
      (outstandings_ : (after.channel side).outstandings_ =
        (before.channel side).outstandings_)
  | registered (thread : CallingThread) (rest : Jobs)
      (found : before.jobs side = (thread.id, .registering thread) ::ₘ rest)
      (jobs : after.jobs side =
        (thread.id, .sending { thread with registered := true }) ::ₘ rest)
      (noneMade : NoneMade before after side)
      (outstandings_ : (after.channel side).outstandings_ =
        Function.update (before.channel side).outstandings_ thread.id
          (some ⟨thread.number, thread.call.response, thread.call.done⟩))
  | carried (id : Nat) (old new : Stage) (rest : Jobs)
      (follows : Follows services (after.channel side.other).answered old new)
      (found : before.jobs side = (id, old) ::ₘ rest)
      (jobs : after.jobs side = (id, new) ::ₘ rest)
      (noneMade : NoneMade before after side)
      (outstandings_ : (after.channel side).outstandings_ =
        (before.channel side).outstandings_)
  | finished (message : RpcMessage) (out : OutstandingCall) (rest : Jobs)
      (found : before.jobs side = (message.id, .replied message) ::ₘ rest)
      (registered : (before.channel side).outstandings_ message.id = some out)
      (jobs : after.jobs side = (message.id, .finished (.ofReply out message)) ::ₘ rest)
      (noneMade : NoneMade before after side)
      (outstandings_ : (after.channel side).outstandings_ =
        Function.update (before.channel side).outstandings_ message.id none)
  | dropped (message : RpcMessage) (rest : Jobs)
      (found : before.jobs side = (message.id, .replied message) ::ₘ rest)
      (unregistered : (before.channel side).outstandings_ message.id = none)
      (noneMade : NoneMade before after side)

theorem Moves.made_le {services : RpcServices} {before after : RpcWorld} {side : RpcSide}
    (moves : Moves services before after side) :
    (before.channel side).made.length ≤ (after.channel side).made.length := by
  cases moves with
  | same _ noneMade _ | registered _ _ _ _ noneMade _ | carried _ _ _ _ _ _ _ noneMade _
  | finished _ _ _ _ _ _ noneMade _ | dropped _ _ _ _ noneMade => rw [noneMade.made]
  | called thread _ _ _ made _ _ =>
      rw [made, List.length_append]
      exact Nat.le_add_right _ _

section Steps

variable {services : RpcSide → RpcServices} {world : RpcWorld} {side : RpcSide}
  {channel : RpcChannel} {sent : List RpcMessage}

@[simp]
theorem put_channel : (world.put side channel sent).channel side = channel := by
  simp [put]

@[simp]
theorem put_channel_other :
    (world.put side channel sent).channel side.other = world.channel side.other := by
  simp [put]

theorem undelivered_put :
    (world.put side channel sent).undelivered side = world.undelivered side := by
  cases isConnected : world.connected side <;> simp [undelivered, put, isConnected]

theorem undelivered_put_other : (world.put side channel sent).undelivered side.other =
    (sent : Multiset RpcMessage) + world.undelivered side.other := by
  cases isConnected : world.connected side with
  | false =>
      simp only [undelivered, put, isConnected, Bool.false_eq_true, if_false,
        Function.update_self, ← Multiset.coe_add]
      rw [← Multiset.add_assoc, Multiset.add_comm]
  | true =>
      simp only [undelivered, put, isConnected, if_true, Function.update_self,
        ← Multiset.coe_add]
      rw [Multiset.add_comm (world.wire side.other : Multiset RpcMessage),
        Multiset.add_assoc]

theorem jobs_put : (world.put side channel sent).jobs side =
    threadJobs channel + requestJobs (sent + world.undelivered side.other) +
      servingJobs (world.channel side.other) + replyJobs (world.undelivered side) +
      finishedJobs channel := by
  rw [jobs, put_channel, put_channel_other, undelivered_put, undelivered_put_other]

theorem jobs_put_other : (world.put side channel sent).jobs side.other =
    threadJobs (world.channel side.other) + requestJobs (world.undelivered side) +
      servingJobs channel + replyJobs (sent + world.undelivered side.other) +
      finishedJobs (world.channel side.other) := by
  rw [jobs, RpcSide.other_other, put_channel, put_channel_other, undelivered_put,
    undelivered_put_other]

theorem jobs_other : world.jobs side.other =
    threadJobs (world.channel side.other) + requestJobs (world.undelivered side) +
      servingJobs (world.channel side) + replyJobs (world.undelivered side.other) +
      finishedJobs (world.channel side.other) := by
  rw [jobs, RpcSide.other_other]

theorem forall_sides (side : RpcSide) {property : RpcSide → Prop} (atSide : property side)
    (atOther : property side.other) : ∀ side, property side := by
  intro other
  cases side <;> cases other <;> assumption

/-! A step changes the channel of one side, perhaps after a message has arrived there.
`put_self` is about the calls of that side, the others about those of the other side. -/

section Put

variable {services : RpcServices} {before : RpcWorld}

theorem Moves.put_self (made : channel.made = (before.channel side).made)
    (id_ : channel.id_ = (before.channel side).id_)
    (outstandings_ : channel.outstandings_ = (before.channel side).outstandings_)
    (same : (world.put side channel sent).jobs side = before.jobs side) :
    Moves services before (world.put side channel sent) side :=
  .same same ⟨by rw [put_channel, made], by rw [put_channel, id_]⟩
    (by rw [put_channel, outstandings_])

theorem Moves.put_other (channels : world.channel = before.channel)
    (same : (world.put side channel sent).jobs side.other = before.jobs side.other) :
    Moves services before (world.put side channel sent) side.other :=
  .same same ⟨by rw [put_channel_other, channels], by rw [put_channel_other, channels]⟩
    (by rw [put_channel_other, channels])

theorem Moves.carried_other {id : Nat} {old new : Stage} {rest : Jobs}
    (channels : world.channel = before.channel)
    (follows : Follows services channel.answered old new)
    (found : before.jobs side.other = (id, old) ::ₘ rest)
    (jobsEq : (world.put side channel sent).jobs side.other = (id, new) ::ₘ rest) :
    Moves services before (world.put side channel sent) side.other := by
  refine .carried id old new rest ?_ found jobsEq
    ⟨by rw [put_channel_other, channels], by rw [put_channel_other, channels]⟩
    (by rw [put_channel_other, channels])
  rw [RpcSide.other_other, put_channel]
  exact follows

end Put

theorem call_moves (call : RpcCall) : ∀ side',
    Moves (services side'.other) world
      (world.put side ((world.channel side).takeId call) []) side' := by
  refine forall_sides side ?_ ?_
  · have threads : threadJobs ((world.channel side).takeId call) =
        (((world.channel side).id_ + 1) % 2 ^ 64, .registering
          ⟨((world.channel side).id_ + 1) % 2 ^ 64, (world.channel side).made.length, call,
            false⟩) ::ₘ threadJobs (world.channel side) := by
      simp [threadJobs, RpcChannel.takeId, threadJob]
    refine .called ⟨_, _, call, false⟩ (by rw [put_channel]; rfl) rfl rfl
      (by rw [put_channel]; rfl) ?_ (by rw [put_channel]; rfl)
    rw [jobs_put, threads, Multiset.coe_nil, Multiset.zero_add, jobs]
    simp only [Multiset.cons_add]
    rfl
  · refine .put_other rfl ?_
    rw [jobs_put_other, jobs_other, Multiset.coe_nil, Multiset.zero_add]
    rfl

theorem register_moves {index : Nat} {thread : CallingThread}
    (found : (world.channel side).calling[index]? = some thread)
    (fresh : thread.registered = false) : ∀ side',
    Moves (services side'.other) world
      (world.put side ((world.channel side).register index thread) []) side' := by
  obtain ⟨inside, -⟩ := List.getElem?_eq_some_iff.mp found
  refine forall_sides side ?_ ?_
  · refine .registered thread
      (threadJobs { world.channel side with
          calling := (world.channel side).calling.eraseIdx index } +
        requestJobs (world.undelivered side.other) + servingJobs (world.channel side.other) +
        replyJobs (world.undelivered side) + finishedJobs (world.channel side)) ?_ ?_
      ⟨by rw [put_channel]; rfl, by rw [put_channel]; rfl⟩ (by rw [put_channel]; rfl)
    · rw [jobs, threadJobs_eraseIdx found]
      simp only [Multiset.cons_add, threadJob, fresh, Bool.false_eq_true, if_false]
    · have threads : threadJobs ((world.channel side).register index thread) = _ :=
        threadJobs_set inside { thread with registered := true }
      rw [jobs_put, threads, Multiset.coe_nil, Multiset.zero_add]
      simp only [Multiset.cons_add, threadJob, if_true]
      rfl
  · refine .put_other rfl ?_
    rw [jobs_put_other, jobs_other, Multiset.coe_nil, Multiset.zero_add]
    rfl

theorem send_moves {index : Nat} {thread : CallingThread}
    (found : (world.channel side).calling[index]? = some thread)
    (ready : thread.registered = true) : ∀ side',
    Moves (services side'.other) world
      (world.put side
        { world.channel side with
          calling := (world.channel side).calling.eraseIdx index }
        [.ofCall thread.id thread.call]) side' := by
  refine forall_sides side ?_ ?_
  · refine .carried thread.id (.sending thread) (.requested (.ofCall thread.id thread.call))
      (threadJobs { world.channel side with
          calling := (world.channel side).calling.eraseIdx index } +
        requestJobs (world.undelivered side.other) + servingJobs (world.channel side.other) +
        replyJobs (world.undelivered side) + finishedJobs (world.channel side)) (.sent thread) ?_ ?_
      ⟨by rw [put_channel], by rw [put_channel]⟩ (by rw [put_channel])
    · rw [jobs, threadJobs_eraseIdx found]
      simp only [Multiset.cons_add, threadJob, ready, if_true]
    · rw [jobs_put, Multiset.coe_singleton, Multiset.singleton_add, requestJobs_cons_request rfl]
      simp only [Multiset.add_cons, Multiset.cons_add]
      rfl
  · refine .put_other rfl ?_
    rw [jobs_put_other, jobs_other, Multiset.coe_singleton, Multiset.singleton_add,
      replyJobs_cons_other (by simp)]
    rfl

theorem finish_moves {index : Nat} {message : RpcMessage} {response : Bytes}
    (found : (world.channel side).serving[index]? = some message) : ∀ side',
    Moves (services side'.other) world
      (world.put side
        { world.channel side with
          serving := (world.channel side).serving.eraseIdx index
          answered := (world.channel side).answered ++ [(message, response)] }
        [.ofResponse message.id response]) side' := by
  refine forall_sides side ?_ ?_
  · refine .put_self rfl rfl rfl ?_
    rw [jobs_put, jobs, Multiset.coe_singleton, Multiset.singleton_add,
      requestJobs_cons_other (by simp)]
    rfl
  · have serves : world.jobs side.other = (message.id, .serving message) ::ₘ
        (threadJobs (world.channel side.other) + requestJobs (world.undelivered side) +
          servingJobs { world.channel side with
            serving := (world.channel side).serving.eraseIdx index } +
          replyJobs (world.undelivered side.other) +
          finishedJobs (world.channel side.other)) := by
      rw [jobs_other, servingJobs_eraseIdx found]
      simp only [Multiset.add_cons, Multiset.cons_add]
    have noted : (message, response) ∈ (world.channel side).answered ++ [(message, response)] :=
      List.mem_append_right _ List.mem_cons_self
    refine .carried_other rfl (.answered noted) serves ?_
    rw [jobs_put_other, Multiset.coe_singleton, Multiset.singleton_add,
      replyJobs_cons_reply rfl]
    simp only [Multiset.add_cons, Multiset.cons_add]
    rfl

theorem undelivered_pop {message : RpcMessage} {index : Nat}
    (wireEq : (world.wire side)[index]? = some message) :
    world.undelivered side = message ::ₘ (world.pop side index).undelivered side := by
  obtain ⟨inside, rfl⟩ := List.getElem?_eq_some_iff.mp wireEq
  have split := Multiset.coe_eq_coe.mpr (List.getElem_cons_eraseIdx_perm inside)
  simp only [undelivered, pop, Function.update_self]
  rw [← Multiset.cons_add, Multiset.cons_coe, split]

theorem undelivered_pop_other (index : Nat) :
    (world.pop side index).undelivered side.other = world.undelivered side.other := by
  simp [undelivered, pop]

/-- A reply arrives. -/
theorem response_moves {message : RpcMessage} {index : Nat}
    (wireEq : (world.wire side)[index]? = some message) (isReply : message.type = .RESPONSE) :
    ∀ side', Moves (services side'.other) world
      ((world.pop side index).put side ((world.channel side).onResponse message) []) side' := by
  have taken : replyJobs (world.undelivered side) =
      (message.id, .replied message) ::ₘ replyJobs ((world.pop side index).undelivered side) := by
    rw [undelivered_pop wireEq, replyJobs_cons_reply isReply]
  have notRequest : requestJobs (world.undelivered side) =
      requestJobs ((world.pop side index).undelivered side) := by
    rw [undelivered_pop wireEq, requestJobs_cons_other (by rw [isReply]; decide)]
  refine forall_sides side ?_ ?_
  · have found : world.jobs side = (message.id, .replied message) ::ₘ
        (threadJobs (world.channel side) + requestJobs (world.undelivered side.other) +
          servingJobs (world.channel side.other) +
          replyJobs ((world.pop side index).undelivered side) +
          finishedJobs (world.channel side)) := by
      rw [jobs, taken]
      simp only [Multiset.add_cons, Multiset.cons_add]
    cases lookup : (world.channel side).outstandings_ message.id with
    | none =>
        have ignored : (world.channel side).onResponse message = world.channel side := by
          rw [RpcChannel.onResponse, lookup]
        exact .dropped message _ found lookup
          ⟨by rw [put_channel, ignored], by rw [put_channel, ignored]⟩
    | some out =>
        have handled : (world.channel side).onResponse message =
            { world.channel side with
              outstandings_ :=
                Function.update (world.channel side).outstandings_ message.id none
              finished := (world.channel side).finished ++ [.ofReply out message] } := by
          rw [RpcChannel.onResponse, lookup]
        refine .finished message out _ found lookup ?_
          ⟨by rw [put_channel, handled], by rw [put_channel, handled]⟩
          (by rw [put_channel, handled])
        have closed : finishedJobs ((world.channel side).onResponse message) =
            (message.id, .finished (.ofReply out message)) ::ₘ
              finishedJobs (world.channel side) := by
          rw [handled]
          simp [finishedJobs, FinishedCall.ofReply]
        rw [jobs_put, closed, Multiset.coe_nil, Multiset.zero_add, undelivered_pop_other, handled]
        simp only [Multiset.add_cons]
        rfl
  · refine .put_other rfl ?_
    have served : servingJobs ((world.channel side).onResponse message) =
        servingJobs (world.channel side) := by
      unfold RpcChannel.onResponse
      split <;> rfl
    rw [jobs_put_other, jobs_other, Multiset.coe_nil, Multiset.zero_add, undelivered_pop_other,
      notRequest, served]
    rfl

/-- A request arrives: its method is called, or an error is sent back. -/
theorem request_moves {message : RpcMessage} {index : Nat}
    (wireEq : (world.wire side)[index]? = some message) (isRequest : message.type = .REQUEST)
    (handled : (world.channel side).dispatch (services side) message =
      .ok (channel, sent)) : ∀ side', Moves (services side'.other) world
      ((world.pop side index).put side channel sent) side' := by
  have taken : requestJobs (world.undelivered side) =
      (message.id, .requested message) ::ₘ
        requestJobs ((world.pop side index).undelivered side) := by
    rw [undelivered_pop wireEq, requestJobs_cons_request isRequest]
  have notReply : replyJobs (world.undelivered side) =
      replyJobs ((world.pop side index).undelivered side) := by
    rw [undelivered_pop wireEq, replyJobs_cons_other (by rw [isRequest]; decide)]
  have found : world.jobs side.other = (message.id, .requested message) ::ₘ
      (threadJobs (world.channel side.other) +
        requestJobs ((world.pop side index).undelivered side) +
        servingJobs (world.channel side) + replyJobs (world.undelivered side.other) +
        finishedJobs (world.channel side.other)) := by
    rw [jobs_other, taken]
    simp only [Multiset.add_cons, Multiset.cons_add]
  rw [RpcChannel.dispatch, isRequest] at handled
  obtain ⟨error, verdictEq, handled⟩ := Except.bind_eq_ok.mp handled
  rw [← RpcSide.other_other side] at verdictEq
  by_cases accepts : error = .NO_ERROR
  · rw [if_pos accepts] at handled
    obtain ⟨rfl, rfl⟩ := Prod.mk.inj (Except.ok.inj handled)
    refine forall_sides side ?_ ?_
    · refine .put_self rfl rfl rfl ?_
      rw [jobs_put, jobs, Multiset.coe_nil, Multiset.zero_add, undelivered_pop_other, notReply]
      rfl
    · refine .carried_other rfl (.accepted (accepts ▸ verdictEq)) found ?_
      have served : servingJobs { world.channel side with
            serving := (world.channel side).serving ++ [message] } =
          (message.id, .serving message) ::ₘ servingJobs (world.channel side) := by
        simp [servingJobs]
      rw [jobs_put_other, Multiset.coe_nil, Multiset.zero_add, undelivered_pop_other, served]
      simp only [Multiset.add_cons, Multiset.cons_add]
      rfl
  · rw [if_neg accepts] at handled
    obtain ⟨rfl, rfl⟩ := Prod.mk.inj (Except.ok.inj handled)
    refine forall_sides side ?_ ?_
    · refine .put_self rfl rfl rfl ?_
      rw [jobs_put, jobs, Multiset.coe_singleton, Multiset.singleton_add,
        requestJobs_cons_other (by simp), undelivered_pop_other, notReply]
      rfl
    · refine .carried_other rfl (.refused accepts verdictEq) found ?_
      rw [jobs_put_other, Multiset.coe_singleton, Multiset.singleton_add,
        replyJobs_cons_reply rfl, undelivered_pop_other]
      simp only [Multiset.add_cons, Multiset.cons_add]
      rfl

theorem error_moves {message : RpcMessage} {index : Nat}
    (wireEq : (world.wire side)[index]? = some message) (isError : message.type = .ERROR) :
    ∀ side', Moves (services side'.other) world
      ((world.pop side index).put side (world.channel side) []) side' := by
  refine forall_sides side ?_ ?_
  · refine .put_self rfl rfl rfl ?_
    rw [jobs_put, jobs, Multiset.coe_nil, Multiset.zero_add, undelivered_pop_other,
      undelivered_pop wireEq, replyJobs_cons_other (by rw [isError]; decide)]
    rfl
  · refine .put_other rfl ?_
    rw [jobs_put_other, jobs_other, Multiset.coe_nil, Multiset.zero_add, undelivered_pop_other,
      undelivered_pop wireEq, requestJobs_cons_other (by rw [isError]; decide)]
    rfl

/-- The message comes from the connection of the channel. -/
theorem dispatch_of_onRpcMessage {services : RpcServices} {conn : Nat} {message : RpcMessage}
    {before : RpcChannel}
    (handled : before.onRpcMessage services conn message = .ok (channel, sent)) :
    before.dispatch services message = .ok (channel, sent) := by
  obtain ⟨-, -, dispatched⟩ := Except.bind_eq_ok.mp handled
  exact dispatched

theorem deliver_moves {message : RpcMessage} {index : Nat}
    (wireEq : (world.wire side)[index]? = some message)
    (handled : (world.channel side).dispatch (services side) message =
      .ok (channel, sent)) : ∀ side', Moves (services side'.other) world
      ((world.pop side index).put side channel sent) side' := by
  cases typeEq : message.type with
  | REQUEST => exact request_moves wireEq typeEq handled
  | RESPONSE =>
      rw [RpcChannel.dispatch, typeEq] at handled
      obtain ⟨-, -, returned⟩ := Except.bind_eq_ok.mp handled
      obtain ⟨rfl, rfl⟩ := Prod.mk.inj (Except.ok.inj returned)
      exact response_moves wireEq typeEq
  | ERROR =>
      rw [RpcChannel.dispatch, typeEq] at handled
      obtain ⟨rfl, rfl⟩ := Prod.mk.inj (Except.ok.inj handled)
      exact error_moves wireEq typeEq

/-- The messages change their places between the ends, and nothing else changes. -/
theorem same_moves {after : RpcWorld} (channels : after.channel = world.channel)
    (messages : ∀ side, after.undelivered side = world.undelivered side) (side' : RpcSide) :
    Moves (services side'.other) world after side' := by
  refine .same ?_ ⟨by rw [channels], by rw [channels]⟩ (by rw [channels])
  rw [jobs, jobs, channels, messages, messages]

theorem undelivered_lose (side' : RpcSide) :
    { world with
      wire := Function.update world.wire side []
      lost := Function.update world.lost side (world.lost side ++ world.wire side)
      }.undelivered side' = world.undelivered side' := by
  by_cases same : side' = side
  · subst same
    simp [undelivered, ← Multiset.coe_add, Multiset.add_comm]
  · simp [undelivered, Function.update_of_ne same]

theorem step_moves {event : RpcEvent} {after : RpcWorld} (offered : world.Offered event)
    (stepTo : step services world event = .ok after) :
    ∀ side, Moves (services side.other) world after side := by
  cases event with
  | call side call =>
      obtain rfl := Except.ok.inj stepTo
      exact call_moves call
  | register side index =>
      obtain ⟨thread, found, fresh⟩ := (Option.any_eq_true _ _).mp offered
      simp only [step, found] at stepTo
      obtain rfl := Except.ok.inj stepTo
      exact register_moves found (by simpa using fresh)
  | send side index =>
      obtain ⟨thread, found, ready⟩ := (Option.any_eq_true _ _).mp offered
      simp only [step, found] at stepTo
      obtain rfl := Except.ok.inj stepTo
      exact send_moves found ready
  | deliver side index =>
      have wireEq := List.getElem?_eq_getElem offered
      simp only [step, wireEq] at stepTo
      obtain ⟨⟨channel, sent⟩, handled, returned⟩ := Except.bind_eq_ok.mp stepTo
      obtain rfl := Except.ok.inj returned
      exact deliver_moves wireEq (dispatch_of_onRpcMessage handled)
  | finish side index response =>
      have found := List.getElem?_eq_getElem offered
      simp only [step, found] at stepTo
      obtain rfl := Except.ok.inj stepTo
      exact finish_moves found
  | disconnect side =>
      obtain rfl := Except.ok.inj stepTo
      exact same_moves rfl fun _ => rfl
  | lose side =>
      obtain rfl := Except.ok.inj stepTo
      exact same_moves rfl undelivered_lose

/-- What a message leaves alone. -/
theorem dispatch_keeps {services : RpcServices} {message : RpcMessage} {before : RpcChannel}
    (handled : before.dispatch services message = .ok (channel, sent)) :
    channel.answered = before.answered ∧ channel.conn_ = before.conn_ := by
  unfold RpcChannel.dispatch at handled
  split at handled
  · obtain ⟨-, -, returned⟩ := Except.bind_eq_ok.mp handled
    obtain ⟨rfl, -⟩ := Prod.mk.inj (Except.ok.inj returned)
    unfold RpcChannel.onResponse
    split <;> exact ⟨rfl, rfl⟩
  · obtain ⟨error, -, handled⟩ := Except.bind_eq_ok.mp handled
    split at handled <;>
      (obtain ⟨rfl, -⟩ := Prod.mk.inj (Except.ok.inj handled); exact ⟨rfl, rfl⟩)
  · obtain ⟨rfl, -⟩ := Prod.mk.inj (Except.ok.inj handled)
    exact ⟨rfl, rfl⟩

/-- What holds of both channels in every step: answers are only added, a channel keeps its
connection, and nothing is lost while both ends are connected. -/
structure Grows (before after : RpcWorld) : Prop where
  answered : ∀ side, (before.channel side).answered ⊆ (after.channel side).answered
  conn_ : ∀ side, (after.channel side).conn_ = (before.channel side).conn_
  conn : after.conn = before.conn
  connected : ∀ side, after.connected side = true → before.connected side = true
  lost : (∀ side, after.connected side = true) → after.lost = before.lost

theorem Grows.put (answered : (world.channel side).answered ⊆ channel.answered)
    (conn_ : channel.conn_ = (world.channel side).conn_) :
    Grows world (world.put side channel sent) where
  answered := by
    refine forall_sides side ?_ ?_
    · rwa [put_channel]
    · rw [put_channel_other]
      exact List.Subset.refl _
  conn_ := by
    refine forall_sides side ?_ ?_
    · rwa [put_channel]
    · rw [put_channel_other]
  conn := rfl
  connected := fun _ stays => stays
  lost := fun connected => if_pos (connected side)

/-- A message that arrives is taken from the way before it is handled. -/
theorem Grows.of_pop {after : RpcWorld} {index : Nat} (grows : Grows (world.pop side index) after) :
    Grows world after :=
  ⟨grows.answered, grows.conn_, grows.conn, grows.connected, grows.lost⟩

theorem step_grows {event : RpcEvent} {after : RpcWorld} (offered : world.Offered event)
    (stepTo : step services world event = .ok after) : Grows world after := by
  cases event with
  | call side call =>
      obtain rfl := Except.ok.inj stepTo
      exact .put (List.Subset.refl _) rfl
  | register side index =>
      obtain ⟨thread, found, -⟩ := (Option.any_eq_true _ _).mp offered
      simp only [step, found] at stepTo
      obtain rfl := Except.ok.inj stepTo
      exact .put (List.Subset.refl _) rfl
  | send side index =>
      obtain ⟨thread, found, -⟩ := (Option.any_eq_true _ _).mp offered
      simp only [step, found] at stepTo
      obtain rfl := Except.ok.inj stepTo
      exact .put (List.Subset.refl _) rfl
  | deliver side index =>
      have wireEq := List.getElem?_eq_getElem offered
      simp only [step, wireEq] at stepTo
      obtain ⟨⟨channel, sent⟩, handled, returned⟩ := Except.bind_eq_ok.mp stepTo
      obtain rfl := Except.ok.inj returned
      obtain ⟨answered, conn_⟩ := dispatch_keeps (dispatch_of_onRpcMessage handled)
      exact Grows.of_pop (.put (answered ▸ List.Subset.refl _) conn_)
  | finish side index response =>
      have found := List.getElem?_eq_getElem offered
      simp only [step, found] at stepTo
      obtain rfl := Except.ok.inj stepTo
      exact .put (List.subset_append_left _ _) rfl
  | disconnect side =>
      obtain rfl := Except.ok.inj stepTo
      refine ⟨fun _ => List.Subset.refl _, fun _ => rfl, rfl, ?_, fun _ => rfl⟩
      intro side' stays
      by_cases same : side' = side
      · subst same
        simp at stays
      · simpa [Function.update_of_ne same] using stays
  | lose side =>
      obtain rfl := Except.ok.inj stepTo
      refine ⟨fun _ => List.Subset.refl _, fun _ => rfl, rfl, fun _ stays => stays, ?_⟩
      intro connected
      rcases offered with broken | broken
      · exact absurd (connected side) (by simp [broken])
      · exact absurd (connected side.other) (by simp [broken])

end Steps

end RpcWorld

end TcpMysql
