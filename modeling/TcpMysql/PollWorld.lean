import TcpMysql.EventRuns
import TcpMysql.Fallible
import TcpMysql.TcpConnection
import Mathlib.Logic.Function.Basic

/-!
# Channels and what a poller does for them

A `Channel` says which events of its descriptor it waits for, and hands every
change to the `Poller` of its loop.  There are two pollers, behind the interface
`updateChannel` and `removeChannel`.  The channels are objects on a heap, the
descriptors come from a table of the kernel, and both may be used again when a
channel has been destroyed.

`index_` is a member of the channel that only the poller uses, so it is kept
with the poller here.
-/

namespace TcpMysql

/-! The bits of `poll` and `epoll`, which are the same. -/

def POLLIN : BitVec 32 := 0x001#32
def POLLPRI : BitVec 32 := 0x002#32
def POLLOUT : BitVec 32 := 0x004#32
def POLLERR : BitVec 32 := 0x008#32
def POLLHUP : BitVec 32 := 0x010#32
def POLLNVAL : BitVec 32 := 0x020#32
def POLLRDHUP : BitVec 32 := 0x2000#32

namespace Channel

def kNoneEvent : BitVec 32 := 0
def kReadEvent : BitVec 32 := POLLIN ||| POLLPRI
def kWriteEvent : BitVec 32 := POLLOUT

/-- The mask that the two flags stand for. -/
def events_ (channel : Channel) : BitVec 32 :=
  (if channel.reading then kReadEvent else kNoneEvent) |||
    (if channel.writing then kWriteEvent else kNoneEvent)

def isNoneEvent (channel : Channel) : Bool :=
  channel.events_ == kNoneEvent

theorem isNoneEvent_eq (channel : Channel) :
    channel.isNoneEvent = (!channel.reading && !channel.writing) := by
  obtain ⟨reading, writing, added⟩ := channel
  cases reading <;> cases writing <;> cases added <;> decide

def disableReading (channel : Channel) : Channel :=
  { channel with reading := false, addedToLoop_ := true }

end Channel

/-- The members of `Channel` that call `update`. -/
inductive ChannelOp
  | enableReading
  | disableReading
  | enableWriting
  | disableWriting
  | disableAll
  deriving DecidableEq, Repr

namespace ChannelOp

def apply : ChannelOp → Channel → Channel
  | .enableReading, channel => channel.enableReading
  | .disableReading, channel => channel.disableReading
  | .enableWriting, channel => channel.enableWriting
  | .disableWriting, channel => channel.disableWriting
  | .disableAll, channel => channel.disableAll

/-- The assignment to `events_`. -/
def assign : ChannelOp → BitVec 32 → BitVec 32
  | .enableReading, events => events ||| Channel.kReadEvent
  | .disableReading, events => events &&& ~~~Channel.kReadEvent
  | .enableWriting, events => events ||| Channel.kWriteEvent
  | .disableWriting, events => events &&& ~~~Channel.kWriteEvent
  | .disableAll, _ => Channel.kNoneEvent

/-- The flags follow the assignments to the mask. -/
theorem events_apply (op : ChannelOp) (channel : Channel) :
    (op.apply channel).events_ = op.assign channel.events_ := by
  obtain ⟨reading, writing, added⟩ := channel
  cases op <;> cases reading <;> cases writing <;> cases added <;> decide

@[simp]
theorem addedToLoop_apply (op : ChannelOp) (channel : Channel) :
    (op.apply channel).addedToLoop_ = true := by
  cases op <;> rfl

end ChannelOp

abbrev ChannelPtr := Nat

/-- A channel with its descriptor.  `retired` says that it was removed from the
poller. -/
structure FdChannel where
  fd_ : Nat
  channel : Channel
  retired : Bool
  deriving DecidableEq, Repr

namespace FdChannel

def update (value : FdChannel) (op : ChannelOp) : FdChannel :=
  { value with channel := op.apply value.channel }

def remove (value : FdChannel) : FdChannel :=
  { value with channel := value.channel.remove, retired := true }

@[simp]
theorem update_fd (value : FdChannel) (op : ChannelOp) : (value.update op).fd_ = value.fd_ :=
  rfl

@[simp]
theorem update_added (value : FdChannel) (op : ChannelOp) :
    (value.update op).channel.addedToLoop_ = true :=
  op.addedToLoop_apply value.channel

@[simp]
theorem remove_fd (value : FdChannel) : value.remove.fd_ = value.fd_ :=
  rfl

@[simp]
theorem remove_added (value : FdChannel) : value.remove.channel.addedToLoop_ = false :=
  rfl

@[simp]
theorem remove_isNoneEvent (value : FdChannel) :
    value.remove.channel.isNoneEvent = value.channel.isNoneEvent := by
  simp [remove, Channel.isNoneEvent_eq, Channel.remove]

end FdChannel

/-- The ways a poller can fail: an assertion, a failing `epoll_ctl`, which is
fatal, or a channel that does not exist. -/
inductive PollFault
  | assertion
  | epollCtl
  | deletedChannel
  deriving DecidableEq, Repr

/-- The virtual functions of `Poller`.  `forget` stands for the constructor of a
channel, which sets its `index_` to -1, and `polled` is what a call of `poll` that
reports the given number of events does to the poller itself. -/
structure PollerOps (Poller : Type) where
  forget : Poller → ChannelPtr → Poller
  polled : Poller → Nat → Poller
  updateChannel : Poller → ChannelPtr → FdChannel → Except PollFault Poller
  removeChannel : Poller → ChannelPtr → FdChannel → Except PollFault Poller
  hasChannel : Poller → ChannelPtr → FdChannel → Bool

/-- The channels, the descriptors that are open, and the poller. -/
structure PollWorld (Poller : Type) where
  heap : ChannelPtr → Option FdChannel
  opened : List Nat
  poller : Poller

/-- The life of a channel, and the calls of `poll`. -/
inductive ChannelEvent
  | poll (numEvents : Nat)
  | create (channel : ChannelPtr) (fd : Nat)
  | update (channel : ChannelPtr) (op : ChannelOp)
  | remove (channel : ChannelPtr)
  | destroy (channel : ChannelPtr)
  deriving DecidableEq, Repr

namespace PollWorld

variable {Poller : Type}

def new (poller : Poller) : PollWorld Poller where
  heap _ := none
  opened := []
  poller := poller

def deref (world : PollWorld Poller) (channel : ChannelPtr) :
    Except PollFault FdChannel :=
  match world.heap channel with
  | none => .error .deletedChannel
  | some value => .ok value

def store (world : PollWorld Poller) (channel : ChannelPtr) (value : Option FdChannel) :
    PollWorld Poller :=
  { world with heap := Function.update world.heap channel value }

/-- A new channel for a descriptor that the kernel has just handed out. -/
def create (ops : PollerOps Poller) (world : PollWorld Poller) (channel : ChannelPtr)
    (fd : Nat) : PollWorld Poller :=
  { world.store channel (some ⟨fd, .new, false⟩) with
    opened := fd :: world.opened
    poller := ops.forget world.poller channel }

/-- A change of `events_` and the call of `update`. -/
def update (ops : PollerOps Poller) (world : PollWorld Poller) (channel : ChannelPtr)
    (op : ChannelOp) : Except PollFault (PollWorld Poller) := do
  let value ← world.deref channel
  let poller ← ops.updateChannel world.poller channel (value.update op)
  return { world.store channel (some (value.update op)) with poller := poller }

/-- `Channel::remove`. -/
def remove (ops : PollerOps Poller) (world : PollWorld Poller) (channel : ChannelPtr) :
    Except PollFault (PollWorld Poller) := do
  let value ← world.deref channel
  check .assertion (value.channel.isNoneEvent = true)
  let poller ← ops.removeChannel world.poller channel value.remove
  return { world.store channel (some value.remove) with poller := poller }

/-- The destructor of the channel; its descriptor is closed after it. -/
def destroy (ops : PollerOps Poller) (world : PollWorld Poller) (channel : ChannelPtr) :
    Except PollFault (PollWorld Poller) := do
  let value ← world.deref channel
  check .assertion (value.channel.addedToLoop_ = false)
  check .assertion (ops.hasChannel world.poller channel value = false)
  return { world.store channel none with opened := world.opened.erase value.fd_ }

def step (ops : PollerOps Poller) (world : PollWorld Poller) :
    ChannelEvent → Except PollFault (PollWorld Poller)
  | .poll numEvents => .ok { world with poller := ops.polled world.poller numEvents }
  | .create channel fd => .ok (world.create ops channel fd)
  | .update channel op => world.update ops channel op
  | .remove channel => world.remove ops channel
  | .destroy channel => world.destroy ops channel

/-- What the owner of a channel can do with it: addresses and descriptors are
handed out when they are free, a channel is removed when the loop knows it and it
waits for nothing, and destroyed when the loop does not know it. -/
def Offered (world : PollWorld Poller) : ChannelEvent → Prop
  | .poll _ => True
  | .create channel fd => world.heap channel = none ∧ fd ∉ world.opened
  | .update channel _ => (world.heap channel).isSome = true
  | .remove channel => ∃ value ∈ world.heap channel,
      value.channel.addedToLoop_ = true ∧ value.channel.isNoneEvent = true
  | .destroy channel => ∃ value ∈ world.heap channel, value.channel.addedToLoop_ = false

instance (world : PollWorld Poller) (event : ChannelEvent) :
    Decidable (world.Offered event) :=
  match event with
  | .poll _ => inferInstanceAs (Decidable True)
  | .create _ _ => inferInstanceAs (Decidable (_ ∧ _))
  | .update _ _ => inferInstanceAs (Decidable (_ = _))
  | .remove _ => inferInstanceAs (Decidable (∃ _ ∈ _, _))
  | .destroy _ => inferInstanceAs (Decidable (∃ _ ∈ _, _))

def system (ops : PollerOps Poller) : EventSystem (PollWorld Poller) ChannelEvent where
  next world event := (world.step ops event).toOption
  offered := Offered

instance (ops : PollerOps Poller) (world : PollWorld Poller) (event : ChannelEvent) :
    Decidable ((system ops).offered world event) :=
  inferInstanceAs (Decidable (world.Offered event))

variable {world : PollWorld Poller} {channel : ChannelPtr} {value : FdChannel}

theorem deref_of (found : world.heap channel = some value) :
    world.deref channel = .ok value := by
  rw [deref, found]

@[simp]
theorem store_self (world : PollWorld Poller) (channel : ChannelPtr)
    (value : Option FdChannel) : (world.store channel value).heap channel = value := by
  simp [store]

theorem store_of_ne (world : PollWorld Poller) {other : ChannelPtr}
    (value : Option FdChannel) (differs : other ≠ channel) :
    (world.store channel value).heap other = world.heap other := by
  simp [store, differs]

/-! ## The channels without the poller -/

/-- A poller that does nothing. -/
def noPoller : PollerOps Unit where
  forget _ _ := ()
  polled _ _ := ()
  updateChannel _ _ _ := .ok ()
  removeChannel _ _ _ := .ok ()
  hasChannel _ _ _ := false

/-- The channels and the descriptors. -/
def bare (world : PollWorld Poller) : PollWorld Unit :=
  ⟨world.heap, world.opened, ()⟩

theorem deref_bare (world : PollWorld Poller) (channel : ChannelPtr) :
    world.bare.deref channel = world.deref channel :=
  rfl

/-- Whatever the poller, an event that succeeds does the same to the channels. -/
theorem step_bare {ops : PollerOps Poller} {event : ChannelEvent}
    {after : PollWorld Poller} (stepTo : world.step ops event = .ok after) :
    world.bare.step noPoller event = .ok after.bare := by
  cases event with
  | poll numEvents =>
      obtain rfl := Except.ok.inj stepTo
      rfl
  | create channel fd =>
      obtain rfl := Except.ok.inj stepTo
      rfl
  | update channel op =>
      obtain ⟨value, derefEq, rest⟩ := Except.bind_eq_ok.mp stepTo
      obtain ⟨poller, -, rest⟩ := Except.bind_eq_ok.mp rest
      obtain rfl := Except.ok.inj rest
      simp only [step, update]
      rw [deref_bare, Except.bind_of_ok derefEq]
      rfl
  | remove channel =>
      obtain ⟨value, derefEq, rest⟩ := Except.bind_eq_ok.mp stepTo
      obtain ⟨_, checkEq, rest⟩ := Except.bind_eq_ok.mp rest
      obtain ⟨poller, -, rest⟩ := Except.bind_eq_ok.mp rest
      obtain rfl := Except.ok.inj rest
      simp only [step, remove]
      rw [deref_bare, Except.bind_of_ok derefEq, Except.bind_of_ok checkEq]
      rfl
  | destroy channel =>
      obtain ⟨value, derefEq, rest⟩ := Except.bind_eq_ok.mp stepTo
      obtain ⟨_, checkEq, rest⟩ := Except.bind_eq_ok.mp rest
      obtain ⟨_, -, rest⟩ := Except.bind_eq_ok.mp rest
      obtain rfl := Except.ok.inj rest
      simp only [step, destroy]
      rw [deref_bare, Except.bind_of_ok derefEq, Except.bind_of_ok checkEq]
      rfl

theorem offered_bare (world : PollWorld Poller) (event : ChannelEvent) :
    world.bare.Offered event ↔ world.Offered event := by
  cases event <;> rfl

/-! ## What the pollers are for -/

/-- The poller is to report events of the channel. -/
def Watches (world : PollWorld Poller) (channel : ChannelPtr) (value : FdChannel) : Prop :=
  world.heap channel = some value ∧ value.channel.addedToLoop_ = true ∧
    value.channel.isNoneEvent = false

/-- The events that the kernel reports for a descriptor that is ready for some,
when it waits for the given ones.  Errors and hang-ups are always reported. -/
def reported (ready events : BitVec 32) : BitVec 32 :=
  ready &&& (events ||| POLLERR ||| POLLHUP)

/-- The channels that `poll` should report, with their events. -/
def Active (world : PollWorld Poller) (ready : Nat → BitVec 32) (channel : ChannelPtr)
    (revents : BitVec 32) : Prop :=
  ∃ value, world.Watches channel value ∧
    revents = reported (ready value.fd_) value.channel.events_ ∧ revents ≠ 0

/-- What holds of the heap and the descriptors, whatever the poller. -/
structure HeapInvariant (world : PollWorld Poller) : Prop where
  opened_nodup : world.opened.Nodup
  fd_opened : ∀ channel value, world.heap channel = some value → value.fd_ ∈ world.opened
  fd_inj : ∀ channel channel' value value', world.heap channel = some value →
    world.heap channel' = some value' → value.fd_ = value'.fd_ → channel = channel'
  unknown : ∀ channel value, world.heap channel = some value →
    value.channel.addedToLoop_ = false → value.channel.isNoneEvent = true

theorem new_heapInvariant (poller : Poller) : (new poller).HeapInvariant := by
  constructor <;> simp [new]

namespace HeapInvariant

theorem create (invariant : world.HeapInvariant) {fd : Nat} {after : PollWorld Poller}
    (unopened : fd ∉ world.opened)
    (heapEq : after.heap = (world.store channel (some ⟨fd, .new, false⟩)).heap)
    (openedEq : after.opened = fd :: world.opened) : after.HeapInvariant := by
  have foundCases {other : ChannelPtr} {value' : FdChannel}
      (found : after.heap other = some value') :
      (other = channel ∧ value' = ⟨fd, .new, false⟩) ∨ world.heap other = some value' := by
    rw [heapEq] at found
    by_cases same : other = channel
    · subst same
      rw [store_self] at found
      exact .inl ⟨rfl, (Option.some.inj found).symm⟩
    · rw [store_of_ne _ _ same] at found
      exact .inr found
  refine ⟨?_, ?_, ?_, ?_⟩
  · rw [openedEq]
    exact List.nodup_cons.mpr ⟨unopened, invariant.opened_nodup⟩
  · intro other value' found
    rw [openedEq]
    rcases foundCases found with ⟨-, rfl⟩ | old
    · exact List.mem_cons_self
    · exact List.mem_cons_of_mem _ (invariant.fd_opened _ _ old)
  · intro first second value' value'' found found' same
    rcases foundCases found with ⟨rfl, rfl⟩ | old
    · rcases foundCases found' with ⟨rfl, -⟩ | old'
      · rfl
      · have taken := invariant.fd_opened _ _ old'
        rw [← same] at taken
        exact absurd taken unopened
    · rcases foundCases found' with ⟨rfl, rfl⟩ | old'
      · have taken := invariant.fd_opened _ _ old
        rw [same] at taken
        exact absurd taken unopened
      · exact invariant.fd_inj _ _ _ _ old old' same
  · intro other value' found unknown
    rcases foundCases found with ⟨-, rfl⟩ | old
    · exact Channel.isNoneEvent_eq .new
    · exact invariant.unknown _ _ old unknown

/-- A channel changes, but not its descriptor. -/
theorem change (invariant : world.HeapInvariant) (changed : FdChannel)
    {after : PollWorld Poller} (found : world.heap channel = some value)
    (fdEq : changed.fd_ = value.fd_)
    (unknown : changed.channel.addedToLoop_ = false → changed.channel.isNoneEvent = true)
    (heapEq : after.heap = (world.store channel (some changed)).heap)
    (openedEq : after.opened = world.opened) : after.HeapInvariant := by
  have foundCases {other : ChannelPtr} {value' : FdChannel}
      (found' : after.heap other = some value') :
      ∃ old, world.heap other = some old ∧ value'.fd_ = old.fd_ ∧
        (value'.channel.addedToLoop_ = false → value'.channel.isNoneEvent = true) := by
    rw [heapEq] at found'
    by_cases same : other = channel
    · subst same
      rw [store_self] at found'
      obtain rfl := Option.some.inj found'
      exact ⟨value, found, fdEq, unknown⟩
    · rw [store_of_ne _ _ same] at found'
      exact ⟨value', found', rfl, invariant.unknown _ _ found'⟩
  refine ⟨openedEq ▸ invariant.opened_nodup, ?_, ?_, ?_⟩
  · intro other value' found'
    obtain ⟨old, oldFound, oldFd, -⟩ := foundCases found'
    rw [openedEq, oldFd]
    exact invariant.fd_opened _ _ oldFound
  · intro first second value' value'' found' found'' same
    obtain ⟨old, oldFound, oldFd, -⟩ := foundCases found'
    obtain ⟨old', oldFound', oldFd', -⟩ := foundCases found''
    exact invariant.fd_inj _ _ _ _ oldFound oldFound' (by rw [← oldFd, ← oldFd', same])
  · intro other value' found'
    obtain ⟨-, -, -, holds⟩ := foundCases found'
    exact holds

theorem destroy (invariant : world.HeapInvariant) {after : PollWorld Poller}
    (found : world.heap channel = some value)
    (heapEq : after.heap = (world.store channel none).heap)
    (openedEq : after.opened = world.opened.erase value.fd_) : after.HeapInvariant := by
  have stays {other : ChannelPtr} {value' : FdChannel}
      (found' : after.heap other = some value') :
      other ≠ channel ∧ world.heap other = some value' := by
    rw [heapEq] at found'
    by_cases same : other = channel
    · subst same
      simp at found'
    · rw [store_of_ne _ _ same] at found'
      exact ⟨same, found'⟩
  refine ⟨openedEq ▸ invariant.opened_nodup.erase _, ?_, ?_, ?_⟩
  · intro other value' found'
    obtain ⟨differs, old⟩ := stays found'
    rw [openedEq, invariant.opened_nodup.mem_erase_iff]
    exact ⟨fun same => differs (invariant.fd_inj _ _ _ _ old found same),
      invariant.fd_opened _ _ old⟩
  · intro first second value' value'' found' found''
    exact invariant.fd_inj _ _ _ _ (stays found').2 (stays found'').2
  · intro other value' found'
    exact invariant.unknown _ _ (stays found').2

end HeapInvariant

end PollWorld

end TcpMysql
