import TcpMysql.EPollPoller
import TcpMysql.SwapRemove

/-!
# `PollPoller`

The poller on top of `poll`, which a user can ask for.  It keeps the array that
`poll` takes, and `index_` is the place of a channel in it.  A channel that waits
for nothing stays in the array under a negative number, and one that is removed
leaves its place to the last.

It makes demands that `EPollPoller` does not make: the first update of a channel
must wait for something, and a channel that was removed must not come back.  When
they are met, and a channel that waits for nothing is not told so twice, the two
pollers report the same.
-/

namespace TcpMysql

/-- `struct pollfd`. -/
structure PollFd where
  fd : Int
  events : BitVec 16
  revents : BitVec 16
  deriving DecidableEq, Repr

structure PollPoller where
  index_ : ChannelPtr → Int
  channels_ : Int → Option ChannelPtr
  pollfds_ : List PollFd

namespace PollPoller

def new : PollPoller where
  index_ _ := -1
  channels_ _ := none
  pollfds_ := []

def set_index (poller : PollPoller) (channel : ChannelPtr) (idx : Int) : PollPoller :=
  { poller with index_ := Function.update poller.index_ channel idx }

/-- The array with a new channel at its end. -/
def appended (poller : PollPoller) (channel : ChannelPtr) (value : FdChannel) :
    PollPoller where
  index_ := Function.update poller.index_ channel poller.pollfds_.length
  channels_ := Function.update poller.channels_ value.fd_ (some channel)
  pollfds_ := poller.pollfds_ ++ [⟨value.fd_, value.channel.events_.setWidth 16, 0⟩]

/-- The branch of `updateChannel` for a new channel. -/
def addChannel (poller : PollPoller) (channel : ChannelPtr) (value : FdChannel) :
    Except PollFault PollPoller := do
  check .assertion (poller.channels_ value.fd_ = none)
  return poller.appended channel value

/-- The number under which a channel is in the array. -/
def slotFd (value : FdChannel) : Int :=
  if value.channel.isNoneEvent then -(value.fd_ : Int) - 1 else value.fd_

/-- The descriptor that a number in the array belongs to. -/
def channelFd (fd : Int) : Int :=
  if fd < 0 then -fd - 1 else fd

/-- The assertions that a channel is in the array, and its entry there. -/
def entryOf (poller : PollPoller) (channel : ChannelPtr) (value : FdChannel) :
    Except PollFault PollFd := do
  check .assertion (poller.channels_ value.fd_ ≠ none)
  check .assertion (poller.channels_ value.fd_ = some channel)
  check .assertion (0 ≤ poller.index_ channel ∧
    poller.index_ channel < poller.pollfds_.length)
  match poller.pollfds_[(poller.index_ channel).toNat]? with
  | none => .error .assertion
  | some pfd => .ok pfd

/-- The array with the entry of a channel written anew. -/
def replaced (poller : PollPoller) (idx : Nat) (value : FdChannel) : PollPoller :=
  { poller with
    pollfds_ := poller.pollfds_.set idx
      ⟨slotFd value, value.channel.events_.setWidth 16, 0⟩ }

def updateChannel (poller : PollPoller) (channel : ChannelPtr) (value : FdChannel) :
    Except PollFault PollPoller :=
  if poller.index_ channel < 0 then poller.addChannel channel value
  else do
    let pfd ← poller.entryOf channel value
    check .assertion (pfd.fd = value.fd_ ∨ pfd.fd = -(value.fd_ : Int) - 1)
    return poller.replaced (poller.index_ channel).toNat value

/-- The end of `removeChannel`: the last entry takes the place of the removed
one. -/
def fillGap (poller : PollPoller) (idx : Nat) : Except PollFault PollPoller :=
  if idx = poller.pollfds_.length - 1 then
    .ok { poller with pollfds_ := poller.pollfds_.dropLast }
  else
    match poller.pollfds_.getLast? with
    | none => .error .assertion
    | some back =>
        match poller.channels_ (channelFd back.fd) with
        | none => .error .deletedChannel
        | some channelAtEnd =>
            .ok { poller.set_index channelAtEnd idx with
              pollfds_ := (poller.pollfds_.set idx back).dropLast }

def removeChannel (poller : PollPoller) (channel : ChannelPtr) (value : FdChannel) :
    Except PollFault PollPoller := do
  check .assertion (value.channel.isNoneEvent = true)
  let pfd ← poller.entryOf channel value
  check .assertion (pfd.fd = -(value.fd_ : Int) - 1 ∧
    pfd.events.signExtend 32 = value.channel.events_)
  { poller with channels_ := Function.update poller.channels_ value.fd_ none }.fillGap
    (poller.index_ channel).toNat

def hasChannel (poller : PollPoller) (channel : ChannelPtr) (value : FdChannel) : Bool :=
  poller.channels_ value.fd_ == some channel

def ops : PollerOps PollPoller where
  forget poller channel := poller.set_index channel (-1)
  polled poller _ := poller
  updateChannel := updateChannel
  removeChannel := removeChannel
  hasChannel := hasChannel

/-- What `poll` of the kernel writes into `revents`. -/
def revents (opened : List Nat) (ready : Nat → BitVec 32) (pfd : PollFd) : BitVec 16 :=
  if pfd.fd < 0 then 0
  else if pfd.fd.toNat ∈ opened then
    (PollWorld.reported (ready pfd.fd.toNat) (pfd.events.signExtend 32)).setWidth 16
  else POLLNVAL.setWidth 16

def fillActiveChannels (world : PollWorld PollPoller) :
    Nat → List PollFd → Except PollFault (List (ChannelPtr × BitVec 32))
  | _, [] => .ok []
  | numEvents, pfd :: pollfds =>
      if numEvents = 0 then .ok []
      else if 0 < pfd.revents.toInt then
        match world.poller.channels_ pfd.fd with
        | none => .error .assertion
        | some channel => do
            let value ← world.deref channel
            check .assertion ((value.fd_ : Int) = pfd.fd)
            let activeChannels ← fillActiveChannels world (numEvents - 1) pollfds
            return (channel, pfd.revents.signExtend 32) :: activeChannels
      else
        fillActiveChannels world numEvents pollfds

/-- `poll`: the kernel returns how many entries have events. -/
def poll (world : PollWorld PollPoller) (ready : Nat → BitVec 32) :
    Except PollFault (List (ChannelPtr × BitVec 32)) :=
  let pollfds := world.poller.pollfds_.map fun pfd =>
    { pfd with revents := revents world.opened ready pfd }
  fillActiveChannels world (pollfds.countP fun pfd => pfd.revents ≠ 0) pollfds

/-! ## The array -/

theorem channelFd_slotFd (value : FdChannel) : channelFd (slotFd value) = value.fd_ := by
  unfold channelFd slotFd
  split <;> split <;> omega

/-- The entry of a channel, whatever `poll` has written into it. -/
def IsSlot (value : FdChannel) (pfd : PollFd) : Prop :=
  pfd.fd = slotFd value ∧ pfd.events = value.channel.events_.setWidth 16

/-- The entries of the array and the channels that the loop knows belong together,
by `index_`. -/
structure Invariant (world : PollWorld PollPoller) : Prop
    extends world.HeapInvariant where
  fresh : ∀ channel value, world.heap channel = some value →
    value.channel.addedToLoop_ = false → value.retired = false →
      world.poller.index_ channel < 0
  channels : ∀ fd channel, world.poller.channels_ fd = some channel ↔
    ∃ value, world.heap channel = some value ∧ (value.fd_ : Int) = fd ∧
      value.channel.addedToLoop_ = true
  slot : ∀ channel value, world.heap channel = some value →
    value.channel.addedToLoop_ = true → ∃ idx : Nat, world.poller.index_ channel = idx ∧
      ∃ pfd, world.poller.pollfds_[idx]? = some pfd ∧ IsSlot value pfd
  owner : ∀ idx : Nat, idx < world.poller.pollfds_.length → ∃ channel value,
    world.heap channel = some value ∧ value.channel.addedToLoop_ = true ∧
      world.poller.index_ channel = idx

theorem new_invariant : Invariant (.new new) where
  toHeapInvariant := PollWorld.new_heapInvariant new
  fresh := by simp [PollWorld.new]
  channels := by simp [PollWorld.new, new]
  slot := by simp [PollWorld.new]
  owner := by simp [PollWorld.new, new]

variable {world : PollWorld PollPoller} {channel other : ChannelPtr}
  {value changed : FdChannel}

namespace Invariant

theorem registered (invariant : Invariant world) (found : world.heap channel = some value)
    (known : value.channel.addedToLoop_ = true) :
    world.poller.channels_ value.fd_ = some channel :=
  (invariant.channels _ _).mpr ⟨value, found, rfl, known⟩

theorem channels_eq_none (invariant : Invariant world)
    (found : world.heap channel = some value)
    (unknown : value.channel.addedToLoop_ = false) :
    world.poller.channels_ value.fd_ = none := by
  cases entry : world.poller.channels_ value.fd_ with
  | none => rfl
  | some other =>
      obtain ⟨value', found', fdEq, known⟩ := (invariant.channels _ _).mp entry
      obtain rfl := invariant.fd_inj _ _ _ _ found' found (by omega)
      rw [found] at found'
      obtain rfl := Option.some.inj found'
      simp [unknown] at known

/-- Two channels do not share an entry. -/
theorem index_inj (invariant : Invariant world) {value' : FdChannel}
    (found : world.heap channel = some value) (known : value.channel.addedToLoop_ = true)
    (found' : world.heap other = some value')
    (known' : value'.channel.addedToLoop_ = true)
    (same : world.poller.index_ channel = world.poller.index_ other) : channel = other := by
  obtain ⟨idx, indexEq, pfd, entry, slot⟩ := invariant.slot _ _ found known
  obtain ⟨idx', indexEq', pfd', entry', slot'⟩ := invariant.slot _ _ found' known'
  obtain rfl : idx = idx' := by omega
  rw [entry] at entry'
  obtain rfl := Option.some.inj entry'
  have fdEq : (value.fd_ : Int) = value'.fd_ := by
    rw [← channelFd_slotFd, ← channelFd_slotFd, ← slot.1, ← slot'.1]
  exact invariant.fd_inj _ _ _ _ found found' (by omega)

theorem entryOf (invariant : Invariant world) (found : world.heap channel = some value)
    (known : value.channel.addedToLoop_ = true) (fdEq : changed.fd_ = value.fd_) :
    ∃ (idx : Nat) (pfd : PollFd), world.poller.index_ channel = idx ∧
      world.poller.pollfds_[idx]? = some pfd ∧ IsSlot value pfd ∧
        world.poller.entryOf channel changed = .ok pfd := by
  obtain ⟨idx, indexEq, pfd, entry, slot⟩ := invariant.slot _ _ found known
  have registered := invariant.registered found known
  rw [← fdEq] at registered
  obtain ⟨inside, -⟩ := List.getElem?_eq_some_iff.mp entry
  refine ⟨idx, pfd, indexEq, entry, slot, ?_⟩
  unfold PollPoller.entryOf
  rw [Except.bind_of_ok (check_of (by simp [registered])),
    Except.bind_of_ok (check_of registered), Except.bind_of_ok (check_of (by omega)),
    indexEq, Int.toNat_natCast, entry]

theorem create (invariant : Invariant world) {fd : Nat}
    (free : world.heap channel = none) (unopened : fd ∉ world.opened) :
    Invariant (world.create ops channel fd) := by
  have heapSelf : (world.create ops channel fd).heap channel = some ⟨fd, .new, false⟩ :=
    PollWorld.store_self _ _ _
  have heapOther {other : ChannelPtr} (differs : other ≠ channel) :
      (world.create ops channel fd).heap other = world.heap other :=
    PollWorld.store_of_ne _ _ differs
  have indexOther {other : ChannelPtr} (differs : other ≠ channel) :
      (world.create ops channel fd).poller.index_ other = world.poller.index_ other :=
    Function.update_of_ne differs _ _
  have known {other : ChannelPtr} {value' : FdChannel}
      (found' : (world.create ops channel fd).heap other = some value')
      (added : value'.channel.addedToLoop_ = true) :
      other ≠ channel ∧ world.heap other = some value' := by
    by_cases same : other = channel
    · subst same
      rw [heapSelf] at found'
      rw [← Option.some.inj found'] at added
      simp [Channel.new] at added
    · exact ⟨same, heapOther same ▸ found'⟩
  have isOther {other : ChannelPtr} {value' : FdChannel}
      (found' : world.heap other = some value') : other ≠ channel := by
    rintro rfl
    simp [free] at found'
  refine ⟨invariant.toHeapInvariant.create unopened rfl rfl, ?_, ?_, ?_, ?_⟩
  · intro other value' found' unknown current
    by_cases same : other = channel
    · subst same
      rw [show (world.create ops other fd).poller.index_ other = -1 from
        Function.update_self _ _ _]
      decide
    · rw [indexOther same]
      exact invariant.fresh _ _ (heapOther same ▸ found') unknown current
  · intro fd' other
    have sameChannels : (world.create ops channel fd).poller.channels_ =
        world.poller.channels_ := rfl
    rw [sameChannels, invariant.channels]
    constructor
    · rintro ⟨value', found', fdEq, added⟩
      exact ⟨value', (heapOther (isOther found')).trans found', fdEq, added⟩
    · rintro ⟨value', found', fdEq, added⟩
      exact ⟨value', (known found' added).2, fdEq, added⟩
  · intro other value' found' added
    obtain ⟨differs, old⟩ := known found' added
    rw [indexOther differs]
    exact invariant.slot _ _ old added
  · intro idx inside
    obtain ⟨other, value', found', added, indexEq⟩ := invariant.owner idx inside
    have differs := isOther found'
    exact ⟨other, value', (heapOther differs).trans found', added,
      (indexOther differs).trans indexEq⟩

/-- The first update of a channel. -/
theorem addChannel (invariant : Invariant world) (changed : FdChannel)
    (found : world.heap channel = some value) (fdEq : changed.fd_ = value.fd_)
    (unknown : value.channel.addedToLoop_ = false)
    (known : changed.channel.addedToLoop_ = true)
    (waits : changed.channel.isNoneEvent = false) :
    world.poller.addChannel channel changed = .ok (world.poller.appended channel changed) ∧
      Invariant { world.store channel (some changed) with
        poller := world.poller.appended channel changed } := by
  have unregistered := invariant.channels_eq_none found unknown
  rw [← fdEq] at unregistered
  have heapOther {other : ChannelPtr} (differs : other ≠ channel) :
      (world.store channel (some changed)).heap other = world.heap other :=
    PollWorld.store_of_ne _ _ differs
  have isOther {other : ChannelPtr} {value' : FdChannel}
      (found' : world.heap other = some value')
      (added : value'.channel.addedToLoop_ = true) : other ≠ channel := by
    rintro rfl
    rw [found] at found'
    rw [← Option.some.inj found'] at added
    simp [unknown] at added
  refine ⟨?_, invariant.change changed found fdEq (fun h => by simp [known] at h) rfl rfl,
    ?_, ?_, ?_, ?_⟩
  · unfold PollPoller.addChannel
    rw [Except.bind_of_ok (check_of unregistered)]
    rfl
  · intro other value' found' notAdded current
    by_cases same : other = channel
    · subst same
      rw [PollWorld.store_self] at found'
      rw [← Option.some.inj found', known] at notAdded
      simp at notAdded
    · rw [heapOther same] at found'
      rw [show (world.poller.appended channel changed).index_ other =
        world.poller.index_ other from Function.update_of_ne same _ _]
      exact invariant.fresh _ _ found' notAdded current
  · intro fd other
    simp only [appended]
    by_cases same : other = channel
    · subst same
      simp only [PollWorld.store_self, Option.some.injEq, exists_eq_left', known, and_true]
      by_cases sameFd : fd = changed.fd_
      · simp [sameFd]
      · rw [Function.update_of_ne sameFd]
        simp only [Ne.symm sameFd, iff_false]
        intro entry
        obtain ⟨value', found', -, added⟩ := (invariant.channels _ _).mp entry
        exact isOther found' added rfl
    · rw [heapOther same]
      by_cases sameFd : fd = changed.fd_
      · subst sameFd
        simp only [Function.update_self, Option.some.injEq, Ne.symm same, false_iff]
        rintro ⟨value', found', fdEq', -⟩
        exact same (invariant.fd_inj _ _ _ _ found' found (by omega))
      · rw [Function.update_of_ne sameFd, invariant.channels]
  · intro other value' found' added
    by_cases same : other = channel
    · subst same
      rw [PollWorld.store_self] at found'
      obtain rfl := Option.some.inj found'
      refine ⟨world.poller.pollfds_.length, Function.update_self _ _ _,
        ⟨changed.fd_, changed.channel.events_.setWidth 16, 0⟩, ?_, ?_, rfl⟩
      · simp [appended]
      · simp [slotFd, waits]
    · rw [heapOther same] at found'
      obtain ⟨idx, indexEq, pfd, entry, slot⟩ := invariant.slot _ _ found' added
      obtain ⟨inside, -⟩ := List.getElem?_eq_some_iff.mp entry
      refine ⟨idx, (Function.update_of_ne same _ _).trans indexEq, pfd, ?_, slot⟩
      simp only [appended]
      rw [List.getElem?_append_left inside, entry]
  · intro idx inside
    simp only [appended, List.length_append, List.length_singleton] at inside
    by_cases last : idx = world.poller.pollfds_.length
    · subst last
      exact ⟨channel, changed, PollWorld.store_self _ _ _, known, Function.update_self _ _ _⟩
    · obtain ⟨other, value', found', added, indexEq⟩ := invariant.owner idx (by omega)
      have differs := isOther found' added
      exact ⟨other, value', (heapOther differs).trans found', added,
        (Function.update_of_ne differs _ _).trans indexEq⟩

/-- An update of a channel that is in the array. -/
theorem replaced (invariant : Invariant world) (changed : FdChannel) {idx : Nat}
    (found : world.heap channel = some value) (fdEq : changed.fd_ = value.fd_)
    (wasKnown : value.channel.addedToLoop_ = true)
    (known : changed.channel.addedToLoop_ = true)
    (indexEq : world.poller.index_ channel = idx) :
    Invariant { world.store channel (some changed) with
      poller := world.poller.replaced idx changed } := by
  have heapOther {other : ChannelPtr} (differs : other ≠ channel) :
      (world.store channel (some changed)).heap other = world.heap other :=
    PollWorld.store_of_ne _ _ differs
  have lengthEq : (world.poller.replaced idx changed).pollfds_.length =
      world.poller.pollfds_.length := List.length_set
  refine ⟨invariant.change changed found fdEq (fun h => by simp [known] at h) rfl rfl,
    ?_, ?_, ?_, ?_⟩
  · intro other value' found' notAdded current
    by_cases same : other = channel
    · subst same
      rw [PollWorld.store_self] at found'
      rw [← Option.some.inj found', known] at notAdded
      simp at notAdded
    · rw [heapOther same] at found'
      exact invariant.fresh _ _ found' notAdded current
  · intro fd other
    have sameChannels : (world.poller.replaced idx changed).channels_ =
        world.poller.channels_ := rfl
    simp only [sameChannels, invariant.channels]
    by_cases same : other = channel
    · subst same
      simp [found, fdEq, wasKnown, known]
    · rw [heapOther same]
  · intro other value' found' added
    by_cases same : other = channel
    · subst same
      rw [PollWorld.store_self] at found'
      obtain rfl := Option.some.inj found'
      obtain ⟨idx', indexEq', pfd, entry, -⟩ := invariant.slot _ _ found wasKnown
      obtain rfl : idx = idx' := by omega
      obtain ⟨inside, -⟩ := List.getElem?_eq_some_iff.mp entry
      exact ⟨idx, indexEq, _, List.getElem?_set_self inside, rfl, rfl⟩
    · rw [heapOther same] at found'
      obtain ⟨idx', indexEq', pfd, entry, slot⟩ := invariant.slot _ _ found' added
      have differs : idx ≠ idx' := by
        rintro rfl
        exact same (invariant.index_inj found' added found wasKnown (by omega))
      exact ⟨idx', indexEq', pfd, (List.getElem?_set_ne differs).trans entry, slot⟩
  · intro idx' inside
    rw [lengthEq] at inside
    obtain ⟨other, value', found', added, indexEq'⟩ := invariant.owner idx' inside
    by_cases same : other = channel
    · subst same
      exact ⟨other, changed, PollWorld.store_self _ _ _, known, indexEq'⟩
    · exact ⟨other, value', (heapOther same).trans found', added, indexEq'⟩

theorem updateChannel (invariant : Invariant world) (changed : FdChannel)
    (found : world.heap channel = some value) (fdEq : changed.fd_ = value.fd_)
    (current : value.retired = false) (known : changed.channel.addedToLoop_ = true)
    (waits : value.channel.addedToLoop_ = false → changed.channel.isNoneEvent = false) :
    ∃ after, world.poller.updateChannel channel changed = .ok after ∧
      Invariant { world.store channel (some changed) with poller := after } := by
  cases wasKnown : value.channel.addedToLoop_ with
  | false =>
      obtain ⟨addEq, afterInvariant⟩ :=
        invariant.addChannel changed found fdEq wasKnown known (waits wasKnown)
      have isNew := invariant.fresh _ _ found wasKnown current
      refine ⟨_, ?_, afterInvariant⟩
      rw [PollPoller.updateChannel, if_pos isNew, addEq]
  | true =>
      obtain ⟨idx, pfd, indexEq, entry, slot, entryEq⟩ :=
        invariant.entryOf found wasKnown fdEq
      have pfdOk : pfd.fd = changed.fd_ ∨ pfd.fd = -(changed.fd_ : Int) - 1 := by
        rw [slot.1, fdEq, slotFd]
        split
        · exact .inr rfl
        · exact .inl rfl
      refine ⟨_, ?_, invariant.replaced changed found fdEq wasKnown known indexEq⟩
      rw [PollPoller.updateChannel, if_neg (by omega), Except.bind_of_ok entryEq,
        Except.bind_of_ok (check_of pfdOk), indexEq, Int.toNat_natCast]
      rfl

/-- The array without the entry of a channel, as far as the other channels are
concerned. -/
theorem removed (invariant : Invariant world) {after : PollPoller} {idx : Nat}
    (found : world.heap channel = some value) (known : value.channel.addedToLoop_ = true)
    (isNone : value.channel.isNoneEvent = true)
    (indexEq : world.poller.index_ channel = idx)
    (channelsEq : after.channels_ =
      Function.update world.poller.channels_ value.fd_ none)
    (pollfdsEq : after.pollfds_ = swapRemove world.poller.pollfds_ idx)
    (moved : ∀ other value', world.heap other = some value' →
      value'.channel.addedToLoop_ = true → other ≠ channel →
        after.index_ other =
          if world.poller.index_ other = (world.poller.pollfds_.length - 1 : Nat) then
            (idx : Int)
          else world.poller.index_ other)
    (untouched : ∀ other value', world.heap other = some value' →
      value'.channel.addedToLoop_ = false →
        after.index_ other = world.poller.index_ other) :
    Invariant { world.store channel (some value.remove) with poller := after } := by
  have heapOther {other : ChannelPtr} (differs : other ≠ channel) :
      (world.store channel (some value.remove)).heap other = world.heap other :=
    PollWorld.store_of_ne _ _ differs
  have knownOther {other : ChannelPtr} {value' : FdChannel}
      (found' : (world.store channel (some value.remove)).heap other = some value')
      (added : value'.channel.addedToLoop_ = true) :
      other ≠ channel ∧ world.heap other = some value' := by
    by_cases same : other = channel
    · subst same
      rw [PollWorld.store_self] at found'
      rw [← Option.some.inj found'] at added
      simp at added
    · exact ⟨same, heapOther same ▸ found'⟩
  obtain ⟨idx', indexEq', pfd, entry, -⟩ := invariant.slot _ _ found known
  obtain rfl : idx = idx' := by omega
  obtain ⟨inside, -⟩ := List.getElem?_eq_some_iff.mp entry
  have stillNone : value.remove.channel.isNoneEvent = true := by
    rw [FdChannel.remove_isNoneEvent, isNone]
  refine ⟨invariant.change value.remove found rfl (fun _ => stillNone) rfl rfl, ?_, ?_, ?_, ?_⟩
  · intro other value' found' notAdded current
    by_cases same : other = channel
    · subst same
      rw [PollWorld.store_self] at found'
      rw [← Option.some.inj found'] at current
      simp [FdChannel.remove] at current
    · rw [heapOther same] at found'
      simp only [untouched other value' found' notAdded]
      exact invariant.fresh _ _ found' notAdded current
  · intro fd other
    simp only [channelsEq]
    by_cases sameFd : fd = value.fd_
    · subst sameFd
      simp only [Function.update_self, reduceCtorEq, false_iff]
      rintro ⟨value', found', fdEq, added⟩
      obtain ⟨differs, old⟩ := knownOther found' added
      exact differs (invariant.fd_inj _ _ _ _ old found (by omega))
    · rw [Function.update_of_ne sameFd, invariant.channels]
      constructor
      · rintro ⟨value', found', fdEq, added⟩
        have differs : other ≠ channel := by
          rintro rfl
          rw [found] at found'
          rw [← Option.some.inj found'] at fdEq
          exact sameFd fdEq.symm
        exact ⟨value', (heapOther differs).trans found', fdEq, added⟩
      · rintro ⟨value', found', fdEq, added⟩
        exact ⟨value', (knownOther found' added).2, fdEq, added⟩
  · intro other value' found' added
    obtain ⟨differs, old⟩ := knownOther found' added
    obtain ⟨place, placeEq, pfd, entry', slot⟩ := invariant.slot _ _ old added
    obtain ⟨inside', -⟩ := List.getElem?_eq_some_iff.mp entry'
    have placeNe : place ≠ idx := by
      rintro rfl
      exact differs (invariant.index_inj old added found known (by omega))
    simp only [moved other value' old added differs, pollfdsEq]
    by_cases last : place = world.poller.pollfds_.length - 1
    · subst last
      refine ⟨idx, if_pos placeEq, pfd, ?_, slot⟩
      rw [getElem?_swapRemove_self (by omega), entry']
    · refine ⟨place, (if_neg (by omega)).trans placeEq, pfd, ?_, slot⟩
      rw [getElem?_swapRemove_of_ne placeNe (by omega), entry']
  · intro place placeInside
    simp only [pollfdsEq, length_swapRemove] at placeInside
    by_cases same : place = idx
    · subst same
      obtain ⟨other, value', found', added, lastEq⟩ :=
        invariant.owner (world.poller.pollfds_.length - 1) (by omega)
      have differs : other ≠ channel := by
        rintro rfl
        omega
      exact ⟨other, value', (heapOther differs).trans found', added,
        (moved other value' found' added differs).trans (if_pos lastEq)⟩
    · obtain ⟨other, value', found', added, placeEq⟩ := invariant.owner place (by omega)
      have differs : other ≠ channel := by
        rintro rfl
        omega
      refine ⟨other, value', (heapOther differs).trans found', added, ?_⟩
      rw [show _ = _ from moved other value' found' added differs, if_neg (by omega), placeEq]

theorem fillGap (invariant : Invariant world) {idx : Nat}
    (found : world.heap channel = some value) (known : value.channel.addedToLoop_ = true)
    (isNone : value.channel.isNoneEvent = true)
    (indexEq : world.poller.index_ channel = idx) :
    ∃ after, PollPoller.fillGap { world.poller with
        channels_ := Function.update world.poller.channels_ value.fd_ none } idx = .ok after ∧
      Invariant { world.store channel (some value.remove) with poller := after } := by
  obtain ⟨idx', indexEq', pfd, entry, -⟩ := invariant.slot _ _ found known
  obtain rfl : idx = idx' := by omega
  obtain ⟨inside, -⟩ := List.getElem?_eq_some_iff.mp entry
  obtain ⟨back, backEq⟩ : ∃ back, world.poller.pollfds_.getLast? = some back := by
    cases lastEq : world.poller.pollfds_.getLast? with
    | none => simp [List.getLast?_eq_none_iff.mp lastEq] at inside
    | some back => exact ⟨back, rfl⟩
  have backEntry : world.poller.pollfds_[world.poller.pollfds_.length - 1]? = some back := by
    rw [← List.getLast?_eq_getElem?, backEq]
  by_cases isLast : idx = world.poller.pollfds_.length - 1
  · refine ⟨_, if_pos isLast, invariant.removed found known isNone indexEq rfl ?_ ?_ ?_⟩
    · rw [swapRemove_last isLast]
    · intro other value' found' added differs
      rw [if_neg]
      intro same
      exact differs (invariant.index_inj found' added found known (by omega))
    · exact fun _ _ _ _ => rfl
  · -- The owner of the last entry is another channel, and still in the map.
    obtain ⟨last, lastValue, lastFound, lastKnown, lastIndex⟩ :=
      invariant.owner (world.poller.pollfds_.length - 1) (by omega)
    obtain ⟨place, placeEq, pfd', entry', slot⟩ := invariant.slot _ _ lastFound lastKnown
    obtain rfl : place = world.poller.pollfds_.length - 1 := by omega
    rw [backEntry] at entry'
    obtain rfl := Option.some.inj entry'
    have differs : last ≠ channel := by
      rintro rfl
      omega
    have fdNe : (lastValue.fd_ : Int) ≠ value.fd_ := fun same =>
      differs (invariant.fd_inj _ _ _ _ lastFound found (by omega))
    have inMap : Function.update world.poller.channels_ (value.fd_ : Int) none
        (channelFd back.fd) = some last := by
      rw [slot.1, channelFd_slotFd, Function.update_of_ne fdNe]
      exact invariant.registered lastFound lastKnown
    refine ⟨PollPoller.mk (Function.update world.poller.index_ last idx)
      (Function.update world.poller.channels_ value.fd_ none)
      ((world.poller.pollfds_.set idx back).dropLast), ?_,
      invariant.removed found known isNone indexEq rfl ?_ ?_ ?_⟩
    · unfold PollPoller.fillGap
      simp only [isLast, if_false, backEq, inMap]
      rfl
    · rw [swapRemove_of_getLast? backEq]
    · intro other value' found' added _
      by_cases same : other = last
      · subst same
        simp [lastIndex]
      · simp only [Function.update_of_ne same]
        rw [if_neg]
        intro sameIndex
        exact same (invariant.index_inj found' added lastFound lastKnown (by omega))
    · intro other value' found' notAdded
      have isOther : other ≠ last := by
        rintro rfl
        rw [lastFound] at found'
        rw [← Option.some.inj found', lastKnown] at notAdded
        simp at notAdded
      exact Function.update_of_ne isOther _ _

theorem removeChannel (invariant : Invariant world)
    (found : world.heap channel = some value) (known : value.channel.addedToLoop_ = true)
    (isNone : value.channel.isNoneEvent = true) :
    ∃ after, world.poller.removeChannel channel value.remove = .ok after ∧
      Invariant { world.store channel (some value.remove) with poller := after } := by
  obtain ⟨idx, pfd, indexEq, entry, slot, entryEq⟩ :=
    invariant.entryOf found known value.remove_fd
  obtain ⟨after, gapEq, afterInvariant⟩ := invariant.fillGap found known isNone indexEq
  have noEvents : value.channel.events_ = 0#32 := by
    simpa [Channel.isNoneEvent, Channel.kNoneEvent] using isNone
  have pfdOk : pfd.fd = -(value.remove.fd_ : Int) - 1 ∧
      pfd.events.signExtend 32 = value.remove.channel.events_ := by
    refine ⟨?_, ?_⟩
    · rw [slot.1, slotFd, isNone, if_pos rfl]
      rfl
    · rw [slot.2, noEvents, show value.remove.channel.events_ = value.channel.events_ from rfl,
        noEvents]
      rfl
  refine ⟨after, ?_, afterInvariant⟩
  unfold PollPoller.removeChannel
  rw [Except.bind_of_ok (check_of (by rw [FdChannel.remove_isNoneEvent, isNone])),
    Except.bind_of_ok entryEq, Except.bind_of_ok (check_of pfdOk), indexEq,
    Int.toNat_natCast]
  exact gapEq

theorem destroy (invariant : Invariant world) (found : world.heap channel = some value)
    (unknown : value.channel.addedToLoop_ = false) :
    Invariant { world.store channel none with opened := world.opened.erase value.fd_ } := by
  have stays {other : ChannelPtr} {value' : FdChannel}
      (found' : (world.store channel none).heap other = some value') :
      world.heap other = some value' := by
    by_cases same : other = channel
    · subst same
      simp at found'
    · rw [PollWorld.store_of_ne _ _ same] at found'
      exact found'
  have keeps {other : ChannelPtr} {value' : FdChannel}
      (found' : world.heap other = some value')
      (added : value'.channel.addedToLoop_ = true) :
      (world.store channel none).heap other = some value' := by
    rw [PollWorld.store_of_ne, found']
    rintro rfl
    rw [found] at found'
    rw [← Option.some.inj found', unknown] at added
    simp at added
  refine ⟨invariant.toHeapInvariant.destroy found rfl rfl,
    fun _ _ found' => invariant.fresh _ _ (stays found'), ?_,
    fun _ _ found' => invariant.slot _ _ (stays found'), ?_⟩
  · intro fd other
    simp only [show (world.store channel none).poller.channels_ = world.poller.channels_ from rfl,
      invariant.channels]
    constructor
    · rintro ⟨value', found', fdEq, added⟩
      exact ⟨value', keeps found' added, fdEq, added⟩
    · rintro ⟨value', found', fdEq, added⟩
      exact ⟨value', stays found', fdEq, added⟩
  · intro idx inside
    obtain ⟨other, value', found', added, indexEq⟩ := invariant.owner idx inside
    exact ⟨other, value', keeps found' added, added, indexEq⟩

end Invariant

/-- What the assertions of `PollPoller` demand of an update: the channel was not
removed, and the first update leaves it waiting for something. -/
def Demands {Poller : Type} (world : PollWorld Poller) : ChannelEvent → Prop
  | .update channel op => ∀ value ∈ world.heap channel, value.retired = false ∧
      (value.channel.addedToLoop_ = false → (value.update op).channel.isNoneEvent = false)
  | _ => True

instance {Poller : Type} (world : PollWorld Poller) (event : ChannelEvent) :
    Decidable (Demands world event) :=
  match event with
  | .update _ _ => inferInstanceAs (Decidable (∀ _ ∈ _, _))
  | .poll _ | .create _ _ | .remove _ | .destroy _ => inferInstanceAs (Decidable True)

def system : EventSystem (PollWorld PollPoller) ChannelEvent where
  next world event := (world.step ops event).toOption
  offered world event := world.Offered event ∧ Demands world event

instance (world : PollWorld PollPoller) (event : ChannelEvent) :
    Decidable (system.offered world event) :=
  inferInstanceAs (Decidable (_ ∧ _))

theorem Invariant.step (invariant : Invariant world) {event : ChannelEvent}
    (offered : world.Offered event) (demands : Demands world event) :
    ∃ after, world.step ops event = .ok after ∧ Invariant after := by
  cases event with
  | poll numEvents => exact ⟨_, rfl, invariant⟩
  | create channel fd => exact ⟨_, rfl, invariant.create offered.1 offered.2⟩
  | update channel op =>
      obtain ⟨value, found⟩ := Option.isSome_iff_exists.mp offered
      obtain ⟨current, waits⟩ := demands value found
      obtain ⟨after, updateEq, afterInvariant⟩ := invariant.updateChannel
        (value.update op) found rfl current (value.update_added op) waits
      refine ⟨_, ?_, afterInvariant⟩
      simp only [PollWorld.step, PollWorld.update]
      rw [Except.bind_of_ok (PollWorld.deref_of found)]
      exact Except.bind_of_ok updateEq _
  | remove channel =>
      obtain ⟨value, found, known, isNone⟩ := offered
      obtain ⟨after, removeEq, afterInvariant⟩ := invariant.removeChannel found known isNone
      refine ⟨_, ?_, afterInvariant⟩
      simp only [PollWorld.step, PollWorld.remove]
      rw [Except.bind_of_ok (PollWorld.deref_of found), Except.bind_of_ok (check_of isNone)]
      exact Except.bind_of_ok removeEq _
  | destroy channel =>
      obtain ⟨value, found, unknown⟩ := offered
      have notHeld : ops.hasChannel world.poller channel value = false := by
        simp [ops, hasChannel, invariant.channels_eq_none found unknown]
      refine ⟨_, ?_, invariant.destroy found unknown⟩
      simp only [PollWorld.step, PollWorld.destroy]
      rw [Except.bind_of_ok (PollWorld.deref_of found),
        Except.bind_of_ok (check_of unknown), Except.bind_of_ok (check_of notHeld)]
      rfl

end PollPoller

end TcpMysql
