import TcpMysql.PollWorld

/-!
# `EPollPoller`

The poller that the server uses.  The kernel keeps the set of descriptors, and
`epoll_ctl` changes it; `index_` says whether the channel is in the set.  The set
always holds every channel that waits for an event, with its mask, so no
`epoll_ctl` fails and every event reported belongs to a living channel.  A call of
`epoll_ctl` fails when it adds a descriptor that is in the set, or changes or
deletes one that is not.

A channel that waits for nothing is taken out of the set, but an update that
leaves it waiting for nothing puts it back with an empty mask.
-/

namespace TcpMysql

/-- The operations of `epoll_ctl`. -/
inductive EpollOp
  | EPOLL_CTL_ADD
  | EPOLL_CTL_MOD
  | EPOLL_CTL_DEL
  deriving DecidableEq, Repr

/-- `epollfd_` is the set of the kernel: for each descriptor the mask and the
`data.ptr`.  `events_` is the size of the array for `epoll_wait`, and `logged` counts
the failing calls of `epoll_ctl` that `update` has only logged. -/
structure EPollPoller where
  index_ : ChannelPtr → Int
  channels_ : Nat → Option ChannelPtr
  epollfd_ : Nat → Option (BitVec 32 × ChannelPtr)
  events_ : Nat
  logged : Nat

namespace EPollPoller

def kNew : Int := -1
def kAdded : Int := 1
def kDeleted : Int := 2

def kInitEventListSize : Nat := 16

def new : EPollPoller where
  index_ _ := kNew
  channels_ _ := none
  epollfd_ _ := none
  events_ := kInitEventListSize
  logged := 0

def set_index (poller : EPollPoller) (channel : ChannelPtr) (idx : Int) : EPollPoller :=
  { poller with index_ := Function.update poller.index_ channel idx }

/-- `update`: a failing `EPOLL_CTL_DEL` is logged, and the others are fatal. -/
def update (poller : EPollPoller) (operation : EpollOp) (channel : ChannelPtr)
    (value : FdChannel) : Except PollFault EPollPoller :=
  match operation, poller.epollfd_ value.fd_ with
  | .EPOLL_CTL_ADD, none | .EPOLL_CTL_MOD, some _ =>
      .ok { poller with
        epollfd_ := Function.update poller.epollfd_ value.fd_
          (some (value.channel.events_, channel)) }
  | .EPOLL_CTL_ADD, some _ | .EPOLL_CTL_MOD, none => .error .epollCtl
  | .EPOLL_CTL_DEL, some _ =>
      .ok { poller with epollfd_ := Function.update poller.epollfd_ value.fd_ none }
  | .EPOLL_CTL_DEL, none => .ok { poller with logged := poller.logged + 1 }

/-- The first branch of `updateChannel`, up to the call of `update`. -/
def register (poller : EPollPoller) (channel : ChannelPtr) (value : FdChannel) :
    Except PollFault EPollPoller :=
  if poller.index_ channel = kNew then do
    check .assertion (poller.channels_ value.fd_ = none)
    return { poller with
      channels_ := Function.update poller.channels_ value.fd_ (some channel) }
  else do
    check .assertion (poller.channels_ value.fd_ ≠ none)
    check .assertion (poller.channels_ value.fd_ = some channel)
    return poller

def updateChannel (poller : EPollPoller) (channel : ChannelPtr) (value : FdChannel) :
    Except PollFault EPollPoller :=
  if poller.index_ channel = kNew ∨ poller.index_ channel = kDeleted then do
    let registered ← poller.register channel value
    (registered.set_index channel kAdded).update .EPOLL_CTL_ADD channel value
  else do
    check .assertion (poller.channels_ value.fd_ ≠ none)
    check .assertion (poller.channels_ value.fd_ = some channel)
    check .assertion (poller.index_ channel = kAdded)
    if value.channel.isNoneEvent then
      let updated ← poller.update .EPOLL_CTL_DEL channel value
      return updated.set_index channel kDeleted
    else
      poller.update .EPOLL_CTL_MOD channel value

/-- The last part of `removeChannel`. -/
def unregister (poller : EPollPoller) (channel : ChannelPtr) (value : FdChannel) :
    Except PollFault EPollPoller :=
  if poller.index_ channel = kAdded then poller.update .EPOLL_CTL_DEL channel value
  else .ok poller

def removeChannel (poller : EPollPoller) (channel : ChannelPtr) (value : FdChannel) :
    Except PollFault EPollPoller := do
  check .assertion (poller.channels_ value.fd_ ≠ none)
  check .assertion (poller.channels_ value.fd_ = some channel)
  check .assertion (value.channel.isNoneEvent = true)
  check .assertion (poller.index_ channel = kAdded ∨ poller.index_ channel = kDeleted)
  let erased := { poller with
    channels_ := Function.update poller.channels_ value.fd_ none }
  let unregistered ← erased.unregister channel value
  return unregistered.set_index channel kNew

def hasChannel (poller : EPollPoller) (channel : ChannelPtr) (value : FdChannel) : Bool :=
  poller.channels_ value.fd_ == some channel

/-- The loop of `fillActiveChannels`: the channel of each event is looked up, and
its `revents_` are set. -/
def fillActiveChannels (world : PollWorld EPollPoller)
    (events : List (BitVec 32 × ChannelPtr)) :
    Except PollFault (List (ChannelPtr × BitVec 32)) := do
  check .assertion (events.length ≤ world.poller.events_)
  events.mapM fun event => do
    let value ← world.deref event.2
    check .assertion (world.poller.channels_ value.fd_ ≠ none)
    check .assertion (world.poller.channels_ value.fd_ = some event.2)
    return (event.2, event.1)

/-- The end of `poll`: a full array is doubled. -/
def polled (poller : EPollPoller) (numEvents : Nat) : EPollPoller :=
  if 0 < numEvents ∧ numEvents = poller.events_ then
    { poller with events_ := poller.events_ * 2 }
  else
    poller

/-- `poll`, when `epoll_wait` has filled the array with the given events. -/
def poll (world : PollWorld EPollPoller) (events : List (BitVec 32 × ChannelPtr)) :
    Except PollFault (List (ChannelPtr × BitVec 32) × PollWorld EPollPoller) := do
  let activeChannels ← fillActiveChannels world events
  return (activeChannels, { world with poller := world.poller.polled events.length })

/-- What `epoll_wait` may return when the descriptors are ready for the given
events: no more than fit, each once, and all of them if they fit. -/
structure Waits (world : PollWorld EPollPoller) (ready : Nat → BitVec 32)
    (events : List (BitVec 32 × ChannelPtr)) : Prop where
  fits : events.length ≤ world.poller.events_
  nodup : (events.map Prod.snd).Nodup
  sound : ∀ event ∈ events, ∃ fd mask, world.poller.epollfd_ fd = some (mask, event.2) ∧
    event.1 = PollWorld.reported (ready fd) mask ∧ event.1 ≠ 0
  complete : events.length < world.poller.events_ → ∀ fd mask channel,
    world.poller.epollfd_ fd = some (mask, channel) →
      PollWorld.reported (ready fd) mask ≠ 0 →
        (PollWorld.reported (ready fd) mask, channel) ∈ events

def ops : PollerOps EPollPoller where
  forget poller channel := poller.set_index channel kNew
  polled := polled
  updateChannel := updateChannel
  removeChannel := removeChannel
  hasChannel := hasChannel

/-! ## The set of the kernel -/

/-- The set holds every channel that the loop knows and that waits for something,
with its mask and nothing else but channels that wait for nothing. -/
structure Invariant (world : PollWorld EPollPoller) : Prop
    extends world.HeapInvariant where
  index : ∀ channel value, world.heap channel = some value →
    (value.channel.addedToLoop_ = false ∧ world.poller.index_ channel = kNew) ∨
      (value.channel.addedToLoop_ = true ∧ world.poller.index_ channel = kAdded) ∨
        (value.channel.addedToLoop_ = true ∧ world.poller.index_ channel = kDeleted ∧
          value.channel.isNoneEvent = true)
  channels : ∀ fd channel, world.poller.channels_ fd = some channel ↔
    ∃ value, world.heap channel = some value ∧ value.fd_ = fd ∧
      value.channel.addedToLoop_ = true
  epoll : ∀ fd events channel, world.poller.epollfd_ fd = some (events, channel) ↔
    ∃ value, world.heap channel = some value ∧ value.fd_ = fd ∧
      world.poller.index_ channel = kAdded ∧ value.channel.events_ = events
  logged : world.poller.logged = 0

theorem new_invariant : Invariant (.new new) where
  toHeapInvariant := PollWorld.new_heapInvariant new
  index := by simp [PollWorld.new]
  channels := by simp [PollWorld.new, new]
  epoll := by simp [PollWorld.new, new]
  logged := rfl

variable {world : PollWorld EPollPoller} {channel : ChannelPtr}
  {value changed : FdChannel}

theorem Invariant.registered (invariant : Invariant world)
    (found : world.heap channel = some value) (known : value.channel.addedToLoop_ = true) :
    world.poller.channels_ value.fd_ = some channel :=
  (invariant.channels _ _).mpr ⟨value, found, rfl, known⟩

theorem Invariant.channels_eq_none (invariant : Invariant world)
    (found : world.heap channel = some value)
    (unknown : value.channel.addedToLoop_ = false) :
    world.poller.channels_ value.fd_ = none := by
  cases entry : world.poller.channels_ value.fd_ with
  | none => rfl
  | some other =>
      obtain ⟨value', found', fdEq, known⟩ := (invariant.channels _ _).mp entry
      obtain rfl := invariant.fd_inj _ _ _ _ found' found fdEq
      rw [found] at found'
      obtain rfl := Option.some.inj found'
      simp [unknown] at known

theorem Invariant.epoll_eq_none (invariant : Invariant world)
    (found : world.heap channel = some value)
    (notAdded : world.poller.index_ channel ≠ kAdded) :
    world.poller.epollfd_ value.fd_ = none := by
  cases entry : world.poller.epollfd_ value.fd_ with
  | none => rfl
  | some pair =>
      obtain ⟨value', found', fdEq, added, -⟩ := (invariant.epoll _ pair.1 pair.2).mp entry
      exact absurd (invariant.fd_inj _ _ _ _ found' found fdEq ▸ added) notAdded

theorem Invariant.known_of_added (invariant : Invariant world)
    (found : world.heap channel = some value)
    (added : world.poller.index_ channel = kAdded) :
    value.channel.addedToLoop_ = true := by
  rcases invariant.index _ _ found with ⟨-, isNew⟩ | ⟨known, -⟩ | ⟨known, -⟩
  · rw [added] at isNew
    exact absurd isNew (by decide)
  · exact known
  · exact known

theorem Invariant.epoll_of_added (invariant : Invariant world)
    (found : world.heap channel = some value)
    (added : world.poller.index_ channel = kAdded) :
    world.poller.epollfd_ value.fd_ = some (value.channel.events_, channel) :=
  (invariant.epoll _ _ _).mpr ⟨value, found, rfl, added, rfl⟩

/-- `poll` changes at most the size of the array. -/
theorem polled_eq (poller : EPollPoller) (numEvents : Nat) :
    poller.polled numEvents =
      { poller with events_ := (poller.polled numEvents).events_ } := by
  unfold polled
  split <;> rfl

/-- The poller with a channel in the set. -/
def watching (poller : EPollPoller) (channel : ChannelPtr) (value : FdChannel) :
    EPollPoller :=
  { poller with
    index_ := Function.update poller.index_ channel kAdded
    channels_ := Function.update poller.channels_ value.fd_ (some channel)
    epollfd_ := Function.update poller.epollfd_ value.fd_
      (some (value.channel.events_, channel)) }

/-- The poller with a channel that it knows out of the set. -/
def paused (poller : EPollPoller) (channel : ChannelPtr) (value : FdChannel) :
    EPollPoller :=
  { poller with
    index_ := Function.update poller.index_ channel kDeleted
    epollfd_ := Function.update poller.epollfd_ value.fd_ none }

/-- The poller without a channel. -/
def without (poller : EPollPoller) (channel : ChannelPtr) (value : FdChannel) :
    EPollPoller :=
  { poller with
    index_ := Function.update poller.index_ channel kNew
    channels_ := Function.update poller.channels_ value.fd_ none
    epollfd_ := Function.update poller.epollfd_ value.fd_ none }

theorem updateChannel_new {poller : EPollPoller} (isNew : poller.index_ channel = kNew)
    (unregistered : poller.channels_ value.fd_ = none)
    (absent : poller.epollfd_ value.fd_ = none) :
    poller.updateChannel channel value = .ok (poller.watching channel value) := by
  unfold updateChannel
  rw [if_pos (.inl isNew)]
  have registerEq : poller.register channel value = .ok { poller with
      channels_ := Function.update poller.channels_ value.fd_ (some channel) } := by
    unfold register
    rw [if_pos isNew, Except.bind_of_ok (check_of unregistered)]
    rfl
  rw [Except.bind_of_ok registerEq]
  simp [update, set_index, absent, watching]

theorem updateChannel_deleted {poller : EPollPoller}
    (isDeleted : poller.index_ channel = kDeleted)
    (registered : poller.channels_ value.fd_ = some channel)
    (absent : poller.epollfd_ value.fd_ = none) :
    poller.updateChannel channel value = .ok (poller.watching channel value) := by
  unfold updateChannel
  rw [if_pos (.inr isDeleted)]
  have registerEq : poller.register channel value = .ok poller := by
    unfold register
    rw [if_neg (by rw [isDeleted]; decide), Except.bind_of_ok (check_of (by simp [registered])),
      Except.bind_of_ok (check_of registered)]
    rfl
  rw [Except.bind_of_ok registerEq]
  simp [update, set_index, absent, watching, ← registered]

theorem updateChannel_added {poller : EPollPoller} {entry : BitVec 32 × ChannelPtr}
    (isAdded : poller.index_ channel = kAdded)
    (registered : poller.channels_ value.fd_ = some channel)
    (present : poller.epollfd_ value.fd_ = some entry) :
    poller.updateChannel channel value =
      .ok (if value.channel.isNoneEvent then poller.paused channel value
        else poller.watching channel value) := by
  unfold updateChannel
  rw [if_neg (by rw [isAdded]; decide), Except.bind_of_ok (check_of (by simp [registered])),
    Except.bind_of_ok (check_of registered), Except.bind_of_ok (check_of isAdded)]
  split
  · simp only [update, present]
    rfl
  · simp [update, present, watching, ← registered, ← isAdded]

theorem removeChannel_of {poller : EPollPoller}
    (registered : poller.channels_ value.fd_ = some channel)
    (none : value.channel.isNoneEvent = true)
    (known : poller.index_ channel = kAdded ∧ (∃ entry, poller.epollfd_ value.fd_ = some entry) ∨
      poller.index_ channel = kDeleted ∧ poller.epollfd_ value.fd_ = .none) :
    poller.removeChannel channel value = .ok (poller.without channel value) := by
  unfold removeChannel
  rw [Except.bind_of_ok (check_of (by simp [registered])),
    Except.bind_of_ok (check_of registered), Except.bind_of_ok (check_of none),
    Except.bind_of_ok (check_of (known.imp And.left And.left))]
  unfold unregister
  rcases known with ⟨isAdded, entry, present⟩ | ⟨isDeleted, absent⟩
  · simp only [isAdded, if_true, update, present]
    rfl
  · have notAdded : ¬poller.index_ channel = kAdded := by
      rw [isDeleted]
      decide
    simp only [notAdded, if_false]
    simp [set_index, without, ← absent, bind, Except.bind, pure, Except.pure]

/-- A channel that the loop knows now, in the set or out of it. -/
theorem Invariant.update (invariant : Invariant world)
    (found : world.heap channel = some value) (fdEq : changed.fd_ = value.fd_)
    (known : changed.channel.addedToLoop_ = true) {index : Int}
    (indexEq : index = kAdded ∨ index = kDeleted ∧ changed.channel.isNoneEvent = true)
    {after : EPollPoller}
    (afterIndex : after.index_ = Function.update world.poller.index_ channel index)
    (afterChannels : after.channels_ =
      Function.update world.poller.channels_ value.fd_ (some channel))
    (afterEpoll : after.epollfd_ = Function.update world.poller.epollfd_ value.fd_
      (if index = kAdded then some (changed.channel.events_, channel) else none))
    (afterLogged : after.logged = world.poller.logged) :
    Invariant { world.store channel (some changed) with poller := after } := by
  have heapSelf : (world.store channel (some changed)).heap channel = some changed :=
    PollWorld.store_self _ _ _
  have heapOther {other : ChannelPtr} (differs : other ≠ channel) :
      (world.store channel (some changed)).heap other = world.heap other :=
    PollWorld.store_of_ne _ _ differs
  have heapAfter : PollWorld.HeapInvariant
      { world.store channel (some changed) with poller := after } :=
    invariant.change changed found fdEq (fun unknown => by simp [known] at unknown) rfl rfl
  have isOther {other : ChannelPtr} {value' : FdChannel} (differs : other ≠ channel)
      (found' : world.heap other = some value') : value'.fd_ ≠ value.fd_ :=
    fun same => differs (invariant.fd_inj _ _ _ _ found' found same)
  refine ⟨heapAfter, ?_, ?_, ?_, afterLogged.trans invariant.logged⟩
  · intro other value' found'
    simp only at found' ⊢
    rw [afterIndex]
    by_cases same : other = channel
    · subst same
      rw [heapSelf] at found'
      obtain rfl := Option.some.inj found'
      simp only [known, Function.update_self]
      rcases indexEq with rfl | ⟨rfl, isNone⟩
      · simp
      · simp [isNone]
    · rw [heapOther same] at found'
      rw [Function.update_of_ne same]
      exact invariant.index _ _ found'
  · intro fd other
    simp only
    rw [afterChannels]
    by_cases same : other = channel
    · subst same
      simp only [heapSelf, Option.some.injEq, exists_eq_left', fdEq, known, and_true]
      by_cases sameFd : fd = value.fd_
      · simp [sameFd]
      · rw [Function.update_of_ne sameFd, invariant.channels, found]
        simp only [Option.some.injEq, exists_eq_left']
        exact ⟨fun holds => holds.1, fun holds => absurd holds.symm sameFd⟩
    · rw [heapOther same]
      by_cases sameFd : fd = value.fd_
      · subst sameFd
        simp only [Function.update_self, Option.some.injEq, Ne.symm same, false_iff]
        rintro ⟨value', found', fdEq', -⟩
        exact isOther same found' fdEq'
      · rw [Function.update_of_ne sameFd, invariant.channels]
  · intro fd events other
    simp only
    rw [afterEpoll, afterIndex]
    by_cases same : other = channel
    · subst same
      simp only [heapSelf, Option.some.injEq, exists_eq_left', fdEq, Function.update_self]
      by_cases sameFd : fd = value.fd_
      · subst sameFd
        rw [Function.update_self]
        split
        · rename_i isAdded
          simp [isAdded]
        · rename_i notAdded
          simp [notAdded]
      · rw [Function.update_of_ne sameFd, invariant.epoll, found]
        simp only [Option.some.injEq, exists_eq_left']
        exact ⟨fun holds => absurd holds.1.symm sameFd, fun holds => absurd holds.1.symm sameFd⟩
    · rw [heapOther same, Function.update_of_ne same]
      by_cases sameFd : fd = value.fd_
      · subst sameFd
        rw [Function.update_self]
        constructor
        · split
          · intro entry
            simp [Ne.symm same] at entry
          · simp
        · rintro ⟨value', found', fdEq', -⟩
          exact absurd fdEq' (isOther same found')
      · rw [Function.update_of_ne sameFd, invariant.epoll]

/-- A channel that the loop does not know. -/
theorem Invariant.forget (invariant : Invariant world) {after : PollWorld EPollPoller}
    (heapInvariant : after.HeapInvariant)
    (stays : ∀ other, other ≠ channel → after.heap other = world.heap other)
    (unknown : ∀ value', after.heap channel = some value' →
      value'.channel.addedToLoop_ = false)
    (indexSelf : after.poller.index_ channel = kNew)
    (indexOther : ∀ other, other ≠ channel →
      after.poller.index_ other = world.poller.index_ other)
    (channelsEq : ∀ fd other, after.poller.channels_ fd = some other ↔
      world.poller.channels_ fd = some other ∧ other ≠ channel)
    (epollEq : ∀ fd events other, after.poller.epollfd_ fd = some (events, other) ↔
      world.poller.epollfd_ fd = some (events, other) ∧ other ≠ channel)
    (loggedEq : after.poller.logged = world.poller.logged) : Invariant after := by
  refine ⟨heapInvariant, ?_, ?_, ?_, loggedEq.trans invariant.logged⟩
  · intro other value' found
    by_cases same : other = channel
    · subst same
      exact .inl ⟨unknown value' found, indexSelf⟩
    · rw [indexOther other same]
      exact invariant.index other value' (stays other same ▸ found)
  · intro fd other
    rw [channelsEq, invariant.channels]
    by_cases same : other = channel
    · subst same
      simp only [ne_eq, not_true, and_false, false_iff]
      rintro ⟨value', found, -, known⟩
      simp [unknown value' found] at known
    · rw [stays other same]
      simp [same]
  · intro fd events other
    rw [epollEq, invariant.epoll]
    by_cases same : other = channel
    · subst same
      simp only [ne_eq, not_true, and_false, false_iff, indexSelf]
      rintro ⟨value', -, -, added, -⟩
      exact absurd added (by decide)
    · rw [stays other same, indexOther other same]
      simp [same]

theorem Invariant.create (invariant : Invariant world) {fd : Nat}
    (free : world.heap channel = none) (unopened : fd ∉ world.opened) :
    Invariant (world.create ops channel fd) := by
  refine invariant.forget (invariant.toHeapInvariant.create unopened rfl rfl)
    (fun other differs => PollWorld.store_of_ne _ _ differs) ?_
    (Function.update_self _ _ _) (fun other differs => Function.update_of_ne differs _ _) ?_ ?_
    rfl
  · intro value' found
    rw [show (world.create ops channel fd).heap channel = some ⟨fd, .new, false⟩ from
      PollWorld.store_self _ _ _] at found
    rw [← Option.some.inj found]
    rfl
  · intro fd' other
    have sameChannels : (world.create ops channel fd).poller.channels_ =
        world.poller.channels_ := rfl
    rw [sameChannels]
    refine ⟨fun entry => ⟨entry, ?_⟩, And.left⟩
    rintro rfl
    obtain ⟨value', found, -⟩ := (invariant.channels _ _).mp entry
    simp [free] at found
  · intro fd' events other
    have sameEpoll : (world.create ops channel fd).poller.epollfd_ =
        world.poller.epollfd_ := rfl
    rw [sameEpoll]
    refine ⟨fun entry => ⟨entry, ?_⟩, And.left⟩
    rintro rfl
    obtain ⟨value', found, -⟩ := (invariant.epoll _ _ _).mp entry
    simp [free] at found

/-- What `updateChannel` leaves: the channel is in the set unless it waits for
nothing and was in the set before. -/
theorem Invariant.updateChannel (invariant : Invariant world) (changed : FdChannel)
    (found : world.heap channel = some value) (fdEq : changed.fd_ = value.fd_)
    (known : changed.channel.addedToLoop_ = true) :
    ∃ after, world.poller.updateChannel channel changed = .ok after ∧
      Invariant { world.store channel (some changed) with poller := after } ∧
        ∃ index, after.index_ = Function.update world.poller.index_ channel index ∧
          (index = kDeleted ↔
            world.poller.index_ channel = kAdded ∧ changed.channel.isNoneEvent = true) := by
  have watchingInvariant : Invariant { world.store channel (some changed) with
      poller := world.poller.watching channel changed } := by
    refine invariant.update found fdEq known (.inl rfl) rfl ?_ ?_ rfl
    · rw [← fdEq]
      rfl
    · rw [← fdEq]
      rfl
  have addedNe : kAdded ≠ kDeleted := by decide
  rcases invariant.index channel value found with
    ⟨unknown, isNew⟩ | ⟨wasKnown, isAdded⟩ | ⟨wasKnown, isDeleted, -⟩
  · have unregistered := invariant.channels_eq_none found unknown
    have absent := invariant.epoll_eq_none found (by rw [isNew]; decide)
    rw [← fdEq] at unregistered absent
    refine ⟨_, updateChannel_new isNew unregistered absent, watchingInvariant, kAdded, rfl, ?_⟩
    simp only [addedNe, false_iff, isNew]
    exact fun holds => absurd holds.1 (by decide)
  · have registered := invariant.registered found wasKnown
    have present := invariant.epoll_of_added found isAdded
    rw [← fdEq] at registered present
    refine ⟨_, updateChannel_added isAdded registered present, ?_⟩
    split
    · rename_i isNone
      refine ⟨?_, kDeleted, rfl, by simp [isAdded, isNone]⟩
      refine invariant.update found fdEq known (.inr ⟨rfl, isNone⟩) rfl ?_ ?_ rfl
      · rw [← fdEq, ← registered, Function.update_eq_self]
        rfl
      · rw [← fdEq]
        rfl
    · rename_i notNone
      exact ⟨watchingInvariant, kAdded, rfl, by simp [addedNe, notNone]⟩
  · have registered := invariant.registered found wasKnown
    have absent := invariant.epoll_eq_none found (by rw [isDeleted]; decide)
    rw [← fdEq] at registered absent
    refine ⟨_, updateChannel_deleted isDeleted registered absent, watchingInvariant,
      kAdded, rfl, ?_⟩
    simp only [addedNe, false_iff, isDeleted]
    exact fun holds => absurd holds.1 (by decide)

theorem Invariant.removeChannel (invariant : Invariant world)
    (found : world.heap channel = some value) (known : value.channel.addedToLoop_ = true)
    (isNone : value.channel.isNoneEvent = true) :
    world.poller.removeChannel channel value.remove =
        .ok (world.poller.without channel value.remove) ∧
      Invariant { world.store channel (some value.remove) with
        poller := world.poller.without channel value.remove } := by
  have registered := invariant.registered found known
  have indexCases : world.poller.index_ channel = kAdded ∧
        (∃ entry, world.poller.epollfd_ value.fd_ = some entry) ∨
      world.poller.index_ channel = kDeleted ∧ world.poller.epollfd_ value.fd_ = none := by
    rcases invariant.index channel value found with
      ⟨unknown, -⟩ | ⟨-, isAdded⟩ | ⟨-, isDeleted, -⟩
    · simp [known] at unknown
    · exact .inl ⟨isAdded, _, invariant.epoll_of_added found isAdded⟩
    · exact .inr ⟨isDeleted, invariant.epoll_eq_none found (by rw [isDeleted]; decide)⟩
  have stillNone : value.remove.channel.isNoneEvent = true := by
    rw [FdChannel.remove_isNoneEvent, isNone]
  refine ⟨removeChannel_of registered stillNone indexCases, ?_⟩
  have fdOf {other : ChannelPtr} {fd : Nat}
      (entry : world.poller.channels_ fd = some other) : fd = value.fd_ ↔ other = channel := by
    obtain ⟨value', found', rfl, -⟩ := (invariant.channels _ _).mp entry
    constructor
    · exact invariant.fd_inj _ _ _ _ found' found
    · rintro rfl
      rw [Option.some.inj (found'.symm.trans found)]
  have epollFdOf {other : ChannelPtr} {fd : Nat} {events : BitVec 32}
      (entry : world.poller.epollfd_ fd = some (events, other)) :
      fd = value.fd_ ↔ other = channel := by
    obtain ⟨value', found', rfl, -⟩ := (invariant.epoll _ _ _).mp entry
    constructor
    · exact invariant.fd_inj _ _ _ _ found' found
    · rintro rfl
      rw [Option.some.inj (found'.symm.trans found)]
  refine invariant.forget
    (invariant.change value.remove found rfl (fun _ => stillNone) rfl rfl)
    (fun other differs => PollWorld.store_of_ne _ _ differs) ?_
    (Function.update_self _ _ _) (fun other differs => Function.update_of_ne differs _ _) ?_ ?_
    rfl
  · intro value' found'
    rw [PollWorld.store_self] at found'
    rw [← Option.some.inj found']
    rfl
  · intro fd other
    simp only [without, FdChannel.remove_fd]
    by_cases sameFd : fd = value.fd_
    · subst sameFd
      simp [registered, eq_comm]
    · rw [Function.update_of_ne sameFd]
      exact ⟨fun entry => ⟨entry, fun same => sameFd ((fdOf entry).mpr same)⟩, And.left⟩
  · intro fd events other
    simp only [without, FdChannel.remove_fd]
    by_cases sameFd : fd = value.fd_
    · subst sameFd
      simp only [Function.update_self, reduceCtorEq, false_iff, not_and, not_not]
      exact fun entry => (epollFdOf entry).mp rfl
    · rw [Function.update_of_ne sameFd]
      exact ⟨fun entry => ⟨entry, fun same => sameFd ((epollFdOf entry).mpr same)⟩, And.left⟩

theorem Invariant.destroy (invariant : Invariant world)
    (found : world.heap channel = some value)
    (unknown : value.channel.addedToLoop_ = false) :
    Invariant { world.store channel none with opened := world.opened.erase value.fd_ } := by
  have isNew : world.poller.index_ channel = kNew := by
    rcases invariant.index channel value found with ⟨-, isNew⟩ | ⟨known, -⟩ | ⟨known, -⟩
    · exact isNew
    · simp [unknown] at known
    · simp [unknown] at known
  refine invariant.forget (invariant.toHeapInvariant.destroy found rfl rfl)
    (fun other differs => PollWorld.store_of_ne _ _ differs) ?_ isNew (fun _ _ => rfl) ?_ ?_
    rfl
  · intro value' found'
    rw [show _ = none from PollWorld.store_self world channel none] at found'
    simp at found'
  · intro fd other
    refine ⟨fun entry => ⟨entry, ?_⟩, And.left⟩
    rintro rfl
    obtain ⟨value', found', -, known⟩ := (invariant.channels _ _).mp entry
    rw [found] at found'
    obtain rfl := Option.some.inj found'
    simp [unknown] at known
  · intro fd events other
    refine ⟨fun entry => ⟨entry, ?_⟩, And.left⟩
    rintro rfl
    obtain ⟨value', -, -, added, -⟩ := (invariant.epoll _ _ _).mp entry
    rw [isNew] at added
    exact absurd added (by decide)

theorem Invariant.polled (invariant : Invariant world) (numEvents : Nat) :
    Invariant { world with poller := world.poller.polled numEvents } := by
  rw [polled_eq]
  exact ⟨⟨invariant.opened_nodup, invariant.fd_opened, invariant.fd_inj, invariant.unknown⟩,
    invariant.index, invariant.channels, invariant.epoll, invariant.logged⟩

/-- What each event does to the world. -/
inductive Steps (world : PollWorld EPollPoller) : ChannelEvent → PollWorld EPollPoller → Prop
  | poll {numEvents : Nat} :
      Steps world (.poll numEvents) { world with poller := world.poller.polled numEvents }
  | create {channel : ChannelPtr} {fd : Nat} (free : world.heap channel = none) :
      Steps world (.create channel fd) (world.create ops channel fd)
  | update {channel : ChannelPtr} {op : ChannelOp} {value : FdChannel} {index : Int}
      {after : EPollPoller} (found : world.heap channel = some value)
      (indexEq : after.index_ = Function.update world.poller.index_ channel index)
      (deleted : index = kDeleted ↔ world.poller.index_ channel = kAdded ∧
        (value.update op).channel.isNoneEvent = true) :
      Steps world (.update channel op)
        { world.store channel (some (value.update op)) with poller := after }
  | remove {channel : ChannelPtr} {value : FdChannel}
      (found : world.heap channel = some value) :
      Steps world (.remove channel)
        { world.store channel (some value.remove) with
          poller := world.poller.without channel value.remove }
  | destroy {channel : ChannelPtr} {value : FdChannel}
      (found : world.heap channel = some value) :
      Steps world (.destroy channel)
        { world.store channel none with opened := world.opened.erase value.fd_ }

theorem Invariant.step (invariant : Invariant world) {event : ChannelEvent}
    (offered : world.Offered event) :
    ∃ after, world.step ops event = .ok after ∧ Invariant after ∧
      Steps world event after := by
  cases event with
  | poll numEvents => exact ⟨_, rfl, invariant.polled numEvents, .poll⟩
  | create channel fd =>
      exact ⟨_, rfl, invariant.create offered.1 offered.2, .create offered.1⟩
  | update channel op =>
      obtain ⟨value, found⟩ := Option.isSome_iff_exists.mp offered
      obtain ⟨after, updateEq, afterInvariant, index, indexEq, deleted⟩ :=
        invariant.updateChannel (value.update op) found rfl (value.update_added op)
      refine ⟨_, ?_, afterInvariant, .update found indexEq deleted⟩
      simp only [PollWorld.step, PollWorld.update]
      rw [Except.bind_of_ok (PollWorld.deref_of found)]
      exact Except.bind_of_ok updateEq _
  | remove channel =>
      obtain ⟨value, found, known, isNone⟩ := offered
      obtain ⟨removeEq, afterInvariant⟩ := invariant.removeChannel found known isNone
      refine ⟨_, ?_, afterInvariant, .remove found⟩
      simp only [PollWorld.step, PollWorld.remove]
      rw [Except.bind_of_ok (PollWorld.deref_of found), Except.bind_of_ok (check_of isNone)]
      exact Except.bind_of_ok removeEq _
  | destroy channel =>
      obtain ⟨value, found, unknown⟩ := offered
      have notHeld : ops.hasChannel world.poller channel value = false := by
        simp [ops, hasChannel, invariant.channels_eq_none found unknown]
      refine ⟨_, ?_, invariant.destroy found unknown, .destroy found⟩
      simp only [PollWorld.step, PollWorld.destroy]
      rw [Except.bind_of_ok (PollWorld.deref_of found),
        Except.bind_of_ok (check_of unknown), Except.bind_of_ok (check_of notHeld)]
      rfl

theorem invariant_of_reaches {events : List ChannelEvent}
    (run : (PollWorld.system ops).Reaches (.new new) events world) : Invariant world := by
  apply run.invariant fun _ world => Invariant world
  · exact new_invariant
  · intro _ before event after _ invariant offered stepTo
    obtain ⟨after', stepEq, afterInvariant, -⟩ := invariant.step offered
    rw [Except.toOption_eq_some_iff.mp stepTo] at stepEq
    obtain rfl := Except.ok.inj stepEq
    exact afterInvariant

/-! ## What is reported -/

theorem Waits.entries {ready : Nat → BitVec 32} {events : List (BitVec 32 × ChannelPtr)}
    (waits : Waits world ready events) :
    ∀ event ∈ events, ∃ fd mask, world.poller.epollfd_ fd = some (mask, event.2) := by
  intro event member
  obtain ⟨fd, mask, entry, -⟩ := waits.sound event member
  exact ⟨fd, mask, entry⟩

theorem Invariant.fillActiveChannels (invariant : Invariant world)
    {events : List (BitVec 32 × ChannelPtr)} (fits : events.length ≤ world.poller.events_)
    (entries : ∀ event ∈ events, ∃ fd mask,
      world.poller.epollfd_ fd = some (mask, event.2)) :
    EPollPoller.fillActiveChannels world events =
      .ok (events.map fun event => (event.2, event.1)) := by
  have each : ∀ event ∈ events, (do
      let value ← world.deref event.2
      check .assertion (world.poller.channels_ value.fd_ ≠ none)
      check .assertion (world.poller.channels_ value.fd_ = some event.2)
      return (event.2, event.1) : Except PollFault (ChannelPtr × BitVec 32)) =
        .ok (event.2, event.1) := by
    intro event member
    obtain ⟨fd, mask, entry⟩ := entries event member
    obtain ⟨value, found, -, added, -⟩ := (invariant.epoll _ _ _).mp entry
    have known := invariant.known_of_added found added
    have registered := invariant.registered found known
    rw [Except.bind_of_ok (PollWorld.deref_of found),
      Except.bind_of_ok (check_of (by simp [registered])),
      Except.bind_of_ok (check_of registered)]
    rfl
  unfold EPollPoller.fillActiveChannels
  rw [Except.bind_of_ok (check_of fits)]
  clear fits entries
  induction events with
  | nil => rfl
  | cons event events ih =>
      rw [List.mapM_cons, Except.bind_of_ok (each event List.mem_cons_self),
        Except.bind_of_ok (ih fun other member => each other (List.mem_cons_of_mem _ member))]
      rfl

/-- The channel of an event that the kernel reports is known to the loop. -/
theorem Invariant.known_of_mem (invariant : Invariant world) {ready : Nat → BitVec 32}
    {events : List (BitVec 32 × ChannelPtr)} (waits : Waits world ready events)
    {revents : BitVec 32} (member : (channel, revents) ∈
      events.map fun event => (event.2, event.1)) :
    ∃ value, world.heap channel = some value ∧ value.channel.addedToLoop_ = true ∧
      world.poller.index_ channel = kAdded ∧
        revents = PollWorld.reported (ready value.fd_) value.channel.events_ ∧
          revents ≠ 0 := by
  obtain ⟨event, eventMember, eventEq⟩ := List.mem_map.mp member
  obtain ⟨rfl, rfl⟩ := Prod.mk.inj eventEq
  obtain ⟨fd, mask, entry, reportedEq, nonzero⟩ := waits.sound event eventMember
  obtain ⟨value, found, rfl, added, rfl⟩ := (invariant.epoll _ _ _).mp entry
  exact ⟨value, found, invariant.known_of_added found added, added, reportedEq, nonzero⟩

theorem Invariant.mem_of_active (invariant : Invariant world) {ready : Nat → BitVec 32}
    {events : List (BitVec 32 × ChannelPtr)} (waits : Waits world ready events)
    (room : events.length < world.poller.events_) {revents : BitVec 32}
    (active : world.Active ready channel revents) :
    (channel, revents) ∈ events.map fun event => (event.2, event.1) := by
  obtain ⟨value, ⟨found, known, waiting⟩, rfl, nonzero⟩ := active
  have added : world.poller.index_ channel = kAdded := by
    rcases invariant.index _ _ found with ⟨unknown, -⟩ | ⟨-, added⟩ | ⟨-, -, isNone⟩
    · simp [known] at unknown
    · exact added
    · simp [waiting] at isNone
  exact List.mem_map.mpr ⟨_, waits.complete room _ _ _
    (invariant.epoll_of_added found added) nonzero, rfl⟩

/-- A channel that is reported waits for an event, or it waits for nothing and has an
error or a hang-up. -/
theorem Invariant.active_or_none_of_mem (invariant : Invariant world)
    {ready : Nat → BitVec 32} {events : List (BitVec 32 × ChannelPtr)}
    (waits : Waits world ready events) {revents : BitVec 32}
    (member : (channel, revents) ∈ events.map fun event => (event.2, event.1)) :
    world.Active ready channel revents ∨
      ∃ value, world.heap channel = some value ∧ value.channel.addedToLoop_ = true ∧
        value.channel.isNoneEvent = true ∧
          revents = ready value.fd_ &&& (POLLERR ||| POLLHUP) := by
  obtain ⟨value, found, known, -, reportedEq, nonzero⟩ := invariant.known_of_mem waits member
  cases isNone : value.channel.isNoneEvent with
  | false => exact .inl ⟨value, ⟨found, known, isNone⟩, reportedEq, nonzero⟩
  | true =>
      refine .inr ⟨value, found, known, isNone, ?_⟩
      have noEvents : value.channel.events_ = 0#32 := by
        simpa [Channel.isNoneEvent, Channel.kNoneEvent] using isNone
      rw [reportedEq, PollWorld.reported, noEvents, BitVec.zero_or]

/-- `poll` reports what `epoll_wait` has returned. -/
theorem Invariant.poll (invariant : Invariant world)
    {events : List (BitVec 32 × ChannelPtr)} (fits : events.length ≤ world.poller.events_)
    (entries : ∀ event ∈ events, ∃ fd mask,
      world.poller.epollfd_ fd = some (mask, event.2)) :
    EPollPoller.poll world events = .ok (events.map fun event => (event.2, event.1),
      { world with poller := world.poller.polled events.length }) := by
  unfold EPollPoller.poll
  rw [Except.bind_of_ok (invariant.fillActiveChannels fits entries)]
  rfl

end EPollPoller

end TcpMysql
