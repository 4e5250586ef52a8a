import TcpMysql.PollPoller

/-!
# The two pollers agree

When the channels are used as `PollPoller` demands, it can be put in the place of
`EPollPoller`: neither fails, and for the same descriptors being ready they report
the same channels with the same events, up to order and to what does not fit into
the array of `epoll_wait`.  Only for a channel that waits for nothing and is still in
the set of the kernel does `EPollPoller` alone report an error or a hang-up.
-/

namespace TcpMysql

/-! ## The masks fit into a `short` -/

theorem Channel.events_lt (channel : Channel) : channel.events_.toNat < 8 := by
  obtain ⟨reading, writing, added⟩ := channel
  cases reading <;> cases writing <;> cases added <;> decide

theorem signExtend_setWidth_of_lt {mask : BitVec 32} (small : mask.toNat < 2 ^ 15) :
    (mask.setWidth 16).signExtend 32 = mask := by
  have positive : (mask.setWidth 16).msb = false := by
    rw [BitVec.msb_eq_false_iff_two_mul_lt, BitVec.toNat_setWidth]
    omega
  rw [BitVec.signExtend_eq_setWidth_of_msb_false positive]
  apply BitVec.eq_of_toNat_eq
  simp only [BitVec.toNat_setWidth]
  omega

theorem setWidth_ne_zero_of_lt {mask : BitVec 32} (small : mask.toNat < 2 ^ 15) :
    mask.setWidth 16 ≠ 0 ↔ mask ≠ 0 := by
  rw [not_iff_not]
  constructor
  · intro zero
    rw [← signExtend_setWidth_of_lt small, zero]
    rfl
  · rintro rfl
    rfl

theorem toInt_setWidth_pos {mask : BitVec 32} (small : mask.toNat < 2 ^ 15)
    (nonzero : mask ≠ 0) : 0 < (mask.setWidth 16).toInt := by
  have positive : mask.toNat ≠ 0 := fun zero => nonzero (BitVec.eq_of_toNat_eq zero)
  rw [BitVec.toInt_eq_toNat_of_lt, BitVec.toNat_setWidth]
  · omega
  · rw [BitVec.toNat_setWidth]
    omega

theorem reported_lt (ready : BitVec 32) (channel : Channel) :
    (PollWorld.reported ready channel.events_).toNat < 2 ^ 15 := by
  have bound : (channel.events_ ||| POLLERR ||| POLLHUP).toNat < 2 ^ 15 := by
    obtain ⟨reading, writing, added⟩ := channel
    cases reading <;> cases writing <;> cases added <;> decide
  rw [PollWorld.reported, BitVec.toNat_and]
  exact Nat.lt_of_le_of_lt Nat.and_le_right bound

namespace PollPoller

variable {world : PollWorld PollPoller} {channel : ChannelPtr} {value : FdChannel}

/-! ## What `PollPoller` reports -/

/-- The kernel looks at the entries of channels that wait for something. -/
theorem Invariant.revents_slot (invariant : Invariant world)
    (found : world.heap channel = some value) {pfd : PollFd} (slot : IsSlot value pfd)
    (ready : Nat → BitVec 32) :
    revents world.opened ready pfd =
      if value.channel.isNoneEvent then 0
      else (PollWorld.reported (ready value.fd_) value.channel.events_).setWidth 16 := by
  have events : pfd.events.signExtend 32 = value.channel.events_ := by
    rw [slot.2]
    exact signExtend_setWidth_of_lt (Nat.lt_trans value.channel.events_lt (by decide))
  unfold revents
  rw [events, slot.1, slotFd]
  split
  · rw [if_pos (by omega)]
  · rw [if_neg (by omega), Int.toNat_natCast, if_pos (invariant.fd_opened _ _ found)]

theorem fillActiveChannels_zero (world : PollWorld PollPoller) (pollfds : List PollFd) :
    fillActiveChannels world 0 pollfds = .ok [] := by
  cases pollfds <;> rfl

/-- The loop stops when it has found as many entries as the kernel has counted,
and has missed none. -/
theorem fillActiveChannels_of {pollfds : List PollFd}
    (each : ∀ pfd ∈ pollfds, pfd.revents ≠ 0 → 0 < pfd.revents.toInt ∧
      ∃ channel value, world.poller.channels_ pfd.fd = some channel ∧
        world.heap channel = some value ∧ (value.fd_ : Int) = pfd.fd) :
    ∃ activeChannels,
      fillActiveChannels world (pollfds.countP fun pfd => pfd.revents ≠ 0) pollfds =
        .ok activeChannels ∧
      ∀ channel revents, (channel, revents) ∈ activeChannels ↔
        ∃ pfd ∈ pollfds, pfd.revents ≠ 0 ∧
          world.poller.channels_ pfd.fd = some channel ∧
            revents = pfd.revents.signExtend 32 := by
  induction pollfds with
  | nil => exact ⟨[], rfl, by simp⟩
  | cons pfd pollfds ih =>
      obtain ⟨rest, restEq, restIff⟩ := ih fun other member =>
        each other (List.mem_cons_of_mem _ member)
      by_cases silent : pfd.revents = 0
      · have countEq : ((pfd :: pollfds).countP fun pfd => pfd.revents ≠ 0) =
            pollfds.countP fun pfd => pfd.revents ≠ 0 :=
          List.countP_cons_of_neg (by simp [silent])
        refine ⟨rest, ?_, fun channel revents => ?_⟩
        · rw [countEq, fillActiveChannels]
          split
          · rename_i none
            rw [← restEq, none, fillActiveChannels_zero]
          · rw [if_neg (by rw [silent]; decide), restEq]
        · rw [restIff]
          simp [silent]
      · obtain ⟨positive, channel, value, registered, found, fdEq⟩ :=
          each pfd List.mem_cons_self silent
        have countEq : ((pfd :: pollfds).countP fun pfd => pfd.revents ≠ 0) =
            (pollfds.countP fun pfd => pfd.revents ≠ 0) + 1 :=
          List.countP_cons_of_pos (by simpa using silent)
        refine ⟨(channel, pfd.revents.signExtend 32) :: rest, ?_, fun other revents => ?_⟩
        · rw [countEq, fillActiveChannels, if_neg (by omega), if_pos positive]
          simp only [registered]
          rw [Except.bind_of_ok (PollWorld.deref_of found), Except.bind_of_ok (check_of fdEq),
            Nat.add_sub_cancel, Except.bind_of_ok restEq]
          rfl
        · rw [List.mem_cons, restIff]
          constructor
          · rintro (same | ⟨other', member, loud, registered', reventsEq⟩)
            · obtain ⟨rfl, rfl⟩ := Prod.mk.inj same
              exact ⟨pfd, List.mem_cons_self, silent, registered, rfl⟩
            · exact ⟨other', List.mem_cons_of_mem _ member, loud, registered', reventsEq⟩
          · rintro ⟨other', member, loud, registered', rfl⟩
            rcases List.mem_cons.mp member with rfl | later
            · rw [registered] at registered'
              rw [Option.some.inj registered']
              exact .inl rfl
            · exact .inr ⟨other', later, loud, registered', rfl⟩

/-- `PollPoller` reports exactly the channels that have an event they wait for. -/
theorem Invariant.poll (invariant : Invariant world) (ready : Nat → BitVec 32) :
    ∃ activeChannels, PollPoller.poll world ready = .ok activeChannels ∧
      ∀ channel revents, (channel, revents) ∈ activeChannels ↔
        world.Active ready channel revents := by
  -- The entry of a channel, once the kernel has written to it.
  have loud {pfd : PollFd} (member : pfd ∈ world.poller.pollfds_)
      (nonzero : revents world.opened ready pfd ≠ 0) :
      ∃ channel value, world.heap channel = some value ∧
        value.channel.addedToLoop_ = true ∧ value.channel.isNoneEvent = false ∧
          pfd.fd = value.fd_ ∧ revents world.opened ready pfd =
            (PollWorld.reported (ready value.fd_) value.channel.events_).setWidth 16 := by
    obtain ⟨idx, inside, rfl⟩ := List.getElem_of_mem member
    obtain ⟨channel, value, found, known, indexEq⟩ := invariant.owner idx inside
    obtain ⟨idx', indexEq', pfd, entry, slot⟩ := invariant.slot _ _ found known
    obtain rfl : idx = idx' := by omega
    rw [List.getElem?_eq_getElem inside] at entry
    obtain rfl := Option.some.inj entry
    have reventsEq := invariant.revents_slot found slot ready
    cases isNone : value.channel.isNoneEvent with
    | true =>
        rw [isNone, if_pos rfl] at reventsEq
        exact absurd reventsEq nonzero
    | false =>
        rw [isNone, if_neg (by simp)] at reventsEq
        refine ⟨channel, value, found, known, isNone, ?_, reventsEq⟩
        rw [slot.1, slotFd, isNone, if_neg (by simp)]
  have each : ∀ pfd ∈ world.poller.pollfds_.map
      (fun pfd => { pfd with revents := revents world.opened ready pfd }),
      pfd.revents ≠ 0 → 0 < pfd.revents.toInt ∧
        ∃ channel value, world.poller.channels_ pfd.fd = some channel ∧
          world.heap channel = some value ∧ (value.fd_ : Int) = pfd.fd := by
    intro pfd member nonzero
    obtain ⟨old, oldMember, rfl⟩ := List.mem_map.mp member
    obtain ⟨channel, value, found, known, -, fdEq, reventsEq⟩ := loud oldMember nonzero
    have small := reported_lt (ready value.fd_) value.channel
    simp only at nonzero ⊢
    rw [reventsEq] at nonzero ⊢
    refine ⟨toInt_setWidth_pos small ((setWidth_ne_zero_of_lt small).mp nonzero),
      channel, value, ?_, found, fdEq.symm⟩
    rw [fdEq]
    exact invariant.registered found known
  obtain ⟨activeChannels, pollEq, activeIff⟩ := fillActiveChannels_of each
  refine ⟨activeChannels, pollEq, fun channel revents' => ?_⟩
  rw [activeIff]
  constructor
  · rintro ⟨pfd, member, nonzero, registered, rfl⟩
    obtain ⟨old, oldMember, rfl⟩ := List.mem_map.mp member
    obtain ⟨owner, value, found, known, waits, fdEq, reventsEq⟩ := loud oldMember nonzero
    have small := reported_lt (ready value.fd_) value.channel
    simp only [fdEq, invariant.registered found known, Option.some.injEq] at registered
    subst registered
    simp only [reventsEq] at nonzero ⊢
    rw [signExtend_setWidth_of_lt small]
    exact ⟨value, ⟨found, known, waits⟩, rfl, (setWidth_ne_zero_of_lt small).mp nonzero⟩
  · rintro ⟨value, ⟨found, known, waits⟩, rfl, nonzero⟩
    obtain ⟨idx, -, pfd, entry, slot⟩ := invariant.slot _ _ found known
    have small := reported_lt (ready value.fd_) value.channel
    have reventsEq := invariant.revents_slot found slot ready
    rw [waits, if_neg (by simp)] at reventsEq
    refine ⟨{ pfd with revents := revents world.opened ready pfd },
      List.mem_map.mpr ⟨pfd, List.mem_of_getElem? entry, rfl⟩, ?_, ?_, ?_⟩
    · simp only [reventsEq]
      exact (setWidth_ne_zero_of_lt small).mpr nonzero
    · simp only [slot.1, slotFd, waits]
      exact invariant.registered found known
    · simp only [reventsEq, signExtend_setWidth_of_lt small]

end PollPoller

/-! ## Running both -/

namespace EPollPoller

/-- How the server uses its channels: none is updated after it was removed, and an
update that leaves one waiting for nothing finds it waiting for something. -/
def Proper {Poller : Type} (world : PollWorld Poller) : ChannelEvent → Prop
  | .update channel op => ∀ value ∈ world.heap channel, value.retired = false ∧
      ((value.update op).channel.isNoneEvent = true →
        value.channel.addedToLoop_ = true ∧ value.channel.isNoneEvent = false)
  | _ => True

/-- The channels that wait for nothing are not in the set of the kernel. -/
def Idle (world : PollWorld EPollPoller) : Prop :=
  ∀ channel value, world.heap channel = some value →
    value.channel.addedToLoop_ = true → value.channel.isNoneEvent = true →
      world.poller.index_ channel = kDeleted

/-- A channel that waits for nothing is taken out of the set when it stops waiting,
and nothing puts it back. -/
theorem Idle.step {world after : PollWorld EPollPoller} (idle : Idle world)
    (invariant : Invariant world) {event : ChannelEvent}
    (proper : Proper world event) (steps : Steps world event after) :
    Idle after := by
  intro other value' found' known isNone
  cases steps with
  | poll =>
      rw [polled_eq]
      exact idle other value' found' known isNone
  | @create channel fd free =>
      have differs : other ≠ channel := by
        rintro rfl
        rw [show (world.create ops other fd).heap other = some ⟨fd, .new, false⟩ from
          PollWorld.store_self _ _ _] at found'
        rw [← Option.some.inj found'] at known
        simp [Channel.new] at known
      rw [show (world.create ops channel fd).poller.index_ other =
        world.poller.index_ other from Function.update_of_ne differs _ _]
      exact idle other value' ((PollWorld.store_of_ne _ _ differs).symm.trans found')
        known isNone
  | @update channel op value index after found indexEq deleted =>
      simp only [indexEq]
      by_cases same : other = channel
      · subst same
        rw [PollWorld.store_self] at found'
        obtain rfl := Option.some.inj found'
        rw [Function.update_self, deleted]
        obtain ⟨wasKnown, waited⟩ := (proper value found).2 isNone
        refine ⟨?_, isNone⟩
        rcases invariant.index other value found with
          ⟨unknown, -⟩ | ⟨-, added⟩ | ⟨-, -, wasNone⟩
        · simp [wasKnown] at unknown
        · exact added
        · simp [waited] at wasNone
      · rw [PollWorld.store_of_ne _ _ same] at found'
        rw [Function.update_of_ne same]
        exact idle other value' found' known isNone
  | @remove channel value found =>
      have differs : other ≠ channel := by
        rintro rfl
        rw [PollWorld.store_self] at found'
        rw [← Option.some.inj found'] at known
        simp at known
      rw [PollWorld.store_of_ne _ _ differs] at found'
      exact (Function.update_of_ne differs _ _).trans (idle other value' found' known isNone)
  | @destroy channel value found =>
      have differs : other ≠ channel := by
        rintro rfl
        rw [PollWorld.store_self] at found'
        simp at found'
      rw [PollWorld.store_of_ne _ _ differs] at found'
      exact idle other value' found' known isNone

end EPollPoller

namespace PollPoller

/-- A run with `PollPoller` and the same run with `EPollPoller`. -/
structure Agrees (world : PollWorld PollPoller) (epollWorld : PollWorld EPollPoller) :
    Prop where
  bare : epollWorld.bare = world.bare
  poll : Invariant world
  epoll : EPollPoller.Invariant epollWorld

variable {world : PollWorld PollPoller} {epollWorld : PollWorld EPollPoller}

theorem new_agrees : Agrees (.new new) (.new EPollPoller.new) where
  bare := rfl
  poll := new_invariant
  epoll := EPollPoller.new_invariant

theorem Agrees.heap (agrees : Agrees world epollWorld) : epollWorld.heap = world.heap :=
  congrArg PollWorld.heap agrees.bare

theorem Agrees.step (agrees : Agrees world epollWorld) {event : ChannelEvent}
    (offered : world.Offered event) (demands : Demands world event)
    {after : PollWorld PollPoller} (stepTo : world.step ops event = .ok after) :
    epollWorld.Offered event ∧ ∃ epollAfter,
      epollWorld.step EPollPoller.ops event = .ok epollAfter ∧ Agrees after epollAfter := by
  have epollOffered : epollWorld.Offered event := by
    rw [← PollWorld.offered_bare, agrees.bare, PollWorld.offered_bare]
    exact offered
  obtain ⟨after', stepEq, afterInvariant⟩ := agrees.poll.step offered demands
  rw [stepTo] at stepEq
  obtain rfl := Except.ok.inj stepEq
  obtain ⟨epollAfter, epollStep, epollInvariant, -⟩ := agrees.epoll.step epollOffered
  refine ⟨epollOffered, epollAfter, epollStep, ?_, afterInvariant, epollInvariant⟩
  have bareStep := PollWorld.step_bare epollStep
  rw [agrees.bare, PollWorld.step_bare stepTo] at bareStep
  exact (Except.ok.inj bareStep).symm

theorem agrees_of_reaches {events : List ChannelEvent}
    (run : system.Reaches (.new new) events world) :
    ∃ epollWorld, (PollWorld.system EPollPoller.ops).Reaches (.new EPollPoller.new) events
      epollWorld ∧ Agrees world epollWorld := by
  apply run.invariant fun events world => ∃ epollWorld,
    (PollWorld.system EPollPoller.ops).Reaches (.new EPollPoller.new) events epollWorld ∧
      Agrees world epollWorld
  · exact ⟨_, .start, new_agrees⟩
  · rintro events before event after - ⟨epollBefore, epollRun, agrees⟩ offered stepTo
    obtain ⟨epollOffered, epollAfter, epollStep, afterAgrees⟩ :=
      agrees.step offered.1 offered.2 (Except.toOption_eq_some_iff.mp stepTo)
    exact ⟨epollAfter, epollRun.step epollOffered
      (Except.toOption_eq_some_iff.mpr epollStep), afterAgrees⟩

end PollPoller

end TcpMysql
