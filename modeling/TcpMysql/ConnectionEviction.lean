import TcpMysql.ConnectionTableInvariant
import Mathlib.Data.Finset.Card

/-!
# When connections are evicted and when they are forgotten

`onConnection` makes room by its list alone: it does not ask whether the call
announces a connection or the end of one, nor whose nodes fill the list.  This
file determines what follows for the clients.  A connection evicted while it is
connected keeps reading without an entry in the map, an eviction makes room for
a new client only if no dead connection is listed, and the end of a connection
always puts it back into the list.
-/

namespace TcpMysql

namespace ConnectionTable

/-- A call of `onConnection` that shuts down a connected connection: the list is
full, and the connection is at its back. -/
structure Evicts (SIZECONN : Nat) (called : ConnectionTable) (victim : ConnId) :
    Prop where
  full : SIZECONN ≤ called.lrulist_.size
  back : called.lrulist_.back = some victim
  connected : called.state victim = .kConnected

/-- The event leads to a call of `onConnection` that shuts down a connected
connection. -/
def EvictsConnected (SIZECONN : Nat) (table : ConnectionTable)
    (event : TableEvent) : Prop :=
  ∃ caller called victim,
    table.connectionCall event = some (caller, called) ∧
      called.Evicts SIZECONN victim

/-- The map has an entry for the connection, an iterator into the list. -/
def HasEntry (table : ConnectionTable) (conn : ConnId) : Prop :=
  ∃ node, table.lrumap_.lookup conn = some (some node) ∧
    node ∈ table.lrulist_.nodes.map Prod.fst

/-- Every connection that can still deliver a message has its entry, and the
splice of `onMessage` succeeds. -/
def MessagesFindEntry (table : ConnectionTable) : Prop :=
  ∀ conn, table.CanDeliver conn →
    table.HasEntry conn ∧
      ∀ chunk, ∃ touched, (table.receive conn chunk).2.touch conn = .ok touched

theorem step_of_connectionCall {SIZECONN : Nat} (positive : 1 ≤ SIZECONN)
    {table called : ConnectionTable} {event : TableEvent} {caller : ConnId}
    (callEq : table.connectionCall event = some (caller, called)) :
    ∃ returned after, called.onConnection SIZECONN caller = .ok returned ∧
      table.step SIZECONN event = .ok after ∧
        after.conns = returned.conns ∧ after.lrulist_ = returned.lrulist_ ∧
          after.lrumap_ = returned.lrumap_ := by
  obtain ⟨returned, returns⟩ := onConnection_returns positive called caller
  rcases connectionCall_cases callEq with ⟨rfl, rfl⟩ | ⟨rfl, rfl⟩
  · exact ⟨returned, returned, returns, returns, rfl, rfl, rfl⟩
  · refine ⟨returned, returned.removeConnectionInLoop caller, returns, ?_, rfl, rfl, rfl⟩
    simp [step, handleClose, returns]

theorem onConnection_state {SIZECONN : Nat} {called returned : ConnectionTable}
    {caller : ConnId}
    (returns : called.onConnection SIZECONN caller = .ok returned)
    (conn : ConnId) :
    (called.Evicts SIZECONN conn ∧ returned.state conn = .kDisconnecting) ∨
      (¬called.Evicts SIZECONN conn ∧ returned.state conn = called.state conn) := by
  rcases onConnection_cases returns with ⟨room, rfl⟩ | ⟨full, back, backEq, rfl⟩
  · right
    exact ⟨fun evicts => Nat.not_lt.mpr evicts.full room, rfl⟩
  · rw [enlist_state, evictBack_state]
    split
    · rename_i evicted
      left
      exact ⟨⟨full, evicted.1 ▸ backEq, evicted.1 ▸ evicted.2⟩, rfl⟩
    · rename_i notEvicted
      right
      refine ⟨fun evicts => notEvicted ?_, rfl⟩
      have same : back = conn := Option.some.inj (backEq.symm.trans evicts.back)
      exact ⟨same.symm, same ▸ evicts.connected⟩

theorem Evicts.state_eq {SIZECONN : Nat} {called returned : ConnectionTable}
    {caller victim : ConnId} (evicts : called.Evicts SIZECONN victim)
    (returns : called.onConnection SIZECONN caller = .ok returned) :
    returned.state victim = .kDisconnecting := by
  rcases onConnection_state returns victim with ⟨-, closing⟩ | ⟨notEvicted, -⟩
  · exact closing
  · exact absurd evicts notEvicted

/-- Everything an event can do to the state of a connection. -/
inductive StateChange (SIZECONN : Nat) (table after : ConnectionTable)
    (event : TableEvent) (conn : ConnId) : Prop
  | same (stateEq : after.state conn = table.state conn)
  | cameUp (eventEq : event = .up conn) (stateEq : after.state conn = .kConnected)
  | wentDown (eventEq : event = .down conn)
      (stateEq : after.state conn = .kDisconnected)
  | evicted (evicts : table.EvictsConnected SIZECONN event)
      (stateEq : after.state conn = .kDisconnecting)

theorem step_stateChange {SIZECONN : Nat} {table after : ConnectionTable}
    {event : TableEvent} (registry : table.RegistryInvariant)
    (stepTo : table.step SIZECONN event = .ok after) (conn : ConnId) :
    StateChange SIZECONN table after event conn := by
  cases event with
  | up caller =>
      rcases onConnection_state stepTo conn with ⟨evicts, closing⟩ | ⟨-, stateEq⟩
      · exact .evicted ⟨caller, _, conn, rfl, evicts⟩ closing
      · rw [accepted_state] at stateEq
        split at stateEq
        · rename_i same
          exact .cameUp (by rw [same]) stateEq
        · exact .same stateEq
  | message => exact .same ((step_message_cases stepTo).choose_spec.2.2.2.2.state conn)
  | down caller =>
      obtain ⟨called, returns, rfl⟩ := step_down_cases stepTo
      rcases onConnection_state returns conn with ⟨evicts, closing⟩ | ⟨-, stateEq⟩
      · exact .evicted ⟨caller, _, conn, rfl, evicts⟩ closing
      · rw [closing_state] at stateEq
        split at stateEq
        · rename_i same
          exact .wentDown (by rw [same]) stateEq
        · exact .same stateEq
  | writable => exact .same ((step_writable_cases stepTo).2.2.state conn)
  | pendingFunctors =>
      obtain ⟨-, -, same⟩ :=
        step_pendingFunctors_cases registry.pending_ne_kConnected stepTo
      exact .same (same.state conn)

theorem invariant_of_attempts {SIZECONN : Nat} (positive : 1 ≤ SIZECONN)
    {events : List TableEvent} (offers : (system SIZECONN).Offers new events)
    {table : ConnectionTable} {event : TableEvent}
    (attempted : (table, event) ∈ (system SIZECONN).attempts new events) :
    table.Invariant SIZECONN ∧ table.Offered event := by
  apply EventSystem.attempts_invariant (Invariant SIZECONN) _
    (new_invariant SIZECONN) offers attempted
  intro before event after invariant offered stepTo
  exact step_invariant positive invariant offered (Except.toOption_eq_some_iff.mp stepTo)

/-- What holds at first and is kept by every call that meets a condition holds,
with the invariant, in all states of a run whose calls meet it. -/
theorem visited_with_invariant {SIZECONN : Nat} (positive : 1 ≤ SIZECONN)
    {events : List TableEvent} (offers : (system SIZECONN).Offers new events)
    (property : ConnectionTable → Prop)
    {condition : ConnectionTable → TableEvent → Prop} (starts : property new)
    (preserved : ∀ before event after, before.Invariant SIZECONN →
      property before → condition before event →
        before.step SIZECONN event = .ok after → property after)
    (meets : ∀ table event,
      (table, event) ∈ (system SIZECONN).attempts new events →
        condition table event)
    {table : ConnectionTable}
    (visit : table ∈ (system SIZECONN).visited new events) :
    table.Invariant SIZECONN ∧ property table := by
  refine EventSystem.visited_invariant
    (fun table => table.Invariant SIZECONN ∧ property table)
    ?_ ⟨new_invariant SIZECONN, starts⟩ offers meets visit
  rintro before event after ⟨invariant, holds⟩ offered condition stepTo
  have stepOk := Except.toOption_eq_some_iff.mp stepTo
  exact ⟨step_invariant positive invariant offered stepOk,
    preserved before event after invariant holds condition stepOk⟩

theorem HasEntry.touch {table : ConnectionTable} {conn : ConnId}
    (entry : table.HasEntry conn) (chunk : Bytes) :
    ∃ touched, (table.receive conn chunk).2.touch conn = .ok touched := by
  obtain ⟨node, found, member⟩ := entry
  obtain ⟨⟨handle, other⟩, listed, rfl⟩ := List.mem_map.mp member
  exact touch_returns found listed

theorem Tracked.hasEntry {table : ConnectionTable} {conn : ConnId}
    (tracked : table.Tracked conn) : table.HasEntry conn := by
  obtain ⟨node, found, unique⟩ := tracked
  exact ⟨node, found, List.mem_map_of_mem ((unique node).mpr rfl)⟩

/-! ## The entry of a connection that can still deliver -/

/-- As long as nobody is being shut down, everyone who can deliver has an
entry. -/
theorem messagesFindEntry_of_invariant {SIZECONN : Nat} {table : ConnectionTable}
    (invariant : table.Invariant SIZECONN)
    (noneClosing : ∀ conn, table.state conn ≠ .kDisconnecting) :
    table.MessagesFindEntry := by
  rintro conn ⟨connected | closing, -⟩
  · have entry := (invariant.tracked conn connected).hasEntry
    exact ⟨entry, entry.touch⟩
  · exact absurd closing (noneClosing conn)

theorem step_noneClosing {SIZECONN : Nat} {table after : ConnectionTable}
    {event : TableEvent} (invariant : table.Invariant SIZECONN)
    (noneClosing : ∀ conn, table.state conn ≠ .kDisconnecting)
    (noneEvicted : ¬table.EvictsConnected SIZECONN event)
    (stepTo : table.step SIZECONN event = .ok after) :
    ∀ conn, after.state conn ≠ .kDisconnecting := by
  intro conn
  cases step_stateChange invariant.toRegistryInvariant stepTo conn with
  | same stateEq =>
      rw [stateEq]
      exact noneClosing conn
  | cameUp _ stateEq => simp [stateEq]
  | wentDown _ stateEq => simp [stateEq]
  | evicted evicts => exact absurd evicts noneEvicted

/-- A connected connection that is evicted can still deliver a message, and has
no entry any more. -/
theorem not_messagesFindEntry_of_evicts {SIZECONN : Nat} (positive : 1 ≤ SIZECONN)
    {table : ConnectionTable} {event : TableEvent}
    (invariant : table.Invariant SIZECONN) (offered : table.Offered event)
    (evicts : table.EvictsConnected SIZECONN event) :
    ∃ after, table.step SIZECONN event = .ok after ∧ ¬after.MessagesFindEntry := by
  obtain ⟨caller, called, victim, callEq, evicted⟩ := evicts
  obtain ⟨returned, after, returns, stepTo, connsEq, -, mapEq⟩ :=
    step_of_connectionCall positive callEq
  have call := connectionCall_callInvariant invariant.toLruInvariant offered callEq
  have differs : victim ≠ caller := by
    rintro rfl
    obtain ⟨node, member⟩ := StableList.back_mem evicted.back
    exact call.unlisted evicted.connected node member
  have afterInvariant := step_invariant positive invariant offered stepTo
  refine ⟨after, stepTo, fun finds => ?_⟩
  have live : after.Live victim := by
    right
    change (after.conns victim).state_ = _
    rw [connsEq]
    exact evicted.state_eq returns
  obtain ⟨node, found, -⟩ :=
    (finds victim ⟨live, (afterInvariant.reading victim).mpr live⟩).1
  rcases onConnection_cases returns with ⟨room, -⟩ | ⟨-, back, backEq, rfl⟩
  · exact Nat.not_lt.mpr evicted.full room
  · obtain rfl := Option.some.inj (backEq.symm.trans evicted.back)
    rw [mapEq, enlist_lrumap, AList.lookup_insert_ne differs, evictBack_lrumap,
      AList.lookup_erase] at found
    simp at found

/-- In every run, all connections that can still deliver a message have an entry
that makes the splice of `onMessage` succeed, exactly when no call of
`onConnection` finds the list full with a connected connection at its back. -/
theorem messages_find_entry_iff {SIZECONN : Nat} (positive : 1 ≤ SIZECONN)
    (events : List TableEvent) (offers : (system SIZECONN).Offers new events) :
    (∀ table ∈ (system SIZECONN).visited new events, table.MessagesFindEntry) ↔
      ∀ table event, (table, event) ∈ (system SIZECONN).attempts new events →
        ¬table.EvictsConnected SIZECONN event := by
  constructor
  · intro finds table event attempted evicts
    obtain ⟨invariant, offered⟩ := invariant_of_attempts positive offers attempted
    obtain ⟨after, stepTo, lost⟩ :=
      not_messagesFindEntry_of_evicts positive invariant offered evicts
    exact lost (finds after (EventSystem.after_mem_visited attempted
      (Except.toOption_eq_some_iff.mpr stepTo)))
  · intro noneEvicted table visit
    obtain ⟨invariant, noneClosing⟩ := visited_with_invariant positive offers
      (fun table => ∀ conn, table.state conn ≠ .kDisconnecting)
      (fun conn => by simp [new, state, TcpConnection.new])
      (fun _ _ _ invariant noneClosing condition stepTo =>
        step_noneClosing invariant noneClosing condition stepTo)
      noneEvicted visit
    exact messagesFindEntry_of_invariant invariant noneClosing

theorem messages_find_entry_two_clients :
    (∀ table ∈ (system 2).visited new
        [.up 0, .up 1, .message 0 [65] [66] (.room 1)], table.MessagesFindEntry) ↔
      ∀ table event,
        (table, event) ∈ (system 2).attempts new
            [.up 0, .up 1, .message 0 [65] [66] (.room 1)] →
          ¬table.EvictsConnected 2 event :=
  messages_find_entry_iff (by decide) _ (by decide +kernel)

/-- With room for one connection, the second client takes the entry of the first,
which can still deliver messages. -/
theorem evicted_client_has_no_entry :
    (system 1).Offers new [.up 0, .up 1] ∧
      ¬∀ table ∈ (system 1).visited new [.up 0, .up 1],
        table.MessagesFindEntry := by
  refine ⟨by decide +kernel, fun finds => ?_⟩
  have lost : ∃ table ∈ (system 1).visited new [.up 0, .up 1],
      table.CanDeliver 0 ∧ table.lrumap_.lookup 0 = none := by
    decide +kernel
  obtain ⟨table, visit, canDeliver, noEntry⟩ := lost
  obtain ⟨node, found, -⟩ := (finds table visit 0 canDeliver).1
  simp [noEntry] at found

/-! ## Evictions that make room for a client -/

/-- The call of `onConnection` shuts a connection down only for a new client,
and only when as many others as the limit allows are connected. -/
def EvictsOnlyForRoom (SIZECONN : Nat) (called : ConnectionTable)
    (caller : ConnId) : Prop :=
  ∀ returned, called.onConnection SIZECONN caller = .ok returned →
    ∀ victim, called.state victim = .kConnected →
      returned.state victim = .kDisconnecting →
        called.state caller = .kConnected ∧
          ∃ others : Finset ConnId, others.card = SIZECONN ∧
            ∀ other ∈ others, other ≠ caller ∧ called.state other = .kConnected

/-- The list is not full, or a dead connection is at its back, or the call
announces a new client and the list holds no dead connection. -/
def RoomOrNoDead (SIZECONN : Nat) (called : ConnectionTable)
    (caller : ConnId) : Prop :=
  called.lrulist_.size < SIZECONN ∨
    (∀ victim, called.lrulist_.back = some victim →
      called.state victim ≠ .kConnected) ∨
    (called.state caller = .kConnected ∧
      ∀ node ∈ called.lrulist_.nodes, called.state node.2 = .kConnected)

/-- When only connected connections are listed, none of them is listed twice. -/
theorem values_nodup {SIZECONN : Nat} {called : ConnectionTable} {caller : ConnId}
    (call : called.CallInvariant SIZECONN caller)
    (callerConnected : called.state caller = .kConnected)
    (allConnected : ∀ node ∈ called.lrulist_.nodes,
      called.state node.2 = .kConnected) :
    (called.lrulist_.nodes.map Prod.snd).Nodup := by
  apply List.Nodup.map_on _ (called.lrulist_.handles_nodup.of_map _)
  rintro ⟨handle, conn⟩ member ⟨otherHandle, otherConn⟩ otherMember sameConn
  obtain rfl : conn = otherConn := sameConn
  have notCaller : conn ≠ caller := by
    rintro rfl
    exact call.unlisted callerConnected handle member
  obtain ⟨node, -, unique⟩ := call.tracked conn notCaller (allConnected _ member)
  rw [(unique handle).mp member, (unique otherHandle).mp otherMember]

/-- A full list without dead connections holds as many connected clients as the
limit allows. -/
theorem exists_others_of_allConnected {SIZECONN : Nat} {called : ConnectionTable}
    {caller : ConnId} (call : called.CallInvariant SIZECONN caller)
    (full : SIZECONN ≤ called.lrulist_.size)
    (callerConnected : called.state caller = .kConnected)
    (allConnected : ∀ node ∈ called.lrulist_.nodes,
      called.state node.2 = .kConnected) :
    ∃ others : Finset ConnId, others.card = SIZECONN ∧
      ∀ other ∈ others, other ≠ caller ∧ called.state other = .kConnected := by
  have nodup := values_nodup call callerConnected allConnected
  refine ⟨(called.lrulist_.nodes.map Prod.snd).toFinset, ?_, ?_⟩
  · rw [List.toFinset_card_of_nodup nodup, List.length_map]
    exact Nat.le_antisymm call.size_le full
  · intro other member
    obtain ⟨node, listed, rfl⟩ := List.mem_map.mp (List.mem_toFinset.mp member)
    refine ⟨?_, allConnected node listed⟩
    intro same
    exact call.unlisted callerConnected node.1 (same ▸ listed)

/-- When as many others as the limit allows are connected, their nodes fill the
list. -/
theorem allConnected_of_others {SIZECONN : Nat} {called : ConnectionTable}
    {caller : ConnId} (call : called.CallInvariant SIZECONN caller)
    {others : Finset ConnId} (cardEq : others.card = SIZECONN)
    (connected : ∀ other ∈ others,
      other ≠ caller ∧ called.state other = .kConnected) :
    ∀ node ∈ called.lrulist_.nodes, called.state node.2 = .kConnected := by
  intro node member
  by_contra dead
  have absent : node.2 ∉ others := fun inside => dead (connected node.2 inside).2
  have listed : ∀ conn ∈ insert node.2 others,
      ∃ handle, (handle, conn) ∈ called.lrulist_.nodes := by
    intro conn inserted
    rcases Finset.mem_insert.mp inserted with rfl | other
    · exact ⟨node.1, member⟩
    · obtain ⟨notCaller, stateEq⟩ := connected conn other
      exact (call.tracked conn notCaller stateEq).exists_node
  have bound := (card_le_size listed).trans call.size_le
  rw [Finset.card_insert_of_notMem absent, cardEq] at bound
  omega

theorem evictsOnlyForRoom_iff {SIZECONN : Nat} (positive : 1 ≤ SIZECONN)
    {called : ConnectionTable} {caller : ConnId}
    (call : called.CallInvariant SIZECONN caller) :
    called.EvictsOnlyForRoom SIZECONN caller ↔
      called.RoomOrNoDead SIZECONN caller := by
  obtain ⟨returned, returns⟩ := onConnection_returns positive called caller
  constructor
  · intro onlyForRoom
    by_cases room : called.lrulist_.size < SIZECONN
    · exact .inl room
    have full := Nat.le_of_not_lt room
    by_cases deadBack : ∀ victim, called.lrulist_.back = some victim →
        called.state victim ≠ .kConnected
    · exact .inr (.inl deadBack)
    push Not at deadBack
    obtain ⟨victim, backEq, connected⟩ := deadBack
    have evicts : called.Evicts SIZECONN victim := ⟨full, backEq, connected⟩
    obtain ⟨callerConnected, others, cardEq, othersConnected⟩ :=
      onlyForRoom returned returns victim connected (evicts.state_eq returns)
    exact .inr (.inr ⟨callerConnected,
      allConnected_of_others call cardEq othersConnected⟩)
  · intro condition other otherReturns victim connected closing
    have evicts : called.Evicts SIZECONN victim := by
      rcases onConnection_state otherReturns victim with ⟨evicts, -⟩ | ⟨-, stateEq⟩
      · exact evicts
      · simp [stateEq, connected] at closing
    rcases condition with room | deadBack | ⟨callerConnected, allConnected⟩
    · exact absurd evicts.full (Nat.not_le.mpr room)
    · exact absurd connected (deadBack victim evicts.back)
    · exact ⟨callerConnected, exists_others_of_allConnected call evicts.full
        callerConnected allConnected⟩

/-- At every call of `onConnection` in a run: the call evicts only to make room
for a new client beyond the limit, exactly when the list is not full, or a dead
connection is at its back, or the call announces a new client and no dead
connection is in the list. -/
theorem evictions_make_room_iff {SIZECONN : Nat} (positive : 1 ≤ SIZECONN)
    (events : List TableEvent) (offers : (system SIZECONN).Offers new events) :
    ∀ table event, (table, event) ∈ (system SIZECONN).attempts new events →
      ∀ caller called, table.connectionCall event = some (caller, called) →
        (called.EvictsOnlyForRoom SIZECONN caller ↔
          called.RoomOrNoDead SIZECONN caller) := by
  intro table event attempted caller called callEq
  obtain ⟨invariant, offered⟩ := invariant_of_attempts positive offers attempted
  exact evictsOnlyForRoom_iff positive
    (connectionCall_callInvariant invariant.toLruInvariant offered callEq)

theorem evictions_make_room_third_client :
    (system 2).Offers new [.up 0, .up 1, .up 2] ∧
      ∀ table event,
        (table, event) ∈ (system 2).attempts new [.up 0, .up 1, .up 2] →
          ∀ caller called, table.connectionCall event = some (caller, called) →
            (called.EvictsOnlyForRoom 2 caller ↔ called.RoomOrNoDead 2 caller) := by
  have offers : (system 2).Offers new [.up 0, .up 1, .up 2] := by
    decide +kernel
  exact ⟨offers, evictions_make_room_iff (by decide) _ offers⟩

/-- With two clients and room for two, one client is disconnected because the
other left. -/
theorem leaving_client_evicts_other :
    (system 2).Offers new [.up 0, .up 1, .down 1] ∧
      ¬∀ table event,
        (table, event) ∈ (system 2).attempts new [.up 0, .up 1, .down 1] →
          ∀ caller called, table.connectionCall event = some (caller, called) →
            called.EvictsOnlyForRoom 2 caller := by
  refine ⟨by decide +kernel, fun onlyForRoom => ?_⟩
  have evicted : ∃ attempt ∈ (system 2).attempts new [.up 0, .up 1, .down 1],
      ∃ call ∈ attempt.1.connectionCall attempt.2,
        2 ≤ call.2.lrulist_.size ∧ call.2.lrulist_.back = some 0 ∧
          call.2.state 0 = .kConnected ∧ call.2.state call.1 ≠ .kConnected := by
    decide +kernel
  obtain ⟨⟨table, event⟩, attempted, ⟨caller, called⟩, callEq, full, backEq,
    connected, callerDown⟩ := evicted
  have evicts : called.Evicts 2 0 := ⟨full, backEq, connected⟩
  obtain ⟨returned, returns⟩ := onConnection_returns (by decide : 1 ≤ 2) called caller
  exact callerDown (onlyForRoom table event attempted caller called callEq
    returned returns 0 connected (evicts.state_eq returns)).1

/-! ## Dead connections -/

/-- Some structure of the server owns the connection. -/
def Owned (table : ConnectionTable) (conn : ConnId) : Prop :=
  conn ∈ table.connections_ ∨ conn ∈ table.pendingFunctors_ ∨
    conn ∈ table.lrulist_.nodes.map Prod.snd ∨ conn ∈ table.lrumap_

/-- A connection that has gone DOWN is in neither of the LRU structures, and
nothing owns it once `connectDestroyed` has run. -/
def DeadReleased (table : ConnectionTable) : Prop :=
  ∀ conn, table.state conn = .kDisconnected →
    conn ∉ table.lrulist_.nodes.map Prod.snd ∧ conn ∉ table.lrumap_ ∧
      (conn ∉ table.pendingFunctors_ → ¬table.Owned conn)

/-- The end of a connection puts it at the front of the list. -/
theorem not_deadReleased_of_down {SIZECONN : Nat} (positive : 1 ≤ SIZECONN)
    (table : ConnectionTable) (conn : ConnId) :
    ∃ after, table.step SIZECONN (.down conn) = .ok after ∧
      ¬after.DeadReleased := by
  have callEq : table.connectionCall (.down conn) = some (conn, table.closing conn) :=
    rfl
  obtain ⟨returned, after, returns, stepTo, connsEq, listEq, -⟩ :=
    step_of_connectionCall positive callEq
  refine ⟨after, stepTo, fun released => ?_⟩
  have dead : after.state conn = .kDisconnected := by
    change (after.conns conn).state_ = _
    rw [connsEq]
    rcases onConnection_state returns conn with ⟨evicts, -⟩ | ⟨-, stateEq⟩
    · have connected := evicts.connected
      simp [closing_state] at connected
    · exact stateEq.trans (by simp [closing_state])
  apply (released conn dead).1
  rw [listEq]
  rcases onConnection_cases returns with ⟨-, rfl⟩ | ⟨-, back, -, rfl⟩
  · simp
  · simp

theorem step_noneDead {SIZECONN : Nat} {table after : ConnectionTable}
    {event : TableEvent} (invariant : table.Invariant SIZECONN)
    (noneDead : ∀ conn, table.state conn ≠ .kDisconnected)
    (notDown : ∀ conn, event ≠ .down conn)
    (stepTo : table.step SIZECONN event = .ok after) :
    ∀ conn, after.state conn ≠ .kDisconnected := by
  intro conn
  cases step_stateChange invariant.toRegistryInvariant stepTo conn with
  | same stateEq =>
      rw [stateEq]
      exact noneDead conn
  | cameUp _ stateEq => simp [stateEq]
  | wentDown isDown => exact absurd isDown (notDown conn)
  | evicted _ stateEq => simp [stateEq]

/-- In a run the dead connections are released everywhere exactly when no
connection goes DOWN in it. -/
theorem dead_released_iff {SIZECONN : Nat} (positive : 1 ≤ SIZECONN)
    (events : List TableEvent) (offers : (system SIZECONN).Offers new events) :
    (∀ table ∈ (system SIZECONN).visited new events, table.DeadReleased) ↔
      ∀ table event, (table, event) ∈ (system SIZECONN).attempts new events →
        ∀ conn, event ≠ .down conn := by
  constructor
  · rintro released table event attempted conn rfl
    obtain ⟨after, stepTo, retained⟩ := not_deadReleased_of_down positive table conn
    exact retained (released after (EventSystem.after_mem_visited attempted
      (Except.toOption_eq_some_iff.mpr stepTo)))
  · intro noDown table visit
    obtain ⟨-, noneDead⟩ := visited_with_invariant positive offers
      (fun table => ∀ conn, table.state conn ≠ .kDisconnected)
      (fun conn => by simp [new, state, TcpConnection.new])
      (fun _ _ _ invariant noneDead condition stepTo =>
        step_noneDead invariant noneDead condition stepTo)
      noDown visit
    intro conn dead
    exact absurd dead (noneDead conn)

theorem dead_released_client_stays :
    (∀ table ∈ (system 1000).visited new [.up 0, .message 0 [65] [66] (.room 1)],
        table.DeadReleased) ↔
      ∀ table event,
        (table, event) ∈
            (system 1000).attempts new [.up 0, .message 0 [65] [66] (.room 1)] →
          ∀ conn, event ≠ .down conn :=
  dead_released_iff (by decide) _ (by decide +kernel)

/-- A client that came and left is still owned by the list after
`connectDestroyed`. -/
theorem departed_client_retained :
    (system 1000).Offers new [.up 0, .down 0, .pendingFunctors] ∧
      ¬∀ table ∈ (system 1000).visited new [.up 0, .down 0, .pendingFunctors],
        table.DeadReleased := by
  refine ⟨by decide +kernel, fun released => ?_⟩
  have retained :
      ∃ table ∈ (system 1000).visited new [.up 0, .down 0, .pendingFunctors],
        table.state 0 = .kDisconnected ∧ 0 ∉ table.pendingFunctors_ ∧
          0 ∈ table.lrulist_.nodes.map Prod.snd := by
    decide +kernel
  obtain ⟨table, visit, dead, destroyed, listed⟩ := retained
  exact (released table visit 0 dead).2.2 destroyed (.inr (.inr (.inl listed)))

end ConnectionTable

end TcpMysql
