import TcpMysql.ConnectionTable
import Mathlib.Data.Finset.Card

/-!
# What holds of the connection table in every run

The LRU list may hold several nodes for one connection, since a connection is
pushed when it comes UP and again when it goes DOWN.  The map still points into
the list, and for a connection that is `kConnected` list and map agree: there is
one node and the map knows it.  The proof isolates the moment at which
`onConnection` is called, where the calling connection may not be in the list
yet.
-/

namespace TcpMysql

namespace ConnectionTable

/-- Every map entry refers to a node of the list that holds its key. -/
def MapValid (table : ConnectionTable) : Prop :=
  ∀ conn iter, table.lrumap_.lookup conn = some iter →
    ∃ node, iter = some node ∧ (node, conn) ∈ table.lrulist_.nodes

/-- The connection has exactly one node, and its map entry refers to it. -/
def Tracked (table : ConnectionTable) (conn : ConnId) : Prop :=
  ∃ node, table.lrumap_.lookup conn = some (some node) ∧
    ∀ other, (other, conn) ∈ table.lrulist_.nodes ↔ other = node

theorem MapValid.listed {table : ConnectionTable} (valid : table.MapValid)
    {conn : ConnId} {node : Nat}
    (found : table.lrumap_.lookup conn = some (some node)) :
    (node, conn) ∈ table.lrulist_.nodes := by
  obtain ⟨handle, iterEq, member⟩ := valid conn _ found
  exact Option.some.inj iterEq ▸ member

/-- The LRU structures when no callback is running. -/
structure LruInvariant (SIZECONN : Nat) (table : ConnectionTable) : Prop where
  mapValid : table.MapValid
  size_le : table.lrulist_.size ≤ SIZECONN
  tracked : ∀ conn, table.state conn = .kConnected → table.Tracked conn
  listed : ∀ node ∈ table.lrulist_.nodes,
    table.state node.2 = .kConnected ∨ table.state node.2 = .kDisconnected

/-- The LRU structures when `onConnection` is called for a connection: a caller
that comes UP is not in the list yet. -/
structure CallInvariant (SIZECONN : Nat) (table : ConnectionTable)
    (caller : ConnId) : Prop where
  mapValid : table.MapValid
  size_le : table.lrulist_.size ≤ SIZECONN
  tracked : ∀ conn, conn ≠ caller → table.state conn = .kConnected →
    table.Tracked conn
  unlisted : table.state caller = .kConnected →
    ∀ node, (node, caller) ∉ table.lrulist_.nodes
  callerState : table.state caller = .kConnected ∨
    table.state caller = .kDisconnected
  listed : ∀ node ∈ table.lrulist_.nodes,
    table.state node.2 = .kConnected ∨ table.state node.2 = .kDisconnected

/-- The bookkeeping of `TcpServer` and of the channels. -/
structure RegistryInvariant (table : ConnectionTable) : Prop where
  connections : ∀ conn, conn ∈ table.connections_ ↔ table.Live conn
  connections_nodup : table.connections_.Nodup
  pending : ∀ conn ∈ table.pendingFunctors_, table.state conn = .kDisconnected
  reading : ∀ conn, (table.conns conn).channel_.reading = true ↔ table.Live conn

/-! ## Inside `onConnection` -/

theorem enlist_mapValid {table : ConnectionTable} (valid : table.MapValid)
    (conn : ConnId) : (table.enlist conn).MapValid := by
  intro other iter found
  by_cases same : other = conn
  · subst same
    rw [enlist_lrumap, AList.lookup_insert] at found
    exact ⟨_, (Option.some.inj found).symm, by simp⟩
  · rw [enlist_lrumap, AList.lookup_insert_ne same] at found
    obtain ⟨node, iterEq, member⟩ := valid other iter found
    exact ⟨node, iterEq, by simp [member]⟩

/-- The entry of the evicted connection is erased by its key, and every other
entry refers to a node that holds another connection. -/
theorem evictBack_mapValid {table : ConnectionTable} (valid : table.MapValid)
    {back : ConnId} (backEq : table.lrulist_.back = some back) :
    (table.evictBack back).MapValid := by
  intro other iter found
  by_cases same : other = back
  · subst same
    simp at found
  · rw [evictBack_lrumap, AList.lookup_erase_ne same] at found
    obtain ⟨node, iterEq, member⟩ := valid other iter found
    exact ⟨node, iterEq, StableList.mem_popBack_of_ne backEq member same⟩

theorem enlist_tracked_of_ne {table : ConnectionTable} {conn other : ConnId}
    (differs : other ≠ conn) (tracked : table.Tracked other) :
    (table.enlist conn).Tracked other := by
  obtain ⟨node, found, unique⟩ := tracked
  refine ⟨node, ?_, ?_⟩
  · rw [enlist_lrumap, AList.lookup_insert_ne differs, found]
  · intro handle
    simp [differs, unique]

theorem enlist_tracked_self {table : ConnectionTable} {conn : ConnId}
    (unlisted : ∀ node, (node, conn) ∉ table.lrulist_.nodes) :
    (table.enlist conn).Tracked conn := by
  refine ⟨table.lrulist_.fresh, ?_, ?_⟩
  · rw [enlist_lrumap, AList.lookup_insert]
  · intro handle
    simp [unlisted]

theorem evictBack_tracked {table : ConnectionTable} {back conn : ConnId}
    (backEq : table.lrulist_.back = some back) (differs : conn ≠ back)
    (tracked : table.Tracked conn) : (table.evictBack back).Tracked conn := by
  obtain ⟨node, found, unique⟩ := tracked
  refine ⟨node, ?_, ?_⟩
  · rw [evictBack_lrumap, AList.lookup_erase_ne differs, found]
  · intro handle
    constructor
    · intro member
      exact (unique handle).mp (StableList.mem_of_mem_popBack member)
    · intro equal
      exact StableList.mem_popBack_of_ne backEq ((unique handle).mpr equal) differs

theorem evictBack_state_eq_kConnected {table : ConnectionTable}
    {back conn : ConnId} :
    (table.evictBack back).state conn = .kConnected ↔
      table.state conn = .kConnected ∧ conn ≠ back := by
  rw [evictBack_state]
  split
  · rename_i evicted
    simp [evicted.1]
  · rename_i notEvicted
    constructor
    · intro connected
      refine ⟨connected, ?_⟩
      rintro rfl
      exact notEvicted ⟨rfl, connected⟩
    · exact fun connected => connected.1

theorem evictBack_live {table : ConnectionTable} (back conn : ConnId) :
    (table.evictBack back).Live conn ↔ table.Live conn := by
  unfold Live
  rw [evictBack_state]
  split
  · rename_i evicted
    simp [evicted.1, evicted.2]
  · rfl

theorem evictBack_state_eq_kDisconnected {table : ConnectionTable}
    (back conn : ConnId) :
    (table.evictBack back).state conn = .kDisconnected ↔
      table.state conn = .kDisconnected := by
  rw [evictBack_state]
  split
  · rename_i evicted
    simp [evicted.1, evicted.2]
  · rfl

/-- Dropping the node at the back keeps what is known before a call, with one
place free. -/
theorem evictBack_callInvariant {SIZECONN : Nat} {table : ConnectionTable}
    {caller back : ConnId} (invariant : table.CallInvariant SIZECONN caller)
    (backEq : table.lrulist_.back = some back) :
    (table.evictBack back).CallInvariant SIZECONN caller := by
  obtain ⟨backNode, backMem⟩ := StableList.back_mem backEq
  refine ⟨evictBack_mapValid invariant.mapValid backEq, ?_, ?_, ?_, ?_, ?_⟩
  · rw [evictBack_lrulist, StableList.popBack_size]
    exact (Nat.sub_le _ _).trans invariant.size_le
  · intro conn notCaller connected
    obtain ⟨connected, notBack⟩ := evictBack_state_eq_kConnected.mp connected
    exact evictBack_tracked backEq notBack
      (invariant.tracked conn notCaller connected)
  · intro connected node member
    exact invariant.unlisted (evictBack_state_eq_kConnected.mp connected).1 node
      (StableList.mem_of_mem_popBack member)
  · rcases invariant.callerState with connected | disconnected
    · left
      refine evictBack_state_eq_kConnected.mpr ⟨connected, ?_⟩
      rintro rfl
      exact invariant.unlisted connected backNode backMem
    · right
      exact (evictBack_state_eq_kDisconnected back caller).mpr disconnected
  · intro node member
    have listed := StableList.mem_of_mem_popBack member
    rcases invariant.listed node listed with connected | disconnected
    · by_cases same : node.2 = back
      · -- a connected connection has one node, and that was the last one
        exfalso
        have notCaller : back ≠ caller := by
          rintro rfl
          exact invariant.unlisted (same ▸ connected) backNode backMem
        obtain ⟨only, -, unique⟩ := invariant.tracked back notCaller (same ▸ connected)
        obtain ⟨lastNode, nodesEq⟩ := StableList.nodes_eq_popBack_append backEq
        have nodeEq : node.1 = only := (unique node.1).mp (same ▸ listed)
        have lastEq : lastNode = only :=
          (unique lastNode).mp (by rw [nodesEq]; simp)
        have nodup := table.lrulist_.handles_nodup
        rw [nodesEq, List.map_append, List.nodup_append] at nodup
        exact nodup.2.2 node.1 (List.mem_map_of_mem member) lastNode (by simp)
          (nodeEq.trans lastEq.symm)
      · left
        exact evictBack_state_eq_kConnected.mpr ⟨connected, same⟩
    · right
      exact (evictBack_state_eq_kDisconnected back node.2).mpr disconnected

theorem enlist_lruInvariant {SIZECONN : Nat} {table : ConnectionTable}
    {caller : ConnId} (invariant : table.CallInvariant SIZECONN caller)
    (room : table.lrulist_.size < SIZECONN) :
    (table.enlist caller).LruInvariant SIZECONN := by
  refine ⟨enlist_mapValid invariant.mapValid caller, room, ?_, ?_⟩
  · intro conn connected
    by_cases same : conn = caller
    · subst same
      exact enlist_tracked_self (invariant.unlisted connected)
    · exact enlist_tracked_of_ne same (invariant.tracked conn same connected)
  · intro node member
    rcases List.mem_cons.mp member with rfl | older
    · exact invariant.callerState
    · exact invariant.listed node older

theorem onConnection_lruInvariant {SIZECONN : Nat} (positive : 1 ≤ SIZECONN)
    {table after : ConnectionTable} {caller : ConnId}
    (invariant : table.CallInvariant SIZECONN caller)
    (called : table.onConnection SIZECONN caller = .ok after) :
    after.LruInvariant SIZECONN := by
  rcases onConnection_cases called with ⟨room, rfl⟩ | ⟨full, back, backEq, rfl⟩
  · exact enlist_lruInvariant invariant room
  · apply enlist_lruInvariant (evictBack_callInvariant invariant backEq)
    have bound := invariant.size_le
    rw [evictBack_lrulist, StableList.popBack_size]
    omega

/-- `onConnection` changes nothing in the bookkeeping around it. -/
structure SameRegistry (before after : ConnectionTable) : Prop where
  live : ∀ conn, after.Live conn ↔ before.Live conn
  disconnected : ∀ conn, after.state conn = .kDisconnected ↔
    before.state conn = .kDisconnected
  reading : ∀ conn, (after.conns conn).channel_.reading =
    (before.conns conn).channel_.reading
  connections : after.connections_ = before.connections_
  pending : after.pendingFunctors_ = before.pendingFunctors_

theorem onConnection_sameRegistry {SIZECONN : Nat}
    {table after : ConnectionTable} {caller : ConnId}
    (called : table.onConnection SIZECONN caller = .ok after) :
    SameRegistry table after := by
  rcases onConnection_cases called with ⟨-, rfl⟩ | ⟨-, back, -, rfl⟩
  · exact ⟨fun _ => Iff.rfl, fun _ => Iff.rfl, fun _ => rfl, rfl, rfl⟩
  · exact ⟨evictBack_live back, evictBack_state_eq_kDisconnected back,
      evictBack_reading table back, rfl, rfl⟩

/-! ## One event -/

/-- What holds of the table whenever no callback is running. -/
structure Invariant (SIZECONN : Nat) (table : ConnectionTable) : Prop
    extends table.LruInvariant SIZECONN, table.RegistryInvariant

theorem accepted_callInvariant {SIZECONN : Nat} {table : ConnectionTable}
    {conn : ConnId} (invariant : table.LruInvariant SIZECONN)
    (connecting : table.state conn = .kConnecting) :
    (table.accepted conn).CallInvariant SIZECONN conn := by
  have unlisted : ∀ node ∈ table.lrulist_.nodes, node.2 ≠ conn := by
    intro node member same
    have listed := invariant.listed node member
    simp [same, connecting] at listed
  refine ⟨invariant.mapValid, invariant.size_le, ?_, ?_, ?_, ?_⟩
  · intro other differs connected
    rw [accepted_state, if_neg differs] at connected
    exact invariant.tracked other connected
  · intro _ node member
    exact unlisted (node, conn) member rfl
  · left
    simp [accepted_state]
  · intro node member
    rw [accepted_state, if_neg (unlisted node member)]
    exact invariant.listed node member

theorem closing_callInvariant {SIZECONN : Nat} {table : ConnectionTable}
    (invariant : table.LruInvariant SIZECONN) (conn : ConnId) :
    (table.closing conn).CallInvariant SIZECONN conn := by
  refine ⟨invariant.mapValid, invariant.size_le, ?_, ?_, ?_, ?_⟩
  · intro other differs connected
    rw [closing_state, if_neg differs] at connected
    exact invariant.tracked other connected
  · intro connected
    simp [closing_state] at connected
  · right
    simp [closing_state]
  · intro node member
    rw [closing_state]
    split
    · exact .inr rfl
    · exact invariant.listed node member

theorem connectionCall_callInvariant {SIZECONN : Nat} {table called : ConnectionTable}
    {event : TableEvent} {caller : ConnId}
    (invariant : table.LruInvariant SIZECONN) (offered : table.Offered event)
    (callEq : table.connectionCall event = some (caller, called)) :
    called.CallInvariant SIZECONN caller := by
  rcases connectionCall_cases callEq with ⟨rfl, rfl⟩ | ⟨rfl, rfl⟩
  · exact accepted_callInvariant invariant offered
  · exact closing_callInvariant invariant caller

theorem accepted_live (table : ConnectionTable) (conn other : ConnId) :
    (table.accepted conn).Live other ↔ other = conn ∨ table.Live other := by
  unfold Live
  rw [accepted_state]
  split <;> simp [*]

theorem closing_live (table : ConnectionTable) (conn other : ConnId) :
    (table.closing conn).Live other ↔ other ≠ conn ∧ table.Live other := by
  unfold Live
  rw [closing_state]
  split <;> simp [*]

theorem removeConnectionInLoop_live (table : ConnectionTable) (conn other : ConnId) :
    (table.removeConnectionInLoop conn).Live other ↔ table.Live other :=
  Iff.rfl

namespace RegistryInvariant

theorem of_sameRegistry {before after : ConnectionTable}
    (invariant : before.RegistryInvariant) (same : SameRegistry before after) :
    after.RegistryInvariant := by
  refine ⟨?_, ?_, ?_, ?_⟩
  · intro conn
    rw [same.connections, same.live]
    exact invariant.connections conn
  · rw [same.connections]
    exact invariant.connections_nodup
  · intro conn member
    rw [same.pending] at member
    exact (same.disconnected conn).mpr (invariant.pending conn member)
  · intro conn
    rw [same.reading, same.live]
    exact invariant.reading conn

theorem of_sameConnections {before after : ConnectionTable}
    (invariant : before.RegistryInvariant) (same : SameConnections before after)
    (fewer : after.pendingFunctors_ ⊆ before.pendingFunctors_) :
    after.RegistryInvariant := by
  refine ⟨?_, ?_, ?_, ?_⟩
  · intro conn
    rw [same.connections, Live, same.state]
    exact invariant.connections conn
  · rw [same.connections]
    exact invariant.connections_nodup
  · intro conn member
    rw [same.state]
    exact invariant.pending conn (fewer member)
  · intro conn
    rw [same.reading, Live, same.state]
    exact invariant.reading conn

theorem accepted {table : ConnectionTable} {conn : ConnId}
    (invariant : table.RegistryInvariant)
    (connecting : table.state conn = .kConnecting) :
    (table.accepted conn).RegistryInvariant := by
  have notLive : ¬table.Live conn := by simp [Live, connecting]
  refine ⟨?_, ?_, ?_, ?_⟩
  · intro other
    rw [accepted_live, ← invariant.connections other]
    exact List.mem_cons
  · exact List.nodup_cons.mpr
      ⟨fun member => notLive ((invariant.connections conn).mp member),
        invariant.connections_nodup⟩
  · intro other member
    have disconnected := invariant.pending other member
    have differs : other ≠ conn := by
      rintro rfl
      simp [connecting] at disconnected
    rw [accepted_state, if_neg differs, disconnected]
  · intro other
    rw [accepted_live, ← invariant.reading other]
    by_cases same : other = conn
    · subst same
      simp [ConnectionTable.accepted, TcpConnection.established,
        Channel.enableReading]
    · simp [ConnectionTable.accepted, setConn_of_ne _ _ same, same]

theorem closed {table : ConnectionTable} (invariant : table.RegistryInvariant)
    (conn : ConnId) :
    ((table.closing conn).removeConnectionInLoop conn).RegistryInvariant := by
  refine ⟨?_, invariant.connections_nodup.erase conn, ?_, ?_⟩
  · intro other
    rw [removeConnectionInLoop_live, closing_live, ← invariant.connections other]
    exact invariant.connections_nodup.mem_erase_iff
  · intro other member
    have stateEq := table.closing_state conn other
    rcases List.mem_append.mp member with older | last
    · exact stateEq.trans (by simp [invariant.pending other older])
    · exact stateEq.trans (by simp [List.mem_singleton.mp last])
  · intro other
    rw [removeConnectionInLoop_live, closing_live, ← invariant.reading other]
    by_cases same : other = conn
    · subst same
      simp [removeConnectionInLoop, closing, TcpConnection.closed, Channel.disableAll]
    · simp [removeConnectionInLoop, closing, setConn_of_ne _ _ same, same]

end RegistryInvariant

theorem SameRegistry.removeConnectionInLoop {before after : ConnectionTable}
    (same : SameRegistry before after) (conn : ConnId) :
    SameRegistry (before.removeConnectionInLoop conn)
      (after.removeConnectionInLoop conn) :=
  ⟨same.live, same.disconnected, same.reading,
    congrArg (·.erase conn) same.connections,
    congrArg (· ++ [conn]) same.pending⟩

theorem LruInvariant.of_same {SIZECONN : Nat} {before after : ConnectionTable}
    (invariant : before.LruInvariant SIZECONN)
    (stateEq : ∀ conn, after.state conn = before.state conn)
    (lookupEq : ∀ conn, after.lrumap_.lookup conn = before.lrumap_.lookup conn)
    (nodesEq : ∀ node, node ∈ after.lrulist_.nodes ↔ node ∈ before.lrulist_.nodes)
    (sizeEq : after.lrulist_.size = before.lrulist_.size) :
    after.LruInvariant SIZECONN := by
  refine ⟨?_, sizeEq.trans_le invariant.size_le, ?_, ?_⟩
  · intro conn iter found
    rw [lookupEq] at found
    obtain ⟨node, iterEq, member⟩ := invariant.mapValid conn iter found
    exact ⟨node, iterEq, (nodesEq _).mpr member⟩
  · intro conn connected
    rw [stateEq] at connected
    obtain ⟨node, found, unique⟩ := invariant.tracked conn connected
    exact ⟨node, (lookupEq conn).trans found, fun other => (nodesEq _).trans (unique other)⟩
  · intro node member
    rw [stateEq]
    exact invariant.listed node ((nodesEq node).mp member)

theorem LruInvariant.of_sameLru {SIZECONN : Nat} {before after : ConnectionTable}
    (invariant : before.LruInvariant SIZECONN) (lru : SameLru before after)
    (same : SameConnections before after) : after.LruInvariant SIZECONN :=
  invariant.of_same same.state (fun _ => by rw [lru.map]) (fun _ => by rw [lru.list])
    (by rw [lru.list])

/-- Bringing the node of an entry to the front changes neither the entries nor
the set of nodes. -/
theorem step_message_lookup {table after : ConnectionTable} {conn : ConnId}
    {node : Nat} (found : table.lrumap_.lookup conn = some (some node))
    (mapEq : after.lrumap_ = table.lrumap_.insert conn (some node))
    (other : ConnId) :
    after.lrumap_.lookup other = table.lrumap_.lookup other := by
  rw [mapEq]
  by_cases same : other = conn
  · rw [same, AList.lookup_insert, found]
  · rw [AList.lookup_insert_ne same]

theorem RegistryInvariant.pending_ne_kConnected {table : ConnectionTable}
    (invariant : table.RegistryInvariant) :
    ∀ conn ∈ table.pendingFunctors_, table.state conn ≠ .kConnected := by
  intro conn member
  simp [invariant.pending conn member]

theorem step_invariant {SIZECONN : Nat} (positive : 1 ≤ SIZECONN)
    {table after : ConnectionTable} {event : TableEvent}
    (invariant : table.Invariant SIZECONN) (offered : table.Offered event)
    (stepTo : table.step SIZECONN event = .ok after) :
    after.Invariant SIZECONN := by
  cases event with
  | up conn =>
      exact ⟨onConnection_lruInvariant positive
          (accepted_callInvariant invariant.toLruInvariant offered) stepTo,
        (invariant.toRegistryInvariant.accepted offered).of_sameRegistry
          (onConnection_sameRegistry stepTo)⟩
  | message conn chunk echo outcome =>
      obtain ⟨node, found, moved, mapEq, pending, same⟩ := step_message_cases stepTo
      exact ⟨invariant.toLruInvariant.of_same same.state
          (step_message_lookup found mapEq)
          (StableList.mem_moveToFront moved) (StableList.moveToFront_size moved),
        invariant.toRegistryInvariant.of_sameConnections same (by simp [pending])⟩
  | down conn =>
      obtain ⟨called, callEq, rfl⟩ := step_down_cases stepTo
      have lru := onConnection_lruInvariant positive
        (closing_callInvariant invariant.toLruInvariant conn) callEq
      exact ⟨⟨lru.mapValid, lru.size_le, lru.tracked, lru.listed⟩,
        (invariant.toRegistryInvariant.closed conn).of_sameRegistry
          ((onConnection_sameRegistry callEq).removeConnectionInLoop conn)⟩
  | writable conn outcome =>
      obtain ⟨lru, pending, same⟩ := step_writable_cases stepTo
      exact ⟨invariant.toLruInvariant.of_sameLru lru same,
        invariant.toRegistryInvariant.of_sameConnections same (by simp [pending])⟩
  | pendingFunctors =>
      obtain ⟨lru, pending, same⟩ :=
        step_pendingFunctors_cases invariant.pending_ne_kConnected stepTo
      exact ⟨invariant.toLruInvariant.of_sameLru lru same,
        invariant.toRegistryInvariant.of_sameConnections same (by simp [pending])⟩

/-! ## Whole runs -/

theorem new_invariant (SIZECONN : Nat) : new.Invariant SIZECONN := by
  refine ⟨⟨?_, Nat.zero_le _, ?_, ?_⟩, ⟨?_, List.nodup_nil, ?_, ?_⟩⟩
  · intro conn iter found
    simp [new] at found
  · intro conn connected
    simp [new, state, TcpConnection.new] at connected
  · intro node member
    simp [new] at member
  · intro conn
    simp [new, Live, state, TcpConnection.new]
  · intro conn member
    simp [new] at member
  · intro conn
    simp [new, Live, state, TcpConnection.new, Channel.new]

theorem invariant_of_reaches {SIZECONN : Nat} (positive : 1 ≤ SIZECONN)
    {events : List TableEvent} {table : ConnectionTable}
    (run : (system SIZECONN).Reaches new events table) :
    table.Invariant SIZECONN := by
  apply run.invariant fun _ table => table.Invariant SIZECONN
  · exact new_invariant SIZECONN
  · intro _ before event after _ invariant offered stepTo
    exact step_invariant positive invariant offered (Except.toOption_eq_some_iff.mp stepTo)

theorem MapValid.keys_length_le {table : ConnectionTable} (valid : table.MapValid) :
    table.lrumap_.keys.length ≤ table.lrulist_.size := by
  have included : table.lrumap_.keys ⊆ table.lrulist_.nodes.map Prod.snd := by
    intro conn member
    obtain ⟨iter, found⟩ := Option.isSome_iff_exists.mp (AList.lookup_isSome.mpr member)
    obtain ⟨node, -, listed⟩ := valid conn iter found
    exact List.mem_map_of_mem listed
  have bound := (List.subperm_of_subset table.lrumap_.keys_nodup included).length_le
  simpa [StableList.size] using bound

theorem card_le_size {table : ConnectionTable} {conns : Finset ConnId}
    (listed : ∀ conn ∈ conns, ∃ node, (node, conn) ∈ table.lrulist_.nodes) :
    conns.card ≤ table.lrulist_.size := by
  have included : conns ⊆ (table.lrulist_.nodes.map Prod.snd).toFinset := by
    intro conn member
    obtain ⟨node, nodeMem⟩ := listed conn member
    exact List.mem_toFinset.mpr (List.mem_map_of_mem nodeMem)
  calc conns.card
      ≤ (table.lrulist_.nodes.map Prod.snd).toFinset.card := Finset.card_le_card included
    _ ≤ (table.lrulist_.nodes.map Prod.snd).length := List.toFinset_card_le _
    _ = table.lrulist_.size := by simp [StableList.size]

theorem Tracked.exists_node {table : ConnectionTable} {conn : ConnId}
    (tracked : table.Tracked conn) :
    ∃ node, (node, conn) ∈ table.lrulist_.nodes := by
  obtain ⟨node, -, unique⟩ := tracked
  exact ⟨node, (unique node).mpr rfl⟩

/-- In every reachable table the map points into the list, neither is larger
than the limit, list and map agree on the connected connections, and no more
than `SIZECONN` connections are connected. -/
theorem lru_structures_consistent {SIZECONN : Nat} (positive : 1 ≤ SIZECONN)
    {events : List TableEvent} {table : ConnectionTable}
    (run : (system SIZECONN).Reaches new events table) :
    (∀ conn iter, table.lrumap_.lookup conn = some iter →
        ∃ node, iter = some node ∧ (node, conn) ∈ table.lrulist_.nodes) ∧
      (table.lrumap_.keys.length ≤ table.lrulist_.size ∧
        table.lrulist_.size ≤ SIZECONN) ∧
      (∀ conn, table.state conn = .kConnected →
        ∃ node, table.lrumap_.lookup conn = some (some node) ∧
          ∀ other, (other, conn) ∈ table.lrulist_.nodes ↔ other = node) ∧
      ∀ conns : Finset ConnId,
        (∀ conn ∈ conns, table.state conn = .kConnected) →
          conns.card ≤ SIZECONN := by
  have invariant := invariant_of_reaches positive run
  refine ⟨invariant.mapValid, ⟨invariant.mapValid.keys_length_le, invariant.size_le⟩,
    invariant.tracked, ?_⟩
  intro conns connected
  have listed : ∀ conn ∈ conns, ∃ node, (node, conn) ∈ table.lrulist_.nodes :=
    fun conn member => (invariant.tracked conn (connected conn member)).exists_node
  exact (card_le_size listed).trans invariant.size_le

/-- With room for one connection, the second one to come up evicts the first. -/
theorem lru_structures_consistent_two_connections :
    ∃ table,
      (system 1).Reaches new [.up 0, .message 0 [65] [66] (.room 1), .up 1] table ∧
        table.state 0 = .kDisconnecting ∧
          ∀ conns : Finset ConnId,
            (∀ conn ∈ conns, table.state conn = .kConnected) → conns.card ≤ 1 := by
  obtain ⟨table, run, evicted⟩ := EventSystem.exists_reaches_of_play (system 1) new
    [.up 0, .message 0 [65] [66] (.room 1), .up 1]
    (fun table => table.state 0 = .kDisconnecting) (by decide +kernel)
  exact ⟨table, run, evicted, (lru_structures_consistent (by decide) run).2.2.2⟩

end ConnectionTable

end TcpMysql
