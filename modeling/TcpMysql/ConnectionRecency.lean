import TcpMysql.ConnectionEviction

/-!
# The order of the LRU list

Among the connected connections the list is ordered by their latest activity,
newest first.  Nodes of dead connections lie between them and take no part in
the order.  Since `onConnection` evicts from the back, the connection it shuts
down is the one that has been silent for longest.
-/

namespace TcpMysql

namespace ConnectionTable

/-- The connection comes UP, or a message of it is handled. -/
def Active (conn : ConnId) : TableEvent → Prop
  | .up other => other = conn
  | .message other _ _ _ => other = conn
  | _ => False

/-- In the history, the latest activity of the first connection is after the
latest activity of the second. -/
def MoreRecent (history : List TableEvent) (newer older : ConnId) : Prop :=
  ∃ early late, LatestAt (Active older) history early ∧
    LatestAt (Active newer) history late ∧ early < late

/-- The list keeps the connected connections in the order of their latest
activity. -/
structure RecencyInvariant (history : List TableEvent) (table : ConnectionTable) :
    Prop where
  recorded : ∀ conn, table.state conn = .kConnected →
    ∃ index, LatestAt (Active conn) history index
  ordered : table.lrulist_.nodes.Pairwise fun newer older =>
    table.state newer.2 = .kConnected → table.state older.2 = .kConnected →
      MoreRecent history newer.2 older.2

theorem MoreRecent.append {history : List TableEvent} {newer older : ConnId}
    (recent : MoreRecent history newer older) {event : TableEvent}
    (newerSilent : ¬Active newer event) (olderSilent : ¬Active older event) :
    MoreRecent (history ++ [event]) newer older := by
  obtain ⟨early, late, olderAt, newerAt, before⟩ := recent
  exact ⟨early, late, olderAt.append olderSilent, newerAt.append newerSilent, before⟩

/-- Whoever is active now is more recent than everyone else. -/
theorem MoreRecent.of_active {history : List TableEvent} {newer older : ConnId}
    {event : TableEvent} (active : Active newer event)
    (olderSilent : ¬Active older event) {index : Nat}
    (olderAt : LatestAt (Active older) history index) :
    MoreRecent (history ++ [event]) newer older :=
  ⟨index, history.length, olderAt.append olderSilent, .of_last active,
    olderAt.lt_length⟩

theorem RecencyInvariant.silent {history : List TableEvent}
    {table after : ConnectionTable} {event : TableEvent}
    (recency : RecencyInvariant history table)
    (silent : ∀ conn, ¬Active conn event)
    (stateEq : ∀ conn, after.state conn = table.state conn)
    (listEq : after.lrulist_ = table.lrulist_) :
    RecencyInvariant (history ++ [event]) after := by
  constructor
  · intro conn connected
    rw [stateEq] at connected
    obtain ⟨index, latest⟩ := recency.recorded conn connected
    exact ⟨index, latest.append (silent conn)⟩
  · rw [listEq]
    apply recency.ordered.imp
    intro newer older related newerConnected olderConnected
    rw [stateEq] at newerConnected olderConnected
    exact (related newerConnected olderConnected).append (silent _) (silent _)

/-- An event that brings one connection to the front, where it is active or
dead, keeps the order. -/
theorem RecencyInvariant.front {history : List TableEvent}
    {table after : ConnectionTable} {event : TableEvent} {conn : ConnId}
    {node : Nat} {rest : List (Nat × ConnId)}
    (recency : RecencyInvariant history table)
    (nodesEq : after.lrulist_.nodes = (node, conn) :: rest)
    (sublist : rest.Sublist table.lrulist_.nodes)
    (active : after.state conn = .kConnected →
      Active conn event ∧ ∀ other ∈ rest, other.2 ≠ conn)
    (stays : ∀ other, other ≠ conn → after.state other = .kConnected →
      table.state other = .kConnected ∧ ¬Active other event) :
    RecencyInvariant (history ++ [event]) after := by
  constructor
  · intro other connected
    by_cases same : other = conn
    · subst same
      exact ⟨_, .of_last (active connected).1⟩
    · obtain ⟨before, silent⟩ := stays other same connected
      obtain ⟨index, latest⟩ := recency.recorded other before
      exact ⟨index, latest.append silent⟩
  · rw [nodesEq, List.pairwise_cons]
    constructor
    · intro older member newerConnected olderConnected
      obtain ⟨isActive, alone⟩ := active newerConnected
      obtain ⟨before, silent⟩ := stays older.2 (alone older member) olderConnected
      obtain ⟨index, latest⟩ := recency.recorded older.2 before
      exact .of_active isActive silent latest
    · apply (recency.ordered.sublist sublist).imp_of_mem
      intro newer older newerMem olderMem related newerConnected olderConnected
      have differs (listed : Nat × ConnId) (member : listed ∈ rest)
          (connected : after.state listed.2 = .kConnected) : listed.2 ≠ conn := by
        intro same
        exact (active (same ▸ connected)).2 listed member same
      obtain ⟨newerBefore, newerSilent⟩ :=
        stays newer.2 (differs newer newerMem newerConnected) newerConnected
      obtain ⟨olderBefore, olderSilent⟩ :=
        stays older.2 (differs older olderMem olderConnected) olderConnected
      exact (related newerBefore olderBefore).append newerSilent olderSilent

theorem onConnection_nodes {SIZECONN : Nat} {called returned : ConnectionTable}
    {caller : ConnId}
    (returns : called.onConnection SIZECONN caller = .ok returned) :
    ∃ node rest, returned.lrulist_.nodes = (node, caller) :: rest ∧
      rest.Sublist called.lrulist_.nodes := by
  rcases onConnection_cases returns with ⟨-, rfl⟩ | ⟨-, back, -, rfl⟩
  · exact ⟨_, _, rfl, List.Sublist.refl _⟩
  · exact ⟨_, _, rfl, List.dropLast_sublist _⟩

theorem onConnection_connected {SIZECONN : Nat} {called returned : ConnectionTable}
    {caller conn : ConnId}
    (returns : called.onConnection SIZECONN caller = .ok returned)
    (connected : returned.state conn = .kConnected) :
    called.state conn = .kConnected := by
  rcases onConnection_state returns conn with ⟨-, closing⟩ | ⟨-, stateEq⟩
  · simp [closing] at connected
  · exact stateEq ▸ connected

theorem onConnection_recency {SIZECONN : Nat} {history : List TableEvent}
    {table called returned : ConnectionTable} {event : TableEvent}
    {caller : ConnId} (recency : RecencyInvariant history table)
    (call : called.CallInvariant SIZECONN caller)
    (returns : called.onConnection SIZECONN caller = .ok returned)
    (listEq : called.lrulist_ = table.lrulist_)
    (active : called.state caller = .kConnected → Active caller event)
    (stays : ∀ other, other ≠ caller → called.state other = .kConnected →
      table.state other = .kConnected ∧ ¬Active other event) :
    RecencyInvariant (history ++ [event]) returned := by
  obtain ⟨node, rest, nodesEq, sublist⟩ := onConnection_nodes returns
  apply recency.front nodesEq (listEq ▸ sublist)
  · intro connected
    have callerConnected := onConnection_connected returns connected
    refine ⟨active callerConnected, ?_⟩
    rintro ⟨handle, conn⟩ member rfl
    exact call.unlisted callerConnected handle (sublist.subset member)
  · intro other differs connected
    exact stays other differs (onConnection_connected returns connected)

theorem step_message_recency {SIZECONN : Nat} {history : List TableEvent}
    {table after : ConnectionTable} {conn : ConnId} {chunk echo : Bytes}
    {outcome : WriteOutcome} (invariant : table.Invariant SIZECONN)
    (recency : RecencyInvariant history table)
    (stepTo : table.step SIZECONN (.message conn chunk echo outcome) = .ok after) :
    RecencyInvariant (history ++ [.message conn chunk echo outcome]) after := by
  obtain ⟨node, found, moved, -, -, same⟩ := step_message_cases stepTo
  obtain ⟨holder, member, nodesEq⟩ := StableList.moveToFront_eq_some moved
  have listed := invariant.mapValid.listed found
  obtain rfl := table.lrulist_.value_unique member listed
  apply recency.front nodesEq List.filter_sublist
  · intro connected
    rw [same.state] at connected
    refine ⟨rfl, ?_⟩
    rintro ⟨handle, other⟩ kept rfl
    obtain ⟨only, -, unique⟩ := invariant.tracked other connected
    obtain ⟨handleMem, handleDiffers⟩ := List.mem_filter.mp kept
    rw [(unique handle).mp handleMem, (unique node).mp listed] at handleDiffers
    simp at handleDiffers
  · intro other differs connected
    rw [same.state] at connected
    exact ⟨connected, fun active => differs active.symm⟩

theorem step_recency {SIZECONN : Nat} {history : List TableEvent}
    {table after : ConnectionTable} {event : TableEvent}
    (invariant : table.Invariant SIZECONN)
    (recency : RecencyInvariant history table) (offered : table.Offered event)
    (stepTo : table.step SIZECONN event = .ok after) :
    RecencyInvariant (history ++ [event]) after := by
  cases event with
  | up conn =>
      have call := accepted_callInvariant invariant.toLruInvariant offered
      apply onConnection_recency recency call stepTo rfl
      · intro _
        rfl
      · intro other differs connected
        rw [accepted_state, if_neg differs] at connected
        exact ⟨connected, fun active => differs active.symm⟩
  | message conn chunk echo outcome =>
      exact step_message_recency invariant recency stepTo
  | down conn =>
      obtain ⟨called, returns, rfl⟩ := step_down_cases stepTo
      have call := closing_callInvariant invariant.toLruInvariant conn
      have kept : RecencyInvariant (history ++ [.down conn]) called := by
        apply onConnection_recency recency call returns rfl
        · intro connected
          simp [closing_state] at connected
        · intro other differs connected
          rw [closing_state, if_neg differs] at connected
          exact ⟨connected, fun active => active⟩
      exact ⟨kept.recorded, kept.ordered⟩
  | writable conn outcome =>
      obtain ⟨lru, -, same⟩ := step_writable_cases stepTo
      exact recency.silent (fun _ active => active) same.state lru.list
  | pendingFunctors =>
      obtain ⟨lru, -, same⟩ :=
        step_pendingFunctors_cases invariant.pending_ne_kConnected stepTo
      exact recency.silent (fun _ active => active) same.state lru.list

theorem recency_of_reaches {SIZECONN : Nat} (positive : 1 ≤ SIZECONN)
    {events : List TableEvent} {table : ConnectionTable}
    (run : (system SIZECONN).Reaches new events table) :
    RecencyInvariant events table := by
  apply run.invariant RecencyInvariant
  · constructor
    · intro conn connected
      simp [new, state, TcpConnection.new] at connected
    · exact List.Pairwise.nil
  · intro _ before event after earlier recency offered stepTo
    exact step_recency (invariant_of_reaches positive earlier) recency offered
      (Except.toOption_eq_some_iff.mp stepTo)

theorem connectionCall_frame {table called : ConnectionTable} {event : TableEvent}
    {caller : ConnId}
    (callEq : table.connectionCall event = some (caller, called)) :
    called.lrulist_ = table.lrulist_ ∧
      ∀ other, other ≠ caller → called.state other = table.state other := by
  rcases connectionCall_cases callEq with ⟨-, rfl⟩ | ⟨-, rfl⟩
  · exact ⟨rfl, fun other differs => by rw [accepted_state, if_neg differs]⟩
  · exact ⟨rfl, fun other differs => by rw [closing_state, if_neg differs]⟩

/-- The connection that `onConnection` evicts is the least recently active of the
connected connections. -/
theorem evicted_least_recent {SIZECONN : Nat} (positive : 1 ≤ SIZECONN)
    {events : List TableEvent} {table : ConnectionTable}
    (run : (system SIZECONN).Reaches new events table)
    {event : TableEvent} (offered : table.Offered event)
    {caller : ConnId} {called returned : ConnectionTable}
    (callEq : table.connectionCall event = some (caller, called))
    (returns : called.onConnection SIZECONN caller = .ok returned)
    {victim : ConnId} (connected : called.state victim = .kConnected)
    (evicted : returned.state victim = .kDisconnecting)
    {other : ConnId} (notVictim : other ≠ victim) (notCaller : other ≠ caller)
    (otherConnected : called.state other = .kConnected) :
    ∃ early late, LatestAt (Active victim) events early ∧
      LatestAt (Active other) events late ∧ early < late := by
  have invariant := invariant_of_reaches positive run
  have call := connectionCall_callInvariant invariant.toLruInvariant offered callEq
  obtain ⟨listEq, stateEq⟩ := connectionCall_frame callEq
  have evicts : called.Evicts SIZECONN victim := by
    rcases onConnection_state returns victim with ⟨evicts, -⟩ | ⟨-, unchanged⟩
    · exact evicts
    · simp [unchanged, connected] at evicted
  obtain ⟨last, nodesEq⟩ := StableList.nodes_eq_popBack_append evicts.back
  have victimNotCaller : victim ≠ caller := by
    rintro rfl
    exact call.unlisted connected last (by rw [nodesEq]; simp)
  obtain ⟨node, listed⟩ := (call.tracked other notCaller otherConnected).exists_node
  have ahead := StableList.mem_popBack_of_ne evicts.back listed notVictim
  have ordered := (recency_of_reaches positive run).ordered
  rw [← listEq, nodesEq, List.pairwise_append] at ordered
  apply ordered.2.2 (node, other) ahead (last, victim) (by simp)
  · rw [← stateEq other notCaller]
    exact otherConnected
  · rw [← stateEq victim victimNotCaller]
    exact connected

/-- The third of three clients where two are allowed evicts the second one when
only the first has sent a message. -/
theorem evicted_least_recent_third_client :
    ∃ table returned,
      (system 2).Reaches new [.up 0, .up 1, .message 0 [65] [66] (.room 1)] table ∧
        (table.accepted 2).onConnection 2 2 = .ok returned ∧
          returned.state 1 = .kDisconnecting ∧
            ∃ early late,
              LatestAt (Active 1) [.up 0, .up 1, .message 0 [65] [66] (.room 1)]
                  early ∧
                LatestAt (Active 0) [.up 0, .up 1, .message 0 [65] [66] (.room 1)]
                  late ∧
                  early < late := by
  obtain ⟨table, run, offered, full, backEq, connected, otherConnected⟩ :=
    EventSystem.exists_reaches_of_play (system 2) new
      [.up 0, .up 1, .message 0 [65] [66] (.room 1)]
      (fun table => table.Offered (.up 2) ∧ 2 ≤ (table.accepted 2).lrulist_.size ∧
        (table.accepted 2).lrulist_.back = some 1 ∧
          (table.accepted 2).state 1 = .kConnected ∧
            (table.accepted 2).state 0 = .kConnected)
      (by decide +kernel)
  have evicts : (table.accepted 2).Evicts 2 1 := ⟨full, backEq, connected⟩
  obtain ⟨returned, returns⟩ :=
    onConnection_returns (by decide : 1 ≤ 2) (table.accepted 2) 2
  exact ⟨table, returned, run, returns, evicts.state_eq returns,
    evicted_least_recent (by decide) run offered rfl returns connected
      (evicts.state_eq returns) (by decide) (by decide) otherConnected⟩

end ConnectionTable

end TcpMysql
