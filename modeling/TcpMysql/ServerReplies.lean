import TcpMysql.MysqlReplyStream
import TcpMysql.SqlCacheMemo
import TcpMysql.ServerRuns

/-!
# The replies the server sends

The cache asks its database through a function.  Here this function is
`MysqlServer::process` over a client library whose outcomes are plain.  Line 74 is
read as in `ServerMemo`: it makes a statement, and the pairs are kept.  Whatever
the cache returns, from memory or not, is then the text of a plain outcome, so
the replies handed to one connection can be told apart on the stream.
-/

namespace TcpMysql

open MysqlServer

variable {Wheel : Type → Type} [CircularBuffer Wheel] {Db : Type}

/-- A client library over a database.  A statement takes the database to a new
state and fixes what the calls on the connection answer, and all outcomes are
plain. -/
structure PlainClient (Db : Type) where
  answers : Db → Bytes → ClientAnswers × Db
  plain : ∀ db sql, PlainOutcome (answers db sql).1.outcome

/-- `MysqlServer::process` over the client library.  It returns whenever the outcome is
plain. -/
def PlainClient.process (client : PlainClient Db) : Process Db :=
  fun db sql =>
    let (answers, after) := client.answers db sql
    match (MysqlServer.process answers).run ⟨[], 0⟩ with
    | .ok reply _ => (reply, after)
    | .error _ _ => ([], after)

theorem PlainClient.process_fst (client : PlainClient Db) (db : Db) (sql : Bytes) :
    (client.process db sql).1 = outcomeText (cutOutcome (client.answers db sql).1.outcome) := by
  obtain ⟨final, ran⟩ := run_process_plain (client.plain db sql) ⟨[], 0⟩
  simp only [PlainClient.process, ran]

/-- The text of a plain outcome. -/
def IsReply (reply : Bytes) : Prop :=
  ∃ outcome, PlainOutcome outcome ∧ outcomeText outcome = reply

theorem PlainClient.isReply (client : PlainClient Db) (db : Db) (sql : Bytes) :
    IsReply (client.process db sql).1 :=
  ⟨_, (client.plain db sql).cut, (client.process_fst db sql).symm⟩

/-- A stream of replies can be split in one way only. -/
theorem replies_eq_of_flatten_eq {first second : List Bytes}
    (inFirst : ∀ reply ∈ first, IsReply reply)
    (inSecond : ∀ reply ∈ second, IsReply reply)
    (equal : first.flatten = second.flatten) : first = second := by
  have code : SelfDelimiting (fun reply : Bytes => reply) IsReply := by
    rintro _ _ rest rest' ⟨outcome, plain, rfl⟩ ⟨outcome', plain', rfl⟩ streams
    obtain ⟨rfl, restEq⟩ :=
      outcomeText_selfDelimiting outcome outcome' rest rest' plain plain' streams
    exact ⟨rfl, restEq⟩
  apply code.eq_of_flatMap_eq _ inFirst inSecond
  · simpa [List.flatMap_def] using equal
  · rintro _ ⟨outcome, -, rfl⟩
    exact outcomeText_ne_nil outcome

namespace SqlCache

open CircularBuffer

/-- Everything the database replied is the text of a plain outcome. -/
def MissesReply (cache : SqlCache Wheel Db) : Prop :=
  ∀ entry ∈ cache.misses, IsReply entry.2

omit [CircularBuffer Wheel] in
theorem MissesReply.mostRecentMiss {cache : SqlCache Wheel Db} (replies : cache.MissesReply)
    {msg reply : Bytes} (latest : cache.mostRecentMiss msg = some reply) :
    IsReply reply := by
  obtain ⟨before, after, missesEq, -⟩ := List.lookup_eq_some_iff.mp latest
  apply replies (msg, reply)
  rw [missesEq]
  simp

theorem step_missesReply {idleSeconds : Nat} {cache after : SqlCache Wheel Db}
    (client : PlainClient Db) {event : CacheEvent}
    (good : cache.Good idleSeconds) (replies : cache.MissesReply)
    (stepTo : (system (.freshStmt true) client.process).next cache event =
      some after) : after.MissesReply := by
  cases event with
  | message msg =>
      cases found : cache.sqlchecklist_.lookup msg with
      | some weak =>
          obtain ⟨_, list, rfl, -⟩ := good.after_hit found stepTo
          exact replies
      | none =>
          obtain ⟨list, rfl, -⟩ := good.after_miss found stepTo
          intro entry member
          rcases List.mem_cons.mp member with rfl | earlier
          · exact client.isReply _ _
          · exact replies entry earlier
  | timer =>
      obtain ⟨_, _, index, list, rfl, -⟩ := good.after_timer stepTo
      exact replies

theorem missesReply_of_reaches {idleSeconds : Nat} (positive : 1 ≤ idleSeconds)
    (client : PlainClient Db) {db : Db} {events : List CacheEvent}
    {cache : SqlCache Wheel Db}
    (run : (system (.freshStmt true) client.process).Reaches
      (new Wheel idleSeconds db) events cache) : cache.MissesReply := by
  apply run.invariant fun _ cache => cache.MissesReply
  · intro entry member
    simp [new] at member
  · intro _ before event after reached replies _ stepTo
    have remembers := remembers_of_reaches positive reached
    exact step_missesReply client remembers.toGood replies stepTo

/-- Every message is answered with the text of a plain outcome, from the cache or
not. -/
theorem answer_isReply {idleSeconds : Nat} (positive : 1 ≤ idleSeconds)
    (client : PlainClient Db) {db : Db} {events : List CacheEvent}
    {cache : SqlCache Wheel Db}
    (run : (system (.freshStmt true) client.process).Reaches
      (new Wheel idleSeconds db) events cache) (msg : Bytes) :
    ∃ reply after,
      (answer (.freshStmt true) client.process msg).run cache = .ok reply after ∧
        IsReply reply := by
  have remembers := remembers_of_reaches positive run
  have replies := missesReply_of_reaches positive client run
  cases found : cache.sqlchecklist_.lookup msg with
  | some weak =>
      obtain ⟨reply, list, ran, -, -, latest⟩ :=
        remembers.answer_hit (.freshStmt true) client.process found
      exact ⟨reply, _, ran, replies.mostRecentMiss latest⟩
  | none =>
      obtain ⟨list, ran, -⟩ := remembers.answer_miss client.process found
      exact ⟨_, _, ran, client.isReply _ _⟩

end SqlCache

namespace TcpMysqlServer

/-- The replies handed to one connection, in order. -/
def repliesTo (server : TcpMysqlServer Wheel Db) (conn : ConnId) : List Bytes :=
  (server.sends.filter (·.1 = conn)).map Prod.snd

theorem sends_areReplies {SIZECONN idleSeconds : Nat} (positive : 1 ≤ idleSeconds)
    (client : PlainClient Db) {db : Db} {events : List ServerEvent}
    {server : TcpMysqlServer Wheel Db}
    (run : (system SIZECONN (.freshStmt true) client.process).Reaches
      (new Wheel idleSeconds db) events server) :
    ∀ sent ∈ server.sends, IsReply sent.2 := by
  apply run.invariant fun _ server => ∀ sent ∈ server.sends, IsReply sent.2
  · intro sent member
    simp [new] at member
  · intro _ before event after reached replies _ stepTo
    obtain ⟨value, ran⟩ := okState_eq_some.mp stepTo
    rcases step_sends ran with same | ⟨conn, msg, echo, cache, answered, sendsEq⟩
    · rw [same]
      exact replies
    · obtain ⟨cacheEvents, cacheRun⟩ := cache_reaches reached
      obtain ⟨reply, _, answered', isReply⟩ :=
        SqlCache.answer_isReply positive client cacheRun msg
      obtain ⟨rfl, -⟩ := EStateM.Result.ok.inj (answered.symm.trans answered')
      rw [sendsEq]
      intro sent member
      rcases List.mem_append.mp member with earlier | last
      · exact replies sent earlier
      · rw [List.mem_singleton.mp last]
        exact isReply

/-- Connections that were handed the same bytes were handed the same replies. -/
theorem repliesTo_eq_of_stream_eq {SIZECONN idleSeconds : Nat}
    (positive : 1 ≤ idleSeconds) (client : PlainClient Db) {db db' : Db}
    {events events' : List ServerEvent} {server server' : TcpMysqlServer Wheel Db}
    (run : (system SIZECONN (.freshStmt true) client.process).Reaches
      (new Wheel idleSeconds db) events server)
    (run' : (system SIZECONN (.freshStmt true) client.process).Reaches
      (new Wheel idleSeconds db') events' server')
    {conn conn' : ConnId}
    (streams : (server.repliesTo conn).flatten = (server'.repliesTo conn').flatten) :
    server.repliesTo conn = server'.repliesTo conn' := by
  apply replies_eq_of_flatten_eq _ _ streams
  · intro reply member
    obtain ⟨sent, kept, rfl⟩ := List.mem_map.mp member
    exact sends_areReplies positive client run sent (List.mem_filter.mp kept).1
  · intro reply member
    obtain ⟨sent, kept, rfl⟩ := List.mem_map.mp member
    exact sends_areReplies positive client run' sent (List.mem_filter.mp kept).1

/-- A client library for which every other statement is a mistake. -/
def everyOther : PlainClient Bool where
  answers db _ :=
    (if db then mistakeAnswers else tableAnswers (oneCell (some [97])), !db)
  plain db _ := by
    cases db
    · exact oneCell_plain [97] (by decide) (by decide) _ List.mem_cons_self
    · exact List.not_mem_nil

/-- One client sends two statements, and another one the same statements in one second and
the next, with a client in between that asks for what is in the cache. -/
theorem repliesTo_eq_of_stream_eq_two_clients :
    ∃ server server' : TcpMysqlServer BoundedList Bool,
      (system 1000 (.freshStmt true) everyOther.process).Reaches (new BoundedList 5 false)
          [.up 0, .read 0 [97] (.room 64), .read 0 [98] (.room 64)] server ∧
        (system 1000 (.freshStmt true) everyOther.process).Reaches (new BoundedList 5 false)
          [.up 0, .up 1, .read 1 [97] (.room 64), .timer, .read 0 [97] (.room 64),
            .read 1 [98] (.room 64)] server' ∧
          server.repliesTo 0 = server'.repliesTo 1 := by
  have play : ∃ server : TcpMysqlServer BoundedList Bool,
      (system 1000 (.freshStmt true) everyOther.process).Reaches (new BoundedList 5 false)
        [.up 0, .read 0 [97] (.room 64), .read 0 [98] (.room 64)] server ∧
        (server.repliesTo 0).flatten =
          outcomeText (.rows 1 [[some [97]]]) ++ outcomeText (.error 1064 []) :=
    EventSystem.exists_reaches_of_play _ _ _ _ (by decide +kernel)
  have play' : ∃ server : TcpMysqlServer BoundedList Bool,
      (system 1000 (.freshStmt true) everyOther.process).Reaches (new BoundedList 5 false)
        [.up 0, .up 1, .read 1 [97] (.room 64), .timer, .read 0 [97] (.room 64),
          .read 1 [98] (.room 64)] server ∧
        (server.repliesTo 1).flatten =
          outcomeText (.rows 1 [[some [97]]]) ++ outcomeText (.error 1064 []) :=
    EventSystem.exists_reaches_of_play _ _ _ _ (by decide +kernel)
  obtain ⟨server, run, streamEq⟩ := play
  obtain ⟨server', run', streamEq'⟩ := play'
  exact ⟨server, server', run, run', repliesTo_eq_of_stream_eq (by decide) everyOther run run'
    (streamEq.trans streamEq'.symm)⟩

end TcpMysqlServer

end TcpMysql
