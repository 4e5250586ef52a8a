import Mathlib.Data.List.Basic

/-!
# Servers that answer from memory

A server in front of a stateful backend answers some requests by executing them
and others from memory, with the reply of the latest execution of the same
request.  Which ones, is decided elsewhere: each request comes with a flag.  This
file compares such a server with one that executes everything.
-/

/-- A request of a client, and whether it is answered from memory. -/
structure MemoRequest (Client Key : Type*) where
  client : Client
  key : Key
  found : Bool

/-- The replies sent so far, the backend, and its executions, newest first. -/
structure MemoServer (Client Key Reply Backend : Type*) where
  replies : List (Client × Reply)
  backend : Backend
  executed : List (Key × Reply)

namespace MemoServer

variable {Client Key Reply Backend : Type*} [BEq Key]

/-- Answer one request.  There is no answer from memory to a request that was
never executed. -/
def serve (process : Backend → Key → Reply × Backend)
    (server : MemoServer Client Key Reply Backend)
    (request : MemoRequest Client Key) :
    Option (MemoServer Client Key Reply Backend) :=
  if request.found then
    (server.executed.lookup request.key).map fun reply =>
      { server with replies := server.replies ++ [(request.client, reply)] }
  else
    let result := process server.backend request.key
    some
      { replies := server.replies ++ [(request.client, result.1)]
        backend := result.2
        executed := (request.key, result.1) :: server.executed }

/-- Answer the requests in order. -/
def serveAll (process : Backend → Key → Reply × Backend)
    (server : MemoServer Client Key Reply Backend)
    (requests : List (MemoRequest Client Key)) :
    Option (MemoServer Client Key Reply Backend) :=
  requests.foldlM (serve process) server

/-- Execute every request: the replies and the final backend. -/
def executeAll (process : Backend → Key → Reply × Backend) (backend : Backend) :
    List (Client × Key) → List (Client × Reply) × Backend
  | [] => ([], backend)
  | (client, key) :: rest =>
      let result := process backend key
      let later := executeAll process result.2 rest
      ((client, result.1) :: later.1, later.2)

/-- Wherever a request is answered from memory, its execution would give the same
reply and leave the backend as it is. -/
def Transparent (process : Backend → Key → Reply × Backend) :
    MemoServer Client Key Reply Backend → List (MemoRequest Client Key) → Prop
  | _, [] => True
  | server, request :: rest =>
      (request.found = true → ∀ reply,
        server.executed.lookup request.key = some reply →
          process server.backend request.key = (reply, server.backend)) ∧
        ∀ after, serve process server request = some after →
          Transparent process after rest

variable {process : Backend → Key → Reply × Backend}
  {server final : MemoServer Client Key Reply Backend}
  {requests : List (MemoRequest Client Key)}

theorem serveAll_append_singleton
    (served : serveAll process server requests = some final)
    (request : MemoRequest Client Key) :
    serveAll process server (requests ++ [request]) = serve process final request := by
  unfold serveAll at served ⊢
  rw [List.foldlM_append, served]
  simp

/-- Answering a transparent request is executing it. -/
theorem serve_eq_process {request : MemoRequest Client Key}
    {after : MemoServer Client Key Reply Backend}
    (served : serve process server request = some after)
    (transparent : request.found = true → ∀ reply,
      server.executed.lookup request.key = some reply →
        process server.backend request.key = (reply, server.backend)) :
    after.replies =
        server.replies ++ [(request.client, (process server.backend request.key).1)] ∧
      after.backend = (process server.backend request.key).2 := by
  unfold serve at served
  split at served
  · rename_i found
    obtain ⟨reply, known, rfl⟩ := Option.map_eq_some_iff.mp served
    simp [transparent found reply known]
  · obtain rfl := Option.some.inj served
    exact ⟨rfl, rfl⟩

/-- When every answer from memory is transparent, the server cannot be told from
one that executes every request. -/
theorem serveAll_eq_executeAll
    (served : serveAll process server requests = some final)
    (transparent : Transparent process server requests) :
    final.replies =
        server.replies ++
          (executeAll process server.backend
            (requests.map fun request => (request.client, request.key))).1 ∧
      final.backend =
        (executeAll process server.backend
          (requests.map fun request => (request.client, request.key))).2 := by
  induction requests generalizing server with
  | nil =>
      obtain rfl := Option.some.inj served
      simp [executeAll]
  | cons request rest ih =>
      obtain ⟨after, first, later⟩ := Option.bind_eq_some_iff.mp served
      obtain ⟨repliesEq, backendEq⟩ := serve_eq_process first transparent.1
      obtain ⟨finalReplies, finalBackend⟩ := ih later (transparent.2 after first)
      rw [backendEq] at finalReplies finalBackend
      rw [repliesEq] at finalReplies
      exact ⟨by simpa [executeAll] using finalReplies,
        by simpa [executeAll] using finalBackend⟩

end MemoServer
