import PacketForge.ThreadPool.Pool

set_option autoImplicit false

/-! # The server on the thread pool (`Version_2/src/Server.cpp`, `processClient` and `main`)

The process of `main`, its pool and its clients. Every system call is a step, and so is every step
of the pool, so that the accept loop and the workers interleave in any order. `main` never leaves
its loop: the destructor of the pool does not run.

`accept` succeeds in every run here (`AcceptLoop` is about the failures). The sockets of the
process are a table from descriptors to connections: a descriptor that was closed can be given to
the next connection. A call goes to the connection that its descriptor stands for at this moment,
whatever the caller has in mind; the log keeps both.

## Conventions

* The tasks of the pool are clients: the closure that `main` enqueues has captured a descriptor
  and nothing else that matters. A worker whose task runs has a frame of `processClient` beside
  it, in the place of `frames` that belongs to the worker.
* Connections are numbered in the order of `accept`. The number is the model's, not the code's: it
  is how the results tell two clients apart that had the same descriptor one after the other.
* `serverStep` is the code, `ServerStep` says the same as a relation, and the two are equivalent
  (`serverStep_cases`, `ServerStep.eq_some`). Proofs about all steps go by cases on the relation;
  concrete runs are evaluated with the function.
-/

namespace PacketForge.ThreadPool

/-! ## States

The phases of `processClient` are the places between its system calls and the increment of the
counter. The request number is part of a phase because it is a local variable that the next
statement uses.
-/

/-- What the task `[&pool, clientSocket] { processClient(clientSocket, pool); }` captures. The
`connection` counts the connections in the order of `accept`; the code does not have it. -/
structure Client where
  clientSocket : Int
  connection : Nat
  deriving DecidableEq, Repr

/-- Where `main` is in its loop: at `accept`, at the call of `enqueue` for a client, in
`notify_one` after a push, or at one of the two calls for a client that was turned away. -/
inductive Main where
  | accepting
  | accepted (client : Client)
  | notifying
  | rejected (client : Client)
  | replied (client : Client)
  deriving DecidableEq, Repr

/-- Where `processClient` is in its loop. The number of the request is kept from the increment of
the counter to the `send`. -/
inductive Phase where
  | receiving
  | numbering
  | responding (requestId : Int32)
  | closing
  deriving DecidableEq, Repr

/-- A call of `processClient` on the stack of a worker: the client that it was called for, and
where it is. -/
structure Frame where
  client : Client
  phase : Phase
  deriving DecidableEq, Repr

inductive Thread where
  | main
  | worker (w : Nat)
  deriving DecidableEq, Repr

/-- The system calls on the sockets of clients, with what `recv` has returned and what `send` was
asked to send. -/
inductive Call where
  | recv (bytes : Int)
  | send (text : String)
  | close
  deriving DecidableEq, Repr

/-- What the log keeps: that a worker took a client from the queue, and the system calls. In `call
thread call client target`, the thread uses the descriptor of the client, and the call goes to the
connection `target`. -/
inductive Event where
  | took (w : Nat) (client : Client)
  | call (thread : Thread) (call : Call) (client : Client) (target : Option Nat)
  deriving DecidableEq, Repr

/-- The process. There is a place for a frame for each worker of the pool; `accepted` is the
number of connections so far. -/
structure Process where
  pool : Pool Client
  main : Main
  frames : List (Option Frame)
  requestCounter : Int32
  sockets : Int → Option Nat
  accepted : Nat
  log : List Event

/-- The process when `main` enters its loop. `main` asks for four workers. -/
def Process.new (threadCount : Nat) : Process where
  pool := .new threadCount 1
  main := .accepting
  frames := List.replicate threadCount none
  requestCounter := 0
  sockets := fun _ => none
  accepted := 0
  log := []

/-! ## Steps

What the kernel answers is part of the step: the descriptor that `accept` returns, and the number
of bytes that `recv` returns. The results of `send` and `close` are not looked at by the code.
-/

/-- A system call. -/
def Process.call (s : Process) (thread : Thread) (client : Client) (call : Call) : Process :=
  { s with
    sockets := match call with
      | .close => Function.update s.sockets client.clientSocket none
      | _ => s.sockets
    log := s.log ++ [.call thread call client (s.sockets client.clientSocket)] }

/-- What a client gets if the queue is full. -/
def busy : String := "Server busy. Try later"

/-- What a client gets for a request. -/
def response (requestId : Int32) : String :=
  "Request #" ++ toString requestId.toInt ++ " processed successfully"

inductive ServerAct where
  | accept (clientSocket : Int)
  | enqueue
  | notify (wakes : Option Nat)
  | reply
  | closeRejected
  | workerSection (w : Nat)
  | spurious (w : Nat)
  | recv (w : Nat) (bytes : Int)
  | getRequestNumber (w : Nat)
  | respond (w : Nat)
  | closeServed (w : Nat)
  | finish (w : Nat)

/-- One step of `main`, of a worker in the pool's code, or of a worker in `processClient`. -/
def serverStep (s : Process) : ServerAct → Option Process
  | .accept clientSocket =>
    match s.main with
    | .accepting =>
      if 0 ≤ clientSocket ∧ s.sockets clientSocket = none then
        some { s with
          main := .accepted ⟨clientSocket, s.accepted⟩
          sockets := Function.update s.sockets clientSocket (some s.accepted)
          accepted := s.accepted + 1 }
      else none
    | _ => none
  | .enqueue =>
    match s.main with
    | .accepted client =>
      (step s.pool (.enqueue 0 client)).map fun pool =>
        { s with
          pool := pool
          main := if (enqueueSection s.pool.tasks client).1 then .notifying else .rejected client }
    | _ => none
  | .notify wakes =>
    match s.main with
    | .notifying =>
      (step s.pool (.notify 0 wakes)).map fun pool => { s with pool := pool, main := .accepting }
    | _ => none
  | .reply =>
    match s.main with
    | .rejected client => some { s.call .main client (.send busy) with main := .replied client }
    | _ => none
  | .closeRejected =>
    match s.main with
    | .replied client => some { s.call .main client .close with main := .accepting }
    | _ => none
  | .workerSection w =>
    -- a worker that takes a task calls `processClient`
    (step s.pool (.workerSection w)).map fun (pool : Pool Client) =>
      match pool.workers[w]? with
      | some (.running client _) =>
        { s with
          pool := pool
          frames := s.frames.set w (some ⟨client, .receiving⟩)
          log := s.log ++ [.took w client] }
      | _ => { s with pool := pool }
  | .spurious w => (step s.pool (.spurious w)).map fun pool => { s with pool := pool }
  | .recv w bytes =>
    match s.frames[w]? with
    | some (some ⟨client, .receiving⟩) =>
      some { s.call (.worker w) client (.recv bytes) with
        frames := s.frames.set w
          (some ⟨client, if bytes ≤ 0 then .closing else .numbering⟩) }
    | _ => none
  | .getRequestNumber w =>
    match s.frames[w]? with
    | some (some ⟨client, .numbering⟩) =>
      some { s with
        requestCounter := s.requestCounter + 1
        frames := s.frames.set w (some ⟨client, .responding (s.requestCounter + 1)⟩) }
    | _ => none
  | .respond w =>
    match s.frames[w]? with
    | some (some ⟨client, .responding requestId⟩) =>
      some { s.call (.worker w) client (.send (response requestId)) with
        frames := s.frames.set w (some ⟨client, .receiving⟩) }
    | _ => none
  | .closeServed w =>
    match s.frames[w]? with
    | some (some ⟨client, .closing⟩) =>
      some { s.call (.worker w) client .close with frames := s.frames.set w none }
    | _ => none
  | .finish w =>
    -- `task()` returns after `processClient` has
    match s.frames[w]? with
    | some none => (step s.pool (.finish w)).map fun pool => { s with pool := pool }
    | _ => none

/-- The runs of the server. -/
def serverMachine (threadCount : Nat) : Machine Process ServerAct :=
  .ofStep (fun s => s = .new threadCount) serverStep

/-! ## What a step does

One constructor for each branch of `serverStep`. What the socket calls do to the table of
descriptors is said once for all of them (`ServerStep.sockets`).
-/

/-- The steps, each with what it finds and what it leaves. Where the pool takes part, its own step
is among the hypotheses. -/
inductive ServerStep (s : Process) : ServerAct → Process → Prop
  | accept {d : Int} : s.main = .accepting → 0 ≤ d → s.sockets d = none →
      ServerStep s (.accept d) { s with
        main := .accepted ⟨d, s.accepted⟩
        sockets := Function.update s.sockets d (some s.accepted)
        accepted := s.accepted + 1 }
  | enqueue {k : Client} {pool : Pool Client} : s.main = .accepted k →
      step s.pool (.enqueue 0 k) = some pool →
      ServerStep s .enqueue { s with
        pool := pool
        main := if (enqueueSection s.pool.tasks k).1 then .notifying else .rejected k }
  | notify {wakes : Option Nat} {pool : Pool Client} : s.main = .notifying →
      step s.pool (.notify 0 wakes) = some pool →
      ServerStep s (.notify wakes) { s with pool := pool, main := .accepting }
  | reply {k : Client} : s.main = .rejected k →
      ServerStep s .reply { s.call .main k (.send busy) with main := .replied k }
  | closeRejected {k : Client} : s.main = .replied k →
      ServerStep s .closeRejected { s.call .main k .close with main := .accepting }
  | takes {w : Nat} {k : Client} {b : Bool} {pool : Pool Client} :
      step s.pool (.workerSection w) = some pool → pool.workers[w]? = some (.running k b) →
      ServerStep s (.workerSection w) { s with
        pool := pool
        frames := s.frames.set w (some ⟨k, .receiving⟩)
        log := s.log ++ [.took w k] }
  | takesNothing {w : Nat} {pool : Pool Client} : step s.pool (.workerSection w) = some pool →
      (∀ k b, pool.workers[w]? ≠ some (.running k b)) →
      ServerStep s (.workerSection w) { s with pool := pool }
  | spurious {w : Nat} {pool : Pool Client} : step s.pool (.spurious w) = some pool →
      ServerStep s (.spurious w) { s with pool := pool }
  | recv {w : Nat} {bytes : Int} {k : Client} : s.frames[w]? = some (some ⟨k, .receiving⟩) →
      ServerStep s (.recv w bytes) { s.call (.worker w) k (.recv bytes) with
        frames := s.frames.set w (some ⟨k, if bytes ≤ 0 then .closing else .numbering⟩) }
  | getRequestNumber {w : Nat} {k : Client} : s.frames[w]? = some (some ⟨k, .numbering⟩) →
      ServerStep s (.getRequestNumber w) { s with
        requestCounter := s.requestCounter + 1
        frames := s.frames.set w (some ⟨k, .responding (s.requestCounter + 1)⟩) }
  | respond {w : Nat} {k : Client} {requestId : Int32} :
      s.frames[w]? = some (some ⟨k, .responding requestId⟩) →
      ServerStep s (.respond w) { s.call (.worker w) k (.send (response requestId)) with
        frames := s.frames.set w (some ⟨k, .receiving⟩) }
  | closeServed {w : Nat} {k : Client} : s.frames[w]? = some (some ⟨k, .closing⟩) →
      ServerStep s (.closeServed w) { s.call (.worker w) k .close with
        frames := s.frames.set w none }
  | finish {w : Nat} {pool : Pool Client} : s.frames[w]? = some none →
      step s.pool (.finish w) = some pool → ServerStep s (.finish w) { s with pool := pool }

section

variable {s s' : Process} {a : ServerAct}

theorem serverStep_cases (h : serverStep s a = some s') : ServerStep s a s' := by
  cases a with
  | accept d =>
      simp only [serverStep] at h
      split at h
      · next hmain =>
          split_ifs at h with hd
          obtain rfl := Option.some.inj h
          exact .accept hmain hd.1 hd.2
      · cases h
  | enqueue =>
      simp only [serverStep] at h
      split at h
      · next k hmain =>
          obtain ⟨pool, hpool, rfl⟩ := Option.map_eq_some_iff.mp h
          exact .enqueue hmain hpool
      · cases h
  | notify wakes =>
      simp only [serverStep] at h
      split at h
      · next hmain =>
          obtain ⟨pool, hpool, rfl⟩ := Option.map_eq_some_iff.mp h
          exact .notify hmain hpool
      · cases h
  | reply =>
      simp only [serverStep] at h
      split at h
      · next k hmain =>
          obtain rfl := Option.some.inj h
          exact .reply hmain
      · cases h
  | closeRejected =>
      simp only [serverStep] at h
      split at h
      · next k hmain =>
          obtain rfl := Option.some.inj h
          exact .closeRejected hmain
      · cases h
  | workerSection w =>
      simp only [serverStep] at h
      obtain ⟨pool, hpool, hs'⟩ := Option.map_eq_some_iff.mp h
      split at hs'
      · next k b hget =>
          subst hs'
          exact .takes hpool hget
      · next hnone =>
          subst hs'
          exact .takesNothing hpool hnone
  | spurious w =>
      obtain ⟨pool, hpool, rfl⟩ := Option.map_eq_some_iff.mp h
      exact .spurious hpool
  | recv w bytes =>
      simp only [serverStep] at h
      split at h
      · next k hget =>
          obtain rfl := Option.some.inj h
          exact .recv hget
      · cases h
  | getRequestNumber w =>
      simp only [serverStep] at h
      split at h
      · next k hget =>
          obtain rfl := Option.some.inj h
          exact .getRequestNumber hget
      · cases h
  | respond w =>
      simp only [serverStep] at h
      split at h
      · next k requestId hget =>
          obtain rfl := Option.some.inj h
          exact .respond hget
      · cases h
  | closeServed w =>
      simp only [serverStep] at h
      split at h
      · next k hget =>
          obtain rfl := Option.some.inj h
          exact .closeServed hget
      · cases h
  | finish w =>
      simp only [serverStep] at h
      split at h
      · next hget =>
          obtain ⟨pool, hpool, rfl⟩ := Option.map_eq_some_iff.mp h
          exact .finish hget hpool
      · cases h

theorem ServerStep.eq_some (h : ServerStep s a s') : serverStep s a = some s' := by
  cases h with
  | accept hmain hd hfree => rw [serverStep, hmain, if_pos ⟨hd, hfree⟩]
  | enqueue hmain hpool => simp only [serverStep, hmain, hpool, Option.map_some]
  | notify hmain hpool => simp only [serverStep, hmain, hpool, Option.map_some]
  | reply hmain => simp only [serverStep, hmain]
  | closeRejected hmain => simp only [serverStep, hmain]
  | takes hpool hget => simp only [serverStep, hpool, Option.map_some, hget]
  | takesNothing hpool hnone => simp only [serverStep, hpool, Option.map_some]
  | spurious hpool => simp only [serverStep, hpool, Option.map_some]
  | recv hget => simp only [serverStep, hget]
  | getRequestNumber hget => simp only [serverStep, hget]
  | respond hget => simp only [serverStep, hget]
  | closeServed hget => simp only [serverStep, hget]
  | finish hget hpool => simp only [serverStep, hget, hpool, Option.map_some]

/-- The pool goes on by one of its own steps, or stays. -/
theorem ServerStep.pool (h : ServerStep s a s') :
    s'.pool = s.pool ∨ ∃ act, step s.pool act = some s'.pool := by
  cases h with
  | enqueue _ hpool => exact .inr ⟨_, hpool⟩
  | notify _ hpool => exact .inr ⟨_, hpool⟩
  | takes hpool _ => exact .inr ⟨_, hpool⟩
  | takesNothing hpool _ => exact .inr ⟨_, hpool⟩
  | spurious hpool => exact .inr ⟨_, hpool⟩
  | finish _ hpool => exact .inr ⟨_, hpool⟩
  | _ => exact .inl rfl

/-- What happens to the sockets: `accept` adds one, `close` removes one. -/
theorem ServerStep.sockets (h : ServerStep s a s') : s'.sockets = s.sockets ∨
    (∃ d, 0 ≤ d ∧ s'.sockets = Function.update s.sockets d (some s.accepted)) ∨
    ∃ d, s'.sockets = Function.update s.sockets d none := by
  cases h with
  | accept _ hd _ => exact .inr (.inl ⟨_, hd, rfl⟩)
  | closeRejected _ => exact .inr (.inr ⟨_, rfl⟩)
  | closeServed _ => exact .inr (.inr ⟨_, rfl⟩)
  | _ => exact .inl rfl

end

end PacketForge.ThreadPool
