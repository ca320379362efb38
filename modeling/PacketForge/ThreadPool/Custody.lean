import PacketForge.ThreadPool.Server

set_option autoImplicit false

/-! # Every accepted client is disposed of exactly once

A connection is in the hands of `main`, in a queued task, served by a worker, or closed. `Custody`
counts these for each connection, and the count is one. So whoever holds a client is the only one
who does, and the descriptor still stands for its connection (`Custody.held`): nobody can have
closed it.

## How the proof goes

* `Moves` forgets what the clients do not see: the sleeping and waking of workers, and where a
  worker stands in the list. `moves_of_step` is the only place where the steps of the pool and
  those of the server are looked at; it needs the frames and the running tasks to agree
  (`Linked`).
* `Counts` are the books of one connection, five equations between numbers: what `main` holds or
  `enqueue` has answered; what was refused and is closed by `main`; what was accepted and is
  queued, served or closed by a worker; and what the workers have taken. A move is a transfer from
  one term to another of the same equation, so `Counts.moves` is a case analysis with an addition
  in each case.
* The books can only be kept if a call on the descriptor of a client goes to its connection
  (`Custody.held`). An open descriptor stands for one connection, and by `Counts.total` what is
  held was not closed, so that nobody else has got the descriptor meanwhile.
* `Custody.moves` combines the two: the books of all connections, the descriptors of what is held,
  and the log, in which no call comes after the `close` of its connection.

The books are kept by connection and not by descriptor because a descriptor comes back: the number
5 may be closed many times, each time for another client.
-/

namespace PacketForge.ThreadPool

/-! ## What the server sees of the pool

`Undisturbed` is the frame condition of the pool: a step of one thread leaves the tasks of the
other workers, the queue and the results alone. One lemma for each kind of step that the server
takes.
-/

section

variable {τ : Type}

/-- The frame condition of a step of the pool: nothing happens to the queue, to the results and to
the running tasks of the workers that meet `p`. -/
structure Undisturbed (p : Nat → Prop) (s s' : Pool τ) : Prop where
  tasks : s'.tasks = s.tasks
  results : s'.results = s.results
  workers : s'.workers.length = s.workers.length
  running : ∀ v t b, p v → s.workers[v]? = some (.running t b) →
    s'.workers[v]? = some (.running t b)

variable {p : Nat → Prop} {s s' : Pool τ} {w : Nat} {task : τ}

theorem running_set {ws : List (Worker τ)} {v : Nat} (hne : v ≠ w) (new : Worker τ) {t : τ}
    {b : Bool} (hget : ws[v]? = some (.running t b)) :
    (ws.set w new)[v]? = some (.running t b) := by
  rw [List.getElem?_set_ne hne.symm, hget]

theorem ne_of_idle {ws : List (Worker τ)} {v : Nat} {old : Worker τ} (hold : ws[w]? = some old)
    (hidle : old.task? = none) {t : τ} {b : Bool} (hget : ws[v]? = some (.running t b)) :
    v ≠ w := by
  rintro rfl
  obtain rfl := Option.some.inj (hold.symm.trans hget)
  cases hidle

/-- A worker that runs no task changes. -/
theorem undisturbed_set {old new : Worker τ} (hold : s.workers[w]? = some old)
    (hidle : old.task? = none) :
    Undisturbed (fun _ => True) s { s with workers := s.workers.set w new } where
  tasks := rfl
  results := rfl
  workers := List.length_set
  running _ _ _ _ hget := running_set (ne_of_idle hold hidle hget) new hget

theorem undisturbed_notifyOne {wakes : Option Nat} (h : s.notifyOne wakes = some s') :
    Undisturbed (fun _ => True) s s' := by
  cases wakes with
  | some v =>
      simp only [Pool.notifyOne] at h
      split at h
      · next hget =>
          obtain rfl := Option.some.inj h
          exact undisturbed_set hget rfl
      · cases h
  | none =>
      simp only [Pool.notifyOne] at h
      split_ifs at h
      obtain rfl := Option.some.inj h
      exact ⟨rfl, rfl, rfl, fun _ _ _ _ hget => hget⟩

theorem step_notify {i : Nat} {wakes : Option Nat} (h : step s (.notify i wakes) = some s') :
    Undisturbed (fun _ => True) s s' := by
  simp only [step] at h
  split at h
  · have hone := undisturbed_notifyOne h
    exact ⟨hone.tasks, hone.results, hone.workers, hone.running⟩
  · cases h

theorem step_spurious (h : step s (.spurious w) = some s') :
    Undisturbed (fun _ => True) s s' := by
  simp only [step] at h
  split at h
  · next hget =>
      obtain rfl := Option.some.inj h
      exact undisturbed_set hget rfl
  · cases h

theorem step_finish (h : step s (.finish w) = some s') : Undisturbed (· ≠ w) s s' := by
  simp only [step] at h
  split at h
  · obtain rfl := Option.some.inj h
    exact ⟨rfl, rfl, List.length_set, fun v t b hne hget => running_set hne _ hget⟩
  · cases h

theorem step_enqueue {i : Nat} (h : step s (.enqueue i task) = some s') :
    s'.tasks = (enqueueSection s.tasks task).2 ∧
      s'.results = s.results ++ [(task, (enqueueSection s.tasks task).1)] ∧
      s'.workers = s.workers := by
  simp only [step] at h
  split at h
  · obtain rfl := Option.some.inj h
    exact ⟨rfl, rfl, rfl⟩
  · cases h

/-- A worker takes no task, or the first one of the queue. -/
theorem step_workerSection_cases (h : step s (.workerSection w) = some s') :
    (Undisturbed (fun _ => True) s s' ∧ ∀ t b, s'.workers[w]? ≠ some (.running t b)) ∨
    ∃ t, s.workers[w]? = some .awake ∧ s.tasks = t :: s'.tasks ∧ s'.results = s.results ∧
      s'.workers = s.workers.set w (.running t false) := by
  simp only [step] at h
  split at h
  · next hget =>
      have hlt : w < s.workers.length := (List.getElem?_eq_some_iff.mp hget).1
      obtain rfl := Option.some.inj h
      unfold Pool.workerSection
      split_ifs with hproceed
      · refine .inl ⟨undisturbed_set hget rfl, fun t b => ?_⟩
        simp [hlt]
      · split
        · refine .inl ⟨undisturbed_set hget rfl, fun t b => ?_⟩
          simp [hlt]
        · next t rest htasks => exact .inr ⟨t, hget, htasks, rfl, rfl⟩
  · cases h

end

/-! ## Moves

A step of the server, as far as the clients are concerned.
-/

/-- The frames belong to the tasks that run: there is a place for each worker, and a worker with a
frame runs the task of the client of the frame, and owes no notification. -/
structure Linked (s : Process) : Prop where
  length : s.frames.length = s.pool.workers.length
  running : ∀ (w : Nat) (f : Frame), s.frames[w]? = some (some f) →
    s.pool.workers[w]? = some (.running f.client false)

/-- The client in the hands of `main`. -/
def Main.client? : Main → Option Client
  | .accepted client => some client
  | .rejected client => some client
  | .replied client => some client
  | _ => none

/-- What a step does with the clients and with what is written in the books about them. -/
inductive Moves (s : Process) : Process → Prop
  | accept {d : Int} : s.main = .accepting → s.sockets d = none →
      Moves s { s with
        main := .accepted ⟨d, s.accepted⟩
        sockets := Function.update s.sockets d (some s.accepted)
        accepted := s.accepted + 1 }
  | enqueued {k : Client} {pool : Pool Client} : s.main = .accepted k →
      pool.tasks = s.pool.tasks ++ [k] → pool.results = s.pool.results ++ [(k, true)] →
      Moves s { s with pool := pool, main := .notifying }
  | refuse {k : Client} {pool : Pool Client} : s.main = .accepted k →
      pool.tasks = s.pool.tasks → pool.results = s.pool.results ++ [(k, false)] →
      Moves s { s with pool := pool, main := .rejected k }
  | pool {pool : Pool Client} : pool.tasks = s.pool.tasks → pool.results = s.pool.results →
      Moves s { s with pool := pool }
  | notified {pool : Pool Client} : s.main = .notifying → pool.tasks = s.pool.tasks →
      pool.results = s.pool.results → Moves s { s with pool := pool, main := .accepting }
  | reply {k : Client} : s.main = .rejected k →
      Moves s { s.call .main k (.send busy) with main := .replied k }
  | closeRejected {k : Client} : s.main = .replied k →
      Moves s { s.call .main k .close with main := .accepting }
  | take {w : Nat} {k : Client} {pool : Pool Client} : s.pool.tasks = k :: pool.tasks →
      pool.results = s.pool.results → s.frames[w]? = some none →
      Moves s { s with
        pool := pool
        frames := s.frames.set w (some ⟨k, .receiving⟩)
        log := s.log ++ [.took w k] }
  | number {w : Nat} {k : Client} {phase phase' : Phase} {requestCounter : Int32} :
      s.frames[w]? = some (some ⟨k, phase⟩) →
      Moves s { s with
        requestCounter := requestCounter, frames := s.frames.set w (some ⟨k, phase'⟩) }
  | serve {w : Nat} {k : Client} {phase phase' : Phase} {call : Call} :
      s.frames[w]? = some (some ⟨k, phase⟩) → call ≠ .close →
      Moves s { s.call (.worker w) k call with frames := s.frames.set w (some ⟨k, phase'⟩) }
  | closeServed {w : Nat} {k : Client} {phase : Phase} : s.frames[w]? = some (some ⟨k, phase⟩) →
      Moves s { s.call (.worker w) k .close with frames := s.frames.set w none }

section

variable {s s' : Process} {w : Nat}

theorem Linked.pool (h : Linked s) {pool : Pool Client} {p : Nat → Prop}
    (hpool : Undisturbed p s.pool pool) (hp : ∀ w f, s.frames[w]? = some (some f) → p w)
    (hframes : s'.frames = s.frames) (hs' : s'.pool = pool) : Linked s' := by
  constructor
  · rw [hframes, hs', hpool.workers, h.length]
  · intro w f hget
    rw [hframes] at hget
    rw [hs']
    exact hpool.running w _ _ (hp w f hget) (h.running w f hget)

theorem Linked.set (h : Linked s) {w : Nat} {new : Option Frame}
    (hnew : ∀ f, new = some f → s.pool.workers[w]? = some (.running f.client false))
    (hframes : s'.frames = s.frames.set w new) (hpool : s'.pool = s.pool) : Linked s' := by
  constructor
  · rw [hframes, hpool, List.length_set, h.length]
  · intro v f hget
    rw [hpool]
    rw [hframes] at hget
    rcases eq_or_ne v w with rfl | hv
    · rw [List.getElem?_set, if_pos rfl] at hget
      split_ifs at hget
      exact hnew f (Option.some.inj hget)
    · rw [List.getElem?_set_ne hv.symm] at hget
      exact h.running v f hget

theorem Linked.phase (h : Linked s) {w : Nat} {k : Client} {phase phase' : Phase}
    (hget : s.frames[w]? = some (some ⟨k, phase⟩))
    (hframes : s'.frames = s.frames.set w (some ⟨k, phase'⟩)) (hpool : s'.pool = s.pool) :
    Linked s' := by
  refine h.set (fun f hf => ?_) hframes hpool
  obtain rfl := Option.some.inj hf
  exact h.running w ⟨k, phase⟩ hget

/-- A worker outside of a task has no frame. -/
theorem Linked.idle (h : Linked s) {w : Nat} (hawake : s.pool.workers[w]? = some .awake) :
    s.frames[w]? = some none := by
  have hlt : w < s.frames.length := h.length ▸ (List.getElem?_eq_some_iff.mp hawake).1
  have hget := List.getElem?_eq_getElem hlt
  cases hframe : s.frames[w] with
  | none => rw [hget, hframe]
  | some f =>
      rw [hframe] at hget
      cases hawake.symm.trans (h.running w f hget)

/-- **Every step is a move**, and keeps the frames linked to the pool. This is where the steps of
the pool and of `processClient` are looked at. -/
theorem moves_of_step {a : ServerAct} (h : Linked s) (hstep : ServerStep s a s') :
    Moves s s' ∧ Linked s' := by
  cases hstep with
  | accept hmain _ hfree => exact ⟨.accept hmain hfree, h.length, h.running⟩
  | @enqueue k pool hmain hpool =>
      obtain ⟨htasks, hresults, hworkers⟩ := step_enqueue hpool
      have hlinked : Linked { s with pool := pool, main := .accepting } :=
        ⟨hworkers ▸ h.length, fun w f hget => hworkers ▸ h.running w f hget⟩
      refine ⟨?_, hlinked.length, hlinked.running⟩
      -- whether `enqueue` returns `true` depends on the length of the queue only
      by_cases hfull : s.pool.tasks.length ≥ maxQueueSize
      · rw [enqueueSection, if_pos hfull] at *
        exact .refuse hmain htasks hresults
      · rw [enqueueSection, if_neg hfull] at *
        exact .enqueued hmain htasks hresults
  | notify hmain hpool =>
      have hsame := step_notify hpool
      exact ⟨.notified hmain hsame.tasks hsame.results,
        h.pool hsame (fun _ _ _ => trivial) rfl rfl⟩
  | reply hmain => exact ⟨.reply hmain, h.length, h.running⟩
  | closeRejected hmain => exact ⟨.closeRejected hmain, h.length, h.running⟩
  | @takes w k b pool hpool hget =>
      rcases step_workerSection_cases hpool with ⟨-, hidle⟩ | ⟨k', hawake, htasks, hresults, hws⟩
      · exact absurd hget (hidle k b)
      · have hlt : w < s.pool.workers.length := (List.getElem?_eq_some_iff.mp hawake).1
        have hget' : pool.workers[w]? = some (.running k' false) := by
          rw [hws, List.getElem?_set_self hlt]
        cases hget.symm.trans hget'
        have hframe := h.idle hawake
        refine ⟨.take htasks hresults hframe, ?_, fun v f hv => ?_⟩
        · show (s.frames.set w _).length = pool.workers.length
          rw [hws, List.length_set, List.length_set, h.length]
        · show pool.workers[v]? = some (.running f.client false)
          rcases eq_or_ne v w with rfl | hne
          · have hf : some f = some ⟨k, .receiving⟩ := by
              rw [List.getElem?_set_self (List.getElem?_eq_some_iff.mp hframe).1] at hv
              exact (Option.some.inj hv).symm
            obtain rfl := Option.some.inj hf
            exact hget
          · rw [List.getElem?_set_ne hne.symm] at hv
            rw [hws]
            exact running_set hne _ (h.running v f hv)
  | @takesNothing w pool hpool hnone =>
      rcases step_workerSection_cases hpool with ⟨hsame, -⟩ | ⟨k, hawake, -, -, hws⟩
      · exact ⟨.pool hsame.tasks hsame.results, h.pool hsame (fun _ _ _ => trivial) rfl rfl⟩
      · -- a worker that took a task runs it
        have hlt : w < s.pool.workers.length := (List.getElem?_eq_some_iff.mp hawake).1
        rw [hws, List.getElem?_set_self hlt] at hnone
        exact absurd rfl (hnone k false)
  | spurious hpool =>
      have hsame := step_spurious hpool
      exact ⟨.pool hsame.tasks hsame.results, h.pool hsame (fun _ _ _ => trivial) rfl rfl⟩
  | recv hget => exact ⟨.serve hget Call.noConfusion, h.phase hget rfl rfl⟩
  | getRequestNumber hget => exact ⟨.number hget, h.phase hget rfl rfl⟩
  | respond hget => exact ⟨.serve hget Call.noConfusion, h.phase hget rfl rfl⟩
  | @closeServed w k hget =>
      exact ⟨.closeServed hget, h.set (w := w) (fun f hf => by cases hf) rfl rfl⟩
  | finish hget hpool =>
      have hsame := step_finish hpool
      refine ⟨.pool hsame.tasks hsame.results, h.pool hsame ?_ rfl rfl⟩
      -- the worker that finishes has left `processClient`
      rintro v f hv rfl
      cases hget.symm.trans hv

end

/-! ## Counting

All books are sums of `countP`, so that they can be evaluated, and so that adding an event to the
log or changing one frame changes one of them by one or by nothing.
-/

/-- One for a client of the connection `c`. -/
def Client.mark (k : Client) (c : Nat) : Nat := if k.connection = c then 1 else 0

/-- Held by `main` before `enqueue` decides. -/
def Main.deciding : Main → Nat → Nat
  | .accepted k, c => k.mark c
  | _, _ => 0

/-- Held by `main` after `enqueue` has returned `false`. -/
def Main.refusing : Main → Nat → Nat
  | .rejected k, c => k.mark c
  | .replied k, c => k.mark c
  | _, _ => 0

/-- A frame that serves the connection `c`. -/
def serves (c : Nat) : Option Frame → Bool
  | some f => f.client.connection = c
  | none => false

/-- A worker takes the connection `c`. -/
def Event.takes (p : Nat → Bool) (c : Nat) : Event → Bool
  | .took w k => p w && k.connection = c
  | _ => false

/-- The connection `c` is closed. -/
def Event.closes (p : Thread → Bool) (c : Nat) : Event → Bool
  | .call thread .close _ target => p thread && target = some c
  | _ => false

/-- The connection that an event uses. -/
def Event.target : Event → Option Nat
  | .call _ _ _ target => target
  | .took _ _ => none

namespace Process

/-- The number of queued tasks with the connection `c`. -/
def queued (s : Process) (c : Nat) : Nat := s.pool.tasks.countP (·.connection = c)

/-- The number of workers that serve the connection `c`. -/
def served (s : Process) (c : Nat) : Nat := s.frames.countP (serves c)

/-- The number of times that `enqueue` has returned `result` for the connection `c`. -/
def answered (s : Process) (result : Bool) (c : Nat) : Nat :=
  s.pool.results.countP fun r => r.1.connection = c && r.2 = result

def taken (s : Process) (p : Nat → Bool) (c : Nat) : Nat := s.log.countP (Event.takes p c)

/-- The number of times that threads with `p` have closed the connection `c`. -/
def closings (s : Process) (p : Thread → Bool) (c : Nat) : Nat := s.log.countP (Event.closes p c)

/-- One if the worker `w` serves the connection `c`. -/
def servedBy (s : Process) (w : Nat) (c : Nat) : Nat :=
  if (s.frames[w]?).any (serves c) then 1 else 0

/-- The client is in somebody's hands: those of `main`, of a queued task or of a worker. -/
def Holds (s : Process) (k : Client) : Prop :=
  s.main.client? = some k ∨ k ∈ s.pool.tasks ∨ ∃ f, some f ∈ s.frames ∧ f.client = k

end Process

def isMain : Thread → Bool
  | .main => true
  | .worker _ => false

def isWorker (w : Nat) : Thread → Bool
  | .main => false
  | .worker v => v = w

@[simp] theorem isMain_main : isMain .main = true := rfl

@[simp] theorem isMain_worker (w : Nat) : isMain (.worker w) = false := rfl

@[simp] theorem isWorker_worker (v w : Nat) : isWorker v (.worker w) = decide (w = v) := rfl

/-- The books of the server for the connection `c`. Each field is a balance: `accept` against
`enqueue`, the refused ones against their closes, the accepted ones against the queue, the frames
and their closes, the same against what was taken from the queue, and this for each worker alone.
-/
structure Counts (s : Process) (c : Nat) : Prop where
  decided : s.main.deciding c + s.answered false c + s.answered true c
    = if c < s.accepted then 1 else 0
  refused : s.main.refusing c + s.closings isMain c = s.answered false c
  admitted : s.queued c + s.served c + s.closings (fun t => !isMain t) c = s.answered true c
  taken : s.queued c + s.taken (fun _ => true) c = s.answered true c
  takenBy : ∀ w, s.servedBy w c + s.closings (isWorker w) c = s.taken (· = w) c

theorem new_counts (threadCount c : Nat) : Counts (.new threadCount) c := by
  have hserves : ∀ f ∈ List.replicate threadCount (none : Option Frame), ¬ serves c f = true := by
    intro f hf
    rw [(List.mem_replicate.mp hf).2]
    exact Bool.false_ne_true
  refine ⟨rfl, rfl, ?_, rfl, fun w => ?_⟩
  · show 0 + (List.replicate threadCount (none : Option Frame)).countP (serves c) + 0 = 0
    rw [List.countP_eq_zero.mpr hserves]
  · refine if_neg fun hany => ?_
    cases hget : (List.replicate threadCount (none : Option Frame))[w]? with
    | none =>
        rw [Process.new, hget] at hany
        cases hany
    | some f =>
        rw [Process.new, hget] at hany
        exact hserves f (List.mem_of_getElem? hget) hany

section

variable {s : Process}

theorem countP_clients_append (l : List Client) (k : Client) (c : Nat) :
    (l ++ [k]).countP (·.connection = c) = l.countP (·.connection = c) + k.mark c := by
  rw [List.countP_append, List.countP_singleton, Client.mark]
  simp

theorem countP_clients_cons (l : List Client) (k : Client) (c : Nat) :
    (k :: l).countP (·.connection = c) = l.countP (·.connection = c) + k.mark c := by
  rw [List.countP_cons, Client.mark]
  simp

/-- How a count over the frames changes when one frame is replaced. -/
theorem countP_frames_set {frames : List (Option Frame)} {w : Nat} {old : Option Frame}
    (hget : frames[w]? = some old) (new : Option Frame) (c : Nat) :
    (frames.set w new).countP (serves c) + (if serves c old then 1 else 0)
      = frames.countP (serves c) + if serves c new then 1 else 0 :=
  (replaces_set new hget).countP (serves c)

theorem serves_some (c : Nat) (k : Client) (phase : Phase) :
    (if serves c (some ⟨k, phase⟩) then 1 else 0) = k.mark c := by
  simp [serves, Client.mark]

theorem serves_none (c : Nat) : (if serves c none then 1 else 0) = 0 := rfl

/-- What a call adds to the books, and the answers of `enqueue`. -/
theorem countP_closes_append (log : List Event) (e : Event) (p : Thread → Bool) (c : Nat) :
    (log ++ [e]).countP (Event.closes p c)
      = log.countP (Event.closes p c) + if e.closes p c then 1 else 0 := by
  rw [List.countP_append, List.countP_singleton]

theorem countP_takes_append (log : List Event) (e : Event) (p : Nat → Bool) (c : Nat) :
    (log ++ [e]).countP (Event.takes p c)
      = log.countP (Event.takes p c) + if e.takes p c then 1 else 0 := by
  rw [List.countP_append, List.countP_singleton]

theorem countP_results_append (results : List (Client × Bool)) (k : Client) (result b : Bool)
    (c : Nat) :
    (results ++ [(k, result)]).countP (fun r => r.1.connection = c && r.2 = b)
      = results.countP (fun r => r.1.connection = c && r.2 = b)
        + if result = b then k.mark c else 0 := by
  rw [List.countP_append, List.countP_singleton, Client.mark]
  by_cases hc : k.connection = c <;> by_cases hb : result = b <;> simp [hc, hb]

theorem closes_close (thread : Thread) (k : Client) (p : Thread → Bool) (c : Nat) :
    (if (Event.call thread .close k (some k.connection)).closes p c then 1 else 0)
      = if p thread then k.mark c else 0 := by
  rw [Event.closes, Client.mark]
  by_cases hc : k.connection = c <;> cases p thread <;> simp [hc]

theorem closes_other {call : Call} (hcall : call ≠ .close) (thread : Thread) (k : Client)
    (target : Option Nat) (p : Thread → Bool) (c : Nat) :
    (Event.call thread call k target).closes p c = false := by
  cases call with
  | close => exact absurd rfl hcall
  | _ => rfl

theorem takes_took (w : Nat) (k : Client) (p : Nat → Bool) (c : Nat) :
    (if (Event.took w k).takes p c then 1 else 0) = if p w then k.mark c else 0 := by
  rw [Event.takes, Client.mark]
  by_cases hc : k.connection = c <;> cases p w <;> simp [hc]

theorem servedBy_of_get {w : Nat} {f : Option Frame} (hget : s.frames[w]? = some f) (c : Nat) :
    s.servedBy w c = if serves c f then 1 else 0 := by
  rw [Process.servedBy, hget, Option.any_some]

theorem servedBy_set {w : Nat} {old : Option Frame} (hget : s.frames[w]? = some old)
    (new : Option Frame) (v c : Nat) :
    (if ((s.frames.set w new)[v]?).any (serves c) then 1 else 0)
      = if v = w then (if serves c new then 1 else 0) else s.servedBy v c := by
  have hlt := (List.getElem?_eq_some_iff.mp hget).1
  by_cases hv : v = w
  · subst hv
    rw [if_pos rfl, List.getElem?_set_self hlt, Option.any_some]
  · rw [if_neg hv, List.getElem?_set_ne (Ne.symm hv), Process.servedBy]

/-- A worker goes on with its client. -/
theorem servedBy_phase {w : Nat} {k : Client} {phase : Phase}
    (hget : s.frames[w]? = some (some ⟨k, phase⟩)) (phase' : Phase) (v c : Nat) :
    (if ((s.frames.set w (some ⟨k, phase'⟩))[v]?).any (serves c) then 1 else 0)
      = s.servedBy v c := by
  rw [servedBy_set hget, serves_some]
  split_ifs with hv
  · rw [hv, servedBy_of_get hget, serves_some]
  · rfl

theorem served_phase {w : Nat} {k : Client} {phase : Phase}
    (hget : s.frames[w]? = some (some ⟨k, phase⟩)) (phase' : Phase) (c : Nat) :
    (s.frames.set w (some ⟨k, phase'⟩)).countP (serves c) = s.frames.countP (serves c) := by
  have hserved := countP_frames_set hget (some ⟨k, phase'⟩) c
  rwa [serves_some, serves_some, Nat.add_right_cancel_iff] at hserved

/-- A call is in the books if it closes a connection. -/
theorem taken_call (thread : Thread) (k : Client) (call : Call) (p : Nat → Bool) (c : Nat) :
    (s.call thread k call).taken p c = s.taken p c :=
  countP_takes_append s.log _ p c

theorem closings_call {call : Call} (hcall : call ≠ .close) (thread : Thread) (k : Client)
    (p : Thread → Bool) (c : Nat) : (s.call thread k call).closings p c = s.closings p c := by
  have happend := countP_closes_append s.log
    (.call thread call k (s.sockets k.clientSocket)) p c
  rwa [closes_other hcall] at happend

/-- A step that does not concern the connection leaves its books as they are. -/
theorem Counts.congr {s' : Process} {c : Nat} (h : Counts s c)
    (hdeciding : s'.main.deciding c = s.main.deciding c)
    (hrefusing : s'.main.refusing c = s.main.refusing c)
    (htasks : s'.pool.tasks = s.pool.tasks) (hresults : s'.pool.results = s.pool.results)
    (haccepted : s'.accepted = s.accepted) (hserved : s'.served c = s.served c)
    (hservedBy : ∀ w, s'.servedBy w c = s.servedBy w c)
    (hclosings : ∀ p, s'.closings p c = s.closings p c)
    (htaken : ∀ p, s'.taken p c = s.taken p c) : Counts s' c := by
  have hqueued : s'.queued c = s.queued c := by rw [Process.queued, htasks, Process.queued]
  have hanswered : ∀ result, s'.answered result c = s.answered result c := fun result => by
    rw [Process.answered, hresults, Process.answered]
  constructor
  · rw [hdeciding, hanswered, hanswered, haccepted]
    exact h.decided
  · rw [hrefusing, hclosings, hanswered]
    exact h.refused
  · rw [hqueued, hserved, hclosings, hanswered]
    exact h.admitted
  · rw [hqueued, htaken, hanswered]
    exact h.taken
  · intro w
    rw [hservedBy, hclosings, htaken]
    exact h.takenBy w

/-- **A move is entered in the books once.** For the connection that moves, one is taken from one
side of a balance and added to the other, or added on both; for all others nothing changes. -/
theorem Counts.moves {s' : Process} {c : Nat} (h : Counts s c) (hheld : ∀ k, s.Holds k →
    s.sockets k.clientSocket = some k.connection) (hs : Moves s s') : Counts s' c := by
  have hdecided := h.decided
  have hrefused := h.refused
  have hadmitted := h.admitted
  have htaken := h.taken
  have htakenBy := h.takenBy
  simp only [Process.answered, Process.queued, Process.served, Process.closings, Process.taken]
    at hdecided hrefused hadmitted htaken htakenBy
  cases hs with
  | accept hmain _ =>
      -- the new connection has a number that no other one has
      simp only [hmain, Main.deciding, Main.refusing] at hdecided hrefused
      refine ⟨?_, hrefused, hadmitted, htaken, htakenBy⟩
      simp only [Process.answered, Main.deciding, Client.mark]
      split_ifs at hdecided ⊢ <;> omega
  | @enqueued k pool hmain htasks hresults =>
      -- from `main` to the queue
      simp only [hmain, Main.deciding, Main.refusing] at hdecided hrefused
      constructor
      case takenBy => exact htakenBy
      all_goals
        simp only [Process.answered, Process.queued, Process.served, Process.closings,
          Process.taken, Main.deciding, Main.refusing, htasks, hresults, countP_results_append,
          countP_clients_append, Bool.true_eq_false, if_true, if_false]
        omega
  | @refuse k pool hmain htasks hresults =>
      -- `main` keeps it for the reply
      simp only [hmain, Main.deciding, Main.refusing] at hdecided hrefused
      constructor
      case takenBy => exact htakenBy
      all_goals
        simp only [Process.answered, Process.queued, Process.served, Process.closings,
          Process.taken, Main.deciding, Main.refusing, htasks, hresults, countP_results_append,
          Bool.false_eq_true, if_true, if_false]
        omega
  | pool htasks hresults =>
      exact h.congr rfl rfl htasks hresults rfl rfl (fun _ => rfl) (fun _ => rfl) fun _ => rfl
  | notified hmain htasks hresults =>
      refine h.congr ?_ ?_ htasks hresults rfl rfl (fun _ => rfl) (fun _ => rfl) fun _ => rfl
      · rw [hmain]
        rfl
      · rw [hmain]
        rfl
  | @reply k hmain =>
      refine h.congr ?_ ?_ rfl rfl rfl rfl (fun _ => rfl)
        (fun p => closings_call Call.noConfusion .main k p c) fun p => taken_call .main k _ p c
      · rw [hmain]
        rfl
      · rw [hmain]
        rfl
  | @closeRejected k hmain =>
      -- from `main` to the closed ones
      simp only [hmain, Main.deciding, Main.refusing] at hdecided hrefused
      have htarget := hheld k (.inl (by rw [hmain]; rfl))
      constructor
      case takenBy =>
        intro w
        simp only [Process.closings, Process.taken, Process.call, countP_closes_append,
          countP_takes_append, htarget, closes_close]
        exact htakenBy w
      all_goals
        simp only [Process.answered, Process.queued, Process.served, Process.closings,
          Process.taken, Process.call, Main.deciding, Main.refusing, countP_closes_append,
          countP_takes_append, htarget, closes_close, isMain_main, Event.takes, Bool.not_true,
          Bool.false_eq_true, if_true, if_false]
        omega
  | @take w k pool htasks hresults hget =>
      -- from the queue to the worker
      have hserved := countP_frames_set hget (some ⟨k, .receiving⟩) c
      rw [serves_some, serves_none, Nat.add_zero] at hserved
      simp only [htasks, countP_clients_cons] at hadmitted htaken
      constructor
      case takenBy =>
        intro v
        have hv := htakenBy v
        rw [Process.servedBy, servedBy_set hget, serves_some]
        simp only [Process.closings, Process.taken, countP_closes_append, countP_takes_append,
          takes_took, Event.closes]
        rcases eq_or_ne v w with rfl | hne
        · rw [servedBy_of_get hget, serves_none] at hv
          simp only [decide_true, if_true, Bool.false_eq_true, if_false]
          omega
        · simp only [hne, hne.symm, decide_false, Bool.false_eq_true, if_false]
          exact hv
      all_goals
        simp only [Process.answered, Process.queued, Process.served, Process.closings,
          Process.taken, hresults, hserved, countP_closes_append, countP_takes_append, takes_took,
          Event.closes, if_true, Bool.false_eq_true, if_false]
        omega
  | @number w k phase phase' _ hget =>
      exact h.congr rfl rfl rfl rfl rfl (served_phase hget phase' c)
        (fun v => servedBy_phase hget phase' v c) (fun _ => rfl) fun _ => rfl
  | @serve w k phase phase' call hget hcall =>
      exact h.congr rfl rfl rfl rfl rfl (served_phase hget phase' c)
        (fun v => servedBy_phase hget phase' v c)
        (fun p => closings_call hcall (.worker w) k p c) fun p => taken_call (.worker w) k call p c
  | @closeServed w k phase hget =>
      -- from the worker to the closed ones
      have htarget := hheld k (.inr (.inr ⟨⟨k, phase⟩, List.mem_of_getElem? hget, rfl⟩))
      have hserved := countP_frames_set hget none c
      rw [serves_some, serves_none, Nat.add_zero] at hserved
      constructor
      case takenBy =>
        intro v
        have hv := htakenBy v
        rw [Process.servedBy, servedBy_set hget, serves_none]
        simp only [Process.closings, Process.taken, Process.call, countP_closes_append,
          countP_takes_append, htarget, closes_close, isWorker_worker]
        rcases eq_or_ne v w with rfl | hne
        · rw [servedBy_of_get hget, serves_some] at hv
          simp only [decide_true, if_true, Event.takes, Bool.false_eq_true, if_false]
          omega
        · simp only [hne, hne.symm, decide_false, Bool.false_eq_true, if_false]
          exact hv
      all_goals
        simp only [Process.answered, Process.queued, Process.served, Process.closings,
          Process.taken, Process.call, countP_closes_append, countP_takes_append, htarget,
          closes_close, isMain_worker, Event.takes, Bool.not_false, Bool.false_eq_true, if_true,
          if_false]
        omega

end

/-! ## Custody

What the books do not say is about the table of descriptors and the log. It follows for a move
from what was held before it.
-/

/-- Whoever holds a client holds its connection, and every call went to the connection of its
client while this was open. With the books of all connections this is what a move keeps. -/
structure Custody (s : Process) : Prop where
  linked : Linked s
  counts : ∀ c, Counts s c
  held : ∀ k, s.Holds k → s.sockets k.clientSocket = some k.connection
  targets : ∀ thread call k target, Event.call thread call k target ∈ s.log →
    target = some k.connection
  calls : s.log.Pairwise fun e e' => ∀ c, e.closes (fun _ => true) c = true → e'.target ≠ some c

theorem new_custody (threadCount : Nat) : Custody (.new threadCount) where
  linked :=
    { length := by rw [Process.new, Pool.new, List.length_replicate, List.length_replicate]
      running := fun w f hget => by
        have hnone := (List.mem_replicate.mp (List.mem_of_getElem? hget)).2
        cases hnone }
  counts := new_counts threadCount
  held := by
    rintro k (hmain | htasks | ⟨f, hf, -⟩)
    · cases hmain
    · cases htasks
    · cases (List.mem_replicate.mp hf).2
  targets := fun _ _ _ _ hmem => by cases hmem
  calls := .nil

section

variable {s s' : Process}

theorem mark_self (k : Client) : k.mark k.connection = 1 := if_pos rfl

theorem Process.Holds.pos {k : Client} (h : s.Holds k) :
    0 < s.main.deciding k.connection + s.main.refusing k.connection + s.queued k.connection
      + s.served k.connection := by
  rcases h with hmain | htask | ⟨f, hf, rfl⟩
  · have hself := mark_self k
    cases hs : s.main with
    | accepted k' =>
        rw [hs] at hmain
        obtain rfl := Option.some.inj hmain
        simp only [Main.deciding]
        omega
    | rejected k' =>
        rw [hs] at hmain
        obtain rfl := Option.some.inj hmain
        simp only [Main.refusing]
        omega
    | replied k' =>
        rw [hs] at hmain
        obtain rfl := Option.some.inj hmain
        simp only [Main.refusing]
        omega
    | _ =>
        rw [hs] at hmain
        cases hmain
  · have hqueued : 0 < s.queued k.connection :=
      List.countP_pos_iff.mpr ⟨k, htask, decide_eq_true rfl⟩
    omega
  · have hserved : 0 < s.served f.client.connection :=
      List.countP_pos_iff.mpr ⟨some f, hf, decide_eq_true rfl⟩
    omega

/-- Each connection that was accepted is in one place, which is also the number of its places:
with `main`, in the queue, with a worker, or closed. -/
theorem Counts.total {c : Nat} (h : Counts s c) :
    s.main.deciding c + s.main.refusing c + s.queued c + s.served c + s.closings isMain c
      + s.closings (fun t => !isMain t) c = if c < s.accepted then 1 else 0 := by
  rw [← h.decided, ← h.refused, ← h.admitted]
  omega

/-- What is held is not closed: the places add up to one. -/
theorem Counts.not_closed {c : Nat} (h : Counts s c)
    (hpos : 0 < s.main.deciding c + s.main.refusing c + s.queued c + s.served c) {e : Event}
    (he : e ∈ s.log) : e.closes (fun _ => true) c = false := by
  have htotal := h.total
  have hmain : s.closings isMain c = 0 := by split_ifs at htotal <;> omega
  have hworkers : s.closings (fun t => !isMain t) c = 0 := by split_ifs at htotal <;> omega
  have hm := List.countP_eq_zero.mp hmain e he
  have hw := List.countP_eq_zero.mp hworkers e he
  cases e with
  | took w k => rfl
  | call thread call k target =>
      cases call with
      | close =>
          simp only [Event.closes, Bool.and_eq_true, not_and, Bool.true_and] at hm hw ⊢
          cases hthread : isMain thread with
          | true => simpa using hm hthread
          | false => simpa using hw (by rw [hthread]; rfl)
      | _ => rfl

/-- What a move adds to the log. -/
theorem Moves.log (hs : Moves s s') : s'.log = s.log ∨ (∃ w k, s'.log = s.log ++ [.took w k]) ∨
    ∃ thread call k, s.Holds k ∧
      s'.log = s.log ++ [.call thread call k (s.sockets k.clientSocket)] := by
  cases hs with
  | reply hmain => exact .inr (.inr ⟨_, _, _, .inl (by rw [hmain]; rfl), rfl⟩)
  | closeRejected hmain => exact .inr (.inr ⟨_, _, _, .inl (by rw [hmain]; rfl), rfl⟩)
  | take _ _ _ => exact .inr (.inl ⟨_, _, rfl⟩)
  | serve hget _ =>
      exact .inr (.inr ⟨_, _, _, .inr (.inr ⟨_, List.mem_of_getElem? hget, rfl⟩), rfl⟩)
  | closeServed hget =>
      exact .inr (.inr ⟨_, _, _, .inr (.inr ⟨_, List.mem_of_getElem? hget, rfl⟩), rfl⟩)
  | _ => exact .inl rfl

theorem holds_of_main {k : Client} (hmain : s.main.client? = some k) : s.Holds k := .inl hmain

theorem holds_of_task {k : Client} (hmem : k ∈ s.pool.tasks) : s.Holds k := .inr (.inl hmem)

theorem holds_of_frame {f : Frame} (hmem : some f ∈ s.frames) : s.Holds f.client :=
  .inr (.inr ⟨f, hmem, rfl⟩)

/-- Nobody gets a client that was not held before. -/
theorem holds_of {P : Client → Prop} (hmain : ∀ k, s'.main.client? = some k → P k)
    (htasks : ∀ k ∈ s'.pool.tasks, P k) (hframes : ∀ f, some f ∈ s'.frames → P f.client) :
    ∀ k, s'.Holds k → P k := by
  rintro k (hk | hk | ⟨f, hf, rfl⟩)
  · exact hmain k hk
  · exact htasks k hk
  · exact hframes f hf

theorem holds_of_set {w : Nat} {new : Option Frame} (hnew : ∀ f, new = some f → s.Holds f.client) :
    ∀ f, some f ∈ s.frames.set w new → s.Holds f.client := by
  intro f hf
  rcases List.mem_or_eq_of_mem_set hf with hold | heq
  · exact holds_of_frame hold
  · exact hnew f heq.symm

/-- What a move does to the sockets and their holders. -/
theorem Moves.sockets (hs : Moves s s') :
    (s'.sockets = s.sockets ∧ ∀ k, s'.Holds k → s.Holds k) ∨
    (∃ d, s.sockets d = none ∧ s'.sockets = Function.update s.sockets d (some s.accepted) ∧
      ∀ k, s'.Holds k → s.Holds k ∨ k = ⟨d, s.accepted⟩) ∨
    ∃ thread k₀, s.Holds k₀ ∧ s'.sockets = Function.update s.sockets k₀.clientSocket none ∧
      s'.log = s.log ++ [.call thread .close k₀ (s.sockets k₀.clientSocket)] ∧
      ∀ k, s'.Holds k → s.Holds k := by
  have hframes : ∀ f, some f ∈ s.frames → s.Holds f.client := fun _ => holds_of_frame
  have htasks : ∀ k ∈ s.pool.tasks, s.Holds k := fun _ => holds_of_task
  -- only `accept` adds a holder; all other moves hand a client on or close it
  cases hs with
  | @accept d _ hd =>
      refine .inr (.inl ⟨d, hd, rfl, holds_of ?_ ?_ ?_⟩)
      · exact fun k hk => .inr (Option.some.inj hk).symm
      · exact fun k hk => .inl (htasks k hk)
      · exact fun f hf => .inl (hframes f hf)
  | @enqueued k pool hmain hpool _ =>
      refine .inl ⟨rfl, holds_of (fun k hk => by cases hk) (fun k' hk' => ?_) hframes⟩
      rw [show ({ s with pool := pool, main := .notifying } : Process).pool.tasks = _ from hpool]
        at hk'
      rcases List.mem_append.mp hk' with hold | hnew
      · exact htasks k' hold
      · exact holds_of_main (by rw [hmain, List.mem_singleton.mp hnew]; rfl)
  | @refuse k pool hmain hpool _ =>
      refine .inl ⟨rfl, holds_of (fun k' hk' => ?_) (fun k' hk' => ?_) hframes⟩
      · exact holds_of_main (by rw [hmain]; exact hk')
      · exact htasks k' (hpool ▸ hk')
  | pool hpool _ =>
      exact .inl ⟨rfl, holds_of (fun k hk => holds_of_main hk) (fun k hk => htasks k (hpool ▸ hk))
        hframes⟩
  | notified hmain hpool _ =>
      exact .inl ⟨rfl, holds_of (fun k hk => by cases hk) (fun k hk => htasks k (hpool ▸ hk))
        hframes⟩
  | reply hmain =>
      exact .inl ⟨rfl, holds_of (fun k hk => holds_of_main (by rw [hmain]; exact hk)) htasks
        hframes⟩
  | closeRejected hmain =>
      exact .inr (.inr ⟨_, _, holds_of_main (by rw [hmain]; rfl), rfl, rfl,
        holds_of (fun k hk => by cases hk) htasks hframes⟩)
  | take hpool _ hget =>
      refine .inl ⟨rfl, holds_of (fun k hk => holds_of_main hk) (fun k hk => ?_)
        (holds_of_set fun f hf => ?_)⟩
      · exact htasks k (hpool ▸ List.mem_cons_of_mem _ hk)
      · obtain rfl := Option.some.inj hf
        exact htasks _ (hpool ▸ List.mem_cons_self)
  | @number w k phase phase' _ hget =>
      refine .inl ⟨rfl, holds_of (fun k hk => holds_of_main hk) htasks
        (holds_of_set fun f hf => ?_)⟩
      obtain rfl := Option.some.inj hf
      exact hframes ⟨k, phase⟩ (List.mem_of_getElem? hget)
  | @serve w k phase phase' call hget hcall =>
      refine .inl ⟨?_, holds_of (fun k hk => holds_of_main hk) htasks
        (holds_of_set fun f hf => ?_)⟩
      · cases call with
        | close => exact absurd rfl hcall
        | _ => rfl
      · obtain rfl := Option.some.inj hf
        exact hframes ⟨k, phase⟩ (List.mem_of_getElem? hget)
  | @closeServed w k phase hget =>
      exact .inr (.inr ⟨_, _, hframes ⟨k, phase⟩ (List.mem_of_getElem? hget), rfl, rfl,
        holds_of (fun k hk => holds_of_main hk) htasks
          (holds_of_set fun f hf => by cases hf)⟩)

/-- **Every move keeps the custody.** A new connection gets a descriptor that nobody holds, a
`close` is made by the one who holds the client, and everybody else keeps what he has. -/
theorem Custody.moves (h : Custody s) (hs : Moves s s') (hlinked : Linked s') : Custody s' := by
  have hcounts : ∀ c, Counts s' c := fun c => (h.counts c).moves h.held hs
  refine ⟨hlinked, hcounts, fun k hk => ?_, ?_, ?_⟩
  · rcases hs.sockets with ⟨hsockets, hholds⟩ | ⟨d, hd, hsockets, hholds⟩ |
      ⟨thread, k₀, hk₀, hsockets, hlog, hholds⟩
    · rw [hsockets]
      exact h.held k (hholds k hk)
    · -- the new descriptor was not in use
      rw [hsockets]
      rcases hholds k hk with hold | rfl
      · rw [Function.update_of_ne, h.held k hold]
        rintro rfl
        cases hd.symm.trans (h.held k hold)
      · rw [Function.update_self]
    · -- nobody holds the connection that is closed
      rw [hsockets]
      have hreaches := h.held k (hholds k hk)
      rw [Function.update_of_ne, hreaches]
      intro heq
      rw [heq, h.held k₀ hk₀] at hreaches
      have hmem : Event.call thread .close k₀ (some k₀.connection) ∈ s'.log := by
        rw [hlog, h.held k₀ hk₀]
        exact List.mem_append_right _ List.mem_cons_self
      have hnot := (hcounts k.connection).not_closed hk.pos hmem
      rw [Event.closes, hreaches] at hnot
      simp at hnot
  · intro thread call k target hmem
    rcases hs.log with hlog | ⟨w, k', hlog⟩ | ⟨thread', call', k', hk', hlog⟩
    · exact h.targets thread call k target (hlog ▸ hmem)
    · rw [hlog, List.mem_append, List.mem_singleton] at hmem
      rcases hmem with hold | hnew
      · exact h.targets thread call k target hold
      · cases hnew
    · rw [hlog, List.mem_append, List.mem_singleton] at hmem
      rcases hmem with hold | hnew
      · exact h.targets thread call k target hold
      · cases hnew
        exact h.held k hk'
  · rcases hs.log with hlog | ⟨w, k', hlog⟩ | ⟨thread', call', k', hk', hlog⟩
    · rw [hlog]
      exact h.calls
    · rw [hlog, List.pairwise_append]
      refine ⟨h.calls, List.pairwise_singleton _ _, fun e he e' he' c _ => ?_⟩
      rw [List.mem_singleton.mp he']
      exact fun htarget => by cases htarget
    · rw [hlog, List.pairwise_append]
      refine ⟨h.calls, List.pairwise_singleton _ _, fun e he e' he' c hcloses htarget => ?_⟩
      rw [List.mem_singleton.mp he', Event.target, h.held k' hk'] at htarget
      obtain rfl := Option.some.inj htarget
      rw [(h.counts k'.connection).not_closed hk'.pos he] at hcloses
      cases hcloses

theorem reachable_custody {threadCount : Nat} (hs : (serverMachine threadCount).Reachable s) :
    Custody s := by
  refine Machine.invariant Custody ?_ ?_ hs
  · rintro s rfl
    exact new_custody threadCount
  · intro s a s' h hstep
    obtain ⟨hmoves, hlinked⟩ := moves_of_step h.linked (serverStep_cases hstep)
    exact h.moves hmoves hlinked

end

/-! ## The result -/

theorem closings_all (s : Process) (c : Nat) :
    s.closings (fun _ => true) c = s.closings isMain c + s.closings (fun t => !isMain t) c := by
  unfold Process.closings
  induction s.log with
  | nil => rfl
  | cons e log ih =>
      have he : (if e.closes (fun _ => true) c then 1 else 0)
          = (if e.closes isMain c then 1 else 0)
            + if e.closes (fun t => !isMain t) c then 1 else 0 := by
        cases e with
        | took w k => rfl
        | call thread call k target =>
            cases call with
            | close => cases thread <;> simp [Event.closes]
            | _ => rfl
      rw [List.countP_cons, List.countP_cons, List.countP_cons, ih]
      omega

theorem closings_worker_le (s : Process) (w c : Nat) :
    s.closings (isWorker w) c ≤ s.closings (fun t => !isMain t) c := by
  refine List.countP_mono_left fun e _ he => ?_
  cases e with
  | took w k => cases he
  | call thread call k target =>
      cases call with
      | close =>
          cases thread with
          | main => cases he
          | worker v =>
              simp only [Event.closes, Bool.and_eq_true] at he ⊢
              exact ⟨rfl, he.2⟩
      | _ => cases he

theorem taken_le (s : Process) (w c : Nat) : s.taken (· = w) c ≤ s.taken (fun _ => true) c := by
  refine List.countP_mono_left fun e _ he => ?_
  cases e with
  | took v k =>
      simp only [Event.takes, Bool.and_eq_true] at he ⊢
      exact ⟨trivial, he.2⟩
  | call thread call k target => cases he

/-- Two workers have not taken one task. -/
theorem taken_add_le (s : Process) {v w : Nat} (hne : v ≠ w) (c : Nat) :
    s.taken (· = v) c + s.taken (· = w) c ≤ s.taken (fun _ => true) c := by
  unfold Process.taken
  induction s.log with
  | nil => exact le_rfl
  | cons e log ih =>
      have he : (if e.takes (· = v) c then 1 else 0) + (if e.takes (· = w) c then 1 else 0)
          ≤ if e.takes (fun _ => true) c then 1 else 0 := by
        cases e with
        | took u k =>
            rw [takes_took, takes_took, takes_took]
            by_cases hv : u = v
            · simp [hv, hne]
            · simp only [hv, decide_false, Bool.false_eq_true, if_false, if_true]
              split_ifs <;> omega
        | call thread call k target => exact le_rfl
      rw [List.countP_cons, List.countP_cons, List.countP_cons]
      omega

/-- **Each accepted client is disposed of exactly once.** A connection is held by `main`, in one
queued task, served by one worker or closed once. Every call goes to the connection that its
thread holds, and none to a connection that was closed before. `main` closes what `enqueue`
rejects, and the worker that has taken the task what it accepts. -/
theorem each_client_once {threadCount : Nat} {s : Process}
    (hs : (serverMachine threadCount).Reachable s) :
    (∀ c, (s.main.deciding c + s.main.refusing c) + s.queued c + s.served c
      + s.closings (fun _ => true) c = if c < s.accepted then 1 else 0) ∧
    (∀ thread call k target, Event.call thread call k target ∈ s.log →
      target = some k.connection) ∧
    (∀ before e after c, s.log = before ++ e :: after → e.closes (fun _ => true) c = true →
      ∀ e' ∈ after, e'.target ≠ some c) ∧
    (∀ c, s.main.refusing c + s.closings isMain c = s.answered false c ∧
      s.queued c + s.served c + s.closings (fun t => !isMain t) c = s.answered true c) ∧
    ∀ w c, 0 < s.closings (isWorker w) c →
      s.answered true c = 1 ∧ ∀ v, s.taken (· = v) c = if v = w then 1 else 0 := by
  have h := reachable_custody hs
  refine ⟨fun c => ?_, h.targets, ?_, fun c => ⟨(h.counts c).refused, (h.counts c).admitted⟩, ?_⟩
  · rw [← (h.counts c).total, closings_all]
    omega
  · intro before e after c hlog hcloses e' he'
    have hcalls := h.calls
    rw [hlog, List.pairwise_append] at hcalls
    exact List.rel_of_pairwise_cons hcalls.2.1 he' c hcloses
  · intro w c hpos
    obtain ⟨hdecided, -, hadmitted, htaken, htakenBy⟩ := h.counts c
    -- what a worker has closed was accepted, and taken by this worker
    have hle := closings_worker_le s w c
    have hone : s.answered true c = 1 := by split_ifs at hdecided <;> omega
    have hw := htakenBy w
    refine ⟨hone, fun v => ?_⟩
    have hall := taken_le s w c
    rcases eq_or_ne v w with rfl | hne
    · rw [if_pos rfl]
      omega
    · -- the one task with this connection was taken once
      have hadd := taken_add_le s hne c
      rw [if_neg hne]
      omega

/-- Two clients on one descriptor: the first one is served to its end, the second one is in the
queue. -/
theorem each_client_once_reused :
    ∃ s, (serverMachine 1).Reachable s ∧ s.accepted = 2 ∧ s.closings (isWorker 0) 0 = 1 ∧
      s.queued 1 = 1 ∧ s.taken (· = 0) 0 = 1 := by
  have hrun : (Machine.execute serverStep (.new 1)
      [.accept 5, .enqueue, .workerSection 0, .notify none, .recv 0 3, .getRequestNumber 0,
        .respond 0, .recv 0 0, .closeServed 0, .accept 5, .enqueue]).map
      (fun s => (s.accepted, s.closings (isWorker 0) 0, s.queued 1)) = some (2, 1, 1) := by
    decide +kernel
  obtain ⟨s, hexecute, hresult⟩ := Option.map_eq_some_iff.mp hrun
  simp only [Prod.mk.injEq] at hresult
  obtain ⟨haccepted, hclosings, hqueued⟩ := hresult
  have hs : (serverMachine 1).Reachable s := ⟨_, _, rfl, Machine.path_of_execute hexecute⟩
  have htaken := ((each_client_once hs).2.2.2.2 0 0 (by omega)).2 0
  exact ⟨s, hs, haccepted, hclosings, hqueued, htaken⟩

end PacketForge.ThreadPool
