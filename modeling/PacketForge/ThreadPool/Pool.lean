import PacketForge.Lib.Machine
import PacketForge.Lib.Replace

set_option autoImplicit false

/-! # The thread pool (`Version_2/src/Server.cpp`, `class ThreadPool`)

The pool as a machine whose steps are the critical sections of the code. Each section under
`queueMutex` is one step; what happens outside of the mutex (`notify_one` and `notify_all`, the
execution of a task) are steps of their own, so that they interleave with everything else.

`condition.wait(lock, predicate)` tests its predicate with the mutex held and goes to sleep if it
is false. A worker that is about to take the mutex and test is `awake`; it is in this place at the
head of its loop and after every wakeup, a spurious one included. A task is a value of any type
`τ`; it may call `enqueue` while it runs.

The machine also keeps the history that the results of `Tasks` are about: the tasks that were
accepted, started and finished, in order, and the results of `enqueue`.

## How the results use it

* `step` is the code: one branch for each kind of step, `none` if the thread is not in the place
  that the step starts from.
* `Step` says the same as a relation, with what a step finds in its hypotheses and what it leaves
  in its target. `step_cases` leads from the function to the relation, and all invariants
  (`Tasks`, `Wakeup`, `Shutdown`) are proved by cases on the relation, so that none of them
  unfolds `step`.
* Which worker does something matters to nobody but itself. A worker's step is therefore described
  by `Replaces`: one element of the list of workers goes from one state to another one.
-/

namespace PacketForge.ThreadPool

variable {τ : Type}

/-! ## States

A worker that runs a task is in one of two places: the task runs, or it has pushed a task of its
own and owes the `notify_one`. The outside threads are in one of these two places as well, so a
boolean is enough for each of them.
-/

/-- Where a worker is in its loop. A running task may have pushed a task and not notified
yet. -/
inductive Worker (τ : Type) where
  | awake
  | waiting
  | running (task : τ) (notifying : Bool)
  | exited

namespace Worker

def isAwake : Worker τ → Bool
  | awake => true
  | _ => false

def isWaiting : Worker τ → Bool
  | waiting => true
  | _ => false

def isExited : Worker τ → Bool
  | exited => true
  | _ => false

/-- A worker whose task has pushed and not notified yet. -/
def isNotifying : Worker τ → Bool
  | running _ notifying => notifying
  | _ => false

/-- The task that a worker runs, if it runs one. -/
def task? : Worker τ → Option τ
  | running task _ => some task
  | _ => none

/-- What a notification does to a worker: one that waits is awake afterwards, and others do not
notice it. -/
def wake : Worker τ → Worker τ
  | waiting => awake
  | w => w

end Worker

/-- Where the destructor is: before it, after its critical section, after `notify_all`, or
returned. -/
inductive Destructor where
  | notStarted
  | stopped
  | notified
  | returned
  deriving DecidableEq, Repr

/-- The pool, its users and its history. `enqueuers` are the threads outside of the pool that
call `enqueue`; `true` for one that has pushed and not notified yet. -/
structure Pool (τ : Type) where
  workers : List (Worker τ)
  enqueuers : List Bool
  tasks : List τ
  stop : Bool
  destructor : Destructor
  accepted : List τ
  started : List τ
  finished : List τ
  results : List (τ × Bool)

/-- `ThreadPool::maxQueueSize`. -/
def maxQueueSize : Nat := 1000

/-- A new pool: every worker is about to enter its loop. -/
def Pool.new (threadCount enqueuers : Nat) : Pool τ where
  workers := List.replicate threadCount .awake
  enqueuers := List.replicate enqueuers false
  tasks := []
  stop := false
  destructor := .notStarted
  accepted := []
  started := []
  finished := []
  results := []

/-! ## Critical sections

The code between the lock and the unlock, one definition for each function of the class. They are
total: whether a thread is in the place to enter its section is looked at in `step`.
-/

/-- The critical section of `ThreadPool::enqueue`: its result and the new queue. -/
def enqueueSection (tasks : List τ) (task : τ) : Bool × List τ :=
  if tasks.length ≥ maxQueueSize then (false, tasks) else (true, tasks ++ [task])

/-- The pool after the critical section of `enqueue`. -/
def Pool.push (s : Pool τ) (task : τ) : Pool τ :=
  { s with
    tasks := (enqueueSection s.tasks task).2
    accepted := if (enqueueSection s.tasks task).1 then s.accepted ++ [task] else s.accepted
    results := s.results ++ [(task, (enqueueSection s.tasks task).1)] }

/-- The predicate of `condition.wait`. -/
def mayProceed (stop : Bool) (tasks : List τ) : Bool := stop || !tasks.isEmpty

/-- The pool after the critical section of the worker `w`: it waits, exits, or takes a task
from the queue. -/
def Pool.workerSection (s : Pool τ) (w : Nat) : Pool τ :=
  if !mayProceed s.stop s.tasks then { s with workers := s.workers.set w .waiting }
  else
    match s.tasks with
    | [] => { s with workers := s.workers.set w .exited }
    | task :: rest =>
      { s with
        workers := s.workers.set w (.running task false)
        tasks := rest
        started := s.started ++ [task] }

/-- `notify_one`: one waiting worker wakes up, of the choice of the scheduler, or none if there
is none. -/
def Pool.notifyOne (s : Pool τ) : Option Nat → Option (Pool τ)
  | some v =>
    match s.workers[v]? with
    | some .waiting => some { s with workers := s.workers.set v .awake }
    | _ => none
  | none => if s.workers.any Worker.isWaiting then none else some s

/-! ## Steps -/

inductive Act (τ : Type) where
  | enqueue (i : Nat) (task : τ)
  | notify (i : Nat) (wakes : Option Nat)
  | workerSection (w : Nat)
  | spurious (w : Nat)
  | enqueueFrom (w : Nat) (task : τ)
  | notifyFrom (w : Nat) (wakes : Option Nat)
  | finish (w : Nat)
  | stop
  | notifyAll
  | join

/-- One step: of an outside thread, of a worker or the task it runs, or of the destructor. -/
def step (s : Pool τ) : Act τ → Option (Pool τ)
  | .enqueue i task =>
    match s.enqueuers[i]? with
    | some false =>
      some { s.push task with
        enqueuers := s.enqueuers.set i (enqueueSection s.tasks task).1 }
    | _ => none
  | .notify i wakes =>
    match s.enqueuers[i]? with
    | some true => Pool.notifyOne { s with enqueuers := s.enqueuers.set i false } wakes
    | _ => none
  | .workerSection w =>
    match s.workers[w]? with
    | some .awake => some (s.workerSection w)
    | _ => none
  | .spurious w =>
    match s.workers[w]? with
    | some .waiting => some { s with workers := s.workers.set w .awake }
    | _ => none
  | .enqueueFrom w task =>
    match s.workers[w]? with
    | some (.running t false) =>
      some { s.push task with
        workers := s.workers.set w (.running t (enqueueSection s.tasks task).1) }
    | _ => none
  | .notifyFrom w wakes =>
    match s.workers[w]? with
    | some (.running t true) =>
      Pool.notifyOne { s with workers := s.workers.set w (.running t false) } wakes
    | _ => none
  | .finish w =>
    match s.workers[w]? with
    | some (.running t false) =>
      some { s with workers := s.workers.set w .awake, finished := s.finished ++ [t] }
    | _ => none
  | .stop =>
    if s.destructor = .notStarted then some { s with stop := true, destructor := .stopped }
    else none
  | .notifyAll =>
    if s.destructor = .stopped then
      some { s with workers := s.workers.map Worker.wake, destructor := .notified }
    else none
  | .join =>
    if s.destructor = .notified ∧ s.workers.all Worker.isExited = true then
      some { s with destructor := .returned }
    else none

/-- The machine of the pools with `threadCount` workers, used by any number of threads. -/
def machine (τ : Type) (threadCount : Nat) : Machine (Pool τ) (Act τ) :=
  .ofStep (fun s => ∃ enqueuers, s = .new threadCount enqueuers) step

/-! ## What a step does

The workers and the outside threads enter the invariants through counts, so that a step is
described up to their order.
-/

/-- What `notify_one` does: a waiting worker wakes up, or there is none and nothing happens. -/
inductive NotifiesOne (s : Pool τ) : Pool τ → Prop
  | woken {ws : List (Worker τ)} : Replaces s.workers .waiting .awake ws →
      NotifiesOne s { s with workers := ws }
  | lost : (∀ w ∈ s.workers, w.isWaiting = false) → NotifiesOne s s

/-- What a step of the pool does, with what it finds in its hypotheses. A worker, or an outside
thread, that goes from one state to another is one element of its list that is replaced. -/
inductive Step (s : Pool τ) : Act τ → Pool τ → Prop
  | enqueue {i : Nat} {task : τ} {es : List Bool} :
      Replaces s.enqueuers false (enqueueSection s.tasks task).1 es →
      Step s (.enqueue i task) { s.push task with enqueuers := es }
  | notify {i : Nat} {wakes : Option Nat} {es : List Bool} {s' : Pool τ} :
      Replaces s.enqueuers true false es → NotifiesOne { s with enqueuers := es } s' →
      Step s (.notify i wakes) s'
  | waits {w : Nat} {ws : List (Worker τ)} : Replaces s.workers .awake .waiting ws →
      s.stop = false → s.tasks = [] → Step s (.workerSection w) { s with workers := ws }
  | exits {w : Nat} {ws : List (Worker τ)} : Replaces s.workers .awake .exited ws →
      s.stop = true → s.tasks = [] → Step s (.workerSection w) { s with workers := ws }
  | takes {w : Nat} {ws : List (Worker τ)} {task : τ} {rest : List τ} :
      Replaces s.workers .awake (.running task false) ws → s.tasks = task :: rest →
      Step s (.workerSection w)
        { s with workers := ws, tasks := rest, started := s.started ++ [task] }
  | spurious {w : Nat} {ws : List (Worker τ)} : Replaces s.workers .waiting .awake ws →
      Step s (.spurious w) { s with workers := ws }
  | enqueueFrom {w : Nat} {task t : τ} {ws : List (Worker τ)} :
      Replaces s.workers (.running t false) (.running t (enqueueSection s.tasks task).1) ws →
      Step s (.enqueueFrom w task) { s.push task with workers := ws }
  | notifyFrom {w : Nat} {wakes : Option Nat} {t : τ} {ws : List (Worker τ)} {s' : Pool τ} :
      Replaces s.workers (.running t true) (.running t false) ws →
      NotifiesOne { s with workers := ws } s' → Step s (.notifyFrom w wakes) s'
  | finish {w : Nat} {t : τ} {ws : List (Worker τ)} :
      Replaces s.workers (.running t false) .awake ws →
      Step s (.finish w) { s with workers := ws, finished := s.finished ++ [t] }
  | stop : s.destructor = .notStarted →
      Step s .stop { s with stop := true, destructor := .stopped }
  | notifyAll : s.destructor = .stopped →
      Step s .notifyAll { s with workers := s.workers.map Worker.wake, destructor := .notified }
  | join : s.destructor = .notified → (∀ w ∈ s.workers, w.isExited = true) →
      Step s .join { s with destructor := .returned }

theorem notifiesOne_of_eq {s s' : Pool τ} {wakes : Option Nat} (h : s.notifyOne wakes = some s') :
    NotifiesOne s s' := by
  cases wakes with
  | some v =>
      simp only [Pool.notifyOne] at h
      split at h
      · next hget =>
          obtain rfl := Option.some.inj h
          exact .woken (replaces_set _ hget)
      · cases h
  | none =>
      simp only [Pool.notifyOne] at h
      split_ifs at h with hany
      obtain rfl := Option.some.inj h
      refine .lost fun w hw => ?_
      rw [Bool.not_eq_true, List.any_eq_false] at hany
      exact Bool.eq_false_iff.mpr (hany w hw)

/-- The three outcomes of a worker's critical section. -/
theorem step_workerSection {s : Pool τ} {w : Nat} (hget : s.workers[w]? = some .awake) :
    Step s (.workerSection w) (s.workerSection w) := by
  obtain ⟨workers, enqueuers, tasks, stop, destructor, accepted, started, finished, results⟩ := s
  cases tasks with
  | nil =>
      cases stop with
      | false => exact .waits (replaces_set _ hget) rfl rfl
      | true => exact .exits (replaces_set _ hget) rfl rfl
  | cons task rest =>
      have hproceed : mayProceed stop (task :: rest) = true := Bool.or_true _
      unfold Pool.workerSection
      simp only [hproceed, Bool.not_true, Bool.false_eq_true, if_false]
      exact .takes (replaces_set _ hget) rfl

theorem step_cases {s s' : Pool τ} {a : Act τ} (h : step s a = some s') : Step s a s' := by
  cases a with
  | enqueue i task =>
      simp only [step] at h
      split at h
      · next hget =>
          obtain rfl := Option.some.inj h
          exact .enqueue (replaces_set _ hget)
      · cases h
  | notify i wakes =>
      simp only [step] at h
      split at h
      · next hget => exact .notify (replaces_set _ hget) (notifiesOne_of_eq h)
      · cases h
  | workerSection w =>
      simp only [step] at h
      split at h
      · next hget =>
          obtain rfl := Option.some.inj h
          exact step_workerSection hget
      · cases h
  | spurious w =>
      simp only [step] at h
      split at h
      · next hget =>
          obtain rfl := Option.some.inj h
          exact .spurious (replaces_set _ hget)
      · cases h
  | enqueueFrom w task =>
      simp only [step] at h
      split at h
      · next hget =>
          obtain rfl := Option.some.inj h
          exact .enqueueFrom (replaces_set _ hget)
      · cases h
  | notifyFrom w wakes =>
      simp only [step] at h
      split at h
      · next hget => exact .notifyFrom (replaces_set _ hget) (notifiesOne_of_eq h)
      · cases h
  | finish w =>
      simp only [step] at h
      split at h
      · next hget =>
          obtain rfl := Option.some.inj h
          exact .finish (replaces_set _ hget)
      · cases h
  | stop =>
      simp only [step] at h
      split_ifs at h with hstart
      obtain rfl := Option.some.inj h
      exact .stop hstart
  | notifyAll =>
      simp only [step] at h
      split_ifs at h with hstopped
      obtain rfl := Option.some.inj h
      exact .notifyAll hstopped
  | join =>
      simp only [step] at h
      split_ifs at h with hjoin
      obtain rfl := Option.some.inj h
      exact .join hjoin.1 fun w hw => List.all_eq_true.mp hjoin.2 w hw

end PacketForge.ThreadPool
