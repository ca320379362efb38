import PacketForge.ThreadPool.Pool

set_option autoImplicit false

/-! # Every accepted task runs exactly once

The queue is first-in first-out by construction; what needs an argument is that no accepted task
is left behind at shutdown. `TasksInv.stranded` is the reason: a task that is queued has a worker
that has not exited. A worker exits only when the queue is empty, and from then on a task can be
accepted only from a running task, whose worker comes back to the queue.

## How the proof goes

`TasksInv` is the invariant, and `tasksInv_step` goes through the steps once.

* What was accepted is what was started followed by what is queued (`fifo`), in this order. A push
  adds at the end on both sides, a worker that takes a task moves it from one list to the other.
* What was started is what was finished and what the workers run, up to order (`executed`): the
  workers finish when they like.
* A worker that has exited has seen `stop` (`exited`). Together with `notStarted` this keeps all
  workers in place before the destructor starts, so that an outside thread may push.
* `stranded` is needed at a push, and is given back at a push: before the destructor by `live`,
  from a running task by the worker that runs it.

At the end all workers have exited, so `stranded` says that the queue is empty, and `executed`
that everything was finished (`TasksInv.drained`).

The outside threads may not call `enqueue` once the destructor runs (`BeforeDestructor`): that is
what it means to destroy an object that nobody uses any more. The tasks may.
-/

namespace PacketForge.ThreadPool

variable {τ : Type}

/-! ## The bounded queue

The bound needs no invariant but itself, and holds without any assumption on who calls `enqueue`.
-/

/-- `enqueue` accepts its task unless the queue is full, and leaves a full queue alone. -/
theorem enqueueSection_cases (tasks : List τ) (task : τ) :
    (tasks.length < maxQueueSize ∧ enqueueSection tasks task = (true, tasks ++ [task])) ∨
      (maxQueueSize ≤ tasks.length ∧ enqueueSection tasks task = (false, tasks)) := by
  unfold enqueueSection
  rcases Nat.lt_or_ge tasks.length maxQueueSize with hlt | hge
  · left
    exact ⟨hlt, if_neg (not_le.mpr hlt)⟩
  · right
    exact ⟨hge, if_pos hge⟩

/-- A push into a queue with room, and a push into a full queue. -/
theorem push_cases (s : Pool τ) (task : τ) :
    (s.tasks.length < maxQueueSize ∧ s.push task = { s with
      tasks := s.tasks ++ [task]
      accepted := s.accepted ++ [task]
      results := s.results ++ [(task, true)] }) ∨
    (maxQueueSize ≤ s.tasks.length ∧ s.push task = { s with
      results := s.results ++ [(task, false)] }) := by
  unfold Pool.push
  rcases enqueueSection_cases s.tasks task with ⟨hlt, heq⟩ | ⟨hge, heq⟩
  · left
    rw [heq]
    exact ⟨hlt, rfl⟩
  · right
    rw [heq]
    exact ⟨hge, rfl⟩

theorem push_bounded {s : Pool τ} (h : s.tasks.length ≤ maxQueueSize) (task : τ) :
    (s.push task).tasks.length ≤ maxQueueSize := by
  rcases push_cases s task with ⟨hlt, heq⟩ | ⟨-, heq⟩
  · rw [heq, List.length_append, List.length_singleton]
    omega
  · rwa [heq]

theorem Step.bounded {s s' : Pool τ} {a : Act τ} (h : s.tasks.length ≤ maxQueueSize)
    (hs : Step s a s') : s'.tasks.length ≤ maxQueueSize := by
  cases hs with
  | @enqueue _ task _ _ => exact push_bounded h task
  | @enqueueFrom _ task _ _ _ => exact push_bounded h task
  | notify _ hone => cases hone <;> exact h
  | notifyFrom _ hone => cases hone <;> exact h
  | takes _ htasks =>
      rw [htasks, List.length_cons] at h
      exact Nat.le_of_succ_le h
  | _ => exact h

theorem reachable_bounded {threadCount : Nat} {s : Pool τ}
    (hs : (machine τ threadCount).Reachable s) : s.tasks.length ≤ maxQueueSize := by
  refine Machine.invariant (fun s => s.tasks.length ≤ maxQueueSize) ?_ ?_ hs
  · rintro s ⟨enqueuers, rfl⟩
    exact Nat.zero_le _
  · intro s a s' h hstep
    exact (step_cases hstep).bounded h

/-! ## The invariant

Each field is a fact about one part of the state; only `stranded` and `exited` are about what the
workers do with the queue.
-/

/-- The invariant of a pool whose outside threads do not enqueue once the destructor has started.
Its fields are the bound of the queue, the order of the tasks, what has become of them, and who is
left to run those that are queued. -/
structure TasksInv (s : Pool τ) : Prop where
  bounded : s.tasks.length ≤ maxQueueSize
  fifo : s.accepted = s.started ++ s.tasks
  executed : s.started.Perm (s.finished ++ s.workers.filterMap Worker.task?)
  workers : s.workers ≠ []
  notStarted : s.destructor = .notStarted → s.stop = false
  exited : ∀ w ∈ s.workers, w.isExited = true → s.stop = true
  stranded : s.tasks ≠ [] → ∃ w ∈ s.workers, w.isExited = false

theorem new_tasksInv {threadCount : Nat} (hpos : 0 < threadCount) (enqueuers : Nat) :
    TasksInv (Pool.new threadCount enqueuers : Pool τ) := by
  have hworkers : ∀ w ∈ (Pool.new threadCount enqueuers : Pool τ).workers, w = .awake := by
    intro w hw
    exact (List.mem_replicate.mp hw).2
  have htasks : (List.replicate threadCount (Worker.awake : Worker τ)).filterMap Worker.task?
      = [] := by
    rw [List.filterMap_eq_nil_iff]
    intro w hw
    rw [hworkers w hw]
    rfl
  constructor
  · exact Nat.zero_le _
  · rfl
  · show List.Perm [] ([] ++ (List.replicate threadCount Worker.awake).filterMap Worker.task?)
    rw [htasks]
    exact List.Perm.refl _
  · intro hnil
    have hlen : threadCount = 0 := by simpa [Pool.new] using hnil
    omega
  · exact fun _ => rfl
  · intro w hw hexited
    rw [hworkers w hw] at hexited
    cases hexited
  · exact fun hne => absurd rfl hne

section

variable {s s' : Pool τ} {ws : List (Worker τ)} {w w' : Worker τ}

/-- No worker exits when one goes to a state other than `exited`. -/
theorem TasksInv.exited_of_replaces (h : TasksInv s) (hreplaces : Replaces s.workers w w' ws)
    (hexited : w'.isExited = false) : ∀ x ∈ ws, x.isExited = true → s.stop = true := by
  intro x hx hxe
  rcases hreplaces.mem_cases hx with rfl | hold
  · rw [hexited] at hxe
    cases hxe
  · exact h.exited x hold hxe

/-- A worker that goes from one state to another, runs the same task or none in both, and does
not exit. -/
theorem TasksInv.worker (h : TasksInv s) (hreplaces : Replaces s.workers w w' ws)
    (htask : w'.task? = w.task?) (hexited : w'.isExited = false) :
    TasksInv { s with workers := ws } := by
  have hperm : (ws.filterMap Worker.task?).Perm (s.workers.filterMap Worker.task?) := by
    have hfilter := hreplaces.filterMap Worker.task?
    rw [htask] at hfilter
    exact (List.perm_append_right_iff _).mp hfilter
  constructor
  · exact h.bounded
  · exact h.fifo
  · exact h.executed.trans (hperm.symm.append_left _)
  · exact List.ne_nil_of_mem hreplaces.mem_new
  · exact h.notStarted
  · exact h.exited_of_replaces hreplaces hexited
  · exact fun _ => ⟨w', hreplaces.mem_new, hexited⟩

theorem TasksInv.notifiesOne (h : TasksInv s) (hs : NotifiesOne s s') : TasksInv s' := by
  cases hs with
  | woken hreplaces => exact h.worker hreplaces rfl rfl
  | lost _ => exact h

/-- A push, by a thread that can show a worker that has not exited. -/
theorem TasksInv.push (h : TasksInv s) (task : τ) (hlive : ∃ w ∈ s.workers, w.isExited = false) :
    TasksInv (s.push task) := by
  rcases push_cases s task with ⟨hlt, heq⟩ | ⟨-, heq⟩
  · rw [heq]
    constructor
    · show (s.tasks ++ [task]).length ≤ maxQueueSize
      rw [List.length_append, List.length_singleton]
      omega
    · show s.accepted ++ [task] = s.started ++ (s.tasks ++ [task])
      rw [h.fifo, List.append_assoc]
    · exact h.executed
    · exact h.workers
    · exact h.notStarted
    · exact h.exited
    · exact fun _ => hlive
  · rw [heq]
    exact ⟨h.bounded, h.fifo, h.executed, h.workers, h.notStarted, h.exited, h.stranded⟩

/-- Before the destructor has started, no worker has exited. -/
theorem TasksInv.live (h : TasksInv s) (hstop : s.stop = false) :
    ∃ w ∈ s.workers, w.isExited = false := by
  obtain ⟨w, hw⟩ := List.exists_mem_of_ne_nil s.workers h.workers
  refine ⟨w, hw, ?_⟩
  cases hexited : w.isExited with
  | false => rfl
  | true => exact absurd (h.exited w hw hexited) (by rw [hstop]; decide)

/-- Outside threads enqueue only before the destructor has started: the object is not used any
more when it is destroyed. Running tasks may go on enqueuing. -/
def BeforeDestructor (s : Pool τ) : Act τ → Prop
  | .enqueue _ _ => s.destructor = .notStarted
  | _ => True

/-- **Every step preserves the invariant.** The cases are those of `Step`; only a push and the
exit of a worker have something to show for `stranded`. -/
theorem tasksInv_step {a : Act τ} (h : TasksInv s) (hbefore : BeforeDestructor s a)
    (hs : Step s a s') : TasksInv s' := by
  cases hs with
  | @enqueue i task es hes =>
      have hpush := h.push task (h.live (h.notStarted hbefore))
      exact ⟨hpush.bounded, hpush.fifo, hpush.executed, hpush.workers, hpush.notStarted,
        hpush.exited, hpush.stranded⟩
  | @notify i wakes es s' hes hone =>
      have hes' : TasksInv { s with enqueuers := es } := ⟨h.bounded, h.fifo, h.executed, h.workers,
        h.notStarted, h.exited, h.stranded⟩
      exact hes'.notifiesOne hone
  | waits hreplaces _ _ => exact h.worker hreplaces rfl rfl
  | @exits w ws hreplaces hstop htasks =>
      -- the queue is empty, so that nothing is left behind
      have hperm : (ws.filterMap Worker.task?).Perm (s.workers.filterMap Worker.task?) :=
        (List.perm_append_right_iff _).mp (hreplaces.filterMap Worker.task?)
      constructor
      · exact h.bounded
      · exact h.fifo
      · exact h.executed.trans (hperm.symm.append_left _)
      · exact List.ne_nil_of_mem hreplaces.mem_new
      · exact h.notStarted
      · exact fun _ _ _ => hstop
      · exact fun hne => absurd htasks hne
  | @takes w ws task rest hreplaces htasks =>
      -- the first task of the queue is the next one that starts
      have hperm : (ws.filterMap Worker.task?).Perm
          (s.workers.filterMap Worker.task? ++ [task]) := by
        have hfilter := hreplaces.filterMap Worker.task?
        rwa [show (Worker.awake : Worker τ).task? = none from rfl, Option.toList_none,
          List.append_nil] at hfilter
      constructor
      · show rest.length ≤ maxQueueSize
        have hbound := h.bounded
        rw [htasks, List.length_cons] at hbound
        omega
      · show s.accepted = (s.started ++ [task]) ++ rest
        rw [h.fifo, htasks, List.append_assoc]
        rfl
      · show (s.started ++ [task]).Perm (s.finished ++ ws.filterMap Worker.task?)
        have hstarted := h.executed.append_right [task]
        rw [List.append_assoc] at hstarted
        calc
          List.Perm (s.started ++ [task])
              (s.finished ++ (s.workers.filterMap Worker.task? ++ [task])) := hstarted
          List.Perm _ (s.finished ++ ws.filterMap Worker.task?) := hperm.symm.append_left _
      · exact List.ne_nil_of_mem hreplaces.mem_new
      · exact h.notStarted
      · exact h.exited_of_replaces hreplaces rfl
      · exact fun _ => ⟨_, hreplaces.mem_new, rfl⟩
  | spurious hreplaces => exact h.worker hreplaces rfl rfl
  | @enqueueFrom w task t ws hreplaces =>
      -- the worker that runs the task has not exited
      have hpush := h.push task ⟨_, hreplaces.mem, rfl⟩
      exact hpush.worker hreplaces rfl rfl
  | @notifyFrom w wakes t ws s' hreplaces hone =>
      exact (h.worker hreplaces rfl rfl).notifiesOne hone
  | @finish w t ws hreplaces =>
      -- the task goes from the workers to the finished ones
      have hperm : (ws.filterMap Worker.task? ++ [t]).Perm (s.workers.filterMap Worker.task?) := by
        have hfilter := hreplaces.filterMap Worker.task?
        rwa [show (Worker.awake : Worker τ).task? = none from rfl, Option.toList_none,
          List.append_nil] at hfilter
      constructor
      · exact h.bounded
      · exact h.fifo
      · show s.started.Perm ((s.finished ++ [t]) ++ ws.filterMap Worker.task?)
        rw [List.append_assoc]
        calc
          List.Perm s.started (s.finished ++ s.workers.filterMap Worker.task?) := h.executed
          List.Perm _ (s.finished ++ (ws.filterMap Worker.task? ++ [t])) :=
            hperm.symm.append_left _
          List.Perm _ (s.finished ++ ([t] ++ ws.filterMap Worker.task?)) :=
            List.perm_append_comm.append_left _
      · exact List.ne_nil_of_mem hreplaces.mem_new
      · exact h.notStarted
      · exact h.exited_of_replaces hreplaces rfl
      · exact fun _ => ⟨_, hreplaces.mem_new, rfl⟩
  | stop _ =>
      constructor
      · exact h.bounded
      · exact h.fifo
      · exact h.executed
      · exact h.workers
      · exact fun hstart => by cases hstart
      · exact fun _ _ _ => rfl
      · exact h.stranded
  | notifyAll hstopped =>
      -- waking changes neither the task of a worker nor whether it has exited
      have htask : ∀ w : Worker τ, w.wake.task? = w.task? := by
        intro w
        cases w <;> rfl
      have hexited : ∀ w : Worker τ, w.wake.isExited = w.isExited := by
        intro w
        cases w <;> rfl
      have hmap : (s.workers.map Worker.wake).filterMap Worker.task?
          = s.workers.filterMap Worker.task? := by
        rw [List.filterMap_map]
        exact List.filterMap_congr fun w _ => htask w
      constructor
      · exact h.bounded
      · exact h.fifo
      · show s.started.Perm (s.finished ++ (s.workers.map Worker.wake).filterMap Worker.task?)
        rw [hmap]
        exact h.executed
      · exact fun hnil => h.workers (List.map_eq_nil_iff.mp hnil)
      · exact fun hstart => by cases hstart
      · intro w hw hwe
        obtain ⟨v, hv, rfl⟩ := List.mem_map.mp hw
        rw [hexited] at hwe
        exact h.exited v hv hwe
      · intro hne
        obtain ⟨v, hv, hve⟩ := h.stranded hne
        exact ⟨v.wake, List.mem_map_of_mem hv, by rw [hexited, hve]⟩
  | join hnotified _ =>
      exact ⟨h.bounded, h.fifo, h.executed, h.workers, (fun hstart => by cases hstart), h.exited,
        h.stranded⟩

end

/-! ## The result -/

/-- The calls of `enqueue`, from an outside thread or from a running task. -/
def Act.enqueues : Act τ → Option τ
  | .enqueue _ task => some task
  | .enqueueFrom _ task => some task
  | _ => none

theorem step_enqueues {s s' : Pool τ} {a : Act τ} {task : τ} (ha : a.enqueues = some task)
    (hs : Step s a s') : s'.tasks = (s.push task).tasks ∧ s'.accepted = (s.push task).accepted ∧
      s'.results = (s.push task).results := by
  cases hs with
  | enqueue _ =>
      obtain rfl := Option.some.inj ha
      exact ⟨rfl, rfl, rfl⟩
  | enqueueFrom _ =>
      obtain rfl := Option.some.inj ha
      exact ⟨rfl, rfl, rfl⟩
  | _ => cases ha

/-- When the workers have exited, nothing is left to be done: the queue is empty, and the accepted
tasks are those that were finished, each once. -/
theorem TasksInv.drained {s : Pool τ} (h : TasksInv s)
    (hexited : ∀ w ∈ s.workers, w.isExited = true) :
    s.tasks = [] ∧ s.started = s.accepted ∧ s.finished.Perm s.accepted := by
  -- a task that is left has a worker that did not exit
  have htasks : s.tasks = [] := by
    by_contra hne
    obtain ⟨w, hw, hlive⟩ := h.stranded hne
    rw [hexited w hw] at hlive
    cases hlive
  have hnone : s.workers.filterMap Worker.task? = [] := by
    rw [List.filterMap_eq_nil_iff]
    intro w hw
    have hw := hexited w hw
    cases w with
    | exited => rfl
    | _ => cases hw
  have hstarted : s.started = s.accepted := by rw [h.fifo, htasks, List.append_nil]
  have hexecuted := h.executed
  rw [hnone, List.append_nil, hstarted] at hexecuted
  exact ⟨htasks, hstarted, hexecuted.symm⟩

/-- **Every accepted task runs exactly once, in order, from a bounded queue.** For a pool with at
least one worker, in every reachable state: the queue holds at most 1000 tasks; a call of
`enqueue` returns `true` and adds its task, or returns `false` because the queue holds 1000, and
changes nothing; the accepted tasks are those that were started followed by those that are
queued; and when all workers have exited, which the destructor waits for, the queue is empty
and every accepted task has been executed once. -/
theorem accepted_tasks_executed {threadCount : Nat} (hpos : 0 < threadCount) {s : Pool τ}
    (hs : ((machine τ threadCount).guarded BeforeDestructor).Reachable s) :
    s.tasks.length ≤ 1000 ∧
    (∀ a task s', a.enqueues = some task → step s a = some s' →
      (s'.results = s.results ++ [(task, true)] ∧ s.tasks.length < 1000 ∧
        s'.tasks = s.tasks ++ [task] ∧ s'.accepted = s.accepted ++ [task]) ∨
      (s'.results = s.results ++ [(task, false)] ∧ s.tasks.length = 1000 ∧
        s'.tasks = s.tasks ∧ s'.accepted = s.accepted)) ∧
    s.accepted = s.started ++ s.tasks ∧
    (s.accepted.Nodup → s.started.Nodup) ∧
    ((∀ w ∈ s.workers, w.isExited = true) →
      s.tasks = [] ∧ s.started = s.accepted ∧ s.finished.Perm s.accepted) ∧
    (∀ s', step s .join = some s' → ∀ w ∈ s.workers, w.isExited = true) := by
  have hinv : TasksInv s := by
    refine Machine.invariant (M := (machine τ threadCount).guarded BeforeDestructor) TasksInv
      ?_ ?_ hs
    · rintro s ⟨enqueuers, rfl⟩
      exact new_tasksInv hpos enqueuers
    · intro s a s' h hstep
      exact tasksInv_step h hstep.1 (step_cases hstep.2)
  refine ⟨hinv.bounded, ?_, hinv.fifo, ?_, ?_, ?_⟩
  · intro a task s' ha hstep
    obtain ⟨htasks, haccepted, hresults⟩ := step_enqueues ha (step_cases hstep)
    rw [htasks, haccepted, hresults]
    rcases push_cases s task with ⟨hlt, heq⟩ | ⟨hge, heq⟩
    · rw [heq]
      exact .inl ⟨rfl, hlt, rfl, rfl⟩
    · rw [heq]
      exact .inr ⟨rfl, le_antisymm hinv.bounded hge, rfl, rfl⟩
  · intro hnodup
    rw [hinv.fifo] at hnodup
    exact (List.nodup_append.mp hnodup).1
  · exact hinv.drained
  · intro s' hstep
    cases step_cases hstep with
    | join _ hexited => exact hexited

instance (s : Pool τ) (a : Act τ) : Decidable (BeforeDestructor s a) := by
  cases a <;> unfold BeforeDestructor <;> infer_instance

/-- Two workers, a task that enqueues another one after `stop`, and the end of the pool. -/
theorem accepted_tasks_executed_shutdown :
    ∃ s, ((machine Nat 2).guarded BeforeDestructor).Reachable s ∧ s.accepted = [10, 20] ∧
      s.tasks = [] ∧ s.finished.Perm [10, 20] := by
  have hrun : (Machine.executeGuarded BeforeDestructor step (Pool.new 2 1)
      [.workerSection 1, .enqueue 0 10, .workerSection 0, .notify 0 (some 1), .stop,
        .enqueueFrom 0 20, .notifyAll, .notifyFrom 0 none, .workerSection 1, .finish 0, .finish 1,
        .workerSection 0, .workerSection 1]).map
      (fun s => (s.accepted, s.workers.all Worker.isExited)) = some ([10, 20], true) := by
    decide +kernel
  obtain ⟨s, hexecute, hresult⟩ := Option.map_eq_some_iff.mp hrun
  rw [Prod.mk.injEq, List.all_eq_true] at hresult
  obtain ⟨haccepted, hexited⟩ := hresult
  have hs : ((machine Nat 2).guarded BeforeDestructor).Reachable s :=
    ⟨_, _, ⟨1, rfl⟩, Machine.path_of_executeGuarded hexecute⟩
  obtain ⟨htasks, -, hfinished⟩ := (accepted_tasks_executed (by decide) hs).2.2.2.2.1 hexited
  rw [haccepted] at hfinished
  exact ⟨s, hs, haccepted, htasks, hfinished⟩

end PacketForge.ThreadPool
