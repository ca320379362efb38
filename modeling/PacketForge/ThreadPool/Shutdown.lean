import PacketForge.ThreadPool.Wakeup

set_option autoImplicit false

/-! # The destructor returns

`ThreadPool::~ThreadPool` sets `stop`, notifies all workers and joins them. That it returns needs
two things. There is no deadlock: as long as it has not returned, a thread can go on that does not
wait for anything (`PoolInv.progress`). And the threads do not go on forever: every step uses up
what is `remaining`, and only a call of `enqueue` from a running task adds to it (`PoolInv.pays`).

A worker goes back to sleep only while `stop` is not set, so that a spurious wakeup uses something
up too.

## How the proof goes

* `Pool.remaining` prices the state. A worker owes up to three steps until it exits, by the place
  where it is; a queued task owes two, to be taken and to be finished; an outside thread that has
  pushed owes its notification; the destructor owes `notify_all` and `join`.
* `Act.income` prices what a step adds: a call of `enqueue` may add a task and a notification.
* `PoolInv.pays` is the one-step inequality: what remains after a step, and one more, is at most
  what remained before it and its income. The order of the threads plays no part in it. Summed up
  along a run (`Machine.Path.length_le`) it bounds the number of steps.
* `PoolInv.progress` finds the thread that goes on. After `notify_all` nobody is asleep
  (`WakeupInv.notified`), so a worker that has not exited is awake, runs a task or owes a
  notification, and has a step in each case; if all have exited, `join` returns.

What holds at the end is `TasksInv.drained`, once `PoolInv.joined` says that the destructor
returns only when all workers have exited.
-/

namespace PacketForge.ThreadPool

variable {τ : Type}

/-! ## What remains to be done

The prices are chosen so that each step is paid for by what it changes itself. A sleeping worker
is dearer than an awake one, since the wakeup is a step too.
-/

/-- The steps that a worker takes at most before it exits, the tasks that it finds in the queue
aside. -/
def Worker.remaining : Worker τ → Nat
  | awake => 1
  | waiting => 2
  | running _ notifying => if notifying then 3 else 2
  | exited => 0

def Destructor.remaining : Destructor → Nat
  | notStarted => 3
  | stopped => 2
  | notified => 1
  | returned => 0

/-- What remains to be done until the destructor has returned, as a number of steps: for each
queued task two, to be taken and to be finished, and for the workers, the outside threads and the
destructor what they owe. -/
def Pool.remaining (s : Pool τ) : Nat :=
  2 * s.tasks.length + (s.workers.map Worker.remaining).sum + s.enqueuers.countP id
    + s.destructor.remaining

/-- What a step adds to it. A task that is pushed is notified, taken and finished, and the push is a
step itself. -/
def Act.income (a : Act τ) : Nat := if a.enqueues.isSome then 4 else 0

theorem sum_income (as : List (Act τ)) :
    (as.map Act.income).sum = 4 * as.countP fun a => a.enqueues.isSome := by
  induction as with
  | nil => rfl
  | cons a as ih =>
      rw [List.map_cons, List.sum_cons, List.countP_cons, ih]
      unfold Act.income
      split_ifs <;> omega

theorem Worker.remaining_le (w : Worker τ) : w.remaining ≤ 3 := by
  cases w with
  | running t notifying => cases notifying <;> simp [Worker.remaining]
  | _ => simp [Worker.remaining]

theorem Worker.wake_remaining_le (w : Worker τ) : w.wake.remaining ≤ w.remaining := by
  cases w with
  | waiting => exact Nat.le_succ 1
  | _ => exact le_refl _

/-! ## The invariant

`PoolInv` puts the two invariants of the pool side by side; neither of them is proved again.
-/

/-- The invariants of the pool, side by side, and what `join` has waited for. -/
structure PoolInv (s : Pool τ) : Prop where
  tasks : TasksInv s
  wakeup : WakeupInv s
  joined : s.destructor = .returned → ∀ w ∈ s.workers, w.isExited = true

section

variable {s s' : Pool τ} {a : Act τ}

/-- A worker that has exited is not replaced. -/
theorem joined_of_replaces {d : Destructor} {w w' : Worker τ} {ws ws' : List (Worker τ)}
    (h : d = .returned → ∀ x ∈ ws, x.isExited = true) (hreplaces : Replaces ws w w' ws')
    (hw : w.isExited = false) : d = .returned → ∀ x ∈ ws', x.isExited = true := by
  intro hreturned
  rw [h hreturned w hreplaces.mem] at hw
  cases hw

theorem NotifiesOne.joined (hs : NotifiesOne s s')
    (h : s.destructor = .returned → ∀ w ∈ s.workers, w.isExited = true) :
    s'.destructor = .returned → ∀ w ∈ s'.workers, w.isExited = true := by
  cases hs with
  | woken hreplaces => exact joined_of_replaces h hreplaces rfl
  | lost _ => exact h

theorem Step.joined (hs : Step s a s')
    (h : s.destructor = .returned → ∀ w ∈ s.workers, w.isExited = true) :
    s'.destructor = .returned → ∀ w ∈ s'.workers, w.isExited = true := by
  cases hs with
  | enqueue _ => exact h
  | notify _ hnotifies => exact hnotifies.joined h
  | waits hreplaces _ _ => exact joined_of_replaces h hreplaces rfl
  | exits hreplaces _ _ => exact joined_of_replaces h hreplaces rfl
  | takes hreplaces _ => exact joined_of_replaces h hreplaces rfl
  | spurious hreplaces => exact joined_of_replaces h hreplaces rfl
  | enqueueFrom hreplaces => exact joined_of_replaces h hreplaces rfl
  | notifyFrom hreplaces hnotifies => exact hnotifies.joined (joined_of_replaces h hreplaces rfl)
  | finish hreplaces => exact joined_of_replaces h hreplaces rfl
  | stop _ => exact nofun
  | notifyAll _ => exact nofun
  | join _ hexited => exact fun _ => hexited

theorem Step.destructor (hs : Step s a s') (hd : s.destructor ≠ .notStarted) :
    s'.destructor ≠ .notStarted := by
  cases hs with
  | notify _ hone => cases hone <;> exact hd
  | notifyFrom _ hone => cases hone <;> exact hd
  | stop hstart => exact absurd hstart hd
  | notifyAll _ => exact nofun
  | join _ _ => exact nofun
  | _ => exact hd

theorem poolInv_step (h : PoolInv s) (hbefore : BeforeDestructor s a) (hs : Step s a s') :
    PoolInv s' :=
  ⟨tasksInv_step h.tasks hbefore hs, wakeupInv_step h.wakeup hs, hs.joined h.joined⟩

theorem reachable_poolInv {threadCount : Nat} (hpos : 0 < threadCount)
    (hs : ((machine τ threadCount).guarded BeforeDestructor).Reachable s) : PoolInv s := by
  refine Machine.invariant (M := (machine τ threadCount).guarded BeforeDestructor) PoolInv
    ?_ ?_ hs
  · rintro s ⟨enqueuers, rfl⟩
    exact ⟨new_tasksInv hpos enqueuers, new_wakeupInv threadCount enqueuers, nofun⟩
  · intro s a s' h hstep
    exact poolInv_step h hstep.1 (step_cases hstep.2)

/-- A notification wakes a worker or nobody. -/
theorem NotifiesOne.remaining_le (h : NotifiesOne s s') : s'.remaining ≤ s.remaining := by
  cases h with
  | woken hreplaces =>
      have hsum := hreplaces.sum_map Worker.remaining
      simp only [Worker.remaining] at hsum
      simp only [Pool.remaining]
      omega
  | lost _ => exact le_refl _

/-- **Every step uses something up.** What remains after a step of a pool that is being destroyed,
and the step itself, were there before it or came in with a call of `enqueue`. -/
theorem PoolInv.pays (h : PoolInv s) (hd : s.destructor ≠ .notStarted)
    (hbefore : BeforeDestructor s a) (hs : Step s a s') :
    s'.remaining + 1 ≤ s.remaining + a.income := by
  cases hs with
  | enqueue _ => exact absurd hbefore hd
  | @notify _ _ es _ hes hone =>
      have hcount := hes.countP id
      simp only [id, if_true, Bool.false_eq_true, if_false] at hcount
      have hone := hone.remaining_le
      simp only [Pool.remaining] at hone ⊢
      omega
  | waits _ hrunning _ =>
      rw [h.wakeup.stop.mpr hd] at hrunning
      cases hrunning
  | exits hreplaces _ _ =>
      have hsum := hreplaces.sum_map Worker.remaining
      simp only [Worker.remaining] at hsum
      simp only [Pool.remaining]
      omega
  | takes hreplaces htasks =>
      have hsum := hreplaces.sum_map Worker.remaining
      simp only [Worker.remaining, Bool.false_eq_true, if_false] at hsum
      simp only [Pool.remaining, htasks, List.length_cons]
      omega
  | spurious hreplaces =>
      have hsum := hreplaces.sum_map Worker.remaining
      simp only [Worker.remaining] at hsum
      simp only [Pool.remaining]
      omega
  | @enqueueFrom _ task t _ hreplaces =>
      have hsum := hreplaces.sum_map Worker.remaining
      have hlen := push_length s task
      have hother : (s.push task).enqueuers = s.enqueuers ∧
          (s.push task).destructor = s.destructor := ⟨rfl, rfl⟩
      simp only [Worker.remaining, Bool.false_eq_true, if_false] at hsum
      simp only [Pool.remaining, hlen, hother.1, hother.2, Act.income, Act.enqueues,
        Option.isSome_some, if_true]
      cases hpushed : (enqueueSection s.tasks task).1 <;>
        simp only [hpushed, if_true, Bool.false_eq_true, if_false] at hsum ⊢ <;> omega
  | notifyFrom hreplaces hone =>
      have hsum := hreplaces.sum_map Worker.remaining
      have hone := hone.remaining_le
      simp only [Worker.remaining, Bool.false_eq_true, if_false, if_true] at hsum
      simp only [Pool.remaining] at hone ⊢
      omega
  | finish hreplaces =>
      have hsum := hreplaces.sum_map Worker.remaining
      simp only [Worker.remaining, Bool.false_eq_true, if_false] at hsum
      simp only [Pool.remaining]
      omega
  | stop hstart => exact absurd hstart hd
  | notifyAll hstopped =>
      have hwake : ((s.workers.map Worker.wake).map Worker.remaining).sum
          ≤ (s.workers.map Worker.remaining).sum := by
        rw [List.map_map]
        exact List.sum_le_sum fun w _ => w.wake_remaining_le
      simp only [Pool.remaining, hstopped, Destructor.remaining]
      omega
  | join hnotified _ =>
      simp only [Pool.remaining, hnotified, Destructor.remaining]
      omega

/-- The pool never loses a worker, whatever the worker does. -/
theorem Step.workers_length (hs : Step s a s') : s'.workers.length = s.workers.length := by
  have hone : ∀ {t t' : Pool τ}, NotifiesOne t t' → t'.workers.length = t.workers.length := by
    intro t t' hone
    cases hone with
    | woken hreplaces => exact hreplaces.length_eq
    | lost _ => rfl
  cases hs with
  | notify _ hnotifies => exact (hone hnotifies).trans rfl
  | waits hreplaces _ _ => exact hreplaces.length_eq
  | exits hreplaces _ _ => exact hreplaces.length_eq
  | takes hreplaces _ => exact hreplaces.length_eq
  | spurious hreplaces => exact hreplaces.length_eq
  | enqueueFrom hreplaces => exact hreplaces.length_eq
  | notifyFrom hreplaces hnotifies => exact (hone hnotifies).trans hreplaces.length_eq
  | finish hreplaces => exact hreplaces.length_eq
  | notifyAll _ => exact List.length_map _
  | _ => rfl

/-- **No deadlock.** Until the destructor has returned, it can go on, or a worker can that is not
asleep, with a step that is no call of `enqueue`. -/
theorem PoolInv.progress (h : PoolInv s) (hstart : s.destructor ≠ .notStarted)
    (hd : s.destructor ≠ .returned) : ∃ a, a.enqueues = none ∧ (∀ w, a ≠ .spurious w) ∧
      (step s a).isSome = true := by
  cases hdestructor : s.destructor with
  | notStarted => exact absurd hdestructor hstart
  | stopped =>
      refine ⟨.notifyAll, rfl, fun _ heq => (by cases heq), ?_⟩
      rw [step, if_pos hdestructor]
      rfl
  | returned => exact absurd hdestructor hd
  | notified =>
      by_cases hexited : s.workers.all Worker.isExited = true
      · refine ⟨.join, rfl, fun _ heq => (by cases heq), ?_⟩
        rw [step, if_pos ⟨hdestructor, hexited⟩]
        rfl
      · obtain ⟨worker, hmem, hlive⟩ : ∃ worker ∈ s.workers, ¬ worker.isExited = true := by
          simpa using hexited
        obtain ⟨w, hget⟩ := List.getElem?_of_mem hmem
        have hnone : ∀ v ∈ s.workers, v.isWaiting = false := by
          have hnotified : s.destructor ≠ .stopped := by
            rw [hdestructor]
            decide
          have hzero := h.wakeup.notified (h.wakeup.stop.mpr hstart) hnotified
          intro v hv
          exact Bool.eq_false_iff.mpr (List.countP_eq_zero.mp hzero v hv)
        cases worker with
        | awake =>
            refine ⟨.workerSection w, rfl, fun _ heq => (by cases heq), ?_⟩
            simp only [step, hget, Option.isSome_some]
        | waiting => cases hnone _ hmem
        | exited => exact absurd rfl hlive
        | running t notifying =>
            cases notifying with
            | false =>
                refine ⟨.finish w, rfl, fun _ heq => (by cases heq), ?_⟩
                simp only [step, hget, Option.isSome_some]
            | true =>
                -- nobody waits, so that the notification is lost
                have hlost : (s.workers.set w (.running t false)).any Worker.isWaiting = false := by
                  rw [List.any_eq_false]
                  intro v hv
                  rcases List.mem_or_eq_of_mem_set hv with hold | rfl
                  · exact Bool.eq_false_iff.mp (hnone v hold)
                  · exact Bool.false_ne_true
                refine ⟨.notifyFrom w none, rfl, fun _ heq => (by cases heq), ?_⟩
                simp only [step, hget, Pool.notifyOne, hlost, Bool.false_eq_true, if_false,
                  Option.isSome_some]

end

/-! ## The result -/

/-- What remains is bounded by the queue, the workers, the notifications that outside threads owe,
and the destructor's own steps. -/
theorem remaining_le (s : Pool τ) (hd : s.destructor ≠ .notStarted) :
    s.remaining ≤ 2 * s.tasks.length + 3 * s.workers.length + s.enqueuers.countP id + 2 := by
  have hworkers : (s.workers.map Worker.remaining).sum ≤ s.workers.length * 3 := by
    have hsum := List.sum_le_card_nsmul (s.workers.map Worker.remaining) 3 (by
      intro n hn
      obtain ⟨w, -, rfl⟩ := List.mem_map.mp hn
      exact w.remaining_le)
    rwa [List.length_map, smul_eq_mul] at hsum
  have hdestructor : s.destructor.remaining ≤ 2 := by
    cases hcase : s.destructor with
    | notStarted => exact absurd hcase hd
    | _ => decide
  unfold Pool.remaining
  omega

/-- **The destructor returns.** Once the destructor has started, for a pool with at least one
worker whose outside threads do not enqueue any more: a run goes on for a number of steps that is
bounded by what is queued and running, the notifications that outside threads owe and the calls of
`enqueue` from the running tasks (the two steps of its own are `notify_all` and `join`), whatever
the scheduler does, spurious wakeups included; as long as the destructor has not returned, some
thread can take a step that is neither a spurious wakeup nor such a call; and when it has
returned, all workers have exited, the queue is empty and every accepted task has been executed
once. -/
theorem shutdown_completes {threadCount : Nat} (hpos : 0 < threadCount) {s s' : Pool τ}
    {as : List (Act τ)} (hs : ((machine τ threadCount).guarded BeforeDestructor).Reachable s)
    (hd : s.destructor ≠ .notStarted)
    (hp : ((machine τ threadCount).guarded BeforeDestructor).Path s as s') :
    as.length ≤ 2 * s.tasks.length + 3 * threadCount + s.enqueuers.countP id + 2
      + 4 * as.countP (fun a => a.enqueues.isSome) ∧
    (s'.destructor ≠ .returned → ∃ a, a.enqueues = none ∧ (∀ w, a ≠ .spurious w) ∧
      (step s' a).isSome = true) ∧
    (s'.destructor = .returned → (∀ w ∈ s'.workers, w.isExited = true) ∧ s'.tasks = [] ∧
      s'.started = s'.accepted ∧ s'.finished.Perm s'.accepted) := by
  have hworkers : s.workers.length = threadCount := by
    refine Machine.invariant (M := (machine τ threadCount).guarded BeforeDestructor)
      (fun s => s.workers.length = threadCount) ?_ ?_ hs
    · rintro s ⟨enqueuers, rfl⟩
      exact List.length_replicate
    · intro s a s' h hstep
      exact (step_cases hstep.2).workers_length.trans h
  have hinv := reachable_poolInv hpos hs
  have hstep : ∀ (s : Pool τ) (a : Act τ) (s' : Pool τ),
      PoolInv s ∧ s.destructor ≠ .notStarted →
      ((machine τ threadCount).guarded BeforeDestructor).step s a s' →
      PoolInv s' ∧ s'.destructor ≠ .notStarted := by
    rintro s a s' ⟨h, hd⟩ ⟨hbefore, hstep⟩
    exact ⟨poolInv_step h hbefore (step_cases hstep), (step_cases hstep).destructor hd⟩
  obtain ⟨hinv', hd'⟩ := hp.preserves hstep ⟨hinv, hd⟩
  refine ⟨?_, hinv'.progress hd', fun hreturned => ?_⟩
  · have hlength := hp.length_le Pool.remaining Act.income hstep
      (fun s a s' h ha => h.1.pays h.2 ha.1 (step_cases ha.2)) ⟨hinv, hd⟩
    have hremaining := remaining_le s hd
    rw [sum_income] at hlength
    omega
  · have hexited := hinv'.joined hreturned
    exact ⟨hexited, hinv'.tasks.drained hexited⟩

/-- Two workers, the end of the pool while a task runs that enqueues another one. -/
theorem shutdown_completes_enqueue :
    ∃ (s s' : Pool Nat) (as : List (Act Nat)),
      ((machine Nat 2).guarded BeforeDestructor).Reachable s ∧ s.destructor = .stopped ∧
      ((machine Nat 2).guarded BeforeDestructor).Path s as s' ∧ s'.destructor = .returned ∧
      as.length ≤ 12 ∧ s'.tasks = [] ∧ s'.finished.Perm s'.accepted := by
  have hstart : (Machine.executeGuarded BeforeDestructor step (Pool.new 2 1)
      [.workerSection 1, .enqueue 0 10, .workerSection 0, .notify 0 (some 1), .stop]).map
      (fun s => (s.destructor, s.tasks, s.enqueuers, (Machine.executeGuarded BeforeDestructor step s
        [.enqueueFrom 0 20, .notifyAll, .notifyFrom 0 none, .workerSection 1, .finish 0, .finish 1,
          .workerSection 0, .workerSection 1, .join]).map Pool.destructor))
      = some (.stopped, [], [false], some .returned) := by
    decide +kernel
  obtain ⟨s, hexecute, hresult⟩ := Option.map_eq_some_iff.mp hstart
  simp only [Prod.mk.injEq] at hresult
  obtain ⟨hstopped, htasks, henqueuers, hend⟩ := hresult
  obtain ⟨s', hexecute', hreturned⟩ := Option.map_eq_some_iff.mp hend
  have hs : ((machine Nat 2).guarded BeforeDestructor).Reachable s :=
    ⟨_, _, ⟨1, rfl⟩, Machine.path_of_executeGuarded hexecute⟩
  have hp : ((machine Nat 2).guarded BeforeDestructor).Path s _ s' :=
    Machine.path_of_executeGuarded hexecute'
  obtain ⟨hlength, -, hdrained⟩ :=
    shutdown_completes (by decide) hs (by rw [hstopped]; exact nofun) hp
  rw [htasks, henqueuers] at hlength
  obtain ⟨-, hempty, -, hfinished⟩ := hdrained hreturned
  exact ⟨s, s', _, hs, hstopped, hp, hreturned, hlength, hempty, hfinished⟩

end PacketForge.ThreadPool
