import PacketForge.ThreadPool.Tasks

set_option autoImplicit false

/-! # No lost wakeup

`enqueue` notifies after it has released the mutex, so that its notification races with workers
that go to sleep. The invariant counts: while a worker waits, every queued task is matched by a
notification that is still to come or by a worker that is awake and will test the predicate. A
worker goes to sleep only when the queue is empty; a notification that is not lost turns a waiting
worker into an awake one; an awake worker stops being one by taking a task.

## How the proof goes

The list of workers enters the invariant through three counts (`waiting`, `awake`, `pending`), so
a step is first translated into what it does to these (`replaces_counts`), and what is left is
arithmetic. `WakeupInv.matched` is `tasks ≤ pending + awake`, and each step keeps it for a reason:

* a push adds a task and a pending notification;
* `notify_one` takes a pending notification away, and either wakes a worker, which is awake from
  then on, or finds nobody waiting, and then there is nothing to show;
* an awake worker that takes a task takes one from both sides, and one that finds the queue empty
  goes to sleep when there is nothing to match;
* the end of a task and a spurious wakeup add to the right side only.

The destructor sets `stop` under the mutex and notifies all workers afterwards. In between, a
worker may sleep although `stop` is set (`Destructor.stopped`); from `notify_all` on nobody waits
(`notified`), because a worker that finds `stop` does not go to sleep.
-/

namespace PacketForge.ThreadPool

variable {τ : Type}

/-! ## Counts

A running task whose push is not notified yet counts as a pending notification, exactly like an
outside thread in this place.
-/

namespace Pool

/-- The number of workers that wait on the condition variable. -/
def waiting (s : Pool τ) : Nat := s.workers.countP Worker.isWaiting

/-- The number of workers that are about to test the predicate, because they have entered the loop
or were woken. -/
def awake (s : Pool τ) : Nat := s.workers.countP Worker.isAwake

/-- The number of pushes whose `notify_one` is still to come, of outside threads and of running
tasks. -/
def pending (s : Pool τ) : Nat := s.enqueuers.countP id + s.workers.countP Worker.isNotifying

end Pool

/-! ## The invariant -/

/-- The invariant: while a worker waits, the queued tasks are matched by pending notifications and
awake workers, and nobody waits once `notify_all` was issued after `stop`. In between, when `stop`
is set and `notify_all` is still to come, nothing is said. -/
structure WakeupInv (s : Pool τ) : Prop where
  matched : 0 < s.waiting → s.destructor ≠ .stopped → s.tasks.length ≤ s.pending + s.awake
  notified : s.stop = true → s.destructor ≠ .stopped → s.waiting = 0
  stop : s.stop = true ↔ s.destructor ≠ .notStarted

theorem new_wakeupInv (threadCount enqueuers : Nat) :
    WakeupInv (Pool.new threadCount enqueuers : Pool τ) := by
  constructor
  · exact fun _ _ => Nat.zero_le _
  · exact fun hstop => by cases hstop
  · exact iff_of_false Bool.false_ne_true (fun hne => hne rfl)

section

variable {s s' : Pool τ}

/-- How the counts change when a worker goes from `w` to `w'`. -/
theorem replaces_counts {w w' : Worker τ} {ws : List (Worker τ)}
    (h : Replaces s.workers w w' ws) :
    (ws.countP Worker.isWaiting + (if w.isWaiting then 1 else 0)
      = s.waiting + if w'.isWaiting then 1 else 0) ∧
    (ws.countP Worker.isAwake + (if w.isAwake then 1 else 0)
      = s.awake + if w'.isAwake then 1 else 0) ∧
    (ws.countP Worker.isNotifying + (if w.isNotifying then 1 else 0)
      = s.workers.countP Worker.isNotifying + if w'.isNotifying then 1 else 0) :=
  ⟨h.countP _, h.countP _, h.countP _⟩

/-- `notify_one`, in a pool whose queued tasks are matched when this notification is counted. -/
theorem wakeupInv_notifiesOne (h : NotifiesOne s s')
    (hmatched : 0 < s.waiting → s.destructor ≠ .stopped →
      s.tasks.length ≤ s.pending + 1 + s.awake)
    (hnotified : s.stop = true → s.destructor ≠ .stopped → s.waiting = 0)
    (hstop : s.stop = true ↔ s.destructor ≠ .notStarted) : WakeupInv s' := by
  cases h with
  | @woken ws hreplaces =>
      obtain ⟨hw, ha, hn⟩ := replaces_counts hreplaces
      simp only [Worker.isWaiting, Worker.isAwake, Worker.isNotifying, if_true, if_false,
        Bool.false_eq_true] at hw ha hn
      have hpos : 0 < s.waiting := by omega
      constructor
      · intro _ hd
        show s.tasks.length ≤ s.enqueuers.countP id + ws.countP Worker.isNotifying
          + ws.countP Worker.isAwake
        have hq := hmatched hpos hd
        unfold Pool.pending at hq
        omega
      · intro hs hd
        exact absurd (hnotified hs hd) (by omega)
      · exact hstop
  | lost hnone =>
      have hzero : s.waiting = 0 := by
        unfold Pool.waiting
        rw [List.countP_eq_zero]
        intro w hw
        rw [hnone w hw]
        exact Bool.false_ne_true
      constructor
      · intro hpos _
        omega
      · exact fun _ _ => hzero
      · exact hstop

/-- A pool after a push whose notification is still to come. -/
theorem push_length (s : Pool τ) (task : τ) :
    (s.push task).tasks.length = s.tasks.length
      + if (enqueueSection s.tasks task).1 then 1 else 0 := by
  show (enqueueSection s.tasks task).2.length = _
  rcases enqueueSection_cases s.tasks task with ⟨-, heq⟩ | ⟨-, heq⟩
  · rw [heq]
    exact List.length_append
  · rw [heq]
    rfl

/-- A worker that does not wait goes on without waiting. -/
theorem WakeupInv.of_worker {w w' : Worker τ} (h : WakeupInv s)
    (hreplaces : Replaces s.workers w w' s'.workers) (hw : w.isWaiting = false)
    (hw' : w'.isWaiting = false) (hstop : s'.stop = s.stop)
    (hdestructor : s'.destructor = s.destructor)
    (hmatched : s.tasks.length ≤ s.pending + s.awake →
      s'.tasks.length ≤ s'.pending + s'.awake) : WakeupInv s' := by
  have hwaiting : s'.waiting = s.waiting := by
    have hcount := hreplaces.countP Worker.isWaiting
    rwa [hw, hw', Nat.add_right_cancel_iff] at hcount
  constructor
  · intro hpos hd
    rw [hwaiting] at hpos
    rw [hdestructor] at hd
    exact hmatched (h.matched hpos hd)
  · rw [hwaiting, hstop, hdestructor]
    exact h.notified
  · rw [hstop, hdestructor]
    exact h.stop

/-- **Every step preserves the invariant.** In each case the counts before and after it are
compared. -/
theorem wakeupInv_step {a : Act τ} (h : WakeupInv s) (hs : Step s a s') : WakeupInv s' := by
  cases hs with
  | @enqueue i task es hes =>
      -- one more task, and one more notification to come
      have hcount := hes.countP id
      have hlen := push_length s task
      simp only [id, Bool.false_eq_true, if_false] at hcount
      constructor
      · intro hw hd
        have hq := h.matched hw hd
        show (s.push task).tasks.length ≤ es.countP id + s.workers.countP Worker.isNotifying
          + s.awake
        unfold Pool.pending at hq
        omega
      · exact h.notified
      · exact h.stop
  | @notify i wakes es s' hes hone =>
      have hcount := hes.countP id
      simp only [id, Bool.false_eq_true, if_false, if_true] at hcount
      refine wakeupInv_notifiesOne hone (fun hw hd => ?_) h.notified h.stop
      have hq := h.matched hw hd
      show s.tasks.length ≤ es.countP id + s.workers.countP Worker.isNotifying + 1 + s.awake
      unfold Pool.pending at hq
      omega
  | @waits w ws hreplaces hrunning htasks =>
      -- a worker goes to sleep when there is nothing queued and no stop
      constructor
      · intro _ _
        show s.tasks.length ≤ _
        rw [htasks]
        exact Nat.zero_le _
      · intro hs _
        exact absurd (hrunning.symm.trans hs) Bool.false_ne_true
      · exact h.stop
  | @exits w ws hreplaces hstopped htasks =>
      refine h.of_worker hreplaces rfl rfl rfl rfl fun _ => ?_
      show s.tasks.length ≤ _
      rw [htasks]
      exact Nat.zero_le _
  | @takes w ws task rest hreplaces htasks =>
      -- one task and one awake worker less
      obtain ⟨-, ha, hn⟩ := replaces_counts hreplaces
      simp only [Worker.isAwake, Worker.isNotifying, Bool.false_eq_true, if_false, if_true] at ha hn
      refine h.of_worker hreplaces rfl rfl rfl rfl fun hq => ?_
      show rest.length ≤ s.enqueuers.countP id + ws.countP Worker.isNotifying
        + ws.countP Worker.isAwake
      rw [htasks, List.length_cons] at hq
      unfold Pool.pending at hq
      omega
  | spurious hreplaces =>
      refine wakeupInv_notifiesOne (.woken hreplaces) (fun hw hd => ?_) h.notified h.stop
      have hq := h.matched hw hd
      omega
  | @enqueueFrom w task t ws hreplaces =>
      -- as for `enqueue`, with the worker's own notification to come
      obtain ⟨-, ha, hn⟩ := replaces_counts hreplaces
      have hlen := push_length s task
      simp only [Worker.isAwake, Worker.isNotifying, Bool.false_eq_true, if_false] at ha hn
      refine h.of_worker hreplaces rfl rfl rfl rfl fun hq => ?_
      show (s.push task).tasks.length ≤ s.enqueuers.countP id + ws.countP Worker.isNotifying
        + ws.countP Worker.isAwake
      unfold Pool.pending at hq
      rw [hlen]
      cases hpushed : (enqueueSection s.tasks task).1 <;>
        simp only [hpushed, Bool.false_eq_true, if_false, if_true] at hn ⊢ <;> omega
  | @notifyFrom w wakes t ws s' hreplaces hone =>
      obtain ⟨hw, ha, hn⟩ := replaces_counts hreplaces
      simp only [Worker.isWaiting, Worker.isAwake, Worker.isNotifying, Bool.false_eq_true, if_false,
        if_true, Nat.add_zero] at hw ha hn
      refine wakeupInv_notifiesOne hone (fun hpos hd => ?_) (fun hs hd => ?_) h.stop
      · have hq := h.matched (hw ▸ hpos) hd
        show s.tasks.length ≤ s.enqueuers.countP id + ws.countP Worker.isNotifying + 1
          + ws.countP Worker.isAwake
        unfold Pool.pending at hq
        omega
      · exact hw.trans (h.notified hs hd)
  | @finish w t ws hreplaces =>
      obtain ⟨-, ha, hn⟩ := replaces_counts hreplaces
      simp only [Worker.isAwake, Worker.isNotifying, Bool.false_eq_true, if_false, if_true] at ha hn
      refine h.of_worker hreplaces rfl rfl rfl rfl fun hq => ?_
      show s.tasks.length ≤ s.enqueuers.countP id + ws.countP Worker.isNotifying
        + ws.countP Worker.isAwake
      unfold Pool.pending at hq
      omega
  | stop _ =>
      -- until `notify_all`, nothing is promised
      constructor
      · exact fun _ hd => absurd rfl hd
      · exact fun _ hd => absurd rfl hd
      · exact iff_of_true rfl nofun
  | notifyAll hstopped =>
      have hzero : (s.workers.map Worker.wake).countP Worker.isWaiting = 0 := by
        rw [List.countP_map, List.countP_eq_zero]
        intro w _
        cases w <;> exact Bool.false_ne_true
      constructor
      · intro hpos _
        have hpos : 0 < (s.workers.map Worker.wake).countP Worker.isWaiting := hpos
        omega
      · exact fun _ _ => hzero
      · exact iff_of_true (h.stop.mpr (by rw [hstopped]; exact nofun)) nofun
  | join hd _ =>
      have hd' : s.destructor ≠ .stopped := by
        rw [hd]
        exact nofun
      constructor
      · exact fun hpos _ => h.matched hpos hd'
      · exact fun hs _ => h.notified hs hd'
      · exact iff_of_true (h.stop.mpr (by rw [hd]; exact nofun)) nofun

end

/-! ## The result -/

/-- **No lost wakeup.** In every reachable state, for any number of workers and of threads that
enqueue: while a worker waits and no `notify_all` is pending, the queued tasks are at most as
many as the pushes whose notification is pending and the awake workers; once `stop` is set and
`notify_all` has been issued, no worker waits. Hence no worker waits beside a queued task or a
set `stop` when nobody is awake or running and no notification is pending. -/
theorem no_lost_wakeup {threadCount : Nat} {s : Pool τ}
    (hs : (machine τ threadCount).Reachable s) :
    (0 < s.waiting → s.destructor ≠ .stopped → s.tasks.length ≤ s.pending + s.awake) ∧
    (s.stop = true → s.destructor ≠ .stopped → s.waiting = 0) ∧
    ¬ (0 < s.waiting ∧ (s.tasks ≠ [] ∨ s.stop = true) ∧ s.awake = 0 ∧
      (∀ w ∈ s.workers, w.task? = none) ∧ s.pending = 0 ∧ s.destructor ≠ .stopped) := by
  have hinv : WakeupInv s := by
    refine Machine.invariant (M := machine τ threadCount) WakeupInv ?_ ?_ hs
    · rintro s ⟨enqueuers, rfl⟩
      exact new_wakeupInv threadCount enqueuers
    · intro s a s' h hstep
      exact wakeupInv_step h (step_cases hstep)
  refine ⟨hinv.matched, hinv.notified, ?_⟩
  rintro ⟨hpos, hreason, hawake, -, hpending, hd⟩
  rcases hreason with htasks | hstop
  · have hq := hinv.matched hpos hd
    have hlen := List.length_pos_of_ne_nil htasks
    omega
  · have hzero := hinv.notified hstop hd
    omega

/-- A worker sleeps, and the task pushed meanwhile is matched by the pending notification. -/
theorem no_lost_wakeup_race :
    ∃ s, (machine Nat 2).Reachable s ∧ s.waiting = 1 ∧ s.tasks = [10] ∧
      s.tasks.length ≤ s.pending + s.awake := by
  have hrun : (Machine.execute step (Pool.new 2 1)
      [.workerSection 0, .enqueue 0 10]).map
      (fun s => (s.waiting, s.tasks, s.destructor)) = some (1, [10], .notStarted) := by
    decide +kernel
  obtain ⟨s, hexecute, hresult⟩ := Option.map_eq_some_iff.mp hrun
  rw [Prod.mk.injEq, Prod.mk.injEq] at hresult
  obtain ⟨hwaiting, htasks, hd⟩ := hresult
  have hs : (machine Nat 2).Reachable s := ⟨_, _, ⟨1, rfl⟩, Machine.path_of_execute hexecute⟩
  exact ⟨s, hs, hwaiting, htasks, (no_lost_wakeup hs).1 (by omega) (by rw [hd]; decide)⟩

end PacketForge.ThreadPool
