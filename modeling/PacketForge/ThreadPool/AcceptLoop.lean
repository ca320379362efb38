import PacketForge.ThreadPool.Custody
import PacketForge.ThreadPool.Tasks

set_option autoImplicit false

/-! # When `accept` fails

`main` does not look at what `accept` returns. Here it may return `-1`, and the rest of the code
goes on with it as with a descriptor: `main` hands a task to the pool that serves nobody.

As long as no such task gets a place in the queue, the runs are those of the server whose `accept`
succeeds (`Agrees`): a failure is turned away like a client, and leaves nothing behind.
`queue_live` is what follows for the clients, and `crowded_out` what can happen otherwise.

## How the proof goes

* `Agrees s t` relates a process `s` that has seen failures to a process `t` that has not. The two
  are equal but for the answers of `enqueue` and the log, and where `main` of `s` is busy with a
  failure, `main` of `t` is back at `accept` (`Main.live`).
* `Agrees.simulates` is a simulation with stuttering: a step that deals with a failure is no step
  of `t`, every other step is the same one. It rests on `step_results`, by which the pool never
  reads what it has answered.
* Everything that `Custody` says of `t` then holds of `s` (`reachable_simulated`). For the other
  direction, `not_queueLive` shows that the first failure that gets a place ends it.

`Harmless` is a condition on a state and the step from it: if `main` is about to enqueue a
failure, the queue is full. It says nothing about who is in the queue.
-/

namespace PacketForge.ThreadPool

/-! ## The code

The loop of `Server.lean` with one step more. The client that `main` makes of a failure has the
descriptor -1, and `send` and `close` on it reach no connection.
-/

/-- The steps of the server, and an `accept` that returns `-1`, which `main` does not notice. -/
inductive LoopAct where
  | acceptFails
  | server (a : ServerAct)

/-- One step of the accept loop. The number in the client of a failure stands for no connection. -/
def loopStep (s : Process) : LoopAct → Option Process
  | .acceptFails =>
    match s.main with
    | .accepting => some { s with main := .accepted ⟨-1, s.accepted⟩ }
    | _ => none
  | .server a => serverStep s a

/-- The runs of the accept loop. -/
def loopMachine (threadCount : Nat) : Machine Process LoopAct :=
  .ofStep (fun s => s = .new threadCount) loopStep

theorem loopStep_cases {s s' : Process} {a : LoopAct} (h : loopStep s a = some s') :
    (a = .acceptFails ∧ s.main = .accepting ∧
      s' = { s with main := .accepted ⟨-1, s.accepted⟩ }) ∨
    ∃ b, a = .server b ∧ ServerStep s b s' := by
  cases a with
  | acceptFails =>
      simp only [loopStep] at h
      split at h
      · next hmain => exact .inl ⟨rfl, hmain, (Option.some.inj h).symm⟩
      · cases h
  | server b => exact .inr ⟨b, rfl, serverStep_cases h⟩

/-- `enqueue` turns a failure away, if it is asked for one: the queue is full. -/
def Harmless (s : Process) (a : LoopAct) : Prop :=
  match a with
  | .server .enqueue => ∀ k, s.main = .accepted k → k.clientSocket < 0 →
      maxQueueSize ≤ s.pool.tasks.length
  | _ => True

/-! ## The pool

The list of results is a part of the history that only the results about the pool are stated with.
These lemmas say that it can be replaced without anything else being different.
-/

section

variable {τ : Type} {s s' : Pool τ}

/-- The pool does not read the list of its results. -/
theorem notifyOne_results {wakes : Option Nat} (h : s.notifyOne wakes = some s')
    (results : List (τ × Bool)) : Pool.notifyOne { s with results := results } wakes
      = some { s' with results := results } := by
  cases wakes with
  | some v =>
      simp only [Pool.notifyOne] at h ⊢
      split at h
      · obtain rfl := Option.some.inj h
        rfl
      · cases h
  | none =>
      simp only [Pool.notifyOne] at h ⊢
      split_ifs at h ⊢
      obtain rfl := Option.some.inj h
      rfl

theorem workerSection_results (s : Pool τ) (w : Nat) (results : List (τ × Bool)) :
    Pool.workerSection { s with results := results } w
      = { s.workerSection w with results := results } := by
  obtain ⟨workers, enqueuers, tasks, stop, destructor, accepted, started, finished, _⟩ := s
  cases tasks <;> cases stop <;> rfl

theorem step_results {a : Act τ} (h : step s a = some s') (results : List (τ × Bool)) :
    ∃ results', step { s with results := results } a = some { s' with results := results' } := by
  cases a with
  | enqueue i task =>
      simp only [step] at h ⊢
      split at h
      · obtain rfl := Option.some.inj h
        exact ⟨_, rfl⟩
      · cases h
  | notify i wakes =>
      simp only [step] at h ⊢
      split at h
      · exact ⟨results, notifyOne_results h results⟩
      · cases h
  | workerSection w =>
      simp only [step] at h ⊢
      split at h
      · obtain rfl := Option.some.inj h
        exact ⟨results, congrArg some (workerSection_results s w results)⟩
      · cases h
  | spurious w =>
      simp only [step] at h ⊢
      split at h
      · obtain rfl := Option.some.inj h
        exact ⟨results, rfl⟩
      · cases h
  | enqueueFrom w task =>
      simp only [step] at h ⊢
      split at h
      · obtain rfl := Option.some.inj h
        exact ⟨_, rfl⟩
      · cases h
  | notifyFrom w wakes =>
      simp only [step] at h ⊢
      split at h
      · exact ⟨results, notifyOne_results h results⟩
      · cases h
  | finish w =>
      simp only [step] at h ⊢
      split at h
      · obtain rfl := Option.some.inj h
        exact ⟨results, rfl⟩
      · cases h
  | stop =>
      simp only [step] at h ⊢
      split_ifs at h ⊢
      obtain rfl := Option.some.inj h
      exact ⟨results, rfl⟩
  | notifyAll =>
      simp only [step] at h ⊢
      split_ifs at h ⊢
      obtain rfl := Option.some.inj h
      exact ⟨results, rfl⟩
  | join =>
      simp only [step] at h ⊢
      split_ifs at h ⊢
      obtain rfl := Option.some.inj h
      exact ⟨results, rfl⟩

end

/-! ## Failures that leave nothing behind

The simulation relation, what it needs of the table of descriptors, and the simulation itself.
-/

/-- What `main` holds, without failures. -/
def Main.live : Main → Main
  | .accepted k => if k.clientSocket < 0 then .accepting else .accepted k
  | .rejected k => if k.clientSocket < 0 then .accepting else .rejected k
  | .replied k => if k.clientSocket < 0 then .accepting else .replied k
  | main => main

/-- `t` is the process `s` without its failures, up to what `enqueue` has answered and the log. -/
structure Agrees (s t : Process) : Prop where
  pool : ∃ results, t.pool = { s.pool with results := results }
  main : t.main = s.main.live
  frames : t.frames = s.frames
  requestCounter : t.requestCounter = s.requestCounter
  sockets : t.sockets = s.sockets
  accepted : t.accepted = s.accepted

/-- No connection has a descriptor that `accept` does not return. -/
def NoNegative (s : Process) : Prop := ∀ d : Int, d < 0 → s.sockets d = none

section

variable {s s' t : Process}

theorem NoNegative.step {a : ServerAct} (h : NoNegative s) (hs : ServerStep s a s') :
    NoNegative s' := by
  intro d hd
  rcases hs.sockets with heq | ⟨d', hd', heq⟩ | ⟨d', heq⟩
  · rw [heq, h d hd]
  · have hne : d ≠ d' := by omega
    rw [heq, Function.update_of_ne hne, h d hd]
  · rw [heq, Function.update_apply, h d hd, ite_self]

theorem NoNegative.loop {a : LoopAct} (h : NoNegative s) (hs : loopStep s a = some s') :
    NoNegative s' := by
  rcases loopStep_cases hs with ⟨-, -, rfl⟩ | ⟨b, -, hb⟩
  · exact h
  · exact h.step hb

theorem Agrees.step_pool (h : Agrees s t) {act : Act Client} {pool : Pool Client}
    (hpool : step s.pool act = some pool) :
    ∃ results, step t.pool act = some { pool with results := results } := by
  obtain ⟨results, heq⟩ := h.pool
  rw [heq]
  exact step_results hpool results

theorem Agrees.tasks (h : Agrees s t) : t.pool.tasks = s.pool.tasks := by
  obtain ⟨results, heq⟩ := h.pool
  rw [heq]

/-- A push that is turned away changes nothing but the results. -/
theorem step_enqueue_full {p p' : Pool Client} {i : Nat} {k : Client}
    (hfull : maxQueueSize ≤ p.tasks.length) (hs : step p (.enqueue i k) = some p') :
    ∃ results, p' = { p with results := results } := by
  simp only [step] at hs
  split at hs
  · next hget =>
      obtain rfl := Option.some.inj hs
      obtain ⟨hlt, hget⟩ := List.getElem?_eq_some_iff.mp hget
      have hset : p.enqueuers.set i false = p.enqueuers := by
        rw [← hget, List.set_getElem_self]
      rw [enqueueSection, if_pos hfull, hset]
      rcases push_cases p k with ⟨hlt, -⟩ | ⟨-, heq⟩
      · omega
      · exact ⟨_, by rw [heq]⟩
  · cases hs

/-- **A harmless step** of the loop is none of the server whose `accept` succeeds, or the same
one. -/
theorem Agrees.simulates {a : LoopAct} (h : Agrees s t) (hnone : NoNegative s) (ha : Harmless s a)
    (hs : loopStep s a = some s') :
    Agrees s' t ∨ ∃ b t', serverStep t b = some t' ∧ Agrees s' t' := by
  have htasks := h.tasks
  have hpools : ∀ {act pool}, step s.pool act = some pool →
      ∃ results, step t.pool act = some { pool with results := results } := h.step_pool
  obtain ⟨pool, main, frames, requestCounter, sockets, accepted, log⟩ := t
  obtain ⟨hpool, rfl, rfl, rfl, rfl, rfl⟩ := h
  rcases loopStep_cases hs with ⟨-, hmain, rfl⟩ | ⟨b, rfl, hb⟩
  · rw [hmain]
    exact .inl ⟨hpool, rfl, rfl, rfl, rfl, rfl⟩
  cases hb with
  | @accept d hmain hd hfree =>
      have hlive : (Main.accepted ⟨d, s.accepted⟩).live = .accepted ⟨d, s.accepted⟩ :=
        if_neg (not_lt.mpr hd)
      rw [hmain]
      exact .inr ⟨_, _, ServerStep.eq_some (.accept rfl hd hfree),
        hpool, hlive.symm, rfl, rfl, rfl, rfl⟩
  | @enqueue k pool' hmain hstep =>
      by_cases hk : k.clientSocket < 0
      · -- the failure is turned away, and the queue is as before
        have hfull : maxQueueSize ≤ s.pool.tasks.length := ha k hmain hk
        obtain ⟨results, rfl⟩ := step_enqueue_full hfull hstep
        rw [hmain, enqueueSection, if_pos hfull]
        refine .inl ⟨hpool, ?_, rfl, rfl, rfl, rfl⟩
        rw [Main.live, if_pos hk]
        exact (if_pos hk).symm
      · have hlive : (Main.accepted k).live = .accepted k := if_neg hk
        obtain ⟨results, hstep'⟩ := hpools hstep
        rw [hmain, hlive]
        refine .inr ⟨_, _, ServerStep.eq_some (.enqueue rfl hstep'),
          ⟨results, rfl⟩, ?_, rfl, rfl, rfl, rfl⟩
        rw [htasks]
        split_ifs
        · rfl
        · exact (if_neg hk).symm
  | @notify wakes pool' hmain hstep =>
      obtain ⟨results, hstep'⟩ := hpools hstep
      rw [hmain]
      exact .inr ⟨_, _, ServerStep.eq_some (.notify rfl hstep'),
        ⟨results, rfl⟩, rfl, rfl, rfl, rfl, rfl⟩
  | @reply k hmain =>
      rw [hmain]
      by_cases hk : k.clientSocket < 0
      · refine .inl ⟨hpool, ?_, rfl, rfl, rfl, rfl⟩
        exact (if_pos hk).trans (if_pos hk).symm
      · have hlive : (Main.rejected k).live = .rejected k := if_neg hk
        rw [hlive]
        exact .inr ⟨_, _, ServerStep.eq_some (.reply rfl),
          hpool, (if_neg hk).symm, rfl, rfl, rfl, rfl⟩
  | @closeRejected k hmain =>
      rw [hmain]
      by_cases hk : k.clientSocket < 0
      · -- a descriptor that is not open is closed
        refine .inl ⟨hpool, if_pos hk, rfl, rfl, ?_, rfl⟩
        exact (Function.update_eq_self_iff.mpr (hnone _ hk).symm).symm
      · have hlive : (Main.replied k).live = .replied k := if_neg hk
        rw [hlive]
        exact .inr ⟨_, _, ServerStep.eq_some (.closeRejected rfl),
          hpool, rfl, rfl, rfl, rfl, rfl⟩
  | @takes w k b pool' hstep hget =>
      obtain ⟨results, hstep'⟩ := hpools hstep
      exact .inr ⟨_, _, ServerStep.eq_some (.takes hstep' hget),
        ⟨results, rfl⟩, rfl, rfl, rfl, rfl, rfl⟩
  | @takesNothing w pool' hstep hnot =>
      obtain ⟨results, hstep'⟩ := hpools hstep
      exact .inr ⟨_, _, ServerStep.eq_some (.takesNothing hstep' hnot),
        ⟨results, rfl⟩, rfl, rfl, rfl, rfl, rfl⟩
  | @spurious w pool' hstep =>
      obtain ⟨results, hstep'⟩ := hpools hstep
      exact .inr ⟨_, _, ServerStep.eq_some (.spurious hstep'),
        ⟨results, rfl⟩, rfl, rfl, rfl, rfl, rfl⟩
  | recv hget =>
      exact .inr ⟨_, _, ServerStep.eq_some (.recv hget), hpool, rfl, rfl, rfl, rfl, rfl⟩
  | getRequestNumber hget =>
      exact .inr ⟨_, _, ServerStep.eq_some (.getRequestNumber hget), hpool, rfl, rfl, rfl, rfl, rfl⟩
  | respond hget =>
      exact .inr ⟨_, _, ServerStep.eq_some (.respond hget), hpool, rfl, rfl, rfl, rfl, rfl⟩
  | closeServed hget =>
      exact .inr ⟨_, _, ServerStep.eq_some (.closeServed hget), hpool, rfl, rfl, rfl, rfl, rfl⟩
  | @finish w pool' hget hstep =>
      obtain ⟨results, hstep'⟩ := hpools hstep
      exact .inr ⟨_, _, ServerStep.eq_some (.finish hget hstep'),
        ⟨results, rfl⟩, rfl, rfl, rfl, rfl, rfl⟩

end

/-! ## The clients in the queue

`Live` is said of the table of descriptors, not of the numbers in the task: the descriptor must
stand for the connection that the task was made for.
-/

/-- `accept` returned the descriptor of the client, and it was not closed since. -/
def Process.Live (s : Process) (k : Client) : Prop :=
  0 ≤ k.clientSocket ∧ s.sockets k.clientSocket = some k.connection

/-- All tasks in the queue are there for clients, and for different ones. -/
structure QueueLive (s : Process) : Prop where
  live : ∀ k ∈ s.pool.tasks, s.Live k
  distinct : (s.pool.tasks.map Client.connection).Nodup

section

variable {threadCount : Nat} {s s' t : Process} {a : LoopAct} {k : Client}

theorem Agrees.queueLive (h : Agrees s t) (hnone : NoNegative s) (ht : Custody t) :
    QueueLive s := by
  constructor
  · intro k hk
    have hopen : s.sockets k.clientSocket = some k.connection := by
      rw [← h.sockets]
      exact ht.held k (holds_of_task (h.tasks ▸ hk))
    refine ⟨?_, hopen⟩
    by_contra hneg
    cases (hnone _ (not_le.mp hneg)).symm.trans hopen
  · -- each connection is in one place
    rw [List.nodup_iff_count_le_one]
    intro c
    have htotal := (ht.counts c).total
    have hcount : (s.pool.tasks.map Client.connection).count c = t.queued c := by
      rw [Process.queued, h.tasks, List.count, List.countP_map]
      rfl
    rw [hcount]
    split_ifs at htotal <;> omega

theorem reachable_simulated (hs : ((loopMachine threadCount).guarded Harmless).Reachable s) :
    ∃ t, (serverMachine threadCount).Reachable t ∧ Agrees s t ∧ NoNegative s := by
  refine Machine.Reachable.simulate (R := fun s t => Agrees s t ∧ NoNegative s) ?_ ?_ hs
  · rintro s rfl
    exact ⟨_, rfl, ⟨⟨[], rfl⟩, rfl, rfl, rfl, rfl, rfl⟩, fun d _ => rfl⟩
  · rintro s a s' t ⟨h, hnone⟩ ⟨ha, hstep⟩
    have hnone' := hnone.loop hstep
    rcases h.simulates hnone ha hstep with hstutter | ⟨b, t', hb, h'⟩
    · exact .inl ⟨hstutter, hnone'⟩
    · exact .inr ⟨b, t', hb, h', hnone'⟩

theorem reachable_queueLive (hs : ((loopMachine threadCount).guarded Harmless).Reachable s) :
    QueueLive s := by
  obtain ⟨t, ht, h, hnone⟩ := reachable_simulated hs
  exact h.queueLive hnone (reachable_custody ht)

/-- The pool of the server is a pool. -/
theorem pool_reachable (hs : (loopMachine threadCount).Reachable s) :
    (machine Client threadCount).Reachable s.pool := by
  obtain ⟨p, hp, rfl⟩ : ∃ p, (machine Client threadCount).Reachable p ∧ s.pool = p := by
    refine Machine.Reachable.simulate (R := fun s p => s.pool = p) ?_ ?_ hs
    · rintro s rfl
      exact ⟨_, ⟨1, rfl⟩, rfl⟩
    · rintro s a s' _ rfl hstep
      rcases loopStep_cases hstep with ⟨-, -, rfl⟩ | ⟨b, -, hb⟩
      · exact .inl rfl
      · rcases hb.pool with heq | ⟨act, hact⟩
        · exact .inl heq
        · exact .inr ⟨act, _, hact, rfl⟩
  exact hp

/-- Whom `main` is about to turn away, `enqueue` has found no place for. -/
theorem rejected_cases (hs : loopStep s a = some s') (hrejected : s'.main = .rejected k) :
    s.main = .rejected k ∨
      (a = .server .enqueue ∧ s.main = .accepted k ∧ maxQueueSize ≤ s.pool.tasks.length) := by
  rcases loopStep_cases hs with ⟨-, -, rfl⟩ | ⟨b, rfl, hb⟩
  · cases hrejected
  · cases hb with
    | @enqueue k' pool hmain hpool =>
        rcases enqueueSection_cases s.pool.tasks k' with ⟨-, heq⟩ | ⟨hfull, heq⟩
        · rw [heq] at hrejected
          cases hrejected
        · rw [heq] at hrejected
          cases hrejected
          exact .inr ⟨rfl, hmain, hfull⟩
    | takes _ _ => exact .inl hrejected
    | takesNothing _ _ => exact .inl hrejected
    | spurious _ => exact .inl hrejected
    | recv _ => exact .inl hrejected
    | getRequestNumber _ => exact .inl hrejected
    | respond _ => exact .inl hrejected
    | closeServed _ => exact .inl hrejected
    | finish _ _ => exact .inl hrejected
    | _ => cases hrejected

/-- Before a client is turned away, its `enqueue` has found the queue full. -/
theorem rejected_path {as : List LoopAct}
    (hpath : ((loopMachine threadCount).guarded Harmless).Path (.new threadCount) as s)
    (hrejected : s.main = .rejected k) :
    ∃ before t after, as = before ++ .server .enqueue :: after ∧
      ((loopMachine threadCount).guarded Harmless).Path (.new threadCount) before t ∧
      t.main = .accepted k ∧ maxQueueSize ≤ t.pool.tasks.length := by
  generalize hinit : Process.new threadCount = s₀ at hpath
  induction hpath with
  | nil =>
      subst hinit
      cases hrejected
  | @snoc u _ as a hpath hstep ih =>
      rcases rejected_cases hstep.2 hrejected with hbefore | ⟨rfl, haccepted, hfull⟩
      · obtain ⟨before, t, after, rfl, ht⟩ := ih hbefore
        exact ⟨before, t, after ++ [a], by rw [List.append_assoc, List.cons_append], ht⟩
      · subst hinit
        exact ⟨as, u, [], rfl, hpath, haccepted, hfull⟩

/-- A failure in the queue is no client. -/
theorem not_queueLive (hs : loopStep s a = some s') (hharm : ¬ Harmless s a) : ¬ QueueLive s' := by
  intro hlive
  apply hharm
  rcases loopStep_cases hs with ⟨rfl, -, -⟩ | ⟨b, rfl, hb⟩
  · trivial
  · cases hb with
    | @enqueue k pool hmain hpool =>
        intro k' hmain' hneg
        obtain rfl : k = k' := Main.accepted.inj (hmain.symm.trans hmain')
        by_contra hroom
        have htasks := (step_enqueue hpool).1
        rw [enqueueSection, if_neg hroom] at htasks
        have hmem : k ∈ pool.tasks := by
          rw [htasks]
          exact List.mem_append_right _ List.mem_cons_self
        have hnonneg := (hlive.live k hmem).1
        omega
    | _ => trivial

end

/-! ## The result -/

/-- **Who is in the queue.** In the runs in which no failure gets a place in the queue, every queued
task is there for a client of its own whose connection is open; so a client that is turned away has
found 1000 other ones in the queue. A failure that gets a place ends this at once. -/
theorem queue_live (threadCount : Nat) :
    (∀ s, ((loopMachine threadCount).guarded Harmless).Reachable s → QueueLive s) ∧
    (∀ as s k, ((loopMachine threadCount).guarded Harmless).Path (.new threadCount) as s →
      s.main = .rejected k → ∃ before t after, as = before ++ .server .enqueue :: after ∧
        ((loopMachine threadCount).guarded Harmless).Path (.new threadCount) before t ∧
        t.main = .accepted k ∧ t.pool.tasks.length = 1000 ∧ QueueLive t) ∧
    ∀ s a s', loopStep s a = some s' → ¬ Harmless s a → ¬ QueueLive s' := by
  refine ⟨fun s hs => reachable_queueLive hs, fun as s k hpath hrejected => ?_,
    fun s a s' hs hharm => not_queueLive hs hharm⟩
  obtain ⟨before, t, after, has, hbefore, haccepted, hfull⟩ := rejected_path hpath hrejected
  have ht : ((loopMachine threadCount).guarded Harmless).Reachable t := ⟨_, before, rfl, hbefore⟩
  have hbound := reachable_bounded (pool_reachable ht.of_guarded)
  exact ⟨before, t, after, has, hbefore, haccepted, le_antisymm hbound hfull,
    reachable_queueLive ht⟩

/-! ## What can happen otherwise -/

/-- What `main` makes of a failure. -/
def failure : Client := ⟨-1, 0⟩

/-- The server after `n` failures in a row, before its workers have done anything. -/
def flooded (n : Nat) : Process :=
  { Process.new 4 with
    pool := { Pool.new 4 1 with
      tasks := List.replicate n failure
      accepted := List.replicate n failure
      results := List.replicate n (failure, true) } }

theorem flooded_succ {n : Nat} (hn : n < 1000) :
    Machine.execute loopStep (flooded n) [.acceptFails, .server .enqueue, .server (.notify none)]
      = some (flooded (n + 1)) := by
  have hroom : enqueueSection (List.replicate n failure) failure
      = (true, List.replicate (n + 1) failure) := by
    rw [enqueueSection, if_neg, ← List.replicate_succ']
    rw [List.length_replicate]
    exact not_le.mpr hn
  have henqueue : loopStep { flooded n with main := .accepted failure } (.server .enqueue)
      = some { flooded (n + 1) with
          pool := { (flooded (n + 1)).pool with enqueuers := [true] }
          main := .notifying } := by
    show some { flooded n with
      pool := { (flooded n).pool.push failure with
        enqueuers := [(enqueueSection (List.replicate n failure) failure).1] }
      main := if (enqueueSection (List.replicate n failure) failure).1 then .notifying
        else .rejected failure } = _
    simp only [flooded, Pool.push, hroom, if_true, ← List.replicate_succ']
  rw [Machine.execute, show loopStep (flooded n) .acceptFails
    = some { flooded n with main := .accepted failure } from rfl, Option.bind_some,
    Machine.execute, henqueue]
  -- no worker waits for a task
  rfl

theorem flooded_reachable {n : Nat} (hn : n ≤ 1000) : (loopMachine 4).Reachable (flooded n) := by
  induction n with
  | zero => exact ⟨_, [], rfl, .nil _⟩
  | succ n ih =>
      obtain ⟨s₀, as, h₀, hpath⟩ := ih (Nat.le_of_succ_le hn)
      exact ⟨s₀, _, h₀, hpath.append (Machine.path_of_execute (flooded_succ hn))⟩

/-- After 1000 failures a client is turned away, and nobody is waiting. -/
theorem crowded_out : ∃ s k, (loopMachine 4).Reachable s ∧ s.main = .rejected k ∧ s.Live k ∧
    s.pool.tasks.length = 1000 ∧ ∀ k' ∈ s.pool.tasks, ¬ s.Live k' := by
  have hfull : enqueueSection (List.replicate 1000 failure) ⟨5, 0⟩
      = (false, List.replicate 1000 failure) := by
    rw [enqueueSection, if_pos]
    rw [List.length_replicate]
    exact le_rfl
  have hexecute : Machine.execute loopStep (flooded 1000)
      [.server (.accept 5), .server .enqueue] = some { flooded 1000 with
        pool := { (flooded 1000).pool with
          results := (flooded 1000).pool.results ++ [(⟨5, 0⟩, false)] }
        main := .rejected ⟨5, 0⟩
        sockets := Function.update (fun _ => none) 5 (some 0)
        accepted := 1 } := by
    show some { flooded 1000 with
      pool := { (flooded 1000).pool.push ⟨5, 0⟩ with
        enqueuers := [(enqueueSection (List.replicate 1000 failure) ⟨5, 0⟩).1] }
      main := if (enqueueSection (List.replicate 1000 failure) ⟨5, 0⟩).1 then .notifying
        else .rejected ⟨5, 0⟩
      sockets := Function.update (fun _ => none) 5 (some 0)
      accepted := 1 } = _
    simp only [flooded, Pool.push, hfull, Bool.false_eq_true, if_false]
    rfl
  obtain ⟨s₀, as, h₀, hpath⟩ := flooded_reachable (le_refl 1000)
  refine ⟨_, ⟨5, 0⟩, ⟨s₀, _, h₀, hpath.append (Machine.path_of_execute hexecute)⟩, rfl,
    ⟨by decide, rfl⟩, List.length_replicate, fun k' hk' hlive => ?_⟩
  obtain rfl := List.eq_of_mem_replicate hk'
  exact absurd hlive.1 (by decide)

end PacketForge.ThreadPool
