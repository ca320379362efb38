import Mathlib.Tactic

set_option autoImplicit false

/-! # State machines, their runs and their invariants

A machine is a set of initial states and a labelled transition relation; the labels are the
choices of the scheduler and of the environment. `Machine.invariant` is the induction over runs
that every safety result goes through. `Machine.guarded` keeps only the steps that meet a
condition, for results about the runs in which a condition is respected throughout.
`Machine.recording` keeps a record of what the steps put out. `Machine.exists_stuck` finds the end
of a run where there are no infinite ones, and `Path.length_le` bounds a run whose steps use up a
potential. `Path.simulate` and `Reachable.simulate` carry the runs of one machine over to another
one.

A system is given by a partial function `step`, which can be evaluated, and its machine is
`Machine.ofStep`. An example of a run is a list of labels: `execute` runs it, and
`path_of_execute` says that what was computed is a path of the machine.
-/

/-- A labelled transition system: the states in which a run may start, and the steps with their
labels. It need not be deterministic, and a state need not have a step. -/
structure Machine (σ α : Type) where
  init : σ → Prop
  step : σ → α → σ → Prop

namespace Machine

variable {σ α : Type}

/-- The machine of a partial step function: a label is enabled where the function is
defined. -/
def ofStep (init : σ → Prop) (step : σ → α → Option σ) : Machine σ α :=
  ⟨init, fun s a s' => step s a = some s'⟩

/-- The steps of `M` that meet the condition `ok`. -/
def guarded (M : Machine σ α) (ok : σ → α → Prop) : Machine σ α :=
  ⟨M.init, fun s a s' => ok s a ∧ M.step s a s'⟩

/-- `Path M s as s'`: the labels `as` lead from `s` to `s'`. -/
inductive Path (M : Machine σ α) : σ → List α → σ → Prop
  | nil (s : σ) : Path M s [] s
  | snoc {s s' s'' : σ} {as : List α} {a : α} :
      Path M s as s' → M.step s' a s'' → Path M s (as ++ [a]) s''

/-- The machine `M` together with the record of what its steps put out. -/
def recording {β : Type} (M : Machine σ α) (out : σ → α → σ → List β) : Machine (σ × List β) α :=
  ⟨fun s => M.init s.1 ∧ s.2 = [], fun s a s' => M.step s.1 a s'.1 ∧ s'.2 = s.2 ++ out s.1 a s'.1⟩

/-- The states on the runs of `M`. -/
def Reachable (M : Machine σ α) (s : σ) : Prop := ∃ s₀ as, M.init s₀ ∧ M.Path s₀ as s

theorem Path.cons {M : Machine σ α} {s s' s'' : σ} {a : α} {as : List α} (h : M.step s a s')
    (hp : M.Path s' as s'') : M.Path s (a :: as) s'' := by
  induction hp with
  | nil => exact .snoc (.nil s) h
  | snoc _ hstep ih => exact .snoc ih hstep

theorem Path.append {M : Machine σ α} {s s' s'' : σ} {as bs : List α} (h : M.Path s as s')
    (hp : M.Path s' bs s'') : M.Path s (as ++ bs) s'' := by
  induction hp with
  | nil => rwa [List.append_nil]
  | snoc _ hstep ih =>
      rw [← List.append_assoc]
      exact .snoc ih hstep

/-- Every run can be recorded: there is a run of the recording machine over it, with the same
labels. -/
theorem Path.recording {β : Type} {M : Machine σ α} {s s' : σ} {as : List α}
    (hp : M.Path s as s') (out : σ → α → σ → List β) (record : List β) :
    ∃ record', (M.recording out).Path (s, record) as (s', record') := by
  induction hp with
  | nil => exact ⟨record, .nil _⟩
  | @snoc u s' as a _ hstep ih =>
      obtain ⟨record', hpath⟩ := ih
      exact ⟨record' ++ out u a s', hpath.snoc ⟨hstep, rfl⟩⟩

/-- What every initial state satisfies and every step preserves holds along every run. -/
theorem invariant {M : Machine σ α} (I : σ → Prop) (hinit : ∀ s, M.init s → I s)
    (hstep : ∀ s a s', I s → M.step s a s' → I s') {s : σ} (hs : M.Reachable s) : I s := by
  obtain ⟨s₀, as, h₀, hp⟩ := hs
  induction hp with
  | nil => exact hinit _ h₀
  | snoc _ ha ih => exact hstep _ _ _ ih ha

theorem Reachable.of_guarded {M : Machine σ α} {ok : σ → α → Prop} {s : σ}
    (hs : (M.guarded ok).Reachable s) : M.Reachable s := by
  obtain ⟨s₀, as, h₀, hp⟩ := hs
  refine ⟨s₀, as, h₀, ?_⟩
  induction hp with
  | nil => exact .nil _
  | snoc _ ha ih => exact .snoc ih ha.2

/-! ## Stuck states

A run that cannot be continued is described by its last state; whether it is a deadlock or the end
that was wanted is up to the result.
-/

/-- No step leaves `s`. -/
def Stuck (M : Machine σ α) (s : σ) : Prop := ∀ a s', ¬ M.step s a s'

/-- A machine without infinite runs gets stuck. -/
theorem exists_stuck {M : Machine σ α} (hwf : WellFounded fun s' s => ∃ a, M.step s a s') {s : σ}
    (hs : M.Reachable s) : ∃ s', M.Reachable s' ∧ M.Stuck s' := by
  induction s using hwf.induction with
  | _ s ih =>
      by_cases hstuck : M.Stuck s
      · exact ⟨s, hs, hstuck⟩
      · obtain ⟨a, s', hstep⟩ : ∃ a s', M.step s a s' := by
          simpa [Stuck] using hstuck
        obtain ⟨s₀, as, h₀, hp⟩ := hs
        exact ih s' ⟨a, hstep⟩ ⟨s₀, as ++ [a], h₀, hp.snoc hstep⟩

/-- What every step preserves holds at the end of a run that starts with it. -/
theorem Path.preserves {M : Machine σ α} {I : σ → Prop}
    (hstep : ∀ s a s', I s → M.step s a s' → I s') {s s' : σ} {as : List α} (hI : I s)
    (hp : M.Path s as s') : I s' := by
  induction hp with
  | nil => exact hI
  | snoc _ ha ih => exact hstep _ _ _ ih ha

/-- The steps of a run are at most as many as the potential it starts with and what its labels
bring in, if every step uses up one unit. -/
theorem Path.length_le {M : Machine σ α} {I : σ → Prop} (potential : σ → Nat) (income : α → Nat)
    (hstep : ∀ s a s', I s → M.step s a s' → I s')
    (hpays : ∀ s a s', I s → M.step s a s' → potential s' + 1 ≤ potential s + income a)
    {s s' : σ} {as : List α} (hI : I s) (hp : M.Path s as s') :
    potential s' + as.length ≤ potential s + (as.map income).sum := by
  induction hp with
  | nil => exact le_refl _
  | @snoc u s' as a hpath ha ih =>
      have hu : I u := hpath.preserves hstep hI
      have hpay := hpays u a s' hu ha
      rw [List.length_append, List.length_singleton, List.map_append, List.sum_append,
        List.map_singleton, List.sum_singleton]
      omega

/-! ## Simulation

Both lemmas allow a step to be matched by no step at all.
-/

section

variable {τ β : Type} {M : Machine σ α} {N : Machine τ β} {R : σ → τ → Prop}

/-- A run is simulated step by step; the labels `events a` of the other machine stand for `a`. -/
theorem Path.simulate {events : α → List β}
    (hstep : ∀ s a s' t, R s t → M.step s a s' → ∃ t', N.Path t (events a) t' ∧ R s' t')
    {s s' : σ} {as : List α} {t : τ} (hR : R s t) (hp : M.Path s as s') :
    ∃ t', N.Path t (as.flatMap events) t' ∧ R s' t' := by
  induction hp with
  | nil => exact ⟨t, .nil t, hR⟩
  | snoc _ ha ih =>
      obtain ⟨u, hpath, hu⟩ := ih
      obtain ⟨t', hnext, ht'⟩ := hstep _ _ _ u hu ha
      refine ⟨t', ?_, ht'⟩
      rw [List.flatMap_append, List.flatMap_singleton]
      exact hpath.append hnext

/-- The states that a machine reaches are related to states that the other one reaches, if every
step is matched by a step or by none. -/
theorem Reachable.simulate (hinit : ∀ s, M.init s → ∃ t, N.init t ∧ R s t)
    (hstep : ∀ s a s' t, R s t → M.step s a s' → R s' t ∨ ∃ b t', N.step t b t' ∧ R s' t')
    {s : σ} (hs : M.Reachable s) : ∃ t, N.Reachable t ∧ R s t := by
  refine invariant (fun s => ∃ t, N.Reachable t ∧ R s t) ?_ ?_ hs
  · intro s h₀
    obtain ⟨t, ht, hR⟩ := hinit s h₀
    exact ⟨t, ⟨t, [], ht, .nil t⟩, hR⟩
  · rintro s a s' ⟨t, ⟨t₀, bs, h₀, hp⟩, hR⟩ ha
    rcases hstep s a s' t hR ha with hstutter | ⟨b, t', hb, hR'⟩
    · exact ⟨t, ⟨t₀, bs, h₀, hp⟩, hstutter⟩
    · exact ⟨t', ⟨t₀, bs ++ [b], h₀, hp.snoc hb⟩, hR'⟩

end

/-! ## Runs of step functions -/

/-- Run a partial step function along a list of labels. -/
def execute (step : σ → α → Option σ) : σ → List α → Option σ
  | s, [] => some s
  | s, a :: as => (step s a).bind fun s' => execute step s' as

theorem path_of_execute {init : σ → Prop} {step : σ → α → Option σ} {s s' : σ} {as : List α}
    (h : execute step s as = some s') : (ofStep init step).Path s as s' := by
  induction as generalizing s with
  | nil =>
      obtain rfl : s = s' := by simpa [execute] using h
      exact .nil s
  | cons a as ih =>
      obtain ⟨t, ht, hrest⟩ := Option.bind_eq_some_iff.mp h
      exact .cons ht (ih hrest)

/-- Run a partial step function as long as the labels meet a condition. -/
def executeGuarded (ok : σ → α → Prop) [∀ s a, Decidable (ok s a)] (step : σ → α → Option σ) :
    σ → List α → Option σ :=
  execute fun s a => if ok s a then step s a else none

theorem path_of_executeGuarded {init : σ → Prop} {step : σ → α → Option σ} {ok : σ → α → Prop}
    [∀ s a, Decidable (ok s a)] {s s' : σ} {as : List α}
    (h : executeGuarded ok step s as = some s') : ((ofStep init step).guarded ok).Path s as s' := by
  induction as generalizing s with
  | nil =>
      obtain rfl : s = s' := by simpa [executeGuarded, execute] using h
      exact .nil s
  | cons a as ih =>
      obtain ⟨t, ht, hrest⟩ := Option.bind_eq_some_iff.mp h
      rw [Option.ite_none_right_eq_some] at ht
      exact .cons ht (ih hrest)

end Machine
