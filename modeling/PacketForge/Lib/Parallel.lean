import Mathlib.Order.GameAdd
import PacketForge.Lib.Interaction
import PacketForge.Lib.Machine

set_option autoImplicit false

/-! # Two programs side by side

Two programs run at the same time. Each issues its operations one after the other, and any order
between the operations of the two is possible. They share nothing but their surroundings: what an
operation may be answered depends on the histories of both.

* `Pair.Step` is one operation of one of the programs, `Shared.machine` the machine of all runs.
* `Pair.sound`: what the contract of either program lets it do keeps an invariant of both
  histories, and what the invariant lets the surroundings answer is what the other contract relies
  on.
* `Pair.stepsDown_wellFounded`: the programs being well-founded trees, no run is infinite. Every
  run therefore leads to a state in which each program has returned or waits for an answer.

## How it is used

Each program is verified alone, against a contract of its own (`wp`). What the two contracts
promise each other is the invariant `J`: four conditions have to be shown of it, one for each
program that what it is permitted keeps `J`, and one for each that the answers under `J` are among
those that it relies on. Neither proof looks into the other program. For progress, the states in
which nothing moves are gone through: there each program has returned, or is at an operation that
has no answer (`not_left_of_stuck`, `not_right_of_stuck`).
-/

namespace Interaction

variable {Op : Type} {Res : Op → Type} {α β : Type}

/-- The surroundings of two programs: how an operation of the one may be answered, given the
history of the other one and its own. -/
structure Shared (Op : Type) (Res : Op → Type) where
  left : History Op Res → Env Op Res
  right : History Op Res → Env Op Res

/-- Two programs that are being executed, with what they have done so far. -/
structure Pair (Op : Type) (Res : Op → Type) (α β : Type) where
  left : Prog Op Res α
  leftHistory : History Op Res
  right : Prog Op Res β
  rightHistory : History Op Res

/-- Which of the two programs moves. -/
inductive Side where
  | left
  | right
  deriving DecidableEq, Repr

namespace Pair

/-- One of the programs issues its next operation and is answered, as the surroundings allow with
the history of the other one. -/
inductive Step (S : Shared Op Res) : Pair Op Res α β → Side → Pair Op Res α β → Prop
  | left {op : Op} {k : Res op → Prog Op Res α} {hl hr : History Op Res} {q : Prog Op Res β}
      (r : Res op) : S.left hr hl op r →
      Step S ⟨.call op k, hl, q, hr⟩ .left ⟨k r, ⟨op, r⟩ :: hl, q, hr⟩
  | right {op : Op} {k : Res op → Prog Op Res β} {hl hr : History Op Res} {p : Prog Op Res α}
      (r : Res op) : S.right hl hr op r →
      Step S ⟨p, hl, .call op k, hr⟩ .right ⟨p, hl, k r, ⟨op, r⟩ :: hr⟩

end Pair

/-- The runs of two programs in their surroundings. -/
def Shared.machine (S : Shared Op Res) (p : Prog Op Res α) (q : Prog Op Res β) :
    Machine (Pair Op Res α β) Side :=
  ⟨fun s => s = ⟨p, [], q, []⟩, Pair.Step S⟩

namespace Pair

variable {S : Shared Op Res} {p : Prog Op Res α} {q : Prog Op Res β}

/-! ## Invariants

The rely-guarantee rule. It is an induction over the run of the pair; the programs themselves are
handled by `wp_call`.
-/

section

variable {C D : Contract Op Res} {Q : α → History Op Res → Prop} {R : β → History Op Res → Prop}
  {J : History Op Res → History Op Res → Prop}

/-- Both programs keep to their contracts, and the invariant `J` holds of their histories. -/
structure Keeps (C D : Contract Op Res) (Q : α → History Op Res → Prop)
    (R : β → History Op Res → Prop) (J : History Op Res → History Op Res → Prop)
    (s : Pair Op Res α β) : Prop where
  inv : J s.leftHistory s.rightHistory
  left : wp C s.left Q s.leftHistory
  right : wp D s.right R s.rightHistory

theorem Keeps.step
    (hleft : ∀ hl hr op r, J hl hr → C.may hl op → S.left hr hl op r →
      C.answers hl op r ∧ J (⟨op, r⟩ :: hl) hr)
    (hright : ∀ hl hr op r, J hl hr → D.may hr op → S.right hl hr op r →
      D.answers hr op r ∧ J hl (⟨op, r⟩ :: hr))
    {s s' : Pair Op Res α β} {side : Side} (hs : Keeps C D Q R J s) (hstep : Step S s side s') :
    Keeps C D Q R J s' := by
  obtain ⟨hJ, hl, hr⟩ := hs
  cases hstep with
  | left r hanswer =>
      obtain ⟨hmay, hnext⟩ := hl
      obtain ⟨hr', hJ'⟩ := hleft _ _ _ r hJ hmay hanswer
      exact ⟨hJ', hnext r hr', hr⟩
  | right r hanswer =>
      obtain ⟨hmay, hnext⟩ := hr
      obtain ⟨hr', hJ'⟩ := hright _ _ _ r hJ hmay hanswer
      exact ⟨hJ', hl, hnext r hr'⟩

/-- **Soundness for two programs.** Each program keeps its own contract as long as the other one
keeps its contract: the operations that the contracts permit preserve the invariant `J`, and under
`J` the answers are those that the contracts rely on. -/
theorem sound (hJ : J [] []) (hp : wp C p Q []) (hq : wp D q R [])
    (hleft : ∀ hl hr op r, J hl hr → C.may hl op → S.left hr hl op r →
      C.answers hl op r ∧ J (⟨op, r⟩ :: hl) hr)
    (hright : ∀ hl hr op r, J hl hr → D.may hr op → S.right hl hr op r →
      D.answers hr op r ∧ J hl (⟨op, r⟩ :: hr))
    {s : Pair Op Res α β} (hs : (S.machine p q).Reachable s) : Keeps C D Q R J s := by
  refine Machine.invariant (Keeps C D Q R J) ?_ ?_ hs
  · rintro s rfl
    exact ⟨hJ, hp, hq⟩
  · exact fun s side s' hk hstep => hk.step hleft hright hstep

end

/-- Where more answers are possible, the two programs reach at least the same states. -/
theorem reachable_mono {T : Shared Op Res} (hleft : ∀ h, S.left h ≤ T.left h)
    (hright : ∀ h, S.right h ≤ T.right h) {s : Pair Op Res α β}
    (hs : (S.machine p q).Reachable s) : (T.machine p q).Reachable s := by
  have hstep : ∀ s side s', Step S s side s' → Step T s side (s' : Pair Op Res α β) := by
    intro s side s' hstep
    cases hstep with
    | left r hanswer => exact .left r (hleft _ _ _ _ hanswer)
    | right r hanswer => exact .right r (hright _ _ _ _ hanswer)
  refine Machine.invariant (M := S.machine p q) (T.machine p q).Reachable ?_ ?_ hs
  · exact fun s h₀ => ⟨s, [], h₀, .nil s⟩
  · rintro s side s' ⟨s₀, as, h₀, hpath⟩ hnext
    exact ⟨s₀, as ++ [side], h₀, hpath.snoc (hstep s side s' hnext)⟩

/-! ## Termination

The order in which programs get smaller is that of the trees, for the pair in either component.
-/

end Pair

/-- `p'` is what an answer makes of `p`. -/
def Prog.Continues (p' p : Prog Op Res α) : Prop :=
  ∃ op k r, p = .call op k ∧ p' = k r

theorem Prog.continues_wellFounded :
    WellFounded (Prog.Continues : Prog Op Res α → Prog Op Res α → Prop) := by
  refine ⟨fun p => ?_⟩
  induction p with
  | ret a =>
      refine ⟨_, ?_⟩
      rintro p' ⟨op, k, r, heq, -⟩
      cases heq
  | call op k ih =>
      refine ⟨_, ?_⟩
      rintro p' ⟨op', k', r, heq, rfl⟩
      cases heq
      exact ih r

namespace Pair

variable (S : Shared Op Res)

/-- `s'` follows `s` in a run. -/
def StepsDown (s' s : Pair Op Res α β) : Prop := ∃ side, Step S s side s'

/-- **Every run is finite**, whatever the surroundings answer: each step makes one of the two
trees smaller. -/
theorem stepsDown_wellFounded :
    WellFounded (StepsDown S : Pair Op Res α β → Pair Op Res α β → Prop) := by
  refine Subrelation.wf ?_ (InvImage.wf (fun s : Pair Op Res α β => (s.left, s.right))
    (Prog.continues_wellFounded.prod_gameAdd Prog.continues_wellFounded))
  rintro s' s ⟨side, hstep⟩
  cases hstep with
  | left r _ => exact .fst ⟨_, _, r, rfl, rfl⟩
  | right r _ => exact .snd ⟨_, _, r, rfl, rfl⟩

variable {S} {p : Prog Op Res α} {q : Prog Op Res β} {s : Pair Op Res α β}

theorem not_infinite (run : ℕ → Pair Op Res α β) :
    ∃ n, ∀ side, ¬ Step S (run n) side (run (n + 1)) := by
  have hwf : IsWellFounded (Pair Op Res α β) (StepsDown S) := ⟨stepsDown_wellFounded S⟩
  obtain ⟨n, hn⟩ := WellFounded.not_rel_apply_succ (r := StepsDown S) run
  exact ⟨n, fun side hstep => hn ⟨side, hstep⟩⟩

/-- Every run can go on until both programs have returned or wait, also where the steps have to
meet a condition. -/
theorem exists_stuck {ok : Pair Op Res α β → Side → Prop}
    (hs : ((S.machine p q).guarded ok).Reachable s) :
    ∃ s', ((S.machine p q).guarded ok).Reachable s' ∧ ((S.machine p q).guarded ok).Stuck s' := by
  refine Machine.exists_stuck (Subrelation.wf ?_ (stepsDown_wellFounded S)) hs
  rintro s' s ⟨side, -, hstep⟩
  exact ⟨side, hstep⟩

/-- In a stuck state, no operation has an answer. -/
theorem not_left_of_stuck (hs : (S.machine p q).Stuck s) {op : Op} {k : Res op → Prog Op Res α}
    (hcall : s.left = .call op k) (r : Res op) : ¬ S.left s.rightHistory s.leftHistory op r := by
  obtain ⟨left, hl, right, hr⟩ := s
  obtain rfl : left = .call op k := hcall
  exact fun hanswer => hs .left _ (.left r hanswer)

theorem not_right_of_stuck (hs : (S.machine p q).Stuck s) {op : Op} {k : Res op → Prog Op Res β}
    (hcall : s.right = .call op k) (r : Res op) :
    ¬ S.right s.leftHistory s.rightHistory op r := by
  obtain ⟨left, hl, right, hr⟩ := s
  obtain rfl : right = .call op k := hcall
  exact fun hanswer => hs .right _ (.right r hanswer)

end Pair

end Interaction
