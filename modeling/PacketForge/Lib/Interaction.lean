import Mathlib.Tactic

set_option autoImplicit false

/-! # Programs

Two programs are equal if they are the same tree, so the monad laws hold as equations.
-/

namespace Interaction

/-! ## Programs -/

/-- A program that issues operations `op : Op`, is answered by values of `Res op`, and
returns an `α`. Every branch is finite: a loop has to justify its termination. -/
inductive Prog (Op : Type) (Res : Op → Type) (α : Type) : Type where
  | ret (a : α)
  | call (op : Op) (k : Res op → Prog Op Res α)

variable {Op : Type} {Res : Op → Type} {α β γ : Type}

namespace Prog

/-- Run `p`, then `f` on what it returned. -/
def bind : Prog Op Res α → (α → Prog Op Res β) → Prog Op Res β
  | .ret a, f => f a
  | .call op k, f => .call op fun r => (k r).bind f

/-- Issue one operation and return its result. -/
def perform (op : Op) : Prog Op Res (Res op) := .call op .ret

instance : Monad (Prog Op Res) where
  pure := .ret
  bind := Prog.bind

@[simp] theorem pure_eq (a : α) : (pure a : Prog Op Res α) = .ret a := rfl

@[simp] theorem bind_eq (p : Prog Op Res α) (f : α → Prog Op Res β) : p >>= f = p.bind f := rfl

@[simp] theorem ret_bind (a : α) (f : α → Prog Op Res β) : (Prog.ret a).bind f = f a := rfl

@[simp] theorem call_bind (op : Op) (k : Res op → Prog Op Res α) (f : α → Prog Op Res β) :
    (Prog.call op k).bind f = .call op fun r => (k r).bind f := rfl

@[simp] theorem perform_bind (op : Op) (f : Res op → Prog Op Res β) :
    (perform op : Prog Op Res (Res op)).bind f = .call op f := rfl

theorem bind_ret (p : Prog Op Res α) : p.bind .ret = p := by
  induction p with
  | ret a => rfl
  | call op k ih => simp only [call_bind, ih]

theorem bind_assoc (p : Prog Op Res α) (f : α → Prog Op Res β) (g : β → Prog Op Res γ) :
    (p.bind f).bind g = p.bind fun a => (f a).bind g := by
  induction p with
  | ret a => rfl
  | call op k ih => simp only [call_bind, ih]

instance : LawfulMonad (Prog Op Res) :=
  LawfulMonad.mk' _ bind_ret (fun _ _ => rfl) bind_assoc

end Prog

/-! ## Histories, environments and runs

A history is all that an environment may look at. What an operating system remembers of a process
is a function of its history, and need not be modelled beside it.
-/

/-- One operation together with the result it got. -/
structure Event (Op : Type) (Res : Op → Type) where
  op : Op
  res : Res op

/-- The operations issued so far with their results, newest first. -/
abbrev History (Op : Type) (Res : Op → Type) := List (Event Op Res)

/-- `h'` is `h` and further events, all of which meet `P`. -/
def Extends (P : Event Op Res → Prop) (h h' : History Op Res) : Prop :=
  ∃ new, h' = new ++ h ∧ ∀ e ∈ new, P e

namespace Extends

variable {P P' : Event Op Res → Prop} {h h₁ h₂ : History Op Res}

theorem refl (h : History Op Res) : Extends P h h := ⟨[], rfl, nofun⟩

theorem cons {e : Event Op Res} (hext : Extends P h h₁) (he : P e) : Extends P h (e :: h₁) := by
  obtain ⟨new, rfl, hnew⟩ := hext
  exact ⟨e :: new, rfl, List.forall_mem_cons.mpr ⟨he, hnew⟩⟩

theorem trans (hext : Extends P h h₁) (hext' : Extends P h₁ h₂) : Extends P h h₂ := by
  obtain ⟨new, rfl, hnew⟩ := hext
  obtain ⟨new', rfl, hnew'⟩ := hext'
  exact ⟨new' ++ new, (List.append_assoc _ _ _).symm, List.forall_mem_append.mpr ⟨hnew', hnew⟩⟩

theorem mono (hP : ∀ e, P e → P' e) (hext : Extends P h h₁) : Extends P' h h₁ := by
  obtain ⟨new, rfl, hnew⟩ := hext
  exact ⟨new, rfl, fun e he => hP e (hnew e he)⟩

end Extends

/-- An environment: which results an operation may get after a history. -/
abbrev Env (Op : Type) (Res : Op → Type) := History Op Res → (op : Op) → Res op → Prop

/-- `Runs E p h a h'`: answered by `E` from the history `h` on, the program `p` can return `a`
after the history `h'`. -/
inductive Runs (E : Env Op Res) : Prog Op Res α → History Op Res → α → History Op Res → Prop
  | ret (a : α) (h : History Op Res) : Runs E (.ret a) h a h
  | call {op : Op} {k : Res op → Prog Op Res α} {h h' : History Op Res} {a : α} (r : Res op) :
      E h op r → Runs E (k r) (⟨op, r⟩ :: h) a h' → Runs E (.call op k) h a h'

/-- An environment that always has an answer lets every program return. -/
theorem exists_runs {E : Env Op Res} (hE : ∀ h op, ∃ r, E h op r) (p : Prog Op Res α)
    (h : History Op Res) : ∃ a h', Runs E p h a h' := by
  induction p generalizing h with
  | ret a => exact ⟨a, h, .ret a h⟩
  | call op k ih =>
      obtain ⟨r, hr⟩ := hE h op
      obtain ⟨a, h', hrun⟩ := ih r (⟨op, r⟩ :: h)
      exact ⟨a, h', .call r hr hrun⟩

theorem Runs.mono {E E' : Env Op Res} {p : Prog Op Res α} {h h' : History Op Res} {a : α}
    (hE : ∀ h op r, E h op r → E' h op r) (hr : Runs E p h a h') : Runs E' p h a h' := by
  induction hr with
  | ret a h => exact .ret a h
  | call r hr _ ih => exact .call r (hE _ _ _ hr) ih

/-- Run a program against a handler that answers every operation from the history. -/
def Prog.run (handler : History Op Res → (op : Op) → Res op) :
    Prog Op Res α → History Op Res → α × History Op Res
  | .ret a, h => (a, h)
  | .call op k, h => (k (handler h op)).run handler (⟨op, handler h op⟩ :: h)

theorem Prog.run_bind (handler : History Op Res → (op : Op) → Res op) (p : Prog Op Res α)
    (f : α → Prog Op Res β) (h : History Op Res) : (p.bind f).run handler h
      = (f (p.run handler h).1).run handler (p.run handler h).2 := by
  induction p generalizing h with
  | ret a => rfl
  | call op k ih => exact ih _ _

/-- A run against a handler is a run in every environment that admits its answers. -/
theorem Prog.run_runs {E : Env Op Res} {handler : History Op Res → (op : Op) → Res op}
    (hE : ∀ h op, E h op (handler h op)) (p : Prog Op Res α) (h : History Op Res) :
    Runs E p h (p.run handler h).1 (p.run handler h).2 := by
  induction p generalizing h with
  | ret a => exact .ret a h
  | call op k ih => exact .call _ (hE h op) (ih _ _)

/-- What happened between two histories, newest first, where the second one extends the first. -/
def since (h h' : History Op Res) : History Op Res := h'.take (h'.length - h.length)

@[simp] theorem since_append (new h : History Op Res) : since h (new ++ h) = new := by
  rw [since, List.length_append, Nat.add_sub_cancel, List.take_left]

theorem Extends.forall_since {P : Event Op Res → Prop} {h h' : History Op Res}
    (hext : Extends P h h') : ∀ e ∈ since h h', P e := by
  obtain ⟨new, rfl, hnew⟩ := hext
  rw [since_append]
  exact hnew

theorem Extends.since_cons {P : Event Op Res → Prop} {h h' : History Op Res}
    (hext : Extends P h h') (e : Event Op Res) : since h (e :: h') = e :: since h h' := by
  obtain ⟨new, rfl, -⟩ := hext
  rw [← List.cons_append, since_append, since_append]

/-! ## Weakest preconditions

A contract restricts both sides: the program may issue certain operations only, and relies on
certain answers only.
-/

/-- A contract between a program and its environment: the operations the program may issue
after a history, and the answers the environment may give. -/
structure Contract (Op : Type) (Res : Op → Type) where
  may : History Op Res → Op → Prop
  answers : Env Op Res

/-- The contract that permits every operation. -/
def Contract.ofEnv (E : Env Op Res) : Contract Op Res := ⟨fun _ _ => True, E⟩

/-- Every operation of `p` is permitted by `C`, and whatever `C` answers, `p` returns
with `Q`. -/
def wp (C : Contract Op Res) :
    Prog Op Res α → (α → History Op Res → Prop) → History Op Res → Prop
  | .ret a, Q, h => Q a h
  | .call op k, Q, h => C.may h op ∧ ∀ r, C.answers h op r → wp C (k r) Q (⟨op, r⟩ :: h)

section

variable {C D : Contract Op Res} {E : Env Op Res}

@[simp] theorem wp_ret (a : α) (Q : α → History Op Res → Prop) (h : History Op Res) :
    wp C (.ret a) Q h ↔ Q a h := Iff.rfl

@[simp] theorem wp_call (op : Op) (k : Res op → Prog Op Res α) (Q : α → History Op Res → Prop)
    (h : History Op Res) :
    wp C (.call op k) Q h ↔
      C.may h op ∧ ∀ r, C.answers h op r → wp C (k r) Q (⟨op, r⟩ :: h) := Iff.rfl

theorem wp_bind (p : Prog Op Res α) (f : α → Prog Op Res β) (Q : β → History Op Res → Prop)
    (h : History Op Res) :
    wp C (p.bind f) Q h ↔ wp C p (fun a h' => wp C (f a) Q h') h := by
  induction p generalizing h with
  | ret a => rfl
  | call op k ih => simp only [Prog.call_bind, wp_call, ih]

theorem wp_mono {p : Prog Op Res α} {Q Q' : α → History Op Res → Prop} {h : History Op Res}
    (hw : wp C p Q h) (hQ : ∀ a h', Q a h' → Q' a h') : wp C p Q' h := by
  induction p generalizing h with
  | ret a => exact hQ a h hw
  | call op k ih => exact ⟨hw.1, fun r hr => ih r (hw.2 r hr)⟩

/-- A program keeps to two contracts at once, where the answers allow it. -/
theorem wp_both {p : Prog Op Res α} {Q Q' : α → History Op Res → Prop} {h : History Op Res}
    (hw : wp C p Q h) (hw' : wp D p Q' h) (hans : ∀ h op r, C.answers h op r → D.answers h op r) :
    wp ⟨fun h op => C.may h op ∧ D.may h op, C.answers⟩ p (fun a h' => Q a h' ∧ Q' a h') h := by
  induction p generalizing h with
  | ret a => exact ⟨hw, hw'⟩
  | call op k ih =>
      exact ⟨⟨hw.1, hw'.1⟩, fun r hr => ih r (hw.2 r hr) (hw'.2 r (hans h op r hr))⟩

/-- What a program guarantees under two contracts, where the answers allow it. -/
theorem wp_and {p : Prog Op Res α} {Q Q' : α → History Op Res → Prop} {h : History Op Res}
    (hw : wp C p Q h) (hw' : wp D p Q' h) (hans : ∀ h op r, C.answers h op r → D.answers h op r) :
    wp C p (fun a h' => Q a h' ∧ Q' a h') h := by
  induction p generalizing h with
  | ret a => exact ⟨hw, hw'⟩
  | call op k ih => exact ⟨hw.1, fun r hr => ih r (hw.2 r hr) (hw'.2 r (hans h op r hr))⟩

theorem wp_true (p : Prog Op Res α) (h : History Op Res) : wp (.ofEnv E) p (fun _ _ => True) h := by
  induction p generalizing h with
  | ret a => trivial
  | call op k ih => exact ⟨trivial, fun r _ => ih r _⟩

/-- The rule of sequencing: the first program establishes `R`, and `R` is all the second one
relies on. -/
theorem wp_seq {p : Prog Op Res α} {f : α → Prog Op Res β} {R : α → History Op Res → Prop}
    {Q : β → History Op Res → Prop} {h : History Op Res} (hp : wp C p R h)
    (hf : ∀ a h', R a h' → wp C (f a) Q h') : wp C (p.bind f) Q h :=
  (wp_bind p f Q h).mpr (wp_mono hp hf)

/-- An invariant of the history that the answers preserve may be assumed at every operation
and at the end, and can be used to meet a stronger contract. -/
theorem wp_invariant {p : Prog Op Res α} {Q : α → History Op Res → Prop} {h : History Op Res}
    (J : History Op Res → Prop) (hJ : J h) (hw : wp C p Q h)
    (hmay : ∀ h op, J h → C.may h op → D.may h op)
    (hans : ∀ h op r, J h → C.may h op → D.answers h op r →
      C.answers h op r ∧ J (⟨op, r⟩ :: h)) :
    wp D p (fun a h' => Q a h' ∧ J h') h := by
  induction p generalizing h with
  | ret a => exact ⟨hw, hJ⟩
  | call op k ih =>
      refine ⟨hmay h op hJ hw.1, fun r hr => ?_⟩
      obtain ⟨hr', hJ'⟩ := hans h op r hJ hw.1 hr
      exact ih r hJ' (hw.2 r hr')

/-- A program keeps what it guarantees in an environment with fewer answers. -/
theorem wp_weaken {p : Prog Op Res α} {Q : α → History Op Res → Prop} {h : History Op Res}
    (hw : wp C p Q h) (hmay : ∀ h op, C.may h op → D.may h op)
    (hans : ∀ h op r, D.answers h op r → C.answers h op r) : wp D p Q h := by
  have hand : wp D p (fun a h' => Q a h' ∧ True) h :=
    wp_invariant (fun _ => True) trivial hw (fun h op _ => hmay h op)
      (fun h op r _ _ hr => ⟨hans h op r hr, trivial⟩)
  exact wp_mono hand fun _ _ hQ => hQ.1

/-- A program only adds to the history: what happened before it started is what the history at its
end ends with. -/
theorem wp_suffix {p : Prog Op Res α} {Q : α → History Op Res → Prop} {h : History Op Res}
    (hw : wp C p Q h) : wp C p (fun a h' => Q a h' ∧ h <:+ h') h :=
  wp_invariant (h <:+ ·) List.suffix_rfl hw (fun _ _ _ hm => hm)
    (fun _ _ _ hs _ hr => ⟨hr, hs.trans (List.suffix_cons _ _)⟩)

/-- **Soundness for complete runs.** If a weakest precondition holds at the start, and the
environment answers as the contract says, every result of a run meets the postcondition. -/
theorem Runs.wp {p : Prog Op Res α} {Q : α → History Op Res → Prop} {h h' : History Op Res}
    {a : α} (hr : Runs C.answers p h a h') (hw : wp C p Q h) : Q a h' := by
  induction hr with
  | ret a h => exact hw
  | call r hr _ ih => exact ih (hw.2 r hr)

/-- **Soundness for the operations of a run**: each of them is one that `C` permits. -/
theorem permitted_of_runs {p : Prog Op Res α} {Q : α → History Op Res → Prop}
    {h h' : History Op Res} {a : α} (hr : Runs C.answers p h a h') (hw : wp C p Q h) :
    ∀ e before, e :: before <:+ h' → h.length ≤ before.length → C.may before e.op := by
  induction hr with
  | ret a h =>
      intro e before hsuffix hle
      have hlength : (e :: before).length ≤ h.length := hsuffix.length_le
      rw [List.length_cons] at hlength
      omega
  | @call op k h h' a r hr hrun ih =>
      intro e before hsuffix hle
      by_cases heq : before.length = h.length
      · -- the first operation of the program
        have hgrows := Runs.wp (C := .ofEnv C.answers) hrun (wp_suffix (wp_true _ _))
        have hsame : e :: before = ⟨op, r⟩ :: h := by
          rw [List.suffix_iff_eq_drop.mp hsuffix, List.suffix_iff_eq_drop.mp hgrows.2]
          simp only [List.length_cons, heq]
        rw [(List.cons.inj hsame).1, (List.cons.inj hsame).2]
        exact hw.1
      · refine ih (hw.2 r hr) e before hsuffix ?_
        rw [List.length_cons]
        omega

/-- **Soundness for the moments of a run**: what the answers to the permitted operations preserve
holds before and after every operation. -/
theorem always_of_runs {p : Prog Op Res α} {Q : α → History Op Res → Prop}
    {h h' : History Op Res} {a : α} (J : History Op Res → Prop) (hJ : J h) (hw : wp C p Q h)
    (hstep : ∀ h op r, J h → C.may h op → C.answers h op r → J (⟨op, r⟩ :: h))
    (hr : Runs C.answers p h a h') :
    ∀ h₁, h₁ <:+ h' → h.length ≤ h₁.length → J h₁ := by
  have hinv : wp ⟨fun h _ => J h, C.answers⟩ p (fun a h' => Q a h' ∧ J h') h :=
    wp_invariant J hJ hw (fun _ _ hJ _ => hJ)
      (fun h op r hJ hmay hr => ⟨hr, hstep h op r hJ hmay hr⟩)
  rintro h₁ ⟨new, hnew⟩ hle
  rcases List.eq_nil_or_concat new with rfl | ⟨new', e, rfl⟩
  · -- the end of the run
    rw [List.nil_append] at hnew
    exact hnew ▸ (Runs.wp (C := ⟨fun h _ => J h, C.answers⟩) hr hinv).2
  · refine permitted_of_runs (C := ⟨fun h _ => J h, C.answers⟩) hr hinv e h₁ ⟨new', ?_⟩ hle
    rw [← hnew, List.concat_append]

end

end Interaction
