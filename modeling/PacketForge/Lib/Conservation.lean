import PacketForge.Lib.Interaction

set_option autoImplicit false

/-! # Programs that account for resources

Resources are the elements of a commutative monoid. A ledger says which resources are live after a
history, and which operations a program may issue beside resources of others, the *frame*. A
program conserves resources when it turns those it is given into those it returns, whatever the
frame, and leaves the frame alone.

The rules are those of a small separation logic: `Conserves.ret`, `Conserves.bind` and
`Conserves.frame`. The frame rule needs no side condition: the definition quantifies over all
frames, and what may be done beside a frame may be done beside any part of it.

A ledger for descriptors, say, has functions from descriptors to multiplicities for its monoid.
Then "no descriptor is lost, none is held twice and none is closed that belongs to somebody else"
is one equation between two such functions, and is proved by adding up.
-/

namespace Interaction

variable {Op : Type} {Res : Op → Type} {M : Type} [AddCommMonoid M] {α β : Type}

/-- Which resources are live after a history, and what a program may do beside a frame. The
smaller the frame, the more is permitted. -/
structure Ledger (Op : Type) (Res : Op → Type) (M : Type) [AddCommMonoid M] where
  live : History Op Res → M
  may : M → History Op Res → Op → Prop
  answers : Env Op Res
  may_of_add : ∀ {F G : M} {h : History Op Res} {op : Op}, may (F + G) h op → may G h op

namespace Ledger

/-- The contract of a program beside the frame `F`. -/
def contract (L : Ledger Op Res M) (F : M) : Contract Op Res := ⟨L.may F, L.answers⟩

/-- `p` turns the resources `before` into the resources `after`. -/
def Conserves (L : Ledger Op Res M) (before : M) (p : Prog Op Res α) (after : α → M) : Prop :=
  ∀ F h, L.live h = before + F →
    wp (L.contract F) p (fun a h' => L.live h' = after a + F) h

namespace Conserves

variable {L : Ledger Op Res M} {before : M} {after : α → M}

theorem ret {a : α} (heq : before = after a) : L.Conserves before (pure a) after :=
  fun F _ hlive => hlive.trans (congrArg (· + F) heq)

theorem bind {p : Prog Op Res α} {f : α → Prog Op Res β} {mid : α → M} {after : β → M}
    (hp : L.Conserves before p mid) (hf : ∀ a, L.Conserves (mid a) (f a) after) :
    L.Conserves before (p >>= f) after :=
  fun F h hlive => wp_seq (hp F h hlive) fun a h' hlive' => hf a F h' hlive'

/-- Sequencing, where the second program relies on what the first one returns. -/
theorem bind_of {p : Prog Op Res α} {f : α → Prog Op Res β} {mid : α → M} {after : β → M}
    {Q : α → Prop} (hp : L.Conserves before p mid)
    (hQ : ∀ h, wp (.ofEnv L.answers) p (fun a _ => Q a) h)
    (hf : ∀ a, Q a → L.Conserves (mid a) (f a) after) : L.Conserves before (p >>= f) after := by
  intro F h hlive
  have hboth := wp_and (hp F h hlive) (hQ h) (fun _ _ _ hr => hr)
  exact wp_seq hboth fun a h' ha => hf a ha.2 F h' ha.1

/-- The program does not touch what it is not given. -/
theorem frame {p : Prog Op Res α} (G : M) (hp : L.Conserves before p after) :
    L.Conserves (before + G) p (fun a => after a + G) := by
  intro F h hlive
  rw [add_assoc] at hlive
  have hrun := hp (G + F) h hlive
  refine wp_weaken (wp_mono hrun fun a h' hlive' => ?_) (fun h op hmay => L.may_of_add hmay)
    (fun _ _ _ hr => hr)
  rw [add_assoc]
  exact hlive'

end Conserves

end Ledger

end Interaction
