import Mathlib.Tactic

set_option autoImplicit false

/-! # Replacing one element of a list

A system of many components takes a step of one component: one element of a list is replaced.
Invariants that count components, or collect something from each, do not depend on where it
stands. `Replaces l a a' l'` forgets the position and keeps that `a` became `a'` beside the same
others; the lemmas say how counts, sums and collections change.

The equations are between sums (`countP l' + [p a] = countP l + [p a']`) and not between
differences, so that `omega` can use several of them at once.
-/

variable {α β : Type}

/-- `l'` is `l`, up to order, with one `a` replaced by `a'`. -/
def Replaces (l : List α) (a a' : α) (l' : List α) : Prop :=
  ∃ others, l.Perm (a :: others) ∧ l'.Perm (a' :: others)

theorem replaces_set {l : List α} {i : Nat} {a : α} (a' : α) (h : l[i]? = some a) :
    Replaces l a a' (l.set i a') := by
  obtain ⟨hlt, hget⟩ := List.getElem?_eq_some_iff.mp h
  refine ⟨l.eraseIdx i, ?_, List.set_perm_cons_eraseIdx hlt a'⟩
  have hperm := List.getElem_cons_eraseIdx_perm hlt
  rw [hget] at hperm
  exact hperm.symm

namespace Replaces

variable {l l' : List α} {a a' : α}

theorem mem (h : Replaces l a a' l') : a ∈ l := by
  obtain ⟨others, hl, -⟩ := h
  exact hl.mem_iff.mpr List.mem_cons_self

theorem mem_new (h : Replaces l a a' l') : a' ∈ l' := by
  obtain ⟨others, -, hl'⟩ := h
  exact hl'.mem_iff.mpr List.mem_cons_self

/-- Whatever is in the list afterwards is new or was in it before. -/
theorem mem_cases (h : Replaces l a a' l') {x : α} (hx : x ∈ l') : x = a' ∨ x ∈ l := by
  obtain ⟨others, hl, hl'⟩ := h
  rcases List.mem_cons.mp (hl'.mem_iff.mp hx) with rfl | hother
  · exact .inl rfl
  · exact .inr (hl.mem_iff.mpr (List.mem_cons_of_mem _ hother))

theorem countP (h : Replaces l a a' l') (p : α → Bool) :
    l'.countP p + (if p a then 1 else 0) = l.countP p + if p a' then 1 else 0 := by
  obtain ⟨others, hl, hl'⟩ := h
  rw [hl.countP_eq, hl'.countP_eq, List.countP_cons, List.countP_cons]
  omega

theorem sum_map (h : Replaces l a a' l') (f : α → Nat) :
    (l'.map f).sum + f a = (l.map f).sum + f a' := by
  obtain ⟨others, hl, hl'⟩ := h
  rw [(hl.map f).sum_eq, (hl'.map f).sum_eq, List.map_cons, List.map_cons, List.sum_cons,
    List.sum_cons]
  omega

theorem length_eq (h : Replaces l a a' l') : l'.length = l.length := by
  obtain ⟨others, hl, hl'⟩ := h
  rw [hl.length_eq, hl'.length_eq, List.length_cons, List.length_cons]

theorem filterMap (h : Replaces l a a' l') (f : α → Option β) :
    (l'.filterMap f ++ (f a).toList).Perm (l.filterMap f ++ (f a').toList) := by
  obtain ⟨others, hl, hl'⟩ := h
  have hcons : ∀ x, (x :: others).filterMap f = (f x).toList ++ others.filterMap f := by
    intro x
    cases hx : f x with
    | none => rw [List.filterMap_cons_none hx, Option.toList_none, List.nil_append]
    | some y => rw [List.filterMap_cons_some hx, Option.toList_some, List.singleton_append]
  have hnew := hl'.filterMap f
  have hold := hl.filterMap f
  rw [hcons] at hnew hold
  calc (l'.filterMap f ++ (f a).toList).Perm
        (((f a').toList ++ others.filterMap f) ++ (f a).toList) := hnew.append_right _
    _ |>.Perm ((f a).toList ++ ((f a').toList ++ others.filterMap f)) := List.perm_append_comm
    _ |>.Perm ((f a).toList ++ (others.filterMap f ++ (f a').toList)) :=
        List.perm_append_comm.append_left _
    _ |>.Perm (l.filterMap f ++ (f a').toList) := by
        rw [← List.append_assoc]
        exact hold.symm.append_right _

end Replaces
