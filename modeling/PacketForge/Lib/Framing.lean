import Mathlib.Tactic

set_option autoImplicit false

/-! # Self-delimiting frames

A framing cuts a stream into records that announce their own size: a record starts with a header
of fixed size, from which the size of its body is computed. Nothing is assumed about how the
header is laid out.

* `Framing.cut s` splits `s` into its complete frames and the incomplete rest; `cut_spec` says
  that it does, and `cut_flatten_append` that the split is the only one of that kind.
* Frames form a prefix code: `IsFrame.eq_of_isPrefix` (two frames at the start of one stream are
  equal) and `isPrefix_of_flatten` (a prefix relation between concatenations of frames is one
  between the lists of frames).

Everything rests on one fact about sizes: as soon as a string holds a header, more elements behind
it do not change the announced size (`size_append`). A reader may therefore decide how much to ask
for when it has the header, and two readers of one stream cannot disagree.
-/

/-- A framing: every frame has a header of `header` elements, which determine the number of
elements of its body. -/
structure Framing (α : Type) where
  header : Nat
  header_pos : 0 < header
  bodyLength : List α → Nat

namespace Framing

variable {α : Type} (F : Framing α)

/-! ## Sizes -/

/-- The size of the frame that `s` starts with, as announced by the first elements of `s`. -/
def size (s : List α) : Nat := F.header + F.bodyLength (s.take F.header)

/-- `s` holds all of the frame it starts with. -/
def Complete (s : List α) : Prop := F.size s ≤ s.length

instance (s : List α) : Decidable (F.Complete s) := Nat.decLe _ _

/-- `f` is one frame, with nothing after it. -/
def IsFrame (f : List α) : Prop := F.size f = f.length

variable {F}

theorem size_pos (s : List α) : 0 < F.size s := Nat.add_pos_left F.header_pos _

theorem Complete.header_le {s : List α} (h : F.Complete s) : F.header ≤ s.length :=
  le_trans (Nat.le_add_right _ _) h

theorem size_append {s : List α} (hs : F.header ≤ s.length) (t : List α) :
    F.size (s ++ t) = F.size s := by
  rw [size, size, List.take_append_of_le_length hs]

theorem size_eq_of_isPrefix {s t : List α} (hs : F.header ≤ s.length) (hp : s <+: t) :
    F.size t = F.size s := by
  obtain ⟨u, rfl⟩ := hp
  exact size_append hs u

theorem Complete.of_isPrefix {s t : List α} (hs : F.Complete s) (hp : s <+: t) : F.Complete t := by
  rw [Complete, size_eq_of_isPrefix hs.header_le hp]
  exact le_trans hs hp.length_le

theorem IsFrame.complete {f : List α} (hf : F.IsFrame f) : F.Complete f := le_of_eq hf

theorem IsFrame.ne_nil {f : List α} (hf : F.IsFrame f) : f ≠ [] := by
  rintro rfl
  exact absurd hf (size_pos (F := F) []).ne'

theorem Complete.isFrame_take {s : List α} (hs : F.Complete s) : F.IsFrame (s.take (F.size s)) := by
  have hlen : (s.take (F.size s)).length = F.size s := List.length_take_of_le hs
  have hsize : F.size s = F.size (s.take (F.size s)) :=
    size_eq_of_isPrefix (by rw [hlen]; exact Nat.le_add_right _ _) (List.take_prefix _ _)
  rw [IsFrame, ← hsize, hlen]

/-! ## Frames are a prefix code

By induction on the list of frames: the first ones of both lists are prefixes of one stream.
-/

theorem IsFrame.eq_of_isPrefix {f g s : List α} (hf : F.IsFrame f) (hg : F.IsFrame g)
    (hfs : f <+: s) (hgs : g <+: s) : f = g := by
  have hlen : f.length = g.length := by
    rw [← hf, ← hg, ← size_eq_of_isPrefix hf.complete.header_le hfs,
      ← size_eq_of_isPrefix hg.complete.header_le hgs]
  exact (List.prefix_of_prefix_length_le hfs hgs hlen.le).eq_of_length hlen

theorem isPrefix_of_flatten {fs gs : List (List α)} (hf : ∀ f ∈ fs, F.IsFrame f)
    (hg : ∀ g ∈ gs, F.IsFrame g) (h : fs.flatten <+: gs.flatten) : fs <+: gs := by
  induction fs generalizing gs with
  | nil => exact List.nil_prefix
  | cons f fs ih =>
      have hfr : F.IsFrame f := hf f List.mem_cons_self
      have hfp : f <+: gs.flatten := (List.prefix_append f fs.flatten).trans h
      cases gs with
      | nil => exact absurd (List.prefix_nil.mp hfp) hfr.ne_nil
      | cons g gs =>
          obtain rfl : f = g :=
            hfr.eq_of_isPrefix (hg g List.mem_cons_self) hfp (List.prefix_append g gs.flatten)
          have hrest : fs.flatten <+: gs.flatten := (List.prefix_append_right_inj f).mp h
          exact List.cons_prefix_cons.mpr ⟨rfl, ih (fun x hx => hf x (List.mem_cons_of_mem _ hx))
            (fun x hx => hg x (List.mem_cons_of_mem _ hx)) hrest⟩

/-- A frame at the start of a concatenation of frames is the first of them. -/
theorem IsFrame.eq_head_of_isPrefix {f : List α} {gs : List (List α)} (hf : F.IsFrame f)
    (hg : ∀ g ∈ gs, F.IsFrame g) (h : f <+: gs.flatten) : ∃ rest, gs = f :: rest := by
  have hp : [f] <+: gs := isPrefix_of_flatten (by simpa using hf) hg (by simpa using h)
  obtain ⟨rest, hrest⟩ := hp
  exact ⟨rest, hrest.symm⟩

/-! ## Cutting a stream

By recursion on the length of the stream, since a frame is not empty.
-/

variable (F) in
/-- The complete frames at the start of `s`, and what is left after the last of them. -/
def cut (s : List α) : List (List α) × List α :=
  if F.Complete s then
    (s.take (F.size s) :: (cut (s.drop (F.size s))).1, (cut (s.drop (F.size s))).2)
  else ([], s)
termination_by s.length
decreasing_by
  all_goals
    have hpos := size_pos (F := F) s
    have hle : F.size s ≤ s.length := by assumption
    rw [List.length_drop]
    omega

theorem cut_of_not_complete {s : List α} (hs : ¬ F.Complete s) : F.cut s = ([], s) := by
  rw [cut, if_neg hs]

theorem cut_frame_append {f : List α} (hf : F.IsFrame f) (s : List α) :
    F.cut (f ++ s) = (f :: (F.cut s).1, (F.cut s).2) := by
  have hsize : F.size (f ++ s) = f.length := by rw [size_append hf.complete.header_le, hf]
  rw [cut, if_pos (hf.complete.of_isPrefix (List.prefix_append f s)), hsize, List.take_left,
    List.drop_left]

/-- **The cut is unique**: a stream made of frames and an incomplete rest is cut into these. -/
theorem cut_flatten_append {fs : List (List α)} {t : List α} (hf : ∀ f ∈ fs, F.IsFrame f)
    (ht : ¬ F.Complete t) : F.cut (fs.flatten ++ t) = (fs, t) := by
  induction fs with
  | nil => exact cut_of_not_complete ht
  | cons f fs ih =>
      rw [List.flatten_cons, List.append_assoc, cut_frame_append (hf f List.mem_cons_self),
        ih fun x hx => hf x (List.mem_cons_of_mem _ hx)]

/-- The frames of a cut and its rest are the stream, the frames are frames, and the rest is
not complete. -/
theorem cut_spec (s : List α) :
    (F.cut s).1.flatten ++ (F.cut s).2 = s ∧ (∀ f ∈ (F.cut s).1, F.IsFrame f) ∧
      ¬ F.Complete (F.cut s).2 := by
  induction hn : s.length using Nat.strong_induction_on generalizing s with
  | _ n ih =>
      by_cases hc : F.Complete s
      · have hpos := size_pos (F := F) s
        have hle : F.size s ≤ s.length := hc
        obtain ⟨hflat, hframes, hrest⟩ := ih (s.drop (F.size s)).length
          (by rw [List.length_drop]; omega) (s.drop (F.size s)) rfl
        rw [cut, if_pos hc]
        refine ⟨?_, ?_, hrest⟩
        · rw [List.flatten_cons, List.append_assoc, hflat, List.take_append_drop]
        · intro f hf
          rcases List.mem_cons.mp hf with rfl | hf
          · exact hc.isFrame_take
          · exact hframes f hf
      · rw [cut_of_not_complete hc]
        exact ⟨rfl, by simp, hc⟩

end Framing
