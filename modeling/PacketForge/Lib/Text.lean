import Mathlib.Data.List.DropRight
import Mathlib.Tactic

set_option autoImplicit false

/-! # Text formats

Two operations of text formats, on lists over any type: `strip p` removes the elements that meet `p`
from both ends, and `splitLines sep` cuts a list at the separators. Decimal numbers are lists of
bytes in ASCII.

* `strip_append_cons`: what is stripped from a list around an element that does not meet `p`.
* `strip_padded`: padding has no effect.
* `splitLines_append`, `splitLines_of_notMem`: the first line of a list, from which the rest follows
  by recursion.
* `ofDecimal_toDecimal`: reading a number that was written gives the number.
-/

namespace Text

variable {α : Type}

/-! ## Stripping

`strip` is defined with the functions of the library for dropping at the two ends, and these
lemmas are what is needed to compute it around a known middle part.
-/

/-- The list without the elements at its two ends that meet `p`. -/
def strip (p : α → Bool) (l : List α) : List α := (l.dropWhile p).rdropWhile p

section

variable {p : α → Bool} {x : α}

theorem dropWhile_append_cons (a b : List α) (hx : p x = false) :
    (a ++ x :: b).dropWhile p = a.dropWhile p ++ x :: b := by
  induction a with
  | nil => exact List.dropWhile_cons_of_neg (by simp [hx])
  | cons y a ih =>
      rw [List.cons_append, List.dropWhile_cons, List.dropWhile_cons]
      split_ifs
      · exact ih
      · rfl

theorem rdropWhile_append_cons (a b : List α) (hx : p x = false) :
    (a ++ x :: b).rdropWhile p = a ++ x :: b.rdropWhile p := by
  rw [List.rdropWhile, List.reverse_append, List.reverse_cons, List.append_assoc,
    List.singleton_append, dropWhile_append_cons _ _ hx]
  simp [List.rdropWhile]

/-- Stripping around an element that stays. -/
theorem strip_append_cons (a b : List α) (hx : p x = false) :
    strip p (a ++ x :: b) = a.dropWhile p ++ x :: b.rdropWhile p := by
  rw [strip, dropWhile_append_cons a b hx, rdropWhile_append_cons _ _ hx]

theorem strip_eq_nil_iff (l : List α) : strip p l = [] ↔ ∀ x ∈ l, p x = true := by
  constructor
  · intro hnil x hmem
    by_contra hx
    rw [Bool.not_eq_true] at hx
    obtain ⟨a, b, rfl⟩ := List.append_of_mem hmem
    rw [strip_append_cons a b hx] at hnil
    simp at hnil
  · intro hall
    rw [strip, List.dropWhile_eq_nil_iff.mpr hall]
    rfl

/-- An element that does not meet `p` is not stripped. -/
theorem mem_strip_iff (l : List α) (hx : p x = false) : x ∈ strip p l ↔ x ∈ l := by
  constructor
  · intro hmem
    exact (List.dropWhile_suffix p).subset ((List.rdropWhile_prefix p _).subset hmem)
  · intro hmem
    obtain ⟨a, b, rfl⟩ := List.append_of_mem hmem
    rw [strip_append_cons a b hx]
    simp

/-- A list is stripped when neither of its ends meets `p`. -/
theorem strip_eq_self {l : List α} (hhead : ∀ x, l.head? = some x → p x = false)
    (hlast : ∀ x, l.getLast? = some x → p x = false) : strip p l = l := by
  cases l with
  | nil => rfl
  | cons x l =>
      rw [strip, List.dropWhile_cons_of_neg (by simp [hhead x rfl]), List.rdropWhile_eq_self_iff]
      intro hne
      simp [hlast _ (List.getLast?_eq_some_getLast hne)]

/-- A stripped list does not start with an element that meets `p`. -/
theorem takeWhile_of_strip_eq {l : List α} (hstrip : strip p l = l) : l.takeWhile p = [] := by
  rcases l with _ | ⟨x, l⟩
  · rfl
  rw [List.takeWhile_cons]
  split_ifs with hx
  · exfalso
    have hle : (strip p (x :: l)).length ≤ l.length := by
      calc (strip p (x :: l)).length
          ≤ ((x :: l).dropWhile p).length := (List.rdropWhile_prefix p _).length_le
        _ = (l.dropWhile p).length := by rw [List.dropWhile_cons_of_pos hx]
        _ ≤ l.length := (List.dropWhile_suffix p).length_le
    rw [hstrip, List.length_cons] at hle
    omega
  · rfl

theorem rdropWhile_append_of_pos (l : List α) {v : List α} (hv : ∀ x ∈ v, p x = true) :
    (l ++ v).rdropWhile p = l.rdropWhile p := by
  rw [List.rdropWhile, List.reverse_append,
    List.dropWhile_append_of_pos fun x hx => hv x (List.mem_reverse.mp hx)]
  rfl

/-- Padding has no effect. -/
theorem strip_padded {u v : List α} (m : List α) (hu : ∀ x ∈ u, p x = true)
    (hv : ∀ x ∈ v, p x = true) : strip p (u ++ m ++ v) = strip p m := by
  by_cases hall : ∀ x ∈ m, p x = true
  · rw [(strip_eq_nil_iff m).mpr hall, strip_eq_nil_iff]
    intro x hx
    rcases List.mem_append.mp hx with hx | hx
    · rcases List.mem_append.mp hx with hx | hx
      · exact hu x hx
      · exact hall x hx
    · exact hv x hx
  · push Not at hall
    obtain ⟨x, hmem, hx⟩ := hall
    rw [ne_eq, Bool.not_eq_true] at hx
    obtain ⟨a, b, rfl⟩ := List.append_of_mem hmem
    have hshape : u ++ (a ++ x :: b) ++ v = (u ++ a) ++ x :: (b ++ v) := by simp
    rw [hshape, strip_append_cons _ _ hx, strip_append_cons _ _ hx,
      List.dropWhile_append_of_pos hu, rdropWhile_append_of_pos b hv]

theorem strip_dropWhile (l : List α) : strip p (l.dropWhile p) = strip p l := by
  rw [strip, List.dropWhile_idempotent, strip]

theorem strip_rdropWhile (l : List α) : strip p (l.rdropWhile p) = strip p l := by
  have hpadded := strip_padded (p := p) (u := []) (v := l.rtakeWhile p) (l.rdropWhile p) nofun
    (fun x hx => List.mem_rtakeWhile_imp hx)
  rw [List.nil_append, List.rdropWhile_append_rtakeWhile] at hpadded
  exact hpadded.symm

theorem strip_strip (l : List α) : strip p (strip p l) = strip p l := by
  calc strip p (strip p l) = strip p (l.dropWhile p) := strip_rdropWhile _
    _ = strip p l := strip_dropWhile l

end

/-! ## Splitting

The result has two parts because the text behind the last separator is not a line like the others.
-/

section

variable [DecidableEq α]

/-- The lines of a list that end with the separator, and what is behind the last one. -/
def splitLines (sep : α) : List α → List (List α) × List α
  | [] => ([], [])
  | x :: l =>
    if x = sep then ([] :: (splitLines sep l).1, (splitLines sep l).2)
    else
      match (splitLines sep l).1 with
      | [] => ([], x :: (splitLines sep l).2)
      | line :: lines => ((x :: line) :: lines, (splitLines sep l).2)

variable {sep : α}

/-- A list without separator has no complete line. -/
theorem splitLines_of_notMem {line : List α} (hline : sep ∉ line) :
    splitLines sep line = ([], line) := by
  induction line with
  | nil => rfl
  | cons x line ih =>
      rw [List.mem_cons, not_or] at hline
      rw [splitLines, if_neg (Ne.symm hline.1), ih hline.2]

/-- The first complete line of a list that starts with one. -/
theorem splitLines_append {line : List α} (hline : sep ∉ line) (rest : List α) :
    splitLines sep (line ++ sep :: rest)
      = (line :: (splitLines sep rest).1, (splitLines sep rest).2) := by
  induction line with
  | nil => rw [List.nil_append, splitLines, if_pos rfl]
  | cons x line ih =>
      rw [List.mem_cons, not_or] at hline
      rw [List.cons_append, splitLines, if_neg (Ne.symm hline.1), ih hline.2]

/-- A list is a first line and the rest, or has no separator. -/
theorem exists_line (sep : α) (l : List α) :
    sep ∉ l ∨ ∃ line rest, sep ∉ line ∧ l = line ++ sep :: rest := by
  by_cases hmem : sep ∈ l
  · obtain ⟨line, rest, rfl, hline⟩ := List.eq_append_cons_of_mem hmem
    exact .inr ⟨line, rest, hline, rfl⟩
  · exact .inl hmem

end

/-! ## Decimal numbers -/

/-- An ASCII digit. -/
def isDigit (b : UInt8) : Bool := 48 ≤ b && b ≤ 57

/-- The number that a list of digits stands for. -/
def ofDecimal (digits : List UInt8) : Nat := digits.foldl (fun n d => 10 * n + (d.toNat - 48)) 0

/-- The digits of a number, without leading zeros. -/
def toDecimal (n : Nat) : List UInt8 :=
  if n < 10 then [UInt8.ofNat (48 + n)]
  else toDecimal (n / 10) ++ [UInt8.ofNat (48 + n % 10)]
termination_by n
decreasing_by omega

theorem toNat_digit {d : Nat} (hd : d < 10) : (UInt8.ofNat (48 + d)).toNat = 48 + d :=
  Nat.mod_eq_of_lt (by omega)

theorem isDigit_digit {d : Nat} (hd : d < 10) : isDigit (UInt8.ofNat (48 + d)) = true := by
  have hval := toNat_digit hd
  simp only [isDigit, Bool.and_eq_true, decide_eq_true_eq, UInt8.le_iff_toNat_le, hval]
  exact ⟨Nat.le_add_right 48 d, (by omega : 48 + d ≤ 57)⟩

theorem ofDecimal_concat (digits : List UInt8) (d : UInt8) :
    ofDecimal (digits ++ [d]) = 10 * ofDecimal digits + (d.toNat - 48) := by
  rw [ofDecimal, List.foldl_append]
  rfl

theorem ofDecimal_toDecimal (n : Nat) : ofDecimal (toDecimal n) = n := by
  induction n using toDecimal.induct with
  | case1 n hlt =>
      rw [toDecimal, if_pos hlt, ← List.nil_append [_], ofDecimal_concat, toNat_digit hlt]
      show 10 * 0 + (48 + n - 48) = n
      omega
  | case2 n hge ih =>
      rw [toDecimal, if_neg hge, ofDecimal_concat, ih, toNat_digit (Nat.mod_lt n (by omega))]
      omega

theorem isDigit_of_mem_toDecimal (n : Nat) : ∀ d ∈ toDecimal n, isDigit d = true := by
  induction n using toDecimal.induct with
  | case1 n hlt =>
      rw [toDecimal, if_pos hlt]
      intro d hd
      rw [List.mem_singleton.mp hd]
      exact isDigit_digit hlt
  | case2 n hge ih =>
      rw [toDecimal, if_neg hge]
      intro d hd
      rcases List.mem_append.mp hd with hd | hd
      · exact ih d hd
      · rw [List.mem_singleton.mp hd]
        exact isDigit_digit (Nat.mod_lt n (by omega))

theorem toDecimal_ne_nil (n : Nat) : toDecimal n ≠ [] := by
  rw [toDecimal]
  split_ifs <;> simp

end Text
