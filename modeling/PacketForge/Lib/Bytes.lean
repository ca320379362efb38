import Mathlib.Tactic

set_option autoImplicit false

/-! # Byte strings of unsigned integers

`littleEndian n x` are the `n` low bytes of `x`, least significant first, and `value` is the
number a byte string stands for in that order; `bigEndian` and `bigEndianValue` are the same for
the other order. `Word` collects what a fixed-width unsigned integer type is: a number of bytes
and a bijection with the numbers below `256 ^ size`.

* Writing and reading are inverse to each other: `value_littleEndian` gives the number up to `256
  ^ n`, and `littleEndian_value` gives the bytes, with no condition.
* `littleEndian_eq_reverse` is for code that moves bits: two numbers have reversed bytes if their
  bits correspond, which can be checked for one bit at a time.
-/

namespace Bytes

/-! ## Little-endian strings -/

/-- The `n` low bytes of `x`, least significant first. -/
def littleEndian : Nat → Nat → List UInt8
  | 0, _ => []
  | n + 1, x => UInt8.ofNat x :: littleEndian n (x / 256)

/-- The number whose bytes, least significant first, are `bs`. -/
def value (bs : List UInt8) : Nat := Nat.ofDigits 256 (bs.map UInt8.toNat)

@[simp] theorem value_nil : value [] = 0 := rfl

@[simp] theorem value_cons (b : UInt8) (bs : List UInt8) :
    value (b :: bs) = b.toNat + 256 * value bs := by
  simp [value, Nat.ofDigits_cons]

theorem value_lt (bs : List UInt8) : value bs < 256 ^ bs.length := by
  have hdigits : ∀ x ∈ bs.map UInt8.toNat, x < 256 := by
    intro x hx
    obtain ⟨b, _, rfl⟩ := List.mem_map.mp hx
    exact b.toNat_lt
  simpa [value] using Nat.ofDigits_lt_base_pow_length (by decide) hdigits

@[simp] theorem littleEndian_length (n x : Nat) : (littleEndian n x).length = n := by
  induction n generalizing x with
  | zero => rfl
  | succ n ih => simp [littleEndian, ih]

theorem value_littleEndian (n x : Nat) : value (littleEndian n x) = x % 256 ^ n := by
  induction n generalizing x with
  | zero => simp [littleEndian, Nat.mod_one]
  | succ n ih =>
      rw [littleEndian, value_cons, ih, pow_succ', Nat.mod_mul]
      simp

theorem littleEndian_value (bs : List UInt8) : littleEndian bs.length (value bs) = bs := by
  induction bs with
  | nil => rfl
  | cons b bs ih =>
      have hb := b.toNat_lt
      have hdiv : (b.toNat + 256 * value bs) / 256 = value bs := by omega
      have hmod : UInt8.ofNat (b.toNat + 256 * value bs) = b := by
        apply UInt8.toNat_inj.mp
        rw [UInt8.toNat_ofNat']
        omega
      rw [value_cons, List.length_cons, littleEndian, hdiv, hmod, ih]

theorem getElem_littleEndian (n x k : Nat) (hk : k < (littleEndian n x).length) :
    (littleEndian n x)[k] = UInt8.ofNat (x / 256 ^ k) := by
  induction n generalizing x k with
  | zero => simp at hk
  | succ n ih =>
      cases k with
      | zero => simp [littleEndian]
      | succ k => simp [littleEndian, ih, Nat.div_div_eq_div_mul, pow_succ']

/-- Reversing the bytes of a number, stated on its bits. -/
theorem littleEndian_eq_reverse {n x y : Nat}
    (h : ∀ k < n, ∀ i < 8, y.testBit (8 * k + i) = x.testBit (8 * (n - 1 - k) + i)) :
    littleEndian n y = (littleEndian n x).reverse := by
  apply List.ext_getElem (by simp)
  intro k hk _
  rw [List.getElem_reverse, getElem_littleEndian, getElem_littleEndian]
  simp only [littleEndian_length] at hk ⊢
  apply UInt8.toNat_inj.mp
  rw [UInt8.toNat_ofNat', UInt8.toNat_ofNat', show 256 = 2 ^ 8 from rfl, ← pow_mul, ← pow_mul]
  apply Nat.eq_of_testBit_eq
  intro i
  rw [Nat.testBit_mod_two_pow, Nat.testBit_mod_two_pow, ← Nat.shiftRight_eq_div_pow,
    ← Nat.shiftRight_eq_div_pow, Nat.testBit_shiftRight, Nat.testBit_shiftRight]
  by_cases hi : i < 8
  · rw [h k hk i hi]
  · simp [hi]

/-! ## Big-endian strings -/

/-- The `n` low bytes of `x`, most significant first. -/
def bigEndian (n x : Nat) : List UInt8 := (littleEndian n x).reverse

/-- The number whose bytes, most significant first, are `bs`. -/
def bigEndianValue (bs : List UInt8) : Nat := value bs.reverse

@[simp] theorem bigEndian_length (n x : Nat) : (bigEndian n x).length = n := by
  simp [bigEndian]

theorem bigEndianValue_lt (bs : List UInt8) : bigEndianValue bs < 256 ^ bs.length := by
  simpa [bigEndianValue] using value_lt bs.reverse

theorem bigEndianValue_bigEndian (n x : Nat) : bigEndianValue (bigEndian n x) = x % 256 ^ n := by
  rw [bigEndianValue, bigEndian, List.reverse_reverse, value_littleEndian]

theorem bigEndian_bigEndianValue (bs : List UInt8) :
    bigEndian bs.length (bigEndianValue bs) = bs := by
  have h := littleEndian_value bs.reverse
  rw [List.length_reverse] at h
  rw [bigEndian, bigEndianValue, h, List.reverse_reverse]

end Bytes

/-! ## Unsigned integer types -/

/-- An unsigned integer type of `size` bytes. -/
class Word (T : Type) where
  size : Nat
  toNat : T → Nat
  ofNat : Nat → T
  toNat_lt : ∀ v, toNat v < 256 ^ size
  toNat_ofNat : ∀ x, toNat (ofNat x) = x % 256 ^ size
  ofNat_toNat : ∀ v, ofNat (toNat v) = v

namespace Word

instance : Word UInt16 where
  size := 2
  toNat := UInt16.toNat
  ofNat := UInt16.ofNat
  toNat_lt := UInt16.toNat_lt
  toNat_ofNat _ := UInt16.toNat_ofNat'
  ofNat_toNat _ := UInt16.ofNat_toNat

instance : Word UInt32 where
  size := 4
  toNat := UInt32.toNat
  ofNat := UInt32.ofNat
  toNat_lt := UInt32.toNat_lt
  toNat_ofNat _ := UInt32.toNat_ofNat'
  ofNat_toNat _ := UInt32.ofNat_toNat

instance : Word UInt64 where
  size := 8
  toNat := UInt64.toNat
  ofNat := UInt64.ofNat
  toNat_lt := UInt64.toNat_lt
  toNat_ofNat _ := UInt64.toNat_ofNat'
  ofNat_toNat _ := UInt64.ofNat_toNat

variable {T : Type} [Word T]

theorem toNat_inj {v w : T} (h : toNat v = toNat w) : v = w := by
  rw [← ofNat_toNat v, h, ofNat_toNat]

/-- A value is determined by its bytes. -/
theorem littleEndian_inj {v w : T}
    (h : Bytes.littleEndian (size T) (toNat v) = Bytes.littleEndian (size T) (toNat w)) :
    v = w := by
  have hval := congrArg Bytes.value h
  rw [Bytes.value_littleEndian, Bytes.value_littleEndian, Nat.mod_eq_of_lt (toNat_lt v),
    Nat.mod_eq_of_lt (toNat_lt w)] at hval
  exact toNat_inj hval

end Word
