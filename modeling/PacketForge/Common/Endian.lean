import PacketForge.Lib.Bytes

set_option autoImplicit false

/-! # Byte order (`common/endian.cpp`)

The conversions between the byte order of the host and network byte order, as the code computes
them with masks and shifts, and the object representation of an integer on a host of either byte
order. The host's byte order is a parameter of everything that depends on
`Endian::hostEndianness`.

The two facts everything else uses are `image_hostToNetwork32` (the bytes a converted integer
occupies in memory are its big-endian bytes, on either host) and `networkToHost32_ofImage` (an
integer copied from memory and converted is the big-endian value of the bytes), and the same for
16 bits. `conversions_exact` states them for all widths.

## How the proofs go

That a swap reverses the bytes is shown bit by bit (`reverses_of_testBit`): within a byte the bits
keep their places, so there is one equation for each bit, and the masks and shifts are evaluated
on it. Everything behind that is the same for all widths, and uses of a swap only that it reverses
the bytes (`Reverses`). On a big-endian host the conversions do nothing, and the bytes in memory
are the big-endian ones already.
-/

namespace PacketForge.Common

open Bytes

/-- `enum class Endianness`. -/
inductive Endianness where
  | Little
  | Big
  deriving DecidableEq, Repr

/-! ## Object representation -/

section

variable {T : Type} [Word T]

/-- The bytes of the object `value` in memory, in address order. -/
def image (host : Endianness) (value : T) : List UInt8 :=
  match host with
  | .Little => littleEndian (Word.size T) (Word.toNat value)
  | .Big => bigEndian (Word.size T) (Word.toNat value)

/-- The object whose bytes in memory, in address order, are `bytes`: the effect of
`std::memcpy` into an integer. -/
def ofImage (host : Endianness) (bytes : List UInt8) : T :=
  match host with
  | .Little => Word.ofNat (Bytes.value bytes)
  | .Big => Word.ofNat (bigEndianValue bytes)

@[simp] theorem image_length (host : Endianness) (value : T) :
    (image host value).length = Word.size T := by
  cases host <;> simp [image]

theorem ofImage_image (host : Endianness) (value : T) :
    ofImage host (image host value) = value := by
  apply Word.toNat_inj
  cases host with
  | Little =>
      rw [image, ofImage, Word.toNat_ofNat, value_littleEndian, Nat.mod_mod,
        Nat.mod_eq_of_lt (Word.toNat_lt value)]
  | Big =>
      rw [image, ofImage, Word.toNat_ofNat, bigEndianValue_bigEndian, Nat.mod_mod,
        Nat.mod_eq_of_lt (Word.toNat_lt value)]

end

/-! ## The conversions

The three widths are written out as in the source, each with its own masks.
-/

namespace Endian

/-- `Endian::swap16`. The operands are promoted to `int`, where neither shift overflows, and
the result is truncated to 16 bits. -/
def swap16 (value : UInt16) : UInt16 :=
  ((value.toUInt32 >>> 8) ||| (value.toUInt32 <<< 8)).toUInt16

/-- `Endian::swap32`. -/
def swap32 (value : UInt32) : UInt32 :=
  ((value &&& 0x000000FF) <<< 24) |||
  ((value &&& 0x0000FF00) <<< 8) |||
  ((value &&& 0x00FF0000) >>> 8) |||
  ((value &&& 0xFF000000) >>> 24)

/-- `Endian::swap64`. -/
def swap64 (value : UInt64) : UInt64 :=
  ((value &&& 0x00000000000000FF) <<< 56) |||
  ((value &&& 0x000000000000FF00) <<< 40) |||
  ((value &&& 0x0000000000FF0000) <<< 24) |||
  ((value &&& 0x00000000FF000000) <<< 8) |||
  ((value &&& 0x000000FF00000000) >>> 8) |||
  ((value &&& 0x0000FF0000000000) >>> 24) |||
  ((value &&& 0x00FF000000000000) >>> 40) |||
  ((value &&& 0xFF00000000000000) >>> 56)

def hostToNetwork16 (host : Endianness) (value : UInt16) : UInt16 :=
  if host = .Little then swap16 value else value

def hostToNetwork32 (host : Endianness) (value : UInt32) : UInt32 :=
  if host = .Little then swap32 value else value

def hostToNetwork64 (host : Endianness) (value : UInt64) : UInt64 :=
  if host = .Little then swap64 value else value

def networkToHost16 (host : Endianness) (value : UInt16) : UInt16 := hostToNetwork16 host value

def networkToHost32 (host : Endianness) (value : UInt32) : UInt32 := hostToNetwork32 host value

def networkToHost64 (host : Endianness) (value : UInt64) : UInt64 := hostToNetwork64 host value

end Endian

/-! ## Swapping reverses the bytes

The only place where the masks are looked at.
-/

/-- `swap` reverses the bytes of its argument. -/
def Reverses {T : Type} [Word T] (swap : T → T) : Prop :=
  ∀ v, littleEndian (Word.size T) (Word.toNat (swap v))
    = (littleEndian (Word.size T) (Word.toNat v)).reverse

/-- It is enough to look at the bits: within a byte they keep their places. -/
theorem reverses_of_testBit {T : Type} [Word T] {swap : T → T}
    (hbit : ∀ v, ∀ j < 8 * Word.size T, (Word.toNat (swap v)).testBit j
      = (Word.toNat v).testBit (8 * (Word.size T - 1 - j / 8) + j % 8)) : Reverses swap := by
  intro v
  apply littleEndian_eq_reverse
  intro k hk i hi
  have hbyte : (8 * k + i) / 8 = k := by omega
  have hplace : (8 * k + i) % 8 = i := by omega
  calc (Word.toNat (swap v)).testBit (8 * k + i)
      = (Word.toNat v).testBit (8 * (Word.size T - 1 - (8 * k + i) / 8) + (8 * k + i) % 8) :=
        hbit v (8 * k + i) (by omega)
    _ = (Word.toNat v).testBit (8 * (Word.size T - 1 - k) + i) := by rw [hbyte, hplace]

theorem swap16_reverses : Reverses Endian.swap16 := by
  apply reverses_of_testBit
  intro v j hj
  change j < 16 at hj
  change (Endian.swap16 v).toNat.testBit j = v.toNat.testBit (8 * (1 - j / 8) + j % 8)
  simp only [Endian.swap16, ← UInt16.toNat_toBitVec, BitVec.testBit_toNat,
    UInt32.toBitVec_toUInt16, UInt32.toBitVec_or, UInt32.toBitVec_shiftLeft,
    UInt32.toBitVec_shiftRight, UInt16.toBitVec_toUInt32]
  interval_cases j <;> simp

theorem swap32_reverses : Reverses Endian.swap32 := by
  apply reverses_of_testBit
  intro v j hj
  change j < 32 at hj
  change (Endian.swap32 v).toNat.testBit j = v.toNat.testBit (8 * (3 - j / 8) + j % 8)
  simp only [Endian.swap32, ← UInt32.toNat_toBitVec, BitVec.testBit_toNat,
    UInt32.toBitVec_or, UInt32.toBitVec_and, UInt32.toBitVec_shiftLeft,
    UInt32.toBitVec_shiftRight]
  interval_cases j <;> simp

theorem swap64_reverses : Reverses Endian.swap64 := by
  apply reverses_of_testBit
  intro v j hj
  change j < 64 at hj
  change (Endian.swap64 v).toNat.testBit j = v.toNat.testBit (8 * (7 - j / 8) + j % 8)
  simp only [Endian.swap64, ← UInt64.toNat_toBitVec, BitVec.testBit_toNat,
    UInt64.toBitVec_or, UInt64.toBitVec_and, UInt64.toBitVec_shiftLeft,
    UInt64.toBitVec_shiftRight]
  interval_cases j <;> simp

/-! ## The conversions on either host -/

section

variable {T : Type} [Word T] {swap : T → T}

theorem Reverses.involutive (hs : Reverses swap) (v : T) : swap (swap v) = v := by
  apply Word.littleEndian_inj
  rw [hs, hs, List.reverse_reverse]

theorem Reverses.image_convert (hs : Reverses swap) (host : Endianness) (v : T) :
    image host (if host = .Little then swap v else v)
      = bigEndian (Word.size T) (Word.toNat v) := by
  cases host with
  | Little => rw [if_pos rfl, image, hs, bigEndian]
  | Big => rw [if_neg (by decide), image]

theorem Reverses.convert_ofImage (hs : Reverses swap) (host : Endianness) (bytes : List UInt8)
    (hlen : bytes.length = Word.size T) :
    (if host = .Little then swap (ofImage host bytes) else ofImage host bytes)
      = Word.ofNat (bigEndianValue bytes) := by
  have hbytes : bigEndian (Word.size T) (Word.toNat (Word.ofNat (bigEndianValue bytes) : T))
      = bytes := by
    rw [Word.toNat_ofNat, Nat.mod_eq_of_lt (hlen ▸ bigEndianValue_lt bytes), ← hlen,
      bigEndian_bigEndianValue]
  have himage := hs.image_convert host (Word.ofNat (bigEndianValue bytes) : T)
  rw [hbytes] at himage
  have hof := ofImage_image host
    (if host = .Little then swap (Word.ofNat (bigEndianValue bytes) : T)
      else Word.ofNat (bigEndianValue bytes))
  rw [himage] at hof
  rw [hof]
  cases host with
  | Little => rw [if_pos rfl, if_pos rfl, hs.involutive]
  | Big => rw [if_neg (by decide), if_neg (by decide)]

theorem image_inj {host : Endianness} {v w : T} (h : image host v = image host w) : v = w := by
  rw [← ofImage_image host v, h, ofImage_image]

/-- What it means for two conversions between host and network byte order to be exact: a converted
integer lies in memory in big-endian order, an integer that lies there in big-endian order is
converted to its value, and the two are inverse to each other. -/
structure Exact (host : Endianness) (hostToNetwork networkToHost : T → T) : Prop where
  image_hostToNetwork : ∀ v,
    image host (hostToNetwork v) = bigEndian (Word.size T) (Word.toNat v)
  networkToHost_of_image : ∀ v w, image host w = bigEndian (Word.size T) (Word.toNat v) →
    networkToHost w = v
  networkToHost_hostToNetwork : ∀ v, networkToHost (hostToNetwork v) = v
  hostToNetwork_networkToHost : ∀ v, hostToNetwork (networkToHost v) = v

/-- A conversion that reverses the bytes on a little-endian host is exact in both directions. -/
theorem Reverses.exact (hs : Reverses swap) (host : Endianness) :
    Exact host (fun v => if host = .Little then swap v else v)
      (fun v => if host = .Little then swap v else v) := by
  have hround : ∀ v : T, (if host = .Little then swap (if host = .Little then swap v else v)
      else if host = .Little then swap v else v) = v := by
    intro v
    cases host with
    | Little => simp only [if_true, hs.involutive]
    | Big => rfl
  refine ⟨hs.image_convert host, fun v w hw => ?_, hround, hround⟩
  -- no other word has these bytes
  have heq : w = if host = .Little then swap v else v :=
    image_inj (hw.trans (hs.image_convert host v).symm)
  rw [heq]
  exact hround v

end

theorem image_hostToNetwork16 (host : Endianness) (v : UInt16) :
    image host (Endian.hostToNetwork16 host v) = bigEndian 2 v.toNat :=
  swap16_reverses.image_convert host v

theorem image_hostToNetwork32 (host : Endianness) (v : UInt32) :
    image host (Endian.hostToNetwork32 host v) = bigEndian 4 v.toNat :=
  swap32_reverses.image_convert host v

theorem networkToHost16_ofImage (host : Endianness) (bytes : List UInt8)
    (hlen : bytes.length = 2) :
    Endian.networkToHost16 host (ofImage host bytes) = UInt16.ofNat (bigEndianValue bytes) :=
  swap16_reverses.convert_ofImage host bytes hlen

theorem networkToHost32_ofImage (host : Endianness) (bytes : List UInt8)
    (hlen : bytes.length = 4) :
    Endian.networkToHost32 host (ofImage host bytes) = UInt32.ofNat (bigEndianValue bytes) :=
  swap32_reverses.convert_ofImage host bytes hlen

/-- The shifts of `swap16`, in `int`: nothing is lost, and the sign bit stays clear. -/
theorem promoted_shifts (v : UInt16) : (v.toUInt32 >>> 8).toNat = v.toNat / 2 ^ 8 ∧
    (v.toUInt32 <<< 8).toNat = v.toNat * 2 ^ 8 ∧ v.toNat * 2 ^ 8 < 2 ^ 31 := by
  have hv := v.toNat_lt
  have hlt : v.toNat * 2 ^ 8 < 2 ^ 32 := by omega
  refine ⟨?_, ?_, by omega⟩
  · rw [UInt32.toNat_shiftRight, UInt16.toNat_toUInt32]
    exact Nat.shiftRight_eq_div_pow _ _
  · calc (v.toUInt32 <<< 8).toNat
        = (v.toNat <<< 8) % 2 ^ 32 := by
          rw [UInt32.toNat_shiftLeft, UInt16.toNat_toUInt32]
          rfl
      _ = v.toNat * 2 ^ 8 % 2 ^ 32 := by rw [Nat.shiftLeft_eq]
      _ = v.toNat * 2 ^ 8 := Nat.mod_eq_of_lt hlt

/-- **The byte-order conversions are exact**, for integers of 16, 32 and 64 bits and on a host of
either byte order; and the shifts of `swap16`, which are made in `int`, lose nothing. -/
theorem conversions_exact (host : Endianness) :
    Exact host (Endian.hostToNetwork16 host) (Endian.networkToHost16 host) ∧
    Exact host (Endian.hostToNetwork32 host) (Endian.networkToHost32 host) ∧
    Exact host (Endian.hostToNetwork64 host) (Endian.networkToHost64 host) ∧
    ∀ v : UInt16, (v.toUInt32 >>> 8).toNat = v.toNat / 2 ^ 8 ∧
      (v.toUInt32 <<< 8).toNat = v.toNat * 2 ^ 8 ∧ v.toNat * 2 ^ 8 < 2 ^ 31 :=
  ⟨swap16_reverses.exact host, swap32_reverses.exact host, swap64_reverses.exact host,
    promoted_shifts⟩

example : image .Little (Endian.hostToNetwork32 .Little 0x50464B54) = [0x50, 0x46, 0x4B, 0x54] := by
  decide

end PacketForge.Common
