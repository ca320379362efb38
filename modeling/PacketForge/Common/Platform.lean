import PacketForge.Common.Endian

set_option autoImplicit false

/-! # The machine the code runs on

What the code depends on of its machine: byte order, the width of `std::size_t` and memory.
-/

namespace PacketForge.Common

/-- What the code depends on of the machine it runs on: the byte order
(`Endian::hostEndianness`), the width of `std::size_t` in bits, and whether a `std::vector`
can grow to a number of bytes (if not, the growth throws `std::bad_alloc`). A vector never has
more elements than `std::size_t` can count. -/
structure Platform where
  endianness : Endianness
  sizeBits : Nat
  fits : Nat → Bool
  lt_of_fits : ∀ n, fits n = true → n < 2 ^ sizeBits

/-- The machine on which every vector whose size `std::size_t` can express can be
allocated. -/
def Platform.ample (endianness : Endianness) (sizeBits : Nat) : Platform where
  endianness := endianness
  sizeBits := sizeBits
  fits n := n < 2 ^ sizeBits
  lt_of_fits _ h := of_decide_eq_true h

/-- Every vector of up to `n` bytes can be allocated. -/
def Platform.Allocates (host : Platform) (n : Nat) : Prop := ∀ m ≤ n, host.fits m = true

theorem Platform.Allocates.lt {host : Platform} {n : Nat} (h : host.Allocates n) :
    n < 2 ^ host.sizeBits :=
  host.lt_of_fits n (h n le_rfl)

theorem Platform.ample_allocates {endianness : Endianness} {sizeBits n : Nat}
    (hn : n < 2 ^ sizeBits) : (Platform.ample endianness sizeBits).Allocates n :=
  fun _ hm => decide_eq_true (lt_of_le_of_lt hm hn)

/-- `std::bad_alloc`, thrown where a vector cannot grow. -/
inductive BadAlloc where
  | bad_alloc
  deriving DecidableEq, Repr

end PacketForge.Common
