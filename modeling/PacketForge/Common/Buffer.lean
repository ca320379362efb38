import PacketForge.Common.Platform
import PacketForge.Lib.Fifo

set_option autoImplicit false

/-! # The byte buffer (`common/buffer.cpp`)

A vector of bytes and the position up to which it was read. Both `readPosition_ += size` and the
difference in `readableSize` are computed in `std::size_t`, where they wrap.

`Call` are the calls of the member functions, with what they gave back. `buffer_fifo` says that
under any sequence of calls a buffer is a queue.

## How the proof goes

`Sound` is the invariant of the representation: the number of bytes is a `std::size_t`, and the
position is not behind the end. It is what makes the arithmetic exact
(`Sound.toNat_readableSize`), and it is kept because `read` compares before it adds. `Holds b
pending` adds the abstraction: the bytes from the position on are the pending items of a queue
(`Fifo`). `step_holds` is the simulation for one call; a call that is refused is no event of the
queue, or one that changes nothing.
-/

namespace PacketForge.Common

/-! ## The code

The pointers that callers pass to `read` and `write` are lists of bytes here; that they are valid
for the given size is up to the caller, as in the code.
-/

/-- `class Buffer`, for a `std::size_t` of `w` bits. -/
structure Buffer (w : Nat) where
  buffer : List UInt8
  readPosition : BitVec w
  deriving DecidableEq, Repr

/-- `std::memcpy` of `size` bytes from the start of `source`: the bytes at the destination. -/
def memcpy (destination source : List UInt8) (size : Nat) : List UInt8 :=
  source.take size ++ destination.drop size

namespace Buffer

section

variable {w : Nat}

/-- `Buffer() = default`. -/
def new : Buffer w := ⟨[], 0⟩

/-- `Buffer::size`. -/
def size (self : Buffer w) : BitVec w := BitVec.ofNat w self.buffer.length

/-- `Buffer::readableSize`. -/
def readableSize (self : Buffer w) : BitVec w := self.size - self.readPosition

/-- `Buffer::read`, where `destination` are the bytes from the pointer on: the result, the buffer
and the bytes at the destination. -/
def read (self : Buffer w) (destination : List UInt8) (size : BitVec w) :
    Bool × Buffer w × List UInt8 :=
  if self.readableSize < size then (false, self, destination)
  else
    (true, { self with readPosition := self.readPosition + size },
      memcpy destination (self.buffer.drop self.readPosition.toNat) size.toNat)

/-- `Buffer::clear`. -/
def clear (self : Buffer w) : Buffer w := { self with buffer := [], readPosition := 0 }

end

section

variable (host : Platform)

/-- `Buffer::Buffer(capacity)`. The memory that is reserved holds no bytes. -/
def ofCapacity (capacity : BitVec host.sizeBits) : Except BadAlloc (Buffer host.sizeBits) :=
  if host.fits capacity.toNat then .ok new else .error .bad_alloc

/-- `Buffer::write` of the bytes from `data` to `data + size`. An insertion at the end that throws
leaves the vector as it was. -/
def write (self : Buffer host.sizeBits) (data : List UInt8) :
    Except BadAlloc (Buffer host.sizeBits) :=
  if host.fits (self.buffer.length + data.length) then
    .ok { self with buffer := self.buffer ++ data }
  else .error .bad_alloc

/-! ## Calls -/

/-- A call and what it gave back: whether `write` returned and did not throw; the result of `read`
and the bytes at its destination afterwards. -/
inductive Call (w : Nat) where
  | write (data : List UInt8) (returned : Bool)
  | read (destination : List UInt8) (size : BitVec w) (result : Bool) (copied : List UInt8)
  | clear
  deriving DecidableEq, Repr

inductive Step (self : Buffer host.sizeBits) :
    Call host.sizeBits → Buffer host.sizeBits → Prop
  | write {data : List UInt8} {self' : Buffer host.sizeBits} : self.write host data = .ok self' →
      Step self (.write data true) self'
  | throws {data : List UInt8} {e : BadAlloc} : self.write host data = .error e →
      Step self (.write data false) self
  | read {destination : List UInt8} {size : BitVec host.sizeBits} {result : Bool}
      {self' : Buffer host.sizeBits} {copied : List UInt8} :
      self.read destination size = (result, self', copied) →
      Step self (.read destination size result copied) self'
  | clear : Step self .clear self.clear

/-- The buffers under any calls. -/
def machine : Machine (Buffer host.sizeBits) (Call host.sizeBits) :=
  ⟨fun self => self = new ∨ ∃ capacity, ofCapacity host capacity = .ok self, Step host⟩

end

/-! ## The queue in the buffer

The bytes that were read stay in the vector until `clear`. They are not a part of the queue, and
nothing can be seen of them.
-/

section

variable {w : Nat}

/-- The bytes that were not read yet. -/
def unread (self : Buffer w) : List UInt8 := self.buffer.drop self.readPosition.toNat

/-- What a call means for the queue. A write that threw has not happened. -/
def Call.events : Call w → List (Fifo.Event UInt8)
  | write data true => [.push data]
  | write _ false => []
  | read _ size true copied => [.pop (copied.take size.toNat)]
  | read _ size false _ => [.refuse size.toNat]
  | clear => [.clear]

/-- What was written since the last `clear`. -/
def written (calls : List (Call w)) : List UInt8 := Fifo.supplied (calls.flatMap Call.events)

/-- What was read since the last `clear`. -/
def returned (calls : List (Call w)) : List UInt8 := Fifo.delivered (calls.flatMap Call.events)

/-- The invariant of the representation. The number of bytes is a `std::size_t`, and the position
is not behind the end, so that the difference of the two is what it looks like. -/
structure Sound (b : Buffer w) : Prop where
  length_lt : b.buffer.length < 2 ^ w
  position_le : b.readPosition.toNat ≤ b.buffer.length

variable {self : Buffer w}

theorem new_sound : (new : Buffer w).Sound := ⟨Nat.two_pow_pos w, Nat.zero_le _⟩

theorem Sound.toNat_size (h : self.Sound) : self.size.toNat = self.buffer.length :=
  Nat.mod_eq_of_lt h.length_lt

theorem Sound.toNat_readableSize (h : self.Sound) :
    self.readableSize.toNat = self.unread.length := by
  have hle : self.readPosition ≤ self.size := by
    rw [BitVec.le_def, h.toNat_size]
    exact h.position_le
  rw [readableSize, BitVec.toNat_sub_of_le hle, h.toNat_size, unread, List.length_drop]

theorem Sound.read_cases (h : self.Sound) (destination : List UInt8) (size : BitVec w) :
    (self.unread.length < size.toNat ∧ self.read destination size = (false, self, destination)) ∨
    (size.toNat ≤ self.unread.length ∧ ∃ self' : Buffer w, self'.Sound ∧
      self'.buffer = self.buffer ∧ self'.unread = self.unread.drop size.toNat ∧
      self.read destination size
        = (true, self', self.unread.take size.toNat ++ destination.drop size.toNat)) := by
  rw [← h.toNat_readableSize]
  by_cases hlt : self.readableSize < size
  · exact .inl ⟨hlt, if_pos hlt⟩
  · have hle : size.toNat ≤ self.readableSize.toNat := not_lt.mp hlt
    -- the new position is within the buffer, so the sum does not wrap
    have hsum : self.readPosition.toNat + size.toNat ≤ self.buffer.length := by
      have hposition := h.position_le
      rw [h.toNat_readableSize, unread, List.length_drop] at hle
      omega
    have hposition : (self.readPosition + size).toNat = self.readPosition.toNat + size.toNat :=
      BitVec.toNat_add_of_lt (lt_of_le_of_lt hsum h.length_lt)
    refine .inr ⟨hle, { self with readPosition := self.readPosition + size },
      ⟨h.length_lt, ?_⟩, rfl, ?_, if_neg hlt⟩
    · rwa [hposition]
    · rw [unread, hposition, unread, List.drop_drop]

end

/-- The abstraction of a buffer: its representation is sound, and the bytes behind the position
are the items `pending` of a queue. -/
structure Holds {w : Nat} (b : Buffer w) (pending : List UInt8) : Prop where
  sound : b.Sound
  unread_eq : b.unread = pending

section

variable {host : Platform} {b b' : Buffer host.sizeBits} {pending : List UInt8}

theorem machine_init (h₀ : (machine host).init b) : b.Holds [] := by
  have hnew : b = new := by
    rcases h₀ with heq | ⟨capacity, hreserve⟩
    · exact heq
    · rw [ofCapacity] at hreserve
      split_ifs at hreserve
      exact (Except.ok.inj hreserve).symm
  rw [hnew]
  exact ⟨new_sound, rfl⟩

theorem Sound.write (h : b.Sound) {data : List UInt8} (hwrite : b.write host data = .ok b') :
    b'.Sound ∧ b'.unread = b.unread ++ data := by
  rw [Buffer.write] at hwrite
  split_ifs at hwrite with hfits
  obtain rfl := Except.ok.inj hwrite
  have hlength : (b.buffer ++ data).length = b.buffer.length + data.length := List.length_append
  refine ⟨⟨hlength ▸ host.lt_of_fits _ hfits, ?_⟩, List.drop_append_of_le_length h.position_le⟩
  exact h.position_le.trans (hlength ▸ Nat.le_add_right _ _)

/-- **Every call does to the buffer what it means for the queue.** A write adds its bytes at the
end, a read takes the first ones or is refused, and `clear` forgets all of them. -/
theorem step_holds {call : Call host.sizeBits} (h : b.Holds pending) (hstep : b.Step host call b') :
    ∃ pending', (Fifo.machine UInt8).Path pending call.events pending' ∧ b'.Holds pending' := by
  obtain ⟨hsound, rfl⟩ := h
  have hone : ∀ {e : Fifo.Event UInt8} {pending' : List UInt8}, Fifo.Step b.unread e pending' →
      (Fifo.machine UInt8).Path b.unread [e] pending' := fun he => .snoc (.nil _) he
  cases hstep with
  | @write data _ hwrite =>
      obtain ⟨hsound', hunread⟩ := hsound.write hwrite
      exact ⟨_, hone (.push b.unread data), hsound', hunread⟩
  | throws _ => exact ⟨b.unread, .nil _, hsound, rfl⟩
  | @read destination size result _ copied hread =>
      rcases hsound.read_cases destination size with ⟨hlt, heq⟩ | ⟨hle, c, hc, -, hunread, heq⟩
      · cases heq.symm.trans hread
        exact ⟨_, hone (.refuse hlt), hsound, rfl⟩
      · cases heq.symm.trans hread
        refine ⟨_, hone ?_, hc, hunread⟩
        -- the bytes at the destination are the first ones of the queue
        have htake : (b.unread.take size.toNat).length = size.toNat := List.length_take_of_le hle
        rw [List.take_append_of_le_length htake.ge, List.take_of_length_le htake.le]
        have hpop := Fifo.Step.pop (b.unread.take size.toNat) (b.unread.drop size.toNat)
        rwa [List.take_append_drop] at hpop
  | clear => exact ⟨[], hone (.clear b.unread), new_sound, rfl⟩

end

/-! ## The result -/

/-- **A buffer is a queue.** After any calls on a new buffer it was not read beyond its size, what
is readable is what was written and not read, and a `read` fails exactly if it asks for more than
that, without any effect. -/
theorem buffer_fifo {host : Platform} {b₀ b : Buffer host.sizeBits}
    {calls : List (Call host.sizeBits)} (h₀ : (machine host).init b₀)
    (hcalls : (machine host).Path b₀ calls b) :
    b.readPosition.toNat ≤ b.buffer.length ∧ b.size.toNat = b.buffer.length ∧
    (returned calls).length ≤ (written calls).length ∧
    b.readableSize.toNat = (written calls).length - (returned calls).length ∧
    returned calls ++ b.unread = written calls ∧
    ∀ (destination : List UInt8) (size : BitVec host.sizeBits),
      ((b.read destination size).1 = false ↔ b.readableSize < size) ∧
      ((b.read destination size).1 = false → (b.read destination size).2 = (b, destination)) ∧
      ((b.read destination size).1 = true → (b.read destination size).2.2
        = b.unread.take size.toNat ++ destination.drop size.toNat) := by
  obtain ⟨pending, hpath, hsound, rfl⟩ :=
    hcalls.simulate (R := Holds) (fun _ _ _ _ h hstep => step_holds h hstep) (machine_init h₀)
  obtain ⟨hle, hlength⟩ := Fifo.length_pending hpath
  refine ⟨hsound.position_le, hsound.toNat_size, hle, hsound.toNat_readableSize.trans hlength,
    Fifo.delivered_append hpath, fun destination size => ?_⟩
  have hless : b.readableSize < size ↔ b.unread.length < size.toNat := by
    rw [BitVec.lt_def, hsound.toNat_readableSize]
  rcases hsound.read_cases destination size with ⟨hlt, heq⟩ | ⟨hge, c, -, -, -, heq⟩
  · rw [heq]
    exact ⟨iff_of_true rfl (hless.mpr hlt), fun _ => rfl, Bool.noConfusion⟩
  · rw [heq]
    have hnot : ¬ b.readableSize < size := fun h => absurd (hless.mp h) (not_lt.mpr hge)
    exact ⟨iff_of_false Bool.noConfusion hnot, Bool.noConfusion, fun _ => rfl⟩

/-- Two of three bytes are read, one more is written, and five are asked for. -/
theorem buffer_fifo_refused : ∃ calls b,
    (machine (.ample .Little 64)).Path new calls b ∧ b.readableSize = 2 ∧
    returned calls ++ [30, 40] = written calls ∧ (b.read [] 5).1 = false := by
  have hwrite : Step (.ample .Little 64) new (.write [10, 20, 30] true) ⟨[10, 20, 30], 0⟩ :=
    .write (by decide +kernel)
  have hread : Step (.ample .Little 64) ⟨[10, 20, 30], 0⟩ (.read [0, 0] 2 true [10, 20])
      ⟨[10, 20, 30], 2⟩ := .read (by decide +kernel)
  have hmore : Step (.ample .Little 64) ⟨[10, 20, 30], 2⟩ (.write [40] true)
      ⟨[10, 20, 30, 40], 2⟩ := .write (by decide +kernel)
  have hpath := (((Machine.Path.nil (M := machine (.ample .Little 64)) new).snoc hwrite).snoc
    hread).snoc hmore
  obtain ⟨-, -, -, -, hfifo, hfails⟩ := buffer_fifo (.inl rfl) hpath
  exact ⟨_, _, hpath, rfl, hfifo, (hfails [] 5).1.mpr (by decide +kernel)⟩

end Buffer

end PacketForge.Common
