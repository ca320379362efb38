import PacketForge.Lib.Interaction

set_option autoImplicit false

/-! # The calls the library makes to its surroundings

The operations of the programs in this development: the system calls of `network/`, `client/` and
`server/`, and the two other places where `server_main.cpp` meets the outside (the flag that its
signal handler sets, and the standard input). A descriptor is the `int` the code holds, with `-1`
for none.

The second half reads off a history what happened to a descriptor: whether it is open, and which
bytes were sent and received on it. `Posix.Kernel` is what every kernel keeps to.

## What is assumed of a kernel

Very little: a descriptor that it returns is not negative and not open, and no more bytes are
moved than were asked for. A call may fail at any time, `::recv` may find the end of the stream at
any time, and descriptors are reused. Results that need more name it as an environment of their
own (a peer that sends a given stream, a connection without faults), and each of these lies within
`Kernel`.
-/

namespace PacketForge.Network

open Interaction

/-! ## Operations

The results keep what the code looks at. `errno` is only ever printed, so a failure comes with its
text.
-/

/-- A call to the surroundings. An IPv4 endpoint is its address in dots and its port. -/
inductive Sys where
  | socket
  | setsockopt (fd : Int)
  | inet_pton (address : String)
  | bind (fd : Int) (address : String) (port : UInt16)
  | listen (fd : Int) (backlog : Int)
  | accept (fd : Int)
  | getsockname (fd : Int)
  | connect (fd : Int) (address : String) (port : UInt16)
  | send (fd : Int) (data : List UInt8) (flags : Int)
  | recv (fd : Int) (size : Nat) (flags : Int)
  | close (fd : Int)
  | shutdownRequested
  | cinGet
  deriving DecidableEq, Repr

/-- The result of a call whose failures are reported with `std::strerror(errno)`. -/
structure Ret where
  value : Int
  strerror : String
  deriving DecidableEq, Repr

/-- The results. `::getsockname` also fills in a port. `::recv` gives the bytes it wrote into
the buffer, whose number is its return value, or `none` for a negative return value. -/
abbrev Sys.Res : Sys → Type
  | .socket => Ret
  | .setsockopt _ => Ret
  | .inet_pton _ => Int
  | .bind _ _ _ => Ret
  | .listen _ _ => Ret
  | .accept _ => Ret
  | .getsockname _ => Ret × UInt16
  | .connect _ _ _ => Ret
  | .send _ _ _ => Int
  | .recv _ _ _ => Option (List UInt8)
  | .close _ => Unit
  | .shutdownRequested => Bool
  | .cinGet => Unit

/-- Programs that make these calls. -/
abbrev SysM := Prog Sys Sys.Res

abbrev SysHistory := History Sys Sys.Res

abbrev SysEvent := Event Sys Sys.Res

namespace Posix

def socket : SysM Ret := Prog.perform Sys.socket

def setsockopt (fd : Int) : SysM Ret := Prog.perform (Sys.setsockopt fd)

def inet_pton (address : String) : SysM Int := Prog.perform (Sys.inet_pton address)

def bind (fd : Int) (address : String) (port : UInt16) : SysM Ret :=
  Prog.perform (Sys.bind fd address port)

def listen (fd backlog : Int) : SysM Ret := Prog.perform (Sys.listen fd backlog)

def accept (fd : Int) : SysM Ret := Prog.perform (Sys.accept fd)

def getsockname (fd : Int) : SysM (Ret × UInt16) := Prog.perform (Sys.getsockname fd)

def connect (fd : Int) (address : String) (port : UInt16) : SysM Ret :=
  Prog.perform (Sys.connect fd address port)

def send (fd : Int) (data : List UInt8) (flags : Int) : SysM Int :=
  Prog.perform (Sys.send fd data flags)

def recv (fd : Int) (size : Nat) (flags : Int) : SysM (Option (List UInt8)) :=
  Prog.perform (Sys.recv fd size flags)

def close (fd : Int) : SysM Unit := Prog.perform (Sys.close fd)

def shutdownRequested : SysM Bool := Prog.perform Sys.shutdownRequested

def cinGet : SysM Unit := Prog.perform Sys.cinGet

end Posix

/-! ## What happened to a descriptor

There is no state of the kernel beside the history: these are functions of it.
-/

/-- The descriptor that a call returned to the program. -/
def obtained : SysEvent → Option Int
  | ⟨.socket, r⟩ => if r.value < 0 then none else some r.value
  | ⟨.accept _, r⟩ => if r.value < 0 then none else some r.value
  | _ => none

/-- The descriptor that a call gave back to the kernel. -/
def released : SysEvent → Option Int
  | ⟨.close fd, _⟩ => some fd
  | _ => none

/-- `fd` was obtained and not closed since. -/
def IsOpen : SysHistory → Int → Prop
  | [], _ => False
  | e :: h, fd => obtained e = some fd ∨ (released e ≠ some fd ∧ IsOpen h fd)

instance IsOpen.decidable (h : SysHistory) (fd : Int) : Decidable (IsOpen h fd) :=
  match h with
  | [] => inferInstanceAs (Decidable False)
  | e :: h =>
    have := IsOpen.decidable h fd
    inferInstanceAs (Decidable (obtained e = some fd ∨ (released e ≠ some fd ∧ IsOpen h fd)))

/-- The bytes that a call moved to the peer of `fd`. -/
def sent (fd : Int) : SysEvent → List UInt8
  | ⟨.send fd' data _, r⟩ => if fd' = fd then data.take r.toNat else []
  | _ => []

/-- The bytes that a call took from the peer of `fd`. -/
def taken (fd : Int) : SysEvent → List UInt8
  | ⟨.recv fd' _ _, r⟩ => if fd' = fd then r.getD [] else []
  | _ => []

/-- All bytes written to `fd`, in order. -/
def written (fd : Int) : SysHistory → List UInt8
  | [] => []
  | e :: h => written fd h ++ sent fd e

/-- All bytes read from `fd`, in order. -/
def consumed (fd : Int) : SysHistory → List UInt8
  | [] => []
  | e :: h => consumed fd h ++ taken fd e

section

variable (fd : Int) (e : SysEvent) (h : SysHistory)

@[simp] theorem written_nil : written fd [] = [] := rfl

@[simp] theorem written_cons : written fd (e :: h) = written fd h ++ sent fd e := rfl

@[simp] theorem consumed_nil : consumed fd [] = [] := rfl

@[simp] theorem consumed_cons : consumed fd (e :: h) = consumed fd h ++ taken fd e := rfl

@[simp] theorem isOpen_nil : ¬ IsOpen [] fd := id

@[simp] theorem isOpen_cons :
    IsOpen (e :: h) fd ↔ obtained e = some fd ∨ (released e ≠ some fd ∧ IsOpen h fd) := Iff.rfl

end

/-- Finitely many descriptors are open, so the kernel always has a new one to give. -/
theorem exists_not_isOpen (h : SysHistory) : ∃ fd : Int, 0 ≤ fd ∧ ¬ IsOpen h fd := by
  have hbound : ∃ n : Int, 0 ≤ n ∧ ∀ fd, IsOpen h fd → fd < n := by
    induction h with
    | nil => exact ⟨0, le_rfl, fun fd hfd => absurd hfd (isOpen_nil fd)⟩
    | cons e h ih =>
        obtain ⟨n, hn, hopen⟩ := ih
        refine ⟨max n ((obtained e).getD 0 + 1), le_max_of_le_left hn, fun fd hfd => ?_⟩
        rcases (isOpen_cons fd e h).mp hfd with hobtained | ⟨-, hold⟩
        · rw [hobtained, Option.getD_some]
          exact lt_max_of_lt_right (lt_add_one fd)
        · exact lt_max_of_lt_left (hopen fd hold)
  obtain ⟨n, hn, hopen⟩ := hbound
  exact ⟨n, hn, fun h => absurd (hopen n h) (lt_irrefl n)⟩

/-! ## The kernel -/

/-- What every kernel keeps to: a new descriptor is not negative and not open, and no more bytes
are moved than the call asked for. Any call may fail at any time. -/
def Kernel : Env Sys Sys.Res := fun h op r =>
  match op, r with
  | .socket, r => r.value = -1 ∨ (0 ≤ r.value ∧ ¬ IsOpen h r.value)
  | .accept _, r => r.value = -1 ∨ (0 ≤ r.value ∧ ¬ IsOpen h r.value)
  | .send _ data _, r => r ≤ data.length
  | .recv _ size _, r => ∀ bytes, r = some bytes → bytes.length ≤ size
  | _, _ => True

end PacketForge.Network
