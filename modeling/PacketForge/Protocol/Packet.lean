import PacketForge.Common.Platform

set_option autoImplicit false

/-! # Packets (`protocol/packet.hpp`, `protocol/opcode.hpp`)

The packet type with its accessors, the opcodes, the protocol error codes and the exceptions.

`Packet::magic_` is set by the constructor and has no setter, so that every packet object carries
the magic number; the structure keeps this as a field (`Packet.magicNumber_eq`), and no result has
to assume it. The version, on the other hand, can be set to anything, and is what `isValid` checks
besides the size of the payload.

Enumerations of the source are inductive types here, with the number of each constant as a
function. Where the source keeps a number that came from the network, so does the packet: its
`opcode` need not be that of a constant.
-/

namespace PacketForge.Protocol

open Common

/-! ## Codes -/

/-- `enum class Opcode : std::uint16_t`. -/
inductive Opcode where
  | HelloRequest
  | HelloResponse
  | ErrorResponse
  deriving DecidableEq, Repr

def Opcode.value : Opcode → UInt16
  | .HelloRequest => 1
  | .HelloResponse => 2
  | .ErrorResponse => 100

/-- `enum class ProtocolError : std::uint16_t`. -/
inductive ProtocolError where
  | InvalidPacket
  | UnsupportedOpcode
  | UnsupportedVersion
  | InvalidPayload
  deriving DecidableEq, Repr

def ProtocolError.value : ProtocolError → UInt16
  | .InvalidPacket => 1
  | .UnsupportedOpcode => 2
  | .UnsupportedVersion => 3
  | .InvalidPayload => 4

/-! ## Packets -/

/-- `Packet::HEADER_SIZE`. -/
def HEADER_SIZE : Nat := 16

/-- `Packet::MagicNumber`. -/
def MagicNumber : UInt32 := 0x50464B54

/-- `Packet::VERSION`. -/
def VERSION : UInt8 := 1

/-- `class Packet`. -/
@[ext]
structure Packet where
  magicNumber : UInt32 := MagicNumber
  version : UInt8
  flags : UInt8
  opcode : UInt16
  sequenceId : UInt32
  payload : List UInt8
  magicNumber_eq : magicNumber = MagicNumber := by rfl
  deriving DecidableEq

namespace Packet

/-- `Packet::Packet`. -/
def new : Packet where
  version := VERSION
  flags := 0
  opcode := 0
  sequenceId := 0
  payload := []

def setVersion (p : Packet) (version : UInt8) : Packet := { p with version := version }

def setFlags (p : Packet) (flags : UInt8) : Packet := { p with flags := flags }

def setOpcode (p : Packet) (opcode : UInt16) : Packet := { p with opcode := opcode }

def setSequenceId (p : Packet) (id : UInt32) : Packet := { p with sequenceId := id }

def setPayload (p : Packet) (payload : List UInt8) : Packet := { p with payload := payload }

/-- `Packet::payloadLength`: the size of the payload, narrowed to 32 bits. -/
def payloadLength (p : Packet) : UInt32 := UInt32.ofNat p.payload.length

/-- `Packet::isValid`. -/
def isValid (p : Packet) : Bool :=
  if p.magicNumber ≠ MagicNumber then false
  else if p.version ≠ VERSION then false
  else if p.payload.length > 2 ^ 32 - 1 then false
  else true

theorem isValid_iff (p : Packet) :
    p.isValid = true ↔ p.version = VERSION ∧ p.payload.length ≤ 2 ^ 32 - 1 := by
  simp only [isValid, p.magicNumber_eq]
  by_cases hv : p.version = VERSION <;> simp [hv]

theorem toNat_payloadLength {p : Packet} (h : p.payload.length ≤ 2 ^ 32 - 1) :
    p.payloadLength.toNat = p.payload.length := by
  rw [payloadLength, UInt32.toNat_ofNat']
  omega

end Packet

/-! ## Exceptions -/

/-- The exceptions the library throws or lets pass; all derive from `std::exception`. -/
inductive Exception where
  | invalid_argument (what : String)
  | bad_alloc
  | ProtocolDecodeError (error : ProtocolError) (what : String)
  deriving DecidableEq, Repr

/-- `std::exception::what`. -/
def Exception.what : Exception → String
  | .invalid_argument what => what
  | .bad_alloc => "std::bad_alloc"
  | .ProtocolDecodeError _ what => what

/-- The ways a function can fail to return: it throws, or it reads outside of a vector. -/
inductive Abort where
  | throws (e : Exception)
  | outOfBounds
  deriving DecidableEq, Repr

end PacketForge.Protocol
