import Mathlib.Tactic

set_option autoImplicit false

/-! # Errors as values (`common/error.hpp`, `common/error.cpp`)

Every fallible function of the library returns a `common::Error`: a code and a message.
`ErrorCode::Success` with an empty message stands for success.
-/

namespace PacketForge.Common

/-- `enum class ErrorCode`. -/
inductive ErrorCode where
  | Success
  | UnknownError
  | InvalidArgument
  | ConnectionFailed
  | ConnectionClosed
  | SocketError
  | Timeout
  | InvalidPacket
  | SerializationError
  | DeserializationError
  | ProtocolError
  deriving DecidableEq, Repr

/-- `class Error`. -/
structure Error where
  code : ErrorCode
  message : String
  deriving DecidableEq, Repr

namespace Error

/-- `Error::ok`. -/
def ok (e : Error) : Bool := e.code = .Success

/-- The value `common::Error(common::ErrorCode::Success, "")` that successful calls return. -/
def success : Error := ⟨.Success, ""⟩

@[simp] theorem ok_success : success.ok = true := rfl

@[simp] theorem success_code : success.code = .Success := rfl

theorem ok_iff (e : Error) : e.ok = true ↔ e.code = .Success := by simp [ok]

end Error

end PacketForge.Common
