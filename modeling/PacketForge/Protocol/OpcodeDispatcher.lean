import PacketForge.Common.Error
import PacketForge.Protocol.Packet

set_option autoImplicit false

/-! # Dispatching requests (`protocol/opcode_dispatcher.cpp`)

`OpcodeDispatcher` makes the response to a request. Both outcomes of it, the handler of a
known opcode and the error response, are successes.
-/

namespace PacketForge.Protocol

open Common

namespace OpcodeDispatcher

/-- The payload of `handleHello`. -/
def helloPayload : List UInt8 :=
  ['H', 'e', 'l', 'l', 'o', ' ',
    'f', 'r', 'o', 'm', ' ',
    'P', 'a', 'c', 'k', 'e', 't',
    'F', 'o', 'r', 'g', 'e', ' ',
    'S', 'e', 'r', 'v', 'e', 'r'].map Char.toUInt8

/-- `OpcodeDispatcher::handleHello`. -/
def handleHello (request : Packet) : Error × Packet :=
  let response := Packet.new
  let response := response.setVersion VERSION
  let response := response.setFlags 0
  let response := response.setOpcode Opcode.HelloResponse.value
  let response := response.setSequenceId request.sequenceId
  let response := response.setPayload helloPayload
  (.success, response)

/-- `OpcodeDispatcher::makeErrorResponse`. -/
def makeErrorResponse (request : Packet) (error : ProtocolError) : Error × Packet :=
  let response := Packet.new
  let response := response.setVersion VERSION
  let response := response.setFlags 0
  let response := response.setOpcode Opcode.ErrorResponse.value
  let response := response.setSequenceId request.sequenceId
  let response := response.setPayload [error.value.toUInt8]
  (.success, response)

/-- `OpcodeDispatcher::dispatch`. -/
def dispatch (request : Packet) : Error × Packet :=
  if request.version ≠ VERSION then makeErrorResponse request .UnsupportedVersion
  else if request.opcode = Opcode.HelloRequest.value then handleHello request
  else makeErrorResponse request .UnsupportedOpcode

/-- Dispatching never fails, and the response can always be sent. -/
theorem dispatch_isValid (request : Packet) :
    (dispatch request).1.ok = true ∧ (dispatch request).2.isValid = true := by
  rw [dispatch]
  split_ifs
  · exact ⟨rfl, rfl⟩
  · exact ⟨rfl, rfl⟩
  · exact ⟨rfl, rfl⟩

end OpcodeDispatcher

end PacketForge.Protocol
