import PacketForge.Lib.Framing
import PacketForge.Protocol.Packet

set_option autoImplicit false

/-! # Encoder and decoder (`protocol/encoder.cpp`, `protocol/decoder.cpp`)

`Encoder.encode` and `Decoder.decode` as the code computes them, on a given machine, and the
layout they agree on:

offset 0 magic number 4 bytes, big-endian 4 version 1 byte 5 flags 1 byte 6 opcode 2 bytes,
big-endian 8 sequence id 4 bytes, big-endian 12 payload length 4 bytes, big-endian 16 payload

`wireFormat` is that layout as a mathematical function of the packet; `packetFraming` is the
division of a byte stream into frames it gives rise to.

## What depends on the machine

The code copies integers between memory and the vector, and converts them between the byte order
of the machine and that of the network. Its size check is made in `std::size_t`, where the sum of
the header and the announced length wraps on a machine of 32 bits. And a vector may fail to grow.
All three are in `Platform`, which the functions take as their first argument; `wireFormat` and
`packetAt` do not have it. That they agree nevertheless is the subject of `CodecLemmas`.
-/

namespace PacketForge.Protocol

open Common Bytes

/-! ## The code

A result is in `Except`: a function throws, or reads outside of a vector, which the source does
not exclude by its types. That the second never happens is a result, not an assumption.
-/

namespace Encoder

/-- `appendValue<T>`. -/
def appendValue {T : Type} [Word T] (host : Platform) (buffer : List UInt8) (value : T) :
    List UInt8 :=
  buffer ++ image host.endianness value

/-- `Encoder::encode`. The only growth of the buffer is the `reserve` before the first
append, to the size of the whole encoding. -/
def encode (host : Platform) (packet : Packet) : Except Exception (List UInt8) :=
  if !packet.isValid then
    .error (.invalid_argument "Cannot encode invalid packet")
  else if !host.fits (HEADER_SIZE + packet.payload.length) then
    .error .bad_alloc
  else
    let buffer : List UInt8 := []
    let buffer := appendValue host buffer
      (Endian.hostToNetwork32 host.endianness packet.magicNumber)
    let buffer := buffer ++ [packet.version]
    let buffer := buffer ++ [packet.flags]
    let buffer := appendValue host buffer
      (Endian.hostToNetwork16 host.endianness packet.opcode)
    let buffer := appendValue host buffer
      (Endian.hostToNetwork32 host.endianness packet.sequenceId)
    let buffer := appendValue host buffer
      (Endian.hostToNetwork32 host.endianness packet.payloadLength)
    let buffer := buffer ++ packet.payload
    .ok buffer

end Encoder

namespace Decoder

/-- `data[index]`. -/
def readByte (data : List UInt8) (index : Nat) : Except Abort UInt8 :=
  match data[index]? with
  | some b => .ok b
  | none => .error .outOfBounds

/-- `Decoder::readUint32`. -/
def readUint32 (host : Platform) (data : List UInt8) (offset : Nat) : Except Abort UInt32 :=
  if offset + 4 ≤ data.length then
    .ok (Endian.networkToHost32 host.endianness
      (ofImage host.endianness ((data.drop offset).take 4)))
  else .error .outOfBounds

/-- `Decoder::readUint16`. -/
def readUint16 (host : Platform) (data : List UInt8) (offset : Nat) : Except Abort UInt16 :=
  if offset + 2 ≤ data.length then
    .ok (Endian.networkToHost16 host.endianness
      (ofImage host.endianness ((data.drop offset).take 2)))
  else .error .outOfBounds

/-- `Decoder::decode`. The size check is made in `std::size_t` arithmetic. The payload is
copied twice, into a local vector and into the packet. -/
def decode (host : Platform) (data : List UInt8) : Except Abort Packet :=
  if data.length < HEADER_SIZE then
    .error (.throws (.ProtocolDecodeError .InvalidPacket "Invalid packet size"))
  else do
    let magic ← readUint32 host data 0
    if magic ≠ MagicNumber then
      .error (.throws (.ProtocolDecodeError .InvalidPacket "Invalid magic number"))
    else
      let version ← readByte data 4
      if version ≠ VERSION then
        .error (.throws (.ProtocolDecodeError .UnsupportedVersion "Unsupported protocol version"))
      else
        let flags ← readByte data 5
        let opcode ← readUint16 host data 6
        let sequenceId ← readUint32 host data 8
        let payloadLength ← readUint32 host data 12
        let expectedSize := (HEADER_SIZE + payloadLength.toNat) % 2 ^ host.sizeBits
        if data.length ≠ expectedSize then
          .error (.throws (.ProtocolDecodeError .InvalidPayload "Payload size mismatch"))
        else
          let packet := Packet.new
          let packet := packet.setVersion version
          let packet := packet.setFlags flags
          let packet := packet.setOpcode opcode
          let packet := packet.setSequenceId sequenceId
          if payloadLength > 0 then
            let payload := data.drop HEADER_SIZE
            if !host.fits payload.length then
              .error (.throws .bad_alloc)
            else
              .ok (packet.setPayload payload)
          else
            .ok packet

end Decoder

/-! ## The layout

The definitions that the results are stated with. They are written without the code: as a
concatenation of big-endian numbers, and as the fields at the offsets of the table above.
-/

/-- The bytes of a packet on the wire. -/
def wireFormat (p : Packet) : List UInt8 :=
  bigEndian 4 p.magicNumber.toNat ++ [p.version, p.flags] ++ bigEndian 2 p.opcode.toNat ++
    bigEndian 4 p.sequenceId.toNat ++ bigEndian 4 p.payload.length ++ p.payload

/-- The big-endian number in the `n` bytes at `offset`. -/
def fieldAt (data : List UInt8) (offset n : Nat) : Nat :=
  bigEndianValue ((data.drop offset).take n)

/-- The frames of a packet stream: a header of 16 bytes, with the size of the rest at
offset 12. -/
def packetFraming : Framing UInt8 where
  header := HEADER_SIZE
  header_pos := by decide
  bodyLength header := fieldAt header 12 4

/-- The packet with the fields found in `data`. -/
def packetAt (data : List UInt8) : Packet where
  version := data.getD 4 0
  flags := data.getD 5 0
  opcode := UInt16.ofNat (fieldAt data 6 2)
  sequenceId := UInt32.ofNat (fieldAt data 8 4)
  payload := data.drop HEADER_SIZE

/-- Why a complete frame is rejected, if it is: its magic number is wrong, or else its
version. -/
def frameDefect (frame : List UInt8) : Option ProtocolError :=
  if fieldAt frame 0 4 ≠ MagicNumber.toNat then some .InvalidPacket
  else if frame.getD 4 0 ≠ VERSION then some .UnsupportedVersion
  else none

end PacketForge.Protocol
