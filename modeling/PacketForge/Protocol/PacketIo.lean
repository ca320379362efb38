import PacketForge.Network.Transport
import PacketForge.Protocol.CodecLemmas

set_option autoImplicit false

/-! # Packet exchange (`protocol/packet_io.cpp`)

`PacketIO::send` and `PacketIO::receive` over a transport. The object itself only holds a
reference to its transport, so that the functions take the transport's state instead.

`PacketIo.send_wp` and `PacketIo.receive_wp` say how the calls can end in any environment: a send
wrote all of the frame or stopped with an error after some of it, a receive took exactly one frame
from the stream or stopped with an error inside one.

## How the proofs go

* The loops are those of `Transport`, and only its two results are used (`Transport.send_wp`,
  `Transport.receive_wp`). What is added here is which sizes are asked for: the header, and then
  what the header announces. That the two together are `packetFraming.size` is the whole link to
  the framing.
* `receive` reads the length field twice, once to know how much to ask for and once more inside
  the decoder. `finish_eq` says that the two agree, so that of the checks of the decoder only
  those of the magic number and of the version can still fail.
* `ReceiveEnds` lists the ways to end with what each of them leaves behind; later modules go
  through its cases and do not look into `receive`.
-/

namespace PacketForge.Protocol

open Interaction Common Network

/-! ## The code

The handlers and the order of the tests are those of the source. `finish` is the part of `receive`
behind its last system call, split off because it is pure.
-/

/-- What `PacketIO::receive` leaves behind: the returned error, the two output arguments
(`protocolError` may be null) and the transport. -/
structure Received where
  error : Error
  packet : Packet
  protocolError : Option ProtocolError
  transport : Transport
  deriving DecidableEq

namespace PacketIo

/-- `PacketIO::send`. The handlers are tried in the order of the source. -/
def send (host : Platform) (transport : Transport) (packet : Packet) : SysM Error :=
  match Encoder.encode host packet with
  | .ok data => transport.send data
  | .error (.invalid_argument what) => pure ⟨.SerializationError, what⟩
  | .error e => pure ⟨.UnknownError, e.what⟩

/-- The part of `PacketIO::receive` behind the last call of `Transport::receive`. Only the
decoder runs inside the `try` block. -/
def finish (host : Platform) (transport : Transport) (packet : Packet)
    (protocolError : Option ProtocolError) (header payload : List UInt8) :
    Except Abort Received :=
  if !host.fits (HEADER_SIZE + payload.length) then .error (.throws .bad_alloc)
  else
    match Decoder.decode host (header ++ payload) with
    | .ok packet => .ok ⟨.success, packet, protocolError, transport⟩
    | .error (.throws (.ProtocolDecodeError e what)) =>
        .ok ⟨⟨.ProtocolError, what⟩, packet, protocolError.map fun _ => e, transport⟩
    | .error (.throws e) => .ok ⟨⟨.DeserializationError, e.what⟩, packet, protocolError, transport⟩
    | .error .outOfBounds => .error .outOfBounds

/-- `PacketIO::receive`. The length is copied out of the header and converted as in
`Decoder::readUint32`. -/
def receive (host : Platform) (transport : Transport) (packet : Packet)
    (protocolError : Option ProtocolError) : SysM (Except Abort Received) := do
  let protocolError := protocolError.map fun _ => ProtocolError.InvalidPacket
  let r ← transport.receive host [] HEADER_SIZE
  match r with
  | .error .bad_alloc => pure (.error (.throws .bad_alloc))
  | .ok (error, header, transport) =>
    if !error.ok then pure (.ok ⟨error, packet, protocolError, transport⟩)
    else
      match Decoder.readUint32 host header 12 with
      | .error e => pure (.error e)
      | .ok payloadLength =>
        if payloadLength > 0 then do
          let r ← transport.receive host [] payloadLength.toNat
          match r with
          | .error .bad_alloc => pure (.error (.throws .bad_alloc))
          | .ok (error, payload, transport) =>
            if !error.ok then pure (.ok ⟨error, packet, protocolError, transport⟩)
            else pure (finish host transport packet protocolError header payload)
        else pure (finish host transport packet protocolError header [])

/-- The bound on the vectors that `send` and `receive` build: the largest frame. -/
def maxFrame : Nat := HEADER_SIZE + (2 ^ 32 - 1)

theorem le_maxFrame {n : Nat} (hn : n < 2 ^ 32) : HEADER_SIZE + n ≤ maxFrame :=
  Nat.add_le_add_left (Nat.le_pred_of_lt hn) _

theorem sizeBits_of_allocates {host : Platform} (halloc : host.Allocates maxFrame) :
    32 ≤ host.sizeBits := by
  by_contra hlt
  have hpow : 2 ^ host.sizeBits ≤ 2 ^ 32 := Nat.pow_le_pow_right (by decide) (by omega)
  have hheader : 0 < HEADER_SIZE := packetFraming.header_pos
  have hmax : HEADER_SIZE + (2 ^ 32 - 1) < 2 ^ host.sizeBits := halloc.lt
  omega

/-! ## Sending -/

/-- An invalid packet is refused without a system call. -/
theorem send_of_not_isValid (host : Platform) (transport : Transport) {packet : Packet}
    (hvalid : packet.isValid = false) :
    send host transport packet = .ret ⟨.SerializationError, "Cannot encode invalid packet"⟩ := by
  rw [send, encode_of_not_isValid host hvalid]
  rfl

theorem send_of_isValid {host : Platform} (halloc : host.Allocates maxFrame)
    (transport : Transport) {packet : Packet} (hvalid : packet.isValid = true) :
    send host transport packet = transport.send (wireFormat packet) := by
  have hlen := ((Packet.isValid_iff packet).mp hvalid).2
  rw [send, encode_of_isValid hvalid (halloc _ (le_maxFrame (by omega)))]

/-- **What `send` does** with a valid packet: it writes its wire format, or stops after a part
of it because a `::send` failed. -/
theorem send_wp (E : Env Sys Sys.Res) {host : Platform} (halloc : host.Allocates maxFrame)
    (transport : Transport) {packet : Packet} (hvalid : packet.isValid = true) (h : SysHistory)
    (hconn : transport.isConnected = true) :
    wp (sending E transport.fd (written transport.fd h ++ wireFormat packet))
      (send host transport packet)
      (SendEnds E transport.fd (written transport.fd h ++ wireFormat packet)) h := by
  rw [send_of_isValid halloc transport hvalid]
  exact transport.send_wp (wireFormat packet) _ h hconn rfl

/-! ## Receiving

The frame that is taken is described by the bytes alone; what a caller makes of it is `decoded`.
-/

/-- What `receive` makes of a complete frame: the packet, if magic number and version are right,
and else the error with its message, the packet of the caller and the reason. -/
def decoded (transport : Transport) (packet : Packet) (protocolError : Option ProtocolError)
    (frame : List UInt8) : Received :=
  match frameDefect frame with
  | none => ⟨.success, packetAt frame, protocolError.map fun _ => .InvalidPacket, transport⟩
  | some .InvalidPacket => ⟨⟨.ProtocolError, "Invalid magic number"⟩, packet,
      protocolError.map fun _ => .InvalidPacket, transport⟩
  | some e => ⟨⟨.ProtocolError, "Unsupported protocol version"⟩, packet,
      protocolError.map fun _ => e, transport⟩

/-- A rejected frame is reported with its defect. -/
theorem decoded_of_defect (transport : Transport) (packet : Packet)
    (protocolError : Option ProtocolError) {frame : List UInt8} {e : ProtocolError}
    (hdefect : frameDefect frame = some e) :
    ∃ what, decoded transport packet protocolError frame
      = ⟨⟨.ProtocolError, what⟩, packet, protocolError.map fun _ => e, transport⟩ := by
  rw [decoded, hdefect]
  cases e with
  | InvalidPacket => exact ⟨_, rfl⟩
  | UnsupportedOpcode => exact ⟨_, rfl⟩
  | UnsupportedVersion => exact ⟨_, rfl⟩
  | InvalidPayload => exact ⟨_, rfl⟩

/-- The frame of a valid packet is accepted as that packet. -/
theorem decoded_wireFormat (transport : Transport) (packet : Packet)
    (protocolError : Option ProtocolError) {p : Packet} (hvalid : p.isValid = true) :
    decoded transport packet protocolError (wireFormat p)
      = ⟨.success, p, protocolError.map fun _ => .InvalidPacket, transport⟩ := by
  have hgetD : (wireFormat p).getD 4 0 = VERSION := by
    rw [List.getD_eq_getElem?_getD, (wireFormat_getElem? p).1, Option.getD_some,
      ((Packet.isValid_iff p).mp hvalid).1]
  have hdefect : frameDefect (wireFormat p) = none := by
    rw [frameDefect, if_neg (not_not.mpr (wireFormat_magic p)), if_neg (not_not.mpr hgetD)]
  rw [decoded, hdefect, packetAt_wireFormat]

@[simp] theorem decoded_transport (transport : Transport) (packet : Packet)
    (protocolError : Option ProtocolError) (frame : List UInt8) :
    (decoded transport packet protocolError frame).transport = transport := by
  rw [decoded]
  split <;> rfl

@[simp] theorem decoded_not_closed (transport : Transport) (packet : Packet)
    (protocolError : Option ProtocolError) (frame : List UInt8) :
    (decoded transport packet protocolError frame).error.code = .ConnectionClosed ↔ False := by
  rw [decoded]
  split <;> simp

/-- The ways `receive` can end, when `before` had been read before: with a frame, with an
error inside a frame, or with the end of the stream there. -/
inductive ReceiveEnds (E : Env Sys Sys.Res) (transport : Transport) (packet : Packet)
    (protocolError : Option ProtocolError) (before : List UInt8) :
    Except Abort Received → SysHistory → Prop
  | frame {bytes : List UInt8} {h : SysHistory} :
      packetFraming.IsFrame bytes → consumed transport.fd h = before ++ bytes →
      ReceiveEnds E transport packet protocolError before
        (.ok (decoded transport packet protocolError bytes)) h
  | failed {bytes : List UInt8} {n : Nat} {h : SysHistory} :
      ¬ packetFraming.Complete bytes → consumed transport.fd h = before ++ bytes → 0 < n →
      E h (.recv transport.fd n 0) none →
      ReceiveEnds E transport packet protocolError before
        (.ok ⟨⟨.SocketError, "Receive failed"⟩, packet,
          protocolError.map fun _ => .InvalidPacket, transport⟩)
        (⟨.recv transport.fd n 0, none⟩ :: h)
  | closed {bytes : List UInt8} {n : Nat} {h : SysHistory} :
      ¬ packetFraming.Complete bytes → consumed transport.fd h = before ++ bytes → 0 < n →
      E h (.recv transport.fd n 0) (some []) →
      ReceiveEnds E transport packet protocolError before
        (.ok ⟨⟨.ConnectionClosed, "Connection closed by peer"⟩, packet,
          protocolError.map fun _ => .InvalidPacket, .new⟩)
        (⟨.close transport.fd, ()⟩ :: ⟨.recv transport.fd n 0, some []⟩ :: h)

/-- The last part of `receive`, given a complete frame. The length the decoder finds is the
one the bytes were read with, so that only the magic number and the version can be wrong. -/
theorem finish_eq {host : Platform} (halloc : host.Allocates maxFrame) (transport : Transport)
    (packet : Packet) (protocolError : Option ProtocolError) {header payload : List UInt8}
    (hheader : header.length = HEADER_SIZE) (hframe : packetFraming.IsFrame (header ++ payload)) :
    finish host transport packet (protocolError.map fun _ => .InvalidPacket) header payload
      = .ok (decoded transport packet protocolError (header ++ payload)) := by
  have hlen : (header ++ payload).length = HEADER_SIZE + payload.length := by
    rw [List.length_append, hheader]
  have hsize := (isFrame_iff (by omega)).mp hframe
  have hmax : HEADER_SIZE + payload.length ≤ maxFrame := by
    rw [← hlen, hsize]
    exact le_maxFrame (fieldAt_lt _ 12 4)
  have hdecode := decode_frame (sizeBits_of_allocates halloc)
    (fun m hm => halloc m (hm.trans (hlen.trans_le hmax))) hframe
  rw [finish, halloc _ hmax, hdecode, decoded, frameDefect]
  simp only [Bool.not_true, Bool.false_eq_true, if_false]
  split_ifs
  all_goals cases protocolError <;> rfl

/-- **What `receive` does**: it takes one frame from the stream and decodes it, or stops
inside a frame because a `::recv` failed or the stream ended. -/
theorem receive_wp {E : Env Sys Sys.Res} (hE : E ≤ Kernel) {host : Platform}
    (halloc : host.Allocates maxFrame) (transport : Transport) (packet : Packet)
    (protocolError : Option ProtocolError) (h : SysHistory)
    (hconn : transport.isConnected = true) (hopen : transport.connection.socket.isOpen = true) :
    wp (receiving E transport.fd) (receive host transport packet protocolError)
      (ReceiveEnds E transport packet protocolError (consumed transport.fd h)) h := by
  rw [receive]
  refine wp_seq (transport.receive_wp hE host HEADER_SIZE h hconn hopen
    (halloc _ (Nat.le_add_right _ _))) ?_
  rintro r h₁ ⟨r, rfl, hr⟩
  cases hr with
  | failed hlt hc hn hanswer =>
      exact .failed (fun hcomplete => absurd hcomplete.header_le (not_le.mpr hlt)) hc hn hanswer
  | closed hlt hc hn hanswer =>
      exact .closed (fun hcomplete => absurd hcomplete.header_le (not_le.mpr hlt)) hc hn hanswer
  | @received header h₁ hheader hc =>
  have h16 : header.length = 16 := hheader
  have hL : fieldAt header 12 4 < 2 ^ 32 := fieldAt_lt header 12 4
  have hval : (UInt32.ofNat (fieldAt header 12 4)).toNat = fieldAt header 12 4 :=
    Nat.mod_eq_of_lt hL
  have hpos : UInt32.ofNat (fieldAt header 12 4) > 0 ↔ 0 < fieldAt header 12 4 := by
    rw [gt_iff_lt, UInt32.lt_iff_toNat_lt, hval]
    rfl
  -- what a payload makes of the header, and the size it announces
  have hsize : ∀ payload : List UInt8,
      packetFraming.size (header ++ payload) = HEADER_SIZE + fieldAt header 12 4 := by
    intro payload
    rw [Framing.size_append hheader.ge]
    show HEADER_SIZE + fieldAt (header.take HEADER_SIZE) 12 4 = _
    rw [List.take_of_length_le hheader.le]
  have hlen : ∀ payload : List UInt8,
      (header ++ payload).length = HEADER_SIZE + payload.length := fun payload => by
    rw [List.length_append, hheader]
  simp only [Error.ok_success, Bool.not_true, Bool.false_eq_true, if_false,
    readUint32_eq host (show 12 + 4 ≤ header.length by omega)]
  by_cases hzero : fieldAt header 12 4 = 0
  · rw [if_neg (by rw [hpos, hzero]; decide)]
    have hframe : packetFraming.IsFrame (header ++ []) := by
      rw [Framing.IsFrame, hsize, hlen, hzero, List.length_nil]
    rw [finish_eq halloc transport packet protocolError hheader hframe]
    exact .frame hframe (by rwa [List.append_nil])
  rw [if_pos (hpos.mpr (Nat.pos_of_ne_zero hzero)), hval]
  refine wp_seq (transport.receive_wp hE host _ h₁ hconn hopen (halloc _
    (le_trans (Nat.le_add_left _ _) (le_maxFrame hL)))) ?_
  rintro r h₂ ⟨r, rfl, hr⟩
  cases hr with
  | @received payload h₂ hpayload hc₂ =>
      have hframe : packetFraming.IsFrame (header ++ payload) := by
        rw [Framing.IsFrame, hsize, hlen, hpayload]
      simp only [Error.ok_success, Bool.not_true, Bool.false_eq_true, if_false,
        finish_eq halloc transport packet protocolError hheader hframe]
      exact .frame hframe (by rw [hc₂, hc, List.append_assoc])
  | @failed payload n h₂ hlt hc₂ hn hanswer =>
      have hincomplete : ¬ packetFraming.Complete (header ++ payload) := by
        rw [Framing.Complete, hsize, hlen]
        omega
      exact .failed hincomplete (by rw [hc₂, hc, List.append_assoc]) hn hanswer
  | @closed payload n h₂ hlt hc₂ hn hanswer =>
      have hincomplete : ¬ packetFraming.Complete (header ++ payload) := by
        rw [Framing.Complete, hsize, hlen]
        omega
      exact .closed hincomplete (by rw [hc₂, hc, List.append_assoc]) hn hanswer

/-- A receive either took a frame, or stopped within one: because a `::recv` failed, with the
connection kept, or at the end of the stream, with the connection given up. -/
theorem ReceiveEnds.frame_or_rest {E : Env Sys Sys.Res} {transport : Transport} {packet : Packet}
    {protocolError : Option ProtocolError} {before : List UInt8} {result : Except Abort Received}
    {h : SysHistory} (hends : ReceiveEnds E transport packet protocolError before result h) :
    (∃ bytes, packetFraming.IsFrame bytes ∧ consumed transport.fd h = before ++ bytes ∧
      result = .ok (decoded transport packet protocolError bytes)) ∨
    ∃ bytes r, ¬ packetFraming.Complete bytes ∧ consumed transport.fd h = before ++ bytes ∧
      result = .ok r ∧
      ((r.error.code = .SocketError ∧ r.transport = transport ∧
          ∃ h' n, E h' (.recv transport.fd n 0) none) ∨
        (r.error.code = .ConnectionClosed ∧ r.transport.isConnected = false)) := by
  cases hends with
  | @frame bytes h hframe hc => exact .inl ⟨bytes, hframe, hc, rfl⟩
  | @failed bytes n h hincomplete hc hn hanswer =>
      refine .inr ⟨bytes, _, hincomplete, ?_, rfl, .inl ⟨rfl, rfl, h, n, hanswer⟩⟩
      simp only [consumed_cons, taken, if_true, Option.getD_none, List.append_nil, hc]
  | @closed bytes n h hincomplete hc hn hanswer =>
      refine .inr ⟨bytes, _, hincomplete, ?_, rfl, .inr ⟨rfl, rfl⟩⟩
      simp only [consumed_cons, taken, if_true, Option.getD_some, List.append_nil, hc]

end PacketIo

end PacketForge.Protocol
