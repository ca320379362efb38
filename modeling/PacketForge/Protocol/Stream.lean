import PacketForge.Protocol.PacketIo

set_option autoImplicit false

/-! # Receiving from a byte stream

A peer writes `stream` on a connection and closes it; the kernel hands the bytes over in pieces of
its choice. Calling `PacketIO::receive` until it reports the end of the stream then gives one
result for each frame of the stream, whatever the pieces are: the loops of `Transport::receive`
and the two places that read the length field compute `packetFraming.cut`.

## How the proof goes

* `Delivers` is the environment: what a `::recv` gives depends on what was read before, which the
  history knows. It is satisfiable after every history (`exists_delivers`), so that every program
  has a run in it.
* One call is `PacketIo.receive_wp` in this environment (`receive_delivers`): no `::recv` fails,
  so the call takes the first frame of what is left, or finds the end of the stream inside of a
  frame.
* All calls are an induction on the number of frames that are left (`receiveUntilClosed_wp`). The
  invariant is that what was read is a prefix of the stream that ends between two frames. The
  bound on the number of calls is one more than there are frames, and is never reached otherwise.

How the kernel cuts the stream does not occur in the result, because it does not occur in what one
call leaves behind.
-/

namespace PacketForge.Protocol

open Interaction Common Network Bytes

/-! ## The surroundings -/

/-- The kernel when the peer of `fd` writes `stream` and closes: a `::recv` on `fd` gives at
least one byte of what has not been read yet, and `0` only at the end. -/
def Delivers (fd : Int) (stream : List UInt8) : Env Sys Sys.Res := fun h op r =>
  Kernel h op r ∧
    match op, r with
    | .recv fd' size _, r => fd' = fd → ∃ bytes, r = some bytes ∧
        bytes <+: stream.drop (consumed fd h).length ∧
        (bytes = [] → size = 0 ∨ stream.length ≤ (consumed fd h).length)
    | _, _ => True

theorem Delivers.le_kernel (fd : Int) (stream : List UInt8) : Delivers fd stream ≤ Kernel :=
  fun _ _ _ hr => hr.1

/-- There is always an answer: the kernel may hand over all that was asked for. -/
theorem exists_delivers (fd : Int) (stream : List UInt8) (h : SysHistory) (op : Sys) :
    ∃ r, Delivers fd stream h op r := by
  cases op with
  | socket => exact ⟨⟨-1, ""⟩, .inl rfl, trivial⟩
  | accept fd' => exact ⟨⟨-1, ""⟩, .inl rfl, trivial⟩
  | send fd' data flags => exact ⟨0, Int.natCast_nonneg _, trivial⟩
  | recv fd' size flags =>
      refine ⟨some ((stream.drop (consumed fd h).length).take size), ?_,
        fun _ => ⟨_, rfl, List.take_prefix _ _, fun hnil => ?_⟩⟩
      · rintro bytes ⟨⟩
        exact List.length_take_le _ _
      · simpa using hnil
  | setsockopt => exact ⟨⟨0, ""⟩, trivial, trivial⟩
  | inet_pton => exact ⟨(1 : Int), trivial, trivial⟩
  | bind => exact ⟨⟨0, ""⟩, trivial, trivial⟩
  | listen => exact ⟨⟨0, ""⟩, trivial, trivial⟩
  | getsockname => exact ⟨(⟨0, ""⟩, 0), trivial, trivial⟩
  | connect => exact ⟨⟨0, ""⟩, trivial, trivial⟩
  | close => exact ⟨(), trivial, trivial⟩
  | shutdownRequested => exact ⟨false, trivial, trivial⟩
  | cinGet => exact ⟨(), trivial, trivial⟩

/-- What is read next keeps what was read a prefix of the stream. -/
theorem append_prefix {before stream bytes : List UInt8} (hp : before <+: stream)
    (hbytes : bytes <+: stream.drop before.length) : before ++ bytes <+: stream := by
  have hstream : before ++ stream.drop before.length = stream := by
    conv_rhs => rw [← List.take_append_drop before.length stream, ← List.prefix_iff_eq_take.mp hp]
  rw [← hstream]
  exact (List.prefix_append_right_inj _).mpr hbytes

/-- The bytes read so far remain a prefix of the stream. -/
theorem consumed_prefix_step {fd : Int} {stream : List UInt8} {h : SysHistory} {op : Sys}
    {r : op.Res} (hp : consumed fd h <+: stream) (hr : Delivers fd stream h op r) :
    consumed fd (⟨op, r⟩ :: h) <+: stream := by
  cases op with
  | recv fd' size flags =>
      by_cases hfd : fd' = fd
      · obtain ⟨bytes, rfl, hbytes, -⟩ := hr.2 hfd
        rw [consumed_cons, taken, if_pos hfd, Option.getD_some]
        exact append_prefix hp hbytes
      · rwa [consumed_cons, taken, if_neg hfd, List.append_nil]
  | _ => rwa [consumed_cons, taken, List.append_nil]; all_goals rintro _ _ _ _ ⟨⟩

/-! ## One call

Everything that is known about a call is relative to the rest of the stream at its start.
-/

/-- What one `receive` does at a point of the stream where `rest` is left: it takes the first
frame of `rest`, or all of `rest` if no frame is complete. -/
theorem receive_delivers {host : Platform} (halloc : host.Allocates PacketIo.maxFrame)
    (transport : Transport) (packet : Packet) (protocolError : Option ProtocolError)
    (rest : List UInt8) (h : SysHistory) (hconn : transport.isConnected = true)
    (hopen : transport.connection.socket.isOpen = true) {stream : List UInt8}
    (hstream : consumed transport.fd h ++ rest = stream) :
    wp (.ofEnv (Delivers transport.fd stream))
      (PacketIo.receive host transport packet protocolError)
      (fun r h' => (if packetFraming.Complete rest then
          r = .ok (PacketIo.decoded transport packet protocolError
            (rest.take (packetFraming.size rest))) ∧
          consumed transport.fd h' = consumed transport.fd h ++ rest.take (packetFraming.size rest)
        else
          r = .ok ⟨⟨.ConnectionClosed, "Connection closed by peer"⟩, packet,
            protocolError.map fun _ => .InvalidPacket, .new⟩ ∧
          consumed transport.fd h' = stream) ∧
        ∀ fd, written fd h' = written fd h) h := by
  have hpre : consumed transport.fd h <+: stream := ⟨rest, hstream⟩
  have hwp := wp_invariant (D := .ofEnv (Delivers transport.fd stream))
    (fun h' => consumed transport.fd h' <+: stream ∧ ∀ fd, written fd h' = written fd h)
    ⟨hpre, fun _ => rfl⟩
    (PacketIo.receive_wp (Delivers.le_kernel transport.fd stream) halloc transport packet
      protocolError h hconn hopen)
    (fun _ _ _ _ => trivial) (fun _ _ _ hp hmay hr => ⟨hr, consumed_prefix_step hp.1 hr,
      fun fd => (receiving_written hmay fd).trans (hp.2 fd)⟩)
  refine wp_mono hwp ?_
  rintro r h' ⟨hends, hp, hwritten⟩
  refine ⟨?_, hwritten⟩
  cases hends with
  | @frame bytes h' hframe hc =>
      have hbytes : bytes <+: rest := by
        rw [hc, ← hstream] at hp
        exact (List.prefix_append_right_inj _).mp hp
      have htake : rest.take (packetFraming.size rest) = bytes := by
        rw [Framing.size_eq_of_isPrefix hframe.complete.header_le hbytes, hframe]
        exact (List.prefix_iff_eq_take.mp hbytes).symm
      rw [if_pos (hframe.complete.of_isPrefix hbytes), htake]
      exact ⟨rfl, hc⟩
  | failed _ _ _ hanswer =>
      -- reading from such a stream does not fail
      obtain ⟨bytes, hnone, -⟩ := hanswer.2 rfl
      exact absurd hnone (by simp)
  | @closed bytes n h₁ hincomplete hc hn hanswer =>
      -- `::recv` gives no byte at the end of the stream only
      obtain ⟨_, hnil, -, hend⟩ := hanswer.2 rfl
      have hp₁ : consumed transport.fd h₁ <+: stream := by simpa [taken] using hp
      have hall : consumed transport.fd h₁ = stream :=
        hp₁.eq_of_length_le ((hend (Option.some.inj hnil).symm).resolve_left hn.ne')
      have hrest : bytes = rest := by
        rw [hc, ← hstream] at hall
        exact List.append_cancel_left hall
      rw [if_neg (hrest ▸ hincomplete)]
      exact ⟨rfl, by simpa [taken] using hall⟩

/-! ## All calls

The outcomes are what a caller can see, so that packets, rejected frames and the end of the
connection are compared in one list.
-/

/-- What the caller of `PacketIO::receive` sees: the packet of a successful call, the
protocol error of a rejected frame, the code of any other error, or an exception. -/
inductive Outcome where
  | success (packet : Packet)
  | protocolError (error : Option ProtocolError)
  | failed (code : ErrorCode)
  | threw
  deriving DecidableEq

/-- The outcome of a call, and whether the transport is connected after it. -/
def outcome : Except Abort Received → Outcome × Bool
  | .error _ => (.threw, false)
  | .ok r =>
    (match r.error.code with
      | .Success => .success r.packet
      | .ProtocolError => .protocolError r.protocolError
      | code => .failed code,
      r.transport.isConnected)

/-- The calls `packetIO.receive(packet, &protocolError)`, repeated until one returns
`ConnectionClosed` or throws, but at most `n` times. -/
def receiveUntilClosed (host : Platform) : Nat → Transport → Packet → ProtocolError →
    SysM (List (Except Abort Received))
  | 0, _, _, _ => pure []
  | n + 1, transport, packet, protocolError => do
    let r ← PacketIo.receive host transport packet (some protocolError)
    match r with
    | .error e => pure [.error e]
    | .ok received =>
      if received.error.code = .ConnectionClosed then pure [.ok received]
      else do
        let rest ← receiveUntilClosed host n received.transport received.packet
          (received.protocolError.getD protocolError)
        pure (.ok received :: rest)

/-- What a frame must give: its packet, or the reason why it is rejected. -/
def frameOutcome (host : Platform) (frame : List UInt8) : Outcome :=
  match frameDefect frame with
  | some e => .protocolError (some e)
  | none =>
    match Decoder.decode host frame with
    | .ok packet => .success packet
    | .error _ => .threw

theorem frameOutcome_eq {host : Platform} (halloc : host.Allocates PacketIo.maxFrame)
    {frame : List UInt8} (hframe : packetFraming.IsFrame frame) :
    frameOutcome host frame = match frameDefect frame with
      | some e => .protocolError (some e)
      | none => .success (packetAt frame) := by
  have hheader : HEADER_SIZE ≤ frame.length := hframe.complete.header_le
  have hle : frame.length ≤ PacketIo.maxFrame := by
    rw [(isFrame_iff hheader).mp hframe]
    exact PacketIo.le_maxFrame (fieldAt_lt frame 12 4)
  rw [frameOutcome, decode_frame (PacketIo.sizeBits_of_allocates halloc)
    (fun m hm => halloc m (hm.trans hle)) hframe, frameDefect]
  split_ifs <;> rfl

/-- A call that took a frame reports what the frame must give, and the connection stays. -/
theorem outcome_decoded {host : Platform} (halloc : host.Allocates PacketIo.maxFrame)
    (transport : Transport) (packet : Packet) (protocolError : ProtocolError)
    {frame : List UInt8} (hframe : packetFraming.IsFrame frame) :
    outcome (.ok (PacketIo.decoded transport packet (some protocolError) frame))
      = (frameOutcome host frame, transport.isConnected) := by
  rw [frameOutcome_eq halloc hframe]
  cases hdefect : frameDefect frame with
  | none =>
      rw [PacketIo.decoded, hdefect]
      rfl
  | some e =>
      obtain ⟨what, hdecoded⟩ := PacketIo.decoded_of_defect transport packet (some protocolError)
        hdefect
      rw [hdecoded]
      rfl

/-- The results of all calls, given more calls than there are frames. -/
def streamOutcomes (host : Platform) (stream : List UInt8) : List (Outcome × Bool) :=
  (packetFraming.cut stream).1.map (fun frame => (frameOutcome host frame, true)) ++
    [(.failed .ConnectionClosed, false)]

theorem receiveUntilClosed_wp {host : Platform} (halloc : host.Allocates PacketIo.maxFrame)
    (n : Nat) (transport : Transport) (packet : Packet) (protocolError : ProtocolError)
    (rest : List UInt8) (h : SysHistory) (hconn : transport.isConnected = true)
    (hopen : transport.connection.socket.isOpen = true) {stream : List UInt8}
    (hstream : consumed transport.fd h ++ rest = stream)
    (hn : (packetFraming.cut rest).1.length < n) :
    wp (.ofEnv (Delivers transport.fd stream))
      (receiveUntilClosed host n transport packet protocolError)
      (fun results h' => results.map outcome = streamOutcomes host rest ∧
        consumed transport.fd h' = stream) h := by
  induction n generalizing packet protocolError rest h with
  | zero => exact absurd hn (Nat.not_lt_zero _)
  | succ n ih =>
      rw [receiveUntilClosed]
      refine wp_seq (receive_delivers halloc transport packet (some protocolError) rest h hconn
        hopen hstream) ?_
      rintro r h₁ ⟨hr, -⟩
      by_cases hcomplete : packetFraming.Complete rest
      · rw [if_pos hcomplete] at hr
        obtain ⟨rfl, hc⟩ := hr
        -- the first frame, and the calls for what is behind it
        have hcut : (packetFraming.cut rest).1 = rest.take (packetFraming.size rest) ::
            (packetFraming.cut (rest.drop (packetFraming.size rest))).1 := by
          rw [Framing.cut, if_pos hcomplete]
        simp only [PacketIo.decoded_not_closed, PacketIo.decoded_transport, if_false]
        refine wp_seq (ih _ _ (rest.drop (packetFraming.size rest)) h₁ ?_ ?_) ?_
        · rw [hc, List.append_assoc, List.take_append_drop, hstream]
        · rw [hcut, List.length_cons] at hn
          exact Nat.lt_of_succ_lt_succ hn
        · rintro results h₂ ⟨hresults, hc₂⟩
          refine ⟨?_, hc₂⟩
          rw [List.map_cons, outcome_decoded halloc transport packet protocolError
            hcomplete.isFrame_take, hresults, hconn, streamOutcomes, streamOutcomes, hcut]
          rfl
      · rw [if_neg hcomplete] at hr
        obtain ⟨rfl, hc⟩ := hr
        refine ⟨?_, hc⟩
        rw [streamOutcomes, Framing.cut_of_not_complete hcomplete]
        rfl

/-- **Framing of an arbitrary byte stream.** Whatever bytes `stream` a peer writes before it
closes, and however the kernel splits them: calling `PacketIO::receive` until it returns
`ConnectionClosed` gives the results of the frames that the stream is cut into, one for each,
with the connection kept, and then the end of the connection. -/
theorem receive_cuts_stream (host : Platform) (halloc : host.Allocates PacketIo.maxFrame)
    (transport : Transport) (hconn : transport.isConnected = true)
    (hopen : transport.connection.socket.isOpen = true) (packet : Packet)
    (protocolError : ProtocolError) (stream : List UInt8) (h : SysHistory) (n : Nat)
    (hn : (packetFraming.cut stream).1.length < n) :
    (∃ results h', Runs (Delivers transport.fd (consumed transport.fd h ++ stream))
      (receiveUntilClosed host n transport packet protocolError) h results h') ∧
    ∀ results h', Runs (Delivers transport.fd (consumed transport.fd h ++ stream))
        (receiveUntilClosed host n transport packet protocolError) h results h' →
      results.map outcome = (packetFraming.cut stream).1.map
          (fun frame => (frameOutcome host frame, true)) ++ [(.failed .ConnectionClosed, false)] ∧
      consumed transport.fd h' = consumed transport.fd h ++ stream := by
  refine ⟨exists_runs (exists_delivers transport.fd _) _ h, fun results h' hrun => ?_⟩
  exact Runs.wp (C := .ofEnv _) hrun
    (receiveUntilClosed_wp halloc n transport packet protocolError stream h hconn hopen rfl hn)

/-- A frame with a wrong magic number, a frame with version 2, an empty packet and one byte. -/
theorem receive_cuts_stream_rejected : ∃ results h',
    Runs (Delivers 3 (bigEndian 16 0 ++ (wireFormat (Packet.new.setVersion 2) ++
        (wireFormat Packet.new ++ [0x50]))))
      (receiveUntilClosed (.ample .Little 64) 4 ⟨⟨⟨3⟩, true⟩⟩ .new .InvalidPacket) [] results h' ∧
    results.map outcome = [(.protocolError (some .InvalidPacket), true),
      (.protocolError (some .UnsupportedVersion), true), (.success Packet.new, true),
      (.failed .ConnectionClosed, false)] := by
  obtain ⟨⟨results, h', hrun⟩, hall⟩ := receive_cuts_stream (.ample .Little 64)
    (Platform.ample_allocates (by decide +kernel)) ⟨⟨⟨3⟩, true⟩⟩ rfl rfl .new .InvalidPacket
    (bigEndian 16 0 ++ (wireFormat (Packet.new.setVersion 2) ++ (wireFormat Packet.new ++ [0x50])))
    [] 4 (by decide +kernel)
  refine ⟨results, h', hrun, (hall results h' hrun).1.trans ?_⟩
  decide +kernel

end PacketForge.Protocol
