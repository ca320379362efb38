import PacketForge.Protocol.Peers

set_option autoImplicit false

/-! # Delivery between two peers

The invariant of the machine of `Peers`. For each side, separately:

* `Sends`: the bytes a side has written are the wire formats of some of the packets it was passed,
  in order, followed by what the call in progress has written;
* `Receives`: the bytes it has read are the wire formats of the packets it has returned with
  `Success`, followed by what the call in progress, or a call that stopped, has read.

A call in progress is described by the weakest precondition of what is left of its program. What
one side has written is what the other one has read and what is in flight. As frames are a prefix
code, the packets received are then the first of those whose frames were written.

## How the proofs go

* The weakest precondition is an invariant of a running program: it holds at the start of a call
  by the results of `PacketIo`, one answer keeps it (`wp_call`), and at the end it is what the
  call leaves behind. So a step of the kernel in the middle of a call needs no argument of its own
  (`Peer.Inv.system`).
* The two halves of a side do not disturb each other: `Sends.frame` and `Receives.frame` say that
  what a side has written does not depend on what it reads, and the other way round.
* Only `Inv.cover` and `Peer.Inv.received` look at both sides. A frame that was taken lies at the
  start of what the other side has written behind the packets that were received before; both are
  streams of frames, so it is the frame of the next packet (`next_of_stream`).
* The invariant has a parameter, the environment of the system calls. With all of `Kernel` it
  gives `received_sublist_passed`; with the calls that do not fail (`Reliable`), where nothing is
  left out, it gives `delivery`.

`phantom_received` is a run in which a side goes on after a receive that stopped within a frame.
It shows that the condition `KeepsToFrames` cannot be left out.
-/

namespace PacketForge.Protocol

open Interaction Common Network

namespace Peers

/-! ## Streams of packets

Everything that is used of the codec: valid packets have frames for their wire formats, and can be
read off them.
-/

/-- The bytes of a list of packets: their wire formats, one behind the other. -/
def stream (ps : List Packet) : List UInt8 := (ps.map wireFormat).flatten

@[simp] theorem stream_nil : stream [] = [] := rfl

@[simp] theorem stream_append (ps qs : List Packet) :
    stream (ps ++ qs) = stream ps ++ stream qs := by
  rw [stream, List.map_append, List.flatten_append]
  rfl

@[simp] theorem stream_singleton (p : Packet) : stream [p] = wireFormat p := by
  rw [stream, List.map_singleton, List.flatten_singleton]

/-- Packets that the encoder accepts, so that their wire formats are frames. -/
def Valid (ps : List Packet) : Prop := ∀ p ∈ ps, p.isValid = true

theorem Valid.frames {ps : List Packet} (h : Valid ps) :
    ∀ f ∈ ps.map wireFormat, packetFraming.IsFrame f := by
  intro f hf
  obtain ⟨p, hp, rfl⟩ := List.mem_map.mp hf
  exact wireFormat_isFrame ((Packet.isValid_iff p).mp (h p hp)).2

theorem Valid.append {ps qs : List Packet} (hp : Valid ps) (hq : Valid qs) : Valid (ps ++ qs) := by
  intro p hmem
  rcases List.mem_append.mp hmem with h | h
  · exact hp p h
  · exact hq p h

theorem valid_singleton {p : Packet} (h : p.isValid = true) : Valid [p] := by
  intro q hq
  rwa [List.mem_singleton.mp hq]

/-- Packets can be read off their wire formats. -/
theorem map_packetAt (ps : List Packet) : (ps.map wireFormat).map packetAt = ps := by
  induction ps with
  | nil => rfl
  | cons p t ih => rw [List.map_cons, List.map_cons, packetAt_wireFormat, ih]

theorem isPrefix_of_stream {ps qs : List Packet} (hp : Valid ps) (hq : Valid qs)
    (h : stream ps <+: stream qs) : ps <+: qs := by
  have hframes := Framing.isPrefix_of_flatten hp.frames hq.frames h
  have hmap := hframes.map packetAt
  rwa [map_packetAt, map_packetAt] at hmap

/-- A frame behind the bytes of `ps` in a stream of packets is the next packet. -/
theorem next_of_stream {ps qs : List Packet} {frame : List UInt8} (hp : Valid ps) (hq : Valid qs)
    (hframe : packetFraming.IsFrame frame) (h : stream ps ++ frame <+: stream qs) :
    ∃ p rest, qs = ps ++ p :: rest ∧ frame = wireFormat p := by
  -- what is behind the bytes of `ps` is a stream of packets as well
  obtain ⟨rest, rfl⟩ := isPrefix_of_stream hp hq ((List.prefix_append _ _).trans h)
  rw [stream_append, List.prefix_append_right_inj] at h
  have hrest : Valid rest := fun q hmem => hq q (List.mem_append_right _ hmem)
  obtain ⟨gs, hgs⟩ := hframe.eq_head_of_isPrefix hrest.frames h
  cases rest with
  | nil => exact absurd hgs (by simp)
  | cons p t =>
      rw [List.map_cons, List.cons.injEq] at hgs
      exact ⟨p, t, rfl, hgs.1.symm⟩

/-- An incomplete rest of a stream of packets is empty. -/
theorem eq_nil_of_stream {ps : List Packet} (hp : Valid ps)
    (h : ¬ packetFraming.Complete (stream ps)) : ps = [] := by
  cases ps with
  | nil => rfl
  | cons p t =>
      have hframe := hp.frames _ (List.mem_map_of_mem List.mem_cons_self)
      exact absurd (hframe.complete.of_isPrefix (List.prefix_append _ _)) h

/-! ## The invariant of one side

The half of a side is given by its history and its calls alone. What the other side does is not
mentioned.
-/

/-- The surroundings in which no system call fails: a `::send` of something moves at least one
byte, and a `::recv` gives bytes or the end of the stream. -/
def Reliable : Env Sys Sys.Res := fun h op r =>
  Kernel h op r ∧
    match op, r with
    | .send _ data _, r => data ≠ [] → 0 < r
    | .recv _ _ _, r => r ≠ none
    | _, _ => True

/-- Nothing has happened that could keep a packet from being sent. -/
def Peer.Clean (E : Env Sys Sys.Res) (p : Peer) : Prop := E ≤ Reliable ∧ Valid p.passed

/-- What a send in progress will do, when `ps` are the packets sent before: it is about the last
packet that was passed, and what is left of its program will write what is missing of the frame,
or stop within it. A packet that is not valid is refused without a call. -/
def Sending (E : Env Sys Sys.Res) (p : Peer) (ps : List Packet) (before : SysHistory)
    (program : SysM Returned) : Prop :=
  p.sendStopped = false ∧ written p.fd before = stream ps ∧
  ∃ earlier packet, p.passed = earlier ++ [packet] ∧ ps.Sublist earlier ∧
    (p.Clean E → ps = earlier) ∧
    ((packet.isValid = true ∧
        wp (sending E p.fd (stream ps ++ wireFormat packet)) program
          (fun r h => ∃ error, r = .sent error ∧
            SendEnds E p.fd (stream ps ++ wireFormat packet) error h) p.history) ∨
      (packet.isValid = false ∧ p.written = stream ps ∧
        ∃ message, program = .ret (.sent ⟨.SerializationError, message⟩)))

/-- A side that is not sending, when `ps` are the packets whose frames it has begun, some of those
that were passed and in their order. All of their bytes were written unless a send has stopped,
and no packet is missing if nothing could go wrong. -/
structure Unsent (E : Env Sys Sys.Res) (p : Peer) (ps : List Packet) : Prop where
  sublist : ps.Sublist p.passed
  written : p.written <+: stream ps
  whole : p.sendStopped = false → p.written = stream ps
  clean : p.Clean E → ps = p.passed ∧ p.sendStopped = false

/-- What a side has written. For some valid packets `ps`, which are those whose frames it has
begun, either a send is in progress (`Sending`), or none is (`Unsent`). -/
def Sends (E : Env Sys Sys.Res) (p : Peer) : Prop :=
  ∃ ps, Valid ps ∧
    (∀ before program, p.call = some ⟨.sending, before, program⟩ → Sending E p ps before program) ∧
    ((∀ before program, p.call ≠ some ⟨.sending, before, program⟩) → Unsent E p ps)

/-- What a receive in progress will do: it has started between two frames, on the connection of
the side, and what is left of its program will take the next frame or stop within it. -/
def Receiving (E : Env Sys Sys.Res) (p : Peer) (before : SysHistory) (program : SysM Returned) :
    Prop :=
  p.receiveStopped = false ∧ p.transport = ⟨⟨⟨p.fd⟩, true⟩⟩ ∧
  consumed p.fd before = stream p.successes ∧
  ∃ packet protocolError, wp (receiving E p.fd) program
    (fun r h => ∃ result, r = .received result ∧
      PacketIo.ReceiveEnds E p.transport packet protocolError (stream p.successes) result h)
    p.history

/-- What a side has read: the frames of the packets it has returned with `Success`, and then the
bytes of a call in progress, or of one that stopped within its frame. No frame was rejected, since
they all come from valid packets. -/
structure Receives (E : Env Sys Sys.Res) (p : Peer) : Prop where
  valid : Valid p.successes
  noProtocolError : ∀ r ∈ p.received, ∃ received, r = .ok received ∧
    received.error.code ≠ .ProtocolError
  reads : stream p.successes <+: p.consumed
  reliable : E ≤ Reliable → p.receiveStopped = false
  receiving : ∀ before program, p.call = some ⟨.receiving, before, program⟩ →
    Receiving E p before program
  idle : (∀ before program, p.call ≠ some ⟨.receiving, before, program⟩) →
    ∃ bytes, p.consumed = stream p.successes ++ bytes ∧ ¬ packetFraming.Complete bytes ∧
      (p.receiveStopped = false → p.transport.isConnected = true → bytes = [])

/-- The invariant of one side, about its own history and calls: what it has written, what it has
read, and a disconnect in progress. A connected transport is the one that the side was given at
the start. -/
structure Peer.Inv (E : Env Sys Sys.Res) (p : Peer) : Prop where
  open_ : 0 ≤ p.fd
  transport : p.transport.isConnected = true → p.transport = ⟨⟨⟨p.fd⟩, true⟩⟩
  sends : Sends E p
  receives : Receives E p
  disconnects : ∀ before program, p.call = some ⟨.disconnecting, before, program⟩ →
    wp (closing E) program (fun r _ => ∃ c, r = .disconnected c ∧ c.connected = false) p.history

theorem inv_connected (E : Env Sys Sys.Res) {fd : Int} (hfd : 0 ≤ fd) :
    (Peer.connected fd).Inv E := by
  constructor
  · exact hfd
  · intro _
    rfl
  · refine ⟨[], fun _ hp => absurd hp (by simp), fun _ _ h => absurd h (by simp [Peer.connected]),
      ?_⟩
    intro _
    exact ⟨.slnil, List.prefix_rfl, fun _ => rfl, fun _ => ⟨rfl, rfl⟩⟩
  · constructor
    · exact fun p hp => absurd hp (by simp [Peer.successes, successes, Peer.connected])
    · exact fun r hr => absurd hr (by simp [Peer.connected])
    · exact List.prefix_rfl
    · exact fun _ => rfl
    · exact fun _ _ h => absurd h (by simp [Peer.connected])
    · intro _
      refine ⟨[], rfl, fun hc => ?_, fun _ _ => rfl⟩
      exact absurd hc.header_le (by simp [packetFraming, HEADER_SIZE])
  · exact fun _ _ h => absurd h (by simp [Peer.connected])

/-- A send writes a prefix of what is to be written. -/
theorem written_isPrefix {E : Env Sys Sys.Res} {fd : Int} {target : List UInt8}
    (program : SysM Returned) {h : SysHistory}
    (hw : wp (sending E fd target) program
      (fun r h => ∃ error, r = .sent error ∧ SendEnds E fd target error h) h) :
    written fd h <+: target := by
  cases program with
  | ret r =>
      obtain ⟨error, -, hends⟩ := hw
      exact hends.written_target.1
  | call op k =>
      obtain ⟨⟨rest, -, -, hrest⟩, -⟩ := hw
      exact ⟨rest, hrest⟩

/-- The bytes that were written belong to frames of packets that were passed, in order. -/
theorem Sends.cover {E : Env Sys Sys.Res} {p : Peer} (h : Sends E p) :
    ∃ ps, Valid ps ∧ ps.Sublist p.passed ∧ p.written <+: stream ps := by
  obtain ⟨ps, hvalid, hsending, hunsent⟩ := h
  by_cases hcall : ∃ before program, p.call = some ⟨.sending, before, program⟩
  · obtain ⟨before, program, hcall⟩ := hcall
    obtain ⟨-, -, earlier, packet, hpassed, hsub, -, hrun⟩ := hsending before program hcall
    rw [hpassed]
    rcases hrun with ⟨hpacket, hw⟩ | ⟨-, hwritten, -⟩
    · -- the packet in progress counts, however little of it is written
      refine ⟨ps ++ [packet], hvalid.append (valid_singleton hpacket),
        hsub.append (List.Sublist.refl _), ?_⟩
      rw [stream_append, stream_singleton]
      exact written_isPrefix _ hw
    · exact ⟨ps, hvalid, hsub.trans (List.sublist_append_left _ _), by rw [hwritten]⟩
  · have hidle := hunsent fun before program heq => hcall ⟨before, program, heq⟩
    exact ⟨ps, hvalid, hidle.sublist, hidle.written⟩

/-! ## Steps of one side

One lemma for each thing that a side does. They hold for any environment within `Kernel`.
-/

section

variable {E : Env Sys Sys.Res} {p q : Peer}

theorem ne_of_idle {kind : Kind} (hcall : p.call = none) (before : SysHistory)
    (program : SysM Returned) : p.call ≠ some ⟨kind, before, program⟩ := by
  rw [hcall]
  exact (Option.some_ne_none _).symm

theorem ne_of_kind {kind kind' : Kind} {before' : SysHistory} {program' : SysM Returned}
    (hcall : p.call = some ⟨kind', before', program'⟩) (hne : kind' ≠ kind) (before : SysHistory)
    (program : SysM Returned) : p.call ≠ some ⟨kind, before, program⟩ := by
  rw [hcall]
  exact fun heq => hne (congrArg Call.kind (Option.some.inj heq))

/-- What a side has written is not affected by what it does apart from sending. -/
theorem Sends.frame (h : Sends E p) (hpassed : q.passed = p.passed)
    (hstopped : q.sendStopped = p.sendStopped) (hwritten : q.written = p.written)
    (hp : ∀ before program, p.call ≠ some ⟨.sending, before, program⟩)
    (hq : ∀ before program, q.call ≠ some ⟨.sending, before, program⟩) : Sends E q := by
  obtain ⟨ps, hvalid, -, hunsent⟩ := h
  obtain ⟨hsub, hbegun, hwhole, hclean⟩ := hunsent hp
  refine ⟨ps, hvalid, fun before program heq => absurd heq (hq before program), fun _ => ?_⟩
  constructor
  · rwa [hpassed]
  · rwa [hwritten]
  · rwa [hstopped, hwritten]
  · rwa [Peer.Clean, hpassed, hstopped]

/-- What a side has read is not affected by what it does apart from receiving. -/
theorem Receives.frame (h : Receives E p) (hreceived : q.received = p.received)
    (hstopped : q.receiveStopped = p.receiveStopped) (hconsumed : q.consumed = p.consumed)
    (hconn : q.transport.isConnected = true → p.transport.isConnected = true)
    (hp : ∀ before program, p.call ≠ some ⟨.receiving, before, program⟩)
    (hq : ∀ before program, q.call ≠ some ⟨.receiving, before, program⟩) : Receives E q := by
  have hsuccesses : q.successes = p.successes := by rw [Peer.successes, hreceived, Peer.successes]
  constructor
  · rw [hsuccesses]
    exact h.valid
  · rw [hreceived]
    exact h.noProtocolError
  · rw [hsuccesses, hconsumed]
    exact h.reads
  · rw [hstopped]
    exact h.reliable
  · intro before program heq
    exact absurd heq (hq before program)
  · intro _
    obtain ⟨bytes, hbytes, hincomplete, hnil⟩ := h.idle hp
    rw [hsuccesses, hconsumed, hstopped]
    exact ⟨bytes, hbytes, hincomplete, fun hs hc => hnil hs (hconn hc)⟩

/-- **A system call** of the call in progress preserves the invariant: the weakest precondition of
the rest of its program says what the answer leaves. -/
theorem Peer.Inv.system {kind : Kind} {before : SysHistory} {op : Sys}
    {k : op.Res → SysM Returned} {r : op.Res} (h : p.Inv E)
    (hcall : p.call = some ⟨kind, before, .call op k⟩) (hr : E p.history op r) :
    Peer.Inv E { p with call := some ⟨kind, before, k r⟩, history := ⟨op, r⟩ :: p.history } := by
  -- the weakest precondition of the rest of the program is part of the invariant
  cases kind with
  | sending =>
      obtain ⟨ps, hvalid, hsending, -⟩ := h.sends
      obtain ⟨hstopped, hbefore, earlier, packet, hpassed, hsub, hclean, hrun⟩ :=
        hsending before _ hcall
      rcases hrun with ⟨hpacket, hmay, hw⟩ | ⟨-, -, message, hret⟩
      · constructor
        · exact h.open_
        · exact h.transport
        · refine ⟨ps, hvalid, ?_, fun hne => absurd rfl (hne _ _)⟩
          rintro before' program ⟨⟩
          exact ⟨hstopped, hbefore, earlier, packet, hpassed, hsub, hclean,
            .inl ⟨hpacket, hw r hr⟩⟩
        · exact h.receives.frame rfl rfl (sending_consumed hmay p.fd) id
            (ne_of_kind hcall (by decide)) (fun _ _ heq => by cases heq)
        · rintro _ _ ⟨⟩
      · exact absurd hret (by simp)
  | receiving =>
      obtain ⟨hstopped, htransport, hbefore, packet, protocolError, hmay, hw⟩ :=
        h.receives.receiving before _ hcall
      constructor
      · exact h.open_
      · exact h.transport
      · exact h.sends.frame rfl rfl (receiving_written hmay p.fd)
          (ne_of_kind hcall (by decide)) (fun _ _ heq => by cases heq)
      · constructor
        · exact h.receives.valid
        · exact h.receives.noProtocolError
        · exact h.receives.reads.trans (List.prefix_append _ _)
        · exact h.receives.reliable
        · rintro before' program ⟨⟩
          exact ⟨hstopped, htransport, hbefore, packet, protocolError, hw r hr⟩
        · exact fun hne => absurd rfl (hne _ _)
      · rintro _ _ ⟨⟩
  | disconnecting =>
      obtain ⟨hmay, hw⟩ := h.disconnects before _ hcall
      obtain ⟨fd, rfl⟩ := hmay
      constructor
      · exact h.open_
      · exact h.transport
      · exact h.sends.frame rfl rfl (List.append_nil _)
          (ne_of_kind hcall (by decide)) (fun _ _ heq => by cases heq)
      · exact h.receives.frame rfl rfl (List.append_nil _) id
          (ne_of_kind hcall (by decide)) (fun _ _ heq => by cases heq)
      · rintro before' program ⟨⟩
        exact hw r hr

/-- **The start of a send**, by a side whose sends have not stopped within a frame. -/
theorem Peer.Inv.send {host : Platform} (halloc : host.Allocates PacketIo.maxFrame) (h : p.Inv E)
    (hcall : p.call = none) (hconn : p.transport.isConnected = true)
    (hstopped : p.sendStopped = false) (packet : Packet) :
    Peer.Inv E { p with
      call := some ⟨.sending, p.history,
        (PacketIo.send host p.transport packet).bind fun e => .ret (.sent e)⟩
      passed := p.passed ++ [packet] } := by
  obtain ⟨ps, hvalid, -, hunsent⟩ := h.sends
  have hidle := hunsent (ne_of_idle hcall)
  have hwritten : p.written = stream ps := hidle.whole hstopped
  have hfd : p.transport.fd = p.fd := by
    rw [h.transport hconn]
    rfl
  constructor
  · exact h.open_
  · exact h.transport
  · refine ⟨ps, hvalid, ?_, fun hne => absurd rfl (hne _ _)⟩
    rintro before program ⟨⟩
    refine ⟨hstopped, hwritten, p.passed, packet, rfl, hidle.sublist, fun hclean => ?_, ?_⟩
    · exact (hidle.clean ⟨hclean.1, fun q hq => hclean.2 q (List.mem_append_left _ hq)⟩).1
    · -- an invalid packet is turned down before anything is written
      cases hpacket : packet.isValid with
      | true =>
          left
          refine ⟨rfl, wp_seq (R := SendEnds E p.fd (stream ps ++ wireFormat packet)) ?_
            fun error _ hends => ⟨error, rfl, hends⟩⟩
          have hsend := PacketIo.send_wp E halloc p.transport hpacket p.history hconn
          rw [hfd, show Network.written p.fd p.history = stream ps from hwritten] at hsend
          exact hsend
      | false =>
          right
          refine ⟨rfl, hwritten, "Cannot encode invalid packet", ?_⟩
          rw [PacketIo.send_of_not_isValid host p.transport hpacket]
          rfl
  · exact h.receives.frame rfl rfl rfl id
      (ne_of_idle hcall) (fun _ _ heq => by cases heq)
  · rintro _ _ ⟨⟩

/-- **The start of a receive**, by a side whose receives have not stopped within a frame. -/
theorem Peer.Inv.receive {host : Platform} (halloc : host.Allocates PacketIo.maxFrame)
    (hE : E ≤ Kernel) (h : p.Inv E) (hcall : p.call = none)
    (hconn : p.transport.isConnected = true) (hstopped : p.receiveStopped = false)
    (packet : Packet) (protocolError : Option ProtocolError) :
    Peer.Inv E { p with
      call := some ⟨.receiving, p.history,
        (PacketIo.receive host p.transport packet protocolError).bind fun r => .ret (.received r)⟩
      passed := p.passed ++ [] } := by
  have htransport := h.transport hconn
  obtain ⟨bytes, hconsumed, -, hnil⟩ := h.receives.idle (ne_of_idle hcall)
  rw [hnil hstopped hconn, List.append_nil] at hconsumed
  have hopen : p.transport.connection.socket.isOpen = true := by
    rw [htransport]
    exact decide_eq_true (by have := h.open_; show p.fd ≠ -1; omega)
  have hfd : p.transport.fd = p.fd := by
    rw [htransport]
    rfl
  constructor
  · exact h.open_
  · exact h.transport
  · exact h.sends.frame (List.append_nil _) rfl rfl
      (ne_of_idle hcall) (fun _ _ heq => by cases heq)
  · constructor
    · exact h.receives.valid
    · exact h.receives.noProtocolError
    · exact h.receives.reads
    · exact h.receives.reliable
    · rintro before program ⟨⟩
      refine ⟨hstopped, htransport, hconsumed, packet, protocolError, ?_⟩
      refine wp_seq (R := PacketIo.ReceiveEnds E p.transport packet protocolError
        (stream p.successes)) ?_ fun result _ hends => ⟨result, rfl, hends⟩
      have hreceive := PacketIo.receive_wp hE halloc p.transport packet protocolError p.history
        hconn hopen
      rw [hfd, show Network.consumed p.fd p.history = stream p.successes from hconsumed] at hreceive
      exact hreceive
    · exact fun hne => absurd rfl (hne _ _)
  · rintro _ _ ⟨⟩

/-- **The start of a disconnect**, by a side that has no call in progress. -/
theorem Peer.Inv.disconnect (h : p.Inv E) (hcall : p.call = none) :
    Peer.Inv E { p with
      call := some ⟨.disconnecting, p.history,
        p.transport.connection.disconnect.bind fun c => .ret (.disconnected c)⟩
      passed := p.passed ++ [] } := by
  constructor
  · exact h.open_
  · exact h.transport
  · exact h.sends.frame (List.append_nil _) rfl rfl
      (ne_of_idle hcall) (fun _ _ heq => by cases heq)
  · exact h.receives.frame rfl rfl rfl id
      (ne_of_idle hcall) (fun _ _ heq => by cases heq)
  · rintro before program ⟨⟩
    show wp _ (p.transport.connection.disconnect.bind _) _ _
    rw [Connection.disconnect, Socket.close]
    split_ifs
    · exact ⟨⟨_, rfl⟩, fun _ _ => ⟨_, rfl, rfl⟩⟩
    · exact ⟨_, rfl, rfl⟩
    · exact ⟨_, rfl, rfl⟩

/-- How a send of a valid packet leaves its side: with all of the frame written, with nothing
of it written, or stopped. -/
theorem unsent_of_sendEnds {before : SysHistory} {ps earlier : List Packet} {packet : Packet}
    {error : Error} (hstopped : p.sendStopped = false)
    (hbefore : written p.fd before = stream ps) (hpassed : p.passed = earlier ++ [packet])
    (hsub : ps.Sublist earlier) (hclean : p.Clean E → ps = earlier)
    (hends : SendEnds E p.fd (stream ps ++ wireFormat packet) error p.history) :
    Unsent E (p.finish before (.sent error)) (ps ++ [packet]) ∨
      Unsent E (p.finish before (.sent error)) ps := by
  have hsub' : (ps ++ [packet]).Sublist p.passed := by
    rw [hpassed]
    exact hsub.append (List.Sublist.refl _)
  have hbegun : p.written <+: stream (ps ++ [packet]) := by
    rw [stream_append, stream_singleton]
    exact written_isPrefix (.ret (.sent error)) ⟨error, rfl, hends⟩
  have hflag : (p.finish before (.sent error)).sendStopped
      = decide (error.code = .SocketError ∧ p.written ≠ written p.fd before) := by
    rw [Peer.finish, hstopped, Bool.false_or]
  -- a frame counts as soon as a byte of it was written
  rcases hends.success_or_failed with ⟨rfl, hall⟩ | ⟨hcode, h', rest, result, hrest, hanswer, hle⟩
  · left
    have hwhole : p.written = stream (ps ++ [packet]) := by
      rw [stream_append, stream_singleton]
      exact hall
    constructor
    · exact hsub'
    · exact hbegun
    · exact fun _ => hwhole
    · intro hcl
      refine ⟨?_, hflag⟩
      rw [hclean hcl]
      exact hpassed.symm
  · have hunreliable : ¬ E ≤ Reliable := by
      intro hE
      exact absurd ((hE _ _ _ hanswer).2 hrest) (not_lt.mpr hle)
    by_cases hmoved : p.written = written p.fd before
    · right
      constructor
      · exact (List.sublist_append_left ps [packet]).trans hsub'
      · exact (hmoved.trans hbefore) ▸ List.prefix_rfl
      · exact fun _ => hmoved.trans hbefore
      · exact fun hcl => absurd hcl.1 hunreliable
    · left
      constructor
      · exact hsub'
      · exact hbegun
      · intro hs
        rw [hflag] at hs
        exact absurd ⟨hcode, hmoved⟩ (of_decide_eq_false hs)
      · exact fun hcl => absurd hcl.1 hunreliable

/-- **The end of a send.** The packet joins those whose frames were begun, or was refused; if the
send has stopped within the frame, the side takes note of it. -/
theorem Peer.Inv.sent {before : SysHistory} {r : Returned} (h : p.Inv E)
    (hcall : p.call = some ⟨.sending, before, .ret r⟩) : (p.finish before r).Inv E := by
  obtain ⟨ps, hvalid, hsending, -⟩ := h.sends
  obtain ⟨hstopped, hbefore, earlier, packet, hpassed, hsub, hclean, hrun⟩ :=
    hsending before _ hcall
  have hresult : ∃ error, r = .sent error ∧ ∃ qs, Valid qs ∧ Unsent E (p.finish before r) qs := by
    rcases hrun with ⟨hpacket, error, rfl, hends⟩ | ⟨hpacket, hwritten, message, hret⟩
    · refine ⟨error, rfl, ?_⟩
      rcases unsent_of_sendEnds hstopped hbefore hpassed hsub hclean hends with hall | hnone
      · exact ⟨ps ++ [packet], hvalid.append (valid_singleton hpacket), hall⟩
      · exact ⟨ps, hvalid, hnone⟩
    · cases hret
      refine ⟨_, rfl, ps, hvalid, ?_⟩
      have hsub' : ps.Sublist p.passed := by
        rw [hpassed]
        exact hsub.trans (List.sublist_append_left _ _)
      constructor
      · exact hsub'
      · exact hwritten.symm ▸ List.prefix_rfl
      · exact fun _ => hwritten
      · intro hcl
        have hmem : packet ∈ p.passed := by
          rw [hpassed]
          exact List.mem_append_right _ (List.mem_singleton_self packet)
        exact absurd (hcl.2 packet hmem) (by rw [hpacket]; decide)
  obtain ⟨error, rfl, qs, hqs, hunsent⟩ := hresult
  constructor
  · exact h.open_
  · exact h.transport
  · refine ⟨qs, hqs, ?_, fun _ => hunsent⟩
    rintro _ _ ⟨⟩
  · exact h.receives.frame rfl rfl rfl id
      (ne_of_kind hcall (by decide)) (fun _ _ heq => by cases heq)
  · rintro _ _ ⟨⟩

/-- The result `r` of a receive that has read `bytes` behind the packets received so far. -/
theorem Receives.finish {r : Received} {bytes : List UInt8} (h : Receives E p)
    (hcode : r.error.code ≠ .ProtocolError) (hvalid : r.error.ok = true → r.packet.isValid = true)
    (hc : p.consumed = stream (p.successes ++ if r.error.ok then [r.packet] else []) ++ bytes)
    (hincomplete : ¬ packetFraming.Complete bytes)
    (hreliable : E ≤ Reliable → r.error.code ≠ .SocketError)
    (hnil : ¬ (r.error.code = .SocketError ∧ p.consumed ≠ stream p.successes) →
      r.transport.isConnected = true → bytes = []) :
    Receives E { p with
      call := none
      transport := r.transport
      received := p.received ++ [.ok r]
      receiveStopped :=
        decide (r.error.code = .SocketError ∧ p.consumed ≠ stream p.successes) } := by
  have hsuccesses : successes (p.received ++ [.ok r])
      = p.successes ++ if r.error.ok then [r.packet] else [] := successes_concat p.received r
  constructor
  · show Valid (successes (p.received ++ [.ok r]))
    rw [hsuccesses]
    refine h.valid.append fun q hq => ?_
    cases hok : r.error.ok with
    | false => simp [hok] at hq
    | true =>
        rw [hok, if_pos rfl, List.mem_singleton] at hq
        rw [hq]
        exact hvalid hok
  · intro r' hr'
    rcases List.mem_append.mp hr' with hold | hnew
    · exact h.noProtocolError r' hold
    · exact ⟨r, List.mem_singleton.mp hnew, hcode⟩
  · show stream (successes (p.received ++ [.ok r])) <+: p.consumed
    rw [hsuccesses]
    exact ⟨bytes, hc.symm⟩
  · intro hE
    exact decide_eq_false fun hstop => hreliable hE hstop.1
  · rintro _ _ ⟨⟩
  · intro _
    refine ⟨bytes, ?_, hincomplete, fun hs => hnil (of_decide_eq_false hs)⟩
    show p.consumed = stream (successes (p.received ++ [.ok r])) ++ bytes
    rw [hsuccesses]
    exact hc

/-- **The end of a receive**, when the bytes read so far come from a stream of valid packets: a
frame that was taken is the frame of the next packet. -/
theorem Peer.Inv.received {before : SysHistory} {r : Returned} (h : p.Inv E)
    (hcall : p.call = some ⟨.receiving, before, .ret r⟩)
    (hcover : ∃ qs, Valid qs ∧ p.consumed <+: stream qs) : (p.finish before r).Inv E := by
  obtain ⟨hstopped, htransport, hbefore, packet, protocolError, result, rfl, hends⟩ :=
    h.receives.receiving before _ hcall
  have hfd : p.transport.fd = p.fd := by
    rw [htransport]
    rfl
  have hfinish : ∀ r, p.finish before (.received (.ok r)) = { p with
      call := none
      transport := r.transport
      received := p.received ++ [.ok r]
      receiveStopped :=
        decide (r.error.code = .SocketError ∧ p.consumed ≠ stream p.successes) } := by
    intro r
    rw [Peer.finish, hstopped, hbefore, Bool.false_or]
  have hsends : ∀ t received stopped, Sends E { p with
      call := none, transport := t, received := received, receiveStopped := stopped } := by
    intro t received stopped
    exact h.sends.frame rfl rfl rfl (ne_of_kind hcall (by decide))
      (fun _ _ heq => by cases heq)
  rcases hends.frame_or_rest with ⟨bytes, hbytes, hc, rfl⟩ | ⟨bytes, r, hbytes, hc, rfl, hcase⟩
  · -- a frame was taken
    have hc : p.consumed = stream p.successes ++ bytes := by rwa [hfd] at hc
    obtain ⟨qs, hqs, hbegun⟩ := hcover
    rw [hc] at hbegun
    obtain ⟨next, rest, hnext, rfl⟩ := next_of_stream h.receives.valid hqs hbytes hbegun
    have hvalid : next.isValid = true := hqs next (by rw [hnext]; simp)
    rw [PacketIo.decoded_wireFormat _ _ _ hvalid, hfinish]
    constructor
    · exact h.open_
    · exact h.transport
    · exact hsends _ _ _
    · refine h.receives.finish (fun heq => by cases heq) (fun _ => hvalid) ?_ not_complete_nil
        (fun _ heq => by cases heq) (fun _ _ => rfl)
      simp [hc]
    · rintro _ _ ⟨⟩
  · -- the receive stopped within a frame
    have hc : p.consumed = stream p.successes ++ bytes := by rwa [hfd] at hc
    rw [hfinish]
    rcases hcase with ⟨hcode, htransport', h', n, hanswer⟩ | ⟨hcode, hclosed⟩
    · have hok : r.error.ok = false := by rw [Error.ok, hcode]; rfl
      constructor
      · exact h.open_
      · intro hconn
        rw [htransport']
        exact htransport
      · exact hsends _ _ _
      · refine h.receives.finish (by rw [hcode]; decide) (fun hyes => by simp [hok] at hyes) ?_
          hbytes
          ?_ ?_
        · simp [hok, hc]
        · exact fun hE => absurd rfl (hE _ _ _ hanswer).2
        · intro hnot _
          by_contra hne
          exact hnot ⟨hcode, by rw [hc]; simpa using hne⟩
      · rintro _ _ ⟨⟩
    · have hok : r.error.ok = false := by rw [Error.ok, hcode]; rfl
      constructor
      · exact h.open_
      · exact fun hconn => absurd hconn (by rw [hclosed]; decide)
      · exact hsends _ _ _
      · refine h.receives.finish (by rw [hcode]; decide) (fun hyes => by simp [hok] at hyes) ?_
          hbytes
          (fun _ => by rw [hcode]; decide) (fun _ hconn => absurd hconn (by rw [hclosed]; decide))
        simp [hok, hc]
      · rintro _ _ ⟨⟩

/-- **The end of a disconnect.** The connection is gone, and what was written and read stays as it
is. -/
theorem Peer.Inv.disconnected {before : SysHistory} {r : Returned} (h : p.Inv E)
    (hcall : p.call = some ⟨.disconnecting, before, .ret r⟩) : (p.finish before r).Inv E := by
  obtain ⟨connection, rfl, hconnected⟩ := h.disconnects before _ hcall
  have hclosed : ¬ (⟨connection⟩ : Transport).isConnected = true := by
    show ¬ connection.connected = true
    rw [hconnected]
    decide
  constructor
  · exact h.open_
  · exact fun hconn => absurd hconn hclosed
  · exact h.sends.frame rfl rfl rfl (ne_of_kind hcall (by decide))
      (fun _ _ heq => by cases heq)
  · exact h.receives.frame rfl rfl rfl (fun hconn => absurd hconn hclosed)
      (ne_of_kind hcall (by decide)) (fun _ _ heq => by cases heq)
  · rintro _ _ ⟨⟩

end

/-! ## The invariant of the machine

The two sides and the wires between them.
-/

/-- The invariant of both sides and of the bytes in flight: what a side has written is what the
other one has read, and behind it what is still in the wire. -/
structure Inv (E : Env Sys Sys.Res) (s : State) : Prop where
  peer : ∀ side, (s.peer side).Inv E
  wire : ∀ side, (s.peer side).written = (s.peer side.other).consumed ++ s.wire side

/-- The steps under which the invariant is kept: a side whose sends (receives) have stopped
within a frame starts no further one, and system calls are answered as `E` says. -/
def Permitted (E : Env Sys Sys.Res) (s : State) : Act → Prop
  | .send side _ => (s.peer side).sendStopped = false
  | .receive side _ _ => (s.peer side).receiveStopped = false
  | .system side choice => ∀ (op : Sys) (r : op.Res), answer s side op choice = some r →
      E (s.peer side).history op r
  | _ => True

section

variable {E : Env Sys Sys.Res} {s s' : State}

theorem answer_kernel {side : Side} {op : Sys} {choice : Choice} {r : op.Res}
    (h : answer s side op choice = some r) (history : SysHistory) : Kernel history op r := by
  cases op with
  | send fd data flags =>
      cases choice with
      | moves n =>
          simp only [answer, Option.ite_none_right_eq_some, Option.some.injEq] at h
          obtain ⟨⟨-, hle⟩, rfl⟩ := h
          exact Int.ofNat_le.mpr hle
      | fails =>
          obtain rfl := Option.some.inj h
          exact (show (-1 : Int) ≤ 0 by decide).trans (Int.natCast_nonneg data.length)
      | ends => cases h
      | done => cases h
  | recv fd size flags =>
      intro bytes hbytes
      subst hbytes
      cases choice with
      | moves n =>
          simp only [answer, Option.ite_none_right_eq_some, Option.some.injEq] at h
          obtain ⟨⟨-, hsize, -⟩, rfl⟩ := h
          exact (List.length_take_le _ _).trans hsize
      | fails => cases h
      | ends =>
          simp only [answer, Option.ite_none_right_eq_some, Option.some.injEq] at h
          obtain ⟨-, rfl⟩ := h
          exact Nat.zero_le _
      | done => cases h
  | socket => cases choice <;> cases h
  | accept => cases choice <;> cases h
  | _ => trivial

theorem answer_reliable {side : Side} {op : Sys} {choice : Choice} {r : op.Res}
    (h : answer s side op choice = some r) (hne : choice ≠ .fails) (history : SysHistory) :
    Reliable history op r := by
  refine ⟨answer_kernel h history, ?_⟩
  cases op with
  | send fd data flags =>
      intro _
      cases choice with
      | moves n =>
          simp only [answer, Option.ite_none_right_eq_some, Option.some.injEq] at h
          obtain ⟨⟨hpos, -⟩, rfl⟩ := h
          exact Int.natCast_pos.mpr hpos
      | fails => exact absurd rfl hne
      | ends => cases h
      | done => cases h
  | recv fd size flags =>
      rintro rfl
      cases choice with
      | moves n => simp [answer] at h
      | fails => exact absurd rfl hne
      | ends => simp [answer] at h
      | done => cases h
  | _ => trivial

/-- What a system call reads has been in flight. -/
theorem answer_taken {side : Side} {op : Sys} {choice : Choice} {r : op.Res}
    (h : answer s side op choice = some r) (fd : Int) :
    taken fd (⟨op, r⟩ : SysEvent) <+: s.wire side.other := by
  cases op with
  | recv fd' size flags =>
      rw [taken]
      split_ifs
      · cases choice with
        | moves n =>
            simp only [answer, Option.ite_none_right_eq_some, Option.some.injEq] at h
            obtain ⟨-, rfl⟩ := h
            exact List.take_prefix _ _
        | fails =>
            obtain rfl := Option.some.inj h
            exact List.nil_prefix
        | ends =>
            simp only [answer, Option.ite_none_right_eq_some, Option.some.injEq] at h
            obtain ⟨-, rfl⟩ := h
            exact List.nil_prefix
        | done => cases h
      · exact List.nil_prefix
  | _ => exact List.nil_prefix

/-- A step of one side that moves no bytes. -/
theorem Inv.update (h : Inv E s) {side : Side} {p : Peer} (hp : p.Inv E)
    (hwritten : p.written = (s.peer side).written)
    (hconsumed : p.consumed = (s.peer side).consumed) :
    Inv E { s with peer := Function.update s.peer side p } := by
  constructor
  · apply (Function.forall_update_iff s.peer fun _ q => q.Inv E).mpr
    exact ⟨hp, fun a _ => h.peer a⟩
  · intro a
    have hw : (Function.update s.peer side p a).written = (s.peer a).written := by
      by_cases ha : a = side
      · subst ha
        rw [Function.update_self, hwritten]
      · rw [Function.update_of_ne ha]
    have hc : ∀ b, (Function.update s.peer side p b).consumed = (s.peer b).consumed := by
      intro b
      by_cases hb : b = side
      · subst hb
        rw [Function.update_self, hconsumed]
      · rw [Function.update_of_ne hb]
    show (Function.update s.peer side p a).written
      = (Function.update s.peer side p a.other).consumed ++ s.wire a
    rw [hw, hc, h.wire a]

/-- What a side has read comes from a stream of packets that were passed to the other. -/
theorem Inv.cover (h : Inv E s) (side : Side) :
    ∃ qs, Valid qs ∧ qs.Sublist (s.peer side.other).passed ∧
      (s.peer side).consumed <+: stream qs := by
  obtain ⟨qs, hqs, hsub, hbegun⟩ := (h.peer side.other).sends.cover
  refine ⟨qs, hqs, hsub, List.IsPrefix.trans ?_ hbegun⟩
  have hwire := h.wire side.other
  rw [Side.other_other] at hwire
  exact ⟨_, hwire.symm⟩

/-- **A system call** of one side, in both histories and in the wires: what a `::send` moved
enters the wire, and what a `::recv` gave leaves it. -/
theorem Inv.deliver (h : Inv E s) {side : Side} {choice : Choice} {kind : Kind}
    {before : SysHistory} {op : Sys} {k : op.Res → SysM Returned} {r : op.Res}
    (hcall : (s.peer side).call = some ⟨kind, before, .call op k⟩)
    (hanswer : answer s side op choice = some r) (hr : E (s.peer side).history op r) :
    Inv E (s.deliver side ⟨op, r⟩ ⟨kind, before, k r⟩) := by
  have hside := (h.peer side).system hcall hr
  have hne : side.other ≠ side := Side.other_ne side
  constructor
  · apply (Function.forall_update_iff s.peer fun _ q => q.Inv E).mpr
    exact ⟨hside, fun a _ => h.peer a⟩
  · intro a
    by_cases ha : a = side
    · -- what this side writes is in flight
      subst ha
      have hwire := h.wire a
      show (Function.update s.peer a _ a).written = (Function.update s.peer a _ a.other).consumed ++
        Function.update (Function.update s.wire a _) a.other _ a
      rw [Function.update_self, Function.update_of_ne hne, Function.update_of_ne hne.symm,
        Function.update_self, ← List.append_assoc, ← hwire]
      rfl
    · -- what this side reads was in flight
      obtain rfl : a = side.other := Side.eq_other_of_ne ha
      have hwire := h.wire side.other
      obtain ⟨rest, hrest⟩ := answer_taken hanswer (s.peer side).fd
      show (Function.update s.peer side _ side.other).written
        = (Function.update s.peer side _ side.other.other).consumed ++
          Function.update (Function.update s.wire side _) side.other _ side.other
      rw [Side.other_other] at hwire ⊢
      rw [Function.update_self, Function.update_of_ne hne, Function.update_self, hwire, ← hrest,
        List.drop_left, ← List.append_assoc]
      rfl

/-- **Every permitted step preserves the invariant.** A step of one side changes the half of the
invariant that is about it, and the wires if bytes are moved. -/
theorem step_inv {host : Side → Platform} (halloc : ∀ side, (host side).Allocates PacketIo.maxFrame)
    (hE : E ≤ Kernel) {a : Act} (h : Inv E s) (hs : Step host s a s') (hp : Permitted E s a) :
    Inv E s' := by
  cases hs with
  | @send side packet hidle hconn =>
      exact h.update ((h.peer side).send (halloc side) hidle hconn hp packet) rfl rfl
  | @receive side packet protocolError hidle hconn =>
      exact h.update ((h.peer side).receive (halloc side) hE hidle hconn hp packet protocolError)
        rfl rfl
  | @disconnect side hidle =>
      exact h.update ((h.peer side).disconnect hidle) rfl rfl
  | system hcall hanswer => exact h.deliver hcall hanswer (hp _ _ hanswer)
  | @returns side kind before r hcall =>
      -- the books of the caller change, what the kernel has done does not
      have hfinish : ((s.peer side).finish before r).fd = (s.peer side).fd ∧
          ((s.peer side).finish before r).history = (s.peer side).history := by
        rcases r with error | result | connection
        · exact ⟨rfl, rfl⟩
        · cases result <;> exact ⟨rfl, rfl⟩
        · exact ⟨rfl, rfl⟩
      refine h.update ?_ ?_ ?_
      · cases kind with
        | sending => exact (h.peer side).sent hcall
        | receiving =>
            obtain ⟨qs, hqs, -, hbegun⟩ := h.cover side
            exact (h.peer side).received hcall ⟨qs, hqs, hbegun⟩
        | disconnecting => exact (h.peer side).disconnected hcall
      · rw [Peer.written, hfinish.1, hfinish.2, Peer.written]
      · rw [Peer.consumed, hfinish.1, hfinish.2, Peer.consumed]

theorem init_inv (E : Env Sys Sys.Res) (host : Side → Platform) (h : (machine host).init s) :
    Inv E s := by
  obtain ⟨hpeer, hwire, -⟩ := h
  constructor
  · intro side
    obtain ⟨fd, hfd, heq⟩ := hpeer side
    rw [heq]
    exact inv_connected E hfd
  · intro side
    obtain ⟨fd, -, heq⟩ := hpeer side
    obtain ⟨fd', -, heq'⟩ := hpeer side.other
    rw [heq, heq', hwire side]
    rfl

end

/-! ## No phantom packets

A call that failed before it had moved anything does no harm, and may be repeated.
-/

/-- A side whose send (receive) has failed within a frame starts no further send (receive). -/
def KeepsToFrames (s : State) : Act → Prop
  | .send side _ => (s.peer side).sendStopped = false
  | .receive side _ _ => (s.peer side).receiveStopped = false
  | _ => True

instance (s : State) (a : Act) : Decidable (KeepsToFrames s a) := by
  cases a <;> unfold KeepsToFrames <;> infer_instance

/-- **No phantom packets.** System calls may fail at any point. As long as a side starts no
further send (receive) after one that failed within a frame, the packets that are received are
packets that were passed to the other side's `PacketIO::send`, in order. -/
theorem received_sublist_passed {host : Side → Platform}
    (halloc : ∀ side, (host side).Allocates PacketIo.maxFrame) {s : State}
    (hs : ((machine host).guarded KeepsToFrames).Reachable s) (side : Side) :
    (s.peer side).successes.Sublist (s.peer side.other).passed := by
  have hinv : Inv Kernel s := by
    refine Machine.invariant (M := (machine host).guarded KeepsToFrames) (Inv Kernel)
      (fun s h => init_inv Kernel host h) ?_ hs
    intro s a s' h hstep
    obtain ⟨hkeeps, hstep⟩ := hstep
    refine step_inv halloc le_rfl h (step_cases hstep) ?_
    cases a with
    | send side packet => exact hkeeps
    | receive side packet protocolError => exact hkeeps
    | system side choice => exact fun op r hanswer => answer_kernel hanswer _
    | disconnect side => trivial
    | returns side => trivial
  obtain ⟨qs, hqs, hsub, hbegun⟩ := hinv.cover side
  have hreceives := (hinv.peer side).receives
  exact (isPrefix_of_stream hreceives.valid hqs (hreceives.reads.trans hbegun)).sublist.trans hsub

/-- The server's `::recv` fails before it has read anything, and the next receive gets the
packet. -/
theorem received_sublist_passed_retry :
    ∃ s, ((machine fun _ => .ample .Little 64).guarded KeepsToFrames).Reachable s ∧
      (s.peer .server).successes = [Packet.new] ∧
      (s.peer .server).successes.Sublist (s.peer .client).passed := by
  have hrun : (Machine.executeGuarded KeepsToFrames (step fun _ => .ample .Little 64)
      ⟨fun _ => .connected 3, fun _ => [], fun _ => false⟩
      [.send .client .new, .receive .server .new none, .system .server .fails, .returns .server,
        .system .client (.moves 16), .returns .client, .receive .server .new none,
        .system .server (.moves 16), .returns .server]).map
      (fun s => (s.peer .server).successes) = some [Packet.new] := by
    decide +kernel
  obtain ⟨s, hexecute, hsuccesses⟩ := Option.map_eq_some_iff.mp hrun
  have hs : ((machine fun _ => .ample .Little 64).guarded KeepsToFrames).Reachable s :=
    ⟨_, _, ⟨fun _ => ⟨3, by decide, rfl⟩, fun _ => rfl, fun _ => rfl⟩,
      Machine.path_of_executeGuarded hexecute⟩
  exact ⟨s, hs, hsuccesses, received_sublist_passed
    (fun _ => Platform.ample_allocates (by decide +kernel)) hs .server⟩

/-- A packet without payload, and a packet whose payload is the wire format of that one. -/
def phantom : Packet := Packet.new.setSequenceId 9

def carrier : Packet := Packet.new.setPayload (wireFormat phantom)

/-- The client sends `carrier`. The server's `::recv` fails between header and payload, and the
next receive takes the payload for a frame. -/
def phantomRun : List Act :=
  [.send .client carrier, .system .client (.moves 32), .returns .client,
    .receive .server .new none, .system .server (.moves 16), .system .server .fails,
    .returns .server,
    .receive .server .new none, .system .server (.moves 16), .returns .server]

/-- Without the condition, a packet that nobody sent is received. -/
theorem phantom_received : ∃ s, (machine fun _ => .ample .Little 64).Reachable s ∧
    (s.peer .server).transport.isConnected = true ∧
    (s.peer .server).successes = [phantom] ∧ (s.peer .client).passed = [carrier] ∧
    ¬ (s.peer .server).successes.Sublist (s.peer .client).passed := by
  have hrun : (Machine.execute (step fun _ => .ample .Little 64)
      ⟨fun _ => .connected 3, fun _ => [], fun _ => false⟩ phantomRun).map
        (fun s => ((s.peer .server).transport.isConnected, (s.peer .server).successes,
          (s.peer .client).passed)) = some (true, [phantom], [carrier]) := by
    decide +kernel
  obtain ⟨s, hexecute, hresult⟩ := Option.map_eq_some_iff.mp hrun
  rw [Prod.mk.injEq, Prod.mk.injEq] at hresult
  obtain ⟨hconn, hsuccesses, hpassed⟩ := hresult
  refine ⟨s, ⟨_, _, ⟨fun _ => ⟨3, by decide, rfl⟩, fun _ => rfl, fun _ => rfl⟩,
    Machine.path_of_execute hexecute⟩, hconn, hsuccesses, hpassed, ?_⟩
  rw [hsuccesses, hpassed]
  decide +kernel

/-! ## End-to-end delivery

Without faults nothing is left out, so that the packets received are a prefix of those that were
passed, and no packet is missing when both sides are at rest.
-/

/-- Only valid packets are sent, and no system call fails. -/
def Faultless (_ : State) : Act → Prop
  | .send _ packet => packet.isValid = true
  | .system _ choice => choice ≠ .fails
  | _ => True

instance (s : State) (a : Act) : Decidable (Faultless s a) := by
  cases a <;> unfold Faultless <;> infer_instance

theorem Sends.written_of_clean {p : Peer} (h : Sends Reliable p) (hpassed : Valid p.passed) :
    p.written <+: stream p.passed ∧
      ((∀ before program, p.call ≠ some ⟨.sending, before, program⟩) →
        p.written = stream p.passed ∧ p.sendStopped = false) := by
  have hclean : p.Clean Reliable := ⟨le_rfl, hpassed⟩
  obtain ⟨ps, hvalid, hsending, hunsent⟩ := h
  have hidle : (∀ before program, p.call ≠ some ⟨.sending, before, program⟩) →
      p.written = stream p.passed ∧ p.sendStopped = false := by
    intro hne
    have hdone := hunsent hne
    obtain ⟨hps, hstopped⟩ := hdone.clean hclean
    rw [← hps]
    exact ⟨hdone.whole hstopped, hstopped⟩
  refine ⟨?_, hidle⟩
  by_cases hcall : ∃ before program, p.call = some ⟨.sending, before, program⟩
  · obtain ⟨before, program, hcall⟩ := hcall
    obtain ⟨-, -, earlier, packet, hsplit, -, hps, hrun⟩ := hsending before program hcall
    rcases hrun with ⟨hpacket, hw⟩ | ⟨hpacket, -, -⟩
    · rw [hsplit, ← hps hclean, stream_append, stream_singleton]
      exact written_isPrefix _ hw
    · have hmem : packet ∈ p.passed := by
        rw [hsplit]
        exact List.mem_append_right _ (List.mem_singleton_self packet)
      exact absurd (hpassed packet hmem) (by rw [hpacket]; decide)
  · exact (hidle fun before program heq => hcall ⟨before, program, heq⟩).1 ▸ List.prefix_rfl

/-- The invariant of the faultless machine: that of `Reliable` surroundings, and only valid
packets were passed. -/
structure FaultlessInv (s : State) : Prop where
  inv : Inv Reliable s
  passed : ∀ side, Valid (s.peer side).passed

theorem faultless_step {host : Side → Platform}
    (halloc : ∀ side, (host side).Allocates PacketIo.maxFrame) {s s' : State} {a : Act}
    (h : FaultlessInv s) (hf : Faultless s a) (hs : Step host s a s') : FaultlessInv s' := by
  -- when nothing fails, no send and no receive stops within a frame
  have hpermitted : Permitted Reliable s a := by
    cases hs with
    | @send side packet hidle hconn =>
        have hsends := (h.inv.peer side).sends.written_of_clean (h.passed side)
        exact (hsends.2 (ne_of_idle hidle)).2
    | @receive side packet protocolError hidle hconn =>
        exact (h.inv.peer side).receives.reliable le_rfl
    | disconnect hidle => trivial
    | system hcall hanswer => exact fun op r hanswer' => answer_reliable hanswer' hf _
    | returns hcall => trivial
  refine ⟨step_inv halloc (fun _ _ _ hr => hr.1) h.inv hs hpermitted, ?_⟩
  have hupdate : ∀ (side : Side) (p : Peer), Valid p.passed →
      ∀ a, Valid (Function.update s.peer side p a).passed := by
    intro side p hp
    apply (Function.forall_update_iff s.peer fun _ q => Valid q.passed).mpr
    exact ⟨hp, fun a _ => h.passed a⟩
  cases hs with
  | @send side packet hidle hconn =>
      exact hupdate side _ ((h.passed side).append (valid_singleton hf))
  | @receive side packet protocolError hidle hconn =>
      exact hupdate side _ ((h.passed side).append fun _ hq => absurd hq (by simp))
  | @disconnect side hidle =>
      exact hupdate side _ ((h.passed side).append fun _ hq => absurd hq (by simp))
  | @system side choice kind before op k r hcall hanswer => exact hupdate side _ (h.passed side)
  | @returns side kind before r hcall =>
      refine hupdate side _ ?_
      rcases r with error | result | connection
      · exact h.passed side
      · cases result <;> exact h.passed side
      · exact h.passed side

/-- **End-to-end delivery.** When only valid packets are sent and no system call fails: in every
reachable state, what a side has received is a prefix of what was passed to `PacketIO::send` on
the other side, and no receive has reported a protocol error. When the other side is not
sending, nothing is in flight and no receive in progress has read anything, it is all of it. -/
theorem delivery {host : Side → Platform}
    (halloc : ∀ side, (host side).Allocates PacketIo.maxFrame) {s : State}
    (hs : ((machine host).guarded Faultless).Reachable s) (side : Side) :
    (s.peer side).successes <+: (s.peer side.other).passed ∧
    (∀ r ∈ (s.peer side).received, ∃ received, r = .ok received ∧
      received.error.code ≠ .ProtocolError) ∧
    ((∀ before program, (s.peer side.other).call ≠ some ⟨.sending, before, program⟩) →
      s.wire side.other = [] →
      (∀ before program, (s.peer side).call = some ⟨.receiving, before, program⟩ →
        (s.peer side).consumed = consumed (s.peer side).fd before) →
      (s.peer side).successes = (s.peer side.other).passed) := by
  have hinv : FaultlessInv s := by
    refine Machine.invariant (M := (machine host).guarded Faultless) FaultlessInv
      (fun s h => ⟨init_inv Reliable host h, ?_⟩) ?_ hs
    · intro side
      obtain ⟨fd, -, heq⟩ := h.1 side
      rw [heq]
      exact fun _ hq => absurd hq (by simp [Peer.connected])
    · intro s a s' h hstep
      exact faultless_step halloc h hstep.1 (step_cases hstep.2)
  have hreceives := (hinv.inv.peer side).receives
  have hpassed := hinv.passed side.other
  obtain ⟨hwritten, hidle⟩ := (hinv.inv.peer side.other).sends.written_of_clean hpassed
  have hwire := hinv.inv.wire side.other
  rw [Side.other_other] at hwire
  have hpre : (s.peer side).successes <+: (s.peer side.other).passed := by
    refine isPrefix_of_stream hreceives.valid hpassed (hreceives.reads.trans ?_)
    exact List.IsPrefix.trans ⟨_, hwire.symm⟩ hwritten
  refine ⟨hpre, hreceives.noProtocolError, fun hnone hempty hread => ?_⟩
  -- all that was passed has been read, and it is more than what was received by an incomplete rest
  have hall : (s.peer side).consumed = stream (s.peer side.other).passed := by
    rw [← (hidle hnone).1, hwire, hempty, List.append_nil]
  have hrest : ∃ bytes, (s.peer side).consumed = stream (s.peer side).successes ++ bytes ∧
      ¬ packetFraming.Complete bytes := by
    by_cases hcall : ∃ before program, (s.peer side).call = some ⟨.receiving, before, program⟩
    · -- the receive in progress has read nothing
      obtain ⟨before, program, hcall⟩ := hcall
      refine ⟨[], ?_, not_complete_nil⟩
      rw [hread before program hcall, (hreceives.receiving before program hcall).2.2.1,
        List.append_nil]
    · obtain ⟨bytes, hbytes, hincomplete, -⟩ :=
        hreceives.idle fun before program heq => hcall ⟨before, program, heq⟩
      exact ⟨bytes, hbytes, hincomplete⟩
  obtain ⟨bytes, hbytes, hincomplete⟩ := hrest
  obtain ⟨rest, hsplit⟩ := hpre
  rw [hall, ← hsplit, stream_append] at hbytes
  have hrest : rest = [] := by
    refine eq_nil_of_stream (fun q hq => hpassed q ?_) ?_
    · rw [← hsplit]
      exact List.mem_append_right _ hq
    · rwa [List.append_cancel_left hbytes]
  rw [← hsplit, hrest, List.append_nil]

/-- A packet that is written in two pieces and read in three. -/
theorem delivery_pieces :
    ∃ s, ((machine fun _ => .ample .Little 64).guarded Faultless).Reachable s ∧
      (s.peer .client).passed = [Packet.new.setPayload [1, 2, 3]] ∧
      (s.peer .server).successes = (s.peer .client).passed := by
  have hrun : (Machine.executeGuarded Faultless (step fun _ => .ample .Little 64)
      ⟨fun _ => .connected 3, fun _ => [], fun _ => false⟩
      [.receive .server .new none, .send .client (Packet.new.setPayload [1, 2, 3]),
        .system .client (.moves 5), .system .server (.moves 5), .system .client (.moves 14),
        .returns .client, .system .server (.moves 11), .system .server (.moves 3),
        .returns .server]).map (fun s => ((s.peer .client).call.isNone,
          (s.peer .server).call.isNone, s.wire .client, (s.peer .client).passed))
      = some (true, true, [], [Packet.new.setPayload [1, 2, 3]]) := by
    decide +kernel
  obtain ⟨s, hexecute, hresult⟩ := Option.map_eq_some_iff.mp hrun
  simp only [Prod.mk.injEq, Option.isNone_iff_eq_none] at hresult
  obtain ⟨hclient, hserver, hwire, hpassed⟩ := hresult
  have hs : ((machine fun _ => .ample .Little 64).guarded Faultless).Reachable s :=
    ⟨_, _, ⟨fun _ => ⟨3, by decide, rfl⟩, fun _ => rfl, fun _ => rfl⟩,
      Machine.path_of_executeGuarded hexecute⟩
  refine ⟨s, hs, hpassed, (delivery (fun _ => Platform.ample_allocates (by decide +kernel)) hs
    .server).2.2 ?_ hwire ?_⟩
  · intro before program heq
    rw [show (s.peer Side.server.other).call = none from hclient] at heq
    cases heq
  · intro before program heq
    rw [hserver] at heq
    cases heq

end Peers

end PacketForge.Protocol
