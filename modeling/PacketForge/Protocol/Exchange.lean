import PacketForge.Network.Usage
import PacketForge.Protocol.PacketIo

set_option autoImplicit false

/-! # One call of `PacketIO` under any answers

What `PacketIO::send` and `PacketIO::receive` leave behind, in any state of the connection and
whatever each `::send` and `::recv` returns.

* `send_writes_prefix`: the bytes that were written are the encoding of the packet, or a first
  part of it, and the error says which.
* `receive_atomic`: a call that is no success leaves the packet of the caller alone, and the
  connection too unless the peer has closed it.

## How the proofs go

The answers are a function of the history that keeps to `Kernel`. A program has exactly one run
against it, so the results are about this run and need no assumption that it ends. What holds of
the run is taken from the rules for all environments.

* For a send, `send_run` puts three facts about the loop of `Transport::send` together: what was
  written, that the transport was only read, and which answer ended the loop (`SendVerdict`). The
  last one is an induction along the recursion of the loop, since it speaks of all answers and not
  only of the bytes they moved.
* For a receive, `Ends` lists what the last `::recv` makes of the error code and of the
  connection. There are two calls of `Transport::receive` in one of `PacketIO::receive`; the first
  one hands on to the second only after a success, so `Ends` composes.
* The packet of the caller is a value that the code returns at its end, and `Leaves` says for each
  of the returns which one it is. An exception can only come from a vector that cannot grow.
-/

namespace PacketForge.Protocol

open Interaction Common Network

namespace PacketIo

/-! ## Answers as functions

What a concrete run has to say about its surroundings: only the answers to the transfers matter
for a call of `PacketIO`.
-/

/-- The answers to the calls on a connection, given those to `::send` and `::recv`. -/
def answers (send : SysHistory → List UInt8 → Int)
    (recv : SysHistory → Nat → Option (List UInt8)) (h : SysHistory) : (op : Sys) → op.Res
  | .send _ data _ => send h data
  | .recv _ size _ => recv h size
  | .socket => ⟨-1, ""⟩
  | .accept _ => ⟨-1, ""⟩
  | .setsockopt _ => ⟨-1, ""⟩
  | .inet_pton _ => (0 : Int)
  | .bind _ _ _ => ⟨-1, ""⟩
  | .listen _ _ => ⟨-1, ""⟩
  | .getsockname _ => (⟨-1, ""⟩, 0)
  | .connect _ _ _ => ⟨-1, ""⟩
  | .close _ => ()
  | .shutdownRequested => false
  | .cinGet => ()

theorem answers_kernel {send : SysHistory → List UInt8 → Int}
    {recv : SysHistory → Nat → Option (List UInt8)} (hsend : ∀ h data, send h data ≤ data.length)
    (hrecv : ∀ h size bytes, recv h size = some bytes → bytes.length ≤ size) (h : SysHistory)
    (op : Sys) : Kernel h op (answers send recv h op) := by
  cases op with
  | send fd data flags => exact hsend h data
  | recv fd size flags => exact hrecv h size
  | socket => exact .inl rfl
  | accept => exact .inl rfl
  | _ => trivial

/-! ## Sending

A `::send` has moved bytes or has moved nothing; the loop goes on in the first case only.
-/

/-- A `::send` that moved bytes. -/
def MovedOut (fd : Int) (e : SysEvent) : Prop :=
  ∃ (data : List UInt8) (result : Int), 0 < result ∧ e = ⟨.send fd data 0, result⟩

/-- A `::send` that moved nothing. -/
def Declined (fd : Int) (e : SysEvent) : Prop :=
  ∃ (data : List UInt8) (result : Int), result ≤ 0 ∧ e = ⟨.send fd data 0, result⟩

/-- What the answers make of a send: all of its calls moved bytes, or the last one did not, which
ended it with an error. -/
def SendVerdict (fd : Int) (h : SysHistory) (error : Error) (h' : SysHistory) : Prop :=
  (error.code = .Success ∧ Extends (MovedOut fd) h h') ∨
    (error.code = .SocketError ∧
      ∃ e before, h' = e :: before ∧ Declined fd e ∧ Extends (MovedOut fd) h before)

theorem SendVerdict.answers {fd : Int} {h h' : SysHistory} {error : Error}
    (hverdict : SendVerdict fd h error h') :
    (error.code = .Success ∧ ∀ e ∈ since h h', MovedOut fd e) ∨
      (error.code = .SocketError ∧ ∃ e before, h' = e :: before ∧ Declined fd e ∧
        ∀ e ∈ since h before, MovedOut fd e) := by
  rcases hverdict with ⟨hcode, hext⟩ | ⟨hcode, e, before, heq, hdeclined, hext⟩
  · exact .inl ⟨hcode, hext.forall_since⟩
  · exact .inr ⟨hcode, e, before, heq, hdeclined, hext.forall_since⟩

/-- The loop goes on after a positive answer only. -/
theorem sendLoop_verdict (fd : Int) (data : List UInt8) (totalSent : Nat) {h₀ h : SysHistory}
    (hext : Extends (MovedOut fd) h₀ h) :
    wp (.ofEnv Kernel) (Transport.sendLoop fd data totalSent) (SendVerdict fd h₀) h := by
  induction totalSent using Transport.sendLoop.induct data generalizing h with
  | case1 totalSent hlt ih =>
      rw [Transport.sendLoop, if_pos hlt]
      simp only [Posix.send, Prog.bind_eq, Prog.perform_bind, wp_call]
      refine ⟨trivial, fun result _ => ?_⟩
      by_cases hneg : result < 0
      · rw [if_pos hneg]
        exact .inr ⟨rfl, _, _, rfl, ⟨_, _, hneg.le, rfl⟩, hext⟩
      by_cases hzero : result = 0
      · rw [if_neg hneg, if_pos hzero]
        exact .inr ⟨rfl, _, _, rfl, ⟨_, _, hzero.le, rfl⟩, hext⟩
      rw [if_neg hneg, if_neg hzero]
      have hpos : 0 < result := lt_of_le_of_ne (not_lt.mp hneg) (Ne.symm hzero)
      exact ih result hneg hzero (hext.cons ⟨_, _, hpos, rfl⟩)
  | case2 totalSent hge =>
      rw [Transport.sendLoop, if_neg hge]
      exact .inl ⟨rfl, hext⟩

/-- What a call of `Transport::send` on a connected transport does, for any answers. -/
theorem send_run {results : SysHistory → (op : Sys) → op.Res}
    (hresults : ∀ h op, Kernel h op (results h op)) (transport : Transport) (frame : List UInt8)
    (h : SysHistory) (hconn : transport.isConnected = true) :
    SendEnds Kernel transport.fd (written transport.fd h ++ frame)
      ((transport.send frame).run results h).1 ((transport.send frame).run results h).2 ∧
    SendVerdict transport.fd h
      ((transport.send frame).run results h).1 ((transport.send frame).run results h).2 ∧
    Extends (fun e => obtained e = none ∧ released e = none) h
      ((transport.send frame).run results h).2 ∧
    ∀ e before, e :: before <:+ ((transport.send frame).run results h).2 →
      h.length ≤ before.length →
      ∃ rest, e.op = .send transport.fd rest 0 ∧
        written transport.fd before ++ rest = written transport.fd h ++ frame := by
  have hrun := Prog.run_runs hresults (transport.send frame) h
  have hwp := transport.send_wp (E := Kernel) frame _ h hconn rfl
  have hkept := wp_invariant (D := sending Kernel transport.fd (written transport.fd h ++ frame))
    (Extends (fun e => obtained e = none ∧ released e = none) h) (.refl h) hwp
    (fun _ _ _ hmay => hmay) (fun h' op r hext hmay hr => by
      obtain ⟨rest, -, rfl, -⟩ := hmay
      exact ⟨hr, hext.cons ⟨rfl, rfl⟩⟩)
  have hends := Runs.wp (C := sending Kernel transport.fd _) hrun hkept
  have hverdict : wp (.ofEnv Kernel) (transport.send frame) (SendVerdict transport.fd h) h := by
    rw [Transport.send, hconn]
    exact sendLoop_verdict transport.fd frame 0 (.refl h)
  refine ⟨hends.1, Runs.wp (C := .ofEnv Kernel) hrun hverdict, hends.2,
    fun e before hsuffix hle => ?_⟩
  obtain ⟨rest, -, hop, hrest⟩ :=
    permitted_of_runs (C := sending Kernel transport.fd _) hrun hwp e before hsuffix hle
  exact ⟨rest, hop, hrest⟩

/-- **A send writes all of one frame or a clean prefix.** The answers to the system calls are
given by any function of what happened before, so that the run always ends. The bytes are
written in order, each `::send` continuing where the last one stopped. It ends with `Success`
when all answers were positive and with `SocketError` at the first one that is not. The transport
is only read: it keeps its flag and its socket, and no descriptor is opened or closed. -/
theorem send_writes_prefix (host : Platform) (transport : Transport) (packet : Packet)
    (halloc : packet.isValid = true → host.fits (HEADER_SIZE + packet.payload.length) = true)
    (results : SysHistory → (op : Sys) → op.Res)
    (hresults : ∀ h op, Kernel h op (results h op)) (h : SysHistory) :
    let r := (send host transport packet).run results h
    ∃ bytes, written transport.fd r.2 = written transport.fd h ++ bytes ∧
      (∀ fd, IsOpen r.2 fd ↔ IsOpen h fd) ∧
      match Encoder.encode host packet with
      | .error _ => packet.isValid = false ∧ r.1.code = .SerializationError ∧ r.2 = h
      | .ok frame => packet.isValid = true ∧
        bytes <+: frame ∧ (bytes = frame ↔ r.1.code = .Success) ∧
        (transport.isConnected = false → r.1.code = .ConnectionFailed ∧ r.2 = h) ∧
        (transport.isConnected = true →
          (r.1.code = .Success ∧ ∀ e ∈ since h r.2, MovedOut transport.fd e) ∨
          (r.1.code = .SocketError ∧ ∃ e before, r.2 = e :: before ∧ Declined transport.fd e ∧
            ∀ e ∈ since h before, MovedOut transport.fd e)) ∧
        ∀ e before, e :: before <:+ r.2 → h.length ≤ before.length →
          ∃ rest, e.op = .send transport.fd rest 0 ∧
            written transport.fd before ++ rest = written transport.fd h ++ frame := by
  cases hvalid : packet.isValid with
  | false =>
      rw [send_of_not_isValid host transport hvalid, encode_of_not_isValid host hvalid]
      exact ⟨[], (List.append_nil _).symm, fun _ => Iff.rfl, rfl, rfl, rfl⟩
  | true =>
      have hencode := encode_of_isValid hvalid (halloc hvalid)
      have hsend : send host transport packet = transport.send (wireFormat packet) := by
        rw [send, hencode]
      rw [hsend, hencode]
      cases hconn : transport.isConnected with
      | false =>
          rw [show transport.send (wireFormat packet)
            = .ret ⟨.ConnectionFailed, "Connection not established"⟩ by
              rw [Transport.send, hconn]; rfl]
          refine ⟨[], (List.append_nil _).symm, fun _ => Iff.rfl, rfl, List.nil_prefix,
            iff_of_false (wireFormat_ne_nil packet).symm (fun hcode => by cases hcode),
            fun _ => ⟨rfl, rfl⟩, fun hfalse => Bool.noConfusion hfalse,
            fun e before hsuffix hle => ?_⟩
          have hlength : (e :: before).length ≤ h.length := hsuffix.length_le
          rw [List.length_cons] at hlength
          omega
      | true =>
          obtain ⟨hends, hverdict, hkept, hcalls⟩ :=
            send_run hresults transport (wireFormat packet) h hconn
          revert hends hverdict hkept hcalls
          generalize (transport.send (wireFormat packet)).run results h = r
          rcases r with ⟨error, h'⟩
          intro hends hverdict hkept hcalls
          obtain ⟨bytes, hbytes⟩ := written_prefix transport.fd hkept
          obtain ⟨hbegun, hall⟩ := hends.written_target
          rw [← hbytes] at hbegun hall
          exact ⟨bytes, hbytes.symm, isOpen_of_extends hkept, rfl,
            (List.prefix_append_right_inj _).mp hbegun, (List.append_right_inj _).symm.trans hall,
            fun hfalse => Bool.noConfusion hfalse, fun _ => hverdict.answers, hcalls⟩

/-- The kernel takes ten bytes of an empty packet, and then the connection is reset. -/
theorem send_writes_prefix_reset :
    ((send (.ample .Little 64) ⟨⟨⟨3⟩, true⟩⟩ Packet.new).run
      (answers (fun h data => if h.isEmpty then min 10 data.length else -1)
        fun _ _ => none) []).1.code = .SocketError ∧
    ∃ bytes, bytes <+: wireFormat Packet.new ∧ bytes ≠ wireFormat Packet.new ∧
      written 3 ((send (.ample .Little 64) ⟨⟨⟨3⟩, true⟩⟩ Packet.new).run
        (answers (fun h data => if h.isEmpty then min 10 data.length else -1) fun _ _ => none) []).2
          = bytes := by
  have hcode : ((send (.ample .Little 64) ⟨⟨⟨3⟩, true⟩⟩ Packet.new).run
      (answers (fun h data => if h.isEmpty then min 10 data.length else -1)
        fun _ _ => none) []).1.code = .SocketError := by
    decide +kernel
  obtain ⟨bytes, hbytes, -, hmatch⟩ := send_writes_prefix (.ample .Little 64) ⟨⟨⟨3⟩, true⟩⟩
    Packet.new (fun _ => by decide +kernel)
    (answers (fun h data => if h.isEmpty then min 10 data.length else -1) fun _ _ => none)
    (answers_kernel (fun h data => by split_ifs <;> omega) (fun _ _ _ hnone => by cases hnone)) []
  rw [encode_of_isValid (show Packet.new.isValid = true by decide) (by decide +kernel)] at hmatch
  obtain ⟨-, hprefix, hall, -⟩ := hmatch
  refine ⟨hcode, bytes, hprefix, fun heq => ?_, hbytes⟩
  rw [hall.mp heq] at hcode
  cases hcode

/-! ## Receiving

As for a send, and in addition the connection: it is given up where the last `::recv` returned 0.
-/

/-- A `::recv` that moved bytes. -/
def Moved (fd : Int) (e : SysEvent) : Prop :=
  ∃ n bytes, bytes ≠ [] ∧ e = ⟨.recv fd n 0, some bytes⟩

/-- A `::recv` that failed. -/
def sawFailure : SysEvent → Bool
  | ⟨.recv _ _ _, r⟩ => decide (r = none)
  | _ => false

/-- What a receive makes of the code it returns, of the transport and of what happened since `h`:
all calls moved bytes, or the last one failed, or the last one found the connection closed, whose
descriptor was then closed as well. -/
inductive Ends (self : Transport) (h : SysHistory) : ErrorCode → Transport → SysHistory → Prop
  | moved {code : ErrorCode} {h' : SysHistory} : code ≠ .SocketError → code ≠ .ConnectionClosed →
      Extends (Moved self.fd) h h' → Ends self h code self h'
  | failed {n : Nat} {h' : SysHistory} : Extends (Moved self.fd) h h' →
      Ends self h .SocketError self (⟨.recv self.fd n 0, none⟩ :: h')
  | closed {n : Nat} {h' h'' : SysHistory} : Extends (Moved self.fd) h h' →
      h'' = ⟨.recv self.fd n 0, some []⟩ :: h' →
      Ends self h .ConnectionClosed .new
        (if self.connection.socket.isOpen then ⟨.close self.fd, ()⟩ :: h'' else h'')

/-- Disconnecting closes the descriptor, if there is one. -/
theorem disconnect_ends {self : Transport} {h h' : SysHistory} {n : Nat} {error : Error}
    (hext : Extends (Moved self.fd) h h')
    {Q : Error × List UInt8 × Transport → SysHistory → Prop}
    (hQ : ∀ h'', Ends self h .ConnectionClosed .new h'' → Q (error, [], .new) h'') :
    wp (.ofEnv Kernel) (self.connection.disconnect >>= fun connection =>
      pure (error, [], ⟨connection⟩)) Q (⟨.recv self.fd n 0, some []⟩ :: h') := by
  have hends := Ends.closed (n := n) hext rfl
  rw [Connection.disconnect_eq, bind_assoc]
  simp only [pure_bind]
  unfold Socket.close
  by_cases hopen : self.connection.socket.isOpen = true
  · rw [if_pos hopen] at hends
    rw [if_pos ((Socket.isOpen_iff _).mp hopen)]
    exact ⟨trivial, fun _ _ => hQ _ hends⟩
  · rw [if_neg hopen] at hends
    have hnone : self.connection.socket = Socket.new :=
      congrArg Socket.mk (not_not.mp (mt (Socket.isOpen_iff _).mpr hopen))
    rw [hnone]
    exact hQ _ hends

theorem Ends.of_success {self t : Transport} {h h' : SysHistory}
    (hends : Ends self h .Success t h') : t = self ∧ Extends (Moved self.fd) h h' := by
  cases hends with
  | moved _ _ hext => exact ⟨rfl, hext⟩

theorem receiveLoop_ends (self : Transport) (size : Nat) (received before : List UInt8)
    {h₀ h : SysHistory} (hext : Extends (Moved self.fd) h₀ h) (hle : received.length ≤ size)
    (hc : consumed self.fd h = before ++ received) :
    wp (.ofEnv Kernel) (self.receiveLoop size received)
      (fun r h' => Ends self h₀ r.1.code r.2.2 h' ∧ r.1.code ≠ .ProtocolError ∧
        (r.1.code = .Success → r.2.1.length = size ∧
          consumed self.fd h' = before ++ r.2.1)) h := by
  induction received using Transport.receiveLoop.induct size generalizing h with
  | case1 received hlt ih =>
      rw [Transport.receiveLoop, if_pos hlt]
      refine ⟨trivial, fun result hresult => ?_⟩
      rcases result with _ | _ | ⟨b, bytes⟩
      · exact ⟨.failed hext, ErrorCode.noConfusion, fun hcode => by cases hcode⟩
      · exact disconnect_ends hext fun h'' hends =>
          ⟨hends, ErrorCode.noConfusion, fun hcode => by cases hcode⟩
      · have hbytes : (b :: bytes).length ≤ size - received.length := hresult _ rfl
        apply ih b bytes
        · exact hext.cons ⟨_, b :: bytes, List.cons_ne_nil b bytes, rfl⟩
        · rw [List.length_append]
          omega
        · rw [consumed_cons, hc, taken, if_pos rfl, Option.getD_some, List.append_assoc]
  | case2 received hge =>
      rw [Transport.receiveLoop, if_neg hge]
      exact ⟨.moved ErrorCode.noConfusion ErrorCode.noConfusion hext, ErrorCode.noConfusion,
        fun _ => ⟨le_antisymm hle (not_lt.mp hge), hc⟩⟩

/-- `Transport::receive` into an empty vector, in any state of the connection. -/
theorem transport_receive_ends (host : Platform) (self : Transport) (size : Nat)
    {h₀ h : SysHistory} (hext : Extends (Moved self.fd) h₀ h) :
    wp (.ofEnv Kernel) (self.receive host [] size)
      (fun r h' => (∀ e, r = .error e → host.fits size = false) ∧
        ∀ error data t, r = .ok (error, data, t) →
          Ends self h₀ error.code t h' ∧ error.code ≠ .ProtocolError ∧
          (error.code = .Success → data.length = size ∧
            consumed self.fd h' = consumed self.fd h ++ data)) h := by
  unfold Transport.receive
  split_ifs with _ hfits
  · refine ⟨nofun, fun error data t heq => ?_⟩
    cases heq
    exact ⟨.moved nofun nofun hext, nofun, nofun⟩
  · refine ⟨fun _ _ => ?_, fun error data t heq => by cases heq⟩
    rw [Bool.and_eq_true] at hfits
    simpa using hfits.2
  · refine wp_seq (receiveLoop_ends self size [] _ hext (Nat.zero_le _)
      (List.append_nil _).symm) ?_
    refine fun r h' hr => ⟨nofun, fun error data t heq => ?_⟩
    cases heq
    exact hr

/-- The decoder never reads behind the end of a vector. -/
theorem decode_not_outOfBounds (host : Platform) (data : List UInt8) :
    Decoder.decode host data ≠ .error .outOfBounds := by
  unfold Decoder.decode
  by_cases hshort : data.length < HEADER_SIZE
  · rw [if_pos hshort]
    nofun
  have hlen : 16 ≤ data.length := not_lt.mp hshort
  rw [if_neg hshort]
  simp only [readUint32_eq host (show 0 + 4 ≤ data.length by omega),
    readByte_eq (show 4 < data.length by omega), readByte_eq (show 5 < data.length by omega),
    readUint16_eq host (show 6 + 2 ≤ data.length by omega),
    readUint32_eq host (show 8 + 4 ≤ data.length by omega),
    readUint32_eq host (show 12 + 4 ≤ data.length by omega), ok_bind]
  split_ifs <;> nofun

/-- What a call that is no success leaves in the output arguments, when it had taken `bytes`: the
packet of the caller, and the reason why the decoder rejected the bytes if it did. -/
def Reported (host : Platform) (packet : Packet) (protocolError : Option ProtocolError)
    (bytes : List UInt8) (r : Received) : Prop :=
  r.error.code ≠ .Success → r.packet = packet ∧
    if r.error.code = .ProtocolError then
      ∃ e what, Decoder.decode host bytes = .error (.throws (.ProtocolDecodeError e what)) ∧
        r.protocolError = protocolError.map fun _ => e
    else r.protocolError = protocolError.map fun _ => .InvalidPacket

/-- What `receive` leaves behind when it was called after `h`. Only the allocation of a vector can
throw. -/
def Leaves (host : Platform) (transport : Transport) (packet : Packet)
    (protocolError : Option ProtocolError) (h : SysHistory) :
    Except Abort Received → SysHistory → Prop
  | .error abort, _ => abort = .throws .bad_alloc ∧ ¬ host.Allocates maxFrame
  | .ok r, h' => Ends transport h r.error.code r.transport h' ∧
    ∃ bytes, Reported host packet protocolError bytes r ∧
      (r.error.code = .ProtocolError →
        consumed transport.fd h' = consumed transport.fd h ++ bytes)

section

variable {host : Platform} {transport : Transport} {packet : Packet}
  {protocolError : Option ProtocolError} {h h' : SysHistory}

theorem leaves_bad_alloc {n : Nat} (hn : n ≤ maxFrame) (hfits : host.fits n = false) :
    Leaves host transport packet protocolError h (.error (.throws .bad_alloc)) h' := by
  refine ⟨rfl, fun halloc => ?_⟩
  rw [halloc n hn] at hfits
  cases hfits

/-- One of the two vectors was not received. -/
theorem leaves_of_failed {error : Error} {t : Transport}
    (hends : Ends transport h error.code t h') (hcode : error.code ≠ .ProtocolError) :
    Leaves host transport packet protocolError h
      (.ok ⟨error, packet, protocolError.map fun _ => .InvalidPacket, t⟩) h' :=
  ⟨hends, [], fun _ => ⟨rfl, by rw [if_neg hcode]⟩, fun heq => absurd heq hcode⟩

/-- The last part of `receive`, when both were. -/
theorem finish_leaves {header payload : List UInt8}
    (hmax : HEADER_SIZE + payload.length ≤ maxFrame) (hext : Extends (Moved transport.fd) h h')
    (hc : consumed transport.fd h' = consumed transport.fd h ++ (header ++ payload)) :
    Leaves host transport packet protocolError h
      (finish host transport packet (protocolError.map fun _ => .InvalidPacket) header payload)
      h' := by
  unfold finish
  split_ifs with hfits
  · exact leaves_bad_alloc hmax (by simpa using hfits)
  cases hdecode : Decoder.decode host (header ++ payload) with
  | ok packet => exact ⟨.moved nofun nofun hext, [], fun hcode => absurd rfl hcode, nofun⟩
  | error abort =>
      rcases abort with (what | _ | ⟨e, what⟩) | _
      · exact ⟨.moved nofun nofun hext, [], fun _ => ⟨rfl, rfl⟩, nofun⟩
      · exact ⟨.moved nofun nofun hext, [], fun _ => ⟨rfl, rfl⟩, nofun⟩
      · have hreported : (protocolError.map fun _ => ProtocolError.InvalidPacket).map (fun _ => e)
            = protocolError.map fun _ => e := by
          rw [Option.map_map]
          rfl
        exact ⟨.moved nofun nofun hext, _, fun _ => ⟨rfl, e, what, hdecode, hreported⟩, fun _ => hc⟩
      · exact absurd hdecode (decode_not_outOfBounds host _)

end

/-- **What `receive` does**, on any host and in any state of the connection: the last `::recv`
decides about the error and the connection, and the output arguments are written in a success
only, but for the protocol error. It throws nothing but `bad_alloc`. -/
theorem receive_leaves (host : Platform) (transport : Transport) (packet : Packet)
    (protocolError : Option ProtocolError) (h : SysHistory) :
    wp (.ofEnv Kernel) (receive host transport packet protocolError)
      (Leaves host transport packet protocolError h) h := by
  unfold receive
  refine wp_seq (transport_receive_ends host transport HEADER_SIZE (.refl h)) ?_
  rintro (_ | ⟨error, header, t⟩) h₁ ⟨hthrown, hheader⟩
  · exact leaves_bad_alloc (Nat.le_add_right _ _) (hthrown _ rfl)
  obtain ⟨hends, hcode, hsuccess⟩ := hheader error header t rfl
  show wp _ (if !error.ok then _ else _) _ _
  cases hok : error.ok with
  | false => exact leaves_of_failed hends hcode
  | true =>
  rw [(error.ok_iff).mp hok] at hends hsuccess
  obtain ⟨rfl, hext⟩ := hends.of_success
  obtain ⟨hlength, hc⟩ := hsuccess rfl
  rw [readUint32_eq host (show 12 + 4 ≤ header.length by rw [hlength]; decide)]
  generalize UInt32.ofNat (fieldAt header 12 4) = payloadLength
  have hmax : HEADER_SIZE + payloadLength.toNat ≤ maxFrame := le_maxFrame payloadLength.toNat_lt
  show wp _ (if payloadLength > 0 then _ else _) _ _
  split_ifs
  · refine wp_seq (transport_receive_ends host t _ hext) ?_
    rintro (_ | ⟨error, payload, t'⟩) h₂ ⟨hthrown, hpayload⟩
    · exact leaves_bad_alloc ((Nat.le_add_left _ _).trans hmax) (hthrown _ rfl)
    obtain ⟨hends, hcode, hsuccess⟩ := hpayload error payload t' rfl
    show wp _ (if !error.ok then _ else _) _ _
    cases hok : error.ok with
    | false => exact leaves_of_failed hends hcode
    | true =>
        rw [(error.ok_iff).mp hok] at hends hsuccess
        obtain ⟨rfl, hext₂⟩ := hends.of_success
        obtain ⟨hlength₂, hc₂⟩ := hsuccess rfl
        exact finish_leaves (hlength₂ ▸ hmax) hext₂ (by rw [hc₂, hc, List.append_assoc])
  · exact finish_leaves (Nat.le_add_right _ _) hext (by rw [hc, List.append_nil])

/-! ## What was read

The bytes that a call has taken, next to what it has returned for them. Needed where the caller
goes on after the call, as the server program does.
-/

/-- The bytes behind a packet, and those of a stream that ended too early. -/
def Reads (host : Platform) (transport : Transport) (before : List UInt8) (r : Received)
    (h : SysHistory) : Prop :=
  (r.error.code = .Success → ∃ bytes, consumed transport.fd h = before ++ bytes ∧
    Decoder.decode host bytes = .ok r.packet) ∧
  (r.error.code = .ConnectionClosed → ∃ bytes, consumed transport.fd h = before ++ bytes ∧
    ¬ packetFraming.Complete bytes)

theorem transport_receive_reads (host : Platform) (self : Transport) (size : Nat) (h : SysHistory)
    (hconn : self.isConnected = true) (hopen : self.connection.socket.isOpen = true) :
    wp (receiving Kernel self.fd) (self.receive host [] size)
      (fun r h' => ∀ r', r = .ok r' →
        Network.ReceiveEnds Kernel self size (consumed self.fd h) r' h') h := by
  rw [Transport.receive, hconn, Bool.not_true, if_neg Bool.false_ne_true]
  split_ifs
  · exact fun r' heq => by cases heq
  · refine wp_seq (Transport.receiveLoop_wp le_rfl self hopen size [] _ h (List.append_nil _).symm
      (Nat.zero_le _)) ?_
    intro r h' hr r' heq
    obtain rfl := Except.ok.inj heq
    exact hr

theorem finish_reads {host : Platform} {transport : Transport} {packet : Packet}
    {protocolError : Option ProtocolError} {header payload before : List UInt8} {h : SysHistory}
    (hc : consumed transport.fd h = before ++ (header ++ payload)) :
    ∀ r, finish host transport packet protocolError header payload = .ok r →
      Reads host transport before r h := by
  intro r hr
  unfold finish at hr
  split_ifs at hr
  cases hdecode : Decoder.decode host (header ++ payload) with
  | ok p =>
      rw [hdecode] at hr
      obtain rfl := Except.ok.inj hr
      exact ⟨fun _ => ⟨_, hc, hdecode⟩, fun hcode => by cases hcode⟩
  | error abort =>
      rw [hdecode] at hr
      rcases abort with (what | _ | ⟨e, what⟩) | _
      · obtain rfl := Except.ok.inj hr
        exact ⟨fun hcode => (by cases hcode), fun hcode => by cases hcode⟩
      · obtain rfl := Except.ok.inj hr
        exact ⟨fun hcode => (by cases hcode), fun hcode => by cases hcode⟩
      · obtain rfl := Except.ok.inj hr
        exact ⟨fun hcode => (by cases hcode), fun hcode => by cases hcode⟩
      · cases hr

/-- **What `receive` has read** on a connected transport, on any host: after a success the bytes
of the packet, and after the end of the stream less than a frame. -/
theorem receive_reads (host : Platform) (transport : Transport) (packet : Packet)
    (protocolError : Option ProtocolError) (h : SysHistory) (hconn : transport.isConnected = true)
    (hopen : transport.connection.socket.isOpen = true) :
    wp (receiving Kernel transport.fd) (receive host transport packet protocolError)
      (fun r h' => ∀ received, r = .ok received →
        Reads host transport (consumed transport.fd h) received h') h := by
  unfold receive
  refine wp_seq (transport_receive_reads host transport HEADER_SIZE h hconn hopen) ?_
  rintro (_ | r) h₁ hr
  · exact fun received heq => by cases heq
  cases hr r rfl with
  | failed _ _ _ _ =>
      intro received heq
      cases heq
      exact ⟨fun hcode => (by cases hcode), fun hcode => by cases hcode⟩
  | @closed bytes n h₁ hlt hc _ _ =>
      intro received heq
      cases heq
      refine ⟨fun hcode => (by cases hcode), fun _ => ⟨bytes, ?_, fun hcomplete => ?_⟩⟩
      · simpa [taken] using hc
      · exact absurd hcomplete.header_le (not_le.mpr hlt)
  | @received header h₁ hheader hc =>
      have h16 : header.length = 16 := hheader
      show wp _ (if !Error.success.ok then _ else _) _ _
      rw [readUint32_eq host (show 12 + 4 ≤ header.length by omega)]
      have hvalue : (UInt32.ofNat (fieldAt header 12 4)).toNat = fieldAt header 12 4 :=
        Nat.mod_eq_of_lt (fieldAt_lt header 12 4)
      show wp _ (if UInt32.ofNat (fieldAt header 12 4) > 0 then _ else _) _ _
      -- a frame without a payload ends with its header
      split_ifs
      · refine wp_seq (transport_receive_reads host transport _ h₁ hconn hopen) ?_
        rintro (_ | r) h₂ hr
        · exact fun received heq => by cases heq
        cases hr r rfl with
        | failed _ _ _ _ =>
            intro received heq
            cases heq
            exact ⟨fun hcode => (by cases hcode), fun hcode => by cases hcode⟩
        | @closed payload n h₂ hlt hc₂ _ _ =>
            intro received heq
            cases heq
            refine ⟨fun hcode => (by cases hcode), fun _ => ⟨header ++ payload, ?_, ?_⟩⟩
            · simp only [consumed_cons, taken, if_true, Option.getD_some, List.append_nil, hc₂, hc,
                List.append_assoc]
            · rw [Framing.Complete, Framing.size_append hheader.ge, List.length_append, hheader]
              show ¬ HEADER_SIZE + fieldAt (header.take HEADER_SIZE) 12 4 ≤ _
              rw [List.take_of_length_le hheader.le]
              omega
        | @received payload h₂ _ hc₂ =>
            exact finish_reads (by rw [hc₂, hc, List.append_assoc])
      · exact finish_reads (by rw [hc, List.append_nil])

/-- The connection after a call: the last `::recv` decides. -/
theorem Ends.connection {self t : Transport} {h h' : SysHistory} {code : ErrorCode}
    (hends : Ends self h code t h') :
    ((∃ e ∈ since h h', sawPeerClose e = true) ↔ code = .ConnectionClosed) ∧
    ((∃ e ∈ since h h', sawFailure e = true) ↔ code = .SocketError) ∧
    (code = .ConnectionClosed → t.isConnected = false ∧ t.connection.socket.isOpen = false ∧
      ¬ IsOpen h' self.fd) ∧
    (code ≠ .ConnectionClosed → t = self ∧ ∀ fd, IsOpen h' fd ↔ IsOpen h fd) := by
  -- the calls that moved bytes saw neither
  have hquiet : ∀ {h₁}, Extends (Moved self.fd) h h₁ →
      (¬ ∃ e ∈ since h h₁, sawPeerClose e = true) ∧ ¬ ∃ e ∈ since h h₁, sawFailure e = true := by
    intro h₁ hext
    constructor
    · rintro ⟨e, he, hsaw⟩
      obtain ⟨n, bytes, hne, rfl⟩ := hext.forall_since e he
      exact hne (Option.some.inj (of_decide_eq_true hsaw))
    · rintro ⟨e, he, hsaw⟩
      obtain ⟨n, bytes, -, rfl⟩ := hext.forall_since e he
      cases hsaw
  have hsame : ∀ {h₁}, Extends (Moved self.fd) h h₁ → ∀ fd, IsOpen h₁ fd ↔ IsOpen h fd := by
    intro h₁ hext
    apply isOpen_of_extends
    apply hext.mono
    rintro _ ⟨n, bytes, -, rfl⟩
    exact ⟨rfl, rfl⟩
  cases hends with
  | moved hsocket hclosed hext =>
      exact ⟨iff_of_false (hquiet hext).1 hclosed, iff_of_false (hquiet hext).2 hsocket,
        fun hcode => absurd hcode hclosed, fun _ => ⟨rfl, hsame hext⟩⟩
  | @failed n h₁ hext =>
      have hsince := hext.since_cons ⟨.recv self.fd n 0, none⟩
      refine ⟨iff_of_false ?_ ErrorCode.noConfusion, iff_of_true ?_ rfl,
        fun hcode => (by cases hcode), fun _ => ⟨rfl, fun fd => ?_⟩⟩
      · rw [hsince]
        rintro ⟨e, he, hsaw⟩
        rcases List.mem_cons.mp he with rfl | he
        · cases hsaw
        · exact (hquiet hext).1 ⟨e, he, hsaw⟩
      · rw [hsince]
        exact ⟨_, List.mem_cons_self, rfl⟩
      · rw [isOpen_cons, ← hsame hext fd]
        simp [obtained, released]
  | @closed n h₁ h₂ hext heq =>
      subst heq
      have hsince := hext.since_cons ⟨.recv self.fd n 0, some []⟩
      have hext₂ : Extends (fun _ => True) h (⟨.recv self.fd n 0, some []⟩ :: h₁) :=
        (hext.mono fun _ _ => trivial).cons trivial
      -- the failed calls among those without the `close`
      have hfailure :
          ¬ ∃ e ∈ since h (⟨.recv self.fd n 0, some []⟩ :: h₁), sawFailure e = true := by
        rw [hsince]
        rintro ⟨e, he, hsaw⟩
        rcases List.mem_cons.mp he with rfl | he
        · cases hsaw
        · exact (hquiet hext).2 ⟨e, he, hsaw⟩
      have hpeer : ∃ e ∈ since h (⟨.recv self.fd n 0, some []⟩ :: h₁), sawPeerClose e = true := by
        rw [hsince]
        exact ⟨_, List.mem_cons_self, rfl⟩
      split_ifs with hopen
      · rw [hext₂.since_cons]
        refine ⟨iff_of_true ?_ rfl, iff_of_false ?_ not_false, fun _ => ⟨rfl, rfl, ?_⟩,
          fun hcode => absurd rfl hcode⟩
        · obtain ⟨e, he, hsaw⟩ := hpeer
          exact ⟨e, List.mem_cons_of_mem _ he, hsaw⟩
        · rintro ⟨e, he, hsaw⟩
          rcases List.mem_cons.mp he with rfl | he
          · cases hsaw
          · exact hfailure ⟨e, he, hsaw⟩
        · simp [obtained, released]
      · refine ⟨iff_of_true hpeer rfl, iff_of_false hfailure not_false, fun _ => ⟨rfl, rfl, ?_⟩,
          fun hcode => absurd rfl hcode⟩
        intro hisOpen
        have hnonneg : 0 ≤ self.connection.socket.socket := IsOpen.nonneg hisOpen
        rw [Socket.isOpen_iff, not_not] at hopen
        omega

/-- **A receive is atomic on failure.** The answers to the system calls are given by any function of
what happened before, so that the run always ends. -/
theorem receive_atomic (host : Platform) (transport : Transport) (packet : Packet)
    (protocolError : Option ProtocolError) (results : SysHistory → (op : Sys) → op.Res)
    (hresults : ∀ h op, Kernel h op (results h op)) (h : SysHistory) :
    let run := (receive host transport packet protocolError).run results h
    (host.Allocates maxFrame → ∃ r, run.1 = .ok r) ∧
    ∀ r, run.1 = .ok r →
      (r.error.code ≠ .Success → r.packet = packet ∧
        if r.error.code = .ProtocolError then
          ∃ bytes e what, consumed transport.fd run.2 = consumed transport.fd h ++ bytes ∧
            Decoder.decode host bytes = .error (.throws (.ProtocolDecodeError e what)) ∧
            r.protocolError = protocolError.map fun _ => e
        else r.protocolError = protocolError.map fun _ => .InvalidPacket) ∧
      ((∃ e ∈ since h run.2, sawPeerClose e = true) ↔ r.error.code = .ConnectionClosed) ∧
      ((∃ e ∈ since h run.2, sawFailure e = true) ↔ r.error.code = .SocketError) ∧
      (r.error.code = .ConnectionClosed → r.transport.isConnected = false ∧
        r.transport.connection.socket.isOpen = false ∧ ¬ IsOpen run.2 transport.fd) ∧
      (r.error.code ≠ .ConnectionClosed → r.transport = transport ∧
        ∀ fd, IsOpen run.2 fd ↔ IsOpen h fd) := by
  intro run
  have hrun := Prog.run_runs hresults (receive host transport packet protocolError) h
  have hleaves := Runs.wp (C := .ofEnv Kernel) hrun
    (receive_leaves host transport packet protocolError h)
  constructor
  · intro halloc
    change Leaves host transport packet protocolError h run.1 run.2 at hleaves
    cases hresult : run.1 with
    | ok r => exact ⟨r, rfl⟩
    | error abort =>
        rw [hresult] at hleaves
        exact absurd halloc hleaves.2
  · intro r hr
    change Leaves host transport packet protocolError h run.1 run.2 at hleaves
    rw [hr] at hleaves
    obtain ⟨hends, bytes, hreported, hc⟩ := hleaves
    refine ⟨fun hcode => ?_, hends.connection⟩
    obtain ⟨hpacket, hprotocolError⟩ := hreported hcode
    refine ⟨hpacket, ?_⟩
    split_ifs with hcode
    · rw [if_pos hcode] at hprotocolError
      obtain ⟨e, what, hdecode, he⟩ := hprotocolError
      exact ⟨bytes, e, what, hc hcode, hdecode, he⟩
    · rwa [if_neg hcode] at hprotocolError

/-- A header that announces 5 bytes of payload comes in two pieces, with one byte of the payload,
and then the peer closes. The caller's `protocolError` is not null. -/
theorem receive_atomic_closed :
    ∃ r, ((receive (.ample .Big 64) ⟨⟨⟨3⟩, true⟩⟩ Packet.new (some .InvalidPayload)).run
      (answers (fun _ _ => -1) fun h size =>
        some ((((wireFormat { Packet.new with payload := [1, 2, 3, 4, 5] }).take 17).drop
          (consumed 3 h).length).take (min size 9))) []).1 = .ok r ∧
      r.error.code = .ConnectionClosed ∧ r.packet = Packet.new ∧
      r.protocolError = some .InvalidPacket ∧ r.transport.isConnected = false := by
  obtain ⟨hreturns, hall⟩ := receive_atomic (.ample .Big 64) ⟨⟨⟨3⟩, true⟩⟩ Packet.new
    (some .InvalidPayload)
    (answers (fun _ _ => -1) fun h size =>
      some ((((wireFormat { Packet.new with payload := [1, 2, 3, 4, 5] }).take 17).drop
        (consumed 3 h).length).take (min size 9)))
    (answers_kernel (fun h data => by omega) (fun h size bytes heq => by
      rw [← Option.some.inj heq, List.length_take]
      exact (min_le_left _ _).trans (min_le_left _ _))) []
  obtain ⟨r, hr⟩ := hreturns (Platform.ample_allocates (by decide +kernel))
  obtain ⟨hreported, hclosed, -, hconnection, -⟩ := hall r hr
  have hcode : r.error.code = .ConnectionClosed := hclosed.mp (by decide +kernel)
  have hne : r.error.code ≠ .ProtocolError := by
    rw [hcode]
    decide
  obtain ⟨hpacket, hprotocolError⟩ := hreported (by rw [hcode]; decide)
  rw [if_neg hne] at hprotocolError
  exact ⟨r, hr, hcode, hpacket, hprotocolError, (hconnection hcode).1⟩

end PacketIo

end PacketForge.Protocol
