import PacketForge.Apps.Cleanup
import PacketForge.Network.Loopback
import PacketForge.Protocol.Reading

set_option autoImplicit false

/-! # The part of the server in a conversation

`answering` is what the server program does to its client at any moment of any run: it reads only
within the first frame, writes only what is missing of the response to that frame, and closes
nothing before the response is complete, unless something has gone wrong. `serverMain_answering`
walks through `main` once, whatever the system calls return.

## How the proofs go

A contract is about each single call, so it can be used of a run that is not over, or is blocked.
While the program is walked through, the state of the conversation is one of four: nobody is
connected (`Idle`); some bytes were read and some of the answer was written, on one descriptor
(`At`); the answer is complete (`Answered`); or something has gone wrong (not `Smooth`), after
which the contract asks for little.

`Speaks` is what the contract keeps along a run, and it says nothing of the program any more: what
was read is not more than a frame, and what was written is a first part of the answer to it.
`serverMain_only_answers` is then `always_of_runs`, applied to the walk.
-/

namespace PacketForge

open Interaction Common Network Protocol

/-! ## The contract

`failed` is a property of one call and its answer, so that it can be read off a history whether
anything has gone wrong.
-/

/-- A call that went wrong, a stream that ended, or a check that saw the shutdown flag. -/
def failed : SysEvent → Bool
  | ⟨.socket, r⟩ => r.value < 0
  | ⟨.setsockopt _, r⟩ => r.value < 0
  | ⟨.inet_pton _, r⟩ => r ≠ (1 : Int)
  | ⟨.bind _ _ _, r⟩ => r.value < 0
  | ⟨.listen _ _, r⟩ => r.value < 0
  | ⟨.accept _, r⟩ => r.value < 0
  | ⟨.getsockname _, r⟩ => r.1.value < 0
  | ⟨.connect _ _ _, r⟩ => r.value < 0
  | ⟨.send _ _ _, r⟩ => r ≤ (0 : Int)
  | ⟨.recv _ _ _, r⟩ => r = none || r = some []
  | ⟨.shutdownRequested, r⟩ => r
  | _ => false

/-- Nothing has gone wrong in the history. The results about a conversation without faults are
about histories of this kind. -/
def Smooth (h : SysHistory) : Prop := ∀ e ∈ h, failed e = false

/-- The process has read a frame and written the response to it. -/
def Answered (h : SysHistory) : Prop :=
  packetFraming.IsFrame (input h) ∧ output h = replyBytes (input h)

/-- What the server does to its client, call by call. It accepts once; it reads within the first
frame only; it writes what is missing of the response to the frame that it has read; and as long
as nothing has gone wrong it closes nothing before the response is complete. It relies on nothing
but `Kernel`. -/
def answering : Contract Sys Sys.Res where
  may h op := match op with
    | .connect _ _ _ => False
    | .accept _ => endpoint h = none ∧ Silent h ∧ Listens h SERVER_ADDRESS SERVER_PORT
    | .recv fd n _ => endpoint h = some fd ∧ 0 < n ∧ PacketIo.Within (input h) n
    | .send fd data _ => endpoint h = some fd ∧ data ≠ [] ∧ packetFraming.IsFrame (input h) ∧
        output h ++ data = replyBytes (input h)
    | .close _ => Smooth h → Answered h
    | _ => True
  answers := Kernel

section

variable {h : SysHistory} {e : SysEvent} {c : Int} {bytes answer : List UInt8}

theorem Smooth.of_cons (hs : Smooth (e :: h)) : Smooth h :=
  fun e' he' => hs e' (List.mem_cons_of_mem e he')

theorem not_smooth_cons (he : failed e = true) : ¬ Smooth (e :: h) := fun hs => by
  have hfalse := hs e List.mem_cons_self
  rw [he] at hfalse
  cases hfalse

/-- The state of the server before it has a client: nothing was transferred on any descriptor, and
no `::accept` or `::connect` has succeeded. -/
structure Idle (h : SysHistory) : Prop where
  silent : Silent h
  unconnected : endpoint h = none

theorem Idle.cons (hi : Idle h) (hlinked : linked e = none)
    (he : ∀ fd, sent fd e = [] ∧ taken fd e = []) : Idle (e :: h) where
  silent := hi.silent.cons he
  unconnected := (endpoint_cons_none hlinked).trans hi.unconnected

/-- The state of the server in its conversation: its end of the connection is `c`, and on it
`bytes` were read and `answer` was written so far. -/
structure At (c : Int) (bytes answer : List UInt8) (h : SysHistory) : Prop where
  endpoint : endpoint h = some c
  consumed : consumed c h = bytes
  written : written c h = answer

theorem At.input (ha : At c bytes answer h) : input h = bytes := by
  rw [input_of_endpoint ha.endpoint, ha.consumed]

theorem At.output (ha : At c bytes answer h) : output h = answer := by
  rw [output_of_endpoint ha.endpoint, ha.written]

/-- A call that does not concern the connection. -/
theorem At.cons (ha : At c bytes answer h) (hlinked : linked e = none) (hsent : sent c e = [])
    (htaken : taken c e = []) : At c bytes answer (e :: h) where
  endpoint := (endpoint_cons_none hlinked).trans ha.endpoint
  consumed := by rw [consumed_cons, htaken, List.append_nil, ha.consumed]
  written := by rw [written_cons, hsent, List.append_nil, ha.written]

end

/-! ## The start

Everything before the accept: no bytes are moved, and the socket is bound before it listens.
-/

/-- What `start` leaves behind: a running server whose process listens on the address, or an
error, and then something has gone wrong. -/
def Started (address : String) (port : UInt16) (r : Error × Server) (h : SysHistory) : Prop :=
  Idle h ∧ (r.1.ok = true → Listens h address port ∧
      ∃ l sin_port, 0 ≤ l ∧ r.2 = ⟨⟨l⟩, true, sin_port⟩) ∧
    (r.1.ok = false → ¬ Smooth h)

/-- The socket `l` is open and was bound to the address, which is what the `::listen` after it
needs to make the process listen there. -/
def Bound (l : Int) (address : String) (port : UInt16) (h : SysHistory) : Prop :=
  IsOpen h l ∧ ∃ r : Ret, (⟨.bind l address port, r⟩ : SysEvent) ∈ h ∧ 0 ≤ r.value

section

variable {h : SysHistory}

theorem startFailed_answering (socket : Socket) (address : String) (port : UInt16) {error : Error}
    (herror : error.ok = false) (hi : Idle h) (hs : ¬ Smooth h) :
    wp answering (Server.startFailed socket false error) (Started address port) h := by
  unfold Server.startFailed Socket.close
  split_ifs
  · refine ⟨fun hsmooth => absurd hsmooth hs, fun r _ => ⟨hi.cons rfl fun _ => ⟨rfl, rfl⟩, ?_, ?_⟩⟩
    · exact fun hok => by rw [herror] at hok; cases hok
    · exact fun _ hsmooth => hs hsmooth.of_cons
  · refine ⟨hi, ?_, fun _ => hs⟩
    exact fun hok => by rw [herror] at hok; cases hok

theorem bind_answering {socket : Socket} (hopen : socket.isOpen = true) (address : String)
    (port : UInt16) (hi : Idle h) (hl : IsOpen h socket.socket) :
    wp answering (socket.bind address port)
      (fun r h' => r.2 = socket ∧ Idle h' ∧ (r.1.ok = true → Bound socket.socket address port h') ∧
        (r.1.ok = false → ¬ Smooth h')) h := by
  unfold Socket.bind
  rw [if_neg (by rw [hopen]; exact Bool.false_ne_true)]
  refine ⟨trivial, fun reuse _ => ?_⟩
  have hi₁ : Idle (⟨.setsockopt socket.socket, reuse⟩ :: h) := hi.cons rfl fun _ => ⟨rfl, rfl⟩
  show wp _ (if reuse.value < 0 then _ else _) _ _
  split_ifs with hreuse
  · exact ⟨rfl, hi₁, fun hok => (by cases hok), fun _ => not_smooth_cons (decide_eq_true hreuse)⟩
  refine ⟨trivial, fun parsed _ => ?_⟩
  have hi₂ := hi₁.cons (e := ⟨.inet_pton address, parsed⟩) rfl fun _ => ⟨rfl, rfl⟩
  show wp _ (if parsed ≠ 1 then _ else _) _ _
  split_ifs with hparsed
  · exact ⟨rfl, hi₂, fun hok => (by cases hok), fun _ => not_smooth_cons (decide_eq_true hparsed)⟩
  refine ⟨trivial, fun r _ => ?_⟩
  have hi₃ := hi₂.cons (e := ⟨.bind socket.socket address port, r⟩) rfl fun _ => ⟨rfl, rfl⟩
  show wp _ (if r.value < 0 then _ else _) _ _
  split_ifs with hr
  · exact ⟨rfl, hi₃, fun hok => (by cases hok), fun _ => not_smooth_cons (decide_eq_true hr)⟩
  · refine ⟨rfl, hi₃, fun _ => ⟨?_, r, List.mem_cons_self, not_lt.mp hr⟩, fun hok => by cases hok⟩
    exact .inr ⟨nofun, .inr ⟨nofun, .inr ⟨nofun, hl⟩⟩⟩

theorem listen_answering {socket : Socket} (hopen : socket.isOpen = true) (hi : Idle h)
    {address : String} {port : UInt16} (hbound : Bound socket.socket address port h) :
    wp answering (socket.listen SOMAXCONN)
      (fun error h' => Idle h' ∧ (error.ok = true → Listens h' address port) ∧
        (error.ok = false → ¬ Smooth h')) h := by
  unfold Socket.listen
  rw [hopen, if_neg (by decide), if_neg (by decide)]
  refine ⟨trivial, fun r _ => ?_⟩
  have hi₁ := hi.cons (e := ⟨.listen socket.socket SOMAXCONN, r⟩) rfl fun _ => ⟨rfl, rfl⟩
  show wp _ (if r.value < 0 then _ else _) _ _
  split_ifs with hr
  · exact ⟨hi₁, fun hok => (by cases hok), fun _ => not_smooth_cons (decide_eq_true hr)⟩
  · obtain ⟨hl, bound, hmem, hvalue⟩ := hbound
    refine ⟨hi₁, fun _ => ⟨socket.socket, .inr ⟨nofun, hl⟩, ?_, ?_⟩, fun hok => by cases hok⟩
    · exact ⟨bound, List.mem_cons_of_mem _ hmem, hvalue⟩
    · exact ⟨SOMAXCONN, r, List.mem_cons_self, not_lt.mp hr⟩

theorem start_answering (address : String) (port : UInt16) :
    wp answering (Server.new.start address port) (Started address port) [] := by
  refine ⟨trivial, fun created hl => ?_⟩
  obtain ⟨l, strerror⟩ := created
  have hi : Idle [(⟨.socket, ⟨l, strerror⟩⟩ : SysEvent)] := ⟨fun _ => ⟨rfl, rfl⟩, rfl⟩
  show wp _ ((if l = -1 then _ else _ : SysM (Error × Socket)).bind _) _ _
  by_cases hfail : l = -1
  · subst hfail
    exact ⟨hi, fun hok => (by cases hok), fun _ => not_smooth_cons rfl⟩
  rw [if_neg hfail]
  have hl : 0 ≤ l := (hl.resolve_left hfail).1
  have hopen : (⟨l⟩ : Socket).isOpen = true := decide_eq_true hfail
  show wp _ (((⟨l⟩ : Socket).bind address port).bind _) _ _
  have hobtained : IsOpen [(⟨.socket, ⟨l, strerror⟩⟩ : SysEvent)] l :=
    .inl (if_neg (not_lt.mpr hl))
  refine wp_seq (bind_answering hopen address port hi hobtained) ?_
  rintro ⟨error, socket⟩ h₁ ⟨rfl, hi₁, hbound, hfailed₁⟩
  show wp _ (if !error.ok then _ else _) _ _
  cases hok : error.ok with
  | false => exact startFailed_answering ⟨l⟩ address port hok hi₁ (hfailed₁ hok)
  | true =>
  show wp _ (((⟨l⟩ : Socket).listen SOMAXCONN).bind _) _ _
  refine wp_seq (listen_answering hopen hi₁ (hbound hok)) ?_
  rintro error h₂ ⟨hi₂, hlistens, hfailed₂⟩
  show wp _ (if !error.ok then _ else _) _ _
  cases hok : error.ok with
  | false => exact startFailed_answering ⟨l⟩ address port hok hi₂ (hfailed₂ hok)
  | true =>
  refine ⟨trivial, fun reported _ => ?_⟩
  have hi₃ := hi₂.cons (e := ⟨.getsockname l, reported⟩) rfl fun _ => ⟨rfl, rfl⟩
  show wp _ (if reported.1.value < 0 then _ else _) _ _
  split_ifs with hr
  · exact startFailed_answering ⟨l⟩ address port rfl hi₃ (not_smooth_cons (decide_eq_true hr))
  · exact ⟨hi₃, fun _ => ⟨(hlistens hok).cons rfl, l, reported.2, hl, rfl⟩,
      fun hok => by cases hok⟩

theorem accept_answering {l : Int} (hl : 0 ≤ l) (port : UInt16) (hi : Idle h)
    (hlistens : Listens h SERVER_ADDRESS SERVER_PORT) :
    wp answering (Server.accept ⟨⟨l⟩, true, port⟩ Connection.new)
      (fun r h' => (r.1.ok = true → ∃ c, 0 ≤ c ∧ r.2 = ⟨⟨c⟩, true⟩ ∧ At c [] [] h') ∧
        (r.1.ok = false → r.2 = Connection.new ∧ ¬ Smooth h')) h := by
  have hopen : (⟨l⟩ : Socket).isOpen = true := decide_eq_true (by show l ≠ -1; omega)
  unfold Server.accept Connection.accept Socket.accept
  simp only [hopen, Bool.not_true, Bool.false_eq_true, if_false, Connection.new]
  refine ⟨⟨hi.unconnected, hi.silent, hlistens⟩, fun r hc => ?_⟩
  obtain ⟨c, strerror⟩ := r
  show wp _ ((if c < 0 then _ else _ : SysM (Error × Socket)).bind _) _ _
  by_cases hneg : c < 0
  · rw [if_pos hneg]
    exact ⟨fun hok => (by cases hok), fun _ => ⟨rfl, not_smooth_cons (decide_eq_true hneg)⟩⟩
  · rw [if_neg hneg]
    refine ⟨fun _ => ⟨c, not_lt.mp hneg, rfl, ?_⟩, fun hok => by cases hok⟩
    refine ⟨endpoint_cons_some (if_neg hneg), ?_, ?_⟩
    · exact (List.append_nil _).trans (hi.silent c).2
    · exact (List.append_nil _).trans (hi.silent c).1

end

/-! ## The exchange

The two calls of `PacketIO`, with what `Reading` says of the first one.
-/

/-- The exit code for a client whose first frame is `frame`. -/
def exitStatus (frame : List UInt8) : Int := if frameDefect frame = none then 0 else 1

/-- A response is made from the frame that was read. -/
theorem replyBytes_of_isFrame {frame : List UInt8} (hframe : packetFraming.IsFrame frame) :
    replyBytes frame = wireFormat (match frameDefect frame with
      | some e => ServerMain.protocolErrorResponse e
      | none => (OpcodeDispatcher.dispatch (packetAt frame)).2) := by
  have htake : frame.take (packetFraming.size frame) = frame :=
    List.take_of_length_le hframe.ge
  rw [replyBytes, reply_of_complete hframe.complete, htake]
  cases frameDefect frame <;> rfl

/-- The exchange has answered the first frame, or something has gone wrong. -/
def Exchanged (transport : Transport) (r : Except Abort (Int × Transport)) (h : SysHistory) :
    Prop :=
  (∃ x, r = .ok x) ∧ (Smooth h → ∃ frame, packetFraming.IsFrame frame ∧
    At transport.fd frame (replyBytes frame) h ∧ r = .ok (exitStatus frame, transport))

section

variable {host : Platform} {h : SysHistory} {transport : Transport}

theorem exchanged_of_not_smooth {exitCode : Int} {t : Transport} (hs : ¬ Smooth h) :
    Exchanged transport (.ok (exitCode, t)) h :=
  ⟨⟨_, rfl⟩, fun hsmooth => absurd hsmooth hs⟩

theorem receive_answering (halloc : host.Allocates PacketIo.maxFrame)
    (hconn : transport.isConnected = true) (hopen : transport.connection.socket.isOpen = true)
    (ha : At transport.fd [] [] h) :
    wp answering (PacketIo.receive host transport Packet.new (some .InvalidPacket))
      (fun r h' => (∃ frame, packetFraming.IsFrame frame ∧ At transport.fd frame [] h' ∧
          r = .ok (PacketIo.decoded transport Packet.new (some .InvalidPacket) frame)) ∨
        (∃ received, r = .ok received ∧ received.error.ok = false ∧
          received.error.code ≠ .ProtocolError) ∧ ¬ Smooth h') h := by
  have hreads := wp_invariant (D := answering)
    (fun h' => endpoint h' = some transport.fd ∧ written transport.fd h' = [])
    ⟨ha.endpoint, ha.written⟩
    (PacketIo.receive_reading le_rfl halloc transport Packet.new (some .InvalidPacket) h hconn
      hopen)
    (fun h' op hj hmay => ?_) (fun h' op r hj hmay hr => ?_)
  · refine wp_mono hreads ?_
    rintro r h' ⟨hends, hend, hwritten⟩
    rw [ha.consumed] at hends
    cases hends with
    | @frame frame h' hframe hc => exact .inl ⟨frame, hframe, ⟨hend, hc, hwritten⟩, rfl⟩
    | failed _ _ _ _ =>
        exact .inr ⟨⟨_, rfl, rfl, fun hcode => by cases hcode⟩, not_smooth_cons rfl⟩
    | closed _ _ _ _ =>
        refine .inr ⟨⟨_, rfl, rfl, fun hcode => by cases hcode⟩, fun hs => ?_⟩
        exact not_smooth_cons rfl hs.of_cons
  · rcases hmay with ⟨n, hn, rfl, bytes, hbytes, hwithin⟩ | ⟨rfl, n, h₀, rfl⟩
    · refine ⟨hj.1, hn, ?_⟩
      rwa [input_of_endpoint hj.1, hbytes, ha.consumed]
    · -- the stream ended within the frame
      exact fun hs => absurd hs (not_smooth_cons rfl)
  · refine ⟨hr, ?_⟩
    rcases hmay with ⟨n, -, rfl, -⟩ | ⟨rfl, -⟩
    · exact ⟨(endpoint_cons_none rfl).trans hj.1, (List.append_nil _).trans hj.2⟩
    · exact ⟨(endpoint_cons_none rfl).trans hj.1, (List.append_nil _).trans hj.2⟩

theorem send_answering (halloc : host.Allocates PacketIo.maxFrame)
    (hconn : transport.isConnected = true) {frame : List UInt8}
    (hframe : packetFraming.IsFrame frame) (ha : At transport.fd frame [] h) {response : Packet}
    (hvalid : response.isValid = true) (hreply : replyBytes frame = wireFormat response) :
    wp answering (PacketIo.send host transport response)
      (fun error h' => (error = .success ∧ At transport.fd frame (replyBytes frame) h') ∨
        (error.ok = false ∧ ¬ Smooth h')) h := by
  have hsends := wp_invariant (D := answering)
    (fun h' => endpoint h' = some transport.fd ∧ consumed transport.fd h' = frame)
    ⟨ha.endpoint, ha.consumed⟩ (PacketIo.send_wp Kernel halloc transport hvalid h hconn)
    (fun h' op hj hmay => ?_) (fun h' op r hj hmay hr => ?_)
  · refine wp_mono hsends ?_
    rintro error h' ⟨hends, hend, hc⟩
    rw [ha.written, List.nil_append] at hends
    cases hends with
    | sent hall => exact .inl ⟨rfl, hend, hc, hall.trans hreply.symm⟩
    | failed _ _ _ hle => exact .inr ⟨rfl, not_smooth_cons (decide_eq_true hle)⟩
  · obtain ⟨rest, hne, rfl, hrest⟩ := hmay
    rw [ha.written, List.nil_append] at hrest
    have hinput : input h' = frame := (input_of_endpoint hj.1).trans hj.2
    refine ⟨hj.1, hne, ?_, ?_⟩
    · rwa [hinput]
    · rw [hinput, output_of_endpoint hj.1, hrest, hreply]
  · obtain ⟨rest, -, rfl, -⟩ := hmay
    exact ⟨hr, (endpoint_cons_none rfl).trans hj.1, (List.append_nil _).trans hj.2⟩

theorem At.checked {c : Int} {bytes answer : List UInt8} (ha : At c bytes answer h) :
    At c bytes answer (⟨.shutdownRequested, false⟩ :: h) := ha.cons rfl rfl rfl

theorem exchange_answering (halloc : host.Allocates PacketIo.maxFrame)
    (hconn : transport.isConnected = true) (hopen : transport.connection.socket.isOpen = true)
    (ha : At transport.fd [] [] h) :
    wp answering (ServerMain.exchange host transport) (Exchanged transport) h := by
  unfold ServerMain.exchange
  refine wp_seq (receive_answering halloc hconn hopen ha) ?_
  rintro r h₁ (⟨frame, hframe, ha₁, rfl⟩ | ⟨⟨received, rfl, hok, hcode⟩, hs₁⟩)
  · have hbytes := replyBytes_of_isFrame hframe
    cases hdefect : frameDefect frame with
    | some e =>
        rw [hdefect] at hbytes
        obtain ⟨what, hdecoded⟩ := PacketIo.decoded_of_defect transport Packet.new
          (some .InvalidPacket) hdefect
        rw [hdecoded]
        refine wp_check trivial (exchanged_of_not_smooth (not_smooth_cons rfl)) ?_
        show wp _ ((PacketIo.send host transport (ServerMain.protocolErrorResponse e)).bind _) _ _
        refine wp_seq (send_answering halloc hconn hframe ha₁.checked rfl hbytes) ?_
        rintro error h₂ (⟨rfl, ha₂⟩ | ⟨hfail, hs₂⟩)
        · refine wp_check trivial (exchanged_of_not_smooth (not_smooth_cons rfl)) ?_
          refine ⟨⟨_, rfl⟩, fun _ => ⟨frame, hframe, ha₂.checked, ?_⟩⟩
          rw [exitStatus, hdefect, if_neg (Option.some_ne_none e)]
        · show wp _ (if !error.ok then _ else _) _ _
          rw [hfail]
          exact exchanged_of_not_smooth hs₂
    | none =>
        rw [hdefect] at hbytes
        rw [PacketIo.decoded, hdefect]
        refine wp_check trivial (exchanged_of_not_smooth (not_smooth_cons rfl)) ?_
        refine wp_check trivial (exchanged_of_not_smooth (not_smooth_cons rfl)) ?_
        obtain ⟨hok, hvalid⟩ := OpcodeDispatcher.dispatch_isValid (packetAt frame)
        show wp _ (if !(OpcodeDispatcher.dispatch (packetAt frame)).1.ok then _ else
          (PacketIo.send host transport (OpcodeDispatcher.dispatch (packetAt frame)).2).bind _) _ _
        rw [hok]
        refine wp_seq (send_answering halloc hconn hframe ha₁.checked.checked hvalid hbytes) ?_
        rintro error h₂ (⟨rfl, ha₂⟩ | ⟨hfail, hs₂⟩)
        · refine wp_check trivial (exchanged_of_not_smooth (not_smooth_cons rfl)) ?_
          refine ⟨trivial, fun _ _ => ⟨⟨_, rfl⟩, fun _ => ⟨frame, hframe, ?_, ?_⟩⟩⟩
          · exact ha₂.checked.cons rfl rfl rfl
          · rw [exitStatus, hdefect, if_pos rfl]
        · show wp _ (if !error.ok then _ else _) _ _
          rw [hfail]
          exact exchanged_of_not_smooth hs₂
  · -- the receive failed, or the client closed within its first frame
    obtain ⟨error, request, protocolError, t⟩ := received
    refine wp_check trivial (exchanged_of_not_smooth (not_smooth_cons rfl)) ?_
    show wp _ (if !error.ok then if error.code = .ConnectionClosed then _
      else if error.code = .ProtocolError then _ else _ else _) _ _
    rw [show error.ok = false from hok, if_neg (show ¬ error.code = .ProtocolError from hcode)]
    have hs : ¬ Smooth (⟨.shutdownRequested, false⟩ :: h₁) := fun hs => hs₁ hs.of_cons
    show wp _ (if error.code = .ConnectionClosed then _ else _) _ _
    split_ifs
    · exact exchanged_of_not_smooth hs
    · exact exchanged_of_not_smooth hs

end

/-! ## The cleanup -/

/-- What the scope of `main` leaves to the cleanup. -/
def Scoped (r : Except Abort (Int × Server × Option Transport)) (h : SysHistory) : Prop :=
  (∃ x, r = .ok x) ∧ (Smooth h → ∃ frame c server, packetFraming.IsFrame frame ∧ 0 ≤ c ∧
    At c frame (replyBytes frame) h ∧ r = .ok (exitStatus frame, server, some ⟨⟨⟨c⟩, true⟩⟩))

/-- What `main` leaves behind. -/
def Finished (r : Except Abort Int) (h : SysHistory) : Prop :=
  ((∃ exitCode, r = .ok exitCode) ∧ Tidy (uses h)) ∧
    (Smooth h → Answered h ∧ HungUp h ∧ r = .ok (exitStatus (input h)))

section

variable {host : Platform} {h : SysHistory}

theorem scoped_of_not_smooth {x : Int × Server × Option Transport} (hs : ¬ Smooth h) :
    Scoped (.ok x) h := ⟨⟨x, rfl⟩, fun hsmooth => absurd hsmooth hs⟩

/-- When something has gone wrong, any descriptor may be closed. -/
theorem wp_closing_not_smooth {α : Type} {p : SysM α}
    (hp : wp (closing Kernel) p (fun _ _ => True) h) (hs : ¬ Smooth h) :
    wp answering p (fun _ h' => ¬ Smooth h') h := by
  refine wp_mono (wp_invariant (D := answering) (fun h' => ¬ Smooth h') hs hp ?_ ?_)
    fun _ _ hQ => hQ.2
  · rintro h' op hs' ⟨fd, rfl⟩
    exact fun hsmooth => absurd hsmooth hs'
  · exact fun h' op r hs' _ hr => ⟨hr, fun hsmooth => hs' hsmooth.of_cons⟩

/-- When the response is complete as well. -/
theorem wp_closing_answered {α : Type} {p : SysM α} {c : Int} {frame : List UInt8}
    (hp : wp (closing Kernel) p (fun _ _ => True) h) (hframe : packetFraming.IsFrame frame)
    (ha : At c frame (replyBytes frame) h) (hclosed : ¬ IsOpen h c) :
    wp answering p (fun _ h' => At c frame (replyBytes frame) h' ∧ ¬ IsOpen h' c) h := by
  refine wp_mono (wp_invariant (D := answering)
    (fun h' => At c frame (replyBytes frame) h' ∧ ¬ IsOpen h' c) ⟨ha, hclosed⟩ hp ?_ ?_)
    fun _ _ hQ => hQ.2
  · rintro h' op ⟨ha', -⟩ ⟨fd, rfl⟩
    exact fun _ => ⟨by rwa [ha'.input], by rw [ha'.input, ha'.output]⟩
  · rintro h' op r ⟨ha', hclosed'⟩ ⟨fd, rfl⟩ hr
    refine ⟨hr, ha'.cons rfl rfl rfl, ?_⟩
    rintro (hobtained | ⟨-, hopen⟩)
    · cases hobtained
    · exact hclosed' hopen

theorem scope_answering (halloc : host.Allocates PacketIo.maxFrame) :
    wp answering (ServerMain.scope host) Scoped [] := by
  unfold ServerMain.scope
  refine wp_seq (start_answering _ _) ?_
  rintro ⟨error, server⟩ h₁ ⟨hi₁, hstarted, hfailed⟩
  show wp _ (if !error.ok then _ else _) _ _
  cases hok : error.ok with
  | false => exact scoped_of_not_smooth (hfailed hok)
  | true =>
  obtain ⟨hlistens, l, port, hl, hserver⟩ := hstarted hok
  obtain rfl : server = ⟨⟨l⟩, true, port⟩ := hserver
  refine wp_check trivial (scoped_of_not_smooth (not_smooth_cons rfl)) ?_
  refine wp_seq (accept_answering hl port (hi₁.cons rfl fun _ => ⟨rfl, rfl⟩)
    (hlistens.cons rfl)) ?_
  rintro ⟨acceptError, connection⟩ h₂ ⟨haccepted, hfailed₂⟩
  cases hok₂ : acceptError.ok with
  | false =>
      obtain ⟨hconnection, hs₂⟩ := hfailed₂ hok₂
      obtain rfl : connection = Connection.new := hconnection
      refine wp_check trivial (scoped_of_not_smooth (not_smooth_cons rfl)) ?_
      rw [hok₂]
      exact scoped_of_not_smooth fun hs => hs₂ hs.of_cons
  | true =>
      obtain ⟨c, hc, hconnection, ha⟩ := haccepted hok₂
      obtain rfl : connection = ⟨⟨c⟩, true⟩ := hconnection
      refine wp_check trivial ?_ ?_
      · -- the local connection still owns the descriptor
        rw [destruct_of_nonneg hc]
        refine ⟨fun hs => absurd hs (not_smooth_cons rfl), fun _ _ => ?_⟩
        exact scoped_of_not_smooth fun hs => not_smooth_cons rfl hs.of_cons
      rw [hok₂]
      have hopen : (⟨c⟩ : Socket).isOpen = true := decide_eq_true (by show c ≠ -1; omega)
      show wp _ ((ServerMain.exchange host ⟨⟨⟨c⟩, true⟩⟩).bind _) _ _
      refine wp_seq (exchange_answering halloc rfl hopen ha.checked) ?_
      rintro r h₃ ⟨⟨⟨exitCode, t⟩, rfl⟩, hexchanged⟩
      refine ⟨⟨_, rfl⟩, fun hs => ?_⟩
      obtain ⟨frame, hframe, ha₃, heq⟩ := hexchanged hs
      obtain ⟨rfl, rfl⟩ := Prod.mk.inj (Except.ok.inj heq)
      exact ⟨frame, c, _, hframe, hc, ha₃, rfl⟩

theorem serverMain_tidy (halloc : host.Allocates PacketIo.maxFrame) :
    wp (.ofEnv Kernel) (serverMain host)
      (fun r h => (∃ exitCode, r = .ok exitCode) ∧ Tidy (uses h)) [] := by
  rw [serverMain_eq]
  refine wp_seq (wp_weaken (untilReturn_ends host) (fun _ _ _ => trivial) fun _ _ _ hr => hr) ?_
  rintro (abort | ⟨exitCode, server⟩) h hreturns
  · exact absurd halloc hreturns
  · rw [leave_ends hreturns]
    exact ⟨⟨exitCode, rfl⟩, hreturns.tidy⟩

/-- **The part of the server**, whatever the system calls return: every call of every run is one
that `answering` permits, and at the end the descriptors are closed in order and, if nothing has
gone wrong, the first frame is answered, the connection is closed, and the exit code is that of
the frame. -/
theorem serverMain_answering (halloc : host.Allocates PacketIo.maxFrame) :
    wp answering (serverMain host) Finished [] := by
  have hanswers : wp answering (serverMain host)
      (fun r h => Smooth h → Answered h ∧ HungUp h ∧ r = .ok (exitStatus (input h))) [] := by
    unfold serverMain
    refine wp_seq (scope_answering halloc) ?_
    rintro r h ⟨⟨⟨exitCode, server, transport⟩, rfl⟩, hscoped⟩
    show wp _ ((ServerMain.cleanup server transport).bind _) _ _
    by_cases hs : Smooth h
    · obtain ⟨frame, c, server', hframe, hc, ha, heq⟩ := hscoped hs
      cases heq
      -- the descriptor of the client is the first one that is closed
      show wp _ (((⟨⟨c⟩, true⟩ : Connection).disconnect.bind _).bind _) _ _
      rw [disconnect_of_nonneg hc]
      have hanswered : Answered h := ⟨by rwa [ha.input], by rw [ha.input, ha.output]⟩
      refine ⟨fun _ => hanswered, fun _ _ => ?_⟩
      refine wp_seq (wp_closing_answered (cleanup_none_closes server) hframe
        (ha.cons rfl rfl rfl) ?_) ?_
      · rintro (hobtained | ⟨hreleased, -⟩)
        · cases hobtained
        · exact hreleased rfl
      · rintro _ h' ⟨ha', hclosed⟩ -
        refine ⟨⟨by rwa [ha'.input], by rw [ha'.input, ha'.output]⟩, ?_, ?_⟩
        · exact ⟨c, ha'.endpoint, hclosed⟩
        · rw [ha'.input]
    · refine wp_seq (wp_closing_not_smooth (cleanup_closes server transport) hs) ?_
      exact fun _ h' hs' hsmooth => absurd hsmooth hs'
  refine wp_mono (wp_and hanswers (serverMain_tidy halloc) fun _ _ _ hr => hr) ?_
  exact fun r h hboth => ⟨hboth.2, hboth.1⟩

end

/-! ## What the server says

From the contract to the bytes.
-/

/-- Connecting leaves the bytes as they are. -/
theorem output_linked {h : SysHistory} {e : SysEvent} {fd : Int} (hsilent : Silent h)
    (he : linked e = some fd) (hsent : sent fd e = []) : output (e :: h) = [] := by
  rw [output_of_endpoint (endpoint_cons_some he), written_cons, (hsilent fd).1, hsent]
  rfl

theorem input_linked {h : SysHistory} {e : SysEvent} {fd : Int} (hsilent : Silent h)
    (he : linked e = some fd) (htaken : taken fd e = []) : input (e :: h) = [] := by
  rw [input_of_endpoint (endpoint_cons_some he), consumed_cons, (hsilent fd).2, htaken]
  rfl

/-- What can be said of the bytes of the server at any moment: what it has read does not go beyond
one frame, and what it has written is a first part of the response to that frame, on the same
connection. -/
structure Speaks (h : SysHistory) : Prop where
  answered : output h ≠ [] → packetFraming.IsFrame (input h) ∧ output h <+: replyBytes (input h)
  within : packetFraming.Complete (input h) → packetFraming.IsFrame (input h)
  only : ∀ fd, endpoint h ≠ some fd → written fd h = [] ∧ consumed fd h = []

section

variable {h : SysHistory}

theorem Speaks.output_prefix (hs : Speaks h) : output h <+: replyBytes (input h) := by
  by_cases hnil : output h = []
  · rw [hnil]
    exact List.nil_prefix
  · exact (hs.answered hnil).2

theorem speaks_nil : Speaks [] :=
  ⟨fun hne => absurd rfl hne, fun hc => absurd hc not_complete_nil, fun _ _ => ⟨rfl, rfl⟩⟩

/-- A call that does not concern the connection. -/
theorem Speaks.cons {e : SysEvent} (hs : Speaks h) (hlinked : linked e = none)
    (he : ∀ fd, sent fd e = [] ∧ taken fd e = []) : Speaks (e :: h) where
  answered := by
    rw [output_cons_of_sent hlinked fun fd => (he fd).1,
      input_cons_of_taken hlinked fun fd => (he fd).2]
    exact hs.answered
  within := by
    rw [input_cons_of_taken hlinked fun fd => (he fd).2]
    exact hs.within
  only fd hfd := by
    rw [endpoint_cons_none hlinked] at hfd
    rw [written_cons, consumed_cons, (he fd).1, (he fd).2, List.append_nil, List.append_nil]
    exact hs.only fd hfd

/-- What one call of the server preserves. -/
theorem Speaks.step {op : Sys} {r : op.Res} (hs : Speaks h) (hmay : answering.may h op)
    (hr : Kernel h op r) : Speaks (⟨op, r⟩ :: h) := by
  cases op with
  | connect fd address port => exact absurd hmay id
  | accept l =>
      obtain ⟨-, hsilent, -⟩ := hmay
      cases hlinked : linked ⟨.accept l, r⟩ with
      | none => exact hs.cons hlinked fun _ => ⟨rfl, rfl⟩
      | some c =>
          refine ⟨fun hne => ?_, fun hc => ?_, fun fd _ => ?_⟩
          · exact absurd (output_linked hsilent hlinked rfl) hne
          · rw [input_linked hsilent hlinked rfl] at hc
            exact absurd hc not_complete_nil
          · exact (hsilent.cons (e := ⟨.accept l, r⟩) fun _ => ⟨rfl, rfl⟩) fd
  | send fd data flags =>
      obtain ⟨hend, -, hframe, hreply⟩ := hmay
      have houtput : output (⟨.send fd data flags, r⟩ :: h) = output h ++ data.take r.toNat := by
        rw [output_cons rfl, hend, Option.elim_some, sent, if_pos rfl]
      have hinput : input (⟨.send fd data flags, r⟩ :: h) = input h :=
        input_cons_of_taken rfl fun _ => rfl
      refine ⟨fun _ => ?_, ?_, fun fd' hfd' => ?_⟩
      · rw [houtput, hinput, ← hreply]
        exact ⟨hframe, (List.prefix_append_right_inj _).mpr (List.take_prefix _ _)⟩
      · rw [hinput]
        exact hs.within
      · have hne : fd ≠ fd' := fun heq => hfd' (heq ▸ hend)
        obtain ⟨hwritten, hconsumed⟩ := hs.only fd' hfd'
        refine ⟨?_, (List.append_nil _).trans hconsumed⟩
        rw [written_cons, hwritten, sent, if_neg hne]
        rfl
  | recv fd n flags =>
      obtain ⟨hend, -, hincomplete, hwithin⟩ := hmay
      -- a server that reads has written nothing
      have hnil : output h = [] := by
        by_contra hne
        exact hincomplete (hs.answered hne).1.complete
      have hinput : input (⟨.recv fd n flags, r⟩ :: h) = input h ++ r.getD [] := by
        rw [input_cons rfl, hend, Option.elim_some, taken, if_pos rfl]
      refine ⟨fun hne => absurd ?_ hne, ?_, fun fd' hfd' => ?_⟩
      · exact (output_cons_of_sent rfl fun _ => rfl).trans hnil
      · rw [hinput]
        refine hwithin _ ?_
        rcases r with _ | bytes
        · exact Nat.zero_le n
        · exact hr bytes rfl
      · have hne : fd ≠ fd' := fun heq => hfd' (heq ▸ hend)
        obtain ⟨hwritten, hconsumed⟩ := hs.only fd' hfd'
        refine ⟨(List.append_nil _).trans hwritten, ?_⟩
        rw [consumed_cons, hconsumed, taken, if_neg hne]
        rfl
  | _ => exact hs.cons rfl fun _ => ⟨rfl, rfl⟩

end

/-- **The server says nothing but the answer.** Whatever the system calls return (any bytes, faults
at any point, a shutdown at any check), at every moment of the run: the server has not read beyond
the first frame of its client; the bytes that it has written are a first part of the response to
that frame, and none as long as the frame is not complete; and nothing was read or written anywhere
but on the accepted connection. -/
theorem serverMain_only_answers (host : Platform) (halloc : host.Allocates PacketIo.maxFrame)
    (results : SysHistory → (op : Sys) → op.Res)
    (hresults : ∀ h op, Kernel h op (results h op)) :
    ∀ h, h <:+ ((serverMain host).run results []).2 →
      output h <+: replyBytes (input h) ∧
      (¬ packetFraming.IsFrame (input h) → output h = []) ∧
      (packetFraming.Complete (input h) → packetFraming.IsFrame (input h)) ∧
      ∀ fd, endpoint h ≠ some fd → written fd h = [] ∧ consumed fd h = [] := by
  intro h hsuffix
  have hspeaks : Speaks h := always_of_runs (C := answering) Speaks speaks_nil
    (serverMain_answering halloc)
    (fun _ _ _ hs hmay hr => hs.step hmay hr)
    (Prog.run_runs hresults (serverMain host) []) h hsuffix (Nat.zero_le _)
  refine ⟨hspeaks.output_prefix, fun hframe => ?_, hspeaks.within, hspeaks.only⟩
  by_contra hne
  exact hframe (hspeaks.answered hne).1

/-- Two requests arrive at once, three bytes at a time: the second one is not read. -/
theorem serverMain_only_answers_pipelined : ∃ h, ((serverMain (.ample .Little 64)).run
      (piecewise (wireFormat { Packet.new with opcode := 1, sequenceId := 7 } ++
        wireFormat { Packet.new with opcode := 1, sequenceId := 8 }) 3 fun _ => false) []).2 = h ∧
    packetFraming.IsFrame (input h) ∧ output h <+: replyBytes (input h) := by
  have honly := serverMain_only_answers (.ample .Little 64)
    (Platform.ample_allocates (by decide +kernel)) _
    (piecewise_kernel (wireFormat { Packet.new with opcode := 1, sequenceId := 7 } ++
      wireFormat { Packet.new with opcode := 1, sequenceId := 8 }) 3 fun _ => false) _
    List.suffix_rfl
  have hcomplete : packetFraming.Complete (input ((serverMain (.ample .Little 64)).run
      (piecewise (wireFormat { Packet.new with opcode := 1, sequenceId := 7 } ++
        wireFormat { Packet.new with opcode := 1, sequenceId := 8 }) 3 fun _ => false) []).2) := by
    decide +kernel
  exact ⟨_, rfl, honly.2.2.1 hcomplete, honly.1⟩

end PacketForge
