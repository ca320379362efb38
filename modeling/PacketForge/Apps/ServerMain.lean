import PacketForge.Protocol.OpcodeDispatcher
import PacketForge.Protocol.Stream
import PacketForge.Server.Server

set_option autoImplicit false

/-! # The server program (`apps/server_main.cpp`)

`serverMain` is `main`: start, accept one client, answer one packet, clean up. The text it prints
is left out. The body of the `do … while (false)` is split at the point from which the transport
exists; its `break` statements are the results of the two functions.

`serverMain_answers` says what the program writes, for every stream of bytes that the client
sends.

## How the proof goes

The answer is first defined without the program: `reply stream` is made from the first frame of
the stream, by the dispatcher or as a protocol error, and `replyBytes` are its bytes. Then the
program is gone through once, in the surroundings where the server gets its client (`Serves`):

* up to the accept nothing is sent or received (`Silent`), and the server has a listening socket;
* the exchange reads the first frame, or all of the stream if there is none, and writes the answer
  (`Wrote`);
* the cleanup only closes, so that it does not matter how it gets along (`Wrote.closing`).

Each part is one lemma about one function of the code, and `serverMain_wp` puts them together.
That the client accepts the answer is a fact about the codec (`receive_reply`).
-/

namespace PacketForge

open Interaction Common Network Protocol

/-! ## The code

The signal handler sets a flag that the program looks at in some places. Each look is a call to
the surroundings, so that a shutdown may be requested at any moment.
-/

def SERVER_ADDRESS : String := "127.0.0.1"

def SERVER_PORT : UInt16 := 9090

namespace ServerMain

/-- The response to a rejected packet. -/
def protocolErrorResponse (protocolError : ProtocolError) : Packet :=
  let response := Packet.new
  let response := response.setOpcode Opcode.ErrorResponse.value
  let response := response.setSequenceId 0
  response.setPayload [protocolError.value.toUInt8]

/-- From the receiving of the request to the end of the scope: the exit code and the state of
the transport. -/
def exchange (host : Platform) (transport : Transport) : SysM (Except Abort (Int × Transport)) := do
  let r ← PacketIo.receive host transport Packet.new (some .InvalidPacket)
  match r with
  | .error e => pure (.error e)
  | .ok ⟨receiveError, request, protocolError, transport⟩ =>
    let shutdown ← Posix.shutdownRequested
    if shutdown then pure (.ok (0, transport))
    else if !receiveError.ok then
      if receiveError.code = .ConnectionClosed then pure (.ok (0, transport))
      else if receiveError.code = .ProtocolError then do
        let response := protocolErrorResponse (protocolError.getD .InvalidPacket)
        let sendError ← PacketIo.send host transport response
        if !sendError.ok then pure (.ok (1, transport))
        else do
          let shutdown ← Posix.shutdownRequested
          if shutdown then pure (.ok (0, transport))
          else pure (.ok (1, transport))
      else pure (.ok (1, transport))
    else do
      let (dispatchError, response) := OpcodeDispatcher.dispatch request
      let shutdown ← Posix.shutdownRequested
      if shutdown then pure (.ok (0, transport))
      else if !dispatchError.ok then pure (.ok (1, transport))
      else do
        let sendError ← PacketIo.send host transport response
        if !sendError.ok then pure (.ok (1, transport))
        else do
          let shutdown ← Posix.shutdownRequested
          if shutdown then pure (.ok (0, transport))
          else do
            Posix.cinGet
            pure (.ok (0, transport))

/-- The execution scope: the exit code, the server and the transport if there is one. The
local `connection` is destroyed at its end. -/
def scope (host : Platform) : SysM (Except Abort (Int × Server × Option Transport)) := do
  let (startError, server) ← Server.new.start SERVER_ADDRESS SERVER_PORT
  if !startError.ok then pure (.ok (1, server, none))
  else do
    let connection := Connection.new
    let shutdown ← Posix.shutdownRequested
    if shutdown then do
      connection.destruct
      pure (.ok (0, server, none))
    else do
      let (acceptError, connection) ← server.accept connection
      let shutdown ← Posix.shutdownRequested
      if shutdown then do
        connection.destruct
        pure (.ok (0, server, none))
      else if !acceptError.ok then do
        connection.destruct
        pure (.ok (1, server, none))
      else do
        let (transport, connection) ← Transport.ofConnection connection
        let r ← exchange host transport
        match r with
        | .error e => pure (.error e)
        | .ok (exitCode, transport) => do
          connection.destruct
          pure (.ok (exitCode, server, some transport))

/-- The centralized cleanup, and the destructor of the server at the end of `main`, which finds a
server that is stopped already. -/
def cleanup (server : Server) (transport : Option Transport) : SysM Unit := do
  match transport with
  | none => pure ()
  | some transport => do
    let connection ← transport.connection.disconnect
    Transport.destruct ⟨connection⟩
  let server ← if server.isRunning then server.stop else pure server
  server.destruct

end ServerMain

/-- `main`: the exit code, or the exception that ends the program. -/
def serverMain (host : Platform) : SysM (Except Abort Int) := do
  let r ← ServerMain.scope host
  match r with
  | .error e => pure (.error e)
  | .ok (exitCode, server, transport) => do
    ServerMain.cleanup server transport
    pure (.ok exitCode)

/-! ## The surroundings -/

/-- The surroundings in which the server starts, accepts a client that sends `stream` and then
closes, is not asked to shut down, and every `::send` moves at least one byte. -/
def Serves (stream : List UInt8) : Env Sys Sys.Res := fun h op r =>
  (∀ fd, Delivers fd stream h op r) ∧
    match op, r with
    | .socket, r => 0 ≤ r.value
    | .setsockopt _, r => 0 ≤ r.value
    | .inet_pton _, r => r = 1
    | .bind _ _ _, r => 0 ≤ r.value
    | .listen _ _, r => 0 ≤ r.value
    | .accept _, r => 0 ≤ r.value
    | .getsockname _, r => 0 ≤ r.1.value
    | .send _ data _, r => data ≠ [] → 0 < r
    | .shutdownRequested, r => r = false
    | _, _ => True

/-- `fd` was returned by `::accept`. -/
def Accepted (h : SysHistory) (fd : Int) : Prop :=
  ∃ (listening : Int) (r : Ret), (⟨.accept listening, r⟩ : SysEvent) ∈ h ∧ r.value = fd

/-! ## The answer

For a stream whose first frame is not complete there is none.
-/

/-- The response to a client that sent `stream`, defined on the bytes alone: to the first frame,
if it is complete. A frame with a wrong magic number or version gets a protocol error, any other
one is dispatched by its opcode. -/
def reply (stream : List UInt8) : Option Packet :=
  if stream.length < HEADER_SIZE ∨ stream.length < HEADER_SIZE + fieldAt stream 12 4 then none
  else if fieldAt stream 0 4 ≠ MagicNumber.toNat then
    some { Packet.new with
      opcode := Opcode.ErrorResponse.value, payload := [ProtocolError.InvalidPacket.value.toUInt8] }
  else if stream.getD 4 0 ≠ VERSION then
    some { Packet.new with
      opcode := Opcode.ErrorResponse.value
      payload := [ProtocolError.UnsupportedVersion.value.toUInt8] }
  else if fieldAt stream 6 2 = Opcode.HelloRequest.value.toNat then
    some { Packet.new with
      opcode := Opcode.HelloResponse.value
      sequenceId := UInt32.ofNat (fieldAt stream 8 4)
      payload := OpcodeDispatcher.helloPayload }
  else
    some { Packet.new with
      opcode := Opcode.ErrorResponse.value
      sequenceId := UInt32.ofNat (fieldAt stream 8 4)
      payload := [ProtocolError.UnsupportedOpcode.value.toUInt8] }

/-- The bytes of the response. -/
def replyBytes (stream : List UInt8) : List UInt8 := (reply stream).elim [] wireFormat

theorem complete_iff (stream : List UInt8) : packetFraming.Complete stream ↔
    ¬ (stream.length < HEADER_SIZE ∨ stream.length < HEADER_SIZE + fieldAt stream 12 4) := by
  by_cases hheader : stream.length < HEADER_SIZE
  · exact iff_of_false (fun h => absurd h.header_le (not_le.mpr hheader))
      (not_not.mpr (.inl hheader))
  · have hbody : fieldAt (stream.take HEADER_SIZE) 12 4 = fieldAt stream 12 4 :=
      (fieldAt_of_isPrefix (List.take_prefix _ _) (by
        rw [List.length_take, min_eq_left (not_lt.mp hheader)]
        decide)).symm
    show HEADER_SIZE + fieldAt (stream.take HEADER_SIZE) 12 4 ≤ stream.length ↔ _
    rw [hbody]
    omega

/-- The response is made from the first frame. -/
theorem reply_of_complete {stream : List UInt8} (hc : packetFraming.Complete stream) :
    reply stream = match frameDefect (stream.take (packetFraming.size stream)) with
      | some e => some (ServerMain.protocolErrorResponse e)
      | none => some (OpcodeDispatcher.dispatch
          (packetAt (stream.take (packetFraming.size stream)))).2 := by
  have hnot := (complete_iff stream).mp hc
  have hlen : (stream.take (packetFraming.size stream)).length = packetFraming.size stream :=
    List.length_take_of_le hc
  have hheader : 16 ≤ (stream.take (packetFraming.size stream)).length := by
    rw [hlen]
    exact Nat.le_add_right _ _
  have hfield : ∀ offset n, offset + n ≤ 16 → fieldAt stream offset n
      = fieldAt (stream.take (packetFraming.size stream)) offset n := fun offset n hle =>
    fieldAt_of_isPrefix (List.take_prefix _ _) (hle.trans hheader)
  have hversion : stream.getD 4 0 = (stream.take (packetFraming.size stream)).getD 4 0 := by
    rw [List.getD_eq_getElem?_getD, List.getD_eq_getElem?_getD, List.getElem?_take_of_lt (by omega)]
  rw [reply, if_neg hnot, hfield 0 4 (by decide), hfield 6 2 (by decide), hfield 8 4 (by decide),
    hversion, frameDefect]
  generalize stream.take (packetFraming.size stream) = frame
  by_cases hmagic : fieldAt frame 0 4 ≠ MagicNumber.toNat
  · rw [if_pos hmagic, if_pos hmagic]
    rfl
  by_cases hver : frame.getD 4 0 ≠ VERSION
  · rw [if_neg hmagic, if_neg hmagic, if_pos hver, if_pos hver]
    rfl
  have hop : (packetAt frame).opcode = Opcode.HelloRequest.value ↔
      fieldAt frame 6 2 = Opcode.HelloRequest.value.toNat :=
    uint16_ofNat_fieldAt_eq frame 6 Opcode.HelloRequest.value
  rw [if_neg hmagic, if_neg hmagic, if_neg hver, if_neg hver]
  show _ = some (OpcodeDispatcher.dispatch (packetAt frame)).2
  rw [OpcodeDispatcher.dispatch, if_neg (show ¬ (packetAt frame).version ≠ VERSION from hver)]
  by_cases hhello : fieldAt frame 6 2 = Opcode.HelloRequest.value.toNat
  · rw [if_pos hhello, if_pos (hop.mpr hhello)]
    rfl
  · rw [if_neg hhello, if_neg (fun h => hhello (hop.mp h))]
    rfl

/-! ## Parts of the program, under any contract

What `ServerMain`, `Answering` and `Cleanup` need of the same code, with the contract as a
parameter.
-/

section

variable {E : Env Sys Sys.Res} {h : SysHistory}

/-- A check of the flag, under a contract that permits checks and answers them in any way. -/
theorem wp_check {C : Contract Sys Sys.Res} {α : Type} {stop go : SysM α}
    {Q : α → SysHistory → Prop} (hmay : C.may h .shutdownRequested)
    (hstop : wp C stop Q (⟨.shutdownRequested, true⟩ :: h))
    (hgo : wp C go Q (⟨.shutdownRequested, false⟩ :: h)) :
    wp C (Posix.shutdownRequested >>= fun shutdown => if shutdown then stop else go) Q h := by
  refine ⟨hmay, fun shutdown _ => ?_⟩
  cases shutdown with
  | true => exact hstop
  | false => exact hgo

/-- A server closes its sockets and nothing else. -/
theorem stop_closes (server : Server) :
    wp (closing E) server.stop (fun _ _ => True) h := by
  unfold Server.stop
  split_ifs
  · exact wp_seq (Socket.close_closes _) fun _ _ _ => trivial
  · trivial

theorem server_destruct_closes (server : Server) :
    wp (closing E) server.destruct (fun _ _ => True) h :=
  wp_seq (stop_closes server) fun _ _ _ => Socket.destruct_closes _

theorem cleanup_none_closes (server : Server) :
    wp (closing E) (ServerMain.cleanup server none) (fun _ _ => True) h := by
  unfold ServerMain.cleanup
  cases hrunning : server.isRunning with
  | false =>
      simp only [Bool.false_eq_true, if_false]
      exact server_destruct_closes server
  | true =>
      simp only [if_true]
      exact wp_seq (stop_closes server) fun _ _ _ => server_destruct_closes _

theorem cleanup_closes (server : Server)
    (transport : Option Transport) :
    wp (closing E) (ServerMain.cleanup server transport) (fun _ _ => True) h := by
  cases transport with
  | none => exact cleanup_none_closes server
  | some transport =>
      exact wp_seq transport.connection.disconnect_closes fun _ _ _ =>
        wp_seq (Connection.destruct_closes _) fun _ _ _ => cleanup_none_closes server

end

/-! ## The run -/

/-- Nothing was sent or received, on any descriptor. This is how it is until the server has its
client. -/
def Silent (h : SysHistory) : Prop := ∀ fd, written fd h = [] ∧ consumed fd h = []

theorem Silent.cons {e : SysEvent} {h : SysHistory} (hs : Silent h)
    (he : ∀ fd, sent fd e = [] ∧ taken fd e = []) : Silent (e :: h) := fun fd => by
  rw [written_cons, consumed_cons, (hs fd).1, (hs fd).2, (he fd).1, (he fd).2]
  exact ⟨rfl, rfl⟩

section

variable {stream : List UInt8} {h : SysHistory}

theorem create_serves (hs : Silent h) :
    wp (.ofEnv (Serves stream)) Socket.new.create
      (fun r h' => r.1 = .success ∧ r.2.isOpen = true ∧ Silent h') h := by
  refine ⟨trivial, fun r hr => ?_⟩
  have hvalue : 0 ≤ r.value := hr.2
  have hne : r.value ≠ -1 := by omega
  show wp _ (if r.value = -1 then _ else _) _ _
  rw [if_neg hne]
  exact ⟨rfl, decide_eq_true hne, hs.cons fun _ => ⟨rfl, rfl⟩⟩

theorem bind_serves (hs : Silent h) {socket : Socket} (hopen : socket.isOpen = true)
    (address : String) (port : UInt16) :
    wp (.ofEnv (Serves stream)) (socket.bind address port)
      (fun r h' => r = (.success, socket) ∧ Silent h') h := by
  rw [Socket.bind, hopen]
  refine ⟨trivial, fun reuse hreuse => ?_⟩
  have hreuse : 0 ≤ reuse.value := hreuse.2
  show wp _ (if reuse.value < 0 then _ else _) _ _
  rw [if_neg (not_lt.mpr hreuse)]
  refine ⟨trivial, fun parsed hparsed => ?_⟩
  have hparsed : parsed = 1 := hparsed.2
  show wp _ (if parsed ≠ 1 then _ else _) _ _
  rw [if_neg (not_not.mpr hparsed)]
  refine ⟨trivial, fun r hr => ?_⟩
  have hr : 0 ≤ r.value := hr.2
  show wp _ (if r.value < 0 then _ else _) _ _
  rw [if_neg (not_lt.mpr hr)]
  exact ⟨rfl, ((hs.cons fun _ => ⟨rfl, rfl⟩).cons fun _ => ⟨rfl, rfl⟩).cons fun _ => ⟨rfl, rfl⟩⟩

theorem listen_serves (hs : Silent h) {socket : Socket} (hopen : socket.isOpen = true) :
    wp (.ofEnv (Serves stream)) (socket.listen SOMAXCONN)
      (fun r h' => r = .success ∧ Silent h') h := by
  rw [Socket.listen, hopen]
  refine ⟨trivial, fun r hr => ?_⟩
  have hr : 0 ≤ r.value := hr.2
  show wp _ (if r.value < 0 then _ else _) _ _
  rw [if_neg (not_lt.mpr hr)]
  exact ⟨rfl, hs.cons fun _ => ⟨rfl, rfl⟩⟩

theorem start_serves (hs : Silent h) (address : String) (port : UInt16) :
    wp (.ofEnv (Serves stream)) (Server.new.start address port)
      (fun r h' => r.1 = .success ∧ r.2.running = true ∧ r.2.socket.isOpen = true ∧ Silent h')
      h := by
  refine wp_seq (create_serves hs) ?_
  rintro ⟨_, socket⟩ h₁ ⟨rfl, hopen, hs₁⟩
  refine wp_seq (bind_serves hs₁ hopen address port) ?_
  rintro _ h₂ ⟨rfl, hs₂⟩
  refine wp_seq (listen_serves hs₂ hopen) ?_
  rintro _ h₃ ⟨rfl, hs₃⟩
  refine ⟨trivial, fun r hr => ?_⟩
  have hr : 0 ≤ r.1.value := hr.2
  show wp _ (if r.1.value < 0 then _ else _) _ _
  rw [if_neg (not_lt.mpr hr)]
  exact ⟨rfl, rfl, hopen, hs₃.cons fun _ => ⟨rfl, rfl⟩⟩

theorem accept_serves (hs : Silent h) {server : Server} (hrunning : server.running = true)
    (hopen : server.socket.isOpen = true) :
    wp (.ofEnv (Serves stream)) (server.accept Connection.new)
      (fun r h' => r.1 = .success ∧ r.2.connected = true ∧ r.2.socket.isOpen = true ∧
        Accepted h' r.2.socket.socket ∧ Silent h') h := by
  rw [Server.accept, hrunning, Connection.accept, Socket.accept, hopen]
  refine ⟨trivial, fun r hr => ?_⟩
  have hr : 0 ≤ r.value := hr.2
  have hne : r.value ≠ -1 := by omega
  show wp _ ((if r.value < 0 then _ else _ : SysM (Error × Socket)).bind _) _ _
  rw [if_neg (not_lt.mpr hr)]
  exact ⟨rfl, rfl, decide_eq_true hne, ⟨_, r, List.mem_cons_self, rfl⟩,
    hs.cons fun _ => ⟨rfl, rfl⟩⟩

/-- What the program has written: `bytes` on `fd`, and nothing on any other descriptor. -/
def Wrote (fd : Int) (bytes : List UInt8) (h : SysHistory) : Prop :=
  ∀ fd', written fd' h = if fd' = fd then bytes else []

theorem Silent.wrote (hs : Silent h) (fd : Int) : Wrote fd [] h := fun fd' => by
  rw [(hs fd').1, ite_self]

theorem Wrote.cons {fd : Int} {bytes : List UInt8} {e : SysEvent} (hw : Wrote fd bytes h)
    (he : ∀ fd', sent fd' e = []) : Wrote fd bytes (e :: h) := fun fd' => by
  rw [written_cons, he fd', List.append_nil, hw fd']

theorem send_serves {host : Platform} (halloc : host.Allocates PacketIo.maxFrame)
    {transport : Transport} {packet : Packet} (hvalid : packet.isValid = true)
    (hconn : transport.isConnected = true) (hw : Wrote transport.fd [] h) :
    wp (.ofEnv (Serves stream)) (PacketIo.send host transport packet)
      (fun r h' => r = .success ∧ Wrote transport.fd (wireFormat packet) h') h := by
  have hwp := wp_invariant (D := .ofEnv (Serves stream))
    (fun h' => ∀ fd', fd' ≠ transport.fd → written fd' h' = [])
    (fun fd' hne => by rw [hw fd', if_neg hne])
    (PacketIo.send_wp (Serves stream) halloc transport hvalid h hconn)
    (fun _ _ _ _ => trivial) (fun _ _ _ hp hmay hr => ⟨hr, fun fd' hne =>
      (sending_written_ne hmay hne).trans (hp fd' hne)⟩)
  refine wp_mono hwp ?_
  rintro r h' ⟨hends, hother⟩
  cases hends with
  | sent hall =>
      refine ⟨rfl, fun fd' => ?_⟩
      by_cases hfd : fd' = transport.fd
      · rw [hfd, hall, hw, if_pos rfl, if_pos rfl, List.nil_append]
      · rw [hother fd' hfd, if_neg hfd]
  | failed hne _ hanswer hle => exact absurd (hanswer.2 hne) (not_lt.mpr hle)

/-- The exchange answers the first frame of the stream, or nothing if there is none. -/
theorem exchange_serves {host : Platform} (halloc : host.Allocates PacketIo.maxFrame)
    {transport : Transport} (hconn : transport.isConnected = true)
    (hopen : transport.connection.socket.isOpen = true) (hs : Silent h) :
    wp (.ofEnv (Serves stream)) (ServerMain.exchange host transport)
      (fun r h' => (∃ x, r = .ok x) ∧ Wrote transport.fd (replyBytes stream) h') h := by
  have hreceive := wp_weaken (D := .ofEnv (Serves stream))
    (receive_delivers halloc transport Packet.new (some .InvalidPacket) stream h hconn hopen
      (by rw [(hs _).2, List.nil_append])) (fun _ _ _ => trivial) (fun _ _ _ hr => hr.1 _)
  refine wp_seq hreceive ?_
  rintro r h₁ ⟨hr, hwritten⟩
  have hw : Wrote transport.fd [] h₁ := fun fd' => by rw [hwritten fd', hs.wrote transport.fd fd']
  by_cases hcomplete : packetFraming.Complete stream
  · rw [if_pos hcomplete] at hr
    obtain ⟨rfl, -⟩ := hr
    rw [replyBytes, reply_of_complete hcomplete]
    generalize stream.take (packetFraming.size stream) = frame
    cases hdefect : frameDefect frame with
    | some e =>
        obtain ⟨what, hdecoded⟩ := PacketIo.decoded_of_defect transport Packet.new
          (some .InvalidPacket) hdefect
        rw [hdecoded]
        refine ⟨trivial, fun shutdown hshutdown => ?_⟩
        obtain rfl : shutdown = false := hshutdown.2
        show wp _ ((PacketIo.send host transport (ServerMain.protocolErrorResponse e)).bind _) _ _
        refine wp_seq (send_serves halloc rfl hconn (hw.cons fun _ => rfl)) ?_
        rintro _ h₂ ⟨rfl, hw₂⟩
        refine ⟨trivial, fun shutdown hshutdown => ?_⟩
        obtain rfl : shutdown = false := hshutdown.2
        exact ⟨⟨_, rfl⟩, hw₂.cons fun _ => rfl⟩
    | none =>
        rw [PacketIo.decoded, hdefect]
        refine ⟨trivial, fun shutdown hshutdown => ?_⟩
        obtain rfl : shutdown = false := hshutdown.2
        refine ⟨trivial, fun shutdown hshutdown => ?_⟩
        obtain rfl : shutdown = false := hshutdown.2
        obtain ⟨hok, hvalid⟩ := OpcodeDispatcher.dispatch_isValid (packetAt frame)
        show wp _ (if !(OpcodeDispatcher.dispatch (packetAt frame)).1.ok then _ else
          (PacketIo.send host transport (OpcodeDispatcher.dispatch (packetAt frame)).2).bind _) _ _
        rw [hok]
        refine wp_seq (send_serves halloc hvalid hconn
          ((hw.cons fun _ => rfl).cons fun _ => rfl)) ?_
        rintro _ h₂ ⟨rfl, hw₂⟩
        refine ⟨trivial, fun shutdown hshutdown => ?_⟩
        obtain rfl : shutdown = false := hshutdown.2
        exact ⟨trivial, fun _ _ => ⟨⟨_, rfl⟩, (hw₂.cons fun _ => rfl).cons fun _ => rfl⟩⟩
  · -- the client closed within its first frame
    rw [if_neg hcomplete] at hr
    obtain ⟨rfl, -⟩ := hr
    refine ⟨trivial, fun shutdown hshutdown => ?_⟩
    obtain rfl : shutdown = false := hshutdown.2
    have hreply : replyBytes stream = [] := by
      rw [replyBytes, reply, if_pos (not_not.mp ((complete_iff stream).not.mp hcomplete))]
      rfl
    rw [hreply]
    exact ⟨⟨_, rfl⟩, hw.cons fun _ => rfl⟩

/-- A program that only closes writes nothing. -/
theorem Wrote.closing {E : Env Sys Sys.Res} {α : Type} {p : SysM α} {fd : Int} {bytes : List UInt8}
    (hp : wp (closing E) p (fun _ _ => True) h) (hw : Wrote fd bytes h) :
    wp (.ofEnv E) p (fun _ h' => Wrote fd bytes h') h := by
  refine wp_mono (wp_invariant (D := .ofEnv E) (Wrote fd bytes) hw hp (fun _ _ _ _ => trivial) ?_)
    fun _ _ hQ => hQ.2
  rintro h op r hw ⟨fd', rfl⟩ hr
  exact ⟨hr, hw.cons fun _ => rfl⟩

theorem Accepted.mono {fd : Int} {h' : SysHistory} (ha : Accepted h fd) (hs : h <:+ h') :
    Accepted h' fd := by
  obtain ⟨listening, r, hmem, hr⟩ := ha
  exact ⟨listening, r, hs.subset hmem, hr⟩

/-- The scope of `main` answers on the descriptor it accepted. -/
theorem scope_serves {host : Platform} (halloc : host.Allocates PacketIo.maxFrame)
    (hs : Silent h) :
    wp (.ofEnv (Serves stream)) (ServerMain.scope host)
      (fun r h' => (∃ x, r = .ok x) ∧ ∃ fd, Accepted h' fd ∧ Wrote fd (replyBytes stream) h')
      h := by
  refine wp_seq (start_serves hs SERVER_ADDRESS SERVER_PORT) ?_
  rintro ⟨_, server⟩ h₁ ⟨rfl, hrunning, hlistening, hs₁⟩
  refine ⟨trivial, fun shutdown hshutdown => ?_⟩
  obtain rfl : shutdown = false := hshutdown.2
  show wp _ ((server.accept Connection.new).bind _) _ _
  refine wp_seq (accept_serves (hs₁.cons fun _ => ⟨rfl, rfl⟩) hrunning hlistening) ?_
  rintro ⟨_, connection⟩ h₂ ⟨rfl, hconn, hopen, haccepted, hs₂⟩
  refine ⟨trivial, fun shutdown hshutdown => ?_⟩
  obtain rfl : shutdown = false := hshutdown.2
  simp only [Prog.ret_bind, Bool.false_eq_true, if_false, Error.ok_success, Bool.not_true,
    Transport.ofConnection_eq, Prog.bind_eq]
  -- the transport has the descriptor and the state of the accepted connection
  refine wp_seq (wp_suffix (exchange_serves halloc hconn hopen (hs₂.cons fun _ => ⟨rfl, rfl⟩))) ?_
  rintro _ h₃ ⟨⟨⟨⟨exitCode, transport⟩, rfl⟩, hw⟩, hgrows⟩
  refine wp_seq (wp_suffix (hw.closing (Connection.destruct_closes _))) ?_
  rintro _ h₄ ⟨hw₄, hgrows₄⟩
  exact ⟨⟨_, rfl⟩, _, haccepted.mono ((List.suffix_cons _ _).trans (hgrows.trans hgrows₄)), hw₄⟩

theorem serverMain_wp {host : Platform} (halloc : host.Allocates PacketIo.maxFrame)
    (hs : Silent h) :
    wp (.ofEnv (Serves stream)) (serverMain host)
      (fun r h' => (∃ exitCode, r = .ok exitCode) ∧
        ∃ fd, Accepted h' fd ∧ Wrote fd (replyBytes stream) h') h := by
  refine wp_seq (scope_serves halloc hs) ?_
  rintro _ h₁ ⟨⟨⟨exitCode, server, transport⟩, rfl⟩, fd, haccepted, hw⟩
  refine wp_seq (wp_suffix (hw.closing (cleanup_closes server transport))) ?_
  rintro _ h₂ ⟨hw₂, hgrows⟩
  exact ⟨⟨_, rfl⟩, fd, haccepted.mono hgrows, hw₂⟩

end

/-! ## The result -/

theorem exists_serves (stream : List UInt8) (h : SysHistory) (op : Sys) :
    ∃ r, Serves stream h op r := by
  obtain ⟨fresh, hfresh, hnot⟩ := exists_not_isOpen h
  cases op with
  | socket => exact ⟨⟨fresh, ""⟩, fun _ => ⟨.inr ⟨hfresh, hnot⟩, trivial⟩, hfresh⟩
  | accept => exact ⟨⟨fresh, ""⟩, fun _ => ⟨.inr ⟨hfresh, hnot⟩, trivial⟩, hfresh⟩
  | send fd data flags =>
      refine ⟨(data.length : Int), fun _ => ⟨le_rfl, trivial⟩, fun hne => ?_⟩
      exact Int.natCast_pos.mpr (List.length_pos_of_ne_nil hne)
  | recv fd size flags =>
      obtain ⟨r, hr⟩ := exists_delivers fd stream h (.recv fd size flags)
      refine ⟨r, fun fd' => ?_, trivial⟩
      by_cases hfd : fd = fd'
      · rwa [← hfd]
      · exact ⟨hr.1, fun heq => absurd heq hfd⟩
  | setsockopt => exact ⟨⟨0, ""⟩, fun _ => ⟨trivial, trivial⟩, le_rfl⟩
  | inet_pton => exact ⟨(1 : Int), fun _ => ⟨trivial, trivial⟩, rfl⟩
  | bind => exact ⟨⟨0, ""⟩, fun _ => ⟨trivial, trivial⟩, le_rfl⟩
  | listen => exact ⟨⟨0, ""⟩, fun _ => ⟨trivial, trivial⟩, le_rfl⟩
  | getsockname => exact ⟨(⟨0, ""⟩, 0), fun _ => ⟨trivial, trivial⟩, le_rfl⟩
  | connect => exact ⟨⟨0, ""⟩, fun _ => ⟨trivial, trivial⟩, trivial⟩
  | close => exact ⟨(), fun _ => ⟨trivial, trivial⟩, trivial⟩
  | shutdownRequested => exact ⟨false, fun _ => ⟨trivial, trivial⟩, rfl⟩
  | cinGet => exact ⟨(), fun _ => ⟨trivial, trivial⟩, trivial⟩

/-- The client that reads the response gets it from `PacketIO::receive`. -/
theorem receive_reply {host : Platform} (halloc : host.Allocates PacketIo.maxFrame)
    {transport : Transport} (hconn : transport.isConnected = true)
    (hopen : transport.connection.socket.isOpen = true) (packet : Packet)
    (protocolError : Option ProtocolError) {response : Packet} (hvalid : response.isValid = true)
    (h : SysHistory) :
    wp (.ofEnv (Delivers transport.fd (consumed transport.fd h ++ wireFormat response)))
      (PacketIo.receive host transport packet protocolError)
      (fun r _ => ∃ pe, r = .ok ⟨.success, response, pe, transport⟩) h := by
  have hframe : packetFraming.IsFrame (wireFormat response) :=
    wireFormat_isFrame ((Packet.isValid_iff response).mp hvalid).2
  have htake : (wireFormat response).take (packetFraming.size (wireFormat response))
      = wireFormat response := List.take_of_length_le hframe.ge
  refine wp_mono (receive_delivers halloc transport packet protocolError (wireFormat response) h
    hconn hopen rfl) ?_
  rintro r h' ⟨hr, -⟩
  rw [if_pos hframe.complete, htake, PacketIo.decoded_wireFormat _ _ _ hvalid] at hr
  exact ⟨_, hr.1⟩

theorem reply_isValid {stream : List UInt8} {response : Packet}
    (h : reply stream = some response) : response.isValid = true := by
  rw [reply] at h
  split_ifs at h
  all_goals
    obtain rfl := Option.some.inj h
    rfl

/-- **What the server answers to any client.** For every stream of bytes that a client writes
before it closes: the program ends, and has written nothing if the first frame of the stream
is not complete, and else the encoding of `reply stream`, on the accepted descriptor. The
client's `PacketIO::receive` accepts these bytes and gives `reply stream`. -/
theorem serverMain_answers (host : Platform) (halloc : host.Allocates PacketIo.maxFrame)
    (stream : List UInt8) :
    (∃ r h, Runs (Serves stream) (serverMain host) [] r h) ∧
    ∀ r h, Runs (Serves stream) (serverMain host) [] r h →
      (∃ exitCode, r = .ok exitCode) ∧
      ∃ fd, Accepted h fd ∧ (∀ fd', fd' ≠ fd → written fd' h = []) ∧
        match reply stream with
        | none => written fd h = []
        | some response =>
          Encoder.encode host response = .ok (written fd h) ∧
          ∀ client : Platform, client.Allocates PacketIo.maxFrame → ∀ transport : Transport,
            transport.isConnected = true → transport.connection.socket.isOpen = true →
            ∀ packet protocolError hc r' hc',
              Runs (Delivers transport.fd (consumed transport.fd hc ++ written fd h))
                (PacketIo.receive client transport packet protocolError) hc r' hc' →
              ∃ pe, r' = .ok ⟨.success, response, pe, transport⟩ := by
  refine ⟨exists_runs (exists_serves stream) _ [], fun r h hrun => ?_⟩
  obtain ⟨hexit, fd, haccepted, hw⟩ :=
    Runs.wp (C := .ofEnv _) hrun (serverMain_wp halloc fun _ => ⟨rfl, rfl⟩)
  refine ⟨hexit, fd, haccepted, fun fd' hne => by rw [hw fd', if_neg hne], ?_⟩
  have hwritten : written fd h = replyBytes stream := by rw [hw fd, if_pos rfl]
  rw [hwritten, replyBytes]
  cases hreply : reply stream with
  | none => rfl
  | some response =>
      have hvalid := reply_isValid hreply
      have hlen := ((Packet.isValid_iff response).mp hvalid).2
      refine ⟨encode_of_isValid hvalid (halloc _ (PacketIo.le_maxFrame (by omega))), ?_⟩
      intro client hclient transport hconn hopen packet protocolError hc r' hc' hrun'
      exact Runs.wp (C := .ofEnv _) hrun'
        (receive_reply hclient hconn hopen packet protocolError hvalid hc)

/-- A `HelloRequest` with sequence id 7, sent to a server on a big-endian machine. -/
theorem serverMain_answers_hello : ∃ r h fd,
    Runs (Serves (wireFormat { Packet.new with opcode := 1, sequenceId := 7 }))
      (serverMain (.ample .Big 64)) [] r h ∧
    Encoder.encode (.ample .Big 64) { Packet.new with
      opcode := 2, sequenceId := 7, payload := OpcodeDispatcher.helloPayload }
      = .ok (written fd h) := by
  obtain ⟨⟨r, h, hrun⟩, hall⟩ := serverMain_answers (.ample .Big 64)
    (Platform.ample_allocates (by decide +kernel))
    (wireFormat { Packet.new with opcode := 1, sequenceId := 7 })
  obtain ⟨-, fd, -, -, hresponse⟩ := hall r h hrun
  have hreply : reply (wireFormat { Packet.new with opcode := 1, sequenceId := 7 })
      = some { Packet.new with
          opcode := 2, sequenceId := 7, payload := OpcodeDispatcher.helloPayload } := by
    decide +kernel
  rw [hreply] at hresponse
  exact ⟨r, h, fd, hrun, hresponse.1⟩

end PacketForge
