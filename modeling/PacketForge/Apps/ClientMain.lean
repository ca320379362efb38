import PacketForge.Apps.Conversation
import PacketForge.Client.Client

set_option autoImplicit false

/-! # The client program (`apps/client_main.cpp`)

`clientMain` is `main`: connect, send one packet, receive the response, disconnect, and try the
connection again. The result is the exit code and the text that was printed. The packet that
`main` builds is a parameter of the functions below it, so that what is proved of them holds for a
client with any request.

`main_asking` walks through the program once, whatever the system calls return;
`clientMain_is_served` and `clientMain_agrees` put it beside the server program.

## How the proofs go

* `Tells` is what the exit code and the text have to do with the history: the client returns 0
  exactly if it was served, and then has printed the transcript of the exchange. `Told` adds that
  it has closed what it had obtained.
* The walk through the program shows two things at once, the contract `asking`, by which it can be
  put beside a server, and `Told`, by which its result can be read. Each function of the code has
  one lemma; the intermediate states are `Dialed` after `connect` and `Heard` after the receive.
* The calls after `disconnect` are answered without a system call, since the transport knows that
  it is not connected (`farewell_asking`).
* `clientMain_is_served` and `clientMain_agrees` then combine `Conversation` with `Told` of the
  client and the results about the server: no faults for the first, any faults for the second.
-/

namespace PacketForge

open Interaction Common Network Protocol

/-! ## The code

What is printed is a value that the functions hand on. The text is that of the source, piece by
piece.
-/

/-- What a program has written to `std::cout` and to `std::cerr`. The functions take it as an
argument and return it with what they have added. -/
structure Printed where
  cout : String
  cerr : String
  deriving DecidableEq, Repr

namespace Printed

def out (text : Printed) (s : String) : Printed := { text with cout := text.cout ++ s }

def err (text : Printed) (s : String) : Printed := { text with cerr := text.cerr ++ s }

end Printed

namespace ClientMain

/-- `protocolErrorName`, for any value of the enumeration's type. -/
def protocolErrorName (error : UInt16) : String :=
  if error = ProtocolError.InvalidPacket.value then "InvalidPacket"
  else if error = ProtocolError.UnsupportedOpcode.value then "UnsupportedOpcode"
  else if error = ProtocolError.UnsupportedVersion.value then "UnsupportedVersion"
  else if error = ProtocolError.InvalidPayload.value then "InvalidPayload"
  else "UnknownProtocolError"

/-- `printPayload`. A `char` is the character with its code. -/
def printPayload (packet : Packet) : String :=
  if packet.opcode = Opcode.ErrorResponse.value then
    match packet.payload with
    | [] => "  Error: Missing error code\n"
    | code :: _ => "  Error: " ++ protocolErrorName code.toUInt16 ++
        " (code: " ++ toString code.toNat ++ ")\n"
  else "  Payload: " ++ String.ofList (packet.payload.map fun byte => Char.ofNat byte.toNat) ++ "\n"

/-- The word for the state of the connection. -/
def connectionState (client : Client) : String :=
  if client.isConnected then "CONNECTED" else "DISCONNECTED"

/-- `std::hex`. -/
def hex (n : Nat) : String := String.ofList (Nat.toDigits 16 n)

/-- The packet of `main`. -/
def helloRequest : Packet :=
  let packet := Packet.new
  let packet := packet.setVersion VERSION
  let packet := packet.setFlags 0
  let packet := packet.setOpcode Opcode.HelloRequest.value
  let packet := packet.setSequenceId 1
  packet.setPayload (['H', 'e', 'l', 'l', 'o', ' ',
    'P', 'a', 'c', 'k', 'e', 't', 'F', 'o', 'r', 'g', 'e'].map Char.toUInt8)

/-- What is printed before the request is sent: the fields of the packet, as `main` formats them.
-/
def announce (packet : Packet) : String :=
  "Sending Hello Request opcode: " ++ toString packet.opcode.toNat ++ "\n" ++
  "Packet created successfully\n" ++
  "  Opcode: " ++ toString packet.opcode.toNat ++ "\n" ++
  "  Sequence ID: " ++ toString packet.sequenceId.toNat ++ "\n" ++
  "  Payload length: " ++ toString packet.payloadLength.toNat ++ "\n" ++
  "Sending PacketForge packet...\n"

/-- What is printed of the response: its fields, the payload length and the payload
(`printPayload`). -/
def report (response : Packet) : String :=
  "\nServer response received successfully\n" ++
  "  Magic: 0x" ++ hex response.magicNumber.toNat ++ "\n" ++
  "  Version: " ++ toString response.version.toNat ++ "\n" ++
  "  Flags: " ++ toString response.flags.toNat ++ "\n" ++
  "  Opcode: " ++ toString response.opcode.toNat ++ "\n" ++
  "  Sequence ID: " ++ toString response.sequenceId.toNat ++ "\n" ++
  "  Payload length: " ++ toString response.payloadLength.toNat ++ "\n" ++
  printPayload response

/-- `main` from the prompt on: disconnect, and use the connection that is gone. -/
def farewell (host : Platform) (client : Client) (packet : Packet) (text : Printed) :
    SysM (Except Abort (Int × Client × Printed)) := do
  let text := text.out "Press ENTER to disconnect...\n"
  Posix.cinGet
  let client ← client.disconnect
  let text := text.out ("PacketForge client disconnected successfully\n" ++
    "Connection state after disconnect: " ++ connectionState client ++ "\n" ++
    "\nTesting send after disconnect...\n")
  let sendAfterDisconnectError ← client.send host client.transport packet
  let text := text.out ("Send after disconnect result: " ++ sendAfterDisconnectError.message ++
    "\n" ++ "Connection state after failed send: " ++ connectionState client ++ "\n" ++
    "\nTesting receive after disconnect...\n")
  let r ← client.receive host client.transport Packet.new
  match r with
  | .error e => pure (.error e)
  | .ok (receiveAfterDisconnectError, _, transport) => do
    let client := { client with transport := transport }
    let text := text.out ("Receive after disconnect result: " ++
      receiveAfterDisconnectError.message ++ "\n" ++
      "Connection state after failed receive: " ++ connectionState client ++ "\n" ++
      "\nTesting repeated disconnect...\n")
    let client ← client.disconnect
    let text := text.out ("Second disconnect completed successfully\n" ++
      "Connection state after repeated disconnect: " ++ connectionState client ++ "\n")
    pure (.ok (0, client, text))

/-- What every failure behind `connect` does. -/
def giveUp (client : Client) (text : Printed) : SysM (Except Abort (Int × Client × Printed)) := do
  let client ← client.disconnect
  pure (.ok (1, client, text))

/-- `main` on a connected client. -/
def exchange (host : Platform) (client : Client) (packet : Packet) (text : Printed) :
    SysM (Except Abort (Int × Client × Printed)) :=
  if !packet.isValid then giveUp client (text.err "Packet validation failed\n")
  else do
    let text := text.out (announce packet)
    let sendError ← client.send host client.transport packet
    if !sendError.ok then
      giveUp client (text.err ("Failed to send packet: " ++ sendError.message ++ "\n"))
    else do
      let text := text.out "Packet sent successfully\nWaiting for server response...\n"
      let r ← client.receive host client.transport Packet.new
      match r with
      | .error e => pure (.error e)
      | .ok (receiveError, response, transport) =>
        let client := { client with transport := transport }
        if !receiveError.ok then
          giveUp client (text.err ("Failed to receive server response: " ++
            receiveError.message ++ "\n"))
        else farewell host client packet (text.out (report response))

/-- `main` up to its return statements, with the client that stands there. -/
def untilReturn (host : Platform) (packet : Packet) :
    SysM (Except Abort (Int × Client × Printed)) := do
  let client := Client.new 0
  let text : Printed := ⟨"Initial connection state: " ++ connectionState client ++ "\n" ++
    "Connecting to PacketForge server...\n", ""⟩
  let (connectError, client) ← client.connect "127.0.0.1" 9090
  if !connectError.ok then
    pure (.ok (1, client, (text.err ("Failed to connect to PacketForge server: " ++
      connectError.message ++ "\n")).out ("Connection state after failure: " ++
        connectionState client ++ "\n")))
  else exchange host client packet text

/-- `main`, for the packet that it builds. The client is destroyed at its end. -/
def main (host : Platform) (packet : Packet) : SysM (Except Abort (Int × Printed)) := do
  let r ← untilReturn host packet
  match r with
  | .error e => pure (.error e)
  | .ok (exitCode, client, text) => do
    client.destruct
    pure (.ok (exitCode, text))

end ClientMain

/-- `main`. -/
def clientMain (host : Platform) : SysM (Except Abort (Int × Printed)) :=
  ClientMain.main host ClientMain.helloRequest

namespace ClientMain

/-- What `main` prints when it gets `response` to `packet`. -/
def transcript (packet response : Packet) : String :=
  "Initial connection state: DISCONNECTED\n" ++ "Connecting to PacketForge server...\n" ++
  announce packet ++ "Packet sent successfully\nWaiting for server response...\n" ++
  report response ++ "Press ENTER to disconnect...\n" ++
  ("PacketForge client disconnected successfully\n" ++
    "Connection state after disconnect: DISCONNECTED\n" ++
    "\nTesting send after disconnect...\n") ++
  ("Send after disconnect result: Connection not established\n" ++
    "Connection state after failed send: DISCONNECTED\n" ++
    "\nTesting receive after disconnect...\n") ++
  ("Receive after disconnect result: Connection not established\n" ++
    "Connection state after failed receive: DISCONNECTED\n" ++
    "\nTesting repeated disconnect...\n") ++
  ("Second disconnect completed successfully\n" ++
    "Connection state after repeated disconnect: DISCONNECTED\n")

end ClientMain

/-! ## The walk through the program

The exit codes are decided in five places of the code; in each of them the history shows whether
the client was served.
-/

theorem Served.of_cons {response : List UInt8} {e : SysEvent} {h : SysHistory}
    (hs : Served response (e :: h)) : Served response h := hs.2

theorem not_served_cons {response : List UInt8} {e : SysEvent} {h : SysHistory}
    (he : failed e = true) (hclose : sawPeerClose e = false) : ¬ Served response (e :: h) := by
  rintro ⟨hfailed, -⟩
  rw [(hfailed he).1] at hclose
  cases hclose

theorem served_cons {response : List UInt8} {e : SysEvent} {h : SysHistory}
    (hs : Served response h) (he : failed e = false) : Served response (e :: h) := by
  refine ⟨fun hfailed => ?_, hs⟩
  rw [he] at hfailed
  cases hfailed

/-- A receive that moved bytes obtains and closes nothing. -/
theorem uses_of_moved {fd : Int} {h h' : SysHistory} (hext : Extends (PacketIo.Moved fd) h h') :
    uses h' = uses h := by
  obtain ⟨new, rfl, hnew⟩ := hext
  induction new with
  | nil => rfl
  | cons e new ih =>
      obtain ⟨⟨n, bytes, -, rfl⟩, hrest⟩ := List.forall_mem_cons.mp hnew
      rw [List.cons_append, uses_cons_none rfl, ih hrest]

/-- The frame of a valid packet has no defect. -/
theorem frameDefect_wireFormat {packet : Packet} (hvalid : packet.isValid = true) :
    frameDefect (wireFormat packet) = none := by
  have hgetD : (wireFormat packet).getD 4 0 = VERSION := by
    rw [List.getD_eq_getElem?_getD, (wireFormat_getElem? packet).1, Option.getD_some,
      ((Packet.isValid_iff packet).mp hvalid).1]
  rw [frameDefect, if_neg (not_not.mpr (wireFormat_magic packet)), if_neg (not_not.mpr hgetD)]

theorem replyBytes_wireFormat {packet : Packet} (hvalid : packet.isValid = true) :
    replyBytes (wireFormat packet) = wireFormat (OpcodeDispatcher.dispatch packet).2 := by
  rw [replyBytes_of_isFrame (wireFormat_isFrame ((Packet.isValid_iff packet).mp hvalid).2),
    frameDefect_wireFormat hvalid, packetAt_wireFormat]

section

variable {host : Platform} {h : SysHistory} {request : List UInt8} {response : Packet} {c : Int}

/-- What `connect` leaves behind: a connected client, or the end of the program, with at most one
descriptor to close. -/
def Dialed (response : List UInt8) (this : Loc) (r : Error × Client) (h : SysHistory) : Prop :=
  (r.1 = .success ∧ ∃ c, 0 ≤ c ∧ r.2 = ⟨⟨⟨⟨c⟩, true⟩⟩, this⟩ ∧ At c [] [] h ∧
    uses h = [.socket c]) ∨
  (r.1.ok = false ∧ ¬ Served response h ∧ endpoint h = none ∧
    ((r.2 = ⟨.new, this⟩ ∧ uses h = []) ∨
      ∃ c, 0 ≤ c ∧ r.2 = ⟨⟨⟨⟨c⟩, false⟩⟩, this⟩ ∧ uses h = [.socket c]))

theorem connect_asking (response : List UInt8) (this : Loc) :
    wp (asking request response) ((Client.new this).connect SERVER_ADDRESS SERVER_PORT)
      (Dialed response this) [] := by
  refine ⟨trivial, fun created hcreated => ?_⟩
  obtain ⟨c, strerror⟩ := created
  have hc := hcreated.1
  show wp _ (((if c = -1 then _ else _ : SysM (Error × Socket)).bind _).bind _) _ _
  by_cases hfail : c = -1
  · subst hfail
    exact .inr ⟨rfl, not_served_cons rfl rfl, rfl, .inl ⟨rfl, rfl⟩⟩
  have hc : 0 ≤ c := (hc.resolve_left hfail).1
  have hserved : Served response [⟨.socket, ⟨c, strerror⟩⟩] :=
    served_cons trivial (decide_eq_false (not_lt.mpr hc))
  have huses : uses [(⟨.socket, ⟨c, strerror⟩⟩ : SysEvent)] = [.socket c] :=
    uses_cons_some (if_neg (not_lt.mpr hc))
  rw [if_neg hfail]
  refine ⟨trivial, fun parsed _ => ?_⟩
  show wp _ ((if parsed ≠ 1 then _ else _ : SysM (Error × Connection)).bind _) _ _
  by_cases hparsed : parsed ≠ 1
  · rw [if_pos hparsed]
    refine .inr ⟨rfl, not_served_cons (decide_eq_true hparsed) rfl, rfl, .inr ⟨c, hc, rfl, ?_⟩⟩
    rw [uses_cons_none rfl, huses]
  have hserved₂ : Served response [⟨.inet_pton SERVER_ADDRESS, parsed⟩,
      ⟨.socket, ⟨c, strerror⟩⟩] := served_cons hserved (decide_eq_false hparsed)
  rw [if_neg hparsed]
  refine ⟨⟨rfl, fun _ => ⟨rfl, rfl⟩, ?_, hserved₂, rfl, rfl⟩, fun r _ => ?_⟩
  · exact .inr ⟨nofun, .inl (if_neg (not_lt.mpr hc))⟩
  show wp _ ((if r.value < 0 then _ else _ : SysM (Error × Connection)).bind _) _ _
  by_cases hr : r.value < 0
  · rw [if_pos hr]
    refine .inr ⟨rfl, not_served_cons (decide_eq_true hr) rfl, ?_, .inr ⟨c, hc, rfl, ?_⟩⟩
    · exact endpoint_cons_none
        (if_pos hr : linked ⟨.connect c SERVER_ADDRESS SERVER_PORT, r⟩ = none)
    · rw [uses_cons_none rfl, uses_cons_none rfl, huses]
  · rw [if_neg hr]
    refine .inl ⟨rfl, c, hc, rfl, ⟨endpoint_cons_some (if_neg hr), rfl, rfl⟩, ?_⟩
    rw [uses_cons_none rfl, uses_cons_none rfl, huses]

theorem send_asking (halloc : host.Allocates PacketIo.maxFrame) {transport : Transport}
    (hconn : transport.isConnected = true) {packet : Packet} (hvalid : packet.isValid = true)
    (response : List UInt8) {us : List Use} (ha : At transport.fd [] [] h) (hu : uses h = us) :
    wp (asking (wireFormat packet) response) (PacketIo.send host transport packet)
      (fun error h' => endpoint h' = some transport.fd ∧ uses h' = us ∧
        ((error = .success ∧ At transport.fd [] (wireFormat packet) h') ∨
          (error.ok = false ∧ ¬ Served response h'))) h := by
  have hsends := wp_invariant (D := asking (wireFormat packet) response)
    (fun h' => endpoint h' = some transport.fd ∧ consumed transport.fd h' = [] ∧ uses h' = us)
    ⟨ha.endpoint, ha.consumed, hu⟩ (PacketIo.send_wp Kernel halloc transport hvalid h hconn)
    (fun h' op hj hmay => ?_) (fun h' op r hj hmay hr => ?_)
  · refine wp_mono hsends ?_
    rintro error h' ⟨hends, hend, hc, hu'⟩
    rw [ha.written, List.nil_append] at hends
    refine ⟨hend, hu', ?_⟩
    cases hends with
    | sent hall => exact .inl ⟨rfl, hend, hc, hall⟩
    | failed _ _ _ hle => exact .inr ⟨rfl, not_served_cons (decide_eq_true hle) rfl⟩
  · obtain ⟨rest, hne, rfl, hrest⟩ := hmay
    rw [ha.written, List.nil_append] at hrest
    refine ⟨hj.1, hne, ?_⟩
    rw [output_of_endpoint hj.1, hrest]
  · obtain ⟨rest, -, rfl, -⟩ := hmay
    refine ⟨hr.1, (endpoint_cons_none rfl).trans hj.1, (List.append_nil _).trans hj.2.1, ?_⟩
    rw [uses_cons_none rfl, hj.2.2]

/-- What a receive of the response leaves behind: the response, or a client that was not served,
whose descriptor may be closed already. -/
def Heard (request : List UInt8) (response : Packet) (transport : Transport) (us : List Use)
    (r : Except Abort Received) (h : SysHistory) : Prop :=
  (r = .ok ⟨.success, response, none, transport⟩ ∧
    At transport.fd (wireFormat response) request h ∧ uses h = us) ∨
  ∃ received, r = .ok received ∧ received.error.ok = false ∧ ¬ Served (wireFormat response) h ∧
    ((received.transport = transport ∧ uses h = us) ∨
      (received.transport = .new ∧ uses h = us ++ [.closed transport.fd]))

theorem receive_asking (halloc : host.Allocates PacketIo.maxFrame) {transport : Transport}
    (hconn : transport.isConnected = true) (hopen : transport.connection.socket.isOpen = true)
    (hvalid : response.isValid = true) {us : List Use} (ha : At transport.fd [] request h)
    (hu : uses h = us) :
    wp (asking request (wireFormat response))
      (PacketIo.receive host transport Packet.new none) (Heard request response transport us)
      h := by
  have hframe : packetFraming.IsFrame (wireFormat response) :=
    wireFormat_isFrame ((Packet.isValid_iff response).mp hvalid).2
  have hreads := wp_invariant (D := asking request (wireFormat response))
    (fun h' => (endpoint h' = some transport.fd ∧ written transport.fd h' = request) ∧
      consumed transport.fd h' <+: wireFormat response)
    ⟨⟨ha.endpoint, ha.written⟩, by rw [ha.consumed]; exact List.nil_prefix⟩
    (wp_and (PacketIo.receive_reading le_rfl halloc transport Packet.new none h hconn hopen)
      (PacketIo.receive_leaves host transport Packet.new none h) fun _ _ _ hr => hr)
    (fun h' op hj hmay => ?_) (fun h' op r hj hmay hr => ?_)
  · refine wp_mono hreads ?_
    rintro r h' ⟨⟨hends, hleaves⟩, hat, hprefix⟩
    rw [ha.consumed] at hends
    cases hends with
    | @frame bytes h' hbytes hc =>
        -- the frame that was read is the response
        rw [List.nil_append] at hc
        obtain rfl : bytes = wireFormat response :=
          hbytes.eq_of_isPrefix hframe (by rwa [hc] at hprefix) List.prefix_rfl
        rw [PacketIo.decoded_wireFormat _ _ _ hvalid] at hleaves ⊢
        refine .inl ⟨rfl, ⟨hat.1, hc, hat.2⟩, ?_⟩
        rw [uses_of_moved hleaves.1.of_success.2, hu]
    | @failed bytes n h' _ _ _ _ =>
        refine .inr ⟨_, rfl, rfl, not_served_cons rfl rfl, .inl ⟨rfl, ?_⟩⟩
        obtain ⟨hends, -⟩ := hleaves
        cases hends with
        | moved hne _ _ => exact absurd rfl hne
        | failed hext => rw [uses_cons_none rfl, uses_of_moved hext, hu]
    | @closed bytes n h' hincomplete hc _ _ =>
        rw [List.nil_append] at hc
        refine .inr ⟨_, rfl, rfl, fun hserved => ?_, .inr ⟨rfl, ?_⟩⟩
        · obtain ⟨-, hinput⟩ := hserved.of_cons.1 rfl
          have hend : endpoint h' = some transport.fd := hat.1
          rw [input_of_endpoint hend, hc] at hinput
          exact hincomplete (hinput ▸ hframe.complete)
        · obtain ⟨hends, -⟩ := hleaves
          generalize hcode : ErrorCode.ConnectionClosed = code at hends
          generalize hlast : (⟨.close transport.fd, ()⟩ : SysEvent) :: _ = last at hends
          cases hends with
          | moved _ hne _ => exact absurd hcode.symm hne
          | failed _ => cases hcode
          | closed hext heq =>
              rw [if_pos hopen, heq, uses_cons_some rfl, uses_cons_none rfl, uses_of_moved hext, hu]
  · rcases hmay with ⟨n, hn, rfl, -⟩ | ⟨rfl, n, h₀, rfl⟩
    · exact ⟨hj.1.1, hn, (output_of_endpoint hj.1.1).trans hj.1.2⟩
    · -- the stream ended: was it at the end of the response?
      intro hserved
      obtain ⟨-, hinput⟩ := hserved.1 rfl
      refine ⟨(output_of_endpoint hj.1.1).trans hj.1.2, ?_⟩
      rw [← hinput, input_cons rfl]
      cases endpoint h₀ with
      | none => exact List.append_nil _
      | some fd =>
          rw [Option.elim_some, taken]
          split_ifs
          · exact List.append_nil _
          · exact List.append_nil _
  · have hend : endpoint h' = some transport.fd := hj.1.1
    rcases hmay with ⟨n, -, rfl, -⟩ | ⟨rfl, -⟩
    · refine ⟨hr.1, ⟨(endpoint_cons_none rfl).trans hend, (List.append_nil _).trans hj.1.2⟩, ?_⟩
      rw [consumed_cons, taken, if_pos rfl]
      rcases r with _ | bytes
      · rw [Option.getD_none, List.append_nil]
        exact hj.2
      · have hnext := hr.2 hend bytes rfl
        rw [input_of_endpoint hend] at hnext
        exact append_prefix hj.2 hnext
    · refine ⟨hr.1, ⟨(endpoint_cons_none rfl).trans hend, (List.append_nil _).trans hj.1.2⟩, ?_⟩
      rw [consumed_cons]
      exact (List.append_nil _).symm ▸ hj.2

end

/-- The exit code and the text tell whether the client was served. -/
def Tells (transcript : String) (packet response : Packet) (exitCode : Int) (text : Printed)
    (h : SysHistory) : Prop :=
  (exitCode = 0 ∧ output h = wireFormat packet ∧ input h = wireFormat response ∧ HungUp h ∧
    (∃ c, uses h = [.socket c, .closed c]) ∧ text = ⟨transcript, ""⟩) ∨
  (exitCode = 1 ∧ ¬ Served (wireFormat response) h)

/-- What the program leaves behind: it has closed what it had obtained. -/
def Told (transcript : String) (packet response : Packet) (r : Except Abort (Int × Printed))
    (h : SysHistory) : Prop :=
  ∃ exitCode text, r = .ok (exitCode, text) ∧ Tells transcript packet response exitCode text h ∧
    (uses h = [] ∨ ∃ c, uses h = [.socket c, .closed c])

/-- The program at one of its return statements. Only a client that could not connect may still have
a descriptor. -/
def Telling (transcript : String) (packet response : Packet)
    (r : Except Abort (Int × Client × Printed)) (h : SysHistory) : Prop :=
  ∃ exitCode client text, r = .ok (exitCode, client, text) ∧
    Tells transcript packet response exitCode text h ∧
    ((client.transport = .new ∧ (uses h = [] ∨ ∃ c, uses h = [.socket c, .closed c])) ∨
      (exitCode = 1 ∧ ∃ c connected, 0 ≤ c ∧ client.transport = ⟨⟨⟨c⟩, connected⟩⟩ ∧
        uses h = [.socket c]))

section

variable {host : Platform} {h : SysHistory} {packet response : Packet} {this : Loc} {c : Int}
  {transcript : String}

/-- A client that could not connect returns at once. -/
theorem exited_of_dialed {client : Client} (hclient : (client = ⟨.new, this⟩ ∧ uses h = []) ∨
      ∃ c, 0 ≤ c ∧ client = ⟨⟨⟨⟨c⟩, false⟩⟩, this⟩ ∧ uses h = [.socket c]) :
    (client.transport = .new ∧ (uses h = [] ∨ ∃ c, uses h = [.socket c, .closed c])) ∨
      ((1 : Int) = 1 ∧ ∃ c connected, 0 ≤ c ∧ client.transport = ⟨⟨⟨c⟩, connected⟩⟩ ∧
        uses h = [.socket c]) := by
  rcases hclient with ⟨rfl, hu⟩ | ⟨c, hc, rfl, hu⟩
  · exact .inl ⟨rfl, .inl hu⟩
  · exact .inr ⟨rfl, c, false, hc, rfl, hu⟩

/-- A connection that is given up was not served. -/
theorem giveUp_asking (hc : 0 ≤ c) {client : Client} (text : Printed)
    (hs : ¬ Served (wireFormat response) h)
    (hclient : (client.transport = ⟨⟨⟨c⟩, true⟩⟩ ∧ uses h = [.socket c]) ∨
      (client.transport = .new ∧ uses h = [.socket c, .closed c])) :
    wp (asking (wireFormat packet) (wireFormat response)) (ClientMain.giveUp client text)
      (Telling transcript packet response) h := by
  obtain ⟨transport, this⟩ := client
  rcases hclient with ⟨rfl, hu⟩ | ⟨rfl, hu⟩
  · show wp _ (((⟨⟨c⟩, true⟩ : Connection).disconnect.bind _).bind _) _ _
    rw [disconnect_of_nonneg hc]
    refine ⟨fun hserved => absurd hserved hs, fun _ _ => ?_⟩
    refine ⟨1, _, text, rfl, .inr ⟨rfl, fun hserved => hs hserved.of_cons⟩,
      .inl ⟨rfl, .inr ⟨c, ?_⟩⟩⟩
    rw [uses_cons_some rfl, hu]
    rfl
  · exact ⟨1, _, text, rfl, .inr ⟨rfl, hs⟩, .inl ⟨rfl, .inr ⟨c, hu⟩⟩⟩

/-- The calls on the connection that is gone are answered without a system call. -/
theorem farewell_asking (hc : 0 ≤ c) (text : Printed)
    (ha : At c (wireFormat response) (wireFormat packet) h) (hu : uses h = [.socket c])
    (htext : text = ⟨"Initial connection state: DISCONNECTED\n" ++
      "Connecting to PacketForge server...\n" ++ ClientMain.announce packet ++
      "Packet sent successfully\nWaiting for server response...\n" ++
      ClientMain.report response, ""⟩) :
    wp (asking (wireFormat packet) (wireFormat response))
      (ClientMain.farewell host ⟨⟨⟨⟨c⟩, true⟩⟩, this⟩ packet text)
      (Telling (ClientMain.transcript packet response) packet response) h := by
  subst htext
  refine ⟨trivial, fun pressed _ => ?_⟩
  show wp _ (((⟨⟨c⟩, true⟩ : Connection).disconnect.bind _).bind _) _ _
  rw [disconnect_of_nonneg hc]
  have ha₁ := ha.cons (e := ⟨.cinGet, pressed⟩) rfl rfl rfl
  refine ⟨fun _ => ⟨ha₁.output, ha₁.input⟩, fun closed _ => ?_⟩
  have ha₂ := ha₁.cons (e := ⟨.close c, closed⟩) rfl rfl rfl
  have hu₂ : uses (⟨.close c, closed⟩ :: ⟨.cinGet, pressed⟩ :: h) = [.socket c, .closed c] := by
    rw [uses_cons_some rfl, uses_cons_none rfl, hu]
    rfl
  refine ⟨0, _, _, rfl, .inl ⟨rfl, ha₂.output, ha₂.input, ?_, ⟨c, hu₂⟩, rfl⟩,
    .inl ⟨rfl, .inr ⟨c, hu₂⟩⟩⟩
  refine ⟨c, ha₂.endpoint, ?_⟩
  rintro (hobtained | ⟨hreleased, -⟩)
  · cases hobtained
  · exact hreleased rfl

theorem exchange_asking (halloc : host.Allocates PacketIo.maxFrame) (hc : 0 ≤ c)
    (hvalid : packet.isValid = true) (hresponse : response.isValid = true)
    (ha : At c [] [] h) (hu : uses h = [.socket c]) :
    wp (asking (wireFormat packet) (wireFormat response))
      (ClientMain.exchange host ⟨⟨⟨⟨c⟩, true⟩⟩, this⟩ packet
        ⟨"Initial connection state: DISCONNECTED\n" ++ "Connecting to PacketForge server...\n", ""⟩)
      (Telling (ClientMain.transcript packet response) packet response) h := by
  unfold ClientMain.exchange
  rw [hvalid]
  have hopen : (⟨c⟩ : Socket).isOpen = true := decide_eq_true (by show c ≠ -1; omega)
  show wp _ ((PacketIo.send host ⟨⟨⟨c⟩, true⟩⟩ packet).bind _) _ _
  refine wp_seq (send_asking halloc rfl hvalid (wireFormat response) ha hu) ?_
  rintro error h₁ ⟨-, hu₁, ⟨rfl, ha₁⟩ | ⟨hfail, hs₁⟩⟩
  · show wp _ (((PacketIo.receive host ⟨⟨⟨c⟩, true⟩⟩ Packet.new none).bind _).bind _) _ _
    rw [Prog.bind_assoc]
    refine wp_seq (receive_asking halloc rfl hopen hresponse ha₁ hu₁) ?_
    rintro r h₂ (⟨rfl, ha₂, hu₂⟩ | ⟨received, rfl, hfail, hs₂, hleft⟩)
    · exact farewell_asking hc _ ha₂ hu₂ rfl
    · obtain ⟨error, p, protocolError, transport⟩ := received
      show wp _ (if !error.ok then _ else _) _ _
      rw [show error.ok = false from hfail]
      exact giveUp_asking hc _ hs₂ hleft
  · show wp _ (if !error.ok then _ else _) _ _
    rw [hfail]
    exact giveUp_asking hc _ hs₁ (.inl ⟨rfl, hu₁⟩)

/-- The client is destroyed at the return statement. -/
theorem destruct_asking {client : Client} {exitCode : Int} {text : Printed}
    (htells : Tells transcript packet response exitCode text h)
    (hclient : (client.transport = .new ∧ (uses h = [] ∨ ∃ c, uses h = [.socket c, .closed c])) ∨
      (exitCode = 1 ∧ ∃ c connected, 0 ≤ c ∧ client.transport = ⟨⟨⟨c⟩, connected⟩⟩ ∧
        uses h = [.socket c])) :
    wp (asking (wireFormat packet) (wireFormat response))
      (client.destruct.bind fun _ => .ret (.ok (exitCode, text)))
      (Told transcript packet response) h := by
  obtain ⟨transport, this⟩ := client
  obtain ⟨htransport, hu⟩ | ⟨hexit, c, connected, hc, htransport, hu⟩ := hclient
  · obtain rfl : transport = .new := htransport
    exact ⟨exitCode, text, rfl, htells, hu⟩
  · obtain rfl : transport = ⟨⟨⟨c⟩, connected⟩⟩ := htransport
    obtain ⟨rfl, -⟩ | ⟨rfl, hs⟩ := htells
    · cases hexit
    · show wp _ ((⟨⟨c⟩, connected⟩ : Connection).destruct.bind _) _ _
      rw [destruct_of_nonneg hc]
      refine ⟨fun hserved => absurd hserved hs, fun _ _ => ?_⟩
      refine ⟨1, text, rfl, .inr ⟨rfl, fun hserved => hs hserved.of_cons⟩, .inr ⟨c, ?_⟩⟩
      rw [uses_cons_some rfl, hu]
      rfl

/-- **The part of the client**, whatever the system calls return: every call is one that `asking`
permits, and what the program returns, prints and closes tells whether it was served (`Told`). -/
theorem main_asking (halloc : host.Allocates PacketIo.maxFrame) (hvalid : packet.isValid = true) :
    wp (asking (wireFormat packet) (replyBytes (wireFormat packet))) (ClientMain.main host packet)
      (Told (ClientMain.transcript packet (OpcodeDispatcher.dispatch packet).2) packet
        (OpcodeDispatcher.dispatch packet).2) [] := by
  rw [replyBytes_wireFormat hvalid]
  have hresponse := (OpcodeDispatcher.dispatch_isValid packet).2
  generalize (OpcodeDispatcher.dispatch packet).2 = response at hresponse ⊢
  have huntil : wp (asking (wireFormat packet) (wireFormat response))
      (ClientMain.untilReturn host packet)
      (Telling (ClientMain.transcript packet response) packet response) [] := by
    refine wp_seq (connect_asking (wireFormat response) 0) ?_
    rintro ⟨error, client⟩ h₁ (⟨herror, c, hc, hclient, ha, hu⟩ | ⟨hfail, hs, -, hclient⟩)
    · obtain rfl : error = .success := herror
      obtain rfl : client = ⟨⟨⟨⟨c⟩, true⟩⟩, 0⟩ := hclient
      exact exchange_asking halloc hc hvalid hresponse ha hu
    · show wp _ (if !error.ok then _ else _) _ _
      rw [show error.ok = false from hfail]
      exact ⟨1, client, _, rfl, .inr ⟨rfl, hs⟩, exited_of_dialed hclient⟩
  unfold ClientMain.main
  refine wp_seq huntil ?_
  rintro r h ⟨exitCode, client, text, rfl, htells, hclient⟩
  exact destruct_asking htells hclient

end

/-! ## The two programs

The machines of the two processes may be different, in their byte order and in their memory.
-/

theorem helloRequest_isValid : ClientMain.helloRequest.isValid = true := rfl

/-- A client that was served has hung up. -/
theorem Told.hungUp {transcript : String} {packet response : Packet}
    {r : Except Abort (Int × Printed)} {h : SysHistory}
    (ht : Told transcript packet response r h) (hs : Served (wireFormat response) h) :
    HungUp h := by
  obtain ⟨exitCode, text, -, ⟨-, -, -, hhung, -⟩ | ⟨-, hnot⟩, -⟩ := ht
  · exact hhung
  · exact absurd hs hnot

/-- Both programs have returned 0. The client has printed its transcript, each side has read all
that the other one has written, the packet and the response that the dispatcher makes for it, and
every descriptor was closed once. -/
structure BothDone (transcript : String) (packet : Packet)
    (s : Pair Sys Sys.Res (Except Abort (Int × Printed)) (Except Abort Int)) : Prop where
  client : s.left = .ret (.ok (0, ⟨transcript, ""⟩))
  server : s.right = .ret (.ok 0)
  request : output s.leftHistory = wireFormat packet ∧ input s.rightHistory = wireFormat packet
  response : output s.rightHistory = wireFormat (OpcodeDispatcher.dispatch packet).2 ∧
    input s.leftHistory = wireFormat (OpcodeDispatcher.dispatch packet).2
  closed : (∃ c, uses s.leftHistory = [.socket c, .closed c]) ∧ Tidy (uses s.rightHistory)

theorem exitStatus_wireFormat {packet : Packet} (hvalid : packet.isValid = true) :
    exitStatus (wireFormat packet) = 0 := by
  rw [exitStatus, frameDefect_wireFormat hvalid, if_pos rfl]

theorem bothDone_of_concluded {transcript : String} {packet : Packet}
    (hvalid : packet.isValid = true)
    {s : Pair Sys Sys.Res (Except Abort (Int × Printed)) (Except Abort Int)}
    (hend : Concluded (wireFormat packet)
      (Told transcript packet (OpcodeDispatcher.dispatch packet).2) s)
    (htidy : Tidy (uses s.rightHistory)) : BothDone transcript packet s := by
  obtain ⟨⟨r, hr, exitCode, text, rfl, htells, -⟩, hserver, hserved, -, hasked, hanswered, -, -⟩ :=
    hend
  rw [replyBytes_wireFormat hvalid] at hserved hanswered
  rw [exitStatus_wireFormat hvalid] at hserver
  obtain ⟨rfl, -, -, -, hclosed, rfl⟩ | ⟨-, hnot⟩ := htells
  · exact ⟨hr, hserver, hasked, hanswered, hclosed, htidy⟩
  · exact absurd hserved hnot

section

variable {client server : Platform} {packet : Packet}
  {s : Pair Sys Sys.Res (Except Abort (Int × Printed)) (Except Abort Int)}

/-- A client that was turned away has returned 1. -/
theorem exitCode_of_turnedAway {transcript : String}
    (haway : TurnedAway (Told transcript packet (OpcodeDispatcher.dispatch packet).2) s) :
    ∃ text l k, s.left = .ret (.ok (1, text)) ∧ s.right = .call (.accept l) k ∧
      Refused s.leftHistory := by
  obtain ⟨⟨r, hr, exitCode, text, rfl, htells, -⟩, ⟨l, k, hk⟩, hrefused, hnone⟩ := haway
  obtain ⟨rfl, -, -, ⟨c, hc, -⟩, -⟩ | ⟨rfl, -⟩ := htells
  · rw [hnone] at hc
    cases hc
  · exact ⟨text, l, k, hr, hk, hrefused⟩

/-- What a client that takes part in a conversation and tells what it has heard comes to. -/
theorem conversation_ends (hserver : server.Allocates PacketIo.maxFrame)
    (hvalid : packet.isValid = true) {C : Contract Sys Sys.Res}
    (hjoins : Joins (wireFormat packet) C) {transcript : String}
    {p : SysM (Except Abort (Int × Printed))}
    (hp : wp C p (Told transcript packet (OpcodeDispatcher.dispatch packet).2) []) :
    (∀ s, ((between Loopback).machine p (serverMain server)).Reachable s →
      ((between Loopback).machine p (serverMain server)).Stuck s →
      BothDone transcript packet s ∨ ∃ text l k, s.left = .ret (.ok (1, text)) ∧
        s.right = .call (.accept l) k ∧ Refused s.leftHistory) ∧
    ∀ s, (((between Loopback).machine p (serverMain server)).guarded InTime).Reachable s →
      (((between Loopback).machine p (serverMain server)).guarded InTime).Stuck s →
      BothDone transcript packet s := by
  have hrequest : packetFraming.IsFrame (wireFormat packet) :=
    wireFormat_isFrame ((Packet.isValid_iff packet).mp hvalid).2
  have hleaves : ∀ r h, Told transcript packet (OpcodeDispatcher.dispatch packet).2 r h →
      Served (replyBytes (wireFormat packet)) h → HungUp h := fun r h ht hs =>
    ht.hungUp (by rwa [replyBytes_wireFormat hvalid] at hs)
  have htidy : ∀ {s}, Concluded (wireFormat packet)
      (Told transcript packet (OpcodeDispatcher.dispatch packet).2) s →
      wp answering s.right Finished s.rightHistory → Tidy (uses s.rightHistory) := by
    intro s hend hright
    rw [hend.server] at hright
    exact hright.1.2
  constructor
  · intro s hs hstuck
    have hkeeps := conversation_orderly hrequest hjoins hp hserver hs
    rcases Orderly.end_of_stuck hrequest hjoins hleaves hkeeps hstuck with hend | haway
    · exact .inl (bothDone_of_concluded hvalid hend (htidy hend hkeeps.right))
    · exact .inr (exitCode_of_turnedAway haway)
  · intro s hs hstuck
    have hw := welcome hrequest hjoins hp hserver hs
    have hend := hw.concluded hrequest hjoins hleaves hstuck
    exact bothDone_of_concluded hvalid hend (htidy hend hw.right)

/-- **The client and the server come to an end together.** In the surroundings without faults, for
every valid packet that the client may send and in every interleaving: no run is infinite, and where
neither program can move, both have returned 0 after a complete exchange, or the client was refused
because the server did not listen yet. A client that is started when the server listens is always
served. -/
theorem clientMain_is_served (hclient : client.Allocates PacketIo.maxFrame)
    (hserver : server.Allocates PacketIo.maxFrame) (hvalid : packet.isValid = true) :
    let M := (between Loopback).machine (ClientMain.main client packet) (serverMain server)
    (∀ run : ℕ → Pair Sys Sys.Res (Except Abort (Int × Printed)) (Except Abort Int),
      ∃ n, ∀ side, ¬ M.step (run n) side (run (n + 1))) ∧
    (∀ s, M.Reachable s → M.Stuck s →
      BothDone (ClientMain.transcript packet (OpcodeDispatcher.dispatch packet).2) packet s ∨
      ∃ text l k, s.left = .ret (.ok (1, text)) ∧ s.right = .call (.accept l) k ∧
        Refused s.leftHistory) ∧
    ∀ s, (M.guarded InTime).Reachable s → (M.guarded InTime).Stuck s →
      BothDone (ClientMain.transcript packet (OpcodeDispatcher.dispatch packet).2) packet s := by
  intro M
  have hrequest : packetFraming.IsFrame (wireFormat packet) :=
    wireFormat_isFrame ((Packet.isValid_iff packet).mp hvalid).2
  exact ⟨Pair.not_infinite, conversation_ends hserver hvalid (joins_asking hrequest)
    (main_asking hclient hvalid)⟩

/-- The two programs as they are, on machines of different byte order. -/
theorem clientMain_is_served_hello : ∃ s,
    (((between Loopback).machine (clientMain (.ample .Big 64))
      (serverMain (.ample .Little 64))).guarded InTime).Reachable s ∧
    BothDone (ClientMain.transcript ClientMain.helloRequest
      (OpcodeDispatcher.dispatch ClientMain.helloRequest).2) ClientMain.helloRequest s := by
  have hinitial : (((between Loopback).machine (clientMain (.ample .Big 64))
      (serverMain (.ample .Little 64))).guarded InTime).Reachable
      ⟨clientMain (.ample .Big 64), [], serverMain (.ample .Little 64), []⟩ :=
    ⟨_, [], rfl, .nil _⟩
  obtain ⟨s, hs, hstuck⟩ := Pair.exists_stuck hinitial
  exact ⟨s, hs, (clientMain_is_served (Platform.ample_allocates (by decide +kernel))
    (Platform.ample_allocates (by decide +kernel)) helloRequest_isValid).2.2 s hs hstuck⟩

/-- **The client and the server agree**, whatever goes wrong. In every interleaving and with any
faults: the server reads nothing but the packet of the client and writes nothing but a first part of
the response, after it has read all of the packet. When the client has returned, it has closed what
it had obtained; if its exit code is 0, the server has read all of the packet and written all of
the response, and that response is what the client has printed. -/
theorem clientMain_agrees (hclient : client.Allocates PacketIo.maxFrame)
    (hserver : server.Allocates PacketIo.maxFrame) (hvalid : packet.isValid = true)
    (hs : ((between Wire).machine (ClientMain.main client packet)
      (serverMain server)).Reachable s) :
    input s.rightHistory <+: output s.leftHistory ∧ output s.leftHistory <+: wireFormat packet ∧
    input s.leftHistory <+: output s.rightHistory ∧
    output s.rightHistory <+: wireFormat (OpcodeDispatcher.dispatch packet).2 ∧
    (output s.rightHistory ≠ [] → input s.rightHistory = wireFormat packet) ∧
    ∀ r, s.left = .ret r → ∃ exitCode text, r = .ok (exitCode, text) ∧
      (exitCode = 0 ∨ exitCode = 1) ∧
      (uses s.leftHistory = [] ∨ ∃ c, uses s.leftHistory = [.socket c, .closed c]) ∧
      (exitCode = 0 → input s.rightHistory = wireFormat packet ∧
        output s.rightHistory = wireFormat (OpcodeDispatcher.dispatch packet).2 ∧
        text = ⟨ClientMain.transcript packet (OpcodeDispatcher.dispatch packet).2, ""⟩) := by
  have hrequest : packetFraming.IsFrame (wireFormat packet) :=
    wireFormat_isFrame ((Packet.isValid_iff packet).mp hvalid).2
  obtain ⟨hj, hleft, -⟩ := conversation_sound hrequest (main_asking hclient hvalid) hserver hs
  have hreply := replyBytes_wireFormat hvalid
  have houtput := hj.output_prefix hrequest
  rw [hreply] at houtput
  refine ⟨hj.toServer, hj.asked, hj.toClient, houtput,
    fun hne => hj.input_eq hrequest (hj.speaks.answered hne).1, fun r hr => ?_⟩
  rw [hr] at hleft
  obtain ⟨exitCode, text, rfl, htells, huses⟩ := hleft
  refine ⟨exitCode, text, rfl, ?_, huses, fun hzero => ?_⟩
  · rcases htells with ⟨hzero, -⟩ | ⟨hone, -⟩
    · exact .inl hzero
    · exact .inr hone
  · subst hzero
    obtain ⟨-, -, hinput, -, -, htext⟩ | ⟨hone, -⟩ := htells
    · have hne : replyBytes (wireFormat packet) ≠ [] := by
        rw [hreply]
        refine List.ne_nil_of_length_pos ?_
        rw [wireFormat_length]
        exact Nat.add_pos_left (by decide) _
      obtain ⟨-, hread, hwritten⟩ := hj.agree hrequest (hreply ▸ hinput) hne
      exact ⟨hread, hwritten.trans hreply, htext⟩
    · cases hone

/-- A run without faults is one of the runs: the client returns 0. -/
theorem clientMain_agrees_hello : ∃ (s : Pair Sys Sys.Res _ _) (text : Printed),
    ((between Wire).machine (clientMain (.ample .Big 64))
      (serverMain (.ample .Little 64))).Reachable s ∧
    s.left = .ret (.ok (0, text)) ∧ input s.rightHistory = wireFormat ClientMain.helloRequest ∧
    output s.rightHistory = wireFormat (OpcodeDispatcher.dispatch ClientMain.helloRequest).2 ∧
    text = ⟨ClientMain.transcript ClientMain.helloRequest
      (OpcodeDispatcher.dispatch ClientMain.helloRequest).2, ""⟩ := by
  have hbig : (Platform.ample .Big 64).Allocates PacketIo.maxFrame :=
    Platform.ample_allocates (by decide +kernel)
  have hlittle : (Platform.ample .Little 64).Allocates PacketIo.maxFrame :=
    Platform.ample_allocates (by decide +kernel)
  have hrequest : packetFraming.IsFrame (wireFormat ClientMain.helloRequest) :=
    wireFormat_isFrame ((Packet.isValid_iff _).mp helloRequest_isValid).2
  have hinitial : (((between Loopback).machine (clientMain (.ample .Big 64))
      (serverMain (.ample .Little 64))).guarded InTime).Reachable
      ⟨clientMain (.ample .Big 64), [], serverMain (.ample .Little 64), []⟩ :=
    ⟨_, [], rfl, .nil _⟩
  obtain ⟨s, hs, hstuck⟩ := Pair.exists_stuck hinitial
  have hdone := (conversation_ends hlittle helloRequest_isValid (joins_asking hrequest)
    (main_asking hbig helloRequest_isValid)).2 s hs hstuck
  have hwire : ((between Wire).machine (clientMain (.ample .Big 64))
      (serverMain (.ample .Little 64))).Reachable s :=
    Pair.reachable_mono Loopback.le_wire Loopback.le_wire hs.of_guarded
  obtain ⟨-, -, -, -, -, hreturned⟩ := clientMain_agrees hbig hlittle helloRequest_isValid hwire
  obtain ⟨exitCode, text, heq, -, -, hagree⟩ := hreturned _ hdone.client
  cases heq
  obtain ⟨hread, hwritten, htext⟩ := hagree rfl
  exact ⟨s, _, hwire, hdone.client, hread, hwritten, htext⟩

end

end PacketForge
