import PacketForge.Apps.ClientMain

set_option autoImplicit false

/-! # A client that waits for the server to leave (`apps/remote_close_client_main.cpp`)

The client sends a request, receives the response and does not disconnect. Its next receive finds
the end of the stream, which closes its own end; the calls after that are answered without a
system call.

`lingering` is the part of a client that closes nothing before it has found the end of the stream.
While nothing goes wrong, a receive on a connected socket does not fail, which the contract relies
on. In a conversation with such a client the server leaves first (`LeavesLast`), and
`remoteCloseClient_sees_close` is what the two programs come to.

## How the proofs go

* `lingering` is `asking` with two clauses more, so everything that `Conversation` says of a
  client holds of this one (`joins_lingering`). The walk uses what `ClientMain` has shown of the
  common parts and adds that nothing is closed too early (`wp_lingering`).
* `LeavesLast` extends the invariant of the conversation: who has found the end of the stream, and
  who has departed. The client finds the end only if the server has closed; it closes only if it
  has found the end; so it never leaves first.
* `Ending` is about the last calls of the client. After the receive that found the end of the
  stream, the transport is disconnected, so the later calls of the code make no system call, and
  the destructor has nothing to close.
-/

namespace PacketForge

open Interaction Common Network Protocol

/-! ## The code

The two programs share no function but the word for the state of the connection: each has its own
text, and the branches that fail return without a disconnect here.
-/

namespace RemoteCloseClient

open ClientMain (connectionState)

/-- A `HelloRequest` without payload, as both packets of `main` are. -/
def helloPacket (sequenceId : UInt32) : Packet :=
  let packet := Packet.new
  let packet := packet.setVersion VERSION
  let packet := packet.setFlags 0
  let packet := packet.setOpcode Opcode.HelloRequest.value
  packet.setSequenceId sequenceId

def request : Packet := helloPacket 1

def postClosePacket : Packet := helloPacket 2

/-- `main` after the server has gone. -/
def afterClosure (host : Platform) (client : Client) (text : Printed) :
    SysM (Except Abort (Int × Client × Printed)) := do
  let text := text.out "\nTesting send after remote closure...\n"
  let sendAfterRemoteCloseError ← client.send host client.transport postClosePacket
  let text := text.out ("Send after remote closure result: " ++ sendAfterRemoteCloseError.message ++
    "\n" ++ "Connection state after send attempt: " ++ connectionState client ++ "\n" ++
    "\nTesting receive after remote closure...\n")
  let r ← client.receive host client.transport Packet.new
  match r with
  | .error e => pure (.error e)
  | .ok (receiveAfterRemoteCloseError, _, transport) => do
    let client := { client with transport := transport }
    let text := text.out ("Receive after remote closure result: " ++
      receiveAfterRemoteCloseError.message ++ "\n" ++
      "Connection state after receive attempt: " ++ connectionState client ++ "\n" ++
      "\nTesting explicit disconnect after remote closure...\n")
    let client ← client.disconnect
    let text := text.out ("Explicit disconnect completed successfully\n" ++
      "Connection state after explicit disconnect: " ++ connectionState client ++ "\n")
    pure (.ok (0, client, text))

/-- `main` once it has its response. -/
def awaitClosure (host : Platform) (client : Client) (text : Printed) :
    SysM (Except Abort (Int × Client × Printed)) := do
  let text := text.out ("Initial server response received successfully\n" ++
    "\nWaiting for server to close connection...\n")
  let r ← client.receive host client.transport Packet.new
  match r with
  | .error e => pure (.error e)
  | .ok (remoteCloseError, _, transport) =>
    let client := { client with transport := transport }
    afterClosure host client (text.out ("Receive after server closure: " ++
      remoteCloseError.message ++ "\n" ++
      "Connection state after server closure: " ++ connectionState client ++ "\n"))

/-- `main` on a connected client. -/
def exchange (host : Platform) (client : Client) (request : Packet) (text : Printed) :
    SysM (Except Abort (Int × Client × Printed)) := do
  let text := text.out ("Client connected successfully\n" ++
    "Connection state: " ++ connectionState client ++ "\n")
  let sendError ← client.send host client.transport request
  if !sendError.ok then
    pure (.ok (1, client, text.err ("Failed to send request: " ++ sendError.message ++ "\n")))
  else do
    let text := text.out "HelloRequest sent successfully\n"
    let r ← client.receive host client.transport Packet.new
    match r with
    | .error e => pure (.error e)
    | .ok (receiveError, _, transport) =>
      let client := { client with transport := transport }
      if !receiveError.ok then
        pure (.ok (1, client, text.err ("Failed to receive response: " ++
          receiveError.message ++ "\n")))
      else awaitClosure host client text

/-- `main` up to its return statements, with the client that stands there. -/
def untilReturn (host : Platform) (request : Packet) :
    SysM (Except Abort (Int × Client × Printed)) := do
  let client := Client.new 0
  let text : Printed := ⟨"", ""⟩
  let (connectError, client) ← client.connect "127.0.0.1" 9090
  if !connectError.ok then
    pure (.ok (1, client, text.err ("Failed to connect: " ++ connectError.message ++ "\n")))
  else exchange host client request text

/-- `main`, for the request that it builds. The client is destroyed at its end. -/
def main (host : Platform) (request : Packet) : SysM (Except Abort (Int × Printed)) := do
  let r ← untilReturn host request
  match r with
  | .error e => pure (.error e)
  | .ok (exitCode, client, text) => do
    client.destruct
    pure (.ok (exitCode, text))

/-- What `main` prints when the server leaves after its response. -/
def transcript : String :=
  "" ++ ("Client connected successfully\n" ++ "Connection state: CONNECTED\n") ++
  "HelloRequest sent successfully\n" ++
  ("Initial server response received successfully\n" ++
    "\nWaiting for server to close connection...\n") ++
  ("Receive after server closure: Connection closed by peer\n" ++
    "Connection state after server closure: DISCONNECTED\n") ++
  "\nTesting send after remote closure...\n" ++
  ("Send after remote closure result: Connection not established\n" ++
    "Connection state after send attempt: DISCONNECTED\n" ++
    "\nTesting receive after remote closure...\n") ++
  ("Receive after remote closure result: Connection not established\n" ++
    "Connection state after receive attempt: DISCONNECTED\n" ++
    "\nTesting explicit disconnect after remote closure...\n") ++
  ("Explicit disconnect completed successfully\n" ++
    "Connection state after explicit disconnect: DISCONNECTED\n")

end RemoteCloseClient

/-- `main`. -/
def remoteCloseClientMain (host : Platform) : SysM (Except Abort (Int × Printed)) :=
  RemoteCloseClient.main host RemoteCloseClient.request

/-! ## The part of a client that leaves last

A contract for the calls, and a condition on the answers.
-/

/-- The end of the stream was found. -/
def SawClose (h : SysHistory) : Prop := ∃ e ∈ h, sawPeerClose e = true

/-- What a client does that does not leave before the server: it keeps to `asking`, and as long as
nothing has gone wrong it closes its end only when it has found the end of the stream. It relies
on a kernel whose receives do not fail. -/
def lingering (request response : List UInt8) : Contract Sys Sys.Res where
  may h op := (asking request response).may h op ∧
    ((∃ fd, op = .close fd) → Served response h → SawClose h)
  answers h op r := (asking request response).answers h op r ∧
    match op, r with
    | .recv fd _ _, r => endpoint h = some fd → r ≠ none
    | _, _ => True

theorem joins_lingering {request : List UInt8} (hrequest : packetFraming.IsFrame request) :
    Joins request (lingering request (replyBytes request)) where
  may _ _ hmay := hmay.1
  answers hl hr op r hj _ hanswer := by
    refine ⟨hj.answers hrequest hanswer.1, ?_⟩
    cases op with
    | recv fd n flags => exact fun hend => (hanswer.2 hend (hj.not_reset_server hrequest)).1
    | _ => trivial

/-- A program that keeps to `asking`, and by another contract `D` closes nothing too early. -/
theorem wp_lingering {α : Type} {request response : List UInt8} {h : SysHistory} {p : SysM α}
    {Q Q' : α → SysHistory → Prop} {D : Contract Sys Sys.Res}
    (hp : wp (asking request response) p Q h) (hD : wp D p Q' h)
    (hmay : ∀ h fd, D.may h (.close fd) → Served response h → SawClose h)
    (hanswers : ∀ h op r, Kernel h op r → D.answers h op r) :
    wp (lingering request response) p Q h := by
  have hboth := wp_both hp hD fun h op r hr => hanswers h op r hr.1
  refine wp_mono (wp_weaken hboth ?_ fun _ _ _ hr => hr.1) fun _ _ hQ => hQ.1
  rintro h op ⟨hasks, hcloses⟩
  refine ⟨hasks, ?_⟩
  rintro ⟨fd, rfl⟩ hserved
  exact hmay h fd hcloses hserved

/-! ## The walk through the program -/

section

variable {host : Platform} {h : SysHistory} {request : List UInt8} {packet response : Packet}
  {this : Loc} {c : Int}

theorem connect_lingering (response : List UInt8) (this : Loc) :
    wp (lingering request response) ((Client.new this).connect SERVER_ADDRESS SERVER_PORT)
      (Dialed response this) [] := by
  have hnever : wp ⟨fun _ op => ∀ fd, op ≠ .close fd, fun _ _ _ => True⟩
      ((Client.new this).connect SERVER_ADDRESS SERVER_PORT) (fun _ _ => True) [] := by
    refine ⟨fun fd heq => (by cases heq), fun created _ => ?_⟩
    show wp _ (((if created.value = -1 then _ else _ : SysM (Error × Socket)).bind _).bind _) _ _
    split_ifs
    · trivial
    refine ⟨fun fd heq => (by cases heq), fun parsed _ => ?_⟩
    show wp _ ((if parsed ≠ 1 then _ else _ : SysM (Error × Connection)).bind _) _ _
    split_ifs
    · trivial
    refine ⟨fun fd heq => (by cases heq), fun r _ => ?_⟩
    show wp _ ((if r.value < 0 then _ else _ : SysM (Error × Connection)).bind _) _ _
    split_ifs
    · trivial
    · trivial
  exact wp_lingering (connect_asking response this) hnever
    (fun _ fd hnot => absurd rfl (hnot fd)) (fun _ _ _ _ => trivial)

theorem send_lingering (halloc : host.Allocates PacketIo.maxFrame) (hvalid : packet.isValid = true)
    (response : List UInt8) (ha : At c [] [] h) (hu : uses h = [.socket c]) :
    wp (lingering (wireFormat packet) response) (PacketIo.send host ⟨⟨⟨c⟩, true⟩⟩ packet)
      (fun error h' => endpoint h' = some c ∧ uses h' = [.socket c] ∧
        ((error = .success ∧ At c [] (wireFormat packet) h') ∨
          (error.ok = false ∧ ¬ Served response h'))) h := by
  refine wp_lingering (send_asking halloc rfl hvalid response ha hu)
    (PacketIo.send_wp Kernel halloc ⟨⟨⟨c⟩, true⟩⟩ hvalid h rfl) ?_ fun _ _ _ hr => hr
  rintro h fd ⟨rest, -, heq, -⟩ -
  cases heq

/-- `receive` closes its end at the end of the stream. -/
theorem receive_lingering (halloc : host.Allocates PacketIo.maxFrame) (hc : 0 ≤ c)
    (hvalid : response.isValid = true) (ha : At c [] request h) (hu : uses h = [.socket c]) :
    wp (lingering request (wireFormat response))
      (PacketIo.receive host ⟨⟨⟨c⟩, true⟩⟩ Packet.new none)
      (Heard request response ⟨⟨⟨c⟩, true⟩⟩ [.socket c]) h := by
  have hopen : (⟨c⟩ : Socket).isOpen = true := decide_eq_true (by show c ≠ -1; omega)
  refine wp_lingering (receive_asking halloc rfl hopen hvalid ha hu)
    (PacketIo.receive_reading le_rfl halloc ⟨⟨⟨c⟩, true⟩⟩ Packet.new none h rfl hopen) ?_
    fun _ _ _ hr => hr
  rintro h fd (⟨n, -, heq, -⟩ | ⟨-, n, h₀, rfl⟩) -
  · cases heq
  · exact ⟨_, List.mem_cons_self, rfl⟩

/-- A receive after the response finds the end of the stream, and closes the connection. -/
theorem lastReceive_lingering (halloc : host.Allocates PacketIo.maxFrame) (hc : 0 ≤ c)
    (ha : At c (wireFormat response) (wireFormat packet) h) :
    wp (lingering (wireFormat packet) (wireFormat response))
      (PacketIo.receive host ⟨⟨⟨c⟩, true⟩⟩ Packet.new none)
      (fun r h' =>
        r = .ok ⟨⟨.ConnectionClosed, "Connection closed by peer"⟩, Packet.new, none, .new⟩ ∧
        h' = ⟨.close c, ()⟩ :: ⟨.recv c HEADER_SIZE 0, some []⟩ :: h) h := by
  have hne : c ≠ -1 := by omega
  have hfits : host.fits HEADER_SIZE = true := halloc _ (Nat.le_add_right _ _)
  have htransport : wp (lingering (wireFormat packet) (wireFormat response))
      ((⟨⟨⟨c⟩, true⟩⟩ : Transport).receive host [] HEADER_SIZE)
      (fun r h' => r = .ok (⟨.ConnectionClosed, "Connection closed by peer"⟩, [], .new) ∧
        h' = ⟨.close c, ()⟩ :: ⟨.recv c HEADER_SIZE 0, some []⟩ :: h) h := by
    unfold Transport.receive
    rw [show (⟨⟨⟨c⟩, true⟩⟩ : Transport).isConnected = true from rfl, hfits]
    simp only [Bool.not_true, Bool.false_eq_true, if_false, Bool.and_false, Prog.bind_eq]
    rw [Transport.receiveLoop, if_pos (show ([] : List UInt8).length < HEADER_SIZE from by decide)]
    refine ⟨⟨⟨ha.endpoint, by decide, ha.output⟩, ?_⟩, fun result hresult => ?_⟩
    · rintro ⟨fd, heq⟩
      cases heq
    obtain ⟨⟨-, hcomes⟩, hsome⟩ := hresult
    -- everything has been read
    have hend : result = some [] := by
      cases result with
      | none => exact absurd rfl (hsome ha.endpoint)
      | some bytes =>
          have hprefix := hcomes ha.endpoint bytes rfl
          rw [ha.input, List.drop_length] at hprefix
          rw [List.prefix_nil.mp hprefix]
    subst hend
    show wp _ (((⟨⟨c⟩, true⟩ : Connection).disconnect.bind _).bind _) _ _
    rw [disconnect_of_nonneg hc]
    have ha₁ : At c (wireFormat response) (wireFormat packet)
        (⟨.recv c HEADER_SIZE 0, some []⟩ :: h) :=
      ha.cons rfl rfl (by rw [taken, if_pos rfl]; rfl)
    refine ⟨⟨fun _ => ⟨ha₁.output, ha₁.input⟩, fun _ _ => ?_⟩, fun _ _ => ⟨rfl, rfl⟩⟩
    exact ⟨_, List.mem_cons_self, rfl⟩
  unfold PacketIo.receive
  refine wp_seq htransport ?_
  rintro r h' ⟨rfl, rfl⟩
  exact ⟨rfl, rfl⟩

/-- The last system calls were a `::recv` that found the end of the stream and the `::close` after
it. -/
def EndsWithClosure (h : SysHistory) : Prop :=
  ∃ c before, h = ⟨.close c, ()⟩ :: ⟨.recv c HEADER_SIZE 0, some []⟩ :: before

/-- A client that returns 0 has made no system call since it found the end of the stream, and has
nothing left to close. -/
def Ending (r : Except Abort (Int × Client × Printed)) (h : SysHistory) : Prop :=
  ∀ client text, r = .ok (0, client, text) → client.transport = .new ∧ EndsWithClosure h

theorem ending_one (client : Client) (text : Printed) : Ending (.ok (1, client, text)) h := by
  intro client' text' heq
  simp at heq

/-- The calls on the connection that is gone are answered without a system call. -/
theorem awaitClosure_lingering (halloc : host.Allocates PacketIo.maxFrame) (hc : 0 ≤ c)
    (text : Printed) (ha : At c (wireFormat response) (wireFormat packet) h)
    (hu : uses h = [.socket c])
    (htext : text = ⟨"" ++ ("Client connected successfully\n" ++ "Connection state: CONNECTED\n") ++
      "HelloRequest sent successfully\n", ""⟩) :
    wp (lingering (wireFormat packet) (wireFormat response))
      (RemoteCloseClient.awaitClosure host ⟨⟨⟨⟨c⟩, true⟩⟩, this⟩ text)
      (fun r h => Telling RemoteCloseClient.transcript packet response r h ∧ Ending r h) h := by
  subst htext
  unfold RemoteCloseClient.awaitClosure
  show wp _ (((PacketIo.receive host ⟨⟨⟨c⟩, true⟩⟩ Packet.new none).bind _).bind _) _ _
  rw [Prog.bind_assoc]
  refine wp_seq (lastReceive_lingering halloc hc ha) ?_
  rintro r h' ⟨rfl, rfl⟩
  have ha₁ : At c (wireFormat response) (wireFormat packet)
      (⟨.recv c HEADER_SIZE 0, some []⟩ :: h) :=
    ha.cons rfl rfl (by rw [taken, if_pos rfl]; rfl)
  have ha₂ := ha₁.cons (e := ⟨.close c, ()⟩) rfl rfl rfl
  have hu₂ : uses (⟨.close c, ()⟩ :: ⟨.recv c HEADER_SIZE 0, some []⟩ :: h)
      = [.socket c, .closed c] := by
    rw [uses_cons_some rfl, uses_cons_none rfl, hu]
    rfl
  have hhung : HungUp (⟨.close c, ()⟩ :: ⟨.recv c HEADER_SIZE 0, some []⟩ :: h) := by
    refine ⟨c, ha₂.endpoint, ?_⟩
    rintro (hobtained | ⟨hreleased, -⟩)
    · cases hobtained
    · exact hreleased rfl
  refine ⟨⟨0, _, _, rfl, .inl ⟨rfl, ha₂.output, ha₂.input, hhung, ⟨c, hu₂⟩, rfl⟩,
    .inl ⟨rfl, .inr ⟨c, hu₂⟩⟩⟩, fun client text heq => ?_⟩
  cases heq
  exact ⟨rfl, c, h, rfl⟩

theorem remoteExchange_lingering (halloc : host.Allocates PacketIo.maxFrame) (hc : 0 ≤ c)
    (hvalid : packet.isValid = true) (hresponse : response.isValid = true)
    (ha : At c [] [] h) (hu : uses h = [.socket c]) :
    wp (lingering (wireFormat packet) (wireFormat response))
      (RemoteCloseClient.exchange host ⟨⟨⟨⟨c⟩, true⟩⟩, this⟩ packet ⟨"", ""⟩)
      (fun r h => Telling RemoteCloseClient.transcript packet response r h ∧ Ending r h) h := by
  unfold RemoteCloseClient.exchange
  show wp _ ((PacketIo.send host ⟨⟨⟨c⟩, true⟩⟩ packet).bind _) _ _
  refine wp_seq (send_lingering halloc hvalid (wireFormat response) ha hu) ?_
  rintro error h₁ ⟨-, hu₁, ⟨rfl, ha₁⟩ | ⟨hfail, hs₁⟩⟩
  · show wp _ (((PacketIo.receive host ⟨⟨⟨c⟩, true⟩⟩ Packet.new none).bind _).bind _) _ _
    rw [Prog.bind_assoc]
    refine wp_seq (receive_lingering halloc hc hresponse ha₁ hu₁) ?_
    rintro r h₂ (⟨rfl, ha₂, hu₂⟩ | ⟨received, rfl, hfail, hs₂, hleft⟩)
    · exact awaitClosure_lingering halloc hc _ ha₂ hu₂ rfl
    · obtain ⟨error, p, protocolError, transport⟩ := received
      show wp _ (if !error.ok then _ else _) _ _
      rw [show error.ok = false from hfail]
      refine ⟨⟨1, _, _, rfl, .inr ⟨rfl, hs₂⟩, ?_⟩, ending_one _ _⟩
      rcases hleft with ⟨htransport, hu₂⟩ | ⟨htransport, hu₂⟩
      · exact .inr ⟨rfl, c, true, hc, htransport, hu₂⟩
      · exact .inl ⟨htransport, .inr ⟨c, hu₂⟩⟩
  · show wp _ (if !error.ok then _ else _) _ _
    rw [hfail]
    exact ⟨⟨1, _, _, rfl, .inr ⟨rfl, hs₁⟩, .inr ⟨rfl, c, true, hc, rfl, hu₁⟩⟩, ending_one _ _⟩

/-- A client that has still something to close at its end was not served. -/
theorem destruct_lingering {client : Client} {exitCode : Int} {text : Printed} {transcript : String}
    (htells : Tells transcript packet response exitCode text h)
    (hclient : (client.transport = .new ∧ (uses h = [] ∨ ∃ c, uses h = [.socket c, .closed c])) ∨
      (exitCode = 1 ∧ ∃ c connected, 0 ≤ c ∧ client.transport = ⟨⟨⟨c⟩, connected⟩⟩ ∧
        uses h = [.socket c])) :
    wp (lingering (wireFormat packet) (wireFormat response))
      (client.destruct.bind fun _ => .ret (.ok (exitCode, text)))
      (Told transcript packet response) h := by
  have hlate : wp ⟨fun h _ => ¬ Served (wireFormat response) h, fun _ _ _ => True⟩
      (client.destruct.bind fun _ =>
        (.ret (.ok (exitCode, text)) : SysM (Except Abort (Int × Printed))))
      (fun _ _ => True) h := by
    obtain ⟨transport, this⟩ := client
    obtain ⟨htransport, -⟩ | ⟨hexit, c, connected, hc, htransport, -⟩ := hclient
    · obtain rfl : transport = .new := htransport
      trivial
    · obtain rfl : transport = ⟨⟨⟨c⟩, connected⟩⟩ := htransport
      obtain ⟨rfl, -⟩ | ⟨-, hs⟩ := htells
      · cases hexit
      · show wp _ ((⟨⟨c⟩, connected⟩ : Connection).destruct.bind _) _ _
        rw [destruct_of_nonneg hc]
        exact ⟨hs, fun _ _ => trivial⟩
  exact wp_lingering (destruct_asking htells hclient) hlate
    (fun _ _ hnot hserved => absurd hserved hnot) (fun _ _ _ _ => trivial)

/-- A client that returns 0 is destroyed without a system call. -/
theorem destruct_ending {client : Client} {exitCode : Int} {text : Printed}
    (E : Env Sys Sys.Res) (hending : Ending (.ok (exitCode, client, text)) h) :
    wp (.ofEnv E) (client.destruct.bind fun _ =>
        (.ret (.ok (exitCode, text)) : SysM (Except Abort (Int × Printed))))
      (fun r h => ∀ text, r = .ok (0, text) → EndsWithClosure h) h := by
  by_cases hzero : exitCode = 0
  · subst hzero
    obtain ⟨htransport, hclosure⟩ := hending client text rfl
    obtain ⟨transport, this⟩ := client
    obtain rfl : transport = .new := htransport
    exact fun _ _ => hclosure
  · refine wp_seq (wp_true client.destruct h) ?_
    intro _ h' _ text' heq
    simp only [Except.ok.injEq, Prod.mk.injEq] at heq
    exact absurd heq.1 hzero

/-- **The part of the client**, as long as receives do not fail: it keeps to `lingering`, tells
what it has heard, and ends with the closure if it returns 0. -/
theorem remoteCloseClient_lingering (halloc : host.Allocates PacketIo.maxFrame)
    (hvalid : packet.isValid = true) :
    wp (lingering (wireFormat packet) (replyBytes (wireFormat packet)))
      (RemoteCloseClient.main host packet)
      (fun r h =>
        Told RemoteCloseClient.transcript packet (OpcodeDispatcher.dispatch packet).2 r h ∧
        ∀ text, r = .ok (0, text) → EndsWithClosure h) [] := by
  rw [replyBytes_wireFormat hvalid]
  have hresponse := (OpcodeDispatcher.dispatch_isValid packet).2
  generalize (OpcodeDispatcher.dispatch packet).2 = response at hresponse ⊢
  have huntil : wp (lingering (wireFormat packet) (wireFormat response))
      (RemoteCloseClient.untilReturn host packet)
      (fun r h => Telling RemoteCloseClient.transcript packet response r h ∧ Ending r h) [] := by
    refine wp_seq (connect_lingering (wireFormat response) 0) ?_
    rintro ⟨error, client⟩ h₁ (⟨herror, c, hc, hclient, ha, hu⟩ | ⟨hfail, hs, -, hclient⟩)
    · obtain rfl : error = .success := herror
      obtain rfl : client = ⟨⟨⟨⟨c⟩, true⟩⟩, 0⟩ := hclient
      exact remoteExchange_lingering halloc hc hvalid hresponse ha hu
    · show wp _ (if !error.ok then _ else _) _ _
      rw [show error.ok = false from hfail]
      exact ⟨⟨1, client, _, rfl, .inr ⟨rfl, hs⟩, exited_of_dialed hclient⟩, ending_one _ _⟩
  unfold RemoteCloseClient.main
  refine wp_seq huntil ?_
  rintro r h ⟨⟨exitCode, client, text, rfl, htells, hclient⟩, hending⟩
  exact wp_and (destruct_lingering htells hclient)
    (destruct_ending (lingering (wireFormat packet) (wireFormat response)).answers hending)
    fun _ _ _ hr => hr

end

/-! ## Who leaves first

One step of either side, as in `Conversation`.
-/

/-- The process has closed its end of the connection. Unlike `HungUp` this says that there was a
`::close`, and stays true. -/
def Departed (h : SysHistory) : Prop :=
  ∃ fd, endpoint h = some fd ∧ ∃ e ∈ h, released e = some fd

/-- A conversation in which the client leaves last. If the client has found the end of the stream,
or has closed its end, then the server has closed its own before. -/
structure LeavesLast (request : List UInt8) (hc hs : SysHistory) : Prop extends
    Orderly request hc hs where
  anchored : ∀ fd, endpoint hs = some fd → IsOpen hs fd ∨ ∃ e ∈ hs, released e = some fd
  saw : SawClose hc → Departed hs
  left : HungUp hc → Departed hs

section

variable {request : List UInt8} {hc hs : SysHistory} {op : Sys} {r : op.Res}

theorem Departed.cons {h : SysHistory} {e : SysEvent} (hd : Departed h) (he : linked e = none) :
    Departed (e :: h) := by
  obtain ⟨fd, hfd, e', he', hreleased⟩ := hd
  exact ⟨fd, (endpoint_cons_none he).trans hfd, e', List.mem_cons_of_mem e he', hreleased⟩

theorem LeavesLast.departed (hj : LeavesLast request hc hs) (hhung : HungUp hs) : Departed hs := by
  obtain ⟨fd, hfd, hclosed⟩ := hhung
  exact ⟨fd, hfd, (hj.anchored fd hfd).resolve_left hclosed⟩

/-- The client finds the end of the stream when the server has left, and leaves when it has found
it. -/
theorem LeavesLast.client (hj : LeavesLast request hc hs)
    (hrequest : packetFraming.IsFrame request)
    (hmay : (lingering request (replyBytes request)).may hc op) (hr : Loopback hs hc op r) :
    LeavesLast request (⟨op, r⟩ :: hc) hs := by
  have horderly := hj.toOrderly.client hrequest hmay.1 hr
  refine ⟨horderly, hj.anchored, ?_, fun hhung => ?_⟩
  · rintro ⟨e, he, hsaw⟩
    rcases List.mem_cons.mp he with rfl | hbefore
    · cases op with
      | recv fd n flags =>
          obtain ⟨⟨hend, hn, -⟩, -⟩ := hmay
          obtain ⟨-, hnil⟩ := hr.2 hend (hj.not_reset_server hrequest)
          obtain ⟨-, hhung⟩ := (hnil (of_decide_eq_true hsaw)).resolve_left hn.ne'
          exact hj.departed hhung
      | _ => cases hsaw
    · exact hj.saw ⟨e, hbefore, hsaw⟩
  · cases op with
    | close fd =>
        refine hj.saw (hmay.2 ⟨fd, rfl⟩ (hj.served ?_))
        obtain ⟨fd', hfd', -⟩ := hhung
        rw [endpoint_cons_none rfl] at hfd'
        rw [hfd']
        exact Option.some_ne_none fd'
    | accept l => exact absurd hmay.1 id
    | connect fd address port =>
        obtain ⟨⟨-, -, hopen, -⟩, -⟩ := hmay
        by_cases hneg : r.value < 0
        · exact hj.left (hhung.of_cons (if_pos hneg) rfl)
        · exact absurd hhung (not_hungUp_of_linked (if_neg hneg) (.inr ⟨nofun, hopen⟩))
    | _ => exact hj.left (hhung.of_cons rfl rfl)

theorem LeavesLast.server (hj : LeavesLast request hc hs)
    (hrequest : packetFraming.IsFrame request) (hmay : answering.may hs op)
    (hr : Loopback hc hs op r) : LeavesLast request hc (⟨op, r⟩ :: hs) := by
  have horderly := hj.toOrderly.server hrequest hmay hr
  -- a server that has left accepts nobody
  have hgrows : Departed hs → Departed (⟨op, r⟩ :: hs) := by
    intro hd
    cases op with
    | connect fd address port => exact absurd hmay id
    | accept l =>
        obtain ⟨fd, hfd, -⟩ := hd
        rw [hmay.1] at hfd
        cases hfd
    | _ => exact hd.cons rfl
  have hkeeps : linked ⟨op, r⟩ = none → ∀ fd, endpoint (⟨op, r⟩ :: hs) = some fd →
      IsOpen (⟨op, r⟩ :: hs) fd ∨ ∃ e ∈ (⟨op, r⟩ :: hs : SysHistory), released e = some fd := by
    intro hlinked fd hfd
    rw [endpoint_cons_none hlinked] at hfd
    by_cases hreleased : released ⟨op, r⟩ = some fd
    · exact .inr ⟨_, List.mem_cons_self, hreleased⟩
    · rcases hj.anchored fd hfd with hopen | ⟨e, he, hclosed⟩
      · exact .inl (.inr ⟨hreleased, hopen⟩)
      · exact .inr ⟨e, List.mem_cons_of_mem _ he, hclosed⟩
  refine ⟨horderly, ?_, fun hsaw => hgrows (hj.saw hsaw), fun hhung => hgrows (hj.left hhung)⟩
  cases op with
  | connect fd address port => exact absurd hmay id
  | accept l =>
      intro fd hfd
      by_cases hneg : r.value < 0
      · exact hkeeps (if_pos hneg) fd hfd
      · -- the descriptor is new
        have hlinked : linked ⟨.accept l, r⟩ = some r.value := if_neg hneg
        rw [endpoint_cons_some hlinked] at hfd
        obtain rfl := Option.some.inj hfd
        exact .inl (.inl (if_neg hneg))
  | _ => exact hkeeps rfl

end

/-! ## The two programs -/

theorem remoteClose_keeps {client server : Platform} {packet : Packet}
    (hclient : client.Allocates PacketIo.maxFrame) (hserver : server.Allocates PacketIo.maxFrame)
    (hvalid : packet.isValid = true)
    {s : Pair Sys Sys.Res (Except Abort (Int × Printed)) (Except Abort Int)}
    (hs : ((between Loopback).machine (RemoteCloseClient.main client packet)
      (serverMain server)).Reachable s) :
    LeavesLast (wireFormat packet) s.leftHistory s.rightHistory ∧
      ∀ text, s.left = .ret (.ok (0, text)) → EndsWithClosure s.leftHistory := by
  have hrequest : packetFraming.IsFrame (wireFormat packet) :=
    wireFormat_isFrame ((Packet.isValid_iff packet).mp hvalid).2
  have hinitial : LeavesLast (wireFormat packet) [] [] :=
    ⟨.initial, fun _ hfd => (by cases hfd), fun ⟨_, he, _⟩ => (by cases he),
      fun ⟨_, hfd, _⟩ => (by cases hfd)⟩
  have hkeeps := Pair.sound hinitial (remoteCloseClient_lingering hclient hvalid)
    (serverMain_answering hserver) ?_ ?_ hs
  · refine ⟨hkeeps.inv, fun text hret => ?_⟩
    have hleft := hkeeps.left
    rw [hret] at hleft
    exact hleft.2 text rfl
  · intro hl hr op r hj hmay hanswer
    exact ⟨(joins_lingering hrequest).answers hl hr op r hj.toOrderly hmay hanswer,
      hj.client hrequest hmay hanswer⟩
  · intro hl hr op r hj hmay hanswer
    exact ⟨hanswer.1.1, hj.server hrequest hmay hanswer⟩

/-- **The client sees the server leave.** In the surroundings without faults, for every valid
packet that the client may send and in every interleaving: the client never leaves before the
server; no run is infinite; and where neither program can move, both have returned 0 and the
client has printed that the server closed the connection after a complete exchange, or the client
was refused because the server did not listen yet. The last system calls of a client that has
returned 0 are the `::recv` that found the end of the stream and the `::close` after it, so that
its later calls were answered without one. A client that is started when the server listens always
comes to see the server leave. -/
theorem remoteCloseClient_sees_close {client server : Platform} {packet : Packet}
    (hclient : client.Allocates PacketIo.maxFrame) (hserver : server.Allocates PacketIo.maxFrame)
    (hvalid : packet.isValid = true) :
    let M := (between Loopback).machine (RemoteCloseClient.main client packet) (serverMain server)
    (∀ s, M.Reachable s → (HungUp s.leftHistory → Departed s.rightHistory) ∧
      ∀ text, s.left = .ret (.ok (0, text)) → EndsWithClosure s.leftHistory) ∧
    (∀ run : ℕ → Pair Sys Sys.Res (Except Abort (Int × Printed)) (Except Abort Int),
      ∃ n, ∀ side, ¬ M.step (run n) side (run (n + 1))) ∧
    (∀ s, M.Reachable s → M.Stuck s → BothDone RemoteCloseClient.transcript packet s ∨
      ∃ text l k, s.left = .ret (.ok (1, text)) ∧ s.right = .call (.accept l) k ∧
        Refused s.leftHistory) ∧
    ∀ s, (M.guarded InTime).Reachable s → (M.guarded InTime).Stuck s →
      BothDone RemoteCloseClient.transcript packet s := by
  intro M
  have hrequest : packetFraming.IsFrame (wireFormat packet) :=
    wireFormat_isFrame ((Packet.isValid_iff packet).mp hvalid).2
  refine ⟨fun s hs => ?_, Pair.not_infinite, conversation_ends hserver hvalid
    (joins_lingering hrequest)
    (wp_mono (remoteCloseClient_lingering hclient hvalid) fun _ _ htold => htold.1)⟩
  obtain ⟨hlast, hclosure⟩ := remoteClose_keeps hclient hserver hvalid hs
  exact ⟨hlast.left, hclosure⟩

/-- The two programs as they are, on machines of different byte order. -/
theorem remoteCloseClient_sees_close_hello : ∃ s,
    (((between Loopback).machine (remoteCloseClientMain (.ample .Big 64))
      (serverMain (.ample .Little 64))).guarded InTime).Reachable s ∧
    BothDone RemoteCloseClient.transcript RemoteCloseClient.request s ∧
    EndsWithClosure s.leftHistory := by
  have hinitial : (((between Loopback).machine (remoteCloseClientMain (.ample .Big 64))
      (serverMain (.ample .Little 64))).guarded InTime).Reachable
      ⟨remoteCloseClientMain (.ample .Big 64), [], serverMain (.ample .Little 64), []⟩ :=
    ⟨_, [], rfl, .nil _⟩
  obtain ⟨s, hs, hstuck⟩ := Pair.exists_stuck hinitial
  have hbig : (Platform.ample .Big 64).Allocates PacketIo.maxFrame :=
    Platform.ample_allocates (by decide +kernel)
  have hlittle : (Platform.ample .Little 64).Allocates PacketIo.maxFrame :=
    Platform.ample_allocates (by decide +kernel)
  obtain ⟨hstates, -, -, hends⟩ := remoteCloseClient_sees_close hbig hlittle
    (show RemoteCloseClient.request.isValid = true from rfl)
  have hdone := hends s hs hstuck
  exact ⟨s, hs, hdone, (hstates s hs.of_guarded).2 _ hdone.client⟩

end PacketForge
