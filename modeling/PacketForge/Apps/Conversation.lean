import PacketForge.Apps.Answering

set_option autoImplicit false

/-! # A client and the server, in every interleaving

`asking` is the part of a client: it connects once, writes one request, and reads only when the
request is written. Any program that keeps to it can be run beside the server program.

* What is known about both histories is collected in `Sound`, which holds whatever goes wrong, and
  in `Orderly`, which holds as long as nothing does.
* `conversation_sound`: with any faults, what a client has read is a first part of the response to
  its request.
* `Orderly.end_of_stuck`: without faults, the two programs cannot block each other. Where neither
  can move, both have returned, or the client was refused because nobody listened yet.

## How the proofs go

The two programs are verified apart, each against its contract (`answering`, `asking`), and put
together by `Pair.sound`. So all that is proved here is about single calls:

1. A call that a contract permits keeps the joint invariant. What it does to the bytes is said
   once for each side (`asking_bytes`, `answering_bytes`), for both invariants.
2. Under the joint invariant the answers are those that the other contract relies on. For a client
   this is the soundness of what it reads: the bytes on the wire were written by the server, which
   says nothing but the answer to a request that the client has written itself.
3. Without faults nothing fails before the conversation is over (`asking_not_failed`,
   `answering_not_failed`): neither side closes while the other one has something to write or to
   read, so nobody finds the end of the stream too early and no connection is reset.

For progress, a state in which nobody moves is looked at. Only an accept or a receive can be
without an answer (`blocks_of_stuck`). If the client waits for bytes of the response, it has
written its request, so the server has something to read or to write; if the server waits for
bytes of the request, the client has not written all of them, and so it does not read.
-/

namespace PacketForge

open Interaction Common Network Protocol

/-! ## The part of the client

`Served` says of a history that nothing has gone wrong in it for the client, so that the exit code
of a client can be compared with it.
-/

/-- Nothing has gone wrong for a client that waits for `response`: no call failed, and the stream
did not end before the response was read. -/
def Served (response : List UInt8) : SysHistory → Prop
  | [] => True
  | e :: h => (failed e = true → sawPeerClose e = true ∧ input h = response) ∧ Served response h

/-- What a client does that sends `request` to a server that answers with `response`, and what it
relies on: the bytes that it reads are those of the response. -/
def asking (request response : List UInt8) : Contract Sys Sys.Res where
  may h op := match op with
    | .accept _ => False
    | .connect fd address port => endpoint h = none ∧ Silent h ∧ IsOpen h fd ∧ Served response h ∧
        address = SERVER_ADDRESS ∧ port = SERVER_PORT
    | .send fd data _ => endpoint h = some fd ∧ data ≠ [] ∧ output h ++ data = request
    | .recv fd n _ => endpoint h = some fd ∧ 0 < n ∧ output h = request
    | .close _ => Served response h → output h = request ∧ input h = response
    | _ => True
  answers h op r := Kernel h op r ∧
    match op, r with
    | .recv fd _ _, r => endpoint h = some fd → ∀ bytes, r = some bytes →
        bytes <+: response.drop (input h).length
    | _, _ => True

/-! ## What holds with any faults

The invariant is about bytes only. A fault can cut a transfer short, but cannot put other bytes on
the wire.
-/

/-- The bytes between a client that sends `request` and the server, whatever goes wrong. Each side
has read a first part of what the other one has written, the client has written a first part of
its request, and the server says nothing but the answer. -/
structure Sound (request : List UInt8) (hc hs : SysHistory) : Prop where
  toServer : input hs <+: output hc
  toClient : input hc <+: output hs
  asked : output hc <+: request
  speaks : Speaks hs

section

variable {request : List UInt8} {hc hs : SysHistory}

/-- A server that has read a frame from this client has read the request. -/
theorem Sound.input_eq (hj : Sound request hc hs) (hrequest : packetFraming.IsFrame request)
    (hframe : packetFraming.IsFrame (input hs)) : input hs = request :=
  hframe.eq_of_isPrefix hrequest (hj.toServer.trans hj.asked) List.prefix_rfl

theorem Sound.output_prefix (hj : Sound request hc hs) (hrequest : packetFraming.IsFrame request) :
    output hs <+: replyBytes request := by
  by_cases hnil : output hs = []
  · rw [hnil]
    exact List.nil_prefix
  · obtain ⟨hframe, hprefix⟩ := hj.speaks.answered hnil
    rwa [hj.input_eq hrequest hframe] at hprefix

/-- A client that has read all of the response had its request read. -/
theorem Sound.agree (hj : Sound request hc hs) (hrequest : packetFraming.IsFrame request)
    (hall : input hc = replyBytes request) (hne : replyBytes request ≠ []) :
    output hc = request ∧ input hs = request ∧ output hs = replyBytes request := by
  have houtput : output hs = replyBytes request := by
    refine (hj.output_prefix hrequest).eq_of_length_le ?_
    rw [← hall]
    exact hj.toClient.length_le
  have hinput := hj.input_eq hrequest (hj.speaks.answered (houtput ▸ hne)).1
  refine ⟨hj.asked.eq_of_length_le ?_, hinput, houtput⟩
  rw [← hinput]
  exact hj.toServer.length_le

/-- What one step of the client does to the bytes: it adds to what it has written, as the request
says, or to what it has read, as the stream says. -/
theorem asking_bytes {response : List UInt8} {op : Sys} {r : op.Res} (hj : Sound request hc hs)
    (hmay : (asking request response).may hc op) (hr : Wire hs hc op r) :
    output hc <+: output (⟨op, r⟩ :: hc) ∧ output (⟨op, r⟩ :: hc) <+: request ∧
      input (⟨op, r⟩ :: hc) <+: output hs := by
  have hother : linked ⟨op, r⟩ = none → (∀ fd, sent fd ⟨op, r⟩ = []) →
      output hc <+: output (⟨op, r⟩ :: hc) ∧ output (⟨op, r⟩ :: hc) <+: request ∧
        input (⟨op, r⟩ :: hc) <+: output hs := by
    intro hlinked hsent
    rw [output_cons_of_sent hlinked hsent]
    exact ⟨List.prefix_rfl, hj.asked, hr.input_prefix hj.toClient hlinked⟩
  cases op with
  | accept l => exact absurd hmay id
  | connect fd address port =>
      obtain ⟨hnone, hsilent, -⟩ := hmay
      cases hlinked : linked ⟨.connect fd address port, r⟩ with
      | none => exact hother hlinked fun _ => rfl
      | some fd' =>
          rw [output_linked hsilent hlinked rfl, input_linked hsilent hlinked rfl,
            output_of_none hnone]
          exact ⟨List.prefix_rfl, List.nil_prefix, List.nil_prefix⟩
  | send fd data flags =>
      obtain ⟨hend, -, hrequest⟩ := hmay
      have houtput : output (⟨.send fd data flags, r⟩ :: hc) = output hc ++ data.take r.toNat := by
        rw [output_cons rfl, hend, Option.elim_some, sent, if_pos rfl]
      refine ⟨?_, ?_, hr.input_prefix hj.toClient rfl⟩
      · rw [houtput]
        exact List.prefix_append _ _
      · rw [houtput, ← hrequest]
        exact (List.prefix_append_right_inj _).mpr (List.take_prefix _ _)
  | _ => exact hother rfl fun _ => rfl

/-- What one step of the server does to them. -/
theorem answering_bytes {op : Sys} {r : op.Res} (hj : Sound request hc hs)
    (hmay : answering.may hs op) (hr : Wire hc hs op r) :
    output hs <+: output (⟨op, r⟩ :: hs) ∧ input (⟨op, r⟩ :: hs) <+: output hc := by
  have hother : linked ⟨op, r⟩ = none →
      output hs <+: output (⟨op, r⟩ :: hs) ∧ input (⟨op, r⟩ :: hs) <+: output hc := by
    intro hlinked
    refine ⟨?_, hr.input_prefix hj.toServer hlinked⟩
    rw [output_cons hlinked]
    exact List.prefix_append _ _
  cases op with
  | connect fd address port => exact absurd hmay id
  | accept l =>
      obtain ⟨hnone, hsilent, -⟩ := hmay
      cases hlinked : linked ⟨.accept l, r⟩ with
      | none => exact hother hlinked
      | some fd' =>
          rw [output_linked hsilent hlinked rfl, input_linked hsilent hlinked rfl,
            output_of_none hnone]
          exact ⟨List.prefix_rfl, List.nil_prefix⟩
  | _ => exact hother rfl

theorem Sound.client {response : List UInt8} {op : Sys} {r : op.Res} (hj : Sound request hc hs)
    (hmay : (asking request response).may hc op) (hr : Wire hs hc op r) :
    Sound request (⟨op, r⟩ :: hc) hs := by
  obtain ⟨hgrows, hasked, hinput⟩ := asking_bytes hj hmay hr
  exact ⟨hj.toServer.trans hgrows, hinput, hasked, hj.speaks⟩

theorem Sound.server {op : Sys} {r : op.Res} (hj : Sound request hc hs)
    (hmay : answering.may hs op) (hr : Wire hc hs op r) : Sound request hc (⟨op, r⟩ :: hs) := by
  obtain ⟨hgrows, hinput⟩ := answering_bytes hj hmay hr
  exact ⟨hinput, hj.toClient.trans hgrows, hj.asked, hj.speaks.step hmay hr.1⟩

/-- The client is answered as it relies on. -/
theorem Sound.answers {op : Sys} {r : op.Res} (hj : Sound request hc hs)
    (hrequest : packetFraming.IsFrame request) (hr : Wire hs hc op r) :
    (asking request (replyBytes request)).answers hc op r := by
  refine ⟨hr.1, ?_⟩
  cases op with
  | recv fd n flags =>
      intro hend bytes hbytes
      have harriving := hr.2 hend bytes hbytes
      obtain ⟨rest, hrest⟩ := hj.output_prefix hrequest
      refine harriving.trans ⟨rest, ?_⟩
      rw [← hrest, arriving, List.drop_append_of_le_length hj.toClient.length_le]
  | _ => trivial

end

/-! ## What holds as long as nothing goes wrong

Here the order of the closes comes in, and the client that was refused.
-/

/-- The client tried to connect when nobody listened, which is the only thing that can go wrong
without faults. -/
def Refused (h : SysHistory) : Prop :=
  ∃ (fd : Int) (r : Ret), (⟨.connect fd SERVER_ADDRESS SERVER_PORT, r⟩ : SysEvent) ∈ h ∧ r.value < 0

/-- The state of a conversation without faults. To the bytes come the order of events and the
reasons for them: nothing has gone wrong on either side, except that a client that came too early
was refused; the server has a client only if the client has connected; and each side has closed
its end only after its part was complete. -/
structure Orderly (request : List UInt8) (hc hs : SysHistory) : Prop extends
    Sound request hc hs where
  smooth : Smooth hs
  served : endpoint hc ≠ none → Served (replyBytes request) hc
  accepted : endpoint hs ≠ none → endpoint hc ≠ none
  serverLeft : HungUp hs → Answered hs
  clientLeft : HungUp hc → output hc = request ∧ input hc = replyBytes request
  refused : ¬ Served (replyBytes request) hc → Refused hc

section

variable {request : List UInt8} {hc hs : SysHistory}

/-- A server that has left has read the request and written the response. -/
theorem Orderly.server_left (hj : Orderly request hc hs) (hrequest : packetFraming.IsFrame request)
    (hhung : HungUp hs) :
    input hs = request ∧ output hs = replyBytes request ∧ output hc = request := by
  obtain ⟨hframe, houtput⟩ := hj.serverLeft hhung
  have hinput := hj.input_eq hrequest hframe
  rw [hinput] at houtput
  refine ⟨hinput, houtput, hj.asked.eq_of_length_le ?_⟩
  rw [← hinput]
  exact hj.toServer.length_le

/-- Neither side resets the connection: the server has read all that the client wrote when it
closes, because the client writes no more than one frame. -/
theorem Orderly.not_reset_server (hj : Orderly request hc hs)
    (hrequest : packetFraming.IsFrame request) : ¬ Reset hs hc := by
  rintro ⟨hhung, hne⟩
  obtain ⟨hinput, -, houtput⟩ := hj.server_left hrequest hhung
  exact hne (hinput.trans houtput.symm)

theorem Orderly.output_eq_of_client_left (hj : Orderly request hc hs)
    (hrequest : packetFraming.IsFrame request) (hhung : HungUp hc) :
    output hs = replyBytes request := by
  refine (hj.output_prefix hrequest).eq_of_length_le ?_
  rw [← (hj.clientLeft hhung).2]
  exact hj.toClient.length_le

theorem Orderly.not_reset_client (hj : Orderly request hc hs)
    (hrequest : packetFraming.IsFrame request) : ¬ Reset hc hs := by
  rintro ⟨hhung, hne⟩
  exact hne ((hj.clientLeft hhung).2.trans (hj.output_eq_of_client_left hrequest hhung).symm)

/-- Without faults, only a `::connect` and the transfers can fail. -/
theorem not_failed_of_loopback {theirs h : SysHistory} {op : Sys} {r : op.Res}
    (hr : Loopback theirs h op r) (htransfers : transfersOn op = none)
    (hconnect : ∀ fd address port, op ≠ .connect fd address port) : failed ⟨op, r⟩ = false := by
  obtain ⟨-, hr⟩ := hr
  cases op with
  | send fd data flags => cases htransfers
  | recv fd size flags => cases htransfers
  | connect fd address port => exact absurd rfl (hconnect fd address port)
  | accept l => exact decide_eq_false (not_lt.mpr hr.1)
  | inet_pton address => exact decide_eq_false (not_not.mpr hr)
  | shutdownRequested => exact hr
  | close fd => rfl
  | cinGet => rfl
  | _ => exact decide_eq_false (not_lt.mpr hr)

/-- While the client has something to write or to read, the server has not left. -/
theorem asking_not_failed {op : Sys} {r : op.Res} (hj : Orderly request hc hs)
    (hrequest : packetFraming.IsFrame request)
    (hmay : (asking request (replyBytes request)).may hc op) (hloop : Loopback hs hc op r)
    (hconnect : ∀ fd address port, op ≠ .connect fd address port)
    (hfailed : failed ⟨op, r⟩ = true) :
    sawPeerClose ⟨op, r⟩ = true ∧ input hc = replyBytes request := by
  have hr := hloop.2
  cases op with
  | accept l => exact absurd hmay id
  | connect fd address port => exact absurd rfl (hconnect fd address port)
  | send fd data flags =>
      obtain ⟨hend, hne, hrest⟩ := hmay
      have hnot : ¬ HungUp hs := fun hhung => by
        obtain ⟨-, -, houtput⟩ := hj.server_left hrequest hhung
        rw [houtput] at hrest
        exact hne (List.append_right_eq_self.mp hrest)
      have hle : r ≤ 0 := of_decide_eq_true hfailed
      exact absurd (hr hend hnot hne) (not_lt.mpr hle)
  | recv fd n flags =>
      obtain ⟨hend, hn, -⟩ := hmay
      obtain ⟨hsome, hnil⟩ := hr hend (hj.not_reset_server hrequest)
      have hclose : r = some [] := by simpa [failed, hsome] using hfailed
      obtain ⟨harriving, hhung⟩ := (hnil hclose).resolve_left hn.ne'
      obtain ⟨-, houtput, -⟩ := hj.server_left hrequest hhung
      refine ⟨decide_eq_true hclose, ?_⟩
      rw [← houtput]
      exact hj.toClient.eq_of_length_le (List.drop_eq_nil_iff.mp harriving)
  | _ => exact absurd hfailed (by rw [not_failed_of_loopback hloop rfl nofun]; exact nofun)

theorem answering_not_failed {op : Sys} {r : op.Res} (hj : Orderly request hc hs)
    (hrequest : packetFraming.IsFrame request) (hmay : answering.may hs op)
    (hloop : Loopback hc hs op r) : failed ⟨op, r⟩ = false := by
  rw [← Bool.not_eq_true]
  intro hfailed
  have hr := hloop.2
  cases op with
  | connect fd address port => exact hmay
  | send fd data flags =>
      obtain ⟨hend, hne, hframe, hrest⟩ := hmay
      have hnot : ¬ HungUp hc := fun hhung => by
        rw [hj.output_eq_of_client_left hrequest hhung, hj.input_eq hrequest hframe] at hrest
        exact hne (List.append_right_eq_self.mp hrest)
      have hle : r ≤ 0 := of_decide_eq_true hfailed
      exact absurd (hr hend hnot hne) (not_lt.mpr hle)
  | recv fd n flags =>
      obtain ⟨hend, hn, hincomplete, -⟩ := hmay
      obtain ⟨hsome, hnil⟩ := hr hend (hj.not_reset_client hrequest)
      have hclose : r = some [] := by simpa [failed, hsome] using hfailed
      obtain ⟨harriving, hhung⟩ := (hnil hclose).resolve_left hn.ne'
      -- a client that has left has written its whole request
      have hinput : input hs = output hc :=
        hj.toServer.eq_of_length_le (List.drop_eq_nil_iff.mp harriving)
      rw [hinput, (hj.clientLeft hhung).1] at hincomplete
      exact hincomplete hrequest.complete
  | _ => exact absurd hfailed (by rw [not_failed_of_loopback hloop rfl nofun]; exact nofun)

theorem Orderly.client {op : Sys} {r : op.Res} (hj : Orderly request hc hs)
    (hrequest : packetFraming.IsFrame request)
    (hmay : (asking request (replyBytes request)).may hc op) (hr : Loopback hs hc op r) :
    Orderly request (⟨op, r⟩ :: hc) hs := by
  have hsound := hj.toSound.client hmay hr.1
  have hconnected : endpoint hc ≠ none → endpoint (⟨op, r⟩ :: hc) ≠ none := by
    rw [endpoint_cons]
    cases linked ⟨op, r⟩ with
    | none => rw [Option.none_or]; exact id
    | some fd => exact fun _ => Option.some_ne_none fd
  by_cases hconnect : ∃ fd address port, op = .connect fd address port
  · obtain ⟨fd, address, port, rfl⟩ := hconnect
    obtain ⟨hnone, -, hopen, hserved, rfl, rfl⟩ := hmay
    by_cases hneg : r.value < 0
    · -- refused
      have hlinked : linked ⟨.connect fd SERVER_ADDRESS SERVER_PORT, r⟩ = none := if_pos hneg
      have hend := (endpoint_cons_none (h := hc) hlinked).trans hnone
      refine ⟨hsound, hj.smooth, fun hne => absurd hend hne,
        fun hne => hconnected (hj.accepted hne), hj.serverLeft, ?_, ?_⟩
      · rintro ⟨fd', hfd', -⟩
        rw [hend] at hfd'
        cases hfd'
      · exact fun _ => ⟨fd, r, List.mem_cons_self, hneg⟩
    · have hlinked : linked ⟨.connect fd SERVER_ADDRESS SERVER_PORT, r⟩ = some fd := if_neg hneg
      have hserved' : Served (replyBytes request)
          (⟨.connect fd SERVER_ADDRESS SERVER_PORT, r⟩ :: hc) := by
        refine ⟨fun hfailed => absurd (of_decide_eq_true hfailed) hneg, hserved⟩
      refine ⟨hsound, hj.smooth, fun _ => hserved', fun hne => hconnected (hj.accepted hne),
        hj.serverLeft, fun hhung => absurd hhung (not_hungUp_of_linked hlinked ?_),
        fun hnot => absurd hserved' hnot⟩
      exact .inr ⟨nofun, hopen⟩
  · have hnot : ∀ fd address port, op ≠ .connect fd address port :=
      fun fd address port heq => hconnect ⟨fd, address, port, heq⟩
    have hlinked : linked ⟨op, r⟩ = none := by
      cases op with
      | accept l => exact absurd hmay id
      | connect fd address port => exact absurd rfl (hnot fd address port)
      | _ => rfl
    have hserves : Served (replyBytes request) hc →
        Served (replyBytes request) (⟨op, r⟩ :: hc) := fun hserved =>
      ⟨fun hfailed => asking_not_failed hj hrequest hmay hr hnot hfailed, hserved⟩
    refine ⟨hsound, hj.smooth, fun hne => ?_, fun hne => hconnected (hj.accepted hne),
      hj.serverLeft, fun hhung => ?_, fun hspoilt => ?_⟩
    · rw [endpoint_cons_none hlinked] at hne
      exact hserves (hj.served hne)
    · have hleft : output hc = request ∧ input hc = replyBytes request := by
        cases op with
        | close fd =>
            refine hmay (hj.served ?_)
            obtain ⟨fd', hfd', -⟩ := hhung
            rw [endpoint_cons_none hlinked] at hfd'
            rw [hfd']
            exact Option.some_ne_none fd'
        | accept l => exact absurd hmay id
        | connect fd address port => exact absurd rfl (hnot fd address port)
        | _ => exact hj.clientLeft (hhung.of_cons rfl rfl)
      -- what was written and read before has not changed
      refine ⟨hsound.asked.eq_of_length_le ?_, ?_⟩
      · rw [← hleft.1]
        exact (asking_bytes hj.toSound hmay hr.1).1.length_le
      · refine (hsound.toClient.trans (hj.output_prefix hrequest)).eq_of_length_le ?_
        rw [← hleft.2, input_cons hlinked, List.length_append]
        exact Nat.le_add_right _ _
    · obtain ⟨fd, r', hmem, hneg⟩ := hj.refused fun hserved => hspoilt (hserves hserved)
      exact ⟨fd, r', List.mem_cons_of_mem _ hmem, hneg⟩

theorem Orderly.server {op : Sys} {r : op.Res} (hj : Orderly request hc hs)
    (hrequest : packetFraming.IsFrame request) (hmay : answering.may hs op)
    (hr : Loopback hc hs op r) : Orderly request hc (⟨op, r⟩ :: hs) := by
  have hsound := hj.toSound.server hmay hr.1
  have hsmooth : Smooth (⟨op, r⟩ :: hs) :=
    List.forall_mem_cons.mpr ⟨answering_not_failed hj hrequest hmay hr, hj.smooth⟩
  by_cases haccept : ∃ l, op = .accept l
  · obtain ⟨l, rfl⟩ := haccept
    obtain ⟨-, hvalue, hnone, hwaits⟩ := hr
    have hlinked : linked ⟨.accept l, r⟩ = some r.value := if_neg (not_lt.mpr hvalue)
    refine ⟨hsound, hsmooth, hj.served, fun _ => hwaits, fun hhung => ?_, hj.clientLeft, hj.refused⟩
    exact absurd hhung (not_hungUp_of_linked hlinked (.inl (if_neg (not_lt.mpr hvalue))))
  · have hlinked : linked ⟨op, r⟩ = none := by
      cases op with
      | accept l => exact absurd ⟨l, rfl⟩ haccept
      | connect fd address port => exact absurd hmay id
      | _ => rfl
    refine ⟨hsound, hsmooth, hj.served, fun hne => ?_, fun hhung => ?_, hj.clientLeft, hj.refused⟩
    · rw [endpoint_cons_none hlinked] at hne
      exact hj.accepted hne
    · have hanswered : Answered hs := by
        cases op with
        | close fd => exact hmay hj.smooth
        | accept l => exact absurd ⟨l, rfl⟩ haccept
        | connect fd address port => exact absurd hmay id
        | _ => exact hj.serverLeft (hhung.of_cons rfl rfl)
      -- nothing more is read or written
      cases op with
      | recv fd n flags => exact absurd hanswered.1.complete hmay.2.2.1
      | send fd data flags =>
          obtain ⟨-, hne, -, hrest⟩ := hmay
          rw [hanswered.2] at hrest
          exact absurd (List.append_right_eq_self.mp hrest) hne
      | accept l => exact absurd ⟨l, rfl⟩ haccept
      | connect fd address port => exact absurd hmay id
      | _ =>
          rw [Answered, input_cons_of_taken hlinked fun _ => rfl,
            output_cons_of_sent hlinked fun _ => rfl]
          exact hanswered

end

/-! ## The conversation

The two invariants along a run, for any client that keeps to the contract.
-/

section

variable {α : Type} {p : SysM α} {request : List UInt8} {Q : α → SysHistory → Prop}
  {host : Platform}

/-- **With any faults.** In every reachable state of a client that keeps to `asking` beside the
server program, the two histories are `Sound`, and each program will still keep to its contract.
-/
theorem conversation_sound (hrequest : packetFraming.IsFrame request)
    (hp : wp (asking request (replyBytes request)) p Q [])
    (halloc : host.Allocates PacketIo.maxFrame) {s : Pair Sys Sys.Res α (Except Abort Int)}
    (hs : ((between Wire).machine p (serverMain host)).Reachable s) :
    Pair.Keeps (asking request (replyBytes request)) answering Q Finished (Sound request) s := by
  refine Pair.sound ?_ hp (serverMain_answering halloc) ?_ ?_ hs
  · exact ⟨List.prefix_rfl, List.prefix_rfl, List.nil_prefix, speaks_nil⟩
  · exact fun hl hr op r hj hmay hanswer => ⟨hj.answers hrequest hanswer, hj.client hmay hanswer⟩
  · exact fun hl hr op r hj hmay hanswer => ⟨hanswer.1, hj.server hmay hanswer⟩

theorem Orderly.initial : Orderly request [] [] where
  toServer := List.prefix_rfl
  toClient := List.prefix_rfl
  asked := List.nil_prefix
  speaks := speaks_nil
  smooth := List.forall_mem_nil _
  served hne := absurd rfl hne
  accepted hne := absurd rfl hne
  serverLeft := by
    rintro ⟨fd, hfd, -⟩
    cases hfd
  clientLeft := by
    rintro ⟨fd, hfd, -⟩
    cases hfd
  refused hnot := absurd trivial hnot

/-- A client that keeps to `C` does no more than `asking` permits, and relies on no more than what
holds as long as nothing goes wrong. So its contract may rely on more than that of a client under
faults. -/
structure Joins (request : List UInt8) (C : Contract Sys Sys.Res) : Prop where
  may : ∀ h op, C.may h op → (asking request (replyBytes request)).may h op
  answers : ∀ hl hr op r, Orderly request hl hr → C.may hl op → Loopback hr hl op r →
    C.answers hl op r

theorem joins_asking (hrequest : packetFraming.IsFrame request) :
    Joins request (asking request (replyBytes request)) where
  may _ _ hmay := hmay
  answers _ _ _ _ hj _ hanswer := hj.answers hrequest hanswer.1

theorem orderly_left (hrequest : packetFraming.IsFrame request) {C : Contract Sys Sys.Res}
    (hC : Joins request C) (hl hr : SysHistory) (op : Sys) (r : op.Res)
    (hj : Orderly request hl hr) (hmay : C.may hl op)
    (hanswer : (between Loopback).left hr hl op r) :
    C.answers hl op r ∧ Orderly request (⟨op, r⟩ :: hl) hr :=
  ⟨hC.answers hl hr op r hj hmay hanswer, hj.client hrequest (hC.may hl op hmay) hanswer⟩

theorem orderly_right (hrequest : packetFraming.IsFrame request) (hl hr : SysHistory) (op : Sys)
    (r : op.Res) (hj : Orderly request hl hr) (hmay : answering.may hr op)
    (hanswer : (between Loopback).right hl hr op r) :
    answering.answers hr op r ∧ Orderly request hl (⟨op, r⟩ :: hr) :=
  ⟨hanswer.1.1, hj.server hrequest hmay hanswer⟩

/-- Without faults, the two histories are `Orderly` in every reachable state, for any client that
joins the conversation. -/
theorem conversation_orderly (hrequest : packetFraming.IsFrame request) {C : Contract Sys Sys.Res}
    (hC : Joins request C) (hp : wp C p Q []) (halloc : host.Allocates PacketIo.maxFrame)
    {s : Pair Sys Sys.Res α (Except Abort Int)}
    (hs : ((between Loopback).machine p (serverMain host)).Reachable s) :
    Pair.Keeps C answering Q Finished (Orderly request) s :=
  Pair.sound .initial hp (serverMain_answering halloc) (orderly_left hrequest hC)
    (orderly_right hrequest) hs

/-- The conversation has come to its end: both programs have returned, each has read all that the
other one wrote, the request and the response to it, nothing has gone wrong, and both ends are
closed. -/
structure Concluded (request : List UInt8) (Q : α → SysHistory → Prop)
    (s : Pair Sys Sys.Res α (Except Abort Int)) : Prop where
  client : ∃ a, s.left = .ret a ∧ Q a s.leftHistory
  server : s.right = .ret (.ok (exitStatus request))
  served : Served (replyBytes request) s.leftHistory
  smooth : Smooth s.rightHistory
  asked : output s.leftHistory = request ∧ input s.rightHistory = request
  answered : output s.rightHistory = replyBytes request ∧
    input s.leftHistory = replyBytes request
  closed : HungUp s.leftHistory ∧ HungUp s.rightHistory

/-- The client was refused and has returned, and the server waits for another one. -/
structure TurnedAway (Q : α → SysHistory → Prop) (s : Pair Sys Sys.Res α (Except Abort Int)) :
    Prop where
  client : ∃ a, s.left = .ret a ∧ Q a s.leftHistory
  server : ∃ l k, s.right = .call (.accept l) k
  refused : Refused s.leftHistory
  unconnected : endpoint s.leftHistory = none

/-- A `::recv` that has no answer waits for bytes that the other side has not written. -/
theorem waits_of_stuck {theirs h : SysHistory} {fd : Int} {n : Nat} {flags : Int}
    (hstuck : ∀ r, ¬ Loopback theirs h (.recv fd n flags) r) :
    arriving theirs h = [] ∧ ¬ HungUp theirs := by
  have hnone : ¬ (arriving theirs h ≠ [] ∨ HungUp theirs ∨ Reset theirs h) := by
    intro hcan
    obtain ⟨r, hr⟩ := exists_loopback theirs h (.recv fd n flags) (fun _ heq => by cases heq)
      fun _ _ _ _ => hcan
    exact hstuck r hr
  rw [not_or, not_or, not_not] at hnone
  exact ⟨hnone.1, hnone.2.1⟩

/-- A call without an answer is an `::accept` or a `::recv`. -/
theorem blocks_of_stuck {theirs h : SysHistory} {op : Sys}
    (hstuck : ∀ r, ¬ Loopback theirs h op r) :
    (∃ l, op = .accept l) ∨ ∃ fd n flags, op = .recv fd n flags := by
  by_contra hother
  simp only [not_or, not_exists] at hother
  obtain ⟨r, hr⟩ := exists_loopback theirs h op (fun l heq => hother.1 l heq)
    fun fd n flags heq => absurd heq (hother.2 fd n flags)
  exact hstuck r hr

/-- **No deadlock.** Where neither program can move, the conversation has come to its end, or it
never began. -/
theorem Orderly.end_of_stuck (hrequest : packetFraming.IsFrame request) {C : Contract Sys Sys.Res}
    (hC : Joins request C) (hleaves : ∀ a h, Q a h → Served (replyBytes request) h → HungUp h)
    {s : Pair Sys Sys.Res α (Except Abort Int)}
    (hs : Pair.Keeps C answering Q Finished (Orderly request) s)
    (hstuck : ((between Loopback).machine p (serverMain host)).Stuck s) :
    Concluded request Q s ∨ TurnedAway Q s := by
  obtain ⟨left, hc, right, hs'⟩ := s
  obtain ⟨hj, hl, hr⟩ := hs
  have hj : Orderly request hc hs' := hj
  -- a server that waits for its client has not read its request, and the client has not left
  have hreads : ∀ {fd : Int} {n : Nat} {flags : Int} {k : _ → SysM (Except Abort Int)},
      right = .call (.recv fd n flags) k →
      endpoint hc ≠ none ∧ output hc ≠ request ∧ ¬ HungUp hc := by
    rintro fd n flags k rfl
    obtain ⟨⟨hend, -, hincomplete, -⟩, -⟩ := hr
    obtain ⟨harriving, hhung⟩ := waits_of_stuck fun r => Pair.not_right_of_stuck hstuck rfl r
    refine ⟨hj.accepted (by rw [hend]; exact Option.some_ne_none fd), fun houtput => ?_, hhung⟩
    have hinput : input hs' = output hc :=
      hj.toServer.eq_of_length_le (List.drop_eq_nil_iff.mp harriving)
    rw [hinput, houtput] at hincomplete
    exact hincomplete hrequest.complete
  cases left with
  | call op k =>
      -- the client waits for the response, which the server is about to write
      exfalso
      have hno : ∀ r, ¬ Loopback hs' hc op r := Pair.not_left_of_stuck hstuck rfl
      have hmay := hC.may _ _ hl.1
      rcases blocks_of_stuck hno with ⟨l, rfl⟩ | ⟨fd, n, flags, rfl⟩
      · exact hmay
      obtain ⟨hend, -, houtput⟩ := hmay
      obtain ⟨-, hhung⟩ := waits_of_stuck hno
      cases right with
      | ret b => exact hhung (hr.2 hj.smooth).2.1
      | call op' k' =>
          have hno' : ∀ r, ¬ Loopback hc hs' op' r := Pair.not_right_of_stuck hstuck rfl
          rcases blocks_of_stuck hno' with ⟨l, rfl⟩ | ⟨fd', n', flags', rfl⟩
          · obtain ⟨r, hr'⟩ := exists_loopback_accept l hr.1.1
              (by rw [hend]; exact Option.some_ne_none fd)
            exact hno' r hr'
          · exact (hreads rfl).2.1 houtput
  | ret a =>
      have hQ : Q a hc := hl
      cases right with
      | ret b =>
          obtain ⟨-, hfinished⟩ := hr
          obtain ⟨hanswered, hhung, hb⟩ := hfinished hj.smooth
          obtain ⟨hinput, houtput, hasked⟩ := hj.server_left hrequest hhung
          have hserved : Served (replyBytes request) hc := by
            obtain ⟨fd, hfd, -⟩ := hhung
            exact hj.served (hj.accepted (by rw [hfd]; exact Option.some_ne_none fd))
          have hleft := hleaves a hc hQ hserved
          refine .inl ⟨⟨a, rfl, hQ⟩, ?_, hserved, hj.smooth, ⟨hasked, hinput⟩,
            ⟨houtput, (hj.clientLeft hleft).2⟩, hleft, hhung⟩
          rw [← hinput]
          exact congrArg Prog.ret hb
      | call op' k' =>
          have hno' : ∀ r, ¬ Loopback hc hs' op' r := Pair.not_right_of_stuck hstuck rfl
          rcases blocks_of_stuck hno' with ⟨l, rfl⟩ | ⟨fd', n', flags', rfl⟩
          · have hunconnected : endpoint hc = none := by
              by_contra hsome
              obtain ⟨r, hr'⟩ := exists_loopback_accept l hr.1.1 hsome
              exact hno' r hr'
            refine .inr ⟨⟨a, rfl, hQ⟩, ⟨l, k', rfl⟩, hj.refused fun hserved => ?_, hunconnected⟩
            obtain ⟨fd, hfd, -⟩ := hleaves a hc hQ hserved
            rw [hunconnected] at hfd
            cases hfd
          · obtain ⟨hconnected, -, hhung⟩ := hreads rfl
            exact absurd (hleaves a hc hQ (hj.served hconnected)) hhung

end

/-! ## A client that comes in time

A server that listens goes on listening until it has its client, so such a client is not refused.
-/

/-- The condition on a run in which the client is started when the server listens: the first step
of the client is taken in such a state. Nothing is asked of the later ones. -/
def InTime {α β : Type} (s : Pair Sys Sys.Res α β) (side : Side) : Prop :=
  side = .left → s.leftHistory = [] → Listens s.rightHistory SERVER_ADDRESS SERVER_PORT

theorem Refused.not_served {h : SysHistory} (hr : Refused h) (response : List UInt8) :
    ¬ Served response h := by
  obtain ⟨fd, r, hmem, hneg⟩ := hr
  induction h with
  | nil => cases hmem
  | cons e h ih =>
      rintro ⟨hfailed, hserved⟩
      rcases List.mem_cons.mp hmem with rfl | hmem
      · exact Bool.false_ne_true (hfailed (decide_eq_true hneg)).1
      · exact ih hmem hserved

section

variable {α : Type} {p : SysM α} {request : List UInt8} {Q : α → SysHistory → Prop}
  {host : Platform} {C : Contract Sys Sys.Res}

/-- The invariant of a conversation whose client came in time: it is connected, or the server
still listens for it, and nothing has gone wrong. -/
structure Welcome (C : Contract Sys Sys.Res) (request : List UInt8) (Q : α → SysHistory → Prop)
    (s : Pair Sys Sys.Res α (Except Abort Int)) : Prop extends
    Pair.Keeps C answering Q Finished (Orderly request) s where
  listens : s.leftHistory ≠ [] →
    Listens s.rightHistory SERVER_ADDRESS SERVER_PORT ∨ endpoint s.leftHistory ≠ none
  served : Served (replyBytes request) s.leftHistory

theorem Welcome.step (hrequest : packetFraming.IsFrame request) (hC : Joins request C)
    {s s' : Pair Sys Sys.Res α (Except Abort Int)} {side : Side} (hw : Welcome C request Q s)
    (hin : InTime s side) (hstep : Pair.Step (between Loopback) s side s') :
    Welcome C request Q s' := by
  have hkeeps := hw.toKeeps.step (orderly_left hrequest hC) (orderly_right hrequest) hstep
  have hj := hw.inv
  cases hstep with
  | @left op k hl hr q r hanswer =>
      have hmay := hC.may _ _ hw.left.1
      have hlistens : Listens hr SERVER_ADDRESS SERVER_PORT ∨ endpoint hl ≠ none := by
        by_cases hnil : hl = []
        · exact .inl (hin rfl hnil)
        · exact hw.listens hnil
      refine ⟨hkeeps, fun _ => hlistens.imp_right fun hsome => ?_, fun hfailed => ?_, hw.served⟩
      · rw [endpoint_cons]
        cases linked ⟨op, r⟩ with
        | none => rwa [Option.none_or]
        | some fd => exact Option.some_ne_none fd
      · refine asking_not_failed hj hrequest hmay hanswer ?_ hfailed
        rintro fd address port rfl
        -- somebody listens, so that the client is not refused
        obtain ⟨hnone, -, -, -, rfl, rfl⟩ := hmay
        have hvalue : 0 ≤ r.value := hanswer.2.mpr (hlistens.resolve_right (not_not.mpr hnone))
        exact absurd (of_decide_eq_true hfailed) (not_lt.mpr hvalue)
  | @right op k hl hr q r hanswer =>
      obtain ⟨hmay, -⟩ := hw.right
      refine ⟨hkeeps, fun hne => ?_, hw.served⟩
      by_cases hclose : ∃ fd, op = .close fd
      · -- a server that closes something has answered the client
        obtain ⟨fd, rfl⟩ := hclose
        have hj : Orderly request hl hr := hj
        obtain ⟨hframe, -⟩ := hmay hj.smooth
        exact .inr (hj.accepted (endpoint_ne_none_of_input hframe.ne_nil))
      · refine (hw.listens hne).imp_left fun hlistens => hlistens.cons ?_
        cases op with
        | close fd => exact absurd ⟨fd, rfl⟩ hclose
        | _ => rfl

theorem welcome (hrequest : packetFraming.IsFrame request) (hC : Joins request C)
    (hp : wp C p Q [])
    (halloc : host.Allocates PacketIo.maxFrame) {s : Pair Sys Sys.Res α (Except Abort Int)}
    (hs : (((between Loopback).machine p (serverMain host)).guarded InTime).Reachable s) :
    Welcome C request Q s := by
  refine Machine.invariant (Welcome C request Q) ?_ ?_ hs
  · rintro s rfl
    exact ⟨⟨.initial, hp, serverMain_answering halloc⟩, fun hne => absurd rfl hne, trivial⟩
  · exact fun s side s' hw hstep => hw.step hrequest hC hstep.1 hstep.2

/-- **A client that comes in time is served.** Where neither program can move, the conversation
has come to its end; that it was refused is excluded. -/
theorem Welcome.concluded (hrequest : packetFraming.IsFrame request) (hC : Joins request C)
    (hleaves : ∀ a h, Q a h → Served (replyBytes request) h → HungUp h)
    {s : Pair Sys Sys.Res α (Except Abort Int)} (hw : Welcome C request Q s)
    (hstuck : (((between Loopback).machine p (serverMain host)).guarded InTime).Stuck s) :
    Concluded request Q s := by
  have hright : ∀ s', ¬ Pair.Step (between Loopback) s .right s' :=
    fun s' hstep => hstuck .right s' ⟨nofun, hstep⟩
  by_cases hin : InTime s .left
  · have hstuck' : ((between Loopback).machine p (serverMain host)).Stuck s := by
      intro side s' hstep
      cases side with
      | left => exact hstuck .left s' ⟨hin, hstep⟩
      | right => exact hright s' hstep
    rcases Orderly.end_of_stuck hrequest hC hleaves hw.toKeeps hstuck' with hend | hend
    · exact hend
    · exact absurd hw.served (hend.refused.not_served _)
  · -- before the client is started, the server goes on until it listens
    exfalso
    obtain ⟨left, hl, right, hr⟩ := s
    obtain ⟨-, hnil, hnot⟩ : Side.left = Side.left ∧ hl = [] ∧
        ¬ Listens hr SERVER_ADDRESS SERVER_PORT := by
      simpa [InTime] using hin
    subst hnil
    have hj : Orderly request [] hr := hw.inv
    have hunconnected : endpoint hr = none := by
      by_contra hsome
      exact hj.accepted hsome rfl
    cases right with
    | ret b =>
        obtain ⟨fd, hfd, -⟩ := ((hw.right : Finished b hr).2 hj.smooth).2.1
        rw [hunconnected] at hfd
        cases hfd
    | call op k =>
        have hmay : answering.may hr op := hw.right.1
        have hno : ∀ r, ¬ Loopback [] hr op r := fun r hanswer => hright _ (.right r hanswer)
        rcases blocks_of_stuck hno with ⟨l, rfl⟩ | ⟨fd, n, flags, rfl⟩
        · exact hnot hmay.2.2
        · have hend : endpoint hr = some fd := hmay.1
          rw [hunconnected] at hend
          cases hend

end

end PacketForge
