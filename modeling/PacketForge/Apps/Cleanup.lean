import PacketForge.Apps.ServerMain
import PacketForge.Protocol.Exchange

set_option autoImplicit false

/-! # How the server program ends

The paths through `main` lead to one cleanup. `serverMain_cleans_up` says what the program has
done when it reaches its return statement, whatever the system calls return and whenever the
shutdown flag is set: which descriptors it has closed and in which order, what its exit code
means, and that it did not use the network any more once it had seen the flag.

## How the proofs go

* What the exit code stands for (`EndsWell`) is defined by the history: a check saw the flag, the
  client closed too early, or it got all of the response that the dispatcher makes for what it
  sent. The code keeps none of this; it sets a variable in each of its branches. The proof
  compares the two at each of them.
* What happened to the descriptors is a list (`uses`), and a run that is in order has one of
  three: `Tidy`. Each part of the program is described by the list it finds and the list it
  leaves.
* That the network is left alone after the flag was seen is a contract (`heeding`), and so holds
  of every call.
* The walk has four parts: the start and the accept (`Untouched`: no bytes, no flag), the exchange
  (`Exchanging`, and `Left` for its ends), the scope around it (`ScopeEnds`, with what remains to
  be closed), and the cleanup. `Status.cons` says that the calls after the exchange do not change
  what the exit code stands for.

Only an allocation can leave `main` by an exception; it is kept as a way to end throughout.
-/

namespace PacketForge

open Interaction Common Network Protocol

/-! ## The return statement -/

namespace ServerMain

/-- `main` up to its return statement: the exit code and the server. -/
def untilReturn (host : Platform) : SysM (Except Abort (Int × Server)) := do
  let r ← scope host
  match r with
  | .error e => pure (.error e)
  | .ok (exitCode, server, transport) => do
    match transport with
    | none => pure ()
    | some transport => do
      let connection ← transport.connection.disconnect
      Transport.destruct ⟨connection⟩
    let server ← if server.isRunning then server.stop else pure server
    pure (.ok (exitCode, server))

/-- The rest of `main`: the destructor of the server. -/
def leave : Except Abort (Int × Server) → SysM (Except Abort Int)
  | .error e => pure (.error e)
  | .ok (exitCode, server) => do
    server.destruct
    pure (.ok exitCode)

end ServerMain

theorem serverMain_eq (host : Platform) :
    serverMain host = ServerMain.untilReturn host >>= ServerMain.leave := by
  rw [serverMain, ServerMain.untilReturn, bind_assoc]
  refine bind_congr fun r => ?_
  rcases r with e | ⟨exitCode, server, transport⟩
  · rfl
  · cases hrunning : server.isRunning
    all_goals
      cases transport
      all_goals
        simp only [ServerMain.cleanup, hrunning, Bool.false_eq_true, if_false, if_true, bind_assoc,
          pure_bind]
        rfl

/-! ## What happened

The definitions that the result is stated with. All of them are about the history.
-/

/-- A shutdown check saw the flag. -/
def ShutdownSeen (h : SysHistory) : Prop := (⟨.shutdownRequested, true⟩ : SysEvent) ∈ h

/-- The client closed before it had completed its first frame. -/
def PeerClosed (h : SysHistory) : Prop :=
  ∃ fd n, Accepted h fd ∧ (⟨.recv fd n 0, some []⟩ : SysEvent) ∈ h ∧
    ¬ packetFraming.Complete (consumed fd h)

/-- The client got all of the response that the dispatcher makes for its request. -/
def Responded (host : Platform) (h : SysHistory) : Prop :=
  ∃ fd request, Accepted h fd ∧ Decoder.decode host (consumed fd h) = .ok request ∧
    Encoder.encode host (OpcodeDispatcher.dispatch request).2 = .ok (written fd h)

/-- What the exit code 0 stands for: the program was asked to stop, or the client closed before it
had completed its first frame, or it got all of the response of the dispatcher. -/
def EndsWell (host : Platform) (h : SysHistory) : Prop :=
  ShutdownSeen h ∨ PeerClosed h ∨ Responded host h

/-- The exit code tells how the program ended: it is 0 if the history is one of those of
`EndsWell`, and 1 if it is not. -/
def Status (host : Platform) (exitCode : Int) (h : SysHistory) : Prop :=
  (exitCode = 0 ∧ EndsWell host h) ∨ (exitCode = 1 ∧ ¬ EndsWell host h)

/-- What happens to a descriptor of the program. The listening one comes from `::socket`, that of
the client from `::accept`. -/
inductive Use where
  | socket (fd : Int)
  | accepted (fd : Int)
  | closed (fd : Int)
  deriving DecidableEq, Repr

def useOf : SysEvent → Option Use
  | ⟨.socket, r⟩ => if r.value < 0 then none else some (.socket r.value)
  | ⟨.accept _, r⟩ => if r.value < 0 then none else some (.accepted r.value)
  | ⟨.close fd, _⟩ => some (.closed fd)
  | _ => none

/-- What happened to the descriptors of the program, in order: those that were obtained, by
`::socket` or `::accept`, and those that were closed. -/
def uses : SysHistory → List Use
  | [] => []
  | e :: h => uses h ++ (useOf e).toList

/-- Every descriptor that was obtained was closed once, that of the client before the listening
one. -/
inductive Tidy : List Use → Prop
  | nothing : Tidy []
  | server (listening : Int) : Tidy [.socket listening, .closed listening]
  | client (listening client : Int) : listening ≠ client →
      Tidy [.socket listening, .accepted client, .closed client, .closed listening]

/-- The contract of a program that leaves the network alone once it has seen the flag: from then
on it neither transfers nor accepts. Closing and asking again is permitted. -/
def heeding : Contract Sys Sys.Res where
  may h op := ShutdownSeen h → transfersOn op = none ∧ ∀ fd, op ≠ .accept fd
  answers := Kernel

section

variable {host : Platform} {h : SysHistory} {e : SysEvent}

theorem uses_cons_none (he : useOf e = none) : uses (e :: h) = uses h := by
  rw [uses, he, Option.toList_none, List.append_nil]

theorem uses_cons_some {use : Use} (he : useOf e = some use) : uses (e :: h) = uses h ++ [use] := by
  rw [uses, he]
  rfl

@[simp] theorem uses_checked (seen : Bool) :
    uses (⟨.shutdownRequested, seen⟩ :: h) = uses h := uses_cons_none rfl

/-- A listening socket that was not closed is open. -/
theorem isOpen_of_uses {l : Int} (hu : uses h = [.socket l]) : IsOpen h l := by
  induction h with
  | nil => cases hu
  | cons e h ih =>
      cases he : useOf e with
      | none =>
          rw [uses_cons_none he] at hu
          refine .inr ⟨fun hreleased => ?_, ih hu⟩
          unfold released at hreleased
          split at hreleased
          · cases he
          · cases hreleased
      | some use =>
          rw [uses_cons_some he] at hu
          obtain ⟨-, hlast⟩ := List.append_inj' (hu.trans (List.nil_append _).symm) rfl
          obtain rfl := List.singleton_inj.mp hlast
          left
          unfold useOf at he
          split at he
          · split_ifs at he with hneg
            cases he
            exact if_neg hneg
          · split_ifs at he
            cases he
          · cases he
          · cases he

end

/-! ## Before the exchange

Nothing has been transferred here, so the program has only descriptors to answer for.
-/

/-- The calls of a program that transfers nothing and does not look at the flag. -/
def preparing : Contract Sys Sys.Res where
  may _ op := transfersOn op = none ∧ op ≠ .shutdownRequested
  answers := Kernel

/-- The program has not done anything yet that its exit code could depend on: nothing was
transferred, and no check saw the flag. -/
structure Untouched (h : SysHistory) : Prop where
  unseen : ¬ ShutdownSeen h
  silent : ∀ e ∈ h, transfersOn e.op = none

section

variable {h : SysHistory}

theorem Untouched.cons {e : SysEvent} (hu : Untouched h) (he : e ≠ ⟨.shutdownRequested, true⟩)
    (hsilent : transfersOn e.op = none) : Untouched (e :: h) where
  unseen hseen := (List.mem_cons.mp hseen).elim (fun heq => he heq.symm) hu.unseen
  silent := List.forall_mem_cons.mpr ⟨hsilent, hu.silent⟩

theorem Untouched.transferred (hu : Untouched h) (fd : Int) :
    written fd h = [] ∧ consumed fd h = [] := by
  obtain ⟨-, hsilent⟩ := hu
  induction h with
  | nil => exact ⟨rfl, rfl⟩
  | cons e h ih =>
      obtain ⟨he, hrest⟩ := List.forall_mem_cons.mp hsilent
      obtain ⟨hwritten, hconsumed⟩ := ih hrest
      rw [written_cons, consumed_cons, hwritten, hconsumed]
      obtain ⟨op, r⟩ := e
      cases op <;> first | exact ⟨rfl, rfl⟩ | cases he

theorem wp_preparing {α : Type} {p : SysM α} {Q : α → SysHistory → Prop}
    (hp : wp preparing p Q h) (hu : Untouched h) :
    wp heeding p (fun a h' => Q a h' ∧ Untouched h') h :=
  wp_invariant Untouched hu hp (fun _ _ hu _ hseen => absurd hseen hu.unseen)
    (fun _ _ _ hu hmay hr => ⟨hr, hu.cons (fun heq => hmay.2 (congrArg Event.op heq)) hmay.1⟩)

/-- The failures of `start` close the socket. -/
theorem startFailed_prepares {l : Int} (hl : 0 ≤ l) {error : Error} (herror : error.ok = false)
    (hu : uses h = [.socket l]) :
    wp preparing (Server.startFailed ⟨l⟩ false error)
      (fun r h' => r.1.ok = false ∧ r.2 = Server.new ∧ Tidy (uses h')) h := by
  have hne : l ≠ -1 := by omega
  rw [Server.startFailed, Socket.close, if_pos hne]
  refine ⟨⟨rfl, Sys.noConfusion⟩, fun r _ => ⟨herror, rfl, ?_⟩⟩
  rw [uses_cons_some rfl, hu]
  exact .server l

theorem bind_prepares {socket : Socket} (hopen : socket.isOpen = true) (address : String)
    (port : UInt16) :
    wp preparing (socket.bind address port) (fun r h' => r.2 = socket ∧ uses h' = uses h) h := by
  unfold Socket.bind
  rw [if_neg (by rw [hopen]; exact Bool.false_ne_true)]
  refine ⟨⟨rfl, Sys.noConfusion⟩, fun reuse _ => ?_⟩
  have hreuse : uses (⟨.setsockopt socket.socket, reuse⟩ :: h) = uses h := uses_cons_none rfl
  show wp _ (if reuse.value < 0 then _ else _) _ _
  split_ifs
  · exact ⟨rfl, hreuse⟩
  refine ⟨⟨rfl, Sys.noConfusion⟩, fun parsed _ => ?_⟩
  show wp _ (if parsed ≠ 1 then _ else _) _ _
  split_ifs
  · exact ⟨rfl, (uses_cons_none rfl).trans hreuse⟩
  refine ⟨⟨rfl, Sys.noConfusion⟩, fun r _ => ?_⟩
  show wp _ (if r.value < 0 then _ else _) _ _
  split_ifs
  · exact ⟨rfl, (uses_cons_none rfl).trans ((uses_cons_none rfl).trans hreuse)⟩
  · exact ⟨rfl, (uses_cons_none rfl).trans ((uses_cons_none rfl).trans hreuse)⟩

theorem listen_prepares (socket : Socket) (backlog : Int) :
    wp preparing (socket.listen backlog) (fun _ h' => uses h' = uses h) h := by
  unfold Socket.listen
  split_ifs
  · rfl
  · rfl
  refine ⟨⟨rfl, Sys.noConfusion⟩, fun r _ => ?_⟩
  show wp _ (if r.value < 0 then _ else _) _ _
  split_ifs
  · exact uses_cons_none rfl
  · exact uses_cons_none rfl

/-- `start` obtains one descriptor, or has closed it again. -/
theorem start_prepares (address : String) (port : UInt16) :
    wp preparing (Server.new.start address port)
      (fun r h' => (r.1.ok = true ∧ ∃ l sin_port, 0 ≤ l ∧ r.2 = ⟨⟨l⟩, true, sin_port⟩ ∧
          uses h' = [.socket l]) ∨
        (r.1.ok = false ∧ r.2 = Server.new ∧ Tidy (uses h'))) [] := by
  refine ⟨⟨rfl, Sys.noConfusion⟩, fun created hl => ?_⟩
  obtain ⟨l, strerror⟩ := created
  show wp _ ((if l = -1 then _ else _ : SysM (Error × Socket)).bind _) _ _
  by_cases hfail : l = -1
  · subst hfail
    exact .inr ⟨rfl, rfl, .nothing⟩
  rw [if_neg hfail]
  have hl : 0 ≤ l := (hl.resolve_left hfail).1
  have hu : uses [(⟨.socket, ⟨l, strerror⟩⟩ : SysEvent)] = [.socket l] :=
    uses_cons_some (if_neg (not_lt.mpr hl))
  have hopen : (⟨l⟩ : Socket).isOpen = true := (Socket.isOpen_iff _).mpr hfail
  -- each failure from here on closes the socket
  have hfailed : ∀ {error : Error} {h : SysHistory}, error.ok = false → uses h = [.socket l] →
      wp preparing (Server.startFailed ⟨l⟩ false error)
        (fun r h' => (r.1.ok = true ∧ ∃ l sin_port, 0 ≤ l ∧ r.2 = ⟨⟨l⟩, true, sin_port⟩ ∧
            uses h' = [.socket l]) ∨
          (r.1.ok = false ∧ r.2 = Server.new ∧ Tidy (uses h'))) h :=
    fun herror hu => wp_mono (startFailed_prepares hl herror hu) fun _ _ hr => .inr hr
  show wp _ (((⟨l⟩ : Socket).bind address port).bind _) _ _
  refine wp_seq (bind_prepares hopen address port) ?_
  rintro ⟨error, socket⟩ h₁ ⟨rfl, hu₁⟩
  show wp _ (if !error.ok then _ else _) _ _
  cases hok : error.ok with
  | false => exact hfailed hok (hu₁.trans hu)
  | true =>
  show wp _ (((⟨l⟩ : Socket).listen SOMAXCONN).bind _) _ _
  refine wp_seq (listen_prepares _ SOMAXCONN) ?_
  intro error h₂ hu₂
  show wp _ (if !error.ok then _ else _) _ _
  cases hok : error.ok with
  | false => exact hfailed hok (hu₂.trans (hu₁.trans hu))
  | true =>
  refine ⟨⟨rfl, Sys.noConfusion⟩, fun reported _ => ?_⟩
  have hu₃ := (uses_cons_none (e := ⟨.getsockname l, reported⟩) rfl).trans
    (hu₂.trans (hu₁.trans hu))
  show wp _ (if reported.1.value < 0 then _ else _) _ _
  split_ifs
  · exact hfailed rfl hu₃
  · exact .inl ⟨rfl, l, reported.2, hl, rfl, hu₃⟩

theorem accept_prepares {l : Int} (hl : 0 ≤ l) (port : UInt16) (hu : uses h = [.socket l]) :
    wp preparing (Server.accept ⟨⟨l⟩, true, port⟩ Connection.new)
      (fun r h' => (r.1.ok = true ∧ ∃ c, 0 ≤ c ∧ l ≠ c ∧ r.2 = ⟨⟨c⟩, true⟩ ∧ Accepted h' c ∧
          uses h' = [.socket l, .accepted c]) ∨
        (r.1.ok = false ∧ r.2 = Connection.new ∧ uses h' = [.socket l])) h := by
  have hopen : (⟨l⟩ : Socket).isOpen = true := (Socket.isOpen_iff _).mpr (by
    show l ≠ -1
    omega)
  unfold Server.accept Connection.accept Socket.accept
  simp only [hopen, Bool.not_true, Bool.false_eq_true, if_false, Connection.new]
  refine ⟨⟨rfl, Sys.noConfusion⟩, fun r hc => ?_⟩
  obtain ⟨c, strerror⟩ := r
  show wp _ ((if c < 0 then _ else _ : SysM (Error × Socket)).bind _) _ _
  by_cases hneg : c < 0
  · rw [if_pos hneg]
    have hnone : useOf ⟨.accept l, ⟨c, strerror⟩⟩ = none := if_pos hneg
    exact .inr ⟨rfl, rfl, (uses_cons_none hnone).trans hu⟩
  rw [if_neg hneg]
  have hnew : ¬ IsOpen h c := (hc.resolve_left (by show c ≠ -1; omega)).2
  refine .inl ⟨rfl, c, not_lt.mp hneg, ?_, rfl, ⟨l, _, List.mem_cons_self, rfl⟩, ?_⟩
  · rintro rfl
    exact hnew (isOpen_of_uses hu)
  · rw [uses_cons_some (show useOf ⟨.accept l, ⟨c, strerror⟩⟩ = some (.accepted c)
      from if_neg hneg), hu]
    rfl

end

/-! ## The exchange

`Exchanging` is the invariant of the exchange: the bytes that were read and written, and the
descriptors. Every branch of the code ends in a lemma about its exit code.
-/

/-- The state of the exchange. The program has read `bytes` on `c`, the accepted descriptor, and
written `answer` there, and nothing anywhere else; no check saw the flag, and the stream has not
ended; `us` is what happened to the descriptors. -/
structure Exchanging (c : Int) (us : List Use) (bytes answer : List UInt8) (h : SysHistory) :
    Prop where
  unseen : ¬ ShutdownSeen h
  goesOn : ∀ e ∈ h, sawPeerClose e = false
  accepted : Accepted h c
  uses : uses h = us
  written : Wrote c answer h
  consumed : ∀ fd, consumed fd h = if fd = c then bytes else []

section

variable {host : Platform} {h : SysHistory} {c : Int} {us : List Use} {bytes answer : List UInt8}

theorem Untouched.exchanging (hu : Untouched h) (haccepted : Accepted h c) (hus : uses h = us) :
    Exchanging c us [] [] h where
  unseen := hu.unseen
  goesOn e he := by
    have hsilent := hu.silent e he
    obtain ⟨op, r⟩ := e
    cases op <;> first | rfl | cases hsilent
  accepted := haccepted
  uses := hus
  written fd := by rw [(hu.transferred fd).1, ite_self]
  consumed fd := by rw [(hu.transferred fd).2, ite_self]

/-- A call that does not concern the stream. -/
theorem Exchanging.cons {e : SysEvent} (hx : Exchanging c us bytes answer h)
    (hseen : e ≠ ⟨.shutdownRequested, true⟩) (hclose : sawPeerClose e = false)
    (huse : useOf e = none) (hsilent : ∀ fd, sent fd e = [] ∧ taken fd e = []) :
    Exchanging c us bytes answer (e :: h) where
  unseen hmem := (List.mem_cons.mp hmem).elim (fun heq => hseen heq.symm) hx.unseen
  goesOn := List.forall_mem_cons.mpr ⟨hclose, hx.goesOn⟩
  accepted := hx.accepted.mono (List.suffix_cons _ _)
  uses := (uses_cons_none huse).trans hx.uses
  written fd := by rw [written_cons, (hsilent fd).1, List.append_nil, hx.written fd]
  consumed fd := by rw [consumed_cons, (hsilent fd).2, List.append_nil, hx.consumed fd]

theorem Exchanging.cons_send (hx : Exchanging c us bytes answer h) (rest : List UInt8) (r : Int) :
    Exchanging c us bytes (answer ++ rest.take r.toNat) (⟨.send c rest 0, r⟩ :: h) where
  unseen hmem := (List.mem_cons.mp hmem).elim (fun heq => by cases heq) hx.unseen
  goesOn := List.forall_mem_cons.mpr ⟨rfl, hx.goesOn⟩
  accepted := hx.accepted.mono (List.suffix_cons _ _)
  uses := (uses_cons_none rfl).trans hx.uses
  written fd := by
    rw [written_cons, hx.written fd, sent]
    split_ifs with hfd hc hc
    · rfl
    · exact absurd hfd.symm hc
    · exact absurd hc.symm hfd
    · rfl
  consumed fd := (List.append_nil _).trans (hx.consumed fd)

theorem Exchanging.cons_recv (hx : Exchanging c us bytes answer h) {n : Nat}
    {r : Option (List UInt8)} (hr : r ≠ some []) :
    Exchanging c us (bytes ++ r.getD []) answer (⟨.recv c n 0, r⟩ :: h) where
  unseen hmem := (List.mem_cons.mp hmem).elim (fun heq => by cases heq) hx.unseen
  goesOn := List.forall_mem_cons.mpr ⟨decide_eq_false hr, hx.goesOn⟩
  accepted := hx.accepted.mono (List.suffix_cons _ _)
  uses := (uses_cons_none rfl).trans hx.uses
  written fd := (List.append_nil _).trans (hx.written fd)
  consumed fd := by
    rw [consumed_cons, hx.consumed fd, taken]
    split_ifs with hfd hc hc
    · rfl
    · exact absurd hfd.symm hc
    · exact absurd hc.symm hfd
    · rfl

theorem decode_nil (host : Platform) (p : Packet) : Decoder.decode host [] ≠ .ok p := by
  rw [Decoder.decode, if_pos (show ([] : List UInt8).length < HEADER_SIZE by decide)]
  exact fun heq => by cases heq

theorem encode_ne_nil (host : Platform) (p : Packet) : Encoder.encode host p ≠ .ok [] :=
  fun heq => wireFormat_ne_nil p (encode_eq_ok heq).2.symm

/-- As long as the response is not complete, the exchange has not ended well. -/
theorem Exchanging.not_endsWell (hx : Exchanging c us bytes answer h)
    (hanswer : ∀ request, Decoder.decode host bytes = .ok request →
      Encoder.encode host (OpcodeDispatcher.dispatch request).2 ≠ .ok answer) :
    ¬ EndsWell host h := by
  rintro (hseen | ⟨fd, n, -, hmem, -⟩ | ⟨fd, request, -, hdecode, hencode⟩)
  · exact hx.unseen hseen
  · exact absurd (hx.goesOn _ hmem) (by simp [sawPeerClose])
  · rw [hx.consumed fd] at hdecode
    rw [hx.written fd] at hencode
    split_ifs at hdecode hencode
    · exact hanswer request hdecode hencode
    · exact decode_nil host request hdecode

theorem Exchanging.responded {request : Packet} (hx : Exchanging c us bytes answer h)
    (hdecode : Decoder.decode host bytes = .ok request)
    (hencode : Encoder.encode host (OpcodeDispatcher.dispatch request).2 = .ok answer) :
    Responded host h := by
  refine ⟨c, request, hx.accepted, ?_, ?_⟩
  · rw [hx.consumed c, if_pos rfl, hdecode]
  · rw [hx.written c, if_pos rfl, hencode]

/-- A send is a success when the encoding of the packet was written. -/
theorem send_exchanges {transport : Transport} (hfd : transport.fd = c)
    (hconn : transport.isConnected = true) (packet : Packet)
    (hx : Exchanging c us bytes [] h) :
    wp heeding (PacketIo.send host transport packet)
      (fun error h' => ∃ answer, Exchanging c us bytes answer h' ∧
        (error.ok = true ↔ Encoder.encode host packet = .ok answer)) h := by
  subst hfd
  unfold PacketIo.send
  cases hencode : Encoder.encode host packet with
  | error e =>
      cases e with
      | invalid_argument what => exact ⟨[], hx, by simp [Error.ok_iff]⟩
      | _ => exact ⟨[], hx, by simp [Error.ok_iff]⟩
  | ok frame =>
      have hwritten : written transport.fd h = [] := by rw [hx.written, if_pos rfl]
      -- every `::send` appends to the answer
      have hsend := wp_invariant (D := heeding)
        (fun h' => ∃ answer, Exchanging transport.fd us bytes answer h') ⟨[], hx⟩
        (transport.send_wp (E := Kernel) frame [] h hconn hwritten)
        (fun h₁ op hx₁ _ hseen => by
          obtain ⟨answer, hx₁⟩ := hx₁
          exact absurd hseen hx₁.unseen)
        (fun h₁ op r hx₁ hmay hr => by
          obtain ⟨answer, hx₁⟩ := hx₁
          obtain ⟨rest, -, rfl, -⟩ := hmay
          exact ⟨hr, _, hx₁.cons_send rest r⟩)
      refine wp_mono hsend ?_
      rintro error h' ⟨hends, answer, hx'⟩
      refine ⟨answer, hx', ?_⟩
      have hanswer : written transport.fd h' = answer := by rw [hx'.written, if_pos rfl]
      rw [Error.ok_iff, ← hends.written_target.2, hanswer, List.nil_append, Except.ok.injEq]
      exact eq_comm

theorem Exchanging.extend {h' : SysHistory} (hx : Exchanging c us bytes answer h)
    (hext : Extends (PacketIo.Moved c) h h') : ∃ bytes', Exchanging c us bytes' answer h' := by
  obtain ⟨new, rfl, hnew⟩ := hext
  induction new with
  | nil => exact ⟨bytes, hx⟩
  | cons e new ih =>
      obtain ⟨he, hrest⟩ := List.forall_mem_cons.mp hnew
      obtain ⟨bytes', hx'⟩ := ih hrest
      obtain ⟨n, data, hdata, rfl⟩ := he
      exact ⟨_, hx'.cons_recv fun heq => hdata (Option.some.inj heq)⟩

/-- What a receive makes of the exchange: the peer has closed before its frame was complete and the
connection is closed as well, or the exchange goes on. -/
inductive Receives (host : Platform) (transport : Transport) (us : List Use) (r : Received)
    (h : SysHistory) : Prop
  | closed : r.error.code = .ConnectionClosed → r.transport = .new → ¬ ShutdownSeen h →
      PeerClosed h → uses h = us ++ [.closed transport.fd] → Receives host transport us r h
  | goesOn (bytes : List UInt8) : r.error.code ≠ .ConnectionClosed → r.transport = transport →
      Exchanging transport.fd us bytes [] h →
      (r.error.code = .Success → Decoder.decode host bytes = .ok r.packet) →
      (r.error.code = .ProtocolError → ∀ p, Decoder.decode host bytes ≠ .ok p) →
      Receives host transport us r h

/-- A receive as the exchange sees it, from what `Leaves` says about the connection and `Reads`
about the bytes. -/
theorem receives_of_leaves {transport : Transport} {h' : SysHistory} {received : Received}
    (hopen : transport.connection.socket.isOpen = true)
    (hx : Exchanging transport.fd us [] [] h)
    (hleaves : PacketIo.Leaves host transport Packet.new (some .InvalidPacket) h (.ok received) h')
    (hreads : PacketIo.Reads host transport (consumed transport.fd h) received h') :
    Receives host transport us received h' := by
  obtain ⟨error, packet, protocolError, t⟩ := received
  obtain ⟨hends, rejected, hreported, hrejected⟩ := hleaves
  obtain ⟨hdecoded, hclosed⟩ := hreads
  have hnone : consumed transport.fd h = [] := by rw [hx.consumed, if_pos rfl]
  rw [hnone] at hdecoded hclosed hrejected
  -- the bytes that the decoder has seen are those that were read
  have hgoesOn : ∀ bytes, error.code ≠ .ConnectionClosed → t = transport →
      Exchanging transport.fd us bytes [] h' →
      Receives host transport us ⟨error, packet, protocolError, t⟩ h' := by
    intro bytes hcode ht hx'
    have hbytes : consumed transport.fd h' = bytes := by rw [hx'.consumed, if_pos rfl]
    refine .goesOn bytes hcode ht hx' (fun hsuccess => ?_) (fun hprotocol p => ?_)
    · obtain ⟨decoded, hread, hdecode⟩ := hdecoded hsuccess
      rw [← hbytes, hread]
      exact hdecode
    · have hne : error.code ≠ .Success := by
        rw [show error.code = .ProtocolError from hprotocol]
        decide
      obtain ⟨-, hwhy⟩ := hreported hne
      rw [if_pos hprotocol] at hwhy
      obtain ⟨e, what, hdecode, -⟩ := hwhy
      rw [← hbytes, hrejected hprotocol, List.nil_append, hdecode]
      exact fun heq => by cases heq
  generalize hcode : error.code = code at hends
  cases hends with
  | moved _ hne hext =>
      obtain ⟨bytes, hx'⟩ := hx.extend hext
      exact hgoesOn bytes (hcode ▸ hne) rfl hx'
  | @failed n h₁ hext =>
      obtain ⟨bytes, hx₁⟩ := hx.extend hext
      exact hgoesOn _ (by rw [hcode]; decide) rfl (hx₁.cons_recv (n := n) (r := none) nofun)
  | @closed n h₁ h₂ hext heq =>
      subst heq
      rw [if_pos hopen] at hclosed ⊢
      obtain ⟨bytes, hx₁⟩ := hx.extend hext
      obtain ⟨first, hread, hincomplete⟩ := hclosed hcode
      refine .closed hcode rfl ?_ ?_ ?_
      · intro hseen
        rcases List.mem_cons.mp hseen with heq | hseen
        · cases heq
        rcases List.mem_cons.mp hseen with heq | hseen
        · cases heq
        · exact hx₁.unseen hseen
      · refine ⟨transport.fd, n, hx₁.accepted.mono ?_, ?_, ?_⟩
        · exact (List.suffix_cons _ _).trans (List.suffix_cons _ _)
        · exact List.mem_cons_of_mem _ List.mem_cons_self
        · rw [hread]
          exact hincomplete
      · rw [uses_cons_some rfl, uses_cons_none rfl, hx₁.uses]

theorem receive_exchanges {transport : Transport} (hconn : transport.isConnected = true)
    (hopen : transport.connection.socket.isOpen = true)
    (hx : Exchanging transport.fd us [] [] h) :
    wp heeding (PacketIo.receive host transport Packet.new (some .InvalidPacket))
      (fun r h' => (∀ abort, r = .error abort → ¬ host.Allocates PacketIo.maxFrame) ∧
        ∀ received, r = .ok received → Receives host transport us received h') h := by
  have hreads :=
    PacketIo.receive_reads host transport Packet.new (some .InvalidPacket) h hconn hopen
  have hboth := wp_and hreads
    (PacketIo.receive_leaves host transport Packet.new (some .InvalidPacket) h)
    (fun _ _ _ hr => hr)
  have hheeding := wp_invariant (D := heeding) (fun h' => ¬ ShutdownSeen h') hx.unseen hboth
    (fun _ _ hunseen _ hseen => absurd hseen hunseen)
    (fun h₁ op r hunseen hmay hr => by
      refine ⟨hr, fun hseen => ?_⟩
      rcases List.mem_cons.mp hseen with heq | hseen
      · rcases hmay with ⟨n, -, rfl⟩ | ⟨rfl, -⟩
        · cases heq
        · cases heq
      · exact hunseen hseen)
  refine wp_mono hheeding ?_
  rintro r h' ⟨⟨hread, hleaves⟩, -⟩
  constructor
  · rintro abort rfl
    exact hleaves.2
  · rintro received rfl
    exact receives_of_leaves hopen hx hleaves (hread received rfl)

/-- Calls that are neither checks that saw the flag nor transfers nor accepts. -/
theorem endsWell_cons {e : SysEvent} (hseen : e ≠ ⟨.shutdownRequested, true⟩)
    (hclose : sawPeerClose e = false) (haccept : ∀ fd, e.op ≠ .accept fd)
    (hsilent : ∀ fd, sent fd e = [] ∧ taken fd e = []) :
    EndsWell host (e :: h) ↔ EndsWell host h := by
  have hwritten : ∀ fd, written fd (e :: h) = written fd h := fun fd => by
    rw [written_cons, (hsilent fd).1, List.append_nil]
  have hconsumed : ∀ fd, consumed fd (e :: h) = consumed fd h := fun fd => by
    rw [consumed_cons, (hsilent fd).2, List.append_nil]
  have haccepted : ∀ fd, Accepted (e :: h) fd ↔ Accepted h fd := by
    refine fun fd => ⟨?_, fun hacc => hacc.mono (List.suffix_cons _ _)⟩
    rintro ⟨listening, r, hmem, hr⟩
    rcases List.mem_cons.mp hmem with rfl | hmem
    · exact absurd rfl (haccept listening)
    · exact ⟨listening, r, hmem, hr⟩
  have hshutdown : ShutdownSeen (e :: h) ↔ ShutdownSeen h := by
    simp only [ShutdownSeen, List.mem_cons, hseen.symm, false_or]
  have hpeer : PeerClosed (e :: h) ↔ PeerClosed h := by
    have hmem : ∀ fd n, (⟨.recv fd n 0, some []⟩ : SysEvent) ∈ e :: h ↔
        (⟨.recv fd n 0, some []⟩ : SysEvent) ∈ h := by
      refine fun fd n => ⟨fun hmem => ?_, List.mem_cons_of_mem _⟩
      rcases List.mem_cons.mp hmem with rfl | hmem
      · exact absurd hclose (by simp [sawPeerClose])
      · exact hmem
    simp only [PeerClosed, haccepted, hmem, hconsumed]
  have hresponded : Responded host (e :: h) ↔ Responded host h := by
    simp only [Responded, haccepted, hconsumed, hwritten]
  exact or_congr hshutdown (or_congr hpeer hresponded)

/-- The calls after the exchange do not change what the exit code stands for. -/
theorem Status.cons {exitCode : Int} {e : SysEvent} (hs : Status host exitCode h)
    (hseen : e ≠ ⟨.shutdownRequested, true⟩) (hclose : sawPeerClose e = false)
    (haccept : ∀ fd, e.op ≠ .accept fd) (hsilent : ∀ fd, sent fd e = [] ∧ taken fd e = []) :
    Status host exitCode (e :: h) := by
  rw [Status, endsWell_cons hseen hclose haccept hsilent]
  exact hs

theorem Status.stopped (h : SysHistory) : Status host 0 (⟨.shutdownRequested, true⟩ :: h) :=
  .inl ⟨rfl, .inl List.mem_cons_self⟩

theorem may_check : heeding.may h .shutdownRequested :=
  fun _ => ⟨rfl, fun _ heq => by cases heq⟩

/-- The transport still owns the connection, or the connection was closed. -/
def Owns (transport : Transport) (us : List Use) (t : Transport) (h : SysHistory) : Prop :=
  (t = transport ∧ uses h = us) ∨ (t = .new ∧ uses h = us ++ [.closed transport.fd])

theorem Owns.cons {transport t : Transport} {e : SysEvent} (ho : Owns transport us t h)
    (huse : useOf e = none) : Owns transport us t (e :: h) := by
  rw [Owns, uses_cons_none huse]
  exact ho

/-- What the exchange leaves to the cleanup. Only the allocation of a vector can throw. -/
def Left (host : Platform) (transport : Transport) (us : List Use) :
    Except Abort (Int × Transport) → SysHistory → Prop
  | .error _, _ => ¬ host.Allocates PacketIo.maxFrame
  | .ok (exitCode, t), h => Status host exitCode h ∧ Owns transport us t h

theorem Left.stopped {transport t : Transport} (ho : Owns transport us t h) :
    Left host transport us (.ok (0, t)) (⟨.shutdownRequested, true⟩ :: h) :=
  ⟨.stopped h, ho.cons rfl⟩

theorem Exchanging.checked (hx : Exchanging c us bytes answer h) :
    Exchanging c us bytes answer (⟨.shutdownRequested, false⟩ :: h) :=
  hx.cons (fun heq => by cases heq) rfl rfl fun _ => ⟨rfl, rfl⟩

theorem Exchanging.failed {transport : Transport}
    (hx : Exchanging transport.fd us bytes answer h)
    (hanswer : ∀ request, Decoder.decode host bytes = .ok request →
      Encoder.encode host (OpcodeDispatcher.dispatch request).2 ≠ .ok answer) :
    Left host transport us (.ok (1, transport)) h :=
  ⟨.inr ⟨rfl, hx.not_endsWell hanswer⟩, .inl ⟨rfl, hx.uses⟩⟩

/-- The answer to a packet that the decoder rejected. -/
theorem rejected_ends {transport : Transport} (hconn : transport.isConnected = true)
    (hx : Exchanging transport.fd us bytes [] h)
    (hrejected : ∀ p, Decoder.decode host bytes ≠ .ok p) (response : Packet) :
    wp heeding (do
        let sendError ← PacketIo.send host transport response
        if !sendError.ok then pure (.ok (1, transport))
        else do
          let shutdown ← Posix.shutdownRequested
          if shutdown then pure (.ok (0, transport))
          else pure (.ok (1, transport)))
      (Left host transport us) h := by
  refine wp_seq (send_exchanges rfl hconn response hx) ?_
  rintro error h' ⟨answer, hx', -⟩
  show wp _ (if !error.ok then _ else _) _ _
  split_ifs
  · exact hx'.failed fun request hdecode => absurd hdecode (hrejected request)
  · refine wp_check may_check (Left.stopped (.inl ⟨rfl, hx'.uses⟩)) ?_
    exact hx'.checked.failed fun request hdecode => absurd hdecode (hrejected request)

/-- The answer of the dispatcher. The exit code is 0 exactly if all of it was written. -/
theorem dispatched_ends {transport : Transport} (hconn : transport.isConnected = true)
    (hx : Exchanging transport.fd us bytes [] h) {request : Packet}
    (hdecode : Decoder.decode host bytes = .ok request) :
    wp heeding (do
        let sendError ← PacketIo.send host transport (OpcodeDispatcher.dispatch request).2
        if !sendError.ok then pure (.ok (1, transport))
        else do
          let shutdown ← Posix.shutdownRequested
          if shutdown then pure (.ok (0, transport))
          else do
            Posix.cinGet
            pure (.ok (0, transport)))
      (Left host transport us) h := by
  refine wp_seq (send_exchanges rfl hconn (OpcodeDispatcher.dispatch request).2 hx) ?_
  rintro error h' ⟨answer, hx', hok⟩
  show wp _ (if !error.ok then _ else _) _ _
  cases hsent : error.ok with
  | false =>
      refine hx'.failed fun request' hdecode' hencode => ?_
      obtain rfl := Except.ok.inj (hdecode.symm.trans hdecode')
      rw [hok.mpr hencode] at hsent
      cases hsent
  | true =>
      refine wp_check may_check (Left.stopped (.inl ⟨rfl, hx'.uses⟩)) ?_
      refine ⟨fun _ => ⟨rfl, fun _ heq => by cases heq⟩, fun r _ => ?_⟩
      have hx'' := hx'.checked.cons (e := ⟨.cinGet, r⟩) (fun heq => by cases heq) rfl rfl
        fun _ => ⟨rfl, rfl⟩
      exact ⟨.inl ⟨rfl, .inr (.inr (hx''.responded hdecode (hok.mp hsent)))⟩, .inl ⟨rfl, hx''.uses⟩⟩

theorem exchange_ends {transport : Transport} (hconn : transport.isConnected = true)
    (hopen : transport.connection.socket.isOpen = true)
    (hx : Exchanging transport.fd us [] [] h) :
    wp heeding (ServerMain.exchange host transport) (Left host transport us) h := by
  unfold ServerMain.exchange
  refine wp_seq (receive_exchanges hconn hopen hx) ?_
  rintro r h₁ ⟨hthrown, hr⟩
  rcases r with abort | received
  · exact hthrown abort rfl
  specialize hr received rfl
  obtain ⟨error, request, protocolError, t⟩ := received
  cases hr with
  | closed hcode ht hunseen hpeer hus =>
      -- the transport has closed the descriptor already
      obtain rfl : t = Transport.new := ht
      have howns : Owns transport us .new h₁ := .inr ⟨rfl, hus⟩
      have hclosed : error.code = .ConnectionClosed := hcode
      have hok : error.ok = false := by
        rw [Error.ok, hclosed]
        rfl
      refine wp_check may_check (Left.stopped howns) ?_
      rw [hok, hclosed]
      refine ⟨Status.cons (.inl ⟨rfl, .inr (.inl hpeer)⟩) ?_ rfl ?_ fun _ => ⟨rfl, rfl⟩,
        howns.cons rfl⟩
      · exact fun heq => by cases heq
      · exact fun _ heq => by cases heq
  | goesOn bytes hcode ht hx₁ hdecoded hrejected =>
      obtain rfl : t = transport := ht
      refine wp_check may_check (Left.stopped (.inl ⟨rfl, hx₁.uses⟩)) ?_
      have hx₂ := hx₁.checked
      show wp _ (if !error.ok then if error.code = .ConnectionClosed then _
        else if error.code = .ProtocolError then _ else _ else _) _ _
      rw [if_neg hcode]
      cases hok : error.ok with
      | false =>
          show wp _ (if error.code = .ProtocolError then _ else _) _ _
          split_ifs with hprotocol
          · exact rejected_ends hconn hx₂ (hrejected hprotocol) _
          · exact hx₂.failed fun request' _ => encode_ne_nil host _
      | true =>
          have hdecode : Decoder.decode host bytes = .ok request :=
            hdecoded ((error.ok_iff).mp hok)
          -- the dispatcher never fails, so the branch behind its error is dead
          obtain ⟨hdispatched, -⟩ := OpcodeDispatcher.dispatch_isValid request
          refine wp_check may_check (Left.stopped (.inl ⟨rfl, hx₂.uses⟩)) ?_
          show wp _ (if !(OpcodeDispatcher.dispatch request).1.ok then _ else
            (PacketIo.send host t (OpcodeDispatcher.dispatch request).2).bind _) _ _
          rw [hdispatched]
          exact dispatched_ends hconn hx₂.checked hdecode

end

/-! ## The cleanup

By cases on what remains: a server that did not start, or one that runs, with or without a
connection that is still open.
-/

section

variable {host : Platform} {h : SysHistory}

theorem wp_close {fd : Int} {α : Type} {k : SysM α} {Q : α → SysHistory → Prop}
    (hk : wp heeding k Q (⟨.close fd, ()⟩ :: h)) :
    wp heeding (.call (.close fd) fun _ => k) Q h :=
  ⟨fun _ => ⟨rfl, fun _ heq => by cases heq⟩, fun _ _ => hk⟩

theorem Status.closed {exitCode fd : Int} (hs : Status host exitCode h) :
    Status host exitCode (⟨.close fd, ()⟩ :: h) := by
  apply hs.cons
  · exact fun heq => by cases heq
  · rfl
  · exact fun _ heq => by cases heq
  · exact fun _ => ⟨rfl, rfl⟩

theorem disconnect_of_nonneg {fd : Int} (hfd : 0 ≤ fd) (connected : Bool) :
    (⟨⟨fd⟩, connected⟩ : Connection).disconnect = .call (.close fd) fun _ => .ret .new := by
  have hne : fd ≠ -1 := by omega
  rw [Connection.disconnect_eq, Socket.close, if_pos hne]
  rfl

theorem destruct_of_nonneg {fd : Int} (hfd : 0 ≤ fd) (connected : Bool) :
    (⟨⟨fd⟩, connected⟩ : Connection).destruct = .call (.close fd) fun _ => .ret () := by
  rw [Connection.destruct, disconnect_of_nonneg hfd]
  rfl

theorem stop_of_nonneg {fd : Int} (hfd : 0 ≤ fd) (running : Bool) (port : UInt16) :
    (⟨⟨fd⟩, running, port⟩ : Server).stop = .call (.close fd) fun _ => .ret .new := by
  have hne : fd ≠ -1 := by omega
  have hopen : (⟨fd⟩ : Socket).isOpen = true := (Socket.isOpen_iff _).mpr hne
  rw [Server.stop, if_pos hopen, Socket.close, if_pos hne]
  rfl

/-- What is left to the cleanup: a server that did not start or that is running, with a connection
that is still open or not. -/
inductive Remains : Server → Option Transport → List Use → Prop
  | nothing {us : List Use} : Tidy us → Remains .new none us
  | server {listening : Int} (port : UInt16) : 0 ≤ listening →
      Remains ⟨⟨listening⟩, true, port⟩ none [.socket listening]
  | stopped {listening client : Int} (port : UInt16) : 0 ≤ listening → listening ≠ client →
      Remains ⟨⟨listening⟩, true, port⟩ none
        [.socket listening, .accepted client, .closed client]
  | closed {listening client : Int} (port : UInt16) : 0 ≤ listening → listening ≠ client →
      Remains ⟨⟨listening⟩, true, port⟩ (some .new)
        [.socket listening, .accepted client, .closed client]
  | client {listening client : Int} (port : UInt16) : 0 ≤ listening → 0 ≤ client →
      listening ≠ client → Remains ⟨⟨listening⟩, true, port⟩ (some ⟨⟨⟨client⟩, true⟩⟩)
        [.socket listening, .accepted client]

theorem Untouched.not_endsWell (hu : Untouched h) : ¬ EndsWell host h := by
  rintro (hseen | ⟨fd, n, -, hmem, -⟩ | ⟨fd, request, -, hdecode, -⟩)
  · exact hu.unseen hseen
  · exact absurd (hu.silent _ hmem) (by simp [transfersOn])
  · rw [(hu.transferred fd).2] at hdecode
    exact decode_nil host request hdecode

theorem Untouched.checked (hu : Untouched h) : Untouched (⟨.shutdownRequested, false⟩ :: h) :=
  hu.cons (fun heq => by cases heq) rfl

/-- What the scope leaves to the cleanup: an exit code that already tells how the program ended,
and what remains to be closed. -/
def ScopeEnds (host : Platform) :
    Except Abort (Int × Server × Option Transport) → SysHistory → Prop
  | .error _, _ => ¬ host.Allocates PacketIo.maxFrame
  | .ok (exitCode, server, transport), h =>
    Status host exitCode h ∧ Remains server transport (uses h)

theorem scope_ends (host : Platform) :
    wp heeding (ServerMain.scope host) (ScopeEnds host) [] := by
  have hnothing : Untouched [] := ⟨List.not_mem_nil, fun _ he => absurd he List.not_mem_nil⟩
  unfold ServerMain.scope
  refine wp_seq (wp_preparing (start_prepares _ _) hnothing) ?_
  rintro ⟨error, server⟩ h₁ ⟨hstart, hu₁⟩
  show wp _ (if !error.ok then _ else _) _ _
  rcases hstart with ⟨hok, l, port, hl, hserver, hus₁⟩ | ⟨hok, hserver, htidy⟩
  · obtain rfl : server = ⟨⟨l⟩, true, port⟩ := hserver
    rw [show error.ok = true from hok]
    have hremains : ∀ seen, Remains ⟨⟨l⟩, true, port⟩ none
        (uses (⟨.shutdownRequested, seen⟩ :: h₁)) := fun seen => by
      rw [uses_checked, hus₁]
      exact .server port hl
    refine wp_check may_check ⟨.stopped h₁, hremains true⟩ ?_
    refine wp_seq (wp_preparing (accept_prepares hl port ((uses_checked false).trans hus₁))
      hu₁.checked) ?_
    rintro ⟨acceptError, connection⟩ h₂ ⟨haccept, hu₂⟩
    rcases haccept with ⟨hok, c, hc, hne, hconnection, haccepted, hus₂⟩ | ⟨hok, hconnection, hus₂⟩
    · obtain rfl : connection = ⟨⟨c⟩, true⟩ := hconnection
      refine wp_check may_check ?_ ?_
      · -- the local connection still owns the descriptor
        rw [destruct_of_nonneg hc]
        refine wp_close ⟨(Status.stopped h₂).closed, ?_⟩
        rw [uses_cons_some rfl, uses_checked, hus₂]
        exact .stopped port hl hne
      · rw [show acceptError.ok = true from hok]
        have hx : Exchanging c [.socket l, .accepted c] [] [] (⟨.shutdownRequested, false⟩ :: h₂) :=
          hu₂.checked.exchanging (haccepted.mono (List.suffix_cons _ _))
            ((uses_checked false).trans hus₂)
        have hopen : (⟨c⟩ : Socket).isOpen = true := (Socket.isOpen_iff _).mpr (by
          show c ≠ -1
          omega)
        show wp _ ((ServerMain.exchange host ⟨⟨⟨c⟩, true⟩⟩).bind _) _ _
        refine wp_seq (exchange_ends rfl hopen hx) ?_
        intro r h₃ hleft
        rcases r with abort | ⟨exitCode, t⟩
        · exact hleft
        obtain ⟨hstatus, howns⟩ := hleft
        refine ⟨hstatus, ?_⟩
        rcases howns with ⟨rfl, hus₃⟩ | ⟨rfl, hus₃⟩
        · rw [hus₃]
          exact .client port hl hc hne
        · rw [hus₃]
          exact .closed port hl hne
    · obtain rfl : connection = Connection.new := hconnection
      have hremains : ∀ seen, Remains ⟨⟨l⟩, true, port⟩ none
          (uses (⟨.shutdownRequested, seen⟩ :: h₂)) := fun seen => by
        rw [uses_checked, hus₂]
        exact .server port hl
      refine wp_check may_check ⟨.stopped h₂, hremains true⟩ ?_
      rw [show acceptError.ok = false from hok]
      exact ⟨.inr ⟨rfl, hu₂.checked.not_endsWell⟩, hremains false⟩
  · obtain rfl : server = Server.new := hserver
    rw [show error.ok = false from hok]
    exact ⟨.inr ⟨rfl, hu₁.not_endsWell⟩, .nothing htidy⟩

/-- The state in which `main` reaches its return statement: the exit code tells how the program
ended, every descriptor was closed in order, and the server object is as a stopped one. -/
structure Returning (host : Platform) (exitCode : Int) (server : Server) (h : SysHistory) :
    Prop where
  status : Status host exitCode h
  tidy : Tidy (uses h)
  notRunning : server.isRunning = false
  noPort : server.port = 0
  noSocket : server.socket.isOpen = false

/-- The ways `main` can come to its end. -/
def Returns (host : Platform) : Except Abort (Int × Server) → SysHistory → Prop
  | .error _, _ => ¬ host.Allocates PacketIo.maxFrame
  | .ok (exitCode, server), h => Returning host exitCode server h

theorem untilReturn_ends (host : Platform) :
    wp heeding (ServerMain.untilReturn host) (Returns host) [] := by
  unfold ServerMain.untilReturn
  refine wp_seq (scope_ends host) ?_
  intro r h hr
  rcases r with abort | ⟨exitCode, server, transport⟩
  · exact hr
  obtain ⟨hstatus, hremains⟩ := hr
  -- the server is stopped last
  have hstop : ∀ {l : Int} {h : SysHistory} (port : UInt16), 0 ≤ l → Status host exitCode h →
      Tidy (uses h ++ [.closed l]) →
      wp heeding (do
          let server ← if (⟨⟨l⟩, true, port⟩ : Server).isRunning
            then (⟨⟨l⟩, true, port⟩ : Server).stop else pure ⟨⟨l⟩, true, port⟩
          pure (.ok (exitCode, server)))
        (Returns host) h := by
    intro l h port hl hstatus htidy
    show wp _ ((⟨⟨l⟩, true, port⟩ : Server).stop.bind _) _ _
    rw [stop_of_nonneg hl]
    exact wp_close ⟨hstatus.closed, by rwa [uses_cons_some rfl], rfl, rfl, rfl⟩
  generalize hus : uses h = us at hremains
  cases hremains with
  | nothing htidy =>
      exact ⟨hstatus, by rwa [hus], rfl, rfl, rfl⟩
  | @server l port hl =>
      refine hstop port hl hstatus ?_
      rw [hus]
      exact .server l
  | @stopped l c port hl hne =>
      refine hstop port hl hstatus ?_
      rw [hus]
      exact .client l c hne
  | @closed l c port hl hne =>
      refine hstop port hl hstatus ?_
      rw [hus]
      exact .client l c hne
  | @client l c port hl hc hne =>
      show wp _ ((⟨⟨c⟩, true⟩ : Connection).disconnect.bind _) _ _
      rw [disconnect_of_nonneg hc]
      refine wp_close (hstop port hl hstatus.closed ?_)
      rw [uses_cons_some rfl, hus]
      exact .client l c hne

/-- There is nothing left for the destructor of the server. -/
theorem leave_ends {exitCode : Int} {server : Server}
    (hr : Returning host exitCode server h) :
    ServerMain.leave (.ok (exitCode, server)) = .ret (.ok exitCode) := by
  have hsocket : server.stop = .ret ⟨server.socket, false, 0⟩ := by
    rw [Server.stop, hr.noSocket]
    rfl
  have hclose : server.socket.close = .ret server.socket :=
    Socket.close_of_not_isOpen (by rw [hr.noSocket]; exact Bool.false_ne_true)
  rw [ServerMain.leave, Server.destruct, hsocket]
  show (server.socket.destruct.bind _ : SysM (Except Abort Int)) = _
  rw [Socket.destruct, hclose]
  rfl

/-- **How the server program ends.** The system calls, among them the checks of the flag, are
answered by any function of what happened before, so that the run always ends; only the allocation
of a vector can end it with an exception. When `main` returns,

* every descriptor of the run was closed once, that of the client before the listening one, and
  the server is stopped,
* the exit code is 0 if a check saw the flag, if the client closed before its first frame was
  complete, or if it got all of the response of the dispatcher, and 1 otherwise,
* the network was left alone from the moment when a check saw the flag. -/
theorem serverMain_cleans_up (host : Platform) (results : SysHistory → (op : Sys) → op.Res)
    (hresults : ∀ h op, Kernel h op (results h op)) :
    let run := (serverMain host).run results []
    (host.Allocates PacketIo.maxFrame → ∃ exitCode, run.1 = .ok exitCode) ∧
    ∀ exitCode, run.1 = .ok exitCode →
      Tidy (uses run.2) ∧
      (∃ server, (ServerMain.untilReturn host).run results [] = (.ok (exitCode, server), run.2) ∧
        server.isRunning = false ∧ server.port = 0) ∧
      (exitCode = 0 ↔ EndsWell host run.2) ∧ (exitCode = 1 ↔ ¬ EndsWell host run.2) ∧
      ∀ e before, e :: before <:+ run.2 → ShutdownSeen before →
        transfersOn e.op = none ∧ ∀ fd, e.op ≠ .accept fd := by
  intro run
  have hrun := Prog.run_runs hresults (ServerMain.untilReturn host) []
  have hwp := untilReturn_ends host
  have hreturns := Runs.wp (C := heeding) hrun hwp
  have hheeds := permitted_of_runs (C := heeding) hrun hwp
  have hsplit : run = (ServerMain.leave ((ServerMain.untilReturn host).run results []).1).run
      results ((ServerMain.untilReturn host).run results []).2 := by
    show (serverMain host).run results [] = _
    rw [serverMain_eq, Prog.bind_eq, Prog.run_bind]
  -- from here on only the run up to the return statement matters
  clear_value run
  generalize (ServerMain.untilReturn host).run results [] = returned at hreturns hheeds hsplit ⊢
  obtain ⟨r, h⟩ := returned
  rcases r with abort | ⟨code, server⟩
  · obtain rfl : run = (.error abort, h) := hsplit
    exact ⟨fun halloc => absurd halloc hreturns, fun _ heq => by cases heq⟩
  · have hreturning : Returning host code server h := hreturns
    rw [leave_ends hreturning] at hsplit
    obtain rfl : run = (.ok code, h) := hsplit
    refine ⟨fun _ => ⟨code, rfl⟩, fun exitCode heq => ?_⟩
    cases heq
    refine ⟨hreturning.tidy, ⟨server, rfl, hreturning.notRunning, hreturning.noPort⟩, ?_, ?_, ?_⟩
    · rcases hreturning.status with ⟨rfl, hwell⟩ | ⟨rfl, hwell⟩
      · exact iff_of_true rfl hwell
      · exact iff_of_false (by decide) hwell
    · rcases hreturning.status with ⟨rfl, hwell⟩ | ⟨rfl, hwell⟩
      · exact iff_of_false (by decide) (not_not.mpr hwell)
      · exact iff_of_true rfl hwell
    · exact fun e before hsuffix hseen => hheeds e before hsuffix (Nat.zero_le _) hseen

end

/-- A kernel with the descriptors 3 and 4. The client sends `stream` and then closes, the kernel
moves `piece` bytes at a time, and the flag is set once `flag` says so. -/
def piecewise (stream : List UInt8) (piece : Nat) (flag : SysHistory → Bool) (h : SysHistory) :
    (op : Sys) → op.Res
  | .socket => ⟨if IsOpen h 3 then -1 else 3, ""⟩
  | .accept _ => ⟨if IsOpen h 4 then -1 else 4, ""⟩
  | .setsockopt _ => ⟨0, ""⟩
  | .inet_pton _ => (1 : Int)
  | .bind _ _ _ => ⟨0, ""⟩
  | .listen _ _ => ⟨0, ""⟩
  | .getsockname _ => (⟨0, ""⟩, SERVER_PORT)
  | .connect _ _ _ => ⟨0, ""⟩
  | .send _ data _ => (min piece data.length : Nat)
  | .recv fd size _ => some ((stream.drop (consumed fd h).length).take (min piece size))
  | .close _ => ()
  | .shutdownRequested => flag h
  | .cinGet => ()

theorem piecewise_kernel (stream : List UInt8) (piece : Nat) (flag : SysHistory → Bool)
    (h : SysHistory) (op : Sys) : Kernel h op (piecewise stream piece flag h op) := by
  have hfresh : ∀ fd : Int, 0 ≤ fd → (if IsOpen h fd then -1 else fd) = -1 ∨
      (0 ≤ (if IsOpen h fd then -1 else fd) ∧ ¬ IsOpen h (if IsOpen h fd then -1 else fd)) := by
    intro fd hfd
    split_ifs with hopen
    · exact .inl rfl
    · exact .inr ⟨hfd, hopen⟩
  cases op with
  | socket => exact hfresh 3 (by decide)
  | accept listening => exact hfresh 4 (by decide)
  | send fd data flags => exact Int.ofNat_le.mpr (min_le_right piece data.length)
  | recv fd size flags =>
      intro bytes hbytes
      obtain rfl := Option.some.inj hbytes
      rw [List.length_take]
      exact (min_le_left _ _).trans (min_le_right _ _)
  | _ => trivial

/-- A `HelloRequest` arrives eight bytes at a time, and so the response is sent. -/
theorem serverMain_cleans_up_hello :
    ∃ h, (serverMain (.ample .Little 64)).run
        (piecewise (wireFormat { Packet.new with opcode := 1, sequenceId := 7 }) 8
          fun _ => false) []
          = (.ok 0, h) ∧
      EndsWell (.ample .Little 64) h ∧
      uses h = [.socket 3, .accepted 4, .closed 4, .closed 3] ∧ Tidy (uses h) := by
  obtain ⟨hreturns, hall⟩ := serverMain_cleans_up (.ample .Little 64)
    (piecewise (wireFormat { Packet.new with opcode := 1, sequenceId := 7 }) 8 fun _ => false)
    (piecewise_kernel _ _ _)
  have hexit : ((serverMain (.ample .Little 64)).run
      (piecewise (wireFormat { Packet.new with opcode := 1, sequenceId := 7 }) 8 fun _ => false)
      []).1.toOption = some 0 := by
    decide +kernel
  have huses : uses ((serverMain (.ample .Little 64)).run
      (piecewise (wireFormat { Packet.new with opcode := 1, sequenceId := 7 }) 8 fun _ => false)
      []).2 = [.socket 3, .accepted 4, .closed 4, .closed 3] := by
    decide +kernel
  generalize (serverMain (.ample .Little 64)).run _ [] = run at hreturns hall hexit huses ⊢
  obtain ⟨r, h⟩ := run
  obtain ⟨exitCode, rfl⟩ := hreturns (Platform.ample_allocates (by decide +kernel))
  obtain ⟨htidy, -, hzero, -⟩ := hall exitCode rfl
  obtain rfl : exitCode = 0 := Option.some.inj hexit
  exact ⟨h, rfl, hzero.mp rfl, huses, htidy⟩

end PacketForge
