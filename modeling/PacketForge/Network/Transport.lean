import PacketForge.Common.Platform
import PacketForge.Network.Socket

set_option autoImplicit false

/-! # Transport (`network/transport.cpp`)

`Transport` moves byte vectors over a connection. Its two loops are the functions `sendLoop` and
`receiveLoop`, whose arguments are the loop variables.

The second half says what the loops do whatever the kernel answers: `send_wp` and `receive_wp`.

## How the proofs go

A loop has an invariant about the bytes and a contract about the calls. For `sendLoop` the
invariant is that what was written are the first `totalSent` bytes of the vector, and the contract
that the next `::send` offers exactly the bytes that are missing; so the kernel can take any part
of them and the invariant holds again. For `receiveLoop` it is the same with `received`, and a
`::recv` that returns 0 is followed by the `::close` of `disconnect`. Both terminate because an
answer that moves nothing ends them.

`SendEnds` and `ReceiveEnds` list the ways to end. All later results about sending and receiving
are derived from these two, and do not look into the loops.
-/

namespace PacketForge.Network

open Interaction Common

/-! ## The code

`receive` first resizes the vector of the caller, which may throw, and is given its present value
for the case that it returns before that.
-/

/-- `class Transport`. -/
structure Transport where
  connection : Connection
  deriving DecidableEq, Repr

namespace Transport

/-- `Transport::Transport`. -/
def new : Transport := ⟨.new⟩

def isConnected (self : Transport) : Bool := self.connection.isConnected

/-- The descriptor that `send` and `receive` use. -/
def fd (self : Transport) : Int := self.connection.socket.nativeHandle

/-- The loop of `Transport::send`. -/
def sendLoop (fd : Int) (data : List UInt8) (totalSent : Nat) : SysM Error :=
  if totalSent < data.length then do
    let result ← Posix.send fd (data.drop totalSent) 0
    if result < 0 then pure ⟨.SocketError, "Send failed"⟩
    else if result = 0 then pure ⟨.SocketError, "Send failed: connection closed"⟩
    else sendLoop fd data (totalSent + result.toNat)
  else pure .success
termination_by data.length - totalSent
decreasing_by omega

/-- `Transport::send`. -/
def send (self : Transport) (data : List UInt8) : SysM Error :=
  if !self.isConnected then pure ⟨.ConnectionFailed, "Connection not established"⟩
  else sendLoop self.fd data 0

/-- The loop of `Transport::receive`; `received` are the first `totalReceived` bytes of the
buffer. The result is the error, the vector and the transport. -/
def receiveLoop (self : Transport) (size : Nat) (received : List UInt8) :
    SysM (Error × List UInt8 × Transport) :=
  if received.length < size then do
    let result ← Posix.recv self.fd (size - received.length) 0
    match result with
    | none => pure (⟨.SocketError, "Receive failed"⟩, [], self)
    | some [] => do
        let connection ← self.connection.disconnect
        pure (⟨.ConnectionClosed, "Connection closed by peer"⟩, [], ⟨connection⟩)
    | some (b :: bytes) => receiveLoop self size (received ++ b :: bytes)
  else pure (.success, received, self)
termination_by size - received.length
decreasing_by
  rw [List.length_append, List.length_cons]
  omega

/-- `Transport::receive`, given the present value `data` of the caller's vector. -/
def receive (host : Platform) (self : Transport) (data : List UInt8) (size : Nat) :
    SysM (Except BadAlloc (Error × List UInt8 × Transport)) :=
  if !self.isConnected then
    pure (.ok (⟨.ConnectionFailed, "Connection not established"⟩, data, self))
  else if data.length < size && !host.fits size then pure (.error .bad_alloc)
  else do
    let result ← receiveLoop self size []
    pure (.ok result)

/-- `Transport::Transport(Connection connection)`: the parameter is moved into the member and
then destroyed. The result is the new object and the state of the caller's connection. -/
def ofConnection (connection : Connection) : SysM (Transport × Connection) := do
  let (parameter, connection) := connection.moveConstruct
  let (member, parameter) := parameter.moveConstruct
  parameter.destruct
  pure (⟨member⟩, connection)

theorem ofConnection_eq (connection : Connection) :
    ofConnection connection = .ret (⟨⟨⟨connection.socket.socket⟩, connection.connected⟩⟩,
      ⟨⟨-1⟩, false⟩) := rfl

/-- `Transport::Transport(Transport&& other)`. -/
def moveConstruct (other : Transport) : Transport × Transport :=
  let (connection, otherConnection) := other.connection.moveConstruct
  (⟨connection⟩, ⟨otherConnection⟩)

/-- `Transport::operator=(Transport&& other)` for `this != &other`. -/
def moveAssign (self other : Transport) : SysM (Transport × Transport) := do
  let (connection, otherConnection) ← self.connection.moveAssign other.connection
  pure (⟨connection⟩, ⟨otherConnection⟩)

/-- `Transport::~Transport`. -/
def destruct (self : Transport) : SysM Unit := self.connection.destruct

end Transport

/-! ## What the loops do

Both are described by a contract, the calls they make and the answers they rely on, and by
the ways they can end. The surroundings are any `E` within `Kernel`.
-/

/-- The calls of a program that writes to `fd` what is missing from `target`: each offers all that
is missing, so that an answer that takes a part of it leaves a call of the same kind. -/
def sending (E : Env Sys Sys.Res) (fd : Int) (target : List UInt8) : Contract Sys Sys.Res where
  may h op := ∃ rest, rest ≠ [] ∧ op = .send fd rest 0 ∧ written fd h ++ rest = target
  answers := E

/-- The calls of a program that only closes descriptors. Which ones is left open. -/
def closing (E : Env Sys Sys.Res) : Contract Sys Sys.Res where
  may _ op := ∃ fd, op = .close fd
  answers := E

/-- The calls of a program that reads from `fd`, in pieces of any size, and closes it only after a
`::recv` that found the end of the stream. -/
def receiving (E : Env Sys Sys.Res) (fd : Int) : Contract Sys Sys.Res where
  may h op := (∃ n, 0 < n ∧ op = .recv fd n 0) ∨
    (op = .close fd ∧ ∃ n h₀, h = ⟨.recv fd n 0, some []⟩ :: h₀)
  answers := E

section

variable {E : Env Sys Sys.Res} {fd : Int} {h : SysHistory} {op : Sys} {r : op.Res}

theorem sending_consumed {target : List UInt8} (hmay : (sending E fd target).may h op) (fd' : Int) :
    consumed fd' (⟨op, r⟩ :: h) = consumed fd' h := by
  obtain ⟨rest, -, rfl, -⟩ := hmay
  exact List.append_nil _

theorem sending_written_ne {target : List UInt8} (hmay : (sending E fd target).may h op) {fd' : Int}
    (hne : fd' ≠ fd) : written fd' (⟨op, r⟩ :: h) = written fd' h := by
  obtain ⟨rest, -, rfl, -⟩ := hmay
  rw [written_cons, sent, if_neg hne.symm, List.append_nil]

theorem receiving_written (hmay : (receiving E fd).may h op) (fd' : Int) :
    written fd' (⟨op, r⟩ :: h) = written fd' h := by
  obtain ⟨n, -, rfl⟩ | ⟨rfl, -⟩ := hmay
  · exact List.append_nil _
  · exact List.append_nil _

end

/-- The ways the loop of `Transport::send` can end: all of the target was written, or a `::send`
of what was missing moved nothing, and was the last call. -/
inductive SendEnds (E : Env Sys Sys.Res) (fd : Int) (target : List UInt8) :
    Error → SysHistory → Prop
  | sent {h : SysHistory} : written fd h = target → SendEnds E fd target .success h
  | failed {rest : List UInt8} {result : Int} {message : String} {h : SysHistory} :
      rest ≠ [] → written fd h ++ rest = target → E h (.send fd rest 0) result → result ≤ 0 →
      SendEnds E fd target ⟨.SocketError, message⟩ (⟨.send fd rest 0, result⟩ :: h)

/-- A send either wrote everything or has a `::send` that moved nothing to blame. -/
theorem SendEnds.success_or_failed {E : Env Sys Sys.Res} {fd : Int} {target : List UInt8}
    {error : Error} {h : SysHistory} (hends : SendEnds E fd target error h) :
    (error = .success ∧ written fd h = target) ∨
      (error.code = .SocketError ∧ ∃ h' rest result, rest ≠ [] ∧ E h' (.send fd rest 0) result ∧
        result ≤ 0) := by
  cases hends with
  | sent hall => exact .inl ⟨rfl, hall⟩
  | failed hne _ hanswer hle => exact .inr ⟨rfl, _, _, _, hne, hanswer, hle⟩

/-- A send has written a first part of its target, and all of it exactly if it is a success: the
call that failed moved nothing, and something was missing. -/
theorem SendEnds.written_target {E : Env Sys Sys.Res} {fd : Int} {target : List UInt8}
    {error : Error} {h : SysHistory} (hends : SendEnds E fd target error h) :
    written fd h <+: target ∧ (written fd h = target ↔ error.code = .Success) := by
  cases hends with
  | sent hall => exact ⟨by rw [hall], iff_of_true hall rfl⟩
  | @failed rest result message h hne hrest hanswer hle =>
      have hsame : written fd (⟨.send fd rest 0, result⟩ :: h) = written fd h := by
        rw [written_cons, Network.sent, if_pos rfl, Int.toNat_of_nonpos hle, List.take_zero,
          List.append_nil]
      rw [hsame]
      refine ⟨⟨rest, hrest⟩, iff_of_false (fun heq => hne ?_) (fun hcode => by cases hcode)⟩
      rw [heq] at hrest
      exact List.append_right_eq_self.mp hrest

/-- The ways the loop of `Transport::receive` can end, when `before` had been read before: with
`size` bytes, or with fewer, because a `::recv` failed or found the end of the stream. In the last
case the descriptor was closed and the transport is as a new one. -/
inductive ReceiveEnds (E : Env Sys Sys.Res) (self : Transport) (size : Nat)
    (before : List UInt8) : Error × List UInt8 × Transport → SysHistory → Prop
  | received {bytes : List UInt8} {h : SysHistory} :
      bytes.length = size → consumed self.fd h = before ++ bytes →
      ReceiveEnds E self size before (.success, bytes, self) h
  | failed {bytes : List UInt8} {n : Nat} {h : SysHistory} :
      bytes.length < size → consumed self.fd h = before ++ bytes → 0 < n →
      E h (.recv self.fd n 0) none →
      ReceiveEnds E self size before (⟨.SocketError, "Receive failed"⟩, [], self)
        (⟨.recv self.fd n 0, none⟩ :: h)
  | closed {bytes : List UInt8} {n : Nat} {h : SysHistory} :
      bytes.length < size → consumed self.fd h = before ++ bytes → 0 < n →
      E h (.recv self.fd n 0) (some []) →
      ReceiveEnds E self size before (⟨.ConnectionClosed, "Connection closed by peer"⟩, [], .new)
        (⟨.close self.fd, ()⟩ :: ⟨.recv self.fd n 0, some []⟩ :: h)

namespace Transport

variable {E : Env Sys Sys.Res}

/-- The invariant of the loop: what was written are the first `totalSent` bytes. -/
theorem sendLoop_wp (fd : Int) (data before : List UInt8) (totalSent : Nat) (h : SysHistory)
    (hw : written fd h = before ++ data.take totalSent) :
    wp (sending E fd (before ++ data)) (sendLoop fd data totalSent)
      (SendEnds E fd (before ++ data)) h := by
  induction totalSent using sendLoop.induct data generalizing h with
  | case1 totalSent hlt ih =>
      have hrest : written fd h ++ data.drop totalSent = before ++ data := by
        rw [hw, List.append_assoc, List.take_append_drop]
      have hne : data.drop totalSent ≠ [] := by simpa using hlt
      rw [sendLoop, if_pos hlt]
      simp only [Posix.send, Prog.bind_eq, Prog.perform_bind, wp_call]
      refine ⟨⟨_, hne, rfl, hrest⟩, fun result hresult => ?_⟩
      -- the three answers to `::send`: only a positive one goes on
      by_cases hneg : result < 0
      · rw [if_pos hneg]
        exact .failed hne hrest hresult hneg.le
      by_cases hzero : result = 0
      · rw [if_neg hneg, if_pos hzero]
        exact .failed hne hrest hresult hzero.le
      rw [if_neg hneg, if_neg hzero]
      refine ih result hneg hzero _ ?_
      simp only [written_cons, hw, sent, if_true, List.take_add, List.append_assoc]
  | case2 totalSent hge =>
      rw [sendLoop, if_neg hge]
      exact .sent (by rw [hw, List.take_of_length_le (not_lt.mp hge)])

theorem send_wp (self : Transport) (data before : List UInt8) (h : SysHistory)
    (hconn : self.isConnected = true) (hw : written self.fd h = before) :
    wp (sending E self.fd (before ++ data)) (self.send data)
      (SendEnds E self.fd (before ++ data)) h := by
  rw [send, hconn]
  exact sendLoop_wp self.fd data before 0 h (by rw [hw, List.take_zero, List.append_nil])

/-- The invariant of the loop: `received` is what was read since it started. -/
theorem receiveLoop_wp (hE : E ≤ Kernel) (self : Transport)
    (hopen : self.connection.socket.isOpen = true)
    (size : Nat) (received before : List UInt8) (h : SysHistory)
    (hc : consumed self.fd h = before ++ received) (hle : received.length ≤ size) :
    wp (receiving E self.fd) (receiveLoop self size received) (ReceiveEnds E self size before)
      h := by
  induction received using receiveLoop.induct size generalizing h with
  | case1 received hlt ih =>
      rw [receiveLoop, if_pos hlt]
      simp only [Posix.recv, Prog.bind_eq, Prog.perform_bind, wp_call]
      have hpos : 0 < size - received.length := Nat.sub_pos_of_lt hlt
      refine ⟨.inl ⟨_, hpos, rfl⟩, fun result hresult => ?_⟩
      -- an error, the end of the stream (which closes the connection), or bytes
      rcases result with _ | _ | ⟨b, bytes⟩
      · exact .failed hlt hc hpos hresult
      · have hne : self.connection.socket.socket ≠ -1 := of_decide_eq_true hopen
        simp only [Connection.disconnect, hopen, if_true, Socket.close, hne, ne_eq,
          not_false_eq_true, Posix.close, Prog.bind_eq, Prog.perform_bind, Prog.call_bind,
          Prog.pure_eq, Prog.ret_bind, wp_call, wp_ret]
        exact ⟨.inr ⟨rfl, _, _, rfl⟩, fun _ _ => .closed hlt hc hpos hresult⟩
      · have hbytes : (b :: bytes).length ≤ size - received.length := hE _ _ _ hresult _ rfl
        refine ih b bytes _ ?_ ?_
        · simp only [consumed_cons, hc, taken, if_true, Option.getD_some, List.append_assoc]
        · rw [List.length_append]
          omega
  | case2 received hge =>
      rw [receiveLoop, if_neg hge]
      exact .received (le_antisymm hle (not_lt.mp hge)) hc

theorem receive_wp (hE : E ≤ Kernel) (host : Platform) (self : Transport) (size : Nat)
    (h : SysHistory)
    (hconn : self.isConnected = true) (hopen : self.connection.socket.isOpen = true)
    (hfits : host.fits size = true) :
    wp (receiving E self.fd) (self.receive host [] size)
      (fun r h' => ∃ r', r = .ok r' ∧ ReceiveEnds E self size (consumed self.fd h) r' h') h := by
  rw [receive, hconn, hfits]
  simp only [Bool.not_true, Bool.false_eq_true, if_false, Bool.and_false, Prog.bind_eq]
  refine wp_seq
    (receiveLoop_wp hE self hopen size [] _ h (List.append_nil _).symm (Nat.zero_le _)) ?_
  exact fun r h' hr => ⟨r, rfl, hr⟩

end Transport

/-! ## Giving up descriptors

Destructors and `disconnect` issue nothing but `::close`. Most programs end with a few of them,
and need not know more.
-/

section

variable {E : Env Sys Sys.Res} {h : SysHistory}

theorem Socket.close_closes (self : Socket) :
    wp (closing E) self.close (fun _ _ => True) h := by
  unfold Socket.close
  split_ifs
  · exact ⟨⟨_, rfl⟩, fun _ _ => trivial⟩
  · trivial

theorem Socket.destruct_closes (self : Socket) :
    wp (closing E) self.destruct (fun _ _ => True) h :=
  wp_seq self.close_closes fun _ _ _ => trivial

theorem Connection.disconnect_closes (self : Connection) :
    wp (closing E) self.disconnect (fun _ _ => True) h := by
  unfold Connection.disconnect
  split_ifs
  · exact wp_seq (Socket.close_closes _) fun _ _ _ => trivial
  · trivial

theorem Connection.destruct_closes (self : Connection) :
    wp (closing E) self.destruct (fun _ _ => True) h :=
  wp_seq self.disconnect_closes fun _ _ _ => Socket.destruct_closes _

end

end PacketForge.Network
