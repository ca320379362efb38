import PacketForge.Lib.Machine
import PacketForge.Protocol.PacketIo

set_option autoImplicit false

/-! # Two peers on one connection

Two programs, one at each end of a TCP connection, call `PacketIO::send` and `PacketIO::receive`
as they like, as long as their transport is connected. A call is not atomic: the machine executes
it one system call at a time, so that the calls of the two sides interleave, and at each system
call the kernel chooses how many bytes it moves, or that it fails. Bytes that were written and not
read yet are in the `wire` of the direction; the kernel neither loses nor reorders them.

`step` is executable, `Step` says what it can do. The two statements about this machine are in
`Delivery`.

## Conventions

* A call in progress is the rest of its program, as a tree of system calls (`Call.program`). A
  step of the kernel answers the first one; when the tree has become a value, the side takes note
  of it.
* The packets that were passed to `PacketIO::send` and the results of `PacketIO::receive` are kept
  in the state, in order. No step reads them.
* `sendStopped` and `receiveStopped` record that a call failed with a part of its frame moved. The
  machine goes on all the same; it is up to a result to exclude such runs.
-/

namespace PacketForge.Protocol

open Interaction Common Network

namespace Peers

/-! ## States

The two sides are alike, so a state gives what belongs to a side as a function of it, and an
action names the side that acts.
-/

/-- The two ends of the connection. -/
inductive Side where
  | client
  | server
  deriving DecidableEq, Repr

def Side.other : Side → Side
  | .client => .server
  | .server => .client

@[simp] theorem Side.other_other (side : Side) : side.other.other = side := by cases side <;> rfl

theorem Side.other_ne (side : Side) : side.other ≠ side := by cases side <;> decide

theorem Side.eq_other_of_ne {a b : Side} (h : a ≠ b) : a = b.other := by
  cases a <;> cases b <;> first | rfl | exact absurd rfl h

/-- What a call has returned, of each of the three kinds. -/
inductive Returned where
  | sent (error : Error)
  | received (result : Except Abort Received)
  | disconnected (connection : Connection)

/-- What a call in progress was started as. -/
inductive Kind where
  | sending
  | receiving
  | disconnecting
  deriving DecidableEq, Repr

/-- A call in progress: the history at its start, and what is left to execute. -/
structure Call where
  kind : Kind
  before : SysHistory
  program : SysM Returned

/-- One side. `passed` are the packets passed to `PacketIO::send`, and `received` the results of
`PacketIO::receive`, in order. `sendStopped` (`receiveStopped`) records that a send (receive)
failed after it had moved a part of its frame. -/
structure Peer where
  fd : Int
  transport : Transport
  call : Option Call
  history : SysHistory
  passed : List Packet
  received : List (Except Abort Received)
  sendStopped : Bool
  receiveStopped : Bool

/-- The bytes in flight from each side, and which sides have closed. -/
structure State where
  peer : Side → Peer
  wire : Side → List UInt8
  closed : Side → Bool

/-- A side when the connection has been established. -/
def Peer.connected (fd : Int) : Peer where
  fd := fd
  transport := ⟨⟨⟨fd⟩, true⟩⟩
  call := none
  history := []
  passed := []
  received := []
  sendStopped := false
  receiveStopped := false

/-- The packets among the results of `PacketIO::receive` that were returned with `Success`. -/
def successes (results : List (Except Abort Received)) : List Packet :=
  results.filterMap fun
    | .ok r => if r.error.ok then some r.packet else none
    | .error _ => none

theorem successes_concat (results : List (Except Abort Received)) (r : Received) :
    successes (results ++ [.ok r])
      = successes results ++ if r.error.ok then [r.packet] else [] := by
  unfold successes
  rw [List.filterMap_append]
  cases hok : r.error.ok <;> simp [hok]

/-- The packets this side has received. -/
def Peer.successes (p : Peer) : List Packet := Peers.successes p.received

/-- The bytes this side has written. -/
def Peer.written (p : Peer) : List UInt8 := Network.written p.fd p.history

/-- The bytes this side has read. -/
def Peer.consumed (p : Peer) : List UInt8 := Network.consumed p.fd p.history

/-! ## Steps

A label has the choices of all parties in it: what the program does next, and what the kernel
makes of a call.
-/

/-- What the kernel does with a system call: it moves `n` bytes, fails, reports the end of the
stream, or does something that moves nothing. -/
inductive Choice where
  | moves (n : Nat)
  | fails
  | ends
  | done
  deriving DecidableEq, Repr

inductive Act where
  | send (side : Side) (packet : Packet)
  | receive (side : Side) (packet : Packet) (protocolError : Option ProtocolError)
  | disconnect (side : Side)
  | system (side : Side) (choice : Choice)
  | returns (side : Side)

/-- The result of the system call `op` of `side`. -/
def answer (s : State) (side : Side) : (op : Sys) → Choice → Option op.Res
  | .send _ data _, .moves n => if 0 < n ∧ n ≤ data.length then some (n : Int) else none
  | .send _ _ _, .fails => some (-1 : Int)
  | .recv _ size _, .moves n =>
    if 0 < n ∧ n ≤ size ∧ n ≤ (s.wire side.other).length then
      some (some ((s.wire side.other).take n))
    else none
  | .recv _ _ _, .fails => some none
  | .recv _ _ _, .ends =>
    if s.wire side.other = [] ∧ s.closed side.other = true then some (some []) else none
  | .close _, .done => some ()
  | _, _ => none

/-- `side` has got an answer and goes on with `program`. -/
def State.deliver (s : State) (side : Side) (e : SysEvent) (call : Call) : State where
  peer := Function.update s.peer side
    { s.peer side with call := some call, history := e :: (s.peer side).history }
  wire := Function.update
    (Function.update s.wire side (s.wire side ++ sent (s.peer side).fd e)) side.other
    ((s.wire side.other).drop (taken (s.peer side).fd e).length)
  closed := Function.update s.closed side
    (s.closed side || decide (released e = some (s.peer side).fd))

/-- `side` has started a call. -/
def State.start (s : State) (side : Side) (kind : Kind) (passed : List Packet)
    (program : SysM Returned) : State :=
  { s with peer := Function.update s.peer side { s.peer side with
      call := some ⟨kind, (s.peer side).history, program⟩
      passed := (s.peer side).passed ++ passed } }

/-- What a side keeps of the result of a call. -/
def Peer.finish (p : Peer) (before : SysHistory) : Returned → Peer
  | .sent error => { p with
      call := none
      sendStopped := p.sendStopped ||
        decide (error.code = .SocketError ∧ p.written ≠ Network.written p.fd before) }
  | .received (.ok r) => { p with
      call := none
      transport := r.transport
      received := p.received ++ [.ok r]
      receiveStopped := p.receiveStopped ||
        decide (r.error.code = .SocketError ∧ p.consumed ≠ Network.consumed p.fd before) }
  | .received (.error e) => { p with
      call := none
      received := p.received ++ [.error e]
      receiveStopped := true }
  | .disconnected connection => { p with call := none, transport := ⟨connection⟩ }

/-- One step. A side starts a call only when it has none in progress, and a send or receive
only when its transport is connected. -/
def step (host : Side → Platform) (s : State) : Act → Option State
  | .send side packet =>
    if (s.peer side).call.isNone ∧ (s.peer side).transport.isConnected = true then
      some (s.start side .sending [packet]
        ((PacketIo.send (host side) (s.peer side).transport packet).bind fun e => .ret (.sent e)))
    else none
  | .receive side packet protocolError =>
    if (s.peer side).call.isNone ∧ (s.peer side).transport.isConnected = true then
      some (s.start side .receiving []
        ((PacketIo.receive (host side) (s.peer side).transport packet protocolError).bind
          fun r => .ret (.received r)))
    else none
  | .disconnect side =>
    if (s.peer side).call.isNone then
      some (s.start side .disconnecting []
        ((s.peer side).transport.connection.disconnect.bind fun c => .ret (.disconnected c)))
    else none
  | .system side choice =>
    match (s.peer side).call with
    | some ⟨kind, before, .call op k⟩ =>
      (answer s side op choice).map fun r => s.deliver side ⟨op, r⟩ ⟨kind, before, k r⟩
    | _ => none
  | .returns side =>
    match (s.peer side).call with
    | some ⟨_, before, .ret r⟩ =>
      some { s with peer := Function.update s.peer side ((s.peer side).finish before r) }
    | _ => none

/-- The machine: it starts with an established connection. -/
def machine (host : Side → Platform) : Machine State Act :=
  .ofStep (fun s => (∀ side, ∃ fd, 0 ≤ fd ∧ s.peer side = .connected fd) ∧
    (∀ side, s.wire side = []) ∧ ∀ side, s.closed side = false) (step host)

/-- What a step can do, with what it finds in its hypotheses. The proofs about the machine go by
cases on this relation. -/
inductive Step (host : Side → Platform) (s : State) : Act → State → Prop
  | send {side : Side} {packet : Packet} : (s.peer side).call = none →
      (s.peer side).transport.isConnected = true →
      Step host s (.send side packet) (s.start side .sending [packet]
        ((PacketIo.send (host side) (s.peer side).transport packet).bind fun e => .ret (.sent e)))
  | receive {side : Side} {packet : Packet} {protocolError : Option ProtocolError} :
      (s.peer side).call = none → (s.peer side).transport.isConnected = true →
      Step host s (.receive side packet protocolError) (s.start side .receiving []
        ((PacketIo.receive (host side) (s.peer side).transport packet protocolError).bind
          fun r => .ret (.received r)))
  | disconnect {side : Side} : (s.peer side).call = none →
      Step host s (.disconnect side) (s.start side .disconnecting []
        ((s.peer side).transport.connection.disconnect.bind fun c => .ret (.disconnected c)))
  | system {side : Side} {choice : Choice} {kind : Kind} {before : SysHistory} {op : Sys}
      {k : op.Res → SysM Returned} {r : op.Res} :
      (s.peer side).call = some ⟨kind, before, .call op k⟩ → answer s side op choice = some r →
      Step host s (.system side choice) (s.deliver side ⟨op, r⟩ ⟨kind, before, k r⟩)
  | returns {side : Side} {kind : Kind} {before : SysHistory} {r : Returned} :
      (s.peer side).call = some ⟨kind, before, .ret r⟩ →
      Step host s (.returns side)
        { s with peer := Function.update s.peer side ((s.peer side).finish before r) }

theorem step_cases {host : Side → Platform} {s s' : State} {a : Act} (h : step host s a = some s') :
    Step host s a s' := by
  cases a with
  | send side packet =>
      simp only [step, Option.isNone_iff_eq_none] at h
      split_ifs at h with hidle
      obtain rfl := Option.some.inj h
      exact .send hidle.1 hidle.2
  | receive side packet protocolError =>
      simp only [step, Option.isNone_iff_eq_none] at h
      split_ifs at h with hidle
      obtain rfl := Option.some.inj h
      exact .receive hidle.1 hidle.2
  | disconnect side =>
      simp only [step, Option.isNone_iff_eq_none] at h
      split_ifs at h with hidle
      obtain rfl := Option.some.inj h
      exact .disconnect hidle
  | system side choice =>
      rw [step] at h
      split at h
      · next hcall =>
          obtain ⟨r, hr, rfl⟩ := Option.map_eq_some_iff.mp h
          exact .system hcall hr
      · exact absurd h (by simp)
  | returns side =>
      rw [step] at h
      split at h
      · next hcall =>
          obtain rfl := Option.some.inj h
          exact .returns hcall
      · exact absurd h (by simp)

end Peers

end PacketForge.Protocol
