import PacketForge.Objects.Ownership

set_option autoImplicit false

/-! # The connection that an object stands for

The states of the machine do not say on which descriptor an object was connected, nor whether it
lost its connection. `Linked` adds for each place what the runs of the machine tell about it: the
latest successful `connect` or `accept`, of the object itself or moved in, and whether it was
disconnected or saw the end of the stream since. `Op.relink` reads both off an operation, its
outcome and the system calls it made, not off the state of the objects.

That is the point of it: `Staleness` compares what the objects say of themselves, in their flags
and descriptors, with what has really happened, and the second must not be defined by the first.

Callers of `linkedMachine` do not modify the socket that they get from `Connection::socket()`. The
class gives it out as a reference, and a caller that closes it takes the descriptor away from a
connection that goes on believing that it is connected.
-/

namespace PacketForge.Objects

open Interaction Common Network Protocol

/-! ## Objects with a connection -/

namespace Obj

/-- The connection inside of an object. -/
def connection? : Obj → Option Connection
  | .connection c => some c
  | .transport t => some t.connection
  | .client c => some c.transport.connection
  | _ => none

/-- Where the `packetIO_` of an object refers to. -/
def packetIo? : Obj → Option Loc
  | .client c => some c.packetIo
  | _ => none

end Obj

/-! ## Links -/

/-- What happened to the connection of an object: the descriptor and the history of its latest
successful `connect` or `accept`, and whether the connection is known to be gone since. -/
structure Link where
  established : Option (Int × SysHistory)
  dropped : Bool

namespace Link

def initial : Link := ⟨none, false⟩

/-- After a call that may establish a connection. -/
def establish (link : Link) (success : Bool) (h : SysHistory) : Link :=
  if success then ⟨(Network.established h).map (·, h), false⟩ else link

/-- After a move from an object with this link. -/
def moveIn (link : Link) : Link := ⟨link.established, false⟩

def drop (link : Link) : Link := ⟨link.established, true⟩

/-- After a call that may have seen the end of the stream. -/
def observe (link : Link) (h h' : SysHistory) : Link :=
  if (h'.take (h'.length - h.length)).any sawPeerClose then link.drop else link

end Link

/-- What a member function does to the link of its object. -/
def Call.relink (outcome : Outcome) (h h' : SysHistory) (link : Link) : Call → Link
  | .connect _ _ => link.establish outcome.success h'
  | .disconnect => link.drop
  | .receive _ _ => link.observe h h'
  | _ => link

/-- What an operation does to the links. -/
def Op.relink (outcome : Outcome) (h h' : SysHistory) (links : Loc → Link) : Op → Loc → Link
  | .construct _ i => Function.update links i .initial
  | .transportOf i j => Function.update links i (links j).moveIn
  | .moveConstruct _ i j => Function.update links i (links j).moveIn
  | .moveAssign _ i j => if i = j then links else Function.update links i (links j).moveIn
  | .call _ i method => Function.update links i (method.relink outcome h h' (links i))
  | .connectionAccept i _ => Function.update links i ((links i).establish outcome.success h')
  | .serverAccept _ j => Function.update links j ((links j).establish outcome.success h')
  | .clientReceive i _ => Function.update links i ((links i).observe h h')
  | _ => links

/-! ## Callers that leave the socket of a connection alone -/

/-- No connection has the socket of the object at `i`. -/
def Heap.Standalone (heap : Heap) (i : Loc) : Prop :=
  ∀ o, heap.obj? i = some o → o.connection? = none

/-- `Connection::socket()` is not used to modify the socket of a connection. It may be used to
bind it when it is open, to listen, and to accept from it. -/
def Op.RespectsRaw (heap : Heap) : Op → Prop
  | .call .socket _ (.listen _) => True
  | .call .socket i (.bind _ _) => heap.Standalone i ∨
      ∃ s : Socket, heap.part? .socket i = some (.socket s) ∧ s.isOpen = true
  | .call .socket i _ => heap.Standalone i
  | .moveConstruct .socket _ j => heap.Standalone j
  | .moveAssign .socket i j => i = j ∨ (heap.Standalone i ∧ heap.Standalone j)
  | .socketAccept _ j => heap.Standalone j
  | _ => True

/-! ## The machine -/

structure Linked extends State where
  links : Loc → Link

inductive LinkedStep (host : Platform) (s : Linked) : Op × Outcome → Linked → Prop
  | run {op : Op} {outcome : Outcome} {t : State} : op.RespectsRaw s.heap →
      Step host s.toState (op, outcome) t →
      LinkedStep host s (op, outcome)
        ⟨t, op.relink outcome s.history t.history s.links⟩

def linkedMachine (host : Platform) : Machine Linked (Op × Outcome) :=
  ⟨fun s => ∃ places, s = ⟨⟨List.replicate places none, []⟩, fun _ => .initial⟩, LinkedStep host⟩

/-- One operation on a kernel that is a function of the history. -/
def Linked.execute (host : Platform) (kernel : SysHistory → (op : Sys) → op.Res) (s : Linked)
    (op : Op) : Option Linked :=
  (op.run host s.heap).map fun p =>
    ⟨⟨(p.run kernel s.history).1.2, (p.run kernel s.history).2⟩,
      op.relink (p.run kernel s.history).1.1 s.history (p.run kernel s.history).2 s.links⟩

theorem reachable_linked_execute {host : Platform} {kernel : SysHistory → (op : Sys) → op.Res}
    (hkernel : ∀ h op, Kernel h op (kernel h op)) {ops : List Op}
    (hraw : ∀ op ∈ ops, ∀ heap, op.RespectsRaw heap) {s s' : Linked}
    (hs : (linkedMachine host).Reachable s)
    (hexecute : Machine.execute (Linked.execute host kernel) s ops = some s') :
    (linkedMachine host).Reachable s' := by
  induction ops generalizing s with
  | nil =>
      obtain rfl : s = s' := by simpa [Machine.execute] using hexecute
      exact hs
  | cons op ops ih =>
      obtain ⟨t, ht, hrest⟩ := Option.bind_eq_some_iff.mp hexecute
      obtain ⟨p, hp, rfl⟩ := Option.map_eq_some_iff.mp ht
      obtain ⟨hop, hops⟩ := List.forall_mem_cons.mp hraw
      obtain ⟨s₀, labels, h₀, hpath⟩ := hs
      have hstep : Step host s.toState (op, (p.run kernel s.history).1.1)
          ⟨(p.run kernel s.history).1.2, (p.run kernel s.history).2⟩ :=
        .run hp (Prog.run_runs hkernel p s.history)
      exact ih hops ⟨s₀, _, h₀, hpath.snoc (LinkedStep.run (hop s.heap) hstep)⟩ hrest

/-! ## The invariant of one object -/

/-- The connection of an object, its flag and its `packetIO_` agree with what happened. -/
structure LinkInv (i : Loc) (o : Obj) (link : Link) (h : SysHistory) : Prop where
  live : ∀ c, o.connection? = some c → Live link.established c h
  dropped : ∀ c, o.connection? = some c → link.dropped = true → c.connected = false
  packetIo : ∀ j, o.packetIo? = some j → j = i

section

variable {i : Loc} {o o' : Obj} {link : Link} {h h' : SysHistory}

theorem LinkInv.congr (hinv : LinkInv i o link h) (hconnection : o'.connection? = o.connection?)
    (hreference : o'.packetIo? = o.packetIo?) : LinkInv i o' link h := by
  obtain ⟨hlive, hdropped, hio⟩ := hinv
  constructor
  · rw [hconnection]
    exact hlive
  · rw [hconnection]
    exact hdropped
  · rw [hreference]
    exact hio

theorem linkInv_of_none (hconnection : o.connection? = none) : LinkInv i o link h := by
  have hio : o.packetIo? = none := by
    cases o <;> first | rfl | cases hconnection
  constructor
  · rw [hconnection]
    exact nofun
  · rw [hconnection]
    exact nofun
  · rw [hio]
    exact nofun

/-- An object that is not connected agrees with every link. -/
theorem linkInv_of_not_connected (hnot : ∀ c, o.connection? = some c → c.connected = false)
    (hio : ∀ j, o.packetIo? = some j → j = i) : LinkInv i o link h :=
  ⟨fun c hc => live_of_not_connected (hnot c hc), fun c hc _ => hnot c hc, hio⟩

/-- Time passes, and nobody closes the descriptor of the object. -/
theorem LinkInv.extend (hinv : LinkInv i o link h)
    (hext : o.sock.isOpen = true → NotClosed o.sock.socket h h') : LinkInv i o link h' := by
  refine ⟨fun c hc hconnected => ?_, hinv.dropped, hinv.packetIo⟩
  obtain ⟨hopen, h₀, hlink, hclosed⟩ := hinv.live c hc hconnected
  have hsock : o.sock = c.socket := by
    cases o <;> cases hc <;> rfl
  rw [hsock] at hext
  exact ⟨hopen, h₀, hlink, hclosed.trans (hext hopen)⟩

end

end PacketForge.Objects
