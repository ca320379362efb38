import PacketForge.Client.Client
import PacketForge.Lib.Machine
import PacketForge.Server.Server

set_option autoImplicit false

/-! # Programs over any number of objects

Memory is a list of places, each free or with an object of one of the five classes that own a
socket. `Op` are the things a program can do with them: construct, move and destroy objects, and
call their member functions. A caller reaches the socket inside of a `Connection` through
`Connection::socket()` and the connection inside of a `Transport` through
`Transport::connection()`; `Obj.part` and `Obj.put` read and write an object through such a
reference. What a `Client` and a `Server` own is private.

`Op.run` is the program of an operation, and `machine` the system of all its runs under any
kernel.

## Conventions

* An operation is defined only where its objects exist and have the classes it needs: a caller
  that does not keep to the types of the language has no program here.
* One operation runs to its end before the next one starts. The classes are not made for
  concurrent use, and the results are about sequences of calls in any order.
* `Op.run` is a function, so that runs can be evaluated. The proofs use `Executes`, a relation
  with one constructor for each operation, which says what the operation has found in memory.
-/

namespace PacketForge.Objects

open Interaction Common Network Protocol

/-! ## Objects and memory

The member functions themselves are those of the modules of the classes; here they are only chosen
by the class of the object.
-/

inductive Obj where
  | socket (s : Socket)
  | connection (c : Connection)
  | transport (t : Transport)
  | client (c : Client)
  | server (s : Server)
  deriving DecidableEq, Repr

/-- The classes. -/
inductive Kind where
  | socket
  | connection
  | transport
  | client
  | server
  deriving DecidableEq, Repr

namespace Obj

/-- The socket inside of an object. -/
def sock : Obj → Socket
  | .socket s => s
  | .connection c => c.socket
  | .transport t => t.connection.socket
  | .client c => c.transport.connection.socket
  | .server s => s.socket

/-- The object, or the part of it that its accessors give to callers, of a class. -/
def part : Kind → Obj → Option Obj
  | .socket, .socket s => some (.socket s)
  | .socket, .connection c => some (.socket c.socket)
  | .socket, .transport t => some (.socket t.connection.socket)
  | .connection, .connection c => some (.connection c)
  | .connection, .transport t => some (.connection t.connection)
  | .transport, .transport t => some (.transport t)
  | .client, .client c => some (.client c)
  | .server, .server s => some (.server s)
  | _, _ => none

/-- The object after a part of it was written. -/
def put : Obj → Obj → Obj
  | .connection c, .socket s => .connection { c with socket := s }
  | .transport t, .socket s => .transport ⟨{ t.connection with socket := s }⟩
  | .transport _, .connection c => .transport ⟨c⟩
  | _, part => part

/-- The default constructors, at the location `this`. -/
def new (this : Loc) : Kind → Obj
  | .socket => .socket .new
  | .connection => .connection .new
  | .transport => .transport .new
  | .client => .client (.new this)
  | .server => .server .new

/-- The destructors. -/
def destruct : Obj → SysM Unit
  | .socket s => s.destruct
  | .connection c => c.destruct
  | .transport t => t.destruct
  | .client c => c.destruct
  | .server s => s.destruct

/-- The move constructors, at the location `this`: the new object and the state of `other`. -/
def moveConstruct (this : Loc) : Obj → Obj × Obj
  | .socket other => other.moveConstruct.map .socket .socket
  | .connection other => other.moveConstruct.map .connection .connection
  | .transport other => other.moveConstruct.map .transport .transport
  | .client other => (other.moveConstruct this).map .client .client
  | .server other => other.moveConstruct.map .server .server

/-- The move assignments, for two different objects of one class. -/
def moveAssign : Obj → Obj → Option (SysM (Obj × Obj))
  | .socket self, .socket other => some do
      let (self, other) ← self.moveAssign other
      pure (.socket self, .socket other)
  | .connection self, .connection other => some do
      let (self, other) ← self.moveAssign other
      pure (.connection self, .connection other)
  | .transport self, .transport other => some do
      let (self, other) ← self.moveAssign other
      pure (.transport self, .transport other)
  | .client self, .client other => some do
      let (self, other) ← self.moveAssign other
      pure (.client self, .client other)
  | .server self, .server other => some do
      let (self, other) ← self.moveAssign other
      pure (.server self, .server other)
  | _, _ => none

end Obj

/-- What a call gives to its caller: nothing, an error, an error and an output argument, or an
exception. -/
inductive Outcome where
  | done
  | returned (error : Error)
  | received (error : Error) (data : List UInt8)
  | packet (error : Error) (packet : Packet)
  | thrown (abort : Abort)
  deriving DecidableEq

def Outcome.success : Outcome → Bool
  | .returned error => error.ok
  | _ => false

/-- The member functions that concern one object and its arguments only. Those with a second
object are operations of their own. -/
inductive Call where
  | create
  | bind (address : String) (port : UInt16)
  | listen (backlog : Int)
  | close
  | open
  | connect (address : String) (port : UInt16)
  | disconnect
  | send (data : List UInt8)
  | receive (data : List UInt8) (size : Nat)
  | start (address : String) (port : UInt16)
  | stop
  deriving DecidableEq, Repr

/-- The call of a member function, where the class has it. -/
def Obj.call (host : Platform) : Call → Obj → Option (SysM (Outcome × Obj))
  | .create, .socket s => some do
      let (error, s) ← s.create
      pure (.returned error, .socket s)
  | .bind address port, .socket s => some do
      let (error, s) ← s.bind address port
      pure (.returned error, .socket s)
  | .listen backlog, .socket s => some do
      let error ← s.listen backlog
      pure (.returned error, .socket s)
  | .close, .socket s => some do
      let s ← s.close
      pure (.done, .socket s)
  | .open, .connection c => some do
      let (error, c) ← c.open
      pure (.returned error, .connection c)
  | .connect address port, .connection c => some do
      let (error, c) ← c.connect address port
      pure (.returned error, .connection c)
  | .disconnect, .connection c => some do
      let c ← c.disconnect
      pure (.done, .connection c)
  | .send data, .transport t => some do
      let error ← t.send data
      pure (.returned error, .transport t)
  | .receive data size, .transport t => some do
      let r ← t.receive host data size
      match r with
      | .ok (error, data, t) => pure (.received error data, .transport t)
      | .error .bad_alloc => pure (.thrown (.throws .bad_alloc), .transport t)
  | .connect address port, .client c => some do
      let (error, c) ← c.connect address port
      pure (.returned error, .client c)
  | .disconnect, .client c => some do
      let c ← c.disconnect
      pure (.done, .client c)
  | .start address port, .server s => some do
      let (error, s) ← s.start address port
      pure (.returned error, .server s)
  | .stop, .server s => some do
      let s ← s.stop
      pure (.done, .server s)
  | _, _ => none

abbrev Heap := List (Option Obj)

namespace Heap

/-- The object at `i`. -/
def obj? (heap : Heap) (i : Loc) : Option Obj := heap[i]?.join

/-- Construct or destroy the object at `i`. -/
def store (heap : Heap) (i : Loc) (cell : Option Obj) : Heap := heap.set i cell

/-- The part of the object at `i` that a reference to a `kind` stands for. -/
def part? (heap : Heap) (kind : Kind) (i : Loc) : Option Obj := (heap.obj? i).bind (·.part kind)

/-- Write to the object at `i` through a reference to a part of it. -/
def put (heap : Heap) (i : Loc) (part : Obj) : Heap :=
  match heap.obj? i with
  | some o => heap.store i (some (o.put part))
  | none => heap

/-- The transport of the object at `i`, which a `PacketIO` may refer to. -/
def transport? (heap : Heap) (i : Loc) : Option Transport :=
  match heap.obj? i with
  | some (.transport t) => some t
  | some (.client c) => some c.transport
  | _ => none

/-- Write to the transport of the object at `i`. -/
def putTransport (heap : Heap) (i : Loc) (t : Transport) : Heap :=
  match heap.obj? i with
  | some (.transport _) => heap.store i (some (.transport t))
  | some (.client c) => heap.store i (some (.client { c with transport := t }))
  | _ => heap

end Heap

/-! ## Operations -/

/-- What a program can do. `construct kind i` is a default constructor at the free place `i`, and
`transportOf i j` is `Transport(std::move(connection at j))`. In the `accept`s, `i` is the object
whose member function is called and `j` its argument. -/
inductive Op where
  | construct (kind : Kind) (i : Loc)
  | transportOf (i j : Loc)
  | moveConstruct (kind : Kind) (i j : Loc)
  | moveAssign (kind : Kind) (i j : Loc)
  | call (kind : Kind) (i : Loc) (method : Call)
  | socketAccept (i j : Loc)
  | connectionAccept (i j : Loc)
  | serverAccept (i j : Loc)
  | clientSend (i : Loc) (packet : Packet)
  | clientReceive (i : Loc) (packet : Packet)
  | destruct (i : Loc)
  deriving DecidableEq

/-- What `Client::receive` leaves behind, for the transport of the object at `i`. -/
def Heap.received (heap : Heap) (i : Loc) :
    Except Abort (Error × Packet × Transport) → Outcome × Heap
  | .ok (error, packet, referenced) => (.packet error packet, heap.putTransport i referenced)
  | .error abort => (.thrown abort, heap)

/-- The program of an operation, where its objects exist and are of the classes that it needs: it
runs the member function and writes the changed objects back. -/
def Op.run (host : Platform) (heap : Heap) : Op → Option (SysM (Outcome × Heap))
  | .construct kind i =>
    match heap[i]? with
    | some none => some (pure (.done, heap.store i (some (.new i kind))))
    | _ => none
  | .transportOf i j =>
    match heap[i]?, heap.part? .connection j with
    | some none, some (.connection c) => some do
        let (t, c) ← Transport.ofConnection c
        pure (.done, (heap.store i (some (.transport t))).put j (.connection c))
    | _, _ => none
  | .moveConstruct kind i j =>
    match heap[i]?, heap.part? kind j with
    | some none, some other =>
        some (pure (.done, (heap.store i (some (other.moveConstruct i).1)).put j
          (other.moveConstruct i).2))
    | _, _ => none
  | .moveAssign kind i j =>
    match heap.part? kind i, heap.part? kind j with
    | some self, some other =>
      if i = j then some (pure (.done, heap))
      else (self.moveAssign other).map fun p => do
        let (self, other) ← p
        pure (.done, (heap.put i self).put j other)
    | _, _ => none
  | .call kind i method =>
    match heap.part? kind i with
    | some self => (self.call host method).map fun p => do
        let (outcome, self) ← p
        pure (outcome, heap.put i self)
    | none => none
  | .socketAccept i j =>
    match heap.part? .socket i, heap.part? .socket j with
    | some (.socket self), some (.socket client) => some do
        let (error, client) ← self.accept client
        pure (.returned error, heap.put j (.socket client))
    | _, _ => none
  | .connectionAccept i j =>
    match heap.part? .connection i, heap.part? .socket j with
    | some (.connection self), some (.socket listeningSocket) => some do
        let (error, self) ← self.accept listeningSocket
        pure (.returned error, heap.put i (.connection self))
    | _, _ => none
  | .serverAccept i j =>
    match heap.part? .server i, heap.part? .connection j with
    | some (.server self), some (.connection connection) => some do
        let (error, connection) ← self.accept connection
        pure (.returned error, heap.put j (.connection connection))
    | _, _ => none
  | .clientSend i packet =>
    match heap.obj? i with
    | some (.client self) => (heap.transport? self.packetIo).map fun referenced => do
        let error ← self.send host referenced packet
        pure (.returned error, heap)
    | _ => none
  | .clientReceive i packet =>
    match heap.obj? i with
    | some (.client self) => (heap.transport? self.packetIo).map fun referenced => do
        let r ← self.receive host referenced packet
        pure (heap.received self.packetIo r)
    | _ => none
  | .destruct i =>
    match heap.obj? i with
    | some self => some do
        self.destruct
        pure (.done, heap.store i none)
    | none => none

theorem Heap.part?_eq {heap : Heap} {kind : Kind} {i : Loc} {a : Obj}
    (hpart : heap.part? kind i = some a) : ∃ o, heap.obj? i = some o ∧ o.part kind = some a :=
  Option.bind_eq_some_iff.mp hpart

/-- The programs of the operations, with the objects that they found. One constructor for each
kind of operation, with what has to be there in its hypotheses; the program is the one of
`Op.run`. -/
inductive Executes (host : Platform) (heap : Heap) : Op → SysM (Outcome × Heap) → Prop
  | construct {kind : Kind} {i : Loc} : heap[i]? = some none →
      Executes host heap (.construct kind i) (pure (.done, heap.store i (some (.new i kind))))
  | transportOf {i j : Loc} {o : Obj} {c : Connection} : heap[i]? = some none →
      heap.obj? j = some o → o.part .connection = some (.connection c) →
      Executes host heap (.transportOf i j) (do
        let (t, c) ← Transport.ofConnection c
        pure (.done, (heap.store i (some (.transport t))).put j (.connection c)))
  | moveConstruct {kind : Kind} {i j : Loc} {o other : Obj} : heap[i]? = some none →
      heap.obj? j = some o → o.part kind = some other →
      Executes host heap (.moveConstruct kind i j)
        (pure (.done, (heap.store i (some (other.moveConstruct i).1)).put j
          (other.moveConstruct i).2))
  | moveAssignSelf {kind : Kind} {i : Loc} :
      Executes host heap (.moveAssign kind i i) (pure (.done, heap))
  | moveAssign {kind : Kind} {i j : Loc} {o o' self other : Obj} {p : SysM (Obj × Obj)} : i ≠ j →
      heap.obj? i = some o → o.part kind = some self →
      heap.obj? j = some o' → o'.part kind = some other → self.moveAssign other = some p →
      Executes host heap (.moveAssign kind i j) (do
        let (self, other) ← p
        pure (.done, (heap.put i self).put j other))
  | call {kind : Kind} {i : Loc} {method : Call} {o self : Obj} {p : SysM (Outcome × Obj)} :
      heap.obj? i = some o → o.part kind = some self → self.call host method = some p →
      Executes host heap (.call kind i method) (do
        let (outcome, self) ← p
        pure (outcome, heap.put i self))
  | socketAccept {i j : Loc} {self client : Socket} {o : Obj} :
      heap.part? .socket i = some (.socket self) →
      heap.obj? j = some o → o.part .socket = some (.socket client) →
      Executes host heap (.socketAccept i j) (do
        let (error, client) ← self.accept client
        pure (.returned error, heap.put j (.socket client)))
  | connectionAccept {i j : Loc} {self : Connection} {listeningSocket : Socket} {o : Obj} :
      heap.obj? i = some o → o.part .connection = some (.connection self) →
      heap.part? .socket j = some (.socket listeningSocket) →
      Executes host heap (.connectionAccept i j) (do
        let (error, self) ← self.accept listeningSocket
        pure (.returned error, heap.put i (.connection self)))
  | serverAccept {i j : Loc} {self : Server} {connection : Connection} {o : Obj} :
      heap.part? .server i = some (.server self) →
      heap.obj? j = some o → o.part .connection = some (.connection connection) →
      Executes host heap (.serverAccept i j) (do
        let (error, connection) ← self.accept connection
        pure (.returned error, heap.put j (.connection connection)))
  | clientSend {i : Loc} {packet : Packet} {self : Client} {referenced : Transport} :
      heap.obj? i = some (.client self) → heap.transport? self.packetIo = some referenced →
      Executes host heap (.clientSend i packet) (do
        let error ← self.send host referenced packet
        pure (.returned error, heap))
  | clientReceive {i : Loc} {packet : Packet} {self : Client} {referenced : Transport} :
      heap.obj? i = some (.client self) → heap.transport? self.packetIo = some referenced →
      Executes host heap (.clientReceive i packet) (do
        let r ← self.receive host referenced packet
        pure (heap.received self.packetIo r))
  | destruct {i : Loc} {self : Obj} : heap.obj? i = some self →
      Executes host heap (.destruct i) (do
        self.destruct
        pure (.done, heap.store i none))

/-- What there is to know about an operation that runs. -/
theorem Op.executes {host : Platform} {heap : Heap} {op : Op} {p : SysM (Outcome × Heap)}
    (hrun : op.run host heap = some p) : Executes host heap op p := by
  cases op with
  | construct kind i =>
      simp only [Op.run] at hrun
      split at hrun
      · next hfree =>
          obtain rfl := Option.some.inj hrun
          exact .construct hfree
      · cases hrun
  | transportOf i j =>
      simp only [Op.run] at hrun
      split at hrun
      · next c hfree hpart =>
          obtain rfl := Option.some.inj hrun
          obtain ⟨o, hobj, hpart⟩ := Heap.part?_eq hpart
          exact .transportOf hfree hobj hpart
      · cases hrun
  | moveConstruct kind i j =>
      simp only [Op.run] at hrun
      split at hrun
      · next other hfree hpart =>
          obtain rfl := Option.some.inj hrun
          obtain ⟨o, hobj, hpart⟩ := Heap.part?_eq hpart
          exact .moveConstruct hfree hobj hpart
      · cases hrun
  | moveAssign kind i j =>
      simp only [Op.run] at hrun
      split at hrun
      · next self other hself hother =>
          by_cases heq : i = j
          · subst heq
            rw [if_pos rfl] at hrun
            obtain rfl := Option.some.inj hrun
            exact .moveAssignSelf
          · rw [if_neg heq] at hrun
            obtain ⟨p, hp, rfl⟩ := Option.map_eq_some_iff.mp hrun
            obtain ⟨o, hobj, hpart⟩ := Heap.part?_eq hself
            obtain ⟨o', hobj', hpart'⟩ := Heap.part?_eq hother
            exact .moveAssign heq hobj hpart hobj' hpart' hp
      · cases hrun
  | call kind i method =>
      simp only [Op.run] at hrun
      split at hrun
      · next self hself =>
          obtain ⟨p, hp, rfl⟩ := Option.map_eq_some_iff.mp hrun
          obtain ⟨o, hobj, hpart⟩ := Heap.part?_eq hself
          exact .call hobj hpart hp
      · cases hrun
  | socketAccept i j =>
      simp only [Op.run] at hrun
      split at hrun
      · next self client hself hclient =>
          obtain rfl := Option.some.inj hrun
          obtain ⟨o, hobj, hpart⟩ := Heap.part?_eq hclient
          exact .socketAccept hself hobj hpart
      · cases hrun
  | connectionAccept i j =>
      simp only [Op.run] at hrun
      split at hrun
      · next self listeningSocket hself hlistening =>
          obtain rfl := Option.some.inj hrun
          obtain ⟨o, hobj, hpart⟩ := Heap.part?_eq hself
          exact .connectionAccept hobj hpart hlistening
      · cases hrun
  | serverAccept i j =>
      simp only [Op.run] at hrun
      split at hrun
      · next self connection hself hconnection =>
          obtain rfl := Option.some.inj hrun
          obtain ⟨o, hobj, hpart⟩ := Heap.part?_eq hconnection
          exact .serverAccept hself hobj hpart
      · cases hrun
  | clientSend i packet =>
      simp only [Op.run] at hrun
      split at hrun
      · next self hself =>
          obtain ⟨referenced, hreferenced, rfl⟩ := Option.map_eq_some_iff.mp hrun
          exact .clientSend hself hreferenced
      · cases hrun
  | clientReceive i packet =>
      simp only [Op.run] at hrun
      split at hrun
      · next self hself =>
          obtain ⟨referenced, hreferenced, rfl⟩ := Option.map_eq_some_iff.mp hrun
          exact .clientReceive hself hreferenced
      · cases hrun
  | destruct i =>
      simp only [Op.run] at hrun
      split at hrun
      · next self hself =>
          obtain rfl := Option.some.inj hrun
          exact .destruct hself
      · cases hrun

/-! ## The machine -/

structure State where
  heap : Heap
  history : SysHistory

/-- An operation runs to its end and gives the outcome, under any kernel. -/
inductive Step (host : Platform) (s : State) : Op × Outcome → State → Prop
  | run {op : Op} {p : SysM (Outcome × Heap)} {outcome : Outcome} {heap : Heap}
      {history : SysHistory} : op.run host s.heap = some p →
      Runs Kernel p s.history (outcome, heap) history → Step host s (op, outcome) ⟨heap, history⟩

/-- All runs that start in a free memory of any size. -/
def machine (host : Platform) : Machine State (Op × Outcome) :=
  ⟨fun s => ∃ places, s = ⟨List.replicate places none, []⟩, Step host⟩

/-! ## Runs on a given kernel -/

/-- One operation on a kernel that is a function of the history. -/
def State.execute (host : Platform) (kernel : SysHistory → (op : Sys) → op.Res) (s : State)
    (op : Op) : Option State :=
  (op.run host s.heap).map fun p =>
    ⟨(p.run kernel s.history).1.2, (p.run kernel s.history).2⟩

theorem reachable_execute {host : Platform} {kernel : SysHistory → (op : Sys) → op.Res}
    (hkernel : ∀ h op, Kernel h op (kernel h op)) {ops : List Op} {s s' : State}
    (hs : (machine host).Reachable s)
    (hexecute : Machine.execute (State.execute host kernel) s ops = some s') :
    (machine host).Reachable s' := by
  induction ops generalizing s with
  | nil =>
      obtain rfl : s = s' := by simpa [Machine.execute] using hexecute
      exact hs
  | cons op ops ih =>
      obtain ⟨t, ht, hrest⟩ := Option.bind_eq_some_iff.mp hexecute
      obtain ⟨p, hp, rfl⟩ := Option.map_eq_some_iff.mp ht
      obtain ⟨s₀, labels, h₀, hpath⟩ := hs
      have hstep : Step host s (op, (p.run kernel s.history).1.1)
          ⟨(p.run kernel s.history).1.2, (p.run kernel s.history).2⟩ :=
        .run hp (Prog.run_runs hkernel p s.history)
      exact ih ⟨s₀, _, h₀, hpath.snoc hstep⟩ hrest

/-- A kernel with the descriptors 3 and 4 on which every other call succeeds, and whose peers
close at once. -/
def twoDescriptors (h : SysHistory) : (op : Sys) → op.Res
  | .socket => ⟨if IsOpen h 3 then if IsOpen h 4 then -1 else 4 else 3, ""⟩
  | .accept _ => ⟨if IsOpen h 3 then if IsOpen h 4 then -1 else 4 else 3, ""⟩
  | .setsockopt _ => ⟨0, ""⟩
  | .inet_pton _ => (1 : Int)
  | .bind _ _ _ => ⟨0, ""⟩
  | .listen _ _ => ⟨0, ""⟩
  | .getsockname _ => (⟨0, ""⟩, 8080)
  | .connect _ _ _ => ⟨0, ""⟩
  | .send _ data _ => (data.length : Int)
  | .recv _ _ _ => some []
  | .close _ => ()
  | .shutdownRequested => false
  | .cinGet => ()

theorem twoDescriptors_kernel (h : SysHistory) (op : Sys) : Kernel h op (twoDescriptors h op) := by
  have hfresh : (if IsOpen h 3 then if IsOpen h 4 then -1 else 4 else 3 : Int) = -1 ∨
      (0 ≤ (if IsOpen h 3 then if IsOpen h 4 then -1 else 4 else 3 : Int) ∧
        ¬ IsOpen h (if IsOpen h 3 then if IsOpen h 4 then -1 else 4 else 3)) := by
    split_ifs with h3 h4
    · exact .inl rfl
    · exact .inr ⟨by decide, h4⟩
    · exact .inr ⟨by decide, h3⟩
  cases op with
  | socket => exact hfresh
  | accept fd => exact hfresh
  | send fd data flags => exact le_refl (data.length : Int)
  | recv fd size flags =>
      intro bytes hbytes
      obtain rfl : [] = bytes := Option.some.inj hbytes
      exact Nat.zero_le _
  | _ => trivial

end PacketForge.Objects
