import PacketForge.Lib.Conservation
import PacketForge.Network.Transport

set_option autoImplicit false

/-! # Descriptors as resources

The resources of the ledger `descriptors` are descriptors with their multiplicity: a socket holds
its descriptor once, and after a history each open descriptor is live once. Beside a frame, only
descriptors that are open and not in the frame may be closed. There are two such ledgers, for
programs that may transfer bytes and for programs that may not.

The member functions of `Socket`, `Connection` and `Transport` conserve descriptors: each turns
those its objects held into those they hold afterwards. This needs no assumption on the state of
the objects.

## How the proofs go

Only three system calls change what is live: `::socket` and `::accept` add a descriptor, which is
new because the kernel returns none that is open, and `::close` takes one away. Each has a rule,
and all other calls have one in common (`conserves_neutral`). A member function is then gone
through statement by statement; at each end the equation between what was held and what is held is
one of sums of single descriptors.

`close_conserves` and `disconnect_conserves` have the rest of the program as an argument, since a
function that closes a socket goes on with other ones.
-/

namespace PacketForge.Network

open Interaction Common

/-! ## The ledger -/

/-- Descriptors with their multiplicity. -/
abbrev Descriptors := Int → Nat

/-- What is live after a history: each open descriptor once, and nothing else. -/
def openDescriptors (h : SysHistory) : Descriptors := fun fd => if IsOpen h fd then 1 else 0

/-- `fd` was not closed between `h₀` and `h`. -/
def NotClosed (fd : Int) (h₀ h : SysHistory) : Prop := Extends (fun e => released e ≠ some fd) h₀ h

theorem NotClosed.cons {fd : Int} {h₀ h : SysHistory} {e : SysEvent} (hext : NotClosed fd h₀ h)
    (he : released e = none) : NotClosed fd h₀ (e :: h) := by
  refine Extends.cons hext fun hreleased => ?_
  rw [he] at hreleased
  cases hreleased

/-- The descriptor on which a call transfers bytes. -/
def transfersOn : Sys → Option Int
  | .send fd _ _ => some fd
  | .recv fd _ _ => some fd
  | _ => none

/-- The ledger of descriptors. Beside a frame, a program may close what is open and not in the
frame; whether it may transfer bytes is a parameter, for functions that must not. -/
def descriptors (transfers : Bool) : Ledger Sys Sys.Res Descriptors where
  live := openDescriptors
  may F h op := (∀ fd, op = .close fd → IsOpen h fd ∧ F fd = 0) ∧
    (transfersOn op ≠ none → transfers = true)
  answers := Kernel
  may_of_add := by
    intro F G h op hmay
    refine ⟨fun fd hop => ?_, hmay.2⟩
    obtain ⟨hopen, hframe⟩ := hmay.1 fd hop
    exact ⟨hopen, (Nat.add_eq_zero_iff.mp hframe).2⟩

/-- What a variable with the value `fd` holds. -/
def handle (fd : Int) : Descriptors := if fd = -1 then 0 else Pi.single fd 1

theorem handle_neg_one : handle (-1) = 0 := rfl

theorem handle_of_ne {fd : Int} (hne : fd ≠ -1) : handle fd = Pi.single fd 1 := if_neg hne

theorem IsOpen.nonneg {h : SysHistory} {fd : Int} (hopen : IsOpen h fd) : 0 ≤ fd := by
  induction h with
  | nil => exact hopen.elim
  | cons e h ih =>
      rcases hopen with hobtained | ⟨-, hopen⟩
      · unfold obtained at hobtained
        split at hobtained
        · split_ifs at hobtained with hneg
          exact Option.some.inj hobtained ▸ not_lt.mp hneg
        · split_ifs at hobtained with hneg
          exact Option.some.inj hobtained ▸ not_lt.mp hneg
        · cases hobtained
      · exact ih hopen

/-! ## System calls

One rule for each kind of call, in the form in which a program is gone through: the call, and what
follows it.
-/

section

variable {h : SysHistory} {e : SysEvent} {fd : Int}

theorem live_obtained (hobtained : obtained e = some fd) (hnew : ¬ IsOpen h fd)
    (hreleased : released e = none) :
    openDescriptors (e :: h) = Pi.single fd 1 + openDescriptors h := by
  funext k
  show (if IsOpen (e :: h) k then 1 else 0) = (Pi.single fd 1 : Descriptors) k
    + if IsOpen h k then 1 else 0
  by_cases hk : k = fd
  · subst hk
    rw [Pi.single_eq_same, if_neg hnew, if_pos (.inl hobtained)]
  · have hiff : IsOpen (e :: h) k ↔ IsOpen h k := by
      rw [isOpen_cons, hobtained, hreleased]
      simp [Ne.symm hk]
    rw [Pi.single_eq_of_ne hk, Nat.zero_add]
    simp only [hiff]

theorem live_other (hobtained : obtained e = none) (hreleased : released e = none) :
    openDescriptors (e :: h) = openDescriptors h := by
  funext k
  have hiff : IsOpen (e :: h) k ↔ IsOpen h k := by
    rw [isOpen_cons, hobtained, hreleased]
    simp
  show (if IsOpen (e :: h) k then 1 else 0) = if IsOpen h k then 1 else 0
  simp only [hiff]

theorem live_close (hopen : IsOpen h fd) (r : Unit) :
    openDescriptors h = Pi.single fd 1 + openDescriptors (⟨.close fd, r⟩ :: h) := by
  funext k
  show (if IsOpen h k then 1 else 0) = (Pi.single fd 1 : Descriptors) k
    + if IsOpen (⟨.close fd, r⟩ :: h) k then 1 else 0
  by_cases hk : k = fd
  · subst hk
    have hclosed : ¬ IsOpen (⟨.close k, r⟩ :: h) k := by simp [obtained, released]
    rw [Pi.single_eq_same, if_pos hopen, if_neg hclosed]
  · have hiff : IsOpen (⟨.close fd, r⟩ :: h) k ↔ IsOpen h k := by
      simp [obtained, released, Ne.symm hk]
    rw [Pi.single_eq_of_ne hk, Nat.zero_add]
    simp only [hiff]

end

/-- A call that neither returns nor closes a descriptor and that the ledger permits, so that it
changes nothing in what is live. -/
def neutral (transfers : Bool) : Sys → Bool
  | .socket | .accept _ | .close _ => false
  | .send _ _ _ | .recv _ _ _ => transfers
  | _ => true

variable {transfers : Bool}

theorem conserves_close (fd : Int) :
    (descriptors transfers).Conserves (Pi.single fd 1) (Posix.close fd) (fun _ => 0) := by
  intro F h hlive
  have hlive : openDescriptors h = Pi.single fd 1 + F := hlive
  have hcount := congrFun hlive fd
  rw [Pi.add_apply, Pi.single_eq_same] at hcount
  have hle : openDescriptors h fd ≤ 1 := by
    show (if IsOpen h fd then 1 else 0) ≤ 1
    split_ifs <;> omega
  have hopen : IsOpen h fd := by
    by_contra hclosed
    have hzero : openDescriptors h fd = 0 := if_neg hclosed
    omega
  refine ⟨⟨fun fd' hop => ?_, fun htransfers => absurd rfl htransfers⟩, fun r _ => ?_⟩
  · obtain rfl : fd = fd' := by injection hop
    exact ⟨hopen, by omega⟩
  · rw [live_close hopen r] at hlive
    rw [wp_ret, zero_add]
    exact add_left_cancel hlive

/-- A new descriptor is one that is not live. -/
theorem conserves_acquire (op : Sys) {β : Type} {f : op.Res → SysM β} {after : β → Descriptors}
    (value : op.Res → Int)
    (hkernel : ∀ h r, Kernel h op r → value r = -1 ∨ (0 ≤ value r ∧ ¬ IsOpen h (value r)))
    (hobtained : ∀ r, obtained ⟨op, r⟩ = if value r < 0 then none else some (value r))
    (hreleased : ∀ r, released ⟨op, r⟩ = none) (hnot : ∀ fd, op ≠ .close fd)
    (hsilent : transfersOn op = none)
    {before : Descriptors}
    (hf : ∀ r, value r = -1 ∨ 0 ≤ value r →
      (descriptors transfers).Conserves (handle (value r) + before) (f r) after) :
    (descriptors transfers).Conserves before (Prog.perform op >>= f) after := by
  intro F h hlive
  have hlive : openDescriptors h = before + F := hlive
  refine ⟨⟨fun fd hop => absurd hop (hnot fd), fun htransfers => absurd hsilent htransfers⟩,
    fun r hr => ?_⟩
  have hanswer := hkernel h r hr
  refine hf r (hanswer.imp_right And.left) F _ ?_
  rcases hanswer with hfail | ⟨hnonneg, hnew⟩
  · have hnone : obtained ⟨op, r⟩ = none := by
      rw [hobtained, hfail]
      rfl
    show openDescriptors _ = _
    rw [live_other hnone (hreleased r), hfail, handle_neg_one, zero_add, hlive]
  · have hsome : obtained ⟨op, r⟩ = some (value r) := by
      rw [hobtained, if_neg (not_lt.mpr hnonneg)]
    show openDescriptors _ = _
    rw [live_obtained hsome hnew (hreleased r), handle_of_ne (by omega), hlive, add_assoc]

theorem conserves_socket {β : Type} {f : Ret → SysM β} {before : Descriptors}
    {after : β → Descriptors}
    (hf : ∀ r, r.value = -1 ∨ 0 ≤ r.value →
      (descriptors transfers).Conserves (handle r.value + before) (f r) after) :
    (descriptors transfers).Conserves before (Posix.socket >>= f) after :=
  conserves_acquire .socket Ret.value (fun _ _ hr => hr) (fun _ => rfl) (fun _ => rfl)
    nofun rfl hf

theorem conserves_accept {fd : Int} {β : Type} {f : Ret → SysM β} {before : Descriptors}
    {after : β → Descriptors}
    (hf : ∀ r, r.value = -1 ∨ 0 ≤ r.value →
      (descriptors transfers).Conserves (handle r.value + before) (f r) after) :
    (descriptors transfers).Conserves before (Posix.accept fd >>= f) after :=
  conserves_acquire (.accept fd) Ret.value (fun _ _ hr => hr) (fun _ => rfl) (fun _ => rfl)
    nofun rfl hf

theorem conserves_neutral {op : Sys} {β : Type} {f : op.Res → SysM β} {before : Descriptors}
    {after : β → Descriptors} (hneutral : neutral transfers op = true)
    (hf : ∀ r, (descriptors transfers).Conserves before (f r) after) :
    (descriptors transfers).Conserves before (Prog.perform op >>= f) after := by
  intro F h hlive
  have hobtained : ∀ r, obtained ⟨op, r⟩ = none := by
    intro r
    cases op <;> first | rfl | cases hneutral
  have hreleased : ∀ r, released ⟨op, r⟩ = none := by
    intro r
    cases op <;> first | rfl | cases hneutral
  refine ⟨⟨fun fd hop => ?_, fun htransfers => ?_⟩, fun r _ => hf r F _ ?_⟩
  · rw [hop] at hneutral
    cases hneutral
  · cases op <;> first | exact hneutral | exact absurd rfl htransfers
  · exact (live_other (hobtained r) (hreleased r)).trans hlive

/-! ## Socket -/

namespace Socket

/-- What a socket holds. -/
def held (self : Socket) : Descriptors := handle self.socket

theorem isOpen_iff (self : Socket) : self.isOpen = true ↔ self.socket ≠ -1 := decide_eq_true_iff

theorem close_of_not_isOpen {self : Socket} (hclosed : ¬ self.isOpen = true) :
    self.close = pure self := if_neg (mt self.isOpen_iff.mpr hclosed)

theorem held_of_not_isOpen {self : Socket} (hclosed : ¬ self.isOpen = true) : self.held = 0 := by
  have heq : self.socket = -1 := not_not.mp (mt self.isOpen_iff.mpr hclosed)
  rw [held, heq, handle_neg_one]

/-- Closing leaves a socket without descriptor, whatever follows. -/
theorem close_conserves {β : Type} {self : Socket} {f : Socket → SysM β} {before : Descriptors}
    {after : β → Descriptors} (hf : (descriptors transfers).Conserves before (f new) after) :
    (descriptors transfers).Conserves (self.held + before) (self.close >>= f) after := by
  unfold close
  split_ifs with hopen
  · show (descriptors transfers).Conserves _ (Posix.close self.socket >>= fun _ => f new) after
    rw [held, handle_of_ne hopen]
    refine Ledger.Conserves.bind ((conserves_close self.socket).frame before) fun _ => ?_
    rw [zero_add]
    exact hf
  · have heq : self = new := by
      obtain ⟨fd⟩ := self
      exact congrArg Socket.mk (not_not.mp hopen)
    rw [heq, held, new, handle_neg_one, zero_add]
    exact hf

theorem destruct_conserves (self : Socket) :
    (descriptors transfers).Conserves self.held self.destruct (fun _ => 0) := by
  rw [← add_zero self.held]
  exact close_conserves (.ret rfl)

theorem moveConstruct_held (other : Socket) :
    other.moveConstruct.1.held + other.moveConstruct.2.held = other.held := add_zero _

theorem moveAssign_conserves (self other : Socket) :
    (descriptors transfers).Conserves (self.held + other.held) (self.moveAssign other)
      (fun r => r.1.held + r.2.held) := by
  exact close_conserves (.ret (moveConstruct_held other).symm)

theorem create_conserves (self : Socket) :
    (descriptors transfers).Conserves self.held self.create (fun r => r.2.held) := by
  unfold create
  split_ifs with hopen
  · exact .ret rfl
  · rw [held_of_not_isOpen hopen]
    refine conserves_socket fun r _ => ?_
    rw [add_zero]
    split_ifs
    · exact .ret rfl
    · exact .ret rfl

theorem bind_conserves (self : Socket) (address : String) (port : UInt16) :
    (descriptors transfers).Conserves self.held (self.bind address port) (fun r => r.2.held) := by
  unfold bind
  have hrest : ∀ r : Error × Socket, (descriptors transfers).Conserves r.2.held
      (if !r.1.ok then pure r
        else do
          let reuse ← Posix.setsockopt r.2.socket
          if reuse.value < 0 then pure (⟨.SocketError, reuse.strerror⟩, r.2)
          else do
            let parsed ← Posix.inet_pton address
            if parsed ≠ 1 then pure (⟨.InvalidArgument, "Invalid IPv4 address"⟩, r.2)
            else do
              let r' ← Posix.bind r.2.socket address port
              if r'.value < 0 then pure (⟨.SocketError, r'.strerror⟩, r.2)
              else pure (.success, r.2)) (fun r => r.2.held) := by
    intro r
    split_ifs
    · exact .ret rfl
    refine conserves_neutral rfl fun reuse => ?_
    split_ifs
    · exact .ret rfl
    refine conserves_neutral rfl fun parsed => ?_
    split_ifs
    · exact .ret rfl
    refine conserves_neutral rfl fun r' => ?_
    split_ifs
    · exact .ret rfl
    · exact .ret rfl
  split_ifs
  · exact .bind (create_conserves self) hrest
  · exact hrest (.success, self)

theorem listen_conserves (self : Socket) (backlog : Int) :
    (descriptors transfers).Conserves self.held (self.listen backlog) (fun _ => self.held) := by
  unfold listen
  split_ifs
  · exact .ret rfl
  · exact .ret rfl
  refine conserves_neutral rfl fun r => ?_
  split_ifs
  · exact .ret rfl
  · exact .ret rfl

/-- The descriptor of the accepted client replaces the one that `client` held. -/
theorem accept_conserves (self client : Socket) :
    (descriptors transfers).Conserves client.held (self.accept client) (fun r => r.2.held) := by
  unfold accept
  split_ifs
  · exact .ret rfl
  refine conserves_accept fun r hanswer => ?_
  split_ifs with hneg
  · have hfail : r.value = -1 := by omega
    rw [hfail, handle_neg_one]
    exact .ret (zero_add _)
  · rw [add_comm]
    exact close_conserves (.ret rfl)

end Socket

/-! ## Connection -/

namespace Connection

def held (self : Connection) : Descriptors := self.socket.held

theorem open_conserves (self : Connection) :
    (descriptors transfers).Conserves self.held self.open (fun r => r.2.held) :=
  .bind self.socket.create_conserves fun _ => .ret rfl

theorem connect_conserves (self : Connection) (address : String) (port : UInt16) :
    (descriptors transfers).Conserves self.held (self.connect address port)
      (fun r => r.2.held) := by
  unfold connect
  have hrest : ∀ r : Error × Socket, (descriptors transfers).Conserves r.2.held
      (if !r.1.ok then pure (r.1, { self with socket := r.2 })
        else do
          let parsed ← Posix.inet_pton address
          if parsed ≠ 1 then
            pure (⟨.InvalidArgument, "Invalid IPv4 address"⟩, { self with socket := r.2 })
          else do
            let r' ← Posix.connect r.2.nativeHandle address port
            if r'.value < 0 then
              pure (⟨.ConnectionFailed, r'.strerror⟩, { self with socket := r.2 })
            else pure (.success, ⟨r.2, true⟩)) (fun r => r.2.held) := by
    intro r
    split_ifs
    · exact .ret rfl
    refine conserves_neutral rfl fun parsed => ?_
    split_ifs
    · exact .ret rfl
    refine conserves_neutral rfl fun r' => ?_
    split_ifs
    · exact .ret rfl
    · exact .ret rfl
  split_ifs
  · exact .bind self.socket.create_conserves hrest
  · exact hrest (.success, self.socket)

theorem accept_conserves (self : Connection) (listeningSocket : Socket) :
    (descriptors transfers).Conserves self.held (self.accept listeningSocket)
      (fun r => r.2.held) := by
  unfold accept
  split_ifs
  · exact .ret rfl
  · exact .ret rfl
  refine .bind (listeningSocket.accept_conserves self.socket) fun (error, socket) => ?_
  dsimp only
  split_ifs
  · exact .ret rfl
  · exact .ret rfl

theorem disconnect_eq (self : Connection) :
    self.disconnect = self.socket.close >>= fun socket => pure ⟨socket, false⟩ := by
  unfold disconnect
  split_ifs with hopen
  · rfl
  · rw [Socket.close_of_not_isOpen hopen]

/-- Disconnecting leaves a connection without descriptor, whatever follows. -/
theorem disconnect_conserves {β : Type} {self : Connection} {f : Connection → SysM β}
    {before : Descriptors} {after : β → Descriptors}
    (hf : (descriptors transfers).Conserves before (f new) after) :
    (descriptors transfers).Conserves (self.held + before) (self.disconnect >>= f) after := by
  rw [disconnect_eq, bind_assoc]
  simp only [pure_bind]
  exact Socket.close_conserves hf

theorem destruct_conserves (self : Connection) :
    (descriptors transfers).Conserves self.held self.destruct (fun _ => 0) := by
  rw [← add_zero self.held]
  refine disconnect_conserves ?_
  exact Socket.destruct_conserves .new

theorem moveConstruct_held (other : Connection) :
    other.moveConstruct.1.held + other.moveConstruct.2.held = other.held := add_zero _

theorem moveAssign_conserves (self other : Connection) :
    (descriptors transfers).Conserves (self.held + other.held) (self.moveAssign other)
      (fun r => r.1.held + r.2.held) := by
  refine disconnect_conserves ?_
  rw [← zero_add other.held]
  exact .bind (Socket.moveAssign_conserves .new other.socket) fun r => .ret rfl

end Connection

/-! ## Transport -/

namespace Transport

def held (self : Transport) : Descriptors := self.connection.held

theorem sendLoop_conserves (fd : Int) (data : List UInt8) (totalSent : Nat) :
    (descriptors true).Conserves 0 (sendLoop fd data totalSent) (fun _ => 0) := by
  induction totalSent using sendLoop.induct data with
  | case1 totalSent hlt ih =>
      rw [sendLoop, if_pos hlt]
      refine conserves_neutral rfl fun result => ?_
      by_cases hneg : result < 0
      · rw [if_pos hneg]
        exact .ret rfl
      by_cases hzero : result = 0
      · rw [if_neg hneg, if_pos hzero]
        exact .ret rfl
      rw [if_neg hneg, if_neg hzero]
      exact ih result hneg hzero
  | case2 totalSent hge =>
      rw [sendLoop, if_neg hge]
      exact .ret rfl

theorem send_conserves (self : Transport) (data : List UInt8) :
    (descriptors true).Conserves 0 (self.send data) (fun _ => 0) := by
  unfold send
  split_ifs
  · exact .ret rfl
  · exact sendLoop_conserves self.fd data 0

/-- At the end of the stream the connection is closed, else it stays as it is. -/
theorem receiveLoop_conserves (self : Transport) (size : Nat) (received : List UInt8) :
    (descriptors true).Conserves self.held (receiveLoop self size received)
      (fun r => r.2.2.held) := by
  induction received using receiveLoop.induct size with
  | case1 received hlt ih =>
      rw [receiveLoop, if_pos hlt]
      refine conserves_neutral rfl fun result => ?_
      rcases result with _ | _ | ⟨b, bytes⟩
      · exact .ret rfl
      · rw [← add_zero self.held]
        exact Connection.disconnect_conserves (.ret rfl)
      · exact ih b bytes
  | case2 received hge =>
      rw [receiveLoop, if_neg hge]
      exact .ret rfl

/-- The transport after a call; an exception leaves it as it was. -/
def after {ε α : Type} (self : Transport) (transport : α → Transport) : Except ε α → Transport
  | .ok r => transport r
  | .error _ => self

theorem receive_conserves (host : Platform) (self : Transport) (data : List UInt8) (size : Nat) :
    (descriptors true).Conserves self.held (self.receive host data size)
      (fun r => (self.after (·.2.2) r).held) := by
  unfold receive
  split_ifs
  · exact .ret rfl
  · exact .ret rfl
  exact .bind (receiveLoop_conserves self size []) fun r => .ret rfl

theorem ofConnection_conserves (connection : Connection) :
    (descriptors transfers).Conserves connection.held (ofConnection connection)
      (fun r => r.1.held + r.2.held) := by
  rw [ofConnection_eq]
  exact .ret (add_zero _).symm

theorem moveConstruct_held (other : Transport) :
    other.moveConstruct.1.held + other.moveConstruct.2.held = other.held := add_zero _

theorem moveAssign_conserves (self other : Transport) :
    (descriptors transfers).Conserves (self.held + other.held) (self.moveAssign other)
      (fun r => r.1.held + r.2.held) :=
  .bind (Connection.moveAssign_conserves self.connection other.connection) fun _ => .ret rfl

end Transport

end PacketForge.Network
