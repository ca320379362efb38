import PacketForge.Network.Descriptors

set_option autoImplicit false

/-! # What objects do with their descriptors

`Transport::send` and `Transport::receive` transfer bytes on the descriptor of the transport only,
and only as long as nobody closed it and its peer is not known to be gone: once `::recv` returns
0, the transport is disconnected.

`Connection` keeps `Live`: it is connected only through an open socket, on the descriptor on which
its latest `connect` or `accept` completed and which nobody closed since.

## How the proofs go

`Undisturbed fd` is said of an event, and `Extends` of all events since a moment in the past:
since the connection was established nobody closed its descriptor and no `::recv` on it has
returned 0. This is the condition of the contract `transferring`, under which a program may
transfer; each loop keeps it, because the only event that breaks it is followed by the
`disconnect`, and by nothing else (`Kept`). `Live` is the same for an object at rest, and one
lemma for each member function of `Connection` says how it is reached and given up.
-/

namespace PacketForge.Network

open Interaction Common

/-- The end of a stream: `::recv` returns 0. -/
def sawPeerClose : SysEvent → Bool
  | ⟨.recv _ _ _, r⟩ => decide (r = some [])
  | _ => false

/-- An event that leaves the connection on `fd` as it is: it does not close the descriptor, and no
`::recv` of it finds the end of the stream. -/
def Undisturbed (fd : Int) (e : SysEvent) : Prop := released e ≠ some fd ∧ sawPeerClose e = false

theorem undisturbed_of {fd : Int} {e : SysEvent} (hreleased : released e = none)
    (hclose : sawPeerClose e = false) : Undisturbed fd e := by
  refine ⟨fun heq => ?_, hclose⟩
  rw [hreleased] at heq
  cases heq

/-- Calls that neither return nor close a descriptor leave every descriptor as it is. -/
theorem isOpen_of_extends {h h' : SysHistory}
    (hext : Extends (fun e => obtained e = none ∧ released e = none) h h') (fd : Int) :
    IsOpen h' fd ↔ IsOpen h fd := by
  obtain ⟨new, rfl, hnew⟩ := hext
  induction new with
  | nil => rfl
  | cons e new ih =>
      obtain ⟨hobtained, hreleased⟩ := hnew e List.mem_cons_self
      have hrest := ih fun e' he' => hnew e' (List.mem_cons_of_mem e he')
      rw [List.cons_append, isOpen_cons, hobtained, hreleased, hrest]
      simp

theorem written_prefix (fd : Int) {P : SysEvent → Prop} {h h' : SysHistory}
    (hext : Extends P h h') : written fd h <+: written fd h' := by
  obtain ⟨new, rfl, -⟩ := hext
  induction new with
  | nil => exact List.prefix_rfl
  | cons e new ih => exact ih.trans (List.prefix_append _ _)

/-- The calls of a program that transfers bytes on `fd` only, and only as long as the connection
is undisturbed since `h₀`. Calls that transfer nothing are free. -/
def transferring (E : Env Sys Sys.Res) (fd : Int) (h₀ : SysHistory) : Contract Sys Sys.Res where
  may h op := ∀ fd', transfersOn op = some fd' → fd' = fd ∧ Extends (Undisturbed fd) h₀ h
  answers := E

theorem wp_of_transferring {E : Env Sys Sys.Res} {α : Type} {p : SysM α} {fd : Int}
    {h₀ h : SysHistory} {Q : α → SysHistory → Prop} (hp : wp (transferring E fd h₀) p Q h) :
    wp (.ofEnv E) p Q h := wp_weaken hp (fun _ _ _ => trivial) (fun _ _ _ hr => hr)

/-- What became of a transport: it is as it was and its connection undisturbed, or the call was no
success and it is disconnected. -/
def Kept (self : Transport) (h₀ : SysHistory) (success : Bool) (t : Transport) (h : SysHistory) :
    Prop :=
  (t = self ∧ Extends (Undisturbed self.fd) h₀ h) ∨ (success = false ∧ t.isConnected = false)

theorem Kept.of_success {self t : Transport} {h₀ h : SysHistory} (hkept : Kept self h₀ true t h) :
    t = self ∧ Extends (Undisturbed self.fd) h₀ h := by
  rcases hkept with hsame | ⟨hfalse, -⟩
  · exact hsame
  · cases hfalse

/-- Whether a call returned a success. -/
def succeeded {ε α : Type} (error : α → Error) : Except ε α → Bool
  | .ok r => (error r).ok
  | .error _ => false

namespace Transport

variable {E : Env Sys Sys.Res}

theorem sendLoop_transfers {fd : Int} {h₀ : SysHistory} (data : List UInt8) (totalSent : Nat)
    {h : SysHistory} (hext : Extends (Undisturbed fd) h₀ h) :
    wp (transferring E fd h₀) (sendLoop fd data totalSent)
      (fun _ h' => Extends (Undisturbed fd) h₀ h') h := by
  induction totalSent using sendLoop.induct data generalizing h with
  | case1 totalSent hlt ih =>
      rw [sendLoop, if_pos hlt]
      refine ⟨fun fd' hfd => ⟨(Option.some.inj hfd).symm, hext⟩, fun result _ => ?_⟩
      have hext' : Extends (Undisturbed fd) h₀ (⟨.send fd (data.drop totalSent) 0, result⟩ :: h) :=
        hext.cons (undisturbed_of rfl rfl)
      show wp _ (if result < 0 then _ else _) _ _
      by_cases hneg : result < 0
      · rw [if_pos hneg]
        exact hext'
      by_cases hzero : result = 0
      · rw [if_neg hneg, if_pos hzero]
        exact hext'
      rw [if_neg hneg, if_neg hzero]
      exact ih result hneg hzero hext'
  | case2 totalSent hge =>
      rw [sendLoop, if_neg hge]
      exact hext

theorem send_transfers (self : Transport) (data : List UInt8) {h₀ h : SysHistory}
    (hext : Extends (Undisturbed self.fd) h₀ h) :
    wp (transferring E self.fd h₀) (self.send data)
      (fun _ h' => Extends (Undisturbed self.fd) h₀ h') h := by
  unfold send
  split_ifs
  · exact hext
  · exact sendLoop_transfers data 0 hext

theorem disconnect_transfers (self : Connection) {fd : Int} {h₀ : SysHistory}
    {β : Type} {f : Connection → SysM β} {Q : β → SysHistory → Prop} {h : SysHistory}
    (hf : ∀ h', wp (transferring E fd h₀) (f .new) Q h') :
    wp (transferring E fd h₀) (self.disconnect >>= f) Q h := by
  rw [Connection.disconnect_eq, bind_assoc]
  simp only [pure_bind]
  unfold Socket.close
  split_ifs with hopen
  · exact ⟨nofun, fun _ _ => hf _⟩
  · have heq : self.socket = Socket.new := congrArg Socket.mk (not_not.mp hopen)
    rw [heq]
    exact hf _

theorem receiveLoop_transfers (self : Transport) (size : Nat) (received : List UInt8)
    {h₀ h : SysHistory} (hext : Extends (Undisturbed self.fd) h₀ h) :
    wp (transferring E self.fd h₀) (receiveLoop self size received)
      (fun r h' => Kept self h₀ r.1.ok r.2.2 h') h := by
  induction received using receiveLoop.induct size generalizing h with
  | case1 received hlt ih =>
      rw [receiveLoop, if_pos hlt]
      refine ⟨fun fd' hfd => ⟨(Option.some.inj hfd).symm, hext⟩, fun result _ => ?_⟩
      rcases result with _ | _ | ⟨b, bytes⟩
      · exact .inl ⟨rfl, hext.cons (undisturbed_of rfl rfl)⟩
      · exact disconnect_transfers self.connection fun _ => .inr ⟨rfl, rfl⟩
      · exact ih b bytes (hext.cons (undisturbed_of rfl rfl))
  | case2 received hge =>
      rw [receiveLoop, if_neg hge]
      exact .inl ⟨rfl, hext⟩

theorem receive_transfers (host : Platform) (self : Transport) (data : List UInt8) (size : Nat)
    {h₀ h : SysHistory} (hext : Extends (Undisturbed self.fd) h₀ h) :
    wp (transferring E self.fd h₀) (self.receive host data size)
      (fun r h' => Kept self h₀ (succeeded (·.1) r) (self.after (·.2.2) r) h') h := by
  unfold receive
  split_ifs
  · exact .inl ⟨rfl, hext⟩
  · exact .inl ⟨rfl, hext⟩
  exact wp_seq (receiveLoop_transfers self size [] hext) fun _ _ hkept => hkept

end Transport

/-! ## Open sockets -/

namespace Socket

variable {s : Socket} {h : SysHistory}

/-- Binding an open socket leaves it as it is. -/
theorem bind_of_isOpen (hopen : s.isOpen = true) (address : String) (port : UInt16) :
    wp (.ofEnv Kernel) (s.bind address port)
      (fun r h' => r.2 = s ∧ NotClosed s.socket h h') h := by
  have hstart : NotClosed s.socket h h := .refl h
  unfold bind
  rw [if_neg (by rw [hopen]; exact Bool.false_ne_true)]
  refine ⟨trivial, fun reuse _ => ?_⟩
  show wp _ (if reuse.value < 0 then _ else _) _ _
  split_ifs
  · exact ⟨rfl, hstart.cons rfl⟩
  refine ⟨trivial, fun parsed _ => ?_⟩
  show wp _ (if parsed ≠ 1 then _ else _) _ _
  split_ifs
  · exact ⟨rfl, (hstart.cons rfl).cons rfl⟩
  refine ⟨trivial, fun r _ => ?_⟩
  show wp _ (if r.value < 0 then _ else _) _ _
  split_ifs
  · exact ⟨rfl, ((hstart.cons rfl).cons rfl).cons rfl⟩
  · exact ⟨rfl, ((hstart.cons rfl).cons rfl).cons rfl⟩

theorem listen_wp (s : Socket) (backlog : Int) :
    wp (.ofEnv Kernel) (s.listen backlog) (fun _ h' => NotClosed s.socket h h') h := by
  unfold listen
  split_ifs
  · exact .refl h
  · exact .refl h
  refine ⟨trivial, fun r _ => ?_⟩
  show wp _ (if r.value < 0 then _ else _) _ _
  have hstart : NotClosed s.socket h h := .refl h
  have hext : NotClosed s.socket h (⟨.listen s.socket backlog, r⟩ :: h) := hstart.cons rfl
  split_ifs
  · exact hext
  · exact hext

end Socket

/-! ## Connections

A connection is established by the call that ends a history, so the history itself is kept as the
date of it.
-/

/-- The descriptor on which the `connect` or `accept` at the end of a history completed. `accept`
closes the previous descriptor of its object afterwards. -/
def established : SysHistory → Option Int
  | ⟨.connect fd _ _, r⟩ :: _ => if r.value < 0 then none else some fd
  | ⟨.accept _, r⟩ :: _ => if r.value < 0 then none else some r.value
  | ⟨.close _, _⟩ :: h => established h
  | _ => none

/-- A connected connection has a descriptor, the one that was established at `h₀`, and which was
not closed since. The history `h₀` stands for the moment: later ones extend it. -/
def Live (link : Option (Int × SysHistory)) (c : Connection) (h : SysHistory) : Prop :=
  c.connected = true → c.socket.isOpen = true ∧
    ∃ h₀, link = some (c.socket.socket, h₀) ∧ NotClosed c.socket.socket h₀ h

/-- What a call that may establish a connection leaves behind: a connection that was established
by the last call, or, if it failed, one that is as live as before and has the same flag. -/
def Establishes (link : Option (Int × SysHistory)) (c : Connection) (success : Bool)
    (c' : Connection) (h : SysHistory) : Prop :=
  if success then Live ((established h).map (·, h)) c' h
  else Live link c' h ∧ c'.connected = c.connected

theorem Live.cons {link : Option (Int × SysHistory)} {c : Connection} {h : SysHistory}
    {e : SysEvent} (hlive : Live link c h) (he : released e = none) : Live link c (e :: h) := by
  intro hconnected
  obtain ⟨hopen, h₀, hlink, hext⟩ := hlive hconnected
  exact ⟨hopen, h₀, hlink, NotClosed.cons hext he⟩

theorem live_of_not_connected {link : Option (Int × SysHistory)} {c : Connection} {h : SysHistory}
    (hnot : c.connected = false) : Live link c h :=
  fun hconnected => by rw [hnot] at hconnected; cases hconnected

theorem Live.not_connected {link : Option (Int × SysHistory)} {c : Connection} {h : SysHistory}
    (hlive : Live link c h) (hclosed : ¬ c.socket.isOpen = true) : c.connected = false := by
  by_contra hconnected
  exact hclosed (hlive (Bool.not_eq_false _ ▸ hconnected)).1

/-- A connection on which a call just completed. -/
theorem live_established {c : Connection} {h : SysHistory} (hopen : c.socket.isOpen = true)
    (hestablished : established h = some c.socket.socket) :
    Live ((established h).map (·, h)) c h :=
  fun _ => ⟨hopen, h, by rw [hestablished]; rfl, .refl h⟩

namespace Connection

variable {link : Option (Int × SysHistory)} {c : Connection} {h : SysHistory}

theorem open_live (hlive : Live link c h) :
    wp (.ofEnv Kernel) c.open (fun r h' => Live link r.2 h' ∧ r.2.connected = c.connected) h := by
  unfold «open» Socket.create
  split_ifs with hopen
  · exact ⟨hlive, rfl⟩
  · have hnot := hlive.not_connected hopen
    refine ⟨trivial, fun r _ => ?_⟩
    show wp _ ((if r.value = -1 then _ else _) >>= _) _ _
    split_ifs
    · exact ⟨live_of_not_connected hnot, rfl⟩
    · exact ⟨live_of_not_connected hnot, rfl⟩

theorem connect_live (hlive : Live link c h) (address : String) (port : UInt16) :
    wp (.ofEnv Kernel) (c.connect address port)
      (fun r h' => Establishes link c r.1.ok r.2 h') h := by
  unfold connect
  -- what follows the creation of the socket, for both ways to get there
  have hrest : ∀ (r : Error × Socket) (h : SysHistory), (r.1.ok = true → r.2.isOpen = true) →
      Live link { c with socket := r.2 } h →
      wp (.ofEnv Kernel) (if !r.1.ok then pure (r.1, { c with socket := r.2 })
        else do
          let parsed ← Posix.inet_pton address
          if parsed ≠ 1 then
            pure (⟨.InvalidArgument, "Invalid IPv4 address"⟩, { c with socket := r.2 })
          else do
            let r' ← Posix.connect r.2.nativeHandle address port
            if r'.value < 0 then
              pure (⟨.ConnectionFailed, r'.strerror⟩, { c with socket := r.2 })
            else pure (.success, ⟨r.2, true⟩))
        (fun r h' => Establishes link c r.1.ok r.2 h') h := by
    intro r h hopen hlive
    split_ifs with hok
    · rw [Bool.not_eq_true'] at hok
      show Establishes link c r.1.ok _ h
      rw [hok]
      exact ⟨hlive, rfl⟩
    refine ⟨trivial, fun parsed _ => ?_⟩
    show wp _ (if parsed ≠ 1 then _ else _) _ _
    split_ifs
    · exact ⟨hlive.cons rfl, rfl⟩
    refine ⟨trivial, fun r' _ => ?_⟩
    show wp _ (if r'.value < 0 then _ else _) _ _
    split_ifs with hneg
    · exact ⟨(hlive.cons rfl).cons rfl, rfl⟩
    · exact live_established (hopen (by simpa using hok)) (if_neg hneg)
  by_cases hopen : c.socket.isOpen = true
  · rw [if_neg (by rw [hopen]; exact Bool.false_ne_true)]
    exact hrest (.success, c.socket) h (fun _ => hopen) hlive
  · have hnot := hlive.not_connected hopen
    rw [if_pos (by rw [Bool.not_eq_true] at hopen; rw [hopen]; rfl)]
    unfold Socket.create
    rw [if_neg hopen]
    refine ⟨trivial, fun r _ => ?_⟩
    show wp _ ((if r.value = -1 then _ else _) >>= _) _ _
    split_ifs with hfail
    · exact hrest (⟨.SocketError, r.strerror⟩, ⟨r.value⟩) _ nofun (live_of_not_connected hnot)
    · exact hrest (.success, ⟨r.value⟩) _ (fun _ => (Socket.isOpen_iff _).mpr hfail)
        (live_of_not_connected hnot)

theorem accept_live (hlive : Live link c h) (listeningSocket : Socket) :
    wp (.ofEnv Kernel) (c.accept listeningSocket)
      (fun r h' => Establishes link c r.1.ok r.2 h') h := by
  unfold accept
  split_ifs with hlistening hconnected
  · exact ⟨hlive, rfl⟩
  · exact ⟨hlive, rfl⟩
  rw [Bool.not_eq_true] at hconnected
  unfold Socket.accept
  rw [if_neg hlistening]
  refine ⟨trivial, fun r _ => ?_⟩
  show wp _ ((if r.value < 0 then _ else _) >>= _) _ _
  split_ifs with hneg
  · exact ⟨live_of_not_connected hconnected, rfl⟩
  have hopen : (⟨r.value⟩ : Socket).isOpen = true :=
    (Socket.isOpen_iff _).mpr fun heq => hneg (by rw [show r.value = -1 from heq]; decide)
  unfold Socket.close
  split_ifs
  · exact ⟨trivial, fun _ _ => live_established (c := ⟨⟨r.value⟩, true⟩) hopen (if_neg hneg)⟩
  · exact live_established (c := ⟨⟨r.value⟩, true⟩) hopen (if_neg hneg)

/-- Disconnecting closes the own descriptor only, and what follows starts with a connection that
is as a new one. -/
theorem disconnect_wp {β : Type} {f : Connection → SysM β} {Q : β → SysHistory → Prop}
    (hf : ∀ h', (∀ fd, fd ≠ c.socket.socket → NotClosed fd h h') →
      wp (.ofEnv Kernel) (f .new) Q h') :
    wp (.ofEnv Kernel) (c.disconnect >>= f) Q h := by
  rw [disconnect_eq, bind_assoc]
  simp only [pure_bind]
  unfold Socket.close
  split_ifs with hopen
  · refine ⟨trivial, fun _ _ => hf _ fun fd hne => (Extends.refl h).cons ?_⟩
    exact fun heq => hne (Option.some.inj heq).symm
  · have heq : c.socket = Socket.new := congrArg Socket.mk (not_not.mp hopen)
    rw [heq]
    exact hf _ fun fd _ => .refl h

theorem moveAssign_wp (self other : Connection) :
    wp (.ofEnv Kernel) (self.moveAssign other)
      (fun r h' => r = (other, .new) ∧ ∀ fd, fd ≠ self.socket.socket → NotClosed fd h h') h :=
  disconnect_wp fun _ hnot => ⟨rfl, hnot⟩

end Connection

end PacketForge.Network
