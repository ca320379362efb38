import PacketForge.Network.Usage
import PacketForge.Objects.Heap

set_option autoImplicit false

/-! # Every member function conserves descriptors

The classes above `Transport`, and the functions on `Obj` that the operations are made of.

Nothing new is needed for them: a `PacketIO` calls its transport, a `Client` its transport and its
`PacketIO`, a `Server` its socket, so the proofs put the rules of `Descriptors` and `Usage`
together in the order of the code. Each class has its own definition of what it holds (`held`).
-/

namespace PacketForge

open Interaction Common Network Protocol

variable {transfers : Bool}

/-! ## PacketIO -/

namespace Protocol.PacketIo

theorem send_conserves (host : Platform) (transport : Transport) (packet : Packet) :
    (descriptors true).Conserves 0 (send host transport packet) (fun _ => 0) := by
  unfold send
  split
  · exact transport.send_conserves _
  · exact .ret rfl
  · exact .ret rfl

theorem send_transfers {E : Env Sys Sys.Res} (host : Platform) (transport : Transport)
    (packet : Packet) {h₀ h : SysHistory} (hext : Extends (Undisturbed transport.fd) h₀ h) :
    wp (transferring E transport.fd h₀) (send host transport packet)
      (fun _ h' => Extends (Undisturbed transport.fd) h₀ h') h := by
  unfold send
  split
  · exact transport.send_transfers _ hext
  · exact hext
  · exact hext

theorem finish_transport (host : Platform) (transport : Transport) (packet : Packet)
    (protocolError : Option ProtocolError) (header payload : List UInt8) :
    transport.after Received.transport (finish host transport packet protocolError header payload)
      = transport := by
  unfold finish
  split_ifs
  · rfl
  · split <;> rfl

theorem receive_transfers {E : Env Sys Sys.Res} (host : Platform) (transport : Transport)
    (packet : Packet) (protocolError : Option ProtocolError) {h₀ h : SysHistory}
    (hext : Extends (Undisturbed transport.fd) h₀ h) :
    wp (transferring E transport.fd h₀) (receive host transport packet protocolError)
      (fun r h' => Kept transport h₀ (succeeded Received.error r)
        (transport.after Received.transport r) h') h := by
  unfold receive
  refine wp_seq (transport.receive_transfers host [] HEADER_SIZE hext) fun r h₁ hkept => ?_
  match r with
  | .error .bad_alloc => exact hkept
  | .ok (error, header, t) =>
      have hkept : Kept transport h₀ error.ok t h₁ := hkept
      show wp _ (if !error.ok then _ else _) _ _
      by_cases hok : error.ok = true
      · rw [hok] at hkept
        obtain ⟨rfl, hext₁⟩ := hkept.of_success
        rw [if_neg (by rw [hok]; exact Bool.false_ne_true)]
        split
        · exact .inl ⟨rfl, hext₁⟩
        split_ifs
        · refine wp_seq (t.receive_transfers host [] _ hext₁) fun r h₂ hkept => ?_
          match r with
          | .error .bad_alloc => exact hkept
          | .ok (error, payload, t') =>
              have hkept : Kept t h₀ error.ok t' h₂ := hkept
              show wp _ (if !error.ok then _ else _) _ _
              by_cases hok : error.ok = true
              · rw [hok] at hkept
                obtain ⟨rfl, hext₂⟩ := hkept.of_success
                rw [if_neg (by rw [hok]; exact Bool.false_ne_true)]
                exact .inl ⟨finish_transport host t' packet _ header payload, hext₂⟩
              · rw [if_pos (by rw [Bool.not_eq_true] at hok; rw [hok]; rfl)]
                exact hkept
        · exact .inl ⟨finish_transport host t packet _ header [], hext₁⟩
      · rw [if_pos (by rw [Bool.not_eq_true] at hok; rw [hok]; rfl)]
        exact hkept

/-- A successful receive of a transport leaves it as it was. -/
theorem receive_success {E : Env Sys Sys.Res} (host : Platform) (transport : Transport)
    (size : Nat) (h : SysHistory) :
    wp (.ofEnv E) (transport.receive host [] size)
      (fun r _ => succeeded (·.1) r = true → transport.after (·.2.2) r = transport) h := by
  have hwp := transport.receive_transfers (E := E) host [] size (.refl h)
  refine wp_weaken (wp_mono hwp fun r h' hkept hsuccess => ?_) (fun _ _ _ => trivial)
    (fun _ _ _ hr => hr)
  rw [hsuccess] at hkept
  exact hkept.of_success.1

theorem receive_conserves (host : Platform) (transport : Transport) (packet : Packet)
    (protocolError : Option ProtocolError) :
    (descriptors true).Conserves transport.held (receive host transport packet protocolError)
      (fun r => (transport.after Received.transport r).held) := by
  unfold receive
  refine .bind_of (transport.receive_conserves host [] HEADER_SIZE)
    (receive_success host transport HEADER_SIZE) fun r hr => ?_
  match r with
  | .error .bad_alloc => exact .ret rfl
  | .ok (error, header, t) =>
      show (descriptors true).Conserves t.held (if !error.ok then _ else _) _
      split_ifs with hok
      · exact .ret rfl
      obtain rfl : t = transport := hr (show error.ok = true by simpa using hok)
      split
      · exact .ret rfl
      split_ifs
      · refine .bind_of (t.receive_conserves host [] _) (receive_success host t _) fun r hr => ?_
        match r with
        | .error .bad_alloc => exact .ret rfl
        | .ok (error, payload, t') =>
            show (descriptors true).Conserves t'.held (if !error.ok then _ else _) _
            split_ifs with hok
            · exact .ret rfl
            obtain rfl : t' = t := hr (show error.ok = true by simpa using hok)
            exact .ret (by rw [finish_transport])
      · exact .ret (by rw [finish_transport])

end Protocol.PacketIo

/-! ## Client -/

namespace Client

def held (self : Client) : Descriptors := self.transport.held

theorem connect_conserves (self : Client) (address : String) (port : UInt16) :
    (descriptors transfers).Conserves self.held (self.connect address port) (fun r => r.2.held) :=
  .bind (self.transport.connection.connect_conserves address port) fun _ => .ret rfl

theorem disconnect_conserves (self : Client) :
    (descriptors transfers).Conserves self.held self.disconnect (fun c => c.held) := by
  rw [← add_zero self.held]
  exact Connection.disconnect_conserves (.ret rfl)

theorem moveConstruct_held (this : Loc) (other : Client) :
    (other.moveConstruct this).1.held + (other.moveConstruct this).2.held = other.held :=
  add_zero _

theorem moveAssign_conserves (self other : Client) :
    (descriptors transfers).Conserves (self.held + other.held) (self.moveAssign other)
      (fun r => r.1.held + r.2.held) :=
  .bind (self.transport.moveAssign_conserves other.transport) fun _ => .ret rfl

theorem send_conserves (host : Platform) (self : Client) (referenced : Transport)
    (packet : Packet) :
    (descriptors true).Conserves 0 (self.send host referenced packet) (fun _ => 0) := by
  unfold send
  split_ifs
  · exact .ret rfl
  · exact PacketIo.send_conserves host referenced packet

theorem receive_conserves (host : Platform) (self : Client) (referenced : Transport)
    (packet : Packet) :
    (descriptors true).Conserves referenced.held (self.receive host referenced packet)
      (fun r => (referenced.after (·.2.2) r).held) := by
  unfold receive
  split_ifs
  · exact .ret rfl
  refine .bind (PacketIo.receive_conserves host referenced packet none) fun r => ?_
  cases r with
  | ok r => exact .ret rfl
  | error abort => exact .ret rfl

theorem receive_kept (host : Platform) (self : Client) (packet : Packet) (h : SysHistory) :
    wp (.ofEnv Kernel) (self.receive host self.transport packet)
      (fun r h' => Kept self.transport h (succeeded (·.1) r) (self.transport.after (·.2.2) r) h')
      h := by
  unfold receive
  split_ifs
  · exact .inl ⟨rfl, .refl h⟩
  have hwp := PacketIo.receive_transfers (E := Kernel) host self.transport packet none (.refl h)
  refine wp_seq (wp_of_transferring hwp) fun r h' hkept => ?_
  cases r with
  | ok r => exact hkept
  | error abort => exact hkept

end Client

/-! ## Server -/

namespace Server

def held (self : Server) : Descriptors := self.socket.held

theorem startFailed_conserves (socket : Socket) (running : Bool) (error : Error) :
    (descriptors transfers).Conserves socket.held (startFailed socket running error)
      (fun r => r.2.held) := by
  rw [← add_zero socket.held]
  exact Socket.close_conserves (.ret rfl)

theorem start_conserves (self : Server) (address : String) (port : UInt16) :
    (descriptors transfers).Conserves self.held (self.start address port) (fun r => r.2.held) := by
  unfold start
  split_ifs
  · exact .ret rfl
  refine .bind self.socket.create_conserves fun (error, socket) => ?_
  dsimp only
  split_ifs
  · exact .ret rfl
  refine .bind (socket.bind_conserves address port) fun (error, socket) => ?_
  dsimp only
  split_ifs
  · exact startFailed_conserves socket self.running error
  refine .bind (socket.listen_conserves SOMAXCONN) fun error => ?_
  split_ifs
  · exact startFailed_conserves socket self.running error
  refine conserves_neutral rfl fun (r, sin_port) => ?_
  dsimp only
  split_ifs
  · exact startFailed_conserves socket self.running _
  · exact .ret rfl

theorem stop_eq (self : Server) :
    self.stop = self.socket.close >>= fun socket => pure ⟨socket, false, 0⟩ := by
  unfold stop
  split_ifs with hopen
  · rfl
  · rw [Socket.close_of_not_isOpen hopen]

/-- Stopping leaves a server without descriptor, whatever follows. -/
theorem stop_conserves {β : Type} {self : Server} {f : Server → SysM β} {before : Descriptors}
    {after : β → Descriptors} (hf : (descriptors transfers).Conserves before (f new) after) :
    (descriptors transfers).Conserves (self.held + before) (self.stop >>= f) after := by
  rw [stop_eq, bind_assoc]
  simp only [pure_bind]
  exact Socket.close_conserves hf

theorem destruct_conserves (self : Server) :
    (descriptors transfers).Conserves self.held self.destruct (fun _ => 0) := by
  rw [← add_zero self.held]
  refine stop_conserves ?_
  exact Socket.destruct_conserves .new

theorem moveConstruct_held (other : Server) :
    other.moveConstruct.1.held + other.moveConstruct.2.held = other.held := add_zero _

theorem moveAssign_conserves (self other : Server) :
    (descriptors transfers).Conserves (self.held + other.held) (self.moveAssign other)
      (fun r => r.1.held + r.2.held) := by
  refine stop_conserves ?_
  rw [← zero_add other.held]
  exact .bind (Socket.moveAssign_conserves .new other.socket) fun _ => .ret rfl

theorem accept_conserves (self : Server) (connection : Connection) :
    (descriptors transfers).Conserves connection.held (self.accept connection)
      (fun r => r.2.held) := by
  unfold accept
  split_ifs
  · exact .ret rfl
  · exact connection.accept_conserves self.socket

theorem accept_live {link : Option (Int × SysHistory)} {h : SysHistory} (self : Server)
    {connection : Connection} (hlive : Live link connection h) :
    wp (.ofEnv Kernel) (self.accept connection)
      (fun r h' => Establishes link connection r.1.ok r.2 h') h := by
  unfold accept
  split_ifs
  · exact ⟨hlive, rfl⟩
  · exact Connection.accept_live hlive self.socket

end Server

end PacketForge
