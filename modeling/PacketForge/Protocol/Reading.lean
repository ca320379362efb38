import PacketForge.Protocol.PacketIo

set_option autoImplicit false

/-! # When a receive asks for more

`Transport::receive` and `PacketIO::receive` call `::recv` only as long as something is missing:
the first up to its size, the second up to the end of the frame that the bytes announce. So a
program that waits in `PacketIO::receive` waits within a frame.

The results are contracts (`reading`): a condition on what was read when a `::recv` is issued, and
on how much it asks for. They are not about how a call ends, which `PacketIo` says, but about the
moment when it is blocked. The programs use them where they must not read too much, and where it
matters for what they wait.
-/

namespace PacketForge.Network

open Interaction Common

/-- The calls of a program that reads from `fd` as long as what it has read is `missing` some bytes,
and closes it at the end of the stream. -/
def reading (E : Env Sys Sys.Res) (fd : Int) (missing : List UInt8 → Nat → Prop) :
    Contract Sys Sys.Res where
  may h op := (∃ n, 0 < n ∧ op = .recv fd n 0 ∧ missing (consumed fd h) n) ∨
    (op = .close fd ∧ ∃ n h₀, h = ⟨.recv fd n 0, some []⟩ :: h₀)
  answers := E

theorem reading_mono {E : Env Sys Sys.Res} {fd : Int} {missing missing' : List UInt8 → Nat → Prop}
    (hmono : ∀ bytes n, 0 < n → missing bytes n → missing' bytes n) {α : Type} {p : SysM α}
    {Q : α → SysHistory → Prop} {h : SysHistory} (hp : wp (reading E fd missing) p Q h) :
    wp (reading E fd missing') p Q h := by
  refine wp_weaken hp (fun h' op hmay => ?_) (fun _ _ _ hr => hr)
  rcases hmay with ⟨n, hn, hop, hmissing⟩ | hclose
  · exact .inl ⟨n, hn, hop, hmono _ _ hn hmissing⟩
  · exact .inr hclose

namespace Transport

variable {E : Env Sys Sys.Res}

/-- The loop asks for the bytes that are missing. -/
theorem receiveLoop_reading (hE : E ≤ Kernel) (self : Transport)
    (hopen : self.connection.socket.isOpen = true) (size : Nat) (received before : List UInt8)
    (h : SysHistory) (hc : consumed self.fd h = before ++ received) (hle : received.length ≤ size) :
    wp (reading E self.fd fun read n => ∃ bytes, read = before ++ bytes ∧ bytes.length + n = size)
      (receiveLoop self size received) (ReceiveEnds E self size before) h := by
  induction received using receiveLoop.induct size generalizing h with
  | case1 received hlt ih =>
      rw [receiveLoop, if_pos hlt]
      simp only [Posix.recv, Prog.bind_eq, Prog.perform_bind, wp_call]
      have hpos : 0 < size - received.length := Nat.sub_pos_of_lt hlt
      refine ⟨.inl ⟨_, hpos, rfl, received, hc, Nat.add_sub_cancel' hle⟩, fun result hresult => ?_⟩
      rcases result with _ | _ | ⟨b, bytes⟩
      · exact .failed hlt hc hpos hresult
      · have hne : self.connection.socket.socket ≠ -1 := of_decide_eq_true hopen
        simp only [Connection.disconnect, hopen, if_true, Socket.close, hne, ne_eq,
          not_false_eq_true, Posix.close, Prog.bind_eq, Prog.perform_bind, Prog.call_bind,
          Prog.pure_eq, Prog.ret_bind, wp_call, wp_ret]
        exact ⟨.inr ⟨rfl, _, _, rfl⟩, fun _ _ => .closed hlt hc hpos hresult⟩
      · have hbytes : (b :: bytes).length ≤ size - received.length := hE _ _ _ hresult _ rfl
        refine ih b bytes _ ?_ ?_
        · simp only [consumed_cons, hc, taken, if_true, Option.getD_some, List.append_assoc]
        · rw [List.length_append]
          omega
  | case2 received hge =>
      rw [receiveLoop, if_neg hge]
      exact .received (le_antisymm hle (not_lt.mp hge)) hc

theorem receive_reading (hE : E ≤ Kernel) (host : Platform) (self : Transport) (size : Nat)
    (h : SysHistory) (hconn : self.isConnected = true)
    (hopen : self.connection.socket.isOpen = true) (hfits : host.fits size = true) :
    wp (reading E self.fd fun read n =>
        ∃ bytes, read = consumed self.fd h ++ bytes ∧ bytes.length + n = size)
      (self.receive host [] size)
      (fun r h' => ∃ r', r = .ok r' ∧ ReceiveEnds E self size (consumed self.fd h) r' h') h := by
  rw [receive, hconn, hfits]
  simp only [Bool.not_true, Bool.false_eq_true, if_false, Bool.and_false, Prog.bind_eq]
  refine wp_seq (receiveLoop_reading hE self hopen size [] _ h (List.append_nil _).symm
    (Nat.zero_le _)) ?_
  exact fun r h' hr => ⟨r, rfl, hr⟩

end Transport

end PacketForge.Network

namespace PacketForge.Protocol

open Interaction Common Network

namespace PacketIo

/-- `bytes` are not yet a frame, and `n` more bytes do not go beyond the first one. -/
def Within (bytes : List UInt8) (n : Nat) : Prop :=
  ¬ packetFraming.Complete bytes ∧ ∀ more : List UInt8, more.length ≤ n →
    packetFraming.Complete (bytes ++ more) → packetFraming.IsFrame (bytes ++ more)

/-- A read up to a size that the frame has at least does not go beyond it. -/
theorem within_of_le {bytes : List UInt8} {n size : Nat} (hn : 0 < n)
    (hsize : bytes.length + n = size)
    (hle : ∀ more : List UInt8, size ≤ packetFraming.size (bytes ++ more)) : Within bytes n := by
  refine ⟨fun hcomplete => ?_, fun more hmore hcomplete => le_antisymm hcomplete ?_⟩
  · have hlast := hle []
    rw [List.append_nil] at hlast
    have hbytes : packetFraming.size bytes ≤ bytes.length := hcomplete
    omega
  · have hlast := hle more
    rw [List.length_append]
    omega

/-- `receive` asks for more only within a frame, and never for bytes beyond it. -/
theorem receive_reading {E : Env Sys Sys.Res} (hE : E ≤ Kernel) {host : Platform}
    (halloc : host.Allocates maxFrame) (transport : Transport) (packet : Packet)
    (protocolError : Option ProtocolError) (h : SysHistory)
    (hconn : transport.isConnected = true) (hopen : transport.connection.socket.isOpen = true) :
    wp (reading E transport.fd fun read n =>
        ∃ bytes, read = consumed transport.fd h ++ bytes ∧ Within bytes n)
      (receive host transport packet protocolError)
      (ReceiveEnds E transport packet protocolError (consumed transport.fd h)) h := by
  have hpart : wp (reading E transport.fd fun read n =>
        ∃ bytes, read = consumed transport.fd h ++ bytes ∧ Within bytes n)
      (receive host transport packet protocolError) (fun _ _ => True) h := by
    rw [receive]
    refine wp_seq (reading_mono ?_ (transport.receive_reading hE host HEADER_SIZE h hconn hopen
      (halloc _ (Nat.le_add_right _ _)))) ?_
    · rintro _ n hn ⟨bytes, rfl, hsize⟩
      exact ⟨bytes, rfl, within_of_le hn hsize fun _ => Nat.le_add_right _ _⟩
    rintro r h₁ ⟨r, rfl, hr⟩
    cases hr with
    | failed _ _ _ _ => trivial
    | closed _ _ _ _ => trivial
    | @received header h₁ hheader hc =>
    have h16 : header.length = 16 := hheader
    have hL : fieldAt header 12 4 < 2 ^ 32 := fieldAt_lt header 12 4
    have hval : (UInt32.ofNat (fieldAt header 12 4)).toNat = fieldAt header 12 4 :=
      Nat.mod_eq_of_lt hL
    simp only [Error.ok_success, Bool.not_true, Bool.false_eq_true, if_false,
      readUint32_eq host (show 12 + 4 ≤ header.length by omega), hval]
    split_ifs
    · refine wp_seq (reading_mono ?_ (transport.receive_reading hE host _ h₁ hconn hopen (halloc _
        (le_trans (Nat.le_add_left _ _) (le_maxFrame hL))))) ?_
      · rintro _ n hn ⟨payload, rfl, hlength⟩
        refine ⟨header ++ payload, by rw [hc, List.append_assoc], ?_⟩
        have hsize : ∀ more : List UInt8, packetFraming.size (header ++ payload ++ more)
            = HEADER_SIZE + fieldAt header 12 4 := fun more => by
          rw [List.append_assoc, Framing.size_append hheader.ge]
          show HEADER_SIZE + fieldAt (header.take HEADER_SIZE) 12 4 = _
          rw [List.take_of_length_le hheader.le]
        have hlength' : (header ++ payload).length + n = HEADER_SIZE + fieldAt header 12 4 := by
          rw [List.length_append, hheader, Nat.add_assoc, hlength]
        exact within_of_le hn hlength' fun more => (hsize more).ge
      · rintro r h₂ ⟨⟨error, payload, t⟩, rfl, -⟩
        show wp _ (if !error.ok then _ else _) _ _
        split_ifs <;> trivial
    · trivial
  have hboth := wp_and hpart (receive_wp hE halloc transport packet protocolError h hconn hopen)
    (fun _ _ _ hr => hr)
  exact wp_mono hboth fun _ _ hQ => hQ.2

end PacketIo

end PacketForge.Protocol
