import PacketForge.Protocol.Exchange
import PacketForge.Protocol.Stream

set_option autoImplicit false

/-! # Failures that are not reported

`PacketIO` returns its failures as `common::Error`. Two kinds of failure do not come out this way:
an exception of `receive`, whose `try` block holds only the decoder, and the signal `SIGPIPE` of a
`::send` with flags 0 to a peer that is gone, whose default action ends the process.

`send_reports_iff` and `receive_reports_iff` say for which calls neither can happen, whatever the
kernel answers.

## How the proofs go

"Always reports" is a statement about all runs, and a weakest precondition: no call of a send
raises the signal (`surviving` is a contract), and a receive returns (its postcondition). One
direction of each result is therefore a proof about the program, the other one a run of it that
fails.

* For a send the condition is on how much the peer takes before it leaves. If that is less than
  the frame, there is a kernel that moves exactly these bytes with its first call, and the next
  call raises the signal (`not_surviving_of_lt`). If it is all of the frame, there is no next
  call.
* For a receive the condition is on the three vectors that it builds (`Allocatable`): the header,
  the payload that a complete header announces, and the frame if it is complete as well. If one of
  them cannot be allocated, a kernel that delivers the stream leads there
  (`allocatable_of_returns`).
-/

namespace PacketForge.Protocol

open Interaction Common Network

namespace PacketIo

/-! ## Sending

The signal is not part of the programs: a call that raises it is described by the history before
it, and the process does not get to its answer.
-/

/-- What the process does about `SIGPIPE`: the default action, which ends it, or what the caller has
changed the disposition to. -/
inductive Disposition where
  | default
  | changed
  deriving DecidableEq, Repr

/-- The peer is gone: it left when `k` bytes had been written on `fd` since `h₀`. -/
def Gone (fd : Int) (leaves : Option Nat) (h₀ h : SysHistory) : Prop :=
  ∃ k, leaves = some k ∧ (written fd h₀).length + k ≤ (written fd h).length

/-- The kernel when the peer of `fd` leaves: a later `::send` moves nothing. -/
def Leaving (fd : Int) (leaves : Option Nat) (h₀ : SysHistory) : Env Sys Sys.Res := fun h op r =>
  Kernel h op r ∧
    match op, r with
    | .send fd' _ _, r => fd' = fd → Gone fd leaves h₀ h → r < 0
    | _, _ => True

/-- The calls that raise `SIGPIPE`: on a connection whose peer is gone, with flags 0. -/
def RaisesSigpipe (fd : Int) (leaves : Option Nat) (h₀ h : SysHistory) (op : Sys) : Prop :=
  fd ≠ -1 ∧ Gone fd leaves h₀ h ∧ ∃ data, op = .send fd data 0

/-- The calls that do not end the process: all of them where the caller has changed what happens
on `SIGPIPE`, and else those that do not raise it. -/
def surviving (sigpipe : Disposition) (fd : Int) (leaves : Option Nat) (h₀ : SysHistory) :
    Contract Sys Sys.Res where
  may h op := ¬ (sigpipe = .default ∧ RaisesSigpipe fd leaves h₀ h op)
  answers := Leaving fd leaves h₀

/-- `PacketIO::send` always reports to its caller: none of its calls ends the process. That it
returns an error and throws nothing is in its type. -/
def SendReports (host : Platform) (sigpipe : Disposition) (transport : Transport) (packet : Packet)
    (leaves : Option Nat) (h : SysHistory) : Prop :=
  wp (surviving sigpipe transport.fd leaves h) (send host transport packet) (fun _ _ => True) h

/-- A peer that leaves before the end of the frame: the kernel takes what the peer takes, and the
next `::send` raises the signal. -/
theorem not_surviving_of_lt {fd : Int} (hfd : fd ≠ -1) {k : Nat} {frame : List UInt8}
    (hlt : k < frame.length) (h : SysHistory) :
    ¬ wp (surviving .default fd (some k) h) (Transport.sendLoop fd frame 0) (fun _ _ => True)
      h := by
  intro hwp
  rw [Transport.sendLoop, if_pos (Nat.zero_lt_of_lt hlt)] at hwp
  obtain ⟨hfirst, hrest⟩ := hwp
  rcases Nat.eq_zero_or_pos k with rfl | hpos
  · exact hfirst ⟨rfl, hfd, ⟨0, rfl, le_rfl⟩, _, rfl⟩
  · -- `k` bytes go out before the peer leaves
    have hanswer : Leaving fd (some k) h h (.send fd (frame.drop 0) 0) (k : Int) := by
      refine ⟨?_, fun _ hgone => ?_⟩
      · show (k : Int) ≤ ((frame.drop 0).length : Int)
        rw [List.drop_zero]
        omega
      · obtain ⟨k', hk, hle⟩ := hgone
        obtain rfl := Option.some.inj hk
        omega
    have hsecond : wp (surviving .default fd (some k) h)
        (if (k : Int) < 0 then pure ⟨.SocketError, "Send failed"⟩
          else if (k : Int) = 0 then pure ⟨.SocketError, "Send failed: connection closed"⟩
          else Transport.sendLoop fd frame (0 + (k : Int).toNat)) (fun _ _ => True)
        (⟨.send fd (frame.drop 0) 0, (k : Int)⟩ :: h) := hrest _ hanswer
    rw [if_neg (by omega), if_neg (by omega), Int.toNat_natCast, Nat.zero_add, Transport.sendLoop,
      if_pos hlt] at hsecond
    refine hsecond.1 ⟨rfl, hfd, ⟨k, rfl, ?_⟩, _, rfl⟩
    rw [written_cons, sent, if_pos rfl, Int.toNat_natCast, List.drop_zero, List.length_append,
      List.length_take, min_eq_left hlt.le]

/-- **When a send always reports**: the caller has changed the disposition of `SIGPIPE`, or there is
no connection, or the packet has no encoding, or the peer stays until it has all of it. -/
theorem send_reports_iff (host : Platform) (sigpipe : Disposition) (transport : Transport)
    (packet : Packet) (leaves : Option Nat) (h : SysHistory) :
    SendReports host sigpipe transport packet leaves h ↔
      sigpipe = .changed ∨ transport.isConnected = false ∨
        transport.connection.socket.isOpen = false ∨
        ∀ frame, Encoder.encode host packet = .ok frame →
          ∀ k, leaves = some k → frame.length ≤ k := by
  constructor
  · intro hreports
    by_contra hnot
    push Not at hnot
    obtain ⟨hsigpipe, hconn, hopen, frame, hencode, k, rfl, hlt⟩ := hnot
    obtain rfl : sigpipe = .default := by cases sigpipe <;> simp_all
    rw [Bool.ne_false_iff] at hconn hopen
    have hsend : send host transport packet = Transport.sendLoop transport.fd frame 0 := by
      rw [send, hencode]
      show transport.send frame = _
      rw [Transport.send, hconn]
      rfl
    rw [SendReports, hsend] at hreports
    exact not_surviving_of_lt ((Socket.isOpen_iff _).mp hopen) hlt h hreports
  · -- calls that raise no signal
    have hsafe : (∀ h' op, ¬ (sigpipe = .default ∧ RaisesSigpipe transport.fd leaves h h' op)) →
        SendReports host sigpipe transport packet leaves h := fun hmay =>
      wp_weaken (wp_true (E := Leaving transport.fd leaves h) _ h) (fun h' op _ => hmay h' op)
        (fun _ _ _ hr => hr)
    rintro (hsigpipe | hconn | hopen | hframe)
    · apply hsafe
      rintro h' op ⟨hdefault, -⟩
      rw [hdefault] at hsigpipe
      cases hsigpipe
    · unfold SendReports send Transport.send
      rw [hconn]
      split <;> trivial
    · apply hsafe
      rintro h' op ⟨-, hfd, -⟩
      rw [← Bool.not_eq_true, Socket.isOpen_iff] at hopen
      exact hopen hfd
    · unfold SendReports send
      split
      · rename_i frame hencode
        cases hconn : transport.isConnected with
        | false =>
            rw [Transport.send, hconn]
            trivial
        | true =>
            have hwp := transport.send_wp (E := Leaving transport.fd leaves h) frame _ h hconn rfl
            refine wp_weaken (wp_mono hwp fun _ _ _ => trivial) ?_ (fun _ _ _ hr => hr)
            rintro h' op ⟨rest, hne, rfl, htarget⟩ ⟨-, -, ⟨k, hk, hgone⟩, -⟩
            -- something is missing, so that the peer has not taken all of the frame
            have hle : frame.length ≤ k := hframe frame hencode k hk
            have hpos : 0 < rest.length := List.length_pos_of_ne_nil hne
            have hlength : (written transport.fd h').length + rest.length
                = (written transport.fd h).length + frame.length := by
              rw [← List.length_append, htarget, List.length_append]
            omega
      · trivial
      · trivial

/-! ## Receiving

The kernel here may also reset the connection at any point, so that the condition has to hold for
every first part of the stream that a call can see.
-/

/-- The kernel when the peer of `fd` writes `stream` and closes, or resets the connection at some
point: a `::recv` gives a part of what has not been read yet, or `0` at the end, or fails. -/
def Resetting (fd : Int) (stream : List UInt8) : Env Sys Sys.Res := fun h op r =>
  Kernel h op r ∧
    match op, r with
    | .recv fd' size _, r => fd' = fd → ∀ bytes, r = some bytes → fd ≠ -1 ∧
        bytes <+: stream.drop (consumed fd h).length ∧
        (bytes = [] → size = 0 ∨ stream.length ≤ (consumed fd h).length)
    | _, _ => True

theorem delivers_resetting {fd : Int} (hfd : fd ≠ -1) (stream : List UInt8) (h : SysHistory)
    (op : Sys) (r : op.Res) (hr : Delivers fd stream h op r) : Resetting fd stream h op r := by
  refine ⟨hr.1, ?_⟩
  cases op with
  | recv fd' size flags =>
      intro heq bytes hbytes
      obtain ⟨bytes', hbytes', hprefix, hend⟩ := hr.2 heq
      obtain rfl : bytes' = bytes := Option.some.inj (hbytes'.symm.trans hbytes)
      exact ⟨hfd, hprefix, hend⟩
  | _ => trivial

/-- `PacketIO::receive` always reports to its caller: it returns an error and throws nothing. -/
def ReceiveReports (host : Platform) (transport : Transport) (packet : Packet)
    (protocolError : Option ProtocolError) (stream : List UInt8) (h : SysHistory) : Prop :=
  ∀ result h', Runs (Resetting transport.fd (consumed transport.fd h ++ stream))
    (receive host transport packet protocolError) h result h' → ∃ r, result = .ok r

/-- The last part of `receive` throws only where the frame cannot be put together. -/
theorem finish_returns_iff (host : Platform) (transport : Transport) (packet : Packet)
    (protocolError : Option ProtocolError) (header payload : List UInt8) :
    (∃ r, finish host transport packet protocolError header payload = .ok r) ↔
      host.fits (HEADER_SIZE + payload.length) = true := by
  unfold finish
  cases hfits : host.fits (HEADER_SIZE + payload.length) with
  | false => exact iff_of_false (fun ⟨_, hr⟩ => by cases hr) (fun hfalse => by cases hfalse)
  | true =>
      refine iff_of_true ?_ rfl
      cases hdecode : Decoder.decode host (header ++ payload) with
      | ok packet => exact ⟨_, rfl⟩
      | error abort =>
          rcases abort with (what | _ | ⟨e, what⟩) | _
          · exact ⟨_, rfl⟩
          · exact ⟨_, rfl⟩
          · exact ⟨_, rfl⟩
          · exact absurd hdecode (decode_not_outOfBounds host _)

theorem resetting_step {fd : Int} {stream : List UInt8} {h₀ h : SysHistory} {op : Sys} {r : op.Res}
    (hp : consumed fd h <+: stream ∧ (consumed fd h = consumed fd h₀ ∨ fd ≠ -1))
    (hr : Resetting fd stream h op r) :
    consumed fd (⟨op, r⟩ :: h) <+: stream ∧
      (consumed fd (⟨op, r⟩ :: h) = consumed fd h₀ ∨ fd ≠ -1) := by
  have hsame : taken fd ⟨op, r⟩ = [] → consumed fd (⟨op, r⟩ :: h) = consumed fd h := fun hnil => by
    rw [consumed_cons, hnil, List.append_nil]
  cases op with
  | recv fd' size flags =>
      by_cases hfd : fd' = fd
      · rcases r with _ | bytes
        · rw [hsame (if_pos hfd)]
          exact hp
        · obtain ⟨hopen, hbytes, -⟩ := hr.2 hfd bytes rfl
          rw [consumed_cons, taken, if_pos hfd, Option.getD_some]
          have hread := append_prefix hp.1 hbytes
          exact ⟨hread, .inr hopen⟩
      · rw [hsame (if_neg hfd)]
        exact hp
  | _ =>
      rw [hsame rfl]
      exact hp

/-- `Transport::receive` on a stream: what it receives is the next part of it. -/
theorem transport_receive_resetting (host : Platform) (self : Transport) (size : Nat)
    {stream : List UInt8} {h : SysHistory} (hp : consumed self.fd h <+: stream) :
    wp (.ofEnv (Resetting self.fd stream)) (self.receive host [] size)
      (fun r h' => (∀ e, r = .error e → host.fits size = false) ∧
        ∀ error data t, r = .ok (error, data, t) → error.ok = true →
          t = self ∧ data.length = size ∧ consumed self.fd h' = consumed self.fd h ++ data ∧
            consumed self.fd h' <+: stream ∧ (0 < size → self.fd ≠ -1)) h := by
  have hprefix := wp_invariant (D := .ofEnv (Resetting self.fd stream))
    (fun h' => consumed self.fd h' <+: stream ∧
      (consumed self.fd h' = consumed self.fd h ∨ self.fd ≠ -1)) ⟨hp, .inl rfl⟩
    (wp_true (E := Resetting self.fd stream) (self.receive host [] size) h)
    (fun _ _ _ _ => trivial) (fun _ _ _ hJ _ hr => ⟨hr, resetting_step hJ hr⟩)
  refine wp_mono (wp_and hprefix (transport_receive_ends host self size (.refl h))
    (fun _ _ _ hr => hr.1)) ?_
  rintro r h' ⟨⟨-, hp', hfd⟩, hthrown, hends⟩
  refine ⟨hthrown, fun error data t heq hok => ?_⟩
  obtain ⟨hends, -, hsuccess⟩ := hends error data t heq
  rw [(error.ok_iff).mp hok] at hends
  obtain ⟨hlength, hc⟩ := hsuccess ((error.ok_iff).mp hok)
  refine ⟨hends.of_success.1, hlength, hc, hp', fun hpos => ?_⟩
  rcases hfd with hsame | hfd
  · rw [hc, List.append_right_eq_self] at hsame
    rw [hsame, List.length_nil] at hlength
    omega
  · exact hfd

/-- The condition under which `receive` throws nothing: the header can be allocated, and if the
stream has a complete one, so can the payload that it announces, and if that is complete too, the
frame. -/
def Allocatable (host : Platform) (transport : Transport) (stream : List UInt8) : Prop :=
  host.fits HEADER_SIZE = true ∧
    (transport.connection.socket.isOpen = true → HEADER_SIZE ≤ stream.length →
      (0 < fieldAt stream 12 4 → host.fits (fieldAt stream 12 4) = true) ∧
      (HEADER_SIZE + fieldAt stream 12 4 ≤ stream.length →
        host.fits (HEADER_SIZE + fieldAt stream 12 4) = true))

theorem receiveReports_of_allocatable {host : Platform} {transport : Transport}
    {stream : List UInt8} (halloc : Allocatable host transport stream) (packet : Packet)
    (protocolError : Option ProtocolError) (h : SysHistory) :
    wp (.ofEnv (Resetting transport.fd (consumed transport.fd h ++ stream)))
      (receive host transport packet protocolError) (fun result _ => ∃ r, result = .ok r) h := by
  obtain ⟨hheader, hframe⟩ := halloc
  unfold receive
  refine wp_seq (transport_receive_resetting host transport HEADER_SIZE (List.prefix_append _ _)) ?_
  rintro (_ | ⟨error, header, t⟩) h₁ ⟨hthrown, hreceived⟩
  · rw [hthrown _ rfl] at hheader
    cases hheader
  show wp _ (if !error.ok then _ else _) _ _
  cases hok : error.ok with
  | false => exact ⟨_, rfl⟩
  | true =>
  obtain ⟨rfl, hlength, hc, hp, hfd⟩ := hreceived error header t rfl hok
  -- the header is the first part of the stream
  have hstream : header <+: stream := by
    rw [hc] at hp
    exact (List.prefix_append_right_inj _).mp hp
  have hle : HEADER_SIZE ≤ stream.length := hlength ▸ hstream.length_le
  have hfield : fieldAt stream 12 4 = fieldAt header 12 4 :=
    fieldAt_of_isPrefix hstream (by rw [hlength]; decide)
  obtain ⟨hpayload, hall⟩ := hframe ((Socket.isOpen_iff _).mpr (hfd (by decide))) hle
  rw [hfield] at hpayload hall
  have hval : (UInt32.ofNat (fieldAt header 12 4)).toNat = fieldAt header 12 4 :=
    Nat.mod_eq_of_lt (fieldAt_lt header 12 4)
  rw [readUint32_eq host (show 12 + 4 ≤ header.length by rw [hlength]; decide)]
  show wp _ (if UInt32.ofNat (fieldAt header 12 4) > 0 then _ else _) _ _
  by_cases hpos : UInt32.ofNat (fieldAt header 12 4) > 0
  · have hpos' : 0 < fieldAt header 12 4 := by
      rw [gt_iff_lt, UInt32.lt_iff_toNat_lt, hval] at hpos
      exact hpos
    rw [if_pos hpos, hval]
    refine wp_seq (transport_receive_resetting host t _ hp) ?_
    rintro (_ | ⟨error, payload, t'⟩) h₂ ⟨hthrown, hreceived⟩
    · rw [hthrown _ rfl] at hpayload
      cases hpayload hpos'
    show wp _ (if !error.ok then _ else _) _ _
    cases hok : error.ok with
    | false => exact ⟨_, rfl⟩
    | true =>
        obtain ⟨rfl, hlength₂, hc₂, hp₂, -⟩ := hreceived error payload t' rfl hok
        have hframe : header ++ payload <+: stream := by
          rw [hc₂, hc, List.append_assoc] at hp₂
          exact (List.prefix_append_right_inj _).mp hp₂
        have hlong := hframe.length_le
        rw [List.length_append, hlength, hlength₂] at hlong
        exact (finish_returns_iff host t' packet _ header payload).mpr (hlength₂ ▸ hall hlong)
  · rw [if_neg hpos]
    exact (finish_returns_iff host t packet _ header []).mpr hheader

/-- `Transport::receive` when enough of the stream is left and the kernel delivers it. -/
theorem transport_receive_delivers {host : Platform} {self : Transport} {size : Nat}
    {rest stream : List UInt8} {h : SysHistory} (hconn : self.isConnected = true)
    (hopen : self.connection.socket.isOpen = true) (hfits : host.fits size = true)
    (hstream : consumed self.fd h ++ rest = stream) (hle : size ≤ rest.length) :
    wp (.ofEnv (Delivers self.fd stream)) (self.receive host [] size)
      (fun r h' => r = .ok (.success, rest.take size, self) ∧
        consumed self.fd h' = consumed self.fd h ++ rest.take size) h := by
  have hwp := wp_invariant (D := .ofEnv (Delivers self.fd stream))
    (fun h' => consumed self.fd h' <+: stream) ⟨rest, hstream⟩
    (self.receive_wp (Delivers.le_kernel self.fd stream) host size h hconn hopen hfits)
    (fun _ _ _ _ => trivial) (fun _ _ _ hp _ hr => ⟨hr, consumed_prefix_step hp hr⟩)
  refine wp_mono hwp ?_
  rintro _ h' ⟨⟨r, rfl, hends⟩, hp⟩
  cases hends with
  | @received bytes h' hlength hc =>
      have hbytes : bytes <+: rest := by
        rw [hc, ← hstream] at hp
        exact (List.prefix_append_right_inj _).mp hp
      have htake : rest.take size = bytes := by
        rw [← hlength]
        exact (List.prefix_iff_eq_take.mp hbytes).symm
      rw [htake]
      exact ⟨rfl, hc⟩
  | failed _ _ _ hanswer =>
      obtain ⟨bytes, hnone, -⟩ := hanswer.2 rfl
      cases hnone
  | @closed bytes n h₁ hlt hc hn hanswer =>
      -- the end of the stream is not reached yet
      obtain ⟨_, hnil, -, hend⟩ := hanswer.2 rfl
      have hall := (hend (Option.some.inj hnil).symm).resolve_left hn.ne'
      rw [hc, ← hstream, List.length_append, List.length_append] at hall
      omega

/-- When the whole header arrives, `receive` returns only if the allocations succeed. -/
theorem allocatable_of_returns {host : Platform} {transport : Transport} {stream : List UInt8}
    (hconn : transport.isConnected = true) (hheader : host.fits HEADER_SIZE = true)
    (hopen : transport.connection.socket.isOpen = true) (hle : HEADER_SIZE ≤ stream.length)
    (packet : Packet) (protocolError : Option ProtocolError) (h : SysHistory) :
    wp (.ofEnv (Delivers transport.fd (consumed transport.fd h ++ stream)))
      (receive host transport packet protocolError)
      (fun result _ => (∃ r, result = .ok r) →
        (0 < fieldAt stream 12 4 → host.fits (fieldAt stream 12 4) = true) ∧
        (HEADER_SIZE + fieldAt stream 12 4 ≤ stream.length →
          host.fits (HEADER_SIZE + fieldAt stream 12 4) = true)) h := by
  unfold receive
  refine wp_seq (transport_receive_delivers hconn hopen hheader rfl hle) ?_
  rintro _ h₁ ⟨rfl, hc⟩
  have hlength : (stream.take HEADER_SIZE).length = HEADER_SIZE := List.length_take_of_le hle
  have hfield : fieldAt stream 12 4 = fieldAt (stream.take HEADER_SIZE) 12 4 :=
    fieldAt_of_isPrefix (List.take_prefix _ _) (by rw [hlength]; decide)
  rw [hfield]
  have hval : (UInt32.ofNat (fieldAt (stream.take HEADER_SIZE) 12 4)).toNat
      = fieldAt (stream.take HEADER_SIZE) 12 4 := Nat.mod_eq_of_lt (fieldAt_lt _ 12 4)
  have hrest : consumed transport.fd h₁ ++ stream.drop HEADER_SIZE
      = consumed transport.fd h ++ stream := by
    rw [hc, List.append_assoc, List.take_append_drop]
  simp only [Error.ok_success, Bool.not_true, Bool.false_eq_true, if_false,
    readUint32_eq host (show 12 + 4 ≤ (stream.take HEADER_SIZE).length by rw [hlength]; decide)]
  show wp _ (if UInt32.ofNat (fieldAt (stream.take HEADER_SIZE) 12 4) > 0 then _ else _) _ _
  by_cases hpos : UInt32.ofNat (fieldAt (stream.take HEADER_SIZE) 12 4) > 0
  · rw [if_pos hpos, hval]
    cases hfits : host.fits (fieldAt (stream.take HEADER_SIZE) 12 4) with
    | false =>
        -- the payload is allocated before any byte of it arrives
        have hthrows : transport.receive host [] (fieldAt (stream.take HEADER_SIZE) 12 4)
            = pure (.error .bad_alloc) := by
          have hpos' : 0 < fieldAt (stream.take HEADER_SIZE) 12 4 := by
            rw [gt_iff_lt, UInt32.lt_iff_toNat_lt, hval] at hpos
            exact hpos
          rw [Transport.receive, hconn, hfits]
          simp [hpos']
        rw [hthrows]
        rintro ⟨r, hr⟩
        cases hr
    | true =>
        by_cases hcomplete : HEADER_SIZE + fieldAt (stream.take HEADER_SIZE) 12 4 ≤ stream.length
        · refine wp_seq (transport_receive_delivers hconn hopen hfits hrest ?_) ?_
          · rw [List.length_drop]
            omega
          rintro _ h₂ ⟨rfl, -⟩ hreturns
          have hpayload := (finish_returns_iff host transport packet _ _ _).mp hreturns
          rw [List.length_take_of_le (by rw [List.length_drop]; omega)] at hpayload
          exact ⟨fun _ => rfl, fun _ => hpayload⟩
        · exact wp_mono (wp_true (E := Delivers transport.fd _) _ _)
            fun _ _ _ _ => ⟨fun _ => rfl, fun hle => absurd hle hcomplete⟩
  · rw [if_neg hpos]
    have hzero : fieldAt (stream.take HEADER_SIZE) 12 4 = 0 := by
      rw [gt_iff_lt, UInt32.lt_iff_toNat_lt, hval] at hpos
      exact Nat.eq_zero_of_not_pos hpos
    rw [hzero]
    exact fun _ => ⟨fun hlt => absurd hlt (lt_irrefl 0), fun _ => hheader⟩

/-- **When a receive always reports**: the transport is not connected, or the allocations that the
stream asks for succeed. -/
theorem receive_reports_iff (host : Platform) (transport : Transport) (packet : Packet)
    (protocolError : Option ProtocolError) (stream : List UInt8) (h : SysHistory) :
    ReceiveReports host transport packet protocolError stream h ↔
      transport.isConnected = false ∨ Allocatable host transport stream := by
  constructor
  · intro hreports
    cases hconn : transport.isConnected with
    | false => exact .inl rfl
    | true =>
        have hheader : host.fits HEADER_SIZE = true := by
          by_contra hfits
          rw [Bool.not_eq_true] at hfits
          have hthrows : receive host transport packet protocolError
              = pure (.error (.throws .bad_alloc)) := by
            rw [receive, Transport.receive, hconn, hfits]
            rfl
          obtain ⟨r, hr⟩ := hreports (.error (.throws .bad_alloc)) h
            (by rw [hthrows]; exact .ret _ _)
          cases hr
        refine .inr ⟨hheader, fun hopen hle => ?_⟩
        -- a peer that delivers the whole stream is one that may reset
        obtain ⟨result, h', hrun⟩ := exists_runs
          (exists_delivers transport.fd (consumed transport.fd h ++ stream))
          (receive host transport packet protocolError) h
        refine Runs.wp (C := .ofEnv (Delivers transport.fd _)) hrun
          (allocatable_of_returns hconn hheader hopen hle packet protocolError h) ?_
        exact hreports result h' (hrun.mono
          (delivers_resetting ((Socket.isOpen_iff _).mp hopen) _))
  · rintro (hconn | halloc) result h' hrun
    · have hreturns : receive host transport packet protocolError
          = pure (.ok ⟨⟨.ConnectionFailed, "Connection not established"⟩, packet,
            protocolError.map fun _ => .InvalidPacket, transport⟩) := by
        rw [receive, Transport.receive, hconn]
        rfl
      rw [hreturns] at hrun
      cases hrun
      exact ⟨_, rfl⟩
    · exact Runs.wp (C := .ofEnv (Resetting transport.fd _)) hrun
        (receiveReports_of_allocatable halloc packet protocolError h)

/-! ## The result -/

/-- A machine on which no vector grows beyond `limit` bytes. -/
def limited (limit : Nat) : Platform where
  endianness := .Little
  sizeBits := 64
  fits n := n ≤ limit && n < 2 ^ 64
  lt_of_fits n h := by
    rw [Bool.and_eq_true] at h
    exact of_decide_eq_true h.2

/-- A header that announces a payload of 2³² - 1 bytes. -/
def hugeHeader : List UInt8 :=
  Bytes.bigEndian 4 MagicNumber.toNat ++ [VERSION, 0] ++ Bytes.bigEndian 2 1 ++
    Bytes.bigEndian 4 0 ++ Bytes.bigEndian 4 (2 ^ 32 - 1)

/-- An empty packet is sent to a peer that is gone; and where a vector cannot have more than 2³⁰
bytes, a peer sends 16 of them. -/
theorem not_reported :
    ¬ SendReports (.ample .Little 64) .default ⟨⟨⟨3⟩, true⟩⟩ Packet.new (some 0) [] ∧
    ¬ ReceiveReports (limited (2 ^ 30)) ⟨⟨⟨3⟩, true⟩⟩ Packet.new none hugeHeader [] := by
  constructor
  · rw [send_reports_iff]
    rintro (hsigpipe | hconn | hopen | hframe)
    · cases hsigpipe
    · cases hconn
    · cases hopen
    · have hle := hframe (wireFormat Packet.new)
        (encode_of_isValid (by decide) (by decide +kernel)) 0 rfl
      exact absurd hle (by decide +kernel)
  · rw [receive_reports_iff]
    rintro (hconn | ⟨-, hframe⟩)
    · cases hconn
    · have hpayload := (hframe rfl (by decide +kernel)).1 (by decide +kernel)
      exact absurd hpayload (by decide +kernel)

/-- **When `PacketIO` reports failure as a value.** A send always does so exactly if the signal is
not left at its default, or there is nothing to be sent, or the peer stays until it has all of the
frame; a receive exactly if it is not connected, or the vectors that the stream asks for can be
allocated. -/
theorem reports_failure_iff (host : Platform) (sigpipe : Disposition) (transport : Transport)
    (packet : Packet) (protocolError : Option ProtocolError) (leaves : Option Nat)
    (stream : List UInt8) (h : SysHistory) :
    (SendReports host sigpipe transport packet leaves h ↔
      sigpipe = .changed ∨ transport.isConnected = false ∨
        transport.connection.socket.isOpen = false ∨
        ∀ frame, Encoder.encode host packet = .ok frame → ∀ k, leaves = some k → frame.length ≤ k) ∧
    (ReceiveReports host transport packet protocolError stream h ↔
      transport.isConnected = false ∨
        host.fits HEADER_SIZE = true ∧
          (transport.connection.socket.isOpen = true → HEADER_SIZE ≤ stream.length →
            (0 < fieldAt stream 12 4 → host.fits (fieldAt stream 12 4) = true) ∧
            (HEADER_SIZE + fieldAt stream 12 4 ≤ stream.length →
              host.fits (HEADER_SIZE + fieldAt stream 12 4) = true))) :=
  ⟨send_reports_iff host sigpipe transport packet leaves h,
    receive_reports_iff host transport packet protocolError stream h⟩

end PacketIo

end PacketForge.Protocol
