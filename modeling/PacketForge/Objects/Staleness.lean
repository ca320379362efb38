import PacketForge.Objects.Links

set_option autoImplicit false

/-! # A stale connection is never used

In every run, an object transfers bytes only on the descriptor of its link, which nobody closed
since it was established, and an object whose connection was dropped refuses to transfer at all.

The invariant is `LinkInv` for every object. For the objects that an operation may write to, each
member function keeps it; for the others nothing changes, and ownership says that their
descriptors are not closed.

## How the proof goes

* `LinkInv` compares an object with its link. If the object says that it is connected, then its
  socket is open and has the descriptor that the link was established on, which nobody closed
  since; if the link was dropped, the object does not say so; and its `packetIO_` refers to the
  object itself.
* The member functions keep it by the results of `Usage` (`call_links`); the moves hand the link
  on with the connection (`moveConstruct_links`, `moveAssign_links`).
* The danger is in what other objects do. An operation on another object may close descriptors,
  but only its own ones (`Ownership`), and two objects never hold the same one (`sock_ne`); so the
  links of the objects that it does not write to stay as they are.
* That transfers happen on the link (`run_uses`) and that an object without connection refuses
  them (`transport_refuses`, `client_refuses`) then follows for one operation, from the invariant
  at its start.
-/

namespace PacketForge.Objects

open Interaction Common Network Protocol

/-! ## Links -/

section

variable {link : Link} {h h' : SysHistory}

theorem observe_of_undisturbed {fd : Int} (hext : Extends (Undisturbed fd) h h') :
    link.observe h h' = link := by
  obtain ⟨new, rfl, hnew⟩ := hext
  have htake : (new ++ h).take ((new ++ h).length - h.length) = new := by
    rw [List.length_append, Nat.add_sub_cancel, List.take_left]
  have hquiet : new.any sawPeerClose = false := by
    rw [List.any_eq_false]
    intro e he
    rw [(hnew e he).2]
    exact Bool.false_ne_true
  rw [Link.observe, htake, hquiet, if_neg Bool.false_ne_true]

end

/-! ## Parts of objects

An operation may act on a connection that is a part of a transport. Its link is that of the whole
object.
-/

section

variable {o a : Obj} {kind : Kind}

theorem part_links (hpart : o.part kind = some a) (hkind : kind ≠ .socket) :
    a.connection? = o.connection? ∧ a.packetIo? = o.packetIo? := by
  cases kind <;> cases o <;> cases hpart <;>
    first | exact absurd rfl hkind | exact ⟨rfl, rfl⟩

/-- A part of a class other than `Socket` is no socket. -/
theorem part_ne_socket (hpart : o.part kind = some a) (hkind : kind ≠ .socket) (s : Socket) :
    a ≠ .socket s := by
  cases kind <;> cases o <;> cases hpart <;> first | exact absurd rfl hkind | exact nofun

theorem connection_ne_socket (c : Connection) (s : Socket) : Obj.connection c ≠ .socket s := by
  intro heq
  cases heq

theorem put_links (ha : ∀ s, a ≠ .socket s) :
    (o.put a).connection? = a.connection? ∧ (o.put a).packetIo? = a.packetIo? := by
  cases a with
  | socket s => exact absurd rfl (ha s)
  | _ => cases o <;> exact ⟨rfl, rfl⟩

/-- A socket on its own is the whole object. -/
theorem put_socket_standalone (halone : o.connection? = none) (s : Socket) :
    (o.put (.socket s)).connection? = none := by
  cases o <;> first | rfl | cases halone

theorem put_part_socket {s : Socket} (hpart : o.part .socket = some (.socket s)) :
    o.put (.socket s) = o ∧ o.sock = s := by
  cases o <;> cases hpart <;> exact ⟨rfl, rfl⟩

end

/-! ## Member functions

A call that establishes a connection gives the object a new link; one that transfers may drop it.
-/

section

variable {host : Platform} {i : Loc} {o a : Obj} {link : Link} {h : SysHistory}

/-- After `connect` and `accept` the object agrees with the link that the call has established, or
with the one from before if it failed. -/
theorem linkInv_of_establishes {o' : Obj} {c c' : Connection} {error : Error}
    (hinv : LinkInv i o link h) {h' : SysHistory} (hc : o.connection? = some c)
    (hc' : o'.connection? = some c') (hio : o'.packetIo? = o.packetIo?)
    (hestablishes : Establishes link.established c error.ok c' h') :
    LinkInv i o' (link.establish (Outcome.returned error).success h') h' := by
  have hio' : ∀ j, o'.packetIo? = some j → j = i := by
    rw [hio]
    exact hinv.packetIo
  unfold Establishes at hestablishes
  unfold Link.establish Outcome.success
  split_ifs at hestablishes ⊢ with hok
  · -- a new peer, so that nothing is dropped
    refine ⟨fun c₁ hc₁ => ?_, fun _ _ => nofun, hio'⟩
    obtain rfl := Option.some.inj (hc'.symm.trans hc₁)
    exact hestablishes
  · obtain ⟨hlive, hconnected⟩ := hestablishes
    refine ⟨fun c₁ hc₁ => ?_, fun c₁ hc₁ hdropped => ?_, hio'⟩
    · obtain rfl := Option.some.inj (hc'.symm.trans hc₁)
      exact hlive
    · obtain rfl := Option.some.inj (hc'.symm.trans hc₁)
      rw [hconnected]
      exact hinv.dropped c hc hdropped

/-- After a call that transfers on the transport of the object, or closes its connection. -/
theorem linkInv_of_kept {o' : Obj} {t t' : Transport} {success : Bool} {h' : SysHistory}
    (hinv : LinkInv i o link h) (hc : o.connection? = some t.connection)
    (hc' : o'.connection? = some t'.connection) (hio : o'.packetIo? = o.packetIo?)
    (hsock : o.sock = t.connection.socket) (hkept : Kept t h success t' h') :
    LinkInv i o' (link.observe h h') h' := by
  rcases hkept with ⟨rfl, hext⟩ | ⟨-, hnot⟩
  · rw [observe_of_undisturbed hext]
    refine (hinv.extend fun _ => ?_).congr (hc'.trans hc.symm) hio
    rw [hsock]
    exact hext.mono fun e he => he.1
  · -- the peer has closed, and the connection with it
    refine linkInv_of_not_connected (fun c hc₁ => ?_) (hio ▸ hinv.packetIo)
    obtain rfl := Option.some.inj (hc'.symm.trans hc₁)
    exact hnot

/-- **The member functions keep the link of their object**, which is after the call what the
outcome and the system calls of it say. -/
theorem call_links {method : Call} {p : SysM (Outcome × Obj)} (hp : a.call host method = some p)
    (hinv : LinkInv i a link h) (ha : ∀ s, a ≠ .socket s) :
    wp (.ofEnv Kernel) p (fun r h' => LinkInv i r.2 (method.relink r.1 h h' link) h' ∧
      ∀ s, r.2 ≠ .socket s) h := by
  unfold Obj.call at hp
  split at hp
  all_goals try (obtain rfl := Option.some.inj hp)
  · exact absurd rfl (ha _)
  · exact absurd rfl (ha _)
  · exact absurd rfl (ha _)
  · exact absurd rfl (ha _)
  · next c =>
      -- `open` changes nothing on a connected connection
      refine wp_seq (Connection.open_live (hinv.live c rfl)) fun (error, c') h' hr => ⟨?_, nofun⟩
      obtain ⟨hlive, hconnected⟩ := hr
      refine ⟨fun c₁ hc₁ => ?_, fun c₁ hc₁ hdropped => ?_, nofun⟩
      · obtain rfl := Option.some.inj hc₁
        exact hlive
      · obtain rfl := Option.some.inj hc₁
        exact hconnected.trans (hinv.dropped c rfl hdropped)
  · next address port c =>
      refine wp_seq (Connection.connect_live (hinv.live c rfl) address port)
        fun (error, c') h' hr => ⟨?_, nofun⟩
      exact linkInv_of_establishes hinv rfl rfl rfl hr
  · next c =>
      refine Connection.disconnect_wp fun h' _ => ⟨?_, nofun⟩
      exact linkInv_of_not_connected (fun c₁ hc₁ => Option.some.inj hc₁ ▸ rfl) nofun
  · next data t =>
      refine wp_seq (wp_of_transferring (t.send_transfers data (.refl h)))
        fun error h' hext => ⟨?_, nofun⟩
      exact hinv.extend fun _ => hext.mono fun e he => he.1
  · next data size t =>
      refine wp_seq (wp_of_transferring (t.receive_transfers host data size (.refl h)))
        fun r h' hkept => ?_
      match r with
      | .ok (error, data, t') => exact ⟨linkInv_of_kept hinv rfl rfl rfl rfl hkept, nofun⟩
      | .error .bad_alloc => exact ⟨linkInv_of_kept hinv rfl rfl rfl rfl hkept, nofun⟩
  · next address port c =>
      rw [Client.connect, bind_assoc]
      refine wp_seq (Connection.connect_live (hinv.live _ rfl) address port)
        fun (error, c') h' hr => ⟨?_, nofun⟩
      exact linkInv_of_establishes hinv rfl rfl rfl hr
  · next c =>
      rw [Client.disconnect, bind_assoc]
      refine Connection.disconnect_wp fun h' _ => ⟨?_, nofun⟩
      exact linkInv_of_not_connected (fun c₁ hc₁ => Option.some.inj hc₁ ▸ rfl) hinv.packetIo
  · next address port s =>
      exact wp_seq (wp_true _ _) fun r h' _ => ⟨linkInv_of_none rfl, nofun⟩
  · next s =>
      exact wp_seq (wp_true _ _) fun r h' _ => ⟨linkInv_of_none rfl, nofun⟩
  · cases hp

/-- The member functions of a socket, which on the socket of a connection must not write to it. -/
theorem socket_call_links {s : Socket} {method : Call} {p : SysM (Outcome × Obj)}
    (hpart : o.part .socket = some (.socket s)) (hp : (Obj.socket s).call host method = some p)
    (hinv : LinkInv i o link h)
    (hraw : o.connection? = none ∨ (∃ backlog, method = .listen backlog) ∨
      ((∃ address port, method = .bind address port) ∧ s.isOpen = true)) :
    wp (.ofEnv Kernel) p
      (fun r h' => LinkInv i (o.put r.2) (method.relink r.1 h h' link) h') h := by
  have halone : o.connection? = none → ∀ (s' : Socket) (link' : Link) (h' : SysHistory),
      LinkInv i (o.put (.socket s')) link' h' :=
    fun hnone s' _ _ => linkInv_of_none (put_socket_standalone hnone s')
  obtain ⟨hput, hsock⟩ := put_part_socket hpart
  have hkept : ∀ h', NotClosed s.socket h h' → LinkInv i (o.put (.socket s)) link h' := by
    intro h' hext
    rw [hput]
    exact hinv.extend fun _ => hsock ▸ hext
  cases method with
  | create =>
      obtain rfl := Option.some.inj hp
      rcases hraw with hnone | ⟨backlog, hmethod⟩ | ⟨⟨address, port, hmethod⟩, -⟩
      · exact wp_seq (wp_true _ _) fun r h' _ => halone hnone r.2 link h'
      · cases hmethod
      · cases hmethod
  | bind address port =>
      obtain rfl := Option.some.inj hp
      rcases hraw with hnone | ⟨backlog, hmethod⟩ | ⟨-, hopen⟩
      · exact wp_seq (wp_true _ _) fun r h' _ => halone hnone r.2 link h'
      · cases hmethod
      · refine wp_seq (Socket.bind_of_isOpen hopen address port) fun (error, s') h' hr => ?_
        obtain ⟨rfl, hext⟩ := hr
        exact hkept h' hext
  | listen backlog =>
      obtain rfl := Option.some.inj hp
      exact wp_seq (Socket.listen_wp s backlog) fun _ h' hext => hkept h' hext
  | close =>
      obtain rfl := Option.some.inj hp
      rcases hraw with hnone | ⟨backlog, hmethod⟩ | ⟨⟨address, port, hmethod⟩, -⟩
      · exact wp_seq (wp_true _ _) fun r h' _ => halone hnone r link h'
      · cases hmethod
      · cases hmethod
  | _ => cases hp

/-! ## Moves -/

theorem moveConstruct_links (this : Loc) (other : Obj) :
    (other.moveConstruct this).1.connection? = other.connection? ∧
    (∀ c, (other.moveConstruct this).2.connection? = some c → c.connected = false) ∧
    (∀ j, (other.moveConstruct this).1.packetIo? = some j → j = this) ∧
    (other.moveConstruct this).2.packetIo? = other.packetIo? := by
  have hnew : ∀ c, some Connection.new = some c → c.connected = false :=
    fun c hc => Option.some.inj hc ▸ rfl
  cases other with
  | socket other => exact ⟨rfl, nofun, nofun, rfl⟩
  | connection other => exact ⟨rfl, hnew, nofun, rfl⟩
  | transport other => exact ⟨rfl, hnew, nofun, rfl⟩
  | client other => exact ⟨rfl, hnew, fun j hj => (Option.some.inj hj).symm, rfl⟩
  | server other => exact ⟨rfl, nofun, nofun, rfl⟩

theorem moveConstruct_ne_socket {this : Loc} {other : Obj} (hother : ∀ s, other ≠ .socket s) :
    ∀ s, (other.moveConstruct this).2 ≠ .socket s := by
  cases other with
  | socket other => exact absurd rfl (hother other)
  | _ => exact nofun

/-- What a move assignment leaves behind, and that it closes the own descriptor only. -/
structure MoveAssigned (o other o' other' : Obj) (h h' : SysHistory) : Prop where
  connection : o'.connection? = other.connection?
  disconnected : ∀ c, other'.connection? = some c → c.connected = false
  packetIo : o'.packetIo? = o.packetIo?
  other_packetIO : other'.packetIo? = other.packetIo?
  ne_socket : ∀ s, o' ≠ .socket s
  other_ne_socket : ∀ s, other' ≠ .socket s
  closes : other.connection? ≠ none → ∀ fd, fd ≠ o.sock.socket → NotClosed fd h h'

theorem moveAssign_links {self other : Obj} {p : SysM (Obj × Obj)}
    (hp : self.moveAssign other = some p) (hself : ∀ s, self ≠ .socket s) :
    wp (.ofEnv Kernel) p (fun r h' => MoveAssigned self other r.1 r.2 h h') h := by
  have hnew : ∀ c, some Connection.new = some c → c.connected = false :=
    fun c hc => Option.some.inj hc ▸ rfl
  unfold Obj.moveAssign at hp
  split at hp
  all_goals try (obtain rfl := Option.some.inj hp)
  · exact absurd rfl (hself _)
  · next self other =>
      refine wp_seq (Connection.moveAssign_wp self other) fun r h' hr => ?_
      obtain ⟨rfl, hext⟩ := hr
      exact ⟨rfl, hnew, rfl, rfl, nofun, nofun, fun _ => hext⟩
  · next self other =>
      rw [Transport.moveAssign, bind_assoc]
      refine wp_seq (Connection.moveAssign_wp self.connection other.connection) fun r h' hr => ?_
      obtain ⟨rfl, hext⟩ := hr
      exact ⟨rfl, hnew, rfl, rfl, nofun, nofun, fun _ => hext⟩
  · next self other =>
      rw [Client.moveAssign, Transport.moveAssign, bind_assoc, bind_assoc]
      refine wp_seq (Connection.moveAssign_wp self.transport.connection other.transport.connection)
        fun r h' hr => ?_
      obtain ⟨rfl, hext⟩ := hr
      exact ⟨rfl, hnew, rfl, rfl, nofun, nofun, fun _ => hext⟩
  · exact wp_seq (wp_true _ _) fun r h' _ =>
      ⟨rfl, nofun, rfl, rfl, nofun, nofun, fun hne => absurd rfl hne⟩
  · cases hp

end

/-! ## Operations -/

/-- The invariant of the program with its links: descriptors are owned, and every object agrees
with its link. -/
structure StaleInv (s : Linked) : Prop where
  owned : OwnershipInv s.toState
  links : ∀ i o, s.heap.obj? i = some o → LinkInv i o (s.links i) s.history

section

variable {host : Platform} {s : Linked}

/-- An operation that places a moved object at `i`, out of the object at `j`. -/
theorem linkInv_of_move {i j : Loc} {self o : Obj} {h : SysHistory} (other : Obj)
    (hother : LinkInv j o (s.links j) h) (hconnection : self.connection? = other.connection?)
    (hpart : other.connection? = o.connection?)
    (hio : ∀ k, self.packetIo? = some k → k = i) :
    LinkInv i self (s.links j).moveIn h := by
  refine ⟨fun c hc => ?_, fun _ _ => nofun, hio⟩
  exact hother.live c (hpart.symm.trans (hconnection.symm.trans hc))

/-- A part of an object has its connection, also where the part is a socket on its own. -/
theorem part_connection? {o a : Obj} {kind : Kind} (hpart : o.part kind = some a)
    (hraw : kind = .socket → o.connection? = none) : a.connection? = o.connection? := by
  by_cases hkind : kind = .socket
  · subst hkind
    rw [hraw rfl]
    cases o <;> cases hpart <;> rfl
  · exact (part_links hpart hkind).1

/-- What is left of an object after a part of it was moved away. -/
theorem linkInv_of_moved {i : Loc} {o a a' : Obj} {kind : Kind} {link : Link} {h h' : SysHistory}
    (hinv : LinkInv i o link h) (hpart : o.part kind = some a)
    (hraw : kind = .socket → o.connection? = none)
    (hdisconnected : ∀ c, a'.connection? = some c → c.connected = false)
    (hio : a'.packetIo? = a.packetIo?)
    (hne : kind = .socket → ∃ s, a' = .socket s) (hne' : kind ≠ .socket → ∀ s, a' ≠ .socket s) :
    LinkInv i (o.put a') link h' := by
  by_cases hkind : kind = .socket
  · obtain ⟨s, rfl⟩ := hne hkind
    exact linkInv_of_none (put_socket_standalone (hraw hkind) s)
  · obtain ⟨hconnection, hreference⟩ := put_links (o := o) (hne' hkind)
    refine linkInv_of_not_connected (hconnection ▸ hdisconnected) ?_
    rw [hreference, hio, (part_links hpart hkind).2]
    exact hinv.packetIo

/-- Two objects do not share an open descriptor. -/
theorem sock_ne {i j : Loc} {o o' : Obj} (hinv : StaleInv s) (hne : i ≠ j)
    (hi : s.heap.obj? i = some o) (hj : s.heap.obj? j = some o') (hopen : o'.sock.isOpen = true) :
    o'.sock.socket ≠ o.sock.socket :=
  fun heq => hne (holder_unique hinv.owned.accounted hj hi hopen heq).symm

theorem part_socket {o a : Obj} (hpart : o.part .socket = some a) : ∃ s, a = .socket s := by
  cases o <;> cases hpart <;> exact ⟨_, rfl⟩

/-- Move assignment between two different objects: the target takes over the link of the source,
and the source has lost its connection. -/
theorem moveAssign_run_links (hinv : StaleInv s) {kind : Kind} {i j : Loc} (hne : i ≠ j)
    {o o' self other : Obj} {p : SysM (Obj × Obj)}
    (hraw : kind = .socket → s.heap.Standalone i ∧ s.heap.Standalone j)
    (hobj : s.heap.obj? i = some o) (hpart : o.part kind = some self)
    (hobj' : s.heap.obj? j = some o') (hpart' : o'.part kind = some other)
    (hp : self.moveAssign other = some p) :
    wp (.ofEnv Kernel) p (fun r h' => ∀ k ∈ ({i, j} : Finset Loc), ∀ o,
      ((s.heap.put i r.1).put j r.2).obj? k = some o →
        LinkInv k o (Function.update s.links i (s.links j).moveIn k) h') s.history := by
  have hlt := Heap.lt_length_of_obj? hobj
  simp only [Heap.put_eq hobj]
  by_cases hkind : kind = .socket
  · -- sockets on their own
    obtain ⟨hi, hj⟩ := hraw hkind
    subst hkind
    obtain ⟨a, rfl⟩ := part_socket hpart
    obtain ⟨b, rfl⟩ := part_socket hpart'
    obtain rfl := Option.some.inj hp
    refine wp_seq (wp_true _ _) fun r h' _ => ?_
    exact forall_place₂ hlt hne hobj' (linkInv_of_none (put_socket_standalone (hi o hobj) _))
      (linkInv_of_none (put_socket_standalone (hj o' hobj') _))
  · -- the old connection of `self` is closed, which is not that of `other`
    refine wp_mono (moveAssign_links hp (part_ne_socket hpart hkind)) fun r h' hr => ?_
    obtain ⟨hconnection, hreference⟩ := put_links (o := o) hr.ne_socket
    obtain ⟨hpc, hpio⟩ := part_links hpart hkind
    obtain ⟨hpc', hpio'⟩ := part_links hpart' hkind
    refine forall_place₂ hlt hne hobj' ?_ ?_
    · rw [Function.update_self]
      by_cases hnone : other.connection? = none
      · exact linkInv_of_none (hconnection.trans (hr.connection.trans hnone))
      · have hextended : LinkInv j o' (s.links j) h' := by
          refine (hinv.links j o' hobj').extend fun hopen => hr.closes hnone _ ?_
          rw [Obj.part_sock hpart]
          exact sock_ne hinv hne hobj hobj' hopen
        refine linkInv_of_move other hextended (hconnection.trans hr.connection) hpc' ?_
        rw [hreference, hr.packetIo, hpio]
        exact (hinv.links i o hobj).packetIo
    · rw [Function.update_of_ne hne.symm]
      exact linkInv_of_moved (hinv.links j o' hobj') hpart' (fun h => absurd h hkind)
        hr.disconnected hr.other_packetIO (fun h => absurd h hkind) fun _ => hr.other_ne_socket

/-- The `packetIO_` of a client refers to the client itself. -/
theorem StaleInv.referenced_eq (hinv : StaleInv s) {i : Loc} {self : Client}
    {referenced : Transport} (hself : s.heap.obj? i = some (.client self))
    (hreferenced : s.heap.transport? self.packetIo = some referenced) :
    referenced = self.transport := by
  rw [(hinv.links i _ hself).packetIo _ rfl] at hreferenced
  simp only [Heap.transport?, hself] at hreferenced
  exact (Option.some.inj hreferenced).symm

/-- **Every operation keeps the links of the objects that it may write to.** The cases are the
operations; in each, the member function or the move says what becomes of its objects. -/
theorem run_links (hinv : StaleInv s) {op : Op} {p : SysM (Outcome × Heap)}
    (hraw : op.RespectsRaw s.heap) (hrun : op.run host s.heap = some p) :
    wp (.ofEnv Kernel) p (fun r h' => ∀ i ∈ op.places s.heap, ∀ o, r.2.obj? i = some o →
      LinkInv i o (op.relink r.1 s.history h' s.links i) h') s.history := by
  cases Op.executes hrun with
  | @construct kind i hfree =>
      refine forall_place (Heap.lt_length_of_free hfree) fun o ho => ?_
      obtain rfl := Option.some.inj ho
      refine linkInv_of_not_connected (fun c hc => ?_) fun j hj => ?_
      · cases kind <;> cases hc <;> rfl
      · cases kind <;> cases hj
        rfl
  | @transportOf i j o c hfree hobj hpart =>
      have hne : i ≠ j := Heap.ne_of_free hfree hobj
      rw [Transport.ofConnection_eq]
      have hconnection := (part_links hpart (by decide)).1
      refine forall_place₂ (Heap.lt_length_of_free hfree) hne hobj ?_ ?_
      · simp only [Op.relink, Function.update_self]
        exact linkInv_of_move (.connection c) (hinv.links j o hobj) rfl hconnection
          (fun _ hj => by cases hj)
      · simp only [Op.relink, Function.update_of_ne hne.symm]
        exact linkInv_of_moved (hinv.links j o hobj) hpart (fun hkind => by cases hkind)
          (fun c' hc' => Option.some.inj hc' ▸ rfl) rfl (fun hkind => by cases hkind)
          fun _ => connection_ne_socket _
  | @moveConstruct kind i j o other hfree hobj hpart =>
      have hne : i ≠ j := Heap.ne_of_free hfree hobj
      have halone : kind = .socket → o.connection? = none := by
        rintro rfl
        exact hraw o hobj
      obtain ⟨hself, hdisconnected, hio, hio'⟩ := moveConstruct_links i other
      refine forall_place₂ (Heap.lt_length_of_free hfree) hne hobj ?_ ?_
      · simp only [Op.relink, Function.update_self]
        exact linkInv_of_move other (hinv.links j o hobj) hself (part_connection? hpart halone) hio
      · simp only [Op.relink, Function.update_of_ne hne.symm]
        refine linkInv_of_moved (hinv.links j o hobj) hpart halone hdisconnected hio' ?_ ?_
        · rintro rfl
          obtain ⟨s, rfl⟩ := part_socket hpart
          exact ⟨_, rfl⟩
        · exact fun hkind => moveConstruct_ne_socket (part_ne_socket hpart hkind)
  | moveAssignSelf =>
      rw [Op.places, if_pos rfl]
      exact fun k hk => absurd hk (Finset.notMem_empty k)
  | @moveAssign kind i j o o' self other p hne hobj hpart hobj' hpart' hp =>
      have hraw' : kind = .socket → s.heap.Standalone i ∧ s.heap.Standalone j := by
        rintro rfl
        exact hraw.resolve_left hne
      simp only [Op.places, Op.relink, if_neg hne]
      exact wp_seq (moveAssign_run_links hinv hne hraw' hobj hpart hobj' hpart' hp) fun _ _ hr => hr
  | @call kind i method o self p hobj hpart hp =>
      have hlink := hinv.links i o hobj
      by_cases hkind : kind = .socket
      · -- a call on a raw socket must not touch the socket of a connection
        subst hkind
        obtain ⟨a, rfl⟩ := part_socket hpart
        refine wp_seq (socket_call_links hpart hp hlink ?_) fun r h' hr => ?_
        · cases method with
          | listen backlog => exact .inr (.inl ⟨backlog, rfl⟩)
          | bind address port =>
              rcases hraw with halone | ⟨a', ha', hopen⟩
              · exact .inl (halone o hobj)
              · have ha : s.heap.part? .socket i = some (.socket a) := by
                  rw [Heap.part?, hobj]
                  exact hpart
                obtain rfl : a = a' := by
                  rw [ha] at ha'
                  injection Option.some.inj ha'
                exact .inr (.inr ⟨⟨address, port, rfl⟩, hopen⟩)
          | _ => exact .inl (hraw o hobj)
        · refine forall_place_put hobj ?_
          simp only [Op.relink, Function.update_self]
          exact hr
      · obtain ⟨hconnection, hreference⟩ := part_links hpart hkind
        refine wp_seq (call_links hp (hlink.congr hconnection hreference)
          (part_ne_socket hpart hkind)) fun r h' hr => ?_
        obtain ⟨hr, hne⟩ := hr
        refine forall_place_put hobj ?_
        simp only [Op.relink, Function.update_self]
        exact hr.congr (put_links hne).1 (put_links hne).2
  | @socketAccept i j self client o hself hobj hpart =>
      refine wp_seq (wp_true _ _) fun r h' _ => forall_place_put hobj ?_
      exact linkInv_of_none (put_socket_standalone (hraw o hobj) _)
  | @connectionAccept i j self listeningSocket o hobj hpart hlistening =>
      have hc : o.connection? = some self := (part_links hpart (by decide)).1.symm
      have hlink := hinv.links i o hobj
      refine wp_seq (Connection.accept_live (hlink.live self hc) listeningSocket)
        fun r h' hr => forall_place_put hobj ?_
      simp only [Op.relink, Function.update_self]
      obtain ⟨hconnection, hreference⟩ := put_links (o := o) (connection_ne_socket r.2)
      exact linkInv_of_establishes hlink hc hconnection
        (hreference.trans (part_links hpart (by decide)).2) hr
  | @serverAccept i j self connection o hself hobj hpart =>
      have hc : o.connection? = some connection := (part_links hpart (by decide)).1.symm
      have hlink := hinv.links j o hobj
      refine wp_seq (self.accept_live (hlink.live connection hc))
        fun r h' hr => forall_place_put hobj ?_
      simp only [Op.relink, Function.update_self]
      obtain ⟨hconnection, hreference⟩ := put_links (o := o) (connection_ne_socket r.2)
      exact linkInv_of_establishes hlink hc hconnection
        (hreference.trans (part_links hpart (by decide)).2) hr
  | clientSend _ _ =>
      exact wp_mono (wp_true _ s.history) fun _ _ _ k hk => absurd hk (Finset.notMem_empty k)
  | @clientReceive i packet self referenced hself hreferenced =>
      have hlink := hinv.links i _ hself
      have hio : self.packetIo = i := hlink.packetIo _ rfl
      obtain rfl := hinv.referenced_eq hself hreferenced
      simp only [Op.places, hself, hio]
      refine wp_seq (self.receive_kept host packet s.history) fun r h' hkept => ?_
      intro k hk o hobj
      obtain rfl := Finset.mem_singleton.mp hk
      simp only [Op.relink, Function.update_self]
      cases r with
      | ok r =>
          have hput : s.heap.putTransport k r.2.2
              = s.heap.store k (some (.client { self with transport := r.2.2 })) := by
            simp only [Heap.putTransport, hself]
          have hobj : (s.heap.putTransport k r.2.2).obj? k = some o := hobj
          rw [hput, Heap.obj?_store_self _ (Heap.lt_length_of_obj? hself)] at hobj
          obtain rfl := Option.some.inj hobj
          exact linkInv_of_kept hlink rfl rfl rfl rfl hkept
      | error abort =>
          obtain rfl := Option.some.inj (hself.symm.trans hobj)
          exact linkInv_of_kept hlink rfl rfl rfl rfl hkept
  | destruct hself =>
      refine wp_seq (wp_true _ _) fun r h' _ => ?_
      exact forall_place (Heap.lt_length_of_obj? hself) fun _ ho => by cases ho

/-- Only the links of objects that an operation may write to change. -/
theorem relink_of_notMem (hinv : StaleInv s) {op : Op} {p : SysM (Outcome × Heap)}
    (hrun : op.run host s.heap = some p) {outcome : Outcome} {h h' : SysHistory} {k : Loc}
    (hk : k ∉ op.places s.heap) : op.relink outcome h h' s.links k = s.links k := by
  have hpair : ∀ {i j : Loc}, k ∉ ({i, j} : Finset Loc) → k ≠ i :=
    fun hk heq => hk (heq ▸ Finset.mem_insert_self _ _)
  cases op with
  | construct kind i => exact Function.update_of_ne (Finset.notMem_singleton.mp hk) _ _
  | transportOf i j => exact Function.update_of_ne (hpair hk) _ _
  | moveConstruct kind i j => exact Function.update_of_ne (hpair hk) _ _
  | moveAssign kind i j =>
      by_cases heq : i = j
      · simp only [Op.relink, if_pos heq]
      · simp only [Op.places, if_neg heq] at hk
        simp only [Op.relink, if_neg heq]
        exact Function.update_of_ne (hpair hk) _ _
  | call kind i method => exact Function.update_of_ne (Finset.notMem_singleton.mp hk) _ _
  | socketAccept i j => rfl
  | connectionAccept i j => exact Function.update_of_ne (Finset.notMem_singleton.mp hk) _ _
  | serverAccept i j => exact Function.update_of_ne (Finset.notMem_singleton.mp hk) _ _
  | clientSend i packet => rfl
  | clientReceive i packet =>
      cases Op.executes hrun with
      | @clientReceive _ _ self _ hself _ =>
          have hio : self.packetIo = i := (hinv.links i _ hself).packetIo _ rfl
          simp only [Op.places, hself, hio] at hk
          exact Function.update_of_ne (Finset.notMem_singleton.mp hk) _ _
  | destruct i => rfl

theorem staleInv_step {s' : Linked} {label : Op × Outcome} (hinv : StaleInv s)
    (hstep : LinkedStep host s label s') : StaleInv s' := by
  cases hstep with
  | @run op outcome t hraw hstep =>
      obtain ⟨howned, hsame, hclosed⟩ := step_ownership hinv.owned hstep
      refine ⟨howned, ?_⟩
      cases hstep with
      | @run _ p _ heap history hrun hruns =>
          have hplaces := Runs.wp (C := .ofEnv Kernel) hruns (run_links hinv hraw hrun)
          intro i o hobj
          by_cases hi : i ∈ op.places s.heap
          · exact hplaces i hi o hobj
          · have hold : s.heap.obj? i = some o := (hsame.obj?_eq i hi).symm.trans hobj
            show LinkInv i o (op.relink outcome s.history history s.links i) history
            rw [relink_of_notMem hinv hrun hi]
            refine (hinv.links i o hold).extend fun hopen => hclosed i hi _ ?_
            rw [hold]
            show o.held o.sock.socket ≠ 0
            rw [held_apply, if_pos ⟨rfl, o.sock.isOpen_iff.mp hopen⟩]
            exact one_ne_zero

theorem staleInv_reachable (hs : (linkedMachine host).Reachable s) : StaleInv s := by
  refine Machine.invariant StaleInv ?_ (fun s label s' hinv hstep => staleInv_step hinv hstep) hs
  rintro s ⟨places, rfl⟩
  refine ⟨new_ownershipInv places, fun i o hobj => ?_⟩
  have hnone : Heap.obj? (List.replicate places none) i = none := by
    rw [Heap.obj?, List.getElem?_replicate]
    split_ifs <;> rfl
  cases hnone.symm.trans hobj

end

/-! ## What is transferred

Here the operation is looked at while it runs, one system call after the other, and the links are
those from before it.
-/

/-- The object whose connection an operation transfers on. -/
def Op.user : Op → Option Loc
  | .call _ i method => if method.transfers then some i else none
  | .clientSend i _ => some i
  | .clientReceive i _ => some i
  | _ => none

/-- Bytes are transferred only on the descriptor of the link of the object, which was not closed
since it was established. -/
def uses (links : Loc → Link) (op : Op) : Contract Sys Sys.Res where
  may h call := ∀ fd, transfersOn call = some fd → ∃ i h₀, op.user = some i ∧
    (links i).established = some (fd, h₀) ∧ NotClosed fd h₀ h
  answers := Kernel

section

variable {host : Platform} {s : Linked}

/-- A call that transfers on a live connection. -/
theorem uses_of_transferring {α : Type} {p : SysM α} {t : Transport} {op : Op} {i : Loc}
    {Q : α → SysHistory → Prop} (huser : op.user = some i)
    (hlive : Live (s.links i).established t.connection s.history)
    (hconnected : t.connection.connected = true)
    (hp : wp (transferring Kernel t.fd s.history) p Q s.history) :
    wp (uses s.links op) p (fun _ _ => True) s.history := by
  obtain ⟨-, h₀, hlink, hclosed⟩ := hlive hconnected
  refine wp_weaken (wp_mono hp fun _ _ _ => trivial) (fun h call hmay fd hfd => ?_)
    (fun _ _ _ hr => hr)
  obtain ⟨rfl, hext⟩ := hmay fd hfd
  exact ⟨i, h₀, huser, hlink, hclosed.trans (hext.mono fun e he => he.1)⟩

theorem send_uses {t : Transport} {op : Op} {i : Loc} (huser : op.user = some i)
    (hlive : Live (s.links i).established t.connection s.history) (data : List UInt8) :
    wp (uses s.links op) (t.send data) (fun _ _ => True) s.history := by
  by_cases hconnected : t.isConnected = true
  · exact uses_of_transferring huser hlive hconnected (t.send_transfers data (.refl _))
  · have hnot : (!t.isConnected) = true := by simpa using hconnected
    rw [Transport.send, if_pos hnot]
    trivial

theorem receive_uses {t : Transport} {op : Op} {i : Loc} (huser : op.user = some i)
    (hlive : Live (s.links i).established t.connection s.history) (data : List UInt8)
    (size : Nat) : wp (uses s.links op) (t.receive host data size) (fun _ _ => True) s.history := by
  by_cases hconnected : t.isConnected = true
  · exact uses_of_transferring huser hlive hconnected (t.receive_transfers host data size (.refl _))
  · have hnot : (!t.isConnected) = true := by simpa using hconnected
    rw [Transport.receive, if_pos hnot]
    trivial

/-- A program that ends after a part of it that transfers. -/
theorem wp_then {α β : Type} {C : Contract Sys Sys.Res} {p : SysM α} {f : α → SysM β}
    {h : SysHistory} (hp : wp C p (fun _ _ => True) h)
    (hf : ∀ a h', wp C (f a) (fun _ _ => True) h') : wp C (p >>= f) (fun _ _ => True) h :=
  wp_seq hp fun a h' _ => hf a h'

theorem transport_connection? {kind : Kind} {o : Obj} {t : Transport}
    (hpart : o.part kind = some (.transport t)) : o.connection? = some t.connection := by
  cases kind <;> cases o <;> cases hpart
  rfl

/-- **Every transfer of an operation is on the link of its object**, at the moment when it is
made. -/
theorem run_uses (hinv : StaleInv s) {op : Op} {p : SysM (Outcome × Heap)}
    (hrun : op.run host s.heap = some p) :
    wp (uses s.links op) p (fun _ _ => True) s.history := by
  by_cases htransfers : op.transfers = true
  · cases Op.executes hrun with
    | @call kind i method o self p hobj hpart hp =>
        have huser : (Op.call kind i method).user = some i := if_pos htransfers
        have hlive := fun c => (hinv.links i o hobj).live c
        cases method with
        | send data =>
            cases self with
            | transport t =>
                obtain rfl := Option.some.inj hp
                have hc := transport_connection? hpart
                exact wp_then (wp_then (send_uses huser (hlive _ hc) data) fun _ _ => trivial)
                  fun _ _ => trivial
            | _ => cases hp
        | receive data size =>
            cases self with
            | transport t =>
                obtain rfl := Option.some.inj hp
                have hc := transport_connection? hpart
                refine wp_then (wp_then (receive_uses huser (hlive _ hc) data size)
                  fun r _ => ?_) fun _ _ => trivial
                rcases r with _ | ⟨error, data, t⟩
                · trivial
                · trivial
            | _ => cases hp
        | _ => cases htransfers
    | @clientSend i packet self referenced hself hreferenced =>
        have hlink := hinv.links i _ hself
        obtain rfl := hinv.referenced_eq hself hreferenced
        refine wp_then ?_ fun _ _ => trivial
        unfold Client.send
        split_ifs with hnot
        · trivial
        have hconnected : self.isConnected = true := by simpa using hnot
        exact uses_of_transferring rfl (hlink.live _ rfl) hconnected
          (PacketIo.send_transfers host self.transport packet (.refl _))
    | @clientReceive i packet self referenced hself hreferenced =>
        have hlink := hinv.links i _ hself
        obtain rfl := hinv.referenced_eq hself hreferenced
        refine wp_then ?_ fun _ _ => trivial
        unfold Client.receive
        split_ifs with hnot
        · trivial
        have hconnected : self.isConnected = true := by simpa using hnot
        exact wp_then (uses_of_transferring rfl (hlink.live _ rfl) hconnected
          (PacketIo.receive_transfers host self.transport packet none (.refl _)))
          fun _ _ => trivial
    | _ => cases htransfers
  · rw [Bool.not_eq_true] at htransfers
    obtain ⟨others, -, hwp⟩ := run_accounts hrun
    rw [htransfers] at hwp
    refine wp_weaken (wp_mono (hwp s.history hinv.owned.accounted) fun _ _ _ => trivial)
      (fun h call hmay fd hfd => ?_) (fun _ _ _ hr => hr)
    exact absurd (hmay.2 (by rw [hfd]; exact Option.some_ne_none fd)) Bool.false_ne_true

end

/-! ## The result -/

/-- `"Connection not established"`, what `send` and `receive` answer without a connection. -/
def notEstablished : Error := ⟨.ConnectionFailed, "Connection not established"⟩

section

variable {host : Platform} {heap : Heap} {i : Loc}

/-- Writing back what was read changes nothing. -/
theorem transport_refuses {t : Transport} (hobj : heap.obj? i = some (.transport t))
    (hnot : t.connection.connected = false) :
    (∀ data, (Op.call .transport i (.send data)).run host heap
      = some (pure (.returned notEstablished, heap))) ∧
    (∀ data size, (Op.call .transport i (.receive data size)).run host heap
      = some (pure (.received notEstablished data, heap))) := by
  have hpart : heap.part? .transport i = some (.transport t) := by
    rw [Heap.part?, hobj]
    rfl
  have hconnected : (!t.isConnected) = true := by
    rw [Transport.isConnected, Connection.isConnected, hnot]
    rfl
  have hput : heap.put i (.transport t) = heap := by
    rw [Heap.put_eq hobj]
    exact Heap.store_self hobj
  constructor
  · intro data
    simp only [Op.run, hpart, Obj.call, Option.map_some]
    rw [Transport.send, if_pos hconnected]
    simp only [pure_bind, hput, notEstablished]
  · intro data size
    simp only [Op.run, hpart, Obj.call, Option.map_some]
    rw [Transport.receive, if_pos hconnected]
    simp only [pure_bind, hput, notEstablished]

theorem client_refuses {c : Client} (hobj : heap.obj? i = some (.client c))
    (hio : c.packetIo = i) (hnot : c.transport.connection.connected = false) (packet : Packet) :
    (Op.clientSend i packet).run host heap = some (pure (.returned notEstablished, heap)) ∧
    (Op.clientReceive i packet).run host heap
      = some (pure (.packet notEstablished packet, heap)) := by
  have hreferenced : heap.transport? c.packetIo = some c.transport := by
    rw [hio]
    simp only [Heap.transport?, hobj]
  have hconnected : (!c.isConnected) = true := by
    rw [Client.isConnected, Transport.isConnected, Connection.isConnected, hnot]
    rfl
  have hput : heap.putTransport c.packetIo c.transport = heap := by
    rw [hio]
    simp only [Heap.putTransport, hobj]
    exact Heap.store_self hobj
  constructor
  · simp only [Op.run, hobj, hreferenced, Option.map_some]
    rw [Client.send, if_pos hconnected]
    simp only [pure_bind, notEstablished]
  · simp only [Op.run, hobj, hreferenced, Option.map_some]
    rw [Client.receive, if_pos hconnected]
    simp only [pure_bind, Heap.received, hput, notEstablished]

end

/-- **A stale connection is never used.** In every reachable state: a connected object has an open
socket; whatever an operation does next, each `::send` and `::recv` of it is on the descriptor of
the latest successful `connect` or `accept` of its object, own or moved in, which was not closed
since; and an object whose connection was dropped answers `send` and `receive` with
`ConnectionFailed`, without a system call and with its output argument as it was. -/
theorem stale_connection_never_used {host : Platform} {s : Linked}
    (hs : (linkedMachine host).Reachable s) :
    (∀ i o c, s.heap.obj? i = some o → o.connection? = some c → c.isConnected = true →
      c.socket.isOpen = true) ∧
    (∀ op p, op.run host s.heap = some p →
      wp (uses s.links op) p (fun _ _ => True) s.history) ∧
    (∀ i, (s.links i).dropped = true →
      (∀ t, s.heap.obj? i = some (.transport t) →
        (∀ data, (Op.call .transport i (.send data)).run host s.heap
          = some (pure (.returned notEstablished, s.heap))) ∧
        (∀ data size, (Op.call .transport i (.receive data size)).run host s.heap
          = some (pure (.received notEstablished data, s.heap)))) ∧
      (∀ c, s.heap.obj? i = some (.client c) → ∀ packet,
        (Op.clientSend i packet).run host s.heap
          = some (pure (.returned notEstablished, s.heap)) ∧
        (Op.clientReceive i packet).run host s.heap
          = some (pure (.packet notEstablished packet, s.heap)))) := by
  have hinv := staleInv_reachable hs
  refine ⟨fun i o c hobj hc hconnected => ?_, fun op p hrun => run_uses hinv hrun,
    fun i hdropped => ⟨fun t hobj => ?_, fun c hobj packet => ?_⟩⟩
  · exact ((hinv.links i o hobj).live c hc hconnected).1
  · exact transport_refuses hobj ((hinv.links i _ hobj).dropped _ rfl hdropped)
  · have hlink := hinv.links i _ hobj
    exact client_refuses hobj (hlink.packetIo _ rfl) (hlink.dropped _ rfl hdropped) packet

/-- A client that connected and disconnected does not send a packet. -/
theorem stale_connection_never_used_client :
    ∃ s, (linkedMachine (.ample .Little 64)).Reachable s ∧ (s.links 0).dropped = true ∧
      (Op.clientSend 0 .new).run (.ample .Little 64) s.heap
        = some (pure (.returned notEstablished, s.heap)) := by
  have hrun : (Machine.execute (Linked.execute (.ample .Little 64) twoDescriptors)
      ⟨⟨[none], []⟩, fun _ => .initial⟩ [.construct .client 0,
        .call .client 0 (.connect "127.0.0.1" 8080), .call .client 0 .disconnect]).map
      (fun s => (s.heap, (s.links 0).dropped)) = some ([some (.client (.new 0))], true) := by
    decide +kernel
  obtain ⟨s, hexecute, hresult⟩ := Option.map_eq_some_iff.mp hrun
  obtain ⟨hheap, hdropped⟩ := Prod.mk.inj hresult
  have hs : (linkedMachine (.ample .Little 64)).Reachable s := by
    refine reachable_linked_execute twoDescriptors_kernel ?_ ⟨_, _, ⟨1, rfl⟩, .nil _⟩ hexecute
    intro op hop heap
    simp only [List.mem_cons, List.not_mem_nil, or_false] at hop
    rcases hop with rfl | rfl | rfl <;> trivial
  have hobj : s.heap.obj? 0 = some (.client (.new 0)) := by
    rw [hheap]
    rfl
  obtain ⟨-, -, hrefuses⟩ := stale_connection_never_used hs
  exact ⟨s, hs, hdropped, ((hrefuses 0 hdropped).2 _ hobj .new).1⟩

end PacketForge.Objects
