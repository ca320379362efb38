import PacketForge.Objects.Ownership

set_option autoImplicit false

/-! # The lifecycle of servers

A `Server` is in one of two states: it runs, with a listening socket and the port that the kernel
reported for it, or it is as its constructor left it. `start` leads from the second to the first
or has no effect, `stop` leads back, and moves carry the state from one object to another.

## How the proof goes

`Settled` is the invariant of one server at a moment of the history: the flag, the descriptor and
the port agree with the calls that were made (`Network.Listening`). `start` has a branch for each
call that can fail; in each of them the socket is closed again, and the server is as it was
(`startFailed_wp`, `start_settled`). What other objects do cannot unsettle a server: its
descriptor is its own (`Ownership`), so nobody else closes it. `run_settled` goes through the
operations.
-/

namespace PacketForge

open Interaction Common Network

/-! ## One server -/

/-- `::listen` succeeded on `fd`, then `::getsockname` gave `port`, and `fd` was not closed
since. -/
def Network.Listening (fd : Int) (port : UInt16) (h : SysHistory) : Prop :=
  ∃ (listened reported : Ret) (h₀ : SysHistory), 0 ≤ listened.value ∧ 0 ≤ reported.value ∧
    NotClosed fd (⟨.getsockname fd, (reported, port)⟩ :: ⟨.listen fd SOMAXCONN, listened⟩ :: h₀) h

namespace Server

/-- The two states of a server. -/
def Settled (self : Server) (h : SysHistory) : Prop :=
  if self.running then self.socket.isOpen = true ∧ Listening self.socket.socket self.port h
  else self = new

variable {self : Server} {h h' : SysHistory}

theorem settled_new : Settled new h := rfl

theorem Settled.eq_new (hsettled : self.Settled h) (hnot : self.running = false) : self = new := by
  rw [Settled, hnot] at hsettled
  exact hsettled

theorem Settled.extend (hsettled : self.Settled h)
    (hext : self.socket.isOpen = true → NotClosed self.socket.socket h h') : self.Settled h' := by
  unfold Settled at hsettled ⊢
  split_ifs at hsettled ⊢
  · obtain ⟨hopen, listened, reported, h₀, hlistened, hreported, hnot⟩ := hsettled
    exact ⟨hopen, listened, reported, h₀, hlistened, hreported, hnot.trans (hext hopen)⟩
  · exact hsettled

/-- Every failure after the socket was created closes it. -/
theorem startFailed_wp {socket : Socket} {error : Error}
    {Q : Error × Server → SysHistory → Prop} (hQ : ∀ h', Q (error, new) h') :
    wp (.ofEnv Kernel) (startFailed socket false error) Q h := by
  unfold startFailed Socket.close
  split_ifs with hopen
  · exact ⟨trivial, fun _ _ => hQ _⟩
  · have heq : socket = Socket.new := congrArg Socket.mk (not_not.mp hopen)
    rw [heq]
    exact hQ _

/-- `start` leaves a settled server, and the same one if it fails. -/
theorem start_settled (hsettled : self.Settled h) (address : String) (port : UInt16) :
    wp (.ofEnv Kernel) (self.start address port)
      (fun r h' => r.2.Settled h' ∧ (r.1.ok = false → r.2 = self)) h := by
  unfold start
  cases hrunning : self.running with
  | true => exact ⟨hsettled, fun _ => rfl⟩
  | false =>
  obtain rfl := hsettled.eq_new hrunning
  -- what all failures do, once there is a socket
  have hfailed : ∀ (socket : Socket) (error : Error) (h' : SysHistory),
      wp (.ofEnv Kernel) (startFailed socket false error)
        (fun r h' => r.2.Settled h' ∧ (r.1.ok = false → r.2 = new)) h' :=
    fun socket error h' => startFailed_wp fun h'' => ⟨settled_new, fun _ => rfl⟩
  refine ⟨trivial, fun created _ => ?_⟩
  show wp _ ((if created.value = -1 then _ else _ : SysM (Error × Socket)).bind _) _ _
  split_ifs with hcreated
  · rw [hcreated]
    exact ⟨settled_new, fun _ => rfl⟩
  have hopen : (⟨created.value⟩ : Socket).isOpen = true := (Socket.isOpen_iff _).mpr hcreated
  show wp _ (((⟨created.value⟩ : Socket).bind address port).bind _) _ _
  refine wp_seq (Socket.bind_of_isOpen hopen address port) ?_
  rintro ⟨error, socket⟩ h₁ ⟨rfl, -⟩
  show wp _ (if !error.ok then _ else _) _ _
  split_ifs
  · exact hfailed _ error h₁
  unfold Socket.listen
  rw [hopen]
  refine ⟨trivial, fun listened _ => ?_⟩
  show wp _ ((if listened.value < 0 then _ else _ : SysM Error).bind _) _ _
  split_ifs with hlistened
  · exact hfailed _ _ _
  refine ⟨trivial, fun reported _ => ?_⟩
  show wp _ (if reported.1.value < 0 then _ else _) _ _
  split_ifs with hreported
  · exact hfailed _ _ _
  · refine ⟨⟨hopen, listened, reported.1, h₁, not_lt.mp hlistened, not_lt.mp hreported, .refl _⟩,
      fun hfail => ?_⟩
    cases hfail

theorem stop_wp {β : Type} {f : Server → SysM β} {Q : β → SysHistory → Prop}
    (hf : ∀ h', (∀ fd, fd ≠ self.socket.socket → NotClosed fd h h') →
      wp (.ofEnv Kernel) (f new) Q h') : wp (.ofEnv Kernel) (self.stop >>= f) Q h := by
  rw [stop_eq, bind_assoc]
  simp only [pure_bind]
  unfold Socket.close
  split_ifs with hopen
  · refine ⟨trivial, fun _ _ => hf _ fun fd hne => (Extends.refl h).cons ?_⟩
    exact fun heq => hne (Option.some.inj heq).symm
  · have heq : self.socket = Socket.new := congrArg Socket.mk (not_not.mp hopen)
    rw [heq]
    exact hf _ fun fd _ => .refl h

theorem moveAssign_wp (self other : Server) :
    wp (.ofEnv Kernel) (self.moveAssign other)
      (fun r h' => r = (other, new) ∧ ∀ fd, fd ≠ self.socket.socket → NotClosed fd h h') h :=
  stop_wp fun _ hnot => ⟨rfl, hnot⟩

end Server

namespace Objects

open Protocol

/-! ## Objects

An object of another class has nothing to keep.
-/

namespace Obj

variable {h : SysHistory} {o a : Obj}

/-- A server is in one of its two states. -/
def Settled (o : Obj) (h : SysHistory) : Prop := ∀ s, o = .server s → s.Settled h

theorem settled_server {s : Server} (hsettled : s.Settled h) : (Obj.server s).Settled h := by
  rintro _ ⟨⟩
  exact hsettled

theorem settled_part {kind : Kind} (hpart : o.part kind = some a) (hsettled : o.Settled h) :
    a.Settled h := by
  rintro s rfl
  cases kind <;> cases o <;> cases hpart
  exact hsettled s rfl

theorem part_server (hpart : o.part .server = some a) : ∃ s, o = .server s := by
  cases o <;> cases hpart
  exact ⟨_, rfl⟩

theorem settled_put (ha : a.Settled h) : (o.put a).Settled h := by
  intro s hs
  cases o <;> cases a <;> cases hs <;> exact ha s rfl

theorem settled_new (this : Loc) (kind : Kind) : (new this kind).Settled h := by
  intro s hs
  cases kind <;> cases hs
  exact Server.settled_new

theorem settled_moveConstruct (this : Loc) (ha : a.Settled h) :
    (a.moveConstruct this).1.Settled h ∧ (a.moveConstruct this).2.Settled h := by
  cases a with
  | server s => exact ⟨settled_server (ha s rfl), settled_server Server.settled_new⟩
  | _ => exact ⟨fun s hs => (by cases hs), fun s hs => (by cases hs)⟩

/-- The member functions: of a server, `start` and `stop`. -/
theorem settled_call {host : Platform} {method : Call} {p : SysM (Outcome × Obj)}
    (hp : a.call host method = some p) (ha : a.Settled h) :
    wp (.ofEnv Kernel) p (fun r h' => r.2.Settled h') h := by
  unfold call at hp
  split at hp
  case h_12 address port s =>
    obtain rfl := Option.some.inj hp
    refine wp_seq (Server.start_settled (ha s rfl) address port) ?_
    exact fun r h' hr => settled_server hr.1
  case h_13 s =>
    obtain rfl := Option.some.inj hp
    exact Server.stop_wp fun _ _ => settled_server Server.settled_new
  case h_9 data size t =>
    obtain rfl := Option.some.inj hp
    refine wp_seq (wp_true _ _) ?_
    rintro (_ | r) h' - s hs
    · cases hs
    · cases hs
  case h_14 => cases hp
  all_goals
    obtain rfl := Option.some.inj hp
    refine wp_seq (wp_true _ _) fun r h' _ s hs => ?_
    cases hs

/-- Move assignment: the server takes over the state of the other one. -/
theorem settled_moveAssign {self other : Obj} {p : SysM (Obj × Obj)}
    (hp : self.moveAssign other = some p) (hother : other.Settled h)
    (hne : other.sock.isOpen = true → other.sock.socket ≠ self.sock.socket) :
    wp (.ofEnv Kernel) p (fun r h' => r.1.Settled h' ∧ r.2.Settled h') h := by
  unfold moveAssign at hp
  split at hp
  case h_5 self other =>
    obtain rfl := Option.some.inj hp
    refine wp_seq (self.moveAssign_wp other) ?_
    rintro _ h' ⟨rfl, hnot⟩
    refine ⟨settled_server ((hother other rfl).extend fun hopen => ?_),
      settled_server Server.settled_new⟩
    exact hnot _ (hne hopen)
  case h_6 => cases hp
  all_goals
    obtain rfl := Option.some.inj hp
    refine wp_seq (wp_true _ _) fun r h' _ => ?_
    exact ⟨fun s hs => (by cases hs), fun s hs => (by cases hs)⟩

end Obj

/-! ## Operations -/

/-- The invariant of the servers of a program: each object is settled, and the descriptors are
owned, which keeps others from closing the socket of a server. -/
structure LifecycleInv (s : State) : Prop where
  owned : OwnershipInv s
  settled : ∀ i o, s.heap.obj? i = some o → o.Settled s.history

section

variable {host : Platform} {s : State}

theorem settled_of_transport? {heap : Heap} {i : Loc} {t : Transport} {o : Obj} {h : SysHistory}
    (ht : heap.transport? i = some t) (hobj : heap.obj? i = some o) : o.Settled h := by
  rintro s rfl
  rcases Heap.transport?_eq ht with heq | ⟨c, heq, -⟩
  · cases hobj.symm.trans heq
  · cases hobj.symm.trans heq

/-- What an operation writes is settled: the server it was called on, a server that was moved to,
and one that was moved from. -/
theorem run_settled (hinv : LifecycleInv s) {op : Op} {p : SysM (Outcome × Heap)}
    (hrun : op.run host s.heap = some p) :
    wp (.ofEnv Kernel) p (fun r h' => ∀ i ∈ op.places s.heap, ∀ o, r.2.obj? i = some o →
      o.Settled h') s.history := by
  cases Op.executes hrun with
  | @construct kind i hfree =>
      refine forall_place (Heap.lt_length_of_free hfree) fun o ho => ?_
      obtain rfl := Option.some.inj ho
      exact Obj.settled_new i kind
  | @transportOf i j o c hfree hobj hpart =>
      have hne : i ≠ j := Heap.ne_of_free hfree hobj
      rw [Transport.ofConnection_eq]
      refine forall_place₂ (Heap.lt_length_of_free hfree) hne hobj ?_ ?_
      · exact fun s hs => by cases hs
      · exact Obj.settled_put fun s hs => by cases hs
  | @moveConstruct kind i j o other hfree hobj hpart =>
      have hother := Obj.settled_part hpart (hinv.settled j o hobj)
      obtain ⟨hself, hrest⟩ := Obj.settled_moveConstruct i hother
      exact forall_place₂ (Heap.lt_length_of_free hfree) (Heap.ne_of_free hfree hobj) hobj hself
        (Obj.settled_put hrest)
  | moveAssignSelf =>
      rw [Op.places, if_pos rfl]
      exact fun k hk => absurd hk (Finset.notMem_empty k)
  | @moveAssign kind i j o o' self other p hne hobj hpart hobj' hpart' hp =>
      simp only [Op.places, if_neg hne]
      refine wp_seq (Obj.settled_moveAssign hp
        (Obj.settled_part hpart' (hinv.settled j o' hobj')) ?_) ?_
      · -- no descriptor has two holders
        rw [Obj.part_sock hpart, Obj.part_sock hpart']
        intro hopen hsame
        exact hne (holder_unique hinv.owned.accounted hobj' hobj hopen hsame).symm
      · rintro r h' ⟨hself, hother⟩
        show ∀ k ∈ ({i, j} : Finset Loc), ∀ o, ((s.heap.put i r.1).put j r.2).obj? k = some o →
          o.Settled h'
        rw [Heap.put_eq hobj]
        exact forall_place₂ (Heap.lt_length_of_obj? hobj) hne hobj' (Obj.settled_put hself)
          (Obj.settled_put hother)
  | @call kind i method o self p hobj hpart hp =>
      refine wp_seq (Obj.settled_call hp (Obj.settled_part hpart (hinv.settled i o hobj))) ?_
      exact fun r h' hr => forall_place_put hobj (Obj.settled_put hr)
  | socketAccept _ hobj _ =>
      refine wp_seq (wp_true _ _) fun r h' _ => forall_place_put hobj ?_
      exact Obj.settled_put fun s hs => by cases hs
  | connectionAccept hobj _ _ =>
      refine wp_seq (wp_true _ _) fun r h' _ => forall_place_put hobj ?_
      exact Obj.settled_put fun s hs => by cases hs
  | serverAccept _ hobj _ =>
      refine wp_seq (wp_true _ _) fun r h' _ => forall_place_put hobj ?_
      exact Obj.settled_put fun s hs => by cases hs
  | clientSend _ _ =>
      exact wp_mono (wp_true _ s.history) fun _ _ _ k hk => absurd hk (Finset.notMem_empty k)
  | clientReceive hself hreferenced =>
      simp only [Op.places, hself]
      refine wp_seq (wp_true _ _) fun r h' _ => ?_
      intro k hk o hobj
      obtain rfl := Finset.mem_singleton.mp hk
      cases r with
      | ok r => exact settled_of_transport? (Heap.transport?_put hreferenced r.2.2).1 hobj
      | error abort => exact settled_of_transport? hreferenced hobj
  | destruct hself =>
      refine wp_seq (wp_true _ _) fun r h' _ => ?_
      exact forall_place (Heap.lt_length_of_obj? hself) fun _ ho => by cases ho

theorem lifecycleInv_step {s' : State} {op : Op} {outcome : Outcome} (hinv : LifecycleInv s)
    (hstep : Step host s (op, outcome) s') : LifecycleInv s' := by
  obtain ⟨howned, hsame, hnot⟩ := step_ownership hinv.owned hstep
  refine ⟨howned, fun i o hobj => ?_⟩
  by_cases hmem : i ∈ op.places s.heap
  · cases hstep with
    | run hrun hruns =>
        exact Runs.wp (C := .ofEnv Kernel) hruns (run_settled hinv hrun) i hmem o hobj
  · -- the object is as it was, and its descriptor was not closed
    rw [hsame.obj?_eq i hmem] at hobj
    rintro server rfl
    refine (hinv.settled i _ hobj server rfl).extend fun hopen => hnot i hmem _ ?_
    have hone : (Obj.server server).held server.socket.socket = 1 := by
      rw [held_apply, if_pos ⟨rfl, (Socket.isOpen_iff _).mp hopen⟩]
    rw [hobj]
    show (Obj.server server).held server.socket.socket ≠ 0
    omega

theorem lifecycleInv_reachable (hs : (machine host).Reachable s) : LifecycleInv s := by
  refine Machine.invariant LifecycleInv ?_ ?_ hs
  · rintro s ⟨places, rfl⟩
    refine ⟨new_ownershipInv places, fun i o hobj => ?_⟩
    rw [Heap.obj?, List.getElem?_replicate] at hobj
    split_ifs at hobj <;> cases hobj
  · rintro s ⟨op, outcome⟩ s' hinv hstep
    exact lifecycleInv_step hinv hstep

theorem start_failed (hinv : LifecycleInv s) {s' : State} {i : Loc} {address : String}
    {port : UInt16} {error : Error}
    (hstep : Step host s (.call .server i (.start address port), .returned error) s')
    (hfail : error.ok = false) :
    s'.heap = s.heap ∧ ∀ fd, IsOpen s'.history fd ↔ IsOpen s.history fd := by
  have howned := (lifecycleInv_step hinv hstep).owned
  have hheap : s'.heap = s.heap := by
    cases hstep with
    | run hrun hruns =>
        cases Op.executes hrun with
        | call hobj hpart hp =>
            obtain ⟨server, rfl⟩ := Obj.part_server hpart
            obtain rfl := Option.some.inj hpart
            obtain rfl := Option.some.inj hp
            have hstart := Server.start_settled (hinv.settled i _ hobj server rfl) address port
            have hcall : wp (.ofEnv Kernel) (server.start address port >>= fun r =>
                pure (Outcome.returned r.1, Obj.server r.2))
                (fun r _ => ∀ error, r.1 = .returned error → error.ok = false →
                  r.2 = .server server) s.history := by
              refine wp_seq hstart fun r h' hr error heq hfail => ?_
              obtain rfl := Outcome.returned.inj heq
              rw [hr.2 hfail]
            refine Runs.wp (C := .ofEnv Kernel)
              (Q := fun r _ => ∀ error, r.1 = .returned error → error.ok = false → r.2 = s.heap)
              hruns ?_ error rfl hfail
            refine wp_seq hcall fun r h' hr error heq hfail => ?_
            show s.heap.put i r.2 = s.heap
            rw [hr error heq hfail, Heap.put_eq hobj]
            exact Heap.store_self hobj
  refine ⟨hheap, fun fd => ?_⟩
  -- the open descriptors are those of the objects, before and after
  have hlive : openDescriptors s'.history fd = openDescriptors s.history fd := by
    rw [howned.accounted, hinv.owned.accounted, hheap]
  unfold openDescriptors at hlive
  constructor
  · intro hopen
    rw [if_pos hopen] at hlive
    by_contra hnot
    rw [if_neg hnot] at hlive
    omega
  · intro hopen
    rw [if_pos hopen] at hlive
    by_contra hnot
    rw [if_neg hnot] at hlive
    omega

/-- `accept` writes to its argument only, which is no server. -/
theorem accept_server (hinv : LifecycleInv s) {s' : State} {i j : Loc} {outcome : Outcome}
    (hstep : Step host s (.serverAccept i j, outcome) s') : s'.heap.obj? i = s.heap.obj? i := by
  have hsame := (step_ownership hinv.owned hstep).2.1
  refine hsame.obj?_eq i fun hmem => ?_
  obtain rfl := Finset.mem_singleton.mp hmem
  cases hstep with
  | run hrun hruns =>
      cases Op.executes hrun with
      | serverAccept hself hobj hpart =>
          obtain ⟨o', hobj', hpart'⟩ := Heap.part?_eq hself
          obtain rfl := Option.some.inj (hobj'.symm.trans hobj)
          cases o' <;> cases hpart'
          cases hpart

end

/-- **The lifecycle of servers.** In every reachable state each server runs, with an open listening
socket and the port that the kernel reported for it, or does not run, has no socket and port 0. A
`start` that fails has no effect, on the objects and on the open descriptors. An `accept` leaves
the server as it is. -/
theorem server_lifecycle {host : Platform} {s : State} (hs : (machine host).Reachable s) :
    (∀ i self, s.heap.obj? i = some (.server self) →
      (self.running = true ∧ self.socket.isOpen = true ∧ IsOpen s.history self.socket.socket ∧
        Listening self.socket.socket self.port s.history) ∨
      (self.running = false ∧ self.socket.isOpen = false ∧ self.port = 0)) ∧
    (∀ i address port error s',
      Step host s (.call .server i (.start address port), .returned error) s' →
      error.ok = false → s'.heap = s.heap ∧ ∀ fd, IsOpen s'.history fd ↔ IsOpen s.history fd) ∧
    (∀ i j outcome s', Step host s (.serverAccept i j, outcome) s' →
      s'.heap.obj? i = s.heap.obj? i) := by
  have hinv := lifecycleInv_reachable hs
  refine ⟨fun i self hobj => ?_, fun i address port error s' hstep hfail =>
    start_failed hinv hstep hfail, fun i j outcome s' hstep => accept_server hinv hstep⟩
  have hsettled := hinv.settled i _ hobj self rfl
  cases hrunning : self.running with
  | true =>
      rw [Server.Settled, if_pos hrunning] at hsettled
      obtain ⟨hopen, hlistening⟩ := hsettled
      exact .inl ⟨rfl, hopen, isOpen_of_held hinv.owned.accounted hobj hopen, hlistening⟩
  | false =>
      obtain rfl := hsettled.eq_new hrunning
      exact .inr ⟨rfl, rfl, rfl⟩

/-- A server that was started on port 0 and moved to another object. -/
theorem server_lifecycle_moved : ∃ s self, (machine (.ample .Little 64)).Reachable s ∧
    s.heap.obj? 1 = some (.server self) ∧ self.port = 8080 ∧
    Listening self.socket.socket 8080 s.history := by
  have hrun : (Machine.execute (State.execute (.ample .Little 64) twoDescriptors)
      ⟨[none, none], []⟩ [.construct .server 0, .call .server 0 (.start "127.0.0.1" 0),
        .moveConstruct .server 1 0]).map (fun s => s.heap)
      = some [some (.server .new), some (.server ⟨⟨3⟩, true, 8080⟩)] := by
    decide +kernel
  obtain ⟨s, hexecute, hheap⟩ := Option.map_eq_some_iff.mp hrun
  have hs : (machine (.ample .Little 64)).Reachable s :=
    reachable_execute twoDescriptors_kernel ⟨_, _, ⟨2, rfl⟩, .nil _⟩ hexecute
  have hobj : s.heap.obj? 1 = some (.server ⟨⟨3⟩, true, 8080⟩) := by
    rw [hheap]
    rfl
  rcases (server_lifecycle hs).1 1 _ hobj with ⟨-, -, -, hlistening⟩ | ⟨hfalse, -, -⟩
  · exact ⟨s, _, hs, hobj, rfl, hlistening⟩
  · cases hfalse

end Objects

end PacketForge
