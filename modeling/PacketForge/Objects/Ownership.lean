import PacketForge.Objects.Conservation

set_option autoImplicit false

/-! # Descriptor ownership

After any sequence of operations on any number of objects, under any kernel, the open descriptors
are exactly those that the sockets hold, each held by one of them.

The invariant is an equation between resources: what is live after the history is what the heap
holds. One operation conserves what the objects it may change hold, and the rest of the heap is
its frame, so that no descriptor of another object is ever closed.

## How the proof goes

1. Every function on objects conserves what the object holds (`Conservation`, and the first
   section).
2. An operation writes to a few places of the heap (`Op.places`). `Accounts` says that it turns
   what is held there into what is held there afterwards, and leaves all other places as they are;
   `accounts_store`, `accounts_put` and their variants derive it from the first step, by the
   number of places that are written.
3. `run_accounts` goes through the operations. Each is one of the few shapes of step 2.
4. The heap is the sum of its places, so `live = held` after an operation follows from `live =
   held` before it and from the frame rule (`step_ownership`).
5. What the equation says of single descriptors is read off at the end: a multiplicity of one on
   the left side means one holder on the right side.

That an object which was moved from holds nothing is not assumed anywhere. It is what makes the
equation come out for the moves.
-/

namespace PacketForge.Objects

open Interaction Common Network Protocol

/-! ## Objects -/

/-- The member functions that transfer bytes. -/
def Call.transfers : Call → Bool
  | .send _ | .receive _ _ => true
  | _ => false

/-- The operations that transfer bytes. -/
def Op.transfers : Op → Bool
  | .call _ _ method => method.transfers
  | .clientSend _ _ | .clientReceive _ _ => true
  | _ => false

variable {transfers : Bool}


namespace Obj

def held (o : Obj) : Descriptors := o.sock.held

theorem part_sock {o a : Obj} {kind : Kind} (hpart : o.part kind = some a) : a.sock = o.sock := by
  cases kind <;> cases o <;> cases hpart <;> rfl

theorem part_held {o a : Obj} {kind : Kind} (hpart : o.part kind = some a) : a.held = o.held :=
  congrArg Socket.held (part_sock hpart)

theorem put_held (o a : Obj) : (o.put a).held = a.held := by
  cases o <;> cases a <;> rfl

theorem new_held (this : Loc) (kind : Kind) : (new this kind).held = 0 := by
  cases kind <;> rfl

theorem destruct_conserves (o : Obj) :
    (descriptors transfers).Conserves o.held o.destruct (fun _ => 0) := by
  cases o with
  | socket s => exact s.destruct_conserves
  | connection c => exact c.destruct_conserves
  | transport t => exact t.connection.destruct_conserves
  | client c => exact c.transport.connection.destruct_conserves
  | server s => exact s.destruct_conserves

theorem moveConstruct_held (this : Loc) (other : Obj) :
    (other.moveConstruct this).1.held + (other.moveConstruct this).2.held = other.held := by
  cases other with
  | socket other => exact other.moveConstruct_held
  | connection other => exact other.moveConstruct_held
  | transport other => exact other.moveConstruct_held
  | client other => exact other.moveConstruct_held this
  | server other => exact other.moveConstruct_held

theorem moveAssign_conserves {self other : Obj} {p : SysM (Obj × Obj)}
    (hp : self.moveAssign other = some p) :
    (descriptors transfers).Conserves (self.held + other.held) p
      (fun r => r.1.held + r.2.held) := by
  unfold moveAssign at hp
  split at hp
  · obtain rfl := Option.some.inj hp
    exact .bind (Socket.moveAssign_conserves _ _) fun _ => .ret rfl
  · obtain rfl := Option.some.inj hp
    exact .bind (Connection.moveAssign_conserves _ _) fun _ => .ret rfl
  · obtain rfl := Option.some.inj hp
    exact .bind (Transport.moveAssign_conserves _ _) fun _ => .ret rfl
  · obtain rfl := Option.some.inj hp
    exact .bind (Client.moveAssign_conserves _ _) fun _ => .ret rfl
  · obtain rfl := Option.some.inj hp
    exact .bind (Server.moveAssign_conserves _ _) fun _ => .ret rfl
  · cases hp

/-- The member functions, one case for each. -/
theorem call_conserves {host : Platform} {self : Obj} {method : Call} {p : SysM (Outcome × Obj)}
    (hp : self.call host method = some p) :
    (descriptors method.transfers).Conserves self.held p (fun r => r.2.held) := by
  unfold call at hp
  split at hp
  all_goals try (obtain rfl := Option.some.inj hp)
  · exact .bind (Socket.create_conserves _) fun _ => .ret rfl
  · exact .bind (Socket.bind_conserves _ _ _) fun _ => .ret rfl
  · exact .bind (Socket.listen_conserves _ _) fun _ => .ret rfl
  · next s =>
      show (descriptors false).Conserves s.held _ _
      rw [← add_zero s.held]
      exact Socket.close_conserves (.ret rfl)
  · exact .bind (Connection.open_conserves _) fun _ => .ret rfl
  · exact .bind (Connection.connect_conserves _ _ _) fun _ => .ret rfl
  · next c =>
      show (descriptors false).Conserves c.held _ _
      rw [← add_zero c.held]
      exact Connection.disconnect_conserves (.ret rfl)
  · next data t =>
      have hsend := (t.send_conserves data).frame t.held
      rw [zero_add] at hsend
      exact .bind hsend fun _ => .ret rfl
  · next data size t =>
      refine .bind (t.receive_conserves host data size) fun r => ?_
      match r with
      | .ok (error, data, t) => exact .ret rfl
      | .error .bad_alloc => exact .ret rfl
  · exact .bind (Client.connect_conserves _ _ _) fun _ => .ret rfl
  · exact .bind (Client.disconnect_conserves _) fun _ => .ret rfl
  · exact .bind (Server.start_conserves _ _ _) fun _ => .ret rfl
  · next s =>
      show (descriptors false).Conserves s.held _ _
      rw [← add_zero s.held]
      exact Server.stop_conserves (.ret rfl)
  · cases hp

end Obj

/-! ## Memory -/

/-- What is held at a place. -/
def heldAt : Option Obj → Descriptors
  | some o => o.held
  | none => 0

namespace Heap

/-- What the objects at some places hold together: the sum of their descriptors, with
multiplicity. -/
def heldOn (heap : Heap) (places : Finset Loc) : Descriptors :=
  ∑ i ∈ places, heldAt (heap.obj? i)

/-- What all objects hold. -/
def held (heap : Heap) : Descriptors := heap.heldOn (Finset.range heap.length)

/-- The same memory, except at some places: of the same size, and with the same objects everywhere
else. -/
structure SameOutside (places : Finset Loc) (heap heap' : Heap) : Prop where
  length_eq : heap'.length = heap.length
  obj?_eq : ∀ k ∉ places, heap'.obj? k = heap.obj? k

section

variable {heap : Heap} {i k : Loc} {o : Obj} {places : Finset Loc}

theorem lt_length_of_obj? (hobj : heap.obj? i = some o) : i < heap.length := by
  by_contra hge
  rw [obj?, List.getElem?_eq_none (not_lt.mp hge)] at hobj
  cases hobj

theorem lt_length_of_free (hfree : heap[i]? = some none) : i < heap.length :=
  (List.getElem?_eq_some_iff.mp hfree).1

theorem obj?_of_free (hfree : heap[i]? = some none) : heap.obj? i = none := by
  rw [obj?, hfree]
  rfl

theorem ne_of_free (hfree : heap[i]? = some none) (hobj : heap.obj? k = some o) : i ≠ k := by
  rintro rfl
  rw [obj?_of_free hfree] at hobj
  cases hobj

theorem obj?_store_self (cell : Option Obj) (hlt : i < heap.length) :
    (heap.store i cell).obj? i = cell := by
  rw [obj?, store, List.getElem?_set_self hlt]
  rfl

theorem obj?_store_ne (cell : Option Obj) (hne : i ≠ k) :
    (heap.store i cell).obj? k = heap.obj? k := by
  rw [obj?, store, List.getElem?_set_ne hne]
  rfl

theorem sameOutside_store (cell : Option Obj) : SameOutside {i} heap (heap.store i cell) :=
  ⟨List.length_set, fun _ hk => obj?_store_ne cell (Ne.symm (Finset.notMem_singleton.mp hk))⟩

theorem put_eq (hobj : heap.obj? i = some o) (a : Obj) :
    heap.put i a = heap.store i (some (o.put a)) := by
  rw [put, hobj]

theorem store_self (hobj : heap.obj? i = some o) : heap.store i (some o) = heap := by
  obtain ⟨hlt, hget⟩ := List.getElem?_eq_some_iff.mp (Option.join_eq_some_iff.mp hobj)
  rw [Heap.store, ← hget]
  exact List.set_getElem_self hlt

theorem SameOutside.refl (heap : Heap) : SameOutside places heap heap := ⟨rfl, fun _ _ => rfl⟩

theorem SameOutside.mono {places' : Finset Loc} {heap' : Heap} (hsub : places ⊆ places')
    (hsame : SameOutside places heap heap') : SameOutside places' heap heap' :=
  ⟨hsame.length_eq, fun k hk => hsame.obj?_eq k fun hmem => hk (hsub hmem)⟩

theorem SameOutside.trans {heap' heap'' : Heap} (hsame : SameOutside places heap heap')
    (hsame' : SameOutside places heap' heap'') : SameOutside places heap heap'' :=
  ⟨hsame'.length_eq.trans hsame.length_eq,
    fun k hk => (hsame'.obj?_eq k hk).trans (hsame.obj?_eq k hk)⟩

end

end Heap

section

variable {heap : Heap} {i j : Loc} {o : Obj} {P : Loc → Obj → Prop}

/-- What holds of the object that was written to one place. -/
theorem forall_place {cell : Option Obj} (hlt : i < heap.length) (hP : ∀ o, cell = some o → P i o) :
    ∀ k ∈ ({i} : Finset Loc), ∀ o, (heap.store i cell).obj? k = some o → P k o := by
  intro k hk o hobj
  obtain rfl := Finset.mem_singleton.mp hk
  rw [Heap.obj?_store_self _ hlt] at hobj
  exact hP o hobj

theorem forall_place_put {a : Obj} (hobj : heap.obj? i = some o) (hP : P i (o.put a)) :
    ∀ k ∈ ({i} : Finset Loc), ∀ o, (heap.put i a).obj? k = some o → P k o := by
  rw [Heap.put_eq hobj]
  refine forall_place (Heap.lt_length_of_obj? hobj) fun o' ho' => ?_
  obtain rfl := Option.some.inj ho'
  exact hP

/-- What holds of two objects of which the second was written to through a reference. -/
theorem forall_place₂ {self a : Obj} (hlt : i < heap.length) (hne : i ≠ j)
    (hobj : heap.obj? j = some o) (hself : P i self) (hother : P j (o.put a)) :
    ∀ k ∈ ({i, j} : Finset Loc), ∀ o, ((heap.store i (some self)).put j a).obj? k = some o →
      P k o := by
  intro k hk o' hobj'
  have hstored : (heap.store i (some self)).obj? j = some o := by
    rw [Heap.obj?_store_ne _ hne, hobj]
  rw [Heap.put_eq hstored] at hobj'
  rcases Finset.mem_insert.mp hk with rfl | hk
  · rw [Heap.obj?_store_ne _ hne.symm, Heap.obj?_store_self _ hlt] at hobj'
    obtain rfl := Option.some.inj hobj'
    exact hself
  · obtain rfl := Finset.mem_singleton.mp hk
    rw [Heap.obj?_store_self _ (Heap.lt_length_of_obj? hstored)] at hobj'
    obtain rfl := Option.some.inj hobj'
    exact hother

end

/-! ## Accounting for an operation

The general form is `accounts_of`; the others are what it comes to for one place, for two places,
and for none.
-/

/-- `p` turns the descriptors of the heap into those of the heap it returns. It changes only what
is at `places`, and what is held elsewhere is its frame. -/
def Accounts (transfers : Bool) (heap : Heap) (places : Finset Loc) (p : SysM (Outcome × Heap)) :
    Prop :=
  ∃ others : Descriptors,
    (∀ k ∉ places, ∀ fd, heldAt (heap.obj? k) fd ≤ others fd) ∧
    ∀ h, openDescriptors h = heap.held →
      wp ((descriptors transfers).contract others) p
        (fun r h' => openDescriptors h' = r.2.held ∧ Heap.SameOutside places heap r.2) h

section

variable {heap : Heap} {places : Finset Loc} {α : Type} {p : SysM α}
  {f : α → Outcome × Heap}

/-- A program that conserves what is held at `places`, and whose result is written there. -/
theorem accounts_of (mid : α → Descriptors) (hplaces : ∀ i ∈ places, i < heap.length)
    (hp : (descriptors transfers).Conserves (heap.heldOn places) p mid)
    (hsame : ∀ a, Heap.SameOutside places heap (f a).2)
    (hmid : ∀ a, (f a).2.heldOn places = mid a) :
    Accounts transfers heap places (p >>= fun a => pure (f a)) := by
  have hsub : places ⊆ Finset.range heap.length :=
    fun i hi => Finset.mem_range.mpr (hplaces i hi)
  refine ⟨heap.heldOn (Finset.range heap.length \ places), fun k hk fd => ?_, fun h hlive => ?_⟩
  · by_cases hlt : k < heap.length
    · have hmem : k ∈ Finset.range heap.length \ places :=
        Finset.mem_sdiff.mpr ⟨Finset.mem_range.mpr hlt, hk⟩
      have hle : heldAt (heap.obj? k) ≤ heap.heldOn (Finset.range heap.length \ places) :=
        Finset.single_le_sum (f := fun i => heldAt (heap.obj? i)) (fun _ _ => zero_le) hmem
      exact hle fd
    · have hnone : heap.obj? k = none := by
        rw [Heap.obj?, List.getElem?_eq_none (not_lt.mp hlt)]
        rfl
      rw [hnone]
      exact Nat.zero_le _
  · have hbefore : openDescriptors h
        = heap.heldOn places + heap.heldOn (Finset.range heap.length \ places) := by
      rw [hlive, add_comm]
      exact (Finset.sum_sdiff hsub).symm
    refine wp_seq (hp _ h hbefore) fun a h' hlive' => ⟨?_, hsame a⟩
    -- what the other objects hold is the frame
    have hothers : (f a).2.heldOn (Finset.range heap.length \ places)
        = heap.heldOn (Finset.range heap.length \ places) := by
      refine Finset.sum_congr rfl fun k hk => ?_
      rw [(hsame a).obj?_eq k (Finset.mem_sdiff.mp hk).2]
    calc openDescriptors h' = mid a + heap.heldOn (Finset.range heap.length \ places) := hlive'
      _ = (f a).2.heldOn (Finset.range heap.length \ places) + (f a).2.heldOn places := by
          rw [hmid, hothers, add_comm]
      _ = (f a).2.heldOn (Finset.range heap.length) := Finset.sum_sdiff hsub
      _ = (f a).2.held := by rw [Heap.held, (hsame a).length_eq]

/-- A program that leaves a new cell at one place. -/
theorem accounts_store {i : Loc} (outcome : α → Outcome) (cell : α → Option Obj)
    (hlt : i < heap.length)
    (hp : (descriptors transfers).Conserves (heldAt (heap.obj? i)) p (fun a => heldAt (cell a))) :
    Accounts transfers heap {i} (p >>= fun a => pure (outcome a, heap.store i (cell a))) := by
  refine accounts_of (fun a => heldAt (cell a))
    (fun k hk => Finset.mem_singleton.mp hk ▸ hlt) ?_ (fun a => Heap.sameOutside_store _)
    fun a => ?_
  · rw [Heap.heldOn, Finset.sum_singleton]
    exact hp
  · rw [Heap.heldOn, Finset.sum_singleton, Heap.obj?_store_self _ hlt]

/-- One object is written to through a reference. -/
theorem accounts_put {i : Loc} {o a : Obj} {kind : Kind} (outcome : α → Outcome)
    (part : α → Obj) (hobj : heap.obj? i = some o) (hpart : o.part kind = some a)
    (hp : (descriptors transfers).Conserves a.held p (fun a => (part a).held)) :
    Accounts transfers heap {i} (p >>= fun a => pure (outcome a, heap.put i (part a))) := by
  simp only [Heap.put_eq hobj]
  refine accounts_store outcome (fun a => some (o.put (part a))) (Heap.lt_length_of_obj? hobj) ?_
  rw [hobj]
  simp only [heldAt, Obj.put_held]
  rw [← Obj.part_held hpart]
  exact hp

/-- A program that leaves new cells at two different places. -/
theorem accounts_store₂ {i j : Loc} (outcome : α → Outcome) (cell cell' : α → Option Obj)
    (hi : i < heap.length) (hj : j < heap.length) (hne : i ≠ j)
    (hp : (descriptors transfers).Conserves (heldAt (heap.obj? i) + heldAt (heap.obj? j)) p
      (fun a => heldAt (cell a) + heldAt (cell' a))) :
    Accounts transfers heap {i, j}
      (p >>= fun a => pure (outcome a, (heap.store i (cell a)).store j (cell' a))) := by
  have hlen : ∀ a, j < (heap.store i (cell a)).length := by
    intro a
    rw [Heap.store, List.length_set]
    exact hj
  refine accounts_of (fun a => heldAt (cell a) + heldAt (cell' a)) ?_ ?_ ?_ ?_
  · intro k hk
    rcases Finset.mem_insert.mp hk with rfl | hk
    · exact hi
    · exact Finset.mem_singleton.mp hk ▸ hj
  · rw [Heap.heldOn, Finset.sum_pair hne]
    exact hp
  · intro a
    refine ((Heap.sameOutside_store _).mono ?_).trans ((Heap.sameOutside_store _).mono ?_)
    · exact Finset.singleton_subset_iff.mpr (Finset.mem_insert_self i {j})
    · exact Finset.subset_insert i {j}
  · intro a
    rw [Heap.heldOn, Finset.sum_pair hne, Heap.obj?_store_self _ (hlen a),
      Heap.obj?_store_ne _ hne.symm, Heap.obj?_store_self _ hi]

theorem accounts_same (outcome : α → Outcome)
    (hp : (descriptors transfers).Conserves 0 p (fun _ => 0)) :
    Accounts transfers heap ∅ (p >>= fun a => pure (outcome a, heap)) :=
  accounts_of (fun _ => 0) nofun hp (fun _ => Heap.SameOutside.refl heap) fun _ => rfl

end

/-! ## The operations -/

/-- The places that an operation may write to. -/
def Op.places (heap : Heap) : Op → Finset Loc
  | .construct _ i => {i}
  | .transportOf i j => {i, j}
  | .moveConstruct _ i j => {i, j}
  | .moveAssign _ i j => if i = j then ∅ else {i, j}
  | .call _ i _ => {i}
  | .socketAccept _ j => {j}
  | .connectionAccept i _ => {i}
  | .serverAccept _ j => {j}
  | .clientSend _ _ => ∅
  | .clientReceive i _ =>
    match heap.obj? i with
    | some (.client c) => {c.packetIo}
    | _ => ∅
  | .destruct i => {i}

section

variable {host : Platform} {heap : Heap}

/-- Construction at a free place out of a part of another object. -/
theorem accounts_construct {i j : Loc} {kind : Kind} {o other : Obj} {α : Type} {p : SysM α}
    (outcome : α → Outcome) (self rest : α → Obj) (hfree : heap[i]? = some none)
    (hobj : heap.obj? j = some o) (hpart : o.part kind = some other)
    (hp : (descriptors transfers).Conserves other.held p (fun a => (self a).held + (rest a).held)) :
    Accounts transfers heap {i, j}
      (p >>= fun a => pure (outcome a, (heap.store i (some (self a))).put j (rest a))) := by
  have hnone := Heap.obj?_of_free hfree
  have hne : i ≠ j := Heap.ne_of_free hfree hobj
  have hstored : ∀ a, (heap.store i (some (self a))).obj? j = some o := by
    intro a
    rw [Heap.obj?_store_ne _ hne, hobj]
  simp only [Heap.put_eq (hstored _)]
  refine accounts_store₂ outcome (fun a => some (self a)) (fun a => some (o.put (rest a)))
    (Heap.lt_length_of_free hfree) (Heap.lt_length_of_obj? hobj) hne ?_
  rw [hnone, hobj]
  simp only [heldAt, Obj.put_held, zero_add]
  rw [← Obj.part_held hpart]
  exact hp

theorem Heap.transport?_eq {i : Loc} {t : Transport} (ht : heap.transport? i = some t) :
    heap.obj? i = some (.transport t) ∨ ∃ c : Client, heap.obj? i = some (.client c) ∧
      c.transport = t := by
  unfold transport? at ht
  split at ht
  · next t' hobj =>
      obtain rfl := Option.some.inj ht
      exact .inl hobj
  · next c hobj => exact .inr ⟨c, hobj, Option.some.inj ht⟩
  · cases ht

theorem Heap.transport?_held {i : Loc} {t : Transport} (ht : heap.transport? i = some t) :
    heldAt (heap.obj? i) = t.held := by
  rcases Heap.transport?_eq ht with hobj | ⟨c, hobj, rfl⟩
  · rw [hobj]
    rfl
  · rw [hobj]
    rfl

/-- Writing to a transport changes the transport of that place. -/
theorem Heap.transport?_put {i : Loc} {t : Transport} (ht : heap.transport? i = some t)
    (t' : Transport) :
    (heap.putTransport i t').transport? i = some t' ∧
      Heap.SameOutside {i} heap (heap.putTransport i t') := by
  rcases Heap.transport?_eq ht with hobj | ⟨c, hobj, rfl⟩
  · simp only [putTransport, hobj]
    refine ⟨?_, Heap.sameOutside_store _⟩
    rw [transport?, Heap.obj?_store_self _ (Heap.lt_length_of_obj? hobj)]
  · simp only [putTransport, hobj]
    refine ⟨?_, Heap.sameOutside_store _⟩
    rw [transport?, Heap.obj?_store_self _ (Heap.lt_length_of_obj? hobj)]

theorem accounts_received {i : Loc} (self : Client) {referenced : Transport} (packet : Packet)
    (hreferenced : heap.transport? i = some referenced) :
    Accounts true heap {i}
      (self.receive host referenced packet >>= fun r => pure (heap.received i r)) := by
  have hlt : i < heap.length := by
    rcases Heap.transport?_eq hreferenced with hobj | ⟨c, hobj, -⟩
    · exact Heap.lt_length_of_obj? hobj
    · exact Heap.lt_length_of_obj? hobj
  refine accounts_of (fun r => (referenced.after (·.2.2) r).held)
    (fun k hk => Finset.mem_singleton.mp hk ▸ hlt) ?_ (fun r => ?_) fun r => ?_
  · rw [Heap.heldOn, Finset.sum_singleton, Heap.transport?_held hreferenced]
    exact self.receive_conserves host referenced packet
  · cases r with
    | ok r => exact (Heap.transport?_put hreferenced r.2.2).2
    | error abort => exact Heap.SameOutside.refl heap
  · rw [Heap.heldOn, Finset.sum_singleton]
    cases r with
    | ok r => exact Heap.transport?_held (Heap.transport?_put hreferenced r.2.2).1
    | error abort => exact Heap.transport?_held hreferenced

/-- **Every operation accounts for the heap.** Whatever its program does, the descriptors of the
heap become those of the heap it leaves, and only the places of the operation change. -/
theorem run_accounts {op : Op} {p : SysM (Outcome × Heap)} (hrun : op.run host heap = some p) :
    Accounts op.transfers heap (op.places heap) p := by
  cases Op.executes hrun with
  | @construct kind i hfree =>
      refine accounts_store (p := pure ()) (fun _ => .done) (fun _ => some (.new i kind))
        (Heap.lt_length_of_free hfree) ?_
      rw [Heap.obj?_of_free hfree]
      exact .ret (Obj.new_held i kind).symm
  | transportOf hfree hobj hpart =>
      exact accounts_construct (fun _ => .done) (fun r : Transport × Connection => .transport r.1)
        (fun r => .connection r.2) hfree hobj hpart (Transport.ofConnection_conserves _)
  | @moveConstruct kind i j o other hfree hobj hpart =>
      exact accounts_construct (p := pure ()) (fun _ => .done)
        (fun _ => (other.moveConstruct i).1) (fun _ => (other.moveConstruct i).2)
        hfree hobj hpart (.ret (Obj.moveConstruct_held i other).symm)
  | moveAssignSelf =>
      rw [Op.places, if_pos rfl]
      exact accounts_same (p := pure ()) (fun _ => .done) (.ret rfl)
  | @moveAssign kind i j o o' self other p hne hobj hpart hobj' hpart' hp =>
      rw [Op.places, if_neg hne]
      have hput : ∀ a b, (heap.put i a).put j b
          = (heap.store i (some (o.put a))).store j (some (o'.put b)) := by
        intro a b
        have hstored : (heap.store i (some (o.put a))).obj? j = some o' := by
          rw [Heap.obj?_store_ne _ hne, hobj']
        rw [Heap.put_eq hobj, Heap.put_eq hstored]
      simp only [hput]
      refine accounts_store₂ (fun _ => .done) (fun r : Obj × Obj => some (o.put r.1))
        (fun r => some (o'.put r.2)) (Heap.lt_length_of_obj? hobj)
        (Heap.lt_length_of_obj? hobj') hne ?_
      rw [hobj, hobj']
      simp only [heldAt, Obj.put_held]
      rw [← Obj.part_held hpart, ← Obj.part_held hpart']
      exact Obj.moveAssign_conserves hp
  | call hobj hpart hp => exact accounts_put Prod.fst Prod.snd hobj hpart (Obj.call_conserves hp)
  | @socketAccept i j self client o hself hobj hpart =>
      exact accounts_put (fun r : Error × Socket => .returned r.1) (fun r => .socket r.2) hobj hpart
        (self.accept_conserves client)
  | @connectionAccept i j self listeningSocket o hobj hpart hlistening =>
      exact accounts_put (fun r : Error × Connection => .returned r.1) (fun r => .connection r.2)
        hobj hpart (self.accept_conserves listeningSocket)
  | @serverAccept i j self connection o hself hobj hpart =>
      exact accounts_put (fun r : Error × Connection => .returned r.1) (fun r => .connection r.2)
        hobj hpart (self.accept_conserves connection)
  | @clientSend i packet self referenced _ _ =>
      exact accounts_same .returned (self.send_conserves host referenced packet)
  | @clientReceive i packet self referenced hself hreferenced =>
      simp only [Op.places, hself]
      exact accounts_received self packet hreferenced
  | @destruct i self hself =>
      refine accounts_store (fun _ => .done) (fun _ => none) (Heap.lt_length_of_obj? hself) ?_
      rw [hself]
      exact self.destruct_conserves

end

/-! ## Histories -/

/-- `::close` is only called on open descriptors. -/
def ClosesOpen (h : SysHistory) : Prop :=
  ∀ fd r h', (⟨.close fd, r⟩ :: h' : SysHistory) <:+ h → IsOpen h' fd

/-- Every descriptor was obtained as often as it was closed, and once more if it is open. -/
def Balanced (h : SysHistory) : Prop :=
  ∀ fd, (h.filterMap obtained).count fd = (h.filterMap released).count fd + openDescriptors h fd

section

variable {h : SysHistory} {op : Sys} {r : op.Res}

theorem closesOpen_cons (hcloses : ClosesOpen h) (hmay : ∀ fd, op = .close fd → IsOpen h fd) :
    ClosesOpen (⟨op, r⟩ :: h) := by
  intro fd r' h' hsuffix
  rcases List.suffix_cons_iff.mp hsuffix with heq | hsuffix
  · obtain ⟨hevent, rfl⟩ := List.cons.inj heq
    exact hmay fd (congrArg Event.op hevent).symm
  · exact hcloses fd r' h' hsuffix

/-- A descriptor that the kernel returns is new. -/
theorem obtained_new {fd : Int} (hr : Kernel h op r) (hobtained : obtained ⟨op, r⟩ = some fd) :
    ¬ IsOpen h fd ∧ released ⟨op, r⟩ = none := by
  have hnew : ∀ v : Int, (v = -1 ∨ (0 ≤ v ∧ ¬ IsOpen h v)) →
      (if v < 0 then none else some v) = some fd → ¬ IsOpen h fd := by
    intro v hv hsome
    split_ifs at hsome with hneg
    obtain rfl := Option.some.inj hsome
    rcases hv with rfl | ⟨-, hv⟩
    · exact absurd (by decide) hneg
    · exact hv
  cases op with
  | socket => exact ⟨hnew _ hr hobtained, rfl⟩
  | accept _ => exact ⟨hnew _ hr hobtained, rfl⟩
  | _ => cases hobtained

theorem balanced_cons (hbalanced : Balanced h) (hr : Kernel h op r)
    (hmay : ∀ fd, op = .close fd → IsOpen h fd) : Balanced (⟨op, r⟩ :: h) := by
  intro k
  have hk := hbalanced k
  rcases hobtained : obtained ⟨op, r⟩ with _ | fd
  · -- a call that obtains nothing is a `::close` or changes nothing
    rcases hreleased : released ⟨op, r⟩ with _ | fd
    · rw [List.filterMap_cons_none hobtained, List.filterMap_cons_none hreleased,
        live_other hobtained hreleased, hk]
    · obtain rfl : op = .close fd := by
        cases op <;> cases hreleased
        rfl
      rw [live_close (hmay fd rfl) r, Pi.add_apply] at hk
      rw [List.filterMap_cons_none hobtained, List.filterMap_cons_some hreleased, List.count_cons,
        hk, Pi.single_apply]
      by_cases heq : fd = k
      · simp [heq]
        omega
      · simp [heq, Ne.symm heq]
  · obtain ⟨hnew, hreleased⟩ := obtained_new hr hobtained
    rw [List.filterMap_cons_some hobtained, List.filterMap_cons_none hreleased, List.count_cons,
      live_obtained hobtained hnew hreleased, Pi.add_apply, hk, Pi.single_apply]
    by_cases heq : fd = k
    · simp [heq]
      omega
    · simp [heq, Ne.symm heq]

end

/-! ## Every reachable state -/

/-- What holds in every reachable state: what is live is what the heap holds, and the history has
no `::close` of a descriptor that was not open and no descriptor that was lost. -/
structure OwnershipInv (s : State) : Prop where
  accounted : openDescriptors s.history = s.heap.held
  closes : ClosesOpen s.history
  balanced : Balanced s.history

theorem new_ownershipInv (places : Nat) : OwnershipInv ⟨List.replicate places none, []⟩ := by
  constructor
  · have hnone : ∀ i, Heap.obj? (List.replicate places none) i = none := by
      intro i
      rw [Heap.obj?, List.getElem?_replicate]
      split_ifs <;> rfl
    have hzero : ∀ i ∈ Finset.range (List.replicate places (none : Option Obj)).length,
        heldAt (Heap.obj? (List.replicate places none) i) = 0 := by
      intro i _
      rw [hnone]
      rfl
    exact (Finset.sum_eq_zero hzero).symm
  · intro fd r h' hsuffix
    cases List.suffix_nil.mp hsuffix
  · exact fun _ => rfl

/-- An operation keeps the invariant. What it may not write to stays as it is, and no descriptor
that is held there is closed. -/
theorem step_ownership {host : Platform} {s s' : State} {op : Op} {outcome : Outcome}
    (hinv : OwnershipInv s) (hstep : Step host s (op, outcome) s') :
    OwnershipInv s' ∧ Heap.SameOutside (op.places s.heap) s.heap s'.heap ∧
      ∀ k ∉ op.places s.heap, ∀ fd, heldAt (s.heap.obj? k) fd ≠ 0 →
        NotClosed fd s.history s'.history := by
  cases hstep with
  | @run _ p _ heap history hrun hruns =>
      obtain ⟨others, hframe, hwp⟩ := run_accounts hrun
      -- the contract lets `p` close only what is open and not held by the others
      have hall := wp_invariant (D := (descriptors op.transfers).contract others)
        (fun h => ClosesOpen h ∧ Balanced h ∧
          ∀ fd, others fd ≠ 0 → NotClosed fd s.history h)
        ⟨hinv.closes, hinv.balanced, fun _ _ => .refl _⟩ (hwp s.history hinv.accounted)
        (fun _ _ _ hmay => hmay) (fun h op r hJ hmay hr => ⟨hr, ?_⟩)
      · obtain ⟨⟨hlive, hsame⟩, hcloses, hbalanced, hextends⟩ :=
          Runs.wp (C := (descriptors op.transfers).contract others) hruns hall
        refine ⟨⟨hlive, hcloses, hbalanced⟩, hsame, fun k hk fd hheld => ?_⟩
        have hle := hframe k hk fd
        exact hextends fd (by omega)
      · obtain ⟨hcloses, hbalanced, hextends⟩ := hJ
        have hopen : ∀ fd, op = .close fd → IsOpen h fd := fun fd hop => (hmay.1 fd hop).1
        refine ⟨closesOpen_cons hcloses hopen, balanced_cons hbalanced hr hopen,
          fun fd hfd => Extends.cons (hextends fd hfd) fun hreleased => ?_⟩
        obtain rfl : op = .close fd := by
          cases op <;> cases hreleased
          rfl
        exact hfd (hmay.1 fd rfl).2

theorem ownershipInv_reachable {host : Platform} {s : State}
    (hs : (machine host).Reachable s) : OwnershipInv s := by
  refine Machine.invariant OwnershipInv ?_ ?_ hs
  · rintro s ⟨places, rfl⟩
    exact new_ownershipInv places
  · exact fun s label s' hinv hstep => (step_ownership hinv hstep).1

/-! ## What the equation says

Multiplicities are numbers, and an open descriptor has the multiplicity one.
-/

section

variable {heap : Heap} {h : SysHistory}

theorem held_apply (o : Obj) (fd : Int) :
    o.held fd = if o.sock.socket = fd ∧ fd ≠ -1 then 1 else 0 := by
  show handle o.sock.socket fd = _
  by_cases hnone : o.sock.socket = -1
  · rw [hnone, handle_neg_one]
    by_cases hfd : (-1 : Int) = fd
    · simp [hfd.symm]
    · simp [hfd]
  · rw [handle_of_ne hnone, Pi.single_apply]
    by_cases hfd : fd = o.sock.socket
    · simp [hfd, hnone]
    · simp [hfd, Ne.symm hfd]

theorem heap_held_apply (heap : Heap) (fd : Int) :
    heap.held fd = ∑ i ∈ Finset.range heap.length, heldAt (heap.obj? i) fd := by
  rw [Heap.held, Heap.heldOn, Finset.sum_apply]

theorem holder_unique (hlive : openDescriptors h = heap.held) {i j : Loc} {o o' : Obj}
    (hi : heap.obj? i = some o) (hj : heap.obj? j = some o')
    (hopen : o.sock.isOpen = true) (heq : o.sock.socket = o'.sock.socket) : i = j := by
  by_contra hne
  have hfd := o.sock.isOpen_iff.mp hopen
  have hsub : ({i, j} : Finset Loc) ⊆ Finset.range heap.length := by
    intro k hk
    rcases Finset.mem_insert.mp hk with rfl | hk
    · exact Finset.mem_range.mpr (Heap.lt_length_of_obj? hi)
    · obtain rfl := Finset.mem_singleton.mp hk
      exact Finset.mem_range.mpr (Heap.lt_length_of_obj? hj)
  -- both would count the descriptor, which is open once
  have hle := Finset.sum_le_sum_of_subset (f := fun i => heldAt (heap.obj? i) o.sock.socket) hsub
  rw [Finset.sum_pair hne, hi, hj, ← heap_held_apply, ← hlive] at hle
  simp only [heldAt, held_apply, heq, true_and] at hle
  rw [heq] at hfd
  have hone : openDescriptors h o'.sock.socket ≤ 1 := by
    show (if IsOpen h o'.sock.socket then 1 else 0) ≤ 1
    split_ifs <;> omega
  rw [if_pos hfd] at hle
  omega

/-- An object that has a descriptor has an open one. -/
theorem isOpen_of_held (hlive : openDescriptors h = heap.held) {i : Loc} {o : Obj}
    (hi : heap.obj? i = some o) (hopen : o.sock.isOpen = true) : IsOpen h o.sock.socket := by
  by_contra hclosed
  have hzero : openDescriptors h o.sock.socket = 0 := if_neg hclosed
  rw [hlive, heap_held_apply, Finset.sum_eq_zero_iff] at hzero
  have hi' := hzero i (Finset.mem_range.mpr (Heap.lt_length_of_obj? hi))
  rw [hi] at hi'
  have hone : o.held o.sock.socket = 1 := by
    rw [held_apply, if_pos ⟨rfl, o.sock.isOpen_iff.mp hopen⟩]
  exact absurd (hone.symm.trans hi') one_ne_zero

/-- An open descriptor is in some object. -/
theorem exists_holder (hlive : openDescriptors h = heap.held) {fd : Int} (hopen : IsOpen h fd) :
    ∃ i o, heap.obj? i = some o ∧ o.sock.isOpen = true ∧ o.sock.socket = fd := by
  have hone : openDescriptors h fd = 1 := if_pos hopen
  rw [hlive, heap_held_apply] at hone
  obtain ⟨i, -, hi⟩ := Finset.exists_ne_zero_of_sum_ne_zero (hone ▸ one_ne_zero)
  cases hobj : heap.obj? i with
  | none =>
      rw [hobj] at hi
      exact absurd rfl hi
  | some o =>
      rw [hobj] at hi
      have hheld : o.held fd ≠ 0 := hi
      rw [held_apply] at hheld
      obtain ⟨hfd, hne⟩ := Decidable.byContradiction fun hnot => hheld (if_neg hnot)
      exact ⟨i, o, hobj, o.sock.isOpen_iff.mpr (hfd ▸ hne), hfd⟩

end

/-- **Descriptor ownership.** In every reachable state: each open descriptor is held by the socket
of exactly one object; a socket that reports `isOpen()` holds an open descriptor; `::close` was
only called on descriptors that were open, and each descriptor was closed at most as often as
it was obtained; and without objects there is no open descriptor. -/
theorem descriptor_ownership {host : Platform} {s : State} (hs : (machine host).Reachable s) :
    (∀ fd, IsOpen s.history fd → ∃! i, ∃ o, s.heap.obj? i = some o ∧ o.sock.socket = fd) ∧
    (∀ i o, s.heap.obj? i = some o → o.sock.isOpen = true → IsOpen s.history o.sock.socket) ∧
    (∀ fd r h, (⟨.close fd, r⟩ :: h : SysHistory) <:+ s.history → IsOpen h fd) ∧
    (∀ fd, (s.history.filterMap released).count fd ≤ (s.history.filterMap obtained).count fd) ∧
    ((∀ i, s.heap.obj? i = none) → ∀ fd, ¬ IsOpen s.history fd) := by
  obtain ⟨hlive, hcloses, hbalanced⟩ := ownershipInv_reachable hs
  refine ⟨fun fd hopen => ?_, fun i o hi hopen => isOpen_of_held hlive hi hopen, hcloses,
    fun fd => hbalanced fd ▸ Nat.le_add_right _ _, fun hnone fd hopen => ?_⟩
  · obtain ⟨i, o, hi, hsock, rfl⟩ := exists_holder hlive hopen
    refine ⟨i, ⟨o, hi, rfl⟩, ?_⟩
    rintro j ⟨o', hj, heq⟩
    exact (holder_unique hlive hi hj hsock heq.symm).symm
  · obtain ⟨i, o, hi, -, -⟩ := exists_holder hlive hopen
    rw [hnone] at hi
    cases hi

/-- A listening socket that accepts into itself: the old descriptor is closed and the new one
held; after the destructor none is open. -/
theorem descriptor_ownership_accept :
    ∃ s, (machine (.ample .Little 64)).Reachable s ∧ (∀ i, s.heap.obj? i = none) ∧
      (s.history.filterMap obtained).count 3 = 1 ∧ ∀ fd, ¬ IsOpen s.history fd := by
  have hrun : (Machine.execute (State.execute (.ample .Little 64) twoDescriptors)
      ⟨[none], []⟩ [.construct .socket 0, .call .socket 0 .create, .call .socket 0 (.listen 5),
        .socketAccept 0 0, .destruct 0]).map
      (fun s => (s.heap, (s.history.filterMap obtained).count 3)) = some ([none], 1) := by
    decide +kernel
  obtain ⟨s, hexecute, hresult⟩ := Option.map_eq_some_iff.mp hrun
  obtain ⟨hheap, hcount⟩ := Prod.mk.inj hresult
  have hs : (machine (.ample .Little 64)).Reachable s :=
    reachable_execute twoDescriptors_kernel ⟨_, _, ⟨1, rfl⟩, .nil _⟩ hexecute
  have hnone : ∀ i, s.heap.obj? i = none := by
    intro i
    rw [hheap]
    cases i <;> rfl
  exact ⟨s, hs, hnone, hcount, (descriptor_ownership hs).2.2.2.2 hnone⟩

end PacketForge.Objects
