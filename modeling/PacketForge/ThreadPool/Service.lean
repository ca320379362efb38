import PacketForge.ThreadPool.AcceptLoop

set_option autoImplicit false

/-! # The order of service and the open sockets

Two results about all clients of the server together, whatever `accept` returns. The workers take
the clients in the order of `accept`, and nobody is overtaken: what was taken, what is queued and
what `main` is about to enqueue are one increasing list (`Process.line`), and every step leaves it
alone, extends it at its end or leaves out the client that is turned away.

The sockets that are open are those of the clients that somebody holds (`Process.clients`): no
socket is lost, and there are never more than the queue, the workers and `main` can hold. A
failure of `accept` takes a place like a client, and has no socket.

## How the proofs go

Both invariants are proved for `Moves`, so that the steps of the pool are not looked at again, and
then carried over to the loop with its failures.

* `InLine`: the line is increasing in the number of the connection, and below `accepted`. A move
  gives a sublist of the line, or the line with the next number at its end (`Moves.line`); both
  keep it increasing, and no index is computed with.
* `SocketsInv`: the open descriptors are those of the holders, one each, and what was accepted is
  held or closed. To its proof a move is one of four things (`Hands`): the holders stay the same,
  one is added with a socket, one is added without, or one is released. `main`, the queue and the
  frames are one list of clients up to order, so handing a client on changes nothing.
* `ServiceInv` puts the two together with what they need of each other, and is what the other
  modules use of a reachable state.
-/

namespace PacketForge.ThreadPool

/-- `accept` has returned a descriptor. -/
def Client.connected (k : Client) : Bool := 0 ≤ k.clientSocket

/-! ## The line

A client enters the line when `accept` returns, and is in it for good once a worker has taken it.
-/

/-- The client that a worker has taken. -/
def Event.took? : Event → Option Client
  | .took _ k => some k
  | .call _ _ _ _ => none

/-- The client for which `main` calls `enqueue` next. -/
def Main.undecided? : Main → Option Client
  | .accepted k => some k
  | _ => none

namespace Process

/-- The clients that were taken, in the order of the log. -/
def took (s : Process) : List Client := s.log.filterMap Event.took?

/-- The clients that were taken, those that are queued and the one that may come next. -/
def line (s : Process) : List Client := s.took ++ (s.pool.tasks ++ s.main.undecided?.toList)

end Process

section

variable {s s' : Process}

theorem took_call (thread : Thread) (k : Client) (call : Call) :
    (s.call thread k call).took = s.took := by
  unfold Process.took Process.call
  rw [List.filterMap_append]
  exact List.append_nil _

theorem line_congr (htook : s'.took = s.took) (htasks : s'.pool.tasks = s.pool.tasks)
    (hmain : s'.main.undecided? = s.main.undecided?) : s'.line = s.line := by
  rw [Process.line, htook, htasks, hmain, Process.line]

/-- What a move does to the line. -/
theorem Moves.line (hs : Moves s s') : (s'.accepted = s.accepted ∧ s'.line.Sublist s.line) ∨
    ∃ d, s'.accepted = s.accepted + 1 ∧ s'.line = s.line ++ [⟨d, s.accepted⟩] := by
  have hsame : s'.accepted = s.accepted → s'.line = s.line →
      s'.accepted = s.accepted ∧ s'.line.Sublist s.line := by
    intro haccepted hline
    exact ⟨haccepted, hline ▸ List.Sublist.refl _⟩
  cases hs with
  | @accept d hmain _ =>
      refine .inr ⟨d, rfl, ?_⟩
      simp only [Process.line, Process.took, hmain, Main.undecided?, Option.toList_none,
        Option.toList_some, List.append_nil, List.append_assoc]
  | enqueued hmain htasks _ =>
      refine .inl (hsame rfl ?_)
      simp only [Process.line, Process.took, hmain, htasks, Main.undecided?, Option.toList_none,
        Option.toList_some, List.append_nil]
  | refuse hmain htasks _ =>
      -- the client is left out
      refine .inl ⟨rfl, ?_⟩
      simp only [Process.line, Process.took, hmain, htasks, Main.undecided?, Option.toList_none,
        Option.toList_some, List.append_nil]
      exact (List.sublist_append_left _ _).append_left _
  | pool htasks _ => exact .inl (hsame rfl (line_congr rfl htasks rfl))
  | notified hmain htasks _ =>
      exact .inl (hsame rfl (line_congr rfl htasks (by rw [hmain]; rfl)))
  | reply hmain =>
      exact .inl (hsame rfl (line_congr (took_call _ _ _) rfl (by rw [hmain]; rfl)))
  | closeRejected hmain =>
      exact .inl (hsame rfl (line_congr (took_call _ _ _) rfl (by rw [hmain]; rfl)))
  | take htasks _ _ =>
      -- the head of the queue is the next one in the log
      refine .inl (hsame rfl ?_)
      simp only [Process.line, Process.took, htasks, List.filterMap_append, List.append_assoc]
      rfl
  | number _ => exact .inl (hsame rfl rfl)
  | serve _ _ => exact .inl (hsame rfl (line_congr (took_call _ _ _) rfl rfl))
  | closeServed _ => exact .inl (hsame rfl (line_congr (took_call _ _ _) rfl rfl))

/-- The line is in the order of `accept`: the connections in it are increasing, and were accepted.
Failures of `accept` may stand anywhere. -/
structure InLine (s : Process) : Prop where
  increasing : ((s.line.filter Client.connected).map Client.connection).Pairwise (· < ·)
  below : ∀ k ∈ s.line.filter Client.connected, k.connection < s.accepted

theorem InLine.sublist (h : InLine s) (haccepted : s'.accepted = s.accepted)
    (hsub : (s'.line.filter Client.connected).Sublist (s.line.filter Client.connected)) :
    InLine s' := by
  refine ⟨h.increasing.sublist (hsub.map _), fun k hk => ?_⟩
  rw [haccepted]
  exact h.below k (hsub.subset hk)

theorem InLine.moves (h : InLine s) (hs : Moves s s') : InLine s' := by
  rcases hs.line with ⟨haccepted, hsub⟩ | ⟨d, haccepted, hline⟩
  · exact h.sublist haccepted (hsub.filter _)
  · have hnew : ∀ k ∈ [(⟨d, s.accepted⟩ : Client)].filter Client.connected,
        k.connection = s.accepted := by
      intro k hk
      rw [List.mem_singleton.mp (List.mem_of_mem_filter hk)]
    constructor
    · rw [hline, List.filter_append, List.map_append, List.pairwise_append]
      refine ⟨h.increasing, ?_, ?_⟩
      · exact (List.pairwise_singleton _ _).sublist (List.filter_sublist.map _)
      · intro c hc c' hc'
        obtain ⟨k, hk, rfl⟩ := List.mem_map.mp hc
        obtain ⟨k', hk', rfl⟩ := List.mem_map.mp hc'
        rw [hnew k' hk']
        exact h.below k hk
    · intro k hk
      rw [hline, List.filter_append] at hk
      rw [haccepted]
      rcases List.mem_append.mp hk with hold | hlast
      · exact Nat.lt_succ_of_lt (h.below k hold)
      · rw [hnew k hlast]
        exact Nat.lt_succ_self _

end

/-! ## The open sockets

Everything here is up to order: which worker serves a client does not matter for who has a socket.
-/

/-- The clients that somebody holds: `main`, the queue and the workers, in this order. -/
def Process.clients (s : Process) : List Client :=
  s.main.client?.toList ++ (s.pool.tasks ++ s.frames.filterMap (Option.map Frame.client))

/-- Those of them that have a socket. -/
def Process.holders (s : Process) : List Client := s.clients.filter Client.connected

def Event.isClose : Event → Bool
  | .call _ .close k _ => k.connected
  | _ => false

/-- The number of sockets that were closed. -/
def Process.closed (s : Process) : Nat := s.log.countP Event.isClose

section

variable {s s' : Process}

/-- The clients of the frames, when one frame changes. -/
theorem frames_perm {frames : List (Option Frame)} {w : Nat} {old : Option Frame}
    (hget : frames[w]? = some old) (new : Option Frame) :
    ((frames.set w new).filterMap (Option.map Frame.client)
      ++ (old.map Frame.client).toList).Perm
    (frames.filterMap (Option.map Frame.client) ++ (new.map Frame.client).toList) :=
  (replaces_set new hget).filterMap _

theorem frames_keep {w : Nat} {k : Client} {phase : Phase}
    (hget : s.frames[w]? = some (some ⟨k, phase⟩)) (phase' : Phase) :
    ((s.frames.set w (some ⟨k, phase'⟩)).filterMap (Option.map Frame.client)).Perm
      (s.frames.filterMap (Option.map Frame.client)) :=
  (List.perm_append_right_iff _).mp (frames_perm hget (some ⟨k, phase'⟩))

theorem closed_call {call : Call} (hcall : call ≠ .close) (thread : Thread) (k : Client) :
    (s.call thread k call).closed = s.closed := by
  show (s.log ++ [_]).countP Event.isClose = _
  rw [List.countP_append, List.countP_singleton]
  cases call with
  | close => exact absurd rfl hcall
  | _ => rfl

theorem closed_close (thread : Thread) (k : Client) :
    (s.call thread k .close).closed = s.closed + if k.connected then 1 else 0 := by
  show (s.log ++ [_]).countP Event.isClose = _
  rw [List.countP_append, List.countP_singleton]
  rfl

theorem sockets_call {call : Call} (hcall : call ≠ .close) (thread : Thread) (k : Client) :
    (s.call thread k call).sockets = s.sockets := by
  cases call with
  | close => exact absurd rfl hcall
  | _ => rfl

/-- A step gives a client to somebody, takes one away from somebody, or hands one on. -/
inductive Hands (s s' : Process) : Prop
  | keeps : s'.clients.Perm s.clients → s'.sockets = s.sockets → s'.accepted = s.accepted →
      s'.closed = s.closed → Hands s s'
  | gains {d : Int} : s'.clients.Perm (⟨d, s.accepted⟩ :: s.clients) → s.sockets d = none →
      s'.sockets = Function.update s.sockets d (some s.accepted) → s'.accepted = s.accepted + 1 →
      s'.closed = s.closed → Hands s s'
  | fails {k : Client} : s'.clients.Perm (k :: s.clients) → k.connected = false →
      s'.sockets = s.sockets → s'.accepted = s.accepted → s'.closed = s.closed → Hands s s'
  | releases {k : Client} : s.clients.Perm (k :: s'.clients) →
      s'.sockets = Function.update s.sockets k.clientSocket none → s'.accepted = s.accepted →
      s'.closed = s.closed + (if k.connected then 1 else 0) → Hands s s'

theorem Moves.hands (hs : Moves s s') : Hands s s' := by
  cases hs with
  | @accept d hmain hfree =>
      refine .gains (d := d) ?_ hfree rfl rfl rfl
      simp only [Process.clients, hmain, Main.client?, Option.toList_none, Option.toList_some,
        List.nil_append, List.singleton_append]
      exact List.Perm.refl _
  | @enqueued k pool hmain htasks _ =>
      -- from `main` to the end of the queue
      refine .keeps ?_ rfl rfl rfl
      simp only [Process.clients, hmain, htasks, Main.client?, Option.toList_none,
        Option.toList_some, List.nil_append, List.append_assoc]
      calc
        List.Perm (s.pool.tasks ++ ([k] ++ s.frames.filterMap (Option.map Frame.client)))
            ((s.pool.tasks ++ [k]) ++ s.frames.filterMap (Option.map Frame.client)) := by
              rw [List.append_assoc]
        List.Perm _ (([k] ++ s.pool.tasks) ++ s.frames.filterMap (Option.map Frame.client)) :=
              List.perm_append_comm.append_right _
        List.Perm _ ([k] ++ (s.pool.tasks ++ s.frames.filterMap (Option.map Frame.client))) := by
              rw [List.append_assoc]
  | refuse hmain htasks _ =>
      refine .keeps (List.Perm.of_eq ?_) rfl rfl rfl
      simp only [Process.clients, hmain, htasks, Main.client?]
  | pool htasks _ =>
      refine .keeps (List.Perm.of_eq ?_) rfl rfl rfl
      simp only [Process.clients, htasks]
  | notified hmain htasks _ =>
      refine .keeps (List.Perm.of_eq ?_) rfl rfl rfl
      simp only [Process.clients, hmain, htasks, Main.client?]
  | @reply k hmain =>
      have hcall : Call.send busy ≠ .close := nofun
      refine .keeps (List.Perm.of_eq ?_) (sockets_call hcall .main k) rfl
        (closed_call hcall .main k)
      simp only [Process.clients, hmain, Main.client?]
      rfl
  | @closeRejected k hmain =>
      refine .releases (k := k) (List.Perm.of_eq ?_) rfl rfl (closed_close .main k)
      simp only [Process.clients, hmain, Main.client?, Option.toList_none, Option.toList_some,
        List.nil_append, List.singleton_append]
      rfl
  | @take w k pool htasks _ hget =>
      -- from the head of the queue to the worker
      refine .keeps ?_ rfl rfl ?_
      · have hframes := frames_perm hget (some ⟨k, .receiving⟩)
        simp only [Option.map_none, Option.toList_none, List.append_nil, Option.map_some,
          Option.toList_some] at hframes
        simp only [Process.clients, htasks]
        refine List.Perm.append_left _ ?_
        calc
          List.Perm _ (pool.tasks ++ (s.frames.filterMap (Option.map Frame.client) ++ [k])) :=
            hframes.append_left _
          List.Perm _ ((pool.tasks ++ s.frames.filterMap (Option.map Frame.client)) ++ [k]) := by
            rw [List.append_assoc]
          List.Perm _ ([k] ++ (pool.tasks ++ s.frames.filterMap (Option.map Frame.client))) :=
            List.perm_append_comm
      · show (s.log ++ [_]).countP Event.isClose = _
        rw [List.countP_append, List.countP_singleton]
        rfl
  | number hget =>
      refine .keeps ?_ rfl rfl rfl
      exact ((frames_keep hget _).append_left _).append_left _
  | @serve w k phase phase' call hget hcall =>
      refine .keeps ?_ (sockets_call hcall (.worker w) k) rfl
        (closed_call hcall (.worker w) k)
      exact ((frames_keep hget _).append_left _).append_left _
  | @closeServed w k phase hget =>
      refine .releases (k := k) ?_ rfl rfl (closed_close (.worker w) k)
      have hframes := frames_perm hget none
      simp only [Option.map_none, Option.toList_none, List.append_nil, Option.map_some,
        Option.toList_some] at hframes
      show (s.main.client?.toList ++ (s.pool.tasks ++ _)).Perm
        ([k] ++ (s.main.client?.toList ++ (s.pool.tasks ++ _)))
      calc
        List.Perm _ (s.main.client?.toList ++ (s.pool.tasks
            ++ ((s.frames.set w none).filterMap (Option.map Frame.client) ++ [k]))) :=
          (hframes.symm.append_left _).append_left _
        List.Perm _ ((s.main.client?.toList ++ (s.pool.tasks
            ++ (s.frames.set w none).filterMap (Option.map Frame.client))) ++ [k]) := by
          rw [List.append_assoc, List.append_assoc]
        List.Perm _ ([k] ++ _) := List.perm_append_comm

/-- The open sockets are those of the holders, one each, and every connection is open or closed. -/
structure SocketsInv (s : Process) : Prop where
  opened : ∀ d c, s.sockets d = some c ↔ ⟨d, c⟩ ∈ s.holders
  distinct : (s.holders.map Client.clientSocket).Nodup
  conserved : s.accepted = s.holders.length + s.closed

theorem SocketsInv.keeps (h : SocketsInv s) (hperm : s'.holders.Perm s.holders)
    (hsockets : s'.sockets = s.sockets) (haccepted : s'.accepted = s.accepted)
    (hclosed : s'.closed = s.closed) : SocketsInv s' := by
  refine ⟨fun d c => ?_, ?_, ?_⟩
  · rw [hsockets, hperm.mem_iff]
    exact h.opened d c
  · exact (hperm.map _).nodup_iff.mpr h.distinct
  · rw [haccepted, hclosed, hperm.length_eq]
    exact h.conserved

theorem SocketsInv.gains {d : Int} (h : SocketsInv s) (hd : 0 ≤ d)
    (hperm : s'.clients.Perm (⟨d, s.accepted⟩ :: s.clients)) (hfree : s.sockets d = none)
    (hsockets : s'.sockets = Function.update s.sockets d (some s.accepted))
    (haccepted : s'.accepted = s.accepted + 1) (hclosed : s'.closed = s.closed) :
    SocketsInv s' := by
  have hperm : s'.holders.Perm (⟨d, s.accepted⟩ :: s.holders) := by
    have hnew : (⟨d, s.accepted⟩ : Client).connected = true := decide_eq_true hd
    have hfilter := hperm.filter Client.connected
    rwa [List.filter_cons_of_pos hnew] at hfilter
  -- nobody holds a client with a descriptor that is free
  have hnew : ∀ k ∈ s.holders, k.clientSocket ≠ d := by
    rintro k hk rfl
    cases hfree.symm.trans ((h.opened _ _).mpr hk)
  refine ⟨fun d' c => ?_, ?_, ?_⟩
  · rw [hsockets, hperm.mem_iff, List.mem_cons]
    rcases eq_or_ne d' d with rfl | hne
    · rw [Function.update_self]
      constructor
      · intro hc
        rw [← Option.some.inj hc]
        exact .inl rfl
      · rintro (heq | hold)
        · cases heq
          rfl
        · exact absurd rfl (hnew _ hold)
    · rw [Function.update_of_ne hne, h.opened]
      exact ⟨.inr, fun hmem => hmem.resolve_left fun heq => hne (by cases heq; rfl)⟩
  · refine (hperm.map _).nodup_iff.mpr (List.nodup_cons.mpr ⟨fun hmem => ?_, h.distinct⟩)
    obtain ⟨k, hk, heq⟩ := List.mem_map.mp hmem
    exact hnew k hk heq
  · rw [haccepted, hclosed, hperm.length_eq, List.length_cons, h.conserved]
    omega

theorem SocketsInv.releases {k : Client} (h : SocketsInv s) (hk : k.connected = true)
    (hperm : s.clients.Perm (k :: s'.clients))
    (hsockets : s'.sockets = Function.update s.sockets k.clientSocket none)
    (haccepted : s'.accepted = s.accepted) (hclosed : s'.closed = s.closed + 1) :
    SocketsInv s' := by
  have hperm : s.holders.Perm (k :: s'.holders) := by
    have hfilter := hperm.filter Client.connected
    rwa [List.filter_cons_of_pos hk] at hfilter
  have hdistinct := (hperm.map Client.clientSocket).nodup_iff.mp h.distinct
  rw [List.map_cons, List.nodup_cons] at hdistinct
  refine ⟨fun d c => ?_, hdistinct.2, ?_⟩
  · rw [hsockets]
    rcases eq_or_ne d k.clientSocket with rfl | hne
    · rw [Function.update_self]
      refine iff_of_false nofun fun hmem => hdistinct.1 ?_
      exact List.mem_map.mpr ⟨_, hmem, rfl⟩
    · rw [Function.update_of_ne hne, h.opened, hperm.mem_iff, List.mem_cons]
      exact ⟨fun hmem => hmem.resolve_left fun heq => hne (by rw [← heq]), .inr⟩
  · have hlength := hperm.length_eq
    rw [List.length_cons] at hlength
    rw [haccepted, hclosed, h.conserved]
    omega

/-- **Every step keeps the sockets with their holders.** There is one case for each of the four
things that a step can do to them. -/
theorem SocketsInv.hands (h : SocketsInv s) (hnone : NoNegative s) (hnone' : NoNegative s')
    (hs : Hands s s') : SocketsInv s' := by
  cases hs with
  | keeps hperm hsockets haccepted hclosed =>
      exact h.keeps (hperm.filter _) hsockets haccepted hclosed
  | @gains d hperm hfree hsockets haccepted hclosed =>
      refine h.gains (d := d) ?_ hperm hfree hsockets haccepted hclosed
      by_contra hneg
      have hd := hnone' d (not_le.mp hneg)
      rw [hsockets, Function.update_self] at hd
      cases hd
  | @fails k hperm hk hsockets haccepted hclosed =>
      refine h.keeps ?_ hsockets haccepted hclosed
      have hfilter := hperm.filter Client.connected
      rwa [List.filter_cons_of_neg (by rw [hk]; exact Bool.false_ne_true)] at hfilter
  | @releases k hperm hsockets haccepted hclosed =>
      cases hk : k.connected with
      | true =>
          rw [hk, if_pos rfl] at hclosed
          exact h.releases hk hperm hsockets haccepted hclosed
      | false =>
          -- `close` is called with `-1`
          rw [hk, if_neg Bool.false_ne_true] at hclosed
          have hneg : k.clientSocket < 0 := by simpa [Client.connected] using hk
          refine h.keeps ?_ ?_ haccepted hclosed
          · have hfilter := hperm.filter Client.connected
            rw [List.filter_cons_of_neg (by rw [hk]; exact Bool.false_ne_true)] at hfilter
            exact hfilter.symm
          · rw [hsockets, ← hnone _ hneg, Function.update_eq_self]

/-- The holders are `main`, the queue and the workers. -/
theorem holders_length_le (s : Process) :
    s.holders.length ≤ 1 + s.pool.tasks.length + s.frames.length := by
  have hmain : s.main.client?.toList.length ≤ 1 := by cases s.main.client? <;> simp
  have hframes := List.length_filterMap_le (Option.map Frame.client) s.frames
  have hfilter := List.length_filter_le Client.connected s.clients
  simp only [Process.clients, List.length_append] at hfilter
  show (s.clients.filter Client.connected).length ≤ _
  simp only [Process.clients]
  omega

/-- As many descriptors are open as there are holders. -/
theorem SocketsInv.ncard (h : SocketsInv s) :
    {d | s.sockets d ≠ none}.ncard = s.holders.length := by
  have hset : {d | s.sockets d ≠ none} = ↑(s.holders.map Client.clientSocket).toFinset := by
    ext d
    rw [List.coe_toFinset]
    constructor
    · intro hd
      obtain ⟨c, hc⟩ := Option.ne_none_iff_exists'.mp hd
      exact List.mem_map.mpr ⟨_, (h.opened d c).mp hc, rfl⟩
    · intro hd
      obtain ⟨k, hk, rfl⟩ := List.mem_map.mp hd
      exact Option.ne_none_iff_exists'.mpr ⟨_, (h.opened _ _).mpr hk⟩
  rw [hset, Set.ncard_coe_finset, List.toFinset_card_of_nodup h.distinct, List.length_map]

end

/-! ## Runs

The failures of `accept` come in here: they are steps of the loop that are no moves of the server,
and have to be looked at once, for both invariants.
-/

theorem Moves.frames_length {s s' : Process} (hs : Moves s s') :
    s'.frames.length = s.frames.length := by
  cases hs with
  | take _ _ _ => exact List.length_set
  | number _ => exact List.length_set
  | serve _ _ => exact List.length_set
  | closeServed _ => exact List.length_set
  | _ => rfl

/-- What holds of the clients in every state of a run: the line, the sockets, and what these need
of the frames and of the table of descriptors. -/
structure ServiceInv (threadCount : Nat) (s : Process) : Prop where
  linked : Linked s
  noNegative : NoNegative s
  frames : s.frames.length = threadCount
  line : InLine s
  sockets : SocketsInv s

section

variable {threadCount : Nat} {s s' : Process}

theorem new_serviceInv (threadCount : Nat) : ServiceInv threadCount (.new threadCount) := by
  have hholders : (Process.new threadCount).holders = [] := by
    have hframes : (List.replicate threadCount (none : Option Frame)).filterMap
        (Option.map Frame.client) = [] := by
      rw [List.filterMap_eq_nil_iff]
      intro f hf
      rw [(List.mem_replicate.mp hf).2]
      rfl
    show ([] ++ ([] ++ (List.replicate threadCount none).filterMap _)).filter _ = []
    rw [hframes]
    rfl
  refine ⟨(new_custody threadCount).linked, fun _ _ => rfl, List.length_replicate, ?_, ?_⟩
  · exact ⟨.nil, fun k hk => by cases hk⟩
  · refine ⟨fun d c => ?_, ?_, ?_⟩
    · rw [hholders]
      exact iff_of_false nofun nofun
    · rw [hholders]
      exact .nil
    · rw [hholders]
      rfl

/-- **Every step keeps it**, whatever `accept` returns. A step of the loop is a failure of
`accept` or a move. -/
theorem ServiceInv.step {a : LoopAct} (h : ServiceInv threadCount s)
    (hs : loopStep s a = some s') : ServiceInv threadCount s' := by
  have hnone := h.noNegative.loop hs
  rcases loopStep_cases hs with ⟨-, hmain, rfl⟩ | ⟨b, -, hb⟩
  · -- `accept` fails
    have hfails : (⟨-1, s.accepted⟩ : Client).connected = false := rfl
    refine ⟨⟨h.linked.length, h.linked.running⟩, hnone, h.frames, ?_, ?_⟩
    · refine h.line.sublist rfl ?_
      simp only [Process.line, Process.took, hmain, Main.undecided?, Option.toList_some,
        Option.toList_none, List.filter_append, List.append_nil,
        List.filter_cons_of_neg (p := Client.connected) (by rw [hfails]; exact Bool.false_ne_true),
        List.filter_nil]
      exact List.Sublist.refl _
    · refine h.sockets.hands h.noNegative hnone
        (.fails (k := ⟨-1, s.accepted⟩) ?_ hfails rfl rfl rfl)
      refine List.Perm.of_eq ?_
      simp only [Process.clients, hmain, Main.client?, Option.toList_none, Option.toList_some,
        List.nil_append, List.singleton_append]
  · obtain ⟨hmove, hlinked⟩ := moves_of_step h.linked hb
    exact ⟨hlinked, hnone, hmove.frames_length.trans h.frames, h.line.moves hmove,
      h.sockets.hands h.noNegative hnone hmove.hands⟩

theorem reachable_serviceInv (hs : (loopMachine threadCount).Reachable s) :
    ServiceInv threadCount s := by
  refine Machine.invariant (ServiceInv threadCount) ?_ ?_ hs
  · rintro s rfl
    exact new_serviceInv threadCount
  · exact fun s a s' h hstep => h.step hstep

end

/-! ## The results -/

/-- **First come, first served.** Whatever `accept` returns and however the threads interleave:
the clients that the workers have taken, in the order of the log, and after them the queued ones
are in the order of `accept`, so that nobody is taken twice and nobody is overtaken; and `main`
turns a client away only when 1000 others are queued. -/
theorem served_in_order {threadCount : Nat} {s : Process}
    (hs : (loopMachine threadCount).Reachable s) :
    (((s.took ++ s.pool.tasks).filter Client.connected).map Client.connection).Pairwise (· < ·) ∧
    (∀ k ∈ (s.took ++ s.pool.tasks).filter Client.connected, k.connection < s.accepted) ∧
    ∀ a s' k, loopStep s a = some s' → s'.main = .rejected k →
      s.main = .rejected k ∨ s.pool.tasks.length = 1000 := by
  have h := reachable_serviceInv hs
  have hsub : ((s.took ++ s.pool.tasks).filter Client.connected).Sublist
      (s.line.filter Client.connected) := by
    refine List.Sublist.filter _ ?_
    rw [Process.line, ← List.append_assoc]
    exact List.sublist_append_left _ _
  refine ⟨h.line.increasing.sublist (hsub.map _), fun k hk => h.line.below k (hsub.subset hk), ?_⟩
  intro a s' k hstep hrejected
  rcases rejected_cases hstep hrejected with hbefore | ⟨-, -, hfull⟩
  · exact .inl hbefore
  · exact .inr (le_antisymm (reachable_bounded (pool_reachable hs)) hfull)

/-- Two workers and three clients, the first one of which has left; `accept` failed once. -/
def busyDay : List LoopAct :=
  [.server (.accept 5), .server .enqueue, .server (.notify none), .acceptFails, .server .enqueue,
    .server (.notify none), .server (.workerSection 1), .server (.recv 1 0),
    .server (.closeServed 1),
    .server (.accept 5), .server .enqueue, .server (.notify none), .server (.accept 6),
    .server .enqueue, .server (.notify none), .server (.workerSection 0), .server (.finish 1),
    .server (.workerSection 1)]

theorem served_in_order_busyDay : ∃ s, (loopMachine 2).Reachable s ∧
    s.took = [⟨5, 0⟩, ⟨-1, 1⟩, ⟨5, 1⟩] ∧ s.pool.tasks = [⟨6, 2⟩] ∧
    (((s.took ++ s.pool.tasks).filter Client.connected).map
        Client.connection).Pairwise (· < ·) := by
  have hrun : (Machine.execute loopStep (.new 2) busyDay).map
      (fun s => (s.took, s.pool.tasks)) = some ([⟨5, 0⟩, ⟨-1, 1⟩, ⟨5, 1⟩], [⟨6, 2⟩]) := by
    decide +kernel
  obtain ⟨s, hexecute, hresult⟩ := Option.map_eq_some_iff.mp hrun
  rw [Prod.mk.injEq] at hresult
  have hs : (loopMachine 2).Reachable s := ⟨_, _, rfl, Machine.path_of_execute hexecute⟩
  exact ⟨s, hs, hresult.1, hresult.2, (served_in_order hs).1⟩

/-- **No socket is lost.** Whatever `accept` returns and however the threads interleave: a
descriptor is open exactly if somebody holds the client that it was accepted for, a queued task, a
worker or `main`; no two of these have the same one; every connection is open or was closed once;
and there are never more than 1001 open besides those that the workers serve. -/
theorem open_sockets_held {threadCount : Nat} {s : Process}
    (hs : (loopMachine threadCount).Reachable s) :
    (∀ d c, s.sockets d = some c ↔ 0 ≤ d ∧ ⟨d, c⟩ ∈ s.clients) ∧
    (s.holders.map Client.clientSocket).Nodup ∧
    s.accepted = {d | s.sockets d ≠ none}.ncard + s.closed ∧
    {d | s.sockets d ≠ none}.ncard ≤ 1001 + threadCount := by
  have h := reachable_serviceInv hs
  have hbounded := reachable_bounded (pool_reachable hs)
  have hlength := holders_length_le s
  refine ⟨fun d c => ?_, h.sockets.distinct, ?_, ?_⟩
  · rw [h.sockets.opened, Process.holders, List.mem_filter, and_comm]
    exact and_congr_left fun _ => decide_eq_true_iff
  · rw [h.sockets.ncard]
    exact h.sockets.conserved
  · rw [h.sockets.ncard]
    rw [h.frames] at hlength
    unfold maxQueueSize at hbounded
    omega

theorem open_sockets_held_busyDay : ∃ s, (loopMachine 2).Reachable s ∧ s.accepted = 3 ∧
    s.closed = 1 ∧ {d | s.sockets d ≠ none}.ncard = 2 ∧ s.sockets 5 = some 1 := by
  have hrun : (Machine.execute loopStep (.new 2) busyDay).map
      (fun s => (s.accepted, s.closed, s.clients)) = some (3, 1, [⟨6, 2⟩, ⟨-1, 1⟩, ⟨5, 1⟩]) := by
    decide +kernel
  obtain ⟨s, hexecute, hresult⟩ := Option.map_eq_some_iff.mp hrun
  simp only [Prod.mk.injEq] at hresult
  obtain ⟨haccepted, hclosed, hclients⟩ := hresult
  have hs : (loopMachine 2).Reachable s := ⟨_, _, rfl, Machine.path_of_execute hexecute⟩
  obtain ⟨hopened, -, hconserved, -⟩ := open_sockets_held hs
  refine ⟨s, hs, haccepted, hclosed, by omega, (hopened 5 1).mpr ⟨by decide, ?_⟩⟩
  rw [hclients]
  decide

end PacketForge.ThreadPool
