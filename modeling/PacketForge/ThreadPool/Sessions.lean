import PacketForge.ThreadPool.Service

set_option autoImplicit false

/-! # What a connection sees

The server as one of its clients sees it: a session that is served by one worker, or turned away
by `main`, and that knows nothing of the other ones (`Session.Step`). `sessions_refine` says that
every connection of every run goes through such a session, however `main`, the workers and the
other connections interleave, and whatever `accept` returns.

The situations of the clients that the server holds (`Process.situations`) are the link: a step of
the server changes one of them and adds to the log what that session does (`Advances`).

A response carries a number that its connection has not seen before. This needs the counter not to
wrap (`Unwrapped`); with `2^31` requests it does.

## How the proofs go

* The session is the abstract level: seven kinds of steps, a state with the worker and the last
  number it has given. The server is the concrete one, and the abstraction is a projection: the
  events of the connection (`Process.session`) are its run, and the place of its client (`Stage`)
  is its state, up to the number (`Stands`).
* `advances_of_step` is the simulation for one step. It shows for the one client that acts that
  its session can do the same; that the events belong to no other connection (`Event.Of`) is what
  leaves the other sessions alone.
* `SessionsInv` carries this along a run: every connection below `accepted` is either active, and
  stands where the server has its client, or gone, and its session is closed.
* `requests_answered` is a property of sessions only. It is proved for one session by induction on
  its run (`session_said`), and holds of the server because each of its connections is one.
-/

namespace PacketForge.ThreadPool

/-! ## The session of one connection

This is what the module is for, and it mentions neither the pool nor the queue. `waiting` is the
time between `accept` and the first event of the connection.
-/

/-- A worker that serves the connection has given it the number `last` last. -/
inductive Session where
  | waiting
  | receiving (w : Nat) (last : Int32)
  | answering (w : Nat) (last : Int32)
  | leaving (w : Nat)
  | refused
  | closed
  deriving DecidableEq, Repr

/-- What may happen to the connection `c`, and nothing else: a worker takes it and then answers
its requests one after the other, with increasing numbers, until there is nothing to receive; or
it is refused. -/
inductive Session.Step (c : Nat) : Session → Event → Session → Prop
  | take {w : Nat} {k : Client} : k.connection = c →
      Step c .waiting (.took w k) (.receiving w 0)
  | request {w : Nat} {last : Int32} {bytes : Int} {k : Client} : 0 < bytes →
      Step c (.receiving w last) (.call (.worker w) (.recv bytes) k (some c)) (.answering w last)
  | respond {w : Nat} {last requestId : Int32} {k : Client} : last < requestId →
      Step c (.answering w last) (.call (.worker w) (.send (response requestId)) k (some c))
        (.receiving w requestId)
  | leave {w : Nat} {last : Int32} {bytes : Int} {k : Client} : bytes ≤ 0 →
      Step c (.receiving w last) (.call (.worker w) (.recv bytes) k (some c)) (.leaving w)
  | close {w : Nat} {k : Client} :
      Step c (.leaving w) (.call (.worker w) .close k (some c)) .closed
  | refuse {k : Client} : Step c .waiting (.call .main (.send busy) k (some c)) .refused
  | closeRefused {k : Client} : Step c .refused (.call .main .close k (some c)) .closed

/-- The session of the connection `c`, from `accept` on. -/
def sessionMachine (c : Nat) : Machine Session Event := ⟨fun x => x = .waiting, Session.Step c⟩

/-! ## Situations

All clients that the server has at a moment, each with its place. The list is up to order, like
the holders of `Service`.
-/

/-- Where the server has a client: before the decision of `enqueue` or in the queue (`waiting`),
turned away and not closed yet, or with a worker. -/
inductive Stage where
  | waiting
  | refused
  | serving (w : Nat) (phase : Phase)
  deriving DecidableEq, Repr

/-- The client that `main` has. -/
def Main.situation? : Main → Option (Client × Stage)
  | .accepted k => some (k, .waiting)
  | .rejected k => some (k, .waiting)
  | .replied k => some (k, .refused)
  | _ => none

def Frame.situation (w : Nat) (f : Frame) : Client × Stage := (f.client, .serving w f.phase)

/-- The clients that the workers have. -/
def situations (frames : List (Option Frame)) : List (Client × Stage) :=
  (frames.mapIdx fun w f => f.map (Frame.situation w)).filterMap id

/-- All clients that the server has. -/
def Process.situations (s : Process) : List (Client × Stage) :=
  s.main.situation?.toList ++ (s.pool.tasks.map (·, .waiting) ++ ThreadPool.situations s.frames)

/-- The session is where the server has its client; `none` if nobody has it any more. The numbers
of the session are bounded by the counter, so that the next one is a new one. -/
def Stands (requestCounter : Int32) : Option Stage → Session → Prop
  | none, x => x = .closed
  | some .waiting, x => x = .waiting ∧ 0 ≤ requestCounter
  | some .refused, x => x = .refused
  | some (.serving w .receiving), x => ∃ last ≤ requestCounter, x = .receiving w last
  | some (.serving w .numbering), x => ∃ last ≤ requestCounter, x = .answering w last
  | some (.serving w (.responding requestId)), x =>
    ∃ last < requestId, requestId ≤ requestCounter ∧ x = .answering w last
  | some (.serving w .closing), x => x = .leaving w

/-- A session that stands somewhere still does when the counter has grown. -/
theorem Stands.mono {n n' : Int32} {q : Option Stage} {x : Session} (hle : n ≤ n')
    (h : Stands n q x) : Stands n' q x := by
  match q, h with
  | none, h => exact h
  | some .waiting, ⟨hx, hn⟩ => exact ⟨hx, Int32.le_trans hn hle⟩
  | some .refused, h => exact h
  | some (.serving w .receiving), ⟨last, hlast, hx⟩ => exact ⟨last, Int32.le_trans hlast hle, hx⟩
  | some (.serving w .numbering), ⟨last, hlast, hx⟩ => exact ⟨last, Int32.le_trans hlast hle, hx⟩
  | some (.serving w (.responding requestId)), ⟨last, hlast, hn, hx⟩ =>
      exact ⟨last, hlast, Int32.le_trans hn hle, hx⟩
  | some (.serving w .closing), h => exact h

/-! ## The events of a connection

An event is about a connection if its client acts or its socket is used. For a client that has a
socket the two are the same, by `Custody`.
-/

/-- The connection `c` has to do with it: its client acts, or its socket is used. -/
def Event.about (c : Nat) : Event → Bool
  | .took _ k => k.connected && k.connection = c
  | .call _ _ k target => (k.connected && k.connection = c) || target = some c

/-- What the session of the connection `c` has done. -/
def Process.session (s : Process) (c : Nat) : List Event := s.log.filter (Event.about c)

/-- An event of the client `k`: it takes part in it, and the call goes to its own connection, or
to none if it has no socket. -/
inductive Event.Of (k : Client) : Event → Prop
  | took {w : Nat} : Of k (.took w k)
  | call {thread : Thread} {call : Call} :
      Of k (.call thread call k (if k.connected then some k.connection else none))

theorem Event.Of.about_self {k : Client} {e : Event} (h : Event.Of k e) (hk : k.connected = true) :
    e.about k.connection = true := by
  cases h <;> simp [Event.about, hk]

theorem Event.Of.about_other {k : Client} {e : Event} (h : Event.Of k e) {c : Nat}
    (hc : k.connected = true → k.connection ≠ c) : e.about c = false := by
  cases hk : k.connected with
  | true => cases h <;> simp [Event.about, hk, hc hk]
  | false => cases h <;> simp [Event.about, hk]

/-! ## What a step does

`advances_of_step` is assembled from one lemma for each kind of actor: a worker with its client, a
worker that takes one, and `main`.
-/

section

variable {s s' : Process}

theorem situations_set {frames : List (Option Frame)} {w : Nat} {old : Option Frame}
    (hget : frames[w]? = some old) (new : Option Frame) :
    ∃ others, (situations frames).Perm ((old.map (Frame.situation w)).toList ++ others) ∧
      (situations (frames.set w new)).Perm ((new.map (Frame.situation w)).toList ++ others) := by
  have hmap : (frames.mapIdx fun w f => f.map (Frame.situation w))[w]?
      = some (old.map (Frame.situation w)) := by
    rw [List.getElem?_mapIdx, hget, Option.map_some]
  obtain ⟨others, hold, hnew⟩ := replaces_set (new.map (Frame.situation w)) hmap
  refine ⟨others.filterMap id, ?_, ?_⟩
  · have hperm := hold.filterMap id
    cases old <;> exact hperm
  · rw [← List.mapIdx_set] at hnew
    have hperm := hnew.filterMap id
    cases new <;> exact hperm

/-- A client that the server has is one of its clients. -/
theorem mem_clients {k : Client} {q : Stage} (h : (k, q) ∈ s.situations) : k ∈ s.clients := by
  simp only [Process.situations, Process.clients, List.mem_append, Option.mem_toList, List.mem_map]
    at h ⊢
  rcases h with hmain | ⟨k', hk', heq⟩ | hframe
  · left
    cases hs : s.main <;> rw [hs] at hmain <;> cases hmain <;> rfl
  · cases heq
    exact .inr (.inl hk')
  · obtain ⟨f, hf, heq⟩ := List.mem_filterMap.mp hframe
    obtain ⟨w, hlt, rfl⟩ := List.mem_mapIdx.mp hf
    obtain ⟨frame, hget, heq⟩ := Option.map_eq_some_iff.mp heq
    cases heq
    exact .inr (.inr (List.mem_filterMap.mpr ⟨_, List.getElem_mem hlt, by rw [hget]; rfl⟩))

/-- A step of the server is one of nobody's session, the first of a session, or the next one of one
session; `q'` is `none` for the last one. -/
inductive Advances (s s' : Process) : Prop
  | idle : s'.situations.Perm s.situations → s'.log = s.log → s'.accepted = s.accepted →
      Advances s s'
  | arrives {k : Client} : s'.situations.Perm ((k, .waiting) :: s.situations) → s'.log = s.log →
      (k.connected = false ∧ s'.accepted = s.accepted ∨
        k.connected = true ∧ k.connection = s.accepted ∧ s'.accepted = s.accepted + 1) →
      Advances s s'
  | acts (k : Client) (q : Stage) (q' : Option Stage) (others : List (Client × Stage))
      {es : List Event} : s.situations.Perm ((k, q) :: others) →
      s'.situations.Perm ((q'.map (k, ·)).toList ++ others) → s'.log = s.log ++ es →
      s'.accepted = s.accepted → (∀ e ∈ es, Event.Of k e) →
      (k.connected = true → ∀ x, Stands s.requestCounter q x →
        ∃ x', (sessionMachine k.connection).Path x es x' ∧ Stands s'.requestCounter q' x') →
      Advances s s'

/-- The counter does not go beyond its greatest value: a step that asks for a number finds it
below that. -/
def Unwrapped (s : Process) : LoopAct → Prop
  | .server (.getRequestNumber _) => s.requestCounter < Int32.maxValue
  | _ => True

instance (s : Process) (a : LoopAct) : Decidable (Unwrapped s a) := by
  unfold Unwrapped
  split <;> infer_instance

theorem lt_succ_of_lt_max {n : Int32} (h : n < Int32.maxValue) : n < n + 1 := by
  have hmax : Int32.maxValue.toInt = 2147483647 := rfl
  have hone : (1 : Int32).toInt = 1 := rfl
  rw [Int32.lt_iff_toInt_lt, hmax] at h
  have hmin := Int32.le_toInt n
  rw [Int32.lt_iff_toInt_lt, Int32.toInt_add, hone, Int.bmod_eq_of_le] <;> omega

/-- The socket of a client that the server has, if it has one. -/
theorem ServiceInv.target {threadCount : Nat} (h : ServiceInv threadCount s) {k : Client}
    (hk : k ∈ s.clients) :
    s.sockets k.clientSocket = if k.connected then some k.connection else none := by
  cases hconnected : k.connected with
  | true =>
      rw [if_pos rfl, h.sockets.opened]
      exact List.mem_filter.mpr ⟨hk, hconnected⟩
  | false =>
      rw [if_neg Bool.false_ne_true]
      exact h.noNegative _ (by simpa [Client.connected] using hconnected)

theorem perm_front {α : Type} (a b x others : List α) :
    (a ++ (b ++ (x ++ others))).Perm (x ++ (a ++ (b ++ others))) := by
  rw [← List.append_assoc, ← List.append_assoc a b others]
  exact List.perm_append_comm_assoc _ _ _

/-- A worker goes on with its client, or leaves it. -/
theorem acts_worker {w : Nat} {k : Client} {phase : Phase} (new : Option Phase) (es : List Event)
    (hget : s.frames[w]? = some (some ⟨k, phase⟩)) (htasks : s'.pool.tasks = s.pool.tasks)
    (hmain : s'.main = s.main) (hframes : s'.frames = s.frames.set w (new.map (Frame.mk k)))
    (hlog : s'.log = s.log ++ es) (haccepted : s'.accepted = s.accepted)
    (hof : ∀ e ∈ es, Event.Of k e)
    (hpath : k.connected = true → ∀ x, Stands s.requestCounter (some (.serving w phase)) x →
      ∃ x', (sessionMachine k.connection).Path x es x' ∧
        Stands s'.requestCounter (new.map (Stage.serving w)) x') : Advances s s' := by
  obtain ⟨others, hold, hnew⟩ := situations_set hget (new.map (Frame.mk k))
  refine .acts k (.serving w phase) (new.map (Stage.serving w))
    (s.main.situation?.toList ++ (s.pool.tasks.map (·, .waiting) ++ others))
    ?_ ?_ hlog haccepted hof hpath
  · exact ((hold.append_left _).append_left _).trans (perm_front _ _ _ _)
  · rw [Process.situations, hmain, htasks, hframes]
    refine ((hnew.append_left _).append_left _).trans ?_
    have hmap : (new.map (Frame.mk k)).map (Frame.situation w)
        = (new.map (Stage.serving w)).map (k, ·) := by
      cases new <;> rfl
    rw [hmap]
    exact perm_front _ _ _ _

theorem idle_pool (htasks : s'.pool.tasks = s.pool.tasks)
    (hmain : s'.main.situation? = s.main.situation?) (hframes : s'.frames = s.frames)
    (hlog : s'.log = s.log) (haccepted : s'.accepted = s.accepted) : Advances s s' := by
  refine .idle (List.Perm.of_eq ?_) hlog haccepted
  rw [Process.situations, htasks, hmain, hframes, Process.situations]

theorem ServiceInv.of_call {threadCount : Nat} (h : ServiceInv threadCount s) {k : Client}
    (hk : k ∈ s.clients) (thread : Thread) (call : Call) :
    ∀ e ∈ [Event.call thread call k (s.sockets k.clientSocket)], Event.Of k e := by
  intro e he
  rw [List.mem_singleton.mp he, h.target hk]
  exact .call

theorem path_singleton {c : Nat} {x x' : Session} {e : Event} (h : Session.Step c x e x') :
    (sessionMachine c).Path x [e] x' :=
  Machine.Path.cons h (.nil _)

/-- `main` goes on with its client, or leaves it. -/
theorem acts_main {k : Client} {q : Stage} (q' : Option Stage) {e : Event}
    (hold : s.main.situation? = some (k, q)) (hnew : s'.main.situation? = q'.map (k, ·))
    (htasks : s'.pool.tasks = s.pool.tasks) (hframes : s'.frames = s.frames)
    (hlog : s'.log = s.log ++ [e]) (haccepted : s'.accepted = s.accepted) (hof : Event.Of k e)
    (hpath : k.connected = true → ∀ x, Stands s.requestCounter q x →
      ∃ x', (sessionMachine k.connection).Path x [e] x' ∧ Stands s'.requestCounter q' x') :
    Advances s s' := by
  refine .acts k q q' (s.pool.tasks.map (·, .waiting) ++ situations s.frames)
    (List.Perm.of_eq ?_) (List.Perm.of_eq ?_) hlog haccepted ?_ hpath
  · rw [Process.situations, hold]
    rfl
  · rw [Process.situations, hnew, htasks, hframes]
  · intro e' he'
    rw [List.mem_singleton.mp he']
    exact hof

/-- A worker takes the first task of the queue. -/
theorem acts_take {w : Nat} {k : Client} {pool : Pool Client}
    (htasks : s.pool.tasks = k :: pool.tasks) (hget : s.frames[w]? = some none) :
    Advances s { s with
      pool := pool
      frames := s.frames.set w (some ⟨k, .receiving⟩)
      log := s.log ++ [.took w k] } := by
  obtain ⟨others, hold, hnew⟩ := situations_set hget (some ⟨k, .receiving⟩)
  refine .acts k .waiting (some (.serving w .receiving))
    (s.main.situation?.toList ++ (pool.tasks.map (·, .waiting) ++ others))
    ?_ ?_ rfl rfl ?_ ?_
  · rw [Process.situations, htasks, List.map_cons]
    refine ((hold.append_left _).append_left _).trans ?_
    exact perm_front _ [] [(k, .waiting)] (pool.tasks.map (·, .waiting) ++ others)
  · exact ((hnew.append_left _).append_left _).trans (perm_front _ _ _ _)
  · intro e he
    rw [List.mem_singleton.mp he]
    exact .took
  · rintro - x ⟨rfl, hn⟩
    exact ⟨_, path_singleton (.take rfl), 0, hn, rfl⟩

/-- **What a step does to the sessions.** It is nobody's business, or begins one session, or is
the next step of one session; the others do not notice it. -/
theorem advances_of_step {threadCount : Nat} {a : LoopAct} (h : ServiceInv threadCount s)
    (ha : Unwrapped s a) (hs : loopStep s a = some s') : Advances s s' := by
  have hmain : ∀ k q, s.main.situation? = some (k, q) → k ∈ s.clients := by
    intro k q hk
    exact mem_clients (q := q) (List.mem_append_left _ (Option.mem_toList.mpr hk))
  have hworker : ∀ (w : Nat) (k : Client) (phase : Phase),
      s.frames[w]? = some (some ⟨k, phase⟩) → k ∈ s.clients := by
    intro w k phase hget
    rw [Process.clients, List.mem_append, List.mem_append, List.mem_filterMap]
    exact .inr (.inr ⟨some ⟨k, phase⟩, List.mem_of_getElem? hget, rfl⟩)
  rcases loopStep_cases hs with ⟨-, haccepting, rfl⟩ | ⟨b, rfl, hb⟩
  · -- `accept` fails
    refine .arrives (k := ⟨-1, s.accepted⟩) (List.Perm.of_eq ?_) rfl (.inl ⟨rfl, rfl⟩)
    simp only [Process.situations, haccepting, Main.situation?, Option.toList_none,
      Option.toList_some, List.nil_append, List.singleton_append]
  cases hb with
  | @accept d haccepting hd _ =>
      refine .arrives (k := ⟨d, s.accepted⟩) (List.Perm.of_eq ?_) rfl
        (.inr ⟨decide_eq_true hd, rfl, rfl⟩)
      simp only [Process.situations, haccepting, Main.situation?, Option.toList_none,
        Option.toList_some, List.nil_append, List.singleton_append]
  | @enqueue k pool haccepted hpool =>
      obtain ⟨htasks, -, -⟩ := step_enqueue hpool
      refine .idle ?_ rfl rfl
      rcases enqueueSection_cases s.pool.tasks k with ⟨-, heq⟩ | ⟨-, heq⟩
      · -- from `main` to the end of the queue
        rw [heq] at htasks
        simp only [Process.situations, heq, htasks, haccepted, Main.situation?, if_true,
          List.map_append, Option.toList_none, Option.toList_some, List.nil_append,
          List.append_assoc]
        exact List.perm_append_comm_assoc _ _ _
      · rw [heq] at htasks
        refine List.Perm.of_eq ?_
        simp only [Process.situations, heq, htasks, haccepted, Main.situation?, Bool.false_eq_true,
          if_false]
  | notify hnotifying hpool =>
      exact idle_pool (step_notify hpool).tasks (by rw [hnotifying]; rfl) rfl rfl rfl
  | @reply k hrejected =>
      have hsituation : s.main.situation? = some (k, .waiting) := by rw [hrejected]; rfl
      have hk := hmain k _ hsituation
      refine acts_main (some .refused) hsituation rfl rfl rfl rfl rfl
        (h.of_call hk .main (.send busy) _ (List.mem_singleton_self _)) ?_
      rintro hconnected x ⟨rfl, -⟩
      rw [h.target hk, if_pos hconnected]
      exact ⟨_, path_singleton .refuse, rfl⟩
  | @closeRejected k hreplied =>
      have hsituation : s.main.situation? = some (k, .refused) := by rw [hreplied]; rfl
      have hk := hmain k _ hsituation
      refine acts_main none hsituation rfl rfl rfl rfl rfl
        (h.of_call hk .main .close _ (List.mem_singleton_self _)) ?_
      rintro hconnected x rfl
      rw [h.target hk, if_pos hconnected]
      exact ⟨_, path_singleton .closeRefused, rfl⟩
  | @takes w k b pool hpool hget =>
      rcases step_workerSection_cases hpool with ⟨-, hidle⟩ | ⟨k', hawake, htasks, -, hws⟩
      · exact absurd hget (hidle k b)
      · have hlt : w < s.pool.workers.length := (List.getElem?_eq_some_iff.mp hawake).1
        rw [hws, List.getElem?_set_self hlt] at hget
        cases hget
        exact acts_take htasks (h.linked.idle hawake)
  | @takesNothing w pool hpool hnone =>
      rcases step_workerSection_cases hpool with ⟨hsame, -⟩ | ⟨k, hawake, -, -, hws⟩
      · exact idle_pool hsame.tasks rfl rfl rfl rfl
      · have hlt : w < s.pool.workers.length := (List.getElem?_eq_some_iff.mp hawake).1
        rw [hws, List.getElem?_set_self hlt] at hnone
        exact absurd rfl (hnone k false)
  | spurious hpool => exact idle_pool (step_spurious hpool).tasks rfl rfl rfl rfl
  | @recv w bytes k hget =>
      have hk := hworker _ _ _ hget
      refine acts_worker (some (if bytes ≤ 0 then .closing else .numbering)) _ hget rfl rfl rfl
        rfl rfl (h.of_call hk _ _) ?_
      rintro hconnected x ⟨last, hlast, rfl⟩
      rw [h.target hk, if_pos hconnected]
      split_ifs with hbytes
      · exact ⟨_, path_singleton (.leave hbytes), rfl⟩
      · exact ⟨_, path_singleton (.request (not_le.mp hbytes)), last, hlast, rfl⟩
  | @getRequestNumber w k hget =>
      refine acts_worker (some (.responding (s.requestCounter + 1))) [] hget rfl rfl
        rfl (List.append_nil _).symm rfl (fun _ he => by cases he) ?_
      rintro - x ⟨last, hlast, rfl⟩
      exact ⟨_, .nil _, last, Int32.lt_of_le_of_lt hlast (lt_succ_of_lt_max ha), Int32.le_refl _,
        rfl⟩
  | @respond w k requestId hget =>
      have hk := hworker _ _ _ hget
      refine acts_worker (some .receiving) _ hget rfl rfl rfl rfl rfl (h.of_call hk _ _) ?_
      rintro hconnected x ⟨last, hlast, hn, rfl⟩
      rw [h.target hk, if_pos hconnected]
      exact ⟨_, path_singleton (.respond hlast), requestId, hn, rfl⟩
  | @closeServed w k hget =>
      have hk := hworker _ _ _ hget
      refine acts_worker none _ hget rfl rfl rfl rfl rfl (h.of_call hk _ _) ?_
      rintro hconnected x rfl
      rw [h.target hk, if_pos hconnected]
      exact ⟨_, path_singleton .close, rfl⟩
  | finish _ hpool => exact idle_pool (step_finish hpool).tasks rfl rfl rfl rfl

/-- The counter grows. -/
theorem counter_le {a : LoopAct} (ha : Unwrapped s a) (hs : loopStep s a = some s') :
    s.requestCounter ≤ s'.requestCounter := by
  rcases loopStep_cases hs with ⟨-, -, rfl⟩ | ⟨b, rfl, hb⟩
  · exact Int32.le_refl _
  · cases hb with
    | getRequestNumber _ => exact Int32.le_of_lt (lt_succ_of_lt_max ha)
    | _ => exact Int32.le_refl _

end

/-! ## The invariant -/

/-- The sessions that are going on: the situations of the clients with a socket. -/
def Process.sessions (s : Process) : List (Client × Stage) := s.situations.filter (·.1.connected)

/-- Every connection goes through its session. One that somebody has is where its client is
(`active`), one that nobody has is at its end (`gone`), and one that was not accepted yet has no
events (`fresh`). -/
structure SessionsInv (s : Process) : Prop where
  active : ∀ k q, (k, q) ∈ s.sessions →
    ∃ x, (sessionMachine k.connection).Path .waiting (s.session k.connection) x ∧
      Stands s.requestCounter (some q) x
  gone : ∀ c < s.accepted, (∀ k q, (k, q) ∈ s.sessions → k.connection ≠ c) →
    (sessionMachine c).Path .waiting (s.session c) .closed
  fresh : ∀ c, s.accepted ≤ c → s.session c = []
  distinct : (s.sessions.map (·.1.connection)).Nodup
  below : ∀ k q, (k, q) ∈ s.sessions → k.connection < s.accepted
  counter : 0 ≤ s.requestCounter

section

variable {s s' : Process}

theorem sessions_append {l l' : List (Client × Stage)} (h : s.situations.Perm (l ++ l')) :
    s.sessions.Perm (l.filter (·.1.connected) ++ l'.filter (·.1.connected)) := by
  have hfilter := h.filter (·.1.connected)
  rwa [List.filter_append] at hfilter

theorem sessions_connected {k : Client} (hk : k.connected = true) {q : Option Stage}
    {l : List (Client × Stage)} (h : s.situations.Perm ((q.map (k, ·)).toList ++ l)) :
    s.sessions.Perm ((q.map (k, ·)).toList ++ l.filter (·.1.connected)) := by
  have hsessions := sessions_append h
  cases q with
  | none => exact hsessions
  | some q =>
      have hnew : [(k, q)].filter (·.1.connected) = [(k, q)] := by simp [hk]
      rw [Option.map_some, Option.toList_some, hnew] at hsessions
      exact hsessions

theorem sessions_unconnected {k : Client} (hk : k.connected = false) {q : Option Stage}
    {l : List (Client × Stage)} (h : s.situations.Perm ((q.map (k, ·)).toList ++ l)) :
    s.sessions.Perm (l.filter (·.1.connected)) := by
  have hsessions := sessions_append h
  cases q with
  | none => exact hsessions
  | some q =>
      have hnew : [(k, q)].filter (·.1.connected) = [] := by simp [hk]
      rw [Option.map_some, Option.toList_some, hnew] at hsessions
      exact hsessions

/-- The events of a client are those of its connection only. -/
theorem session_append {k : Client} {es : List Event} (hlog : s'.log = s.log ++ es)
    (hof : ∀ e ∈ es, Event.Of k e) :
    (k.connected = true → s'.session k.connection = s.session k.connection ++ es) ∧
    ∀ c, (k.connected = true → k.connection ≠ c) → s'.session c = s.session c := by
  have happend : ∀ c, s'.session c = s.session c ++ es.filter (Event.about c) := by
    intro c
    rw [Process.session, hlog, List.filter_append, Process.session]
  constructor
  · intro hk
    rw [happend, List.filter_eq_self.mpr fun e he => (hof e he).about_self hk]
  · intro c hc
    have hnone : es.filter (Event.about c) = [] := by
      refine List.filter_eq_nil_iff.mpr fun e he => ?_
      rw [(hof e he).about_other hc]
      exact Bool.false_ne_true
    rw [happend, hnone, List.append_nil]

/-- A step that is nobody's business. -/
theorem SessionsInv.idle (h : SessionsInv s) (hcounter : s.requestCounter ≤ s'.requestCounter)
    (hperm : s'.sessions.Perm s.sessions) (hsession : ∀ c, s'.session c = s.session c)
    (haccepted : s'.accepted = s.accepted) : SessionsInv s' := by
  constructor
  · intro k q hmem
    obtain ⟨x, hpath, hx⟩ := h.active k q (hperm.mem_iff.mp hmem)
    exact ⟨x, hsession _ ▸ hpath, hx.mono hcounter⟩
  · intro c hc hnone
    rw [hsession]
    exact h.gone c (haccepted ▸ hc) fun k q hmem => hnone k q (hperm.mem_iff.mpr hmem)
  · intro c hc
    rw [hsession]
    exact h.fresh c (haccepted ▸ hc)
  · exact (hperm.map _).nodup_iff.mpr h.distinct
  · intro k q hmem
    rw [haccepted]
    exact h.below k q (hperm.mem_iff.mp hmem)
  · exact Int32.le_trans h.counter hcounter

/-- A client with a new connection, whose session begins. -/
theorem SessionsInv.arrives {k : Client} (h : SessionsInv s)
    (hcounter : s.requestCounter ≤ s'.requestCounter)
    (hperm : s'.sessions.Perm ((k, .waiting) :: s.sessions))
    (hsession : ∀ c, s'.session c = s.session c) (hconnection : k.connection = s.accepted)
    (haccepted : s'.accepted = s.accepted + 1) : SessionsInv s' := by
  constructor
  · intro k' q hmem
    rcases List.mem_cons.mp (hperm.mem_iff.mp hmem) with heq | hold
    · cases heq
      rw [hsession, h.fresh _ hconnection.ge]
      exact ⟨.waiting, .nil _, rfl, Int32.le_trans h.counter hcounter⟩
    · obtain ⟨x, hpath, hx⟩ := h.active k' q hold
      exact ⟨x, hsession _ ▸ hpath, hx.mono hcounter⟩
  · intro c hc hnone
    have hne : k.connection ≠ c := hnone k .waiting (hperm.mem_iff.mpr List.mem_cons_self)
    rw [hsession]
    refine h.gone c (by omega) fun k' q hmem => ?_
    exact hnone k' q (hperm.mem_iff.mpr (List.mem_cons_of_mem _ hmem))
  · intro c hc
    rw [hsession]
    exact h.fresh c (by omega)
  · refine (hperm.map _).nodup_iff.mpr (List.nodup_cons.mpr ⟨fun hmem => ?_, h.distinct⟩)
    obtain ⟨⟨k', q⟩, hk', heq⟩ := List.mem_map.mp hmem
    have hlt := h.below k' q hk'
    have heq : k'.connection = k.connection := heq
    omega
  · intro k' q hmem
    rcases List.mem_cons.mp (hperm.mem_iff.mp hmem) with heq | hold
    · cases heq
      omega
    · have hlt := h.below k' q hold
      omega
  · exact Int32.le_trans h.counter hcounter

/-- The session of one client goes on, or ends. -/
theorem SessionsInv.acts {k : Client} {q : Stage} {q' : Option Stage}
    {others : List (Client × Stage)} {es : List Event} (h : SessionsInv s)
    (hcounter : s.requestCounter ≤ s'.requestCounter)
    (hperm : s.sessions.Perm ((k, q) :: others))
    (hperm' : s'.sessions.Perm ((q'.map (k, ·)).toList ++ others))
    (hself : s'.session k.connection = s.session k.connection ++ es)
    (hother : ∀ c, k.connection ≠ c → s'.session c = s.session c)
    (haccepted : s'.accepted = s.accepted)
    (hpath : ∀ x, Stands s.requestCounter q x →
      ∃ x', (sessionMachine k.connection).Path x es x' ∧ Stands s'.requestCounter q' x') :
    SessionsInv s' := by
  -- the client is in one session only
  have hdistinct := (hperm.map (·.1.connection)).nodup_iff.mp h.distinct
  rw [List.map_cons, List.nodup_cons] at hdistinct
  have hne : ∀ k' q, (k', q) ∈ others → k.connection ≠ k'.connection := by
    intro k' q' hmem heq
    exact hdistinct.1 (List.mem_map.mpr ⟨_, hmem, heq.symm⟩)
  have hmem : (k, q) ∈ s.sessions := hperm.mem_iff.mpr List.mem_cons_self
  have hold : ∀ k' q, (k', q) ∈ others → (k', q) ∈ s.sessions := by
    intro k' q hmem
    exact hperm.mem_iff.mpr (List.mem_cons_of_mem _ hmem)
  obtain ⟨x, hreached, hx⟩ := h.active k q hmem
  obtain ⟨x', hnext, hx'⟩ := hpath x hx
  have hreached' : (sessionMachine k.connection).Path .waiting (s'.session k.connection) x' := by
    rw [hself]
    exact hreached.append hnext
  have hcases : ∀ k' q₁, (k', q₁) ∈ s'.sessions → k' = k ∧ q' = some q₁ ∨ (k', q₁) ∈ others := by
    intro k' q₁ hmem
    rcases List.mem_append.mp (hperm'.mem_iff.mp hmem) with hnew | hold
    · obtain ⟨q₂, rfl, heq⟩ := Option.map_eq_some_iff.mp (Option.mem_toList.mp hnew)
      cases heq
      exact .inl ⟨rfl, rfl⟩
    · exact .inr hold
  constructor
  · intro k' q₁ hmem
    rcases hcases k' q₁ hmem with ⟨rfl, rfl⟩ | hmem
    · exact ⟨x', hreached', hx'⟩
    · obtain ⟨y, hy, hstands⟩ := h.active k' q₁ (hold k' q₁ hmem)
      rw [hother _ (hne k' q₁ hmem)]
      exact ⟨y, hy, hstands.mono hcounter⟩
  · intro c hc hnone
    rcases eq_or_ne k.connection c with rfl | hc'
    · -- nobody has it any more
      cases q' with
      | none =>
          obtain rfl : x' = .closed := hx'
          exact hreached'
      | some q₁ => exact absurd rfl (hnone k q₁ (hperm'.mem_iff.mpr List.mem_cons_self))
    · rw [hother c hc']
      refine h.gone c (haccepted ▸ hc) fun k' q₁ hmem => ?_
      rcases List.mem_cons.mp (hperm.mem_iff.mp hmem) with heq | hmem
      · cases heq
        exact hc'
      · exact hnone k' q₁ (hperm'.mem_iff.mpr (List.mem_append_right _ hmem))
  · intro c hc
    have hlt := h.below k q hmem
    rw [hother c (by omega)]
    exact h.fresh c (haccepted ▸ hc)
  · rw [(hperm'.map (·.1.connection)).nodup_iff]
    cases q' with
    | none => exact hdistinct.2
    | some q₁ => exact List.nodup_cons.mpr hdistinct
  · intro k' q₁ hmem'
    rw [haccepted]
    rcases hcases k' q₁ hmem' with ⟨rfl, -⟩ | hmem'
    · exact h.below k' q hmem
    · exact h.below k' q₁ (hold k' q₁ hmem')
  · exact Int32.le_trans h.counter hcounter

/-- **Every step keeps the sessions.** The session that moves has one step more, and the events of
the others are the same ones. -/
theorem SessionsInv.advances (h : SessionsInv s) (hcounter : s.requestCounter ≤ s'.requestCounter)
    (hs : Advances s s') : SessionsInv s' := by
  cases hs with
  | idle hperm hlog haccepted =>
      refine h.idle hcounter (hperm.filter _) (fun c => ?_) haccepted
      rw [Process.session, hlog, Process.session]
  | @arrives k hperm hlog hk =>
      have hsession : ∀ c, s'.session c = s.session c := by
        intro c
        rw [Process.session, hlog, Process.session]
      rcases hk with ⟨hk, haccepted⟩ | ⟨hk, hconnection, haccepted⟩
      · exact h.idle hcounter (sessions_unconnected (q := some .waiting) hk hperm) hsession
          haccepted
      · exact h.arrives hcounter (sessions_connected (q := some .waiting) hk hperm) hsession
          hconnection haccepted
  | @acts k q q' others es hperm hperm' hlog haccepted hof hpath =>
      obtain ⟨hself, hother⟩ := session_append hlog hof
      cases hk : k.connected with
      | true =>
          exact h.acts hcounter (sessions_connected (q := some q) hk hperm)
            (sessions_connected hk hperm') (hself hk) (fun c hc => hother c fun _ => hc) haccepted
            (hpath hk)
      | false =>
          have hbefore := sessions_unconnected (q := some q) hk hperm
          have hafter := sessions_unconnected hk hperm'
          refine h.idle hcounter (hafter.trans hbefore.symm) (fun c => hother c fun hk' => ?_)
            haccepted
          rw [hk] at hk'
          cases hk'

end

theorem new_sessionsInv (threadCount : Nat) : SessionsInv (.new threadCount) := by
  have hsessions : (Process.new threadCount).sessions = [] := by
    have hnone : situations (List.replicate threadCount none) = [] := by
      refine List.filterMap_eq_nil_iff.mpr fun f hf => ?_
      obtain ⟨w, hlt, rfl⟩ := List.mem_mapIdx.mp hf
      rw [List.getElem_replicate]
      rfl
    show ([] ++ ([] ++ situations (List.replicate threadCount none))).filter _ = []
    rw [hnone]
    rfl
  refine ⟨?_, fun c hc => absurd hc (Nat.not_lt_zero c), fun _ _ => rfl, ?_, ?_, Int32.le_refl _⟩
  · rw [hsessions]
    exact fun _ _ hmem => by cases hmem
  · rw [hsessions]
    exact .nil
  · rw [hsessions]
    exact fun _ _ hmem => by cases hmem

theorem reachable_sessionsInv {threadCount : Nat} {s : Process}
    (hs : ((loopMachine threadCount).guarded Unwrapped).Reachable s) : SessionsInv s := by
  have hboth : ServiceInv threadCount s ∧ SessionsInv s := by
    refine Machine.invariant (M := (loopMachine threadCount).guarded Unwrapped)
      (fun s => ServiceInv threadCount s ∧ SessionsInv s) ?_ ?_ hs
    · rintro s rfl
      exact ⟨new_serviceInv threadCount, new_sessionsInv threadCount⟩
    · rintro s a s' ⟨hservice, h⟩ ⟨ha, hstep⟩
      have hadvances := advances_of_step hservice ha hstep
      exact ⟨hservice.step hstep, h.advances (counter_le ha hstep) hadvances⟩
  exact hboth.2

/-! ## The results -/

/-- **Every connection goes through a session of its own.** Whatever `accept` returns and however
`main`, the workers and the other connections interleave, as long as the counter does not wrap:
all that the server does with a connection, from `accept` on, is a run of the session, which takes
it to the place where the server has its client, or to its end if nobody has it any more. -/
theorem sessions_refine {threadCount : Nat} {s : Process}
    (hs : ((loopMachine threadCount).guarded Unwrapped).Reachable s) {c : Nat}
    (hc : c < s.accepted) :
    ∃ x, (sessionMachine c).Path .waiting (s.session c) x ∧
      ((∃ k q, (k, q) ∈ s.situations ∧ k.connected = true ∧ k.connection = c ∧
          Stands s.requestCounter (some q) x) ∨
        (∀ k q, (k, q) ∈ s.situations → k.connected = true → k.connection ≠ c) ∧ x = .closed) := by
  have h := reachable_sessionsInv hs
  by_cases hheld : ∃ k q, (k, q) ∈ s.sessions ∧ k.connection = c
  · obtain ⟨k, q, hmem, rfl⟩ := hheld
    obtain ⟨x, hpath, hx⟩ := h.active k q hmem
    obtain ⟨hsituation, hk⟩ := List.mem_filter.mp hmem
    exact ⟨x, hpath, .inl ⟨k, q, hsituation, hk, rfl, hx⟩⟩
  · have hnone : ∀ k q, (k, q) ∈ s.sessions → k.connection ≠ c := by
      intro k q hmem heq
      exact hheld ⟨k, q, hmem, heq⟩
    refine ⟨.closed, h.gone c hc hnone, .inr ⟨fun k q hmem hk => ?_, rfl⟩⟩
    exact hnone k q (List.mem_filter.mpr ⟨hmem, hk⟩)

/-- One worker serves two connections on one descriptor after the other; the second one is in the
middle of its first request. -/
theorem sessions_refine_reused : ∃ s, ((loopMachine 1).guarded Unwrapped).Reachable s ∧
    s.session 0 = [.took 0 ⟨5, 0⟩, .call (.worker 0) (.recv 3) ⟨5, 0⟩ (some 0),
      .call (.worker 0) (.send (response 1)) ⟨5, 0⟩ (some 0),
      .call (.worker 0) (.recv 0) ⟨5, 0⟩ (some 0), .call (.worker 0) .close ⟨5, 0⟩ (some 0)] ∧
    (sessionMachine 0).Path .waiting (s.session 0) .closed := by
  have hrun : (Machine.executeGuarded Unwrapped loopStep (.new 1)
      [.server (.accept 5), .server .enqueue, .server (.workerSection 0), .server (.notify none),
        .server (.recv 0 3), .server (.getRequestNumber 0), .server (.respond 0),
        .server (.recv 0 0), .server (.closeServed 0), .server (.accept 5), .server .enqueue,
        .server (.finish 0), .server (.workerSection 0), .server (.recv 0 7)]).map
      (fun s => (s.accepted, s.session 0, s.situations))
      = some (2, [.took 0 ⟨5, 0⟩, .call (.worker 0) (.recv 3) ⟨5, 0⟩ (some 0),
        .call (.worker 0) (.send (response 1)) ⟨5, 0⟩ (some 0),
        .call (.worker 0) (.recv 0) ⟨5, 0⟩ (some 0), .call (.worker 0) .close ⟨5, 0⟩ (some 0)],
        [(⟨5, 1⟩, .serving 0 .numbering)]) := by
    decide +kernel
  obtain ⟨s, hexecute, hresult⟩ := Option.map_eq_some_iff.mp hrun
  simp only [Prod.mk.injEq] at hresult
  obtain ⟨haccepted, hsession, hsituations⟩ := hresult
  have hs : ((loopMachine 1).guarded Unwrapped).Reachable s :=
    ⟨_, _, rfl, Machine.path_of_executeGuarded hexecute⟩
  obtain ⟨x, hpath, ⟨k, q, hmem, -, hk, -⟩ | ⟨-, rfl⟩⟩ := sessions_refine hs (c := 0) (by omega)
  · rw [hsituations, List.mem_singleton] at hmem
    cases hmem
    cases hk
  · exact ⟨s, hs, hsession, hpath⟩

/-! ## Requests and responses

What a session has said so far is described by the texts alone: the answers in their order, with
their numbers, and how many requests there were.
-/

/-- The text that is sent to the client. -/
def Event.text? : Event → Option String
  | .call _ (.send text) _ _ => some text
  | _ => none

/-- Bytes have come from the client. -/
def Event.isRequest : Event → Bool
  | .call _ (.recv bytes) _ _ => 0 < bytes
  | _ => false

/-- The client was answered with the numbers `ns`, in this order, all positive and at most `last`,
and has made `pending` requests more than it has got answers. -/
structure AnsweredUpTo (es : List Event) (ns : List Int32) (last : Int32) (pending : Nat) :
    Prop where
  texts : es.filterMap Event.text? = ns.map response
  requests : es.countP Event.isRequest = ns.length + pending
  increasing : ns.Pairwise (· < ·)
  positive : ∀ n ∈ ns, 0 < n
  bounded : ∀ n ∈ ns, n ≤ last
  last : 0 ≤ last

/-- The client was turned away: it was sent the one text for that, and nothing was read from it.
-/
structure TurnedBusy (es : List Event) : Prop where
  texts : es.filterMap Event.text? = [busy]
  requests : es.countP Event.isRequest = 0

section

variable {es : List Event} {e : Event} {ns : List Int32} {last requestId : Int32} {pending : Nat}

/-- An event that is neither a request nor a text changes nothing. -/
theorem AnsweredUpTo.silent (h : AnsweredUpTo es ns last pending) (htext : e.text? = none)
    (hrequest : e.isRequest = false) : AnsweredUpTo (es ++ [e]) ns last pending := by
  refine ⟨?_, ?_, h.increasing, h.positive, h.bounded, h.last⟩
  · rw [List.filterMap_append, List.filterMap_cons_none htext, List.filterMap_nil, List.append_nil,
      h.texts]
  · rw [List.countP_append, List.countP_singleton, hrequest, h.requests]
    rfl

theorem AnsweredUpTo.request (h : AnsweredUpTo es ns last 0) (htext : e.text? = none)
    (hrequest : e.isRequest = true) : AnsweredUpTo (es ++ [e]) ns last 1 := by
  refine ⟨?_, ?_, h.increasing, h.positive, h.bounded, h.last⟩
  · rw [List.filterMap_append, List.filterMap_cons_none htext, List.filterMap_nil, List.append_nil,
      h.texts]
  · rw [List.countP_append, List.countP_singleton, hrequest, h.requests]
    rfl

theorem AnsweredUpTo.respond (h : AnsweredUpTo es ns last 1)
    (htext : e.text? = some (response requestId)) (hrequest : e.isRequest = false)
    (hlt : last < requestId) : AnsweredUpTo (es ++ [e]) (ns ++ [requestId]) requestId 0 := by
  have hpositive : 0 < requestId := Int32.lt_of_le_of_lt h.last hlt
  constructor
  · rw [List.filterMap_append, List.filterMap_cons_some htext, List.filterMap_nil, h.texts,
      List.map_append, List.map_singleton]
  · rw [List.countP_append, List.countP_singleton, hrequest, h.requests, List.length_append,
      List.length_singleton]
    rfl
  · rw [List.pairwise_append]
    refine ⟨h.increasing, List.pairwise_singleton _ _, fun n hn n' hn' => ?_⟩
    rw [List.mem_singleton.mp hn']
    exact Int32.lt_of_le_of_lt (h.bounded n hn) hlt
  · intro n hn
    rcases List.mem_append.mp hn with hold | hnew
    · exact h.positive n hold
    · rw [List.mem_singleton.mp hnew]
      exact hpositive
  · intro n hn
    rcases List.mem_append.mp hn with hold | hnew
    · exact Int32.le_of_lt (Int32.lt_of_le_of_lt (h.bounded n hold) hlt)
    · rw [List.mem_singleton.mp hnew]
      exact Int32.le_refl _
  · exact Int32.le_of_lt hpositive

end

/-- A session that is about to answer is served by a worker. -/
theorem exists_frame {s : Process} {k : Client} {q : Stage} {w : Nat} {last n : Int32}
    (hmem : (k, q) ∈ s.situations) (hx : Stands n (some q) (.answering w last)) :
    ∃ f, some f ∈ s.frames ∧ f.client.connection = k.connection := by
  simp only [Process.situations, List.mem_append, Option.mem_toList, List.mem_map] at hmem
  rcases hmem with hmain | ⟨k', -, heq⟩ | hframe
  · cases hs : s.main <;> rw [hs] at hmain <;> cases hmain
    · cases hx.1
    · cases hx.1
    · cases hx
  · cases heq
    cases hx.1
  · obtain ⟨f, hf, heq⟩ := List.mem_filterMap.mp hframe
    obtain ⟨v, hlt, rfl⟩ := List.mem_mapIdx.mp hf
    obtain ⟨frame, hget, heq⟩ := Option.map_eq_some_iff.mp heq
    cases heq
    exact ⟨frame, hget ▸ List.getElem_mem hlt, rfl⟩

/-- What a session has said when it has come so far. -/
def Session.Said (es : List Event) : Session → Prop
  | .waiting => AnsweredUpTo es [] 0 0
  | .receiving _ last => ∃ ns, AnsweredUpTo es ns last 0
  | .answering _ last => ∃ ns, AnsweredUpTo es ns last 1
  | .leaving _ => ∃ ns last, AnsweredUpTo es ns last 0
  | .refused => TurnedBusy es
  | .closed => TurnedBusy es ∨ ∃ ns last, AnsweredUpTo es ns last 0

theorem said_step {c : Nat} {x x' : Session} {es : List Event} {e : Event} (h : x.Said es)
    (hs : Session.Step c x e x') : x'.Said (es ++ [e]) := by
  cases hs with
  | take _ => exact ⟨[], h.silent rfl rfl⟩
  | request hbytes =>
      obtain ⟨ns, hns⟩ := h
      exact ⟨ns, hns.request rfl (decide_eq_true hbytes)⟩
  | respond hlt =>
      obtain ⟨ns, hns⟩ := h
      exact ⟨_, hns.respond rfl rfl hlt⟩
  | leave hbytes =>
      obtain ⟨ns, hns⟩ := h
      exact ⟨ns, _, hns.silent rfl (decide_eq_false (not_lt.mpr hbytes))⟩
  | close =>
      obtain ⟨ns, last, hns⟩ := h
      exact .inr ⟨ns, last, hns.silent rfl rfl⟩
  | refuse =>
      have htexts := h.texts
      have hrequests := h.requests
      refine ⟨?_, ?_⟩
      · rw [List.filterMap_append, htexts]
        rfl
      · rw [List.countP_append, hrequests]
        rfl
  | closeRefused =>
      refine .inl ⟨?_, ?_⟩
      · rw [List.filterMap_append, h.texts]
        rfl
      · rw [List.countP_append, h.requests]
        rfl

theorem session_said {c : Nat} {x : Session} {es : List Event}
    (hp : (sessionMachine c).Path .waiting es x) : x.Said es := by
  induction hp with
  | nil => exact ⟨rfl, rfl, .nil, nofun, nofun, Int32.le_refl _⟩
  | snoc _ hstep ih => exact said_step ih hstep

/-- **Every request is answered once.** Whatever `accept` returns and however the threads
interleave, as long as the counter does not wrap: what was sent to a connection is "Server busy",
and nothing was read from it, or it is one response for each request, with positive increasing
numbers; only the last request of a connection that a worker serves may still be without one. -/
theorem requests_answered {threadCount : Nat} {s : Process}
    (hs : ((loopMachine threadCount).guarded Unwrapped).Reachable s) (c : Nat) :
    ((s.session c).filterMap Event.text? = [busy] ∧
      (s.session c).countP Event.isRequest = 0) ∨
    ∃ ns : List Int32, (s.session c).filterMap Event.text? = ns.map response ∧
      ns.Pairwise (· < ·) ∧ (∀ n ∈ ns, 0 < n) ∧
      ((s.session c).countP Event.isRequest = ns.length ∨
        (s.session c).countP Event.isRequest = ns.length + 1 ∧
          ∃ f, some f ∈ s.frames ∧ f.client.connection = c) := by
  have h := reachable_sessionsInv hs
  have hanswered : ∀ {ns last}, AnsweredUpTo (s.session c) ns last 0 →
      ∃ ns : List Int32, (s.session c).filterMap Event.text? = ns.map response ∧
        ns.Pairwise (· < ·) ∧ (∀ n ∈ ns, 0 < n) ∧
        ((s.session c).countP Event.isRequest = ns.length ∨
          (s.session c).countP Event.isRequest = ns.length + 1 ∧
            ∃ f, some f ∈ s.frames ∧ f.client.connection = c) := by
    intro ns last hns
    exact ⟨ns, hns.texts, hns.increasing, hns.positive, .inl hns.requests⟩
  rcases Nat.lt_or_ge c s.accepted with hc | hc
  · by_cases hheld : ∃ k q, (k, q) ∈ s.sessions ∧ k.connection = c
    · obtain ⟨k, q, hmem, rfl⟩ := hheld
      obtain ⟨x, hpath, hx⟩ := h.active k q hmem
      have hsaid := session_said hpath
      cases x with
      | waiting => exact .inr (hanswered hsaid)
      | receiving w last =>
          obtain ⟨ns, hns⟩ := hsaid
          exact .inr (hanswered hns)
      | answering w last =>
          obtain ⟨ns, hns⟩ := hsaid
          refine .inr ⟨ns, hns.texts, hns.increasing, hns.positive, .inr ⟨hns.requests, ?_⟩⟩
          exact exists_frame (List.mem_of_mem_filter hmem) hx
      | leaving w =>
          obtain ⟨ns, last, hns⟩ := hsaid
          exact .inr (hanswered hns)
      | refused => exact .inl ⟨hsaid.texts, hsaid.requests⟩
      | closed =>
          rcases hsaid with hbusy | ⟨ns, last, hns⟩
          · exact .inl ⟨hbusy.texts, hbusy.requests⟩
          · exact .inr (hanswered hns)
    · have hclosed := session_said (h.gone c hc fun k q hmem heq => hheld ⟨k, q, hmem, heq⟩)
      rcases hclosed with hbusy | ⟨ns, last, hns⟩
      · exact .inl ⟨hbusy.texts, hbusy.requests⟩
      · exact .inr (hanswered hns)
  · rw [h.fresh c hc]
    exact .inr ⟨[], rfl, .nil, nofun, .inl rfl⟩

/-- Two workers and two clients; one has its answer, and the other one waits for its own. -/
theorem requests_answered_interleaved : ∃ s, ((loopMachine 2).guarded Unwrapped).Reachable s ∧
    (s.session 0).filterMap Event.text? = [response 2] ∧
    (s.session 1).countP Event.isRequest = 1 ∧ (s.session 1).filterMap Event.text? = [] ∧
    ∃ f, some f ∈ s.frames ∧ f.client.connection = 1 := by
  have hrun : (Machine.executeGuarded Unwrapped loopStep (.new 2)
      [.server (.accept 5), .server .enqueue, .server (.notify none), .server (.workerSection 0),
        .server (.accept 6), .server .enqueue, .server (.notify none), .server (.workerSection 1),
        .server (.recv 0 10), .server (.recv 1 20), .server (.getRequestNumber 1),
        .server (.getRequestNumber 0), .server (.respond 0)]).map
      (fun s => ((s.session 0).filterMap Event.text?, (s.session 1).countP Event.isRequest,
        (s.session 1).filterMap Event.text?)) = some ([response 2], 1, []) := by
    decide +kernel
  obtain ⟨s, hexecute, hresult⟩ := Option.map_eq_some_iff.mp hrun
  simp only [Prod.mk.injEq] at hresult
  obtain ⟨hfirst, hrequests, htexts⟩ := hresult
  have hs : ((loopMachine 2).guarded Unwrapped).Reachable s :=
    ⟨_, _, rfl, Machine.path_of_executeGuarded hexecute⟩
  rcases requests_answered hs 1 with ⟨hbusy, -⟩ | ⟨ns, hns, -, -, hanswered | ⟨-, hframe⟩⟩
  · rw [htexts] at hbusy
    cases hbusy
  · rw [htexts] at hns
    rw [List.map_eq_nil_iff.mp hns.symm, hrequests] at hanswered
    cases hanswered
  · exact ⟨s, hs, hfirst, hrequests, htexts, hframe⟩

end PacketForge.ThreadPool
