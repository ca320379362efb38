import PacketForge.ThreadPool.ClientProgram
import PacketForge.ThreadPool.Sessions

set_option autoImplicit false

/-! # A client beside the server

The server with its threads and all its clients (`loopMachine`), and one client that runs
`Version_2/src/Client.cpp` against it (`ClientRun`). The kernel carries the bytes between the two:
the server reads what the client has sent and nothing else, and the client reads what the kernel
has taken from the server. A call may fail at any time, and the kernel may take only a part of
what the server sends; the server does not look.

`visit_reply` is the safety of the exchange: what the client receives was sent to it and to nobody
else. `visit_answered` says that the two do not wait for each other.

## How the proofs go

A `Visit` holds the two processes and nothing that would follow from them: what the server has
done with the client is read off its log (`Visit.session`), and so are the texts it has sent and
the bytes it has read. `visitStep_cases` says what a step adds to that session: nothing, or one
event of the connection.

* `VisitInv` puts the invariants of the two side by side and connects them: the server has read no
  more than the client has sent, the kernel has taken a first part of every text of the session,
  and what the client has received are the first bytes of that. What the texts are is the business
  of `Sessions`: a session has been turned away, or has been answered with increasing numbers
  (`VisitInv.said`).
* For `visit_answered` the kernel takes everything, so that `reply` is the texts of the session
  (`Visit.Whole`) and a client that has got nothing was told nothing. Its connection is then in
  line, or a worker is in `processClient` with it (`WaitInv.served`), and if that worker is in
  `recv`, the whole message is on its way (`WaitInv.pending`).
* A worker in `processClient` has `Phase.toGo` steps to its next word. Its own steps make it
  closer (`attends_own`), the steps of all others leave it where it is (`attends_other`), and its
  next step can be taken (`attends_next`). `attends_path` adds this up along a run.

A signal that ends the process (`SIGPIPE`) is not modelled.
-/

namespace PacketForge.ThreadPool

open ClientProgram

/-! ## The two processes

A step of the visit is a step of the server with what the kernel takes of it, or an answer to the
call that the client is in. What the kernel may answer to the client depends on what the server
has done for it.
-/

/-- The bytes that a call has read. -/
def Event.bytes : Event → Nat
  | .call _ (.recv bytes) _ _ => bytes.toNat
  | _ => 0

def Event.hangsUp : Event → Bool
  | .call _ .close _ _ => true
  | _ => false

/-- What the kernel takes from a call, `none` being all. -/
def Event.delivers (taken : Option Nat) (e : Event) : List Char :=
  match e.text? with
  | none => []
  | some text => text.toList.take (taken.getD text.length)

/-- The server and the client. The `connection` is the one that the server accepts from the
client, and `reply` what the kernel has taken from the server for it. -/
structure Visit where
  server : Process
  client : ClientRun
  connection : Option Nat
  reply : List Char

namespace Visit

/-- What the server has done with the client: the events of its connection, if it was accepted. -/
def session (v : Visit) : List Event :=
  match v.connection with
  | none => []
  | some c => v.server.session c

/-- What the server has sent to the client. -/
def texts (v : Visit) : List String := v.session.filterMap Event.text?

/-- The number of bytes that the server has read from the client. -/
def consumed (v : Visit) : Nat := (v.session.map Event.bytes).sum

/-- The number of bytes on their way to the server. -/
def pending (v : Visit) : Nat := v.client.account.sent.length - v.consumed

/-- The bytes on their way to the client: what was taken from the server and not received yet. -/
def coming (v : Visit) : List Char := v.reply.drop v.client.account.received.flatten.length

def hungUp (v : Visit) : Bool := v.session.any Event.hangsUp

/-- What the server does with the client in a step. -/
def news (v : Visit) (server : Process) : List Event :=
  match v.connection with
  | none => []
  | some c => (server.log.drop v.server.log.length).filter (Event.about c)

/-- The server can read bytes that are on their way, or the end of the stream. `processClient`
leaves place for a zero in its buffer. -/
def Carries (v : Visit) : Event → Prop
  | .call _ (.recv bytes) _ _ =>
    bytes ≤ v.pending ∧ bytes ≤ 1023 ∧
      (bytes = 0 → v.pending = 0 ∧ v.client.account.closes ≠ [])
  | _ => True

/-- The client can receive bytes that are on their way, or the end of the stream. -/
def Brings (v : Visit) (r : Answer) : Prop :=
  match v.client.place with
  | .recv _ =>
    0 ≤ r.value → r.buffer <+: v.coming ∧ (r.buffer = [] → v.coming = [] ∧ v.hungUp = true)
  | _ => True

instance (v : Visit) (e : Event) : Decidable (v.Carries e) := by
  unfold Carries
  split <;> infer_instance

instance (v : Visit) (r : Answer) : Decidable (v.Brings r) := by
  unfold Brings
  split <;> infer_instance

end Visit

inductive VisitAct where
  | client (r : Answer)
  | server (a : LoopAct) (taken : Option Nat)
  | accept (clientSocket : Int)

/-- A step of the client, a step of the server, or the `accept` that gets the client. -/
def visitStep (v : Visit) : VisitAct → Option Visit
  | .client r =>
    if v.Brings r then (v.client.step r).map fun client => { v with client := client } else none
  | .server a taken =>
    (loopStep v.server a).bind fun server =>
      if ∀ e ∈ v.news server, v.Carries e then
        some { v with
          server := server
          reply := v.reply ++ (v.news server).flatMap (Event.delivers taken) }
      else none
  | .accept clientSocket =>
    if v.connection = none ∧ v.client.connected = true then
      (loopStep v.server (.server (.accept clientSocket))).map fun server =>
        { v with server := server, connection := some v.server.accepted }
    else none

/-- The runs of the two. -/
def visitMachine (threadCount : Nat) : Machine Visit VisitAct :=
  .ofStep (fun v => v = ⟨.new threadCount, .start, none, []⟩) visitStep

/-- The request counter does not wrap. -/
def Steady (v : Visit) : VisitAct → Prop
  | .server a _ => Unwrapped v.server a
  | _ => True

/-- The kernel takes all that the server sends. -/
def Lossless (v : Visit) : VisitAct → Prop
  | .server a taken => Unwrapped v.server a ∧ taken = none
  | _ => True

instance (v : Visit) (a : VisitAct) : Decidable (Steady v a) := by
  unfold Steady
  split <;> infer_instance

instance (v : Visit) (a : VisitAct) : Decidable (Lossless v a) := by
  unfold Lossless
  split <;> infer_instance

/-! ## What a step does -/

section

variable {v v' : Visit} {a : VisitAct}

/-- A step of the server adds at most one event to its log. -/
theorem loopStep_log {s s' : Process} {a : LoopAct} (h : loopStep s a = some s') :
    s'.log = s.log ∨ ∃ e, s'.log = s.log ++ [e] := by
  rcases loopStep_cases h with ⟨-, -, rfl⟩ | ⟨b, rfl, hb⟩
  · exact .inl rfl
  · cases hb with
    | reply _ => exact .inr ⟨_, rfl⟩
    | closeRejected _ => exact .inr ⟨_, rfl⟩
    | takes _ _ => exact .inr ⟨_, rfl⟩
    | recv _ => exact .inr ⟨_, rfl⟩
    | respond _ => exact .inr ⟨_, rfl⟩
    | closeServed _ => exact .inr ⟨_, rfl⟩
    | _ => exact .inl rfl

/-- The steps of the two, each with what it finds and what it leaves. -/
inductive VisitStep (v : Visit) : VisitAct → Visit → Prop
  | client {r : Answer} {client : ClientRun} : v.Brings r → v.client.step r = some client →
      VisitStep v (.client r) { v with client := client }
  | silent {a : LoopAct} {taken : Option Nat} {server : Process} :
      loopStep v.server a = some server →
      (∀ c, v.connection = some c → server.session c = v.server.session c) →
      VisitStep v (.server a taken) { v with server := server }
  | acts {a : LoopAct} {taken : Option Nat} {server : Process} {c : Nat} {e : Event} :
      loopStep v.server a = some server → v.connection = some c → v.Carries e →
      server.session c = v.server.session c ++ [e] →
      VisitStep v (.server a taken) { v with
        server := server
        reply := v.reply ++ e.delivers taken }
  | accept {d : Int} {server : Process} : v.connection = none → v.client.connected = true →
      loopStep v.server (.server (.accept d)) = some server →
      VisitStep v (.accept d) { v with server := server, connection := some v.server.accepted }

theorem visitStep_cases (h : visitStep v a = some v') : VisitStep v a v' := by
  cases a with
  | client r =>
      simp only [visitStep] at h
      split_ifs at h with hbrings
      obtain ⟨client, hclient, rfl⟩ := Option.map_eq_some_iff.mp h
      exact .client hbrings hclient
  | accept d =>
      simp only [visitStep] at h
      split_ifs at h with hready
      obtain ⟨server, hserver, rfl⟩ := Option.map_eq_some_iff.mp h
      exact .accept hready.1 hready.2 hserver
  | server a taken =>
      simp only [visitStep] at h
      obtain ⟨server, hserver, hcarries⟩ := Option.bind_eq_some_iff.mp h
      rw [Option.ite_none_right_eq_some] at hcarries
      obtain ⟨hcarries, heq⟩ := hcarries
      obtain rfl := Option.some.inj heq
      rcases Option.eq_none_or_eq_some v.connection with hconnection | ⟨c, hconnection⟩
      · have hnews : v.news server = [] := by rw [Visit.news, hconnection]
        rw [hnews, List.flatMap_nil, List.append_nil]
        exact .silent hserver fun c hc => by rw [hconnection] at hc; cases hc
      · have hnews : v.news server
            = (server.log.drop v.server.log.length).filter (Event.about c) := by
          rw [Visit.news, hconnection]
        rcases loopStep_log hserver with hlog | ⟨e, hlog⟩
        · rw [hlog, List.drop_length, List.filter_nil] at hnews
          rw [hnews, List.flatMap_nil, List.append_nil]
          refine .silent hserver fun c' _ => ?_
          rw [Process.session, hlog, Process.session]
        · rw [hlog, List.drop_left] at hnews
          have hsession : ∀ c', server.session c'
              = v.server.session c' ++ [e].filter (Event.about c') := by
            intro c'
            rw [Process.session, hlog, List.filter_append, Process.session]
          cases habout : e.about c with
          | true =>
              rw [List.filter_singleton, habout, cond_true] at hnews
              rw [hnews, List.flatMap_singleton]
              have he := hcarries e (by rw [hnews]; exact List.mem_singleton_self e)
              refine .acts hserver hconnection he ?_
              rw [hsession, List.filter_singleton, habout, cond_true]
          | false =>
              rw [List.filter_singleton, habout, cond_false] at hnews
              rw [hnews, List.flatMap_nil, List.append_nil]
              refine .silent hserver fun c' hc' => ?_
              obtain rfl : c = c' := Option.some.inj (hconnection.symm.trans hc')
              rw [hsession, List.filter_singleton, habout, cond_false, List.append_nil]

end

/-! ## Texts and bytes

What the kernel takes is described text by text, since it may cut each of them.
-/

/-- Of every text a first part was taken, and `reply` is these parts, one behind the other. -/
def Delivered (texts : List String) (reply : List Char) : Prop :=
  ∃ parts : List (List Char),
    List.Forall₂ (fun text part => part <+: text.toList) texts parts ∧ reply = parts.flatten

theorem Delivered.nil : Delivered [] [] := ⟨[], .nil, rfl⟩

/-- What an event adds. -/
theorem Delivered.event {es : List Event} {reply : List Char}
    (h : Delivered (es.filterMap Event.text?) reply) (e : Event) (taken : Option Nat) :
    Delivered ((es ++ [e]).filterMap Event.text?) (reply ++ e.delivers taken) := by
  cases htext : e.text? with
  | none =>
      rw [List.filterMap_append, List.filterMap_cons_none htext, List.filterMap_nil,
        List.append_nil, Event.delivers, htext, List.append_nil]
      exact h
  | some text =>
      obtain ⟨parts, hparts, rfl⟩ := h
      refine ⟨parts ++ [e.delivers taken], ?_, by simp⟩
      rw [List.filterMap_append, List.filterMap_cons_some htext, List.filterMap_nil]
      refine List.rel_append hparts (.cons ?_ .nil)
      rw [Event.delivers, htext]
      exact List.take_prefix _ _

/-- A request has at least one byte. -/
theorem requests_le_bytes (es : List Event) :
    es.countP Event.isRequest ≤ (es.map Event.bytes).sum := by
  induction es with
  | nil => exact le_refl 0
  | cons e es ih =>
      rw [List.countP_cons, List.map_cons, List.sum_cons]
      have hone : (if e.isRequest = true then 1 else 0) ≤ e.bytes := by
        split_ifs with hrequest
        · unfold Event.isRequest at hrequest
          split at hrequest
          · simp only [decide_eq_true_eq] at hrequest
            show 1 ≤ Int.toNat _
            omega
          · cases hrequest
        · exact Nat.zero_le _
      omega

theorem bytes_eq_zero {es : List Event} (h : es.countP Event.isRequest = 0) :
    (es.map Event.bytes).sum = 0 := by
  induction es with
  | nil => rfl
  | cons e es ih =>
      rw [List.countP_cons] at h
      have hnone : ¬ e.isRequest = true := by
        intro hrequest
        rw [if_pos hrequest] at h
        omega
      rw [if_neg hnone] at h
      rw [List.map_cons, List.sum_cons, ih h]
      cases e with
      | took w k => rfl
      | call thread call k target =>
          cases call with
          | recv bytes =>
              simp only [Event.isRequest, decide_eq_true_eq] at hnone
              show bytes.toNat + 0 = 0
              omega
          | _ => rfl

/-! ## Sessions that have ended

The log of the server is all that a visit has of the past, so what happened before a `close` has
to be read off it.
-/

/-- A session whose socket is closed is at its end. -/
theorem closed_of_hangsUp {c : Nat} {es : List Event} {x : Session}
    (hp : (sessionMachine c).Path .waiting es x) (h : es.any Event.hangsUp = true) :
    x = .closed := by
  induction hp with
  | nil => cases h
  | snoc _ hstep ih =>
      rw [List.any_append, Bool.or_eq_true] at h
      rcases h with hbefore | hnow
      · rw [ih hbefore] at hstep
        cases hstep
      · cases hstep with
        | close => rfl
        | closeRefused => rfl
        | _ => cases hnow

theorem SessionsInv.path {s : Process} (h : SessionsInv s) {c : Nat} (hc : c < s.accepted) :
    ∃ x, (sessionMachine c).Path .waiting (s.session c) x := by
  by_cases hheld : ∃ k q, (k, q) ∈ s.sessions ∧ k.connection = c
  · obtain ⟨k, q, hmem, rfl⟩ := hheld
    obtain ⟨x, hpath, -⟩ := h.active k q hmem
    exact ⟨x, hpath⟩
  · exact ⟨.closed, h.gone c hc fun k q hmem heq => hheld ⟨k, q, hmem, heq⟩⟩

/-- Nothing happens to a connection after it was closed. -/
theorem not_hungUp_of_append {s : Process} (h : SessionsInv s) {c : Nat} (hc : c < s.accepted)
    {es : List Event} {e : Event} (hsession : s.session c = es ++ [e]) :
    es.any Event.hangsUp = false := by
  obtain ⟨x, hpath⟩ := h.path hc
  rw [hsession] at hpath
  generalize hlast : es ++ [e] = as at hpath
  cases hpath with
  | nil => exact absurd hlast (List.concat_ne_nil e es)
  | snoc hbefore hstep =>
      obtain ⟨rfl, -⟩ := List.append_inj' hlast rfl
      cases hany : es.any Event.hangsUp with
      | false => rfl
      | true =>
          rw [closed_of_hangsUp hbefore hany] at hstep
          cases hstep

/-! ## The invariant -/

/-- What holds of the two at any time: the invariants of the server and of the client; that the
server has read no more than the client has sent; that the kernel has taken a first part of every
text of the session; and that what the client has received are the first bytes of that, or the end
of the stream after a `close`. -/
structure VisitInv (threadCount : Nat) (v : Visit) : Prop where
  service : ServiceInv threadCount v.server
  sessions : SessionsInv v.server
  client : v.client.Inv
  known : ∀ c, v.connection = some c → c < v.server.accepted
  consumed : v.consumed ≤ v.client.account.sent.length
  reply : Delivered (v.session.filterMap Event.text?) v.reply
  received : v.client.account.received.flatten <+: v.reply
  ended : [] ∈ v.client.account.received → v.reply = [] ∧ v.hungUp = true

section

variable {v v' : Visit} {threadCount : Nat}

theorem visit_session {c : Nat} (hc : v.connection = some c) : v.session = v.server.session c := by
  rw [Visit.session, hc]

theorem silent_session {server : Process}
    (h : ∀ c, v.connection = some c → server.session c = v.server.session c) :
    ({ v with server := server } : Visit).session = v.session := by
  rcases Option.eq_none_or_eq_some v.connection with hnone | ⟨c, hc⟩
  · simp only [Visit.session, hnone]
  · simp only [Visit.session, hc, h c hc]

theorem accept_step {d : Int} {s s' : Process}
    (hs : loopStep s (.server (.accept d)) = some s') :
    s'.accepted = s.accepted + 1 ∧ s'.log = s.log := by
  cases serverStep_cases (a := .accept d) hs
  exact ⟨rfl, rfl⟩

/-- The session of the client starts with nothing. -/
theorem accept_session {d : Int} {server : Process} (h : SessionsInv v.server)
    (hnone : v.connection = none) (hs : loopStep v.server (.server (.accept d)) = some server) :
    ({ v with server := server, connection := some v.server.accepted } : Visit).session
      = v.session := by
  have hbefore : v.session = [] := by rw [Visit.session, hnone]
  rw [hbefore, visit_session rfl, ← h.fresh _ (le_refl _)]
  show server.log.filter _ = v.server.log.filter _
  rw [(accept_step hs).2]

/-- A step of the server keeps the invariants of its clients and of their sessions, and takes no
connection back. -/
theorem sessions_step {a : LoopAct} {server : Process} (h : VisitInv threadCount v)
    (ha : Unwrapped v.server a) (hs : loopStep v.server a = some server) :
    ServiceInv threadCount server ∧ SessionsInv server ∧
      v.server.accepted ≤ server.accepted := by
  have hadvances := advances_of_step h.service ha hs
  refine ⟨h.service.step hs, h.sessions.advances (counter_le ha hs) hadvances, ?_⟩
  cases hadvances with
  | idle _ _ haccepted => exact haccepted.ge
  | arrives _ _ hk =>
      rcases hk with ⟨-, haccepted⟩ | ⟨-, -, haccepted⟩
      · exact haccepted.ge
      · rw [haccepted]
        exact Nat.le_succ _
  | acts _ _ _ _ _ _ _ haccepted => exact haccepted.ge

/-- What the client receives comes after what it has received. -/
theorem brought_coming {r : Answer} {call : SysCall}
    (hreceived : v.client.account.received.flatten <+: v.reply) (hbrings : v.Brings r)
    (hcall : v.client.place.call = some call) (hr : Possible r call) :
    v.client.account.received.flatten ++ (brought (call, r)).toList.flatten <+: v.reply ∧
      ([] ∈ (brought (call, r)).toList → v.coming = [] ∧ v.hungUp = true) := by
  cases hplace : v.client.place with
  | recv sock =>
      rw [hplace] at hcall
      obtain rfl := Option.some.inj hcall
      rw [Visit.Brings, hplace] at hbrings
      by_cases hfailed : r.value = -1
      · rw [brought, if_pos hfailed]
        exact ⟨by simpa using hreceived, fun hnil => by cases hnil⟩
      · obtain ⟨hvalue, -⟩ := hr.resolve_left hfailed
        obtain ⟨hcoming, hend⟩ := hbrings (by omega)
        have hlength : r.value.toNat = r.buffer.length := by omega
        rw [brought, if_neg hfailed, hlength, List.take_length]
        refine ⟨?_, fun hnil => hend (List.mem_singleton.mp hnil).symm⟩
        obtain ⟨rest, hrest⟩ := hreceived
        rw [Visit.coming, ← hrest, List.drop_left] at hcoming
        rw [← hrest, Option.toList_some, List.flatten_singleton]
        exact (List.prefix_append_right_inj _).mpr hcoming
  | _ =>
      have hnone : brought (call, r) = none := by
        rw [hplace] at hcall
        cases hcall <;> rfl
      rw [hnone]
      exact ⟨by simpa using hreceived, fun hnil => by cases hnil⟩

/-- The server reads no more than what is on its way. -/
theorem carried_bytes {e : Event} (h : v.Carries e) : e.bytes ≤ v.pending := by
  cases e with
  | took w k => exact Nat.zero_le _
  | call thread call k target =>
      cases call with
      | recv bytes =>
          have hle : bytes ≤ v.pending := h.1
          show bytes.toNat ≤ v.pending
          omega
      | _ => exact Nat.zero_le _

theorem VisitInv.client_step {r : Answer} {client : ClientRun} (h : VisitInv threadCount v)
    (hbrings : v.Brings r) (hs : v.client.step r = some client) :
    VisitInv threadCount { v with client := client } := by
  obtain ⟨call, hcall, hr, hsent, hreceived⟩ := account_step hs
  refine ⟨h.service, h.sessions, h.client.step hs, h.known, ?_, h.reply, ?_, ?_⟩
  · have hconsumed := h.consumed
    show v.consumed ≤ client.account.sent.length
    rw [hsent, List.length_append]
    omega
  · show client.account.received.flatten <+: v.reply
    rw [hreceived, List.flatten_append]
    exact (brought_coming h.received hbrings hcall hr).1
  · intro hnil
    show v.reply = [] ∧ v.hungUp = true
    rw [hreceived, List.mem_append] at hnil
    rcases hnil with hbefore | hnow
    · exact h.ended hbefore
    · obtain ⟨hcoming, hungUp⟩ := (brought_coming h.received hbrings hcall hr).2 hnow
      have hfirst : v.client.account.received = [] := by
        refine received_of_brought h.client.shows hcall (r := r) fun hnone => ?_
        rw [hnone] at hnow
        cases hnow
      rw [Visit.coming, hfirst] at hcoming
      exact ⟨hcoming, hungUp⟩

theorem VisitInv.server_step {a : LoopAct} {server : Process} (h : VisitInv threadCount v)
    (ha : Unwrapped v.server a) (hs : loopStep v.server a = some server) (reply : List Char)
    (hconsumed : ({ v with server := server } : Visit).consumed ≤ v.client.account.sent.length)
    (hreply : Delivered (({ v with server := server } : Visit).session.filterMap Event.text?)
      (v.reply ++ reply))
    (hended : v.hungUp = true → reply = [] ∧ ({ v with server := server } : Visit).hungUp = true) :
    VisitInv threadCount { v with server := server, reply := v.reply ++ reply } := by
  obtain ⟨hservice, hsessions, haccepted⟩ := sessions_step h ha hs
  refine ⟨hservice, hsessions, h.client, fun c hc => (h.known c hc).trans_le haccepted, hconsumed,
    hreply, h.received.trans (List.prefix_append _ _), fun hnil => ?_⟩
  obtain ⟨hreply, hungUp⟩ := h.ended hnil
  obtain ⟨hnone, hungUp⟩ := hended hungUp
  exact ⟨by rw [hreply, hnone]; rfl, hungUp⟩

theorem VisitInv.step {a : VisitAct} (h : VisitInv threadCount v) (ha : Steady v a)
    (hs : visitStep v a = some v') : VisitInv threadCount v' := by
  cases visitStep_cases hs with
  | client hbrings hclient => exact h.client_step hbrings hclient
  | @silent a taken server hserver hsilent =>
      have hsession := silent_session hsilent
      have hstep := h.server_step ha hserver []
        (by rw [Visit.consumed, hsession]; exact h.consumed)
        (by rw [hsession, List.append_nil]; exact h.reply)
        (fun hungUp => ⟨rfl, by rw [Visit.hungUp, hsession]; exact hungUp⟩)
      rwa [List.append_nil] at hstep
  | @acts a taken server c e hserver hc hcarries hacts =>
      have hsession : ({ v with server := server } : Visit).session = v.session ++ [e] := by
        rw [visit_session (v := v) hc, ← hacts]
        exact visit_session hc
      obtain ⟨-, hsessions, haccepted⟩ := sessions_step h ha hserver
      have hopen : v.hungUp = false := by
        rw [Visit.hungUp, visit_session hc]
        exact not_hungUp_of_append hsessions ((h.known c hc).trans_le haccepted) hacts
      refine h.server_step ha hserver _ ?_ ?_ ?_
      · have hconsumed := h.consumed
        rw [Visit.consumed, hsession, List.map_append, List.sum_append]
        show v.consumed + ([e].map Event.bytes).sum ≤ _
        have hbytes := carried_bytes hcarries
        rw [Visit.pending] at hbytes
        rw [List.map_singleton, List.sum_singleton]
        omega
      · rw [hsession]
        exact h.reply.event e taken
      · intro hungUp
        rw [hopen] at hungUp
        cases hungUp
  | @accept d server hnone hconnected hserver =>
      obtain ⟨hservice, hsessions, -⟩ :=
        sessions_step (a := .server (.accept d)) h trivial hserver
      have hnext := (accept_step hserver).1
      have hsession := accept_session h.sessions hnone hserver
      refine ⟨hservice, hsessions, h.client, ?_, ?_, ?_, h.received, ?_⟩
      · intro c hc
        obtain rfl := Option.some.inj hc
        show v.server.accepted < server.accepted
        omega
      · rw [Visit.consumed, hsession]
        exact h.consumed
      · rw [hsession]
        exact h.reply
      · rw [Visit.hungUp, hsession]
        exact h.ended

end

theorem reachable_visitInv {threadCount : Nat} {v : Visit}
    (hs : ((visitMachine threadCount).guarded Steady).Reachable v) : VisitInv threadCount v := by
  refine Machine.invariant (M := (visitMachine threadCount).guarded Steady)
    (VisitInv threadCount) ?_ ?_ hs
  · rintro v rfl
    exact ⟨new_serviceInv threadCount, new_sessionsInv threadCount,
      ClientProgram.reachable_inv ⟨_, [], rfl, .nil _⟩, fun c hc => (by cases hc), le_refl 0,
      Delivered.nil, List.prefix_rfl, fun hnil => (by cases hnil)⟩
  · rintro v a v' h ⟨ha, hstep⟩
    exact h.step ha hstep

/-! ## What the client receives -/

theorem Session.Said.cases {es : List Event} {x : Session} (h : x.Said es) :
    TurnedBusy es ∨ ∃ ns last pending, AnsweredUpTo es ns last pending := by
  cases x with
  | waiting => exact .inr ⟨_, _, _, h⟩
  | receiving w last =>
      obtain ⟨ns, hns⟩ := h
      exact .inr ⟨ns, last, 0, hns⟩
  | answering w last =>
      obtain ⟨ns, hns⟩ := h
      exact .inr ⟨ns, last, 1, hns⟩
  | leaving w =>
      obtain ⟨ns, last, hns⟩ := h
      exact .inr ⟨ns, last, 0, hns⟩
  | refused => exact .inl h
  | closed =>
      rcases h with hbusy | ⟨ns, last, hns⟩
      · exact .inl hbusy
      · exact .inr ⟨ns, last, 0, hns⟩

/-- What the server has said to the client. -/
theorem VisitInv.said {threadCount : Nat} {v : Visit} (h : VisitInv threadCount v) :
    TurnedBusy v.session ∨ ∃ ns last pending, AnsweredUpTo v.session ns last pending := by
  rcases Option.eq_none_or_eq_some v.connection with hnone | ⟨c, hc⟩
  · have hsession : v.session = [] := by rw [Visit.session, hnone]
    rw [hsession]
    exact .inr ⟨[], 0, 0, rfl, rfl, .nil, nofun, nofun, Int32.le_refl _⟩
  · obtain ⟨x, hpath⟩ := h.sessions.path (h.known c hc)
    rw [visit_session hc]
    exact (session_said hpath).cases

/-- **A client receives what was sent to it.** However the threads of the server, its other
clients and this client interleave, whatever the system calls return and however the bytes are
cut, as long as the counter does not wrap: the server reads bytes that the client has sent; what
it sends is "Server busy", and nothing was read, or responses with positive increasing numbers, at
most one for each byte it has read; the kernel takes a first part of each of these texts; what the
client receives and prints are the first bytes of what was taken; and the client is told that the
server closed the connection only if the server did, and nothing was taken from it before. -/
theorem visit_reply {threadCount : Nat} {v : Visit}
    (hs : ((visitMachine threadCount).guarded Steady).Reachable v) :
    v.consumed ≤ v.client.account.sent.length ∧
    ((v.consumed = 0 ∧ v.texts = [busy]) ∨
      ∃ ns : List Int32, ns.Pairwise (· < ·) ∧ (∀ n ∈ ns, 0 < n) ∧ ns.length ≤ v.consumed ∧
        v.texts = ns.map response) ∧
    Delivered v.texts v.reply ∧
    ∀ text ∈ v.client.account.received, text.length ≤ BUFFER_SIZE ∧
      replyLine text ∈ v.client.cout ∧ text <+: v.reply ∧
      (text = [] → v.reply = [] ∧ v.hungUp = true) := by
  have h := reachable_visitInv hs
  refine ⟨h.consumed, ?_, h.reply, fun text htext => ?_⟩
  · rcases h.said with hbusy | ⟨ns, last, pending, hns⟩
    · exact .inl ⟨bytes_eq_zero hbusy.requests, hbusy.texts⟩
    · refine .inr ⟨ns, hns.increasing, hns.positive, ?_, hns.texts⟩
      have hrequests := hns.requests
      have hbytes := requests_le_bytes v.session
      rw [Visit.consumed]
      omega
  · obtain ⟨hreceived, hlength, hprinted⟩ := h.client.shows.received htext
    refine ⟨hlength, hprinted, ?_, ?_⟩
    · have hfirst := h.received
      rwa [hreceived, List.flatten_singleton] at hfirst
    · rintro rfl
      exact h.ended htext

/-- The client gets the beginning of its response; its message came in two parts, and another
client was answered in between. -/
theorem visit_reply_cut : ∃ v, ((visitMachine 2).guarded Steady).Reachable v ∧
    v.client.account.received = ["Request #".toList] ∧ v.consumed = 5 ∧
    v.texts = [response 2] ∧ v.reply = (response 2).toList ∧
    replyLine "Request #".toList ∈ v.client.cout ∧ "Request #".toList <+: v.reply := by
  have hrun : (Machine.executeGuarded Steady visitStep ⟨.new 2, .start, none, []⟩
      [.server (.server (.accept 5)) none, .server (.server .enqueue) none,
        .server (.server (.notify none)) none, .server (.server (.workerSection 0)) none,
        .client ⟨3, .EINTR, []⟩, .client ⟨1, .EINTR, []⟩, .client ⟨0, .EINTR, []⟩,
        .client ⟨5, .EINTR, []⟩, .accept 6, .server (.server .enqueue) none,
        .server (.server (.notify none)) none, .server (.server (.workerSection 1)) none,
        .server (.server (.recv 1 5)) none, .server (.server (.recv 0 20)) none,
        .server (.server (.getRequestNumber 0)) none,
        .server (.server (.getRequestNumber 1)) none, .server (.server (.respond 1)) none,
        .server (.server (.respond 0)) none, .client ⟨7, .EINTR, []⟩,
        .client ⟨9, .EINTR, "Request #".toList⟩]).map
      (fun v => (v.client.account.received, v.consumed, v.texts, v.reply))
      = some (["Request #".toList], 5, [response 2], (response 2).toList) := by
    decide +kernel
  obtain ⟨v, hexecute, hresult⟩ := Option.map_eq_some_iff.mp hrun
  simp only [Prod.mk.injEq] at hresult
  obtain ⟨hreceived, hconsumed, htexts, hreply⟩ := hresult
  have hs : ((visitMachine 2).guarded Steady).Reachable v :=
    ⟨_, _, rfl, Machine.path_of_executeGuarded hexecute⟩
  obtain ⟨-, hprinted, hfirst, -⟩ := (visit_reply hs).2.2.2 "Request #".toList
    (by rw [hreceived]; exact List.mem_singleton_self _)
  exact ⟨v, hs, hreceived, hconsumed, htexts, hreply, hprinted, hfirst⟩

/-! ## What the workers do with a client -/

/-- The worker that acts in `processClient`. -/
def ServerAct.worker? : ServerAct → Option Nat
  | .recv w _ => some w
  | .getRequestNumber w => some w
  | .respond w => some w
  | .closeServed w => some w
  | _ => none

def VisitAct.worker? : VisitAct → Option Nat
  | .server (.server a) _ => a.worker?
  | _ => none

/-- The `recv` of the worker `w` does not fail. -/
def ServerAct.Hears (w : Nat) : ServerAct → Prop
  | .recv w' bytes => w' = w → 0 ≤ bytes
  | _ => True

def VisitAct.Hears (w : Nat) : VisitAct → Prop
  | .server (.server a) _ => a.Hears w
  | _ => True

/-- The worker `w` is in `processClient` with the client, in the given phase. -/
structure Attends (w : Nat) (k : Client) (phase : Phase) (v : Visit) : Prop where
  frame : v.server.frames[w]? = some (some ⟨k, phase⟩)
  connected : k.connected = true
  connection : v.connection = some k.connection

/-- The steps to the next word of the worker: `recv`, the number, `send`, or the `close`. -/
def Phase.toGo : Phase → Nat
  | .receiving => 3
  | .numbering => 2
  | .responding _ => 1
  | .closing => 1

theorem frame_of_situation {s : Process} {k : Client} {w : Nat} {phase : Phase}
    (h : (k, .serving w phase) ∈ s.situations) : s.frames[w]? = some (some ⟨k, phase⟩) := by
  simp only [Process.situations, List.mem_append, Option.mem_toList, List.mem_map] at h
  rcases h with hmain | ⟨k', -, heq⟩ | hframe
  · cases hs : s.main <;> rw [hs] at hmain <;> cases hmain
  · cases heq
  · obtain ⟨f, hf, heq⟩ := List.mem_filterMap.mp hframe
    obtain ⟨v, hlt, rfl⟩ := List.mem_mapIdx.mp hf
    obtain ⟨frame, hget, heq⟩ := Option.map_eq_some_iff.mp heq
    cases heq
    rw [List.getElem?_eq_getElem hlt, hget]

theorem situation_of_frame {s : Process} {k : Client} {w : Nat} {phase : Phase}
    (h : s.frames[w]? = some (some ⟨k, phase⟩)) : (k, .serving w phase) ∈ s.situations := by
  simp only [Process.situations, List.mem_append]
  right
  right
  refine List.mem_filterMap.mpr ⟨some (k, .serving w phase), List.mem_of_getElem? (i := w) ?_, rfl⟩
  rw [List.getElem?_mapIdx, h]
  rfl

/-- A frame changes in the steps of its worker only. -/
theorem frame_of_step {s s' : Process} {a : ServerAct} {w : Nat} {f : Frame} (h : Linked s)
    (hs : ServerStep s a s') (hw : a.worker? ≠ some w) (hget : s.frames[w]? = some (some f)) :
    s'.frames[w]? = some (some f) := by
  have hne : ∀ {w' : Nat}, a.worker? = some w' → w' ≠ w := by
    rintro w' hw' rfl
    exact hw hw'
  cases hs with
  | @takes w' k b pool hpool hrunning =>
      rcases step_workerSection_cases hpool with ⟨-, hidle⟩ | ⟨k', hawake, -⟩
      · exact absurd hrunning (hidle k b)
      · -- the worker that takes a task has no frame
        have hother : w' ≠ w := by
          rintro rfl
          cases hget.symm.trans (h.idle hawake)
        show (s.frames.set w' _)[w]? = _
        rw [List.getElem?_set_ne hother, hget]
  | recv _ => exact (List.getElem?_set_ne (hne rfl)).trans hget
  | getRequestNumber _ => exact (List.getElem?_set_ne (hne rfl)).trans hget
  | respond _ => exact (List.getElem?_set_ne (hne rfl)).trans hget
  | closeServed _ => exact (List.getElem?_set_ne (hne rfl)).trans hget
  | _ => exact hget

/-! ## Nobody waits for ever -/

/-- There is something to receive for the client, if only the end of the stream. -/
def Visit.Ready (v : Visit) : Prop := v.coming ≠ [] ∨ v.hungUp = true

instance (v : Visit) : Decidable v.Ready :=
  inferInstanceAs (Decidable (v.coming ≠ [] ∨ v.hungUp = true))

/-- The client goes on waiting, the kernel takes all that the server sends, the counter does not
wrap, and the `recv` of the worker `w` does not fail. -/
def Uninterrupted (w : Nat) (v : Visit) (a : VisitAct) : Prop :=
  (∀ r, a ≠ .client r) ∧ Lossless v a ∧ a.Hears w

/-- However the server and its other clients go on while the client waits, the worker `w` makes
something ready for it with at most `n` steps of its own, and until then the next of them can be
taken. -/
def AnswersWithin (threadCount w n : Nat) (v : Visit) : Prop :=
  ∀ as v', ((visitMachine threadCount).guarded (Uninterrupted w)).Path v as v' →
    v'.Ready ∨ as.countP (·.worker? = some w) < n ∧
      ∃ a v'', a.worker? = some w ∧ a.Hears w ∧
        visitStep v' (.server (.server a) none) = some v''

/-- A session comes to its end with a `close`. -/
theorem hangsUp_of_closed {c : Nat} {es : List Event}
    (hp : (sessionMachine c).Path .waiting es .closed) : es.any Event.hangsUp = true := by
  generalize hx : Session.closed = x at hp
  cases hp with
  | nil => cases hx
  | snoc _ hstep =>
      subst hx
      rw [List.any_append, Bool.or_eq_true]
      right
      cases hstep <;> rfl

theorem response_toList (requestId : Int32) : (response requestId).toList ≠ [] := by
  simp [response]

theorem delivers_none {e : Event} {text : String} (h : e.text? = some text) :
    e.delivers none = text.toList := by
  rw [Event.delivers, h]
  show text.toList.take text.length = text.toList
  rw [← String.length_toList, List.take_length]

/-! ### A kernel that takes everything -/

theorem Lossless.steady {v : Visit} {a : VisitAct} (h : Lossless v a) : Steady v a := by
  cases a with
  | client r => trivial
  | server a taken => exact h.1
  | accept d => trivial

/-- The kernel has taken all texts of the session, each to its end. -/
def Visit.Whole (v : Visit) : Prop :=
  v.reply = (v.session.filterMap Event.text?).flatMap String.toList

theorem Visit.Whole.step {threadCount : Nat} {v v' : Visit} {a : VisitAct} (hwhole : v.Whole)
    (h : VisitInv threadCount v) (ha : Lossless v a) (hs : visitStep v a = some v') : v'.Whole := by
  cases visitStep_cases hs with
  | client _ _ => exact hwhole
  | @silent a taken server hserver hsilent =>
      rw [Visit.Whole, silent_session hsilent]
      exact hwhole
  | @acts a taken server c e hserver hc _ hacts =>
      obtain rfl : taken = none := ha.2
      simp only [Visit.Whole, Visit.session, hc, hacts] at hwhole ⊢
      rw [hwhole, List.filterMap_append, List.flatMap_append]
      congr 1
      cases htext : e.text? with
      | none =>
          rw [Event.delivers, htext, List.filterMap_cons_none htext]
          rfl
      | some text =>
          rw [delivers_none htext, List.filterMap_cons_some htext, List.filterMap_nil,
            List.flatMap_singleton]
  | accept hnone _ hserver =>
      rw [Visit.Whole, accept_session h.sessions hnone hserver]
      exact hwhole

theorem reachable_whole {threadCount : Nat} {v : Visit}
    (hs : ((visitMachine threadCount).guarded Lossless).Reachable v) :
    VisitInv threadCount v ∧ v.Whole := by
  refine Machine.invariant (M := (visitMachine threadCount).guarded Lossless)
    (fun v => VisitInv threadCount v ∧ v.Whole) ?_ ?_ hs
  · rintro v rfl
    exact ⟨reachable_visitInv ⟨_, [], rfl, .nil _⟩, rfl⟩
  · rintro v a v' ⟨h, hwhole⟩ ⟨ha, hstep⟩
    exact ⟨h.step ha.steady hstep, hwhole.step h ha hstep⟩

/-! ### While the client waits -/

/-- What holds while the client is in `recv`, with a kernel that takes all that the server sends.
-/
structure WaitInv (threadCount : Nat) (sock : Int) (v : Visit) : Prop where
  inv : VisitInv threadCount v
  whole : v.Whole
  place : v.client.place = .recv sock

section

variable {threadCount w : Nat} {sock : Int} {v v' : Visit} {a : VisitAct} {k : Client}
  {phase : Phase}

/-- The client has sent its message and nothing else, and has received nothing. -/
theorem WaitInv.account (h : WaitInv threadCount sock v) :
    v.client.account.sent.length = 12 ∧ v.client.account.received = [] ∧
      v.client.account.closes = [] := by
  have hshows := h.inv.client.shows
  rw [h.place] at hshows
  rw [hshows]
  exact ⟨rfl, rfl, rfl⟩

theorem WaitInv.coming (h : WaitInv threadCount sock v) : v.coming = v.reply := by
  rw [Visit.coming, h.account.2.1]
  rfl

/-- As long as the client does not move, only the server adds to the two. -/
theorem uninterrupted_cases (ha : Uninterrupted w v a) (hs : visitStep v a = some v') :
    v'.client = v.client ∧ v.reply <+: v'.reply ∧
      (∀ c, v.connection = some c →
        v'.connection = some c ∧ v.session <+: v'.session) := by
  cases visitStep_cases hs with
  | client _ _ => exact absurd rfl (ha.1 _)
  | silent _ hsilent =>
      refine ⟨rfl, List.prefix_rfl, fun c hc => ⟨hc, ?_⟩⟩
      rw [silent_session hsilent]
  | @acts _ _ _ c e _ hc _ hacts =>
      refine ⟨rfl, List.prefix_append _ _, fun c' hc' => ⟨hc', ?_⟩⟩
      simp only [Visit.session, hc, hacts]
      exact List.prefix_append _ _
  | accept hnone _ _ =>
      refine ⟨rfl, List.prefix_rfl, fun c hc => ?_⟩
      rw [hnone] at hc
      cases hc

theorem WaitInv.step (h : WaitInv threadCount sock v) (ha : Uninterrupted w v a)
    (hs : visitStep v a = some v') : WaitInv threadCount sock v' where
  inv := h.inv.step ha.2.1.steady hs
  whole := h.whole.step h.inv ha.2.1 hs
  place := by rw [(uninterrupted_cases ha hs).1, h.place]

/-- What is ready stays ready. -/
theorem WaitInv.ready_step (h : WaitInv threadCount sock v) (ha : Uninterrupted w v a)
    (hs : visitStep v a = some v') (hready : v.Ready) : v'.Ready := by
  obtain ⟨-, hreply, hconnection⟩ := uninterrupted_cases ha hs
  rcases hready with hcoming | hungUp
  · left
    rw [(h.step ha hs).coming]
    rw [h.coming] at hcoming
    intro hnil
    rw [hnil] at hreply
    exact hcoming (List.prefix_nil.mp hreply)
  · right
    rcases Option.eq_none_or_eq_some v.connection with hnone | ⟨c, hc⟩
    · rw [Visit.hungUp, Visit.session, hnone] at hungUp
      cases hungUp
    · obtain ⟨more, hmore⟩ := (hconnection c hc).2
      rw [Visit.hungUp] at hungUp
      rw [Visit.hungUp, ← hmore, List.any_append, hungUp]
      rfl

/-- As long as nothing is ready, nothing was said. -/
theorem WaitInv.quiet (h : WaitInv threadCount sock v) (hready : ¬ v.Ready) :
    (∀ text ∈ v.session.filterMap Event.text?, text.toList = []) ∧
      v.session.any Event.hangsUp = false := by
  constructor
  · have hreply : v.reply = [] := by
      by_contra hne
      exact hready (.inl (by rwa [h.coming]))
    have hwhole := h.whole
    rw [Visit.Whole, hreply] at hwhole
    exact List.flatMap_eq_nil_iff.mp hwhole.symm
  · cases hany : v.session.any Event.hangsUp with
    | false => rfl
    | true => exact absurd (Or.inr hany) hready

/-- As long as nothing is ready, a worker in `recv` finds the whole message. -/
theorem WaitInv.pending (h : WaitInv threadCount sock v) (hready : ¬ v.Ready)
    (hw : Attends w k .receiving v) : v.pending = 12 := by
  obtain ⟨hsilent, -⟩ := h.quiet hready
  have hsession := visit_session hw.connection
  rw [hsession] at hsilent
  have hmem : (k, .serving w .receiving) ∈ v.server.sessions :=
    List.mem_filter.mpr ⟨situation_of_frame hw.frame, hw.connected⟩
  obtain ⟨x, hpath, hx⟩ := h.inv.sessions.active k _ hmem
  have hsaid := session_said hpath
  obtain ⟨last, -, rfl⟩ := hx
  obtain ⟨ns, hns⟩ := hsaid
  have hnil : ns = [] := by
    rcases List.eq_nil_or_concat ns with hnil | ⟨ns', n, rfl⟩
    · exact hnil
    · refine absurd (hsilent (response n) ?_) (response_toList n)
      rw [hns.texts, List.concat_eq_append]
      simp
  have hnone : (v.server.session k.connection).countP Event.isRequest = 0 := by
    rw [hns.requests, hnil]
    rfl
  rw [Visit.pending, Visit.consumed, hsession, bytes_eq_zero hnone, h.account.1]

/-- As long as nothing is ready, the client is in line or a worker is in `processClient` with it. -/
theorem WaitInv.served (h : WaitInv threadCount sock v) (hready : ¬ v.Ready) :
    v.connection = none ∨ ∃ k q, (k, q) ∈ v.server.situations ∧ k.connected = true ∧
      v.connection = some k.connection ∧ (q = .waiting ∨ ∃ w phase, q = .serving w phase) := by
  obtain ⟨hsilent, hopen⟩ := h.quiet hready
  rcases Option.eq_none_or_eq_some v.connection with hnone | ⟨c, hc⟩
  · exact .inl hnone
  right
  rw [visit_session hc] at hsilent hopen
  by_cases hheld : ∃ k q, (k, q) ∈ v.server.sessions ∧ k.connection = c
  · obtain ⟨k, q, hmem, rfl⟩ := hheld
    obtain ⟨hsituation, hk⟩ := List.mem_filter.mp hmem
    refine ⟨k, q, hsituation, hk, hc, ?_⟩
    cases q with
    | waiting => exact .inl rfl
    | serving w phase => exact .inr ⟨w, phase, rfl⟩
    | refused =>
        -- a client that was refused has been told so
        obtain ⟨x, hpath, hx⟩ := h.inv.sessions.active k _ hmem
        obtain rfl : x = .refused := hx
        have hbusy := hsilent busy
          (by rw [(session_said hpath).texts]; exact List.mem_singleton_self _)
        cases hbusy
  · have hgone := h.inv.sessions.gone c (h.inv.known c hc)
      fun k q hmem heq => hheld ⟨k, q, hmem, heq⟩
    rw [hangsUp_of_closed hgone] at hopen
    cases hopen

end

/-! ### The steps of the worker -/

section

variable {threadCount w c : Nat} {sock : Int} {v v' : Visit} {k : Client} {phase : Phase}

/-- A call on the socket of the client. -/
theorem visitStep_call {a : LoopAct} {server : Process} {e : Event} (taken : Option Nat)
    (hs : loopStep v.server a = some server) (hc : v.connection = some c)
    (hlog : server.log = v.server.log ++ [e]) (habout : e.about c = true) :
    visitStep v (.server a taken) = if v.Carries e then some { v with
      server := server
      reply := v.reply ++ e.delivers taken } else none := by
  have hnews : v.news server = [e] := by
    rw [Visit.news, hc]
    show (server.log.drop v.server.log.length).filter (Event.about c) = [e]
    rw [hlog, List.drop_left, List.filter_singleton, habout, cond_true]
  rw [visitStep, hs, Option.bind_some, hnews]
  simp only [List.mem_singleton, forall_eq, List.flatMap_singleton]

/-- A step that is none of the client's business. -/
theorem visitStep_silent {a : LoopAct} {server : Process} (taken : Option Nat)
    (hs : loopStep v.server a = some server) (hlog : server.log = v.server.log) :
    visitStep v (.server a taken) = some { v with server := server } := by
  have hnews : v.news server = [] := by
    unfold Visit.news
    split
    · rfl
    · rw [hlog, List.drop_length, List.filter_nil]
  rw [visitStep, hs, Option.bind_some, hnews]
  simp

theorem attends_recv (hw : Attends w k .receiving v) (bytes : Int) :
    visitStep v (.server (.server (.recv w bytes)) none)
      = if v.Carries (.call (.worker w) (.recv bytes) k (v.server.sockets k.clientSocket)) then
        some { v with server := { v.server.call (.worker w) k (.recv bytes) with
          frames := v.server.frames.set w
            (some ⟨k, if bytes ≤ 0 then .closing else .numbering⟩) } } else none := by
  have hstep : serverStep v.server (.recv w bytes) = _ := ServerStep.eq_some (.recv hw.frame)
  rw [visitStep_call (a := .server (.recv w bytes)) none hstep hw.connection rfl
    (by simp [Event.about, hw.connected])]
  simp only [Event.delivers, Event.text?, List.append_nil]

theorem attends_number (hw : Attends w k .numbering v) :
    visitStep v (.server (.server (.getRequestNumber w)) none) = some { v with
      server := { v.server with
        requestCounter := v.server.requestCounter + 1
        frames := v.server.frames.set w
          (some ⟨k, .responding (v.server.requestCounter + 1)⟩) } } :=
  visitStep_silent none (ServerStep.eq_some (.getRequestNumber hw.frame)) rfl

theorem attends_respond {requestId : Int32} (hw : Attends w k (.responding requestId) v) :
    visitStep v (.server (.server (.respond w)) none) = some { v with
      server := { v.server.call (.worker w) k (.send (response requestId)) with
        frames := v.server.frames.set w (some ⟨k, .receiving⟩) }
      reply := v.reply ++ (response requestId).toList } := by
  have hstep := ServerStep.eq_some (.respond hw.frame)
  rw [visitStep_call (a := .server (.respond w)) none hstep hw.connection rfl
    (by simp [Event.about, hw.connected]), delivers_none rfl]
  exact if_pos trivial

theorem attends_close (hw : Attends w k .closing v) :
    visitStep v (.server (.server (.closeServed w)) none) = some { v with
      server := { v.server.call (.worker w) k .close with
        frames := v.server.frames.set w none } } := by
  have hstep := ServerStep.eq_some (.closeServed hw.frame)
  rw [visitStep_call (a := .server (.closeServed w)) none hstep hw.connection rfl
    (by simp [Event.about, hw.connected])]
  simp only [Event.delivers, Event.text?, List.append_nil]
  exact if_pos trivial

/-- The client that waits has not closed its socket, so that a `recv` that does not fail reads
bytes. -/
theorem WaitInv.hears {bytes : Int} {target : Option Nat} (h : WaitInv threadCount sock v)
    (hbytes : 0 ≤ bytes) (hcarries : v.Carries (.call (.worker w) (.recv bytes) k target)) :
    0 < bytes := by
  obtain ⟨-, -, hclosed⟩ := hcarries
  by_contra hzero
  have hend := hclosed (by omega)
  exact hend.2 h.account.2.2

/-- What a worker does next, from the step that it takes: a `recv`, the number, the `send` or the
`close`, by its phase. -/
theorem phase_of_step {s s' : Process} {b : ServerAct} (hs : ServerStep s b s')
    (hown : b.worker? = some w) (hframe : s.frames[w]? = some (some ⟨k, phase⟩)) :
    (phase = .receiving ∧ ∃ bytes, b = .recv w bytes) ∨
      (phase = .numbering ∧ b = .getRequestNumber w) ∨
      (∃ requestId, phase = .responding requestId ∧ b = .respond w) ∨
      (phase = .closing ∧ b = .closeServed w) := by
  cases hs with
  | recv hget =>
      cases hown
      cases hget.symm.trans hframe
      exact .inl ⟨rfl, _, rfl⟩
  | getRequestNumber hget =>
      cases hown
      cases hget.symm.trans hframe
      exact .inr (.inl ⟨rfl, rfl⟩)
  | respond hget =>
      cases hown
      cases hget.symm.trans hframe
      exact .inr (.inr (.inl ⟨_, rfl, rfl⟩))
  | closeServed hget =>
      cases hown
      cases hget.symm.trans hframe
      exact .inr (.inr (.inr ⟨rfl, rfl⟩))
  | _ => cases hown

/-- The worker comes closer to its next word in a step of its own. -/
theorem attends_own {b : ServerAct} (h : WaitInv threadCount sock v) (hw : Attends w k phase v)
    (hown : b.worker? = some w) (hhears : b.Hears w)
    (hs : visitStep v (.server (.server b) none) = some v') :
    v'.Ready ∨ ∃ phase', Attends w k phase' v' ∧ phase'.toGo + 1 ≤ phase.toGo := by
  have hlt : w < v.server.frames.length := (List.getElem?_eq_some_iff.mp hw.frame).1
  have hnext : ∀ frame : Option Frame, (v.server.frames.set w frame)[w]? = some frame :=
    fun _ => List.getElem?_set_self hlt
  obtain ⟨server, hserver, -⟩ := Option.bind_eq_some_iff.mp hs
  rcases phase_of_step (serverStep_cases hserver) hown hw.frame with
    ⟨rfl, bytes, rfl⟩ | ⟨rfl, rfl⟩ | ⟨requestId, rfl, rfl⟩ | ⟨rfl, rfl⟩
  · rw [attends_recv hw] at hs
    rw [Option.ite_none_right_eq_some] at hs
    obtain ⟨hcarries, heq⟩ := hs
    obtain rfl := Option.some.inj heq
    have hpositive : ¬ bytes ≤ 0 := not_le.mpr (h.hears (hhears rfl) hcarries)
    refine .inr ⟨.numbering, ⟨?_, hw.connected, hw.connection⟩, le_refl _⟩
    show (v.server.frames.set w _)[w]? = _
    rw [if_neg hpositive, hnext]
  · rw [attends_number hw] at hs
    obtain rfl := Option.some.inj hs
    exact .inr ⟨.responding _, ⟨hnext _, hw.connected, hw.connection⟩, le_refl _⟩
  · rw [attends_respond hw] at hs
    obtain rfl := Option.some.inj hs
    refine .inl (.inl ?_)
    show (v.reply ++ _).drop v.client.account.received.flatten.length ≠ []
    rw [h.account.2.1]
    show v.reply ++ (response requestId).toList ≠ []
    simp [response_toList requestId]
  · rw [attends_close hw] at hs
    obtain rfl := Option.some.inj hs
    refine .inl (.inr ?_)
    simp only [Visit.hungUp, Visit.session, hw.connection]
    show ((v.server.log ++ [_]).filter (Event.about k.connection)).any Event.hangsUp = true
    rw [List.filter_append, List.any_append, Bool.or_eq_true]
    right
    simp [Event.about, hw.connected, Event.hangsUp]

/-- In the steps of all others the worker stays where it is. -/
theorem attends_other {a : VisitAct} (h : WaitInv threadCount sock v) (hw : Attends w k phase v)
    (ha : Uninterrupted w v a) (hother : a.worker? ≠ some w) (hs : visitStep v a = some v') :
    Attends w k phase v' := by
  refine ⟨?_, hw.connected, ((uninterrupted_cases ha hs).2.2 _ hw.connection).1⟩
  have hserver : ∀ {b : LoopAct} {server : Process} {taken : Option Nat},
      loopStep v.server b = some server → VisitAct.worker? (.server b taken) ≠ some w →
      server.frames[w]? = some (some ⟨k, phase⟩) := by
    intro b server taken hserver hother
    rcases loopStep_cases hserver with ⟨-, -, rfl⟩ | ⟨b, rfl, hb⟩
    · exact hw.frame
    · exact frame_of_step h.inv.service.linked hb hother hw.frame
  cases visitStep_cases hs with
  | client _ _ => exact hw.frame
  | silent hstep _ => exact hserver hstep hother
  | acts hstep _ _ _ => exact hserver hstep hother
  | accept hnone _ _ => cases hnone.symm.trans hw.connection

/-- Until something is ready, the worker can take its next step. -/
theorem attends_next (h : WaitInv threadCount sock v) (hw : Attends w k phase v)
    (hready : ¬ v.Ready) : ∃ a v', a.worker? = some w ∧ a.Hears w ∧
      visitStep v (.server (.server a) none) = some v' := by
  cases phase with
  | receiving =>
      -- it reads all that is on its way
      have hpending := h.pending hready hw
      have hcarries : v.Carries (.call (.worker w) (.recv 12) k
          (v.server.sockets k.clientSocket)) := by
        refine ⟨?_, by decide, fun hzero => absurd hzero (by decide)⟩
        rw [hpending]
        exact le_refl _
      exact ⟨.recv w 12, _, rfl, fun _ => (by decide), (attends_recv hw 12).trans (if_pos hcarries)⟩
  | numbering => exact ⟨.getRequestNumber w, _, rfl, trivial, attends_number hw⟩
  | responding requestId => exact ⟨.respond w, _, rfl, trivial, attends_respond hw⟩
  | closing => exact ⟨.closeServed w, _, rfl, trivial, attends_close hw⟩

/-- A step of a worker in `processClient` is a step of the server, and the kernel takes all. -/
theorem own_cases {a : VisitAct} (ha : Uninterrupted w v a) (hown : a.worker? = some w) :
    ∃ b : ServerAct, a = .server (.server b) none ∧ b.worker? = some w ∧ b.Hears w := by
  cases a with
  | client r => cases hown
  | accept d => cases hown
  | server a taken =>
      obtain rfl : taken = none := ha.2.1.2
      cases a with
      | acceptFails => cases hown
      | server b => exact ⟨b, rfl, hown, ha.2.2⟩

/-- Along a run the worker uses up the steps to its next word. -/
theorem attends_path {as : List VisitAct} (h : WaitInv threadCount sock v)
    (hw : Attends w k phase v)
    (hp : ((visitMachine threadCount).guarded (Uninterrupted w)).Path v as v') :
    WaitInv threadCount sock v' ∧ (v'.Ready ∨ ∃ phase', Attends w k phase' v' ∧
      phase'.toGo + as.countP (·.worker? = some w) ≤ phase.toGo) := by
  induction hp with
  | nil => exact ⟨h, .inr ⟨phase, hw, le_refl _⟩⟩
  | @snoc u v' as a _ hstep ih =>
      obtain ⟨ha, hs⟩ := hstep
      obtain ⟨hu, hcome⟩ := ih
      refine ⟨hu.step ha hs, ?_⟩
      rcases hcome with hready | ⟨phase', hw', hle⟩
      · exact .inl (hu.ready_step ha hs hready)
      rw [List.countP_append, List.countP_singleton]
      by_cases hown : a.worker? = some w
      · obtain ⟨b, rfl, hb, hhears⟩ := own_cases ha hown
        rcases attends_own hu hw' hb hhears hs with hready | ⟨phase'', hw'', hcloser⟩
        · exact .inl hready
        · refine .inr ⟨phase'', hw'', ?_⟩
          rw [if_pos (decide_eq_true hown)]
          omega
      · refine .inr ⟨phase', attends_other hu hw' ha hown hs, ?_⟩
        rw [if_neg (by simpa using hown)]
        exact hle

theorem toGo_le (phase : Phase) : 0 < phase.toGo ∧ phase.toGo ≤ 3 := by
  cases phase <;> simp [Phase.toGo]

theorem attends_answers (h : WaitInv threadCount sock v) (hw : Attends w k phase v) :
    AnswersWithin threadCount w 3 v := by
  intro as v' hp
  by_cases hready : v'.Ready
  · exact .inl hready
  obtain ⟨h', hcome⟩ := attends_path h hw hp
  obtain ⟨phase', hw', hle⟩ := hcome.resolve_left hready
  have hsome := (toGo_le phase').1
  have hthree := (toGo_le phase).2
  exact .inr ⟨by omega, attends_next h' hw' hready⟩

end

/-- **The two do not wait for each other.** If the kernel takes all that is sent and the counter
does not wrap, then in every interleaving with the other clients and threads: whenever the client
waits for its response, there is something to receive for it, or it is still in line (not accepted
yet, with `main`, or in the queue), or a worker is in `processClient` with it, and then, as long
as the client waits and whatever the others do: if the `recv` of this worker does not fail, there
is something to receive after at most three steps of the worker, and until then it can take its
next step. -/
theorem visit_answered {threadCount : Nat} {v : Visit} {sock : Int}
    (hs : ((visitMachine threadCount).guarded Lossless).Reachable v)
    (hwaits : v.client.place = .recv sock) :
    v.Ready ∨ v.connection = none ∨
      ∃ k q, (k, q) ∈ v.server.situations ∧ k.connected = true ∧
        v.connection = some k.connection ∧
        (q = .waiting ∨ ∃ w phase, q = .serving w phase ∧ AnswersWithin threadCount w 3 v) := by
  obtain ⟨hinv, hwhole⟩ := reachable_whole hs
  have h : WaitInv threadCount sock v := ⟨hinv, hwhole, hwaits⟩
  by_cases hready : v.Ready
  · exact .inl hready
  rcases h.served hready with hnone | ⟨k, q, hmem, hk, hc, hplace⟩
  · exact .inr (.inl hnone)
  refine .inr (.inr ⟨k, q, hmem, hk, hc, ?_⟩)
  rcases hplace with hwaiting | ⟨w, phase, rfl⟩
  · exact .inl hwaiting
  · exact .inr ⟨w, phase, rfl, attends_answers h ⟨frame_of_situation hmem, hk, hc⟩⟩

/-- The message is on its way, and both the client and its worker are in `recv`. -/
theorem visit_answered_waiting : ∃ v, ((visitMachine 1).guarded Lossless).Reachable v ∧
    v.client.place = .recv 3 ∧ v.server.situations = [(⟨6, 0⟩, .serving 0 .receiving)] ∧
    ¬ v.Ready ∧ AnswersWithin 1 0 3 v := by
  have hrun : (Machine.executeGuarded Lossless visitStep ⟨.new 1, .start, none, []⟩
      [.client ⟨3, .EINTR, []⟩, .client ⟨1, .EINTR, []⟩, .client ⟨0, .EINTR, []⟩,
        .client ⟨5, .EINTR, []⟩, .accept 6, .server (.server .enqueue) none,
        .server (.server (.notify none)) none, .server (.server (.workerSection 0)) none,
        .client ⟨7, .EINTR, []⟩]).map
      (fun v => (v.client.place, v.server.situations, v.connection, decide v.Ready))
      = some (.recv 3, [(⟨6, 0⟩, .serving 0 .receiving)], some 0, false) := by
    decide +kernel
  obtain ⟨v, hexecute, hresult⟩ := Option.map_eq_some_iff.mp hrun
  simp only [Prod.mk.injEq] at hresult
  obtain ⟨hplace, hsituations, hconnection, hready⟩ := hresult
  have hs : ((visitMachine 1).guarded Lossless).Reachable v :=
    ⟨_, _, rfl, Machine.path_of_executeGuarded hexecute⟩
  have hquiet : ¬ v.Ready := of_decide_eq_false hready
  rcases visit_answered hs hplace with hcome | hnone | ⟨k, q, hmem, -, -, hplace'⟩
  · exact absurd hcome hquiet
  · rw [hconnection] at hnone
    cases hnone
  · rw [hsituations, List.mem_singleton] at hmem
    cases hmem
    rcases hplace' with hwaiting | ⟨w, phase, heq, hanswers⟩
    · cases hwaiting
    · cases heq
      exact ⟨v, hs, hplace, hsituations, hquiet, hanswers⟩

end PacketForge.ThreadPool
