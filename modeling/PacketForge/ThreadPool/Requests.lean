import PacketForge.ThreadPool.AcceptLoop

set_option autoImplicit false

/-! # Request numbers

`getRequestNumber` is one atomic increment of a counter of 32 bits, so the numbers that a run
hands out are the same whatever the interleaving: the first ones from 1 on, as the counter has
them (`firstNumbers`). They identify the requests until the counter wraps.

## How the proofs go

* The record is beside the machine, not in it: `requestMachine` runs the server and writes down
  what each increment returned. A run of it is a run of the server, and the other way round.
* `loopStep_counter` is the only fact about the server. By induction on the run it follows that
  the record is `firstNumbers count` for the number of calls (`numbers_path`), whoever made them.
* What is left is about `Int32`: below `2^31` the numbers are positive and different, the number
  after that is negative, and after `2^32` they come again.
* That the bound can be passed is shown by a client that goes on asking: `request_path` is one
  round of its worker, which leaves the worker where it was.
-/

namespace PacketForge.ThreadPool

/-! ## The record -/

/-- A call of `getRequestNumber`. -/
def LoopAct.asksNumber : LoopAct → Bool
  | .server (.getRequestNumber _) => true
  | _ => false

/-- What `getRequestNumber` has returned to the worker. -/
def handedOut (_ : Process) (a : LoopAct) (s' : Process) : List Int32 :=
  match a with
  | .server (.getRequestNumber w) =>
    match s'.frames[w]? with
    | some (some ⟨_, .responding requestId⟩) => [requestId]
    | _ => []
  | _ => []

/-- The runs of the server, with the request numbers in the order of the increments. -/
def requestMachine (threadCount : Nat) : Machine (Process × List Int32) LoopAct :=
  (loopMachine threadCount).recording handedOut

/-- The numbers identify what they were handed out for: they are different, positive, and in the
order in which they were handed out. -/
structure Identify (numbers : List Int32) : Prop where
  distinct : numbers.Nodup
  positive : ∀ n ∈ numbers, 0 < n
  increasing : numbers.Pairwise (· < ·)

/-! ## The numbers

Facts about the 32-bit counter alone.
-/

/-- The numbers that a counter of 32 bits gives first, from 1 on, with its wrap-around. -/
def firstNumbers (count : Nat) : List Int32 := (List.range count).map fun i => Int32.ofNat (i + 1)

theorem firstNumbers_succ (count : Nat) :
    firstNumbers (count + 1) = firstNumbers count ++ [Int32.ofNat (count + 1)] := by
  rw [firstNumbers, List.range_succ, List.map_append]
  rfl

theorem mem_firstNumbers {count i : Nat} (hi : i < count) :
    Int32.ofNat (i + 1) ∈ firstNumbers count :=
  List.mem_map.mpr ⟨i, List.mem_range.mpr hi, rfl⟩

theorem identify_firstNumbers {count : Nat} (hcount : count < 2 ^ 31) :
    Identify (firstNumbers count) := by
  have hvalue : ∀ i < count, (Int32.ofNat (i + 1)).toInt = i + 1 := fun i hi =>
    Int32.toInt_ofNat_of_lt (by omega)
  have hincreasing : (firstNumbers count).Pairwise (· < ·) := by
    rw [firstNumbers, List.pairwise_map]
    refine List.pairwise_lt_range.imp_of_mem fun {i j} hi hj hlt => ?_
    rw [Int32.lt_iff_toInt_lt, hvalue i (List.mem_range.mp hi), hvalue j (List.mem_range.mp hj)]
    omega
  refine ⟨hincreasing.imp fun hlt heq => ?_, fun n hn => ?_, hincreasing⟩
  · rw [heq] at hlt
    exact Int32.lt_irrefl hlt
  · obtain ⟨i, hi, rfl⟩ := List.mem_map.mp hn
    rw [Int32.lt_iff_toInt_lt, hvalue i (List.mem_range.mp hi)]
    show (0 : Int) < i + 1
    omega

/-- The counter is negative after `2^31` increments. -/
theorem exists_negative {count : Nat} (hcount : 2 ^ 31 ≤ count) : ∃ n ∈ firstNumbers count, n < 0 :=
  ⟨_, mem_firstNumbers (i := 2 ^ 31 - 1) (by omega), by decide⟩

/-- The counter repeats itself after `2^32` increments. -/
theorem not_nodup_firstNumbers {count : Nat} (hcount : 2 ^ 32 < count) :
    ¬ (firstNumbers count).Nodup := by
  intro hnodup
  have hsame := List.inj_on_of_nodup_map hnodup (x := 0) (List.mem_range.mpr (by omega))
    (y := 2 ^ 32) (List.mem_range.mpr hcount) (by decide)
  cases hsame

theorem identify_iff (count : Nat) : Identify (firstNumbers count) ↔ count < 2 ^ 31 := by
  refine ⟨fun h => ?_, identify_firstNumbers⟩
  by_contra hge
  obtain ⟨n, hn, hneg⟩ := exists_negative (not_lt.mp hge)
  exact Int32.lt_irrefl (Int32.lt_trans (h.positive n hn) hneg)

/-! ## The runs -/

section

variable {threadCount : Nat}

/-- An increment is handed out, and nothing else changes the counter. -/
theorem loopStep_counter {s s' : Process} {a : LoopAct} (hs : loopStep s a = some s') :
    if a.asksNumber then s'.requestCounter = s.requestCounter + 1 ∧
      handedOut s a s' = [s.requestCounter + 1]
    else s'.requestCounter = s.requestCounter ∧ handedOut s a s' = [] := by
  rcases loopStep_cases hs with ⟨rfl, -, rfl⟩ | ⟨b, rfl, hb⟩
  · exact ⟨rfl, rfl⟩
  · cases hb with
    | @getRequestNumber w k hget =>
        have hlt := (List.getElem?_eq_some_iff.mp hget).1
        refine ⟨rfl, ?_⟩
        simp only [handedOut, List.getElem?_set_self hlt]
    | _ => exact ⟨rfl, rfl⟩

/-- **The numbers of a run** depend on how many were asked for, and on nothing else. -/
theorem numbers_path {s₀ s : Process × List Int32} {as : List LoopAct}
    (h₀ : (requestMachine threadCount).init s₀)
    (hpath : (requestMachine threadCount).Path s₀ as s) :
    s.1.requestCounter = Int32.ofNat (as.countP LoopAct.asksNumber) ∧
      s.2 = firstNumbers (as.countP LoopAct.asksNumber) := by
  induction hpath with
  | nil =>
      obtain ⟨hnew, hnone⟩ := h₀
      rw [hnew, hnone]
      exact ⟨rfl, rfl⟩
  | @snoc t s as a _ hstep ih =>
      obtain ⟨hstep, hrecord⟩ := hstep
      obtain ⟨hcounter, hnumbers⟩ := ih
      have hnext := loopStep_counter hstep
      rw [List.countP_append, List.countP_singleton, hrecord, hnumbers]
      split_ifs at hnext ⊢
      · have hincrement : Int32.ofNat (as.countP LoopAct.asksNumber + 1)
            = Int32.ofNat (as.countP LoopAct.asksNumber) + 1 := Int32.ofNat_add _ 1
        rw [hnext.1, hnext.2, hcounter, firstNumbers_succ, hincrement]
        exact ⟨rfl, rfl⟩
      · rw [hnext.1, hnext.2, hcounter, List.append_nil]
        exact ⟨rfl, rfl⟩

/-- **When request numbers identify requests.** In every run and under every interleaving, the
numbers that were handed out are different, positive and increasing if and only if they are fewer
than `2^31`. -/
theorem numbers_identify_iff {s₀ s : Process × List Int32} {as : List LoopAct}
    (h₀ : (requestMachine threadCount).init s₀)
    (hpath : (requestMachine threadCount).Path s₀ as s) :
    Identify s.2 ↔ as.countP LoopAct.asksNumber < 2 ^ 31 := by
  rw [(numbers_path h₀ hpath).2]
  exact identify_iff _

end

/-- Two workers ask at the same time, the later client first. -/
def interleaved : List LoopAct :=
  [.server (.accept 5), .server .enqueue, .server (.notify none), .server (.workerSection 0),
    .server (.accept 6), .server .enqueue, .server (.notify none), .server (.workerSection 1),
    .server (.recv 0 10), .server (.recv 1 20), .server (.getRequestNumber 1),
    .server (.getRequestNumber 0)]

theorem numbers_identify_iff_interleaved : ∃ s,
    (requestMachine 4).Path (.new 4, []) interleaved s ∧ s.2 = [1, 2] ∧ Identify s.2 := by
  have h₀ : (requestMachine 4).init (.new 4, []) := ⟨rfl, rfl⟩
  obtain ⟨s, hexecute⟩ : ∃ s, Machine.execute loopStep (.new 4) interleaved = some s := ⟨_, rfl⟩
  obtain ⟨numbers, hpath⟩ := (Machine.path_of_execute hexecute).recording handedOut []
  exact ⟨(s, numbers), hpath, (numbers_path h₀ hpath).2,
    (numbers_identify_iff h₀ hpath).mpr (by decide)⟩

/-! ## A client that goes on asking

A run of any length, built by repeating one request. It shows that no bound on the number of
requests can be derived from the code.
-/

/-- The client whose requests the server answers one after the other. -/
def patient : Client := ⟨5, 0⟩

/-- The first worker serves it. -/
def Process.Serving (s : Process) (phase : Phase) : Prop :=
  s.frames[0]? = some (some ⟨patient, phase⟩)

/-- One request of it. -/
def request : List LoopAct :=
  [.server (.recv 0 1), .server (.getRequestNumber 0), .server (.respond 0)]

theorem request_path {s : Process} (hs : s.Serving .receiving) :
    ∃ s', (loopMachine 4).Path s request s' ∧ s'.Serving .receiving := by
  have hreplaced : ∀ {t : Process} {phase}, t.Serving phase → ∀ frame : Option Frame,
      (t.frames.set 0 frame)[0]? = some frame := fun ht frame =>
    List.getElem?_set_self (List.getElem?_eq_some_iff.mp ht).1
  obtain ⟨s₁, hrecv, hnumbering⟩ : ∃ s₁, loopStep s (.server (.recv 0 1)) = some s₁ ∧
      s₁.Serving .numbering := ⟨_, ServerStep.eq_some (.recv hs), hreplaced hs _⟩
  obtain ⟨s₂, hnumber, hresponding⟩ : ∃ s₂, loopStep s₁ (.server (.getRequestNumber 0)) = some s₂ ∧
      s₂.Serving (.responding (s₁.requestCounter + 1)) :=
    ⟨_, ServerStep.eq_some (.getRequestNumber hnumbering), hreplaced hnumbering _⟩
  obtain ⟨s₃, hrespond, hreceiving⟩ : ∃ s₃, loopStep s₂ (.server (.respond 0)) = some s₃ ∧
      s₃.Serving .receiving :=
    ⟨_, ServerStep.eq_some (.respond hresponding), hreplaced hresponding _⟩
  exact ⟨s₃, .cons hrecv (.cons hnumber (.cons hrespond (.nil _))), hreceiving⟩

/-- A run that asks for `count` numbers. -/
theorem exists_requests (count : Nat) : ∃ as s, (loopMachine 4).Path (.new 4) as s ∧
    as.countP LoopAct.asksNumber = count ∧ s.Serving .receiving := by
  induction count with
  | zero =>
      obtain ⟨s, hexecute, hs⟩ : ∃ s, Machine.execute loopStep (.new 4) [.server (.accept 5),
          .server .enqueue, .server (.notify none), .server (.workerSection 0)] = some s ∧
          s.Serving .receiving := ⟨_, rfl, rfl⟩
      exact ⟨_, s, Machine.path_of_execute hexecute, rfl, hs⟩
  | succ count ih =>
      obtain ⟨as, s, hpath, hcount, hs⟩ := ih
      obtain ⟨s', hrequest, hs'⟩ := request_path hs
      refine ⟨as ++ request, s', hpath.append hrequest, ?_, hs'⟩
      rw [List.countP_append, hcount]
      rfl

/-- There is a run that hands out the first `count` numbers, for every `count`. -/
theorem firstNumbers_reachable (count : Nat) :
    ∃ s, (requestMachine 4).Reachable s ∧ s.2 = firstNumbers count := by
  obtain ⟨as, s, hpath, hcount, -⟩ := exists_requests count
  obtain ⟨numbers, hrecorded⟩ := hpath.recording handedOut []
  have h₀ : (requestMachine 4).init (.new 4, []) := ⟨rfl, rfl⟩
  refine ⟨(s, numbers), ⟨_, as, h₀, hrecorded⟩, ?_⟩
  rw [(numbers_path h₀ hrecorded).2, hcount]

/-- A server that goes on long enough hands out negative numbers, and then the same ones again. -/
theorem numbers_wrap : (∃ s, (requestMachine 4).Reachable s ∧ ∃ n ∈ s.2, n < 0) ∧
    ∃ s, (requestMachine 4).Reachable s ∧ ¬ s.2.Nodup := by
  obtain ⟨s, hs, hnumbers⟩ := firstNumbers_reachable (2 ^ 31)
  obtain ⟨t, ht, hrepeated⟩ := firstNumbers_reachable (2 ^ 32 + 1)
  exact ⟨⟨s, hs, hnumbers ▸ exists_negative le_rfl⟩,
    t, ht, hrepeated ▸ not_nodup_firstNumbers (Nat.lt_succ_self _)⟩

end PacketForge.ThreadPool
