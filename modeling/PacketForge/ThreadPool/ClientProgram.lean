import PacketForge.Lib.Machine

set_option autoImplicit false

/-! # The client of the thread-pool server (`Version_2/src/Client.cpp`)

`main` sends "Hello Server" and prints what comes back. A step is one system call: what the kernel
answers is the label, `Possible` is what every kernel keeps to. An interrupted call is repeated
without a bound, as in the code, so that a run need not end; `idles` counts what can delay its
end.

`ClientRun.account` is what a run has sent, received, printed, opened and closed, and
`Place.Shows` what the account is at each place of `main`. `client_outcome` is what it has come to
when `main` returns.

A `char` is a `Char`: the program does not look into the bytes that it moves.

## How the proof goes

* The account is computed from the calls and the streams, so it needs no state of its own. Adding
  a call adds what it took, brought, opened or closed (`Account.add`).
* `Place.Shows` is the invariant, one line for each place. In the loop that sends, the account is
  determined by `totalSent` alone, which is why partial sends and interruptions leave no trace.
  `shows_step` follows the branches of the code.
* `Place.rank` is how many calls it takes at most to come to a place. A call raises it or is one
  that is to be repeated (`rank_resume`), and at the end it is seventeen: `socket`, `inet_pton`,
  `connect`, twelve sends of one byte each, `recv` and `close`.
-/

namespace PacketForge.ThreadPool.ClientProgram

/-! ## The code

`Place` is the program counter, with the local variables that are still needed. `resume` is the
straight-line code between two system calls, and `step` answers the call that comes next.
-/

inductive Errno where
  | EINTR
  | other (strerror : String)
  deriving DecidableEq, Repr

def Errno.strerror : Errno → String
  | EINTR => "Interrupted system call"
  | other text => text

/-- The system calls. -/
inductive SysCall where
  | socket
  | inet_pton
  | connect (sock : Int)
  | send (sock : Int) (data : List Char)
  | recv (sock : Int) (size : Nat)
  | close (sock : Int)
  deriving DecidableEq, Repr

/-- What a call returns, the `errno` it leaves, and what `recv` puts into its buffer. -/
structure Answer where
  value : Int
  errno : Errno
  buffer : List Char
  deriving DecidableEq, Repr

/-- Where `main` is. After a failure it closes its socket and returns (`abandon`). -/
inductive Place where
  | socket
  | inet_pton (sock : Int)
  | connect (sock : Int)
  | send (sock : Int) (totalSent : Nat)
  | recv (sock : Int)
  | abandon (sock : Int)
  | cleanup (sock : Int)
  | exited (status : Nat)
  deriving DecidableEq, Repr

/-- `main` in the middle of a run, with all its calls and what it has written to its streams. -/
structure ClientRun where
  place : Place
  calls : List (SysCall × Answer)
  cout : List String
  cerr : List String
  deriving DecidableEq, Repr

def ClientRun.start : ClientRun := ⟨.socket, [], [], []⟩

def message : List Char := "Hello Server".toList

def BUFFER_SIZE : Nat := 1024

/-- The system call that comes next. -/
def Place.call : Place → Option SysCall
  | socket => some .socket
  | inet_pton _ => some .inet_pton
  | connect sock => some (.connect sock)
  | send sock totalSent => some (.send sock (message.drop totalSent))
  | recv sock => some (.recv sock BUFFER_SIZE)
  | abandon sock => some (.close sock)
  | cleanup sock => some (.close sock)
  | exited _ => none

/-- What every kernel keeps to: `-1` is the only failure of the socket calls, a socket is not
negative, and no more is moved than was asked for. -/
def Possible (r : Answer) : SysCall → Prop
  | .socket => r.value = -1 ∨ 0 ≤ r.value
  | .inet_pton => True
  | .connect _ => r.value = -1 ∨ r.value = 0
  | .send _ data => -1 ≤ r.value ∧ r.value ≤ data.length
  | .recv _ size => r.value = -1 ∨ r.value = r.buffer.length ∧ r.buffer.length ≤ size
  | .close _ => r.value = -1 ∨ r.value = 0

instance (r : Answer) (call : SysCall) : Decidable (Possible r call) := by
  cases call <;> unfold Possible <;> infer_instance

namespace ClientRun

def out (s : ClientRun) (text : String) : ClientRun := { s with cout := s.cout ++ [text] }

def err (s : ClientRun) (text : String) : ClientRun := { s with cerr := s.cerr ++ [text] }

def goto (s : ClientRun) (place : Place) : ClientRun := { s with place := place }

def log (s : ClientRun) (call : SysCall) (r : Answer) : ClientRun :=
  { s with calls := s.calls ++ [(call, r)] }

/-- The head of the loop `while (totalSent < message.size())`. -/
def sendLoop (s : ClientRun) (sock : Int) (totalSent : Nat) : ClientRun :=
  if totalSent < message.length then s.goto (.send sock totalSent)
  else (s.out ("Sent " ++ toString totalSent ++ " bytes.\n")).goto (.recv sock)

/-- What `main` does between the answer to a call and its next call. -/
def resume (s : ClientRun) (r : Answer) : ClientRun :=
  match s.place with
  | .socket =>
    if r.value = -1 then
      (s.err ("socket() failed: " ++ r.errno.strerror ++ "\n")).goto (.exited 1)
    else s.goto (.inet_pton r.value)
  | .inet_pton sock =>
    if r.value ≠ 1 then (s.err "Invalid IP address\n").goto (.abandon sock)
    else s.goto (.connect sock)
  | .connect sock =>
    if r.value = -1 then
      (s.err ("connect() failed: " ++ r.errno.strerror ++ "\n")).goto (.abandon sock)
    else (s.out "Connected to server.\n").sendLoop sock 0
  | .send sock totalSent =>
    if r.value = -1 then
      if r.errno = .EINTR then s.sendLoop sock totalSent
      else (s.err ("send() failed: " ++ r.errno.strerror ++ "\n")).goto (.abandon sock)
    else s.sendLoop sock (totalSent + r.value.toNat)
  | .recv sock =>
    if r.value = -1 then
      if r.errno = .EINTR then s
      else (s.err ("recv() failed: " ++ r.errno.strerror ++ "\n")).goto (.abandon sock)
    else if r.value = 0 then (s.out "Server closed the connection.\n").goto (.cleanup sock)
    else
      (s.out ("Server Response: " ++ String.ofList (r.buffer.take r.value.toNat) ++ "\n")).goto
        (.cleanup sock)
  | .abandon _ => s.goto (.exited 1)
  | .cleanup _ =>
    if r.value = -1 then
      (s.err ("close() failed: " ++ r.errno.strerror ++ "\n")).goto (.exited 0)
    else s.goto (.exited 0)
  | .exited _ => s

/-- The next system call is answered. -/
def step (s : ClientRun) (r : Answer) : Option ClientRun :=
  s.place.call.bind fun call =>
    if Possible r call then
      some ((s.log call r).resume r)
    else none

end ClientRun

/-- The runs of the client. -/
def clientMachine : Machine ClientRun Answer := .ofStep (fun s => s = .start) ClientRun.step

/-! ## What the calls did

Each definition reads one thing off a call and its answer. A call that failed has done nothing.
-/

/-- The bytes that the kernel took from a call. -/
def taken : SysCall × Answer → List Char
  | (.send _ data, r) => data.take r.value.toNat
  | _ => []

/-- What a call brought from the server: nothing is the end of the stream. -/
def brought : SysCall × Answer → Option (List Char)
  | (.recv _ _, r) => if r.value = -1 then none else some (r.buffer.take r.value.toNat)
  | _ => none

/-- The descriptor that a call uses. -/
def used : SysCall × Answer → Option Int
  | (.connect sock, _) => some sock
  | (.send sock _, _) => some sock
  | (.recv sock _, _) => some sock
  | (.close sock, _) => some sock
  | _ => none

def closed : SysCall × Answer → Option Int
  | (.close sock, _) => some sock
  | _ => none

def opened : SysCall × Answer → Option Int
  | (.socket, r) => if r.value = -1 then none else some r.value
  | _ => none

/-- The connection is established. -/
def connects : SysCall × Answer → Bool
  | (.connect _, r) => r.value ≠ -1
  | _ => false

/-- The call moves nothing and is repeated. -/
def idles : SysCall × Answer → Bool
  | (.send _ _, r) => r.value = 0 || (r.value = -1 && r.errno = .EINTR)
  | (.recv _ _, r) => r.value = -1 && r.errno = .EINTR
  | _ => false

/-- What a run comes to: the descriptors that were opened and closed, the bytes that were moved, and
the text. -/
structure Account where
  opens : List Int
  closes : List Int
  sent : List Char
  received : List (List Char)
  cout : List String
  cerr : List String
  deriving DecidableEq, Repr

namespace ClientRun

def account (s : ClientRun) : Account where
  opens := s.calls.filterMap opened
  closes := s.calls.filterMap closed
  sent := s.calls.flatMap taken
  received := s.calls.filterMap brought
  cout := s.cout
  cerr := s.cerr

def uses (s : ClientRun) : List Int := s.calls.filterMap used

def connected (s : ClientRun) : Bool := s.calls.any connects

def idleCalls (s : ClientRun) : Nat := s.calls.countP idles

end ClientRun

/-! ## How a run can end

One constructor of `Outcome` for each `return` of `main`, and one `Failure` for each branch that
leads to `abandon`.
-/

/-- What keeps `main` from its end once it has a socket, with the `errno` that it prints. -/
inductive Failure where
  | address
  | connect (e : Errno)
  | send (totalSent : Nat) (e : Errno)
  | recv (e : Errno)
  deriving DecidableEq, Repr

def Failure.Plausible : Failure → Prop
  | address => True
  | connect _ => True
  | send totalSent e => totalSent < message.length ∧ e ≠ .EINTR
  | recv e => e ≠ .EINTR

def connectedLine : String := "Connected to server.\n"

def sentLine : String := "Sent 12 bytes.\n"

/-- What is printed of the answer of the server. -/
def replyLine (text : List Char) : String :=
  if text = [] then "Server closed the connection.\n"
  else "Server Response: " ++ String.ofList text ++ "\n"

/-- The account of a run that has a socket and no more. -/
def Account.ofSocket (sock : Int) : Account := ⟨[sock], [], [], [], [], []⟩

/-- The account of a run in the loop that sends. -/
def Account.sending (sock : Int) (totalSent : Nat) : Account :=
  { Account.ofSocket sock with sent := message.take totalSent, cout := [connectedLine] }

/-- The account of a run that has sent its message. -/
def Account.allSent (sock : Int) : Account :=
  { Account.ofSocket sock with sent := message, cout := [connectedLine, sentLine] }

/-- The account of a run that fails, before it closes its socket. -/
def Failure.account (sock : Int) : Failure → Account
  | address => { Account.ofSocket sock with cerr := ["Invalid IP address\n"] }
  | connect e => { Account.ofSocket sock with cerr := ["connect() failed: " ++ e.strerror ++ "\n"] }
  | send totalSent e =>
    { Account.sending sock totalSent with cerr := ["send() failed: " ++ e.strerror ++ "\n"] }
  | recv e => { Account.allSent sock with cerr := ["recv() failed: " ++ e.strerror ++ "\n"] }

/-- The account of a run that was answered, before it closes its socket. -/
def Account.answered (sock : Int) (text : List Char) : Account :=
  { Account.allSent sock with
    received := [text]
    cout := [connectedLine, sentLine, replyLine text] }

/-- What a run that returns `status` has done, as an account. There was no socket; or something
failed, and the socket was closed; or there was an answer, and the socket was closed, even if
`close` has reported an error. -/
inductive Outcome : Nat → Account → Prop
  | noSocket (e : Errno) :
      Outcome 1 ⟨[], [], [], [], [], ["socket() failed: " ++ e.strerror ++ "\n"]⟩
  | failed (sock : Int) {f : Failure} : f.Plausible →
      Outcome 1 { f.account sock with closes := [sock] }
  | answered (sock : Int) {text : List Char} : text.length ≤ BUFFER_SIZE →
      Outcome 0 { Account.answered sock text with closes := [sock] }
  | notClosed (sock : Int) {text : List Char} (e : Errno) : text.length ≤ BUFFER_SIZE →
      Outcome 0 { Account.answered sock text with
        closes := [sock], cerr := ["close() failed: " ++ e.strerror ++ "\n"] }

/-- What a run has done when it has come to a place. -/
def Place.Shows : Place → Account → Prop
  | socket, a => a = ⟨[], [], [], [], [], []⟩
  | inet_pton sock, a => a = .ofSocket sock
  | connect sock, a => a = .ofSocket sock
  | send sock totalSent, a => totalSent < message.length ∧ a = .sending sock totalSent
  | recv sock, a => a = .allSent sock
  | abandon sock, a => ∃ f : Failure, f.Plausible ∧ a = f.account sock
  | cleanup sock, a => ∃ text : List Char, text.length ≤ BUFFER_SIZE ∧ a = .answered sock text
  | exited status, a => Outcome status a

/-! ## What a step does

A step answers one call and then runs to the next one. The first part adds to the account what the
call did, the second part what is printed.
-/

section

variable {s s' : ClientRun} {r : Answer}

/-- The account after a call, before `main` prints anything. -/
def Account.add (a : Account) (c : SysCall × Answer) : Account :=
  { a with
    opens := a.opens ++ (opened c).toList
    closes := a.closes ++ (closed c).toList
    sent := a.sent ++ taken c
    received := a.received ++ (brought c).toList }

theorem account_log {a : Account} (ha : s.account = a) (call : SysCall) (r : Answer) :
    (s.log call r).account = a.add (call, r) := by
  have hsingle : ∀ {β : Type} (f : SysCall × Answer → Option β),
      [(call, r)].filterMap f = (f (call, r)).toList := by
    intro β f
    cases hf : f (call, r) <;> simp [hf]
  simp only [← ha, ClientRun.account, ClientRun.log, Account.add, List.filterMap_append,
    List.flatMap_append, hsingle, List.flatMap_singleton]

@[simp] theorem place_log (s : ClientRun) (call : SysCall) (r : Answer) :
    (s.log call r).place = s.place := rfl

@[simp] theorem account_goto (s : ClientRun) (place : Place) :
    (s.goto place).account = s.account := rfl

@[simp] theorem account_out (s : ClientRun) (text : String) :
    (s.out text).account = { s.account with cout := s.account.cout ++ [text] } := rfl

@[simp] theorem account_err (s : ClientRun) (text : String) :
    (s.err text).account = { s.account with cerr := s.account.cerr ++ [text] } := rfl

theorem step_cases (h : s.step r = some s') : ∃ call, s.place.call = some call ∧
    Possible r call ∧ s' = (s.log call r).resume r := by
  obtain ⟨call, hcall, hstep⟩ := Option.bind_eq_some_iff.mp h
  rw [Option.ite_none_right_eq_some] at hstep
  exact ⟨call, hcall, hstep.1, (Option.some.inj hstep.2).symm⟩

theorem sendLoop_shows {sock : Int} {totalSent : Nat} (hle : totalSent ≤ message.length)
    (ha : s.account = .sending sock totalSent) :
    (s.sendLoop sock totalSent).place.Shows (s.sendLoop sock totalSent).account := by
  unfold ClientRun.sendLoop
  split_ifs with hlt
  · exact ⟨hlt, ha⟩
  · obtain rfl : totalSent = message.length := by omega
    show ClientRun.account _ = Account.allSent sock
    rw [account_goto, account_out, ha]
    rfl

/-- **Every step keeps the account** that the place shows. The cases are the places of `main`,
with what was answered to the call there. -/
theorem shows_step (h : s.place.Shows s.account) (hs : s.step r = some s') :
    s'.place.Shows s'.account := by
  obtain ⟨call, hcall, hr, rfl⟩ := step_cases hs
  cases hplace : s.place with
  | socket =>
      rw [hplace] at h hcall
      obtain rfl := Option.some.inj hcall
      have ha := account_log h .socket r
      simp only [ClientRun.resume, place_log, hplace]
      split_ifs with hfailed
      · show Outcome 1 _
        rw [account_goto, account_err, ha]
        simp only [Account.add, opened, hfailed, if_true]
        exact .noSocket r.errno
      · show ClientRun.account _ = Account.ofSocket r.value
        rw [account_goto, ha]
        simp only [Account.add, opened, hfailed, if_false]
        rfl
  | inet_pton sock =>
      rw [hplace] at h hcall
      obtain rfl := Option.some.inj hcall
      have ha := account_log h .inet_pton r
      simp only [ClientRun.resume, place_log, hplace]
      split_ifs with hfailed
      · refine ⟨.address, trivial, ?_⟩
        rw [account_goto, account_err, ha]
        rfl
      · show ClientRun.account _ = Account.ofSocket sock
        rw [account_goto, ha]
        rfl
  | connect sock =>
      rw [hplace] at h hcall
      obtain rfl := Option.some.inj hcall
      have ha := account_log h (.connect sock) r
      simp only [ClientRun.resume, place_log, hplace]
      split_ifs with hfailed
      · refine ⟨.connect r.errno, trivial, ?_⟩
        rw [account_goto, account_err, ha]
        rfl
      · refine sendLoop_shows (Nat.zero_le _) ?_
        rw [account_out, ha]
        rfl
  | send sock totalSent =>
      rw [hplace] at h hcall
      obtain rfl := Option.some.inj hcall
      obtain ⟨hlt, h⟩ := h
      have ha := account_log h (.send sock (message.drop totalSent)) r
      have hsent : (Account.sending sock totalSent).add (.send sock (message.drop totalSent), r)
          = Account.sending sock (totalSent + r.value.toNat) := by
        simp only [Account.add, Account.sending, Account.ofSocket, opened, closed, brought, taken,
          List.take_add, Option.toList_none, List.append_nil]
      simp only [ClientRun.resume, place_log, hplace]
      split_ifs with hfailed hinterrupted
      · -- the call is repeated
        refine sendLoop_shows hlt.le ?_
        rw [ha, hsent, hfailed]
        rfl
      · refine ⟨.send totalSent r.errno, ⟨hlt, hinterrupted⟩, ?_⟩
        rw [account_goto, account_err, ha, hsent, hfailed]
        rfl
      · refine sendLoop_shows ?_ (ha.trans hsent)
        have hle : r.value ≤ (message.drop totalSent).length := hr.2
        rw [List.length_drop] at hle
        omega
  | recv sock =>
      rw [hplace] at h hcall
      obtain rfl := Option.some.inj hcall
      have ha := account_log h (.recv sock BUFFER_SIZE) r
      simp only [ClientRun.resume, place_log, hplace]
      split_ifs with hfailed hinterrupted hclosed
      · -- the call is repeated
        rw [place_log, hplace]
        show ClientRun.account _ = Account.allSent sock
        rw [ha]
        simp only [Account.add, brought, hfailed, if_true]
        rfl
      · refine ⟨.recv r.errno, hinterrupted, ?_⟩
        rw [account_goto, account_err, ha]
        simp only [Account.add, brought, hfailed, if_true]
        rfl
      · refine ⟨[], Nat.zero_le _, ?_⟩
        rw [account_goto, account_out, ha]
        simp only [Account.add, brought, hclosed]
        rfl
      · obtain ⟨hvalue, hle⟩ := hr.resolve_left hfailed
        have hlength : r.value.toNat = r.buffer.length := by omega
        have hne : r.buffer ≠ [] := by
          intro hnil
          rw [hnil] at hvalue
          exact hclosed hvalue
        refine ⟨r.buffer, hle, ?_⟩
        rw [account_goto, account_out, ha, hlength, List.take_length]
        simp only [Account.add, brought, hfailed, if_false, hlength, List.take_length]
        rw [Account.answered, replyLine, if_neg hne]
        rfl
  | abandon sock =>
      rw [hplace] at h hcall
      obtain rfl := Option.some.inj hcall
      obtain ⟨f, hf, h⟩ := h
      have ha := account_log h (.close sock) r
      simp only [ClientRun.resume, place_log, hplace]
      show Outcome 1 _
      have hfailed : (f.account sock).add (.close sock, r)
          = { f.account sock with closes := [sock] } := by
        cases f <;> simp [Account.add, Failure.account, Account.ofSocket, Account.sending,
          Account.allSent, opened, closed, brought, taken]
      rw [account_goto, ha, hfailed]
      exact .failed sock hf
  | cleanup sock =>
      rw [hplace] at h hcall
      obtain rfl := Option.some.inj hcall
      obtain ⟨text, hlength, h⟩ := h
      have ha := account_log h (.close sock) r
      simp only [ClientRun.resume, place_log, hplace]
      split_ifs with hfailed
      · show Outcome 0 _
        rw [account_goto, account_err, ha]
        exact .notClosed sock r.errno hlength
      · show Outcome 0 _
        rw [account_goto, ha]
        exact .answered sock hlength
  | exited status =>
      rw [hplace] at hcall
      cases hcall

/-! ## Descriptors and calls

The invariant says what the account is; from it follows which descriptor the next call uses, that
nothing is received twice, and how many calls are left.
-/

/-- A call that comes next uses the socket. -/
theorem opens_of_used (h : s.place.Shows s.account) {call : SysCall}
    (hcall : s.place.call = some call) {fd : Int} (hfd : used (call, r) = some fd) :
    s.account.opens = [fd] := by
  cases hplace : s.place with
  | socket =>
      rw [hplace] at hcall
      cases hcall
      cases hfd
  | inet_pton sock =>
      rw [hplace] at hcall
      cases hcall
      cases hfd
  | exited status =>
      rw [hplace] at hcall
      cases hcall
  | connect sock =>
      rw [hplace] at hcall h
      cases hcall
      cases hfd
      rw [h]
      rfl
  | send sock totalSent =>
      rw [hplace] at hcall h
      cases hcall
      cases hfd
      rw [h.2]
      rfl
  | recv sock =>
      rw [hplace] at hcall h
      cases hcall
      cases hfd
      rw [h]
      rfl
  | abandon sock =>
      rw [hplace] at hcall h
      cases hcall
      cases hfd
      obtain ⟨f, -, h⟩ := h
      rw [h]
      cases f <;> rfl
  | cleanup sock =>
      rw [hplace] at hcall h
      cases hcall
      cases hfd
      obtain ⟨text, -, h⟩ := h
      rw [h]
      rfl

/-- The first call that brings something is the last one. -/
theorem received_of_brought (h : s.place.Shows s.account) {call : SysCall}
    (hcall : s.place.call = some call) (hbrought : brought (call, r) ≠ none) :
    s.account.received = [] := by
  cases hplace : s.place with
  | recv sock =>
      rw [hplace] at h
      rw [h]
      rfl
  | _ =>
      rw [hplace] at hcall
      cases hcall <;> exact absurd rfl hbrought

theorem calls_resume (s : ClientRun) (r : Answer) : (s.resume r).calls = s.calls := by
  have hloop : ∀ (s : ClientRun) (sock : Int) (totalSent : Nat),
      (s.sendLoop sock totalSent).calls = s.calls := by
    intro s sock totalSent
    unfold ClientRun.sendLoop
    split_ifs <;> rfl
  unfold ClientRun.resume
  split <;> (try split_ifs) <;> first | rfl | exact hloop _ _ _

/-- What a step adds to what was sent and received. -/
theorem account_step (hs : s.step r = some s') : ∃ call, s.place.call = some call ∧
    Possible r call ∧ s'.account.sent = s.account.sent ++ taken (call, r) ∧
      s'.account.received = s.account.received ++ (brought (call, r)).toList := by
  obtain ⟨call, hcall, hr, rfl⟩ := step_cases hs
  have haccount : (s.log call r).account = s.account.add (call, r) := account_log rfl call r
  have hsent : (s.log call r).account.sent = s.account.sent ++ taken (call, r) := by
    rw [haccount]
    rfl
  have hreceived : (s.log call r).account.received
      = s.account.received ++ (brought (call, r)).toList := by
    rw [haccount]
    rfl
  refine ⟨call, hcall, hr, ?_, ?_⟩
  · rw [← hsent, ClientRun.account, calls_resume, ClientRun.account]
  · rw [← hreceived, ClientRun.account, calls_resume, ClientRun.account]

/-- The calls on the way to a place, if none of them has to be repeated. -/
def Place.rank : Place → Nat
  | socket => 0
  | inet_pton _ => 1
  | connect _ => 2
  | send _ totalSent => 3 + totalSent
  | recv _ => 3 + message.length
  | abandon _ => 4 + message.length
  | cleanup _ => 4 + message.length
  | exited _ => 5 + message.length

theorem sendLoop_rank (s : ClientRun) (sock : Int) {totalSent : Nat}
    (hle : totalSent ≤ message.length) :
    3 + totalSent ≤ (s.sendLoop sock totalSent).place.rank := by
  unfold ClientRun.sendLoop
  split_ifs with hlt
  · exact le_refl _
  · exact Nat.add_le_add_left hle 3

/-- A call gets on, or is to be repeated. -/
theorem rank_resume (h : s.place.Shows s.account) {call : SysCall}
    (hcall : s.place.call = some call) (hr : Possible r call) :
    s.place.rank + 1 ≤ ((s.log call r).resume r).place.rank ∨
      idles (call, r) = true ∧ s.place.rank ≤ ((s.log call r).resume r).place.rank := by
  cases hplace : s.place with
  | socket =>
      left
      simp only [ClientRun.resume, place_log, hplace]
      split_ifs
      · show 0 + 1 ≤ 5 + message.length
        omega
      · exact le_refl 1
  | inet_pton sock =>
      left
      simp only [ClientRun.resume, place_log, hplace]
      split_ifs
      · show 1 + 1 ≤ 4 + message.length
        omega
      · exact le_refl 2
  | connect sock =>
      left
      simp only [ClientRun.resume, place_log, hplace]
      split_ifs
      · show 2 + 1 ≤ 4 + message.length
        omega
      · exact sendLoop_rank _ sock (Nat.zero_le _)
  | send sock totalSent =>
      rw [hplace] at h hcall
      obtain rfl := Option.some.inj hcall
      obtain ⟨hlt, -⟩ := h
      have hle : r.value ≤ (message.drop totalSent).length := hr.2
      have hge : -1 ≤ r.value := hr.1
      rw [List.length_drop] at hle
      simp only [ClientRun.resume, place_log, hplace]
      split_ifs with hfailed hinterrupted
      · refine .inr ⟨?_, sendLoop_rank _ sock hlt.le⟩
        simp [idles, hfailed, hinterrupted]
      · left
        show 3 + totalSent + 1 ≤ 4 + message.length
        omega
      · have hnext : totalSent + r.value.toNat ≤ message.length := by omega
        have hrank := sendLoop_rank (s.log (.send sock (message.drop totalSent)) r) sock hnext
        by_cases hzero : r.value = 0
        · refine .inr ⟨by simp [idles, hzero], le_trans ?_ hrank⟩
          show 3 + totalSent ≤ 3 + (totalSent + r.value.toNat)
          omega
        · refine .inl (le_trans ?_ hrank)
          show 3 + totalSent + 1 ≤ 3 + (totalSent + r.value.toNat)
          omega
  | recv sock =>
      rw [hplace] at hcall
      obtain rfl := Option.some.inj hcall
      simp only [ClientRun.resume, place_log, hplace]
      split_ifs with hfailed hinterrupted
      · refine .inr ⟨by simp [idles, hfailed, hinterrupted], ?_⟩
        rw [place_log, hplace]
      · left
        show 3 + message.length + 1 ≤ 4 + message.length
        omega
      · left
        show 3 + message.length + 1 ≤ 4 + message.length
        omega
      · left
        show 3 + message.length + 1 ≤ 4 + message.length
        omega
  | abandon sock =>
      left
      simp only [ClientRun.resume, place_log, hplace]
      show 4 + message.length + 1 ≤ 5 + message.length
      omega
  | cleanup sock =>
      left
      have hnext : 4 + message.length + 1 ≤ 5 + message.length := by omega
      simp only [ClientRun.resume, place_log, hplace]
      split_ifs
      · exact hnext
      · exact hnext
  | exited status =>
      rw [hplace] at hcall
      cases hcall

/-! ## The result -/

/-- The invariant of a run: the account is the one of the place where `main` is, only the socket
that was opened was used, and all calls but the repeated ones have brought `main` closer to its
end. -/
structure ClientRun.Inv (s : ClientRun) : Prop where
  shows : s.place.Shows s.account
  uses : ∀ fd ∈ s.uses, s.account.opens = [fd]
  length : s.calls.length ≤ s.place.rank + s.idleCalls

theorem ClientRun.Inv.step (h : s.Inv) (hs : s.step r = some s') : s'.Inv := by
  have hshows := shows_step h.shows hs
  obtain ⟨call, hcall, hr, rfl⟩ := step_cases hs
  have hcalls : ((s.log call r).resume r).calls = s.calls ++ [(call, r)] := calls_resume _ _
  refine ⟨hshows, ?_, ?_⟩
  · intro fd hfd
    have hopens : ((s.log call r).resume r).account.opens = s.account.opens ++
        [(call, r)].filterMap opened := by
      simp only [ClientRun.account, hcalls, List.filterMap_append]
    rw [ClientRun.uses, hcalls, List.filterMap_append, List.mem_append] at hfd
    rw [hopens]
    have hold : s.account.opens = [fd] := by
      rcases hfd with hbefore | hnow
      · exact h.uses fd hbefore
      · obtain ⟨c, hc, hfd⟩ := List.mem_filterMap.mp hnow
        rw [List.mem_singleton.mp hc] at hfd
        exact opens_of_used h.shows hcall hfd
    cases call with
    | socket =>
        -- nothing is open yet
        have hstart : s.account.opens = [] := by
          have hshows := h.shows
          cases hplace : s.place <;> rw [hplace] at hcall hshows <;> cases hcall
          rw [hshows]
        rw [hstart] at hold
        cases hold
    | _ => rw [hold]; rfl
  · have hrank := rank_resume h.shows hcall hr
    have hlength := h.length
    simp only [ClientRun.idleCalls, calls_resume, ClientRun.log, List.length_append,
      List.length_singleton, List.countP_append, List.countP_singleton] at *
    rcases hrank with hgets | ⟨hidles, hstays⟩
    · omega
    · rw [if_pos hidles]
      omega

end

theorem reachable_inv {s : ClientRun} (hs : clientMachine.Reachable s) : s.Inv := by
  refine Machine.invariant (M := clientMachine) ClientRun.Inv ?_ ?_ hs
  · rintro s rfl
    exact ⟨rfl, fun _ hfd => (by cases hfd), Nat.zero_le _⟩
  · exact fun s r s' h hstep => h.step hstep

theorem rank_le (place : Place) (a : Account) (h : place.Shows a) :
    place.rank ≤ 5 + message.length := by
  cases place with
  | send sock totalSent =>
      obtain ⟨hlt, -⟩ := h
      show 3 + totalSent ≤ 5 + message.length
      omega
  | _ => simp only [Place.rank]; omega

/-- What is said in every place of `main`. -/
theorem Place.Shows.sent {place : Place} {a : Account} (h : place.Shows a) :
    a.sent <+: message ∧ (a.received ≠ [] → a.sent = message) ∧
      ((∀ status, place ≠ .exited status) → a.closes = []) := by
  have htake : ∀ n, message.take n <+: message := fun n => List.take_prefix n message
  have hfailure : ∀ (sock : Int) (f : Failure), (f.account sock).sent <+: message ∧
      (f.account sock).received = [] ∧ (f.account sock).closes = [] := by
    intro sock f
    cases f with
    | address => exact ⟨List.nil_prefix, rfl, rfl⟩
    | connect e => exact ⟨List.nil_prefix, rfl, rfl⟩
    | send totalSent e => exact ⟨htake totalSent, rfl, rfl⟩
    | recv e => exact ⟨List.prefix_rfl, rfl, rfl⟩
  cases place with
  | socket =>
      obtain rfl := h
      exact ⟨List.nil_prefix, fun hne => absurd rfl hne, fun _ => rfl⟩
  | inet_pton sock =>
      obtain rfl := h
      exact ⟨List.nil_prefix, fun hne => absurd rfl hne, fun _ => rfl⟩
  | connect sock =>
      obtain rfl := h
      exact ⟨List.nil_prefix, fun hne => absurd rfl hne, fun _ => rfl⟩
  | send sock totalSent =>
      obtain ⟨-, rfl⟩ := h
      exact ⟨htake totalSent, fun hne => absurd rfl hne, fun _ => rfl⟩
  | recv sock =>
      obtain rfl := h
      exact ⟨List.prefix_rfl, fun _ => rfl, fun _ => rfl⟩
  | abandon sock =>
      obtain ⟨f, -, rfl⟩ := h
      obtain ⟨hsent, hreceived, hcloses⟩ := hfailure sock f
      exact ⟨hsent, fun hne => absurd hreceived hne, fun _ => hcloses⟩
  | cleanup sock =>
      obtain ⟨text, -, rfl⟩ := h
      exact ⟨List.prefix_rfl, fun _ => rfl, fun _ => rfl⟩
  | exited status =>
      refine ⟨?_, ?_, fun hne => absurd rfl (hne status)⟩
      · cases h with
        | noSocket e => exact List.nil_prefix
        | failed sock hf => exact (hfailure sock _).1
        | answered sock _ => exact List.prefix_rfl
        | notClosed sock e _ => exact List.prefix_rfl
      · intro hne
        cases h with
        | noSocket e => exact absurd rfl hne
        | @failed sock f hf => exact absurd (hfailure sock f).2.1 hne
        | answered sock _ => rfl
        | notClosed sock e _ => rfl

/-- What is received is printed, and is not longer than the buffer. -/
theorem Place.Shows.received {place : Place} {a : Account} (h : place.Shows a) {text : List Char}
    (htext : text ∈ a.received) :
    a.received = [text] ∧ text.length ≤ BUFFER_SIZE ∧ replyLine text ∈ a.cout := by
  have hlast : replyLine text ∈ [connectedLine, sentLine, replyLine text] := by simp
  have hfailure : ∀ (sock : Int) (f : Failure), (f.account sock).received = [] := by
    intro sock f
    cases f <;> rfl
  cases place with
  | socket => rw [h] at htext; cases htext
  | inet_pton sock => rw [h] at htext; cases htext
  | connect sock => rw [h] at htext; cases htext
  | send sock totalSent => rw [h.2] at htext; cases htext
  | recv sock => rw [h] at htext; cases htext
  | abandon sock =>
      obtain ⟨f, -, rfl⟩ := h
      rw [hfailure sock f] at htext
      cases htext
  | cleanup sock =>
      obtain ⟨text', hlength, rfl⟩ := h
      obtain rfl := List.mem_singleton.mp htext
      exact ⟨rfl, hlength, hlast⟩
  | exited status =>
      cases h with
      | noSocket e => cases htext
      | @failed sock f hf =>
          have hnone : text ∈ (f.account sock).received := htext
          rw [hfailure sock f] at hnone
          cases hnone
      | answered sock hlength =>
          obtain rfl := List.mem_singleton.mp htext
          exact ⟨rfl, hlength, hlast⟩
      | notClosed sock e hlength =>
          obtain rfl := List.mem_singleton.mp htext
          exact ⟨rfl, hlength, hlast⟩

/-- **What a run of the client comes to.** Whatever the kernel returns, with any number of
interrupted calls and partial sends: the kernel has taken the first bytes of the message, each
once and in order, and all of them before anything is received; only the socket that was opened is
used, and it stays open until `main` returns; but for the calls that are repeated there are at
most seventeen; and when `main` returns, its status, its text and its socket are as `Outcome`
says. -/
theorem client_outcome {s : ClientRun} (hs : clientMachine.Reachable s) :
    (s.account.sent <+: message ∧ (s.account.received ≠ [] → s.account.sent = message)) ∧
    (∀ fd ∈ s.uses, s.account.opens = [fd]) ∧
    ((∀ status, s.place ≠ .exited status) → s.account.closes = [] ∧ ∃ r s', s.step r = some s') ∧
    s.calls.length ≤ 17 + s.idleCalls ∧
    ∀ status, s.place = .exited status → Outcome status s.account := by
  have h := reachable_inv hs
  obtain ⟨hsent, hreceived, hcloses⟩ := h.shows.sent
  refine ⟨⟨hsent, hreceived⟩, h.uses, fun hmain => ⟨hcloses hmain, ?_⟩, ?_, ?_⟩
  · -- every call can fail
    have hpossible : ∀ call, Possible ⟨-1, .EINTR, []⟩ call := by
      intro call
      cases call <;> simp [Possible]
    have hcall : ∃ call, s.place.call = some call := by
      cases hplace : s.place with
      | exited status => exact absurd hplace (hmain status)
      | _ => exact ⟨_, rfl⟩
    obtain ⟨call, hcall⟩ := hcall
    refine ⟨⟨-1, .EINTR, []⟩, (s.log call ⟨-1, .EINTR, []⟩).resume ⟨-1, .EINTR, []⟩, ?_⟩
    rw [ClientRun.step, hcall, Option.bind_some, if_pos (hpossible call)]
  · have hlength := h.length
    have hrank := rank_le _ _ h.shows
    have hmessage : message.length = 12 := rfl
    omega
  · intro status hexited
    have hshows := h.shows
    rw [hexited] at hshows
    exact hshows

/-- Two sends with an interruption between them, an interrupted `recv`, the response, and a
failure of `close`, which does not count. -/
theorem client_outcome_interrupted : ∃ s, clientMachine.Reachable s ∧ s.place = .exited 0 ∧
    s.calls.length = 9 ∧ s.idleCalls = 2 ∧
    s.account = { Account.answered 3 ['R', 'e', 'q'] with
      closes := [3], cerr := ["close() failed: Input/output error\n"] } ∧
    Outcome 0 s.account := by
  have hrun : (Machine.execute ClientRun.step .start
      [⟨3, .EINTR, []⟩, ⟨1, .EINTR, []⟩, ⟨0, .EINTR, []⟩, ⟨5, .EINTR, []⟩, ⟨-1, .EINTR, []⟩,
        ⟨7, .EINTR, []⟩, ⟨-1, .EINTR, []⟩, ⟨3, .EINTR, ['R', 'e', 'q']⟩,
        ⟨-1, .other "Input/output error", []⟩]).map
      (fun s => (s.place, s.calls.length, s.idleCalls, s.account))
      = some (.exited 0, 9, 2, { Account.answered 3 ['R', 'e', 'q'] with
        closes := [3], cerr := ["close() failed: Input/output error\n"] }) := by
    decide +kernel
  obtain ⟨s, hexecute, hresult⟩ := Option.map_eq_some_iff.mp hrun
  simp only [Prod.mk.injEq] at hresult
  obtain ⟨hplace, hlength, hidle, haccount⟩ := hresult
  have hs : clientMachine.Reachable s := ⟨_, _, rfl, Machine.path_of_execute hexecute⟩
  exact ⟨s, hs, hplace, hlength, hidle, haccount, (client_outcome hs).2.2.2.2 0 hplace⟩

end PacketForge.ThreadPool.ClientProgram
