import PacketForge.Lib.Parallel
import PacketForge.Network.Socket

set_option autoImplicit false

/-! # Two processes and one connection

A client process and a server process on one host, connected by one stream in each direction. What
the kernel answers to a call of one process depends on what both have done so far; the histories
are all the state there is.

* `Wire` is what holds whatever goes wrong: the bytes that a process reads are the next ones that
  the other process has written.
* `Loopback` is the kernel when nothing goes wrong. Its calls may move any part of the bytes they
  are asked to move. `::accept` waits for a client, `::recv` waits for bytes or for the end of the
  stream, and `::connect` is refused as long as nobody listens.

A call that waits is one that has no answer yet: it becomes possible when the history of the other
process has grown. So a deadlock of the two processes would be a state in which neither has an
answer, and `exists_loopback` says which calls that can be.
-/

namespace PacketForge.Network

open Interaction Common

/-! ## The ends of the connection

All of it is computed from a history: which descriptor is the end of a process, what was written
and read there, and whether it was closed.
-/

/-- The descriptor on which a call completed a connection, from either side: a `::connect` that
succeeded, or what an `::accept` returned. -/
def linked : SysEvent → Option Int
  | ⟨.connect fd _ _, r⟩ => if r.value < 0 then none else some fd
  | ⟨.accept _, r⟩ => if r.value < 0 then none else some r.value
  | _ => none

/-- The end that a process has of the connection: that of the last `::connect` or `::accept` that
succeeded. -/
def endpoint : SysHistory → Option Int
  | [] => none
  | e :: h => (linked e).or (endpoint h)

/-- What a process has written on its end. -/
def output (h : SysHistory) : List UInt8 := (endpoint h).elim [] fun fd => written fd h

/-- What a process has read on its end. -/
def input (h : SysHistory) : List UInt8 := (endpoint h).elim [] fun fd => consumed fd h

/-- A process has closed its end of the connection: it had one, and its descriptor is not open any
more. -/
def HungUp (h : SysHistory) : Prop := ∃ fd, endpoint h = some fd ∧ ¬ IsOpen h fd

/-- A process listens on an address: a socket of it that is still open was bound to the address,
and `::listen` succeeded on it. -/
def Listens (h : SysHistory) (address : String) (port : UInt16) : Prop :=
  ∃ l, IsOpen h l ∧ (∃ r : Ret, (⟨.bind l address port, r⟩ : SysEvent) ∈ h ∧ 0 ≤ r.value) ∧
    ∃ (backlog : Int) (r : Ret), (⟨.listen l backlog, r⟩ : SysEvent) ∈ h ∧ 0 ≤ r.value

section

variable {h : SysHistory} {e : SysEvent} {fd : Int}

@[simp] theorem endpoint_cons (e : SysEvent) (h : SysHistory) :
    endpoint (e :: h) = (linked e).or (endpoint h) := rfl

theorem endpoint_cons_none (he : linked e = none) : endpoint (e :: h) = endpoint h := by
  rw [endpoint_cons, he, Option.none_or]

theorem endpoint_cons_some (he : linked e = some fd) : endpoint (e :: h) = some fd := by
  rw [endpoint_cons, he, Option.some_or]

theorem output_of_endpoint (hfd : endpoint h = some fd) : output h = written fd h := by
  rw [output, hfd, Option.elim_some]

theorem input_of_endpoint (hfd : endpoint h = some fd) : input h = consumed fd h := by
  rw [input, hfd, Option.elim_some]

theorem output_of_none (hnone : endpoint h = none) : output h = [] := by
  rw [output, hnone, Option.elim_none]

theorem input_of_none (hnone : endpoint h = none) : input h = [] := by
  rw [input, hnone, Option.elim_none]

theorem endpoint_ne_none_of_input (hne : input h ≠ []) : endpoint h ≠ none :=
  fun hnone => hne (input_of_none hnone)

/-- Only a `::send` on the end of a process adds to its output. -/
theorem output_cons (he : linked e = none) :
    output (e :: h) = output h ++ (endpoint h).elim [] fun fd => sent fd e := by
  rw [output, output, endpoint_cons_none he]
  cases endpoint h <;> rfl

theorem input_cons (he : linked e = none) :
    input (e :: h) = input h ++ (endpoint h).elim [] fun fd => taken fd e := by
  rw [input, input, endpoint_cons_none he]
  cases endpoint h <;> rfl

theorem output_cons_of_sent (he : linked e = none) (hsent : ∀ fd, sent fd e = []) :
    output (e :: h) = output h := by
  rw [output_cons he]
  cases endpoint h with
  | none => exact List.append_nil _
  | some fd => rw [Option.elim_some, hsent, List.append_nil]

theorem input_cons_of_taken (he : linked e = none) (htaken : ∀ fd, taken fd e = []) :
    input (e :: h) = input h := by
  rw [input_cons he]
  cases endpoint h with
  | none => exact List.append_nil _
  | some fd => rw [Option.elim_some, htaken, List.append_nil]

/-- A call that closes nothing and connects nothing cannot hang up. -/
theorem HungUp.of_cons (hhung : HungUp (e :: h)) (hlinked : linked e = none)
    (hreleased : released e = none) : HungUp h := by
  obtain ⟨fd, hfd, hclosed⟩ := hhung
  rw [endpoint_cons_none hlinked] at hfd
  refine ⟨fd, hfd, fun hopen => hclosed (.inr ⟨?_, hopen⟩)⟩
  rw [hreleased]
  exact nofun

/-- A process listens until it closes its socket. -/
theorem Listens.cons {address : String} {port : UInt16} (hl : Listens h address port)
    (hreleased : released e = none) : Listens (e :: h) address port := by
  obtain ⟨l, hopen, ⟨r, hbind, hr⟩, backlog, r', hlisten, hr'⟩ := hl
  refine ⟨l, .inr ⟨?_, hopen⟩, ⟨r, List.mem_cons_of_mem e hbind, hr⟩,
    backlog, r', List.mem_cons_of_mem e hlisten, hr'⟩
  rw [hreleased]
  exact nofun

/-- A process that has just connected an open descriptor has not hung up. -/
theorem not_hungUp_of_linked (hlinked : linked e = some fd) (hopen : IsOpen (e :: h) fd) :
    ¬ HungUp (e :: h) := by
  rintro ⟨fd', hfd', hclosed⟩
  rw [endpoint_cons_some hlinked] at hfd'
  obtain rfl := Option.some.inj hfd'
  exact hclosed hopen

end

/-! ## The kernel between the two

The environments of one process, given the history of the other one.
-/

/-- What the other process has written and this one has not yet read. -/
def arriving (theirs h : SysHistory) : List UInt8 := (output theirs).drop (input h).length

/-- The other process has closed its end without reading all that was written to it, so that the
connection is reset. -/
def Reset (theirs h : SysHistory) : Prop := HungUp theirs ∧ input theirs ≠ output h

/-- The stream between the processes: a `::recv` may fail or find the end of the stream at any time,
but the bytes that it gives are the next ones of the stream. -/
def Wire (theirs : SysHistory) : Env Sys Sys.Res := fun h op r =>
  Kernel h op r ∧
    match op, r with
    | .recv fd _ _, r => endpoint h = some fd → ∀ bytes, r = some bytes →
        bytes <+: arriving theirs h
    | _, _ => True

/-- The kernel when nothing fails, nobody asks for a shutdown, and there is one client. A
`::connect` succeeds exactly if the other process listens, an `::accept` waits for the client, a
`::recv` waits for bytes or for the end of the stream, and a transfer can fail only on a
connection that was reset or left. -/
def Loopback (theirs : SysHistory) : Env Sys Sys.Res := fun h op r =>
  Wire theirs h op r ∧
    match op, r with
    | .socket, r => 0 ≤ r.value
    | .setsockopt _, r => 0 ≤ r.value
    | .inet_pton _, r => r = 1
    | .bind _ _ _, r => 0 ≤ r.value
    | .listen _ _, r => 0 ≤ r.value
    | .getsockname _, r => 0 ≤ r.1.value
    | .connect _ address port, r => 0 ≤ r.value ↔ Listens theirs address port
    | .accept _, r => 0 ≤ r.value ∧ endpoint h = none ∧ endpoint theirs ≠ none
    | .send fd data _, r => endpoint h = some fd → ¬ HungUp theirs → data ≠ [] → 0 < r
    | .recv fd size _, r => endpoint h = some fd → ¬ Reset theirs h → r ≠ none ∧
        (r = some [] → size = 0 ∨ (arriving theirs h = [] ∧ HungUp theirs))
    | .shutdownRequested, r => r = false
    | _, _ => True

/-- The surroundings of a client and a server, given what the kernel does for each of them. -/
def between (E : SysHistory → Env Sys Sys.Res) : Shared Sys Sys.Res := ⟨E, E⟩

theorem Loopback.le_wire (theirs : SysHistory) : Loopback theirs ≤ Wire theirs :=
  fun _ _ _ hr => hr.1

/-- What a process reads remains a first part of what the other one writes. -/
theorem Wire.input_prefix {theirs h : SysHistory} {op : Sys} {r : op.Res}
    (hr : Wire theirs h op r) (hinput : input h <+: output theirs)
    (hlinked : linked ⟨op, r⟩ = none) : input (⟨op, r⟩ :: h) <+: output theirs := by
  rw [input_cons hlinked]
  cases hend : endpoint h with
  | none => rwa [Option.elim_none, List.append_nil]
  | some fd =>
      cases op with
      | recv fd' size flags =>
          by_cases hfd : fd' = fd
          · subst hfd
            rw [Option.elim_some, taken, if_pos rfl]
            rcases r with _ | bytes
            · rwa [Option.getD_none, List.append_nil]
            · obtain ⟨rest, hrest⟩ := hr.2 hend bytes rfl
              refine ⟨rest, ?_⟩
              rw [Option.getD_some, List.append_assoc, hrest, arriving]
              conv_lhs => rw [List.prefix_iff_eq_take.mp hinput]
              rw [List.length_take, min_eq_left hinput.length_le, List.take_append_drop]
          · rwa [Option.elim_some, taken, if_neg hfd, List.append_nil]
      | _ => simpa [taken] using hinput

/-- Every call but `::accept` and `::recv` is answered at once. -/
theorem exists_loopback (theirs h : SysHistory) (op : Sys) (haccept : ∀ l, op ≠ .accept l)
    (hrecv : ∀ fd size flags, op = .recv fd size flags →
      arriving theirs h ≠ [] ∨ HungUp theirs ∨ Reset theirs h) :
    ∃ r, Loopback theirs h op r := by
  obtain ⟨fresh, hfresh, hnot⟩ := exists_not_isOpen h
  cases op with
  | socket => exact ⟨⟨fresh, ""⟩, ⟨.inr ⟨hfresh, hnot⟩, trivial⟩, hfresh⟩
  | accept l => exact absurd rfl (haccept l)
  | connect fd address port =>
      by_cases hl : Listens theirs address port
      · exact ⟨⟨0, ""⟩, ⟨trivial, trivial⟩, iff_of_true le_rfl hl⟩
      · exact ⟨⟨-1, "Connection refused"⟩, ⟨trivial, trivial⟩, iff_of_false (by decide) hl⟩
  | send fd data flags =>
      refine ⟨(data.length : Int), ⟨le_rfl, trivial⟩, fun _ _ hne => ?_⟩
      exact Int.natCast_pos.mpr (List.length_pos_of_ne_nil hne)
  | recv fd size flags =>
      -- all that has arrived and was asked for
      have hkernel : Kernel h (.recv fd size flags) (some ((arriving theirs h).take size)) := by
        intro bytes hbytes
        obtain rfl := Option.some.inj hbytes
        exact List.length_take_le _ _
      refine ⟨some ((arriving theirs h).take size), ⟨hkernel, fun _ bytes hbytes => ?_⟩,
        fun _ hreset => ⟨Option.some_ne_none _, fun hnil => ?_⟩⟩
      · obtain rfl := Option.some.inj hbytes
        exact List.take_prefix _ _
      · rcases List.take_eq_nil_iff.mp (Option.some.inj hnil) with hzero | hnone
        · exact .inl hzero
        · rcases hrecv fd size flags rfl with hsome | hhung | hreset'
          · exact absurd hnone hsome
          · exact .inr ⟨hnone, hhung⟩
          · exact absurd hreset' hreset
  | setsockopt => exact ⟨⟨0, ""⟩, ⟨trivial, trivial⟩, le_rfl⟩
  | inet_pton => exact ⟨(1 : Int), ⟨trivial, trivial⟩, rfl⟩
  | bind => exact ⟨⟨0, ""⟩, ⟨trivial, trivial⟩, le_rfl⟩
  | listen => exact ⟨⟨0, ""⟩, ⟨trivial, trivial⟩, le_rfl⟩
  | getsockname => exact ⟨(⟨0, ""⟩, 0), ⟨trivial, trivial⟩, le_rfl⟩
  | close => exact ⟨(), ⟨trivial, trivial⟩, trivial⟩
  | shutdownRequested => exact ⟨false, ⟨trivial, trivial⟩, rfl⟩
  | cinGet => exact ⟨(), ⟨trivial, trivial⟩, trivial⟩

/-- A server that has no client yet accepts one that waits. -/
theorem exists_loopback_accept {theirs h : SysHistory} (l : Int) (hmine : endpoint h = none)
    (htheirs : endpoint theirs ≠ none) : ∃ r, Loopback theirs h (.accept l) r := by
  obtain ⟨fresh, hfresh, hnot⟩ := exists_not_isOpen h
  exact ⟨⟨fresh, ""⟩, ⟨.inr ⟨hfresh, hnot⟩, trivial⟩, hfresh, hmine, htheirs⟩

end PacketForge.Network
