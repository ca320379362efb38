import PacketForge.Lib.Machine

set_option autoImplicit false

/-! # Queues

A queue as a machine: its state are the items that are pending, its labels are what was done to
it. `supplied` and `delivered` are what went in and what came out since the queue was cleared the
last time. `delivered_append` is the law of a queue: what came out, followed by what is pending,
is what went in.

A data structure is a queue if its runs are runs of this machine. The law is then a consequence
that mentions neither the representation nor the order of the calls.
-/

namespace Fifo

variable {α : Type}

/-- What is done to a queue. A request for more items than are pending is refused. -/
inductive Event (α : Type) where
  | push (items : List α)
  | pop (items : List α)
  | refuse (count : Nat)
  | clear
  deriving DecidableEq, Repr

inductive Step : List α → Event α → List α → Prop
  | push (pending items : List α) : Step pending (.push items) (pending ++ items)
  | pop (items pending : List α) : Step (items ++ pending) (.pop items) pending
  | refuse {pending : List α} {count : Nat} : pending.length < count →
      Step pending (.refuse count) pending
  | clear (pending : List α) : Step pending .clear []

/-- The queue that is empty at first. -/
def machine (α : Type) : Machine (List α) (Event α) := ⟨fun pending => pending = [], Step⟩

/-- What went in before the event and does with it. -/
def Event.supply (items : List α) : Event α → List α
  | push new => items ++ new
  | clear => []
  | _ => items

/-- What came out before the event and does with it. -/
def Event.deliver (items : List α) : Event α → List α
  | pop old => items ++ old
  | clear => []
  | _ => items

/-- What went in since the last `clear`. -/
def supplied (events : List (Event α)) : List α := events.foldl Event.supply []

/-- What came out since the last `clear`. -/
def delivered (events : List (Event α)) : List α := events.foldl Event.deliver []

@[simp] theorem supplied_snoc (events : List (Event α)) (e : Event α) :
    supplied (events ++ [e]) = e.supply (supplied events) := by
  rw [supplied, List.foldl_append]
  rfl

@[simp] theorem delivered_snoc (events : List (Event α)) (e : Event α) :
    delivered (events ++ [e]) = e.deliver (delivered events) := by
  rw [delivered, List.foldl_append]
  rfl

/-- **First in, first out.** Along every run, what was delivered, followed by what is pending, is
what was supplied. -/
theorem delivered_append {events : List (Event α)} {pending : List α}
    (h : (machine α).Path [] events pending) :
    delivered events ++ pending = supplied events := by
  induction h with
  | nil => rfl
  | snoc _ hstep ih =>
      rw [delivered_snoc, supplied_snoc, ← ih]
      cases hstep with
      | push pending items => simp only [Event.deliver, Event.supply, List.append_assoc]
      | pop items pending => simp only [Event.deliver, Event.supply, List.append_assoc]
      | refuse _ => rfl
      | clear pending => rfl

/-- The number of pending items, from the numbers of those that went in and came out. -/
theorem length_pending {events : List (Event α)} {pending : List α}
    (h : (machine α).Path [] events pending) :
    (delivered events).length ≤ (supplied events).length ∧
      pending.length = (supplied events).length - (delivered events).length := by
  rw [← delivered_append h, List.length_append]
  omega

end Fifo
