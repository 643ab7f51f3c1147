/-
Tasks that wait. A cell holds the single waiter of a resource; wake-ups are collected, each task
once, until they are delivered.
-/
import UdpStack.Bounded.Seq
import UdpStack.Limits

namespace UdpStack

/-- The name that a scheduler gives to a task. -/
structure Task where
  number : UInt32
  deriving DecidableEq, Repr, Inhabited

/-- The answer to a task that may have to wait. -/
inductive Poll (α : Type) where
  /-- The task is notified once it should try again. -/
  | pending
  | ready (result : Except Fault α)

/-- The single waiter of a resource. -/
structure WaitCell where
  waiter : Option Task
  deriving DecidableEq, Repr, Inhabited

namespace WaitCell

/-- A cell that nobody waits in. -/
def empty : WaitCell := ⟨none⟩

/-- The answer to a task that wants to wait. -/
inductive Registration where
  | waiting
  /-- Another task is waiting already. -/
  | occupied (other : Task)
  deriving DecidableEq, Repr

/-- Let a task wait, unless another one does. -/
def register (c : WaitCell) (t : Task) : Registration × WaitCell :=
  match c.waiter with
  | some other => if other = t then (.waiting, ⟨some t⟩) else (.occupied other, c)
  | none => (.waiting, ⟨some t⟩)

/-- Take the waiter out. -/
def take (c : WaitCell) : Option Task × WaitCell := (c.waiter, ⟨none⟩)

/-- Stop waiting, if it is `t` that waits. -/
def cancel (c : WaitCell) (t : Task) : WaitCell := if c.waiter = some t then ⟨none⟩ else c

end WaitCell

/-- Wake-ups that are not delivered yet. -/
structure Wakeups where
  pending : Bounded.Seq Task Limits.wakeups
  /-- Whether a wake-up found no room. -/
  overflowed : Bool
  deriving Repr

namespace Wakeups

/-- No wake-ups. -/
def empty : Wakeups := ⟨.empty, false⟩

instance : Inhabited Wakeups := ⟨empty⟩

/-- Record a task once. -/
def wake (w : Wakeups) (t : Task) : Wakeups :=
  if t ∈ w.pending.toList then w
  else match w.pending.push t with
    | .ok pending => { w with pending := pending }
    | .error _ => { w with overflowed := true }

/-- Hand out all recorded tasks in the order of their wake-ups. -/
def deliver (w : Wakeups) : List Task × Wakeups := (w.pending.toList, empty)

end Wakeups

end UdpStack
