/-!
# Mailboxes

A mailbox of limited capacity. A push never waits: what does not fit is lost, and so is what is pushed after
the owner closed the mailbox or went away.
-/

namespace AgentMesh

structure Mailbox (α : Type) where
  capacity : Nat
  queue : List α := []
  /-- Whether the owner still accepts pushes. -/
  isOpen : Bool := true
  /-- Whether the owner is gone, and the queue with it. -/
  isDropped : Bool := false
deriving Repr, DecidableEq, Inhabited

namespace Mailbox

variable {α : Type}

def push (b : Mailbox α) (a : α) : Mailbox α :=
  if b.isOpen && b.queue.length < b.capacity then { b with queue := b.queue ++ [a] } else b

def close (b : Mailbox α) : Mailbox α :=
  { b with isOpen := false }

def drop (b : Mailbox α) : Mailbox α :=
  { b with isOpen := false, isDropped := true, queue := [] }

/-- Takes what has waited longest, if anything waits. -/
def receive (b : Mailbox α) : Mailbox α × Option α :=
  ({ b with queue := b.queue.tail }, b.queue.head?)

/-- Takes everything that waits; nothing can be taken by an owner who is gone. -/
def drain (b : Mailbox α) : Mailbox α × Option (List α) :=
  if b.isDropped then (b, none) else ({ b with queue := [] }, some b.queue)

end Mailbox

end AgentMesh
