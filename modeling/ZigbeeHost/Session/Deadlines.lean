import ZigbeeHost.Session.Basic

/-!
# Deadlines

A timer gives its transaction up in two steps: it takes the transaction out of
the table, and later resolves it.  In between the transaction is overdue.  It is
still pending, but nobody else can end it, and its key is free again.
-/

namespace ZigbeeHost.Session

/-- A timer that is due goes off and takes its transaction out of the table, if
that still waits. -/
def goOff (session : Session) (timer : Nat) : Session :=
  { session with
    ledger := (session.ledger.wake timer).2
    overdue := (session.ledger.wake timer).1.toList ++ session.overdue }

/-- The timer that has taken a transaction out of the table resolves it. -/
def giveUp (session : Session) (number : Nat) : Session :=
  { session with
    ledger := if number ∈ session.overdue then session.ledger.timeOut number else session.ledger
    overdue := session.overdue.erase number }

/-- A timer that is due takes both steps. -/
def fire (session : Session) (timer : Nat) : Session :=
  match (session.ledger.wake timer).1 with
  | none => session.goOff timer
  | some number => (session.goOff timer).giveUp number

end ZigbeeHost.Session
