import ZigbeeHost.Error

/-!
# Transactions

A transaction is one synchronous request on its way from registration to its
outcome. It is resolved once: the first outcome decides its state and goes to
the waiting caller, and later ones are ignored.
-/

namespace ZigbeeHost

/-- How a request ends: with the payload of its response, or with an error. -/
abbrev Outcome := Except Error Bytes

/-- The life of a transaction. -/
inductive TransactionState where
  | pending
  | resolved
  /-- The radio or the transport has reported an error. -/
  | failed
  | timedOut
  | cancelled
deriving DecidableEq, Repr

/-- The state that an outcome leads to. -/
def TransactionState.ofOutcome : Outcome → TransactionState
  | .ok _ => .resolved
  | .error (.timeout _ _) => .timedOut
  | .error .cancelled => .cancelled
  | .error _ => .failed

/-- The waiting side of a transaction. -/
inductive Reply where
  | waiting
  | delivered (outcome : Outcome)
  | taken
  | dropped

namespace Reply

/-- Hands an outcome to a caller who waits; nobody else gets it. -/
def deliver (reply : Reply) (outcome : Outcome) : Reply :=
  match reply with
  | .waiting => .delivered outcome
  | other => other

end Reply

/-- One synchronous request. -/
structure Transaction where
  key : CommandKey
  /-- How long the request may take, in milliseconds. -/
  limit : Nat
  /-- The time at which the request is given up. -/
  deadline : Nat
  state : TransactionState := .pending
  reply : Reply := .waiting
  timer : Option Nat := none

namespace Transaction

def timeoutError (transaction : Transaction) : Error :=
  .timeout transaction.key transaction.limit

def settle (transaction : Transaction) (outcome : Outcome) : Transaction :=
  { transaction with
    state := .ofOutcome outcome
    reply := transaction.reply.deliver outcome
    timer := none }

theorem ofOutcome_ne_pending (outcome : Outcome) :
    TransactionState.ofOutcome outcome ≠ .pending := by
  unfold TransactionState.ofOutcome
  split <;> simp

end Transaction

end ZigbeeHost
