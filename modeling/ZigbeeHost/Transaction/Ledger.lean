import ZigbeeHost.Transaction.Basic

/-!
# The ledger of transactions

The ledger holds all transactions, the table of those that wait for a
response, and the timers that watch deadlines. At most one transaction waits
under each key. Removing a transaction from the table is what entitles to
resolve it: the response, the timer and the end of the session each remove it
first, and whoever comes later finds it gone.

Each operation here is one indivisible step. The longer activities, such as
waking a timer and resolving its transaction, are made of such steps.
-/

namespace ZigbeeHost

/-- Whether a timer can still go off. -/
inductive TimerState where
  | asleep
  | fired
  | aborted
deriving DecidableEq, Repr

/-- A timer that gives one transaction up at its deadline. -/
structure Timer where
  key : CommandKey
  transaction : Nat
  deadline : Nat
  state : TimerState := .asleep
deriving DecidableEq, Repr

/-- All transactions so far, with the current time in milliseconds. A
transaction or timer is known by its position, which never changes. -/
structure Ledger where
  now : Nat := 0
  transactions : List Transaction := []
  /-- The transactions that wait for a response, by key. -/
  waiting : List (CommandKey × Nat) := []
  timers : List Timer := []

namespace Ledger

/-- Starts a transaction that has the given time from now on; its number is the
first result. -/
def create (ledger : Ledger) (key : CommandKey) (limit : Nat) : Nat × Ledger :=
  (ledger.transactions.length,
    { ledger with
      transactions :=
        ledger.transactions ++ [{ key, limit, deadline := ledger.now + limit }] })

def find? (ledger : Ledger) (key : CommandKey) : Option Nat :=
  (ledger.waiting.find? fun entry => entry.1 = key).map Prod.snd

def remove (ledger : Ledger) (key : CommandKey) : Ledger :=
  { ledger with waiting := ledger.waiting.filter fun entry => entry.1 ≠ key }

/-- Lets a transaction wait under its key, which must be free. -/
def register (ledger : Ledger) (number : Nat) : Except Error Ledger :=
  match ledger.transactions[number]? with
  | none => .ok ledger
  | some transaction =>
      match ledger.find? transaction.key with
      | some _ => .error (.duplicateTransaction transaction.key)
      | none => .ok { ledger with waiting := ledger.waiting ++ [(transaction.key, number)] }

def unregister (ledger : Ledger) (key : CommandKey) : Option Nat × Ledger :=
  (ledger.find? key, ledger.remove key)

/-- Removes the transaction under a key only if it has the given number. -/
def expire (ledger : Ledger) (key : CommandKey) (number : Nat) : Option Nat × Ledger :=
  if ledger.find? key = some number then (some number, ledger.remove key) else (none, ledger)

def removeAll (ledger : Ledger) : List Nat × Ledger :=
  (ledger.waiting.map Prod.snd, { ledger with waiting := [] })

/-- Stops a timer that has not gone off. -/
def abort (ledger : Ledger) (timer : Nat) : Ledger :=
  { ledger with
    timers := ledger.timers.modify timer fun entry =>
      if entry.state = .asleep then { entry with state := .aborted } else entry }

/-- Gives a transaction its outcome and tells whether it was the first one. The
timer is stopped, unless it is the timer that has resolved the transaction. -/
def resolve (ledger : Ledger) (number : Nat) (outcome : Outcome) : Bool × Ledger :=
  match ledger.transactions[number]? with
  | none => (false, ledger)
  | some transaction =>
      if transaction.state = .pending then
        let settled :=
          { ledger with
            transactions := ledger.transactions.set number (transaction.settle outcome) }
        match transaction.timer with
        | some timer =>
            if TransactionState.ofOutcome outcome = .timedOut then (true, settled)
            else (true, settled.abort timer)
        | none => (true, settled)
      else (false, ledger)

def resolveAll (ledger : Ledger) (outcome : Outcome) : List Nat → Nat × Ledger
  | [] => (0, ledger)
  | number :: rest =>
      let (first, next) := ledger.resolve number outcome
      let (count, last) := next.resolveAll outcome rest
      (count + first.toNat, last)

/-- Cancels all transactions that wait, and counts them. -/
def cancelAll (ledger : Ledger) : Nat × Ledger :=
  let (numbers, next) := ledger.removeAll
  next.resolveAll (.error .cancelled) numbers

/-- Starts a timer for the deadline of a transaction; its position is the first
result. -/
def startTimer (ledger : Ledger) (number : Nat) (transaction : Transaction) : Nat × Ledger :=
  (ledger.timers.length,
    { ledger with
      timers := ledger.timers ++
        [{ key := transaction.key, transaction := number, deadline := transaction.deadline }] })

/-- Lets a pending transaction keep its timer; the timer of any other one is
stopped. -/
def keepTimer (ledger : Ledger) (number timer : Nat) : Ledger :=
  match ledger.transactions[number]? with
  | none => ledger
  | some transaction =>
      if transaction.state = .pending then
        { ledger with
          transactions := ledger.transactions.set number { transaction with timer := some timer } }
      else ledger.abort timer

def arm (ledger : Ledger) (number : Nat) : Ledger :=
  match ledger.transactions[number]? with
  | none => ledger
  | some transaction =>
      let (timer, next) := ledger.startTimer number transaction
      next.keepTimer number timer

def isDue (ledger : Ledger) (timer : Timer) : Bool :=
  timer.state = .asleep && timer.deadline ≤ ledger.now

/-- Lets a timer that is due go off: it removes its transaction from the table
if that still waits, and the result is the transaction it must resolve. -/
def wake (ledger : Ledger) (timer : Nat) : Option Nat × Ledger :=
  match ledger.timers[timer]? with
  | none => (none, ledger)
  | some entry =>
      if ledger.isDue entry then
        let timers := ledger.timers.set timer { entry with state := .fired }
        let awake := { ledger with timers }
        awake.expire entry.key entry.transaction
      else (none, ledger)

def timeOut (ledger : Ledger) (number : Nat) : Ledger :=
  match ledger.transactions[number]? with
  | none => ledger
  | some transaction => (ledger.resolve number (.error transaction.timeoutError)).2

def fire (ledger : Ledger) (timer : Nat) : Ledger :=
  match ledger.wake timer with
  | (some number, next) => next.timeOut number
  | (none, next) => next

def fireDue (ledger : Ledger) : Ledger :=
  (List.range ledger.timers.length).foldl fire ledger

def advance (ledger : Ledger) (milliseconds : Nat) : Ledger :=
  { ledger with now := ledger.now + milliseconds }.fireDue

/-- The outcome that waits for the caller of a transaction, which is taken. -/
def takeReply (ledger : Ledger) (number : Nat) : Option Outcome × Ledger :=
  match ledger.transactions[number]? with
  | some transaction =>
      match transaction.reply with
      | .delivered outcome =>
          (some outcome,
            { ledger with
              transactions := ledger.transactions.set number { transaction with reply := .taken } })
      | _ => (none, ledger)
  | none => (none, ledger)

def dropReply (ledger : Ledger) (number : Nat) : Ledger :=
  { ledger with
    transactions := ledger.transactions.modify number fun transaction =>
      { transaction with reply := .dropped } }

end Ledger

end ZigbeeHost
