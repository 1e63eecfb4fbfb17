import ZigbeeHost.Proofs.Transaction.Effects

/-!
# Racing for transactions

The engine, the timers and everybody who cancels share one ledger.  Each of
them proceeds in indivisible steps, and between removing a transaction and
resolving it anything else may happen.  A race consists of the ledger and the
steps that are still to be taken, in any order.  It also records which
transactions have been registered, which outcomes came first, and which
outcomes the callers have received.
-/

namespace ZigbeeHost

/-- A step that is still to be taken. -/
inductive Task where
  | register (number : Nat)
  | start (number : Nat)
  /-- The engine hands a started timer to its transaction. -/
  | arm (number timer : Nat)
  | write (number : Nat)
  /-- A transaction whose frame could not be written, or whose deadline has
  passed, is given up. -/
  | expire (key : CommandKey) (number : Nat) (error : Error)
  /-- The engine resolves a transaction that it could not register. -/
  | refuse (number : Nat) (error : Error)
  /-- Whoever has removed a transaction from the table resolves it. -/
  | resolve (number : Nat) (outcome : Outcome)

namespace Task

/-- The transaction that has not been registered and is about to be, or to be
refused. -/
def offers : Task → Option Nat
  | .register number => some number
  | .refuse number _ => some number
  | .start _ => none
  | .arm _ _ => none
  | .write _ => none
  | .expire _ _ _ => none
  | .resolve _ _ => none

/-- The transaction that has been removed and is about to be resolved. -/
def holds : Task → Option Nat
  | .resolve number _ => some number
  | .register _ => none
  | .start _ => none
  | .arm _ _ => none
  | .write _ => none
  | .expire _ _ _ => none
  | .refuse _ _ => none

end Task

/-- The ledger with the steps that are still to be taken, and what has happened
so far, the latest first. -/
structure Race where
  ledger : Ledger := {}
  tasks : List Task := []
  /-- The transactions that have been registered. -/
  registered : List Nat := []
  /-- The outcomes for which resolving has reported that they were the first. -/
  wins : List (Nat × Outcome) := []
  /-- The outcomes that callers have received. -/
  received : List (Nat × Outcome) := []

namespace Race

/-- Something that can happen next. -/
inductive Move where
  | begin (key : CommandKey) (limit : Nat)
  /-- One of the tasks is carried out; a frame is written. -/
  | proceed (index : Nat)
  /-- A frame cannot be written. -/
  | failWrite (index : Nat) (cause : TransportError)
  | answer (key : CommandKey) (payload : Bytes)
  | reject (key : CommandKey) (code : DeviceErrorCode)
  | cancelAll
  | wake (timer : Nat)
  | wait (milliseconds : Nat)
  | collect (number : Nat)
  | leave (number : Nat)

/-- What has been removed from the table is about to be resolved. -/
def hold (race : Race) (removal : Option Nat × Ledger) (outcome : Outcome) : Race :=
  match removal with
  | (none, ledger) => { race with ledger }
  | (some number, ledger) =>
      { race with ledger, tasks := .resolve number outcome :: race.tasks }

def settle (race : Race) (number : Nat) (outcome : Outcome) : Race :=
  let (first, ledger) := race.ledger.resolve number outcome
  { race with
    ledger
    wins := if first then (number, outcome) :: race.wins else race.wins }

/-- Carries a task out. -/
def perform (race : Race) : Task → Race
  | .register number =>
      match race.ledger.register number with
      | .error error => { race with tasks := .refuse number error :: race.tasks }
      | .ok ledger =>
          { race with
            ledger
            tasks := .start number :: race.tasks
            registered := number :: race.registered }
  | .start number =>
      match race.ledger.transactions[number]? with
      | none => race
      | some transaction =>
          let (timer, ledger) := race.ledger.startTimer number transaction
          { race with ledger, tasks := .arm number timer :: race.tasks }
  | .arm number timer =>
      { race with
        ledger := race.ledger.keepTimer number timer
        tasks := .write number :: race.tasks }
  | .write _ => race
  | .expire key number error => race.hold (race.ledger.expire key number) (.error error)
  | .refuse number error => race.settle number (.error error)
  | .resolve number outcome => race.settle number outcome

/-- The race after a move; a move that is not possible changes nothing. -/
def step (race : Race) : Move → Race
  | .begin key limit =>
      let (number, ledger) := race.ledger.create key limit
      { race with ledger, tasks := .register number :: race.tasks }
  | .proceed index =>
      match race.tasks[index]? with
      | none => race
      | some task => { race with tasks := race.tasks.eraseIdx index }.perform task
  | .failWrite index cause =>
      match race.tasks[index]? with
      | some (.write number) =>
          match race.ledger.transactions[number]? with
          | none => race
          | some transaction =>
              { race with
                tasks := .expire transaction.key number (.transport cause) ::
                  race.tasks.eraseIdx index }
      | _ => race
  | .answer key payload => race.hold (race.ledger.unregister key) (.ok payload)
  | .reject key code => race.hold (race.ledger.unregister key) (.error (.device code))
  | .cancelAll =>
      let (numbers, ledger) := race.ledger.removeAll
      { race with
        ledger
        tasks := numbers.map (.resolve · (.error .cancelled)) ++ race.tasks }
  | .wake timer =>
      match race.ledger.timers[timer]? with
      | none => race
      | some entry =>
          match race.ledger.transactions[entry.transaction]? with
          | none => race
          | some transaction =>
              if race.ledger.isDue entry then
                { race with
                  ledger :=
                    { race.ledger with
                      timers := race.ledger.timers.set timer { entry with state := .fired } }
                  tasks := .expire entry.key entry.transaction transaction.timeoutError ::
                    race.tasks }
              else race
  | .wait milliseconds =>
      { race with ledger := { race.ledger with now := race.ledger.now + milliseconds } }
  | .collect number =>
      match race.ledger.takeReply number with
      | (none, ledger) => { race with ledger }
      | (some outcome, ledger) =>
          { race with ledger, received := (number, outcome) :: race.received }
  | .leave number => { race with ledger := race.ledger.dropReply number }

def run (race : Race) (moves : List Move) : Race :=
  moves.foldl step race

/-- The outcomes of one transaction in a record. -/
def outcomesOf (number : Nat) (entries : List (Nat × Outcome)) : List Outcome :=
  entries.filterMap fun entry => if entry.1 = number then some entry.2 else none

/-- The first outcomes that a transaction has had. -/
def winsOf (race : Race) (number : Nat) : List Outcome :=
  outcomesOf number race.wins

/-- The outcomes that the caller of a transaction has received. -/
def receivedOf (race : Race) (number : Nat) : List Outcome :=
  outcomesOf number race.received

/-- The transactions that are about to be registered or refused. -/
def offered (race : Race) : List Nat :=
  race.tasks.filterMap Task.offers

/-- The transactions that have been removed from the table and are about to be
resolved, each as often as there is somebody to do so. -/
def held (race : Race) : List Nat :=
  race.tasks.filterMap Task.holds

end Race

end ZigbeeHost
