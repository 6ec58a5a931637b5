import Tonatiuh.Tables.Map

/-! The workers of the desktop application.

These are `start`, `stop` and `stopAll` of `process/TradingWorkerManager.ts`, the handler of the
exit of a child, and the timer that launches it again. Launches are numbered, and each has one child
and one record, which the closures of `launch` keep after the map holds another one. A child may
exit at any time, so that the message and the signal of `stop` are not seen here. -/

namespace Tonatiuh.Process

open Tables

variable {α : Type}

/-- `settings` is what the child gets besides the id. -/
structure ConfigType (α : Type) where
  id : Nat
  settings : α
  deriving DecidableEq

inductive Exit where
  | code (code : Int)
  | signal (signal : String)
  deriving DecidableEq, Repr

/-- `launchAttempts` is the argument of `launch`, and `restarts` tells that the timer of the next
launch runs. -/
structure WorkerRecord (α : Type) where
  config : ConfigType α
  launchAttempts : Nat
  desiredRunning : Bool := true
  restartAttempts : Nat
  exit : Option Exit := none
  restarts : Bool := false
  deriving DecidableEq

/-- The code is `null` while the child runs, and after a signal. -/
def WorkerRecord.exitCode (record : WorkerRecord α) : Option Int :=
  match record.exit with
  | some (.code code) => some code
  | some (.signal _) | none => none

inductive State where
  | running | stopping | restarting
  deriving DecidableEq, Repr

structure TradingWorkerStatus where
  configId : Nat
  state : State
  restartAttempts : Nat
  deriving DecidableEq, Repr

def WorkerRecord.toStatus (record : WorkerRecord α) : TradingWorkerStatus where
  configId := record.config.id
  state :=
    if record.desiredRunning then if record.restartAttempts = 0 then .running else .restarting
    else .stopping
  restartAttempts := record.restartAttempts

def maxRestartAttempts : Nat := 3

structure TradingWorkerManager (α : Type) where
  launches : List (WorkerRecord α) := []
  records : List (Nat × Nat) := []
  deriving DecidableEq

namespace TradingWorkerManager

def get (m : TradingWorkerManager α) (configId : Nat) : Option (WorkerRecord α) :=
  (m.records.lookup configId).bind (m.launches[·]?)

def update (m : TradingWorkerManager α) (i : Nat) (f : WorkerRecord α → WorkerRecord α) :
    TradingWorkerManager α :=
  { m with launches := m.launches.modify i f }

def launch (m : TradingWorkerManager α) (config : ConfigType α) (restartAttempts : Nat) :
    TradingWorkerManager α where
  launches := m.launches ++ [{ config, launchAttempts := restartAttempts, restartAttempts }]
  records := upsert Prod.fst (config.id, m.launches.length) m.records

def start (m : TradingWorkerManager α) (config : ConfigType α) :
    TradingWorkerManager α × Bool × Option TradingWorkerStatus :=
  if (m.get config.id).any fun existing => existing.exitCode = none then
    (m, false, (m.get config.id).map (·.toStatus))
  else
    let m := m.launch config 0
    (m, true, (m.get config.id).map (·.toStatus))

def stop (m : TradingWorkerManager α) (configId : Nat) : TradingWorkerManager α × Bool :=
  match m.records.lookup configId with
  | none => (m, false)
  | some i => (m.update i fun record => { record with desiredRunning := false }, true)

def stopAll (m : TradingWorkerManager α) : TradingWorkerManager α :=
  (m.records.map Prod.fst).foldl (fun m configId => (m.stop configId).1) m

def getStatuses (m : TradingWorkerManager α) : List TradingWorkerStatus :=
  (m.records.filterMap fun entry => m.launches[entry.2]?).map (·.toStatus)

/-- The handler of the exit of a child. -/
def onExit (m : TradingWorkerManager α) (i : Nat) (exit : Exit) :
    Option (TradingWorkerManager α) := do
  let record ← m.launches[i]?
  if record.exit.isSome then none
  else
    let m := m.update i fun record => { record with exit := some exit }
    if m.records.lookup record.config.id ≠ some i then m
    else if record.desiredRunning && exit ≠ .code 0 &&
      record.launchAttempts < maxRestartAttempts then
      m.update i fun record =>
        { record with restartAttempts := record.launchAttempts + 1, restarts := true }
    else some { m with records := delete record.config.id m.records }

/-- The timer of the next launch. -/
def onTimeout (m : TradingWorkerManager α) (i : Nat) : Option (TradingWorkerManager α) := do
  let record ← m.launches[i]?
  if record.restarts then
    let m := m.update i fun record => { record with restarts := false }
    if record.desiredRunning then m.launch record.config (record.launchAttempts + 1) else m
  else none

end TradingWorkerManager

/-! ## Steps -/

inductive Event (α : Type) where
  | start (config : ConfigType α)
  | stop (configId : Nat)
  | stopAll
  | exit (i : Nat) (exit : Exit)
  | timeout (i : Nat)
  deriving DecidableEq

def TradingWorkerManager.step (m : TradingWorkerManager α) :
    Event α → Option (TradingWorkerManager α)
  | .start config => some (m.start config).1
  | .stop configId => some (m.stop configId).1
  | .stopAll => some m.stopAll
  | .exit i exit => m.onExit i exit
  | .timeout i => m.onTimeout i

end Tonatiuh.Process
