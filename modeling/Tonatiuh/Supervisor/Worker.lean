import Mathlib.Algebra.Group.Nat.Defs
import Tonatiuh.Supervisor.Api

/-! `saas/worker.ts`: the tasks of a SaaS worker.

The loops of `main` and `runLeader` are cut off after `bound` rounds. `client.release()` gives no
lock back, and the heartbeat, the process id and the time of the start are read by nothing here.
Order updates and runtime logs of the children are left out, but for the waits for their writes. -/

namespace Tonatiuh.Supervisor

open Async

/-- `slice(0, 1000)`. -/
def truncated (message : String) : String := String.ofList (Text.slice 1000 message.toList)

def failBot (botId : BotId) (message : String) : Prog Unit :=
  tryCatch (request (.updateFailed botId (truncated message))) fun _ => pure ()

def startBot (botId : BotId) : Prog Unit := do
  let running ← request (.isRunning botId)
  if running then return ()
  else
    let bot ← request (.loadBot botId)
    match bot.legacyConfig with
    | .error message => throw message
    | .ok config =>
      request (.mkdir botId)
      request (.writeFile botId)
      request (.registerSqliteDatabase botId)
      let child ← request (.fork botId config)
      request (.updateStarting botId)
      request (.listen child)

/-- The timer that `scheduleRestart` starts. -/
def restartTimer (botId : BotId) (attempt : Nat) : Prog Unit := do
  request (.sleep (1000 * 2 ^ (attempt - 1)))
  let desired ← (request (.selectDesiredState botId)).orUndefined
  let stopping ← request .isStopping
  if !stopping && desired == some (some .running) then
    tryCatch (startBot botId) fun error => failBot botId error

/-- The query of the `'message'` handler for a child that has started. -/
def markRunning (botId : BotId) : Prog Unit := request (.updateRunning botId)

def stopFailure (closePosition : Bool) : String :=
  if closePosition then
    "Trading process did not close its filled position cleanly during emergency stop."
  else "Trading process did not suspend cleanly."

/-- The promise of `stopBot`, which is fulfilled at once when no child runs. -/
def awaitStopped (child : Option ChildId) (closePosition : Bool) : Prog Bool :=
  match child with
  | some child => do
    request (.send child closePosition)
    request (.awaitExit child)
  | none => return true

def stopBot (botId : BotId) (closePosition : Bool) : Prog Unit := do
  let child ← request (.takeChild botId)
  let stoppedCleanly ← awaitStopped child closePosition
  if stoppedCleanly then
    request (.flushRuntimeLogs botId)
    request (.updateStopped botId)
  else
    request (.flushRuntimeLogs botId)
    failBot botId (stopFailure closePosition)
    throw (stopFailure closePosition)

/-- `suspendBot`, after it has told the child to suspend. -/
def suspendBot (botId : BotId) (child : Option ChildId) : Prog Unit := do
  match child with
  | some child => request (.awaitSuspended child)
  | none => pure ()
  request (.flushRuntimeLogs botId)
  request (.updateSuspended botId)

/-- The transaction of `deleteBot`. When it fails, the data directory gets its name back. -/
def deleteRows (botId : BotId) (staged : Bool) : Prog Unit :=
  tryCatch (request (.deleteRows botId)) fun error => do
    if staged then
      let _ ← (request (.unstage botId)).orUndefined
    throw error

/-- The part of `deleteBot` that deletes. -/
def deleteStaged (botId : BotId) : Prog Unit := do
  let staged ← request (.stage botId)
  deleteRows botId staged
  if staged then
    let _ ← (request (.rm botId)).orUndefined

/-- `deleteBot`, once no child runs. -/
def deleteData (botId : BotId) : Prog Unit := do
  request (.awaitOrderWrite botId)
  request (.flushRuntimeLogs botId)
  let databaseExists ← request (.accessDatabase botId)
  if databaseExists then request (.registerSqliteDatabase botId)
  deleteStaged botId

def deleteBot (botId : BotId) : Prog Unit := do
  let running ← request (.mustStop botId)
  if running then stopBot botId false
  deleteData botId

def CommandKind.isStopping : CommandKind → Bool
  | .stop | .emergencyStop | .delete => true
  | .start | .restart => false

def CommandKind.desiredState (command : CommandKind) : DesiredState :=
  if command.isStopping then .stopped else .running

/-- The effect of a command. -/
def perform (botId : BotId) : CommandKind → Prog Unit
  | .delete => deleteBot botId
  | .stop => stopBot botId false
  | .emergencyStop => stopBot botId true
  | .restart => do
    stopBot botId false
    startBot botId
  | .start => startBot botId

def handleCommand (command : BotCommand) : Prog Unit :=
  tryCatch
    (do
      request (.updateDesiredState command.botId command.command.desiredState)
      perform command.botId command.command
      request (.updateSucceeded command.id))
    fun message => do
      request (.updateCommandFailed command.id (truncated message))
      failBot command.botId message

/-- The loop of `reconcile` over the bots that are to run. -/
def startDesired : List BotId → Prog Unit
  | [] => pure ()
  | botId :: rest => do
    let started ← request (.hasProcess botId)
    if !started then tryCatch (startBot botId) fun error => failBot botId error
    startDesired rest

def reconcile : Prog Unit := do
  request .resetStopped
  let desired ← request .selectRunning
  startDesired desired

/-- `pollMs`, with its default. -/
def pollMs : Nat := 1000

/-- `while (!stopping)` of `runLeader`. -/
def handleCommands : Nat → Prog Unit
  | 0 => .unfinished
  | rounds + 1 => do
    let stopping ← request .isStopping
    if stopping then return ()
    else
      let command ← request .claimCommand
      match command with
      | some command => handleCommand command
      | none => request (.sleep pollMs)
      let running ← request .hasProcesses
      if running then request .heartbeat
      handleCommands rounds

def runLeader (bound : Nat) : Prog Unit := do
  request .registerExistingSqliteDatabases
  reconcile
  handleCommands bound
  let suspended ← request .suspendAll
  request (.all suspended)
  request .awaitOrderWrites
  request .flushAllRuntimeLogs
  request .advisoryUnlock

/-- `main`. -/
def main (bound : Nat) : Nat → Prog Unit
  | 0 => .unfinished
  | rounds + 1 => do
    let stopping ← request .isStopping
    if stopping then request .poolEnd
    else
      request .connect
      let locked ← request .tryAdvisoryLock
      if locked then runLeader bound
      let stopping ← request .isStopping
      if !stopping then request (.sleep 5000)
      main bound rounds

end Tonatiuh.Supervisor
