import Tonatiuh.Async.Contract
import Tonatiuh.Config.LegacyConfig

/-! `saas/worker.ts`: what the tasks of a SaaS worker ask for.

A task reads and changes the maps of its process by requests too: the requests that are not awaited
(`Request.isSynchronous`) are answered at once, and no other task of the process runs before the
task comes to its next await. -/

namespace Tonatiuh.Supervisor

open Async Config

abbrev BotId := Nat

/-- `instanceId`, a fresh UUID of every worker process. -/
abbrev InstanceId := Nat

/-- Commands are numbered in the order in which they are accepted. -/
abbrev CommandId := Nat

/-- Child processes are numbered in the order in which they are forked. -/
abbrev ChildId := Nat

inductive CommandKind where
  | start | stop | restart | emergencyStop | delete
  deriving DecidableEq, Repr

structure BotCommand where
  id : CommandId
  botId : BotId
  command : CommandKind
  deriving DecidableEq, Repr

inductive DesiredState where
  | running | stopped
  deriving DecidableEq, Repr

/-- What `loadBot` reads. `credentials` is the decrypted and parsed ciphertext. -/
structure BotRow where
  exchangeCode : String
  configuration : JsRecord
  credentials : Except String JsRecord

def BotRow.legacyConfig (bot : BotRow) : Except String ConfigType :=
  match bot.credentials with
  | .error message => .error message
  | .ok credentials => Config.legacyConfig bot.exchangeCode bot.configuration credentials

inductive Request where
  /-- `stopping`. -/
  | isStopping
  /-- `processes.get(botId)?.exitCode === null`, as `startBot` tests it. -/
  | isRunning (botId : BotId)
  /-- The same test of `deleteBot`. -/
  | mustStop (botId : BotId)
  | hasProcess (botId : BotId)
  | hasProcesses
  /-- `fork`, `processes.set(botId, child)` and the start message. -/
  | fork (botId : BotId) (config : ConfigType)
  /-- `child.on('message', ...)` and `child.once('exit', ...)` of `startBot`. -/
  | listen (child : ChildId)
  /-- `stopBot` takes the child out of `processes`; the answer is the child, if its `exitCode` is
  `null`. -/
  | takeChild (botId : BotId)
  /-- The stop message (`closePosition`) or the suspend message, and `child.once('exit', ...)`. -/
  | send (child : ChildId) (closePosition : Bool)
  /-- `[...processes.keys()].map(suspendBot)`: the promises are the tasks of the answer. -/
  | suspendAll
  /-- The promise of `stopBot`: has the child exited with code 0 in time? -/
  | awaitExit (child : ChildId)
  /-- The promise of `suspendBot`. -/
  | awaitSuspended (child : ChildId)
  | all (tasks : List Nat)
  | sleep (ms : Nat)
  | connect
  | tryAdvisoryLock
  | advisoryUnlock
  | poolEnd
  | registerExistingSqliteDatabases
  | registerSqliteDatabase (botId : BotId)
  | mkdir (botId : BotId)
  | writeFile (botId : BotId)
  | loadBot (botId : BotId)
  /-- `actual_state='STARTING'` and the instance of the worker. -/
  | updateStarting (botId : BotId)
  /-- `actual_state='RUNNING'`, of a bot of this instance. -/
  | updateRunning (botId : BotId)
  /-- `actual_state='FAILED'`, of a bot of this instance. -/
  | updateFailed (botId : BotId) (lastError : String)
  /-- `actual_state='STOPPED'` and no instance. -/
  | updateStopped (botId : BotId)
  /-- `actual_state='STARTING'` and no instance, of a bot that is to run. -/
  | updateSuspended (botId : BotId)
  | selectDesiredState (botId : BotId)
  | updateDesiredState (botId : BotId) (desiredState : DesiredState)
  | flushRuntimeLogs (botId : BotId)
  | awaitOrderWrite (botId : BotId)
  | awaitOrderWrites
  | flushAllRuntimeLogs
  | accessDatabase (botId : BotId)
  /-- Rename the data directory to its staged name; the answer is `staged`. -/
  | stage (botId : BotId)
  /-- Rename it back. -/
  | unstage (botId : BotId)
  /-- The transaction of `deleteBot`. -/
  | deleteRows (botId : BotId)
  /-- Remove the staged directory. -/
  | rm (botId : BotId)
  | claimCommand
  | updateSucceeded (id : CommandId)
  | updateCommandFailed (id : CommandId) (error : String)
  /-- The first statement of `reconcile`. -/
  | resetStopped
  | selectRunning
  | heartbeat

@[reducible] def Request.Answer : Request → Type
  | .isStopping | .isRunning _ | .mustStop _ | .hasProcess _ | .hasProcesses | .awaitExit _
  | .tryAdvisoryLock | .accessDatabase _ | .stage _ => Bool
  | .fork .. => ChildId
  | .takeChild _ => Option ChildId
  | .suspendAll => List Nat
  | .loadBot _ => BotRow
  | .selectDesiredState _ => Option DesiredState
  | .claimCommand => Option BotCommand
  | .selectRunning => List BotId
  | _ => Unit

/-- The requests that are not awaited. -/
def Request.isSynchronous : Request → Bool
  | .isStopping | .isRunning _ | .mustStop _ | .hasProcess _ | .hasProcesses | .fork .. | .listen _
  | .takeChild _ | .send .. | .suspendAll => true
  | _ => false

def api : Api := ⟨Request, Request.Answer⟩

/-- The programs of a worker. All that they share is behind their requests. -/
abbrev Prog := Program api Unit String

abbrev request (r : Request) : Prog r.Answer := Program.request (A := api) r

end Tonatiuh.Supervisor
