import Mathlib.Logic.Function.Basic
import Tonatiuh.Supervisor.Worker
import Tonatiuh.Trading.Worker

/-! The SaaS deployment: the API, the workers, the trading processes and their accounts.

A transaction takes effect in one step, at some moment before its answer. It may be rejected, or its
answer may be lost after the commit. `created_at` is fixed when a transaction begins, so commands
may be accepted in another order. A trading process has what it needs in common with the other
processes of its bot: the account and the SQLite database. -/

namespace Tonatiuh.Supervisor

open Async Config Transition

/-! ## The database -/

inductive ActualState where
  | starting | running | stopping | stopped | failed
  deriving DecidableEq, Repr

/-- A row of `trading_bots`. -/
structure TradingBot where
  desiredState : DesiredState := .stopped
  actualState : ActualState := .stopped
  workerInstanceId : Option InstanceId := none
  lastError : Option String := none
  deriving DecidableEq, Repr

inductive CommandStatus where
  | pending | processing | succeeded | failed
  deriving DecidableEq, Repr

/-- A row of `bot_commands`. The deletion of its bot removes it: `isRemoved`. -/
structure CommandRow where
  botId : BotId
  command : CommandKind
  createdAt : Nat
  status : CommandStatus := .pending
  error : Option String := none
  isRemoved : Bool := false
  deriving DecidableEq, Repr

/-- The data directory of a bot under its name, and the number of staged directories. -/
structure DataDirectory where
  isPresent : Bool := false
  staged : Nat := 0
  deriving DecidableEq, Repr

/-! ## Trading processes -/

inductive LifecycleMessage where
  | started
  | error (message : String)
  deriving DecidableEq, Repr

/-- A trading process and its `ChildProcess` object. `inbox` and `outbox` are the messages to it and
from it that are on their way; `exitEmitted` tells that the worker has seen it exit, `exitAwaited`
and `exitSeen` that a promise of `stopBot` or `suspendBot` waits for this and was fulfilled. -/
structure Child where
  botId : BotId
  owner : InstanceId
  process : Trading.Process
  inbox : List Bool := []
  outbox : List LifecycleMessage := []
  hasReported : Bool := false
  isListening : Bool := false
  failureMessage : Option String := none
  exitEmitted : Bool := false
  exitAwaited : Bool := false
  exitSeen : Bool := false

namespace Child

def isAlive (c : Child) : Bool := c.process.isRunning

/-- The process has not yet constructed its services. -/
def isStarting (c : Child) : Bool :=
  match c.process with
  | .running p => !p.memory.services
  | _ => false

/-- The code with which the process has exited; `none` if a signal has ended it. -/
def code (c : Child) : Option Nat :=
  match c.process with
  | .exited code _ _ => some code
  | _ => none

/-- `child.exitCode`, which a signal leaves at `null`. -/
def exitCode (c : Child) : Option Nat := if c.exitEmitted then c.code else none

end Child

/-! ## Workers -/

/-- A task of a worker, with the requests that it has made and their answers, newest first. -/
structure Task where
  program : Prog Unit
  history : List ((r : Request) × Except String r.Answer) := []

def Task.pending (t : Task) : Option Request := t.program.pending

def Request.isClaim : Request → Bool
  | .claimCommand => true
  | _ => false

inductive Life where
  | unborn | up | ended
  deriving DecidableEq, Repr

/-- A worker process. `current` is the task that is between two awaits. -/
structure Instance where
  life : Life := .unborn
  tasks : List Task := []
  current : Option Nat := none
  processes : BotId → Option ChildId := fun _ => none
  restartAttempts : BotId → Nat := fun _ => 0
  restartResetTimers : BotId → Option ChildId := fun _ => none
  stopping : Bool := false

/-- Bots are numbered in the order in which they are created, and a row that is deleted leaves
`none`. `lock` is the instance whose connection holds the advisory lock, and `workers` are the
instances that have been started. -/
structure System where
  bots : List (Option TradingBot) := []
  commands : List CommandRow := []
  directories : BotId → DataDirectory := fun _ => {}
  accounts : BotId → Trading.World := fun _ => {}
  lock : Option InstanceId := none
  children : List Child := []
  workers : List InstanceId := []
  instances : InstanceId → Instance := fun _ => {}

namespace System

/-- The row of a bot. -/
def bot (s : System) (botId : BotId) : Option TradingBot := s.bots[botId]?.join

def updateBot (s : System) (botId : BotId) (f : TradingBot → TradingBot) : System :=
  { s with bots := s.bots.modify botId (·.map f) }

def updateDirectory (s : System) (botId : BotId) (f : DataDirectory → DataDirectory) : System :=
  { s with directories := Function.update s.directories botId (f (s.directories botId)) }

def updateInstance (s : System) (i : InstanceId) (f : Instance → Instance) : System :=
  { s with instances := Function.update s.instances i (f (s.instances i)) }

def updateChild (s : System) (child : ChildId) (f : Child → Child) : System :=
  { s with children := s.children.modify child f }

def updateCommand (s : System) (id : CommandId) (f : CommandRow → CommandRow) : System :=
  { s with commands := s.commands.modify id f }

/-- Start a task. -/
def spawn (s : System) (i : InstanceId) (program : Prog Unit) : System :=
  s.updateInstance i fun inst => { inst with tasks := inst.tasks ++ [⟨program, []⟩] }

/-- `processes.get(botId)`, if its `exitCode` is `null`. -/
def runningChild (s : System) (i : InstanceId) (botId : BotId) : Option ChildId :=
  ((s.instances i).processes botId).filter fun child =>
    s.children[child]?.any fun c => c.exitCode.isNone

/-- The entries of `processes`. -/
def entries (s : System) (i : InstanceId) : List (BotId × ChildId) :=
  s.children.zipIdx.filterMap fun (c, child) =>
    if (s.instances i).processes c.botId = some child then some (c.botId, child) else none

/-- `SELECT id FROM trading_bots WHERE desired_state='RUNNING'`. -/
def desired (s : System) : List BotId :=
  (List.range s.bots.length).filter fun botId =>
    (s.bot botId).any fun row => row.desiredState = .running

/-- The commands that may be claimed. -/
def waiting (s : System) : List CommandRow :=
  s.commands.filter fun c => c.status = .pending && !c.isRemoved

/-- The claims of other workers that are under way. Each has locked one row at most, which
`SKIP LOCKED` passes over, and may still be rolled back. -/
def otherClaims (s : System) (i : InstanceId) : List InstanceId :=
  s.workers.filter fun j =>
    j ≠ i && (s.instances j).life = .up && (s.instances j).tasks.any fun t =>
      t.pending.any (·.isClaim)

/-- A command that the worker may claim: those before it are locked. -/
def IsNext (s : System) (i : InstanceId) (id : CommandId) (c : CommandRow) : Prop :=
  s.commands[id]? = some c ∧ c.status = .pending ∧ c.isRemoved = false ∧
    (s.waiting.filter (·.createdAt < c.createdAt)).length ≤ (s.otherClaims i).length

instance (s : System) (i : InstanceId) (id : CommandId) (c : CommandRow) :
    Decidable (s.IsNext i id c) := by
  unfold IsNext
  infer_instance

/-- `suspendBot` up to its first await, for the child of an entry. -/
def suspend (s : System) (child : ChildId) : System :=
  s.updateChild child fun c =>
    if c.exitCode.isNone then { c with inbox := c.inbox ++ [false], exitAwaited := true } else c

/-- The tasks of `Promise.all` are over. -/
def areOver (s : System) (i : InstanceId) (tasks : List Nat) : Bool :=
  tasks.all fun n =>
    match (s.instances i).tasks[n]? with
    | some ⟨.pure _, _⟩ => true
    | _ => false

/-- One of the tasks of `Promise.all` has thrown this. -/
def hasThrown (s : System) (i : InstanceId) (tasks : List Nat) (message : String) : Bool :=
  tasks.any fun n =>
    match (s.instances i).tasks[n]? with
    | some ⟨.throw e, _⟩ => e == message
    | _ => false

end System

/-! ## Serving requests -/

/-- What the environment chooses where a request succeeds. -/
inductive Choice where
  | done
  | timeout
  | found (exists_ : Bool)
  | loaded (bot : BotRow)
  | claimed (id : CommandId)
  | noCommand

/-- How a request is served. -/
inductive Outcome where
  | ok (choice : Choice)
  | rejected (message : String)
  | lost (choice : Choice) (message : String)

/-- A request of instance `i` that succeeds: its answer, and the system after it. When `stopBot`
waits in vain it sends a signal, which the process may take for a suspend message, as it may take
others. -/
def System.complete (bound : Nat) (i : InstanceId) (s : System) :
    (r : Request) → Choice → Option (r.Answer × System)
  | .isStopping, .done => some ((s.instances i).stopping, s)
  | .isRunning botId, .done => some ((s.runningChild i botId).isSome, s)
  | .mustStop botId, .done => some ((s.runningChild i botId).isSome, s)
  | .hasProcess botId, .done => some (((s.instances i).processes botId).isSome, s)
  | .hasProcesses, .done => some (!(s.entries i).isEmpty, s)
  | .fork botId config, .done =>
    let c : Child :=
      { botId, owner := i
        process := .running { memory := { config }, main := Trading.worker bound config } }
    let s' := { s with children := s.children ++ [c] }
    some (s.children.length, s'.updateInstance i fun inst =>
      { inst with processes := Function.update inst.processes botId (some s.children.length) })
  | .listen child, .done => some ((), s.updateChild child fun c => { c with isListening := true })
  | .takeChild botId, .done =>
    some (s.runningChild i botId, s.updateInstance i fun inst =>
      { inst with
        processes := Function.update inst.processes botId none
        restartAttempts := Function.update inst.restartAttempts botId 0
        restartResetTimers := Function.update inst.restartResetTimers botId none })
  | .send child closePosition, .done =>
    some ((), s.updateChild child fun c =>
      { c with inbox := c.inbox ++ [closePosition], exitAwaited := true })
  | .suspendAll, .done =>
    let entries := s.entries i
    let s' := entries.foldl (fun s entry => s.suspend entry.2) s
    some ((List.range entries.length).map ((s.instances i).tasks.length + ·),
      s'.updateInstance i fun inst =>
        { inst with
          processes := fun _ => none
          tasks := inst.tasks ++ entries.map fun (botId, _) =>
            ⟨suspendBot botId (s.runningChild i botId), []⟩ })
  | .awaitExit child, .done =>
    match s.children[child]? with
    | some c => if c.exitSeen then some (c.code == some 0, s) else none
    | none => none
  | .awaitExit child, .timeout =>
    match s.children[child]? with
    | some c => if c.exitSeen then none else some (false, s)
    | none => none
  | .awaitSuspended child, .done =>
    if s.children[child]?.any (·.exitSeen) then some ((), s) else none
  | .awaitSuspended child, .timeout =>
    if s.children[child]?.any (·.exitSeen) then none else some ((), s)
  | .all tasks, .done => if s.areOver i tasks then some ((), s) else none
  | .sleep _, .done => some ((), s)
  | .connect, .done => some ((), s)
  | .tryAdvisoryLock, .done =>
    match s.lock with
    | none => some (true, { s with lock := some i })
    | some _ => some (false, s)
  | .advisoryUnlock, .done =>
    some ((), if s.lock = some i then { s with lock := none } else s)
  | .poolEnd, .done => some ((), s)
  | .registerExistingSqliteDatabases, .done => some ((), s)
  | .registerSqliteDatabase _, .done => some ((), s)
  | .mkdir botId, .done =>
    some ((), s.updateDirectory botId fun d => { d with isPresent := true })
  | .writeFile _, .done => some ((), s)
  | .loadBot botId, .loaded bot => if (s.bot botId).isSome then some (bot, s) else none
  | .updateStarting botId, .done => some ((), s.updateBot botId fun row =>
      { row with actualState := .starting, workerInstanceId := some i, lastError := none })
  | .updateRunning botId, .done => some ((), s.updateBot botId fun row =>
      if row.workerInstanceId = some i then { row with actualState := .running } else row)
  | .updateFailed botId lastError, .done => some ((), s.updateBot botId fun row =>
      if row.workerInstanceId = some i then
        { row with actualState := .failed, lastError := some lastError }
      else row)
  | .updateStopped botId, .done => some ((), s.updateBot botId fun row =>
      { row with actualState := .stopped, workerInstanceId := none, lastError := none })
  | .updateSuspended botId, .done => some ((), s.updateBot botId fun row =>
      if row.desiredState = .running then
        { row with actualState := .starting, workerInstanceId := none, lastError := none }
      else row)
  | .selectDesiredState botId, .done => some ((s.bot botId).map (·.desiredState), s)
  | .updateDesiredState botId desiredState, .done =>
    some ((), s.updateBot botId fun row => { row with desiredState })
  | .flushRuntimeLogs _, .done => some ((), s)
  | .awaitOrderWrite _, .done => some ((), s)
  | .awaitOrderWrites, .done => some ((), s)
  | .flushAllRuntimeLogs, .done => some ((), s)
  | .accessDatabase botId, .found exists_ => some ((s.directories botId).isPresent && exists_, s)
  | .stage botId, .done =>
    if (s.directories botId).isPresent then
      some (true, s.updateDirectory botId fun d => { isPresent := false, staged := d.staged + 1 })
    else some (false, s)
  | .unstage botId, .done =>
    some ((), s.updateDirectory botId fun d => { isPresent := true, staged := d.staged - 1 })
  | .deleteRows botId, .done =>
    some ((), { s with
      bots := s.bots.set botId none
      commands := s.commands.map fun c =>
        if c.botId = botId then { c with isRemoved := true } else c })
  | .rm botId, .done =>
    some ((), s.updateDirectory botId fun d => { d with staged := d.staged - 1 })
  | .claimCommand, .claimed id =>
    match s.commands[id]? with
    | some c =>
      if s.IsNext i id c then
        some (some ⟨id, c.botId, c.command⟩,
          s.updateCommand id fun c => { c with status := .processing })
      else none
    | none => none
  | .claimCommand, .noCommand =>
    if s.waiting.length ≤ (s.otherClaims i).length then some (none, s) else none
  | .updateSucceeded id, .done => some ((), s.updateCommand id fun c =>
      if c.isRemoved then c else { c with status := .succeeded })
  | .updateCommandFailed id error, .done => some ((), s.updateCommand id fun c =>
      if c.isRemoved then c else { c with status := .failed, error := some error })
  | .resetStopped, .done => some ((), { s with bots := s.bots.map fun row? => row?.map fun row =>
      if row.desiredState = .stopped then
        { row with actualState := .stopped, workerInstanceId := none, lastError := none }
      else row })
  | .selectRunning, .done => some (s.desired, s)
  | .heartbeat, .done => some ((), s)
  | _, _ => none

/-- The requests that are queries or transactions of the pool. -/
def Request.isTransaction : Request → Bool
  | .registerSqliteDatabase _ | .registerExistingSqliteDatabases | .loadBot _ | .updateStarting _
  | .updateRunning _ | .updateFailed .. | .updateStopped _ | .updateSuspended _
  | .selectDesiredState _ | .updateDesiredState .. | .flushRuntimeLogs _ | .flushAllRuntimeLogs
  | .deleteRows _ | .claimCommand | .updateSucceeded _ | .updateCommandFailed .. | .resetStopped
  | .selectRunning | .heartbeat => true
  | _ => false

/-- May the request be rejected with this message? -/
def System.rejects (s : System) (i : InstanceId) (r : Request) (message : String) : Bool :=
  match r with
  | .all tasks => s.hasThrown i tasks message
  | .fork .. => true
  | .awaitExit _ | .awaitSuspended _ | .sleep _ | .awaitOrderWrite _ | .awaitOrderWrites => false
  | r => !r.isSynchronous

def System.serve (bound : Nat) (i : InstanceId) (s : System) (r : Request) :
    Outcome → Option (Except String r.Answer × System)
  | .ok choice => (s.complete bound i r choice).map fun (a, s') => (.ok a, s')
  | .rejected message => if s.rejects i r message then some (.error message, s) else none
  | .lost choice message =>
    if r.isTransaction then (s.complete bound i r choice).map fun (_, s') => (.error message, s')
    else none

/-! ## Steps -/

/-- The transactions of the API. A command with an idempotency key that was used before changes
nothing, and neither does one whose preconditions fail. -/
inductive ApiCall where
  | createBot
  /-- `POST /:id/start`, `stop`, `restart` or `emergency-stop`. -/
  | command (botId : BotId) (command : CommandKind) (createdAt : Nat)
  /-- `DELETE /:id`, with no open quantity in `orders`. -/
  | deleteBot (botId : BotId) (createdAt : Nat)

/-- `actual_state` while a command is to be handled. -/
def CommandKind.actualState (command : CommandKind) : ActualState :=
  if command.isStopping then .stopping else .starting

/-- The command of a bot is stored, and what the bot is to do. -/
def System.accept (s : System) (botId : BotId) (command : CommandKind) (createdAt : Nat) : System :=
  let c : CommandRow := { botId, command, createdAt }
  { s with commands := s.commands ++ [c] }.updateBot botId fun row =>
    { row with desiredState := command.desiredState, actualState := command.actualState }

def ActualState.isDeletable : ActualState → Bool
  | .stopped | .failed => true
  | _ => false

def System.call (s : System) : ApiCall → Option System
  | .createBot => some { s with bots := s.bots ++ [some {}] }
  | .command botId command createdAt =>
    if (s.bot botId).isSome ∧ command ≠ .delete then some (s.accept botId command createdAt)
    else none
  | .deleteBot botId createdAt =>
    if (s.bot botId).any (·.actualState.isDeletable) then some (s.accept botId .delete createdAt)
    else none

inductive Event where
  | api (call : ApiCall)
  /-- A worker process starts. -/
  | boot (i : InstanceId)
  /-- The request of a task is served. -/
  | serve (i : InstanceId) (n : Nat) (outcome : Outcome)
  /-- The worker receives the first message of a child. -/
  | message (child : ChildId)
  /-- The worker sees a child exit. -/
  | exit (child : ChildId)
  /-- Messages for which nobody has listened are lost when the channel closes. -/
  | close (child : ChildId)
  /-- The sixty seconds since the child has started are over. -/
  | resetAttempts (i : InstanceId) (botId : BotId)
  /-- `SIGTERM` or `SIGINT` to a worker. -/
  | signal (i : InstanceId)
  /-- The connection that holds the advisory lock ends. -/
  | disconnect (i : InstanceId)
  /-- A worker process ends, with all its connections. -/
  | crash (i : InstanceId)
  /-- A step of a trading process. -/
  | child (child : ChildId) (e : Trading.Event)
  /-- A trading process receives its first message. -/
  | receive (child : ChildId)
  /-- A trading process sends a message. -/
  | report (child : ChildId) (message : LifecycleMessage)
  /-- A trading process that starts constructs a `DatabaseService`, here or there: `mkdirSync` makes
  `databases` in the data directory of its bot, and this directory if it is not there. -/
  | makeDirectory (child : ChildId)
  | exchange (botId : BotId) (e : Trading.ExchangeEvent)

/-- A worker that runs and is between two tasks. -/
def System.isIdle (s : System) (i : InstanceId) : Bool :=
  (s.instances i).life = .up && (s.instances i).current.isNone

/-- Serve the request of a task, which runs up to its next request. -/
def System.serveTask (bound : Nat) (s : System) (i : InstanceId) (n : Nat) (outcome : Outcome) :
    Option System :=
  if (s.instances i).life = .up ∧ ((s.instances i).current.all (· = n)) then
    match (s.instances i).tasks[n]? with
    | some ⟨.await r k, history⟩ => do
      let (x, s') ← s.serve bound i r outcome
      some (s'.updateInstance i fun inst =>
        { inst with
          tasks := inst.tasks.set n ⟨k x, ⟨r, x⟩ :: history⟩
          current := if (k x).pending.any (·.isSynchronous) then some n else none })
    | _ => none
  else none

/-- `scheduleRestart`. -/
def System.scheduleRestart (s : System) (i : InstanceId) (botId : BotId) : System :=
  let attempt := (s.instances i).restartAttempts botId + 1
  let s' := s.updateInstance i fun inst =>
    { inst with restartAttempts := Function.update inst.restartAttempts botId attempt }
  if attempt > 3 then s' else s'.spawn i (restartTimer botId attempt)

/-- The text for a child that has exited. -/
def Child.exitMessage (c : Child) : String :=
  c.failureMessage.getD
    (match c.code with
    | some code => s!"Trading process exited (code={code}, signal=null)."
    | none => "Trading process exited (code=null, signal=SIGKILL).")

/-- The `'exit'` listener of `startBot`. -/
def System.onExit (s : System) (child : ChildId) (c : Child) : System :=
  if (s.instances c.owner).processes c.botId ≠ some child then s
  else
    let s' := s.updateInstance c.owner fun inst =>
      { inst with
        processes := Function.update inst.processes c.botId none
        restartResetTimers := Function.update inst.restartResetTimers c.botId none }
    if (s.instances c.owner).stopping then s'
    else (s'.spawn c.owner (failBot c.botId c.exitMessage)).scheduleRestart c.owner c.botId

def System.exit (s : System) (child : ChildId) : Option System :=
  match s.children[child]? with
  | some c =>
    if s.isIdle c.owner ∧ c.isAlive = false ∧ c.exitEmitted = false then
      let s' := s.updateChild child fun c =>
        { c with exitEmitted := true, exitSeen := c.exitAwaited }
      some (if c.isListening then s'.onExit child c else s')
    else none
  | none => none

/-- The `'message'` listener of `startBot`. -/
def System.onMessage (s : System) (child : ChildId) (c : Child) : LifecycleMessage → System
  | .started =>
    (s.updateInstance c.owner fun inst =>
      { inst with
        restartResetTimers := Function.update inst.restartResetTimers c.botId (some child) }).spawn
      c.owner (markRunning c.botId)
  | .error message =>
    (s.updateChild child fun c => { c with failureMessage := some message }).spawn c.owner
      (failBot c.botId message)

def System.message (s : System) (child : ChildId) : Option System :=
  match s.children[child]? with
  | some c =>
    match c.outbox with
    | m :: rest =>
      if s.isIdle c.owner ∧ c.isListening then
        some ((s.updateChild child fun c => { c with outbox := rest }).onMessage child c m)
      else none
    | [] => none
  | none => none

def System.close (s : System) (child : ChildId) : Option System :=
  match s.children[child]? with
  | some c =>
    if c.isAlive = false ∧ c.isListening = false then
      some (s.updateChild child fun c => { c with outbox := [] })
    else none
  | none => none

/-- The timer that a started child sets. -/
def System.resetAttempts (s : System) (i : InstanceId) (botId : BotId) : Option System :=
  match (s.instances i).restartResetTimers botId with
  | some child =>
    if s.isIdle i then
      some (s.updateInstance i fun inst =>
        { inst with
          restartAttempts :=
            if s.runningChild i botId = some child then
              Function.update inst.restartAttempts botId 0
            else inst.restartAttempts
          restartResetTimers := Function.update inst.restartResetTimers botId none })
    else none
  | none => none

/-- A step of a trading process that runs. -/
def System.stepChild (bound : Nat) (s : System) (child : ChildId) (e : Trading.Event) :
    Option System :=
  match s.children[child]? with
  | some c => do
    let b ← Trading.Bot.step bound ⟨s.accounts c.botId, c.process⟩ e
    some { s with
      accounts := Function.update s.accounts c.botId b.world
      children := s.children.modify child fun c => { c with process := b.process } }
  | none => none

/-- The events of a trading process: it is forked by a worker only, and told to stop by a message.
A signal, or the end of its worker, counts as a suspend message. -/
def isOwn : Trading.Event → Bool
  | .serve .. | .resume _ | .kill | .message false => true
  | .start _ | .message true | .exchange _ => false

def System.receive (bound : Nat) (s : System) (child : ChildId) : Option System :=
  match s.children[child]? with
  | some c =>
    match c.inbox with
    | closePosition :: rest =>
      (s.updateChild child fun c => { c with inbox := rest }).stepChild bound child
        (.message closePosition)
    | [] => none
  | none => none

/-- A process reports once that its services are there, or that its trading task has failed. -/
def Child.mayReport (c : Child) : LifecycleMessage → Bool
  | .started =>
    match c.process with
    | .running p => p.memory.services && !c.hasReported
    | _ => false
  | .error _ =>
    match c.process with
    | .exited 1 _ _ => !c.exitEmitted && c.failureMessage.isNone && c.outbox.all (· == .started)
    | _ => false

def System.report (s : System) (child : ChildId) (m : LifecycleMessage) : Option System :=
  match s.children[child]? with
  | some c =>
    if c.mayReport m then
      some (s.updateChild child fun c =>
        { c with outbox := c.outbox ++ [m], hasReported := c.hasReported || m == .started })
    else none
  | none => none

/-- The constructor of `DatabaseService`, in a process that starts. -/
def System.makeDirectory (s : System) (child : ChildId) : Option System :=
  match s.children[child]? with
  | some c =>
    if c.isStarting then some (s.updateDirectory c.botId fun d => { d with isPresent := true })
    else none
  | none => none

/-- The connection of the lock ends. -/
def System.unlocked (s : System) (i : InstanceId) : System :=
  if s.lock = some i then { s with lock := none } else s

def System.step (bound : Nat) (s : System) : Event → Option System
  | .api call => s.call call
  | .boot i =>
    if (s.instances i).life = .unborn then
      some ({ s with workers := i :: s.workers }.updateInstance i fun inst =>
        { inst with life := .up, tasks := [⟨main bound bound, []⟩] })
    else none
  | .serve i n outcome => s.serveTask bound i n outcome
  | .message child => s.message child
  | .exit child => s.exit child
  | .close child => s.close child
  | .resetAttempts i botId => s.resetAttempts i botId
  | .signal i => some (s.updateInstance i fun inst => { inst with stopping := true })
  | .disconnect i => if s.lock = some i then some (s.unlocked i) else none
  | .crash i =>
    if (s.instances i).life = .up then
      some ((s.unlocked i).updateInstance i fun _ => { life := .ended })
    else none
  | .child child e => if isOwn e then s.stepChild bound child e else none
  | .receive child => s.receive bound child
  | .report child m => s.report child m
  | .makeDirectory child => s.makeDirectory child
  | .exchange botId e =>
    ((s.accounts botId).exchange.event e).map fun exchange =>
      { s with
        accounts := Function.update s.accounts botId { s.accounts botId with exchange } }

/-! ## Concrete runs -/

/-- A bot for concrete runs. -/
def oneBot : BotRow where
  exchangeCode := "okx"
  configuration name := if name = "symbol" then .string "BTC/USDT" else .null
  credentials := .ok fun _ => .string "key"

/-- The next requests of the task are served as they should be. -/
def served (i : InstanceId) (n count : Nat) : List Event :=
  List.replicate count (.serve i n (.ok .done))

/-- `startBot`, after its first test, up to `fork`. -/
def loading (i : InstanceId) (n : Nat) : List Event :=
  .serve i n (.ok (.loaded oneBot)) :: served i n 3

/-- A bot is created and started, and a worker becomes the leader, which starts the bot. -/
def started : List Event :=
  [.api .createBot, .api (.command 0 .start 0), .boot 0] ++ served 0 0 8 ++ loading 0 0 ++
    served 0 0 3

/-- The START command is handled; the bot has been started already. -/
def startHandled : List Event :=
  started ++ served 0 0 1 ++ [.serve 0 0 (.ok (.claimed 0))] ++ served 0 0 6

end Tonatiuh.Supervisor
