import Tonatiuh.Transition.Run
import Tonatiuh.Trading.Watch

/-! `worker.ts`: the trading process of a bot, and its runs.

A process has two tasks: `worker`, which trades until `isStopping` is set, and `stopWorker`, which
the first stop or suspend message (or signal) starts. Any step of one may come between two steps
of the other, and the exchange may execute or terminate open orders at any time. -/

namespace Tonatiuh.Trading

open Async Config Transition

/-! ## The tasks

A task returns the code with which it calls `process.exit`, if it does. -/

abbrev ExitCode := Option Nat

/-- `initialize` of the strategy. -/
def initializeServices (config : ConfigType) : Prog Unit := do
  modify fun m => { m with config, services := true }
  request .loggerReady
  request .recordLogger

/-- `while (!isStopping) await trading.startAlgorithms(nextConfig)`. -/
def tradeUntilStopping (bound : Nat) (isOnlyBuy : Bool) : Nat → Prog Unit
  | 0 => .unfinished
  | rounds + 1 => do
    let m ← get
    if m.isStopping then return ()
    else
      startTradingSession bound isOnlyBuy
      tradeUntilStopping bound isOnlyBuy rounds

/-- `worker`: any error ends the process. -/
def worker (bound : Nat) (nextConfig : ConfigType) : Prog ExitCode :=
  tryCatch
    (do
      request .syncRuntimeConfig
      initializeServices nextConfig
      tradeUntilStopping bound nextConfig.isOnlyBuy bound
      return none)
    fun _ => return some 1

/-- `endAlgorithms`. -/
def endAlgorithms (bound : Nat) : Prog Unit := do
  let m ← get
  if m.services then
    let _ ← closeFilledPosition bound m.indexOperation

/-- `dispose`. -/
def dispose : Prog Unit := do
  let m ← get
  if m.services then request .loggerClose

/-- `stopWorker`, when `isStopping` is not yet set. -/
def stopWorker (bound : Nat) (closePosition : Bool) : Prog ExitCode := do
  modify fun m => { m with isStopping := true }
  tryCatch
    (do
      if closePosition then endAlgorithms bound
      dispose
      return some 0)
    fun _ => return some 1

/-! ## The process -/

/-- A running process. `stop` is the task of `stopWorker`; `emergency` is a ghost: if the position
is to be closed, the account at the moment when the message came. -/
structure Running where
  memory : Memory
  main : Prog ExitCode
  stop : Option (Prog ExitCode) := none
  emergency : Option Exchange := none

inductive Process where
  | absent
  | running (p : Running)
  | exited (code : Nat) (indexOperation : Option SessionId) (emergency : Option Exchange)

def Process.isRunning : Process → Bool
  | running _ => true
  | _ => false

/-- How a process has ended: the code, the session and the ghost of the emergency stop. -/
def Process.ending : Process → Option (Nat × Option SessionId × Option Exchange)
  | exited code indexOperation emergency => some (code, indexOperation, emergency)
  | _ => none

theorem Process.eq_exited {process : Process}
    (h : process.ending = some (code, indexOperation, emergency)) :
    process = .exited code indexOperation emergency := by
  cases process with
  | exited => cases h; rfl
  | _ => cases h

/-- A bot: what is outside, and its trading process. -/
structure Bot where
  world : World := {}
  process : Process := .absent

inductive Task where
  | main | stop
  deriving DecidableEq, Repr

inductive Event where
  /-- The supervisor forks a process and sends the configuration. -/
  | start (config : ConfigType)
  /-- A stop message (`closePosition`), or a suspend message or signal. -/
  | message (closePosition : Bool)
  /-- The request of the task is served. -/
  | serve (task : Task) (outcome : Outcome)
  /-- The task runs up to its next await. -/
  | resume (task : Task)
  | exchange (e : ExchangeEvent)
  /-- The process dies. -/
  | kill

def Running.task (p : Running) : Task → Option (Prog ExitCode)
  | .main => some p.main
  | .stop => p.stop

def Running.setTask (p : Running) (task : Task) (program : Prog ExitCode) : Running :=
  match task with
  | .main => { p with main := program }
  | .stop => { p with stop := some program }

/-- The request that a task waits for. -/
def Running.pending (p : Running) (task : Task) : Option Request :=
  (p.task task).bind (·.pending)

/-- The process after a task has run: ended if the task called `process.exit`. -/
def Running.settled (p : Running) (task : Task) (r : Prog ExitCode × Memory) : Process :=
  match r.1 with
  | .pure (some code) => .exited code r.2.indexOperation p.emergency
  | program => .running { p.setTask task program with memory := r.2 }

def Running.resume (p : Running) (task : Task) : Option Process := do
  let program ← p.task task
  some (p.settled task (program.settle p.memory))

/-- Serve the request of a task. -/
def Running.serve (p : Running) (w : World) (task : Task) (outcome : Outcome) :
    Option (Running × World) :=
  match p.task task with
  | some (.await r k) => do
    let (answer, w') ← Trading.serve w r outcome
    some (p.setTask task (k answer), w')
  | _ => none

/-- The handler of a message. -/
def Running.message (bound : Nat) (p : Running) (w : World) (closePosition : Bool) : Process :=
  if p.memory.isStopping then .running p
  else
    let p := { p with emergency := if closePosition then some w.exchange else none }
    p.settled .stop ((stopWorker bound closePosition).settle p.memory)

/-- One step of a bot. -/
def Bot.step (bound : Nat) (b : Bot) : Event → Option Bot
  | .start config =>
    match b.process with
    | .running _ => none
    | _ => some { b with process := .running { memory := { config }, main := worker bound config } }
  | .message closePosition =>
    match b.process with
    | .running p => some { b with process := p.message bound b.world closePosition }
    | _ => none
  | .serve task outcome =>
    match b.process with
    | .running p => do
      let (p', w') ← p.serve b.world task outcome
      some { world := w', process := .running p' }
    | _ => none
  | .resume task =>
    match b.process with
    | .running p => do
      let process ← p.resume task
      some { b with process }
    | _ => none
  | .exchange e => do
    let exchange ← b.world.exchange.event e
    some { b with world := { b.world with exchange } }
  | .kill =>
    match b.process with
    | .running _ => some { b with process := .absent }
    | _ => none

/-- What a step of a bot can be. -/
inductive BotStep (bound : Nat) : Bot → Event → Bot → Prop
  | start {process : Process} : process.isRunning = false → BotStep bound ⟨w, process⟩
      (.start config) ⟨w, .running { memory := { config }, main := worker bound config }⟩
  | message {p : Running} : BotStep bound ⟨w, .running p⟩ (.message closePosition)
      ⟨w, p.message bound w closePosition⟩
  | serve {p : Running} {k : Except String (api.Answer r) → Prog ExitCode} :
      p.task task = some (.await r k) → Trading.serve w r outcome = some (x, w') →
      BotStep bound ⟨w, .running p⟩ (.serve task outcome) ⟨w', .running (p.setTask task (k x))⟩
  | resume {p : Running} : p.task task = some program →
      BotStep bound ⟨w, .running p⟩ (.resume task) ⟨w, p.settled task (program.settle p.memory)⟩
  | exchange {w : World} : w.exchange.event e = some x →
      BotStep bound ⟨w, process⟩ (.exchange e) ⟨{ w with exchange := x }, process⟩
  | kill {p : Running} : BotStep bound ⟨w, .running p⟩ .kill ⟨w, .absent⟩

theorem Running.pending_eq {p : Running} {task : Task}
    {k : Except String (api.Answer r) → Prog ExitCode}
    (h : p.task task = some (.await r k)) : p.pending task = some r := by
  rw [Running.pending, h]
  rfl

/-- The request that the event serves. -/
def Bot.serves (b : Bot) : Event → Option (Task × Request)
  | .serve task _ =>
    match b.process with
    | .running p => (p.pending task).map (task, ·)
    | _ => none
  | _ => none

theorem Bot.serves_serve {b : Bot} {p : Running} {k : Except String (api.Answer r) → Prog ExitCode}
    (hb : b.process = .running p) (h : p.task task = some (.await r k)) (outcome : Outcome) :
    b.serves (.serve task outcome) = some (task, r) := by
  simp only [Bot.serves, hb, Running.pending_eq h]
  rfl

theorem Running.serve_cases {p : Running} {task : Task}
    (h : p.serve w task outcome = some (p', w')) :
    ∃ (r : Request) (k : Except String (api.Answer r) → Prog ExitCode) (x : _),
      p.task task = some (.await r k) ∧ Trading.serve w r outcome = some (x, w') ∧
        p' = p.setTask task (k x) := by
  unfold Running.serve at h
  split at h
  next r k ht =>
    obtain ⟨⟨x, w''⟩, hserve, h⟩ := Option.bind_eq_some_iff.mp h
    cases h
    exact ⟨r, k, x, ht, hserve, rfl⟩
  next => cases h

theorem Bot.step_cases {b b' : Bot} (h : b.step bound e = some b') : BotStep bound b e b' := by
  obtain ⟨w, process⟩ := b
  cases e with
  | start config =>
    cases process with
    | running p => cases h
    | absent => cases h; exact .start rfl
    | exited => cases h; exact .start rfl
  | message closePosition =>
    cases process with
    | running p => cases h; exact .message
    | _ => cases h
  | serve task outcome =>
    cases process with
    | running p =>
      obtain ⟨⟨p', w'⟩, hserve, h⟩ := Option.bind_eq_some_iff.mp h
      cases h
      obtain ⟨r, k, x, ht, hs, rfl⟩ := Running.serve_cases hserve
      exact .serve ht hs
    | _ => cases h
  | resume task =>
    cases process with
    | running p =>
      obtain ⟨process, hresume, h⟩ := Option.bind_eq_some_iff.mp h
      cases h
      obtain ⟨program, ht, hresume⟩ := Option.bind_eq_some_iff.mp hresume
      cases hresume
      exact .resume ht
    | _ => cases h
  | exchange e =>
    obtain ⟨x, hx, h⟩ := Option.bind_eq_some_iff.mp h
    cases h
    exact .exchange hx
  | kill =>
    cases process with
    | running p => cases h; exact .kill
    | _ => cases h

theorem Running.settled_cases (p : Running) (task : Task) (r : Prog ExitCode × Memory) :
    (∃ code, r.1 = .pure (some code) ∧
      p.settled task r = .exited code r.2.indexOperation p.emergency) ∨
    p.settled task r = .running { p.setTask task r.1 with memory := r.2 } := by
  obtain ⟨program, m⟩ := r
  cases program with
  | pure a =>
    cases a with
    | none => exact .inr rfl
    | some code => exact .inl ⟨code, rfl, rfl⟩
  | _ => exact .inr rfl

/-- The account at the moment when the process was told to close its position. -/
def Process.emergency : Process → Option Exchange
  | running p => p.emergency
  | exited _ _ emergency => emergency
  | absent => none

theorem Running.settled_emergency (p : Running) (task : Task) (r : Prog ExitCode × Memory) :
    (p.settled task r).emergency = p.emergency := by
  obtain ⟨code, _, h⟩ | h := p.settled_cases task r
  · rw [h]
    rfl
  · rw [h]
    cases task <;> rfl

/-- Only the stop message tells a process to close its position. -/
theorem Bot.emergency_step {b b' : Bot} (h : b.step bound e = some b')
    (he : b'.process.emergency.isSome = true) :
    b.process.emergency.isSome = true ∨ e = .message true := by
  cases Bot.step_cases h with
  | start => cases he
  | @message w closePosition p =>
    cases closePosition with
    | true => exact .inr rfl
    | false =>
      refine .inl ?_
      unfold Running.message at he
      split at he
      next => exact he
      next =>
        dsimp only at he
        rw [Running.settled_emergency] at he
        cases he
  | @serve r task w outcome x w' p k =>
    refine .inl ?_
    cases task <;> exact he
  | @resume task program w p =>
    rw [Running.settled_emergency] at he
    exact .inl he
  | exchange => exact .inl he
  | kill => cases he

/-! ## Concrete runs -/

/-- A configuration for concrete runs: one buy order of one coin, with a stop loss of ten per
cent. -/
def oneTrade : ConfigType where
  apiKey := "key"
  privateKey := "secret"
  password := ""
  symbol := "BTC/USDT"
  positionSize := 1
  stopLoss := some (1 / 10)
  isOnlyBuy := true
  exchange := .okx

/-- The requests of the task are served one after the other. -/
def roundTrips (task : Task) (outcomes : List Outcome) : List Event :=
  outcomes.flatMap fun outcome => [.serve task outcome, .resume task]

end Tonatiuh.Trading
