import Tonatiuh.Billing.Types
import Tonatiuh.Supervisor.System
import Tonatiuh.Transition.Locks

/-! `POST /:id/start`, `stop`, `restart` and `emergency-stop` of `trading/bots.router.ts`, and
`consumeBotCommand` of `entitlements/service.ts`.

The requests are those of one organization. Their transactions are interleaved statement by
statement. What a transaction has written is known to itself only until it commits, and is part of
its stage. A statement waits for the row of the bot, for an uncommitted row with its idempotency
key, or for the advisory lock, when another transaction has it. Transactions end in a COMMIT or,
after any error, in a ROLLBACK. The audit event of an accepted request has a transaction of its own,
which comes after, and touches none of these tables. -/

namespace Tonatiuh.Commands

open Billing (Timestamp Plan Subscription)
open Supervisor (BotId CommandId CommandKind CommandStatus DesiredState ActualState TradingBot)
open Transition (isFree)

/-! ## Rows -/

/-- `period_start` of `organization_usage_monthly`. -/
abbrev Month := Int

/-- A row of `bot_commands`. -/
structure Command where
  id : CommandId
  botId : BotId
  command : CommandKind
  idempotencyKey : String
  status : CommandStatus := .pending
  error : Option String := none
  createdAt : Timestamp
  deriving DecidableEq, Repr

/-- The tables, with the rows of one organization. `usage` is the quantity of `BOT_COMMANDS`. -/
structure Database where
  bots : BotId → Option TradingBot := fun _ => none
  commands : List Command := []
  usage : Month → Option Nat := fun _ => none
  subscription : Option Subscription := none

def Database.find (db : Database) (key : String) : Option Command :=
  db.commands.find? fun row => row.idempotencyKey = key

/-! ## Errors -/

inductive Details where
  | none
  | feature (feature : String) (plan : Plan)
  | quota (resource : String) (plan : Plan) (limit current : Nat)
  deriving DecidableEq, Repr

structure SaasHttpError where
  status : Nat
  code : String
  message : String
  details : Details := .none
  deriving DecidableEq, Repr

/-- What a request is rejected with: an answer of its own, or `INTERNAL_ERROR`. -/
inductive Failure where
  | http (error : SaasHttpError)
  | internal (message : String)
  deriving DecidableEq, Repr

def notFound (message : String) : Failure := .http ⟨404, "NOT_FOUND", message, .none⟩

def keyRequired : Failure :=
  .http ⟨400, "IDEMPOTENCY_KEY_REQUIRED", "A valid Idempotency-Key header is required.", .none⟩

def keyConflict : Failure :=
  .http ⟨409, "IDEMPOTENCY_KEY_CONFLICT", "Idempotency key was used for another command.", .none⟩

def entitlementRequired (plan : Plan) : Failure :=
  .http ⟨402, "ENTITLEMENT_REQUIRED", "Live trading is not included in the current plan.",
    .feature "liveTrading" plan⟩

def exceeded (resource : String) (plan : Plan) (limit current : Nat) : Failure :=
  .http ⟨409, "QUOTA_EXCEEDED", resource ++ " quota is exceeded.",
    .quota resource plan limit current⟩

/-! ## Entitlements -/

structure Entitlements where
  monthlyBotCommands : Nat
  liveTrading : Bool
  deriving DecidableEq, Repr

def planCatalog : Plan → Entitlements
  | .free => ⟨0, false⟩
  | .pro => ⟨10000, true⟩

/-- The `WHERE` clause of `activePlan`. -/
def isInForce (now : Timestamp) (row : Subscription) : Bool :=
  (row.status = .active || row.status = .pastDue) &&
    (row.currentPeriodEnd.any (now < ·) || row.gracePeriodEnd.any (now < ·))

def activePlan (now : Timestamp) (subscription : Option Subscription) : Plan :=
  match subscription.filter (isInForce now) with
  | some row => if row.plan = .pro then .pro else .free
  | none => .free

/-! ## Idempotency keys -/

/-- The characters that `trim` removes. -/
def isSpace (c : Char) : Bool :=
  let n := c.toNat
  (9 ≤ n && n ≤ 13) || n = 32 || n = 0xA0 || n = 0x1680 || (0x2000 ≤ n && n ≤ 0x200A) ||
    n = 0x2028 || n = 0x2029 || n = 0x202F || n = 0x205F || n = 0x3000 || n = 0xFEFF

def trim (s : String) : String :=
  String.ofList ((s.toList.dropWhile isSpace).reverse.dropWhile isSpace).reverse

/-- `/^[A-Za-z0-9._:-]{8,128}$/`. -/
def isIdempotencyKey (key : String) : Bool :=
  let cs := key.toList
  8 ≤ cs.length && cs.length ≤ 128 && cs.all fun c =>
    c.isAlphanum || c = '.' || c = '_' || c = ':' || c = '-'

/-! ## Transactions -/

/-- What `consumeBotCommand` has read and written. -/
structure Counted where
  subscription : Option Subscription
  quantity : Nat
  deriving DecidableEq, Repr

/-- The statement that comes next, with the row that the transaction has inserted or found. -/
inductive Stage where
  | selectBot
  | insertCommand
  | lockUsage (row : Command)
  | selectPlan (row : Command)
  | upsertUsage (row : Command) (subscription : Option Subscription)
  | updateBot (row : Command) (counted : Option Counted)
  | commit (row : Command) (counted : Option Counted)
  | selectCommand
  /-- The COMMIT of a transaction that has written nothing. -/
  | reply (row : Command)
  | ended (answer : Except Failure Command)
  deriving DecidableEq

/-- The transaction of a request, and the request. `now` is the start of the transaction. -/
structure Transaction where
  botId : BotId
  command : CommandKind
  idempotencyKey : String
  now : Timestamp
  stage : Stage
  deriving DecidableEq

namespace Transaction

/-- The row of the bot that it has locked. -/
def lockedBot (t : Transaction) : Option BotId :=
  match t.stage with
  | .selectBot | .ended _ => none
  | _ => some t.botId

/-- The row that it has inserted. -/
def inserted (t : Transaction) : Option Command :=
  match t.stage with
  | .lockUsage row | .selectPlan row | .upsertUsage row _ | .updateBot row _ | .commit row _ =>
    some row
  | _ => none

/-- The idempotency key of this row. -/
def insertedKey (t : Transaction) : Option String := t.inserted.map (·.idempotencyKey)

def counted (t : Transaction) : Option Counted :=
  match t.stage with
  | .updateBot _ counted | .commit _ counted => counted
  | _ => none

/-- Has it taken the advisory lock of the usage? -/
def lockedUsage (t : Transaction) : Option Unit :=
  match t.stage with
  | .selectPlan _ | .upsertUsage .. => some ()
  | _ => t.counted.map fun _ => ()

/-- The transaction of a request, which does not begin without a key. -/
def begin_ (botId : BotId) (command : CommandKind) (header : Option String) (now : Timestamp) :
    Transaction :=
  let key := trim (header.getD "")
  ⟨botId, command, key, now,
    if isIdempotencyKey key then .selectBot else .ended (.error keyRequired)⟩

/-- The row of the `INSERT`; transactions are numbered, and so are the rows that they insert. -/
def row (t : Transaction) (i : Nat) : Command where
  id := i
  botId := t.botId
  command := t.command
  idempotencyKey := t.idempotencyKey
  createdAt := t.now

/-- The first half of `consumeBotCommand`, with the answer of the query of `activePlan`. -/
def requirePlan (t : Transaction) (row : Command) (subscription : Option Subscription) : Stage :=
  let plan := activePlan t.now subscription
  if (planCatalog plan).liveTrading then .upsertUsage row subscription
  else .ended (.error (entitlementRequired plan))

/-- The second half, with the quantity that the `INSERT` returns. -/
def consume (t : Transaction) (row : Command) (subscription : Option Subscription)
    (quantity : Nat) : Stage :=
  let plan := activePlan t.now subscription
  let limit := (planCatalog plan).monthlyBotCommands
  if limit < quantity then
    .ended (.error (exceeded "monthlyBotCommands" plan limit (quantity - 1)))
  else .updateBot row (some ⟨subscription, quantity⟩)

/-- The answer to a request whose key was used before. -/
def replay (t : Transaction) : Option Command → Stage
  | some existing =>
    if existing.botId ≠ t.botId || existing.command ≠ t.command then .ended (.error keyConflict)
    else .reply existing
  | none =>
    .ended (.error (.internal "Cannot read properties of undefined (reading 'bot_id')"))

end Transaction

/-- An `UPDATE` of a bot that has been committed, with the key of its request. -/
structure BotWrite where
  idempotencyKey : String
  botId : BotId
  desiredState : DesiredState
  actualState : ActualState
  deriving DecidableEq, Repr

structure System where
  db : Database := {}
  transactions : List Transaction := []
  writes : List BotWrite := []

section
variable (period : Timestamp → Month)

/-- The rows of a transaction become visible. -/
def Database.commit (db : Database) (t : Transaction) : Database :=
  match t.stage with
  | .commit row counted =>
    { db with
      bots := Function.update db.bots t.botId ((db.bots t.botId).map fun bot =>
        { bot with
          desiredState := t.command.desiredState
          actualState := t.command.actualState })
      commands := db.commands ++ [row]
      usage := match counted with
        | some counted =>
          Function.update db.usage (period t.now) (some counted.quantity)
        | none => db.usage }
  | _ => db

def Transaction.writes (t : Transaction) : List BotWrite :=
  match t.stage with
  | .commit .. =>
    [⟨t.idempotencyKey, t.botId, t.command.desiredState, t.command.actualState⟩]
  | _ => []

/-- The next statement of transaction `i`, if it has not to wait. -/
def System.next (s : System) (i : Nat) (t : Transaction) : Option Stage :=
  match t.stage with
  | .selectBot =>
    if isFree Transaction.lockedBot s.transactions i t.botId then
      some (if (s.db.bots t.botId).isSome then .insertCommand
        else .ended (.error (notFound "Bot was not found.")))
    else none
  | .insertCommand =>
    if isFree Transaction.insertedKey s.transactions i t.idempotencyKey then
      some (
        if (s.db.find t.idempotencyKey).isSome then .selectCommand
        else if t.command.isStopping then .updateBot (t.row i) none
        else .lockUsage (t.row i))
    else none
  | .lockUsage row =>
    if isFree Transaction.lockedUsage s.transactions i () then some (.selectPlan row) else none
  | .selectPlan row => some (t.requirePlan row s.db.subscription)
  | .upsertUsage row subscription =>
    some (t.consume row subscription ((s.db.usage (period t.now)).getD 0 + 1))
  | .updateBot row counted => some (.commit row counted)
  | .selectCommand => some (t.replay (s.db.find t.idempotencyKey))
  | .commit row _ | .reply row => some (.ended (.ok row))
  | .ended _ => none

/-- The next statement of transaction `i` is executed. -/
def System.run (s : System) (i : Nat) : Option System := do
  let t ← s.transactions[i]?
  let stage ← s.next period i t
  some {
    db := s.db.commit period t
    transactions := s.transactions.set i { t with stage }
    writes := s.writes ++ t.writes }

/-- A statement fails, or the connection. -/
def System.abort (s : System) (i : Nat) (message : String) : Option System := do
  let t ← s.transactions[i]?
  match t.stage with
  | .ended _ => none
  | _ =>
    some { s with
      transactions := s.transactions.set i { t with stage := .ended (.error (.internal message)) } }

/-- The requests, and what else happens to the rows of an organization none of whose bots is
deleted. The worker updates bots and commands. -/
inductive Event where
  | request (botId : BotId) (command : CommandKind) (header : Option String) (now : Timestamp)
  | run (i : Nat)
  | abort (i : Nat) (message : String)
  | createBot (botId : BotId)
  | updateBot (botId : BotId) (bot : TradingBot)
  | updateCommand (id : CommandId) (status : CommandStatus) (error : Option String)
  | updateSubscription (subscription : Option Subscription)

def System.step (s : System) : Event → Option System
  | .request botId command header now =>
    if command = .delete then none
    else some { s with
      transactions := s.transactions ++ [.begin_ botId command header now] }
  | .run i => s.run period i
  | .abort i message => s.abort i message
  | .createBot botId =>
    if (s.db.bots botId).isSome then none
    else some { s with db.bots := Function.update s.db.bots botId (some {}) }
  | .updateBot botId bot =>
    if (s.db.bots botId).isSome && s.transactions.all (·.lockedBot ≠ some botId) then
      some { s with db.bots := Function.update s.db.bots botId (some bot) }
    else none
  | .updateCommand id status error =>
    some { s with
      db.commands := s.db.commands.map fun row =>
        if row.id = id then { row with status, error } else row }
  | .updateSubscription subscription => some { s with db.subscription := subscription }

end

end Tonatiuh.Commands
