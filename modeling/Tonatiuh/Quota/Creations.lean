import Tonatiuh.Commands.Routes

/-! `enforceResourceQuota` of `entitlements/service.ts`, and the two routes that call it: `POST
/bots` of `trading/bots.router.ts` and `POST /exchanges` of `trading/exchanges.router.ts`.

The requests are those of one organization, after the checks that precede their transactions. The
transactions are interleaved statement by statement, and an advisory lock is held until the end of
the transaction. Nothing else inserts a row into these two tables. Rows are deleted by the worker
that serves a DELETE command and by the retention worker. -/

namespace Tonatiuh.Quota

open Billing (Timestamp Plan Subscription)
open Commands (Failure notFound exceeded activePlan trim)
open Transition (isFree)

/-! ## Catalog -/

structure Entitlements extends Commands.Entitlements where
  maxExchangeConnections : Nat
  maxBots : Nat
  maxMembers : Nat
  deriving DecidableEq, Repr

def planCatalog : Plan → Entitlements
  | .free => { Commands.planCatalog .free with
      maxExchangeConnections := 1, maxBots := 1, maxMembers := 1 }
  | .pro => { Commands.planCatalog .pro with
      maxExchangeConnections := 5, maxBots := 10, maxMembers := 10 }

/-- The argument `resource` of `enforceResourceQuota`. -/
inductive Resource where
  | exchangeConnections | bots
  deriving DecidableEq, Repr

namespace Resource

def name : Resource → String
  | .exchangeConnections => "exchangeConnections"
  | .bots => "bots"

def limit (resource : Resource) (plan : Plan) : Nat :=
  match resource with
  | .exchangeConnections => (planCatalog plan).maxExchangeConnections
  | .bots => (planCatalog plan).maxBots

end Resource

/-! ## Rows -/

abbrev ConnectionId := Nat
abbrev BotId := Nat

/-- A row of `exchange_connections`. -/
structure ExchangeConnection where
  id : ConnectionId
  exchangeCode : String
  label : String
  enabled : Bool := true
  sandbox : Bool
  lastVerifiedAt : Option Timestamp
  deriving DecidableEq, Repr

/-- A row of `trading_bots`. -/
structure TradingBot where
  id : BotId
  exchangeConnectionId : ConnectionId
  name : String
  strategy : String
  configuration : String
  deriving DecidableEq, Repr

inductive Row where
  | connection (row : ExchangeConnection)
  | bot (row : TradingBot)
  deriving DecidableEq, Repr

/-- What is unique: `UNIQUE(organization_id,label)` and `UNIQUE(organization_id,name)`. -/
def Row.key : Row → Resource × String
  | .connection row => (.exchangeConnections, row.label)
  | .bot row => (.bots, row.name)

/-- The tables, with the rows of one organization. -/
structure Database where
  connections : List ExchangeConnection := []
  bots : List TradingBot := []
  subscription : Option Subscription := none

namespace Database

def count (db : Database) : Resource → Nat
  | .exchangeConnections => db.connections.length
  | .bots => db.bots.length

def rows (db : Database) : List Row := db.connections.map .connection ++ db.bots.map .bot

def insert (db : Database) : Row → Database
  | .connection row => { db with connections := db.connections ++ [row] }
  | .bot row => { db with bots := db.bots ++ [row] }

/-- The foreign key of a bot. -/
def isReferenced (db : Database) : Row → Bool
  | .connection _ => true
  | .bot row => db.connections.any (·.id = row.exchangeConnectionId)

end Database

/-! ## Requests -/

def validationError (message : String) : Failure :=
  .http ⟨400, "VALIDATION_ERROR", message, .none⟩

/-- The length of a JavaScript string. -/
def utf16Length (s : String) : Nat :=
  (s.toList.map fun c => if c.toNat < 0x10000 then 1 else 2).sum

/-- `stringValue`, for a field that is a string or not. -/
def stringValue (value : Option String) (field : String) (maxLength : Nat) :
    Except Failure String :=
  match value with
  | none => .error (validationError (field ++ " must be a string."))
  | some value =>
    let result := trim value
    if result.isEmpty || maxLength < utf16Length result then
      .error (validationError (field ++ " must contain between 1 and " ++ toString maxLength ++
        " characters."))
    else .ok result

/-- A body with the fields that are read in the transaction. `configuration` is what
`tradingConfiguration` answers, and `isVerified` says that the credentials have been tried. -/
inductive Body where
  | connection (exchangeCode : String) (label : Option String) (sandbox isVerified : Bool)
  | bot (connectionId : ConnectionId) (name : Option String)
    (configuration : Except Failure String)

def Body.resource : Body → Resource
  | .connection .. => .exchangeConnections
  | .bot .. => .bots

/-- The answer to the error 23505. -/
def duplicate : Resource → Failure
  | .exchangeConnections => .http ⟨409, "LABEL_EXISTS", "Connection label already exists.", .none⟩
  | .bots => .http ⟨409, "BOT_NAME_EXISTS", "Bot name already exists.", .none⟩

/-- The answer to the error 23503. -/
def unreferenced : Failure :=
  .internal ("insert or update on table \"trading_bots\" violates foreign key constraint " ++
    "\"trading_bots_exchange_tenant_fk\"")

/-! ## Transactions -/

/-- The statement that comes next, with the plan that was read. -/
inductive Stage where
  | lock
  | selectPlan
  | count (plan : Plan)
  | selectConnection (plan : Plan) (connectionId : ConnectionId)
  | insert (plan : Plan)
  | commit (plan : Plan) (row : Row)
  | ended (answer : Except Failure Row)

/-- The transaction of a request. `id` is the uuid of the row that it inserts, and `now` its
start. -/
structure Transaction where
  body : Body
  id : Nat
  now : Timestamp
  stage : Stage := .lock

namespace Transaction

def resource (t : Transaction) : Resource := t.body.resource

/-- The row of the `INSERT`, if the last fields of the body are valid. -/
def row (t : Transaction) : Except Failure Row := do
  match t.body with
  | .connection exchangeCode label sandbox isVerified =>
    let label ← stringValue label "label" 100
    let lastVerifiedAt := if isVerified then some t.now else none
    return .connection { id := t.id, exchangeCode, label, sandbox, lastVerifiedAt }
  | .bot exchangeConnectionId name configuration =>
    let name ← stringValue name "name" 100
    let configuration ← configuration
    return .bot { id := t.id, exchangeConnectionId, name, strategy := "VECTOR_PROFIT",
                  configuration }

/-- The row that it has inserted. -/
def inserted (t : Transaction) : Option Row :=
  match t.stage with
  | .commit _ row => some row
  | _ => none

/-- The resource whose advisory lock it has taken. -/
def locked (t : Transaction) : Option Resource :=
  match t.stage with
  | .lock | .ended _ => none
  | _ => some t.resource

end Transaction

/-- `created` are the creations that have been committed, each with the plan that it has read. -/
structure System where
  db : Database := {}
  transactions : List Transaction := []
  created : List (Resource × Plan) := []

section
variable (hashtextextended : String → Int) (organizationId : String)

/-- The key of the advisory lock. -/
def lockKey (resource : Resource) : Int :=
  hashtextextended (organizationId ++ ":" ++ resource.name)

/-- The advisory lock that a transaction has taken. -/
def Transaction.lockedKey (t : Transaction) : Option Int :=
  t.locked.map (lockKey hashtextextended organizationId)

/-- The next statement of transaction `i`, if it has not to wait. -/
def System.next (s : System) (i : Nat) (t : Transaction) : Option Stage :=
  match t.stage with
  | .lock =>
    if isFree (Transaction.lockedKey hashtextextended organizationId) s.transactions i
        (lockKey hashtextextended organizationId t.resource) then some .selectPlan
    else none
  | .selectPlan => some (.count (activePlan t.now s.db.subscription))
  | .count plan =>
    let limit := t.resource.limit plan
    let current := s.db.count t.resource
    some (
      if limit ≤ current then .ended (.error (exceeded t.resource.name plan limit current))
      else match t.body with
        | .connection .. => .insert plan
        | .bot connectionId .. => .selectConnection plan connectionId)
  | .selectConnection plan connectionId =>
    some (
      if s.db.connections.any fun row => row.id = connectionId && row.enabled then .insert plan
      else .ended (.error (notFound "Enabled exchange connection was not found.")))
  | .insert plan =>
    match t.row with
    | .error failure => some (.ended (.error failure))
    | .ok row =>
      -- an uncommitted row with the same key is waited for
      if isFree (fun u => u.inserted.map Row.key) s.transactions i row.key then
        some (
          if s.db.rows.any (·.key = row.key) then .ended (.error (duplicate t.resource))
          else if s.db.isReferenced row then .commit plan row
          else .ended (.error unreferenced))
      else none
  | .commit _ row => some (.ended (.ok row))
  | .ended _ => none

/-- The rows of a transaction become visible. -/
def Database.commit (db : Database) (t : Transaction) : Database :=
  match t.stage with
  | .commit _ row => db.insert row
  | _ => db

def Transaction.created (t : Transaction) : List (Resource × Plan) :=
  match t.stage with
  | .commit plan _ => [(t.resource, plan)]
  | _ => []

/-- The next statement of transaction `i` is executed. -/
def System.run (s : System) (i : Nat) : Option System := do
  let t ← s.transactions[i]?
  let stage ← s.next hashtextextended organizationId i t
  some {
    db := s.db.commit t
    transactions := s.transactions.set i { t with stage }
    created := s.created ++ t.created }

/-- A statement fails, or the connection. -/
def System.abort (s : System) (i : Nat) (message : String) : Option System := do
  let t ← s.transactions[i]?
  match t.stage with
  | .ended _ => none
  | _ =>
    some { s with
      transactions := s.transactions.set i { t with stage := .ended (.error (.internal message)) } }

/-- A uuid that no row has. -/
def System.isFresh (s : System) (id : Nat) : Bool :=
  s.db.connections.all (·.id ≠ id) && s.db.bots.all (·.id ≠ id) && s.transactions.all (·.id ≠ id)

/-- A key that no row has but the one with this id, committed or not. -/
def System.isUnused (s : System) (key : Resource × String) (id : Nat) : Bool :=
  s.db.connections.all (fun row => row.id = id || (Row.connection row).key ≠ key) &&
    s.db.bots.all (fun row => row.id = id || (Row.bot row).key ≠ key) &&
    s.transactions.all fun t => t.inserted.map Row.key ≠ some key

/-- Does a bot that is not removed refer to this connection? -/
def System.isNeeded (s : System) (removed : List BotId) (id : ConnectionId) : Bool :=
  s.db.bots.any (fun row => row.exchangeConnectionId = id && !removed.contains row.id) ||
    s.transactions.any fun t => t.inserted.any fun
      | .bot row => row.exchangeConnectionId = id
      | .connection _ => false

/-- The requests, and what else happens to the rows of the organization. -/
inductive Event where
  | request (body : Body) (id : Nat) (now : Timestamp)
  | run (i : Nat)
  | abort (i : Nat) (message : String)
  /-- `PATCH /bots/:id`. -/
  | updateBot (id : BotId) (name configuration : String)
  /-- `PATCH /exchanges/:id`. -/
  | updateConnection (id : ConnectionId) (label : String) (enabled : Bool)
  /-- The worker or the retention worker commits the deletion of these rows. -/
  | delete (bots : List BotId) (connections : List ConnectionId)
  | updateSubscription (subscription : Option Subscription)

def System.step (s : System) : Event → Option System
  | .request body id now =>
    if s.isFresh id then some { s with transactions := s.transactions ++ [{ body, id, now }] }
    else none
  | .run i => s.run hashtextextended organizationId i
  | .abort i message => s.abort i message
  | .updateBot id name configuration =>
    if s.isUnused (.bots, name) id then
      some { s with db.bots := s.db.bots.map fun row =>
        if row.id = id then { row with name, configuration } else row }
    else none
  | .updateConnection id label enabled =>
    if s.isUnused (.exchangeConnections, label) id then
      some { s with db.connections := s.db.connections.map fun row =>
        if row.id = id then { row with label, enabled } else row }
    else none
  | .delete bots connections =>
    if connections.any (s.isNeeded bots) then none
    else some { s with
      db.bots := s.db.bots.filter fun row => !bots.contains row.id
      db.connections := s.db.connections.filter fun row => !connections.contains row.id }
  | .updateSubscription subscription => some { s with db.subscription := subscription }

end

end Tonatiuh.Quota
