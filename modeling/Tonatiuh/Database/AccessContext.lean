import Tonatiuh.Retention.Accounts
import Tonatiuh.Sql.Logic
import Tonatiuh.Transition.Locks

/-! The requests of the API, their database context, and row level security.

`requestContext` and `authenticate` of `http/middleware.ts`, `requirePlatformAdmin` of
`admin/authorization.ts` and `runWithServiceDatabaseContext` fill the context of
`db/access-context.ts`, which every transaction of `saasTransaction` of `db/pool.ts` copies into
settings of its own. The policies of the migrations read these settings. Any number of requests run
on the connections of a pool, and each statement is a step. A statement that touches several rows is
a step for each of them. The tables without row level security that matter here are the `Directory`;
the others, and what a foreign key deletes, are left out. -/

namespace Tonatiuh.Database

open Retention (Role)
open Transition

abbrev Uuid := Nat

/-! ## The context and the settings -/

structure DatabaseAccessContext where
  organizationId : Option String := none
  userId : Option String := none
  platformAdmin : Bool := false
  service : Bool := false
  deriving DecidableEq, Repr

inductive ProcessScope where
  | api | worker | service
  deriving DecidableEq, Repr

/-- The parameters `app.*`, which `current_setting` returns; `none` is one that the session has
never set. -/
structure Settings where
  currentOrganizationId : Option String := none
  currentUserId : Option String := none
  platformAdmin : Option String := none
  serviceAccess : Option String := none
  workerAccess : Option String := none
  deriving DecidableEq, Repr

def flag (b : Bool) : String := if b then "true" else "false"

/-- The `set_config` of `applyDatabaseContext`. -/
def DatabaseAccessContext.settings (context : DatabaseAccessContext) (processScope : ProcessScope) :
    Settings where
  currentOrganizationId := some (context.organizationId.getD "")
  currentUserId := some (context.userId.getD "")
  platformAdmin := some (flag context.platformAdmin)
  serviceAccess := some (flag (context.service || processScope = .service))
  workerAccess := some (flag (processScope = .worker))

/-- After a transaction the parameters that it has set are empty texts. -/
def Settings.cleared (settings : Settings) : Settings where
  currentOrganizationId := settings.currentOrganizationId.map fun _ => ""
  currentUserId := settings.currentUserId.map fun _ => ""
  platformAdmin := settings.platformAdmin.map fun _ => ""
  serviceAccess := settings.serviceAccess.map fun _ => ""
  workerAccess := settings.workerAccess.map fun _ => ""

/-! ## Row level security -/

/-- What a policy looks at: the `organization_id` or the `user_id` of a row. -/
inductive Owner where
  | organization (id : Option Uuid)
  | user (id : Option Uuid)
  deriving DecidableEq, Repr

structure Row where
  owner : Owner
  data : String
  deriving DecidableEq, Repr

/-- `setting::uuid`, where `cast` reads a text. -/
def castSetting (cast : String → Option Uuid) (setting : Option String) : Option (Option Uuid) :=
  match Sql.nullif setting "" with
  | none => some none
  | some text => (cast text).map some

/-- `app_private.can_access_organization`. The result is `none` if the cast fails. -/
def canAccessOrganization (cast : String → Option Uuid) (settings : Settings)
    (target : Option Uuid) :
    Option Sql.Truth :=
  (castSetting cast settings.currentOrganizationId).map fun current =>
    Sql.and (some target.isSome) (Sql.or (Sql.or (Sql.or (Sql.equal target current)
      (Sql.equal settings.platformAdmin (some "true")))
        (Sql.equal settings.serviceAccess (some "true")))
      (Sql.equal settings.workerAccess (some "true")))

/-- `app_private.can_access_user`. -/
def canAccessUser (cast : String → Option Uuid) (settings : Settings) (target : Option Uuid) :
    Option Sql.Truth :=
  (castSetting cast settings.currentUserId).map fun current =>
    Sql.or (Sql.or (Sql.or (Sql.equal settings.platformAdmin (some "true"))
      (Sql.equal settings.serviceAccess (some "true")))
        (Sql.equal settings.workerAccess (some "true")))
      (Sql.and (some target.isSome) (Sql.equal target current))

/-- The policies `tenant_isolation` and `subject_isolation`. -/
def policy (cast : String → Option Uuid) (settings : Settings) : Owner → Option Sql.Truth
  | .organization id => canAccessOrganization cast settings id
  | .user id => canAccessUser cast settings id

/-! ## Requests -/

/-- The claims of an access token that are used here. -/
structure AccessPayload where
  sub : String
  org : String
  deriving DecidableEq, Repr

/-- `cast` reads a text as a `uuid`, and `bypassesRowSecurity` says that the policies do not apply
to the user that the pool logs in as. -/
structure Deployment where
  cast : String → Option Uuid
  verifyAccessToken : String → Option AccessPayload
  databaseRole : Option String
  processScope : ProcessScope
  bypassesRowSecurity : Bool

inductive Middleware where
  | authenticate | requirePlatformAdmin | runWithServiceDatabaseContext
  deriving DecidableEq, Repr

/-- `req.auth`. -/
structure Auth where
  userId : String
  organizationId : String
  role : Role
  deriving DecidableEq, Repr

/-- A request that waits has a middleware whose query is under way on a connection. -/
inductive RequestStage where
  | running
  | waiting (c : Nat)
  | rejected
  deriving DecidableEq, Repr

/-- `pending` are the middlewares of the route that are still to run before its handler. -/
structure Request where
  authorization : Option String
  route : List Middleware
  pending : List Middleware
  context : DatabaseAccessContext := {}
  auth : Option Auth := none
  stage : RequestStage := .running
  deriving DecidableEq, Repr

/-- What the token of the header says. -/
def Request.payload (d : Deployment) (r : Request) : Option AccessPayload := do
  let header ← r.authorization
  if "Bearer ".toList <+: header.toList then d.verifyAccessToken (.ofList (header.toList.drop 7))
  else none

/-! ## Transactions -/

/-- What a transaction is for: the query of a middleware, before and after its answer, or a
handler. -/
inductive Purpose where
  | membership (payload : AccessPayload)
  | membershipChecked (auth : Option Auth)
  | admin (userId : String)
  | adminChecked (userId : String) (isAdmin : Bool)
  | handler
  deriving DecidableEq, Repr

inductive TransactionStage where
  | begun | roleSet | ready | failed
  deriving DecidableEq, Repr

abbrev Key := Nat

/-- `writes` are the rows that have been written, with the last one first; `none` is a row that is
deleted. -/
structure Transaction where
  requestId : Nat
  purpose : Purpose
  stage : TransactionStage := .begun
  role : Option String := none
  settings : Settings
  writes : List (Key × Option Row) := []
  deriving DecidableEq, Repr

/-- The row of a key, as the transaction sees it. -/
def Transaction.row (t : Transaction) (rows : Key → Option Row) (key : Key) : Option Row :=
  match t.writes.find? (·.1 = key) with
  | some write => write.2
  | none => rows key

/-- A connection of the pool. The settings are those of its session. -/
inductive Connection where
  | idle (settings : Settings)
  | busy (t : Transaction)
  deriving DecidableEq, Repr

/-- The rows that are locked. -/
def Connection.keys : Connection → List Key
  | .idle _ => []
  | .busy t => t.writes.map Prod.fst

/-- Whether the policies let the transaction have a row. -/
def Deployment.permits (d : Deployment) (t : Transaction) (owner : Owner) : Option Bool :=
  if d.bypassesRowSecurity && t.role.isNone then some true
  else (policy d.cast t.settings owner).map (· = some true)

/-! ## The system -/

/-- `role` is the role of a member who is active in an organization that is active, and `isAdmin`
says that a user is active and an administrator of the platform. -/
structure Directory where
  role : Uuid → Uuid → Option Role
  isAdmin : Uuid → Bool

/-- A row that a statement of a request has returned or written. -/
structure Access where
  requestId : Nat
  row : Row
  deriving DecidableEq, Repr

structure System where
  rows : Key → Option Row
  directory : Directory
  requests : List Request := []
  connections : List Connection
  accesses : List Access := []

inductive Statement where
  | select (key : Key)
  | insert (key : Key) (row : Row)
  | update (key : Key) (row : Row)
  | delete (key : Key)
  deriving DecidableEq, Repr

namespace System

def setRequest (s : System) (i : Nat) (r : Request) : System :=
  { s with requests := s.requests.set i r }

def setConnection (s : System) (c : Nat) (k : Connection) : System :=
  { s with connections := s.connections.set c k }

/-- `connect` and `BEGIN`. -/
def begin (s : System) (i c : Nat) (purpose : Purpose) : Option System :=
  match s.connections[c]? with
  | some (.idle settings) => some (s.setConnection c (.busy { requestId := i, purpose, settings }))
  | some (.busy _) | none => none

/-- The transaction of a connection. -/
def transaction? (s : System) (c : Nat) : Option Transaction :=
  match s.connections[c]? with
  | some (.busy t) => some t
  | some (.idle _) | none => none

def setTransaction (s : System) (c : Nat) (t : Transaction) : System := s.setConnection c (.busy t)

def reject (s : System) (i : Nat) (r : Request) : System :=
  s.setRequest i { r with stage := .rejected }

/-- The next middleware of request `i`, whose query is sent on connection `c`. -/
def next (d : Deployment) (s : System) (i c : Nat) : Option System := do
  let r ← s.requests[i]?
  match r.stage, r.pending with
  | .running, .runWithServiceDatabaseContext :: rest =>
    s.setRequest i { r with pending := rest, context := { r.context with service := true } }
  | .running, .authenticate :: _ =>
    match r.payload d with
    | none => s.reject i r
    | some payload =>
      (s.setRequest i { r with
        stage := .waiting c
        context := { r.context with organizationId := some payload.org,
                                    userId := some payload.sub } }).begin i c
        (.membership payload)
  | .running, .requirePlatformAdmin :: _ =>
    match r.auth with
    | none => s.reject i r
    | some auth => (s.setRequest i { r with stage := .waiting c }).begin i c (.admin auth.userId)
  | _, _ => none

/-- The handler calls `saasQuery` or `saasTransaction`. -/
def handle (s : System) (i c : Nat) : Option System := do
  let r ← s.requests[i]?
  if r.stage = .running ∧ r.pending = [] then s.begin i c .handler else none

/-- `SET LOCAL ROLE`. -/
def setRole (d : Deployment) (s : System) (c : Nat) : Option System := do
  let t ← s.transaction? c
  if t.stage = .begun then
    s.setTransaction c (match d.databaseRole.filter (· ≠ "") with
      | none => { t with stage := .roleSet }
      | some role =>
        if role ∈ ["tonatiuh_api", "tonatiuh_worker"] then
          { t with stage := .roleSet, role := some role }
        else { t with stage := .failed })
  else none

def applyDatabaseContext (d : Deployment) (s : System) (c : Nat) : Option System := do
  let t ← s.transaction? c
  let r ← s.requests[t.requestId]?
  if t.stage = .roleSet then
    s.setTransaction c { t with stage := .ready, settings := r.context.settings d.processScope }
  else none

/-- The query of a middleware. -/
def check (d : Deployment) (s : System) (c : Nat) : Option System := do
  let t ← s.transaction? c
  if t.stage = .ready then
    match t.purpose with
    | .membership payload =>
      s.setTransaction c (match d.cast payload.sub, d.cast payload.org with
        | some user, some organization => { t with
          purpose := .membershipChecked ((s.directory.role user organization).map fun role =>
            { userId := payload.sub, organizationId := payload.org, role }) }
        | _, _ => { t with stage := .failed })
    | .admin userId =>
      s.setTransaction c (match d.cast userId with
        | some user => { t with purpose := .adminChecked userId (s.directory.isAdmin user) }
        | none => { t with stage := .failed })
    | _ => none
  else none

def write (s : System) (c : Nat) (t : Transaction) (key : Key) (row : Option Row)
    (accessed : List Row) : System :=
  { s.setTransaction c { t with writes := (key, row) :: t.writes } with
    accesses := s.accesses ++ accessed.map fun row => { requestId := t.requestId, row } }

/-- A statement of a handler, for one row. A row that another transaction has written is waited
for. -/
def execute (d : Deployment) (s : System) (c : Nat) (statement : Statement) : Option System := do
  let t ← s.transaction? c
  if t.stage = .ready ∧ t.purpose = .handler then
    let failed := s.setTransaction c { t with stage := .failed }
    match statement with
    | .select key =>
      match t.row s.rows key with
      | none => s
      | some row =>
        match d.permits t row.owner with
        | none => failed
        | some false => s
        | some true => some { s with accesses := s.accesses ++ [{ requestId := t.requestId, row }] }
    | .insert key row =>
      if isUnheld Connection.keys s.connections c key then
        if (t.row s.rows key).isNone ∧ d.permits t row.owner = some true then
          s.write c t key (some row) [row]
        else failed
      else none
    | .update key row =>
      if isUnheld Connection.keys s.connections c key then
        match t.row s.rows key with
        | none => s
        | some old =>
          match d.permits t old.owner with
          | none => failed
          | some false => s
          | some true =>
            if d.permits t row.owner = some true then s.write c t key (some row) [old, row]
            else failed
      else none
    | .delete key =>
      if isUnheld Connection.keys s.connections c key then
        match t.row s.rows key with
        | none => s
        | some old =>
          match d.permits t old.owner with
          | none => failed
          | some false => s
          | some true => s.write c t key none [old]
      else none
  else none

/-- The request goes on once the query of its middleware has been answered. -/
def resume (s : System) (i : Nat) (r : Request) : Purpose → System
  | .membershipChecked (some auth) =>
    s.setRequest i { r with stage := .running, pending := r.pending.tail, auth := some auth }
  | .adminChecked _ true =>
    s.setRequest i { r with stage := .running, pending := r.pending.tail
                            context := { r.context with platformAdmin := true } }
  | .membershipChecked none | .adminChecked _ false => s.reject i r
  | .membership _ | .admin _ | .handler => s

/-- `COMMIT` and `release`. -/
def commit (s : System) (c : Nat) : Option System := do
  let t ← s.transaction? c
  let r ← s.requests[t.requestId]?
  match t.stage, t.purpose with
  | .ready, .membershipChecked _ | .ready, .adminChecked _ _ | .ready, .handler =>
    let s := s.resume t.requestId r t.purpose
    some { s.setConnection c (.idle t.settings.cleared) with rows := t.row s.rows }
  | _, _ => none

/-- A statement fails, or the handler throws. -/
def fail (s : System) (c : Nat) : Option System := do
  let t ← s.transaction? c
  s.setTransaction c { t with stage := .failed }

/-- The request of a middleware whose query fails gets the error. -/
def abandon (s : System) (t : Transaction) : System :=
  match t.purpose, s.requests[t.requestId]? with
  | .handler, _ | _, none => s
  | _, some r => s.reject t.requestId r

/-- `ROLLBACK` and `release`. -/
def rollback (s : System) (c : Nat) : Option System := do
  let t ← s.transaction? c
  if t.stage = .failed then some ((s.abandon t).setConnection c (.idle t.settings.cleared))
  else none

/-- A connection is lost, and another one takes its place in the pool. What was sent may have been
committed. -/
def disconnect (s : System) (c : Nat) (isCommitted : Bool) : Option System :=
  match s.connections[c]? with
  | none => none
  | some (.idle _) => some (s.setConnection c (.idle {}))
  | some (.busy t) =>
    some { (s.abandon t).setConnection c (.idle {}) with
      rows := if isCommitted ∧ t.stage = .ready then t.row s.rows else s.rows }

end System

inductive Event where
  | receive (authorization : Option String) (route : List Middleware)
  | next (i c : Nat)
  | handle (i c : Nat)
  | setRole (c : Nat)
  | applyDatabaseContext (c : Nat)
  | check (c : Nat)
  | execute (c : Nat) (statement : Statement)
  | commit (c : Nat)
  | fail (c : Nat)
  | rollback (c : Nat)
  | disconnect (c : Nat) (isCommitted : Bool)
  /-- Users, organizations and memberships are changed. -/
  | change (directory : Directory)

def System.step (d : Deployment) (s : System) : Event → Option System
  | .receive authorization route =>
    some { s with requests := s.requests ++ [{ authorization, route, pending := route }] }
  | .next i c => s.next d i c
  | .handle i c => s.handle i c
  | .setRole c => s.setRole d c
  | .applyDatabaseContext c => s.applyDatabaseContext d c
  | .check c => s.check d c
  | .execute c statement => s.execute d c statement
  | .commit c => s.commit c
  | .fail c => s.fail c
  | .rollback c => s.rollback c
  | .disconnect c isCommitted => s.disconnect c isCommitted
  | .change directory => some { s with directory }

end Tonatiuh.Database
