import Tonatiuh.Retention.Accounts

/-! Accounts: registration, account tokens, deletion and the changes of an administrator.

These are routes of `auth/router.ts` with `security/account-tokens.ts`, `PATCH /users/:id/status` of
`admin/router.ts`, the memberships of `organizations/router.ts`, and `anonymizeOne` of
`retention/worker.ts`. They are interleaved query by query. A query waits for the rows of `users`
and `account_tokens` that the transaction of another request has locked. Several queries of one
transaction are one step where it has locked what it changes, or reads nothing that others change.
Users, organizations and tokens are numbered in the order in which they are committed. An address
names its user. -/

namespace Tonatiuh.Accounts

open Commands (Failure notFound)
open Retention (UserId OrganizationId User UserStatus Role Membership Platform)
open Transition (isFree isUnheld)

/-! ## Rows -/

abbrev TokenId := Nat

inductive TokenKind where
  | verifyEmail | resetPassword
  deriving DecidableEq, Repr

/-- `24 hours` and `1 hour`. -/
def TokenKind.ttl : TokenKind → Nat
  | .verifyEmail => 24 * 60 * 60
  | .resetPassword => 60 * 60

/-- The status of the users that are sent a token. -/
def TokenKind.status : TokenKind → UserStatus
  | .verifyEmail => .pending
  | .resetPassword => .active

/-- A row of `account_tokens`. A row that has been deleted keeps its number. -/
structure AccountToken where
  userId : UserId
  kind : TokenKind
  expiresAt : Nat
  consumedAt : Option Nat := none
  isRemoved : Bool := false
  deriving DecidableEq, Repr

namespace AccountToken

/-- `consumed_at IS NULL`, of a row that is there. -/
def isLive (token : AccountToken) : Bool := token.consumedAt.isNone && !token.isRemoved

def consume (now : Nat) (token : AccountToken) : AccountToken :=
  { token with consumedAt := some now }

def remove (token : AccountToken) : AccountToken := { token with isRemoved := true }

end AccountToken

inductive OrganizationStatus where
  | active | suspended | closed
  deriving DecidableEq, Repr

/-! ## Errors -/

def invalidAccountToken : TokenKind → Failure
  | .verifyEmail =>
    .http ⟨400, "INVALID_ACCOUNT_TOKEN", "Verification token is invalid or expired.", .none⟩
  | .resetPassword =>
    .http ⟨400, "INVALID_ACCOUNT_TOKEN", "Password reset token is invalid or expired.", .none⟩

def invalidCredentials (message : String) : Failure :=
  .http ⟨401, "INVALID_CREDENTIALS", message, .none⟩

def lastPlatformAdmin : Failure :=
  .http ⟨409, "LAST_PLATFORM_ADMIN",
    "Assign another active platform administrator before deleting this account.", .none⟩

def ownershipTransferRequired : Failure :=
  .http ⟨409, "OWNERSHIP_TRANSFER_REQUIRED",
    "Transfer workspace ownership or remove other members before deleting the account.", .none⟩

def platformAdminRequired : Failure :=
  .http ⟨403, "PLATFORM_ADMIN_REQUIRED", "Platform administrator access is required.", .none⟩

def selfModificationForbidden : Failure :=
  .http ⟨409, "SELF_MODIFICATION_FORBIDDEN", "Administrator cannot change their own status.", .none⟩

def invalidInvitation : Failure :=
  .http ⟨400, "INVALID_INVITATION", "Invitation is invalid or expired.", .none⟩

/-! ## Requests -/

/-- Why `account_tokens` of a user are consumed: by `queueAccountEmail`, which issues a new one, or
by `POST /reset-password`, with the token of the request. -/
inductive Job where
  | queueEmail (userId : UserId) (kind : TokenKind)
  | resetPassword (userId : UserId) (tokenId : TokenId)
  deriving DecidableEq, Repr

namespace Job

def userId : Job → UserId
  | .queueEmail userId _ | .resetPassword userId _ => userId

/-- The `WHERE` clause of the `UPDATE`. -/
def covers (job : Job) (token : AccountToken) : Bool :=
  match job with
  | .queueEmail userId kind => token.userId = userId && token.kind = kind && token.isLive
  | .resetPassword userId _ => token.userId = userId && token.isLive

/-- The rows of the `INSERT`. -/
def inserted (job : Job) (now : Nat) : List AccountToken :=
  match job with
  | .queueEmail userId kind => [{ userId, kind, expiresAt := now + kind.ttl }]
  | .resetPassword .. => []

end Job

/-- The query that comes next. `held` are the tokens that an `UPDATE` has locked, and `rest` those
that it has found besides. -/
inductive Stage where
  /-- `POST /resend-verification` and `POST /forgot-password`. -/
  | selectUser (userId : UserId) (kind : TokenKind)
  /-- `POST /verify-email` and `POST /reset-password`. -/
  | selectToken (tokenId : TokenId) (kind : TokenKind)
  | consumeToken (tokenId : TokenId) (userId : UserId)
  | activateUser (tokenId : TokenId) (userId : UserId)
  | commitVerification (tokenId : TokenId) (userId : UserId)
  | updatePassword (tokenId : TokenId) (userId : UserId)
  | findTokens (job : Job) (held : List TokenId)
  | lockTokens (job : Job) (held rest : List TokenId)
  | commitTokens (job : Job) (held : List TokenId)
  /-- `DELETE /me`. -/
  | selectAccount (userId : UserId) (passwordMatches : Bool)
  | selectAdmins (userId : UserId)
  | selectBlocking (userId : UserId)
  /-- `BEGIN` of the transaction, which is at `now`. -/
  | beginDeletion (userId : UserId)
  | requestDeletion (userId : UserId) (now : Nat)
  /-- `POST /cancel-deletion`. -/
  | selectPending (userId : UserId) (passwordMatches : Bool)
  | cancelDeletion (userId : UserId)
  /-- `PATCH /users/:id/status`. -/
  | requireAdmin (actor target : UserId) (isSuspended : Bool)
  | setStatus (target : UserId) (isSuspended : Bool)
  /-- `POST /invitations/accept`. -/
  | selectInvitee (membership : Membership)
  | insertMembership (membership : Membership)
  /-- `anonymizeOne`, which picks one of the users whose deletion is due. -/
  | selectDue (userId : UserId)
  | selectOwned (userId : UserId)
  | anonymize (userId : UserId) (owned : List OrganizationId)
  | ended (answer : Except Failure Unit)
  deriving DecidableEq

/-- `now` is the start of the transaction. -/
structure Request where
  now : Nat
  stage : Stage
  deriving DecidableEq

namespace Request

/-- The row of `users` that it has locked. -/
def lockedUser (t : Request) : Option UserId :=
  match t.stage with
  | .commitVerification _ userId | .selectOwned userId | .anonymize userId _ => some userId
  | .findTokens job _ | .lockTokens job _ _ | .commitTokens job _ => some job.userId
  | _ => none

/-- The rows of `account_tokens` that it has locked. -/
def lockedTokens (t : Request) : List TokenId :=
  match t.stage with
  | .consumeToken tokenId _ | .activateUser tokenId _ | .commitVerification tokenId _
  | .updatePassword tokenId _ => [tokenId]
  | .findTokens _ held | .lockTokens _ held _ | .commitTokens _ held => held
  | _ => []

/-- The row of `users` that is updated in the next query, if that is the last one of the
transaction. -/
def userUpdate (t : Request) : Option (UserId × (User → User)) :=
  match t.stage with
  | .commitVerification _ userId => some (userId, fun user => { user with status := .active })
  | .requestDeletion userId now => some (userId, fun user =>
    { user with
      status := .deletionPending
      scheduledDeletionAt := some (now + Platform.retention) })
  | .cancelDeletion userId => some (userId, fun user =>
    { user with status := .active, scheduledDeletionAt := none })
  | .setStatus target isSuspended => some (target, fun user =>
    if user.status = .active ∨ user.status = .suspended then
      { user with status := if isSuspended then .suspended else .active }
    else user)
  | .anonymize userId _ => some (userId, fun _ => { status := .deleted })
  | _ => none

def updateTokens (t : Request) (tokens : List AccountToken) : List AccountToken :=
  match t.stage with
  | .commitVerification tokenId _ => tokens.modify tokenId (·.consume t.now)
  | .commitTokens job held =>
    tokens.mapIdx (fun id token => if id ∈ held then token.consume t.now else token) ++
      job.inserted t.now
  | .anonymize userId _ =>
    tokens.map fun token => if token.userId = userId then token.remove else token
  | _ => tokens

def updateMemberships (t : Request) (memberships : List Membership) : List Membership :=
  match t.stage with
  | .insertMembership membership =>
    if memberships.any fun m =>
        m.organizationId = membership.organizationId && m.userId =
          membership.userId then memberships
    else memberships ++ [membership]
  | .anonymize userId _ => memberships.filter fun m => m.userId ≠ userId
  | _ => memberships

def updateOrganizations (t : Request) (organizations : List OrganizationStatus) :
    List OrganizationStatus :=
  match t.stage with
  | .anonymize _ owned =>
    organizations.mapIdx fun id status => if id ∈ owned then .closed else status
  | _ => organizations

/-- The token that has its effect. -/
def applied (t : Request) : List TokenId :=
  match t.stage with
  | .commitVerification tokenId _ | .commitTokens (.resetPassword _ tokenId) _ => [tokenId]
  | _ => []

end Request

/-! ## Steps -/

/-- `applied` are the tokens that have had their effect. -/
structure System where
  users : List User := []
  tokens : List AccountToken := []
  memberships : List Membership := []
  organizations : List OrganizationStatus := []
  requests : List Request := []
  applied : List TokenId := []
  now : Nat := 0

namespace System

/-- The tables that the checks of an account read. -/
def platform (s : System) : Platform where
  organizationOf _ := 0
  users := s.users
  memberships := s.memberships

def hasStatus (s : System) (userId : UserId) (status : UserStatus) : Bool :=
  s.users[userId]?.any fun user => user.status = status

/-- The rows that an `UPDATE` of `account_tokens` finds. -/
def covered (s : System) (job : Job) : List TokenId :=
  (List.range s.tokens.length).filter fun id => s.tokens[id]?.any job.covers

def isUserFree (s : System) (i : Nat) (userId : UserId) : Bool :=
  isFree Request.lockedUser s.requests i userId

def isTokenFree (s : System) (i : Nat) (id : TokenId) : Bool :=
  isUnheld Request.lockedTokens s.requests i id

/-- The next query of request `i`, if it has not to wait. -/
def next (s : System) (i : Nat) (t : Request) : Option Stage :=
  match t.stage with
  | .selectUser userId kind =>
    if s.hasStatus userId kind.status then
      if s.isUserFree i userId then some (.findTokens (.queueEmail userId kind) []) else none
    else some (.ended (.ok ()))
  | .selectToken tokenId kind =>
    match s.tokens[tokenId]?.filter fun token =>
        token.kind = kind && token.isLive && t.now < token.expiresAt with
    | none => some (.ended (.error (invalidAccountToken kind)))
    | some token =>
      if s.isTokenFree i tokenId then
        some (match kind with
          | .verifyEmail => .consumeToken tokenId token.userId
          | .resetPassword => .updatePassword tokenId token.userId)
      else none
  | .consumeToken tokenId userId => some (.activateUser tokenId userId)
  | .activateUser tokenId userId =>
    if s.isUserFree i userId then some (.commitVerification tokenId userId) else none
  | .updatePassword tokenId userId =>
    if s.isUserFree i userId then some (.findTokens (.resetPassword userId tokenId) [tokenId])
    else none
  | .findTokens job held => some (.lockTokens job held (s.covered job))
  | .lockTokens job held [] => some (.commitTokens job held)
  | .lockTokens job held (id :: rest) =>
    if s.isTokenFree i id then
      -- a row that has been changed since the `UPDATE` found it is tested again
      some (if s.tokens[id]?.any job.covers then .lockTokens job (id :: held) rest
        else .lockTokens job held rest)
    else none
  | .selectAccount userId passwordMatches =>
    match s.users[userId]? with
    | none => some (.ended (.error (invalidCredentials "Invalid password.")))
    | some user => some (
      if ¬(user.status = .active ∧ passwordMatches) then
        .ended (.error (invalidCredentials "Invalid password."))
      else if user.isAdmin then .selectAdmins userId
      else .selectBlocking userId)
  | .selectAdmins userId =>
    some (
      if s.platform.hasOtherAdmin userId then .selectBlocking userId
      else .ended (.error lastPlatformAdmin))
  | .selectBlocking userId =>
    some (
      if s.platform.isBlocked userId then .ended (.error ownershipTransferRequired)
      else .beginDeletion userId)
  | .beginDeletion userId => some (.requestDeletion userId s.now)
  | .selectPending userId passwordMatches =>
    some (
      if passwordMatches ∧ s.hasStatus userId .deletionPending then .cancelDeletion userId
      else .ended (.error (invalidCredentials "Invalid email or password.")))
  | .requireAdmin actor target isSuspended =>
    some (
      if s.users[actor]?.any fun user => user.status = .active && user.isAdmin then
        if target = actor then .ended (.error selfModificationForbidden)
        else .setStatus target isSuspended
      else .ended (.error platformAdminRequired))
  | .setStatus target _ =>
    if s.hasStatus target .active || s.hasStatus target .suspended then
      if s.isUserFree i target then some (.ended (.ok ())) else none
    else some (.ended (.error (notFound "User was not found.")))
  | .selectInvitee membership =>
    some (
      if s.hasStatus membership.userId .active then .insertMembership membership
      else .ended (.error invalidInvitation))
  | .selectDue userId =>
    some (
      if (s.users[userId]?.any fun user => user.status = .deletionPending &&
          user.scheduledDeletionAt.any (· ≤ t.now)) &&
            s.isUserFree i userId then .selectOwned userId
      else .ended (.ok ()))
  | .selectOwned userId => some (.anonymize userId (s.platform.owned userId))
  | .anonymize userId _ =>
    if (List.range s.tokens.length).all fun id =>
        s.tokens[id]?.all (·.userId ≠ userId) || s.isTokenFree i id then some (.ended (.ok ()))
    else none
  | .requestDeletion userId _ | .cancelDeletion userId =>
    if s.isUserFree i userId then some (.ended (.ok ())) else none
  | .commitVerification .. | .commitTokens .. | .insertMembership _ => some (.ended (.ok ()))
  | .ended _ => none

/-- The rows of a transaction become visible. -/
def commit (s : System) (t : Request) : System :=
  { s with
    users := match t.userUpdate with
      | some (userId, f) => s.users.modify userId f
      | none => s.users
    tokens := t.updateTokens s.tokens
    memberships := t.updateMemberships s.memberships
    organizations := t.updateOrganizations s.organizations
    applied := t.applied ++ s.applied }

/-- The next query of request `i` is executed. A transaction starts with the first of its
queries. -/
def run (s : System) (i : Nat) : Option System := do
  let t ← s.requests[i]?
  let stage ← s.next i t
  some { s.commit t with requests := s.requests.set i { t with stage } }

/-- A query fails, or the connection. -/
def abort (s : System) (i : Nat) (message : String) : Option System := do
  let t ← s.requests[i]?
  match t.stage with
  | .ended _ => none
  | _ =>
    some { s with
      requests := s.requests.set i { t with stage := .ended (.error (.internal message)) } }

/-- `POST /register`: the rows of the user, the organization, the membership and the token. -/
def register (s : System) : System :=
  { s with
    users := s.users ++ [{}]
    organizations := s.organizations ++ [.active]
    memberships := s.memberships ++ [⟨s.organizations.length, s.users.length, .owner⟩]
    tokens := s.tokens ++ (Job.queueEmail s.users.length .verifyEmail).inserted s.now }

end System

/-- The first query of a request. An invitation is for any role but that of the owner. -/
def Stage.isFirst : Stage → Bool
  | .selectUser .. | .selectToken .. | .selectAccount .. | .selectPending .. | .requireAdmin ..
  | .selectDue _ => true
  | .selectInvitee membership => membership.role ≠ .owner
  | _ => false

inductive Event where
  | register
  | request (stage : Stage)
  | run (i : Nat)
  | abort (i : Nat) (message : String)
  /-- `PATCH /members/:userId`. -/
  | changeRole (organizationId : OrganizationId) (userId : UserId) (role : Role)
  /-- `DELETE /members/:userId`. -/
  | removeMember (organizationId : OrganizationId) (userId : UserId)
  | wait (seconds : Nat)

def System.step (s : System) : Event → Option System
  | .register => some s.register
  | .request stage =>
    if stage.isFirst then some { s with requests := s.requests ++ [⟨s.now, stage⟩] } else none
  | .run i => s.run i
  | .abort i message => s.abort i message
  | .changeRole organizationId userId role =>
    if role ≠ .owner then
      some { s with memberships := s.memberships.map fun m =>
        if m.organizationId = organizationId ∧ m.userId = userId ∧ m.role ≠ .owner then
          { m with role }
        else m }
    else none
  | .removeMember organizationId userId =>
    some { s with memberships := s.memberships.filter fun m =>
      ¬(m.organizationId = organizationId ∧ m.userId = userId ∧ m.role ≠ .owner) }
  | .wait seconds => some { s with now := s.now + seconds }

end Tonatiuh.Accounts
