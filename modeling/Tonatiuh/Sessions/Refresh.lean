import Tonatiuh.Commands.Routes
import Tonatiuh.Retention.Accounts

/-! Refresh tokens: `POST /refresh`, `POST /logout` and `saveRefresh` of `auth/router.ts`, and the
routes that revoke the tokens of a user, of a member or of an organization.

The transactions are interleaved statement by statement. An `UPDATE` finds its rows when it begins,
locks them one after another, and waits for those that another transaction has locked. A token is
known by its hash, which is unique, and named here by the number of its row; rows are numbered in
the order in which they are committed. A family is named by its first token. Of the transactions
that revoke tokens, only the `UPDATE` of `refresh_tokens` is modelled. -/

namespace Tonatiuh.Sessions

open Billing (Timestamp)
open Commands (Failure)
open Retention (UserId OrganizationId)
open Transition (isUnheld)

abbrev TokenId := Nat
abbrev FamilyId := Nat

/-- A row of `refresh_tokens`. -/
structure RefreshToken where
  userId : UserId
  organizationId : OrganizationId
  familyId : FamilyId
  expiresAt : Timestamp
  revokedAt : Option Timestamp := none
  replacedBy : Option TokenId := none
  deriving DecidableEq, Repr

/-- `revoked_at=COALESCE(revoked_at,now())`. -/
def RefreshToken.revoke (now : Timestamp) (row : RefreshToken) : RefreshToken :=
  { row with revokedAt := row.revokedAt.or (some now) }

/-- `revoked_at=now(), replaced_by=$2`. -/
def RefreshToken.replace (now : Timestamp) (nextId : TokenId) (row : RefreshToken) : RefreshToken :=
  { row with revokedAt := some now, replacedBy := some nextId }

/-- The `WHERE` clause of an `UPDATE` that revokes tokens. -/
inductive Scope where
  /-- `POST /refresh` with a revoked token. -/
  | family (id : FamilyId)
  /-- `POST /reset-password`, `DELETE /me`, and the suspension and the revocation of the sessions of
  a user by an administrator. -/
  | user (id : UserId)
  /-- `PATCH /members/:userId` and `DELETE /members/:userId`. -/
  | member (userId : UserId) (organizationId : OrganizationId)
  /-- The suspension of an organization. -/
  | organization (id : OrganizationId)
  deriving DecidableEq, Repr

namespace Scope

def covers (scope : Scope) (row : RefreshToken) : Bool :=
  match scope with
  | .family id => row.familyId = id
  | .user id => row.userId = id
  | .member userId organizationId => row.userId = userId && row.organizationId = organizationId
  | .organization id => row.organizationId = id

def isFamily : Scope → Bool
  | .family _ => true
  | _ => false

end Scope

def invalidRefreshToken (message : String) : Failure :=
  .http ⟨401, "INVALID_REFRESH_TOKEN", message, .none⟩

def refreshTokenReused : Failure :=
  .http ⟨401, "REFRESH_TOKEN_REUSED", "Refresh token reuse was detected.", .none⟩

/-! ## Transactions -/

/-- The statement that comes next. `held` are the rows that an `UPDATE` has locked, and `rest` those
that it has found besides. -/
inductive Stage where
  | select (tokenId : TokenId)
  | selectMembership (tokenId : TokenId) (stored : RefreshToken)
  | insert (tokenId : TokenId) (stored : RefreshToken)
  | replace (tokenId : TokenId) (stored : RefreshToken)
  | commitRotation (tokenId : TokenId) (stored : RefreshToken)
  | revoke (scope : Scope) (held : List TokenId)
  | lockRows (scope : Scope) (held rest : List TokenId)
  | commitRevocation (scope : Scope) (held : List TokenId)
  | ended (answer : Except Failure Unit)
  deriving DecidableEq

/-- The transaction of a request. `now` is its start. -/
structure Transaction where
  now : Timestamp
  stage : Stage
  deriving DecidableEq

namespace Transaction

/-- The rows that it has locked. -/
def locks (t : Transaction) : List TokenId :=
  match t.stage with
  | .selectMembership tokenId _ | .insert tokenId _ | .replace tokenId _
  | .commitRotation tokenId _ => [tokenId]
  | .revoke _ held | .lockRows _ held _ | .commitRevocation _ held => held
  | .select _ | .ended _ => []

end Transaction

/-- `isMember` says that the organization and the user are active and the user a member. `reused`
are the families that have been revoked after a token was used again. -/
structure System where
  tokens : List RefreshToken := []
  transactions : List Transaction := []
  isMember : UserId → OrganizationId → Bool := fun _ _ => false
  reused : List FamilyId := []
  now : Timestamp := 0

section
variable (refreshTokenTtlSeconds : Nat)

/-- `now()+make_interval(secs => ...)`. -/
def expiry (now : Timestamp) : Timestamp := now + refreshTokenTtlSeconds * 1000000

namespace System

/-- The rows that an `UPDATE` finds. -/
def covered (s : System) (scope : Scope) : List TokenId :=
  (List.range s.tokens.length).filter fun id => s.tokens[id]?.any scope.covers

/-- The next statement of transaction `i`, if it has not to wait. -/
def next (s : System) (i : Nat) (t : Transaction) : Option Stage :=
  match t.stage with
  | .select tokenId =>
    match s.tokens[tokenId]? with
    | none => some (.ended (.error (invalidRefreshToken "Refresh token is invalid.")))
    | some stored =>
      if isUnheld Transaction.locks s.transactions i tokenId then
        some (
          if stored.revokedAt.isSome then .revoke (.family stored.familyId) [tokenId]
          else if stored.expiresAt ≤ s.now then
            .ended (.error (invalidRefreshToken "Refresh token is expired."))
          else .selectMembership tokenId stored)
      else none
  | .selectMembership tokenId stored =>
    some (
      if s.isMember stored.userId stored.organizationId then .insert tokenId stored
      else .ended (.error (invalidRefreshToken "Account access is unavailable.")))
  | .insert tokenId stored => some (.replace tokenId stored)
  | .replace tokenId stored => some (.commitRotation tokenId stored)
  | .commitRotation .. => some (.ended (.ok ()))
  | .revoke scope held => some (.lockRows scope held (s.covered scope))
  | .lockRows scope held [] => some (.commitRevocation scope held)
  | .lockRows scope held (id :: rest) =>
    if isUnheld Transaction.locks s.transactions i id then
      some (.lockRows scope (id :: held) rest)
    else none
  | .commitRevocation scope _ =>
    some (.ended (if scope.isFamily then .error refreshTokenReused else .ok ()))
  | .ended _ => none

/-- The rows of a transaction become visible. -/
def commit (s : System) (t : Transaction) : System :=
  match t.stage with
  | .commitRotation tokenId stored =>
    { s with
      tokens := s.tokens.modify tokenId (·.replace t.now s.tokens.length) ++
        [{ userId := stored.userId
           organizationId := stored.organizationId
           familyId := stored.familyId
           expiresAt := expiry refreshTokenTtlSeconds t.now }] }
  | .commitRevocation scope held =>
    { s with
      tokens := s.tokens.mapIdx fun id row => if id ∈ held then row.revoke t.now else row
      reused := match scope with
        | .family id => id :: s.reused
        | _ => s.reused }
  | _ => s

/-- The next statement of transaction `i` is executed. -/
def run (s : System) (i : Nat) : Option System := do
  let t ← s.transactions[i]?
  let stage ← s.next i t
  some { s.commit refreshTokenTtlSeconds t with
    transactions := s.transactions.set i { t with stage } }

/-- A statement fails, or the connection. -/
def abort (s : System) (i : Nat) (message : String) : Option System := do
  let t ← s.transactions[i]?
  match t.stage with
  | .ended _ => none
  | _ =>
    some { s with
      transactions := s.transactions.set i { t with stage := .ended (.error (.internal message)) } }

/-- A transaction begins. -/
def begin_ (s : System) (stage : Stage) : System :=
  { s with transactions := s.transactions ++ [⟨s.now, stage⟩] }

end System

inductive Event where
  /-- `saveRefresh` of `POST /login` and `POST /switch`. -/
  | signIn (userId : UserId) (organizationId : OrganizationId)
  /-- `POST /refresh`. -/
  | refresh (tokenId : TokenId)
  /-- A route that revokes all tokens of a scope. -/
  | revoke (scope : Scope)
  /-- `POST /logout`. -/
  | logout (tokenId : TokenId)
  | run (i : Nat)
  | abort (i : Nat) (message : String)
  /-- An account, a membership or an organization changes. -/
  | setMember (userId : UserId) (organizationId : OrganizationId) (isMember : Bool)
  | wait (microseconds : Nat)

def System.step (s : System) : Event → Option System
  | .signIn userId organizationId =>
    some { s with tokens := s.tokens ++
      [{ userId
         organizationId
         familyId := s.tokens.length
         expiresAt := expiry refreshTokenTtlSeconds s.now }] }
  | .refresh tokenId => some (s.begin_ (.select tokenId))
  | .revoke scope => if scope.isFamily then none else some (s.begin_ (.revoke scope []))
  | .logout tokenId =>
    if s.transactions.all fun t => tokenId ∉ t.locks then
      some { s with tokens := s.tokens.modify tokenId (·.revoke s.now) }
    else none
  | .run i => s.run refreshTokenTtlSeconds i
  | .abort i message => s.abort i message
  | .setMember userId organizationId isMember =>
    some { s with isMember := fun u o =>
      if u = userId ∧ o = organizationId then isMember else s.isMember u o }
  | .wait microseconds => some { s with now := s.now + microseconds }

end

end Tonatiuh.Sessions
