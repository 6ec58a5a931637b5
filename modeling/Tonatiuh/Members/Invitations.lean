import Tonatiuh.Quota.Creations
import Tonatiuh.Retention.Accounts
import Tonatiuh.Tables.Upsert

/-! Invitations of `organizations/router.ts`, and `enforceMemberQuota` of `entitlements/service.ts`.

The rows are those of one organization, whose plan does not change. `POST /invitations` and `POST
/invitations/accept` are transactions that are interleaved statement by statement. A statement waits
for the rows that another transaction has locked or written. `DELETE /invitations/:id` and the
removal of members have one statement each that matters here. Addresses are in lower case, as
`emailValue` leaves them. -/

namespace Tonatiuh.Members

open Billing (Timestamp Plan hours)
open Commands (Failure exceeded)
open Quota (planCatalog)
open Retention (UserId Role)
open Tables (upsert)
open Transition (isFree)

/-! ## Rows -/

/-- A row of `organization_memberships`. -/
structure Member where
  userId : UserId
  role : Role
  deriving DecidableEq, Repr

/-- A row of `organization_invitations`. -/
structure Invitation where
  email : String
  role : Role
  tokenHash : Nat
  expiresAt : Timestamp
  acceptedAt : Option Timestamp := none
  revokedAt : Option Timestamp := none
  deriving DecidableEq, Repr

/-- `accepted_at IS NULL AND revoked_at IS NULL AND expires_at>now()`. -/
def Invitation.isActive (now : Timestamp) (row : Invitation) : Bool :=
  row.acceptedAt.isNone && row.revokedAt.isNone && now < row.expiresAt

/-! ## Requests -/

/-- What `POST /invitations` writes. -/
structure Invite where
  role : Role
  email : String
  tokenHash : Nat
  deriving DecidableEq, Repr

/-- `interval '7 days'`. -/
def lifetime : Int := hours (7 * 24)

def Invite.row (invite : Invite) (now : Timestamp) : Invitation where
  email := invite.email
  role := invite.role
  tokenHash := invite.tokenHash
  expiresAt := now + lifetime

/-- What `POST /invitations/accept` is sent. -/
structure Acceptance where
  userId : UserId
  tokenHash : Nat
  deriving DecidableEq, Repr

def invalidRole : Failure := .http ⟨403, "INVALID_ROLE", "Role cannot be invited.", .none⟩

def alreadyMember : Failure := .http ⟨409, "ALREADY_MEMBER", "User is already a member.", .none⟩

def invalidInvitation : Failure :=
  .http ⟨400, "INVALID_INVITATION", "Invitation is invalid or expired.", .none⟩

/-- The statement that comes next. `isChecked` says that the quota has been enforced, `isActive`
that the user who accepts is active, and `member` is the row that has been inserted. -/
inductive Stage where
  | selectMember (invite : Invite)
  | selectExisting (invite : Invite)
  | lock (invite : Invite)
  | selectPlan (invite : Invite)
  | count (invite : Invite)
  | upsert (invite : Invite) (isChecked : Bool)
  | commitInvite (invite : Invite) (isChecked : Bool)
  | selectUser (acceptance : Acceptance)
  | selectInvitation (acceptance : Acceptance) (isActive : Bool)
  | insertMember (acceptance : Acceptance) (invitation : Invitation)
  | updateInvitation (invitation : Invitation) (member : Option Member)
  | commitAcceptance (invitation : Invitation) (member : Option Member)
  | ended (answer : Except Failure Unit)
  deriving DecidableEq

/-- The transaction of a request. `now` is its start. -/
structure Transaction where
  now : Timestamp
  stage : Stage
  deriving DecidableEq

namespace Transaction

/-- The address whose row it has locked. -/
def lockedEmail (t : Transaction) : Option String :=
  match t.stage with
  | .commitInvite invite _ => some invite.email
  | .insertMember _ invitation | .updateInvitation invitation _ | .commitAcceptance invitation _ =>
    some invitation.email
  | _ => none

/-- Has it taken the advisory lock of the members? -/
def lockedMembers (t : Transaction) : Option Unit :=
  match t.stage with
  | .selectPlan _ | .count _ | .upsert _ true | .commitInvite _ true => some ()
  | _ => none

/-- The user of the membership that it has inserted. -/
def insertedUser (t : Transaction) : Option UserId :=
  match t.stage with
  | .updateInvitation _ member | .commitAcceptance _ member => member.map (·.userId)
  | _ => none

end Transaction

/-! ## Steps -/

/-- The organization with the accounts of the deployment. -/
structure System where
  emailOf : UserId → String
  isActive : UserId → Bool
  members : List Member := []
  invitations : List Invitation := []
  transactions : List Transaction := []
  now : Timestamp := 0

namespace System

/-- The number of members and of active invitations at a moment. -/
def count (s : System) (now : Timestamp) : Nat :=
  s.members.length + s.invitations.countP (Invitation.isActive now)

/-- The invitation of a token that `POST /invitations/accept` finds. -/
def find (s : System) (tokenHash : Nat) (now : Timestamp) : Option Invitation :=
  s.invitations.find? fun row => row.tokenHash = tokenHash && row.isActive now

/-- The next statement of transaction `i`, if it has not to wait. `activePlan` answers `plan`. -/
def next (plan : Plan) (s : System) (i : Nat) (t : Transaction) : Option Stage :=
  match t.stage with
  | .selectMember invite =>
    some (
      if s.members.any fun member => s.emailOf member.userId = invite.email then
        .ended (.error alreadyMember)
      else .selectExisting invite)
  | .selectExisting invite =>
    some (
      if s.invitations.any fun row => row.email = invite.email && row.isActive t.now then
        .upsert invite false
      else .lock invite)
  | .lock invite =>
    if isFree Transaction.lockedMembers s.transactions i () then some (.selectPlan invite) else none
  | .selectPlan invite => some (.count invite)
  | .count invite =>
    let limit := (planCatalog plan).maxMembers
    let current := s.count t.now
    some (
      if limit ≤ current then .ended (.error (exceeded "members" plan limit current))
      else .upsert invite true)
  | .upsert invite isChecked =>
    if isFree Transaction.lockedEmail s.transactions i invite.email then
      some (.commitInvite invite isChecked)
    else none
  | .selectUser acceptance =>
    some (.selectInvitation acceptance (s.isActive acceptance.userId))
  | .selectInvitation acceptance isActive =>
    match s.find acceptance.tokenHash t.now with
    | none => some (.ended (.error invalidInvitation))
    | some invitation =>
      if isFree Transaction.lockedEmail s.transactions i invitation.email then
        some (
          if isActive && s.emailOf acceptance.userId = invitation.email then
            .insertMember acceptance invitation
          else .ended (.error invalidInvitation))
      else none
  | .insertMember acceptance invitation =>
    if isFree Transaction.insertedUser s.transactions i acceptance.userId then
      some (.updateInvitation invitation (
        if s.members.any (·.userId = acceptance.userId) then none
        else some ⟨acceptance.userId, invitation.role⟩))
    else none
  | .updateInvitation invitation member => some (.commitAcceptance invitation member)
  | .commitInvite .. | .commitAcceptance .. => some (.ended (.ok ()))
  | .ended _ => none

/-- The rows of a transaction become visible. -/
def commit (s : System) (t : Transaction) : System :=
  match t.stage with
  | .commitInvite invite _ =>
    { s with invitations := upsert Invitation.email (invite.row t.now) s.invitations }
  | .commitAcceptance invitation member =>
    { s with
      members := s.members ++ member.toList
      invitations := s.invitations.map fun row =>
        if row.email = invitation.email then { row with acceptedAt := some t.now } else row }
  | _ => s

/-- The next statement of transaction `i` is executed. -/
def run (plan : Plan) (s : System) (i : Nat) : Option System := do
  let t ← s.transactions[i]?
  let stage ← s.next plan i t
  some { s.commit t with transactions := s.transactions.set i { t with stage } }

/-- A statement fails, or the connection. -/
def abort (s : System) (i : Nat) (message : String) : Option System := do
  let t ← s.transactions[i]?
  match t.stage with
  | .ended _ => none
  | _ =>
    some { s with
      transactions := s.transactions.set i { t with stage := .ended (.error (.internal message)) } }

/-- A transaction begins. -/
def begin_ (s : System) (stage : Stage) : System :=
  { s with transactions := s.transactions ++ [⟨s.now, stage⟩] }

end System

inductive Event where
  /-- `POST /invitations`. -/
  | invite (actor : Role) (invite : Invite)
  /-- `POST /invitations/accept`. -/
  | accept (acceptance : Acceptance)
  | run (i : Nat)
  | abort (i : Nat) (message : String)
  /-- `DELETE /invitations/:id`. -/
  | revoke (email : String)
  /-- `DELETE /members/:userId`. -/
  | removeMember (userId : UserId)
  /-- The retention worker deletes the memberships of an account. -/
  | deleteAccount (userId : UserId)
  /-- The status of an account changes. -/
  | setActive (userId : UserId) (isActive : Bool)
  /-- Time passes, and invitations expire. -/
  | wait (microseconds : Nat)

def System.step (plan : Plan) (s : System) : Event → Option System
  | .invite actor invite =>
    some (s.begin_ (
      if invite.role = .owner ∨ (actor = .admin ∧ invite.role = .admin) then
        .ended (.error invalidRole)
      else .selectMember invite))
  | .accept acceptance => some (s.begin_ (.selectUser acceptance))
  | .run i => s.run plan i
  | .abort i message => s.abort i message
  | .revoke email =>
    if s.transactions.all fun t => t.lockedEmail ≠ some email then
      some { s with invitations := s.invitations.map fun row =>
        if row.email = email ∧ row.acceptedAt = none then { row with revokedAt := some s.now }
        else row }
    else none
  | .removeMember userId =>
    some { s with members := s.members.filter fun member =>
      ¬(member.userId = userId ∧ member.role ≠ .owner) }
  | .deleteAccount userId =>
    some { s with members := s.members.filter fun member => member.userId ≠ userId }
  | .setActive userId isActive =>
    some { s with isActive := Function.update s.isActive userId isActive }
  | .wait microseconds => some { s with now := s.now + microseconds }

end Tonatiuh.Members
