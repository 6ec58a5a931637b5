import Tonatiuh.Commands.Routes
import Tonatiuh.Supervisor.System

/-! Accounts, their deletion, and the retention worker.

`DELETE /me` checks in queries of their own whether the account may be deleted and schedules the
deletion in a transaction after them. Thirty days later `anonymizeOne` of `retention/worker.ts`
deletes the rows of the workspaces that nobody else is a member of, in one transaction. It runs in a
process of its own, which knows the database only. Nothing is modelled of what it deletes besides
bots and their commands. -/

namespace Tonatiuh.Retention

open Commands (SaasHttpError)
open Supervisor (BotId System)

/-- Users are numbered in the order in which they register. -/
abbrev UserId := Nat

/-- Organizations are numbered in the order in which they are created. -/
abbrev OrganizationId := Nat

inductive UserStatus where
  | pending | active | suspended | deletionPending | deleted
  deriving DecidableEq, Repr

/-- A row of `users`. `isAdmin` is the platform role. Moments are in seconds. -/
structure User where
  status : UserStatus := .pending
  isAdmin : Bool := false
  scheduledDeletionAt : Option Nat := none
  deriving DecidableEq, Repr

inductive Role where
  | owner | admin | trader | analyst | billing | viewer
  deriving DecidableEq, Repr

/-- A row of `organization_memberships`. -/
structure Membership where
  organizationId : OrganizationId
  userId : UserId
  role : Role
  deriving DecidableEq, Repr

/-- The routes that check an account in one query and change it in another. -/
inductive AccountRoute where
  | deleteMe | cancelDeletion
  deriving DecidableEq, Repr

/-- The deployment with its accounts. `organizationOf` is the organization of a bot, which never
changes, and `checked` are the requests that have passed their checks. -/
structure Platform where
  supervisor : System := {}
  organizationOf : BotId → OrganizationId
  users : List User := []
  memberships : List Membership := []
  organizations : Nat := 0
  checked : List (AccountRoute × UserId) := []
  now : Nat := 0

namespace Platform

def updateUser (p : Platform) (userId : UserId) (f : User → User) : Platform :=
  { p with users := p.users.modify userId f }

/-- The users that are active. -/
def isActive (p : Platform) (userId : UserId) : Bool :=
  p.users[userId]?.any fun user => user.status = .active

/-! ## Deletion of an account -/

/-- `blocking`: the user owns an organization that has another member. -/
def isBlocked (p : Platform) (userId : UserId) : Bool :=
  p.memberships.any fun owner => owner.userId = userId && owner.role = .owner &&
    p.memberships.any fun other =>
      other.organizationId = owner.organizationId && other.userId ≠ owner.userId

/-- Is another platform administrator active? -/
def hasOtherAdmin (p : Platform) (userId : UserId) : Bool :=
  p.users.zipIdx.any fun (user, id) => id ≠ userId && user.isAdmin && user.status = .active

/-- The checks of `DELETE /me`. -/
def checkDeletion (p : Platform) (userId : UserId) (passwordMatches : Bool) :
    Except SaasHttpError Unit :=
  match p.users[userId]? with
  | none => .error ⟨401, "INVALID_CREDENTIALS", "Invalid password.", .none⟩
  | some user =>
    if ¬(user.status = .active ∧ passwordMatches) then
      .error ⟨401, "INVALID_CREDENTIALS", "Invalid password.", .none⟩
    else if user.isAdmin ∧ ¬p.hasOtherAdmin userId then
      .error ⟨409, "LAST_PLATFORM_ADMIN",
        "Assign another active platform administrator before deleting this account.", .none⟩
    else if p.isBlocked userId then
      .error ⟨409, "OWNERSHIP_TRANSFER_REQUIRED",
        "Transfer workspace ownership or remove other members before deleting the account.", .none⟩
    else .ok ()

/-- The check of `POST /cancel-deletion`. -/
def checkCancellation (p : Platform) (userId : UserId) (passwordMatches : Bool) :
    Except SaasHttpError Unit :=
  if passwordMatches ∧ p.users[userId]?.any (fun user => user.status = .deletionPending) then .ok ()
  else .error ⟨401, "INVALID_CREDENTIALS", "Invalid email or password.", .none⟩

def check (p : Platform) (passwordMatches : Bool) :
    AccountRoute → UserId → Except SaasHttpError Unit
  | .deleteMe, userId => p.checkDeletion userId passwordMatches
  | .cancelDeletion, userId => p.checkCancellation userId passwordMatches

/-- `interval '30 days'`. -/
def retention : Nat := 30 * 24 * 60 * 60

/-- The transaction of a route, whose statement names the user only. -/
def commit (p : Platform) : AccountRoute → UserId → Platform
  | .deleteMe, userId => p.updateUser userId fun user =>
    { user with status := .deletionPending, scheduledDeletionAt := some (p.now + retention) }
  | .cancelDeletion, userId => p.updateUser userId fun user =>
    { user with status := .active, scheduledDeletionAt := none }

end Platform

/-! ## The retention worker -/

/-- The rows of these bots and of their commands are deleted. -/
def removeBots (s : System) (isRemoved : BotId → Bool) : System :=
  { s with
    bots := s.bots.mapIdx fun botId row? => if isRemoved botId then none else row?
    commands := s.commands.map fun c =>
      if isRemoved c.botId then { c with isRemoved := true } else c }

namespace Platform

/-- The organizations that the user owns and nobody else is a member of. -/
def owned (p : Platform) (userId : UserId) : List OrganizationId :=
  (p.memberships.filter fun owner => owner.userId = userId && owner.role = .owner &&
    !p.memberships.any fun other =>
      other.organizationId = owner.organizationId && other.userId ≠ owner.userId).map
    (·.organizationId)

/-- The bots whose rows are deleted with the account. -/
def isOwned (p : Platform) (userId : UserId) (botId : BotId) : Bool :=
  (p.owned userId).contains (p.organizationOf botId)

/-- `anonymizeOne`, for one of the users whose deletion is due. Rows that are locked are skipped, so
that any of them may be next. -/
def anonymizeOne (p : Platform) (userId : UserId) : Option Platform :=
  if p.users[userId]?.any fun user =>
      user.status = .deletionPending && user.scheduledDeletionAt.any (· ≤ p.now) then
    some ({ p with
      supervisor := removeBots p.supervisor (p.isOwned userId)
      memberships := p.memberships.filter fun m => m.userId ≠ userId }.updateUser userId fun _ =>
        { status := .deleted })
  else none

end Platform

/-! ## Steps -/

inductive Event where
  /-- A step of the bots, their commands, the trading workers and their children. -/
  | supervisor (e : Supervisor.Event)
  /-- `POST /register`. -/
  | register
  /-- `POST /verify-email`. -/
  | verifyEmail (userId : UserId)
  /-- `POST /invitations/accept`. -/
  | acceptInvitation (organizationId : OrganizationId) (userId : UserId) (role : Role)
  /-- `PATCH /members/:userId`. -/
  | changeRole (organizationId : OrganizationId) (userId : UserId) (role : Role)
  /-- `DELETE /members/:userId`. -/
  | removeMember (organizationId : OrganizationId) (userId : UserId)
  /-- `PATCH /users/:id/status` of the platform administrators. -/
  | setSuspended (userId : UserId) (isSuspended : Bool)
  /-- The script that sets a platform role. -/
  | setAdmin (userId : UserId) (isAdmin : Bool)
  /-- A route has checked an account, and does not answer with an error. -/
  | check (route : AccountRoute) (userId : UserId) (passwordMatches : Bool)
  | commit (route : AccountRoute) (userId : UserId)
  | anonymizeOne (userId : UserId)
  | wait (seconds : Nat)

def Platform.step (bound : Nat) (p : Platform) : Event → Option Platform
  | .supervisor e => (p.supervisor.step bound e).map fun supervisor => { p with supervisor }
  | .register => some { p with
      users := p.users ++ [{}]
      memberships := p.memberships ++ [⟨p.organizations, p.users.length, .owner⟩]
      organizations := p.organizations + 1 }
  | .verifyEmail userId => some (p.updateUser userId fun user => { user with status := .active })
  | .acceptInvitation organizationId userId role =>
    if p.isActive userId ∧ role ≠ .owner then
      some (if p.memberships.any fun m => m.organizationId =
        organizationId && m.userId = userId then p
        else { p with memberships := p.memberships ++ [⟨organizationId, userId, role⟩] })
    else none
  | .changeRole organizationId userId role =>
    if role ≠ .owner then
      some { p with memberships := p.memberships.map fun m =>
        if m.organizationId = organizationId ∧ m.userId = userId ∧ m.role ≠ .owner then
          { m with role }
        else m }
    else none
  | .removeMember organizationId userId =>
    some { p with memberships := p.memberships.filter fun m =>
      ¬(m.organizationId = organizationId ∧ m.userId = userId ∧ m.role ≠ .owner) }
  | .setSuspended userId isSuspended => some (p.updateUser userId fun user =>
      if user.status = .active ∨ user.status = .suspended then
        { user with status := if isSuspended then .suspended else .active }
      else user)
  | .setAdmin userId isAdmin => some (p.updateUser userId fun user => { user with isAdmin })
  | .check route userId passwordMatches =>
    match p.check passwordMatches route userId with
    | .ok _ => some { p with checked := (route, userId) :: p.checked }
    | .error _ => none
  | .commit route userId =>
    if (route, userId) ∈ p.checked then
      some ({ p with checked := p.checked.erase (route, userId) }.commit route userId)
    else none
  | .anonymizeOne userId => p.anonymizeOne userId
  | .wait seconds => some { p with now := p.now + seconds }

end Tonatiuh.Retention
