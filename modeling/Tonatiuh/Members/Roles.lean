import Tonatiuh.Members.MemberLimit

/-! The routes of `organizations/router.ts` that change members and invitations, behind
`authenticate` and `requireRoles`.

The role of a request is the one that `authenticate` reads in a query of its own, whatever the
access token says. The handler runs later, when the member may have another role. Accepting an
invitation needs no role in the organization. A role that is none of `Role` is refused like that of
the owner. -/

namespace Tonatiuh.Members

open Billing (Plan)
open Commands (Failure notFound)
open Retention (Role UserId)

/-- `req.auth`, in the organization. -/
structure Auth where
  userId : UserId
  role : Role
  deriving DecidableEq, Repr

/-- The handlers with their parameters. -/
inductive Route where
  /-- `PATCH /members/:userId`. -/
  | changeRole (userId : UserId) (role : Role)
  /-- `DELETE /members/:userId`. -/
  | removeMember (userId : UserId)
  /-- `POST /invitations`. -/
  | invite (invite : Invite)
  /-- `DELETE /invitations/:id`. -/
  | revoke (email : String)
  deriving DecidableEq, Repr

/-- `requireRoles`. -/
def Route.roles : Route → List Role
  | .changeRole .. | .removeMember _ => [.owner]
  | .invite _ | .revoke _ => [.owner, .admin]

def invitationRoles : List Role := [.admin, .trader, .analyst, .billing, .viewer]

def forbidden : Failure := .http ⟨403, "FORBIDDEN", "Insufficient permissions.", .none⟩

def roleNotAssignable : Failure := .http ⟨400, "INVALID_ROLE", "Role cannot be assigned.", .none⟩

def memberNotEditable : Failure :=
  .http ⟨409, "MEMBER_NOT_EDITABLE", "Owner membership cannot be changed.", .none⟩

def memberNotRemovable : Failure :=
  .http ⟨409, "MEMBER_NOT_REMOVABLE", "Owner membership cannot be removed.", .none⟩

inductive Progress where
  | authenticated
  /-- `POST /invitations` is answered by its transaction. -/
  | transaction
  | answered (answer : Except Failure Unit)
  deriving DecidableEq

/-- A request that `authenticate` has let through. -/
structure Request where
  auth : Auth
  route : Route
  progress : Progress := .authenticated
  deriving DecidableEq

/-- The organization, which is active or not, with the requests of its members. -/
structure Workspace where
  system : System
  isActive : Bool := true
  requests : List Request := []

inductive WorkspaceEvent where
  | authenticate (userId : UserId) (route : Route)
  | handle (k : Nat)
  | accept (acceptance : Acceptance)
  | run (i : Nat)
  | abort (i : Nat) (message : String)
  /-- The retention worker deletes the memberships of an account. -/
  | deleteAccount (userId : UserId)
  /-- The status of an account changes, or that of the organization. -/
  | setActive (userId : UserId) (isActive : Bool)
  | setOrganization (isActive : Bool)
  | wait (microseconds : Nat)

namespace System

/-- `user_id=$2 AND role<>'OWNER'`. -/
def isEditable (s : System) (userId : UserId) : Bool :=
  s.members.any fun member => member.userId = userId && member.role ≠ .owner

def changeRole (s : System) (userId : UserId) (role : Role) : System :=
  { s with members := s.members.map fun member =>
    if member.userId = userId ∧ member.role ≠ .owner then { member with role } else member }

/-- `accepted_at IS NULL`. -/
def isRevocable (s : System) (email : String) : Bool :=
  s.invitations.any fun row => row.email = email && row.acceptedAt.isNone

end System

namespace Workspace

/-- The query of `authenticate`. A request for which it finds nothing is answered with an error. -/
def roleOf (w : Workspace) (userId : UserId) : Option Role :=
  if w.isActive ∧ w.system.isActive userId then
    (w.system.members.find? fun member => member.userId = userId).map (·.role)
  else none

/-- The answer of an `UPDATE` or `DELETE` that has found rows, or has not. -/
def answer (isFound : Bool) (failure : Failure) : Progress :=
  .answered (if isFound then .ok () else .error failure)

def handler (plan : Plan) (s : System) (auth : Auth) : Route → Option (System × Progress)
  | .changeRole userId role => some (
    if role ∈ invitationRoles then
      (s.changeRole userId role, answer (s.isEditable userId) memberNotEditable)
    else (s, .answered (.error roleNotAssignable)))
  | .removeMember userId =>
    (s.step plan (.removeMember userId)).map fun s' =>
      (s', answer (s.isEditable userId) memberNotRemovable)
  | .invite invite => (s.step plan (.invite auth.role invite)).map fun s' => (s', .transaction)
  | .revoke email =>
    (s.step plan (.revoke email)).map fun s' =>
      (s', answer (s.isRevocable email) (notFound "Invitation was not found."))

/-- The handler, behind `requireRoles`. -/
def respond (plan : Plan) (s : System) (r : Request) : Option (System × Progress) :=
  if r.auth.role ∈ r.route.roles then handler plan s r.auth r.route
  else some (s, .answered (.error forbidden))

def handle (plan : Plan) (w : Workspace) (k : Nat) : Option Workspace := do
  let r ← w.requests[k]?
  if r.progress = .authenticated then
    let (system, progress) ← respond plan w.system r
    some { w with system, requests := w.requests.set k { r with progress } }
  else none

/-- A step of the organization that no route of a member takes. -/
def lift (w : Workspace) (system : Option System) : Option Workspace :=
  system.map fun system => { w with system }

def step (plan : Plan) (w : Workspace) : WorkspaceEvent → Option Workspace
  | .authenticate userId route =>
    some { w with requests := w.requests ++
      ((w.roleOf userId).map fun role => { auth := ⟨userId, role⟩, route : Request }).toList }
  | .handle k => w.handle plan k
  | .accept acceptance => w.lift (w.system.step plan (.accept acceptance))
  | .run i => w.lift (w.system.step plan (.run i))
  | .abort i message => w.lift (w.system.step plan (.abort i message))
  | .deleteAccount userId => w.lift (w.system.step plan (.deleteAccount userId))
  | .setActive userId isActive => w.lift (w.system.step plan (.setActive userId isActive))
  | .setOrganization isActive => some { w with isActive }
  | .wait microseconds => w.lift (w.system.step plan (.wait microseconds))

/-- The organization as `POST /register` has made it. -/
structure IsRegistered (w : Workspace) (founder : UserId) : Prop where
  members : w.system.members = [⟨founder, .owner⟩]
  invitations : w.system.invitations = []
  transactions : w.system.transactions = []
  requests : w.requests = []

end Workspace

end Tonatiuh.Members
