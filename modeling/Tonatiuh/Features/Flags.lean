import Mathlib.Algebra.Group.Nat.Defs
import Mathlib.Logic.Function.Basic
import Tonatiuh.Tables.Upsert
import Tonatiuh.Transition.Locks

/-! Feature flags and their overrides.

These are `PATCH /feature-flags/:key`, and `PUT` and `DELETE` of an override, of `admin/router.ts`.
Any number of requests run, and each query is a step of its own. The `UPDATE` of a flag locks its
row until the end of the transaction: one that finds the version that it expects waits for the lock,
and one that finds another version goes on at once. What a transaction writes is seen by others when
it is committed. `updated_at` is left out. -/

namespace Tonatiuh.Features

open Tables Transition

abbrev OrganizationId := Nat

abbrev UserId := Nat

structure Flag where
  enabled : Bool
  rolloutPercentage : Nat
  version : Nat := 1
  updatedBy : Option UserId := none
  deriving DecidableEq, Repr

structure Override where
  organizationId : OrganizationId
  enabled : Bool
  updatedBy : UserId
  deriving DecidableEq, Repr

/-- A row of `feature_flags` with its rows of `feature_flag_overrides`. -/
structure FlagState where
  flag : Flag
  overrides : List Override := []
  deriving DecidableEq, Repr

inductive Change where
  | patch (enabled : Bool) (rolloutPercentage : Nat)
  | put (organizationId : OrganizationId) (enabled : Bool)
  | delete (organizationId : OrganizationId)
  deriving DecidableEq, Repr

structure Mutation where
  key : String
  change : Change
  expectedVersion : Nat
  userId : UserId
  changeReason : String
  deriving DecidableEq, Repr

inductive Failure where
  | versionConflict | flagNotFound | organizationNotFound | overrideNotFound | internal
  deriving DecidableEq, Repr

/-- The `SET` of the `UPDATE`. -/
def Mutation.updateFlag (m : Mutation) (flag : Flag) : Flag :=
  match m.change with
  | .patch enabled rolloutPercentage =>
    { enabled, rolloutPercentage, version := flag.version + 1, updatedBy := some m.userId }
  | .put _ _ | .delete _ => { flag with version := flag.version + 1, updatedBy := some m.userId }

/-- The second write of a transaction. -/
inductive OverrideWrite where
  | upsert (row : Override)
  | delete (organizationId : OrganizationId)
  deriving DecidableEq, Repr

def OverrideWrite.apply : OverrideWrite → List Override → List Override
  | .upsert row, overrides => Tables.upsert Override.organizationId row overrides
  | .delete organizationId, overrides =>
    overrides.filter fun row => row.organizationId ≠ organizationId

/-! ## Requests -/

/-- The query that a request sends next. `flag` is the row that its transaction has written. -/
inductive Stage where
  | update
  /-- `PATCH` has updated nothing, and looks whether there is a flag. -/
  | selectFlag
  | selectOrganization (flag : Flag)
  | writeOverride (flag : Flag)
  | commit (flag : Flag) (write : Option OverrideWrite)
  | audit
  /-- The version is that of the answer. -/
  | ended (result : Except Failure Nat)
  /-- The transaction is committed, but the request fails. -/
  | unaudited
  deriving DecidableEq

structure Request where
  mutation : Mutation
  stage : Stage := .update
  deriving DecidableEq

/-- The row of the flag is locked. -/
def Request.lock (r : Request) : Option String :=
  match r.stage with
  | .selectOrganization _ | .writeOverride _ | .commit _ _ => some r.mutation.key
  | _ => none

def Request.isCommitted (r : Request) : Bool :=
  match r.stage with
  | .audit | .ended (.ok _) | .unaudited => true
  | _ => false

/-- `log` are the requests whose transactions are committed, with what they were to do, in the order
of the commits. -/
structure System where
  organizations : List OrganizationId
  flags : String → Option FlagState
  requests : List Request := []
  auditEvents : List Mutation := []
  log : List (Nat × Mutation) := []

/-- The largest `integer`. -/
def maxInteger : Nat := 2 ^ 31 - 1

namespace System

def setStage (s : System) (i : Nat) (r : Request) (stage : Stage) : System :=
  { s with requests := s.requests.set i { r with stage } }

/-- The `UPDATE`, with the version in its condition. -/
def update (s : System) (i : Nat) (r : Request) : Option System :=
  let m := r.mutation
  match (s.flags m.key).filter fun state => state.flag.version = m.expectedVersion with
  | none =>
    some (s.setStage i r (match m.change with
      | .patch _ _ => .selectFlag
      | .put _ _ | .delete _ => .ended (.error .versionConflict)))
  | some state =>
    if isFree Request.lock s.requests i m.key then
      if state.flag.version < maxInteger then
        let flag := m.updateFlag state.flag
        some (s.setStage i r (match m.change with
          | .patch _ _ => .commit flag none
          | .put _ _ => .selectOrganization flag
          | .delete _ => .writeOverride flag))
      else some (s.setStage i r (.ended (.error .internal)))
    else none

def selectFlag (s : System) (i : Nat) (r : Request) : System :=
  s.setStage i r (.ended (.error
    (if (s.flags r.mutation.key).isSome then .versionConflict else .flagNotFound)))

/-- The other queries of `PUT` and `DELETE` in the transaction. -/
def selectOrganization (s : System) (i : Nat) (r : Request) (flag : Flag) : Option System :=
  match r.mutation.change with
  | .put organizationId _ =>
    some (s.setStage i r (if organizationId ∈ s.organizations then .writeOverride flag
      else .ended (.error .organizationNotFound)))
  | .patch _ _ | .delete _ => none

def writeOverride (s : System) (i : Nat) (r : Request) (flag : Flag) : Option System :=
  match r.mutation.change with
  | .put organizationId enabled =>
    some (s.setStage i r (.commit flag
      (some (.upsert { organizationId, enabled, updatedBy := r.mutation.userId }))))
  | .delete organizationId =>
    some (s.setStage i r (
      if (s.flags r.mutation.key).any fun state =>
          state.overrides.any fun row => row.organizationId = organizationId then
        .commit flag (some (.delete organizationId))
      else .ended (.error .overrideNotFound)))
  | .patch _ _ => none

/-- `COMMIT`: what the transaction has written replaces or joins the rows that are there. -/
def commit (s : System) (i : Nat) (r : Request) (flag : Flag)
    (write : Option OverrideWrite) : System :=
  { s.setStage i r .audit with
    flags := Function.update s.flags r.mutation.key ((s.flags r.mutation.key).map fun state =>
      { flag, overrides := write.elim state.overrides (·.apply state.overrides) })
    log := s.log ++ [(i, r.mutation)] }

def audit (s : System) (i : Nat) (r : Request) : System :=
  { s.setStage i r (.ended (.ok (r.mutation.expectedVersion + 1))) with
    auditEvents := s.auditEvents ++ [r.mutation] }

/-- The next query of request `i`. -/
def run (s : System) (i : Nat) : Option System := do
  let r ← s.requests[i]?
  match r.stage with
  | .update => s.update i r
  | .selectFlag => s.selectFlag i r
  | .selectOrganization flag => s.selectOrganization i r flag
  | .writeOverride flag => s.writeOverride i r flag
  | .commit flag write => s.commit i r flag write
  | .audit => s.audit i r
  | .ended _ | .unaudited => none

/-- A query fails, or the process stops, and the transaction is rolled back. -/
def fail (s : System) (i : Nat) : Option System := do
  let r ← s.requests[i]?
  match r.stage with
  | .update | .selectFlag | .selectOrganization _ | .writeOverride _ | .commit _ _ =>
    s.setStage i r (.ended (.error .internal))
  | .audit => s.setStage i r .unaudited
  | .ended _ | .unaudited => none

end System

inductive Event where
  | send (m : Mutation)
  | run (i : Nat)
  | fail (i : Nat)
  deriving DecidableEq

def System.step (s : System) : Event → Option System
  | .send mutation => some { s with requests := s.requests ++ [{ mutation }] }
  | .run i => s.run i
  | .fail i => s.fail i

end Tonatiuh.Features
