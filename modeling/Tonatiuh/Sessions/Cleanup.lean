import Tonatiuh.Sessions.Families

/-! The `DELETE FROM refresh_tokens` of `cleanup` in `retention/worker.ts`, and the sessions beside
it.

The rows that it has removed keep their numbers, but no statement finds them. A client knows a token
when its row is committed. Here `POST /logout` is an `UPDATE` that finds its row when it begins, and
may have to wait for it. -/

namespace Tonatiuh.Sessions

open Billing (Timestamp)
open Commands (Failure)

/-- `interval '30 days'`. -/
def retentionInterval : Nat := 30 * 24 * 60 * 60 * 1000000

/-- `expires_at<now()-interval '30 days' OR revoked_at<now()-interval '30 days'`. -/
def RefreshToken.isStale (now : Timestamp) (row : RefreshToken) : Bool :=
  row.expiresAt + retentionInterval < now || row.revokedAt.any (· + retentionInterval < now)

/-- The sessions, and the tokens that have been removed. -/
structure Retained where
  system : System := {}
  removed : List TokenId := []

inductive RetainedEvent where
  | session (e : Event)
  /-- `POST /logout`. -/
  | logout (tokenId : TokenId)
  /-- The `DELETE`, in a transaction that began at `now`. -/
  | cleanup (now : Timestamp)

namespace Retained

/-- The next statement of transaction `i`. It finds only the rows that are there. -/
def next (r : Retained) (i : Nat) (t : Transaction) : Option Stage :=
  match t.stage with
  | .select tokenId =>
    if tokenId ∈ r.removed then
      some (.ended (.error (invalidRefreshToken "Refresh token is invalid.")))
    else r.system.next i t
  | .revoke scope held =>
    some (.lockRows scope held ((r.system.covered scope).filter (· ∉ r.removed)))
  | .lockRows scope held (tokenId :: rest) =>
    if tokenId ∈ r.removed then some (.lockRows scope held rest) else r.system.next i t
  | _ => r.system.next i t

def run (ttl : Nat) (r : Retained) (i : Nat) : Option Retained := do
  let t ← r.system.transactions[i]?
  let stage ← r.next i t
  some { r with system := { r.system.commit ttl t with
    transactions := r.system.transactions.set i { t with stage } } }

/-- The row meets the condition of the `DELETE`. -/
def deletes (r : Retained) (now : Timestamp) (id : TokenId) : Bool :=
  id ∉ r.removed && r.system.tokens[id]?.any (·.isStale now)

def deleted (r : Retained) (now : Timestamp) : List TokenId :=
  (List.range r.system.tokens.length).filter (r.deletes now ·)

/-- A row that stays refers to the token. -/
def isReferenced (r : Retained) (now : Timestamp) (id : TokenId) : Bool :=
  (List.range r.system.tokens.length).any fun j =>
    j ∉ r.removed && !r.deletes now j && r.system.tokens[j]?.any (·.replacedBy = some id)

def foreignKeyViolation : Failure :=
  .internal
    "update or delete on table \"refresh_tokens\" violates foreign key constraint \"refresh_tokens_replaced_by_fkey\" on table \"refresh_tokens\""

/-- The `DELETE`. The foreign key of `replaced_by` is checked when the rows are removed. -/
def cleanup (r : Retained) (now : Timestamp) : Except Failure Retained :=
  if (r.deleted now).any (r.isReferenced now ·) then .error foreignKeyViolation
  else .ok { r with removed := r.deleted now ++ r.removed }

/-- A `DELETE` waits for the rows that another transaction has locked. When it fails nothing is
removed. -/
def step (ttl : Nat) (r : Retained) : RetainedEvent → Option Retained
  | .session (.run i) => r.run ttl i
  | .session (.refresh tokenId) =>
    if tokenId < r.system.tokens.length then
      some { r with system := r.system.begin_ (.select tokenId) }
    else
      none
  | .session (.logout _) => none
  | .session e => (r.system.step ttl e).map fun system => { r with system }
  | .logout tokenId => do
    let stored ← r.system.tokens[tokenId]?
    let found := if tokenId ∈ r.removed then [] else [tokenId]
    -- of the scope, only that it is no family matters once the rows are found
    some { r with system := r.system.begin_ (.lockRows (.user stored.userId) [] found) }
  | .cleanup now =>
    if now ≤ r.system.now ∧ ∀ id ∈ r.deleted now, ∀ t ∈ r.system.transactions, id ∉ t.locks then
      some ((r.cleanup now).toOption.getD r)
    else none

/-- The `DELETE` removes no token to which one that it keeps refers. -/
def Intact (r : Retained) (now : Timestamp) : Prop :=
  ∀ id row nextId, id ∉ r.removed → r.system.tokens[id]? = some row → row.replacedBy = some nextId →
    r.deletes now nextId → r.deletes now id

end Retained

end Tonatiuh.Sessions
