import Mathlib.Algebra.Group.Nat.Defs
import Mathlib.Data.List.Pairwise
import Tonatiuh.Tables.Map

/-! `databaseRateLimit` of `saas/http/rate-limit.ts`, and the cleanup of its table in
`saas/retention/worker.ts`.

Times are microseconds since the epoch. The bucket of a request is named by the second in which it
starts. It is computed from two readings of one clock: `date_trunc` cuts off the fraction of the
second, and the cast of the epoch to `int` rounds it, so that a bucket need not be an aligned
window. -/

namespace Tonatiuh.Http

open Tables

/-- What the handler reads of a request, and `now()` of the statement. `email` is that of the body,
when it is a string. -/
structure IdentifiedRequest where
  ip : Option String
  email : Option String
  now : Nat
  deriving DecidableEq, Repr

/-- The primary key of `request_rate_limits`. -/
@[ext] structure BucketKey where
  keyHash : String
  bucketStart : Int
  deriving DecidableEq, Repr

structure BucketRow where
  requestCount : Nat
  expiresAt : Nat
  deriving DecidableEq, Repr

abbrev RequestRateLimits := List (BucketKey × BucketRow)

/-- How a request was answered: the bucket that the statement addresses and the count that it
returns. One that fails returns none. -/
structure CountedReply where
  bucket : Option Int
  requestCount : Option Nat
  deriving DecidableEq, Repr

/-- `n` is a value of the type `integer`. -/
def isInteger (n : Nat) : Bool := n < 2 ^ 31

/-- `extract(epoch from now())`, rounded. -/
def roundSecond (now : Nat) : Nat :=
  if now % 1000000 < 500000 then now / 1000000 else now / 1000000 + 1

/-- `extract(epoch from now())::int`. -/
def epochInt (now : Nat) : Option Nat :=
  if isInteger (roundSecond now) then some (roundSecond now) else none

/-- `date_trunc('second',now())-((extract(epoch from now())::int%$2)*interval '1 second')`, where
`$2*2` is computed as well. -/
def bucketStart (windowSeconds now : Nat) : Option Int :=
  match epochInt now with
  | none => none
  | some epoch =>
    if windowSeconds = 0 ∨ ¬ isInteger (windowSeconds * 2) then none
    else some ((now / 1000000 : Nat) - (epoch % windowSeconds : Nat))

/-- The arguments of `databaseRateLimit`, with the functions of the platform that it uses. -/
structure DatabaseRateLimiter where
  sha256 : String → String
  toLowerCase : String → String
  scope : String
  limit : Int
  windowSeconds : Nat

namespace DatabaseRateLimiter

def identity (limiter : DatabaseRateLimiter) (req : IdentifiedRequest) : String :=
  req.ip.getD "undefined" ++ ":" ++ (req.email.map limiter.toLowerCase).getD ""

def keyHash (limiter : DatabaseRateLimiter) (identity : String) : String :=
  limiter.sha256 (limiter.scope ++ ":" ++ identity)

/-- `INSERT ... ON CONFLICT DO UPDATE` on the row of a bucket. -/
def count (limiter : DatabaseRateLimiter) (now : Nat) : Option BucketRow → Option BucketRow
  | none => some { requestCount := 1, expiresAt := now + limiter.windowSeconds * 2 * 1000000 }
  | some row =>
    if isInteger (row.requestCount + 1) then some { row with requestCount := row.requestCount + 1 }
    else none

def handle (limiter : DatabaseRateLimiter) (rows : RequestRateLimits) (req : IdentifiedRequest) :
    CountedReply × RequestRateLimits :=
  match bucketStart limiter.windowSeconds req.now with
  | none => ({ bucket := none, requestCount := none }, rows)
  | some bucket =>
    let key := { keyHash := limiter.keyHash (limiter.identity req), bucketStart := bucket }
    match limiter.count req.now (rows.lookup key) with
    | none => ({ bucket := some bucket, requestCount := none }, rows)
    | some row =>
      ({ bucket := some bucket, requestCount := some row.requestCount },
        upsert Prod.fst (key, row) rows)

/-- A request that is counted beyond the limit, or whose statement fails, gets an error. -/
def admits (limiter : DatabaseRateLimiter) (reply : CountedReply) : Bool :=
  match reply.requestCount with
  | some requestCount => ¬ limiter.limit < requestCount
  | none => false

end DatabaseRateLimiter

/-- `DELETE FROM request_rate_limits WHERE expires_at<now()`. -/
def deleteExpired (now : Nat) (rows : RequestRateLimits) : RequestRateLimits :=
  rows.filter fun (_, row) => ¬ row.expiresAt < now

inductive LimitEvent
  | request (req : IdentifiedRequest)
  | cleanup (now : Nat)
  deriving DecidableEq, Repr

/-- The answers to the requests, in their order. -/
def DatabaseRateLimiter.replies (limiter : DatabaseRateLimiter) :
    RequestRateLimits → List LimitEvent → List (IdentifiedRequest × CountedReply)
  | _, [] => []
  | rows, .request req :: events =>
    let (reply, rows) := limiter.handle rows req
    (req, reply) :: replies limiter rows events
  | rows, .cleanup now :: events => replies limiter (deleteExpired now rows) events

def databaseRateLimit (limiter : DatabaseRateLimiter) (events : List LimitEvent) :
    List (IdentifiedRequest × CountedReply) :=
  limiter.replies [] events

/-! ## Windows and buckets -/

/-- `now` is in the aligned window `[k * windowSeconds, (k + 1) * windowSeconds)`. -/
def inWindow (windowSeconds k now : Nat) : Bool :=
  k * windowSeconds * 1000000 ≤ now ∧ now < (k + 1) * windowSeconds * 1000000

/-- The parts of a window on which the two readings of the clock agree or disagree: the first halves
of its seconds, the second halves, and the second half of its last second. -/
inductive Phase
  | truncated
  | rounded
  | next
  deriving DecidableEq, Repr

def phase (windowSeconds now : Nat) : Phase :=
  if now % 1000000 < 500000 then .truncated
  else if (now / 1000000 + 1) % windowSeconds = 0 then .next
  else .rounded

/-- The numbers of the statement fit their type. -/
def isCountable (windowSeconds now : Nat) : Bool :=
  isInteger (roundSecond now) ∧ isInteger (windowSeconds * 2)

/-- The bucket of a phase of a window. -/
def Phase.bucket (windowSeconds k : Nat) : Phase → Int
  | .truncated => k * windowSeconds
  | .rounded => k * windowSeconds - 1
  | .next => (k + 1) * windowSeconds - 1

section
variable {windowSeconds k now now' : Nat} {bucket : Int}

theorem bucketStart_some (h : bucketStart windowSeconds now = some bucket) :
    ∃ back < windowSeconds, bucket = ((now / 1000000 : Nat) : Int) - (back : Nat) := by
  unfold bucketStart at h
  split at h
  next => cases h
  next epoch _ =>
    split at h
    next => cases h
    next hw =>
      have hpos : 0 < windowSeconds := Nat.pos_of_ne_zero fun hzero => hw (.inl hzero)
      exact ⟨epoch % windowSeconds, Nat.mod_lt epoch hpos, (Option.some.inj h).symm⟩

/-- The requests of a bucket are less than a window apart. -/
theorem lt_of_same_bucket (h : bucketStart windowSeconds now = some bucket)
    (h' : bucketStart windowSeconds now' = some bucket) : now' < now + windowSeconds * 1000000 := by
  obtain ⟨back, hback, heq⟩ := bucketStart_some h
  obtain ⟨back', hback', heq'⟩ := bucketStart_some h'
  omega

theorem bucketStart_of_pos (hw : 0 < windowSeconds) (h : isCountable windowSeconds now = true) :
    bucketStart windowSeconds now =
      some (((now / 1000000 : Nat) : Int) - (roundSecond now % windowSeconds : Nat)) := by
  obtain ⟨hnow, hdouble⟩ := of_decide_eq_true h
  have hfits : ¬(windowSeconds = 0 ∨ ¬ isInteger (windowSeconds * 2)) :=
    not_or.mpr ⟨Nat.ne_of_gt hw, not_not.mpr hdouble⟩
  rw [bucketStart, epochInt, if_pos hnow]
  exact if_neg hfits

/-- In a window, the phase decides the bucket. -/
theorem bucketStart_eq (hk : inWindow windowSeconds k now = true)
    (hcount : isCountable windowSeconds now = true) :
    bucketStart windowSeconds now = some ((phase windowSeconds now).bucket windowSeconds k) := by
  obtain ⟨hlow, hhigh⟩ := of_decide_eq_true hk
  rw [Nat.add_mul, Nat.one_mul] at hhigh
  -- the second of the window
  obtain ⟨j, hj⟩ : ∃ j, now / 1000000 = k * windowSeconds + j := Nat.exists_eq_add_of_le (by omega)
  have hlast : j < windowSeconds := by omega
  have hmod : ∀ i, (k * windowSeconds + i) % windowSeconds = i % windowSeconds := fun i => by
    rw [Nat.add_comm, Nat.add_mul_mod_self_right]
  rw [bucketStart_of_pos (by omega) hcount]
  refine congrArg some ?_
  unfold phase roundSecond
  split
  next =>
    rw [hj, hmod, Nat.mod_eq_of_lt hlast]
    simp only [Phase.bucket]
    push_cast
    omega
  next =>
    rw [hj, Nat.add_assoc, hmod]
    by_cases hend : j + 1 = windowSeconds
    · rw [hend, Nat.mod_self, if_pos rfl]
      simp only [Phase.bucket, Int.add_mul, Int.one_mul]
      push_cast
      omega
    · rw [Nat.mod_eq_of_lt (by omega), if_neg (Nat.succ_ne_zero j)]
      simp only [Phase.bucket]
      push_cast
      omega

theorem isCountable_of_bucketStart (h : bucketStart windowSeconds now = some bucket) :
    isCountable windowSeconds now = true := by
  unfold bucketStart epochInt at h
  split at h
  next => cases h
  next epoch hepoch =>
    split at h
    next => cases h
    next hw =>
      split at hepoch
      next hnow => exact decide_eq_true ⟨hnow, not_not.mp fun hdouble => hw (.inr hdouble)⟩
      next => cases hepoch

/-- The phases of a window of several seconds have different buckets. -/
theorem Phase.bucket_injective (h : 2 ≤ windowSeconds) {p p' : Phase}
    (heq : p.bucket windowSeconds k = p'.bucket windowSeconds k) : p = p' := by
  have hnext : ((k : Int) + 1) * windowSeconds = k * windowSeconds + windowSeconds := by
    rw [Int.add_mul, Int.one_mul]
  cases p <;> cases p' <;> simp only [Phase.bucket] at heq <;> first | rfl | (exfalso; omega)

/-- And those of one second have one. -/
theorem bucket_phase_one : (phase 1 now).bucket 1 k = k := by
  unfold phase
  split
  next => exact Int.mul_one k
  next =>
    rw [if_pos (Nat.mod_one _)]
    simp only [Phase.bucket]
    omega

end

/-! ## Counting in a bucket -/

namespace LimitEvent

def request? : LimitEvent → Option IdentifiedRequest
  | .request req => some req
  | .cleanup _ => none

/-- A cleanup does not run ahead of a later request by more than a window. -/
def Before (windowSeconds : Nat) : LimitEvent → LimitEvent → Prop
  | .cleanup now, .request req => now ≤ req.now + windowSeconds * 1000000
  | _, _ => True

instance (windowSeconds : Nat) : DecidableRel (Before windowSeconds)
  | .cleanup now, .request req =>
    inferInstanceAs (Decidable (now ≤ req.now + windowSeconds * 1000000))
  | .cleanup _, .cleanup _ => inferInstanceAs (Decidable True)
  | .request _, _ => inferInstanceAs (Decidable True)

end LimitEvent

namespace DatabaseRateLimiter

variable {limiter : DatabaseRateLimiter} {rows : RequestRateLimits} {events : List LimitEvent}
  {key : BucketKey} {req : IdentifiedRequest}

/-- A row expires two windows after a request of its bucket. -/
def Expiring (limiter : DatabaseRateLimiter) (rows : RequestRateLimits) : Prop :=
  ∀ key row, rows.lookup key = some row →
    ∃ first, bucketStart limiter.windowSeconds first = some key.bucketStart ∧
    row.expiresAt = first + limiter.windowSeconds * 2 * 1000000

/-- What is counted so far. -/
def counted (rows : RequestRateLimits) (key : BucketKey) : Nat :=
  ((rows.lookup key).map (·.requestCount)).getD 0

/-- A request that is admitted is counted one above those before. -/
def isCountedIn (limiter : DatabaseRateLimiter) (key : BucketKey)
    (entry : IdentifiedRequest × CountedReply) : Bool :=
  limiter.keyHash (limiter.identity entry.1) = key.keyHash ∧ entry.2.bucket = some key.bucketStart ∧
    limiter.admits entry.2

theorem handle_bucket (limiter : DatabaseRateLimiter) (rows : RequestRateLimits)
    (req : IdentifiedRequest) :
    (limiter.handle rows req).1.bucket = bucketStart limiter.windowSeconds req.now := by
  unfold handle
  split
  next h => exact h.symm
  next bucket h =>
    dsimp only
    split <;> exact h.symm

theorem count_some {now : Nat} {current : Option BucketRow} {row : BucketRow}
    (h : limiter.count now current = some row) :
    row.requestCount = (current.map (·.requestCount)).getD 0 + 1 ∧
      ((current = none ∧ row.expiresAt = now + limiter.windowSeconds * 2 * 1000000) ∨
        ∃ old, current = some old ∧ row.expiresAt = old.expiresAt) := by
  cases current with
  | none =>
    cases h
    exact ⟨rfl, .inl ⟨rfl, rfl⟩⟩
  | some old =>
    rw [count] at h
    split at h
    next =>
      cases h
      exact ⟨rfl, .inr ⟨old, rfl, rfl⟩⟩
    next => cases h

/-- What a request does to the table. -/
theorem handle_cases (limiter : DatabaseRateLimiter) (rows : RequestRateLimits)
    (req : IdentifiedRequest) :
    (limiter.admits (limiter.handle rows req).1 = false ∧ (limiter.handle rows req).2 = rows) ∨
    ∃ bucket row, bucketStart limiter.windowSeconds req.now = some bucket ∧
      limiter.count req.now (rows.lookup ⟨limiter.keyHash (limiter.identity req), bucket⟩) =
        some row ∧
      (limiter.handle rows req).1 =
        { bucket := some bucket, requestCount := some row.requestCount } ∧
      (limiter.handle rows req).2 =
        upsert Prod.fst (⟨limiter.keyHash (limiter.identity req), bucket⟩, row) rows := by
  unfold handle
  split
  next => exact .inl ⟨rfl, rfl⟩
  next bucket h =>
    dsimp only
    split
    next => exact .inl ⟨rfl, rfl⟩
    next row hrow => exact .inr ⟨bucket, row, h, hrow, rfl, rfl⟩

theorem Expiring.handle (h : limiter.Expiring rows) (req : IdentifiedRequest) :
    limiter.Expiring (limiter.handle rows req).2 := by
  obtain ⟨-, heq⟩ | ⟨bucket, row, hbucket, hcount, -, heq⟩ := limiter.handle_cases rows req
  · rwa [heq]
  · rw [heq]
    intro key row' hlookup
    rw [lookup_upsert] at hlookup
    split at hlookup
    next hkey =>
      subst hkey
      cases hlookup
      obtain ⟨-, ⟨-, hexpires⟩ | ⟨old, hold, hexpires⟩⟩ := count_some hcount
      · exact ⟨req.now, hbucket, hexpires⟩
      · obtain ⟨first, hfirst, hold⟩ := h _ _ hold
        exact ⟨first, hfirst, hexpires.trans hold⟩
    next => exact h _ _ hlookup

theorem mem_replies {entry : IdentifiedRequest × CountedReply}
    (h : entry ∈ limiter.replies rows events) :
    .request entry.1 ∈ events ∧ entry.2.bucket = bucketStart limiter.windowSeconds entry.1.now := by
  induction events generalizing rows with
  | nil => cases h
  | cons event events ih =>
    cases event with
    | request req =>
      rcases List.mem_cons.mp h with rfl | hrest
      · exact ⟨List.mem_cons_self, limiter.handle_bucket rows req⟩
      · exact (ih hrest).imp_left (List.mem_cons_of_mem _)
    | cleanup now => exact (ih h).imp_left (List.mem_cons_of_mem _)

/-- Every request is answered. -/
theorem exists_reply (limiter : DatabaseRateLimiter) (rows : RequestRateLimits)
    (h : .request req ∈ events) :
    ∃ reply, (req, reply) ∈ limiter.replies rows events := by
  induction events generalizing rows with
  | nil => cases h
  | cons event events ih =>
    cases event with
    | request req' =>
      rcases List.mem_cons.mp h with heq | hrest
      · cases heq
        exact ⟨_, List.mem_cons_self⟩
      · obtain ⟨reply, hreply⟩ := ih _ hrest
        exact ⟨reply, List.mem_cons_of_mem _ hreply⟩
    | cleanup now =>
      rcases List.mem_cons.mp h with heq | hrest
      · cases heq
      · exact ih _ hrest

/-- A row that is deleted belongs to a bucket in which nothing is counted any more. -/
theorem countP_after_deletion {now : Nat} {row : BucketRow} (h : limiter.Expiring rows)
    (hlookup : rows.lookup key = some row) (hexpired : row.expiresAt < now)
    (hlater : ∀ event ∈ events, LimitEvent.Before limiter.windowSeconds (.cleanup now) event)
    (rows' : RequestRateLimits) :
    (limiter.replies rows' events).countP (limiter.isCountedIn key) = 0 := by
  rw [List.countP_eq_zero]
  intro entry hentry hcounted
  obtain ⟨-, hbucket, -⟩ := of_decide_eq_true hcounted
  obtain ⟨hmem, heq⟩ := mem_replies hentry
  obtain ⟨first, hfirst, hexpires⟩ := h key row hlookup
  have := lt_of_same_bucket hfirst (heq.symm.trans hbucket)
  have hbefore : now ≤ entry.1.now + limiter.windowSeconds * 1000000 := hlater _ hmem
  omega

theorem nodup_deleteExpired (hk : (rows.map Prod.fst).Nodup) (now : Nat) :
    ((Http.deleteExpired now rows).map Prod.fst).Nodup :=
  hk.sublist (List.filter_sublist.map Prod.fst)

theorem Expiring.deleteExpired {now : Nat} (hk : (rows.map Prod.fst).Nodup)
    (h : limiter.Expiring rows) :
    limiter.Expiring (deleteExpired now rows) := by
  intro key row hlookup
  rw [Http.deleteExpired, lookup_filter hk] at hlookup
  exact h key row (Option.eq_some_of_filter_eq_some hlookup)

theorem handle_nodup (hk : (rows.map Prod.fst).Nodup) (limiter : DatabaseRateLimiter)
    (req : IdentifiedRequest) :
    ((limiter.handle rows req).2.map Prod.fst).Nodup := by
  obtain ⟨-, heq⟩ | ⟨bucket, row, -, -, -, heq⟩ := limiter.handle_cases rows req
  · rwa [heq]
  · rw [heq]
    exact nodup_upsert hk

/-- An admitted request uses up one of those that its bucket has left. -/
theorem counted_handle_le (limiter : DatabaseRateLimiter) (rows : RequestRateLimits)
    (req : IdentifiedRequest) (key : BucketKey) :
    limiter.limit.toNat - counted (limiter.handle rows req).2 key +
        (if limiter.isCountedIn key (req, (limiter.handle rows req).1) = true then 1 else 0) ≤
      limiter.limit.toNat - counted rows key := by
  obtain ⟨hrefused, heq⟩ | ⟨bucket, row, -, hcount, hreply, heq⟩ := limiter.handle_cases rows req
  · rw [heq, if_neg (by simp [isCountedIn, hrefused])]
    exact Nat.le_refl _
  · rw [heq, hreply]
    unfold counted
    rw [lookup_upsert]
    split
    next hkey =>
      subst hkey
      have hrow := (count_some hcount).1
      rw [Option.map_some, Option.getD_some]
      split
      next hcounted =>
        have hadmits : (row.requestCount : Int) ≤ limiter.limit := by
          simpa [admits] using (of_decide_eq_true hcounted).2.2
        omega
      next => omega
    next hkey =>
      rw [if_neg]
      · exact Nat.le_refl _
      · intro hcounted
        obtain ⟨hhash, hbucket, -⟩ := of_decide_eq_true hcounted
        exact hkey (BucketKey.ext hhash.symm (Option.some.inj hbucket).symm)

/-- The rows that are not expired are kept. -/
theorem counted_deleteExpired {now : Nat} (hk : (rows.map Prod.fst).Nodup)
    (h : ∀ row, rows.lookup key = some row → ¬ row.expiresAt < now) :
    counted (Http.deleteExpired now rows) key = counted rows key := by
  unfold counted Http.deleteExpired
  rw [lookup_filter hk]
  cases hlookup : rows.lookup key with
  | none => rfl
  | some row => rw [Option.filter_some, if_pos (decide_eq_true (h row hlookup))]

/-- In one bucket, at most `limit` requests are admitted. -/
theorem countP_replies_le (hk : (rows.map Prod.fst).Nodup) (h : limiter.Expiring rows)
    (hbefore : events.Pairwise (LimitEvent.Before limiter.windowSeconds)) (key : BucketKey) :
    (limiter.replies rows events).countP (limiter.isCountedIn key) ≤
      limiter.limit.toNat - counted rows key := by
  induction events generalizing rows with
  | nil => exact Nat.zero_le _
  | cons event events ih =>
    obtain ⟨hlater, hrest⟩ := List.pairwise_cons.mp hbefore
    cases event with
    | request req =>
      rw [replies, List.countP_cons]
      have ih := ih (limiter.handle_nodup hk req) (h.handle req) hrest
      exact Nat.le_trans (Nat.add_le_add_right ih _) (limiter.counted_handle_le rows req key)
    | cleanup now =>
      rw [replies]
      have ih := ih (nodup_deleteExpired hk now) (h.deleteExpired hk) hrest
      by_cases hexpired : ∃ row, rows.lookup key = some row ∧ row.expiresAt < now
      · obtain ⟨row, hlookup, hexpired⟩ := hexpired
        rw [countP_after_deletion h hlookup hexpired hlater]
        exact Nat.zero_le _
      · rwa [counted_deleteExpired hk fun row hrow hlt => hexpired ⟨row, hrow, hlt⟩] at ih

/-! ## The requests of a window -/

/-- A request of `identity` in the window. -/
def isOf (limiter : DatabaseRateLimiter) (identity : String) (k : Nat)
    (req : IdentifiedRequest) : Bool :=
  limiter.identity req = identity ∧ inWindow limiter.windowSeconds k req.now

def requestsOf (limiter : DatabaseRateLimiter) (identity : String) (k : Nat)
    (events : List LimitEvent) :
    List IdentifiedRequest :=
  (events.filterMap LimitEvent.request?).filter (limiter.isOf identity k)

/-- The requests of an identity in a window are counted in one bucket, and at most `limit` are
admitted. -/
def LimitsWindow (limiter : DatabaseRateLimiter) (identity : String) (k : Nat)
    (replies : List (IdentifiedRequest × CountedReply)) : Prop :=
  (∃ bucket, ∀ entry ∈ replies, limiter.isOf identity k entry.1 = true →
    entry.2.bucket = some bucket) ∧
    replies.countP (fun entry => limiter.isOf identity k entry.1 && limiter.admits entry.2) ≤
      limiter.limit.toNat

/-- They fall on one phase of the window. -/
def IsUniform (limiter : DatabaseRateLimiter) (identity : String) (k : Nat)
    (events : List LimitEvent) : Prop :=
  (∀ req ∈ limiter.requestsOf identity k events, isCountable limiter.windowSeconds req.now = true) ∧
    (limiter.windowSeconds = 1 ∨
      ∃ p, ∀ req ∈ limiter.requestsOf identity k events, phase limiter.windowSeconds req.now = p)

theorem two_le_of_isOf {identity : String} {k : Nat} (h : limiter.isOf identity k req = true)
    (hone : limiter.windowSeconds ≠ 1) : 2 ≤ limiter.windowSeconds := by
  obtain ⟨hlow, hhigh⟩ := of_decide_eq_true (of_decide_eq_true h).2
  have hpos : limiter.windowSeconds ≠ 0 := fun hzero => by
    rw [hzero, Nat.mul_zero, Nat.zero_mul] at hhigh
    omega
  omega

theorem mem_requestsOf {identity : String} {k : Nat} :
    req ∈ limiter.requestsOf identity k events ↔
      .request req ∈ events ∧ limiter.isOf identity k req = true := by
  rw [requestsOf, List.mem_filter, List.mem_filterMap]
  refine and_congr_left fun _ => ⟨?_, fun h => ⟨_, h, rfl⟩⟩
  rintro ⟨req' | now, hmem, heq⟩
  · cases heq
    exact hmem
  · cases heq

section
variable {identity : String} {k : Nat}

theorem isUniform_of_bucket (bucket : Int)
    (h : ∀ req ∈ limiter.requestsOf identity k events,
      bucketStart limiter.windowSeconds req.now = some bucket) :
    limiter.IsUniform identity k events := by
  have hcount : ∀ req ∈ limiter.requestsOf identity k events,
      isCountable limiter.windowSeconds req.now = true :=
        fun req hreq => isCountable_of_bucketStart (h req hreq)
  refine ⟨hcount, ?_⟩
  by_cases hone : limiter.windowSeconds = 1
  · exact .inl hone
  · right
    cases hall : limiter.requestsOf identity k events with
    | nil => exact ⟨.truncated, nofun⟩
    | cons first rest =>
      rw [← hall]
      refine ⟨phase limiter.windowSeconds first.now, fun req hreq => ?_⟩
      have heq : ∀ req ∈ limiter.requestsOf identity k events,
          (phase limiter.windowSeconds req.now).bucket limiter.windowSeconds k = bucket :=
            fun req hreq =>
        Option.some.inj ((bucketStart_eq (of_decide_eq_true (mem_requestsOf.mp hreq).2).2
          (hcount req hreq)).symm.trans (h req hreq))
      have hfirst : first ∈ limiter.requestsOf identity k events := hall ▸ List.mem_cons_self
      exact Phase.bucket_injective (two_le_of_isOf (mem_requestsOf.mp hreq).2 hone)
        ((heq req hreq).trans (heq first hfirst).symm)

theorem IsUniform.exists_bucket (h : limiter.IsUniform identity k events) :
    ∃ bucket, ∀ req ∈ limiter.requestsOf identity k events,
      bucketStart limiter.windowSeconds req.now = some bucket := by
  have heq : ∀ req ∈ limiter.requestsOf identity k events,
      bucketStart limiter.windowSeconds req.now =
      some ((phase limiter.windowSeconds req.now).bucket limiter.windowSeconds k) := fun req hreq =>
    bucketStart_eq (of_decide_eq_true (mem_requestsOf.mp hreq).2).2 (h.1 req hreq)
  obtain hone | ⟨p, hp⟩ := h.2
  · refine ⟨k, fun req hreq => ?_⟩
    rw [heq req hreq, hone, bucket_phase_one]
  · refine ⟨p.bucket limiter.windowSeconds k, fun req hreq => ?_⟩
    rw [heq req hreq, hp req hreq]

end

/-- The table of a limiter that has counted nothing yet. -/
theorem expiring_nil : limiter.Expiring [] := nofun

end DatabaseRateLimiter

/-- The requests of a window are counted in one bucket, so that at most `limit` are admitted,
exactly where they fall on one phase of it. -/
theorem databaseRateLimit_limits_iff (limiter : DatabaseRateLimiter) {events : List LimitEvent}
    (h : events.Pairwise (LimitEvent.Before limiter.windowSeconds)) (identity : String) (k : Nat) :
    limiter.LimitsWindow identity k (databaseRateLimit limiter events) ↔
    limiter.IsUniform identity k events := by
  constructor
  · rintro ⟨⟨bucket, hbucket⟩, -⟩
    refine DatabaseRateLimiter.isUniform_of_bucket bucket fun req hreq => ?_
    obtain ⟨hmem, hof⟩ := DatabaseRateLimiter.mem_requestsOf.mp hreq
    obtain ⟨reply, hreply⟩ := limiter.exists_reply [] hmem
    exact (DatabaseRateLimiter.mem_replies hreply).2.symm.trans (hbucket _ hreply hof)
  · intro huniform
    obtain ⟨bucket, hbucket⟩ := huniform.exists_bucket
    have hall : ∀ entry ∈ databaseRateLimit limiter events, limiter.isOf identity k entry.1 = true →
        entry.2.bucket = some bucket := fun entry hentry hof => by
      obtain ⟨hmem, heq⟩ := DatabaseRateLimiter.mem_replies hentry
      exact heq.trans (hbucket _ (DatabaseRateLimiter.mem_requestsOf.mpr ⟨hmem, hof⟩))
    refine ⟨⟨bucket, hall⟩, ?_⟩
    have hempty : (([] : RequestRateLimits).map Prod.fst).Nodup := List.nodup_nil
    have hle := DatabaseRateLimiter.countP_replies_le hempty DatabaseRateLimiter.expiring_nil h
      ⟨limiter.keyHash identity, bucket⟩
    refine Nat.le_trans (List.countP_mono_left fun entry hentry hadmitted => ?_) hle
    obtain ⟨hof, hadmits⟩ := Bool.and_eq_true_iff.mp hadmitted
    refine decide_eq_true ⟨congrArg limiter.keyHash (of_decide_eq_true hof).1,
      hall entry hentry hof, hadmits⟩

/-- Requests in the first halves of the seconds of an hour, with the cleanup of an earlier one. -/
theorem databaseRateLimit_limits_iff_firstHalves :
    let limiter : DatabaseRateLimiter :=
      { sha256 := id, toLowerCase := id, scope := "forgot-password", limit := 3,
        windowSeconds := 3600 }
    let request now := LimitEvent.request { ip := some "::1", email := some "a@example.com", now }
    limiter.LimitsWindow "::1:a@example.com" 500000 (databaseRateLimit limiter
      [request 1799990000250000, .cleanup 1800000000100000, request 1800000000250000,
        request 1800000061000000]) :=
  (databaseRateLimit_limits_iff _ (by decide +kernel) _ _).mpr
    ⟨by decide +kernel, .inr ⟨.truncated, by decide +kernel⟩⟩

/-- Three requests in the first half of a second and three in the second half, all admitted by a
limiter that admits three an hour. -/
theorem six_requests_admitted :
    let limiter : DatabaseRateLimiter :=
      { sha256 := id, toLowerCase := id, scope := "forgot-password", limit := 3,
        windowSeconds := 3600 }
    let request now := LimitEvent.request { ip := some "::1", email := some "a@example.com", now }
    ¬ limiter.LimitsWindow "::1:a@example.com" 500000 (databaseRateLimit limiter
      [request 1800000000250000, request 1800000000250000, request 1800000000250000,
        request 1800000000750000, request 1800000000750000, request 1800000000750000]) :=
  fun h => absurd h.2 (by decide +kernel)

end Tonatiuh.Http
