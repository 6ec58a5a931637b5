import Mathlib.Order.Basic

/-! Billing data: provider objects, configuration and the PostgreSQL rows.

Rows keep the columns that some billing statement reads or writes. Identifiers (uuids, provider
ids, saved payment methods) are opaque and modelled by numbers. `provider_snapshot` is kept
only as the confirmation URL that `POST /checkout` reads back. -/

namespace Tonatiuh.Billing

/-! ## Time -/

/-- A `timestamptz`: microseconds since the epoch. -/
abbrev Timestamp := Int

/-- `n * interval '1 minute'`. -/
def minutes (n : Nat) : Int := n * 60000000

/-- `n * interval '1 hour'`. -/
def hours (n : Nat) : Int := n * 3600000000

/-- PostgreSQL's calendar intervals on a `timestamptz`. Their length depends on the date and on
the session time zone, so the two additions are parameters with the laws used of them. -/
structure Calendar where
  /-- `t + interval '1 month'`. -/
  addMonth : Timestamp → Timestamp
  /-- `t + n * interval '1 day'`. -/
  addDays : Timestamp → Nat → Timestamp
  lt_addMonth : ∀ t, t < addMonth t
  le_addDays : ∀ t n, t ≤ addDays t n

/-- Calendar arithmetic in UTC from a day of a thirty-day month, say any day in April. -/
def Calendar.thirtyDays : Calendar where
  addMonth t := t + hours (30 * 24)
  addDays t n := t + hours (n * 24)
  lt_addMonth t := by change @LT.lt Int _ _ _; simp only [hours]; omega
  le_addDays t n := by change @LE.le Int _ _ _; simp only [hours]; omega

/-- A JavaScript `Date` read from a `timestamptz`: milliseconds, the rest cut off. -/
abbrev Date := Int

def Timestamp.toDate (t : Timestamp) : Date := t / 1000

/-! ## Provider objects -/

abbrev OrganizationId := Nat
abbrev PaymentId := Nat
abbrev RefundId := Nat
abbrev MethodId := Nat

inductive PaymentStatus where
  | pending | waitingForCapture | succeeded | canceled
  deriving DecidableEq, Repr

inductive PaymentKind where
  | initial | renewal
  deriving DecidableEq, Repr

inductive RefundStatus where
  | requested | pending | succeeded | canceled
  deriving DecidableEq, Repr

structure Amount where
  value : String
  currency : String
  deriving DecidableEq, Repr

structure PaymentMethod where
  id : MethodId
  saved : Bool
  deriving DecidableEq, Repr

structure PaymentMetadata where
  organizationId : OrganizationId
  kind : PaymentKind
  deriving DecidableEq, Repr

/-- A payment as the provider returns it. `paid` is `payment.paid === true`. -/
structure YooPayment where
  id : PaymentId
  status : PaymentStatus
  paid : Bool := false
  amount : Amount
  confirmationUrl : Option String := none
  paymentMethod : Option PaymentMethod := none
  metadata : Option PaymentMetadata := none
  cancellationReason : Option String := none
  deriving DecidableEq, Repr

structure YooRefund where
  id : RefundId
  paymentId : PaymentId
  status : RefundStatus
  amount : Amount
  deriving DecidableEq, Repr

/-- The idempotency keys of payments: the header of a checkout request, or the digest that
`renew` builds from organization, period end and attempt. SHA-256 is taken to be injective. -/
inductive IdempotencyKey where
  | header (value : Nat)
  | renewal (organizationId : OrganizationId) (periodEnd : Date) (attempt : Nat)
  deriving DecidableEq, Repr

def digitsValue (digits : List Char) : Nat :=
  digits.foldl (fun n c => 10 * n + (c.toNat - '0'.toNat)) 0

/-- `kopecks`: the value of a string matching `^\d+\.\d{2}$` with its dot removed. -/
def kopecks (value : String) : Option Nat :=
  let (whole, rest) := value.toList.span Char.isDigit
  match whole, rest with
  | _ :: _, ['.', a, b] =>
    if a.isDigit && b.isDigit then some (digitsValue (whole ++ [a, b])) else none
  | _, _ => none

/-! ## Configuration -/

/-- The part of `BillingConfig` the lifecycle reads, with what `getBillingConfig` checks. -/
structure BillingConfig where
  priceKopecks : Nat
  gracePeriodDays : Nat
  retryScheduleHours : List Nat
  reconciliationMinutes : Nat
  grace_range : 1 ≤ gracePeriodDays ∧ gracePeriodDays ≤ 30
  schedule_length : retryScheduleHours ≠ [] ∧ retryScheduleHours.length ≤ 10
  schedule_range : ∀ h ∈ retryScheduleHours, 1 ≤ h ∧ h ≤ gracePeriodDays * 24
  schedule_increasing : retryScheduleHours.Pairwise (· < ·)

/-- The defaults of `getBillingConfig` with a price of 990.00. -/
def BillingConfig.default : BillingConfig where
  priceKopecks := 99000
  gracePeriodDays := 7
  retryScheduleHours := [1, 24, 72, 120]
  reconciliationMinutes := 10
  grace_range := by decide
  schedule_length := by decide
  schedule_range := by decide
  schedule_increasing := by decide

/-- `retryDelayHours`: the delay after the given attempt, if the schedule has one. -/
def retryDelayHours : Nat → List Nat → Option Nat
  | 0, _ => none
  | attempt + 1, schedule => schedule[attempt]?

/-! ## Rows -/

inductive Plan where
  | free | pro
  deriving DecidableEq, Repr

inductive SubscriptionStatus where
  | inactive | active | pastDue | cancelled
  deriving DecidableEq, Repr

/-- A row of `subscriptions`. -/
structure Subscription where
  plan : Plan := .free
  status : SubscriptionStatus := .inactive
  currentPeriodEnd : Option Timestamp := none
  cancelAtPeriodEnd : Bool := false
  paymentMethodId : Option MethodId := none
  autoRenew : Bool := false
  nextBillingAt : Option Timestamp := none
  lastPaymentId : Option PaymentId := none
  gracePeriodEnd : Option Timestamp := none
  retryCount : Nat := 0
  lastBillingAttemptAt : Option Timestamp := none
  lastBillingErrorCode : Option String := none
  deriving DecidableEq, Repr

/-- A row of `billing_payments`. -/
structure BillingPayment where
  organizationId : OrganizationId
  providerPaymentId : PaymentId
  idempotencyKey : IdempotencyKey
  kind : PaymentKind
  status : PaymentStatus
  amountKopecks : Nat
  currency : String := "RUB"
  confirmationUrl : Option String := none
  attemptNumber : Nat := 1
  reconcileAfter : Option Timestamp := none
  reconciliationAttempts : Nat := 0
  lastReconciledAt : Option Timestamp := none
  entitlementAppliedAt : Option Timestamp := none
  failureAppliedAt : Option Timestamp := none
  createdAt : Timestamp
  deriving DecidableEq, Repr

/-- A row of `billing_refunds`, found by `(organization_id, idempotency_key)`. -/
structure BillingRefund where
  organizationId : OrganizationId
  providerRefundId : Option RefundId := none
  providerPaymentId : PaymentId
  idempotencyKey : Nat
  status : RefundStatus
  amountKopecks : Nat
  currency : String := "RUB"
  lifecycleAppliedAt : Option Timestamp := none
  reconcileAfter : Option Timestamp := none
  reconciliationAttempts : Nat := 0
  lastReconciledAt : Option Timestamp := none
  deriving DecidableEq, Repr

/-- `provider_event_id`, the string `${eventType}:${object id}`. -/
inductive ProviderEventId where
  | payment (status : PaymentStatus) (id : PaymentId)
  | refund (id : RefundId)
  deriving DecidableEq, Repr

/-- The billing tables. `payments` is keyed by the unique `provider_payment_id`; `paymentKeys`
is the unique index on `(organization_id, idempotency_key)`. `ownerEmail` is the join with the
owner's membership and user row. -/
structure Database where
  subscriptions : OrganizationId → Option Subscription := fun _ => none
  payments : PaymentId → Option BillingPayment := fun _ => none
  paymentKeys : OrganizationId → IdempotencyKey → Option PaymentId := fun _ _ => none
  refunds : List BillingRefund := []
  events : List ProviderEventId := []
  ownerEmail : OrganizationId → Option String := fun _ => none

namespace Database

/-- `UPDATE subscriptions SET … WHERE organization_id=$1`. -/
def updateSubscription (db : Database) (org : OrganizationId)
    (f : Subscription → Subscription) : Database :=
  { db with subscriptions := Function.update db.subscriptions org ((db.subscriptions org).map f) }

/-- `INSERT INTO subscriptions … ON CONFLICT(organization_id) DO UPDATE`. -/
def upsertSubscription (db : Database) (org : OrganizationId)
    (f : Option Subscription → Subscription) : Database :=
  { db with
    subscriptions := Function.update db.subscriptions org (some (f (db.subscriptions org))) }

/-- `UPDATE billing_payments SET … WHERE provider_payment_id=$1`. -/
def updatePayment (db : Database) (id : PaymentId) (f : BillingPayment → BillingPayment) :
    Database :=
  { db with payments := Function.update db.payments id ((db.payments id).map f) }

/-- `INSERT INTO billing_payments`, both unique indexes included. -/
def insertPayment (db : Database) (row : BillingPayment) : Database :=
  { db with
    payments := Function.update db.payments row.providerPaymentId (some row)
    paymentKeys := Function.update db.paymentKeys row.organizationId
      (Function.update (db.paymentKeys row.organizationId) row.idempotencyKey
        (some row.providerPaymentId)) }

/-- `UPDATE billing_refunds SET …` on the rows that satisfy the condition. -/
def updateRefunds (db : Database) (p : BillingRefund → Bool) (f : BillingRefund → BillingRefund) :
    Database :=
  { db with refunds := db.refunds.map fun row => if p row then f row else row }

section
variable (db : Database)

@[simp] theorem updatePayment_subscriptions {id : PaymentId} :
    (db.updatePayment id f).subscriptions = db.subscriptions := rfl

@[simp] theorem insertPayment_subscriptions :
    (db.insertPayment row).subscriptions = db.subscriptions := rfl

@[simp] theorem updateRefunds_subscriptions :
    (db.updateRefunds p g).subscriptions = db.subscriptions := rfl

@[simp] theorem updateSubscription_payments :
    (db.updateSubscription org f).payments = db.payments := rfl

@[simp] theorem upsertSubscription_payments :
    (db.upsertSubscription org f).payments = db.payments := rfl

@[simp] theorem updateRefunds_payments : (db.updateRefunds p g).payments = db.payments := rfl

theorem updateSubscription_apply (f : Subscription → Subscription) :
    (db.updateSubscription org f).subscriptions org' =
      if org' = org then (db.subscriptions org').map f else db.subscriptions org' := by
  by_cases h : org' = org
  · subst h; simp [updateSubscription]
  · simp [updateSubscription, h]

theorem upsertSubscription_apply (f : Option Subscription → Subscription) :
    (db.upsertSubscription org f).subscriptions org' =
      if org' = org then some (f (db.subscriptions org')) else db.subscriptions org' := by
  by_cases h : org' = org
  · subst h; simp [upsertSubscription]
  · simp [upsertSubscription, h]

theorem updatePayment_apply {id id' : PaymentId} (f : BillingPayment → BillingPayment) :
    (db.updatePayment id f).payments id' =
      if id' = id then (db.payments id').map f else db.payments id' := by
  by_cases h : id' = id
  · subst h; simp [updatePayment]
  · simp [updatePayment, h]

theorem insertPayment_apply {id : PaymentId} (row : BillingPayment) :
    (db.insertPayment row).payments id =
      if id = row.providerPaymentId then some row else db.payments id := by
  by_cases h : id = row.providerPaymentId
  · subst h; simp [insertPayment]
  · simp [insertPayment, h]

end

end Database

end Tonatiuh.Billing
