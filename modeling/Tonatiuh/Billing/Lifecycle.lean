import Tonatiuh.Billing.Types

/-! `applyPaymentLifecycle` and `applyRefundLifecycle` of `billing/lifecycle.ts`.

Both run inside one transaction that first locks the payment (or refund) row, so a call is one
function on the tables; `now` is the start of its transaction. Next to the new tables each
returns what it did to the subscription, the effects whose multiplicity the markers
`entitlement_applied_at` and `failure_applied_at` control. -/

namespace Tonatiuh.Billing

structure LocalPayment where
  organizationId : OrganizationId
  providerPaymentId : PaymentId
  kind : PaymentKind
  attemptNumber : Nat
  deriving DecidableEq, Repr

/-- The columns of a row that `webhook` and `claimReconciliation` select. -/
def BillingPayment.toLocal (row : BillingPayment) : LocalPayment where
  organizationId := row.organizationId
  providerPaymentId := row.providerPaymentId
  kind := row.kind
  attemptNumber := row.attemptNumber

/-- What a lifecycle call did to a subscription: a paid period was added, or the failure of a
renewal was recorded. -/
inductive Effect where
  | extended (organizationId : OrganizationId) (payment : PaymentId)
  | dunned (organizationId : OrganizationId) (payment : PaymentId)
  deriving DecidableEq, Repr

def PaymentStatus.isOpen : PaymentStatus → Bool
  | .pending | .waitingForCapture => true
  | .succeeded | .canceled => false

section
variable (cal : Calendar) (config : BillingConfig) (now : Timestamp)

/-- The first statement of `applyPaymentLifecycle`. The stored snapshot has no confirmation
URL. -/
def BillingPayment.storeSnapshot (payment : YooPayment) (row : BillingPayment) :
    BillingPayment :=
  { row with
    status := payment.status
    confirmationUrl := none
    lastReconciledAt := some now
    reconcileAfter :=
      if payment.status.isOpen then some (now + minutes config.reconciliationMinutes) else none
    reconciliationAttempts :=
      if payment.status.isOpen then row.reconciliationAttempts + 1
      else row.reconciliationAttempts }

/-- `payment.payment_method?.saved===true ? payment.payment_method.id : null`. -/
def YooPayment.savedMethod (payment : YooPayment) : Option MethodId :=
  payment.paymentMethod.bind fun method => if method.saved then some method.id else none

/-- `GREATEST(COALESCE(current_period_end,now()),now())+interval '1 month'`. -/
def extendedPeriodEnd (currentPeriodEnd : Option Timestamp) : Timestamp :=
  cal.addMonth (max (currentPeriodEnd.getD now) now)

/-- The upsert of a succeeded payment. -/
def Subscription.extend (payment : YooPayment) : Option Subscription → Subscription
  | none =>
    { plan := .pro, status := .active, currentPeriodEnd := some (extendedPeriodEnd cal now none)
      paymentMethodId := payment.savedMethod
      autoRenew := payment.savedMethod.isSome
      nextBillingAt := payment.savedMethod.map fun _ => extendedPeriodEnd cal now none
      lastPaymentId := some payment.id }
  | some s =>
    { s with
      plan := .pro, status := .active
      currentPeriodEnd := some (extendedPeriodEnd cal now s.currentPeriodEnd)
      paymentMethodId := payment.savedMethod <|> s.paymentMethodId
      autoRenew := if payment.savedMethod.isNone then s.autoRenew else true
      nextBillingAt :=
        if (payment.savedMethod <|> s.paymentMethodId).isNone then none
        else some (extendedPeriodEnd cal now s.currentPeriodEnd)
      cancelAtPeriodEnd := false
      lastPaymentId := some payment.id
      gracePeriodEnd := none
      retryCount := 0
      lastBillingErrorCode := none }

/-- `COALESCE(grace_period_end,current_period_end+($3*interval '1 day'),now())`. -/
def Subscription.graceDeadline (s : Subscription) : Timestamp :=
  (s.gracePeriodEnd <|> s.currentPeriodEnd.map (cal.addDays · config.gracePeriodDays)).getD now

/-- `$2::int IS NULL OR now()+($2*interval '1 hour')>=…`: no retry is left within the grace
period. -/
def Subscription.exhausted (delay : Option Nat) (s : Subscription) : Bool :=
  match delay with
  | none => true
  | some h => s.graceDeadline cal config now ≤ now + hours h

def YooPayment.cancellation (payment : YooPayment) : String :=
  payment.cancellationReason.getD "payment_canceled"

def YooPayment.revoked (payment : YooPayment) : Bool :=
  payment.cancellation == "permission_revoked"

/-- `revoked ? undefined : retryDelayHours(local.attempt_number, config.retryScheduleHours)`. -/
def dunningDelay (payment : YooPayment) (attempt : Nat) : Option Nat :=
  if payment.revoked then none else retryDelayHours attempt config.retryScheduleHours

/-- The update of a cancelled renewal. Every CASE reads the row before the update. -/
def Subscription.dun (payment : YooPayment) (attempt : Nat) (s : Subscription) : Subscription :=
  let delay := dunningDelay config payment attempt
  let exhausted := s.exhausted cal config now delay
  { s with
    status := if exhausted then .cancelled else .pastDue
    plan := if exhausted then .free else s.plan
    gracePeriodEnd :=
      some ((s.gracePeriodEnd <|> s.currentPeriodEnd.map
        (cal.addDays · config.gracePeriodDays)).getD
        (cal.addDays now config.gracePeriodDays))
    retryCount := max s.retryCount attempt
    nextBillingAt := if exhausted then none else delay.map (now + hours ·)
    autoRenew := if exhausted then false else s.autoRenew
    paymentMethodId := if payment.revoked then none else s.paymentMethodId
    lastBillingErrorCode := some payment.cancellation }

/-- The success branch is taken for this payment. -/
def YooPayment.grants (payment : YooPayment) : Bool :=
  payment.status = .succeeded && payment.paid

/-- `UPDATE … SET entitlement_applied_at=now() WHERE … IS NULL RETURNING id`; `none` when no
row matched. -/
def Database.markEntitlementApplied (db : Database) (id : PaymentId) : Option Database :=
  match db.payments id with
  | some { entitlementAppliedAt := none, .. } =>
    some (db.updatePayment id ({ · with entitlementAppliedAt := some now }))
  | _ => none

/-- `UPDATE … SET failure_applied_at=now() WHERE … IS NULL RETURNING id`. -/
def Database.markFailureApplied (db : Database) (id : PaymentId) : Option Database :=
  match db.payments id with
  | some { failureAppliedAt := none, .. } =>
    some (db.updatePayment id ({ · with failureAppliedAt := some now }))
  | _ => none

def applyPaymentLifecycle (localPayment : LocalPayment) (payment : YooPayment) (db : Database) :
    Database × List Effect :=
  let db := db.updatePayment payment.id (·.storeSnapshot config now payment)
  if payment.grants then
    match db.markEntitlementApplied now payment.id with
    | none => (db, [])
    | some db =>
      (db.upsertSubscription localPayment.organizationId (Subscription.extend cal now payment),
        [.extended localPayment.organizationId payment.id])
  else if payment.status ≠ .canceled ∨ localPayment.kind ≠ .renewal then (db, [])
  else
    match db.markFailureApplied now payment.id with
    | none => (db, [])
    | some db =>
      (db.updateSubscription localPayment.organizationId
          (·.dun cal config now payment localPayment.attemptNumber),
        [.dunned localPayment.organizationId payment.id])

/-- The update of a full refund. -/
def Subscription.refund (s : Subscription) : Subscription :=
  { s with
    plan := .free, status := .cancelled, currentPeriodEnd := some now, gracePeriodEnd := none
    autoRenew := false, nextBillingAt := none, cancelAtPeriodEnd := true }

/-- A refund row with this provider id covers the whole amount of its payment. -/
def Database.isFullRefund (db : Database) (id : RefundId) : Bool :=
  db.refunds.any fun row => row.providerRefundId = some id &&
    (match db.payments row.providerPaymentId with
      | some payment => row.amountKopecks = payment.amountKopecks
      | none => false)

def applyRefundLifecycle (refund : YooRefund) (db : Database) : Database :=
  if refund.status ≠ .succeeded then db
  else if db.refunds.any fun row =>
      row.providerRefundId = some refund.id && row.lifecycleAppliedAt.isNone then
    let db := db.updateRefunds
      (fun row => row.providerRefundId = some refund.id && row.lifecycleAppliedAt.isNone)
      ({ · with lifecycleAppliedAt := some now })
    { db with
      subscriptions := fun org => (db.subscriptions org).map fun s =>
        if s.lastPaymentId = some refund.paymentId ∧ db.isFullRefund refund.id
        then s.refund now else s }
  else db

end

end Tonatiuh.Billing
