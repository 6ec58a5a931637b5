import Tonatiuh.Billing.Lifecycle
import Tonatiuh.Transition.Run

/-! The billing system: the statements of `billing/router.ts`, `billing/renewals.ts`, the refund
route of `admin/router.ts` and the retention worker, and the transition system they form with
the payment provider.

Every database transaction is one event. Its `now` is the start of the transaction, which may
lie before the start of a transaction that committed earlier; only what the program order forces
is required (a delivery starts after the payment row was written, a renewal is recorded after it
was claimed). The provider keeps every state a payment went through, because a delivery applies
the snapshot it fetched at some earlier moment. -/

namespace Tonatiuh.Billing

/-! ## Statements -/

section
variable (cal : Calendar) (config : BillingConfig) (now : Timestamp)

/-- The checks of `POST /webhook` on a payment event, up to its transaction: the payment row
they found. -/
def verifyNotification (eventStatus : PaymentStatus) (payment : YooPayment) (db : Database) :
    Except String BillingPayment :=
  if eventStatus = .pending then .error "INVALID_NOTIFICATION"
  else if eventStatus ≠ payment.status then .error "PAYMENT_MISMATCH"
  else
    match db.payments payment.id with
    | none => .error "PAYMENT_NOT_FOUND"
    | some row =>
      if payment.metadata ≠ some ⟨row.organizationId, row.kind⟩
          ∨ payment.amount.currency ≠ row.currency then .error "PAYMENT_MISMATCH"
      else
        match kopecks payment.amount.value with
        | none => .error "INVALID_PAYMENT"
        | some value => if value ≠ row.amountKopecks then .error "PAYMENT_MISMATCH" else .ok row

/-- `POST /webhook` for a payment event. -/
def webhook (eventStatus : PaymentStatus) (payment : YooPayment) (db : Database) :
    Except String (Database × List Effect) := do
  let row ← verifyNotification eventStatus payment db
  if .payment eventStatus payment.id ∈ db.events then .ok (db, [])
  else .ok (applyPaymentLifecycle cal config now row.toLocal payment
    { db with events := .payment eventStatus payment.id :: db.events })

/-- `POST /webhook` for `refund.succeeded`. -/
def refundWebhook (refund : YooRefund) (db : Database) : Except String Database :=
  match db.refunds.find? (·.providerRefundId = some refund.id) with
  | none => .error "REFUND_NOT_FOUND"
  | some row =>
    if refund.status ≠ .succeeded ∨ refund.paymentId ≠ row.providerPaymentId
        ∨ refund.amount.currency ≠ row.currency then .error "REFUND_MISMATCH"
    else
      match kopecks refund.amount.value with
      | none => .error "INVALID_PAYMENT"
      | some value =>
        if value ≠ row.amountKopecks then .error "REFUND_MISMATCH"
        else if .refund refund.id ∈ db.events then .ok db
        else .ok <| applyRefundLifecycle now refund <|
          { db with events := .refund refund.id :: db.events }.updateRefunds
            (·.providerRefundId = some refund.id)
            ({ · with status := refund.status, reconcileAfter := none,
                      lastReconciledAt := some now })

/-- The insert of `POST /checkout`. -/
def checkoutStore (org : OrganizationId) (key : IdempotencyKey) (payment : YooPayment)
    (db : Database) : Except String Database :=
  if (db.paymentKeys org key).isSome then .ok db
  else if (db.payments payment.id).isSome then .error "23505"
  else .ok <| db.insertPayment
    { organizationId := org, providerPaymentId := payment.id, idempotencyKey := key
      kind := .initial, status := payment.status, amountKopecks := config.priceKopecks
      confirmationUrl := payment.confirmationUrl, createdAt := now
      reconcileAfter :=
        if payment.status.isOpen then some (now + minutes config.reconciliationMinutes) else none }

/-- `POST /cancel`. -/
def Subscription.cancel (s : Subscription) : Subscription :=
  { s with autoRenew := false, cancelAtPeriodEnd := true, nextBillingAt := none }

/-- The WHERE clause of `POST /resume`. -/
def Subscription.resumable (s : Subscription) : Bool :=
  s.paymentMethodId.isSome && s.currentPeriodEnd.any (now < ·)

/-- `POST /resume`. -/
def Subscription.resume (s : Subscription) : Subscription :=
  { s with autoRenew := true, cancelAtPeriodEnd := false, nextBillingAt := s.currentPeriodEnd }

/-- A row of `claimRenewal`, with `current_period_end` as the JavaScript date it becomes. -/
structure Renewal where
  organizationId : OrganizationId
  paymentMethodId : MethodId
  currentPeriodEnd : Date
  email : String
  retryCount : Nat
  deriving DecidableEq, Repr

/-- The query of `claimRenewal` for one organization. Which due row is returned is left open:
rows locked by others are skipped. -/
def Database.dueRenewal (db : Database) (org : OrganizationId) : Option Renewal :=
  match db.subscriptions org, db.ownerEmail org with
  | some { autoRenew := true, paymentMethodId := some method, currentPeriodEnd := some periodEnd,
           nextBillingAt := some next, status, retryCount, .. }, some email =>
    if next ≤ now ∧ (status = .active ∨ status = .pastDue) then
      some { organizationId := org, paymentMethodId := method
             currentPeriodEnd := periodEnd.toDate, email, retryCount }
    else none
  | _, _ => none

/-- The update of `claimRenewal`. -/
def Subscription.claim (s : Subscription) : Subscription :=
  { s with nextBillingAt := some (now + minutes 15), lastBillingAttemptAt := some now }

/-- `renew`: the attempt a claimed renewal stands for. -/
def Renewal.attempt (item : Renewal) : Nat := item.retryCount + 1

/-- `renew`: the idempotency key of the attempt. -/
def Renewal.idempotencyKey (item : Renewal) : IdempotencyKey :=
  .renewal item.organizationId item.currentPeriodEnd item.attempt

/-- The insert of `renew`, on conflict with the provider payment id an update. -/
def renewStore (item : Renewal) (payment : YooPayment) (db : Database) :
    Except String Database :=
  if (db.payments payment.id).isSome then
    .ok <| db.updatePayment payment.id
      ({ · with status := payment.status, confirmationUrl := none })
  else if (db.paymentKeys item.organizationId item.idempotencyKey).isSome then .error "23505"
  else .ok <| db.insertPayment
    { organizationId := item.organizationId, providerPaymentId := payment.id
      idempotencyKey := item.idempotencyKey, kind := .renewal, status := payment.status
      amountKopecks := config.priceKopecks, attemptNumber := item.attempt, createdAt := now
      reconcileAfter :=
        if payment.status.isOpen then some (now + minutes config.reconciliationMinutes) else none }

/-- The transaction of `renew`. -/
def renewRecord (item : Renewal) (payment : YooPayment) (db : Database) :
    Except String (Database × List Effect) := do
  let db ← renewStore config now item payment db
  return applyPaymentLifecycle cal config now
    { organizationId := item.organizationId, providerPaymentId := payment.id, kind := .renewal
      attemptNumber := item.attempt } payment db

/-- The catch branch of `renew`. -/
def Subscription.renewFailed (s : Subscription) : Subscription :=
  { s with nextBillingAt := some (now + hours 1) }

/-- `claimReconciliation` for one payment. -/
def BillingPayment.reconcilable (row : BillingPayment) : Bool :=
  row.status.isOpen && row.reconcileAfter.any (· ≤ now)

/-- The row of `expireGracePeriods`. -/
def Subscription.expire (s : Subscription) : Subscription :=
  if s.status = .pastDue ∧ s.gracePeriodEnd.any (· ≤ now) then
    { s with plan := .free, status := .cancelled, autoRenew := false, nextBillingAt := none }
  else s

theorem expire_currentPeriodEnd (s : Subscription) :
    (s.expire now).currentPeriodEnd = s.currentPeriodEnd := by
  unfold Subscription.expire; split <;> rfl

theorem expire_retryCount (s : Subscription) : (s.expire now).retryCount = s.retryCount := by
  unfold Subscription.expire; split <;> rfl

/-- `expireGracePeriods`. -/
def expireGracePeriods (db : Database) : Database :=
  { db with subscriptions := fun org => (db.subscriptions org).map (·.expire now) }

/-- The reservation of `POST /admin/payments/:id/refund`. -/
def reserveRefund (id : PaymentId) (key : Nat) (db : Database) : Except String Database :=
  match db.payments id with
  | none => .error "NOT_FOUND"
  | some payment =>
    if payment.status ≠ .succeeded ∨ (db.ownerEmail payment.organizationId).isNone then
      .error "NOT_FOUND"
    else
      match db.refunds.find? fun row =>
          row.organizationId = payment.organizationId && row.idempotencyKey = key with
      | some row =>
        if row.providerPaymentId = id then .ok db else .error "IDEMPOTENCY_KEY_REUSED"
      | none =>
        if db.refunds.any fun row => row.providerPaymentId = id && row.status ≠ .canceled then
          .error "PAYMENT_ALREADY_REFUNDED"
        else .ok { db with
          refunds := { organizationId := payment.organizationId, providerPaymentId := id
                       idempotencyKey := key, status := .requested
                       amountKopecks := payment.amountKopecks } :: db.refunds }

/-- The transaction after `createRefund`. -/
def storeRefund (org : OrganizationId) (key : Nat) (refund : YooRefund) (db : Database) :
    Except String Database :=
  if db.refunds.any fun row => row.providerRefundId = some refund.id &&
      !(row.organizationId = org && row.idempotencyKey = key) then .error "23505"
  else .ok <| applyRefundLifecycle now refund <| db.updateRefunds
    (fun row => row.organizationId = org && row.idempotencyKey = key)
    ({ · with
      providerRefundId := some refund.id, status := refund.status
      reconcileAfter :=
        if refund.status = .pending then some (now + minutes config.reconciliationMinutes)
        else none })

/-- The transaction of `reconcileRefund`. -/
def reconcileRefund (refund : YooRefund) (db : Database) : Database :=
  applyRefundLifecycle now refund <| db.updateRefunds (·.providerRefundId = some refund.id)
    fun row => { row with
      status := refund.status, lastReconciledAt := some now
      reconciliationAttempts := row.reconciliationAttempts + 1
      reconcileAfter :=
        if refund.status = .pending then some (now + minutes config.reconciliationMinutes)
        else none }

/-- `anonymizeOne` on the subscription of a workspace that loses its last member. -/
def Subscription.anonymize (s : Subscription) : Subscription :=
  { s with
    paymentMethodId := none, autoRenew := false, nextBillingAt := none, cancelAtPeriodEnd := true }

/-- `anonymizeOne` on the billing tables. -/
def anonymize (org : OrganizationId) (db : Database) : Database :=
  { db.updateSubscription org (·.anonymize) with
    payments := fun id => (db.payments id).map fun row =>
      if row.organizationId = org then { row with confirmationUrl := none } else row }

end

/-- The 90-day cleanup of stored snapshots. -/
def cleanup (now : Timestamp) (db : Database) : Database :=
  { db with
    payments := fun id => (db.payments id).map fun row =>
      if row.createdAt + hours (90 * 24) < now then { row with confirmationUrl := none } else row }

/-! ## The system -/

/-- A renewal between `claimRenewal` and the end of `renew`: `response` is what
`createRecurringPayment` returned. `epoch` is a history variable, the number of times the
period end had changed when the renewal was claimed. -/
structure InFlight where
  item : Renewal
  claimedAt : Timestamp
  response : Option YooPayment := none
  epoch : Nat
  deriving DecidableEq, Repr

/-- The claim behind a renewal payment. -/
structure Charge where
  organizationId : OrganizationId
  claimedAt : Timestamp
  epoch : Nat
  deriving DecidableEq, Repr

/-- `history id` are the states of a provider payment, the newest first; `issued` is the
provider's memory of idempotency keys. `log`, `epoch` and `charges` are history variables:
the effects so far, how often an organization's period end has changed, and the claims for which
the renewal payments were created. -/
structure World where
  db : Database := {}
  history : PaymentId → List YooPayment := fun _ => []
  issued : IdempotencyKey → Option PaymentId := fun _ => none
  renewals : List InFlight := []
  log : List Effect := []
  epoch : OrganizationId → Nat := fun _ => 0
  charges : PaymentId → Option Charge := fun _ => none

inductive Event where
  /-- The provider moves a payment to a new state. -/
  | providerUpdate (payment : YooPayment)
  /-- `POST /checkout` makes the provider create a payment. -/
  | checkoutCall (org : OrganizationId) (key : IdempotencyKey) (payment : YooPayment)
  | checkoutStore (now : Timestamp) (org : OrganizationId) (key : IdempotencyKey)
      (payment : YooPayment)
  | webhook (now : Timestamp) (status : PaymentStatus) (payment : YooPayment)
  | claimRenewal (now : Timestamp) (org : OrganizationId)
  | renewCall (index : Nat) (payment : YooPayment)
  | renewRecord (now : Timestamp) (index : Nat)
  | renewError (now : Timestamp) (index : Nat)
  | renewCrash (index : Nat)
  | claimReconciliation (now : Timestamp) (id : PaymentId)
  | reconcile (now : Timestamp) (payment : YooPayment)
  | reconcileError (now : Timestamp) (id : PaymentId)
  | expireGracePeriods (now : Timestamp)
  | cancel (org : OrganizationId)
  | resume (now : Timestamp) (org : OrganizationId)
  | reserveRefund (id : PaymentId) (key : Nat)
  | storeRefund (now : Timestamp) (org : OrganizationId) (key : Nat) (refund : YooRefund)
  | refundWebhook (now : Timestamp) (refund : YooRefund)
  | reconcileRefund (now : Timestamp) (refund : YooRefund)
  | anonymize (org : OrganizationId)
  | cleanup (now : Timestamp)
  deriving DecidableEq, Repr

/-- The system before the first payment. -/
def World.start (ownerEmail : OrganizationId → Option String) : World where
  db := { ownerEmail }

/-- The `current_period_end` of an organization. -/
def Database.periodEnd (db : Database) (org : OrganizationId) : Option Timestamp :=
  (db.subscriptions org).bind (·.currentPeriodEnd)

namespace World

/-- The tables after a committed transaction, with the history variables. -/
def commit (s : World) (db : Database) (effects : List Effect := []) : World :=
  { s with
    db
    log := effects ++ s.log
    epoch := fun org =>
      if db.periodEnd org = s.db.periodEnd org then s.epoch org else s.epoch org + 1 }

/-- The outcome of a request handler: a rejected request changes nothing. -/
def settle (s : World) : Except String (Database × List Effect) → World
  | .ok (db, effects) => s.commit db effects
  | .error _ => s

/-- The provider has the payment in this state or had it before. -/
def observed (s : World) (payment : YooPayment) : Bool := payment ∈ s.history payment.id

/-- The transaction started after the payment was charged and after its row was written. -/
def startedAfter (s : World) (now : Timestamp) (id : PaymentId) : Bool :=
  (s.charges id).all (·.claimedAt ≤ now) && (s.db.payments id).all (·.createdAt ≤ now)

/-- A provider payment never leaves `succeeded` or `canceled`. -/
def mayBecome (s : World) (payment : YooPayment) : Bool :=
  match s.history payment.id with
  | [] => false
  | last :: _ =>
    payment.metadata = last.metadata && (last.status.isOpen || payment.status = last.status)

/-- The provider creates a payment for a key it has not seen. -/
def create (s : World) (key : IdempotencyKey) (payment : YooPayment) : World :=
  { s with
    history := Function.update s.history payment.id [payment]
    issued := Function.update s.issued key (some payment.id) }

def step (cal : Calendar) (config : BillingConfig) (s : World) : Event → Option World
  | .providerUpdate payment =>
    if s.mayBecome payment then
      some { s with
        history := Function.update s.history payment.id (payment :: s.history payment.id) }
    else none
  | .checkoutCall org key payment =>
    if s.issued key = none ∧ s.history payment.id = []
        ∧ payment.metadata = some ⟨org, .initial⟩ then some (s.create key payment)
    else none
  | .checkoutStore now org key payment =>
    if s.issued key = some payment.id ∧ s.observed payment then
      some (s.settle ((checkoutStore config now org key payment s.db).map (·, [])))
    else none
  | .webhook now status payment =>
    if s.observed payment ∧ s.startedAfter now payment.id then
      some (s.settle (webhook cal config now status payment s.db))
    else none
  | .claimRenewal now org =>
    (s.db.dueRenewal now org).map fun item =>
      { s.commit (s.db.updateSubscription org (·.claim now)) with
        renewals := { item, claimedAt := now, epoch := s.epoch org } :: s.renewals }
  | .renewCall index payment =>
    match s.renewals[index]? with
    | some { item, claimedAt, response := none, epoch } =>
      let renewals := s.renewals.set index { item, claimedAt, response := some payment, epoch }
      match s.issued item.idempotencyKey with
      | some id =>
        if payment.id = id ∧ (s.history id).head? = some payment then some { s with renewals }
        else none
      | none =>
        if s.history payment.id = [] ∧ payment.metadata = some ⟨item.organizationId, .renewal⟩
        then some { s.create item.idempotencyKey payment with
          renewals
          charges := Function.update s.charges payment.id
            (some { organizationId := item.organizationId, claimedAt, epoch }) }
        else none
    | _ => none
  | .renewRecord now index =>
    match s.renewals[index]? with
    | some { item, claimedAt, response := some payment, .. } =>
      match renewRecord cal config now item payment s.db with
      | .ok (db, effects) =>
        if claimedAt ≤ now ∧ s.startedAfter now payment.id then
          some { s.commit db effects with renewals := s.renewals.eraseIdx index }
        else none
      | .error _ => none
    | _ => none
  | .renewError now index =>
    match s.renewals[index]? with
    | some { item, claimedAt, .. } =>
      if claimedAt ≤ now then
        some { s.commit (s.db.updateSubscription item.organizationId (·.renewFailed now)) with
          renewals := s.renewals.eraseIdx index }
      else none
    | none => none
  | .renewCrash index => some { s with renewals := s.renewals.eraseIdx index }
  | .claimReconciliation now id =>
    if (s.db.payments id).any (·.reconcilable now) then
      some (s.commit (s.db.updatePayment id
        ({ · with reconcileAfter := some (now + minutes 15) })))
    else none
  | .reconcile now payment =>
    match s.db.payments payment.id with
    | some row =>
      if s.observed payment ∧ s.startedAfter now payment.id then
        some (s.settle (.ok (applyPaymentLifecycle cal config now row.toLocal payment s.db)))
      else none
    | none => none
  | .reconcileError now id =>
    some (s.commit (s.db.updatePayment id fun row => { row with
      reconcileAfter := some (now + hours 1)
      reconciliationAttempts := row.reconciliationAttempts + 1 }))
  | .expireGracePeriods now => some (s.commit (expireGracePeriods now s.db))
  | .cancel org => some (s.commit (s.db.updateSubscription org (·.cancel)))
  | .resume now org =>
    some (s.commit (s.db.updateSubscription org fun row =>
      if row.resumable now then row.resume else row))
  | .reserveRefund id key => some (s.settle ((reserveRefund id key s.db).map (·, [])))
  | .storeRefund now org key refund =>
    some (s.settle ((storeRefund config now org key refund s.db).map (·, [])))
  | .refundWebhook now refund => some (s.settle ((refundWebhook now refund s.db).map (·, [])))
  | .reconcileRefund now refund => some (s.commit (reconcileRefund config now refund s.db))
  | .anonymize org => some (s.commit (anonymize org s.db))
  | .cleanup now => some (s.commit (cleanup now s.db))

/-- The steps of the billing system. -/
def Steps (cal : Calendar) (config : BillingConfig) : World → Event → World → Prop :=
  Transition.Stepping (step cal config)

end World

/-! ## A sample organization -/

/-- Midnight of 1 April 2026, UTC. -/
def april : Timestamp := 1775001600000000

/-- The system before the first payment, every organization with an owner. -/
def owned : World := .start fun _ => some "owner@example.com"

/-- A checkout payment of organization 1 that saves its payment method. -/
def checkoutPayment (status : PaymentStatus) (id : PaymentId := 10) : YooPayment where
  id := id
  status := status
  paid := status = .succeeded
  amount := ⟨"990.00", "RUB"⟩
  paymentMethod := some ⟨5, true⟩
  metadata := some ⟨1, .initial⟩

/-- A renewal payment of organization 1. -/
def renewalPayment (id : PaymentId) (status : PaymentStatus) : YooPayment where
  id := id
  status := status
  paid := status = .succeeded
  amount := ⟨"990.00", "RUB"⟩
  paymentMethod := some ⟨5, true⟩
  metadata := some ⟨1, .renewal⟩
  cancellationReason := if status = .canceled then some "insufficient_funds" else none

/-- The first month: organization 1 pays a checkout. -/
def subscribing : List Event :=
  [.checkoutCall 1 (.header 0) (checkoutPayment .pending),
   .checkoutStore april 1 (.header 0) (checkoutPayment .pending),
   .providerUpdate (checkoutPayment .succeeded),
   .webhook (april + minutes 1) .succeeded (checkoutPayment .succeeded)]

theorem subscribing_enabled :
    (Transition.exec (World.step .thirtyDays .default) owned subscribing).isSome := by
  decide +kernel

/-- Half an hour after the end of the first month. -/
def renewalDay : Timestamp := april + minutes 31 + hours 720

end Tonatiuh.Billing
