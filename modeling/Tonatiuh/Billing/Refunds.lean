import Mathlib.Data.List.Pairwise
import Tonatiuh.Billing.PaymentKeys

/-! Refunds with the provider and the requests in flight.

`POST /admin/payments/:id/refund` reserves a row, asks the provider under the idempotency key of the
request, and stores what it answered; the webhook and the reconciliation store what they fetched.
The reservation counts the rows of the payment that are not cancelled, under the lock of the payment
row. The three later statements write the status they carry, whatever the row says. -/

namespace Tonatiuh.Billing

/-! ## Statements of the billing system -/

/-- The events that write `billing_refunds`. -/
def Event.isRefund : Event → Bool
  | .reserveRefund .. | .storeRefund .. | .refundWebhook .. | .reconcileRefund .. => true
  | _ => false

/-- What the other statements leave of the refunds and of the amounts paid. -/
structure KeepsAmounts (db db' : Database) : Prop where
  refunds : db'.refunds = db.refunds
  payments : ∀ id row, db.payments id = some row →
    ∃ row', db'.payments id = some row' ∧ row'.amountKopecks = row.amountKopecks

namespace KeepsAmounts

variable {cal : Calendar} {config : BillingConfig} {db db' : Database}

theorem of_payments_eq (hrefunds : db'.refunds = db.refunds) (hpay : db'.payments = db.payments) :
    KeepsAmounts db db' :=
  ⟨hrefunds, fun id row hrow => ⟨row, by rw [hpay, hrow], rfl⟩⟩

theorem refl (db : Database) : KeepsAmounts db db := of_payments_eq rfl rfl

theorem trans {db'' : Database} (h₁ : KeepsAmounts db db') (h₂ : KeepsAmounts db' db'') :
    KeepsAmounts db db'' := by
  refine ⟨h₂.refunds.trans h₁.refunds, fun id row hrow => ?_⟩
  obtain ⟨row', hrow', ha⟩ := h₁.payments id row hrow
  obtain ⟨row'', hrow'', ha'⟩ := h₂.payments id row' hrow'
  exact ⟨row'', hrow'', ha'.trans ha⟩

/-- Other columns of payment rows are updated. -/
theorem of_map {f : PaymentId → BillingPayment → BillingPayment}
    (hrefunds : db'.refunds = db.refunds)
    (hpay : ∀ id, db'.payments id = (db.payments id).map (f id))
    (hf : ∀ id row, (f id row).amountKopecks = row.amountKopecks) : KeepsAmounts db db' :=
  ⟨hrefunds, fun id row hrow => ⟨f id row, by rw [hpay, hrow]; rfl, hf id row⟩⟩

theorem updatePayment {id : PaymentId} {f : BillingPayment → BillingPayment}
    (hf : ∀ row, (f row).amountKopecks = row.amountKopecks) :
    KeepsAmounts db (db.updatePayment id f) := by
  refine of_map (f := fun id' row => if id' = id then f row else row) rfl (fun id' => ?_)
    fun id' row => ?_
  · rw [Database.updatePayment_apply]
    split <;> simp
  · split
    · exact hf row
    · rfl

theorem insertPayment {row : BillingPayment} (hnone : db.payments row.providerPaymentId = none) :
    KeepsAmounts db (db.insertPayment row) := by
  refine ⟨rfl, fun id old hold => ⟨old, ?_, rfl⟩⟩
  rw [Database.insertPayment_apply, if_neg, hold]
  rintro rfl
  rw [hnone] at hold
  cases hold

theorem markEntitlementApplied {now : Timestamp} {id : PaymentId}
    (h : db.markEntitlementApplied now id = some db') : KeepsAmounts db db' := by
  unfold Database.markEntitlementApplied at h
  split at h <;> cases h
  exact updatePayment fun _ => rfl

theorem markFailureApplied {now : Timestamp} {id : PaymentId}
    (h : db.markFailureApplied now id = some db') : KeepsAmounts db db' := by
  unfold Database.markFailureApplied at h
  split at h <;> cases h
  exact updatePayment fun _ => rfl

theorem lifecycle (now : Timestamp) (localPayment : LocalPayment) (payment : YooPayment)
    (db : Database) :
    KeepsAmounts db (applyPaymentLifecycle cal config now localPayment payment db).1 := by
  have hstored : KeepsAmounts db
      (db.updatePayment payment.id (·.storeSnapshot config now payment)) :=
    updatePayment fun _ => rfl
  simp only [applyPaymentLifecycle]
  split
  · split
    · exact hstored
    · next hm => exact (hstored.trans (markEntitlementApplied hm)).trans (of_payments_eq rfl rfl)
  · split
    · exact hstored
    · split
      · exact hstored
      · next hm => exact (hstored.trans (markFailureApplied hm)).trans (of_payments_eq rfl rfl)

theorem renewStore {now : Timestamp} {item : Renewal} {payment : YooPayment}
    (h : Billing.renewStore config now item payment db = .ok db') : KeepsAmounts db db' := by
  unfold Billing.renewStore at h
  split at h
  · cases h; exact updatePayment fun _ => rfl
  split at h
  · cases h
  · next hrow _ =>
    cases h
    exact insertPayment (by simpa using hrow)

theorem checkoutStore {now : Timestamp} {org : OrganizationId} {key : IdempotencyKey}
    {payment : YooPayment} (h : Billing.checkoutStore config now org key payment db = .ok db') :
    KeepsAmounts db db' := by
  unfold Billing.checkoutStore at h
  split at h
  · cases h; exact refl db
  split at h
  · cases h
  · next _ hrow =>
    cases h
    exact insertPayment (by simpa using hrow)

/-- What a step that does not write refunds leaves. -/
theorem step {s s' : World} {e : Event} (h : World.Steps cal config s e s')
    (he : e.isRefund = false) : KeepsAmounts s.db s'.db := by
  unfold World.Steps Transition.Stepping at h
  cases e with
  | providerUpdate payment | checkoutCall org key payment =>
    simp only [World.step, Option.ite_none_right_eq_some] at h
    obtain ⟨-, h⟩ := h
    cases h; exact refl _
  | checkoutStore now org key payment =>
    simp only [World.step, Option.ite_none_right_eq_some] at h
    obtain ⟨-, h⟩ := h
    cases h
    cases hr : Billing.checkoutStore config now org key payment s.db with
    | error _ => exact refl _
    | ok db => exact checkoutStore hr
  | webhook now status payment =>
    simp only [World.step, Option.ite_none_right_eq_some] at h
    obtain ⟨-, h⟩ := h
    cases h
    cases hr : webhook cal config now status payment s.db with
    | error _ => exact refl _
    | ok r =>
      obtain ⟨row, -, ⟨-, rfl⟩ | ⟨-, rfl⟩⟩ := World.webhook_eq_ok hr
      · exact refl _
      · have hevent : KeepsAmounts s.db
            { s.db with events := .payment status payment.id :: s.db.events } :=
          of_payments_eq rfl rfl
        exact hevent.trans (lifecycle ..)
  | claimRenewal now org =>
    simp only [World.step, Option.map_eq_some_iff] at h
    obtain ⟨item, -, h⟩ := h
    cases h; exact of_payments_eq rfl rfl
  | renewCall index payment =>
    simp only [World.step] at h
    split at h
    · split at h
      · simp only [Option.ite_none_right_eq_some] at h
        obtain ⟨-, h⟩ := h
        cases h; exact refl _
      · simp only [Option.ite_none_right_eq_some] at h
        obtain ⟨-, h⟩ := h
        cases h; exact refl _
    · cases h
  | renewRecord now index =>
    simp only [World.step] at h
    split at h
    · next item claimedAt payment n hi =>
      split at h
      · next db effects hr =>
        simp only [Option.ite_none_right_eq_some] at h
        obtain ⟨-, h⟩ := h
        cases h
        obtain ⟨db₁, h₁, h₂⟩ := World.renewRecord_eq_ok hr
        have hdb : db = (applyPaymentLifecycle cal config now
            ⟨item.organizationId, payment.id, .renewal, item.attempt⟩ payment db₁).1 :=
          congrArg Prod.fst h₂
        have hkeeps : KeepsAmounts s.db db := hdb ▸ (renewStore h₁).trans (lifecycle ..)
        exact hkeeps
      · cases h
    · cases h
  | renewError now index =>
    simp only [World.step] at h
    split at h
    · simp only [Option.ite_none_right_eq_some] at h
      obtain ⟨-, h⟩ := h
      cases h; exact of_payments_eq rfl rfl
    · cases h
  | claimReconciliation now id =>
    simp only [World.step, Option.ite_none_right_eq_some] at h
    obtain ⟨-, h⟩ := h
    cases h; exact updatePayment fun _ => rfl
  | reconcile now payment =>
    simp only [World.step] at h
    split at h
    · simp only [Option.ite_none_right_eq_some] at h
      obtain ⟨-, h⟩ := h
      cases h; exact lifecycle ..
    · cases h
  | reconcileError now id => cases h; exact updatePayment fun _ => rfl
  | renewCrash index | expireGracePeriods now | cancel org | resume now org =>
    cases h; exact of_payments_eq rfl rfl
  | reserveRefund | storeRefund | refundWebhook | reconcileRefund => cases he
  | anonymize org =>
    cases h
    refine of_map (f := fun _ row =>
      if row.organizationId = org then { row with confirmationUrl := none } else row) rfl
      (fun _ => rfl) fun _ row => ?_
    split <;> rfl
  | cleanup now =>
    cases h
    refine of_map (f := fun _ row =>
      if row.createdAt + hours (90 * 24) < now then { row with confirmationUrl := none } else row)
      rfl (fun _ => rfl) fun _ row => ?_
    split <;> rfl

end KeepsAmounts

/-! ## The system -/

/-- A refund request between its reservation and its last transaction. -/
structure RefundCall where
  organizationId : OrganizationId
  paymentId : PaymentId
  key : Nat
  response : Option YooRefund := none
  deriving DecidableEq, Repr

/-- The billing system with the provider's refunds, newest state first, its memory of refund keys,
and the requests in flight. -/
structure RefundWorld where
  world : World
  history : RefundId → List YooRefund := fun _ => []
  issued : Nat → Option RefundId := fun _ => none
  calls : List RefundCall := []

inductive RefundEvent where
  /-- Any other event of the billing system. -/
  | billing (e : Event)
  /-- The provider moves a refund to a new state. -/
  | providerRefund (refund : YooRefund)
  | reserve (id : PaymentId) (key : Nat)
  /-- The provider answers a request with the refund of its key, or creates one. -/
  | call (index : Nat) (refund : YooRefund)
  | store (now : Timestamp) (index : Nat)
  | abort (index : Nat)
  | webhook (now : Timestamp) (refund : YooRefund)
  | claimReconciliation (now : Timestamp) (id : RefundId)
  | reconcile (now : Timestamp) (refund : YooRefund)
  | reconcileError (now : Timestamp) (id : RefundId)
  deriving DecidableEq, Repr

/-- `claimRefundReconciliation` for one refund. -/
def BillingRefund.reconcilable (now : Timestamp) (row : BillingRefund) : Bool :=
  row.status = .pending && row.providerRefundId.isSome && row.reconcileAfter.any (· ≤ now)

namespace RefundWorld

/-- The provider has the refund in this state or had it before. -/
def observed (s : RefundWorld) (refund : YooRefund) : Bool := refund ∈ s.history refund.id

/-- A refund the provider has cancelled stays cancelled. -/
def mayBecome (s : RefundWorld) (refund : YooRefund) : Bool :=
  match s.history refund.id with
  | [] => false
  | last :: _ => refund.paymentId = last.paymentId && refund.status ≠ .requested &&
      (last.status ≠ .canceled || refund.status = .canceled)

/-- The billing tables after a transaction. -/
def commit (s : RefundWorld) (db : Database) : RefundWorld := { s with world := s.world.commit db }

def step (cal : Calendar) (config : BillingConfig) (s : RefundWorld) :
    RefundEvent → Option RefundWorld
  | .billing e =>
    if e.isRefund then none
    else (World.step cal config s.world e).map fun world => { s with world }
  | .providerRefund refund =>
    if s.mayBecome refund then
      some { s with
        history := Function.update s.history refund.id (refund :: s.history refund.id) }
    else none
  | .reserve id key =>
    match reserveRefund id key s.world.db, s.world.db.payments id with
    | .ok db, some payment => some { s.commit db with
        calls := { organizationId := payment.organizationId, paymentId := id, key } :: s.calls }
    | _, _ => some s
  | .call index refund =>
    match s.calls[index]? with
    | some { organizationId, paymentId, key, response := none } =>
      let calls := s.calls.set index { organizationId, paymentId, key, response := some refund }
      match s.issued key with
      | some id =>
        if refund.id = id ∧ (s.history id).head? = some refund then some { s with calls } else none
      | none =>
        if s.history refund.id = [] ∧ refund.paymentId = paymentId ∧ refund.status ≠ .requested
        then some { s with
          calls
          history := Function.update s.history refund.id [refund]
          issued := Function.update s.issued key (some refund.id) }
        else none
    | _ => none
  | .store now index =>
    match s.calls[index]? with
    | some { organizationId, key, response := some refund, .. } =>
      let calls := s.calls.eraseIdx index
      match storeRefund config now organizationId key refund s.world.db with
      | .ok db => some { s.commit db with calls }
      | .error _ => some { s with calls }
    | _ => none
  | .abort index => some { s with calls := s.calls.eraseIdx index }
  | .webhook now refund =>
    if s.observed refund then
      match refundWebhook now refund s.world.db with
      | .ok db => some (s.commit db)
      | .error _ => some s
    else none
  | .claimReconciliation now id =>
    if s.world.db.refunds.any fun row => row.providerRefundId = some id && row.reconcilable now
    then some (s.commit (s.world.db.updateRefunds (·.providerRefundId = some id)
      ({ · with reconcileAfter := some (now + minutes 15) })))
    else none
  | .reconcile now refund =>
    if s.observed refund then some (s.commit (reconcileRefund config now refund s.world.db))
    else none
  | .reconcileError now id =>
    some (s.commit (s.world.db.updateRefunds (·.providerRefundId = some id) fun row => { row with
      reconcileAfter := some (now + hours 1)
      reconciliationAttempts := row.reconciliationAttempts + 1 }))

/-- The steps of refunds and billing. -/
def Steps (cal : Calendar) (config : BillingConfig) :
    RefundWorld → RefundEvent → RefundWorld → Prop :=
  Transition.Stepping (step cal config)

/-- The system before the first payment. -/
def start (ownerEmail : OrganizationId → Option String) : RefundWorld where
  world := .start ownerEmail

end RefundWorld

end Tonatiuh.Billing
