import Tonatiuh.Billing.Inversion

/-! The two ways in which a fetched payment reaches `applyPaymentLifecycle`: a notification of the
provider, and `reconcile` of `billing/renewals.ts`.

The handler of notifications compares the payment with the local row before it applies it.
`reconcile` applies what it has fetched. -/

namespace Tonatiuh.Billing

variable {cal : Calendar} {config : BillingConfig} {now : Timestamp} {db : Database}
  {payment : YooPayment}
  {row : BillingPayment}

/-- `reconcile` of a claimed row, with the payment fetched for it: the transaction. -/
def reconcile (cal : Calendar) (config : BillingConfig) (now : Timestamp) (item : LocalPayment)
    (payment : YooPayment) (db : Database) : Database × List Effect :=
  applyPaymentLifecycle cal config now item payment db

/-- The payment is the one that the row stands for: tenant, kind, currency and amount. -/
structure YooPayment.Matches (payment : YooPayment) (row : BillingPayment) : Prop where
  metadata : payment.metadata = some ⟨row.organizationId, row.kind⟩
  currency : payment.amount.currency = row.currency
  amount : kopecks payment.amount.value = some row.amountKopecks

instance (payment : YooPayment) (row : BillingPayment) : Decidable (payment.Matches row) :=
  decidable_of_iff (payment.metadata = some ⟨row.organizationId, row.kind⟩ ∧
      payment.amount.currency = row.currency ∧
        kopecks payment.amount.value = some row.amountKopecks)
    ⟨fun h => ⟨h.1, h.2.1, h.2.2⟩, fun h => ⟨h.metadata, h.currency, h.amount⟩⟩

/-- The paid period of the payment is added. -/
def grantsPeriod (id : PaymentId) (effects : List Effect) : Bool :=
  effects.any fun
    | .extended _ id' => id' = id
    | .dunned _ _ => false

/-- Reconciliation adds the paid period. -/
def ReconcileGrants (cal : Calendar) (config : BillingConfig) (now : Timestamp)
    (row : BillingPayment) (payment : YooPayment) (db : Database) : Prop :=
  grantsPeriod payment.id (reconcile cal config now row.toLocal payment db).2 = true

instance (cal : Calendar) (config : BillingConfig) (now : Timestamp) (row : BillingPayment)
    (payment : YooPayment) (db : Database) :
    Decidable (ReconcileGrants cal config now row payment db) :=
  inferInstanceAs (Decidable (_ = true))

/-- A notification about the payment adds it. -/
def WebhookGrants (cal : Calendar) (config : BillingConfig) (now : Timestamp) (payment : YooPayment)
    (db : Database) : Prop :=
  ∃ status r, webhook cal config now status payment db = .ok r ∧ grantsPeriod payment.id r.2 = true

theorem YooPayment.status_of_grants (h : payment.grants = true) : payment.status = .succeeded := by
  simp only [YooPayment.grants, Bool.and_eq_true, decide_eq_true_eq] at h
  exact h.1

/-- A lifecycle call adds the paid period of a payment that is paid and not yet marked. -/
theorem grantsPeriod_lifecycle_iff (hrow : (db.payments payment.id).isSome)
    (localPayment : LocalPayment) :
    grantsPeriod payment.id (applyPaymentLifecycle cal config now localPayment payment db).2 =
      true ↔
      payment.grants = true ∧ db.entitled payment.id = false := by
  constructor
  · intro h
    obtain ⟨-, hout⟩ := applyPaymentLifecycle_cases cal config now localPayment payment db
    generalize applyPaymentLifecycle cal config now localPayment payment db = r at h hout
    cases hout with
    | ignored => cases h
    | extended hg hun => exact ⟨hg, hun⟩
    | dunned => cases h
  · rintro ⟨hg, hun⟩
    rw [(applyPaymentLifecycle_grants cal config now localPayment payment hg hrow hun).1]
    simp [grantsPeriod]

/-- The event that is recorded before it makes no difference. -/
theorem grantsPeriod_notified_iff (hrow : (db.payments payment.id).isSome)
    (localPayment : LocalPayment) (event : ProviderEventId) :
    grantsPeriod payment.id (applyPaymentLifecycle cal config now localPayment payment
        { db with events := event :: db.events }).2 = true ↔
      payment.grants = true ∧ db.entitled payment.id = false := by
  have hrow' : (({ db with events := event :: db.events } : Database).payments payment.id).isSome :=
    hrow
  exact grantsPeriod_lifecycle_iff hrow' localPayment

/-- What a notification about a payment is refused for. -/
theorem verifyNotification_eq_ok_iff (hrow : db.payments payment.id = some row) :
    verifyNotification status payment db = .ok row ↔
      status ≠ .pending ∧ status = payment.status ∧ payment.Matches row := by
  constructor
  · intro h
    simp only [verifyNotification, hrow] at h
    split at h
    next => cases h
    next hpending =>
    split at h
    next => cases h
    next hstatus =>
    split at h
    next => cases h
    next hmatch =>
    rw [not_or, Decidable.not_not, Decidable.not_not] at hmatch
    split at h
    next => cases h
    next value hvalue =>
    split at h
    next => cases h
    next hamount =>
      exact ⟨hpending, Decidable.not_not.mp hstatus, hmatch.1, hmatch.2,
        hvalue.trans (congrArg some (Decidable.not_not.mp hamount))⟩
  · rintro ⟨hpending, rfl, hmatch⟩
    simp [verifyNotification, hrow, hpending, hmatch.metadata, hmatch.currency, hmatch.amount]

/-- A notification adds the paid period of a payment that matches its row, once. -/
theorem webhookGrants_iff (hrow : db.payments payment.id = some row) :
    WebhookGrants cal config now payment db ↔
      payment.grants = true ∧ db.entitled payment.id = false ∧ payment.Matches row ∧
        .payment .succeeded payment.id ∉ db.events := by
  have hsome : (db.payments payment.id).isSome := Option.isSome_of_eq_some hrow
  constructor
  · rintro ⟨status, r, hr, hgrants⟩
    obtain ⟨row', hverify, hcase⟩ := World.webhook_eq_ok hr
    obtain rfl := Option.some.inj (hrow.symm.trans (World.verifyNotification_eq_ok hverify))
    obtain ⟨-, rfl, hmatch⟩ := (verifyNotification_eq_ok_iff hrow).mp hverify
    obtain ⟨-, rfl⟩ | ⟨hnew, rfl⟩ := hcase
    · cases hgrants
    obtain ⟨hg, hun⟩ := (grantsPeriod_notified_iff hsome _ _).mp hgrants
    refine ⟨hg, hun, hmatch, ?_⟩
    rwa [YooPayment.status_of_grants hg] at hnew
  · rintro ⟨hg, hun, hmatch, hnew⟩
    have hverify : verifyNotification .succeeded payment db = .ok row :=
      (verifyNotification_eq_ok_iff hrow).mpr
      ⟨nofun, (YooPayment.status_of_grants hg).symm, hmatch⟩
    have hok : webhook cal config now .succeeded payment db =
        .ok (applyPaymentLifecycle cal config now
        row.toLocal payment { db with events := .payment .succeeded payment.id :: db.events }) := by
      simp only [webhook, hverify, bind, Except.bind, if_neg hnew]
    exact ⟨.succeeded, _, hok, (grantsPeriod_notified_iff hsome _ _).mpr ⟨hg, hun⟩⟩

/-- Reconciliation and the notification grant alike, and reconciliation only what matches its
row. -/
def EntitlementAgrees (cal : Calendar) (config : BillingConfig) (now : Timestamp)
    (row : BillingPayment) (payment : YooPayment) (db : Database) : Prop :=
  (ReconcileGrants cal config now row payment db ↔ WebhookGrants cal config now payment db) ∧
    (ReconcileGrants cal config now row payment db → payment.Matches row)

/-- They do exactly for payments that are not to be granted any more, and for those that match the
row and whose success has not been notified before. -/
theorem entitlement_agrees_iff (hrow : db.payments payment.id = some row) :
    EntitlementAgrees cal config now row payment db ↔
      (payment.grants = true → row.entitlementAppliedAt = none →
        payment.Matches row ∧ .payment .succeeded payment.id ∉ db.events) := by
  have hunmarked : db.entitled payment.id = false ↔ row.entitlementAppliedAt = none := by
    simp [Database.entitled, hrow]
  have hreconcile : ReconcileGrants cal config now row payment db ↔
      payment.grants = true ∧ row.entitlementAppliedAt = none := by
    rw [← hunmarked]
    exact grantsPeriod_lifecycle_iff (Option.isSome_of_eq_some hrow) _
  rw [EntitlementAgrees, hreconcile, webhookGrants_iff hrow, hunmarked]
  constructor
  · rintro ⟨hagree, -⟩ hg hun
    exact (hagree.mp ⟨hg, hun⟩).2.2
  · intro h
    refine ⟨⟨?_, ?_⟩, ?_⟩
    · rintro ⟨hg, hun⟩
      exact ⟨hg, hun, h hg hun⟩
    · rintro ⟨hg, hun, -⟩
      exact ⟨hg, hun⟩
    · rintro ⟨hg, hun⟩
      exact (h hg hun).1

/-- The tables while the checkout of organization 1 is pending. -/
def checkoutPending : Database :=
  Database.insertPayment {}
    { organizationId := 1, providerPaymentId := 10, idempotencyKey := .header 0, kind := .initial
      status := .pending, amountKopecks := 99000, createdAt := april }

/-- The checkout is paid in full, and is granted on both ways. -/
theorem entitlement_agrees_iff_paidInFull :
    EntitlementAgrees .thirtyDays .default april
      { organizationId := 1, providerPaymentId := 10, idempotencyKey := .header 0, kind := .initial
        status := .pending, amountKopecks := 99000, createdAt := april }
      (checkoutPayment .succeeded) checkoutPending :=
  (entitlement_agrees_iff (by decide)).mpr (by decide)

/-- A checkout of one rouble that belongs to another organization. -/
def foreignPayment : YooPayment :=
  { checkoutPayment .succeeded with amount := ⟨"1.00", "RUB"⟩, metadata := some ⟨2, .initial⟩ }

/-- Reconciliation grants a month for it. -/
theorem foreign_payment_granted :
    ¬ EntitlementAgrees .thirtyDays .default april
      { organizationId := 1, providerPaymentId := 10, idempotencyKey := .header 0, kind := .initial
        status := .pending, amountKopecks := 99000, createdAt := april }
      foreignPayment checkoutPending := fun h => absurd (h.2 (by decide)) (by decide)

end Tonatiuh.Billing
