import Tonatiuh.Billing.World

/-! What one step of the billing system can do.

`Database.Grows` is what every statement preserves of the payment rows: their identity, and their
markers once set. `applyPaymentLifecycle_cases` and `World.step_outcome` say what a lifecycle
call and a step do to the subscriptions; the invariants of the system are derived from them and
never unfold a statement again. -/

namespace Tonatiuh.Billing

/-! ## Payment rows -/

/-- The later row of the same payment: same identity, and no marker is taken back. -/
structure BillingPayment.Continues (row row' : BillingPayment) : Prop where
  organizationId : row'.organizationId = row.organizationId
  idempotencyKey : row'.idempotencyKey = row.idempotencyKey
  kind : row'.kind = row.kind
  attemptNumber : row'.attemptNumber = row.attemptNumber
  createdAt : row'.createdAt = row.createdAt
  entitlement : row.entitlementAppliedAt.isSome → row'.entitlementAppliedAt.isSome
  failure : row.failureAppliedAt.isSome → row'.failureAppliedAt.isSome

theorem BillingPayment.Continues.refl (row : BillingPayment) : row.Continues row :=
  ⟨rfl, rfl, rfl, rfl, rfl, id, id⟩

theorem BillingPayment.Continues.trans {a b c : BillingPayment} (h₁ : a.Continues b)
    (h₂ : b.Continues c) : a.Continues c :=
  ⟨h₂.1.trans h₁.1, h₂.2.trans h₁.2, h₂.3.trans h₁.3, h₂.4.trans h₁.4, h₂.5.trans h₁.5,
    h₂.6 ∘ h₁.6, h₂.7 ∘ h₁.7⟩

theorem BillingPayment.storeSnapshot_continues (config : BillingConfig) (now : Timestamp)
    (payment : YooPayment) (row : BillingPayment) :
    row.Continues (row.storeSnapshot config now payment) :=
  ⟨rfl, rfl, rfl, rfl, rfl, id, id⟩

/-- One payment id before and after: no row, the same payment's row, or a new row. -/
inductive RowStep (New : BillingPayment → Prop) :
    Option BillingPayment → Option BillingPayment → Prop where
  | none : RowStep New none none
  | kept : row.Continues row' → RowStep New (some row) (some row')
  | new : New row → RowStep New none (some row)

/-- Every payment row of `db` lives on in `db'`, and the rows that are new satisfy `New`. -/
def Database.Grows (New : PaymentId → BillingPayment → Prop) (db db' : Database) : Prop :=
  ∀ id, RowStep (New id) (db.payments id) (db'.payments id)

/-- No row is added or removed, and every row keeps its identity and its markers. -/
abbrev Database.Continues (db db' : Database) : Prop := db.Grows (fun _ _ => False) db'

namespace Database

theorem Grows.of_payments_eq {db db' : Database} (h : db'.payments = db.payments) :
    db.Grows New db' := by
  intro id
  rw [h]
  cases db.payments id with
  | none => exact .none
  | some row => exact .kept (.refl row)

theorem Grows.refl (db : Database) : db.Grows New db := .of_payments_eq rfl

theorem Grows.after {a b c : Database} (h₁ : a.Continues b) (h₂ : b.Grows New c) :
    a.Grows New c := by
  intro id
  have h₁ := h₁ id
  have h₂ := h₂ id
  generalize a.payments id = ra, b.payments id = rb, c.payments id = rc at h₁ h₂ ⊢
  cases h₁ with
  | none => exact h₂
  | kept c₁ => cases h₂ with | kept c₂ => exact .kept (c₁.trans c₂)
  | new h => exact h.elim

theorem Grows.then {a b c : Database} (h₁ : a.Grows New b) (h₂ : b.Continues c)
    (hnew : ∀ {id row row'}, New id row → row.Continues row' → New id row') :
    a.Grows New c := by
  intro id
  have h₁ := h₁ id
  have h₂ := h₂ id
  generalize a.payments id = ra, b.payments id = rb, c.payments id = rc at h₁ h₂ ⊢
  cases h₁ with
  | none => cases h₂ with | none => exact .none | new h => exact h.elim
  | kept c₁ => cases h₂ with | kept c₂ => exact .kept (c₁.trans c₂)
  | new h => cases h₂ with | kept c₂ => exact .new (hnew h c₂)

theorem Grows.trans {a b c : Database} (h₁ : a.Continues b) (h₂ : b.Continues c) :
    a.Continues c := .after h₁ h₂

theorem Grows.of_continues {db db' : Database} (h : db.Continues db') : db.Grows New db' :=
  .after h (.refl _)

theorem Grows.kept {db db' : Database} (h : db.Grows New db') {id : PaymentId}
    (hrow : db.payments id = some row) :
    ∃ row', db'.payments id = some row' ∧ row.Continues row' := by
  have h := h id
  rw [hrow] at h
  generalize db'.payments id = r at h
  cases h with | kept c => exact ⟨_, rfl, c⟩

/-- Where a row of the later tables comes from. -/
theorem Grows.origin {db db' : Database} (h : db.Grows New db') {id : PaymentId}
    (hrow : db'.payments id = some row') :
    (∃ row, db.payments id = some row ∧ row.Continues row') ∨
      db.payments id = none ∧ New id row' := by
  have h := h id
  rw [hrow] at h
  generalize db.payments id = r at h
  cases h with
  | kept c => exact .inl ⟨_, rfl, c⟩
  | new h => exact .inr ⟨rfl, h⟩

theorem Grows.of_map {db db' : Database} {f : PaymentId → BillingPayment → BillingPayment}
    (hdb : ∀ id, db'.payments id = (db.payments id).map (f id))
    (hf : ∀ id (row : BillingPayment), row.Continues (f id row)) : db.Continues db' := by
  intro id
  rw [hdb]
  cases db.payments id with
  | none => exact .none
  | some row => exact .kept (hf id row)

theorem updatePayment_continues (db : Database) (id : PaymentId)
    {f : BillingPayment → BillingPayment} (hf : ∀ row : BillingPayment, row.Continues (f row)) :
    db.Continues (db.updatePayment id f) := by
  refine .of_map (f := fun id' row => if id' = id then f row else row) (fun id' => ?_)
    fun id' row => ?_
  · rw [updatePayment_apply]
    split <;> simp
  · split
    · exact hf row
    · exact .refl row

theorem insertPayment_grows {db : Database} {row : BillingPayment}
    (h : db.payments row.providerPaymentId = none) (hnew : New row.providerPaymentId row) :
    db.Grows New (db.insertPayment row) := by
  intro id
  rw [insertPayment_apply]
  split
  · next he => subst he; rw [h]; exact .new hnew
  · cases db.payments id with
    | none => exact .none
    | some row => exact .kept (.refl row)

/-- The extension marker of a payment is set. -/
def entitled (db : Database) (id : PaymentId) : Bool :=
  (db.payments id).any (·.entitlementAppliedAt.isSome)

/-- The failure marker of a payment is set. -/
def failed (db : Database) (id : PaymentId) : Bool :=
  (db.payments id).any (·.failureAppliedAt.isSome)

theorem Grows.entitled {db db' : Database} (h : db.Grows New db') {id : PaymentId}
    (he : db.entitled id) : db'.entitled id := by
  obtain ⟨row, hrow, hm⟩ := (Option.any_eq_true _ _).mp he
  obtain ⟨row', hrow', hc⟩ := h.kept hrow
  exact (Option.any_eq_true _ _).mpr ⟨row', hrow', hc.entitlement hm⟩

theorem Grows.failed {db db' : Database} (h : db.Grows New db') {id : PaymentId}
    (he : db.failed id) : db'.failed id := by
  obtain ⟨row, hrow, hm⟩ := (Option.any_eq_true _ _).mp he
  obtain ⟨row', hrow', hc⟩ := h.kept hrow
  exact (Option.any_eq_true _ _).mpr ⟨row', hrow', hc.failure hm⟩

/-- What a successful marker update does. -/
theorem markEntitlementApplied_eq_some {db db' : Database} {now : Timestamp} {id : PaymentId}
    (h : db.markEntitlementApplied now id = some db') :
    db.entitled id = false ∧ db'.entitled id ∧ db.Continues db' ∧
      db'.subscriptions = db.subscriptions ∧ db'.failed = db.failed := by
  unfold markEntitlementApplied at h
  split at h
  · next hrow =>
    cases h
    refine ⟨by simp [entitled, hrow], by simp [entitled, updatePayment_apply, hrow],
      updatePayment_continues _ _ fun row => ⟨rfl, rfl, rfl, rfl, rfl, fun _ => rfl, fun h => h⟩,
        rfl, ?_⟩
    funext id'
    by_cases he : id' = id
    · subst he; simp [failed, updatePayment_apply, hrow]
    · simp [failed, updatePayment_apply, he]
  · cases h

theorem markFailureApplied_eq_some {db db' : Database} {now : Timestamp} {id : PaymentId}
    (h : db.markFailureApplied now id = some db') :
    db.failed id = false ∧ db'.failed id ∧ db.Continues db' ∧
      db'.subscriptions = db.subscriptions ∧ db'.entitled = db.entitled := by
  unfold markFailureApplied at h
  split at h
  · next hrow =>
    cases h
    refine ⟨by simp [failed, hrow], by simp [failed, updatePayment_apply, hrow],
      updatePayment_continues _ _ fun row => ⟨rfl, rfl, rfl, rfl, rfl, fun h => h, fun _ => rfl⟩,
        rfl, ?_⟩
    funext id'
    by_cases he : id' = id
    · subst he; simp [entitled, updatePayment_apply, hrow]
    · simp [entitled, updatePayment_apply, he]
  · cases h

/-- An update of other columns keeps both markers. -/
theorem updatePayment_markers (db : Database) (id : PaymentId)
    {f : BillingPayment → BillingPayment}
    (he : ∀ row, (f row).entitlementAppliedAt = row.entitlementAppliedAt)
    (hf : ∀ row, (f row).failureAppliedAt = row.failureAppliedAt) :
    (db.updatePayment id f).entitled = db.entitled ∧
      (db.updatePayment id f).failed = db.failed := by
  constructor <;> funext id' <;> simp only [entitled, failed, updatePayment_apply] <;>
    split <;> cases db.payments id' <;> simp [he, hf]

end Database

/-! ## Lifecycle calls -/

section
variable (cal : Calendar) (config : BillingConfig) (now : Timestamp)
  (localPayment : LocalPayment) (payment : YooPayment)

/-- The three things a lifecycle call can do. -/
inductive LifecycleOutcome (db : Database) : Database × List Effect → Prop where
  | ignored : db'.subscriptions = db.subscriptions → LifecycleOutcome db (db', [])
  | extended : payment.grants → db.entitled payment.id = false → db'.entitled payment.id →
    db'.subscriptions = (db.upsertSubscription localPayment.organizationId
      (Subscription.extend cal now payment)).subscriptions →
    LifecycleOutcome db (db', [.extended localPayment.organizationId payment.id])
  | dunned : payment.status = .canceled → localPayment.kind = .renewal →
    db.failed payment.id = false → db'.failed payment.id →
    db'.subscriptions = (db.updateSubscription localPayment.organizationId
      (·.dun cal config now payment localPayment.attemptNumber)).subscriptions →
    LifecycleOutcome db (db', [.dunned localPayment.organizationId payment.id])

theorem applyPaymentLifecycle_cases (db : Database) :
    db.Continues (applyPaymentLifecycle cal config now localPayment payment db).1 ∧
      LifecycleOutcome cal config now localPayment payment db
        (applyPaymentLifecycle cal config now localPayment payment db) := by
  have hc := db.updatePayment_continues payment.id
    (BillingPayment.storeSnapshot_continues config now payment)
  obtain ⟨hent, hfail⟩ := db.updatePayment_markers payment.id
    (f := (·.storeSnapshot config now payment)) (fun _ => rfl) fun _ => rfl
  simp only [applyPaymentLifecycle]
  split
  · next hg =>
    split
    · exact ⟨hc, .ignored rfl⟩
    · next db' hm =>
      obtain ⟨hun, hmk, hc', hsub, -⟩ := Database.markEntitlementApplied_eq_some hm
      refine ⟨hc.trans (hc'.trans (.of_payments_eq rfl)), .extended hg ?_ hmk ?_⟩
      · rw [← hent]; exact hun
      · simp [Database.upsertSubscription, hsub]
  · split
    · exact ⟨hc, .ignored rfl⟩
    · next hk =>
      rw [not_or, Decidable.not_not, Decidable.not_not] at hk
      split
      · exact ⟨hc, .ignored rfl⟩
      · next db' hm =>
        obtain ⟨hun, hmk, hc', hsub, -⟩ := Database.markFailureApplied_eq_some hm
        refine ⟨hc.trans (hc'.trans (.of_payments_eq rfl)), .dunned hk.1 hk.2 ?_ hmk ?_⟩
        · rw [← hfail]; exact hun
        · simp [Database.updateSubscription, hsub]

/-- The upsert of a succeeded payment sets the period end one month after the later of the old
period end and now. -/
theorem extend_currentPeriodEnd (o : Option Subscription) :
    (Subscription.extend cal now payment o).currentPeriodEnd =
      some (extendedPeriodEnd cal now (o.bind (·.currentPeriodEnd))) := by
  cases o <;> rfl

theorem extend_retryCount (o : Option Subscription) :
    (Subscription.extend cal now payment o).retryCount = 0 := by
  cases o <;> rfl

/-- The success branch is taken whenever the row exists and carries no marker yet. -/
theorem applyPaymentLifecycle_grants {db : Database} (hg : payment.grants)
    (hrow : (db.payments payment.id).isSome) (hun : db.entitled payment.id = false) :
    (applyPaymentLifecycle cal config now localPayment payment db).2 =
        [.extended localPayment.organizationId payment.id] ∧
      (applyPaymentLifecycle cal config now localPayment payment db).1.subscriptions =
        (db.upsertSubscription localPayment.organizationId
          (Subscription.extend cal now payment)).subscriptions := by
  obtain ⟨row, hrow⟩ := Option.isSome_iff_exists.mp hrow
  have hnone : row.entitlementAppliedAt = none := by simpa [Database.entitled, hrow] using hun
  simp [applyPaymentLifecycle, hg, Database.markEntitlementApplied, Database.updatePayment_apply,
    hrow, BillingPayment.storeSnapshot, hnone, Database.upsertSubscription]

end

theorem applyRefundLifecycle_payments (now : Timestamp) (refund : YooRefund) (db : Database) :
    (applyRefundLifecycle now refund db).payments = db.payments := by
  unfold applyRefundLifecycle
  split
  · rfl
  · split <;> rfl

theorem applyRefundLifecycle_subscriptions (now : Timestamp) (refund : YooRefund) (db : Database)
    (org : OrganizationId) :
    (applyRefundLifecycle now refund db).subscriptions org = db.subscriptions org ∨
      ∃ row, db.subscriptions org = some row ∧ row.lastPaymentId = some refund.paymentId ∧
        (applyRefundLifecycle now refund db).subscriptions org = some (row.refund now) := by
  unfold applyRefundLifecycle
  split
  · exact .inl rfl
  split
  · cases hrow : db.subscriptions org with
    | none => exact .inl (by simp [hrow])
    | some row =>
      simp only [Database.updateRefunds_subscriptions, hrow, Option.map_some]
      split
      · next hlast => exact .inr ⟨row, rfl, hlast.1, rfl⟩
      · exact .inl rfl
  · exact .inl rfl

/-! ## Steps -/

/-- A call of `applyPaymentLifecycle`: by the webhook, a renewal response or reconciliation. -/
structure Delivery where
  now : Timestamp
  localPayment : LocalPayment
  payment : YooPayment

/-- The lifecycle call an event makes, if there is one. -/
def World.delivery (s : World) : Event → Option Delivery
  | .webhook now status payment =>
    match verifyNotification status payment s.db with
    | .ok row =>
      if .payment status payment.id ∈ s.db.events then none
      else some ⟨now, row.toLocal, payment⟩
    | .error _ => none
  | .reconcile now payment =>
    (s.db.payments payment.id).map fun row => ⟨now, row.toLocal, payment⟩
  | .renewRecord now index =>
    match s.renewals[index]? with
    | some { item, response := some payment, .. } =>
      some ⟨now, ⟨item.organizationId, payment.id, .renewal, item.attempt⟩, payment⟩
    | _ => none
  | _ => none

theorem World.delivery_webhook {s : World} {payment : YooPayment}
    (h : s.delivery (.webhook now status payment) = some d) :
    d.now = now ∧ d.payment = payment := by
  simp only [delivery] at h
  split at h
  · split at h <;> cases h
    exact ⟨rfl, rfl⟩
  · cases h

/-- The event applies the success of a payment to this organization for the first time. -/
structure World.Grants (s : World) (org : OrganizationId) (e : Event) (d : Delivery) : Prop where
  delivery : s.delivery e = some d
  organizationId : d.localPayment.organizationId = org
  grants : d.payment.grants
  fresh : s.db.entitled d.payment.id = false

/-- The event applies the cancellation of a renewal to this organization for the first time. -/
structure World.Duns (s : World) (org : OrganizationId) (e : Event) (d : Delivery) : Prop where
  delivery : s.delivery e = some d
  organizationId : d.localPayment.organizationId = org
  canceled : d.payment.status = .canceled
  kind : d.localPayment.kind = .renewal
  fresh : s.db.failed d.payment.id = false

/-- The refund an event can apply, with the time of its transaction. -/
def Event.refund : Event → Option (Timestamp × YooRefund)
  | .storeRefund now _ _ refund | .refundWebhook now refund | .reconcileRefund now refund =>
    some (now, refund)
  | _ => none

/-- The changes of one subscription by an event that makes no lifecycle call. -/
inductive Routine (s : World) (org : OrganizationId) :
    Event → Option Subscription → Option Subscription → Prop where
  | same : Routine s org e o o
  | claim : s.db.dueRenewal now org = some item →
    Routine s org (.claimRenewal now org) (some row) (some (row.claim now))
  | renewFailed : s.renewals[index]? = some flight → flight.item.organizationId = org →
    flight.claimedAt ≤ now →
    Routine s org (.renewError now index) (some row) (some (row.renewFailed now))
  | cancel : Routine s org (.cancel org) (some row) (some row.cancel)
  | resume : row.resumable now → Routine s org (.resume now org) (some row) (some row.resume)
  | refund : e.refund = some (now, r) → row.lastPaymentId = some r.paymentId →
    Routine s org e (some row) (some (row.refund now))
  | expire : Routine s org (.expireGracePeriods now) (some row) (some (row.expire now))
  | anonymize : Routine s org (.anonymize org) (some row) (some row.anonymize)

/-- What a step does to the subscriptions and to the log of effects. -/
inductive World.Outcome (cal : Calendar) (config : BillingConfig) (s : World) (e : Event)
    (s' : World) : Prop where
  | routine : s'.log = s.log →
    (∀ org, Routine s org e (s.db.subscriptions org) (s'.db.subscriptions org)) →
    Outcome cal config s e s'
  | extended (d : Delivery) : s.delivery e = some d → d.payment.grants →
    s.db.entitled d.payment.id = false → s'.db.entitled d.payment.id →
    s'.log = .extended d.localPayment.organizationId d.payment.id :: s.log →
    s'.db.subscriptions = (s.db.upsertSubscription d.localPayment.organizationId
      (Subscription.extend cal d.now d.payment)).subscriptions →
    Outcome cal config s e s'
  | dunned (d : Delivery) : s.delivery e = some d → d.payment.status = .canceled →
    d.localPayment.kind = .renewal → s.db.failed d.payment.id = false →
    s'.db.failed d.payment.id →
    s'.log = .dunned d.localPayment.organizationId d.payment.id :: s.log →
    s'.db.subscriptions = (s.db.updateSubscription d.localPayment.organizationId
      (·.dun cal config d.now d.payment d.localPayment.attemptNumber)).subscriptions →
    Outcome cal config s e s'

namespace World

variable {cal : Calendar} {config : BillingConfig} {s : World}

@[simp] theorem commit_db (db : Database) : (s.commit db effects).db = db := rfl

@[simp] theorem commit_log (db : Database) : (s.commit db effects).log = effects ++ s.log := rfl

/-- A step that commits tables with the same subscriptions and no effects. -/
theorem Outcome.quiet {s' : World} (hlog : s'.log = s.log)
    (hsub : s'.db.subscriptions = s.db.subscriptions) : Outcome cal config s e s' :=
  .routine hlog fun org => by rw [hsub]; exact .same

/-- The outcome of a lifecycle call on tables that differ from the current ones only in rows
that carry no marker. -/
theorem Outcome.of_lifecycle {s' : World} {d : Delivery} (db : Database)
    (hd : s.delivery e = some d) (hsub : db.subscriptions = s.db.subscriptions)
    (hent : db.entitled = s.db.entitled) (hfail : db.failed = s.db.failed)
    (hdb : s'.db = (applyPaymentLifecycle cal config d.now d.localPayment d.payment db).1)
    (hlog : s'.log =
      (applyPaymentLifecycle cal config d.now d.localPayment d.payment db).2 ++ s.log) :
    Outcome cal config s e s' := by
  have h := (applyPaymentLifecycle_cases cal config d.now d.localPayment d.payment db).2
  generalize applyPaymentLifecycle cal config d.now d.localPayment d.payment db = r at h hdb hlog
  cases h with
  | ignored h => exact .quiet hlog (by rw [hdb]; exact h.trans hsub)
  | extended hg hun hmk h =>
    refine .extended d hd hg (hent ▸ hun) (hdb ▸ hmk) hlog ?_
    rw [hdb]
    exact h.trans (by simp only [Database.upsertSubscription, hsub])
  | dunned hc hk hun hmk h =>
    refine .dunned d hd hc hk (hfail ▸ hun) (hdb ▸ hmk) hlog ?_
    rw [hdb]
    exact h.trans (by simp only [Database.updateSubscription, hsub])

/-- The outcome of an UPDATE of one subscription. -/
theorem Outcome.update {s' : World} {org : OrganizationId} {f : Subscription → Subscription}
    (hdb : s'.db = s.db.updateSubscription org f) (hlog : s'.log = s.log)
    (hf : ∀ row, s.db.subscriptions org = some row → Routine s org e (some row) (some (f row))) :
    Outcome cal config s e s' := by
  refine .routine hlog fun org' => ?_
  rw [hdb, Database.updateSubscription_apply]
  split
  · next h =>
    subst h
    cases hrow : s.db.subscriptions org' with
    | none => exact .same
    | some row => exact hf row hrow
  · exact .same

/-- The outcome of a request handler that leaves the subscriptions alone. -/
theorem Outcome.settle_quiet {r : Except String Database}
    (h : ∀ db, r = .ok db → db.subscriptions = s.db.subscriptions) :
    Outcome cal config s e (s.settle (r.map (·, []))) := by
  cases r with
  | error _ => exact .quiet rfl rfl
  | ok db => exact .quiet rfl (h db rfl)

/-- The outcome of a transaction that ends with `applyRefundLifecycle`. -/
theorem Outcome.of_refund {s' : World} (db : Database) {refund : YooRefund}
    (hrefund : e.refund = some (now, refund)) (hsub : db.subscriptions = s.db.subscriptions)
    (hdb : s'.db = applyRefundLifecycle now refund db) (hlog : s'.log = s.log) :
    Outcome cal config s e s' := by
  refine .routine hlog fun org => ?_
  rw [hdb]
  rcases applyRefundLifecycle_subscriptions now refund db org with h | ⟨row, hrow, hlast, h⟩
  · rw [h, hsub]; exact .same
  · rw [h, ← hsub, hrow]; exact .refund hrefund hlast

theorem checkoutStore_subscriptions {db : Database} {key : IdempotencyKey} {payment : YooPayment}
    (h : checkoutStore config now org key payment db = .ok db') :
    db'.subscriptions = db.subscriptions := by
  unfold checkoutStore at h
  split at h
  · cases h; rfl
  split at h
  · cases h
  · cases h; rfl

theorem reserveRefund_subscriptions {db : Database} {id : PaymentId}
    (h : reserveRefund id key db = .ok db') :
    db'.subscriptions = db.subscriptions ∧ db'.payments = db.payments := by
  unfold reserveRefund at h
  split at h
  · cases h
  split at h
  · cases h
  split at h
  · split at h <;> cases h
    exact ⟨rfl, rfl⟩
  · split at h <;> cases h
    exact ⟨rfl, rfl⟩

/-- The rows a step can add, and the request they come from. -/
inductive NewRow (s : World) : Event → PaymentId → BillingPayment → Prop where
  | checkout : row.kind = .initial → NewRow s (.checkoutStore now org key payment) payment.id row
  | renewal : s.renewals[index]? = some ⟨item, claimedAt, some payment, n⟩ →
    row.organizationId = item.organizationId → row.idempotencyKey = item.idempotencyKey →
    row.kind = .renewal → row.attemptNumber = item.attempt → row.createdAt = now →
    NewRow s (.renewRecord now index) payment.id row

theorem NewRow.continues {id : PaymentId} (h : s.NewRow e id row) (hc : row.Continues row') :
    s.NewRow e id row' := by
  cases h with
  | checkout hk => exact .checkout (hc.kind.trans hk)
  | renewal hi h₁ h₂ h₃ h₄ h₅ =>
    exact .renewal hi (hc.1.trans h₁) (hc.2.trans h₂) (hc.3.trans h₃) (hc.4.trans h₄)
      (hc.5.trans h₅)

theorem checkoutStore_grows {key : IdempotencyKey} {payment : YooPayment}
    (h : checkoutStore config now org key payment s.db = .ok db') :
    s.db.Grows (s.NewRow (.checkoutStore now org key payment)) db' := by
  unfold checkoutStore at h
  split at h
  · cases h; exact .refl _
  split at h
  · cases h
  · next hn =>
    cases h
    exact Database.insertPayment_grows (by simpa using hn) (.checkout rfl)

/-- What the insert of `renew` does when it does not violate a unique index. -/
theorem renewStore_eq_ok {payment : YooPayment}
    (hi : s.renewals[index]? = some ⟨item, claimedAt, some payment, n⟩)
    (h : renewStore config now item payment s.db = .ok db') :
    s.db.Grows (s.NewRow (.renewRecord now index)) db' ∧ (db'.payments payment.id).isSome ∧
      db'.subscriptions = s.db.subscriptions ∧ db'.entitled = s.db.entitled ∧
      db'.failed = s.db.failed := by
  unfold renewStore at h
  split at h
  · next hrow =>
    cases h
    obtain ⟨he, hf⟩ := s.db.updatePayment_markers payment.id
      (f := ({ · with status := payment.status, confirmationUrl := none })) (fun _ => rfl)
      fun _ => rfl
    refine ⟨.of_continues (s.db.updatePayment_continues _ fun row =>
      ⟨rfl, rfl, rfl, rfl, rfl, fun h => h, fun h => h⟩), ?_, rfl, he, hf⟩
    rw [Database.updatePayment_apply, if_pos rfl]
    simpa using hrow
  split at h
  · cases h
  · next hn _ =>
    cases h
    have hnone : s.db.payments payment.id = none := by simpa using hn
    refine ⟨Database.insertPayment_grows hnone (.renewal hi rfl rfl rfl rfl rfl), ?_, rfl, ?_, ?_⟩
    · simp [Database.insertPayment_apply]
    · funext id
      by_cases he : id = payment.id
      · subst he; simp [Database.entitled, Database.insertPayment_apply, hnone]
      · simp [Database.entitled, Database.insertPayment_apply, he]
    · funext id
      by_cases he : id = payment.id
      · subst he; simp [Database.failed, Database.insertPayment_apply, hnone]
      · simp [Database.failed, Database.insertPayment_apply, he]

/-- The transaction of `renew`: its insert, then the lifecycle call. -/
theorem renewRecord_eq_ok {db : Database} {payment : YooPayment}
    (h : renewRecord cal config now item payment db = .ok r) :
    ∃ db₁, renewStore config now item payment db = .ok db₁ ∧
      r = applyPaymentLifecycle cal config now
        ⟨item.organizationId, payment.id, .renewal, item.attempt⟩ payment db₁ := by
  simp only [renewRecord, bind, Except.bind] at h
  split at h
  · cases h
  · next db₁ h₁ => exact ⟨db₁, h₁, (Except.ok.inj h).symm⟩

theorem verifyNotification_eq_ok {db : Database} {payment : YooPayment}
    (h : verifyNotification status payment db = .ok row) :
    db.payments payment.id = some row := by
  unfold verifyNotification at h
  split at h
  · cases h
  split at h
  · cases h
  split at h
  · cases h
  next row' hrow =>
  split at h
  · cases h
  split at h
  · cases h
  split at h
  · cases h
  · cases h; exact hrow

/-- What an accepted payment notification does. -/
theorem webhook_eq_ok {db : Database} {payment : YooPayment}
    (h : webhook cal config now status payment db = .ok r) :
    ∃ row, verifyNotification status payment db = .ok row ∧
      (.payment status payment.id ∈ db.events ∧ r = (db, []) ∨
        .payment status payment.id ∉ db.events ∧
          r = applyPaymentLifecycle cal config now row.toLocal payment
            { db with events := .payment status payment.id :: db.events }) := by
  simp only [webhook, bind, Except.bind] at h
  split at h
  · cases h
  next row hrow =>
  split at h
  · next hmem => exact ⟨row, hrow, .inl ⟨hmem, (Except.ok.inj h).symm⟩⟩
  · next hmem => exact ⟨row, hrow, .inr ⟨hmem, (Except.ok.inj h).symm⟩⟩

theorem storeRefund_eq_ok {db : Database} {refund : YooRefund}
    (h : storeRefund config now org key refund db = .ok db') :
    ∃ db₁, db₁.subscriptions = db.subscriptions ∧ db₁.payments = db.payments ∧
      db' = applyRefundLifecycle now refund db₁ := by
  unfold storeRefund at h
  split at h
  · cases h
  · refine ⟨_, ?_, ?_, (Except.ok.inj h).symm⟩ <;> rfl

theorem refundWebhook_eq_ok {db : Database} {refund : YooRefund}
    (h : refundWebhook now refund db = .ok db') :
    db' = db ∨ ∃ db₁, db₁.subscriptions = db.subscriptions ∧ db₁.payments = db.payments ∧
      db' = applyRefundLifecycle now refund db₁ := by
  unfold refundWebhook at h
  split at h
  · cases h
  split at h
  · cases h
  split at h
  · cases h
  split at h
  · cases h
  split at h
  · exact .inl (Except.ok.inj h).symm
  · refine .inr ⟨_, ?_, ?_, (Except.ok.inj h).symm⟩ <;> rfl

/-- The step of an event with a delivery is that lifecycle call, on tables that differ from the
current ones only in the columns and rows a request handler writes before it. -/
theorem delivery_applies (h : Steps cal config s e s') (hd : s.delivery e = some d) :
    ∃ db, (db.payments d.payment.id).isSome ∧ db.subscriptions = s.db.subscriptions ∧
      db.entitled = s.db.entitled ∧ db.failed = s.db.failed ∧
      s'.db = (applyPaymentLifecycle cal config d.now d.localPayment d.payment db).1 ∧
      s'.log = (applyPaymentLifecycle cal config d.now d.localPayment d.payment db).2 ++ s.log := by
  unfold Steps Transition.Stepping at h
  cases e with
  | webhook now status payment =>
    simp only [step, Option.ite_none_right_eq_some] at h
    obtain ⟨-, h⟩ := h
    cases h
    simp only [delivery] at hd
    split at hd
    · next row hrow =>
      split at hd
      · cases hd
      · next hmem =>
        cases hd
        refine ⟨{ s.db with events := .payment status payment.id :: s.db.events }, ?_, rfl, rfl,
          rfl, ?_⟩
        · simp [verifyNotification_eq_ok hrow]
        · simp [webhook, hrow, hmem, bind, Except.bind, settle]
    · cases hd
  | renewRecord now index =>
    simp only [step] at h
    split at h
    · next item claimedAt payment n hi =>
      split at h
      · next db effects hr =>
        simp only [Option.ite_none_right_eq_some] at h
        obtain ⟨-, h⟩ := h
        cases h
        simp only [delivery, hi, Option.some.injEq] at hd
        subst hd
        obtain ⟨db₁, h₁, h₂⟩ := renewRecord_eq_ok hr
        obtain ⟨-, hrow, hsub, hent, hfail⟩ := renewStore_eq_ok hi h₁
        exact ⟨db₁, hrow, hsub, hent, hfail, congrArg Prod.fst h₂,
          by simpa using congrArg Prod.snd h₂⟩
      · cases h
    · cases h
  | reconcile now payment =>
    simp only [step] at h
    split at h
    · next row hrow =>
      simp only [Option.ite_none_right_eq_some] at h
      obtain ⟨-, h⟩ := h
      cases h
      simp only [delivery, hrow, Option.map_some, Option.some.injEq] at hd
      subst hd
      exact ⟨s.db, by simp [hrow], rfl, rfl, rfl, rfl, rfl⟩
    · cases h
  | _ => simp [delivery] at hd

/-- A success applied for the first time is an extension. -/
theorem Grants.subscription (hg : s.Grants org e d) (h : Steps cal config s e s') :
    s'.db.subscriptions org =
      some (Subscription.extend cal d.now d.payment (s.db.subscriptions org)) := by
  obtain ⟨db, hrow, hsub, hent, -, hdb, -⟩ := delivery_applies h hg.delivery
  have := (applyPaymentLifecycle_grants cal config d.now d.localPayment d.payment hg.grants hrow
    (by rw [hent]; exact hg.fresh)).2
  rw [hdb, this, hg.organizationId, Database.upsertSubscription_apply, if_pos rfl, hsub]

/-- What a step of the billing system does to the subscriptions and to the log. -/
theorem step_outcome (h : Steps cal config s e s') : Outcome cal config s e s' := by
  cases hd : s.delivery e with
  | some d =>
    obtain ⟨db, -, hsub, hent, hfail, hdb, hlog⟩ := delivery_applies h hd
    exact .of_lifecycle db hd hsub hent hfail hdb hlog
  | none =>
  unfold Steps Transition.Stepping at h
  cases e with
  | providerUpdate payment =>
    simp only [step, Option.ite_none_right_eq_some] at h
    obtain ⟨-, h⟩ := h
    cases h; exact .quiet rfl rfl
  | checkoutCall org key payment =>
    simp only [step, Option.ite_none_right_eq_some] at h
    obtain ⟨-, h⟩ := h
    cases h; exact .quiet rfl rfl
  | checkoutStore now org key payment =>
    simp only [step, Option.ite_none_right_eq_some] at h
    obtain ⟨-, h⟩ := h
    cases h
    exact .settle_quiet fun db hdb => checkoutStore_subscriptions hdb
  | webhook now status payment =>
    simp only [step, Option.ite_none_right_eq_some] at h
    obtain ⟨-, h⟩ := h
    cases h
    cases hr : webhook cal config now status payment s.db with
    | error _ => exact .quiet rfl rfl
    | ok r =>
      obtain ⟨row, hrow, ⟨-, rfl⟩ | ⟨hmem, -⟩⟩ := webhook_eq_ok hr
      · exact .quiet rfl rfl
      · simp [delivery, hrow, hmem] at hd
  | claimRenewal now org =>
    simp only [step, Option.map_eq_some_iff] at h
    obtain ⟨item, hitem, h⟩ := h
    cases h
    exact .update rfl rfl fun row _ => .claim hitem
  | renewCall index payment =>
    simp only [step] at h
    split at h
    · split at h
      · simp only [Option.ite_none_right_eq_some] at h
        obtain ⟨-, h⟩ := h
        cases h; exact .quiet rfl rfl
      · simp only [Option.ite_none_right_eq_some] at h
        obtain ⟨-, h⟩ := h
        cases h; exact .quiet rfl rfl
    · cases h
  | renewRecord now index =>
    simp only [step] at h
    split at h
    · next hi => simp [delivery, hi] at hd
    · cases h
  | renewError now index =>
    simp only [step] at h
    split at h
    · next item claimedAt _ _ hi =>
      simp only [Option.ite_none_right_eq_some] at h
      obtain ⟨hle, h⟩ := h
      cases h
      exact .update rfl rfl fun row _ => .renewFailed hi rfl hle
    · cases h
  | renewCrash index => cases h; exact .quiet rfl rfl
  | claimReconciliation now id =>
    simp only [step, Option.ite_none_right_eq_some] at h
    obtain ⟨-, h⟩ := h
    cases h; exact .quiet rfl rfl
  | reconcile now payment =>
    simp only [step] at h
    split at h
    · next hrow => simp [delivery, hrow] at hd
    · cases h
  | reconcileError now id => cases h; exact .quiet rfl rfl
  | expireGracePeriods now =>
    cases h
    refine .routine rfl fun org => ?_
    simp only [commit_db, expireGracePeriods]
    cases s.db.subscriptions org with
    | none => exact .same
    | some row => exact .expire
  | cancel org => cases h; exact .update rfl rfl fun _ _ => .cancel
  | resume now org =>
    cases h
    refine .update rfl rfl fun row _ => ?_
    split
    · next hr => exact .resume hr
    · exact .same
  | reserveRefund id key =>
    cases h
    exact .settle_quiet fun db hdb => (reserveRefund_subscriptions hdb).1
  | storeRefund now org key refund =>
    cases h
    cases hr : storeRefund config now org key refund s.db with
    | error _ => exact .quiet rfl rfl
    | ok db =>
      obtain ⟨db₁, hsub, -, rfl⟩ := storeRefund_eq_ok hr
      exact .of_refund db₁ rfl hsub rfl rfl
  | refundWebhook now refund =>
    cases h
    cases hr : refundWebhook now refund s.db with
    | error _ => exact .quiet rfl rfl
    | ok db =>
      rcases refundWebhook_eq_ok hr with rfl | ⟨db₁, hsub, -, rfl⟩
      · exact .quiet rfl rfl
      · exact .of_refund db₁ rfl hsub rfl rfl
  | reconcileRefund now refund =>
    cases h
    exact .of_refund (e := .reconcileRefund now refund) (s.db.updateRefunds _ _) rfl rfl rfl rfl
  | anonymize org =>
    cases h
    refine .routine rfl fun org' => ?_
    simp only [commit_db, anonymize, Database.updateSubscription_apply]
    split
    · next he =>
      subst he
      cases s.db.subscriptions org' with
      | none => exact .same
      | some row => exact .anonymize
    · exact .same
  | cleanup now => cases h; exact .quiet rfl rfl

/-- A step keeps every payment row, and adds only the rows of the two inserts. -/
theorem step_grows (h : Steps cal config s e s') : s.db.Grows (s.NewRow e) s'.db := by
  unfold Steps Transition.Stepping at h
  cases e with
  | providerUpdate payment | checkoutCall org key payment =>
    simp only [step, Option.ite_none_right_eq_some] at h
    obtain ⟨-, h⟩ := h
    cases h; exact .refl _
  | checkoutStore now org key payment =>
    simp only [step, Option.ite_none_right_eq_some] at h
    obtain ⟨-, h⟩ := h
    cases h
    cases hr : checkoutStore config now org key payment s.db with
    | error _ => exact .refl _
    | ok db => exact checkoutStore_grows hr
  | webhook now status payment =>
    simp only [step, Option.ite_none_right_eq_some] at h
    obtain ⟨-, h⟩ := h
    cases h
    cases hr : webhook cal config now status payment s.db with
    | error _ => exact .refl _
    | ok r =>
      obtain ⟨row, -, ⟨-, rfl⟩ | ⟨-, rfl⟩⟩ := webhook_eq_ok hr
      · exact .refl _
      · have hc := (applyPaymentLifecycle_cases cal config now row.toLocal payment
          { s.db with events := .payment status payment.id :: s.db.events }).1
        exact .of_continues (.after (.of_payments_eq rfl) hc)
  | claimRenewal now org =>
    simp only [step, Option.map_eq_some_iff] at h
    obtain ⟨item, hitem, h⟩ := h
    cases h; exact .of_payments_eq rfl
  | renewCall index payment =>
    simp only [step] at h
    split at h
    · split at h
      · simp only [Option.ite_none_right_eq_some] at h
        obtain ⟨-, h⟩ := h
        cases h; exact .refl _
      · simp only [Option.ite_none_right_eq_some] at h
        obtain ⟨-, h⟩ := h
        cases h; exact .refl _
    · cases h
  | renewRecord now index =>
    simp only [step] at h
    split at h
    · next item claimedAt payment n hi =>
      split at h
      · next db effects hr =>
        simp only [Option.ite_none_right_eq_some] at h
        obtain ⟨-, h⟩ := h
        cases h
        obtain ⟨db₁, h₁, h₂⟩ := renewRecord_eq_ok hr
        have hc := (applyPaymentLifecycle_cases cal config now
          ⟨item.organizationId, payment.id, .renewal, item.attempt⟩ payment db₁).1
        rw [← h₂] at hc
        exact (renewStore_eq_ok hi h₁).1.then hc NewRow.continues
      · cases h
    · cases h
  | renewError now index =>
    simp only [step] at h
    split at h
    · simp only [Option.ite_none_right_eq_some] at h
      obtain ⟨-, h⟩ := h
      cases h; exact .of_payments_eq rfl
    · cases h
  | claimReconciliation now id =>
    simp only [step, Option.ite_none_right_eq_some] at h
    obtain ⟨-, h⟩ := h
    cases h
    exact .of_continues (s.db.updatePayment_continues _ fun row =>
      ⟨rfl, rfl, rfl, rfl, rfl, fun h => h, fun h => h⟩)
  | reconcile now payment =>
    simp only [step] at h
    split at h
    · simp only [Option.ite_none_right_eq_some] at h
      obtain ⟨-, h⟩ := h
      cases h
      exact .of_continues (applyPaymentLifecycle_cases ..).1
    · cases h
  | reconcileError now id =>
    cases h
    exact .of_continues (s.db.updatePayment_continues _ fun row =>
      ⟨rfl, rfl, rfl, rfl, rfl, fun h => h, fun h => h⟩)
  | renewCrash index => cases h; exact .refl _
  | expireGracePeriods now | cancel org | resume now org => cases h; exact .of_payments_eq rfl
  | reserveRefund id key =>
    cases h
    cases hr : reserveRefund id key s.db with
    | error _ => exact .refl _
    | ok db => exact .of_payments_eq (reserveRefund_subscriptions hr).2
  | storeRefund now org key refund =>
    cases h
    cases hr : storeRefund config now org key refund s.db with
    | error _ => exact .refl _
    | ok db =>
      obtain ⟨db₁, -, hpay, rfl⟩ := storeRefund_eq_ok hr
      exact .of_payments_eq ((applyRefundLifecycle_payments ..).trans hpay)
  | refundWebhook now refund =>
    cases h
    cases hr : refundWebhook now refund s.db with
    | error _ => exact .refl _
    | ok db =>
      rcases refundWebhook_eq_ok hr with rfl | ⟨db₁, -, hpay, rfl⟩
      · exact .refl _
      · exact .of_payments_eq ((applyRefundLifecycle_payments ..).trans hpay)
  | reconcileRefund now refund =>
    cases h
    exact .of_payments_eq (applyRefundLifecycle_payments ..)
  | anonymize org =>
    cases h
    refine .of_continues (.of_map (f := fun _ row =>
      if row.organizationId = org then { row with confirmationUrl := none } else row)
      (fun _ => rfl) fun _ row => ?_)
    split
    · exact ⟨rfl, rfl, rfl, rfl, rfl, fun h => h, fun h => h⟩
    · exact .refl row
  | cleanup now =>
    cases h
    refine .of_continues (.of_map (f := fun _ row =>
      if row.createdAt + hours (90 * 24) < now then { row with confirmationUrl := none } else row)
      (fun _ => rfl) fun _ row => ?_)
    split
    · exact ⟨rfl, rfl, rfl, rfl, rfl, fun h => h, fun h => h⟩
    · exact .refl row

end World

end Tonatiuh.Billing
