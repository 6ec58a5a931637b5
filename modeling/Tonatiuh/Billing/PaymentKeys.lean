import Tonatiuh.Billing.RenewalAttempts

/-! The rows of `billing_payments` and the idempotency keys they were inserted under.

A row is found by its provider payment id and by its organization and idempotency key. Both
indexes grow together, at the two inserts only; `Indexed` says that they agree with each other
and with the provider's memory of the key. -/

namespace Tonatiuh.Billing

section
variable (cal : Calendar) (config : BillingConfig) (now : Timestamp)

/-- A lifecycle call writes payments and subscriptions only. -/
theorem applyPaymentLifecycle_frame (localPayment : LocalPayment) (payment : YooPayment)
    (db : Database) : ∃ payments subscriptions,
      (applyPaymentLifecycle cal config now localPayment payment db).1 =
        { db with payments, subscriptions } := by
  simp only [applyPaymentLifecycle]
  split
  · split
    · exact ⟨_, _, rfl⟩
    · next hm =>
      unfold Database.markEntitlementApplied at hm
      split at hm <;> cases hm
      exact ⟨_, _, rfl⟩
  · split
    · exact ⟨_, _, rfl⟩
    · split
      · exact ⟨_, _, rfl⟩
      · next hm =>
        unfold Database.markFailureApplied at hm
        split at hm <;> cases hm
        exact ⟨_, _, rfl⟩

theorem applyPaymentLifecycle_paymentKeys (localPayment : LocalPayment) (payment : YooPayment)
    (db : Database) :
    (applyPaymentLifecycle cal config now localPayment payment db).1.paymentKeys =
      db.paymentKeys := by
  obtain ⟨_, _, h⟩ := applyPaymentLifecycle_frame cal config now localPayment payment db
  rw [h]

theorem applyPaymentLifecycle_ownerEmail (localPayment : LocalPayment) (payment : YooPayment)
    (db : Database) :
    (applyPaymentLifecycle cal config now localPayment payment db).1.ownerEmail =
      db.ownerEmail := by
  obtain ⟨_, _, h⟩ := applyPaymentLifecycle_frame cal config now localPayment payment db
  rw [h]

theorem applyRefundLifecycle_paymentKeys (refund : YooRefund) (db : Database) :
    (applyRefundLifecycle now refund db).paymentKeys = db.paymentKeys := by
  unfold applyRefundLifecycle
  split
  · rfl
  · split <;> rfl

end

namespace World

/-- The two indexes of `billing_payments` agree. -/
structure Consistent (db : Database) : Prop where
  row : ∀ {org key id}, db.paymentKeys org key = some id →
    ∃ row, db.payments id = some row ∧ row.organizationId = org ∧ row.idempotencyKey = key
  key : ∀ {id row}, db.payments id = some row →
    db.paymentKeys row.organizationId row.idempotencyKey = some id

/-- Two tables with the same keys, and without rows for other payments. -/
structure SameKeys (db db' : Database) : Prop where
  keys : db'.paymentKeys = db.paymentKeys
  rows : db.Continues db'

/-- A payment row is inserted under a key that has none. -/
structure Inserts (db : Database) (org : OrganizationId) (key : IdempotencyKey) (id : PaymentId)
    (db' : Database) : Prop where
  unused : db.paymentKeys org key = none
  unknown : db.payments id = none
  keys : ∀ org' key', db'.paymentKeys org' key' =
    if org' = org ∧ key' = key then some id else db.paymentKeys org' key'
  row : ∃ row, db'.payments id = some row ∧ row.organizationId = org ∧ row.idempotencyKey = key
  rows : db.Grows (fun id' _ => id' = id) db'

/-- What a step does to the two indexes of `billing_payments`. -/
inductive KeyStep (s : World) : Event → World → Prop where
  | same : SameKeys s.db s'.db → KeyStep s e s'
  | checkout : s.issued key = some payment.id → payment ∈ s.history payment.id →
    Inserts s.db org key payment.id s'.db → KeyStep s (.checkoutStore now org key payment) s'
  | renewal : s.renewals[index]? = some ⟨item, claimedAt, some payment, n⟩ →
    Inserts s.db item.organizationId item.idempotencyKey payment.id s'.db →
    KeyStep s (.renewRecord now index) s'

variable {cal : Calendar} {config : BillingConfig} {s s' : World} {e : Event}
  {org : OrganizationId} {id : PaymentId} {key : IdempotencyKey}

theorem SameKeys.of_eq {db db' : Database} (hkeys : db'.paymentKeys = db.paymentKeys)
    (hpay : db'.payments = db.payments) : SameKeys db db' :=
  ⟨hkeys, .of_payments_eq hpay⟩

theorem SameKeys.lifecycle (db : Database) (now : Timestamp) (localPayment : LocalPayment)
    (payment : YooPayment) :
    SameKeys db (applyPaymentLifecycle cal config now localPayment payment db).1 :=
  ⟨applyPaymentLifecycle_paymentKeys .., (applyPaymentLifecycle_cases ..).1⟩

theorem SameKeys.trans {a b c : Database} (h₁ : SameKeys a b) (h₂ : SameKeys b c) :
    SameKeys a c :=
  ⟨h₂.keys.trans h₁.keys, .trans h₁.rows h₂.rows⟩

theorem Inserts.insertPayment {db : Database} {row : BillingPayment}
    (horg : row.organizationId = org) (hkey : row.idempotencyKey = key)
    (hid : row.providerPaymentId = id) (hunused : db.paymentKeys org key = none)
    (hunknown : db.payments id = none) : Inserts db org key id (db.insertPayment row) where
  unused := hunused
  unknown := hunknown
  keys org' key' := by
    subst horg hkey hid
    simp only [Database.insertPayment, Function.update_apply]
    split
    · next he => subst he; simp [Function.update_apply]
    · next he => rw [if_neg fun h => he h.1]
  row := ⟨row, by simp [Database.insertPayment_apply, hid], horg, hkey⟩
  rows := Database.insertPayment_grows (hid ▸ hunknown) hid

theorem Inserts.then {a b c : Database} (h₁ : Inserts a org key id b) (h₂ : SameKeys b c) :
    Inserts a org key id c where
  unused := h₁.unused
  unknown := h₁.unknown
  keys org' key' := by rw [h₂.keys, h₁.keys]
  row := by
    obtain ⟨row, hrow, horg, hkey⟩ := h₁.row
    obtain ⟨row', hrow', hc⟩ := h₂.rows.kept hrow
    exact ⟨row', hrow', hc.organizationId.trans horg, hc.idempotencyKey.trans hkey⟩
  rows := h₁.rows.then h₂.rows fun h _ => h

theorem SameKeys.kept {db db' : Database} (h : SameKeys db db')
    (hrow : db'.payments id = some row') : ∃ row, db.payments id = some row ∧
      row'.organizationId = row.organizationId ∧ row'.idempotencyKey = row.idempotencyKey := by
  rcases h.rows.origin hrow with ⟨row, hold, hc⟩ | ⟨-, hnew⟩
  · exact ⟨row, hold, hc.organizationId, hc.idempotencyKey⟩
  · exact hnew.elim

/-- A row after the insert: the new one, or one from before. -/
theorem Inserts.origin {db db' : Database} {id' : PaymentId} (h : Inserts db org key id db')
    (hrow : db'.payments id' = some row') :
    id' = id ∧ row'.organizationId = org ∧ row'.idempotencyKey = key ∨
      ∃ row, db.payments id' = some row ∧ row'.organizationId = row.organizationId ∧
        row'.idempotencyKey = row.idempotencyKey := by
  rcases h.rows.origin hrow with ⟨row, hold, hc⟩ | ⟨-, rfl⟩
  · exact .inr ⟨row, hold, hc.organizationId, hc.idempotencyKey⟩
  · obtain ⟨row, hnew, horg, hkey⟩ := h.row
    rw [hnew] at hrow
    cases hrow
    exact .inl ⟨rfl, horg, hkey⟩

theorem Consistent.same {db db' : Database} (hc : Consistent db) (h : SameKeys db db') :
    Consistent db' where
  row hk := by
    obtain ⟨row, hrow, horg, hkey⟩ := hc.row (h.keys ▸ hk)
    obtain ⟨row', hrow', hcont⟩ := h.rows.kept hrow
    exact ⟨row', hrow', hcont.organizationId.trans horg, hcont.idempotencyKey.trans hkey⟩
  key hrow' := by
    obtain ⟨row, hrow, horg, hkey⟩ := h.kept hrow'
    rw [h.keys, horg, hkey]
    exact hc.key hrow

theorem Consistent.insert {db db' : Database} (hc : Consistent db)
    (h : Inserts db org key id db') : Consistent db' where
  row {org' key' id'} hk := by
    rw [h.keys] at hk
    split at hk
    · next he => cases hk; rw [he.1, he.2]; exact h.row
    · obtain ⟨row, hrow, horg, hkey⟩ := hc.row hk
      obtain ⟨row', hrow', hcont⟩ := h.rows.kept hrow
      exact ⟨row', hrow', hcont.organizationId.trans horg, hcont.idempotencyKey.trans hkey⟩
  key {id' row'} hrow' := by
    rw [h.keys]
    rcases h.origin hrow' with ⟨rfl, horg, hkey⟩ | ⟨row, hrow, horg, hkey⟩
    · rw [if_pos ⟨horg, hkey⟩]
    · have hold := hc.key hrow
      rw [horg, hkey]
      split
      · next he => rw [he.1, he.2, h.unused] at hold; cases hold
      · exact hold

theorem KeyStep.of_eq (hkeys : s'.db.paymentKeys = s.db.paymentKeys)
    (hpay : s'.db.payments = s.db.payments) : KeyStep s e s' :=
  .same (.of_eq hkeys hpay)

theorem renewStore_paymentKeys {now : Timestamp} {item : Renewal} {payment : YooPayment}
    {db db' : Database} (h : renewStore config now item payment db = .ok db') :
    SameKeys db db' ∨ Inserts db item.organizationId item.idempotencyKey payment.id db' := by
  unfold renewStore at h
  split at h
  · cases h
    exact .inl ⟨rfl, db.updatePayment_continues _ fun row =>
      ⟨rfl, rfl, rfl, rfl, rfl, fun h => h, fun h => h⟩⟩
  split at h
  · cases h
  · next hrow hkey =>
    cases h
    exact .inr (.insertPayment rfl rfl rfl (by simpa using hkey) (by simpa using hrow))

theorem reserveRefund_paymentKeys {db : Database} {id : PaymentId} {key : Nat}
    (h : reserveRefund id key db = .ok db') : db'.paymentKeys = db.paymentKeys := by
  unfold reserveRefund at h
  split at h
  · cases h
  split at h
  · cases h
  split at h
  · split at h <;> cases h
    rfl
  · split at h <;> cases h
    rfl

theorem storeRefund_paymentKeys {db : Database} {refund : YooRefund} {key : Nat}
    (h : storeRefund config now org key refund db = .ok db') :
    db'.paymentKeys = db.paymentKeys := by
  unfold storeRefund at h
  split at h
  · cases h
  · cases h; exact applyRefundLifecycle_paymentKeys ..

theorem refundWebhook_paymentKeys {db : Database} {refund : YooRefund}
    (h : refundWebhook now refund db = .ok db') : db'.paymentKeys = db.paymentKeys := by
  unfold refundWebhook at h
  split at h
  · cases h
  split at h
  · cases h
  split at h
  · cases h
  split at h
  · cases h
  split at h
  · cases h; rfl
  · cases h; exact applyRefundLifecycle_paymentKeys ..

theorem step_keys (h : Steps cal config s e s') : KeyStep s e s' := by
  unfold Steps Transition.Stepping at h
  cases e with
  | providerUpdate payment | checkoutCall org key payment =>
    simp only [step, Option.ite_none_right_eq_some] at h
    obtain ⟨-, h⟩ := h
    cases h; exact .of_eq rfl rfl
  | checkoutStore now org key payment =>
    simp only [step, Option.ite_none_right_eq_some] at h
    obtain ⟨⟨hissued, hobs⟩, h⟩ := h
    cases h
    unfold checkoutStore
    split
    · exact .of_eq rfl rfl
    split
    · exact .of_eq rfl rfl
    · next hkey hrow =>
      exact .checkout hissued (by simpa [observed] using hobs)
        (.insertPayment rfl rfl rfl (by simpa using hkey) (by simpa using hrow))
  | webhook now status payment =>
    simp only [step, Option.ite_none_right_eq_some] at h
    obtain ⟨-, h⟩ := h
    cases h
    cases hr : webhook cal config now status payment s.db with
    | error _ => exact .of_eq rfl rfl
    | ok r =>
      obtain ⟨row, -, ⟨-, rfl⟩ | ⟨-, rfl⟩⟩ := webhook_eq_ok hr
      · exact .of_eq rfl rfl
      · have hlife : SameKeys { s.db with events := .payment status payment.id :: s.db.events }
            (applyPaymentLifecycle cal config now row.toLocal payment
              { s.db with events := .payment status payment.id :: s.db.events }).1 := .lifecycle ..
        exact .same ⟨hlife.keys, hlife.rows⟩
  | claimRenewal now org =>
    simp only [step, Option.map_eq_some_iff] at h
    obtain ⟨item, -, h⟩ := h
    cases h; exact .of_eq rfl rfl
  | renewCall index payment =>
    simp only [step] at h
    split at h
    · split at h
      · simp only [Option.ite_none_right_eq_some] at h
        obtain ⟨-, h⟩ := h
        cases h; exact .of_eq rfl rfl
      · simp only [Option.ite_none_right_eq_some] at h
        obtain ⟨-, h⟩ := h
        cases h; exact .of_eq rfl rfl
    · cases h
  | renewRecord now index =>
    simp only [step] at h
    split at h
    · next item claimedAt payment n hi =>
      split at h
      · next db effects hr =>
        simp only [Option.ite_none_right_eq_some] at h
        obtain ⟨-, h⟩ := h
        cases h
        obtain ⟨db₁, h₁, h₂⟩ := renewRecord_eq_ok hr
        have hlife : SameKeys db₁ db := by
          rw [show db = _ from congrArg Prod.fst h₂]
          exact .lifecycle ..
        rcases renewStore_paymentKeys h₁ with hsame | hins
        · exact .same (hsame.trans hlife)
        · exact .renewal hi (hins.then hlife)
      · cases h
    · cases h
  | renewError now index =>
    simp only [step] at h
    split at h
    · simp only [Option.ite_none_right_eq_some] at h
      obtain ⟨-, h⟩ := h
      cases h; exact .of_eq rfl rfl
    · cases h
  | claimReconciliation now id' =>
    simp only [step, Option.ite_none_right_eq_some] at h
    obtain ⟨-, h⟩ := h
    cases h
    exact .same ⟨rfl, s.db.updatePayment_continues _ fun row =>
      ⟨rfl, rfl, rfl, rfl, rfl, fun h => h, fun h => h⟩⟩
  | reconcile now payment =>
    simp only [step] at h
    split at h
    · simp only [Option.ite_none_right_eq_some] at h
      obtain ⟨-, h⟩ := h
      cases h; exact .same (.lifecycle ..)
    · cases h
  | reconcileError now id' =>
    cases h
    exact .same ⟨rfl, s.db.updatePayment_continues _ fun row =>
      ⟨rfl, rfl, rfl, rfl, rfl, fun h => h, fun h => h⟩⟩
  | renewCrash index | expireGracePeriods now | cancel org | resume now org =>
    cases h; exact .of_eq rfl rfl
  | reserveRefund id' key =>
    cases h
    cases hr : reserveRefund id' key s.db with
    | error _ => exact .of_eq rfl rfl
    | ok db => exact .of_eq (reserveRefund_paymentKeys hr) (reserveRefund_subscriptions hr).2
  | storeRefund now org key refund =>
    cases h
    cases hr : storeRefund config now org key refund s.db with
    | error _ => exact .of_eq rfl rfl
    | ok db =>
      obtain ⟨db₁, -, hpay, heq⟩ := storeRefund_eq_ok hr
      refine .of_eq (storeRefund_paymentKeys hr) ?_
      rw [show (s.settle _).db = db from rfl, heq, applyRefundLifecycle_payments, hpay]
  | refundWebhook now refund =>
    cases h
    cases hr : refundWebhook now refund s.db with
    | error _ => exact .of_eq rfl rfl
    | ok db =>
      refine .of_eq (refundWebhook_paymentKeys hr) ?_
      rcases refundWebhook_eq_ok hr with rfl | ⟨db₁, -, hpay, rfl⟩
      · rfl
      · exact (applyRefundLifecycle_payments ..).trans hpay
  | reconcileRefund now refund =>
    cases h
    exact .of_eq (applyRefundLifecycle_paymentKeys ..) (applyRefundLifecycle_payments ..)
  | anonymize org =>
    cases h
    refine .same ⟨rfl, .of_map (f := fun _ row =>
      if row.organizationId = org then { row with confirmationUrl := none } else row)
      (fun _ => rfl) fun _ row => ?_⟩
    split
    · exact ⟨rfl, rfl, rfl, rfl, rfl, fun h => h, fun h => h⟩
    · exact .refl row
  | cleanup now =>
    cases h
    refine .same ⟨rfl, .of_map (f := fun _ row =>
      if row.createdAt + hours (90 * 24) < now then { row with confirmationUrl := none } else row)
      (fun _ => rfl) fun _ row => ?_⟩
    split
    · exact ⟨rfl, rfl, rfl, rfl, rfl, fun h => h, fun h => h⟩
    · exact .refl row

/-- Both indexes agree, and the provider remembers the payment of every key used. -/
structure Indexed (s : World) : Prop where
  sound : s.Sound
  consistent : Consistent s.db
  issued : ∀ {org key id}, s.db.paymentKeys org key = some id → s.issued key = some id

theorem start_consistent (ownerEmail : OrganizationId → Option String) :
    Consistent (start ownerEmail).db where
  row h := by cases h
  key h := by cases h

theorem start_indexed (ownerEmail : OrganizationId → Option String) :
    (start ownerEmail).Indexed where
  sound := start_sound ownerEmail
  consistent := start_consistent ownerEmail
  issued h := by cases h

theorem Inserts.issued {db' : Database} (h : Inserts s.db org key id db') (hs : s.Indexed)
    (hissued : s.issued key = some id) {org' : OrganizationId} {key' : IdempotencyKey}
    {id' : PaymentId} (hk : db'.paymentKeys org' key' = some id') : s.issued key' = some id' := by
  rw [h.keys] at hk
  split at hk
  · next he => cases hk; rw [he.2, hissued]
  · exact hs.issued hk

theorem Indexed.step (hs : s.Indexed) (h : Steps cal config s e s') : s'.Indexed := by
  cases step_keys h with
  | same hsame =>
    exact ⟨hs.sound.step h, hs.consistent.same hsame, fun hk =>
      issued_mono h (hs.issued (hsame.keys ▸ hk))⟩
  | checkout hissued _ hins =>
    exact ⟨hs.sound.step h, hs.consistent.insert hins, fun hk =>
      issued_mono h (hins.issued hs hissued hk)⟩
  | renewal hi hins =>
    have hissued := (hs.sound.response (List.mem_of_getElem? hi) rfl).2
    exact ⟨hs.sound.step h, hs.consistent.insert hins, fun hk =>
      issued_mono h (hins.issued hs hissued hk)⟩

/-- A payment the provider does not know has no row. -/
theorem Indexed.unknown (hs : s.Indexed) (hnil : s.history id = []) :
    s.db.payments id = none := by
  cases hrow : s.db.payments id with
  | none => rfl
  | some row => exact absurd hnil (hs.sound.known (hs.issued (hs.consistent.key hrow)))

/-- A key the provider has not seen has no row. -/
theorem Indexed.unused (hs : s.Indexed) (hnone : s.issued key = none) (org : OrganizationId) :
    s.db.paymentKeys org key = none := by
  cases hk : s.db.paymentKeys org key with
  | none => rfl
  | some id => rw [hs.issued hk] at hnone; cases hnone

end World

end Tonatiuh.Billing
