import Tonatiuh.Billing.RenewalAttempts

/-! The stored status of a payment.

A delivery stores the status of the snapshot it carries, whatever the row says. The provider never
takes a payment out of `succeeded` or `canceled`, but the snapshot was fetched at some earlier
moment, and `applyPaymentLifecycle` does not compare: a settled row stays settled exactly in the
runs in which no delivery applies a snapshot that is still open to a settled row. -/

namespace Tonatiuh.Billing

namespace Database

/-- The columns `claimReconciliation` selects by: `status` and `reconcile_after`. -/
def polling (db : Database) (id : PaymentId) : Option (PaymentStatus × Option Timestamp) :=
  (db.payments id).map fun row => (row.status, row.reconcileAfter)

/-- The stored status of a payment. -/
def statusOf (db : Database) (id : PaymentId) : Option PaymentStatus :=
  (db.payments id).map (·.status)

theorem statusOf_eq (db : Database) (id : PaymentId) :
    db.statusOf id = (db.polling id).map Prod.fst := by
  simp [statusOf, polling, Function.comp_def]

theorem updatePayment_polling (db : Database) (id id' : PaymentId)
    {f : BillingPayment → BillingPayment}
    (hf : ∀ row, ((f row).status, (f row).reconcileAfter) = (row.status, row.reconcileAfter)) :
    (db.updatePayment id f).polling id' = db.polling id' := by
  simp only [polling, updatePayment_apply]
  split
  · rw [Option.map_map]
    exact congrArg (Option.map · _) (funext hf)
  · rfl

theorem markEntitlementApplied_polling {db db' : Database} {now : Timestamp} {id : PaymentId}
    (h : db.markEntitlementApplied now id = some db') (id' : PaymentId) :
    db'.polling id' = db.polling id' := by
  unfold markEntitlementApplied at h
  split at h
  · cases h; exact updatePayment_polling _ _ _ fun _ => rfl
  · cases h

theorem markFailureApplied_polling {db db' : Database} {now : Timestamp} {id : PaymentId}
    (h : db.markFailureApplied now id = some db') (id' : PaymentId) :
    db'.polling id' = db.polling id' := by
  unfold markFailureApplied at h
  split at h
  · cases h; exact updatePayment_polling _ _ _ fun _ => rfl
  · cases h

end Database

/-- What `applyPaymentLifecycle` stores in `reconcile_after`. -/
def YooPayment.nextPoll (config : BillingConfig) (now : Timestamp) (payment : YooPayment) :
    Option Timestamp :=
  if payment.status.isOpen then some (now + minutes config.reconciliationMinutes) else none

section
variable (cal : Calendar) (config : BillingConfig) (now : Timestamp)
  (localPayment : LocalPayment) (payment : YooPayment)

/-- A lifecycle call stores the status of its snapshot, on every branch and whatever the row
said before. -/
theorem applyPaymentLifecycle_polling (db : Database) (id : PaymentId) :
    (applyPaymentLifecycle cal config now localPayment payment db).1.polling id =
      if id = payment.id then
        (db.polling id).map fun _ => (payment.status, payment.nextPoll config now)
      else db.polling id := by
  have hstored : (db.updatePayment payment.id (·.storeSnapshot config now payment)).polling id =
      if id = payment.id then
        (db.polling id).map fun _ => (payment.status, payment.nextPoll config now)
      else db.polling id := by
    simp only [Database.polling, Database.updatePayment_apply]
    split
    · simp [Function.comp_def, BillingPayment.storeSnapshot, YooPayment.nextPoll]
    · rfl
  rw [← hstored]
  simp only [applyPaymentLifecycle]
  split
  · split
    · rfl
    · next hm => exact Database.markEntitlementApplied_polling hm id
  · split
    · rfl
    · split
      · rfl
      · next hm => exact Database.markFailureApplied_polling hm id

end

namespace World

variable {cal : Calendar} {config : BillingConfig} {s s' : World} {e : Event} {d : Delivery}
  {id : PaymentId}

/-- What the insert of `renew` does to the columns of other payments. -/
theorem renewStore_polling {now : Timestamp} {item : Renewal} {payment : YooPayment}
    {db db' : Database} (h : renewStore config now item payment db = .ok db')
    (hne : id ≠ payment.id) : db'.polling id = db.polling id := by
  unfold renewStore at h
  split at h
  · cases h
    simp [Database.polling, Database.updatePayment_apply, hne]
  split at h
  · cases h
  · cases h
    simp [Database.polling, Database.insertPayment_apply, hne]

/-- A delivery stores the status of its snapshot. -/
theorem delivery_polling (h : Steps cal config s e s') (hd : s.delivery e = some d) :
    s'.db.polling d.payment.id = some (d.payment.status, d.payment.nextPoll config d.now) := by
  obtain ⟨db, hrow, -, -, -, hdb, -⟩ := delivery_applies h hd
  obtain ⟨row, hrow⟩ := Option.isSome_iff_exists.mp hrow
  rw [hdb, applyPaymentLifecycle_polling, if_pos rfl, Database.polling, hrow]
  rfl

/-- A delivery leaves the other payments alone. -/
theorem delivery_polling_others (h : Steps cal config s e s') (hd : s.delivery e = some d)
    (hne : id ≠ d.payment.id) : s'.db.polling id = s.db.polling id := by
  unfold Steps Transition.Stepping at h
  cases e with
  | webhook now status payment =>
    simp only [step, Option.ite_none_right_eq_some] at h
    obtain ⟨-, h⟩ := h
    cases h
    simp only [delivery] at hd
    split at hd
    · next row hrow =>
      split at hd
      · cases hd
      · next hmem =>
        cases hd
        have hw : webhook cal config now status payment s.db =
            .ok (applyPaymentLifecycle cal config now row.toLocal payment
              { s.db with events := .payment status payment.id :: s.db.events }) := by
          simp [webhook, hrow, hmem, bind, Except.bind]
        rw [hw]
        exact (applyPaymentLifecycle_polling ..).trans (if_neg hne)
    · cases hd
  | renewRecord now index =>
    simp only [step] at h
    split at h
    · next item claimedAt payment n hi =>
      split at h
      · next db effects hr =>
        simp only [Option.ite_none_right_eq_some] at h
        obtain ⟨-, h⟩ := h
        cases h
        simp only [delivery, hi, Option.some.injEq] at hd
        subst hd
        obtain ⟨db₁, h₁, h₂⟩ := renewRecord_eq_ok hr
        have hdb : db = _ := congrArg Prod.fst h₂
        have : db.polling id = s.db.polling id := by
          rw [hdb, applyPaymentLifecycle_polling, if_neg hne, renewStore_polling h₁ hne]
        exact this
      · cases h
    · cases h
  | reconcile now payment =>
    simp only [step] at h
    split at h
    · next row hrow =>
      simp only [Option.ite_none_right_eq_some] at h
      obtain ⟨-, h⟩ := h
      cases h
      simp only [delivery, hrow, Option.map_some, Option.some.injEq] at hd
      subst hd
      exact (applyPaymentLifecycle_polling ..).trans (if_neg hne)
    · cases h
  | _ => simp [delivery] at hd

/-- The stored status of a payment after a step: as before, that of the snapshot the step
applies, or that of the snapshot a checkout inserts. -/
inductive StatusStep (s : World) (e : Event) (s' : World) (id : PaymentId) : Prop where
  | kept : s'.db.statusOf id = s.db.statusOf id → StatusStep s e s' id
  | delivered (d : Delivery) : s.delivery e = some d → d.payment.id = id →
    s'.db.statusOf id = some d.payment.status → StatusStep s e s' id
  | inserted (p : YooPayment) : s.db.statusOf id = none → p ∈ s.history id →
    s'.db.statusOf id = some p.status → StatusStep s e s' id

theorem StatusStep.of_payments_eq (h : s'.db.payments = s.db.payments) : StatusStep s e s' id :=
  .kept (by rw [Database.statusOf, h, Database.statusOf])

/-- Other columns of payment rows are updated. -/
theorem StatusStep.of_map {f : PaymentId → BillingPayment → BillingPayment}
    (h : ∀ id, s'.db.payments id = (s.db.payments id).map (f id))
    (hf : ∀ id row, (f id row).status = row.status) : StatusStep s e s' id :=
  .kept (by simp [Database.statusOf, h, Function.comp_def, hf])

theorem StatusStep.update {id' : PaymentId} {f : BillingPayment → BillingPayment}
    (h : s'.db = s.db.updatePayment id' f) (hf : ∀ row, (f row).status = row.status) :
    StatusStep s e s' id := by
  refine .of_map (f := fun id row => if id = id' then f row else row) (fun id => ?_)
    fun id row => ?_
  · rw [h, Database.updatePayment_apply]
    split <;> simp
  · split
    · exact hf row
    · rfl

/-- What a step does to the stored status of a payment. -/
theorem step_status (h : Steps cal config s e s') (id : PaymentId) : StatusStep s e s' id := by
  cases hd : s.delivery e with
  | some d =>
    by_cases he : id = d.payment.id
    · refine .delivered d hd he.symm ?_
      rw [he, Database.statusOf_eq, delivery_polling h hd]
      rfl
    · refine .kept ?_
      rw [Database.statusOf_eq, delivery_polling_others h hd he, Database.statusOf_eq]
  | none =>
  unfold Steps Transition.Stepping at h
  cases e with
  | providerUpdate payment | checkoutCall org key payment =>
    simp only [step, Option.ite_none_right_eq_some] at h
    obtain ⟨-, h⟩ := h
    cases h; exact .of_payments_eq rfl
  | checkoutStore now org key payment =>
    simp only [step, Option.ite_none_right_eq_some] at h
    obtain ⟨⟨-, hobs⟩, h⟩ := h
    cases h
    unfold checkoutStore
    split
    · exact .of_payments_eq rfl
    split
    · exact .of_payments_eq rfl
    · next hnone =>
      by_cases he : id = payment.id
      · subst he
        refine .inserted payment (by simpa [Database.statusOf] using hnone)
          (by simpa [observed] using hobs) ?_
        simp [settle, Except.map, Database.statusOf, Database.insertPayment_apply]
      · refine .kept ?_
        simp [settle, Except.map, Database.statusOf, Database.insertPayment_apply, he]
  | webhook now status payment =>
    simp only [step, Option.ite_none_right_eq_some] at h
    obtain ⟨-, h⟩ := h
    cases h
    cases hr : webhook cal config now status payment s.db with
    | error _ => exact .of_payments_eq rfl
    | ok r =>
      obtain ⟨row, hrow, ⟨-, rfl⟩ | ⟨hmem, -⟩⟩ := webhook_eq_ok hr
      · exact .of_payments_eq rfl
      · simp [delivery, hrow, hmem] at hd
  | claimRenewal now org =>
    simp only [step, Option.map_eq_some_iff] at h
    obtain ⟨item, -, h⟩ := h
    cases h; exact .of_payments_eq rfl
  | renewCall index payment =>
    simp only [step] at h
    split at h
    · split at h
      · simp only [Option.ite_none_right_eq_some] at h
        obtain ⟨-, h⟩ := h
        cases h; exact .of_payments_eq rfl
      · simp only [Option.ite_none_right_eq_some] at h
        obtain ⟨-, h⟩ := h
        cases h; exact .of_payments_eq rfl
    · cases h
  | renewRecord now index =>
    simp only [step] at h
    split at h
    · next hi => simp [delivery, hi] at hd
    · cases h
  | renewError now index =>
    simp only [step] at h
    split at h
    · simp only [Option.ite_none_right_eq_some] at h
      obtain ⟨-, h⟩ := h
      cases h; exact .of_payments_eq rfl
    · cases h
  | claimReconciliation now id' =>
    simp only [step, Option.ite_none_right_eq_some] at h
    obtain ⟨-, h⟩ := h
    cases h; exact .update rfl fun _ => rfl
  | reconcile now payment =>
    simp only [step] at h
    split at h
    · next hrow => simp [delivery, hrow] at hd
    · cases h
  | reconcileError now id' => cases h; exact .update rfl fun _ => rfl
  | renewCrash index | expireGracePeriods now | cancel org | resume now org =>
    cases h; exact .of_payments_eq rfl
  | reserveRefund id' key =>
    cases h
    cases hr : reserveRefund id' key s.db with
    | error _ => exact .of_payments_eq rfl
    | ok db => exact .of_payments_eq (reserveRefund_subscriptions hr).2
  | storeRefund now org key refund =>
    cases h
    cases hr : storeRefund config now org key refund s.db with
    | error _ => exact .of_payments_eq rfl
    | ok db =>
      obtain ⟨db₁, -, hpay, rfl⟩ := storeRefund_eq_ok hr
      exact .of_payments_eq ((applyRefundLifecycle_payments ..).trans hpay)
  | refundWebhook now refund =>
    cases h
    cases hr : refundWebhook now refund s.db with
    | error _ => exact .of_payments_eq rfl
    | ok db =>
      rcases refundWebhook_eq_ok hr with rfl | ⟨db₁, -, hpay, rfl⟩
      · exact .of_payments_eq rfl
      · exact .of_payments_eq ((applyRefundLifecycle_payments ..).trans hpay)
  | reconcileRefund now refund => cases h; exact .of_payments_eq (applyRefundLifecycle_payments ..)
  | anonymize org =>
    cases h
    refine .of_map (f := fun _ row =>
      if row.organizationId = org then { row with confirmationUrl := none } else row)
      (fun _ => rfl) fun _ row => ?_
    split <;> rfl
  | cleanup now =>
    cases h
    refine .of_map (f := fun _ row =>
      if row.createdAt + hours (90 * 24) < now then { row with confirmationUrl := none } else row)
      (fun _ => rfl) fun _ row => ?_
    split <;> rfl

/-! ## Settled rows -/

/-- The stored status of every payment is one the provider reported. -/
structure Reported (s : World) : Prop where
  sound : s.Sound
  status : ∀ {id status}, s.db.statusOf id = some status → ∃ p ∈ s.history id, p.status = status

theorem start_reported (ownerEmail : OrganizationId → Option String) :
    (start ownerEmail).Reported where
  sound := start_sound ownerEmail
  status h := by cases h

/-- A delivered snapshot is a state the payment had. -/
theorem Sound.delivery_observed (hs : s.Sound) (h : Steps cal config s e s')
    (hd : s.delivery e = some d) : d.payment ∈ s.history d.payment.id := by
  cases (delivery_source h hd).1 with
  | row _ _ hobs => simpa [observed] using hobs
  | renewal hi => exact (hs.response (List.mem_of_getElem? hi) rfl).1

theorem Reported.step (hr : s.Reported) (h : Steps cal config s e s') : s'.Reported where
  sound := hr.sound.step h
  status {id status} hstatus := by
    cases step_status h id with
    | kept heq =>
      obtain ⟨p, hp, hps⟩ := hr.status (heq ▸ hstatus)
      exact ⟨p, mem_history_step h hp, hps⟩
    | delivered d hd he heq =>
      refine ⟨d.payment, mem_history_step h (he ▸ hr.sound.delivery_observed h hd), ?_⟩
      rw [heq] at hstatus
      exact Option.some.inj hstatus
    | inserted p _ hp heq =>
      refine ⟨p, mem_history_step h hp, ?_⟩
      rw [heq] at hstatus
      exact Option.some.inj hstatus

/-- The event applies a snapshot of an open payment to a row that is settled. -/
def AppliesStale (s : World) (e : Event) : Prop :=
  ∃ d status, s.delivery e = some d ∧ s.db.statusOf d.payment.id = some status ∧
    status.isOpen = false ∧ d.payment.status.isOpen

/-- The step changes no settled status, and a payment that a lifecycle call leaves settled is not
polled again. -/
structure KeepsSettled (s : World) (e : Event) (s' : World) : Prop where
  status : ∀ id status, s.db.statusOf id = some status → status.isOpen = false →
    s'.db.statusOf id = some status
  unpolled : ∀ d row, s.delivery e = some d → s'.db.payments d.payment.id = some row →
    row.status.isOpen = false → row.reconcileAfter = none

theorem Reported.keepsSettled_iff (hr : s.Reported) (h : Steps cal config s e s') :
    KeepsSettled s e s' ↔ ¬s.AppliesStale e := by
  constructor
  · rintro hk ⟨d, status, hd, hstatus, hfinal, hopen⟩
    have hkept := hk.status _ _ hstatus hfinal
    rw [Database.statusOf_eq, delivery_polling h hd, Option.map_some, Option.some.injEq] at hkept
    rw [← hkept, hopen] at hfinal
    cases hfinal
  · intro hfresh
    refine ⟨fun id status hstatus hfinal => ?_, fun d row hd hrow hfinal => ?_⟩
    · cases step_status h id with
      | kept heq => rw [heq, hstatus]
      | delivered d hd he heq =>
        subst he
        have hsettled : d.payment.status.isOpen = false := by
          by_contra hopen
          exact hfresh ⟨d, status, hd, hstatus, hfinal, by simpa using hopen⟩
        -- both statuses are final states of one provider payment
        obtain ⟨p, hp, rfl⟩ := hr.status hstatus
        have h₁ := hr.sound.final hp hfinal
        have h₂ := hr.sound.final (hr.sound.delivery_observed h hd) hsettled
        rw [heq, ← h₁, h₂]
      | inserted p hnone => rw [hnone] at hstatus; cases hstatus
    · have hp := delivery_polling h hd
      rw [Database.polling, hrow, Option.map_some, Option.some.injEq, Prod.mk.injEq] at hp
      rw [hp.2, YooPayment.nextPoll, ← hp.1, hfinal]
      rfl

/-- A run keeps every settled status, and leaves no settled row polled after a lifecycle call,
exactly when no delivery in it applies an open snapshot to a settled row. -/
theorem settled_status_kept_iff (cal : Calendar) (config : BillingConfig)
    (ownerEmail : OrganizationId → Option String) (es : List Event) (s : World) :
    Transition.Run (Transition.Meeting (Steps cal config) KeepsSettled) (start ownerEmail) es s ↔
      Transition.Run (Transition.Meeting (Steps cal config) fun s e _ => ¬s.AppliesStale e)
        (start ownerEmail) es s := by
  constructor
  · refine fun h => h.mono_invariant (I := Reported) (fun s e s' hr hstep => ?_)
      (start_reported ownerEmail)
    exact ⟨⟨hstep.1, (hr.keepsSettled_iff hstep.1).mp hstep.2⟩, hr.step hstep.1⟩
  · refine fun h => h.mono_invariant (I := Reported) (fun s e s' hr hstep => ?_)
      (start_reported ownerEmail)
    exact ⟨⟨hstep.1, (hr.keepsSettled_iff hstep.1).mpr hstep.2⟩, hr.step hstep.1⟩

/-- Reconciliation fetches the payment while it is pending; the webhook stores its success before
the fetched snapshot is applied. -/
def staleReconciliation : List Event :=
  [.checkoutCall 1 (.header 0) (checkoutPayment .pending),
   .checkoutStore april 1 (.header 0) (checkoutPayment .pending),
   .claimReconciliation (april + minutes 10) 10,
   .providerUpdate (checkoutPayment .succeeded),
   .webhook (april + minutes 11) .succeeded (checkoutPayment .succeeded)]

theorem staleReconciliation_enabled :
    (Transition.exec (step .thirtyDays .default) owned staleReconciliation).isSome := by
  decide +kernel

/-- The sample system after the webhook. -/
def succeededCheckout : World :=
  (Transition.exec (step .thirtyDays .default) owned staleReconciliation).get
    staleReconciliation_enabled

theorem succeededCheckout_reconciled :
    (Transition.exec (step .thirtyDays .default) succeededCheckout
      [.reconcile (april + minutes 12) (checkoutPayment .pending)]).isSome := by
  decide +kernel

/-- A payment that was stored as succeeded is pending again. -/
theorem settled_status_overwritten :
    ∃ s s', Transition.Run (Steps .thirtyDays .default) owned staleReconciliation s ∧
      Transition.Run (Steps .thirtyDays .default) s
        [.reconcile (april + minutes 12) (checkoutPayment .pending)] s' ∧
      s.db.statusOf 10 = some .succeeded ∧ s'.db.statusOf 10 = some .pending :=
  ⟨succeededCheckout, _, .of_exec_get staleReconciliation_enabled,
    .of_exec_get succeededCheckout_reconciled, by decide +kernel, by decide +kernel⟩

end World

end Tonatiuh.Billing
