import Tonatiuh.Billing.Inversion

/-! What a step does to the provider, to the renewals in flight and to the history variables.

`ProviderStep` is the inversion lemma of these components, as `World.Outcome` is for the
subscriptions; `Delivery.Source` says where the arguments of a lifecycle call come from. -/

namespace Tonatiuh.Billing

namespace World

/-- What a step does to the provider's payments and keys, to the renewals and to the charges. -/
inductive ProviderStep (s : World) : Event → World → Prop where
  | quiet {s' : World} : s'.history = s.history → s'.issued = s.issued → s'.charges = s.charges →
    s'.renewals = s.renewals → ProviderStep s e s'
  | update : s.mayBecome payment →
    s'.history = Function.update s.history payment.id (payment :: s.history payment.id) →
    s'.issued = s.issued → s'.charges = s.charges → s'.renewals = s.renewals →
    ProviderStep s (.providerUpdate payment) s'
  | checkout : s.issued key = none → s.history payment.id = [] →
    payment.metadata = some ⟨org, .initial⟩ →
    s'.history = (s.create key payment).history → s'.issued = (s.create key payment).issued →
    s'.charges = s.charges → s'.renewals = s.renewals →
    ProviderStep s (.checkoutCall org key payment) s'
  | claim : s.db.dueRenewal now org = some item →
    s'.history = s.history → s'.issued = s.issued → s'.charges = s.charges →
    s'.renewals = { item, claimedAt := now, epoch := s.epoch org } :: s.renewals →
    ProviderStep s (.claimRenewal now org) s'
  | replay : s.renewals[index]? = some ⟨item, claimedAt, none, n⟩ →
    s.issued item.idempotencyKey = some payment.id →
    (s.history payment.id).head? = some payment →
    s'.history = s.history → s'.issued = s.issued → s'.charges = s.charges →
    s'.renewals = s.renewals.set index ⟨item, claimedAt, some payment, n⟩ →
    ProviderStep s (.renewCall index payment) s'
  | charge : s.renewals[index]? = some ⟨item, claimedAt, none, n⟩ →
    s.issued item.idempotencyKey = none → s.history payment.id = [] →
    payment.metadata = some ⟨item.organizationId, .renewal⟩ →
    s'.history = (s.create item.idempotencyKey payment).history →
    s'.issued = (s.create item.idempotencyKey payment).issued →
    s'.charges = Function.update s.charges payment.id
      (some ⟨item.organizationId, claimedAt, n⟩) →
    s'.renewals = s.renewals.set index ⟨item, claimedAt, some payment, n⟩ →
    ProviderStep s (.renewCall index payment) s'
  | finish : s'.history = s.history → s'.issued = s.issued → s'.charges = s.charges →
    s'.renewals = s.renewals.eraseIdx index → ProviderStep s e s'

variable {cal : Calendar} {config : BillingConfig} {s s' : World} {e : Event} {d : Delivery}
  {org : OrganizationId}

theorem ProviderStep.commit (db : Database) : ProviderStep s e (s.commit db effects) :=
  .quiet rfl rfl rfl rfl

theorem ProviderStep.settle (r : Except String (Database × List Effect)) :
    ProviderStep s e (s.settle r) := by
  cases r with
  | error _ => exact .quiet rfl rfl rfl rfl
  | ok r => exact .commit _

theorem step_provider (h : Steps cal config s e s') : ProviderStep s e s' := by
  unfold Steps Transition.Stepping at h
  cases e with
  | providerUpdate payment =>
    simp only [step, Option.ite_none_right_eq_some] at h
    obtain ⟨hm, h⟩ := h
    cases h; exact .update hm rfl rfl rfl rfl
  | checkoutCall org key payment =>
    simp only [step, Option.ite_none_right_eq_some] at h
    obtain ⟨⟨h₁, h₂, h₃⟩, h⟩ := h
    cases h; exact .checkout h₁ h₂ h₃ rfl rfl rfl rfl
  | checkoutStore now org key payment | webhook now status payment =>
    simp only [step, Option.ite_none_right_eq_some] at h
    obtain ⟨-, h⟩ := h
    cases h; exact .settle _
  | claimRenewal now org =>
    simp only [step, Option.map_eq_some_iff] at h
    obtain ⟨item, hitem, h⟩ := h
    cases h; exact .claim hitem rfl rfl rfl rfl
  | renewCall index payment =>
    simp only [step] at h
    split at h
    · next item claimedAt epoch hi =>
      split at h
      · next hissued =>
        simp only [Option.ite_none_right_eq_some] at h
        obtain ⟨⟨rfl, hhead⟩, h⟩ := h
        cases h; exact .replay hi hissued hhead rfl rfl rfl rfl
      · next hissued =>
        simp only [Option.ite_none_right_eq_some] at h
        obtain ⟨⟨h₁, h₂⟩, h⟩ := h
        cases h; exact .charge hi hissued h₁ h₂ rfl rfl rfl rfl
    · cases h
  | renewRecord now index =>
    simp only [step] at h
    split at h
    · split at h
      · simp only [Option.ite_none_right_eq_some] at h
        obtain ⟨-, h⟩ := h
        cases h; exact .finish rfl rfl rfl rfl
      · cases h
    · cases h
  | renewError now index =>
    simp only [step] at h
    split at h
    · simp only [Option.ite_none_right_eq_some] at h
      obtain ⟨-, h⟩ := h
      cases h; exact .finish rfl rfl rfl rfl
    · cases h
  | renewCrash index => cases h; exact .finish rfl rfl rfl rfl
  | claimReconciliation now id =>
    simp only [step, Option.ite_none_right_eq_some] at h
    obtain ⟨-, h⟩ := h
    cases h; exact .commit _
  | reconcile now payment =>
    simp only [step] at h
    split at h
    · simp only [Option.ite_none_right_eq_some] at h
      obtain ⟨-, h⟩ := h
      cases h; exact .settle _
    · cases h
  | reserveRefund id key | storeRefund now org key refund | refundWebhook now refund =>
    cases h; exact .settle _
  | reconcileError now id | expireGracePeriods now | cancel org | resume now org
  | reconcileRefund now refund | anonymize org | cleanup now => cases h; exact .commit _

/-! ## Periods -/

/-- The epoch of an organization counts the changes of its period end. -/
theorem step_epoch (h : Steps cal config s e s') (org : OrganizationId) :
    s'.epoch org = if s'.db.periodEnd org = s.db.periodEnd org then s.epoch org
      else s.epoch org + 1 := by
  unfold Steps Transition.Stepping at h
  have hsettle (r : Except String (Database × List Effect)) : (s.settle r).epoch org =
      if (s.settle r).db.periodEnd org = s.db.periodEnd org then s.epoch org
      else s.epoch org + 1 := by
    cases r with
    | error _ => simp [settle]
    | ok r => rfl
  cases e with
  | providerUpdate payment | checkoutCall org key payment =>
    simp only [step, Option.ite_none_right_eq_some] at h
    obtain ⟨-, h⟩ := h
    cases h; simp [create]
  | checkoutStore now org key payment | webhook now status payment =>
    simp only [step, Option.ite_none_right_eq_some] at h
    obtain ⟨-, h⟩ := h
    cases h; exact hsettle _
  | claimRenewal now org =>
    simp only [step, Option.map_eq_some_iff] at h
    obtain ⟨item, hitem, h⟩ := h
    cases h; rfl
  | renewCall index payment =>
    simp only [step] at h
    split at h
    · split at h <;> simp only [Option.ite_none_right_eq_some] at h <;> obtain ⟨-, h⟩ := h <;>
        cases h <;> simp [create]
    · cases h
  | renewRecord now index =>
    simp only [step] at h
    split at h
    · split at h
      · simp only [Option.ite_none_right_eq_some] at h
        obtain ⟨-, h⟩ := h
        cases h; rfl
      · cases h
    · cases h
  | renewError now index =>
    simp only [step] at h
    split at h
    · simp only [Option.ite_none_right_eq_some] at h
      obtain ⟨-, h⟩ := h
      cases h; rfl
    · cases h
  | renewCrash index => cases h; simp
  | claimReconciliation now id =>
    simp only [step, Option.ite_none_right_eq_some] at h
    obtain ⟨-, h⟩ := h
    cases h; rfl
  | reconcile now payment =>
    simp only [step] at h
    split at h
    · simp only [Option.ite_none_right_eq_some] at h
      obtain ⟨-, h⟩ := h
      cases h; exact hsettle _
    · cases h
  | reserveRefund id key | storeRefund now org key refund | refundWebhook now refund =>
    cases h; exact hsettle _
  | reconcileError now id | expireGracePeriods now | cancel org | resume now org
  | reconcileRefund now refund | anonymize org | cleanup now => cases h; rfl

theorem epoch_le (h : Steps cal config s e s') (org : OrganizationId) :
    s.epoch org ≤ s'.epoch org := by
  rw [step_epoch h]
  split <;> omega

/-- Within one epoch the period end does not change. -/
theorem periodEnd_of_epoch (h : Steps cal config s e s') (he : s'.epoch org = n)
    (hn : n ≤ s.epoch org) : s'.db.periodEnd org = s.db.periodEnd org ∧ s.epoch org = n := by
  rw [step_epoch h] at he
  split at he
  · next hp => exact ⟨hp, he⟩
  · omega

/-! ## Deliveries -/

/-- Where a lifecycle call has its arguments from: a stored row and a state of the payment
fetched from the provider, or a renewal and its response. -/
inductive Source (s : World) (d : Delivery) : Prop where
  | row {row : BillingPayment} : s.db.payments d.payment.id = some row →
    d.localPayment = row.toLocal →
    s.observed d.payment → Source s d
  | renewal {index : Nat} {item : Renewal} :
    s.renewals[index]? = some ⟨item, claimedAt, some d.payment, n⟩ →
    d.localPayment = ⟨item.organizationId, d.payment.id, .renewal, item.attempt⟩ → Source s d

theorem delivery_source (h : Steps cal config s e s') (hd : s.delivery e = some d) :
    s.Source d ∧ s.startedAfter d.now d.payment.id := by
  unfold Steps Transition.Stepping at h
  cases e with
  | webhook now status payment =>
    simp only [step, Option.ite_none_right_eq_some] at h
    obtain ⟨⟨hobs, hstart⟩, -⟩ := h
    simp only [delivery] at hd
    split at hd
    · next row hrow =>
      split at hd
      · cases hd
      · cases hd; exact ⟨.row (verifyNotification_eq_ok hrow) rfl hobs, hstart⟩
    · cases hd
  | renewRecord now index =>
    simp only [step] at h
    split at h
    · next hi =>
      split at h
      · simp only [Option.ite_none_right_eq_some] at h
        obtain ⟨⟨-, hstart⟩, -⟩ := h
        simp only [delivery, hi, Option.some.injEq] at hd
        subst hd
        exact ⟨.renewal hi rfl, hstart⟩
      · cases h
    · cases h
  | reconcile now payment =>
    simp only [step] at h
    split at h
    · next hrow =>
      simp only [Option.ite_none_right_eq_some] at h
      obtain ⟨⟨hobs, hstart⟩, -⟩ := h
      simp only [delivery, hrow, Option.map_some, Option.some.injEq] at hd
      subst hd
      exact ⟨.row hrow rfl hobs, hstart⟩
    · cases h
  | _ => simp [delivery] at hd

theorem claimedAt_le_of_startedAfter {id : PaymentId} (h : s.startedAfter now id)
    (hc : s.charges id = some c) :
    c.claimedAt ≤ now := by
  simp only [startedAfter, hc, Option.all_some, Bool.and_eq_true, decide_eq_true_eq] at h
  exact h.1

end World

end Tonatiuh.Billing
