import Tonatiuh.Billing.Provider

/-! The paid period of a subscription and the cancelled renewals.

The failure branch of `applyPaymentLifecycle` reads the subscription as it is when the
cancellation arrives. It is written for a period that has run out: then `now()+delay` lies
behind `current_period_end` and the subscription has nothing to lose but its grace. When another
payment has extended the period after the renewal was claimed, the same statement takes the new
period away or schedules a charge inside it; the catch branch of `renew` schedules such a charge
too. Every run that keeps clear of these steps respects paid periods. -/

namespace Tonatiuh.Billing

/-- How much a status entitles to. -/
def SubscriptionStatus.rank : SubscriptionStatus → Nat
  | .inactive | .cancelled => 0
  | .pastDue => 1
  | .active => 2

/-- The subscription does not charge before its period ends. -/
def Subscription.BillsLate (row : Subscription) : Prop :=
  ∀ next periodEnd, row.nextBillingAt = some next → row.currentPeriodEnd = some periodEnd →
    periodEnd ≤ next

theorem Subscription.BillsLate.of_none {row : Subscription} (h : row.nextBillingAt = none) :
    row.BillsLate := by
  intro next _ hn
  rw [h] at hn; cases hn

/-- What has been given up is not entitled any more. -/
def Subscription.Plain (row : Subscription) : Prop := row.status.rank = 0 → row.plan = .free

namespace World

variable {cal : Calendar} {config : BillingConfig} {s s' : World} {e : Event} {d : Delivery}
  {org : OrganizationId}

/-- The renewal payment was created for a claim made after the last change of the period end. -/
def ChargedInPeriod (s : World) (org : OrganizationId) (id : PaymentId) : Prop :=
  ∃ c, s.charges id = some c ∧ c.organizationId = org ∧ c.epoch = s.epoch org

/-- The period is over, and a subscription that is past due keeps its grace. -/
def Lapsed (cal : Calendar) (config : BillingConfig) (d : Delivery) (row : Subscription) : Prop :=
  row.status ≠ .active ∧ (∀ periodEnd, row.currentPeriodEnd = some periodEnd → periodEnd ≤ d.now) ∧
    (row.status = .pastDue → row.exhausted cal config d.now
      (dunningDelay config d.payment d.localPayment.attemptNumber) = false)

/-- A cancelled renewal is first applied, and a renewal first fails, only while the period it was
claimed for is the current one, or when there is no paid period left to lose. -/
structure AppliesInPeriod (cal : Calendar) (config : BillingConfig) (s : World) (e : Event) :
    Prop where
  duns : ∀ {org d}, s.Duns org e d → s.ChargedInPeriod org d.payment.id ∨
    ∀ row, s.db.subscriptions org = some row → Lapsed cal config d row
  renewError : ∀ {now index flight}, e = .renewError now index →
    s.renewals[index]? = some flight → flight.epoch = s.epoch flight.item.organizationId ∨
      ∀ t, s.db.periodEnd flight.item.organizationId = some t → t ≤ now + hours 1

/-- The step respects the paid period of every organization it duns: if another payment has
extended the period since the renewal was claimed, neither status nor plan go down; and no
charge is scheduled before the end of a running period. -/
def RespectsPeriod (s : World) (e : Event) (s' : World) : Prop :=
  ∀ org d row row', s.Duns org e d → s.db.subscriptions org = some row →
    s'.db.subscriptions org = some row' →
    (¬ s.ChargedInPeriod org d.payment.id →
      row.status.rank ≤ row'.status.rank ∧ (row.plan = .pro → row'.plan = .pro)) ∧
    ∀ next periodEnd, row'.nextBillingAt = some next → row'.currentPeriodEnd = some periodEnd →
      d.now < periodEnd → periodEnd ≤ next

/-- A claim made at `bound` in epoch `n`: if the epoch still lasts, its period was over. -/
def ClaimedAfter (s : World) (org : OrganizationId) (n : Nat) (bound : Timestamp) : Prop :=
  n ≤ s.epoch org ∧ (n = s.epoch org → ∀ t, s.db.periodEnd org = some t → t ≤ bound)

instance (s : World) (org : OrganizationId) (id : PaymentId) :
    Decidable (s.ChargedInPeriod org id) :=
  inferInstanceAs (Decidable (∃ c ∈ s.charges id, c.organizationId = org ∧ c.epoch = s.epoch org))

instance (cal : Calendar) (config : BillingConfig) (d : Delivery) (row : Subscription) :
    Decidable (Lapsed cal config d row) :=
  inferInstanceAs (Decidable (row.status ≠ .active ∧ (∀ t ∈ row.currentPeriodEnd, t ≤ d.now) ∧
    (row.status = .pastDue → row.exhausted cal config d.now
      (dunningDelay config d.payment d.localPayment.attemptNumber) = false)))

/-- The condition for the lifecycle call of the event and for the renewal that fails. -/
theorem appliesInPeriod_iff : s.AppliesInPeriod cal config e ↔
    (∀ d ∈ s.delivery e, d.payment.status = .canceled → d.localPayment.kind = .renewal →
      s.db.failed d.payment.id = false →
        s.ChargedInPeriod d.localPayment.organizationId d.payment.id ∨
        ∀ row ∈ s.db.subscriptions d.localPayment.organizationId, Lapsed cal config d row) ∧
    match e with
    | .renewError now index => ∀ flight ∈ s.renewals[index]?,
        flight.epoch = s.epoch flight.item.organizationId ∨
          ∀ t ∈ s.db.periodEnd flight.item.organizationId, t ≤ now + hours 1
    | _ => True := by
  constructor
  · intro h
    refine ⟨fun d hd hc hk hf => h.duns ⟨hd, rfl, hc, hk, hf⟩, ?_⟩
    split
    next now index => exact fun flight hflight => h.renewError rfl hflight
    next => trivial
  · rintro ⟨hd, herror⟩
    refine ⟨fun {org d} hduns => ?_, fun he hflight => ?_⟩
    · obtain ⟨hdelivery, rfl, hcanceled, hkind, hfresh⟩ := hduns
      exact hd d hdelivery hcanceled hkind hfresh
    · subst he
      exact herror _ hflight

instance (cal : Calendar) (config : BillingConfig) (s : World) (e : Event) :
    Decidable (s.AppliesInPeriod cal config e) := by
  refine @decidable_of_iff _ _ appliesInPeriod_iff.symm ?_
  refine @instDecidableAnd _ _ inferInstance ?_
  induction e using Event.casesOn with
  | renewError => exact inferInstance
  | _ => exact instDecidableTrue

theorem ClaimedAfter.step (hc : s.ClaimedAfter org n bound) (h : Steps cal config s e s') :
    s'.ClaimedAfter org n bound := by
  refine ⟨Nat.le_trans hc.1 (epoch_le h org), fun he t ht => ?_⟩
  obtain ⟨hperiod, hepoch⟩ := periodEnd_of_epoch h he.symm hc.1
  exact hc.2 hepoch.symm t (hperiod ▸ ht)

/-- What the runs of `AppliesInPeriod` keep. -/
structure Punctual (s : World) : Prop where
  subscription : ∀ {org row}, s.db.subscriptions org = some row → row.BillsLate ∧ row.Plain
  renewal : ∀ {flight : InFlight}, flight ∈ s.renewals →
    s.ClaimedAfter flight.item.organizationId flight.epoch flight.claimedAt
  charge : ∀ {id c}, s.charges id = some c → s.ClaimedAfter c.organizationId c.epoch c.claimedAt

theorem start_punctual (ownerEmail : OrganizationId → Option String) :
    (start ownerEmail).Punctual where
  subscription h := by cases h
  renewal h := by cases h
  charge h := by cases h

/-- A due renewal's period is over. -/
theorem Punctual.dueRenewal (hp : s.Punctual) (h : s.db.dueRenewal now org = some item) :
    item.organizationId = org ∧ ∃ t, s.db.periodEnd org = some t ∧ t ≤ now := by
  unfold Database.dueRenewal at h
  split at h
  · next hrow _ =>
    simp only [Option.ite_none_right_eq_some] at h
    obtain ⟨⟨hnext, -⟩, h⟩ := h
    cases h
    refine ⟨rfl, _, by rw [Database.periodEnd, hrow]; rfl, ?_⟩
    exact Int.le_trans ((hp.subscription hrow).1 _ _ rfl rfl) hnext
  · cases h

theorem le_add_minutes (t : Timestamp) (n : Nat) : t ≤ t + minutes n := by
  change @LE.le Int _ _ _; simp only [minutes]; omega

theorem le_add_hours (t : Timestamp) (n : Nat) : t ≤ t + hours n := by
  change @LE.le Int _ _ _; simp only [hours]; omega

/-- The period of a dunned subscription is over if the step meets the condition. -/
theorem Punctual.duns (hp : s.Punctual) (h : Steps cal config s e s')
    (hc : s.AppliesInPeriod cal config e) (hd : s.Duns org e d)
    (hrow : s.db.subscriptions org = some row) :
    ∀ t, row.currentPeriodEnd = some t → t ≤ d.now := by
  intro t ht
  rcases hc.duns hd with ⟨c, hcharge, horg, hepoch⟩ | hl
  · have hstart := (delivery_source h hd.delivery).2
    refine Int.le_trans ((hp.charge hcharge).2 (horg ▸ hepoch) t ?_)
      (claimedAt_le_of_startedAfter hstart hcharge)
    simp [Database.periodEnd, horg, hrow, ht]
  · exact (hl row hrow).2.1 t ht

/-- The success branch charges next at the new period end. -/
theorem extend_billsLate (o : Option Subscription) :
    (Subscription.extend cal now payment o).BillsLate ∧
      (Subscription.extend cal now payment o).Plain := by
  have hnext : (Subscription.extend cal now payment o).nextBillingAt = none ∨
      (Subscription.extend cal now payment o).nextBillingAt =
        (Subscription.extend cal now payment o).currentPeriodEnd := by
    cases o with
    | none => cases hm : payment.savedMethod <;> simp [Subscription.extend, hm]
    | some row =>
      simp only [Subscription.extend]
      split
      · exact .inl rfl
      · exact .inr rfl
  constructor
  · rcases hnext with hnext | hnext
    · exact .of_none hnext
    · intro next periodEnd hn ht
      rw [hnext, ht] at hn
      cases hn; exact Int.le_refl _
  · intro hrank
    cases o <;> simp [Subscription.extend, SubscriptionStatus.rank] at hrank

/-- The failure branch schedules the next charge after `now`, and takes the plan with the
status. -/
theorem dun_billsLate {row : Subscription}
    (hend : ∀ t, row.currentPeriodEnd = some t → t ≤ now) :
    (row.dun cal config now payment attempt).BillsLate ∧
      (row.dun cal config now payment attempt).Plain := by
  constructor
  · intro next periodEnd hnext hperiod
    simp only [Subscription.dun] at hnext hperiod
    split at hnext
    · cases hnext
    · obtain ⟨n, -, rfl⟩ := Option.map_eq_some_iff.mp hnext
      exact Int.le_trans (hend _ hperiod) (le_add_hours now n)
  · intro hrank
    simp only [Subscription.dun] at hrank ⊢
    split
    · rfl
    · next hx => simp [hx, SubscriptionStatus.rank] at hrank

theorem Punctual.step_subscription (hp : s.Punctual) (h : Steps cal config s e s')
    (hc : s.AppliesInPeriod cal config e) (hrow' : s'.db.subscriptions org = some row') :
    row'.BillsLate ∧ row'.Plain := by
  cases step_outcome h with
  | routine _ hr =>
    have hr := hr org
    rw [hrow'] at hr
    have hsub (row) : s.db.subscriptions org = some row → row.BillsLate ∧ row.Plain :=
      hp.subscription
    generalize hrow : s.db.subscriptions org = o at hr hsub
    cases hr with
    | same => exact hsub _ rfl
    | claim hdue =>
      refine ⟨fun next t hnext ht => ?_, (hsub _ rfl).2⟩
      cases hnext
      obtain ⟨-, t', ht', hle⟩ := hp.dueRenewal hdue
      rw [Database.periodEnd, hrow] at ht'
      cases ht.symm.trans ht'
      exact Int.le_trans hle (le_add_minutes _ _)
    | renewFailed hi horg hle =>
      refine ⟨fun next t hnext ht => ?_, (hsub _ rfl).2⟩
      cases hnext
      have hperiod : s.db.periodEnd org = some t := by simp [Database.periodEnd, hrow, ← ht]; rfl
      rcases hc.renewError rfl hi with hep | hend
      · have := (hp.renewal (List.mem_of_getElem? hi)).2 hep t (horg ▸ hperiod)
        exact Int.le_trans (Int.le_trans this hle) (le_add_hours _ _)
      · exact hend t (horg ▸ hperiod)
    | cancel => exact ⟨.of_none rfl, (hsub _ rfl).2⟩
    | resume _ =>
      refine ⟨fun next t hnext ht => ?_, (hsub _ rfl).2⟩
      have := hnext.symm.trans ht
      cases this
      exact Int.le_refl _
    | refund _ _ => exact ⟨.of_none rfl, fun _ => rfl⟩
    | expire =>
      unfold Subscription.expire
      split
      · exact ⟨.of_none rfl, fun _ => rfl⟩
      · exact hsub _ rfl
    | anonymize => exact ⟨.of_none rfl, (hsub _ rfl).2⟩
  | extended d _ _ _ _ _ hsub =>
    rw [hsub, Database.upsertSubscription_apply] at hrow'
    split at hrow'
    · cases hrow'
      exact extend_billsLate _
    · exact hp.subscription hrow'
  | dunned d hd hcan hk hun _ _ hsub =>
    rw [hsub, Database.updateSubscription_apply] at hrow'
    split at hrow'
    · next horg =>
      obtain ⟨row, hrow, rfl⟩ := Option.map_eq_some_iff.mp hrow'
      exact dun_billsLate
        (hp.duns h hc ⟨hd, horg.symm, hcan, hk, hun⟩ hrow)
    · exact hp.subscription hrow'

theorem Punctual.step (hp : s.Punctual) (h : Steps cal config s e s')
    (hc : s.AppliesInPeriod cal config e) : s'.Punctual := by
  refine ⟨hp.step_subscription h hc, fun {flight} hf => ?_, fun {id c} hcharge => ?_⟩
  · cases step_provider h with
    | quiet _ _ _ hr | update _ _ _ _ hr | checkout _ _ _ _ _ _ hr =>
      rw [hr] at hf
      exact (hp.renewal hf).step h
    | claim hdue _ _ _ hr =>
      rw [hr] at hf
      rcases List.mem_cons.mp hf with rfl | hf
      · obtain ⟨rfl, t, ht, hle⟩ := hp.dueRenewal hdue
        refine ClaimedAfter.step ⟨Nat.le_refl _, fun _ t' ht' => ?_⟩ h
        exact Option.some.inj (ht.symm.trans ht') ▸ hle
      · exact (hp.renewal hf).step h
    | replay hi _ _ _ _ _ hr | charge hi _ _ _ _ _ _ hr =>
      rw [hr] at hf
      rcases List.mem_or_eq_of_mem_set hf with hf | rfl
      · exact (hp.renewal hf).step h
      · exact (hp.renewal (List.mem_of_getElem? hi)).step h
    | finish _ _ _ hr =>
      rw [hr] at hf
      exact (hp.renewal (List.mem_of_mem_eraseIdx hf)).step h
  · cases step_provider h with
    | quiet _ _ hch _ | update _ _ _ hch _ | checkout _ _ _ _ _ hch _ | claim _ _ _ hch _
    | replay _ _ _ _ _ hch _ | finish _ _ hch _ =>
      rw [hch] at hcharge
      exact (hp.charge hcharge).step h
    | charge hi _ _ _ _ _ hch _ =>
      rw [hch, Function.update_apply] at hcharge
      split at hcharge
      · cases hcharge
        exact (hp.renewal (List.mem_of_getElem? hi)).step h
      · exact (hp.charge hcharge).step h

/-- The update of a fresh cancellation. -/
theorem Duns.subscription (hd : s.Duns org e d) (h : Steps cal config s e s')
    (hrow : s.db.subscriptions org = some row) (hrow' : s'.db.subscriptions org = some row') :
    row' = row.dun cal config d.now d.payment d.localPayment.attemptNumber ∨ row' = row := by
  cases step_outcome h with
  | routine _ hr =>
    have hr := hr org
    have hde := hd.delivery
    rw [hrow, hrow'] at hr
    generalize ho : some row = o, ho' : some row' = o' at hr
    cases hr with
    | same => cases ho; cases ho'; exact .inr rfl
    | refund ht _ => cases e <;> simp [World.delivery, Event.refund] at hde ht
    | expire | claim | renewFailed | cancel | resume | anonymize => simp [World.delivery] at hde
  | extended d' hd' hg _ _ _ _ =>
    obtain rfl := Option.some.inj (hd.delivery.symm.trans hd')
    simp [YooPayment.grants, hd.canceled] at hg
  | dunned d' hd' _ _ _ _ _ hsub =>
    obtain rfl := Option.some.inj (hd.delivery.symm.trans hd')
    rw [hsub, Database.updateSubscription_apply, if_pos hd.organizationId.symm, hrow] at hrow'
    exact .inl (Option.some.inj hrow').symm

theorem Punctual.respectsPeriod (hp : s.Punctual) (h : Steps cal config s e s')
    (hc : s.AppliesInPeriod cal config e) : RespectsPeriod s e s' := by
  intro org d row row' hd hrow hrow'
  have hend := hp.duns h hc hd hrow
  rcases hd.subscription h hrow hrow' with rfl | rfl
  · refine ⟨fun hlate => ?_, fun next periodEnd _ ht hlt => ?_⟩
    · obtain ⟨hactive, -, hgrace⟩ := (hc.duns hd).resolve_left hlate row hrow
      have hplain := (hp.subscription hrow).2
      simp only [Subscription.dun]
      cases hs : row.status with
      | active => exact absurd hs hactive
      | pastDue => simp [hgrace hs, SubscriptionStatus.rank]
      | inactive | cancelled =>
        have := hplain (by rw [hs]; rfl)
        simp [SubscriptionStatus.rank, this]
    · exact absurd (hend periodEnd ht) (Int.not_le.mpr hlt)
  · refine ⟨fun _ => ⟨Nat.le_refl _, fun hpro => hpro⟩, fun next periodEnd hn ht _ => ?_⟩
    exact (hp.subscription hrow).1 next periodEnd hn ht

end World

open Transition World

/-- In every run from the start in which cancelled renewals and renewal errors are applied within
the period they were claimed for, or with no paid period to lose: `claimRenewal` returns only
subscriptions whose paid period has ended, and every step respects paid periods. -/
theorem paid_period_respected (cal : Calendar) (config : BillingConfig)
    (ownerEmail : OrganizationId → Option String)
    (h : Run (Meeting (Steps cal config) fun s e _ => s.AppliesInPeriod cal config e)
      (.start ownerEmail) es s) :
    (∀ now org item, s.db.dueRenewal now org = some item →
      ∃ t, s.db.periodEnd org = some t ∧ t ≤ now) ∧
    ∀ e s', Steps cal config s e s' → s.AppliesInPeriod cal config e → RespectsPeriod s e s' := by
  have hp : s.Punctual := h.invariant (I := Punctual)
    (fun _ _ _ hi hst => hi.step hst.1 hst.2) (start_punctual ownerEmail)
  exact ⟨fun now org item hdue => (hp.dueRenewal hdue).2,
    fun e s' hst hc => hp.respectsPeriod hst hc⟩

/-- The renewal of April is cancelled while its month has not been paid otherwise, and an hour later
the next attempt succeeds. -/
def cancelledInPeriod : List Event :=
  subscribing ++
    [.claimRenewal renewalDay 1, .renewCall 0 (renewalPayment 11 .pending),
     .renewRecord (renewalDay + minutes 1) 0, .providerUpdate (renewalPayment 11 .canceled),
     .webhook (renewalDay + minutes 2) .canceled (renewalPayment 11 .canceled),
     .claimRenewal (renewalDay + minutes 62) 1, .renewCall 0 (renewalPayment 12 .pending),
     .renewRecord (renewalDay + minutes 63) 0, .providerUpdate (renewalPayment 12 .succeeded),
     .webhook (renewalDay + minutes 64) .succeeded (renewalPayment 12 .succeeded)]

theorem cancelledInPeriod_enabled :
    (execWhere (step .thirtyDays .default) (AppliesInPeriod .thirtyDays .default) owned
      cancelledInPeriod).isSome := by decide +kernel

theorem paid_period_respected_cancelledInPeriod :
    let s := (execWhere (step .thirtyDays .default) (AppliesInPeriod .thirtyDays .default) owned
      cancelledInPeriod).get cancelledInPeriod_enabled
    (∀ now org item, s.db.dueRenewal now org = some item →
      ∃ t, s.db.periodEnd org = some t ∧ t ≤ now) ∧
    ∀ e s', Steps .thirtyDays .default s e s' → s.AppliesInPeriod .thirtyDays .default e →
      RespectsPeriod s e s' :=
  paid_period_respected .thirtyDays .default _ (Run.of_execWhere_get cancelledInPeriod_enabled)

/-- While the renewal of April is pending the user pays a checkout. -/
def checkoutDuringRenewal : List Event :=
  subscribing ++
    [.claimRenewal renewalDay 1, .renewCall 0 (renewalPayment 11 .pending),
     .renewRecord (renewalDay + minutes 1) 0,
     .checkoutCall 1 (.header 1) (checkoutPayment .pending 12),
     .checkoutStore (renewalDay + minutes 2) 1 (.header 1) (checkoutPayment .pending 12),
     .providerUpdate (checkoutPayment .succeeded 12),
     .webhook (renewalDay + minutes 3) .succeeded (checkoutPayment .succeeded 12)]

/-- Then the renewal is cancelled. -/
def lateCancellation : List Event :=
  [.providerUpdate (renewalPayment 11 .canceled),
   .webhook (renewalDay + minutes 4) .canceled (renewalPayment 11 .canceled)]

/-- The cancellation makes the subscription paid for May past due, and schedules a charge
a month before the end of that period: one hour later the organization is claimed. -/
theorem late_cancellation_takes_period :
    ((exec (step .thirtyDays .default) owned checkoutDuringRenewal).map fun s =>
        (s.db.subscriptions 1).map fun row => (row.status, row.currentPeriodEnd)) =
      some (some (.active, some (renewalDay + minutes 3 + hours 720))) ∧
    ((exec (step .thirtyDays .default) owned (checkoutDuringRenewal ++ lateCancellation)).map
        fun s => (s.db.subscriptions 1).map fun row =>
          (row.status, row.currentPeriodEnd, row.nextBillingAt)) =
      some (some (.pastDue, some (renewalDay + minutes 3 + hours 720),
        some (renewalDay + minutes 4 + hours 1))) ∧
    renewalDay + minutes 4 + hours 1 < renewalDay + minutes 3 + hours 720 ∧
    (exec (step .thirtyDays .default) owned (checkoutDuringRenewal ++ lateCancellation ++
      [.claimRenewal (renewalDay + minutes 4 + hours 1) 1])).isSome := by
  decide +kernel

end Tonatiuh.Billing
