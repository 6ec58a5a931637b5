import Tonatiuh.Billing.PaidPeriod
import Tonatiuh.Billing.RenewalAttempts

/-! The columns of a subscription taken together.

The nine statements that write `subscriptions` set overlapping groups of columns. `Represented` is
the agreement between them; each writer keeps it on the rows it was written for, and some of them
do not ask whether they have such a row. `KeepsRepresentation` lists, writer by writer, what they
do not ask. -/

namespace Tonatiuh.Billing

/-- Status, plan, period, grace period and renewal agree with each other. -/
structure Subscription.Represented (row : Subscription) : Prop where
  active : row.status = .active → row.plan = .pro ∧ row.currentPeriodEnd.isSome
  pastDue : row.status = .pastDue → row.plan = .pro ∧
    ∃ grace, row.gracePeriodEnd = some grace ∧ ∀ next, row.nextBillingAt = some next → next < grace
  cancelled : row.status = .cancelled →
    row.plan = .free ∧ row.autoRenew = false ∧ row.nextBillingAt = none
  manual : row.autoRenew = false → row.nextBillingAt = none

/-- A grace period that has begun ends after this time. -/
def Subscription.GraceAfter (row : Subscription) (t : Timestamp) : Prop :=
  row.status = .pastDue → ∀ grace, row.gracePeriodEnd = some grace → t < grace

section
variable {cal : Calendar} {config : BillingConfig} {now : Timestamp} {row : Subscription}

theorem extend_represented_iff {payment : YooPayment} :
    (Subscription.extend cal now payment (some row)).Represented ↔
      (row.autoRenew = false → payment.savedMethod = none → row.paymentMethodId = none) := by
  constructor
  · intro hr' hoff hsaved
    have hnext := hr'.manual (by simp [Subscription.extend, hsaved, hoff])
    by_contra hmethod
    simp [Subscription.extend, hsaved, hmethod] at hnext
  · intro hmanual
    refine ⟨fun _ => ⟨rfl, rfl⟩, fun hpastDue => ?_, fun hcancelled => ?_, fun hoff => ?_⟩
    · cases hpastDue
    · cases hcancelled
    cases hsaved : payment.savedMethod with
    | some method => simp [Subscription.extend, hsaved] at hoff
    | none =>
      have hoff : row.autoRenew = false := by simpa [Subscription.extend, hsaved] using hoff
      simp [Subscription.extend, hsaved, hmanual hoff hsaved]

theorem extend_none_represented (payment : YooPayment) :
    (Subscription.extend cal now payment none).Represented := by
  refine ⟨fun _ => ⟨rfl, rfl⟩, nofun, nofun, fun hoff => ?_⟩
  have hsaved : payment.savedMethod = none := by simpa [Subscription.extend] using hoff
  simp [Subscription.extend, hsaved]

/-- A retry that is left lies within the grace period the update stores. -/
theorem retry_before_grace {delay : Option Nat}
    (h : row.exhausted cal config now delay = false) :
    ∃ h, delay = some h ∧ ∃ grace,
      (row.gracePeriodEnd <|> row.currentPeriodEnd.map (cal.addDays · config.gracePeriodDays)) =
        some grace ∧ now + hours h < grace := by
  unfold Subscription.exhausted at h
  split at h
  · cases h
  · next hours' =>
    simp only [decide_eq_false_iff_not] at h
    have hlt : now + hours hours' < row.graceDeadline cal config now := Int.not_le.mp h
    unfold Subscription.graceDeadline at hlt
    cases hg : (row.gracePeriodEnd <|>
        row.currentPeriodEnd.map (cal.addDays · config.gracePeriodDays)) with
    | some grace => exact ⟨_, rfl, grace, rfl, by simpa [hg] using hlt⟩
    | none =>
      rw [hg, Option.getD_none] at hlt
      exact absurd hlt (Int.not_lt.mpr (World.le_add_hours now hours'))

theorem dun_represented_iff {payment : YooPayment} {attempt : Nat} :
    (row.dun cal config now payment attempt).Represented ↔
      (row.exhausted cal config now (dunningDelay config payment attempt) = false →
        row.plan = .pro ∧ row.autoRenew) := by
  constructor
  · intro hr' hleft
    obtain ⟨h, hdelay, -⟩ := retry_before_grace hleft
    refine ⟨?_, ?_⟩
    · have hpro := (hr'.pastDue (by simp [Subscription.dun, hleft])).1
      simpa [Subscription.dun, hleft] using hpro
    · by_contra hoff
      have hnext := hr'.manual (by simpa [Subscription.dun, hleft] using hoff)
      rw [hdelay] at hleft
      simp [Subscription.dun, hdelay, hleft] at hnext
  · intro hkeeps
    cases hleft : row.exhausted cal config now (dunningDelay config payment attempt) with
    | true =>
      refine ⟨fun h => ?_, fun h => ?_, fun _ => ?_, fun _ => ?_⟩
      · simp [Subscription.dun, hleft] at h
      · simp [Subscription.dun, hleft] at h
      · simp [Subscription.dun, hleft]
      · simp [Subscription.dun, hleft]
    | false =>
      obtain ⟨hpro, hauto⟩ := hkeeps hleft
      obtain ⟨h, hdelay, grace, hgrace, hlt⟩ := retry_before_grace hleft
      refine ⟨fun h => ?_, fun _ => ⟨?_, grace, ?_, fun next hnext => ?_⟩, fun h => ?_, fun h => ?_⟩
      · simp [Subscription.dun, hleft] at h
      · simp [Subscription.dun, hleft, hpro]
      · simp [Subscription.dun, hgrace]
      · rw [hdelay] at hleft
        have : now + hours h = next := by simpa [Subscription.dun, hdelay, hleft] using hnext
        rw [← this]; exact hlt
      · simp [Subscription.dun, hleft] at h
      · simp [Subscription.dun, hleft, hauto] at h

/-- Writing the next billing time of a row that renews. -/
theorem schedule_represented_iff (row' : Subscription) {t : Timestamp} (hr : row.Represented)
    (hstatus : row'.status = row.status) (hplan : row'.plan = row.plan)
    (hperiod : row'.currentPeriodEnd = row.currentPeriodEnd)
    (hgrace : row'.gracePeriodEnd = row.gracePeriodEnd) (hnext : row'.nextBillingAt = some t) :
    row'.Represented ↔ row'.autoRenew ∧ row.status ≠ .cancelled ∧ row.GraceAfter t := by
  constructor
  · intro hr'
    refine ⟨?_, fun hc => ?_, fun hp grace hg => ?_⟩
    · by_contra hoff
      have := hr'.manual (by simpa using hoff)
      rw [hnext] at this; cases this
    · have := (hr'.cancelled (hstatus.trans hc)).2.2
      rw [hnext] at this; cases this
    · obtain ⟨-, grace', hg', hlt⟩ := hr'.pastDue (hstatus.trans hp)
      rw [hgrace, hg] at hg'
      cases hg'
      exact hlt t hnext
  · rintro ⟨hauto, hlive, hafter⟩
    refine ⟨fun h => ?_, fun h => ?_, fun h => absurd (hstatus.symm.trans h) hlive, fun h => ?_⟩
    · rw [hplan, hperiod]
      exact hr.active (hstatus.symm.trans h)
    · obtain ⟨hpro, grace, hg, -⟩ := hr.pastDue (hstatus.symm.trans h)
      refine ⟨hplan.trans hpro, grace, hgrace.trans hg, fun next hn => ?_⟩
      rw [hnext] at hn
      cases hn
      exact hafter (hstatus.symm.trans h) grace hg
    · rw [hauto] at h; cases h

/-- Switching the renewal off. -/
theorem renewalOff_represented (row' : Subscription) (hr : row.Represented)
    (hstatus : row'.status = row.status) (hplan : row'.plan = row.plan)
    (hperiod : row'.currentPeriodEnd = row.currentPeriodEnd)
    (hgrace : row'.gracePeriodEnd = row.gracePeriodEnd) (hauto : row'.autoRenew = false)
    (hnext : row'.nextBillingAt = none) : row'.Represented := by
  refine ⟨fun h => ?_, fun h => ?_, fun h => ?_, fun _ => hnext⟩
  · rw [hplan, hperiod]
    exact hr.active (hstatus.symm.trans h)
  · obtain ⟨hpro, grace, hg, -⟩ := hr.pastDue (hstatus.symm.trans h)
    refine ⟨hplan.trans hpro, grace, hgrace.trans hg, fun next hn => ?_⟩
    rw [hnext] at hn; cases hn
  · exact ⟨hplan.trans (hr.cancelled (hstatus.symm.trans h)).1, hauto, hnext⟩

/-- A row that has lost its plan. -/
theorem ended_represented {row' : Subscription} (hplan : row'.plan = .free)
    (hstatus : row'.status = .cancelled) (hauto : row'.autoRenew = false)
    (hnext : row'.nextBillingAt = none) : row'.Represented :=
  ⟨fun h => (by rw [hstatus] at h; cases h), fun h => (by rw [hstatus] at h; cases h),
    fun _ => ⟨hplan, hauto, hnext⟩, fun _ => hnext⟩

theorem expire_represented (hr : row.Represented) : (row.expire now).Represented := by
  unfold Subscription.expire
  split
  · exact ended_represented rfl rfl rfl rfl
  · exact hr

/-- The failure branch is taken whenever the row exists and carries no marker yet. -/
theorem applyPaymentLifecycle_duns {localPayment : LocalPayment} {payment : YooPayment}
    {db : Database} (hcanceled : payment.status = .canceled)
    (hkind : localPayment.kind = .renewal) (hrow : (db.payments payment.id).isSome)
    (hun : db.failed payment.id = false) :
    (applyPaymentLifecycle cal config now localPayment payment db).1.subscriptions =
      (db.updateSubscription localPayment.organizationId
        (·.dun cal config now payment localPayment.attemptNumber)).subscriptions := by
  obtain ⟨row, hrow⟩ := Option.isSome_iff_exists.mp hrow
  have hnone : row.failureAppliedAt = none := by simpa [Database.failed, hrow] using hun
  simp [applyPaymentLifecycle, YooPayment.grants, hcanceled, hkind, Database.markFailureApplied,
    Database.updatePayment_apply, hrow, BillingPayment.storeSnapshot, hnone,
    Database.updateSubscription]

end

namespace World

variable {cal : Calendar} {config : BillingConfig} {s s' : World} {e : Event} {d : Delivery}
  {org : OrganizationId}

/-- A cancellation applied for the first time is an update of the subscription. -/
theorem Duns.updates (hd : s.Duns org e d) (h : Steps cal config s e s') :
    s'.db.subscriptions org = (s.db.subscriptions org).map
      (·.dun cal config d.now d.payment d.localPayment.attemptNumber) := by
  obtain ⟨db, hrow, hsub, -, hfail, hdb, -⟩ := delivery_applies h hd.delivery
  rw [hdb, applyPaymentLifecycle_duns hd.canceled hd.kind hrow (by rw [hfail]; exact hd.fresh),
    hd.organizationId, Database.updateSubscription_apply, if_pos rfl, hsub]

/-- The columns of every subscription agree. -/
def Represented (s : World) : Prop :=
  ∀ org row, s.db.subscriptions org = some row → row.Represented

theorem start_represented (ownerEmail : OrganizationId → Option String) :
    (start ownerEmail).Represented := by
  intro org row h
  cases h

/-- What each writer leaves to the row it finds. A payment that saves no method finds the renewal
on, or no method stored. A failed renewal with a retry left finds a PRO plan and the renewal on.
A claim and the error path of `renew` set a time within the grace period, and the error path finds
the renewal on. `/resume` finds the subscription not cancelled, and its period end within the
grace period. -/
structure KeepsRepresentation (cal : Calendar) (config : BillingConfig) (s : World) (e : Event) :
    Prop where
  extended : ∀ org d row, s.Grants org e d → s.db.subscriptions org = some row →
    row.autoRenew = false → d.payment.savedMethod = none → row.paymentMethodId = none
  dunned : ∀ org d row, s.Duns org e d → s.db.subscriptions org = some row →
    row.exhausted cal config d.now
      (dunningDelay config d.payment d.localPayment.attemptNumber) = false →
    row.plan = .pro ∧ row.autoRenew
  claimed : ∀ now org row, e = .claimRenewal now org → s.db.subscriptions org = some row →
    row.GraceAfter (now + minutes 15)
  failed : ∀ now index flight row, e = .renewError now index →
    s.renewals[index]? = some flight →
    s.db.subscriptions flight.item.organizationId = some row →
    row.autoRenew ∧ row.GraceAfter (now + hours 1)
  resumed : ∀ now org row periodEnd, e = .resume now org → s.db.subscriptions org = some row →
    row.resumable now → row.currentPeriodEnd = some periodEnd →
    row.status ≠ .cancelled ∧ row.GraceAfter periodEnd

/-- A row that renews is not cancelled. -/
theorem Represented.live (hs : s.Represented) (hrow : s.db.subscriptions org = some row)
    (hauto : row.autoRenew) : row.status ≠ .cancelled := by
  intro hc
  rw [((hs org row hrow).cancelled hc).2.1] at hauto
  cases hauto

theorem resumable_periodEnd {now : Timestamp} {row : Subscription} (h : row.resumable now) :
    ∃ periodEnd, row.currentPeriodEnd = some periodEnd := by
  simp only [Subscription.resumable, Bool.and_eq_true] at h
  obtain ⟨periodEnd, hp, -⟩ := (Option.any_eq_true _ _).mp h.2
  exact ⟨periodEnd, hp⟩

theorem Represented.keeps (hs : s.Represented) (h : Steps cal config s e s')
    (hs' : s'.Represented) : s.KeepsRepresentation cal config e where
  extended org d row hg hrow := by
    have hrow' := hg.subscription h
    rw [hrow] at hrow'
    exact extend_represented_iff.mp (hs' org _ hrow')
  dunned org d row hd hrow := by
    have hrow' := hd.updates h
    rw [hrow] at hrow'
    exact dun_represented_iff.mp (hs' org _ hrow')
  claimed now org row he hrow := by
    subst he
    obtain ⟨item, -, h⟩ := Option.map_eq_some_iff.mp h
    have hrow' : s'.db.subscriptions org = some (row.claim now) := by
      rw [← h]
      exact (Database.updateSubscription_apply ..).trans (by rw [if_pos rfl, hrow]; rfl)
    exact ((schedule_represented_iff (row.claim now) (hs org row hrow) rfl rfl rfl rfl rfl).mp
      (hs' org _ hrow')).2.2
  failed now index flight row he hi hrow := by
    subst he
    unfold Steps Transition.Stepping at h
    simp only [step, hi, Option.ite_none_right_eq_some] at h
    obtain ⟨-, h⟩ := h
    have hrow' : s'.db.subscriptions flight.item.organizationId = some (row.renewFailed now) := by
      cases h
      exact (Database.updateSubscription_apply ..).trans (by rw [if_pos rfl, hrow]; rfl)
    obtain ⟨hauto, -, hafter⟩ :=
      (schedule_represented_iff (row.renewFailed now) (hs _ row hrow) rfl rfl rfl rfl rfl).mp
        (hs' _ _ hrow')
    exact ⟨hauto, hafter⟩
  resumed now org row periodEnd he hrow hresumable hp := by
    subst he
    have hrow' : s'.db.subscriptions org = some row.resume := by
      cases h
      refine (Database.updateSubscription_apply ..).trans ?_
      rw [if_pos rfl, hrow, Option.map_some, if_pos hresumable]
    exact ((schedule_represented_iff row.resume (hs org row hrow) rfl rfl rfl rfl hp).mp
      (hs' org _ hrow')).2

theorem dueRenewal_autoRenew {now : Timestamp} (h : s.db.dueRenewal now org = some item)
    (hrow : s.db.subscriptions org = some row) : row.autoRenew := by
  unfold Database.dueRenewal at h
  split at h
  · next hrow' _ => rw [hrow] at hrow'; cases hrow'; rfl
  · cases h

theorem Represented.step (hs : s.Represented) (h : Steps cal config s e s')
    (hk : s.KeepsRepresentation cal config e) : s'.Represented := by
  intro org row' hrow'
  cases step_outcome h with
  | routine _ hr =>
    have hr := hr org
    rw [hrow'] at hr
    generalize ho : s.db.subscriptions org = o, ho' : some row' = o' at hr
    cases hr with
    | same => exact hs org row' (ho.trans ho'.symm)
    | @claim now item row hdue =>
      cases ho'
      have hauto := dueRenewal_autoRenew hdue ho
      exact (schedule_represented_iff (row.claim now) (hs org row ho) rfl rfl rfl rfl rfl).mpr
        ⟨hauto, hs.live ho hauto, hk.claimed now org row rfl ho⟩
    | @renewFailed index flight now row hi horg _ =>
      cases ho'
      obtain ⟨hauto, hafter⟩ := hk.failed now index flight row rfl hi (horg ▸ ho)
      exact (schedule_represented_iff (row.renewFailed now) (hs org row ho) rfl rfl rfl rfl rfl).mpr
        ⟨hauto, hs.live ho hauto, hafter⟩
    | cancel =>
      cases ho'
      exact renewalOff_represented _ (hs org _ ho) rfl rfl rfl rfl rfl rfl
    | @resume now row hres =>
      cases ho'
      obtain ⟨periodEnd, hp⟩ := resumable_periodEnd hres
      exact (schedule_represented_iff row.resume (hs org row ho) rfl rfl rfl rfl hp).mpr
        ⟨rfl, hk.resumed now org row periodEnd rfl ho hres hp⟩
    | refund => cases ho'; exact ended_represented rfl rfl rfl rfl
    | expire => cases ho'; exact expire_represented (hs org _ ho)
    | anonymize =>
      cases ho'
      exact renewalOff_represented _ (hs org _ ho) rfl rfl rfl rfl rfl rfl
  | extended d hd hg hun _ _ hsub =>
    rw [hsub, Database.upsertSubscription_apply] at hrow'
    split at hrow'
    · next horg =>
      cases hrow'
      cases ho : s.db.subscriptions org with
      | none => exact extend_none_represented d.payment
      | some row =>
        exact extend_represented_iff.mpr (hk.extended org d row ⟨hd, horg.symm, hg, hun⟩ ho)
    · exact hs org row' hrow'
  | dunned d hd hcanceled hkind hun _ _ hsub =>
    rw [hsub, Database.updateSubscription_apply] at hrow'
    split at hrow'
    · next horg =>
      obtain ⟨row, ho, rfl⟩ := Option.map_eq_some_iff.mp hrow'
      exact dun_represented_iff.mpr
        (hk.dunned org d row ⟨hd, horg.symm, hcanceled, hkind, hun⟩ ho)
    · exact hs org row' hrow'

/-- The columns of all subscriptions agree in every state of a run exactly when no writer of the
run meets a row it does not ask about. -/
theorem represented_iff (cal : Calendar) (config : BillingConfig)
    (ownerEmail : OrganizationId → Option String) (es : List Event) (s : World) :
    Transition.Run (Transition.Meeting (Steps cal config) fun _ _ s' => s'.Represented)
        (start ownerEmail) es s ↔
      Transition.Run (Transition.Meeting (Steps cal config) fun s e _ =>
        s.KeepsRepresentation cal config e) (start ownerEmail) es s := by
  constructor
  · refine fun h => h.mono_invariant (I := Represented) (fun s e s' hs hstep => ?_)
      (start_represented ownerEmail)
    exact ⟨⟨hstep.1, hs.keeps hstep.1 hstep.2⟩, hstep.2⟩
  · refine fun h => h.mono_invariant (I := Represented) (fun s e s' hs hstep => ?_)
      (start_represented ownerEmail)
    have hs' := hs.step hstep.1 hstep.2
    exact ⟨⟨hstep.1, hs'⟩, hs'⟩

/-- The user cancels while a renewal is in flight, and the charge fails with an error. -/
def errorAfterCancel : List Event :=
  subscribing ++
    [.claimRenewal renewalDay 1, .cancel 1, .renewError (renewalDay + minutes 1) 0]

theorem errorAfterCancel_enabled :
    (Transition.exec (step .thirtyDays .default) owned errorAfterCancel).isSome := by
  decide +kernel

/-- A subscription without automatic renewal has a next billing time. -/
theorem scheduled_without_renewal :
    ∃ s, Transition.Run (Steps .thirtyDays .default) owned errorAfterCancel s ∧
      (s.db.subscriptions 1).map (fun row => (row.status, row.autoRenew, row.nextBillingAt)) =
        some (.active, false, some (renewalDay + minutes 61)) ∧ ¬s.Represented := by
  have hrow : (((Transition.exec (step .thirtyDays .default) owned errorAfterCancel).get
      errorAfterCancel_enabled).db.subscriptions 1).map
        (fun row => (row.status, row.autoRenew, row.nextBillingAt)) =
      some (.active, false, some (renewalDay + minutes 61)) := by
    decide +kernel
  refine ⟨_, .of_exec_get errorAfterCancel_enabled, hrow, fun hs => ?_⟩
  obtain ⟨row, hsub, hcols⟩ := Option.map_eq_some_iff.mp hrow
  have hauto : row.autoRenew = false := congrArg (·.2.1) hcols
  have hnext : row.nextBillingAt = some (renewalDay + minutes 61) := congrArg (·.2.2) hcols
  rw [(hs 1 row hsub).manual hauto] at hnext
  cases hnext

end World

end Tonatiuh.Billing
