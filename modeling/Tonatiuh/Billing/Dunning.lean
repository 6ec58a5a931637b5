import Mathlib
import Tonatiuh.Billing.PaymentKeys
import Tonatiuh.Billing.Representation

/-! The retries of a renewal the provider keeps cancelling.

`getBillingConfig` bounds every entry of the retry schedule by the grace period, one by one, while
`applyPaymentLifecycle` adds each delay to the time of the failure before it. Whether all retries
are made is therefore a question about the sum of the schedule. -/

namespace Tonatiuh.Billing

/-- An attempt at a renewal: how long the worker takes to claim it after it is due, and the payment
the provider answers with. -/
structure Attempt where
  wait : Nat
  payment : YooPayment

/-- The pass of the worker that makes the attempt. -/
def Attempt.events (a : Attempt) (due : Timestamp) (org : OrganizationId) : List Event :=
  [.expireGracePeriods (due + a.wait), .claimRenewal (due + a.wait) org, .renewCall 0 a.payment,
    .renewRecord (due + a.wait) 0]

/-- The row `renew` inserts. -/
def Renewal.toRow (config : BillingConfig) (now : Timestamp) (item : Renewal)
    (payment : YooPayment) : BillingPayment where
  organizationId := item.organizationId
  providerPaymentId := payment.id
  idempotencyKey := item.idempotencyKey
  kind := .renewal
  status := payment.status
  amountKopecks := config.priceKopecks
  attemptNumber := item.attempt
  createdAt := now
  reconcileAfter :=
    if payment.status.isOpen then some (now + minutes config.reconciliationMinutes) else none

namespace World

/-- The next billing time of an organization. -/
def dueAt (s : World) (org : OrganizationId) : Option Timestamp :=
  (s.db.subscriptions org).bind (·.nextBillingAt)

section
variable (cal : Calendar) (config : BillingConfig) (org : OrganizationId)

/-- The attempt is made when it is due, after the waiting time. -/
def attempt (s : World) (a : Attempt) : Option World :=
  (s.dueAt org).bind fun due => Transition.exec (step cal config) s (a.events due org)

/-- The system after the first attempts: the renewal and its retries. -/
def dunning (s : World) (attempts : Nat → Attempt) : Nat → Option World
  | 0 => some s
  | n + 1 => (dunning s attempts n).bind (attempt cal config org · (attempts n))

end

variable {cal : Calendar} {config : BillingConfig} {s s' : World} {e : Event}
  {org : OrganizationId} {now : Timestamp}

/-! ## One attempt -/

theorem step_claimRenewal (hdue : s.db.dueRenewal now org = some item) :
    step cal config s (.claimRenewal now org) =
      some { s.commit (s.db.updateSubscription org (·.claim now)) with
        renewals := { item, claimedAt := now, epoch := s.epoch org } :: s.renewals } := by
  simp [step, hdue]

theorem step_renewCall {item : Renewal} {payment : YooPayment} {flights : List InFlight} {n : Nat}
    (hflight : s.renewals = ⟨item, now, none, n⟩ :: flights)
    (hissued : s.issued item.idempotencyKey = none) (hnil : s.history payment.id = [])
    (hmeta : payment.metadata = some ⟨item.organizationId, .renewal⟩) :
    step cal config s (.renewCall 0 payment) =
      some { s.create item.idempotencyKey payment with
        renewals := ⟨item, now, some payment, n⟩ :: flights
        charges := Function.update s.charges payment.id
          (some { organizationId := item.organizationId, claimedAt := now, epoch := n }) } := by
  simp [step, hflight, hissued, hnil, hmeta]

/-- A cancelled renewal is recorded: its row is inserted, and the subscription is updated. -/
theorem step_renewRecord {item : Renewal} {payment : YooPayment} {flights : List InFlight} {n : Nat}
    (hflight : s.renewals = ⟨item, now, some payment, n⟩ :: flights)
    (hstart : s.startedAfter now payment.id) (hrow : s.db.payments payment.id = none)
    (hkey : s.db.paymentKeys item.organizationId item.idempotencyKey = none)
    (hcanceled : payment.status = .canceled) :
    ∃ s', step cal config s (.renewRecord now 0) = some s' ∧
      s'.db.subscriptions = (s.db.updateSubscription item.organizationId
        (·.dun cal config now payment item.attempt)).subscriptions ∧
      s'.db.ownerEmail = s.db.ownerEmail ∧ s'.history = s.history ∧ s'.issued = s.issued := by
  let r := applyPaymentLifecycle cal config now
    ⟨item.organizationId, payment.id, .renewal, item.attempt⟩ payment
    (s.db.insertPayment (item.toRow config now payment))
  have hrec : renewRecord cal config now item payment s.db = .ok (r.1, r.2) := by
    simp [renewRecord, renewStore, hrow, hkey, Renewal.toRow, bind, Except.bind, pure, Except.pure,
      r]
  refine ⟨{ s.commit r.1 r.2 with renewals := flights }, ?_, ?_, ?_, rfl, rfl⟩
  · simp only [step, hflight, List.getElem?_cons_zero, hrec]
    rw [if_pos ⟨Int.le_refl now, hstart⟩]
    rfl
  · refine (applyPaymentLifecycle_duns hcanceled rfl ?_ ?_).trans rfl
    · simp [Database.insertPayment_apply, Renewal.toRow]
    · simp [Database.failed, Database.insertPayment_apply, Renewal.toRow]
  · exact applyPaymentLifecycle_ownerEmail ..

/-- A subscription whose renewal is scheduled. -/
structure Renews (row : Subscription) (periodEnd due : Timestamp) : Prop where
  live : row.status = .active ∨ row.status = .pastDue
  autoRenew : row.autoRenew = true
  method : row.paymentMethodId.isSome
  period : row.currentPeriodEnd = some periodEnd
  next : row.nextBillingAt = some due

/-- The item `claimRenewal` returns for a scheduled renewal. -/
theorem Renews.dueRenewal {row : Subscription} {db : Database} {periodEnd due : Timestamp}
    (hr : Renews row periodEnd due) (hrow : db.subscriptions org = some row)
    (howner : (db.ownerEmail org).isSome) (hdue : due ≤ now) :
    ∃ item, db.dueRenewal now org = some item ∧ item.organizationId = org ∧
      item.currentPeriodEnd = periodEnd.toDate ∧ item.retryCount = row.retryCount := by
  obtain ⟨email, hemail⟩ := Option.isSome_iff_exists.mp howner
  obtain ⟨method, hmethod⟩ := Option.isSome_iff_exists.mp hr.method
  obtain ⟨hlive, hauto, -, hperiod, hnext⟩ := hr
  cases row
  cases hauto; cases hmethod; cases hperiod; cases hnext
  refine ⟨_, by simp only [Database.dueRenewal, hrow, hemail]; rw [if_pos ⟨hdue, hlive⟩], rfl, rfl,
    rfl⟩

/-- A cancelled attempt: the subscription is claimed and its failure recorded. -/
theorem attempt_recorded {row : Subscription} {periodEnd due : Timestamp} {payment : YooPayment}
    (hi : s.Indexed) (hrow : s.db.subscriptions org = some row) (hr : Renews row periodEnd due)
    (hexpire : row.expire now = row) (howner : (s.db.ownerEmail org).isSome) (hdue : due ≤ now)
    (hissued : s.issued (.renewal org periodEnd.toDate (row.retryCount + 1)) = none)
    (hnil : s.history payment.id = []) (hmeta : payment.metadata = some ⟨org, .renewal⟩)
    (hcanceled : payment.status = .canceled) :
    ∃ s', Transition.exec (step cal config) s [.expireGracePeriods now, .claimRenewal now org,
        .renewCall 0 payment, .renewRecord now 0] = some s' ∧
      s'.db.subscriptions org =
        some ((row.claim now).dun cal config now payment (row.retryCount + 1)) ∧
      s'.db.ownerEmail = s.db.ownerEmail ∧
      s'.history = Function.update s.history payment.id [payment] ∧
      s'.issued = Function.update s.issued
        (.renewal org periodEnd.toDate (row.retryCount + 1)) (some payment.id) := by
  let s₁ := s.commit (expireGracePeriods now s.db)
  have hrow₁ : s₁.db.subscriptions org = some row := by
    simp [s₁, expireGracePeriods, hrow, hexpire]
  obtain ⟨item, hitem, rfl, hperiod, hcount⟩ := hr.dueRenewal hrow₁ howner hdue
  have hkey : item.idempotencyKey =
      .renewal item.organizationId periodEnd.toDate (row.retryCount + 1) := by
    rw [Renewal.idempotencyKey, Renewal.attempt, hperiod, hcount]
  rw [← hkey] at hissued
  let s₂ : World := { s₁.commit (s₁.db.updateSubscription item.organizationId (·.claim now)) with
    renewals := { item, claimedAt := now, epoch := s₁.epoch item.organizationId } :: s₁.renewals }
  let s₃ : World := { s₂.create item.idempotencyKey payment with
    renewals := ⟨item, now, some payment, s₁.epoch item.organizationId⟩ :: s₁.renewals
    charges := Function.update s₂.charges payment.id (some
      ⟨item.organizationId, now, s₁.epoch item.organizationId⟩) }
  have h₁ : step cal config s (.expireGracePeriods now) = some s₁ := rfl
  have h₂ : step cal config s₁ (.claimRenewal now item.organizationId) = some s₂ :=
    step_claimRenewal hitem
  have h₃ : step cal config s₂ (.renewCall 0 payment) = some s₃ :=
    step_renewCall rfl hissued hnil hmeta
  have hunknown : s.db.payments payment.id = none := hi.unknown hnil
  have hstart : s₃.startedAfter now payment.id := by
    have hrow₃ : s₃.db.payments payment.id = none := hunknown
    have hcharge : s₃.charges payment.id = some
        ⟨item.organizationId, now, s₁.epoch item.organizationId⟩ := by simp [s₃]
    rw [startedAfter, hcharge, hrow₃]
    simp
  have hrec : ∃ s', step cal config s₃ (.renewRecord now 0) = some s' ∧
      s'.db.subscriptions = (s₃.db.updateSubscription item.organizationId
        (·.dun cal config now payment item.attempt)).subscriptions ∧
      s'.db.ownerEmail = s₃.db.ownerEmail ∧ s'.history = s₃.history ∧ s'.issued = s₃.issued :=
    step_renewRecord rfl hstart hunknown (hi.unused hissued _) hcanceled
  obtain ⟨s', h₄, hsub, howner', hhist, hissued'⟩ := hrec
  refine ⟨s', ?_, ?_, howner', hhist, hkey ▸ hissued'⟩
  · simp only [Transition.exec, h₁, h₂, h₃, h₄, Option.bind_some]
  · rw [hsub, Database.updateSubscription_apply, if_pos rfl, Renewal.attempt, hcount]
    have hrow₃ : s₃.db.subscriptions item.organizationId = some (row.claim now) :=
      (Database.updateSubscription_apply ..).trans (by rw [if_pos rfl, hrow₁]; rfl)
    rw [hrow₃, Option.map_some]

/-! ## The schedule -/

/-- The provider cancels the renewal and all its retries, for reasons that leave the payment method
valid. Each attempt is a new payment. -/
structure CancelsAll (org : OrganizationId) (n : Nat) (attempts : Nat → Attempt) : Prop where
  canceled : ∀ k ≤ n, (attempts k).payment.status = .canceled
  valid : ∀ k ≤ n, (attempts k).payment.revoked = false
  metadata : ∀ k ≤ n, (attempts k).payment.metadata = some ⟨org, .renewal⟩
  distinct : ∀ j k, j < k → k ≤ n → (attempts j).payment.id ≠ (attempts k).payment.id

/-- The attempts from the given one on have not been made. -/
structure Unattempted (s : World) (org : OrganizationId) (periodEnd : Timestamp) (n k : Nat)
    (attempts : Nat → Attempt) : Prop where
  keys : ∀ j, k ≤ j → j ≤ n → s.issued (.renewal org periodEnd.toDate (j + 1)) = none
  payments : ∀ j, k ≤ j → j ≤ n → s.history (attempts j).payment.id = []

theorem Unattempted.next {periodEnd : Timestamp} {n k : Nat} {attempts : Nat → Attempt}
    (hu : s.Unattempted org periodEnd n k attempts) (hc : CancelsAll org n attempts)
    (hhist : s'.history = Function.update s.history (attempts k).payment.id states)
    (hissued : s'.issued =
      Function.update s.issued (.renewal org periodEnd.toDate (k + 1)) created) :
    s'.Unattempted org periodEnd n (k + 1) attempts where
  keys j hj hn := by
    have hne : j ≠ k := by omega
    rw [hissued, Function.update_of_ne (by simp [hne])]
    exact hu.keys j (by omega) hn
  payments j hj hn := by
    rw [hhist, Function.update_of_ne (hc.distinct k j (by omega) hn).symm]
    exact hu.payments j (by omega) hn

/-- The renewal before its attempt of this number. -/
structure Attempting (config : BillingConfig) (cal : Calendar) (s : World) (org : OrganizationId)
    (periodEnd : Timestamp) (attempts : Nat → Attempt) (k : Nat) (due : Timestamp) : Prop where
  indexed : s.Indexed
  owner : (s.db.ownerEmail org).isSome
  fresh : s.Unattempted org periodEnd config.retryScheduleHours.length k attempts
  row : ∃ row, s.db.subscriptions org = some row ∧ Renews row periodEnd due ∧ row.plan = .pro ∧
    row.retryCount = k ∧ (k = 0 ∧ row.status = .active ∧ row.gracePeriodEnd = none ∨
      0 < k ∧ row.status = .pastDue ∧
        row.gracePeriodEnd = some (cal.addDays periodEnd config.gracePeriodDays))

/-- The grace period of a claimed renewal, before and after its first failure. -/
theorem claim_grace {row : Subscription} {periodEnd : Timestamp}
    (hperiod : row.currentPeriodEnd = some periodEnd)
    (hgrace : row.gracePeriodEnd = none ∨
      row.gracePeriodEnd = some (cal.addDays periodEnd config.gracePeriodDays)) :
    ((row.claim now).gracePeriodEnd <|>
        (row.claim now).currentPeriodEnd.map (cal.addDays · config.gracePeriodDays)) =
      some (cal.addDays periodEnd config.gracePeriodDays) := by
  rcases hgrace with hg | hg <;> simp [Subscription.claim, hg, hperiod]

/-- No retry is left for a claimed renewal, or the next one does not fit. -/
theorem claim_exhausted_iff {row : Subscription} {periodEnd : Timestamp} {payment : YooPayment}
    {k : Nat} (hvalid : payment.revoked = false)
    (hperiod : row.currentPeriodEnd = some periodEnd)
    (hgrace : row.gracePeriodEnd = none ∨
      row.gracePeriodEnd = some (cal.addDays periodEnd config.gracePeriodDays)) :
    (row.claim now).exhausted cal config now (dunningDelay config payment (k + 1)) ↔
      ∀ h, config.retryScheduleHours[k]? = some h →
        ¬now + hours h < cal.addDays periodEnd config.gracePeriodDays := by
  have hdelay : dunningDelay config payment (k + 1) = config.retryScheduleHours[k]? := by
    simp [dunningDelay, hvalid, retryDelayHours]
  rw [hdelay]
  cases config.retryScheduleHours[k]? with
  | none => simp [Subscription.exhausted]
  | some h =>
    simp [Subscription.exhausted, Subscription.graceDeadline, claim_grace hperiod hgrace]

/-- What an attempt leaves: the subscription is cancelled because no retry fits, or the next retry
is scheduled. -/
theorem Attempting.attempt {periodEnd due : Timestamp} {attempts : Nat → Attempt} {k : Nat}
    (ha : Attempting config cal s org periodEnd attempts k due)
    (hc : CancelsAll org config.retryScheduleHours.length attempts)
    (hk : k ≤ config.retryScheduleHours.length)
    (hgrace : 0 < k →
      due + (attempts k).wait < cal.addDays periodEnd config.gracePeriodDays) :
    ∃ s', s.attempt cal config org (attempts k) = some s' ∧
      ((∀ h, config.retryScheduleHours[k]? = some h →
          ¬due + (attempts k).wait + hours h < cal.addDays periodEnd config.gracePeriodDays) ∧
        (∃ row, s'.db.subscriptions org = some row ∧ row.status = .cancelled ∧ row.plan = .free) ∨
      ∃ h, config.retryScheduleHours[k]? = some h ∧
        due + (attempts k).wait + hours h < cal.addDays periodEnd config.gracePeriodDays ∧
        Attempting config cal s' org periodEnd attempts (k + 1)
          (due + (attempts k).wait + hours h)) := by
  obtain ⟨row, hrow, hr, hpro, hcount, hstate⟩ := ha.row
  let now : Timestamp := due + (attempts k).wait
  have hdue : due ≤ now := Int.le_add_of_nonneg_right (Int.natCast_nonneg _)
  have hexpire : row.expire now = row := by
    rcases hstate with ⟨-, hactive, -⟩ | ⟨hpos, hpast, hg⟩
    · simp [Subscription.expire, hactive]
    · have hlt := Int.not_le.mpr (hgrace hpos)
      simp [Subscription.expire, hg, now, hlt]
  obtain ⟨s', hexec, hsub, howner', hhist, hissued⟩ :=
    @attempt_recorded cal config s org now row periodEnd due (attempts k).payment
    ha.indexed hrow hr hexpire ha.owner hdue
    (hcount ▸ ha.fresh.keys k (Nat.le_refl k) hk) (ha.fresh.payments k (Nat.le_refl k) hk)
    (hc.metadata k hk) (hc.canceled k hk)
  have hg : row.gracePeriodEnd = none ∨
      row.gracePeriodEnd = some (cal.addDays periodEnd config.gracePeriodDays) :=
    hstate.imp (·.2.2) (·.2.2)
  have hleft := @claim_exhausted_iff cal config now row periodEnd (attempts k).payment k
    (hc.valid k hk) hr.period hg
  rw [hcount] at hsub
  refine ⟨s', by simpa [World.attempt, dueAt, hrow, hr.next, Attempt.events] using hexec, ?_⟩
  cases hx : (row.claim now).exhausted cal config now
      (dunningDelay config (attempts k).payment (k + 1)) with
  | true =>
    exact .inl ⟨hleft.mp hx, _,
      hsub, by simp [Subscription.dun, hx], by simp [Subscription.dun, hx]⟩
  | false =>
    obtain ⟨h, hdelay, grace, hgrace', hlt⟩ := retry_before_grace hx
    rw [claim_grace hr.period hg, Option.some.injEq] at hgrace'
    have hschedule : config.retryScheduleHours[k]? = some h := by
      simpa [dunningDelay, hc.valid k hk, retryDelayHours] using hdelay
    let row' := (row.claim now).dun cal config now (attempts k).payment (k + 1)
    have hauto : row'.autoRenew = row.autoRenew := by simp only [row', Subscription.dun, hx]; rfl
    have hmethod : row'.paymentMethodId = row.paymentMethodId := by
      simp only [row', Subscription.dun, hc.valid k hk]; rfl
    have hplan : row'.plan = row.plan := by simp only [row', Subscription.dun, hx]; rfl
    have hstatus : row'.status = .pastDue := by simp only [row', Subscription.dun, hx]; rfl
    have hnext : row'.nextBillingAt = some (now + hours h) := by
      rw [hdelay] at hx
      simp only [row', Subscription.dun, hdelay, hx]; rfl
    have hend : row'.gracePeriodEnd = some (cal.addDays periodEnd config.gracePeriodDays) := by
      simp only [row', Subscription.dun, claim_grace hr.period hg, Option.getD_some]
    have hretries : row'.retryCount = max row.retryCount (k + 1) := rfl
    refine .inr ⟨h, hschedule, hgrace' ▸ hlt, ?_, howner' ▸ ha.owner,
      ha.fresh.next hc hhist (hcount ▸ hissued), row', hsub, ?_, hplan.trans hpro, by omega,
      .inr ⟨Nat.succ_pos k, hstatus, hend⟩⟩
    · exact (Transition.Run.of_exec hexec).invariant
        (fun _ _ _ hi hstep => hi.step hstep) ha.indexed
    · exact ⟨.inr hstatus, hauto.trans hr.autoRenew, hmethod ▸ hr.method, hr.period, hnext⟩

/-- When the attempts fall due: each retry after the waiting time and the delay of the attempt
before it. -/
def dueTime (schedule : List Nat) (attempts : Nat → Attempt) (due : Timestamp) : Nat → Timestamp
  | 0 => due
  | k + 1 =>
    dueTime schedule attempts due k + (attempts k).wait + hours (schedule[k]?.getD 0)

theorem hours_nonneg (n : Nat) : 0 ≤ hours n := by
  unfold hours; omega

theorem dueTime_le_succ (schedule : List Nat) (attempts : Nat → Attempt) (due : Timestamp)
    (k : Nat) : dueTime schedule attempts due k + (attempts k).wait ≤
      dueTime schedule attempts due (k + 1) :=
  Int.le_add_of_nonneg_right (hours_nonneg _)

theorem dueTime_mono (schedule : List Nat) (attempts : Nat → Attempt) (due : Timestamp) :
    Monotone (dueTime schedule attempts due) := by
  refine monotone_nat_of_le_succ fun k => ?_
  have h₁ := dueTime_le_succ schedule attempts due k
  have h₂ : dueTime schedule attempts due k ≤
      dueTime schedule attempts due k + (attempts k).wait :=
    Int.le_add_of_nonneg_right (Int.natCast_nonneg _)
  exact Int.le_trans h₂ h₁

/-- The last retry is due after the whole schedule. -/
theorem dueTime_eq (schedule : List Nat) (attempts : Nat → Attempt) (due : Timestamp) (k : Nat) :
    dueTime schedule attempts due k =
      due + ((List.range k).map fun i => ((attempts i).wait : Int)).sum +
        hours (schedule.take k).sum := by
  induction k with
  | zero => simp [dueTime, hours]
  | succ k ih =>
    have htake : (schedule.take (k + 1)).sum = (schedule.take k).sum + schedule[k]?.getD 0 := by
      rw [List.take_add_one, List.sum_append]
      cases schedule[k]? <;> simp
    rw [dueTime, ih, htake, List.range_succ, List.map_append, List.sum_append]
    simp only [hours, List.map_cons, List.map_nil, List.sum_cons, List.sum_nil]
    push_cast
    change @Eq Int _ _
    omega

section
variable (cal : Calendar) (config : BillingConfig) (org : OrganizationId)

/-- All scheduled retries are made within the grace period: before each of them the subscription
is past due with its plan and the grace period unchanged, and only after the last one it ends. -/
structure MakesAllRetries (s : World) (attempts : Nat → Attempt) (grace : Timestamp) : Prop where
  retried : ∀ k, 0 < k → k ≤ config.retryScheduleHours.length →
    ∃ s' row due, s.dunning cal config org attempts k = some s' ∧
      s'.db.subscriptions org = some row ∧ row.status = .pastDue ∧ row.plan = .pro ∧
      row.gracePeriodEnd = some grace ∧ row.nextBillingAt = some due ∧
      due + (attempts k).wait < grace
  ended : ∃ s' row,
    s.dunning cal config org attempts (config.retryScheduleHours.length + 1) = some s' ∧
      s'.db.subscriptions org = some row ∧ row.status = .cancelled ∧ row.plan = .free

end

/-- The renewal reaches its attempt of this number when the schedule says. -/
def Reaches (cal : Calendar) (config : BillingConfig) (s : World) (org : OrganizationId)
    (periodEnd due : Timestamp) (attempts : Nat → Attempt) (k : Nat) : Prop :=
  ∃ s', s.dunning cal config org attempts k = some s' ∧
    Attempting config cal s' org periodEnd attempts k
      (dueTime config.retryScheduleHours attempts due k)

variable {periodEnd due : Timestamp} {attempts : Nat → Attempt} {k : Nat}

/-- An attempt after which the subscription is not cancelled leads to the next one. -/
theorem Reaches.succ (h : Reaches cal config s org periodEnd due attempts k)
    (hc : CancelsAll org config.retryScheduleHours.length attempts)
    (hk : k ≤ config.retryScheduleHours.length)
    (hgrace : 0 < k → dueTime config.retryScheduleHours attempts due k + (attempts k).wait <
      cal.addDays periodEnd config.gracePeriodDays)
    (hlive : ∀ s' row, s.dunning cal config org attempts (k + 1) = some s' →
      s'.db.subscriptions org = some row →
      dueTime config.retryScheduleHours attempts due (k + 1) <
        cal.addDays periodEnd config.gracePeriodDays ∨ row.status ≠ .cancelled)
    (hlt : k < config.retryScheduleHours.length) :
    Reaches cal config s org periodEnd due attempts (k + 1) := by
  obtain ⟨sₖ, hdun, ha⟩ := h
  obtain ⟨s', hattempt, hleft⟩ := ha.attempt hc hk hgrace
  have hdun' : s.dunning cal config org attempts (k + 1) = some s' := by
    rw [dunning, hdun]; exact hattempt
  have hschedule : config.retryScheduleHours[k]? = some config.retryScheduleHours[k] :=
    List.getElem?_eq_getElem hlt
  have hdue : dueTime config.retryScheduleHours attempts due (k + 1) =
      dueTime config.retryScheduleHours attempts due k + (attempts k).wait +
        hours config.retryScheduleHours[k] := by
    rw [dueTime, hschedule]; rfl
  rcases hleft with ⟨hnone, row, hrow, hcancelled, -⟩ | ⟨h, hsome, -, hnext⟩
  · rcases hlive s' row hdun' hrow with hfits | hne
    · exact absurd (hdue ▸ hfits) (hnone _ hschedule)
    · exact absurd hcancelled hne
  · rw [hschedule, Option.some.injEq] at hsome
    exact ⟨s', hdun', by rw [hdue, hsome]; exact hnext⟩

theorem MakesAllRetries.reaches {grace : Timestamp}
    (hm : s.MakesAllRetries cal config org attempts grace)
    (hgrace : grace = cal.addDays periodEnd config.gracePeriodDays)
    (hc : CancelsAll org config.retryScheduleHours.length attempts)
    (hfirst : Reaches cal config s org periodEnd due attempts 0) :
    ∀ k ≤ config.retryScheduleHours.length, Reaches cal config s org periodEnd due attempts k ∧
      (0 < k → dueTime config.retryScheduleHours attempts due k + (attempts k).wait < grace) := by
  intro k hk
  induction k with
  | zero => exact ⟨hfirst, nofun⟩
  | succ k ih =>
    obtain ⟨hreach, htime⟩ := ih (by omega)
    obtain ⟨s', row, due', hdun, hrow, hpast, -, -, hnext, hlt⟩ := hm.retried (k + 1) (by omega) hk
    have hlive : ∀ s'' row', s.dunning cal config org attempts (k + 1) = some s'' →
        s''.db.subscriptions org = some row' →
        dueTime config.retryScheduleHours attempts due (k + 1) <
          cal.addDays periodEnd config.gracePeriodDays ∨ row'.status ≠ .cancelled := by
      intro s'' row' hdun' hrow'
      rw [hdun] at hdun'
      cases hdun'
      rw [hrow] at hrow'
      cases hrow'
      exact .inr (by rw [hpast]; decide)
    have hreach' := hreach.succ hc (by omega) (hgrace ▸ htime) hlive (by omega)
    refine ⟨hreach', fun _ => ?_⟩
    obtain ⟨s'', hdun', ha⟩ := hreach'
    rw [hdun] at hdun'
    cases hdun'
    obtain ⟨row', hrow', hr, -⟩ := ha.row
    rw [hrow] at hrow'
    cases hrow'
    rw [hr.next, Option.some.injEq] at hnext
    rw [hnext]; exact hlt

/-- The schedule fits into the grace period. -/
theorem Reaches.all (hc : CancelsAll org config.retryScheduleHours.length attempts)
    (hfirst : Reaches cal config s org periodEnd due attempts 0)
    (hfits : dueTime config.retryScheduleHours attempts due config.retryScheduleHours.length +
        (attempts config.retryScheduleHours.length).wait <
      cal.addDays periodEnd config.gracePeriodDays) :
    ∀ k ≤ config.retryScheduleHours.length, Reaches cal config s org periodEnd due attempts k ∧
      dueTime config.retryScheduleHours attempts due k + (attempts k).wait <
        cal.addDays periodEnd config.gracePeriodDays := by
  have htime {k : Nat} (hk : k ≤ config.retryScheduleHours.length) :
      dueTime config.retryScheduleHours attempts due k + (attempts k).wait <
        cal.addDays periodEnd config.gracePeriodDays := by
    rcases Nat.lt_or_eq_of_le hk with hlt | rfl
    · have h₁ := dueTime_le_succ config.retryScheduleHours attempts due k
      have h₂ := dueTime_mono config.retryScheduleHours attempts due (Nat.succ_le_of_lt hlt)
      have h₃ : dueTime config.retryScheduleHours attempts due config.retryScheduleHours.length ≤
          dueTime config.retryScheduleHours attempts due config.retryScheduleHours.length +
            (attempts config.retryScheduleHours.length).wait :=
        Int.le_add_of_nonneg_right (Int.natCast_nonneg _)
      exact Int.lt_of_le_of_lt (Int.le_trans h₁ (Int.le_trans h₂ h₃)) hfits
    · exact hfits
  intro k hk
  induction k with
  | zero => exact ⟨hfirst, htime hk⟩
  | succ k ih =>
    have hdue : dueTime config.retryScheduleHours attempts due (k + 1) <
        cal.addDays periodEnd config.gracePeriodDays :=
      Int.lt_of_le_of_lt (Int.le_add_of_nonneg_right (Int.natCast_nonneg _)) (htime hk)
    exact ⟨(ih (by omega)).1.succ hc (by omega) (fun _ => htime (by omega))
      (fun _ _ _ _ => .inl hdue) (by omega), htime hk⟩

theorem makesAllRetries_iff (hc : CancelsAll org config.retryScheduleHours.length attempts)
    (hfirst : Reaches cal config s org periodEnd due attempts 0) :
    s.MakesAllRetries cal config org attempts
        (cal.addDays periodEnd config.gracePeriodDays) ↔
      dueTime config.retryScheduleHours attempts due config.retryScheduleHours.length +
          (attempts config.retryScheduleHours.length).wait <
        cal.addDays periodEnd config.gracePeriodDays := by
  have hpos := List.length_pos_iff.mpr config.schedule_length.1
  constructor
  · intro hm
    exact (hm.reaches rfl hc hfirst _ (Nat.le_refl _)).2 hpos
  · intro hfits
    have hall := Reaches.all hc hfirst hfits
    refine ⟨fun k hk hn => ?_, ?_⟩
    · obtain ⟨⟨s', hdun, ha⟩, htime⟩ := hall k hn
      obtain ⟨row, hrow, hr, hpro, -, ⟨h0, -, -⟩ | ⟨-, hpast, hgrace⟩⟩ := ha.row
      · omega
      · exact ⟨s', row, _, hdun, hrow, hpast, hpro, hgrace, hr.next, htime⟩
    · obtain ⟨⟨sₙ, hdun, ha⟩, htime⟩ := hall _ (Nat.le_refl _)
      obtain ⟨s', hattempt, ⟨-, row, hrow, hcancelled, hfree⟩ | ⟨h, hsome, -⟩⟩ :=
        ha.attempt hc (Nat.le_refl _) fun _ => htime
      · exact ⟨s', row, by rw [dunning, hdun]; exact hattempt, hrow, hcancelled, hfree⟩
      · rw [List.getElem?_eq_none (Nat.le_refl _)] at hsome; cases hsome

/-! ## Active subscriptions -/

/-- An active subscription has its plan, and no trace of a failed renewal. -/
def Clear (row : Subscription) : Prop :=
  row.status = .active → row.plan = .pro ∧ row.gracePeriodEnd = none ∧ row.retryCount = 0

theorem step_clear (hs : ∀ org row, s.db.subscriptions org = some row → Clear row)
    (h : Steps cal config s e s') :
    ∀ org row, s'.db.subscriptions org = some row → Clear row := by
  intro org row' hrow'
  cases step_outcome h with
  | routine _ hr =>
    have hr := hr org
    rw [hrow'] at hr
    generalize ho : s.db.subscriptions org = o, ho' : some row' = o' at hr
    cases hr with
    | same => exact hs org row' (ho.trans ho'.symm)
    | claim | renewFailed | cancel | resume | anonymize =>
      cases ho'
      have hold := hs org _ ho
      exact hold
    | refund => cases ho'; exact nofun
    | @expire row now =>
      cases ho'
      unfold Subscription.expire
      split
      · exact nofun
      · exact hs org _ ho
  | extended d _ _ _ _ _ hsub =>
    rw [hsub, Database.upsertSubscription_apply] at hrow'
    split at hrow'
    · cases hrow'
      cases s.db.subscriptions org with
      | none => exact fun _ => ⟨rfl, rfl, rfl⟩
      | some row => exact fun _ => ⟨rfl, rfl, rfl⟩
    · exact hs org row' hrow'
  | dunned d _ _ _ _ _ _ hsub =>
    rw [hsub, Database.updateSubscription_apply] at hrow'
    split at hrow'
    · obtain ⟨row, -, rfl⟩ := Option.map_eq_some_iff.mp hrow'
      intro hactive
      simp only [Subscription.dun] at hactive
      split at hactive <;> cases hactive
    · exact hs org row' hrow'

/-- The renewal of an active subscription that the provider cancels at every attempt: all
scheduled retries are made within the grace period exactly when the renewal's due time, all the
waiting times and the sum of the schedule still lie within it. -/
theorem all_retries_made_iff (cal : Calendar) (config : BillingConfig)
    {ownerEmail : OrganizationId → Option String} {es : List Event} {s : World}
    (hrun : Transition.Run (Steps cal config) (start ownerEmail) es s) {org : OrganizationId}
    {row : Subscription} {periodEnd due : Timestamp} {attempts : Nat → Attempt}
    (hrow : s.db.subscriptions org = some row) (hactive : row.status = .active)
    (hr : Renews row periodEnd due) (howner : (s.db.ownerEmail org).isSome)
    (hc : CancelsAll org config.retryScheduleHours.length attempts)
    (hfresh : s.Unattempted org periodEnd config.retryScheduleHours.length 0 attempts) :
    s.MakesAllRetries cal config org attempts (cal.addDays periodEnd config.gracePeriodDays) ↔
      due + ((List.range (config.retryScheduleHours.length + 1)).map fun k =>
          ((attempts k).wait : Int)).sum + hours config.retryScheduleHours.sum <
        cal.addDays periodEnd config.gracePeriodDays := by
  have hindexed := hrun.invariant (fun _ _ _ hi hstep => hi.step hstep) (start_indexed ownerEmail)
  have hclear := hrun.invariant
    (I := fun s => ∀ org row, s.db.subscriptions org = some row → Clear row)
    (fun _ _ _ hs hstep => step_clear hs hstep) (fun _ _ h => by cases h)
  obtain ⟨hpro, hgrace, hcount⟩ := hclear org row hrow hactive
  have hfirst : Reaches cal config s org periodEnd due attempts 0 :=
    ⟨s, rfl, hindexed, howner, hfresh, row, hrow, hr, hpro, hcount, .inl ⟨rfl, hactive, hgrace⟩⟩
  have hlast : dueTime config.retryScheduleHours attempts due config.retryScheduleHours.length +
        (attempts config.retryScheduleHours.length).wait =
      due + ((List.range (config.retryScheduleHours.length + 1)).map fun k =>
        ((attempts k).wait : Int)).sum + hours config.retryScheduleHours.sum := by
    rw [dueTime_eq, List.take_length, List.range_succ, List.map_append, List.sum_append]
    simp only [List.map_cons, List.map_nil, List.sum_cons, List.sum_nil]
    change @Eq Int _ _
    omega
  rw [makesAllRetries_iff hc hfirst, hlast]

/-- The defaults with the last retry left out. -/
def threeRetries : BillingConfig where
  priceKopecks := 99000
  gracePeriodDays := 7
  retryScheduleHours := [1, 24, 72]
  reconciliationMinutes := 10
  grace_range := BillingConfig.default.grace_range
  schedule_length := by decide
  schedule_range := by decide
  schedule_increasing := by decide

/-- The attempts of a worker that never waits, on a card without funds. -/
def unfunded (k : Nat) : Attempt := ⟨0, renewalPayment (20 + k) .canceled⟩

theorem unfunded_cancelsAll (n : Nat) : CancelsAll 1 n unfunded where
  canceled _ _ := rfl
  valid _ _ := rfl
  metadata _ _ := rfl
  distinct j k hjk _ := by
    change 20 + j ≠ 20 + k
    omega

theorem subscribing_threeRetries :
    (Transition.exec (step .thirtyDays threeRetries) owned subscribing).isSome := by
  decide +kernel

/-- The sample organization with its first month paid, under the shorter schedule. -/
def subscribedShort : World :=
  (Transition.exec (step .thirtyDays threeRetries) owned subscribing).get subscribing_threeRetries

/-- The end of the first month. -/
def firstPeriodEnd : Timestamp := april + minutes 1 + hours 720

/-- The subscription after the first month was paid. -/
def paidRow : Subscription where
  plan := .pro
  status := .active
  currentPeriodEnd := some firstPeriodEnd
  paymentMethodId := some 5
  autoRenew := true
  nextBillingAt := some firstPeriodEnd
  lastPaymentId := some 10

theorem subscribedShort_unattempted :
    ∀ k ≤ 3, subscribedShort.issued (.renewal 1 firstPeriodEnd.toDate (k + 1)) = none ∧
      subscribedShort.history (20 + k) = [] := by
  decide +kernel

theorem paidRow_renews : Renews paidRow firstPeriodEnd firstPeriodEnd :=
  ⟨.inl rfl, rfl, rfl, rfl, rfl⟩

theorem all_retries_made_iff_threeRetries :
    subscribedShort.MakesAllRetries .thirtyDays threeRetries 1 unfunded
      (Calendar.thirtyDays.addDays firstPeriodEnd 7) :=
  have hrow : subscribedShort.db.subscriptions 1 = some paidRow := by decide +kernel
  (all_retries_made_iff .thirtyDays threeRetries (.of_exec_get subscribing_threeRetries) hrow rfl
    paidRow_renews (by decide +kernel) (unfunded_cancelsAll 3)
    ⟨fun k _ hk => (subscribedShort_unattempted k hk).1,
      fun k _ hk => (subscribedShort_unattempted k hk).2⟩).mpr (by decide)

/-- The sample organization with its first month paid, under the default schedule. -/
def subscribed : World :=
  (Transition.exec (step .thirtyDays .default) owned subscribing).get subscribing_enabled

/-- Under the default schedule the third retry ends the subscription: the fourth would be due 217
hours after the renewal, and the grace period has 168. -/
theorem last_retry_not_made :
    Transition.Run (Steps .thirtyDays .default) owned subscribing subscribed ∧
      subscribed.db.subscriptions 1 = some paidRow ∧
      (subscribed.dunning .thirtyDays .default 1 unfunded 4).map (fun s =>
        (s.db.subscriptions 1).map fun row => (row.status, row.plan, row.retryCount)) =
          some (some (.cancelled, .free, 4)) ∧
      ¬subscribed.MakesAllRetries .thirtyDays .default 1 unfunded
        (Calendar.thirtyDays.addDays firstPeriodEnd 7) := by
  have hend : (subscribed.dunning .thirtyDays .default 1 unfunded 4).map (fun s =>
      (s.db.subscriptions 1).map fun row => (row.status, row.plan, row.retryCount)) =
        some (some (.cancelled, .free, 4)) := by
    decide +kernel
  refine ⟨.of_exec_get subscribing_enabled, by decide +kernel, hend, fun hm => ?_⟩
  obtain ⟨s, row, due, hdun, hrow, hpast, -⟩ := hm.retried 4 (by decide) (by decide)
  rw [hdun, Option.map_some, hrow, Option.map_some] at hend
  simp [hpast] at hend

end World

end Tonatiuh.Billing
