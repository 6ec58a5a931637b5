import Tonatiuh.Billing.Inversion

/-! Application markers (`docs/billing-lifecycle.md`): deliveries may arrive in any order and any
number of times without extending or dunning a subscription twice for one payment.

The log of effects is bounded by the two marker columns: an effect is logged only when its
marker was unset, and no statement unsets a marker. A delivery changes a subscription only together
with a new entry of the log. -/

namespace Tonatiuh.Billing

/-- The paid period added for this payment. -/
def Effect.extends (id : PaymentId) : Effect → Bool
  | .extended _ id' => id' = id
  | .dunned .. => false

/-- The failure recorded for this payment. -/
def Effect.duns (id : PaymentId) : Effect → Bool
  | .extended .. => false
  | .dunned _ id' => id' = id

/-- A delivery: a payment notification, the response of a recurring payment, or reconciliation. -/
def Event.delivers : Event → Bool
  | .webhook .. | .renewRecord .. | .reconcile .. => true
  | _ => false

/-- A delivery makes none of the other changes of a subscription. -/
theorem Routine.delivers_eq {s : World} {row row' : Option Subscription}
    (h : Routine s org e row row') (he : e.delivers) : row' = row := by
  cases h with
  | same => rfl
  | refund hr _ => cases e <;> simp [Event.delivers, Event.refund] at he hr
  | claim | renewFailed | cancel | resume | expire | anonymize => cases he

namespace World

variable {cal : Calendar} {config : BillingConfig} {s s' : World}

/-- Each effect of a payment is logged at most once, and only if its marker is set. -/
def MarkersBoundLog (s : World) : Prop :=
  ∀ id, s.log.countP (·.extends id) ≤ (s.db.entitled id).toNat ∧
    s.log.countP (·.duns id) ≤ (s.db.failed id).toNat

theorem toNat_le_of_imp {a b : Bool} (h : a → b) : a.toNat ≤ b.toNat := by
  cases a <;> cases b <;> simp_all

theorem MarkersBoundLog.step (hi : s.MarkersBoundLog) (h : Steps cal config s e s') :
    s'.MarkersBoundLog := by
  have hg := step_grows h
  have hent (id) : (s.db.entitled id).toNat ≤ (s'.db.entitled id).toNat :=
    toNat_le_of_imp fun he => hg.entitled he
  have hfail (id) : (s.db.failed id).toNat ≤ (s'.db.failed id).toNat :=
    toNat_le_of_imp fun he => hg.failed he
  intro id
  obtain ⟨h₁, h₂⟩ := hi id
  cases step_outcome h with
  | routine hlog _ =>
    rw [hlog]
    exact ⟨Nat.le_trans h₁ (hent id), Nat.le_trans h₂ (hfail id)⟩
  | extended d _ _ hun hmk hlog _ =>
    rw [hlog]
    refine ⟨?_, by simpa [Effect.duns] using Nat.le_trans h₂ (hfail id)⟩
    by_cases he : d.payment.id = id
    · subst he
      simp_all [Effect.extends]
    · simpa [Effect.extends, he] using Nat.le_trans h₁ (hent id)
  | dunned d _ _ _ hun hmk hlog _ =>
    rw [hlog]
    refine ⟨by simpa [Effect.extends] using Nat.le_trans h₁ (hent id), ?_⟩
    by_cases he : d.payment.id = id
    · subst he
      simp_all [Effect.duns]
    · simpa [Effect.duns, he] using Nat.le_trans h₂ (hfail id)

theorem MarkersBoundLog.run (hi : s.MarkersBoundLog)
    (h : Transition.Run (Steps cal config) s es s') : s'.MarkersBoundLog :=
  h.invariant (fun _ _ _ => MarkersBoundLog.step) hi

/-- The history variables before the first event. -/
def observeFrom (s : World) : World := { s with log := [] }

theorem observeFrom_markersBoundLog (s : World) : s.observeFrom.MarkersBoundLog :=
  fun _ => ⟨Nat.zero_le _, Nat.zero_le _⟩

/-- How a delivery moves the period end of an organization. -/
theorem delivery_periodEnd (hd : s.delivery e = some d) (h : Steps cal config s e s')
    (org : OrganizationId) :
    s'.db.periodEnd org = s.db.periodEnd org ∨
      d.payment.status = .succeeded ∧ d.localPayment.organizationId = org ∧
        s.db.entitled d.payment.id = false ∧ s'.log = .extended org d.payment.id :: s.log ∧
        s'.db.periodEnd org = some (extendedPeriodEnd cal d.now (s.db.periodEnd org)) := by
  cases step_outcome h with
  | routine _ hr =>
    refine .inl ?_
    have hr := hr org
    unfold Database.periodEnd
    generalize s.db.subscriptions org = o, s'.db.subscriptions org = o' at hr
    cases hr with
    | refund ht _ => cases e <;> simp [delivery, Event.refund] at hd ht
    | expire | claim | renewFailed | cancel | resume | anonymize => simp [delivery] at hd
    | same => rfl
  | extended d' hd' hg hun _ hlog hsub =>
    obtain rfl := Option.some.inj (hd.symm.trans hd')
    by_cases horg : org = d.localPayment.organizationId
    · subst horg
      refine .inr ⟨?_, rfl, hun, hlog, ?_⟩
      · simp only [YooPayment.grants, Bool.and_eq_true, decide_eq_true_eq] at hg
        exact hg.1
      · rw [Database.periodEnd, hsub, Database.upsertSubscription_apply, if_pos rfl]
        exact extend_currentPeriodEnd ..
    · left
      rw [Database.periodEnd, hsub, Database.upsertSubscription_apply, if_neg horg]; rfl
  | dunned d' hd' _ _ _ _ _ hsub =>
    left
    rw [Database.periodEnd, hsub, Database.updateSubscription_apply]
    split
    · cases hrow : s.db.subscriptions org <;> simp [Database.periodEnd, hrow, Subscription.dun]
    · rfl

/-- What a delivery does to the subscriptions is in the log: it leaves them alone, or it adds an
effect of its payment that the log has not had, to the subscription of its organization. -/
inductive Delivered (cal : Calendar) (config : BillingConfig) (s : World) (e : Event)
    (s' : World) : Prop where
  | same : s'.log = s.log → s'.db.subscriptions = s.db.subscriptions → Delivered cal config s e s'
  | extended (d : Delivery) : s.delivery e = some d → d.payment.status = .succeeded →
    s.log.countP (·.extends d.payment.id) = 0 →
    s'.log = .extended d.localPayment.organizationId d.payment.id :: s.log →
    s'.db.periodEnd d.localPayment.organizationId = some (cal.addMonth
      (max ((s.db.periodEnd d.localPayment.organizationId).getD d.now) d.now)) →
    (∀ org ≠ d.localPayment.organizationId, s'.db.subscriptions org = s.db.subscriptions org) →
    Delivered cal config s e s'
  | dunned (d : Delivery) : s.delivery e = some d → d.payment.status = .canceled →
    d.localPayment.kind = .renewal → s.log.countP (·.duns d.payment.id) = 0 →
    s'.log = .dunned d.localPayment.organizationId d.payment.id :: s.log →
    s'.db.subscriptions d.localPayment.organizationId =
      (s.db.subscriptions d.localPayment.organizationId).map
        (·.dun cal config d.now d.payment d.localPayment.attemptNumber) →
    (∀ org, s'.db.periodEnd org = s.db.periodEnd org) →
    (∀ org ≠ d.localPayment.organizationId, s'.db.subscriptions org = s.db.subscriptions org) →
    Delivered cal config s e s'

theorem MarkersBoundLog.delivered (hi : s.MarkersBoundLog) (h : Steps cal config s e s')
    (he : e.delivers) : Delivered cal config s e s' := by
  cases step_outcome h with
  | routine hlog hr => exact .same hlog (funext fun org => (hr org).delivers_eq he)
  | extended d hd hg hun _ hlog hsub =>
    have hcount := (hi d.payment.id).1
    rw [hun] at hcount
    have hstatus := (Bool.and_eq_true_iff.mp hg).1
    refine .extended d hd (of_decide_eq_true hstatus) (Nat.le_zero.mp hcount) hlog ?_
      fun org horg => ?_
    · rw [Database.periodEnd, hsub, Database.upsertSubscription_apply, if_pos rfl]
      exact extend_currentPeriodEnd ..
    · rw [hsub, Database.upsertSubscription_apply, if_neg horg]
  | dunned d hd hcanceled hkind hun _ hlog hsub =>
    have hcount := (hi d.payment.id).2
    rw [hun] at hcount
    refine .dunned d hd hcanceled hkind (Nat.le_zero.mp hcount) hlog ?_ (fun org => ?_)
      fun org horg => ?_
    · rw [hsub, Database.updateSubscription_apply, if_pos rfl]
    · rw [Database.periodEnd, hsub, Database.updateSubscription_apply]
      split
      · cases hrow : s.db.subscriptions org <;> simp [Database.periodEnd, hrow, Subscription.dun]
      · rfl
    · rw [hsub, Database.updateSubscription_apply, if_neg horg]

/-- Only deliveries have effects of payments. -/
theorem log_eq_of_not_delivers (h : Steps cal config s e s') (he : e.delivers = false) :
    s'.log = s.log := by
  cases step_outcome h with
  | routine hlog _ => exact hlog
  | extended d hd | dunned d hd =>
    cases e with
    | webhook | renewRecord | reconcile => cases he
    | _ => cases hd

end World

open Transition World

/-- Over every run, from any tables: a payment extends its subscription at most once and the failure
of a renewal is applied at most once. What a delivery does to a subscription is one of these effects
and the first of its payment; it moves a period end only for a succeeded payment that has not been
applied yet, to one month after the later of the old period end and now. -/
theorem payment_effects_at_most_once (cal : Calendar) (config : BillingConfig) (s₀ : World)
    (h : Run (Steps cal config) s₀.observeFrom es s) :
    (∀ id, s.log.countP (·.extends id) ≤ 1 ∧ s.log.countP (·.duns id) ≤ 1) ∧
      (∀ e s', Steps cal config s e s' →
        if e.delivers then Delivered cal config s e s' else s'.log = s.log) ∧
      ∀ e s' d, Steps cal config s e s' → s.delivery e = some d → ∀ org,
        s'.db.periodEnd org = s.db.periodEnd org ∨
          d.payment.status = .succeeded ∧ d.localPayment.organizationId = org ∧
            s.log.countP (·.extends d.payment.id) = 0 ∧
            s'.log = .extended org d.payment.id :: s.log ∧
            s'.db.periodEnd org =
              some (cal.addMonth (max ((s.db.periodEnd org).getD d.now) d.now)) := by
  have hi := s₀.observeFrom_markersBoundLog.run h
  refine ⟨fun id => ?_, fun e s' hstep => ?_, fun e s' d hstep hd org => ?_⟩
  · obtain ⟨h₁, h₂⟩ := hi id
    exact ⟨Nat.le_trans h₁ (Bool.toNat_le _), Nat.le_trans h₂ (Bool.toNat_le _)⟩
  · split
    next he => exact hi.delivered hstep he
    next he => exact log_eq_of_not_delivers hstep (Bool.eq_false_iff.mpr he)
  · rcases delivery_periodEnd hd hstep org with h | ⟨hs, horg, hun, hlog, hend⟩
    · exact .inl h
    · have hcount := (hi d.payment.id).1
      rw [hun] at hcount
      exact .inr ⟨hs, horg, Nat.le_zero.mp hcount, hlog, hend⟩

/-- The success of a checkout delivered by the webhook, again by the webhook, and by
reconciliation. -/
def repeatedDelivery : List Event :=
  subscribing ++
    [.webhook (april + minutes 2) .succeeded (checkoutPayment .succeeded),
     .reconcile (april + minutes 3) (checkoutPayment .succeeded)]

/-- Then the cancellation of the first renewal delivered by the webhook, and by reconciliation. -/
def repeatedFailure : List Event :=
  repeatedDelivery ++
    [.claimRenewal renewalDay 1, .renewCall 0 (renewalPayment 11 .pending),
     .renewRecord (renewalDay + minutes 1) 0, .providerUpdate (renewalPayment 11 .canceled),
     .webhook (renewalDay + minutes 2) .canceled (renewalPayment 11 .canceled),
     .reconcile (renewalDay + minutes 3) (renewalPayment 11 .canceled)]

theorem repeatedFailure_enabled :
    (exec (step .thirtyDays .default) owned.observeFrom repeatedFailure).isSome := by
  decide +kernel

theorem payment_effects_at_most_once_repeated :
    let s := (exec (step .thirtyDays .default) owned.observeFrom repeatedFailure).get
      repeatedFailure_enabled
    (s.log.countP (·.extends 10) ≤ 1 ∧ s.log.countP (·.duns 11) ≤ 1) ∧
      s.log = [.dunned 1 11, .extended 1 10] ∧
      (s.db.subscriptions 1).map (fun row => (row.currentPeriodEnd, row.retryCount)) =
        some (some (april + minutes 1 + hours 720), 1) := by
  have h := (payment_effects_at_most_once .thirtyDays .default owned
    (Run.of_exec_get repeatedFailure_enabled)).1
  exact ⟨⟨(h 10).1, (h 11).2⟩, by decide +kernel, by decide +kernel⟩

end Tonatiuh.Billing
