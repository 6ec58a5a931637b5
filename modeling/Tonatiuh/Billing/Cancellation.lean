import Tonatiuh.Billing.Inversion

/-! `POST /cancel` and the payments that land after it.

A cancellation stands until `POST /resume` or a checkout started later succeeds. The upsert of a
succeeded payment does not look at the cancellation: the success of a renewal, and of a checkout
that saves a payment method, sets the subscription as if the user had just asked for it. So the
cancellation is kept exactly in the runs in which no such success of a payment begun before it
is applied. -/

namespace Tonatiuh.Billing

namespace World

variable {cal : Calendar} {config : BillingConfig} {s s₁ s' : World} {org : OrganizationId}

/-- The event ends a cancellation made in state `s₁` on the user's behalf: `POST /resume`, or
the success of a checkout whose payment the provider created after `s₁`. -/
def Reopens (s₁ s : World) (org : OrganizationId) (e : Event) : Prop :=
  (∃ now row, e = .resume now org ∧ s.db.subscriptions org = some row ∧ row.resumable now) ∨
    ∃ d, s.Grants org e d ∧ d.localPayment.kind = .initial ∧ s₁.history d.payment.id = []

/-- The event applies the success of a payment begun before the cancellation: of a renewal, or
of a checkout that saves its payment method. -/
def Overtakes (s₁ s : World) (org : OrganizationId) (e : Event) : Prop :=
  ∃ d, s.Grants org e d ∧ (d.localPayment.kind = .renewal ∨
    s₁.history d.payment.id ≠ [] ∧ d.payment.savedMethod.isSome)

/-- `Reopens` and `Overtakes`, for the lifecycle call of the event. -/
theorem reopens_iff : Reopens s₁ s org e ↔
    (match e with
      | .resume now org' => org' = org ∧ ∃ row ∈ s.db.subscriptions org, row.resumable now
      | _ => False) ∨
    ∃ d ∈ s.delivery e, d.localPayment.organizationId = org ∧ d.payment.grants ∧
      s.db.entitled d.payment.id = false ∧ d.localPayment.kind = .initial ∧
      s₁.history d.payment.id = [] := by
  refine or_congr ⟨?_, fun h => ?_⟩ ⟨?_, ?_⟩
  · rintro ⟨now, row, rfl, hrow, hres⟩
    exact ⟨rfl, row, hrow, hres⟩
  · split at h
    next now org' =>
      obtain ⟨rfl, row, hrow, hres⟩ := h
      exact ⟨now, row, rfl, hrow, hres⟩
    next => cases h
  · rintro ⟨d, ⟨hd, ho, hg, hf⟩, hk, hnew⟩
    exact ⟨d, hd, ho, hg, hf, hk, hnew⟩
  · rintro ⟨d, hd, ho, hg, hf, hk, hnew⟩
    exact ⟨d, ⟨hd, ho, hg, hf⟩, hk, hnew⟩

theorem overtakes_iff : Overtakes s₁ s org e ↔
    ∃ d ∈ s.delivery e, d.localPayment.organizationId = org ∧ d.payment.grants ∧
      s.db.entitled d.payment.id = false ∧ (d.localPayment.kind = .renewal ∨
        s₁.history d.payment.id ≠ [] ∧ d.payment.savedMethod.isSome) := by
  constructor
  · rintro ⟨d, ⟨hd, ho, hg, hf⟩, h⟩
    exact ⟨d, hd, ho, hg, hf, h⟩
  · rintro ⟨d, hd, ho, hg, hf, h⟩
    exact ⟨d, ⟨hd, ho, hg, hf⟩, h⟩

instance (s₁ s : World) (org : OrganizationId) (e : Event) : Decidable (Reopens s₁ s org e) := by
  refine @decidable_of_iff _ _ reopens_iff.symm (@instDecidableOr _ _ ?_ inferInstance)
  induction e using Event.casesOn with
  | resume => exact inferInstance
  | _ => exact instDecidableFalse

instance (s₁ s : World) (org : OrganizationId) (e : Event) : Decidable (Overtakes s₁ s org e) :=
  decidable_of_iff _ overtakes_iff.symm

/-- `auto_renew` is off: `claimRenewal` does not return the organization. -/
def RenewalOff (s : World) (org : OrganizationId) : Prop :=
  ∀ row, s.db.subscriptions org = some row → row.autoRenew = false

/-- After the step `auto_renew` is off, and if the step applied the success of a renewal, the
cancellation is still recorded. -/
def KeepsCancellation (org : OrganizationId) (s : World) (e : Event) (s' : World) : Prop :=
  s'.RenewalOff org ∧ ∀ d, s.Grants org e d → d.localPayment.kind = .renewal →
    ∀ row, s'.db.subscriptions org = some row → row.cancelAtPeriodEnd

theorem RenewalOff.dueRenewal (h : s.RenewalOff org) (now : Timestamp) :
    s.db.dueRenewal now org = none := by
  unfold Database.dueRenewal
  split
  · next hrow _ => exact absurd (h _ hrow) (by simp)
  · rfl

theorem RenewalOff.cancel (h : Steps cal config s (.cancel org) s') : s'.RenewalOff org := by
  cases h
  intro row hrow
  simp only [commit_db, Database.updateSubscription_apply, if_pos, Option.map_eq_some_iff] at hrow
  obtain ⟨_, -, rfl⟩ := hrow
  rfl

/-- An extension switches `auto_renew` on exactly if its payment saved a method. -/
theorem extend_autoRenew (hoff : ∀ row, o = some row → row.autoRenew = false) :
    (Subscription.extend cal now payment o).autoRenew = payment.savedMethod.isSome := by
  cases o with
  | none => rfl
  | some row =>
    have := hoff row rfl
    cases hm : payment.savedMethod <;> simp [Subscription.extend, hm, this]

theorem RenewalOff.step (hoff : s.RenewalOff org) (h : Steps cal config s e s')
    (hopen : ¬ Reopens s₁ s org e) (hlate : ¬ Overtakes s₁ s org e) : s'.RenewalOff org := by
  intro row' hrow'
  cases step_outcome h with
  | routine _ hr =>
    have hr := hr org
    rw [hrow'] at hr
    unfold RenewalOff at hoff
    generalize hrow : s.db.subscriptions org = o at hr hoff
    cases hr with
    | same | claim _ | renewFailed _ _ _ => exact (hoff _ rfl :)
    | cancel | refund _ _ | anonymize => rfl
    | resume hres => exact absurd (.inl ⟨_, _, rfl, hrow, hres⟩) hopen
    | expire =>
      unfold Subscription.expire
      split
      · rfl
      · exact hoff _ rfl
  | extended d hd hg hun _ _ hsub =>
    rw [hsub, Database.upsertSubscription_apply] at hrow'
    split at hrow'
    · next horg =>
      cases hrow'
      rw [extend_autoRenew hoff]
      have hgr : s.Grants org e d := ⟨hd, horg.symm, hg, hun⟩
      cases hk : d.localPayment.kind with
      | renewal => exact absurd ⟨d, hgr, .inl hk⟩ hlate
      | initial =>
        cases hm : d.payment.savedMethod with
        | none => rfl
        | some method =>
          by_cases hnew : s₁.history d.payment.id = []
          · exact absurd (.inr ⟨d, hgr, hk, hnew⟩) hopen
          · exact absurd ⟨d, hgr, .inr ⟨hnew, by simp [hm]⟩⟩ hlate
    · exact hoff _ hrow'
  | dunned d _ _ _ _ _ _ hsub =>
    rw [hsub, Database.updateSubscription_apply] at hrow'
    split at hrow'
    · obtain ⟨row, hrow, rfl⟩ := Option.map_eq_some_iff.mp hrow'
      simp only [Subscription.dun]
      split
      · rfl
      · exact hoff _ hrow
    · exact hoff _ hrow'

/-- A success that overtakes the cancellation undoes it. -/
theorem Overtakes.undoes (hlate : Overtakes s₁ s org e) (h : Steps cal config s e s') :
    ¬ KeepsCancellation org s e s' := by
  obtain ⟨d, hg, hd⟩ := hlate
  rintro ⟨hoff, hcan⟩
  have hrow := hg.subscription h
  rcases hd with hk | ⟨-, hsaved⟩
  · have := hcan d hg hk _ hrow
    cases ho : s.db.subscriptions org <;> simp [Subscription.extend, ho] at this
  · have := hoff _ hrow
    obtain ⟨method, hm⟩ := Option.isSome_iff_exists.mp hsaved
    cases ho : s.db.subscriptions org <;> simp [Subscription.extend, ho, hm] at this

end World

open Transition World

/-- From a cancellation on, up to a resume or the success of a checkout started later: every
step keeps the cancellation exactly if no step applies the success of a payment that overtakes
it, and then `claimRenewal` does not return the organization at any time. -/
theorem cancellation_kept_iff {cal : Calendar} {config : BillingConfig} {s₀ s₁ s : World}
    (hcancel : Steps cal config s₀ (.cancel org) s₁) :
    (Run (Meeting (Steps cal config) fun s e s' =>
        ¬ Reopens s₁ s org e ∧ KeepsCancellation org s e s') s₁ es s ↔
      Run (Meeting (Steps cal config) fun s e _ =>
        ¬ Reopens s₁ s org e ∧ ¬ Overtakes s₁ s org e) s₁ es s) ∧
    (Run (Meeting (Steps cal config) fun s e _ =>
        ¬ Reopens s₁ s org e ∧ ¬ Overtakes s₁ s org e) s₁ es s →
      s.RenewalOff org ∧ ∀ now, s.db.dueRenewal now org = none) := by
  have hoff := RenewalOff.cancel hcancel
  refine ⟨⟨fun h => ?_, fun h => ?_⟩, fun h => ?_⟩
  · exact h.mono fun s e s' ⟨hst, hopen, hkeep⟩ => ⟨hst, hopen, fun hlate => hlate.undoes hst hkeep⟩
  · refine h.mono_invariant (I := (RenewalOff · org)) (fun s e s' hi ⟨hst, hopen, hlate⟩ => ?_) hoff
    have hi' := hi.step hst hopen hlate
    exact ⟨⟨hst, hopen, hi', fun d hg hk => absurd ⟨d, hg, .inl hk⟩ hlate⟩, hi'⟩
  · have hi := h.invariant (I := (RenewalOff · org))
      (fun s e s' hi ⟨hst, hopen, hlate⟩ => hi.step hst hopen hlate) hoff
    exact ⟨hi, hi.dueRenewal⟩

/-- The worker has claimed the renewal of April when the user cancels. -/
def renewalClaimed : List Event := subscribing ++ [.claimRenewal renewalDay 1]

theorem renewalClaimed_enabled :
    (exec (step .thirtyDays .default) owned renewalClaimed).isSome := by decide +kernel

def cancelledWhenClaimed : World :=
  let s := (exec (step .thirtyDays .default) owned renewalClaimed).get renewalClaimed_enabled
  s.commit (s.db.updateSubscription 1 (·.cancel))

/-- The worker charges the renewal, which the provider cancels; the first payment is delivered
again; and the period of grace ends. -/
def chargedInVain : List Event :=
  [.renewCall 0 (renewalPayment 11 .pending), .renewRecord (renewalDay + minutes 1) 0,
   .providerUpdate (renewalPayment 11 .canceled),
   .webhook (renewalDay + minutes 2) .canceled (renewalPayment 11 .canceled),
   .webhook (renewalDay + minutes 3) .succeeded (checkoutPayment .succeeded),
   .expireGracePeriods (renewalDay + hours 192)]

theorem chargedInVain_enabled : (execWhere (step .thirtyDays .default)
    (fun s e => ¬ Reopens cancelledWhenClaimed s 1 e ∧ ¬ Overtakes cancelledWhenClaimed s 1 e)
    cancelledWhenClaimed chargedInVain).isSome := by decide +kernel

theorem cancellation_kept_iff_chargedInVain :
    let s := (execWhere (step .thirtyDays .default)
      (fun s e => ¬ Reopens cancelledWhenClaimed s 1 e ∧ ¬ Overtakes cancelledWhenClaimed s 1 e)
      cancelledWhenClaimed chargedInVain).get chargedInVain_enabled
    s.RenewalOff 1 ∧ ∀ now, s.db.dueRenewal now 1 = none := by
  have hcancel : Steps .thirtyDays .default
      ((exec (step .thirtyDays .default) owned renewalClaimed).get renewalClaimed_enabled)
        (.cancel 1)
      cancelledWhenClaimed := rfl
  exact (cancellation_kept_iff hcancel).2 (Run.of_execWhere_get chargedInVain_enabled)

/-- A renewal is charged and still pending when the user cancels. -/
def cancelDuringRenewal : List Event :=
  subscribing ++
    [.claimRenewal renewalDay 1, .renewCall 0 (renewalPayment 11 .pending),
     .renewRecord (renewalDay + minutes 1) 0, .cancel 1]

/-- The provider completes the renewal, and a month later the organization is claimed. -/
def renewedAfterCancel : List Event :=
  [.providerUpdate (renewalPayment 11 .succeeded),
   .webhook (renewalDay + minutes 5) .succeeded (renewalPayment 11 .succeeded),
   .claimRenewal (renewalDay + hours 721) 1]

/-- Without any resume or checkout after the cancellation the organization is claimed again. -/
theorem cancelled_organization_claimed :
    (exec (step .thirtyDays .default) owned (cancelDuringRenewal ++ renewedAfterCancel)).isSome ∧
      ((exec (step .thirtyDays .default) owned cancelDuringRenewal).map fun s =>
        (s.db.subscriptions 1).map fun row => (row.autoRenew, row.cancelAtPeriodEnd)) =
          some (some (false, true)) ∧
      ((exec (step .thirtyDays .default) owned (cancelDuringRenewal ++ renewedAfterCancel)).map
        fun s => (s.db.subscriptions 1).map fun row => (row.autoRenew, row.cancelAtPeriodEnd)) =
          some (some (true, false)) := by
  decide +kernel

end Tonatiuh.Billing
