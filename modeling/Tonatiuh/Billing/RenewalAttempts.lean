import Tonatiuh.Billing.Provider

/-! The charges of one billing period.

The idempotency key of a renewal is made of the organization, the period end and the attempt
`retry_count+1`. As long as `retry_count` counts the cancelled charges of the current period, the
attempts of a period form a series: each is created after the one before it was cancelled, so at
most one of them succeeds. `Series` is that invariant. Two things outside the period can break
it: `GREATEST(retry_count,$4)` also takes over the attempt of another period's renewal, and a
period end may be set a second time to an instant that was charged before. -/

namespace Tonatiuh.Billing

namespace World

variable {cal : Calendar} {config : BillingConfig} {s s' : World} {e : Event} {d : Delivery}
  {org : OrganizationId} {id : PaymentId} {key : IdempotencyKey}

/-! ## The provider's payments -/

/-- The present status of a payment at the provider. -/
def statusOf (s : World) (id : PaymentId) : Option PaymentStatus :=
  (s.history id).head?.map (·.status)

/-- The kind a payment was created with. -/
def kindOf (s : World) (id : PaymentId) : Option PaymentKind :=
  ((s.history id).head?.bind (·.metadata)).map (·.kind)

/-- A step leaves the payment alone, creates it, or moves it to a new state. -/
theorem step_history (h : Steps cal config s e s') (id : PaymentId) :
    s'.history id = s.history id ∨ (∃ p, s.history id = [] ∧ s'.history id = [p]) ∨
      ∃ p, p.id = id ∧ s.mayBecome p ∧ s'.history id = p :: s.history id := by
  cases step_provider h with
  | quiet hh | claim _ hh | replay _ _ _ hh | finish hh => exact .inl (by rw [hh])
  | update hm hh =>
    rw [hh, Function.update_apply]
    split
    · next he => subst he; exact .inr (.inr ⟨_, rfl, hm, rfl⟩)
    · exact .inl rfl
  | checkout _ hnil _ hh | charge _ _ hnil _ hh =>
    simp only [hh, create, Function.update_apply]
    split
    · next he => subst he; exact .inr (.inl ⟨_, hnil, rfl⟩)
    · exact .inl rfl

theorem kindOf_step (h : Steps cal config s e s') (hne : s.history id ≠ []) :
    s'.kindOf id = s.kindOf id := by
  rcases step_history h id with heq | ⟨p, hnil, -⟩ | ⟨p, rfl, hm, heq⟩
  · rw [kindOf, heq, kindOf]
  · exact absurd hnil hne
  · unfold mayBecome at hm
    split at hm
    · cases hm
    · next hold =>
      simp only [Bool.and_eq_true, decide_eq_true_eq] at hm
      simp [kindOf, heq, hold, hm.1]

/-- A settled status is final. -/
theorem statusOf_step (h : Steps cal config s e s') (hs : s.statusOf id = some status)
    (hfinal : status.isOpen = false) : s'.statusOf id = some status := by
  rcases step_history h id with heq | ⟨p, hnil, -⟩ | ⟨p, rfl, hm, heq⟩
  · rw [statusOf, heq]; exact hs
  · simp [statusOf, hnil] at hs
  · unfold mayBecome at hm
    split at hm
    · cases hm
    · next last _ hold =>
      simp only [statusOf, hold, List.head?_cons, Option.map_some, Option.some.injEq] at hs
      simp only [Bool.and_eq_true, Bool.or_eq_true, decide_eq_true_eq, hs, hfinal,
        Bool.false_eq_true, false_or] at hm
      simp [statusOf, heq, hm.2]

/-- A payment is created for a key without one: for a checkout, or for a renewal in flight. -/
structure Creates (s : World) (key : IdempotencyKey) (p : YooPayment) (s' : World) : Prop where
  unused : s.issued key = none
  unknown : s.history p.id = []
  issued : s'.issued key = some p.id
  history : s'.history p.id = [p]
  others : ∀ key', key' ≠ key → s'.issued key' = s.issued key'
  origin : s'.kindOf p.id = some .initial ∨
    ∃ flight ∈ s.renewals, flight.item.idempotencyKey = key

/-- A step keeps the payment of a key or creates it. -/
theorem step_issued (h : Steps cal config s e s') (key : IdempotencyKey) :
    s'.issued key = s.issued key ∨ ∃ p, s.Creates key p s' := by
  cases step_provider h with
  | quiet _ hi | update _ _ hi | claim _ _ hi | replay _ _ _ _ hi | finish _ hi =>
    exact .inl (by rw [hi])
  | @checkout key' payment _ _ hnone hnil hmeta hh hi =>
    by_cases he : key = key'
    · subst he
      exact .inr ⟨payment, hnone, hnil, by simp [hi, create], by simp [hh, create],
        fun _ hne => by simp [hi, create, hne], .inl (by simp [kindOf, hh, create, hmeta])⟩
    · exact .inl (by simp [hi, create, he])
  | @charge _ payment _ _ item _ hf hnone hnil _ hh hi =>
    by_cases he : key = item.idempotencyKey
    · subst he
      exact .inr ⟨payment, hnone, hnil, by simp [hi, create], by simp [hh, create],
        fun _ hne => by simp [hi, create, hne], .inr ⟨_, List.mem_of_getElem? hf, rfl⟩⟩
    · exact .inl (by simp [hi, create, he])

theorem issued_mono (h : Steps cal config s e s') (hi : s.issued key = some id) :
    s'.issued key = some id := by
  rcases step_issued h key with heq | ⟨p, hc⟩
  · rw [heq, hi]
  · rw [hc.unused] at hi; cases hi

/-- The bookkeeping between the provider, the renewals in flight and the payment rows. -/
structure Sound (s : World) : Prop where
  final : ∀ {id p}, p ∈ s.history id → p.status.isOpen = false → s.statusOf id = some p.status
  known : ∀ {key id}, s.issued key = some id → s.history id ≠ []
  injective : ∀ {key key' id}, s.issued key = some id → s.issued key' = some id → key = key'
  response : ∀ {flight : InFlight} {p}, flight ∈ s.renewals → flight.response = some p →
    p ∈ s.history p.id ∧ s.issued flight.item.idempotencyKey = some p.id
  recorded : ∀ {id row}, s.db.payments id = some row → row.kind = .renewal →
    ∃ periodEnd, row.idempotencyKey = .renewal row.organizationId periodEnd row.attemptNumber ∧
      s.issued row.idempotencyKey = some id

theorem start_sound (ownerEmail : OrganizationId → Option String) : (start ownerEmail).Sound where
  final h := by cases h
  known h := by cases h
  injective h := by cases h
  response h := by cases h
  recorded h := by cases h

theorem mem_history_step (h : Steps cal config s e s') (hp : p ∈ s.history id) :
    p ∈ s'.history id := by
  rcases step_history h id with heq | ⟨q, hnil, -⟩ | ⟨q, -, -, heq⟩
  · rwa [heq]
  · rw [hnil] at hp; cases hp
  · rw [heq]; exact List.mem_cons_of_mem _ hp

theorem Sound.final_step (hs : s.Sound) (h : Steps cal config s e s') (hp : p ∈ s'.history id)
    (hfinal : p.status.isOpen = false) : s'.statusOf id = some p.status := by
  rcases step_history h id with heq | ⟨q, hnil, heq⟩ | ⟨q, -, -, heq⟩
  · exact statusOf_step h (hs.final (heq ▸ hp) hfinal) hfinal
  · rw [heq, List.mem_singleton] at hp
    subst hp; simp [statusOf, heq]
  · rw [heq] at hp
    rcases List.mem_cons.mp hp with rfl | hp
    · simp [statusOf, heq]
    · exact statusOf_step h (hs.final hp hfinal) hfinal

theorem Sound.response_step (hs : s.Sound) (h : Steps cal config s e s') {flight : InFlight}
    (hf : flight ∈ s'.renewals) (hp : flight.response = some p) :
    p ∈ s'.history p.id ∧ s'.issued flight.item.idempotencyKey = some p.id := by
  have hold (hf : flight ∈ s.renewals) :
      p ∈ s'.history p.id ∧ s'.issued flight.item.idempotencyKey = some p.id :=
    ⟨mem_history_step h (hs.response hf hp).1, issued_mono h (hs.response hf hp).2⟩
  cases step_provider h with
  | quiet _ _ _ hr | update _ _ _ _ hr | checkout _ _ _ _ _ _ hr => exact hold (hr ▸ hf)
  | claim _ _ _ _ hr =>
    rw [hr] at hf
    rcases List.mem_cons.mp hf with rfl | hf
    · cases hp
    · exact hold hf
  | replay hi hissued hhead hh his _ hr =>
    rw [hr] at hf
    rcases List.mem_or_eq_of_mem_set hf with hf | rfl
    · exact hold hf
    · cases hp
      exact ⟨hh ▸ List.mem_of_mem_head? hhead, his ▸ hissued⟩
  | charge hi _ _ _ hh his _ hr =>
    rw [hr] at hf
    rcases List.mem_or_eq_of_mem_set hf with hf | rfl
    · exact hold hf
    · cases hp
      simp [hh, his, create]
  | finish _ _ _ hr =>
    rw [hr] at hf
    exact hold (List.mem_of_mem_eraseIdx hf)

theorem Sound.step (hs : s.Sound) (h : Steps cal config s e s') : s'.Sound where
  final hp hfinal := hs.final_step h hp hfinal
  known {key id} hi := by
    rcases step_issued h key with heq | ⟨p, hc⟩
    · obtain ⟨p, hp⟩ := List.exists_mem_of_ne_nil _ (hs.known (heq ▸ hi))
      exact List.ne_nil_of_mem (mem_history_step h hp)
    · rw [hc.issued] at hi
      cases hi; simp [hc.history]
  injective {key key' id} hi hi' := by
    have hfresh {key key' p} (hc : s.Creates key p s') (hi' : s'.issued key' = some p.id) :
        key' = key := by
      by_contra hne
      rw [hc.others _ hne] at hi'
      exact hs.known hi' hc.unknown
    rcases step_issued h key with heq | ⟨p, hc⟩
    · rcases step_issued h key' with heq' | ⟨p, hc⟩
      · exact hs.injective (heq ▸ hi) (heq' ▸ hi')
      · rw [hc.issued] at hi'
        cases hi'; exact hfresh hc hi
    · rw [hc.issued] at hi
      cases hi; exact (hfresh hc hi').symm
  response hf hp := hs.response_step h hf hp
  recorded {id row} hrow hk := by
    rcases (step_grows h).origin hrow with ⟨row₀, hrow₀, hcont⟩ | ⟨-, hnew⟩
    · obtain ⟨periodEnd, hkey, hi⟩ := hs.recorded hrow₀ (hcont.kind.symm.trans hk)
      exact ⟨periodEnd, by
        rw [hcont.idempotencyKey, hcont.organizationId, hcont.attemptNumber, hkey],
        issued_mono h (hcont.idempotencyKey ▸ hi)⟩
    · cases hnew with
      | checkout hinit => rw [hk] at hinit; cases hinit
      | renewal hf horg hkey _ hattempt _ =>
        rw [hkey, horg, hattempt]
        exact ⟨_, rfl, issued_mono h (hs.response (List.mem_of_getElem? hf) rfl).2⟩

/-! ## The attempts of a period -/

/-- The RENEWAL payment created for attempt `k` of the period that ends at `periodEnd`. -/
def Charged (s : World) (org : OrganizationId) (periodEnd : Date) (k : Nat) (id : PaymentId) :
    Prop :=
  s.issued (.renewal org periodEnd k) = some id ∧ s.kindOf id = some .renewal

instance (s : World) : Decidable (s.Charged org periodEnd k id) :=
  inferInstanceAs (Decidable (_ ∧ _))

/-- No renewal of the period is charged or in flight. -/
def Unclaimed (s : World) (org : OrganizationId) (periodEnd : Date) : Prop :=
  (∀ k, s.issued (.renewal org periodEnd k) = none) ∧ ∀ flight ∈ s.renewals,
    flight.item.organizationId = org → flight.item.currentPeriodEnd ≠ periodEnd

/-- No renewal of the period is in flight, and its charges up to attempt `m` are all there are and
are cancelled. -/
def Settled (s : World) (org : OrganizationId) (periodEnd : Date) (m : Nat) : Prop :=
  (∀ flight ∈ s.renewals, flight.item.organizationId = org →
    flight.item.currentPeriodEnd ≠ periodEnd) ∧
    ∀ k id, s.Charged org periodEnd k id → k ≤ m ∧ s.statusOf id = some .canceled

/-- The current period ends at this instant, to the millisecond of the idempotency key. -/
def EndsAt (row : Subscription) (periodEnd : Date) : Prop :=
  ∃ t, row.currentPeriodEnd = some t ∧ Timestamp.toDate t = periodEnd

/-- The attempts of a period follow its own cancellations: the cancellation of a renewal is first
applied while its period is the current one, or does not raise `retry_count`, or finds no charge
under way; and the period end is not moved to an instant whose renewals were claimed before. -/
structure KeepsSeries (cal : Calendar) (s : World) (e : Event) : Prop where
  duns : ∀ {org d row periodEnd}, s.Duns org e d → s.db.subscriptions org = some row →
    EndsAt row periodEnd →
    s.issued (.renewal org periodEnd d.localPayment.attemptNumber) = some d.payment.id ∨
      d.localPayment.attemptNumber ≤ row.retryCount ∨
      s.Settled org periodEnd d.localPayment.attemptNumber
  grants : ∀ {org d}, s.Grants org e d →
    s.Unclaimed org (extendedPeriodEnd cal d.now (s.db.periodEnd org)).toDate
  refund : ∀ {org row now r}, e.refund = some (now, r) → s.db.subscriptions org = some row →
    row.lastPaymentId = some r.paymentId → EndsAt row now.toDate ∨ s.Unclaimed org now.toDate

/-- The attempts of one period, `n` of which are used up. -/
structure Series (s : World) (org : OrganizationId) (periodEnd : Date) (n : Nat) : Prop where
  inFlight : ∀ flight ∈ s.renewals, flight.item.organizationId = org →
    flight.item.currentPeriodEnd = periodEnd → flight.item.retryCount ≤ n ∧
      (flight.item.retryCount < n → (s.issued flight.item.idempotencyKey).isSome)
  recorded : ∀ id row m, s.db.payments id = some row → row.kind = .renewal →
    row.idempotencyKey = .renewal org periodEnd m → m ≤ n + 1
  charged : ∀ k id, s.Charged org periodEnd k id →
    k ≤ n + 1 ∧ (k ≤ n → s.statusOf id = some .canceled)

/-- While the period is the current one, `retry_count` counts its attempts. -/
def Counts (s : World) (org : OrganizationId) (periodEnd : Date) (n : Nat) : Prop :=
  ∀ row, s.db.subscriptions org = some row → EndsAt row periodEnd → row.retryCount = n

theorem Sound.series_of_unclaimed (hs : s.Sound) (hu : s.Unclaimed org periodEnd) (n : Nat) :
    s.Series org periodEnd n where
  inFlight flight hf horg hend := absurd hend (hu.2 flight hf horg)
  recorded id row m hrow hk hkey := by
    obtain ⟨t, -, hi⟩ := hs.recorded hrow hk
    rw [hkey, hu.1] at hi; cases hi
  charged k id hc := by rw [Charged, hu.1] at hc; cases hc.1

/-- A cancellation of the current period uses up one more attempt. -/
theorem Series.advance (hser : s.Series org periodEnd n) (hm : m ≤ n + 1) (hnm : n < m)
    (hi : s.issued (.renewal org periodEnd m) = some id) (hcan : s.statusOf id = some .canceled) :
    s.Series org periodEnd m where
  inFlight flight hf horg hend := by
    obtain ⟨hle, hissued⟩ := hser.inFlight flight hf horg hend
    refine ⟨by omega, fun hlt => ?_⟩
    by_cases hlt' : flight.item.retryCount < n
    · exact hissued hlt'
    · have : flight.item.attempt = m := by simp only [Renewal.attempt]; omega
      rw [Renewal.idempotencyKey, horg, hend, this, hi]; rfl
  recorded id row k hrow hk hkey := by
    have := hser.recorded id row k hrow hk hkey
    omega
  charged k id' hc := by
    obtain ⟨hle, hcan'⟩ := hser.charged k id' hc
    refine ⟨by omega, fun hkm => ?_⟩
    by_cases hkn : k ≤ n
    · exact hcan' hkn
    · obtain rfl : k = m := by omega
      obtain rfl : id' = id := Option.some.inj (hc.1.symm.trans hi)
      exact hcan

theorem Series.of_settled (hser : s.Series org periodEnd n) (hnm : n < m)
    (hset : s.Settled org periodEnd m) : s.Series org periodEnd m where
  inFlight flight hf horg hend := absurd hend (hset.1 flight hf horg)
  recorded id row k hrow hk hkey := by
    have := hser.recorded id row k hrow hk hkey
    omega
  charged k id hc := by
    obtain ⟨hle, hcan⟩ := hset.2 k id hc
    exact ⟨by omega, fun _ => hcan⟩

/-- What the delivery of a renewal belongs to. -/
theorem Sound.delivery_attempt (hs : s.Sound) (hser : s.Series org periodEnd n)
    (h : Steps cal config s e s') (hd : s.delivery e = some d)
    (hk : d.localPayment.kind = .renewal)
    (hi : s.issued (.renewal org periodEnd d.localPayment.attemptNumber) = some d.payment.id) :
    d.localPayment.attemptNumber ≤ n + 1 := by
  cases (delivery_source h hd).1 with
  | row hrow hl _ =>
    rw [hl] at hk hi ⊢
    obtain ⟨-, -, hissued⟩ := hs.recorded hrow hk
    exact hser.recorded _ _ _ hrow hk (hs.injective hissued hi)
  | renewal hf hl =>
    rw [hl] at hi ⊢
    have hkey := hs.injective (hs.response (List.mem_of_getElem? hf) rfl).2 hi
    simp only [Renewal.idempotencyKey, IdempotencyKey.renewal.injEq] at hkey
    have := (hser.inFlight _ (List.mem_of_getElem? hf) hkey.1 hkey.2.1).1
    simp only [Renewal.attempt]
    simp only at this
    omega

theorem Sound.delivery_canceled (hs : s.Sound) (h : Steps cal config s e s')
    (hd : s.delivery e = some d) (hcan : d.payment.status = .canceled) :
    s.statusOf d.payment.id = some .canceled := by
  rw [← hcan]
  refine hs.final ?_ (by rw [hcan]; rfl)
  cases (delivery_source h hd).1 with
  | row _ _ hobs => simpa [observed] using hobs
  | renewal hf _ => exact (hs.response (List.mem_of_getElem? hf) rfl).1

/-- The attempts used up after a step: what the subscription counts there is already true of the
charges before it. -/
theorem Sound.counts_step (hs : s.Sound) (hser : s.Series org periodEnd n)
    (hn : s.Counts org periodEnd n) (h : Steps cal config s e s') (hc : s.KeepsSeries cal e) :
    ∃ n', s.Series org periodEnd n' ∧ s'.Counts org periodEnd n' := by
  cases step_outcome h with
  | routine _ hr =>
    have hr := hr org
    unfold Counts at hn ⊢
    generalize hrow : s.db.subscriptions org = o, s'.db.subscriptions org = o' at hr hn
    cases hr with
    | same => exact ⟨n, hser, hn⟩
    | claim _ | renewFailed _ _ _ | cancel | resume _ | anonymize =>
      refine ⟨n, hser, fun row' hrow' hend => ?_⟩
      cases hrow'; exact (hn _ rfl hend :)
    | expire =>
      refine ⟨n, hser, fun row' hrow' hend => ?_⟩
      cases hrow'
      rw [EndsAt, expire_currentPeriodEnd] at hend
      rw [expire_retryCount]
      exact hn _ rfl hend
    | @refund now r _ row hrefund hlast =>
      by_cases hend : Timestamp.toDate now = periodEnd
      · subst hend
        rcases hc.refund hrefund hrow hlast with hends | hu
        · refine ⟨n, hser, fun row' hrow' _ => ?_⟩
          cases hrow'; exact (hn _ rfl hends :)
        · refine ⟨row.retryCount, hs.series_of_unclaimed hu _, fun row' hrow' _ => ?_⟩
          cases hrow'; rfl
      · refine ⟨n, hser, fun row' hrow' ⟨t, ht, htd⟩ => ?_⟩
        cases hrow'; cases ht
        exact absurd htd hend
  | extended d hd hg hun _ _ hsub =>
    unfold Counts
    rw [hsub, Database.upsertSubscription_apply]
    split
    · next horg =>
      have hgr : s.Grants org e d := ⟨hd, horg.symm, hg, hun⟩
      by_cases hend : (extendedPeriodEnd cal d.now (s.db.periodEnd org)).toDate = periodEnd
      · refine ⟨0, hs.series_of_unclaimed (hend ▸ hc.grants hgr) _, fun row' hrow' _ => ?_⟩
        cases hrow'; exact extend_retryCount ..
      · refine ⟨n, hser, fun row' hrow' ⟨t, ht, htd⟩ => ?_⟩
        cases hrow'
        rw [extend_currentPeriodEnd] at ht
        cases ht; exact absurd htd hend
    · exact ⟨n, hser, hn⟩
  | dunned d hd hcan hk hun _ _ hsub =>
    unfold Counts
    rw [hsub, Database.updateSubscription_apply]
    split
    · next horg =>
      cases hrow : s.db.subscriptions org with
      | none => exact ⟨n, hser, fun _ h => by cases h⟩
      | some row =>
        by_cases hend : EndsAt row periodEnd
        · have hcount := hn row hrow hend
          refine ⟨max n d.localPayment.attemptNumber, ?_, fun row' hrow' _ => ?_⟩
          · by_cases hle : d.localPayment.attemptNumber ≤ n
            · rwa [Nat.max_eq_left hle]
            · have hlt := Nat.lt_of_not_le hle
              rw [Nat.max_eq_right (Nat.le_of_lt hlt)]
              rcases hc.duns ⟨hd, horg.symm, hcan, hk, hun⟩ hrow hend with hi | hle' | hset
              · exact hser.advance (hs.delivery_attempt hser h hd hk hi) hlt hi
                  (hs.delivery_canceled h hd hcan)
              · omega
              · exact hser.of_settled hlt hset
          · cases hrow'; simp only [Subscription.dun, hcount]
        · refine ⟨n, hser, fun row' hrow' hend' => ?_⟩
          cases hrow'; exact absurd hend' hend
    · exact ⟨n, hser, hn⟩

/-- A due renewal carries the period end and the `retry_count` of its subscription. -/
theorem dueRenewal_eq_some {db : Database} (h : db.dueRenewal now org = some item) :
    item.organizationId = org ∧ ∃ row, db.subscriptions org = some row ∧
      EndsAt row item.currentPeriodEnd ∧ row.retryCount = item.retryCount := by
  unfold Database.dueRenewal at h
  split at h
  · next hrow _ =>
    simp only [Option.ite_none_right_eq_some] at h
    obtain ⟨-, h⟩ := h
    cases h
    exact ⟨rfl, _, hrow, ⟨_, rfl, rfl⟩, rfl⟩
  · cases h

/-- The claim leaves both alone. -/
theorem claimRenewal_item (h : Steps cal config s (.claimRenewal now org) s')
    (hdue : s.db.dueRenewal now org = some item) :
    item.organizationId = org ∧ ∃ row, s'.db.subscriptions org = some row ∧
      EndsAt row item.currentPeriodEnd ∧ row.retryCount = item.retryCount := by
  obtain ⟨horg, row, hrow, hends, hcount⟩ := dueRenewal_eq_some hdue
  unfold Steps Transition.Stepping at h
  simp only [step, hdue, Option.map_some, Option.some.injEq] at h
  subst h
  refine ⟨horg, row.claim now, ?_, hends, hcount⟩
  simp [Database.updateSubscription_apply, hrow]

theorem Series.inFlight_step (hser : s.Series org periodEnd n) (hn' : s'.Counts org periodEnd n)
    (h : Steps cal config s e s') {flight : InFlight} (hf : flight ∈ s'.renewals)
    (horg : flight.item.organizationId = org) (hend : flight.item.currentPeriodEnd = periodEnd) :
    flight.item.retryCount ≤ n ∧
      (flight.item.retryCount < n → (s'.issued flight.item.idempotencyKey).isSome) := by
  have hold {flight : InFlight} (hf : flight ∈ s.renewals)
      (horg : flight.item.organizationId = org) (hend : flight.item.currentPeriodEnd = periodEnd) :
      flight.item.retryCount ≤ n ∧
        (flight.item.retryCount < n → (s'.issued flight.item.idempotencyKey).isSome) := by
    obtain ⟨hle, hissued⟩ := hser.inFlight flight hf horg hend
    refine ⟨hle, fun hlt => ?_⟩
    obtain ⟨id, hi⟩ := Option.isSome_iff_exists.mp (hissued hlt)
    rw [issued_mono h hi]; rfl
  cases step_provider h with
  | quiet _ _ _ hr | update _ _ _ _ hr | checkout _ _ _ _ _ _ hr =>
    exact hold (hr ▸ hf) horg hend
  | claim hdue _ _ _ hr =>
    rw [hr] at hf
    rcases List.mem_cons.mp hf with rfl | hf
    · obtain ⟨horg', row, hrow, hends, hcount⟩ := claimRenewal_item h hdue
      have : row.retryCount = n := hn' row (by rw [← horg, ← hrow]; exact congrArg _ horg')
        (hend ▸ hends)
      simp only
      omega
    · exact hold hf horg hend
  | replay hi _ _ _ _ _ hr | charge hi _ _ _ _ _ _ hr =>
    rw [hr] at hf
    rcases List.mem_or_eq_of_mem_set hf with hf | rfl
    · exact hold hf horg hend
    · exact (hold (List.mem_of_getElem? hi) horg hend :)
  | finish _ _ _ hr =>
    rw [hr] at hf
    exact hold (List.mem_of_mem_eraseIdx hf) horg hend

theorem Series.step (hs : s.Sound) (hser : s.Series org periodEnd n)
    (hn' : s'.Counts org periodEnd n) (h : Steps cal config s e s') :
    s'.Series org periodEnd n where
  inFlight flight hf horg hend := hser.inFlight_step hn' h hf horg hend
  recorded id row m hrow hk hkey := by
    rcases (step_grows h).origin hrow with ⟨row₀, hrow₀, hcont⟩ | ⟨-, hnew⟩
    · exact hser.recorded id row₀ m hrow₀ (hcont.kind.symm.trans hk)
        (hcont.idempotencyKey.symm.trans hkey)
    · cases hnew with
      | checkout hinit => rw [hk] at hinit; cases hinit
      | renewal hf _ hkey' _ _ _ =>
        have heq := hkey'.symm.trans hkey
        simp only [Renewal.idempotencyKey, IdempotencyKey.renewal.injEq] at heq
        have := (hser.inFlight _ (List.mem_of_getElem? hf) heq.1 heq.2.1).1
        simp only [Renewal.attempt] at heq this
        omega
  charged k id hc := by
    rcases step_issued h (.renewal org periodEnd k) with heq | ⟨p, hcr⟩
    · have hi := heq ▸ hc.1
      have hkind := kindOf_step h (hs.known hi)
      obtain ⟨hle, hcan⟩ := hser.charged k id ⟨hi, hkind ▸ hc.2⟩
      exact ⟨hle, fun hkn => statusOf_step h (hcan hkn) rfl⟩
    · have hi := hc.1
      rw [hcr.issued] at hi
      cases hi
      rcases hcr.origin with hinit | ⟨flight, hf, hkey⟩
      · exact absurd (hinit.symm.trans hc.2) (by simp)
      · simp only [Renewal.idempotencyKey, IdempotencyKey.renewal.injEq, Renewal.attempt] at hkey
        obtain ⟨horg, hend, hk⟩ := hkey
        obtain ⟨hle, hissued⟩ := hser.inFlight flight hf horg hend
        have hnot : ¬ flight.item.retryCount < n := fun hlt => by
          have := hissued hlt
          rw [Renewal.idempotencyKey, horg, hend, Renewal.attempt, hk, hcr.unused] at this
          cases this
        omega

/-- The invariant of a run: every period has its series. -/
structure Ordered (s : World) : Prop where
  sound : s.Sound
  series : ∀ org periodEnd, ∃ n, s.Series org periodEnd n ∧ s.Counts org periodEnd n

theorem start_ordered (ownerEmail : OrganizationId → Option String) :
    (start ownerEmail).Ordered where
  sound := start_sound ownerEmail
  series org periodEnd := ⟨0, (start_sound ownerEmail).series_of_unclaimed
    ⟨fun _ => rfl, fun _ hf => by cases hf⟩ 0, fun _ hrow => by cases hrow⟩

theorem Ordered.step (ho : s.Ordered) (h : Steps cal config s e s') (hc : s.KeepsSeries cal e) :
    s'.Ordered where
  sound := ho.sound.step h
  series org periodEnd := by
    obtain ⟨n, hser, hn⟩ := ho.series org periodEnd
    obtain ⟨n', hser', hn'⟩ := ho.sound.counts_step hser hn h hc
    exact ⟨n', hser'.step ho.sound hn' h, hn'⟩

/-- Of two charges of one period at most one is not cancelled. -/
theorem Ordered.at_most_one (ho : s.Ordered) (h : s.Charged org periodEnd k id)
    (h' : s.Charged org periodEnd k' id') (hs : s.statusOf id = some .succeeded)
    (hs' : s.statusOf id' = some .succeeded) : id = id' := by
  obtain ⟨n, hser, -⟩ := ho.series org periodEnd
  rcases Nat.lt_trichotomy k k' with hlt | rfl | hlt
  · have := (hser.charged k id h).2 (by have := (hser.charged k' id' h').1; omega)
    rw [hs] at this; cases this
  · exact Option.some.inj (h.1.symm.trans h'.1)
  · have := (hser.charged k' id' h').2 (by have := (hser.charged k id h).1; omega)
    rw [hs'] at this; cases this

theorem KeepsSeries.of_quiet (hd : s.delivery e = none) (hr : e.refund = none) :
    s.KeepsSeries cal e where
  duns h := by cases hd.symm.trans h.delivery
  grants h := by cases hd.symm.trans h.delivery
  refund h := by cases hr.symm.trans h

end World

open Transition World

/-- In every run from the start whose steps keep the series of attempts: for every organization
and every period end, at most one RENEWAL payment charged for it succeeds. -/
theorem renewal_succeeds_once (cal : Calendar) (config : BillingConfig)
    (ownerEmail : OrganizationId → Option String)
    (h : Run (Meeting (Steps cal config) fun s e _ => s.KeepsSeries cal e)
      (.start ownerEmail) es s) :
    ∀ org periodEnd k k' id id', s.Charged org periodEnd k id → s.Charged org periodEnd k' id' →
      s.statusOf id = some .succeeded → s.statusOf id' = some .succeeded → id = id' := by
  have ho : s.Ordered := h.invariant (I := Ordered) (fun _ _ _ hi hst => hi.step hst.1 hst.2)
    (start_ordered ownerEmail)
  exact fun org periodEnd k k' id id' => ho.at_most_one

/-- The renewal of April is charged and pending; it is claimed a second time, and while that
attempt is on its way to an error the user pays a checkout. -/
def errorAfterCheckout : List Event :=
  subscribing ++
    [.claimRenewal renewalDay 1, .renewCall 0 (renewalPayment 11 .pending),
     .renewRecord (renewalDay + minutes 1) 0,
     .checkoutCall 1 (.header 1) (checkoutPayment .pending 12),
     .checkoutStore (renewalDay + minutes 2) 1 (.header 1) (checkoutPayment .pending 12),
     .claimRenewal (renewalDay + minutes 16) 1,
     .providerUpdate (checkoutPayment .succeeded 12),
     .webhook (renewalDay + minutes 16) .succeeded (checkoutPayment .succeeded 12),
     .renewError (renewalDay + minutes 17) 0]

/-- The new period is claimed an hour later. While its first charge is pending, the cancellation
of the renewal of April arrives and counts as an attempt of the new period. -/
def chargedTwice : List Event :=
  [.claimRenewal (renewalDay + minutes 77) 1, .renewCall 0 (renewalPayment 13 .pending),
   .renewRecord (renewalDay + minutes 78) 0,
   .providerUpdate (renewalPayment 11 .canceled),
   .webhook (renewalDay + minutes 80) .canceled (renewalPayment 11 .canceled),
   .claimRenewal (renewalDay + minutes 140) 1, .renewCall 0 (renewalPayment 14 .pending),
   .renewRecord (renewalDay + minutes 141) 0,
   .providerUpdate (renewalPayment 13 .succeeded), .providerUpdate (renewalPayment 14 .succeeded)]

theorem chargedTwice_enabled :
    (exec (step .thirtyDays .default) owned (errorAfterCheckout ++ chargedTwice)).isSome := by
  decide +kernel

/-- Two RENEWAL payments for one period end succeed. -/
theorem two_renewals_succeed :
    ∃ s, Run (Steps .thirtyDays .default) owned (errorAfterCheckout ++ chargedTwice) s ∧
      s.Charged 1 (renewalDay + minutes 16 + hours 720).toDate 1 13 ∧
      s.Charged 1 (renewalDay + minutes 16 + hours 720).toDate 2 14 ∧
      s.statusOf 13 = some .succeeded ∧ s.statusOf 14 = some .succeeded :=
  ⟨_, Run.of_exec_get chargedTwice_enabled, by decide +kernel⟩

theorem subscribing_take_enabled :
    (exec (step .thirtyDays .default) owned (subscribing.take 3)).isSome := by decide +kernel

/-- The first checkout is paid and not yet delivered. -/
def checkedOut : World :=
  (exec (step .thirtyDays .default) owned (subscribing.take 3)).get subscribing_take_enabled

theorem checkedOut_unclaimed (org : OrganizationId) (periodEnd : Date) :
    checkedOut.Unclaimed org periodEnd :=
  ⟨fun _ => rfl, fun _ hf => by cases hf⟩

theorem checkedOut_delivered : (step .thirtyDays .default checkedOut
    (.webhook (april + minutes 1) .succeeded (checkoutPayment .succeeded))).isSome := by
  decide +kernel

/-- The first renewal is charged and paid. -/
def firstRenewal : List Event :=
  [.claimRenewal renewalDay 1, .renewCall 0 (renewalPayment 11 .pending),
   .providerUpdate (renewalPayment 11 .succeeded)]

theorem firstRenewal_enabled : (exec (step .thirtyDays .default)
    ((step .thirtyDays .default checkedOut (.webhook (april + minutes 1) .succeeded
      (checkoutPayment .succeeded))).get checkedOut_delivered) firstRenewal).isSome := by
  decide +kernel

theorem firstRenewal_keepsSeries :
    Run (Meeting (Steps .thirtyDays .default) fun s e _ => s.KeepsSeries .thirtyDays e) owned
      (subscribing.take 3 ++ ([.webhook (april + minutes 1) .succeeded
        (checkoutPayment .succeeded)] ++ firstRenewal))
      ((exec (step .thirtyDays .default) _ firstRenewal).get firstRenewal_enabled) := by
  refine Run.append (t := checkedOut) ?_ (Run.append (.single ⟨(Option.some_get
    checkedOut_delivered).symm, ?_⟩) ?_)
  · refine (Run.of_exec_get subscribing_take_enabled).meeting fun s e _ he _ => ?_
    simp only [subscribing, List.take, List.mem_cons, List.not_mem_nil, or_false] at he
    rcases he with rfl | rfl | rfl <;> exact .of_quiet rfl rfl
  · refine ⟨fun hd _ _ => ?_, fun _ => checkedOut_unclaimed _ _, fun hr => by cases hr⟩
    have := hd.canceled
    rw [(delivery_webhook hd.delivery).2] at this
    cases this
  · refine (Run.of_exec_get firstRenewal_enabled).meeting fun s e _ he _ => ?_
    simp only [firstRenewal, List.mem_cons, List.not_mem_nil, or_false] at he
    rcases he with rfl | rfl | rfl <;> exact .of_quiet rfl rfl

theorem renewal_succeeds_once_first :
    let s := (exec (step .thirtyDays .default) _ firstRenewal).get firstRenewal_enabled
    s.Charged 1 (april + minutes 1 + hours 720).toDate 1 11 ∧ s.statusOf 11 = some .succeeded ∧
      ∀ k id, s.Charged 1 (april + minutes 1 + hours 720).toDate k id →
        s.statusOf id = some .succeeded → id = 11 :=
  have hcharged : ((exec (step .thirtyDays .default) _ firstRenewal).get
      firstRenewal_enabled).Charged 1 (april + minutes 1 + hours 720).toDate 1 11 := by
    decide +kernel
  have hstatus : ((exec (step .thirtyDays .default) _ firstRenewal).get
      firstRenewal_enabled).statusOf 11 = some .succeeded := by decide +kernel
  ⟨hcharged, hstatus, fun k id hc hs => renewal_succeeds_once .thirtyDays .default _
    firstRenewal_keepsSeries 1 _ k 1 id 11 hc hcharged hs hstatus⟩

end Tonatiuh.Billing
