import Mathlib
import Tonatiuh.Billing.Refunds

/-! At most one refund of a payment.

A cancelled refund makes room for a new reservation, so the invariant lives on the statuses that are
written later: it is kept exactly as long as no statement writes another status over a cancelled
row of a payment that has an active refund. The provider never revives a refund, but the snapshot
that is stored was fetched at some earlier moment. -/

namespace Tonatiuh.Billing

/-- `status IN ('requested','pending','succeeded')`. -/
def RefundStatus.isActive : RefundStatus → Bool
  | .canceled => false
  | .requested | .pending | .succeeded => true

/-- The rows of a payment that reserve or have made its refund. -/
def Database.activeRefunds (db : Database) (id : PaymentId) : List BillingRefund :=
  db.refunds.filter fun row => row.providerPaymentId = id && row.status.isActive

/-- The rows of a payment whose refund succeeded. -/
def Database.madeRefunds (db : Database) (id : PaymentId) : List BillingRefund :=
  db.refunds.filter fun row => row.providerPaymentId = id && row.status = .succeeded

/-- A payment has at most one active refund, and its refunds made do not exceed it. -/
structure SingleRefund (db : Database) : Prop where
  active : ∀ id, (db.activeRefunds id).length ≤ 1
  amount : ∀ id payment, db.payments id = some payment →
    ((db.madeRefunds id).map (·.amountKopecks)).sum ≤ payment.amountKopecks

/-! ## Lists of refunds -/

/-- No two refunds of a payment are active. -/
def Exclusive (a b : BillingRefund) : Prop :=
  a.status.isActive → b.status.isActive → a.providerPaymentId ≠ b.providerPaymentId

theorem filter_length_le_one_iff {α : Type} {q : α → Bool} {l : List α} :
    (l.filter q).length ≤ 1 ↔ l.Pairwise fun a b => ¬(q a ∧ q b) := by
  induction l with
  | nil => simp
  | cons a l ih =>
    rw [List.pairwise_cons, ← ih]
    cases hq : q a with
    | false => simp [hq]
    | true =>
      simp only [List.filter_cons_of_pos hq, List.length_cons, true_and]
      constructor
      · intro hlen
        have hnil : l.filter q = [] := List.eq_nil_of_length_eq_zero (by omega)
        refine ⟨fun b hb hqb => ?_, by simp [hnil]⟩
        exact List.not_mem_nil (hnil ▸ List.mem_filter.mpr ⟨hb, hqb⟩)
      · intro ⟨hnone, _⟩
        have hnil : l.filter q = [] := List.filter_eq_nil_iff.mpr hnone
        simp [hnil]

/-- At most one active refund of each payment, as a relation between the rows. -/
theorem active_le_one_iff {db : Database} :
    (∀ id, (db.activeRefunds id).length ≤ 1) ↔ db.refunds.Pairwise Exclusive := by
  constructor
  · intro h
    have hpair : ∀ id, db.refunds.Pairwise fun a b =>
        ¬((a.providerPaymentId = id && a.status.isActive) = true ∧
          (b.providerPaymentId = id && b.status.isActive) = true) :=
      fun id => filter_length_le_one_iff.mp (h id)
    clear h
    generalize db.refunds = rows at hpair ⊢
    induction rows with
    | nil => exact .nil
    | cons a rows ih =>
      refine .cons (fun b hb ha hbact heq => ?_) (ih fun id => (List.pairwise_cons.mp (hpair id)).2)
      exact (List.pairwise_cons.mp (hpair a.providerPaymentId)).1 b hb
        ⟨by simpa using ha, by simp [heq, hbact]⟩
  · intro h id
    refine filter_length_le_one_iff.mpr (h.imp fun hex hboth => ?_)
    simp only [Bool.and_eq_true, decide_eq_true_eq] at hboth
    exact hex hboth.1.2 hboth.2.2 (hboth.1.1.trans hboth.2.1.symm)

/-- An update that writes a status into the rows of a set, and keeps what identifies a row. -/
structure WritesStatus (p : BillingRefund → Bool) (status : RefundStatus)
    (g : BillingRefund → BillingRefund) : Prop where
  organizationId : ∀ row, (g row).organizationId = row.organizationId
  paymentId : ∀ row, (g row).providerPaymentId = row.providerPaymentId
  key : ∀ row, (g row).idempotencyKey = row.idempotencyKey
  amount : ∀ row, (g row).amountKopecks = row.amountKopecks
  status : ∀ row, (g row).status = if p row then status else row.status

/-- Some row of the set is cancelled and gets another status, while another refund of its payment
is active. -/
def RevivesIn (p : BillingRefund → Bool) (status : RefundStatus) (rows : List BillingRefund) :
    Prop :=
  status.isActive ∧ ∃ a ∈ rows, p a ∧ a.status = .canceled ∧
    ∃ b ∈ rows, b.providerPaymentId = a.providerPaymentId ∧ b.status.isActive

theorem exclusive_map_iff {p : BillingRefund → Bool} {status : RefundStatus}
    {g : BillingRefund → BillingRefund} {rows : List BillingRefund} (hg : WritesStatus p status g)
    (hone : rows.Pairwise fun a b => ¬(p a ∧ p b)) (hex : rows.Pairwise Exclusive) :
    (rows.map g).Pairwise Exclusive ↔ ¬RevivesIn p status rows := by
  rw [List.pairwise_map]
  constructor
  · rintro hmap ⟨hactive, a, ha, hpa, hcanceled, b, hb, hsame, hbact⟩
    have hne : a ≠ b := by
      rintro rfl
      rw [hcanceled] at hbact
      cases hbact
    have _ : Std.Symm fun a b => Exclusive (g a) (g b) :=
      ⟨fun _ _ h hb ha heq => h ha hb heq.symm⟩
    refine hmap.forall ha hb hne ?_ ?_ ?_
    · rw [hg.status, if_pos hpa]; exact hactive
    · rw [hg.status]
      split
      · exact hactive
      · exact hbact
    · rw [hg.paymentId, hg.paymentId, hsame]
  · intro hno
    -- a row of the set that becomes active was active before, unless it is alone
    have hold {a b : BillingRefund} (ha : a ∈ rows) (hb : b ∈ rows) (hpb : ¬(p a ∧ p b))
        (hga : (g a).status.isActive) (hgb : (g b).status.isActive)
        (hsame : a.providerPaymentId = b.providerPaymentId) : a.status.isActive := by
      rw [hg.status] at hga
      split at hga
      · next hpa =>
        rw [hg.status, if_neg fun h => hpb ⟨hpa, h⟩] at hgb
        by_contra hinactive
        have hcanceled : a.status = .canceled := by
          cases hs : a.status <;> simp [hs, RefundStatus.isActive] at hinactive ⊢
        exact hno ⟨hga, a, ha, hpa, hcanceled, b, hb, hsame.symm, hgb⟩
      · exact hga
    refine List.Pairwise.imp_of_mem ?_ (hone.and hex)
    intro a b ha hb hab hga hgb hsame
    rw [hg.paymentId, hg.paymentId] at hsame
    exact hab.2 (hold ha hb hab.1 hga hgb hsame)
      (hold hb ha (fun h => hab.1 ⟨h.2, h.1⟩) hgb hga hsame.symm) hsame

theorem sum_le_of_length_le_one {l : List Nat} {n : Nat} (hlen : l.length ≤ 1)
    (hle : ∀ x ∈ l, x ≤ n) : l.sum ≤ n := by
  match l, hlen with
  | [], _ => exact Nat.zero_le n
  | [x], _ => simpa using hle x (by simp)

/-! ## What a step writes -/

/-- The checks of the refund webhook. -/
def Database.verifiesRefund (db : Database) (refund : YooRefund) : Bool :=
  match db.refunds.find? (·.providerRefundId = some refund.id) with
  | none => false
  | some row => refund.status = .succeeded && refund.paymentId = row.providerPaymentId &&
      refund.amount.currency = row.currency &&
      kopecks refund.amount.value = some row.amountKopecks

/-- The marker of `applyRefundLifecycle` is the only column of a refund that it writes. -/
theorem applyRefundLifecycle_refunds (now : Timestamp) (refund : YooRefund) (db : Database) :
    ∃ g : BillingRefund → BillingRefund,
      (∀ row, g row = { row with lifecycleAppliedAt := (g row).lifecycleAppliedAt }) ∧
        (applyRefundLifecycle now refund db).refunds = db.refunds.map g := by
  unfold applyRefundLifecycle
  split
  · exact ⟨fun row => row, fun _ => rfl, (List.map_id' _).symm⟩
  split
  · refine ⟨fun row => if row.providerRefundId = some refund.id && row.lifecycleAppliedAt.isNone
      then { row with lifecycleAppliedAt := some now } else row, fun row => ?_, rfl⟩
    dsimp only
    split <;> rfl
  · exact ⟨fun row => row, fun _ => rfl, (List.map_id' _).symm⟩

/-- An update of the rows of a set and the marker after it. -/
theorem WritesStatus.of_update {p : BillingRefund → Bool} {status : RefundStatus}
    {f g : BillingRefund → BillingRefund}
    (hf : ∀ row, ((f row).organizationId, (f row).providerPaymentId, (f row).idempotencyKey,
      (f row).amountKopecks) = (row.organizationId, row.providerPaymentId, row.idempotencyKey,
        row.amountKopecks))
    (hstatus : ∀ row, (f row).status = status)
    (hg : ∀ row, g row = { row with lifecycleAppliedAt := (g row).lifecycleAppliedAt }) :
    WritesStatus p status (g ∘ fun row => if p row then f row else row) := by
  have hfields := fun row => by simpa only [Prod.mk.injEq] using hf row
  refine ⟨fun row => ?_, fun row => ?_, fun row => ?_, fun row => ?_, fun row => ?_⟩ <;>
    simp only [Function.comp_apply] <;> rw [hg] <;> dsimp only <;> split
  · exact (hfields row).1
  · rfl
  · exact (hfields row).2.1
  · rfl
  · exact (hfields row).2.2.1
  · rfl
  · exact (hfields row).2.2.2
  · rfl
  · exact hstatus row
  · rfl

namespace RefundWorld

/-- The rows an event writes the status of a provider refund into, and that status. -/
def written (s : RefundWorld) : RefundEvent → Option ((BillingRefund → Bool) × RefundStatus)
  | .store _ index =>
    match s.calls[index]? with
    | some { organizationId, key, response := some refund, .. } =>
      if s.world.db.refunds.any fun row => row.providerRefundId = some refund.id &&
          !(row.organizationId = organizationId && row.idempotencyKey = key) then none
      else
        some (fun row => row.organizationId = organizationId && row.idempotencyKey = key,
          refund.status)
    | _ => none
  | .webhook _ refund =>
    if s.world.db.verifiesRefund refund ∧ .refund refund.id ∉ s.world.db.events then
      some (fun row => row.providerRefundId = some refund.id, refund.status)
    else none
  | .reconcile _ refund => some (fun row => row.providerRefundId = some refund.id, refund.status)
  | _ => none

/-- The event writes an active status over a cancelled row, while another refund of the payment is
active. -/
def Revives (s : RefundWorld) (e : RefundEvent) : Prop :=
  ∃ p status, s.written e = some (p, status) ∧ RevivesIn p status s.world.db.refunds

/-- Refunds are found by one row: of an idempotency key, and of a provider id. -/
structure Unique (rows : List BillingRefund) : Prop where
  keys : rows.Pairwise fun a b =>
    ¬(a.organizationId = b.organizationId ∧ a.idempotencyKey = b.idempotencyKey)
  ids : rows.Pairwise fun a b => ∀ id, a.providerRefundId = some id → b.providerRefundId ≠ some id

/-- What a step does to the refunds. -/
inductive RefundStep (s : RefundWorld) (e : RefundEvent) (s' : RefundWorld) : Prop where
  | kept : s.written e = none → KeepsAmounts s.world.db s'.world.db → RefundStep s e s'
  | touched (g : BillingRefund → BillingRefund) : s.written e = none →
    WritesStatus (fun _ => false) .requested g →
    (∀ row, (g row).providerRefundId = row.providerRefundId) →
    s'.world.db.refunds = s.world.db.refunds.map g →
    s'.world.db.payments = s.world.db.payments → RefundStep s e s'
  | reserved (row : BillingRefund) (payment : BillingPayment) : s.written e = none →
    s'.world.db.refunds = row :: s.world.db.refunds →
    s'.world.db.payments = s.world.db.payments →
    s.world.db.payments row.providerPaymentId = some payment →
    row.amountKopecks = payment.amountKopecks → row.providerRefundId = none →
    (∀ r ∈ s.world.db.refunds, r.providerPaymentId = row.providerPaymentId →
      r.status = .canceled) →
    (∀ r ∈ s.world.db.refunds,
      ¬(row.organizationId = r.organizationId ∧ row.idempotencyKey = r.idempotencyKey)) →
    RefundStep s e s'
  | written (p : BillingRefund → Bool) (status : RefundStatus) (g : BillingRefund → BillingRefund)
    (id : RefundId) : s.written e = some (p, status) → WritesStatus p status g →
    (∀ row, (g row).providerRefundId = if p row then some id else row.providerRefundId) →
    (∀ row ∈ s.world.db.refunds, row.providerRefundId = some id → p row) →
    (Unique s.world.db.refunds → s.world.db.refunds.Pairwise fun a b => ¬(p a ∧ p b)) →
    s'.world.db.refunds = s.world.db.refunds.map g →
    s'.world.db.payments = s.world.db.payments → RefundStep s e s'

variable {cal : Calendar} {config : BillingConfig} {s s' : RefundWorld} {e : RefundEvent}

/-- A status update of the rows of a provider refund. -/
theorem RefundStep.of_provider {refund : YooRefund} {now : Timestamp} {db : Database}
    {f : BillingRefund → BillingRefund}
    (hw : s.written e =
      some (fun row => decide (row.providerRefundId = some refund.id), refund.status))
    (hdb : s'.world.db = applyRefundLifecycle now refund
      (db.updateRefunds (·.providerRefundId = some refund.id) f))
    (hrefunds : db.refunds = s.world.db.refunds) (hpay : db.payments = s.world.db.payments)
    (hf : ∀ row, ((f row).organizationId, (f row).providerPaymentId, (f row).idempotencyKey,
      (f row).amountKopecks) = (row.organizationId, row.providerPaymentId, row.idempotencyKey,
        row.amountKopecks))
    (hid : ∀ row, (f row).providerRefundId = row.providerRefundId)
    (hstatus : ∀ row, (f row).status = refund.status) : RefundStep s e s' := by
  obtain ⟨g, hg, hmap⟩ := applyRefundLifecycle_refunds now refund
    (db.updateRefunds (·.providerRefundId = some refund.id) f)
  refine .written _ _ (g ∘ fun row =>
    if (decide (row.providerRefundId = some refund.id)) = true then f row else row) refund.id hw
    (.of_update hf hstatus hg) (fun row => ?_) (fun row _ hrow => by simpa using hrow)
    (fun hu => ?_) ?_ ?_
  · simp only [Function.comp_apply]
    rw [hg]
    dsimp only
    split
    · next hp => rw [hid]; simpa using hp
    · rfl
  · refine hu.ids.imp fun hids hboth => ?_
    simp only [decide_eq_true_eq] at hboth
    exact hids _ hboth.1 hboth.2
  · rw [hdb, hmap, Database.updateRefunds, List.map_map, hrefunds]
  · rw [hdb, applyRefundLifecycle_payments, Database.updateRefunds_payments, hpay]

/-- The status update of a stored answer. -/
theorem RefundStep.of_store {index : Nat} {org : OrganizationId} {paymentId : PaymentId}
    {key : Nat} {refund : YooRefund} {now : Timestamp} {f : BillingRefund → BillingRefund}
    (hi : s.calls[index]? = some ⟨org, paymentId, key, some refund⟩)
    (hfree : (s.world.db.refunds.any fun row => row.providerRefundId = some refund.id &&
      !(row.organizationId = org && row.idempotencyKey = key)) = false)
    (hdb : s'.world.db = applyRefundLifecycle now refund (s.world.db.updateRefunds
      (fun row => row.organizationId = org && row.idempotencyKey = key) f))
    (hf : ∀ row, ((f row).organizationId, (f row).providerPaymentId, (f row).idempotencyKey,
      (f row).amountKopecks) = (row.organizationId, row.providerPaymentId, row.idempotencyKey,
        row.amountKopecks))
    (hid : ∀ row, (f row).providerRefundId = some refund.id)
    (hstatus : ∀ row, (f row).status = refund.status) : RefundStep s (.store now index) s' := by
  have hw : s.written (.store now index) = some (fun row =>
      row.organizationId = org && row.idempotencyKey = key, refund.status) := by
    simp only [RefundWorld.written, hi]
    rw [hfree]
    rfl
  obtain ⟨g, hg, hmap⟩ := applyRefundLifecycle_refunds now refund (s.world.db.updateRefunds
    (fun row => row.organizationId = org && row.idempotencyKey = key) f)
  refine .written _ _ _ refund.id hw (.of_update hf hstatus hg) (fun row => ?_)
    (fun row hrow hid => ?_) (fun hu => ?_) ?_ ?_
  · simp only [Function.comp_apply]
    rw [hg]
    dsimp only
    split
    · exact hid row
    · rfl
  · have hall : ∀ row ∈ s.world.db.refunds, row.providerRefundId = some refund.id →
        row.organizationId = org ∧ row.idempotencyKey = key := by
      simpa using hfree
    simpa using hall row hrow hid
  · refine hu.keys.imp fun hkeys hboth => ?_
    simp only [Bool.and_eq_true, decide_eq_true_eq] at hboth
    exact hkeys ⟨hboth.1.1.trans hboth.2.1.symm, hboth.1.2.trans hboth.2.2.symm⟩
  · rw [hdb, hmap, Database.updateRefunds, List.map_map]
  · rw [hdb, applyRefundLifecycle_payments, Database.updateRefunds_payments]

/-- The webhook rejects a refund, has seen it, or stores it. -/
theorem refundWebhook_cases (now : Timestamp) (refund : YooRefund) (db : Database) :
    (db.verifiesRefund refund = false ∧ ∃ code, refundWebhook now refund db = .error code) ∨
      (.refund refund.id ∈ db.events ∧ refundWebhook now refund db = .ok db) ∨
      (db.verifiesRefund refund ∧ .refund refund.id ∉ db.events ∧
        refundWebhook now refund db = .ok (applyRefundLifecycle now refund
          ({ db with events := .refund refund.id :: db.events }.updateRefunds
            (·.providerRefundId = some refund.id) ({ · with
              status := refund.status, reconcileAfter := none,
                lastReconciledAt := some now })))) := by
  cases hrow : db.refunds.find? (·.providerRefundId = some refund.id) with
  | none =>
    exact .inl ⟨by simp [Database.verifiesRefund, hrow], "REFUND_NOT_FOUND", by
      simp only [refundWebhook, hrow]⟩
  | some row =>
  have hverify : db.verifiesRefund refund = (refund.status = .succeeded &&
      refund.paymentId = row.providerPaymentId && refund.amount.currency = row.currency &&
      kopecks refund.amount.value = some row.amountKopecks) := by
    simp only [Database.verifiesRefund, hrow]
  simp only [refundWebhook, hrow]
  split
  · next hmismatch =>
    refine .inl ⟨?_, _, rfl⟩
    rw [hverify]
    rcases hmismatch with h | h | h <;> simp [h]
  next hmatch =>
  simp only [ne_eq, not_or, Decidable.not_not] at hmatch
  split
  · next hnone => exact .inl ⟨by simp [hverify, hnone], _, rfl⟩
  next value hvalue =>
  split
  · next hne => exact .inl ⟨by simp [hverify, hvalue, hne], _, rfl⟩
  next heq =>
  rw [ne_eq, Decidable.not_not] at heq
  split
  · next hseen => exact .inr (.inl ⟨hseen, rfl⟩)
  · next hnew => exact .inr (.inr ⟨by simp [hverify, hmatch, hvalue, heq], hnew, rfl⟩)

/-- Updates of other columns keep what identifies a row. -/
theorem RefundStep.of_touched {p : BillingRefund → Bool} {f : BillingRefund → BillingRefund}
    (hw : s.written e = none) (hdb : s'.world.db = s.world.db.updateRefunds p f)
    (hf : ∀ row, ((f row).organizationId, (f row).providerPaymentId, (f row).idempotencyKey,
      (f row).amountKopecks, (f row).status, (f row).providerRefundId) =
        (row.organizationId, row.providerPaymentId, row.idempotencyKey, row.amountKopecks,
          row.status, row.providerRefundId)) : RefundStep s e s' := by
  have hfields := fun row => by simpa only [Prod.mk.injEq] using hf row
  refine .touched (fun row => if p row then f row else row) hw ⟨fun row => ?_, fun row => ?_,
    fun row => ?_, fun row => ?_, fun row => ?_⟩ (fun row => ?_) (by rw [hdb]; rfl)
      (by rw [hdb]; rfl)
  · split
    · exact (hfields row).1
    · rfl
  · split
    · exact (hfields row).2.1
    · rfl
  · split
    · exact (hfields row).2.2.1
    · rfl
  · split
    · exact (hfields row).2.2.2.1
    · rfl
  · split
    · exact (hfields row).2.2.2.2.1
    · rfl
  · split
    · exact (hfields row).2.2.2.2.2
    · rfl

theorem step_refunds (h : Steps cal config s e s') : RefundStep s e s' := by
  unfold Steps Transition.Stepping at h
  cases e with
  | billing event =>
    simp only [step] at h
    split at h
    · cases h
    · next he =>
      obtain ⟨world, hw, rfl⟩ := Option.map_eq_some_iff.mp h
      exact .kept rfl (.step hw (by simpa using he))
  | providerRefund refund =>
    simp only [step, Option.ite_none_right_eq_some] at h
    obtain ⟨-, h⟩ := h
    cases h; exact .kept rfl (.refl _)
  | reserve id key =>
    simp only [step] at h
    split at h
    · next db payment hreserve hpayment =>
      cases h
      unfold reserveRefund at hreserve
      rw [hpayment] at hreserve
      dsimp only at hreserve
      split at hreserve
      · cases hreserve
      split at hreserve
      · split at hreserve <;> cases hreserve
        exact .kept rfl (.refl _)
      · next hnone =>
        split at hreserve
        · cases hreserve
        · next hfree =>
          cases hreserve
          refine .reserved _ payment rfl rfl rfl hpayment rfl rfl (fun r hr hsame => ?_)
            fun r hr hkeys => ?_
          · by_contra hactive
            exact hfree (List.any_eq_true.mpr ⟨r, hr, by simp [hsame, hactive]⟩)
          · have := List.find?_eq_none.mp hnone r hr
            simp [← hkeys.1, ← hkeys.2] at this
    · cases h; exact .kept rfl (.refl _)
  | call index refund =>
    simp only [step] at h
    split at h
    · split at h
      · simp only [Option.ite_none_right_eq_some] at h
        obtain ⟨-, h⟩ := h
        cases h; exact .kept rfl (.refl _)
      · simp only [Option.ite_none_right_eq_some] at h
        obtain ⟨-, h⟩ := h
        cases h; exact .kept rfl (.refl _)
    · cases h
  | store now index =>
    simp only [step] at h
    split at h
    · next org paymentId key refund hi =>
      cases hr : storeRefund config now org key refund s.world.db with
      | error code =>
        rw [hr] at h
        cases h
        refine .kept ?_ (.refl _)
        unfold storeRefund at hr
        split at hr
        · next hconflict => simp only [written, hi]; rw [if_pos hconflict]
        · cases hr
      | ok db =>
        rw [hr] at h
        cases h
        unfold storeRefund at hr
        split at hr
        · cases hr
        · next hfree =>
          cases hr
          exact .of_store (f := ({ · with
            providerRefundId := some refund.id, status := refund.status
            reconcileAfter :=
              if refund.status = .pending then some (now + minutes config.reconciliationMinutes)
              else none })) hi (by simpa using hfree) rfl (fun _ => rfl) (fun _ => rfl) fun _ => rfl
    · cases h
  | abort index => cases h; exact .kept rfl (.refl _)
  | webhook now refund =>
    simp only [step, Option.ite_none_right_eq_some] at h
    obtain ⟨-, h⟩ := h
    rcases refundWebhook_cases now refund s.world.db with ⟨hv, code, hr⟩ | ⟨hseen, hr⟩ |
      ⟨hv, hnew, hr⟩
    · rw [hr] at h
      cases h
      exact .kept (by simp [written, hv]) (.refl _)
    · rw [hr] at h
      cases h
      exact .kept (by simp [written, hseen]) (.refl _)
    · rw [hr] at h
      cases h
      have hwritten : s.written (.webhook now refund) =
          some (fun row => decide (row.providerRefundId = some refund.id), refund.status) := by
        simp [written, hv, hnew]
      have hdb : (s.commit _).world.db = applyRefundLifecycle now refund
          ({ s.world.db with events := .refund refund.id :: s.world.db.events }.updateRefunds
            (·.providerRefundId = some refund.id) ({ · with
              status := refund.status, reconcileAfter := none, lastReconciledAt := some now })) :=
        rfl
      exact .of_provider hwritten hdb rfl rfl (fun _ => rfl) (fun _ => rfl) fun _ => rfl
  | claimReconciliation now id =>
    simp only [step, Option.ite_none_right_eq_some] at h
    obtain ⟨-, h⟩ := h
    cases h; exact .of_touched rfl rfl fun _ => rfl
  | reconcile now refund =>
    simp only [step, Option.ite_none_right_eq_some] at h
    obtain ⟨-, h⟩ := h
    cases h
    have hdb : (s.commit (reconcileRefund config now refund s.world.db)).world.db =
        applyRefundLifecycle now refund (s.world.db.updateRefunds
          (·.providerRefundId = some refund.id) fun row => { row with
            status := refund.status, lastReconciledAt := some now
            reconciliationAttempts := row.reconciliationAttempts + 1
            reconcileAfter :=
              if refund.status = .pending then some (now + minutes config.reconciliationMinutes)
              else none }) := rfl
    exact .of_provider rfl hdb rfl rfl (fun _ => rfl) (fun _ => rfl) fun _ => rfl
  | reconcileError now id => cases h; exact .of_touched rfl rfl fun _ => rfl

/-! ## Runs -/

/-- The refunds are found by one row, and have the amount of their payments. -/
structure Kept (s : RefundWorld) : Prop where
  unique : Unique s.world.db.refunds
  amount : ∀ row ∈ s.world.db.refunds, ∃ payment,
    s.world.db.payments row.providerPaymentId = some payment ∧
      row.amountKopecks = payment.amountKopecks

theorem start_kept (ownerEmail : OrganizationId → Option String) : (start ownerEmail).Kept where
  unique := ⟨.nil, .nil⟩
  amount row h := by cases h

theorem Unique.map {p : BillingRefund → Bool} {status : RefundStatus}
    {g : BillingRefund → BillingRefund} {rows : List BillingRefund} (hu : Unique rows)
    (hg : WritesStatus p status g)
    (hids : (rows.map g).Pairwise fun a b =>
      ∀ id, a.providerRefundId = some id → b.providerRefundId ≠ some id) :
    Unique (rows.map g) where
  keys := by
    rw [List.pairwise_map]
    refine hu.keys.imp fun hkeys hboth => ?_
    rw [hg.organizationId, hg.organizationId, hg.key, hg.key] at hboth
    exact hkeys hboth
  ids := hids

theorem Kept.map {p : BillingRefund → Bool} {status : RefundStatus}
    {g : BillingRefund → BillingRefund} (hk : s.Kept) (hg : WritesStatus p status g)
    (hids : (s.world.db.refunds.map g).Pairwise fun a b =>
      ∀ id, a.providerRefundId = some id → b.providerRefundId ≠ some id)
    (hrefunds : s'.world.db.refunds = s.world.db.refunds.map g)
    (hpay : s'.world.db.payments = s.world.db.payments) : s'.Kept where
  unique := hrefunds ▸ hk.unique.map hg hids
  amount row hrow := by
    rw [hrefunds] at hrow
    obtain ⟨row₀, hrow₀, rfl⟩ := List.mem_map.mp hrow
    obtain ⟨payment, hpayment, ha⟩ := hk.amount row₀ hrow₀
    exact ⟨payment, by rw [hpay, hg.paymentId, hpayment], by rw [hg.amount, ha]⟩

theorem Kept.step (hk : s.Kept) (h : Steps cal config s e s') : s'.Kept := by
  cases step_refunds h with
  | kept _ hkeep =>
    refine ⟨hkeep.refunds ▸ hk.unique, fun row hrow => ?_⟩
    obtain ⟨payment, hpayment, ha⟩ := hk.amount row (hkeep.refunds ▸ hrow)
    obtain ⟨payment', hpayment', ha'⟩ := hkeep.payments _ payment hpayment
    exact ⟨payment', hpayment', ha.trans ha'.symm⟩
  | touched g _ hg hid hrefunds hpay =>
    refine hk.map hg ?_ hrefunds hpay
    rw [List.pairwise_map]
    exact hk.unique.ids.imp fun hids => by rw [hid, hid]; exact hids
  | reserved row payment _ hrefunds hpay hpayment hamount hid hfree hkeys =>
    refine ⟨hrefunds ▸ ⟨.cons hkeys hk.unique.keys, .cons (fun r _ id h => ?_) hk.unique.ids⟩,
      fun r hr => ?_⟩
    · rw [hid] at h; cases h
    · rw [hpay]
      rcases List.mem_cons.mp (hrefunds ▸ hr) with rfl | hr
      · exact ⟨payment, hpayment, hamount⟩
      · exact hk.amount r hr
  | written p status g id _ hg hid hfree hone hrefunds hpay =>
    refine hk.map hg ?_ hrefunds hpay
    rw [List.pairwise_map]
    refine List.Pairwise.imp_of_mem ?_ ((hone hk.unique).and hk.unique.ids)
    intro a b ha hb hab id' hia hib
    rw [hid] at hia hib
    split at hia
    · next hpa =>
      cases hia
      split at hib
      · next hpb => exact hab.1 ⟨hpa, hpb⟩
      · next hpb => exact hpb (hfree b hb hib)
    · next hpa =>
      split at hib
      · cases hib
        exact hpa (hfree a ha hia)
      · exact hab.2 id' hia hib

/-- A payment with at most one active refund has not been refunded beyond its amount. -/
theorem Kept.singleRefund (hk : s.Kept) (hex : s.world.db.refunds.Pairwise Exclusive) :
    SingleRefund s.world.db where
  active := active_le_one_iff.mpr hex
  amount id payment hpayment := by
    have hactive := active_le_one_iff.mpr hex id
    have hsub : (s.world.db.madeRefunds id).length ≤ (s.world.db.activeRefunds id).length := by
      rw [Database.madeRefunds, Database.activeRefunds, ← List.countP_eq_length_filter,
        ← List.countP_eq_length_filter]
      refine List.countP_mono_left fun row _ hrow => ?_
      simp only [Bool.and_eq_true, decide_eq_true_eq] at hrow ⊢
      exact ⟨hrow.1, by rw [hrow.2]; rfl⟩
    refine sum_le_of_length_le_one (by rw [List.length_map]; omega) fun x hx => ?_
    obtain ⟨row, hrow, rfl⟩ := List.mem_map.mp hx
    obtain ⟨hmem, hcols⟩ := List.mem_filter.mp hrow
    simp only [Bool.and_eq_true, decide_eq_true_eq] at hcols
    obtain ⟨payment', hpayment', ha⟩ := hk.amount row hmem
    rw [hcols.1, hpayment] at hpayment'
    cases hpayment'
    exact Nat.le_of_eq ha

theorem Kept.singleRefund_iff (hk : s.Kept) (hs : SingleRefund s.world.db)
    (h : Steps cal config s e s') : SingleRefund s'.world.db ↔ ¬s.Revives e := by
  have hex := active_le_one_iff.mp hs.active
  have hiff : SingleRefund s'.world.db ↔ s'.world.db.refunds.Pairwise Exclusive :=
    ⟨fun h' => active_le_one_iff.mp h'.active, (hk.step h).singleRefund⟩
  rw [hiff]
  have hnone (hw : s.written e = none) : ¬s.Revives e := by
    rintro ⟨p, status, hw', -⟩
    rw [hw] at hw'
    cases hw'
  cases step_refunds h with
  | kept hw hkeep => rw [hkeep.refunds]; exact iff_of_true hex (hnone hw)
  | touched g hw hg _ hrefunds _ =>
    rw [hrefunds]
    refine iff_of_true ((exclusive_map_iff hg ?_ hex).mpr ?_) (hnone hw)
    · exact List.pairwise_of_forall fun _ _ h => Bool.false_ne_true h.1
    · rintro ⟨-, a, -, hp, -⟩
      cases hp
  | reserved row payment hw hrefunds _ _ _ _ hfree _ =>
    rw [hrefunds]
    refine iff_of_true (.cons (fun r hr _ hactive hsame => ?_) hex) (hnone hw)
    rw [hfree r hr hsame.symm] at hactive
    cases hactive
  | written p status g id hw hg _ _ hone hrefunds _ =>
    rw [hrefunds, exclusive_map_iff hg (hone hk.unique) hex]
    refine not_congr ⟨fun hr => ⟨p, status, hw, hr⟩, ?_⟩
    rintro ⟨p', status', hw', hr⟩
    rw [hw] at hw'
    cases hw'
    exact hr

/-- Every payment has at most one active refund, and is not refunded beyond its amount, in every
state of a run exactly when no step of the run writes an active status over a cancelled refund of a
payment that has another active one. -/
theorem single_refund_iff (cal : Calendar) (config : BillingConfig)
    (ownerEmail : OrganizationId → Option String) (es : List RefundEvent) (s : RefundWorld) :
    Transition.Run (Transition.Meeting (Steps cal config) fun _ _ s' => SingleRefund s'.world.db)
        (start ownerEmail) es s ↔
      Transition.Run (Transition.Meeting (Steps cal config) fun s e _ => ¬s.Revives e)
        (start ownerEmail) es s := by
  have hstart : (start ownerEmail).Kept ∧ SingleRefund (start ownerEmail).world.db :=
    ⟨start_kept ownerEmail, (start_kept ownerEmail).singleRefund .nil⟩
  constructor
  · refine fun h => h.mono_invariant (I := fun s => s.Kept ∧ SingleRefund s.world.db)
      (fun s e s' hi hstep => ?_) hstart
    exact ⟨⟨hstep.1, (hi.1.singleRefund_iff hi.2 hstep.1).mp hstep.2⟩, hi.1.step hstep.1, hstep.2⟩
  · refine fun h => h.mono_invariant (I := fun s => s.Kept ∧ SingleRefund s.world.db)
      (fun s e s' hi hstep => ?_) hstart
    have hs' := (hi.1.singleRefund_iff hi.2 hstep.1).mpr hstep.2
    exact ⟨⟨hstep.1, hs'⟩, hi.1.step hstep.1, hs'⟩

/-- The refund of the sample checkout. -/
def checkoutRefund (status : RefundStatus) : YooRefund where
  id := 7
  paymentId := 10
  status := status
  amount := ⟨"990.00", "RUB"⟩

/-- A refund request and its replay are both answered while the refund is pending. The provider then
cancels it, reconciliation stores that, and a request with a new key reserves the payment again; the
answer to the replay is stored last. -/
def staleRefundAnswer : List RefundEvent :=
  subscribing.map .billing ++
    [.reserve 10 1, .call 0 (checkoutRefund .pending), .reserve 10 1,
     .call 0 (checkoutRefund .pending), .store (april + minutes 5) 1,
     .providerRefund (checkoutRefund .canceled), .claimReconciliation (april + minutes 19) 7,
     .reconcile (april + minutes 20) (checkoutRefund .canceled), .reserve 10 2,
     .store (april + minutes 21) 1]

theorem staleRefundAnswer_enabled :
    (Transition.exec (step .thirtyDays .default) (start fun _ => some "owner@example.com")
      staleRefundAnswer).isSome := by
  decide +kernel

/-- A payment with two active refunds. -/
theorem two_active_refunds :
    ∃ s, Transition.Run (Steps .thirtyDays .default) (start fun _ => some "owner@example.com")
        staleRefundAnswer s ∧
      (s.world.db.activeRefunds 10).map (fun row => (row.idempotencyKey, row.status)) =
        [(2, .requested), (1, .pending)] ∧ ¬SingleRefund s.world.db := by
  have hrows : (((Transition.exec (step .thirtyDays .default)
      (start fun _ => some "owner@example.com") staleRefundAnswer).get
        staleRefundAnswer_enabled).world.db.activeRefunds 10).map
          (fun row => (row.idempotencyKey, row.status)) = [(2, .requested), (1, .pending)] := by
    decide +kernel
  refine ⟨_, .of_exec_get staleRefundAnswer_enabled, hrows, fun hs => ?_⟩
  have hlen := congrArg List.length hrows
  have hone := hs.active 10
  rw [List.length_map] at hlen
  simp only [List.length_cons, List.length_nil] at hlen
  omega

end RefundWorld

end Tonatiuh.Billing
