import Tonatiuh.Trading.Math
import Mathlib.Algebra.Order.BigOperators.Group.List
import Mathlib.Algebra.BigOperators.Group.List.Lemmas
import Mathlib.Algebra.BigOperators.Ring.List
import Mathlib.Algebra.Order.Ring.Abs

/-! `calculateClosingOrderExposure` and `isSessionExposureClosed` on the same fills.

The one decides what is still to be closed, the other whether a session counts as closed. A number
that is not finite is `none`; both functions pass over it or refuse it as they do with `NaN`. -/

namespace Tonatiuh.Trading

/-- `filled` is a finite positive number. -/
def FilledOrderExposure.isCounted (order : FilledOrderExposure) : Bool := Num.positive order.filled

/-- The executed closing order, as a fill. -/
def ClosingOrderExposure.filled (exposure : ClosingOrderExposure) : FilledOrderExposure where
  side := exposure.side
  filled := some exposure.amount

/-- The executed closing order, as an order of the session. -/
def ClosingOrderExposure.stored (exposure : ClosingOrderExposure) : SessionOrderExposure where
  side := exposure.side
  amount := some exposure.amount

/-- An order of the session, as a fill. -/
def SessionOrderExposure.filled (order : SessionOrderExposure) : FilledOrderExposure where
  side := order.side
  filled := order.amount

/-! ## The net amount -/

section
variable {orders orders' : List FilledOrderExposure} {exposure : ClosingOrderExposure}

theorem netBaseAmount_perm (h : orders.Perm orders') :
    netBaseAmount orders = netBaseAmount orders' := by
  rw [netBaseAmount_eq_sum, netBaseAmount_eq_sum]
  exact (h.map _).sum_eq

theorem netBaseAmount_append (orders orders' : List FilledOrderExposure) :
    netBaseAmount (orders ++ orders') = netBaseAmount orders + netBaseAmount orders' := by
  simp only [netBaseAmount_eq_sum, List.map_append, List.sum_append]

theorem FilledOrderExposure.signed_of_not_counted {order : FilledOrderExposure}
    (h : order.isCounted = false) : order.signed = 0 := by
  obtain ⟨side, _ | filled⟩ := order
  · rfl
  · have hle : filled ≤ 0 := by simpa [isCounted, Num.positive, Num.lt] using h
    simp [signed, hle]

/-- Only the counted fills matter. -/
theorem netBaseAmount_filter (orders : List FilledOrderExposure) :
    netBaseAmount (orders.filter (·.isCounted)) = netBaseAmount orders := by
  rw [netBaseAmount_eq_sum, netBaseAmount_eq_sum]
  induction orders with
  | nil => rfl
  | cons order orders ih =>
    rw [List.filter_cons]
    split
    next => rw [List.map_cons, List.map_cons, List.sum_cons, List.sum_cons, ih]
    next h =>
      rw [List.map_cons, List.sum_cons, order.signed_of_not_counted (Bool.eq_false_iff.mpr h),
        zero_add, ih]

theorem calculateClosingOrderExposure_congr (h : netBaseAmount orders = netBaseAmount orders') :
    calculateClosingOrderExposure orders = calculateClosingOrderExposure orders' := by
  simp only [calculateClosingOrderExposure, h]

theorem calculateClosingOrderExposure_eq_none (h : |netBaseAmount orders| ≤ epsilon) :
    calculateClosingOrderExposure orders = none := by
  simp only [calculateClosingOrderExposure]
  exact if_pos h

/-- Nothing is left to close after the closing order. -/
theorem calculateClosingOrderExposure_closed
    (h : calculateClosingOrderExposure orders = some exposure) :
    calculateClosingOrderExposure (orders ++ [exposure.filled]) = none := by
  obtain ⟨-, hpos, hnet⟩ := calculateClosingOrderExposure_some h
  have hfill : netBaseAmount [exposure.filled] = -netBaseAmount orders := by
    rw [← hnet]
    simp [netBaseAmount, ClosingOrderExposure.filled, FilledOrderExposure.signed, not_le.mpr hpos]
  apply calculateClosingOrderExposure_eq_none
  rw [netBaseAmount_append, hfill, add_neg_cancel, abs_zero]
  exact epsilon_pos.le

end

/-! ## The orders of a session -/

section
variable {orders : List SessionOrderExposure} {order : SessionOrderExposure}

theorem SessionOrderExposure.amount_of_positive (h : Num.positive order.amount = true) :
    ∃ q, order.amount = some q ∧ 0 < q := by
  obtain ⟨side, _ | q⟩ := order
  · cases h
  · exact ⟨q, rfl, of_decide_eq_true h⟩

/-- Of orders that are counted, both functions add up the same. -/
theorem netBaseAmount_filled (h : ∀ o ∈ orders, Num.positive o.amount = true) :
    netBaseAmount (orders.map (·.filled)) = (orders.map SessionOrderExposure.signed).sum := by
  rw [netBaseAmount_eq_sum, List.map_map]
  congr 1
  refine List.map_congr_left fun o ho => ?_
  obtain ⟨q, hq, hpos⟩ := o.amount_of_positive (h o ho)
  simp [SessionOrderExposure.filled, FilledOrderExposure.signed, SessionOrderExposure.signed, hq,
    not_le.mpr hpos]

/-- The net amount on a side is at least any of its amounts when all orders are on that side. -/
theorem amount_le_net {side : Side} (h : ∀ o ∈ orders, Num.positive o.amount = true)
    (hside : ∀ o ∈ orders, o.side = side) (hmem : order ∈ orders) :
    order.amount.getD 0 ≤ side.sign * (orders.map SessionOrderExposure.signed).sum := by
  have hsum : side.sign * (orders.map SessionOrderExposure.signed).sum =
      (orders.map fun o => o.amount.getD 0).sum := by
    rw [← List.sum_map_mul_left]
    congr 1
    refine List.map_congr_left fun o ho => ?_
    rw [SessionOrderExposure.signed, hside o ho, ← mul_assoc, Side.sign_mul_sign, one_mul]
  rw [hsum]
  refine List.single_le_sum (fun q hq => ?_) _ (List.mem_map_of_mem hmem)
  obtain ⟨o, ho, rfl⟩ := List.mem_map.mp hq
  obtain ⟨q, hq, hpos⟩ := o.amount_of_positive (h o ho)
  simpa [hq] using hpos.le

/-- A net amount on a side comes from an order on that side. -/
theorem exists_side_of_net {side : Side} (h : ∀ o ∈ orders, Num.positive o.amount = true)
    (hnet : 0 < side.sign * (orders.map SessionOrderExposure.signed).sum) :
    ∃ o ∈ orders, o.side = side := by
  by_contra hno
  have hother : ∀ o ∈ orders, o.side = side.other := fun o ho =>
    Side.eq_other_of_ne fun heq => hno ⟨o, ho, heq⟩
  cases orders with
  | nil => simp at hnet
  | cons first rest =>
    have hle := amount_le_net h hother List.mem_cons_self
    obtain ⟨q, hq, hpos⟩ := first.amount_of_positive (h first List.mem_cons_self)
    rw [hq, Option.getD_some, Side.sign_other] at hle
    linarith

/-- Orders on both sides whose net amount is within the tolerance. -/
theorem isSessionExposureClosed_of_sides {a b : SessionOrderExposure}
    (h : ∀ o ∈ orders, Num.positive o.amount = true) (ha : a ∈ orders) (hb : b ∈ orders)
    (hside : a.side ≠ b.side)
    (hnet : |(orders.map SessionOrderExposure.signed).sum| ≤
      tolerance (orders.map fun order => |order.amount.getD 0|).sum) :
    isSessionExposureClosed orders = true := by
  unfold isSessionExposureClosed
  split
  next => cases ha
  next o =>
    cases List.mem_singleton.mp ha
    cases List.mem_singleton.mp hb
    exact absurd rfl hside
  next first rest _ =>
    have hany : (first :: rest).any (fun order => order.side ≠ first.side) = true := by
      rw [List.any_eq_true]
      by_cases hfirst : a.side = first.side
      · exact ⟨b, hb, decide_eq_true fun heq => hside (hfirst.trans heq.symm)⟩
      · exact ⟨a, ha, decide_eq_true hfirst⟩
    have hvalid : (first :: rest).any (fun order => ¬ Num.positive order.amount) = false := by
      rw [List.any_eq_false]
      intro o ho
      simp [h o ho]
    rw [if_neg (by rw [hany]; exact not_not.mpr rfl), if_neg (by rw [hvalid]; exact nofun)]
    refine decide_eq_true ?_
    rwa [List.sum_eq_foldl, List.sum_eq_foldl, List.foldl_map, List.foldl_map] at hnet

theorem epsilon_le_tolerance (total : Rat) : epsilon ≤ tolerance total :=
  le_trans (by norm_num [epsilon]) (le_max_left _ _)

/-- A session with nothing left to close counts as closed. -/
theorem closed_of_none (h : ∀ o ∈ orders, Num.positive o.amount = true) (hmem : order ∈ orders)
    (hbig : epsilon < order.amount.getD 0)
    (hnone : calculateClosingOrderExposure (orders.map (·.filled)) = none) :
    isSessionExposureClosed orders = true := by
  have hsmall := calculateClosingOrderExposure_none hnone
  rw [netBaseAmount_filled h] at hsmall
  have htwo : ∃ o ∈ orders, o.side ≠ order.side := by
    by_contra hone
    have hle := amount_le_net h (fun o ho => not_not.mp fun hne => hone ⟨o, ho, hne⟩) hmem
    have habs := le_abs_self (order.side.sign * (orders.map SessionOrderExposure.signed).sum)
    rw [abs_mul, Side.abs_sign, one_mul] at habs
    linarith
  obtain ⟨o, ho, hne⟩ := htwo
  exact isSessionExposureClosed_of_sides h ho hmem hne (hsmall.trans (epsilon_le_tolerance _))

/-- And so does one whose closing order has executed. -/
theorem closed_of_some {exposure : ClosingOrderExposure}
    (h : ∀ o ∈ orders, Num.positive o.amount = true)
    (hsome : calculateClosingOrderExposure (orders.map (·.filled)) = some exposure) :
    isSessionExposureClosed (orders ++ [exposure.stored]) = true := by
  obtain ⟨-, hpos, hnet⟩ := calculateClosingOrderExposure_some hsome
  rw [netBaseAmount_filled h] at hnet
  have hside : 0 < exposure.side.other.sign * (orders.map SessionOrderExposure.signed).sum := by
    have hsum : (orders.map SessionOrderExposure.signed).sum =
        -(exposure.side.sign * exposure.amount) := by linarith
    rw [Side.sign_other, hsum, neg_mul_neg, ← mul_assoc, Side.sign_mul_sign, one_mul]
    exact hpos
  obtain ⟨o, ho, hother⟩ := exists_side_of_net h hside
  refine isSessionExposureClosed_of_sides ?_ (List.mem_append_left _ ho) List.mem_concat_self ?_ ?_
  · exact List.forall_mem_append.mpr ⟨h, List.forall_mem_singleton.mpr (Num.positive_of_pos hpos)⟩
  · rw [hother]
    exact exposure.side.other_ne
  · have hstored : SessionOrderExposure.signed exposure.stored =
        exposure.side.sign * exposure.amount := rfl
    rw [List.map_append, List.sum_append, List.map_singleton, List.sum_singleton, hstored, hnet,
      add_neg_cancel, abs_zero]
    exact epsilon_pos.le.trans (epsilon_le_tolerance _)

end

/-- What is to be closed depends neither on the order of the fills nor on those that are not
counted, closing it leaves nothing to be closed, and a session counts as closed exactly where this
says that it should. -/
theorem exposure_agrees :
    (∀ orders orders' : List FilledOrderExposure, orders.Perm orders' →
      calculateClosingOrderExposure orders = calculateClosingOrderExposure orders') ∧
    (∀ orders kept : List FilledOrderExposure, kept.Sublist orders →
      kept.filter (·.isCounted) = orders.filter (·.isCounted) →
      calculateClosingOrderExposure kept = calculateClosingOrderExposure orders) ∧
    (∀ orders exposure, calculateClosingOrderExposure orders = some exposure →
      0 < exposure.amount ∧ calculateClosingOrderExposure (orders ++ [exposure.filled]) = none) ∧
    (∀ orders : List SessionOrderExposure, (∀ o ∈ orders, Num.positive o.amount = true) →
      (∃ o ∈ orders, Num.lt (some epsilon) o.amount = true) →
      (calculateClosingOrderExposure (orders.map (·.filled)) = none →
        isSessionExposureClosed orders = true) ∧
      ∀ exposure, calculateClosingOrderExposure (orders.map (·.filled)) = some exposure →
        isSessionExposureClosed (orders ++ [exposure.stored]) = true) := by
  refine ⟨fun orders orders' h => calculateClosingOrderExposure_congr (netBaseAmount_perm h),
    ?_, ?_, ?_⟩
  · intro orders kept _ h
    apply calculateClosingOrderExposure_congr
    rw [← netBaseAmount_filter kept, h, netBaseAmount_filter]
  · intro orders exposure h
    exact ⟨(calculateClosingOrderExposure_some h).2.1, calculateClosingOrderExposure_closed h⟩
  · rintro orders h ⟨order, hmem, hbig⟩
    obtain ⟨q, hq, -⟩ := order.amount_of_positive (h order hmem)
    rw [hq] at hbig
    refine ⟨closed_of_none h hmem ?_, fun exposure => closed_of_some h⟩
    rw [hq]
    exact of_decide_eq_true hbig

/-- Two entries and a partial exit, in another order and with a fill that is not a number. -/
theorem exposure_agrees_partlySold :
    calculateClosingOrderExposure [⟨.buy, some 2⟩, ⟨.sell, some (1 / 2)⟩] =
        calculateClosingOrderExposure [⟨.sell, some (1 / 2)⟩, ⟨.buy, some 2⟩] ∧
      calculateClosingOrderExposure [⟨.buy, some 2⟩] =
        calculateClosingOrderExposure [⟨.buy, some 2⟩, ⟨.sell, none⟩] ∧
      isSessionExposureClosed [⟨.buy, some 2⟩, ⟨.sell, some 2⟩] = true :=
  ⟨exposure_agrees.1 _ _ (List.Perm.swap _ _ _),
    exposure_agrees.2.1 _ _ (List.sublist_append_left _ [_]) rfl,
    (exposure_agrees.2.2.2 [⟨.buy, some 2⟩] (by decide +kernel) (by decide +kernel)).2 ⟨.sell, 2⟩
      (by decide +kernel)⟩

end Tonatiuh.Trading
