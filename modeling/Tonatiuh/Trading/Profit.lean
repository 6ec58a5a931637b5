import Tonatiuh.Trading.Api

/-! The profit of a session: `getProfitForTradeSession` and the realised result.

The query prices all that the session has traded at the price of its last order. The orders that
closed the position drop out of the sum only if they were executed at that price on average. -/

namespace Tonatiuh.Trading

open Async

/-! ## Sums over the rows of a session -/

/-- The executed base amount of a row. -/
def OrderRow.base (row : OrderRow) : Rat := row.amount.getD 0

/-- The quote amount for which it was executed. -/
def OrderRow.cost (row : OrderRow) : Rat := row.price.getD 0 * row.amount.getD 0

/-- The sum of `f` over the rows on one side. -/
def sumOn (side : Side) (f : OrderRow → Rat) (rows : List OrderRow) : Rat :=
  ((rows.filter (·.side = side)).map f).sum

/-- Executed buys minus executed sells. -/
def netBase (rows : List OrderRow) : Rat :=
  sumOn .buy OrderRow.base rows - sumOn .sell OrderRow.base rows

/-- The realised quote result: what the sells brought in minus what the buys cost. -/
def realised (rows : List OrderRow) : Rat :=
  sumOn .sell OrderRow.cost rows - sumOn .buy OrderRow.cost rows

theorem sum_eq_sumOn (side : Side) (f : OrderRow → Rat) (rows : List OrderRow) :
    (rows.map f).sum = sumOn side f rows + sumOn side.other f rows := by
  induction rows with
  | nil => simp [sumOn]
  | cons row rows ih =>
    simp only [sumOn] at ih ⊢
    rw [List.map_cons, List.sum_cons, ih, List.filter_cons, List.filter_cons]
    by_cases h : row.side = side
    · have h' : row.side ≠ side.other := fun ho => side.other_ne (ho.symm.trans h)
      simp only [h, side.other_ne.symm, decide_true, decide_false, if_true, Bool.false_eq_true,
        if_false, List.map_cons, List.sum_cons]
      ring
    · have h' : row.side = side.other := Side.eq_other_of_ne h
      simp only [h', side.other_ne, decide_true, decide_false, if_true, Bool.false_eq_true,
        if_false, List.map_cons, List.sum_cons]
      ring

/-- When the amounts cancel out, both sides traded the same amount. -/
theorem sumOn_base_of_net (hnet : netBase rows = 0) (side : Side) :
    sumOn side.other OrderRow.base rows = sumOn side OrderRow.base rows := by
  rw [netBase] at hnet
  cases side
  · exact (sub_eq_zero.mp hnet).symm
  · exact sub_eq_zero.mp hnet

theorem sqlSum_map {f : OrderRow → Num} {g : OrderRow → Rat}
    (hf : ∀ row ∈ rows, f row = some (g row)) (hrows : rows ≠ []) :
    sqlSum (rows.map f) = some (rows.map g).sum := by
  have hreduce : (rows.map f).reduceOption = rows.map g := by
    rw [List.map_congr_left hf]
    exact List.filterMap_map.trans (congrFun List.filterMap_eq_map rows)
  obtain ⟨row, rest, rfl⟩ := List.exists_cons_of_ne_nil hrows
  rw [sqlSum, hreduce, List.map_cons]

/-! ## The formula of the query -/

/-- The row holds numbers. -/
def OrderRow.Numeric (row : OrderRow) : Prop := row.price.isSome ∧ row.amount.isSome

instance (row : OrderRow) : Decidable row.Numeric :=
  inferInstanceAs (Decidable (row.price.isSome ∧ row.amount.isSome))

theorem OrderRow.Numeric.base {row : OrderRow} (h : row.Numeric) : row.amount = some row.base := by
  obtain ⟨q, hq⟩ := Option.isSome_iff_exists.mp h.2
  rw [OrderRow.base, hq, Option.getD_some]

theorem OrderRow.Numeric.cost {row : OrderRow} (h : row.Numeric) :
    Num.mul row.price row.amount = some row.cost := by
  obtain ⟨p, hp⟩ := Option.isSome_iff_exists.mp h.1
  obtain ⟨q, hq⟩ := Option.isSome_iff_exists.mp h.2
  rw [OrderRow.cost, hp, hq]
  rfl

/-- The result of the query when there are rows to sum: everything at the price of the last order
against everything at its own price. -/
theorem World.profit_eq {w : World} {side : Side}
    (hclosing : (w.rows session).find? (fun row => row.orderId = n) = some closing)
    (hprice : closing.price = some price) (hactive : w.activeRows session ≠ [])
    (hnum : ∀ row ∈ w.activeRows session, row.Numeric) :
    w.profit session n side = .ok (some (side.other.sign *
      (((w.activeRows session).map OrderRow.base).sum * price -
        ((w.activeRows session).map OrderRow.cost).sum))) := by
  have hbase := sqlSum_map (fun row hrow => (hnum row hrow).base) hactive
  have hcost := sqlSum_map (fun row hrow => (hnum row hrow).cost) hactive
  simp only [World.profit, hclosing, hprice, hbase, hcost]
  cases side <;> simp [Num.mul, Num.sub, Side.other, Side.sign]

/-- Without rows to sum the query gives `NULL`. -/
theorem World.profit_none {w : World} {side : Side}
    (hclosing : (w.rows session).find? (fun row => row.orderId = n) = some closing)
    (hactive : w.activeRows session = []) : w.profit session n side = .ok none := by
  simp only [World.profit, hclosing, hactive]
  cases side <;> rfl

/-- The realised result, as seen from the side on which the position was closed. -/
theorem realised_eq (rows : List OrderRow) (side : Side) :
    realised rows =
      side.other.sign * (sumOn side OrderRow.cost rows - sumOn side.other OrderRow.cost rows) := by
  cases side <;> simp [realised, Side.other, Side.sign]

/-- For a session whose amounts cancel out, the profit is the realised result if and only if there
is something to sum and the price of the last order is the average price of its side. -/
theorem profit_eq_realised_iff (w : World) (session : Option SessionId) (n : OrderId) (side : Side)
    (hnum : ∀ row ∈ w.activeRows session, row.Numeric)
    (hnet : netBase (w.activeRows session) = 0) :
    w.profit session n side = .ok (some (realised (w.activeRows session))) ↔
      w.activeRows session ≠ [] ∧ ∃ closing price,
        (w.rows session).find? (fun row => row.orderId = n) = some closing ∧
          closing.price = some price ∧
          price * sumOn side OrderRow.base (w.activeRows session) =
            sumOn side OrderRow.cost (w.activeRows session) := by
  have hsum : ((w.activeRows session).map OrderRow.base).sum =
      2 * sumOn side OrderRow.base (w.activeRows session) := by
    rw [sum_eq_sumOn side, sumOn_base_of_net hnet]
    ring
  have hcost := sum_eq_sumOn side OrderRow.cost (w.activeRows session)
  have hsign : side.other.sign * side.other.sign = 1 := side.other.sign_mul_sign
  rw [realised_eq _ side]
  constructor
  · intro h
    cases hclosing : (w.rows session).find? (fun row => row.orderId = n) with
    | none => simp [World.profit, hclosing] at h
    | some closing =>
      have hactive : w.activeRows session ≠ [] := by
        intro hnil
        rw [World.profit_none hclosing hnil] at h
        cases h
      cases hprice : closing.price with
      | none =>
        simp only [World.profit, hclosing, hprice] at h
        cases side <;> simp [Num.mul, Num.sub] at h
      | some price =>
        refine ⟨hactive, closing, price, rfl, hprice, ?_⟩
        rw [World.profit_eq hclosing hprice hactive hnum, hsum, hcost] at h
        have h := congrArg (side.other.sign * ·) (Option.some.inj (Except.ok.inj h))
        simp only [← mul_assoc, hsign, one_mul] at h
        linarith
  · rintro ⟨hactive, closing, price, hclosing, hprice, heq⟩
    rw [World.profit_eq hclosing hprice hactive hnum, hsum, hcost]
    congr 3
    linarith

/-- One coin is bought at 100 and sold at 110. -/
def soldOnce : World where
  orders := [⟨some 0, 0, some 100, some 1, .buy, true⟩, ⟨some 0, 1, some 110, some 1, .sell, true⟩]

theorem profit_eq_realised_iff_soldOnce :
    soldOnce.profit (some 0) 1 .sell = .ok (some (realised (soldOnce.activeRows (some 0)))) :=
  (profit_eq_realised_iff soldOnce (some 0) 1 .sell (by decide +kernel) (by decide +kernel)).mpr
    ⟨by decide, ⟨some 0, 1, some 110, some 1, .sell, true⟩, 110, by decide +kernel, rfl,
      by decide +kernel⟩

/-- One coin is bought at 100; half of it is sold at 110, the other half at 90. -/
def soldTwice : World where
  orders := [⟨some 0, 0, some 100, some 1, .buy, true⟩,
    ⟨some 0, 1, some 110, some (1 / 2), .sell, true⟩,
      ⟨some 0, 2, some 90, some (1 / 2), .sell, true⟩]

/-- Nothing was gained or lost, and the profit is a loss of 20. -/
theorem profit_of_two_closing_orders :
    netBase (soldTwice.rows (some 0)) = 0 ∧ realised (soldTwice.rows (some 0)) = 0 ∧
      soldTwice.activeRows (some 0) = soldTwice.rows (some 0) ∧
      soldTwice.profit (some 0) 2 .sell = .ok (some (-20)) := by
  decide +kernel

end Tonatiuh.Trading
