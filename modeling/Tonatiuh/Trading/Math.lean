import Mathlib.Algebra.BigOperators.Group.List.Basic
import Mathlib.Algebra.Order.BigOperators.Group.List
import Mathlib.Algebra.Order.Field.Rat
import Mathlib.Data.Rat.Defs
import Tonatiuh.Numbers.Rounding

/-! The pure arithmetic of trading: `position-exposure.ts`, `session-reconciliation.ts` and
`trading-math.ts`.

Amounts and prices are exact rationals; `NaN` and missing values are `none`. Comparisons with
`NaN` are false, and no division here has a zero divisor (each is guarded in the source).

The source adds Numbers, and rounds every sum. `SumIsExact` says where this changes nothing in
`calculateClosingOrderExposure`. -/

namespace Tonatiuh.Trading

/-- `ModeType`. -/
inductive Side where
  | buy | sell
  deriving DecidableEq, Repr

namespace Side

def other : Side → Side
  | buy => sell
  | sell => buy

/-- The sign with which an executed amount counts in a position. -/
def sign : Side → Rat
  | buy => 1
  | sell => -1

@[simp] theorem sign_other (d : Side) : d.other.sign = -d.sign := by cases d <;> rfl

@[simp] theorem sign_mul_sign (d : Side) : d.sign * d.sign = 1 := by cases d <;> norm_num [sign]

@[simp] theorem abs_sign (d : Side) : |d.sign| = 1 := by cases d <;> simp [sign]

theorem other_ne (d : Side) : d.other ≠ d := by cases d <;> exact nofun

theorem eq_other_of_ne {d e : Side} (h : e ≠ d) : e = d.other := by
  cases d <;> cases e <;> first | rfl | exact absurd rfl h

end Side

/-! ## Numbers -/

/-- A JavaScript number: a finite one, or `NaN`. -/
abbrev Num := Option Rat

namespace Num

def add (a b : Num) : Num := a.bind fun x => b.map (x + ·)
def sub (a b : Num) : Num := a.bind fun x => b.map (x - ·)
def mul (a b : Num) : Num := a.bind fun x => b.map (x * ·)
def div (a b : Num) : Num := a.bind fun x => b.map (x / ·)
def neg (a : Num) : Num := a.map (- ·)

def lt : Num → Num → Bool
  | some x, some y => x < y
  | _, _ => false

def le : Num → Num → Bool
  | some x, some y => x ≤ y
  | _, _ => false

/-- `n > 0`; for these numbers also `Number.isFinite(n) && n > 0`. -/
def positive : Num → Bool := lt (some 0)

/-- `n >= 0`. -/
def nonnegative : Num → Bool := le (some 0)

def sum (l : List Num) : Num := l.foldl add (some 0)

/-- `null` counts as 0 in a sum. -/
def ofNull (a : Num) : Num := some (a.getD 0)

theorem sum_cons (a : Num) (l : List Num) : sum (a :: l) = add a (sum l) := by
  have hadd (b : Num) : List.foldl add b l = add b (sum l) := by
    rw [sum]
    induction l generalizing b with
    | nil => cases b <;> simp [add]
    | cons c l ih =>
      rw [List.foldl_cons, List.foldl_cons, ih, ih (add (some 0) c)]
      cases b <;> cases c <;> cases sum l <;> simp [add, add_assoc]
  rw [sum, List.foldl_cons, hadd]
  cases a <;> simp [add]

theorem sum_map_some {f : α → Num} {g : α → Rat} {l : List α}
    (h : ∀ a ∈ l, f a = some (g a)) : sum (l.map f) = some (l.map g).sum := by
  induction l with
  | nil => rfl
  | cons a l ih =>
    rw [List.map_cons, sum_cons, h a List.mem_cons_self,
      ih fun b hb => h b (List.mem_cons_of_mem a hb)]
    rfl

/-- A sum is a number only if everything summed is. -/
theorem isSome_of_sum {l : List Num} (h : sum l = some q) : ∀ a ∈ l, a.isSome := by
  induction l generalizing q with
  | nil => exact List.forall_mem_nil _
  | cons a l ih =>
    rw [sum_cons] at h
    cases a with
    | none => cases h
    | some p =>
      cases hl : sum l with
      | none => rw [hl] at h; cases h
      | some q => exact List.forall_mem_cons.mpr ⟨rfl, ih hl⟩

theorem div_right_cancel {a b : Num} {q : Rat} (hq : q ≠ 0)
    (h : div a (some q) = div b (some q)) : a = b := by
  cases a with
  | none =>
    cases b with
    | none => rfl
    | some y => cases h
  | some x =>
    cases b with
    | none => cases h
    | some y => exact congrArg some ((div_left_inj' hq).mp (Option.some.inj h))

theorem positive_of_pos (h : 0 < q) : positive (some q) = true := decide_eq_true h

end Num

/-! ## `position-exposure.ts` -/

structure FilledOrderExposure where
  side : Side
  filled : Num

structure ClosingOrderExposure where
  side : Side
  amount : Rat
  deriving DecidableEq, Repr

/-- `Number.EPSILON`. -/
def epsilon : Rat := 1 / 4503599627370496

def FilledOrderExposure.signed (o : FilledOrderExposure) : Rat :=
  match o.filled with
  | some filled => if filled ≤ 0 then 0 else o.side.sign * filled
  | none => 0

def netBaseAmount (orders : List FilledOrderExposure) : Rat :=
  orders.foldl (fun total order => total + order.signed) 0

def calculateClosingOrderExposure (orders : List FilledOrderExposure) :
    Option ClosingOrderExposure :=
  let net := netBaseAmount orders
  if |net| ≤ epsilon then none
  else some { side := if 0 < net then .sell else .buy, amount := |net| }

theorem epsilon_pos : 0 < epsilon := by norm_num [epsilon]

theorem netBaseAmount_eq_sum (orders : List FilledOrderExposure) :
    netBaseAmount orders = (orders.map FilledOrderExposure.signed).sum := by
  rw [netBaseAmount, List.sum_eq_foldl, List.foldl_map]

/-- The closing order is on the side that reduces the position, and closes all of it. -/
theorem calculateClosingOrderExposure_some
    (h : calculateClosingOrderExposure orders = some exposure) :
    epsilon < |netBaseAmount orders| ∧ 0 < exposure.amount ∧
      exposure.side.sign * exposure.amount = -netBaseAmount orders := by
  simp only [calculateClosingOrderExposure] at h
  split at h
  next => cases h
  next hbig =>
    have hbig := not_le.mp hbig
    have hpos : 0 < |netBaseAmount orders| := lt_trans epsilon_pos hbig
    cases h
    refine ⟨hbig, hpos, ?_⟩
    split
    next hnet => simp [Side.sign, abs_of_pos hnet]
    next hnet => simp [Side.sign, abs_of_nonpos (not_lt.mp hnet)]

theorem calculateClosingOrderExposure_none
    (h : calculateClosingOrderExposure orders = none) : |netBaseAmount orders| ≤ epsilon := by
  simp only [calculateClosingOrderExposure] at h
  split at h
  next hsmall => exact hsmall
  next => cases h

/-! ### With Numbers -/

/-- The nearest Number to a rational; `none` if there is no finite one. -/
def Num.nearest (x : Rat) : Num :=
  match Numbers.Number.ofRat |x| with
  | .finite y => some (if x < 0 then -y else y)
  | .infinity => none

/-- The reduction of `calculateClosingOrderExposure` when every sum is rounded. -/
def roundedNetBaseAmount (round : Rat → Num) (orders : List FilledOrderExposure) : Num :=
  orders.foldlM (fun total order =>
    if order.signed = 0 then some total else round (total + order.signed)) 0

/-- Numbers add up to the sum of the executed amounts. -/
def SumIsExact (orders : List FilledOrderExposure) : Prop :=
  roundedNetBaseAmount Num.nearest orders = some (netBaseAmount orders)

instance (orders : List FilledOrderExposure) : Decidable (SumIsExact orders) :=
  inferInstanceAs (Decidable (_ = _))

/-- What `calculateClosingOrderExposure` does with its sum. -/
def exposureOf (net : Rat) : Option ClosingOrderExposure :=
  if |net| ≤ epsilon then none
  else some { side := if 0 < net then .sell else .buy, amount := |net| }

/-- `calculateClosingOrderExposure` with Numbers. -/
def closingOrderExposureOfNumbers (orders : List FilledOrderExposure) :
    Option ClosingOrderExposure :=
  (roundedNetBaseAmount Num.nearest orders).bind exposureOf

/-- Where the sum is exact, Numbers give the same closing order as rationals. -/
theorem closingOrderExposureOfNumbers_eq (h : SumIsExact orders) :
    closingOrderExposureOfNumbers orders = calculateClosingOrderExposure orders := by
  rw [closingOrderExposureOfNumbers, h]
  rfl

/-- An integer of 53 digits, times a power of two in the range of Numbers, is a Number. -/
theorem Num.nearest_of_units {m k : ℤ} (hm : |m| ≤ 2 ^ 53) (hk : k ≤ 970) {x : Rat}
    (hx : x = m * 2 ^ k) : Num.nearest x = some x := by
  have hpow : (0 : Rat) < 2 ^ k := zpow_pos two_pos k
  have habs : |x| = (|m| : ℤ) * 2 ^ k := by rw [hx, abs_mul, abs_of_pos hpow, Int.cast_abs]
  have hround : Numbers.nearest 53 |x| = |x| := by
    rcases (abs_nonneg x).eq_or_lt with hzero | hpos
    · rw [← hzero]
      exact_mod_cast Numbers.nearest_natCast (n := 0) (by decide) (Nat.zero_le _)
    · exact Numbers.nearest_of_isRepresentable (by decide) hpos ⟨|m|, k, by rwa [abs_abs], habs⟩
  have hlt : |x| < 2 ^ 1024 := by
    have hm' : ((|m| : ℤ) : Rat) ≤ 2 ^ 53 := by exact_mod_cast hm
    calc |x| ≤ 2 ^ 53 * 2 ^ k := habs ▸ mul_le_mul_of_nonneg_right hm' hpow.le
      _ ≤ 2 ^ 53 * 2 ^ (970 : ℤ) :=
        mul_le_mul_of_nonneg_left (zpow_le_zpow_right₀ one_le_two hk) (by positivity)
      _ = 2 ^ (53 + 970) := by rw [pow_add]; rfl
      _ < 2 ^ 1024 := pow_lt_pow_right₀ one_lt_two (by decide)
  rw [Num.nearest, Numbers.Number.ofRat, hround, if_pos hlt]
  refine congrArg some ?_
  split
  next hneg => rw [abs_of_neg hneg, neg_neg]
  next hneg => exact abs_of_nonneg (not_lt.mp hneg)

/-- The executed amounts are multiples of one power of two, and no more than `2 ^ 53` of them in
total. -/
structure CountsUnits (orders : List FilledOrderExposure) (k : ℤ) : Prop where
  range : -1022 ≤ k ∧ k ≤ 970
  units : ∀ order ∈ orders, ∃ m : ℤ, order.signed = m * 2 ^ k
  total : (orders.map fun order => |order.signed|).sum ≤ 2 ^ 53 * 2 ^ k

theorem roundedNetBaseAmount_of_units {orders : List FilledOrderExposure} {k m : ℤ} {total : Rat}
    (hk : k ≤ 970) (hunits : ∀ order ∈ orders, ∃ m : ℤ, order.signed = m * 2 ^ k)
    (htotal : total = m * 2 ^ k)
    (hsum : |total| + (orders.map fun order => |order.signed|).sum ≤ 2 ^ 53 * 2 ^ k) :
    orders.foldlM (fun total order =>
      if order.signed = 0 then some total else Num.nearest (total + order.signed)) total =
        some (orders.foldl (fun total order => total + order.signed) total) := by
  induction orders generalizing total m with
  | nil => rfl
  | cons order orders ih =>
    obtain ⟨⟨n, hn⟩, hunits⟩ := List.forall_mem_cons.mp hunits
    rw [List.map_cons, List.sum_cons, ← add_assoc] at hsum
    have hnext : total + order.signed = (m + n : ℤ) * 2 ^ k := by
      rw [htotal, hn, Int.cast_add, add_mul]
    have hle : |total + order.signed| + (orders.map fun order => |order.signed|).sum ≤
        2 ^ 53 * 2 ^ k :=
      (add_le_add_left (abs_add_le total order.signed) _).trans hsum
    have hsmall : |m + n| ≤ 2 ^ 53 := by
      have hrest : 0 ≤ (orders.map fun order => |order.signed|).sum :=
        List.sum_nonneg fun x hx => by
          obtain ⟨order, _, rfl⟩ := List.mem_map.mp hx
          exact abs_nonneg _
      have hpow : (0 : Rat) < 2 ^ k := zpow_pos two_pos k
      have hle := (le_add_of_nonneg_right hrest).trans hle
      rw [hnext, abs_mul, abs_of_pos hpow] at hle
      exact_mod_cast le_of_mul_le_mul_right hle hpow
    rw [List.foldlM_cons, List.foldl_cons]
    split
    next hzero =>
      rw [hzero, add_zero] at hnext hle ⊢
      exact ih hunits hnext hle
    next =>
      rw [Num.nearest_of_units hsmall hk hnext]
      exact ih hunits hnext hle

theorem CountsUnits.sumIsExact {orders : List FilledOrderExposure} {k : ℤ}
    (h : CountsUnits orders k) :
    SumIsExact orders := by
  refine roundedNetBaseAmount_of_units (m := 0) h.range.2 h.units (by simp) ?_
  rw [abs_zero, zero_add]
  exact h.total

/-- Numbers give the closing order of exact arithmetic where the amounts count units. -/
theorem closingOrderExposureOfNumbers_units {k : ℤ} (h : CountsUnits orders k) :
    closingOrderExposureOfNumbers orders = calculateClosingOrderExposure orders :=
  closingOrderExposureOfNumbers_eq h.sumIsExact

theorem closingOrderExposureOfNumbers_units_quarters :
    closingOrderExposureOfNumbers [⟨.buy, some (21 / 2)⟩, ⟨.buy, some (1 / 4)⟩, ⟨.sell, some 3⟩] =
      some ⟨.sell, 31 / 4⟩ := by
  have hunits : CountsUnits [⟨.buy, some (21 / 2)⟩, ⟨.buy, some (1 / 4)⟩,
      ⟨.sell, some 3⟩] (-2) := by
    refine ⟨by decide, ?_, by decide +kernel⟩
    simp only [List.forall_mem_cons]
    exact ⟨⟨42, by decide +kernel⟩, ⟨1, by decide +kernel⟩, ⟨-12, by decide +kernel⟩, nofun⟩
  rw [closingOrderExposureOfNumbers_units hunits]
  decide +kernel

/-- `0.1 + 0.2` is not `0.3`. -/
example : ¬ SumIsExact [⟨.buy, Num.nearest (1 / 10)⟩, ⟨.buy, Num.nearest (2 / 10)⟩] := by
  decide +kernel

/-! ## `session-reconciliation.ts` -/

structure SessionOrderExposure where
  side : Side
  amount : Num

/-- The tolerance for a session in which `total` was traded. -/
def tolerance (total : Rat) : Rat := max (1 / 1000000000000) (total / 100000000)

def SessionOrderExposure.signed (o : SessionOrderExposure) : Rat := o.side.sign * o.amount.getD 0

def isSessionExposureClosed (orders : List SessionOrderExposure) : Bool :=
  match orders with
  | [] | [_] => false
  | first :: _ =>
    if ¬ orders.any (fun order => order.side ≠ first.side) then false
    else if orders.any (fun order => ¬ Num.positive order.amount) then false
    else
      let netAmount := orders.foldl (fun total order => total + order.signed) 0
      let totalAmount := orders.foldl (fun total order => total + |order.amount.getD 0|) 0
      |netAmount| ≤ tolerance totalAmount

theorem isSessionExposureClosed_net (h : isSessionExposureClosed orders = true) :
    |(orders.map SessionOrderExposure.signed).sum| ≤
      tolerance (orders.map fun order => |order.amount.getD 0|).sum := by
  unfold isSessionExposureClosed at h
  split at h
  next => cases h
  next => cases h
  next =>
    split at h
    next => cases h
    next =>
      split at h
      next => cases h
      next =>
        rw [List.sum_eq_foldl, List.sum_eq_foldl, List.foldl_map, List.foldl_map]
        exact of_decide_eq_true h

/-! ## `trading-math.ts` -/

def resolvePositionSide (firstOrderSide : Option Side) (orderSides : List Side) :
    Except String Side :=
  match firstOrderSide, orderSides with
  | some side, _ => .ok side
  | none, side :: _ => .ok side
  | none, [] => .error "Position side requires at least one entry order."

structure PositionMetrics where
  pnlPerUnit : Num
  pnlRatio : Num
  positionPnl : Num

def calculatePositionMetrics (entrySide : Side) (averageEntryPrice lastPrice positionAmount : Num) :
    Except String PositionMetrics :=
  if ¬ Num.positive averageEntryPrice ∨ ¬ Num.positive lastPrice ∨
      ¬ Num.nonnegative positionAmount then
    .error "Position metrics require positive prices and a non-negative position amount."
  else
    let pnlPerUnit := match entrySide with
      | .buy => Num.sub lastPrice averageEntryPrice
      | .sell => Num.sub averageEntryPrice lastPrice
    .ok { pnlPerUnit, pnlRatio := Num.div pnlPerUnit averageEntryPrice,
          positionPnl := Num.mul pnlPerUnit positionAmount }

def calculateBuyBackAmount (averageEntryPrice percentBuyBackStep : Num) (drawdownStep : Nat) :
    Except String Num :=
  if ¬ Num.positive averageEntryPrice ∨ ¬ Num.nonnegative percentBuyBackStep ∨
      ¬ 1 ≤ drawdownStep then
    .error "Buyback calculation requires a positive price, non-negative step percentage, and drawdown step."
  else .ok (Num.mul (Num.mul averageEntryPrice percentBuyBackStep) (some drawdownStep))

def calculateBuyBackOrderAmount (side : Side) (availableBalance lastPrice percentFromBalance
    positionSize : Num) (drawdownStep : Nat) (fibonacci : Bool) : Num :=
  if ¬ Num.positive availableBalance ∨ ¬ Num.positive lastPrice then some 0
  else
    let amount := if fibonacci then Num.mul positionSize (some drawdownStep)
      else Num.div (Num.mul availableBalance percentFromBalance)
        (if side = .buy then lastPrice else some 1)
    let requiredBalance := if side = .buy then Num.mul amount lastPrice else amount
    if Num.positive amount ∧ Num.le requiredBalance availableBalance then amount else some 0

end Tonatiuh.Trading
