import Tonatiuh.Async.Execution
import Tonatiuh.Trading.Worker

/-! The exposure that `closeFilledPosition` closes.

Each tracked order counts with what `_resolveExecutedAmount` makes of its lookup, whatever the
lookups answer and however many of them fail. This is not always the executed amount that is last
known: an order in memory counts as nothing when its lookup fails, and a row counts with its own
amount when the report says that nothing was executed. -/

namespace Tonatiuh.Trading

open Async Config

variable {order : TrackedOrder} {latest : Option Order} {answers : List (Option Order)} {m : Memory}

/-! ## What is known of an order -/

/-- The executed amount that a report gives, if it gives one. -/
def Order.executedAmount (o : Order) : Num :=
  if Num.positive o.filled then o.filled
  else if o.status = some .closed ∧ Num.positive o.amount then o.amount
  else o.filled.map fun _ => 0

/-- The executed amount that the service knows of an order: that of the last report, or of the
row. -/
def TrackedOrder.executedAmount : TrackedOrder → Rat
  | .order o => o.executedAmount.getD 0
  | .row r => if Num.positive r.amount then r.amount.getD 0 else 0

/-- The executed amount that is known after a lookup. -/
def lastExecutedAmount (order : TrackedOrder) (latest : Option Order) : Rat :=
  (latest.bind (·.executedAmount)).getD order.executedAmount

/-- The condition: the lookup of an order in memory that has been executed tells how much was, and
the lookup of a row with an amount does not tell that nothing was. -/
def TrackedOrder.isResolved (order : TrackedOrder) (latest : Option Order) : Bool :=
  match order, latest.bind (·.executedAmount) with
  | .order _, none => order.executedAmount = 0
  | .row _, some executed => 0 < executed || order.executedAmount = 0
  | .order _, some _ | .row _, none => true

theorem Order.executedAmount_nonneg (o : Order) (h : o.executedAmount = some q) : 0 ≤ q := by
  unfold executedAmount at h
  split at h
  next hpos =>
    rw [h] at hpos
    exact le_of_lt (of_decide_eq_true hpos)
  next =>
    split at h
    next hclosed =>
      rw [h] at hclosed
      exact le_of_lt (of_decide_eq_true hclosed.2)
    next =>
      obtain ⟨_, -, rfl⟩ := Option.map_eq_some_iff.mp h
      exact le_refl 0

def TrackedOrder.stored : TrackedOrder → Num
  | .order _ => none
  | .row r => r.amount

/-- What counts where a lookup gives no positive amount. -/
def TrackedOrder.storedAmount : TrackedOrder → Rat
  | .order _ => 0
  | .row r => TrackedOrder.executedAmount (.row r)

theorem resolveExecutedAmount_eq (order : TrackedOrder) (latest : Option Order) :
    resolveExecutedAmount order latest =
      if 0 < (latest.bind (·.executedAmount)).getD 0 then (latest.bind (·.executedAmount)).getD 0
      else order.storedAmount := by
  have hpositive {n : Num} (h : Num.positive n) : 0 < n.getD 0 := by
    cases n with
    | none => cases h
    | some q => exact of_decide_eq_true h
  have hstored : (if Num.positive order.stored then order.stored.getD 0 else 0) =
      order.storedAmount := by
    cases order <;> rfl
  have hresolve : resolveExecutedAmount order latest =
      if Num.positive (latest.bind (·.filled)) then (latest.bind (·.filled)).getD 0
      else if latest.bind (·.status) = some .closed ∧ Num.positive (latest.bind (·.amount)) then
        (latest.bind (·.amount)).getD 0
      else order.storedAmount := by
    rw [← hstored]
    cases order <;> rfl
  rw [hresolve]
  cases latest with
  | none => rfl
  | some o =>
    simp only [Option.bind_some, Order.executedAmount]
    by_cases hfilled : Num.positive o.filled
    · simp only [if_pos hfilled, if_pos (hpositive hfilled)]
    · by_cases hclosed : o.status = some .closed ∧ Num.positive o.amount
      · simp only [if_neg hfilled, if_pos hclosed, if_pos (hpositive hclosed.2)]
      · have hnone : ¬0 < (o.filled.map fun _ => (0 : Rat)).getD 0 := by
          cases o.filled <;> exact lt_irrefl 0
        simp only [if_neg hfilled, if_neg hclosed, if_neg hnone]

/-- An order counts with the executed amount that is last known if and only if the condition
holds. -/
theorem resolveExecutedAmount_eq_last_iff :
    resolveExecutedAmount order latest = lastExecutedAmount order latest ↔
    order.isResolved latest := by
  rw [resolveExecutedAmount_eq, lastExecutedAmount, TrackedOrder.isResolved.eq_def]
  cases hlatest : latest.bind (·.executedAmount) with
  | none =>
    cases order with
    | order o => simp [TrackedOrder.storedAmount, eq_comm]
    | row r => simp [TrackedOrder.storedAmount]
  | some executed =>
    obtain ⟨o, -, hexecuted⟩ := Option.bind_eq_some_iff.mp hlatest
    have hnonneg := o.executedAmount_nonneg hexecuted
    by_cases hpos : 0 < executed
    · cases order <;> simp [hpos]
    · obtain rfl : executed = 0 := le_antisymm (not_lt.mp hpos) hnonneg
      cases order <;> simp [TrackedOrder.storedAmount]

/-! ## What is closed -/

/-- What `closeFilledPosition` goes on with. -/
def closeExposure (indexOperation : Option SessionId) :
    Option ClosingOrderExposure → Prog (Option Order)
  | none => return none
  | some exposure => some <$> submitClosingOrder indexOperation exposure

/-- The orders, each with the amount that `f` gives. -/
def counted (f : TrackedOrder → Option Order → Rat) (orders : List TrackedOrder)
    (answers : List (Option Order)) : List FilledOrderExposure :=
  List.zipWith (fun order latest => { side := order.side, filled := some (f order latest) })
    orders answers

theorem counted_eq_iff {f g : TrackedOrder → Option Order → Rat} {orders : List TrackedOrder}
    {answers : List (Option Order)} :
    counted f orders answers = counted g orders answers ↔
      ∀ pair ∈ orders.zip answers, f pair.1 pair.2 = g pair.1 pair.2 := by
  induction orders generalizing answers with
  | nil => simp [counted]
  | cons order orders ih =>
    cases answers with
    | nil => simp [counted]
    | cons latest answers =>
      have hrest := @ih answers
      rw [counted, counted] at hrest ⊢
      simp [hrest]

instance : DecidableEq api.Request := inferInstanceAs (DecidableEq Request)

/-- The process alone, with whatever its requests are answered with. -/
abbrev anyAnswers : Environment api Unit String (Sigma fun r : Request => Except String r.Answer) :=
  answering

/-- The lookups are answered, or fail. -/
def lookups (orders : List TrackedOrder) (answers : List (Option Order)) :
    List (Sigma fun r : Request => Except String r.Answer) :=
  List.zipWith (fun order latest => ⟨.checkStatusOrderById order.exchangeOrderId,
    latest.elim (.error "Unable to check order") .ok⟩) orders answers

theorem readFilledOrders_exec {rest : List TrackedOrder} {bound i : Nat}
    {acc : List FilledOrderExposure}
    (hrest : m.orders.drop i = rest) (hanswers : answers.length = rest.length)
    (hbound : rest.length < bound) :
    Exec anyAnswers (readFilledOrders m.retired.length bound i acc) (m, ()) (lookups rest answers)
      (.pure (acc ++ counted resolveExecutedAmount rest answers)) (m, ()) := by
  induction rest generalizing bound i acc answers with
  | nil =>
    obtain ⟨bound, rfl⟩ := Nat.exists_eq_add_of_lt hbound
    have hnone : (m.array m.retired.length)[i]? = none := by
      rw [Memory.array_length]
      exact List.getElem?_eq_none (List.drop_eq_nil_iff.mp hrest)
    refine .read ?_
    simp only [Program.bind, hnone, lookups, counted, List.zipWith_nil_left, List.append_nil]
    exact .refl
  | cons order rest ih =>
    obtain ⟨bound, rfl⟩ := Nat.exists_eq_add_of_lt hbound
    cases answers with
    | nil => cases hanswers
    | cons latest answers =>
      have hsome : (m.array m.retired.length)[i]? = some order := by
        have hfirst : (m.orders.drop i)[0]? = some order := by rw [hrest, List.getElem?_cons_zero]
        rwa [List.getElem?_drop, Nat.add_zero, ← Memory.array_length] at hfirst
      have hdrop : m.orders.drop (i + 1) = rest := by
        rw [← List.drop_drop, hrest, List.drop_one, List.tail_cons]
      have hnext := @ih answers ((order :: rest).length + bound) (i + 1)
        (acc ++ [{ side := order.side, filled := some (resolveExecutedAmount order latest) }])
        hdrop (Nat.succ.inj hanswers) (by rw [List.length_cons]; omega)
      refine .read ?_
      simp only [Program.bind, hsome]
      rw [List.append_assoc] at hnext
      cases latest with
      | none => exact .answered hnext
      | some o => exact .answered hnext

/-- `closeFilledPosition` closes the exposure of what its lookups make of the tracked orders. -/
theorem closeFilledPosition_exec {bound : Nat} {indexOperation : Option SessionId}
    (hne : m.orders ≠ [])
    (hanswers : answers.length = m.orders.length) (hbound : m.orders.length < bound) :
    Exec anyAnswers (closeFilledPosition bound indexOperation) (m, ())
      (⟨.cancelAllOrders, .ok ()⟩ :: lookups m.orders answers)
      (closeExposure indexOperation
        (calculateClosingOrderExposure (counted resolveExecutedAmount m.orders answers)))
        (m, ()) := by
  refine .answered (.read ?_)
  have hread : Exec anyAnswers (readFilledOrders m.retired.length bound 0 []) (m, ()) _ _ _ :=
    readFilledOrders_exec rfl hanswers hbound
  have hclose := hread.bind fun filledOrders =>
    closeExposure indexOperation (calculateClosingOrderExposure filledOrders)
  simp only [Program.bind, if_neg hne]
  exact hclose

/-- The exposure that is closed is that of the executed amounts last known if and only if each order
meets the condition. -/
theorem closes_last_known_iff {bound : Nat} {indexOperation : Option SessionId}
    (hne : m.orders ≠ [])
    (hanswers : answers.length = m.orders.length) (hbound : m.orders.length < bound) :
    Exec anyAnswers (closeFilledPosition bound indexOperation) (m, ())
        (⟨.cancelAllOrders, .ok ()⟩ :: lookups m.orders answers)
        (closeExposure indexOperation
          (calculateClosingOrderExposure (counted resolveExecutedAmount m.orders answers)))
        (m, ()) ∧
      (counted resolveExecutedAmount m.orders answers =
        counted lastExecutedAmount m.orders answers ↔
        ∀ pair ∈ m.orders.zip answers, pair.1.isResolved pair.2) := by
  refine ⟨closeFilledPosition_exec hne hanswers hbound, counted_eq_iff.trans ?_⟩
  simp only [resolveExecutedAmount_eq_last_iff]

/-- An order in memory and a row. -/
def trackedOrders : List TrackedOrder := [
  .order ⟨0, .buy, some .closed, some (1 / 2), some (1 / 2), none, some 2000⟩,
  .row { session := some 0, orderId := 1, price := some 1900, amount := some (3 / 4),
         side := .buy }]

/-- The lookup of the row fails. -/
def rowFails : List (Option Order) :=
  [some ⟨0, .buy, some .closed, some (1 / 2), some (1 / 2), none, some 2000⟩, none]

theorem closes_last_known_iff_rowFails :
    counted resolveExecutedAmount trackedOrders rowFails =
      counted lastExecutedAmount trackedOrders rowFails :=
  (@closes_last_known_iff rowFails { config := oneTrade, orders := trackedOrders } 3 (some 0)
    nofun rfl (by decide)).2.mpr (by decide +kernel)

/-- The lookup of the order in memory fails, and the row has been cancelled before anything was
executed. -/
def orderFails : List (Option Order) :=
  [none, some ⟨1, .buy, some .canceled, some (3 / 4), some 0, none, some 1900⟩]

theorem closes_other_exposure :
    Exec anyAnswers (closeFilledPosition 3 (some 0))
    ({ config := oneTrade, orders := trackedOrders }, ())
      (⟨.cancelAllOrders, .ok ()⟩ :: lookups trackedOrders orderFails)
      (closeExposure (some 0) (some ⟨.sell, 3 / 4⟩))
      ({ config := oneTrade, orders := trackedOrders }, ()) ∧
    calculateClosingOrderExposure (counted lastExecutedAmount trackedOrders orderFails) =
      some ⟨.sell, 1 / 2⟩ := by
  refine ⟨?_, by decide +kernel⟩
  have hclosed : calculateClosingOrderExposure (counted resolveExecutedAmount trackedOrders
      orderFails) =
      some ⟨.sell, 3 / 4⟩ := by decide +kernel
  rw [← hclosed]
  exact closeFilledPosition_exec nofun rfl (by decide)

end Tonatiuh.Trading
