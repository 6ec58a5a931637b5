import Tonatiuh.Trading.Orders

/-! What the programs of `OrdersOperationService.ts` send. -/

namespace Tonatiuh.Trading

open Async

/-- The requests of the programs, which submit orders for one session only. -/
def Request.OfOrders (session : Option SessionId) : Request → Prop
  | .cancelAllOrders | .checkStatusOrderById _ | .getTick | .createOrderRow _ | .sleep _ => True
  | .createOrder _ session' _ _ _ => session' = session
  | _ => False

/-- And the rows that they store are those of the session. -/
def Request.InSession (session : Option SessionId) : Request → Prop
  | .createOrderRow row => row.session = session
  | r => r.OfOrders session

theorem Request.InSession.ofOrders {r : Request} (h : r.InSession session) :
    r.OfOrders session := by
  cases r with
  | createOrderRow => trivial
  | _ => exact h

/-- The requests of a program that waits for an order. -/
def Request.Waits : Request → Prop
  | .cancelAllOrders | .checkStatusOrderById _ | .sleep _ => True
  | _ => False

/-- The requests `P` admit the programs that submit an order for this purpose. -/
structure Trades (P : Request → Prop) (session : Option SessionId) (purpose : Purpose) : Prop where
  waits : ∀ r : Request, r.Waits → P r
  getTick : P .getTick
  createOrder : ∀ side amount price, P (.createOrder purpose session side amount price)
  createOrderRow : ∀ row : OrderRow, row.session = session → P (.createOrderRow row)

theorem Trades.inSession (session : Option SessionId) (purpose : Purpose) :
    Trades (Request.InSession session) session purpose where
  waits r hr := by
    cases r with
    | cancelAllOrders | checkStatusOrderById | sleep => trivial
    | _ => cases hr
  getTick := trivial
  createOrder _ _ _ := rfl
  createOrderRow _ h := h

variable {M : Memory → Prop} {P : Request → Prop} {session : Option SessionId}

theorem Trades.mono {P' : Request → Prop} (h : Trades P session purpose) (hP : ∀ r, P r → P' r) :
    Trades P' session purpose where
  waits r hr := hP r (h.waits r hr)
  getTick := hP _ h.getTick
  createOrder side amount price := hP _ (h.createOrder side amount price)
  createOrderRow row hrow := hP _ (h.createOrderRow row hrow)

theorem pollExecution_confined (hP : ∀ r : Request, r.Waits → P r) (order : Order)
    (attempts : Nat) :
    (pollExecution order attempts).Confined P M := by
  induction attempts with
  | zero =>
    refine .bind (.request (hP _ trivial)) fun _ => .bind (.request (hP _ trivial)) fun latest => ?_
    split
    next => exact .pure _
    next => exact .throw _
  | succ attempts ih =>
    refine .bind (.request (hP _ trivial)) fun latest => ?_
    split
    next => exact .pure _
    next =>
      split
      next =>
        split
        next => exact .pure _
        next => exact .throw _
      next => exact .bind (.request (hP _ trivial)) fun _ => ih

theorem waitForExecution_confined (hP : ∀ r : Request, r.Waits → P r) (order : Order) :
    (waitForExecution order).Confined P M := by
  unfold waitForExecution
  split
  next => exact .pure _
  next => exact pollExecution_confined hP order 60

theorem readFilledOrders_confined (hP : ∀ r : Request, r.Waits → P r) (g bound i : Nat)
    (l : List FilledOrderExposure) : (readFilledOrders g bound i l).Confined P M := by
  induction bound generalizing i l with
  | zero => trivial
  | succ bound ih =>
    refine .get_bind fun m _ => ?_
    split
    next => exact .pure _
    next => exact .bind (.orUndefined (.request (hP _ trivial))) fun status => ih _ _

namespace Trades

/-- What follows the request for an entry order. -/
theorem entered (h : Trades P session purpose) (hpush : ∀ m order, M m → M (m.push order))
    (side : Side) (amount : Rat) (price : Num) (submittedOrder : Order) :
    (do let newOrder ← waitForExecution submittedOrder
        request (.createOrderRow (newOrder.activated session side price (some amount)))
        modify (·.push newOrder)
        return newOrder : Prog Order).Confined P M :=
  .bind (waitForExecution_confined h.waits _) fun _ =>
    .bind (.request (h.createOrderRow _ rfl)) fun _ =>
    .bind (.modifies fun m hm => hpush m _ hm) fun _ => .pure _

theorem openPositionForStrategy (h : Trades P session .entry)
    (hpush : ∀ m order, M m → M (m.push order)) (side : Side) (amount : Rat) (price : Num) :
    (openPositionForStrategy side amount price session).Confined P M :=
  .bind (.request (h.createOrder ..)) fun _ => h.entered hpush side amount price _

theorem submitClosingOrder (h : Trades P session .closing)
    (hpush : ∀ m order, M m → M (m.push order))
    (exposure : ClosingOrderExposure) : (submitClosingOrder session exposure).Confined P M := by
  refine .bind (.request h.getTick) fun price =>
    .bind (.request (h.createOrder ..)) fun submitted =>
    .bind (waitForExecution_confined h.waits _) fun closingOrder => ?_
  split
  next =>
    exact .bind (.request (h.createOrderRow _ rfl)) fun _ =>
      .bind (.modifies fun m hm => hpush m _ hm) fun _ => .pure _
  next => exact .bind (.modifies fun m hm => hpush m _ hm) fun _ => .pure _

theorem closeFilledPosition (h : Trades P session .closing)
    (hpush : ∀ m order, M m → M (m.push order))
    (bound : Nat) : (closeFilledPosition bound session).Confined P M := by
  refine .bind (.request (h.waits _ trivial)) fun _ => .get_bind fun m _ => ?_
  split
  next => exact .pure _
  next =>
    refine .bind (readFilledOrders_confined h.waits _ _ _ _) fun filledOrders => ?_
    split
    next => exact .pure _
    next => exact .bind (h.submitClosingOrder hpush _) fun _ => .pure _

end Trades

theorem openPositionForStrategy_confined (hpush : ∀ m order, M m → M (m.push order)) (side : Side)
    (amount : Rat) (price : Num) (session : Option SessionId) :
    (openPositionForStrategy side amount price session).Confined (Request.InSession session) M :=
  (Trades.inSession session .entry).openPositionForStrategy hpush side amount price

theorem closeFilledPosition_confined (hpush : ∀ m order, M m → M (m.push order)) (bound : Nat)
    (session : Option SessionId) :
    (closeFilledPosition bound session).Confined (Request.InSession session) M :=
  (Trades.inSession session .closing).closeFilledPosition hpush bound

theorem openPositionForStrategy_ofOrders (side : Side) (amount : Rat) (price : Num)
    (session : Option SessionId) :
    (openPositionForStrategy side amount price session).Sends (Request.OfOrders session) :=
  (openPositionForStrategy_confined (fun _ _ => id) side amount price session).sends.mono
    fun _ h => h.ofOrders

theorem closeFilledPosition_ofOrders (bound : Nat) (session : Option SessionId) :
    (closeFilledPosition bound session).Sends (Request.OfOrders session) :=
  (closeFilledPosition_confined (fun _ _ => id) bound session).sends.mono fun _ h => h.ofOrders

end Tonatiuh.Trading
