import Tonatiuh.Trading.OrderRequests
import Tonatiuh.Trading.Watch

/-! What the programs of a trade session send while it goes on. -/

namespace Tonatiuh.Trading

open Async Config

/-- The requests with which the programs look at the market and keep the accounts, pauses
included. -/
def Request.passive : Request → Bool
  | .getTick | .fetchOHLCV | .getBalance | .getConfigById
  | .getProfitForTradeSession .. | .getAllProfitSession
  | .getBalanceState | .createStateBalance _ | .sleep _ => true
  | _ => false

/-- The requests `P` and the memories `M` admit the programs: they look on, and trade in the session
of the memory. -/
structure Admits (P : Request → Prop) (M : Memory → Prop) : Prop where
  passive : ∀ r, r.passive = true → P r
  orders : ∀ m r, M m → r.InSession m.indexOperation → P r
  push : ∀ m order, M m → M (m.push order)
  reload : ∀ m config, M m → M { m with config }

variable {P : Request → Prop} {M : Memory → Prop}

/-! ## The accounts -/

theorem calculateProfitSession_confined (hP : ∀ r, r.passive = true → P r)
    (session : Option SessionId)
    (orders : List TrackedOrder) : (calculateProfitSession session orders).Confined P M := by
  unfold calculateProfitSession
  split
  next => exact .throw _
  next => exact .request (hP _ rfl)

theorem saveBalanceState_confined (hP : ∀ r, r.passive = true → P r) (profit : Num)
    (orders : List TrackedOrder) : (saveBalanceState profit orders).Confined P M := by
  refine .bind (.request (hP _ rfl)) fun balance => .bind (.request (hP _ rfl)) fun isExisting => ?_
  split
  next => exact .pure _
  next =>
    split
    next =>
      split
      next => exact .throw _
      next => exact .request (hP _ rfl)
    next =>
      refine .bind (.request (hP _ rfl)) fun _ => ?_
      split
      next => exact .throw _
      next => exact .bind (.request (hP _ rfl)) fun _ => .request (hP _ rfl)

/-- `_endTradeSession` keeps the accounts and marks the session and its rows. -/
theorem endTradeSession_confined (hP : ∀ r, r.passive = true → P r)
    (hend : ∀ profitSession session, P (.endTradeSession profitSession session))
    (hrevert : ∀ session, P (.revertOrderActiveStatus session))
    (hset : ∀ m, M m → M (m.setOrders []))
    (deltaForSale : Num) : (endTradeSession deltaForSale).Confined P M :=
  .get_bind fun _ _ => .bind (calculateProfitSession_confined hP _ _) fun _ => .get_bind fun _ _ =>
    .bind (saveBalanceState_confined hP _ _) fun _ => .get_bind fun _ _ =>
      .bind (.request (hend _ _)) fun _ => .get_bind fun _ _ =>
        .bind (.request (hrevert _)) fun _ => .modifies hset

/-! ## Closing -/

/-- The requests `P` and the memories `M` admit the programs that wait for a price and close the
position. -/
structure Closes (P : Request → Prop) (M : Memory → Prop) : Prop where
  getTick : P .getTick
  trades : ∀ m, M m → Trades P m.indexOperation .closing
  push : ∀ m order, M m → M (m.push order)

namespace Closes

variable {m : Memory}

theorem mono {P' : Request → Prop} (h : Closes P M) (hP : ∀ r, P r → P' r) : Closes P' M where
  getTick := hP _ h.getTick
  trades m hm := (h.trades m hm).mono hP
  push := h.push

theorem closeFilledPosition (h : Closes P M) (hm : M m) (bound : Nat) :
    (closeFilledPosition bound m.indexOperation).Confined P M :=
  (h.trades m hm).closeFilledPosition h.push bound

/-- The position is closed if there is one. -/
theorem closing (h : Closes P M) (hm : M m) (bound : Nat) :
    (do let closingOrder ← Trading.closeFilledPosition bound m.indexOperation
        return closingOrder.isSome : Prog Bool).Confined P M :=
  .bind (h.closeFilledPosition hm bound) fun _ => .pure _

theorem trackPrice (h : Closes P M) (bound : Nat) (side : Side) (reversePriceIndent : Num)
    (rounds : Nat)
    (targets : Num × Num) :
    (trackPrice bound side reversePriceIndent rounds targets).Confined P M := by
  induction rounds generalizing targets with
  | zero => trivial
  | succ rounds ih =>
    refine .get_bind fun m hm => ?_
    split
    next => exact .throw _
    next =>
      refine .bind (.request h.getTick) fun lastPrice => .get_bind fun m hm => ?_
      split
      next => exact .throw _
      next =>
        refine .bind (.request h.getTick) fun _ => ?_
        split
        next => exact .get_bind fun m hm => h.closing hm bound
        next => exact .bind (.request ((h.trades m hm).waits _ trivial)) fun _ => ih _

theorem onPriceTracker (h : Closes P M) (bound : Nat) (side : Side) :
    (onPriceTracker bound side).Confined P M :=
  .tryCatch (.bind (.request h.getTick) fun _ => .get_bind fun _ _ => h.trackPrice ..)
    fun _ => .pure _

theorem watchingTakeProfitLogic (h : Closes P M) (bound : Nat) (side : Side) (unrealizedPnl : Num) :
    (watchingTakeProfitLogic bound side unrealizedPnl).Confined P M := by
  refine .get_bind fun m hm => ?_
  split
  next =>
    split
    next => exact h.onPriceTracker bound side.other
    next => exact h.closing hm bound
  next => exact .pure _

/-- The position is closed, and the session ended in the way `hend` admits. -/
theorem closeAndEnd (h : Closes P M) (bound : Nat) (deltaForSale : Num)
    (hend : (endTradeSession deltaForSale).Confined P M) :
    (closeAndEnd bound deltaForSale).Confined P M := by
  refine .get_bind fun m hm => .bind (h.closeFilledPosition hm bound) fun _ => ?_
  split
  next => exact hend
  next => exact .pure _

end Closes

/-! ## Trading -/

namespace Admits

variable {m : Memory}

theorem trades (h : Admits P M) (hm : M m) (purpose : Purpose) :
    Trades P m.indexOperation purpose :=
  (Trades.inSession m.indexOperation purpose).mono fun r hr => h.orders m r hm hr

theorem closes (h : Admits P M) : Closes P M where
  getTick := h.passive _ rfl
  trades _ hm := h.trades hm .closing
  push := h.push

theorem closeFilledPosition (h : Admits P M) (hm : M m) (bound : Nat) :
    (closeFilledPosition bound m.indexOperation).Confined P M :=
  h.closes.closeFilledPosition hm bound

theorem watchingTakeProfitLogic (h : Admits P M) (bound : Nat) (side : Side) (unrealizedPnl : Num) :
    (watchingTakeProfitLogic bound side unrealizedPnl).Confined P M :=
  h.closes.watchingTakeProfitLogic bound side unrealizedPnl

/-- `_reloadConfig`. -/
theorem reloadConfig (h : Admits P M) : reloadConfig.Confined P M := by
  refine .bind (.request (h.passive _ rfl)) fun config => ?_
  split
  next => exact .pure _
  next => exact .modifies fun m hm => h.reload m _ hm

theorem observeMarket (h : Admits P M) (w : WatchState) : (observeMarket w).Confined P M := by
  refine .bind h.reloadConfig fun _ => .bind (.request (h.passive _ rfl)) fun balance =>
    .get_bind fun m _ => ?_
  split
  next => exact .throw _
  next =>
    refine .bind (.request (h.passive _ rfl)) fun lastPrice => .get_bind fun m _ => ?_
    dsimp only
    split
    next => exact .throw _
    next =>
      split
      next => exact .throw _
      next => exact .pure _

theorem openPositionForStrategy (h : Admits P M) (hm : M m) (side : Side) (amount : Rat)
    (price : Num) :
    (openPositionForStrategy side amount price m.indexOperation).Confined P M :=
  (h.trades hm .entry).openPositionForStrategy h.push side amount price

theorem buyBack (h : Admits P M) (w : WatchState) (market : Market) :
    (buyBack w market).Confined P M := by
  unfold Trading.buyBack
  dsimp only
  split
  next =>
    split
    next => exact .throw _
    next =>
      refine .get_bind fun m hm => ?_
      split
      next => exact .pure _
      next =>
        split
        next => exact .bind (h.openPositionForStrategy hm ..) fun _ => .pure _
        next => exact .pure _
  next => exact .pure _

theorem openFirstPosition (h : Admits P M) (hm : M m) (isOnlyBuy : Bool) (amount : Rat)
    (price lowestInCandle highestInCandle : Num) :
    (openFirstPosition isOnlyBuy amount price lowestInCandle highestInCandle
      m.indexOperation).Confined
      P M := by
  unfold Trading.openFirstPosition
  split
  next => exact h.openPositionForStrategy hm ..
  next =>
    split
    next =>
      dsimp only
      split
      next => exact h.openPositionForStrategy hm ..
      next => exact h.openPositionForStrategy hm ..
    next =>
      split
      next => exact h.openPositionForStrategy hm ..
      next =>
        split
        next => exact h.openPositionForStrategy hm ..
        next => exact .throw _

theorem enteringPosition (h : Admits P M) (isOnlyBuy : Bool) :
    (enteringPosition isOnlyBuy).Confined P M := by
  refine .bind (.request (h.passive _ rfl)) fun price =>
    .bind (.request (h.passive _ rfl)) fun candle => ?_
  split
  next => exact .throw _
  next =>
    exact .bind (.request (h.passive _ rfl)) fun _ => .get_bind fun m hm =>
      .bind (h.openFirstPosition hm ..) fun _ => .get_bind fun _ _ => .pure _

end Admits

end Tonatiuh.Trading
