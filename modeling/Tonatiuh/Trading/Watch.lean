import Tonatiuh.Trading.Orders

/-! `abstract.trading.ts`, `TradingVectorProfitService.ts` and `SessionTradingService.ts`: opening,
watching and ending a trade session.

The strategy is `TradingVectorProfitService`, which trades `'one-trade'` without grid logic. What is
only logged (profit targets, take-profit settings) is left out. `SessionTradingService` owns an
`OrdersOperationService` of its own: the list that it sets and clears is not the one that is
closed, so these calls leave no trace here. -/

namespace Tonatiuh.Trading

open Async Config

/-! ## `SessionTradingService` -/

/-- `calculateProfitSession`. -/
def calculateProfitSession (session : Option SessionId) (orders : List TrackedOrder) : Prog Num :=
  match orders.getLast? with
  | none => throw "Cannot read properties of undefined (reading 'side')"
  | some closing =>
    request (.getProfitForTradeSession session closing.exchangeOrderId closing.side)

/-- `saveBalanceState`. Of the balance it reads the field `USDT`. -/
def saveBalanceState (profit : Num) (orders : List TrackedOrder) : Prog Unit := do
  let balance ← request .getBalance
  let isExisting ← request .getBalanceState
  match orders with
  | [] => return ()
  | first :: _ =>
    if isExisting.isNone then
      match balance.usdt with
      | none => throw "Cannot read properties of undefined (reading 'free')"
      | some usdt =>
        request (.createStateBalance { usdt, profitAll := some 0, profitUsdt := some 0 })
    else
      let allProfitSession ← request .getAllProfitSession
      match balance.usdt with
      | none => throw "Cannot read properties of undefined (reading 'free')"
      | some usdt =>
        let prevBalance ← request .getBalanceState
        request (.createStateBalance
          { usdt, profitAll := allProfitSession <|> some 0
            profitUsdt := match prevBalance with
              | some prev =>
                Num.add (Num.ofNull prev.profitUsdt) (if first.side = .buy then profit else some 0)
              | none => some 0 })

/-- `_checkingIfClosingOrderHasBeenCreated`. -/
def checkingIfClosingOrderHasBeenCreated (orders : List OrderRow) (session : Option SessionId) :
    Prog Bool := do
  if isSessionExposureClosed (orders.map fun row => ⟨row.side, row.amount⟩) then
    let calculationProfit ← calculateProfitSession session (orders.map .row)
    saveBalanceState (Num.ofNull calculationProfit) (orders.map .row)
    request (.endTradeSession calculationProfit session)
    request (.revertOrderActiveStatus session)
    return true
  else return false

inductive TypeSession where
  | startNewTrade | startOldTrade
  deriving DecidableEq, Repr

/-- `initTradeSession`. -/
def initTradeSession : Prog (TypeSession × SessionId) := do
  let isActiveOldSession ← request .checkingActiveSession
  match isActiveOldSession with
  | none =>
    let indexOperation ← request .startSession
    return (.startNewTrade, indexOperation)
  | some session =>
    let orders ← request (.getAllOrdersByIndexOperation (some session))
    if orders = [] then
      request (.endTradeSession (some 0) (some session))
      let indexOperation ← request .startSession
      return (.startNewTrade, indexOperation)
    else
      let completed ← checkingIfClosingOrderHasBeenCreated orders (some session)
      if completed then
        let indexOperation ← request .startSession
        return (.startNewTrade, indexOperation)
      else return (.startOldTrade, session)

/-! ## Taking profit -/

/-- `calculateTarget('take', price)` and `calculateTarget('stop', price)` of `_onPriceTracker`. -/
def calculateTargets (side : Side) (reversePriceIndent actualPrice : Num) : Num × Num :=
  match side with
  | .sell => (Num.add actualPrice reversePriceIndent, Num.sub actualPrice reversePriceIndent)
  | .buy => (Num.sub actualPrice reversePriceIndent, Num.add actualPrice reversePriceIndent)

/-- The price has come back to the target at which the profit is taken. -/
def stopTargetReached (side : Side) (lastPrice targetStopProfit : Num) : Bool :=
  match side with
  | .sell => Num.le lastPrice targetStopProfit
  | .buy => Num.le targetStopProfit lastPrice

/-- The price has moved on to the target beyond which the targets follow it. -/
def takeTargetReached (side : Side) (lastPrice targetTakeProfit : Num) : Bool :=
  match side with
  | .sell => Num.le targetTakeProfit lastPrice
  | .buy => Num.le lastPrice targetTakeProfit

/-- The loop of `_onPriceTracker`. -/
def trackPrice (bound : Nat) (side : Side) (reversePriceIndent : Num) :
    Nat → Num × Num → Prog Bool
  | 0, _ => .unfinished
  | rounds + 1, (targetTakeProfit, targetStopProfit) => do
    let m ← get
    if m.orders = [] then throw "Orders not found!"
    else
      let lastPrice ← request .getTick
      let m ← get
      if m.orders = [] then throw "Cannot read properties of undefined (reading 'price')"
      else
        let _unrealizedPnl ← request .getTick
        if stopTargetReached side lastPrice targetStopProfit then
          let m ← get
          let closingOrder ← closeFilledPosition bound m.indexOperation
          return closingOrder.isSome
        else
          request (.sleep 1000)
          trackPrice bound side reversePriceIndent rounds
            (if takeTargetReached side lastPrice targetTakeProfit then
              calculateTargets side reversePriceIndent lastPrice
            else (targetTakeProfit, targetStopProfit))

/-- `_onPriceTracker`: every error ends in `false`. -/
def onPriceTracker (bound : Nat) (side : Side) : Prog Bool :=
  tryCatch
    (do
      let price ← request .getTick
      let m ← get
      let reversePriceIndent := Num.mul price (some m.config.percentTargetAfterTakeProfit)
      trackPrice bound side reversePriceIndent bound
        (calculateTargets side reversePriceIndent price))
    fun _ => return false

/-- `_watchingTakeProfitLogic`. -/
def watchingTakeProfitLogic (bound : Nat) (side : Side) (unrealizedPnl : Num) : Prog Bool := do
  let m ← get
  if Num.le (some m.config.percentProfit) unrealizedPnl then
    if m.config.isPercentTargetAfterTakeProfit then onPriceTracker bound side.other
    else
      let closingOrder ← closeFilledPosition bound m.indexOperation
      return closingOrder.isSome
  else return false

/-! ## The watch loop -/

/-- `_reloadConfig`. -/
def reloadConfig : Prog Unit := do
  let config ← request .getConfigById
  match config with
  | none => return ()
  | some config => modify fun m => { m with config }

/-- `_endTradeSession`. -/
def endTradeSession (deltaForSale : Num) : Prog Unit := do
  let m ← get
  let profit ← calculateProfitSession m.indexOperation m.orders
  let calculateProfitSession := Num.add (Num.ofNull profit) deltaForSale
  let m ← get
  saveBalanceState calculateProfitSession m.orders
  let m ← get
  request (.endTradeSession calculateProfitSession m.indexOperation)
  let m ← get
  request (.revertOrderActiveStatus m.indexOperation)
  modify (·.setOrders [])

/-- What `_watchingProcess` knows besides the shared memory: the parameters and the `options`. -/
structure WatchState where
  firstOrderSide : Option Side
  price : Num
  buyingBack : Num
  drawdownStep : Nat
  deriving DecidableEq

/-- `_getDeltaForSale`. -/
def getDeltaForSale (m : Memory) (side : Side) (buyingBack price lastPrice : Num) : Num :=
  if side = .sell ∧ m.config.isCapitalizeDeltaFromSale then
    Num.div (Num.sub (Num.sum (m.orders.map fun curr => Num.mul curr.amount curr.price))
      (Num.mul buyingBack price)) lastPrice
  else some 0

/-- `_getDeltaForBuy`. -/
def getDeltaForBuy (m : Memory) (side : Side) (buyingBack price lastPrice : Num) : Num :=
  if side = .buy ∧ m.config.isCoinAccumulation then
    Num.div (Num.sub (Num.mul buyingBack price)
      (Num.sum (m.orders.map fun curr => Num.mul curr.amount curr.price))) lastPrice
  else some 0

/-- `averageEntryPrice` and `entryAmount` of the tracked orders on the entry side. -/
def entryAverage (orders : List TrackedOrder) (entrySide : Side) (price : Num) : Num × Num :=
  let entryOrders := orders.filter fun order => order.side = entrySide
  let entryAmount := Num.sum (entryOrders.map (·.amount))
  (if Num.positive entryAmount then
      Num.div (Num.sum (entryOrders.map fun order => Num.mul order.price order.amount)) entryAmount
    else price, entryAmount)

/-- `config.stopLoss && unrealizedPnl <= -config.stopLoss`. -/
def stopLossReached (m : Memory) (unrealizedPnl : Num) : Bool :=
  match m.config.stopLoss with
  | none => false
  | some stopLoss => stopLoss ≠ 0 ∧ Num.le unrealizedPnl (some (-stopLoss))

/-- What the rest of a round needs of the market. -/
structure Market where
  balance : Balances
  entrySide : Side
  lastPrice : Num
  metrics : PositionMetrics
  buyBackAmount : Num
  deltaForSale : Num
  deltaForBuy : Num

/-- The first half of a round of `_watchingProcess`: reload the configuration, look at the market
and compute the metrics of the position. -/
def observeMarket (w : WatchState) : Prog Market := do
  reloadConfig
  let balance ← request .getBalance
  let m ← get
  match resolvePositionSide w.firstOrderSide (m.orders.map (·.side)) with
  | .error e => throw e
  | .ok entrySide =>
    let lastPrice ← request .getTick
    let m ← get
    let (averageEntryPrice, entryAmount) := entryAverage m.orders entrySide w.price
    match calculatePositionMetrics entrySide averageEntryPrice lastPrice entryAmount with
    | .error e => throw e
    | .ok metrics =>
      match calculateBuyBackAmount averageEntryPrice (some m.config.percentBuyBackStep)
          w.drawdownStep with
      | .error e => throw e
      | .ok buyBackAmount =>
        return { balance, entrySide, lastPrice, metrics, buyBackAmount
                 deltaForSale := getDeltaForSale m entrySide w.buyingBack w.price lastPrice
                 deltaForBuy := getDeltaForBuy m entrySide w.buyingBack w.price lastPrice }

/-- The branch of a buy-back: the state of the loop after it. -/
def buyBack (w : WatchState) (market : Market) : Prog WatchState := do
  let { entrySide := side, lastPrice, metrics, buyBackAmount, balance, .. } := market
  if Num.positive buyBackAmount ∧ Num.le metrics.pnlPerUnit (Num.neg buyBackAmount) then
    match (match side with | .sell => balance.first | .buy => balance.second) with
    | none => throw "Cannot read properties of undefined (reading 'free')"
    | some free =>
      let m ← get
      match calculateBuyBackOrderAmount side free lastPrice (some m.config.percentFromBalance)
          (some m.config.positionSize) w.drawdownStep m.config.isFibonacci with
      | none => return w
      | some amountForBuyBack =>
        if 0 < amountForBuyBack then
          let _ ← openPositionForStrategy side amountForBuyBack lastPrice m.indexOperation
          return { w with drawdownStep := w.drawdownStep + 1
                          buyingBack := Num.add w.buyingBack (some amountForBuyBack) }
        else return w
  else return w

/-- Close the position, and end the session if there was one. -/
def closeAndEnd (bound : Nat) (deltaForSale : Num) : Prog Unit := do
  let m ← get
  let closingOrder ← closeFilledPosition bound m.indexOperation
  if closingOrder.isSome then endTradeSession deltaForSale

/-- A round of `_watchingProcess`: the state of the loop after it, unless the loop is left. -/
def watchRound (bound : Nat) (w : WatchState) : Prog (Option WatchState) := do
  let market ← observeMarket w
  let m ← get
  if m.config.isEmergencyStop then
    request .disableEmergencyStop
    closeAndEnd bound market.deltaForSale
    return none
  else if (m.config.isCapitalizeDeltaFromSale ∧ market.deltaForSale = none) ∨
      (m.config.isCoinAccumulation ∧ market.deltaForBuy = none) then
    throw "Delta is not a number!"
  else if stopLossReached m market.metrics.pnlRatio then
    closeAndEnd bound market.deltaForSale
    return none
  else
    let takeProfit ← watchingTakeProfitLogic bound market.entrySide market.metrics.pnlRatio
    if takeProfit then
      endTradeSession market.deltaForSale
      return none
    else
      let w ← buyBack w market
      request (.sleep 1000)
      return some w

/-- `_watchingProcess`, its last `rounds` rounds. -/
def watchingProcess (bound : Nat) : Nat → WatchState → Prog Unit
  | 0, _ => .unfinished
  | rounds + 1, w => do
    let m ← get
    if m.orders = [] then return ()
    else
      let next ← watchRound bound w
      match next with
      | none => return ()
      | some w => watchingProcess bound rounds w

/-! ## Starting a session -/

/-- `_enteringPosition`, with `_oneTradingBehavior` and `getInfoPrice`. -/
def enteringPosition (isOnlyBuy : Bool) : Prog WatchState := do
  let price ← request .getTick
  let candle ← request .fetchOHLCV
  match candle with
  | none => throw "Cannot read properties of undefined (reading '2')"
  | some (lowestInCandle, highestInCandle) =>
    let _ ← request .getBalance
    let m ← get
    let amount := m.config.positionSize
    let firstOrder ←
      openFirstPosition isOnlyBuy amount price lowestInCandle highestInCandle m.indexOperation
    let m ← get
    return { firstOrderSide := some firstOrder.side, price, buyingBack := some amount
             drawdownStep := m.orders.length }

/-- `_startNewTrade`. -/
def startNewTrade (bound : Nat) (isOnlyBuy : Bool) : Prog Unit := do
  let w ← enteringPosition isOnlyBuy
  watchingProcess bound bound w

/-- What the loop starts with over the stored orders of a session. -/
def WatchState.ofRows : List OrderRow → Option WatchState
  | [] => none
  | first :: rest => some
    { firstOrderSide := some first.side, price := first.price
      buyingBack := Num.sum ((first :: rest).map (·.amount))
      drawdownStep := (first :: rest).length }

/-- `checkingExistingOrders`. -/
def checkingExistingOrders (bound : Nat) (indexOperation : SessionId) : Prog Unit := do
  let ordersFromDB ← request (.getAllOrdersByIndexOperation (some indexOperation))
  match WatchState.ofRows ordersFromDB with
  | none => return ()
  | some w => do
    modify (·.setOrders (ordersFromDB.map .row))
    watchingProcess bound bound w

/-- `_startTradingSession`. -/
def startTradingSession (bound : Nat) (isOnlyBuy : Bool) : Prog Unit := do
  request (.sleep 5000)
  let (typeSession, indexOperation) ← initTradeSession
  modify fun m => { m with indexOperation := some indexOperation }
  match typeSession with
  | .startNewTrade => startNewTrade bound isOnlyBuy
  | .startOldTrade => checkingExistingOrders bound indexOperation

end Tonatiuh.Trading
