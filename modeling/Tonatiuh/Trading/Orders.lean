import Tonatiuh.Trading.Api

/-! `OrdersOperationService.ts`.

A loop without a limit of its own is cut off after `bound` rounds; what is proved holds for every
`bound`, so it holds for every finite part of a run. `closeFilledPosition` and
`openPositionForStrategy` mark the orders they submit with the session and their purpose. -/

namespace Tonatiuh.Trading

open Async Config

/-- `Number(order.filled ?? 0)`. -/
def Order.filledOrZero (o : Order) : Rat := o.filled.getD 0

/-- `_resolveExecutedAmount`. The field `order` of a row is JSON text and a ccxt order has none, so
there is never a stored `filled`; only a row has an `orderId`. -/
def resolveExecutedAmount (order : TrackedOrder) (latest : Option Order) : Rat :=
  let latestFilled : Num := latest.bind (·.filled)
  let latestAmount : Num := latest.bind (·.amount)
  let storedAmount : Num := match order with
    | .row r => r.amount
    | .order _ => none
  if Num.positive latestFilled then latestFilled.getD 0
  else if latest.bind (·.status) = some .closed ∧ Num.positive latestAmount then latestAmount.getD 0
  else if Num.positive storedAmount then storedAmount.getD 0
  else 0

/-- The polls of `_waitForExecution`, the last `attempts` of 60, and what follows them. -/
def pollExecution (order : Order) : Nat → Prog Order
  | 0 => do
    request .cancelAllOrders
    let latest ← request (.checkStatusOrderById order.id)
    if 0 < latest.filledOrZero then return latest
    else throw s!"Order {order.id} was not executed within 60 seconds."
  | attempts + 1 => do
    let latest ← request (.checkStatusOrderById order.id)
    if latest.status = some .closed ∧ 0 < latest.filledOrZero then return latest
    else if latest.status ∈ [some .canceled, some .rejected, some .expired] then
      if 0 < latest.filledOrZero then return latest
      else throw (s!"Order {order.id} was " ++ (latest.status.map Status.text).getD "" ++
        " before execution.")
    else do
      request (.sleep 1000)
      pollExecution order attempts

/-- `_waitForExecution`. -/
def waitForExecution (order : Order) : Prog Order :=
  if 0 < order.filledOrZero ∧ order.status = some .closed then return order
  else pollExecution order 60

/-- The row that is saved for an executed order. The settings give what the report leaves out. -/
def Order.activated (o : Order) (session : Option SessionId) (side : Side) (price amount : Num) :
    OrderRow where
  session
  orderId := o.id
  price := o.average <|> o.price <|> price
  amount := o.filled <|> o.amount <|> amount
  side

/-- `openPositionForStrategy`. -/
def openPositionForStrategy (side : Side) (amount : Rat) (price : Num)
    (indexOperation : Option SessionId) : Prog Order := do
  let submittedOrder ← request (.createOrder .entry indexOperation side amount price)
  let newOrder ← waitForExecution submittedOrder
  request (.createOrderRow (newOrder.activated indexOperation side price (some amount)))
  modify (·.push newOrder)
  return newOrder

/-- The first loop of `closeFilledPosition`, over the array with number `g` from place `i` on. -/
def readFilledOrders (g : Nat) : Nat → Nat → List FilledOrderExposure →
    Prog (List FilledOrderExposure)
  | 0, _, _ => .unfinished
  | bound + 1, i, filledOrders => do
    let m ← get
    match (m.array g)[i]? with
    | none => return filledOrders
    | some order =>
      let status ← (request (.checkStatusOrderById order.exchangeOrderId)).orUndefined
      readFilledOrders g bound (i + 1) (filledOrders ++
        [{ side := order.side, filled := some (resolveExecutedAmount order status) }])

/-- What `closeFilledPosition` does once the exposure is known. -/
def submitClosingOrder (indexOperation : Option SessionId) (exposure : ClosingOrderExposure) :
    Prog Order := do
  let price ← request .getTick
  let submittedClosingOrder ←
    request (.createOrder .closing indexOperation exposure.side exposure.amount price)
  let closingOrder ← waitForExecution submittedClosingOrder
  if indexOperation.isSome then
    request (.createOrderRow
      (closingOrder.activated indexOperation exposure.side price (some exposure.amount)))
  modify (·.push closingOrder)
  return closingOrder

/-- `closeFilledPosition`. -/
def closeFilledPosition (bound : Nat) (indexOperation : Option SessionId) :
    Prog (Option Order) := do
  request .cancelAllOrders
  let m ← get
  if m.orders = [] then return none
  else
    let filledOrders ← readFilledOrders m.retired.length bound 0 []
    match calculateClosingOrderExposure filledOrders with
    | none => return none
    | some exposure => some <$> submitClosingOrder indexOperation exposure

/-- `openFirstPosition`; `isOnlyBuy` is the one of the configuration with which the service was
constructed. -/
def openFirstPosition (isOnlyBuy : Bool) (amount : Rat) (price lowestInCandle highestInCandle : Num)
    (indexOperation : Option SessionId) : Prog Order :=
  if isOnlyBuy then openPositionForStrategy .buy amount price indexOperation
  else if lowestInCandle.le price ∧ price.le highestInCandle then
    let sellSide := price.sub lowestInCandle
    let buySide := highestInCandle.sub price
    if sellSide.lt buySide then openPositionForStrategy .sell amount price indexOperation
    else openPositionForStrategy .buy amount price indexOperation
  else if price.lt lowestInCandle then openPositionForStrategy .buy amount price indexOperation
  else if highestInCandle.lt price then openPositionForStrategy .sell amount price indexOperation
  else throw "Cannot use 'in' operator to search for 'id' in undefined"

end Tonatiuh.Trading
