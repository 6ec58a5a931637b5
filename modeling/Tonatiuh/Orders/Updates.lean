import Mathlib.Algebra.Order.Floor.Ring
import Mathlib.Data.Rat.Floor
import Tonatiuh.Supervisor.Api
import Tonatiuh.Tables.Upsert
import Tonatiuh.Transition.Run
import Tonatiuh.Trading.Math

/-! Order updates: `_publishOrder` and `setOrders` of `OrdersOperationService.ts`,
`persistOrderUpdate` and `queueOrderUpdate` of `saas/worker.ts`, and the table `orders`.

A trading process publishes an order whenever it has asked the exchange for it. The worker writes
the updates of a bot one after another, in the order in which they come, and goes on after a write
that fails. Amounts are exact, and the bots are those that have a row. -/

namespace Tonatiuh.Orders

open Supervisor (BotId)
open Trading (Side)
open Tables

/-! ## Orders of the exchange -/

/-- An order as ccxt returns it. Any field may be missing; `info` is JSON text. -/
structure Order where
  id : Option String := none
  clientOrderId : Option String := none
  symbol : Option String := none
  side : Option Side := none
  type : Option String := none
  status : Option String := none
  filled : Trading.Num := none
  amount : Trading.Num := none
  price : Trading.Num := none
  info : Option String := none
  deriving DecidableEq, Repr

/-- A text that counts as true. -/
def given (text : Option String) : Option String := text.filter (· ≠ "")

/-- The statuses that the dashboard shows. -/
inductive DashboardStatus where
  | filled | cancelled | rejected | expired | partiallyFilled | opened
  deriving DecidableEq, Repr

/-- An `order-update` message. -/
structure OrderUpdate where
  exchangeOrderId : String
  clientOrderId : String
  symbol : String
  side : Side
  orderType : String
  status : DashboardStatus
  quantity : Rat
  price : Trading.Num
  rawResponse : String
  deriving DecidableEq, Repr

/-- `Number(order.filled ?? 0)`. -/
def Order.filledQuantity (order : Order) : Rat := order.filled.getD 0

/-- `_dashboardOrderStatus`. -/
def dashboardOrderStatus (order : Order) : DashboardStatus :=
  if order.status = some "closed" then .filled
  else if order.status = some "canceled" then .cancelled
  else if order.status = some "rejected" then .rejected
  else if order.status = some "expired" then .expired
  else if 0 < order.filledQuantity then .partiallyFilled
  else .opened

def Order.quantity (order : Order) : Rat :=
  if 0 < order.filledQuantity then order.filledQuantity else order.amount.getD 0

/-- The client order id of an update, made up when the exchange gives none. -/
def Order.publishedClientOrderId (order : Order) (id : String) : String :=
  (given order.clientOrderId).getD ("exchange-" ++ id)

/-- `_publishOrder`, of a process that has been forked. -/
def publishOrder (order : Order) : Option OrderUpdate := do
  let id ← given order.id
  let symbol ← given order.symbol
  let side ← order.side
  let type ← given order.type
  if order.quantity ≤ 0 then none
  else some {
    exchangeOrderId := id
    clientOrderId := order.publishedClientOrderId id
    symbol
    side
    orderType := type.toUpper
    status := dashboardOrderStatus order
    quantity := order.quantity
    price := order.price
    rawResponse := order.info.getD "{}" }

/-- A row of `trade_operation` as `setOrders` gets it. `order` is the object in its column, `{}` if
the text cannot be parsed, and `none` if the value is `null`. -/
structure StoredOrder where
  orderId : String
  symbol : String
  side : Side
  amount : Trading.Num
  price : Trading.Num
  order : Option Order
  deriving DecidableEq, Repr

/-- The object that `setOrders` publishes. -/
def StoredOrder.restored (stored : StoredOrder) (rawOrder : Order) : Order :=
  { rawOrder with
    id := some stored.orderId
    symbol := some stored.symbol
    side := some stored.side
    type := some (rawOrder.type.getD "limit")
    status := some (rawOrder.status.getD "open")
    amount := stored.amount
    price := stored.price }

/-- `setOrders`, up to the first row whose column is `null`. -/
def setOrders : List StoredOrder → List OrderUpdate
  | [] => []
  | stored :: orders =>
    match stored.order with
    | some rawOrder => (publishOrder (stored.restored rawOrder)).toList ++ setOrders orders
    | none => []

/-! ## Rows -/

/-- A row of `orders`. `client_order_id` is the text `botId:clientOrderId`; all UUIDs have the same
length. -/
structure OrderRow where
  botId : BotId
  exchangeOrderId : String
  clientOrderId : String
  symbol : String
  side : Side
  orderType : String
  status : DashboardStatus
  quantity : Rat
  price : Trading.Num
  rawResponse : String
  deriving DecidableEq, Repr

/-- `client_order_id`. -/
def OrderRow.key (row : OrderRow) : BotId × String := (row.botId, row.clientOrderId)

/-- The nearest multiple of `10 ^ -18`, halves away from zero. -/
def roundNumeric (q : Rat) : Rat :=
  let units := q * 10 ^ 18
  (if 0 ≤ units then ⌊units + 1 / 2⌋ else -⌊-units + 1 / 2⌋ : Int) / 10 ^ 18

/-- A number in a column of type `numeric(36, 18)`. -/
def numeric (q : Rat) : Except String Rat :=
  let rounded := roundNumeric q
  if |rounded| < 10 ^ 18 then .ok rounded else .error "numeric field overflow"

/-- The price, which may be `NULL`. -/
def numericOrNull : Trading.Num → Except String Trading.Num
  | some q => some <$> numeric q
  | none => .ok none

/-- The row that `persistOrderUpdate` inserts, when the checks of the table allow it. -/
def orderRow (botId : BotId) (order : OrderUpdate) : Except String OrderRow :=
  if order.quantity ≤ 0 then .error "Order update has an invalid quantity."
  else do
    let quantity ← numeric order.quantity
    let price ← numericOrNull order.price
    if quantity ≤ 0 then .error "new row for relation \"orders\" violates check constraint"
    else .ok {
      botId
      exchangeOrderId := order.exchangeOrderId
      clientOrderId := order.clientOrderId
      symbol := order.symbol
      side := order.side
      orderType := order.orderType
      status := order.status
      quantity
      price
      rawResponse := order.rawResponse }

def persistOrderUpdate (botId : BotId) (order : OrderUpdate) (rows : List OrderRow) :
    Except String (List OrderRow) := do
  let row ← orderRow botId order
  return upsert OrderRow.key row rows

/-! ## The worker -/

/-- `queues` holds the updates for which `orderWrites` has a write to come, the oldest first;
`persisted` are the updates that have been written, in this order. -/
structure System where
  rows : List OrderRow := []
  queues : BotId → List OrderUpdate := fun _ => []
  persisted : List (BotId × OrderUpdate) := []

inductive Event where
  /-- A trading process has an order from the exchange. -/
  | publish (botId : BotId) (order : Order)
  /-- A trading process has loaded its stored orders. -/
  | setOrders (botId : BotId) (orders : List StoredOrder)
  /-- The write of the oldest update succeeds. -/
  | persist (botId : BotId)
  /-- It fails. -/
  | fail (botId : BotId)
  /-- The worker ends, and what it has not written is lost. -/
  | restart

def System.enqueue (s : System) (botId : BotId) (updates : List OrderUpdate) : System :=
  { s with queues := Function.update s.queues botId (s.queues botId ++ updates) }

def System.step (s : System) : Event → Option System
  | .publish botId order => some (s.enqueue botId (publishOrder order).toList)
  | .setOrders botId orders => some (s.enqueue botId (setOrders orders))
  | .persist botId =>
    match s.queues botId with
    | order :: rest =>
      match persistOrderUpdate botId order s.rows with
      | .ok rows =>
        some {
          rows
          queues := Function.update s.queues botId rest
          persisted := s.persisted ++ [(botId, order)] }
      | .error _ => none
    | [] => none
  | .fail botId =>
    match s.queues botId with
    | _ :: rest => some { s with queues := Function.update s.queues botId rest }
    | [] => none
  | .restart => some { s with queues := fun _ => [] }

end Tonatiuh.Orders
