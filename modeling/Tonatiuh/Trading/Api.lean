import Tonatiuh.Async.Contract
import Tonatiuh.Config.Repository
import Tonatiuh.Trading.Exchange

/-! What the trading process shares with the world: its memory, the tables of its SQLite
database, and the requests it awaits.

The exchange is met at the level of `IExchangeService` (the retries of `_readWithRetry` are reads,
so a read is answered or rejected; `cancelAllOrders` either leaves no order open or throws). Each
request is served in one step at some moment between its await and its resumption; the `Outcome`
is what the environment chooses. Awaiting a promise that is already resolved lets no other task
in, because Node drains its microtasks before the next I/O callback, so such awaits are no
requests. Logging and messages to the supervisor are left out. -/

namespace Tonatiuh.Trading

open Async Config

/-- A row of `trade_operation`. -/
structure OrderRow where
  session : Option SessionId
  orderId : OrderId
  price : Num
  amount : Num
  side : Side
  isActive : Bool := true
  deriving DecidableEq, Repr

/-- A row of `trade_session`. Its random 45-character index is taken to be fresh: it is the place
of the row. -/
structure SessionRow where
  isActive : Bool := true
  profitSession : Num := some 0
  deriving DecidableEq, Repr

/-- A row of `balance_history`. Two rows are at least the five seconds apart that a session sleeps
before it starts, so the latest by `update_date` is the last. -/
structure BalanceRow where
  usdt : Num
  profitAll : Num
  profitUsdt : Num
  deriving DecidableEq, Repr

/-- The outside of the process. -/
structure World where
  exchange : Exchange := []
  orders : List OrderRow := []
  sessions : List SessionRow := []
  balances : List BalanceRow := []
  deriving DecidableEq, Repr

/-- An element of `OrdersOperationService.orders`: a ccxt order that was pushed after its
execution, or a row that `setOrders` loaded. -/
inductive TrackedOrder where
  | order (o : Order)
  | row (r : OrderRow)
  deriving DecidableEq, Repr

namespace TrackedOrder

/-- `order.orderId || String(order.id)`. -/
def exchangeOrderId : TrackedOrder → OrderId
  | order o => o.id
  | row r => r.orderId

def side : TrackedOrder → Side
  | order o => o.side
  | row r => r.side

def amount : TrackedOrder → Num
  | order o => o.amount
  | row r => r.amount

def price : TrackedOrder → Num
  | order o => o.price
  | row r => r.price

end TrackedOrder

/-- The memory of the process. `services` tells that `_initGeneralUtils` has run. `retired` holds
the arrays that `OrdersOperationService.orders` referred to before: a `for ... of` over one of
them goes on over it. -/
structure Memory where
  config : ConfigType
  services : Bool := false
  indexOperation : Option SessionId := none
  orders : List TrackedOrder := []
  retired : List (List TrackedOrder) := []
  isStopping : Bool := false

namespace Memory

/-- The array that was current when `g` arrays were retired. -/
def array (m : Memory) (g : Nat) : List TrackedOrder :=
  if g = m.retired.length then m.orders else m.retired.getD g []

/-- `this.orders = orders`. -/
def setOrders (m : Memory) (orders : List TrackedOrder) : Memory :=
  { m with orders, retired := m.retired ++ [m.orders] }

/-- `this.orders.push(order)`. -/
def push (m : Memory) (order : Order) : Memory := { m with orders := m.orders ++ [.order order] }

@[simp] theorem array_length (m : Memory) : m.array m.retired.length = m.orders := if_pos rfl

end Memory

/-- The free balances of the two currencies of the symbol and of USDT; `none` for a currency
that the exchange does not list. -/
structure Balances where
  first : Option Num := some none
  second : Option Num := some none
  usdt : Option Num := some none
  deriving DecidableEq, Repr

inductive Request where
  | cancelAllOrders
  | checkStatusOrderById (id : OrderId)
  | createOrder (purpose : Purpose) (session : Option SessionId) (side : Side) (amount : Rat)
      (price : Num)
  | getTick
  | fetchOHLCV
  | getBalance
  | getConfigById
  | disableEmergencyStop
  | createOrderRow (row : OrderRow)
  | getAllOrdersByIndexOperation (session : Option SessionId)
  | getProfitForTradeSession (session : Option SessionId) (closingOrderId : OrderId) (side : Side)
  | revertOrderActiveStatus (session : Option SessionId)
  | checkingActiveSession
  | startSession
  | endTradeSession (profitSession : Num) (session : Option SessionId)
  | getAllProfitSession
  | getBalanceState
  | createStateBalance (row : BalanceRow)
  | syncRuntimeConfig
  | recordLogger
  | loggerReady
  | loggerClose
  | sleep (ms : Nat)
  deriving DecidableEq, Repr

/-- What a request is answered with. -/
@[reducible] def Request.Answer : Request → Type
  | .checkStatusOrderById _ | .createOrder .. => Order
  | .getTick => Num
  | .fetchOHLCV => Option (Num × Num)
  | .getBalance => Balances
  | .getConfigById => Option ConfigType
  | .getAllOrdersByIndexOperation _ => List OrderRow
  | .getProfitForTradeSession .. | .getAllProfitSession => Num
  | .checkingActiveSession => Option SessionId
  | .startSession => SessionId
  | .getBalanceState => Option BalanceRow
  | _ => Unit

def api : Api := ⟨Request, Request.Answer⟩

/-- The programs of the trading process. An error is its message. -/
abbrev Prog := Program api Memory String

abbrev request (r : Request) : Prog r.Answer := Program.request (A := api) r

/-- How the environment serves a request. -/
inductive Outcome where
  | done
  | rejected (message : String)
  | partlyCancelled (ids : List OrderId)
  | reported (shape : Shape)
  | accepted (fill : Rat) (shape : Shape)
  | lost (fill : Rat)
  | tick (last : Num)
  | candle (lowHigh : Option (Num × Num))
  | balances (free : Balances)
  | config (config : Option ConfigType)

/-- The rows of a session, in the order in which they were inserted. -/
def World.rows (w : World) (session : Option SessionId) : List OrderRow :=
  w.orders.filter fun row => row.session = session

theorem World.rows_append {w w' : World} (h : w'.orders = w.orders ++ [row])
    (hsession : row.session = session) : w'.rows session = w.rows session ++ [row] := by
  rw [World.rows, h, List.filter_append, World.rows]
  simp [hsession]

theorem World.rows_congr {w w' : World} (h : w'.orders = w.orders) (session : Option SessionId) :
    w'.rows session = w.rows session := by
  rw [World.rows, h, World.rows]

/-- `sum` of SQLite: `NULL` is skipped, and the sum of nothing is `NULL`. -/
def sqlSum (values : List Num) : Num :=
  match values.reduceOption with
  | [] => none
  | q :: qs => some (q :: qs).sum

/-- The rows of a session that its end has not marked inactive. -/
def World.activeRows (w : World) (session : Option SessionId) : List OrderRow :=
  (w.rows session).filter (·.isActive)

/-- `OrderRepository.getProfitForTradeSession`; `none` is `NULL`. -/
def World.profit (w : World) (session : Option SessionId) (closingOrderId : OrderId) (side : Side) :
    Except String Num :=
  match (w.rows session).find? fun row => row.orderId = closingOrderId with
  | none => .error "Not found closed order!"
  | some closing =>
    let active := w.activeRows session
    let amounts := Num.mul (sqlSum (active.map (·.amount))) closing.price
    let costs := sqlSum (active.map fun row => Num.mul row.price row.amount)
    .ok (if side = .sell then Num.sub amounts costs else Num.sub costs amounts)

/-- A new order is accepted. -/
def World.accept (w : World) (o : ExchangeOrder) : World := { w with exchange := w.exchange ++ [o] }

/-- Serve a request: its answer or error, and the world after it. `createOrderRow`,
`revertOrderActiveStatus` and `createStateBalance` catch the errors of the database, and no timer
is rejected. The query of `getAllProfitSession` gives its column no name, so the `sum` that is read
from the result is `undefined`. -/
def serve (w : World) : (r : Request) → Outcome → Option (Except String r.Answer × World)
  | .cancelAllOrders, .done => some (.ok (), { w with exchange := w.exchange.cancelAll })
  | .cancelAllOrders, .partlyCancelled ids =>
    some (.error "Unable to cancel open orders", { w with exchange := w.exchange.cancelOrders ids })
  | .checkStatusOrderById id, .reported shape =>
    w.exchange[id]?.map fun o => (.ok (o.report id shape), w)
  | .createOrder purpose session side amount price, .accepted fill shape =>
    if 0 < amount ∧ 0 ≤ fill ∧ fill ≤ amount ∧ price.isSome then
      let o := ExchangeOrder.accepted session purpose side amount fill
      some (.ok (o.report w.exchange.length shape), w.accept o)
    else none
  | .createOrder purpose session side amount price, .lost fill =>
    if 0 < amount ∧ 0 ≤ fill ∧ fill ≤ amount ∧ price.isSome then
      let o := ExchangeOrder.accepted session purpose side amount fill
      some (.error "RequestTimeout", w.accept o)
    else none
  | .getTick, .tick last => some (.ok last, w)
  | .fetchOHLCV, .candle lowHigh => some (.ok lowHigh, w)
  | .getBalance, .balances free => some (.ok free, w)
  | .getConfigById, .config config => some (.ok config, w)
  | .disableEmergencyStop, .done => some (.ok (), w)
  | .createOrderRow row, .done => some (.ok (), { w with orders := w.orders ++ [row] })
  | .createOrderRow _, .rejected _ => some (.ok (), w)
  | .getAllOrdersByIndexOperation session, .done => some (.ok (w.rows session), w)
  | .getProfitForTradeSession session closingOrderId side, .done =>
    some (w.profit session closingOrderId side, w)
  | .revertOrderActiveStatus session, .done =>
    some (.ok (), { w with orders := w.orders.map fun row =>
      if row.session = session then { row with isActive := false } else row })
  | .revertOrderActiveStatus _, .rejected _ => some (.ok (), w)
  | .checkingActiveSession, .done => some (.ok (w.sessions.findIdx? (·.isActive)), w)
  | .startSession, .done =>
    some (.ok w.sessions.length, { w with sessions := w.sessions ++ [{}] })
  | .endTradeSession profitSession session, .done =>
    some (.ok (), { w with sessions := w.sessions.mapIdx fun i row =>
      if session = (some i) then { isActive := false, profitSession } else row })
  | .getAllProfitSession, .done => some (.ok none, w)
  | .getBalanceState, .done => some (.ok w.balances.getLast?, w)
  | .createStateBalance row, .done => some (.ok (), { w with balances := w.balances ++ [row] })
  | .createStateBalance _, .rejected _ => some (.ok (), w)
  | .syncRuntimeConfig, .done => some (.ok (), w)
  | .recordLogger, .done => some (.ok (), w)
  | .loggerReady, .done => some (.ok (), w)
  | .loggerClose, .done => some (.ok (), w)
  | .sleep _, .done => some (.ok (), w)
  | .sleep _, .rejected _ => none
  | _, .rejected message => some (.error message, w)
  | _, _ => none

/-- A request lets the orders of the account evolve, or adds one that is accepted. -/
theorem serve_exchange {r : Request} {x : Except String r.Answer}
    (h : serve w r outcome = some (x, w')) :
    Exchange.Evolves False w.exchange w'.exchange ∨
      ∃ purpose session side amount price fill, r = .createOrder purpose session side amount price ∧
        0 < amount ∧ 0 ≤ fill ∧ fill ≤ amount ∧
        w'.exchange = w.exchange ++ [.accepted session purpose side amount fill] := by
  unfold serve at h
  split at h
  case h_1 => cases h; exact .inl (.cancelAll nofun)
  case h_2 => cases h; exact .inl (.cancelOrders nofun)
  case h_3 =>
    obtain ⟨o, _, h⟩ := Option.map_eq_some_iff.mp h
    cases h
    exact .inl (.refl _)
  case h_4 | h_5 =>
    split at h
    next hc => cases h; exact .inr ⟨_, _, _, _, _, _, rfl, hc.1, hc.2.1, hc.2.2.1, rfl⟩
    next => cases h
  all_goals first
    | (cases h; exact .inl (.refl _))
    | cases h

/-- The requests that change stored orders. -/
def Request.storing : Request → Bool
  | .createOrderRow _ | .revertOrderActiveStatus _ => true
  | _ => false

/-- The requests that change the sessions or the balance history. -/
def Request.accounting : Request → Bool
  | .startSession | .endTradeSession _ _ | .createStateBalance _ => true
  | _ => false

/-- The tables that a request leaves alone. -/
theorem serve_tables {r : Request} {x : Except String r.Answer}
    (h : serve w r outcome = some (x, w')) :
    (r.storing = false → w'.orders = w.orders) ∧
      (r.accounting = false → w'.sessions = w.sessions ∧ w'.balances = w.balances) := by
  unfold serve at h
  split at h
  case h_3 =>
    obtain ⟨o, _, h⟩ := Option.map_eq_some_iff.mp h
    cases h
    exact ⟨fun _ => rfl, fun _ => ⟨rfl, rfl⟩⟩
  case h_4 | h_5 =>
    split at h
    next => cases h; exact ⟨fun _ => rfl, fun _ => ⟨rfl, rfl⟩⟩
    next => cases h
  all_goals first
    | (cases h; exact ⟨fun _ => rfl, fun _ => ⟨rfl, rfl⟩⟩)
    | (cases h; exact ⟨fun hr => (by cases hr), fun _ => ⟨rfl, rfl⟩⟩)
    | (cases h; exact ⟨fun _ => rfl, fun hr => (by cases hr)⟩)
    | cases h

theorem serve_nonneg {r : Request} {x : Except String r.Answer} (hw : w.exchange.Nonneg)
    (h : serve w r outcome = some (x, w')) : w'.exchange.Nonneg := by
  obtain hev | ⟨_, _, _, _, _, _, _, _, hfill, _, heq⟩ := serve_exchange h
  · exact hw.evolves hev
  · exact heq ▸ hw.append hfill

theorem serve_sound {r : Request} {x : Except String r.Answer} (hw : w.exchange.Sound)
    (h : serve w r outcome = some (x, w')) : w'.exchange.Sound := by
  obtain hev | ⟨_, _, _, _, _, _, _, _, hfill, hle, heq⟩ := serve_exchange h
  · exact hw.evolves hev
  · exact heq ▸ hw.append (.of_accepted hfill hle)

end Tonatiuh.Trading
