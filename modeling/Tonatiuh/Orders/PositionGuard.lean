import Tonatiuh.Commands.Routes
import Tonatiuh.Orders.OneRow

/-! The position guard of `DELETE /:id`.

The guard adds up the quantities of the filled orders of a bot. An order that has been cancelled,
has expired or is still open may have executed too; the guard does not see it, and it asks for a sum
of exactly zero, while a session counts as closed within a tolerance. -/

namespace Tonatiuh.Orders

open Commands (SaasHttpError)
open Supervisor (BotId TradingBot)
open Trading (Side Status tolerance)
open Tables Transition

/-! ## The route -/

/-- `SUM(CASE WHEN side='BUY' THEN quantity ELSE -quantity END)` over the filled orders of a bot. -/
def openQuantity (rows : List OrderRow) (botId : BotId) : Rat :=
  ((rows.filter fun row => row.botId = botId ∧ row.status = .filled).map fun row =>
    row.side.sign * row.quantity).sum

/-- The third check of `DELETE /:id`. -/
def positionGuard (rows : List OrderRow) (botId : BotId) : Except SaasHttpError Unit :=
  if openQuantity rows botId ≠ 0 then
    .error ⟨409, "BOT_HAS_OPEN_POSITION",
      "Close the filled position before deleting the bot.", .none⟩
  else .ok ()

/-- The checks before the DELETE command is stored. -/
def checkDeletable (bot : Option TradingBot) (rows : List OrderRow) (botId : BotId) :
    Except SaasHttpError Unit :=
  match bot with
  | none => .error ⟨404, "NOT_FOUND", "Bot was not found.", .none⟩
  | some bot =>
    if ¬bot.actualState.isDeletable then
      .error ⟨409, "BOT_NOT_DELETABLE", "Stop the bot before deleting it.", .none⟩
    else positionGuard rows botId

/-! ## Histories of orders -/

/-- An order in one of its states. An order that is closed has been filled completely. -/
structure OrderState where
  id : String
  clientOrderId : Option String
  symbol : String
  side : Side
  type : String
  amount : Rat
  executed : Rat
  status : Status
  price : Trading.Num
  info : Option String
  id_ne : id ≠ ""
  symbol_ne : symbol ≠ ""
  type_ne : type ≠ ""
  amount_pos : 0 < amount
  executed_nonneg : 0 ≤ executed
  executed_le : executed ≤ amount
  executed_closed : status = .closed → executed = amount

namespace OrderState

/-- The order as ccxt returns it in this state. -/
def report (o : OrderState) : Order where
  id := some o.id
  clientOrderId := o.clientOrderId
  symbol := some o.symbol
  side := some o.side
  type := some o.type
  status := some o.status.text
  filled := some o.executed
  amount := some o.amount
  price := o.price
  info := o.info

def signed (o : OrderState) : Rat := o.side.sign * o.executed

/-- The client order id under which it is published. -/
def publishedId (o : OrderState) : String := o.report.publishedClientOrderId o.id

end OrderState

/-- The states of the orders of a bot, in the order in which they are published. -/
abbrev History := List OrderState

namespace History

/-- The net quantity that the orders have executed. -/
def netExecuted (history : History) : Rat :=
  ((lastBy OrderState.id history).map OrderState.signed).sum

def traded (history : History) : Rat :=
  ((lastBy OrderState.id history).map OrderState.executed).sum

/-- The net executed quantity is zero within the tolerance of `isSessionExposureClosed`. -/
def IsFlat (history : History) : Prop := |history.netExecuted| ≤ tolerance history.traded

/-- Buys minus sells of the orders that have been filled completely, in the decimals of a column. An
order is known by its client order id. -/
def filledBalance (history : History) : Rat :=
  (((lastBy OrderState.publishedId history).filter fun o => o.status = .closed).map fun o =>
    o.side.sign * roundNumeric o.executed).sum

/-- The filled orders balance, but orders that were not filled completely leave a position. -/
def HidesPosition (history : History) : Prop :=
  history.filledBalance = 0 ∧ tolerance history.traded < |history.netExecuted|

/-- The filled orders do not balance to the last decimal, but the position is closed. -/
def LeavesRest (history : History) : Prop :=
  history.filledBalance ≠ 0 ∧ |history.netExecuted| ≤ tolerance history.traded

instance (history : History) : Decidable history.IsFlat := by
  unfold IsFlat
  infer_instance

instance (history : History) : Decidable history.HidesPosition := by
  unfold HidesPosition
  infer_instance

instance (history : History) : Decidable history.LeavesRest := by
  unfold LeavesRest
  infer_instance

end History

/-! ## Published states -/

variable {s s' : System} {botId : BotId} {row : OrderRow} {o : OrderState}

theorem dashboardOrderStatus_report :
    dashboardOrderStatus o.report = .filled ↔ o.status = .closed := by
  cases hs : o.status <;> simp [dashboardOrderStatus, OrderState.report, hs, Status.text]
  split <;> simp

theorem given_some {text : String} (h : text ≠ "") : given (some text) = some text := by
  simp [given, h]

/-- Every state is published, with the quantity that it has executed, or else with its amount. -/
theorem publishOrder_report : ∃ u, publishOrder o.report = some u ∧
    u.clientOrderId = o.publishedId ∧ u.side = o.side ∧
    (u.status = .filled ↔ o.status = .closed) ∧
    (o.status = .closed → u.quantity = o.executed) := by
  have hfilled (hclosed : o.status = .closed) : 0 < o.executed :=
    o.executed_closed hclosed ▸ o.amount_pos
  have hquantity : 0 < o.report.quantity := by
    change 0 < if 0 < o.executed then o.executed else o.amount
    rcases lt_or_ge 0 o.executed with hpos | hzero
    · rwa [if_pos hpos]
    · rw [if_neg (not_lt.mpr hzero)]
      exact o.amount_pos
  have hpublish : publishOrder o.report = some {
      exchangeOrderId := o.id
      clientOrderId := o.publishedId
      symbol := o.symbol
      side := o.side
      orderType := o.type.toUpper
      status := dashboardOrderStatus o.report
      quantity := o.report.quantity
      price := o.price
      rawResponse := o.info.getD "{}" } := by
    have hid : given o.report.id = some o.id := given_some o.id_ne
    have hsymbol : given o.report.symbol = some o.symbol := given_some o.symbol_ne
    have htype : given o.report.type = some o.type := given_some o.type_ne
    rw [publishOrder, hid, hsymbol, htype]
    exact if_neg (not_le.mpr hquantity)
  refine ⟨_, hpublish, rfl, rfl, dashboardOrderStatus_report, fun hclosed => ?_⟩
  simp [Order.quantity, Order.filledQuantity, OrderState.report, hfilled hclosed]

/-! ## The rows of a bot -/

/-- The updates of a bot that have been written. -/
def System.updatesOf (s : System) (botId : BotId) : List OrderUpdate :=
  (s.persisted.filter fun entry => entry.1 = botId).map (·.2)

/-- The rows of a bot are those of its updates, the last for each client order id. -/
def System.Stored (s : System) : Prop :=
  ∀ botId, ∃ written,
    List.Forall₂ (fun u row => orderRow botId u = .ok row) (s.updatesOf botId) written ∧
    s.rows.filter (fun row => row.botId = botId) = lastBy OrderRow.key written

theorem System.Stored.step (hs : s.Stored) {e : Event} (h : s.step e = some s') : s'.Stored := by
  intro b
  obtain ⟨written, hwritten, hrows⟩ := hs b
  obtain ⟨hrows', hpersisted, -⟩ | ⟨botId, order, rest, row, -, -, hrow, hrows', hpersisted⟩ :=
    step_cases h
  · refine ⟨written, ?_, by rw [hrows']; exact hrows⟩
    rw [updatesOf, hpersisted]
    exact hwritten
  · obtain ⟨hbot, -⟩ := orderRow_eq hrow
    rcases eq_or_ne botId b with rfl | hne
    · refine ⟨written ++ [row], ?_, ?_⟩
      · have hupdates : s'.updatesOf botId = s.updatesOf botId ++ [order] := by
          simp [updatesOf, hpersisted]
        rw [hupdates]
        exact List.rel_append hwritten (.cons hrow .nil)
      · rw [hrows', lastBy_concat, ← hrows]
        refine filter_upsert_of_key (by simpa using hbot) fun r hr => ?_
        rw [decide_eq_true_eq, ← hbot]
        exact congrArg Prod.fst hr
    · refine ⟨written, ?_, ?_⟩
      · have hupdates : s'.updatesOf b = s.updatesOf b := by
          simp [updatesOf, hpersisted, hne]
        rw [hupdates]
        exact hwritten
      · rw [hrows', filter_upsert (by simpa [hbot] using hne) fun r _ hr => ?_]
        · exact hrows
        · have hrbot : r.botId = botId := (congrArg Prod.fst hr).trans hbot
          simpa [hrbot] using hne

/-- A row shows what counts of a state. -/
structure OrderRow.Counts (botId : BotId) (o : OrderState) (row : OrderRow) : Prop where
  key : row.key = (botId, o.publishedId)
  side : row.side = o.side
  status : row.status = .filled ↔ o.status = .closed
  quantity : o.status = .closed → row.quantity = roundNumeric o.executed

theorem numeric_eq {q r : Rat} (h : numeric q = .ok r) : r = roundNumeric q := by
  simp only [numeric] at h
  split at h
  · exact (Except.ok.inj h).symm
  · cases h

theorem counts_of_orderRow {u : OrderUpdate} (hu : publishOrder o.report = some u)
    (hrow : orderRow botId u = .ok row) : row.Counts botId o := by
  obtain ⟨u', hu', hclient, hside, hstatus, hquantity⟩ := publishOrder_report (o := o)
  obtain rfl := Option.some.inj (hu.symm.trans hu')
  obtain ⟨hbot, -, hrclient, hshows⟩ := orderRow_eq hrow
  exact {
    key := by rw [OrderRow.key, hbot, hrclient, hclient]
    side := by rw [← hside]; exact orderRow_side hrow
    status := by rw [hshows.status]; exact hstatus
    quantity := fun hclosed => by rw [numeric_eq hshows.quantity, hquantity hclosed] }

/-- The rows that are written for a history of states. -/
theorem forall₂_counts {history : History} {updates : List OrderUpdate} {written : List OrderRow}
    (hupdates : updates = history.filterMap fun o => publishOrder o.report)
    (hwritten : List.Forall₂ (fun u row => orderRow botId u = .ok row) updates written) :
    List.Forall₂ (fun o row => OrderRow.Counts botId o row) history written := by
  induction history generalizing updates written with
  | nil =>
    subst hupdates
    cases hwritten
    exact .nil
  | cons o history ih =>
    obtain ⟨u, hu, -⟩ := publishOrder_report (o := o)
    simp only [List.filterMap_cons, hu] at hupdates
    subst hupdates
    cases hwritten with
    | cons hrow hrest => exact .cons (counts_of_orderRow hu hrow) (ih rfl hrest)

/-- The sum over the filled rows is the sum over the closed orders. -/
theorem sum_filled {states : List OrderState} {rows : List OrderRow}
    (h : List.Forall₂ (fun o row => OrderRow.Counts botId o row) states rows) :
    ((rows.filter fun row => row.status = .filled).map fun row =>
      row.side.sign * row.quantity).sum =
      ((states.filter fun o => o.status = .closed).map fun o =>
        o.side.sign * roundNumeric o.executed).sum := by
  induction h with
  | nil => rfl
  | @cons o row states rows hrow _ ih =>
    by_cases hclosed : o.status = .closed
    · rw [List.filter_cons_of_pos (by simpa using hrow.status.mpr hclosed),
        List.filter_cons_of_pos (by simpa using hclosed), List.map_cons,
        List.map_cons, List.sum_cons, List.sum_cons, ih, hrow.side, hrow.quantity hclosed]
    · rw [List.filter_cons_of_neg (by simpa using fun hfilled => hclosed (hrow.status.mp hfilled)),
        List.filter_cons_of_neg (by simpa using hclosed), ih]

/-- What the guard adds up once every state of the history has been written. -/
theorem System.Stored.openQuantity (hs : s.Stored) {history : History}
    (hupdates : s.updatesOf botId = history.filterMap fun o => publishOrder o.report) :
    openQuantity s.rows botId = history.filledBalance := by
  obtain ⟨written, hwritten, hrows⟩ := hs botId
  have hcounts := forall₂_counts hupdates hwritten
  have hlast : List.Forall₂ (fun o row => OrderRow.Counts botId o row)
      (lastBy OrderState.publishedId history) (lastBy OrderRow.key written) := by
    refine forall₂_lastBy hcounts fun o row o' row' hrow hrow' => ?_
    rw [hrow.key, hrow'.key, Prod.mk.injEq]
    simp
  rw [Orders.openQuantity, History.filledBalance, ← sum_filled hlast, ← hrows, List.filter_filter]
  congr 2
  refine List.filter_congr fun row _ => ?_
  rw [Bool.decide_and, Bool.and_comm]

theorem positionGuard_ok {rows : List OrderRow} :
    positionGuard rows botId = .ok () ↔ openQuantity rows botId = 0 := by
  simp [positionGuard]

/-- When every state of the orders of a bot has been published and written, the guard lets the bot
go exactly when its position is closed, but for two kinds of histories. -/
theorem positionGuard_iff {es : List Event} (hrun : Run (Stepping System.step) {} es s)
    {history : History}
    (hupdates : s.updatesOf botId = history.filterMap fun o => publishOrder o.report) :
    (positionGuard s.rows botId = .ok () ↔ history.IsFlat) ↔
      ¬history.HidesPosition ∧ ¬history.LeavesRest := by
  have hstored : s.Stored := by
    refine hrun.invariant (fun _ _ _ hs hstep => hs.step hstep) fun b => ⟨[], ?_, rfl⟩
    exact .nil
  rw [positionGuard_ok, hstored.openQuantity hupdates, History.IsFlat, History.HidesPosition,
    History.LeavesRest, ← not_le]
  tauto

/-- An order for 2. -/
def orderOfTwo (id : String) (side : Side) (executed : Rat) (status : Status)
    (h : id ≠ "" ∧ 0 ≤ executed ∧ executed ≤ 2) (hclosed : status = .closed → executed = 2) :
    OrderState where
  id
  clientOrderId := none
  symbol := "BTC/USDT"
  side
  type := "limit"
  amount := 2
  executed
  status
  price := some 100
  info := none
  id_ne := h.1
  symbol_ne := by decide
  type_ne := by decide
  amount_pos := by decide
  executed_nonneg := h.2.1
  executed_le := h.2.2
  executed_closed := hclosed

/-- All states of a history, as they are published and written for one bot. -/
def written (history : History) : List Event :=
  history.flatMap fun o => [.publish 0 o.report, .persist 0]

/-- A bot buys in two parts, and sells what it has bought. -/
def soldAgain : History :=
  [orderOfTwo "1001" .buy 0 .opened (by decide) (by decide),
    orderOfTwo "1001" .buy 1 .opened (by decide) (by decide),
    orderOfTwo "1001" .buy 2 .closed (by decide) (by decide),
    orderOfTwo "1002" .sell 0 .opened (by decide) (by decide),
    orderOfTwo "1002" .sell 2 .closed (by decide) (by decide)]

theorem soldAgain_enabled : (exec System.step {} (written soldAgain)).isSome := by decide +kernel

theorem positionGuard_iff_soldAgain :
    positionGuard ((exec System.step {} (written soldAgain)).get soldAgain_enabled).rows 0 =
      .ok () ↔
      soldAgain.IsFlat :=
  (positionGuard_iff (Run.of_exec_get soldAgain_enabled) (by decide +kernel)).mpr
    (by decide +kernel)

/-- An order is filled by half and cancelled. -/
def cancelledHalf : History :=
  [orderOfTwo "1001" .buy 0 .opened (by decide) (by decide),
    orderOfTwo "1001" .buy 1 .opened (by decide) (by decide),
    orderOfTwo "1001" .buy 1 .canceled (by decide) (by decide)]

theorem cancelledHalf_enabled : (exec System.step {} (written cancelledHalf)).isSome := by
  decide +kernel

/-- A bot with a position of 1 passes the guard. -/
theorem position_hidden :
    ¬∀ (botId : BotId) (es : List Event) (s : System) (history : History),
      Run (Stepping System.step) {} es s →
      s.updatesOf botId = (history.filterMap fun o => publishOrder o.report) →
      (positionGuard s.rows botId = .ok () ↔ history.IsFlat) := by
  intro h
  have hiff := h 0 _ _ cancelledHalf (Run.of_exec_get cancelledHalf_enabled) (by decide +kernel)
  have hguard : openQuantity
      ((exec System.step {} (written cancelledHalf)).get cancelledHalf_enabled).rows 0 = 0 := by
    decide +kernel
  have hopen : ¬cancelledHalf.IsFlat := by decide +kernel
  exact hopen (hiff.mp (positionGuard_ok.mpr hguard))

end Tonatiuh.Orders
