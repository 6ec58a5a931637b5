import Tonatiuh.Trading.Exchange

/-! `checkingOrdersWhenOrderStatusCloseCreateNewOrderForLiqudationOpenPositionsOnExchange` of
`OrdersCheckingService`.

Each read of the status of an order builds a new object. Amounts are exact. -/

namespace Tonatiuh.Trading

/-- An object; `===` tells where it is. -/
structure Object (α : Type) where
  address : Nat
  value : α

/-- `ParametersForCheckingOrdersForOpenOpposideSideType`, on a heap whose addresses below `heap` are
taken. -/
structure OrdersChecking where
  mode : Side
  symbol : String
  positionSize : Rat
  gridSize : Rat
  ordersForChecking : List (Object Order)
  heap : Nat
  taken : ∀ orderData ∈ ordersForChecking, orderData.address < heap

/-- A limit order as it is placed on the exchange. -/
structure PlacedOrder where
  id : OrderId
  side : Side
  symbol : String
  amount : Rat
  price : Num
  deriving DecidableEq, Repr

/-- `CheckingOrderType`, and the heap. -/
structure CheckingResult where
  orders : List PlacedOrder := []
  closedOrderIds : List OrderId := []
  heap : Nat

namespace OrdersChecking

/-- `ordersForChecking.indexOf(order)`. -/
def indexOf (c : OrdersChecking) (order : Object Order) : Int :=
  match c.ordersForChecking.findIdx? (·.address = order.address) with
  | some i => i
  | none => -1

section
-- for the order at each place of the list: the answers to the read of its status and to the
-- creation of its replacement
variable (status : Nat → Except String Order) (create : Nat → Except String OrderId)
  (c : OrdersChecking)

/-- The body of the loop. Errors are caught and logged. -/
def check (i : Nat) (result : CheckingResult) : CheckingResult :=
  match status i with
  | .error _ => result
  | .ok report =>
    let order : Object Order := ⟨result.heap, report⟩
    let result := { result with heap := result.heap + 1 }
    if report.status = some .closed then
      let result := { result with closedOrderIds := result.closedOrderIds ++ [report.id] }
      let increaseAveragePosition := c.indexOf order + 1
      let averagePosition := c.positionSize * increaseAveragePosition + c.gridSize
      let newPrice :=
        Num.add report.price
          (some (match c.mode with | .buy => averagePosition | .sell => -averagePosition))
      match create i with
      | .error _ => result
      | .ok id =>
        { result with orders := result.orders ++
            [{ id, side := c.mode.other, symbol := c.symbol, amount := c.positionSize,
               price := newPrice }] }
    else result

def checkingOrdersWhenOrderStatusClose : CheckingResult :=
  (List.range c.ordersForChecking.length).foldl (fun result i => c.check status create i result)
    { heap := c.heap }

/-! ## Replacements -/

/-- The order at a place, if it is found closed. -/
def closedAt (i : Nat) : Option (Nat × Order) :=
  match status i with
  | .error _ => none
  | .ok order => if order.status = some .closed then some (i, order) else none

/-- The orders that are found closed, with their places in the list. -/
def closedOrders : List (Nat × Order) :=
  (List.range c.ordersForChecking.length).filterMap (closedAt status)

/-- The replacement of a closed order, priced for the `n`-th place. -/
def replacement (n : Nat) (order : Order) (id : OrderId) : PlacedOrder where
  id
  side := c.mode.other
  symbol := c.symbol
  amount := c.positionSize
  price := order.price.map fun price =>
    match c.mode with
    | .buy => price + (c.positionSize * n + c.gridSize)
    | .sell => price - (c.positionSize * n + c.gridSize)

/-- There are as many new orders as closed ones, each the replacement of the one at the same
place. -/
structure Replaces (result : CheckingResult) : Prop where
  length : result.orders.length = result.closedOrderIds.length
  replaced : ∀ (k : Nat) (closedId : OrderId) (order : PlacedOrder),
    result.closedOrderIds[k]? = some closedId →
    result.orders[k]? = some order → ∃ i closed, (c.closedOrders status)[k]? = some (i, closed) ∧
      closed.id = closedId ∧ order = c.replacement (i + 1) closed order.id

end

variable {status : Nat → Except String Order} {create : Nat → Except String OrderId}
  {c : OrdersChecking}
  {order : Object Order} {result : CheckingResult}

/-- A new object is not in the list. -/
theorem indexOf_new (h : c.heap ≤ order.address) : c.indexOf order = -1 := by
  have hnone : c.ordersForChecking.findIdx? (·.address = order.address) = none := by
    refine List.findIdx?_eq_none_iff.mpr fun orderData hmem => ?_
    have := c.taken orderData hmem
    exact decide_eq_false (by omega)
  rw [indexOf, hnone]

/-- The new orders for closed ones. -/
def created (create : Nat → Except String OrderId) (c : OrdersChecking)
    (closed : List (Nat × Order)) :
    List PlacedOrder :=
  closed.filterMap fun entry => (create entry.1).toOption.map (c.replacement 0 entry.2)

theorem created_append (xs ys : List (Nat × Order)) :
    c.created create (xs ++ ys) = c.created create xs ++ c.created create ys :=
  List.filterMap_append

/-- The price of a replacement for the place that `indexOf` gives. -/
theorem replacement_zero (order : Order) (id : OrderId) :
    c.replacement 0 order id =
      { id, side := c.mode.other, symbol := c.symbol, amount := c.positionSize
        price := Num.add order.price
          (some (match c.mode with | .buy => c.gridSize | .sell => -c.gridSize)) } := by
  unfold replacement Num.add
  cases order.price with
  | none => rfl
  | some price => cases c.mode <;> simp [sub_eq_add_neg]

variable (status create) in
theorem check_spec (i : Nat) (hheap : c.heap ≤ result.heap) :
    c.heap ≤ (c.check status create i result).heap ∧
      (c.check status create i result).closedOrderIds =
        result.closedOrderIds ++ (closedAt status i).toList.map (·.2.id) ∧
      (c.check status create i result).orders =
        result.orders ++ c.created create (closedAt status i).toList := by
  have hheap' : c.heap ≤ result.heap + 1 := by omega
  unfold check closedAt
  cases status i with
  | error e => simp [created, hheap]
  | ok order =>
    dsimp only
    split
    next =>
      have hindex : c.indexOf ⟨result.heap, order⟩ = -1 := c.indexOf_new hheap
      cases hcreate : create i with
      | error e => simp [created, hcreate, Except.toOption, hheap']
      | ok id => simp [created, hcreate, Except.toOption, hindex, replacement_zero, hheap']
    next => simp [created, hheap']

/-- What the checks of the orders at the places `l` add to the result. -/
theorem foldl_check (l : List Nat) (hheap : c.heap ≤ result.heap) :
    (l.foldl (fun result i => c.check status create i result) result).closedOrderIds =
        result.closedOrderIds ++ (l.filterMap (closedAt status)).map (·.2.id) ∧
      (l.foldl (fun result i => c.check status create i result) result).orders =
        result.orders ++ c.created create (l.filterMap (closedAt status)) := by
  induction l generalizing result with
  | nil => simp [created]
  | cons i l ih =>
    obtain ⟨hheap', hids, horders⟩ := c.check_spec status create i hheap
    obtain ⟨hids', horders'⟩ := ih hheap'
    have hcons : (i :: l).filterMap (closedAt status) =
        (closedAt status i).toList ++ l.filterMap (closedAt status) := by
      rw [List.filterMap_cons]
      cases closedAt status i with
      | none => rfl
      | some entry => rfl
    rw [List.foldl_cons, hids', horders', hids, horders, hcons, List.map_append, created_append]
    exact ⟨List.append_assoc .., List.append_assoc ..⟩

theorem closedOrderIds_eq :
    (c.checkingOrdersWhenOrderStatusClose status create).closedOrderIds =
      (c.closedOrders status).map (·.2.id) :=
  (foldl_check _ le_rfl).1

theorem orders_eq :
    (c.checkingOrdersWhenOrderStatusClose status create).orders =
      c.created create (c.closedOrders status) :=
  (foldl_check _ le_rfl).2

theorem created_of_ok {closed : List (Nat × Order)}
    (h : ∀ entry ∈ closed, (create entry.1).isOk = true) :
    c.created create closed =
      closed.map fun entry => c.replacement 0 entry.2 ((create entry.1).toOption.getD 0) := by
  induction closed with
  | nil => rfl
  | cons entry closed ih =>
    obtain ⟨hentry, hclosed⟩ := List.forall_mem_cons.mp h
    rw [List.map_cons, ← ih hclosed, created, created, List.filterMap_cons]
    cases hcreate : create entry.1 with
    | error e => rw [hcreate] at hentry; cases hentry
    | ok id => rfl

/-- Without a position size or a price, the place of the order makes no difference. -/
theorem replacement_eq_zero_iff (i : Nat) (order : Order) (id : OrderId) :
    c.replacement 0 order id = c.replacement (i + 1) order id ↔
    c.positionSize = 0 ∨ order.price = none := by
  have hplace : (i : Rat) + 1 ≠ 0 := by positivity
  unfold replacement
  cases order.price with
  | none => simp
  | some price => cases c.mode <;> simp [hplace]

end OrdersChecking

open OrdersChecking

/-- The place of a fetched order in the list is never found, and an id is noted before its
replacement is created. So the replacements are those of the closed orders exactly when all of them
are created and their prices do not depend on a place. -/
theorem checkingOrdersWhenOrderStatusClose_replaces_iff (c : OrdersChecking)
    (status : Nat → Except String Order) (create : Nat → Except String OrderId) :
    c.Replaces status (c.checkingOrdersWhenOrderStatusClose status create) ↔
      ∀ entry ∈ c.closedOrders status,
        (create entry.1).isOk = true ∧ (c.positionSize = 0 ∨ entry.2.price = none) := by
  constructor
  · intro h
    have hok : ∀ entry ∈ c.closedOrders status, (create entry.1).isOk = true := by
      intro entry hentry
      have hlength := h.length
      rw [orders_eq, closedOrderIds_eq, List.length_map, created,
        List.filterMap_length_eq_length] at hlength
      have hsome := hlength entry hentry
      cases hcreate : create entry.1 with
      | error e => rw [hcreate] at hsome; cases hsome
      | ok id => rfl
    refine fun entry hentry => ⟨hok entry hentry, ?_⟩
    obtain ⟨k, hk⟩ := List.mem_iff_getElem?.mp hentry
    have hid : (c.checkingOrdersWhenOrderStatusClose status create).closedOrderIds[k]? =
        some entry.2.id := by
      rw [closedOrderIds_eq, List.getElem?_map, hk, Option.map_some]
    have horder : (c.checkingOrdersWhenOrderStatusClose status create).orders[k]? =
        some (c.replacement 0 entry.2 ((create entry.1).toOption.getD 0)) := by
      rw [orders_eq, created_of_ok hok, List.getElem?_map, hk, Option.map_some]
    obtain ⟨i, closed, hplace, -, heq⟩ := h.replaced k _ _ hid horder
    cases hk.symm.trans hplace
    exact (replacement_eq_zero_iff _ _ _).mp heq
  · intro h
    have hok : ∀ entry ∈ c.closedOrders status, (create entry.1).isOk = true :=
      fun entry hentry => (h entry hentry).1
    refine ⟨?_, fun k closedId order hid horder => ?_⟩
    · rw [orders_eq, created_of_ok hok, closedOrderIds_eq, List.length_map, List.length_map]
    · rw [closedOrderIds_eq, List.getElem?_map, Option.map_eq_some_iff] at hid
      obtain ⟨entry, hk, rfl⟩ := hid
      rw [orders_eq, created_of_ok hok, List.getElem?_map, hk, Option.map_some] at horder
      cases horder
      exact ⟨entry.1, entry.2, hk, rfl,
        (replacement_eq_zero_iff _ _ _).mpr (h entry (List.mem_of_getElem? hk)).2⟩

/-- Two closed buys at 100 with a position size of 1 and a grid size of 2: the replacement of the
first is offered at 102 instead of 103, and that of the second cannot be created. -/
theorem checkingOrdersWhenOrderStatusClose_not_replaces :
    let order (id : OrderId) : Order := ⟨id, .buy, some .closed, some 1, some 1, some 100, some 100⟩
    let c : OrdersChecking :=
      { mode := .buy, symbol := "BTC/USDT", positionSize := 1, gridSize := 2
        ordersForChecking := [⟨0, order 7⟩, ⟨1, order 8⟩], heap := 2, taken := by decide }
    let create : Nat → Except String OrderId :=
      fun i => if i = 0 then .ok 9 else .error "InsufficientFunds"
    let result := c.checkingOrdersWhenOrderStatusClose (fun i => .ok (order (7 + i))) create
    result.closedOrderIds = [7, 8] ∧ result.orders = [⟨9, .sell, "BTC/USDT", 1, some 102⟩] ∧
      ¬ c.Replaces (fun i => .ok (order (7 + i))) result := by
  intro order c create result
  have hids : result.closedOrderIds = [7, 8] := by decide +kernel
  have horders : result.orders = [⟨9, .sell, "BTC/USDT", 1, some 102⟩] := by decide +kernel
  refine ⟨hids, horders, fun h => ?_⟩
  have hlength := h.length
  rw [hids, horders] at hlength
  exact absurd hlength (by decide)

end Tonatiuh.Trading
