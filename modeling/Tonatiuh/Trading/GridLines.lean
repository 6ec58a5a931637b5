import Tonatiuh.Trading.Math

/-! `openLimitPositionByGridLineBuyLowSellHight` of `OrdersOperationService`. -/

namespace Tonatiuh.Trading

/-- `OpenPositionType`; nothing here sets `params`. -/
structure OpenPosition where
  symbol : String
  amount : Num
  price : Num
  deriving DecidableEq, Repr

structure LimitOrder extends OpenPosition where
  side : Side
  deriving DecidableEq, Repr

/-- `OrdersOperationService.orders`, and the limit orders that the exchange was asked for. -/
structure GridState (ρ : Type) where
  orders : List ρ := []
  submitted : List LimitOrder := []
  deriving DecidableEq, Repr

/-- How an iteration of a loop ends: with the next one, or with a `return`. -/
inductive Completion (ρ : Type) where
  | normal
  | returned (value : ρ)

/-- `OpenLimitPositionByGridLineType`; `tickPrice` is `ticker.last`. -/
structure GridParameters where
  mode : Side
  symbol : String
  positionSize : Num
  tickPrice : Num
  gridSize : Num
  numberGridLines : Nat
  deriving DecidableEq, Repr

section
variable {ρ : Type}
-- the answer to a limit order, after those that were submitted before
variable (exchange : List LimitOrder → LimitOrder → Except String ρ)

def createLimitOrder (side : Side) (position : OpenPosition) (s : GridState ρ) :
    Except String ρ × GridState ρ :=
  (exchange s.submitted { position with side },
    { s with submitted := s.submitted ++ [{ position with side }] })

def openLimitLongPosition : OpenPosition → GridState ρ → Except String ρ × GridState ρ :=
  createLimitOrder exchange .buy

def openLimitShortPosition : OpenPosition → GridState ρ → Except String ρ × GridState ρ :=
  createLimitOrder exchange .sell

def openLimitPositionByModeBuyOpenLongSellOpenShort (mode : Side) (positionData : OpenPosition)
    (s : GridState ρ) :
    Except String ρ × GridState ρ :=
  match mode with
  | .buy => openLimitLongPosition exchange positionData s
  | .sell => openLimitShortPosition exchange positionData s

namespace GridParameters

variable (p : GridParameters)

/-- The body of the loop. -/
def openGridLine (i : Nat) (s : GridState ρ) : Except String (Completion ρ) × GridState ρ :=
  let gridSizeForSizeOpen :=
    match p.mode with
    | .buy => (p.gridSize.mul (some i)).neg
    | .sell => p.gridSize.mul (some i)
  let price := p.tickPrice.add gridSizeForSizeOpen
  match openLimitPositionByModeBuyOpenLongSellOpenShort exchange p.mode
      { symbol := p.symbol, amount := p.positionSize, price } s with
  | (.error e, s) => (.error e, s)
  | (.ok order, s) => (.ok (.returned order), { s with orders := s.orders ++ [order] })

/-- The iterations from `i` on, of which `count` are left. -/
def openGridLines (i : Nat) : (count : Nat) → GridState ρ → Except String Unit × GridState ρ
  | 0, s => (.ok (), s)
  | count + 1, s =>
    match p.openGridLine exchange i s with
    | (.error e, s) => (.error e, s)
    | (.ok (.returned _), s) => (.ok (), s)
    | (.ok .normal, s) => openGridLines (i + 1) count s

end GridParameters

def openLimitPositionByGridLineBuyLowSellHight (p : GridParameters) (s : GridState ρ) :
    Except String Unit × GridState ρ :=
  p.openGridLines exchange 1 p.numberGridLines s

/-- `_openLimitPosition` of a strategy for a symbol. -/
def openLimitPosition (symbol : String) (side : Side) (p : GridParameters) (s : GridState ρ) :
    Except String Unit × GridState ρ :=
  openLimitPositionByGridLineBuyLowSellHight exchange { p with mode := side, symbol } s

/-! ## The grid -/

/-- The orders with which the exchange accepts limit orders one after the other. -/
inductive Accepts : List LimitOrder → List LimitOrder → List ρ → Prop where
  | nil : Accepts before [] []
  | cons : exchange before limitOrder = .ok order →
    Accepts (before ++ [limitOrder]) limitOrders orders →
      Accepts before (limitOrder :: limitOrders) (order :: orders)

/-- All lines are submitted and their orders are tracked, or those before the first that fails. -/
def PlacesGrid (lines : List LimitOrder) (s : GridState ρ)
    (result : Except String Unit × GridState ρ) : Prop :=
  ∃ placed orders, Accepts exchange s.submitted placed orders ∧
    result.2.orders = s.orders ++ orders ∧
    (placed = lines ∧ result.1 = .ok () ∧ result.2.submitted = s.submitted ++ lines ∨
      ∃ failed later e, lines = placed ++ failed :: later ∧
        exchange (s.submitted ++ placed) failed = .error e ∧
        result.1 = .error e ∧ result.2.submitted = s.submitted ++ placed ++ [failed])

end

namespace GridParameters

/-- The `i`-th line of the grid. -/
def line (p : GridParameters) (i : Nat) : LimitOrder where
  side := p.mode
  symbol := p.symbol
  amount := p.positionSize
  price :=
    match p.mode with
    | .buy => p.tickPrice.sub (p.gridSize.mul (some i))
    | .sell => p.tickPrice.add (p.gridSize.mul (some i))

def lines (p : GridParameters) : List LimitOrder :=
  (List.range p.numberGridLines).map fun i => p.line (i + 1)

variable {ρ : Type} {exchange : List LimitOrder → LimitOrder → Except String ρ}

theorem openGridLine_eq (p : GridParameters) (i : Nat) (s : GridState ρ) :
    p.openGridLine exchange i s =
      match exchange s.submitted (p.line i) with
      | .error e => (.error e, { s with submitted := s.submitted ++ [p.line i] })
      | .ok order => (.ok (.returned order),
        { orders := s.orders ++ [order], submitted := s.submitted ++ [p.line i] }) := by
  have hsub (a b : Num) : a.add b.neg = a.sub b := by
    cases a <;> cases b <;> simp [Num.add, Num.sub, Num.neg, sub_eq_add_neg]
  obtain ⟨mode, symbol, positionSize, tickPrice, gridSize, numberGridLines⟩ := p
  cases mode with
  | buy =>
    simp only [openGridLine, openLimitPositionByModeBuyOpenLongSellOpenShort, openLimitLongPosition,
      createLimitOrder, line, hsub]
    cases exchange s.submitted _ <;> rfl
  | sell =>
    simp only [openGridLine, openLimitPositionByModeBuyOpenLongSellOpenShort,
      openLimitShortPosition, createLimitOrder, line]
    cases exchange s.submitted _ <;> rfl

theorem lines_succ {p : GridParameters} {n : Nat} (h : p.numberGridLines = n + 1) :
    p.lines = p.line 1 :: (List.range n).map fun i => p.line (i + 2) := by
  rw [lines, h, List.range_succ_eq_map, List.map_cons, List.map_map]
  rfl

end GridParameters

/-- Without an error, all lines are submitted. -/
theorem PlacesGrid.submitted {ρ : Type} {exchange : List LimitOrder → LimitOrder → Except String ρ}
    {lines : List LimitOrder} {s : GridState ρ} {result : Except String Unit × GridState ρ}
    (h : PlacesGrid exchange lines s result) (hok : result.1 = .ok ()) :
    result.2.submitted = s.submitted ++ lines := by
  obtain ⟨placed, orders, _, _, ⟨_, _, hsubmitted⟩ | ⟨failed, later, e, _, _, herror, _⟩⟩ := h
  · exact hsubmitted
  · cases herror.symm.trans hok

/-- The first order that is accepted ends the loop, so the grid is placed exactly when it has one
line at most, or when already the first order fails. -/
theorem openLimitPositionByGridLine_placesGrid_iff {ρ : Type}
    (exchange : List LimitOrder → LimitOrder → Except String ρ) (p : GridParameters)
    (s : GridState ρ) :
    PlacesGrid exchange p.lines s (openLimitPositionByGridLineBuyLowSellHight exchange p s) ↔
      p.numberGridLines ≤ 1 ∨ ∃ e, exchange s.submitted (p.line 1) = .error e := by
  unfold openLimitPositionByGridLineBuyLowSellHight
  cases hn : p.numberGridLines with
  | zero =>
    have hlines : p.lines = [] := by rw [GridParameters.lines, hn]; rfl
    refine iff_of_true ⟨[], [], .nil, (List.append_nil _).symm,
      .inl ⟨hlines.symm, rfl, ?_⟩⟩ (.inl (Nat.zero_le 1))
    rw [hlines, List.append_nil]
    rfl
  | succ n =>
    rw [GridParameters.openGridLines, GridParameters.openGridLine_eq, GridParameters.lines_succ hn]
    cases hfirst : exchange s.submitted (p.line 1) with
    | error e =>
      refine iff_of_true ⟨[], [], .nil, (List.append_nil _).symm,
        .inr ⟨p.line 1, _, e, rfl, ?_, rfl, ?_⟩⟩
        (.inr ⟨e, rfl⟩)
      · rwa [List.append_nil]
      · rw [List.append_nil]
    | ok order =>
      constructor
      · intro h
        have hrest := congrArg List.length (List.append_cancel_left (h.submitted rfl))
        simp only [List.length_cons, List.length_nil, List.length_map, List.length_range] at hrest
        exact .inl (by omega)
      · rintro (hone | ⟨e, he⟩)
        · obtain rfl : n = 0 := by omega
          exact ⟨[p.line 1], [order], .cons hfirst .nil, rfl, .inl ⟨rfl, rfl, rfl⟩⟩
        · cases he

/-- Of three lines, the exchange is asked for the first only. -/
theorem openLimitPositionByGridLine_not_placesGrid :
    let exchange : List LimitOrder → LimitOrder → Except String Nat :=
      fun before _ => .ok before.length
    let p : GridParameters := ⟨.buy, "BTC/USDT", some 1, some 100, some 2, 3⟩
    ¬ PlacesGrid exchange p.lines
      {} (openLimitPositionByGridLineBuyLowSellHight exchange p {}) := by
  intro exchange p h
  exact absurd (congrArg List.length (h.submitted rfl)) (by decide)

end Tonatiuh.Trading
