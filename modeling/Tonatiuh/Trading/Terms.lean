import Tonatiuh.Trading.Position
import Tonatiuh.Trading.Worker

/-! The terms under which the trading process is verified.

`Terms.Meets` says which answers of the environment are admitted. `contract` turns the terms into
a rely-guarantee contract: while a task waits, open orders may execute or end and the other task
may do anything that leaves the tracked orders, the stored orders and the account alone. -/

namespace Tonatiuh.Trading

open Async Config

/-- Which failures are excluded: with `clean`, those that lose track of a closing order; with
`full`, those that cut off a closing order after a part of it has executed. -/
structure Terms where
  clean : Bool
  full : Bool

/-- The order is in the list of tracked orders. -/
def Memory.Tracks (m : Memory) (n : OrderId) : Prop := n ∈ m.orders.map (·.exchangeOrderId)

instance (m : Memory) (n : OrderId) : Decidable (m.Tracks n) :=
  inferInstanceAs (Decidable (n ∈ m.orders.map (·.exchangeOrderId)))

/-- An answered status read that reports `filled`. -/
def Outcome.reportsFilled : Outcome → Bool
  | .reported shape => shape.filled
  | _ => false

def Outcome.failed : Outcome → Bool
  | .done => false
  | _ => true

/-- Every closing order of the session that has executed or may execute is tracked. -/
def ClosingsTracked (m : Memory) (x : Exchange) : Prop :=
  ∀ n < x.length, ∀ o ∈ x[n]?, o.session = m.indexOperation → o.purpose = .closing →
    o.Accountable → m.Tracks n

/-- Every order of the session that has executed or may execute has its row. -/
def World.Recorded (w : World) (session : Option SessionId) : Prop :=
  ∀ n < w.exchange.length, ∀ o ∈ w.exchange[n]?, o.session = session → o.Accountable →
    n ∈ (w.rows session).map (·.orderId)

/-- The answers that the terms admit. -/
def Terms.Meets (terms : Terms) (m : Memory) (w : World) : Request → Outcome → Prop
  | .checkStatusOrderById n, outcome =>
    (m.Tracks n ∨ (terms.clean ∧ ∃ o ∈ w.exchange[n]?, o.purpose = .closing)) →
      outcome.reportsFilled
  | .createOrder .closing .., .lost _ => terms.clean = false
  | .cancelAllOrders, outcome =>
    (terms.full → ∀ o ∈ w.exchange, o.Uncut) ∧
      (terms.clean → outcome.failed → ClosingsTracked m w.exchange)
  | .getAllOrdersByIndexOperation session, .done => terms.clean → w.Recorded session
  | .startSession, .done => terms.clean → m.orders = []
  | _, _ => True

instance (m : Memory) (x : Exchange) : Decidable (ClosingsTracked m x) :=
  inferInstanceAs (Decidable (∀ n < x.length, ∀ o ∈ x[n]?, _ → _ → _ → _))

instance (w : World) (session : Option SessionId) : Decidable (w.Recorded session) :=
  inferInstanceAs (Decidable (∀ n < w.exchange.length, ∀ o ∈ w.exchange[n]?, _ → _ → _))

instance (terms : Terms) (m : Memory) (w : World) (r : Request) (outcome : Outcome) :
    Decidable (terms.Meets m w r outcome) := by
  cases r
  case createOrder purpose _ _ _ _ =>
    cases purpose <;> cases outcome <;> dsimp only [Terms.Meets] <;> infer_instance
  case checkStatusOrderById => dsimp only [Terms.Meets]; infer_instance
  case cancelAllOrders => dsimp only [Terms.Meets, ExchangeOrder.Uncut]; infer_instance
  case getAllOrdersByIndexOperation =>
    cases outcome <;> dsimp only [Terms.Meets] <;> infer_instance
  case startSession => cases outcome <;> dsimp only [Terms.Meets] <;> infer_instance
  all_goals exact isTrue trivial

/-- The executed amounts of the session cancel out, up to the tolerance of
`isSessionExposureClosed`. -/
def Exchange.Flat (x : Exchange) (session : Option SessionId) : Prop :=
  |x.net session| ≤ tolerance (x.traded session)

instance (x : Exchange) (session : Option SessionId) : Decidable (x.Flat session) :=
  inferInstanceAs (Decidable (_ ≤ _))

/-- The session that a request ends, or that it computes the profit of to end it. -/
def Request.ends : Request → Option (Option SessionId)
  | .endTradeSession _ session => some session
  | .getProfitForTradeSession session _ _ => some session
  | _ => none

/-- A session with an executed order is ended only when its position is flat. -/
def EndsFlat (full : Prop) (x : Exchange) (r : Request) : Prop :=
  ∀ session, r.ends = some session → full → 0 < x.traded session → x.Flat session

/-! ## Interference -/

/-- What may happen to the state while a task waits. -/
structure Interferes (full : Prop) (s t : Memory × World) : Prop where
  orders : t.1.orders = s.1.orders
  retired : t.1.retired = s.1.retired
  indexOperation : t.1.indexOperation = s.1.indexOperation
  services : t.1.services = s.1.services
  rows : t.2.orders = s.2.orders
  exchange : Exchange.Evolves full s.2.exchange t.2.exchange

namespace Interferes

variable {full : Prop} {s t u : Memory × World}

theorem refl (s : Memory × World) : Interferes full s s where
  orders := rfl
  retired := rfl
  indexOperation := rfl
  services := rfl
  rows := rfl
  exchange := .refl _

theorem trans (h : Interferes full s t) (h' : Interferes full t u) : Interferes full s u where
  orders := h'.orders.trans h.orders
  retired := h'.retired.trans h.retired
  indexOperation := h'.indexOperation.trans h.indexOperation
  services := h'.services.trans h.services
  rows := h'.rows.trans h.rows
  exchange := h.exchange.trans h'.exchange

end Interferes

/-- What a property of the account and the stored orders has to survive to be kept by a process
under the terms. -/
structure Kept (terms : Terms) (J : Exchange → List OrderRow → Prop) : Prop where
  nonneg : J x R → ∀ o ∈ x, 0 ≤ o.executed
  rows : terms.clean → J x R → ∀ row ∈ R, row.orderId < x.length
  evolves : J x R → Exchange.Evolves terms.full x x' → J x' R
  closes : J x R → Accounted session orders x → 0 < amount →
    side.sign * amount = -x.net session → 0 ≤ fill → fill ≤ amount →
    J (x ++ [.accepted session .closing side amount fill]) R
  records : J x R → x[n]? = some o → o.status ≠ .opened → 0 < o.executed →
    row.session = o.session → row.orderId = n → row.amount = some o.executed →
    row.side = o.side → (terms.clean → ∀ row ∈ R, row.orderId < n) → J x (R ++ [row])

/-- The contract of a task under the terms: `J` holds at every moment. -/
def contract (terms : Terms) (J : Exchange → List OrderRow → Prop) :
    Contract api Memory World String where
  rely := Interferes terms.full
  rely_refl := .refl
  rely_trans _ _ _ := .trans
  served r s x t := t.1 = s.1 ∧ ∃ outcome, terms.Meets s.1 s.2 r outcome ∧
    serve s.2 r outcome = some (x, t.2)
  pending r s := J s.2.exchange s.2.orders ∧ EndsFlat terms.full s.2.exchange r
  ready s := J s.2.exchange s.2.orders
  pending_ready _ _ h := h.1

/-- A state that `s₀` may have become by interference. -/
structure From (terms : Terms) (J : Exchange → List OrderRow → Prop) (s₀ s : Memory × World) :
    Prop extends Interferes terms.full s₀ s where
  holds : J s.2.exchange s.2.orders

section Rules

variable {terms : Terms} {J : Exchange → List OrderRow → Prop} {s₀ s₁ s t : Memory × World}

theorem From.refl (h : J s.2.exchange s.2.orders) : From terms J s s := ⟨.refl s, h⟩

theorem From.trans (h : From terms J s₀ s) (h' : From terms J s t) : From terms J s₀ t :=
  ⟨h.toInterferes.trans h'.toInterferes, h'.holds⟩

theorem From.interferes (hJ : Kept terms J) (h : From terms J s₀ s)
    (h' : Interferes terms.full s t) : From terms J s₀ t :=
  ⟨h.toInterferes.trans h', h'.rows ▸ hJ.evolves h.holds h'.exchange⟩

/-- The rule of a request under the contract. -/
theorem request_rule (hJ : Kept terms J) {r : Request} {Q : Except String r.Answer → _ → Prop}
    (h : From terms J s₀ s) (hends : ∀ t, From terms J s₀ t → EndsFlat terms.full t.2.exchange r)
    (hQ : ∀ s' outcome x w t, From terms J s₀ s' → terms.Meets s'.1 s'.2 r outcome →
      serve s'.2 r outcome = some (x, w) → Interferes terms.full (s'.1, w) t →
      J t.2.exchange t.2.orders ∧ Q x t) :
    Safe (contract terms J) Q (request r) s := by
  apply Safe.request
  intro s' hs'
  have hfrom := h.interferes hJ hs'
  refine ⟨⟨hfrom.holds, hends s' hfrom⟩, ?_⟩
  rintro x ⟨m, w⟩ ⟨hm, outcome, hmeets, hserve⟩ t ht
  cases hm
  exact hQ s' outcome x w t hfrom hmeets hserve ht

/-- The requests that change neither the orders of the account nor the stored ones, except that
open orders are cancelled. -/
def Request.quiet : Request → Bool
  | .createOrder .. | .createOrderRow _ | .revertOrderActiveStatus _ => false
  | _ => true

theorem serve_quiet {r : Request} {x : Except String r.Answer} (hq : r.quiet = true)
    (hmeets : terms.Meets m w r outcome) (h : serve w r outcome = some (x, w')) :
    w'.orders = w.orders ∧ Exchange.Evolves terms.full w.exchange w'.exchange := by
  unfold serve at h
  split at h
  case h_1 => cases h; exact ⟨rfl, .cancelAll hmeets.1⟩
  case h_2 => cases h; exact ⟨rfl, .cancelOrders hmeets.1⟩
  case h_3 =>
    obtain ⟨o, _, h⟩ := Option.map_eq_some_iff.mp h
    cases h
    exact ⟨rfl, .refl _⟩
  all_goals first
    | (cases h; exact ⟨rfl, .refl _⟩)
    | (cases h; done)
    | cases hq

end Rules

end Tonatiuh.Trading
