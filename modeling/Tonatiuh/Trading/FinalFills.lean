import Tonatiuh.Trading.Orders

/-! The fills that `_waitForExecution` returns are final.

Here the exchange is known by one order only. It reports the filled amount in every status, never
takes a fill back, and adds none once the order is closed, cancelled, rejected or expired. Apart
from that, its reports and the moments at which they are made are arbitrary. -/

namespace Tonatiuh.Trading

open Async

/-- The order on the exchange, and whether a request of the program has been rejected. -/
structure OrderHistory where
  executed : Rat
  isOpen : Bool
  rejected : Bool := false
  nonneg : 0 ≤ executed

namespace OrderHistory

/-- What may become of the order. -/
structure Evolves (s t : OrderHistory) : Prop where
  executed : s.executed ≤ t.executed
  settled : s.isOpen = false → t.isOpen = false ∧ t.executed = s.executed

theorem Evolves.refl (s : OrderHistory) : s.Evolves s := ⟨le_rfl, fun h => ⟨h, rfl⟩⟩

theorem Evolves.trans {s t u : OrderHistory} (h : s.Evolves t) (h' : t.Evolves u) :
    s.Evolves u := by
  refine ⟨h.executed.trans h'.executed, fun hs => ?_⟩
  obtain ⟨ht, heq⟩ := h.settled hs
  obtain ⟨hu, heq'⟩ := h'.settled ht
  exact ⟨hu, heq'.trans heq⟩

/-- The order has no fills but these, and will have none. -/
def Final (s : OrderHistory) (executed : Rat) : Prop := ∀ t, s.Evolves t → t.executed = executed

end OrderHistory

/-- The statuses of an order that is over. -/
def Status.isOver : Status → Bool
  | .opened => false
  | .closed | .canceled | .rejected | .expired => true

/-- A report of the order. Other statuses are left open. -/
structure Order.Reports (o : Order) (s : OrderHistory) : Prop where
  filled : o.filled = some s.executed
  ended : ∀ status ∈ o.status, status.isOver = true → s.isOpen = false

/-- How the exchange answers the requests about order `n`. -/
def OrderHistory.Served (n : OrderId) (s : OrderHistory) :
    (r : Request) → Except String r.Answer → OrderHistory → Prop
  | .checkStatusOrderById id, .ok latest, t => s.Evolves t ∧ (id = n → latest.Reports t)
  | .cancelAllOrders, .ok _, t => s.Evolves t ∧ t.isOpen = false
  | _, _, t => s.Evolves t

/-- The order evolves at any time, and a rejection is noted. -/
def historyContract (n : OrderId) : Contract api Memory OrderHistory String where
  rely s t := s.2.Evolves t.2 ∧ t.2.rejected = s.2.rejected
  rely_refl s := ⟨.refl s.2, rfl⟩
  rely_trans _ _ _ h h' := ⟨h.1.trans h'.1, h'.2.trans h.2⟩
  served r s x t := s.2.Served n r x t.2 ∧ t.2.rejected = (s.2.rejected || !x.isOk)
  pending _ _ := True
  ready _ := True
  pending_ready _ _ _ := trivial

/-- A returned order has the fills that are final, and an error of the program's own says that there
are none. -/
def FinallyFilled (x : Except String Order) (s : Memory × OrderHistory) : Prop :=
  match x with
  | .ok latest => ∃ q, latest.filled = some q ∧ 0 < q ∧ s.2.Final q
  | .error _ => s.2.rejected = true ∨ s.2.Final 0

section
variable {n : OrderId} {s : Memory × OrderHistory} {latest : Order}

/-- However a request is served, the order has evolved. -/
theorem OrderHistory.Served.evolves {r : Request} {x : Except String r.Answer} {s t : OrderHistory}
    (h : s.Served n r x t) : s.Evolves t := by
  unfold Served at h
  split at h
  next => exact h.1
  next => exact h.1
  next => exact h

theorem Order.Reports.filledOrZero {o : OrderHistory} (h : latest.Reports o) :
    latest.filledOrZero = o.executed := by
  rw [Order.filledOrZero, h.filled]
  rfl

/-- A report of an order that is over decides the result. -/
theorem finallyFilled_of_reports {o : OrderHistory} (h : latest.Reports o)
    (hover : o.isOpen = false) (hev : o.Evolves s.2) :
    (0 < latest.filledOrZero → FinallyFilled (.ok latest) s) ∧
      ∀ e, ¬ 0 < latest.filledOrZero → FinallyFilled (.error e) s := by
  have hfinal : s.2.Final o.executed := fun t ht => (hev.trans ht).settled hover |>.2
  rw [h.filledOrZero]
  refine ⟨fun hpos => ⟨_, h.filled, hpos, hfinal⟩, fun e hnot => .inr ?_⟩
  rwa [le_antisymm (not_lt.mp hnot) o.nonneg] at hfinal

/-- A request of the program: the answer, or a rejection that is noted. -/
theorem history_request {r : Request} {Q : Except String r.Answer → Memory × OrderHistory → Prop}
    (hok : ∀ a t u, s.2.Evolves t → (∃ o : OrderHistory, o.Served n r (.ok a) t) →
      t.Evolves u.2 → Q (.ok a) u)
    (herr : ∀ e u, u.2.rejected = true → Q (.error e) u) :
    Safe (historyContract n) Q (request r) s := by
  apply Safe.request
  rintro s' ⟨hs', -⟩
  refine ⟨trivial, ?_⟩
  rintro x t ⟨ht, hrejected⟩ u ⟨hu, hkept⟩
  refine ⟨trivial, ?_⟩
  cases x with
  | ok a => exact hok a t.2 u (hs'.trans ht.evolves) ⟨_, ht⟩ hu
  | error e => exact herr e u (hkept.trans (hrejected.trans (Bool.or_true _)))

/-- A status read. -/
theorem history_check : Safe (historyContract n) (fun x u => match x with
      | .ok latest => ∃ t, s.2.Evolves t ∧ latest.Reports t ∧ t.Evolves u.2
      | .error _ => u.2.rejected = true) (request (.checkStatusOrderById n)) s := by
  refine history_request (fun latest t u hs ht hu => ?_) fun _ _ h => h
  obtain ⟨o, ho⟩ := ht
  exact ⟨t, hs, ho.2 rfl, hu⟩

/-- The polls. -/
theorem pollExecution_final (order : Order) (attempts : Nat) :
    Safe (historyContract order.id) FinallyFilled (pollExecution order attempts) s := by
  induction attempts generalizing s with
  | zero =>
    -- after the cancellation the order is over, whatever the last report says of its status
    refine Safe.bind (Q := fun x t => match x with
      | .ok _ => t.2.isOpen = false
      | .error _ => t.2.rejected = true) ?_ ?_ fun e t ht => .inl ht
    · refine history_request (fun _ t u _ ht hu => ?_) fun _ _ h => h
      obtain ⟨o, ho⟩ := ht
      exact (hu.settled ho.2).1
    · intro _ t ht
      refine Safe.bind history_check ?_ fun e t ht => .inl ht
      rintro latest u ⟨o, ho, hreports, hu⟩
      obtain ⟨hfilled, hunfilled⟩ := finallyFilled_of_reports hreports (ho.settled ht).1 hu
      split
      next hpos => exact hfilled hpos
      next hnot => exact hunfilled _ hnot
  | succ attempts ih =>
    refine Safe.bind history_check ?_ fun e t ht => .inl ht
    rintro latest u ⟨o, -, hreports, hu⟩
    split
    next hclosed =>
      have hover := hreports.ended .closed hclosed.1 rfl
      exact (finallyFilled_of_reports hreports hover hu).1 hclosed.2
    next =>
      split
      next hover =>
        obtain ⟨status, hstatus, hisOver⟩ : ∃ status, latest.status = some status ∧
            status.isOver = true := by
          simp only [List.mem_cons, List.not_mem_nil, or_false] at hover
          rcases hover with h | h | h
          · exact ⟨_, h, rfl⟩
          · exact ⟨_, h, rfl⟩
          · exact ⟨_, h, rfl⟩
        obtain ⟨hfilled, hunfilled⟩ :=
          finallyFilled_of_reports hreports (hreports.ended status hstatus hisOver) hu
        split
        next hpos => exact hfilled hpos
        next hnot => exact hunfilled _ hnot
      next =>
        refine Safe.bind (Q := fun x t => match x with
          | .ok _ => True
          | .error _ => t.2.rejected = true) ?_ (fun _ _ _ => ih) fun e t ht => .inl ht
        exact history_request (fun _ _ _ _ _ _ => trivial) fun _ _ h => h

end

/-- Whatever the exchange reports and whenever it fills the order, an order is returned with a
positive filled amount that is final, and if the program throws an error although no request was
rejected, nothing was and will be executed. -/
theorem waitForExecution_final (order : Order) {accepted : OrderHistory} {s : Memory × OrderHistory}
    (hreports : order.Reports accepted) (hev : accepted.Evolves s.2) :
    Safe (historyContract order.id) FinallyFilled (waitForExecution order) s := by
  unfold waitForExecution
  split
  next hclosed =>
    exact (finallyFilled_of_reports hreports (hreports.ended .closed hclosed.2 rfl) hev).1 hclosed.1
  next => exact pollExecution_final order 60

/-! ## Orders of an account -/

namespace ExchangeOrder

/-- An order of an account, as the history of one order. -/
def history (o : ExchangeOrder) (h : 0 ≤ o.executed) : OrderHistory where
  executed := o.executed
  isOpen := o.status = .opened
  nonneg := h

theorem Evolves.history {full : Prop} {o o' : ExchangeOrder} (hev : o.Evolves full o')
    (h : 0 ≤ o.executed) :
    (o.history h).Evolves (o'.history (h.trans hev.executed)) := by
  refine ⟨hev.executed, fun hover => ?_⟩
  have hsettled := hev.settled (of_decide_eq_false hover)
  subst hsettled
  exact ⟨hover, rfl⟩

/-- A report that gives the filled amount. -/
theorem report_reports (o : ExchangeOrder) (h : 0 ≤ o.executed) (id : OrderId) {shape : Shape}
    (hfilled : shape.filled = true) : (o.report id shape).Reports (o.history h) where
  filled := if_pos hfilled
  ended := by
    intro status hstatus hover
    simp only [report] at hstatus
    split at hstatus
    next =>
      cases hstatus
      refine decide_eq_false fun hopen => ?_
      rw [hopen] at hover
      cases hover
    next => cases hstatus

end ExchangeOrder

/-- An order that is accepted without a fill. -/
theorem waitForExecution_final_accepted :
    Safe (historyContract 0) FinallyFilled
      (waitForExecution ((ExchangeOrder.accepted none .entry .buy 1 0).report 0 {}))
      ({ config := { apiKey := "", privateKey := "", password := "", symbol := "BTC/USDT",
                     exchange := .okx } },
        (ExchangeOrder.accepted none .entry .buy 1 0).history le_rfl) :=
  waitForExecution_final _ (ExchangeOrder.report_reports _ le_rfl 0 rfl) (.refl _)

end Tonatiuh.Trading
