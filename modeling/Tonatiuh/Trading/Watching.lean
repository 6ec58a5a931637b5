import Tonatiuh.Trading.Opening

/-! The rounds of `_watchingProcess` that go on: what they do to the tracked and the stored orders.

A round after which the loop goes on has either left both alone or bought back. The closing orders
that it may have submitted are neither tracked nor stored then: `closeFilledPosition` records its
order last, and then the session is ended. -/

namespace Tonatiuh.Trading

open Async Config

/-- Neither the tracked orders nor the stored ones have changed. -/
structure Same (s₀ t : Memory × World × Log) : Prop where
  orders : t.1.orders = s₀.1.orders
  indexOperation : t.1.indexOperation = s₀.1.indexOperation
  rows : t.2.1.orders = s₀.2.1.orders
  nonneg : t.2.1.exchange.Nonneg

section Same

variable {s₀ s t : Memory × World × Log}

theorem Same.refl (h : s.2.1.exchange.Nonneg) : Same s s := ⟨rfl, rfl, rfl, h⟩

theorem Same.trans (h : Same s₀ s) (h' : Same s t) : Same s₀ t where
  orders := h'.orders.trans h.orders
  indexOperation := h'.indexOperation.trans h.indexOperation
  rows := h'.rows.trans h.rows
  nonneg := h'.nonneg

/-- The rule of a request that stores nothing. -/
theorem Same.request {r : Request} (hr : r.storing = false) (h : Same s₀ s) :
    Safe observedContract (fun _ => Same s₀) (request r) s := by
  apply observed_rule
  intro s' outcome x w t hs hserve ht
  refine ⟨?_, ?_, ?_, ?_⟩
  · rw [ht.memory, hs.memory, h.orders]
  · rw [ht.memory, hs.memory, h.indexOperation]
  · exact ht.rows.trans (((serve_tables hserve).1 hr).trans (hs.rows.trans h.rows))
  · exact (serve_nonneg (h.nonneg.evolves hs.exchange) hserve).evolves ht.exchange

/-- Anything is safe when nothing is asked of it. -/
theorem observed_any {p : Prog α} (s : Memory × World × Log) :
    Safe observedContract (fun _ _ => True) p s := by
  induction p generalizing s with
  | pure | throw | unfinished => trivial
  | read k ih => exact ih _ s
  | write m k ih => exact ih _
  | await r k ih => exact fun _ _ => ⟨trivial, fun x _ _ t _ => ⟨trivial, ih x t⟩⟩

/-! ## Closing attempts that the loop survives -/

theorem pollExecution_same (h : Same s₀ s) (order : Order) (attempts : Nat) :
    Safe observedContract (fun _ => Same s₀) (pollExecution order attempts) s := by
  induction attempts generalizing s with
  | zero =>
    apply Safe.bind (h.request rfl)
    · intro _ t ht
      apply Safe.bind (ht.request rfl)
      · intro latest u hu
        split
        next => exact hu
        next => exact hu
      · exact fun _ _ hu => hu
    · exact fun _ _ ht => ht
  | succ attempts ih =>
    apply Safe.bind (h.request rfl)
    · intro latest t ht
      split
      next => exact ht
      next =>
        split
        next =>
          split
          next => exact ht
          next => exact ht
        next => exact Safe.bind (ht.request rfl) (fun _ u hu => ih hu) fun _ _ hu => hu
    · exact fun _ _ ht => ht

theorem waitForExecution_same (h : Same s₀ s) (order : Order) :
    Safe observedContract (fun _ => Same s₀) (waitForExecution order) s := by
  unfold waitForExecution
  split
  next => exact h
  next => exact pollExecution_same h order 60

theorem readFilledOrders_same (h : Same s₀ s) (g bound i : Nat) (l : List FilledOrderExposure) :
    Safe observedContract (fun _ => Same s₀) (readFilledOrders g bound i l) s := by
  induction bound generalizing s i l with
  | zero => trivial
  | succ bound ih =>
    unfold readFilledOrders
    rw [safe_get_bind]
    split
    next => exact h
    next =>
      apply Safe.bind (Q := fun _ => Same s₀)
      · exact Safe.orUndefined ((h.request rfl).mono fun x t ht => by cases x <;> exact ht)
      · exact fun status t ht => ih ht _ _
      · exact fun _ _ ht => ht

/-- The errors of `createOrder` of the repository are caught. -/
theorem createOrderRow_answered (row : OrderRow) :
    Safe observedContract (Ends (fun _ _ => True) fun _ => False)
    (request (.createOrderRow row)) s := by
  apply observed_rule
  intro s' outcome x w t _ hserve _
  cases outcome with
  | done => cases hserve; trivial
  | rejected e => cases hserve; trivial
  | _ => cases hserve

theorem submitClosingOrder_same (h : Same s₀ s) (session : Option SessionId)
    (exposure : ClosingOrderExposure) :
    Safe observedContract (Ends (fun _ _ => True) (Same s₀)) (submitClosingOrder session exposure)
      s := by
  apply Safe.bind (h.request rfl)
  · intro price t ht
    apply Safe.bind (ht.request rfl)
    · intro submitted u hu
      apply Safe.bind (waitForExecution_same hu submitted)
      · intro closing v hv
        cases session with
        | none => trivial
        | some session =>
          apply Safe.bind (createOrderRow_answered _)
          · exact fun _ _ _ => trivial
          · exact fun _ _ hf => hf.elim
      · exact fun _ _ hv => hv
    · exact fun _ _ hu => hu
  · exact fun _ _ ht => ht

/-- `closeFilledPosition` tracks and stores an order only if it returns it. -/
theorem closeFilledPosition_same (h : Same s₀ s) (bound : Nat) (session : Option SessionId) :
    Safe observedContract (Ends (fun closing t => closing = none → Same s₀ t) (Same s₀))
      (closeFilledPosition bound session) s := by
  apply Safe.bind (h.request rfl)
  · intro _ t ht
    rw [safe_get_bind]
    split
    next => exact fun _ => ht
    next =>
      apply Safe.bind (readFilledOrders_same ht _ _ _ _)
      · intro l u hu
        split
        next => exact fun _ => hu
        next exposure _ =>
          apply Safe.bind (submitClosingOrder_same hu session exposure)
          · exact fun _ _ _ hnone => by cases hnone
          · exact fun _ _ hv => hv
      · exact fun _ _ hu => hu
  · exact fun _ _ ht => ht

/-- A take-profit attempt after which the loop goes on. -/
theorem trackPrice_same (h : Same s₀ s) (bound : Nat) (side : Side) (indent : Num) (rounds : Nat)
    (targets : Num × Num) :
    Safe observedContract (Ends (fun closed t => closed = false → Same s₀ t) (Same s₀))
      (trackPrice bound side indent rounds targets) s := by
  induction rounds generalizing s targets with
  | zero => trivial
  | succ rounds ih =>
    unfold trackPrice
    rw [safe_get_bind]
    split
    next => exact h
    next =>
      apply Safe.bind (h.request rfl)
      · intro lastPrice t ht
        rw [safe_get_bind]
        split
        next => exact ht
        next =>
          apply Safe.bind (ht.request rfl)
          · intro _ u hu
            split
            next =>
              rw [safe_get_bind]
              apply Safe.bind (closeFilledPosition_same hu bound _)
              · intro closing v hv hnone
                exact hv (Option.not_isSome_iff_eq_none.mp (Bool.eq_false_iff.mp hnone))
              · exact fun _ _ hv => hv
            next => exact Safe.bind (hu.request rfl) (fun _ v hv => ih hv _) fun _ _ hv => hv
          · exact fun _ _ hu => hu
      · exact fun _ _ ht => ht

theorem watchingTakeProfitLogic_same (h : Same s₀ s) (bound : Nat) (side : Side) (pnl : Num) :
    Safe observedContract (Ends (fun closed t => closed = false → Same s₀ t) (Same s₀))
      (watchingTakeProfitLogic bound side pnl) s := by
  unfold watchingTakeProfitLogic
  rw [safe_get_bind]
  split
  next =>
    split
    next =>
      apply Safe.tryCatch (Q := Ends (fun closed t => closed = false → Same s₀ t) (Same s₀))
      · apply Safe.bind (h.request rfl)
        · intro price t ht
          rw [safe_get_bind]
          exact trackPrice_same ht bound _ _ _ _
        · exact fun _ _ ht => ht
      · exact fun _ _ ht => ht
      · exact fun _ _ ht _ => ht
    next =>
      apply Safe.bind (closeFilledPosition_same h bound _)
      · intro closing t ht hnone
        exact ht (Option.not_isSome_iff_eq_none.mp (Bool.eq_false_iff.mp hnone))
      · exact fun _ _ ht => ht
  next => exact fun _ => h

/-! ## A round -/

theorem observeMarket_same (h : Same s₀ s) (w : WatchState) :
    Safe observedContract
      (Ends (fun market t => Same s₀ t ∧ ∀ d, w.firstOrderSide = some d → market.entrySide = d)
        fun _ => True)
      (observeMarket w) s := by
  apply Safe.bind (Q := fun _ => Same s₀)
  · apply Safe.bind (h.request rfl)
    · intro config t ht
      cases config with
      | none => exact ht
      | some config => exact ⟨ht.orders, ht.indexOperation, ht.rows, ht.nonneg⟩
    · exact fun _ _ ht => ht
  · intro _ t ht
    apply Safe.bind (ht.request rfl)
    · intro balance u hu
      rw [safe_get_bind]
      split
      next => trivial
      next entrySide hside =>
        apply Safe.bind (hu.request rfl)
        · intro lastPrice v hv
          rw [safe_get_bind]
          have hresolved d (hd : w.firstOrderSide = some d) : entrySide = d := by
            rw [hd, resolvePositionSide] at hside
            exact (Except.ok.inj hside).symm
          split
          split
          next => trivial
          next =>
            split
            next => trivial
            next => exact ⟨hv, hresolved⟩
        · exact fun _ _ _ => trivial
    · exact fun _ _ _ => trivial
  · exact fun _ _ _ => trivial

/-- An order has been opened at a price, and tracked; maybe it has been stored. -/
structure Bought (s₀ t : Memory × World × Log) (side : Side) (amount : Rat) (price : Num)
    (order : Order) : Prop where
  orders : t.1.orders = s₀.1.orders ++ [.order order]
  indexOperation : t.1.indexOperation = s₀.1.indexOperation
  priced : price.isSome
  opened : ∃ n, OpenedOrder t.2.1.exchange n side amount order
  rows : t.2.1.orders =
      s₀.2.1.orders ++ [order.activated s₀.1.indexOperation side price (some amount)] ∨
    t.2.1.orders = s₀.2.1.orders

theorem openPositionForStrategy_bought (h : Same s₀ s) (side : Side) (amount : Rat) (price : Num) :
    Safe observedContract (Ends (fun order t => Bought s₀ t side amount price order) fun _ => True)
      (openPositionForStrategy side amount price s.1.indexOperation) s := by
  obtain ⟨m, w, log⟩ := s
  refine Safe.mono (openPositionForStrategy_observed m h.nonneg log side amount price _)
    fun x t ht => ?_
  cases ht with
  | unaccepted | unkept => trivial
  | kept hprice hopened hrows =>
    refine ⟨?_, h.indexOperation, hprice, ⟨_, hopened⟩, .inl ?_⟩
    · exact congrArg (· ++ _) h.orders
    · rw [← h.indexOperation, ← h.rows]
      exact hrows
  | unstored hprice hopened hrows =>
    refine ⟨?_, h.indexOperation, hprice, ⟨_, hopened⟩, .inr (hrows.trans h.rows)⟩
    exact congrArg (· ++ _) h.orders

/-- The state of the loop after a round that goes on. -/
inductive Continues (s₀ : Memory × World × Log) (w : WatchState) : WatchState →
    Memory × World × Log → Prop
  | same {t : Memory × World × Log} : Same s₀ t → Continues s₀ w w t
  | bought {t : Memory × World × Log} : (∀ d, w.firstOrderSide = some d → side = d) →
    Bought s₀ t side amount price order →
      Continues s₀ w { w with drawdownStep := w.drawdownStep + 1
                              buyingBack := Num.add w.buyingBack (some amount) } t

theorem Continues.since {w w' : WatchState} (h : Continues s₀ w w' s) (hs : Since s t) :
    Continues s₀ w w' t := by
  cases h with
  | same h =>
    refine .same ⟨?_, ?_, hs.rows.trans h.rows, h.nonneg.evolves hs.exchange⟩
    · rw [hs.memory, h.orders]
    · rw [hs.memory, h.indexOperation]
  | bought hside h =>
    obtain ⟨n, hopened⟩ := h.opened
    refine .bought hside ⟨?_, ?_, h.priced, ⟨n, hopened.evolves hs.exchange⟩, ?_⟩
    · rw [hs.memory, h.orders]
    · rw [hs.memory, h.indexOperation]
    · rw [hs.rows]
      exact h.rows

theorem buyBack_continues (h : Same s₀ s) (w : WatchState) (market : Market)
    (hside : ∀ d, w.firstOrderSide = some d → market.entrySide = d) :
    Safe observedContract (Ends (Continues s₀ w) fun _ => True) (buyBack w market) s := by
  obtain ⟨balance, side, lastPrice, metrics, buyBackAmount, deltaForSale, deltaForBuy⟩ := market
  dsimp only [buyBack]
  split
  next =>
    split
    next => trivial
    next free _ =>
      rw [safe_get_bind]
      split
      next => exact .same h
      next amount _ =>
        split
        next =>
          apply Safe.bind (openPositionForStrategy_bought h side amount lastPrice)
          · exact fun order t ht => .bought hside ht
          · exact fun _ _ _ => trivial
        next => exact .same h
  next => exact .same h

/-- A round that goes on has bought back, or has left the orders alone. -/
theorem watchRound_continues (h : s.2.1.exchange.Nonneg) (bound : Nat) (w : WatchState) :
    Safe observedContract
      (Ends (fun next t => ∀ w', next = some w' → Continues s w w' t) fun _ => True)
      (watchRound bound w) s := by
  apply Safe.bind (observeMarket_same (.refl h) w)
  · rintro market t ⟨ht, hside⟩
    rw [safe_get_bind]
    split
    next =>
      apply Safe.bind (observed_any t)
      · intro _ u _
        apply Safe.bind (observed_any u)
        · rintro _ v _ w' ⟨⟩
        · exact fun _ _ _ => trivial
      · exact fun _ _ _ => trivial
    next =>
      split
      next => trivial
      next =>
        split
        next =>
          apply Safe.bind (observed_any t)
          · rintro _ u _ w' ⟨⟩
          · exact fun _ _ _ => trivial
        next =>
          apply Safe.bind (watchingTakeProfitLogic_same ht bound _ _)
          · intro closed u hu
            cases closed with
            | true =>
              apply Safe.bind (observed_any u)
              · rintro _ v _ w' ⟨⟩
              · exact fun _ _ _ => trivial
            | false =>
              apply Safe.bind (buyBack_continues (hu rfl) w market hside)
              · intro w₁ v hv
                apply Safe.bind (observed_sleep (.refl v) rfl)
                · rintro _ x ⟨hx, _⟩ w' ⟨⟩
                  exact hv.since hx
                · exact fun _ _ _ => trivial
              · exact fun _ _ _ => trivial
          · exact fun _ _ _ => trivial
  · exact fun _ _ _ => trivial

/-! ## Entering the position -/

theorem openFirstPosition_bought (h : Same s₀ s) (isOnlyBuy : Bool) (amount : Rat)
    (price lowest highest : Num) :
    Safe observedContract
      (Ends (fun order t => ∃ side, Bought s₀ t side amount price order) fun _ => True)
      (openFirstPosition isOnlyBuy amount price lowest highest s.1.indexOperation) s := by
  have hopen side : Safe observedContract
      (Ends (fun order t => ∃ side, Bought s₀ t side amount price order) fun _ => True)
      (openPositionForStrategy side amount price s.1.indexOperation) s := by
    refine Safe.mono (openPositionForStrategy_bought h side amount price) fun x t ht => ?_
    cases x with
    | ok order => exact ⟨side, ht⟩
    | error e => trivial
  unfold openFirstPosition
  split
  next => exact hopen .buy
  next =>
    split
    next =>
      dsimp only
      split
      next => exact hopen .sell
      next => exact hopen .buy
    next =>
      split
      next => exact hopen .buy
      next =>
        split
        next => exact hopen .sell
        next => trivial

/-- What the loop starts with after the first order. -/
theorem enteringPosition_bought (h : s.2.1.exchange.Nonneg) (isOnlyBuy : Bool) :
    Safe observedContract
      (Ends (fun w t => ∃ side amount price order, Bought s t side amount price order ∧
        w = { firstOrderSide := some order.side, price, buyingBack := some amount
              drawdownStep := t.1.orders.length }) fun _ => True)
      (enteringPosition isOnlyBuy) s := by
  apply Safe.bind ((Same.refl h).request rfl)
  · intro price t ht
    apply Safe.bind (ht.request rfl)
    · intro candle u hu
      cases candle with
      | none => trivial
      | some candle =>
        apply Safe.bind (hu.request rfl)
        · intro _ v hv
          rw [safe_get_bind]
          apply Safe.bind (openFirstPosition_bought hv isOnlyBuy _ price _ _)
          · rintro order x ⟨side, hx⟩
            exact ⟨side, _, price, order, hx, rfl⟩
          · exact fun _ _ _ => trivial
        · exact fun _ _ _ => trivial
    · exact fun _ _ _ => trivial
  · exact fun _ _ _ => trivial

end Same

end Tonatiuh.Trading
