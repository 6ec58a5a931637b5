import Mathlib.Algebra.Order.BigOperators.Group.List
import Tonatiuh.Trading.Watching

/-! Restarting in the middle of a session.

The loop computes its quantities from the reports in memory, which hold the requested amount and
the limit price; after a restart it computes them from the stored rows, which hold the executed
amount and the average price. -/

namespace Tonatiuh.Trading

open Async Config

/-! ## The quantities of the loop -/

/-- What a round computes before it looks at the market. -/
structure Quantities where
  entrySide : Side
  entryAmount : Num
  averageEntryPrice : Num
  buyingBack : Num
  drawdownStep : Nat
  deriving DecidableEq

def quantities (orders : List TrackedOrder) (w : WatchState) : Except String Quantities :=
  (resolvePositionSide w.firstOrderSide (orders.map (·.side))).map fun entrySide =>
    let (averageEntryPrice, entryAmount) := entryAverage orders entrySide w.price
    { entrySide, entryAmount, averageEntryPrice
      buyingBack := w.buyingBack, drawdownStep := w.drawdownStep }

/-- The head of the loop in a run that opened a first order in a new session, and then went
through any number of rounds. -/
inductive Watched (bound : Nat) : Memory × World → WatchState → Prop
  | entered {s s' : Memory × World} : s.1.orders = [] → s.2.rows s.1.indexOperation = [] →
      s.2.exchange.Sound → Returns environment (enteringPosition isOnlyBuy) s t (.ok w) s' →
      Watched bound s' w
  | round : Watched bound s w → Returns environment (watchRound bound w) s t (.ok (some w')) s' →
      Watched bound s' w'

/-- An order that opened or enlarged the position. -/
structure Entry where
  order : Order
  side : Side
  requested : Rat
  executed : Rat
  price : Num
  stored : Bool

def Entry.row (p : Entry) (session : Option SessionId) : OrderRow :=
  p.order.activated session p.side p.price (some p.requested)

structure Entry.Valid (p : Entry) (d : Side) : Prop where
  side : p.side = d
  reportedSide : p.order.side = d
  priced : p.price.isSome
  filled : p.order.filled = some p.executed
  pos : 0 < p.executed
  bounded : p.executed ≤ p.requested
  amount : p.order.amount = none ∨ p.order.amount = some p.requested

/-- The orders that are tracked and stored in session `session`, in side `d`. -/
structure Holds (session : Option SessionId) (d : Side) (l : List Entry) (s : Memory × World)
    (w : WatchState) : Prop where
  indexOperation : s.1.indexOperation = session
  orders : s.1.orders = l.map (.order ·.order)
  rows : s.2.rows session = (l.filter (·.stored)).map (·.row session)
  valid : ∀ p ∈ l, p.Valid d
  nonempty : l ≠ []
  firstOrderSide : w.firstOrderSide = some d
  buyingBack : w.buyingBack = some (l.map (·.requested)).sum
  drawdownStep : w.drawdownStep = l.length
  sound : s.2.exchange.Sound

/-- What has been bought is one more entry. -/
theorem Bought.entry {s t : Memory × World × Log} (h : Bought s t side amount price order)
    (hsound : t.2.1.exchange.Sound) :
    ∃ p : Entry, p.order = order ∧ p.requested = amount ∧ p.side = side ∧ p.Valid side ∧
      t.2.1.rows s.1.indexOperation = s.2.1.rows s.1.indexOperation ++
        ([p].filter (·.stored)).map (·.row s.1.indexOperation) := by
  obtain ⟨n, hopened⟩ := h.opened
  obtain ⟨_, o, ho, _, hpos, hfilled, _, hamount⟩ := hopened.executed
  have heq := hopened.amount o ho
  have hbounded := (hsound o (List.mem_of_getElem? ho)).bounded
  have hvalid (stored : Bool) : Entry.Valid ⟨order, side, amount, o.executed, price, stored⟩ side :=
    ⟨rfl, hopened.side, h.priced, hfilled, hpos, heq ▸ hbounded, heq ▸ hamount⟩
  obtain hrows | hrows := h.rows
  · exact ⟨_, rfl, rfl, rfl, hvalid true, World.rows_append hrows rfl⟩
  · refine ⟨_, rfl, rfl, rfl, hvalid false, ?_⟩
    rw [World.rows_congr hrows]
    exact (List.append_nil _).symm

theorem Holds.bought {s t : Memory × World} (h : Holds session d l s w)
    (hb : Bought (s.1, s.2, log) (t.1, t.2, log') d amount price order)
    (hsound : t.2.exchange.Sound) :
    ∃ l', Holds session d l' t { w with drawdownStep := w.drawdownStep + 1
                                        buyingBack := Num.add w.buyingBack (some amount) } := by
  obtain ⟨p, rfl, rfl, hside, hvalid, hrows⟩ := hb.entry hsound
  rw [h.indexOperation] at hrows
  refine ⟨l ++ [p], hb.indexOperation.trans h.indexOperation, ?_, ?_, ?_, by simp,
    h.firstOrderSide, ?_, ?_, hsound⟩
  · rw [List.map_append, ← h.orders]
    exact hb.orders
  · rw [List.filter_append, List.map_append, ← h.rows]
    exact hrows
  · exact List.forall_mem_append.mpr ⟨h.valid, List.forall_mem_singleton.mpr hvalid⟩
  · rw [h.buyingBack, List.map_append, List.sum_append]
    simp [Num.add]
  · rw [h.drawdownStep, List.length_append, List.length_singleton]

theorem Holds.same {s t : Memory × World} (h : Holds session d l s w)
    (hs : Same (s.1, s.2, log) (t.1, t.2, log')) (hsound : t.2.exchange.Sound) :
    Holds session d l t w where
  indexOperation := hs.indexOperation.trans h.indexOperation
  orders := hs.orders.trans h.orders
  rows := (World.rows_congr hs.rows session).trans h.rows
  valid := h.valid
  nonempty := h.nonempty
  firstOrderSide := h.firstOrderSide
  buyingBack := h.buyingBack
  drawdownStep := h.drawdownStep
  sound := hsound

theorem Holds.entered {s t : Memory × World} (horders : s.1.orders = [])
    (hrows : s.2.rows s.1.indexOperation = [])
    (hb : Bought (s.1, s.2, log) (t.1, t.2, log') side amount price order)
    (hsound : t.2.exchange.Sound) :
    ∃ d l, Holds t.1.indexOperation d l t
      { firstOrderSide := some order.side, price, buyingBack := some amount
        drawdownStep := t.1.orders.length } := by
  obtain ⟨p, rfl, rfl, hside, hvalid, hp⟩ := hb.entry hsound
  have hindex : t.1.indexOperation = s.1.indexOperation := hb.indexOperation
  have ht : t.1.orders = s.1.orders ++ [.order p.order] := hb.orders
  refine ⟨side, [p], rfl, ?_, ?_, List.forall_mem_singleton.mpr hvalid, by simp, ?_, by simp, ?_,
    hsound⟩
  · rw [ht, horders]
    rfl
  · rw [hindex]
    exact hp.trans (by rw [hrows, List.nil_append])
  · exact congrArg some hvalid.reportedSide
  · rw [ht, horders]
    rfl

theorem Watched.holds (h : Watched bound s w) : ∃ d l, Holds s.1.indexOperation d l s w := by
  induction h with
  | @entered isOnlyBuy t w s s' horders hrows hsound hrun =>
    have hsound' := Exec.sound hrun hsound
    have hnonneg : s.2.exchange.Nonneg := fun o ho => (hsound o ho).nonneg
    obtain ⟨side, amount, price, order, hb, rfl⟩ :=
      (enteringPosition_bought (s := (s.1, s.2, {})) hnonneg isOnlyBuy).returns
        observing_covers (hrun.observed Log.note {})
    exact Holds.entered horders hrows hb hsound'
  | @round s w t w' s' _ hrun ih =>
    obtain ⟨d, l, h⟩ := ih
    have hsound' := Exec.sound hrun h.sound
    have hnonneg : s.2.exchange.Nonneg := fun o ho => (h.sound o ho).nonneg
    have hnext := (watchRound_continues (s := (s.1, s.2, {})) hnonneg bound w).returns
      observing_covers (hrun.observed Log.note {}) w' rfl
    generalize hs' : (s'.1, s'.2, t.foldl Log.note {}) = u at hnext
    cases hnext with
    | same hs =>
      subst hs'
      have hindex : s'.1.indexOperation = s.1.indexOperation := hs.indexOperation
      exact ⟨d, l, hindex ▸ h.same hs hsound'⟩
    | bought hside hb =>
      subst hs'
      have hindex : s'.1.indexOperation = s.1.indexOperation := hb.indexOperation
      obtain rfl := hside d h.firstOrderSide
      obtain ⟨l', hl'⟩ := h.bought hb hsound'
      exact ⟨_, l', hindex ▸ hl'⟩

/-! ## Memory and rows -/

/-- The report gave the amount of the order, and all of it was executed. -/
def TrackedOrder.Full : TrackedOrder → Prop
  | .order o => o.amount.isSome ∧ o.filled = o.amount
  | .row _ => True

instance (t : TrackedOrder) : Decidable t.Full := by
  cases t <;> unfold TrackedOrder.Full <;> infer_instance

/-- The stored rows say the same as the tracked reports: every order was stored, its report gave
its amount and price, it was executed in full, and the limit prices weigh up to the cost at which
the orders were executed. -/
structure FullyStored (orders : List TrackedOrder) (rows : List OrderRow) : Prop where
  stored : rows.length = orders.length
  full : ∀ t ∈ orders, t.Full
  priced : ∀ t ∈ orders, t.price.isSome
  cost : Num.sum (orders.map fun t => Num.mul t.price t.amount) =
    Num.sum (rows.map fun row => Num.mul row.price row.amount)

instance (orders : List TrackedOrder) (rows : List OrderRow) :
    Decidable (FullyStored orders rows) :=
  decidable_of_iff (rows.length = orders.length ∧ (∀ t ∈ orders, t.Full) ∧
      (∀ t ∈ orders, t.price.isSome) ∧
      Num.sum (orders.map fun t => Num.mul t.price t.amount) =
        Num.sum (rows.map fun row => Num.mul row.price row.amount))
    ⟨fun ⟨h₁, h₂, h₃, h₄⟩ => ⟨h₁, h₂, h₃, h₄⟩, fun h => ⟨h.stored, h.full, h.priced, h.cost⟩⟩

/-- The quantities over orders that are all on the entry side. -/
theorem quantities_eq {orders : List TrackedOrder} (hside : ∀ t ∈ orders, t.side = d)
    (hw : w.firstOrderSide = some d) :
    quantities orders w = .ok
      { entrySide := d
        entryAmount := Num.sum (orders.map (·.amount))
        averageEntryPrice :=
          if Num.positive (Num.sum (orders.map (·.amount))) then
            Num.div (Num.sum (orders.map fun t => Num.mul t.price t.amount))
              (Num.sum (orders.map (·.amount)))
          else w.price
        buyingBack := w.buyingBack, drawdownStep := w.drawdownStep } := by
  have hfilter : orders.filter (fun t => t.side = d) = orders :=
    List.filter_eq_self.mpr fun t ht => decide_eq_true (hside t ht)
  rw [quantities, hw, resolvePositionSide, Except.map, entryAverage, hfilter]

section Entries

variable {session : Option SessionId} {d : Side} {l : List Entry} {p : Entry}

theorem Entry.Valid.row_amount (h : p.Valid d) : (p.row session).amount = some p.executed := by
  rw [Entry.row, Order.activated, h.filled]
  rfl

theorem Entry.Valid.row_price (h : p.Valid d) (session : Option SessionId) :
    (p.row session).price.isSome := by
  obtain ⟨q, hq⟩ := Option.isSome_iff_exists.mp h.priced
  rw [Entry.row, Order.activated, hq]
  cases p.order.average <;> cases p.order.price <;> rfl

theorem sum_filter_le (hl : ∀ p ∈ l, p.Valid d) :
    ((l.filter (·.stored)).map (·.executed)).sum ≤ (l.map (·.requested)).sum := by
  induction l with
  | nil => exact le_rfl
  | cons p l ih =>
    obtain ⟨hp, hl⟩ := List.forall_mem_cons.mp hl
    have hle := ih hl
    have hpos := hp.pos
    have hbounded := hp.bounded
    rw [List.filter_cons]
    split
    next => simp only [List.map_cons, List.sum_cons]; linarith
    next => simp only [List.map_cons, List.sum_cons]; linarith

/-- The rows store everything that was requested only if every order was stored and executed in
full. -/
theorem stored_of_sum_eq (hl : ∀ p ∈ l, p.Valid d)
    (heq : ((l.filter (·.stored)).map (·.executed)).sum = (l.map (·.requested)).sum) :
    ∀ p ∈ l, p.stored = true ∧ p.executed = p.requested := by
  induction l with
  | nil => exact List.forall_mem_nil _
  | cons p l ih =>
    obtain ⟨hp, hl⟩ := List.forall_mem_cons.mp hl
    have hle := sum_filter_le hl
    have hpos := hp.pos
    have hbounded := hp.bounded
    rw [List.filter_cons] at heq
    split at heq
    next hstored =>
      simp only [List.map_cons, List.sum_cons] at heq
      exact List.forall_mem_cons.mpr ⟨⟨hstored, by linarith⟩, ih hl (by linarith)⟩
    next =>
      simp only [List.map_cons, List.sum_cons] at heq
      exact absurd heq (by linarith)

/-- The amounts of the stored rows. -/
theorem sum_rows_amount (hl : ∀ p ∈ l, p.Valid d) :
    Num.sum (((l.filter (·.stored)).map (·.row session)).map (·.amount)) =
      some ((l.filter (·.stored)).map (·.executed)).sum := by
  rw [List.map_map]
  exact Num.sum_map_some fun p hp => (hl p (List.mem_of_mem_filter hp)).row_amount

/-- What the stored orders cost is a number. -/
theorem sum_rows_cost (hl : ∀ p ∈ l, p.Valid d) (session : Option SessionId) : ∃ q,
    Num.sum (((l.filter (·.stored)).map (·.row session)).map fun row =>
      Num.mul row.price row.amount) = some q := by
  refine ⟨_, (congrArg Num.sum (List.map_map ..)).trans
    (Num.sum_map_some (g := fun p => (p.row session).price.getD 0 * p.executed) fun p hp => ?_)⟩
  have hp := hl p (List.mem_of_mem_filter hp)
  obtain ⟨q, hq⟩ := Option.isSome_iff_exists.mp (hp.row_price session)
  simp [hp.row_amount, hq, Num.mul]

theorem sum_requested_pos (hl : ∀ p ∈ l, p.Valid d) (hne : l ≠ []) :
    0 < (l.map (·.requested)).sum := by
  obtain ⟨p, l, rfl⟩ := List.exists_cons_of_ne_nil hne
  obtain ⟨hp, hl⟩ := List.forall_mem_cons.mp hl
  have hpos := hp.pos
  have hbounded := hp.bounded
  have hrest : 0 ≤ (l.map (·.requested)).sum := by
    refine List.sum_nonneg fun q hq => ?_
    obtain ⟨p', hp', rfl⟩ := List.mem_map.mp hq
    exact ((hl p' hp').pos.trans_le (hl p' hp').bounded).le
  rw [List.map_cons, List.sum_cons]
  linarith

end Entries

/-- The quantities after a restart, when rows of the entries were stored. -/
theorem quantities_ofRows {rows : List OrderRow} (hside : ∀ row ∈ rows, row.side = d)
    (hw : WatchState.ofRows rows = some w) :
    quantities (rows.map .row) w = .ok
      { entrySide := d
        entryAmount := Num.sum (rows.map (·.amount))
        averageEntryPrice :=
          if Num.positive (Num.sum (rows.map (·.amount))) then
            Num.div (Num.sum (rows.map fun row => Num.mul row.price row.amount))
              (Num.sum (rows.map (·.amount)))
          else w.price
        buyingBack := Num.sum (rows.map (·.amount)), drawdownStep := rows.length } := by
  cases rows with
  | nil => cases hw
  | cons first rest =>
    cases hw
    have hfirst := hside first List.mem_cons_self
    have hall : ∀ t ∈ (first :: rest).map TrackedOrder.row, t.side = d := by
      intro t ht
      obtain ⟨row, hrow, rfl⟩ := List.mem_map.mp ht
      exact hside row hrow
    rw [quantities_eq hall (congrArg some hfirst), List.map_map, List.map_map]
    rfl

/-- The rows that a restart at the head of a round loads give the loop the quantities that it
computes from memory. -/
def RestartEquivalent (s : Memory × World) (w : WatchState) : Prop :=
  ∃ w', WatchState.ofRows (s.2.rows s.1.indexOperation) = some w' ∧
    quantities ((s.2.rows s.1.indexOperation).map .row) w' = quantities s.1.orders w

/-- In the middle of a session a restart is equivalent if and only if the stored rows say the same
as the tracked reports. -/
theorem restart_equivalent_iff {s : Memory × World} (h : Watched bound s w) :
    RestartEquivalent s w ↔ FullyStored s.1.orders (s.2.rows s.1.indexOperation) := by
  obtain ⟨d, l, h⟩ := h.holds
  have hside : ∀ t ∈ s.1.orders, t.side = d := by
    rw [h.orders]
    intro t ht
    obtain ⟨p, hp, rfl⟩ := List.mem_map.mp ht
    exact (h.valid p hp).reportedSide
  have hrowside : ∀ row ∈ s.2.rows s.1.indexOperation, row.side = d := by
    rw [h.rows]
    intro row hrow
    obtain ⟨p, hp, rfl⟩ := List.mem_map.mp hrow
    exact (h.valid p (List.mem_of_mem_filter hp)).side
  have hrequested := sum_requested_pos h.valid h.nonempty
  rw [RestartEquivalent, quantities_eq hside h.firstOrderSide]
  constructor
  · rintro ⟨w', hw', heq⟩
    rw [quantities_ofRows hrowside hw'] at heq
    have heq := Except.ok.inj heq
    simp only [Quantities.mk.injEq, true_and] at heq
    obtain ⟨hamount, haverage, _⟩ := heq
    rw [h.rows, sum_rows_amount h.valid, h.orders] at hamount
    -- every report gave its amount, and the amounts add up to what the rows store
    have hgiven : ∀ p ∈ l, p.order.amount = some p.requested := by
      intro p hp
      obtain hnone | hsome := (h.valid p hp).amount
      · have := Num.isSome_of_sum hamount.symm _ (List.mem_map_of_mem (List.mem_map_of_mem hp))
        rw [show (TrackedOrder.order p.order).amount = none from hnone] at this
        cases this
      · exact hsome
    have hsum : Num.sum ((l.map fun p => TrackedOrder.order p.order).map (·.amount)) =
        some (l.map (·.requested)).sum := by
      rw [List.map_map]
      exact Num.sum_map_some hgiven
    have hall := stored_of_sum_eq h.valid (Option.some.inj (hamount.trans hsum))
    have hcost : Num.sum (s.1.orders.map fun t => Num.mul t.price t.amount) =
        Num.sum ((s.2.rows s.1.indexOperation).map fun row => Num.mul row.price row.amount) := by
      rw [h.rows, sum_rows_amount h.valid, h.orders, ← hamount,
        Option.some.inj (hamount.trans hsum), if_pos (Num.positive_of_pos hrequested),
        if_pos (Num.positive_of_pos hrequested)] at haverage
      rw [h.orders, h.rows]
      exact (Num.div_right_cancel hrequested.ne' haverage).symm
    have hfilter : l.filter (·.stored) = l := List.filter_eq_self.mpr fun p hp => (hall p hp).1
    refine ⟨?_, ?_, ?_, hcost⟩
    · rw [h.rows, h.orders, hfilter, List.length_map, List.length_map]
    · intro t ht
      rw [h.orders] at ht
      obtain ⟨p, hp, rfl⟩ := List.mem_map.mp ht
      rw [TrackedOrder.Full, (h.valid p hp).filled, hgiven p hp, (hall p hp).2]
      exact ⟨rfl, rfl⟩
    · obtain ⟨q, hq⟩ := sum_rows_cost h.valid s.1.indexOperation
      rw [← h.rows, ← hcost] at hq
      intro t ht
      have := Num.isSome_of_sum hq _ (List.mem_map_of_mem ht)
      cases hp : t.price with
      | none => rw [hp] at this; cases this
      | some p => rfl
  · rintro ⟨hstored, hfull, hpriced, hcost⟩
    have hall : ∀ p ∈ l, p.stored = true := by
      rw [h.rows, h.orders, List.length_map, List.length_map] at hstored
      exact List.length_filter_eq_length_iff.mp hstored
    have hfilter : l.filter (·.stored) = l := List.filter_eq_self.mpr hall
    have hgiven : ∀ p ∈ l, p.order.amount = some p.requested ∧ p.executed = p.requested := by
      intro p hp
      have hmem : TrackedOrder.order p.order ∈ s.1.orders := by
        rw [h.orders]
        exact List.mem_map_of_mem hp
      obtain ⟨hsome, hfilled⟩ := hfull _ hmem
      rw [(h.valid p hp).filled] at hfilled
      obtain hnone | hamount := (h.valid p hp).amount
      · rw [hnone] at hsome
        cases hsome
      · rw [hamount] at hfilled
        exact ⟨hamount, Option.some.inj hfilled⟩
    have hexecuted : (l.map (·.executed)).sum = (l.map (·.requested)).sum :=
      congrArg List.sum (List.map_congr_left fun p hp => (hgiven p hp).2)
    have hsum : Num.sum (s.1.orders.map (·.amount)) = some (l.map (·.requested)).sum := by
      rw [h.orders, List.map_map]
      exact Num.sum_map_some fun p hp => (hgiven p hp).1
    have hrows : Num.sum ((s.2.rows s.1.indexOperation).map (·.amount)) =
        some (l.map (·.requested)).sum := by
      rw [h.rows, sum_rows_amount h.valid, hfilter, hexecuted]
    obtain ⟨w', hw'⟩ : ∃ w', WatchState.ofRows (s.2.rows s.1.indexOperation) = some w' := by
      rw [h.rows, hfilter]
      obtain ⟨p, rest, rfl⟩ := List.exists_cons_of_ne_nil h.nonempty
      exact ⟨_, rfl⟩
    refine ⟨w', hw', ?_⟩
    rw [quantities_ofRows hrowside hw', hrows, hsum, if_pos (Num.positive_of_pos hrequested),
      if_pos (Num.positive_of_pos hrequested), hcost, h.buyingBack, h.drawdownStep,
      hstored, h.orders,
      List.length_map]

/-- Entering the first position of a new session. -/
def enterOne (t : List Response) : Option (Except String WatchState × Memory × World) :=
  (enteringPosition true).ends environment { config := oneTrade, indexOperation := some 0 } {} t

/-- The state of the loop, its memory and the world after the responses. -/
def enteredOne (t : List Response) : Option (WatchState × Memory × World) :=
  match enterOne t with
  | some (.ok w, s) => some (w, s)
  | _ => none

theorem Watched.of_enteredOne (h : enteredOne t = some (w, s)) : Watched bound s w := by
  have hends : enterOne t = some (.ok w, s) := by
    unfold enteredOne at h
    split at h
    next heq => cases h; exact heq
    next => cases h
  exact .entered rfl rfl (fun _ ho => by cases ho) (Returns.of_ends hends)

/-- The first order is executed at once, at its limit price. -/
def boughtInFull : List Response :=
  [.served (.tick (some 100)), .served (.candle (some (some 50, some 200))), .served (.balances {}),
   .served (.accepted 1 { price := some 100 }), .served .done]

/-- A round of the loop after these responses. -/
def watchedOne (t₀ t : List Response) : Option (WatchState × Memory × World) :=
  (enteredOne t₀).bind fun (w, m, world) =>
    match (watchRound 0 w).ends environment m world t with
    | some (.ok (some w'), s') => some (w', s')
    | _ => none

theorem Watched.of_watchedOne (h : watchedOne t₀ t = some (w', s')) : Watched 0 s' w' := by
  obtain ⟨⟨w, m, world⟩, hentered, h⟩ := Option.bind_eq_some_iff.mp h
  have hends : (watchRound 0 w).ends environment m world t = some (.ok (some w'), s') := by
    dsimp only at h
    split at h
    next heq => cases h; exact heq
    next => cases h
  exact .round (.of_enteredOne hentered) (Returns.of_ends hends)

/-- At 95 another coin is bought, which is executed while its status is read. -/
def boughtBack : List Response :=
  [.served (.config none), .served (.balances { second := some (some 9500) }),
    .served (.tick (some 95)),
   .served (.accepted 0 { price := some 95 }), .served (.reported { price := some 95 }),
   .exchange (.fill 1 1), .served .done, .served (.reported { price := some 95 }), .served .done,
   .served .done]

theorem boughtBack_watched : (watchedOne boughtInFull boughtBack).isSome := by decide +kernel

theorem restart_equivalent_iff_boughtBack :
    RestartEquivalent ((watchedOne boughtInFull boughtBack).get boughtBack_watched).2
      ((watchedOne boughtInFull boughtBack).get boughtBack_watched).1 := by
  have h : Watched 0 _ _ := Watched.of_watchedOne (Option.some_get boughtBack_watched).symm
  exact (restart_equivalent_iff h).mpr (by decide +kernel)

/-- Half of the first order is executed before it is cancelled. -/
def boughtInPart : List Response :=
  [.served (.tick (some 100)), .served (.candle (some (some 50, some 200))), .served (.balances {}),
   .served (.accepted (1 / 2) { price := some 100 }), .exchange (.terminate 0 .canceled),
   .served (.reported { price := some 100 }), .served .done]

theorem boughtInPart_entered : (enteredOne boughtInPart).isSome := by decide +kernel

/-- In memory the position is one coin, after a restart it is half a coin. -/
theorem restart_changes_quantities :
    ∃ s w w', Watched 0 s w ∧ WatchState.ofRows (s.2.rows (some 0)) = some w' ∧
      quantities s.1.orders w = .ok ⟨.buy, some 1, some 100, some 1, 1⟩ ∧
      quantities ((s.2.rows (some 0)).map .row) w' =
        .ok ⟨.buy, some (1 / 2), some 100, some (1 / 2), 1⟩ := by
  refine ⟨_, _, ⟨some .buy, some 100, some (1 / 2), 1⟩,
    Watched.of_enteredOne (Option.some_get boughtInPart_entered).symm, ?_, ?_, ?_⟩
  all_goals decide +kernel

end Tonatiuh.Trading
