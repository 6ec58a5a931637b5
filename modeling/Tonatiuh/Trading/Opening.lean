import Tonatiuh.Trading.Environment

/-! `openPositionForStrategy`: when an executed order is kept.

The order exists on the exchange before anything is recorded. Whether it ends in the list of
tracked orders and in the database depends on the responses only: on every one being an answer,
and on the last report of the order telling what was executed. -/

namespace Tonatiuh.Trading

open Async Config

section Rules

variable {s₀ s : Memory × World × Log} {n : OrderId} {o₀ : ExchangeOrder}

/-! ## Waiting for the execution -/

/-- Since `s₀` requests were served, but no order was accepted and no row was stored. -/
structure Since (s₀ t : Memory × World × Log) : Prop where
  memory : t.1 = s₀.1
  rows : t.2.1.orders = s₀.2.1.orders
  exchange : Exchange.Evolves False s₀.2.1.exchange t.2.1.exchange

theorem Since.refl (s : Memory × World × Log) : Since s s := ⟨rfl, rfl, .refl _⟩

theorem Since.drifts (h : Since s₀ s) (hd : Drifts s t) : Since s₀ t where
  memory := hd.memory.trans h.memory
  rows := hd.rows.trans h.rows
  exchange := h.exchange.trans hd.exchange

/-- How the wait for order `n` ends: with its final report, or without any only if something was
not answered, the last report did not tell what was executed, or nothing was. -/
def Decided (s₀ : Memory × World × Log) (n : OrderId) :
    Except String Order → Memory × World × Log → Prop :=
  Ends (fun latest t => Since s₀ t ∧ t.2.2 = ⟨s₀.2.2.answered, true⟩ ∧
      Executed t.2.1.exchange n latest)
    fun t => Since s₀ t ∧
      (t.2.2.answered = false ∨ t.2.2.filled = false ∨ Unexecuted t.2.1.exchange n)

/-- A read of the status of order `n`: a truthful report, or no answer. -/
theorem observed_status (h : Since s₀ s) (hlog : s.2.2.answered = s₀.2.2.answered)
    {Q : Except String Order → _ → Prop}
    (hok : ∀ (o : ExchangeOrder) (shape : Shape) (x : Exchange) (t : Memory × World × Log),
      Since s₀ t → t.2.2 = ⟨s₀.2.2.answered, shape.filled⟩ → x[n]? = some o →
      Exchange.Evolves False s.2.1.exchange x → Exchange.Evolves False x t.2.1.exchange →
      Q (.ok (o.report n shape)) t)
    (herr : ∀ e t, Since s₀ t → t.2.2.answered = false → Q (.error e) t) :
    Safe observedContract Q (request (.checkStatusOrderById n)) s := by
  apply observed_rule
  intro s' outcome x w t hs hserve ht
  have hs' := h.drifts hs
  cases outcome with
  | reported shape =>
    obtain ⟨o, ho, hx⟩ := Option.map_eq_some_iff.mp hserve
    cases hx
    refine hok o shape s'.2.1.exchange t ⟨ht.memory.trans hs'.memory, ht.rows.trans hs'.rows,
      hs'.exchange.trans ht.exchange⟩ ?_ ho hs.exchange ht.exchange
    rw [ht.log, ← hlog, ← hs.log]
    rfl
  | rejected e =>
    cases hserve
    refine herr e t ⟨ht.memory.trans hs'.memory, ht.rows.trans hs'.rows,
      hs'.exchange.trans ht.exchange⟩ ?_
    rw [ht.log]
    exact Bool.and_false _
  | _ => cases hserve

theorem observed_sleep (h : Since s₀ s) (hlog : s.2.2.answered = s₀.2.2.answered) :
    Safe observedContract
      (Ends (fun _ t => Since s₀ t ∧ t.2.2.answered = s₀.2.2.answered) fun _ => False)
      (request (.sleep ms)) s := by
  apply observed_rule
  intro s' outcome x w t hs hserve ht
  have hs' := h.drifts hs
  cases outcome with
  | done =>
    cases hserve
    refine ⟨⟨ht.memory.trans hs'.memory, ht.rows.trans hs'.rows,
      hs'.exchange.trans ht.exchange⟩, ?_⟩
    rw [ht.log, ← hlog, ← hs.log]
    exact Bool.and_true _
  | _ => cases hserve

/-- `cancelAllOrders`: either no order is open any more, or the failure is noted. -/
theorem observed_cancelAll (h : Since s₀ s) (hlog : s.2.2.answered = s₀.2.2.answered) :
    Safe observedContract
      (Ends (fun _ t => Since s₀ t ∧ t.2.2.answered = s₀.2.2.answered ∧
          ∀ (n : OrderId) (o : ExchangeOrder), t.2.1.exchange[n]? = some o → o.status ≠ .opened)
        fun t => Since s₀ t ∧ t.2.2.answered = false)
      (request .cancelAllOrders) s := by
  apply observed_rule
  intro s' outcome x w t hs hserve ht
  have hs' := h.drifts hs
  have hmemory := ht.memory.trans hs'.memory
  cases outcome with
  | done =>
    cases hserve
    have hcancel : Exchange.Evolves False s'.2.1.exchange s'.2.1.exchange.cancelAll :=
      .cancelAll nofun
    refine ⟨⟨hmemory, ht.rows.trans hs'.rows, (hs'.exchange.trans hcancel).trans ht.exchange⟩,
      ?_, fun n o ho => ?_⟩
    · rw [ht.log, ← hlog, ← hs.log]
      exact Bool.and_true _
    · obtain ⟨o', ho', hev⟩ := ht.exchange.getElem?_back ho
      have hover := Exchange.cancelAll_ne_opened ho'
      rw [hev.settled hover]
      exact hover
  | partlyCancelled ids =>
    cases hserve
    have hcancel : Exchange.Evolves False s'.2.1.exchange (s'.2.1.exchange.cancelOrders ids) :=
      .cancelOrders nofun
    refine ⟨⟨hmemory, ht.rows.trans hs'.rows, (hs'.exchange.trans hcancel).trans ht.exchange⟩, ?_⟩
    rw [ht.log]
    exact Bool.and_false _
  | rejected e =>
    cases hserve
    refine ⟨⟨hmemory, ht.rows.trans hs'.rows, hs'.exchange.trans ht.exchange⟩, ?_⟩
    rw [ht.log]
    exact Bool.and_false _
  | _ => cases hserve

/-- A final report either tells of an execution, or there was none, or it does not tell. -/
theorem Decided.of_report {o : ExchangeOrder} {shape : Shape} {t : Memory × World × Log}
    (ho : t.2.1.exchange[n]? = some o) (hs : o.status ≠ .opened)
    (hnonneg : 0 ≤ o.executed) (hlog : t.2.2 = ⟨s₀.2.2.answered, shape.filled⟩) :
    (0 < (o.report n shape).filledOrZero →
      t.2.2 = ⟨s₀.2.2.answered, true⟩ ∧ Executed t.2.1.exchange n (o.report n shape)) ∧
    (¬ 0 < (o.report n shape).filledOrZero →
      t.2.2.answered = false ∨ t.2.2.filled = false ∨ Unexecuted t.2.1.exchange n) := by
  constructor
  · intro hpos
    have hf : shape.filled = true := by
      by_contra hf
      simp [Order.filledOrZero, ExchangeOrder.report, hf] at hpos
    exact ⟨hf ▸ hlog, .of_report ho hs hpos⟩
  · intro hzero
    cases hf : shape.filled with
    | false => exact .inr (.inl (by rw [hlog, hf]))
    | true =>
      have hle : o.executed ≤ 0 := by
        simpa [Order.filledOrZero, ExchangeOrder.report, hf] using hzero
      exact .inr (.inr ⟨o, ho, hs, le_antisymm hle hnonneg⟩)

/-- A reported status other than open is final. -/
theorem ExchangeOrder.over_of_report {o : ExchangeOrder} {shape : Shape} {status : Status}
    (hs : (o.report n shape).status = some status) (hne : status ≠ .opened) :
    o.status ≠ .opened := by
  simp only [ExchangeOrder.report] at hs
  split at hs
  next => cases hs; exact hne
  next => cases hs

theorem pollExecution_observed (h : Since s₀ s) (hlog : s.2.2.answered = s₀.2.2.answered)
    (hnonneg : s₀.2.1.exchange.Nonneg) (hid : order.id = n) (attempts : Nat) :
    Safe observedContract (Decided s₀ n) (pollExecution order attempts) s := by
  subst hid
  induction attempts generalizing s with
  | zero =>
    apply Safe.bind (observed_cancelAll h hlog)
    · rintro _ t ⟨ht, hanswered, hover⟩
      -- the order is over, and the last read decides
      apply Safe.bind (Q := Ends
        (fun latest u => ∃ (o : ExchangeOrder) (shape : Shape), latest = o.report order.id shape ∧
          Since s₀ u ∧ u.2.2 = ⟨s₀.2.2.answered, shape.filled⟩ ∧
          u.2.1.exchange[order.id]? = some o ∧ o.status ≠ .opened)
        fun u => Since s₀ u ∧ u.2.2.answered = false)
      · apply observed_status ht hanswered
        · intro o shape x u hu hnoted ho htx hxu
          obtain ⟨o', ho', hev⟩ := htx.getElem?_back ho
          have hs := hover _ o' ho'
          rw [hev.settled hs] at ho ⊢
          exact ⟨o', shape, rfl, hu, hnoted, hxu.settled ho hs, hs⟩
        · exact fun e u hu hnoted => ⟨hu, hnoted⟩
      · rintro latest u ⟨o, shape, rfl, hu, hnoted, ho, hs⟩
        have hdecided := Decided.of_report ho hs
          (hnonneg.evolves hu.exchange o (List.mem_of_getElem? ho)) hnoted
        split
        next hpos => exact ⟨hu, hdecided.1 hpos⟩
        next hzero => exact ⟨hu, hdecided.2 hzero⟩
      · rintro e u ⟨hu, hnoted⟩
        exact ⟨hu, .inl hnoted⟩
    · rintro e t ⟨ht, hanswered⟩
      exact ⟨ht, .inl hanswered⟩
  | succ attempts ih =>
    apply Safe.bind (Q := Ends
      (fun latest u => ∃ (o : ExchangeOrder) (shape : Shape), latest = o.report order.id shape ∧
        Since s₀ u ∧ u.2.2 = ⟨s₀.2.2.answered, shape.filled⟩ ∧
        (o.status ≠ .opened → u.2.1.exchange[order.id]? = some o))
      fun u => Since s₀ u ∧ u.2.2.answered = false)
    · apply observed_status h hlog
      · intro o shape x u hu hnoted ho _ hxu
        exact ⟨o, shape, rfl, hu, hnoted, fun hs => hxu.settled ho hs⟩
      · exact fun e u hu hnoted => ⟨hu, hnoted⟩
    · rintro latest u ⟨o, shape, rfl, hu, hnoted, hkept⟩
      have hdecided (hs : o.status ≠ .opened) := Decided.of_report (hkept hs) hs
        (hnonneg.evolves hu.exchange o (List.mem_of_getElem? (hkept hs))) hnoted
      split
      next hclosed =>
        have hs := ExchangeOrder.over_of_report hclosed.1 nofun
        exact ⟨hu, (hdecided hs).1 hclosed.2⟩
      next =>
        split
        next hover =>
          have hs : o.status ≠ .opened := by
            simp only [List.mem_cons, List.not_mem_nil, or_false] at hover
            obtain hover | hover | hover := hover <;>
              exact ExchangeOrder.over_of_report hover nofun
          split
          next hpos => exact ⟨hu, (hdecided hs).1 hpos⟩
          next hzero => exact ⟨hu, (hdecided hs).2 hzero⟩
        next =>
          apply Safe.bind (observed_sleep hu (by rw [hnoted]))
          · rintro _ v ⟨hv, hanswered⟩
            exact ih hv hanswered
          · exact fun _ _ hf => hf.elim
    · rintro e u ⟨hu, hnoted⟩
      exact ⟨hu, .inl hnoted⟩

/-- The wait begins with the report of the acceptance as the last report. -/
theorem waitForExecution_observed {shape : Shape} (h : Since s₀ s)
    (hlog : s.2.2 = ⟨s₀.2.2.answered, shape.filled⟩) (hnonneg : s₀.2.1.exchange.Nonneg)
    (ho₀ : s₀.2.1.exchange[n]? = some o₀) :
    Safe observedContract (Decided s₀ n) (waitForExecution (o₀.report n shape)) s := by
  unfold waitForExecution
  split
  next hclosed =>
    have hs := ExchangeOrder.over_of_report hclosed.2 nofun
    have ho := h.exchange.settled ho₀ hs
    have hdecided := Decided.of_report ho hs (hnonneg o₀ (List.mem_of_getElem? ho₀)) hlog
    exact ⟨h, hdecided.1 hclosed.1⟩
  next => exact pollExecution_observed h (by rw [hlog]) hnonneg rfl 60

end Rules

/-! ## The whole call -/

/-- An order of the call, with its parameters, that has executed and is over. -/
structure OpenedOrder (x : Exchange) (n : OrderId) (side : Side) (amount : Rat) (order : Order) :
    Prop where
  executed : Executed x n order
  side : order.side = side
  amount : ∀ o ∈ x[n]?, o.amount = amount

theorem OpenedOrder.evolves {x x' : Exchange} {side : Side} {amount : Rat}
    (h : OpenedOrder x n side amount order)
    (hev : Exchange.Evolves full x x') : OpenedOrder x' n side amount order where
  executed := h.executed.evolves hev
  side := h.side
  amount o ho := by
    obtain ⟨_, o', ho', hover, _⟩ := h.executed
    cases (hev.settled ho' hover).symm.trans ho
    exact h.amount o ho'

/-- How a call that would accept order `n` ends, from the memory `m` and the world `w`. -/
inductive CallEnds (m : Memory) (w : World) (log₀ : Log) (side : Side) (amount : Rat) (price : Num)
    (session : Option SessionId) : Except String Order → Memory × World × Log → Prop
  /-- No order was accepted. -/
  | unaccepted {w' : World} : w'.exchange.length = w.exchange.length → w'.orders = w.orders →
      CallEnds m w log₀ side amount price session (.error e) (m, w', log)
  /-- The order is tracked and stored. -/
  | kept {w' : World} : price.isSome →
      OpenedOrder w'.exchange w.exchange.length side amount order →
      w'.orders = w.orders ++ [order.activated session side price (some amount)] →
      CallEnds m w log₀ side amount price session (.ok order)
        (m.push order, w', ⟨log₀.answered, true⟩)
  /-- The order is tracked, but was not stored. -/
  | unstored {w' : World} {log : Log} : price.isSome →
      OpenedOrder w'.exchange w.exchange.length side amount order →
      w'.orders = w.orders → log.answered = false →
      CallEnds m w log₀ side amount price session (.ok order) (m.push order, w', log)
  /-- The order is neither tracked nor stored. -/
  | unkept {w' : World} {log : Log} : w'.orders = w.orders →
      log.answered = false ∨ log.filled = false ∨ Unexecuted w'.exchange w.exchange.length →
      CallEnds m w log₀ side amount price session (.error e) (m, w', log)

/-- How its first request ends, with an error as the call does: `s₁` is the state in which the order
was accepted. -/
def SubmissionEnds (m : Memory) (w : World) (log₀ : Log) (side : Side) (amount : Rat) (price : Num)
    (session : Option SessionId) : Except String Order → Memory × World × Log → Prop
  | .ok order => fun t => ∃ (o : ExchangeOrder) (shape : Shape) (s₁ : Memory × World × Log),
    order = o.report w.exchange.length shape ∧ Since s₁ t ∧ s₁.2.1.exchange.Nonneg ∧
    s₁.2.1.exchange[w.exchange.length]? = some o ∧ o.side = side ∧ o.amount = amount ∧
    price.isSome ∧ s₁.1 = m ∧ s₁.2.1.orders = w.orders ∧
    s₁.2.2 = ⟨log₀.answered, shape.filled⟩ ∧ t.2.2 = ⟨log₀.answered, shape.filled⟩
  | .error e => CallEnds m w log₀ side amount price session (.error e)

theorem openPositionForStrategy_observed (m : Memory) {w : World} (hw : w.exchange.Nonneg)
    (log₀ : Log) (side : Side) (amount : Rat) (price : Num)
    (session : Option SessionId) :
    Safe observedContract (CallEnds m w log₀ side amount price session)
      (openPositionForStrategy side amount price session) (m, w, log₀) := by
  unfold openPositionForStrategy
  apply Safe.bind (Q := SubmissionEnds m w log₀ side amount price session)
  · apply observed_rule
    intro s' outcome x w₁ t hs hserve ht
    have hlen : s'.2.1.exchange.length = w.exchange.length := hs.exchange.length
    have hnonneg : s'.2.1.exchange.Nonneg := hw.evolves hs.exchange
    have hlog : s'.2.2 = log₀ := hs.log
    have hm : t.1 = m := ht.memory.trans hs.memory
    obtain ⟨m', w', log'⟩ := t
    cases hm
    cases outcome with
    | accepted fill shape =>
      simp only [serve] at hserve
      split at hserve
      next hc =>
        cases hserve
        rw [hlog] at ht
        refine ⟨_, shape, _, by rw [hlen], ⟨ht.memory, ht.rows, ht.exchange⟩,
          hnonneg.append hc.2.1, ?_, rfl, rfl, hc.2.2.2, hs.memory, hs.rows, ?_, ?_⟩
        · rw [World.accept, ← hlen, List.getElem?_concat_length]
        · rw [Log.note]
        · rw [ht.log, Log.note]
      next => cases hserve
    | lost fill =>
      simp only [serve] at hserve
      split at hserve
      next =>
        cases hserve
        have hanswered := congrArg Log.answered ht.log
        exact .unkept (ht.rows.trans hs.rows) (.inl (hanswered.trans (Bool.and_false _)))
      next => cases hserve
    | rejected e =>
      cases hserve
      exact .unaccepted (ht.exchange.length.trans hlen) (ht.rows.trans hs.rows)
    | _ => cases hserve
  · rintro _ t ⟨o, shape, s₁, rfl, hsince, hnonneg, ho, hside, hamount, hprice, hm, hrows, hlog₁,
      hlog⟩
    apply Safe.bind (waitForExecution_observed hsince (by rw [hlog, hlog₁]) hnonneg ho)
    · rintro latest u ⟨hu, hulog, hexecuted⟩
      have hurows := hu.rows.trans hrows
      rw [hlog₁] at hulog
      have hopened : OpenedOrder u.2.1.exchange w.exchange.length side amount latest := by
        obtain ⟨o', ho', hev⟩ := hu.exchange.getElem? ho
        obtain ⟨_, o'', ho'', _, _, _, hlatest, _⟩ := id hexecuted
        cases ho'.symm.trans ho''
        refine ⟨hexecuted, hlatest.trans (hev.side.trans hside), fun o'' ho'' => ?_⟩
        cases ho'.symm.trans ho''
        exact hev.amount.trans hamount
      -- the row is stored, or the failure is noted
      apply Safe.bind (Q := Ends (fun _ v => v.1 = m ∧
        OpenedOrder v.2.1.exchange w.exchange.length side amount latest ∧
        (v.2.1.orders = w.orders ++ [latest.activated session side price (some amount)] ∧
            v.2.2 = ⟨log₀.answered, true⟩ ∨
          v.2.1.orders = w.orders ∧ v.2.2.answered = false)) fun _ => False)
      · apply observed_rule
        intro s' outcome x w₁ v hs hserve hv
        have hrows' := hs.rows.trans hurows
        have hm' := hv.memory.trans (hs.memory.trans (hu.memory.trans hm))
        cases outcome with
        | done =>
          cases hserve
          refine ⟨hm', hopened.evolves (hs.exchange.trans hv.exchange), .inl ⟨?_, ?_⟩⟩
          · rw [hv.rows, hrows']
          · rw [hv.log, hs.log, hulog]
            exact congrArg (Log.mk · true) (Bool.and_true _)
        | rejected e =>
          cases hserve
          refine ⟨hm', hopened.evolves (hs.exchange.trans hv.exchange),
            .inr ⟨hv.rows.trans hrows', ?_⟩⟩
          rw [hv.log]
          exact Bool.and_false _
        | _ => cases hserve
      · rintro _ ⟨m', w', log'⟩ ⟨hm', hopened, ⟨hstored, hvlog⟩ | ⟨hstored, hvlog⟩⟩
        · cases hm'
          cases hvlog
          exact .kept hprice hopened hstored
        · cases hm'
          exact .unstored hprice hopened hstored hvlog
      · exact fun _ _ hf => hf.elim
    · rintro e ⟨m', w', log'⟩ ⟨hu, hcause⟩
      cases hu.memory.trans hm
      exact .unkept (hu.rows.trans hrows) hcause
  · exact fun e t ht => ht

/-- Order `n` is tracked, and stored as a row of the session with what it executed. -/
structure KeptOrder (m : Memory) (w : World) (session : Option SessionId) (n : OrderId)
    (executed : Rat) : Prop where
  tracked : m.Tracks n
  stored : ∃ row ∈ w.rows session, row.orderId = n ∧ row.amount = some executed

/-- Without a new row no new order is stored. -/
theorem KeptOrder.not_of_rows {w w' : World} (hrows : ∀ row ∈ w.orders, row.orderId < n)
    (heq : w'.orders = w.orders) : ¬ KeptOrder m w' session n executed := by
  rintro ⟨_, row, hrow, hid, _⟩
  rw [World.rows, heq] at hrow
  have := hrows row (List.mem_of_mem_filter hrow)
  rw [hid] at this
  exact lt_irrefl _ this

/-- From whatever report `_resolveExecutedAmount` reads an executed amount, it is the right one. -/
theorem resolveExecutedAmount_sound {o : ExchangeOrder} {shape : Shape} (ho : o.Sound)
    (hpos : 0 < resolveExecutedAmount (.order order) (some (o.report n shape))) :
    resolveExecutedAmount (.order order) (some (o.report n shape)) = o.executed ∧
      0 < o.executed := by
  obtain ⟨status, amount, filled, average, price⟩ := shape
  simp only [resolveExecutedAmount, ExchangeOrder.report, Option.bind_some, Num.positive,
    Num.lt] at hpos ⊢
  cases filled with
  | true =>
    by_cases hexecuted : 0 < o.executed
    · simp [hexecuted]
    · -- a closed order that has not executed would have no amount
      have hzero : o.executed = 0 := le_antisymm (not_lt.mp hexecuted) ho.nonneg
      cases status <;> cases amount <;> simp_all
      have := ho.closed
      grind
  | false =>
    cases status <;> cases amount <;> simp_all
    have := ho.closed
    grind

/-- Every request was answered, and the last report of the order told what was executed. -/
def FullyAnswered (t : List Response) : Prop :=
  (t.foldl Log.note {}).answered ∧ (t.foldl Log.note {}).filled

instance (t : List Response) : Decidable (FullyAnswered t) :=
  inferInstanceAs (Decidable (_ ∧ _))

/-- However a call ends, and whatever becomes of its order afterwards: if a report then shows an
executed amount, the order was tracked and stored with this amount if and only if every request was
answered and the last report of the order told what was executed. -/
theorem opened_order_kept_iff {m m' : Memory} {w w' : World} {o : ExchangeOrder} (order : Order)
    (shape : Shape) (hw : w.exchange.Sound)
    (hrows : ∀ row ∈ w.orders, row.orderId < w.exchange.length)
    (hcall : Returns environment (openPositionForStrategy side amount price session) (m, w) t x
      (m', w'))
    (hlater : Exchange.Evolves False w'.exchange y) (ho : y[w.exchange.length]? = some o)
    (hpos : 0 < resolveExecutedAmount (.order order) (some (o.report w.exchange.length shape))) :
    KeptOrder m' w' session w.exchange.length
        (resolveExecutedAmount (.order order) (some (o.report w.exchange.length shape))) ↔
      FullyAnswered t := by
  have hsound : o.Sound :=
    ((Exec.sound hcall hw).evolves hlater) o (List.mem_of_getElem? ho)
  obtain ⟨hamount, hexecuted⟩ := resolveExecutedAmount_sound hsound hpos
  have hnonneg : w.exchange.Nonneg := fun o ho => (hw o ho).nonneg
  have hends := (openPositionForStrategy_observed m hnonneg {} side amount price
    session).returns observing_covers (hcall.observed Log.note {})
  rw [hamount, FullyAnswered]
  generalize hlog : t.foldl Log.note {} = log at hends
  cases hends with
  | unaccepted hlen =>
    have hlt := (List.getElem?_eq_some_iff.mp ho).1
    rw [hlater.length, hlen] at hlt
    exact absurd hlt (lt_irrefl _)
  | kept _ hopened hstored =>
    obtain ⟨hid, o', ho', hover', _, hfilled, _⟩ := hopened.executed
    rw [hlater.settled ho' hover'] at ho
    cases ho
    refine ⟨fun _ => ⟨rfl, rfl⟩,
      fun _ => ⟨?_, _, (?_ : Order.activated _ session side price (some amount) ∈ _), hid, ?_⟩⟩
    · rw [Memory.Tracks, List.map_append, ← hid]
      exact List.mem_append_right _ (List.mem_singleton.mpr rfl)
    · rw [World.rows, hstored]
      exact List.mem_filter.mpr
        ⟨List.mem_append_right _ (List.mem_singleton.mpr rfl), decide_eq_true rfl⟩
    · rw [Order.activated, hfilled]
      rfl
  | unstored _ _ hstored hanswered =>
    exact ⟨fun hkept => (KeptOrder.not_of_rows hrows hstored hkept).elim,
      fun hgood => absurd hgood.1 (by rw [hanswered]; exact Bool.false_ne_true)⟩
  | unkept hstored hcause =>
    refine ⟨fun hkept => (KeptOrder.not_of_rows hrows hstored hkept).elim, fun hgood => ?_⟩
    obtain hcause | hcause | ⟨o', ho', hover', hzero⟩ := hcause
    · exact absurd hgood.1 (by rw [hcause]; exact Bool.false_ne_true)
    · exact absurd hgood.2 (by rw [hcause]; exact Bool.false_ne_true)
    · rw [hlater.settled ho' hover'] at ho
      cases ho
      exact absurd hexecuted (by rw [hzero]; exact lt_irrefl _)

/-- A call that buys one coin at 100 on an empty account. -/
def buyOne (t : List Response) : Option (Except String Order × Memory × World) :=
  (openPositionForStrategy .buy 1 (some 100) (some 0)).ends environment { config := oneTrade } {} t

/-- The order is open when its status is read first, partly executed a second later, and executed at
last. -/
def executedInParts : List Response :=
  [.served (.accepted 0 { price := some 100 }), .served (.reported { price := some 100 }),
   .served .done, .exchange (.fill 0 (1 / 4)), .served (.reported { price := some 100 }),
   .exchange (.fill 0 (3 / 4)), .served .done, .served (.reported { average := some 99 }),
     .served .done]

theorem executedInParts_ends : (buyOne executedInParts).isSome := by decide +kernel

theorem opened_order_kept_iff_executedInParts :
    KeptOrder ((buyOne executedInParts).get executedInParts_ends).2.1
      ((buyOne executedInParts).get executedInParts_ends).2.2 (some 0) 0 1 :=
  (opened_order_kept_iff (w := {}) (o := ⟨some 0, .entry, .buy, 1, 1, .closed⟩)
    ⟨0, .buy, none, none, none, none, none⟩ {} (fun _ ho => by cases ho)
    (fun _ hrow => by cases hrow) (Returns.of_ends_get executedInParts_ends) (.refl _)
    (by decide +kernel) (by decide +kernel)).mpr (by decide +kernel)

/-- The order is accepted, the read of its status fails, and then it is executed. -/
def readFails : List Response :=
  [.served (.accepted 0 { price := some 100 }), .served (.rejected "ExchangeNotAvailable")]

/-- The call throws, and the order that the exchange executes afterwards is recorded nowhere. -/
theorem executed_order_lost :
    ∃ x m w, Returns environment (openPositionForStrategy .buy 1 (some 100) (some 0))
        ({ config := oneTrade }, {}) readFails x (m, w) ∧
      w.exchange.event (.fill 0 1) = some [⟨some 0, .entry, .buy, 1, 1, .closed⟩] ∧
      m.orders = [] ∧ w.orders = [] := by
  have hends : (buyOne readFails).isSome := by decide +kernel
  exact ⟨_, _, _, Returns.of_ends_get hends, by decide +kernel⟩

end Tonatiuh.Trading
