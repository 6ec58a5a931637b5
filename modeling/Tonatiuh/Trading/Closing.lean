import Tonatiuh.Trading.Terms

/-! `closeFilledPosition` and `openPositionForStrategy` under the terms.

The state at the beginning of a phase is kept as `s₀`; what is known later is that the current
state comes from it by interference (`From`), so facts about settled orders carry over. -/

namespace Tonatiuh.Trading

open Async Config

variable {terms : Terms} {J : Exchange → List OrderRow → Prop} {s₀ s₁ s t : Memory × World}
  {n : OrderId} {o₀ : ExchangeOrder}

theorem From.order (h : From terms J s₀ s) (ho : s₀.2.exchange[n]? = some o₀) :
    ∃ o, s.2.exchange[n]? = some o ∧ o₀.Evolves terms.full o :=
  h.exchange.getElem? ho

theorem From.tracks (h : From terms J s₀ s) : s.1.Tracks n ↔ s₀.1.Tracks n := by
  rw [Memory.Tracks, Memory.Tracks, h.orders]

/-- The rule of a request that leaves the orders alone. -/
theorem quiet_rule (hJ : Kept terms J) {r : Request} {Q : Except String r.Answer → _ → Prop}
    (hq : r.quiet = true) (he : r.ends = none) (h : From terms J s₀ s)
    (hQ : ∀ s' outcome x w t, From terms J s₀ s' → terms.Meets s'.1 s'.2 r outcome →
      serve s'.2 r outcome = some (x, w) → From terms J s₀ (s'.1, w) →
      From terms J (s'.1, w) t → Q x t) :
    Safe (contract terms J) Q (request r) s := by
  apply request_rule hJ h
  · intro t _ session hsession
    rw [he] at hsession
    cases hsession
  · intro s' outcome x w t hs' hmeets hserve ht
    obtain ⟨hrows, hev⟩ := serve_quiet hq hmeets hserve
    have hw : Interferes terms.full s' (s'.1, w) := ⟨rfl, rfl, rfl, rfl, hrows, hev⟩
    have hs'w := hs'.interferes hJ hw
    have hwt := (From.refl (s := (s'.1, w)) hs'w.holds).interferes hJ ht
    exact ⟨hwt.holds, hQ s' outcome x w t hs' hmeets hserve hs'w hwt⟩

/-- The same when the answer does not matter. -/
theorem quiet_from (hJ : Kept terms J) {r : Request} (hq : r.quiet = true) (he : r.ends = none)
    (h : From terms J s₀ s) :
    Safe (contract terms J) (fun _ t => From terms J s₀ t) (request r) s := by
  apply quiet_rule hJ hq he h
  intro s' outcome x w t _ _ _ hw ht
  exact hw.trans ht

/-- Timers are not rejected. -/
theorem sleep_rule (hJ : Kept terms J) (h : From terms J s₀ s) :
    Safe (contract terms J) (Ends (fun _ t => From terms J s₀ t) fun _ => False)
      (request (.sleep ms)) s := by
  apply quiet_rule hJ rfl rfl h
  intro s' outcome x w t _ _ hserve hw ht
  cases outcome with
  | done => cases hserve; exact hw.trans ht
  | _ => cases hserve

/-! ## Waiting for an execution -/

/-- The report of an order that has executed and is over. -/
def Executed (x : Exchange) (n : OrderId) (latest : Order) : Prop :=
  latest.id = n ∧ ∃ o, x[n]? = some o ∧ o.status ≠ .opened ∧ 0 < o.executed ∧
    latest.filled = some o.executed ∧ latest.side = o.side ∧
    (latest.amount = none ∨ latest.amount = some o.amount)

/-- The order is over and has not executed. -/
def Unexecuted (x : Exchange) (n : OrderId) : Prop :=
  ∃ o, x[n]? = some o ∧ o.status ≠ .opened ∧ o.executed = 0

theorem Executed.of_report {x : Exchange} {o : ExchangeOrder} {shape : Shape}
    (ho : x[n]? = some o) (hs : o.status ≠ .opened)
    (hpos : 0 < (o.report n shape).filledOrZero) : Executed x n (o.report n shape) := by
  have hf : shape.filled = true := by
    by_contra hf
    simp [Order.filledOrZero, ExchangeOrder.report, hf] at hpos
  refine ⟨rfl, o, ho, hs, ?_, ?_, rfl, ?_⟩
  · simpa [Order.filledOrZero, ExchangeOrder.report, hf] using hpos
  · simp [ExchangeOrder.report, hf]
  · cases h : shape.amount with
    | true => exact .inr (if_pos h)
    | false => exact .inl (if_neg (Bool.eq_false_iff.mp h))

theorem Executed.evolves {x x' : Exchange} {latest : Order} (h : Executed x n latest)
    (hev : Exchange.Evolves full x x') : Executed x' n latest := by
  obtain ⟨hid, o, ho, hs, hrest⟩ := h
  exact ⟨hid, o, hev.settled ho hs, hs, hrest⟩

theorem Unexecuted.evolves {x x' : Exchange} (h : Unexecuted x n)
    (hev : Exchange.Evolves full x x') : Unexecuted x' n := by
  obtain ⟨o, ho, hs, hzero⟩ := h
  exact ⟨o, hev.settled ho hs, hs, hzero⟩

/-- What a wait for order `n` ends in. -/
def Waited (terms : Terms) (J : Exchange → List OrderRow → Prop) (s₀ : Memory × World)
    (n : OrderId) (purpose : Purpose) : Except String Order → Memory × World → Prop :=
  Ends (fun latest t => From terms J s₀ t ∧ Executed t.2.exchange n latest)
    fun t => From terms J s₀ t ∧
      (terms.clean → purpose = .closing → Unexecuted t.2.exchange n)

/-- A status read of order `n`: a truthful report of its state, and with `filled` if the terms
ask for it. -/
theorem status_rule (hJ : Kept terms J) (h : From terms J s₀ s)
    (ho₀ : s₀.2.exchange[n]? = some o₀) {Q : Except String Order → _ → Prop}
    (hok : ∀ o shape s' t, From terms J s₀ s' → From terms J s' t →
      s'.2.exchange[n]? = some o → (s₀.1.Tracks n ∨ terms.clean ∧ o₀.purpose = .closing →
        shape.filled = true) → Q (.ok (o.report n shape)) t)
    (herr : ∀ e t, From terms J s₀ t → ¬ (s₀.1.Tracks n ∨ terms.clean ∧ o₀.purpose = .closing) →
      Q (.error e) t) :
    Safe (contract terms J) Q (request (.checkStatusOrderById n)) s := by
  apply quiet_rule hJ rfl rfl h
  intro s' outcome x w t hs' hmeets hserve hw ht
  have hmeets : (s₀.1.Tracks n ∨ terms.clean ∧ o₀.purpose = .closing) →
      outcome.reportsFilled := by
    rintro (htr | ⟨hc, hp⟩)
    · exact hmeets (.inl (hs'.tracks.mpr htr))
    · obtain ⟨o, ho, hev⟩ := hs'.order ho₀
      exact hmeets (.inr ⟨hc, o, ho, hev.purpose.trans hp⟩)
  cases outcome with
  | reported shape =>
    obtain ⟨o, ho, hx⟩ := Option.map_eq_some_iff.mp hserve
    cases hx
    exact hok o shape s' t hs' ht ho hmeets
  | rejected e =>
    cases hserve
    exact herr e t (hs'.trans ht) fun hc => Bool.false_ne_true (hmeets hc)
  | _ => cases hserve

/-- The polls of `_waitForExecution`. -/
theorem pollExecution_safe (hJ : Kept terms J) (h : From terms J s₀ s)
    (ho₀ : s₀.2.exchange[n]? = some o₀) (hid : order.id = n)
    (huntracked : ¬ s₀.1.Tracks n)
    (hsession : o₀.purpose = .closing → o₀.session = s₀.1.indexOperation) (attempts : Nat) :
    Safe (contract terms J) (Waited terms J s₀ n o₀.purpose) (pollExecution order attempts) s := by
  subst hid
  induction attempts generalizing s with
  | zero =>
    -- after a successful cancellation the order is over, and the last read decides
    apply Safe.bind (Q := Ends
      (fun _ t => ∃ s₁ : Memory × World, From terms J s₀ s₁ ∧ From terms J s₁ t ∧
        ∀ o, s₁.2.exchange[order.id]? = some o → o.status ≠ .opened)
      (fun t => From terms J s₀ t ∧
        (terms.clean → o₀.purpose = .closing → Unexecuted t.2.exchange order.id)))
    · apply quiet_rule hJ rfl rfl h
      intro s' outcome x w t hs' hmeets hserve hw ht
      have hover (htracked : terms.clean → ClosingsTracked s'.1 s'.2.exchange) (hc : terms.clean)
          (hp : o₀.purpose = .closing) (hw : Exchange.Evolves terms.full s'.2.exchange w.exchange) :
          Unexecuted t.2.exchange order.id := by
        obtain ⟨o, ho, hev⟩ := hs'.order ho₀
        have hlt := (List.getElem?_eq_some_iff.mp ho).1
        have hna : ¬ o.Accountable := fun ha =>
          huntracked (hs'.tracks.mp (htracked hc _ hlt o ho
            (hev.session.trans ((hsession hp).trans hs'.indexOperation.symm))
            (hev.purpose.trans hp) ha))
        have hna := not_or.mp hna
        have hzero : o.executed = 0 :=
          le_antisymm (not_lt.mp hna.2) (hJ.nonneg hs'.holds o (List.mem_of_getElem? ho))
        exact Unexecuted.evolves ⟨o, ho, hna.1, hzero⟩ (hw.trans ht.exchange)
      cases outcome with
      | done =>
        cases hserve
        exact ⟨_, hw, ht, fun o ho => Exchange.cancelAll_ne_opened ho⟩
      | rejected e =>
        cases hserve
        exact ⟨hw.trans ht, fun hc hp => hover (fun hc => hmeets.2 hc rfl) hc hp (.refl _)⟩
      | partlyCancelled ids =>
        cases hserve
        exact ⟨hw.trans ht, fun hc hp => hover (fun hc => hmeets.2 hc rfl) hc hp
          (.cancelOrders hmeets.1)⟩
      | _ => cases hserve
    · rintro _ t ⟨s₁, hs₁, ht, hover⟩
      obtain ⟨o₁, ho₁, hev₁⟩ := hs₁.order ho₀
      have hset := hover o₁ ho₁
      apply Safe.bind (Q := Ends
        (fun latest t => From terms J s₀ t ∧ ∃ shape : Shape, latest = o₁.report order.id shape ∧
          t.2.exchange[order.id]? = some o₁ ∧
          (terms.clean ∧ o₀.purpose = .closing → shape.filled = true))
        (fun t => From terms J s₀ t ∧ ¬ (terms.clean ∧ o₀.purpose = .closing)))
      · apply status_rule hJ ht ho₁
        · intro o shape s' u hs' hu ho hf
          have := hs'.exchange.settled ho₁ hset
          rw [this] at ho
          cases ho
          exact ⟨hs₁.trans (hs'.trans hu), shape, rfl, hu.exchange.settled this hset,
            fun hc => hf (.inr ⟨hc.1, hev₁.purpose.trans hc.2⟩)⟩
        · intro e u hu hne
          exact ⟨hs₁.trans hu, fun hc => hne (.inr ⟨hc.1, hev₁.purpose.trans hc.2⟩)⟩
      · rintro latest u ⟨hu, shape, rfl, ho, hf⟩
        split
        next hpos => exact ⟨hu, .of_report ho hset hpos⟩
        next hzero =>
          refine ⟨hu, fun hc hp => ⟨o₁, ho, hset, ?_⟩⟩
          have hnn := hJ.nonneg hu.holds o₁ (List.mem_of_getElem? ho)
          have hle : o₁.executed ≤ 0 := by
            simpa [Order.filledOrZero, ExchangeOrder.report, hf ⟨hc, hp⟩] using hzero
          exact le_antisymm hle hnn
      · rintro e u ⟨hu, hne⟩
        exact ⟨hu, fun hc hp => absurd ⟨hc, hp⟩ hne⟩
    · exact fun e t ht => ht
  | succ attempts ih =>
    apply Safe.bind (Q := Ends
      (fun latest t => From terms J s₀ t ∧
        ∃ (o : ExchangeOrder) (shape : Shape) (s' : Memory × World),
        latest = o.report order.id shape ∧ s'.2.exchange[order.id]? = some o ∧ From terms J s' t ∧
          (terms.clean ∧ o₀.purpose = .closing → shape.filled = true))
      (fun t => From terms J s₀ t ∧ ¬ (terms.clean ∧ o₀.purpose = .closing)))
    · apply status_rule hJ h ho₀
      · intro o shape s' u hs' hu ho hf
        exact ⟨hs'.trans hu, o, shape, s', rfl, ho, hu, fun hc => hf (.inr hc)⟩
      · exact fun e u hu hne => ⟨hu, fun hc => hne (.inr hc)⟩
    · rintro latest u ⟨hu, o, shape, s', rfl, ho, hu', hf⟩
      -- a reported status other than open is final
      have hfinal (hs : (o.report order.id shape).status ≠ none)
          (hne : (o.report order.id shape).status ≠ some .opened) : o.status ≠ .opened := by
        simp only [ExchangeOrder.report] at hs hne
        split at hs
        next hsh => simpa [hsh] using hne
        next => exact absurd rfl hs
      split
      next hclosed =>
        have hset := hfinal (by rw [hclosed.1]; exact nofun) (by rw [hclosed.1]; exact nofun)
        exact ⟨hu, .evolves (.of_report ho hset hclosed.2) hu'.exchange⟩
      next =>
        split
        next hover =>
          have hset : o.status ≠ .opened := by
            refine hfinal ?_ ?_ <;> intro hs <;> rw [hs] at hover <;> simp at hover
          split
          next hpos => exact ⟨hu, .evolves (.of_report ho hset hpos) hu'.exchange⟩
          next hzero =>
            refine ⟨hu, fun hc hp => .evolves ⟨o, ho, hset, ?_⟩ hu'.exchange⟩
            have ho' := hu'.exchange.settled ho hset
            have hnn := hJ.nonneg hu.holds o (List.mem_of_getElem? ho')
            have hle : o.executed ≤ 0 := by
              simpa [Order.filledOrZero, ExchangeOrder.report, hf ⟨hc, hp⟩] using hzero
            exact le_antisymm hle hnn
        next =>
          exact Safe.bind (sleep_rule hJ hu) (fun _ t ht => ih ht) fun _ _ hf => hf.elim
    · rintro e u ⟨hu, hne⟩
      exact ⟨hu, fun hc hp => absurd ⟨hc, hp⟩ hne⟩

/-- `_waitForExecution` of an order whose acceptance was reported. -/
theorem waitForExecution_safe (hJ : Kept terms J) (h : From terms J s₀ s)
    (ho₀ : s₀.2.exchange[n]? = some o₀) (huntracked : ¬ s₀.1.Tracks n)
    (hsession : o₀.purpose = .closing → o₀.session = s₀.1.indexOperation) (shape : Shape) :
    Safe (contract terms J) (Waited terms J s₀ n o₀.purpose)
      (waitForExecution (o₀.report n shape)) s := by
  unfold waitForExecution
  split
  next hclosed =>
    have hs : o₀.status ≠ .opened := by
      have := hclosed.2
      simp only [ExchangeOrder.report] at this
      split at this
      next => rw [Option.some.inj this]; exact nofun
      next => cases this
    exact ⟨h, .evolves (.of_report ho₀ hs hclosed.1) h.exchange⟩
  next => exact pollExecution_safe hJ h ho₀ rfl huntracked hsession 60

/-! ## Reading the tracked orders -/

theorem resolveExecutedAmount_report {o : ExchangeOrder} {shape : Shape} (hf : shape.filled = true)
    (hpos : 0 < o.executed) (tracked : TrackedOrder) :
    resolveExecutedAmount tracked (some (o.report n shape)) = o.executed := by
  simp [resolveExecutedAmount, ExchangeOrder.report, hf, Num.positive, Num.lt, hpos]

theorem readFilledOrders_safe (hJ : Kept terms J)
    (ha : Accounted session s₀.1.orders s₀.2.exchange) (h : From terms J s₀ s) {bound i : Nat}
    {filledOrders : List FilledOrderExposure}
    (hread : filledOrders = (s₀.1.orders.take i).map (TrackedOrder.exposure s₀.2.exchange)) :
    Safe (contract terms J)
      (Ends (fun l t => From terms J s₀ t ∧
        l = s₀.1.orders.map (TrackedOrder.exposure s₀.2.exchange)) fun _ => False)
      (readFilledOrders s₀.1.retired.length bound i filledOrders) s := by
  induction bound generalizing s i filledOrders with
  | zero => trivial
  | succ bound ih =>
    unfold readFilledOrders
    rw [safe_get_bind, ← h.retired, Memory.array_length, h.orders]
    cases ht : s₀.1.orders[i]? with
    | none =>
      have hlen := List.getElem?_eq_none_iff.mp ht
      rw [List.take_of_length_le hlen] at hread
      exact ⟨h, hread⟩
    | some tracked =>
      have hmem := List.mem_of_getElem? ht
      obtain ⟨o, ho, hsession, hside, hpos⟩ := ha.known tracked hmem
      have hset := ha.settled _ o ho hsession
      have htr : s₀.1.Tracks tracked.exchangeOrderId := List.mem_map_of_mem hmem
      -- the order is tracked and settled, so its status is read, and tells what it executed
      apply Safe.bind (Q := Ends (fun status t => From terms J s₀ t ∧
        resolveExecutedAmount tracked status = tracked.executed s₀.2.exchange) fun _ => False)
      · apply Safe.orUndefined
        apply status_rule hJ h ho
        · intro o' shape s' t hs' ht ho' hf
          rw [hs'.exchange.settled ho hset] at ho'
          cases ho'
          refine ⟨hs'.trans ht, ?_⟩
          rw [resolveExecutedAmount_report (hf (.inl htr)) hpos, TrackedOrder.executed, ho]
          rfl
        · exact fun e t _ hne => absurd (.inl htr) hne
      · rintro status t ⟨ht', hres⟩
        rw [h.retired]
        apply ih ht'
        rw [hread, List.take_add_one, ht, List.map_append, hres]
        rfl
      · exact fun _ _ hf => hf.elim

/-! ## Submitting an order -/

/-- Orders are added and evolve; what they are does not change. -/
def Exchange.Grows (x x' : Exchange) : Prop :=
  ∀ (n : OrderId) (o : ExchangeOrder), x[n]? = some o → ∃ o', x'[n]? = some o' ∧
    o'.session = o.session ∧ o'.purpose = o.purpose ∧ o'.side = o.side

theorem Exchange.Grows.refl (x : Exchange) : x.Grows x := fun _ o ho => ⟨o, ho, rfl, rfl, rfl⟩

theorem Exchange.Grows.trans {x x' x'' : Exchange} (h : x.Grows x') (h' : x'.Grows x'') :
    x.Grows x'' := by
  intro n o ho
  obtain ⟨o', ho', hsession, hpurpose, hside⟩ := h n o ho
  obtain ⟨o'', ho'', hsession', hpurpose', hside'⟩ := h' n o' ho'
  exact ⟨o'', ho'', hsession'.trans hsession, hpurpose'.trans hpurpose, hside'.trans hside⟩

theorem Exchange.Evolves.grows {x x' : Exchange} (h : Exchange.Evolves full x x') : x.Grows x' := by
  intro n o ho
  obtain ⟨o', ho', hev⟩ := h.getElem? ho
  exact ⟨o', ho', hev.session, hev.purpose, hev.side⟩

theorem Exchange.grows_append (x : Exchange) (l : List ExchangeOrder) : x.Grows (x ++ l) := by
  intro n o ho
  refine ⟨o, ?_, rfl, rfl, rfl⟩
  rw [List.getElem?_append_left (List.getElem?_eq_some_iff.mp ho).1, ho]

/-- What every part of a session leaves as it is: the session, the services and what the orders
are. -/
structure Goes (s t : Memory × World) : Prop where
  indexOperation : t.1.indexOperation = s.1.indexOperation
  services : t.1.services = s.1.services
  grows : s.2.exchange.Grows t.2.exchange

theorem Goes.refl (s : Memory × World) : Goes s s := ⟨rfl, rfl, .refl _⟩

theorem Goes.trans (h : Goes s₀ s) (h' : Goes s t) : Goes s₀ t :=
  ⟨h'.indexOperation.trans h.indexOperation, h'.services.trans h.services, h.grows.trans h'.grows⟩

theorem From.goes (h : From terms J s₀ s) : Goes s₀ s :=
  ⟨h.indexOperation, h.services, h.exchange.grows⟩

/-- The state in which order `o` has been accepted. -/
structure Submitted (terms : Terms) (J : Exchange → List OrderRow → Prop) (s₀ s₁ : Memory × World)
    (o : ExchangeOrder) : Prop where
  orders : s₁.1.orders = s₀.1.orders
  indexOperation : s₁.1.indexOperation = s₀.1.indexOperation
  services : s₁.1.services = s₀.1.services
  rows : s₁.2.orders = s₀.2.orders
  exchange : ∃ x, Exchange.Evolves terms.full s₀.2.exchange x ∧ s₁.2.exchange = x ++ [o]
  holds : J s₁.2.exchange s₁.2.orders

namespace Submitted

variable {o : ExchangeOrder}

theorem getElem? (h : Submitted terms J s₀ s₁ o) :
    s₁.2.exchange[s₀.2.exchange.length]? = some o := by
  obtain ⟨x, hx, heq⟩ := h.exchange
  rw [heq, ← hx.length, List.getElem?_concat_length]

theorem goes (h : Submitted terms J s₀ s₁ o) : Goes s₀ s₁ := by
  obtain ⟨x, hx, heq⟩ := h.exchange
  refine ⟨h.indexOperation, h.services, ?_⟩
  rw [heq]
  exact hx.grows.trans (Exchange.grows_append _ _)

theorem awaiting (h : Submitted terms J s₀ s₁ o)
    (ha : Accounted session s₀.1.orders s₀.2.exchange) :
    Awaiting session s₁.1.orders s₀.2.exchange.length s₁.2.exchange := by
  obtain ⟨x, hx, heq⟩ := h.exchange
  rw [heq, h.orders, ← hx.length]
  exact (ha.evolves hx).awaiting o

end Submitted

/-- An order is submitted: it is accepted, or not, or its acceptance is not reported. -/
theorem createOrder_rule (hJ : Kept terms J) (h : From terms J s₀ s) {purpose : Purpose}
    (haccepts : ∀ s', From terms J s₀ s' → ∀ fill, 0 < amount → 0 ≤ fill → fill ≤ amount →
      J (s'.2.exchange ++ [.accepted session purpose side amount fill]) s'.2.orders) :
    Safe (contract terms J)
      (Ends (fun submitted t => ∃ s₁ fill shape,
          let o := ExchangeOrder.accepted session purpose side amount fill
          Submitted terms J s₀ s₁ o ∧ From terms J s₁ t ∧ 0 < amount ∧
            submitted = o.report s₀.2.exchange.length shape)
        fun t => J t.2.exchange t.2.orders ∧
          (terms.clean → purpose = .closing → From terms J s₀ t))
      (request (.createOrder purpose session side amount price)) s := by
  apply request_rule hJ h (fun _ _ _ hends => by cases hends)
  intro s' outcome x w t hs' hmeets hserve ht
  cases outcome with
  | accepted fill shape =>
    simp only [serve] at hserve
    split at hserve
    next hc =>
      cases hserve
      have hholds := haccepts s' hs' fill hc.1 hc.2.1 hc.2.2.1
      have hu := (From.refl (s := (s'.1, s'.2.accept (.accepted session purpose side amount fill)))
        hholds).interferes hJ ht
      refine ⟨hu.holds, (s'.1, s'.2.accept (.accepted session purpose side amount fill)), fill,
        shape, ⟨hs'.orders, hs'.indexOperation, hs'.services, hs'.rows,
          ⟨_, hs'.exchange, rfl⟩, hholds⟩, hu, hc.1, ?_⟩
      rw [hs'.exchange.length]
    next => cases hserve
  | lost fill =>
    simp only [serve] at hserve
    split at hserve
    next hc =>
      cases hserve
      have hu := (From.refl (s := (s'.1, s'.2.accept (.accepted session purpose side amount fill)))
        (haccepts s' hs' fill hc.1 hc.2.1 hc.2.2.1)).interferes hJ ht
      refine ⟨hu.holds, hu.holds, fun hc hp => ?_⟩
      subst hp
      exact absurd (hmeets.symm.trans hc) Bool.false_ne_true
    next => cases hserve
  | rejected e =>
    cases hserve
    have hu := hs'.interferes hJ ht
    exact ⟨hu.holds, hu.holds, fun _ _ => hu⟩
  | _ => cases hserve

/-- A closing order is submitted for the position of the session. -/
theorem createClosing_rule (hJ : Kept terms J) (h : From terms J s₀ s)
    (ha : Accounted session s₀.1.orders s₀.2.exchange)
    (hnet : side.sign * amount = -s₀.2.exchange.net session) :
    Safe (contract terms J)
      (Ends (fun submitted t => ∃ s₁ fill shape,
          let o := ExchangeOrder.accepted session .closing side amount fill
          Submitted terms J s₀ s₁ o ∧ From terms J s₁ t ∧ 0 < amount ∧
            submitted = o.report s₀.2.exchange.length shape)
        fun t => J t.2.exchange t.2.orders ∧ (terms.clean → From terms J s₀ t))
      (request (.createOrder .closing session side amount price)) s := by
  refine (createOrder_rule hJ h fun s' hs' fill hpos hfill hle => ?_).mono fun x t ht => ?_
  · have hnet' : side.sign * amount = -s'.2.exchange.net session := by
      rw [hnet, Exchange.net, Exchange.net, ha.settled.total_eq hs'.exchange]
    exact hJ.closes hs'.holds (ha.evolves hs'.exchange) hpos hnet' hfill hle
  · cases x with
    | ok => exact ht
    | error => exact ⟨ht.1, fun hc => ht.2 hc rfl⟩

/-! ## Recording an executed order -/

/-- As `From`, but rows may have been added. -/
structure Saved (terms : Terms) (J : Exchange → List OrderRow → Prop) (s₀ s : Memory × World) :
    Prop where
  orders : s.1.orders = s₀.1.orders
  indexOperation : s.1.indexOperation = s₀.1.indexOperation
  services : s.1.services = s₀.1.services
  exchange : Exchange.Evolves terms.full s₀.2.exchange s.2.exchange
  holds : J s.2.exchange s.2.orders

theorem Saved.goes (h : Saved terms J s₀ s) : Goes s₀ s :=
  ⟨h.indexOperation, h.services, h.exchange.grows⟩

theorem From.saved (h : From terms J s₀ s) : Saved terms J s₀ s :=
  ⟨h.orders, h.indexOperation, h.services, h.exchange, h.holds⟩

/-- `_saveActivatedOrder`: the row tells the truth about the order. -/
theorem saveActivatedOrder_rule (hJ : Kept terms J) (h : From terms J s₀ s)
    (ho₀ : s₀.2.exchange[n]? = some o₀) (hex : Executed s.2.exchange n latest)
    (hrows : terms.clean → ∀ row ∈ s₀.2.orders, row.orderId < n) :
    Safe (contract terms J)
      (Ends (fun _ t => Saved terms J s₀ t ∧ Executed t.2.exchange n latest) fun _ => False)
      (request (.createOrderRow (latest.activated o₀.session o₀.side price amount))) s := by
  obtain ⟨hid, o, ho, hset, hpos, hfilled, _⟩ := id hex
  obtain ⟨o', ho', hev⟩ := h.order ho₀
  rw [ho] at ho'
  cases ho'
  apply request_rule hJ (.refl h.holds) (fun _ _ _ hends => by cases hends)
  intro s' outcome x w t hs' hmeets hserve ht
  have hs₀ := h.trans hs'
  have hos' := hs'.exchange.settled ho hset
  cases outcome with
  | done =>
    cases hserve
    have hamount : (latest.activated o₀.session o₀.side price amount).amount = some o.executed := by
      simp [Order.activated, hfilled]
    have hrecords := hJ.records hs'.holds hos' hset hpos hev.session.symm hid hamount hev.side.symm
      (fun hc row hrow => hrows hc row (hs₀.rows ▸ hrow))
    have hholds := hJ.evolves hrecords ht.exchange
    refine ⟨ht.rows ▸ hholds, ⟨ht.orders.trans hs₀.orders, ?_, ?_, ?_, ht.rows ▸ hholds⟩, ?_⟩
    · exact ht.indexOperation.trans hs₀.indexOperation
    · exact ht.services.trans hs₀.services
    · exact hs₀.exchange.trans ht.exchange
    · exact hex.evolves (hs'.exchange.trans ht.exchange)
  | rejected e =>
    cases hserve
    have hu := hs₀.interferes hJ ht
    exact ⟨hu.holds, hu.saved, hex.evolves (hs'.exchange.trans ht.exchange)⟩
  | _ => cases hserve

/-! ## Closing the position -/

/-- The tracked orders account for the session. -/
structure Rest (J : Exchange → List OrderRow → Prop) (s : Memory × World) : Prop where
  accounted : Accounted s.1.indexOperation s.1.orders s.2.exchange
  holds : J s.2.exchange s.2.orders

theorem Rest.from (hr : Rest J s₀) (h : From terms J s₀ s) : Rest J s :=
  ⟨by rw [h.indexOperation, h.orders]; exact hr.accounted.evolves h.exchange, h.holds⟩

/-- A closing order has been submitted, has executed and is tracked. -/
structure Closed (terms : Terms) (J : Exchange → List OrderRow → Prop) (s₀ s : Memory × World) :
    Prop extends Rest J s, Goes s₀ s where
  tracked : s.1.orders ≠ []
  flat : terms.full → s.2.exchange.net s.1.indexOperation = 0
  submitted : ∃ x o, Exchange.Evolves terms.full s₀.2.exchange x ∧ o.purpose = .closing ∧
    s.2.exchange = x ++ [o]

theorem Closed.of_from (h : Closed terms J s t) (hs : From terms J s₀ s) : Closed terms J s₀ t := by
  obtain ⟨x, o, hx, hrest⟩ := h.submitted
  exact ⟨h.toRest, hs.goes.trans h.toGoes, h.tracked, h.flat, x, o, hs.exchange.trans hx, hrest⟩

/-- A closing order that has executed in full offsets the position. -/
theorem net_of_closing {x y : Exchange} {fill : Rat} (hs : x.Settled session)
    (hnet : side.sign * amount = -x.net session) (hx : Exchange.Evolves full x x')
    (hev : Exchange.Evolves full (x' ++ [.accepted session .closing side amount fill]) y)
    (ho : y[x.length]? = some o) (hset : o.status ≠ .opened) (hpos : 0 < o.executed)
    (hfull : full) : y.net session = 0 := by
  obtain ⟨x'', o', rfl, hx', ho'⟩ := hev.append_inv
  rw [← (hx.trans hx').length, List.getElem?_concat_length, Option.some_inj] at ho
  subst ho
  have hexec : o'.executed = amount := by
    obtain h | h | h := ho'.uncut hfull rfl hset
    · subst h
      simp only [ExchangeOrder.accepted] at hset ⊢
      split at hset
      next heq => exact heq
      next => exact absurd rfl hset
    · exact absurd h (ne_of_gt hpos)
    · exact h
  have hsigned : o'.signed = side.sign * amount := by
    rw [ExchangeOrder.signed, hexec, ho'.side]
    rfl
  have hsession : o'.session = session := ho'.session
  rw [Exchange.net, Exchange.total_append, if_pos hsession, hsigned, hnet, Exchange.net,
    ← hs.total_eq (hx.trans hx'), add_neg_cancel]

/-- The order has executed and is pushed. -/
theorem Submitted.push {o₁ : ExchangeOrder} (hsub : Submitted terms J s₀ s₁ o₁)
    (hsession : o₁.session = s₀.1.indexOperation) (hr : Rest J s₀) (hw : Saved terms J s₁ s)
    (hex : Executed s.2.exchange s₀.2.exchange.length latest) :
    Rest J (s.1.push latest, s.2) ∧ Goes s₀ (s.1.push latest, s.2) := by
  obtain ⟨hid, o, ho, hset, hpos, _, hside, _⟩ := hex
  obtain ⟨o', ho', hev⟩ := hw.exchange.getElem? hsub.getElem?
  rw [ho] at ho'
  cases ho'
  have hindex : s.1.indexOperation = s₀.1.indexOperation :=
    hw.indexOperation.trans hsub.indexOperation
  refine ⟨⟨?_, hw.holds⟩, hindex, ?_, ?_⟩
  · change Accounted s.1.indexOperation (s.1.orders ++ [.order latest]) s.2.exchange
    rw [hindex, hw.orders]
    have hwait := (hsub.awaiting hr.accounted).evolves hw.exchange
    exact hwait.executed ho (hev.session.trans hsession) hset hpos hid hside.symm
  · exact hw.services.trans hsub.services
  · exact hsub.goes.grows.trans hw.goes.grows

/-- The closing order has executed and is pushed. -/
theorem Submitted.push_closed (hsub : Submitted terms J s₀ s₁
      (.accepted s₀.1.indexOperation .closing side amount fill)) (hr : Rest J s₀)
    (hnet : side.sign * amount = -s₀.2.exchange.net s₀.1.indexOperation)
    (hw : Saved terms J s₁ s) (hex : Executed s.2.exchange s₀.2.exchange.length latest) :
    Closed terms J s₀ (s.1.push latest, s.2) := by
  obtain ⟨hrest, hgoes⟩ := hsub.push rfl hr hw hex
  obtain ⟨_, o, ho, hset, hpos, _⟩ := hex
  obtain ⟨x, hx, hs₁⟩ := hsub.exchange
  have hev := hw.exchange
  rw [hs₁] at hev
  obtain ⟨x', o', heq, hx', ho'⟩ := hev.append_inv
  refine ⟨hrest, hgoes, fun hnil => by simp [Memory.push] at hnil, fun hfull => ?_, x', o',
    hx.trans hx', ho'.purpose, heq⟩
  rw [hgoes.indexOperation]
  exact net_of_closing hr.accounted.settled hnet hx hev ho hset hpos hfull

theorem submitClosingOrder_safe (hJ : Kept terms J) (hr : Rest J s₀) (h : From terms J s₀ s)
    (hnet : exposure.side.sign * exposure.amount = -s₀.2.exchange.net s₀.1.indexOperation) :
    Safe (contract terms J)
      (Ends (fun _ t => Closed terms J s₀ t)
        fun t => J t.2.exchange t.2.orders ∧ (terms.clean → Rest J t ∧ Goes s₀ t))
      (submitClosingOrder s₀.1.indexOperation exposure) s := by
  unfold submitClosingOrder
  apply Safe.bind (Q := fun _ t => From terms J s₀ t) (quiet_from hJ rfl rfl h)
  swap
  · exact fun _ t ht => ⟨ht.holds, fun _ => ⟨hr.from ht, ht.goes⟩⟩
  intro price t ht
  apply Safe.bind (createClosing_rule hJ ht hr.accounted hnet)
  swap
  · rintro e u ⟨hu, hfrom⟩
    exact ⟨hu, fun hc => ⟨hr.from (hfrom hc), (hfrom hc).goes⟩⟩
  rintro submitted u ⟨s₁, fill, shape, hsub, hu, hpos, rfl⟩
  have hwait := hsub.awaiting hr.accounted
  apply Safe.bind (waitForExecution_safe hJ hu hsub.getElem? hwait.fresh
    (fun _ => hsub.indexOperation.symm) shape)
  swap
  · -- the order is known to have ended without executing
    rintro e v ⟨hv, hun⟩
    refine ⟨hv.holds, fun hc => ⟨⟨?_, hv.holds⟩, hsub.goes.trans hv.goes⟩⟩
    obtain ⟨o, ho, hset, hzero⟩ := hun hc rfl
    rw [hv.indexOperation, hsub.indexOperation, hv.orders]
    exact (hwait.evolves hv.exchange).unexecuted ho hset hzero
  rintro closingOrder v ⟨hv, hex⟩
  split
  next =>
    apply Safe.bind (saveActivatedOrder_rule hJ hv hsub.getElem? hex
      (fun hc row hrow => hJ.rows hc hr.holds row (hsub.rows ▸ hrow)))
    · rintro _ w ⟨hw, hex'⟩
      exact hsub.push_closed hr hnet hw hex'
    · exact fun _ _ hf => hf.elim
  next => exact hsub.push_closed hr hnet hv.saved hex

/-- What `closeFilledPosition` does to a session that is accounted for. Without a closing order
there was no exposure to close. -/
theorem closeFilledPosition_safe (hJ : Kept terms J) (hr : Rest J s₀) (h : From terms J s₀ s)
    (bound : Nat) :
    Safe (contract terms J)
      (Ends (fun closingOrder t => if closingOrder.isSome then Closed terms J s₀ t
          else From terms J s₀ t ∧ |t.2.exchange.net t.1.indexOperation| ≤ epsilon)
        fun t => J t.2.exchange t.2.orders ∧ (terms.clean → Rest J t ∧ Goes s₀ t))
      (closeFilledPosition bound s₀.1.indexOperation) s := by
  unfold closeFilledPosition
  apply Safe.bind (Q := fun _ t => From terms J s₀ t) (quiet_from hJ rfl rfl h)
  swap
  · exact fun _ t ht => ⟨ht.holds, fun _ => ⟨hr.from ht, ht.goes⟩⟩
  intro _ t ht
  rw [safe_get_bind]
  have hrt := hr.from ht
  split
  next hnil =>
    refine ⟨ht, ?_⟩
    have ha := hrt.accounted
    rw [hnil] at ha
    rw [ha.net_nil (hJ.nonneg ht.holds), abs_zero]
    exact epsilon_pos.le
  next hne =>
    apply Safe.bind (readFilledOrders_safe hJ hrt.accounted (.refl ht.holds) rfl)
    swap
    · exact fun _ _ hf => hf.elim
    rintro filledOrders u ⟨hu, rfl⟩
    have hnet := hrt.accounted.net (hJ.nonneg ht.holds)
    split
    next hnone =>
      refine ⟨ht.trans hu, ?_⟩
      have := calculateClosingOrderExposure_none hnone
      rw [hnet] at this
      rwa [hu.indexOperation, Exchange.net, hrt.accounted.settled.total_eq hu.exchange]
    next exposure hsome =>
      obtain ⟨_, _, hexposure⟩ := calculateClosingOrderExposure_some hsome
      rw [hnet] at hexposure
      rw [← ht.indexOperation]
      refine Safe.bind (submitClosingOrder_safe hJ hrt hu hexposure) ?_ ?_
      · intro closingOrder v hv
        exact hv.of_from ht
      · rintro e v ⟨hv, hrest⟩
        exact ⟨hv, fun hc => ⟨(hrest hc).1, ht.goes.trans (hrest hc).2⟩⟩

end Tonatiuh.Trading
