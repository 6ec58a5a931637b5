import Tonatiuh.Trading.Sessions

/-! The trading task under the terms.

A session that is watched is accounted for and entered on one side (`Watches`). Every part of the
loop keeps this, also where an error is swallowed, or throws, and then nothing is known but that the
world is `Valid`. -/

namespace Tonatiuh.Trading

open Async Config

variable {terms : Terms} {s t : Memory × World} {d : Side}

/-! ## Orders of a session -/

/-- The session has an order that tells the side on which it was entered. -/
def Entered (d : Side) (s : Memory × World) : Prop :=
  ∃ (n : OrderId) (o : ExchangeOrder), s.2.exchange[n]? = some o ∧ o.session = s.1.indexOperation ∧
    o.side = o.purpose.side d

theorem Entered.goes (h : Entered d s) (hst : Goes s t) : Entered d t := by
  obtain ⟨n, o, ho, hsession, hside⟩ := h
  obtain ⟨o', ho', hsession', hpurpose, hside'⟩ := hst.grows n o ho
  exact ⟨n, o',
    ho', by rw [hsession', hsession, hst.indexOperation], by rw [hside', hside, hpurpose]⟩

/-- Then all its orders are on that side. -/
theorem Entered.sided (h : Entered d s) (hl : Ledger s.2.exchange s.2.orders) :
    s.2.exchange.Sided s.1.indexOperation d := by
  obtain ⟨n, o, ho, hsession, hside⟩ := h
  obtain ⟨d', hd'⟩ := hl.sided s.1.indexOperation
  have heq : o.purpose.side d' = o.purpose.side d :=
    (hd' o (List.mem_of_getElem? ho) hsession).symm.trans hside
  have hd : d' = d := by
    revert heq
    cases o.purpose <;> cases d' <;> cases d <;> first | exact fun _ => rfl | exact nofun
  exact hd ▸ hd'

/-- `openPositionForStrategy` on the side of the session. -/
theorem openPositionForStrategy_safe (hclean : terms.clean = true) (hr : Rest Ledger s)
    (hd : s.2.exchange.Sided s.1.indexOperation d) (amount : Rat) (price : Num) :
    Safe (contract terms Ledger)
      (Ends (fun order t => Rest Ledger t ∧ Goes s t ∧ Entered d t ∧ order.side = d)
        fun t => Ledger t.2.exchange t.2.orders)
      (openPositionForStrategy d amount price s.1.indexOperation) s := by
  have hJ := Ledger.kept hclean
  unfold openPositionForStrategy
  apply Safe.bind (createOrder_rule hJ (.refl hr.holds) fun s' hs' fill _ hfill hle =>
    hs'.holds.enters (hd.evolves hs'.exchange) hfill hle)
  swap
  · exact fun _ _ ht => ht.1
  rintro submitted u ⟨s₁, fill, shape, hsub, hu, _, rfl⟩
  have hwait := hsub.awaiting hr.accounted
  apply Safe.bind (waitForExecution_safe hJ hu hsub.getElem? hwait.fresh
    (fun hp => by cases hp) shape)
  swap
  · exact fun _ _ hv => hv.1.holds
  rintro newOrder v ⟨hv, hex⟩
  apply Safe.bind (saveActivatedOrder_rule hJ hv hsub.getElem? hex
    (fun hc row hrow => hJ.rows hc hr.holds row (hsub.rows ▸ hrow)))
  swap
  · exact fun _ _ hf => hf.elim
  rintro _ w ⟨hw, hex⟩
  obtain ⟨hrest, hgoes⟩ := hsub.push rfl hr hw hex
  obtain ⟨_, o, ho, _, _, _, hside, _⟩ := hex
  obtain ⟨o', ho', hev⟩ := hw.exchange.getElem? hsub.getElem?
  rw [ho] at ho'
  cases ho'
  refine ⟨hrest, hgoes, ⟨_, o, ho, hev.session.trans hgoes.indexOperation.symm, ?_⟩,
    hside.trans hev.side⟩
  rw [hev.side, hev.purpose]
  rfl

/-! ## Sessions that are watched -/

/-- The tracked orders account for the session, which has been started. -/
structure Resting (s : Memory × World) : Prop extends Rest Ledger s where
  started : s.2.Started
  inRange : ∀ i, s.1.indexOperation = some i → i < s.2.sessions.length

/-- And the session was entered on side `d`. -/
structure Watches (d : Side) (s : Memory × World) : Prop extends Resting s where
  entered : Entered d s

theorem Resting.valid (h : Resting s) : s.2.Valid := ⟨h.holds, h.started⟩

theorem Watches.sided (h : Watches d s) : s.2.exchange.Sided s.1.indexOperation d :=
  h.entered.sided h.holds

theorem Resting.next (hs : Resting s) (hr : Rest Ledger t) (hgoes : Goes s t)
    (hstarted : t.2.Started ∧ t.2.sessions.length = s.2.sessions.length) : Resting t :=
  ⟨hr, hstarted.1, fun i hi => hstarted.2 ▸ hs.inRange i (hgoes.indexOperation ▸ hi)⟩

/-- The position was closed by an order that is tracked. -/
structure HasClosed (terms : Terms) (t : Memory × World) : Prop where
  tracked : t.1.orders ≠ []
  flat : terms.full → t.2.exchange.net t.1.indexOperation = 0

theorem closeFilledPosition_session (hclean : terms.clean = true) (hs : Resting s) (bound : Nat) :
    Safe (sessionContract terms)
      (Ends (fun closingOrder t => Resting t ∧ Goes s t ∧
          (closingOrder.isSome = true → HasClosed terms t)) fun t => Resting t ∧ Goes s t)
      (closeFilledPosition bound s.1.indexOperation) s := by
  have hsafe := closeFilledPosition_safe (Ledger.kept hclean) hs.toRest (.refl hs.holds) bound
  refine (safe_inSession hsafe (closeFilledPosition_ofOrders bound _) hs.started hs.inRange).mono
    fun x t ⟨ht, hstarted⟩ => ?_
  cases x with
  | ok closingOrder =>
    rw [ends_ok] at ht
    split at ht
    next => exact ⟨hs.next ht.toRest ht.toGoes hstarted, ht.toGoes, fun _ => ⟨ht.tracked, ht.flat⟩⟩
    next hnone =>
      exact ⟨hs.next (hs.toRest.from ht.1) ht.1.goes hstarted, ht.1.goes,
        fun hsome => absurd hsome hnone⟩
  | error e =>
    obtain ⟨hrest, hgoes⟩ := ht.2 hclean
    exact ⟨hs.next hrest hgoes hstarted, hgoes⟩

theorem openPositionForStrategy_session (hclean : terms.clean = true) (hs : Resting s)
    (hd : s.2.exchange.Sided s.1.indexOperation d) (amount : Rat) (price : Num) :
    Safe (sessionContract terms)
      (Ends (fun order t => Watches d t ∧ order.side = d) fun t => t.2.Valid)
      (openPositionForStrategy d amount price s.1.indexOperation) s := by
  have hsafe := openPositionForStrategy_safe hclean hs.toRest hd amount price
  refine (safe_inSession hsafe (openPositionForStrategy_ofOrders d amount price _) hs.started
    hs.inRange).mono fun x t ⟨ht, hstarted⟩ => ?_
  cases x with
  | ok order =>
    obtain ⟨hrest, hgoes, hentered, hside⟩ := ht
    exact ⟨⟨hs.next hrest hgoes hstarted, hentered⟩, hside⟩
  | error e => exact ⟨ht, hstarted.1⟩

/-! ## Requests that leave the session alone -/

/-- The tracked and the stored orders are the same, and those of the account have moved by
themselves. -/
structure Idles (terms : Terms) (s t : Memory × World) : Prop extends From terms Ledger s t where
  started : t.2.Started
  sessions : t.2.sessions.length = s.2.sessions.length

namespace Idles

variable {s₀ : Memory × World}

theorem refl (h : s.2.Valid) : Idles terms s s := ⟨.refl h.ledger, h.started, rfl⟩

theorem trans (h : Idles terms s₀ s) (h' : Idles terms s t) : Idles terms s₀ t :=
  ⟨h.toFrom.trans h'.toFrom, h'.started, h'.sessions.trans h.sessions⟩

theorem valid (h : Idles terms s t) : t.2.Valid := ⟨h.holds, h.started⟩

theorem resting (h : Idles terms s t) (hs : Resting s) : Resting t :=
  hs.next (hs.toRest.from h.toFrom) h.goes ⟨h.started, h.sessions⟩

theorem watches (h : Idles terms s t) (hs : Watches d s) : Watches d t :=
  ⟨h.resting hs.toResting, hs.entered.goes h.goes⟩

theorem rely (h : Idles terms s₀ s) (hst : (sessionContract terms).rely s t) :
    Idles terms s₀ t := by
  obtain ⟨hst, hsessions⟩ := hst
  refine h.trans ⟨⟨hst, hst.rows ▸ h.holds.evolves hst.exchange⟩, ?_, by rw [hsessions]⟩
  exact h.started.evolves (by rw [hsessions]) hst.exchange

end Idles

/-- The rule of a request that leaves the session alone, and may end it. -/
theorem idle_rule {s₀ : Memory × World} (h : Idles terms s₀ s) {r : Request}
    {Q : Except String r.Answer → Memory × World → Prop} (hq : r.quiet = true)
    (hr : r ≠ .startSession)
    (hends : ∀ t, Idles terms s₀ t → EndsFlat terms.full t.2.exchange r)
    (hQ : ∀ s' outcome x w t, Idles terms s₀ s' → terms.Meets s'.1 s'.2 r outcome →
      serve s'.2 r outcome = some (x, w) → Idles terms (s'.1, w) t → Idles terms s₀ t → Q x t) :
    Safe (sessionContract terms) Q (request r) s := by
  apply Safe.request
  intro s' hs'
  have hidle := h.rely hs'
  refine ⟨⟨hidle.valid, hends s' hidle⟩, ?_⟩
  rintro x ⟨m, w⟩ ⟨hm, outcome, hmeets, hserve⟩ t ht
  cases hm
  obtain ⟨hrows, hev⟩ := serve_quiet hq hmeets hserve
  have hlength := serve_sessions_length hr hserve
  have hw : Idles terms s' (s'.1, w) := by
    refine ⟨⟨⟨rfl, rfl, rfl, rfl, hrows, hev⟩, ?_⟩, hidle.started.evolves hlength.ge hev, hlength⟩
    exact hrows ▸ hidle.holds.evolves hev
  have hwt : Idles terms (s'.1, w) t := Idles.rely (.refl hw.valid) ht
  have ht := hidle.trans (hw.trans hwt)
  exact ⟨ht.valid, hQ s' outcome x w t hidle hmeets hserve hwt ht⟩

/-- The session may be ended: nothing of it is open, and its position is flat. -/
structure Endable (terms : Terms) (session : Option SessionId) (s : Memory × World) : Prop where
  settled : s.2.exchange.Settled session
  flat : terms.full → s.2.exchange.Flat session

theorem Endable.endsFlat {s₀ : Memory × World} {r : Request}
    (h : ∀ session, r.ends = some session → Endable terms session s₀) (ht : Idles terms s₀ t) :
    EndsFlat terms.full t.2.exchange r := by
  intro session hsession hfull _
  have hend := h session hsession
  rw [Exchange.Flat, Exchange.net, Exchange.traded, hend.settled.total_eq ht.exchange,
    hend.settled.total_eq ht.exchange]
  exact hend.flat hfull

/-- The same when the answer does not matter. -/
theorem request_idle {s₀ : Memory × World} (h : Idles terms s₀ s) {r : Request}
    (hq : r.quiet = true)
    (hr : r ≠ .startSession) (he : ∀ session, r.ends = some session → Endable terms session s₀) :
    Safe (sessionContract terms) (fun _ t => Idles terms s₀ t) (request r) s :=
  idle_rule h hq hr (fun _ ht => Endable.endsFlat he ht) fun _ _ _ _ _ _ _ _ _ ht => ht

/-! ## Ending a session -/

theorem calculateProfitSession_idle {s₀ : Memory × World} (h : Idles terms s₀ s)
    (he : Endable terms session s₀) (orders : List TrackedOrder) :
    Safe (sessionContract terms) (fun _ t => Idles terms s₀ t)
    (calculateProfitSession session orders)
      s := by
  unfold calculateProfitSession
  split
  next => exact h
  next =>
    refine request_idle h rfl nofun fun session' hs => ?_
    cases hs
    exact he

theorem saveBalanceState_idle {s₀ : Memory × World} (h : Idles terms s₀ s) (profit : Num)
    (orders : List TrackedOrder) :
    Safe (sessionContract terms) (fun _ t => Idles terms s₀ t)
    (saveBalanceState profit orders) s := by
  unfold saveBalanceState
  refine Safe.bind (request_idle h rfl nofun nofun) (fun balance t ht => ?_) fun _ _ ht => ht
  refine Safe.bind (request_idle ht rfl nofun nofun) (fun isExisting u hu => ?_) fun _ _ hu => hu
  split
  next => exact hu
  next =>
    split
    next =>
      split
      next => exact hu
      next => exact request_idle hu rfl nofun nofun
    next =>
      refine Safe.bind (request_idle hu rfl nofun nofun)
        (fun allProfitSession v hv => ?_) fun _ _ hv => hv
      split
      next => exact hv
      next =>
        refine Safe.bind (request_idle hv rfl nofun nofun)
          (fun prevBalance w hw => ?_) fun _ _ hw => hw
        exact request_idle hw rfl nofun nofun

theorem World.Valid.rely (h : s.2.Valid) (hst : (sessionContract terms).rely s t) : t.2.Valid :=
  ((Idles.refl h).rely hst).valid

theorem revertOrderActiveStatus_rule (h : s.2.Valid) (session : Option SessionId) :
    Safe (sessionContract terms) (fun _ t => t.2.Valid) (request (.revertOrderActiveStatus session))
      s := by
  apply Safe.request
  intro s' hs'
  have hs := h.rely hs'
  refine ⟨⟨hs, nofun⟩, ?_⟩
  rintro x ⟨m, w⟩ ⟨hm, outcome, _, hserve⟩ t ht
  have hw : w.Valid := by
    cases outcome with
    | done =>
      cases hserve
      refine ⟨hs.ledger.reverted _ (fun row => ?_) fun row hrow => ?_, hs.started⟩
      · split <;> rfl
      · split
        next => exact hrow
        next => exact hrow
    | rejected e => cases hserve; exact hs
    | _ => cases hserve
  exact ⟨World.Valid.rely (s := (m, w)) hw ht, World.Valid.rely (s := (m, w)) hw ht⟩

theorem Resting.endable (hs : Resting s) (hc : HasClosed terms s) :
    Endable terms s.1.indexOperation s := by
  refine ⟨hs.accounted.settled, fun hfull => ?_⟩
  rw [Exchange.Flat, hc.flat hfull, abs_zero]
  exact le_max_of_le_left (by norm_num)

theorem endTradeSession_session (hs : Resting s) (hc : HasClosed terms s) (deltaForSale : Num) :
    Safe (sessionContract terms) (fun _ t => t.2.Valid) (endTradeSession deltaForSale) s := by
  have he := hs.endable hc
  unfold endTradeSession
  rw [safe_get_bind]
  refine Safe.bind (calculateProfitSession_idle (.refl hs.valid) he s.1.orders)
    (fun profit t ht => ?_)
    fun _ _ ht => ht.valid
  rw [safe_get_bind]
  refine Safe.bind (saveBalanceState_idle ht _ _) (fun _ u hu => ?_) fun _ _ hu => hu.valid
  rw [safe_get_bind]
  refine Safe.bind (request_idle hu rfl nofun fun session hsession => ?_) (fun _ v hv => ?_)
    fun _ _ hv => hv.valid
  · cases hsession
    rw [hu.indexOperation]
    exact he
  · rw [safe_get_bind]
    refine Safe.bind (revertOrderActiveStatus_rule hv.valid _) (fun _ w hw => ?_) fun _ _ hw => hw
    exact hw

theorem closeAndEnd_session (hclean : terms.clean = true) (hs : Resting s) (bound : Nat)
    (deltaForSale : Num) :
    Safe (sessionContract terms) (fun _ t => t.2.Valid) (closeAndEnd bound deltaForSale) s := by
  unfold closeAndEnd
  rw [safe_get_bind]
  refine Safe.bind (closeFilledPosition_session hclean hs bound) (fun closingOrder t ht => ?_)
    fun _ _ ht => ht.1.valid
  obtain ⟨ht, _, hclosed⟩ := ht
  split
  next hsome => exact endTradeSession_session ht (hclosed hsome) deltaForSale
  next => exact ht.valid

/-! ## Taking profit -/

/-- A look for a profit: the position was closed, or the session goes on. -/
def Looked (terms : Terms) (d : Side) (b : Bool) (t : Memory × World) : Prop :=
  Watches d t ∧ (b = true → HasClosed terms t)

/-- The position is closed if there is one. -/
theorem closing_session (hclean : terms.clean = true) (hs : Watches d s) (bound : Nat) :
    Safe (sessionContract terms) (Ends (Looked terms d) (Watches d))
      (do let closingOrder ← closeFilledPosition bound s.1.indexOperation
          return closingOrder.isSome) s := by
  refine Safe.bind (closeFilledPosition_session hclean hs.toResting bound)
    (fun closingOrder t ht => ?_) fun _ t ht => ?_
  · obtain ⟨ht, hgoes, hclosed⟩ := ht
    exact ⟨⟨ht, hs.entered.goes hgoes⟩, hclosed⟩
  · obtain ⟨ht, hgoes⟩ := ht
    exact ⟨ht, hs.entered.goes hgoes⟩

theorem trackPrice_session (hclean : terms.clean = true) (hs : Watches d s) (bound : Nat)
    (side : Side) (reversePriceIndent : Num) (rounds : Nat) (targets : Num × Num) :
    Safe (sessionContract terms) (Ends (Looked terms d) (Watches d))
      (trackPrice bound side reversePriceIndent rounds targets) s := by
  induction rounds generalizing s targets with
  | zero => trivial
  | succ rounds ih =>
    unfold trackPrice
    rw [safe_get_bind]
    split
    next => exact hs
    next =>
      refine Safe.bind (request_idle (.refl hs.valid) rfl nofun nofun) (fun lastPrice t ht => ?_)
        fun _ _ ht => ht.watches hs
      rw [safe_get_bind]
      split
      next => exact ht.watches hs
      next =>
        refine Safe.bind (request_idle ht rfl nofun nofun) (fun _ u hu => ?_) fun _ _ hu =>
          hu.watches hs
        split
        next =>
          rw [safe_get_bind]
          exact closing_session hclean (hu.watches hs) bound
        next =>
          refine Safe.bind (request_idle hu rfl nofun nofun) (fun _ v hv => ?_)
            fun _ _ hv => hv.watches hs
          exact ih (hv.watches hs) _

/-- A close attempt that threw leaves a session that is still accounted for. -/
theorem onPriceTracker_session (hclean : terms.clean = true) (hs : Watches d s) (bound : Nat)
    (side : Side) :
    Safe (sessionContract terms) (Ends (Looked terms d) (Watches d))
    (onPriceTracker bound side) s := by
  refine Safe.tryCatch (Q := Ends (Looked terms d) (Watches d)) ?_ (fun _ _ ht => ht)
    fun _ _ ht => ⟨ht, nofun⟩
  refine Safe.bind (request_idle (.refl hs.valid) rfl nofun nofun) (fun price t ht => ?_)
    fun _ _ ht => ht.watches hs
  rw [safe_get_bind]
  exact trackPrice_session hclean (ht.watches hs) bound side _ bound _

theorem watchingTakeProfitLogic_session (hclean : terms.clean = true) (hs : Watches d s)
    (bound : Nat) (side : Side) (unrealizedPnl : Num) :
    Safe (sessionContract terms) (Ends (Looked terms d) (Watches d))
      (watchingTakeProfitLogic bound side unrealizedPnl) s := by
  unfold watchingTakeProfitLogic
  rw [safe_get_bind]
  split
  next =>
    split
    next => exact onPriceTracker_session hclean hs bound side.other
    next => exact closing_session hclean hs bound
  next => exact ⟨hs, nofun⟩

/-! ## The watch loop -/

theorem reloadConfig_idle {s₀ : Memory × World} (h : Idles terms s₀ s) :
    Safe (sessionContract terms) (fun _ t => Idles terms s₀ t) reloadConfig s := by
  unfold reloadConfig
  refine Safe.bind (request_idle h rfl nofun nofun) (fun config t ht => ?_) fun _ _ ht => ht
  split
  next => exact ht
  next config =>
    have hmodified : Interferes terms.full t ({ t.1 with config }, t.2) :=
      ⟨rfl, rfl, rfl, rfl, rfl, .refl _⟩
    exact ht.trans ⟨⟨hmodified, ht.holds⟩, ht.started, rfl⟩

theorem observeMarket_idle (h : s.2.Valid) (w : WatchState) (hw : w.firstOrderSide = some d) :
    Safe (sessionContract terms)
      (Ends (fun market t => Idles terms s t ∧ market.entrySide = d) fun t => t.2.Valid)
      (observeMarket w) s := by
  unfold observeMarket
  refine Safe.bind (reloadConfig_idle (.refl h)) (fun _ t ht => ?_) fun _ _ ht => ht.valid
  refine Safe.bind (request_idle ht rfl nofun nofun) (fun balance u hu => ?_) fun _ _ hu => hu.valid
  rw [safe_get_bind, hw]
  refine Safe.bind (request_idle hu rfl nofun nofun)
    (fun lastPrice v hv => ?_) fun _ _ hv => hv.valid
  rw [safe_get_bind]
  dsimp only
  split
  next => exact hv.valid
  next =>
    split
    next => exact hv.valid
    next => exact ⟨hv, rfl⟩

/-- What a round leaves: a state of the loop over the watched session, if the loop goes on. -/
def RoundEnds (d : Side) (next : Option WatchState) (t : Memory × World) : Prop :=
  t.2.Valid ∧ ∀ w ∈ next, Watches d t ∧ w.firstOrderSide = some d

theorem buyBack_session (hclean : terms.clean = true) (hs : Watches d s) (w : WatchState)
    (market : Market) (hd : market.entrySide = d) :
    Safe (sessionContract terms)
      (Ends (fun w' t => Watches d t ∧ w'.firstOrderSide = w.firstOrderSide) fun t => t.2.Valid)
      (buyBack w market) s := by
  subst hd
  unfold buyBack
  dsimp only
  split
  next =>
    split
    next => exact hs.valid
    next =>
      rw [safe_get_bind]
      split
      next => exact ⟨hs, rfl⟩
      next amount _ =>
        split
        next =>
          refine Safe.bind (openPositionForStrategy_session hclean hs.toResting hs.sided amount _)
            (fun order t ht => ?_) fun _ _ ht => ht
          exact ⟨ht.1, rfl⟩
        next => exact ⟨hs, rfl⟩
  next => exact ⟨hs, rfl⟩

theorem watchRound_session (hclean : terms.clean = true) (hs : Watches d s) (bound : Nat)
    (w : WatchState) (hw : w.firstOrderSide = some d) :
    Safe (sessionContract terms) (Ends (RoundEnds d) fun t => t.2.Valid)
    (watchRound bound w) s := by
  have ended (deltaForSale : Num) {t : Memory × World} (ht : Resting t) :
      Safe (sessionContract terms) (Ends (RoundEnds d) fun t => t.2.Valid)
        (do closeAndEnd bound deltaForSale; return (none : Option WatchState)) t :=
    Safe.bind (closeAndEnd_session hclean ht bound deltaForSale) (fun _ _ hu => ⟨hu, nofun⟩)
      fun _ _ hu => hu
  unfold watchRound
  refine Safe.bind (observeMarket_idle hs.valid w hw) (fun market t ht => ?_) fun _ _ ht => ht
  obtain ⟨ht, hd⟩ := ht
  rw [safe_get_bind]
  split
  next =>
    refine Safe.bind (request_idle ht rfl nofun nofun) (fun _ u hu => ?_) fun _ _ hu => hu.valid
    exact ended market.deltaForSale (hu.resting hs.toResting)
  next =>
    split
    next => exact ht.valid
    next =>
      split
      next => exact ended market.deltaForSale (ht.resting hs.toResting)
      next =>
        refine Safe.bind (watchingTakeProfitLogic_session hclean (ht.watches hs) bound _ _)
          (fun takeProfit u hu => ?_) fun _ _ hu => hu.valid
        obtain ⟨hu, hclosed⟩ := hu
        split
        next htake =>
          exact Safe.bind (endTradeSession_session hu.toResting (hclosed htake) market.deltaForSale)
            (fun _ _ hv => ⟨hv, nofun⟩) fun _ _ hv => hv
        next =>
          refine Safe.bind (buyBack_session hclean hu w market hd)
            (fun w' v hv => ?_) fun _ _ hv => hv
          obtain ⟨hv, hside⟩ := hv
          refine Safe.bind (request_idle (.refl hv.valid) rfl nofun nofun) (fun _ x hx => ?_)
            fun _ _ hx => hx.valid
          refine ⟨hx.valid, fun w'' hw'' => ?_⟩
          cases hw''
          exact ⟨hx.watches hv, hside.trans hw⟩

theorem watchingProcess_session (hclean : terms.clean = true) (hs : Watches d s)
    (bound rounds : Nat) (w : WatchState) (hw : w.firstOrderSide = some d) :
    Safe (sessionContract terms) (fun _ t => t.2.Valid) (watchingProcess bound rounds w) s := by
  induction rounds generalizing s w with
  | zero => trivial
  | succ rounds ih =>
    unfold watchingProcess
    rw [safe_get_bind]
    split
    next => exact hs.valid
    next =>
      refine Safe.bind (watchRound_session hclean hs bound w hw)
        (fun next t ht => ?_) fun _ _ ht => ht
      obtain ⟨hvalid, hnext⟩ := ht
      cases next with
      | none => exact hvalid
      | some w' => exact ih (hnext w' rfl).1 w' (hnext w' rfl).2

end Tonatiuh.Trading
