import Tonatiuh.Trading.TradingTask

/-! The worker under the terms.

A session that is started has no order; one that is resumed has its orders stored, so the tracked
rows account for it. Either way it is watched from then on, until the world is `Valid` and the next
session begins. -/

namespace Tonatiuh.Trading

open Async Config

variable {terms : Terms} {s t : Memory × World} {d : Side} {session : Option SessionId}
  {rows : List OrderRow}

/-! ## Stored sessions -/

/-- The rows are those of the session, and none of its orders is missing. -/
structure Listed (session : Option SessionId) (rows : List OrderRow) (w : World) : Prop where
  eq : rows = w.rows session
  recorded : w.Recorded session

namespace Listed

variable {w w' : World}

theorem evolves (h : Listed session rows w) (hrows : w'.orders = w.orders)
    (hev : Exchange.Evolves full w.exchange w'.exchange) : Listed session rows w' where
  eq := h.eq.trans (World.rows_congr hrows session).symm
  recorded := by
    intro n hn o ho hsession hacc
    rw [World.rows_congr hrows]
    obtain ⟨o', ho', hevo⟩ := hev.getElem?_back ho
    refine h.recorded n (hev.length ▸ hn) o' ho' (hevo.session ▸ hsession) ?_
    by_cases hs : o'.status = .opened
    · exact .inl hs
    · exact hevo.settled hs ▸ hacc

theorem mem (h : Listed session rows w) (hrow : row ∈ rows) :
    row ∈ w.orders ∧ row.session = session := by
  obtain ⟨hmem, hsession⟩ := List.mem_filter.mp (h.eq ▸ hrow)
  exact ⟨hmem, of_decide_eq_true hsession⟩

theorem sorted (h : Listed session rows w) (hl : Ledger w.exchange w.orders) :
    rows.Pairwise fun row row' => row.orderId < row'.orderId := by
  rw [h.eq]
  exact hl.sorted.filter _

/-- An order of the session that has executed or may execute has a row that tells the truth. -/
theorem exists_row (h : Listed session rows w) (hl : Ledger w.exchange w.orders)
    (ho : w.exchange[n]? = some o) (hsession : o.session = session) (hacc : o.Accountable) :
    ∃ row ∈ rows, row.orderId = n ∧ o.status ≠ .opened := by
  have hmem := h.recorded n (List.getElem?_eq_some_iff.mp ho).1 o ho hsession hacc
  rw [← h.eq] at hmem
  obtain ⟨row, hrow, rfl⟩ := List.mem_map.mp hmem
  obtain ⟨o', ho', _, _, hset, _⟩ := hl.recorded row (h.mem hrow).1
  rw [ho] at ho'
  cases ho'
  exact ⟨row, hrow, rfl, hset⟩

theorem accounted (h : Listed session rows w) (hl : Ledger w.exchange w.orders) :
    Accounted session (rows.map .row) w.exchange where
  nodup := by
    rw [List.map_map]
    exact (List.pairwise_map.mpr (h.sorted hl)).imp Nat.ne_of_lt
  known t ht := by
    obtain ⟨row, hrow, rfl⟩ := List.mem_map.mp ht
    obtain ⟨hmem, hs⟩ := h.mem hrow
    obtain ⟨o, ho, hsession, hside, _, hpos, _⟩ := hl.recorded row hmem
    exact ⟨o, ho, hsession.trans hs, hside, hpos⟩
  settled n o ho hsession hopen := by
    obtain ⟨_, _, _, hset⟩ := h.exists_row hl ho hsession (.inl hopen)
    exact hset hopen
  complete n o ho hsession hpos := by
    obtain ⟨row, hrow, rfl, _⟩ := h.exists_row hl ho hsession (.inr hpos)
    rw [List.map_map]
    exact List.mem_map.mpr ⟨row, hrow, rfl⟩

/-- The first row is that of an entry order. -/
theorem first_entry (h : Listed session (first :: rest) w) (hl : Ledger w.exchange w.orders) :
    ∃ o, w.exchange[first.orderId]? = some o ∧ o.session = session ∧ o.purpose = .entry ∧
      o.side = first.side := by
  obtain ⟨hmem, hs⟩ := h.mem List.mem_cons_self
  obtain ⟨o, ho, hsession, hside, _⟩ := hl.recorded first hmem
  refine ⟨o, ho, hsession.trans hs, ?_, hside⟩
  by_contra hne
  have hclosing : o.purpose = .closing := by
    cases hp : o.purpose with
    | entry => exact absurd hp hne
    | closing => rfl
  -- an entry order was there before it, and has a row
  obtain ⟨m, hm, e, he, hes, _, hpos⟩ := hl.opened _ o ho hclosing
  obtain ⟨row, hrow, rfl, _⟩ := h.exists_row hl he (hes.trans (hsession.trans hs)) (.inr hpos)
  obtain rfl | hrow := List.mem_cons.mp hrow
  · exact lt_irrefl _ hm
  · exact lt_asymm hm ((List.pairwise_cons.mp (h.sorted hl)).1 row hrow)

/-- A sum over the session is one over its rows. -/
theorem total (h : Listed session rows w) (hl : Ledger w.exchange w.orders)
    {f : ExchangeOrder → Rat} {g : OrderRow → Rat} (hf : ∀ o, o.executed = 0 → f o = 0)
    (hg : ∀ row o, o.side = row.side → 0 < o.executed →
      row.amount = some o.executed → f o = g row) :
    w.exchange.total session f = (rows.map g).sum := by
  rw [(h.accounted hl).total (fun o ho => (hl.sound o ho).nonneg) fun o _ => hf o, List.map_map]
  refine congrArg List.sum (List.map_congr_left fun row hrow => ?_)
  obtain ⟨o, ho, _, hside, _, hpos, hamount⟩ := hl.recorded row (h.mem hrow).1
  change w.exchange[row.orderId]?.elim 0 f = g row
  rw [ho]
  exact hg row o hside hpos hamount

/-- When the stored orders cancel out, so do the executed ones. -/
theorem flat (h : Listed session rows w) (hl : Ledger w.exchange w.orders)
    (hclosed : isSessionExposureClosed (rows.map fun row => ⟨row.side, row.amount⟩) = true) :
    w.exchange.Flat session := by
  have hsigned : w.exchange.net session =
      (rows.map fun row => row.side.sign * row.amount.getD 0).sum := by
    refine h.total hl (fun o hzero => ?_) fun row o hside _ hamount => ?_
    · rw [ExchangeOrder.signed, hzero, mul_zero]
    · rw [ExchangeOrder.signed, hside, hamount, Option.getD_some]
  have htraded : w.exchange.traded session = (rows.map fun row => |row.amount.getD 0|).sum := by
    refine h.total hl (fun o hzero => hzero) fun row o _ hpos hamount => ?_
    rw [hamount, Option.getD_some, abs_of_pos hpos]
  have hnet := isSessionExposureClosed_net hclosed
  rw [List.map_map, List.map_map] at hnet
  rw [Exchange.Flat, hsigned, htraded]
  exact hnet

end Listed

/-! ## Beginning a session -/

/-- The session `i` is started or resumed. A new one has no order. -/
structure Begun (type : TypeSession) (i : SessionId) (t : Memory × World) : Prop where
  valid : t.2.Valid
  inRange : i < t.2.sessions.length
  fresh : type = .startNewTrade → t.1.orders = [] ∧ ∀ o ∈ t.2.exchange, o.session ≠ some i

theorem startSession_rule (hclean : terms.clean = true) (h : s.2.Valid) :
    Safe (sessionContract terms) (Ends (Begun .startNewTrade) fun t => t.2.Valid)
      (request .startSession) s := by
  apply Safe.request
  intro s' hs'
  have hs := h.rely hs'
  refine ⟨⟨hs, nofun⟩, ?_⟩
  rintro x ⟨m, w⟩ ⟨hm, outcome, hmeets, hserve⟩ t ht
  cases hm
  cases outcome with
  | done =>
    cases hserve
    have hlt (o : ExchangeOrder) (ho : o ∈ s'.2.exchange) (i : SessionId)
        (hi : o.session = some i) :
        i < s'.2.sessions.length := hs.started o ho i hi
    have hw : World.Valid { s'.2 with sessions := s'.2.sessions ++ [({} : SessionRow)] } := by
      refine ⟨hs.ledger, fun o ho i hi => ?_⟩
      rw [List.length_append, List.length_singleton]
      exact Nat.lt_succ_of_lt (hlt o ho i hi)
    have hidle : Idles terms (s'.1,
        { s'.2 with sessions := s'.2.sessions ++ [({} : SessionRow)] }) t :=
      Idles.rely (.refl hw) ht
    refine ⟨hidle.valid, hidle.valid, ?_, fun _ => ⟨hidle.orders.trans (hmeets hclean), ?_⟩⟩
    · rw [hidle.sessions, List.length_append, List.length_singleton]
      exact Nat.lt_succ_self _
    · intro o ho hsession
      obtain ⟨n, hn⟩ := List.getElem?_of_mem ho
      obtain ⟨o', ho', hevo⟩ := hidle.exchange.getElem?_back hn
      exact lt_irrefl _ (hlt o' (List.mem_of_getElem? ho') _ (hevo.session ▸ hsession))
  | rejected e =>
    cases hserve
    have hidle : Idles terms (s'.1, s'.2) t := Idles.rely (.refl hs) ht
    exact ⟨hidle.valid, hidle.valid⟩
  | _ => cases hserve

theorem beginNew_session (hclean : terms.clean = true) (h : s.2.Valid) :
    Safe (sessionContract terms) (Ends (fun r t => Begun r.1 r.2 t) fun t => t.2.Valid)
      (do let indexOperation ← request .startSession
          return (TypeSession.startNewTrade, indexOperation)) s :=
  Safe.bind (startSession_rule hclean h) (fun _ _ ht => ht) fun _ _ ht => ht

/-- The answer of `checkingActiveSession` is a session. -/
theorem checkingActiveSession_rule (h : s.2.Valid) :
    Safe (sessionContract terms)
      (Ends (fun r t => Idles terms s t ∧ ∀ i ∈ r, i < t.2.sessions.length) fun t => t.2.Valid)
      (request .checkingActiveSession) s := by
  refine idle_rule (.refl h) rfl nofun
    (fun _ _ => nofun) fun s' outcome x w t hs' _ hserve hwt ht => ?_
  cases outcome with
  | done =>
    cases hserve
    refine ⟨ht, fun i hi => ?_⟩
    rw [hwt.sessions]
    exact (List.findIdx?_eq_some_iff_getElem.mp hi).1
  | rejected e => cases hserve; exact ht.valid
  | _ => cases hserve

/-- The answer of `getAllOrdersByIndexOperation` lists the session. -/
theorem getAllOrders_rule (hclean : terms.clean = true) (h : s.2.Valid)
    (session : Option SessionId) :
    Safe (sessionContract terms)
      (Ends (fun rows t => Idles terms s t ∧ Listed session rows t.2) fun t => t.2.Valid)
      (request (.getAllOrdersByIndexOperation session)) s := by
  refine idle_rule (.refl h) rfl nofun (fun _ _ => nofun)
    fun s' outcome x w t hs' hmeets hserve hwt ht => ?_
  cases outcome with
  | done =>
    cases hserve
    exact ⟨ht, Listed.evolves ⟨rfl, hmeets hclean⟩ hwt.rows hwt.exchange⟩
  | rejected e => cases hserve; exact ht.valid
  | _ => cases hserve

theorem checkingIfClosingOrderHasBeenCreated_session (h : s.2.Valid)
    (hl : Listed session rows s.2) :
    Safe (sessionContract terms)
      (Ends (fun completed t => t.2.Valid ∧ (completed = false → Idles terms s t)) fun t =>
        t.2.Valid)
      (checkingIfClosingOrderHasBeenCreated rows session) s := by
  unfold checkingIfClosingOrderHasBeenCreated
  split
  next hclosed =>
    have he : Endable terms session s :=
      ⟨(hl.accounted h.ledger).settled, fun _ => hl.flat h.ledger hclosed⟩
    refine Safe.bind (calculateProfitSession_idle (.refl h) he _) (fun profit t ht => ?_)
      fun _ _ ht => ht.valid
    refine Safe.bind (saveBalanceState_idle ht _ _) (fun _ u hu => ?_) fun _ _ hu => hu.valid
    refine Safe.bind (request_idle hu rfl nofun fun session' hs => ?_) (fun _ v hv => ?_)
      fun _ _ hv => hv.valid
    · cases hs
      exact he
    · exact Safe.bind (revertOrderActiveStatus_rule hv.valid session) (fun _ _ hw => ⟨hw, nofun⟩)
        fun _ _ hw => hw
  next => exact ⟨h, fun _ => .refl h⟩

theorem initTradeSession_session (hclean : terms.clean = true) (h : s.2.Valid) :
    Safe (sessionContract terms) (Ends (fun r t => Begun r.1 r.2 t) fun t => t.2.Valid)
      initTradeSession s := by
  unfold initTradeSession
  refine Safe.bind (checkingActiveSession_rule h) (fun active t ht => ?_) fun _ _ ht => ht
  obtain ⟨ht, hrange⟩ := ht
  cases active with
  | none => exact beginNew_session hclean ht.valid
  | some i =>
    refine Safe.bind (getAllOrders_rule hclean ht.valid (some i)) (fun rows u hu => ?_)
      fun _ _ hu => hu
    obtain ⟨hu, hl⟩ := hu
    split
    next hnil =>
      -- nothing was executed for the session
      subst hnil
      have ha := hl.accounted hu.holds
      have he : Endable terms (some i) u := by
        refine ⟨ha.settled, fun _ => ?_⟩
        rw [Exchange.Flat, ha.net_nil fun o ho => (hu.holds.sound o ho).nonneg, abs_zero]
        exact le_max_of_le_left (by norm_num)
      refine Safe.bind (request_idle (.refl hu.valid) rfl (fun hr => by cases hr) fun session hs =>
        ?_) (fun _ v hv => ?_)
        fun _ _ hv => hv.valid
      · cases hs
        exact he
      · exact beginNew_session hclean hv.valid
    next =>
      refine Safe.bind (checkingIfClosingOrderHasBeenCreated_session hu.valid hl)
        (fun completed v hv => ?_)
        fun _ _ hv => hv
      obtain ⟨hv, hidle⟩ := hv
      cases completed with
      | true => exact beginNew_session hclean hv
      | false =>
        refine ⟨hv, ?_, fun hr => by cases hr⟩
        rw [(hidle rfl).sessions, hu.sessions]
        exact hrange i rfl

/-! ## The worker -/

/-- A session without orders is accounted for, and may be entered on either side. -/
theorem Begun.resting (h : Begun .startNewTrade i t) :
    Resting ({ t.1 with indexOperation := some i }, t.2) ∧ ∀ d, t.2.exchange.Sided (some i) d := by
  obtain ⟨horders, hnone⟩ := h.fresh rfl
  have hno (n : OrderId) (o : ExchangeOrder) (ho : t.2.exchange[n]? = some o)
      (hsession : o.session = some i) : False := hnone o (List.mem_of_getElem? ho) hsession
  refine ⟨⟨⟨?_, h.valid.ledger⟩, h.valid.started, fun j hj => ?_⟩,
    fun d o ho hsession => (hnone o ho hsession).elim⟩
  · change Accounted (some i) t.1.orders t.2.exchange
    rw [horders]
    exact ⟨.nil, fun _ ho => absurd ho List.not_mem_nil,
      fun n o ho hsession => (hno n o ho hsession).elim,
      fun n o ho hsession _ => (hno n o ho hsession).elim⟩
  · cases hj
    exact h.inRange

theorem openFirstPosition_session (hclean : terms.clean = true) (hs : Resting s)
    (hd : ∀ d, s.2.exchange.Sided s.1.indexOperation d) (isOnlyBuy : Bool) (amount : Rat)
    (price lowestInCandle highestInCandle : Num) :
    Safe (sessionContract terms) (Ends (fun order t => Watches order.side t) fun t => t.2.Valid)
      (openFirstPosition isOnlyBuy amount price lowestInCandle highestInCandle s.1.indexOperation)
        s := by
  have opens (d : Side) : Safe (sessionContract terms)
      (Ends (fun order t => Watches order.side t) fun t => t.2.Valid)
      (openPositionForStrategy d amount price s.1.indexOperation) s := by
    refine (openPositionForStrategy_session hclean hs (hd d) amount price).mono fun x t ht => ?_
    cases x with
    | ok order =>
      rw [ends_ok, ht.2]
      exact ht.1
    | error e => exact ht
  unfold openFirstPosition
  split
  next => exact opens .buy
  next =>
    split
    next =>
      dsimp only
      split
      next => exact opens .sell
      next => exact opens .buy
    next =>
      split
      next => exact opens .buy
      next =>
        split
        next => exact opens .sell
        next => exact hs.valid

theorem enteringPosition_session (hclean : terms.clean = true) (hs : Resting s)
    (hd : ∀ d, s.2.exchange.Sided s.1.indexOperation d) (isOnlyBuy : Bool) :
    Safe (sessionContract terms)
      (Ends (fun w t => ∃ d, Watches d t ∧ w.firstOrderSide = some d) fun t => t.2.Valid)
      (enteringPosition isOnlyBuy) s := by
  unfold enteringPosition
  refine Safe.bind (request_idle (.refl hs.valid) rfl nofun nofun) (fun price t ht => ?_)
    fun _ _ ht => ht.valid
  refine Safe.bind (request_idle ht rfl nofun nofun) (fun candle u hu => ?_) fun _ _ hu => hu.valid
  split
  next => exact hu.valid
  next =>
    refine Safe.bind (request_idle hu rfl nofun nofun) (fun _ v hv => ?_) fun _ _ hv => hv.valid
    rw [safe_get_bind]
    have hd (d : Side) : v.2.exchange.Sided v.1.indexOperation d :=
      hv.indexOperation ▸ (hd d).evolves hv.exchange
    refine Safe.bind (openFirstPosition_session hclean (hv.resting hs) hd ..) (fun order x hx => ?_)
      fun _ _ hx => hx
    rw [safe_get_bind]
    exact ⟨order.side, hx, rfl⟩

/-- The stored orders of the session are tracked, and it is watched again. -/
theorem checkingExistingOrders_session (hclean : terms.clean = true) (h : s.2.Valid)
    (hindex : s.1.indexOperation = some i) (hi : i < s.2.sessions.length) (bound : Nat) :
    Safe (sessionContract terms) (fun _ t => t.2.Valid) (checkingExistingOrders bound i) s := by
  unfold checkingExistingOrders
  refine Safe.bind (getAllOrders_rule hclean h (some i)) (fun rows t ht => ?_) fun _ _ ht => ht
  obtain ⟨ht, hl⟩ := ht
  cases rows with
  | nil => exact ht.valid
  | cons first rest =>
    have hindex := ht.indexOperation.trans hindex
    have hwatch : Watches first.side (t.1.setOrders ((first :: rest).map .row), t.2) := by
      refine ⟨⟨⟨?_, ht.holds⟩, ht.started, ?_⟩, ?_⟩
      · change Accounted t.1.indexOperation ((first :: rest).map .row) t.2.exchange
        rw [hindex]
        exact hl.accounted ht.holds
      · intro j hj
        cases hindex.symm.trans hj
        exact ht.sessions ▸ hi
      · obtain ⟨o, ho, hsession, hentry, hside⟩ := hl.first_entry ht.holds
        refine ⟨_, o, ho, hsession.trans hindex.symm, ?_⟩
        rw [hentry, hside]
        rfl
    exact watchingProcess_session hclean hwatch bound bound _ rfl

theorem startTradingSession_session (hclean : terms.clean = true) (h : s.2.Valid) (bound : Nat)
    (isOnlyBuy : Bool) :
    Safe (sessionContract terms) (fun _ t => t.2.Valid)
    (startTradingSession bound isOnlyBuy) s := by
  unfold startTradingSession
  refine Safe.bind (request_idle (.refl h) rfl nofun nofun)
    (fun _ t ht => ?_) fun _ _ ht => ht.valid
  refine Safe.bind (initTradeSession_session hclean ht.valid) (fun r u hu => ?_) fun _ _ hu => hu
  obtain ⟨type, i⟩ := r
  rw [safe_modify_bind]
  cases type with
  | startNewTrade =>
    obtain ⟨hresting, hsided⟩ := hu.resting
    refine Safe.bind (enteringPosition_session hclean hresting hsided isOnlyBuy) (fun w v hv => ?_)
      fun _ _ hv => hv
    obtain ⟨d, hv, hw⟩ := hv
    exact watchingProcess_session hclean hv bound bound w hw
  | startOldTrade =>
    exact checkingExistingOrders_session (s := ({ u.1 with indexOperation := some i }, u.2)) hclean
      hu.valid rfl hu.inRange bound

theorem tradeUntilStopping_session (hclean : terms.clean = true) (h : s.2.Valid) (bound : Nat)
    (isOnlyBuy : Bool) (rounds : Nat) :
    Safe (sessionContract terms) (fun _ t => t.2.Valid)
    (tradeUntilStopping bound isOnlyBuy rounds) s := by
  induction rounds generalizing s with
  | zero => trivial
  | succ rounds ih =>
    unfold tradeUntilStopping
    rw [safe_get_bind]
    split
    next => exact h
    next =>
      exact Safe.bind (startTradingSession_session hclean h bound isOnlyBuy) (fun _ _ ht => ih ht)
        fun _ _ ht => ht

/-- Whatever happens under the terms, the world stays valid. -/
theorem worker_session (hclean : terms.clean = true) (h : s.2.Valid) (bound : Nat)
    (config : ConfigType) :
    Safe (sessionContract terms) (fun _ t => t.2.Valid) (worker bound config) s := by
  refine Safe.tryCatch (Q := fun _ t => t.2.Valid) ?_ (fun _ _ ht => ht) fun _ _ ht => ht
  refine Safe.bind (request_idle (.refl h) rfl nofun nofun)
    (fun _ t ht => ?_) fun _ _ ht => ht.valid
  refine Safe.bind (Q := fun _ u => u.2.Valid) ?_ (fun _ u hu => ?_) fun _ _ hu => hu
  · unfold initializeServices
    rw [safe_modify_bind]
    refine Safe.bind (request_idle
      (.refl (s := ({ t.1 with config, services := true }, t.2)) ht.valid)
      rfl nofun nofun) (fun _ u hu => ?_) fun _ _ hu => hu.valid
    exact Safe.mono (request_idle hu rfl nofun nofun) fun _ _ hv => hv.valid
  · exact Safe.bind (tradeUntilStopping_session hclean hu bound config.isOnlyBuy bound)
      (fun _ _ hv => hv) fun _ _ hv => hv

/-- `stopWorker` closes a position that is accounted for. -/
theorem endAlgorithms_session (hclean : terms.clean = true) (h : s.2.Valid)
    (ha : Accounted s.1.indexOperation s.1.orders s.2.exchange) (bound : Nat) :
    Safe (sessionContract terms) (fun _ t => t.2.Valid) (endAlgorithms bound) s := by
  unfold endAlgorithms
  rw [safe_get_bind]
  split
  next =>
    cases horders : s.1.orders with
    | nil =>
      -- nothing is tracked: there is nothing to close
      refine Safe.bind (Q := fun _ t => t.2.Valid) ?_ (fun _ _ ht => ht) fun _ _ ht => ht
      unfold closeFilledPosition
      refine Safe.bind (request_idle (.refl h) rfl nofun nofun)
        (fun _ t ht => ?_) fun _ _ ht => ht.valid
      rw [safe_get_bind, if_pos (ht.orders.trans horders)]
      exact ht.valid
    | cons first rest =>
      have hresting : Resting s := by
        refine ⟨⟨ha, h.ledger⟩, h.started, fun i hi => ?_⟩
        obtain ⟨o, ho, hsession, _⟩ := ha.known first (horders ▸ List.mem_cons_self)
        exact h.started o (List.mem_of_getElem? ho) i (hsession.trans hi)
      exact Safe.bind (closeFilledPosition_session hclean hresting bound) (fun _ _ ht => ht.1.valid)
        fun _ _ ht => ht.1.valid
  next => exact h

theorem stopWorker_session (hclean : terms.clean = true) (h : s.2.Valid)
    (ha : Accounted s.1.indexOperation s.1.orders s.2.exchange) (bound : Nat) :
    Safe (sessionContract terms) (fun _ t => t.2.Valid) (stopWorker bound true) s := by
  unfold stopWorker
  rw [safe_modify_bind]
  refine Safe.tryCatch (Q := fun _ t => t.2.Valid) ?_ (fun _ _ ht => ht) fun _ _ ht => ht
  refine Safe.bind (endAlgorithms_session (s := ({ s.1 with isStopping := true }, s.2)) hclean
    h ha bound)
    (fun _ t ht => ?_) fun _ _ ht => ht
  refine Safe.bind (Q := fun _ u => u.2.Valid) ?_ (fun _ _ hu => hu) fun _ _ hu => hu
  unfold dispose
  rw [safe_get_bind]
  split
  next => exact Safe.mono (request_idle (.refl ht) rfl nofun nofun) fun _ _ hu => hu.valid
  next => exact ht

end Tonatiuh.Trading
