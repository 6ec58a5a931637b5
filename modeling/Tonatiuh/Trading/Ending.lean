import Tonatiuh.Trading.Environment

/-! The end of a session, statement by statement: `saveBalanceState`, `_endTradeSession` and the
recovery by `_checkingIfClosingOrderHasBeenCreated`. -/

namespace Tonatiuh.Trading

open Async Config

/-! ## What the statements do to the tables -/

/-- The tables of the database. -/
def World.tables (w : World) : List OrderRow × List SessionRow × List BalanceRow :=
  (w.orders, w.sessions, w.balances)

/-- What the end of a session writes: the side of its first order, what `saveBalanceState` is told
that it earned, and the `profit_session` of its row. -/
structure Settlement where
  session : Option SessionId
  side : Side
  earned : Num
  profit : Num

/-- The row that `saveBalanceState` adds. -/
def World.nextBalance (w : World) (e : Settlement) (usdt : Num) : BalanceRow where
  usdt
  profitAll := some 0
  profitUsdt := match w.balances.getLast? with
    | some prev => Num.add (Num.ofNull prev.profitUsdt) (if e.side = .buy then e.earned else some 0)
    | none => some 0

/-- The sessions after `endTradeSession` of the repository. -/
def World.endedSessions (w : World) (e : Settlement) : List SessionRow :=
  w.sessions.mapIdx fun i row =>
    if e.session = some i then { isActive := false, profitSession := e.profit } else row

/-- The orders after `revertOrderActiveStatus`. -/
def World.reverted (w : World) (session : Option SessionId) : List OrderRow :=
  w.orders.map fun row => if row.session = session then { row with isActive := false } else row

/-- How far the end of a session has come. -/
inductive Phase where
  | begun | saved | ended | reverted
  deriving DecidableEq

/-- The rows that `saveBalanceState` has added: none only if an answer was missed. -/
def BalanceSaved (w : World) (e : Settlement) (rows : List BalanceRow) (answered : Bool) : Prop :=
  rows = [] ∧ answered = false ∨ ∃ usdt, rows = [w.nextBalance e usdt]

/-- The tables in each phase of the end of a session that began in the world `w`. -/
def AtPhase (w : World) (e : Settlement) (w' : World) (answered : Bool) : Phase → Prop
  | .begun => w'.tables = w.tables
  | .saved => ∃ rows, BalanceSaved w e rows answered ∧
      w'.tables = (w.orders, w.sessions, w.balances ++ rows)
  | .ended => ∃ rows, BalanceSaved w e rows answered ∧
      w'.tables = (w.orders, w.endedSessions e, w.balances ++ rows)
  | .reverted => ∃ rows, BalanceSaved w e rows answered ∧
      ∃ orders, (orders = w.reverted e.session ∨ orders = w.orders ∧ answered = false) ∧
        w'.tables = (orders, w.endedSessions e, w.balances ++ rows)

theorem BalanceSaved.mono (h : BalanceSaved w e rows a) (ha : a' = true → a = true) :
    BalanceSaved w e rows a' := by
  obtain ⟨hrows, hfalse⟩ | h := h
  · refine .inl ⟨hrows, Bool.eq_false_iff.mpr fun htrue => ?_⟩
    rw [ha htrue] at hfalse
    cases hfalse
  · exact .inr h

theorem AtPhase.mono {w' w'' : World} (h : AtPhase w e w' a phase) (ha : a' = true → a = true)
    (htables : w''.tables = w'.tables) : AtPhase w e w'' a' phase := by
  cases phase with
  | begun => exact htables.trans h
  | saved =>
    obtain ⟨rows, hrows, h⟩ := h
    exact ⟨rows, hrows.mono ha, htables.trans h⟩
  | ended =>
    obtain ⟨rows, hrows, h⟩ := h
    exact ⟨rows, hrows.mono ha, htables.trans h⟩
  | reverted =>
    obtain ⟨rows, hrows, orders, horders, h⟩ := h
    refine ⟨rows, hrows.mono ha, orders, ?_, htables.trans h⟩
    obtain horders | ⟨horders, hfalse⟩ := horders
    · exact .inl horders
    · refine .inr ⟨horders, Bool.eq_false_iff.mpr fun htrue => ?_⟩
      rw [ha htrue] at hfalse
      cases hfalse

theorem World.profit_congr {w w' : World} (h : w'.orders = w.orders) (session : Option SessionId)
    (n : OrderId) (side : Side) : w'.profit session n side = w.profit session n side := by
  unfold World.profit World.activeRows World.rows
  rw [h]

theorem World.endedSessions_eq {w : World} (he : e.session = some i) :
    w.endedSessions e = w.sessions.set i { isActive := false, profitSession := e.profit } := by
  apply List.ext_getElem?
  intro j
  rw [World.endedSessions, List.getElem?_mapIdx, List.getElem?_set, he]
  by_cases hij : i = j
  · subst hij
    cases h : w.sessions[i]? with
    | none => simpa using h
    | some row => simpa using (List.getElem?_eq_some_iff.mp h).1
  · cases h : w.sessions[j]? <;> simp [hij]

theorem World.endedSessions_getElem? {w : World} (he : e.session = some i)
    (hi : i < w.sessions.length) : (w.endedSessions e)[i]? = some ⟨false, e.profit⟩ := by
  rw [World.endedSessions_eq he, List.getElem?_set_self hi]

/-- What `_endTradeSession` settles; nothing if the profit cannot be computed. -/
def Memory.settlement (m : Memory) (w : World) (deltaForSale : Num) : Option Settlement :=
  match m.orders.head?, m.orders.getLast? with
  | some first, some closing =>
    match w.profit m.indexOperation closing.exchangeOrderId closing.side with
    | .ok profit => some
      { session := m.indexOperation, side := first.side
        earned := Num.add (Num.ofNull profit) deltaForSale
        profit := Num.add (Num.ofNull profit) deltaForSale }
    | .error _ => none
  | _, _ => none

/-- The parts of a settlement. -/
theorem Memory.settlement_some {m : Memory} (h : m.settlement w deltaForSale = some e) :
    ∃ first closing profit, m.orders.head? = some first ∧ m.orders.getLast? = some closing ∧
      w.profit m.indexOperation closing.exchangeOrderId closing.side = .ok profit ∧
      e = { session := m.indexOperation, side := first.side
            earned := Num.add (Num.ofNull profit) deltaForSale
            profit := Num.add (Num.ofNull profit) deltaForSale } := by
  unfold Memory.settlement at h
  split at h
  next first closing hfirst hclosing =>
    split at h
    next profit hprofit =>
      exact ⟨first, closing, profit, hfirst, hclosing, hprofit, (Option.some.inj h).symm⟩
    next => cases h
  next => cases h

/-! ## Rules -/

/-- The task is in this phase of the end of the session. -/
structure Reached (m : Memory) (w : World) (e : Settlement) (phase : Phase)
    (s : Memory × World × Log) : Prop where
  memory : s.1 = m
  phase : AtPhase w e s.2.1 s.2.2.answered phase

section Rules

variable {P : Memory × World × Log → Prop} {m : Memory} {w : World} {s t : Memory × World × Log}
  {e : Settlement} {phase : Phase}

theorem Drifts.tables (h : Drifts s t) : t.2.1.tables = s.2.1.tables := by
  simp only [World.tables, h.rows, h.sessions, h.balances]

theorem Reached.drifts (h : Reached m w e phase s) (hd : Drifts s t) : Reached m w e phase t :=
  ⟨hd.memory.trans h.memory, h.phase.mono (fun ha => hd.log ▸ ha) hd.tables⟩

/-- The rule of a request: the phase after it has to hold when it is served. -/
theorem Reached.requests {r : Request} {Q : Except String r.Answer → _ → Prop}
    (h : Reached m w e phase s) (hP : ∀ t, Reached m w e phase t → P t)
    (hQ : ∀ s' outcome x w', Reached m w e phase s' → serve s'.2.1 r outcome = some (x, w') →
      ∃ phase', Reached m w e phase' (s'.1, w', s'.2.2.note (.served outcome)) ∧
        ∀ t, Reached m w e phase' t → Q x t) :
    Safe (observing P) Q (request r) s := by
  apply observing_rule
  intro s' hs'
  have hreached := h.drifts hs'
  refine ⟨hP s' hreached, fun outcome x w' t hserve ht => ?_⟩
  obtain ⟨phase', hphase, hQ⟩ := hQ s' outcome x w' hreached hserve
  exact hQ t (hphase.drifts ht)

/-- The rule of a request that reads. -/
theorem Reached.reading {r : Request} {Q : Except String r.Answer → _ → Prop}
    (hstoring : r.storing = false) (haccounting : r.accounting = false)
    (h : Reached m w e phase s) (hP : ∀ t, Reached m w e phase t → P t)
    (hQ : ∀ s' outcome x w', Reached m w e phase s' → serve s'.2.1 r outcome = some (x, w') →
      ∀ t, Reached m w e phase t → Q x t) :
    Safe (observing P) Q (request r) s := by
  refine h.requests hP fun s' outcome x w' hreached hserve => ?_
  obtain ⟨hrows, hsessions⟩ := serve_tables hserve
  obtain ⟨hsessions, hbalances⟩ := hsessions haccounting
  refine ⟨phase, ⟨hreached.memory, hreached.phase.mono Log.note_answered ?_⟩,
    hQ s' outcome x w' hreached hserve⟩
  simp only [World.tables, hrows hstoring, hsessions, hbalances]

/-- The same when the answer does not matter. -/
theorem Reached.reads {r : Request} (hstoring : r.storing = false)
    (haccounting : r.accounting = false) (h : Reached m w e phase s)
    (hP : ∀ t, Reached m w e phase t → P t) :
    Safe (observing P) (fun _ => Reached m w e phase) (request r) s :=
  h.reading hstoring haccounting hP fun _ _ _ _ _ _ _ ht => ht

/-- The insert of the balance row. -/
theorem Reached.saves {usdt : Num} (h : Reached m w e .begun s)
    (hP : ∀ t, Reached m w e .begun t → P t) :
    Safe (observing P) (Ends (fun _ => Reached m w e .saved) fun _ => False)
      (request (.createStateBalance (w.nextBalance e usdt))) s := by
  refine h.requests hP fun s' outcome x w' hreached hserve => ⟨.saved, ?_⟩
  have htables : s'.2.1.tables = w.tables := hreached.phase
  cases outcome with
  | done =>
    cases hserve
    refine ⟨⟨hreached.memory, [w.nextBalance e usdt], .inr ⟨usdt, rfl⟩, ?_⟩, fun t ht => ht⟩
    exact congrArg (fun tables => (tables.1, tables.2.1, tables.2.2 ++ [w.nextBalance e usdt]))
      htables
  | rejected message =>
    cases hserve
    refine ⟨⟨hreached.memory, [], .inl ⟨rfl, Bool.and_false _⟩, ?_⟩, fun t ht => ht⟩
    rw [List.append_nil]
    exact htables
  | _ => cases hserve

/-- The update of the session. -/
theorem Reached.ends (h : Reached m w e .saved s) (hP : ∀ phase t, Reached m w e phase t → P t) :
    Safe (observing P) (Ends (fun _ => Reached m w e .ended) fun t => Reached m w e .saved t)
      (request (.endTradeSession e.profit e.session)) s := by
  refine h.requests (hP _) fun s' outcome x w' hreached hserve => ?_
  obtain ⟨rows, hrows, htables⟩ := hreached.phase
  have hmono : BalanceSaved w e rows (s'.2.2.note (.served outcome)).answered :=
    hrows.mono Log.note_answered
  cases outcome with
  | done =>
    cases hserve
    refine ⟨.ended, ⟨hreached.memory, rows, hmono, ?_⟩, fun t ht => ht⟩
    have hsessions : s'.2.1.sessions = w.sessions := congrArg (·.2.1) htables
    have horders : s'.2.1.orders = w.orders := congrArg Prod.fst htables
    have hbalances : s'.2.1.balances = w.balances ++ rows := congrArg (·.2.2) htables
    simp only [World.tables, World.endedSessions, horders, hsessions, hbalances]
  | rejected message =>
    cases hserve
    exact ⟨.saved, ⟨hreached.memory, rows, hmono, htables⟩, fun t ht => ht⟩
  | _ => cases hserve

/-- The update of the orders. -/
theorem Reached.reverts (h : Reached m w e .ended s)
    (hP : ∀ phase t, Reached m w e phase t → P t) :
    Safe (observing P) (Ends (fun _ => Reached m w e .reverted) fun _ => False)
      (request (.revertOrderActiveStatus e.session)) s := by
  refine h.requests (hP _) fun s' outcome x w' hreached hserve => ⟨.reverted, ?_⟩
  obtain ⟨rows, hrows, htables⟩ := hreached.phase
  have hmono : BalanceSaved w e rows (s'.2.2.note (.served outcome)).answered :=
    hrows.mono Log.note_answered
  have horders : s'.2.1.orders = w.orders := congrArg Prod.fst htables
  have hrest : s'.2.1.tables.2 = (w.endedSessions e, w.balances ++ rows) :=
    congrArg Prod.snd htables
  cases outcome with
  | done =>
    cases hserve
    refine ⟨⟨hreached.memory, rows, hmono, w.reverted e.session, .inl rfl, ?_⟩, fun t ht => ht⟩
    refine Prod.ext ?_ hrest
    simp only [World.tables, World.reverted, horders]
  | rejected message =>
    cases hserve
    refine ⟨⟨hreached.memory, rows, hmono, w.orders, .inr ⟨rfl, Bool.and_false _⟩, htables⟩, ?_⟩
    exact fun t ht => ht
  | _ => cases hserve

/-! ## The functions -/

/-- The settlement is under way. -/
def Settling (m : Memory) (w : World) (e : Settlement) (s : Memory × World × Log) : Prop :=
  ∃ phase, Reached m w e phase s

/-- `saveBalanceState` takes the end of the session from the first phase to the second. -/
theorem saveBalanceState_safe (h : Reached m w e .begun s)
    (hP : ∀ phase t, Reached m w e phase t → P t) (hfirst : orders.head? = some first)
    (hside : first.side = e.side) :
    Safe (observing P) (Ends (fun _ => Reached m w e .saved) fun t => Reached m w e .begun t)
      (saveBalanceState e.earned orders) s := by
  unfold saveBalanceState
  apply Safe.bind (h.reads rfl rfl (hP _))
  swap
  · exact fun _ _ h => h
  intro balance t ht
  have hstate : ∀ t, Reached m w e .begun t →
      Safe (observing P) (Ends (fun prev u => prev = w.balances.getLast? ∧ Reached m w e .begun u)
        fun u => Reached m w e .begun u) (request .getBalanceState) t := by
    intro t ht
    refine ht.reading rfl rfl (hP _) fun s' outcome x w' hreached hserve u hu => ?_
    have hbalances : s'.2.1.balances = w.balances := congrArg (·.2.2) hreached.phase
    cases outcome with
    | done =>
      cases hserve
      exact ⟨congrArg _ hbalances, hu⟩
    | rejected message =>
      cases hserve
      exact hu
    | _ => cases hserve
  apply Safe.bind (hstate t ht)
  swap
  · exact fun _ _ h => h
  rintro _ u ⟨rfl, hu⟩
  have hsave : ∀ (usdt : Num) (t : Memory × World × Log), Reached m w e .begun t →
      Safe (observing P) (Ends (fun _ => Reached m w e .saved) fun t => Reached m w e .begun t)
        (request (.createStateBalance (w.nextBalance e usdt))) t := by
    intro usdt t ht
    refine Safe.mono (ht.saves (hP _)) fun x u hu => ?_
    cases x with
    | ok => exact hu
    | error => exact hu.elim
  obtain ⟨rest, rfl⟩ : ∃ rest, orders = first :: rest := List.head?_eq_some_iff.mp hfirst
  dsimp only
  split
  next hnone =>
    have hlast : w.balances.getLast? = none := Option.isNone_iff_eq_none.mp hnone
    split
    next => exact hu
    next usdt _ =>
      have hrow : w.nextBalance e usdt = { usdt, profitAll := some 0, profitUsdt := some 0 } := by
        rw [World.nextBalance, hlast]
      exact hrow ▸ hsave usdt u hu
  next hsome =>
    apply Safe.bind (hu.reading (Q := Ends (fun all u => all = none ∧ Reached m w e .begun u)
      fun u => Reached m w e .begun u) rfl rfl (hP _) fun s' outcome x w' _ hserve u hu => ?_)
    · rintro _ v ⟨rfl, hv⟩
      split
      next => exact hv
      next usdt _ =>
        apply Safe.bind (hstate v hv)
        swap
        · exact fun _ _ h => h
        rintro _ v' ⟨rfl, hv'⟩
        have hsave := hsave usdt v' hv'
        rw [World.nextBalance, ← hside] at hsave
        exact hsave
    · exact fun _ _ h => h
    · cases outcome with
      | done =>
        cases hserve
        exact ⟨rfl, hu⟩
      | rejected message =>
        cases hserve
        exact hu
      | _ => cases hserve

/-- `calculateProfitSession` reads the profit at the beginning of the end. -/
theorem calculateProfitSession_safe {orders : List TrackedOrder} (h : Reached m w e .begun s)
    (hP : ∀ phase t, Reached m w e phase t → P t) (hclosing : orders.getLast? = some closing)
    (hprofit : w.profit session closing.exchangeOrderId closing.side = .ok profit) :
    Safe (observing P) (Ends (fun x t => x = profit ∧ Reached m w e .begun t)
      fun t => Reached m w e .begun t) (calculateProfitSession session orders) s := by
  unfold calculateProfitSession
  rw [hclosing]
  refine h.reading rfl rfl (hP _) fun s' outcome x w' hreached hserve u hu => ?_
  have horders : s'.2.1.orders = w.orders := congrArg Prod.fst hreached.phase
  cases outcome with
  | done =>
    cases hserve
    rw [World.profit_congr horders, hprofit]
    exact ⟨rfl, hu⟩
  | rejected message =>
    cases hserve
    exact hu
  | _ => cases hserve

theorem endTradeSession_safe (h : Reached m w e .begun s)
    (hP : ∀ phase t, Reached m w e phase t → P t) (he : m.settlement w deltaForSale = some e) :
    Safe (observing P) (Ends (fun _ t => Reached (m.setOrders []) w e .reverted t) (Settling m w e))
      (endTradeSession deltaForSale) s := by
  obtain ⟨first, closing, profit, hfirst, hclosing, hprofit, heq⟩ := Memory.settlement_some he
  unfold endTradeSession
  rw [safe_get_bind, h.memory]
  apply Safe.bind (calculateProfitSession_safe h hP hclosing hprofit)
  swap
  · exact fun _ _ h => ⟨_, h⟩
  rintro _ t ⟨rfl, ht⟩
  dsimp only
  rw [safe_get_bind, ht.memory]
  have hsave := saveBalanceState_safe ht hP hfirst (by rw [heq])
  have hend := fun (t : Memory × World × Log) (ht : Reached m w e .saved t) => ht.ends hP
  have hrevert := fun (t : Memory × World × Log) (ht : Reached m w e .ended t) => ht.reverts hP
  rw [heq] at hsave hend hrevert ⊢
  apply Safe.bind hsave
  swap
  · exact fun _ _ h => ⟨_, h⟩
  intro _ u hu
  rw [safe_get_bind, hu.memory]
  apply Safe.bind (hend u hu)
  swap
  · exact fun _ _ h => ⟨_, h⟩
  intro _ v hv
  rw [safe_get_bind, hv.memory]
  apply Safe.bind (hrevert v hv)
  swap
  · exact fun _ _ h => h.elim
  intro _ v' hv'
  rw [safe_modify]
  exact ⟨congrArg (Memory.setOrders · []) hv'.memory, hv'.phase⟩

/-- Without a profit the session is not ended. -/
theorem endTradeSession_unsettled {s : Memory × World × Log}
    (he : s.1.settlement s.2.1 deltaForSale = none) :
    Safe observedContract (Ends (fun _ _ => False) fun _ => True)
      (endTradeSession deltaForSale) s := by
  unfold endTradeSession
  rw [safe_get_bind]
  apply Safe.bind (Q := Ends (fun _ _ => False) fun _ => True)
  · unfold calculateProfitSession
    split
    next => trivial
    next closing hclosing =>
      apply observed_rule
      intro s' outcome x w t hs' hserve _
      cases outcome with
      | done =>
        cases hserve
        rw [World.profit_congr hs'.rows]
        cases hprofit : s.2.1.profit s.1.indexOperation closing.exchangeOrderId closing.side with
        | error => trivial
        | ok profit =>
          obtain ⟨first, hfirst⟩ : ∃ first, s.1.orders.head? = some first :=
            Option.isSome_iff_exists.mp (by cases h : s.1.orders <;> simp_all)
          simp only [Memory.settlement, hfirst, hclosing, hprofit] at he
          cases he
      | rejected message =>
        cases hserve
        trivial
      | _ => cases hserve
  · exact fun _ _ h => h.elim
  · exact fun _ _ _ => trivial

end Rules

/-! ## The recovery -/

/-- What `_checkingIfClosingOrderHasBeenCreated` settles. -/
def World.settlement (w : World) (session : Option SessionId) : Option Settlement :=
  match (w.rows session).head?, (w.rows session).getLast? with
  | some first, some closing =>
    match w.profit session closing.orderId closing.side with
    | .ok profit => some { session, side := first.side, earned := Num.ofNull profit, profit }
    | .error _ => none
  | _, _ => none

/-- The stored orders are those of a position that has been closed. -/
def exposureClosed (rows : List OrderRow) : Bool :=
  isSessionExposureClosed (rows.map fun row => ⟨row.side, row.amount⟩)

/-- The last order of a session is found among its rows. -/
theorem World.profit_closing {w : World} (h : (w.rows session).getLast? = some closing)
    (side : Side) : ∃ profit, w.profit session closing.orderId side = .ok profit := by
  obtain ⟨row, hrow⟩ : ∃ row,
      (w.rows session).find? (fun row => row.orderId = closing.orderId) = some row :=
    Option.isSome_iff_exists.mp
      (List.find?_isSome.mpr ⟨closing, List.mem_of_getLast? h, decide_eq_true rfl⟩)
  rw [World.profit, hrow]
  exact ⟨_, rfl⟩

/-- A session with orders can be settled. -/
theorem World.settlement_some {w : World} (h : w.rows session ≠ []) :
    ∃ first closing profit, (w.rows session).head? = some first ∧
      (w.rows session).getLast? = some closing ∧
      w.profit session closing.orderId closing.side = .ok profit ∧
      w.settlement session =
        some { session, side := first.side, earned := Num.ofNull profit, profit } := by
  obtain ⟨first, rest, hrows⟩ := List.exists_cons_of_ne_nil h
  have hfirst : (w.rows session).head? = some first := by rw [hrows]; rfl
  obtain ⟨closing, hclosing⟩ : ∃ closing, (w.rows session).getLast? = some closing :=
    ⟨_, List.getLast?_eq_some_getLast h⟩
  obtain ⟨profit, hprofit⟩ := World.profit_closing hclosing closing.side
  refine ⟨first, closing, profit, hfirst, hclosing, hprofit, ?_⟩
  simp only [World.settlement, hfirst, hclosing, hprofit]

theorem World.settlement_session {w : World} (h : w.settlement session = some e) :
    e.session = session := by
  unfold World.settlement at h
  split at h
  next =>
    split at h
    next => rw [← Option.some.inj h]
    next => cases h
  next => cases h

/-- `_checkingIfClosingOrderHasBeenCreated` settles the session if its position is closed. -/
theorem checkingIfClosingOrderHasBeenCreated_safe {m : Memory} {w : World} {e : Settlement}
    {s : Memory × World × Log} (h : Reached m w e .begun s) (he : w.settlement session = some e)
    (hrows : w.rows session ≠ []) :
    Safe observedContract
      (Ends (fun completed t => completed = exposureClosed (w.rows session) ∧
        Reached m w e (if completed then .reverted else .begun) t) fun _ => True)
      (checkingIfClosingOrderHasBeenCreated (w.rows session) session) s := by
  have hP : ∀ phase t, Reached m w e phase t → (fun _ => True) t := fun _ _ _ => trivial
  obtain ⟨first, closing, profit, hfirst, hclosing, hprofit, heq⟩ := World.settlement_some hrows
  obtain rfl := Option.some.inj (he.symm.trans heq)
  unfold checkingIfClosingOrderHasBeenCreated
  split
  next hclosed =>
    have hlast : ((w.rows session).map TrackedOrder.row).getLast? = some (.row closing) := by
      rw [List.getLast?_map, hclosing]
      rfl
    have hhead : ((w.rows session).map TrackedOrder.row).head? = some (.row first) := by
      rw [List.head?_map, hfirst]
      rfl
    apply Safe.bind (calculateProfitSession_safe h hP hlast hprofit)
    swap
    · exact fun _ _ _ => trivial
    rintro _ t ⟨rfl, ht⟩
    apply Safe.bind (saveBalanceState_safe ht hP hhead rfl)
    swap
    · exact fun _ _ _ => trivial
    intro _ u hu
    apply Safe.bind (hu.ends hP)
    swap
    · exact fun _ _ _ => trivial
    intro _ v hv
    apply Safe.bind (hv.reverts hP)
    swap
    · exact fun _ _ h => h.elim
    exact fun _ v' hv' => ⟨hclosed.symm, hv'⟩
  next hopen => exact ⟨(Bool.eq_false_iff.mpr hopen).symm, h⟩

/-- How `initTradeSession` leaves the tables. -/
inductive Initiated (w : World) (w' : World) (answered : Bool) : TypeSession → Prop where
  /-- No session was active. -/
  | started (hactive : w.sessions.findIdx? (·.isActive) = none)
      (htables : w'.tables = (w.orders, w.sessions ++ [({} : SessionRow)], w.balances)) :
      Initiated w w' answered .startNewTrade
  /-- The active session has no orders. -/
  | emptied (hactive : w.sessions.findIdx? (·.isActive) = some i) (hrows : w.rows (some i) = [])
      (htables : w'.tables =
        (w.orders, w.endedSessions ⟨some i, .sell, some 0, some 0⟩ ++ [({} : SessionRow)],
          w.balances)) :
      Initiated w w' answered .startNewTrade
  /-- The position of the active session has been closed. -/
  | recovered (hactive : w.sessions.findIdx? (·.isActive) = some i)
      (hrows : w.rows (some i) ≠ []) (hclosed : exposureClosed (w.rows (some i)) = true)
      (he : w.settlement (some i) = some e) (hphase : AtPhase w e u answered .reverted)
      (htables : w'.tables = (u.orders, u.sessions ++ [({} : SessionRow)], u.balances)) :
      Initiated w w' answered .startNewTrade
  /-- The active session goes on. -/
  | resumed (hactive : w.sessions.findIdx? (·.isActive) = some i)
      (hrows : w.rows (some i) ≠ []) (hopen : exposureClosed (w.rows (some i)) = false)
      (htables : w'.tables = w.tables) : Initiated w w' answered .startOldTrade

/-- `startSession` adds an active session. -/
theorem startSession_safe (s : Memory × World × Log) :
    Safe observedContract
      (Ends (fun _ t => t.2.1.tables =
          (s.2.1.orders, s.2.1.sessions ++ [({} : SessionRow)], s.2.1.balances) ∧
        (t.2.2.answered = true → s.2.2.answered = true)) fun _ => True)
      (request .startSession) s := by
  apply observed_rule
  intro s' outcome x w t hs' hserve ht
  cases outcome with
  | done =>
    cases hserve
    refine ⟨?_, fun ha => ?_⟩
    · rw [ht.tables]
      simp only [World.tables, hs'.rows, hs'.sessions, hs'.balances]
    · rw [ht.log] at ha
      exact hs'.log ▸ Log.note_answered ha
  | rejected message =>
    cases hserve
    trivial
  | _ => cases hserve

/-- Before the first statement nothing depends on the settlement. -/
theorem Reached.begun (h : Reached m w e .begun s) (e' : Settlement) : Reached m w e' .begun s :=
  ⟨h.memory, h.phase⟩

/-- The active session is read. -/
theorem checkingActiveSession_safe (h : Reached m w e .begun s) :
    Safe observedContract
      (Ends (fun active t => active = w.sessions.findIdx? (·.isActive) ∧ Reached m w e .begun t)
        fun _ => True) (request .checkingActiveSession) s := by
  refine h.reading rfl rfl (fun _ _ => trivial) fun s' outcome x w' hreached hserve t ht => ?_
  have hsessions : s'.2.1.sessions = w.sessions := congrArg (·.2.1) hreached.phase
  cases outcome with
  | done =>
    cases hserve
    exact ⟨congrArg _ hsessions, ht⟩
  | rejected message =>
    cases hserve
    trivial
  | _ => cases hserve

/-- The orders of the session are read. -/
theorem getAllOrdersByIndexOperation_safe (h : Reached m w e .begun s) :
    Safe observedContract
      (Ends (fun rows t => rows = w.rows session ∧ Reached m w e .begun t) fun _ => True)
      (request (.getAllOrdersByIndexOperation session)) s := by
  refine h.reading rfl rfl (fun _ _ => trivial) fun s' outcome x w' hreached hserve t ht => ?_
  have horders : s'.2.1.orders = w.orders := congrArg Prod.fst hreached.phase
  cases outcome with
  | done =>
    cases hserve
    refine ⟨?_, ht⟩
    rw [World.rows, World.rows, horders]
  | rejected message =>
    cases hserve
    trivial
  | _ => cases hserve

/-- A session without orders is ended with the profit 0. -/
theorem endEmptySession_safe (h : Reached m w e .begun s) :
    Safe observedContract
      (Ends (fun _ t => t.2.1.tables =
        (w.orders, w.endedSessions ⟨session, .sell, some 0, some 0⟩, w.balances)) fun _ => True)
      (request (.endTradeSession (some 0) session)) s := by
  apply observed_rule
  intro s' outcome x w' t hs' hserve ht
  have htables : s'.2.1.tables = w.tables := (h.drifts hs').phase
  have horders : s'.2.1.orders = w.orders := congrArg Prod.fst htables
  have hsessions : s'.2.1.sessions = w.sessions := congrArg (·.2.1) htables
  have hbalances : s'.2.1.balances = w.balances := congrArg (·.2.2) htables
  cases outcome with
  | done =>
    cases hserve
    refine ht.tables.trans ?_
    simp only [World.tables, World.endedSessions, horders, hsessions, hbalances]
  | rejected message =>
    cases hserve
    trivial
  | _ => cases hserve

theorem initTradeSession_safe (s : Memory × World × Log) :
    Safe observedContract
      (Ends (fun x t => Initiated s.2.1 t.2.1 t.2.2.answered x.1) fun _ => True)
      initTradeSession s := by
  have hbegun : ∀ e, Reached s.1 s.2.1 e .begun s := fun e => ⟨rfl, rfl⟩
  unfold initTradeSession
  apply Safe.bind (checkingActiveSession_safe (hbegun ⟨none, .buy, none, none⟩))
  swap
  · exact fun _ _ _ => trivial
  rintro active t ⟨hactive, ht⟩
  cases active with
  | none =>
    apply Safe.bind (startSession_safe t)
    swap
    · exact fun _ _ _ => trivial
    rintro i u ⟨hu, _⟩
    refine .started hactive.symm (hu.trans ?_)
    exact congrArg (fun tables =>
      (tables.1, tables.2.1 ++ [({} : SessionRow)], tables.2.2)) ht.phase
  | some i =>
    apply Safe.bind (getAllOrdersByIndexOperation_safe ht)
    swap
    · exact fun _ _ _ => trivial
    rintro _ u ⟨rfl, hu⟩
    split
    next hrows =>
      apply Safe.bind (endEmptySession_safe hu)
      swap
      · exact fun _ _ _ => trivial
      intro _ v hv
      apply Safe.bind (startSession_safe v)
      swap
      · exact fun _ _ _ => trivial
      rintro j v' ⟨hv', _⟩
      refine .emptied hactive.symm hrows (hv'.trans ?_)
      exact congrArg (fun tables => (tables.1, tables.2.1 ++ [({} : SessionRow)], tables.2.2)) hv
    next hrows =>
      obtain ⟨_, _, _, _, _, _, he⟩ := World.settlement_some hrows
      apply Safe.bind (checkingIfClosingOrderHasBeenCreated_safe (hu.begun _) he hrows)
      swap
      · exact fun _ _ _ => trivial
      rintro completed v ⟨hcompleted, hv⟩
      cases completed with
      | true =>
        apply Safe.bind (startSession_safe v)
        swap
        · exact fun _ _ _ => trivial
        rintro j v' ⟨hv', ha⟩
        exact .recovered hactive.symm hrows hcompleted.symm he (hv.phase.mono ha rfl) hv'
      | false => exact .resumed hactive.symm hrows hcompleted.symm hv.phase

end Tonatiuh.Trading
