import Tonatiuh.Trading.Ending
import Tonatiuh.Trading.Profit

/-! A crash in the end of a session.

The end writes three tables one after the other. The recovery begins again from the first
statement if the session is still active, and does nothing for a session that is not; and it does
not know what the delta of the sale added to the profit. -/

namespace Tonatiuh.Trading

open Async Config

/-! ## The end of a session and its crash -/

/-- What follows the insertion of the row of the closing order. -/
def endAfterClosing (closing : Order) (deltaForSale : Num) : Prog Unit := do
  modify (·.push closing)
  endTradeSession deltaForSale

/-- The row of the closing order has been inserted: it is the last of the only active session, whose
rows are all active and hold numbers, and whose first row is on the side of the first order. -/
structure JustClosed (m : Memory) (w : World) (i : SessionId) (closing : Order) : Prop where
  index : m.indexOperation = some i
  active : ∃ row, w.sessions[i]? = some row ∧ row.isActive = true
  only : ∀ j row, w.sessions[j]? = some row → row.isActive = true → j = i
  closing : ∃ row, (w.rows (some i)).getLast? = some row ∧ row.orderId = closing.id ∧
    row.side = closing.side
  first : ∃ order row, m.orders.head? = some order ∧ (w.rows (some i)).head? = some row ∧
    order.side = row.side
  rows : ∀ row ∈ w.rows (some i), row.isActive = true
  numeric : ∀ row ∈ w.rows (some i), row.Numeric

/-- Up to the free balance, which is read at another moment, two histories go on from the one of
`w` by one row, and it is the same. -/
def SameRow (w u v : World) : Prop :=
  ∃ row row', u.balances = w.balances ++ [row] ∧ v.balances = w.balances ++ [row'] ∧
    row.profitAll = row'.profitAll ∧ row.profitUsdt = row'.profitUsdt

/-- The world `v` shows the end of the session `i` as `u` does: the same profit of a session that is
inactive, one row in the history, and orders that are inactive. -/
structure EndedAlike (w u v : World) (i : SessionId) : Prop where
  session : ∃ profit, u.sessions[i]? = some ⟨false, profit⟩ ∧ v.sessions[i]? = some ⟨false, profit⟩
  balance : SameRow w u v
  orders : ∀ row ∈ v.rows (some i), row.isActive = false

/-- The crash came before the first statement, the stored orders are recognised as a closed position
and there is no delta; or it came after the last statement and the balance row was stored. -/
def SurvivesCrash (w : World) (i : SessionId) (deltaForSale : Num) (crashed : World) : Prop :=
  (crashed.tables = w.tables ∧ exposureClosed (w.rows (some i)) = true ∧ deltaForSale = some 0) ∨
    (crashed.balances ≠ w.balances ∧ ∀ row ∈ crashed.rows (some i), row.isActive = false)

/-! ## What is settled -/

/-- The settlement with the delta of the sale added. -/
def Settlement.plus (e : Settlement) (deltaForSale : Num) : Settlement :=
  { e with earned := Num.add e.earned deltaForSale, profit := Num.add e.profit deltaForSale }

section

variable {m : Memory} {w : World} {i : SessionId} {closing : Order}

theorem JustClosed.rows_ne_nil (h : JustClosed m w i closing) : w.rows (some i) ≠ [] := by
  obtain ⟨row, hlast, _⟩ := h.closing
  intro hnil
  rw [hnil] at hlast
  cases hlast

theorem JustClosed.lt_length (h : JustClosed m w i closing) : i < w.sessions.length := by
  obtain ⟨row, hrow, _⟩ := h.active
  exact (List.getElem?_eq_some_iff.mp hrow).1

/-- The settlement of the end is that of the recovery and the delta. -/
theorem JustClosed.settlement (h : JustClosed m w i closing) (deltaForSale : Num) :
    ∃ e profit, w.settlement (some i) = some e ∧ e.session = some i ∧ e.earned = some profit ∧
      e.profit = some profit ∧
      (m.push closing).settlement w deltaForSale = some (e.plus deltaForSale) := by
  obtain ⟨row, hlast, hid, hside⟩ := h.closing
  obtain ⟨order, first, horder, hfirst, hsame⟩ := h.first
  have hactive : w.activeRows (some i) = w.rows (some i) := List.filter_eq_self.mpr h.rows
  obtain ⟨found, hfound⟩ : ∃ found,
      (w.rows (some i)).find? (fun row => row.orderId = closing.id) = some found :=
    Option.isSome_iff_exists.mp
      (List.find?_isSome.mpr ⟨row, List.mem_of_getLast? hlast, decide_eq_true hid⟩)
  obtain ⟨price, hprice⟩ := Option.isSome_iff_exists.mp
    (h.numeric found (List.mem_of_find?_eq_some hfound)).1
  obtain ⟨profit, hprofit⟩ : ∃ profit,
      w.profit (some i) closing.id closing.side = .ok (some profit) :=
    ⟨_, World.profit_eq hfound hprice (hactive ▸ h.rows_ne_nil) (hactive ▸ h.numeric)⟩
  refine ⟨⟨some i, first.side, some profit, some profit⟩, profit, ?_, rfl, rfl, rfl, ?_⟩
  · simp only [World.settlement, hfirst, hlast, hid, hside, hprofit, Num.ofNull, Option.getD_some]
  · have hhead : (m.orders ++ [TrackedOrder.order closing]).head? = some order := by
      rw [List.head?_append, horder]
      rfl
    have hclosing : (m.orders ++ [TrackedOrder.order closing]).getLast? =
        some (.order closing) := List.getLast?_concat
    have hprofit : w.profit (some i) (TrackedOrder.order closing).exchangeOrderId
        (TrackedOrder.order closing).side = .ok (some profit) := hprofit
    simp only [Memory.settlement, Memory.push, hhead, hclosing, h.index, hprofit, hsame, Num.ofNull,
      Option.getD_some]
    rfl

/-- What the uninterrupted end leaves, up to the balance that it read. -/
structure Settled (w : World) (e : Settlement) (u : World) : Prop where
  orders : u.orders = w.reverted e.session
  session : ∀ i, e.session = some i → i < w.sessions.length →
    u.sessions[i]? = some ⟨false, e.profit⟩
  balances : ∃ usdt, u.balances = w.balances ++ [w.nextBalance e usdt]

theorem Settled.of_tables {w u : World} (h : u.tables = (w.reverted e.session,
    w.endedSessions e ++ rows, w.balances ++ [w.nextBalance e usdt])) : Settled w e u where
  orders := congrArg Prod.fst h
  session i he hi := by
    have hsessions : u.sessions = w.endedSessions e ++ rows := congrArg (·.2.1) h
    have hlen : i < (w.endedSessions e).length := by
      rw [World.endedSessions, List.length_mapIdx]
      exact hi
    rw [hsessions, List.getElem?_append_left hlen, World.endedSessions_getElem? he hi]
  balances := ⟨usdt, congrArg (·.2.2) h⟩

/-! ## Where the end can be cut off -/

/-- An uninterrupted end, all of whose requests are answered, goes through all statements. -/
theorem endAfterClosing_returns (he : (m.push closing).settlement w deltaForSale = some e)
    (h : Returns environment (endAfterClosing closing deltaForSale) (m, w) t (.ok ()) (m', u))
    (ha : (t.foldl Log.note {}).answered = true) :
    Settled w e u := by
  have hreached : Reached (m.push closing) w e .begun (m.push closing, w, {}) := ⟨rfl, rfl⟩
  have hsafe := endTradeSession_safe (P := fun _ => True) hreached (fun _ _ _ => trivial) he
  have hsafe : Safe observedContract _ (endAfterClosing closing deltaForSale) (m, w, {}) := hsafe
  obtain ⟨_, rows, hrows, orders, horders, htables⟩ :=
    hsafe.returns observing_covers (h.observed Log.note {})
  have hfalse {P : Prop} (hn : (t.foldl Log.note {}).answered = false) : P := by
    rw [ha] at hn
    cases hn
  obtain ⟨_, hn⟩ | ⟨usdt, rfl⟩ := hrows
  · exact hfalse hn
  · obtain rfl | ⟨_, hn⟩ := horders
    · have hu : u.tables = (w.reverted e.session, w.endedSessions e ++ [],
          w.balances ++ [w.nextBalance e usdt]) := by rw [htables, List.append_nil]
      exact .of_tables hu
    · exact hfalse hn

/-- Wherever the end is cut off, it is in one of its phases. -/
theorem endAfterClosing_cut (he : (m.push closing).settlement w deltaForSale = some e)
    (h : Cut environment (endAfterClosing closing deltaForSale) (m, w) t (m', w')) :
    ∃ phase answered, AtPhase w e w' answered phase := by
  have hreached : Reached (m.push closing) w e .begun (m.push closing, w, {}) := ⟨rfl, rfl⟩
  have hsafe := endTradeSession_safe (P := Settling (m.push closing) w e) hreached
    (fun phase _ h => ⟨phase, h⟩) he
  have hsafe : Safe (observing (Settling (m.push closing) w e)) _
    (endAfterClosing closing deltaForSale) (m, w, {}) := hsafe
  obtain ⟨_, phase, h⟩ | ⟨x, hx⟩ := hsafe.cut observing_covers (h.observed Log.note {})
  · exact ⟨phase, _, h.phase⟩
  · cases x with
    | ok => exact ⟨.reverted, _, hx.phase⟩
    | error =>
      obtain ⟨phase, h⟩ := hx
      exact ⟨phase, _, h.phase⟩

/-! ## What the recovery makes of it -/

theorem World.settlement_congr {w w' : World} (h : w'.orders = w.orders)
    (session : Option SessionId) : w'.settlement session = w.settlement session := by
  unfold World.settlement
  rw [World.rows_congr h]
  simp only [World.profit_congr h]

theorem JustClosed.findIdx (h : JustClosed m w i closing) :
    w.sessions.findIdx? (·.isActive) = some i := by
  obtain ⟨row, hrow, hactive⟩ := h.active
  obtain ⟨hi, rfl⟩ := List.getElem?_eq_some_iff.mp hrow
  refine List.findIdx?_eq_some_iff_getElem.mpr ⟨hi, hactive, fun j hj hactive' => ?_⟩
  exact absurd (h.only j _ (List.getElem?_eq_getElem (hj.trans hi)) hactive') hj.ne

/-- If the session is still active, the recovery ends it again or leaves it. -/
theorem JustClosed.recovered {w' v : World} (h : JustClosed m w i closing)
    (horders : w'.orders = w.orders) (hsessions : w'.sessions = w.sessions)
    (he : w.settlement (some i) = some e) (hi : Initiated w' v true x) :
    (exposureClosed (w.rows (some i)) = false ∧ v.tables = w'.tables) ∨
      exposureClosed (w.rows (some i)) = true ∧ ∃ usdt, v.tables =
        (w.reverted (some i), w.endedSessions e ++ [({} : SessionRow)],
          w'.balances ++ [w'.nextBalance e usdt]) := by
  have hfind : w'.sessions.findIdx? (·.isActive) = some i := hsessions ▸ h.findIdx
  have hrows : w'.rows (some i) = w.rows (some i) := World.rows_congr horders _
  cases hi with
  | started hactive _ => cases hfind.symm.trans hactive
  | emptied hactive hempty _ =>
    cases hfind.symm.trans hactive
    exact absurd (hrows.symm.trans hempty) h.rows_ne_nil
  | @recovered j e' u hactive _ hclosed he' hphase htables =>
    cases hfind.symm.trans hactive
    rw [World.settlement_congr horders, he] at he'
    cases he'
    obtain ⟨rows, ⟨_, hfalse⟩ | ⟨usdt, rfl⟩, orders, rfl | ⟨_, hfalse⟩, hu⟩ := hphase
    · cases hfalse
    · cases hfalse
    · refine .inr ⟨hrows ▸ hclosed, usdt, htables.trans ?_⟩
      have huorders : u.orders = w'.reverted e.session := congrArg Prod.fst hu
      have husessions : u.sessions = w'.endedSessions e := congrArg (·.2.1) hu
      have hubalances : u.balances = w'.balances ++ [w'.nextBalance e usdt] := congrArg (·.2.2) hu
      rw [huorders, husessions, hubalances, World.settlement_session he, World.reverted,
        World.reverted, World.endedSessions, World.endedSessions, horders, hsessions]
    · cases hfalse
  | resumed hactive _ hopen htables =>
    cases hfind.symm.trans hactive
    exact .inl ⟨hrows ▸ hopen, htables⟩

/-- If the session is over, the recovery only starts another. -/
theorem JustClosed.started {w' v : World} (h : JustClosed m w i closing) (he : e.session = some i)
    (hsessions : w'.sessions = w.endedSessions e) (hi : Initiated w' v answered x) :
    v.tables = (w'.orders, w'.sessions ++ [({} : SessionRow)], w'.balances) := by
  have hnone : w'.sessions.findIdx? (·.isActive) = none := by
    refine List.findIdx?_eq_none_iff.mpr fun row hrow => ?_
    rw [hsessions, World.endedSessions_eq he] at hrow
    obtain ⟨j, hj⟩ := List.mem_iff_getElem?.mp hrow
    rw [List.getElem?_set] at hj
    split at hj
    next =>
      split at hj
      next => cases hj; rfl
      next => cases hj
    next hne => exact Bool.eq_false_iff.mpr fun hactive => hne (h.only j row hj hactive).symm
  cases hi with
  | started _ htables => exact htables
  | emptied hactive => cases hnone.symm.trans hactive
  | recovered hactive => cases hnone.symm.trans hactive
  | resumed hactive => cases hnone.symm.trans hactive

/-- Rows that have been marked are inactive. -/
theorem World.rows_reverted {w v : World} (h : v.orders = w.reverted session) :
    ∀ row ∈ v.rows session, row.isActive = false := by
  intro row hrow
  rw [World.rows, h] at hrow
  obtain ⟨hrow, hsession⟩ := List.mem_filter.mp hrow
  obtain ⟨row', _, rfl⟩ := List.mem_map.mp hrow
  split
  next => rfl
  next hne =>
    rw [if_neg hne] at hsession
    exact absurd (of_decide_eq_true hsession) hne

theorem JustClosed.orders_active {v : World} (h : JustClosed m w i closing)
    (hv : v.orders = w.orders) : ¬ ∀ row ∈ v.rows (some i), row.isActive = false := by
  intro hinactive
  obtain ⟨row, hlast, _⟩ := h.closing
  have hrow := List.mem_of_getLast? hlast
  rw [← World.rows_congr hv (some i)] at hrow
  have hactive := h.rows row (World.rows_congr hv (some i) ▸ hrow)
  rw [hinactive row hrow] at hactive
  cases hactive

/-- The end of the session shows in its table. -/
theorem JustClosed.endedSessions_ne (h : JustClosed m w i closing) (he : e.session = some i) :
    w.endedSessions e ≠ w.sessions := by
  intro hsame
  obtain ⟨row, hrow, hactive⟩ := h.active
  have hended := World.endedSessions_getElem? he h.lt_length
  rw [hsame, hrow] at hended
  cases hended
  cases hactive

/-- A session that is active has not ended. -/
theorem JustClosed.not_endedAlike {u v : World} (h : JustClosed m w i closing)
    (hv : v.sessions = w.sessions) : ¬ EndedAlike w u v i := by
  intro hended
  obtain ⟨row, hrow, hactive⟩ := h.active
  obtain ⟨profit, _, hended⟩ := hended.session
  rw [hv, hrow] at hended
  cases hended
  cases hactive

/-- The delta makes the difference between the end and the recovery. -/
theorem JustClosed.endedAlike_settled {u v : World} (h : JustClosed m w i closing)
    (he : e.session = some i) (hprofit : e.profit = some q) (hearned : e.earned = some q)
    (hu : Settled w (e.plus deltaForSale) u) (hv : Settled w e v) :
    EndedAlike w u v i ↔ deltaForSale = some 0 := by
  have husession := hu.session i he h.lt_length
  have hvsession := hv.session i he h.lt_length
  constructor
  · intro hended
    obtain ⟨profit, hprofit', hprofit''⟩ := hended.session
    rw [husession] at hprofit'
    rw [hvsession] at hprofit''
    cases hprofit''
    have hsum : Num.add (some q) deltaForSale = some q := by
      rw [← hprofit]
      exact congrArg SessionRow.profitSession (Option.some.inj hprofit')
    cases deltaForSale with
    | none => cases hsum
    | some d =>
      have hd : q + d = q := Option.some.inj hsum
      exact congrArg some (by linarith)
  · rintro rfl
    have hplus : e.plus (some 0) = e := by
      obtain ⟨_, _, _, _⟩ := e
      cases hprofit
      cases hearned
      simp only [Settlement.plus, Num.add, Option.bind_some, Option.map_some, add_zero]
    rw [hplus] at hu husession
    obtain ⟨usdt, hubalances⟩ := hu.balances
    obtain ⟨usdt', hvbalances⟩ := hv.balances
    exact ⟨⟨_, husession, hvsession⟩, ⟨_, _, hubalances, hvbalances, rfl, rfl⟩,
      World.rows_reverted (he ▸ hv.orders)⟩

/-- After a crash before the first statement of the end that had an effect. -/
theorem JustClosed.crashed_begun {crashed u v : World} (h : JustClosed m w i closing)
    (hcrashed : crashed.tables = w.tables) (hsettle : w.settlement (some i) = some e)
    (he : e.session = some i) (hprofit : e.profit = some q) (hearned : e.earned = some q)
    (hu : Settled w (e.plus deltaForSale) u) (hi : Initiated crashed v true x) :
    EndedAlike w u v i ↔ SurvivesCrash w i deltaForSale crashed := by
  have horders : crashed.orders = w.orders := congrArg Prod.fst hcrashed
  have hsessions : crashed.sessions = w.sessions := congrArg (·.2.1) hcrashed
  have hbalances : crashed.balances = w.balances := congrArg (·.2.2) hcrashed
  obtain ⟨hopen, hv⟩ | ⟨hclosed, usdt, hv⟩ := h.recovered horders hsessions hsettle hi
  · have hvsessions : v.sessions = w.sessions := (congrArg (·.2.1) hv).trans hsessions
    refine iff_of_false (h.not_endedAlike hvsessions) ?_
    rintro (⟨_, hclosed, _⟩ | ⟨hne, _⟩)
    · rw [hopen] at hclosed
      cases hclosed
    · exact hne hbalances
  · have hrow : crashed.nextBalance e usdt = w.nextBalance e usdt := by
      rw [World.nextBalance, World.nextBalance, hbalances]
    rw [hrow, hbalances] at hv
    rw [h.endedAlike_settled he hprofit hearned hu (.of_tables (he ▸ hv))]
    constructor
    · exact fun hd => .inl ⟨hcrashed, hclosed, hd⟩
    · rintro (⟨_, _, hd⟩ | ⟨hne, _⟩)
      · exact hd
      · exact absurd hbalances hne

/-- After a crash between the insert of the balance row and the update of the session. -/
theorem JustClosed.crashed_saved {crashed u v : World} (h : JustClosed m w i closing)
    (hcrashed : crashed.tables = (w.orders, w.sessions, w.balances ++ [row]))
    (hsettle : w.settlement (some i) = some e) (hi : Initiated crashed v true x) :
    ¬ EndedAlike w u v i ∧ ¬ SurvivesCrash w i deltaForSale crashed := by
  have horders : crashed.orders = w.orders := congrArg Prod.fst hcrashed
  have hsessions : crashed.sessions = w.sessions := congrArg (·.2.1) hcrashed
  have hbalances : crashed.balances = w.balances ++ [row] := congrArg (·.2.2) hcrashed
  constructor
  · obtain ⟨_, hv⟩ | ⟨_, usdt, hv⟩ := h.recovered horders hsessions hsettle hi
    · exact h.not_endedAlike ((congrArg (·.2.1) hv).trans hsessions)
    · intro hended
      obtain ⟨_, _, _, hv', _⟩ := hended.balance
      have hvbalances : v.balances = crashed.balances ++ [crashed.nextBalance e usdt] :=
        congrArg (·.2.2) hv
      have hlen := congrArg List.length (hvbalances.symm.trans hv')
      rw [hbalances] at hlen
      simp at hlen
  · rintro (⟨htables, _⟩ | ⟨_, hinactive⟩)
    · have hlen := congrArg (fun tables => tables.2.2.length) (hcrashed.symm.trans htables)
      simp [World.tables] at hlen
    · exact h.orders_active horders hinactive

/-- After a crash between the update of the session and that of the orders. -/
theorem JustClosed.crashed_ended {crashed u v : World} (h : JustClosed m w i closing)
    (he : e.session = some i) (horders : crashed.orders = w.orders)
    (hsessions : crashed.sessions = w.endedSessions e) (hi : Initiated crashed v answered x) :
    ¬ EndedAlike w u v i ∧ ¬ SurvivesCrash w i deltaForSale crashed := by
  have hv := h.started he hsessions hi
  constructor
  · intro hended
    exact h.orders_active ((congrArg Prod.fst hv).trans horders) hended.orders
  · rintro (⟨htables, _⟩ | ⟨_, hinactive⟩)
    · exact h.endedSessions_ne he (hsessions.symm.trans (congrArg (·.2.1) htables))
    · exact h.orders_active horders hinactive

/-- After the last statement. -/
theorem JustClosed.crashed_reverted {crashed u v : World} {rows : List BalanceRow}
    (h : JustClosed m w i closing)
    (he : e.session = some i) (hcrashed : crashed.tables =
      (w.reverted e.session, w.endedSessions e, w.balances ++ rows))
    (hrows : rows = [] ∨ ∃ usdt, rows = [w.nextBalance e usdt])
    (hu : Settled w e u) (hi : Initiated crashed v answered x) :
    EndedAlike w u v i ↔ SurvivesCrash w i deltaForSale crashed := by
  have hsessions : crashed.sessions = w.endedSessions e := congrArg (·.2.1) hcrashed
  have hbalances : crashed.balances = w.balances ++ rows := congrArg (·.2.2) hcrashed
  have horders : crashed.orders = w.reverted e.session := congrArg Prod.fst hcrashed
  have hv := h.started he hsessions hi
  have hvbalances : v.balances = w.balances ++ rows := (congrArg (·.2.2) hv).trans hbalances
  obtain rfl | ⟨usdt, rfl⟩ := hrows
  · rw [List.append_nil] at hbalances hvbalances
    refine iff_of_false (fun hended => ?_) ?_
    · obtain ⟨_, _, _, hv', _⟩ := hended.balance
      have hlen := congrArg List.length (hvbalances.symm.trans hv')
      simp at hlen
    · rintro (⟨htables, _⟩ | ⟨hne, _⟩)
      · exact h.endedSessions_ne he (hsessions.symm.trans (congrArg (·.2.1) htables))
      · exact hne hbalances
  · have hvsettled : Settled w e v := by
      rw [horders, hsessions, hbalances] at hv
      exact .of_tables hv
    obtain ⟨usdt', hubalances⟩ := hu.balances
    refine iff_of_true ⟨⟨_, hu.session i he h.lt_length, hvsettled.session i he h.lt_length⟩,
      ⟨_, _, hubalances, hvbalances, rfl, rfl⟩, World.rows_reverted (he ▸ hvsettled.orders)⟩ ?_
    refine .inr ⟨fun hsame => ?_, World.rows_reverted (he ▸ horders)⟩
    have hlen := congrArg List.length (hbalances.symm.trans hsame)
    simp at hlen

end

/-- The recovery leaves what the uninterrupted end leaves if and only if the crash came before the
first statement, the orders are recognised as a closed position and there is no delta, or it came
after the last statement. -/
theorem crash_survived_iff {w u crashed v : World} (h : JustClosed m w i closing)
    (hu : Returns environment (endAfterClosing closing deltaForSale) (m, w) t₁ (.ok ()) (m₁, u))
    (ha₁ : (t₁.foldl Log.note {}).answered = true)
    (hcut : Cut environment (endAfterClosing closing deltaForSale) (m, w) t₂ (m₂, crashed))
    (hrecovery : Returns environment initTradeSession (m₃, crashed) t₃ (.ok x) (m₄, v))
    (ha₃ : (t₃.foldl Log.note {}).answered = true) :
    EndedAlike w u v i ↔ SurvivesCrash w i deltaForSale crashed := by
  obtain ⟨e, profit, hsettle, he, hearned, hprofit, hsettlement⟩ := h.settlement deltaForSale
  have hi : Initiated crashed v true x.1 := by
    have hi := (initTradeSession_safe (m₃, crashed, {})).returns observing_covers
      (hrecovery.observed Log.note {})
    rw [ends_ok, ha₃] at hi
    exact hi
  have hu := endAfterClosing_returns hsettlement hu ha₁
  obtain ⟨phase, answered, hphase⟩ := endAfterClosing_cut hsettlement hcut
  cases phase with
  | begun => exact h.crashed_begun hphase hsettle he hprofit hearned hu hi
  | saved =>
    obtain ⟨rows, ⟨rfl, _⟩ | ⟨usdt, rfl⟩, htables⟩ := hphase
    · rw [List.append_nil] at htables
      exact h.crashed_begun htables hsettle he hprofit hearned hu hi
    · obtain ⟨hended, hsurvives⟩ := h.crashed_saved htables hsettle hi
      exact iff_of_false hended hsurvives
  | ended =>
    obtain ⟨rows, _, htables⟩ := hphase
    obtain ⟨hended, hsurvives⟩ := h.crashed_ended (e := e.plus deltaForSale) he
      (congrArg Prod.fst htables) (congrArg (·.2.1) htables) hi
    exact iff_of_false hended hsurvives
  | reverted =>
    obtain ⟨rows, hrows, orders, rfl | ⟨rfl, _⟩, htables⟩ := hphase
    · exact h.crashed_reverted (e := e.plus deltaForSale) he htables
        (hrows.imp And.left id) hu hi
    · obtain ⟨hended, hsurvives⟩ := h.crashed_ended (e := e.plus deltaForSale) he
        (congrArg Prod.fst htables) (congrArg (·.2.1) htables) hi
      exact iff_of_false hended hsurvives

/-! ## Two crashes -/

/-- One coin was bought at 100 and has just been sold at 110. -/
def justSold : World where
  orders := [⟨some 0, 0, some 100, some 1, .buy, true⟩, ⟨some 0, 1, some 110, some 1, .sell, true⟩]
  sessions := [{}]

/-- The report of the sell. -/
def sold : Order where
  id := 1
  side := .sell
  status := some .closed
  amount := some 1
  filled := some 1
  average := none
  price := some 110

/-- The process that watches the session. -/
def selling : Memory where
  config := oneTrade
  indexOperation := some 0
  orders := [.row ⟨some 0, 0, some 100, some 1, .buy, true⟩]

theorem justSold_justClosed : JustClosed selling justSold 0 sold where
  index := rfl
  active := ⟨{}, rfl, rfl⟩
  only j row hrow _ := Nat.lt_one_iff.mp (List.getElem?_eq_some_iff.mp hrow).1
  closing := ⟨_, rfl, rfl, rfl⟩
  first := ⟨_, _, rfl, rfl, rfl⟩
  rows := by decide +kernel
  numeric := by decide +kernel

/-- The end of the session, all of whose requests are answered. -/
def endAnswered : List Response :=
  [.served .done, .served (.balances {}), .served .done, .served .done, .served .done,
    .served .done]

theorem endAnswered_ends : ((endAfterClosing sold (some 0)).ends environment selling justSold
    endAnswered).isSome := by decide +kernel

theorem endAnswered_run (n : Nat) (hn : n < 6) : ((endAfterClosing sold (some 0)).run environment
    selling justSold (endAnswered.take n)).isSome := by decide +revert +kernel

/-- The process is cut off after `n` responses. -/
def cutAfter (n : Nat) (hn : n < 6) : Prog Unit × Memory × World :=
  ((endAfterClosing sold (some 0)).run environment selling justSold (endAnswered.take n)).get
    (endAnswered_run n hn)

/-- The recovery settles the session and starts another. Where there is a history, it takes two
requests more. -/
def recoveryAnswered (history : Bool) : List Response :=
  [.served .done, .served .done, .served .done, .served (.balances {}), .served .done] ++
    (if history then [.served .done, .served .done] else []) ++
    [.served .done, .served .done, .served .done, .served .done]

theorem recovery_first_ends : (initTradeSession.ends environment { config := oneTrade }
    (cutAfter 0 (by decide)).2.2 (recoveryAnswered false)).isSome := by decide +kernel

theorem recovery_saved_ends : (initTradeSession.ends environment { config := oneTrade }
    (cutAfter 4 (by decide)).2.2 (recoveryAnswered true)).isSome := by decide +kernel

/-- A crash before the first statement is made up for. -/
theorem crash_survived_iff_first :
    EndedAlike justSold (((endAfterClosing sold (some 0)).ends environment selling justSold
        endAnswered).get endAnswered_ends).2.2
      ((initTradeSession.ends environment { config := oneTrade } (cutAfter 0 (by decide)).2.2
        (recoveryAnswered false)).get recovery_first_ends).2.2 0 :=
  (crash_survived_iff justSold_justClosed
    (Returns.of_ends_eq (h := endAnswered_ends) (by decide +kernel)) (by decide +kernel)
    (Cut.of_run_get (endAnswered_run 0 (by decide)) (by decide +kernel))
    (Returns.of_ends_eq (h := recovery_first_ends) (x := .ok (.startNewTrade, 1))
      (by decide +kernel)) (by decide +kernel)).mpr
    (.inl ⟨by decide +kernel, by decide +kernel, rfl⟩)

/-- After a crash between the balance row and the session, the history has two rows. -/
theorem crash_counts_twice :
    JustClosed selling justSold 0 sold ∧
      ∃ u crashed v m₁ m₂ m₃ m₄ t₂ t₃ x,
        Returns environment (endAfterClosing sold (some 0)) (selling, justSold) endAnswered (.ok ())
          (m₁, u) ∧
        Cut environment (endAfterClosing sold (some 0)) (selling, justSold) t₂ (m₂, crashed) ∧
        Returns environment initTradeSession (m₃, crashed) t₃ (.ok x) (m₄, v) ∧
        u.balances.length = 1 ∧ v.balances.length = 2 ∧ ¬ EndedAlike justSold u v 0 := by
  have hlen : ((initTradeSession.ends environment { config := oneTrade }
      (cutAfter 4 (by decide)).2.2 (recoveryAnswered true)).get
        recovery_saved_ends).2.2.balances.length
        = 2 := by decide +kernel
  refine ⟨justSold_justClosed, _, _, _, _, _, _, _, _, _, _,
    Returns.of_ends_eq (h := endAnswered_ends) (by decide +kernel),
    Cut.of_run_get (endAnswered_run 4 (by decide)) (by decide +kernel),
    Returns.of_ends_eq (h := recovery_saved_ends) (x := .ok (.startNewTrade, 1))
      (by decide +kernel),
    by decide +kernel, hlen, fun hended => ?_⟩
  obtain ⟨_, _, _, hv, _⟩ := hended.balance
  have hlen' := hlen.symm.trans (congrArg List.length hv)
  cases hlen'

end Tonatiuh.Trading
