import Tonatiuh.Trading.Ending

/-! The running totals of the balance history.

Each end of a session adds a row to the history. The first row starts from nothing, whatever the
session earned; and the sum over all sessions, which every later row takes, is read under a name
that the query does not give it. -/

namespace Tonatiuh.Trading

open Async Config Transition

/-! ## The history of an installation -/

/-- A session that has ended, and whether the end was stored in the balance history. -/
structure EndedSession extends Settlement where
  stored : Bool

structure Installation where
  world : World := {}
  ended : List EndedSession := []

/-- What happens on an installation: requests that leave the accounts alone, and the two functions
that start and end sessions. -/
inductive AccountingEvent where
  | served (r : Request) (outcome : Outcome)
  | exchange (e : ExchangeEvent)
  | initiated (m : Memory) (t : List Response)
  | ended (m : Memory) (deltaForSale : Num) (t : List Response)

/-- The session that `initTradeSession` ends before it starts another. -/
def World.overdue (w : World) : Option Settlement :=
  match w.sessions.findIdx? (·.isActive) with
  | none => none
  | some i =>
    if w.rows (some i) = [] then some ⟨some i, .sell, some 0, some 0⟩
    else if exposureClosed (w.rows (some i)) then w.settlement (some i) else none

/-- The end of a session, if it ended, between the worlds `w` and `w'`. -/
def endedBetween (w w' : World) (e : Option Settlement) : List EndedSession :=
  (e.map fun e => { e with stored := w.balances.length < w'.balances.length }).toList

/-- The session of the process is active. -/
def Memory.active (m : Memory) (w : World) : Bool :=
  (m.indexOperation.bind (w.sessions[·]?)).any (·.isActive)

/-- One event; the two functions have to end without an error. -/
def Installation.step (s : Installation) : AccountingEvent → Option Installation
  | .served r outcome =>
    if r.accounting then none
    else (serve s.world r outcome).map fun (_, world) => { s with world }
  | .exchange e => (s.world.exchange.event e).map fun x =>
    { s with world := { s.world with exchange := x } }
  | .initiated m t =>
    match initTradeSession.ends environment m s.world t with
    | some (.ok _, _, w) => some ⟨w, s.ended ++ endedBetween s.world w s.world.overdue⟩
    | _ => none
  | .ended m deltaForSale t =>
    if m.active s.world then
      match (endTradeSession deltaForSale).ends environment m s.world t with
      | some (.ok _, _, w) =>
        some ⟨w, s.ended ++ endedBetween s.world w (m.settlement s.world deltaForSale)⟩
      | _ => none
    else none

/-- What a step can be. -/
inductive Accounting : Installation → AccountingEvent → Installation → Prop where
  | served (hr : r.accounting = false) (h : serve w r outcome = some (x, w')) :
      Accounting ⟨w, ended⟩ (.served r outcome) ⟨w', ended⟩
  | exchange (h : w.exchange.event e = some x) :
      Accounting ⟨w, ended⟩ (.exchange e) ⟨{ w with exchange := x }, ended⟩
  | initiated (h : Returns environment initTradeSession (m, w) t (.ok x) s) :
      Accounting ⟨w, ended⟩ (.initiated m t) ⟨s.2, ended ++ endedBetween w s.2 w.overdue⟩
  | ended (hactive : m.active w = true)
      (h : Returns environment (endTradeSession deltaForSale) (m, w) t (.ok ()) s) :
      Accounting ⟨w, ended⟩ (.ended m deltaForSale t)
        ⟨s.2, ended ++ endedBetween w s.2 (m.settlement w deltaForSale)⟩

theorem Installation.step_cases {s s' : Installation} (h : s.step event = some s') :
    Accounting s event s' := by
  obtain ⟨w, ended⟩ := s
  cases event with
  | served r outcome =>
    simp only [Installation.step] at h
    split at h
    next => cases h
    next hr =>
      obtain ⟨⟨x, w'⟩, hserve, h⟩ := Option.map_eq_some_iff.mp h
      cases h
      exact .served (Bool.eq_false_iff.mpr hr) hserve
  | exchange e =>
    obtain ⟨x, hx, h⟩ := Option.map_eq_some_iff.mp h
    cases h
    exact .exchange hx
  | initiated m t =>
    simp only [Installation.step] at h
    split at h
    next hends => cases h; exact .initiated (Returns.of_ends hends)
    next => cases h
  | ended m deltaForSale t =>
    simp only [Installation.step] at h
    split at h
    next hactive =>
      split at h
      next hends => cases h; exact .ended hactive (Returns.of_ends hends)
      next => cases h
    next => cases h

/-! ## The totals -/

/-- The sum of `profit_session` over the sessions that have ended; `NULL` is skipped. -/
def endedProfit (sessions : List SessionRow) : Rat :=
  ((sessions.filter fun row => !row.isActive).map fun row => row.profitSession.getD 0).sum

/-- The calculated profits of the sessions whose first order was a buy. -/
def boughtProfits (ended : List EndedSession) : List Num :=
  (ended.filter fun e => e.side = .buy).map (·.earned)

/-- The latest row has both totals. A sum that is not a number equals nothing. -/
def Installation.Accurate (s : Installation) : Prop :=
  ∃ row total, s.world.balances.getLast? = some row ∧ row.profitUsdt = some total ∧
    Num.sum (boughtProfits s.ended) = some total ∧
    row.profitAll = some (endedProfit s.world.sessions)

/-- What an end adds to the total of the sessions begun with a buy. -/
def EndedSession.credit (e : EndedSession) : Rat := if e.side = .buy then e.earned.getD 0 else 0

/-- The ends that the history leaves out: those that were not stored, and the first that was. -/
def uncredited : List EndedSession → List EndedSession
  | [] => []
  | e :: ended => if e.stored then e :: ended.filter fun e => !e.stored else e :: uncredited ended

/-- An end was stored, the profits were numbers, and what the history leaves out sums to nothing, as
do the profits of all sessions. -/
structure Balanced (ended : List EndedSession) : Prop where
  stored : ∃ e ∈ ended, e.stored = true
  numeric : ∀ e ∈ ended, e.side = .buy → e.earned.isSome
  uncredited : ((uncredited ended).map EndedSession.credit).sum = 0
  profits : (ended.map fun e => e.profit.getD 0).sum = 0

/-! ## What the history leaves out -/

@[simp] theorem uncredited_singleton (e : EndedSession) : uncredited [e] = [e] := by
  cases h : e.stored <;> simp [uncredited, h]

/-- Before the first row nothing is credited, and with it neither. -/
theorem uncredited_append_of_unstored (h : ∀ e ∈ ended, e.stored = false) (e : EndedSession) :
    uncredited (ended ++ [e]) = ended ++ [e] := by
  induction ended with
  | nil => exact uncredited_singleton e
  | cons e' ended ih =>
    rw [List.cons_append, uncredited, if_neg (Bool.eq_false_iff.mp (h e' List.mem_cons_self)),
      ih fun e he => h e (List.mem_cons_of_mem _ he)]

theorem uncredited_append_unstored (he : e.stored = false) (ended : List EndedSession) :
    uncredited (ended ++ [e]) = uncredited ended ++ [e] := by
  induction ended with
  | nil => exact uncredited_singleton e
  | cons e' ended ih =>
    rw [List.cons_append, uncredited, uncredited]
    split
    next => rw [List.filter_append, List.filter_singleton, he]; rfl
    next => rw [ih, List.cons_append]

theorem uncredited_append_stored (he : e.stored = true)
    (hstored : ∃ e ∈ ended, e.stored = true) : uncredited (ended ++ [e]) = uncredited ended := by
  induction ended with
  | nil => obtain ⟨_, h, _⟩ := hstored; cases h
  | cons e' ended ih =>
    rw [List.cons_append, uncredited, uncredited]
    split
    next => rw [List.filter_append, List.filter_singleton, he]; simp
    next he' =>
      rw [ih]
      obtain ⟨e'', h, hs⟩ := hstored
      obtain rfl | h := List.mem_cons.mp h
      · exact absurd hs he'
      · exact ⟨e'', h, hs⟩

/-! ## The sessions -/

theorem endedProfit_append (sessions : List SessionRow) (row : SessionRow) :
    endedProfit (sessions ++ [row]) =
      endedProfit sessions + if row.isActive then 0 else row.profitSession.getD 0 := by
  rw [endedProfit, endedProfit, List.filter_append, List.map_append, List.sum_append,
    List.filter_singleton]
  cases row.isActive <;> simp

/-- An active session that ends counts from then on. -/
theorem endedProfit_set {sessions : List SessionRow} (hrow : sessions[i]? = some row)
    (hactive : row.isActive = true) (profit : Num) :
    endedProfit (sessions.set i { isActive := false, profitSession := profit }) =
      endedProfit sessions + profit.getD 0 := by
  induction sessions generalizing i with
  | nil => cases hrow
  | cons first rest ih =>
    cases i with
    | zero =>
      cases hrow
      simp only [endedProfit, List.set_cons_zero, List.filter_cons, hactive]
      simp [add_comm]
    | succ i =>
      have ih := ih hrow
      rw [endedProfit, endedProfit] at ih
      rw [List.set_cons_succ, endedProfit, endedProfit, List.filter_cons, List.filter_cons]
      split
      next => rw [List.map_cons, List.map_cons, List.sum_cons, List.sum_cons, ih, add_assoc]
      next => exact ih

/-! ## The books -/

/-- What the accounts show of the sessions that have ended. -/
structure Books (s : Installation) : Prop where
  sessions : endedProfit s.world.sessions = (s.ended.map fun e => e.profit.getD 0).sum
  unstored : (∀ e ∈ s.ended, e.stored = false) → s.world.balances = []
  stored : (∃ e ∈ s.ended, e.stored = true) → ∃ row, s.world.balances.getLast? = some row ∧
    row.profitAll = some 0 ∧ ((∀ e ∈ s.ended, e.side = .buy → e.earned.isSome) →
      row.profitUsdt = some ((s.ended.map EndedSession.credit).sum -
        ((uncredited s.ended).map EndedSession.credit).sum))

/-- What happens outside the accounts leaves the books as they are. -/
theorem Books.congr (h : Books ⟨w, ended⟩)
    (hsessions : endedProfit w'.sessions = endedProfit w.sessions)
    (hbalances : w'.balances = w.balances) : Books ⟨w', ended⟩ where
  sessions := hsessions.trans h.sessions
  unstored hs := hbalances.trans (h.unstored hs)
  stored hs := by
    obtain ⟨row, hrow, hrest⟩ := h.stored hs
    exact ⟨row, (congrArg _ hbalances).trans hrow, hrest⟩

/-- The end of a session of which no row was stored. -/
theorem Books.unsaved (h : Books ⟨w, ended⟩)
    (hsessions : endedProfit w'.sessions = endedProfit w.sessions + e.profit.getD 0)
    (hbalances : w'.balances = w.balances) (he : e.stored = false) : Books ⟨w', ended ++ [e]⟩ where
  sessions := by
    rw [hsessions, h.sessions, List.map_append, List.sum_append, List.map_singleton,
      List.sum_singleton]
  unstored hs := hbalances.trans (h.unstored fun e he => hs e (List.mem_append_left _ he))
  stored := by
    rintro ⟨e', he', hs⟩
    obtain he' | he' := List.mem_append.mp he'
    · obtain ⟨row, hrow, hall, hnum⟩ := h.stored ⟨e', he', hs⟩
      refine ⟨row, (congrArg _ hbalances).trans hrow, hall, fun hsome => ?_⟩
      rw [hnum fun e he => hsome e (List.mem_append_left _ he), uncredited_append_unstored he]
      simp only [List.map_append, List.sum_append]
      exact congrArg some (by ring)
    · rw [List.mem_singleton.mp he', he] at hs
      cases hs

/-- The end of a session of which a row was stored. -/
theorem Books.saved (h : Books ⟨w, ended⟩)
    (hsessions : endedProfit w'.sessions = endedProfit w.sessions + e.profit.getD 0)
    (hbalances : w'.balances = w.balances ++ [w.nextBalance e.toSettlement usdt])
    (he : e.stored = true) : Books ⟨w', ended ++ [e]⟩ where
  sessions := by
    rw [hsessions, h.sessions, List.map_append, List.sum_append, List.map_singleton,
      List.sum_singleton]
  unstored hs := by
    rw [hs e (List.mem_append_right _ (List.mem_singleton_self e))] at he
    cases he
  stored _ := by
    refine ⟨w.nextBalance e.toSettlement usdt, by rw [hbalances, List.getLast?_concat], rfl,
      fun hsome => ?_⟩
    by_cases hs : ∃ e ∈ ended, e.stored = true
    · obtain ⟨prev, hprev, _, hnum⟩ := h.stored hs
      have hprofit := hnum fun e he => hsome e (List.mem_append_left _ he)
      have hcredit : (if e.side = .buy then e.earned else some 0) = some e.credit := by
        rw [EndedSession.credit]
        split
        next hside =>
          obtain ⟨q, hq⟩ := Option.isSome_iff_exists.mp
            (hsome e (List.mem_append_right _ (List.mem_singleton_self e)) hside)
          rw [hq, Option.getD_some]
        next => rfl
      rw [uncredited_append_stored he hs]
      simp only [World.nextBalance, hprev, hprofit, hcredit, List.map_append, List.sum_append,
        List.map_singleton, List.sum_singleton, Num.ofNull, Option.getD_some, Num.add,
        Option.bind_some, Option.map_some]
      exact congrArg some (by ring)
    · have hs : ∀ e ∈ ended, e.stored = false := fun e he =>
        Bool.eq_false_iff.mpr fun h => hs ⟨e, he, h⟩
      have hnil : w.balances = [] := h.unstored hs
      simp only [World.nextBalance, hnil, List.getLast?_nil, uncredited_append_of_unstored hs,
        sub_self]

/-- An active session that ends counts from then on. -/
theorem World.endedProfit_ended {w : World} {row : SessionRow} (he : e.session = some i)
    (hrow : w.sessions[i]? = some row) (hactive : row.isActive = true) :
    endedProfit (w.endedSessions e) = endedProfit w.sessions + e.profit.getD 0 := by
  rw [World.endedSessions_eq he, endedProfit_set hrow hactive]

/-- A session that starts changes no sum. -/
theorem endedProfit_started (sessions : List SessionRow) :
    endedProfit (sessions ++ [({} : SessionRow)]) = endedProfit sessions := by
  rw [endedProfit_append, if_pos rfl, add_zero]

/-- The end of a session, stored or not. -/
theorem Books.settled (h : Books ⟨w, ended⟩) (hphase : AtPhase w e u answered .reverted)
    (hprofit : endedProfit (w.endedSessions e) = endedProfit w.sessions + e.profit.getD 0)
    (hsessions : endedProfit w'.sessions = endedProfit u.sessions)
    (hbalances : w'.balances = u.balances) :
    Books ⟨w', ended ++ endedBetween w w' (some e)⟩ := by
  obtain ⟨rows, hrows, orders, _, htables⟩ := hphase
  have husessions : u.sessions = w.endedSessions e := congrArg (·.2.1) htables
  have hubalances : u.balances = w.balances ++ rows := congrArg (·.2.2) htables
  have hprofit := (hsessions.trans (congrArg endedProfit husessions)).trans hprofit
  obtain ⟨rfl, _⟩ | ⟨usdt, rfl⟩ := hrows
  · rw [List.append_nil] at hubalances
    refine h.unsaved hprofit (hbalances.trans hubalances) ?_
    simp [hbalances, hubalances]
  · refine h.saved hprofit (hbalances.trans hubalances) ?_
    simp [hbalances, hubalances]

theorem exists_active {sessions : List SessionRow}
    (h : sessions.findIdx? (·.isActive) = some i) :
    ∃ row, sessions[i]? = some row ∧ row.isActive = true := by
  obtain ⟨hi, hactive, _⟩ := List.findIdx?_eq_some_iff_getElem.mp h
  exact ⟨sessions[i], List.getElem?_eq_getElem hi, hactive⟩

/-- `initTradeSession` keeps the books. -/
theorem Books.initiated (h : Books ⟨w, ended⟩) (hi : Initiated w w' answered x) :
    Books ⟨w', ended ++ endedBetween w w' w.overdue⟩ := by
  cases hi with
  | started hactive htables =>
    have hoverdue : w.overdue = none := by simp only [World.overdue, hactive]
    have hsessions : w'.sessions = w.sessions ++ [({} : SessionRow)] := congrArg (·.2.1) htables
    rw [hoverdue, endedBetween, Option.map_none, Option.toList_none, List.append_nil]
    exact h.congr (hsessions ▸ endedProfit_started _) (congrArg (·.2.2) htables)
  | @emptied i hactive hrows htables =>
    have hoverdue : w.overdue = some ⟨some i, .sell, some 0, some 0⟩ := by
      simp only [World.overdue, hactive, hrows, if_true]
    obtain ⟨row, hrow, hisActive⟩ := exists_active hactive
    have hsessions : w'.sessions = _ ++ [({} : SessionRow)] := congrArg (·.2.1) htables
    have hbalances : w'.balances = w.balances := congrArg (·.2.2) htables
    rw [hoverdue]
    refine h.unsaved ?_ hbalances (by simp [hbalances])
    rw [hsessions, endedProfit_started]
    exact World.endedProfit_ended rfl hrow hisActive
  | @recovered i e u hactive hrows hclosed he hphase htables =>
    have hoverdue : w.overdue = some e := by
      simp only [World.overdue, hactive, if_neg hrows, hclosed, he, if_true]
    obtain ⟨row, hrow, hisActive⟩ := exists_active hactive
    have hsessions : w'.sessions = u.sessions ++ [({} : SessionRow)] := congrArg (·.2.1) htables
    rw [hoverdue]
    exact h.settled hphase
      (World.endedProfit_ended (World.settlement_session he) hrow hisActive)
      (hsessions ▸ endedProfit_started _) (congrArg (·.2.2) htables)
  | resumed hactive hrows hopen htables =>
    have hoverdue : w.overdue = none := by
      simp only [World.overdue, hactive, if_neg hrows, hopen]
      rfl
    rw [hoverdue, endedBetween, Option.map_none, Option.toList_none, List.append_nil]
    exact h.congr (congrArg endedProfit (congrArg (·.2.1) htables)) (congrArg (·.2.2) htables)

theorem Memory.active_cases {m : Memory} {w : World} (h : m.active w = true) :
    ∃ i row, m.indexOperation = some i ∧ w.sessions[i]? = some row ∧ row.isActive = true := by
  obtain ⟨row, hrow, hactive⟩ := (Option.any_eq_true _ _).mp h
  obtain ⟨i, hindex, hrow⟩ := Option.bind_eq_some_iff.mp hrow
  exact ⟨i, row, hindex, hrow, hactive⟩

/-- Every step keeps the books. -/
theorem Accounting.books (h : Accounting s event s') (hs : Books s) : Books s' := by
  cases h with
  | served hr hserve =>
    obtain ⟨hsessions, hbalances⟩ := (serve_tables hserve).2 hr
    exact hs.congr (congrArg endedProfit hsessions) hbalances
  | exchange => exact hs.congr rfl rfl
  | @initiated m w t x s ended h =>
    have hi := (initTradeSession_safe (m, w, {})).returns observing_covers (h.observed Log.note {})
    exact hs.initiated hi
  | @ended deltaForSale m w t s ended hactive h =>
    have h := h.observed Log.note {}
    obtain ⟨i, row, hindex, hrow, hisActive⟩ := Memory.active_cases hactive
    cases he : m.settlement w deltaForSale with
    | none => exact ((endTradeSession_unsettled he).returns observing_covers h).elim
    | some e =>
      have hreached : Reached m w e .begun (m, w, {}) := ⟨rfl, rfl⟩
      obtain ⟨_, hphase⟩ := (endTradeSession_safe (P := fun _ => True) hreached
        (fun _ _ _ => trivial) he).returns observing_covers h
      obtain ⟨_, _, _, _, _, _, heq⟩ := Memory.settlement_some he
      refine hs.settled hphase (World.endedProfit_ended ?_ hrow hisActive) rfl rfl
      rw [heq]
      exact hindex

theorem books_of_run (h : Run (Stepping Installation.step) {} events s) : Books s :=
  h.invariant (fun _ _ _ hs hstep => (Installation.step_cases hstep).books hs)
    ⟨rfl, fun _ => rfl, fun ⟨_, he, _⟩ => by cases he⟩

/-! ## Accuracy -/

theorem sum_boughtProfits (h : ∀ e ∈ ended, e.side = .buy → e.earned.isSome) :
    Num.sum (boughtProfits ended) = some (ended.map EndedSession.credit).sum := by
  rw [boughtProfits, Num.sum_map_some (g := fun e => e.earned.getD 0)]
  · congr 1
    induction ended with
    | nil => rfl
    | cons e ended ih =>
      have ih := ih fun e he => h e (List.mem_cons_of_mem _ he)
      rw [List.filter_cons, List.map_cons, List.sum_cons, ← ih, EndedSession.credit]
      by_cases hside : e.side = .buy <;> simp [hside]
  · intro e he
    obtain ⟨he, hside⟩ := List.mem_filter.mp he
    obtain ⟨q, hq⟩ := Option.isSome_iff_exists.mp (h e he (of_decide_eq_true hside))
    rw [hq, Option.getD_some]

/-- In every history, the latest row has both totals if and only if an end was stored, the profits
were numbers, and both what the history leaves out and the profits of all sessions sum to
nothing. -/
theorem accurate_iff (h : Run (Stepping Installation.step) {} events s) :
    s.Accurate ↔ Balanced s.ended := by
  have hbooks := books_of_run h
  constructor
  · rintro ⟨row, total, hrow, husdt, hsum, hall⟩
    have hstored : ∃ e ∈ s.ended, e.stored = true := by
      by_contra hs
      rw [hbooks.unstored fun e he => Bool.eq_false_iff.mpr fun h => hs ⟨e, he, h⟩] at hrow
      cases hrow
    obtain ⟨row', hrow', hall', hnum⟩ := hbooks.stored hstored
    obtain rfl : row = row' := Option.some.inj (hrow.symm.trans hrow')
    have hnumeric : ∀ e ∈ s.ended, e.side = .buy → e.earned.isSome := fun e he hside =>
      Num.isSome_of_sum hsum _
        (List.mem_map_of_mem (List.mem_filter.mpr ⟨he, decide_eq_true hside⟩))
    rw [sum_boughtProfits hnumeric] at hsum
    have htotal := Option.some.inj ((hnum hnumeric).symm.trans (husdt.trans hsum.symm))
    refine ⟨hstored, hnumeric, sub_eq_self.mp htotal, ?_⟩
    rw [← hbooks.sessions]
    exact (Option.some.inj (hall'.symm.trans hall)).symm
  · rintro ⟨hstored, hnumeric, huncredited, hprofits⟩
    obtain ⟨row, hrow, hall, hnum⟩ := hbooks.stored hstored
    refine ⟨row, _, hrow, hnum hnumeric, ?_, ?_⟩
    · rw [sum_boughtProfits hnumeric, huncredited, sub_zero]
    · rw [hall, hbooks.sessions, hprofits]

/-- A session is started, its two orders are stored, and it is ended. -/
def tradedSession (session : SessionId) (first closing : OrderRow) (t : List Response) :
    List AccountingEvent :=
  [.initiated { config := oneTrade } [.served .done, .served .done],
    .served (.createOrderRow first) .done, .served (.createOrderRow closing) .done,
    .ended { config := oneTrade, indexOperation := some session,
             orders := [.row first, .row closing] }
      (some 0) t]

/-- The requests of the first end and of a later one. -/
def endedFirst : List Response :=
  [.served .done, .served (.balances {}), .served .done, .served .done, .served .done,
    .served .done]

def endedLater : List Response :=
  [.served .done, .served (.balances {}), .served .done, .served .done, .served .done,
    .served .done, .served .done, .served .done]

/-- A session begun with a sell earns 5, one begun with a buy loses 5. -/
def evenSessions : List AccountingEvent :=
  tradedSession 0
    ⟨some 0, 0, some 110, some 1, .sell, true⟩
    ⟨some 0, 1, some 105, some 1, .buy, true⟩
    endedFirst ++
  tradedSession 1
    ⟨some 1, 2, some 100, some 1, .buy, true⟩
    ⟨some 1, 3, some 95, some 1, .sell, true⟩
    endedLater

theorem evenSessions_enabled : (exec Installation.step {} evenSessions).isSome := by
  decide +kernel

/-- Two sessions begun with a buy earn 10 each. -/
def earningSessions : List AccountingEvent :=
  tradedSession 0
    ⟨some 0, 0, some 100, some 1, .buy, true⟩
    ⟨some 0, 1, some 110, some 1, .sell, true⟩
    endedFirst ++
  tradedSession 1
    ⟨some 1, 2, some 100, some 1, .buy, true⟩
    ⟨some 1, 3, some 110, some 1, .sell, true⟩
    endedLater

theorem earningSessions_enabled : (exec Installation.step {} earningSessions).isSome := by
  decide +kernel

theorem accurate_iff_evenSessions :
    ((exec Installation.step {} evenSessions).get evenSessions_enabled).Accurate :=
  (accurate_iff (Run.of_exec_get evenSessions_enabled)).mpr
    ⟨by decide +kernel, by decide +kernel, by decide +kernel, by decide +kernel⟩

/-- The latest row tells 10 and 0 where both totals are 20. -/
theorem history_misses_sessions :
    ∃ s, Run (Stepping Installation.step) {} earningSessions s ∧
      boughtProfits s.ended = [some 10, some 10] ∧ endedProfit s.world.sessions = 20 ∧
      s.world.balances.getLast? = some ⟨none, some 0, some 10⟩ ∧ ¬ s.Accurate := by
  have hlast : ((exec Installation.step {} earningSessions).get
      earningSessions_enabled).world.balances.getLast? = some ⟨none, some 0, some 10⟩ := by
    decide +kernel
  have hprofit : endedProfit ((exec Installation.step {} earningSessions).get
      earningSessions_enabled).world.sessions = 20 := by decide +kernel
  refine ⟨_, Run.of_exec_get earningSessions_enabled, by decide +kernel, hprofit, hlast, ?_⟩
  rintro ⟨row, total, hrow, _, _, hall⟩
  rw [hprofit] at hall
  obtain rfl := Option.some.inj (hlast.symm.trans hrow)
  cases hall

end Tonatiuh.Trading
