import Tonatiuh.Trading.Positions
import Tonatiuh.Trading.WatchRequests
import Tonatiuh.Transition.Locks

/-! The active trade session.

`startSession` and `endTradeSession` are statements of their own, and the process may die between
any two statements. The table of the sessions is always in one of two states: no session is active,
or one is. A session is started only in the first, and rows are stored only in the second. -/

namespace Tonatiuh.Trading

open Async Config Transition

/-- The session is active. -/
def World.isActive (w : World) (i : SessionId) : Bool := w.sessions[i]?.any (·.isActive)

/-- The active session is `active`, if there is one; no other is active. -/
def World.Active (w : World) (active : Option SessionId) : Prop :=
  ∀ i, w.isActive i = true ↔ active = some i

/-- No two sessions are active. -/
def World.Serial (w : World) : Prop := ∃ active, w.Active active

variable {w w' : World} {active : Option SessionId} {i : SessionId} {s t : Memory × World}

namespace World

theorem Active.congr (h : w.Active active) (hsessions : w'.sessions = w.sessions) :
    w'.Active active := by
  intro i
  rw [isActive, hsessions]
  exact h i

theorem Active.serial (h : w.Active active) : w.Serial := ⟨active, h⟩

theorem Serial.congr (h : w.Serial) (hsessions : w'.sessions = w.sessions) : w'.Serial :=
  let ⟨_, h⟩ := h
  (h.congr hsessions).serial

theorem Serial.eq (h : w.Serial) (hi : w.isActive i = true) (hj : w.isActive j = true) : i = j := by
  obtain ⟨active, h⟩ := h
  exact Option.some.inj (((h i).mp hi).symm.trans ((h j).mp hj))

/-- `checkingActiveSession` takes the first of the active sessions, of which there is one. -/
theorem Active.findIdx? (h : w.Active active) : w.sessions.findIdx? (·.isActive) = active := by
  cases hfind : w.sessions.findIdx? (·.isActive) with
  | none =>
    cases active with
    | none => rfl
    | some i =>
      obtain ⟨row, hrow, hactive⟩ := (Option.any_eq_true _ _).mp ((h i).mpr rfl)
      have hfree := List.findIdx?_eq_none_iff.mp hfind row (List.mem_of_getElem? hrow)
      exact absurd hactive (Bool.eq_false_iff.mp hfree)
  | some i =>
    obtain ⟨hi, hactive, _⟩ := List.findIdx?_eq_some_iff_getElem.mp hfind
    exact ((h i).mp ((Option.any_eq_true _ _).mpr ⟨_, List.getElem?_eq_getElem hi, hactive⟩)).symm

/-- A session is started when none is active. -/
theorem Active.started (h : w.Active none)
    (hsessions : w'.sessions = w.sessions ++ [({} : SessionRow)]) :
    w'.Active (some w.sessions.length) := by
  intro i
  rw [isActive, hsessions]
  constructor
  · intro hi
    obtain ⟨row, hrow, hactive⟩ := (Option.any_eq_true _ _).mp hi
    obtain ⟨rfl, _⟩ | ⟨_, hrow⟩ := getElem?_concat_cases hrow
    · rfl
    · cases (h i).mp ((Option.any_eq_true _ _).mpr ⟨row, hrow, hactive⟩)
  · intro heq
    cases heq
    rw [List.getElem?_concat_length]
    rfl

/-- The active session is ended. -/
theorem Active.ended (h : w.Active (some i)) {profitSession : Num}
    (hsessions : w'.sessions = w.sessions.mapIdx fun j row =>
      if some i = some j then { isActive := false, profitSession } else row) : w'.Active none := by
  intro j
  refine ⟨fun hj => ?_, nofun⟩
  rw [isActive, hsessions, List.getElem?_mapIdx] at hj
  obtain ⟨row, hrow, hactive⟩ := (Option.any_eq_true _ _).mp hj
  obtain ⟨row', hrow', rfl⟩ := Option.map_eq_some_iff.mp hrow
  split at hactive
  next => cases hactive
  next hne => exact absurd ((h j).mp ((Option.any_eq_true _ _).mpr ⟨row', hrow', hactive⟩)) hne

end World

/-! ## The contract -/

/-- The requests that may be sent while `active` is the active session, and keep it so. -/
def Request.Keeping (active : Option SessionId) : Request → Prop
  | .startSession | .endTradeSession _ _ => False
  | .createOrderRow row => row.session.isSome ∧ row.session = active
  | .getAllOrdersByIndexOperation session => session.isSome ∧ session = active
  | _ => True

/-- Rows are stored, and orders are read, for the active session. -/
def Request.Addresses (w : World) : Request → Prop
  | .createOrderRow row => row.session.isSome ∧ w.Active row.session
  | .getAllOrdersByIndexOperation session => session.isSome ∧ w.Active session
  | _ => True

/-- Beside the task no session is started or ended and no row is stored. -/
def serialContract : Contract api Memory World String where
  rely s t :=
    t.1.indexOperation = s.1.indexOperation ∧ t.2.orders = s.2.orders ∧ t.2.sessions = s.2.sessions
  rely_refl _ := ⟨rfl, rfl, rfl⟩
  rely_trans _ _ _ h h' := ⟨h'.1.trans h.1, h'.2.1.trans h.2.1, h'.2.2.trans h.2.2⟩
  served r s x t := t.1 = s.1 ∧ ∃ outcome, serve s.2 r outcome = some (x, t.2)
  pending r s := s.2.Serial ∧ r.Addresses s.2
  ready s := s.2.Serial
  pending_ready _ _ h := h.1

theorem Request.Keeping.addresses {r : Request} (h : r.Keeping active) (hw : w.Active active) :
    r.Addresses w := by
  cases r with
  | createOrderRow row => exact ⟨h.1, h.2 ▸ hw⟩
  | getAllOrdersByIndexOperation session => exact ⟨h.1, h.2 ▸ hw⟩
  | _ => trivial

/-- A request that starts and ends no session leaves the sessions alone. -/
theorem serve_sessions {r : Request} {x : Except String r.Answer} (hr : r.Keeping active)
    (h : serve w r outcome = some (x, w')) : w'.sessions = w.sessions := by
  cases r with
  | startSession => exact hr.elim
  | endTradeSession => exact hr.elim
  | createStateBalance row =>
    cases outcome with
    | done => cases h; rfl
    | rejected => cases h; rfl
    | _ => cases h
  | _ => exact ((serve_tables h).2 rfl).1

/-- What a program keeps that runs with the same active session. -/
theorem confined_serial {p : Prog α} {M : Memory → Prop}
    (hp : p.Confined (Request.Keeping active) M)
    (hindex : ∀ m m', m'.indexOperation = m.indexOperation → M m → M m') (hM : M s.1)
    (hs : s.2.Active active) : Safe serialContract (fun _ t => M t.1 ∧ t.2.Active active) p s := by
  refine Safe.of_confined (I := fun w => w.Active active) hp hM hs ?_ ?_ ?_ ?_
  · exact fun s t hst hm hw => ⟨hindex _ _ hst.1 hm, hw.congr hst.2.2⟩
  · rintro r s x t hr ⟨hm, outcome, hserve⟩ hM hw
    exact ⟨hm ▸ hM, hw.congr (serve_sessions hr hserve)⟩
  · exact fun r s hr hw => ⟨hw.serial, hr.addresses hw⟩
  · exact fun s hw => hw.serial

theorem keeping_serial {p : Prog α} (hs : s.2.Active active)
    (hp : p.Confined (Request.Keeping active) fun _ => True) :
    Safe serialContract (fun _ t => t.2.Active active) p s :=
  (confined_serial hp (fun _ _ _ _ => trivial) trivial hs).mono fun _ _ ht => ht.2

/-- The rule of a request: an error leaves the world as it is, and the postcondition holds of an
answer. -/
theorem serial_rule {r : Request} {ok : r.Answer → Memory × World → Prop} (hs : s.2.Active active)
    (hr : r.Addresses s.2)
    (hserved : ∀ s' outcome x w, serialContract.rely s s' → serve s'.2 r outcome = some (x, w) →
      (∃ e, x = .error e ∧ w = s'.2) ∨
        ∃ a, x = .ok a ∧ w.Serial ∧ ∀ t, serialContract.rely (s'.1, w) t → ok a t) :
    Safe serialContract (Ends ok fun t => t.2.Serial) (request r) s := by
  apply Safe.request
  intro s' hs'
  have hserial : s'.2.Serial := (hs.congr hs'.2.2).serial
  have haddresses : r.Addresses s'.2 := by
    cases r with
    | createOrderRow => exact ⟨hr.1, hr.2.congr hs'.2.2⟩
    | getAllOrdersByIndexOperation => exact ⟨hr.1, hr.2.congr hs'.2.2⟩
    | _ => trivial
  refine ⟨⟨hserial, haddresses⟩, ?_⟩
  rintro x ⟨m, w⟩ ⟨hm, outcome, hserve⟩ t ht
  cases hm
  obtain ⟨e, rfl, rfl⟩ | ⟨a, rfl, hw, hok⟩ := hserved s' outcome x w hs' hserve
  · exact ⟨hserial.congr ht.2.2, hserial.congr ht.2.2⟩
  · exact ⟨hw.congr ht.2.2, hok t ht⟩

theorem startSession_serial (hs : s.2.Active none) :
    Safe serialContract (Ends (fun i t => t.2.Active (some i)) fun t => t.2.Serial)
    (request .startSession)
      s := by
  refine serial_rule hs trivial fun s' outcome x w hs' hserve => ?_
  cases outcome with
  | done =>
    cases hserve
    have hstarted : World.Active { s'.2 with sessions := s'.2.sessions ++ [({} : SessionRow)] }
        (some s'.2.sessions.length) := (hs.congr hs'.2.2).started rfl
    exact .inr ⟨_, rfl, hstarted.serial, fun t ht => hstarted.congr ht.2.2⟩
  | rejected => cases hserve; exact .inl ⟨_, rfl, rfl⟩
  | _ => cases hserve

theorem endTradeSession_serial (hs : s.2.Active (some i)) (profitSession : Num) :
    Safe serialContract (Ends (fun _ t => t.2.Active none) fun t => t.2.Serial)
      (request (.endTradeSession profitSession (some i))) s := by
  refine serial_rule hs trivial fun s' outcome x w hs' hserve => ?_
  cases outcome with
  | done =>
    cases hserve
    have hended : World.Active { s'.2 with sessions := s'.2.sessions.mapIdx fun j row =>
        if (some i) = (some j) then { isActive := false, profitSession } else row } none :=
      (hs.congr hs'.2.2).ended rfl
    exact .inr ⟨_, rfl, hended.serial, fun t ht => hended.congr ht.2.2⟩
  | rejected => cases hserve; exact .inl ⟨_, rfl, rfl⟩
  | _ => cases hserve

theorem checkingActiveSession_serial (hs : s.2.Active active) :
    Safe serialContract (Ends (fun x t => x = active ∧ t.2.Active active) fun t => t.2.Serial)
      (request .checkingActiveSession) s := by
  refine serial_rule hs trivial fun s' outcome x w hs' hserve => ?_
  have hactive := hs.congr hs'.2.2
  cases outcome with
  | done =>
    cases hserve
    exact .inr ⟨_, rfl, hactive.serial, fun t ht => ⟨hactive.findIdx?, hactive.congr ht.2.2⟩⟩
  | rejected => cases hserve; exact .inl ⟨_, rfl, rfl⟩
  | _ => cases hserve

theorem getAllOrders_serial (hs : s.2.Active (some i)) :
    Safe serialContract (Ends (fun rows t => rows = t.2.rows (some i) ∧ t.2.Active (some i) ∧
        t.1.indexOperation = s.1.indexOperation) fun t => t.2.Serial)
      (request (.getAllOrdersByIndexOperation (some i))) s := by
  refine serial_rule hs ⟨rfl, hs⟩ fun s' outcome x w hs' hserve => ?_
  have hactive := hs.congr hs'.2.2
  cases outcome with
  | done =>
    cases hserve
    refine .inr ⟨_, rfl, hactive.serial, fun t ht => ⟨(World.rows_congr ht.2.1 _).symm, ?_, ?_⟩⟩
    · exact hactive.congr ht.2.2
    · exact ht.1.trans hs'.1
  | rejected => cases hserve; exact .inl ⟨_, rfl, rfl⟩
  | _ => cases hserve

/-! ## Trading in the active session -/

/-- The process trades in the session. -/
def Memory.Trades (i : SessionId) (m : Memory) : Prop := m.indexOperation = some i

/-- And the session is the active one. -/
structure TradesIn (i : SessionId) (s : Memory × World) : Prop where
  index : s.1.Trades i
  active : s.2.Active (some i)

theorem TradesIn.safe {p : Prog α} (hs : TradesIn i s)
    (hp : p.Confined (Request.Keeping (some i)) (Memory.Trades i)) :
    Safe serialContract (fun _ t => TradesIn i t) p s :=
  (confined_serial hp (fun _ _ heq hm => heq.trans hm) hs.index hs.active).mono fun _ _ ht =>
    ⟨ht.1, ht.2⟩

theorem Request.InSession.keeping {r : Request} (h : r.InSession (some i)) :
    r.Keeping (some i) := by
  cases r with
  | createOrderRow row =>
    have h : row.session = some i := h
    exact ⟨h ▸ rfl, h⟩
  | startSession | endTradeSession | getAllOrdersByIndexOperation => exact h.elim
  | _ => trivial

theorem Request.keeping_of_passive {r : Request} (h : r.passive = true) : r.Keeping active := by
  cases r with
  | startSession | endTradeSession | createOrderRow | getAllOrdersByIndexOperation => cases h
  | _ => trivial

theorem keeping_admits : Admits (Request.Keeping (some i)) (Memory.Trades i) where
  passive _ h := Request.keeping_of_passive h
  orders m r hm h := by
    rw [show m.indexOperation = some i from hm] at h
    exact h.keeping
  push _ _ hm := hm
  reload _ _ hm := hm

/-! ## Ending the session -/

theorem TradesIn.serial (h : TradesIn i s) : s.2.Serial := h.active.serial

/-- Once its end is stored, no session is active. -/
theorem endTradeSession_ends (hs : TradesIn i s) (deltaForSale : Num) :
    Safe serialContract (fun _ t => t.2.Serial) (endTradeSession deltaForSale) s := by
  unfold endTradeSession
  rw [safe_get_bind]
  refine Safe.bind (hs.safe
    (calculateProfitSession_confined (fun _ => Request.keeping_of_passive) _ _))
    (fun profit t ht => ?_)
    fun _ _ ht => ht.serial
  rw [safe_get_bind]
  refine Safe.bind (ht.safe (saveBalanceState_confined (fun _ => Request.keeping_of_passive) _ _))
    (fun _ u hu => ?_) fun _ _ hu => hu.serial
  rw [safe_get_bind, show u.1.indexOperation = some i from hu.index]
  refine Safe.bind (endTradeSession_serial hu.active _) (fun _ v hv => ?_) fun _ _ hv => hv
  rw [safe_get_bind]
  exact Safe.bind (keeping_serial hv (.request trivial))
    (fun _ _ hw => hw.serial) fun _ _ hw => hw.serial

theorem closeAndEnd_ends (hs : TradesIn i s) (bound : Nat) (deltaForSale : Num) :
    Safe serialContract (fun _ t => t.2.Serial) (closeAndEnd bound deltaForSale) s := by
  unfold closeAndEnd
  rw [safe_get_bind]
  refine Safe.bind (hs.safe (keeping_admits.closeFilledPosition hs.index bound))
    (fun closingOrder t ht => ?_)
    fun _ _ ht => ht.serial
  split
  next => exact endTradeSession_ends ht deltaForSale
  next => exact ht.serial

/-! ## The watch loop -/

/-- What a round leaves: the loop goes on in the same session. -/
def GoesOn (i : SessionId) (next : Option WatchState) (t : Memory × World) : Prop :=
  t.2.Serial ∧ (next.isSome → TradesIn i t)

theorem watchRound_serial (hs : TradesIn i s) (bound : Nat) (w : WatchState) :
    Safe serialContract (Ends (GoesOn i) fun t => t.2.Serial) (watchRound bound w) s := by
  have ended (deltaForSale : Num) {t : Memory × World} (ht : TradesIn i t) :
      Safe serialContract (Ends (GoesOn i) fun t => t.2.Serial)
        (do closeAndEnd bound deltaForSale; return (none : Option WatchState)) t :=
    Safe.bind (closeAndEnd_ends ht bound deltaForSale) (fun _ _ hu => ⟨hu, nofun⟩) fun _ _ hu => hu
  unfold watchRound
  refine Safe.bind (hs.safe (keeping_admits.observeMarket w))
    (fun market t ht => ?_) fun _ _ ht => ht.serial
  rw [safe_get_bind]
  split
  next =>
    exact Safe.bind (ht.safe (.request trivial)) (fun _ u hu => ended market.deltaForSale hu)
      fun _ _ hu => hu.serial
  next =>
    split
    next => exact ht.serial
    next =>
      split
      next => exact ended market.deltaForSale ht
      next =>
        refine Safe.bind (ht.safe (keeping_admits.watchingTakeProfitLogic bound _ _))
          (fun takeProfit u hu => ?_)
          fun _ _ hu => hu.serial
        split
        next =>
          exact Safe.bind (endTradeSession_ends hu market.deltaForSale) (fun _ _ hv => ⟨hv, nofun⟩)
            fun _ _ hv => hv
        next =>
          refine Safe.bind (hu.safe (keeping_admits.buyBack w market))
            (fun w' v hv => ?_) fun _ _ hv => hv.serial
          exact Safe.bind (hv.safe (.request trivial)) (fun _ _ hx => ⟨hx.serial, fun _ => hx⟩)
            fun _ _ hx => hx.serial

theorem watchingProcess_serial (hs : TradesIn i s) (bound rounds : Nat) (w : WatchState) :
    Safe serialContract (fun _ t => t.2.Serial) (watchingProcess bound rounds w) s := by
  induction rounds generalizing s w with
  | zero => trivial
  | succ rounds ih =>
    unfold watchingProcess
    rw [safe_get_bind]
    split
    next => exact hs.serial
    next =>
      refine Safe.bind (watchRound_serial hs bound w) (fun next t ht => ?_) fun _ _ ht => ht
      obtain ⟨hserial, hnext⟩ := ht
      cases next with
      | none => exact hserial
      | some w' => exact ih (hnext rfl) w'

/-! ## Beginning a session -/

/-- A position that has been closed ends its session. -/
theorem checkingIfClosingOrderHasBeenCreated_ends (hs : s.2.Active (some i)) {rows : List OrderRow}
    (hclosed : isSessionExposureClosed (rows.map fun row => ⟨row.side, row.amount⟩) = true) :
    Safe serialContract
      (Ends (fun completed t => completed = true ∧ t.2.Active none) fun t => t.2.Serial)
      (checkingIfClosingOrderHasBeenCreated rows (some i)) s := by
  unfold checkingIfClosingOrderHasBeenCreated
  rw [if_pos hclosed]
  refine Safe.bind (keeping_serial hs
    (calculateProfitSession_confined (fun _ => Request.keeping_of_passive) _ _))
    (fun profit t ht => ?_)
    fun _ _ ht => ht.serial
  refine Safe.bind (keeping_serial ht
    (saveBalanceState_confined (fun _ => Request.keeping_of_passive) _ _)) (fun _ u hu => ?_)
    fun _ _ hu => hu.serial
  refine Safe.bind (endTradeSession_serial hu _) (fun _ v hv => ?_) fun _ _ hv => hv
  exact Safe.bind (keeping_serial hv (.request trivial))
    (fun _ _ hw => ⟨rfl, hw⟩) fun _ _ hw => hw.serial

/-- The rows that were read last. `initTradeSession` hands them to `setOrders` before it returns
`startOldTrade`. -/
def rowsRead (rows : List OrderRow) : (r : Request) → Except String r.Answer → List OrderRow
  | .getAllOrdersByIndexOperation _, .ok rows' => rows'
  | _, _ => rows

/-- What `initTradeSession` returns is the active session. One that is taken up again has rows, and
these are the rows that were read. -/
structure Initiates (r : TypeSession × SessionId) (w : World) (rows : List OrderRow) : Prop where
  active : w.Active (some r.2)
  takenUp : r.1 = .startOldTrade → rows = w.rows (some r.2) ∧ rows ≠ []

theorem beginNew_initiates {s : Memory × World × List OrderRow} (hs : s.2.1.Active none) :
    Safe (serialContract.noted rowsRead)
    (Ends (fun r t => Initiates r t.2.1 t.2.2) fun t => t.2.1.Serial)
      (do let indexOperation ← request .startSession
          return (TypeSession.startNewTrade, indexOperation)) s :=
  Safe.bind (Safe.noted (s := (s.1, s.2.1)) (startSession_serial hs) s.2.2)
    (fun _ _ ht => ⟨ht, nofun⟩)
    fun _ _ ht => ht

theorem initTradeSession_initiates (hs : s.2.Serial) (rows : List OrderRow) :
    Safe (serialContract.noted rowsRead)
    (Ends (fun r t => Initiates r t.2.1 t.2.2) fun t => t.2.1.Serial)
      initTradeSession (s.1, s.2, rows) := by
  obtain ⟨active, hs⟩ := hs
  unfold initTradeSession
  refine Safe.bind ((checkingActiveSession_serial hs).noted rows) (fun active' t ht => ?_)
    fun _ _ ht => ht
  obtain ⟨rfl, ht⟩ := ht
  cases active' with
  | none => exact beginNew_initiates ht
  | some i =>
    refine Safe.bind (Safe.noted_request (s := (t.1, t.2.1)) (getAllOrders_serial ht) t.2.2)
      (fun rows' u hu => ?_) fun _ _ hu => hu.1
    obtain ⟨⟨hrows, hu, _⟩, hnote⟩ := hu
    split
    next =>
      exact Safe.bind (Safe.noted (s := (u.1, u.2.1)) (endTradeSession_serial hu _) u.2.2)
        (fun _ _ hv => beginNew_initiates hv) fun _ _ hv => hv
    next hne =>
      by_cases hclosed : isSessionExposureClosed (rows'.map fun row => ⟨row.side,
        row.amount⟩) = true
      · refine Safe.bind (Safe.noted (s := (u.1, u.2.1))
          (checkingIfClosingOrderHasBeenCreated_ends hu hclosed) u.2.2) (fun completed v hv => ?_)
          fun _ _ hv => hv
        obtain ⟨rfl, hv⟩ := hv
        exact beginNew_initiates hv
      · rw [checkingIfClosingOrderHasBeenCreated, if_neg hclosed]
        have hnote : u.2.2 = rows' := hnote
        exact ⟨hu, fun _ => ⟨hnote.trans hrows, hnote ▸ hne⟩⟩

theorem initTradeSession_serial (hs : s.2.Serial) :
    Safe serialContract
      (Ends (fun r t => t.2.Active (some r.2)) fun t => t.2.Serial) initTradeSession
      s := by
  refine (initTradeSession_initiates hs []).of_noted fun x t rows ht => ?_
  cases x with
  | ok r => exact ht.active
  | error e => exact ht

/-! ## The worker -/

theorem startNewTrade_serial (hs : TradesIn i s) (bound : Nat) (isOnlyBuy : Bool) :
    Safe serialContract (fun _ t => t.2.Serial) (startNewTrade bound isOnlyBuy) s :=
  Safe.bind (hs.safe (keeping_admits.enteringPosition isOnlyBuy))
    (fun w _ ht => watchingProcess_serial ht bound bound w) fun _ _ ht => ht.serial

theorem checkingExistingOrders_serial (hs : TradesIn i s) (bound : Nat) :
    Safe serialContract (fun _ t => t.2.Serial) (checkingExistingOrders bound i) s := by
  unfold checkingExistingOrders
  refine Safe.bind (getAllOrders_serial hs.active) (fun rows t ht => ?_) fun _ _ ht => ht
  obtain ⟨_, ht, hindex⟩ := ht
  split
  next => exact ht.serial
  next w _ =>
    have htrades : TradesIn i (t.1.setOrders (rows.map .row), t.2) := ⟨hindex.trans hs.index, ht⟩
    rw [safe_modify_bind]
    exact watchingProcess_serial htrades bound bound w

theorem startTradingSession_serial (hs : s.2.Serial) (bound : Nat) (isOnlyBuy : Bool) :
    Safe serialContract (fun _ t => t.2.Serial) (startTradingSession bound isOnlyBuy) s := by
  obtain ⟨active, hs⟩ := hs
  unfold startTradingSession
  refine Safe.bind (keeping_serial hs (.request trivial)) (fun _ t ht => ?_) fun _ _ ht => ht.serial
  refine Safe.bind (initTradeSession_serial ht.serial) (fun r u hu => ?_) fun _ _ hu => hu
  obtain ⟨type, i⟩ := r
  have htrades : TradesIn i ({ u.1 with indexOperation := some i }, u.2) := ⟨rfl, hu⟩
  rw [safe_modify_bind]
  cases type with
  | startNewTrade => exact startNewTrade_serial htrades bound isOnlyBuy
  | startOldTrade => exact checkingExistingOrders_serial htrades bound

theorem tradeUntilStopping_serial (hs : s.2.Serial) (bound : Nat) (isOnlyBuy : Bool)
    (rounds : Nat) :
    Safe serialContract (fun _ t => t.2.Serial) (tradeUntilStopping bound isOnlyBuy rounds) s := by
  induction rounds generalizing s with
  | zero => trivial
  | succ rounds ih =>
    unfold tradeUntilStopping
    rw [safe_get_bind]
    split
    next => exact hs
    next =>
      exact Safe.bind (startTradingSession_serial hs bound isOnlyBuy) (fun _ _ ht => ih ht)
        fun _ _ ht => ht

theorem worker_serial (hs : s.2.Serial) (bound : Nat) (config : ConfigType) :
    Safe serialContract (fun _ t => t.2.Serial) (worker bound config) s := by
  obtain ⟨active, hs⟩ := hs
  have hinitialize : (initializeServices config).Confined (Request.Keeping active) fun _ => True :=
    .bind (.modifies fun _ _ => trivial) fun _ => .bind (.request trivial) fun _ => .request trivial
  refine Safe.tryCatch (Q := fun _ t => t.2.Serial) ?_ (fun _ _ ht => ht) fun _ _ ht => ht
  refine Safe.bind (keeping_serial hs (.request trivial)) (fun _ t ht => ?_) fun _ _ ht => ht.serial
  refine Safe.bind (keeping_serial ht hinitialize) (fun _ u hu => ?_) fun _ _ hu => hu.serial
  exact Safe.bind (tradeUntilStopping_serial hu.serial bound config.isOnlyBuy bound)
    (fun _ _ hv => hv)
    fun _ _ hv => hv

end Tonatiuh.Trading
