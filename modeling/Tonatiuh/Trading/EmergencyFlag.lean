import Tonatiuh.Trading.WatchRequests
import Tonatiuh.Trading.Worker

/-! The emergency flag of the configuration database.

`disableEmergencyStop` clears the flag of every configuration, and the watch loop calls it before it
tries to close the position. A process that starts gives its own flag the value with which it
starts. -/

namespace Tonatiuh.Trading

open Async Config Transition

/-! ## Who writes the flag -/

/-- The requests that write the flag. -/
def Request.writesFlag : Request → Bool
  | .disableEmergencyStop | .syncRuntimeConfig => true
  | _ => false

/-- Every other request. -/
def Request.NotDisabling (r : Request) : Prop := r.writesFlag = false

theorem sends_request {r : Request} (h : r.writesFlag = false) :
    (request r).Sends Request.NotDisabling :=
  Program.Sends.request h

theorem notDisabling_of_passive (r : Request) (h : r.passive = true) : r.NotDisabling := by
  cases r <;> first | rfl | cases h

theorem notDisabling_admits : Admits Request.NotDisabling fun _ => True where
  passive := notDisabling_of_passive
  orders _ r _ h := by
    have h := Request.InSession.ofOrders h
    cases r with
    | disableEmergencyStop | syncRuntimeConfig => cases h
    | _ => rfl
  push _ _ _ := trivial
  reload _ _ _ := trivial

theorem calculateProfitSession_sends (session : Option SessionId) (orders : List TrackedOrder) :
    (calculateProfitSession session orders).Sends Request.NotDisabling :=
  (calculateProfitSession_confined notDisabling_of_passive session orders).sends

theorem saveBalanceState_sends (profit : Num) (orders : List TrackedOrder) :
    (saveBalanceState profit orders).Sends Request.NotDisabling :=
  (saveBalanceState_confined notDisabling_of_passive profit orders).sends

theorem endTradeSession_sends (deltaForSale : Num) :
    (endTradeSession deltaForSale).Sends Request.NotDisabling :=
  (endTradeSession_confined notDisabling_of_passive
    (fun _ _ => rfl) (fun _ => rfl) (fun _ => id) _).sends

theorem closeAndEnd_sends (bound : Nat) (deltaForSale : Num) :
    (closeAndEnd bound deltaForSale).Sends Request.NotDisabling :=
  (notDisabling_admits.closes.closeAndEnd bound deltaForSale
    (endTradeSession_confined notDisabling_of_passive
      (fun _ _ => rfl) (fun _ => rfl) (fun _ => id) _)).sends

theorem initTradeSession_sends : initTradeSession.Sends Request.NotDisabling := by
  refine .bind (sends_request rfl) fun active => ?_
  split
  next => exact .bind (sends_request rfl) fun _ => .pure _
  next session =>
    refine .bind (sends_request rfl) fun orders => ?_
    split
    next => exact .bind (sends_request rfl) fun _ => .bind (sends_request rfl) fun _ => .pure _
    next =>
      refine .bind ?_ fun completed => ?_
      · unfold checkingIfClosingOrderHasBeenCreated
        split
        next =>
          exact .bind (calculateProfitSession_sends _ _) fun _ =>
            .bind (saveBalanceState_sends _ _) fun _ => .bind (sends_request rfl) fun _ =>
              .bind (sends_request rfl) fun _ => .pure _
        next => exact .pure _
      · split
        next => exact .bind (sends_request rfl) fun _ => .pure _
        next => exact .pure _

/-! ## When the watch loop sends it -/

/-- Whether the orders have been cancelled, with which every attempt to close begins, since the
configuration was last read. -/
def Request.attempted (attempted : Bool) : Request → Bool
  | .getConfigById => false
  | .cancelAllOrders => true
  | _ => attempted

/-- The flag is written only before an attempt to close. Nothing else is known or asked. -/
def flagContract : Contract api Memory Bool String where
  rely s t := t.2 = s.2
  rely_refl _ := rfl
  rely_trans _ _ _ h h' := h'.trans h
  served r s _ t := t.2 = r.attempted s.2
  pending r s := r.writesFlag = true → s.2 = false
  ready _ := True
  pending_ready _ _ _ := trivial

theorem flag_rule {s : Memory × Bool} {r : Request} {Q : Except String r.Answer → _ → Prop}
    (hr : r.writesFlag = true → s.2 = false)
    (hQ : ∀ x t, t.2 = r.attempted s.2 → Q x t) : Safe flagContract Q (request r) s := by
  apply Safe.request
  intro s' hs'
  refine ⟨fun h => hs'.trans (hr h), fun x t ht t' ht' => ⟨trivial, hQ x t' ?_⟩⟩
  have ht : t.2 = r.attempted s'.2 := ht
  have ht' : t'.2 = t.2 := ht'
  have hs' : s'.2 = s.2 := hs'
  rw [ht', ht, hs']

theorem flag_of_sends {p : Prog α} (h : p.Sends Request.NotDisabling) (s : Memory × Bool) :
    Safe flagContract (fun _ _ => True) p s :=
  .of_sends (fun _ _ hr h => by cases hr.symm.trans h) (fun _ => trivial) (fun _ _ => trivial) h s

/-- The first half of a round reads the configuration and tries to close nothing. -/
theorem observeMarket_flag (w : WatchState) (s : Memory × Bool) :
    Safe flagContract (Ends (fun _ t => t.2 = false) fun _ => True) (observeMarket w) s := by
  have hrequest : ∀ {r : Request} (t : Memory × Bool), t.2 = false → r.writesFlag = false →
      r.attempted false = false →
      Safe flagContract (Ends (fun _ t => t.2 = false) fun _ => True) (request r) t := by
    intro r t ht hr hattempted
    refine flag_rule (fun h => by cases hr.symm.trans h) fun x u hu => ?_
    rw [ht, hattempted] at hu
    cases x with
    | ok => exact hu
    | error => trivial
  unfold observeMarket
  apply Safe.bind (Q := Ends (fun _ t => t.2 = false) fun _ => True)
  · unfold reloadConfig
    apply Safe.bind (Q := Ends (fun _ t => t.2 = false) fun _ => True)
    · refine flag_rule (fun h => by cases h) fun x t ht => ?_
      cases x with
      | ok => exact ht
      | error => trivial
    · intro config t ht
      cases config with
      | none => exact ht
      | some config => exact ht
    · exact fun _ _ _ => trivial
  swap
  · exact fun _ _ _ => trivial
  intro _ t ht
  apply Safe.bind (hrequest (r := .getBalance) t ht rfl rfl)
  swap
  · exact fun _ _ _ => trivial
  intro balance u hu
  rw [safe_get_bind]
  split
  next => trivial
  next entrySide _ =>
    apply Safe.bind (hrequest (r := .getTick) u hu rfl rfl)
    swap
    · exact fun _ _ _ => trivial
    intro lastPrice v hv
    rw [safe_get_bind]
    split
    split
    next => trivial
    next =>
      split
      next => trivial
      next => exact hv

theorem watchRound_flag (bound : Nat) (w : WatchState) (s : Memory × Bool) :
    Safe flagContract (fun _ _ => True) (watchRound bound w) s := by
  apply Safe.bind (observeMarket_flag w s)
  swap
  · exact fun _ _ _ => trivial
  intro market t ht
  rw [safe_get_bind]
  split
  next =>
    apply Safe.bind (flag_rule (Q := fun _ _ => True) (fun _ => ht) fun _ _ _ => trivial)
    · exact fun _ u _ => flag_of_sends (.bind (closeAndEnd_sends _ _) fun _ => .pure _) u
    · exact fun _ _ _ => trivial
  next =>
    refine flag_of_sends ?_ t
    split
    next => exact .throw _
    next =>
      split
      next => exact .bind (closeAndEnd_sends _ _) fun _ => .pure _
      next =>
        refine .bind (notDisabling_admits.watchingTakeProfitLogic bound _ _).sends
          fun takeProfit => ?_
        split
        next => exact .bind (endTradeSession_sends _) fun _ => .pure _
        next =>
          exact .bind (notDisabling_admits.buyBack _ _).sends fun _ =>
            .bind (sends_request rfl) fun _ => .pure _

theorem watchingProcess_flag (bound rounds : Nat) (w : WatchState) (s : Memory × Bool) :
    Safe flagContract (fun _ _ => True) (watchingProcess bound rounds w) s := by
  induction rounds generalizing w s with
  | zero => trivial
  | succ rounds ih =>
    rw [watchingProcess, safe_get_bind]
    split
    next => trivial
    next =>
      apply Safe.bind (watchRound_flag bound w s)
      · intro next t _
        cases next with
        | none => trivial
        | some w => exact ih w t
      · exact fun _ _ _ => trivial

theorem startTradingSession_flag (bound : Nat) (isOnlyBuy : Bool) (s : Memory × Bool) :
    Safe flagContract (fun _ _ => True) (startTradingSession bound isOnlyBuy) s := by
  apply Safe.bind (flag_of_sends (sends_request (r := .sleep 5000) rfl) s)
  swap
  · exact fun _ _ _ => trivial
  intro _ t _
  apply Safe.bind (flag_of_sends initTradeSession_sends t)
  swap
  · exact fun _ _ _ => trivial
  rintro ⟨typeSession, indexOperation⟩ u _
  dsimp only
  rw [safe_modify_bind]
  cases typeSession with
  | startNewTrade =>
    apply Safe.bind (flag_of_sends (notDisabling_admits.enteringPosition isOnlyBuy).sends _)
    · exact fun w v _ => watchingProcess_flag bound bound w v
    · exact fun _ _ _ => trivial
  | startOldTrade =>
    apply Safe.bind (flag_of_sends
      (sends_request (r := .getAllOrdersByIndexOperation (some indexOperation)) rfl) _)
    swap
    · exact fun _ _ _ => trivial
    intro rows v _
    split
    next => trivial
    next w _ =>
      rw [safe_modify_bind]
      exact watchingProcess_flag bound bound w _

/-- The trading task keeps the contract of the flag. -/
theorem worker_flag (bound : Nat) (config : ConfigType) {s : Memory × Bool} (hs : s.2 = false) :
    Safe flagContract (fun _ _ => True) (worker bound config) s := by
  have htrade : ∀ rounds s, Safe flagContract (fun _ _ => True)
      (tradeUntilStopping bound config.isOnlyBuy rounds) s := by
    intro rounds
    induction rounds with
    | zero => exact fun _ => trivial
    | succ rounds ih =>
      intro s
      rw [tradeUntilStopping, safe_get_bind]
      split
      next => trivial
      next =>
        apply Safe.bind (startTradingSession_flag bound config.isOnlyBuy s)
        · exact fun _ t _ => ih t
        · exact fun _ _ _ => trivial
  refine Safe.tryCatch (Q := fun _ _ => True) ?_ (fun _ _ _ => trivial) fun _ _ _ => trivial
  apply Safe.bind (flag_rule (r := .syncRuntimeConfig) (Q := fun _ _ => True)
    (fun _ => hs) fun _ _ _ => trivial)
  swap
  · exact fun _ _ _ => trivial
  intro _ t _
  have hinit : (initializeServices config).Sends Request.NotDisabling :=
    .bind (.modifies _) fun _ => .bind (sends_request rfl) fun _ => sends_request rfl
  apply Safe.bind (flag_of_sends hinit t)
  swap
  · exact fun _ _ _ => trivial
  intro _ u _
  apply Safe.bind (htrade bound u)
  · exact fun _ _ _ => trivial
  · exact fun _ _ _ => trivial

/-! ## Bots that share a configuration database -/

abbrev ConfigId := Nat

/-- The column `is_emergency_stop` of `trade_config`; `none` where there is no row. -/
abbrev Flags := ConfigId → Option Bool

/-- `enableEmergencyStop`. -/
def Flags.enable (flags : Flags) (id : ConfigId) : Flags := fun c =>
  if c = id then (flags c).map fun _ => true else flags c

/-- `disableEmergencyStop`: the rows are selected by the value of the flag. -/
def Flags.disable (flags : Flags) : Flags := fun c =>
  (flags c).map fun flag => if flag = true then false else flag

/-- An answered `syncRuntimeConfig`: the row of the configuration is updated, or inserted where
there is none. -/
def Flags.sync (flags : Flags) (id : ConfigId) (flag : Bool) : Flags :=
  Function.update flags id (some flag)

/-- The ghost of the trading task after the event. -/
def Bot.attempted (b : Bot) (e : Event) (attempted : Bool) : Bool :=
  match e, b.serves e with
  | .start _, _ => false
  | _, some (.main, r) => r.attempted attempted
  | _, _ => attempted

/-- The bots of some configurations. `attempted` is a ghost of each trading task. -/
structure Fleet where
  flags : Flags
  bots : ConfigId → Bot := fun _ => {}
  attempted : ConfigId → Bool := fun _ => false

inductive FleetEvent where
  | enableEmergencyStop (id : ConfigId)
  | bot (id : ConfigId) (e : Event)

/-- The event answers `disableEmergencyStop`. -/
def Bot.disables (b : Bot) (e : Event) : Bool :=
  match b.serves e, e with
  | some (_, .disableEmergencyStop), .serve _ .done => true
  | _, _ => false

/-- The flag that the event writes, if it answers `syncRuntimeConfig`: that of the configuration
with which the process has started. -/
def Bot.syncs (b : Bot) (e : Event) : Option Bool :=
  match b.process, b.serves e, e with
  | .running p, some (_, .syncRuntimeConfig), .serve _ .done => some p.memory.config.isEmergencyStop
  | _, _, _ => none

/-- What the event makes of the flags. -/
def Bot.writes (b : Bot) (id : ConfigId) (e : Event) (flags : Flags) : Flags :=
  if b.disables e then flags.disable
  else match b.syncs e with
    | some flag => flags.sync id flag
    | none => flags

/-- What a bot reads of its configuration is what the database holds. -/
def Bot.readsFlag (b : Bot) (flag : Option Bool) (e : Event) : Bool :=
  match b.serves e, e with
  | some (_, .getConfigById), .serve _ (.config config) => config.map (·.isEmergencyStop) == flag
  | _, _ => true

def Fleet.step (bound : Nat) (s : Fleet) : FleetEvent → Option Fleet
  | .enableEmergencyStop id => some { s with flags := s.flags.enable id }
  | .bot id e =>
    let b := s.bots id
    if b.readsFlag (s.flags id) e then
      (b.step bound e).map fun b' =>
        { flags := b.writes id e s.flags
          bots := Function.update s.bots id b'
          attempted := Function.update s.attempted id (b.attempted e (s.attempted id)) }
    else none

/-- The emergency stop of `c` was requested and is not any more. -/
def Cleared (s s' : Fleet) (c : ConfigId) : Prop := s.flags c = some true ∧ s'.flags c ≠ some true

/-- What the step clears is the request of the bot whose trading task takes the step, and whose
attempt to close has completed; the flags of the others stay as they are. -/
def ServesOwn (completed : Fleet → ConfigId → Prop) (s : Fleet) (e : FleetEvent)
    (s' : Fleet) : Prop :=
  (∀ c, Cleared s s' c → ∃ outcome, e = .bot c (.serve .main outcome) ∧ completed s c) ∧
    ∀ id e', e = .bot id e' → ∀ c, c ≠ id → s'.flags c = s.flags c

/-- No flag is disabled while one is set, and no process starts over the request of its
configuration. -/
def Keeps (s : Fleet) (e : FleetEvent) (_ : Fleet) : Prop :=
  ∀ id e', e = .bot id e' → ((s.bots id).disables e' = true → ∀ c, s.flags c ≠ some true) ∧
    ((s.bots id).syncs e' = some false → s.flags id ≠ some true)

/-! ## What a run keeps -/

/-- Every trading task keeps the contract of the flag. -/
def Fleet.Flagging (s : Fleet) : Prop :=
  ∀ id p, (s.bots id).process = .running p →
    Stable flagContract (fun _ _ => True) p.main (p.memory, s.attempted id)

/-- A process that has run a task still has the other. -/
theorem Running.settled_main {p p' : Running} {r : Prog ExitCode × Memory}
    (h : p.settled .stop r = .running p') : p'.main = p.main := by
  obtain ⟨code, _, hset⟩ | hset := p.settled_cases .stop r
  · cases hset.symm.trans h
  · cases hset.symm.trans h
    rfl

/-- A step of a bot keeps the contract of its trading task. -/
theorem Bot.flagging {b b' : Bot} {e : Event} {attempted : Bool} (hstep : b.step bound e = some b')
    (h : ∀ p, b.process = .running p →
      Stable flagContract (fun _ _ => True) p.main (p.memory, attempted)) (p' : Running)
    (hp' : b'.process = .running p') :
    Stable flagContract (fun _ _ => True) p'.main (p'.memory, b.attempted e attempted) := by
  cases Bot.step_cases hstep with
  | start =>
    cases hp'
    exact fun t ht => ⟨trivial, worker_flag bound _ ht⟩
  | @message w closePosition p =>
    have hp' : p.message bound w closePosition = .running p' := hp'
    unfold Running.message at hp'
    split at hp'
    next =>
      cases hp'
      exact h _ rfl
    next =>
      rw [Running.settled_main hp']
      exact (h p rfl).rely rfl
  | @serve r task w outcome x w' p k ht hserve =>
    cases hp'
    have hserves : Bot.serves ⟨w, .running p⟩ (.serve task outcome) = some (task, r) :=
      Bot.serves_serve rfl ht outcome
    have hmain := h p rfl
    cases task with
    | main =>
      have ht : p.main = .await r k := Option.some.inj ht
      rw [ht] at hmain
      refine hmain.served (t := (_, Bot.attempted _ _ _)) ?_
      simp only [Bot.attempted, hserves]
      rfl
    | stop =>
      simp only [Bot.attempted, hserves]
      exact hmain
  | @resume task program w p ht =>
    have hmain := h p rfl
    cases task with
    | main =>
      obtain rfl : p.main = program := Option.some.inj ht
      obtain ⟨code, _, hset⟩ | hset := p.settled_cases .main (p.main.settle p.memory)
      · cases hset.symm.trans hp'
      · cases hset.symm.trans hp'
        exact hmain.safe.settle_stable (fun _ _ => trivial) fun _ _ _ _ => trivial
    | stop =>
      have hp' : p.settled .stop (program.settle p.memory) = .running p' := hp'
      rw [Running.settled_main hp']
      exact hmain.rely rfl
  | @exchange e x process w hx => exact h p' hp'
  | kill => cases hp'

theorem Fleet.Flagging.step {s s' : Fleet} (h : s.Flagging) (hstep : s.step bound e = some s') :
    s'.Flagging := by
  cases e with
  | enableEmergencyStop id => cases hstep; exact h
  | bot id e =>
    simp only [Fleet.step] at hstep
    split at hstep
    next =>
      obtain ⟨b', hb, hstep⟩ := Option.map_eq_some_iff.mp hstep
      cases hstep
      intro c p hp
      by_cases hc : c = id
      · subst hc
        simp only [Function.update_self] at hp ⊢
        exact Bot.flagging hb (h c) p hp
      · simp only [Function.update_of_ne hc] at hp ⊢
        exact h c p hp
    next => cases hstep

/-- A trading task that writes the flag has not tried to close since it read its configuration. -/
theorem Fleet.Flagging.writes {s : Fleet} {id : ConfigId} {r : Request} (h : s.Flagging)
    (hserves : (s.bots id).serves (.serve .main outcome) = some (.main, r))
    (hr : r.writesFlag = true) :
    s.attempted id = false := by
  simp only [Bot.serves] at hserves
  split at hserves
  next p hp =>
    obtain ⟨r', hpending, hserves⟩ := Option.map_eq_some_iff.mp hserves
    cases hserves
    obtain ⟨k, hk⟩ := Program.eq_await (hpending : p.main.pending = some _)
    have hmain := h id p hp
    rw [hk] at hmain
    exact hmain.pending hr
  next => cases hserves

theorem Bot.serves_task {b : Bot} (h : b.serves (.serve task outcome) = some (task', r)) :
    task' = task := by
  simp only [serves] at h
  split at h
  next =>
    obtain ⟨_, -, h⟩ := Option.map_eq_some_iff.mp h
    cases h
    rfl
  next => cases h

theorem Bot.disables_serves {b : Bot} {e : Event} (h : b.disables e = true) :
    ∃ task, b.serves e = some (task, .disableEmergencyStop) := by
  unfold disables at h
  split at h
  next task _ hserves => exact ⟨task, hserves⟩
  next => cases h

theorem Bot.syncs_serves {b : Bot} {e : Event} {flag : Bool} (h : b.syncs e = some flag) :
    ∃ task, b.serves e = some (task, .syncRuntimeConfig) := by
  unfold syncs at h
  split at h
  next task _ _ hserves => exact ⟨task, hserves⟩
  next => cases h

theorem Bot.writes_of_disables {b : Bot} {e : Event} (h : b.disables e = true) (id : ConfigId)
    (flags : Flags) :
    b.writes id e flags = flags.disable := if_pos h

theorem Bot.writes_of_syncs {b : Bot} {e : Event} {flag : Bool} (h : b.syncs e = some flag)
    (id : ConfigId) (flags : Flags) : b.writes id e flags = flags.sync id flag := by
  have hdisables : ¬ b.disables e = true := fun hdisables => by
    obtain ⟨_, hserves⟩ := syncs_serves h
    obtain ⟨_, hserves'⟩ := disables_serves hdisables
    cases hserves.symm.trans hserves'
  rw [writes, if_neg hdisables, h]

/-- How a step changes the flags. -/
theorem Fleet.step_flags {s s' : Fleet} (h : s.step bound e = some s') :
    (∃ id, e = .enableEmergencyStop id ∧ s'.flags = s.flags.enable id) ∨
      ∃ id e', e = .bot id e' ∧
        s'.flags = (s.bots id).writes id e' s.flags := by
  cases e with
  | enableEmergencyStop id =>
    cases h
    exact .inl ⟨id, rfl, rfl⟩
  | bot id e =>
    simp only [Fleet.step] at h
    split at h
    next =>
      obtain ⟨b', _, h⟩ := Option.map_eq_some_iff.mp h
      cases h
      exact .inr ⟨id, e, rfl, rfl⟩
    next => cases h

theorem Flags.enable_true {flags : Flags} (h : flags c = some true) (id : ConfigId) :
    flags.enable id c = some true := by
  rw [Flags.enable]
  split
  next => rw [h]; rfl
  next => exact h

theorem Flags.disable_true {flags : Flags} (h : flags c = some true) :
    flags.disable c = some false := by
  rw [Flags.disable, h]
  rfl

/-- Where no flag is set, disabling changes nothing. -/
theorem Flags.disable_of_unset {flags : Flags} (h : flags c ≠ some true) :
    flags.disable c = flags c := by
  rw [Flags.disable]
  cases hc : flags c with
  | none => rfl
  | some flag =>
    cases flag with
    | true => exact absurd hc h
    | false => rfl

/-- Where no request is written over, the flags of requests stay. -/
theorem Keeps.writes {s s' : Fleet} {id : ConfigId} {e' : Event} (hk : Keeps s (.bot id e') s') :
    (∀ c, c ≠ id → (s.bots id).writes id e' s.flags c = s.flags c) ∧
      (s.flags id = some true → (s.bots id).writes id e' s.flags id = some true) := by
  obtain ⟨hdisables, hsyncs⟩ := hk id e' rfl
  unfold Bot.writes
  split
  next hd =>
    have hsame (c : ConfigId) : s.flags.disable c = s.flags c :=
      Flags.disable_of_unset (hdisables hd c)
    exact ⟨fun c _ => hsame c, fun hid => (hsame id).trans hid⟩
  next =>
    cases hsync : (s.bots id).syncs e' with
    | none => exact ⟨fun _ _ => rfl, fun hid => hid⟩
    | some flag =>
      refine ⟨fun c hc => Function.update_of_ne hc .., fun hid => ?_⟩
      cases flag with
      | true => exact Function.update_self ..
      | false => exact absurd hid (hsyncs hsync)

theorem Keeps.servesOwn {s s' : Fleet} (hk : Keeps s e s') (h : s.step bound e = some s')
    (completed : Fleet → ConfigId → Prop) : ServesOwn completed s e s' := by
  obtain ⟨id, rfl, hflags⟩ | ⟨id, e', rfl, hflags⟩ := Fleet.step_flags h
  · refine ⟨fun c ⟨hc, hc'⟩ => ?_, fun _ _ he => by cases he⟩
    rw [hflags] at hc'
    exact absurd (Flags.enable_true hc id) hc'
  · obtain ⟨hothers, hown⟩ := hk.writes
    refine ⟨fun c ⟨hc, hc'⟩ => ?_, fun id' e'' he c hne => ?_⟩
    · rw [hflags] at hc'
      by_cases hid : c = id
      · subst hid
        exact absurd (hown hc) hc'
      · exact absurd ((hothers c hid).trans hc) hc'
    · cases he
      rw [hflags]
      exact hothers c hne

theorem ServesOwn.keeps {s s' : Fleet} {completed : Fleet → ConfigId → Prop}
    (hs : ServesOwn completed s e s') (h : s.step bound e = some s') (hf : s.Flagging)
    (hcompleted : ∀ s c, completed s c → s.attempted c = true) : Keeps s e s' := by
  rintro id e' rfl
  obtain ⟨_, h, _⟩ | ⟨id', e'', h, hflags⟩ := Fleet.step_flags h
  · cases h
  cases h
  -- a request is cleared only after an attempt to close, which no task makes before it writes the
  -- flag
  have hnot {c : ConfigId} {r : Request} (hcleared : Cleared s s' c)
      (hserves : ∃ task, (s.bots id).serves e' = some (task, r)) (hr : r.writesFlag = true) :
        False := by
    obtain ⟨outcome, he, hdone⟩ := hs.1 c hcleared
    cases he
    obtain ⟨task, hserves⟩ := hserves
    obtain rfl := Bot.serves_task hserves
    cases (hcompleted s id hdone).symm.trans (hf.writes hserves hr)
  refine ⟨fun hd c hc => hnot (c := c) ⟨hc, ?_⟩ (Bot.disables_serves hd) rfl,
    fun hsync hid => hnot (c := id) ⟨hid, ?_⟩ (Bot.syncs_serves hsync) rfl⟩
  · rw [hflags, Bot.writes_of_disables hd, Flags.disable_true hc]
    exact nofun
  · rw [hflags, Bot.writes_of_syncs hsync, Flags.sync, Function.update_self]
    exact nofun

/-- A run clears requests only by serving them if and only if it never disables the flag while one
is set: whatever counts as a completed attempt to close, no request that is cleared has been
served. -/
theorem requests_served_iff (bound : Nat) (completed : Fleet → ConfigId → Prop)
    (hcompleted : ∀ s c, completed s c → s.attempted c = true) (flags : Flags)
    (es : List FleetEvent) (s : Fleet) :
    Run (Meeting (Stepping (Fleet.step bound)) (ServesOwn completed)) { flags } es s ↔
      Run (Meeting (Stepping (Fleet.step bound)) Keeps) { flags } es s := by
  have hinit : Fleet.Flagging { flags } := fun _ _ hp => by cases hp
  constructor
  · intro h
    refine h.mono_invariant (I := Fleet.Flagging) (fun s e s' hs hstep => ?_) hinit
    exact ⟨⟨hstep.1, hstep.2.keeps hstep.1 hs hcompleted⟩, hs.step hstep.1⟩
  · exact fun h => h.mono fun s e s' hstep => ⟨hstep.1, hstep.2.servesOwn hstep.1 completed⟩

/-- Two configurations without a request. -/
def twoConfigs : Flags := fun c => if c < 2 then some false else none

/-- The event disables no flag, and no process starts over the request of its configuration. -/
def Fleet.disablesNothing (s : Fleet) : FleetEvent → Bool
  | .enableEmergencyStop _ => true
  | .bot id e =>
    !(s.bots id).disables e && ((s.bots id).syncs e != some false || s.flags id != some true)

theorem Keeps.of_disablesNothing {s s' : Fleet} (h : s.disablesNothing e = true) :
    Keeps s e s' := by
  rintro id e' rfl
  simp only [Fleet.disablesNothing, Bool.and_eq_true, Bool.not_eq_true', Bool.or_eq_true,
    bne_iff_ne] at h
  refine ⟨fun hd => ?_, fun hsync => h.2.resolve_left fun hne => hne hsync⟩
  cases h.1.symm.trans hd

/-- The stop of the second is requested; the bot of the first starts, and then its stop is requested
too. -/
def requestedOnce : List FleetEvent :=
  [.enableEmergencyStop 1, .bot 0 (.start oneTrade), .bot 0 (.resume .main),
    .bot 0 (.serve .main .done), .enableEmergencyStop 0, .bot 0 (.resume .main)]

theorem requestedOnce_keeps :
    (execWhere (Fleet.step 4) (fun s e => s.disablesNothing e = true) { flags := twoConfigs }
      requestedOnce).isSome := by decide +kernel

theorem requests_served_iff_requestedOnce :
    Run (Meeting (Stepping (Fleet.step 4)) (ServesOwn fun s c => s.attempted c = true))
      { flags := twoConfigs } requestedOnce
      ((execWhere (Fleet.step 4) (fun s e => s.disablesNothing e = true) { flags := twoConfigs }
        requestedOnce).get requestedOnce_keeps) := by
  refine (requests_served_iff 4 _ (fun _ _ h => h) twoConfigs _ _).mpr
    ((Run.of_execWhere_get requestedOnce_keeps).mono fun s e s' hstep => ?_)
  exact ⟨hstep.1, .of_disablesNothing hstep.2⟩

/-- The bot of the first configuration opens a position and watches it; both stops are requested,
and the loop reads its request. -/
def requestedBoth : List FleetEvent :=
  ([Event.start oneTrade, .resume .main] ++ roundTrips .main
      [.done, .done, .done, .done, .done, .done, .tick (some 100),
        .candle (some (some 50, some 200)), .balances {}, .accepted 1 { price := some 100 },
          .done]).map (FleetEvent.bot 0) ++
    [.enableEmergencyStop 0, .enableEmergencyStop 1] ++
    (roundTrips .main [.config (some { oneTrade with isEmergencyStop := true }), .balances {},
      .tick (some 100)]).map (FleetEvent.bot 0)

theorem requestedBoth_enabled :
    (exec (Fleet.step 4) { flags := twoConfigs } requestedBoth).isSome := by decide +kernel

/-- The update of the first bot. -/
def disabledFirst : List FleetEvent := [.bot 0 (.serve .main .done)]

theorem disabledFirst_enabled : (exec (Fleet.step 4)
    ((exec (Fleet.step 4) { flags := twoConfigs } requestedBoth).get requestedBoth_enabled)
    disabledFirst).isSome := by decide +kernel

/-- Before the first bot has tried to close, both requests are gone. -/
theorem request_of_other_config_lost :
    ∃ s s', Run (Stepping (Fleet.step 4)) { flags := twoConfigs } requestedBoth s ∧
      Run (Stepping (Fleet.step 4)) s disabledFirst s' ∧ s.attempted 0 = false ∧
      s.flags 0 = some true ∧ s.flags 1 = some true ∧ s'.flags 0 = some false ∧
      s'.flags 1 = some false ∧
      ¬ ServesOwn (fun s c => s.attempted c = true) s (.bot 0 (.serve .main .done)) s' := by
  have hflag : ((exec (Fleet.step 4) { flags := twoConfigs } requestedBoth).get
      requestedBoth_enabled).flags 1 = some true := by decide +kernel
  have hflag' : ((exec (Fleet.step 4) _ disabledFirst).get disabledFirst_enabled).flags 1 =
      some false := by decide +kernel
  refine ⟨_, _, Run.of_exec_get requestedBoth_enabled, Run.of_exec_get disabledFirst_enabled,
    by decide +kernel, by decide +kernel, hflag, by decide +kernel, hflag', fun h => ?_⟩
  have hother := h.2 0 _ rfl 1 (by decide)
  rw [hflag, hflag'] at hother
  cases hother

end Tonatiuh.Trading
