import Tonatiuh.Transition.Locks
import Tonatiuh.Supervisor.ChildSteps
import Tonatiuh.Supervisor.StoppedBots
import Tonatiuh.Trading.Stopping

/-! The outcome of EMERGENCY_STOP.

`stopBot` takes exit code 0 for a closed position, and so it does the absence of a running child:
after a crash, while the restart timer runs, the position is as it was. -/

namespace Tonatiuh.Supervisor

open Async Transition

def BotCommand.IsEmergencyStop (_ : System) (c : BotCommand) : Prop := c.command = .emergencyStop

instance (s : System) : DecidablePred (BotCommand.IsEmergencyStop s) := fun c => by
  unfold BotCommand.IsEmergencyStop
  infer_instance

/-- The process has ended with code 0 because of the stop message, in the active session. -/
def Child.HasStopped (c : Child) (w : Trading.World) : Prop :=
  ∀ ending ∈ c.process.ending, ending.1 = 0 →
    ending.2.1 = w.activeSession ∧ ending.2.2.isSome = true

instance (c : Child) (w : Trading.World) : Decidable (c.HasStopped w) := by
  unfold Child.HasStopped
  infer_instance

/-- An EMERGENCY_STOP stops its bot alone. It finds a running child that ends because of its
message, in the active session, or a position that is closed; and the steps of the trading processes
are undisturbed. -/
def System.ClosesFirst (s : System) (e : Event) : Prop :=
  s.StopsAlone BotCommand.IsEmergencyStop e ∧
    match e with
    | .serve i n (.ok _) =>
      match s.pending i n with
      | some (.takeChild botId) => ∀ c ∈ s.handled i n, c.command = .emergencyStop →
          s.runningChild i botId = none → (s.accounts botId).HasClosed
      | some (.awaitExit child) => ∀ c ∈ s.handled i n, c.command = .emergencyStop →
          ∀ p ∈ s.children[child]?,
            p.HasStopped (s.accounts c.botId) ∨ (s.accounts c.botId).HasClosed
      | _ => True
    | .child n e => ∀ c ∈ s.children[n]?,
        Trading.Bot.Undisturbed ⟨s.accounts c.botId, c.process⟩ e
    | .receive n => ∀ c ∈ s.children[n]?, ∀ closePosition ∈ c.inbox.head?,
        Trading.Bot.Undisturbed ⟨s.accounts c.botId, c.process⟩ (.message closePosition)
    | .exchange botId e => ∀ c ∈ s.children, c.botId = botId →
        Trading.Bot.Undisturbed ⟨s.accounts botId, c.process⟩ (.exchange e)
    | _ => True

instance (s : System) (e : Event) : Decidable (s.ClosesFirst e) := by
  unfold System.ClosesFirst
  refine @instDecidableAnd _ _ _ ?_
  induction e using Event.casesOn with
  | serve i n outcome =>
    induction outcome using Outcome.casesOn with
    | ok =>
      dsimp only
      generalize s.pending i n = pending
      induction pending using Option.casesOn with
      | none => exact instDecidableTrue
      | some request => induction request using Request.casesOn <;> dsimp only <;> infer_instance
    | _ => exact instDecidableTrue
  | _ => dsimp only; infer_instance

/-! ## The steps of a bot -/

/-- The event is this step of the bot of the child. -/
def Moves (c : Child) (n : ChildId) (e : Event) (e' : Trading.Event) : Prop :=
  Drives c n e e' ∨ ∃ x, e = .exchange c.botId x ∧ e' = .exchange x

theorem System.ClosesFirst.undisturbed {s : System} (h : s.ClosesFirst e)
    (hc : s.children[n]? = some c) (hm : Moves c n e e') :
    Trading.Bot.Undisturbed ⟨s.accounts c.botId, c.process⟩ e' := by
  have h := h.2
  obtain hd | ⟨x, rfl, rfl⟩ := hm
  · cases hd with
    | child => exact h c hc
    | receive hi => exact h c hc _ (by rw [hi]; rfl)
  · exact h c (List.mem_of_getElem? hc) rfl

/-- Only a process that runs takes a step of its own. -/
theorem Drives.isAlive {c : Child} {w : Trading.World} (hd : Drives c n e e')
    (h : Trading.Bot.step bound ⟨w, c.process⟩ e' = some b) : c.isAlive = true := by
  rw [Child.isAlive]
  generalize c.process = process at h
  cases Trading.Bot.step_cases h with
  | start => cases hd; contradiction
  | exchange => cases hd; contradiction
  | message | serve | resume | kill => rfl

/-- What a step does to a bot of which no other child runs: nothing, or it is a step of the bot. -/
theorem AccountStep.bot {s s' : System} (h : AccountStep bound s s' e)
    (hc : s.children[n]? = some c) (honly : s.OnlyChild c.botId (some n)) :
    ∃ c', s'.children[n]? = some c' ∧ c'.botId = c.botId ∧
      ((s'.accounts c.botId = s.accounts c.botId ∧ c'.process = c.process) ∨
        ∃ e', Moves c n e e' ∧ Trading.Bot.step bound ⟨s.accounts c.botId, c.process⟩ e' =
          some ⟨s'.accounts c.botId, c'.process⟩) := by
  cases h with
  | kept ha hkept =>
    obtain ⟨c', hc', hlike⟩ := hkept.like n c hc
    exact ⟨c', hc', hlike.botId, .inl ⟨by rw [ha], hlike.process⟩⟩
  | sent _ _ ha hchildren =>
    refine ⟨_, by rw [hchildren, List.getElem?_modify, hc]; rfl, ?_⟩
    split
    next => exact ⟨rfl, .inl ⟨by rw [ha], rfl⟩⟩
    next => exact ⟨rfl, .inl ⟨by rw [ha], rfl⟩⟩
  | forked _ _ ha hchildren =>
    refine ⟨c, ?_, rfl, .inl ⟨by rw [ha], rfl⟩⟩
    rw [hchildren, List.getElem?_append_left (List.getElem?_eq_some_iff.mp hc).1, hc]
  | @child _ n₀ c₀ e' b f hc₀ hd hb ha hchildren hbot _ hprocess =>
    refine ⟨_, by rw [hchildren, List.getElem?_modify, hc]; rfl, ?_⟩
    split
    next hn =>
      subst hn
      cases hc.symm.trans hc₀
      refine ⟨hbot, .inr ⟨e', .inl hd, ?_⟩⟩
      rw [ha, Function.update_self, hprocess]
      exact hb
    next hn =>
      -- the child that has taken a step is one of another bot
      refine ⟨rfl, .inl ⟨?_, rfl⟩⟩
      rw [ha, Function.update_of_ne]
      intro heq
      exact hn (Option.some.inj
        (System.onlyChild_iff.mp honly n₀ c₀ hc₀ heq.symm (hd.isAlive hb))).symm
  | @exchange botId x exchange hx ha hchildren =>
    refine ⟨c, hchildren ▸ hc, rfl, ?_⟩
    by_cases hb : c.botId = botId
    · subst hb
      refine .inr ⟨.exchange x, .inr ⟨x, rfl, rfl⟩, ?_⟩
      rw [ha, Function.update_self, Trading.Bot.step, hx]
      rfl
    · rw [ha, Function.update_of_ne hb]
      exact .inl ⟨rfl, rfl⟩

/-- While no child of the bot runs, its account moves by itself. -/
theorem AccountStep.account {s s' : System} (h : AccountStep bound s s' e)
    (honly : s.OnlyChild botId none) :
    (s'.accounts botId).sessions = (s.accounts botId).sessions ∧
      Trading.Exchange.Evolves False (s.accounts botId).exchange (s'.accounts botId).exchange := by
  cases h with
  | kept ha | sent _ _ ha | forked _ _ ha => rw [ha]; exact ⟨rfl, .refl _⟩
  | @child _ n₀ c₀ e' b f hc₀ hd hb ha =>
    rw [ha, Function.update_of_ne]
    · exact ⟨rfl, .refl _⟩
    · intro heq
      cases System.onlyChild_iff.mp honly n₀ c₀ hc₀ heq.symm (hd.isAlive hb)
  | @exchange botId' x exchange hx ha =>
    rw [ha]
    by_cases hb : botId = botId'
    · rw [hb, Function.update_self]
      exact ⟨rfl, .moved hx⟩
    · rw [Function.update_of_ne hb]
      exact ⟨rfl, .refl _⟩

/-- The accounts and the processes of every run. -/
structure System.Trades (s : System) : Prop where
  nonneg : ∀ botId, (s.accounts botId).exchange.Nonneg
  ends : ∀ c ∈ s.children, c.process.EndsByStop

theorem System.Trades.step {s s' : System} (h : s.Trades) (hstep : s.step bound e = some s') :
    s'.Trades := by
  cases System.account_step hstep with
  | kept ha hkept =>
    refine ⟨fun botId => ha ▸ h.nonneg botId, fun c' hc' => ?_⟩
    obtain ⟨n, hn⟩ := List.getElem?_of_mem hc'
    obtain ⟨c, hc⟩ : ∃ c, s.children[n]? = some c :=
      ⟨_, List.getElem?_eq_getElem (hkept.length ▸ (List.getElem?_eq_some_iff.mp hn).1)⟩
    obtain ⟨c'', hc'', hlike⟩ := hkept.like n c hc
    cases hn.symm.trans hc''
    exact hlike.process ▸ h.ends c (List.mem_of_getElem? hc)
  | sent _ _ ha hchildren =>
    refine ⟨fun botId => ha ▸ h.nonneg botId, fun c' hc' => ?_⟩
    obtain ⟨n, hn⟩ := List.getElem?_of_mem hc'
    rw [hchildren] at hn
    obtain ⟨_, c, hc, rfl⟩ | ⟨_, hn⟩ := getElem?_modify_cases hn
    · exact h.ends c (List.mem_of_getElem? hc)
    · exact h.ends c' (List.mem_of_getElem? hn)
  | forked _ _ ha hchildren _ _ hforked =>
    refine ⟨fun botId => ha ▸ h.nonneg botId, fun c' hc' => ?_⟩
    obtain hc' | hc' := List.mem_append.mp (hchildren ▸ hc')
    · exact h.ends c' hc'
    · cases List.mem_singleton.mp hc'
      obtain ⟨config, hprocess⟩ := hforked.process
      rw [hprocess]
      exact Trading.worker_neverZero bound config
  | @child _ n c e' b f hc hd hb ha hchildren _ _ hprocess =>
    refine ⟨fun botId => ?_, fun c' hc' => ?_⟩
    · rw [ha]
      by_cases hbot : botId = c.botId
      · rw [hbot, Function.update_self]
        exact Trading.Bot.nonneg_step (h.nonneg c.botId) hb
      · rw [Function.update_of_ne hbot]
        exact h.nonneg botId
    · obtain ⟨n', hn⟩ := List.getElem?_of_mem hc'
      rw [hchildren] at hn
      obtain ⟨rfl, c₀, hc₀, rfl⟩ | ⟨_, hn⟩ := getElem?_modify_cases hn
      · cases hc.symm.trans hc₀
        rw [hprocess]
        exact Trading.Bot.endsByStop_step (h.ends c (List.mem_of_getElem? hc)) hb
      · exact h.ends c' (List.mem_of_getElem? hn)
  | @exchange botId' x exchange hx ha hchildren =>
    refine ⟨fun botId => ?_, fun c' hc' => h.ends c' (hchildren ▸ hc')⟩
    rw [ha]
    by_cases hbot : botId = botId'
    · rw [hbot, Function.update_self]
      exact (h.nonneg botId').evolves (.moved hx)
    · rw [Function.update_of_ne hbot]
      exact h.nonneg botId

/-! ## Emergency stops -/

/-- How far the stop of the bot has come: the child that may still run stops cleanly, or the
position of the active session is closed. -/
def System.Closes (s : System) (botId : BotId) : Option ChildId → Prop
  | some n => ∃ c, s.children[n]? = some c ∧ c.botId = botId ∧
      Trading.Bot.StopsCleanly ⟨s.accounts botId, c.process⟩
  | none => (s.accounts botId).HasClosed

theorem System.Closes.step {s s' : System} (h : s.Closes botId child) (hs : s.Stops botId child)
    (hstep : s.step bound e = some s') (hk : s.ClosesFirst e) : s'.Closes botId child := by
  have haccount := System.account_step hstep
  cases child with
  | none =>
    obtain ⟨hsessions, hev⟩ := haccount.account hs.only
    exact Trading.World.HasClosed.evolves h hsessions hev
  | some n =>
    obtain ⟨c, hc, rfl, hclean⟩ := h
    obtain ⟨c', hc', hb, ⟨ha, hprocess⟩ | ⟨e', hm, hbot⟩⟩ := haccount.bot hc hs.only
    · refine ⟨c', hc', hb, ?_⟩
      rw [ha, hprocess]
      exact hclean
    · exact ⟨c', hc', hb, hclean.step hbot (hk.undisturbed hc hm)⟩

/-- Every EMERGENCY_STOP that has taken the child out of the map closes the position. -/
def System.EmergencyStops (s : System) : Prop :=
  ∀ i, (s.instances i).life = .up → ∀ t ∈ (s.instances i).tasks, ∀ c child,
    t.progress.command = some c → c.command = .emergencyStop → t.progress.taken = some child →
      s.Closes c.botId (t.progress.remaining child)

/-- A child that is in the map was not told to close its position, so that it will stop cleanly. -/
theorem System.Mapped.closes {s : System} (h : s.Mapped) (ht : s.Trades)
    (hrunning : s.runningChild i botId = some n) : s.Closes botId (some n) := by
  have hentry := (Option.filter_eq_some_iff.mp hrunning).1
  obtain ⟨c, hc, hb, ho⟩ := h.entries i botId n hentry
  have huntold : c.process.emergency = none := by
    by_contra he
    exact h.told n c hc (.inr (Option.isSome_iff_ne_none.mpr he)) botId (ho ▸ hentry)
  exact ⟨c, hc, hb, ht.nonneg botId,
    (ht.ends c (List.mem_of_getElem? hc)).stopsCleanly huntold _⟩

/-- The child has ended with code 0. -/
theorem System.Closes.exited {s : System} (h : s.Closes botId (some n))
    (hc : s.children[n]? = some c)
    (hcode : c.code = some 0) (hstopped : c.HasStopped (s.accounts botId)) :
    s.Closes botId none := by
  obtain ⟨c', hc', rfl, _, hclean⟩ := h
  cases hc.symm.trans hc'
  rw [Child.code] at hcode
  split at hcode
  next code session emergency hprocess =>
    cases hcode
    rw [Child.HasStopped, hprocess] at hstopped
    rw [hprocess] at hclean
    obtain ⟨hsession, he⟩ := hstopped _ rfl rfl
    obtain ⟨x₀, hx₀⟩ := Option.isSome_iff_exists.mp he
    have hclosed := hclean rfl x₀ hx₀
    rw [show session = _ from hsession] at hclosed
    exact hclosed.hasClosed
  next => cases hcode

theorem System.EmergencyStops.served {s u : System} {t : Task} {r : Request}
    {x : Except String r.Answer} {g : Progress} (h : s.EmergencyStops) (hr : s.Regular)
    (hm : s.Mapped) (htrades : s.Trades) (hup : (s.instances i).life = .up)
    (hn : (s.instances i).tasks[n]? = some t) (ht : t.pending = some r)
    (hserve : s.serve bound i r outcome = some (x, u)) (hk : s.ClosesFirst (.serve i n outcome))
    (hg : g = t.progress.after r x) (hc : g.command = some c) (hkind : c.command = .emergencyStop)
    (htaken : g.taken = some child) : s.Closes c.botId (g.remaining child) := by
  have hmem := List.mem_of_getElem? hn
  obtain ⟨hcommand, htaking⟩ := taking_served (hr.follows i t hmem) ht hserve hg hc htaken
  have hpending : s.pending i n = some r := by
    rw [System.pending, hn]
    exact ht
  have hhandled : s.handled i n = some c := by
    rw [System.handled, hn]
    exact hcommand
  have hk := hk.2
  generalize g.remaining child = remaining at htaking ⊢
  cases htaking with
  | kept htaken => exact h i hup t hmem c child hcommand hkind htaken
  | taken ho hr hchild =>
    subst ho hr
    cases child with
    | some n => exact hm.closes htrades hchild.symm
    | none =>
      dsimp only at hk
      rw [hpending] at hk
      exact hk c hhandled hkind hchild.symm
  | exited ho hr hchild htaken hexited hp hcode =>
    subst ho hr hchild
    have hcloses := h i hup t hmem c _ hcommand hkind htaken
    rw [Progress.remaining, hexited] at hcloses
    dsimp only at hk
    rw [hpending] at hk
    obtain hstopped | hclosed := hk c hhandled hkind _ hp
    · exact hcloses.exited hp hcode hstopped
    · exact hclosed

theorem System.EmergencyStops.step {s s' : System} (h : s.EmergencyStops) (hr : s.Regular)
    (hm : s.Mapped) (htrades : s.Trades) (ha : s.Alone BotCommand.IsEmergencyStop)
    (hstep : s.step bound e = some s') (hk : s.ClosesFirst e) : s'.EmergencyStops := by
  intro i hup t hmem c child hc hkind htaken
  cases System.task_step hstep hmem with
  | kept hl hmem =>
    have hup := hl.symm.trans hup
    exact (h i hup t hmem c child hc hkind htaken).step (ha i hup t hmem c child hc hkind htaken)
      hstep hk
  | spawned => cases hc
  | @served n r k history outcome x u hup hn hserve =>
    exact (h.served hr hm htrades hup hn rfl hserve hk rfl hc hkind htaken).step
      (ha.served hr hup hn rfl hserve hk.1 rfl hc hkind htaken) hstep hk

/-- The step marks this EMERGENCY_STOP of the bot as succeeded. -/
def System.MarksSucceeded (s s' : System) (id : CommandId) (botId : BotId) : Prop :=
  ∃ c ∈ s.commands[id]?, ∃ c' ∈ s'.commands[id]?, c.botId = botId ∧ c.command = .emergencyStop ∧
    c.status ≠ .succeeded ∧ c'.status = .succeeded

instance (s s' : System) (id : CommandId) (botId : BotId) :
    Decidable (s.MarksSucceeded s' id botId) := by
  unfold System.MarksSucceeded
  infer_instance

/-- An EMERGENCY_STOP that is marked as succeeded has stopped its bot, and closed the position. -/
theorem System.EmergencyStops.marked {s s' : System} {id : CommandId} (h : s.EmergencyStops)
    (hr : s.Regular) (ha : s.Alone BotCommand.IsEmergencyStop) (hstep : s.step bound e = some s')
    (hm : s.MarksSucceeded s' id botId) : s.Stops botId none ∧ s.Closes botId none := by
  obtain ⟨c, hc, c', hc', rfl, hkind, hs, hs'⟩ := hm
  obtain ⟨c₁, hc₁, hrow⟩ := System.row_kept hstep hc
  cases Option.some.inj (Eq.trans (Eq.symm hc') hc₁)
  obtain hs₁ | ⟨i, n, outcome, t, rfl, hup, hmem, hpending, hhandled, hdone⟩ :=
    hrow.succeeded hr hc hs'
  · exact absurd hs₁ hs
  rw [hkind] at hhandled hdone
  refine ⟨.of_clean hdone fun child => ha i hup t hmem _ child hhandled rfl, ?_⟩
  obtain htaken | ⟨child, htaken, hexited⟩ := hdone
  · have hcloses := h i hup t hmem _ none hhandled rfl htaken
    rw [Progress.remaining, ite_self] at hcloses
    exact hcloses
  · have hcloses := h i hup t hmem _ (some child) hhandled rfl htaken
    rw [Progress.remaining, hexited] at hcloses
    exact hcloses

/-- What holds of every run whose steps close first. -/
structure System.Closing (s : System) : Prop where
  regular : s.Regular
  mapped : s.Mapped
  trades : s.Trades
  alone : s.Alone BotCommand.IsEmergencyStop
  stops : s.EmergencyStops

theorem System.Fresh.closing {s : System} (h : s.Fresh)
    (hnonneg : ∀ botId, (s.accounts botId).exchange.Nonneg) : s.Closing := by
  have hnone (i) (hup : (s.instances i).life = .up) : False := by
    rw [h.instances] at hup
    cases hup
  exact {
    regular := h.regular
    mapped := h.mapped
    trades := ⟨hnonneg, fun c hc => by rw [h.children] at hc; cases hc⟩
    alone i hup := (hnone i hup).elim
    stops i hup := (hnone i hup).elim }

theorem System.Closing.step {s s' : System} (h : s.Closing) (hstep : s.step bound e = some s')
    (hk : s.ClosesFirst e) : s'.Closing where
  regular := h.regular.step hstep
  mapped := h.mapped.step h.regular.follows hstep
  trades := h.trades.step hstep
  alone := h.alone.step h.regular (fun _ hc => hc) hstep hk.1
  stops := h.stops.step h.regular h.mapped h.trades h.alone hstep hk

/-- The position is closed when an EMERGENCY_STOP is marked as succeeded. -/
theorem System.Closing.isFlat {s s' : System} {id : CommandId} (h : s.Closing)
    (hstep : s.step bound e = some s') (hm : s.MarksSucceeded s' id botId) :
    (s'.accounts botId).IsFlat := by
  obtain ⟨hstops, hclosed⟩ := h.stops.marked h.regular h.alone hstep hm
  obtain ⟨hsessions, hev⟩ := (System.account_step hstep).account hstops.only
  exact (Trading.World.HasClosed.evolves hclosed hsessions hev).isFlat

/-- In every run whose steps close first, the position of the active session is closed when an
EMERGENCY_STOP is marked as succeeded. -/
theorem emergency_stop_closes (bound : Nat) {s₀ s s' : System} (hs₀ : s₀.Fresh)
    (hnonneg : ∀ botId, (s₀.accounts botId).exchange.Nonneg)
    (h : Run (Meeting (Stepping (System.step bound)) fun s e _ => s.ClosesFirst e) s₀ es s)
    (hstep : s.step bound e = some s') (id : CommandId) (botId : BotId)
    (hm : s.MarksSucceeded s' id botId) : (s'.accounts botId).IsFlat := by
  have hclosing : s.Closing :=
    h.invariant (fun _ _ _ hc ⟨hstep, hk⟩ => hc.step hstep hk) (hs₀.closing hnonneg)
  exact hclosing.isFlat hstep hm

/-! ## Two runs -/

/-- The bot is started, and sells a tenth of a coin. -/
def sold : List Event :=
  startHandled ++ (.resume .main :: Trading.roundTrips .main
    [.done, .done, .done, .done, .done, .done, .tick (some 100), .candle (some (some 50, some 200)),
      .balances {}, .accepted (1 / 10) { price := some 100 }, .done, .config none,
      .balances {}]).map (.child 0)

/-- An EMERGENCY_STOP is accepted and claimed. -/
def emergencyClaimed : List Event :=
  [.api (.command 0 .emergencyStop 1), .serve 0 0 (.ok (.claimed 1))]

/-- The child closes its position and exits, and the bot is marked as stopped. -/
def closed : List Event :=
  sold ++ emergencyClaimed ++ served 0 0 3 ++ [.receive 0] ++
    (Trading.roundTrips .stop [.done, .reported {}, .tick (some 100), .accepted (1 / 10) {}, .done,
      .done]).map (.child 0) ++ [.exit 0] ++ served 0 0 3

theorem emergency_stop_closes_sold :
    ∃ s s' : System, s.step 4 (.serve 0 0 (.ok .done)) = some s' ∧ s.MarksSucceeded s' 1 0 ∧
      (s'.accounts 0).IsFlat := by
  have hrun : (execWhere (System.step 4) System.ClosesFirst {} closed).any fun s =>
      (s.step 4 (.serve 0 0 (.ok .done))).any fun s' => s.MarksSucceeded s' 1 0 := by decide +kernel
  obtain ⟨s, s', h, hstep, hm⟩ := Run.exists_step_where hrun
  exact ⟨s, s', hstep, hm, emergency_stop_closes 4 .empty (fun _ => nofun) h hstep 1 0 hm⟩

/-- The child is killed, and while the restart timer runs the EMERGENCY_STOP finds no child. -/
def crashed : List Event :=
  sold ++ [.child 0 .kill, .exit 0] ++ emergencyClaimed ++ served 0 0 4

/-- The EMERGENCY_STOP is marked as succeeded, and the position is open. -/
theorem emergency_stop_leaves_position :
    ∃ s s', Run (Stepping (System.step 4)) {} crashed s ∧
      s.step 4 (.serve 0 0 (.ok .done)) = some s' ∧
      s.MarksSucceeded s' 1 0 ∧ ¬ (s'.accounts 0).IsFlat :=
  Run.exists_step (by decide +kernel)

end Tonatiuh.Supervisor
