import Tonatiuh.Supervisor.Stops

/-! Bots that have been stopped. -/

namespace Tonatiuh.Supervisor

open Async Transition

/-- No START or RESTART of the bot was accepted after this command. -/
def System.IsLast (s : System) (id : CommandId) (botId : BotId) : Prop :=
  ∀ c ∈ s.commands.drop (id + 1), c.botId = botId → c.command.isStopping = true

instance (s : System) (id : CommandId) (botId : BotId) : Decidable (s.IsLast id botId) := by
  unfold System.IsLast
  infer_instance

theorem System.isLast_iff {s : System} {id : CommandId} : s.IsLast id botId ↔
    ∀ (j : CommandId) (c : CommandRow), id < j → s.commands[j]? = some c → c.botId = botId →
      c.command.isStopping = true :=
  forall_mem_drop_succ

/-- The last command was the last before. -/
theorem System.IsLast.of_step {s s' : System} {id : CommandId} (h : s'.IsLast id botId)
    (hstep : s.step bound e = some s') : s.IsLast id botId := by
  rw [System.isLast_iff] at h ⊢
  intro j c hj hc hb
  obtain ⟨c', hc', hrow⟩ := System.row_kept hstep hc
  exact hrow.command ▸ h j c' hj hc' (hrow.botId.trans hb)

/-- A STOP of the bot has succeeded, and no START or RESTART was accepted after it. -/
def System.IsStopped (s : System) (botId : BotId) : Prop :=
  ∃ p ∈ s.commands.zipIdx, p.1.botId = botId ∧ p.1.command = .stop ∧ p.1.status = .succeeded ∧
    s.IsLast p.2 botId

instance (s : System) (botId : BotId) : Decidable (s.IsStopped botId) := by
  unfold System.IsStopped
  infer_instance

theorem System.isStopped_iff {s : System} : s.IsStopped botId ↔
    ∃ (k : CommandId) (c : CommandRow), s.commands[k]? = some c ∧ c.botId = botId ∧
      c.command = .stop ∧ c.status = .succeeded ∧ s.IsLast k botId := by
  constructor
  · rintro ⟨⟨c, k⟩, hmem, h⟩
    exact ⟨k, c, List.mem_zipIdx_iff_getElem?.mp hmem, h⟩
  · rintro ⟨k, c, hc, h⟩
    exact ⟨(c, k), List.mem_zipIdx_iff_getElem?.mpr hc, h⟩

/-- A STOP after which no START or RESTART was accepted. -/
def System.IsLastStop (s : System) (c : BotCommand) : Prop :=
  c.command = .stop ∧ s.IsLast c.id c.botId

instance (s : System) : DecidablePred s.IsLastStop := fun c => by
  unfold System.IsLastStop
  infer_instance

/-- A STOP that leaves the bot stopped stops it alone, and once the bot is stopped no call of
`startBot` passes its test. -/
def System.KeepsStopped (s : System) (e : Event) : Prop :=
  s.StopsAlone System.IsLastStop e ∧
    match e with
    | .serve i n (.ok _) =>
      match s.pending i n with
      | some (.isRunning botId) => s.runningChild i botId = none → ¬ s.IsStopped botId
      | _ => True
    | _ => True

instance (s : System) (e : Event) : Decidable (s.KeepsStopped e) := by
  unfold System.KeepsStopped
  refine @instDecidableAnd _ _ _ ?_
  induction e using Event.casesOn with
  | serve i n outcome =>
    induction outcome using Outcome.casesOn with
    | ok =>
      dsimp only
      generalize s.pending i n = pending
      induction pending using Option.casesOn with
      | none => exact instDecidableTrue
      | some request => induction request using Request.casesOn <;> dsimp only <;> infer_instance
    | _ => exact instDecidableTrue
  | _ => exact instDecidableTrue

/-- No child of a bot that is stopped runs, and none is about to be forked. -/
def System.StaysStopped (s : System) : Prop := ∀ botId, s.IsStopped botId → s.Stops botId none

/-- What has succeeded was handled, and had been done. -/
theorem RowStep.succeeded {s : System} {c c' : CommandRow} {id : CommandId}
    (h : RowStep s e id c c')
    (hr : s.Regular) (hc : s.commands[id]? = some c) (hs : c'.status = .succeeded) :
    c.status = .succeeded ∨ ∃ i n outcome t, e = .serve i n outcome ∧ (s.instances i).life = .up ∧
      t ∈ (s.instances i).tasks ∧ s.pending i n = some (.updateSucceeded id) ∧
      t.progress.command = some ⟨id, c.botId, c.command⟩ ∧ t.progress.Accomplished c.command := by
  cases h with
  | kept => exact .inl hs
  | @served i n outcome choice r he hup hpending hcommitted =>
    unfold Request.onRow at hs
    split at hs
    case h_3 id' _ =>
      split at hs
      next hid =>
        subst hid
        obtain ⟨t, hn, ht⟩ := Option.bind_eq_some_iff.mp hpending
        have hmem := List.mem_of_getElem? hn
        obtain ⟨c₀, hc₀, rfl, hdone⟩ := (hr.follows i t hmem).allowed ht
        obtain ⟨row, hrow, hb, hk⟩ := hr.claimed i t hmem c₀ hc₀.1
        cases hc.symm.trans hrow
        refine .inr ⟨i, n, outcome, t, he, hup, hmem, hpending, ?_, hk ▸ hdone⟩
        rw [hc₀.1, hb, hk]
      next => exact .inl hs
    case h_1 => split at hs <;> exact .inl hs
    case h_2 =>
      split at hs
      next => cases hs
      next => exact .inl hs
    case h_4 =>
      split at hs
      next =>
        split at hs
        next => exact .inl hs
        next => cases hs
      next => exact .inl hs
    case h_5 => exact .inl hs

theorem System.StaysStopped.step {s s' : System} (h : s.StaysStopped) (hr : s.Regular)
    (ha : s.Alone System.IsLastStop) (hstep : s.step bound e = some s') (hk : s.KeepsStopped e) :
    s'.StaysStopped := by
  intro botId hstopped
  obtain ⟨k, c', hc', rfl, hcommand, hs, hlast⟩ := System.isStopped_iff.mp hstopped
  have hlast := hlast.of_step hstep
  obtain ⟨c, c₁, hc, hc₁, hrow⟩ | ⟨_, hnew⟩ := System.row_step hstep k
  swap
  · rw [(hnew c' hc').status] at hs
    cases hs
  cases hc'.symm.trans hc₁
  rw [hrow.botId] at hlast ⊢
  obtain hs | ⟨i, n, outcome, t, rfl, hup, hmem, hpending, hhandled, hdone⟩ :=
    hrow.succeeded hr hc hs
  · have hstopped : s.IsStopped c.botId :=
      System.isStopped_iff.mpr ⟨k, c, hc, rfl, hrow.command ▸ hcommand, hs, hlast⟩
    refine (h c.botId hstopped).step hr hstep ?_
    rintro ⟨i, n, choice, rfl, hpending, hnone⟩
    have hk := hk.2
    dsimp only at hk
    rw [hpending] at hk
    exact hk hnone hstopped
  · have hkind : c.command = .stop := hrow.command ▸ hcommand
    rw [hkind] at hhandled hdone
    have hstops : s.Stops c.botId none :=
      .of_clean hdone fun child => ha i hup t hmem _ child hhandled ⟨rfl, hlast⟩
    refine hstops.step hr hstep ?_
    rintro ⟨i', n', choice, he, htest, _⟩
    cases he
    cases hpending.symm.trans htest

/-- In every run whose steps keep stopped bots stopped, no child of a bot that is stopped runs, and
none is forked. -/
theorem no_child_of_stopped_bot (bound : Nat) {s₀ s : System} (hs₀ : s₀.Fresh)
    (h : Run (Meeting (Stepping (System.step bound)) fun s e _ => s.KeepsStopped e) s₀ es s)
    (botId : BotId) (hstopped : s.IsStopped botId) :
    (∀ c ∈ s.children, c.botId = botId → c.isAlive = false) ∧
      ∀ e s' c, s.step bound e = some s' → s'.children = s.children ++ [c] → c.botId ≠ botId := by
  have halone : s₀.Alone System.IsLastStop := by
    intro i hi
    rw [hs₀.instances] at hi
    cases hi
  have hstays : s₀.StaysStopped := by
    refine fun botId _ => ⟨fun p hp => ?_, fun i hi => ?_⟩
    · rw [hs₀.children] at hp
      cases hp
    · rw [hs₀.workers] at hi
      cases hi
  have hinv : s.Regular ∧ s.Alone System.IsLastStop ∧ s.StaysStopped := by
    refine h.invariant (I := fun s => s.Regular ∧ s.Alone System.IsLastStop ∧ s.StaysStopped)
      (fun s e s' ⟨hr, ha, hst⟩ ⟨hstep, hk⟩ => ?_) ⟨hs₀.regular, halone, hstays⟩
    refine ⟨hr.step hstep, ha.step hr (fun c hc => ?_) hstep hk.1, hst.step hr ha hstep hk⟩
    exact ⟨hc.1, hc.2.of_step hstep⟩
  obtain ⟨hr, _, hstays⟩ := hinv
  obtain ⟨honly, hstarts⟩ := hstays botId hstopped
  refine ⟨fun c hc hb => ?_, fun e s' c hstep hchildren hb => ?_⟩
  · obtain ⟨n, hn⟩ := List.getElem?_of_mem hc
    by_contra ha
    cases System.onlyChild_iff.mp honly n c hn hb (Bool.eq_true_of_not_eq_false ha)
  · cases System.children_step hstep with
    | fewer hf =>
      obtain ⟨c₀, hc₀, _⟩ := hf s.children.length c (hchildren ▸ List.getElem?_concat_length ..)
      rw [List.getElem?_length] at hc₀
      cases hc₀
    | @forked i m t _ _ c₀ hup hm hpending hchildren' =>
      cases List.singleton_inj.mp (List.append_cancel_left (hchildren.symm.trans hchildren'))
      have hmem := List.mem_of_getElem? hm
      have hstart : t.progress.starting = some c.botId := (hr.follows i t hmem).allowed hpending
      rw [hb] at hstart
      exact hstarts i (hr.listed i (by rw [hup]; exact nofun)) hup t hmem hstart

/-! ## Two runs -/

/-- The bot is stopped: its child suspends and exits. -/
def stopped : List Event :=
  startHandled ++ [.api (.command 0 .stop 1), .serve 0 0 (.ok (.claimed 1))] ++ served 0 0 3 ++
    [.receive 0, .exit 0] ++ served 0 0 4

theorem stopped_keepsStopped :
    (execWhere (System.step 4) System.KeepsStopped {} stopped).isSome := by decide +kernel

theorem no_child_of_stopped_bot_stopped :
    ((execWhere (System.step 4) System.KeepsStopped {} stopped).get
      stopped_keepsStopped).children.filter (fun c => c.botId = 0 ∧ c.isAlive = true) = [] := by
  refine List.filter_eq_nil_iff.mpr fun c hc hrunning => ?_
  obtain ⟨hb, ha⟩ := of_decide_eq_true hrunning
  have hnone := (no_child_of_stopped_bot 4 .empty (Run.of_execWhere_get stopped_keepsStopped) 0
    (by decide +kernel)).1 c hc hb
  rw [hnone] at ha
  cases ha

/-- The child is killed, and the restart timer has passed the test of `startBot` when the STOP is
accepted. The STOP finds no child and succeeds, and then the timer forks. -/
def startedAfterStop : List Event :=
  startHandled ++ [.child 0 .kill, .exit 0] ++ served 0 1 1 ++ served 0 2 4 ++
    [.api (.command 0 .stop 1), .serve 0 0 (.ok (.claimed 1))] ++ served 0 0 7 ++ loading 0 2 ++
    served 0 2 1

theorem startedAfterStop_enabled : (exec (System.step 4) {} startedAfterStop).isSome := by
  decide +kernel

/-- The bot is stopped, and a child of it runs. -/
theorem child_of_stopped_bot :
    ∃ s, Run (Stepping (System.step 4)) {} startedAfterStop s ∧ s.IsStopped 0 ∧
      s.children.map (fun c => (c.botId, c.isAlive)) = [(0, false), (0, true)] :=
  ⟨_, Run.of_exec_get startedAfterStop_enabled, by decide +kernel, by decide +kernel⟩

end Tonatiuh.Supervisor
