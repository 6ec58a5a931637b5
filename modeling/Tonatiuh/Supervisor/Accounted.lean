import Tonatiuh.Supervisor.DesiredState
import Tonatiuh.Supervisor.Stops

/-! Children whose bot is to run, or is to be stopped by a command. -/

namespace Tonatiuh.Supervisor

open Async Transition

/-- A command of this kind is pending or being processed. -/
def System.HasOpen (s : System) (botId : BotId) (kind : CommandKind → Bool) : Prop :=
  ∃ c ∈ s.commands, c.botId = botId ∧ kind c.command = true ∧
    (c.status = .pending ∨ c.status = .processing) ∧ c.isRemoved = false

/-- The bot has a row, and is to run or has such a command. -/
def System.MayRun (s : System) (kind : CommandKind → Bool) (botId : BotId) : Prop :=
  ∃ row ∈ s.bot botId, row.desiredState = .running ∨ s.HasOpen botId kind

/-- STOP, EMERGENCY_STOP, RESTART and DELETE. -/
def CommandKind.endsChild : CommandKind → Bool
  | .start => false
  | _ => true

/-- The bot of every running child may run. -/
def System.Accounts (s : System) : Prop :=
  ∀ c ∈ s.children, c.isAlive = true → s.MayRun CommandKind.endsChild c.botId

instance (s : System) (botId : BotId) (kind : CommandKind → Bool) :
    Decidable (s.HasOpen botId kind) := by
  unfold System.HasOpen
  infer_instance

instance (s : System) (kind : CommandKind → Bool) (botId : BotId) :
    Decidable (s.MayRun kind botId) := by
  unfold System.MayRun
  infer_instance

theorem System.HasOpen.mono {s : System} {kind kind' : CommandKind → Bool}
    (h : s.HasOpen botId kind) (hk : ∀ c, kind c = true → kind' c = true) :
    s.HasOpen botId kind' := by
  obtain ⟨c, hc, hb, hkind, hopen, hr⟩ := h
  exact ⟨c, hc, hb, hk _ hkind, hopen, hr⟩

theorem System.MayRun.mono {s : System} {kind kind' : CommandKind → Bool} (h : s.MayRun kind botId)
    (hk : ∀ c, kind c = true → kind' c = true) : s.MayRun kind' botId := by
  obtain ⟨row, hrow, hd | hopen⟩ := h
  · exact ⟨row, hrow, .inl hd⟩
  · exact ⟨row, hrow, .inr (hopen.mono hk)⟩

/-- The command stops the bot for good. -/
def BotCommand.IsStopping (_ : System) (c : BotCommand) : Prop := c.command.isStopping = true

instance (s : System) : DecidablePred (BotCommand.IsStopping s) := fun c => by
  unfold BotCommand.IsStopping
  infer_instance

instance (g : Progress) : Decidable g.Clean :=
  decidable_of_iff (g.taken = some none ∨ ∃ child ∈ g.taken.join, g.exited = true) <| by
    simp [Progress.Clean, Option.join_eq_some_iff]

/-- The requests with which a command ends: its outcome, and the deletion of the rows. -/
def Request.isEnding : Request → Bool
  | .updateSucceeded _ | .updateCommandFailed .. | .deleteRows _ => true
  | _ => false

/-- A command that stops a bot stops it alone; when it ends and `stopBot` has not ended well for it,
no child of the bot runs; and a call of `startBot` passes its test only where the bot may run. -/
def System.KeepsAccounts (s : System) (e : Event) : Prop :=
  s.StopsAlone BotCommand.IsStopping e ∧
    match e with
    | .serve i n outcome =>
      (∀ t ∈ (s.instances i).tasks[n]?, t.pending.any Request.isEnding = true →
        outcome.committed.isSome = true → ∀ c ∈ t.progress.command, c.command.isStopping = true →
          ¬ t.progress.Clean → s.OnlyChild c.botId none ∧ s.StartsNo c.botId) ∧
      match s.pending i n with
      | some (.isRunning botId) =>
        s.runningChild i botId = none → s.MayRun CommandKind.isStopping botId
      | _ => True
    | _ => True

instance (s : System) (e : Event) : Decidable (s.KeepsAccounts e) := by
  unfold System.KeepsAccounts
  refine @instDecidableAnd _ _ _ ?_
  induction e using Event.casesOn with
  | serve i n outcome =>
    refine @instDecidableAnd _ _ inferInstance ?_
    generalize s.pending i n = pending
    induction pending using Option.casesOn with
    | none => exact instDecidableTrue
    | some request => induction request using Request.casesOn <;> dsimp only <;> infer_instance
  | _ => exact instDecidableTrue

/-! ## Commands that are handled -/

/-- The row is being processed, and no other task handles it. -/
structure System.Sole (s : System) (i : InstanceId) (n : Nat) (row : CommandRow) (id : CommandId) :
    Prop where
  processing : row.status = .processing
  sole : ∀ i' n' t c, (s.instances i').tasks[n']? = some t → t.progress.command = some c →
    c.id = id → i' = i ∧ n' = n

/-- The row of a command that is handled is not pending, and until `desired_state` is stored it is
the only task's. -/
def System.Handling (s : System) : Prop :=
  ∀ i n t c, (s.instances i).tasks[n]? = some t → t.progress.command = some c →
    ∃ row, s.commands[c.id]? = some row ∧ row.status ≠ .pending ∧
      (t.isClaimed = true → s.Sole i n row c.id)

variable {s s' : System} {id : CommandId} {row row' : CommandRow}

theorem System.Fresh.handling (h : s.Fresh) : s.Handling := by
  intro i n t c ht
  rw [h.instances] at ht
  cases ht

theorem System.Sole.step (h : s.Sole i n row id) (hr : s.Regular) (hfirst : s.StoresFirst)
    (ht : (s.instances i).tasks[n]? = some t) (hclaimed : t.isClaimed = true)
    (hrow : s.commands[id]? = some row) (hstep : s.step bound e = some s')
    (hrs : RowStep s e id row row') : s'.Sole i n row' id := by
  constructor
  · cases hrs with
    | kept => exact h.processing
    | @served i₂ n₂ outcome choice r he hup hpending hcommitted =>
      obtain ⟨t₂, ht₂, hr₂⟩ := Option.bind_eq_some_iff.mp hpending
      have hmem₂ := List.mem_of_getElem? ht₂
      -- the outcome of this command is stored by a task that has stored `desired_state`
      have hother {c : BotCommand} (hc : t₂.progress.command = some c) (hid : c.id = id)
          (hstoring : r.isStoring = false) : False := by
        obtain ⟨rfl, rfl⟩ := h.sole i₂ n₂ t₂ c ht₂ hc hid
        cases ht.symm.trans ht₂
        have hnot := hfirst.pending hmem₂ hr₂
        rw [hstoring, hclaimed] at hnot
        cases hnot
      obtain hs | hs | rfl | ⟨error, rfl⟩ := r.onRow_status choice id row
      · exact hs.trans h.processing
      · exact hs
      · obtain ⟨c, hc, hid, _⟩ := (hr.follows i₂ t₂ hmem₂).allowed hr₂
        exact (hother hc.1 hid rfl).elim
      · obtain ⟨c, hc, hid⟩ := (hr.follows i₂ t₂ hmem₂).allowed hr₂
        exact (hother hc.1 hid rfl).elim
  · intro i' n' t' c ht' hc hid
    cases System.task_at hstep ht' with
    | kept _ hn => exact h.sole i' n' t' c hn hc hid
    | spawned => cases hc
    | served _ hn hserve =>
      obtain hold | hx := Progress.after_command hc
      · exact h.sole i' n' _ c hn hold hid
      · cases hx
        obtain ⟨row₂, _, ⟨hrow₂, hpending, _⟩, _⟩ := serve_claimed hserve rfl
        rw [hid] at hrow₂
        cases hrow.symm.trans hrow₂
        cases hpending.symm.trans h.processing

theorem System.Handling.step (h : s.Handling) (hr : s.Regular) (hfirst : s.StoresFirst)
    (hstep : s.step bound e = some s') : s'.Handling := by
  have hstatus {id : CommandId} {row row' : CommandRow} (hrs : RowStep s e id row row')
      (hs : row.status ≠ .pending) : row'.status ≠ .pending := by
    cases hrs with
    | kept => exact hs
    | served => exact fun hp => hs (Request.onRow_pending hp)
  intro i n t c ht hc
  cases System.task_at hstep ht with
  | kept _ hn =>
    obtain ⟨row, hrow, hs, hsole⟩ := h i n t c hn hc
    obtain ⟨row', hrow', hrs⟩ := System.row_kept hstep hrow
    exact ⟨row', hrow', hstatus hrs hs, fun hclaimed =>
      (hsole hclaimed).step hr hfirst hn hclaimed hrow hstep hrs⟩
  | spawned => cases hc
  | @served r k history outcome x u hup hn hserve =>
    have hmem := List.mem_of_getElem? hn
    obtain hold | hx := Progress.after_command hc
    · obtain ⟨row, hrow, hs, _⟩ := h i n _ c hn hold
      obtain ⟨row', hrow', hrs⟩ := System.row_kept hstep hrow
      refine ⟨row', hrow', hstatus hrs hs, fun hclaimed => ?_⟩
      -- a task that handles a command claims none
      obtain ⟨c₂, hx⟩ := claimedAfter_cases (hfirst.pending (r := r) hmem rfl) hclaimed
      cases hx
      cases hold.symm.trans ((hr.follows i _ hmem).allowed (r := .claimCommand) rfl).1
    · cases hx
      obtain ⟨row, rfl, ⟨hrow, hpending, _⟩, _⟩ := serve_claimed hserve rfl
      obtain ⟨row', hrow', hrs⟩ := System.row_kept hstep hrow
      have hprocessing : row'.status = .processing := by
        obtain ⟨_, _, _, _, _, _, hn', hserve', rfl⟩ := serveTask_cases hstep
        cases hn.symm.trans hn'
        cases hserve.symm.trans hserve'
        have hmap : _ = some row' := (serve_commands hserve c.id).symm.trans hrow'
        rw [hrow] at hmap
        cases hmap
        exact congrArg CommandRow.status (if_pos rfl)
      refine ⟨row', hrow', by rw [hprocessing]; exact nofun, fun _ => ⟨hprocessing, ?_⟩⟩
      intro i' n' t' c' ht' hc' hid
      cases System.task_at hstep ht' with
      | kept _ hn' =>
        obtain ⟨row₂, hrow₂, hs₂, _⟩ := h i' n' t' c' hn' hc'
        rw [hid] at hrow₂
        cases hrow.symm.trans hrow₂
        exact absurd hpending hs₂
      | spawned => cases hc'
      | served => exact ⟨rfl, rfl⟩

/-- The commands of a bot are removed with its row. -/
def System.Removed (s : System) : Prop :=
  ∀ c ∈ s.commands, c.isRemoved = true → s.bot c.botId = none

theorem System.Removed.of_eq (h : s.Removed) (hc : s'.commands = s.commands)
    (hb : s'.bots = s.bots) : s'.Removed := by
  intro c hmem hr
  rw [System.bot, hb]
  exact h c (hc ▸ hmem) hr

theorem System.Removed.complete {r : Request} {a : r.Answer} (h : s.Removed)
    (hc : s.complete bound i r choice = some (a, s')) : s'.Removed := by
  intro c hmem hr
  obtain ⟨j, hj⟩ := List.getElem?_of_mem hmem
  rw [complete_commands hc] at hj
  obtain ⟨c₀, hc₀, rfl⟩ := Option.map_eq_some_iff.mp hj
  rw [Request.onRow_botId]
  have hd := complete_desiredState hc c₀.botId
  refine Option.map_eq_none_iff.mp (hd.trans ?_)
  obtain hr | rfl := Request.onRow_removed hr
  · rw [h c₀ (List.mem_of_getElem? hc₀) hr]
    exact ite_self _
  · exact if_pos (decide_eq_true rfl)

theorem System.Removed.step (h : s.Removed) (ht : s.Targeted) (hstep : s.step bound e = some s') :
    s'.Removed := by
  cases System.step_cases hstep with
  | api hcall =>
    obtain ⟨_, rfl⟩ | ⟨botId, command, createdAt, _, rfl, _⟩ := System.call_cases hcall
    · intro c hmem hr
      rw [System.bot, List.getElem?_append_left (ht c hmem)]
      exact h c hmem hr
    · intro c hmem hr
      obtain hmem | hmem := List.mem_append.mp hmem
      · rw [System.accept, System.bot_updateBot]
        have hnone : s.bot c.botId = none := h c hmem hr
        split
        next => exact Option.map_eq_none_iff.mpr hnone
        next => exact hnone
      · cases List.mem_singleton.mp hmem
        cases hr
  | boot => exact h.of_eq rfl rfl
  | @serve i n r k history outcome x u hup hn hserve =>
    suffices hu : u.Removed from hu
    obtain ⟨_, _, _, _, hc⟩ | ⟨_, _, _, _, rfl⟩ | ⟨_, _, _, _, _, _, hc⟩ := serve_cases hserve
    · exact h.complete hc
    · exact h
    · exact h.complete hc
  | disconnect =>
    obtain ⟨lock, heq⟩ := s.unlocked_eq _
    rw [heq]
    exact h
  | crash =>
    obtain ⟨lock, heq⟩ := s.unlocked_eq _
    rw [heq]
    exact h
  | other hp => exact h.of_eq hp.commands hp.bots

/-! ## Bots that may run -/

/-- A command that stops a bot ends when no child of the bot runs. -/
theorem System.KeepsAccounts.stops {t : Task} {r : Request}
    (hk : s.KeepsAccounts (.serve i n outcome))
    (ha : s.Alone BotCommand.IsStopping) (hup : (s.instances i).life = .up)
    (hn : (s.instances i).tasks[n]? = some t) (ht : t.pending = some r) (hr : r.isEnding = true)
    (hcommitted : outcome.committed.isSome = true) (hc : t.progress.command = some c)
    (hs : c.command.isStopping = true) : s.Stops c.botId none := by
  by_cases hclean : t.progress.Clean
  · exact .of_clean hclean fun child => ha i hup t (List.mem_of_getElem? hn) c child hc hs
  · obtain ⟨honly, hstarts⟩ := hk.2.1 t hn (by rw [ht]; exact hr) hcommitted c hc hs hclean
    exact ⟨honly, hstarts⟩

theorem System.MayRun.of_eq (h : s.MayRun kind botId) (hc : s'.commands = s.commands)
    (hb : s'.bots = s.bots) : s'.MayRun kind botId := by
  rw [System.MayRun, System.HasOpen, hc, System.bot, hb]
  exact h

theorem System.MayRun.accept {command : CommandKind} (h : s.MayRun CommandKind.isStopping botId) :
    (s.accept botId' command createdAt).MayRun CommandKind.isStopping botId := by
  obtain ⟨row, hrow, hd⟩ := h
  by_cases hb : botId' = botId
  · subst hb
    refine ⟨{ row with
      desiredState := command.desiredState, actualState := command.actualState }, ?_, ?_⟩
    · rw [System.accept, System.bot_updateBot, if_pos rfl]
      exact Option.map_eq_some_iff.mpr ⟨row, hrow, rfl⟩
    cases hs : command.isStopping with
    | false =>
      refine .inl ?_
      dsimp only
      rw [CommandKind.desiredState, hs]
      rfl
    | true =>
      exact .inr ⟨_, List.mem_append_right _ (List.mem_singleton_self _), rfl, hs, .inl rfl, rfl⟩
  · refine ⟨row, ?_, hd.imp_right fun hopen => ?_⟩
    · rw [System.accept, System.bot_updateBot, if_neg hb]
      exact hrow
    · obtain ⟨c, hmem, hc⟩ := hopen
      exact ⟨c, List.mem_append_left _ hmem, hc⟩

theorem CommandKind.isStopping_of_desiredState {command : CommandKind}
    (h : command.desiredState = .stopped) : command.isStopping = true := by
  cases command <;> first | rfl | cases h

/-- A request leaves a bot that may run so, unless a command ends with it. -/
theorem System.MayRun.complete {i : InstanceId} {n : Nat} {t : Task} {r : Request} {a : r.Answer}
    {u : System}
    (h : s.MayRun CommandKind.isStopping botId) (hr : s.Regular) (hfirst : s.StoresFirst)
    (hh : s.Handling) (hrem : s.Removed) (hn : (s.instances i).tasks[n]? = some t)
    (ht : t.pending = some r) (hc : s.complete bound i r choice = some (a, u))
    (hends : r.isEnding = true → ∀ c, t.progress.command = some c → c.command.isStopping = true →
      s.Stops c.botId none) :
    u.MayRun CommandKind.isStopping botId ∨ (s.Stops botId none ∧ r.isEnding = true) := by
  have hmem := List.mem_of_getElem? hn
  have hallowed := (hr.follows i t hmem).allowed ht
  by_cases hdel : r.deletes botId = true
  · cases r with
    | deleteRows botId' =>
      obtain ⟨c, hcommand, rfl, hkind⟩ := hallowed
      cases of_decide_eq_true hdel
      exact .inr ⟨hends rfl c hcommand (by rw [hkind]; rfl), rfl⟩
    | _ => cases hdel
  obtain ⟨row, hrow, hcover⟩ := h
  have hd := complete_desiredState hc botId
  rw [if_neg hdel, (hrow : s.bot botId = some row)] at hd
  obtain ⟨row', hrow', hd⟩ := Option.map_eq_some_iff.mp hd
  obtain hrunning | ⟨c₀, hc₀, hb, hkind, hopen, hremoved⟩ := hcover
  · cases hs : r.storedState botId with
    | none =>
      rw [hs] at hd
      exact .inl ⟨row', hrow', .inl (hd.trans hrunning)⟩
    | some d =>
      rw [hs] at hd
      cases d with
      | running => exact .inl ⟨row', hrow', .inl hd⟩
      | stopped =>
        -- the command for which the bot is to stop is being processed
        cases Request.eq_of_storedState hs
        obtain ⟨c, hcommand, rfl, hstopped⟩ := hallowed
        obtain ⟨row₀, hrow₀, _, hsole⟩ := hh i n t c hn hcommand.1
        obtain ⟨row₁, hrow₁, hb, hkind⟩ := hr.claimed i t hmem c hcommand.1
        cases hrow₀.symm.trans hrow₁
        have hprocessing := (hsole (hfirst.pending hmem ht).symm).processing
        refine .inl ⟨row', hrow', .inr ⟨row₀, ?_, hb, ?_, .inr hprocessing, ?_⟩⟩
        · rw [(complete_unchanged hc).commands rfl]
          exact List.mem_of_getElem? hrow₀
        · rw [hkind]
          exact CommandKind.isStopping_of_desiredState hstopped
        · by_contra hremoved
          have hnone := hrem row₀ (List.mem_of_getElem? hrow₀) (by simpa using hremoved)
          rw [hb] at hnone
          cases hnone.symm.trans hrow
  · obtain ⟨j, hj⟩ := List.getElem?_of_mem hc₀
    have hu : u.commands[j]? = some (r.onRow choice j c₀) := by
      rw [complete_commands hc, hj]
      rfl
    -- the outcome of the command is stored
    have hend (hending : r.isEnding = true) (hid : ∃ c, t.progress.Handles c ∧ c.id = j) :
        s.Stops botId none ∧ r.isEnding = true := by
      obtain ⟨c, hcommand, rfl⟩ := hid
      obtain ⟨row₁, hrow₁, hb₁, hkind₁⟩ := hr.claimed i t hmem c hcommand.1
      cases hj.symm.trans hrow₁
      rw [← hb, hb₁]
      exact ⟨hends hending c hcommand.1 (hkind₁ ▸ hkind), hending⟩
    have hkept (hopen : (r.onRow choice j c₀).status = .pending ∨
        (r.onRow choice j c₀).status = .processing) : u.MayRun CommandKind.isStopping botId := by
      refine ⟨row', hrow', .inr ⟨_, List.mem_of_getElem? hu, ?_, ?_, hopen, ?_⟩⟩
      · rw [Request.onRow_botId, hb]
      · rw [Request.onRow_command, hkind]
      · by_contra hnot
        obtain hr | rfl := Request.onRow_removed (by simpa using hnot)
        · cases hremoved.symm.trans hr
        · exact hdel (decide_eq_true hb)
    obtain hs | hs | rfl | ⟨error, rfl⟩ := r.onRow_status choice j c₀
    · exact .inl (hkept (by rw [hs]; exact hopen))
    · exact .inl (hkept (.inr hs))
    · obtain ⟨c, hcommand, hid, _⟩ := hallowed
      exact .inr (hend rfl ⟨c, hcommand, hid⟩)
    · exact .inr (hend rfl hallowed)

/-- What holds in every run whose steps keep account of the children. -/
structure System.Accountable (s : System) : Prop where
  regular : s.Regular
  storesFirst : s.StoresFirst
  targeted : s.Targeted
  removed : s.Removed
  handling : s.Handling
  alone : s.Alone BotCommand.IsStopping
  covered : ∀ botId, s.MayRun CommandKind.isStopping botId ∨ s.Stops botId none

theorem System.Fresh.accountable (h : s.Fresh) (hnone : s.commands = []) : s.Accountable where
  regular := h.regular
  storesFirst := h.storesFirst
  targeted := by
    rw [System.Targeted, hnone]
    exact fun c hc => absurd hc List.not_mem_nil
  removed := by
    rw [System.Removed, hnone]
    exact fun c hc => absurd hc List.not_mem_nil
  handling := h.handling
  alone i hi := by
    rw [h.instances] at hi
    cases hi
  covered botId := by
    refine .inr ⟨fun p hp => ?_, fun i hi => ?_⟩
    · rw [h.children] at hp
      cases hp
    · rw [h.workers] at hi
      cases hi

namespace System.Accountable

/-- A bot that may run may run after the step, or nothing of it runs. -/
theorem mayRun_step (h : s.Accountable) (hstep : s.step bound e = some s') (hk : s.KeepsAccounts e)
    (hrun : s.MayRun CommandKind.isStopping botId) :
    s'.MayRun CommandKind.isStopping botId ∨ (s.Stops botId none ∧ ¬ s.PassesTest e botId) := by
  cases System.step_cases hstep with
  | api hcall =>
    obtain ⟨_, rfl⟩ | ⟨botId', command, createdAt, _, rfl, _⟩ := System.call_cases hcall
    · obtain ⟨row, hrow, hd⟩ := hrun
      refine .inl ⟨row, ?_, hd⟩
      rw [System.bot, List.getElem?_append_left (System.lt_of_bot hrow)]
      exact hrow
    · exact .inl hrun.accept
  | boot => exact .inl (hrun.of_eq rfl rfl)
  | @serve i n r k history outcome x u hup hn hserve =>
    have hcomplete {a : r.Answer} {choice : Choice} (hc : s.complete bound i r choice = some (a, u))
        (hcommitted : outcome.committed.isSome = true) :
        u.MayRun CommandKind.isStopping botId ∨
          (s.Stops botId none ∧ ¬ s.PassesTest (.serve i n outcome) botId) := by
      refine (hrun.complete h.regular h.storesFirst h.handling h.removed hn rfl hc fun hr c hc hs =>
        hk.stops h.alone hup hn rfl hr hcommitted hc hs).imp_right fun hstops => ⟨hstops.1, ?_⟩
      have hr := hstops.2
      rintro ⟨i', n', choice', he, hpending, _⟩
      cases he
      cases (System.pending_eq hn).symm.trans hpending
      cases hr
    obtain ⟨choice, _, rfl, _, hc⟩ | ⟨_, _, _, _, rfl⟩ | ⟨choice, _, _, rfl, _, _, hc⟩ :=
      serve_cases hserve
    · exact hcomplete hc rfl
    · exact .inl (hrun.of_eq rfl rfl)
    · exact hcomplete hc rfl
  | disconnect =>
    obtain ⟨lock, heq⟩ := s.unlocked_eq _
    rw [heq]
    exact .inl (hrun.of_eq rfl rfl)
  | crash =>
    obtain ⟨lock, heq⟩ := s.unlocked_eq _
    rw [heq]
    exact .inl (hrun.of_eq rfl rfl)
  | other hp => exact .inl (hrun.of_eq hp.commands hp.bots)

theorem step (h : s.Accountable) (hstep : s.step bound e = some s') (hk : s.KeepsAccounts e) :
    s'.Accountable where
  regular := h.regular.step hstep
  storesFirst := h.storesFirst.step hstep
  targeted := h.targeted.step hstep
  removed := h.removed.step h.targeted hstep
  handling := h.handling.step h.regular h.storesFirst hstep
  alone := h.alone.step h.regular (fun _ hc => hc) hstep hk.1
  covered botId := by
    have hstops (hstops : s.Stops botId none) (ht : ¬ s.PassesTest e botId) :
        s'.MayRun CommandKind.isStopping botId ∨ s'.Stops botId none :=
      .inr (hstops.step h.regular hstep ht)
    obtain hrun | hnone := h.covered botId
    · obtain hrun | ⟨hnone, ht⟩ := h.mayRun_step hstep hk hrun
      · exact .inl hrun
      · exact hstops hnone ht
    · by_cases ht : s.PassesTest e botId
      swap
      · exact hstops hnone ht
      have hpasses := ht
      obtain ⟨i, n, choice, rfl, hpending, hchild⟩ := ht
      have hrun := hk.2.2
      rw [hpending] at hrun
      obtain hrun | ⟨_, ht⟩ := h.mayRun_step hstep hk (hrun hchild)
      · exact .inl hrun
      · exact absurd hpasses ht

/-- Every running child is accounted for. -/
theorem accounts (h : s.Accountable) : s.Accounts := by
  intro c hc ha
  obtain hrun | hnone := h.covered c.botId
  · exact hrun.mono fun kind hkind => by cases kind <;> first | rfl | cases hkind
  · obtain ⟨n, hn⟩ := List.getElem?_of_mem hc
    cases System.onlyChild_iff.mp hnone.only n c hn rfl ha

end System.Accountable

end Tonatiuh.Supervisor
