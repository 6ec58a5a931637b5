import Tonatiuh.Retention.Accounts
import Tonatiuh.Supervisor.Accounted

/-! Children of deleted accounts.

The rows of a bot may be deleted while its child runs. Neither `DELETE /me` nor the retention worker
stops the bots of an account, and there is no command that would reach the supervisor. -/

namespace Tonatiuh.Retention

open Async Transition Supervisor

/-- The steps of the supervisor keep account of the children, and the rows of a bot are deleted only
where no child of it runs. -/
def Platform.KeepsAccounts (p : Platform) : Event → Prop
  | .supervisor e => p.supervisor.KeepsAccounts e
  | .anonymizeOne userId =>
    ∀ botId, botId < p.supervisor.bots.length → p.isOwned userId botId = true →
      p.supervisor.OnlyChild botId none ∧ p.supervisor.StartsNo botId
  | _ => True

instance (p : Platform) (e : Event) : Decidable (p.KeepsAccounts e) := by
  unfold Platform.KeepsAccounts
  split <;> infer_instance

/-! ## Deletion of the rows -/

section RemoveBots

variable {s : System} {isRemoved : BotId → Bool}

theorem removeBots_bot (s : System) (isRemoved : BotId → Bool) (botId : BotId) :
    (removeBots s isRemoved).bot botId = if isRemoved botId then none else s.bot botId := by
  rw [System.bot, removeBots, List.getElem?_mapIdx]
  cases hb : s.bots[botId]? with
  | none =>
    rw [System.bot, hb]
    exact (ite_self _).symm
  | some row? =>
    rw [System.bot, hb]
    exact apply_ite (fun row? => (some row?).join) ..

/-- A row is the same, but for its removal. -/
theorem removeBots_row {id : CommandId} {c : CommandRow} (isRemoved : BotId → Bool)
    (hc : s.commands[id]? = some c) : ∃ c', (removeBots s isRemoved).commands[id]? = some c' ∧
      c'.botId = c.botId ∧ c'.command = c.command ∧ c'.status = c.status := by
  refine ⟨if isRemoved c.botId then { c with isRemoved := true } else c, ?_, ?_⟩
  · rw [removeBots, List.getElem?_map, hc]
    rfl
  · split <;> exact ⟨rfl, rfl, rfl⟩

theorem of_mem_removeBots {c : CommandRow} (hc : c ∈ (removeBots s isRemoved).commands) :
    ∃ c₀ ∈ s.commands, c.botId = c₀.botId ∧
      (c.isRemoved = true → isRemoved c₀.botId = true ∨ c₀.isRemoved = true) := by
  obtain ⟨c₀, hc₀, rfl⟩ := List.mem_map.mp hc
  refine ⟨c₀, hc₀, ?_⟩
  split
  next h => exact ⟨rfl, fun _ => .inl h⟩
  next => exact ⟨rfl, .inr⟩

theorem removeBots_mayRun (h : s.MayRun kind botId) (hb : isRemoved botId = false) :
    (removeBots s isRemoved).MayRun kind botId := by
  obtain ⟨row, hrow, hcover⟩ := h
  refine ⟨row, ?_, hcover.imp_right fun ⟨c, hc, hbot, hopen⟩ => ⟨c, ?_, hbot, hopen⟩⟩
  · rw [removeBots_bot, hb]
    exact hrow
  · refine List.mem_map.mpr ⟨c, hc, if_neg ?_⟩
    rw [hbot, hb]
    exact Bool.false_ne_true

/-- Nothing changes for the workers and the children, and the bots whose rows are deleted have
none. -/
theorem removeBots_accountable (h : s.Accountable)
    (hstops : ∀ botId, botId < s.bots.length → isRemoved botId = true → s.Stops botId none) :
    (removeBots s isRemoved).Accountable where
  regular :=
    { follows := h.regular.follows
      listed := h.regular.listed
      claimed := fun i t ht c hc => by
        obtain ⟨row, hrow, hb, hk⟩ := h.regular.claimed i t ht c hc
        obtain ⟨row', hrow', hb', hk', _⟩ := removeBots_row isRemoved hrow
        exact ⟨row', hrow', hb'.trans hb, hk'.trans hk⟩ }
  storesFirst := h.storesFirst
  targeted c hc := by
    obtain ⟨c₀, hc₀, hb, _⟩ := of_mem_removeBots hc
    rw [hb, Retention.removeBots, List.length_mapIdx]
    exact h.targeted c₀ hc₀
  removed c hc hr := by
    obtain ⟨c₀, hc₀, hb, hremoved⟩ := of_mem_removeBots hc
    rw [hb, removeBots_bot]
    obtain hr | hr := hremoved hr
    · exact if_pos hr
    · rw [h.removed c₀ hc₀ hr]
      exact ite_self _
  handling i n t c ht hc := by
    obtain ⟨row, hrow, hs, hsole⟩ := h.handling i n t c ht hc
    obtain ⟨row', hrow', _, _, hs'⟩ := removeBots_row isRemoved hrow
    refine ⟨row', hrow', hs' ▸ hs, fun hclaimed => ⟨?_, (hsole hclaimed).sole⟩⟩
    exact hs'.trans (hsole hclaimed).processing
  alone i hup t ht c child hc hs htaken := by
    obtain ⟨honly, hstarts⟩ := h.alone i hup t ht c child hc hs htaken
    exact ⟨honly, hstarts⟩
  covered botId := by
    obtain hrun | hnone := h.covered botId
    · cases hb : isRemoved botId with
      | false => exact .inl (removeBots_mayRun hrun hb)
      | true =>
        obtain ⟨row, hrow, _⟩ := hrun
        obtain ⟨honly, hstarts⟩ := hstops botId (System.lt_of_bot hrow) hb
        exact .inr ⟨honly, hstarts⟩
    · exact .inr ⟨hnone.only, hnone.starts⟩

end RemoveBots

/-! ## Runs -/

variable {p p' : Platform}

theorem Platform.commit_supervisor (p : Platform) (route : AccountRoute) (userId : UserId) :
    (p.commit route userId).supervisor = p.supervisor := by
  cases route <;> rfl

/-- Only the supervisor and the retention worker change bots, commands or children. -/
theorem Platform.step_supervisor (h : p.step bound e = some p') :
    (∃ e', e = .supervisor e' ∧ p.supervisor.step bound e' = some p'.supervisor) ∨
      (∃ userId, e = .anonymizeOne userId ∧
        p'.supervisor = removeBots p.supervisor (p.isOwned userId)) ∨
      p'.supervisor = p.supervisor := by
  cases e with
  | supervisor e' =>
    obtain ⟨supervisor, hstep, rfl⟩ := Option.map_eq_some_iff.mp h
    exact .inl ⟨e', rfl, hstep⟩
  | anonymizeOne userId =>
    rw [Platform.step, Platform.anonymizeOne] at h
    split at h
    · cases h
      exact .inr (.inl ⟨userId, rfl, rfl⟩)
    · cases h
  | acceptInvitation =>
    rw [Platform.step] at h
    split at h
    · cases h
      exact .inr (.inr (by split <;> rfl))
    · cases h
  | changeRole =>
    rw [Platform.step] at h
    split at h <;> cases h
    exact .inr (.inr rfl)
  | check route userId passwordMatches =>
    rw [Platform.step] at h
    split at h <;> cases h
    exact .inr (.inr rfl)
  | commit route userId =>
    rw [Platform.step] at h
    split at h
    · cases h
      exact .inr (.inr (Platform.commit_supervisor _ route userId))
    · cases h
  | _ =>
    cases h
    exact .inr (.inr rfl)

theorem Platform.accountable_step (h : p.supervisor.Accountable) (hstep : p.step bound e = some p')
    (hk : p.KeepsAccounts e) : p'.supervisor.Accountable := by
  obtain ⟨e', rfl, hserved⟩ | ⟨userId, rfl, heq⟩ | heq := Platform.step_supervisor hstep
  · exact h.step hserved hk
  · rw [heq]
    refine removeBots_accountable h fun botId hlt hb => ?_
    obtain ⟨honly, hstarts⟩ := hk botId hlt hb
    exact ⟨honly, hstarts⟩
  · rw [heq]
    exact h

/-- In every run whose steps keep account of the children, the bot of every running child is to run,
or is to be stopped by a command. -/
theorem live_children_accounted (bound : Nat) {p₀ p : Platform} (h₀ : p₀.supervisor.Fresh)
    (hnone : p₀.supervisor.commands = [])
    (h : Run (Meeting (Stepping (Platform.step bound)) fun p e _ => p.KeepsAccounts e) p₀ es p) :
    p.supervisor.Accounts := by
  have hinv : p.supervisor.Accountable :=
    h.invariant (I := fun p => p.supervisor.Accountable)
      (fun p e p' h ⟨hstep, hk⟩ => Platform.accountable_step h hstep hk) (h₀.accountable hnone)
  exact hinv.accounts

/-! ## Deletion of two accounts -/

/-- Every organization has the bot of its number. -/
def oneBotEach : Platform := { organizationOf := fun botId => botId }

/-- Two accounts with a bot each. The first bot is started, and its child runs. -/
def twoAccounts : List Event :=
  [.register, .verifyEmail 0, .register, .verifyEmail 1] ++ started.map .supervisor ++
    [.supervisor (.api .createBot)]

/-- The account deletes itself, and the retention worker finds it when its deletion is due. -/
def accountDeleted (userId : UserId) : List Event :=
  [.check .deleteMe userId true, .commit .deleteMe userId, .wait Platform.retention,
    .anonymizeOne userId]

theorem secondDeleted_keepsAccounts :
    (execWhere (Platform.step 4) Platform.KeepsAccounts oneBotEach
      (twoAccounts ++ accountDeleted 1)).isSome := by decide +kernel

theorem live_children_accounted_secondDeleted :
    ((execWhere (Platform.step 4) Platform.KeepsAccounts oneBotEach
      (twoAccounts ++ accountDeleted 1)).get secondDeleted_keepsAccounts).supervisor.MayRun
        CommandKind.endsChild 0 := by
  have hchild : ∃ c ∈ ((execWhere (Platform.step 4) Platform.KeepsAccounts oneBotEach
      (twoAccounts ++ accountDeleted 1)).get secondDeleted_keepsAccounts).supervisor.children,
        c.isAlive = true ∧ c.botId = 0 := by decide +kernel
  obtain ⟨c, hc, ha, hb⟩ := hchild
  rw [← hb]
  exact live_children_accounted 4 .empty rfl
    (Run.of_execWhere_get secondDeleted_keepsAccounts) c hc ha

theorem firstDeleted_enabled :
    (exec (Platform.step 4) oneBotEach (twoAccounts ++ accountDeleted 0)).isSome := by
  decide +kernel

/-- The rows of the first bot are deleted, and its child runs. -/
theorem live_child_orphaned :
    ∃ p, Run (Stepping (Platform.step 4)) oneBotEach (twoAccounts ++ accountDeleted 0) p ∧
      ¬ p.supervisor.Accounts := by
  refine ⟨_, Run.of_exec_get firstDeleted_enabled, fun h => ?_⟩
  have hchild : ∃ c ∈ ((exec (Platform.step 4) oneBotEach (twoAccounts ++ accountDeleted 0)).get
      firstDeleted_enabled).supervisor.children, c.isAlive = true ∧
        ((exec (Platform.step 4) oneBotEach (twoAccounts ++ accountDeleted 0)).get
          firstDeleted_enabled).supervisor.bot c.botId = none := by decide +kernel
  obtain ⟨c, hc, ha, hnone⟩ := hchild
  obtain ⟨row, hrow, _⟩ := h c hc ha
  cases hnone.symm.trans hrow

end Tonatiuh.Retention
