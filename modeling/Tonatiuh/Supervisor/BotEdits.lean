import Tonatiuh.Supervisor.DesiredState

/-! The edits of bots.

These are the transactions of `PATCH /:id` of `bots.router.ts`: one reads the state and the
configuration of the bot, the next one writes its row without a condition on the state. The first is
a check, and an edit is safe where nothing takes the bot out of the states in which it may be edited
before the second. -/

namespace Tonatiuh.Supervisor

open Async Transition

variable {bound : Nat} {botId : BotId} {row row' : TradingBot} {i : InstanceId} {γ : Type}

/-! ## Leaving the states in which a bot may be edited -/

/-- `['STOPPED','FAILED'].includes(current.actual_state)`. -/
def ActualState.isEditable : ActualState → Bool
  | .stopped | .failed => true
  | _ => false

/-- The request makes a bot with this row one that starts or runs. -/
def Request.activates (i : InstanceId) (botId : BotId) (row : TradingBot) : Request → Bool
  | .updateStarting botId' => botId' = botId
  | .updateRunning botId' => botId' = botId && row.workerInstanceId = some i
  | .updateSuspended botId' => botId' = botId && row.desiredState = .running
  | _ => false

/-- A command for the bot is accepted, or a worker makes it one that starts or runs. -/
def System.activates (s : System) (botId : BotId) : Event → Bool
  | .api (.command botId' _ _) | .api (.deleteBot botId' _) => botId' = botId
  | .serve i n _ => (s.bot botId).any fun row =>
    ((s.instances i).tasks[n]?.bind (·.pending)).any fun r => r.activates i botId row
  | _ => false

/-- The row after an update that keeps the bot editable, or is one that `activates` tells of. -/
theorem System.editable_updateBot {s : System} {f : TradingBot → TradingBot} {b : BotId}
    {P : TradingBot → Prop} (hrow : (s.updateBot b f).bot botId = some row')
    (hf : ∀ row, b = botId → row.actualState.isEditable → (f row).actualState.isEditable ∨ P row) :
    ∃ row, s.bot botId = some row ∧
      (row.actualState.isEditable → row'.actualState.isEditable ∨ P row) := by
  rw [System.bot_updateBot] at hrow
  split at hrow
  next hb =>
    obtain ⟨row, hfound, rfl⟩ := Option.map_eq_some_iff.mp hrow
    exact ⟨row, hfound, hf row hb⟩
  next => exact ⟨row', hrow, .inl⟩

theorem complete_editable {r : Request} {a : r.Answer} {s t : System} {choice : Choice}
    (h : s.complete bound i r choice = some (a, t)) (hrow : t.bot botId = some row') :
    ∃ row, s.bot botId = some row ∧
      (row.actualState.isEditable → row'.actualState.isEditable ∨ r.activates i botId row) := by
  by_cases hr : r.changesBots = false
  · rw [System.bot, (complete_unchanged h).bots hr] at hrow
    exact ⟨row', hrow, .inl⟩
  cases choice with
  | done =>
    cases r with
    | updateStarting b =>
      cases h
      exact System.editable_updateBot hrow fun _ hb _ => .inr (decide_eq_true hb)
    | updateStopped =>
      cases h
      exact System.editable_updateBot hrow fun _ _ _ => .inl rfl
    | updateRunning b =>
      cases h
      refine System.editable_updateBot hrow fun row hb hedit => ?_
      split
      next howner => exact .inr (by simp [Request.activates, hb, howner])
      next => exact .inl hedit
    | updateFailed =>
      cases h
      refine System.editable_updateBot hrow fun row _ hedit => .inl ?_
      split
      next => rfl
      next => exact hedit
    | updateSuspended b =>
      cases h
      refine System.editable_updateBot hrow fun row hb hedit => ?_
      split
      next hdesired => exact .inr (by simp [Request.activates, hb, hdesired])
      next => exact .inl hedit
    | updateDesiredState =>
      cases h
      exact System.editable_updateBot hrow fun _ _ hedit => .inl hedit
    | deleteRows b =>
      cases h
      rw [System.bot, List.getElem?_set] at hrow
      split at hrow
      next =>
        split at hrow
        all_goals cases hrow
      next => exact ⟨row', hrow, .inl⟩
    | resetStopped =>
      cases h
      rw [System.bot, List.getElem?_map, Option.join_eq_some_iff] at hrow
      obtain ⟨row?, hfound, hrow⟩ := Option.map_eq_some_iff.mp hrow
      obtain ⟨row, rfl, rfl⟩ := Option.map_eq_some_iff.mp hrow
      refine ⟨row, by rw [System.bot, hfound]; rfl, fun hedit => .inl ?_⟩
      split
      next => rfl
      next => exact hedit
    | _ => exact absurd rfl hr
  | _ => cases r <;> first | exact absurd rfl hr | cases h

theorem serve_editable {r : Request} {x : Except String r.Answer} {s t : System} {outcome : Outcome}
    (h : s.serve bound i r outcome = some (x, t)) (hrow : t.bot botId = some row') :
    ∃ row, s.bot botId = some row ∧
      (row.actualState.isEditable → row'.actualState.isEditable ∨ r.activates i botId row) := by
  obtain ⟨_, _, _, _, hc⟩ | ⟨_, _, _, _, rfl⟩ | ⟨_, _, _, _, _, _, hc⟩ := serve_cases h
  · exact complete_editable hc hrow
  · exact ⟨row', hrow, .inl⟩
  · exact complete_editable hc hrow

/-- A bot that may be edited may be edited after a step, unless `activates` tells of it. -/
theorem System.editable_step {s s' : System} {e : Event} (h : s.step bound e = some s')
    (hlt : botId < s.bots.length) (hrow : s'.bot botId = some row') :
    ∃ row, s.bot botId = some row ∧
      (row.actualState.isEditable → row'.actualState.isEditable ∨ s.activates botId e) := by
  cases System.step_cases h with
  | api hcall =>
    obtain ⟨-, rfl⟩ | ⟨b, command, createdAt, -, rfl, heq⟩ := System.call_cases hcall
    · rw [System.bot, List.getElem?_append_left hlt] at hrow
      exact ⟨row', hrow, .inl⟩
    · refine System.editable_updateBot hrow fun row hb _ => .inr ?_
      rcases heq with rfl | ⟨rfl, -⟩
      · exact decide_eq_true hb
      · exact decide_eq_true hb
  | boot => exact ⟨row', hrow, .inl⟩
  | @serve i n r k history outcome x t hup htask hserve =>
    obtain ⟨row, hfound, hedit⟩ := serve_editable hserve hrow
    refine ⟨row, hfound, fun he => (hedit he).imp_right fun hactivates => ?_⟩
    simp only [System.activates, hfound, Option.any_some, htask, Option.bind_some]
    exact hactivates
  | disconnect =>
    obtain ⟨lock, heq⟩ := s.unlocked_eq _
    rw [heq] at hrow
    exact ⟨row', hrow, .inl⟩
  | crash =>
    obtain ⟨lock, heq⟩ := s.unlocked_eq _
    rw [heq] at hrow
    exact ⟨row', hrow, .inl⟩
  | other hp =>
    rw [System.bot, hp.bots] at hrow
    exact ⟨row', hrow, .inl⟩

theorem System.step_length {s s' : System} {e : Event} (h : s.step bound e = some s') :
    s.bots.length ≤ s'.bots.length := by
  cases System.step_cases h with
  | api hcall =>
    obtain ⟨-, rfl⟩ | ⟨b, command, createdAt, -, rfl, -⟩ := System.call_cases hcall
    · simp
    · exact Nat.le_of_eq (List.length_modify ..).symm
  | boot => exact Nat.le_refl _
  | serve _ _ hserve => exact Nat.le_of_eq (serve_length hserve).symm
  | disconnect =>
    obtain ⟨lock, heq⟩ := s.unlocked_eq _
    rw [heq]
  | crash =>
    obtain ⟨lock, heq⟩ := s.unlocked_eq _
    rw [heq]
    exact Nat.le_refl _
  | other hp => rw [hp.bots]

/-! ## Requests -/

/-- `name` and `configuration` of a row. -/
structure BotDetails (γ : Type) where
  name : String
  configuration : γ
  deriving DecidableEq

/-- `configuration` is what the row is to get: that of the request, or the one that was read. -/
inductive PatchStage (γ : Type) where
  | select
  | update (configuration : γ)
  | ended
  deriving DecidableEq

structure Patch (γ : Type) where
  botId : BotId
  name : Option String
  configuration : Option γ
  stage : PatchStage γ := .select
  deriving DecidableEq

/-- The check has passed, and the row is not written yet. -/
def Patch.isChecked (p : Patch γ) : Bool :=
  match p.stage with
  | .update _ => true
  | _ => false

/-- `details` are those of the bots, in the order in which they are created. -/
structure Editing (γ : Type) where
  system : System := {}
  details : List (BotDetails γ) := []
  patches : List (Patch γ) := []

namespace Editing

def setStage (s : Editing γ) (n : Nat) (p : Patch γ) (stage : PatchStage γ) : Editing γ :=
  { s with patches := s.patches.set n { p with stage } }

/-- The first query, the check, and the validation of the configuration. -/
def select (s : Editing γ) (n : Nat) (p : Patch γ) : Editing γ :=
  s.setStage n p
    (match s.system.bot p.botId, s.details[p.botId]? with
    | some row, some current =>
      if row.actualState.isEditable then .update (p.configuration.getD current.configuration)
      else .ended
    | _, _ => .ended)

/-- The second query, which finds no row when the bot has been deleted. -/
def update (s : Editing γ) (n : Nat) (p : Patch γ) (configuration : γ) : Editing γ :=
  let s' := s.setStage n p .ended
  if (s.system.bot p.botId).isSome then
    { s' with details := s.details.modify p.botId fun details =>
        { name := p.name.getD details.name, configuration } }
  else s'

/-- The next query of a request. -/
def run (s : Editing γ) (n : Nat) : Option (Editing γ) := do
  let p ← s.patches[n]?
  match p.stage with
  | .select => s.select n p
  | .update configuration => s.update n p configuration
  | .ended => none

/-- The request fails. -/
def fail (s : Editing γ) (n : Nat) : Option (Editing γ) := do
  let p ← s.patches[n]?
  s.setStage n p .ended

end Editing

inductive EditEvent (γ : Type) where
  | create (details : BotDetails γ)
  | system (e : Event)
  | patch (botId : BotId) (name : Option String) (configuration : Option γ)
  | run (n : Nat)
  | fail (n : Nat)

def Event.isCreation : Event → Bool
  | .api .createBot => true
  | _ => false

def Editing.step (bound : Nat) (s : Editing γ) : EditEvent γ → Option (Editing γ)
  | .create details =>
    (s.system.step bound (.api .createBot)).map fun system =>
      { s with system, details := s.details ++ [details] }
  | .system e =>
    if e.isCreation then none else (s.system.step bound e).map fun system => { s with system }
  | .patch botId name configuration =>
    some { s with patches := s.patches ++ [{ botId, name, configuration }] }
  | .run n => s.run n
  | .fail n => s.fail n

/-! ## Invariant -/

namespace Editing

variable {s s' : Editing γ} {e : EditEvent γ} {n : Nat} {p : Patch γ}

/-- The condition: no step of the system takes a bot out of the states in which it may be edited
while an edit of it has been checked and is not written yet. -/
def keepsChecked (s : Editing γ) : EditEvent γ → Bool
  | .system e => s.patches.all fun p => !p.isChecked || !s.system.activates p.botId e
  | _ => true

/-- A bot whose edit has been checked may be edited, unless its row is gone. -/
def Checked (s : Editing γ) : Prop :=
  ∀ p ∈ s.patches, p.isChecked → p.botId < s.system.bots.length ∧
    ∀ row, s.system.bot p.botId = some row → row.actualState.isEditable

/-- The event writes the row of the bot. -/
def Writes (s : Editing γ) (e : EditEvent γ) (botId : BotId) (row : TradingBot) : Prop :=
  ∃ n p configuration, e = .run n ∧ s.patches[n]? = some p ∧ p.stage = .update configuration ∧
    p.botId = botId ∧ s.system.bot botId = some row

/-- An edit leaves its stage. -/
theorem Checked.setStage (hi : s.Checked) {stage : PatchStage γ}
    (h : ({ p with stage } : Patch γ).isChecked → p.botId < s.system.bots.length ∧
      ∀ row, s.system.bot p.botId = some row → row.actualState.isEditable) :
    (s.setStage n p stage).Checked := by
  intro p' hmem hchecked
  rcases List.mem_or_eq_of_mem_set hmem with hold | rfl
  · exact hi p' hold hchecked
  · exact h hchecked

theorem Checked.step (hi : s.Checked) (hkeeps : s.keepsChecked e) (h : s.step bound e = some s') :
    s'.Checked := by
  cases e with
  | create details =>
    simp only [Editing.step] at h
    obtain ⟨system, hstep, rfl⟩ := Option.map_eq_some_iff.mp h
    cases hstep
    intro p hmem hchecked
    obtain ⟨hlt, hrow⟩ := hi p hmem hchecked
    refine ⟨Nat.lt_of_lt_of_le hlt (by simp), fun row hfound => hrow row ?_⟩
    rwa [System.bot, List.getElem?_append_left hlt] at hfound
  | system e =>
    simp only [Editing.step] at h
    split at h
    next => cases h
    next =>
      obtain ⟨system, hstep, rfl⟩ := Option.map_eq_some_iff.mp h
      intro p hmem hchecked
      obtain ⟨hlt, hrow⟩ := hi p hmem hchecked
      refine ⟨Nat.lt_of_lt_of_le hlt (System.step_length hstep), fun row hfound => ?_⟩
      obtain ⟨row₀, hfound₀, hedit⟩ := System.editable_step hstep hlt hfound
      have hnot := List.all_eq_true.mp hkeeps p hmem
      rw [hchecked, Bool.not_true, Bool.false_or, Bool.not_eq_true'] at hnot
      exact (hedit (hrow row₀ hfound₀)).resolve_right (by simp [hnot])
  | patch botId name configuration =>
    cases h
    intro p hmem hchecked
    rcases List.mem_append.mp hmem with hold | hnew
    · exact hi p hold hchecked
    · rw [List.mem_singleton.mp hnew] at hchecked
      cases hchecked
  | run n =>
    obtain ⟨p, hp, h⟩ := Option.bind_eq_some_iff.mp h
    cases hstage : p.stage with
    | select =>
      rw [hstage] at h
      cases h
      refine hi.setStage fun hchecked => ?_
      split at hchecked
      next row current hfound _ =>
        split at hchecked
        next hedit =>
          refine ⟨System.lt_of_bot hfound, fun row' hfound' => ?_⟩
          rwa [← Option.some.inj (hfound.symm.trans hfound')]
        next => cases hchecked
      next => cases hchecked
    | update configuration =>
      rw [hstage] at h
      cases h
      have hended : (s.setStage n p .ended).Checked := hi.setStage fun hchecked => by cases hchecked
      unfold update
      dsimp only
      split
      · exact hended
      · exact hended
    | ended =>
      rw [hstage] at h
      cases h
  | fail n =>
    obtain ⟨p, hp, h⟩ := Option.bind_eq_some_iff.mp h
    cases h
    exact hi.setStage fun hchecked => by cases hchecked

/-- Only the second query of an edit changes the details of a bot. -/
theorem step_details (h : s.step bound e = some s') {details : BotDetails γ}
    (hfound : s.details[botId]? = some details) (hnot : ∀ row, ¬s.Writes e botId row) :
    s'.details[botId]? = some details := by
  cases e with
  | create =>
    simp only [Editing.step] at h
    obtain ⟨system, -, rfl⟩ := Option.map_eq_some_iff.mp h
    exact (List.getElem?_append_left (List.getElem?_eq_some_iff.mp hfound).1).trans hfound
  | system e =>
    simp only [Editing.step] at h
    split at h
    next => cases h
    next =>
      obtain ⟨system, -, rfl⟩ := Option.map_eq_some_iff.mp h
      exact hfound
  | patch =>
    cases h
    exact hfound
  | run n =>
    obtain ⟨p, hp, h⟩ := Option.bind_eq_some_iff.mp h
    cases hstage : p.stage with
    | select =>
      rw [hstage] at h
      cases h
      exact hfound
    | update configuration =>
      rw [hstage] at h
      cases h
      unfold update
      dsimp only
      split
      next hrow =>
        obtain ⟨row, hrow⟩ := Option.isSome_iff_exists.mp hrow
        have hne : p.botId ≠ botId := by
          rintro rfl
          exact hnot row ⟨n, p, configuration, rfl, hp, hstage, rfl, hrow⟩
        exact (List.getElem?_modify_ne _ _ hne).trans hfound
      next => exact hfound
    | ended =>
      rw [hstage] at h
      cases h
  | fail n =>
    obtain ⟨p, -, h⟩ := Option.bind_eq_some_iff.mp h
    cases h
    exact hfound

/-- The details of a bot change in a step that finds it stopped or failed. -/
def EditsStopped (s : Editing γ) (e : EditEvent γ) (s' : Editing γ) : Prop :=
  (∀ botId row, s.Writes e botId row → row.actualState.isEditable) ∧
    ∀ (botId : BotId) (details : BotDetails γ), s.details[botId]? = some details →
      s'.details[botId]? ≠ some details →
        ∃ row, s.system.bot botId = some row ∧ row.actualState.isEditable

end Editing

/-- In a run in which no step takes a bot out of the states in which it may be edited between the
two queries of an edit, each edit writes a row in one of these states. -/
theorem edits_stopped {system : System} {s : Editing γ} {es : List (EditEvent γ)}
    {details : List (BotDetails γ)}
    (h : Run (Meeting (Stepping (Editing.step bound)) fun s e _ => s.keepsChecked e)
      { system, details } es s) :
    Run (Meeting (Stepping (Editing.step bound)) fun s e s' => s.EditsStopped e s')
      { system, details } es s := by
  refine h.mono_invariant (I := Editing.Checked) (fun s e s' hi ⟨hstep, hkeeps⟩ => ?_) nofun
  have hwrites (botId : BotId) (row : TradingBot) (hw : s.Writes e botId row) :
      row.actualState.isEditable := by
    obtain ⟨n, p, configuration, -, hp, hstage, rfl, hrow⟩ := hw
    exact (hi p (List.mem_of_getElem? hp) (by rw [Patch.isChecked, hstage])).2 row hrow
  refine ⟨⟨hstep, hwrites, fun botId details hfound hchanged => ?_⟩, hi.step hkeeps hstep⟩
  by_contra hnot
  refine hchanged (Editing.step_details hstep hfound fun row hw => hnot ?_)
  obtain ⟨n, p, configuration, he, hp, hstage, hb, hrow⟩ := hw
  exact ⟨row, hrow, hwrites botId row ⟨n, p, configuration, he, hp, hstage, hb, hrow⟩⟩

/-- A bot is edited and started, and another edit is refused. -/
def editedBefore : List (EditEvent Nat) := [
  .create ⟨"grid", 1⟩, .patch 0 none (some 2), .run 0, .run 0, .system (.api (.command 0 .start 0)),
  .patch 0 (some "fast grid") none, .run 1]

theorem editedBefore_enabled :
    (execWhere (Editing.step 4) (fun s e => s.keepsChecked e) {} editedBefore).isSome := by
  decide +kernel

theorem edits_stopped_editedBefore :
    Run (Meeting (Stepping (Editing.step 4)) fun s e s' => s.EditsStopped e s') {} editedBefore
      ((execWhere (Editing.step 4) (fun s e => s.keepsChecked e) {} editedBefore).get
        editedBefore_enabled) :=
  edits_stopped (Run.of_execWhere_get editedBefore_enabled)

/-- The bot is started between the two queries of an edit. -/
def startedBetween : List (EditEvent Nat) := [
  .create ⟨"grid", 1⟩, .patch 0 none (some 2), .run 0, .system (.api (.command 0 .start 0))]

theorem edits_starting : ∃ s s', Run (Stepping (Editing.step 4)) {} startedBetween s ∧
    s.step 4 (.run 0) = some s' ∧ ((s.system.bot 0).any fun row => row.actualState = .starting) ∧
    s.details = [⟨"grid", 1⟩] ∧ s'.details = [⟨"grid", 2⟩] :=
  Run.exists_step (by decide +kernel)

end Tonatiuh.Supervisor
