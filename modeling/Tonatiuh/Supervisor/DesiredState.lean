import Tonatiuh.Supervisor.CommandRows

/-! `desired_state`: the worker stores it again for each command that it has claimed, before it does
anything else for it. -/

namespace Tonatiuh.Supervisor

open Async Transition

/-! ## From the claim to the update -/

/-- Has a command been claimed whose `desired_state` has not been stored again? -/
def claimedAfter (claimed : Bool) : (r : Request) → Except String r.Answer → Bool
  | .claimCommand, .ok command => command.isSome
  | .updateDesiredState .., _ => false
  | _, _ => claimed

def Request.isStoring : Request → Bool
  | .updateDesiredState .. => true
  | _ => false

/-- A command that a task is to store was claimed just now. -/
theorem claimedAfter_cases {r : Request} {x : Except String r.Answer} (hr : r.isStoring = claimed)
    (h : claimedAfter claimed r x = true) : ∃ c,
      (⟨r, x⟩ : (r : Request) × Except String r.Answer) = ⟨.claimCommand, .ok (some c)⟩ := by
  cases r with
  | claimCommand =>
    match x with
    | .ok (some c) => exact ⟨c, rfl⟩
    | .ok none => cases h
    | .error _ => cases hr.trans h
  | updateDesiredState => cases x <;> cases h
  | _ => cases x <;> cases hr.trans h

/-- Nothing is asked for between `claimCommand` and `updateDesiredState`. -/
def claimContract : Contract api Unit Bool String :=
  .noting claimedAfter fun r claimed => r.isStoring = claimed

/-- The requests that neither claim a command nor store `desired_state`. -/
def Request.isQuiet : Request → Bool
  | .claimCommand | .updateDesiredState .. => false
  | _ => true

theorem Request.isStoring_of_isQuiet {r : Request} (h : r.isQuiet = true) :
    r.isStoring = false := by
  cases r with
  | updateDesiredState => cases h
  | _ => rfl

theorem claimedAfter_of_isQuiet {r : Request} {x : Except String r.Answer} (h : r.isQuiet = true) :
    claimedAfter claimed r x = claimed := by
  cases r with
  | claimCommand | updateDesiredState => cases h
  | _ => rfl

/-- The program neither claims a command nor stores `desired_state`. -/
abbrev Quiet (p : Prog α) : Prop := p.Sends fun (r : Request) => r.isQuiet = true

theorem Quiet.claim {p : Prog α} (h : Quiet p) :
    Safe claimContract (fun _ t => t.2 = false) p ((), false) :=
  .noting_sends (fun _ hr => Request.isStoring_of_isQuiet hr)
    (fun _ _ hr => claimedAfter_of_isQuiet hr) h ()

theorem failBot_quiet (botId : BotId) (message : String) :
    Quiet (failBot botId message) :=
  .tryCatch (.request rfl) fun _ => .pure _

theorem startBot_quiet (botId : BotId) : Quiet (startBot botId) := by
  refine .bind (.request rfl) fun running => ?_
  split
  next => exact .pure _
  next =>
    refine .bind (.request rfl) fun bot => ?_
    split
    next => exact .throw _
    next config _ =>
      refine .bind (.request rfl) fun _ => ?_
      refine .bind (.request rfl) fun _ => ?_
      refine .bind (.request rfl) fun _ => ?_
      refine .bind (.request rfl) fun child => ?_
      exact .bind (.request rfl) fun _ => .request rfl

theorem restartTimer_quiet (botId : BotId) (attempt : Nat) :
    Quiet (restartTimer botId attempt) := by
  refine .bind (.request rfl) fun _ => ?_
  refine .bind (.orUndefined (.request rfl)) fun desired => ?_
  refine .bind (.request rfl) fun stopping => ?_
  split
  next => exact .tryCatch (startBot_quiet botId) fun error => failBot_quiet botId error
  next => exact .pure _

theorem stopBot_quiet (botId : BotId) (closePosition : Bool) :
    Quiet (stopBot botId closePosition) := by
  refine .bind (.request rfl) fun child => ?_
  refine .bind ?_ fun clean => ?_
  · cases child with
    | none => exact .pure _
    | some child => exact .bind (.request rfl) fun _ => .request rfl
  split
  next => exact .bind (.request rfl) fun _ => .request rfl
  next =>
    refine .bind (.request rfl) fun _ => ?_
    exact .bind (failBot_quiet botId _) fun _ => .throw _

theorem suspendBot_quiet (botId : BotId) (child : Option ChildId) :
    Quiet (suspendBot botId child) := by
  have hrest : Quiet (do request (.flushRuntimeLogs botId); request (.updateSuspended botId)) :=
    .bind (.request rfl) fun _ => .request rfl
  cases child with
  | none => exact hrest
  | some child => exact .bind (.request rfl) fun _ => hrest

theorem deleteStaged_quiet (botId : BotId) : Quiet (deleteStaged botId) := by
  refine .bind (.request rfl) fun staged => ?_
  refine .bind (.tryCatch (.request rfl) fun error => ?_) fun _ => ?_
  · split
    next => exact .bind (.orUndefined (.request rfl)) fun _ => .throw _
    next => exact .throw _
  · split
    next => exact .bind (.orUndefined (.request rfl)) fun _ => .pure _
    next => exact .pure _

theorem deleteBot_quiet (botId : BotId) : Quiet (deleteBot botId) := by
  have hdata : Quiet (deleteData botId) := by
    refine .bind (.request rfl) fun _ => ?_
    refine .bind (.request rfl) fun _ => ?_
    refine .bind (.request rfl) fun databaseExists => ?_
    dsimp only
    split
    next => exact .bind (.request rfl) fun _ => deleteStaged_quiet botId
    next => exact deleteStaged_quiet botId
  refine .bind (.request rfl) fun running => ?_
  split
  next => exact .bind (stopBot_quiet botId false) fun _ => hdata
  next => exact hdata

theorem perform_quiet (botId : BotId) (command : CommandKind) :
    Quiet (perform botId command) := by
  cases command with
  | delete => exact deleteBot_quiet botId
  | stop => exact stopBot_quiet botId false
  | emergencyStop => exact stopBot_quiet botId true
  | restart => exact .bind (stopBot_quiet botId false) fun _ => startBot_quiet botId
  | start => exact startBot_quiet botId

theorem startDesired_quiet (l : List BotId) : Quiet (startDesired l) := by
  induction l with
  | nil => exact .pure _
  | cons botId rest ih =>
    refine .bind (.request rfl) fun started => ?_
    dsimp only
    split
    next =>
      exact .bind (.tryCatch (startBot_quiet botId) fun error => failBot_quiet botId error)
        fun _ => ih
    next => exact ih

/-- The first thing that is done for a command is to store its `desired_state`. -/
theorem handleCommand_claim (command : BotCommand) :
    Safe claimContract (fun _ t => t.2 = false) (handleCommand command) ((), true) := by
  refine Safe.tryCatch (Q := fun _ t => t.2 = false) ?_ (fun _ _ h => h) ?_
  · refine Safe.noting_bind rfl (fun _ m => ?_) fun _ _ => rfl
    exact Quiet.claim
      (.bind (perform_quiet _ _) fun _ => .request rfl)
  · rintro message ⟨_, _⟩ rfl
    exact Quiet.claim (.bind (.request rfl) fun _ => failBot_quiet _ _)

theorem handleCommands_claim (rounds : Nat) :
    Safe claimContract (fun _ t => t.2 = false) (handleCommands rounds) ((), false) := by
  induction rounds with
  | zero => trivial
  | succ rounds ih =>
    -- the end of a round
    have hrest : Safe claimContract (fun _ t => t.2 = false) (do
        let running ← request .hasProcesses
        if running then request .heartbeat
        handleCommands rounds) ((), false) := by
      refine Safe.noting_bind rfl (fun running m => ?_) fun _ _ => rfl
      dsimp only
      split
      next => exact Safe.noting_bind rfl (fun _ _ => ih) fun _ _ => rfl
      next => exact ih
    refine Safe.noting_bind rfl (fun stopping m => ?_) fun _ _ => rfl
    split
    next => exact rfl
    next =>
      refine Safe.noting_bind rfl (fun command m => ?_) fun _ _ => rfl
      cases command with
      | some command =>
        refine Safe.bind (handleCommand_claim command) ?_ fun _ _ h => h
        rintro _ ⟨_, _⟩ rfl
        exact hrest
      | none => exact Safe.noting_bind rfl (fun _ _ => hrest) fun _ _ => rfl

theorem main_claim (bound rounds : Nat) :
    Safe claimContract (fun _ t => t.2 = false) (main bound rounds) ((), false) := by
  have hleader : Safe claimContract (fun _ t => t.2 = false) (runLeader bound) ((), false) := by
    refine Safe.noting_bind rfl (fun _ m => ?_) fun _ _ => rfl
    refine Safe.bind (Q := fun _ t => t.2 = false) ?_ ?_ fun _ _ h => h
    · exact Quiet.claim (.bind (.request rfl) fun _ =>
        .bind (.request rfl) fun desired => startDesired_quiet desired)
    rintro _ ⟨_, _⟩ rfl
    refine Safe.bind (handleCommands_claim bound) ?_ fun _ _ h => h
    rintro _ ⟨_, _⟩ rfl
    refine Quiet.claim (.bind (.request rfl) fun suspended => ?_)
    refine .bind (.request rfl) fun _ => ?_
    refine .bind (.request rfl) fun _ => ?_
    exact .bind (.request rfl) fun _ => .request rfl
  induction rounds with
  | zero => trivial
  | succ rounds ih =>
    have hrest : Safe claimContract (fun _ t => t.2 = false) (do
        let stopping ← request .isStopping
        if !stopping then request (.sleep 5000)
        main bound rounds) ((), false) := by
      refine Safe.noting_bind rfl (fun stopping m => ?_) fun _ _ => rfl
      dsimp only
      split
      next => exact Safe.noting_bind rfl (fun _ _ => ih) fun _ _ => rfl
      next => exact ih
    refine Safe.noting_bind rfl (fun stopping m => ?_) fun _ _ => rfl
    split
    next => exact Quiet.claim (.request rfl)
    next =>
      refine Safe.noting_bind rfl (fun _ m => ?_) fun _ _ => rfl
      refine Safe.noting_bind rfl (fun locked m => ?_) fun _ _ => rfl
      dsimp only
      split
      next =>
        refine Safe.bind hleader ?_ fun _ _ h => h
        rintro _ ⟨_, _⟩ rfl
        exact hrest
      next => exact hrest

/-- The task has claimed a command and not stored its `desired_state` yet. -/
def Task.isClaimed (t : Task) : Bool :=
  t.history.foldr (fun e claimed => claimedAfter claimed e.1 e.2) false

theorem Spawned.claim {p : Prog Unit} (h : Spawned bound p) :
    Safe claimContract (fun _ t => t.2 = false) p ((), false) := by
  cases h with
  | main => exact main_claim bound bound
  | failBot => exact Quiet.claim (failBot_quiet _ _)
  | markRunning => exact Quiet.claim (.request rfl)
  | restartTimer => exact Quiet.claim (restartTimer_quiet _ _)
  | suspendBot => exact Quiet.claim (suspendBot_quiet _ _)

/-- Every task stores `desired_state` first. -/
def System.StoresFirst (s : System) : Prop := ∀ i, ∀ t ∈ (s.instances i).tasks,
  Safe claimContract (fun _ t => t.2 = false) t.program ((), t.isClaimed)

theorem System.Fresh.storesFirst {s : System} (h : s.Fresh) : s.StoresFirst := by
  intro i t ht
  rw [h.instances] at ht
  cases ht

theorem System.StoresFirst.pending {s : System} (h : s.StoresFirst) {t : Task}
    (ht : t ∈ (s.instances i).tasks) (hr : t.pending = some r) : r.isStoring = t.isClaimed := by
  have hsafe := h i t ht
  obtain ⟨program, history⟩ := t
  obtain ⟨k, rfl⟩ := Program.eq_await hr
  exact Safe.noting_pending hsafe

theorem System.StoresFirst.step {s s' : System} (h : s.StoresFirst)
    (hstep : s.step bound e = some s') : s'.StoresFirst := by
  intro i t ht
  cases System.task_step hstep ht with
  | kept _ ht => exact h i t ht
  | spawned hp => exact hp.claim
  | served _ hn _ => exact Safe.noting_served (h i _ (List.mem_of_getElem? hn)) _

/-! ## The rows of bots -/

/-- A call of the API creates a bot, or stores a command for one. -/
theorem System.call_cases {call : ApiCall} {s s' : System} (h : s.call call = some s') :
    (call = .createBot ∧ s' = { s with bots := s.bots ++ [some {}] }) ∨
      ∃ botId command createdAt, (s.bot botId).isSome ∧ s' = s.accept botId command createdAt ∧
        (call = .command botId command createdAt ∨
          (call = .deleteBot botId createdAt ∧ command = .delete)) := by
  cases call with
  | createBot =>
    cases h
    exact .inl ⟨rfl, rfl⟩
  | command botId command createdAt =>
    simp only [System.call] at h
    split at h
    next hb =>
      cases h
      exact .inr ⟨botId, command, createdAt, hb.1, rfl, .inl rfl⟩
    next => cases h
  | deleteBot botId createdAt =>
    simp only [System.call] at h
    split at h
    next hb =>
      cases h
      exact .inr ⟨botId, .delete, createdAt, Option.isSome_of_any hb, rfl, .inr ⟨rfl, rfl⟩⟩
    next => cases h

theorem System.bot_updateBot {s : System} {f : TradingBot → TradingBot} :
    (s.updateBot botId f).bot botId' =
      if botId = botId' then (s.bot botId').map f else s.bot botId' := by
  rw [System.bot, System.updateBot, List.getElem?_modify, System.bot]
  cases s.bots[botId']? with
  | none => split <;> rfl
  | some row => split <;> rfl

/-- An update that says nothing of `desired_state`. -/
theorem System.desiredState_updateBot {s : System} {f : TradingBot → TradingBot}
    (hf : ∀ row, (f row).desiredState = row.desiredState) :
    ((s.updateBot botId f).bot botId').map (·.desiredState) =
      (s.bot botId').map (·.desiredState) := by
  rw [System.bot_updateBot]
  split
  next =>
    rw [Option.map_map]
    exact congrArg (Option.map · _) (funext hf)
  next => rfl

/-- The `desired_state` that a request stores for the bot. -/
def Request.storedState (botId : BotId) : Request → Option DesiredState
  | .updateDesiredState botId' desiredState => if botId' = botId then some desiredState else none
  | _ => none

theorem Request.eq_of_storedState {r : Request} (h : r.storedState botId = some d) :
    r = .updateDesiredState botId d := by
  cases r with
  | updateDesiredState =>
    simp only [Request.storedState] at h
    split at h
    next hb =>
      cases h
      rw [hb]
    next => cases h
  | _ => cases h

theorem Request.isStoring_of_storedState {r : Request} (h : r.storedState botId = some d) :
    r.isStoring = true := by
  rw [Request.eq_of_storedState h]
  rfl

/-- The request deletes the row of the bot. -/
def Request.deletes (botId : BotId) : Request → Bool
  | .deleteRows botId' => botId' = botId
  | _ => false

/-- Only `updateDesiredState` changes the `desired_state` of a row, and only `deleteRows` deletes
it. -/
theorem complete_desiredState {r : Request} {a : r.Answer} {s t : System}
    (h : s.complete bound i r choice = some (a, t)) (botId : BotId) :
    (t.bot botId).map (·.desiredState) = if r.deletes botId then none else
      (s.bot botId).map fun row => (r.storedState botId).getD row.desiredState := by
  by_cases hr : r.changesBots = false
  · rw [System.bot, (complete_unchanged h).bots hr]
    cases r with
    | updateDesiredState | deleteRows => cases hr
    | _ => rfl
  cases choice with
  | done =>
    cases r with
    | updateStarting | updateStopped =>
      cases h
      exact System.desiredState_updateBot fun _ => rfl
    | updateRunning | updateFailed | updateSuspended =>
      cases h
      refine System.desiredState_updateBot fun _ => ?_
      split <;> rfl
    | updateDesiredState botId' desiredState =>
      cases h
      rw [System.bot_updateBot]
      simp only [Request.storedState, Request.deletes]
      by_cases hb : botId' = botId
      · rw [if_pos hb, if_pos hb, Option.map_map]
        rfl
      · rw [if_neg hb, if_neg hb]
        rfl
    | deleteRows botId' =>
      cases h
      rw [System.bot, List.getElem?_set]
      by_cases hb : botId' = botId
      · rw [if_pos hb, Request.deletes, if_pos (decide_eq_true hb)]
        split <;> rfl
      · rw [if_neg hb, Request.deletes, if_neg (by simpa using hb)]
        rfl
    | resetStopped =>
      cases h
      rw [System.bot, List.getElem?_map, System.bot]
      cases s.bots[botId]? with
      | none => rfl
      | some row? =>
        cases row? with
        | none => rfl
        | some row =>
          refine congrArg some ?_
          dsimp only
          split <;> rfl
    | _ => exact absurd rfl hr
  | _ => cases r <;> first | exact absurd rfl hr | cases h

theorem serve_desiredState {r : Request} {x : Except String r.Answer} {s t : System}
    (h : s.serve bound i r outcome = some (x, t)) (hrow : t.bot botId = some row) :
    ∃ row₀, s.bot botId = some row₀ ∧
      (row.desiredState = (r.storedState botId).getD row₀.desiredState ∨
        (row = row₀ ∧ ∃ message, outcome = .rejected message)) := by
  have hcomplete {a : r.Answer} {choice : Choice}
      (hc : s.complete bound i r choice = some (a, t)) : ∃ row₀, s.bot botId = some row₀ ∧
        row.desiredState = (r.storedState botId).getD row₀.desiredState := by
    have hd := complete_desiredState hc botId
    rw [hrow] at hd
    split at hd
    next => cases hd
    next =>
      obtain ⟨row₀, hrow₀, hd⟩ := Option.map_eq_some_iff.mp hd.symm
      exact ⟨row₀, hrow₀, hd.symm⟩
  obtain ⟨_, _, _, _, hc⟩ | ⟨message, rfl, _, _, rfl⟩ | ⟨_, _, _, _, _, _, hc⟩ := serve_cases h
  · obtain ⟨row₀, hrow₀, hd⟩ := hcomplete hc
    exact ⟨row₀, hrow₀, .inl hd⟩
  · exact ⟨row, hrow, .inr ⟨rfl, message, rfl⟩⟩
  · obtain ⟨row₀, hrow₀, hd⟩ := hcomplete hc
    exact ⟨row₀, hrow₀, .inl hd⟩

theorem complete_length {r : Request} {a : r.Answer} {s t : System}
    (h : s.complete bound i r choice = some (a, t)) : t.bots.length = s.bots.length := by
  by_cases hr : r.changesBots = false
  · rw [(complete_unchanged h).bots hr]
  cases choice with
  | done =>
    cases r with
    | updateStarting | updateStopped | updateRunning | updateFailed | updateSuspended
    | updateDesiredState =>
      cases h
      exact List.length_modify ..
    | deleteRows =>
      cases h
      exact List.length_set
    | resetStopped =>
      cases h
      exact List.length_map _
    | _ => exact absurd rfl hr
  | _ => cases r <;> first | exact absurd rfl hr | cases h

theorem serve_length {r : Request} {x : Except String r.Answer} {s t : System}
    (h : s.serve bound i r outcome = some (x, t)) : t.bots.length = s.bots.length := by
  obtain ⟨_, _, _, _, hc⟩ | ⟨_, _, _, _, rfl⟩ | ⟨_, _, _, _, _, _, hc⟩ := serve_cases h
  · exact complete_length hc
  · rfl
  · exact complete_length hc

/-- The commands are for bots that were created. -/
def System.Targeted (s : System) : Prop := ∀ c ∈ s.commands, c.botId < s.bots.length

theorem System.lt_of_bot {s : System} (h : s.bot botId = some row) : botId < s.bots.length := by
  rw [System.bot, Option.join_eq_some_iff] at h
  exact (List.getElem?_eq_some_iff.mp h).1

theorem System.Targeted.of_eq {s s' : System} (h : s.Targeted) (hc : s'.commands = s.commands)
    (hb : s'.bots = s.bots) : s'.Targeted := by
  intro c hmem
  rw [hb]
  exact h c (hc ▸ hmem)

theorem System.Targeted.accept {s : System} {command : CommandKind} (h : s.Targeted)
    (hb : (s.bot botId).isSome) :
    (s.accept botId command createdAt).Targeted := by
  obtain ⟨row, hrow⟩ := Option.isSome_iff_exists.mp hb
  intro c hmem
  change c.botId < (s.bots.modify botId _).length
  rw [List.length_modify]
  rcases List.mem_append.mp hmem with hmem | hmem
  · exact h c hmem
  · cases List.mem_singleton.mp hmem
    exact System.lt_of_bot hrow

theorem System.Targeted.step {s s' : System} (h : s.Targeted) (hstep : s.step bound e = some s') :
    s'.Targeted := by
  cases System.step_cases hstep with
  | api hcall =>
    obtain ⟨_, rfl⟩ | ⟨botId, command, createdAt, hb, rfl, _⟩ := System.call_cases hcall
    · intro c hmem
      exact Nat.lt_of_lt_of_le (h c hmem) (by simp)
    · exact h.accept hb
  | boot => exact h.of_eq rfl rfl
  | @serve i n r k history outcome x u hup hn hserve =>
    intro c hmem
    obtain ⟨j, hj⟩ := List.getElem?_of_mem hmem
    obtain ⟨c₀, hc₀, hrow⟩ := serve_row hserve hj
    have hb : c.botId = c₀.botId := by
      rcases hrow with rfl | ⟨choice, rfl⟩
      · rfl
      · exact Request.onRow_botId ..
    change c.botId < u.bots.length
    rw [hb, serve_length hserve]
    exact h c₀ (List.mem_of_getElem? hc₀)
  | disconnect =>
    obtain ⟨lock, heq⟩ := s.unlocked_eq _
    rw [heq]
    exact h
  | crash =>
    obtain ⟨lock, heq⟩ := s.unlocked_eq _
    rw [heq]
    exact h
  | other hp => exact h.of_eq hp.commands hp.bots

end Tonatiuh.Supervisor
