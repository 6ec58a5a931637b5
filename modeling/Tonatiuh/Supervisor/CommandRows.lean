import Tonatiuh.Supervisor.Progress

/-! The rows of `bot_commands`: what a step does to them, and the tasks that handle them. -/

namespace Tonatiuh.Supervisor

open Async Transition

/-- The rows after a row of a table. -/
theorem forall_mem_drop_succ {l : List α} {P : α → Prop} {n : Nat} :
    (∀ a ∈ l.drop (n + 1), P a) ↔ ∀ (j : Nat) (a : α), n < j → l[j]? = some a → P a := by
  constructor
  · intro h j a hj ha
    refine h a (List.mem_of_getElem? (i := j - (n + 1)) ?_)
    rw [List.getElem?_drop, Nat.add_sub_cancel' hj]
    exact ha
  · intro h a ha
    obtain ⟨j, hj⟩ := List.getElem?_of_mem ha
    rw [List.getElem?_drop] at hj
    exact h _ a (by omega) hj

/-- What a request does to a row when it takes effect. -/
def Request.onRow (r : Request) (choice : Choice) (id : CommandId) (c : CommandRow) : CommandRow :=
  match r, choice with
  | .deleteRows botId, _ => if c.botId = botId then { c with isRemoved := true } else c
  | .claimCommand, .claimed id' => if id' = id then { c with status := .processing } else c
  | .updateSucceeded id', _ =>
    if id' = id then if c.isRemoved then c else { c with status := .succeeded } else c
  | .updateCommandFailed id' error, _ =>
    if id' = id then if c.isRemoved then c else { c with status := .failed, error := some error }
    else c
  | _, _ => c

theorem Request.onRow_eq {r : Request} (hr : r.changesCommands = false) (choice : Choice)
    (id : CommandId) (c : CommandRow) : r.onRow choice id c = c := by
  cases r with
  | deleteRows | claimCommand | updateSucceeded | updateCommandFailed => cases hr
  | _ => rfl

@[simp] theorem Request.onRow_botId (r : Request) (choice : Choice) (id : CommandId)
    (c : CommandRow) : (r.onRow choice id c).botId = c.botId := by
  unfold Request.onRow
  repeat' split
  all_goals rfl

@[simp] theorem Request.onRow_command (r : Request) (choice : Choice) (id : CommandId)
    (c : CommandRow) : (r.onRow choice id c).command = c.command := by
  unfold Request.onRow
  repeat' split
  all_goals rfl

@[simp] theorem Request.onRow_createdAt (r : Request) (choice : Choice) (id : CommandId)
    (c : CommandRow) : (r.onRow choice id c).createdAt = c.createdAt := by
  unfold Request.onRow
  repeat' split
  all_goals rfl

/-- What waits has waited before. -/
theorem Request.onRow_pending {r : Request} {id : CommandId} {c : CommandRow}
    (h : (r.onRow choice id c).status = .pending) : c.status = .pending := by
  unfold Request.onRow at h
  repeat' split at h
  all_goals first
    | exact h
    | cases h

/-- A row keeps its status until it is claimed, and then until its outcome is stored. -/
theorem Request.onRow_status (r : Request) (choice : Choice) (id : CommandId) (c : CommandRow) :
    (r.onRow choice id c).status = c.status ∨ (r.onRow choice id c).status = .processing ∨
      r = .updateSucceeded id ∨ ∃ error, r = .updateCommandFailed id error := by
  cases r with
  | updateSucceeded id' =>
    by_cases hid : id' = id
    · exact .inr (.inr (.inl (hid ▸ rfl)))
    · exact .inl (congrArg CommandRow.status (if_neg hid))
  | updateCommandFailed id' error =>
    by_cases hid : id' = id
    · exact .inr (.inr (.inr ⟨error, hid ▸ rfl⟩))
    · exact .inl (congrArg CommandRow.status (if_neg hid))
  | deleteRows botId =>
    simp only [Request.onRow]
    split <;> exact .inl rfl
  | claimCommand =>
    cases choice with
    | claimed id' =>
      simp only [Request.onRow]
      split
      next => exact .inr (.inl rfl)
      next => exact .inl rfl
    | _ => exact .inl rfl
  | _ => exact .inl rfl

/-- A command is removed with the rows of its bot. -/
theorem Request.onRow_removed {r : Request} {id : CommandId} {c : CommandRow}
    (h : (r.onRow choice id c).isRemoved = true) :
    c.isRemoved = true ∨ r = .deleteRows c.botId := by
  cases r with
  | deleteRows botId =>
    simp only [Request.onRow] at h
    split at h
    next hb => exact .inr (hb ▸ rfl)
    next => exact .inl h
  | claimCommand =>
    cases choice with
    | claimed id' =>
      simp only [Request.onRow] at h
      split at h <;> exact .inl h
    | _ => exact .inl h
  | updateSucceeded | updateCommandFailed =>
    simp only [Request.onRow] at h
    split_ifs at h <;> exact .inl h
  | _ => exact .inl h

theorem Request.onRow_isRemoved {r : Request} {id : CommandId} {c : CommandRow}
    (h : (r.onRow choice id c).isRemoved = false) : c.isRemoved = false := by
  unfold Request.onRow at h
  repeat' split at h
  all_goals first
    | exact h
    | cases h

theorem complete_commands {r : Request} {a : r.Answer} {s t : System}
    (h : s.complete bound i r choice = some (a, t)) (id : CommandId) :
    t.commands[id]? = s.commands[id]?.map (r.onRow choice id) := by
  by_cases hr : r.changesCommands = false
  · rw [(complete_unchanged h).commands hr, funext (Request.onRow_eq hr choice id)]
    exact Option.map_id'.symm
  cases r with
  | deleteRows botId =>
    cases choice with
    | done =>
      cases h
      rw [List.getElem?_map]
      rfl
    | _ => cases h
  | claimCommand =>
    cases choice with
    | claimed id' =>
      simp only [System.complete] at h
      split at h
      next c hc =>
        split at h
        next =>
          cases h
          rw [System.updateCommand, List.getElem?_modify]
          rfl
        next => cases h
      next => cases h
    | noCommand =>
      simp only [System.complete] at h
      split at h
      next =>
        cases h
        exact Option.map_id'.symm
      next => cases h
    | _ => cases h
  | updateSucceeded id' =>
    cases choice with
    | done =>
      cases h
      rw [System.updateCommand, List.getElem?_modify]
      rfl
    | _ => cases h
  | updateCommandFailed id' error =>
    cases choice with
    | done =>
      cases h
      rw [System.updateCommand, List.getElem?_modify]
      rfl
    | _ => cases h
  | _ => exact absurd rfl hr

/-- The choice with which a request takes effect. -/
def Outcome.committed : Outcome → Option Choice
  | .ok choice | .lost choice _ => some choice
  | .rejected _ => none

theorem serve_commands {r : Request} {x : Except String r.Answer} {s t : System}
    (h : s.serve bound i r outcome = some (x, t)) (id : CommandId) :
    t.commands[id]? = match outcome.committed with
      | some choice => s.commands[id]?.map (r.onRow choice id)
      | none => s.commands[id]? := by
  obtain ⟨choice, a, rfl, _, hc⟩ | ⟨_, rfl, _, _, rfl⟩ | ⟨choice, _, a, rfl, _, _, hc⟩ :=
    serve_cases h
  · exact complete_commands hc id
  · rfl
  · exact complete_commands hc id

/-- A row after a request is what the request has made of a row. -/
theorem serve_row {r : Request} {x : Except String r.Answer} {s u : System} {id : CommandId}
    {c' : CommandRow}
    (h : s.serve bound i r outcome = some (x, u)) (hc : u.commands[id]? = some c') :
    ∃ c, s.commands[id]? = some c ∧ (c' = c ∨ ∃ choice, c' = r.onRow choice id c) := by
  rw [serve_commands h id] at hc
  split at hc
  next choice _ =>
    obtain ⟨c, hold, rfl⟩ := Option.map_eq_some_iff.mp hc
    exact ⟨c, hold, .inr ⟨choice, rfl⟩⟩
  next => exact ⟨c', hc, .inl rfl⟩

/-- What becomes of a row in a step: nothing, or what a request does to it that takes effect. -/
inductive RowStep (s : System) (e : Event) (id : CommandId) (c : CommandRow) : CommandRow → Prop
  | kept : RowStep s e id c c
  | served {i : InstanceId} {n : Nat} {outcome : Outcome} {choice : Choice} {r : Request} :
      e = .serve i n outcome → (s.instances i).life = .up → s.pending i n = some r →
      outcome.committed = some choice → RowStep s e id c (r.onRow choice id c)

namespace RowStep

variable {s : System} {e : Event} {id : CommandId} {c c' : CommandRow}

theorem botId (h : RowStep s e id c c') : c'.botId = c.botId := by
  cases h with
  | kept => rfl
  | served => exact Request.onRow_botId ..

theorem command (h : RowStep s e id c c') : c'.command = c.command := by
  cases h with
  | kept => rfl
  | served => exact Request.onRow_command ..

end RowStep

/-- The rows that a step adds. -/
structure CommandRow.IsNew (c : CommandRow) : Prop where
  status : c.status = .pending
  isRemoved : c.isRemoved = false

/-- A step keeps the rows, up to what it does to each, and adds new ones. -/
theorem System.row_step {s s' : System} (h : s.step bound e = some s') (id : CommandId) :
    (∃ c c', s.commands[id]? = some c ∧ s'.commands[id]? = some c' ∧ RowStep s e id c c') ∨
      (s.commands[id]? = none ∧ ∀ c', s'.commands[id]? = some c' → c'.IsNew) := by
  have hsame (hc : s'.commands = s.commands) :
      (∃ c c', s.commands[id]? = some c ∧ s'.commands[id]? = some c' ∧ RowStep s e id c c') ∨
        (s.commands[id]? = none ∧ ∀ c', s'.commands[id]? = some c' → c'.IsNew) := by
    rw [hc]
    cases hid : s.commands[id]? with
    | none => exact .inr ⟨rfl, nofun⟩
    | some c => exact .inl ⟨c, c, rfl, rfl, .kept⟩
  have hadd (new : CommandRow) (hnew : new.IsNew) (hc : s'.commands = s.commands ++ [new]) :
      (∃ c c', s.commands[id]? = some c ∧ s'.commands[id]? = some c' ∧ RowStep s e id c c') ∨
        (s.commands[id]? = none ∧ ∀ c', s'.commands[id]? = some c' → c'.IsNew) := by
    rw [hc]
    cases hid : s.commands[id]? with
    | none =>
      refine .inr ⟨rfl, fun c' hc' => ?_⟩
      rw [List.getElem?_append_right (List.getElem?_eq_none_iff.mp hid)] at hc'
      exact List.mem_singleton.mp (List.mem_of_getElem? hc') ▸ hnew
    | some c =>
      refine .inl ⟨c, c, rfl, ?_, .kept⟩
      rw [List.getElem?_append_left (List.getElem?_eq_some_iff.mp hid).1, hid]
  cases System.step_cases h with
  | @api _ c hcall =>
    cases c with
    | createBot => cases hcall; exact hsame rfl
    | command botId command createdAt =>
      simp only [System.call] at hcall
      split at hcall
      next => cases hcall; exact hadd _ ⟨rfl, rfl⟩ rfl
      next => cases hcall
    | deleteBot botId createdAt =>
      simp only [System.call] at hcall
      split at hcall
      next => cases hcall; exact hadd _ ⟨rfl, rfl⟩ rfl
      next => cases hcall
  | boot => exact hsame rfl
  | @serve i n r k history outcome x t hup ht hserve =>
    have hrow : t.commands[id]? = _ := serve_commands hserve id
    cases hid : s.commands[id]? with
    | none =>
      refine .inr ⟨rfl, fun c' hc' => ?_⟩
      have hc' : t.commands[id]? = some c' := hc'
      rw [hrow, hid] at hc'
      split at hc' <;> cases hc'
    | some c =>
      rw [hid] at hrow
      cases hcommitted : outcome.committed with
      | none =>
        rw [hcommitted] at hrow
        exact .inl ⟨c, c, rfl, hrow, .kept⟩
      | some choice =>
        rw [hcommitted] at hrow
        exact .inl ⟨c, _, rfl, hrow, .served rfl hup (System.pending_eq ht) hcommitted⟩
  | disconnect =>
    obtain ⟨lock, heq⟩ := s.unlocked_eq _
    exact hsame (by rw [heq])
  | crash =>
    obtain ⟨lock, heq⟩ := s.unlocked_eq _
    exact hsame (by rw [heq]; rfl)
  | other hp => exact hsame hp.commands

theorem System.row_kept {s s' : System} {id : CommandId} (h : s.step bound e = some s')
    (hc : s.commands[id]? = some c) : ∃ c', s'.commands[id]? = some c' ∧ RowStep s e id c c' := by
  obtain ⟨c₀, c', hc₀, hc', hrow⟩ | ⟨hnone, _⟩ := System.row_step h id
  · cases hc.symm.trans hc₀
    exact ⟨c', hc', hrow⟩
  · cases hc.symm.trans hnone

/-- The row of a command that is handled has its bot and its kind. -/
def System.Claimed (s : System) : Prop :=
  ∀ i, ∀ t ∈ (s.instances i).tasks, ∀ c, t.progress.command = some c →
    ∃ row, s.commands[c.id]? = some row ∧ row.botId = c.botId ∧ row.command = c.command

theorem System.Fresh.claimed {s : System} (h : s.Fresh) : s.Claimed := by
  intro i t ht
  rw [h.instances] at ht
  cases ht

/-- Only `claimCommand` makes a task handle a command. -/
theorem Progress.after_command {g : Progress} {r : Request} {x : Except String r.Answer}
    (h : (g.after r x).command = some c) :
    g.command = some c ∨
      (⟨r, x⟩ : (r : Request) × Except String r.Answer) = ⟨.claimCommand, .ok (some c)⟩ := by
  unfold Progress.after at h
  split at h
  case h_4 =>
    cases (h : _ = some c)
    exact .inr rfl
  case h_2 =>
    split at h
    next => exact .inl h
    next => exact .inl h
  all_goals first
    | exact .inl h
    | cases h

theorem complete_claimed {a : Option BotCommand} {s t : System}
    (h : s.complete bound i .claimCommand choice = some (a, t)) (ha : a = some c) :
    ∃ row, choice = .claimed c.id ∧ s.IsNext i c.id row ∧ row.botId = c.botId ∧
      row.command = c.command := by
  cases choice with
  | claimed id =>
    simp only [System.complete] at h
    split at h
    next row hrow =>
      split at h
      next hnext =>
        cases h
        cases ha
        exact ⟨row, rfl, hnext, rfl, rfl⟩
      next => cases h
    next => cases h
  | noCommand =>
    simp only [System.complete] at h
    split at h
    next =>
      cases h
      cases ha
    next => cases h
  | _ => cases h

/-- The command of a claim was the next one. -/
theorem serve_claimed {x : Except String (Option BotCommand)} {s u : System}
    (h : s.serve bound i .claimCommand outcome = some (x, u)) (hx : x = .ok (some c₂)) :
    ∃ row, outcome = .ok (.claimed c₂.id) ∧ s.IsNext i c₂.id row ∧ row.botId = c₂.botId ∧
      row.command = c₂.command := by
  obtain ⟨choice, a, rfl, rfl, hc⟩ | ⟨_, _, rfl, _⟩ | ⟨_, _, _, _, rfl, _⟩ := serve_cases h
  · obtain ⟨row, rfl, hnext⟩ := complete_claimed hc (Except.ok.inj hx)
    exact ⟨row, rfl, hnext⟩
  · cases hx
  · cases hx

theorem System.Claimed.step {s s' : System} (h : s.Claimed) (hstep : s.step bound e = some s') :
    s'.Claimed := by
  have hrow (c : BotCommand) (hc : ∃ row, s.commands[c.id]? = some row ∧ row.botId = c.botId ∧
      row.command = c.command) : ∃ row, s'.commands[c.id]? = some row ∧ row.botId = c.botId ∧
        row.command = c.command := by
    obtain ⟨row, hid, hb, hk⟩ := hc
    obtain ⟨row', hid', hstep⟩ := System.row_kept hstep hid
    exact ⟨row', hid', hstep.botId.trans hb, hstep.command.trans hk⟩
  intro i t ht c hc
  cases System.task_step hstep ht with
  | kept _ ht => exact hrow c (h i t ht c hc)
  | spawned => cases hc
  | @served n r k history outcome x u hup hn hserve =>
    obtain hold | hx := Progress.after_command hc
    · exact hrow c (h i _ (List.mem_of_getElem? hn) c hold)
    · cases hx
      obtain ⟨row, _, hnext, hb, hk⟩ := serve_claimed hserve rfl
      exact hrow c ⟨row, hnext.1, hb, hk⟩

/-- What holds of the tasks and the commands of every run. -/
structure System.Regular (s : System) : Prop where
  follows : s.Follows
  listed : s.Listed
  claimed : s.Claimed

theorem System.Fresh.regular {s : System} (h : s.Fresh) : s.Regular :=
  ⟨h.follows, h.listed, h.claimed⟩

theorem System.Regular.step {s s' : System} (h : s.Regular) (hstep : s.step bound e = some s') :
    s'.Regular :=
  ⟨h.follows.step hstep, h.listed.step hstep, h.claimed.step hstep⟩

end Tonatiuh.Supervisor
