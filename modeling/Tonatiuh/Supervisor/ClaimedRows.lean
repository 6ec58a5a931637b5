import Tonatiuh.Supervisor.Accounted
import Tonatiuh.Supervisor.LastCommand
import Tonatiuh.Supervisor.StoppedBots

/-! Commands that are being processed, and the workers that handle them.

A command leaves the pending ones with its claim. Nothing looks for the others: `claimCommand` takes
pending rows, and `reconcile` goes by `desired_state`. -/

namespace Tonatiuh.Supervisor

open Async Transition

/-! ## Tasks -/

/-- What becomes of the task with number `n` of a worker that is up. -/
inductive TaskKept (bound : Nat) (s s' : System) (i : InstanceId) (n : Nat) : Event → Task → Prop
  | kept : (s'.instances i).life = .up → (s'.instances i).tasks[n]? = some t →
      TaskKept bound s s' i n e t
  | served {r : Request} {k : Except String (api.Answer r) → Prog Unit}
      {history : List ((r : Request) × Except String r.Answer)} {outcome : Outcome}
      {x : Except String r.Answer} {u : System} :
      s.serve bound i r outcome = some (x, u) → s'.commands = u.commands →
      (s'.instances i).life = .up → (s'.instances i).tasks[n]? = some ⟨k x, ⟨r, x⟩ :: history⟩ →
      TaskKept bound s s' i n (.serve i n outcome) ⟨.await r k, history⟩
  | crashed : TaskKept bound s s' i n (.crash i) t

/-- The task whose request was served goes on in its place. -/
theorem served_task {s u : System} {r : Request} {x : Except String r.Answer} {t : Task}
    (hup : (s.instances i).life = .up) (hn : n < (s.instances i).tasks.length)
    (hserve : s.serve bound i r outcome = some (x, u)) (current : Option Nat) :
    ((u.updateInstance i fun inst => { inst with tasks := inst.tasks.set n t, current }).instances
        i).life = .up ∧
      ((u.updateInstance i fun inst => { inst with tasks := inst.tasks.set n t, current }).instances
        i).tasks[n]? = some t := by
  have hs := serve_serves hserve
  obtain ⟨new, _, htasks⟩ := hs.tasks
  rw [System.updateInstance_self]
  refine ⟨hs.life.trans hup, ?_⟩
  rw [htasks, List.getElem?_set_self (by rw [List.length_append]; omega)]

theorem System.task_kept {s s' : System} {t : Task} (h : s.step bound e = some s')
    (hup : (s.instances i).life = .up) (hn : (s.instances i).tasks[n]? = some t) :
    TaskKept bound s s' i n e t := by
  have hlt := (List.getElem?_eq_some_iff.mp hn).1
  cases System.step_cases h with
  | api hcall =>
    have hi := (System.call_called hcall).instances
    exact .kept (hi ▸ hup) (hi ▸ hn)
  | @boot j hl =>
    have hij : i ≠ j := by
      rintro rfl
      cases hup.symm.trans hl
    refine .kept ?_ ?_ <;> rw [System.updateInstance_ne _ _ hij]
    · exact hup
    · exact hn
  | @serve j m r k history outcome x u _ hm hserve =>
    have hs := serve_serves hserve
    by_cases hij : i = j
    swap
    · refine .kept ?_ ?_ <;> rw [System.updateInstance_ne _ _ hij, hs.others i hij]
      · exact hup
      · exact hn
    subst hij
    obtain ⟨new, _, htasks⟩ := hs.tasks
    by_cases hnm : m = n
    · subst hnm
      cases hm.symm.trans hn
      obtain ⟨hup', hn'⟩ := served_task hup hlt hserve _
      exact .served hserve rfl hup' hn'
    · refine .kept ?_ ?_ <;> rw [System.updateInstance_self]
      · exact hs.life.trans hup
      · rw [htasks, List.getElem?_set_ne hnm, List.getElem?_append_left hlt]
        exact hn
  | @disconnect j =>
    obtain ⟨lock, heq⟩ := s.unlocked_eq j
    rw [heq]
    exact .kept hup hn
  | @crash j =>
    by_cases hij : i = j
    · subst hij
      exact .crashed
    · obtain ⟨lock, heq⟩ := s.unlocked_eq j
      rw [heq]
      refine .kept ?_ ?_ <;> rw [System.updateInstance_ne _ _ hij]
      · exact hup
      · exact hn
  | other hp =>
    obtain ⟨new, _, htasks⟩ := (hp.grows i).tasks
    refine .kept ((hp.life i).trans hup) ?_
    rw [htasks, List.getElem?_append_left hlt]
    exact hn

/-- A task goes on with its command until the outcome is stored, or is to be stored in vain. -/
theorem Progress.command_dropped {g : Progress} {r : Request} {x : Except String r.Answer}
    (ha : Progress.Allowed r g) (hc : g.command = some c) (h : (g.after r x).command ≠ some c) :
    (⟨r, x⟩ : (r : Request) × Except String r.Answer) = ⟨.updateSucceeded c.id, .ok ()⟩ ∨
      ∃ error, r = .updateCommandFailed c.id error := by
  unfold Progress.after at h
  split at h
  case h_4 => cases hc.symm.trans ha.1
  case h_2 =>
    split at h
    next => exact absurd hc h
    next => exact absurd hc h
  case h_13 =>
    obtain ⟨c', hc', rfl, _⟩ := ha
    cases hc.symm.trans hc'.1
    exact .inl rfl
  case h_14 error _ =>
    obtain ⟨c', hc', rfl⟩ := ha
    cases hc.symm.trans hc'.1
    exact .inr ⟨error, rfl⟩
  all_goals exact absurd hc h

/-! ## Rows -/

/-- EMERGENCY_STOP and DELETE. -/
def CommandKind.isBinding : CommandKind → Bool
  | .emergencyStop | .delete => true
  | _ => false

/-- The row is that of an EMERGENCY_STOP or a DELETE, and is being processed. -/
def System.IsUnsettled (s : System) (id : CommandId) : Prop :=
  ∃ c ∈ s.commands[id]?, c.command.isBinding = true ∧ c.status = .processing ∧ c.isRemoved = false

/-- A task of a worker that is up handles the command. -/
def System.IsHandled (s : System) (id : CommandId) : Prop :=
  ∃ i t c, s.Runs i t ∧ t.progress.command = some c ∧ c.id = id

/-- Where a worker ends, none of its commands is unsettled; the answer to a claim is not lost, and
the failure of a command is stored; and the rows of a bot are deleted when the outcome of each of
its EMERGENCY_STOPs has been stored. -/
def System.KeepsClaims (s : System) : Event → Prop
  | .crash i => ∀ t ∈ (s.instances i).tasks, ∀ c ∈ t.progress.command, ¬ s.IsUnsettled c.id
  | .serve i n outcome =>
    match s.pending i n with
    | some .claimCommand =>
      match outcome with
      | .lost (.claimed id) _ => ∀ c ∈ s.commands[id]?, c.command.isBinding = false
      | _ => True
    | some (.updateCommandFailed id _) => outcome.committed.isSome = true ∨ ¬ s.IsUnsettled id
    | some (.deleteRows botId) => outcome.committed.isSome = true →
        ∀ c ∈ s.commands, c.botId = botId → c.command = .emergencyStop → c.isRemoved = false →
          c.isProcessed = true
    | _ => True
  | _ => True

instance (s : System) (id : CommandId) : Decidable (s.IsUnsettled id) := by
  unfold System.IsUnsettled
  infer_instance

instance (s : System) (e : Event) : Decidable (s.KeepsClaims e) := by
  unfold System.KeepsClaims
  induction e using Event.casesOn with
  | crash => dsimp only; infer_instance
  | serve i n outcome =>
    dsimp only
    generalize s.pending i n = pending
    induction pending using Option.casesOn with
    | none => exact instDecidableTrue
    | some request =>
      induction request using Request.casesOn with
      | claimCommand =>
        induction outcome using Outcome.casesOn with
        | lost choice => induction choice using Choice.casesOn <;> dsimp only <;> infer_instance
        | _ => exact instDecidableTrue
      | _ => dsimp only; infer_instance
  | _ => exact instDecidableTrue

variable {s s' : System} {id : CommandId} {c c' : CommandRow}

/-- What is being processed was, or has just been claimed. -/
theorem Request.onRow_processing {r : Request} (h : (r.onRow choice id c).status = .processing) :
    c.status = .processing ∨ (r = .claimCommand ∧ choice = .claimed id) := by
  cases r with
  | claimCommand =>
    cases choice with
    | claimed id' =>
      by_cases hid : id' = id
      · exact .inr ⟨rfl, hid ▸ rfl⟩
      · exact .inl ((congrArg CommandRow.status (if_neg hid)).symm.trans h)
    | _ => exact .inl h
  | deleteRows botId =>
    simp only [Request.onRow] at h
    split at h <;> exact .inl h
  | updateSucceeded id' | updateCommandFailed id' =>
    simp only [Request.onRow] at h
    split_ifs at h
    · exact .inl h
    · exact .inl h
  | _ => exact .inl h

/-- A row whose outcome has been stored, and that is being processed, was removed before. -/
theorem Request.onRow_settled {r : Request}
    (hr : r = .updateSucceeded id ∨ ∃ error, r = .updateCommandFailed id error)
    (h : (r.onRow choice id c).status = .processing) : (r.onRow choice id c).isRemoved = true := by
  obtain rfl | ⟨error, rfl⟩ := hr
  all_goals
    simp only [Request.onRow, if_true] at h ⊢
    split at h
    next hgone => rw [if_pos hgone, hgone]
    next => cases h

/-- What was removed stays so. -/
theorem RowStep.isRemoved (h : RowStep s e id c c') (hr : c'.isRemoved = false) :
    c.isRemoved = false := by
  cases h with
  | kept => exact hr
  | served => exact Request.onRow_isRemoved hr

/-- A request that is served takes effect as its outcome says. -/
theorem System.step_serve {r : Request} {outcome : Outcome}
    (h : s.step bound (.serve i n outcome) = some s')
    (hp : s.pending i n = some r) : ∃ x u k history, (s.instances i).life = .up ∧
      (s.instances i).tasks[n]? = some ⟨.await r k, history⟩ ∧
      s.serve bound i r outcome = some (x, u) ∧
      s' = u.updateInstance i fun inst =>
        { inst with
          tasks := inst.tasks.set n ⟨k x, ⟨r, x⟩ :: history⟩
          current := if (k x).pending.any (·.isSynchronous) then some n else none } := by
  obtain ⟨r', k, history, x, u, hup, hn, hserve, rfl⟩ := serveTask_cases h
  cases hp.symm.trans (System.pending_eq hn)
  exact ⟨x, u, k, history, hup, hn, hserve, rfl⟩

/-- An answer is one of a request that has taken effect. -/
theorem serve_ok {r : Request} {a : r.Answer} (h : s.serve bound i r outcome = some (.ok a, s')) :
    ∃ choice, outcome = .ok choice ∧ s.complete bound i r choice = some (a, s') := by
  obtain ⟨choice, a', rfl, ha, hc⟩ | ⟨_, _, ha, _⟩ | ⟨_, _, _, _, ha, _⟩ := serve_cases h
  · cases ha
    exact ⟨choice, rfl, hc⟩
  · cases ha
  · cases ha

/-- A claim that takes effect finds the next row. -/
theorem claim_next {x : Except String (Option BotCommand)}
    (h : s.serve bound i .claimCommand outcome = some (x, s'))
    (ho : outcome.committed = some (.claimed id)) : ∃ row, s.IsNext i id row ∧
      (x = .ok (some ⟨id, row.botId, row.command⟩) ∨
        ∃ message, outcome = .lost (.claimed id) message) := by
  have hnext {a : Option BotCommand}
      (hc : s.complete bound i .claimCommand (.claimed id) = some (a, s')) :
      ∃ row, s.IsNext i id row ∧ a = some ⟨id, row.botId, row.command⟩ := by
    simp only [System.complete] at hc
    split at hc
    next row _ =>
      split at hc
      next hn =>
        cases hc
        exact ⟨row, hn, rfl⟩
      next => cases hc
    next => cases hc
  obtain ⟨choice, a, rfl, rfl, hc⟩ | ⟨_, rfl, _⟩ | ⟨choice, message, a, rfl, _, _, hc⟩ :=
    serve_cases h
  · cases ho
    obtain ⟨row, hrow, rfl⟩ := hnext hc
    exact ⟨row, hrow, .inl rfl⟩
  · cases ho
  · cases ho
    obtain ⟨row, hrow, _⟩ := hnext hc
    exact ⟨row, hrow, .inr ⟨message, rfl⟩⟩

/-! ## Unsettled commands -/

/-- A task of a worker that is up handles every unsettled command. -/
def System.Claims (s : System) : Prop := ∀ id, s.IsUnsettled id → s.IsHandled id

/-- A task that handles an unsettled command goes on with it. -/
theorem System.IsHandled.step (h : s.IsHandled id) (hu : s.IsUnsettled id) (hu' : s'.IsUnsettled id)
    (hr : s.Regular) (hstep : s.step bound e = some s') (hk : s.KeepsClaims e) :
    s'.IsHandled id := by
  obtain ⟨i, t, b, ⟨hup, hmem⟩, hb, rfl⟩ := h
  obtain ⟨n, hn⟩ := List.getElem?_of_mem hmem
  cases System.task_kept hstep hup hn with
  | kept hup' hn' => exact ⟨i, t, b, ⟨hup', List.mem_of_getElem? hn'⟩, hb, rfl⟩
  | crashed => exact absurd hu (hk t hmem b hb)
  | @served r k history outcome x u hserve hcommands hup' hn' =>
    by_cases hkept : (Task.progress ⟨k x, ⟨r, x⟩ :: history⟩).command = some b
    · exact ⟨i, _, b, ⟨hup', List.mem_of_getElem? hn'⟩, hkept, rfl⟩
    -- the outcome that has been stored is not `PROCESSING`
    obtain ⟨c', hc', _, hprocessing, hremoved⟩ := hu'
    rw [hcommands, serve_commands hserve b.id] at hc'
    have hstored (hr : r = .updateSucceeded b.id ∨ ∃ error, r = .updateCommandFailed b.id error)
        (hcommitted : outcome.committed.isSome = true) : False := by
      obtain ⟨choice, hchoice⟩ := Option.isSome_iff_exists.mp hcommitted
      rw [hchoice] at hc'
      obtain ⟨c, _, rfl⟩ := Option.map_eq_some_iff.mp hc'
      cases hremoved.symm.trans (Request.onRow_settled hr hprocessing)
    obtain hx | ⟨error, rfl⟩ :=
      Progress.command_dropped ((hr.follows i _ hmem).allowed (r := r) rfl) hb hkept
    · cases hx
      obtain ⟨choice, rfl, _⟩ := serve_ok hserve
      exact (hstored (.inl rfl) rfl).elim
    · simp only [System.KeepsClaims, System.pending_eq hn] at hk
      obtain hcommitted | hk := hk
      · exact (hstored (.inr ⟨error, rfl⟩) hcommitted).elim
      · exact absurd hu hk

theorem System.Claims.step (h : s.Claims) (hr : s.Regular) (hstep : s.step bound e = some s')
    (hk : s.KeepsClaims e) : s'.Claims := by
  intro id hu'
  have ⟨c', hc', hbinding, hprocessing, hremoved⟩ := hu'
  obtain ⟨c, c₁, hc, hc₁, hrow⟩ | ⟨_, hnew⟩ := System.row_step hstep id
  swap
  · cases (hnew c' hc').status.symm.trans hprocessing
  cases hc'.symm.trans hc₁
  by_cases hold : c.status = .processing
  · have hu : s.IsUnsettled id := ⟨c, hc, hrow.command ▸ hbinding, hold, hrow.isRemoved hremoved⟩
    exact (h id hu).step hu hu' hr hstep hk
  -- the command has just been claimed
  cases hrow with
  | kept => exact absurd hprocessing hold
  | @served i n outcome choice r he hup hpending hcommitted =>
    subst he
    obtain hp | ⟨rfl, rfl⟩ := Request.onRow_processing hprocessing
    · exact absurd hp hold
    obtain ⟨x, u, k, history, _, hn, hserve, rfl⟩ := System.step_serve hstep hpending
    obtain ⟨row, _, rfl | ⟨message, rfl⟩⟩ := claim_next hserve hcommitted
    · obtain ⟨hup', hn'⟩ := served_task hup (List.getElem?_eq_some_iff.mp hn).1 hserve _
      exact ⟨i, _, _, ⟨hup', List.mem_of_getElem? hn'⟩, rfl, rfl⟩
    · simp only [System.KeepsClaims, hpending] at hk
      rw [Request.onRow_command] at hbinding
      rw [hk c hc] at hbinding
      cases hbinding

/-! ## Removed commands -/

/-- No EMERGENCY_STOP is removed before its outcome is stored. -/
def System.Spares (s : System) : Prop := ∀ (id : CommandId) (c : CommandRow),
  s.commands[id]? = some c → c.command = .emergencyStop → c.isRemoved = true → c.isProcessed = true

/-- A row that was removed keeps its status. -/
theorem RowStep.status_eq (h : RowStep s e id c c') (hstep : s.step bound e = some s')
    (hc : s.commands[id]? = some c) (hr : c.isRemoved = true) : c'.status = c.status := by
  cases h with
  | kept => rfl
  | @served i n outcome choice r he hup hpending hcommitted =>
    subst he
    cases r with
    | claimCommand =>
      by_cases hchoice : choice = .claimed id
      · subst hchoice
        obtain ⟨x, u, k, history, _, _, hserve, _⟩ := System.step_serve hstep hpending
        obtain ⟨row, ⟨hrow, _, hremoved, _⟩, _⟩ := claim_next hserve hcommitted
        cases hc.symm.trans hrow
        cases hr.symm.trans hremoved
      · cases choice with
        | claimed id' =>
          have hid : id' ≠ id := fun hid => hchoice (congrArg Choice.claimed hid)
          simp only [Request.onRow, if_neg hid]
        | _ => rfl
    | deleteRows botId =>
      simp only [Request.onRow]
      split <;> rfl
    | updateSucceeded id' | updateCommandFailed id' =>
      simp only [Request.onRow, hr, if_true, ite_self]
    | _ => rfl

theorem System.Spares.step (h : s.Spares) (hstep : s.step bound e = some s')
    (hk : s.KeepsClaims e) :
    s'.Spares := by
  intro id c' hc' hkind hremoved
  obtain ⟨c, c₁, hc, hc₁, hrow⟩ | ⟨_, hnew⟩ := System.row_step hstep id
  swap
  · cases (hnew c' hc').isRemoved.symm.trans hremoved
  cases hc'.symm.trans hc₁
  rw [hrow.command] at hkind
  by_cases hold : c.isRemoved = true
  · rw [CommandRow.isProcessed, hrow.status_eq hstep hc hold]
    exact h id c hc hkind hold
  cases hrow with
  | kept => exact absurd hremoved hold
  | @served i n outcome choice r he hup hpending hcommitted =>
    obtain hremoved | rfl := Request.onRow_removed hremoved
    · exact absurd hremoved hold
    subst he
    simp only [System.KeepsClaims, hpending, hcommitted] at hk
    have hprocessed := hk rfl c (List.mem_of_getElem? hc) rfl hkind (Bool.eq_false_iff.mpr hold)
    rw [Request.onRow, if_pos rfl]
    exact hprocessed

/-- Where a task has deleted the rows of a bot, its command is removed; and so is a DELETE that has
succeeded. -/
structure System.Erases (s : System) : Prop where
  tasks : ∀ i, ∀ t ∈ (s.instances i).tasks, ∀ c, t.progress.command = some c →
    t.progress.deleted = true → ∃ row, s.commands[c.id]? = some row ∧ row.isRemoved = true
  rows : ∀ (id : CommandId) (c : CommandRow), s.commands[id]? = some c → c.command = .delete →
    c.status = .succeeded → c.isRemoved = true

/-- The rows are deleted with an answer of `deleteRows`. -/
theorem Progress.after_deleted {g : Progress} {r : Request} {x : Except String r.Answer}
    (h : (g.after r x).deleted = true) : g.deleted = true ∨
      ∃ botId, (⟨r, x⟩ : (r : Request) × Except String r.Answer) = ⟨.deleteRows botId, .ok ()⟩ := by
  unfold Progress.after at h
  split at h
  case h_2 => split at h <;> exact .inl h
  case h_12 => exact .inr ⟨_, rfl⟩
  all_goals first
    | exact .inl h
    | cases h

theorem System.Erases.step (h : s.Erases) (hr : s.Regular) (hstep : s.step bound e = some s') :
    s'.Erases := by
  have hstays {id : CommandId} (hid : ∃ row, s.commands[id]? = some row ∧ row.isRemoved = true) :
      ∃ row, s'.commands[id]? = some row ∧ row.isRemoved = true := by
    obtain ⟨row, hrow, hremoved⟩ := hid
    obtain ⟨row', hrow', hrs⟩ := System.row_kept hstep hrow
    refine ⟨row', hrow', ?_⟩
    by_contra hnot
    cases hremoved.symm.trans (hrs.isRemoved (Bool.eq_false_iff.mpr hnot))
  constructor
  · intro i t hmem c hc hdeleted
    cases System.task_step hstep hmem with
    | kept _ hmem => exact hstays (h.tasks i t hmem c hc hdeleted)
    | spawned => cases hc
    | @served n r k history outcome x u hup hn hserve =>
      have hold := List.mem_of_getElem? hn
      obtain hcommand | hx := Progress.after_command hc
      swap
      · cases hx
        cases hdeleted
      obtain hdeleted | ⟨botId, hx⟩ := Progress.after_deleted hdeleted
      · exact hstays (h.tasks i _ hold c hcommand hdeleted)
      · cases hx
        obtain ⟨c', hc', rfl, _⟩ := (hr.follows i _ hold).allowed (r := .deleteRows botId) rfl
        cases hcommand.symm.trans hc'
        obtain ⟨row, hrow, hb, _⟩ := hr.claimed i _ hold c hcommand
        obtain ⟨x, v, k', history', _, hn', hserve', rfl⟩ :=
          System.step_serve hstep (System.pending_eq hn)
        cases hserve.symm.trans hserve'
        obtain ⟨choice, rfl, _⟩ := serve_ok hserve
        have hcommands := serve_commands hserve c.id
        rw [hrow] at hcommands
        exact ⟨_, hcommands, congrArg CommandRow.isRemoved (if_pos hb)⟩
  · intro id c' hc' hkind hs
    obtain ⟨c, c₁, hc, hc₁, hrow⟩ | ⟨_, hnew⟩ := System.row_step hstep id
    swap
    · cases (hnew c' hc').status.symm.trans hs
    cases hc'.symm.trans hc₁
    have hkind : c.command = .delete := hrow.command.symm.trans hkind
    have hgone : ∃ row, s.commands[id]? = some row ∧ row.isRemoved = true := by
      obtain hs | ⟨i, n, outcome, t, _, _, hmem, _, hcommand, hdone⟩ := hrow.succeeded hr hc hs
      · exact ⟨c, hc, h.rows id c hc hkind hs⟩
      · rw [hkind] at hdone
        exact h.tasks i t hmem _ hcommand hdone.1
    obtain ⟨row, hrow, hremoved⟩ := hstays hgone
    cases hc'.symm.trans hrow
    exact hremoved

end Tonatiuh.Supervisor
