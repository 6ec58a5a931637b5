import Tonatiuh.Supervisor.DesiredState
import Tonatiuh.Supervisor.Stops

/-! The last command of a bot.

The API serialises the commands of a bot by the lock on its row and stores them in this order, each
with its `desired_state`. The worker takes them in the order of `created_at`, the moment at which
their transactions began, and stores the `desired_state` of each again. -/

namespace Tonatiuh.Supervisor

open Async Transition

def CommandRow.isProcessed (c : CommandRow) : Bool := c.status = .succeeded || c.status = .failed

/-- No command of the bot was accepted after this one. -/
def System.IsNewest (s : System) (id : CommandId) (botId : BotId) : Prop :=
  ∀ c ∈ s.commands.drop (id + 1), c.botId ≠ botId

/-- A bot whose commands are processed has the `desired_state` of the last one that was accepted. -/
def System.LastWins (s : System) : Prop :=
  ∀ (id : CommandId) (c : CommandRow) (row : TradingBot), s.commands[id]? = some c →
    s.IsNewest id c.botId → s.bot c.botId = some row →
    (∀ c' ∈ s.commands, c'.botId = c.botId → c'.isProcessed = true) →
      row.desiredState = c.command.desiredState

/-- The commands that set the bot to another state and are still to be claimed began earlier. -/
def System.Precede (s : System) (botId : BotId) (desiredState : DesiredState)
    (createdAt : Nat) : Prop :=
  ∀ c ∈ s.commands, c.botId = botId → c.status = .pending → c.isRemoved = false →
    c.command.desiredState ≠ desiredState → c.createdAt < createdAt

/-- The claim of the command skips none that would set its bot to another state. -/
def System.SkipsNone (s : System) (c : CommandRow) : Prop :=
  ∀ c' ∈ s.commands, c'.botId = c.botId → c'.status = .pending → c'.isRemoved = false →
    c'.command.desiredState ≠ c.command.desiredState → c.createdAt ≤ c'.createdAt

/-- No worker is about to store another `desired_state` for the bot. -/
def System.StoresOnly (s : System) (botId : BotId) (desiredState : DesiredState) : Prop :=
  ∀ i ∈ s.workers, (s.instances i).life = .up → ∀ t ∈ (s.instances i).tasks,
    ∀ d ∈ t.pending.bind (Request.storedState botId), d = desiredState

instance (s : System) (id : CommandId) (botId : BotId) : Decidable (s.IsNewest id botId) := by
  unfold System.IsNewest
  infer_instance

instance (s : System) (botId : BotId) (d : DesiredState) (createdAt : Nat) :
    Decidable (s.Precede botId d createdAt) := by
  unfold System.Precede
  infer_instance

instance (s : System) (c : CommandRow) : Decidable (s.SkipsNone c) := by
  unfold System.SkipsNone
  infer_instance

instance (s : System) (botId : BotId) (d : DesiredState) : Decidable (s.StoresOnly botId d) := by
  unfold System.StoresOnly
  infer_instance

/-- A command is accepted after the commands of its bot that it is to override began; the last
command of a bot is claimed when none of these is skipped and no worker is about to override it; and
its update of `desired_state` is not rejected, unless the bot has this state already. -/
def System.KeepsOrder (s : System) : Event → Prop
  | .api (.command botId command createdAt) => s.Precede botId command.desiredState createdAt
  | .api (.deleteBot botId createdAt) => s.Precede botId .stopped createdAt
  | .serve _ _ (.ok (.claimed id)) => ∀ c ∈ s.commands[id]?, s.IsNewest id c.botId →
      s.SkipsNone c ∧ s.StoresOnly c.botId c.command.desiredState
  | .serve i n (.rejected _) => ∀ c ∈ s.handled i n, (s.pending i n).any Request.isStoring = true →
      s.IsNewest c.id c.botId → ∀ row ∈ s.bot c.botId, row.desiredState = c.command.desiredState
  | _ => True

instance (s : System) (e : Event) : Decidable (s.KeepsOrder e) := by
  unfold System.KeepsOrder
  split <;> infer_instance

/-! ## What is known of the last command -/

/-- A task of a worker that runs. -/
def System.Runs (s : System) (i : InstanceId) (t : Task) : Prop :=
  (s.instances i).life = .up ∧ t ∈ (s.instances i).tasks

/-- The command is processed, or a worker handles it. -/
def System.IsTaken (s : System) (id : CommandId) : Prop :=
  (∃ c, s.commands[id]? = some c ∧ c.isProcessed = true) ∨
    ∃ i t c, s.Runs i t ∧ t.progress.command = some c ∧ c.id = id

/-- The `desired_state` of the command was stored again. -/
def System.IsStored (s : System) (id : CommandId) : Prop :=
  (∃ c, s.commands[id]? = some c ∧ c.isProcessed = true) ∨
    ∃ i t c, s.Runs i t ∧ t.progress.command = some c ∧ c.id = id ∧ t.isClaimed = false

/-- Nothing will override the last command of a bot once it is taken, and once it is stored, the bot
has its state. -/
structure System.Overrides (s : System) (id : CommandId) (c : CommandRow) : Prop where
  waiting : c.status = .pending → s.Precede c.botId c.command.desiredState c.createdAt
  taken : s.IsTaken id → s.Precede c.botId c.command.desiredState 0
  storesOnly : s.IsTaken id → s.StoresOnly c.botId c.command.desiredState
  stored : s.IsStored id → ∀ row, s.bot c.botId = some row →
    row.desiredState = c.command.desiredState

/-- The last command of every bot overrides the others. -/
def System.Ordered (s : System) : Prop := ∀ (id : CommandId) (c : CommandRow),
  s.commands[id]? = some c → s.IsNewest id c.botId → s.Overrides id c

theorem System.isNewest_iff {s : System} {id : CommandId} : s.IsNewest id botId ↔
    ∀ (j : CommandId) (c : CommandRow), id < j → s.commands[j]? = some c → c.botId ≠ botId :=
  forall_mem_drop_succ

theorem System.IsStored.isTaken {s : System} {id : CommandId} (h : s.IsStored id) :
    s.IsTaken id := by
  rcases h with h | ⟨i, t, c, hruns, hc, hid, _⟩
  · exact .inl h
  · exact .inr ⟨i, t, c, hruns, hc, hid⟩

/-! ## What a request does -/

theorem Request.onRow_processed {r : Request} {id : CommandId} {c : CommandRow}
    (h : (r.onRow choice id c).isProcessed = true) :
    c.isProcessed = true ∨ r = .updateSucceeded id ∨
    ∃ error, r = .updateCommandFailed id error := by
  cases r with
  | updateSucceeded id' =>
    by_cases hid : id' = id
    · exact .inr (.inl (hid ▸ rfl))
    · exact .inl (by simpa [Request.onRow, hid] using h)
  | updateCommandFailed id' error =>
    by_cases hid : id' = id
    · exact .inr (.inr ⟨error, hid ▸ rfl⟩)
    · exact .inl (by simpa [Request.onRow, hid] using h)
  | deleteRows botId =>
    simp only [Request.onRow] at h
    split at h <;> exact .inl h
  | claimCommand =>
    cases choice with
    | claimed id' =>
      simp only [Request.onRow] at h
      split at h
      next => cases h
      next => exact .inl h
    | _ => exact .inl h
  | _ => exact .inl h

/-! ## Steps -/

variable {s s' : System} {id : CommandId} {c : CommandRow}

theorem System.Precede.eq (h : s.Precede botId d 0) (hc : c ∈ s.commands) (hb : c.botId = botId)
    (hs : c.status = .pending) (hr : c.isRemoved = false) : c.command.desiredState = d := by
  by_contra hne
  exact Nat.not_lt_zero _ (h c hc hb hs hr hne)

theorem System.StoresOnly.of_runs (h : s.StoresOnly botId d) (hl : s.Listed)
    (hfirst : s'.StoresFirst)
    (hruns : ∀ i t, s'.Runs i t → s.Runs i t ∨ t.isClaimed = false ∨
      ∀ d' ∈ t.pending.bind (Request.storedState botId), d' = d) : s'.StoresOnly botId d := by
  intro i _ hup t hmem d' hd'
  rcases hruns i t ⟨hup, hmem⟩ with ⟨hup, hmem⟩ | hclaimed | honly
  · exact h i (hl i (by rw [hup]; exact nofun)) hup t hmem d' hd'
  · obtain ⟨r, hr, hd'⟩ := Option.bind_eq_some_iff.mp hd'
    have hstoring := hfirst.pending hmem hr
    rw [Request.isStoring_of_storedState hd', hclaimed] at hstoring
    cases hstoring
  · exact honly d' hd'

/-- A step that neither serves a request nor concerns the bot. -/
theorem System.Overrides.quiet (h : s.Overrides id c) (hl : s.Listed) (hfirst : s'.StoresFirst)
    (hid : s'.commands[id]? = some c)
    (hcommands : ∀ (j : CommandId) (c' : CommandRow), s'.commands[j]? = some c' →
      c'.botId = c.botId → s.commands[j]? = some c')
    (hbot : ∀ row, s'.bot c.botId = some row → s.bot c.botId = some row)
    (hruns : ∀ i t, s'.Runs i t →
      s.Runs i t ∨ (t.progress.command = none ∧ t.isClaimed = false)) : s'.Overrides id c := by
  have hprecede {createdAt : Nat} (hp : s.Precede c.botId c.command.desiredState createdAt) :
      s'.Precede c.botId c.command.desiredState createdAt := by
    intro c' hmem hb
    obtain ⟨j, hj⟩ := List.getElem?_of_mem hmem
    exact hp c' (List.mem_of_getElem? (hcommands j c' hj hb)) hb
  have hprocessed : (∃ c, s'.commands[id]? = some c ∧ c.isProcessed = true) →
      ∃ c, s.commands[id]? = some c ∧ c.isProcessed = true := by
    rintro ⟨c', hc', hp⟩
    cases hid.symm.trans hc'
    exact ⟨c, hcommands id c hid rfl, hp⟩
  have htaken (ht : s'.IsTaken id) : s.IsTaken id := by
    rcases ht with hp | ⟨i, t, c', hr, hc', heq⟩
    · exact .inl (hprocessed hp)
    · rcases hruns i t hr with hr | ⟨hnone, _⟩
      · exact .inr ⟨i, t, c', hr, hc', heq⟩
      · cases hnone.symm.trans hc'
  have hstored (ht : s'.IsStored id) : s.IsStored id := by
    rcases ht with hp | ⟨i, t, c', hr, hc', heq, hclaimed⟩
    · exact .inl (hprocessed hp)
    · rcases hruns i t hr with hr | ⟨hnone, _⟩
      · exact .inr ⟨i, t, c', hr, hc', heq, hclaimed⟩
      · cases hnone.symm.trans hc'
  exact {
    waiting hs := hprecede (h.waiting hs)
    taken ht := hprecede (h.taken (htaken ht))
    storesOnly ht := (h.storesOnly (htaken ht)).of_runs hl hfirst fun i t hr =>
      (hruns i t hr).imp_right fun hnew => .inl hnew.2
    stored ht row hrow := h.stored (hstored ht) row (hbot row hrow) }

/-- The command that is accepted is the last one of its bot. -/
theorem System.Ordered.accept {command : CommandKind} (h : s.Ordered) (hr : s.Regular)
    (hfirst : s.StoresFirst) (hp : s.Precede botId command.desiredState createdAt) :
    (s.accept botId command createdAt).Ordered := by
  intro id c hid hnewest
  have hcommands : (s.accept botId command createdAt).commands =
      s.commands ++ [({ botId, command, createdAt } : CommandRow)] := rfl
  rw [System.isNewest_iff, hcommands] at hnewest
  rw [hcommands, List.getElem?_append] at hid
  split at hid
  next hlt =>
    have hb : botId ≠ c.botId :=
      hnewest _ _ hlt (List.getElem?_concat_length ..)
    have hold : s.IsNewest id c.botId := by
      refine System.isNewest_iff.mpr fun j c' hj hc' => hnewest j c' hj ?_
      rw [List.getElem?_append_left (List.getElem?_eq_some_iff.mp hc').1]
      exact hc'
    refine (h id c hid hold).quiet hr.listed hfirst ?_ (fun j c' hj hb' => ?_) (fun row hrow => ?_)
      fun i t ht => .inl ht
    · rw [hcommands, List.getElem?_append_left hlt]
      exact hid
    · rw [hcommands, List.getElem?_append] at hj
      split at hj
      next => exact hj
      next =>
        cases List.mem_singleton.mp (List.mem_of_getElem? hj)
        exact absurd hb' hb
    · rw [System.accept, System.bot_updateBot, if_neg hb] at hrow
      exact hrow
  next hge =>
    have hc := List.mem_singleton.mp (List.mem_of_getElem? hid)
    subst hc
    have hlength : id = s.commands.length := by
      have hlt := (List.getElem?_eq_some_iff.mp hid).1
      rw [List.length_singleton] at hlt
      exact Nat.le_antisymm (Nat.sub_eq_zero_iff_le.mp (Nat.lt_one_iff.mp hlt))
        (Nat.le_of_not_lt hge)
    subst hlength
    have htaken : ¬ (s.accept botId command createdAt).IsTaken s.commands.length := by
      rintro (⟨c, hc, hprocessed⟩ | ⟨i, t, c, hruns, hc, heq⟩)
      · rw [hcommands, List.getElem?_concat_length] at hc
        cases hc
        cases hprocessed
      · obtain ⟨row, hrow, _⟩ := hr.claimed i t hruns.2 c hc
        rw [heq, List.getElem?_length] at hrow
        cases hrow
    refine ⟨fun _ c hmem hb hs hremoved hne => ?_, fun ht => absurd ht htaken,
      fun ht => absurd ht htaken, fun ht => absurd ht.isTaken htaken⟩
    rcases List.mem_append.mp hmem with hmem | hmem
    · exact hp c hmem hb hs hremoved hne
    · cases List.mem_singleton.mp hmem
      exact absurd rfl hne

theorem System.Precede.serve {r : Request} {x : Except String r.Answer} {u : System}
    (h : s.Precede botId d createdAt) (hserve : s.serve bound i r outcome = some (x, u)) :
    u.Precede botId d createdAt := by
  intro c' hmem hb hs hremoved hd
  obtain ⟨j, hj⟩ := List.getElem?_of_mem hmem
  obtain ⟨c, hc, rfl | ⟨choice, rfl⟩⟩ := serve_row hserve hj
  · exact h c' (List.mem_of_getElem? hc) hb hs hremoved hd
  · rw [Request.onRow_createdAt]
    rw [Request.onRow_botId] at hb
    rw [Request.onRow_command] at hd
    exact h c (List.mem_of_getElem? hc) hb (Request.onRow_pending hs)
      (Request.onRow_isRemoved hremoved) hd

section Serve

variable {i : InstanceId} {n : Nat} {r : Request} {k : Except String (api.Answer r) → Prog Unit}
  {history : List ((r : Request) × Except String r.Answer)} {outcome : Outcome}
  {x : Except String r.Answer} {u : System}

/-- What is to be stored next was claimed just now. -/
theorem System.StoresFirst.claimed (hfirst : s.StoresFirst)
    (hn : (s.instances i).tasks[n]? = some ⟨.await r k, history⟩)
    (h : Task.isClaimed ⟨k x, ⟨r, x⟩ :: history⟩ = true) : ∃ c,
      (⟨r, x⟩ : (r : Request) × Except String r.Answer) = ⟨.claimCommand, .ok (some c)⟩ :=
  claimedAfter_cases (hfirst.pending (List.mem_of_getElem? hn) rfl) h

/-- A command that is processed was processed, or a task handles it whose answer this is. -/
theorem serve_processed (hr : s.Regular)
    (hn : (s.instances i).tasks[n]? = some ⟨.await r k, history⟩)
    (hserve : s.serve bound i r outcome = some (x, u))
    (h : ∃ c, u.commands[id]? = some c ∧ c.isProcessed = true) :
    (∃ c, s.commands[id]? = some c ∧ c.isProcessed = true) ∨
      ∃ c : BotCommand, (Task.progress ⟨.await r k, history⟩).Handles c ∧ c.id = id ∧
        r.isStoring = false := by
  have hallowed := (hr.follows i _ (List.mem_of_getElem? hn)).allowed (r := r) rfl
  obtain ⟨c', hc', hp⟩ := h
  obtain ⟨c, hc, rfl | ⟨choice, rfl⟩⟩ := serve_row hserve hc'
  · exact .inl ⟨c', hc, hp⟩
  rcases Request.onRow_processed hp with hp | rfl | ⟨error, rfl⟩
  · exact .inl ⟨c, hc, hp⟩
  · obtain ⟨c₀, hc₀, hid, _⟩ := hallowed
    exact .inr ⟨c₀, hc₀, hid, rfl⟩
  · obtain ⟨c₀, hc₀, hid⟩ := hallowed
    exact .inr ⟨c₀, hc₀, hid, rfl⟩

/-- A command that is taken was taken, or was claimed just now. -/
theorem System.IsTaken.served (hr : s.Regular) (hup : (s.instances i).life = .up)
    (hn : (s.instances i).tasks[n]? = some ⟨.await r k, history⟩)
    (hserve : s.serve bound i r outcome = some (x, u)) (hcommands : s'.commands = u.commands)
    (hruns : ∀ i' t', s'.Runs i' t' → s.Runs i' t' ∨
      (t'.progress.command = none ∧ t'.isClaimed = false) ∨ t' = ⟨k x, ⟨r, x⟩ :: history⟩)
    (h : s'.IsTaken id) : s.IsTaken id ∨ ∃ c,
      (⟨r, x⟩ : (r : Request) × Except String r.Answer) =
        ⟨.claimCommand, .ok (some c)⟩ ∧ c.id = id := by
  have hmem := List.mem_of_getElem? hn
  rcases h with hp | ⟨i', t', c', ht', hc', hid⟩
  · rw [hcommands] at hp
    rcases serve_processed hr hn hserve hp with hp | ⟨c, hc, hid, _⟩
    · exact .inl (.inl hp)
    · exact .inl (.inr ⟨i, _, c, ⟨hup, hmem⟩, hc.1, hid⟩)
  · rcases hruns i' t' ht' with ht' | ⟨hnone, _⟩ | rfl
    · exact .inl (.inr ⟨i', t', c', ht', hc', hid⟩)
    · cases hnone.symm.trans hc'
    · rcases Progress.after_command hc' with hold | hx
      · exact .inl (.inr ⟨i, _, c', ⟨hup, hmem⟩, hold, hid⟩)
      · exact .inr ⟨c', hx, hid⟩

/-- A command that is stored was stored, or is stored just now. -/
theorem System.IsStored.served (hr : s.Regular) (hfirst : s.StoresFirst)
    (hup : (s.instances i).life = .up)
    (hn : (s.instances i).tasks[n]? = some ⟨.await r k, history⟩)
    (hserve : s.serve bound i r outcome = some (x, u)) (hcommands : s'.commands = u.commands)
    (hruns : ∀ i' t', s'.Runs i' t' → s.Runs i' t' ∨
      (t'.progress.command = none ∧ t'.isClaimed = false) ∨ t' = ⟨k x, ⟨r, x⟩ :: history⟩)
    (h : s'.IsStored id) : s.IsStored id ∨ ∃ c, s.handled i n = some c ∧ c.id = id ∧
      r = .updateDesiredState c.botId c.command.desiredState := by
  have hmem := List.mem_of_getElem? hn
  have hstoring : r.isStoring = _ := hfirst.pending hmem rfl
  rcases h with hp | ⟨i', t', c', ht', hc', hid, hclaimed⟩
  · rw [hcommands] at hp
    rcases serve_processed hr hn hserve hp with hp | ⟨c, hc, hid, hs⟩
    · exact .inl (.inl hp)
    · exact .inl (.inr ⟨i, _, c, ⟨hup, hmem⟩, hc.1, hid, hstoring.symm.trans hs⟩)
  · rcases hruns i' t' ht' with ht' | ⟨hnone, _⟩ | rfl
    · exact .inl (.inr ⟨i', t', c', ht', hc', hid, hclaimed⟩)
    · cases hnone.symm.trans hc'
    rcases Progress.after_command hc' with hold | hx
    swap
    · cases hx
      cases hclaimed
    cases hs : r.isStoring with
    | false => exact .inl (.inr ⟨i, _, c', ⟨hup, hmem⟩, hold, hid, hstoring.symm.trans hs⟩)
    | true =>
      cases r with
      | updateDesiredState botId desiredState =>
        obtain ⟨c₀, hc₀, rfl, rfl⟩ :=
          (hr.follows i _ hmem).allowed (r := .updateDesiredState ..) rfl
        cases hold.symm.trans hc₀.1
        refine .inr ⟨c', ?_, hid, rfl⟩
        rw [System.handled, hn]
        exact hold
      | _ => cases hs

/-- What the task that was served is to store belongs to the next command. -/
theorem System.Precede.claims (h : s.Precede botId d 0) (hfirst : s.StoresFirst) (hr' : s'.Regular)
    (hn : (s.instances i).tasks[n]? = some ⟨.await r k, history⟩)
    (hserve : s.serve bound i r outcome = some (x, u))
    (ht : s'.Runs i' ⟨k x, ⟨r, x⟩ :: history⟩)
    (hclaimed : Task.isClaimed ⟨k x, ⟨r, x⟩ :: history⟩ = true) :
    ∀ d' ∈ (k x).pending.bind (Request.storedState botId), d' = d := by
  intro d' hd'
  obtain ⟨c₂, hx⟩ := hfirst.claimed hn hclaimed
  cases hx
  obtain ⟨row, _, ⟨hrow, hs, hremoved, _⟩, hb, hcommand⟩ := serve_claimed hserve rfl
  obtain ⟨r₂, hr₂, hd'⟩ := Option.bind_eq_some_iff.mp hd'
  cases Request.eq_of_storedState hd'
  obtain ⟨c₃, ⟨hc₃, _⟩, hb₃, rfl⟩ := (hr'.follows i' _ ht.2).allowed hr₂
  cases (hc₃ : some c₂ = some c₃)
  rw [← hcommand]
  exact h.eq (List.mem_of_getElem? hrow) (hb.trans hb₃) hs hremoved

/-- Once the last command is stored, the bot has its state. -/
theorem System.Overrides.served_stored (h : s.Overrides id c) (hr : s.Regular)
    (hc : s.commands[id]? = some c) (hnewest : s.IsNewest id c.botId)
    (hup : (s.instances i).life = .up)
    (hn : (s.instances i).tasks[n]? = some ⟨.await r k, history⟩)
    (hserve : s.serve bound i r outcome = some (x, u)) (hk : s.KeepsOrder (.serve i n outcome))
    (hst : s.IsStored id ∨ ∃ c, s.handled i n = some c ∧ c.id = id ∧
      r = .updateDesiredState c.botId c.command.desiredState)
    (hrow : u.bot c.botId = some row) : row.desiredState = c.command.desiredState := by
  have hmem := List.mem_of_getElem? hn
  obtain ⟨row₀, hrow₀, hd⟩ := serve_desiredState hserve hrow
  rcases hst with hst | ⟨c₂, hhandled, hid, rfl⟩
  · rcases hd with hd | ⟨rfl, _⟩
    · cases hs : r.storedState c.botId with
      | none =>
        rw [hs] at hd
        exact hd.trans (h.stored hst row₀ hrow₀)
      | some d =>
        rw [hs] at hd
        have hlisted := hr.listed i (by rw [hup]; exact nofun)
        exact hd.trans (h.storesOnly hst.isTaken i hlisted hup _ hmem d hs)
    · exact h.stored hst row hrow₀
  · have hcommand : (Task.progress ⟨.await _ k, history⟩).command = some c₂ := by
      rw [System.handled, hn] at hhandled
      exact hhandled
    obtain ⟨c', hc', hb, hkind⟩ := hr.claimed i _ hmem c₂ hcommand
    rw [hid] at hc'
    cases hc.symm.trans hc'
    rw [hkind]
    rcases hd with hd | ⟨rfl, message, rfl⟩
    · rw [Request.storedState, if_pos hb.symm] at hd
      exact hd
    · rw [hb] at hnewest hrow₀
      refine hk c₂ hhandled ?_ (hid ▸ hnewest) row hrow₀
      rw [System.pending_eq hn]
      rfl

theorem System.Ordered.serve (h : s.Ordered) (hr : s.Regular) (hfirst : s.StoresFirst)
    (hr' : s'.Regular) (hfirst' : s'.StoresFirst) (hup : (s.instances i).life = .up)
    (hn : (s.instances i).tasks[n]? = some ⟨.await r k, history⟩)
    (hserve : s.serve bound i r outcome = some (x, u)) (hk : s.KeepsOrder (.serve i n outcome))
    (hcommands : s'.commands = u.commands) (hbots : s'.bots = u.bots)
    (hkept : ∀ (j : CommandId) (c : CommandRow), s.commands[j]? = some c →
      ∃ c', s'.commands[j]? = some c' ∧ c'.botId = c.botId)
    (hruns : ∀ i' t', s'.Runs i' t' → s.Runs i' t' ∨
      (t'.progress.command = none ∧ t'.isClaimed = false) ∨ t' = ⟨k x, ⟨r, x⟩ :: history⟩) :
    s'.Ordered := by
  intro id c' hid hnewest
  rw [hcommands] at hid
  obtain ⟨c, hc, hrow⟩ := serve_row hserve hid
  obtain ⟨hb, hcommand⟩ : c'.botId = c.botId ∧ c'.command = c.command := by
    rcases hrow with rfl | ⟨choice, rfl⟩
    · exact ⟨rfl, rfl⟩
    · exact ⟨Request.onRow_botId .., Request.onRow_command ..⟩
  have hnewest : s.IsNewest id c.botId := by
    refine System.isNewest_iff.mpr fun j d hj hd => ?_
    obtain ⟨d', hd', hdb⟩ := hkept j d hd
    exact hdb ▸ hb ▸ System.isNewest_iff.mp hnewest j d' hj hd'
  have hover := h id c hc hnewest
  have hprecede {createdAt : Nat} (hp : s.Precede c.botId c.command.desiredState createdAt) :
      s'.Precede c'.botId c'.command.desiredState createdAt := by
    rw [System.Precede, hcommands, hb, hcommand]
    exact hp.serve hserve
  -- the claim of the last command finds nothing that would override it
  have htaken (ht : s'.IsTaken id) : s.Precede c.botId c.command.desiredState 0 ∧
      s.StoresOnly c.botId c.command.desiredState := by
    rcases ht.served hr hup hn hserve hcommands hruns with ht | ⟨c₂, hx, rfl⟩
    · exact ⟨hover.taken ht, hover.storesOnly ht⟩
    cases hx
    obtain ⟨row, rfl, ⟨hid', hs, _⟩, _⟩ := serve_claimed hserve rfl
    cases hc.symm.trans hid'
    obtain ⟨hskips, hstores⟩ := hk c hc hnewest
    refine ⟨fun d hd hdb hds hdr hne => ?_, hstores⟩
    exact absurd (hover.waiting hs d hd hdb hds hdr hne)
      (Nat.not_lt.mpr (hskips d hd hdb hds hdr hne))
  refine ⟨fun hs => ?_, fun ht => hprecede (htaken ht).1, fun ht => ?_, fun ht row hrow' => ?_⟩
  · rcases hrow with rfl | ⟨choice, rfl⟩
    · exact hprecede (hover.waiting hs)
    · rw [Request.onRow_createdAt]
      exact hprecede (hover.waiting (Request.onRow_pending hs))
  · rw [hb, hcommand]
    refine (htaken ht).2.of_runs hr.listed hfirst' fun i' t' ht' => ?_
    rcases hruns i' t' ht' with hold | ⟨_, hclaimed⟩ | rfl
    · exact .inl hold
    · exact .inr (.inl hclaimed)
    · cases hclaimed : Task.isClaimed ⟨k x, ⟨r, x⟩ :: history⟩ with
      | false => exact .inr (.inl rfl)
      | true => exact .inr (.inr ((htaken ht).1.claims hfirst hr' hn hserve ht' hclaimed))
  · rw [hb, System.bot, hbots] at hrow'
    rw [hcommand]
    exact hover.served_stored hr hc hnewest hup hn hserve hk
      (ht.served hr hfirst hup hn hserve hcommands hruns) hrow'

end Serve

theorem System.Ordered.step (h : s.Ordered) (hr : s.Regular) (hfirst : s.StoresFirst)
    (ht : s.Targeted) (hstep : s.step bound e = some s') (hk : s.KeepsOrder e) : s'.Ordered := by
  have hr' := hr.step hstep
  have hfirst' := hfirst.step hstep
  -- the rows and the tasks are the same, but for tasks that have just been started
  have hquiet (hcommands : s'.commands = s.commands) (hbots : s'.bots = s.bots)
      (hruns : ∀ i t, s'.Runs i t →
        s.Runs i t ∨ (t.progress.command = none ∧ t.isClaimed = false)) : s'.Ordered := by
    intro id c hid hnewest
    have hold : s.commands[id]? = some c := hcommands ▸ hid
    refine (h id c hold ?_).quiet hr.listed hfirst' hid (fun j c' hj _ => hcommands ▸ hj) ?_ hruns
    · rw [System.IsNewest, ← hcommands]
      exact hnewest
    · rw [System.bot, System.bot, hbots]
      exact fun _ hrow => hrow
  have hruns (hserve : ∀ i n outcome, e ≠ .serve i n outcome) (i : InstanceId) (t : Task)
      (htask : s'.Runs i t) : s.Runs i t ∨ (t.progress.command = none ∧ t.isClaimed = false) := by
    cases System.task_step hstep htask.2 with
    | kept hl hmem => exact .inl ⟨hl.symm.trans htask.1, hmem⟩
    | spawned => exact .inr ⟨rfl, rfl⟩
    | served => exact absurd rfl (hserve _ _ _)
  cases System.step_cases hstep with
  | api hcall =>
    obtain ⟨_, rfl⟩ | ⟨botId, command, createdAt, _, rfl, rfl | ⟨rfl, rfl⟩⟩ :=
      System.call_cases hcall
    · intro id c hid hnewest
      refine (h id c hid hnewest).quiet hr.listed hfirst' hid
        (fun j c' hj _ => hj) (fun row hrow => ?_)
        (hruns fun _ _ _ hserve => by cases hserve)
      rw [System.bot, List.getElem?_append_left (ht c (List.mem_of_getElem? hid))] at hrow
      exact hrow
    · exact h.accept hr hfirst hk
    · exact h.accept hr hfirst hk
  | boot => exact hquiet rfl rfl (hruns fun _ _ _ hserve => by cases hserve)
  | @serve i n r k history outcome x u hup hn hserve =>
    refine h.serve hr hfirst hr' hfirst' hup hn hserve hk rfl rfl
      (fun j c hc => ?_) fun i' t' ht' => ?_
    · obtain ⟨c', hc', hrow⟩ := System.row_kept hstep hc
      exact ⟨c', hc', hrow.botId⟩
    · cases System.task_step hstep ht'.2 with
      | kept hl hmem => exact .inl ⟨hl.symm.trans ht'.1, hmem⟩
      | spawned => exact .inr (.inl ⟨rfl, rfl⟩)
      | served _ hn' hserve' =>
        cases hn.symm.trans hn'
        cases hserve.symm.trans hserve'
        exact .inr (.inr rfl)
  | disconnect =>
    obtain ⟨lock, heq⟩ := s.unlocked_eq _
    exact hquiet (by rw [heq]) (by rw [heq]) (hruns fun _ _ _ hserve => by cases hserve)
  | crash =>
    obtain ⟨lock, heq⟩ := s.unlocked_eq _
    exact hquiet (by rw [heq]; rfl) (by rw [heq]; rfl) (hruns fun _ _ _ hserve => by cases hserve)
  | other hp =>
    refine hquiet hp.commands hp.bots fun i t htask => ?_
    obtain ⟨new, _, htasks⟩ := (hp.grows i).tasks
    rw [System.Runs, hp.life, htasks] at htask
    rcases List.mem_append.mp htask.2 with hmem | hmem
    · exact .inl ⟨htask.1, hmem⟩
    · obtain ⟨p, _, rfl⟩ := List.mem_map.mp hmem
      exact .inr ⟨rfl, rfl⟩

/-- In every run whose steps keep the order, a bot whose commands are processed has the
`desired_state` of the last one that was accepted. -/
theorem last_command_wins (bound : Nat) {s₀ s : System} (hs₀ : s₀.Fresh) (hnone : s₀.commands = [])
    (h : Run (Meeting (Stepping (System.step bound)) fun s e _ => s.KeepsOrder e) s₀ es s) :
    s.LastWins := by
  have htargeted : s₀.Targeted := by
    rw [System.Targeted, hnone]
    exact fun c hc => absurd hc List.not_mem_nil
  have hordered : s₀.Ordered := by
    rw [System.Ordered, hnone]
    exact fun id c hc => by cases hc
  have hinv : s.Regular ∧ s.StoresFirst ∧ s.Targeted ∧ s.Ordered := by
    refine h.invariant (I := fun s => s.Regular ∧ s.StoresFirst ∧ s.Targeted ∧ s.Ordered)
      (fun s e s' ⟨hr, hfirst, ht, ho⟩ ⟨hstep, hk⟩ => ?_)
      ⟨hs₀.regular, hs₀.storesFirst, htargeted, hordered⟩
    exact ⟨hr.step hstep, hfirst.step hstep, ht.step hstep, ho.step hr hfirst ht hstep hk⟩
  obtain ⟨_, _, _, ho⟩ := hinv
  intro id c row hc hnewest hrow hprocessed
  have hlast := hprocessed c (List.mem_of_getElem? hc) rfl
  exact (ho id c hc hnewest).stored (.inl ⟨c, hc, hlast⟩) row hrow

/-! ## Two runs -/

/-- A bot runs, and a STOP and then a START are accepted, whose transactions began at these
moments. -/
def stoppedAndStarted (stopAt startAt : Nat) : List Event :=
  startHandled ++ [.api (.command 0 .stop stopAt), .api (.command 0 .start startAt)]

/-- The worker stops the child. -/
def childStopped : List Event := served 0 0 3 ++ [.receive 0, .exit 0] ++ served 0 0 4

/-- The STOP began first. It is handled first, and the START forks again. -/
def startedLast : List Event :=
  stoppedAndStarted 1 2 ++ [.serve 0 0 (.ok (.claimed 1))] ++ childStopped ++ served 0 0 2 ++
    [.serve 0 0 (.ok (.claimed 2))] ++ served 0 0 2 ++ loading 0 0 ++ served 0 0 4

theorem startedLast_keepsOrder :
    (execWhere (System.step 4) System.KeepsOrder {} startedLast).isSome := by decide +kernel

theorem last_command_wins_startedLast :
    (((execWhere (System.step 4) System.KeepsOrder {} startedLast).get
      startedLast_keepsOrder).bot 0).map (·.desiredState) = some .running := by
  have hrow : (((execWhere (System.step 4) System.KeepsOrder {} startedLast).get
    startedLast_keepsOrder).bot 0).isSome := by decide +kernel
  obtain ⟨row, hrow⟩ := Option.isSome_iff_exists.mp hrow
  rw [hrow]
  exact congrArg some (last_command_wins 4 .empty rfl
    (Run.of_execWhere_get startedLast_keepsOrder) 2
    ⟨0, .start, 2, .succeeded, none, false⟩ row (by decide +kernel) (by decide +kernel) hrow
    (by decide +kernel))

/-- The START began first, and waited for the lock until the STOP was accepted. It is handled first
and finds the child running, and then the STOP stops the bot. -/
def startedFirst : List Event :=
  stoppedAndStarted 2 1 ++ [.serve 0 0 (.ok (.claimed 2))] ++ served 0 0 6 ++
    [.serve 0 0 (.ok (.claimed 1))] ++ childStopped

theorem startedFirst_enabled : (exec (System.step 4) {} startedFirst).isSome := by decide +kernel

/-- The START was accepted last, both commands have succeeded, and the bot is to be stopped. -/
theorem last_command_overridden :
    ∃ s, Run (Stepping (System.step 4)) {} startedFirst s ∧ ¬ s.LastWins := by
  refine ⟨_, Run.of_exec_get startedFirst_enabled, fun h => ?_⟩
  have hrow : (((exec (System.step 4) {} startedFirst).get startedFirst_enabled).bot 0).map
      (·.desiredState) = some .stopped := by decide +kernel
  obtain ⟨row, hrow, hstopped⟩ := Option.map_eq_some_iff.mp hrow
  have hrunning := h 2 ⟨0, .start, 1, .succeeded, none, false⟩ row (by decide +kernel)
    (by decide +kernel) hrow (by decide +kernel)
  cases hstopped.symm.trans hrunning

end Tonatiuh.Supervisor
