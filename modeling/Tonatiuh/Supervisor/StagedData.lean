import Mathlib.Data.Set.Card
import Tonatiuh.Supervisor.BotEdits
import Tonatiuh.Supervisor.ClaimedRows

/-! Data directories whose deletion has begun.

The next leader does not look for staged directories. Those that exist are in the hands of tasks
that will remove them, or give them their name back, as long as no such task ends before. -/

namespace Tonatiuh.Supervisor

open Async Transition

/-- The task has renamed the directory of the bot. -/
def Progress.stages (g : Progress) (botId : BotId) : Prop :=
  g.staged = true ∧ ∃ c, g.command = some c ∧ c.botId = botId

/-- The tasks of workers that are up that have renamed the directory of the bot. -/
def System.stagers (s : System) (botId : BotId) : Set (InstanceId × Nat) :=
  {p | (s.instances p.1).life = .up ∧
    ∃ t, (s.instances p.1).tasks[p.2]? = some t ∧ t.progress.stages botId}

/-- The bot has been created, and its row is deleted. -/
def System.IsDeleted (s : System) (botId : BotId) : Prop :=
  botId < s.bots.length ∧ s.bot botId = none

/-- A trading process of the bot runs. -/
def System.HasChild (s : System) (botId : BotId) : Prop :=
  ∃ c ∈ s.children, c.botId = botId ∧ c.isAlive = true

instance (s : System) (botId : BotId) : Decidable (s.HasChild botId) := by
  unfold System.HasChild
  infer_instance

/-- A worker gives a directory its name, and forks a process, only while the bot has a row. The row
is deleted only while no directory has the name and no process of the bot runs, which would make it
again when it starts. A directory that is staged is removed or gets its name back, whatever ends. -/
def System.KeepsData (s : System) : Event → Prop
  | .crash i => ∀ t ∈ (s.instances i).tasks, t.progress.staged = false
  | .serve i n outcome =>
    match s.pending i n with
    | some (.mkdir botId) => outcome.committed.isSome = true → (s.bot botId).isSome = true
    | some (.fork botId _) => outcome.committed.isSome = true → (s.bot botId).isSome = true
    | some (.unstage botId) => outcome.committed.isSome = true ∧ (s.bot botId).isSome = true
    | some (.rm _) => outcome.committed.isSome = true
    | some (.deleteRows botId) => outcome.committed.isSome = true →
        (s.directories botId).isPresent = false ∧ ¬ s.HasChild botId
    | _ => True
  | _ => True

instance (s : System) (e : Event) : Decidable (s.KeepsData e) := by
  unfold System.KeepsData
  induction e using Event.casesOn with
  | crash => dsimp only; infer_instance
  | serve i n outcome =>
    dsimp only
    generalize s.pending i n = pending
    induction pending using Option.casesOn with
    | none => exact instDecidableTrue
    | some request => induction request using Request.casesOn <;> dsimp only <;> infer_instance
  | _ => exact instDecidableTrue

/-- The data of a bot are removed with its rows, but for what tasks still hold. -/
structure System.Tidy (s : System) : Prop where
  absent : ∀ botId, s.IsDeleted botId → (s.directories botId).isPresent = false
  ended : ∀ botId, s.IsDeleted botId → ¬ s.HasChild botId
  staged : ∀ botId, (s.stagers botId).encard = (s.directories botId).staged

variable {s s' : System} {botId : BotId}

/-! ## Directories -/

/-- What a request does to a directory when it takes effect. -/
def Request.onDirectory (r : Request) (botId : BotId) (d : DataDirectory) : DataDirectory :=
  match r with
  | .mkdir botId' => if botId' = botId then { d with isPresent := true } else d
  | .stage botId' =>
    if botId' = botId ∧ d.isPresent = true then { isPresent := false, staged := d.staged + 1 }
    else d
  | .unstage botId' =>
    if botId' = botId then { isPresent := true, staged := d.staged - 1 } else d
  | .rm botId' => if botId' = botId then { d with staged := d.staged - 1 } else d
  | _ => d

theorem System.directories_updateDirectory (s : System) (f : DataDirectory → DataDirectory)
    (botId' : BotId) : (s.updateDirectory botId' f).directories botId =
      if botId' = botId then f (s.directories botId) else s.directories botId := by
  by_cases hb : botId' = botId
  · subst hb
    rw [if_pos rfl]
    exact Function.update_self ..
  · rw [if_neg hb]
    exact Function.update_of_ne (Ne.symm hb) ..

theorem complete_directories {r : Request} {a : r.Answer}
    (h : s.complete bound i r choice = some (a, s'))
    (botId : BotId) : s'.directories botId = r.onDirectory botId (s.directories botId) := by
  by_cases hr : r.changesDirectories = false
  · rw [(complete_unchanged h).directories hr]
    cases r with
    | mkdir | stage | unstage | rm => cases hr
    | _ => rfl
  cases r with
  | mkdir | unstage | rm =>
    cases choice with
    | done =>
      cases h
      exact System.directories_updateDirectory ..
    | _ => cases h
  | stage botId' =>
    cases choice with
    | done =>
      simp only [System.complete] at h
      split at h
      next hthere =>
        cases h
        rw [System.directories_updateDirectory]
        by_cases hb : botId' = botId
        · subst hb
          rw [if_pos rfl, Request.onDirectory, if_pos ⟨rfl, hthere⟩]
        · rw [if_neg hb, Request.onDirectory, if_neg fun h => hb h.1]
      next hnone =>
        cases h
        rw [Request.onDirectory, if_neg]
        rintro ⟨rfl, hthere⟩
        exact hnone hthere
    | _ => cases h
  | _ => exact absurd rfl hr

/-- A directory is there after a request only if it was before, or is given its name. -/
theorem Request.onDirectory_isPresent {r : Request} {d : DataDirectory}
    (h : (r.onDirectory botId d).isPresent = true) :
    d.isPresent = true ∨ r = .mkdir botId ∨ r = .unstage botId := by
  cases r with
  | mkdir botId' =>
    by_cases hb : botId' = botId
    · exact .inr (.inl (hb ▸ rfl))
    · exact .inl ((congrArg DataDirectory.isPresent (if_neg hb)).symm.trans h)
  | unstage botId' =>
    by_cases hb : botId' = botId
    · exact .inr (.inr (hb ▸ rfl))
    · exact .inl ((congrArg DataDirectory.isPresent (if_neg hb)).symm.trans h)
  | stage | rm =>
    simp only [Request.onDirectory] at h
    split at h
    next => first | cases h | exact .inl h
    next => exact .inl h
  | _ => exact .inl h

/-- The row of a bot goes with `deleteRows` only. -/
theorem complete_deleted {r : Request} {a : r.Answer}
    (h : s.complete bound i r choice = some (a, s'))
    (hnone : s'.bot botId = none) : s.bot botId = none ∨ r = .deleteRows botId := by
  have hd := complete_desiredState h botId
  rw [hnone] at hd
  split at hd
  next hdeletes =>
    cases r with
    | deleteRows botId' => exact .inr (congrArg Request.deleteRows (of_decide_eq_true hdeletes))
    | _ => cases hdeletes
  next => exact .inl (Option.map_eq_none_iff.mp hd.symm)

/-- A row that is gone was gone before, or is deleted while its directory is not there and no
process of its bot runs. -/
theorem System.IsDeleted.of_step (h : s'.IsDeleted botId) (hstep : s.step bound e = some s')
    (hk : s.KeepsData e) : s.IsDeleted botId ∨ s'.directories = s.directories ∧
      s'.children = s.children ∧ (s.directories botId).isPresent = false ∧ ¬ s.HasChild botId := by
  obtain ⟨hlt, hnone⟩ := h
  cases System.step_cases hstep with
  | api hcall =>
    obtain ⟨_, rfl⟩ | ⟨botId', command, createdAt, _, rfl, _⟩ := System.call_cases hcall
    · by_cases hb : botId < s.bots.length
      · rw [System.bot, List.getElem?_append_left hb] at hnone
        exact .inl ⟨hb, hnone⟩
      · have hlt : botId < (s.bots ++ [some ({} : TradingBot)]).length := hlt
        rw [List.length_append, List.length_singleton] at hlt
        obtain rfl : botId = s.bots.length :=
          Nat.le_antisymm (Nat.le_of_lt_succ hlt) (Nat.le_of_not_lt hb)
        rw [System.bot, List.getElem?_concat_length] at hnone
        cases hnone
    · rw [System.accept, System.bot_updateBot] at hnone
      have hlt : botId < (s.bots.modify botId' _).length := hlt
      rw [List.length_modify] at hlt
      refine .inl ⟨hlt, ?_⟩
      split at hnone
      next hb =>
        subst hb
        exact Option.map_eq_none_iff.mp hnone
      next => exact hnone
  | boot => exact .inl ⟨hlt, hnone⟩
  | @serve i n r k history outcome x u hup hn hserve =>
    have hnone : u.bot botId = none := hnone
    have hlt : botId < s.bots.length := serve_length hserve ▸ hlt
    have hcomplete {a : r.Answer} {choice : Choice} (hc : s.complete bound i r choice = some (a, u))
        (hcommitted : outcome.committed.isSome = true) : s.IsDeleted botId ∨
          u.directories = s.directories ∧ u.children = s.children ∧
            (s.directories botId).isPresent = false ∧ ¬ s.HasChild botId := by
      obtain hold | rfl := complete_deleted hc hnone
      · exact .inl ⟨hlt, hold⟩
      · simp only [System.KeepsData, System.pending_eq hn] at hk
        have hu := complete_unchanged hc
        exact .inr ⟨hu.directories rfl, hu.children rfl, hk hcommitted⟩
    obtain ⟨_, _, rfl, _, hc⟩ | ⟨_, _, _, _, rfl⟩ | ⟨_, _, _, rfl, _, _, hc⟩ := serve_cases hserve
    · exact hcomplete hc rfl
    · exact .inl ⟨hlt, hnone⟩
    · exact hcomplete hc rfl
  | disconnect | crash =>
    obtain ⟨lock, heq⟩ := s.unlocked_eq _
    rw [heq] at hlt hnone
    exact .inl ⟨hlt, hnone⟩
  | other hp =>
    rw [hp.bots] at hlt
    rw [System.bot, hp.bots] at hnone
    exact .inl ⟨hlt, hnone⟩

/-- The directories are changed by requests that take effect, and by processes that run. -/
theorem System.directories_step (hstep : s.step bound e = some s') (botId : BotId) :
    s'.directories botId = s.directories botId ∨
    (s.HasChild botId ∧ s'.directories botId = { s.directories botId with isPresent := true }) ∨
    ∃ i n outcome r, e = .serve i n outcome ∧ s.pending i n = some r ∧
      outcome.committed.isSome = true ∧
      s'.directories botId = r.onDirectory botId (s.directories botId) := by
  cases System.step_cases hstep with
  | api hcall => exact .inl (congrFun (System.call_called hcall).directories botId)
  | boot => exact .inl rfl
  | @serve i n r k history outcome x u hup hn hserve =>
    obtain ⟨_, _, rfl, _, hc⟩ | ⟨_, _, _, _, rfl⟩ | ⟨_, _, _, rfl, _, _, hc⟩ := serve_cases hserve
    · exact .inr (.inr ⟨i, n, _, r, rfl, System.pending_eq hn, rfl, complete_directories hc botId⟩)
    · exact .inl rfl
    · exact .inr (.inr ⟨i, n, _, r, rfl, System.pending_eq hn, rfl, complete_directories hc botId⟩)
  | disconnect | crash =>
    obtain ⟨lock, heq⟩ := s.unlocked_eq _
    rw [heq]
    exact .inl rfl
  | other hp =>
    obtain heq | ⟨c, hc, ha, heq⟩ := hp.directories
    · exact .inl (congrFun heq botId)
    · have hd := congrFun heq botId
      rw [System.directories_updateDirectory] at hd
      split at hd
      next hb => exact .inr (.inl ⟨⟨c, hc, hb, ha⟩, hd⟩)
      next => exact .inl hd

theorem System.Tidy.absent_step (h : s.Tidy) (hstep : s.step bound e = some s') (hk : s.KeepsData e)
    (hb : s'.IsDeleted botId) : (s'.directories botId).isPresent = false := by
  obtain hold | ⟨heq, _, hnone, _⟩ := hb.of_step hstep hk
  swap
  · rw [heq]
    exact hnone
  have habsent := h.absent botId hold
  obtain heq | ⟨hchild, _⟩ | ⟨i, n, outcome, r, rfl, hpending, hcommitted, heq⟩ :=
    System.directories_step hstep botId
  · rw [heq]
    exact habsent
  · exact absurd hchild (h.ended botId hold)
  rw [heq]
  by_contra hthere
  obtain hthere | rfl | rfl := Request.onDirectory_isPresent (Bool.eq_true_of_not_eq_false hthere)
  · cases habsent.symm.trans hthere
  · simp only [System.KeepsData, hpending, hold.2] at hk
    cases hk hcommitted
  · simp only [System.KeepsData, hpending, hold.2] at hk
    cases hk.2

/-! ## Processes -/

theorem System.HasChild.of_fewer (h : s'.HasChild botId) (hf : Fewer s.children s'.children) :
    s.HasChild botId := by
  obtain ⟨c', hmem, hb, ha⟩ := h
  obtain ⟨n, hn⟩ := List.getElem?_of_mem hmem
  obtain ⟨c, hc, hbot, _, halive⟩ := hf n c' hn
  exact ⟨c, List.mem_of_getElem? hc, hbot.symm.trans hb, halive ha⟩

/-- No process of a bot runs whose row is gone: a worker forks none. -/
theorem System.Tidy.ended_step (h : s.Tidy) (hstep : s.step bound e = some s') (hk : s.KeepsData e)
    (hb : s'.IsDeleted botId) : ¬ s'.HasChild botId := by
  obtain hold | ⟨_, heq, _, hnone⟩ := hb.of_step hstep hk
  swap
  · rw [System.HasChild, heq]
    exact hnone
  have hnone := h.ended botId hold
  cases System.children_step hstep with
  | fewer hf => exact fun hchild => hnone (hchild.of_fewer hf)
  | @forked i n t choice config c hup hn hpending hchildren =>
    rintro ⟨c', hmem, rfl, ha⟩
    rw [hchildren, List.mem_append] at hmem
    obtain hmem | hmem := hmem
    · exact hnone ⟨c', hmem, rfl, ha⟩
    · cases List.mem_singleton.mp hmem
      have hrequest : s.pending i n = some (.fork c.botId config) := by
        rw [System.pending, hn]
        exact hpending
      simp only [System.KeepsData, hrequest, hold.2] at hk
      cases hk rfl

/-! ## Tasks -/

/-- Only the task that is served changes whether it has renamed a directory. -/
theorem System.mem_stagers {p : InstanceId × Nat} (hstep : s.step bound e = some s')
    (hk : s.KeepsData e)
    (hp : ∀ outcome, e ≠ .serve p.1 p.2 outcome) : p ∈ s'.stagers botId ↔ p ∈ s.stagers botId := by
  constructor
  · rintro ⟨hup, t, hn, hstages⟩
    cases System.task_at hstep hn with
    | kept hl hn => exact ⟨hl.symm.trans hup, t, hn, hstages⟩
    | spawned => cases hstages.1
    | served => exact absurd rfl (hp _)
  · rintro ⟨hup, t, hn, hstages⟩
    cases System.task_kept hstep hup hn with
    | kept hup hn => exact ⟨hup, t, hn, hstages⟩
    | served => exact absurd rfl (hp _)
    | crashed =>
      cases (hk t (List.mem_of_getElem? hn)).symm.trans hstages.1

/-- The requests that rename or remove a directory. -/
def Request.movesDirectory : Request → Bool
  | .stage _ | .unstage _ | .rm _ => true
  | _ => false

theorem Progress.after_stages {g : Progress} {r : Request} {x : Except String r.Answer}
    (ha : Progress.Allowed r g) (hr : r.movesDirectory = false) :
    (g.after r x).stages botId ↔ g.stages botId := by
  have hnone (hc : g.command = none) : ¬ g.stages botId := by
    rintro ⟨_, c, hc', _⟩
    cases hc.symm.trans hc'
  have hhandles {c : BotCommand} (hc : g.Handles c) : ¬ g.stages botId := by
    rintro ⟨hstaged, _⟩
    cases hc.2.2.symm.trans hstaged
  unfold Progress.after
  split
  case h_2 => split <;> exact Iff.rfl
  case h_4 => exact iff_of_false (fun h => by cases h.1) (hnone ha.1)
  case h_13 =>
    obtain ⟨c, hc, _⟩ := ha
    exact iff_of_false (fun h => by obtain ⟨_, _, h, _⟩ := h; cases h) (hhandles hc)
  case h_14 =>
    obtain ⟨c, hc, _⟩ := ha
    exact iff_of_false (fun h => by obtain ⟨_, _, h, _⟩ := h; cases h) (hhandles hc)
  all_goals first
    | exact Iff.rfl
    | cases hr

/-! ## Staged directories -/

theorem Progress.stages_iff {g : Progress} (hc : g.command = some c) :
    g.stages botId ↔ g.staged = true ∧ c.botId = botId := by
  constructor
  · rintro ⟨hstaged, c', hc', hb⟩
    cases hc.symm.trans hc'
    exact ⟨hstaged, hb⟩
  · exact fun h => ⟨h.1, c, hc, h.2⟩

/-- Nothing else renames or removes a directory. -/
theorem Request.onDirectory_staged {r : Request} (hr : r.movesDirectory = false) (botId : BotId)
    (d : DataDirectory) : (r.onDirectory botId d).staged = d.staged := by
  cases r with
  | stage | unstage | rm => cases hr
  | mkdir =>
    simp only [Request.onDirectory]
    split <;> rfl
  | _ => rfl

/-- What has become of the task that was served, and of the directory of a bot. -/
structure Moved (s s' : System) (i : InstanceId) (n : Nat) (g g' : Progress) (botId : BotId) :
    Prop where
  others : ∀ p, p ≠ (i, n) → (p ∈ s'.stagers botId ↔ p ∈ s.stagers botId)
  before : (i, n) ∈ s.stagers botId ↔ g.stages botId
  after : (i, n) ∈ s'.stagers botId ↔ g'.stages botId

variable {i : InstanceId} {n : Nat} {g g' : Progress}

theorem Moved.same (h : Moved s s' i n g g' botId) (hs : g'.stages botId ↔ g.stages botId) :
    s'.stagers botId = s.stagers botId := by
  ext p
  by_cases hp : p = (i, n)
  · subst hp
    rw [h.before, h.after, hs]
  · exact h.others p hp

theorem Moved.staged (h : Moved s s' i n g g' botId) (hg : ¬ g.stages botId)
    (hg' : g'.stages botId) :
    (s'.stagers botId).encard = (s.stagers botId).encard + 1 := by
  rw [← Set.encard_insert_of_notMem fun hmem => hg (h.before.mp hmem)]
  congr 1
  ext p
  by_cases hp : p = (i, n)
  · subst hp
    exact iff_of_true (h.after.mpr hg') (Set.mem_insert ..)
  · rw [h.others p hp, Set.mem_insert_iff, or_iff_right hp]

theorem Moved.removed (h : Moved s s' i n g g' botId) (hg : g.stages botId)
    (hg' : ¬ g'.stages botId) :
    (s'.stagers botId).encard = (s.stagers botId).encard - 1 := by
  rw [← Set.encard_sdiff_singleton_of_mem (h.before.mpr hg)]
  congr 1
  ext p
  by_cases hp : p = (i, n)
  · subst hp
    exact iff_of_false (fun hmem => hg' (h.after.mp hmem)) fun hmem => hmem.2 rfl
  · rw [h.others p hp, Set.mem_sdiff, Set.mem_singleton_iff, and_iff_left hp]

theorem System.moved_served {r : Request} {x : Except String r.Answer}
    {k : Except String (api.Answer r) → Prog Unit}
    {history : List ((r : Request) × Except String r.Answer)} {u : System}
    (hstep : s.step bound (.serve i n outcome) = some s') (hk : s.KeepsData (.serve i n outcome))
    (hup : (s.instances i).life = .up) (hn : (s.instances i).tasks[n]? = some ⟨.await r k, history⟩)
    (hserve : s.serve bound i r outcome = some (x, u)) (botId : BotId) :
    Moved s s' i n (Task.progress ⟨.await r k, history⟩)
      ((Task.progress ⟨.await r k, history⟩).after r x) botId := by
  obtain ⟨x', u', k', history', _, hn', hserve', rfl⟩ :=
    System.step_serve hstep (System.pending_eq hn)
  cases hn.symm.trans hn'
  cases hserve.symm.trans hserve'
  obtain ⟨hup₁, hn₁⟩ := served_task hup (List.getElem?_eq_some_iff.mp hn).1 hserve
    (if (k x).pending.any (·.isSynchronous) then some n else none)
    (t := ⟨k x, ⟨r, x⟩ :: history⟩)
  refine ⟨fun p hp => System.mem_stagers hstep hk ?_, ?_, ?_⟩
  · intro outcome' he
    cases he
    exact hp rfl
  · constructor
    · rintro ⟨_, t, ht, hstages⟩
      cases hn.symm.trans ht
      exact hstages
    · exact fun hstages => ⟨hup, _, hn, hstages⟩
  · constructor
    · rintro ⟨_, t, ht, hstages⟩
      cases hn₁.symm.trans ht
      exact hstages
    · exact fun hstages => ⟨hup₁, _, hn₁, hstages⟩

/-- `stage` renames a directory that is there. -/
theorem complete_stage {a : Bool} (h : s.complete bound i (.stage botId) choice = some (a, s')) :
    a = (s.directories botId).isPresent := by
  cases choice with
  | done =>
    simp only [System.complete] at h
    split at h
    next hthere => cases h; exact hthere.symm
    next hnone => cases h; exact (Bool.eq_false_iff.mpr hnone).symm
  | _ => cases h

section Served

variable {r : Request} {x : Except String r.Answer} {u : System}

/-- A task that neither begins nor ends to stage the directory leaves as many staged. -/
theorem Moved.encard_same (h : Moved s s' i n g g' botId)
    (hold : (s.stagers botId).encard = (s.directories botId).staged)
    (hs : g'.stages botId ↔ g.stages botId)
    (hd : (u.directories botId).staged = (s.directories botId).staged) :
    (s'.stagers botId).encard = (u.directories botId).staged := by
  rw [h.same hs, hold, hd]

theorem Moved.encard_quiet (h : Moved s s' i n g (g.after r x) botId) (ha : Progress.Allowed r g)
    (hold : (s.stagers botId).encard = (s.directories botId).staged)
    (hserve : s.serve bound i r outcome = some (x, u)) (hr : r.movesDirectory = false) :
    (s'.stagers botId).encard = (u.directories botId).staged := by
  refine h.encard_same hold (Progress.after_stages ha hr) ?_
  obtain ⟨_, _, _, _, hc⟩ | ⟨_, _, _, _, rfl⟩ | ⟨_, _, _, _, _, _, hc⟩ := serve_cases hserve
  · rw [complete_directories hc, Request.onDirectory_staged hr]
  · rfl
  · rw [complete_directories hc, Request.onDirectory_staged hr]

theorem Moved.encard_stage {x : Except String Bool}
    (h : Moved s s' i n g (g.after (.stage botId') x) botId)
    (ha : Progress.Allowed (.stage botId') g)
    (hold : (s.stagers botId).encard = (s.directories botId).staged)
    (hserve : s.serve bound i (.stage botId') outcome = some (x, u)) :
    (s'.stagers botId).encard = (u.directories botId).staged := by
  obtain ⟨c, ⟨hcommand, _, hunstaged⟩, rfl, _⟩ := ha
  have hbefore : ¬ g.stages botId := fun hs => by cases hunstaged.symm.trans hs.1
  obtain ⟨_, a, rfl, rfl, hc⟩ | ⟨_, _, rfl, _, rfl⟩ | ⟨_, _, _, _, _, htransaction, _⟩ :=
    serve_cases hserve
  · have hd := complete_directories hc botId
    have ha := complete_stage hc
    by_cases hb : c.botId = botId ∧ (s.directories botId).isPresent = true
    · have hafter : (g.after (.stage c.botId) (.ok a)).stages botId :=
        ⟨ha.trans (hb.1 ▸ hb.2), c, hcommand, hb.1⟩
      rw [h.staged hbefore hafter, hold, hd, Request.onDirectory, if_pos hb, Nat.cast_succ]
    · refine h.encard_same hold (iff_of_false ?_ hbefore)
        (by rw [hd, Request.onDirectory, if_neg hb])
      rintro ⟨hstaged, c', hc', hb'⟩
      cases hcommand.symm.trans hc'
      exact hb ⟨hb', hb' ▸ ha.symm.trans hstaged⟩
  · exact h.encard_same hold Iff.rfl rfl
  · cases htransaction

/-- The directory is removed, or gets its name back. -/
theorem Moved.encard_end (h : Moved s s' i n g (g.after r x) botId) (hstaged : g.staged = true)
    (hcommand : g.command = some c) (hr : r = .unstage c.botId ∨ r = .rm c.botId)
    (hold : (s.stagers botId).encard = (s.directories botId).staged)
    (hserve : s.serve bound i r outcome = some (x, u))
    (hcommitted : outcome.committed.isSome = true) :
    (s'.stagers botId).encard = (u.directories botId).staged := by
  have hafter : ¬ (g.after r x).stages botId := by
    rintro ⟨hs, _⟩
    obtain rfl | rfl := hr
    all_goals cases x <;> cases hs
  have hd : (u.directories botId).staged =
      if c.botId = botId then (s.directories botId).staged - 1
      else (s.directories botId).staged := by
    obtain ⟨_, _, _, _, hc⟩ | ⟨_, rfl, _⟩ | ⟨_, _, _, _, _, htransaction, _⟩ := serve_cases hserve
    · rw [complete_directories hc]
      obtain rfl | rfl := hr
      all_goals
        rw [Request.onDirectory]
        split <;> rfl
    · cases hcommitted
    · obtain rfl | rfl := hr
      all_goals cases htransaction
  by_cases hb : c.botId = botId
  · rw [h.removed ⟨hstaged, c, hcommand, hb⟩ hafter, hold, hd, if_pos hb]
    exact (ENat.natCast_sub _ 1).symm
  · refine h.encard_same hold (iff_of_false hafter fun hs => hb ?_) (by rw [hd, if_neg hb])
    exact ((Progress.stages_iff hcommand).mp hs).2

end Served

/-- As many directories of a bot are staged as tasks have renamed them. -/
theorem System.Tidy.staged_step (h : s.Tidy) (hr : s.Regular) (hstep : s.step bound e = some s')
    (hk : s.KeepsData e) (botId : BotId) :
    (s'.stagers botId).encard = (s'.directories botId).staged := by
  have hold := h.staged botId
  by_cases he : ∃ i n outcome, e = .serve i n outcome
  swap
  · have hsame : s'.stagers botId = s.stagers botId := by
      ext p
      exact System.mem_stagers hstep hk fun outcome heq => he ⟨_, _, _, heq⟩
    obtain heq | ⟨_, heq⟩ | ⟨i, n, outcome, _, heq, _⟩ := System.directories_step hstep botId
    · rw [hsame, hold, heq]
    · rw [hsame, hold, heq]
    · exact absurd ⟨i, n, outcome, heq⟩ he
  obtain ⟨i, n, outcome, rfl⟩ := he
  obtain ⟨r, k, history, x, u, hup, hn, hserve, heq⟩ := serveTask_cases hstep
  have hallowed := (hr.follows i _ (List.mem_of_getElem? hn)).allowed (r := r) rfl
  have hmoved := System.moved_served hstep hk hup hn hserve botId
  rw [System.KeepsData, System.pending_eq hn] at hk
  have hdirectories : s'.directories = u.directories := by rw [heq]; rfl
  rw [hdirectories]
  by_cases hm : r.movesDirectory = false
  · exact hmoved.encard_quiet hallowed hold hserve hm
  cases r with
  | stage => exact hmoved.encard_stage hallowed hold hserve
  | unstage =>
    obtain ⟨hstaged, c, hcommand, rfl, _⟩ := hallowed
    exact hmoved.encard_end hstaged hcommand (.inl rfl) hold hserve hk.1
  | rm =>
    obtain ⟨hstaged, c, hcommand, rfl, _⟩ := hallowed
    exact hmoved.encard_end hstaged hcommand (.inr rfl) hold hserve hk
  | _ => exact absurd rfl hm

theorem System.Tidy.step (h : s.Tidy) (hr : s.Regular) (hstep : s.step bound e = some s')
    (hk : s.KeepsData e) : s'.Tidy :=
  ⟨fun _ hb => h.absent_step hstep hk hb, fun _ hb => h.ended_step hstep hk hb,
    h.staged_step hr hstep hk⟩

/-- Where no worker handles a command, nothing is left of a bot whose row is deleted. -/
theorem System.Tidy.gone (h : s.Tidy) (hb : s.IsDeleted botId)
    (hidle : ∀ i t, s.Runs i t → t.progress.command = none) : s.directories botId = {} := by
  have hstagers : s.stagers botId = ∅ := by
    refine Set.eq_empty_of_forall_notMem ?_
    rintro ⟨i, n⟩ ⟨hup, t, hn, _, c, hc, _⟩
    cases (hidle i t ⟨hup, List.mem_of_getElem? hn⟩).symm.trans hc
  have hstaged := h.staged botId
  rw [hstagers, Set.encard_empty] at hstaged
  have habsent := h.absent botId hb
  generalize s.directories botId = d at hstaged habsent
  obtain ⟨isPresent, staged⟩ := d
  cases habsent
  cases Nat.cast_eq_zero.mp hstaged.symm
  rfl

end Tonatiuh.Supervisor
