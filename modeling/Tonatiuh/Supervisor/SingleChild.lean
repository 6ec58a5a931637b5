import Tonatiuh.Supervisor.Progress

/-! One child for each bot.

`startBot` tests the map, then loads the bot and forks, and the map is not tested again; `stopBot`
takes the child out of the map before it has exited, so that a later test does not see it. -/

namespace Tonatiuh.Supervisor

open Async Transition

/-- Every running child of a worker is the one that `processes` stores for its bot. -/
def System.StoresChildren (s : System) : Prop :=
  ∀ (n : ChildId) (c : Child), s.children[n]? = some c → c.isAlive = true →
    (s.instances c.owner).life = .up → (s.instances c.owner).processes c.botId = some n

/-- A worker has at most one running child of a bot. -/
theorem System.StoresChildren.unique {s : System} (h : s.StoresChildren) {m n : ChildId}
    {c c' : Child} (hc : s.children[m]? = some c) (hc' : s.children[n]? = some c')
    (ha : c.isAlive = true)
    (ha' : c'.isAlive = true) (hl : (s.instances c.owner).life = .up) (ho : c.owner = c'.owner)
    (hb : c.botId = c'.botId) : m = n := by
  have hm := h m c hc ha hl
  rw [ho, hb, h n c' hc' ha' (ho ▸ hl)] at hm
  exact (Option.some.inj hm).symm

/-- A call of `startBot` passes its test only while no other call for the bot is between its test
and its `fork`, and a child is taken out of the map only when it has exited. -/
def System.KeepsChildren (s : System) : Event → Prop
  | .serve i n (.ok _) =>
    match s.pending i n with
    | some (.isRunning botId) => s.runningChild i botId = none →
      ∀ t ∈ (s.instances i).tasks.eraseIdx n, t.progress.starting ≠ some botId
    | some (.takeChild botId) => ∀ c ∈ s.children, c.owner = i → c.botId = botId → c.isAlive = false
    | some .suspendAll => ∀ c ∈ s.children, c.owner = i → c.isAlive = false
    | _ => True
  | _ => True

instance (s : System) (e : Event) : Decidable (s.KeepsChildren e) := by
  unfold System.KeepsChildren
  induction e using Event.casesOn with
  | serve i n outcome =>
    induction outcome using Outcome.casesOn with
    | ok =>
      dsimp only
      generalize s.pending i n = pending
      induction pending using Option.casesOn with
      | none => exact instDecidableTrue
      | some request => induction request using Request.casesOn <;> dsimp only <;> infer_instance
    | _ => exact instDecidableTrue
  | _ => exact instDecidableTrue

/-- What holds in a run whose steps keep the children. -/
structure System.OneChild (s : System) : Prop where
  stored : s.StoresChildren
  born : ∀ c ∈ s.children, (s.instances c.owner).life ≠ .unborn
  starting : ∀ (i : InstanceId), ∀ t ∈ (s.instances i).tasks, ∀ botId,
    t.progress.starting = some botId →
      ∀ c ∈ s.children, c.isAlive = true → c.owner = i → c.botId ≠ botId
  single : ∀ (i : InstanceId) (m n : Nat) (t t' : Task) (botId : BotId),
    (s.instances i).tasks[m]? = some t → (s.instances i).tasks[n]? = some t' →
      t.progress.starting = some botId → t'.progress.starting = some botId → m = n

/-- A child that runs is not known to have exited. -/
theorem Child.exitCode_of_isAlive {c : Child} (h : c.isAlive = true) : c.exitCode = none := by
  obtain ⟨botId, owner, process⟩ := c
  cases process with
  | running p => exact ite_self _
  | _ => cases h

theorem System.StoresChildren.runningChild {s : System} (h : s.StoresChildren)
    (hc : s.children[n]? = some c) (ha : c.isAlive = true)
    (hl : (s.instances c.owner).life = .up) : s.runningChild c.owner c.botId = some n := by
  rw [System.runningChild, h n c hc ha hl, Option.filter_some, hc, Option.any_some,
    Child.exitCode_of_isAlive ha]
  rfl

namespace System.OneChild

theorem congr {s s' : System} (h : s.OneChild) (hc : s'.children = s.children)
    (hi : s'.instances = s.instances) : s'.OneChild := by
  obtain ⟨h₁, h₂, h₃, h₄⟩ := h
  refine ⟨?_, ?_, ?_, ?_⟩
  · rw [StoresChildren, hc, hi]
    exact h₁
  · rw [hc, hi]
    exact h₂
  · rw [hc, hi]
    exact h₃
  · rw [hi]
    exact h₄

/-- A worker starts or ends: its tasks start nothing, and it has no children when it starts. -/
theorem renewed {s : System} (h : s.OneChild) (inst : Instance) (hl : inst.life ≠ .unborn)
    (hup : inst.life = .up → (s.instances i).life = .unborn)
    (ht : ∀ t ∈ inst.tasks, t.progress.starting = none) :
    (s.updateInstance i fun _ => inst).OneChild := by
  have hother (j : InstanceId) (hj : j ≠ i) :
      (s.updateInstance i fun _ => inst).instances j = s.instances j :=
    System.updateInstance_ne _ _ hj
  have hself : (s.updateInstance i fun _ => inst).instances i = inst :=
    System.updateInstance_self ..
  refine ⟨fun n c hc ha hlife => ?_, fun c hc => ?_, fun j t htask botId hs => ?_,
    fun j m n t t' botId hm hn hs hs' => ?_⟩
  · by_cases hj : c.owner = i
    · rw [hj, hself] at hlife
      exact absurd (hj ▸ hup hlife) (h.born c (List.mem_of_getElem? hc))
    · rw [hother _ hj] at hlife ⊢
      exact h.stored n c hc ha hlife
  · by_cases hj : c.owner = i
    · rw [hj, hself]
      exact hl
    · rw [hother _ hj]
      exact h.born c hc
  · by_cases hj : j = i
    · rw [hj, hself] at htask
      rw [ht t htask] at hs
      cases hs
    · rw [hother _ hj] at htask
      exact h.starting j t htask botId hs
  · by_cases hj : j = i
    · rw [hj, hself] at hm
      rw [ht t (List.mem_of_getElem? hm)] at hs
      cases hs
    · rw [hother _ hj] at hm hn
      exact h.single j m n t t' botId hm hn hs hs'

theorem passes {s s' : System} (h : s.OneChild) (hp : Passes bound s s') : s'.OneChild := by
  -- a task that starts a bot was there before
  have hold (i : InstanceId) (m : Nat) (t : Task) (botId : BotId)
      (hm : (s'.instances i).tasks[m]? = some t) (hs : t.progress.starting = some botId) :
      (s.instances i).tasks[m]? = some t := by
    obtain ⟨new, _, htasks⟩ := (hp.grows i).tasks
    rw [htasks, List.getElem?_append] at hm
    split at hm
    next => exact hm
    next =>
      obtain ⟨p, _, rfl⟩ := List.mem_map.mp (List.mem_of_getElem? hm)
      cases hs
  refine ⟨fun n c' hc' ha hlife => ?_, fun c' hc' => ?_, fun i t ht botId hs c' hc' ha ho => ?_,
    fun i m n t t' botId hm hn hs hs' => ?_⟩
  · obtain ⟨c, hc, hb, ho, halive⟩ := hp.fewer n c' hc'
    rw [ho, hp.life] at hlife
    rw [ho, hb]
    exact (hp.grows c.owner).removed c.botId n (h.stored n c hc (halive ha) hlife) ⟨c, hc,
      halive ha⟩
  · obtain ⟨n, hn⟩ := List.getElem?_of_mem hc'
    obtain ⟨c, hc, _, ho, _⟩ := hp.fewer n c' hn
    rw [ho, hp.life]
    exact h.born c (List.mem_of_getElem? hc)
  · obtain ⟨m, hm⟩ := List.getElem?_of_mem ht
    obtain ⟨n, hn⟩ := List.getElem?_of_mem hc'
    obtain ⟨c, hc, hb, ho', halive⟩ := hp.fewer n c' hn
    rw [hb]
    exact h.starting i t (List.mem_of_getElem? (hold i m t botId hm hs)) botId hs c
      (List.mem_of_getElem? hc) (halive ha) (ho'.symm.trans ho)
  · exact h.single i m n t t' botId (hold i m t botId hm hs) (hold i n t' botId hn hs') hs hs'

/-- Where a bot is being started after a request: by the task that was served, or by another one,
which has not changed. -/
theorem starting_set {s t : System} {τ τ' : Task} (hs : Serves i s t)
    (hm : ((t.instances i).tasks.set n τ)[m]? = some τ')
    (hstart : τ'.progress.starting = some botId) :
    (m = n ∧ τ' = τ) ∨ (m ≠ n ∧ (s.instances i).tasks[m]? = some τ') := by
  obtain ⟨new, hnew, htasks⟩ := hs.tasks
  rw [List.getElem?_set] at hm
  split at hm
  next hnm =>
    split at hm
    next => exact .inl ⟨hnm.symm, (Option.some.inj hm).symm⟩
    next => cases hm
  next hnm =>
    refine .inr ⟨Ne.symm hnm, ?_⟩
    rw [htasks, List.getElem?_append] at hm
    split at hm
    next => exact hm
    next =>
      obtain ⟨p, _, rfl⟩ := List.mem_map.mp (List.mem_of_getElem? hm)
      cases hstart

/-- A request that makes no child, and leaves the running children in the map. -/
theorem served {s t : System} {τ old : Task} (h : s.OneChild) (hs : Serves i s t)
    (hf : Fewer s.children t.children)
    (hp : ∀ (m : ChildId) (c : Child), s.children[m]? = some c → c.isAlive = true → c.owner = i →
      (s.instances i).processes c.botId = some m → (t.instances i).processes c.botId = some m)
    (hn : (s.instances i).tasks[n]? = some old)
    (hτ : ∀ botId, τ.progress.starting = some botId → old.progress.starting = some botId ∨
      ((∀ c ∈ s.children, c.isAlive = true → c.owner = i → c.botId ≠ botId) ∧
        ∀ t ∈ (s.instances i).tasks.eraseIdx n, t.progress.starting ≠ some botId)) :
    (t.updateInstance i fun inst =>
      { inst with tasks := inst.tasks.set n τ, current }).OneChild := by
  have hother (j : InstanceId) (hj : j ≠ i) : (t.updateInstance i fun inst =>
      { inst with tasks := inst.tasks.set n τ, current }).instances j = s.instances j :=
    (System.updateInstance_ne _ _ hj).trans (hs.others j hj)
  refine ⟨fun m c' hc' ha hlife => ?_, fun c' hc' => ?_,
    fun j τ' hτ' botId hstart c' hc' ha ho => ?_,
    fun j m m' τ₁ τ₂ botId hm hm' h₁ h₂ => ?_⟩
  · obtain ⟨c, hc, hb, ho, halive⟩ := hf m c' hc'
    rw [ho] at hlife ⊢
    rw [hb]
    by_cases hj : c.owner = i
    · rw [hj, System.updateInstance_self] at hlife ⊢
      have hlife : (s.instances c.owner).life = .up := hj ▸ hs.life ▸ hlife
      exact hp m c hc (halive ha) hj (hj ▸ h.stored m c hc (halive ha) hlife)
    · rw [hother _ hj] at hlife ⊢
      exact h.stored m c hc (halive ha) hlife
  · obtain ⟨m, hm⟩ := List.getElem?_of_mem hc'
    obtain ⟨c, hc, _, ho, _⟩ := hf m c' hm
    rw [ho]
    by_cases hj : c.owner = i
    · rw [hj, System.updateInstance_self]
      exact hs.life ▸ hj ▸ h.born c (List.mem_of_getElem? hc)
    · rw [hother _ hj]
      exact h.born c (List.mem_of_getElem? hc)
  · obtain ⟨n', hn'⟩ := List.getElem?_of_mem hc'
    obtain ⟨c, hc, hb, ho', halive⟩ := hf n' c' hn'
    have hmem := List.mem_of_getElem? hc
    rw [hb]
    by_cases hj : j = i
    · subst hj
      rw [System.updateInstance_self] at hτ'
      obtain ⟨m, hm⟩ := List.getElem?_of_mem hτ'
      obtain ⟨rfl, rfl⟩ | ⟨_, hm⟩ := starting_set hs hm hstart
      · obtain hold | ⟨hnone, _⟩ := hτ botId hstart
        · exact h.starting j old (List.mem_of_getElem? hn) botId hold c hmem (halive ha)
            (ho'.symm.trans ho)
        · exact hnone c hmem (halive ha) (ho'.symm.trans ho)
      · exact h.starting j τ' (List.mem_of_getElem? hm) botId hstart c hmem (halive ha)
          (ho'.symm.trans ho)
    · rw [hother _ hj] at hτ'
      exact h.starting j τ' hτ' botId hstart c hmem (halive ha) (ho'.symm.trans ho)
  · by_cases hj : j = i
    · subst hj
      rw [System.updateInstance_self] at hm hm'
      -- another task does not start the bot of the one that was served
      have hclash (m : Nat) (τ' : Task) (hne : m ≠ n) (hm : (s.instances j).tasks[m]? = some τ')
          (hstart : τ'.progress.starting = some botId) (hτs : τ.progress.starting = some botId) :
          False := by
        obtain hold | ⟨_, hnone⟩ := hτ botId hτs
        · exact hne (h.single j m n τ' old botId hm hn hstart hold)
        · exact hnone τ' (List.mem_eraseIdx_iff_getElem?.mpr ⟨m, hne, hm⟩) hstart
      obtain ⟨rfl, rfl⟩ | ⟨hne, hold⟩ := starting_set hs hm h₁
      · obtain ⟨rfl, _⟩ | ⟨hne', hold'⟩ := starting_set hs hm' h₂
        · rfl
        · exact (hclash m' τ₂ hne' hold' h₂ h₁).elim
      · obtain ⟨rfl, rfl⟩ | ⟨_, hold'⟩ := starting_set hs hm' h₂
        · exact (hclash m τ₁ hne hold h₁ h₂).elim
        · exact h.single j m m' τ₁ τ₂ botId hold hold' h₁ h₂
    · rw [hother _ hj] at hm hm'
      exact h.single j m m' τ₁ τ₂ botId hm hm' h₁ h₂

/-- A new child of a bot that has none and that no task starts. -/
theorem added {s s' : System} {d : Child} (h : s.OneChild)
    (hc : s'.children = s.children ++ [d]) (hl : ∀ j, (s'.instances j).life = (s.instances j).life)
    (ht : ∀ j, (s'.instances j).tasks = (s.instances j).tasks)
    (hp : ∀ j, j ≠ d.owner → (s'.instances j).processes = (s.instances j).processes)
    (hp₀ : (s'.instances d.owner).processes =
      Function.update (s.instances d.owner).processes d.botId (some s.children.length))
    (hup : (s.instances d.owner).life = .up)
    (hnone : ∀ c ∈ s.children, c.isAlive = true → c.owner = d.owner → c.botId ≠ d.botId)
    (hidle : ∀ t ∈ (s.instances d.owner).tasks, t.progress.starting ≠ some d.botId) :
    s'.OneChild := by
  refine ⟨fun m c hm ha hlife => ?_, fun c hmem => ?_, fun j t htask botId hs c hmem ha ho => ?_,
    fun j m n t t' botId hm hn => ?_⟩
  · rw [hl] at hlife
    rw [hc, List.getElem?_append] at hm
    split at hm
    next =>
      by_cases hj : c.owner = d.owner
      · rw [hj, hp₀, Function.update_of_ne (hnone c (List.mem_of_getElem? hm) ha hj)]
        exact hj ▸ h.stored m c hm ha hlife
      · rw [hp _ hj]
        exact h.stored m c hm ha hlife
    next hge =>
      obtain ⟨hlt, rfl⟩ := List.getElem?_eq_some_iff.mp hm
      have hm : m = s.children.length :=
        Nat.le_antisymm (Nat.le_of_sub_eq_zero (Nat.lt_one_iff.mp hlt)) (Nat.le_of_not_lt hge)
      rw [List.getElem_singleton, hp₀, Function.update_self, hm]
  · rw [hl]
    rw [hc] at hmem
    obtain hmem | hmem := List.mem_append.mp hmem
    · exact h.born c hmem
    · rw [List.mem_singleton.mp hmem, hup]
      exact nofun
  · rw [ht] at htask
    rw [hc] at hmem
    obtain hmem | hmem := List.mem_append.mp hmem
    · exact h.starting j t htask botId hs c hmem ha ho
    · rw [List.mem_singleton.mp hmem] at ho ⊢
      rintro rfl
      exact hidle t (ho ▸ htask) hs
  · rw [ht] at hm hn
    exact h.single j m n t t' botId hm hn

/-- A child is forked by a task that has passed the test. -/
theorem forked {s t : System} {τ old : Task} {c₀ : Child} (h : s.OneChild) (hs : Serves i s t)
    (hc : t.children = s.children ++ [c₀]) (ho : c₀.owner = i)
    (hp : (t.instances i).processes =
      Function.update (s.instances i).processes c₀.botId (some s.children.length))
    (ht : (t.instances i).tasks = (s.instances i).tasks) (hup : (s.instances i).life = .up)
    (hn : (s.instances i).tasks[n]? = some old) (hold : old.progress.starting = some c₀.botId)
    (hτ : τ.progress.starting = none) :
    (t.updateInstance i fun inst =>
      { inst with tasks := inst.tasks.set n τ, current }).OneChild := by
  subst ho
  have hs' : Serves c₀.owner s s := .of_eq rfl _
  -- the task goes on, and then the child is there
  have htask : (s.updateInstance c₀.owner fun inst =>
      { inst with tasks := inst.tasks.set n τ, current }).OneChild := by
    refine h.served hs' (.refl _) (fun _ _ _ _ _ hp => hp) hn fun botId hstart => ?_
    cases hτ.symm.trans hstart
  have hother (u : System) (j : InstanceId) (hj : j ≠ c₀.owner) :
      (u.updateInstance c₀.owner fun inst =>
        { inst with tasks := inst.tasks.set n τ, current }).instances j = u.instances j :=
    System.updateInstance_ne _ _ hj
  refine htask.added (d := c₀) hc (fun j => ?_) (fun j => ?_) (fun j hj => ?_) ?_ ?_ ?_ ?_
  · by_cases hj : j = c₀.owner
    · rw [hj, System.updateInstance_self, System.updateInstance_self]
      exact hs.life
    · rw [hother _ _ hj, hother _ _ hj, hs.others j hj]
  · by_cases hj : j = c₀.owner
    · rw [hj, System.updateInstance_self, System.updateInstance_self, ht]
    · rw [hother _ _ hj, hother _ _ hj, hs.others j hj]
  · rw [hother _ _ hj, hother _ _ hj, hs.others j hj]
  · rw [System.updateInstance_self, System.updateInstance_self]
    exact hp
  · rw [System.updateInstance_self]
    exact hup
  · exact h.starting _ old (List.mem_of_getElem? hn) _ hold
  · intro τ' hmem hstart
    rw [System.updateInstance_self] at hmem
    obtain ⟨m, hm⟩ := List.getElem?_of_mem hmem
    obtain ⟨_, rfl⟩ | ⟨hne, hm⟩ := starting_set hs' hm hstart
    · cases hτ.symm.trans hstart
    · exact hne (h.single _ m n τ' old _ hm hn hstart hold)

/-- A call of `startBot` that goes on has found no running child. -/
theorem passed {s t : System} {a : Bool} (h : s.OneChild) (hup : (s.instances i).life = .up)
    (hs : s.complete bound i (.isRunning botId) choice = some (a, t)) (ha : a = false) :
    s.runningChild i botId = none ∧
      ∀ c ∈ s.children, c.isAlive = true → c.owner = i → c.botId ≠ botId := by
  have hnone : s.runningChild i botId = none := by
    cases choice with
    | done =>
      cases hs
      exact Option.isNone_iff_eq_none.mp (by simpa using ha)
    | _ => cases hs
  refine ⟨hnone, fun c hc halive ho hb => ?_⟩
  obtain ⟨n, hn⟩ := List.getElem?_of_mem hc
  have hrunning := h.stored.runningChild hn halive (ho ▸ hup)
  rw [ho, hb, hnone] at hrunning
  cases hrunning

/-- A request that is no test and leaves the running children in the map. -/
theorem quiet {s t : System} {τ old : Task} {r : Request} {x : Except String r.Answer}
    (h : s.OneChild) (hs : Serves i s t) (hf : Fewer s.children t.children)
    (hp : ∀ (m : ChildId) (c : Child), s.children[m]? = some c → c.isAlive = true → c.owner = i →
      (s.instances i).processes c.botId = some m → (t.instances i).processes c.botId = some m)
    (hn : (s.instances i).tasks[n]? = some old) (hτ : τ.progress = old.progress.after r x)
    (hr : r.isTest = false) :
    (t.updateInstance i fun inst =>
      { inst with tasks := inst.tasks.set n τ, current }).OneChild := by
  refine h.served hs hf hp hn fun botId hstart => .inl ?_
  rw [hτ] at hstart
  exact Progress.after_starting hr hstart

theorem complete_fork {s t : System} {τ old : Task} {config : Config.ConfigType} {a : ChildId}
    (h : s.OneChild) (hc : s.complete bound i (.fork botId config) choice = some (a, t))
    (hup : (s.instances i).life = .up) (hn : (s.instances i).tasks[n]? = some old)
    (hold : old.progress.starting = some botId)
    (hτ : τ.progress = old.progress.after (.fork botId config) (.ok a)) :
    (t.updateInstance i fun inst =>
      { inst with tasks := inst.tasks.set n τ, current }).OneChild := by
  have hs := complete_serves hc
  have hidle : τ.progress.starting = none := hτ ▸ Progress.after_fork
  cases choice with
  | done =>
    cases hc
    refine h.forked hs rfl rfl ?_ ?_ hup hn hold hidle
    · rw [System.updateInstance_self]
    · rw [System.updateInstance_self]
  | _ => cases hc

theorem complete_isRunning {s t : System} {τ old : Task} {a : Bool} (h : s.OneChild)
    (hc : s.complete bound i (.isRunning botId) choice = some (a, t))
    (hup : (s.instances i).life = .up) (hn : (s.instances i).tasks[n]? = some old)
    (hk : s.runningChild i botId = none →
      ∀ t ∈ (s.instances i).tasks.eraseIdx n, t.progress.starting ≠ some botId)
    (hτ : τ.progress = old.progress.after (.isRunning botId) (.ok a)) :
    (t.updateInstance i fun inst =>
      { inst with tasks := inst.tasks.set n τ, current }).OneChild := by
  refine h.served (complete_serves hc) (complete_fewer hc rfl) ?_ hn fun b hstart => ?_
  · rw [complete_processes hc rfl]
    exact fun _ _ _ _ _ hp => hp
  · rw [hτ] at hstart
    obtain hold | ⟨ha, rfl⟩ := Progress.after_isRunning hstart
    · exact .inl hold
    · obtain ⟨hnone, halive⟩ := h.passed hup hc (Except.ok.inj ha)
      exact .inr ⟨halive, hk hnone⟩

theorem complete_takeChild {s t : System} {τ old : Task} {a : Option ChildId} (h : s.OneChild)
    (hc : s.complete bound i (.takeChild botId) choice = some (a, t))
    (hn : (s.instances i).tasks[n]? = some old)
    (hk : ∀ c ∈ s.children, c.owner = i → c.botId = botId → c.isAlive = false)
    (hτ : τ.progress = old.progress.after (.takeChild botId) (.ok a)) :
    (t.updateInstance i fun inst =>
      { inst with tasks := inst.tasks.set n τ, current }).OneChild := by
  refine h.quiet (complete_serves hc) (complete_fewer hc rfl) (fun m c hm ha ho hp => ?_) hn hτ rfl
  have hb : c.botId ≠ botId := by
    rintro rfl
    rw [hk c (List.mem_of_getElem? hm) ho rfl] at ha
    cases ha
  cases choice with
  | done =>
    cases hc
    rw [System.updateInstance_self]
    exact (Function.update_of_ne hb ..).trans hp
  | _ => cases hc

theorem complete_suspendAll {s t : System} {τ old : Task} {a : List Nat} (h : s.OneChild)
    (hc : s.complete bound i .suspendAll choice = some (a, t))
    (hn : (s.instances i).tasks[n]? = some old)
    (hk : ∀ c ∈ s.children, c.owner = i → c.isAlive = false)
    (hτ : τ.progress = old.progress.after .suspendAll (.ok a)) :
    (t.updateInstance i fun inst =>
      { inst with tasks := inst.tasks.set n τ, current }).OneChild := by
  refine h.quiet (complete_serves hc) (complete_fewer hc rfl) (fun m c hm ha ho hp => ?_) hn hτ rfl
  rw [hk c (List.mem_of_getElem? hm) ho] at ha
  cases ha

/-- A request that makes no child and does not change the map. -/
theorem unmapped {s t : System} {τ old : Task} {r : Request} {x : Except String r.Answer}
    (h : s.OneChild) (hs : Serves i s t) (hf : Fewer s.children t.children)
    (hp : (t.instances i).processes = (s.instances i).processes)
    (hn : (s.instances i).tasks[n]? = some old) (hτ : τ.progress = old.progress.after r x)
    (hr : r.isTest = false ∨ ∃ message, x = .error message) :
    (t.updateInstance i fun inst =>
      { inst with tasks := inst.tasks.set n τ, current }).OneChild := by
  refine h.served hs hf (by rw [hp]; exact fun _ _ _ _ _ hp => hp) hn fun b hstart => .inl ?_
  rw [hτ] at hstart
  cases ht : r.isTest with
  | false => exact Progress.after_starting ht hstart
  | true =>
    obtain hr | ⟨message, rfl⟩ := hr
    · cases ht.symm.trans hr
    · cases r with
      | isRunning botId =>
        obtain hold | ⟨ha, _⟩ := Progress.after_isRunning hstart
        · exact hold
        · cases ha
      | _ => cases ht

theorem complete {s t : System} {τ old : Task} {r : Request} {a : r.Answer} (h : s.OneChild)
    (hc : s.complete bound i r choice = some (a, t)) (hup : (s.instances i).life = .up)
    (hn : (s.instances i).tasks[n]? = some old) (hold : Progress.Allowed r old.progress)
    (hr : s.pending i n = some r) (hk : s.KeepsChildren (.serve i n (.ok choice)))
    (hτ : τ.progress = old.progress.after r (.ok a)) :
    (t.updateInstance i fun inst =>
      { inst with tasks := inst.tasks.set n τ, current }).OneChild := by
  rw [KeepsChildren, hr] at hk
  cases r with
  | fork botId config => exact h.complete_fork hc hup hn hold hτ
  | isRunning botId => exact h.complete_isRunning hc hup hn hk hτ
  | takeChild botId => exact h.complete_takeChild hc hn hk hτ
  | suspendAll => exact h.complete_suspendAll hc hn hk hτ
  | _ =>
    exact h.unmapped (complete_serves hc) (complete_fewer hc rfl)
      (complete_processes hc rfl) hn hτ (.inl rfl)

theorem step {s s' : System} (h : s.OneChild) (hf : s.Follows) (hstep : s.step bound e = some s')
    (hk : s.KeepsChildren e) : s'.OneChild := by
  cases System.step_cases hstep with
  | api hcall =>
    have hc := System.call_called hcall
    exact h.congr hc.children hc.instances
  | @boot i hl =>
    have hs : System.OneChild { s with workers := i :: s.workers } := h.congr rfl rfl
    exact hs.renewed { s.instances i with life := .up, tasks := [⟨main bound bound, []⟩] } nofun
      (fun _ => hl) fun t ht => List.mem_singleton.mp ht ▸ rfl
  | @disconnect i hl =>
    obtain ⟨lock, heq⟩ := s.unlocked_eq i
    rw [heq]
    exact h.congr rfl rfl
  | @crash i hl =>
    obtain ⟨lock, heq⟩ := s.unlocked_eq i
    rw [heq]
    have hs : System.OneChild { s with lock } := h.congr rfl rfl
    exact hs.renewed { life := .ended } nofun nofun nofun
  | other hp => exact h.passes hp
  | @serve i n r k history outcome x t hup hn hserve =>
    have hs := serve_serves hserve
    have hr := System.pending_eq hn
    have hτ : Task.progress ⟨k x, ⟨r, x⟩ :: history⟩ =
        (Task.progress ⟨.await r k, history⟩).after r x := rfl
    obtain ⟨choice, a, rfl, rfl, hc⟩ | ⟨message, _, rfl, _, rfl⟩ |
        ⟨_, message, a, _, rfl, htr, hc⟩ :=
      serve_cases hserve
    · have hallowed := (hf i _ (List.mem_of_getElem? hn)).allowed (r := r) rfl
      exact h.complete hc hup hn hallowed hr hk hτ
    · exact h.unmapped hs (.refl _) rfl hn hτ (.inr ⟨message, rfl⟩)
    · have hl : r.isLocal = false := by cases r <;> first | rfl | cases htr
      have hu := complete_unchanged hc
      refine h.unmapped hs ?_ ?_ hn hτ (.inr ⟨message, rfl⟩)
      · rw [hu.children hl]
        exact .refl _
      · rw [hu.instances hl]

end System.OneChild

/-- In every run whose steps keep the children, a worker has at most one running child of a bot, the
one that `processes` stores. -/
theorem one_running_child (bound : Nat) {s₀ s : System} (hs₀ : s₀.Fresh)
    (h : Run (Meeting (Stepping (System.step bound)) fun s e _ => s.KeepsChildren e) s₀ es s) :
    s.StoresChildren ∧ ∀ (m n : ChildId) (c c' : Child), s.children[m]? = some c →
      s.children[n]? = some c' → c.isAlive = true → c'.isAlive = true →
      (s.instances c.owner).life = .up → c.owner = c'.owner → c.botId = c'.botId → m = n := by
  have hone : s₀.OneChild := by
    refine ⟨?_, ?_, ?_, ?_⟩
    · intro n c hc
      rw [hs₀.children] at hc
      cases hc
    · intro c hc
      rw [hs₀.children] at hc
      cases hc
    · intro i t _ botId _ c hc
      rw [hs₀.children] at hc
      cases hc
    · intro i m n t t' botId ht
      rw [hs₀.instances] at ht
      cases ht
  have hinv : s.Follows ∧ s.OneChild :=
    h.invariant (I := fun s => s.Follows ∧ s.OneChild)
      (fun _ _ _ hI hstep => ⟨hI.1.step hstep.1, hI.2.step hI.1 hstep.1 hstep.2⟩)
      ⟨hs₀.follows, hone⟩
  exact ⟨hinv.2.stored, fun _ _ _ _ hc hc' ha ha' hl ho hb =>
    hinv.2.stored.unique hc hc' ha ha' hl ho hb⟩

/-! ## Two runs -/

/-- The child of the leader ends by a signal, and the restart timer is over. -/
def restarting : List Event :=
  started ++ served 0 0 1 ++ [.child 0 .kill, .exit 0] ++ served 0 2 4

/-- The bot is started again. -/
def restarted : List Event := restarting ++ loading 0 2 ++ served 0 2 1

theorem restarted_keepsChildren :
    (execWhere (System.step 4) System.KeepsChildren {} restarted).isSome := by decide +kernel

theorem one_running_child_restarted :
    ((execWhere (System.step 4) System.KeepsChildren {} restarted).get
      restarted_keepsChildren).StoresChildren :=
  (one_running_child 4 .empty (Run.of_execWhere_get restarted_keepsChildren)).1

/-- Beside the timer the START command is handled: both calls have passed the test, and both
fork. -/
def startedTwice : List Event :=
  restarting ++ [.serve 0 0 (.ok (.claimed 0))] ++ served 0 0 2 ++ loading 0 0 ++ served 0 0 1 ++
    loading 0 2 ++ served 0 2 1

theorem startedTwice_enabled : (exec (System.step 4) {} startedTwice).isSome := by decide +kernel

/-- A child that runs and is not the one of the map. -/
theorem System.not_storesChildren {s : System} {c : BotId × InstanceId × Bool} (n : ChildId)
    (hn : (s.children.map fun c => (c.botId, c.owner, c.isAlive))[n]? = some c)
    (ha : c.2.2 = true) (hup : (s.instances c.2.1).life = .up)
    (hentry : (s.instances c.2.1).processes c.1 ≠ some n) : ¬ s.StoresChildren := by
  rw [List.getElem?_map] at hn
  obtain ⟨c, hc, rfl⟩ := Option.map_eq_some_iff.mp hn
  exact fun h => hentry (h n c hc ha hup)

/-- Two children of the bot run, and the map stores the second. -/
theorem two_running_children :
    ∃ s, Run (Stepping (System.step 4)) {} startedTwice s ∧
      s.children.map (fun c => (c.botId, c.owner, c.isAlive)) =
        [(0, 0, false), (0, 0, true), (0, 0, true)] ∧
      (s.instances 0).life = .up ∧ (s.instances 0).processes 0 = some 2 ∧ ¬ s.StoresChildren := by
  refine ⟨_, Run.of_exec_get startedTwice_enabled, by decide +kernel, by decide +kernel,
    by decide +kernel, System.not_storesChildren (c := (0, 0, true)) 1 ?_ rfl ?_ ?_⟩
  · decide +kernel
  · decide +kernel
  · decide +kernel

end Tonatiuh.Supervisor
