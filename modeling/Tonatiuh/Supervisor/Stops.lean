import Tonatiuh.Supervisor.CommandRows

/-! How a command stops a bot, from `takeChild` to its outcome.

`stopBot` stops the child of the map. What is about to fork (a restart timer that has read
`desired_state`, a call of `startBot` that waits for the database, `reconcile`) does not look
again. -/

namespace Tonatiuh.Supervisor

open Async Transition

/-- No child of the bot runs but the given one. -/
def System.OnlyChild (s : System) (botId : BotId) (child : Option ChildId) : Prop :=
  ∀ p ∈ s.children.zipIdx, p.1.botId = botId → p.1.isAlive = true → child = some p.2

/-- No call of `startBot` for the bot is between its test and its `fork`. -/
def System.StartsNo (s : System) (botId : BotId) : Prop :=
  ∀ i ∈ s.workers, (s.instances i).life = .up →
    ∀ t ∈ (s.instances i).tasks, t.progress.starting ≠ some botId

instance (s : System) (botId : BotId) (child : Option ChildId) :
    Decidable (s.OnlyChild botId child) := by
  unfold System.OnlyChild
  infer_instance

instance (s : System) (botId : BotId) : Decidable (s.StartsNo botId) := by
  unfold System.StartsNo
  infer_instance

theorem System.onlyChild_iff {s : System} {botId : BotId} {child : Option ChildId} :
    s.OnlyChild botId child ↔ ∀ (n : ChildId) (c : Child), s.children[n]? = some c →
      c.botId = botId → c.isAlive = true → child = some n := by
  constructor
  · exact fun h n c hc => h (c, n) (List.mem_zipIdx_iff_getElem?.mpr hc)
  · exact fun h p hp => h p.2 p.1 (List.mem_zipIdx_iff_getElem?.mp hp)

/-- No child of the bot runs but the given one, and none is about to be forked. -/
structure System.Stops (s : System) (botId : BotId) (child : Option ChildId) : Prop where
  only : s.OnlyChild botId child
  starts : s.StartsNo botId

/-- The event lets a call of `startBot` pass its test. -/
def System.PassesTest (s : System) (e : Event) (botId : BotId) : Prop :=
  ∃ i n choice, e = .serve i n (.ok choice) ∧ s.pending i n = some (.isRunning botId) ∧
    s.runningChild i botId = none

theorem complete_isRunning {a : Bool} {s t : System}
    (h : s.complete bound i (.isRunning botId) choice = some (a, t)) (ha : a = false) :
    s.runningChild i botId = none := by
  cases choice with
  | done =>
    cases h
    exact Option.isNone_iff_eq_none.mp (by simpa using ha)
  | _ => cases h

theorem System.StartsNo.step {s s' : System} (h : s.StartsNo botId) (hr : s.Regular)
    (hstep : s.step bound e = some s') (ht : ¬ s.PassesTest e botId) : s'.StartsNo botId := by
  intro i _ hup t hmem hstart
  cases System.task_step hstep hmem with
  | kept hl hmem =>
    have hup := hl.symm.trans hup
    exact h i (hr.listed i (by rw [hup]; exact nofun)) hup t hmem hstart
  | spawned => cases hstart
  | @served n r k history outcome x u hup hn hserve =>
    have hold := h i (hr.listed i (by rw [hup]; exact nofun)) hup _ (List.mem_of_getElem? hn)
    cases htest : r.isTest with
    | false => exact hold (Progress.after_starting htest hstart)
    | true =>
      cases r with
      | isRunning botId' =>
        obtain hstart | ⟨hx, rfl⟩ := Progress.after_isRunning hstart
        · exact hold hstart
        · obtain ⟨choice, a, rfl, ha, hc⟩ | ⟨_, _, ha, _, _⟩ | ⟨_, _, _, _, ha, _, _⟩ :=
            serve_cases hserve
          · have hnone := complete_isRunning hc (Except.ok.inj (ha.symm.trans hx))
            exact ht ⟨i, n, choice, rfl, System.pending_eq hn, hnone⟩
          · cases ha.symm.trans hx
          · cases ha.symm.trans hx
      | _ => cases htest

theorem System.OnlyChild.step {s s' : System} (h : s.OnlyChild botId child)
    (hs : s.StartsNo botId) (hr : s.Regular) (hstep : s.step bound e = some s') :
    s'.OnlyChild botId child := by
  rw [System.onlyChild_iff] at h ⊢
  intro n c hc hb ha
  cases System.children_step hstep with
  | fewer hf =>
    obtain ⟨c', hc', hb', _, ha'⟩ := hf n c hc
    exact h n c' hc' (hb'.symm.trans hb) (ha' ha)
  | @forked i m t _ _ c₀ hup hm hpending hchildren =>
    rw [hchildren, List.getElem?_append] at hc
    split at hc
    next => exact h n c hc hb ha
    next =>
      cases List.mem_singleton.mp (List.mem_of_getElem? hc)
      have hmem := List.mem_of_getElem? hm
      have hstart : t.progress.starting = some c.botId := (hr.follows i t hmem).allowed hpending
      rw [hb] at hstart
      exact (hs i (hr.listed i (by rw [hup]; exact nofun)) hup t hmem hstart).elim

namespace System.Stops

theorem step {s s' : System} (h : s.Stops botId child) (hr : s.Regular)
    (hstep : s.step bound e = some s') (ht : ¬ s.PassesTest e botId) : s'.Stops botId child :=
  ⟨h.only.step h.starts hr hstep, h.starts.step hr hstep ht⟩

/-- The child has ended. -/
theorem ended {s : System} (h : s.Stops botId (some child))
    (hc : ∀ c, s.children[child]? = some c → c.isAlive = false) : s.Stops botId none := by
  refine ⟨fun p hp hb ha => ?_, h.starts⟩
  cases h.only p hp hb ha
  rw [hc p.1 (List.mem_zipIdx_iff_getElem?.mp hp)] at ha
  cases ha

end System.Stops

/-! ## Commands that stop a bot -/

/-- The command that a task handles. -/
def System.handled (s : System) (i : InstanceId) (n : Nat) : Option BotCommand :=
  (s.instances i).tasks[n]?.bind fun t => t.progress.command

section Alone

variable (P : System → BotCommand → Prop)

/-- A worker stops the bot for a command of `P`: it has taken the child out of the map. -/
def System.IsStopping (s : System) (botId : BotId) : Prop :=
  ∃ i ∈ s.workers, (s.instances i).life = .up ∧ ∃ t ∈ (s.instances i).tasks,
    ∃ c ∈ t.progress.command, c.botId = botId ∧ P s c ∧ t.progress.taken.isSome

/-- A command of `P` takes the only running child of the bot out of the map, while no call of
`startBot` for the bot is between its test and its `fork`, and none passes the test before the
outcome is stored. -/
def System.StopsAlone (s : System) : Event → Prop
  | .serve i n (.ok _) =>
    match s.pending i n with
    | some (.isRunning botId) => s.runningChild i botId = none → ¬ s.IsStopping P botId
    | some (.takeChild botId) => ∀ c ∈ s.handled i n, P s c →
      s.OnlyChild botId (s.runningChild i botId) ∧ s.StartsNo botId
    | _ => True
  | _ => True

instance [∀ s, DecidablePred (P s)] (s : System) (botId : BotId) :
    Decidable (s.IsStopping P botId) := by
  unfold System.IsStopping
  infer_instance

instance [∀ s, DecidablePred (P s)] (s : System) (e : Event) : Decidable (s.StopsAlone P e) := by
  unfold System.StopsAlone
  induction e using Event.casesOn with
  | serve i n outcome =>
    induction outcome using Outcome.casesOn with
    | ok =>
      dsimp only
      generalize s.pending i n = pending
      induction pending using Option.casesOn with
      | none => exact instDecidableTrue
      | some request => induction request using Request.casesOn <;> dsimp only <;> infer_instance
    | _ => exact instDecidableTrue
  | _ => exact instDecidableTrue

/-- The child that may still run while the task stops a bot. -/
def Progress.remaining (g : Progress) (child : Option ChildId) : Option ChildId :=
  if g.exited then none else child

/-- Where a command of `P` has taken the child, no other child of the bot runs. -/
def System.Alone (s : System) : Prop :=
  ∀ i, (s.instances i).life = .up → ∀ t ∈ (s.instances i).tasks, ∀ c child,
    t.progress.command = some c → P s c → t.progress.taken = some child →
      s.Stops c.botId (t.progress.remaining child)

end Alone

/-- The requests whose answers tell how far `stopBot` has come. -/
def Request.isTaking : Request → Bool
  | .takeChild _ | .awaitExit _ | .claimCommand => true
  | _ => false

theorem Progress.after_taken {g : Progress} {r : Request} {x : Except String r.Answer}
    (hr : r.isTaking = false) :
    (g.after r x).taken = g.taken ∧ (g.after r x).exited = g.exited := by
  unfold Progress.after
  split
  case h_2 => split <;> exact ⟨rfl, rfl⟩
  all_goals first
    | exact ⟨rfl, rfl⟩
    | cases hr

theorem complete_awaitExit {a : Bool} {s t : System}
    (h : s.complete bound i (.awaitExit child) choice = some (a, t)) (ha : a = true) :
    ∃ c, s.children[child]? = some c ∧ c.code = some 0 := by
  cases choice with
  | done =>
    simp only [System.complete] at h
    split at h
    next c hc =>
      split at h
      next =>
        cases h
        exact ⟨c, hc, eq_of_beq ha⟩
      next => cases h
    next => cases h
  | timeout =>
    simp only [System.complete] at h
    split at h
    next =>
      split at h
      next => cases h
      next =>
        cases h
        cases ha
    next => cases h
  | _ => cases h

theorem Child.isAlive_of_code {c : Child} {code : Nat} (h : c.code = some code) :
    c.isAlive = false := by
  obtain ⟨botId, owner, process⟩ := c
  cases process with
  | running => cases h
  | _ => rfl

/-- Where the process has exited with code 0, it has ended. -/
theorem System.Stops.exited {s : System} (h : s.Stops botId (some child))
    (hc : s.children[child]? = some c) (hcode : c.code = some 0) : s.Stops botId none := by
  refine h.ended fun c' hc' => ?_
  cases hc.symm.trans hc'
  exact Child.isAlive_of_code hcode

/-- Where `stopBot` has ended well, the child that it took has ended. -/
theorem System.Stops.of_clean {s : System} {g : Progress} (hg : g.Clean)
    (h : ∀ child, g.taken = some child → s.Stops botId (g.remaining child)) :
    s.Stops botId none := by
  obtain htaken | ⟨child, htaken, hexited⟩ := hg
  · have h := h none htaken
    rw [Progress.remaining, ite_self] at h
    exact h
  · have h := h (some child) htaken
    rw [Progress.remaining, hexited] at h
    exact h

/-- The child that may still run after a request of a task that has taken a child. -/
inductive Taking (s : System) (i : InstanceId) (g : Progress) (r : Request) (outcome : Outcome)
    (c : BotCommand) (child : Option ChildId) : Option ChildId → Prop
  | kept : g.taken = some child → Taking s i g r outcome c child (g.remaining child)
  | taken : outcome = .ok choice → r = .takeChild c.botId → child = s.runningChild i c.botId →
      Taking s i g r outcome c child child
  | exited {n : ChildId} {p : Child} : outcome = .ok choice → r = .awaitExit n → child = some n →
      g.taken = some child → g.exited = false → s.children[n]? = some p → p.code = some 0 →
      Taking s i g r outcome c child none

theorem taking_served {s u : System} {t : Task} {r : Request} {x : Except String r.Answer}
    {g : Progress} (ht : t.Follows) (hpending : t.pending = some r)
    (hserve : s.serve bound i r outcome = some (x, u)) (hg : g = t.progress.after r x)
    (hc : g.command = some c) (htaken : g.taken = some child) :
    t.progress.command = some c ∧
      Taking s i t.progress r outcome c child (g.remaining child) := by
  subst hg
  obtain hcommand | hx := Progress.after_command hc
  swap
  · cases hx
    cases htaken
  refine ⟨hcommand, ?_⟩
  have hallowed := ht.allowed hpending
  cases htaking : r.isTaking with
  | false =>
    obtain ⟨h₁, h₂⟩ := Progress.after_taken (g := t.progress) (x := x) htaking
    rw [Progress.remaining, h₂]
    exact .kept (h₁.symm.trans htaken)
  | true =>
    cases r with
    | takeChild botId =>
      obtain ⟨c', hc', rfl⟩ := hallowed
      cases hcommand.symm.trans hc'.1
      obtain ⟨choice, a, rfl, rfl, hcomplete⟩ | ⟨_, rfl, rfl, hrejects, _⟩ |
          ⟨_, _, _, _, _, htr, _⟩ :=
        serve_cases hserve
      · cases choice with
        | done =>
          cases hcomplete
          cases htaken
          exact .taken rfl rfl rfl
        | _ => cases hcomplete
      · cases hrejects
      · cases htr
    | awaitExit n =>
      obtain ⟨hn, hexited⟩ := hallowed
      obtain ⟨choice, a, rfl, rfl, hcomplete⟩ | ⟨_, rfl, rfl, hrejects, _⟩ |
          ⟨_, _, _, _, _, htr, _⟩ :=
        serve_cases hserve
      · obtain rfl : some n = child := Option.some.inj (hn.symm.trans htaken)
        cases a with
        | true =>
          obtain ⟨p, hp, hcode⟩ := complete_awaitExit hcomplete rfl
          exact .exited rfl rfl rfl hn hexited hp hcode
        | false =>
          have hkept : Taking s i t.progress (.awaitExit n) (.ok choice) c (some n)
              (t.progress.remaining (some n)) := .kept hn
          rw [Progress.remaining, hexited] at hkept
          exact hkept
      · cases hrejects
      · cases htr
    | claimCommand =>
      cases x with
      | ok => cases htaken
      | error => exact .kept htaken
    | _ => cases htaking

section Alone

variable {P : System → BotCommand → Prop}

/-- The task that was served goes on stopping the bot. -/
theorem System.Alone.served {s u : System} {t : Task} {r : Request} {x : Except String r.Answer}
    {g : Progress} (h : s.Alone P) (hr : s.Regular) (hup : (s.instances i).life = .up)
    (hn : (s.instances i).tasks[n]? = some t) (ht : t.pending = some r)
    (hserve : s.serve bound i r outcome = some (x, u)) (hk : s.StopsAlone P (.serve i n outcome))
    (hg : g = t.progress.after r x) (hc : g.command = some c) (hP : P s c)
    (htaken : g.taken = some child) : s.Stops c.botId (g.remaining child) := by
  have hmem := List.mem_of_getElem? hn
  obtain ⟨hcommand, htaking⟩ := taking_served (hr.follows i t hmem) ht hserve hg hc htaken
  generalize g.remaining child = remaining at htaking ⊢
  cases htaking with
  | kept htaken => exact h i hup t hmem c child hcommand hP htaken
  | taken ho hr hchild =>
    subst ho hr hchild
    have hpending : s.pending i n = some (.takeChild c.botId) := by
      rw [System.pending, hn]
      exact ht
    have hhandled : s.handled i n = some c := by
      rw [System.handled, hn]
      exact hcommand
    rw [System.StopsAlone, hpending] at hk
    obtain ⟨honly, hstarts⟩ := hk c hhandled hP
    exact ⟨honly, hstarts⟩
  | exited _ _ hchild htaken hexited hp hcode =>
    subst hchild
    have hstops := h i hup t hmem c _ hcommand hP htaken
    rw [Progress.remaining, hexited] at hstops
    exact hstops.exited hp hcode

theorem System.Alone.step {s s' : System} (h : s.Alone P) (hr : s.Regular)
    (hP : ∀ c, P s' c → P s c) (hstep : s.step bound e = some s') (hk : s.StopsAlone P e) :
    s'.Alone P := by
  -- a call that passes the test finds the task that stops the bot
  have hpasses {botId : BotId} (ht : s.IsStopping P botId) : ¬ s.PassesTest e botId := by
    rintro ⟨i, n, choice, rfl, hpending, hnone⟩
    rw [System.StopsAlone, hpending] at hk
    exact hk hnone ht
  intro i hup t hmem c child hc hPc htaken
  have hPc := hP c hPc
  cases System.task_step hstep hmem with
  | kept hl hmem =>
    have hup := hl.symm.trans hup
    have hstopping : s.IsStopping P c.botId :=
      ⟨i, hr.listed i (by rw [hup]; exact nofun), hup, t, hmem, c, hc, rfl,
        hPc, by rw [htaken]; rfl⟩
    exact (h i hup t hmem c child hc hPc htaken).step hr hstep (hpasses hstopping)
  | spawned => cases hc
  | @served n r k history outcome x u hup hn hserve =>
    refine (h.served hr hup hn rfl hserve hk rfl hc hPc htaken).step hr hstep ?_
    rintro ⟨i', n', choice, he, hpending, hnone⟩
    cases he
    have hstopping : s.IsStopping P c.botId := by
      cases (System.pending_eq hn).symm.trans hpending
      refine ⟨i, hr.listed i (by rw [hup]; exact nofun), hup, _, List.mem_of_getElem? hn,
        c, ?_, rfl,
        hPc, ?_⟩
      · obtain hcommand | hx := Progress.after_command hc
        · exact hcommand
        · cases hx
      · have htaken := (Progress.after_taken (x := x) rfl).1.symm.trans htaken
        exact Option.isSome_of_mem htaken
    exact hpasses hstopping ⟨i, n, choice, rfl, hpending, hnone⟩

end Alone

end Tonatiuh.Supervisor
