import Tonatiuh.Supervisor.System

/-! What a step of the deployment can change. -/

namespace Tonatiuh.Supervisor

open Async Transition

/-! ## Served requests -/

/-- The requests that change the maps of the worker or its children. -/
def Request.isLocal : Request → Bool
  | .fork .. | .listen _ | .takeChild _ | .send .. | .suspendAll => true
  | _ => false

def Request.isFork : Request → Bool
  | .fork .. => true
  | _ => false

theorem Request.eq_fork {r : Request} (h : r.isFork = true) :
    ∃ botId config, r = .fork botId config := by
  cases r with
  | fork botId config => exact ⟨botId, config, rfl⟩
  | _ => cases h

/-- The requests of the advisory lock. -/
def Request.isLocking : Request → Bool
  | .tryAdvisoryLock | .advisoryUnlock => true
  | _ => false

/-- The requests that change rows of bots. -/
def Request.changesBots : Request → Bool
  | .updateStarting _ | .updateRunning _ | .updateFailed .. | .updateStopped _ | .updateSuspended _
  | .updateDesiredState .. | .deleteRows _ | .resetStopped => true
  | _ => false

/-- The requests that change rows of commands. -/
def Request.changesCommands : Request → Bool
  | .deleteRows _ | .claimCommand | .updateSucceeded _ | .updateCommandFailed .. => true
  | _ => false

/-- The requests that change data directories. -/
def Request.changesDirectories : Request → Bool
  | .mkdir _ | .stage _ | .unstage _ | .rm _ => true
  | _ => false

/-- The parts of the system that a request leaves alone. -/
structure Unchanged (r : Request) (s s' : System) : Prop where
  accounts : s'.accounts = s.accounts
  workers : s'.workers = s.workers
  children : r.isLocal = false → s'.children = s.children
  instances : r.isLocal = false → s'.instances = s.instances
  lock : r.isLocking = false → s'.lock = s.lock
  bots : r.changesBots = false → s'.bots = s.bots
  commands : r.changesCommands = false → s'.commands = s.commands
  directories : r.changesDirectories = false → s'.directories = s.directories

theorem Unchanged.refl (r : Request) (s : System) : Unchanged r s s :=
  ⟨rfl, rfl, fun _ => rfl, fun _ => rfl, fun _ => rfl, fun _ => rfl, fun _ => rfl, fun _ => rfl⟩

theorem Unchanged.suspends (s : System) (entries : List (BotId × ChildId)) :
    Unchanged .suspendAll s (entries.foldl (fun s entry => s.suspend entry.2) s) := by
  induction entries generalizing s with
  | nil => exact .refl _ s
  | cons entry entries ih =>
    obtain ⟨h₁, h₂, _, _, h₅, h₆, h₇, h₈⟩ := ih (s.suspend entry.2)
    exact ⟨h₁, h₂, nofun, nofun, h₅, h₆, h₇, h₈⟩

theorem complete_unchanged {r : Request} {a : r.Answer} {s s' : System}
    (h : s.complete bound i r choice = some (a, s')) : Unchanged r s s' := by
  unfold System.complete at h
  split at h
  case h_10 =>
    cases h
    obtain ⟨h₁, h₂, _, _, h₅, h₆, h₇, h₈⟩ := Unchanged.suspends s (s.entries i)
    exact ⟨h₁, h₂, nofun, nofun, h₅, h₆, h₇, h₈⟩
  all_goals try (split at h)
  all_goals try (split at h)
  all_goals first
    | (cases h; exact .refl _ _)
    | (cases h; done)
    | (cases h; refine ⟨rfl, rfl, ?_, ?_, ?_, ?_, ?_, ?_⟩ <;>
      first | exact fun _ => rfl | exact nofun)

theorem serve_cases {r : Request} {x : Except String r.Answer} {s s' : System}
    (h : s.serve bound i r outcome = some (x, s')) :
    (∃ choice a, outcome = .ok choice ∧ x = .ok a ∧ s.complete bound i r choice = some (a, s')) ∨
    (∃ message, outcome = .rejected message ∧ x = .error message ∧
      s.rejects i r message = true ∧ s' = s) ∨
    (∃ choice message a, outcome = .lost choice message ∧ x = .error message ∧
      r.isTransaction = true ∧ s.complete bound i r choice = some (a, s')) := by
  cases outcome with
  | ok choice =>
    obtain ⟨⟨a, s''⟩, hc, h⟩ := Option.map_eq_some_iff.mp h
    cases h
    exact .inl ⟨choice, a, rfl, rfl, hc⟩
  | rejected message =>
    simp only [System.serve] at h
    split at h
    next hr => cases h; exact .inr (.inl ⟨message, rfl, rfl, hr, rfl⟩)
    next => cases h
  | lost choice message =>
    simp only [System.serve] at h
    split at h
    next hr =>
      obtain ⟨⟨a, s''⟩, hc, h⟩ := Option.map_eq_some_iff.mp h
      cases h
      exact .inr (.inr ⟨choice, message, a, rfl, rfl, hr, hc⟩)
    next => cases h

theorem serve_unchanged {r : Request} {x : Except String r.Answer} {s s' : System}
    (h : s.serve bound i r outcome = some (x, s')) : Unchanged r s s' := by
  obtain ⟨_, _, _, _, hc⟩ | ⟨_, _, _, _, rfl⟩ | ⟨_, _, _, _, _, _, hc⟩ := serve_cases h
  · exact complete_unchanged hc
  · exact .refl _ _
  · exact complete_unchanged hc

/-! ## Children -/

/-- No child is new, and none comes back to life. -/
def Fewer (l l' : List Child) : Prop :=
  ∀ (n : ChildId) (c' : Child), l'[n]? = some c' → ∃ c, l[n]? = some c ∧ c'.botId = c.botId ∧
    c'.owner = c.owner ∧ (c'.isAlive = true → c.isAlive = true)

namespace Fewer

theorem refl (l : List Child) : Fewer l l := fun _ c h => ⟨c, h, rfl, rfl, id⟩

theorem trans (h : Fewer l l') (h' : Fewer l' l'') : Fewer l l'' := by
  intro n c'' hc''
  obtain ⟨c', hc', hb', ho', ha'⟩ := h' n c'' hc''
  obtain ⟨c, hc, hb, ho, ha⟩ := h n c' hc'
  exact ⟨c, hc, hb'.trans hb, ho'.trans ho, fun h => ha (ha' h)⟩

theorem of_modify {f : Child → Child} (l : List Child) (child : ChildId)
    (hf : ∀ c, l[child]? = some c →
      (f c).botId = c.botId ∧ (f c).owner = c.owner ∧ ((f c).isAlive = true → c.isAlive = true)) :
    Fewer l (l.modify child f) := by
  intro n c' hc'
  rw [List.getElem?_modify] at hc'
  obtain ⟨c, hc, rfl⟩ := Option.map_eq_some_iff.mp hc'
  refine ⟨c, hc, ?_⟩
  split
  next h => subst h; exact hf c hc
  next => exact ⟨rfl, rfl, id⟩

end Fewer

theorem System.suspend_fewer (s : System) (child : ChildId) :
    Fewer s.children (s.suspend child).children := by
  refine .of_modify _ _ fun c _ => ?_
  split
  next => exact ⟨rfl, rfl, id⟩
  next => exact ⟨rfl, rfl, id⟩

/-- Only `fork` makes a child. -/
theorem complete_fewer {r : Request} {a : r.Answer} {s s' : System}
    (h : s.complete bound i r choice = some (a, s')) (hr : r.isFork = false) :
    Fewer s.children s'.children := by
  by_cases hl : r.isLocal = false
  · rw [(complete_unchanged h).children hl]
    exact .refl _
  cases r with
  | fork botId config => cases hr
  | listen child =>
    cases choice with
    | done => cases h; exact .of_modify _ _ fun _ _ => ⟨rfl, rfl, id⟩
    | _ => cases h
  | takeChild botId =>
    cases choice with
    | done => cases h; exact .refl _
    | _ => cases h
  | send child closePosition =>
    cases choice with
    | done => cases h; exact .of_modify _ _ fun _ _ => ⟨rfl, rfl, id⟩
    | _ => cases h
  | suspendAll =>
    cases choice with
    | done =>
      cases h
      have hfold : ∀ (entries : List (BotId × ChildId)) (s : System), Fewer s.children
          (entries.foldl (fun s entry => s.suspend entry.2) s).children := by
        intro entries
        induction entries with
        | nil => exact fun s => .refl _
        | cons entry entries ih => exact fun s => (s.suspend_fewer entry.2).trans (ih _)
      exact hfold _ s
    | _ => cases h
  | _ => exact absurd rfl hl

@[simp] theorem System.updateChild_instances (s : System) (child : ChildId) (f : Child → Child) :
    (s.updateChild child f).instances = s.instances := rfl

/-- The child runs. -/
def System.IsAlive (s : System) (child : ChildId) : Prop :=
  ∃ c, s.children[child]? = some c ∧ c.isAlive = true

theorem System.isAlive_updateChild {s : System} {f : Child → Child}
    (hf : ∀ c, (f c).process = c.process) (h : s.IsAlive n) :
    (s.updateChild child f).IsAlive n := by
  obtain ⟨c, hc, ha⟩ := h
  refine ⟨_, by rw [System.updateChild, List.getElem?_modify, hc]; rfl, ?_⟩
  split
  next => rw [Child.isAlive, hf]; exact ha
  next => exact ha

/-- A child is forked: the newest, alive, of the instance and the bot of the request. -/
structure Forked (i : InstanceId) (botId : BotId) (s s' : System) : Prop where
  child : ∃ c : Child, s'.children = s.children ++ [c] ∧ c.botId = botId ∧ c.owner = i ∧
    c.isAlive = true

theorem complete_forked {config : Config.ConfigType} {a : ChildId} {s s' : System}
    (h : s.complete bound i (.fork botId config) choice = some (a, s')) :
    Forked i botId s s' := by
  cases choice with
  | done => cases h; exact ⟨_, rfl, rfl, rfl, rfl⟩
  | _ => cases h

/-! ## Tasks -/

@[simp] theorem System.updateInstance_self (s : System) (i : InstanceId) (f : Instance → Instance) :
    (s.updateInstance i f).instances i = f (s.instances i) := Function.update_self ..

theorem System.updateInstance_ne (s : System) (f : Instance → Instance) (h : j ≠ i) :
    (s.updateInstance i f).instances j = s.instances j := Function.update_of_ne h ..

/-- A request changes its own instance only: maps, and the tasks that `suspendAll` starts. -/
structure Serves (i : InstanceId) (s t : System) : Prop where
  others : ∀ j, j ≠ i → t.instances j = s.instances j
  life : (t.instances i).life = (s.instances i).life
  stopping : (t.instances i).stopping = (s.instances i).stopping
  tasks : ∃ new : List (Prog Unit), (∀ p ∈ new, ∃ botId child, p = suspendBot botId child) ∧
    (t.instances i).tasks = (s.instances i).tasks ++ new.map fun p => ⟨p, []⟩

theorem Serves.of_eq {s t : System} (h : t.instances = s.instances) (i : InstanceId) :
    Serves i s t := by
  refine ⟨fun _ _ => by rw [h], by rw [h], by rw [h], [], nofun, ?_⟩
  rw [h]
  exact (List.append_nil _).symm

theorem Serves.of_update {s t : System} {f : Instance → Instance} (ht : t.instances = s.instances)
    (hl : (f (s.instances i)).life = (s.instances i).life)
    (hs : (f (s.instances i)).stopping = (s.instances i).stopping)
    (hn : ∃ new : List (Prog Unit), (∀ p ∈ new, ∃ botId child, p = suspendBot botId child) ∧
      (f (s.instances i)).tasks = (s.instances i).tasks ++ new.map fun p => ⟨p, []⟩) :
    Serves i s (t.updateInstance i f) := by
  refine ⟨fun j hj => ?_, ?_, ?_, ?_⟩
  · rw [System.updateInstance_ne _ _ hj, ht]
  · rw [System.updateInstance_self, ht, hl]
  · rw [System.updateInstance_self, ht, hs]
  · rw [System.updateInstance_self, ht]
    exact hn

theorem suspends_instances (s : System) (entries : List (BotId × ChildId)) :
    (entries.foldl (fun s entry => s.suspend entry.2) s).instances = s.instances := by
  induction entries generalizing s with
  | nil => rfl
  | cons entry entries ih => exact ih (s.suspend entry.2)

theorem complete_serves {r : Request} {a : r.Answer} {s t : System}
    (h : s.complete bound i r choice = some (a, t)) : Serves i s t := by
  by_cases hl : r.isLocal = false
  · exact .of_eq ((complete_unchanged h).instances hl) i
  cases r with
  | fork botId config =>
    cases choice with
    | done =>
      cases h
      refine .of_update ?_ rfl rfl ⟨[], fun p hp => absurd hp List.not_mem_nil, ?_⟩
      · rfl
      · exact (List.append_nil _).symm
    | _ => cases h
  | listen child =>
    cases choice with
    | done => cases h; exact .of_eq (System.updateChild_instances ..) i
    | _ => cases h
  | takeChild botId =>
    cases choice with
    | done =>
      cases h
      refine .of_update rfl rfl rfl ⟨[], fun p hp => absurd hp List.not_mem_nil, ?_⟩
      exact (List.append_nil _).symm
    | _ => cases h
  | send child closePosition =>
    cases choice with
    | done => cases h; exact .of_eq (System.updateChild_instances ..) i
    | _ => cases h
  | suspendAll =>
    cases choice with
    | done =>
      cases h
      refine .of_update (suspends_instances s _) rfl rfl
        ⟨(s.entries i).map fun entry => suspendBot entry.1 (s.runningChild i entry.1), ?_, ?_⟩
      · intro p hp
        obtain ⟨⟨botId, child⟩, _, rfl⟩ := List.mem_map.mp hp
        exact ⟨_, _, rfl⟩
      · rw [List.map_map]
        rfl
    | _ => cases h
  | _ => exact absurd rfl hl

theorem serve_serves {r : Request} {x : Except String r.Answer} {s t : System}
    (h : s.serve bound i r outcome = some (x, t)) : Serves i s t := by
  obtain ⟨_, _, _, _, hc⟩ | ⟨_, _, _, _, rfl⟩ | ⟨_, _, _, _, _, _, hc⟩ := serve_cases h
  · exact complete_serves hc
  · exact .of_eq rfl i
  · exact complete_serves hc

/-- The requests that change the map. -/
def Request.changesProcesses : Request → Bool
  | .fork .. | .takeChild _ | .suspendAll => true
  | _ => false

theorem complete_processes {r : Request} {a : r.Answer} {s t : System}
    (h : s.complete bound i r choice = some (a, t)) (hr : r.changesProcesses = false) :
    (t.instances i).processes = (s.instances i).processes := by
  by_cases hl : r.isLocal = false
  · rw [(complete_unchanged h).instances hl]
  cases r with
  | fork botId config => cases hr
  | takeChild botId => cases hr
  | suspendAll => cases hr
  | listen child =>
    cases choice with
    | done => cases h; rfl
    | _ => cases h
  | send child closePosition =>
    cases choice with
    | done => cases h; rfl
    | _ => cases h
  | _ => exact absurd rfl hl

/-- The request that a task of an instance waits for. -/
def System.pending (s : System) (i : InstanceId) (n : Nat) : Option Request :=
  (s.instances i).tasks[n]?.bind Task.pending

theorem serveTask_cases {s s' : System} (h : s.serveTask bound i n outcome = some s') :
    ∃ (r : Request) (k : Except String (api.Answer r) → Prog Unit) (history : _)
      (x : Except String r.Answer) (t : System),
      (s.instances i).life = .up ∧ (s.instances i).tasks[n]? = some ⟨.await r k, history⟩ ∧
      s.serve bound i r outcome = some (x, t) ∧
      s' = t.updateInstance i fun inst =>
        { inst with
          tasks := inst.tasks.set n ⟨k x, ⟨r, x⟩ :: history⟩
          current := if (k x).pending.any (·.isSynchronous) then some n else none } := by
  unfold System.serveTask at h
  split at h
  next hup =>
    split at h
    next r k history ht =>
      obtain ⟨⟨x, t⟩, hserve, h⟩ := Option.bind_eq_some_iff.mp h
      cases h
      exact ⟨r, k, history, x, t, hup.1, ht, hserve, rfl⟩
    next => cases h
  next => cases h

theorem System.pending_eq {s : System} {k : Except String (api.Answer r) → Prog Unit}
    (h : (s.instances i).tasks[n]? = some ⟨.await r k, history⟩) : s.pending i n = some r := by
  rw [System.pending, h]
  rfl

/-! ## Events -/

theorem stepChild_cases {s s' : System} (h : s.stepChild bound child e = some s') :
    ∃ (c : Child) (b : Trading.Bot), s.children[child]? = some c ∧
      Trading.Bot.step bound ⟨s.accounts c.botId, c.process⟩ e = some b ∧
      s' = { s with
        accounts := Function.update s.accounts c.botId b.world
        children := s.children.modify child fun c => { c with process := b.process } } := by
  unfold System.stepChild at h
  split at h
  next c hc =>
    obtain ⟨b, hb, h⟩ := Option.bind_eq_some_iff.mp h
    cases h
    exact ⟨c, b, hc, hb, rfl⟩
  next => cases h

theorem receive_cases {s s' : System} (h : s.receive bound child = some s') :
    ∃ (c : Child) (closePosition : Bool) (rest : List Bool), s.children[child]? = some c ∧
      c.inbox = closePosition :: rest ∧
      (s.updateChild child fun c => { c with inbox := rest }).stepChild bound child
        (.message closePosition) = some s' := by
  unfold System.receive at h
  split at h
  next c hc =>
    split at h
    next closePosition rest hinbox => exact ⟨c, closePosition, rest, hc, hinbox, h⟩
    next => cases h
  next => cases h

/-- A process that has ended is started again by nothing but a start. -/
theorem isRunning_of_step {b b' : Trading.Bot} (h : b.step bound e = some b')
    (he : ∀ config, e ≠ .start config) (hb : b'.process.isRunning = true) :
    b.process.isRunning = true := by
  cases Trading.Bot.step_cases h with
  | start => exact absurd rfl (he _)
  | exchange => exact hb
  | message | serve | resume | kill => rfl

theorem stepChild_fewer {s s' : System} (h : s.stepChild bound child e = some s')
    (he : ∀ config, e ≠ .start config) : Fewer s.children s'.children := by
  obtain ⟨c, b, hc, hb, rfl⟩ := stepChild_cases h
  refine .of_modify _ _ fun c' hc' => ⟨rfl, rfl, fun ha => ?_⟩
  cases hc.symm.trans hc'
  exact isRunning_of_step hb he ha

theorem scheduleRestart_cases (s : System) (i : InstanceId) (botId : BotId) :
    ∃ f, s.scheduleRestart i botId = s.updateInstance i f := by
  unfold System.scheduleRestart
  dsimp only
  split
  next => exact ⟨_, rfl⟩
  next =>
    refine ⟨fun inst =>
      { inst with
        restartAttempts := Function.update inst.restartAttempts botId
          ((s.instances i).restartAttempts botId + 1)
        tasks := inst.tasks ++
          [⟨restartTimer botId ((s.instances i).restartAttempts botId + 1), []⟩] }, ?_⟩
    simp [System.spawn, System.updateInstance]

/-- The tasks that are started by the listeners and timers of a worker, with it, or at its end. -/
inductive Spawned (bound : Nat) : Prog Unit → Prop where
  | main : Spawned bound (main bound bound)
  | failBot : Spawned bound (failBot botId message)
  | markRunning : Spawned bound (markRunning botId)
  | restartTimer : Spawned bound (restartTimer botId attempt)
  | suspendBot : Spawned bound (suspendBot botId child)

/-- What an event that serves no request does to a worker that is up after it: tasks are started,
and entries of children that have ended are removed. -/
structure Grows (bound : Nat) (s s' : System) (i : InstanceId) : Prop where
  tasks : ∃ new : List (Prog Unit), (∀ p ∈ new, Spawned bound p) ∧
    (s'.instances i).tasks = (s.instances i).tasks ++ new.map fun p => ⟨p, []⟩
  processes : ∀ (botId : BotId) (child : ChildId), (s'.instances i).processes botId = some child →
    (s.instances i).processes botId = some child
  removed : ∀ (botId : BotId) (child : ChildId), (s.instances i).processes botId = some child →
    s.IsAlive child → (s'.instances i).processes botId = some child

namespace Grows

theorem of_eq {s s' : System} (h : s'.instances = s.instances) (i : InstanceId) :
    Grows bound s s' i := by
  refine ⟨⟨[], nofun, ?_⟩, ?_, ?_⟩ <;> rw [h]
  · exact (List.append_nil _).symm
  · exact fun _ _ h => h
  · exact fun _ _ h _ => h

/-- A change of one instance. -/
theorem of_update {s t : System} {f : Instance → Instance} (ht : t.instances = s.instances)
    (hf : Grows bound s (t.updateInstance j f) j) (i : InstanceId) :
    Grows bound s (t.updateInstance j f) i := by
  by_cases hij : i = j
  · exact hij ▸ hf
  · have hsame : Grows bound s t i := of_eq ht i
    obtain ⟨⟨new, hnew, htasks⟩, hproc, hrem⟩ := hsame
    refine ⟨⟨new, hnew, ?_⟩, ?_, ?_⟩ <;> rw [System.updateInstance_ne _ _ hij]
    · exact htasks
    · exact hproc
    · exact hrem

theorem trans {s t u : System} (h : Grows bound s t i) (h' : Grows bound t u i)
    (hc : ∀ child, s.IsAlive child → t.IsAlive child) : Grows bound s u i := by
  obtain ⟨new, hnew, htasks⟩ := h.tasks
  obtain ⟨new', hnew', htasks'⟩ := h'.tasks
  refine ⟨⟨new ++ new', ?_, ?_⟩, ?_, ?_⟩
  · intro p hp
    obtain hp | hp := List.mem_append.mp hp
    · exact hnew p hp
    · exact hnew' p hp
  · rw [htasks', htasks, List.append_assoc, List.map_append]
  · exact fun botId child hp => h.processes botId child (h'.processes botId child hp)
  · exact fun botId child hp ha =>
      h'.removed botId child (h.removed botId child hp ha) (hc child ha)

theorem spawn {s t : System} {p : Prog Unit} (ht : t.instances = s.instances)
    (hp : Spawned bound p) (j i : InstanceId) : Grows bound s (t.spawn j p) i := by
  refine of_update ht ⟨⟨[p], fun q hq => List.mem_singleton.mp hq ▸ hp, ?_⟩, ?_, ?_⟩ i <;>
    rw [System.updateInstance_self, ht]
  · rfl
  · exact fun _ _ h => h
  · exact fun _ _ h _ => h

end Grows

theorem scheduleRestart_grows (s : System) (j : InstanceId) (botId : BotId) (i : InstanceId) :
    Grows bound s (s.scheduleRestart j botId) i := by
  have hattempt : Grows bound s (s.updateInstance j fun inst =>
      { inst with
        restartAttempts := Function.update inst.restartAttempts botId
          ((s.instances j).restartAttempts botId + 1) }) i := by
    refine .of_update rfl ⟨⟨[], nofun, ?_⟩, ?_, ?_⟩ i <;> rw [System.updateInstance_self]
    · exact (List.append_nil _).symm
    · exact fun _ _ h => h
    · exact fun _ _ h _ => h
  unfold System.scheduleRestart
  dsimp only
  split
  next => exact hattempt
  next => exact hattempt.trans (.spawn rfl .restartTimer j i) fun _ h => h

theorem exit_cases {s s' : System} (h : s.exit child = some s') :
    ∃ c, s.children[child]? = some c ∧ s.isIdle c.owner = true ∧ c.isAlive = false ∧
      s' = if c.isListening then
          (s.updateChild child fun c =>
            { c with exitEmitted := true, exitSeen := c.exitAwaited }).onExit child c
        else s.updateChild child fun c =>
          { c with exitEmitted := true, exitSeen := c.exitAwaited } := by
  unfold System.exit at h
  split at h
  next c hc =>
    split at h
    next hg => cases h; exact ⟨c, hc, hg.1, hg.2.1, rfl⟩
    next => cases h
  next => cases h

theorem message_cases {s s' : System} (h : s.message child = some s') :
    ∃ (c : Child) (m : LifecycleMessage) (rest : List LifecycleMessage),
      s.children[child]? = some c ∧ c.outbox = m :: rest ∧ s.isIdle c.owner = true ∧
      c.isListening = true ∧
      s' = (s.updateChild child fun c => { c with outbox := rest }).onMessage child c m := by
  unfold System.message at h
  split at h
  next c hc =>
    split at h
    next m rest hm =>
      split at h
      next hg => cases h; exact ⟨c, m, rest, hc, hm, hg.1, hg.2, rfl⟩
      next => cases h
    next => cases h
  next => cases h

theorem onExit_grows {s t : System} {child : ChildId} {c : Child} (hc : s.children[child]? = some c)
    (hdead : c.isAlive = false) (ht : t.instances = s.instances)
    (hta : ∀ child, s.IsAlive child → t.IsAlive child) (i : InstanceId) :
    Grows bound s (t.onExit child c) i := by
  unfold System.onExit
  split
  next => exact .of_eq ht i
  next hentry =>
    have hremove : Grows bound s (t.updateInstance c.owner fun inst =>
        { inst with
          processes := Function.update inst.processes c.botId none
          restartResetTimers := Function.update inst.restartResetTimers c.botId none }) i := by
      refine .of_update ht ⟨⟨[], nofun, ?_⟩, ?_, ?_⟩ i <;> rw [System.updateInstance_self, ht]
      · exact (List.append_nil _).symm
      · intro botId n hp
        by_cases hb : botId = c.botId
        · subst hb
          cases (Function.update_self ..).symm.trans hp
        · exact (Function.update_of_ne hb ..).symm.trans hp
      · intro botId n hp ⟨c', hc', ha⟩
        have hb : botId ≠ c.botId := by
          rintro rfl
          rw [ht, not_not] at hentry
          cases hentry.symm.trans hp
          cases hc.symm.trans hc'
          rw [hdead] at ha
          cases ha
        exact (Function.update_of_ne hb ..).trans hp
    dsimp only
    split
    next => exact hremove
    next =>
      exact (hremove.trans (.spawn rfl .failBot c.owner i) hta).trans
        (scheduleRestart_grows _ c.owner c.botId i) hta

theorem exit_grows {s s' : System} (h : s.exit child = some s') (i : InstanceId) :
    Grows bound s s' i := by
  obtain ⟨c, hc, _, ha, rfl⟩ := exit_cases h
  split
  next =>
    refine onExit_grows hc ha ?_ ?_ i
    · rfl
    · exact fun _ => System.isAlive_updateChild fun _ => rfl
  next => exact .of_eq (System.updateChild_instances ..) i

theorem message_grows {s s' : System} (h : s.message child = some s') (i : InstanceId) :
    Grows bound s s' i := by
  obtain ⟨c, m, rest, _, _, _, _, rfl⟩ := message_cases h
  have ht := System.updateChild_instances s child fun c => { c with outbox := rest }
  cases m with
  | started =>
    have htimer : Grows bound s
        ((s.updateChild child fun c => { c with outbox := rest }).updateInstance c.owner fun inst =>
          { inst with
            restartResetTimers := Function.update inst.restartResetTimers c.botId (some child) })
        i := by
      refine .of_update ht ⟨⟨[], nofun, ?_⟩, ?_, ?_⟩ i <;> rw [System.updateInstance_self]
      · exact (List.append_nil _).symm
      · exact fun _ _ h => h
      · exact fun _ _ h _ => h
    exact htimer.trans (.spawn rfl .markRunning c.owner i)
      fun _ => System.isAlive_updateChild fun _ => rfl
  | error message =>
    rw [System.onMessage]
    refine .spawn ?_ .failBot c.owner i
    rfl

theorem resetAttempts_grows {s s' : System} (h : s.resetAttempts j botId = some s')
    (i : InstanceId) : Grows bound s s' i := by
  unfold System.resetAttempts at h
  split at h
  next child hchild =>
    split at h
    next =>
      cases h
      refine .of_update rfl ⟨⟨[], nofun, ?_⟩, ?_, ?_⟩ i <;> rw [System.updateInstance_self]
      · exact (List.append_nil _).symm
      · exact fun _ _ h => h
      · exact fun _ _ h _ => h
    next => cases h
  next => cases h

/-- The directories are the same, but for one that a trading process makes while it runs. -/
def SameOrMade (s s' : System) : Prop :=
  s'.directories = s.directories ∨ ∃ c ∈ s.children, c.isAlive = true ∧
    s'.directories = (s.updateDirectory c.botId fun d => { d with isPresent := true }).directories

/-- What an event can do that neither serves a request nor is the start or the end of a worker or of
its connection, nor comes from the API. -/
structure Passes (bound : Nat) (s s' : System) : Prop where
  fewer : Fewer s.children s'.children
  grows : ∀ i, Grows bound s s' i
  life : ∀ i, (s'.instances i).life = (s.instances i).life
  workers : s'.workers = s.workers
  lock : s'.lock = s.lock
  bots : s'.bots = s.bots
  commands : s'.commands = s.commands
  directories : SameOrMade s s'

/-- Everything but the children and the instances is the same, and the lives of the instances. -/
structure SameRows (s s' : System) : Prop where
  life : ∀ i, (s'.instances i).life = (s.instances i).life
  workers : s'.workers = s.workers
  lock : s'.lock = s.lock
  bots : s'.bots = s.bots
  commands : s'.commands = s.commands
  directories : s'.directories = s.directories

theorem SameRows.trans {s t u : System} (h : SameRows s t) (h' : SameRows t u) : SameRows s u where
  life i := (h'.life i).trans (h.life i)
  workers := h'.workers.trans h.workers
  lock := h'.lock.trans h.lock
  bots := h'.bots.trans h.bots
  commands := h'.commands.trans h.commands
  directories := h'.directories.trans h.directories

theorem SameRows.updateChild (s : System) (child : ChildId) (f : Child → Child) :
    SameRows s (s.updateChild child f) := ⟨fun _ => rfl, rfl, rfl, rfl, rfl, rfl⟩

theorem SameRows.updateInstance (s : System) (j : InstanceId) {f : Instance → Instance}
    (hf : ∀ inst, (f inst).life = inst.life) : SameRows s (s.updateInstance j f) := by
  refine ⟨fun i => ?_, rfl, rfl, rfl, rfl, rfl⟩
  by_cases hij : i = j
  · rw [hij, System.updateInstance_self, hf]
  · rw [System.updateInstance_ne _ _ hij]

theorem SameRows.spawn (s : System) (j : InstanceId) (p : Prog Unit) : SameRows s (s.spawn j p) :=
  .updateInstance s j fun _ => rfl

theorem SameRows.scheduleRestart (s : System) (j : InstanceId) (botId : BotId) :
    SameRows s (s.scheduleRestart j botId) := by
  unfold System.scheduleRestart
  dsimp only
  split
  next => exact .updateInstance s j fun _ => rfl
  next =>
    refine SameRows.trans ?_ (.spawn ..)
    exact .updateInstance s j fun _ => rfl

theorem SameRows.onExit (s : System) (child : ChildId) (c : Child) :
    SameRows s (s.onExit child c) := by
  unfold System.onExit
  split
  next => exact ⟨fun _ => rfl, rfl, rfl, rfl, rfl, rfl⟩
  next =>
    dsimp only
    split
    next => exact .updateInstance s _ fun _ => rfl
    next =>
      refine SameRows.trans (SameRows.trans ?_ (.spawn ..)) (.scheduleRestart ..)
      exact .updateInstance s c.owner fun _ => rfl

theorem SameRows.onMessage (s : System) (child : ChildId) (c : Child) (m : LifecycleMessage) :
    SameRows s (s.onMessage child c m) := by
  cases m with
  | started =>
    refine SameRows.trans ?_ (.spawn ..)
    exact .updateInstance s c.owner fun _ => rfl
  | error message =>
    refine SameRows.trans ?_ (.spawn ..)
    exact .updateChild s child _

theorem SameRows.stepChild {s s' : System} (h : s.stepChild bound child e = some s') :
    SameRows s s' := by
  obtain ⟨c, b, _, _, rfl⟩ := stepChild_cases h
  exact ⟨fun _ => rfl, rfl, rfl, rfl, rfl, rfl⟩

theorem Passes.of_rows {s s' : System} (hf : Fewer s.children s'.children)
    (hg : ∀ i, Grows bound s s' i) (h : SameRows s s') : Passes bound s s' :=
  ⟨hf, hg, h.life, h.workers, h.lock, h.bots, h.commands, .inl h.directories⟩

/-- The instances are not touched. -/
theorem Passes.of_instances {s s' : System} (hf : Fewer s.children s'.children)
    (hi : s'.instances = s.instances) (h : SameRows s s') : Passes bound s s' :=
  .of_rows hf (Grows.of_eq hi) h


theorem scheduleRestart_children (s : System) (j : InstanceId) (botId : BotId) :
    (s.scheduleRestart j botId).children = s.children := by
  unfold System.scheduleRestart
  dsimp only
  split
  next => rfl
  next => rfl

theorem onExit_children (s : System) (child : ChildId) (c : Child) :
    (s.onExit child c).children = s.children := by
  unfold System.onExit
  split
  next => rfl
  next =>
    dsimp only
    split
    next => rfl
    next => exact scheduleRestart_children ..

theorem exit_passes {s s' : System} (h : s.exit child = some s') : Passes bound s s' := by
  refine .of_rows ?_ (exit_grows h) ?_
  · obtain ⟨c, _, _, _, rfl⟩ := exit_cases h
    have hfewer := Fewer.of_modify s.children child
      (f := fun c => { c with exitEmitted := true, exitSeen := c.exitAwaited })
      fun _ _ => ⟨rfl, rfl, id⟩
    split
    next => rw [onExit_children]; exact hfewer
    next => exact hfewer
  · obtain ⟨c, _, _, _, rfl⟩ := exit_cases h
    split
    next => exact (SameRows.updateChild s child _).trans (.onExit ..)
    next => exact .updateChild s child _

theorem message_passes {s s' : System} (h : s.message child = some s') : Passes bound s s' := by
  refine .of_rows ?_ (message_grows h) ?_
  · obtain ⟨c, m, rest, _, _, _, _, rfl⟩ := message_cases h
    have hfewer := Fewer.of_modify s.children child (f := fun c => { c with outbox := rest })
      fun _ _ => ⟨rfl, rfl, id⟩
    cases m with
    | started => exact hfewer
    | error message => exact hfewer.trans (.of_modify _ _ fun _ _ => ⟨rfl, rfl, id⟩)
  · obtain ⟨c, m, rest, _, _, _, _, rfl⟩ := message_cases h
    exact (SameRows.updateChild s child _).trans (.onMessage ..)

theorem close_passes {s s' : System} (h : s.close child = some s') : Passes bound s s' := by
  unfold System.close at h
  split at h
  next c hc =>
    split at h
    next =>
      cases h
      exact .of_instances (.of_modify _ _ fun _ _ => ⟨rfl, rfl, id⟩) rfl (.updateChild ..)
    next => cases h
  next => cases h

theorem resetAttempts_passes {s s' : System} (h : s.resetAttempts i botId = some s') :
    Passes bound s s' := by
  have hg : ∀ j, Grows bound s s' j := resetAttempts_grows h
  unfold System.resetAttempts at h
  split at h
  next child hchild =>
    split at h
    next =>
      cases h
      refine .of_rows (.refl _) hg ?_
      exact .updateInstance s i fun _ => rfl
    next => cases h
  next => cases h

theorem stepChild_passes {s s' : System} (h : s.stepChild bound child e = some s')
    (he : ∀ config, e ≠ .start config) : Passes bound s s' := by
  refine .of_instances (stepChild_fewer h he) ?_ (.stepChild h)
  obtain ⟨c, b, _, _, rfl⟩ := stepChild_cases h
  rfl

theorem receive_passes {s s' : System} (h : s.receive bound child = some s') :
    Passes bound s s' := by
  obtain ⟨c, closePosition, rest, _, _, h⟩ := receive_cases h
  have hfewer : Fewer s.children (s.updateChild child fun c => { c with inbox := rest }).children :=
    .of_modify _ _ fun _ _ => ⟨rfl, rfl, id⟩
  have hinstances : s'.instances = s.instances := by
    obtain ⟨_, _, _, _, rfl⟩ := stepChild_cases h
    rfl
  refine .of_instances (hfewer.trans (stepChild_fewer h fun _ he => by cases he)) hinstances ?_
  exact (SameRows.updateChild s child _).trans (.stepChild h)

theorem report_passes {s s' : System} (h : s.report child m = some s') : Passes bound s s' := by
  unfold System.report at h
  split at h
  next c hc =>
    split at h
    next =>
      cases h
      exact .of_instances (.of_modify _ _ fun _ _ => ⟨rfl, rfl, id⟩) rfl (.updateChild ..)
    next => cases h
  next => cases h

theorem Child.isAlive_of_isStarting {c : Child} (h : c.isStarting = true) : c.isAlive = true := by
  obtain ⟨botId, owner, process⟩ := c
  cases process with
  | running p => rfl
  | _ => cases h

theorem makeDirectory_passes {s s' : System} (h : s.makeDirectory child = some s') :
    Passes bound s s' := by
  unfold System.makeDirectory at h
  split at h
  next c hc =>
    split at h
    next hstarting =>
      cases h
      exact ⟨.refl _, .of_eq rfl, fun _ => rfl, rfl, rfl, rfl, rfl,
        .inr ⟨c, List.mem_of_getElem? hc, Child.isAlive_of_isStarting hstarting, rfl⟩⟩
    next => cases h
  next => cases h

/-- The end of a connection changes the lock only. -/
theorem System.unlocked_eq (s : System) (i : InstanceId) :
    ∃ lock, s.unlocked i = { s with lock } := by
  unfold System.unlocked
  split
  next => exact ⟨none, rfl⟩
  next => exact ⟨s.lock, rfl⟩

/-- The API changes rows of bots and of commands. -/
structure Called (s s' : System) : Prop where
  directories : s'.directories = s.directories
  accounts : s'.accounts = s.accounts
  lock : s'.lock = s.lock
  workers : s'.workers = s.workers
  children : s'.children = s.children
  instances : s'.instances = s.instances

theorem System.call_called {c : ApiCall} {s s' : System} (h : s.call c = some s') :
    Called s s' := by
  cases c with
  | createBot => cases h; exact ⟨rfl, rfl, rfl, rfl, rfl, rfl⟩
  | command botId command createdAt =>
    simp only [System.call] at h
    split at h
    next => cases h; exact ⟨rfl, rfl, rfl, rfl, rfl, rfl⟩
    next => cases h
  | deleteBot botId createdAt =>
    simp only [System.call] at h
    split at h
    next => cases h; exact ⟨rfl, rfl, rfl, rfl, rfl, rfl⟩
    next => cases h

/-- What a step can be. -/
inductive SystemStep (bound : Nat) (s : System) : Event → System → Prop
  | api {c : ApiCall} : s.call c = some s' → SystemStep bound s (.api c) s'
  | boot : (s.instances i).life = .unborn → SystemStep bound s (.boot i)
      ({ s with workers := i :: s.workers }.updateInstance i fun inst =>
        { inst with life := .up, tasks := [⟨main bound bound, []⟩] })
  | serve {i : InstanceId} {n : Nat} {r : Request} {k : Except String (api.Answer r) → Prog Unit}
      {history : List ((r : Request) × Except String r.Answer)} {outcome : Outcome}
      {x : Except String r.Answer} {t : System} :
      (s.instances i).life = .up → (s.instances i).tasks[n]? = some ⟨.await r k, history⟩ →
      s.serve bound i r outcome = some (x, t) →
      SystemStep bound s (.serve i n outcome) (t.updateInstance i fun inst =>
        { inst with
          tasks := inst.tasks.set n ⟨k x, ⟨r, x⟩ :: history⟩
          current := if (k x).pending.any (·.isSynchronous) then some n else none })
  | disconnect : s.lock = some i → SystemStep bound s (.disconnect i) (s.unlocked i)
  | crash : (s.instances i).life = .up →
      SystemStep bound s (.crash i) ((s.unlocked i).updateInstance i fun _ => { life := .ended })
  | other : Passes bound s s' → SystemStep bound s e s'

theorem System.step_cases {s s' : System} (h : s.step bound e = some s') :
    SystemStep bound s e s' := by
  cases e with
  | api call => exact .api h
  | boot i =>
    simp only [System.step] at h
    split at h
    next hl => cases h; exact .boot hl
    next => cases h
  | serve i n outcome =>
    obtain ⟨r, k, history, x, t, hup, ht, hserve, rfl⟩ := serveTask_cases h
    exact .serve hup ht hserve
  | message child => exact .other (message_passes h)
  | exit child => exact .other (exit_passes h)
  | close child => exact .other (close_passes h)
  | resetAttempts i botId => exact .other (resetAttempts_passes h)
  | signal i =>
    cases h
    refine .other (.of_rows (.refl _) (Grows.of_update rfl ⟨⟨[], nofun, ?_⟩, ?_, ?_⟩)
      (.updateInstance s i fun _ => rfl)) <;> rw [System.updateInstance_self]
    · exact (List.append_nil _).symm
    · exact fun _ _ h => h
    · exact fun _ _ h _ => h
  | disconnect i =>
    simp only [System.step] at h
    split at h
    next hl => cases h; exact .disconnect hl
    next => cases h
  | crash i =>
    simp only [System.step] at h
    split at h
    next hl => cases h; exact .crash hl
    next => cases h
  | child child e =>
    simp only [System.step] at h
    split at h
    next he =>
      refine .other (stepChild_passes h fun config hs => ?_)
      subst hs
      cases he
    next => cases h
  | receive child => exact .other (receive_passes h)
  | report child m => exact .other (report_passes h)
  | makeDirectory child => exact .other (makeDirectory_passes h)
  | exchange botId e =>
    obtain ⟨x, _, h⟩ := Option.map_eq_some_iff.mp h
    cases h
    exact .other (.of_instances (.refl _) rfl ⟨fun _ => rfl, rfl, rfl, rfl, rfl, rfl⟩)

/-- Where the task with number `n` of a worker comes from. -/
inductive TaskAt (bound : Nat) (s s' : System) (i : InstanceId) (n : Nat) : Event → Task → Prop
  | kept : (s'.instances i).life = (s.instances i).life → (s.instances i).tasks[n]? = some t →
      TaskAt bound s s' i n e t
  | spawned : Spawned bound p → TaskAt bound s s' i n e ⟨p, []⟩
  | served {r : Request} {k : Except String (api.Answer r) → Prog Unit}
      {history : List ((r : Request) × Except String r.Answer)} {outcome : Outcome}
      {x : Except String r.Answer} {u : System} :
      (s.instances i).life = .up → (s.instances i).tasks[n]? = some ⟨.await r k, history⟩ →
      s.serve bound i r outcome = some (x, u) →
      TaskAt bound s s' i n (.serve i n outcome) ⟨k x, ⟨r, x⟩ :: history⟩

/-- A task that is not among the old ones has just been started. -/
theorem TaskAt.of_append {s s' : System} {l : List (Prog Unit)} (hl : ∀ p ∈ l, Spawned bound p)
    (hlife : (s'.instances i).life = (s.instances i).life)
    (ht : ((s.instances i).tasks ++ l.map fun p => ⟨p, []⟩)[n]? = some t) :
    TaskAt bound s s' i n e t := by
  rw [List.getElem?_append] at ht
  split at ht
  next => exact .kept hlife ht
  next =>
    obtain ⟨p, hp, rfl⟩ := List.mem_map.mp (List.mem_of_getElem? ht)
    exact .spawned (hl p hp)

theorem System.task_at {s s' : System} (h : s.step bound e = some s')
    (ht : (s'.instances i).tasks[n]? = some t) : TaskAt bound s s' i n e t := by
  cases System.step_cases h with
  | api hcall =>
    have hi := (System.call_called hcall).instances
    exact .kept (by rw [hi]) (hi ▸ ht)
  | @boot j hl =>
    by_cases hij : i = j
    · rw [hij, System.updateInstance_self] at ht
      cases List.mem_singleton.mp (List.mem_of_getElem? ht)
      exact .spawned .main
    · rw [System.updateInstance_ne _ _ hij] at ht
      exact .kept (by rw [System.updateInstance_ne _ _ hij]) ht
  | @serve j m r k history outcome x u hup hn hserve =>
    have hs := serve_serves hserve
    by_cases hij : i = j
    swap
    · rw [System.updateInstance_ne _ _ hij, hs.others i hij] at ht
      refine .kept ?_ ht
      rw [System.updateInstance_ne _ _ hij, hs.others i hij]
    subst hij
    rw [System.updateInstance_self, List.getElem?_set] at ht
    split at ht
    next hnm =>
      subst hnm
      split at ht
      next =>
        cases ht
        exact .served hup hn hserve
      next => cases ht
    next =>
      obtain ⟨new, hnew, htasks⟩ := hs.tasks
      rw [htasks] at ht
      refine .of_append (fun p hp => ?_) ?_ ht
      · obtain ⟨botId, child, rfl⟩ := hnew p hp
        exact .suspendBot
      · rw [System.updateInstance_self]
        exact hs.life
  | @disconnect j hl =>
    obtain ⟨lock, heq⟩ := s.unlocked_eq j
    rw [heq] at ht
    exact .kept (by rw [heq]) ht
  | @crash j hl =>
    by_cases hij : i = j
    · rw [hij, System.updateInstance_self] at ht
      cases ht
    · obtain ⟨lock, heq⟩ := s.unlocked_eq j
      rw [System.updateInstance_ne _ _ hij, heq] at ht
      refine .kept ?_ ht
      rw [System.updateInstance_ne _ _ hij, heq]
  | other hp =>
    obtain ⟨new, hnew, htasks⟩ := (hp.grows i).tasks
    rw [htasks] at ht
    exact .of_append hnew (hp.life i) ht

/-- Where a task of a worker comes from. -/
inductive TaskStep (bound : Nat) (s s' : System) (i : InstanceId) : Event → Task → Prop
  | kept : (s'.instances i).life = (s.instances i).life → t ∈ (s.instances i).tasks →
      TaskStep bound s s' i e t
  | spawned : Spawned bound p → TaskStep bound s s' i e ⟨p, []⟩
  | served {n : Nat} {r : Request} {k : Except String (api.Answer r) → Prog Unit}
      {history : List ((r : Request) × Except String r.Answer)} {outcome : Outcome}
      {x : Except String r.Answer} {u : System} :
      (s.instances i).life = .up → (s.instances i).tasks[n]? = some ⟨.await r k, history⟩ →
      s.serve bound i r outcome = some (x, u) →
      TaskStep bound s s' i (.serve i n outcome) ⟨k x, ⟨r, x⟩ :: history⟩

theorem System.task_step {s s' : System} {t : Task} (h : s.step bound e = some s')
    (ht : t ∈ (s'.instances i).tasks) : TaskStep bound s s' i e t := by
  obtain ⟨n, hget⟩ := List.getElem?_of_mem ht
  cases System.task_at h hget with
  | kept hl hn => exact .kept hl (List.mem_of_getElem? hn)
  | spawned hp => exact .spawned hp
  | served hup hn hserve => exact .served hup hn hserve

/-- Where the children come from: there are no more than before, or a task forks a new one. -/
inductive ChildrenStep (s s' : System) : Event → Prop
  | fewer : Fewer s.children s'.children → ChildrenStep s s' e
  | forked {i : InstanceId} {n : Nat} {t : Task} {choice : Choice} {config : Config.ConfigType}
      {c : Child} : (s.instances i).life = .up → (s.instances i).tasks[n]? = some t →
      t.pending = some (.fork c.botId config) → s'.children = s.children ++ [c] →
      ChildrenStep s s' (.serve i n (.ok choice))

theorem System.children_step {s s' : System} (h : s.step bound e = some s') :
    ChildrenStep s s' e := by
  cases System.step_cases h with
  | api hcall =>
    refine .fewer ?_
    rw [(System.call_called hcall).children]
    exact .refl _
  | boot => exact .fewer (.refl _)
  | @serve i n r k history outcome x t hup hn hserve =>
    by_cases hl : r.isLocal = false
    · have hchildren := (serve_unchanged hserve).children hl
      exact .fewer (hchildren ▸ .refl _)
    obtain ⟨_, a, rfl, _, hc⟩ | ⟨_, _, _, _, rfl⟩ | ⟨_, _, _, _, _, htr, _⟩ := serve_cases hserve
    · cases hr : r.isFork with
      | true =>
        obtain ⟨botId, config, rfl⟩ := Request.eq_fork hr
        obtain ⟨c, hchild, rfl, _, _⟩ := (complete_forked hc).child
        exact .forked hup hn rfl hchild
      | false =>
        have hfewer := complete_fewer hc hr
        exact .fewer hfewer
    · exact .fewer (.refl _)
    · refine absurd ?_ hl
      cases r <;> first | rfl | cases htr
  | disconnect =>
    obtain ⟨lock, heq⟩ := s.unlocked_eq _
    rw [heq]
    exact .fewer (.refl _)
  | crash =>
    obtain ⟨lock, heq⟩ := s.unlocked_eq _
    rw [heq]
    exact .fewer (.refl _)
  | other hp => exact .fewer hp.fewer

end Tonatiuh.Supervisor
