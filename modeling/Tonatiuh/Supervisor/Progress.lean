import Tonatiuh.Supervisor.Steps

/-! How far a task has come.

The history of a task tells which command it handles and which child it starts or stops. What the
programs of the worker ask for depends on it as `allowed` says. -/

namespace Tonatiuh.Supervisor

open Async Transition

/-- `starting` is the bot whose test `startBot` has passed without having forked yet. `command` is
the command that is handled: claimed, its outcome not stored, and not given up. Since the claim:
`taken` is the answer of `takeChild`, `exited` that of the wait for the child; `staged` tells that
the data directory has its staged name, `abandoned` that it keeps it, and `deleted` that the rows
are deleted. -/
structure Progress where
  starting : Option BotId := none
  command : Option BotCommand := none
  taken : Option (Option ChildId) := none
  exited : Bool := false
  staged : Bool := false
  abandoned : Bool := false
  deleted : Bool := false

namespace Progress

/-- A request has been answered. -/
def after (g : Progress) : (r : Request) → Except String r.Answer → Progress
  | .isRunning botId, .ok false => { g with starting := some botId }
  | .loadBot _, .ok bot =>
    match bot.legacyConfig with
    | .ok _ => g
    | .error _ => { g with starting := none }
  | .fork .., .ok _ => { g with starting := none }
  | .claimCommand, .ok command => { command }
  | .takeChild _, .ok child => { g with taken := some child, exited := false }
  | .awaitExit _, .ok exited => { g with exited }
  | .stage _, .ok staged => { g with staged }
  | .unstage _, .ok _ | .rm _, .ok _ => { g with staged := false }
  | .unstage _, .error _ | .rm _, .error _ => { g with staged := false, abandoned := true }
  | .deleteRows _, .ok _ => { g with deleted := true }
  | .updateSucceeded _, .ok _ | .updateCommandFailed .., _ => { g with command := none }
  | _, .ok _ => g
  | _, .error _ => { g with starting := none }

/-- `stopBot` found no running child, or one that has exited with code 0. -/
def Clean (g : Progress) : Prop :=
  g.taken = some none ∨ ∃ child, g.taken = some (some child) ∧ g.exited = true

/-- What has been done when a command succeeds. -/
def Accomplished (g : Progress) : CommandKind → Prop
  | .stop | .emergencyStop => g.Clean
  | .delete => g.deleted = true ∧ g.staged = false
  | .start | .restart => True

/-- The command is handled, and no directory is staged. -/
def Handles (g : Progress) (c : BotCommand) : Prop :=
  g.command = some c ∧ g.starting = none ∧ g.staged = false

/-- No command is handled, and no bot is being started. -/
def Free (g : Progress) : Prop := g.command = none ∧ g.starting = none

/-- When a request may be made. -/
def Allowed : Request → Progress → Prop
  | .fork botId _, g => g.starting = some botId
  | .sleep _, g => g.command = none ∧ g.starting = none
  | .claimCommand, g => g.command = none ∧ g.starting = none
  | .updateDesiredState botId desiredState, g =>
    ∃ c, g.Handles c ∧ c.botId = botId ∧ c.command.desiredState = desiredState
  | .takeChild botId, g => ∃ c, g.Handles c ∧ c.botId = botId
  | .send child closePosition, g =>
    ∃ c, g.Handles c ∧ g.taken = some (some child) ∧
      (closePosition = true ↔ c.command = .emergencyStop)
  | .awaitExit child, g => g.taken = some (some child) ∧ g.exited = false
  | .stage botId, g => ∃ c, g.Handles c ∧ c.botId = botId ∧ c.command = .delete
  | .deleteRows botId, g => ∃ c, g.command = some c ∧ c.botId = botId ∧ c.command = .delete
  | .unstage botId, g | .rm botId, g =>
    g.staged = true ∧ ∃ c, g.command = some c ∧ c.botId = botId ∧ c.command = .delete
  | .updateSucceeded id, g => ∃ c, g.Handles c ∧ c.id = id ∧ g.Accomplished c.command
  | .updateCommandFailed id _, g => ∃ c, g.Handles c ∧ c.id = id
  | _, _ => True

end Progress

/-- The test with which `startBot` begins. -/
def Request.isTest : Request → Bool
  | .isRunning _ => true
  | _ => false

theorem Progress.after_starting {g : Progress} {r : Request} {x : Except String r.Answer}
    (hr : r.isTest = false) (h : (g.after r x).starting = some botId) :
    g.starting = some botId := by
  unfold Progress.after at h
  split at h
  case h_1 => cases hr
  case h_2 =>
    split at h
    next => exact h
    next => cases h
  all_goals first
    | exact h
    | cases h

theorem Progress.after_isRunning {g : Progress} {x : Except String Bool}
    (h : (g.after (.isRunning botId) x).starting = some botId') :
    g.starting = some botId' ∨ (x = .ok false ∧ botId' = botId) := by
  match x with
  | .ok false => exact .inr ⟨rfl, (Option.some.inj h).symm⟩
  | .ok true => exact .inl h
  | .error _ => cases h

theorem Progress.after_fork {g : Progress} {config : Config.ConfigType}
    {x : Except String ChildId} :
    (g.after (.fork botId config) x).starting = none := by
  cases x with
  | ok => rfl
  | error => rfl

/-- Only `takeChild` takes a child. -/
theorem Progress.taken_cases {g : Progress} {r : Request} {x : Except String r.Answer}
    (h : (g.after r x).taken = some child) : g.taken = some child ∨ ∃ botId,
      (⟨r, x⟩ : (r : Request) × Except String r.Answer) = ⟨.takeChild botId, .ok child⟩ := by
  unfold Progress.after at h
  split at h
  case h_5 botId _ =>
    cases (h : some _ = some child)
    exact .inr ⟨botId, rfl⟩
  case h_2 =>
    split at h
    next => exact .inl h
    next => exact .inl h
  all_goals first
    | exact .inl h
    | cases h

/-- The contract of the tasks of a worker. -/
def progressContract : Contract api Unit Progress String :=
  .noting Progress.after Progress.Allowed

/-- Nothing of a start is left over. -/
theorem Progress.idle_eq {g : Progress} (hg : g.starting = none) :
    { g with starting := none } = g := by
  rw [← hg]

theorem failBot_progress (botId : BotId) (message : String) {g : Progress}
    (hg : g.starting = none) :
    Safe progressContract (fun _ t => t.2 = g) (failBot botId message) ((), g) := by
  refine Safe.tryCatch (Q := fun _ t => t.2 = g) (Safe.noting_request trivial fun x m => ?_)
    (fun _ _ h => h) fun _ _ h => h
  cases x with
  | ok => rfl
  | error => exact Progress.idle_eq hg

/-- `startBot` leaves nothing behind, whether it succeeds or not. -/
theorem startBot_progress (botId : BotId) {g : Progress} (hg : g.starting = none) :
    Safe progressContract (fun _ t => t.2 = g) (startBot botId) ((), g) := by
  have hidle := Progress.idle_eq hg
  have herr : { { g with starting := some botId } with starting := none } = g := hidle
  refine Safe.noting_bind trivial (fun running m => ?_) fun _ _ => hidle
  cases running with
  | true => rfl
  | false =>
    refine Safe.noting_bind trivial (fun bot m => ?_) fun _ _ => herr
    simp only [Progress.after]
    split
    next message hc =>
      rw [hc]
      exact herr
    next config hc =>
      rw [hc]
      refine Safe.noting_bind trivial (fun _ m => ?_) fun _ _ => herr
      refine Safe.noting_bind trivial (fun _ m => ?_) fun _ _ => herr
      refine Safe.noting_bind trivial (fun _ m => ?_) fun _ _ => herr
      refine Safe.noting_bind rfl (fun child m => ?_) fun _ _ => herr
      refine Safe.noting_bind trivial (fun _ m => ?_) fun _ _ => herr
      refine Safe.noting_request trivial fun x m => ?_
      cases x with
      | ok => exact herr
      | error => exact herr

theorem Progress.Free.error {g : Progress} (h : g.Free) :
    Progress.Free { g with starting := none } :=
  ⟨h.1, rfl⟩

theorem restartTimer_progress (botId : BotId) (attempt : Nat) {g : Progress} (hg : g.Free) :
    Safe progressContract (fun _ t => t.2.Free) (restartTimer botId attempt) ((), g) := by
  refine Safe.noting_bind hg (fun _ m => ?_) fun _ _ => hg.error
  refine Safe.bind (Q := fun _ t => t.2 = g) ?_ ?_ ?_
  · refine Safe.orUndefined (Safe.noting_request trivial fun x m => ?_)
    cases x with
    | ok => rfl
    | error => exact Progress.idle_eq hg.2
  swap
  · rintro _ ⟨_, _⟩ rfl
    exact hg
  rintro desired ⟨_, _⟩ rfl
  refine Safe.noting_bind trivial (fun stopping m => ?_) fun _ _ => hg.error
  split
  next =>
    refine Safe.tryCatch (startBot_progress botId hg.2) (fun _ _ ht => ht ▸ hg) ?_
    rintro error ⟨_, _⟩ rfl
    exact (failBot_progress botId error hg.2).mono fun _ _ ht => ht ▸ hg
  next => exact hg

theorem Progress.Handles.error {g : Progress} (h : g.Handles c) :
    Progress.Handles { g with starting := none } c := ⟨h.1, rfl, h.2.2⟩

theorem awaitStopped_progress (child : Option ChildId) (closePosition : Bool) {g : Progress}
    (hg : g.Handles c) (ht : g.taken = some child) (he : g.exited = false)
    (hc : closePosition = true ↔ c.command = .emergencyStop) :
    Safe progressContract (Ends (fun clean t => t.2.Handles c ∧ (clean = true → t.2.Clean))
      fun t => t.2.Handles c) (awaitStopped child closePosition) ((), g) := by
  cases child with
  | none => exact ⟨hg, fun _ => .inl ht⟩
  | some child =>
    refine Safe.noting_bind ⟨c, hg, ht, hc⟩ (fun _ m => ?_) fun _ _ => hg.error
    refine Safe.noting_request ⟨ht, he⟩ fun x m => ?_
    cases x with
    | ok exited => exact ⟨hg, fun he => .inr ⟨child, ht, he⟩⟩
    | error => exact hg.error

theorem stopBot_progress (botId : BotId) (closePosition : Bool) {g : Progress} (hg : g.Handles c)
    (hb : c.botId = botId) (hc : closePosition = true ↔ c.command = .emergencyStop) :
    Safe progressContract (Ends (fun _ t => t.2.Handles c ∧ t.2.Clean) fun t => t.2.Handles c)
      (stopBot botId closePosition) ((), g) := by
  refine Safe.noting_bind ⟨c, hg, hb⟩ (fun child m => ?_) fun _ _ => hg.error
  refine Safe.bind (awaitStopped_progress child closePosition ⟨hg.1, hg.2.1, hg.2.2⟩ rfl rfl hc) ?_
    fun _ _ h => h
  rintro clean ⟨_, g'⟩ ⟨hg', hclean⟩
  split
  next ht =>
    refine Safe.noting_bind trivial (fun _ m => ?_) fun _ _ => hg'.error
    refine Safe.noting_request trivial fun x m => ?_
    cases x with
    | ok => exact ⟨hg', hclean ht⟩
    | error => exact hg'.error
  next =>
    refine Safe.noting_bind trivial (fun _ m => ?_) fun _ _ => hg'.error
    refine Safe.bind (failBot_progress botId _ hg'.2.1) ?_ ?_
    · rintro _ ⟨_, _⟩ rfl
      exact hg'
    · rintro _ ⟨_, _⟩ rfl
      exact hg'

theorem suspendBot_progress (botId : BotId) (child : Option ChildId) {g : Progress} (hg : g.Free) :
    Safe progressContract (fun _ t => t.2.Free) (suspendBot botId child) ((), g) := by
  have hrest : Safe progressContract (fun _ t => t.2.Free)
      (do request (.flushRuntimeLogs botId); request (.updateSuspended botId)) ((), g) := by
    refine Safe.noting_bind trivial (fun _ _ => ?_) fun _ _ => hg.error
    refine Safe.noting_request trivial fun x _ => ?_
    cases x with
    | ok => exact hg
    | error => exact hg.error
  cases child with
  | none => exact hrest
  | some child => exact Safe.noting_bind trivial (fun _ _ => hrest) fun _ _ => hg.error

theorem deleteRows_progress (botId : BotId) (staged : Bool) {g : Progress}
    (hg : g.command = some c) (hs : g.starting = none) (hstaged : g.staged = staged)
    (hb : c.botId = botId) (hc : c.command = .delete) :
    Safe progressContract (Ends (fun _ t => t.2.command = some c ∧ t.2.starting = none ∧
      t.2.staged = staged ∧ t.2.deleted = true) fun t => t.2.Handles c)
      (deleteRows botId staged) ((), g) := by
  refine Safe.tryCatch (Q := Ends (fun _ t => t.2.command = some c ∧ t.2.starting = none ∧
      t.2.staged = staged ∧ t.2.deleted = true) fun t => t.2 = g) ?_ (fun _ _ h => h) ?_
  · refine Safe.noting_request ⟨c, hg, hb, hc⟩ fun x m => ?_
    cases x with
    | ok => exact ⟨hg, hs, hstaged, rfl⟩
    | error => exact Progress.idle_eq hs
  rintro error ⟨_, _⟩ rfl
  cases staged with
  | true =>
    refine Safe.bind (Q := fun _ t => t.2.Handles c) ?_ (fun _ _ h => h) fun _ _ h => h
    refine Safe.orUndefined (Safe.noting_request ⟨hstaged, c, hg, hb, hc⟩ fun x m => ?_)
    cases x with
    | ok => exact ⟨hg, hs, rfl⟩
    | error => exact ⟨hg, hs, rfl⟩
  | false => exact ⟨hg, hs, hstaged⟩

theorem deleteStaged_progress (botId : BotId) {g : Progress} (hg : g.Handles c)
    (hb : c.botId = botId) (hc : c.command = .delete) :
    Safe progressContract (Ends (fun _ t => t.2.Handles c ∧ t.2.deleted = true)
      fun t => t.2.Handles c) (deleteStaged botId) ((), g) := by
  refine Safe.noting_bind ⟨c, hg, hb, hc⟩ (fun staged m => ?_) fun _ _ => hg.error
  refine Safe.bind (deleteRows_progress botId staged hg.1 hg.2.1 rfl hb hc) ?_ fun _ _ h => h
  rintro _ ⟨_, g'⟩ ⟨hcommand, hstarting, hstaged, hdeleted⟩
  cases staged with
  | true =>
    refine Safe.bind (Q := fun _ t => t.2.Handles c ∧ t.2.deleted = true) ?_ ?_ ?_
    · refine Safe.orUndefined (Safe.noting_request ⟨hstaged, c, hcommand, hb, hc⟩ fun x m => ?_)
      cases x with
      | ok => exact ⟨⟨hcommand, hstarting, rfl⟩, hdeleted⟩
      | error => exact ⟨⟨hcommand, hstarting, rfl⟩, hdeleted⟩
    · exact fun _ _ h => h
    · exact fun _ _ h => h.1
  | false => exact ⟨⟨hcommand, hstarting, hstaged⟩, hdeleted⟩

theorem deleteData_progress (botId : BotId) {g : Progress} (hg : g.Handles c) (hb : c.botId = botId)
    (hc : c.command = .delete) :
    Safe progressContract (Ends (fun _ t => t.2.Handles c ∧ t.2.deleted = true)
      fun t => t.2.Handles c) (deleteData botId) ((), g) := by
  refine Safe.noting_bind trivial (fun _ m => ?_) fun _ _ => hg.error
  refine Safe.noting_bind trivial (fun _ m => ?_) fun _ _ => hg.error
  refine Safe.noting_bind trivial (fun databaseExists m => ?_) fun _ _ => hg.error
  dsimp only
  split
  next =>
    exact Safe.noting_bind trivial (fun _ m => deleteStaged_progress botId hg hb hc)
      fun _ _ => hg.error
  next => exact deleteStaged_progress botId hg hb hc

/-- `deleteBot` deletes the rows and has nothing staged, or fails. -/
theorem deleteBot_progress (botId : BotId) {g : Progress} (hg : g.Handles c) (hb : c.botId = botId)
    (hc : c.command = .delete) :
    Safe progressContract (Ends (fun _ t => t.2.Handles c ∧ t.2.deleted = true)
      fun t => t.2.Handles c) (deleteBot botId) ((), g) := by
  refine Safe.noting_bind trivial (fun running m => ?_) fun _ _ => hg.error
  split
  next =>
    have hsuspend : false = true ↔ c.command = .emergencyStop := by rw [hc]; decide
    refine Safe.bind (stopBot_progress botId false hg hb hsuspend) ?_ fun _ _ h => h
    rintro _ ⟨_, g'⟩ ⟨hg', _⟩
    exact deleteData_progress botId hg' hb hc
  next => exact deleteData_progress botId hg hb hc

theorem perform_progress {g : Progress} (hg : g.Handles c) :
    Safe progressContract (Ends (fun _ t => t.2.Handles c ∧ t.2.Accomplished c.command)
      fun t => t.2.Handles c) (perform c.botId c.command) ((), g) := by
  cases hc : c.command with
  | delete =>
    refine (deleteBot_progress c.botId hg rfl hc).mono fun x t ht => ?_
    cases x with
    | ok => exact ⟨ht.1, ht.2, ht.1.2.2⟩
    | error => exact ht
  | stop => exact stopBot_progress c.botId false hg rfl (by rw [hc]; decide)
  | emergencyStop => exact stopBot_progress c.botId true hg rfl (by rw [hc]; decide)
  | restart =>
    refine Safe.bind (stopBot_progress c.botId false hg rfl (by rw [hc]; decide)) ?_ fun _ _ h => h
    rintro _ ⟨_, g'⟩ ⟨hg', _⟩
    refine (startBot_progress c.botId hg'.2.1).mono fun x t ht => ?_
    cases x with
    | ok => exact ⟨ht ▸ hg', trivial⟩
    | error => exact ends_error.mpr (ht ▸ hg')
  | start =>
    refine (startBot_progress c.botId hg.2.1).mono fun x t ht => ?_
    cases x with
    | ok => exact ⟨ht ▸ hg, trivial⟩
    | error => exact ends_error.mpr (ht ▸ hg)

theorem handleCommand_progress {g : Progress} (hg : g.Handles c) :
    Safe progressContract (fun _ t => t.2.Free) (handleCommand c) ((), g) := by
  refine Safe.tryCatch (Q := Ends (fun _ t => t.2.Free) fun t => t.2.Handles c) ?_ ?_ ?_
  · refine Safe.noting_bind ⟨c, hg, rfl, rfl⟩ (fun _ m => ?_) fun _ _ => hg.error
    refine Safe.bind (perform_progress hg) ?_ fun _ _ h => h
    rintro _ ⟨_, g'⟩ ⟨hg', hdone⟩
    refine Safe.noting_request ⟨c, hg', rfl, hdone⟩ fun x m => ?_
    cases x with
    | ok => exact ⟨rfl, hg'.2.1⟩
    | error => exact hg'.error
  · exact fun _ _ ht => ht
  · rintro message ⟨_, g'⟩ hg'
    have hfree : Progress.Free { g' with command := none } := ⟨rfl, hg'.2.1⟩
    refine Safe.noting_bind ⟨c, hg', rfl⟩ (fun _ m => ?_) fun _ _ => hfree
    exact (failBot_progress c.botId message hfree.2).mono fun _ _ ht => ht ▸ hfree

theorem startDesired_progress (l : List BotId) {g : Progress} (hg : g.Free) :
    Safe progressContract (fun _ t => t.2.Free) (startDesired l) ((), g) := by
  induction l generalizing g with
  | nil => exact hg
  | cons botId rest ih =>
    refine Safe.noting_bind trivial (fun started m => ?_) fun _ _ => hg.error
    dsimp only
    split
    next =>
      refine Safe.bind (Q := fun _ t => t.2 = g) ?_ ?_ fun _ _ ht => ht ▸ hg
      · refine Safe.tryCatch (startBot_progress botId hg.2) (fun _ _ h => h) ?_
        rintro error ⟨_, _⟩ rfl
        exact failBot_progress botId error hg.2
      · rintro _ ⟨_, _⟩ rfl
        exact ih hg
    next => exact ih hg

theorem reconcile_progress {g : Progress} (hg : g.Free) :
    Safe progressContract (fun _ t => t.2.Free) reconcile ((), g) :=
  Safe.noting_bind trivial (fun _ _ => Safe.noting_bind trivial
    (fun desired _ => startDesired_progress desired hg) fun _ _ => hg.error) fun _ _ => hg.error

theorem handleCommands_progress (rounds : Nat) {g : Progress} (hg : g.Free) :
    Safe progressContract (fun _ t => t.2.Free) (handleCommands rounds) ((), g) := by
  induction rounds generalizing g with
  | zero => trivial
  | succ rounds ih =>
    -- the end of a round
    have hrest : ∀ {g : Progress}, g.Free → Safe progressContract (fun _ t => t.2.Free)
        (do
          let running ← request .hasProcesses
          if running then request .heartbeat
          handleCommands rounds) ((), g) := by
      intro g hg
      refine Safe.noting_bind trivial (fun running m => ?_) fun _ _ => hg.error
      dsimp only
      split
      next => exact Safe.noting_bind trivial (fun _ _ => ih hg) fun _ _ => hg.error
      next => exact ih hg
    refine Safe.noting_bind trivial (fun stopping m => ?_) fun _ _ => hg.error
    split
    next => exact hg
    next =>
      refine Safe.noting_bind hg (fun command m => ?_) fun _ _ => hg.error
      cases command with
      | some command =>
        refine Safe.bind (handleCommand_progress ⟨rfl, rfl, rfl⟩) ?_ fun _ _ ht => ht
        rintro _ ⟨_, g'⟩ hg'
        exact hrest hg'
      | none =>
        have hidle : Progress.Free { command := none } := ⟨rfl, rfl⟩
        exact Safe.noting_bind hidle (fun _ m => hrest hidle) fun _ _ => hidle

theorem runLeader_progress (bound : Nat) {g : Progress} (hg : g.Free) :
    Safe progressContract (fun _ t => t.2.Free) (runLeader bound) ((), g) := by
  refine Safe.noting_bind trivial (fun _ m => ?_) fun _ _ => hg.error
  refine Safe.bind (reconcile_progress hg) ?_ fun _ _ ht => ht
  rintro _ ⟨_, g'⟩ hg'
  refine Safe.bind (handleCommands_progress bound hg') ?_ fun _ _ ht => ht
  rintro _ ⟨_, g''⟩ hg''
  refine Safe.noting_bind trivial (fun suspended m => ?_) fun _ _ => hg''.error
  refine Safe.noting_bind trivial (fun _ m => ?_) fun _ _ => hg''.error
  refine Safe.noting_bind trivial (fun _ m => ?_) fun _ _ => hg''.error
  refine Safe.noting_bind trivial (fun _ m => ?_) fun _ _ => hg''.error
  refine Safe.noting_request trivial fun x m => ?_
  cases x with
  | ok => exact hg''
  | error => exact hg''.error

theorem main_progress (bound rounds : Nat) {g : Progress} (hg : g.Free) :
    Safe progressContract (fun _ t => t.2.Free) (main bound rounds) ((), g) := by
  induction rounds generalizing g with
  | zero => trivial
  | succ rounds ih =>
    have hrest : ∀ {g : Progress}, g.Free → Safe progressContract (fun _ t => t.2.Free)
        (do
          let stopping ← request .isStopping
          if !stopping then request (.sleep 5000)
          main bound rounds) ((), g) := by
      intro g hg
      refine Safe.noting_bind trivial (fun stopping m => ?_) fun _ _ => hg.error
      dsimp only
      split
      next => exact Safe.noting_bind hg (fun _ _ => ih hg) fun _ _ => hg.error
      next => exact ih hg
    refine Safe.noting_bind trivial (fun stopping m => ?_) fun _ _ => hg.error
    split
    next =>
      refine Safe.noting_request trivial fun x _ => ?_
      cases x with
      | ok => exact hg
      | error => exact hg.error
    next =>
      refine Safe.noting_bind trivial (fun _ m => ?_) fun _ _ => hg.error
      refine Safe.noting_bind trivial (fun locked m => ?_) fun _ _ => hg.error
      dsimp only
      split
      next =>
        refine Safe.bind (runLeader_progress bound hg) ?_ fun _ _ ht => ht
        rintro _ ⟨_, g'⟩ hg'
        exact hrest hg'
      next => exact hrest hg

/-! ## The tasks of a run -/

def Task.progress (t : Task) : Progress := t.history.foldr (fun e g => g.after e.1 e.2) {}

/-- The task goes on as its history allows. -/
def Task.Follows (t : Task) : Prop :=
  Safe progressContract (fun _ t => t.2.Free) t.program ((), t.progress)

theorem Task.Follows.allowed {t : Task} (h : t.Follows) (hr : t.pending = some r) :
    Progress.Allowed r t.progress := by
  obtain ⟨program, history⟩ := t
  obtain ⟨k, rfl⟩ := Program.eq_await hr
  exact Safe.noting_pending h

/-- A task that has just been started. -/
theorem Spawned.follows {p : Prog Unit} (h : Spawned bound p) : Task.Follows ⟨p, []⟩ := by
  have hfree : Progress.Free {} := ⟨rfl, rfl⟩
  cases h with
  | main => exact main_progress bound bound hfree
  | failBot => exact (failBot_progress _ _ rfl).mono fun _ _ ht => ht ▸ hfree
  | markRunning =>
    refine Safe.noting_request trivial fun x _ => ?_
    cases x with
    | ok => exact hfree
    | error => exact hfree
  | restartTimer => exact restartTimer_progress _ _ hfree
  | suspendBot => exact suspendBot_progress _ _ hfree

def System.Follows (s : System) : Prop := ∀ i, ∀ t ∈ (s.instances i).tasks, t.Follows

theorem System.Follows.step {s s' : System} (h : s.Follows) (hstep : s.step bound e = some s') :
    s'.Follows := by
  intro i t ht
  cases System.task_step hstep ht with
  | kept _ ht => exact h i t ht
  | spawned hp => exact hp.follows
  | served _ hn _ => exact Safe.noting_served (h i _ (List.mem_of_getElem? hn)) _

/-- A system in which no worker has been started. -/
structure System.Fresh (s : System) : Prop where
  instances : s.instances = fun _ => {}
  workers : s.workers = []
  children : s.children = []

theorem System.Fresh.empty : System.Fresh {} := ⟨rfl, rfl, rfl⟩

theorem System.Fresh.follows {s : System} (h : s.Fresh) : s.Follows := by
  intro i t ht
  rw [h.instances] at ht
  cases ht

/-- The workers that have been started are known. -/
def System.Listed (s : System) : Prop := ∀ i, (s.instances i).life ≠ .unborn → i ∈ s.workers

theorem System.Fresh.listed {s : System} (h : s.Fresh) : s.Listed := by
  intro i hi
  rw [h.instances] at hi
  exact absurd rfl hi

theorem System.Listed.congr {s s' : System} (h : s.Listed) (hw : s'.workers = s.workers)
    (hl : ∀ i, (s'.instances i).life = (s.instances i).life) : s'.Listed := by
  intro i hi
  rw [hl] at hi
  exact hw ▸ h i hi

theorem System.Listed.step {s s' : System} (h : s.Listed) (hstep : s.step bound e = some s') :
    s'.Listed := by
  cases System.step_cases hstep with
  | api hcall =>
    have hc := System.call_called hcall
    exact h.congr hc.workers fun i => by rw [hc.instances]
  | @boot j hl =>
    intro i hi
    by_cases hij : i = j
    · exact hij ▸ List.mem_cons_self
    · rw [System.updateInstance_ne _ _ hij] at hi
      exact List.mem_cons_of_mem _ (h i hi)
  | @serve j n r k history outcome x t hup hn hserve =>
    have hs := serve_serves hserve
    refine h.congr (serve_unchanged hserve).workers fun i => ?_
    by_cases hij : i = j
    · rw [hij, System.updateInstance_self]
      exact hs.life
    · rw [System.updateInstance_ne _ _ hij, hs.others i hij]
  | @disconnect j hl =>
    obtain ⟨lock, heq⟩ := s.unlocked_eq j
    rw [heq]
    exact h
  | @crash j hl =>
    obtain ⟨lock, heq⟩ := s.unlocked_eq j
    rw [heq]
    intro i hi
    by_cases hij : i = j
    · exact h i (by rw [hij, hl]; exact nofun)
    · rw [System.updateInstance_ne _ _ hij] at hi
      exact h i hi
  | other hp => exact h.congr hp.workers hp.life

end Tonatiuh.Supervisor
