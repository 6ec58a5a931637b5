import Mathlib.Data.List.Nodup
import Tonatiuh.Commands.Routes
import Tonatiuh.Transition.Run

/-! Each idempotency key gives at most one command, and the usage of a month is the number of
commands that were accepted in it.

Between the statements of a transaction the other transactions run. What it has read stays true
because of the locks that it holds: no other transaction can insert its key, and none can change the
usage. -/

namespace Tonatiuh.Commands

open Billing (Timestamp Plan Subscription)
open Supervisor (BotId CommandId CommandKind CommandStatus TradingBot)
open Transition

/-! ## Rows -/

/-- The columns of a command that never change. -/
def Command.SameAs (c c' : Command) : Prop :=
  c'.id = c.id ∧ c'.botId = c.botId ∧ c'.command = c.command ∧
    c'.idempotencyKey = c.idempotencyKey ∧ c'.createdAt = c.createdAt

theorem Command.SameAs.refl (c : Command) : c.SameAs c := ⟨rfl, rfl, rfl, rfl, rfl⟩

theorem Command.SameAs.symm {c c' : Command} (h : c.SameAs c') : c'.SameAs c :=
  ⟨h.1.symm, h.2.1.symm, h.2.2.1.symm, h.2.2.2.1.symm, h.2.2.2.2.symm⟩

theorem Command.SameAs.trans {c₁ c₂ c₃ : Command} (h : c₁.SameAs c₂) (h' : c₂.SameAs c₃) :
    c₁.SameAs c₃ :=
  ⟨h'.1.trans h.1, h'.2.1.trans h.2.1, h'.2.2.1.trans h.2.2.1, h'.2.2.2.1.trans h.2.2.2.1,
    h'.2.2.2.2.trans h.2.2.2.2⟩

/-- Is this a START or a RESTART command? -/
def Command.isCounted (c : Command) : Bool := !c.command.isStopping

theorem Database.find_isSome {db : Database} {key : String} :
    (db.find key).isSome ↔ ∃ c ∈ db.commands, c.idempotencyKey = key := by
  simp [Database.find, List.find?_isSome]

theorem Database.mem_of_find {db : Database} {key : String} {c : Command}
    (h : db.find key = some c) : c ∈ db.commands ∧ c.idempotencyKey = key :=
  ⟨List.mem_of_find?_eq_some h, by simpa using List.find?_some h⟩

section
variable (period : Timestamp → Month)

/-- The commands of a month that count. -/
def Database.accepted (db : Database) (m : Month) : Nat :=
  db.commands.countP fun c => c.isCounted && period c.createdAt = m

/-! ## What holds of the transactions -/

/-- What `consumeBotCommand` has written, if the command counts. -/
def Transaction.IsCounted (db : Database) (t : Transaction) (counted : Option Counted) : Prop :=
  counted.isSome = !t.command.isStopping ∧ ∀ c, counted = some c →
    c.quantity = (db.usage (period t.now)).getD 0 + 1 ∧
      c.quantity ≤ (planCatalog (activePlan t.now c.subscription)).monthlyBotCommands

/-- What a transaction relies on. -/
def Transaction.Sound (db : Database) (i : Nat) (t : Transaction) : Prop :=
  match t.stage with
  | .selectBot | .ended _ => True
  | .insertCommand => (db.bots t.botId).isSome
  | .lockUsage row | .selectPlan row | .upsertUsage row _ =>
    (db.bots t.botId).isSome ∧ row = t.row i ∧ t.command.isStopping = false
  | .updateBot row counted | .commit row counted =>
    (db.bots t.botId).isSome ∧ row = t.row i ∧ t.IsCounted period db counted
  | .selectCommand =>
    (db.bots t.botId).isSome ∧ ∃ c ∈ db.commands, c.idempotencyKey = t.idempotencyKey
  | .reply row =>
    (row.idempotencyKey = t.idempotencyKey ∧ row.botId = t.botId ∧ row.command = t.command) ∧
      ∃ c ∈ db.commands, row.SameAs c

/-- The invariant of the system. -/
structure System.Sound (s : System) : Prop where
  keys : HeldOnce Transaction.insertedKey s.transactions
  locks : HeldOnce Transaction.lockedUsage s.transactions
  isNew : ∀ t ∈ s.transactions, ∀ k, t.insertedKey = some k →
    ∀ c ∈ s.db.commands, c.idempotencyKey ≠ k
  transactions : ∀ (i : Nat) (t : Transaction), s.transactions[i]? = some t →
    t.Sound period s.db i
  nodup : (s.db.commands.map (·.idempotencyKey)).Nodup
  writes : s.writes.map (·.idempotencyKey) = s.db.commands.map (·.idempotencyKey)
  usage : ∀ m, (s.db.usage m).getD 0 = s.db.accepted period m
  bots : ∀ c ∈ s.db.commands, (s.db.bots c.botId).isSome

end

variable {period : Timestamp → Month} {db db' : Database} {s s' : System} {t : Transaction}
  {stage : Stage} {i : Nat}

namespace Transaction

theorem IsCounted.mono {counted : Option Counted} (h : t.IsCounted period db counted)
    (husage : counted.isSome → db'.usage (period t.now) = db.usage (period t.now)) :
    t.IsCounted period db' counted := by
  refine ⟨h.1, fun c hc => ?_⟩
  rw [husage (by rw [hc]; rfl)]
  exact h.2 c hc

/-- What other transactions and the worker do leaves a transaction with what it relies on. -/
theorem Sound.mono (h : t.Sound period db i)
    (hbots : ∀ b, (db.bots b).isSome → (db'.bots b).isSome)
    (husage : t.lockedUsage = some () → db'.usage (period t.now) = db.usage (period t.now))
    (hcommands : ∀ c ∈ db.commands, ∃ c' ∈ db'.commands, c.SameAs c') :
    t.Sound period db' i := by
  cases hs : t.stage with
  | selectBot | ended => simp only [Sound, hs]
  | insertCommand =>
    simp only [Sound, hs] at h ⊢
    exact hbots _ h
  | lockUsage | selectPlan | upsertUsage =>
    simp only [Sound, hs] at h ⊢
    exact ⟨hbots _ h.1, h.2⟩
  | updateBot _ counted | commit _ counted =>
    simp only [Sound, hs] at h ⊢
    refine ⟨hbots _ h.1, h.2.1, h.2.2.mono fun hcounted => husage ?_⟩
    obtain ⟨c, rfl⟩ := Option.isSome_iff_exists.mp hcounted
    simp only [lockedUsage, Transaction.counted, hs, Option.map_some]
  | selectCommand =>
    simp only [Sound, hs] at h ⊢
    obtain ⟨hbot, c, hc, hkey⟩ := h
    obtain ⟨c', hc', hsame⟩ := hcommands c hc
    exact ⟨hbots _ hbot, c', hc', hsame.2.2.2.1.trans hkey⟩
  | reply row =>
    simp only [Sound, hs] at h ⊢
    obtain ⟨hrow, c, hc, hsame⟩ := h
    obtain ⟨c', hc', hsame'⟩ := hcommands c hc
    exact ⟨hrow, c', hc', hsame.trans hsame'⟩

theorem begin_stage (botId : BotId) (command : CommandKind) (header : Option String)
    (now : Timestamp) : (begin_ botId command header now).stage = .selectBot ∨
      ∃ answer, (begin_ botId command header now).stage = .ended answer := by
  simp only [begin_]
  split
  · exact .inl rfl
  · exact .inr ⟨_, rfl⟩

end Transaction

/-! ## Statements -/

/-- What the next statement of a transaction can find, and the stage after it. -/
inductive System.Next (s : System) (i : Nat) (t : Transaction) (period : Timestamp → Month) :
    Stage → Prop where
  | locked (hs : t.stage = .selectBot) (hbot : (s.db.bots t.botId).isSome) :
    Next s i t period .insertCommand
  | conflict (hs : t.stage = .insertCommand) (hfind : (s.db.find t.idempotencyKey).isSome) :
    Next s i t period .selectCommand
  | stopping (hs : t.stage = .insertCommand)
    (hfree : isFree Transaction.insertedKey s.transactions i t.idempotencyKey)
    (hnew : ¬(s.db.find t.idempotencyKey).isSome) (hcommand : t.command.isStopping = true) :
    Next s i t period (.updateBot (t.row i) none)
  | counting (hs : t.stage = .insertCommand)
    (hfree : isFree Transaction.insertedKey s.transactions i t.idempotencyKey)
    (hnew : ¬(s.db.find t.idempotencyKey).isSome) (hcommand : t.command.isStopping = false) :
    Next s i t period (.lockUsage (t.row i))
  | usageLocked (hs : t.stage = .lockUsage row)
    (hfree : isFree Transaction.lockedUsage s.transactions i ()) :
    Next s i t period (.selectPlan row)
  | planned (hs : t.stage = .selectPlan row) :
    Next s i t period (.upsertUsage row s.db.subscription)
  | consumed (hs : t.stage = .upsertUsage row subscription)
    (hquantity : quantity = (s.db.usage (period t.now)).getD 0 + 1)
    (hlimit : quantity ≤ (planCatalog (activePlan t.now subscription)).monthlyBotCommands) :
    Next s i t period (.updateBot row (some ⟨subscription, quantity⟩))
  | updated (hs : t.stage = .updateBot row counted) : Next s i t period (.commit row counted)
  | replayed (hs : t.stage = .selectCommand)
    (hfind : s.db.find t.idempotencyKey = some existing) (hbot : existing.botId = t.botId)
    (hcommand : existing.command = t.command) : Next s i t period (.reply existing)
  | ended (answer : Except Failure Command) : Next s i t period (.ended answer)

theorem System.next_cases (h : s.next period i t = some stage) : s.Next i t period stage := by
  cases hs : t.stage with
  | selectBot =>
    simp only [next, hs] at h
    split at h
    · cases h
      split
      next hbot => exact .locked hs hbot
      next => exact .ended _
    · cases h
  | insertCommand =>
    simp only [next, hs] at h
    split at h
    next hfree =>
      cases h
      split
      next hfind => exact .conflict hs hfind
      next hnew =>
        split
        next hcommand => exact .stopping hs hfree hnew hcommand
        next hcommand => exact .counting hs hfree hnew (Bool.eq_false_iff.mpr hcommand)
    next => cases h
  | lockUsage row =>
    simp only [next, hs] at h
    split at h
    next hfree =>
      cases h
      exact .usageLocked hs hfree
    next => cases h
  | selectPlan row =>
    simp only [next, hs, Transaction.requirePlan, Option.some.injEq] at h
    subst h
    split
    · exact .planned hs
    · exact .ended _
  | upsertUsage row subscription =>
    simp only [next, hs, Transaction.consume, Option.some.injEq] at h
    subst h
    split
    next => exact .ended _
    next hlimit => exact .consumed hs rfl (Nat.not_lt.mp hlimit)
  | updateBot row counted =>
    simp only [next, hs, Option.some.injEq] at h
    subst h
    exact .updated hs
  | selectCommand =>
    simp only [next, hs, Option.some.injEq] at h
    subst h
    cases hfind : s.db.find t.idempotencyKey with
    | none => exact .ended _
    | some existing =>
      simp only [Transaction.replay]
      split
      next => exact .ended _
      next hsame =>
        simp only [ne_eq, Bool.or_eq_true, decide_eq_true_eq, not_or, not_not] at hsame
        exact .replayed hs hfind hsame.1 hsame.2
  | commit row counted | reply row =>
    simp only [next, hs, Option.some.injEq] at h
    subst h
    exact .ended _
  | ended answer =>
    simp only [next, hs] at h
    cases h

/-- The next statement leaves a transaction with what it relies on. -/
theorem System.next_sound (ht : t.Sound period s.db i) (h : s.next period i t = some stage) :
    ({ t with stage } : Transaction).Sound period s.db i := by
  cases System.next_cases h with
  | locked _ hbot => exact hbot
  | conflict hs hfind =>
    simp only [Transaction.Sound, hs] at ht
    exact ⟨ht, Database.find_isSome.mp hfind⟩
  | stopping hs _ _ hcommand =>
    simp only [Transaction.Sound, hs] at ht
    exact ⟨ht, rfl, by rw [hcommand]; rfl, fun _ hc => by cases hc⟩
  | counting hs _ _ hcommand =>
    simp only [Transaction.Sound, hs] at ht
    exact ⟨ht, rfl, hcommand⟩
  | usageLocked hs | planned hs =>
    simp only [Transaction.Sound, hs] at ht
    exact ht
  | consumed hs hquantity hlimit =>
    simp only [Transaction.Sound, hs] at ht
    refine ⟨ht.1, ht.2.1, by rw [ht.2.2]; rfl, fun c hc => ?_⟩
    cases hc
    exact ⟨hquantity, hlimit⟩
  | updated hs =>
    simp only [Transaction.Sound, hs] at ht
    exact ht
  | replayed _ hfind hbot hcommand =>
    obtain ⟨hmem, hkey⟩ := Database.mem_of_find hfind
    exact ⟨⟨hkey, hbot, hcommand⟩, _, hmem, .refl _⟩
  | ended => exact trivial

/-- A transaction inserts a key only if no other row has it, committed or not. -/
theorem System.next_insertedKey (h : s.next period i t = some stage) {k : String}
    (hk : ({ t with stage } : Transaction).insertedKey = some k) :
    t.insertedKey = some k ∨ isFree Transaction.insertedKey s.transactions i k ∧
      ∀ c ∈ s.db.commands, c.idempotencyKey ≠ k := by
  cases System.next_cases h with
  | stopping _ hfree hnew | counting _ hfree hnew =>
    have hkey : t.idempotencyKey = k := Option.some.inj hk
    refine .inr ⟨hkey ▸ hfree, fun c hc hc' => hnew ?_⟩
    exact Database.find_isSome.mpr ⟨c, hc, hc'.trans hkey.symm⟩
  | usageLocked hs | planned hs | consumed hs | updated hs =>
    left
    simpa only [Transaction.insertedKey, Transaction.inserted, hs] using hk
  | locked | conflict | replayed | ended => cases hk

/-- A transaction counts its command only if no other transaction counts one. -/
theorem System.next_lockedUsage (h : s.next period i t = some stage)
    (hk : ({ t with stage } : Transaction).lockedUsage = some ()) :
    t.lockedUsage = some () ∨ isFree Transaction.lockedUsage s.transactions i () := by
  cases System.next_cases h with
  | usageLocked _ hfree => exact .inr hfree
  | planned hs | consumed hs =>
    left
    simp only [Transaction.lockedUsage, hs]
  | updated hs =>
    left
    simpa only [Transaction.lockedUsage, Transaction.counted, hs] using hk
  | locked | conflict | stopping | counting | replayed | ended => cases hk

/-! ## Commits -/

/-- A statement that is no COMMIT of a command changes no row. -/
theorem Database.commit_eq (h : ∀ row counted, t.stage ≠ .commit row counted) :
    db.commit period t = db := by
  unfold commit
  split
  next row counted hs => exact absurd hs (h row counted)
  next => rfl

theorem Transaction.writes_eq (h : ∀ row counted, t.stage ≠ .commit row counted) :
    t.writes = [] := by
  unfold writes
  split
  next row counted hs => exact absurd hs (h row counted)
  next => rfl

theorem Database.commit_bots {b : BotId} (h : (db.bots b).isSome) :
    ((db.commit period t).bots b).isSome := by
  unfold commit
  split
  · rcases eq_or_ne b t.botId with rfl | hne
    · simpa using h
    · simpa [Function.update_of_ne hne] using h
  · exact h

theorem Database.commit_commands {c : Command} (h : c ∈ db.commands) :
    c ∈ (db.commit period t).commands := by
  unfold commit
  split
  · exact List.mem_append_left _ h
  · exact h

theorem Database.commit_usage (h : t.lockedUsage = none) :
    (db.commit period t).usage = db.usage := by
  unfold commit
  split
  next row counted hs =>
    simp only [Transaction.lockedUsage, Transaction.counted, hs, Option.map_eq_none_iff] at h
    subst h
    rfl
  next => rfl

/-- A transaction that commits a command: the quantity of its month grows with it. -/
theorem Database.commit_accepted {row : Command} {counted : Option Counted}
    (hs : t.stage = .commit row counted) (ht : t.Sound period db i)
    (hdb : ∀ m, (db.usage m).getD 0 = db.accepted period m) (m : Month) :
    ((db.commit period t).usage m).getD 0 = (db.commit period t).accepted period m := by
  simp only [Transaction.Sound, hs] at ht
  obtain ⟨-, rfl, hcounted, hquantity⟩ := ht
  have hcounts : (t.row i).isCounted = counted.isSome := by
    rw [hcounted]; rfl
  simp only [commit, hs, accepted, List.countP_append, List.countP_singleton, hcounts]
  cases counted with
  | none => simpa [accepted] using hdb m
  | some c =>
    rcases eq_or_ne m (period t.now) with rfl | hne
    · simp [Transaction.row, (hquantity c rfl).1, hdb, accepted]
    · have hne' : ¬period t.now = m := fun heq => hne heq.symm
      simpa [Transaction.row, Function.update_of_ne hne, hne', accepted] using hdb m

theorem Database.mem_commit {c : Command} (h : c ∈ (db.commit period t).commands) :
    c ∈ db.commands ∨ ∃ counted, t.stage = .commit c counted := by
  unfold commit at h
  split at h
  next row counted hs =>
    rcases List.mem_append.mp h with hold | hnew
    · exact .inl hold
    · obtain rfl := List.mem_singleton.mp hnew
      exact .inr ⟨counted, hs⟩
  next => exact .inl h

/-! ## Steps -/

namespace System

theorem run_cases (h : s.run period i = some s') :
    ∃ t stage, s.transactions[i]? = some t ∧ s.next period i t = some stage ∧
      s' = ⟨s.db.commit period t, s.transactions.set i { t with stage }, s.writes ++ t.writes⟩ := by
  obtain ⟨t, ht, h⟩ := Option.bind_eq_some_iff.mp h
  obtain ⟨stage, hstage, h⟩ := Option.bind_eq_some_iff.mp h
  exact ⟨t, stage, ht, hstage, (Option.some.inj h).symm⟩

theorem next_commit {row : Command} {counted : Option Counted} (hs : t.stage = .commit row counted)
    (h : s.next period i t = some stage) : stage = .ended (.ok row) := by
  simp only [next, hs, Option.some.injEq] at h
  exact h.symm

/-- The transaction `t` has run a statement and comes to `stage`. -/
theorem Sound.run (hi : s.Sound period) (h : s.run period i = some s') : s'.Sound period := by
  obtain ⟨t, stage, ht, hnext, rfl⟩ := run_cases h
  have hsound := hi.transactions i t ht
  have hsound' := next_sound hsound hnext
  -- the COMMIT of a command ends its transaction, and no other statement changes a row
  have hcommit : (∃ row counted, t.stage = .commit row counted ∧ stage = .ended (.ok row)) ∨
      ∀ row counted, t.stage ≠ .commit row counted := by
    cases hs : t.stage with
    | commit row counted => exact .inl ⟨row, counted, rfl, next_commit hs hnext⟩
    | _ => right; intro row counted h; cases h
  exact {
    keys := hi.keys.set ht fun k hk => (next_insertedKey hnext hk).imp_right And.left
    locks := hi.locks.set ht fun _ hk => next_lockedUsage hnext hk
    isNew u hu k hk c hc := by
      obtain ⟨j, hj⟩ := List.mem_iff_getElem?.mp hu
      rcases getElem?_set_cases hj with ⟨rfl, rfl⟩ | ⟨hne, hj⟩
      · rcases hcommit with ⟨row, counted, hs, rfl⟩ | hno
        · cases hk
        · rw [Database.commit_eq hno] at hc
          rcases next_insertedKey hnext hk with hold | ⟨-, hfresh⟩
          · exact hi.isNew t (List.mem_of_getElem? ht) k hold c hc
          · exact hfresh c hc
      · rcases Database.mem_commit hc with hold | ⟨counted, hs⟩
        · exact hi.isNew u (List.mem_of_getElem? hj) k hk c hold
        · rintro rfl
          refine hne (hi.keys j i u t c.idempotencyKey hj ht hk ?_)
          simp only [Transaction.insertedKey, Transaction.inserted, hs, Option.map_some]
    transactions j u hj := by
      rcases getElem?_set_cases hj with ⟨rfl, rfl⟩ | ⟨hne, hj⟩
      · rcases hcommit with ⟨row, counted, hs, rfl⟩ | hno
        · exact trivial
        · rw [Database.commit_eq hno]
          exact hsound'
      · refine (hi.transactions j u hj).mono (fun _ => Database.commit_bots) (fun hlocked => ?_)
          fun c hc => ⟨c, Database.commit_commands hc, .refl c⟩
        rw [Database.commit_usage]
        cases hlock : t.lockedUsage with
        | none => rfl
        | some => exact absurd (hi.locks j i u t () hj ht hlocked hlock) hne
    nodup := by
      rcases hcommit with ⟨row, counted, hs, rfl⟩ | hno
      · simp only [Database.commit, hs, List.map_append, List.map_singleton]
        refine List.nodup_append.mpr ⟨hi.nodup, by simp, ?_⟩
        intro k hk k' hk'
        obtain ⟨c, hc, rfl⟩ := List.mem_map.mp hk
        obtain rfl := List.mem_singleton.mp hk'
        refine hi.isNew t (List.mem_of_getElem? ht) _ ?_ c hc
        simp only [Transaction.insertedKey, Transaction.inserted, hs, Option.map_some]
      · rw [Database.commit_eq hno]
        exact hi.nodup
    writes := by
      rcases hcommit with ⟨row, counted, hs, rfl⟩ | hno
      · simp only [Transaction.Sound, hs] at hsound
        simp only [Database.commit, Transaction.writes, hs, List.map_append, hi.writes,
          List.map_singleton, hsound.2.1, Transaction.row]
      · rw [Database.commit_eq hno, Transaction.writes_eq hno, List.append_nil]
        exact hi.writes
    usage m := by
      rcases hcommit with ⟨row, counted, hs, -⟩ | hno
      · exact Database.commit_accepted hs hsound hi.usage m
      · rw [Database.commit_eq hno]
        exact hi.usage m
    bots c hc := by
      rcases Database.mem_commit hc with hold | ⟨counted, hs⟩
      · exact Database.commit_bots (hi.bots c hold)
      · simp only [Transaction.Sound, hs] at hsound
        obtain ⟨hbot, rfl, -⟩ := hsound
        exact Database.commit_bots hbot }

theorem map_idempotencyKey {f : Command → Command} (hf : ∀ c : Command, c.SameAs (f c))
    {rows : List Command} :
    (rows.map f).map (·.idempotencyKey) = rows.map (·.idempotencyKey) := by
  rw [List.map_map]
  exact List.map_congr_left fun c _ => (hf c).2.2.2.1

/-- A step that leaves every transaction and the identities of the rows alone. -/
theorem Sound.of_rows (hi : s.Sound period) {db : Database}
    (hbots : ∀ b, (s.db.bots b).isSome → (db.bots b).isSome) (husage : db.usage = s.db.usage)
    {f : Command → Command} (hf : ∀ c : Command, c.SameAs (f c))
    (hcommands : db.commands = s.db.commands.map f) :
    System.Sound period { s with db := db } where
  keys := hi.keys
  locks := hi.locks
  isNew u hu k hk c hc := by
    rw [hcommands] at hc
    obtain ⟨c₀, hc₀, rfl⟩ := List.mem_map.mp hc
    rw [(hf c₀).2.2.2.1]
    exact hi.isNew u hu k hk c₀ hc₀
  transactions j u hj := by
    refine (hi.transactions j u hj).mono hbots (fun _ => by rw [husage]) fun c hc => ?_
    exact ⟨f c, hcommands ▸ List.mem_map_of_mem hc, hf c⟩
  nodup := by
    rw [hcommands, map_idempotencyKey hf]
    exact hi.nodup
  writes := by
    rw [hcommands, map_idempotencyKey hf]
    exact hi.writes
  usage m := by
    have hcount (c : Command) : ((f c).isCounted && period (f c).createdAt = m) =
        (c.isCounted && period c.createdAt = m) := by
      rw [Command.isCounted, (hf c).2.2.1, (hf c).2.2.2.2]; rfl
    rw [husage, hi.usage, Database.accepted, Database.accepted, hcommands, List.countP_map]
    exact List.countP_congr fun c _ => by simp only [Function.comp_apply, hcount]
  bots c hc := by
    rw [hcommands] at hc
    obtain ⟨c₀, hc₀, rfl⟩ := List.mem_map.mp hc
    rw [(hf c₀).2.1]
    exact hbots _ (hi.bots c₀ hc₀)

/-- A transaction that holds no lock is added. -/
theorem Sound.concat (hi : s.Sound period) (hkey : t.insertedKey = none)
    (hlock : t.lockedUsage = none) (ht : t.Sound period s.db s.transactions.length) :
    System.Sound period { s with transactions := s.transactions ++ [t] } where
  keys := hi.keys.concat hkey
  locks := hi.locks.concat hlock
  isNew u hu k hk := by
    rcases List.mem_append.mp hu with hold | hnew
    · exact hi.isNew u hold k hk
    · obtain rfl := List.mem_singleton.mp hnew
      rw [hkey] at hk
      cases hk
  transactions j u hj := by
    rcases getElem?_concat_cases hj with ⟨rfl, rfl⟩ | ⟨-, hj⟩
    · exact ht
    · exact hi.transactions j u hj
  nodup := hi.nodup
  writes := hi.writes
  usage := hi.usage
  bots := hi.bots

/-- A transaction ends without a COMMIT. -/
theorem Sound.rollback (hi : s.Sound period) (ht : s.transactions[i]? = some t)
    (answer : Except Failure Command) :
    System.Sound period
      { s with transactions := s.transactions.set i { t with stage := .ended answer } } where
  keys := hi.keys.set ht fun _ hk => by cases hk
  locks := hi.locks.set ht fun _ hk => by cases hk
  isNew u hu k hk := by
    obtain ⟨j, hj⟩ := List.mem_iff_getElem?.mp hu
    rcases getElem?_set_cases hj with ⟨rfl, rfl⟩ | ⟨-, hj⟩
    · cases hk
    · exact hi.isNew u (List.mem_of_getElem? hj) k hk
  transactions j u hj := by
    rcases getElem?_set_cases hj with ⟨rfl, rfl⟩ | ⟨-, hj⟩
    · exact trivial
    · exact hi.transactions j u hj
  nodup := hi.nodup
  writes := hi.writes
  usage := hi.usage
  bots := hi.bots

theorem abort_cases {message : String} (h : s.abort i message = some s') :
    ∃ t, s.transactions[i]? = some t ∧ s' = { s with
      transactions := s.transactions.set i
        { t with stage := .ended (.error (.internal message)) } } := by
  obtain ⟨t, ht, h⟩ := Option.bind_eq_some_iff.mp h
  refine ⟨t, ht, ?_⟩
  split at h
  · cases h
  · exact (Option.some.inj h).symm

/-- The rows of commands with other bots. -/
theorem Sound.of_bots (hi : s.Sound period) {bots : BotId → Option TradingBot}
    (hbots : ∀ b, (s.db.bots b).isSome → (bots b).isSome) :
    System.Sound period { s with db.bots := bots } :=
  hi.of_rows (f := id) hbots rfl .refl (List.map_id _).symm

theorem Sound.step {e : Event} (hi : s.Sound period) (h : s.step period e = some s') :
    s'.Sound period := by
  cases e with
  | request botId command header now =>
    simp only [System.step] at h
    split at h
    · cases h
    · cases h
      rcases Transaction.begin_stage botId command header now with hs | ⟨answer, hs⟩
      all_goals
        refine hi.concat ?_ ?_ ?_
        · simp only [Transaction.insertedKey, Transaction.inserted, hs, Option.map_none]
        · simp only [Transaction.lockedUsage, Transaction.counted, hs, Option.map_none]
        · simp only [Transaction.Sound, hs]
  | run i => exact hi.run h
  | abort i message =>
    obtain ⟨t, ht, rfl⟩ := abort_cases h
    exact hi.rollback ht _
  | createBot botId =>
    simp only [System.step] at h
    split at h
    · cases h
    · cases h
      refine hi.of_bots fun b hb => ?_
      rcases eq_or_ne b botId with rfl | hne
      · simp
      · rwa [Function.update_of_ne hne]
  | updateBot botId bot =>
    simp only [System.step] at h
    split at h
    · cases h
      refine hi.of_bots fun b hb => ?_
      rcases eq_or_ne b botId with rfl | hne
      · simp
      · rwa [Function.update_of_ne hne]
    · cases h
  | updateCommand id status error =>
    cases h
    refine hi.of_rows (fun _ hb => hb) rfl (fun c => ?_) rfl
    split
    · exact ⟨rfl, rfl, rfl, rfl, rfl⟩
    · exact .refl c
  | updateSubscription subscription =>
    cases h
    exact hi.of_rows (f := id) (fun _ hb => hb) rfl .refl (List.map_id _).symm

/-- An organization without commands. -/
structure IsFresh (s : System) : Prop where
  transactions : s.transactions = []
  commands : s.db.commands = []
  usage : ∀ m, s.db.usage m = none
  writes : s.writes = []

theorem IsFresh.sound (h : s.IsFresh) : s.Sound period where
  keys := h.transactions ▸ .nil
  locks := h.transactions ▸ .nil
  isNew t ht := by simp [h.transactions] at ht
  transactions i t ht := by simp [h.transactions] at ht
  nodup := by simp [h.commands]
  writes := by simp [h.commands, h.writes]
  usage m := by simp [h.usage, Database.accepted, h.commands]
  bots c hc := by simp [h.commands] at hc

end System

/-! ## The plan in force -/

/-- The answer of the query of `activePlan`. -/
def Transaction.subscription (t : Transaction) : Option (Option Subscription) :=
  match t.stage with
  | .upsertUsage _ subscription => some subscription
  | .updateBot _ counted | .commit _ counted => counted.map (·.subscription)
  | _ => none

namespace System

theorem next_subscription {subscription : Option Subscription}
    (h : s.next period i t = some stage)
    (hk : ({ t with stage } : Transaction).subscription = some subscription) :
    t.subscription = some subscription ∨
      (∃ row, t.stage = .selectPlan row) ∧ s.db.subscription = subscription := by
  cases next_cases h with
  | planned hs => exact .inr ⟨⟨_, hs⟩, Option.some.inj hk⟩
  | consumed hs | updated hs =>
    left
    rw [Transaction.subscription, hs]
    exact hk
  | locked | conflict | stopping | counting | usageLocked | replayed | ended => cases hk

/-- A transaction that has asked for the subscription did so before, or does so in this step. -/
theorem step_subscription {e : Event} {u : Transaction} {subscription : Option Subscription}
    (h : s.step period e = some s') (hu : s'.transactions[i]? = some u)
    (hk : u.subscription = some subscription) :
    ∃ t, s.transactions[i]? = some t ∧ u = { t with stage := u.stage } ∧
      (t.subscription = some subscription ∨
        (∃ row, t.stage = .selectPlan row) ∧ s.db.subscription = subscription) := by
  have hold {l : List Transaction} (hl : l[i]? = some u) : ∃ t, l[i]? = some t ∧
      u = { t with stage := u.stage } ∧ (t.subscription = some subscription ∨
        (∃ row, t.stage = .selectPlan row) ∧ s.db.subscription = subscription) :=
    ⟨u, hl, rfl, .inl hk⟩
  cases e with
  | request botId command header now =>
    simp only [step] at h
    split at h
    · cases h
    · cases h
      rcases getElem?_concat_cases hu with ⟨-, rfl⟩ | ⟨-, hu⟩
      · rcases Transaction.begin_stage botId command header now with hs | ⟨answer, hs⟩
        · rw [Transaction.subscription, hs] at hk
          cases hk
        · rw [Transaction.subscription, hs] at hk
          cases hk
      · exact hold hu
  | run j =>
    obtain ⟨t, stage, ht, hnext, rfl⟩ := run_cases h
    rcases getElem?_set_cases hu with ⟨rfl, rfl⟩ | ⟨-, hu⟩
    · exact ⟨t, ht, rfl, next_subscription hnext hk⟩
    · exact hold hu
  | abort j message =>
    obtain ⟨t, ht, rfl⟩ := abort_cases h
    rcases getElem?_set_cases hu with ⟨rfl, rfl⟩ | ⟨-, hu⟩
    · cases hk
    · exact hold hu
  | createBot botId =>
    simp only [step] at h
    split at h
    · cases h
    · cases h
      exact hold hu
  | updateBot botId bot =>
    simp only [step] at h
    split at h
    · cases h
      exact hold hu
    · cases h
  | updateCommand id status error =>
    cases h
    exact hold hu
  | updateSubscription subscription =>
    cases h
    exact hold hu

end System

/-- Between the states `start` and `s` transaction `i` has asked for this subscription. -/
def Asked (period : Timestamp → Month) (start s : System) (i : Nat) (t : Transaction)
    (subscription : Option Subscription) : Prop :=
  ∃ es₁ es₂ s₁ row, Run (Stepping (System.step period)) start es₁ s₁ ∧
    Run (Stepping (System.step period)) s₁ es₂ s ∧
    s₁.transactions[i]? = some { t with stage := .selectPlan row } ∧
    s₁.db.subscription = subscription

theorem asked {start : System} {subscription : Option Subscription}
    (hstart : start.transactions = []) (h : Run (Stepping (System.step period)) start es s)
    (ht : s.transactions[i]? = some t) (hk : t.subscription = some subscription) :
    Asked period start s i t subscription := by
  let I (s : System) : Prop := (∃ es, Run (Stepping (System.step period)) start es s) ∧
    ∀ i t subscription, s.transactions[i]? = some t → t.subscription = some subscription →
      Asked period start s i t subscription
  have hI : I s := by
    refine h.invariant (I := I) (fun s e s' hi hstep => ⟨?_, ?_⟩) ⟨⟨_, .nil⟩, ?_⟩
    · obtain ⟨es, hrun⟩ := hi.1
      exact ⟨_, hrun.snoc hstep⟩
    · intro i u subscription hu hk
      obtain ⟨t, ht, hut, hold | ⟨⟨row, hrow⟩, hsub⟩⟩ := System.step_subscription hstep hu hk
      · obtain ⟨es₁, es₂, s₁, row, h₁, h₂, hs₁, hsub⟩ := hi.2 i t _ ht hold
        exact ⟨es₁, _, s₁, row, h₁, h₂.snoc hstep, by rw [hut]; exact hs₁, hsub⟩
      · obtain ⟨es, hrun⟩ := hi.1
        refine ⟨es, _, s, row, hrun, .single hstep, ?_, hsub⟩
        rw [hut, ht, ← hrow]
    · intro i t subscription ht
      simp [hstart] at ht
  exact hI.2 i t subscription ht hk

/-! ## Idempotent requests -/

/-- The steps of the requests. -/
def Event.isRequest : Event → Bool
  | .request .. | .run _ | .abort .. => true
  | _ => false

/-- In this step the command of request `i` is accepted. -/
structure Accepts (period : Timestamp → Month) (start s : System) (i : Nat) (t : Transaction)
    (s' : System) : Prop where
  isNew : ∀ c ∈ s.db.commands, c.idempotencyKey ≠ t.idempotencyKey
  answer : s'.transactions[i]? = some { t with stage := .ended (.ok (t.row i)) }
  commands : s'.db.commands = s.db.commands ++ [t.row i]
  bots : s'.db.bots = Function.update s.db.bots t.botId ((s.db.bots t.botId).map fun bot =>
    { bot with desiredState := t.command.desiredState, actualState := t.command.actualState })
  writes : s'.writes = s.writes ++
    [⟨t.idempotencyKey, t.botId, t.command.desiredState, t.command.actualState⟩]
  usage : s'.db.usage = if t.command.isStopping then s.db.usage else
    Function.update s.db.usage (period t.now) (some ((s.db.usage (period t.now)).getD 0 + 1))
  limit : t.command.isStopping = false → ∃ subscription, Asked period start s i t subscription ∧
    (s'.db.usage (period t.now)).getD 0 ≤
      (planCatalog (activePlan t.now subscription)).monthlyBotCommands

/-- What the next step of a system may do. -/
structure Serves (period : Timestamp → Month) (start s : System) (e : Event) (s' : System) :
    Prop where
  /-- The requests change something only when a command is accepted. -/
  changes : e.isRequest → (s'.db = s.db ∧ s'.writes = s.writes) ∨
    ∃ i t, e = .run i ∧ s.transactions[i]? = some t ∧ Accepts period start s i t s'
  /-- A request that fails changes nothing. -/
  failure : ∀ (i : Nat) (t : Transaction) error, s'.transactions[i]? = some t →
    t.stage = .ended (.error error) → s.transactions[i]? ≠ some t →
    s'.db = s.db ∧ s'.writes = s.writes
  /-- A replay is answered with the original command. -/
  replay : ∀ (i : Nat) (t : Transaction) (c : Command), e = .run i → s.transactions[i]? = some t →
    c ∈ s.db.commands → c.idempotencyKey = t.idempotencyKey →
    c.botId = t.botId → c.command = t.command →
    s'.db = s.db ∧ s'.writes = s.writes ∧ ∀ answer,
      s'.transactions[i]? = some { t with stage := .ended answer } →
        ∃ c', answer = .ok c' ∧ c.SameAs c'
  /-- A key that was used for another bot or command fails. -/
  conflict : ∀ (i : Nat) (t : Transaction) (c : Command), e = .run i →
    s.transactions[i]? = some t → c ∈ s.db.commands → c.idempotencyKey = t.idempotencyKey →
    c.botId ≠ t.botId ∨ c.command ≠ t.command →
    s'.db = s.db ∧ s'.writes = s.writes ∧ ∀ answer,
      s'.transactions[i]? = some { t with stage := .ended answer } → ∃ error, answer = .error error

/-- Each key has given at most one command and one change of a bot, and the usage of a month is the
number of the commands that were accepted in it. -/
structure System.Idempotent (period : Timestamp → Month) (s : System) : Prop where
  commands : (s.db.commands.map (·.idempotencyKey)).Nodup
  writes : (s.writes.map (·.idempotencyKey)).Nodup
  usage : ∀ m, (s.db.usage m).getD 0 = s.db.accepted period m

section
variable {start : System} {c : Command}

/-- The key of a command is found with that command. -/
theorem Database.find_eq (hdb : (db.commands.map (·.idempotencyKey)).Nodup) (hc : c ∈ db.commands)
    (hkey : c.idempotencyKey = t.idempotencyKey) : db.find t.idempotencyKey = some c := by
  obtain ⟨c', hc'⟩ := Option.isSome_iff_exists.mp (Database.find_isSome.mpr ⟨c, hc, hkey⟩)
  obtain ⟨hmem, hkey'⟩ := Database.mem_of_find hc'
  rw [hc', List.inj_on_of_nodup_map hdb hmem hc (hkey'.trans hkey.symm)]

namespace System

/-- No other row has the key that a transaction has inserted. -/
theorem Sound.inserted_ne (hi : s.Sound period) (ht : s.transactions[i]? = some t) {row : Command}
    (hrow : t.inserted = some row) (hc : c ∈ s.db.commands) :
    c.idempotencyKey ≠ t.idempotencyKey := by
  have hsound := hi.transactions i t ht
  have hkey : row = t.row i := by
    cases hs : t.stage with
    | lockUsage | selectPlan | upsertUsage | updateBot | commit =>
      simp only [Transaction.Sound, hs] at hsound
      simp only [Transaction.inserted, hs, Option.some.injEq] at hrow
      exact hrow ▸ hsound.2.1
    | _ =>
      simp only [Transaction.inserted, hs] at hrow
      cases hrow
  refine hi.isNew t (List.mem_of_getElem? ht) t.idempotencyKey ?_ c hc
  rw [Transaction.insertedKey, hrow, hkey]
  rfl

theorem Sound.accepts (hi : s.Sound period) (hstart : start.transactions = [])
    (hrun : Run (Stepping (System.step period)) start es s) (ht : s.transactions[i]? = some t)
    {row : Command} {counted : Option Counted} (hs : t.stage = .commit row counted)
    (h : s.run period i = some s') : Accepts period start s i t s' := by
  obtain ⟨t', stage, ht', hnext, rfl⟩ := run_cases h
  obtain rfl : t = t' := Option.some.inj (ht.symm.trans ht')
  obtain rfl := next_commit hs hnext
  have hsound := hi.transactions i t ht
  simp only [Transaction.Sound, hs] at hsound
  obtain ⟨-, rfl, hcounted, hquantity⟩ := hsound
  have hlt : i < s.transactions.length := (List.getElem?_eq_some_iff.mp ht).1
  have husage : (s.db.commit period t).usage = if t.command.isStopping then s.db.usage else
      Function.update s.db.usage (period t.now)
        (some ((s.db.usage (period t.now)).getD 0 + 1)) := by
    simp only [Database.commit, hs]
    cases counted with
    | none => rw [if_pos (by simpa using hcounted)]
    | some c =>
      rw [if_neg (by simpa using hcounted), ← (hquantity c rfl).1]
  exact {
    isNew c hc := hi.inserted_ne ht (by rw [Transaction.inserted, hs]) hc
    answer := List.getElem?_set_self hlt
    commands := by simp only [Database.commit, hs]
    bots := by simp only [Database.commit, hs]
    writes := by simp only [Transaction.writes, hs]
    usage := husage
    limit hcounts := by
      rw [hcounts, Bool.not_false, Option.isSome_iff_exists] at hcounted
      obtain ⟨c, rfl⟩ := hcounted
      refine ⟨c.subscription, asked hstart hrun ht ?_, ?_⟩
      · simp only [Transaction.subscription, hs, Option.map_some]
      · rw [husage, if_neg (by rw [hcounts]; exact Bool.false_ne_true), Function.update_self,
          Option.getD_some, ← (hquantity c rfl).1]
        exact (hquantity c rfl).2 }

/-- The answer to a request whose key was used before. -/
theorem Sound.answer_existing (hi : s.Sound period) (ht : s.transactions[i]? = some t)
    (hc : c ∈ s.db.commands) (hkey : c.idempotencyKey = t.idempotencyKey)
    {answer : Except Failure Command} (h : s.next period i t = some (.ended answer)) :
    (c.botId = t.botId ∧ c.command = t.command → ∃ c', answer = .ok c' ∧ c.SameAs c') ∧
      (c.botId ≠ t.botId ∨ c.command ≠ t.command → ∃ error, answer = .error error) := by
  have hfind := Database.find_eq hi.nodup hc hkey
  have hsound := hi.transactions i t ht
  have hinserted (row : Command) (hrow : t.inserted = some row) : False :=
    hi.inserted_ne ht hrow hc hkey
  cases hs : t.stage with
  | selectBot =>
    simp only [next, hs] at h
    split at h
    · split at h
      next => cases h
      next hbot =>
        cases h
        refine ⟨fun hsame => absurd (hsame.1 ▸ hi.bots c hc) hbot, fun _ => ⟨_, rfl⟩⟩
    · cases h
  | insertCommand =>
    simp only [next, hs, hfind] at h
    split at h
    · cases h
    · cases h
  | selectCommand =>
    simp only [next, hs, hfind, Transaction.replay, Option.some.injEq] at h
    split at h
    next hne =>
      cases h
      simp only [ne_eq, Bool.or_eq_true, decide_eq_true_eq] at hne
      exact ⟨fun hsame => absurd hsame (by tauto), fun _ => ⟨_, rfl⟩⟩
    next => cases h
  | reply row =>
    simp only [next, hs, Option.some.injEq] at h
    cases h
    simp only [Transaction.Sound, hs] at hsound
    obtain ⟨⟨hrow, hbot, hcommand⟩, c', hc', hsame⟩ := hsound
    obtain rfl : c' = c :=
      List.inj_on_of_nodup_map hi.nodup hc' hc ((hsame.2.2.2.1.trans hrow).trans hkey.symm)
    refine ⟨fun _ => ⟨row, rfl, hsame.symm⟩, fun hne => ?_⟩
    rcases hne with hne | hne
    · exact absurd (hsame.2.1.trans hbot) hne
    · exact absurd (hsame.2.2.1.trans hcommand) hne
  | ended =>
    simp only [next, hs] at h
    cases h
  | lockUsage row | selectPlan row | upsertUsage row | updateBot row | commit row =>
    exact (hinserted row (by rw [Transaction.inserted, hs])).elim

/-- A request whose key was used before changes nothing. -/
theorem Sound.run_existing (hi : s.Sound period) (ht : s.transactions[i]? = some t)
    (hc : c ∈ s.db.commands) (hkey : c.idempotencyKey = t.idempotencyKey)
    (h : s.run period i = some s') :
    s'.db = s.db ∧ s'.writes = s.writes ∧ ∀ answer,
      s'.transactions[i]? = some { t with stage := .ended answer } →
        s.next period i t = some (.ended answer) := by
  obtain ⟨t', stage, ht', hnext, rfl⟩ := run_cases h
  obtain rfl : t = t' := Option.some.inj (ht.symm.trans ht')
  have hno (row : Command) (counted : Option Counted) : t.stage ≠ .commit row counted :=
    fun hs => hi.inserted_ne ht (by rw [Transaction.inserted, hs]) hc hkey
  refine ⟨Database.commit_eq hno, by rw [Transaction.writes_eq hno, List.append_nil], ?_⟩
  intro answer hanswer
  rcases getElem?_set_cases hanswer with ⟨-, heq⟩ | ⟨hne, -⟩
  · rw [hnext]
    exact congrArg some (congrArg Transaction.stage heq).symm
  · exact absurd rfl hne

theorem Sound.run_changes (hi : s.Sound period) (hstart : start.transactions = [])
    (hrun : Run (Stepping (System.step period)) start es s) (h : s.run period i = some s') :
    (s'.db = s.db ∧ s'.writes = s.writes) ∨
      ∃ t, s.transactions[i]? = some t ∧ Accepts period start s i t s' := by
  obtain ⟨t, stage, ht, hnext, hs'⟩ := run_cases h
  cases hs : t.stage with
  | commit row counted => exact .inr ⟨t, ht, hi.accepts hstart hrun ht hs h⟩
  | _ =>
    have hno (row : Command) (counted : Option Counted) : t.stage ≠ .commit row counted := by
      rw [hs]
      intro heq
      cases heq
    rw [hs']
    exact .inl ⟨Database.commit_eq hno, by rw [Transaction.writes_eq hno, List.append_nil]⟩

theorem Sound.serves {e : Event} (hi : s.Sound period) (hstart : start.transactions = [])
    (hrun : Run (Stepping (System.step period)) start es s) (h : s.step period e = some s') :
    Serves period start s e s' where
  changes hrequest := by
    cases e with
    | request botId command header now =>
      simp only [System.step] at h
      split at h
      · cases h
      · cases h
        exact .inl ⟨rfl, rfl⟩
    | run i =>
      rcases hi.run_changes hstart hrun h with hsame | ⟨t, ht, haccepts⟩
      · exact .inl hsame
      · exact .inr ⟨i, t, rfl, ht, haccepts⟩
    | abort i message =>
      obtain ⟨t, -, rfl⟩ := abort_cases h
      exact .inl ⟨rfl, rfl⟩
    | _ => cases hrequest
  failure i u error hu hended hne := by
    cases e with
    | request botId command header now =>
      simp only [System.step] at h
      split at h
      · cases h
      · cases h
        exact ⟨rfl, rfl⟩
    | run j =>
      rcases hi.run_changes hstart hrun h with hsame | ⟨t, ht, haccepts⟩
      · exact hsame
      · obtain ⟨t', stage, ht', hnext, rfl⟩ := run_cases h
        rcases getElem?_set_cases hu with ⟨rfl, rfl⟩ | ⟨-, hold⟩
        · have hanswer := haccepts.answer.symm.trans hu
          have hok := congrArg (Option.map Transaction.stage) hanswer
          rw [Option.map_some, Option.map_some, hended] at hok
          cases hok
        · exact absurd hold hne
    | abort j message =>
      obtain ⟨t, -, rfl⟩ := abort_cases h
      exact ⟨rfl, rfl⟩
    | createBot botId =>
      simp only [System.step] at h
      split at h
      · cases h
      · cases h
        exact absurd hu hne
    | updateBot botId bot =>
      simp only [System.step] at h
      split at h
      · cases h
        exact absurd hu hne
      · cases h
    | updateCommand id status error =>
      cases h
      exact absurd hu hne
    | updateSubscription subscription =>
      cases h
      exact absurd hu hne
  replay i t c he ht hc hkey hbot hcommand := by
    subst he
    obtain ⟨hdb, hwrites, hanswer⟩ := hi.run_existing ht hc hkey h
    refine ⟨hdb, hwrites, fun answer ha => ?_⟩
    exact (hi.answer_existing ht hc hkey (hanswer answer ha)).1 ⟨hbot, hcommand⟩
  conflict i t c he ht hc hkey hne := by
    subst he
    obtain ⟨hdb, hwrites, hanswer⟩ := hi.run_existing ht hc hkey h
    refine ⟨hdb, hwrites, fun answer ha => ?_⟩
    exact (hi.answer_existing ht hc hkey (hanswer answer ha)).2 hne

/-- Whatever the order of the statements of concurrent requests, each idempotency key gives at most
one command, a replay its original, and the quota is used by the accepted commands only. -/
theorem requests_idempotent (hstart : start.IsFresh)
    (h : Run (Stepping (System.step period)) start es s) :
    s.Idempotent period ∧ ∀ e s', s.step period e = some s' → Serves period start s e s' := by
  have hi : s.Sound period := h.invariant (fun _ _ _ hi hstep => hi.step hstep) hstart.sound
  refine ⟨⟨hi.nodup, hi.writes ▸ hi.nodup, hi.usage⟩, fun e s' hstep => ?_⟩
  exact hi.serves hstart.transactions h hstep

/-- A PRO organization with one bot. -/
def proAccount : System where
  db.bots botId := if botId = 0 then some {} else none
  db.subscription :=
    some { plan := .pro, status := .active, currentPeriodEnd := some (Billing.hours 720) }

theorem proAccount_isFresh : proAccount.IsFresh := ⟨rfl, rfl, fun _ => rfl, rfl⟩

/-- Two START requests with one key. The second waits for the bot until the first has committed. -/
def startedTwice : List Event :=
  [.request 0 .start (some "start-0001") 0, .run 0, .request 0 .start (some "start-0001") 1] ++
    List.replicate 6 (.run 0) ++ List.replicate 4 (.run 1)

/-- Months of thirty days. -/
def thirtyDays (t : Timestamp) : Month := t / Billing.hours 720

theorem startedTwice_enabled :
    (exec (System.step thirtyDays) proAccount startedTwice).isSome := by decide +kernel

/-- The second request has been answered with the command of the first. -/
def afterTwoStarts : System :=
  (exec (System.step thirtyDays) proAccount startedTwice).get startedTwice_enabled

theorem requests_idempotent_startedTwice :
    (afterTwoStarts.db.commands.length = 1 ∧ afterTwoStarts.db.usage 0 = some 1) ∧
      afterTwoStarts.Idempotent thirtyDays ∧ ∀ e s', afterTwoStarts.step thirtyDays e = some s' →
        Serves thirtyDays proAccount afterTwoStarts e s' :=
  ⟨by decide +kernel,
    requests_idempotent proAccount_isFresh (Run.of_exec_get startedTwice_enabled)⟩

end System

end

end Tonatiuh.Commands
