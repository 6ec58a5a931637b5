import Tonatiuh.Async.Execution
import Tonatiuh.Supervisor.DesiredState

/-! The deletion of a bot.

`deleteBot` renames the data directory, deletes the rows in a transaction, and gives the directory
its name back when this fails. Whatever else goes on in the meantime leaves the data of the bot
alone here. The row stands for the orders of the bot too, which are deleted in the same
transaction. -/

namespace Tonatiuh.Supervisor

open Async

variable {bound : Nat} {i : InstanceId} {botId : BotId} {s t s₀ : System} {α : Type}

/-! ## One deletion -/

/-- What has been done to the data: the directory has been renamed, the rows are deleted, and the
directory has got its name back. -/
structure Deletion where
  staged : Bool := false
  committed : Bool := false
  unstaged : Bool := false
  deriving DecidableEq, Repr

def Deletion.note (d : Deletion) : (r : Request) → Outcome → Except String r.Answer → Deletion
  | .stage _, _, .ok staged => { d with staged }
  | .deleteRows _, outcome, _ => { d with committed := outcome.committed.isSome }
  | .unstage _, _, .ok _ => { d with unstaged := true }
  | _, _, _ => d

/-- The row of the bot is there or not, as before, and so is the directory under its name. -/
structure SameData (botId : BotId) (s t : System) : Prop where
  row : (t.bot botId).map (·.desiredState) = (s.bot botId).map (·.desiredState)
  directory : (t.directories botId).isPresent = (s.directories botId).isPresent

namespace SameData

theorem refl (s : System) : SameData botId s s := ⟨rfl, rfl⟩

theorem trans {u : System} (h : SameData botId s t) (h' : SameData botId t u) :
    SameData botId s u :=
  ⟨h'.row.trans h.row, h'.directory.trans h.directory⟩

instance (s t : System) : Decidable (SameData botId s t) :=
  decidable_of_iff ((t.bot botId).map (·.desiredState) = (s.bot botId).map (·.desiredState) ∧
    (t.directories botId).isPresent = (s.directories botId).isPresent)
    ⟨fun h => ⟨h.1, h.2⟩, fun h => ⟨h.row, h.directory⟩⟩

end SameData

/-- A request of the task is served, or something else happens. -/
inductive Occurrence where
  | served (outcome : Outcome)
  | other (s : System)

/-- The surroundings of a task of instance `i` that deletes the bot, or that follows this. -/
def deleting (bound : Nat) (i : InstanceId) (botId : BotId) :
    Environment api (System × Deletion) String Occurrence where
  serve w r
    | .served outcome =>
      (w.1.serve bound i r outcome).map fun (x, s) => (x, s, w.2.note r outcome x)
    | .other _ => none
  move w
    | .other s => if SameData botId w.1 s then some (s, w.2) else none
    | .served _ => none

/-- What the next leader begins with. -/
def takeOver : Prog Unit := do
  request .registerExistingSqliteDatabases
  reconcile

/-! ## Contract -/

/-- How far the data are deleted. -/
structure Tracks (botId : BotId) (s₀ s : System) (d : Deletion) : Prop where
  row : (s.bot botId).map (·.desiredState) = if d.committed then none else some .stopped
  directory : (s.directories botId).isPresent =
    if d.staged then d.unstaged else (s₀.directories botId).isPresent
  staged : d.staged → (s₀.directories botId).isPresent
  committed : d.committed → d.staged = false → (s₀.directories botId).isPresent = false

theorem Tracks.same {d : Deletion} (h : Tracks botId s₀ s d) (hs : SameData botId s t) :
    Tracks botId s₀ t d where
  row := hs.row.trans h.row
  directory := hs.directory.trans h.directory
  staged := h.staged
  committed := h.committed

/-- Whatever the task waits for, the data are as `Tracks` says. -/
def deletionContract (bound : Nat) (i : InstanceId) (botId : BotId) (s₀ : System) :
    Contract api Unit (System × Deletion) String where
  rely a b := SameData botId a.2.1 b.2.1 ∧ b.2.2 = a.2.2
  rely_refl _ := ⟨.refl _, rfl⟩
  rely_trans _ _ _ h h' := ⟨h.1.trans h'.1, h'.2.trans h.2⟩
  served r a x b := ∃ outcome, a.2.1.serve bound i r outcome = some (x, b.2.1) ∧
    b.2.2 = a.2.2.note r outcome x
  pending _ a := Tracks botId s₀ a.2.1 a.2.2
  ready _ := True
  pending_ready _ _ _ := trivial

theorem deletionContract_covers :
    (deletionContract bound i botId s₀).Covers (deleting bound i botId) where
  served {w r l x w' m} h := by
    cases l with
    | served outcome =>
      obtain ⟨⟨x', s⟩, hserve, h⟩ := Option.map_eq_some_iff.mp h
      cases h
      exact ⟨outcome, hserve, rfl⟩
    | other s => cases h
  moved {w l w' m} h := by
    cases l with
    | served outcome => cases h
    | other s =>
      simp only [deleting] at h
      split at h
      next hsame =>
        cases h
        exact ⟨hsame, rfl⟩
      next => cases h

/-- The rule of a request. -/
theorem Tracks.request {r : Request} {d : Deletion}
    {Q : Except String r.Answer → Unit × System × Deletion → Prop}
    {m : Unit} (hs : Tracks botId s₀ s d)
    (h : ∀ s' outcome x t, Tracks botId s₀ s' d → s'.serve bound i r outcome = some (x, t) →
      ∀ u, SameData botId t u → Q x ((), u, d.note r outcome x)) :
    Safe (deletionContract bound i botId s₀) Q (Supervisor.request r) (m, s, d) := by
  apply Safe.request
  rintro ⟨_, s', d'⟩ ⟨hsame, rfl⟩
  have hs' := hs.same hsame
  refine ⟨hs', ?_⟩
  rintro x ⟨_, t, _⟩ ⟨outcome, hserve, rfl⟩ ⟨_, u, _⟩ ⟨hu, rfl⟩
  exact ⟨trivial, h s' outcome x t hs' hserve u hu⟩

/-! ## Requests that leave the data alone -/

/-- The request does not begin or end to delete, and does not make the bot one that is to run. -/
def Request.isNeutral (botId : BotId) : Request → Bool
  | .mkdir botId' => botId' ≠ botId
  | .stage _ | .unstage _ | .deleteRows _ => false
  | .updateDesiredState _ desiredState => desiredState = .stopped
  | _ => true

theorem Deletion.note_neutral {r : Request} (hr : r.isNeutral botId) (d : Deletion)
    (outcome : Outcome) (x : Except String r.Answer) : d.note r outcome x = d := by
  cases r with
  | stage | unstage | deleteRows => cases hr
  | _ => rfl

theorem complete_directory {r : Request} {a : r.Answer} {choice : Choice} (hr : r.isNeutral botId)
    (h : s.complete bound i r choice = some (a, t)) :
    (t.directories botId).isPresent = (s.directories botId).isPresent := by
  by_cases hd : r.changesDirectories = false
  · rw [(complete_unchanged h).directories hd]
  cases choice with
  | done =>
    cases r with
    | mkdir botId' =>
      cases h
      have hne : botId ≠ botId' := Ne.symm (of_decide_eq_true hr)
      simp only [System.updateDirectory, Function.update_of_ne hne]
    | rm botId' =>
      cases h
      by_cases hb : botId = botId'
      · subst hb
        simp only [System.updateDirectory, Function.update_self]
      · simp only [System.updateDirectory, Function.update_of_ne hb]
    | stage | unstage => cases hr
    | _ => exact absurd rfl hd
  | _ => cases r <;> first | exact absurd rfl hd | cases h

theorem Tracks.neutral {r : Request} {outcome : Outcome} {x : Except String r.Answer} {d : Deletion}
    (hr : r.isNeutral botId) (hs : Tracks botId s₀ s d)
    (h : s.serve bound i r outcome = some (x, t)) :
    Tracks botId s₀ t d := by
  have hcomplete {a : r.Answer} {choice : Choice} (hc : s.complete bound i r choice = some (a, t)) :
      Tracks botId s₀ t d := by
    refine ⟨?_, (complete_directory hr hc).trans hs.directory, hs.staged, hs.committed⟩
    have hdeletes : r.deletes botId = false := by
      cases r with
      | deleteRows => cases hr
      | _ => rfl
    rw [complete_desiredState hc, hdeletes, if_neg Bool.false_ne_true, ← hs.row]
    cases hstored : r.storedState botId with
    | none => rfl
    | some desired =>
      obtain rfl := Request.eq_of_storedState hstored
      obtain rfl : desired = .stopped := of_decide_eq_true hr
      have hrow := hs.row
      cases hbot : s.bot botId with
      | none => rfl
      | some row =>
        rw [hbot, Option.map_some] at hrow
        split at hrow
        next => cases hrow
        next =>
          rw [Option.map_some, Option.map_some, Option.some.inj hrow]
          rfl
  obtain ⟨_, _, _, _, hc⟩ | ⟨_, _, _, _, rfl⟩ | ⟨_, _, _, _, _, _, hc⟩ := serve_cases h
  · exact hcomplete hc
  · exact hs
  · exact hcomplete hc

/-- The program sends requests that leave the data of the bot alone. -/
abbrev Neutral (botId : BotId) (p : Prog α) : Prop := p.Sends fun (r : Request) => r.isNeutral botId

theorem Tracks.sends {p : Prog α} {d : Deletion} (hp : Neutral botId p) (hs : Tracks botId s₀ s d)
    (m : Unit) :
    Safe (deletionContract bound i botId s₀) (fun _ a => a.2.2 = d ∧ Tracks botId s₀ a.2.1 d) p
      (m, s, d) := by
  induction p generalizing s m with
  | pure | throw => exact ⟨rfl, hs⟩
  | read k ih => exact ih m (hp m) hs m
  | write m₁ k ih => exact ih hp hs m₁
  | await r k ih =>
    rintro ⟨m₁, s', d'⟩ ⟨hsame, rfl⟩
    have hs' := hs.same hsame
    refine ⟨hs', ?_⟩
    rintro x ⟨m₂, t, _⟩ ⟨outcome, hserve, rfl⟩ ⟨m₃, u, _⟩ ⟨hu, rfl⟩
    refine ⟨trivial, ?_⟩
    have hnote : d'.note r outcome x = d' := Deletion.note_neutral hp.1 d' outcome x
    dsimp only
    rw [hnote]
    exact ih x (hp.2 x) ((hs'.neutral hp.1 hserve).same hu) m₃
  | unfinished => trivial

theorem failBot_neutral (botId botId' : BotId) (message : String) :
    Neutral botId (failBot botId' message) :=
  .tryCatch (.request rfl) fun _ => .pure _

theorem stopBot_neutral (botId botId' : BotId) (closePosition : Bool) :
    Neutral botId (stopBot botId' closePosition) := by
  refine .bind (.request rfl) fun child => ?_
  refine .bind ?_ fun clean => ?_
  · cases child with
    | none => exact .pure _
    | some child => exact .bind (.request rfl) fun _ => .request rfl
  split
  next => exact .bind (.request rfl) fun _ => .request rfl
  next =>
    refine .bind (.request rfl) fun _ => ?_
    exact .bind (failBot_neutral botId _ _) fun _ => .throw _

theorem startBot_neutral {botId' : BotId} (hne : botId' ≠ botId) :
    Neutral botId (startBot botId') := by
  refine .bind (.request rfl) fun running => ?_
  split
  next => exact .pure _
  next =>
    refine .bind (.request rfl) fun bot => ?_
    split
    next => exact .throw _
    next config _ =>
      refine .bind (.request (decide_eq_true hne)) fun _ => ?_
      refine .bind (.request rfl) fun _ => ?_
      refine .bind (.request rfl) fun _ => ?_
      refine .bind (.request rfl) fun child => ?_
      exact .bind (.request rfl) fun _ => .request rfl

theorem startDesired_neutral {l : List BotId} (hl : botId ∉ l) :
    Neutral botId (startDesired l) := by
  induction l with
  | nil => exact .pure _
  | cons botId' rest ih =>
    have hne : botId' ≠ botId := fun heq => hl (heq ▸ List.mem_cons_self)
    have hrest := ih fun hmem => hl (List.mem_cons_of_mem _ hmem)
    refine .bind (.request rfl) fun started => ?_
    dsimp only
    split
    next =>
      exact .bind (.tryCatch (startBot_neutral hne) fun error => failBot_neutral botId _ error)
        fun _ => hrest
    next => exact hrest

/-! ## The steps of a deletion -/

/-- The data are as the notes say, however a program ends. -/
def Tracked (botId : BotId) (s₀ : System) : Except String α → Unit × System × Deletion → Prop :=
  fun _ a => Tracks botId s₀ a.2.1 a.2.2

theorem Tracks.bind_neutral {β : Type} {p : Prog α} {f : α → Prog β} {d : Deletion}
    (hp : Neutral botId p) (hs : Tracks botId s₀ s d)
    (hf : ∀ a t, Tracks botId s₀ t d →
      Safe (deletionContract bound i botId s₀) (Tracked botId s₀) (f a) ((), t, d)) :
    Safe (deletionContract bound i botId s₀) (Tracked botId s₀) (p >>= f) ((), s, d) := by
  refine Safe.bind (Tracks.sends hp hs ()) ?_ ?_
  · rintro a ⟨_, t, _⟩ ⟨rfl, ht⟩
    exact hf a t ht
  · rintro error ⟨_, t, _⟩ ⟨rfl, ht⟩
    exact ht

theorem Tracks.end_neutral {p : Prog α} {d : Deletion} (hp : Neutral botId p)
    (hs : Tracks botId s₀ s d) :
    Safe (deletionContract bound i botId s₀) (Tracked botId s₀) p ((), s, d) := by
  refine (Tracks.sends hp hs ()).mono ?_
  rintro x ⟨_, t, _⟩ ⟨rfl, ht⟩
  exact ht

theorem stage_tracks (hs : Tracks botId s₀ s {}) :
    Safe (deletionContract bound i botId s₀)
      (fun x a => Tracks botId s₀ a.2.1 a.2.2 ∧ ∀ staged, x = .ok staged → a.2.2 = { staged } ∧
        (staged = false → (s₀.directories botId).isPresent = false))
      (request (.stage botId)) ((), s, {}) := by
  refine hs.request fun s' outcome x t hs' h u hu => ?_
  have hpresent : (s'.directories botId).isPresent = (s₀.directories botId).isPresent :=
    hs'.directory
  obtain ⟨choice, a, rfl, rfl, hc⟩ | ⟨_, rfl, rfl, -, rfl⟩ | ⟨_, _, _, _, _, htransaction, _⟩ :=
    serve_cases h
  · cases choice with
    | done =>
      simp only [System.complete] at hc
      split at hc
      next hthere =>
        cases hc
        have ht : Tracks botId s₀ (s'.updateDirectory botId fun d => { staged := d.staged + 1 })
            { staged := true } := by
          refine ⟨hs'.row, ?_, fun _ => hpresent ▸ hthere, fun hremoved => by cases hremoved⟩
          simp only [System.updateDirectory, Function.update_self, if_true]
        refine ⟨ht.same hu, ?_⟩
        rintro staged heq
        cases heq
        exact ⟨rfl, fun hstaged => by cases hstaged⟩
      next hnone =>
        cases hc
        refine ⟨hs'.same hu, ?_⟩
        rintro staged heq
        cases heq
        exact ⟨rfl, fun _ => hpresent ▸ Bool.eq_false_iff.mpr hnone⟩
    | _ => cases hc
  · exact ⟨hs'.same hu, fun staged heq => by cases heq⟩
  · cases htransaction

theorem deleteRows_request_tracks {staged : Bool} (hs : Tracks botId s₀ s { staged })
    (habsent : staged = false → (s₀.directories botId).isPresent = false) :
    Safe (deletionContract bound i botId s₀)
      (fun _ a => ∃ committed, a.2.2 = { staged, committed } ∧
        Tracks botId s₀ a.2.1 { staged, committed })
      (request (.deleteRows botId)) ((), s, { staged }) := by
  refine hs.request fun s' outcome x t hs' h u hu => ?_
  have hcommitted {a : Unit} {choice : Choice}
      (hc : s'.complete bound i (.deleteRows botId) choice = some (a, t)) :
      Tracks botId s₀ u { staged, committed := true } := by
    cases choice with
    | done =>
      refine Tracks.same ⟨?_, ?_, hs'.staged, fun _ => habsent⟩ hu
      · rw [complete_desiredState hc, Request.deletes, if_pos (decide_eq_true rfl), if_pos rfl]
      · rw [(complete_unchanged hc).directories rfl]
        exact hs'.directory
    | _ => cases hc
  obtain ⟨choice, a, rfl, rfl, hc⟩ | ⟨_, rfl, rfl, -, rfl⟩ | ⟨choice, _, a, rfl, rfl, -, hc⟩ :=
    serve_cases h
  · exact ⟨true, rfl, hcommitted hc⟩
  · exact ⟨false, rfl, hs'.same hu⟩
  · exact ⟨true, rfl, hcommitted hc⟩

theorem unstage_tracks {committed : Bool} (hs : Tracks botId s₀ s { staged := true, committed }) :
    Safe (deletionContract bound i botId s₀) (Tracked botId s₀) (request (.unstage botId))
      ((), s, { staged := true, committed }) := by
  refine hs.request fun s' outcome x t hs' h u hu => ?_
  obtain ⟨choice, a, rfl, rfl, hc⟩ | ⟨_, rfl, rfl, -, rfl⟩ | ⟨_, _, _, _, _, htransaction, _⟩ :=
    serve_cases h
  · cases choice with
    | done =>
      cases hc
      have ht : Tracks botId s₀
          (s'.updateDirectory botId fun d => { isPresent := true, staged := d.staged - 1 })
          { staged := true, committed, unstaged := true } := by
        refine ⟨hs'.row, ?_, hs'.staged, fun _ => nofun⟩
        simp only [System.updateDirectory, Function.update_self, if_true]
      exact ht.same hu
    | _ => cases hc
  · exact hs'.same hu
  · cases htransaction

theorem deleteRows_tracks {staged : Bool} (hs : Tracks botId s₀ s { staged })
    (habsent : staged = false → (s₀.directories botId).isPresent = false) :
    Safe (deletionContract bound i botId s₀) (Tracked botId s₀) (deleteRows botId staged)
      ((), s, { staged }) := by
  refine Safe.tryCatch (deleteRows_request_tracks hs habsent) ?_ ?_
  · rintro a ⟨_, t, _⟩ ⟨committed, rfl, ht⟩
    exact ht
  · rintro error ⟨_, t, _⟩ ⟨committed, rfl, ht⟩
    cases staged with
    | true =>
      refine Safe.bind (Q := Tracked botId s₀) (Safe.orUndefined ?_) (fun _ _ h => h) fun _ _ h => h
      refine (unstage_tracks ht).mono fun x a ha => ?_
      cases x with
      | ok => exact ha
      | error => exact ha
    | false => exact ht

theorem deleteStaged_tracks (hs : Tracks botId s₀ s {}) :
    Safe (deletionContract bound i botId s₀) (Tracked botId s₀) (deleteStaged botId)
    ((), s, {}) := by
  refine Safe.bind (stage_tracks hs) ?_ fun _ _ h => h.1
  rintro staged ⟨_, t, d⟩ ⟨ht, hstaged⟩
  obtain ⟨rfl, habsent⟩ := hstaged staged rfl
  refine Safe.bind (deleteRows_tracks ht habsent) ?_ fun _ _ h => h
  rintro _ ⟨_, u, d⟩ hu
  split
  next => exact Tracks.end_neutral (.bind (.orUndefined (.request rfl)) fun _ => .pure _) hu
  next => exact hu

theorem deleteBot_tracks (hs : Tracks botId s₀ s {}) :
    Safe (deletionContract bound i botId s₀) (Tracked botId s₀) (deleteBot botId) ((), s, {}) := by
  have hdata {s : System} (hs : Tracks botId s₀ s {}) :
      Safe (deletionContract bound i botId s₀) (Tracked botId s₀) (deleteData botId)
        ((), s, {}) := by
    refine hs.bind_neutral (.request rfl) fun _ t ht => ?_
    refine ht.bind_neutral (.request rfl) fun _ u hu => ?_
    refine hu.bind_neutral (.request rfl) fun databaseExists v hv => ?_
    dsimp only
    split
    next => exact hv.bind_neutral (.request rfl) fun _ w hw => deleteStaged_tracks hw
    next => exact deleteStaged_tracks hv
  refine hs.bind_neutral (.request rfl) fun running t ht => ?_
  split
  next => exact ht.bind_neutral (stopBot_neutral botId botId false) fun _ u hu => hdata hu
  next => exact hdata ht

theorem handleCommand_tracks (hs : Tracks botId s₀ s {}) (id : CommandId) :
    Safe (deletionContract bound i botId s₀) (Tracked botId s₀) (handleCommand ⟨id, botId, .delete⟩)
      ((), s, {}) := by
  refine Safe.tryCatch (Q := Tracked botId s₀) ?_ (fun _ _ h => h) ?_
  · refine hs.bind_neutral (.request rfl) fun _ t ht => ?_
    refine Safe.bind (deleteBot_tracks ht) ?_ fun _ _ h => h
    rintro _ ⟨_, u, d⟩ hu
    exact Tracks.end_neutral (.request rfl) hu
  · rintro message ⟨_, t, d⟩ ht
    exact Tracks.end_neutral (.bind (.request rfl) fun _ => failBot_neutral botId _ _) ht

/-- The next leader starts the bots that are to run, and this one is not. -/
theorem takeOver_tracks {d : Deletion} (hs : Tracks botId s₀ s d) :
    Safe (deletionContract bound i botId s₀) (Tracked botId s₀) takeOver ((), s, d) := by
  refine hs.bind_neutral (.request rfl) fun _ t ht => ?_
  refine ht.bind_neutral (.request rfl) fun _ u hu => ?_
  refine Safe.bind
    (Q := fun x a => a.2.2 = d ∧ Tracks botId s₀ a.2.1 d ∧ ∀ l, x = .ok l → botId ∉ l)
    (hu.request fun s' outcome x t hs' h v hv => ?_) ?_ ?_
  · refine ⟨rfl, (hs'.neutral rfl h).same hv, ?_⟩
    rintro l rfl hmem
    obtain ⟨choice, a, rfl, heq, hc⟩ | ⟨_, _, heq, _⟩ | ⟨_, _, _, _, heq, _⟩ := serve_cases h
    · cases heq
      cases choice with
      | done =>
        cases hc
        obtain ⟨-, hrunning⟩ := List.mem_filter.mp hmem
        obtain ⟨row, hrow, hrunning⟩ := (Option.any_eq_true _ _).mp hrunning
        have hstopped := hs'.row
        rw [hrow, Option.map_some, of_decide_eq_true hrunning] at hstopped
        split at hstopped
        all_goals cases hstopped
      | _ => cases hc
    · cases heq
    · cases heq
  · rintro l ⟨_, v, _⟩ ⟨rfl, hv, hl⟩
    exact Tracks.end_neutral (startDesired_neutral (hl l rfl)) hv
  · rintro error ⟨_, v, _⟩ ⟨rfl, hv, -⟩
    exact hv

/-! ## Atomicity -/

/-- The row and the directory of the bot are as they were, or neither is there under its name. -/
def Atomic (botId : BotId) (s s' : System) : Prop :=
  ((s'.bot botId).isSome ∧ (s'.directories botId).isPresent = (s.directories botId).isPresent) ∨
    (s'.bot botId = none ∧ (s'.directories botId).isPresent = false)

instance (s s' : System) : Decidable (Atomic botId s s') := inferInstanceAs (Decidable (_ ∨ _))

theorem Tracks.atomic_iff {d : Deletion} (h : Tracks botId s₀ s d) :
    Atomic botId s₀ s ↔ (d.staged → d.committed ≠ d.unstaged) := by
  obtain ⟨staged, committed, unstaged⟩ := d
  have hrow := h.row
  have hdirectory := h.directory
  have hstaged := h.staged
  have hcommitted := h.committed
  have hnone : s.bot botId = none ↔ committed = true := by
    rw [← Option.map_eq_none_iff (f := fun row : TradingBot => row.desiredState), hrow]
    cases committed <;> simp
  have hsome : (s.bot botId).isSome ↔ committed = false := by
    rw [Option.isSome_iff_ne_none, ne_eq, hnone, Bool.not_eq_true]
  rw [Atomic, hnone, hsome, hdirectory]
  cases staged with
  | false =>
    cases committed with
    | false => simp
    | true => simp [hcommitted rfl rfl]
  | true => cases committed <;> cases unstaged <;> simp [hstaged rfl]

/-- A stopped bot with a data directory. -/
def deletable : System where
  bots := [some {}]
  directories _ := { isPresent := true }

def succeeds (count : Nat) : List Occurrence := List.replicate count (.served (.ok .done))

/-- The directory is renamed. -/
def renamed : List Occurrence := succeeds 4 ++ [.served (.ok (.found true))] ++ succeeds 2

theorem renamed_deleted :
    ((handleCommand ⟨0, 0, .delete⟩).ends (deleting 4 0 0) () (deletable, {})
      (renamed ++ succeeds 3)).isSome := by
  decide +kernel

theorem renamed_takenOver :
    (takeOver.ends (deleting 4 1 0) () (Option.get _ renamed_deleted).2.2 (succeeds 3)).isSome := by
  decide +kernel

/-- The rows are deleted, but this is reported as failed, and the directory gets its name back. -/
theorem deletion_lost : ∃ s d,
    Returns (deleting 4 0 0) (handleCommand ⟨0, 0, .delete⟩) ((), deletable, {})
        (renamed ++ [.served (.lost .done "Connection terminated")] ++ succeeds 3) (.ok ())
        ((), s, d) ∧
      s.bot 0 = none ∧ (s.directories 0).isPresent ∧ ¬ Atomic 0 deletable s :=
  ⟨_, _, .of_ends_get (by decide +kernel), by decide +kernel, by decide +kernel, by decide +kernel⟩

end Tonatiuh.Supervisor
