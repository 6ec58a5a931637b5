import Mathlib.Algebra.Order.Group.Multiset
import Mathlib.Tactic.Abel
import Tonatiuh.Transition.Run

/-! The buffer of the runtime logs of a bot: `queueRuntimeLog`, `scheduleRuntimeLogFlush` and
`flushRuntimeLogs` of `saas/worker.ts`.

A flush is begun by the timer, or by `stopBot`, `suspendBot`, `deleteBot` and the shutdown, at any
time. It awaits its queries; each is answered in one step. -/

namespace Tonatiuh.Logs

open Transition

/-- What a flush awaits: the insertion of the entries that it has taken, or the deletion of old
rows. -/
inductive Flush (α : Type) where
  | inserting (entries : List α)
  | cleaning
  deriving DecidableEq, Repr

/-- The entries of the bot in the maps of the worker, and what has become of the messages. -/
structure RuntimeLogs (α : Type) where
  buffer : List α := []
  hasTimer : Bool := false
  cleanupAt : Int := 0
  flushes : List (Flush α) := []
  botExists : Bool := true
  queued : List α := []
  persisted : List α := []
  discarded : List α := []
  deriving DecidableEq, Repr

/-- How the insertion ends. When the connection is lost, the rows may have been inserted. -/
inductive InsertOutcome where
  | inserted | rejected | insertedButLost
  deriving DecidableEq, Repr

inductive LogEvent (α : Type) where
  | queue (message : α)
  | timer
  | flush
  | insertion (i : Nat) (outcome : InsertOutcome) (now : Int)
  | cleanup (i : Nat) (succeeds : Bool)
  | deleteBotRow
  deriving DecidableEq, Repr

namespace RuntimeLogs

variable {α : Type}

def scheduleRuntimeLogFlush (s : RuntimeLogs α) : RuntimeLogs α := { s with hasTimer := true }

def queueRuntimeLog (s : RuntimeLogs α) (message : α) : RuntimeLogs α :=
  let s :=
    if 1000 ≤ s.buffer.length then
      { s with buffer := s.buffer.tail, discarded := s.discarded ++ s.buffer.head?.toList }
    else s
  scheduleRuntimeLogFlush
    { s with buffer := s.buffer ++ [message], queued := s.queued ++ [message] }

/-- `flushRuntimeLogs` up to its first `await`. -/
def flushRuntimeLogs (s : RuntimeLogs α) : RuntimeLogs α :=
  let entries := s.buffer.take 100
  let s := { s with hasTimer := false, buffer := s.buffer.drop 100 }
  if entries.isEmpty then s else { s with flushes := s.flushes ++ [.inserting entries] }

/-- The end of a flush without an error. -/
def finishFlush (s : RuntimeLogs α) (i : Nat) : RuntimeLogs α :=
  let s := { s with flushes := s.flushes.eraseIdx i }
  if s.buffer.isEmpty then s else s.scheduleRuntimeLogFlush

/-- The end with an error, which is only logged or passed on. -/
def failFlush (s : RuntimeLogs α) (i : Nat) : RuntimeLogs α :=
  { s with flushes := s.flushes.eraseIdx i }

/-- `INSERT INTO bot_runtime_logs ... FROM trading_bots b ... WHERE b.id=$1`. -/
def insertRows (s : RuntimeLogs α) (entries : List α) : RuntimeLogs α :=
  if s.botExists then { s with persisted := s.persisted ++ entries } else s

def step (s : RuntimeLogs α) : LogEvent α → Option (RuntimeLogs α)
  | .queue message => some (s.queueRuntimeLog message)
  | .timer => if s.hasTimer then some s.flushRuntimeLogs else none
  | .flush => some s.flushRuntimeLogs
  | .insertion i outcome now =>
    match s.flushes[i]? with
    | some (.inserting entries) =>
      match outcome with
      | .inserted =>
        let s := s.insertRows entries
        if s.cleanupAt < now - 60000 then
          some { s with cleanupAt := now, flushes := s.flushes.set i .cleaning }
        else some (s.finishFlush i)
      | .rejected => some (s.failFlush i)
      | .insertedButLost => some ((s.insertRows entries).failFlush i)
    | _ => none
  | .cleanup i succeeds =>
    match s.flushes[i]? with
    | some .cleaning => some (if succeeds then s.finishFlush i else s.failFlush i)
    | _ => none
  | .deleteBotRow => some { s with botExists := false }

/-- What a step does. -/
inductive Steps (s : RuntimeLogs α) : LogEvent α → RuntimeLogs α → Prop where
  | queue (message : α) : Steps s (.queue message) (s.queueRuntimeLog message)
  | timer : s.hasTimer = true → Steps s .timer s.flushRuntimeLogs
  | flush : Steps s .flush s.flushRuntimeLogs
  | inserted : s.flushes[i]? = some (.inserting entries) →
      Steps s (.insertion i .inserted now) ((s.insertRows entries).finishFlush i)
  | cleaning : s.flushes[i]? = some (.inserting entries) → Steps s (.insertion i .inserted now)
      { s.insertRows entries with
        cleanupAt := now, flushes := (s.insertRows entries).flushes.set i .cleaning }
  | rejected : s.flushes[i]? = some (.inserting entries) →
    Steps s (.insertion i .rejected now) (s.failFlush i)
  | insertedButLost : s.flushes[i]? = some (.inserting entries) →
      Steps s (.insertion i .insertedButLost now) ((s.insertRows entries).failFlush i)
  | cleaned : s.flushes[i]? = some .cleaning → Steps s (.cleanup i true) (s.finishFlush i)
  | notCleaned : s.flushes[i]? = some .cleaning → Steps s (.cleanup i false) (s.failFlush i)
  | deleteBotRow : Steps s .deleteBotRow { s with botExists := false }

theorem Steps.of_step {s s' : RuntimeLogs α} {e : LogEvent α} (h : s.step e = some s') :
    Steps s e s' := by
  unfold step at h
  split at h
  next =>
    cases h
    exact .queue _
  next =>
    split at h
    next htimer =>
      cases h
      exact .timer htimer
    next => cases h
  next =>
    cases h
    exact .flush
  next =>
    split at h
    next hi =>
      split at h
      next =>
        dsimp only at h
        split at h
        next =>
          cases h
          exact .cleaning hi
        next =>
          cases h
          exact .inserted hi
      next =>
        cases h
        exact .rejected hi
      next =>
        cases h
        exact .insertedButLost hi
    next => cases h
  next i succeeds =>
    split at h
    next hi =>
      cases h
      cases succeeds with
      | true => exact .cleaned hi
      | false => exact .notCleaned hi
    next => cases h
  next =>
    cases h
    exact .deleteBotRow

end RuntimeLogs

/-! ## What becomes of the messages -/

def Flush.entries {α : Type} : Flush α → List α
  | .inserting entries => entries
  | .cleaning => []

namespace RuntimeLogs

variable {α : Type}

/-- The messages that flushes have taken and are inserting. -/
def writing (s : RuntimeLogs α) : List α := s.flushes.flatMap Flush.entries

/-- Where the messages are. -/
def places (s : RuntimeLogs α) : Multiset α := s.buffer + s.writing + s.persisted + s.discarded

/-- Each queued message is in one place, once. -/
def Accounted (s : RuntimeLogs α) : Prop := s.places = s.queued

/-- While messages wait, a flush is scheduled or running. -/
def Scheduled (s : RuntimeLogs α) : Prop := s.buffer ≠ [] → s.hasTimer = true ∨ s.flushes ≠ []

/-- Nothing is discarded but the message that waits longest, when 1000 wait. -/
def DiscardsOldest (s : RuntimeLogs α) : Prop :=
  s.buffer <:+ s.queued ∧ ∀ e s', s.step e = some s' → s'.discarded = s.discarded ∨
    1000 ≤ s.buffer.length ∧ ∃ oldest ∈ s.buffer.head?, s'.discarded = s.discarded ++ [oldest]

structure Kept (s : RuntimeLogs α) : Prop where
  accounted : s.Accounted
  scheduled : s.Scheduled
  oldest : s.DiscardsOldest

/-- Nothing waits, or it is going to be flushed otherwise than by flush `i`. -/
def IsWatched (s : RuntimeLogs α) (i : Nat) : Prop :=
  s.buffer = [] ∨ s.hasTimer = true ∨ s.flushes.eraseIdx i ≠ []

/-- The rows are inserted, and a flush fails only where nothing waits for it. -/
def Succeeds (s : RuntimeLogs α) : LogEvent α → Prop
  | .insertion i outcome _ =>
    outcome ≠ .rejected ∧ s.botExists = true ∧ (outcome = .insertedButLost → s.IsWatched i)
  | .cleanup i succeeds => succeeds = false → s.IsWatched i
  | _ => True

end RuntimeLogs

/-- The flush that an event ends with an error. -/
def LogEvent.failing {α : Type} : LogEvent α → Option Nat
  | .insertion i outcome _ => if outcome = .inserted then none else some i
  | .cleanup i succeeds => if succeeds then none else some i
  | .queue _ | .timer | .flush | .deleteBotRow => none

namespace RuntimeLogs

variable {α : Type}

/-- What a step loses. -/
def lost (s : RuntimeLogs α) : LogEvent α → List α
  | .insertion i outcome _ =>
    if outcome = .rejected ∨ s.botExists = false then (s.flushes[i]?.map Flush.entries).getD []
    else []
  | .queue _ | .timer | .flush | .cleanup _ _ | .deleteBotRow => []

variable {s s' : RuntimeLogs α} {e : LogEvent α} {i : Nat} {f : Flush α} {entries : List α}

theorem flatMap_entries_eraseIdx {flushes : List (Flush α)} (h : flushes[i]? = some f) :
    (flushes.flatMap Flush.entries : Multiset α) =
      f.entries + (flushes.eraseIdx i).flatMap Flush.entries := by
  obtain ⟨hi, rfl⟩ := List.getElem?_eq_some_iff.mp h
  have hperm := (List.getElem_cons_eraseIdx_perm hi).flatMap_right Flush.entries
  rw [List.flatMap_cons] at hperm
  exact (Multiset.coe_eq_coe.mpr hperm).symm

theorem places_failFlush (h : s.flushes[i]? = some f) :
    s.places = f.entries + (s.failFlush i).places := by
  simp only [places, writing, failFlush, flatMap_entries_eraseIdx h]
  abel

theorem places_finishFlush : (s.finishFlush i).places = (s.failFlush i).places := by
  unfold finishFlush failFlush
  dsimp only
  split <;> rfl

theorem queued_finishFlush : (s.finishFlush i).queued = s.queued := by
  unfold finishFlush
  dsimp only
  split <;> rfl

/-- A flush that goes on to the deletion of old rows holds no messages. -/
theorem places_cleaning (h : s.flushes[i]? = some f) (now : Int) :
    places { s with cleanupAt := now, flushes := s.flushes.set i .cleaning } =
      (s.failFlush i).places := by
  obtain ⟨hi, -⟩ := List.getElem?_eq_some_iff.mp h
  have hset : (s.flushes.set i .cleaning)[i]? = some .cleaning := List.getElem?_set_self hi
  simp only [places, writing, failFlush, flatMap_entries_eraseIdx hset, List.eraseIdx_set_eq,
    Flush.entries, Multiset.coe_nil, zero_add]

/-- The rows of a bot that exists are inserted. -/
theorem places_insertRows (h : s.flushes[i]? = some (.inserting entries)) :
    s.places = ((s.insertRows entries).failFlush i).places +
      (if s.botExists = false then entries else []) := by
  rw [places_failFlush h]
  unfold insertRows
  cases s.botExists with
  | true =>
    simp only [places, writing, failFlush, Flush.entries, if_true, Bool.true_eq_false, if_false,
      ← Multiset.coe_add, Multiset.coe_nil]
    abel
  | false => simp only [Bool.false_eq_true, if_false, if_true, Flush.entries, add_comm]

theorem queued_insertRows (entries : List α) : (s.insertRows entries).queued = s.queued := by
  unfold insertRows
  split <;> rfl

theorem flushes_insertRows (entries : List α) : (s.insertRows entries).flushes = s.flushes := by
  unfold insertRows
  split <;> rfl

theorem places_flushRuntimeLogs : s.flushRuntimeLogs.places = s.places := by
  have hbuffer : (s.buffer : Multiset α) = s.buffer.take 100 + s.buffer.drop 100 := by
    rw [Multiset.coe_add, List.take_append_drop]
  unfold flushRuntimeLogs
  dsimp only
  split
  next h =>
    rw [List.isEmpty_iff.mp h, Multiset.coe_nil, zero_add] at hbuffer
    simp only [places, writing, hbuffer]
  next =>
    simp only [places, writing, List.flatMap_append, List.flatMap_singleton, Flush.entries,
      ← Multiset.coe_add, hbuffer]
    abel

theorem queued_flushRuntimeLogs : s.flushRuntimeLogs.queued = s.queued := by
  unfold flushRuntimeLogs
  dsimp only
  split <;> rfl

theorem places_queueRuntimeLog (message : α) :
    (s.queueRuntimeLog message).places = s.places + [message] := by
  have hbuffer : (s.buffer : Multiset α) = s.buffer.head?.toList + s.buffer.tail := by
    cases s.buffer with
    | nil => rfl
    | cons oldest rest => rfl
  unfold queueRuntimeLog scheduleRuntimeLogFlush
  dsimp only
  split
  next =>
    simp only [places, writing, ← Multiset.coe_add, hbuffer]
    abel
  next =>
    simp only [places, writing, ← Multiset.coe_add]
    abel

theorem queued_queueRuntimeLog (message : α) :
    (s.queueRuntimeLog message).queued = s.queued ++ [message] := by
  unfold queueRuntimeLog scheduleRuntimeLogFlush
  dsimp only
  split <;> rfl

/-- The messages before a step and those that it queues are the messages after it and those that it
loses. -/
theorem places_step (h : s.step e = some s') :
    (s'.queued : Multiset α) + s.places = s.queued + (s'.places + s.lost e) := by
  cases Steps.of_step h with
  | queue message =>
    rw [queued_queueRuntimeLog, places_queueRuntimeLog, lost, Multiset.coe_nil, ← Multiset.coe_add]
    abel
  | timer => rw [queued_flushRuntimeLogs, places_flushRuntimeLogs, lost, Multiset.coe_nil, add_zero]
  | flush => rw [queued_flushRuntimeLogs, places_flushRuntimeLogs, lost, Multiset.coe_nil, add_zero]
  | inserted hi =>
    rw [queued_finishFlush, places_finishFlush, queued_insertRows, places_insertRows hi, lost]
    simp [hi, Flush.entries]
  | cleaning hi =>
    rw [places_insertRows hi, places_cleaning (by rwa [flushes_insertRows]), lost]
    simp [hi, queued_insertRows, Flush.entries]
  | rejected hi =>
    rw [places_failFlush hi, lost]
    simp [hi, Flush.entries, failFlush, add_comm]
  | insertedButLost hi =>
    rw [places_insertRows hi, lost]
    simp [hi, failFlush, queued_insertRows, Flush.entries]
  | cleaned hi =>
    rw [queued_finishFlush, places_finishFlush, places_failFlush hi, lost]
    simp [Flush.entries]
  | notCleaned hi =>
    rw [places_failFlush hi, lost]
    simp [Flush.entries, failFlush]
  | deleteBotRow =>
    rw [lost, Multiset.coe_nil, add_zero]
    rfl

/-- A step keeps the messages exactly if it loses none. -/
theorem accounted_step_iff (hs : s.Accounted) (h : s.step e = some s') :
    s'.Accounted ↔ s.lost e = [] := by
  have hstep := places_step h
  rw [hs, add_comm, add_right_inj] at hstep
  rw [Accounted, hstep]
  constructor
  · intro heq
    exact (Multiset.coe_eq_zero _).mp (left_eq_add.mp heq)
  · intro hlost
    rw [hlost, Multiset.coe_nil, add_zero]

/-! ## Flushes -/

/-- A flush has taken some entries. -/
def Filled (s : RuntimeLogs α) : Prop := ∀ entries, .inserting entries ∈ s.flushes → entries ≠ []

theorem Filled.flushRuntimeLogs (h : s.Filled) : s.flushRuntimeLogs.Filled := by
  unfold RuntimeLogs.flushRuntimeLogs
  dsimp only
  split
  next => exact h
  next hempty =>
    intro entries hmem
    rcases List.mem_append.mp hmem with hmem | hmem
    · exact h entries hmem
    · cases List.mem_singleton.mp hmem
      exact fun hnil => hempty (List.isEmpty_iff.mpr hnil)

theorem Filled.failFlush (h : s.Filled) (i : Nat) : (s.failFlush i).Filled :=
  fun entries hmem => h entries (List.mem_of_mem_eraseIdx hmem)

theorem Filled.insertRows (h : s.Filled) (entries : List α) : (s.insertRows entries).Filled := by
  rwa [Filled, flushes_insertRows]

theorem Filled.finishFlush (h : s.Filled) (i : Nat) : (s.finishFlush i).Filled := by
  unfold RuntimeLogs.finishFlush
  dsimp only
  split
  next => exact h.failFlush i
  next => exact h.failFlush i

theorem Filled.step (h : s.Filled) (hstep : s.step e = some s') : s'.Filled := by
  cases Steps.of_step hstep with
  | queue message =>
    unfold queueRuntimeLog scheduleRuntimeLogFlush
    dsimp only
    split
    next => exact h
    next => exact h
  | timer => exact h.flushRuntimeLogs
  | flush => exact h.flushRuntimeLogs
  | inserted => exact (h.insertRows _).finishFlush _
  | cleaning =>
    intro entries hmem
    rcases List.mem_or_eq_of_mem_set hmem with hmem | heq
    · exact h.insertRows _ entries hmem
    · cases heq
  | rejected => exact h.failFlush _
  | insertedButLost => exact (h.insertRows _).failFlush _
  | cleaned => exact h.finishFlush _
  | notCleaned => exact h.failFlush _
  | deleteBotRow => exact h

theorem scheduled_failFlush_iff : (s.failFlush i).Scheduled ↔ s.IsWatched i := by
  by_cases hbuffer : s.buffer = []
  · exact iff_of_true (fun hne => absurd hbuffer hne) (.inl hbuffer)
  · exact ⟨fun h => .inr (h hbuffer), fun h _ => h.resolve_left hbuffer⟩

theorem scheduled_finishFlush : (s.finishFlush i).Scheduled := by
  unfold finishFlush
  dsimp only
  split
  next h => exact fun hne => absurd (List.isEmpty_iff.mp h) hne
  next => exact fun _ => .inl rfl

theorem scheduled_flushRuntimeLogs : s.flushRuntimeLogs.Scheduled := by
  unfold flushRuntimeLogs
  dsimp only
  split
  next h =>
    intro hne
    have htake : s.buffer.take 100 = [] := List.isEmpty_iff.mp h
    exact absurd (by simpa using htake) fun hbuffer : s.buffer = [] => hne (by rw [hbuffer]; rfl)
  next => exact fun _ => .inr (by simp)

theorem isWatched_insertRows : (s.insertRows entries).IsWatched i ↔ s.IsWatched i := by
  unfold insertRows
  split <;> rfl

/-- After a step, the messages that wait are going to be flushed, unless its flush failed. -/
theorem scheduled_step_iff (hs : s.Scheduled) (h : s.step e = some s') :
    s'.Scheduled ↔ ∀ i ∈ e.failing, s.IsWatched i := by
  cases Steps.of_step h with
  | queue message =>
    refine iff_of_true (fun _ => .inl ?_) (by simp [LogEvent.failing])
    unfold queueRuntimeLog scheduleRuntimeLogFlush
    rfl
  | timer => exact iff_of_true scheduled_flushRuntimeLogs (by simp [LogEvent.failing])
  | flush => exact iff_of_true scheduled_flushRuntimeLogs (by simp [LogEvent.failing])
  | inserted => exact iff_of_true scheduled_finishFlush (by simp [LogEvent.failing])
  | cleaning hi =>
    refine iff_of_true (fun _ => .inr fun hnil => ?_) (by simp [LogEvent.failing])
    have hflushes : s.flushes = [] := by simpa [flushes_insertRows] using hnil
    simp [hflushes] at hi
  | rejected => simp [LogEvent.failing, scheduled_failFlush_iff]
  | insertedButLost => simp [LogEvent.failing, scheduled_failFlush_iff, isWatched_insertRows]
  | cleaned => exact iff_of_true scheduled_finishFlush (by simp [LogEvent.failing])
  | notCleaned => simp [LogEvent.failing, scheduled_failFlush_iff]
  | deleteBotRow => exact iff_of_true hs (by simp [LogEvent.failing])

/-! ## The cap -/

theorem buffer_finishFlush : (s.finishFlush i).buffer = s.buffer := by
  unfold finishFlush
  dsimp only
  split <;> rfl

theorem buffer_insertRows : (s.insertRows entries).buffer = s.buffer := by
  unfold insertRows
  split <;> rfl

theorem buffer_flushRuntimeLogs : s.flushRuntimeLogs.buffer = s.buffer.drop 100 := by
  unfold flushRuntimeLogs
  dsimp only
  split <;> rfl

theorem buffer_queueRuntimeLog (message : α) :
    (s.queueRuntimeLog message).buffer =
      (if 1000 ≤ s.buffer.length then s.buffer.tail else s.buffer) ++ [message] := by
  unfold queueRuntimeLog scheduleRuntimeLogFlush
  dsimp only
  split <;> rfl

theorem suffix_flushRuntimeLogs (hs : s.buffer <:+ s.queued) :
    s.flushRuntimeLogs.buffer <:+ s.flushRuntimeLogs.queued := by
  rw [buffer_flushRuntimeLogs, queued_flushRuntimeLogs]
  exact (List.drop_suffix 100 s.buffer).trans hs

/-- The buffer holds the last messages in their order. -/
theorem suffix_step (hs : s.buffer <:+ s.queued) (h : s.step e = some s') :
    s'.buffer <:+ s'.queued := by
  cases Steps.of_step h with
  | queue message =>
    rw [buffer_queueRuntimeLog, queued_queueRuntimeLog, List.suffix_append_self_iff]
    split
    next => exact (List.tail_suffix s.buffer).trans hs
    next => exact hs
  | timer => exact suffix_flushRuntimeLogs hs
  | flush => exact suffix_flushRuntimeLogs hs
  | inserted => rwa [buffer_finishFlush, queued_finishFlush, buffer_insertRows, queued_insertRows]
  | cleaning => simpa only [buffer_insertRows, queued_insertRows] using hs
  | rejected => exact hs
  | insertedButLost => simpa only [failFlush, buffer_insertRows, queued_insertRows] using hs
  | cleaned => rwa [buffer_finishFlush, queued_finishFlush]
  | notCleaned => exact hs
  | deleteBotRow => exact hs

theorem discarded_flushRuntimeLogs : s.flushRuntimeLogs.discarded = s.discarded := by
  unfold flushRuntimeLogs
  dsimp only
  split <;> rfl

theorem discarded_finishFlush : (s.finishFlush i).discarded = s.discarded := by
  unfold finishFlush
  dsimp only
  split <;> rfl

theorem discarded_insertRows : (s.insertRows entries).discarded = s.discarded := by
  unfold insertRows
  split <;> rfl

theorem discarded_queueRuntimeLog (message : α) : (s.queueRuntimeLog message).discarded =
    if 1000 ≤ s.buffer.length then s.discarded ++ s.buffer.head?.toList else s.discarded := by
  unfold queueRuntimeLog scheduleRuntimeLogFlush
  dsimp only
  split <;> rfl

theorem discarded_step (h : s.step e = some s') : s'.discarded = s.discarded ∨
    1000 ≤ s.buffer.length ∧ ∃ oldest ∈ s.buffer.head?, s'.discarded = s.discarded ++ [oldest] := by
  cases Steps.of_step h with
  | queue message =>
    rw [discarded_queueRuntimeLog]
    split
    next hlength =>
      cases hbuffer : s.buffer with
      | nil => simp [hbuffer] at hlength
      | cons oldest rest => exact .inr ⟨by rwa [← hbuffer], oldest, rfl, rfl⟩
    next => exact .inl rfl
  | timer => exact .inl discarded_flushRuntimeLogs
  | flush => exact .inl discarded_flushRuntimeLogs
  | inserted => exact .inl (by rw [discarded_finishFlush, discarded_insertRows])
  | cleaning => exact .inl discarded_insertRows
  | rejected => exact .inl rfl
  | insertedButLost => exact .inl discarded_insertRows
  | cleaned => exact .inl discarded_finishFlush
  | notCleaned => exact .inl rfl
  | deleteBotRow => exact .inl rfl

theorem DiscardsOldest.step (hs : s.DiscardsOldest) (h : s.step e = some s') : s'.DiscardsOldest :=
  ⟨suffix_step hs.1 h, fun _ _ => discarded_step⟩

/-! ## Runs -/

/-- A step of a filled flush succeeds exactly if it loses nothing and leaves what waits watched. -/
theorem succeeds_iff (hfilled : s.Filled) (h : s.step e = some s') :
    s.Succeeds e ↔ s.lost e = [] ∧ ∀ i ∈ e.failing, s.IsWatched i := by
  have hentries : ∀ {i : Nat} {entries}, s.flushes[i]? = some (.inserting entries) → entries ≠ [] :=
    fun hi => hfilled _ (List.mem_of_getElem? hi)
  cases Steps.of_step h with
  | queue message => simp [Succeeds, lost, LogEvent.failing]
  | timer => simp [Succeeds, lost, LogEvent.failing]
  | flush => simp [Succeeds, lost, LogEvent.failing]
  | inserted hi => simp [Succeeds, lost, LogEvent.failing, hi, Flush.entries, hentries hi]
  | cleaning hi => simp [Succeeds, lost, LogEvent.failing, hi, Flush.entries, hentries hi]
  | rejected hi => simp [Succeeds, lost, LogEvent.failing, hi, Flush.entries, hentries hi]
  | insertedButLost hi => simp [Succeeds, lost, LogEvent.failing, hi, Flush.entries, hentries hi]
  | cleaned => simp [Succeeds, lost, LogEvent.failing]
  | notCleaned => simp [Succeeds, lost, LogEvent.failing]
  | deleteBotRow => simp [Succeeds, lost, LogEvent.failing]

theorem kept_step_iff (hs : s.Kept) (hfilled : s.Filled) (h : s.step e = some s') :
    s'.Kept ↔ s.Succeeds e := by
  rw [succeeds_iff hfilled h, ← accounted_step_iff hs.accounted h,
    ← scheduled_step_iff hs.scheduled h]
  exact ⟨fun h' => ⟨h'.accounted, h'.scheduled⟩, fun ⟨haccounted, hscheduled⟩ =>
    ⟨haccounted, hscheduled, hs.oldest.step h⟩⟩

theorem kept_empty : ({} : RuntimeLogs α).Kept where
  accounted := rfl
  scheduled h := absurd rfl h
  oldest := ⟨List.suffix_refl _, fun _ _ => discarded_step⟩

theorem filled_empty : ({} : RuntimeLogs α).Filled := fun _ hmem => absurd hmem List.not_mem_nil

/-- The messages are kept in every state of a run exactly if every step of it succeeds. -/
theorem runtimeLogs_kept_iff {es : List (LogEvent α)} :
    Run (Meeting (Stepping step) fun _ _ s' => s'.Kept) {} es s ↔
      Run (Meeting (Stepping step) fun s e _ => s.Succeeds e) {} es s := by
  constructor
  · intro h
    exact h.mono_invariant (I := fun s => s.Kept ∧ s.Filled)
      (fun _ _ _ hs ⟨hstep, hkept⟩ => ⟨⟨hstep, (kept_step_iff hs.1 hs.2 hstep).mp hkept⟩, hkept,
        hs.2.step hstep⟩)
      ⟨kept_empty, filled_empty⟩
  · intro h
    refine h.mono_invariant (I := fun s => s.Kept ∧ s.Filled)
      (fun t e t' hs ⟨hstep, hsucceeds⟩ => ?_)
      ⟨kept_empty, filled_empty⟩
    have hkept := (kept_step_iff hs.1 hs.2 hstep).mpr hsucceeds
    exact ⟨⟨hstep, hkept⟩, hkept, hs.2.step hstep⟩

/-- 101 messages, of which the first 100 are inserted in vain. -/
def rejectedInsertion : List (LogEvent Nat) :=
  (List.range 101).map .queue ++ [.timer, .insertion 0 .rejected 0]

/-- The worker loses the 100 messages, and nothing flushes the last one. -/
theorem runtimeLogs_not_kept : ∃ s, Run (Stepping step) ({} : RuntimeLogs Nat) rejectedInsertion s ∧
    ¬ s.Accounted ∧ ¬ s.Scheduled ∧ ¬ s.Kept := by
  have hexec : exec step ({} : RuntimeLogs Nat) rejectedInsertion =
      some { buffer := [100], queued := List.range 101 } := by decide +kernel
  have haccounted : ¬ ({ buffer := [100], queued := List.range 101 } : RuntimeLogs Nat).Accounted :=
    fun h => by simpa [places, writing] using congrArg Multiset.card h
  exact ⟨_, .of_exec hexec, haccounted, fun h => by simpa using h (List.cons_ne_nil 100 []),
    fun h => haccounted h.accounted⟩

end RuntimeLogs

end Tonatiuh.Logs
