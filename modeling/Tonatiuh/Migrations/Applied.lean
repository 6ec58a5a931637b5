import Mathlib.Data.List.Nodup
import Tonatiuh.Migrations.Runner
import Tonatiuh.Transition.Run

/-! Every migration is applied once.

The names in `schema_migrations` are those of the files whose effects the schema has, in this order,
whatever number of migrators run at the same time, fail or crash. Where all of them have the same
directory, these files are the first ones of it. -/

namespace Tonatiuh.Migrations

open Transition

variable {Content Schema : Type} {execute : Content → Schema → Option Schema}
  {db db' : Database Schema}
  {m : Migrator Content Schema} {stage : Stage Content Schema} {s s' : System Content Schema}
  {e : Event Content}

/-! ## Directories -/

theorem Directory.sorted_perm (directory : Directory Content) :
    directory.sorted.Perm (directory.files.filter fun file => sqlSuffix <:+ file.name) :=
  List.perm_insertionSort ..

theorem Directory.sorted_nodup (directory : Directory Content) :
    (directory.sorted.map File.name).Nodup :=
  (directory.sorted_perm.map _).nodup_iff.mpr (directory.nodup.sublist (List.filter_sublist.map _))

theorem Directory.sorted_pairwise (directory : Directory Content) :
    directory.sorted.Pairwise fun a b => a.name < b.name := by
  have : Std.Total fun a b : File Content => a.name ≤ b.name := ⟨fun a b => le_total a.name b.name⟩
  have : IsTrans _ fun a b : File Content => a.name ≤ b.name := ⟨fun _ _ _ => le_trans⟩
  have hle : directory.sorted.Pairwise fun a b => a.name ≤ b.name := List.pairwise_insertionSort _ _
  have hne := List.pairwise_map.mp directory.sorted_nodup
  exact (hle.and hne).imp fun h => lt_of_le_of_ne h.1 h.2

/-! ## Migrators -/

namespace Stage

/-- The files that the loop has not finished, once it has begun, and until the migrator fails. -/
def remaining : Stage Content Schema → Option (List (File Content))
  | .select rest => some rest
  | .begin file rest | .execute file rest | .insert file rest _ | .commit file rest _ =>
    some (file :: rest)
  | .unlock false | .ended false => some []
  | .lock | .createTable | .readDirectory | .rollback | .unlock true | .ended true => none

/-- The file that is being applied. -/
def file : Stage Content Schema → Option (File Content)
  | .begin file _ | .execute file _ | .insert file _ _ | .commit file _ _ => some file
  | _ => none

/-- What has been written and not committed. -/
def written : Stage Content Schema → Option (File Content × Schema)
  | .insert file _ schema | .commit file _ schema => some (file, schema)
  | _ => none

end Stage

structure Stage.Sound (execute : Content → Schema → Option Schema) (db : Database Schema)
    (directory : Directory Content) (stage : Stage Content Schema) : Prop where
  passed : ∀ rest, stage.remaining = some rest →
    ∃ done, directory.sorted = done ++ rest ∧ ∀ file ∈ done, file.name ∈ db.names
  missing : ∀ file, stage.file = some file → file.name ∉ db.names
  written : ∀ file schema, stage.written = some (file, schema) →
    execute file.content db.schema = some schema

/-- A migrator that does not hold the lock does not depend on what the others do. -/
theorem Stage.Sound.mono {directory : Directory Content} (h : stage.Sound execute db directory)
    (hlock : stage.isLocked = false) (hsub : db.names ⊆ db'.names) :
    stage.Sound execute db' directory := by
  cases stage with
  | lock => exact ⟨fun _ h => (by cases h), fun _ h => (by cases h), fun _ _ h => by cases h⟩
  | ended isFailed =>
    refine ⟨fun rest hrest => ?_, fun _ h => (by cases h), fun _ _ h => by cases h⟩
    obtain ⟨done, hdone, hmem⟩ := h.passed rest hrest
    exact ⟨done, hdone, fun file hfile => hsub (hmem file hfile)⟩
  | _ => cases hlock

theorem Stage.Sound.of_none {directory : Directory Content} (hremaining : stage.remaining = none)
    (hfile : stage.file = none) (hwritten : stage.written = none) :
    stage.Sound execute db directory where
  passed rest h := by rw [hremaining] at h; cases h
  missing file h := by rw [hfile] at h; cases h
  written file schema h := by rw [hwritten] at h; cases h

/-- The files that are recorded, in the order in which they were applied to the first schema. -/
structure Database.Holds (execute : Content → Schema → Option Schema) (initial : Schema)
    (db : Database Schema) (files : List (File Content)) : Prop where
  names : db.names = files.map File.name
  nodup : (files.map File.name).Nodup
  schema : files.foldlM (fun schema file => execute file.content schema) initial = some db.schema

theorem Database.Holds.commit {initial schema : Schema} {files : List (File Content)}
    {file : File Content} (h : db.Holds execute initial files) (hmissing : file.name ∉ db.names)
    (hexecute : execute file.content db.schema = some schema) :
    (db.commit file schema).Holds execute initial (files ++ [file]) where
  names := by
    rw [List.map_append, ← h.names]
    rfl
  nodup := by
    rw [h.names] at hmissing
    rw [List.map_append, List.map_singleton, ← List.concat_eq_append]
    exact h.nodup.concat hmissing
  schema := by
    rw [List.foldlM_append, h.schema]
    exact (bind_pure _).trans hexecute

theorem Database.names_commit {file : File Content} {schema : Schema} :
    (db.commit file schema).names = db.names ++ [file.name] := rfl

/-- What a step of a migrator does to the database. -/
inductive Database.Changes (db : Database Schema) (stage : Stage Content Schema) :
    Database Schema → Prop where
  | refl : db.Changes stage db
  | createTable : db.Changes stage { db with applied := some db.names }
  | commit {schema : Schema} (h : stage = .commit file rest schema) :
    db.Changes stage (db.commit file schema)

theorem Database.Changes.subset (h : db.Changes stage db') : db.names ⊆ db'.names := by
  cases h with
  | refl | createTable => exact fun _ => id
  | commit => exact List.subset_append_left _ _

theorem Migrator.next_sound {stage' : Stage Content Schema}
    (h : m.stage.Sound execute db m.directory) (hnext : m.next execute db = some (stage', db')) :
    stage'.Sound execute db' m.directory ∧ db.Changes m.stage db' := by
  rw [next] at hnext
  split at hnext
  next => cases hnext
  next => cases hnext
  next => cases hnext; exact ⟨.of_none rfl rfl rfl, .createTable⟩
  next =>
    cases hnext
    refine ⟨⟨fun rest hrest => ?_, fun _ h => (by cases h), fun _ _ h => by cases h⟩, .refl⟩
    cases hrest
    exact ⟨[], rfl, fun _ h => absurd h List.not_mem_nil⟩
  next hstage =>
    cases hnext
    rw [hstage] at h
    exact ⟨⟨h.passed, fun _ h => (by cases h), fun _ _ h => by cases h⟩, .refl⟩
  next file rest hstage =>
    cases hnext
    rw [hstage] at h
    refine ⟨?_, .refl⟩
    split
    next hmem =>
      obtain ⟨done, hdone, hdb⟩ := h.passed _ rfl
      refine ⟨fun rest' hrest => ?_, fun _ h => (by cases h), fun _ _ h => by cases h⟩
      cases hrest
      refine ⟨done ++ [file], by rw [hdone, List.append_assoc]; rfl, fun f hf => ?_⟩
      rcases List.mem_append.mp hf with hf | hf
      · exact hdb f hf
      · rw [List.mem_singleton.mp hf]; exact hmem
    next hnot =>
      refine ⟨h.passed, fun f hf => ?_, fun _ _ h => by cases h⟩
      cases hf
      exact hnot
  next hstage =>
    cases hnext
    rw [hstage] at h
    exact ⟨⟨h.passed, h.missing, fun _ _ h => by cases h⟩, .refl⟩
  next hstage =>
    rw [hstage] at h
    split at hnext
    next => cases hnext; exact ⟨.of_none rfl rfl rfl, .refl⟩
    next hexecute =>
      cases hnext
      refine ⟨⟨h.passed, h.missing, fun f sch hwritten => ?_⟩, .refl⟩
      cases hwritten
      exact hexecute
  next hstage =>
    cases hnext
    rw [hstage] at h
    rw [if_neg (h.missing _ rfl)]
    exact ⟨⟨h.passed, h.missing, h.written⟩, .refl⟩
  next file rest schema hstage =>
    cases hnext
    rw [hstage] at h ⊢
    refine ⟨⟨fun rest' hrest => ?_, fun _ h => (by cases h), fun _ _ h => by cases h⟩, .commit rfl⟩
    cases hrest
    obtain ⟨done, hdone, hdb⟩ := h.passed _ rfl
    refine ⟨done ++ [file], by rw [hdone, List.append_assoc]; rfl, fun f hf => ?_⟩
    rw [Database.names_commit]
    rcases List.mem_append.mp hf with hf | hf
    · exact List.mem_append_left _ (hdb f hf)
    · rw [List.mem_singleton.mp hf]; exact List.mem_append_right _ List.mem_cons_self
  next => cases hnext; exact ⟨.of_none rfl rfl rfl, .refl⟩
  next isFailed hstage =>
    cases hnext
    rw [hstage] at h
    refine ⟨⟨?_, fun _ h => (by cases h), fun _ _ h => by cases h⟩, .refl⟩
    cases isFailed with
    | true => exact fun _ h => by cases h
    | false => exact h.passed

theorem Stage.Sound.failed {stage' : Stage Content Schema} {directory : Directory Content}
    (h : stage.Sound execute db directory) (hfailed : stage.failed = some stage') :
    stage'.Sound execute db directory ∧ (stage'.isLocked = true → stage.isLocked = true) := by
  cases stage with
  | lock => cases hfailed; exact ⟨.of_none rfl rfl rfl, fun h => by cases h⟩
  | createTable | readDirectory | select | begin | execute | insert | commit | rollback =>
    cases hfailed; exact ⟨.of_none rfl rfl rfl, fun _ => rfl⟩
  | unlock isFailed =>
    cases hfailed
    refine ⟨⟨?_, fun _ h => (by cases h), fun _ _ h => by cases h⟩, fun h => by cases h⟩
    cases isFailed with
    | true => exact fun _ h => by cases h
    | false => exact h.passed
  | ended => cases hfailed

theorem Stage.lost_changes {isCommitted : Bool} (h : stage.lost db isCommitted = some db') :
    db.Changes stage db' := by
  cases stage with
  | ended => cases h
  | commit =>
    cases h
    cases isCommitted with
    | true => exact .commit rfl
    | false => exact .refl
  | _ => cases h; exact .refl

/-! ## Systems -/

structure System.Sound (execute : Content → Schema → Option Schema) (s : System Content Schema) :
    Prop where
  locks : HeldOnce Migrator.lock s.migrators
  migrators : ∀ m ∈ s.migrators, m.stage.Sound execute s.database m.directory

/-- A migrator has made a step. -/
structure System.Moves (execute : Content → Schema → Option Schema)
    (s : System Content Schema) (i : Nat)
    (m : Migrator Content Schema) (stage : Stage Content Schema) (db : Database Schema) : Prop where
  getElem : s.migrators[i]? = some m
  changes : s.database.Changes m.stage db
  sound : stage.Sound execute db m.directory
  lock : stage.isLocked = true →
    m.stage.isLocked = true ∨ isFree Migrator.lock s.migrators i () = true

namespace System

theorem Sound.step_cases (h : s.Sound execute) (hstep : s.step execute e = some s') :
    (∃ directory, e = .start directory ∧ s' =
      { s with migrators := s.migrators ++ [{ directory }] }) ∨
      ∃ i m stage db, s.Moves execute i m stage db ∧ s' =
        { s.setStage i m stage with database := db } := by
  cases e with
  | start directory => cases hstep; exact .inl ⟨directory, rfl, rfl⟩
  | run i =>
    obtain ⟨m, hm, hstep⟩ := Option.bind_eq_some_iff.mp hstep
    have hsound := h.migrators m (List.mem_of_getElem? hm)
    split at hstep
    next hstage =>
      split at hstep
      next hfree =>
        cases hstep
        exact .inr ⟨i, m, _, _, ⟨hm, .refl, .of_none rfl rfl rfl, fun _ => .inr hfree⟩, rfl⟩
      next => cases hstep
    next hne =>
      obtain ⟨⟨stage, db⟩, hnext, rfl⟩ := Option.map_eq_some_iff.mp hstep
      obtain ⟨hsound', hchanges⟩ := Migrator.next_sound hsound hnext
      refine .inr ⟨i, m, stage, db, ⟨hm, hchanges, hsound', fun _ => .inl ?_⟩, rfl⟩
      cases hstage : m.stage with
      | lock => exact absurd hstage hne
      | ended => rw [Migrator.next, hstage] at hnext; cases hnext
      | _ => rfl
  | fail i =>
    obtain ⟨m, hm, hstep⟩ := Option.bind_eq_some_iff.mp hstep
    obtain ⟨stage, hfailed, rfl⟩ := Option.map_eq_some_iff.mp hstep
    obtain ⟨hsound, hlock⟩ := (h.migrators m (List.mem_of_getElem? hm)).failed hfailed
    exact .inr ⟨i, m, stage, s.database, ⟨hm, .refl, hsound, fun h => .inl (hlock h)⟩, rfl⟩
  | crash i isCommitted =>
    obtain ⟨m, hm, hstep⟩ := Option.bind_eq_some_iff.mp hstep
    obtain ⟨db, hlost, rfl⟩ := Option.map_eq_some_iff.mp hstep
    exact .inr ⟨i, m, _, db, ⟨hm, Stage.lost_changes hlost, .of_none rfl rfl rfl,
      fun h => by cases h⟩, rfl⟩

/-- What another migrator holds true while one with the lock changes the database. -/
theorem Moves.others {i j : Nat} {m m' : Migrator Content Schema} (h : s.Sound execute)
    (hmoves : s.Moves execute i m stage db) (hm' : s.migrators[j]? = some m') (hne : j ≠ i) :
    m'.stage.Sound execute db m'.directory := by
  have hsound := h.migrators m' (List.mem_of_getElem? hm')
  cases hmoves.changes with
  | refl => exact hsound
  | createTable => exact ⟨hsound.passed, hsound.missing, hsound.written⟩
  | commit hstage =>
    refine hsound.mono ?_ (List.subset_append_left _ _)
    by_contra hlocked
    refine hne (h.locks j i m' m () hm' hmoves.getElem ?_ ?_)
    · rw [Migrator.lock, if_pos (Bool.eq_true_of_not_eq_false hlocked)]
    · rw [Migrator.lock, hstage]
      rfl

theorem Sound.moves {i : Nat} (h : s.Sound execute) (hmoves : s.Moves execute i m stage db) :
    ({ s.setStage i m stage with database := db } : System Content Schema).Sound execute where
  locks := by
    refine h.locks.set hmoves.getElem fun k hk => ?_
    have hlocked : stage.isLocked = true := by
      by_contra hnot
      rw [Migrator.lock, if_neg hnot] at hk
      cases hk
    rcases hmoves.lock hlocked with hlock | hfree
    · exact .inl (by rw [Migrator.lock, if_pos hlock])
    · exact .inr hfree
  migrators := by
    intro m' hm'
    obtain ⟨j, hj⟩ := List.mem_iff_getElem?.mp hm'
    rcases getElem?_set_cases hj with ⟨-, rfl⟩ | ⟨hne, hold⟩
    · exact hmoves.sound
    · exact hmoves.others h hold hne

theorem Sound.start (h : s.Sound execute) (directory : Directory Content) :
    ({ s with migrators := s.migrators ++ [{ directory }] } : System Content Schema).Sound
      execute where
  locks := h.locks.concat rfl
  migrators := by
    intro m hm
    rcases List.mem_append.mp hm with hm | hm
    · exact h.migrators m hm
    · rw [List.mem_singleton.mp hm]
      exact .of_none rfl rfl rfl

theorem Sound.step (h : s.Sound execute) (hstep : s.step execute e = some s') :
    s'.Sound execute := by
  rcases h.step_cases hstep with ⟨directory, -, rfl⟩ | ⟨i, m, stage, db, hmoves, rfl⟩
  · exact h.start directory
  · exact h.moves hmoves

/-- The file that is committed is missing, and has been executed. -/
theorem Moves.holds {i : Nat} {initial : Schema} {files : List (File Content)} (h : s.Sound execute)
    (hmoves : s.Moves execute i m stage db) (hfiles : s.database.Holds execute initial files) :
    db.Holds execute initial files ∨ ∃ file rest schema, m.stage = .commit file rest schema ∧
      file.name ∉ s.database.names ∧ db.Holds execute initial (files ++ [file]) := by
  have hsound := h.migrators m (List.mem_of_getElem? hmoves.getElem)
  cases hmoves.changes with
  | refl => exact .inl hfiles
  | createTable => exact .inl ⟨hfiles.names, hfiles.nodup, hfiles.schema⟩
  | commit hstage =>
    rw [hstage] at hsound
    have hmissing := hsound.missing _ rfl
    exact .inr ⟨_, _, _, hstage, hmissing, hfiles.commit hmissing (hsound.written _ _ rfl)⟩

end System

/-! ## Runs -/

variable {start : System Content Schema} {es : List (Event Content)}

/-- A database before the first migration. -/
structure System.IsFresh (s : System Content Schema) : Prop where
  migrators : s.migrators = []
  names : s.database.names = []

theorem System.IsFresh.sound (h : s.IsFresh) : s.Sound execute where
  locks := h.migrators ▸ .nil
  migrators m hm := by rw [h.migrators] at hm; cases hm

theorem System.IsFresh.holds (h : s.IsFresh) : s.database.Holds execute s.database.schema [] where
  names := h.names
  nodup := List.nodup_nil
  schema := rfl

def nameOf (text : String) : Name := text.toList.map Char.toNat

def release : Directory Nat where
  files := [⟨nameOf "002_auth.sql", 2⟩, ⟨nameOf "README.md", 0⟩, ⟨nameOf "001_base.sql", 1⟩]
  nodup := by decide +kernel

def append (content : Nat) (schema : List Nat) : Option (List Nat) := some (schema ++ [content])

def emptyDatabase : System Nat (List Nat) := { database := { schema := [] } }

theorem emptyDatabase_isFresh : emptyDatabase.IsFresh := ⟨rfl, rfl⟩

def twoMigrators : List (Event Nat) :=
  [.start release, .start release] ++ List.replicate 7 (.run 0) ++ [.crash 0 true] ++
    List.replicate 11 (.run 1)

theorem twoMigrators_enabled :
    (exec (System.step append) emptyDatabase twoMigrators).isSome = true := by
  decide +kernel

def migrated : System Nat (List Nat) :=
  (exec (System.step append) emptyDatabase twoMigrators).get twoMigrators_enabled

/-- Where the files before a missing one are recorded, the recorded ones are those before it. -/
theorem eq_of_prefix {files before rest : List (File Content)} {file : File Content}
    (hnodup : ((before ++ file :: rest).map File.name).Nodup)
    (hfiles : files <+: before ++ file :: rest)
    (hbefore : ∀ f ∈ before, f.name ∈ files.map File.name)
    (hmissing : file.name ∉ files.map File.name) :
    files = before := by
  have hle : files.length ≤ before.length := by
    by_contra hlt
    have hconcat : before ++ [file] <+: files := by
      refine List.prefix_of_prefix_length_le ⟨rest, by rw [List.append_assoc]; rfl⟩ hfiles ?_
      rw [List.length_append, List.length_singleton]
      omega
    exact hmissing (List.mem_map_of_mem
      (hconcat.subset (List.mem_append_right _ List.mem_cons_self)))
  have hsub : files <+: before :=
    List.prefix_of_prefix_length_le hfiles (List.prefix_append _ _) hle
  refine hsub.eq_of_length (le_antisymm hle ?_)
  rw [List.map_append] at hnodup
  have hlength := (hnodup.sublist (List.sublist_append_left _ _)).length_le_of_subset
    fun name hname => by
    obtain ⟨f, hf, rfl⟩ := List.mem_map.mp hname
    exact hbefore f hf
  simpa using hlength

/-- Migrators of one release apply its files in order, and none before all that come before it. -/
theorem applied_in_order {directory : Directory Content} (hstart : start.IsFresh)
    (hes : ∀ d, .start d ∈ es → d = directory)
    (h : Run (Stepping (System.step execute)) start es s) :
    ∃ files, files <+: directory.sorted ∧ s.database.Holds execute start.database.schema files ∧
      s.database.names.Pairwise (· < ·) := by
  let I (t : System Content Schema) : Prop :=
    t.Sound execute ∧ (∀ m ∈ t.migrators, m.directory = directory) ∧
    ∃ files, files <+: directory.sorted ∧ t.database.Holds execute start.database.schema files
  have hrun := h.meeting (C := fun _ e _ => ∀ d, e = .start d → d = directory)
    fun _ e _ he _ d hd => hes d (hd ▸ he)
  obtain ⟨-, -, files, hprefix, hfiles⟩ : I s := by
    refine hrun.invariant (I := I) ?_ ⟨hstart.sound, fun m hm => ?_, [], List.nil_prefix,
      hstart.holds⟩
    · rintro t e t' ⟨ht, hdirectory, files, hprefix, hfiles⟩ ⟨hstep, he⟩
      refine ⟨ht.step hstep, ?_⟩
      rcases ht.step_cases hstep with ⟨d, rfl, rfl⟩ | ⟨i, m, stage, db, hmoves, rfl⟩
      · refine ⟨fun m hm => ?_, files, hprefix, hfiles⟩
        rcases List.mem_append.mp hm with hm | hm
        · exact hdirectory m hm
        · rw [List.mem_singleton.mp hm]
          exact he d rfl
      · have hm := hdirectory m (List.mem_of_getElem? hmoves.getElem)
        refine ⟨fun m' hm' => ?_, ?_⟩
        · rcases List.mem_or_eq_of_mem_set hm' with hm' | rfl
          · exact hdirectory m' hm'
          · exact hm
        · rcases hmoves.holds ht hfiles with hfiles | ⟨file, rest, schema, hstage, hmissing, hholds⟩
          · exact ⟨files, hprefix, hfiles⟩
          · have hsound := ht.migrators m (List.mem_of_getElem? hmoves.getElem)
            rw [hstage, hm] at hsound
            obtain ⟨before, hbefore, hdone⟩ := hsound.passed _ rfl
            rw [hfiles.names] at hmissing hdone
            have heq :=
              eq_of_prefix (hbefore ▸ directory.sorted_nodup) (hbefore ▸ hprefix) hdone hmissing
            refine ⟨files ++ [file], ?_, hholds⟩
            rw [heq, hbefore]
            exact ⟨rest, by rw [List.append_assoc]; rfl⟩
    · rw [hstart.migrators] at hm
      cases hm
  refine ⟨files, hprefix, hfiles, ?_⟩
  rw [hfiles.names, List.pairwise_map]
  exact directory.sorted_pairwise.sublist hprefix.sublist

theorem applied_in_order_twoMigrators :
    migrated.database.names = [nameOf "001_base.sql", nameOf "002_auth.sql"] ∧
    ∃ files, files <+: release.sorted ∧ migrated.database.Holds append [] files ∧
      migrated.database.names.Pairwise (· < ·) :=
  ⟨by decide +kernel, applied_in_order emptyDatabase_isFresh
    (fun d hd => by simpa [twoMigrators] using hd)
    (.of_exec_get twoMigrators_enabled)⟩

end Tonatiuh.Migrations
