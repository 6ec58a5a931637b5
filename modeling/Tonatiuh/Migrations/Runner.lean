import Mathlib.Data.List.Lex
import Mathlib.Data.List.Sort
import Tonatiuh.Transition.Locks

/-! The migrations of `saas/migrate.ts`.

Any number of migrators run, each with the directory of its own release, and each statement is a
step. They are kept apart by an advisory lock of their sessions, which the end of a session
releases. `Schema` is what the files change, and `execute` runs a file, which contains no statement
that ends the transaction; without a result it fails. -/

namespace Tonatiuh.Migrations

open Transition (isFree)

/-- The code units of a file name, by which `sort` compares. -/
abbrev Name := List Nat

structure File (Content : Type) where
  name : Name
  content : Content

/-- The directory `migrations` of a release. -/
structure Directory (Content : Type) where
  files : List (File Content)
  nodup : (files.map File.name).Nodup

variable {Content Schema : Type}

def sqlSuffix : Name := ".sql".toList.map Char.toNat

/-- `(await readdir(directory)).filter((name) => name.endsWith('.sql')).sort()`. -/
def Directory.sorted (directory : Directory Content) : List (File Content) :=
  (directory.files.filter fun file => sqlSuffix <:+ file.name).insertionSort fun a b =>
    a.name ≤ b.name

/-- `applied` are the rows of `schema_migrations`, which may not exist. -/
structure Database (Schema : Type) where
  schema : Schema
  applied : Option (List Name) := none

def Database.names (database : Database Schema) : List Name := database.applied.getD []

/-- The statement that comes next. `rest` are the files that the loop has not come to. -/
inductive Stage (Content Schema : Type) where
  | lock
  | createTable
  | readDirectory
  | select (rest : List (File Content))
  | begin (file : File Content) (rest : List (File Content))
  | execute (file : File Content) (rest : List (File Content))
  | insert (file : File Content) (rest : List (File Content)) (schema : Schema)
  | commit (file : File Content) (rest : List (File Content)) (schema : Schema)
  | rollback
  | unlock (isFailed : Bool)
  | ended (isFailed : Bool)

structure Migrator (Content Schema : Type) where
  directory : Directory Content
  stage : Stage Content Schema := .lock

def Stage.isLocked : Stage Content Schema → Bool
  | .lock | .ended _ => false
  | _ => true

def Migrator.lock (m : Migrator Content Schema) : Option Unit :=
  if m.stage.isLocked then some () else none

/-- `COMMIT` of a file that has been executed. -/
def Database.commit (database : Database Schema) (file : File Content) (schema : Schema) :
    Database Schema where
  schema := schema
  applied := some (database.names ++ [file.name])

/-- What the next statement does once the lock is held. -/
def Migrator.next (execute : Content → Schema → Option Schema) (database : Database Schema)
    (m : Migrator Content Schema) : Option (Stage Content Schema × Database Schema) :=
  match m.stage with
  | .lock | .ended _ => none
  | .createTable => some (.readDirectory, { database with applied := some database.names })
  | .readDirectory => some (.select m.directory.sorted, database)
  | .select [] => some (.unlock false, database)
  | .select (file :: rest) =>
    some (if file.name ∈ database.names then .select rest else .begin file rest, database)
  | .begin file rest => some (.execute file rest, database)
  | .execute file rest =>
    match execute file.content database.schema with
    | none => some (.rollback, database)
    | some schema => some (.insert file rest schema, database)
  | .insert file rest schema =>
    some (if file.name ∈ database.names then .rollback else .commit file rest schema, database)
  | .commit file rest schema => some (.select rest, database.commit file schema)
  | .rollback => some (.unlock true, database)
  | .unlock isFailed => some (.ended isFailed, database)

/-- A statement, or reading a file, fails. -/
def Stage.failed : Stage Content Schema → Option (Stage Content Schema)
  | .lock => some (.ended true)
  | .createTable | .readDirectory | .select _ | .begin _ _ | .rollback => some (.unlock true)
  | .execute _ _ | .insert _ _ _ | .commit _ _ _ => some .rollback
  | .unlock isFailed => some (.ended isFailed)
  | .ended _ => none

/-- The session ends. A `COMMIT` that has been sent may have been executed. -/
def Stage.lost (database : Database Schema) (isCommitted : Bool) :
    Stage Content Schema → Option (Database Schema)
  | .ended _ => none
  | .commit file _ schema => some (if isCommitted then database.commit file schema else database)
  | _ => some database

structure System (Content Schema : Type) where
  database : Database Schema
  migrators : List (Migrator Content Schema) := []

inductive Event (Content : Type) where
  | start (directory : Directory Content)
  | run (i : Nat)
  | fail (i : Nat)
  | crash (i : Nat) (isCommitted : Bool)

namespace System

def setStage (s : System Content Schema) (i : Nat) (m : Migrator Content Schema)
    (stage : Stage Content Schema) :
    System Content Schema :=
  { s with migrators := s.migrators.set i { m with stage } }

def run (execute : Content → Schema → Option Schema) (s : System Content Schema) (i : Nat) :
    Option (System Content Schema) := do
  let m ← s.migrators[i]?
  match m.stage with
  | .lock =>
    if isFree Migrator.lock s.migrators i () then some (s.setStage i m .createTable) else none
  | _ =>
    (m.next execute s.database).map fun (stage, database) => { s.setStage i m stage with database }

def fail (s : System Content Schema) (i : Nat) : Option (System Content Schema) := do
  let m ← s.migrators[i]?
  m.stage.failed.map fun stage => s.setStage i m stage

def crash (s : System Content Schema) (i : Nat) (isCommitted : Bool) :
    Option (System Content Schema) := do
  let m ← s.migrators[i]?
  (m.stage.lost s.database isCommitted).map fun database =>
    { s.setStage i m (.ended true) with database }

def step (execute : Content → Schema → Option Schema) (s : System Content Schema) :
    Event Content → Option (System Content Schema)
  | .start directory => some { s with migrators := s.migrators ++ [{ directory }] }
  | .run i => s.run execute i
  | .fail i => s.fail i
  | .crash i isCommitted => s.crash i isCommitted

end System

end Tonatiuh.Migrations
