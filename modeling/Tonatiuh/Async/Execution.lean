import Tonatiuh.Async.Contract

/-! Executions of one program.

An environment serves the requests of a program and makes moves of its own between them. `Exec`
relates a program to what is left of it after a list of labels, one for each request served and
each move; `run` computes the same. A program that is safe under a contract that covers the
environment keeps the contract in every execution, complete or cut off. -/

namespace Tonatiuh.Async

/-- What serves the requests of programs, over the states `ω` of the world: a label says how a
request is served, or names a move. -/
structure Environment (A : Api) (ω ε ρ : Type) where
  serve : ω → (r : A.Request) → ρ → Option (Except ε (A.Answer r) × ω)
  move : ω → ρ → Option ω

variable {A : Api} {μ ω ε ρ α β : Type}

/-- The program that is over, with this result. -/
def Program.over : Except ε α → Program A μ ε α
  | .ok a => .pure a
  | .error e => .throw e

/-- What is left of a program, and the state, after a list of labels. -/
inductive Exec (env : Environment A ω ε ρ) :
    Program A μ ε α → μ × ω → List ρ → Program A μ ε α → μ × ω → Prop where
  | refl : Exec env p s [] p s
  | read : Exec env (k s.1) s t q s' → Exec env (.read k) s t q s'
  | write : Exec env k (m, s.2) t q s' → Exec env (.write m k) s t q s'
  | await : env.serve s.2 r l = some (x, w) → Exec env (k x) (s.1, w) t q s' →
      Exec env (.await r k) s (l :: t) q s'
  | move : env.move s.2 l = some w → Exec env (.await r k) (s.1, w) t q s' →
      Exec env (.await r k) s (l :: t) q s'

/-- The program ends with the result `x`. -/
def Returns (env : Environment A ω ε ρ) (p : Program A μ ε α) (s : μ × ω) (t : List ρ)
    (x : Except ε α) (s' : μ × ω) : Prop :=
  Exec env p s t (.over x) s'

/-- The program is cut off at an await, or has ended: between two awaits the world does not
change. -/
def Cut (env : Environment A ω ε ρ) (p : Program A μ ε α) (s : μ × ω) (t : List ρ) (s' : μ × ω) :
    Prop :=
  (∃ r k, Exec env p s t (.await r k) s') ∨ ∃ x, Returns env p s t x s'

/-! ## Computing executions -/

/-- Run a program up to the next await after the last label. A label is a move if it can be. -/
def Program.run (env : Environment A ω ε ρ) :
    Program A μ ε α → μ → ω → List ρ → Option (Program A μ ε α × μ × ω)
  | p, m, w, [] => some ((p.settle m).1, (p.settle m).2, w)
  | p, m, w, l :: t =>
    match (p.settle m).1 with
    | .await r k =>
      match env.move w l with
      | some w' => Program.run env (.await r k) (p.settle m).2 w' t
      | none => (env.serve w r l).bind fun (x, w') => Program.run env (k x) (p.settle m).2 w' t
    | _ => none

theorem Exec.of_settle {env : Environment A ω ε ρ} {p : Program A μ ε α} {m : μ} {w : ω}
    (h : Exec env (p.settle m).1 ((p.settle m).2, w) t q s') : Exec env p (m, w) t q s' := by
  induction p generalizing m with
  | read k ih => exact .read (ih m h)
  | write m' k ih => exact .write (ih h)
  | pure | throw | await | unfinished => exact h

theorem Exec.of_run {env : Environment A ω ε ρ} {p : Program A μ ε α} {m : μ} {w : ω}
    (h : p.run env m w t = some (q, s')) : Exec env p (m, w) t q s' := by
  induction t generalizing p m w with
  | nil =>
    cases h
    exact Exec.of_settle .refl
  | cons l t ih =>
    rw [Program.run] at h
    split at h
    next r k hp =>
      apply Exec.of_settle
      rw [hp]
      split at h
      next w' hmove => exact .move hmove (ih h)
      next =>
        obtain ⟨⟨x, w'⟩, hserve, h⟩ := Option.bind_eq_some_iff.mp h
        exact .await hserve (ih h)
    next => cases h

/-- The result of a program that is over. -/
def Program.result : Program A μ ε α → Option (Except ε α)
  | .pure a => some (.ok a)
  | .throw e => some (.error e)
  | _ => none

/-- The result and the last state, if the program is over after the labels. -/
def Program.ends (env : Environment A ω ε ρ) (p : Program A μ ε α) (m : μ) (w : ω) (t : List ρ) :
    Option (Except ε α × μ × ω) :=
  (p.run env m w t).bind fun (q, s) => q.result.map (·, s)

theorem Program.eq_over {p : Program A μ ε α} (h : p.result = some x) : p = .over x := by
  cases p with
  | pure a => cases h; rfl
  | throw e => cases h; rfl
  | _ => cases h

theorem Returns.of_ends {env : Environment A ω ε ρ} {p : Program A μ ε α} {m : μ} {w : ω}
    (h : p.ends env m w t = some (x, s')) : Returns env p (m, w) t x s' := by
  obtain ⟨⟨q, s⟩, hrun, h⟩ := Option.bind_eq_some_iff.mp h
  obtain ⟨y, hy, h⟩ := Option.map_eq_some_iff.mp h
  cases h
  rw [Program.eq_over hy] at hrun
  exact Exec.of_run hrun

theorem Returns.of_ends_get {env : Environment A ω ε ρ} {p : Program A μ ε α} {m : μ} {w : ω}
    (h : (p.ends env m w t).isSome) :
    Returns env p (m, w) t ((p.ends env m w t).get h).1 ((p.ends env m w t).get h).2 :=
  .of_ends (Option.some_get h).symm

theorem Returns.of_ends_eq {env : Environment A ω ε ρ} {p : Program A μ ε α} {m : μ} {w : ω}
    {h : (p.ends env m w t).isSome} (hx : ((p.ends env m w t).get h).1 = x) :
    Returns env p (m, w) t x ((p.ends env m w t).get h).2 :=
  hx ▸ .of_ends_get h

/-- A program that waits after the labels can be cut off there. -/
theorem Cut.of_run {env : Environment A ω ε ρ} {p : Program A μ ε α} {m : μ} {w : ω}
    (h : p.run env m w t = some (q, s')) (hq : q.pending.isSome) : Cut env p (m, w) t s' := by
  cases q with
  | await r k => exact .inl ⟨r, k, .of_run h⟩
  | _ => cases hq

theorem Cut.of_run_get {env : Environment A ω ε ρ} {p : Program A μ ε α} {m : μ} {w : ω}
    (h : (p.run env m w t).isSome) (hq : ((p.run env m w t).get h).1.pending.isSome) :
    Cut env p (m, w) t ((p.run env m w t).get h).2 :=
  .of_run (Option.some_get h).symm hq

theorem Exec.trans {env : Environment A ω ε ρ} {p q r : Program A μ ε α}
    (h : Exec env p s t q s') (h' : Exec env q s' t' r s'') : Exec env p s (t ++ t') r s'' := by
  induction h with
  | refl => exact h'
  | read _ ih => exact .read (ih h')
  | write _ ih => exact .write (ih h')
  | await hserve _ ih => exact .await hserve (ih h')
  | move hmove _ ih => exact .move hmove (ih h')

theorem Exec.bind {env : Environment A ω ε ρ} {p q : Program A μ ε α} (h : Exec env p s t q s')
    (f : α → Program A μ ε β) : Exec env (p.bind f) s t (q.bind f) s' := by
  induction h with
  | refl => exact .refl
  | read _ ih => exact .read ih
  | write _ ih => exact .write ih
  | await hserve _ ih => exact .await hserve ih
  | move hmove _ ih => exact .move hmove ih

/-- What the environment preserves of the world holds after every execution. -/
theorem Exec.invariant {env : Environment A ω ε ρ} {p q : Program A μ ε α} {I : ω → Prop}
    (hserve : ∀ w r l x w', I w → env.serve w r l = some (x, w') → I w')
    (hmove : ∀ w l w', I w → env.move w l = some w' → I w') (h : Exec env p s t q s')
    (hs : I s.2) : I s'.2 := by
  induction h with
  | refl => exact hs
  | read _ ih => exact ih hs
  | write _ ih => exact ih hs
  | await hserved _ ih => exact ih (hserve _ _ _ _ _ hs hserved)
  | move hmoved _ ih => exact ih (hmove _ _ _ hs hmoved)

/-- The request that a program waits for after the labels, and the world then. -/
def Program.waitsFor (env : Environment A ω ε ρ) (p : Program A μ ε α) (m : μ) (w : ω)
    (t : List ρ) :
    Option (A.Request × ω) :=
  (p.run env m w t).bind fun (q, s) => q.pending.map (·, s.2)

theorem Exec.of_waitsFor {env : Environment A ω ε ρ} {p : Program A μ ε α} {m : μ} {w : ω}
    (h : p.waitsFor env m w t = some (r, w')) : ∃ k m',
      Exec env p (m, w) t (.await r k) (m', w') := by
  obtain ⟨⟨q, m', w''⟩, hrun, h⟩ := Option.bind_eq_some_iff.mp h
  obtain ⟨r', hr, h⟩ := Option.map_eq_some_iff.mp h
  cases h
  obtain ⟨k, rfl⟩ := Program.eq_await hr
  exact ⟨k, m', .of_run hrun⟩

/-! ## Any answers -/

/-- Each request is answered with what the label says. -/
def answering [DecidableEq A.Request] :
    Environment A ω ε (Sigma fun r => Except ε (A.Answer r)) where
  serve w r l := if h : l.1 = r then some (h ▸ l.2, w) else none
  move _ _ := none

theorem Exec.answered [DecidableEq A.Request] {r : A.Request} {x : Except ε (A.Answer r)}
    {k : Except ε (A.Answer r) → Program A μ ε α} (h : Exec answering (k x) s t q s') :
    Exec answering (.await r k) s (⟨r, x⟩ :: t) q s' :=
  .await (dif_pos rfl) h

/-! ## Beside other tasks -/

/-- An answer, and the memory in which the program goes on with it: other tasks may have written it
while the program waited. -/
structure Resumed (A : Api) (μ ε : Type) where
  request : A.Request
  answer : Except ε (A.Answer request)
  memory : μ

/-- What is left of a program, and the memory, after it has been resumed like this. -/
inductive Interleaved :
    Program A μ ε α → μ → List (Resumed A μ ε) → Program A μ ε α → μ → Prop where
  | refl : Interleaved p m [] p m
  | read {k : μ → Program A μ ε α} : Interleaved (k m) m t q m' → Interleaved (.read k) m t q m'
  | write {n : μ} : Interleaved k m t q m' → Interleaved (.write m k) n t q m'
  | await {k : Except ε (A.Answer r) → Program A μ ε α} {n : μ} :
      Interleaved (k x) m t q m' → Interleaved (.await r k) n (⟨r, x, m⟩ :: t) q m'

namespace Interleaved

variable {p q r : Program A μ ε α} {m m' m'' : μ} {t t' : List (Resumed A μ ε)}

theorem trans (h : Interleaved p m t q m') (h' : Interleaved q m' t' r m'') :
    Interleaved p m (t ++ t') r m'' := by
  induction h with
  | refl => exact h'
  | read _ ih => exact .read (ih h')
  | write _ ih => exact .write (ih h')
  | await _ ih => exact .await (ih h')

theorem tryCatch (h : Interleaved p m t q m') (f : ε → Program A μ ε α) :
    Interleaved (p.tryCatch f) m t (q.tryCatch f) m' := by
  induction h with
  | refl => exact .refl
  | read _ ih => exact .read ih
  | write _ ih => exact .write ih
  | await _ ih => exact .await ih

end Interleaved

/-! ## Observers -/

/-- The environment with an observer, who notes every label in a record. -/
def Environment.observed (env : Environment A ω ε ρ) (note : σ → ρ → σ) :
    Environment A (ω × σ) ε ρ where
  serve s r l := (env.serve s.1 r l).map fun (x, w) => (x, w, note s.2 l)
  move s l := (env.move s.1 l).map fun w => (w, note s.2 l)

theorem Exec.observed {env : Environment A ω ε ρ} {p q : Program A μ ε α} (note : σ → ρ → σ)
    (h : Exec env p s t q s') (record : σ) :
    Exec (env.observed note) p (s.1, s.2, record) t q (s'.1, s'.2, t.foldl note record) := by
  induction h generalizing record with
  | refl => exact .refl
  | read _ ih => exact .read (ih record)
  | write _ ih => exact .write (ih record)
  | await hserve _ ih => exact .await (by simp [Environment.observed, hserve]) (ih _)
  | move hmove _ ih => exact .move (by simp [Environment.observed, hmove]) (ih _)

theorem Cut.observed {env : Environment A ω ε ρ} {p : Program A μ ε α} (note : σ → ρ → σ)
    (h : Cut env p s t s') (record : σ) :
    Cut (env.observed note) p (s.1, s.2, record) t (s'.1, s'.2, t.foldl note record) := by
  obtain ⟨r, k, h⟩ | ⟨x, h⟩ := h
  · exact .inl ⟨r, k, h.observed note record⟩
  · exact .inr ⟨x, h.observed note record⟩

/-! ## Executions under a contract -/

/-- The contract admits whatever the environment does. -/
structure Contract.Covers (c : Contract A μ ω ε) (env : Environment A ω ε ρ) : Prop where
  served : env.serve w r l = some (x, w') → c.served r (m, w) x (m, w')
  moved : env.move w l = some w' → c.rely (m, w) (m, w')

/-- The environment with a record in which every answer is noted. -/
def Environment.noted (env : Environment A ω ε ρ)
    (note : σ → (r : A.Request) → Except ε (A.Answer r) → σ) : Environment A (ω × σ) ε ρ where
  serve s r l := (env.serve s.1 r l).map fun (x, w) => (x, w, note s.2 r x)
  move s l := (env.move s.1 l).map fun w => (w, s.2)

theorem Contract.Covers.noted {σ : Type} {c : Contract A μ ω ε} {env : Environment A ω ε ρ}
    {note : σ → (r : A.Request) → Except ε (A.Answer r) → σ} (hc : c.Covers env) :
    (c.noted note).Covers (env.noted note) where
  served h := by
    obtain ⟨⟨x, w⟩, hserve, h⟩ := Option.map_eq_some_iff.mp h
    cases h
    exact ⟨hc.served hserve, rfl⟩
  moved h := by
    obtain ⟨w, hmove, h⟩ := Option.map_eq_some_iff.mp h
    cases h
    exact ⟨hc.moved hmove, rfl⟩

variable {c : Contract A μ ω ε} {env : Environment A ω ε ρ} {p q : Program A μ ε α}
  {Q : Except ε α → μ × ω → Prop}

/-- What is left of a safe program is safe. -/
theorem Safe.exec (hc : c.Covers env) (h : Safe c Q p s) (he : Exec env p s t q s') :
    Safe c Q q s' := by
  induction he with
  | refl => exact h
  | read _ ih => exact ih h
  | write _ ih => exact ih h
  | @await s r l x w k t q s' hserve _ ih =>
    exact ih ((h s (c.rely_refl s)).2 x (s.1, w) (hc.served hserve) _ (c.rely_refl _)).2
  | move hmove _ ih => exact ih (h.rely_await (hc.moved hmove))

theorem safe_over (x : Except ε α) : Safe c Q (.over x) s ↔ Q x s := by
  cases x with
  | ok a => exact .rfl
  | error e => exact .rfl

theorem Safe.returns (hc : c.Covers env) (h : Safe c Q p s) (he : Returns env p s t x s') :
    Q x s' :=
  (safe_over x).mp (h.exec hc he)

/-- What a program waits for may be pending. -/
theorem Safe.waitsFor {m : μ} {w : ω} (hc : c.Covers env) (h : Safe c Q p (m, w))
    (hr : p.waitsFor env m w t = some (r, w')) : ∃ m', c.pending r (m', w') := by
  obtain ⟨k, m', he⟩ := Exec.of_waitsFor hr
  exact ⟨m', (h.exec hc he _ (c.rely_refl _)).1⟩

theorem Safe.cut (hc : c.Covers env) (h : Safe c Q p s) (he : Cut env p s t s') :
    (∃ r, c.pending r s') ∨ ∃ x, Q x s' := by
  obtain ⟨r, k, he⟩ | ⟨x, he⟩ := he
  · exact .inl ⟨r, (h.exec hc he s' (c.rely_refl s')).1⟩
  · exact .inr ⟨x, h.returns hc he⟩

end Tonatiuh.Async
