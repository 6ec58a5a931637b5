/-! Asynchronous programs.

A program is what one task of a single-threaded event loop does: between two awaits it reads and
writes the memory it shares with the other tasks of its process, at an await it sends a request
and goes on with the answer, or with the error that the request is rejected with. `settle` runs
a program up to its next await, which is what the event loop does without interruption. -/

namespace Tonatiuh.Async

/-- The requests that programs await, and what each is answered with. -/
structure Api where
  Request : Type
  Answer : Request → Type

/-- Programs over the memory `μ` that throw `ε` and return `α`. A loop that is cut off after a
number of rounds ends in `unfinished`, which is never resumed. -/
inductive Program (A : Api) (μ ε α : Type) : Type where
  | pure (a : α)
  | throw (e : ε)
  | read (k : μ → Program A μ ε α)
  | write (m : μ) (k : Program A μ ε α)
  | await (r : A.Request) (k : Except ε (A.Answer r) → Program A μ ε α)
  | unfinished

namespace Program

variable {A : Api} {μ ε α β : Type}

def bind : Program A μ ε α → (α → Program A μ ε β) → Program A μ ε β
  | .pure a, f => f a
  | .throw e, _ => .throw e
  | .read k, f => .read fun m => (k m).bind f
  | .write m k, f => .write m (k.bind f)
  | .await r k, f => .await r fun x => (k x).bind f
  | .unfinished, _ => .unfinished

def tryCatch : Program A μ ε α → (ε → Program A μ ε α) → Program A μ ε α
  | .pure a, _ => .pure a
  | .throw e, f => f e
  | .read k, f => .read fun m => (k m).tryCatch f
  | .write m k, f => .write m (k.tryCatch f)
  | .await r k, f => .await r fun x => (k x).tryCatch f
  | .unfinished, _ => .unfinished

instance : Monad (Program A μ ε) where
  pure := .pure
  bind := bind

instance : MonadExceptOf ε (Program A μ ε) where
  throw := .throw
  tryCatch := tryCatch

instance : MonadStateOf μ (Program A μ ε) where
  get := .read .pure
  set m := .write m (.pure ())
  modifyGet f := .read fun m => .write (f m).2 (.pure (f m).1)

/-- Await a request; its error is thrown. -/
def request (r : A.Request) : Program A μ ε (A.Answer r) :=
  .await r fun
    | .ok a => .pure a
    | .error e => .throw e

/-- `promise.catch(() => undefined)`. -/
def orUndefined (p : Program A μ ε α) : Program A μ ε (Option α) :=
  (some <$> p).tryCatch fun _ => .pure none

/-- Run up to the next await. -/
def settle : Program A μ ε α → μ → Program A μ ε α × μ
  | .read k, m => settle (k m) m
  | .write m k, _ => settle k m
  | p, m => (p, m)

/-- After `settle` the task waits or is over. -/
theorem settle_cases (p : Program A μ ε α) (m : μ) :
    (∃ r k, (p.settle m).1 = .await r k) ∨ (∃ a, (p.settle m).1 = .pure a) ∨
      (∃ e, (p.settle m).1 = .throw e) ∨ (p.settle m).1 = .unfinished := by
  induction p generalizing m with
  | read k ih => exact ih m m
  | write m' k ih => exact ih m'
  | pure a => exact .inr (.inl ⟨a, rfl⟩)
  | throw e => exact .inr (.inr (.inl ⟨e, rfl⟩))
  | await r k => exact .inl ⟨r, k, rfl⟩
  | unfinished => exact .inr (.inr (.inr rfl))

/-- The request that a task waits for. -/
def pending : Program A μ ε α → Option A.Request
  | .await r _ => some r
  | _ => none

@[simp] theorem pending_await : (await (α := α) r k : Program A μ ε α).pending = some r := rfl

theorem eq_await {p : Program A μ ε α} (h : p.pending = some r) : ∃ k, p = .await r k := by
  cases p with
  | await r' k => cases h; exact ⟨k, rfl⟩
  | _ => cases h

end Program

end Tonatiuh.Async
