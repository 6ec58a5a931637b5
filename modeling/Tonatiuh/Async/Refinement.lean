import Mathlib.Logic.Relation
import Tonatiuh.Async.Execution

/-! Programs that serve the requests of other programs.

`implement` puts a program over one interface in the place of each request to another one, with a
memory of its own beside that of the caller. Such a program refines its request if all that it lets
the world see are moves of the environment, and one moment at which the request is served. Then
every execution over the one interface is an execution over the other. -/

namespace Tonatiuh.Async

variable {A B : Api} {μ ν ω ε ε' ρ ρ' α β : Type}

namespace Program

/-- Run `p` on the memory of the implementation, and go on with its result. -/
def graft : Program B ν ε' β → (Except ε' β → Program B (μ × ν) ε' α) → Program B (μ × ν) ε' α
  | .pure a, f => f (.ok a)
  | .throw e, f => f (.error e)
  | .read k, f => .read fun s => (k s.2).graft f
  | .write n k, f => .read fun s => .write (s.1, n) (k.graft f)
  | .await r k, f => .await r fun x => (k x).graft f
  | .unfinished, _ => .unfinished

/-- The program over `B`. `message` is what it sees of an error, and `embed` makes an error of one
of its own. -/
def implement (impl : (r : A.Request) → Program B ν ε' (A.Answer r)) (message : ε' → ε)
    (embed : ε → ε') :
    Program A μ ε α → Program B (μ × ν) ε' α
  | .pure a => .pure a
  | .throw e => .throw (embed e)
  | .read k => .read fun s => (k s.1).implement impl message embed
  | .write m k => .read fun s => .write (m, s.2) (k.implement impl message embed)
  | .await r k => (impl r).graft fun x => (k (x.mapError message)).implement impl message embed
  | .unfinished => .unfinished

/-- It waits, or it is over. -/
def IsSettled (p : Program A μ ε α) : Prop := (∃ r k, p = .await r k) ∨ ∃ x, p = .over x

namespace IsSettled

variable {p : Program A μ ε α}

theorem cases (h : p.IsSettled) :
    (∃ r k, p = .await r k) ∨ (∃ a, p = .pure a) ∨ ∃ e, p = .throw e := by
  rcases h with h | ⟨x, rfl⟩
  · exact .inl h
  · cases x with
    | ok a => exact .inr (.inl ⟨a, rfl⟩)
    | error e => exact .inr (.inr ⟨e, rfl⟩)

theorem ne_read (h : p.IsSettled) {k : μ → Program A μ ε α} : p ≠ .read k := by
  rintro rfl
  obtain ⟨_, _, h⟩ | ⟨_, h⟩ | ⟨_, h⟩ := h.cases <;> cases h

theorem ne_write (h : p.IsSettled) {m : μ} {k : Program A μ ε α} : p ≠ .write m k := by
  rintro rfl
  obtain ⟨_, _, h⟩ | ⟨_, h⟩ | ⟨_, h⟩ := h.cases <;> cases h

theorem ne_unfinished (h : p.IsSettled) : p ≠ .unfinished := by
  rintro rfl
  obtain ⟨_, _, h⟩ | ⟨_, h⟩ | ⟨_, h⟩ := h.cases <;> cases h

end IsSettled

end Program

/-! ## Moves -/

/-- The environment makes moves. -/
abbrev Moves (env : Environment A ω ε ρ) : ω → ω → Prop :=
  Relation.ReflTransGen fun w w' => ∃ l, env.move w l = some w'

/-- The request is served after some moves. -/
def Serves (env : Environment A ω ε ρ) (r : A.Request) (w : ω) (x : Except ε (A.Answer r))
    (w' : ω) : Prop :=
  ∃ w₁ l, Moves env w w₁ ∧ env.serve w₁ r l = some (x, w')

section
variable {env : Environment A ω ε ρ} {p q : Program A μ ε α} {r : A.Request}
  {k : Except ε (A.Answer r) → Program A μ ε α} {m : μ} {w w' : ω} {s s' : μ × ω} {t : List ρ}

theorem Exec.of_moves (h : Moves env w w') :
    ∃ t, Exec env (.await r k) (m, w) t (.await r k) (m, w') := by
  induction h using Relation.ReflTransGen.head_induction_on with
  | refl => exact ⟨[], .refl⟩
  | head hmove _ ih =>
    obtain ⟨l, hmove⟩ := hmove
    obtain ⟨t, ht⟩ := ih
    exact ⟨l :: t, .move hmove ht⟩

theorem Exec.of_serves {x : Except ε (A.Answer r)} (h : Serves env r w x w') :
    ∃ t, Exec env (.await r k) (m, w) t (k x) (m, w') := by
  obtain ⟨w₁, l, hmoves, hserve⟩ := h
  obtain ⟨t, ht⟩ := Exec.of_moves hmoves
  exact ⟨t ++ [l], ht.trans (.await hserve .refl)⟩

/-- What becomes of a program that waits: moves, and then it still waits or is served. -/
theorem Exec.await_cases (h : Exec env (.await r k) s t q s') : ∃ w₁, Moves env s.2 w₁ ∧
    ((q = .await r k ∧ s' = (s.1, w₁)) ∨
      ∃ l x w₂ t', env.serve w₁ r l = some (x, w₂) ∧ Exec env (k x) (s.1, w₂) t' q s') := by
  generalize hp : Program.await r k = p at h
  induction h with
  | refl =>
    subst hp
    exact ⟨_, .refl, .inl ⟨rfl, rfl⟩⟩
  | read | write => cases hp
  | await hserve hrest =>
    cases hp
    exact ⟨_, .refl, .inr ⟨_, _, _, _, hserve, hrest⟩⟩
  | move hmove _ ih =>
    cases hp
    obtain ⟨w₁, hmoves, hcases⟩ := ih rfl
    exact ⟨w₁, .head ⟨_, hmove⟩ hmoves, hcases⟩

theorem Exec.of_over {x : Except ε α} (h : Exec env (.over x) s t q s') : q = .over x ∧ s' = s := by
  cases x <;> cases h <;> exact ⟨rfl, rfl⟩

end

/-! ## Programs alone with an environment -/

/-- Whatever the environment does, the program waits in worlds that meet `P`, and it ends in `Q`. -/
def Meets (env : Environment A ω ε ρ) (P : ω → Prop) (Q : Except ε α → μ → ω → Prop) :
    Program A μ ε α → μ → ω → Prop
  | .pure a, m, w => Q (.ok a) m w
  | .throw e, m, w => Q (.error e) m w
  | .read k, m, w => Meets env P Q (k m) m w
  | .write m k, _, w => Meets env P Q k m w
  | .await r k, m, w => ∀ w₁, Moves env w w₁ →
      P w₁ ∧ ∀ l x w₂, env.serve w₁ r l = some (x, w₂) → Meets env P Q (k x) m w₂
  | .unfinished, _, _ => True

section
variable {env : Environment A ω ε ρ} {P : ω → Prop} {Q : Except ε α → μ → ω → Prop}
  {R : Except ε β → μ → ω → Prop} {p q : Program A μ ε α} {m m' : μ} {w w' : ω} {t : List ρ}

theorem Meets.exec (h : Meets env P Q p m w) (he : Exec env p (m, w) t q (m', w')) :
    Meets env P Q q m' w' := by
  generalize hs : (m, w) = s at he
  generalize hs' : (m', w') = s' at he
  induction he generalizing m w with
  | refl =>
    cases hs
    cases hs'
    exact h
  | read _ ih =>
    cases hs
    exact ih h rfl hs'
  | write _ ih =>
    cases hs
    exact ih h rfl hs'
  | await hserve _ ih =>
    cases hs
    exact ih ((h _ .refl).2 _ _ _ hserve) rfl hs'
  | move hmove _ ih =>
    cases hs
    exact ih (fun w₁ hw₁ => h w₁ (.head ⟨_, hmove⟩ hw₁)) rfl hs'

theorem Meets.waits {r : A.Request} {k : Except ε (A.Answer r) → Program A μ ε α}
    (h : Meets env P Q p m w) (he : Exec env p (m, w) t (.await r k) (m', w')) : P w' :=
  (h.exec he w' .refl).1

theorem Meets.returns {x : Except ε α} (h : Meets env P Q p m w)
    (he : Returns env p (m, w) t x (m', w')) :
    Q x m' w' := by
  have h := h.exec he
  cases x with
  | ok a => exact h
  | error e => exact h

theorem Meets.request {r : A.Request} {Q : Except ε (A.Answer r) → μ → ω → Prop}
    (h : ∀ w₁, Moves env w w₁ → P w₁ ∧ ∀ l x w₂, env.serve w₁ r l = some (x, w₂) → Q x m w₂) :
    Meets env P Q (Program.request r) m w := by
  intro w₁ hw₁
  refine ⟨(h w₁ hw₁).1, fun l x w₂ hserve => ?_⟩
  have hQ := (h w₁ hw₁).2 l x w₂ hserve
  cases x with
  | ok a => exact hQ
  | error e => exact hQ

theorem Meets.bind {f : α → Program A μ ε β} (h : Meets env P Q p m w)
    (hok : ∀ a m w, Q (.ok a) m w → Meets env P R (f a) m w)
    (herr : ∀ e m w, Q (.error e) m w → R (.error e) m w) : Meets env P R (p >>= f) m w := by
  change Meets env P R (p.bind f) m w
  induction p generalizing m w with
  | pure a => exact hok _ _ _ h
  | throw e => exact herr _ _ _ h
  | read k ih => exact ih _ h
  | write m k ih => exact ih h
  | await r k ih =>
    exact fun w₁ hw₁ => ⟨(h w₁ hw₁).1, fun l x w₂ hserve => ih x ((h w₁ hw₁).2 l x w₂ hserve)⟩
  | unfinished => trivial

theorem Meets.tryCatch {f : ε → Program A μ ε α} {Q' : Except ε α → μ → ω → Prop}
    (h : Meets env P Q p m w) (hok : ∀ a m w, Q (.ok a) m w → Q' (.ok a) m w)
    (herr : ∀ e m w, Q (.error e) m w → Meets env P Q' (f e) m w) :
    Meets env P Q' (p.tryCatch f) m w := by
  induction p generalizing m w with
  | pure a => exact hok _ _ _ h
  | throw e => exact herr _ _ _ h
  | read k ih => exact ih _ h
  | write m k ih => exact ih h
  | await r k ih =>
    exact fun w₁ hw₁ => ⟨(h w₁ hw₁).1, fun l x w₂ hserve => ih x ((h w₁ hw₁).2 l x w₂ hserve)⟩
  | unfinished => trivial

end

/-! ## Refinement -/

/-- The program makes of the world what serving the request would make of it. -/
def Refines (env : Environment A ω ε ρ) (env' : Environment B ω ε' ρ') (message : ε' → ε)
    (r : A.Request) (p : Program B ν ε' (A.Answer r)) : Prop :=
  ∀ n w, Meets env' (Moves env w) (fun x _ w' => Serves env r w (x.mapError message) w') p n w

variable {env : Environment A ω ε ρ} {env' : Environment B ω ε' ρ'} {message : ε' → ε}
  {embed : ε → ε'}
  {impl : (r : A.Request) → Program B ν ε' (A.Answer r)} {m m' : μ} {n n' : ν} {w w' : ω}
  {t : List ρ'} {q : Program B (μ × ν) ε' α}

theorem Exec.graft_cases {p : Program B ν ε' β} {f : Except ε' β → Program B (μ × ν) ε' α}
    (h : Exec env' (p.graft f) ((m, n), w) t q ((m', n'), w')) (hq : q.IsSettled) :
    (∃ r k k' t', Exec env' p (n, w) t' (.await r k) (n', w') ∧ m' = m ∧ q = .await r k') ∨
      ∃ x n₁ w₁ t₁ t₂, Returns env' p (n, w) t₁ x (n₁, w₁) ∧
        Exec env' (f x) ((m, n₁), w₁) t₂ q ((m', n'), w') := by
  induction p generalizing n w t with
  | pure a => exact .inr ⟨.ok a, n, w, [], t, .refl, h⟩
  | throw e => exact .inr ⟨.error e, n, w, [], t, .refl, h⟩
  | read k ih =>
    cases h with
    | refl => exact (hq.ne_read rfl).elim
    | read h =>
      rcases ih _ h with ⟨r, k₁, k', t', h₁, hrest⟩ | ⟨x, n₁, w₁, t₁, t₂, h₁, hrest⟩
      · exact .inl ⟨r, k₁, k', t', .read h₁, hrest⟩
      · exact .inr ⟨x, n₁, w₁, t₁, t₂, .read h₁, hrest⟩
  | write n₀ k ih =>
    cases h with
    | refl => exact (hq.ne_read rfl).elim
    | read h =>
      cases h with
      | refl => exact (hq.ne_write rfl).elim
      | write h =>
        rcases ih h with ⟨r, k₁, k', t', h₁, hrest⟩ | ⟨x, n₁, w₁, t₁, t₂, h₁, hrest⟩
        · exact .inl ⟨r, k₁, k', t', .write h₁, hrest⟩
        · exact .inr ⟨x, n₁, w₁, t₁, t₂, .write h₁, hrest⟩
  | await r k ih =>
    obtain ⟨w₁, hmoves, ⟨rfl, hs⟩ | ⟨l, x, w₂, t', hserve, hrest⟩⟩ := h.await_cases
    · cases hs
      obtain ⟨t₀, h₀⟩ := Exec.of_moves hmoves
      exact .inl ⟨r, k, _, t₀, h₀, rfl, rfl⟩
    · have hserves : Serves env' r w x w₂ := ⟨w₁, l, hmoves, hserve⟩
      obtain ⟨t₀, h₀⟩ := Exec.of_serves (m := n) (k := k) hserves
      rcases ih x hrest with ⟨r', k₁, k', t', h₁, hrest⟩ | ⟨y, n₁, w₁, t₁, t₂, h₁, hrest⟩
      · exact .inl ⟨r', k₁, k', _, h₀.trans h₁, hrest⟩
      · exact .inr ⟨y, n₁, w₁, _, t₂, h₀.trans h₁, hrest⟩
  | unfinished =>
    cases h
    exact (hq.ne_unfinished rfl).elim

/-- Each execution of the program over the implementation is one over the requests, which leads to
the same memory and world: it waits where the other one waits, and ends in the same result. -/
theorem Exec.implement (himpl : ∀ r, Refines env env' message r (impl r)) {p : Program A μ ε α}
    (h : Exec env' (p.implement impl message embed) ((m, n), w) t q ((m', n'), w'))
    (hq : q.IsSettled) :
    (∃ r k r' k' t', q = .await r k ∧ Exec env p (m, w) t' (.await r' k') (m', w')) ∨
      ∃ x t', q = .over (x.mapError embed) ∧ Returns env p (m, w) t' x (m', w') := by
  induction p generalizing m n w t with
  | pure a =>
    obtain ⟨rfl, hs⟩ := Exec.of_over (x := .ok a) h
    cases hs
    exact .inr ⟨.ok a, [], rfl, .refl⟩
  | throw e =>
    obtain ⟨rfl, hs⟩ := Exec.of_over (x := .error (embed e)) h
    cases hs
    exact .inr ⟨.error e, [], rfl, .refl⟩
  | read k ih =>
    cases h with
    | refl => exact (hq.ne_read rfl).elim
    | read h =>
      rcases ih m h with ⟨r, k, r', k', t', hwait, hp⟩ | ⟨x, t', hover, hp⟩
      · exact .inl ⟨r, k, r', k', t', hwait, .read hp⟩
      · exact .inr ⟨x, t', hover, .read hp⟩
  | write m₀ k ih =>
    cases h with
    | refl => exact (hq.ne_read rfl).elim
    | read h =>
      cases h with
      | refl => exact (hq.ne_write rfl).elim
      | write h =>
        rcases ih h with ⟨r, k, r', k', t', hwait, hp⟩ | ⟨x, t', hover, hp⟩
        · exact .inl ⟨r, k, r', k', t', hwait, .write hp⟩
        · exact .inr ⟨x, t', hover, .write hp⟩
  | await r k ih =>
    rcases h.graft_cases hq with ⟨r', k₁, k', t', hwaits, rfl, hwait⟩ |
        ⟨x, n₁, w₁, t₁, t₂, hreturns, hrest⟩
    · obtain ⟨t₀, h₀⟩ := Exec.of_moves (m := m') (k := k) ((himpl r n w).waits hwaits)
      exact .inl ⟨r', k', r, k, t₀, hwait, h₀⟩
    · obtain ⟨t₀, h₀⟩ := Exec.of_serves (m := m) (k := k) ((himpl r n w).returns hreturns)
      rcases ih _ hrest with ⟨r', k₁, r'', k', t', hwait, hp⟩ | ⟨y, t', hover, hp⟩
      · exact .inl ⟨r', k₁, r'', k', _, hwait, h₀.trans hp⟩
      · exact .inr ⟨y, _, hover, h₀.trans hp⟩
  | unfinished =>
    cases h
    exact (hq.ne_unfinished rfl).elim

theorem Returns.implement (himpl : ∀ r, Refines env env' message r (impl r))
    (hembed : ∀ e, message (embed e) = e) {p : Program A μ ε α} {x : Except ε' α}
    (h : Returns env' (p.implement impl message embed) ((m, n), w) t x ((m', n'), w')) :
    ∃ t', Returns env p (m, w) t' (x.mapError message) (m', w') := by
  rcases Exec.implement himpl h (.inr ⟨x, rfl⟩) with ⟨r, k, r', k', t', heq, -⟩ | ⟨y, t', heq, hp⟩
  · cases x <;> cases heq
  · refine ⟨t', ?_⟩
    have hx : x.mapError message = y := by
      cases x <;> cases y <;> cases heq
      · exact congrArg Except.error (hembed _)
      · rfl
    exact hx ▸ hp

theorem Cut.implement (himpl : ∀ r, Refines env env' message r (impl r)) {p : Program A μ ε α}
    (h : Cut env' (p.implement impl message embed) ((m, n), w) t ((m', n'), w')) :
    ∃ t', Cut env p (m, w) t' (m', w') := by
  have hcases {q : Program B (μ × ν) ε' α} {t : List ρ'}
      (h : Exec env' (p.implement impl message embed) ((m, n), w) t q ((m', n'), w'))
        (hq : q.IsSettled) :
      ∃ t', Cut env p (m, w) t' (m', w') := by
    rcases Exec.implement himpl h hq with ⟨_, _, r, k, t', -, h⟩ | ⟨x, t', -, h⟩
    · exact ⟨t', .inl ⟨r, k, h⟩⟩
    · exact ⟨t', .inr ⟨x, h⟩⟩
  obtain ⟨r, k, h⟩ | ⟨x, h⟩ := h
  · exact hcases h (.inl ⟨r, k, rfl⟩)
  · exact hcases h (.inr ⟨x, rfl⟩)

end Tonatiuh.Async
