import Tonatiuh.Async.Program

/-! Rely-guarantee contracts for asynchronous programs.

A state is the memory of a process with the world outside it. A contract says what the rest of
the system may do to the state while a task waits (`rely`), how its requests are served
(`served`), and what has to hold: `pending` while it waits for a request, `ready` while it has an
answer and is not resumed. `Safe` is the weakest precondition under which a program meets its
contract at every await, in any interleaving, and ends in its postcondition. -/

namespace Tonatiuh.Async

structure Contract (A : Api) (μ ω ε : Type) where
  rely : μ × ω → μ × ω → Prop
  rely_refl : ∀ s, rely s s
  rely_trans : ∀ s t u, rely s t → rely t u → rely s u
  served : (r : A.Request) → μ × ω → Except ε (A.Answer r) → μ × ω → Prop
  pending : A.Request → μ × ω → Prop
  ready : μ × ω → Prop
  pending_ready : ∀ r s, pending r s → ready s

/-- A postcondition: `ok` of the value returned, `err` when an error is thrown. -/
def Ends (ok : α → σ → Prop) (err : σ → Prop) : Except ε α → σ → Prop
  | .ok a => ok a
  | .error _ => err

@[simp] theorem ends_ok : Ends (ε := ε) ok err (.ok a) s ↔ ok a s := .rfl
@[simp] theorem ends_error : Ends (α := α) ok err (.error (e : ε)) s ↔ err s := .rfl

variable {A : Api} {μ ω ε α β : Type}

/-- From this state on, the program meets the contract and ends in `Q`. -/
def Safe (c : Contract A μ ω ε) (Q : Except ε α → μ × ω → Prop) :
    Program A μ ε α → μ × ω → Prop
  | .pure a, s => Q (.ok a) s
  | .throw e, s => Q (.error e) s
  | .read k, s => Safe c Q (k s.1) s
  | .write m k, s => Safe c Q k (m, s.2)
  | .await r k, s => ∀ s', c.rely s s' → c.pending r s' ∧
      ∀ x t, c.served r s' x t → ∀ t', c.rely t t' → c.ready t' ∧ Safe c Q (k x) t'
  | .unfinished, _ => True

/-- The same of a task that may have to wait before it runs. -/
def Stable (c : Contract A μ ω ε) (Q : Except ε α → μ × ω → Prop) (p : Program A μ ε α)
    (s : μ × ω) : Prop := ∀ s', c.rely s s' → c.ready s' ∧ Safe c Q p s'

variable {c : Contract A μ ω ε} {Q Q' : Except ε α → μ × ω → Prop}

/-! ## Runs of one task -/

theorem Stable.rely (h : Stable c Q p s) (hr : c.rely s s') : Stable c Q p s' :=
  fun t ht => h t (c.rely_trans _ _ _ hr ht)

theorem Stable.ready (h : Stable c Q p s) : c.ready s := (h s (c.rely_refl s)).1

theorem Stable.safe (h : Stable c Q p s) : Safe c Q p s := (h s (c.rely_refl s)).2

theorem Stable.pending (h : Stable c Q (.await r k) s) : c.pending r s :=
  (h.safe s (c.rely_refl s)).1

/-- What a served task holds is its continuation. -/
theorem Stable.served (h : Stable c Q (.await r k) s) (hs : c.served r s x t) :
    Stable c Q (k x) t :=
  (h.safe s (c.rely_refl s)).2 x t hs

theorem Safe.rely_await {k : Except ε (A.Answer r) → Program A μ ε α}
    (h : Safe c Q (.await r k) s) (hr : c.rely s s') : Safe c Q (.await r k) s' :=
  fun t ht => h t (c.rely_trans _ _ _ hr ht)

theorem Safe.stable_await {k : Except ε (A.Answer r) → Program A μ ε α}
    (h : Safe c Q (.await r k) s) : Stable c Q (.await r k) s := by
  intro t ht
  have h' := h.rely_await ht
  exact ⟨c.pending_ready _ _ (h' t (c.rely_refl t)).1, h'⟩

/-- Resuming a task up to its next await. -/
theorem Safe.settle {p : Program A μ ε α} {m : μ} {w : ω} (h : Safe c Q p (m, w)) :
    Safe c Q (p.settle m).1 ((p.settle m).2, w) := by
  induction p generalizing m with
  | read k ih => exact ih m h
  | write m' k ih => exact ih h
  | pure | throw | await | unfinished => exact h

/-- A resumed task waits again, or is over with a postcondition that stays true. -/
theorem Safe.settle_stable {p : Program A μ ε α} {m : μ} {w : ω} (h : Safe c Q p (m, w))
    (hready : ∀ t, c.rely ((p.settle m).2, w) t → c.ready t)
    (hQ : ∀ x t, Q x ((p.settle m).2, w) → c.rely ((p.settle m).2, w) t → Q x t) :
    Stable c Q (p.settle m).1 ((p.settle m).2, w) := by
  have hs := h.settle
  obtain ⟨r, k, hp⟩ | ⟨a, hp⟩ | ⟨e, hp⟩ | hp := p.settle_cases m
  · rw [hp] at hs ⊢
    exact hs.stable_await
  · rw [hp] at hs ⊢
    exact fun t ht => ⟨hready t ht, hQ _ t hs ht⟩
  · rw [hp] at hs ⊢
    exact fun t ht => ⟨hready t ht, hQ _ t hs ht⟩
  · rw [hp]
    exact fun t ht => ⟨hready t ht, trivial⟩

/-! ## Composition -/

theorem Safe.mono {p : Program A μ ε α} (h : Safe c Q p s) (hQ : ∀ x s, Q x s → Q' x s) :
    Safe c Q' p s := by
  induction p generalizing s with
  | pure a => exact hQ _ _ h
  | throw e => exact hQ _ _ h
  | read k ih => exact ih _ h
  | write m k ih => exact ih h
  | await r k ih =>
    intro s' hs'
    obtain ⟨hp, hk⟩ := h s' hs'
    refine ⟨hp, fun x t ht t' ht' => ?_⟩
    obtain ⟨hr, hsafe⟩ := hk x t ht t' ht'
    exact ⟨hr, ih x hsafe⟩
  | unfinished => trivial

theorem Safe.bind {p : Program A μ ε α} {f : α → Program A μ ε β}
    {R : Except ε β → μ × ω → Prop} (h : Safe c Q p s)
    (hok : ∀ a s, Q (.ok a) s → Safe c R (f a) s)
    (herr : ∀ e s, Q (.error e) s → R (.error e) s) : Safe c R (p >>= f) s := by
  change Safe c R (p.bind f) s
  induction p generalizing s with
  | pure a => exact hok _ _ h
  | throw e => exact herr _ _ h
  | read k ih => exact ih _ h
  | write m k ih => exact ih h
  | await r k ih =>
    intro s' hs'
    obtain ⟨hp, hk⟩ := h s' hs'
    refine ⟨hp, fun x t ht t' ht' => ?_⟩
    obtain ⟨hr, hsafe⟩ := hk x t ht t' ht'
    exact ⟨hr, ih x hsafe⟩
  | unfinished => trivial

theorem Safe.tryCatch {p : Program A μ ε α} {f : ε → Program A μ ε α} (h : Safe c Q p s)
    (hok : ∀ a s, Q (.ok a) s → Q' (.ok a) s)
    (herr : ∀ e s, Q (.error e) s → Safe c Q' (f e) s) : Safe c Q' (p.tryCatch f) s := by
  induction p generalizing s with
  | pure a => exact hok _ _ h
  | throw e => exact herr _ _ h
  | read k ih => exact ih _ h
  | write m k ih => exact ih h
  | await r k ih =>
    intro s' hs'
    obtain ⟨hp, hk⟩ := h s' hs'
    refine ⟨hp, fun x t ht t' ht' => ?_⟩
    obtain ⟨hr, hsafe⟩ := hk x t ht t' ht'
    exact ⟨hr, ih x hsafe⟩
  | unfinished => trivial

theorem safe_get_bind {f : μ → Program A μ ε α} :
    Safe c Q (MonadState.get >>= f) s ↔ Safe c Q (f s.1) s := .rfl

theorem safe_modify_bind {g : μ → μ} {f : Unit → Program A μ ε α} :
    Safe c Q (modify g >>= f) s ↔ Safe c Q (f ()) (g s.1, s.2) := .rfl

theorem safe_modify {g : μ → μ} {Q : Except ε Unit → μ × ω → Prop} :
    Safe c Q (modify g : Program A μ ε Unit) s ↔ Q (.ok ()) (g s.1, s.2) := .rfl

/-- The rule of a request: it may be pending, and however it is served the postcondition holds
and stays true until the task is resumed. -/
theorem Safe.request {r : A.Request} {Q : Except ε (A.Answer r) → μ × ω → Prop}
    (h : ∀ s', c.rely s s' → c.pending r s' ∧
      ∀ x t, c.served r s' x t → ∀ t', c.rely t t' → c.ready t' ∧ Q x t') :
    Safe c Q (Program.request r : Program A μ ε _) s := by
  intro s' hs'
  obtain ⟨hp, hk⟩ := h s' hs'
  refine ⟨hp, fun x t ht t' ht' => ?_⟩
  obtain ⟨hr, hq⟩ := hk x t ht t' ht'
  refine ⟨hr, ?_⟩
  cases x with
  | ok a => exact hq
  | error e => exact hq

theorem Safe.orUndefined {p : Program A μ ε α} {Q : Except ε (Option α) → μ × ω → Prop}
    (h : Safe c (fun | .ok a => Q (.ok (some a)) | .error _ => Q (.ok none)) p s) :
    Safe c Q p.orUndefined s := by
  refine Safe.tryCatch (Q := fun | .ok a => Q (.ok a) | .error _ => Q (.ok none)) ?_ ?_ ?_
  · exact Safe.bind h (fun a s hs => hs) (fun e s hs => hs)
  · exact fun a s hs => hs
  · exact fun e s hs => hs

/-! ## The contract that asks for nothing -/

/-- Anything may happen and nothing has to hold: what is proved under it is true of every end of
the program. -/
def Contract.any (A : Api) (μ ω ε : Type) : Contract A μ ω ε where
  rely _ _ := True
  rely_refl _ := trivial
  rely_trans _ _ _ _ _ := trivial
  served _ _ _ _ := True
  pending _ _ := True
  ready _ := True
  pending_ready _ _ _ := trivial

theorem safe_any (p : Program A μ ε α) (s : μ × ω) :
    Safe (Contract.any A μ ω ε) (fun _ _ => True) p s := by
  induction p generalizing s with
  | pure | throw | unfinished => trivial
  | read k ih => exact ih _ s
  | write m k ih => exact ih _
  | await r k ih => exact fun _ _ => ⟨trivial, fun x _ _ t _ => ⟨trivial, ih x t⟩⟩

/-! ## What a program has done -/

/-- The contract of a program by itself: the state notes its requests with their answers, and a
request is allowed in a state. -/
def Contract.noting {γ : Type} (note : γ → (r : A.Request) → Except ε (A.Answer r) → γ)
    (allowed : A.Request → γ → Prop) : Contract A μ γ ε where
  rely s t := t.2 = s.2
  rely_refl _ := rfl
  rely_trans _ _ _ h h' := h'.trans h
  served r s x t := t.2 = note s.2 r x
  pending r s := allowed r s.2
  ready _ := True
  pending_ready _ _ _ := trivial

section
variable {γ : Type} {note : γ → (r : A.Request) → Except ε (A.Answer r) → γ}
  {allowed : A.Request → γ → Prop}

theorem Safe.noting_request {r : A.Request} {s : μ × γ} {Q : Except ε (A.Answer r) → μ × γ → Prop}
    (hr : allowed r s.2) (hQ : ∀ x m, Q x (m, note s.2 r x)) :
    Safe (.noting note allowed) Q (Program.request r : Program A μ ε _) s := by
  apply Safe.request
  intro s' hs'
  have hs' : s'.2 = s.2 := hs'
  refine ⟨show allowed r s'.2 from hs' ▸ hr, fun x t ht t' ht' => ⟨trivial, ?_⟩⟩
  have ht : t.2 = note s'.2 r x := ht
  have ht' : t'.2 = t.2 := ht'
  have hnote : t' = (t'.1, note s.2 r x) := by rw [← hs', ← ht, ← ht']
  rw [hnote]
  exact hQ x t'.1

/-- The rule of a program that begins with a request. -/
theorem Safe.noting_bind {r : A.Request} {f : A.Answer r → Program A μ ε α} {s : μ × γ}
    {Q : Except ε α → μ × γ → Prop} (hr : allowed r s.2)
    (hok : ∀ a m, Safe (.noting note allowed) Q (f a) (m, note s.2 r (.ok a)))
    (herr : ∀ e m, Q (.error e) (m, note s.2 r (.error e))) :
    Safe (.noting note allowed) Q (Program.request r >>= f) s := by
  refine Safe.bind (Q := fun x t => ∃ m, t = (m, note s.2 r x))
    (Safe.noting_request hr fun x m => ⟨m, rfl⟩) ?_ ?_
  · rintro a _ ⟨m, rfl⟩
    exact hok a m
  · rintro e _ ⟨m, rfl⟩
    exact herr e m

theorem Safe.noting_pending {r : A.Request} {k : Except ε (A.Answer r) → Program A μ ε α}
    {s : μ × γ} {Q : Except ε α → μ × γ → Prop}
    (h : Safe (.noting note allowed) Q (.await r k) s) : allowed r s.2 :=
  (h s rfl).1

theorem Safe.noting_served {r : A.Request} {k : Except ε (A.Answer r) → Program A μ ε α}
    {s : μ × γ} {Q : Except ε α → μ × γ → Prop}
    (h : Safe (.noting note allowed) Q (.await r k) s) (x : Except ε (A.Answer r)) :
    Safe (.noting note allowed) Q (k x) (s.1, note s.2 r x) :=
  ((h s rfl).2 x (s.1, note s.2 r x) rfl _ rfl).2

end

/-! ## Contracts with notes -/

/-- The same contract, and a record in which every answer is noted. -/
def Contract.noted {γ : Type} (c : Contract A μ ω ε)
    (note : γ → (r : A.Request) → Except ε (A.Answer r) → γ) : Contract A μ (ω × γ) ε where
  rely s t := c.rely (s.1, s.2.1) (t.1, t.2.1) ∧ t.2.2 = s.2.2
  rely_refl s := ⟨c.rely_refl (s.1, s.2.1), rfl⟩
  rely_trans _ _ _ h h' := ⟨c.rely_trans _ _ _ h.1 h'.1, h'.2.trans h.2⟩
  served r s x t := c.served r (s.1, s.2.1) x (t.1, t.2.1) ∧ t.2.2 = note s.2.2 r x
  pending r s := c.pending r (s.1, s.2.1)
  ready s := c.ready (s.1, s.2.1)
  pending_ready _ _ h := c.pending_ready _ _ h

section
variable {γ : Type} {note : γ → (r : A.Request) → Except ε (A.Answer r) → γ}

theorem Safe.noted {p : Program A μ ε α} {s : μ × ω} (h : Safe c Q p s) (g : γ) :
    Safe (c.noted note) (fun x t => Q x (t.1, t.2.1)) p (s.1, s.2, g) := by
  induction p generalizing s g with
  | pure a => exact h
  | throw e => exact h
  | read k ih => exact ih _ h g
  | write m k ih => exact ih h g
  | await r k ih =>
    rintro s' ⟨hs', _⟩
    obtain ⟨hp, hk⟩ := h _ hs'
    refine ⟨hp, ?_⟩
    rintro x t ⟨ht, _⟩ t' ⟨ht', _⟩
    obtain ⟨hr, hsafe⟩ := hk x _ ht _ ht'
    exact ⟨hr, ih x hsafe t'.2.2⟩
  | unfinished => trivial

/-- What is proved with a record holds without it. -/
theorem Safe.of_noted {p : Program A μ ε α} {s : μ × ω} {g : γ} {R : Except ε α → μ × ω × γ → Prop}
    (h : Safe (c.noted note) R p (s.1, s.2, g)) (hR : ∀ x t g, R x (t.1, t.2, g) → Q x t) :
    Safe c Q p s := by
  induction p generalizing s g with
  | pure a => exact hR _ _ _ h
  | throw e => exact hR _ _ _ h
  | read k ih => exact ih _ h
  | write m k ih => exact ih (s := (m, s.2)) h
  | await r k ih =>
    intro s' hs'
    obtain ⟨hp, hk⟩ := h (s'.1, s'.2, g) ⟨hs', rfl⟩
    refine ⟨hp, fun x t ht t' ht' => ?_⟩
    obtain ⟨hr, hsafe⟩ := hk x (t.1, t.2, note g r x) ⟨ht, rfl⟩ (t'.1, t'.2, note g r x) ⟨ht', rfl⟩
    exact ⟨hr, ih x hsafe⟩
  | unfinished => trivial

/-- The answer of a request is what is noted last. -/
theorem Safe.noted_request {r : A.Request} {s : μ × ω} {Q : Except ε (A.Answer r) → μ × ω → Prop}
    (h : Safe c Q (Program.request r : Program A μ ε _) s) (g : γ) :
    Safe (c.noted note) (fun x t => Q x (t.1, t.2.1) ∧ t.2.2 = note g r x)
      (Program.request r : Program A μ ε _) (s.1, s.2, g) := by
  apply Safe.request
  rintro ⟨m, w, g'⟩ ⟨hs', hg⟩
  obtain rfl : g' = g := hg
  obtain ⟨hp, hk⟩ := h _ hs'
  refine ⟨hp, ?_⟩
  rintro x t ⟨ht, hnote⟩ t' ⟨ht', hkept⟩
  obtain ⟨hr, hsafe⟩ := hk x _ ht _ ht'
  refine ⟨hr, ?_, hkept.trans hnote⟩
  cases x with
  | ok a => exact hsafe
  | error e => exact hsafe

end

/-! ## The requests that a program sends -/

/-- However it is answered, the program sends only requests of this kind. -/
def Program.Sends (P : A.Request → Prop) : Program A μ ε α → Prop
  | .pure _ => True
  | .throw _ => True
  | .read k => ∀ m, (k m).Sends P
  | .write _ k => k.Sends P
  | .await r k => P r ∧ ∀ x, (k x).Sends P
  | .unfinished => True

namespace Program.Sends

variable {P : A.Request → Prop} {p : Program A μ ε α}

theorem mono {P' : A.Request → Prop} (hp : p.Sends P) (hP : ∀ r, P r → P' r) : p.Sends P' := by
  induction p with
  | pure | throw | unfinished => trivial
  | read k ih => exact fun m => ih m (hp m)
  | write m k ih => exact ih hp
  | await r k ih => exact ⟨hP r hp.1, fun x => ih x (hp.2 x)⟩

theorem pure (a : α) : (Pure.pure a : Program A μ ε α).Sends P := trivial

theorem throw (e : ε) : (MonadExcept.throw e : Program A μ ε α).Sends P := trivial

theorem request {r : A.Request} (hr : P r) : (Program.request r : Program A μ ε _).Sends P := by
  refine ⟨hr, fun x => ?_⟩
  cases x with
  | ok => trivial
  | error => trivial

theorem modifies (g : μ → μ) : (modify g : Program A μ ε Unit).Sends P := fun _ => trivial

theorem bind {f : α → Program A μ ε β} (hp : p.Sends P) (hf : ∀ a, (f a).Sends P) :
    (p >>= f).Sends P := by
  change (p.bind f).Sends P
  induction p with
  | pure a => exact hf a
  | throw e => trivial
  | read k ih => exact fun m => ih m (hp m)
  | write m k ih => exact ih hp
  | await r k ih => exact ⟨hp.1, fun x => ih x (hp.2 x)⟩
  | unfinished => trivial

theorem get_bind {f : μ → Program A μ ε α} (hf : ∀ m, (f m).Sends P) :
    (MonadState.get >>= f).Sends P := hf

theorem tryCatch {f : ε → Program A μ ε α} (hp : p.Sends P) (hf : ∀ e, (f e).Sends P) :
    (p.tryCatch f).Sends P := by
  induction p with
  | pure a => trivial
  | throw e => exact hf e
  | read k ih => exact fun m => ih m (hp m)
  | write m k ih => exact ih hp
  | await r k ih => exact ⟨hp.1, fun x => ih x (hp.2 x)⟩
  | unfinished => trivial

theorem orUndefined (hp : p.Sends P) : p.orUndefined.Sends P :=
  tryCatch (hp.bind fun _ => trivial) fun _ => trivial

theorem settle (hp : p.Sends P) (m : μ) : (p.settle m).1.Sends P := by
  induction p generalizing m with
  | read k ih => exact ih m (hp m) m
  | write m' k ih => exact ih hp m'
  | pure | throw | await | unfinished => exact hp

end Program.Sends

/-! ## The memories that a program writes -/

/-- As long as it reads only memories with the property, the program writes only such. -/
def Program.Keeps (P : μ → Prop) : Program A μ ε α → Prop
  | .pure _ => True
  | .throw _ => True
  | .read k => ∀ m, P m → (k m).Keeps P
  | .write m k => P m ∧ k.Keeps P
  | .await _ k => ∀ x, (k x).Keeps P
  | .unfinished => True

namespace Program.Keeps

variable {P : μ → Prop} {p : Program A μ ε α}

theorem pure (a : α) : (Pure.pure a : Program A μ ε α).Keeps P := trivial

theorem throw (e : ε) : (MonadExcept.throw e : Program A μ ε α).Keeps P := trivial

theorem request (r : A.Request) : (Program.request r : Program A μ ε _).Keeps P := by
  intro x
  cases x with
  | ok => trivial
  | error => trivial

theorem modifies {g : μ → μ} (hg : ∀ m, P m → P (g m)) : (modify g : Program A μ ε Unit).Keeps P :=
  fun m hm => ⟨hg m hm, trivial⟩

theorem bind {f : α → Program A μ ε β} (hp : p.Keeps P) (hf : ∀ a, (f a).Keeps P) :
    (p >>= f).Keeps P := by
  change (p.bind f).Keeps P
  induction p with
  | pure a => exact hf a
  | throw e => trivial
  | read k ih => exact fun m hm => ih m (hp m hm)
  | write m k ih => exact ⟨hp.1, ih hp.2⟩
  | await r k ih => exact fun x => ih x (hp x)
  | unfinished => trivial

theorem get_bind {f : μ → Program A μ ε α} (hf : ∀ m, P m → (f m).Keeps P) :
    (MonadState.get >>= f).Keeps P := hf

theorem tryCatch {f : ε → Program A μ ε α} (hp : p.Keeps P) (hf : ∀ e, (f e).Keeps P) :
    (p.tryCatch f).Keeps P := by
  induction p with
  | pure a => trivial
  | throw e => exact hf e
  | read k ih => exact fun m hm => ih m (hp m hm)
  | write m k ih => exact ⟨hp.1, ih hp.2⟩
  | await r k ih => exact fun x => ih x (hp x)
  | unfinished => trivial

theorem orUndefined (hp : p.Keeps P) : p.orUndefined.Keeps P :=
  tryCatch (hp.bind fun _ => trivial) fun _ => trivial

theorem settle {m : μ} (hp : p.Keeps P) (hm : P m) :
    (p.settle m).1.Keeps P ∧ P (p.settle m).2 := by
  induction p generalizing m with
  | read k ih => exact ih m (hp m hm) hm
  | write m' k ih => exact ih hp.2 hp.1
  | pure | throw | await | unfinished => exact ⟨hp, hm⟩

/-- A program that first brings the property about. -/
theorem settle_modify {g : μ → μ} {f : Unit → Program A μ ε α} (hf : (f ()).Keeps P)
    (hg : P (g m)) :
    ((modify g >>= f).settle m).1.Keeps P ∧ P ((modify g >>= f).settle m).2 :=
  hf.settle hg

end Program.Keeps

/-- A program that sends only requests that may be pending at any time is safe. -/
theorem Safe.of_sends {P : A.Request → Prop} {p : Program A μ ε α}
    (hpending : ∀ r s, P r → c.pending r s)
    (hready : ∀ s, c.ready s) (hQ : ∀ x s, Q x s) (hp : p.Sends P) (s : μ × ω) : Safe c Q p s := by
  induction p generalizing s with
  | pure a => exact hQ _ _
  | throw e => exact hQ _ _
  | read k ih => exact ih _ (hp _) s
  | write m k ih => exact ih hp _
  | await r k ih =>
    exact fun s' _ => ⟨hpending r s' hp.1, fun x t _ t' _ => ⟨hready t', ih x (hp.2 x) t'⟩⟩
  | unfinished => trivial

/-- A program keeps an invariant of the world that its requests keep. -/
theorem Safe.keeping {c' : Contract A μ ω ε} {P : A.Request → Prop} {I : ω → Prop}
    {p : Program A μ ε α} (h : Safe c Q p s) (hp : p.Sends P) (hI : I s.2)
    (hrely : ∀ s t, c'.rely s t → c.rely s t ∧ (I s.2 → I t.2))
    (hserved : ∀ r s x t, P r → I s.2 → c'.served r s x t → c.served r s x t ∧ I t.2)
    (hpending : ∀ r s, c.pending r s → I s.2 → c'.pending r s)
    (hready : ∀ s, c.ready s → I s.2 → c'.ready s) : Safe c' (fun x t => Q x t ∧ I t.2) p s := by
  induction p generalizing s with
  | pure | throw => exact ⟨h, hI⟩
  | read k ih => exact ih _ h (hp _) hI
  | write m k ih => exact ih h hp hI
  | await r k ih =>
    intro s' hs'
    obtain ⟨hrs, his⟩ := hrely s s' hs'
    obtain ⟨hr, hk⟩ := h s' hrs
    refine ⟨hpending r s' hr (his hI), fun x t ht t' ht' => ?_⟩
    obtain ⟨hserve, hIt⟩ := hserved r s' x t hp.1 (his hI) ht
    obtain ⟨hrt, hit⟩ := hrely t t' ht'
    obtain ⟨hrdy, hsafe⟩ := hk x t hserve t' hrt
    exact ⟨hready t' hrdy (hit hIt), ih x hsafe (hp.2 x) (hit hIt)⟩
  | unfinished => trivial

/-- A program leaves alone what its requests leave alone. -/
theorem Safe.noting_sends {γ : Type} {note : γ → (r : A.Request) → Except ε (A.Answer r) → γ}
    {allowed : A.Request → γ → Prop} {P : A.Request → Prop} {p : Program A μ ε α} {g : γ}
    (hallowed : ∀ r, P r → allowed r g) (hnote : ∀ r x, P r → note g r x = g)
    (hp : p.Sends P) (m : μ) :
    Safe (.noting note allowed) (fun _ t => t.2 = g) p (m, g) := by
  induction p generalizing m with
  | pure | throw => rfl
  | read k ih => exact ih _ (hp _) m
  | write m' k ih => exact ih hp m'
  | await r k ih =>
    rintro ⟨m', g'⟩ rfl
    refine ⟨hallowed r hp.1, ?_⟩
    rintro x ⟨_, _⟩ rfl ⟨_, _⟩ rfl
    refine ⟨trivial, ?_⟩
    rw [hnote r x hp.1]
    exact ih x (hp.2 x) _
  | unfinished => trivial

/-! ## Requests and memories together -/

/-- As long as it reads only memories with the property `M`, the program sends only requests of the
kind `P` and writes only memories with the property. -/
def Program.Confined (P : A.Request → Prop) (M : μ → Prop) : Program A μ ε α → Prop
  | .pure _ => True
  | .throw _ => True
  | .read k => ∀ m, M m → (k m).Confined P M
  | .write m k => M m ∧ k.Confined P M
  | .await r k => P r ∧ ∀ x, (k x).Confined P M
  | .unfinished => True

namespace Program.Confined

variable {P : A.Request → Prop} {M : μ → Prop} {p : Program A μ ε α}

theorem mono {P' : A.Request → Prop} (hp : p.Confined P M) (hP : ∀ r, P r → P' r) :
    p.Confined P' M := by
  induction p with
  | pure | throw | unfinished => trivial
  | read k ih => exact fun m hm => ih m (hp m hm)
  | write m k ih => exact ⟨hp.1, ih hp.2⟩
  | await r k ih => exact ⟨hP r hp.1, fun x => ih x (hp.2 x)⟩

/-- Every program is confined where all requests and memories will do. -/
theorem all (p : Program A μ ε α) : p.Confined (fun _ => True) fun _ => True := by
  induction p with
  | pure | throw | unfinished => trivial
  | read k ih => exact fun m _ => ih m
  | write m k ih => exact ⟨trivial, ih⟩
  | await r k ih => exact ⟨trivial, ih⟩

/-- Where any memory will do, this is about the requests only. -/
theorem sends (hp : p.Confined P fun _ => True) : p.Sends P := by
  induction p with
  | pure | throw | unfinished => trivial
  | read k ih => exact fun m => ih m (hp m trivial)
  | write m k ih => exact ih hp.2
  | await r k ih => exact ⟨hp.1, fun x => ih x (hp.2 x)⟩

theorem keeps (hp : p.Confined P M) : p.Keeps M := by
  induction p with
  | pure | throw | unfinished => trivial
  | read k ih => exact fun m hm => ih m (hp m hm)
  | write m k ih => exact ⟨hp.1, ih hp.2⟩
  | await r k ih => exact fun x => ih x (hp.2 x)

theorem pure (a : α) : (Pure.pure a : Program A μ ε α).Confined P M := trivial

theorem throw (e : ε) : (MonadExcept.throw e : Program A μ ε α).Confined P M := trivial

theorem request {r : A.Request} (hr : P r) :
    (Program.request r : Program A μ ε _).Confined P M := by
  refine ⟨hr, fun x => ?_⟩
  cases x with
  | ok => trivial
  | error => trivial

theorem modifies {g : μ → μ} (hg : ∀ m, M m → M (g m)) :
    (modify g : Program A μ ε Unit).Confined P M :=
  fun m hm => ⟨hg m hm, trivial⟩

theorem bind {f : α → Program A μ ε β} (hp : p.Confined P M) (hf : ∀ a, (f a).Confined P M) :
    (p >>= f).Confined P M := by
  change (p.bind f).Confined P M
  induction p with
  | pure a => exact hf a
  | throw e => trivial
  | read k ih => exact fun m hm => ih m (hp m hm)
  | write m k ih => exact ⟨hp.1, ih hp.2⟩
  | await r k ih => exact ⟨hp.1, fun x => ih x (hp.2 x)⟩
  | unfinished => trivial

theorem get_bind {f : μ → Program A μ ε α} (hf : ∀ m, M m → (f m).Confined P M) :
    (MonadState.get >>= f).Confined P M := hf

theorem tryCatch {f : ε → Program A μ ε α} (hp : p.Confined P M) (hf : ∀ e, (f e).Confined P M) :
    (p.tryCatch f).Confined P M := by
  induction p with
  | pure a => trivial
  | throw e => exact hf e
  | read k ih => exact fun m hm => ih m (hp m hm)
  | write m k ih => exact ⟨hp.1, ih hp.2⟩
  | await r k ih => exact ⟨hp.1, fun x => ih x (hp.2 x)⟩
  | unfinished => trivial

theorem orUndefined (hp : p.Confined P M) : p.orUndefined.Confined P M :=
  tryCatch (hp.bind fun _ => trivial) fun _ => trivial

end Program.Confined

/-- A confined program keeps what its requests and the rest of the system keep. -/
theorem Safe.of_confined {P : A.Request → Prop} {M : μ → Prop} {I : ω → Prop} {p : Program A μ ε α}
    {s : μ × ω} (hp : p.Confined P M) (hM : M s.1) (hI : I s.2)
    (hrely : ∀ s t, c.rely s t → M s.1 → I s.2 → M t.1 ∧ I t.2)
    (hserved : ∀ r s x t, P r → c.served r s x t → M s.1 → I s.2 → M t.1 ∧ I t.2)
    (hpending : ∀ r s, P r → I s.2 → c.pending r s) (hready : ∀ s, I s.2 → c.ready s) :
    Safe c (fun _ t => M t.1 ∧ I t.2) p s := by
  induction p generalizing s with
  | pure | throw => exact ⟨hM, hI⟩
  | read k ih => exact ih _ (hp _ hM) hM hI
  | write m k ih => exact ih hp.2 hp.1 hI
  | await r k ih =>
    intro s' hs'
    obtain ⟨hM', hI'⟩ := hrely s s' hs' hM hI
    refine ⟨hpending r s' hp.1 hI', fun x t ht t' ht' => ?_⟩
    obtain ⟨hMt, hIt⟩ := hserved r s' x t hp.1 ht hM' hI'
    obtain ⟨hMt, hIt⟩ := hrely t t' ht' hMt hIt
    exact ⟨hready t' hIt, ih x (hp.2 x) hMt hIt⟩
  | unfinished => trivial

end Tonatiuh.Async
