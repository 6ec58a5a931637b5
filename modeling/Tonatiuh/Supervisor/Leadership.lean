import Tonatiuh.Supervisor.Steps

/-! Leadership.

A worker leads while its connection holds the advisory lock. `runLeader` asks for the lock once and
goes on when the connection is lost, and a worker that ends leaves its children running for a
while. -/

namespace Tonatiuh.Supervisor

open Transition

/-- No bot has running children of two workers. -/
def System.SingleOwner (s : System) : Prop :=
  ∀ c ∈ s.children, ∀ c' ∈ s.children, c.isAlive = true → c'.isAlive = true → c.botId = c'.botId →
    c.owner = c'.owner

instance (s : System) : Decidable s.SingleOwner := by
  unfold System.SingleOwner
  infer_instance

/-- No child of the instance runs. -/
def System.HasNoChild (s : System) (i : InstanceId) : Prop :=
  ∀ c ∈ s.children, c.owner = i → c.isAlive = false

instance (s : System) (i : InstanceId) : Decidable (s.HasNoChild i) := by
  unfold System.HasNoChild
  infer_instance

/-- A child is forked only by the worker that holds the lock, and the lock is given up, or its
connection or its worker ends, only when no child of the worker runs. -/
def System.KeepsLock (s : System) : Event → Prop
  | .serve i n (.ok _) =>
    match s.pending i n with
    | some (.fork ..) => s.lock = some i
    | some .advisoryUnlock => s.HasNoChild i
    | _ => True
  | .disconnect i | .crash i => s.HasNoChild i
  | _ => True

instance (s : System) (e : Event) : Decidable (s.KeepsLock e) := by
  unfold System.KeepsLock
  split
  · split <;> infer_instance
  all_goals infer_instance

/-- Whoever has a running child holds the lock. -/
def System.Led (s : System) : Prop :=
  ∀ c ∈ s.children, c.isAlive = true → s.lock = some c.owner

theorem System.Led.singleOwner {s : System} (h : s.Led) :
    s.SingleOwner := fun c hc c' hc' ha ha' _ =>
  Option.some.inj ((h c hc ha).symm.trans (h c' hc' ha'))

theorem System.Led.fewer {s s' : System} (h : s.Led) (hf : Fewer s.children s'.children)
    (hl : s'.lock = s.lock) : s'.Led := by
  intro c' hc' ha
  obtain ⟨n, hn⟩ := List.getElem?_of_mem hc'
  obtain ⟨c, hc, _, howner, halive⟩ := hf n c' hn
  rw [hl, howner]
  exact h c (List.mem_of_getElem? hc) (halive ha)

/-- The lock is free, and the worker that had it has no child. -/
theorem System.Led.unlock {s s' : System} (h : s.Led) (hf : Fewer s.children s'.children)
    (hi : ∀ i, s.lock = some i → s.HasNoChild i) : s'.Led := by
  intro c' hc' ha
  obtain ⟨n, hn⟩ := List.getElem?_of_mem hc'
  obtain ⟨c, hc, _, _, halive⟩ := hf n c' hn
  have hmem := List.mem_of_getElem? hc
  have hdead := hi _ (h c hmem (halive ha)) c hmem rfl
  rw [halive ha] at hdead
  cases hdead

/-- A worker takes a lock that is free, so nobody has a running child. -/
theorem complete_lock {a : Bool} {s s' : System} (h : s.complete bound i .tryAdvisoryLock choice =
    some (a, s')) : s'.lock = s.lock ∨ s.lock = none := by
  cases choice with
  | done =>
    cases hl : s.lock with
    | none => exact .inr rfl
    | some j =>
      simp only [System.complete, hl] at h
      cases h
      exact .inl hl
  | _ => cases h

theorem System.Led.complete {r : Request} {a : r.Answer} {s s' : System} (h : s.Led)
    (hs : s.complete bound i r choice = some (a, s'))
    (hfork : ∀ botId config, r = .fork botId config → s.lock = some i)
    (hunlock : r = .advisoryUnlock → s.HasNoChild i) : s'.Led := by
  have hu := complete_unchanged hs
  cases hr : r.isFork with
  | true =>
    obtain ⟨botId, config, rfl⟩ := Request.eq_fork hr
    obtain ⟨c, hc, _, howner, _⟩ := (complete_forked hs).child
    intro c' hc' ha
    rw [hu.lock rfl]
    rw [hc] at hc'
    obtain hc' | hc' := List.mem_append.mp hc'
    · exact h c' hc' ha
    · rw [List.mem_singleton.mp hc', howner]
      exact hfork botId config rfl
  | false =>
    have hf := complete_fewer hs hr
    by_cases hl : r.isLocking = false
    · exact h.fewer hf (hu.lock hl)
    cases r with
    | tryAdvisoryLock =>
      obtain hl | hl := complete_lock hs
      · exact h.fewer hf hl
      · exact h.unlock hf fun i hi => by cases hl.symm.trans hi
    | advisoryUnlock =>
      cases choice with
      | done =>
        cases hs
        by_cases hli : s.lock = some i
        · exact h.unlock hf fun j hj => by
            cases hli.symm.trans hj
            exact hunlock rfl
        · exact h.fewer hf (by rw [if_neg hli])
      | _ => cases hs
    | _ => exact absurd rfl hl

theorem System.Led.unlocked {s : System} (h : s.Led) (hi : s.HasNoChild i) :
    (s.unlocked i).Led := by
  unfold System.unlocked
  split
  next hl =>
    refine h.unlock (.refl _) fun j hj => ?_
    cases hl.symm.trans hj
    exact hi
  next => exact h

theorem System.Led.step {s s' : System} (h : s.Led) (hstep : s.step bound e = some s')
    (hk : s.KeepsLock e) : s'.Led := by
  cases System.step_cases hstep with
  | api hcall =>
    have hc := System.call_called hcall
    exact h.fewer (hc.children ▸ .refl _) hc.lock
  | boot => exact h
  | @serve i n r k history outcome x t hup ht hserve =>
    suffices ht : t.Led from ht
    obtain ⟨choice, a, rfl, _, hs⟩ | ⟨_, _, _, _, rfl⟩ | ⟨_, _, a, _, _, htr, hs⟩ :=
      serve_cases hserve
    · rw [System.KeepsLock, System.pending_eq ht] at hk
      refine h.complete hs (fun botId config hr => ?_) fun hr => ?_
      · subst hr
        exact hk
      · subst hr
        exact hk
    · exact h
    · refine h.complete hs (fun botId config hr => ?_) fun hr => ?_
      · subst hr
        cases htr
      · subst hr
        cases htr
  | disconnect hl => exact h.unlocked hk
  | crash hl => exact (h.unlocked hk).fewer (.refl _) rfl
  | other hp => exact h.fewer hp.fewer hp.lock

/-- In every run whose steps keep the lock, the running children of a bot belong to one worker. -/
theorem running_children_of_one_worker (bound : Nat) {s₀ s : System} (hs₀ : s₀.children = [])
    (h : Run (Meeting (Stepping (System.step bound)) fun s e _ => s.KeepsLock e) s₀ es s) :
    s.SingleOwner := by
  have hled : s₀.Led := fun c hc => by
    rw [hs₀] at hc
    cases hc
  exact (h.invariant (fun _ _ _ hl hstep => hl.step hstep.1 hstep.2) hled).singleOwner

/-! ## Two runs -/

theorem started_keepsLock : (execWhere (System.step 4) System.KeepsLock {} started).isSome := by
  decide +kernel

theorem running_children_of_one_worker_started :
    ((execWhere (System.step 4) System.KeepsLock {} started).get started_keepsLock).SingleOwner :=
  running_children_of_one_worker 4 rfl (Run.of_execWhere_get started_keepsLock)

/-- The leader loses the connection that holds the lock, and goes on; a second worker becomes the
leader and starts the bot again. -/
def takenOver : List Event :=
  started ++ [.disconnect 0, .boot 1] ++ served 1 0 8 ++ loading 1 0 ++ served 1 0 1

theorem takenOver_enabled : (exec (System.step 4) {} takenOver).isSome := by decide +kernel

/-- Two workers each have a running child of the bot. -/
theorem running_children_of_two_workers :
    ∃ s, Run (Stepping (System.step 4)) {} takenOver s ∧
      (s.children.map Child.isAlive) = [true, true] ∧
      (s.children.map Child.botId) = [0, 0] ∧ (s.children.map Child.owner) = [0, 1] ∧
      ¬ s.SingleOwner :=
  ⟨_, Run.of_exec_get takenOver_enabled, by decide +kernel, by decide +kernel, by decide +kernel,
    by decide +kernel⟩

end Tonatiuh.Supervisor
