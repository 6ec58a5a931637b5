import Tonatiuh.Database.AccessContext

/-! What a step of the API and its database does.

A step changes a request, a transaction, or both at the end of a transaction. `Effect` says once
which of these it is and under which conditions, and `System.effect` is the only place where the
steps are unfolded. -/

namespace Tonatiuh.Database

open Retention (Role)
open Transition

/-- The settings that a transaction has before its queries, and the query of a middleware. -/
inductive Transaction.Progress (d : Deployment) (s : System) (t : Transaction) :
    Transaction → Prop where
  | role {role : Option String} (hstage : t.stage = .begun)
      (hrole : d.databaseRole.filter (· ≠ "") = none ∨ role ≠ none) :
    t.Progress d s { t with stage := .roleSet, role }
  | context (hstage : t.stage = .roleSet) (hr : s.requests[t.requestId]? = some r) :
    t.Progress d s { t with stage := .ready, settings := r.context.settings d.processScope }
  | membership (hstage : t.stage = .ready) (hpurpose : t.purpose = .membership payload)
      (hsub : d.cast payload.sub = some user) (horg : d.cast payload.org = some organization) :
    t.Progress d s
      { t with purpose := .membershipChecked ((s.directory.role user organization).map fun role =>
      { userId := payload.sub, organizationId := payload.org, role }) }
  | admin (hstage : t.stage = .ready) (hpurpose : t.purpose = .admin userId)
    (hcast : d.cast userId = some user) :
    t.Progress d s { t with purpose := .adminChecked userId (s.directory.isAdmin user) }
  | failed : t.Progress d s { t with stage := .failed }

/-- The request of a middleware goes on, or is rejected. -/
inductive Transaction.Answers (t : Transaction) (r : Request) : Request → Prop where
  | auth (hpurpose : t.purpose = .membershipChecked (some auth)) :
    t.Answers r { r with stage := .running, pending := r.pending.tail, auth := some auth }
  | admin (hpurpose : t.purpose = .adminChecked userId true) :
    t.Answers r { r with stage := .running, pending := r.pending.tail
                         context := { r.context with platformAdmin := true } }
  | rejected (hpurpose : t.purpose ≠ .handler) : t.Answers r { r with stage := .rejected }

/-- What is committed at the end of a transaction, if anything. -/
def Transaction.Leaves (t : Transaction) (s : System) (e : Event) (c : Nat)
    (rows : Key → Option Row) : Prop :=
  rows = s.rows ∨ (t.stage = .ready ∧ rows =
    t.row s.rows ∧ (e = .commit c ∨ e = .disconnect c true))

inductive Effect (d : Deployment) (s : System) (e : Event) : System → Prop where
  | refl : Effect d s e s
  | receive (authorization : Option String) (route : List Middleware) :
    Effect d s e { s with requests := s.requests ++ [{ authorization, route, pending := route }] }
  | change (directory : Directory) : Effect d s e { s with directory }
  | service {i : Nat} (hr : s.requests[i]? = some r) (hstage : r.stage = .running)
      (hpending : r.pending = .runWithServiceDatabaseContext :: rest) :
    Effect d s e (s.setRequest i
      { r with pending := rest, context := { r.context with service := true } })
  | reject {i : Nat} (hr : s.requests[i]? = some r)
    (hstage : r.stage = .running) (hpending : r.pending ≠ []) :
    Effect d s e (s.reject i r)
  | authenticate {i c : Nat} (hr : s.requests[i]? = some r) (hstage : r.stage = .running)
      (hpending : r.pending = .authenticate :: rest) (hpayload : r.payload d = some payload)
      (hc : s.connections[c]? = some (Connection.idle settings)) :
    Effect d s e ((s.setRequest i { r with
      stage := .waiting c
      context := { r.context with organizationId := some payload.org,
                                  userId := some payload.sub } }).setConnection c
        (.busy { requestId := i, purpose := .membership payload, settings }))
  | requirePlatformAdmin {i c : Nat} (hr : s.requests[i]? = some r) (hstage : r.stage = .running)
      (hpending : r.pending = .requirePlatformAdmin :: rest) (hauth : r.auth = some auth)
      (hc : s.connections[c]? = some (Connection.idle settings)) :
    Effect d s e ((s.setRequest i { r with stage := .waiting c }).setConnection c
      (.busy { requestId := i, purpose := .admin auth.userId, settings }))
  | handle {i c : Nat} (hr : s.requests[i]? = some r)
    (hstage : r.stage = .running) (hpending : r.pending = [])
      (hc : s.connections[c]? = some (Connection.idle settings)) :
    Effect d s e (s.setConnection c (.busy { requestId := i, purpose := .handler, settings }))
  | progress {c : Nat} (hc : s.connections[c]? = some (Connection.busy t)) (h : t.Progress d s t') :
    Effect d s e (s.setTransaction c t')
  | read {c : Nat} (hc : s.connections[c]? = some (Connection.busy t)) (hstage : t.stage = .ready)
      (hpurpose : t.purpose = .handler) (hrow : d.permits t row.owner = some true) :
    Effect d s e { s with accesses := s.accesses ++ [{ requestId := t.requestId, row }] }
  | write {c : Nat} (hc : s.connections[c]? = some (Connection.busy t)) (hstage : t.stage = .ready)
      (hpurpose : t.purpose = .handler)
        (hunheld : isUnheld Connection.keys s.connections c key = true)
      (haccessed : ∀ a ∈ accessed, d.permits t a.owner = some true)
      (hnew : ∀ a, row = some a → d.permits t a.owner = some true)
      (hold : ∀ a, t.row s.rows key = some a → d.permits t a.owner = some true) :
    Effect d s e (s.write c t key row accessed)
  | finish {c : Nat} (hc : s.connections[c]? = some (Connection.busy t))
    (hrows : t.Leaves s e c rows) :
    Effect d s e { s.setConnection c (.idle settings) with rows }
  | answer {c : Nat} (hc : s.connections[c]? = some (Connection.busy t))
    (hrows : t.Leaves s e c rows)
      (hr : s.requests[t.requestId]? = some r) (h : t.Answers r r') :
    Effect d s e { (s.setRequest t.requestId r').setConnection c (.idle settings) with rows }
  | reconnect {c : Nat} (hc : s.connections[c]? = some (Connection.idle settings)) :
    Effect d s e (s.setConnection c (.idle {}))

namespace System

variable {d : Deployment} {s s' : System} {t : Transaction} {i c : Nat} {e : Event}

theorem transaction?_eq_some : s.transaction? c = some t ↔ s.connections[c]? = some (.busy t) := by
  rw [transaction?]
  split
  next heq => rw [heq]; simp
  next hne => exact ⟨fun h => (by cases h), fun h => by rw [hne] at h; cases h⟩
  next hne => exact ⟨fun h => (by cases h), fun h => by rw [hne] at h; cases h⟩

theorem begin_eq_some {purpose : Purpose} (h : s.begin i c purpose = some s') :
    ∃ settings, s.connections[c]? = some (.idle settings) ∧
      s' = s.setConnection c (.busy { requestId := i, purpose, settings }) := by
  rw [begin] at h
  split at h
  next settings heq => exact ⟨settings, heq, (Option.some.inj h).symm⟩
  next => cases h
  next => cases h

theorem next_effect (h : s.next d i c = some s') : Effect d s e s' := by
  rw [next] at h
  obtain ⟨r, hr, h⟩ := Option.bind_eq_some_iff.mp h
  split at h
  next hstage hpending =>
    cases h
    exact .service hr hstage hpending
  next hstage hpending =>
    split at h
    next =>
      cases h
      exact .reject hr hstage (hpending ▸ List.cons_ne_nil _ _)
    next hpayload =>
      obtain ⟨settings, hc, rfl⟩ := begin_eq_some h
      exact .authenticate hr hstage hpending hpayload hc
  next hstage hpending =>
    split at h
    next =>
      cases h
      exact .reject hr hstage (hpending ▸ List.cons_ne_nil _ _)
    next hauth =>
      obtain ⟨settings, hc, rfl⟩ := begin_eq_some h
      exact .requirePlatformAdmin hr hstage hpending hauth hc
  next => cases h

theorem handle_effect (h : s.handle i c = some s') : Effect d s e s' := by
  rw [handle] at h
  obtain ⟨r, hr, h⟩ := Option.bind_eq_some_iff.mp h
  split at h
  next hcond =>
    obtain ⟨settings, hc, rfl⟩ := begin_eq_some h
    exact .handle hr hcond.1 hcond.2 hc
  next => cases h

theorem setRole_effect (h : s.setRole d c = some s') : Effect d s e s' := by
  rw [setRole] at h
  obtain ⟨t, ht, h⟩ := Option.bind_eq_some_iff.mp h
  have hc := transaction?_eq_some.mp ht
  split at h
  next hstage =>
    cases h
    split
    next hrole => exact .progress hc (.role hstage (.inl hrole))
    next role _ =>
      split
      · exact .progress hc (.role hstage (.inr (Option.some_ne_none role)))
      · exact .progress hc .failed
  next => cases h

theorem applyDatabaseContext_effect (h : s.applyDatabaseContext d c = some s') :
    Effect d s e s' := by
  rw [applyDatabaseContext] at h
  obtain ⟨t, ht, h⟩ := Option.bind_eq_some_iff.mp h
  obtain ⟨r, hr, h⟩ := Option.bind_eq_some_iff.mp h
  split at h
  next hstage =>
    cases h
    exact .progress (transaction?_eq_some.mp ht) (.context hstage hr)
  next => cases h

theorem check_effect (h : s.check d c = some s') : Effect d s e s' := by
  rw [check] at h
  obtain ⟨t, ht, h⟩ := Option.bind_eq_some_iff.mp h
  have hc := transaction?_eq_some.mp ht
  split at h
  next hstage =>
    split at h
    next hpurpose =>
      cases h
      split
      next hsub horg => exact .progress hc (.membership hstage hpurpose hsub horg)
      next => exact .progress hc .failed
    next hpurpose =>
      cases h
      split
      next hcast => exact .progress hc (.admin hstage hpurpose hcast)
      next => exact .progress hc .failed
    next => cases h
  next => cases h

theorem execute_effect {statement : Statement} (h : s.execute d c statement = some s') :
    Effect d s e s' := by
  rw [execute] at h
  obtain ⟨t, ht, h⟩ := Option.bind_eq_some_iff.mp h
  have hc := transaction?_eq_some.mp ht
  split at h
  next hcond =>
    obtain ⟨hstage, hpurpose⟩ := hcond
    cases statement with
    | select key =>
      dsimp only at h
      split at h
      next => cases h; exact .refl
      next =>
        split at h
        next => cases h; exact .progress hc .failed
        next => cases h; exact .refl
        next hrow => cases h; exact .read hc hstage hpurpose hrow
    | insert key row =>
      dsimp only at h
      split at h
      next hunheld =>
        split at h
        next hinsert =>
          cases h
          have hnone : t.row s.rows key = none := Option.isNone_iff_eq_none.mp hinsert.1
          refine .write hc hstage hpurpose hunheld (fun a ha => ?_) (fun a ha => ?_) fun a ha => ?_
          · rw [List.mem_singleton.mp ha]; exact hinsert.2
          · rw [← Option.some.inj ha]; exact hinsert.2
          · rw [hnone] at ha; cases ha
        next => cases h; exact .progress hc .failed
      next => cases h
    | update key row =>
      dsimp only at h
      split at h
      next hunheld =>
        split at h
        next => cases h; exact .refl
        next old hold =>
          split at h
          next => cases h; exact .progress hc .failed
          next => cases h; exact .refl
          next holdPermitted =>
            split at h
            next hnew =>
              cases h
              refine .write hc hstage hpurpose hunheld
                (fun a ha => ?_) (fun a ha => ?_) fun a ha => ?_
              · rcases List.mem_cons.mp ha with rfl | ha
                · exact holdPermitted
                · rw [List.mem_singleton.mp ha]; exact hnew
              · rw [← Option.some.inj ha]; exact hnew
              · rw [hold] at ha; rw [← Option.some.inj ha]; exact holdPermitted
            next => cases h; exact .progress hc .failed
      next => cases h
    | delete key =>
      dsimp only at h
      split at h
      next hunheld =>
        split at h
        next => cases h; exact .refl
        next old hold =>
          split at h
          next => cases h; exact .progress hc .failed
          next => cases h; exact .refl
          next holdPermitted =>
            cases h
            refine .write hc hstage hpurpose hunheld (fun a ha => ?_) (fun a ha => by cases ha)
              fun a ha => ?_
            · rw [List.mem_singleton.mp ha]; exact holdPermitted
            · rw [hold] at ha; rw [← Option.some.inj ha]; exact holdPermitted
      next => cases h
  next => cases h

theorem commit_effect (h : s.commit c = some s') : Effect d s (.commit c) s' := by
  rw [commit] at h
  obtain ⟨t, ht, h⟩ := Option.bind_eq_some_iff.mp h
  obtain ⟨r, hr, h⟩ := Option.bind_eq_some_iff.mp h
  have hc := transaction?_eq_some.mp ht
  split at h
  next auth hstage hpurpose =>
    cases h
    have hrows : t.Leaves s (.commit c) c (t.row s.rows) := .inr ⟨hstage, rfl, .inl rfl⟩
    rw [hpurpose]
    cases auth with
    | none => exact .answer hc hrows hr (.rejected fun h => by rw [hpurpose] at h; cases h)
    | some auth => exact .answer hc hrows hr (.auth hpurpose)
  next userId isAdmin hstage hpurpose =>
    cases h
    have hrows : t.Leaves s (.commit c) c (t.row s.rows) := .inr ⟨hstage, rfl, .inl rfl⟩
    rw [hpurpose]
    cases isAdmin with
    | false => exact .answer hc hrows hr (.rejected fun h => by rw [hpurpose] at h; cases h)
    | true => exact .answer hc hrows hr (.admin hpurpose)
  next hstage hpurpose =>
    cases h
    rw [hpurpose]
    exact .finish hc (.inr ⟨hstage, rfl, .inl rfl⟩)
  next => cases h

/-- The end of a transaction that does not answer. -/
theorem abandon_effect {rows : Key → Option Row} {settings : Settings}
    (hc : s.connections[c]? = some (.busy t))
    (hrows : t.Leaves s e c rows) :
    Effect d s e { (s.abandon t).setConnection c (.idle settings) with rows } := by
  rw [abandon]
  split
  next => exact .finish hc hrows
  next => exact .finish hc hrows
  next r hr hne => exact .answer hc hrows hr (.rejected hne)

theorem rollback_effect (h : s.rollback c = some s') : Effect d s e s' := by
  rw [rollback] at h
  obtain ⟨t, ht, h⟩ := Option.bind_eq_some_iff.mp h
  split at h
  next =>
    cases h
    have hrows : (s.abandon t).rows = s.rows := by rw [abandon]; split <;> rfl
    exact abandon_effect (transaction?_eq_some.mp ht) (.inl hrows)
  next => cases h

theorem disconnect_effect {isCommitted : Bool} (h : s.disconnect c isCommitted = some s') :
    Effect d s (.disconnect c isCommitted) s' := by
  rw [disconnect] at h
  split at h
  next => cases h
  next hc => cases h; exact .reconnect hc
  next t hc =>
    cases h
    refine abandon_effect hc ?_
    split
    next hcommitted => exact .inr ⟨hcommitted.2, rfl, .inr (by rw [hcommitted.1])⟩
    next => exact .inl rfl

theorem effect (h : s.step d e = some s') : Effect d s e s' := by
  cases e with
  | receive authorization route => cases h; exact .receive authorization route
  | next i c => exact next_effect h
  | handle i c => exact handle_effect h
  | setRole c => exact setRole_effect h
  | applyDatabaseContext c => exact applyDatabaseContext_effect h
  | check c => exact check_effect h
  | execute c statement => exact execute_effect h
  | commit c => exact commit_effect h
  | fail c =>
    obtain ⟨t, ht, h⟩ := Option.bind_eq_some_iff.mp h
    cases h
    exact .progress (transaction?_eq_some.mp ht) .failed
  | rollback c => exact rollback_effect h
  | disconnect c isCommitted => exact disconnect_effect h
  | change directory => cases h; exact .change directory

end System

end Tonatiuh.Database
