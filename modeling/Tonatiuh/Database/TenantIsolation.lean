import Tonatiuh.Database.Entitlement
import Tonatiuh.Transition.Run

/-! The isolation of the organizations.

A row that a request of the API reads or writes belongs to the organization of its access token, in
which the user was an active member when the request was authenticated, or belongs to the user,
unless the request has a context of more access. What a request commits leaves the rows of everyone
else as they are. -/

namespace Tonatiuh.Database

open Retention (Role)
open Transition

variable {d : Deployment} {s s' : System} {r : Request} {t t' : Transaction} {c : Nat} {e : Event}
  {owner : Owner}

/-! ## Answers of the middlewares -/

/-- The user is an active member, with this role, of the organization, which is active. -/
def System.IsMember (d : Deployment) (s : System) (auth : Auth) : Prop :=
  ∃ user organization, d.cast auth.userId = some user ∧
    d.cast auth.organizationId = some organization ∧
    s.directory.role user organization = some auth.role

/-- The user is active, and an administrator of the platform. -/
def System.IsAdmin (d : Deployment) (s : System) (userId : String) : Prop :=
  ∃ user, d.cast userId = some user ∧ s.directory.isAdmin user = true

/-- The membership has been read. -/
def System.Knows (s : System) (auth : Auth) : Prop :=
  (∃ r ∈ s.requests, r.auth = some auth) ∨
    ∃ t, .busy t ∈ s.connections ∧ t.purpose = .membershipChecked (some auth)

def System.KnowsAdmin (s : System) (userId : String) : Prop :=
  (∃ r ∈ s.requests, r.context.platformAdmin = true ∧ ∃ auth, r.auth = some auth ∧
    auth.userId = userId) ∨
    ∃ t, .busy t ∈ s.connections ∧ t.purpose = .adminChecked userId true

theorem Transaction.Progress.purpose (h : t.Progress d s t') : t'.purpose = t.purpose ∨
    (∃ auth, t'.purpose = .membershipChecked auth ∧ ∀ a, auth = some a → s.IsMember d a) ∨
    ∃ userId isAdmin, t'.purpose =
      .adminChecked userId isAdmin ∧ (isAdmin = true → s.IsAdmin d userId) := by
  cases h with
  | role | context | failed => exact .inl rfl
  | membership hstage hpurpose hsub horg =>
    refine .inr (.inl ⟨_, rfl, fun a ha => ?_⟩)
    obtain ⟨role, hrole, rfl⟩ := Option.map_eq_some_iff.mp ha
    exact ⟨_, _, hsub, horg, hrole⟩
  | admin hstage hpurpose hcast => exact .inr (.inr ⟨_, _, rfl, fun hadmin => ⟨_, hcast, hadmin⟩⟩)

/-- A transaction after a step: it was there, it is new, or it has got an answer. -/
theorem Effect.mem_connections (h : Effect d s e s') (ht : .busy t ∈ s'.connections) :
    (∃ t₀, .busy t₀ ∈ s.connections ∧ t.purpose = t₀.purpose) ∨
      (∃ t₀, .busy t₀ ∈ s.connections ∧ t₀.Progress d s t) ∨
      (∀ auth, t.purpose ≠ .membershipChecked auth) ∧
        ∀ userId isAdmin, t.purpose ≠ .adminChecked userId isAdmin := by
  have hset {k : Connection} {c : Nat} (ht : .busy t ∈ s.connections.set c k) (hne : k ≠ .busy t) :
      ∃ t₀, .busy t₀ ∈ s.connections ∧ t.purpose = t₀.purpose :=
    ⟨t, (List.mem_or_eq_of_mem_set ht).resolve_right (Ne.symm hne), rfl⟩
  have hnew {t₁ : Transaction} {c : Nat} (ht : .busy t ∈ s.connections.set c (.busy t₁)) :
      (∃ t₀, .busy t₀ ∈ s.connections ∧ t.purpose = t₀.purpose) ∨ t = t₁ :=
    (List.mem_or_eq_of_mem_set ht).imp (fun h => ⟨t, h, rfl⟩) fun h => Connection.busy.inj h
  cases h with
  | refl | receive | change | service | reject | read => exact .inl ⟨t, ht, rfl⟩
  | authenticate | requirePlatformAdmin | handle =>
    rcases hnew ht with h | rfl
    · exact .inl h
    · exact .inr (.inr ⟨fun _ h => (by cases h), fun _ _ h => by cases h⟩)
  | progress hc hprogress =>
    rcases hnew ht with h | rfl
    · exact .inl h
    · exact .inr (.inl ⟨_, List.mem_of_getElem? hc, hprogress⟩)
  | write hc =>
    rcases hnew ht with h | rfl
    · exact .inl h
    · exact .inl ⟨_, List.mem_of_getElem? hc, rfl⟩
  | finish | answer | reconnect => exact .inl (hset ht fun h => by cases h)

/-- A request after a step: it has what it had, or an answer. -/
theorem Effect.mem_requests (h : Effect d s e s') (hr : r ∈ s'.requests) :
    (r.auth = none ∧ r.context.platformAdmin = false) ∨
      (∃ r₀ ∈ s.requests, r.auth = r₀.auth ∧ r.context.platformAdmin = r₀.context.platformAdmin) ∨
      ∃ (c : Nat) (t : Transaction) (r₀ : Request), s.connections[c]? = some (.busy t) ∧
        s.requests[t.requestId]? = some r₀ ∧ t.Answers r₀ r := by
  have hset {r₀ r₁ : Request} {i : Nat} (hr₀ : s.requests[i]? = some r₀)
      (hr : r ∈ s.requests.set i r₁)
      (hauth : r₁.auth = r₀.auth) (hadmin : r₁.context.platformAdmin = r₀.context.platformAdmin) :
      ∃ r₀ ∈ s.requests, r.auth = r₀.auth ∧ r.context.platformAdmin = r₀.context.platformAdmin := by
    rcases List.mem_or_eq_of_mem_set hr with hr | rfl
    · exact ⟨r, hr, rfl, rfl⟩
    · exact ⟨r₀, List.mem_of_getElem? hr₀, hauth, hadmin⟩
  cases h with
  | refl | change | handle | progress | read | write | finish | reconnect =>
    exact .inr (.inl ⟨r, hr, rfl, rfl⟩)
  | receive =>
    rcases List.mem_append.mp hr with hr | hr
    · exact .inr (.inl ⟨r, hr, rfl, rfl⟩)
    · rw [List.mem_singleton.mp hr]
      exact .inl ⟨rfl, rfl⟩
  | service hr₀ | reject hr₀ | authenticate hr₀ | requirePlatformAdmin hr₀ =>
    exact .inr (.inl (hset hr₀ hr rfl rfl))
  | answer hc _ hr₀ ht =>
    rcases List.mem_or_eq_of_mem_set hr with hr | rfl
    · exact .inr (.inl ⟨r, hr, rfl, rfl⟩)
    · exact .inr (.inr ⟨_, _, _, hc, hr₀, ht⟩)

/-- What is known of a member was true when it was read. -/
theorem Effect.knows {auth : Auth} (h : Effect d s e s') (hknows : s'.Knows auth) :
    s.Knows auth ∨ s.IsMember d auth := by
  rcases hknows with ⟨r, hr, hauth⟩ | ⟨t, ht, hpurpose⟩
  · rcases h.mem_requests hr with ⟨hnone, -⟩ | ⟨r₀, hr₀, heq, -⟩ | ⟨c, t, r₀, hc, hr₀, ht⟩
    · rw [hauth] at hnone; cases hnone
    · exact .inl (.inl ⟨r₀, hr₀, heq ▸ hauth⟩)
    · cases ht with
      | auth hpurpose =>
        cases hauth
        exact .inl (.inr ⟨t, List.mem_of_getElem? hc, hpurpose⟩)
      | admin | rejected => exact .inl (.inl ⟨r₀, List.mem_of_getElem? hr₀, hauth⟩)
  · rcases h.mem_connections ht with ⟨t₀, ht₀, heq⟩ | ⟨t₀, ht₀, hprogress⟩ | ⟨hne, -⟩
    · exact .inl (.inr ⟨t₀, ht₀, heq ▸ hpurpose⟩)
    · rcases hprogress.purpose with heq | ⟨answer, heq, hmember⟩ | ⟨userId, isAdmin, heq, -⟩
      · exact .inl (.inr ⟨t₀, ht₀, heq ▸ hpurpose⟩)
      · rw [hpurpose] at heq
        exact .inr (hmember auth (Purpose.membershipChecked.inj heq).symm)
      · rw [hpurpose] at heq; cases heq
    · exact absurd hpurpose (hne _)

theorem Effect.knowsAdmin {userId : String} (hsound : s.Sound d) (h : Effect d s e s')
    (hknows : s'.KnowsAdmin userId) :
    s.KnowsAdmin userId ∨ s.IsAdmin d userId := by
  rcases hknows with ⟨r, hr, hadmin, auth, hauth, hid⟩ | ⟨t, ht, hpurpose⟩
  · rcases h.mem_requests hr with ⟨hnone, -⟩ | ⟨r₀, hr₀, heq, heq'⟩ | ⟨c, t, r₀, hc, hr₀, ht⟩
    · rw [hauth] at hnone; cases hnone
    · exact .inl (.inl ⟨r₀, hr₀, heq' ▸ hadmin, auth, heq ▸ hauth, hid⟩)
    · obtain ⟨r₁, hr₁, hfits⟩ := (hsound.transactions c t hc).request
      rw [hr₀] at hr₁
      cases hr₁
      have hgrows := ((hsound.requests r₀ (List.mem_of_getElem? hr₀)).answered hfits ht).2
      cases ht with
      | auth hpurpose =>
        have hne := (hsound.requests r₀ (List.mem_of_getElem? hr₀)).admin hadmin
        obtain ⟨auth₀, hauth₀⟩ := Option.ne_none_iff_exists'.mp hne
        obtain ⟨auth', hauth', hid', -⟩ := hgrows.auth auth₀ hauth₀
        rw [hauth] at hauth'
        cases hauth'
        exact .inl (.inl ⟨r₀, List.mem_of_getElem? hr₀, hadmin, auth₀, hauth₀, hid' ▸ hid⟩)
      | admin hpurpose =>
        rw [Transaction.Fits, hpurpose] at hfits
        obtain ⟨-, -, auth₀, hauth₀, hid₀⟩ := hfits
        rw [show r₀.auth = some auth from hauth] at hauth₀
        cases hauth₀
        rw [hid] at hid₀
        exact .inl (.inr ⟨t, List.mem_of_getElem? hc, hid₀ ▸ hpurpose⟩)
      | rejected => exact .inl (.inl ⟨r₀, List.mem_of_getElem? hr₀, hadmin, auth, hauth, hid⟩)
  · rcases h.mem_connections ht with ⟨t₀, ht₀, heq⟩ | ⟨t₀, ht₀, hprogress⟩ | ⟨-, hne⟩
    · exact .inl (.inr ⟨t₀, ht₀, heq ▸ hpurpose⟩)
    · rcases hprogress.purpose with heq | ⟨answer, heq, -⟩ | ⟨user, isAdmin, heq, hadmin⟩
      · exact .inl (.inr ⟨t₀, ht₀, heq ▸ hpurpose⟩)
      · rw [hpurpose] at heq; cases heq
      · rw [hpurpose] at heq
        cases heq
        exact .inr (hadmin rfl)
    · exact absurd hpurpose (hne _ _)

/-! ## Runs -/

/-- The pool has been opened, and no request has come. -/
structure System.IsStarting (s : System) : Prop where
  requests : s.requests = []
  connections : ∀ k ∈ s.connections, k = .idle {}
  accesses : s.accesses = []

theorem System.IsStarting.sound (h : s.IsStarting) : s.Sound d where
  requests r hr := by rw [h.requests] at hr; cases hr
  transactions c t hc := by cases h.connections _ (List.mem_of_getElem? hc)
  locks := by
    intro i j a b k ha hb hk
    rw [h.connections a (List.mem_of_getElem? ha)] at hk
    cases hk
  accesses a ha := by rw [h.accesses] at ha; cases ha

variable {start : System} {es : List Event}

/-- Some state of the run meets `P`. -/
def Earlier (d : Deployment) (start : System) (es : List Event) (P : System → Prop) : Prop :=
  ∃ es₁ es₂ t, es = es₁ ++ es₂ ∧ Run (Stepping (System.step d)) start es₁ t ∧ P t

/-! Two users with an organization each, and a pool of one connection. -/

def twoOrganizations : Deployment where
  cast text := if text = "1" then some 1 else if text = "2" then some 2 else none
  verifyAccessToken token :=
    if token = "anna" then some ⟨"1", "1"⟩ else if token = "bert" then some ⟨"2", "2"⟩ else none
  databaseRole := some "tonatiuh_api"
  processScope := .api
  bypassesRowSecurity := true

def rowOf (organization : Uuid) (data : String) : Row := ⟨.organization (some organization), data⟩

def twoRows : System where
  rows key := if key = 1 then some (rowOf 1 "a") else if key = 2 then some (rowOf 2 "b") else none
  directory := { role := fun user organization => if user = organization then some .owner else none
                 isAdmin := fun _ => false }
  connections := [.idle {}]

theorem twoRows_isStarting : twoRows.IsStarting := ⟨rfl, by decide, rfl⟩

/-- A request with its handler's statements. -/
def requestOf (i : Nat) (authorization : String) (statements : List Statement) : List Event :=
  [.receive (some authorization) [.authenticate], .next i 0, .setRole 0, .applyDatabaseContext 0,
    .check 0, .commit 0, .handle i 0, .setRole 0, .applyDatabaseContext 0] ++
      statements.map (.execute 0) ++ [.commit 0]

def annas : List Event := requestOf 0 "Bearer anna" [.select 1, .select 2, .update 1 (rowOf 1 "c")]

theorem annas_enabled : (exec (System.step twoOrganizations) twoRows annas).isSome = true := by
  decide +kernel

def afterAnna : System := (exec (System.step twoOrganizations) twoRows annas).get annas_enabled

def System.rowsOf (s : System) (owner : Owner) (key : Key) : Option Row :=
  (s.rows key).filter fun row => row.owner = owner

/-- No transaction of a request that is entitled to the rows is committed. -/
def System.spares (d : Deployment) (owner : Owner) (s : System) : Event → Bool
  | .commit c | .disconnect c true =>
    (s.transaction? c).all fun t => s.requests[t.requestId]?.all fun r => !r.isEntitled d owner
  | _ => true

theorem System.spares_iff (hc : s.connections[c]? = some (.busy t))
    (hr : s.requests[t.requestId]? = some r)
    (he : e = .commit c ∨ e = .disconnect c true) (h : s.spares d owner e = true) :
    r.isEntitled d owner = false := by
  have ht := System.transaction?_eq_some.mpr hc
  rcases he with rfl | rfl <;> simpa [spares, ht, hr] using h

theorem Transaction.Sound.rowsOf {requests : List Request} {rows : Key → Option Row}
    (h : t.Sound d requests rows c) (hforeign : d.permits t owner ≠ some true) (key : Key) :
    (t.row rows key).filter (fun row => row.owner = owner) =
      (rows key).filter fun row => row.owner = owner := by
  have hnone {x : Option Row} (hx : ∀ a, x = some a → d.permits t a.owner = some true) :
      x.filter (fun row => row.owner = owner) = none := by
    rw [Option.filter_eq_none_iff]
    intro a ha howner
    rw [← of_decide_eq_true howner] at hforeign
    exact hforeign (hx a ha)
  by_cases hmem : key ∈ t.writes.map Prod.fst
  · obtain ⟨w, hw, rfl⟩ := List.mem_map.mp hmem
    rw [hnone (h.writes w hw).2]
    exact hnone fun a ha => (h.row ha).resolve_right fun hnot => hnot.1 hmem
  · rw [row_of_not_mem hmem]

theorem System.Sound.rowsOf_eq (h : s.Sound d) (hscope : d.processScope = .api)
    (henforced : d.Enforces)
    (hspares : s.spares d owner e = true) (heffect : Effect d s e s') :
    s'.rowsOf owner = s.rowsOf owner := by
  have hleaves {c : Nat} {t : Transaction} {rows : Key → Option Row}
      (hc : s.connections[c]? = some (.busy t))
      (hrows : t.Leaves s e c rows) (key : Key) :
      (rows key).filter (fun row => row.owner = owner) =
        (s.rows key).filter fun row => row.owner = owner := by
    rcases hrows with rfl | ⟨hstage, rfl, he⟩
    · rfl
    · have ht := h.transactions c t hc
      by_cases hpurpose : t.purpose = .handler
      · refine ht.rowsOf (fun hpermits => ?_) key
        obtain ⟨r, hr, hentitled⟩ := h.entitled hscope henforced hc hstage hpurpose hpermits
        rw [System.spares_iff hc hr he hspares] at hentitled
        cases hentitled
      · rw [Transaction.row_of_not_mem]
        rw [ht.fresh (.inr (.inr hpurpose))]
        exact List.not_mem_nil
  cases heffect with
  | finish hc hrows => exact funext (hleaves hc hrows)
  | answer hc hrows => exact funext (hleaves hc hrows)
  | refl | receive | change | service | reject | authenticate | requirePlatformAdmin | handle
    | progress | read | write | reconnect => rfl

def berts : List Event := requestOf 1 "Bearer bert" [.select 1, .update 2 (rowOf 2 "d")]

theorem berts_enabled :
    (execWhere (System.step twoOrganizations) (fun s e => s.spares twoOrganizations
    (.organization (some 1)) e = true) afterAnna berts).isSome = true := by decide +kernel

def afterBert : System :=
  (execWhere (System.step twoOrganizations) (fun s e => s.spares twoOrganizations
    (.organization (some 1)) e = true) afterAnna berts).get berts_enabled

end Tonatiuh.Database
