import Tonatiuh.Database.Effects

/-! What the policies permit, the request is entitled to.

The settings of a transaction are those of its request, whose handler runs after all middlewares.
`System.Sound` is the invariant of the system. -/

namespace Tonatiuh.Database

open Retention (Role)
open Transition

/-! ## Entitled requests -/

/-- The policies apply to what the pool sends. -/
def Deployment.Enforces (d : Deployment) : Prop :=
  d.bypassesRowSecurity = false ∨ d.databaseRole.filter (· ≠ "") ≠ none

/-- The row belongs to the organization, or to the user. -/
def Auth.owns (cast : String → Option Uuid) (auth : Auth) : Owner → Bool
  | .organization id => id.isSome && cast auth.organizationId = id
  | .user id => id.isSome && cast auth.userId = id

/-- What the request may access. -/
def Request.isEntitled (d : Deployment) (r : Request) (owner : Owner) : Bool :=
  .runWithServiceDatabaseContext ∈ r.route || r.context.platformAdmin ||
    r.auth.any fun auth => auth.owns d.cast owner

structure Request.Sound (d : Deployment) (r : Request) : Prop where
  pending : r.pending <:+ r.route
  service : r.context.service = true → .runWithServiceDatabaseContext ∈ r.route
  context : (r.context.organizationId = none ∧ r.context.userId = none) ∨
    ∃ payload, r.payload d = some payload ∧ r.context.organizationId = some payload.org ∧
      r.context.userId = some payload.sub ∧ (r.auth ≠ none ∨ .authenticate ∈ r.pending)
  auth : ∀ auth, r.auth = some auth →
    ∃ payload, r.payload d = some payload ∧ payload.sub = auth.userId ∧
      payload.org = auth.organizationId
  admin : r.context.platformAdmin = true → r.auth ≠ none

/-- A request never loses what it may access. -/
structure Request.Grows (r r' : Request) : Prop where
  route : r'.route = r.route
  admin : r.context.platformAdmin = true → r'.context.platformAdmin = true
  auth : ∀ auth, r.auth = some auth →
    ∃ auth', r'.auth = some auth' ∧ auth'.userId = auth.userId ∧
      auth'.organizationId = auth.organizationId

section
variable {d : Deployment} {r r' : Request} {owner : Owner}

theorem Request.Grows.refl (r : Request) : r.Grows r := ⟨rfl, id, fun auth h => ⟨auth, h, rfl, rfl⟩⟩

theorem Auth.owns_organization {cast : String → Option Uuid} {auth : Auth} {id : Uuid}
    (h : cast auth.organizationId = some id) : auth.owns cast (.organization (some id)) = true := by
  rw [owns, h, decide_eq_true rfl]
  rfl

theorem Auth.owns_user {cast : String → Option Uuid} {auth : Auth} {id : Uuid}
    (h : cast auth.userId = some id) :
    auth.owns cast (.user (some id)) = true := by
  rw [owns, h, decide_eq_true rfl]
  rfl

theorem Request.isEntitled_iff :
    r.isEntitled d owner = true ↔ .runWithServiceDatabaseContext ∈ r.route ∨
    r.context.platformAdmin = true ∨
    ∃ auth, r.auth = some auth ∧ auth.owns d.cast owner = true := by
  rw [isEntitled, Bool.or_eq_true, Bool.or_eq_true, decide_eq_true_eq, Option.any_eq_true, or_assoc]

theorem Request.isEntitled_mono (h : r.isEntitled d owner = true) (hgrows : r.Grows r') :
    r'.isEntitled d owner = true := by
  rw [isEntitled_iff] at h ⊢
  rcases h with h | h | ⟨auth, h, howns⟩
  · exact .inl (hgrows.route ▸ h)
  · exact .inr (.inl (hgrows.admin h))
  · obtain ⟨auth', h', huser, horg⟩ := hgrows.auth auth h
    refine .inr (.inr ⟨auth', h', ?_⟩)
    cases owner with
    | organization id => rw [Auth.owns, horg]; exact howns
    | user id => rw [Auth.owns, huser]; exact howns

/-! ## The policies -/

theorem flag_iff {b : Bool} : Sql.equal (some (flag b)) (some "true") = some true ↔ b = true := by
  cases b <;> decide

theorem castSetting_iff {cast : String → Option Uuid} {text : Option String} {current : Option Uuid}
    {id : Uuid}
    (h : castSetting cast (some (text.getD "")) = some current) (hid : current = some id) :
    ∃ x, text = some x ∧ cast x = some id := by
  cases text with
  | none =>
    have hnone : castSetting cast (some ((none : Option String).getD "")) = some none := rfl
    rw [hnone, hid] at h
    cases h
  | some x =>
    refine ⟨x, rfl, ?_⟩
    rw [castSetting] at h
    split at h
    next => rw [hid] at h; cases h
    next text htext =>
      obtain ⟨y, hy, hsome⟩ := Option.map_eq_some_iff.mp h
      have hx : text = x := (Option.some.inj (Option.eq_some_of_filter_eq_some htext)).symm
      rw [← hx, hy]
      exact hsome.trans hid

/-- What the policies let pass in the settings of an API request. -/
theorem policy_settings {cast : String → Option Uuid} {context : DatabaseAccessContext}
    (h : policy cast (context.settings .api) owner = some (some true)) :
    context.platformAdmin = true ∨ context.service = true ∨ match owner with
      | .organization id => ∃ text organization, context.organizationId = some text ∧
        cast text = some organization ∧ id = some organization
      | .user id =>
        ∃ text user, context.userId = some text ∧ cast text = some user ∧ id = some user := by
  have hservice : flag (context.service || decide (ProcessScope.api = .service)) =
      flag context.service := by
    rw [decide_eq_false (by decide), Bool.or_false]
  cases owner with
  | organization id =>
    obtain ⟨current, hcurrent, h⟩ := Option.map_eq_some_iff.mp h
    obtain ⟨-, h⟩ := Sql.and_iff.mp h
    rcases Sql.or_iff.mp h with h | hworker
    · rcases Sql.or_iff.mp h with h | h
      · rcases Sql.or_iff.mp h with h | h
        · obtain ⟨organization, hid, hcurrent'⟩ := Sql.equal_iff.mp h
          obtain ⟨text, htext, hcast⟩ := castSetting_iff hcurrent hcurrent'
          exact .inr (.inr ⟨text, organization, htext, hcast, hid⟩)
        · exact .inl (flag_iff.mp h)
      · exact .inr (.inl (flag_iff.mp (hservice ▸ h)))
    · exact absurd (flag_iff.mp hworker) (by decide)
  | user id =>
    obtain ⟨current, hcurrent, h⟩ := Option.map_eq_some_iff.mp h
    rcases Sql.or_iff.mp h with h | h
    · rcases Sql.or_iff.mp h with h | hworker
      · rcases Sql.or_iff.mp h with h | h
        · exact .inl (flag_iff.mp h)
        · exact .inr (.inl (flag_iff.mp (hservice ▸ h)))
      · exact absurd (flag_iff.mp hworker) (by decide)
    · obtain ⟨user, hid, hcurrent'⟩ := Sql.equal_iff.mp (Sql.and_iff.mp h).2
      obtain ⟨text, htext, hcast⟩ := castSetting_iff hcurrent hcurrent'
      exact .inr (.inr ⟨text, user, htext, hcast, hid⟩)

/-- A handler runs after all middlewares of its route. -/
theorem Request.Sound.entitled (h : r.Sound d) (hpending : r.pending = [])
    (hpolicy : policy d.cast (r.context.settings .api) owner = some (some true)) :
    r.isEntitled d owner = true := by
  have hauthenticated {text : String}
      (htext : r.context.organizationId = some text ∨ r.context.userId = some text) :
      ∃ auth, r.auth = some auth ∧ r.context.organizationId = some auth.organizationId ∧
        r.context.userId = some auth.userId := by
    rcases h.context with ⟨horg, huser⟩ | ⟨payload, hpayload, horg, huser, hauth | hmem⟩
    · rcases htext with htext | htext
      · rw [horg] at htext; cases htext
      · rw [huser] at htext; cases htext
    · obtain ⟨auth, hauth⟩ := Option.ne_none_iff_exists'.mp hauth
      obtain ⟨payload', hpayload', hsub, horg'⟩ := h.auth auth hauth
      rw [hpayload] at hpayload'
      cases hpayload'
      exact ⟨auth, hauth, horg' ▸ horg, hsub ▸ huser⟩
    · rw [hpending] at hmem; cases hmem
  rw [Request.isEntitled_iff]
  rcases policy_settings hpolicy with hadmin | hservice | hnames
  · exact .inr (.inl hadmin)
  · exact .inl (h.service hservice)
  · cases owner with
    | organization id =>
      obtain ⟨text, organization, htext, hcast, hid⟩ := hnames
      obtain ⟨auth, hauth, horg, -⟩ := hauthenticated (.inl htext)
      rw [htext] at horg
      rw [hid]
      exact .inr (.inr ⟨auth, hauth, Auth.owns_organization (Option.some.inj horg ▸ hcast)⟩)
    | user id =>
      obtain ⟨text, user, htext, hcast, hid⟩ := hnames
      obtain ⟨auth, hauth, -, huser⟩ := hauthenticated (.inr htext)
      rw [htext] at huser
      rw [hid]
      exact .inr (.inr ⟨auth, hauth, Auth.owns_user (Option.some.inj huser ▸ hcast)⟩)

end

/-! ## Transactions -/

/-- The request of the transaction at `c`, at this stage. -/
def Transaction.Fits (d : Deployment) (c : Nat) (t : Transaction) (r : Request) : Prop :=
  match t.purpose with
  | .membership payload =>
    r.stage = .waiting c ∧ r.pending.head? = some .authenticate ∧ r.payload d = some payload
  | .membershipChecked auth =>
    r.stage = .waiting c ∧ r.pending.head? = some .authenticate ∧ ∀ a, auth = some a →
      ∃ payload, r.payload d = some payload ∧ payload.sub = a.userId ∧
        payload.org = a.organizationId
  | .admin userId | .adminChecked userId _ =>
    r.stage = .waiting c ∧ r.pending.head? = some .requirePlatformAdmin ∧
      ∃ auth, r.auth = some auth ∧ auth.userId = userId
  | .handler =>
    r.stage = .running ∧ r.pending = [] ∧ (t.stage = .ready →
      t.settings = r.context.settings d.processScope)

structure Transaction.Sound (d : Deployment) (requests : List Request)
    (rows : Key → Option Row) (c : Nat) (t : Transaction) : Prop where
  request : ∃ r, requests[t.requestId]? = some r ∧ t.Fits d c r
  fresh : t.stage = .begun ∨ t.stage = .roleSet ∨ t.purpose ≠ .handler → t.writes = []
  role : t.stage = .roleSet ∨ t.stage = .ready →
    d.databaseRole.filter (· ≠ "") = none ∨ t.role ≠ none
  writes : ∀ w ∈ t.writes, (∀ row, w.2 = some row → d.permits t row.owner = some true) ∧
    ∀ row, rows w.1 = some row → d.permits t row.owner = some true

structure System.Sound (d : Deployment) (s : System) : Prop where
  requests : ∀ r ∈ s.requests, r.Sound d
  transactions : ∀ (c : Nat) (t : Transaction), s.connections[c]? = some (.busy t) →
    t.Sound d s.requests s.rows c
  locks : Exclusive Connection.keys s.connections
  accesses : ∀ a ∈ s.accesses, ∃ r,
    s.requests[a.requestId]? = some r ∧ r.isEntitled d a.row.owner = true

variable {d : Deployment} {s s' : System} {r r' : Request} {t t' : Transaction} {i c : Nat}
  {e : Event}
  {owner : Owner}

theorem Transaction.Fits.waiting (h : t.Fits d c r) (hpurpose : t.purpose ≠ .handler) :
    r.stage = .waiting c := by
  rw [Fits] at h
  split at h
  · exact h.1
  · exact h.1
  · exact h.1
  · exact h.1
  next hhandler => exact absurd hhandler hpurpose

theorem Transaction.Answers.ne_handler (h : t.Answers r r') : t.purpose ≠ .handler := by
  intro hhandler
  cases h with
  | auth hpurpose => rw [hhandler] at hpurpose; cases hpurpose
  | admin hpurpose => rw [hhandler] at hpurpose; cases hpurpose
  | rejected hpurpose => exact hpurpose hhandler

theorem Transaction.Fits.handler (h : t.Fits d c r) (hpurpose : t.purpose = .handler) :
    r.stage = .running ∧ r.pending = [] ∧ (t.stage = .ready →
      t.settings = r.context.settings d.processScope) := by
  rw [Fits, hpurpose] at h
  exact h

theorem Transaction.row_of_not_mem {rows : Key → Option Row} {key : Key}
    (h : key ∉ t.writes.map Prod.fst) :
    t.row rows key = rows key := by
  have hnone : t.writes.find? (·.1 = key) = none := by
    rw [List.find?_eq_none]
    intro w hw heq
    exact h (List.mem_map.mpr ⟨w, hw, of_decide_eq_true heq⟩)
  rw [row, hnone]

/-- A row that the transaction sees or has written. -/
theorem Transaction.Sound.row {requests : List Request} {rows : Key → Option Row}
    {key : Key} {a : Row} (h : t.Sound d requests rows c) (ha : t.row rows key = some a) :
    d.permits t a.owner = some true ∨ (key ∉ t.writes.map Prod.fst ∧ rows key = some a) := by
  by_cases hmem : key ∈ t.writes.map Prod.fst
  · rw [Transaction.row] at ha
    split at ha
    next w hw => exact .inl ((h.writes w (List.mem_of_find?_eq_some hw)).1 a ha)
    next hnone =>
      obtain ⟨w, hw, rfl⟩ := List.mem_map.mp hmem
      exact absurd (List.find?_eq_none.mp hnone w hw) (by simp)
  · rw [row_of_not_mem hmem] at ha
    exact .inr ⟨hmem, ha⟩

theorem Transaction.Fits.stage (h : t.Fits d c r) :
    r.stage = .waiting c ∨ (r.stage = .running ∧ r.pending = []) := by
  by_cases hpurpose : t.purpose = .handler
  · exact .inr ⟨(h.handler hpurpose).1, (h.handler hpurpose).2.1⟩
  · exact .inl (h.waiting hpurpose)

/-- What the policies permit to a handler, the request is entitled to. -/
theorem System.Sound.entitled (h : s.Sound d) (hscope : d.processScope = .api)
    (henforced : d.Enforces)
    (hc : s.connections[c]? = some (.busy t)) (hstage : t.stage = .ready)
    (hpurpose : t.purpose = .handler) (hpermits : d.permits t owner = some true) :
    ∃ r, s.requests[t.requestId]? = some r ∧ r.isEntitled d owner = true := by
  have ht := h.transactions c t hc
  obtain ⟨r, hr, hfits⟩ := ht.request
  obtain ⟨-, hpending, hsettings⟩ := hfits.handler hpurpose
  refine ⟨r, hr, (h.requests r (List.mem_of_getElem? hr)).entitled hpending ?_⟩
  have hbypass : (d.bypassesRowSecurity && t.role.isNone) = false := by
    rcases henforced with hfalse | hrole
    · rw [hfalse, Bool.false_and]
    · rcases ht.role (.inr hstage) with hnone | hrole'
      · exact absurd hnone hrole
      · rw [Option.isNone_eq_false_iff.mpr (Option.isSome_iff_ne_none.mpr hrole'), Bool.and_false]
  rw [Deployment.permits, hbypass, hsettings hstage, hscope] at hpermits
  obtain ⟨truth, htruth, hholds⟩ := Option.map_eq_some_iff.mp hpermits
  rw [htruth, of_decide_eq_true hholds]

/-! ## Steps -/

namespace System.Sound

theorem setTransaction (h : s.Sound d) (hc : s.connections[c]? = some (.busy t))
    (ht : t'.Sound d s.requests s.rows c) (hkeys : ∀ key ∈ t'.writes.map Prod.fst,
      key ∈ t.writes.map Prod.fst ∨ isUnheld Connection.keys s.connections c key = true) :
    (s.setTransaction c t').Sound d where
  requests := h.requests
  transactions := by
    intro c₂ t₂ h₂
    rcases getElem?_set_cases h₂ with ⟨rfl, heq⟩ | ⟨-, hold⟩
    · cases heq
      exact ht
    · exact h.transactions c₂ t₂ hold
  locks := h.locks.set hc hkeys
  accesses := h.accesses

theorem begin {settings : Settings} {purpose : Purpose} (h : s.Sound d)
    (hc : s.connections[c]? = some (.idle settings))
    (ht : ∃ r, s.requests[i]? = some r ∧
      ({ requestId := i, purpose, settings } : Transaction).Fits d c r) :
    (s.setConnection c (.busy { requestId := i, purpose, settings })).Sound d where
  requests := h.requests
  transactions := by
    intro c₂ t₂ h₂
    rcases getElem?_set_cases h₂ with ⟨rfl, heq⟩ | ⟨-, hold⟩
    · cases heq
      refine ⟨ht, fun _ => rfl, fun hstage => ?_, fun w hw => absurd hw List.not_mem_nil⟩
      rcases hstage with hstage | hstage <;> cases hstage
    · exact h.transactions c₂ t₂ hold
  locks := h.locks.set hc fun key hkey => absurd hkey List.not_mem_nil
  accesses := h.accesses

/-- The end of a transaction. -/
theorem idle {rows : Key → Option Row} {settings : Settings} (h : s.Sound d)
    (hc : s.connections[c]? = some (.busy t)) (hrows : t.Leaves s e c rows) :
    ({ s.setConnection c (.idle settings) with rows } : System).Sound d where
  requests := h.requests
  transactions := by
    intro c₂ t₂ h₂
    rcases getElem?_set_cases h₂ with ⟨-, heq⟩ | ⟨hne, hold⟩
    · cases heq
    · have ht₂ := h.transactions c₂ t₂ hold
      refine ⟨ht₂.request, ht₂.fresh, ht₂.role, fun w hw => ⟨(ht₂.writes w hw).1, ?_⟩⟩
      rcases hrows with rfl | ⟨-, rfl, -⟩
      · exact (ht₂.writes w hw).2
      · -- the row is locked by the other transaction
        have hmem : w.1 ∉ t.writes.map Prod.fst := fun hmem =>
          hne (h.locks c₂ c _ _ w.1 hold hc (List.mem_map_of_mem hw) hmem)
        intro row hrow
        exact (ht₂.writes w hw).2 row ((Transaction.row_of_not_mem hmem).symm.trans hrow)
  locks := h.locks.set hc fun key hkey => absurd hkey List.not_mem_nil
  accesses := h.accesses

/-- A request that no transaction is about. -/
theorem setRequest (h : s.Sound d) (hr : s.requests[i]? = some r) (hsound : r'.Sound d)
    (hgrows : r.Grows r')
    (halone : ∀ (c : Nat) (t : Transaction), s.connections[c]? = some (.busy t) → t.requestId ≠ i) :
    (s.setRequest i r').Sound d where
  requests := by
    intro r₂ h₂
    rcases List.mem_or_eq_of_mem_set h₂ with hmem | rfl
    · exact h.requests r₂ hmem
    · exact hsound
  transactions := by
    intro c t hc
    have ht := h.transactions c t hc
    obtain ⟨r₂, hr₂, hfits⟩ := ht.request
    refine ⟨⟨r₂, ?_, hfits⟩, ht.fresh, ht.role, ht.writes⟩
    exact (List.getElem?_set_ne (halone c t hc).symm).trans hr₂
  locks := h.locks
  accesses := by
    intro a ha
    obtain ⟨r₂, hr₂, hentitled⟩ := h.accesses a ha
    by_cases heq : a.requestId = i
    · rw [heq, hr] at hr₂
      cases hr₂
      refine ⟨r', ?_, Request.isEntitled_mono hentitled hgrows⟩
      rw [heq]
      exact List.getElem?_set_self (List.getElem?_eq_some_iff.mp hr).1
    · exact ⟨r₂, (List.getElem?_set_ne (Ne.symm heq)).trans hr₂, hentitled⟩

/-- The request of a transaction waits for it, or has passed its middlewares. -/
theorem alone (h : s.Sound d) (hr : s.requests[i]? = some r) (hstage : r.stage = .running)
    (hpending : r.pending ≠ [])
    (c : Nat) (t : Transaction) (hc : s.connections[c]? = some (.busy t)) : t.requestId ≠ i := by
  rintro rfl
  obtain ⟨r₂, hr₂, hfits⟩ := (h.transactions c t hc).request
  rw [hr] at hr₂
  cases hr₂
  rcases hfits.stage with hwaiting | ⟨-, hnil⟩
  · rw [hstage] at hwaiting; cases hwaiting
  · exact hpending hnil

/-- A transaction gets its role and its settings, or sends the query of a middleware. -/
theorem progress (h : s.Sound d) (hc : s.connections[c]? = some (.busy t))
    (ht : t.Progress d s t') :
    (s.setTransaction c t').Sound d := by
  have hsound := h.transactions c t hc
  obtain ⟨r, hr, hfits⟩ := hsound.request
  have hkeys : t'.writes = t.writes := by cases ht <;> rfl
  refine h.setTransaction hc ?_ fun key hkey => .inl (hkeys ▸ hkey)
  cases ht with
  | role hstage hrole =>
    have hfresh := hsound.fresh (.inl hstage)
    refine ⟨⟨r, hr, ?_⟩, fun _ => hfresh, fun _ => hrole, fun w hw => ?_⟩
    · rw [Transaction.Fits] at hfits ⊢
      cases hpurpose : t.purpose <;> rw [hpurpose] at hfits
      case handler => exact ⟨hfits.1, hfits.2.1, fun hready => by cases hready⟩
      all_goals exact hfits
    · rw [show t.writes = [] from hfresh] at hw
      cases hw
  | context hstage hr' =>
    have hfresh := hsound.fresh (.inr (.inl hstage))
    rw [hr] at hr'
    cases hr'
    refine ⟨⟨r, hr, ?_⟩, fun _ => hfresh, fun _ => hsound.role (.inl hstage), fun w hw => ?_⟩
    · rw [Transaction.Fits] at hfits ⊢
      cases hpurpose : t.purpose <;> rw [hpurpose] at hfits
      case handler => exact ⟨hfits.1, hfits.2.1, fun _ => rfl⟩
      all_goals exact hfits
    · rw [show t.writes = [] from hfresh] at hw
      cases hw
  | membership hstage hpurpose hsub horg =>
    have hfresh :=
      hsound.fresh (.inr (.inr fun hhandler => by rw [hpurpose] at hhandler; cases hhandler))
    refine ⟨⟨r, hr, ?_⟩, fun _ => hfresh, hsound.role, hsound.writes⟩
    rw [Transaction.Fits, hpurpose] at hfits
    refine ⟨hfits.1, hfits.2.1, fun a ha => ⟨_, hfits.2.2, ?_⟩⟩
    obtain ⟨role, -, rfl⟩ := Option.map_eq_some_iff.mp ha
    exact ⟨rfl, rfl⟩
  | admin hstage hpurpose hcast =>
    have hfresh :=
      hsound.fresh (.inr (.inr fun hhandler => by rw [hpurpose] at hhandler; cases hhandler))
    refine ⟨⟨r, hr, ?_⟩, fun _ => hfresh, hsound.role, hsound.writes⟩
    rw [Transaction.Fits, hpurpose] at hfits
    exact hfits
  | failed =>
    refine ⟨⟨r, hr, ?_⟩, fun hstage => ?_, fun hstage => ?_, hsound.writes⟩
    · rw [Transaction.Fits] at hfits ⊢
      cases hpurpose : t.purpose <;> rw [hpurpose] at hfits
      case handler => exact ⟨hfits.1, hfits.2.1, fun hready => by cases hready⟩
      all_goals exact hfits
    · rcases hstage with hstage | hstage | hpurpose
      · cases hstage
      · cases hstage
      · exact hsound.fresh (.inr (.inr hpurpose))
    · rcases hstage with hstage | hstage <;> cases hstage

theorem write {key : Key} {row : Option Row} {accessed : List Row} (h : s.Sound d)
    (hscope : d.processScope = .api)
    (henforced : d.Enforces) (hc : s.connections[c]? = some (.busy t)) (hstage : t.stage = .ready)
    (hpurpose : t.purpose = .handler)
    (hunheld : isUnheld Connection.keys s.connections c key = true)
    (haccessed : ∀ a ∈ accessed, d.permits t a.owner = some true)
    (hnew : ∀ a, row = some a → d.permits t a.owner = some true)
    (hold : ∀ a, t.row s.rows key = some a → d.permits t a.owner = some true) :
    (s.write c t key row accessed).Sound d := by
  have hsound := h.transactions c t hc
  have hcommitted (a : Row) (ha : s.rows key = some a) : d.permits t a.owner = some true := by
    by_cases hmem : key ∈ t.writes.map Prod.fst
    · obtain ⟨w, hw, rfl⟩ := List.mem_map.mp hmem
      exact (hsound.writes w hw).2 a ha
    · exact hold a ((Transaction.row_of_not_mem hmem).trans ha)
  have ht : ({ t with writes := (key, row) :: t.writes } : Transaction).Sound d s.requests
      s.rows c := by
    refine ⟨hsound.request, fun hfresh => ?_, hsound.role, fun w hw => ?_⟩
    · rcases hfresh with hfresh | hfresh | hfresh
      · rw [hstage] at hfresh; cases hfresh
      · rw [hstage] at hfresh; cases hfresh
      · exact absurd hpurpose hfresh
    · rcases List.mem_cons.mp hw with rfl | hw
      · exact ⟨hnew, hcommitted⟩
      · exact hsound.writes w hw
  have hset := h.setTransaction hc ht fun k hk =>
    (List.mem_cons.mp hk).elim (fun heq => .inr (heq ▸ hunheld)) .inl
  refine ⟨hset.requests, hset.transactions, hset.locks, fun a ha => ?_⟩
  rcases List.mem_append.mp ha with ha | ha
  · exact h.accesses a ha
  · obtain ⟨row, hrow, rfl⟩ := List.mem_map.mp ha
    exact h.entitled hscope henforced hc hstage hpurpose (haccessed row hrow)

end System.Sound

/-! ## Requests -/

theorem Request.Sound.setStage (h : r.Sound d) (stage : RequestStage) :
    ({ r with stage } : Request).Sound d :=
  ⟨h.pending, h.service, h.context, h.auth, h.admin⟩

theorem Request.Sound.authenticate (c : Nat) (h : r.Sound d) {rest : List Middleware}
    {payload : AccessPayload}
    (hpending : r.pending = .authenticate :: rest) (hpayload : r.payload d = some payload) :
    Request.Sound d { r with
      stage := .waiting c
      context := { r.context with organizationId := some payload.org,
                                  userId := some payload.sub } } where
  pending := h.pending
  service := h.service
  context := .inr ⟨payload, hpayload, rfl, rfl, .inr (hpending ▸ List.mem_cons_self)⟩
  auth := h.auth
  admin := h.admin

theorem Request.Sound.service_next (h : r.Sound d) {rest : List Middleware}
    (hpending : r.pending = .runWithServiceDatabaseContext :: rest) :
    ({ r with pending := rest, context := { r.context with service := true } } : Request).Sound
      d where
  pending := (List.suffix_cons _ rest).trans (hpending ▸ h.pending)
  service _ := h.pending.mem (hpending ▸ List.mem_cons_self)
  context := by
    rcases h.context with hnone | ⟨payload, hpayload, horg, huser, hauth⟩
    · exact .inl hnone
    · refine .inr ⟨payload, hpayload, horg, huser, hauth.imp_right fun hmem => ?_⟩
      rw [hpending] at hmem
      exact (List.mem_cons.mp hmem).resolve_left (by decide)
  auth := h.auth
  admin := h.admin

theorem Request.Sound.answered (h : r.Sound d) (hfits : t.Fits d c r) (ht : t.Answers r r') :
    r'.Sound d ∧ r.Grows r' := by
  cases ht with
  | auth hpurpose =>
    rw [Transaction.Fits, hpurpose] at hfits
    obtain ⟨-, -, hauth⟩ := hfits
    obtain ⟨payload, hpayload, hsub, horg⟩ := hauth _ rfl
    refine ⟨⟨(List.tail_suffix _).trans h.pending, h.service, ?_, ?_,
      fun _ => Option.some_ne_none _⟩, rfl, id, ?_⟩
    · rcases h.context with hnone | ⟨payload, hpayload, horg, huser, -⟩
      · exact .inl hnone
      · exact .inr ⟨payload, hpayload, horg, huser, .inl (Option.some_ne_none _)⟩
    · rintro _ ⟨⟩
      exact ⟨payload, hpayload, hsub, horg⟩
    · intro auth₀ h₀
      obtain ⟨payload₀, hpayload₀, hsub₀, horg₀⟩ := h.auth auth₀ h₀
      rw [hpayload] at hpayload₀
      cases hpayload₀
      exact ⟨_, rfl, hsub ▸ hsub₀, horg ▸ horg₀⟩
  | admin hpurpose =>
    rw [Transaction.Fits, hpurpose] at hfits
    obtain ⟨-, hhead, auth, hauth, -⟩ := hfits
    refine ⟨⟨(List.tail_suffix _).trans h.pending, h.service, ?_, h.auth, fun _ => ?_⟩, rfl,
      fun _ => rfl,
      fun auth h => ⟨auth, h, rfl, rfl⟩⟩
    · rcases h.context with hnone | ⟨payload, hpayload, horg, huser, hauth⟩
      · exact .inl hnone
      · refine .inr ⟨payload, hpayload, horg, huser, hauth.imp_right fun hmem => ?_⟩
        obtain ⟨rest, hrest⟩ := List.head?_eq_some_iff.mp hhead
        rw [hrest] at hmem ⊢
        exact (List.mem_cons.mp hmem).resolve_left (by decide)
    · exact fun hnone => by rw [hauth] at hnone; cases hnone
  | rejected hpurpose => exact ⟨h.setStage .rejected, rfl, id, fun auth h => ⟨auth, h, rfl, rfl⟩⟩

theorem System.Sound.effect (h : s.Sound d) (hscope : d.processScope = .api)
    (henforced : d.Enforces) (heffect : Effect d s e s') : s'.Sound d := by
  have hget {i : Nat} {r r' : Request} (hr : s.requests[i]? = some r) :
      (s.setRequest i r').requests[i]? = some r' :=
    List.getElem?_set_self (List.getElem?_eq_some_iff.mp hr).1
  cases heffect with
  | refl => exact h
  | receive authorization route =>
    refine ⟨fun r hr => ?_, fun c t hc => ?_, h.locks, fun a ha => ?_⟩
    · rcases List.mem_append.mp hr with hr | hr
      · exact h.requests r hr
      · rw [List.mem_singleton.mp hr]
        exact ⟨List.suffix_rfl, fun h => (by cases h), .inl ⟨rfl, rfl⟩, fun _ h => (by cases h),
          fun h => by cases h⟩
    · have ht := h.transactions c t hc
      obtain ⟨r, hr, hfits⟩ := ht.request
      exact ⟨⟨r, (List.getElem?_append_left (List.getElem?_eq_some_iff.mp hr).1).trans hr, hfits⟩,
        ht.fresh, ht.role,
        ht.writes⟩
    · obtain ⟨r, hr, hentitled⟩ := h.accesses a ha
      exact ⟨r, (List.getElem?_append_left (List.getElem?_eq_some_iff.mp hr).1).trans hr, hentitled⟩
  | change directory => exact ⟨h.requests, h.transactions, h.locks, h.accesses⟩
  | service hr hstage hpending =>
    exact h.setRequest hr ((h.requests _ (List.mem_of_getElem? hr)).service_next hpending)
      ⟨rfl, id, fun auth h => ⟨auth, h, rfl, rfl⟩⟩
        (h.alone hr hstage (hpending ▸ List.cons_ne_nil _ _))
  | reject hr hstage hpending =>
    exact h.setRequest hr ((h.requests _ (List.mem_of_getElem? hr)).setStage .rejected)
      ⟨rfl, id, fun auth h => ⟨auth, h, rfl, rfl⟩⟩ (h.alone hr hstage hpending)
  | @authenticate _ _ _ _ i c hr hstage hpending hpayload hc =>
    have hset :=
      h.setRequest hr ((h.requests _ (List.mem_of_getElem? hr)).authenticate c hpending hpayload)
      ⟨rfl, id, fun auth h => ⟨auth, h, rfl, rfl⟩⟩
        (h.alone hr hstage (hpending ▸ List.cons_ne_nil _ _))
    exact hset.begin hc ⟨_, hget hr, rfl, hpending ▸ rfl, hpayload⟩
  | @requirePlatformAdmin _ _ _ _ i c hr hstage hpending hauth hc =>
    have hset := h.setRequest hr ((h.requests _ (List.mem_of_getElem? hr)).setStage (.waiting c))
      ⟨rfl, id, fun auth h => ⟨auth, h, rfl, rfl⟩⟩
        (h.alone hr hstage (hpending ▸ List.cons_ne_nil _ _))
    exact hset.begin hc ⟨_, hget hr, rfl, hpending ▸ rfl, _, hauth, rfl⟩
  | handle hr hstage hpending hc => exact h.begin hc ⟨_, hr, hstage, hpending, fun h => by cases h⟩
  | progress hc ht => exact h.progress hc ht
  | read hc hstage hpurpose hrow =>
    refine ⟨h.requests, h.transactions, h.locks, fun a ha => ?_⟩
    rcases List.mem_append.mp ha with ha | ha
    · exact h.accesses a ha
    · rw [List.mem_singleton.mp ha]
      exact h.entitled hscope henforced hc hstage hpurpose hrow
  | write hc hstage hpurpose hunheld haccessed hnew hold =>
    exact h.write hscope henforced hc hstage hpurpose hunheld haccessed hnew hold
  | finish hc hrows => exact h.idle hc hrows
  | answer hc hrows hr ht =>
    obtain ⟨r₂, hr₂, hfits⟩ := (h.transactions _ _ hc).request
    rw [hr] at hr₂
    cases hr₂
    obtain ⟨hsound, hgrows⟩ := (h.requests _ (List.mem_of_getElem? hr)).answered hfits ht
    refine (h.idle hc hrows).setRequest hr hsound hgrows fun c₂ t₂ h₂ heq => ?_
    rcases getElem?_set_cases h₂ with ⟨-, hidle⟩ | ⟨hne, h₂⟩
    · cases hidle
    · obtain ⟨r₂, hr₂, hfits₂⟩ := (h.transactions c₂ t₂ h₂).request
      rw [heq, hr] at hr₂
      cases hr₂
      -- a request waits for one transaction only
      have hwaiting := hfits.waiting ht.ne_handler
      rcases hfits₂.stage with hwaiting₂ | ⟨hrunning, -⟩
      · exact hne (RequestStage.waiting.inj (hwaiting₂.symm.trans hwaiting))
      · rw [hwaiting] at hrunning; cases hrunning
  | reconnect hc =>
    refine ⟨h.requests, fun c₂ t₂ h₂ => ?_,
      h.locks.set hc fun _ hkey => absurd hkey List.not_mem_nil, h.accesses⟩
    rcases getElem?_set_cases h₂ with ⟨-, heq⟩ | ⟨-, hold⟩
    · cases heq
    · exact h.transactions c₂ t₂ hold

end Tonatiuh.Database
