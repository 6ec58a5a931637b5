import Tonatiuh.Billing.PaymentKeys

/-! `POST /billing/checkout` with its requests in flight.

A request reads the row of its idempotency key, asks the provider for a payment, and inserts the
row with `ON CONFLICT(organization_id,idempotency_key) DO NOTHING`; the three are separate, and
the provider remembers a key for a limited time only. The answer names the payment of the
provider, and the insert may have kept the row of another one. -/

namespace Tonatiuh.Billing

/-- A checkout request that was not answered from its stored row. -/
structure CheckoutRequest where
  organizationId : OrganizationId
  key : IdempotencyKey
  response : Option YooPayment := none
  deriving DecidableEq, Repr

/-- The billing system with the requests of `POST /checkout` in flight. `returned` and `created`
are history variables: the payment ids answered to each organization, and the key each payment
was created for. -/
structure CheckoutWorld where
  world : World
  requests : List CheckoutRequest := []
  returned : List (OrganizationId × PaymentId) := []
  created : PaymentId → Option IdempotencyKey := fun _ => none

inductive CheckoutEvent where
  /-- Any other event of the billing system. -/
  | billing (e : Event)
  /-- A request reads the row stored under its key. -/
  | openRequest (org : OrganizationId) (key : Nat)
  /-- The provider answers a request with the payment of its key, or creates one. -/
  | call (index : Nat) (payment : YooPayment)
  /-- A request inserts its row and is answered. -/
  | store (now : Timestamp) (index : Nat)
  | abort (index : Nat)
  /-- The provider's idempotency window for a key passes. -/
  | forget (key : IdempotencyKey)
  deriving DecidableEq, Repr

/-- The events of the billing system that are split up here. -/
def Event.isCheckout : Event → Bool
  | .checkoutCall .. | .checkoutStore .. => true
  | _ => false

/-- `payment.confirmation?.confirmation_url`, when it is not empty. -/
def YooPayment.redirectUrl (payment : YooPayment) : Option String :=
  payment.confirmationUrl.filter (· ≠ "")

/-- The payment of a stored row whose snapshot has a confirmation URL: the request is answered
from it. -/
def Database.replay (db : Database) (org : OrganizationId) (key : IdempotencyKey) :
    Option PaymentId :=
  (db.paymentKeys org key).filter fun id =>
    ((db.payments id).bind (·.confirmationUrl)).any (· ≠ "")

/-- The key a renewal is charged under. -/
def World.chargedKey (s : World) : Event → Option IdempotencyKey
  | .renewCall index _ => s.renewals[index]?.map (·.item.idempotencyKey)
  | _ => none

namespace CheckoutWorld

/-- The key each payment was created for, after a step of the billing system. -/
def createdBy (s : CheckoutWorld) (e : Event) (world : World) (id : PaymentId) :
    Option IdempotencyKey :=
  if (s.world.history id).isEmpty && !(world.history id).isEmpty then s.world.chargedKey e
  else s.created id

def step (cal : Calendar) (config : BillingConfig) (s : CheckoutWorld) :
    CheckoutEvent → Option CheckoutWorld
  | .billing e =>
    if e.isCheckout then none
    else (World.step cal config s.world e).map fun world =>
      { s with world, created := s.createdBy e world }
  | .openRequest org key =>
    match s.world.db.replay org (.header key) with
    | some id => some { s with returned := (org, id) :: s.returned }
    | none =>
      some { s with requests := { organizationId := org, key := .header key } :: s.requests }
  | .call index payment =>
    match s.requests[index]? with
    | some { organizationId, key, response := none } =>
      let requests := s.requests.set index { organizationId, key, response := some payment }
      match s.world.issued key with
      | some id =>
        if payment.id = id ∧ (s.world.history id).head? = some payment then
          some { s with requests }
        else none
      | none =>
        if s.world.history payment.id = [] ∧ payment.metadata = some ⟨organizationId, .initial⟩
        then some { s with
          world := s.world.create key payment
          requests
          created := Function.update s.created payment.id (some key) }
        else none
    | _ => none
  | .store now index =>
    match s.requests[index]? with
    | some { organizationId, key, response := some payment } =>
      let requests := s.requests.eraseIdx index
      if payment.redirectUrl.isNone then some { s with requests }
      else
        match checkoutStore config now organizationId key payment s.world.db with
        | .ok db => some { s with
            world := s.world.commit db
            requests
            returned := (organizationId, payment.id) :: s.returned }
        | .error _ => some { s with requests }
    | _ => none
  | .abort index => some { s with requests := s.requests.eraseIdx index }
  | .forget key =>
    some { s with world := { s.world with issued := Function.update s.world.issued key none } }

/-- The steps of checkout and billing. -/
def Steps (cal : Calendar) (config : BillingConfig) :
    CheckoutWorld → CheckoutEvent → CheckoutWorld → Prop :=
  Transition.Stepping (step cal config)

/-- The system before the first payment. -/
def start (ownerEmail : OrganizationId → Option String) : CheckoutWorld where
  world := .start ownerEmail

/-! ## Payments and the keys they were created for -/

/-- Every payment belongs to the key it was created for, in the provider's memory, in the answers
in flight and in the rows. -/
structure Bound (s : CheckoutWorld) : Prop where
  issued : ∀ {key id}, s.world.issued key = some id → s.created id = some key
  known : ∀ {id}, s.world.history id = [] → s.created id = none
  flight : ∀ {flight : InFlight} {p}, flight ∈ s.world.renewals → flight.response = some p →
    s.created p.id = some flight.item.idempotencyKey
  request : ∀ {r : CheckoutRequest} {p}, r ∈ s.requests → r.response = some p →
    s.created p.id = some r.key
  row : ∀ {id row}, s.world.db.payments id = some row → s.created id = some row.idempotencyKey
  consistent : World.Consistent s.world.db

theorem start_bound (ownerEmail : OrganizationId → Option String) : (start ownerEmail).Bound where
  issued h := by cases h
  known _ := rfl
  flight h := by cases h
  request h := by cases h
  row h := by cases h
  consistent := World.start_consistent ownerEmail

/-- What a step does. -/
inductive CheckoutStep (cal : Calendar) (config : BillingConfig) (s : CheckoutWorld) :
    CheckoutEvent → CheckoutWorld → Prop where
  | billing {e : Event} {world : World} : World.Steps cal config s.world e world →
    e.isCheckout = false →
    CheckoutStep cal config s (.billing e) { s with world, created := s.createdBy e world }
  | replayed {id : PaymentId} : s.world.db.replay org (.header key) = some id →
    CheckoutStep cal config s (.openRequest org key) { s with returned := (org, id) :: s.returned }
  | opened : CheckoutStep cal config s (.openRequest org key)
      { s with requests := { organizationId := org, key := .header key } :: s.requests }
  | repeated : s.requests[index]? = some { organizationId, key } →
    s.world.issued key = some payment.id →
    CheckoutStep cal config s (.call index payment)
      { s with requests :=
          s.requests.set index { organizationId, key, response := some payment } }
  | created : s.requests[index]? = some { organizationId, key } →
    s.world.issued key = none → s.world.history payment.id = [] →
    CheckoutStep cal config s (.call index payment) { s with
      world := s.world.create key payment
      requests := s.requests.set index { organizationId, key, response := some payment }
      created := Function.update s.created payment.id (some key) }
  | stored : s.requests[index]? = some { organizationId, key, response := some payment } →
    payment.redirectUrl.isSome →
    checkoutStore config now organizationId key payment s.world.db = .ok db →
    CheckoutStep cal config s (.store now index) { s with
      world := s.world.commit db
      requests := s.requests.eraseIdx index
      returned := (organizationId, payment.id) :: s.returned }
  | dropped : CheckoutStep cal config s e { s with requests := s.requests.eraseIdx index }
  | forgotten : CheckoutStep cal config s (.forget key)
      { s with world := { s.world with issued := Function.update s.world.issued key none } }

variable {cal : Calendar} {config : BillingConfig} {s s' : CheckoutWorld} {e : CheckoutEvent}

/-- A payment that exists keeps its key. -/
theorem createdBy_of_created {event : Event} {world : World} {id : PaymentId}
    (hb : s.Bound) (h : s.created id = some key) : s.createdBy event world id = some key := by
  have hne : s.world.history id ≠ [] := by
    intro hnil
    rw [hb.known hnil] at h
    cases h
  simp [createdBy, hne, h]

/-- A charge creates its payment for the key of the renewal. -/
theorem createdBy_of_charge {index : Nat} {payment : YooPayment} {world : World}
    {flight : InFlight} (hi : s.world.renewals[index]? = some flight)
    (hnil : s.world.history payment.id = []) (hnew : world.history payment.id ≠ []) :
    s.createdBy (.renewCall index payment) world payment.id =
      some flight.item.idempotencyKey := by
  simp [createdBy, hnil, hnew, World.chargedKey, hi]

theorem Bound.billing (hb : s.Bound) {event : Event} {world : World}
    (h : World.Steps cal config s.world event world) (he : event.isCheckout = false) :
    Bound { s with world, created := s.createdBy event world } where
  issued {key id} hi := by
    cases World.step_provider h with
    | quiet _ his | update _ _ his | claim _ _ his | replay _ _ _ _ his | finish _ his =>
      have hi : world.issued key = some id := hi
      rw [his] at hi
      exact createdBy_of_created hb (hb.issued hi)
    | checkout => cases he
    | charge hflight hnone hnil _ hh his =>
      have hi : world.issued key = some id := hi
      simp only [his, World.create, Function.update_apply] at hi
      split at hi
      · next hkey =>
        cases hi
        rw [hkey]
        refine createdBy_of_charge hflight hnil ?_
        simp [hh, World.create]
      · exact createdBy_of_created hb (hb.issued hi)
  known {id} hnil := by
    have hold : s.world.history id = [] := by
      by_contra hne
      obtain ⟨p, hp⟩ := List.exists_mem_of_ne_nil _ hne
      exact List.ne_nil_of_mem (World.mem_history_step h hp) hnil
    have hnil : world.history id = [] := hnil
    simp [createdBy, hold, hnil, hb.known hold]
  flight {flight p} hf hp := by
    cases World.step_provider h with
    | quiet _ _ _ hr | update _ _ _ _ hr =>
      exact createdBy_of_created hb (hb.flight (hr ▸ hf) hp)
    | checkout => cases he
    | claim _ _ _ _ hr =>
      rw [hr] at hf
      rcases List.mem_cons.mp hf with rfl | hf
      · cases hp
      · exact createdBy_of_created hb (hb.flight hf hp)
    | replay hi hissued _ _ _ _ hr =>
      rw [hr] at hf
      rcases List.mem_or_eq_of_mem_set hf with hf | rfl
      · exact createdBy_of_created hb (hb.flight hf hp)
      · cases hp
        exact createdBy_of_created hb (hb.issued hissued)
    | charge hi _ hnil _ hh _ _ hr =>
      rw [hr] at hf
      rcases List.mem_or_eq_of_mem_set hf with hf | rfl
      · exact createdBy_of_created hb (hb.flight hf hp)
      · cases hp
        have hnew : world.history p.id ≠ [] := by simp [hh, World.create]
        have hcreated := createdBy_of_charge hi hnil hnew
        exact hcreated
    | finish _ _ _ hr =>
      rw [hr] at hf
      exact createdBy_of_created hb (hb.flight (List.mem_of_mem_eraseIdx hf) hp)
  request hr hp := createdBy_of_created hb (hb.request hr hp)
  row {id row} hrow := by
    cases World.step_keys h with
    | same hsame =>
      obtain ⟨row₀, hrow₀, -, hkey⟩ := hsame.kept hrow
      rw [hkey]
      exact createdBy_of_created hb (hb.row hrow₀)
    | checkout => cases he
    | renewal hi hins =>
      rcases hins.origin hrow with ⟨rfl, -, hkey⟩ | ⟨row₀, hrow₀, -, hkey⟩
      · rw [hkey]
        exact createdBy_of_created hb (hb.flight (List.mem_of_getElem? hi) rfl)
      · rw [hkey]
        exact createdBy_of_created hb (hb.row hrow₀)
  consistent := by
    cases World.step_keys h with
    | same hsame => exact hb.consistent.same hsame
    | checkout => cases he
    | renewal _ hins => exact hb.consistent.insert hins

/-- What the insert of a checkout request does when it does not violate a unique index. -/
theorem checkoutStore_eq_ok {now : Timestamp} {org : OrganizationId} {key : IdempotencyKey}
    {payment : YooPayment} {db db' : Database}
    (h : checkoutStore config now org key payment db = .ok db') :
    (db' = db ∧ ∃ id, db.paymentKeys org key = some id) ∨
      World.Inserts db org key payment.id db' := by
  unfold checkoutStore at h
  split at h
  · next hkey =>
    cases h
    exact .inl ⟨rfl, Option.isSome_iff_exists.mp hkey⟩
  split at h
  · cases h
  · next hkey hrow =>
    cases h
    exact .inr (.insertPayment rfl rfl rfl (by simpa using hkey) (by simpa using hrow))

theorem step_cases (h : Steps cal config s e s') : CheckoutStep cal config s e s' := by
  unfold Steps Transition.Stepping at h
  cases e with
  | billing event =>
    simp only [step] at h
    split at h
    · cases h
    · next he =>
      obtain ⟨world, hw, rfl⟩ := Option.map_eq_some_iff.mp h
      exact .billing hw (by simpa using he)
  | openRequest org key =>
    simp only [step] at h
    split at h
    · next id hreplay => cases h; exact .replayed hreplay
    · cases h; exact .opened
  | call index payment =>
    simp only [step] at h
    split at h
    · next org key hi =>
      split at h
      · next id hissued =>
        simp only [Option.ite_none_right_eq_some] at h
        obtain ⟨⟨rfl, -⟩, h⟩ := h
        cases h; exact .repeated hi hissued
      · next hnone =>
        simp only [Option.ite_none_right_eq_some] at h
        obtain ⟨⟨hnil, -⟩, h⟩ := h
        cases h; exact .created hi hnone hnil
    · cases h
  | store now index =>
    simp only [step] at h
    split at h
    · next org key payment hi =>
      split at h
      · cases h; exact .dropped
      · next hurl =>
        split at h
        · next db hdb =>
          cases h
          exact .stored hi (by simpa [Option.isSome_iff_ne_none] using hurl) hdb
        · cases h; exact .dropped
    · cases h
  | abort index => cases h; exact .dropped
  | forget key => cases h; exact .forgotten

theorem Bound.step (hb : s.Bound) (h : Steps cal config s e s') : s'.Bound := by
  cases step_cases h with
  | billing hw he => exact hb.billing hw he
  | replayed => exact ⟨hb.issued, hb.known, hb.flight, hb.request, hb.row, hb.consistent⟩
  | opened =>
    refine ⟨hb.issued, hb.known, hb.flight, fun hr hp => ?_, hb.row, hb.consistent⟩
    rcases List.mem_cons.mp hr with rfl | hr
    · cases hp
    · exact hb.request hr hp
  | repeated hi hissued =>
    refine ⟨hb.issued, hb.known, hb.flight, fun hr hp => ?_, hb.row, hb.consistent⟩
    rcases List.mem_or_eq_of_mem_set hr with hr | rfl
    · exact hb.request hr hp
    · cases hp; exact hb.issued hissued
  | @created index org key payment hi hnone hnil =>
    -- the payment is new, so no answer, renewal or row can have it
    have hkeep {id : PaymentId} {key' : IdempotencyKey} (h : s.created id = some key') :
        Function.update s.created payment.id (some key) id = some key' := by
      have hne : id ≠ payment.id := by
        rintro rfl
        rw [hb.known hnil] at h
        cases h
      rw [Function.update_of_ne hne, h]
    refine ⟨fun {key' id} hi' => ?_, fun {id} hnil' => ?_, fun hf hp => hkeep (hb.flight hf hp),
      fun hr hp => ?_, fun hrow => hkeep (hb.row hrow), hb.consistent⟩
    · simp only [World.create, Function.update_apply] at hi'
      split at hi'
      · next hk => cases hi'; simp [hk]
      · exact hkeep (hb.issued hi')
    · simp only [World.create, Function.update_apply] at hnil'
      split at hnil'
      · cases hnil'
      · next hne => exact (Function.update_of_ne hne ..).trans (hb.known hnil')
    · rcases List.mem_or_eq_of_mem_set hr with hr | rfl
      · exact hkeep (hb.request hr hp)
      · cases hp; simp
  | stored hi _ hdb =>
    have hrequest {i : Nat} {r p} (hr : r ∈ s.requests.eraseIdx i) (hp : r.response = some p) :
        s.created p.id = some r.key := hb.request (List.mem_of_mem_eraseIdx hr) hp
    rcases checkoutStore_eq_ok hdb with ⟨rfl, -⟩ | hins
    · exact ⟨hb.issued, hb.known, hb.flight, hrequest, hb.row, hb.consistent⟩
    · refine ⟨hb.issued, hb.known, hb.flight, hrequest, fun hrow => ?_, hb.consistent.insert hins⟩
      rcases hins.origin hrow with ⟨rfl, -, hkey⟩ | ⟨row, hrow₀, -, hkey⟩
      · rw [hkey]; exact hb.request (List.mem_of_getElem? hi) rfl
      · rw [hkey]; exact hb.row hrow₀
  | dropped =>
    exact ⟨hb.issued, hb.known, hb.flight, fun hr hp => hb.request (List.mem_of_mem_eraseIdx hr) hp,
      hb.row, hb.consistent⟩
  | @forgotten key =>
    refine ⟨fun {key' id} hi => ?_, hb.known, hb.flight, hb.request, hb.row, hb.consistent⟩
    simp only [Function.update_apply] at hi
    split at hi
    · cases hi
    · exact hb.issued hi

/-! ## Answered payments -/

/-- The payment has a row of the organization, and its notifications are not answered with
`PAYMENT_NOT_FOUND`. -/
structure Answers (db : Database) (org : OrganizationId) (id : PaymentId) : Prop where
  row : ∃ row, db.payments id = some row ∧ row.organizationId = org
  found : ∀ status payment, payment.id = id →
    verifyNotification status payment db ≠ .error "PAYMENT_NOT_FOUND"

/-- Every payment id answered to a client has a row of its organization. -/
def NoOrphan (s : CheckoutWorld) : Prop :=
  ∀ org id, (org, id) ∈ s.returned → Answers s.world.db org id

/-- A request that stores its payment finds no row of its key, or the row of that payment. -/
def KeepsKey (s : CheckoutWorld) : CheckoutEvent → Prop
  | .store _ index => ∀ request payment id, s.requests[index]? = some request →
    request.response = some payment → payment.redirectUrl.isSome →
    s.world.db.paymentKeys request.organizationId request.key = some id → id = payment.id
  | _ => True

theorem verifyNotification_found {status : PaymentStatus} {payment : YooPayment} {db : Database}
    (hrow : db.payments payment.id = some row) :
    verifyNotification status payment db ≠ .error "PAYMENT_NOT_FOUND" := by
  unfold verifyNotification
  rw [hrow]
  split
  · decide
  split
  · decide
  split
  · next h => cases h
  split
  · decide
  split
  · decide
  split
  · decide
  · nofun

theorem Answers.of_row {org : OrganizationId} {id : PaymentId} {db : Database}
    {row : BillingPayment} (hrow : db.payments id = some row) (horg : row.organizationId = org) :
    Answers db org id := by
  refine ⟨⟨row, hrow, horg⟩, ?_⟩
  rintro status payment rfl
  exact verifyNotification_found hrow

/-- Tables that keep the rows keep the answers. -/
theorem Answers.grows {New : PaymentId → BillingPayment → Prop} {db db' : Database}
    {org : OrganizationId} {id : PaymentId} (h : Answers db org id) (hg : db.Grows New db') :
    Answers db' org id := by
  obtain ⟨row, hrow, horg⟩ := h.row
  obtain ⟨row', hrow', hc⟩ := hg.kept hrow
  exact .of_row hrow' (hc.organizationId.trans horg)

theorem NoOrphan.step (ho : s.NoOrphan) (hb : s.Bound) (h : Steps cal config s e s')
    (hk : s.KeepsKey e) : s'.NoOrphan := by
  cases step_cases h with
  | billing hw _ => exact fun org id hr => (ho org id hr).grows (World.step_grows hw)
  | @replayed org key id hreplay =>
    intro org' id' hr
    rcases List.mem_cons.mp hr with heq | hr
    · cases heq
      obtain ⟨hkey, -⟩ := Option.filter_eq_some_iff.mp hreplay
      obtain ⟨row, hrow, horg, -⟩ := hb.consistent.row hkey
      exact .of_row hrow horg
    · exact ho org' id' hr
  | opened | repeated | created | dropped | forgotten => exact ho
  | @stored index org key payment now db hi hurl hdb =>
    have hgrows : ∃ New, s.world.db.Grows New db := by
      rcases checkoutStore_eq_ok hdb with ⟨rfl, -⟩ | hins
      · exact ⟨fun _ _ => False, .refl _⟩
      · exact ⟨_, hins.rows⟩
    obtain ⟨New, hgrows⟩ := hgrows
    intro org' id' hr
    rcases List.mem_cons.mp hr with heq | hr
    · cases heq
      rcases checkoutStore_eq_ok hdb with ⟨rfl, id, hkey⟩ | hins
      · obtain rfl := hk _ _ _ hi rfl hurl hkey
        obtain ⟨row, hrow, horg, -⟩ := hb.consistent.row hkey
        exact .of_row hrow horg
      · obtain ⟨row, hrow, horg, -⟩ := hins.row
        exact .of_row hrow horg
    · exact (ho org' id' hr).grows hgrows

theorem NoOrphan.keepsKey (ho : s'.NoOrphan) (hb : s.Bound) (h : Steps cal config s e s') :
    s.KeepsKey e := by
  cases e with
  | store now index =>
    rintro ⟨org, key, response⟩ payment id hi rfl hurl hkey
    have hstored : checkoutStore config now org key payment s.world.db = .ok s.world.db := by
      simp [checkoutStore, hkey]
    have hsome : payment.redirectUrl.isNone = false := by
      simpa [Option.isSome_iff_ne_none] using hurl
    have hs' : s' = { s with
        world := s.world.commit s.world.db
        requests := s.requests.eraseIdx index
        returned := (org, payment.id) :: s.returned } := by
      unfold Steps Transition.Stepping at h
      simpa [CheckoutWorld.step, hi, hsome, hstored, eq_comm] using h
    subst hs'
    obtain ⟨row, hrow, horg⟩ := (ho org payment.id List.mem_cons_self).row
    -- the row of the answered payment is stored under the key it was created for
    have hcreated := hb.row hrow
    rw [hb.request (List.mem_of_getElem? hi) rfl, Option.some.injEq] at hcreated
    have hkey' := hb.consistent.key hrow
    rw [horg, ← hcreated, hkey] at hkey'
    exact Option.some.inj hkey'
  | billing | openRequest | call | abort | forget => trivial

/-- Every payment id answered to a client has a row of its organization in every state of a run
exactly when every request of the run that stores its payment finds no row of its key, or the row
of that payment. -/
theorem no_orphan_iff (cal : Calendar) (config : BillingConfig)
    (ownerEmail : OrganizationId → Option String) (es : List CheckoutEvent) (s : CheckoutWorld) :
    Transition.Run (Transition.Meeting (Steps cal config) fun _ _ s' => s'.NoOrphan)
        (start ownerEmail) es s ↔
      Transition.Run (Transition.Meeting (Steps cal config) fun s e _ => s.KeepsKey e)
        (start ownerEmail) es s := by
  have hstart : (start ownerEmail).NoOrphan := by
    intro org id hr
    cases hr
  constructor
  · refine fun h => h.mono_invariant (I := Bound) (fun s e s' hb hstep => ?_)
      (start_bound ownerEmail)
    exact ⟨⟨hstep.1, hstep.2.keepsKey hb hstep.1⟩, hb.step hstep.1⟩
  · refine fun h => h.mono_invariant (I := fun s => s.Bound ∧ s.NoOrphan)
      (fun s e s' hi hstep => ?_) ⟨start_bound ownerEmail, hstart⟩
    have ho := hi.2.step hi.1 hstep.1 hstep.2
    exact ⟨⟨hstep.1, ho⟩, hi.1.step hstep.1, ho⟩

/-- A new checkout payment with its confirmation page. -/
def redirected (id : PaymentId) : YooPayment :=
  { checkoutPayment .pending id with confirmationUrl := some "https://yoomoney.ru/checkout" }

/-- A key is used again after 91 days: the stored snapshot has been blanked, and the provider has
forgotten the key. -/
def keyReused : List CheckoutEvent :=
  [.openRequest 1 0, .call 0 (redirected 10), .store april 0,
   .billing (.cleanup (april + hours (91 * 24))), .forget (.header 0),
   .openRequest 1 0, .call 0 (redirected 11), .store (april + hours (91 * 24)) 0]

theorem keyReused_enabled :
    (Transition.exec (step .thirtyDays .default) (start fun _ => some "owner@example.com")
      keyReused).isSome := by
  decide +kernel

/-- The client is answered with a payment that has no row, and its notification with
`PAYMENT_NOT_FOUND`. -/
theorem answered_payment_without_row :
    ∃ s, Transition.Run (Steps .thirtyDays .default) (start fun _ => some "owner@example.com")
        keyReused s ∧ (1, 11) ∈ s.returned ∧ s.world.db.payments 11 = none ∧
      verifyNotification .succeeded (checkoutPayment .succeeded 11) s.world.db =
        .error "PAYMENT_NOT_FOUND" :=
  ⟨_, .of_exec_get keyReused_enabled, by decide +kernel, by decide +kernel, by decide +kernel⟩

end CheckoutWorld

end Tonatiuh.Billing
