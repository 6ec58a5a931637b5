import Tonatiuh.Trading.Ledger
import Tonatiuh.Trading.OrderRequests

/-! The requests of `closeFilledPosition` and `openPositionForStrategy`, for sessions that have been
started.

`contract` knows the account and the stored orders; here the table of the sessions is added, whose
length gives the number of the next session. -/

namespace Tonatiuh.Trading

open Async Config

/-! ## Started sessions -/

/-- The orders of the account belong to sessions that have been started. -/
def World.Started (w : World) : Prop :=
  ∀ o ∈ w.exchange, ∀ i, o.session = some i → i < w.sessions.length

/-- What holds outside at every moment. -/
structure World.Valid (w : World) : Prop where
  ledger : Ledger w.exchange w.orders
  started : w.Started

theorem World.Started.evolves {w w' : World} (h : w.Started)
    (hs : w.sessions.length ≤ w'.sessions.length)
    (hev : Exchange.Evolves full w.exchange w'.exchange) : w'.Started := by
  intro o' ho' i hi
  obtain ⟨n, hn⟩ := List.getElem?_of_mem ho'
  obtain ⟨o, ho, hevo⟩ := hev.getElem?_back hn
  exact (h o (List.mem_of_getElem? ho) i (hevo.session ▸ hi)).trans_le hs

/-- No request but `startSession` changes the number of sessions. -/
theorem serve_sessions_length {r : Request} {x : Except String r.Answer} (hr : r ≠ .startSession)
    (h : serve w r outcome = some (x, w')) : w'.sessions.length = w.sessions.length := by
  cases ha : r.accounting with
  | false => rw [((serve_tables h).2 ha).1]
  | true =>
    unfold serve at h
    split at h
    all_goals first
      | (cases h; done)
      | exact absurd rfl hr
      | (cases h; rfl)
      | (cases h; exact List.length_mapIdx)
      | cases ha

theorem serve_started {r : Request} {x : Except String r.Answer} (hr : r.OfOrders session)
    (h : w.Started) (hsession : ∀ i, session = some i → i < w.sessions.length)
    (hserve : serve w r outcome = some (x, w')) :
    w'.Started ∧ w'.sessions.length = w.sessions.length := by
  have hne : r ≠ .startSession := by
    rintro rfl
    exact hr
  have hlength := serve_sessions_length hne hserve
  refine ⟨?_, hlength⟩
  obtain hev | ⟨purpose, session', side, amount, price, fill, rfl, _, _, _, heq⟩ :=
    serve_exchange hserve
  · exact h.evolves hlength.ge hev
  · intro o ho i hi
    rw [hlength]
    obtain ho | ho := List.mem_append.mp (heq ▸ ho)
    · exact h o ho i hi
    · cases List.mem_singleton.mp ho
      have hr : session' = session := hr
      exact hsession i (hr ▸ hi)

/-! ## The contract -/

/-- `contract` with the table of the sessions. -/
def sessionContract (terms : Terms) : Contract api Memory World String where
  rely s t := Interferes terms.full s t ∧ t.2.sessions = s.2.sessions
  rely_refl s := ⟨.refl s, rfl⟩
  rely_trans _ _ _ h h' := ⟨h.1.trans h'.1, h'.2.trans h.2⟩
  served := (contract terms Ledger).served
  pending r s := s.2.Valid ∧ EndsFlat terms.full s.2.exchange r
  ready s := s.2.Valid
  pending_ready _ _ h := h.1

/-- What is proved under `contract` of a program that submits orders for one session. -/
theorem safe_inSession {p : Prog α} {s : Memory × World}
    {Q : Except String α → Memory × World → Prop}
    (h : Safe (contract terms Ledger) Q p s) (hp : p.Sends (Request.OfOrders session))
    (hs : s.2.Started) (hsession : ∀ i, session = some i → i < s.2.sessions.length) :
    Safe (sessionContract terms)
      (fun x t => Q x t ∧ t.2.Started ∧ t.2.sessions.length = s.2.sessions.length) p s := by
  refine Safe.keeping (I := fun w => w.Started ∧ w.sessions.length = s.2.sessions.length) h hp
    ⟨hs, rfl⟩ ?_ ?_ ?_ ?_
  · rintro s' t ⟨hst, hsessions⟩
    refine ⟨hst, fun ⟨hi, hlength⟩ => ⟨hi.evolves (by rw [hsessions]) hst.exchange, ?_⟩⟩
    rw [hsessions, hlength]
  · rintro r s' x t hr ⟨hi, hlength⟩ ⟨hm, outcome, hmeets, hserve⟩
    obtain ⟨hstarted, heq⟩ := serve_started hr hi (fun i hi => hlength ▸ hsession i hi) hserve
    exact ⟨⟨hm, outcome, hmeets, hserve⟩, hstarted, heq.trans hlength⟩
  · exact fun r s' ⟨hl, hends⟩ ⟨hi, _⟩ => ⟨⟨hl, hi⟩, hends⟩
  · exact fun s' hl ⟨hi, _⟩ => ⟨hl, hi⟩

end Tonatiuh.Trading
