import Tonatiuh.Sessions.Refresh
import Tonatiuh.Tables.Chain
import Tonatiuh.Transition.Run

/-! The tokens of a family form a chain, and only its newest token can be used.

A rotation locks the token that it replaces. So no other transaction revokes or replaces this token
before the new one is committed, and the token is the newest of its family until then. -/

namespace Tonatiuh.Sessions

open Billing (Timestamp)
open Commands (Failure)
open Retention (UserId OrganizationId)
open Tables Transition

variable {ttl : Nat} {s s' : System} {t u : Transaction} {stage : Stage} {i : Nat} {id : TokenId}
  {stored row : RefreshToken} {e : Event}

/-! ## Statements -/

/-- The token that a rotation replaces. -/
def Transaction.rotating (t : Transaction) : Option (TokenId × RefreshToken) :=
  match t.stage with
  | .selectMembership tokenId stored | .insert tokenId stored | .replace tokenId stored
  | .commitRotation tokenId stored => some (tokenId, stored)
  | _ => none

theorem Transaction.locks_of_rotating (h : t.rotating = some (id, stored)) : t.locks = [id] := by
  cases hs : t.stage with
  | selectMembership | insert | replace | commitRotation =>
    simp only [rotating, hs, Option.some.injEq, Prod.mk.injEq] at h
    simp only [locks, hs, h.1]
  | _ => simp [rotating, hs] at h

/-- What the next statement of a transaction can find, and the stage after it. -/
inductive System.Next (s : System) (i : Nat) (t : Transaction) : Stage → Prop where
  | reused {id : TokenId} {stored : RefreshToken} (hs : t.stage = .select id)
    (hrow : s.tokens[id]? = some stored) (hfree : isUnheld Transaction.locks s.transactions i id)
    (hrevoked : stored.revokedAt.isSome) : Next s i t (.revoke (.family stored.familyId) [id])
  | selected {id : TokenId} {stored : RefreshToken} (hs : t.stage = .select id)
    (hrow : s.tokens[id]? = some stored) (hfree : isUnheld Transaction.locks s.transactions i id)
    (hlive : stored.revokedAt = none) : Next s i t (.selectMembership id stored)
  | allowed {id : TokenId} {stored : RefreshToken} (hs : t.stage = .selectMembership id stored) :
    Next s i t (.insert id stored)
  | inserted {id : TokenId} {stored : RefreshToken} (hs : t.stage = .insert id stored) :
    Next s i t (.replace id stored)
  | replaced {id : TokenId} {stored : RefreshToken} (hs : t.stage = .replace id stored) :
    Next s i t (.commitRotation id stored)
  | found {scope : Scope} {held : List TokenId} (hs : t.stage = .revoke scope held) :
    Next s i t (.lockRows scope held (s.covered scope))
  | locked {scope : Scope} {held rest : List TokenId} {id : TokenId}
    (hs : t.stage = .lockRows scope held (id :: rest))
    (hfree : isUnheld Transaction.locks s.transactions i id) :
    Next s i t (.lockRows scope (id :: held) rest)
  | updated {scope : Scope} {held : List TokenId} (hs : t.stage = .lockRows scope held []) :
    Next s i t (.commitRevocation scope held)
  | ended (answer : Except Failure Unit) : Next s i t (.ended answer)

namespace System

theorem next_cases (h : s.next i t = some stage) : s.Next i t stage := by
  cases hs : t.stage with
  | select id =>
    simp only [next, hs] at h
    split at h
    next => cases h; exact .ended _
    next stored hrow =>
      split at h
      next hfree =>
        cases h
        split
        next hrevoked => exact .reused hs hrow hfree hrevoked
        next hlive =>
          split
          · exact .ended _
          · exact .selected hs hrow hfree (Option.not_isSome_iff_eq_none.mp hlive)
      next => cases h
  | selectMembership id stored =>
    simp only [next, hs, Option.some.injEq] at h
    subst h
    split
    · exact .allowed hs
    · exact .ended _
  | insert | replace | commitRotation | revoke | commitRevocation =>
    simp only [next, hs, Option.some.injEq] at h
    subst h
    first
      | exact .inserted hs
      | exact .replaced hs
      | exact .found hs
      | exact .ended _
  | lockRows scope held rest =>
    cases rest with
    | nil =>
      simp only [next, hs, Option.some.injEq] at h
      subst h
      exact .updated hs
    | cons id rest =>
      simp only [next, hs] at h
      split at h
      next hfree =>
        cases h
        exact .locked hs hfree
      next => cases h
  | ended answer =>
    simp only [next, hs] at h
    cases h

theorem run_cases (h : s.run ttl i = some s') :
    ∃ t stage, s.transactions[i]? = some t ∧ s.next i t = some stage ∧
      s' = { s.commit ttl t with transactions := s.transactions.set i { t with stage } } := by
  obtain ⟨t, ht, h⟩ := Option.bind_eq_some_iff.mp h
  obtain ⟨stage, hstage, h⟩ := Option.bind_eq_some_iff.mp h
  exact ⟨t, stage, ht, hstage, (Option.some.inj h).symm⟩

theorem abort_cases {message : String} (h : s.abort i message = some s') :
    ∃ t, s.transactions[i]? = some t ∧ s' = { s with
      transactions := s.transactions.set i
        { t with stage := .ended (.error (.internal message)) } } := by
  obtain ⟨t, ht, h⟩ := Option.bind_eq_some_iff.mp h
  refine ⟨t, ht, ?_⟩
  split at h
  · cases h
  · exact (Option.some.inj h).symm

theorem next_locks (h : s.next i t = some stage) {k : TokenId}
    (hk : k ∈ ({ t with stage } : Transaction).locks) :
    k ∈ t.locks ∨ isUnheld Transaction.locks s.transactions i k := by
  cases next_cases h with
  | reused _ _ hfree | selected _ _ hfree => exact .inr (List.mem_singleton.mp hk ▸ hfree)
  | locked hs hfree =>
    rcases List.mem_cons.mp hk with rfl | hold
    · exact .inr hfree
    · left
      simpa only [Transaction.locks, hs] using hold
  | allowed hs | inserted hs | replaced hs | found hs | updated hs =>
    left
    simpa only [Transaction.locks, hs] using hk
  | ended => cases hk

theorem next_rotating (h : s.next i t = some stage)
    (hrow : ({ t with stage } : Transaction).rotating = some (id, stored)) :
    t.rotating = some (id, stored) ∨ s.tokens[id]? = some stored ∧ stored.revokedAt = none := by
  cases next_cases h with
  | selected _ hrow' _ hlive =>
    cases hrow
    exact .inr ⟨hrow', hlive⟩
  | allowed hs | inserted hs | replaced hs =>
    left
    simpa only [Transaction.rotating, hs] using hrow
  | _ => cases hrow

end System

/-! ## Chains of tokens -/

/-- Each token but the newest of its family is revoked and replaced by the next one. -/
structure Linked (tokens : List RefreshToken) : Prop where
  families : ∀ token ∈ tokens, token.familyId < tokens.length
  links : ∀ (id : TokenId) (token : RefreshToken), tokens[id]? = some token →
    token.replacedBy = following (tokens.map (·.familyId)) id
  revoked : ∀ token ∈ tokens, token.replacedBy.isSome → token.revokedAt.isSome

namespace Linked

variable {tokens tokens' : List RefreshToken}

theorem nil : Linked [] where
  families := by simp
  links := by simp
  revoked := by simp

/-- A token that is not revoked is the newest of its family. -/
theorem following_eq_none (h : Linked tokens) (hrow : tokens[id]? = some row)
    (hlive : row.revokedAt = none) : following (tokens.map (·.familyId)) id = none := by
  rw [← h.links id row hrow]
  refine Option.not_isSome_iff_eq_none.mp fun hsome => ?_
  have hrevoked := h.revoked row (List.mem_of_getElem? hrow) hsome
  rw [hlive] at hrevoked
  cases hrevoked

/-- Tokens are revoked. -/
theorem revoke (h : Linked tokens) (hlength : tokens'.length = tokens.length)
    (hrows : ∀ (id : TokenId) (row : RefreshToken), tokens[id]? = some row →
      tokens'[id]? = some row ∨ ∃ now, tokens'[id]? = some (row.revoke now)) : Linked tokens' := by
  have hback {id : TokenId} {row' : RefreshToken} (hrow' : tokens'[id]? = some row') :
      ∃ row, tokens[id]? = some row ∧ row'.familyId = row.familyId ∧
        row'.replacedBy = row.replacedBy ∧ (row.revokedAt.isSome → row'.revokedAt.isSome) := by
    have hlt : id < tokens.length := hlength ▸ (List.getElem?_eq_some_iff.mp hrow').1
    refine ⟨tokens[id], List.getElem?_eq_getElem hlt, ?_⟩
    rcases hrows id _ (List.getElem?_eq_getElem hlt) with hsame | ⟨now, hrevoked⟩
    · obtain rfl := Option.some.inj (hrow'.symm.trans hsame)
      exact ⟨rfl, rfl, fun h => h⟩
    · obtain rfl := Option.some.inj (hrow'.symm.trans hrevoked)
      refine ⟨rfl, rfl, fun h => ?_⟩
      rw [RefreshToken.revoke, Option.isSome_or, h, Bool.true_or]
  have hfamilies : tokens'.map (·.familyId) = tokens.map (·.familyId) := by
    refine List.ext_getElem (by simpa using hlength) fun id h₁ h₂ => ?_
    rw [List.length_map] at h₁
    obtain ⟨row, hrow, hfamily, -⟩ := hback (List.getElem?_eq_getElem h₁)
    rw [List.getElem_map, List.getElem_map, hfamily]
    exact congrArg _ (List.getElem?_eq_some_iff.mp hrow).2.symm
  exact {
    families token htoken := by
      obtain ⟨id, hid⟩ := List.mem_iff_getElem?.mp htoken
      obtain ⟨row, hrow, hfamily, -⟩ := hback hid
      rw [hlength, hfamily]
      exact h.families row (List.mem_of_getElem? hrow)
    links id token hid := by
      obtain ⟨row, hrow, -, hreplaced, -⟩ := hback hid
      rw [hfamilies, hreplaced]
      exact h.links id row hrow
    revoked token htoken hsome := by
      obtain ⟨id, hid⟩ := List.mem_iff_getElem?.mp htoken
      obtain ⟨row, hrow, -, hreplaced, hrevoked⟩ := hback hid
      exact hrevoked (h.revoked row (List.mem_of_getElem? hrow) (hreplaced ▸ hsome)) }

/-- The first token of a new family. -/
theorem concat (h : Linked tokens) (hfamily : row.familyId = tokens.length)
    (hreplaced : row.replacedBy = none) : Linked (tokens ++ [row]) where
  families token htoken := by
    rw [List.length_append, List.length_singleton]
    rcases List.mem_append.mp htoken with hold | hnew
    · exact Nat.lt_succ_of_lt (h.families token hold)
    · rw [List.mem_singleton.mp hnew, hfamily]
      exact Nat.lt_succ_self _
  links id token hid := by
    have hlength : tokens.length = (tokens.map (·.familyId)).length := (List.length_map _).symm
    rw [List.map_append, List.map_singleton]
    rcases getElem?_concat_cases hid with ⟨rfl, rfl⟩ | ⟨hlt, hid⟩
    · rw [hreplaced, hlength, following_concat_self]
    · rw [following_concat (by simpa using hlt), if_neg, h.links id token hid]
      rw [List.getElem?_map, hid, Option.map_some, Option.some.injEq, hfamily]
      exact Nat.ne_of_lt (h.families token (List.mem_of_getElem? hid))
  revoked token htoken hsome := by
    rcases List.mem_append.mp htoken with hold | hnew
    · exact h.revoked token hold hsome
    · rw [List.mem_singleton.mp hnew, hreplaced] at hsome
      cases hsome

/-- The newest token of a family is replaced. -/
theorem rotate (h : Linked tokens) (hid : tokens[id]? = some stored)
    (hlive : stored.revokedAt = none) (hfamily : row.familyId = stored.familyId)
    (hreplaced : row.replacedBy = none) {now : Timestamp} :
    Linked (tokens.modify id (·.replace now tokens.length) ++ [row]) := by
  have hlt : id < tokens.length := (List.getElem?_eq_some_iff.mp hid).1
  have hnewest := h.following_eq_none hid hlive
  have hkey : (tokens.map (·.familyId))[id]? = some row.familyId := by
    rw [List.getElem?_map, hid, Option.map_some, hfamily]
  -- the tokens before the new one
  have hold {j : TokenId} {token : RefreshToken}
      (htoken : (tokens.modify id (·.replace now tokens.length))[j]? = some token) :
      j = id ∧ token = stored.replace now tokens.length ∨ j ≠ id ∧ tokens[j]? = some token := by
    rcases getElem?_modify_cases htoken with ⟨rfl, old, hold, rfl⟩ | ⟨hne, htoken⟩
    · obtain rfl := Option.some.inj (hid.symm.trans hold)
      exact .inl ⟨rfl, rfl⟩
    · exact .inr ⟨hne, htoken⟩
  have hfamilies : (tokens.modify id (·.replace now tokens.length)).map (·.familyId) =
      tokens.map (·.familyId) := by
    refine List.ext_getElem? fun j => ?_
    rw [List.getElem?_map, List.getElem?_map]
    rcases eq_or_ne id j with rfl | hne
    · rw [List.getElem?_modify_eq, hid]
      rfl
    · rw [List.getElem?_modify_ne _ _ hne]
  exact {
    families token htoken := by
      rw [List.length_append, List.length_modify, List.length_singleton]
      rcases List.mem_append.mp htoken with hmem | hnew
      · obtain ⟨j, hj⟩ := List.mem_iff_getElem?.mp hmem
        rcases hold hj with ⟨-, rfl⟩ | ⟨-, hj⟩
        · exact Nat.lt_succ_of_lt (h.families stored (List.mem_of_getElem? hid))
        · exact Nat.lt_succ_of_lt (h.families token (List.mem_of_getElem? hj))
      · rw [List.mem_singleton.mp hnew, hfamily]
        exact Nat.lt_succ_of_lt (h.families stored (List.mem_of_getElem? hid))
    links j token hj := by
      have hlength : tokens.length = (tokens.map (·.familyId)).length := (List.length_map _).symm
      rw [List.map_append, List.map_singleton, hfamilies]
      rcases getElem?_concat_cases hj with ⟨rfl, rfl⟩ | ⟨hjlt, hj⟩
      · rw [hreplaced, List.length_modify, hlength, following_concat_self]
      · rw [List.length_modify] at hjlt
        rw [following_concat (by simpa using hjlt), List.length_map]
        rcases hold hj with ⟨rfl, rfl⟩ | ⟨hne, hj⟩
        · rw [if_pos hkey, hnewest, Option.none_or]
          rfl
        · rw [h.links j token hj]
          split
          next hsame =>
            -- the token that is replaced comes after it, and so it has been replaced itself
            cases hfollowing : following (tokens.map (·.familyId)) j with
            | some => rfl
            | none =>
              rcases Nat.lt_or_gt_of_ne hne with hjid | hidj
              · exact absurd (hkey.trans hsame.symm)
                  (Tables.following_eq_none.mp hfollowing id hjid (by simpa using hlt))
              · exact absurd (hsame.trans hkey.symm)
                  (Tables.following_eq_none.mp hnewest j hidj (by simpa using hjlt))
          next => rfl
    revoked token htoken hsome := by
      rcases List.mem_append.mp htoken with hmem | hnew
      · obtain ⟨j, hj⟩ := List.mem_iff_getElem?.mp hmem
        rcases hold hj with ⟨-, rfl⟩ | ⟨-, hj⟩
        · rfl
        · exact h.revoked token (List.mem_of_getElem? hj) hsome
      · rw [List.mem_singleton.mp hnew, hreplaced] at hsome
        cases hsome }

end Linked

/-! ## Invariant -/

/-- Locks are exclusive, the tokens form chains, and a token that is being replaced is as it was
when its row was locked. -/
structure System.Sound (s : System) : Prop where
  locks : Exclusive Transaction.locks s.transactions
  tokens : Linked s.tokens
  rotating : ∀ (i : Nat) (t : Transaction), s.transactions[i]? = some t → ∀ id stored,
    t.rotating = some (id, stored) → s.tokens[id]? = some stored ∧ stored.revokedAt = none

namespace System

/-- A statement that is no COMMIT changes no row. -/
theorem commit_eq (h : ∀ id stored, t.stage ≠ .commitRotation id stored)
    (h' : ∀ scope held, t.stage ≠ .commitRevocation scope held) : s.commit ttl t = s := by
  cases hs : t.stage with
  | commitRotation => exact absurd hs (h _ _)
  | commitRevocation => exact absurd hs (h' _ _)
  | _ => simp only [commit, hs]

/-- The rows that a transaction has not locked are kept. -/
theorem commit_getElem? (hrow : s.tokens[id]? = some row) (hid : id ∉ t.locks) :
    (s.commit ttl t).tokens[id]? = some row := by
  cases hs : t.stage with
  | commitRotation tokenId stored =>
    simp only [Transaction.locks, hs, List.mem_singleton] at hid
    have hlt : id < (s.tokens.modify tokenId (·.replace t.now s.tokens.length)).length := by
      rw [List.length_modify]
      exact (List.getElem?_eq_some_iff.mp hrow).1
    simp only [commit, hs]
    rw [List.getElem?_append_left hlt, List.getElem?_modify_ne _ _ (Ne.symm hid), hrow]
  | commitRevocation scope held =>
    simp only [Transaction.locks, hs] at hid
    simp only [commit, hs]
    rw [List.getElem?_mapIdx, hrow, Option.map_some, if_neg hid]
  | _ => simpa only [commit, hs] using hrow

theorem Sound.commit_tokens (hi : s.Sound) (ht : s.transactions[i]? = some t) :
    Linked (s.commit ttl t).tokens := by
  cases hs : t.stage with
  | commitRotation tokenId stored =>
    obtain ⟨hrow, hlive⟩ := hi.rotating i t ht tokenId stored (by rw [Transaction.rotating, hs])
    simp only [commit, hs]
    refine hi.tokens.rotate hrow hlive ?_ ?_
    · rfl
    · rfl
  | commitRevocation scope held =>
    simp only [commit, hs]
    refine hi.tokens.revoke List.length_mapIdx fun id row hrow => ?_
    rw [List.getElem?_mapIdx, hrow, Option.map_some]
    split
    · exact .inr ⟨t.now, rfl⟩
    · exact .inl rfl
  | _ => simpa only [commit, hs] using hi.tokens

/-- The transaction `t` has run a statement and comes to `stage`. -/
theorem Sound.advance (hi : s.Sound) (ht : s.transactions[i]? = some t)
    (hlocks : ∀ k, k ∈ ({ t with stage } : Transaction).locks →
      k ∈ t.locks ∨ isUnheld Transaction.locks s.transactions i k)
    (hrotating : ∀ id stored, ({ t with stage } : Transaction).rotating = some (id, stored) →
      s.commit ttl t = s ∧
        (t.rotating = some (id, stored) ∨ s.tokens[id]? = some stored ∧ stored.revokedAt = none)) :
    ({ s.commit ttl t with
      transactions := s.transactions.set i { t with stage } } : System).Sound where
  locks := hi.locks.set ht hlocks
  tokens := hi.commit_tokens ht
  rotating j u hj id stored hrow := by
    rcases getElem?_set_cases hj with ⟨-, rfl⟩ | ⟨hne, hj⟩
    · obtain ⟨hno, hold | hnew⟩ := hrotating id stored hrow
      · rw [hno]
        exact hi.rotating i t ht id stored hold
      · rw [hno]
        exact hnew
    · obtain ⟨hid, hlive⟩ := hi.rotating j u hj id stored hrow
      refine ⟨commit_getElem? hid fun hlocked => hne ?_, hlive⟩
      have hu : id ∈ u.locks := by
        rw [Transaction.locks_of_rotating hrow]
        exact List.mem_singleton_self id
      exact hi.locks j i u t id hj ht hu hlocked

theorem Sound.advance_next (hi : s.Sound) (ht : s.transactions[i]? = some t)
    (hnext : s.next i t = some stage) :
    ({ s.commit ttl t with
      transactions := s.transactions.set i { t with stage } } : System).Sound := by
  refine hi.advance ht (fun _ hk => next_locks hnext hk) fun id stored hrow =>
    ⟨?_, next_rotating hnext hrow⟩
  cases next_cases hnext with
  | selected hs | allowed hs | inserted hs | replaced hs => simp only [commit, hs]
  | _ => cases hrow

theorem Sound.run (hi : s.Sound) (h : s.run ttl i = some s') : s'.Sound := by
  obtain ⟨t, stage, ht, hnext, rfl⟩ := run_cases h
  exact hi.advance_next ht hnext

/-- Transactions begin or end that have locked nothing, and tokens change that no transaction has
locked. -/
theorem Sound.of_tokens (hi : s.Sound) (hlocks : Exclusive Transaction.locks s'.transactions)
    (htokens : Linked s'.tokens)
    (htransactions : ∀ (j : Nat) (u : Transaction), s'.transactions[j]? = some u →
      (∃ j' : Nat, s.transactions[j']? = some u) ∨ u.rotating = none)
    (hkept : ∀ (id : TokenId) row, s.tokens[id]? = some row →
      (∃ t ∈ s.transactions, id ∈ t.locks) → s'.tokens[id]? = some row) : s'.Sound where
  locks := hlocks
  tokens := htokens
  rotating j u hj id stored hrow := by
    rcases htransactions j u hj with ⟨j', hj'⟩ | hnone
    · obtain ⟨hid, hlive⟩ := hi.rotating j' u hj' id stored hrow
      refine ⟨hkept id stored hid ⟨u, List.mem_of_getElem? hj', ?_⟩, hlive⟩
      rw [Transaction.locks_of_rotating hrow]
      exact List.mem_singleton_self id
    · rw [hnone] at hrow
      cases hrow

theorem Sound.begin_ (hi : s.Sound) (hlocks : (⟨s.now, stage⟩ : Transaction).locks = [])
    (hrotating : (⟨s.now, stage⟩ : Transaction).rotating = none) : (s.begin_ stage).Sound := by
  refine hi.of_tokens (hi.locks.concat hlocks) hi.tokens (fun j u hj => ?_) fun _ _ hrow _ => hrow
  rcases getElem?_concat_cases hj with ⟨-, rfl⟩ | ⟨-, hj⟩
  · exact .inr hrotating
  · exact .inl ⟨j, hj⟩

theorem Sound.step (hi : s.Sound) (h : s.step ttl e = some s') : s'.Sound := by
  cases e with
  | run i => exact hi.run h
  | signIn userId organizationId =>
    cases h
    refine hi.of_tokens hi.locks (hi.tokens.concat rfl rfl) (fun j u hj => .inl ⟨j, hj⟩)
      fun id row hrow _ => ?_
    rw [List.getElem?_append_left (List.getElem?_eq_some_iff.mp hrow).1]
    exact hrow
  | refresh tokenId =>
    cases h
    exact hi.begin_ rfl rfl
  | revoke scope =>
    simp only [System.step] at h
    split at h
    · cases h
    · cases h
      exact hi.begin_ rfl rfl
  | logout tokenId =>
    simp only [System.step] at h
    split at h
    next hfree =>
      cases h
      have hrows (id : TokenId) (row : RefreshToken) (hrow : s.tokens[id]? = some row) :
          (s.tokens.modify tokenId (·.revoke s.now))[id]? =
            some (if tokenId = id then row.revoke s.now else row) := by
        rw [List.getElem?_modify, hrow]
        rfl
      refine hi.of_tokens hi.locks ?_ (fun j u hj => .inl ⟨j, hj⟩) fun id row hrow hlocked => ?_
      · refine hi.tokens.revoke (List.length_modify ..) fun id row hrow => ?_
        rw [hrows id row hrow]
        split
        · exact .inr ⟨s.now, rfl⟩
        · exact .inl rfl
      · obtain ⟨t, ht, hid⟩ := hlocked
        simp only [List.all_eq_true, decide_eq_true_eq] at hfree
        rw [hrows id row hrow, if_neg]
        rintro rfl
        exact hfree t ht hid
    next => cases h
  | abort i message =>
    obtain ⟨t, ht, rfl⟩ := abort_cases h
    refine hi.of_tokens (hi.locks.set ht fun _ hk => by cases hk) hi.tokens (fun j u hj => ?_)
      fun _ _ hrow _ => hrow
    rcases getElem?_set_cases hj with ⟨-, rfl⟩ | ⟨-, hj⟩
    · exact .inr rfl
    · exact .inl ⟨j, hj⟩
  | setMember | wait =>
    cases h
    exact hi.of_tokens hi.locks hi.tokens (fun j u hj => .inl ⟨j, hj⟩) fun _ _ hrow _ => hrow

/-- A deployment in which nobody has signed in. -/
structure IsFresh (s : System) : Prop where
  tokens : s.tokens = []
  transactions : s.transactions = []
  reused : s.reused = []

theorem IsFresh.sound (h : s.IsFresh) : s.Sound where
  locks := h.transactions ▸ .nil
  tokens := h.tokens ▸ .nil
  rotating i t ht := by simp [h.transactions] at ht

/-! ## Families -/

/-- Token `id` has been replaced by token `nextId`. -/
def Replaces (s : System) (id nextId : TokenId) : Prop :=
  ∃ token, s.tokens[id]? = some token ∧ token.replacedBy = some nextId

/-- Each family has at most one token that is not revoked, and is one chain of tokens, from its
first to its newest. -/
structure Chained (s : System) : Prop where
  single : ∀ (i j : TokenId) (a b : RefreshToken), s.tokens[i]? = some a → s.tokens[j]? = some b →
    a.familyId = b.familyId → a.revokedAt = none → b.revokedAt = none → i = j
  links : ∀ (id : TokenId) (token : RefreshToken), s.tokens[id]? = some token →
    token.replacedBy = following (s.tokens.map (·.familyId)) id
  acyclic : ∀ id, ¬Relation.TransGen s.Replaces id id

theorem Sound.chained (hi : s.Sound) : s.Chained where
  single i j a b ha hb hfamily hlive hlive' := by
    have hkey : (s.tokens.map (·.familyId))[i]? = (s.tokens.map (·.familyId))[j]? := by
      rw [List.getElem?_map, List.getElem?_map, ha, hb, Option.map_some, Option.map_some, hfamily]
    have hlast {i j : TokenId} {a b : RefreshToken} (ha : s.tokens[i]? = some a)
        (hb : s.tokens[j]? = some b) (hlive : a.revokedAt = none)
        (hkey : (s.tokens.map (·.familyId))[j]? = (s.tokens.map (·.familyId))[i]?) : ¬i < j := by
      intro hlt
      refine Tables.following_eq_none.mp (hi.tokens.following_eq_none ha hlive) j hlt ?_ hkey
      rw [List.length_map]
      exact (List.getElem?_eq_some_iff.mp hb).1
    rcases Nat.lt_trichotomy i j with hlt | heq | hgt
    · exact absurd hlt (hlast ha hb hlive hkey.symm)
    · exact heq
    · exact absurd hgt (hlast hb ha hlive' hkey)
  links := hi.tokens.links
  acyclic id h := by
    have hle : s.Replaces ≤ fun i j => following (s.tokens.map (·.familyId)) i = some j := by
      rintro i j ⟨token, htoken, hreplaced⟩
      rw [← hreplaced, hi.tokens.links i token htoken]
    exact following_acyclic (Relation.TransGen.mono hle id id h)

end System

/-- In every state of every run, each family is one chain that ends in its newest token, the only
one that may be unrevoked. -/
theorem families_chained {start : System} (hstart : start.IsFresh)
    (h : Run (Stepping (System.step ttl)) start es s) : s.Chained :=
  (h.invariant (fun _ _ _ hi hstep => System.Sound.step hi hstep) hstart.sound).chained

/-- Two refreshes of one token. The second waits, finds the token replaced, and revokes the
family. -/
def refreshedTwice : List Event :=
  [.setMember 0 0 true, .signIn 0 0, .refresh 0, .refresh 0] ++ List.replicate 5 (.run 0) ++
    List.replicate 6 (.run 1)

theorem refreshedTwice_enabled : (exec (System.step 60) {} refreshedTwice).isSome := by
  decide +kernel

theorem families_chained_refreshedTwice :
    ((exec (System.step 60) {} refreshedTwice).get refreshedTwice_enabled).Chained :=
  families_chained ⟨rfl, rfl, rfl⟩ (Run.of_exec_get refreshedTwice_enabled)

end Tonatiuh.Sessions
