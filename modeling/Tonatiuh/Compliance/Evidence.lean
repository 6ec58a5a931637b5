import Tonatiuh.Compliance.Consents
import Tonatiuh.Transition.Locks
import Tonatiuh.Transition.Run

/-! The evidence of a consent.

The gate compares two columns of `users` with the current versions. The rows of `consent_events` are
added once for each version, so a consent to a version that the migration has a row for leaves no
evidence of its document. -/

namespace Tonatiuh.Compliance

open Retention (UserId)
open Tables Transition

variable {protocol : String → Option String} {s s' : System} {env : Environment}
  {config : ComplianceConfig} {userId : UserId} {document : LegalDocument} {type : DocumentType}
  {source : Source} {row : ConsentEvent} {e : Event}

/-! ## Configuration -/

theorem ok_of_bind {ε α β : Type} {x : Except ε α} {f : α → Except ε β} {b : β}
    (h : (x >>= f) = .ok b) : ∃ a, x = .ok a ∧ f a = .ok b := by
  cases x with
  | error => cases h
  | ok a => exact ⟨a, rfl, h⟩

theorem ok_of_ite {ε α : Type} {c : Prop} [Decidable c] {error : ε} {x : Except ε α} {a : α}
    (h : (if c then .error error else x) = .ok a) : x = .ok a := by
  split at h
  · cases h
  · exact h

theorem ok_of_toOption {ε α : Type} {x : Except ε α} {a : α} (h : x.toOption = some a) :
    x = .ok a := by
  cases x with
  | error => cases h
  | ok b => exact congrArg _ (Option.some.inj h)

theorem version_ok {name fallback value : String} {given : Option String}
    (h : version name given fallback = .ok value) : isVersion value ∧ value ≠ "legacy" := by
  simp only [version] at h
  split at h
  next => cases h
  next hvalid =>
    cases h
    simpa using hvalid

/-- A document has the type that it is read for, and no version of the migration. -/
theorem getComplianceConfig_ok (h : getComplianceConfig protocol env = .ok config)
    (type : DocumentType) :
    (config.document type).type = type ∧ (config.document type).version ≠ "legacy" := by
  obtain ⟨_, -, h⟩ := ok_of_bind (ok_of_ite h)
  obtain ⟨terms, hterms, h⟩ := ok_of_bind h
  obtain ⟨_, -, h⟩ := ok_of_bind h
  obtain ⟨_, -, h⟩ := ok_of_bind h
  obtain ⟨privacy, hprivacy, h⟩ := ok_of_bind h
  obtain ⟨_, -, h⟩ := ok_of_bind h
  obtain ⟨_, -, h⟩ := ok_of_bind h
  cases h
  cases type with
  | terms => exact ⟨rfl, (version_ok hterms).2⟩
  | privacy => exact ⟨rfl, (version_ok hprivacy).2⟩

/-! ## Requests -/

namespace System

theorem register_ok {body : Body} (h : s.register protocol env body = .ok s') :
    ∃ config, getComplianceConfig protocol env = .ok config ∧
      s' = recordLegalConsent
        { s with users := s.users ++ [⟨config.terms.version, config.privacy.version, some s.now⟩] }
        config s.users.length .registration := by
  obtain ⟨config, hconfig, h⟩ := ok_of_bind (ok_of_ite h)
  obtain ⟨_, -, h⟩ := ok_of_bind h
  cases h
  exact ⟨config, hconfig, rfl⟩

theorem reconsent_ok {body : Body} (h : s.reconsent protocol env userId body = .ok s') :
    ∃ config, getComplianceConfig protocol env = .ok config ∧
      s' = { s.recordLegalConsent config userId .reconsent with
        users := s.users.modify userId fun user =>
          { user with
            termsVersion := config.terms.version
            privacyVersion := config.privacy.version
            consentedAt := some s.now } } := by
  obtain ⟨_, -, h⟩ := ok_of_bind (ok_of_ite h)
  obtain ⟨_, -, h⟩ := ok_of_bind h
  obtain ⟨config, hconfig, h⟩ := ok_of_bind h
  obtain ⟨_, -, h⟩ := ok_of_bind h
  split at h
  · cases h
  · cases h
    exact ⟨config, hconfig, rfl⟩

/-- A request is let through when both versions of its user are the current ones. -/
theorem requireCurrentLegalConsent_ok
    (h : s.requireCurrentLegalConsent protocol env userId = .ok ()) :
    ∃ config user, getComplianceConfig protocol env = .ok config ∧ s.users[userId]? = some user ∧
      ∀ type, user.version type = (config.document type).version := by
  simp only [requireCurrentLegalConsent] at h
  obtain ⟨config, hconfig, h⟩ := ok_of_bind h
  split at h
  next => cases h
  next hcurrent =>
    simp only [Bool.not_eq_true', Bool.not_eq_false, Option.any_eq_true, Bool.and_eq_true,
      decide_eq_true_eq] at hcurrent
    obtain ⟨user, huser, hterms, hprivacy⟩ := hcurrent
    refine ⟨config, user, hconfig, huser, fun type => ?_⟩
    cases type
    · exact hterms
    · exact hprivacy

/-! ## Rows -/

/-- The rows of the migration have one version for each user and type, and the other rows are of
documents that have been accepted. -/
structure Recorded (s : System) : Prop where
  migrated : ∀ p ∈ s.events, ∀ q ∈ s.events,
    p.source = .migratedLegacy → q.source = .migratedLegacy →
    p.userId = q.userId → p.document.type = q.document.type →
      p.document.version = q.document.version
  distinct : ∀ p ∈ s.events, ∀ row ∈ s.events, p.source = .migratedLegacy →
    row.source ≠ .migratedLegacy → p.key ≠ row.key
  accepted : ∀ row ∈ s.events, row.source ≠ .migratedLegacy →
    (row.userId, row.document) ∈ s.accepted
  events : ∀ userId document, (userId, document) ∈ s.accepted → ∃ row ∈ s.events,
    row.key = (userId, document.type, document.version)

theorem Recorded.recordDocument (hi : s.Recorded) (hsource : source ≠ .migratedLegacy) :
    (s.recordDocument userId source document).Recorded where
  migrated p hp q hq hps hqs huser htype := by
    rcases mem_insertNew hp with hp | ⟨rfl, -⟩
    · rcases mem_insertNew hq with hq | ⟨rfl, -⟩
      · exact hi.migrated p hp q hq hps hqs huser htype
      · exact absurd hqs hsource
    · exact absurd hps hsource
  distinct p hp row hrow hps hrs := by
    rcases mem_insertNew hp with hp | ⟨rfl, -⟩
    · rcases mem_insertNew hrow with hrow | ⟨rfl, hnew⟩
      · exact hi.distinct p hp row hrow hps hrs
      · exact hnew p hp
    · exact absurd hps hsource
  accepted row hrow hrs := by
    rcases mem_insertNew hrow with hrow | ⟨rfl, -⟩
    · exact List.mem_cons_of_mem _ (hi.accepted row hrow hrs)
    · exact List.mem_cons_self
  events userId' document' hmem := by
    rcases List.mem_cons.mp hmem with heq | hmem
    · cases heq
      exact exists_mem_insertNew
    · obtain ⟨row, hrow, hkey⟩ := hi.events userId' document' hmem
      exact ⟨row, mem_insertNew_of_mem hrow, hkey⟩

theorem Recorded.recordLegalConsent (hi : s.Recorded) (hsource : source ≠ .migratedLegacy) :
    (s.recordLegalConsent config userId source).Recorded :=
  (hi.recordDocument hsource).recordDocument hsource

theorem mem_recordLegalConsent (type : DocumentType) :
    (userId, config.document type) ∈ (s.recordLegalConsent config userId source).accepted := by
  cases type
  · exact List.mem_cons_of_mem _ List.mem_cons_self
  · exact List.mem_cons_self

theorem mem_recordLegalConsent_of_mem {entry : UserId × LegalDocument} (h : entry ∈ s.accepted) :
    entry ∈ (s.recordLegalConsent config userId source).accepted :=
  List.mem_cons_of_mem _ (List.mem_cons_of_mem _ h)

/-! ## Invariant -/

/-- The versions of a user are those of documents that the user has accepted, or are set by the
migration. -/
structure Sound (s : System) : Prop where
  recorded : s.Recorded
  current : ∀ (userId : UserId) (user : User), s.users[userId]? = some user → ∀ type,
    user.version type = "legacy" ∨ ∃ document, (userId, document) ∈ s.accepted ∧
      document.type = type ∧ document.version = user.version type

/-- The database before the migration: a user without the moment of a consent has no version. -/
structure IsUnmigrated (s : System) : Prop where
  events : s.events = []
  accepted : s.accepted = []
  users : ∀ user ∈ s.users, user.consentedAt = none → ∀ type, user.version type = "legacy"

theorem mem_migratedEvents (h : row ∈ s.migratedEvents type) :
    row.source = .migratedLegacy ∧ row.document.type = type ∧
      ∃ user, s.users[row.userId]? = some user ∧ row.document.version = user.version type := by
  obtain ⟨⟨user, userId⟩, hmem, hrow⟩ := List.mem_filterMap.mp h
  obtain ⟨consentedAt, -, rfl⟩ := Option.map_eq_some_iff.mp hrow
  exact ⟨rfl, rfl, user, List.mem_zipIdx_iff_getElem?.mp hmem, rfl⟩

theorem mem_migrate_events (h : row ∈ s.migrate.events) :
    row.source = .migratedLegacy ∧ ∃ user, s.users[row.userId]? = some user ∧
      row.document.version = user.version row.document.type := by
  rcases List.mem_append.mp h with h | h
  all_goals
    obtain ⟨hsource, htype, user, huser, hversion⟩ := mem_migratedEvents h
    exact ⟨hsource, user, huser, by rw [hversion, htype]⟩

theorem IsUnmigrated.sound (h : s.IsUnmigrated) : s.migrate.Sound where
  recorded := {
    migrated p hp q hq _ _ huser htype := by
      obtain ⟨-, user, hrow, hversion⟩ := mem_migrate_events hp
      obtain ⟨-, user', hrow', hversion'⟩ := mem_migrate_events hq
      rw [huser, hrow'] at hrow
      obtain rfl := Option.some.inj hrow
      rw [hversion, hversion', htype]
    distinct p _ row hrow _ hsource := absurd (mem_migrate_events hrow).1 hsource
    accepted row hrow hsource := absurd (mem_migrate_events hrow).1 hsource
    events userId document hmem := by
      rw [migrate, h.accepted] at hmem
      cases hmem }
  current userId user huser type := by
    left
    rw [migrate, List.getElem?_map] at huser
    obtain ⟨old, hold, rfl⟩ := Option.map_eq_some_iff.mp huser
    split
    next => cases type <;> rfl
    next hnone =>
      exact h.users old (List.mem_of_getElem? hold) (Option.not_isSome_iff_eq_none.mp hnone) type

theorem Sound.step (hi : s.Sound) (h : s.step protocol e = some s') : s'.Sound := by
  cases e with
  | register env body =>
    obtain ⟨config, hconfig, rfl⟩ := register_ok (ok_of_toOption h)
    refine ⟨Recorded.recordLegalConsent ⟨hi.recorded.migrated, hi.recorded.distinct,
      hi.recorded.accepted, hi.recorded.events⟩ nofun, fun userId user huser type => ?_⟩
    rcases getElem?_concat_cases huser with ⟨rfl, rfl⟩ | ⟨-, huser⟩
    · refine .inr ⟨config.document type, mem_recordLegalConsent type,
        (getComplianceConfig_ok hconfig type).1, ?_⟩
      cases type <;> rfl
    · rcases hi.current userId user huser type with hlegacy | ⟨document, hmem, hdocument⟩
      · exact .inl hlegacy
      · exact .inr ⟨document, mem_recordLegalConsent_of_mem hmem, hdocument⟩
  | reconsent env target body =>
    obtain ⟨config, hconfig, rfl⟩ := reconsent_ok (ok_of_toOption h)
    have hrecorded : (s.recordLegalConsent config target .reconsent).Recorded :=
      hi.recorded.recordLegalConsent nofun
    refine ⟨⟨hrecorded.migrated, hrecorded.distinct, hrecorded.accepted, hrecorded.events⟩,
      fun userId user huser type => ?_⟩
    rcases getElem?_modify_cases huser with ⟨rfl, old, -, rfl⟩ | ⟨-, huser⟩
    · refine .inr ⟨config.document type, mem_recordLegalConsent type,
        (getComplianceConfig_ok hconfig type).1, ?_⟩
      cases type <;> rfl
    · rcases hi.current userId user huser type with hlegacy | ⟨document, hmem, hdocument⟩
      · exact .inl hlegacy
      · exact .inr ⟨document, mem_recordLegalConsent_of_mem hmem, hdocument⟩
  | wait seconds =>
    cases h
    exact ⟨⟨hi.recorded.migrated, hi.recorded.distinct, hi.recorded.accepted, hi.recorded.events⟩,
      hi.current⟩

theorem Sound.run {start : System} (hi : start.Sound)
    (h : Run (Stepping (System.step protocol)) start es s) : s.Sound :=
  h.invariant (fun _ _ _ hi hstep => hi.step hstep) hi

/-- There is a row of a document of this type that the user has accepted, which is not one of the
migration. -/
def HasEvidence (s : System) (userId : UserId) (type : DocumentType) : Prop :=
  ∃ row ∈ s.events, row.userId = userId ∧ row.document.type = type ∧
    row.source ≠ .migratedLegacy ∧ (userId, row.document) ∈ s.accepted

instance : Decidable (s.HasEvidence userId type) :=
  inferInstanceAs (Decidable (∃ row ∈ s.events, row.userId = userId ∧ row.document.type = type ∧
    row.source ≠ .migratedLegacy ∧ (userId, row.document) ∈ s.accepted))

/-- The condition: the user has no row of the migration for the type, or has accepted a version of
such a document that is not the one of the row. -/
def keepsEvidence (s : System) (userId : UserId) (type : DocumentType) : Prop :=
  ∀ p ∈ s.events, p.userId = userId → p.document.type = type → p.source = .migratedLegacy →
    ∃ document, (userId, document) ∈ s.accepted ∧ document.type = type ∧
      document.version ≠ p.document.version

/-- The row of a document that has been accepted is evidence of it, or one of the migration. -/
theorem Recorded.hasEvidence_or (hi : s.Recorded) (hmem : (userId, document) ∈ s.accepted) :
    s.HasEvidence userId document.type ∨ ∃ p ∈ s.events, p.userId = userId ∧
      p.document.type = document.type ∧ p.source = .migratedLegacy ∧
        p.document.version = document.version := by
  obtain ⟨row, hrow, hkey⟩ := hi.events userId document hmem
  simp only [ConsentEvent.key, Prod.mk.injEq] at hkey
  obtain ⟨huser, htype, hversion⟩ := hkey
  by_cases hsource : row.source = .migratedLegacy
  · exact .inr ⟨row, hrow, huser, htype, hsource, hversion⟩
  · exact .inl ⟨row, hrow, huser, htype, hsource, huser ▸ hi.accepted row hrow hsource⟩

theorem Recorded.keepsEvidence (hi : s.Recorded) (h : s.HasEvidence userId type) :
    s.keepsEvidence userId type := by
  obtain ⟨row, hrow, huser, htype, hsource, hmem⟩ := h
  intro p hp hpuser hptype hpsource
  refine ⟨row.document, hmem, htype, fun hversion => ?_⟩
  refine hi.distinct p hp row hrow hpsource hsource ?_
  rw [ConsentEvent.key, ConsentEvent.key, hpuser, huser, hptype, htype, hversion]

theorem Recorded.hasEvidence (hi : s.Recorded) (hkeeps : s.keepsEvidence userId type)
    (hmem : (userId, document) ∈ s.accepted) (htype : document.type = type) :
    s.HasEvidence userId type := by
  subst htype
  rcases hi.hasEvidence_or hmem with hevidence | ⟨p, hp, huser, htype, hsource, -⟩
  · exact hevidence
  -- the row of the migration is not that of another version, which has one of its own
  obtain ⟨other, hmem', htype', hne⟩ := hkeeps p hp huser htype hsource
  rcases hi.hasEvidence_or hmem' with hevidence | ⟨q, hq, hquser, hqtype, hqsource, hversion⟩
  · exact htype' ▸ hevidence
  · have hsame := hi.migrated p hp q hq hsource hqsource (huser.trans hquser.symm)
      (htype.trans (hqtype.trans htype').symm)
    exact absurd (hsame.trans hversion).symm hne

end System

/-- Whenever a request is let through, there is evidence of a document of the type that its user has
accepted if and only if the condition holds. -/
theorem consent_recorded {before : System} (hbefore : before.IsUnmigrated)
    (h : Run (Stepping (System.step protocol)) before.migrate es s)
    (hgate : s.requireCurrentLegalConsent protocol env userId = .ok ()) (type : DocumentType) :
    s.HasEvidence userId type ↔ s.keepsEvidence userId type := by
  have hi := hbefore.sound.run h
  refine ⟨hi.recorded.keepsEvidence, fun hkeeps => ?_⟩
  obtain ⟨config, user, hconfig, huser, hcurrent⟩ := System.requireCurrentLegalConsent_ok hgate
  rcases hi.current userId user huser type with hlegacy | ⟨document, hmem, htype, -⟩
  · -- a version of the migration is never current
    rw [hcurrent type] at hlegacy
    exact absurd hlegacy (getComplianceConfig_ok hconfig type).2
  · exact hi.recorded.hasEvidence hkeeps hmem htype

/-- The protocol of an absolute URL of the web. -/
def webProtocol (url : String) : Option String :=
  if "https://".toList.isPrefixOf url.toList then some "https:"
  else if "http://".toList.isPrefixOf url.toList then some "http:"
  else none

/-- An environment with the versions and digests of development. -/
def development : Environment := { jwtSecret := String.ofList (List.replicate 32 's') }

/-- A user has consented to the versions before the migration. -/
def consentedTo (version : String) : System := { users := [⟨version, version, some 0⟩] }

/-- The user consents again. -/
def reconsented : List Event :=
  [.reconsent development 0 ⟨true, true, some "2026-01", some "2026-01"⟩]

theorem isUnmigrated_consentedTo (version : String) : (consentedTo version).IsUnmigrated :=
  ⟨rfl, rfl, fun user huser hnone => by rw [List.mem_singleton.mp huser] at hnone; cases hnone⟩

theorem reconsented_current {version : String}
    (hversion : version = "2025-01" ∨ version = "2026-01") :
    (exec (System.step webProtocol) (consentedTo version).migrate reconsented).any
      (fun s => s.requireCurrentLegalConsent webProtocol development 0 = .ok ()) = true := by
  rcases hversion with rfl | rfl <;> decide +kernel

theorem reconsented_enabled (version : String)
    (hversion : version = "2025-01" ∨ version = "2026-01") :
    (exec (System.step webProtocol) (consentedTo version).migrate reconsented).isSome := by
  obtain ⟨s, hs, -⟩ := (Option.any_eq_true _ _).mp (reconsented_current hversion)
  exact Option.isSome_of_eq_some hs

theorem reconsented_passes {version : String}
    (hversion : version = "2025-01" ∨ version = "2026-01") :
    ((exec (System.step webProtocol) (consentedTo version).migrate reconsented).get
      (reconsented_enabled version hversion)).requireCurrentLegalConsent webProtocol development 0 =
        .ok () := by
  obtain ⟨s, hs, hpasses⟩ := (Option.any_eq_true _ _).mp (reconsented_current hversion)
  rw [Option.get_of_eq_some _ hs]
  exact of_decide_eq_true hpasses

theorem consent_recorded_reconsented :
    ((exec (System.step webProtocol) (consentedTo "2025-01").migrate reconsented).get
        (reconsented_enabled _ (.inl rfl))).HasEvidence 0 .terms ↔
      ((exec (System.step webProtocol) (consentedTo "2025-01").migrate reconsented).get
        (reconsented_enabled _ (.inl rfl))).keepsEvidence 0 .terms :=
  consent_recorded (isUnmigrated_consentedTo _) (Run.of_exec_get _)
    (reconsented_passes (.inl rfl)) .terms

/-- The current version is that of the row of the migration, so the consent to it is not
recorded. -/
theorem consent_not_recorded : ∃ s,
    Run (Stepping (System.step webProtocol)) (consentedTo "2026-01").migrate reconsented s ∧
      s.requireCurrentLegalConsent webProtocol development 0 = .ok () ∧ ¬s.HasEvidence 0 .terms :=
  ⟨_, Run.of_exec_get (reconsented_enabled _ (.inr rfl)),
    reconsented_passes (.inr rfl), by decide +kernel⟩

end Tonatiuh.Compliance
