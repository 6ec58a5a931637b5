import Tonatiuh.Quota.Creations
import Tonatiuh.Retention.Accounts
import Tonatiuh.Tables.Upsert

/-! Consent to the legal documents.

These are `compliance/config.ts`, `compliance/service.ts`, `POST /consents` of
`compliance/router.ts`, the consent of `POST /register`, and the migration that creates
`consent_events`. A transaction locks the row of its user, and is one step. Each request is served
by a process with an environment of its own, so that the documents change in any way between two
requests. Nothing is modelled of the hashes of the subject and of the client, and of the key that
they are made with. -/

namespace Tonatiuh.Compliance

open Quota (stringValue)
open Retention (UserId)
open Tables (insertNew)

/-! ## Documents -/

inductive DocumentType where
  | terms | privacy
  deriving DecidableEq, Repr

structure LegalDocument where
  type : DocumentType
  version : String
  url : String
  sha256 : String
  deriving DecidableEq, Repr

/-- What a request is rejected with: an answer of its own, with the current documents as its
details, or `INTERNAL_ERROR`. -/
inductive Rejection where
  | http (status : Nat) (code message : String) (documents : List LegalDocument)
  | internal (message : String)
  deriving DecidableEq, Repr

def Rejection.ofFailure : Commands.Failure → Rejection
  | .http error => .http error.status error.code error.message []
  | .internal message => .internal message

/-! ## Configuration -/

/-- What `optionalEnvConfig` answers. `isProduction` says that `ENV_RELEASE` is `prod`, and
`jwtSecret` is what `getSaasConfig` has found. -/
structure Environment where
  isProduction : Bool := false
  termsVersion : Option String := none
  termsUrl : Option String := none
  termsSha256 : Option String := none
  privacyVersion : Option String := none
  privacyUrl : Option String := none
  privacySha256 : Option String := none
  consentEvidenceSecret : Option String := none
  consentEvidenceKeyId : Option String := none
  jwtSecret : String

structure ComplianceConfig where
  terms : LegalDocument
  privacy : LegalDocument
  evidenceSecret : String
  evidenceKeyId : String

/-- `/^[A-Za-z0-9][A-Za-z0-9._-]{0,99}$/`. -/
def isVersion (value : String) : Bool :=
  match value.toList with
  | [] => false
  | c :: cs => c.isAlphanum && cs.length ≤ 99 &&
    cs.all fun c => c.isAlphanum || c = '.' || c = '_' || c = '-'

def version (name : String) (value : Option String) (fallback : String) : Except Rejection String :=
  let value := value.getD fallback
  if !isVersion value || value = "legacy" then
    .error (.internal (name ++ " must be an immutable non-legacy version."))
  else .ok value

/-- `'0'.repeat(64)`. -/
def placeholder : String := String.ofList (List.replicate 64 '0')

def digest (name : String) (value : Option String) (fallback : String) (isProduction : Bool) :
    Except Rejection String :=
  let value := (value.getD fallback).toList.map Char.toLower
  if ¬(value.length = 64 ∧ value.all fun c => c.isDigit || ('a' ≤ c && c ≤ 'f')) ∨
      isProduction ∧ value.all fun c => c = '0' then
    .error (.internal (name ++ " must be a non-placeholder SHA-256 digest."))
  else .ok (String.ofList value)

section
-- the protocol that `new URL` finds in a text, if it is an absolute URL
variable (protocol : String → Option String)

def url (name : String) (value : Option String) (fallback : String) (isProduction : Bool) :
    Except Rejection String :=
  let value := value.getD fallback
  match protocol value with
  | none => .error (.internal (name ++ " must be an absolute URL."))
  | some protocol =>
    if isProduction && protocol ≠ "https:" then
      .error (.internal (name ++ " must use HTTPS in production."))
    else .ok value

def getComplianceConfig (env : Environment) : Except Rejection ComplianceConfig :=
  let production := env.isProduction
  let evidenceSecret := env.consentEvidenceSecret.getD (if production then "" else env.jwtSecret)
  if evidenceSecret.utf8ByteSize < 32 then
    .error (.internal "CONSENT_EVIDENCE_SECRET must contain at least 32 bytes in production.")
  else do
  let evidenceKeyId ← version "CONSENT_EVIDENCE_KEY_ID" env.consentEvidenceKeyId
    (if production then "" else "development-v1")
  let terms := {
    type := .terms
    version := ← version "TERMS_VERSION" env.termsVersion "2026-01"
    url := ← url protocol "TERMS_URL" env.termsUrl "http://localhost/legal/terms" production
    sha256 := ← digest "TERMS_SHA256" env.termsSha256 placeholder production }
  let privacy := {
    type := .privacy
    version := ← version "PRIVACY_VERSION" env.privacyVersion "2026-01"
    url := ← url protocol "PRIVACY_URL" env.privacyUrl "http://localhost/legal/privacy" production
    sha256 := ← digest "PRIVACY_SHA256" env.privacySha256 placeholder production }
  return { terms, privacy, evidenceSecret, evidenceKeyId }

end

namespace ComplianceConfig

/-- `currentLegalDocuments`, and `Object.values` of the documents. -/
def documents (config : ComplianceConfig) : List LegalDocument := [config.terms, config.privacy]

def document (config : ComplianceConfig) : DocumentType → LegalDocument
  | .terms => config.terms
  | .privacy => config.privacy

/-- `assertCurrentVersions`, for versions that the body may leave out. -/
def assertCurrentVersions (config : ComplianceConfig)
    (termsVersion privacyVersion : Option String) :
    Except Rejection Unit :=
  if termsVersion.any (· ≠ config.terms.version) then
    .error (.http 409 "LEGAL_DOCUMENT_VERSION_CHANGED" "Terms changed before consent was recorded."
      config.documents)
  else if privacyVersion.any (· ≠ config.privacy.version) then
    .error (.http 409 "LEGAL_DOCUMENT_VERSION_CHANGED"
      "Privacy policy changed before consent was recorded." config.documents)
  else .ok ()

end ComplianceConfig

/-! ## Rows -/

/-- A row of `users`. Moments are in seconds. -/
structure User where
  termsVersion : String := "legacy"
  privacyVersion : String := "legacy"
  consentedAt : Option Nat := none
  deriving DecidableEq, Repr

def User.version (user : User) : DocumentType → String
  | .terms => user.termsVersion
  | .privacy => user.privacyVersion

inductive Source where
  | registration | reconsent | migratedLegacy
  deriving DecidableEq, Repr

/-- A row of `consent_events`. -/
structure ConsentEvent where
  userId : UserId
  document : LegalDocument
  source : Source
  acceptedAt : Nat
  deriving DecidableEq, Repr

/-- `UNIQUE(user_id,document_type,document_version)`. -/
def ConsentEvent.key (row : ConsentEvent) : UserId × DocumentType × String :=
  (row.userId, row.document.type, row.document.version)

/-- `accepted` are the documents that `recordLegalConsent` has been called with. -/
structure System where
  users : List User := []
  events : List ConsentEvent := []
  accepted : List (UserId × LegalDocument) := []
  now : Nat := 0

/-! ## Requests -/

/-- The fields of a body that the consent reads. -/
structure Body where
  acceptTerms : Bool
  acceptPrivacy : Bool
  termsVersion : Option String := none
  privacyVersion : Option String := none

def consentRequired : Rejection :=
  .http 400 "CONSENT_REQUIRED" "Terms and privacy policy consent are required." []

namespace System

/-- `INSERT … ON CONFLICT DO NOTHING` for a document. -/
def recordDocument (s : System) (userId : UserId) (source : Source)
    (document : LegalDocument) : System :=
  { s with
    events := insertNew ConsentEvent.key ⟨userId, document, source, s.now⟩ s.events
    accepted := (userId, document) :: s.accepted }

def recordLegalConsent (s : System) (config : ComplianceConfig) (userId : UserId)
    (source : Source) :
    System :=
  config.documents.foldl (fun s document => s.recordDocument userId source document) s

section
variable (protocol : String → Option String)

/-- `POST /register`. -/
def register (s : System) (env : Environment) (body : Body) : Except Rejection System :=
  if !body.acceptTerms || !body.acceptPrivacy then .error consentRequired else do
  let config ← getComplianceConfig protocol env
  config.assertCurrentVersions body.termsVersion body.privacyVersion
  let user : User := ⟨config.terms.version, config.privacy.version, some s.now⟩
  return { s with users := s.users ++ [user] }.recordLegalConsent config s.users.length
    .registration

/-- `POST /consents`. -/
def reconsent (s : System) (env : Environment) (userId : UserId) (body : Body) :
    Except Rejection System :=
  if !body.acceptTerms || !body.acceptPrivacy then .error consentRequired else do
  let termsVersion ← (stringValue body.termsVersion "termsVersion" 100).mapError .ofFailure
  let privacyVersion ← (stringValue body.privacyVersion "privacyVersion" 100).mapError .ofFailure
  let config ← getComplianceConfig protocol env
  config.assertCurrentVersions (some termsVersion) (some privacyVersion)
  match s.users[userId]? with
  | none => .error (.http 404 "NOT_FOUND" "User was not found." [])
  | some _ =>
    let s := s.recordLegalConsent config userId .reconsent
    .ok { s with users := s.users.modify userId fun user =>
      { user with
        termsVersion := config.terms.version
        privacyVersion := config.privacy.version
        consentedAt := some s.now } }

def requireCurrentLegalConsent (s : System) (env : Environment) (userId : UserId) :
    Except Rejection Unit := do
  let config ← getComplianceConfig protocol env
  let isCurrent := s.users[userId]?.any fun row =>
    row.termsVersion = config.terms.version && row.privacyVersion = config.privacy.version
  if !isCurrent then
    .error (.http 428 "LEGAL_CONSENT_REQUIRED" "Current terms and privacy policy must be accepted."
      config.documents)
  else .ok ()

end

/-! ## The migration -/

/-- The rows that stand for the consents of which no document has been kept. -/
def migratedEvents (s : System) (type : DocumentType) : List ConsentEvent :=
  s.users.zipIdx.filterMap fun (user, userId) => user.consentedAt.map fun consentedAt =>
    ⟨userId, ⟨type, user.version type, "legacy:unavailable", placeholder⟩, .migratedLegacy,
      consentedAt⟩

/-- `015_compliance_governance.sql`. -/
def migrate (s : System) : System :=
  { s with
    events := s.migratedEvents .terms ++ s.migratedEvents .privacy
    users := s.users.map fun user =>
      if user.consentedAt.isSome then
        { user with termsVersion := "legacy", privacyVersion := "legacy" }
      else user }

end System

/-! ## Steps -/

inductive Event where
  | register (env : Environment) (body : Body)
  | reconsent (env : Environment) (userId : UserId) (body : Body)
  | wait (seconds : Nat)

/-- A request that is rejected changes nothing. -/
def System.step (protocol : String → Option String) (s : System) : Event → Option System
  | .register env body => (s.register protocol env body).toOption
  | .reconsent env userId body => (s.reconsent protocol env userId body).toOption
  | .wait seconds => some { s with now := s.now + seconds }

end Tonatiuh.Compliance
