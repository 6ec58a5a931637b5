import Mathlib.Data.List.Forall2
import Mathlib.Data.List.Nodup
import Mathlib.Data.List.TakeWhile
import Tonatiuh.Url.Templates

/-! `TonatiuhClient.request` of `sdk/src/client.ts`, up to the URL that is fetched, and `operations`
of `sdk/src/generated.ts`.

The base URL has the scheme `http` or `https`. The headers, the query and the body are left out. -/

namespace Tonatiuh.Sdk

open Text (replaceFirst)
open Url Url.Segment

structure OperationEntry where
  operationId : String
  method : String
  path : String
  deriving DecidableEq, Repr

def operationEntries : List OperationEntry :=
  [⟨"register", "POST", "/api/v1/auth/register"⟩, ⟨"login", "POST", "/api/v1/auth/login"⟩,
    ⟨"refreshSession", "POST", "/api/v1/auth/refresh"⟩, ⟨"logout", "POST", "/api/v1/auth/logout"⟩,
    ⟨"verifyEmail", "POST", "/api/v1/auth/verify-email"⟩,
    ⟨"resendVerification", "POST", "/api/v1/auth/resend-verification"⟩,
    ⟨"forgotPassword", "POST", "/api/v1/auth/forgot-password"⟩,
    ⟨"resetPassword", "POST", "/api/v1/auth/reset-password"⟩,
    ⟨"cancelAccountDeletion", "POST", "/api/v1/auth/cancel-deletion"⟩,
    ⟨"currentAccount", "GET", "/api/v1/auth/me"⟩,
    ⟨"scheduleAccountDeletion", "DELETE", "/api/v1/auth/me"⟩,
    ⟨"exportAccountData", "GET", "/api/v1/auth/me/export"⟩,
    ⟨"listMyDataSubjectRequests", "GET", "/api/v1/auth/me/data-requests"⟩,
    ⟨"createDataSubjectRequest", "POST", "/api/v1/auth/me/data-requests"⟩,
    ⟨"listLegalDocuments", "GET", "/api/v1/compliance/documents"⟩,
    ⟨"listMyConsentEvents", "GET", "/api/v1/compliance/consents"⟩,
    ⟨"acceptCurrentLegalDocuments", "POST", "/api/v1/compliance/consents"⟩,
    ⟨"listPlans", "GET", "/api/v1/billing/plans"⟩,
    ⟨"listOrganizations", "GET", "/api/v1/organizations"⟩,
    ⟨"switchOrganization", "POST", "/api/v1/organizations/switch"⟩,
    ⟨"listOrganizationMembers", "GET", "/api/v1/organizations/members"⟩,
    ⟨"updateMemberRole", "PATCH", "/api/v1/organizations/members/{userId}"⟩,
    ⟨"removeMember", "DELETE", "/api/v1/organizations/members/{userId}"⟩,
    ⟨"listInvitations", "GET", "/api/v1/organizations/invitations"⟩,
    ⟨"createInvitation", "POST", "/api/v1/organizations/invitations"⟩,
    ⟨"acceptInvitation", "POST", "/api/v1/organizations/invitations/accept"⟩,
    ⟨"revokeInvitation", "DELETE", "/api/v1/organizations/invitations/{id}"⟩,
    ⟨"yookassaWebhook", "POST", "/api/v1/billing/webhook"⟩,
    ⟨"getSubscription", "GET", "/api/v1/billing/subscription"⟩,
    ⟨"getPlanUsage", "GET", "/api/v1/billing/usage"⟩,
    ⟨"createCheckout", "POST", "/api/v1/billing/checkout"⟩,
    ⟨"cancelSubscription", "POST", "/api/v1/billing/cancel"⟩,
    ⟨"resumeSubscription", "POST", "/api/v1/billing/resume"⟩,
    ⟨"listExchangeConnections", "GET", "/api/v1/exchanges"⟩,
    ⟨"createExchangeConnection", "POST", "/api/v1/exchanges"⟩,
    ⟨"updateExchangeConnection", "PATCH", "/api/v1/exchanges/{id}"⟩,
    ⟨"verifyExchangeConnection", "POST", "/api/v1/exchanges/{id}/verify"⟩,
    ⟨"listBots", "GET", "/api/v1/bots"⟩, ⟨"createBot", "POST", "/api/v1/bots"⟩,
    ⟨"getBot", "GET", "/api/v1/bots/{id}"⟩, ⟨"updateBot", "PATCH", "/api/v1/bots/{id}"⟩,
    ⟨"deleteBot", "DELETE", "/api/v1/bots/{id}"⟩, ⟨"startBot", "POST", "/api/v1/bots/{id}/start"⟩,
    ⟨"stopBot", "POST", "/api/v1/bots/{id}/stop"⟩,
    ⟨"emergencyStopBot", "POST", "/api/v1/bots/{id}/emergency-stop"⟩,
    ⟨"restartBot", "POST", "/api/v1/bots/{id}/restart"⟩,
    ⟨"listBotCommands", "GET", "/api/v1/bots/{id}/commands"⟩,
    ⟨"listBotOrders", "GET", "/api/v1/bots/{id}/orders"⟩,
    ⟨"listBotRuntimeLogs", "GET", "/api/v1/bots/{id}/logs"⟩,
    ⟨"emailProviderEvent", "POST", "/api/v1/email/provider-events"⟩,
    ⟨"listFeatureDecisions", "GET", "/api/v1/features"⟩, ⟨"liveness", "GET", "/health/live"⟩,
    ⟨"adminStats", "GET", "/api/v1/admin/stats"⟩, ⟨"adminListUsers", "GET", "/api/v1/admin/users"⟩,
    ⟨"adminChangeUserStatus", "PATCH", "/api/v1/admin/users/{id}/status"⟩,
    ⟨"adminRevokeUserSessions", "POST", "/api/v1/admin/users/{id}/revoke-sessions"⟩,
    ⟨"adminListOrganizations", "GET", "/api/v1/admin/organizations"⟩,
    ⟨"adminChangeOrganizationStatus", "PATCH", "/api/v1/admin/organizations/{id}/status"⟩,
    ⟨"adminListAuditEvents", "GET", "/api/v1/admin/audit-events"⟩,
    ⟨"adminListDataSubjectRequests", "GET", "/api/v1/admin/data-subject-requests"⟩,
    ⟨"adminUpdateDataSubjectRequest", "PATCH", "/api/v1/admin/data-subject-requests/{id}"⟩,
    ⟨"adminListFeatureFlags", "GET", "/api/v1/admin/feature-flags"⟩,
    ⟨"adminUpdateFeatureFlag", "PATCH", "/api/v1/admin/feature-flags/{key}"⟩,
    ⟨"adminSetFeatureFlagOverride", "PUT",
      "/api/v1/admin/feature-flags/{key}/organizations/{organizationId}"⟩,
    ⟨"adminRemoveFeatureFlagOverride", "DELETE",
      "/api/v1/admin/feature-flags/{key}/organizations/{organizationId}"⟩,
    ⟨"adminListFeatureFlagOverrides", "GET", "/api/v1/admin/feature-flags/{key}/organizations"⟩,
    ⟨"adminListPayments", "GET", "/api/v1/admin/payments"⟩,
    ⟨"adminRefundPayment", "POST", "/api/v1/admin/payments/{id}/refund"⟩,
    ⟨"adminListRefunds", "GET", "/api/v1/admin/refunds"⟩,
    ⟨"adminSystemStatus", "GET", "/api/v1/admin/system"⟩,
    ⟨"adminListEmailDeadLetters", "GET", "/api/v1/admin/email/dead-letters"⟩,
    ⟨"adminRetryEmailDeadLetter", "POST", "/api/v1/admin/email/dead-letters/{id}/retry"⟩,
      ⟨"readiness", "GET", "/health/ready"⟩, ⟨"prometheusMetrics", "GET", "/metrics"⟩]

structure Operation where
  operationId : String
  method : String
  path : Template

def operations : List Operation := operationEntries.filterMap fun entry =>
  (Template.ofText? entry.path.toList).map (Operation.mk entry.operationId entry.method)

/-- The text of a URL after its authority may have a query and a fragment. -/
structure BaseUrl where
  origin : List Char
  path : List Char
  deriving DecidableEq, Repr

structure TonatiuhClient where
  baseUrl : BaseUrl

/-- `replace(/\/$/, '')`. -/
def withoutTrailingSlash (t : List Char) : List Char :=
  if t.getLast? = some '/' then t.dropLast else t

def TonatiuhClient.constructor (baseUrl : BaseUrl) : TonatiuhClient :=
  ⟨{ baseUrl with path := withoutTrailingSlash baseUrl.path }⟩

/-- `input.path`: texts for names, in the order of the object's properties. -/
structure PathParameters where
  entries : List (List Char × List UInt16)
  nodup : (entries.map Prod.fst).Nodup
  noBraces : ∀ entry ∈ entries, NoBraces entry.1

inductive RequestError where
  | URIError
  | Error (message : String)
  deriving DecidableEq, Repr

def substitute : List (List Char × List UInt16) → List Char → Except RequestError (List Char)
  | [], path => .ok path
  | (name, value) :: entries, path =>
    match encodeURIComponent value with
    | none => .error .URIError
    | some encoded => substitute entries (replaceFirst (braced name) encoded path)

structure FetchedUrl where
  origin : List Char
  path : List (List Char)
  /-- The query and the fragment. -/
  rest : List Char
  deriving DecidableEq, Repr

def FetchedUrl.pathname (url : FetchedUrl) : List Char := pathText url.path

def TonatiuhClient.request (client : TonatiuhClient) (operation : Operation)
    (parameters : PathParameters) :
    Except RequestError FetchedUrl := do
  let path ← substitute parameters.entries operation.path.text
  if hasBraced path then throw (.Error s!"Missing path parameter for {operation.operationId}.")
  let (segments, rest) := parsePath (client.baseUrl.path ++ path)
  return ⟨client.baseUrl.origin, segments, rest⟩

/-! ## What is substituted -/

/-- The assignment after the entries, by which a later entry would override an earlier one. -/
def assign (assignment : Assignment) : List (List Char × List UInt16) → Assignment
  | [] => assignment
  | (name, value) :: entries =>
    assign (Function.update assignment name (encodeURIComponent value)) entries

section
variable {assignment : Assignment} {entries : List (List Char × List UInt16)}

theorem assign_of_not_mem {name : List Char} (h : name ∉ entries.map Prod.fst) :
    assign assignment entries name = assignment name := by
  induction entries generalizing assignment with
  | nil => rfl
  | cons entry entries ih =>
    obtain ⟨hne, h⟩ := not_or.mp (mt List.mem_cons.mpr h)
    rw [assign, ih h, Function.update_of_ne hne]

theorem assign_of_mem (hnodup : (entries.map Prod.fst).Nodup) {name : List Char}
    {value : List UInt16}
    (h : (name, value) ∈ entries) : assign assignment entries name = encodeURIComponent value := by
  induction entries generalizing assignment with
  | nil => cases h
  | cons entry entries ih =>
    obtain ⟨hentry, hnodup⟩ := List.nodup_cons.mp hnodup
    rcases List.mem_cons.mp h with rfl | h
    · rw [assign, assign_of_not_mem hentry, Function.update_self]
    · exact ih hnodup h

theorem substitute_error (h : ∃ entry ∈ entries, decodeUtf16 entry.2 = none) (path : List Char) :
    substitute entries path = .error .URIError := by
  induction entries generalizing path with
  | nil => obtain ⟨entry, hentry, -⟩ := h; cases hentry
  | cons entry entries ih =>
    rw [substitute]
    cases hencode : encodeURIComponent entry.2 with
    | none => rfl
    | some encoded =>
      refine ih ?_ _
      obtain ⟨text, htext, -⟩ := encodeURIComponent_eq.mp hencode
      obtain ⟨other, hother, hnone⟩ := h
      rcases List.mem_cons.mp hother with rfl | hother
      · rw [hnone] at htext; cases htext
      · exact ⟨other, hother, hnone⟩

/-- Each step of the loop is an update of the assignment. -/
theorem substitute_render {template : Template} (hnodup : (entries.map Prod.fst).Nodup)
    (hnoBraces : ∀ entry ∈ entries, NoBraces entry.1)
    (hvalues : ∀ entry ∈ entries, decodeUtf16 entry.2 ≠ none)
    (hfree : ∀ entry ∈ entries, assignment entry.1 = none) (hencoded : Encoded assignment) :
    substitute entries (template.render assignment) =
      .ok (template.render (assign assignment entries)) ∧
      Encoded (assign assignment entries) := by
  induction entries generalizing assignment with
  | nil => exact ⟨rfl, hencoded⟩
  | cons entry entries ih =>
    obtain ⟨name, value⟩ := entry
    obtain ⟨hname, hnodup⟩ := List.nodup_cons.mp hnodup
    obtain ⟨hbraces, hnoBraces⟩ := List.forall_mem_cons.mp hnoBraces
    obtain ⟨hvalue, hvalues⟩ := List.forall_mem_cons.mp hvalues
    obtain ⟨hunassigned, hfree⟩ := List.forall_mem_cons.mp hfree
    obtain ⟨text, htext⟩ := Option.ne_none_iff_exists'.mp hvalue
    have hencode : encodeURIComponent value = some (text.flatMap encodeChar) :=
      encodeURIComponent_eq.mpr ⟨text, htext, rfl⟩
    have hchars : ∀ c ∈ text.flatMap encodeChar, isSegmentChar c := fun c hc =>
      isSegmentChar_encodeURIComponent hencode hc
    have hrest : ∀ entry ∈ entries,
        Function.update assignment name (some (text.flatMap encodeChar)) entry.1 = none :=
          fun entry hentry => by
      have hne : entry.1 ≠ name := fun heq => hname (List.mem_map.mpr ⟨entry, hentry, heq⟩)
      rw [Function.update_of_ne hne]
      exact hfree entry hentry
    simp only [substitute, assign, hencode]
    rw [Template.render, replaceFirst_render (List.all_eq_true.mp template.lawful) template.nodup
      hbraces hchars hencoded hunassigned]
    exact ih hnodup hnoBraces hvalues hrest (hencoded.update hchars)

end

theorem encoded_none : Encoded fun _ => none := fun _ _ h => nomatch h

namespace PathParameters

def assignment (parameters : PathParameters) : Assignment :=
  assign (fun _ => none) parameters.entries

/-- Every value is well-formed UTF-16. -/
def WellFormed (parameters : PathParameters) : Prop :=
  ∀ entry ∈ parameters.entries, decodeUtf16 entry.2 ≠ none

theorem assignment_eq_some {parameters : PathParameters} {name encoded : List Char} :
    parameters.assignment name = some encoded ↔
      ∃ value, (name, value) ∈ parameters.entries ∧ encodeURIComponent value = some encoded := by
  constructor
  · intro h
    by_cases hmem : name ∈ parameters.entries.map Prod.fst
    · obtain ⟨⟨_, value⟩, hentry, rfl⟩ := List.mem_map.mp hmem
      exact ⟨value, hentry, (assign_of_mem parameters.nodup hentry).symm.trans h⟩
    · exact nomatch (assign_of_not_mem hmem).symm.trans h
  · rintro ⟨value, hentry, hvalue⟩
    exact (assign_of_mem parameters.nodup hentry).trans hvalue

theorem assignment_eq_none {parameters : PathParameters} (h : parameters.WellFormed)
    {name : List Char} :
    parameters.assignment name = none ↔ ∀ value, (name, value) ∉ parameters.entries := by
  rw [Option.eq_none_iff_forall_ne_some]
  constructor
  · intro hnone value hentry
    obtain ⟨text, htext⟩ := Option.ne_none_iff_exists'.mp (h _ hentry)
    exact hnone _ (assignment_eq_some.mpr ⟨value, hentry,
      encodeURIComponent_eq.mpr ⟨text, htext, rfl⟩⟩)
  · intro hnone encoded hencoded
    obtain ⟨value, hentry, -⟩ := assignment_eq_some.mp hencoded
    exact hnone value hentry

theorem assignment_perm {parameters reordered : PathParameters}
    (h : reordered.entries.Perm parameters.entries) :
    reordered.assignment = parameters.assignment := by
  funext name
  refine Option.ext fun encoded => ?_
  rw [assignment_eq_some, assignment_eq_some]
  simp only [h.mem_iff]

theorem encoded_assignment {parameters : PathParameters} :
    Encoded parameters.assignment := fun _ _ h => by
  obtain ⟨value, -, hvalue⟩ := assignment_eq_some.mp h
  exact fun c hc => isSegmentChar_encodeURIComponent hvalue hc

theorem substitute_eq {parameters : PathParameters} (h : parameters.WellFormed)
    (template : Template) :
    substitute parameters.entries template.text = .ok (template.render parameters.assignment) :=
  (substitute_render parameters.nodup parameters.noBraces h (fun _ _ => rfl) encoded_none).1

end PathParameters

/-! ## The URL that is fetched -/

/-- The segments of the base path. -/
def TonatiuhClient.baseSegments (client : TonatiuhClient) : List (List Char) :=
  leading ((withoutTabs client.baseUrl.path).takeWhile fun c => !isPathEnd c)

/-- The base URL has neither a query nor a fragment. -/
def TonatiuhClient.OnlyPath (client : TonatiuhClient) : Prop :=
  ∀ c ∈ withoutTabs client.baseUrl.path, isPathEnd c = false

/-- What stands for a segment of a template. -/
def Stands (parameters : PathParameters) : Segment → List Char → Prop
  | .literal t, segment => segment = t
  | .placeholder name, segment => ∃ value text, (name, value) ∈ parameters.entries ∧
      decodeUtf16 value = some text ∧ percentDecode segment = utf8 text

/-- Split at its slashes, the path is the base path, then one segment for each of the template. -/
def Builds (client : TonatiuhClient) (operation : Operation) (parameters : PathParameters)
    (url : FetchedUrl) : Prop :=
  ∃ segments, url.pathname.splitOn '/' = [] :: (client.baseSegments ++ segments) ∧
    List.Forall₂ (Stands parameters) operation.path.segments segments

/-- Whatever the order of the parameters, the same URL is fetched or none, and it is built so. -/
def BuildsUrl (client : TonatiuhClient) (operation : Operation)
    (parameters : PathParameters) : Prop :=
  (∀ reordered : PathParameters, reordered.entries.Perm parameters.entries →
    client.request operation reordered = client.request operation parameters) ∧
  ∀ url, client.request operation parameters = .ok url → Builds client operation parameters url

/-- Every placeholder has a value. -/
def Complete (operation : Operation) (parameters : PathParameters) : Prop :=
  ∀ name ∈ names operation.path.segments, ∃ value, (name, value) ∈ parameters.entries

section
variable {client : TonatiuhClient} {operation : Operation} {parameters : PathParameters}

theorem request_uriError (h : ¬parameters.WellFormed) :
    client.request operation parameters = .error .URIError := by
  have hentry : ∃ entry ∈ parameters.entries, decodeUtf16 entry.2 = none := by
    simpa [PathParameters.WellFormed] using h
  rw [TonatiuhClient.request, substitute_error hentry]
  rfl

theorem hasBraced_iff (h : parameters.WellFormed) :
    hasBraced (operation.path.render parameters.assignment) = true ↔
    ¬Complete operation parameters := by
  rw [Template.render, hasBraced_render PathParameters.encoded_assignment
    (List.all_eq_true.mp operation.path.lawful)]
  simp only [PathParameters.assignment_eq_none h, Complete, not_forall, not_exists, exists_prop]

theorem request_missing (h : parameters.WellFormed) (hmissing : ¬Complete operation parameters) :
    client.request operation parameters =
      .error (.Error s!"Missing path parameter for {operation.operationId}.") := by
  rw [TonatiuhClient.request, PathParameters.substitute_eq h]
  simp only [bind, Except.bind, (hasBraced_iff h).mpr hmissing, ↓reduceIte]
  rfl

theorem request_ok (h : parameters.WellFormed) (hcomplete : Complete operation parameters) :
    client.request operation parameters =
      .ok ⟨client.baseUrl.origin,
        (parsePath (client.baseUrl.path ++ operation.path.render parameters.assignment)).1,
        (parsePath (client.baseUrl.path ++ operation.path.render parameters.assignment)).2⟩ := by
  have hbraced : ¬hasBraced (operation.path.render parameters.assignment) := fun hbraced =>
    (hasBraced_iff h).mp hbraced hcomplete
  rw [TonatiuhClient.request, PathParameters.substitute_eq h]
  simp only [bind, Except.bind, hbraced, Bool.false_eq_true, ↓reduceIte]
  rfl

theorem request_perm {reordered : PathParameters} (h : reordered.entries.Perm parameters.entries) :
    client.request operation reordered = client.request operation parameters := by
  have hassignment := PathParameters.assignment_perm h
  have hwellFormed : reordered.WellFormed ↔ parameters.WellFormed := by
    simp only [PathParameters.WellFormed, h.mem_iff]
  have hcomplete : Complete operation reordered ↔ Complete operation parameters := by
    simp only [Complete, h.mem_iff]
  by_cases hw : parameters.WellFormed
  · by_cases hc : Complete operation parameters
    · rw [request_ok hw hc, request_ok (hwellFormed.mpr hw) (hcomplete.mpr hc), hassignment]
    · rw [request_missing hw hc, request_missing (hwellFormed.mpr hw) (mt hcomplete.mp hc)]
  · rw [request_uriError hw, request_uriError (mt hwellFormed.mp hw)]

theorem assigned (h : parameters.WellFormed) (hcomplete : Complete operation parameters)
    {name : List Char} (hname : .placeholder name ∈ operation.path.segments) :
    ∃ value text, (name, value) ∈ parameters.entries ∧ decodeUtf16 value = some text ∧
      parameters.assignment name = some (text.flatMap encodeChar) := by
  obtain ⟨value, hentry⟩ := hcomplete name (List.mem_filterMap.mpr ⟨_, hname, rfl⟩)
  obtain ⟨text, htext⟩ := Option.ne_none_iff_exists'.mp (h _ hentry)
  have hencode := encodeURIComponent_eq.mpr ⟨text, htext, rfl⟩
  exact ⟨value, text, hentry, htext, PathParameters.assignment_eq_some.mpr ⟨value, hentry, hencode⟩⟩

theorem rendered_stands (h : parameters.WellFormed) (hcomplete : Complete operation parameters) :
    List.Forall₂ (Stands parameters) operation.path.segments
      (operation.path.segments.map (render parameters.assignment)) := by
  refine List.forall₂_map_right_iff.mpr (List.forall₂_same.mpr fun segment hsegment => ?_)
  cases segment with
  | literal t => rfl
  | placeholder name =>
    obtain ⟨value, text, hentry, htext, hassigned⟩ := assigned h hcomplete hsegment
    rw [render, hassigned]
    exact ⟨value, text, hentry, htext, percentDecode_encode text⟩

theorem rendered_chars (h : parameters.WellFormed) (hcomplete : Complete operation parameters)
    {segment : Segment}
    (hsegment : segment ∈ operation.path.segments) :
    ∀ c ∈ render parameters.assignment segment, isSegmentChar c := by
  cases segment with
  | literal t =>
    exact (isLawful_literal (List.all_eq_true.mp operation.path.lawful _ hsegment)).2.chars
  | placeholder name =>
    obtain ⟨value, text, -, -, hassigned⟩ := assigned h hcomplete hsegment
    rw [render, hassigned]
    exact PathParameters.encoded_assignment name _ hassigned

/-- The text after the base path begins with a slash, and the parser does not trim it. -/
theorem parsePath_request (h : parameters.WellFormed) (hcomplete : Complete operation parameters) :
    parsePath (client.baseUrl.path ++ operation.path.render parameters.assignment) =
      pathStartState
        (withoutTabs client.baseUrl.path ++ operation.path.render parameters.assignment) := by
  refine parsePath_append ?_ fun c hc => ?_
  · obtain ⟨t, segments, hsegments, -⟩ := operation.path.exists_cons
    simp [Template.render, hsegments, pathText]
  · obtain ⟨segment, hsegment, hc⟩ := List.mem_flatMap.mp hc
    obtain ⟨segment, hmem, rfl⟩ := List.mem_map.mp hsegment
    rcases List.mem_cons.mp hc with rfl | hc
    · decide
    · exact (isSegmentChar_toNat (rendered_chars h hcomplete hmem c hc)).1

/-- No placeholder's value is `.` or `..`. -/
def DotFree (operation : Operation) (parameters : PathParameters) : Prop :=
  ∀ name ∈ names operation.path.segments, ∀ value, (name, value) ∈ parameters.entries →
    value ≠ [46] ∧ value ≠ [46, 46]

theorem rendered_plain (h : parameters.WellFormed) (hcomplete : Complete operation parameters)
    (hdots : DotFree operation parameters) {segment : Segment}
    (hsegment : segment ∈ operation.path.segments) :
    IsPlain (render parameters.assignment segment) := by
  cases segment with
  | literal t => exact (isLawful_literal (List.all_eq_true.mp operation.path.lawful _ hsegment)).2
  | placeholder name =>
    have hchars := rendered_chars h hcomplete hsegment
    obtain ⟨value, text, hentry, htext, hassigned⟩ := assigned h hcomplete hsegment
    obtain ⟨hsingle, hdouble⟩ := hdots name (List.mem_filterMap.mpr ⟨_, hsegment, rfl⟩) value hentry
    have hdecode : percentDecode (render parameters.assignment (.placeholder name)) =
        utf8 text := by
      rw [render, hassigned]
      exact percentDecode_encode text
    refine ⟨hchars, Bool.eq_false_iff.mpr fun hdot => hsingle ?_,
      Bool.eq_false_iff.mpr fun hdot => hdouble ?_⟩
    · have htext' : text = ['.'] :=
        utf8_injective (hdecode.symm.trans (percentDecode_singleDot hdot))
      exact decodeUtf16_eq_dot.mp (htext' ▸ htext)
    · have htext' : text = ['.', '.'] :=
        utf8_injective (hdecode.symm.trans (percentDecode_doubleDot hdot))
      exact decodeUtf16_eq_dots.mp (htext' ▸ htext)

theorem takeWhile_onlyPath (h : client.OnlyPath) :
    (withoutTabs client.baseUrl.path).takeWhile (fun c => !isPathEnd c) =
      withoutTabs client.baseUrl.path :=
  List.takeWhile_eq_self_iff.mpr fun c hc => by rw [h c hc]; rfl

/-- The path that is fetched, where no segment is taken out. -/
theorem path_of_dotFree (h : parameters.WellFormed) (hcomplete : Complete operation parameters)
    (hpath : client.OnlyPath) (hdots : DotFree operation parameters) :
    (parsePath (client.baseUrl.path ++ operation.path.render parameters.assignment)).1 =
      client.baseSegments ++ operation.path.segments.map (render parameters.assignment) := by
  have hplain : ∀ segment ∈ operation.path.segments.map (render parameters.assignment),
      IsPlain segment :=
    List.forall_mem_map.mpr fun segment hsegment => rendered_plain h hcomplete hdots hsegment
  obtain ⟨t, segments, hsegments, -⟩ := operation.path.exists_cons
  rw [hsegments, List.map_cons] at hplain
  obtain ⟨hfirst, hrest⟩ := List.forall_mem_cons.mp hplain
  rw [parsePath_request h hcomplete, Template.render, TonatiuhClient.baseSegments,
    takeWhile_onlyPath hpath, hsegments, List.map_cons, pathText, List.flatMap_cons,
    List.cons_append, pathStartState_after_slash hpath]
  exact congrArg Prod.fst (pathState_segments hrest (leading _) _ hfirst)

theorem stands_first {template : Template} {segments : List (List Char)}
    (h : List.Forall₂ (Stands parameters) template.segments segments) :
    segments ≠ [] ∧ segments ≠ [[]] := by
  obtain ⟨t, rest, hsegments, hne⟩ := template.exists_cons
  rw [hsegments] at h
  cases h with
  | cons hfirst =>
    refine ⟨List.cons_ne_nil _ _, fun heq => hne ?_⟩
    rw [← show _ = t from hfirst, (List.cons.inj heq).1]

/-- Where the base URL has a query, what follows it is not part of the path. -/
theorem onlyPath_of_builds (h : parameters.WellFormed) (hcomplete : Complete operation parameters)
    {segments : List (List Char)}
    (hstands : List.Forall₂ (Stands parameters) operation.path.segments segments)
    (hpath : (parsePath (client.baseUrl.path ++ operation.path.render parameters.assignment)).1 =
      client.baseSegments ++ segments) : client.OnlyPath := by
  have hfront : ∀ c ∈ (withoutTabs client.baseUrl.path).takeWhile (fun c => !isPathEnd c),
      isPathEnd c = false :=
    fun c hc => by simpa using List.mem_takeWhile_imp hc
  cases hrest : (withoutTabs client.baseUrl.path).dropWhile (fun c => !isPathEnd c) with
  | nil =>
    intro c hc
    simpa using List.dropWhile_eq_nil_iff.mp hrest c hc
  | cons e rest =>
    have he : isPathEnd e = true := by
      have hhead :=
        List.head?_dropWhile_not (fun c => !isPathEnd c) (withoutTabs client.baseUrl.path)
      rw [hrest] at hhead
      simpa using hhead
    have htext : withoutTabs client.baseUrl.path =
        (withoutTabs client.baseUrl.path).takeWhile (fun c => !isPathEnd c) ++ e :: rest := by
      rw [← hrest, List.takeWhile_append_dropWhile]
    rw [parsePath_request h hcomplete, htext, List.append_assoc, List.cons_append] at hpath
    rcases pathStartState_pathEnd hfront he
      (rest ++ operation.path.render parameters.assignment) with heq | heq
    · have hnil : client.baseSegments ++ segments = client.baseSegments ++ [] :=
        (hpath.symm.trans heq).trans (List.append_nil _).symm
      exact absurd (List.append_cancel_left hnil) (stands_first hstands).1
    · have hempty : client.baseSegments ++ segments = client.baseSegments ++ [[]] :=
        hpath.symm.trans heq
      exact absurd (List.append_cancel_left hempty) (stands_first hstands).2

theorem stands_of_mem {template segments : List _}
    (h : List.Forall₂ (Stands parameters) template segments)
    {segment : Segment} (hsegment : segment ∈ template) :
    ∃ written ∈ segments, Stands parameters segment written := by
  induction h with
  | nil => cases hsegment
  | cons hfirst _ ih =>
    rcases List.mem_cons.mp hsegment with rfl | hsegment
    · exact ⟨_, List.mem_cons_self, hfirst⟩
    · obtain ⟨written, hwritten, hstands⟩ := ih hsegment
      exact ⟨written, List.mem_cons_of_mem _ hwritten, hstands⟩

/-- No segment of a parsed path is a dot, so none decodes to one. -/
theorem dotFree_of_builds {segments : List (List Char)}
    (hstands : List.Forall₂ (Stands parameters) operation.path.segments segments)
    (hdots : ∀ segment ∈ segments, isSingleDot segment = false ∧ isDoubleDot segment = false) :
    DotFree operation parameters := by
  intro name hname value hentry
  obtain ⟨segment, hsegment, hname⟩ := List.mem_filterMap.mp hname
  cases segment with
  | literal => cases hname
  | placeholder other =>
    obtain rfl : other = name := Option.some.inj hname
    obtain ⟨written, hwritten, value', text, hentry', htext, hdecode⟩ :=
      stands_of_mem hstands hsegment
    have hvalue : (other, value') = (other, value) :=
      List.inj_on_of_nodup_map parameters.nodup hentry' hentry rfl
    obtain rfl : value' = value := congrArg Prod.snd hvalue
    obtain ⟨hsingle, hdouble⟩ := hdots written hwritten
    constructor
    · rintro rfl
      obtain rfl : ['.'] = text := Option.some.inj htext
      exact absurd (isSingleDot_of_decode hdecode) (Bool.eq_false_iff.mp hsingle)
    · rintro rfl
      obtain rfl : ['.', '.'] = text := Option.some.inj htext
      exact absurd (isDoubleDot_of_decode hdecode) (Bool.eq_false_iff.mp hdouble)

end

theorem request_builds_iff (client : TonatiuhClient) (operation : Operation)
    (parameters : PathParameters) :
    BuildsUrl client operation parameters ↔
      ¬parameters.WellFormed ∨ ¬Complete operation parameters ∨
      client.OnlyPath ∧ DotFree operation parameters := by
  by_cases h : parameters.WellFormed
  case neg =>
    refine ⟨fun _ => .inl h, fun _ => ⟨fun _ => request_perm, fun url hurl => ?_⟩⟩
    rw [request_uriError h] at hurl
    cases hurl
  by_cases hcomplete : Complete operation parameters
  case neg =>
    refine ⟨fun _ => .inr (.inl hcomplete), fun _ => ⟨fun _ => request_perm, fun url hurl => ?_⟩⟩
    rw [request_missing h hcomplete] at hurl
    cases hurl
  have hok : client.request operation parameters = _ := request_ok h hcomplete
  constructor
  · rintro ⟨-, hbuilds⟩
    obtain ⟨segments, hpath, hstands⟩ := hbuilds _ hok
    have hpath := (List.cons.inj ((splitOn_pathText (noSlashes_parsePath _)).symm.trans hpath)).2
    refine .inr (.inr ⟨onlyPath_of_builds h hcomplete hstands hpath,
      dotFree_of_builds hstands fun segment hmem => ?_⟩)
    exact noDots_parsePath _ segment (hpath ▸ List.mem_append_right _ hmem)
  · intro hcases
    obtain ⟨hpath, hdots⟩ :=
      (hcases.resolve_left (not_not_intro h)).resolve_left (not_not_intro hcomplete)
    refine ⟨fun _ => request_perm, fun url hurl => ?_⟩
    obtain rfl := Except.ok.inj (hok.symm.trans hurl)
    refine ⟨_, ?_, rendered_stands h hcomplete⟩
    rw [← path_of_dotFree h hcomplete hpath hdots]
    exact splitOn_pathText (noSlashes_parsePath _)

/-! ## A bot whose identifier is `..` -/

def startBot : Operation where
  operationId := "startBot"
  method := "POST"
  path := {
    segments := [.literal ['a', 'p', 'i'], .literal ['v', '1'], .literal ['b', 'o', 't', 's'],
      .placeholder ['i', 'd'], .literal ['s', 't', 'a', 'r', 't']]
    lawful := by decide
    nodup := by decide
    begins := by decide }

theorem startBot_mem : startBot ∈ operations := by
  refine List.mem_filterMap.mpr
    ⟨⟨"startBot", "POST", "/api/v1/bots/{id}/start"⟩, by decide +kernel, ?_⟩
  simp only [String.reduceToList]
  rfl

def dotsParameters : PathParameters where
  entries := [(['i', 'd'], [46, 46])]
  nodup := by decide
  noBraces := List.forall_mem_singleton.mpr ⟨by decide, by decide⟩

def testClient : TonatiuhClient := .constructor ⟨"https://api.example.test".toList, ['/']⟩

/-- The segment `bots` is taken out of the path. -/
theorem request_not_builds : startBot ∈ operations ∧
    (testClient.request startBot dotsParameters).map FetchedUrl.pathname =
      .ok "/api/v1/start".toList ∧
    ¬BuildsUrl testClient startBot dotsParameters := by
  have hok : testClient.request startBot dotsParameters =
      .ok ⟨"https://api.example.test".toList,
        [['a', 'p', 'i'], ['v', '1'], ['s', 't', 'a', 'r', 't']], []⟩ := rfl
  refine ⟨startBot_mem, by rw [hok]; rfl, fun ⟨_, hbuilds⟩ => ?_⟩
  obtain ⟨segments, hpath, hstands⟩ := hbuilds _ hok
  have hlength := congrArg List.length hpath
  rw [List.length_cons, List.length_append, ← hstands.length_eq] at hlength
  exact absurd hlength (by decide)

end Tonatiuh.Sdk
