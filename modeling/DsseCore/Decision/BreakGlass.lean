import DsseCore.Decision.Gates

/-!
# Break-glass policies

A break-glass policy must carry a short lifetime, strong authentication and an audit duty; a request under it
must prove fresh strong authentication.
-/

namespace DsseCore.Decision

open Go Model

structure Outcome where
  decision : String
  reasonCodes : List String
  actions : List DecisionAction

inductive AuthFreshness where
  | missingAuthTime
  | missingTTL
  | ttlExpired
  | fresh
  deriving DecidableEq

def AuthFreshness.text : AuthFreshness → String
  | missingAuthTime => "missing_auth_time"
  | missingTTL => "missing_ttl"
  | ttlExpired => "ttl_expired"
  | fresh => "fresh"

structure BreakGlassPolicyContext where
  identityID : String
  maxSessionSeconds : Int
  strongAuthRequired : Bool
  strongAuthSatisfied : Bool
  auditRequired : Bool
  authAgeSeconds : Option Int
  reasonPresent : Bool
  ticketIDPresent : Bool
  requestID : String

def conditionContainsBreakGlassValue (value : Value) : Bool :=
  (conditionValues value).any fun v => normalizedRiskValue v == "break_glass"

def conditionRequiresBreakGlassAuth : Value → Bool
  | .map typed =>
    conditionContainsBreakGlassValue (Value.field typed "value") ||
      conditionContainsBreakGlassValue (Value.field typed "values")
  | v => conditionContainsBreakGlassValue v

def breakGlassPolicyConfigured (policy : Policy) : Bool :=
  policy.breakGlassPolicy ||
    conditionRequiresBreakGlassAuth (policy.conditions["auth_method"]?.getD .null) ||
    normalizedRiskValue (stringMetadataValue policy.metadata "purpose") ∈ ["break_glass","break_glass_lab"]

def breakGlassMaxSessionSeconds (policy : Policy) : Int :=
  policy.breakGlassMaxSessionSeconds.getD (intMetadata policy.metadata "break_glass_max_session_seconds" 0)

def breakGlassStrongAuthSatisfied (req : DecisionRequest) : Bool :=
  normalizedRiskValue req.authMethod == "break_glass" &&
    normalizedRiskValue req.mfaState ∈ ["fresh","verified","satisfied"] &&
    ((req.amr.any fun m => normalizedRiskValue m ∈
        ["otp","totp","hotp","webauthn","fido2","passkey","hardware_key","phishing_resistant","mfa"]) ||
      normalizedRiskValue req.acr ∈
        ["urn:break_glass:admin","urn:break_glass:strong_auth","break_glass_strong_auth"])

def breakGlassPolicyContextFor (now : Time) (policy : Policy) (req : DecisionRequest) :
    Option BreakGlassPolicyContext :=
  if breakGlassPolicyConfigured policy then
    let named := trimSpace (policy.breakGlassIdentityID.getD "")
    some
      { identityID := if named ≠ "" then named else stringMetadataValue policy.metadata "break_glass_identity_id"
        maxSessionSeconds := breakGlassMaxSessionSeconds policy
        strongAuthRequired := policy.breakGlassStrongAuthRequired ||
          boolMetadataValue policy.metadata "break_glass_strong_auth_required"
        strongAuthSatisfied := breakGlassStrongAuthSatisfied req
        auditRequired := policy.breakGlassAuditRequired ||
          boolMetadataValue policy.metadata "break_glass_audit_required"
        authAgeSeconds := breakGlassAuthAgeSeconds now req.authTime
        reasonPresent := req.breakGlassReasonPresent
        ticketIDPresent := req.breakGlassTicketIDPresent
        requestID := req.breakGlassRequestID }
  else none

namespace BreakGlassPolicyContext

variable (ctx : BreakGlassPolicyContext)

def authFreshness : AuthFreshness :=
  match ctx.authAgeSeconds with
  | none => .missingAuthTime
  | some age =>
    if ctx.maxSessionSeconds ≤ 0 then .missingTTL
    else if age > ctx.maxSessionSeconds then .ttlExpired
    else .fresh

def requirementReasonCodes : List String :=
  (if ctx.maxSessionSeconds ≤ 0 then ["break_glass_ttl_missing"]
    else if ctx.maxSessionSeconds > 3600 then ["break_glass_ttl_too_long"]
    else ["break_glass_short_ttl_valid"]) ++
  (if ctx.strongAuthRequired then [] else ["break_glass_strong_auth_requirement_missing"]) ++
  (if ctx.auditRequired then ["break_glass_audit_required"] else ["break_glass_audit_requirement_missing"])

def reauthenticationReasonCodes : List String :=
  (if ctx.strongAuthSatisfied then ["break_glass_strong_auth_satisfied"]
    else ["break_glass_strong_auth_required"]) ++
  match ctx.authFreshness with
  | .missingAuthTime => ["break_glass_auth_time_missing"]
  | .missingTTL => []
  | .ttlExpired => ["break_glass_ttl_expired"]
  | .fresh => []

def requirementsSatisfied : Bool :=
  0 < ctx.maxSessionSeconds && ctx.maxSessionSeconds ≤ 3600 && ctx.strongAuthRequired && ctx.auditRequired

def runtimeSatisfied : Bool := ctx.strongAuthSatisfied && ctx.authFreshness == .fresh

def reauthenticationAction (req : DecisionRequest) (policy : Policy) : DecisionAction where
  type := "prompt_reauthentication"
  target := stringPtr req.applicationID
  ttlSeconds := intPtr ctx.maxSessionSeconds
  metadata := Map.ofEntries
    [("break_glass_policy",.bool true),("required_by_policy_id",.str policy.id),
      ("required_auth_method",.str "break_glass"),("strong_auth_required",.bool true),
      ("max_session_seconds",.int ctx.maxSessionSeconds),
      ("accepted_mfa_factors",.strs ["otp","webauthn","fido2","passkey","hardware_key"]),
      ("audit_event_type",.str "break_glass_policy_decision"),
      ("break_glass_auth_freshness",.str ctx.authFreshness.text)]

def auditAction (req : DecisionRequest) (policy : Policy) (guardResult : String) : DecisionAction where
  type := "emit_audit_event"
  metadata :=
    let md := Map.ofEntries
      [("audit_event_type",Value.str "break_glass_policy_decision"),("policy_id",.str policy.id),
        ("application_id",.str req.applicationID),("break_glass_policy",.bool true),
        ("break_glass_policy_guard_result",.str guardResult),
        ("break_glass_strong_auth_required",.bool ctx.strongAuthRequired),
        ("break_glass_strong_auth_satisfied",.bool ctx.strongAuthSatisfied),
        ("break_glass_audit_required",.bool ctx.auditRequired),
        ("break_glass_auth_freshness",.str ctx.authFreshness.text)]
    let md := Map.insertIf md (ctx.identityID ≠ "") "break_glass_identity_id" (.str ctx.identityID)
    let md := Map.insertIf md (0 < ctx.maxSessionSeconds) "break_glass_max_session_seconds"
      (.int ctx.maxSessionSeconds)
    let md := Map.insertIf md ctx.authAgeSeconds.isSome "break_glass_auth_age_seconds"
      (.int (ctx.authAgeSeconds.getD 0))
    let md := Map.insertIf md (ctx.requestID ≠ "") "break_glass_request_id" (.str ctx.requestID)
    let md := Map.insertIf md ctx.reasonPresent "break_glass_reason_present" (.bool true)
    Map.insertIf md ctx.ticketIDPresent "break_glass_ticket_id_present" (.bool true)

/-- `applyBreakGlassPolicyGuard`: a badly configured policy denies, and an allowed request without fresh strong
authentication is sent to re-authenticate. -/
def guard (req : DecisionRequest) (policy : Policy) (out : Outcome) : Outcome :=
  let codes := appendUniqueStrings (appendUniqueString out.reasonCodes "break_glass_policy_matched")
    (ctx.requirementReasonCodes ++ ctx.reauthenticationReasonCodes)
  if ¬ ctx.requirementsSatisfied then
    { decision := "deny"
      reasonCodes := appendUniqueString codes "break_glass_policy_guard_failed"
      actions := out.actions ++ [ctx.auditAction req policy "blocked_policy_configuration"] }
  else if out.decision = "allow" ∧ ¬ ctx.runtimeSatisfied then
    { decision := "require_reauthentication"
      reasonCodes := appendUniqueString codes "reauthentication_required"
      actions := out.actions ++ [ctx.reauthenticationAction req policy,
        ctx.auditAction req policy "reauthentication_required"] }
  else
    { decision := out.decision
      reasonCodes := codes
      actions := out.actions ++ [ctx.auditAction req policy "allowed"] }

theorem guard_decision (req : DecisionRequest) (policy : Policy) (out : Outcome) :
    (ctx.guard req policy out).decision =
      if ctx.requirementsSatisfied = false then "deny"
      else if out.decision = "allow" ∧ ctx.runtimeSatisfied = false then "require_reauthentication"
      else out.decision := by
  simp only [guard,Bool.not_eq_true]
  split_ifs <;> rfl

end BreakGlassPolicyContext

def applyBreakGlassPolicyGuard (now : Time) (req : DecisionRequest) (policy : Policy) (out : Outcome) : Outcome :=
  match breakGlassPolicyContextFor now policy req with
  | some ctx => ctx.guard req policy out
  | none => out

variable {now : Time} {req : DecisionRequest} {policy : Policy} {out : Outcome}

theorem applyBreakGlassPolicyGuard_allow
    (h : (applyBreakGlassPolicyGuard now req policy out).decision = "allow") :
    out.decision = "allow" ∧ ∀ ctx, breakGlassPolicyContextFor now policy req = some ctx →
      ctx.requirementsSatisfied = true ∧ ctx.runtimeSatisfied = true := by
  unfold applyBreakGlassPolicyGuard at h
  cases hctx : breakGlassPolicyContextFor now policy req with
  | none =>
    rw [hctx] at h
    exact ⟨h,by simp⟩
  | some ctx =>
    simp only [hctx,ctx.guard_decision] at h
    split_ifs at h with hreq hrun
    · exact absurd h (by decide)
    · exact absurd h (by decide)
    refine ⟨h,?_⟩
    rintro _ ⟨rfl⟩
    exact ⟨by simpa using hreq,by simpa [h] using hrun⟩

theorem applyBreakGlassPolicyGuard_deny :
    (applyBreakGlassPolicyGuard now req policy out).decision = "deny" ↔
      out.decision = "deny" ∨
        ∃ ctx, breakGlassPolicyContextFor now policy req = some ctx ∧ ctx.requirementsSatisfied = false := by
  unfold applyBreakGlassPolicyGuard
  cases hctx : breakGlassPolicyContextFor now policy req with
  | none => simp
  | some ctx =>
    simp only [ctx.guard_decision]
    split_ifs with hreq hrun
    · simp [hreq]
    · simp [hreq,hrun.1]
    · simp [hreq]

end DsseCore.Decision
