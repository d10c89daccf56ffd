import DsseCore.Decision.BreakGlass

/-!
# Server-initiated access

A flow opened by a server towards a client is denied unless an active, unexpired exception covers it.
-/

namespace DsseCore.Decision

open Go

/-- An exception as the evaluator holds it: expiry parsed, mode defaulted. -/
structure LegacyException where
  id : String := ""
  sourceServer : String := ""
  deviceGroup : String := ""
  serviceFamily : String := ""
  protocol : String := ""
  port : Int := 0
  mode : String := ""
  expiresAt : Time := Time.zero
  active : Bool := false
  deriving DecidableEq

/-- A malformed expiry keeps the selector and makes the mode invalid, so that matching traffic is refused. -/
def legacyExceptionFromModel (ex : Model.LegacyException) : LegacyException :=
  let mode := if trimSpace ex.mode = "" then "allow" else trimSpace ex.mode
  let parsed := Time.parseRFC3339 (trimSpace ex.expiresAt)
  let expiry : Time × String :=
    if trimSpace ex.expiresAt = "" then (Time.zero,mode)
    else match parsed with
      | some t => (t,mode)
      | none => (Time.zero,"invalid")
  { id := ex.id, sourceServer := ex.sourceServer, deviceGroup := ex.deviceGroup, serviceFamily := ex.serviceFamily
    protocol := ex.protocol, port := ex.port, mode := expiry.2, expiresAt := expiry.1
    active := equalFold (trimSpace ex.status) "active" }

def legacyExceptionsFromModel (exs : List Model.LegacyException) : List LegacyException :=
  exs.map legacyExceptionFromModel

def isServerInitiated (req : Model.DecisionRequest) : Bool :=
  toLower (trimSpace req.connectionInitiator) ∈ ["server","server_initiated"] ||
    (equalFold (trimSpace req.sourceRole) "server" && equalFold (trimSpace req.destinationRole) "client")

def legacyFieldMatch (exVal reqVal : String) : Bool :=
  trimSpace exVal == "" || equalFold (trimSpace exVal) (trimSpace reqVal)

def legacyExceptionMatches (now : Time) (req : Model.DecisionRequest) (ex : LegacyException) : Bool :=
  ex.active && (ex.expiresAt.isZero || now < ex.expiresAt) &&
    legacyFieldMatch ex.sourceServer req.sourceServer && legacyFieldMatch ex.deviceGroup req.deviceGroup &&
    legacyFieldMatch ex.serviceFamily req.serviceFamily && legacyFieldMatch ex.protocol req.protocol &&
    (ex.port == 0 || ex.port == req.destinationPort)

def matchLegacyException (now : Time) (exceptions : List LegacyException) (req : Model.DecisionRequest) :
    Option LegacyException :=
  exceptions.find? (legacyExceptionMatches now req)

def serverInitiatedDecisionFor (now : Time) (exceptions : List LegacyException) (req : Model.DecisionRequest) :
    Outcome :=
  match matchLegacyException now exceptions req with
  | none => ⟨"deny",["server_initiated_default_deny"],[]⟩
  | some ex =>
    match toLower (trimSpace ex.mode) with
    | "deny" => ⟨"deny",["server_initiated_legacy_exception_deny"],[]⟩
    | "warn" => ⟨"allow",["server_initiated_legacy_exception_warn"],[]⟩
    | "observe" => ⟨"allow",["server_initiated_legacy_exception_observe"],[]⟩
    | "allow" => ⟨"allow",["server_initiated_legacy_exception_allow"],[]⟩
    | _ => ⟨"deny",["server_initiated_invalid_exception"],[]⟩

end DsseCore.Decision
