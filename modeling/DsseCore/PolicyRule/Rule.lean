import DsseCore.Model.Types

/-!
# Authored rules

A rule reads `source → destination : service ⇒ action` on one plane.  `normalizeAndValidate` is what the rule store
runs on every rule it accepts; the compilers see normalized rules.
-/

namespace DsseCore.PolicyRule

open Go Model

structure Action where
  access : String := ""
  inspection : String := ""
  requireWorkloadAttestation : Bool := false
  grantTTLSeconds : Int := 0
  requiredIdPID : String := ""
  minACR : String := ""
  requiredAMR : List String := []
  maxAgeSeconds : Option Int := none
  deviceAttestedAuto : Bool := false
  dlp : Option DLPSpec := none
  deriving DecidableEq

structure Rule where
  id : String := ""
  tenantID : String := ""
  plane : String := ""
  direction : String := ""
  priority : Int := 0
  source : List String := []
  destination : List String := []
  serviceID : String := ""
  action : Action := {}
  allowedToolIDs : List String := []
  riskAtLeast : String := ""
  status : String := ""
  stage : String := ""
  deriving DecidableEq

def subjectAny : String := "*"

def isAnySubject (ids : List String) : Bool := ids.any fun id => trimSpace id == subjectAny

/-- The three reserved selector namespaces: a trimmed token after the mark, if it is not blank. -/
def prefixedToken (mark id : String) : Option String :=
  let s := trimSpace id
  if ¬ hasPrefix s mark then none
  else
    let token := trimSpace (trimPrefix s mark)
    if token = "" then none else some token

def identityGroupToken (id : String) : Option String := prefixedToken "idgroup:" id

def identityUserToken (id : String) : Option String := prefixedToken "iduser:" id

def agentToken (id : String) : Option String := prefixedToken "nhi:" id

def riskSeverityRank (severity : String) : Option ℕ :=
  match severity with
  | "low" => some 1
  | "medium" => some 2
  | "high" => some 3
  | "critical" => some 4
  | _ => none

/-- The severities at or above a threshold; no severity at all when there is no threshold. -/
def riskSeveritiesAtLeast (threshold : String) : List String :=
  match riskSeverityRank (toLower (trimSpace threshold)) with
  | none => []
  | some minRank => ["low","medium","high","critical"].filter fun s => minRank ≤ (riskSeverityRank s).getD 0

/-- Why a rule is refused; the offending text is carried where the message quotes it. -/
inductive RuleError where
  | tenantRequired
  | directionInvalid (direction : String)
  | egressDirection
  | planeInvalid (plane : String)
  | accessInvalid (access : String)
  | inspectionInvalid (inspection : String)
  | denyBypass
  | grantTTLNegative
  | maxAgeRange
  | sourceEmpty
  | destinationEmpty
  | sourceBlank
  | destinationBlank
  | riskInvalid (threshold : String)
  | statusInvalid (status : String)
  | stageInvalid (stage : String)
  | stageWarnPlane
  deriving DecidableEq

def normalizeDirection (plane direction : String) : Except RuleError String :=
  match plane with
  | "east_west" =>
    let d := toLower (trimSpace direction)
    if d = "" ∨ d = "outbound" then .ok "outbound"
    else if d = "inbound" then .ok "inbound"
    else .error (.directionInvalid d)
  | "egress" => if trimSpace direction ≠ "" then .error .egressDirection else .ok direction
  | p => .error (.planeInvalid p)

/-- Access and inspection lower-cased and defaulted; a deny forwards nothing and so cannot bypass inspection. -/
def normalizeAction (action : Action) : Except RuleError Action :=
  let access := toLower (trimSpace action.access)
  let inspection := toLower (trimSpace action.inspection)
  let inspection := if inspection = "" then "inspect" else inspection
  if access ∉ ["allow","authenticate","deny"] then .error (.accessInvalid access)
  else if inspection ∉ ["inspect","bypass"] then .error (.inspectionInvalid inspection)
  else if access = "deny" ∧ inspection = "bypass" then .error .denyBypass
  else if action.grantTTLSeconds < 0 then .error .grantTTLNegative
  else if action.maxAgeSeconds.any fun n => n < 0 || 86400 < n then .error .maxAgeRange
  else .ok { action with access := access, inspection := inspection }

def canonicalSubjects (ids : List String) : List String := if isAnySubject ids then [subjectAny] else ids

def normalizeRisk (threshold : String) : Except RuleError String :=
  let risk := toLower (trimSpace threshold)
  let risk := if risk = "none" then "" else risk
  if risk ≠ "" ∧ riskSeverityRank risk = none then .error (.riskInvalid risk) else .ok risk

/-- A lower-cased value out of a list, whose first member is the default. -/
def normalizeChoice (default other : String) (error : String → RuleError) (value : String) :
    Except RuleError String :=
  let v := toLower (trimSpace value)
  if v = "" ∨ v = default then .ok default
  else if v = other then .ok other
  else .error (error v)

def normalizeAndValidate (r : Rule) : Except RuleError Rule := do
  let tenantID := trimSpace r.tenantID
  if tenantID = "" then .error .tenantRequired
  let plane := toLower (trimSpace r.plane)
  let direction ← normalizeDirection plane r.direction
  let action ← normalizeAction r.action
  if r.source = [] then .error .sourceEmpty
  if r.destination = [] then .error .destinationEmpty
  if r.source.any (trimSpace · == "") then .error .sourceBlank
  if r.destination.any (trimSpace · == "") then .error .destinationBlank
  let riskAtLeast ← normalizeRisk r.riskAtLeast
  let status ← normalizeChoice "active" "disabled" .statusInvalid r.status
  let stage ← normalizeChoice "enforce" "warn" .stageInvalid r.stage
  if stage = "warn" ∧ plane ≠ "east_west" then .error .stageWarnPlane
  .ok { r with
    tenantID := tenantID, plane := plane, direction := direction, action := action
    source := canonicalSubjects r.source, destination := canonicalSubjects r.destination
    riskAtLeast := riskAtLeast, status := status, stage := stage }

/-- A rule as the store holds it: normalizing again changes nothing. -/
def Normalized (r : Rule) : Prop := normalizeAndValidate r = .ok r

instance (r : Rule) : Decidable (Normalized r) := inferInstanceAs (Decidable (normalizeAndValidate r = .ok r))

theorem normalizeAndValidate_ok {r r' : Rule} (h : normalizeAndValidate r = .ok r') :
    r'.tenantID = trimSpace r.tenantID ∧ trimSpace r.tenantID ≠ "" ∧
      normalizeAction r.action = .ok r'.action ∧ normalizeRisk r.riskAtLeast = .ok r'.riskAtLeast ∧
      r'.source ≠ [] ∧ r'.destination ≠ [] := by
  unfold normalizeAndValidate at h
  simp only [bind,Except.bind] at h
  split at h
  · cases h
  rename_i ht
  cases hd : normalizeDirection (toLower (trimSpace r.plane)) r.direction with
  | error e => simp [hd] at h
  | ok direction =>
    cases ha : normalizeAction r.action with
    | error e => simp [hd,ha] at h
    | ok action =>
      cases hr : normalizeRisk r.riskAtLeast with
      | error e =>
        simp only [hd,ha,hr] at h
        split_ifs at h
      | ok risk =>
        simp only [hd,ha,hr] at h
        split_ifs at h with h1 h2 h3 h4
        split at h
        · cases h
        split at h
        · cases h
        split_ifs at h
        cases h
        refine ⟨rfl,ht,rfl,rfl,?_,?_⟩ <;> simp only [canonicalSubjects] <;> split <;> simp_all

theorem normalizeAction_ok {a a' : Action} (h : normalizeAction a = .ok a') :
    a'.access ∈ ["allow","authenticate","deny"] := by
  unfold normalizeAction at h
  generalize toLower (trimSpace a.access) = access at h
  simp only at h
  generalize (if toLower (trimSpace a.inspection) = "" then _ else _) = inspection at h
  by_cases haccess : access ∈ ["allow","authenticate","deny"]
  · rw [if_neg (not_not.mpr haccess)] at h
    split at h
    · cases h
    split at h
    · cases h
    split at h
    · cases h
    split at h
    · cases h
    · cases h
      exact haccess
  · rw [if_pos haccess] at h
    cases h

theorem normalizeRisk_ok {t t' : String} (h : normalizeRisk t = .ok t') :
    t' = "" ∨ (t' = toLower (trimSpace t) ∧ riskSeverityRank t' ≠ none) := by
  unfold normalizeRisk at h
  generalize toLower (trimSpace t) = risk at h ⊢
  generalize hrank : riskSeverityRank = rank at h ⊢
  by_cases hnone : risk = "none"
  · simp only [if_pos hnone,ne_eq,not_true_eq_false,false_and,if_false,Except.ok.injEq] at h
    exact .inl h.symm
  simp only [if_neg hnone] at h
  split_ifs at h with hbad
  cases h
  rw [not_and_or,not_not] at hbad
  exact hbad.imp id fun hr => ⟨rfl,hr⟩

namespace Normalized

variable {r : Rule} (h : Normalized r)
include h

theorem tenantID_trimmed : trimSpace r.tenantID = r.tenantID := (normalizeAndValidate_ok h).1.symm

theorem access : r.action.access ∈ ["allow","authenticate","deny"] :=
  normalizeAction_ok (normalizeAndValidate_ok h).2.2.1

theorem riskAtLeast :
    r.riskAtLeast = "" ∨
      (r.riskAtLeast = toLower (trimSpace r.riskAtLeast) ∧ riskSeverityRank r.riskAtLeast ≠ none) :=
  normalizeRisk_ok (normalizeAndValidate_ok h).2.2.2.1

end Normalized

end DsseCore.PolicyRule
