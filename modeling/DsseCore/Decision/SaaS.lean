import DsseCore.Decision.Basic

/-!
# SaaS catalog context

Before any policy is tried, the request is enriched with the first catalog entry whose patterns cover one of its
names.  What the client claimed about the SaaS application is cleared first.
-/

namespace DsseCore.Decision

open Go Model

def normalizeSaaSDomain (value : String) : String :=
  let value := trimSpace (toLower value)
  if value = "" then ""
  else
    let value := match cut value "://" with
      | some (_,rest) => match cut rest "/" with
        | some (host,_) => host
        | none => rest
      | none => value
    let value := (splitHostPortHost value).getD value
    trimSpace (trimSuffix value ".")

def saasDomainPatternMatches (domain pattern : String) : Option (String × String) :=
  let domain := normalizeSaaSDomain domain
  let pattern := normalizeSaaSDomain pattern
  if domain = "" ∨ pattern = "" ∨ pattern = "*" then none
  else if hasPrefix pattern "*." then
    let suffix := trimPrefix pattern "*."
    if suffix = "" ∨ domain = suffix then none
    else if hasSuffix domain ("." ++ suffix) then some (pattern,"wildcard")
    else none
  else if domain = pattern then some (pattern,"exact")
  else none

structure SaaSCatalogCandidate where
  source : String
  value : String
  deriving DecidableEq

/-- The names a request offers to the catalog.  Sources are distinct, so none repeats. -/
def saasCatalogCandidates (req : DecisionRequest) : List SaaSCatalogCandidate :=
  [(⟨"fqdn",normalizeSaaSDomain req.fqdn⟩ : SaaSCatalogCandidate),⟨"sni",normalizeSaaSDomain req.sni⟩,
    ⟨"destination",normalizeSaaSDomain req.destination⟩].foldl
    (fun acc c => if c.value = "" ∨ c ∈ acc then acc else acc ++ [c]) []

def saasCatalogEntryInTenantScope (bundleTenant : String) (entry : SaaSCatalogEntry) : Bool :=
  let owner := trimSpace entry.tenantID
  owner == "" || trimSpace bundleTenant == "" || owner == trimSpace bundleTenant

def matchSaaSCatalogPatterns (domain source : String) (entry : SaaSCatalogEntry) : Option (String × String) :=
  if trimSpace entry.saasApplicationID = "" then none
  else
    match entry.domainPatterns.findSome? (saasDomainPatternMatches domain) with
    | some (pattern,kind) => some (pattern,source ++ "_" ++ kind)
    | none =>
      if source ≠ "sni" then none
      else (entry.sniPatterns.findSome? (saasDomainPatternMatches domain)).map fun r => (r.1,"sni_" ++ r.2)

def saasEntryContext (candidates : List SaaSCatalogCandidate) (entry : SaaSCatalogEntry) : Option SaaSContext :=
  candidates.findSome? fun c =>
    (matchSaaSCatalogPatterns c.value c.source entry).map fun r =>
      { saasApplicationID := trimSpace entry.saasApplicationID
        name := trimSpace entry.name
        provider := trimSpace entry.provider
        category := trimSpace entry.category
        riskTier := trimSpace entry.riskTier
        matchedDomain := c.value
        matchedPattern := r.1
        matchType := r.2 }

def saasContextForRequest (bundle : PolicyBundle) (req : DecisionRequest) : Option SaaSContext :=
  let bundleTenant := if trimSpace req.tenantID ≠ "" then req.tenantID else bundle.tenantID
  let candidates := saasCatalogCandidates req
  bundle.saasCatalog.findSome? fun entry =>
    if saasCatalogEntryInTenantScope bundleTenant entry then saasEntryContext candidates entry else none

def clearDecisionRequestSaaSContext (req : DecisionRequest) : DecisionRequest :=
  { req with
    saasApplicationID := "", saasName := "", saasProvider := "", saasCategory := "", saasRiskTier := ""
    saasMatchedDomain := "", saasMatchedPattern := "", saasMatchType := "" }

def withSaaSContext (req : DecisionRequest) (ctx : SaaSContext) : DecisionRequest :=
  { req with
    saasApplicationID := ctx.saasApplicationID, saasName := ctx.name, saasProvider := ctx.provider
    saasCategory := ctx.category, saasRiskTier := ctx.riskTier, saasMatchedDomain := ctx.matchedDomain
    saasMatchedPattern := ctx.matchedPattern, saasMatchType := ctx.matchType }

def decisionRequestWithSaaSContext (bundle : PolicyBundle) (req : DecisionRequest) : DecisionRequest :=
  match saasContextForRequest bundle (clearDecisionRequestSaaSContext req) with
  | none => clearDecisionRequestSaaSContext req
  | some ctx => withSaaSContext (clearDecisionRequestSaaSContext req) ctx

@[simp] theorem decisionRequestWithSaaSContext_tenantID (bundle : PolicyBundle) (req : DecisionRequest) :
    (decisionRequestWithSaaSContext bundle req).tenantID = req.tenantID := by
  unfold decisionRequestWithSaaSContext
  cases saasContextForRequest bundle (clearDecisionRequestSaaSContext req) <;> rfl

theorem saasCatalogEntryInTenantScope_eq {t : String} (h : trimSpace t ≠ "") (entry : SaaSCatalogEntry) :
    saasCatalogEntryInTenantScope t entry = !foreign t entry.tenantID := by
  rw [saasCatalogEntryInTenantScope,foreign,Bool.eq_iff_iff]
  simp [h]

end DsseCore.Decision
