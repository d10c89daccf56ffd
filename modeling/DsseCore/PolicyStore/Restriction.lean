import DsseCore.Model.Types

/-!
# Tenant-owned SaaS sign-in restrictions

The settings of package `tenantrestriction`: which providers exist, what a valid setting is, and the header rule
and catalog entry a setting stands for.
-/

namespace DsseCore.TenantRestriction

open Go Model

structure Setting where
  allowedValue : String := ""
  contextTenantID : String := ""
  enabled : Bool := false
  deriving DecidableEq

structure Provider where
  id : String
  appID : String
  name : String
  header : String
  kind : String
  hosts : List String

def providers : List Provider := [
  ⟨"google_workspace","saas_google_workspace","Google Workspace","X-GoogApps-Allowed-Domains","allowed_domains",
    ["google.com","*.google.com","googleapis.com","*.googleapis.com","googleusercontent.com",
      "*.googleusercontent.com"]⟩,
  ⟨"microsoft_365","saas_microsoft_365","Microsoft 365","Restrict-Access-To-Tenants","allowed_tenant_ids",
    ["login.microsoftonline.com","login.microsoft.com","login.windows.net"]⟩,
  ⟨"anthropic_claude","saas_anthropic_claude","Anthropic Claude","anthropic-allowed-org-ids","allowed_org_ids",
    ["claude.ai","*.claude.ai","claude.com","*.claude.com","anthropic.com","*.anthropic.com"]⟩,
  ⟨"openai_chatgpt","saas_openai_chatgpt","OpenAI ChatGPT","chatgpt-allowed-workspace-id","allowed_workspace_id",
    ["chatgpt.com","*.chatgpt.com","chat.openai.com"]⟩]

def lookup (id : String) : Option Provider := providers.find? (·.id == id)

/-- The bytes `url.PathEscape` leaves alone. -/
def pathSegmentByte (b : UInt8) : Bool :=
  let c := Char.ofNat b.toNat
  c.isAlphanum || c ∈ ['-','_','.','~','$','&','+',':','=','@']

def hexDigit (n : ℕ) : Char := (Nat.digitChar n).toUpper

def pathEscape (s : String) : String :=
  String.ofList (s.toUTF8.toList.flatMap fun b =>
    if pathSegmentByte b then [Char.ofNat b.toNat] else ['%',hexDigit (b.toNat / 16),hexDigit (b.toNat % 16)])

def ref (tenant provider : String) : String :=
  "operator_config_ref:tenant_restriction/" ++ pathEscape tenant ++ "/" ++ provider

def rule (tenant : String) (p : Provider) (s : Setting) : SWGTenantRestrictionRule where
  id := "tr/" ++ pathEscape tenant ++ "/" ++ p.id
  tenantID := tenant
  saasApplicationID := p.appID
  provider := p.id
  headerName := p.header
  headerValueRef := ref tenant p.id
  headerValueKind := p.kind
  status := if s.enabled then "active" else "inactive"
  metadata := (∅ : Map Value).insertIf (p.id == "microsoft_365") "restriction_context_ref"
    (.str (ref tenant p.id ++ "/context"))

def catalog (tenant : String) (p : Provider) : SaaSCatalogEntry where
  tenantID := tenant
  saasApplicationID := p.appID
  name := p.name
  provider := p.id
  category := "saas"
  domainPatterns := p.hosts

def isHexDigit (c : Char) : Bool := c.isDigit || ('a' ≤ c && c ≤ 'f') || ('A' ≤ c && c ≤ 'F')

/-- Letters and digits as a case-insensitive class reads them: the long s and the Kelvin sign fold to letters. -/
def isFoldedAlnum (c : Char) : Bool := c.isAlphanum || c == '\u017f' || c == '\u212a'

def isGUID (s : String) : Bool :=
  let groups := splitList '-' s.toList
  groups.map List.length == [8,4,4,4,12] && groups.all (·.all isHexDigit)

def isDomainLabel (l : List Char) : Bool :=
  l.length ≤ 63 && l.all (fun c => isFoldedAlnum c || c == '-') && l.head?.any isFoldedAlnum &&
    l.getLast?.any isFoldedAlnum

def isDomain (s : String) : Bool :=
  let labels := splitList '.' s.toList
  2 ≤ labels.length && labels.all isDomainLabel

def isWorkspace (s : String) : Bool :=
  1 ≤ s.length && s.length ≤ 256 && s.toList.all fun c => c.isAlphanum || c == '_' || c == '-'

def isShortDomain (s : String) : Bool := s.utf8ByteSize ≤ 253 && isDomain s

def validItem (provider allowedValue item : String) : Bool :=
  match provider with
  | "google_workspace" => isShortDomain item
  | "microsoft_365" => isGUID item || isShortDomain item
  | "anthropic_claude" => isGUID item
  | "openai_chatgpt" => isWorkspace item && !contains allowedValue ","
  | _ => false

inductive Error where
  | unknownProvider
  | invalidAllowedValue
  | emptyItem
  | invalidItem (provider : String)
  | invalidContext
  | incomplete
  | notCanonical
  deriving DecidableEq

def allowedItems (provider allowedValue : String) : Except Error (List String) :=
  (split allowedValue ',').foldlM (fun values raw =>
    let v := trimSpace raw
    let v := if provider ≠ "openai_chatgpt" then toLower v else v
    if v = "" then if trimSpace allowedValue ≠ "" then .error .emptyItem else .ok values
    else if ¬ validItem provider allowedValue v then .error (.invalidItem provider)
    else .ok (if v ∈ values then values else values ++ [v])) []

def validate (provider : String) (s : Setting) : Except Error Setting := do
  if (lookup provider).isNone then .error .unknownProvider
  if 8192 < s.allowedValue.utf8ByteSize ∨ s.allowedValue.toList.any fun c => c == '\r' || c == '\n' || c == '\x00' then
    .error .invalidAllowedValue
  let values ← allowedItems provider s.allowedValue
  let allowed := join "," values
  let context := toLower (trimSpace s.contextTenantID)
  if context ≠ "" ∧ (provider ≠ "microsoft_365" ∨ ¬ isGUID context) then .error .invalidContext
  if s.enabled ∧ (allowed = "" ∨ (provider = "microsoft_365" ∧ context = "")) then .error .incomplete
  .ok { s with allowedValue := allowed, contextTenantID := context }

def validateAll (settings : Map Setting) : Except Error Unit :=
  settings.toList.forM fun e => do
    let normalized ← validate e.1 e.2
    if normalized ≠ e.2 then .error .notCanonical else .ok ()

end DsseCore.TenantRestriction
