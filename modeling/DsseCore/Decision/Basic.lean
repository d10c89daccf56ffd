import DsseCore.Model.Types

/-!
# Small helpers of the decision package

Normalisation, optional values, metadata readers and the tenant test every resource lookup goes through.
-/

namespace DsseCore.Decision

open Go Model

def normalizedRiskValue (value : String) : String :=
  replaceChar (replaceChar (toLower (trimSpace value)) '-' '_') ' ' '_'

def appendUniqueString (values : List String) (value : String) : List String :=
  if value = "" then values else if value ∈ values then values else values ++ [value]

def appendUniqueStrings (values new : List String) : List String := new.foldl appendUniqueString values

def firstNonEmpty (values : List String) : String :=
  match values.find? (trimSpace · ≠ "") with
  | some v => trimSpace v
  | none => ""

def splitCommaList (value : String) : List String :=
  ((split value ',').map trimSpace).filter (· ≠ "")

def valueOrDefault (value fallback : String) : String := if value = "" then fallback else value

def stringPtr (value : String) : Option String := if value = "" then none else some value

def intPtr (value : Int) : Option Int := if value = 0 then none else some value

def singleValue (value : String) : List String := if value = "" then [] else [value]

def trueValue (value : Bool) : List String := if value then ["true"] else []

def stringMetadataValue (metadata : Map Value) (key : String) : String :=
  match metadata[key]? with
  | none => ""
  | some .null => ""
  | some v => trimSpace v.sprint

def boolMetadataValue (metadata : Map Value) (key : String) : Bool :=
  match metadata[key]? with
  | some (.bool b) => b
  | some (.str s) => equalFold (trimSpace s) "true"
  | _ => false

def intMetadata (metadata : Map Value) (key : String) (fallback : Int) : Int :=
  match metadata[key]? with
  | some (.int n) => n
  | some (.float f) => f.toInt
  | some (.str s) => (atoi s).getD fallback
  | _ => fallback

/-- The flow's tenant decides; the policy's and the bundle's stand in only for callers without one. -/
def tenantMatches (candidate bundleTenant policyTenant requestTenant : String) : Bool :=
  trimSpace candidate == "" ||
    trimSpace candidate == firstNonEmpty [requestTenant,policyTenant,bundleTenant]

/-- A resource owned by somebody else than `t`: neither global nor `t`'s own. -/
def foreign (t owner : String) : Bool := trimSpace owner ≠ "" && trimSpace owner ≠ trimSpace t

theorem tenantMatches_eq_not_foreign {requestTenant : String} (h : trimSpace requestTenant ≠ "")
    (candidate bundleTenant policyTenant : String) :
    tenantMatches candidate bundleTenant policyTenant requestTenant = !foreign requestTenant candidate := by
  rw [tenantMatches,foreign,Bool.eq_iff_iff]
  simp [firstNonEmpty,h,Classical.or_iff_not_imp_left]

variable {values : List String} {v : String}

theorem mem_appendUniqueString {value : String} :
    v ∈ appendUniqueString values value ↔ v ∈ values ∨ (v = value ∧ value ≠ "") := by
  unfold appendUniqueString
  split_ifs with h h'
  · simp [h]
  · constructor
    · exact .inl
    rintro (hv | ⟨rfl, _⟩)
    · exact hv
    · exact h'
  · simp [h]

theorem notMem_appendUniqueString {value : String} (h : v ∉ values) (hv : v ≠ value) :
    v ∉ appendUniqueString values value := by
  rw [mem_appendUniqueString]
  rintro (hm | ⟨rfl, _⟩)
  · exact h hm
  · exact hv rfl

theorem mem_appendUniqueStrings {new : List String} :
    v ∈ appendUniqueStrings values new ↔ v ∈ values ∨ (v ∈ new ∧ v ≠ "") := by
  unfold appendUniqueStrings
  induction new generalizing values with
  | nil => simp
  | cons n new ih =>
    rw [List.foldl_cons,ih,mem_appendUniqueString,List.mem_cons]
    constructor
    · rintro ((hv | ⟨rfl, hn⟩) | ⟨hv, hn⟩)
      · exact .inl hv
      · exact .inr ⟨.inl rfl,hn⟩
      · exact .inr ⟨.inr hv,hn⟩
    · rintro (hv | ⟨rfl | hv, hn⟩)
      · exact .inl (.inl hv)
      · exact .inl (.inr ⟨rfl,hn⟩)
      · exact .inr ⟨hv,hn⟩

end DsseCore.Decision
