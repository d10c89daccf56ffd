import DsseCore.Decision.EastWest
import DsseCore.Go.CaseMapping

/-!
# The reach of the lateral plane

What an operator declares about the estate can only add to the lateral plane.  The address classes that never leave an
estate are on it whatever is declared, and a declared domain stands for itself and the names below it.
-/

namespace DsseCore.Decision

open Go Model List

variable {name text : String}

def labels (name : String) : List (List Char) := splitList '.' name.toList

theorem splitList_suffix_iff (sep : Char) (d h : List Char) :
    splitList sep d <:+ splitList sep h ↔ h = d ∨ sep :: d <:+ h := by
  constructor
  · intro hsuffix
    induction h with
    | nil =>
      have hd : splitList sep d = splitList sep [] := by
        rcases suffix_cons_iff.mp hsuffix with heq | hnil
        · exact heq
        · exact absurd (suffix_nil.mp hnil) (splitList_ne_nil sep d)
      exact .inl (splitList_injective sep hd).symm
    | cons c h ih =>
      obtain ⟨w, ws, hw⟩ := exists_cons_of_ne_nil (splitList_ne_nil sep h)
      by_cases hc : c = sep
      · have hcons : splitList sep (c :: h) = [] :: splitList sep h := by simp [splitList,hc]
        rw [hcons] at hsuffix
        rcases suffix_cons_iff.mp hsuffix with heq | hrest
        · exact .inl (splitList_injective sep (heq.trans hcons.symm)).symm
        rcases ih hrest with rfl | hbelow
        · exact .inr (by rw [hc])
        · exact .inr (hbelow.trans (suffix_cons c h))
      · have hcons := splitList_cons_of_ne hc hw
        rw [hcons] at hsuffix
        rcases suffix_cons_iff.mp hsuffix with heq | hrest
        · exact .inl (splitList_injective sep (heq.trans hcons.symm)).symm
        have hlonger : splitList sep d <:+ splitList sep h := by
          rw [hw]
          exact hrest.trans (suffix_cons w ws)
        rcases ih hlonger with rfl | hbelow
        · -- the name cannot end with more labels than it has
          have hlength := hrest.length_le
          rw [hw,length_cons] at hlength
          omega
        · exact .inr (hbelow.trans (suffix_cons c h))
  · rintro (rfl | ⟨l, rfl⟩)
    · exact suffix_rfl
    · rw [splitList_append]
      exact suffix_append _ _

def hostName (host : String) : String := trimSuffix (toLower (trimSpace host)) "."

def domainName (declared : String) : String := trimSuffix (trimPrefix (toLower (trimSpace declared)) "*.") "."

theorem InternalNetworks.matchesDomain_iff {n : InternalNetworks} {host : String} :
    n.matchesDomain host = true ↔
      hostName host ≠ "" ∧ ∃ d ∈ n.domains, domainName d ≠ "" ∧ labels (domainName d) <:+ labels (hostName host) := by
  have hcovers : ∀ d h : String, (h == d || hasSuffix h ("." ++ d)) = true ↔ labels d <:+ labels h := by
    intro d h
    have hdot : ("." ++ d).toList = '.' :: d.toList := by simp [String.toList_append]
    rw [labels,labels,splitList_suffix_iff,Bool.or_eq_true,beq_iff_eq,hasSuffix,isSuffixOf_iff_suffix,hdot,
      String.toList_inj]
  have hunfold : n.matchesDomain host =
      if hostName host = "" then false
      else n.domains.any fun d =>
        domainName d ≠ "" && (hostName host == domainName d || hasSuffix (hostName host) ("." ++ domainName d)) := rfl
  rw [hunfold]
  by_cases hempty : hostName host = ""
  · simp [hempty]
  · simp only [hempty,if_false,any_eq_true,Bool.and_eq_true,hcovers,decide_eq_true_eq,ne_eq,not_false_eq_true,
      true_and]

/-- A name without surrounding space, trailing dot or wildcard label in front. -/
structure BareName (name : String) : Prop where
  trimmed : trimSpace name = name
  noDot : hasSuffix name "." = false
  noWildcard : hasPrefix (name ++ ".") "*." = false

/-- The ways to write a name: in any case, with or without a trailing dot. -/
def HostSpelling (name text : String) : Prop := toLower text ∈ [name,name ++ "."]

/-- The ways to declare a name, which may have a wildcard label in front as well. -/
def DomainSpelling (name text : String) : Prop :=
  toLower text ∈ [name,name ++ ".","*." ++ name,"*." ++ name ++ "."]

theorem trimSuffix_append (s t : String) : trimSuffix (s ++ t) t = s := by
  have hsuffix : hasSuffix (s ++ t) t = true := by
    rw [hasSuffix,isSuffixOf_iff_suffix,String.toList_append]
    exact suffix_append _ _
  rw [trimSuffix,if_pos hsuffix]
  simp

theorem trimPrefix_append (s t : String) : trimPrefix (t ++ s) t = s := by
  have hfront : hasPrefix (t ++ s) t = true := by
    rw [hasPrefix, isPrefixOf_iff_prefix,String.toList_append]
    exact prefix_append _ _
  rw [trimPrefix,if_pos hfront]
  simp

theorem trimPrefix_of_not {s t : String} (h : hasPrefix s t = false) : trimPrefix s t = s := by
  rw [trimPrefix,if_neg (by simp [h])]

theorem trimSuffix_of_not {s t : String} (h : hasSuffix s t = false) : trimSuffix s t = s := by
  rw [trimSuffix,if_neg (by simp [h])]

theorem BareName.stripped (h : BareName name) (ht : text ∈ [name,name ++ ".","*." ++ name,"*." ++ name ++ "."]) :
    trimSuffix (trimPrefix text "*.") "." = name := by
  have hbare : hasPrefix name "*." = false := by
    by_contra hstar
    rw [Bool.not_eq_false,hasPrefix, isPrefixOf_iff_prefix] at hstar
    have hdot := h.noWildcard
    rw [hasPrefix,String.toList_append] at hdot
    have := isPrefixOf_iff_prefix.mpr (hstar.trans (prefix_append name.toList ".".toList))
    rw [hdot] at this
    exact Bool.false_ne_true this
  simp only [mem_cons,not_mem_nil,or_false] at ht
  rcases ht with rfl | rfl | rfl | rfl
  · rw [trimPrefix_of_not hbare,trimSuffix_of_not h.noDot]
  · rw [trimPrefix_of_not h.noWildcard,trimSuffix_append]
  · rw [trimPrefix_append,trimSuffix_of_not h.noDot]
  · rw [String.append_assoc,trimPrefix_append,trimSuffix_append]

theorem BareName.trimSpace_spelling (h : BareName name)
    (ht : text ∈ [name,name ++ ".","*." ++ name,"*." ++ name ++ "."]) : trimSpace text = text := by
  have hname := trimSpace_eq_self_iff.mp h.trimmed
  have hdot : isSpace '.' = false := by decide
  have hstar : isSpace '*' = false := by decide
  have hwild : ("*." ++ name).toList = '*' :: '.' :: name.toList := by simp [String.toList_append]
  simp only [mem_cons,not_mem_nil,or_false] at ht
  rw [trimSpace_eq_self_iff]
  rcases ht with rfl | rfl | rfl | rfl
  · exact hname
  · rw [String.toList_append]
    exact trimList_append_singleton hname hdot
  · rw [hwild]
    exact trimList_cons (trimList_cons hname hdot) hstar
  · rw [String.toList_append,hwild]
    exact trimList_append_singleton (trimList_cons (trimList_cons hname hdot) hstar) hdot

theorem domainName_spelling (h : BareName name) (ht : DomainSpelling name text) : domainName text = name := by
  rw [domainName,← trimSpace_toLower,h.trimSpace_spelling ht,h.stripped ht]

theorem hostName_spelling (h : BareName name) (ht : HostSpelling name text) : hostName text = name := by
  have hdeclared : toLower text ∈ [name,name ++ ".","*." ++ name,"*." ++ name ++ "."] := by
    simp only [HostSpelling,mem_cons] at ht ⊢
    tauto
  rw [hostName,← trimSpace_toLower,h.trimSpace_spelling hdeclared]
  simp only [HostSpelling,mem_cons,not_mem_nil,or_false] at ht
  rcases ht with ht | ht
  · rw [ht,trimSuffix_of_not h.noDot]
  · rw [ht,trimSuffix_append]

variable {req : DecisionRequest} {declared more : InternalNetworks}

theorem matchesCIDR_mono (h : declared.cidrs ⊆ more.cidrs) {ip : Addr} (hip : declared.matchesCIDR ip = true) :
    more.matchesCIDR ip = true := by
  rw [InternalNetworks.matchesCIDR,any_eq_true] at hip ⊢
  obtain ⟨c, hc, hmatch⟩ := hip
  exact ⟨c,h hc,hmatch⟩

theorem matchesDomain_mono (h : declared.domains ⊆ more.domains) {host : String}
    (hhost : declared.matchesDomain host = true) : more.matchesDomain host = true := by
  rw [InternalNetworks.matchesDomain_iff] at hhost ⊢
  obtain ⟨hne, d, hd, hcovers⟩ := hhost
  exact ⟨hne,d,h hd,hcovers⟩

def classifiedName (req : DecisionRequest) : String :=
  let named := toLower (trimSpace req.fqdn)
  if named = "" ∧ destinationHost req ≠ "" ∧ ¬ isIP (destinationHost req) then toLower (destinationHost req) else named

/-- The address a request is classified by, as it is written. -/
def classifiedAddress (req : DecisionRequest) : Option Addr :=
  [destinationHost req,req.destinationIP,req.destinationResolvedIP].findSome? fun v =>
    let v := trimCutset (trimSpace v) ['[',']']
    if v = "" then none else Addr.parse v

theorem classifyDestinationLocality_eq (req : DecisionRequest) (declared : InternalNetworks) :
    classifyDestinationLocality req declared =
      if classifiedName req ≠ "" ∧ declared.matchesDomain (classifiedName req) then .internal
      else match (classifiedAddress req).map Addr.unmap with
        | none => .unknown
        | some ip =>
          if declared.matchesCIDR ip then .internal else if isInternalAddress ip then .internal else .public_ := by
  have hip : parseIPCandidate [destinationHost req,req.destinationIP,req.destinationResolvedIP] =
      (classifiedAddress req).map Addr.unmap := by
    have hparse : (fun v => let v := trimCutset (trimSpace v) ['[',']']
        if v = "" then none else (Addr.parse v).map Addr.unmap) =
        Option.map Addr.unmap ∘ fun v => let v := trimCutset (trimSpace v) ['[',']']
        if v = "" then none else Addr.parse v := by
      funext v
      simp only [Function.comp]
      split
      · rfl
      · rfl
    rw [parseIPCandidate,classifiedAddress,map_findSome?,hparse]
  simp only [classifyDestinationLocality,hip]
  cases (classifiedAddress req).map Addr.unmap with
  | none => exact if_congr Iff.rfl rfl rfl
  | some ip => exact if_congr Iff.rfl rfl rfl

theorem public_iff :
    classifyDestinationLocality req declared = .public_ ↔
      ¬ (classifiedName req ≠ "" ∧ declared.matchesDomain (classifiedName req) = true) ∧
        ∃ a, classifiedAddress req = some a ∧ declared.matchesCIDR a.unmap = false ∧
          isInternalAddress a.unmap = false := by
  rw [classifyDestinationLocality_eq]
  by_cases hname : classifiedName req ≠ "" ∧ declared.matchesDomain (classifiedName req) = true
  · simp [hname]
  cases ha : classifiedAddress req with
  | none => simp [hname]
  | some a =>
    cases hcidr : declared.matchesCIDR a.unmap <;> cases hclass : isInternalAddress a.unmap <;>
      simp [hname,hcidr]

theorem isEastWestFlow_mono (hcidrs : declared.cidrs ⊆ more.cidrs) (hdomains : declared.domains ⊆ more.domains)
    (h : isEastWestFlow req declared = true) : isEastWestFlow req more = true := by
  unfold isEastWestFlow at h ⊢
  rw [Bool.or_eq_true,Bool.and_eq_true] at h ⊢
  refine h.imp_right (And.imp_right ?_)
  simp only [eastWestLocalityAdmits,bne_iff_ne,ne_eq,public_iff]
  rintro hprivate ⟨hname, a, ha, hcidr, hclass⟩
  refine hprivate ⟨fun hn => hname ⟨hn.1,matchesDomain_mono hdomains hn.2⟩,a,ha,?_,hclass⟩
  rw [Bool.eq_false_iff] at hcidr ⊢
  exact fun hin => hcidr (matchesCIDR_mono hcidrs hin)

/-- The address classes that do not leave an estate.  An IPv4-mapped address is of the class of its IPv4 address. -/
def NonRoutable (a : Addr) : Prop :=
  a.isPrivate = true ∨ a.isLoopback = true ∨ a.isLinkLocalUnicast = true ∨ a.isLinkLocalMulticast = true ∨
    a.unmap.isUnspecified = true ∨ cgnat.contains a.unmap = true

theorem isInternalAddress_unmap {a : Addr} (h : NonRoutable a) : isInternalAddress a.unmap = true := by
  have hcgnat : cgnat.contains a.unmap = true → a.unmap.is4 = true := by
    cases a.unmap with
    | v4 b => exact fun _ => rfl
    | v6 b z => exact fun h => absurd h (by simp [cgnat,Prefix.contains])
  unfold isInternalAddress
  rcases h with h | h | h | h | h | h
  · simp [h]
  · simp [h]
  · simp [h]
  · simp [h]
  · simp [h]
  · simp [h,hcgnat h]

theorem isEastWestFlow_of_nonRoutable (hfamily : isEastWestProtocol req.serviceFamily = true) {a : Addr}
    (ha : classifiedAddress req = some a) (hclass : NonRoutable a) : isEastWestFlow req declared = true := by
  unfold isEastWestFlow
  rw [hfamily,Bool.true_and,Bool.or_eq_true]
  right
  simp only [eastWestLocalityAdmits,bne_iff_ne,ne_eq,public_iff]
  rintro ⟨-, a', ha', -, hpublic⟩
  obtain rfl : a = a' := Option.some.inj (ha.symm.trans ha')
  rw [isInternalAddress_unmap hclass] at hpublic
  exact Bool.false_ne_true hpublic.symm

/-- What is declared only extends the lateral plane, the address classes that do not leave an estate are on it whatever
is declared, and a declared domain covers a host at a label boundary, however the two are written. -/
theorem lateral_plane_extends (req : DecisionRequest) (declared : InternalNetworks) :
    (∀ more : InternalNetworks, declared.cidrs ⊆ more.cidrs → declared.domains ⊆ more.domains →
      isEastWestFlow req declared = true → isEastWestFlow req more = true) ∧
    (isEastWestProtocol req.serviceFamily = true → ∀ a, classifiedAddress req = some a → NonRoutable a →
      isEastWestFlow req declared = true) ∧
    (∀ host, declared.matchesDomain host = true ↔ hostName host ≠ "" ∧
      ∃ d ∈ declared.domains, domainName d ≠ "" ∧ labels (domainName d) <:+ labels (hostName host)) ∧
    ∀ domain host, BareName domain → BareName host → ∀ d h, DomainSpelling domain d → HostSpelling host h →
      (({ declared with domains := [d] } : InternalNetworks).matchesDomain h = true ↔
        host ≠ "" ∧ domain ≠ "" ∧ labels domain <:+ labels host) := by
  refine ⟨fun _ => isEastWestFlow_mono,fun hfamily _ => isEastWestFlow_of_nonRoutable hfamily,
    fun _ => InternalNetworks.matchesDomain_iff,?_⟩
  intro domain host hdomain hhost d h hd hh
  rw [InternalNetworks.matchesDomain_iff]
  simp [domainName_spelling hdomain hd,hostName_spelling hhost hh]

/-- A declared domain and a mapped private address. -/
theorem mapped_private_is_lateral :
    isEastWestFlow { serviceFamily := "ssh", destination := "::ffff:10.0.0.5" } {} = true ∧
      isEastWestFlow { serviceFamily := "ssh", destination := "::ffff:10.0.0.5" } { domains := ["*.Corp.example."] } =
        true := by
  have hflow : isEastWestFlow { serviceFamily := "ssh", destination := "::ffff:10.0.0.5" } {} = true :=
    (lateral_plane_extends _ {}).2.1 (by decide +kernel) (.v6 0xffff0a000005#128 "") (by decide +kernel)
      (.inl (by decide +kernel))
  exact ⟨hflow,(lateral_plane_extends _ {}).1 _ (nil_subset _) (nil_subset _) hflow⟩

end DsseCore.Decision
