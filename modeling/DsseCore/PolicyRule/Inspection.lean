import DsseCore.PolicyRule.Rule

/-!
# Which hosts are inspected and which are passed by

The TLS engine knows the device of a connection, but not its user.  Each inspection axis of the egress rules becomes a
set of hosts for every source and a set of hosts for each device.
-/

namespace DsseCore.PolicyRule

open Go Model List

/-- The asset catalog as the inspection projection sees it.  The last two lookups are optional. -/
structure InspectionResolver where
  endpointAddresses : String → List String → List String
  sourceDeviceTokens : Option (String → List String → List String)
  serviceIncludesTransport : Option (String → String → String → Int → Bool)

def InspectionResolver.devices (resolver : InspectionResolver) (tenant : String) (ids : List String) : List String :=
  match resolver.sourceDeviceTokens with
  | none => []
  | some tokens => tokens tenant ids

structure InspectionHostSelection where
  anySource : List String
  byDevice : Map (List String)

section Project

variable (tenant : String) (resolver : InspectionResolver) (inspection : String)

/-- No service is every service.  A named service has to be resolved. -/
def inspectionServiceApplies (serviceID : String) : Bool :=
  serviceID == "" || match resolver.serviceIncludesTransport with
    | none => false
    | some includes => includes tenant serviceID "tcp" 443

def reservedID (id : String) : Bool := hasPrefix id "idgroup:" || hasPrefix id "iduser:" || hasPrefix id "nhi:"

def trimmedName (s : String) : Bool := s != "" && s == trimSpace s

def inspectionSourceWarning (r : Rule) : String :=
  if r.plane ≠ "egress" ∨ isAnySubject r.source = true ∨ r.action.access = "deny" then ""
  else if r.source.any fun id => reservedID (trimSpace id) then "identity_context_unavailable"
  else if (resolver.devices tenant r.source).any trimmedName then ""
  else "no_resolved_device"

def inspectionApplies (r : Rule) : Bool :=
  (r.tenantID == "" || r.tenantID == tenant) && r.plane == "egress" && r.status == "active" &&
    r.action.inspection == inspection && r.action.access != "deny" && inspectionServiceApplies tenant resolver r.serviceID

def inspectionHosts (r : Rule) : List String :=
  if isAnySubject r.destination then [subjectAny] else resolver.endpointAddresses tenant r.destination

def forAnySource (r : Rule) : Bool :=
  isAnySubject r.source || inspection == "inspect" && inspectionSourceWarning tenant resolver r != ""

def deviceSelectors (source : List String) : List String := source.filter fun id => trimmedName id && ! reservedID id

def addHosts (hosts : List String) (set : Map Unit) : Map Unit := hosts.foldl (fun set host => set.insert host ()) set

def addDevice (hosts : List String) (devices : Map (Map Unit)) (device : String) : Map (Map Unit) :=
  if trimmedName device then devices.insert device (addHosts hosts (devices[device]?.getD ∅)) else devices

def selectRule (sel : Map Unit × Map (Map Unit)) (r : Rule) : Map Unit × Map (Map Unit) :=
  if inspectionApplies tenant resolver inspection r = false then sel
  else
    let hosts := inspectionHosts tenant resolver r
    if forAnySource tenant resolver inspection r then (addHosts hosts sel.1,sel.2)
    else
      let ids := deviceSelectors r.source
      if ids = [] then sel else (sel.1,(resolver.devices tenant ids).foldl (addDevice hosts) sel.2)

def egressInspectionHosts (rules : List Rule) : InspectionHostSelection :=
  if inspection ≠ "inspect" ∧ inspection ≠ "bypass" then ⟨[],∅⟩
  else
    let (all,devices) := rules.foldl (selectRule tenant resolver inspection) (∅,∅)
    ⟨all.keys,(devices.filter fun _ set => ! set.isEmpty).map fun _ set => set.keys⟩

end Project

variable {tenant : String} {resolver : InspectionResolver} {inspection host : String} {device : Option String}
  {r : Rule}

def Selected (sel : Map Unit × Map (Map Unit)) (host : String) : Option String → Prop
  | none => host ∈ sel.1
  | some device => host ∈ sel.2[device]?.getD ∅

def Selects (tenant : String) (resolver : InspectionResolver) (inspection : String) (r : Rule) (host : String) :
    Option String → Prop
  | none => inspectionApplies tenant resolver inspection r = true ∧ forAnySource tenant resolver inspection r = true ∧
      host ∈ inspectionHosts tenant resolver r
  | some device => inspectionApplies tenant resolver inspection r = true ∧
      forAnySource tenant resolver inspection r = false ∧ deviceSelectors r.source ≠ [] ∧
      device ∈ resolver.devices tenant (deviceSelectors r.source) ∧ trimmedName device = true ∧
      host ∈ inspectionHosts tenant resolver r

theorem mem_addHosts {hosts : List String} {set : Map Unit} : host ∈ addHosts hosts set ↔ host ∈ set ∨ host ∈ hosts := by
  induction hosts generalizing set with
  | nil => simp [addHosts]
  | cons h hosts ih =>
    change host ∈ addHosts hosts (set.insert h ()) ↔ _
    rw [ih,Std.ExtTreeMap.mem_insert,compare_eq_iff_eq,mem_cons]
    tauto

theorem mem_addDevices {hosts tokens : List String} {devices : Map (Map Unit)} {d : String} :
    host ∈ (tokens.foldl (addDevice hosts) devices)[d]?.getD ∅ ↔
      host ∈ devices[d]?.getD ∅ ∨ d ∈ tokens ∧ trimmedName d = true ∧ host ∈ hosts := by
  induction tokens generalizing devices with
  | nil => simp
  | cons t tokens ih =>
    rw [foldl_cons,ih,mem_cons]
    unfold addDevice
    by_cases ht : trimmedName t = true
    · rw [if_pos ht,Map.getElem?_insert_eq]
      by_cases heq : t = d
      · subst heq
        simp only [if_true,Option.getD_some,mem_addHosts]
        tauto
      · simp only [heq,if_false,Ne.symm heq,false_or]
    · rw [if_neg ht]
      have hne : d = t → trimmedName d ≠ true := fun heq => heq ▸ ht
      tauto

theorem selected_selectRule {sel : Map Unit × Map (Map Unit)} :
    Selected (selectRule tenant resolver inspection sel r) host device ↔
      Selected sel host device ∨ Selects tenant resolver inspection r host device := by
  unfold selectRule
  dsimp only
  split
  next hno => cases device <;> simp [Selects,hno]
  next happlies =>
    split
    next hany => cases device <;> simp [Selected,Selects,happlies,hany,mem_addHosts]
    next hany =>
      split
      next hnil => cases device <;> simp [Selects,hany,hnil]
      next hne => cases device <;> simp [Selected,Selects,happlies,hany,hne,mem_addDevices]

theorem selected_rules {rules : List Rule} :
    Selected (rules.foldl (selectRule tenant resolver inspection) (∅,∅)) host device ↔
      ∃ r ∈ rules, Selects tenant resolver inspection r host device := by
  have hfold : ∀ sel, Selected (rules.foldl (selectRule tenant resolver inspection) sel) host device ↔
      Selected sel host device ∨ ∃ r ∈ rules, Selects tenant resolver inspection r host device := by
    induction rules with
    | nil => simp
    | cons r rules ih =>
      intro sel
      simp only [foldl_cons,ih,selected_selectRule,exists_mem_cons_iff,or_assoc]
  have hempty : ¬ Selected (∅,∅) host device := by cases device <;> simp [Selected]
  simp [hfold,hempty]

variable {rules : List Rule}

theorem mem_anySource (h : inspection = "inspect" ∨ inspection = "bypass") :
    host ∈ (egressInspectionHosts tenant resolver inspection rules).anySource ↔
      ∃ r ∈ rules, Selects tenant resolver inspection r host none := by
  rw [← selected_rules]
  unfold egressInspectionHosts
  rw [if_neg (by tauto)]
  exact Std.ExtTreeMap.mem_keys

theorem mem_byDevice (h : inspection = "inspect" ∨ inspection = "bypass") {d : String} :
    host ∈ (egressInspectionHosts tenant resolver inspection rules).byDevice[d]?.getD [] ↔
      ∃ r ∈ rules, Selects tenant resolver inspection r host (some d) := by
  rw [← selected_rules]
  unfold egressInspectionHosts
  rw [if_neg (by tauto)]
  dsimp only [Selected]
  generalize rules.foldl (selectRule tenant resolver inspection) (∅,∅) = sel
  rw [Std.ExtTreeMap.getElem?_map,Std.ExtTreeMap.getElem?_filter']
  cases hd : sel.2[d]? with
  | none => simp
  | some set =>
    by_cases hset : set.isEmpty = true
    · simp_all [Option.filter]
    · simp_all [Option.filter]

/-- The source names an identity, or no device that can be told before the TLS handshake. -/
def Unrepresentable (tenant : String) (resolver : InspectionResolver) (r : Rule) : Prop :=
  (∃ id ∈ r.source, reservedID (trimSpace id) = true) ∨ ∀ d ∈ resolver.devices tenant r.source, trimmedName d = false

def CoversDevice (tenant : String) (resolver : InspectionResolver) (r : Rule) (d : String) : Prop :=
  isAnySubject r.source = true ∨ Unrepresentable tenant resolver r ∨ d ∈ resolver.devices tenant r.source

/-- No device of the source is lost between the catalog and the selection. -/
def Represented (tenant : String) (resolver : InspectionResolver) (r : Rule) : Prop :=
  ∀ d ∈ resolver.devices tenant r.source,
    trimmedName d = true ∧ deviceSelectors r.source ≠ [] ∧ d ∈ resolver.devices tenant (deviceSelectors r.source)

/-- Every host and device that an inspect rule of the list covers is selected. -/
def InspectsAll (tenant : String) (resolver : InspectionResolver) (rules : List Rule) : Prop :=
  ∀ r ∈ rules, inspectionApplies tenant resolver "inspect" r = true → ∀ host ∈ inspectionHosts tenant resolver r,
    ∀ d, CoversDevice tenant resolver r d →
      host ∈ (egressInspectionHosts tenant resolver "inspect" rules).anySource ∨
      host ∈ (egressInspectionHosts tenant resolver "inspect" rules).byDevice[d]?.getD []

theorem forAnySource_inspect (h : inspectionApplies tenant resolver "inspect" r = true) :
    forAnySource tenant resolver "inspect" r = true ↔ isAnySubject r.source = true ∨ Unrepresentable tenant resolver r := by
  simp only [inspectionApplies,Bool.and_eq_true,beq_iff_eq,bne_iff_ne] at h
  obtain ⟨⟨⟨⟨⟨-, hplane⟩, -⟩, -⟩, haccess⟩, -⟩ := h
  unfold forAnySource inspectionSourceWarning Unrepresentable
  by_cases hany : isAnySubject r.source = true
  · simp [hany]
  by_cases hreserved : (r.source.any fun id => reservedID (trimSpace id)) = true
  · have hex : ∃ id ∈ r.source, reservedID (trimSpace id) = true := any_eq_true.mp hreserved
    simp [hplane,haccess,hex]
  have hnex : ¬ ∃ id ∈ r.source, reservedID (trimSpace id) = true := fun hex => hreserved (any_eq_true.mpr hex)
  by_cases hdevice : (resolver.devices tenant r.source).any trimmedName = true
  · simp only [hany,hplane,haccess,hreserved,hnex]
    simp
  have hall : ∀ d ∈ resolver.devices tenant r.source, trimmedName d = false := by simpa using hdevice
  simp only [hany,hplane,haccess,hreserved,hdevice]
  simpa using Or.inr hall

theorem Represented.inspects {rules : List Rule} {host d : String} (hr : r ∈ rules)
    (happlies : inspectionApplies tenant resolver "inspect" r = true)
    (hcond : isAnySubject r.source = true ∨ Unrepresentable tenant resolver r ∨ Represented tenant resolver r)
    (hhost : host ∈ inspectionHosts tenant resolver r) (hd : CoversDevice tenant resolver r d) :
    host ∈ (egressInspectionHosts tenant resolver "inspect" rules).anySource ∨
      host ∈ (egressInspectionHosts tenant resolver "inspect" rules).byDevice[d]?.getD [] := by
  rw [mem_anySource (.inl rfl),mem_byDevice (.inl rfl)]
  by_cases hany : forAnySource tenant resolver "inspect" r = true
  · exact .inl ⟨r,hr,happlies,hany,hhost⟩
  have hnot := mt (forAnySource_inspect happlies).mpr hany
  rw [not_or] at hnot
  have hrep : Represented tenant resolver r := (hcond.resolve_left hnot.1).resolve_left hnot.2
  have hmem : d ∈ resolver.devices tenant r.source := (hd.resolve_left hnot.1).resolve_left hnot.2
  obtain ⟨htrim, hne, hdevice⟩ := hrep d hmem
  exact .inr ⟨r,hr,happlies,Bool.not_eq_true _ ▸ hany,hne,hdevice,htrim,hhost⟩

/-- Bypass selects no host and no device beyond its rules.  Inspect selects every host and device of a list of rules
of which each applicable one is for every source, is widened to every source, or loses no device; for one rule with a
host this is also necessary. -/
theorem inspection_hosts_selected (tenant : String) (resolver : InspectionResolver) :
    (∀ rules, ∀ host ∈ (egressInspectionHosts tenant resolver "bypass" rules).anySource,
      ∃ r ∈ rules, inspectionApplies tenant resolver "bypass" r = true ∧ isAnySubject r.source = true ∧
        host ∈ inspectionHosts tenant resolver r) ∧
    (∀ rules d, ∀ host ∈ (egressInspectionHosts tenant resolver "bypass" rules).byDevice[d]?.getD [],
      ∃ r ∈ rules, inspectionApplies tenant resolver "bypass" r = true ∧
        (∃ ids, ids ≠ [] ∧ ids ⊆ r.source ∧ (∀ id ∈ ids, reservedID id = false) ∧ d ∈ resolver.devices tenant ids) ∧
        host ∈ inspectionHosts tenant resolver r) ∧
    (∀ rules, (∀ r ∈ rules, inspectionApplies tenant resolver "inspect" r = true →
        isAnySubject r.source = true ∨ Unrepresentable tenant resolver r ∨ Represented tenant resolver r) →
      InspectsAll tenant resolver rules) ∧
    ∀ r, inspectionApplies tenant resolver "inspect" r = true → inspectionHosts tenant resolver r ≠ [] →
      (InspectsAll tenant resolver [r] ↔
        isAnySubject r.source = true ∨ Unrepresentable tenant resolver r ∨ Represented tenant resolver r) := by
  refine ⟨?_,?_,?_,?_⟩
  · intro rules host hhost
    obtain ⟨r, hr, happlies, hany, hhost⟩ := (mem_anySource (.inr rfl)).mp hhost
    exact ⟨r,hr,happlies,by simpa [forAnySource] using hany,hhost⟩
  · intro rules d host hhost
    obtain ⟨r, hr, happlies, -, hne, hd, -, hhost⟩ := (mem_byDevice (.inr rfl)).mp hhost
    refine ⟨r,hr,happlies,⟨_,hne,filter_subset_self _,?_,hd⟩,hhost⟩
    intro id hid
    have hsel := (mem_filter.mp hid).2
    rw [Bool.and_eq_true] at hsel
    simpa using hsel.2
  · intro rules hcond r hr happlies host hhost d hd
    exact Represented.inspects hr happlies (hcond r hr happlies) hhost hd
  intro r happlies hhosts
  obtain ⟨host, hhost⟩ := exists_mem_of_ne_nil _ hhosts
  constructor
  · intro hall
    by_cases hany : isAnySubject r.source = true ∨ Unrepresentable tenant resolver r
    · exact or_assoc.mp (.inl hany)
    refine .inr (.inr fun d hd => ?_)
    have hsel := hall r mem_cons_self happlies host hhost d (.inr (.inr hd))
    rw [mem_anySource (.inl rfl),mem_byDevice (.inl rfl)] at hsel
    rcases hsel with ⟨r', hr', -, hany', -⟩ | ⟨r', hr', -, -, hne, hdevice, htrim, -⟩
    · cases mem_singleton.mp hr'
      exact absurd ((forAnySource_inspect happlies).mp hany') hany
    · cases mem_singleton.mp hr'
      exact ⟨htrim,hne,hdevice⟩
  · intro hcond r' hr' happlies' host hhost d hd
    cases mem_singleton.mp hr'
    exact Represented.inspects hr' happlies' hcond hhost hd

def deviceCatalog : InspectionResolver where
  endpointAddresses _ ids := ids
  sourceDeviceTokens := some fun _ ids => ids.map trimSpace
  serviceIncludesTransport := none

def inspectRule (source : List String) : Rule where
  id := "r1"
  tenantID := "t1"
  plane := "egress"
  source := source
  destination := ["bank.example"]
  action := { access := "allow", inspection := "inspect" }
  status := "active"

theorem inspects_both_devices :
    "bank.example" ∈ (egressInspectionHosts "t1" deviceCatalog "inspect" [inspectRule ["laptop","desk"]]).anySource ∨
    "bank.example" ∈ (egressInspectionHosts "t1" deviceCatalog "inspect" [inspectRule ["laptop","desk"]]).byDevice["desk"]?.getD [] := by
  have hrep : Represented "t1" deviceCatalog (inspectRule ["laptop","desk"]) := by
    unfold Represented
    decide +kernel
  exact ((inspection_hosts_selected "t1" deviceCatalog).2.2.2 _ (by decide +kernel) (by decide +kernel)).mpr
    (.inr (.inr hrep)) _ mem_cons_self (by decide +kernel) _ (by decide +kernel) "desk" (.inr (.inr (by decide +kernel)))

/-- A selector that is not trimmed is passed over although the catalog resolves it, and the rule is not widened. -/
theorem inspects_one_device : ¬ InspectsAll "t1" deviceCatalog [inspectRule ["laptop"," desk"]] := by
  intro h
  have hsel := h _ mem_cons_self (by decide +kernel) "bank.example" (by decide +kernel) "desk"
    (.inr (.inr (by decide +kernel)))
  revert hsel
  decide +kernel

end DsseCore.PolicyRule
