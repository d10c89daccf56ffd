import DsseCore.Go.CaseMapping
import DsseCore.Go.Value
import DsseCore.Lib.Run

/-!
# The trust distributions an Edge serves

An Edge adopts the signed trust bundles of all tenants at once and compares each with the one it holds.  A tenant that a
map leaves out is forgotten, and its serial with it.
-/

namespace DsseCore.TenantTrust

open Go Lib

/-- The body of a bundle; `anchors` are the fingerprints of its CA certificates, unless one is not usable. -/
structure TrustBundlePayload where
  schemaVersion : String := "dsse.trust-bundle.v1"
  tenantID : String
  serial : Int
  anchors : Option (List String)
  renewalRecoverySNI : String := ""
  rest : String := ""
  deriving DecidableEq

structure TenantTrustDistribution (E : Type) where
  envelope : E
  activateIncoming : String := ""
  recoveryNameSince : Int := 0

variable {E : Type} (verifyAny : E → Option TrustBundlePayload)

/-- `verifyAny` gives the body of an envelope that one of the keys signed. -/
def verifyTrustBundleWithKeys (env : E) (lastAcceptedSerial : Int) : Option TrustBundlePayload :=
  (verifyAny env).filter fun p => p.schemaVersion == "dsse.trust-bundle.v1" && p.tenantID != "" &&
    p.tenantID == trimSpace p.tenantID && decide (0 < p.serial) && decide (lastAcceptedSerial < p.serial) && p.anchors.isSome

def sameRecoveryName (a b : String) : Bool := equalFold (trimSpace a) (trimSpace b)

abbrev Items (E : Type) := Map (TenantTrustDistribution E)

variable {verifyAny}

def validateRecoveryIntroduction (item : TenantTrustDistribution E) (p : TrustBundlePayload) : Bool :=
  !(decide (item.recoveryNameSince < 0) || decide (p.serial < item.recoveryNameSince) ||
    item.recoveryNameSince != 0 && trimSpace p.renewalRecoverySNI == "")

def follows (item previous : TenantTrustDistribution E) (p held : TrustBundlePayload) : Bool :=
  let same := sameRecoveryName p.renewalRecoverySNI held.renewalRecoverySNI
  let since := item.recoveryNameSince
  !(same && since != previous.recoveryNameSince && decide (since ≤ held.serial)) &&
    !(!same && since != 0 && decide (since ≤ held.serial)) &&
    !decide (p.serial < held.serial) && !(p.serial == held.serial && p != held)

variable (verifyAny)

def acceptsItem (items : Items E) (tenant : String) (item : TenantTrustDistribution E) : Bool :=
  match verifyTrustBundleWithKeys verifyAny item.envelope 0 with
  | none => false
  | some p =>
    p.tenantID == tenant && trimSpace tenant != "" && validateRecoveryIntroduction item p &&
      (item.activateIncoming == "" || (p.anchors.getD []).contains item.activateIncoming) &&
      match items[tenant]? with
      | none => true
      | some previous => (verifyTrustBundleWithKeys verifyAny previous.envelope 0).any (follows item previous p)

def validateLocked (held : Items E) (items : Option (Items E)) : Bool :=
  items.any fun items => items.toList.all fun e => acceptsItem verifyAny held e.1 e.2

/-- `Adopt`, with the tenants whose pending certificate is promoted; `pending` is `PendingFingerprintFor`. -/
def adopt (pending : String → String) (items : Option (Items E)) (held : Items E) : Bool × Items E × List String :=
  if validateLocked verifyAny held items then
    (true,items.getD ∅,((items.getD ∅).toList.filter fun e =>
      e.2.activateIncoming != "" && e.2.activateIncoming == pending e.1).map Prod.fst)
  else (false,held,[])

def served (items : Items E) (tenant : String) : Option TrustBundlePayload :=
  items[tenant]?.bind fun item => verifyTrustBundleWithKeys verifyAny item.envelope 0

/-- An `Adopt` of a map, with the certificates that are pending. -/
abbrev Call (E : Type) := Option (Items E) × (String → String)

def Step (held : Items E) (call : Call E) (held' : Items E) : Prop := held' = (adopt verifyAny call.2 call.1 held).2.1

/-- The map leaves out no tenant whose distribution is held. -/
def CoveringStep (held : Items E) (call : Call E) (held' : Items E) : Prop :=
  Step verifyAny held call held' ∧ ∀ items, call.1 = some items → ∀ tenant ∈ held, tenant ∈ items

variable {verifyAny} {held held' items : Items E} {tenant : String} {p q : TrustBundlePayload}
  {item : TenantTrustDistribution E}

theorem validateLocked_some (h : validateLocked verifyAny held (some items) = true)
    (hitem : items[tenant]? = some item) : acceptsItem verifyAny held tenant item = true :=
  List.all_eq_true.mp h (tenant,item) (Std.ExtTreeMap.mem_toList_iff_getElem?_eq_some.mpr hitem)

theorem acceptsItem_follows (h : acceptsItem verifyAny held tenant item = true) :
    ∃ q, verifyTrustBundleWithKeys verifyAny item.envelope 0 = some q ∧
      (item.activateIncoming = "" ∨ item.activateIncoming ∈ q.anchors.getD []) ∧
      ∀ p, served verifyAny held tenant = some p → p.serial ≤ q.serial ∧ (p.serial = q.serial → p = q) := by
  unfold acceptsItem at h
  split at h
  · cases h
  next q hq =>
  simp only [Bool.and_eq_true,Bool.or_eq_true,beq_iff_eq,List.contains_iff_mem] at h
  refine ⟨q,hq,h.1.2,fun p hp => ?_⟩
  obtain ⟨previous, hprevious, hp⟩ := Option.bind_eq_some_iff.mp hp
  have hfollows := h.2
  simp only [hprevious,hp,Option.any_some,follows,Bool.and_eq_true,Bool.not_eq_true',decide_eq_false_iff_not,not_lt,Bool.and_eq_false_imp,
    beq_iff_eq,bne_eq_false_iff_eq] at hfollows
  exact ⟨hfollows.1.2,fun heq => (hfollows.2 heq.symm).symm⟩

/-- A distribution is followed by one of a greater serial, or by itself. -/
theorem CoveringStep.serves {call : Call E} (hstep : CoveringStep verifyAny held call held')
    (hp : served verifyAny held tenant = some p) :
    ∃ q, served verifyAny held' tenant = some q ∧ p.serial ≤ q.serial ∧ (p.serial = q.serial → p = q) := by
  obtain ⟨rfl, hcovers⟩ := hstep
  obtain ⟨items | items, pending⟩ := call
  · exact ⟨p,hp,le_rfl,fun _ => rfl⟩
  unfold adopt
  split
  · next hvalid =>
    obtain ⟨previous, hprevious, -⟩ := Option.bind_eq_some_iff.mp hp
    have hmem := hcovers items rfl tenant (Std.ExtTreeMap.mem_iff_isSome_getElem?.mpr (by rw [hprevious]; rfl))
    obtain ⟨item, hitem⟩ := Option.isSome_iff_exists.mp (Std.ExtTreeMap.mem_iff_isSome_getElem?.mp hmem)
    obtain ⟨q, hq, -, hfollows⟩ := acceptsItem_follows (validateLocked_some hvalid hitem)
    exact ⟨q,Option.bind_eq_some_iff.mpr ⟨item,hitem,hq⟩,hfollows p hp⟩
  · exact ⟨p,hp,le_rfl,fun _ => rfl⟩

/-- Over calls whose maps leave out no tenant that is held, what is served for a tenant only moves on to greater serials;
a call that fails changes nothing, and only a fingerprint of the adopted envelope is promoted. -/
theorem served_never_older {calls : List (Call E)} (hrun : Run (CoveringStep verifyAny) held calls held') :
    (∀ tenant p, served verifyAny held tenant = some p →
      ∃ q, served verifyAny held' tenant = some q ∧ p.serial ≤ q.serial ∧ (p.serial = q.serial → p = q)) ∧
    ∀ call : Call E, let r := adopt verifyAny call.2 call.1 held'
      (r.1 = false → r.2.1 = held') ∧ ∀ tenant ∈ r.2.2, ∃ q, served verifyAny r.2.1 tenant = some q ∧
        call.2 tenant ∈ q.anchors.getD [] := by
  refine ⟨fun tenant p hp => ?_,fun call => ?_⟩
  · refine hrun.inv (P := fun held => ∃ q, served verifyAny held tenant = some q ∧ p.serial ≤ q.serial ∧
      (p.serial = q.serial → p = q)) ⟨p,hp,le_rfl,fun _ => rfl⟩ ?_
    rintro held call held' ⟨q, hq, hle, heq⟩ hstep
    obtain ⟨q', hq', hle', heq'⟩ := hstep.serves hq
    refine ⟨q',hq',hle.trans hle',fun h => ?_⟩
    exact (heq (by omega)).trans (heq' (by omega))
  · obtain ⟨items | items, pending⟩ := call
    · exact ⟨fun _ => rfl,nofun⟩
    unfold adopt
    split
    · next hvalid =>
      refine ⟨nofun,fun tenant hmem => ?_⟩
      obtain ⟨⟨_, item⟩, he, rfl⟩ := List.mem_map.mp hmem
      obtain ⟨hitem, hpromotes⟩ := List.mem_filter.mp he
      have hitem := Std.ExtTreeMap.mem_toList_iff_getElem?_eq_some.mp hitem
      obtain ⟨q, hq, hactive, -⟩ := acceptsItem_follows (validateLocked_some hvalid hitem)
      simp only [Bool.and_eq_true,bne_iff_ne,beq_iff_eq] at hpromotes
      have hin := hactive.resolve_left hpromotes.1
      rw [hpromotes.2] at hin
      exact ⟨q,Option.bind_eq_some_iff.mpr ⟨item,hitem,hq⟩,hin⟩
    · exact ⟨fun _ => rfl,nofun⟩

def bundle (serial : Int) : Items TrustBundlePayload :=
  Map.ofEntries [("acme",{ envelope := { tenantID := "acme", serial, anchors := some ["aa"] } })]

theorem bundle_followed : ∃ q, served some (adopt some (fun _ => "") (some (bundle 7)) (bundle 5)).2.1 "acme" = some q ∧
    5 ≤ q.serial := by
  have hstep : CoveringStep some (bundle 5) (some (bundle 7),fun _ => "") _ :=
    ⟨rfl,by rintro _ ⟨⟩ tenant h; exact h⟩
  obtain ⟨q, hq, hle, -⟩ := (served_never_older (.snoc (.nil _) hstep)).1 "acme" _ rfl
  exact ⟨q,hq,hle⟩

/-- After a map without the tenant the Edge adopts an older bundle. -/
theorem older_bundle_served : ∃ held, Run (Step some) (∅ : Items TrustBundlePayload)
      [(some (bundle 5),fun _ => ""),(some ∅,fun _ => ""),(some (bundle 3),fun _ => "")] held ∧
    (served some (adopt some (fun _ => "") (some (bundle 5)) ∅).2.1 "acme").map (·.serial) = some 5 ∧
    (served some held "acme").map (·.serial) = some 3 := by
  refine ⟨_,.snoc (.snoc (.snoc (.nil _) rfl) rfl) rfl,?_,?_⟩ <;> decide +kernel

end DsseCore.TenantTrust
