import DsseCore.Decision.LateralAccess
import DsseCore.Lib.Run
import DsseCore.PolicyStore.Runtime

/-!
# The use of lateral grants

A grant that released a flow is touched, so that a grant in use does not idle out.  The touch has a matcher of its own,
which asks for the device the request claims to be and does not look at the time.
-/

namespace DsseCore.PolicyStore

open Go Model Decision Lib EastWestGrant Time

def touchSelects (g : EastWestGrant) (req : DecisionRequest) : Bool :=
  decide (0 < g.idleTTLSeconds) &&
    (g.protocol == "" || equalFold g.protocol (trimSpace req.serviceFamily)) &&
    (g.subjectUserID == "" || g.subjectUserID == req.subjectUserID || g.subjectUserID == req.userID) &&
    (g.deviceID == "" || g.deviceID == req.deviceID) &&
    (g.destination == "" || g.destination == req.destination || g.destination == req.applicationID)

def touchGrant (req : DecisionRequest) (now : Time) (g : EastWestGrant) : EastWestGrant :=
  if touchSelects g req then { g with lastUsedAt := now } else g

def Store.grantsOf (s : Store) (tenantID : String) : List EastWestGrant :=
  s.eastWestGrants[trimSpace tenantID]?.getD []

def Store.touchEastWestGrant (s : Store) (tenantID : String) (req : DecisionRequest) (now : Time) : Store :=
  match s.eastWestGrants[trimSpace tenantID]? with
  | none => s
  | some grants =>
    { s with eastWestGrants := s.eastWestGrants.insert (trimSpace tenantID) (grants.map (touchGrant req now)) }

variable {s : Store} {tenant : String} {req : DecisionRequest} {now : Time} {g : EastWestGrant}

theorem touchSelects_iff :
    touchSelects g req = true ↔ 0 < g.idleTTLSeconds ∧ g.Covers req ∧ g.IsFor req.deviceID := by
  simp only [touchSelects,Bool.and_eq_true,Bool.or_eq_true,beq_iff_eq,decide_eq_true_eq]
  constructor
  · rintro ⟨⟨⟨⟨hidle, hprotocol⟩, huser⟩, hdevice⟩, hdestination⟩
    exact ⟨hidle,⟨hprotocol,or_assoc.mp huser,or_assoc.mp hdestination⟩,hdevice⟩
  · rintro ⟨hidle, ⟨hprotocol, huser, hdestination⟩, hdevice⟩
    exact ⟨⟨⟨⟨hidle,hprotocol⟩,or_assoc.mpr huser⟩,hdevice⟩,or_assoc.mpr hdestination⟩

theorem grantsOf_touch (other : String) :
    (s.touchEastWestGrant tenant req now).grantsOf other =
      if trimSpace other = trimSpace tenant then (s.grantsOf other).map (touchGrant req now) else s.grantsOf other := by
  unfold Store.touchEastWestGrant Store.grantsOf
  cases hs : s.eastWestGrants[trimSpace tenant]? with
  | none =>
    by_cases h : trimSpace other = trimSpace tenant
    · simp [h,hs]
    · simp [h]
  | some grants =>
    by_cases h : trimSpace other = trimSpace tenant
    · simp [h,hs]
    · have hne : trimSpace tenant ≠ trimSpace other := fun he => h he.symm
      simp [h,hne,Std.ExtTreeMap.getElem?_insert]

theorem touchGrant_eq_iff {b : Bool} :
    touchGrant req now g = (if b then { g with lastUsedAt := now } else g) ↔
      g.lastUsedAt = now ∨ touchSelects g req = b := by
  have hset : { g with lastUsedAt := now } = g ↔ g.lastUsedAt = now := by
    constructor
    · intro h
      exact (congrArg lastUsedAt h).symm
    · rintro rfl
      rfl
  unfold touchGrant
  cases hsel : touchSelects g req <;> cases b
  · simp
  · simpa [eq_comm] using hset
  · simpa using hset
  · simp

section Claim

variable (e : Evaluator) (s : Store) (tenant : String) (now : Time) (req : DecisionRequest) (claim : String)

/-- The request that claims to be `claim` is taken to the east-west plane exactly when `req` is, and is then answered
with the same decision, reason codes and actions. -/
def SameLateralDecision (e : Evaluator) (now : Time) (req : DecisionRequest) (claim : String) : Prop :=
  (e.plane (e.enriched { req with deviceID := claim }) = .eastWest ↔ e.plane (e.enriched req) = .eastWest) ∧
    (e.plane (e.enriched req) = .eastWest →
      (e.evaluate now { req with deviceID := claim }).decision = (e.evaluate now req).decision ∧
      (e.evaluate now { req with deviceID := claim }).reasonCodes = (e.evaluate now req).reasonCodes ∧
      (e.evaluate now { req with deviceID := claim }).actions = (e.evaluate now req).actions)

theorem sameLateralDecision (htransport : trimSpace req.transportDeviceIdentity ≠ "") :
    SameLateralDecision e now req claim := by
  refine ⟨by rw [plane_claim],fun hplane => ?_⟩
  rw [evaluate_claim htransport e now claim hplane]
  exact ⟨rfl,rfl,rfl⟩

theorem touch_eq_iff (req' : DecisionRequest) :
    s.touchEastWestGrant tenant req' now = s.touchEastWestGrant tenant req now ↔
      ∀ g ∈ s.grantsOf tenant, g.lastUsedAt = now ∨ touchSelects g req' = touchSelects g req := by
  have hmap : s.touchEastWestGrant tenant req' now = s.touchEastWestGrant tenant req now ↔
      (s.grantsOf tenant).map (touchGrant req' now) = (s.grantsOf tenant).map (touchGrant req now) := by
    constructor
    · intro h
      have hgrants := congrArg (Store.grantsOf · tenant) h
      simpa [grantsOf_touch] using hgrants
    intro h
    unfold Store.touchEastWestGrant
    unfold Store.grantsOf at h
    cases hs : s.eastWestGrants[trimSpace tenant]? with
    | none => rfl
    | some grants =>
      simp only [hs,Option.getD_some] at h
      simp only [h]
  rw [hmap,List.map_inj_left]
  exact forall₂_congr fun g _ => touchGrant_eq_iff

/-- The claimed device never reaches a lateral decision when the transport names the device.  It stays out of the touch
exactly when no grant with an idle limit that the request is about, and that is not just touched, is for one of the two
claims only. -/
theorem claimed_device_ignored_iff (htransport : trimSpace req.transportDeviceIdentity ≠ "") :
    (SameLateralDecision e now req claim ∧
        s.touchEastWestGrant tenant { req with deviceID := claim } now = s.touchEastWestGrant tenant req now) ↔
      ∀ g ∈ s.grantsOf tenant, 0 < g.idleTTLSeconds → g.Covers req → g.deviceID ≠ "" → g.lastUsedAt ≠ now →
        (g.deviceID = claim ↔ g.deviceID = req.deviceID) := by
  rw [touch_eq_iff,and_iff_right (sameLateralDecision e now req claim htransport)]
  refine forall₂_congr fun g _ => ?_
  have hclaim : touchSelects g { req with deviceID := claim } = true ↔
      0 < g.idleTTLSeconds ∧ g.Covers req ∧ g.IsFor claim := by
    rw [touchSelects_iff]
    exact and_congr_right fun _ => and_congr_left fun _ => ⟨fun h => ⟨h.1,h.2,h.3⟩,fun h => ⟨h.1,h.2,h.3⟩⟩
  rw [Bool.eq_iff_iff,hclaim,touchSelects_iff]
  constructor
  · intro h hidle hcovers hnamed huntouched
    have hsame := h.resolve_left huntouched
    simpa [hidle,hcovers,IsFor,hnamed] using hsame
  intro h
  by_cases hidle : 0 < g.idleTTLSeconds ∧ g.Covers req ∧ g.deviceID ≠ "" ∧ g.lastUsedAt ≠ now
  · obtain ⟨hidle, hcovers, hnamed, huntouched⟩ := hidle
    right
    simpa [hidle,hcovers,IsFor,hnamed] using h hidle hcovers hnamed huntouched
  by_cases huntouched : g.lastUsedAt = now
  · exact .inl huntouched
  right
  refine and_congr_right fun hpos => and_congr_right fun hcovers => ?_
  have hany : g.deviceID = "" := by
    by_contra hnamed
    exact hidle ⟨hpos,hcovers,hnamed,huntouched⟩
  simp [IsFor,hany]

/-- One grant of a tenant, bound to a device and idle after a minute. -/
def hourGrant : EastWestGrant :=
  { deviceID := "win-dev-1", protocol := "smb", expiresAt := 3600 * second, lastUsedAt := 0, idleTTLSeconds := 60 }

def grantedStore : Store := { eastWestGrants := Map.ofEntries [("acme",[hourGrant])] }

def otherDevice : DecisionRequest :=
  { serviceFamily := "smb", deviceID := "win-dev-2", transportDeviceIdentity := "win-dev-2" }

theorem grantsOf_grantedStore : grantedStore.grantsOf "acme" = [hourGrant] := by
  have hacme : trimSpace "acme" = "acme" := by decide +kernel
  simp [Store.grantsOf,grantedStore,Map.ofEntries,hacme]

/-- A third claim that no grant is for changes nothing. -/
theorem unknown_claim_ignored :
    trimSpace otherDevice.transportDeviceIdentity ≠ "" ∧
      SameLateralDecision {} 100 otherDevice "win-dev-3" ∧
      grantedStore.touchEastWestGrant "acme" { otherDevice with deviceID := "win-dev-3" } 100 =
        grantedStore.touchEastWestGrant "acme" otherDevice 100 := by
  have htransport : trimSpace otherDevice.transportDeviceIdentity ≠ "" := by decide +kernel
  refine ⟨htransport,(claimed_device_ignored_iff {} grantedStore "acme" 100 otherDevice "win-dev-3" htransport).mpr ?_⟩
  intro g hg _ _ _ _
  obtain rfl : g = hourGrant := by simpa [grantsOf_grantedStore] using hg
  decide

/-- The transport says `win-dev-2`.  Claiming to be `win-dev-1` keeps the grant of that device alive. -/
theorem claim_touches_foreign_grant :
    authoritativeDeviceIdentity { otherDevice with deviceID := "win-dev-1" } = "win-dev-2" ∧
      authoritativeDeviceIdentity otherDevice = "win-dev-2" ∧
      ((grantedStore.touchEastWestGrant "acme" { otherDevice with deviceID := "win-dev-1" } 100).grantsOf "acme").map
        (·.lastUsedAt) = [100] ∧
      ((grantedStore.touchEastWestGrant "acme" otherDevice 100).grantsOf "acme").map (·.lastUsedAt) = [0] := by
  decide +kernel

end Claim

variable {t : Time}

theorem alive_of_later (ht : t ≤ now) (h : g.alive now = true) : g.alive t = true := by
  rw [alive_iff] at h ⊢
  have hsub : sub t g.lastUsedAt ≤ sub now g.lastUsedAt :=
    max_le_max_left _ (min_le_min_left _ (Int.sub_le_sub_right ht _))
  exact ⟨lt_of_le_of_lt ht h.1,fun hidle hlt => h.2 hidle (lt_of_lt_of_le hlt hsub)⟩

/-- A touch changes the last use of exactly the grants with an idle limit that release the request at that time. -/
def TouchesExactly (s : Store) (tenant : String) (req : DecisionRequest) (now : Time) : Prop :=
  ∀ (i : ℕ) g, (s.grantsOf tenant)[i]? = some g →
    ((s.touchEastWestGrant tenant req now).grantsOf tenant)[i]? =
      some (if 0 < g.idleTTLSeconds ∧ g.matchesRequest req now = true then { g with lastUsedAt := now } else g)

/-- Of the grants with an idle limit for this user, destination and protocol, those for the claimed device are within
their limits, and those within their limits are for the claimed device exactly if they are for the authoritative one. -/
def TouchFits (s : Store) (tenant : String) (req : DecisionRequest) (now : Time) : Prop :=
  ∀ g ∈ s.grantsOf tenant, 0 < g.idleTTLSeconds → g.Covers req → g.lastUsedAt ≠ now →
    (g.IsFor req.deviceID → g.alive now = true) ∧
      (g.alive now = true → (g.IsFor req.deviceID ↔ g.IsFor (authoritativeDeviceIdentity req)))

theorem touchesExactly_iff : TouchesExactly s tenant req now ↔ TouchFits s tenant req now := by
  have hgrant : ∀ g : EastWestGrant,
      touchGrant req now g =
          (if 0 < g.idleTTLSeconds ∧ g.matchesRequest req now = true then { g with lastUsedAt := now } else g) ↔
        (0 < g.idleTTLSeconds → g.Covers req → g.lastUsedAt ≠ now →
          (g.IsFor req.deviceID → g.alive now = true) ∧
            (g.alive now = true → (g.IsFor req.deviceID ↔ g.IsFor (authoritativeDeviceIdentity req)))) := by
    intro g
    have hif := @touchGrant_eq_iff req now g (decide (0 < g.idleTTLSeconds ∧ g.matchesRequest req now = true))
    simp only [decide_eq_true_eq] at hif
    rw [hif,Bool.eq_iff_iff,decide_eq_true_eq,touchSelects_iff,matchesRequest_iff]
    constructor
    · intro h hidle hcovers huntouched
      have hsame := h.resolve_left huntouched
      simp only [hidle,hcovers,true_and] at hsame
      exact ⟨fun hfor => (hsame.mp hfor).1,
        fun halive => ⟨fun hfor => (hsame.mp hfor).2,fun hfor => hsame.mpr ⟨halive,hfor⟩⟩⟩
    · intro h
      by_cases huntouched : g.lastUsedAt = now
      · exact .inl huntouched
      refine .inr (and_congr_right fun hidle => ?_)
      constructor
      · rintro ⟨hcovers, hfor⟩
        obtain ⟨halive, hdevice⟩ := h hidle hcovers huntouched
        exact ⟨halive hfor,hcovers,(hdevice (halive hfor)).mp hfor⟩
      · rintro ⟨halive, hcovers, hfor⟩
        exact ⟨hcovers,((h hidle hcovers huntouched).2 halive).mpr hfor⟩
  unfold TouchesExactly TouchFits
  simp only [grantsOf_touch,if_true,List.getElem?_map,← hgrant]
  constructor
  · intro h g hg
    obtain ⟨i, hi⟩ := List.mem_iff_getElem?.mp hg
    simpa [hi] using h i g hi
  · intro h i g hi
    rw [hi,Option.map_some,h g (List.mem_of_getElem? hi)]

/-- What happens to the grants of a store: flows are evaluated, and grants are touched. -/
inductive LateralUse where
  | evaluate (req : DecisionRequest)
  | touch (tenant : String) (req : DecisionRequest)

def LateralUse.after (s : Store) (now : Time) : LateralUse → Store
  | .evaluate _ => s
  | .touch tenant req => s.touchEastWestGrant tenant req now

def UseStep (s : Store × Time) (l : LateralUse × Time) (s' : Store × Time) : Prop :=
  s.2 ≤ l.2 ∧ s' = (l.1.after s.1 l.2,l.2)

def LateralUse.Fits (s : Store) (now : Time) : LateralUse → Prop
  | .evaluate _ => True
  | .touch tenant req => TouchFits s tenant req now

def FittingStep (s : Store × Time) (l : LateralUse × Time) (s' : Store × Time) : Prop :=
  UseStep s l s' ∧ l.1.Fits s.1 l.2

theorem touchGrant_eq_self (hfits : TouchFits s tenant req now) (hg : g ∈ s.grantsOf tenant)
    (hdead : g.alive now = false) : touchGrant req now g = g := by
  have h := (@touchGrant_eq_iff req now g false).mpr
  apply h
  by_cases huntouched : g.lastUsedAt = now
  · exact .inl huntouched
  right
  rw [Bool.eq_false_iff,Ne,touchSelects_iff]
  rintro ⟨hidle, hcovers, hfor⟩
  rw [(hfits g hg hidle hcovers huntouched).1 hfor] at hdead
  exact absurd hdead Bool.true_eq_false.mp

theorem dead_grant_step {i : ℕ} {a b : Store × Time} {l : LateralUse × Time} (h : FittingStep a l b)
    (hg : (a.1.grantsOf tenant)[i]? = some g) (hdead : g.alive a.2 = false) :
    (b.1.grantsOf tenant)[i]? = some g ∧ g.alive b.2 = false := by
  obtain ⟨⟨hle, rfl⟩, hfits⟩ := h
  have hlater : g.alive l.2 = false := by
    rw [Bool.eq_false_iff] at hdead ⊢
    exact fun h => hdead (alive_of_later hle h)
  refine ⟨?_,hlater⟩
  obtain ⟨use, now⟩ := l
  cases use with
  | evaluate _ => exact hg
  | touch other req =>
    simp only [LateralUse.after,grantsOf_touch]
    split
    next hsame =>
      have hgrants : a.1.grantsOf other = a.1.grantsOf tenant := by
        unfold Store.grantsOf
        rw [hsame]
      have hmem : g ∈ a.1.grantsOf other := by
        rw [hgrants]
        exact List.mem_of_getElem? hg
      rw [List.getElem?_map,hg,Option.map_some,touchGrant_eq_self hfits hmem hlater]
    next => exact hg

/-- Where every touch fits, a touch renews exactly the grants that release its request, and a grant that was once past
one of its limits never releases a request again. -/
theorem idle_expiry_irrevocable {s s' : Store} {t t' : Time} {uses : List (LateralUse × Time)}
    (hrun : Run FittingStep (s,t) uses (s',t')) :
    (∀ tenant req now, TouchesExactly s' tenant req now ↔ TouchFits s' tenant req now) ∧
      ∀ tenant (i : ℕ) g, (s.grantsOf tenant)[i]? = some g → 0 < g.idleTTLSeconds → g.alive t = false →
        ∀ g', (s'.grantsOf tenant)[i]? = some g' → ∀ req now, t' ≤ now → g'.matchesRequest req now = false := by
  refine ⟨fun _ _ _ => touchesExactly_iff,?_⟩
  intro tenant i g hg _ hdead g' hg' req now hnow
  have hkept := hrun.inv (P := fun a => (a.1.grantsOf tenant)[i]? = some g ∧ g.alive a.2 = false) ⟨hg,hdead⟩
    fun a l b ha hstep => dead_grant_step hstep ha.1 ha.2
  obtain rfl : g = g' := Option.some.inj (hkept.1.symm.trans hg')
  rw [Bool.eq_false_iff] at hkept ⊢
  intro hmatch
  exact hkept.2 (alive_of_later hnow (matchesRequest_iff.mp hmatch).1)

/-- The grant has idled out, a flow of another protocol is touched, and the grant stays closed for its own device. -/
theorem idle_grant_stays_closed :
    hourGrant.alive (61 * second) = false ∧
      hourGrant.matchesRequest { otherDevice with transportDeviceIdentity := "win-dev-1" } (70 * second) = false := by
  have hdead : hourGrant.alive (61 * second) = false := by decide +kernel
  have hfits : TouchFits grantedStore "acme" { serviceFamily := "ssh" } (62 * second) := by
    intro g hg _ hcovers _
    obtain rfl : g = hourGrant := by simpa [grantsOf_grantedStore] using hg
    exact absurd hcovers.protocol (by decide +kernel)
  have hrun : Run FittingStep (grantedStore,61 * second)
      ([] ++ [(.touch "acme" { serviceFamily := "ssh" },62 * second)])
      (grantedStore.touchEastWestGrant "acme" { serviceFamily := "ssh" } (62 * second),62 * second) :=
    .snoc (.nil _) ⟨⟨by decide,rfl⟩,hfits⟩
  have hkept : ((grantedStore.touchEastWestGrant "acme" { serviceFamily := "ssh" } (62 * second)).grantsOf
      "acme")[0]? = some hourGrant := by
    exact congrArg some (touchGrant_eq_self hfits (by simp [grantsOf_grantedStore]) (by decide +kernel))
  refine ⟨hdead,?_⟩
  exact (idle_expiry_irrevocable hrun).2 "acme" 0 hourGrant (by simp [grantsOf_grantedStore]) (by decide) hdead hourGrant
    hkept _ _ (by decide)

def ownDevice : DecisionRequest :=
  { serviceFamily := "smb", deviceID := "win-dev-1", transportDeviceIdentity := "win-dev-1" }

/-- The grant has idled out after 61 seconds, a touch at that time revives it, and a second later it releases the
flow. -/
theorem touch_revives_idle_grant :
    hourGrant.alive (61 * second) = false ∧
      Run UseStep (grantedStore,61 * second) [(.touch "acme" ownDevice,61 * second)]
        (grantedStore.touchEastWestGrant "acme" ownDevice (61 * second),61 * second) ∧
      ((grantedStore.touchEastWestGrant "acme" ownDevice (61 * second)).grantsOf "acme").any
        (·.matchesRequest ownDevice (62 * second)) = true := by
  refine ⟨by decide +kernel,?_,by decide +kernel⟩
  exact .snoc (.nil _) ⟨le_refl _,rfl⟩

end DsseCore.PolicyStore
