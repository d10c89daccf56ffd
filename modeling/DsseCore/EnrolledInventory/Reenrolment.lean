import DsseCore.EnrolledInventory.Operations
import DsseCore.Lib.Run

/-!
# Permissions to enrol again

The control plane counts the permissions it gives for an identity, and an Edge takes a permission for new when the count
is above the one its own enrolment was recorded under.  The counts of every Edge and of the shared claims stay at or below
the count of the control plane, as long as that count never falls.  Removing an identity resets it.
-/

namespace DsseCore.EnrolledInventory

open Go Lib Ledger Option

variable {c : Claims} {tenantID k t k' now id : String} {h grant N : Int} {save : SaveOutcome} {op : LedgerOp}
  {e : Entry} {r : Option Entry} {l : Ledger} {n : Node Claims}

/-- The grant under which an identity of an organisation is claimed. -/
abbrev Claims := String → String → Option Int

def Claims.set (c : Claims) (tenantID k : String) (g : Option Int) : Claims :=
  fun t k' => if t = tenantID ∧ k' = k then g else c t k'

/-- The claim the issuers share: it is taken only under a grant newer than the one it stands under. -/
def newerGrants : IdentityClaimer Claims where
  claimIdentity tenantID k grant c :=
    if (c (trimSpace tenantID) (normalizeIdentity k)).all (· < grant) then
      (.ok true,c.set (trimSpace tenantID) (normalizeIdentity k) (some grant))
    else (.ok false,c)
  releaseIdentity tenantID k grant c :=
    if c (trimSpace tenantID) (normalizeIdentity k) = some grant then
      c.set (trimSpace tenantID) (normalizeIdentity k) none
    else c

theorem Claims.set_some {g : Option Int} (hset : c.set tenantID k g t k' = some h) :
    c t k' = some h ∨ (k' = k ∧ g = some h) := by
  unfold Claims.set at hset
  split at hset
  · next heq => exact .inr ⟨heq.2,hset⟩
  · exact .inl hset

theorem claims_takeClaim (hk : normalizeIdentity k = k)
    (hc : (takeClaim (some newerGrants) tenantID k grant c).2 t k' = some h) :
    c t k' = some h ∨ (k' = k ∧ h = grant) := by
  unfold takeClaim newerGrants at hc
  dsimp only at hc
  split at hc
  · next heq =>
    split at heq <;> cases heq
  · next heq =>
    split at heq <;> cases heq
    exact .inl hc
  rename_i heq
  split at heq <;> cases heq
  rw [hk] at hc
  rcases Claims.set_some hc with h' | ⟨h', hg⟩
  · exact .inl h'
  · exact .inr ⟨h',(some.inj hg).symm⟩

theorem claims_giveBack (hc : giveBack (some newerGrants) tenantID k grant c t k' = some h) : c t k' = some h := by
  unfold giveBack newerGrants at hc
  dsimp only at hc
  split at hc
  · rcases Claims.set_some hc with h' | ⟨-, hg⟩
    · exact h'
    · cases hg
  · exact hc

theorem claims_exec {g : Int} (hc : (n.exec (some newerGrants) save op).2.claims t k = some g) :
    n.claims t k = some g ∨ g = n.ledger.grantOf k := by
  cases op <;> dsimp only [Node.exec,Node.exec.onLedger] at hc
  case enrollDevice id tenantID group note now machineRef =>
    unfold enrollDeviceForTenantWithMachine at hc
    dsimp only at hc
    have htake : ∀ c, (takeClaim (some newerGrants) tenantID (normalizeIdentity id)
        (n.ledger.grantOf (normalizeIdentity id)) n.claims).2 = c → c t k = some g →
        n.claims t k = some g ∨ g = n.ledger.grantOf k := by
      rintro _ rfl h
      rcases claims_takeClaim (normalizeIdentity_normalizeIdentity id) h with h' | ⟨rfl, h'⟩
      · exact .inl h'
      · exact .inr h'
    split at hc
    · exact .inl hc
    split at hc
    · exact .inl hc
    split at hc
    · next heq => exact htake _ (by rw [heq]) hc
    rename_i heq
    split at hc
    · exact htake _ (by rw [heq]) hc
    · exact htake _ (by rw [heq]) (claims_giveBack hc)
  all_goals exact .inl hc

def grants (r : Option Entry) : Int := (r.map Entry.reenrolmentNonce).getD 0

def Entry.Within (N : Int) (e : Entry) : Prop := e.reenrolmentNonce ≤ N ∧ e.deviceEnrolledNonce ≤ N

theorem Entry.Within.mono {M : Int} (h : e.Within N) (hle : N ≤ M) : e.Within M :=
  ⟨h.1.trans hle,h.2.trans hle⟩

/-- A row as the ledger keeps it under `k`. -/
structure Entry.Sound (k : String) (e : Entry) : Prop where
  identity : e.identity = k
  key : normalizeIdentity k = k
  nonneg : 0 ≤ e.reenrolmentNonce
  device : e.deviceEnrolledNonce ≤ e.reenrolmentNonce

def Ledger.Sound (l : Ledger) : Prop := ∀ (k : String) (e : Entry), l.entries[k]? = some e → e.Sound k

theorem grants_nonneg (h : ∀ e, r = some e → e.Sound k) : 0 ≤ grants r := by
  cases r with
  | none => exact le_refl _
  | some e => exact (h e rfl).nonneg

variable {r' prev : Option Entry}

theorem RowChange.sound (h : RowChange op k r r') (hr : ∀ e, r = some e → e.Sound k) : ∀ e, r' = some e → e.Sound k := by
  intro e he
  cases h with
  | same => exact hr e he
  | created hkey hid hnonce hdevice =>
    obtain rfl := some.inj he
    exact ⟨hid,hkey,hnonce.ge,by rw [hnonce,hdevice]⟩
  | kept hid hnonce _ hdevice =>
    obtain rfl := some.inj he
    have h := hr _ rfl
    exact ⟨hid.trans h.identity,h.key,hnonce ▸ h.nonneg,by rw [hnonce,hdevice]; exact h.device⟩
  | enrolled hkey hid hnew hnonce hdevice =>
    obtain rfl := some.inj he
    refine ⟨?_,hkey,hnonce ▸ grants_nonneg hr,hdevice.le⟩
    cases r with
    | none => exact hnew rfl
    | some e => exact (hid e rfl).trans (hr e rfl).identity
  | permitted =>
    obtain rfl := some.inj he
    have h := hr _ rfl
    refine ⟨h.identity,h.key,?_,?_⟩
    · exact h.nonneg.trans (Int.le_add_one le_rfl)
    · exact h.device.trans (Int.le_add_one le_rfl)
  | removed =>
    obtain rfl := some.inj he
    exact ⟨(hr _ rfl).identity,(hr _ rfl).key,le_refl _,le_refl _⟩
  | purged => cases he
  | retired =>
    obtain rfl := some.inj he
    exact ⟨(hr _ rfl).identity,(hr _ rfl).key,(hr _ rfl).nonneg,(hr _ rfl).nonneg⟩

theorem RowChange.within (h : RowChange op k r r') (hN : 0 ≤ N) (hr : ∀ e, r = some e → e.Within N)
    (hop : ∀ id t now, op ≠ .allowReenrolment id t now) : ∀ e, r' = some e → e.Within N := by
  intro e he
  cases h with
  | same => exact hr e he
  | created _ _ hnonce hdevice =>
    obtain rfl := some.inj he
    exact ⟨by rwa [hnonce],by rwa [hdevice]⟩
  | kept _ hnonce _ hdevice =>
    obtain rfl := some.inj he
    exact ⟨hnonce ▸ (hr _ rfl).1,hdevice ▸ (hr _ rfl).2⟩
  | enrolled _ _ _ hnonce hdevice =>
    obtain rfl := some.inj he
    have hle : (r.map Entry.reenrolmentNonce).getD 0 ≤ N := by
      cases r with
      | none => exact hN
      | some e => exact (hr e rfl).1
    exact ⟨hnonce ▸ hle,hdevice ▸ hnonce ▸ hle⟩
  | permitted hop' => exact absurd hop' (hop _ _ _)
  | removed =>
    obtain rfl := some.inj he
    exact ⟨hN,hN⟩
  | purged => cases he
  | retired =>
    obtain rfl := some.inj he
    exact ⟨(hr _ rfl).1,hN⟩

theorem within_mergeRow (he : e.Within N) (hprev : ∀ p, prev = some p → p.Within N) :
    (mergeRow now prev e).Within N := by
  unfold mergeRow
  cases prev with
  | none => exact ⟨he.1,he.2⟩
  | some p =>
    dsimp only
    split
    · exact ⟨he.1,(hprev p rfl).2⟩
    · exact ⟨he.1,he.2⟩

/-- A control plane, the Edges that merge its lists, and the claims they share.  `published` are the lists the control
plane has had so far. -/
structure Fleet where
  control : Ledger
  edges : ℕ → Ledger
  claims : Claims
  published : List (List Entry)

inductive FleetEvent where
  | control (save : SaveOutcome) (op : LedgerOp)
  | merge (i : ℕ) (save : SaveOutcome) (entries : List Entry) (now : String)
  | enroll (i : ℕ) (save : SaveOutcome) (id tenantID group note now machineRef : String)

def Fleet.onControl (f : Fleet) (n : Node Claims) : Fleet :=
  { f with control := n.ledger, claims := n.claims, published := n.ledger.authoritative :: f.published }

def Fleet.onEdge (f : Fleet) (i : ℕ) (n : Node Claims) : Fleet :=
  { f with edges := Function.update f.edges i n.ledger, claims := n.claims }

def Fleet.after (f : Fleet) : FleetEvent → Fleet
  | .control save op => f.onControl (Node.exec (some newerGrants) ⟨f.control,f.claims⟩ save op).2
  | .merge i save entries now =>
    f.onEdge i (Node.exec (some newerGrants) ⟨f.edges i,f.claims⟩ save (.merge entries now)).2
  | .enroll i save id tenantID group note now machineRef =>
    f.onEdge i (Node.exec (some newerGrants) ⟨f.edges i,f.claims⟩ save
      (.enrollDevice id tenantID group note now machineRef)).2

def LedgerOp.expiresNothing (l : Ledger) : LedgerOp → Bool
  | .remove _ now =>
    (Time.parseRFC3339 (trimSpace now)).all fun at_ => l.entries.toList.all fun r => !expired at_ r.2
  | _ => true

/-- What may happen: the control plane's own rows are edited and no tombstone expires, and an Edge merges a list the
control plane has had. -/
def FleetEvent.Possible (f : Fleet) : FleetEvent → Prop
  | .control _ op => op.Edits ∧ op.expiresNothing f.control = true
  | .merge _ _ entries _ => entries ∈ f.published
  | .enroll .. => True

/-- The identity is removed only as long as no permission was given for it. -/
def FleetEvent.Spares (k : String) (f : Fleet) : FleetEvent → Prop
  | .control _ (.remove id _) => normalizeIdentity id = k → f.control.grantOf k ≤ 0
  | _ => True

instance : DecidablePred LedgerOp.Edits := fun op => by
  cases op <;> first | exact isTrue trivial | exact isFalse not_false

instance (f : Fleet) (ev : FleetEvent) : Decidable (ev.Possible f) :=
  match ev with
  | .control _ op => inferInstanceAs (Decidable (op.Edits ∧ op.expiresNothing f.control = true))
  | .merge _ _ entries _ => inferInstanceAs (Decidable (entries ∈ f.published))
  | .enroll .. => isTrue trivial

instance (k : String) (f : Fleet) (ev : FleetEvent) : Decidable (ev.Spares k f) := by
  unfold FleetEvent.Spares
  split <;> infer_instance

def Fleet.Step (f : Fleet) (ev : FleetEvent) (f' : Fleet) : Prop := ev.Possible f ∧ f' = f.after ev

def Fleet.SparingStep (k : String) (f : Fleet) (ev : FleetEvent) (f' : Fleet) : Prop := f.Step ev f' ∧ ev.Spares k f

/-- Edges without rows, no claims, and a control plane with sound rows. -/
structure Fleet.Starts (f : Fleet) : Prop where
  control : f.control.Sound
  edges : ∀ i, (f.edges i).entries = ∅
  claims : ∀ t k, f.claims t k = none
  published : f.published = [f.control.authoritative]

/-- Every count of the identity is at or below the control plane's. -/
structure Fleet.Behind (k : String) (f : Fleet) : Prop where
  control : f.control.Sound
  published : ∀ es ∈ f.published, ∀ e ∈ es, normalizeIdentity e.identity = k → e.Within (f.control.grantOf k)
  edges : ∀ i e, (f.edges i).entries[k]? = some e → e.Within (f.control.grantOf k)
  claims : ∀ t g, f.claims t k = some g → g ≤ f.control.grantOf k

variable {f f' : Fleet} {ev : FleetEvent} {evs : List FleetEvent}

theorem Ledger.Sound.within_authoritative (h : l.Sound) (he : e ∈ l.authoritative)
    (hk : normalizeIdentity e.identity = k) : l.entries[k]? = some e ∧ e.Within (l.grantOf k) := by
  obtain ⟨j, hj⟩ := mem_authoritative.mp he
  have hs := h j e hj
  obtain rfl : j = k := by rw [← hk,hs.identity,hs.key]
  refine ⟨hj,?_,?_⟩ <;> simp only [grantOf,hj,map_some,getD_some]
  · exact le_refl _
  · exact hs.device

theorem Fleet.Starts.behind (h : f.Starts) (k : String) : f.Behind k := by
  refine ⟨h.control,fun es hes e he hk => ?_,fun i e he => ?_,fun t g hg => ?_⟩
  · rw [h.published,List.mem_singleton] at hes
    exact (h.control.within_authoritative (hes ▸ he) hk).2
  · rw [h.edges i] at he
    cases he
  · rw [h.claims] at hg
    cases hg

theorem Fleet.Behind.nonneg (h : f.Behind k) : 0 ≤ f.control.grantOf k :=
  grants_nonneg fun e he => h.control k e he

theorem RowChange.grants_le (h : RowChange op k r r')
    (hremove : ∀ id now, op = .remove id now → normalizeIdentity id = k → grants r ≤ 0)
    (hexp : ∀ id now at_ e, op = .remove id now → Time.parseRFC3339 (trimSpace now) = some at_ → r = some e → expired at_ e = false) :
    grants r ≤ grants r' := by
  cases h with
  | same => exact le_refl _
  | created _ _ hnonce => exact hnonce.ge
  | kept _ hnonce => exact hnonce.ge
  | enrolled _ _ _ hnonce => exact hnonce.ge
  | permitted => exact Int.le_add_one le_rfl
  | removed hop hk => exact hremove _ _ hop hk
  | purged hop hat hexp' =>
    rw [hexp _ _ _ _ hop hat rfl] at hexp'
    cases hexp'
  | retired => exact le_refl _

theorem expired_of_expiresNothing (h : op.expiresNothing l = true) {at_ : Time} (hop : op = .remove id now)
    (hat : Time.parseRFC3339 (trimSpace now) = some at_) (he : l.entries[k]? = some e) :
    expired at_ e = false := by
  subst hop
  dsimp only [LedgerOp.expiresNothing] at h
  rw [hat] at h
  have := List.all_eq_true.mp h (k,e) (Std.ExtTreeMap.mem_toList_iff_getElem?_eq_some.mpr he)
  simpa using this

theorem Fleet.SparingStep.grants_le (h : f.SparingStep k ev f') : f.control.grantOf k ≤ f'.control.grantOf k := by
  obtain ⟨⟨hpos, rfl⟩, hspares⟩ := h
  cases ev with
  | merge => exact le_refl _
  | enroll => exact le_refl _
  | control save op =>
    have hrow := (Node.exec_changes (some newerGrants) ⟨f.control,f.claims⟩ save hpos.1).row k
    refine hrow.grants_le (fun id now hop hk => ?_) fun id now at_ e hop hat he => ?_
    · subst hop
      exact hspares hk
    · exact expired_of_expiresNothing hpos.2 hop hat he

theorem Fleet.Behind.step (h : f.Behind k) (hs : f.SparingStep k ev f') : f'.Behind k := by
  have hle := hs.grants_le
  obtain ⟨⟨hpos, rfl⟩, -⟩ := hs
  cases ev with
  | control save op =>
    have hrow := fun j => (Node.exec_changes (some newerGrants) ⟨f.control,f.claims⟩ save hpos.1).row j
    have hsound : (f.after (.control save op)).control.Sound :=
      fun j => (hrow j).sound (h.control j)
    refine ⟨hsound,fun es hes e he hk => ?_,fun i e he => (h.edges i e he).mono hle,fun t g hg => ?_⟩
    · rcases List.mem_cons.mp hes with rfl | hes
      · exact (hsound.within_authoritative he hk).2
      · exact (h.published es hes e he hk).mono hle
    rcases claims_exec hg with hg | rfl
    · exact (h.claims t g hg).trans hle
    · exact hle
  | merge i save es now =>
    refine ⟨h.control,h.published,fun j e he => ?_,h.claims⟩
    change (Function.update f.edges i _ j).entries[k]? = some e at he
    by_cases hj : j = i
    · subst hj
      rw [Function.update_self] at he
      rcases (settled_mergeAuthoritative save es now (f.edges j)).entries with heq | heq
      · exact h.edges j e (heq ▸ he)
      have he : (mergeRows now (f.edges j).entries es ∅)[k]? = some e := heq ▸ he
      rcases mem_mergeRows he with he | ⟨e', he', hk, rfl⟩
      · cases he
      · exact within_mergeRow (h.published es hpos e' he' hk) (h.edges j)
    · rw [Function.update_of_ne hj] at he
      exact h.edges j e he
  | enroll i save id tenantID group note now machineRef =>
    refine ⟨h.control,h.published,fun j e he => ?_,fun t g hg => ?_⟩
    · change (Function.update f.edges i _ j).entries[k]? = some e at he
      by_cases hj : j = i
      · subst hj
        rw [Function.update_self] at he
        have hedits : (LedgerOp.enrollDevice id tenantID group note now machineRef).Edits := trivial
        have hrow := (Node.exec_changes (some newerGrants) ⟨f.edges j,f.claims⟩ save hedits).row k
        exact hrow.within h.nonneg (h.edges j) (fun _ _ _ hop => LedgerOp.noConfusion hop) e he
      · rw [Function.update_of_ne hj] at he
        exact h.edges j e he
    · dsimp only [Fleet.after,Fleet.onEdge] at hg
      rcases claims_exec hg with hg | rfl
      · exact h.claims t g hg
      unfold grantOf
      cases hr : (f.edges i).entries[k]? with
      | none => exact h.nonneg
      | some e => exact (h.edges i e hr).1

theorem Fleet.Behind.run (h : f.Behind k) (hrun : Run (Fleet.SparingStep k) f evs f') : f'.Behind k :=
  hrun.inv h fun _ _ _ hf hs => hf.step hs

theorem Fleet.grants_le_run (hrun : Run (Fleet.SparingStep k) f evs f') :
    f.control.grantOf k ≤ f'.control.grantOf k :=
  hrun.rel (P := fun _ => True) (R := fun g g' => g.control.grantOf k ≤ g'.control.grantOf k) trivial
    (fun _ _ _ _ _ => trivial) (fun _ => le_refl _) (fun _ _ _ => le_trans) fun _ _ _ _ hs => hs.grants_le

theorem allowReenrolment_ok {callerTenant : String} {l' : Ledger} {before : Entry}
    (h : l.allowReenrolment save id callerTenant now = (.ok (e,before),l')) :
    normalizeIdentity id ≠ "" ∧ l.entries[normalizeIdentity id]? = some before ∧ e = permit now before ∧
      l'.entries = l.entries.insert (normalizeIdentity id) e := by
  unfold allowReenrolment at h
  dsimp only at h
  split at h
  · cases h
  rename_i hk
  cases hr : l.entries[normalizeIdentity id]? with
  | none => rw [hr] at h; cases h
  | some b =>
    rw [hr] at h
    dsimp only at h
    split at h
    · cases h
    obtain ⟨hval, hs⟩ := commit_ok h
    obtain ⟨rfl, rfl⟩ := Prod.mk.inj hval
    exact ⟨hk,rfl,rfl,hs.accepted rfl⟩

theorem mergeRow_newer (h : ∀ p, prev = some p → p.deviceEnrolledNonce < e.reenrolmentNonce) :
    mergeRow now prev e = { e with
      identity := normalizeIdentity e.identity
      updatedAt := if trimSpace e.updatedAt = "" then now else e.updatedAt } := by
  unfold mergeRow
  cases prev with
  | none => rfl
  | some p =>
    dsimp only
    rw [if_neg]
    simp only [Bool.and_eq_true,decide_eq_true_eq,not_and,not_le]
    exact fun _ => h p rfl

theorem refuseRow_permitted {machineRef : String} (henabled : e.enabled = true) (hmark : e.deviceEnrolledAt = "")
    (howner : trimSpace tenantID = trimSpace e.tenantID) : refuseRow tenantID machineRef e = none := by
  have hdev : e.deviceEnrolled = false := by
    unfold Entry.deviceEnrolled
    rw [hmark]
    rfl
  unfold refuseRow sameGroupTenant
  simp [henabled,hdev,howner]

theorem claim_newer (hk : normalizeIdentity k = k) (h : ∀ t g, c t k = some g → g < grant) :
    (newerGrants.claimIdentity tenantID k grant c).1 = .ok true := by
  unfold newerGrants
  dsimp only
  rw [if_pos]
  rw [hk]
  cases hc : c (trimSpace tenantID) k with
  | none => rfl
  | some g => simpa using h _ g hc

theorem commit_saved {α : Type} (h : l.persister = true → l.persistBlocked = false) (rollback : Bool) (c : Map Entry)
    (a : α) : (l.commit rollback .saved c a).1 = .ok a := by
  unfold commit persistCheckedLocked
  cases hp : l.persister with
  | false => rfl
  | true => rw [h hp]; rfl

theorem enrollDevice_saved {group note machineRef : String} (hk : normalizeIdentity id ≠ "")
    (hlocal : n.ledger.refuseLocally (normalizeIdentity id) tenantID (normalizeMachineRef machineRef) = none)
    (hclaim : (newerGrants.claimIdentity tenantID (normalizeIdentity id) (n.ledger.grantOf (normalizeIdentity id)) n.claims).1 = .ok true)
    (hrow : n.ledger.entries[normalizeIdentity id]? = some e) (htomb : e.isTombstone = false)
    (henabled : e.enabled = true) (hsave : n.ledger.persister = true → n.ledger.persistBlocked = false) :
    (enrollDeviceForTenantWithMachine (some newerGrants) .saved id tenantID group note now machineRef n).1.isOk = true := by
  unfold enrollDeviceForTenantWithMachine
  rw [if_neg hk,hlocal]
  dsimp only
  have htake : (takeClaim (some newerGrants) tenantID (normalizeIdentity id)
      (n.ledger.grantOf (normalizeIdentity id)) n.claims).1 = .ok () := by
    unfold takeClaim
    dsimp only
    generalize newerGrants.claimIdentity tenantID _ _ n.claims = r at hclaim ⊢
    obtain ⟨a, c⟩ := r
    subst hclaim
    rfl
  split
  · next heq =>
    rw [heq] at htake
    cases htake
  have hbase : enrollBase (normalizeIdentity id) now false n.ledger.entries[normalizeIdentity id]? = .ok e := by
    rw [hrow]
    unfold enrollBase
    simp [htomb,henabled]
  have hok : (n.ledger.enrollGroupMutateLocked true .saved (normalizeIdentity id) tenantID group note now false
      (deviceFields now (normalizeMachineRef machineRef))).1.isOk = true := by
    unfold enrollGroupMutateLocked
    rw [hbase]
    rw [commit_saved hsave]
    rfl
  split
  · rfl
  rename_i heq
  rw [heq] at hok
  cases hok

theorem permitted_row_merged {control edge : Ledger} {mergeNow : String} {before : Entry} {dropped : List String}
    (hk : k ≠ "") (hcontrol : control.Sound) (hrow : control.entries[k]? = some (permit now before))
    (hedge : ∀ p, l.entries[k]? = some p → p.deviceEnrolledNonce ≤ before.reenrolmentNonce)
    (hmerge : l.mergeAuthoritative save control.authoritative mergeNow = (.ok dropped,edge)) :
    ∃ e, edge.entries[k]? = some e ∧ e.enabled = true ∧ e.isTombstone = false ∧ e.deviceEnrolledAt = "" ∧
      e.tenantID = before.tenantID ∧ e.reenrolmentNonce = before.reenrolmentNonce + 1 := by
  have hsettled := settled_mergeAuthoritative save control.authoritative mergeNow l
  rw [hmerge] at hsettled
  have hs := hcontrol k _ hrow
  have hid : normalizeIdentity (permit now before).identity = k := by rw [hs.identity,hs.key]
  have huniq : ∀ e ∈ control.authoritative, normalizeIdentity e.identity = k → e = permit now before := by
    intro e he hke
    have := (hcontrol.within_authoritative he hke).1
    rw [hrow] at this
    exact (some.inj this).symm
  have hget : (mergeRows mergeNow l.entries control.authoritative ∅)[k]? =
      some (mergeRow mergeNow l.entries[k]? (permit now before)) :=
    getElem?_mergeRows hk huniq hid (.inl (mem_authoritative.mpr ⟨k,hrow⟩))
  rw [mergeRow_newer fun p hp => Int.lt_add_one_of_le (hedge p hp)] at hget
  rw [hsettled.accepted rfl]
  refine ⟨_,hget,rfl,?_,rfl,rfl,rfl⟩
  unfold Entry.isTombstone
  dsimp only [permit]
  rfl

/-- Every permission to enrol again is newer than every count before it, and takes effect at every Edge that merges the
list it is in, as long as the identity was never removed with permissions. -/
theorem reenrolment_takes_effect {start f : Fleet} {evs : List FleetEvent} {save : SaveOutcome}
    {id callerTenant now : String} {e before : Entry} {control : Ledger} (hstart : start.Starts)
    (hrun : Run (Fleet.SparingStep (normalizeIdentity id)) start evs f)
    (hallow : f.control.allowReenrolment save id callerTenant now = (.ok (e,before),control)) :
    control.entries[normalizeIdentity id]? = some e ∧
      (∀ earlier later g r, evs = earlier ++ later → Run (Fleet.SparingStep (normalizeIdentity id)) start earlier g →
        Run (Fleet.SparingStep (normalizeIdentity id)) g later f →
        g.control.entries[normalizeIdentity id]? = some r → r.reenrolmentNonce < e.reenrolmentNonce) ∧
      ∀ i mergeSave mergeNow dropped edge tenantID machineRef,
        (f.edges i).mergeAuthoritative mergeSave control.authoritative mergeNow = (.ok dropped,edge) →
        trimSpace tenantID = trimSpace e.tenantID →
        edge.identityForMachineLocked (normalizeMachineRef machineRef) (normalizeIdentity id) = none →
        edge.wouldRefuseEnrolment id tenantID machineRef = none ∧
          (newerGrants.claimIdentity tenantID (normalizeIdentity id) (edge.grantOf (normalizeIdentity id))
            f.claims).1 = .ok true ∧
          ∀ group note enrolNow, (enrollDeviceForTenantWithMachine (some newerGrants) .saved id tenantID group note enrolNow
            machineRef ⟨edge,f.claims⟩).1.isOk = true := by
  have hbehind := (hstart.behind (normalizeIdentity id)).run hrun
  obtain ⟨hk, hbefore, rfl, hentries⟩ := allowReenrolment_ok hallow
  have hgrant : f.control.grantOf (normalizeIdentity id) = before.reenrolmentNonce := by
    simp only [grantOf,hbefore,map_some,getD_some]
  have hrow : control.entries[normalizeIdentity id]? = some (permit now before) := by
    rw [hentries,Map.getElem?_insert_eq,if_pos rfl]
  have hsound : control.Sound := by
    have hchange := (edited_allowReenrolment (l := f.control) save id callerTenant now).changes
    rw [hallow] at hchange
    exact fun j => (hchange.row j).sound (hbehind.control j)
  refine ⟨hrow,fun earlier later g r _ _ hlater hr => ?_,?_⟩
  · have hle := Fleet.grants_le_run hlater
    rw [hgrant] at hle
    simp only [grantOf,hr] at hle
    exact Int.lt_add_one_of_le hle
  · intro i mergeSave mergeNow dropped edge tenantID machineRef hmerge howner hmachine
    have hedge : ∀ p, (f.edges i).entries[normalizeIdentity id]? = some p →
        p.deviceEnrolledNonce ≤ before.reenrolmentNonce := fun p hp => hgrant ▸ (hbehind.edges i p hp).2
    obtain ⟨r, hr, henabled, htomb, hmark, htenant, hnonce⟩ := permitted_row_merged hk hsound hrow hedge hmerge
    have hlocal : edge.refuseLocally (normalizeIdentity id) tenantID (normalizeMachineRef machineRef) = none := by
      unfold refuseLocally
      rw [hmachine,hr]
      exact refuseRow_permitted henabled hmark (htenant ▸ howner)
    have hclaim : (newerGrants.claimIdentity tenantID (normalizeIdentity id) (edge.grantOf (normalizeIdentity id))
        f.claims).1 = .ok true := by
      refine claim_newer (normalizeIdentity_normalizeIdentity id) fun t g hg => ?_
      simp only [grantOf,hr,map_some]
      exact hnonce ▸ Int.lt_add_one_of_le (hgrant ▸ hbehind.claims t g hg)
    refine ⟨?_,hclaim,fun group note enrolNow => ?_⟩
    · unfold wouldRefuseEnrolment
      rw [if_neg hk]
      exact hlocal
    refine enrollDevice_saved hk hlocal hclaim hr htomb henabled fun hp => ?_
    have hsettled := settled_mergeAuthoritative mergeSave control.authoritative mergeNow (f.edges i)
    rw [hmerge] at hsettled
    exact hsettled.blocked.trans (hsettled.saved rfl (hsettled.persister ▸ hp)).1

def Fleet.fresh : Fleet :=
  { control := newLedger, edges := fun _ => newLedger, claims := fun _ _ => none, published := [newLedger.authoritative] }

theorem Fleet.starts_fresh : Fleet.Starts Fleet.fresh := by
  refine ⟨fun k e h => ?_,fun _ => rfl,fun _ _ => rfl,rfl⟩
  rw [show Fleet.fresh.control.entries = ∅ from rfl] at h
  simp at h

def laptopRow (nonce : Int) (updatedAt : String) : Entry :=
  { identity := "laptop", enabled := true, tenantID := "acme", enrolledAt := "09:00", updatedAt,
    reenrolmentNonce := nonce }

def laptopEnrolled : Fleet :=
  [.control .saved (.enrollGroup "laptop" "acme" "" "" "09:00" true), .merge 0 .saved [laptopRow 0 "09:00"] "09:00",
    .enroll 0 .saved "laptop" "acme" "" "" "09:00" ""].foldl Fleet.after Fleet.fresh

/-- The laptop may enrol again, and does. -/
theorem permitted_laptop_enrolls :
    ∃ e before control dropped edge,
      laptopEnrolled.control.allowReenrolment .saved "laptop" "acme" "10:00" = (.ok (e,before),control) ∧
      (laptopEnrolled.edges 0).mergeAuthoritative .saved control.authoritative "10:00" = (.ok dropped,edge) ∧
      (enrollDeviceForTenantWithMachine (some newerGrants) .saved "laptop" "acme" "" "" "10:00" ""
        ⟨edge,laptopEnrolled.claims⟩).1.isOk = true := by
  have hguarded : Guarded Fleet.after (fun f ev => ev.Possible f ∧ ev.Spares (normalizeIdentity "laptop") f) Fleet.fresh
      [.control .saved (.enrollGroup "laptop" "acme" "" "" "09:00" true),
        .merge 0 .saved [laptopRow 0 "09:00"] "09:00", .enroll 0 .saved "laptop" "acme" "" "" "09:00" ""] := by
    decide +kernel
  have hrun : Run (Fleet.SparingStep (normalizeIdentity "laptop")) Fleet.fresh _ laptopEnrolled :=
    hguarded.run.mono fun _ _ _ h => ⟨⟨h.1.1,h.2⟩,h.1.2⟩
  have hallow : laptopEnrolled.control.allowReenrolment .saved "laptop" "acme" "10:00" =
      (.ok (laptopRow 1 "10:00",laptopRow 0 "09:00"),
        (laptopEnrolled.control.allowReenrolment .saved "laptop" "acme" "10:00").2) :=
    Prod.ext (by decide +kernel) rfl
  have hmerge : ∀ control, (laptopEnrolled.edges 0).mergeAuthoritative .saved (authoritative control) "10:00" =
      (.ok (droppedBy (mergeRows "10:00" (laptopEnrolled.edges 0).entries (authoritative control) ∅)
          (laptopEnrolled.edges 0).entries),
        ((laptopEnrolled.edges 0).mergeAuthoritative .saved (authoritative control) "10:00").2) :=
    fun control => Prod.ext (commit_saved (by decide +kernel) true _ _) rfl
  refine ⟨_,_,_,_,_,hallow,hmerge _,?_⟩
  exact ((reenrolment_takes_effect Fleet.starts_fresh hrun hallow).2.2 0 .saved "10:00" _ _ "acme" "" (hmerge _) rfl
    (by decide +kernel)).2.2 "" "" "10:00"

/-- The laptop is added and permitted to enrol again before it enrolls. -/
def laptopPermitted : Fleet :=
  [.control .saved (.enrollGroup "laptop" "acme" "" "" "09:00" true),
    .control .saved (.allowReenrolment "laptop" "acme" "10:00")].foldl Fleet.after Fleet.fresh

def laptopRemoved : Fleet :=
  [.merge 0 .saved [laptopRow 1 "10:00"] "10:00", .enroll 0 .saved "laptop" "acme" "" "" "10:00" "",
    .control .saved (.remove "laptop" "11:00")].foldl Fleet.after laptopPermitted

/-- Removing an identity forgets its permissions, so the next one is not new to an Edge that has used the last. -/
theorem removal_forgets_permissions :
    ∃ evs₁ evs₂ r e before control dropped edge,
      Run Fleet.Step Fleet.fresh evs₁ laptopPermitted ∧ Run Fleet.Step laptopPermitted evs₂ laptopRemoved ∧
      laptopPermitted.control.entries["laptop"]? = some r ∧
      laptopRemoved.control.allowReenrolment .saved "laptop" "acme" "12:00" = (.ok (e,before),control) ∧
      ¬ r.reenrolmentNonce < e.reenrolmentNonce ∧
      (laptopRemoved.edges 0).mergeAuthoritative .saved control.authoritative "12:00" = (.ok dropped,edge) ∧
      (enrollDeviceForTenantWithMachine (some newerGrants) .saved "laptop" "acme" "" "" "12:00" ""
        ⟨edge,laptopRemoved.claims⟩).1 = .error .identityAlreadyEnrolled := by
  have hguarded : Guarded Fleet.after (fun f ev => ev.Possible f) Fleet.fresh
      [.control .saved (.enrollGroup "laptop" "acme" "" "" "09:00" true),
        .control .saved (.allowReenrolment "laptop" "acme" "10:00")] := by decide +kernel
  have hguarded' : Guarded Fleet.after (fun f ev => ev.Possible f) laptopPermitted
      [.merge 0 .saved [laptopRow 1 "10:00"] "10:00", .enroll 0 .saved "laptop" "acme" "" "" "10:00" "",
        .control .saved (.remove "laptop" "11:00")] := by decide +kernel
  refine ⟨_,_,laptopRow 1 "10:00",
    { identity := "laptop", enabled := true, tenantID := "acme", updatedAt := "12:00", reenrolmentNonce := 1 },
    { identity := "laptop", tenantID := "acme", removedAt := "11:00", updatedAt := "11:00" },_,
    droppedBy (mergeRows "12:00" (laptopRemoved.edges 0).entries
      (laptopRemoved.control.allowReenrolment .saved "laptop" "acme" "12:00").2.authoritative ∅)
      (laptopRemoved.edges 0).entries,_,hguarded.run,hguarded'.run,by decide +kernel,
    Prod.ext (by decide +kernel) rfl,by decide,Prod.ext (commit_saved (by decide +kernel) true _ _) rfl,?_⟩
  decide +kernel

end DsseCore.EnrolledInventory
