import DsseCore.GrantStore.Boundaries
import DsseCore.GrantStore.Merge

/-!
# What the edits of a transaction do to the rows

No edit changes the name, the owner, the lifetime or the request of a row, and none takes a denial back.  A row that
was valid stays valid as long as the consumptions and the boundaries that reach it fit it; the document drops invalid
rows, so this is what keeps a denial in it.
-/

namespace DsseCore.GrantStore

open Go Option
open Std (ExtTreeMap)

variable {a b g g' : Grant} {consumed boundary id : String} {rows : Map Grant}

/-- What no operation changes: name, owner, lifetime and request. -/
structure SameGrant (a b : Grant) : Prop where
  grantID : a.grantID = b.grantID
  tenantID : a.tenantID = b.tenantID
  issuedAt : a.issuedAt = b.issuedAt
  expiresAt : a.expiresAt = b.expiresAt
  request : a.authenticationRequestID = b.authenticationRequestID

theorem SameGrant.refl (g : Grant) : SameGrant g g := ⟨rfl,rfl,rfl,rfl,rfl⟩

theorem SameGrant.symm (h : SameGrant a b) : SameGrant b a :=
  ⟨h.grantID.symm,h.tenantID.symm,h.issuedAt.symm,h.expiresAt.symm,h.request.symm⟩

theorem SameGrant.trans {c : Grant} (h : SameGrant a b) (h' : SameGrant b c) : SameGrant a c :=
  ⟨h.grantID.trans h'.grantID,h.tenantID.trans h'.tenantID,h.issuedAt.trans h'.issuedAt,
    h.expiresAt.trans h'.expiresAt,h.request.trans h'.request⟩

theorem sameGrant_cloneGrant (g : Grant) : SameGrant (cloneGrant g) g := by
  constructor <;> simp

/-- The instant of a consumption lies in the lifetime of a grant that has a request. -/
def Fits (g : Grant) (consumed : String) : Prop :=
  g.authenticationRequestID ≠ "" ∧ ∃ issued expires c, Time.parseRFC3339 g.issuedAt = some issued ∧
    Time.parseRFC3339 g.expiresAt = some expires ∧ Time.parseRFC3339 consumed = some c ∧ issued ≤ c ∧ c ≤ expires

theorem Fits.congr (h : SameGrant a b) (hf : Fits b consumed) : Fits a consumed := by
  unfold Fits at hf ⊢
  rw [h.request,h.issuedAt,h.expiresAt]
  exact hf

theorem Fits.validConsumption {issued expires : Time} (hl : Lifetime g issued expires) (hf : Fits g consumed) :
    validConsumption ((g.withRevoked true).withConsumed consumed) issued expires = true := by
  obtain ⟨hreq, i, e, c, hi, he, hc, hle, hle'⟩ := hf
  obtain rfl := some.inj (hi.symm.trans hl.issuedAt)
  obtain rfl := some.inj (he.symm.trans hl.expiresAt)
  unfold GrantStore.validConsumption
  simp [hc,hreq,hle,hle']

/-- The text of a boundary that validation accepts and that can be written again. -/
def BoundaryText (boundary : String) : Prop :=
  ∃ t, Time.parseRFC3339 boundary = some t ∧ 0 < unix t ∧ t < year10000

def denied (g : Grant) (consumed boundary : String) : Grant :=
  ((g.withRevoked true).withConsumed consumed).withBoundary boundary

theorem sameGrant_denied (g : Grant) (consumed boundary : String) : SameGrant (denied g consumed boundary) g := by
  constructor <;> rfl

theorem withRevoked_eq_denied (g : Grant) : g.withRevoked true = denied g g.consumedAt g.reauthenticateAfter := rfl

theorem withConsumed_eq_denied (g : Grant) (consumed : String) :
    (g.withConsumed consumed).withRevoked true = denied g consumed g.reauthenticateAfter := rfl

theorem validateGrant_denied (hv : validateGrant g = true) (hc : consumed = g.consumedAt ∨ Fits g consumed)
    (hb : boundary = g.reauthenticateAfter ∨ BoundaryText boundary) :
    validateGrant (denied g consumed boundary) = true := by
  obtain ⟨issued, expires, h⟩ := validateGrant_iff.mp hv
  have hc' : ∃ c : Grant, validConsumption c issued expires = true ∧
      c.authenticationRequestID = g.authenticationRequestID ∧ c.consumedAt = consumed := by
    rcases hc with rfl | hf
    · exact ⟨g,h.consumption,rfl,rfl⟩
    · exact ⟨(g.withRevoked true).withConsumed consumed,hf.validConsumption h.toLifetime,rfl,rfl⟩
  have hb' : ∃ b : Grant, validBoundary b = true ∧ b.reauthenticateAfter = boundary := by
    rcases hb with rfl | ⟨t, ht, hpos, -⟩
    · exact ⟨g,h.boundary,rfl⟩
    · refine ⟨(g.withRevoked true).withBoundary boundary,?_,rfl⟩
      simp [validBoundary,ht,hpos]
  obtain ⟨c, hvc, hq, rfl⟩ := hc'
  obtain ⟨b, hvb, rfl⟩ := hb'
  exact validateGrant_iff.mpr ⟨issued,expires,h.deny hvc hq hvb⟩

structure Consumption where
  tenant : String
  id : String
  instant : String
  deriving DecidableEq

def recordedConsumptions (records : List Grant) : List Consumption :=
  records.filterMap fun r => if r.consumedAt = "" then none else some ⟨r.tenantID,r.grantID,r.consumedAt⟩

/-- A call can only consume before the expiry of the grant it expects. -/
def askedConsumption (expected : Grant) (now : Time) : List Consumption :=
  if (Time.parseRFC3339 expected.expiresAt).any fun expiry => now < expiry then
    [⟨expected.tenantID,expected.grantID,Time.formatRFC3339 now⟩]
  else []

theorem mem_recordedConsumptions {records : List Grant} {r : Grant} (hr : r ∈ records) (hc : r.consumedAt ≠ "") :
    ⟨r.tenantID,r.grantID,r.consumedAt⟩ ∈ recordedConsumptions records :=
  List.mem_filterMap.mpr ⟨r,hr,by rw [if_neg hc]⟩

theorem mem_askedConsumption {expected : Grant} {now expiry : Time}
    (he : Time.parseRFC3339 expected.expiresAt = some expiry) (hlt : now < expiry) :
    ⟨expected.tenantID,expected.grantID,Time.formatRFC3339 now⟩ ∈ askedConsumption expected now := by
  simp [askedConsumption,he,hlt]

section Books

/-- Where rows come from and where active rows come from, the consumptions that may reach a row, by owner and name, and
the rows that may not be lost.  What is said of a row does not depend on its denial. -/
structure Books where
  origin : Grant → Prop
  live : Grant → Prop
  window : String → String → String → Prop
  kept : Grant → Prop
  origin_congr : ∀ {a b}, SameGrant a b → origin b → origin a
  live_congr : ∀ {a b}, SameGrant a b → live b → live a
  kept_congr : ∀ {a b}, SameGrant a b → kept b → kept a
  /-- The consumptions that may reach a row that may not be lost fit it. -/
  fits : ∀ {g consumed}, kept g → origin g → window g.tenantID g.grantID consumed → Fits g consumed

variable (B : Books)

/-- A row under its own name that comes from where rows come from, with a consumption and a boundary that may be.  It is
valid when it is active or may not be lost. -/
structure RowOk (id : String) (g : Grant) : Prop extends SoundRow id g where
  valid : B.kept g → validateGrant g = true
  active : g.revoked = false → validateGrant g = true ∧ B.live g
  boundary : validBoundary g = true
  origin : B.origin g
  consumed : g.consumedAt ≠ "" → B.window g.tenantID id g.consumedAt

def RowsOk (rows : Map Grant) : Prop := ∀ (id : String) g, rows[id]? = some g → RowOk B id g

/-- Rows that may not be lost stay, with their identity, and denied if they were. -/
def Evolves (rows next : Map Grant) : Prop :=
  ∀ (id : String) g, rows[id]? = some g → B.kept g →
    ∃ g', next[id]? = some g' ∧ SameGrant g' g ∧ (g.revoked = true → g'.revoked = true)

/-- Rows that may be, and that carry on those that may not be lost. -/
structure Carries (rows next : Map Grant) : Prop where
  ok : RowsOk B next
  evolves : Evolves B rows next

variable {B}

theorem Evolves.refl (rows : Map Grant) : Evolves B rows rows := fun _ g hg _ => ⟨g,hg,.refl g,fun h => h⟩

theorem Evolves.trans {a b c : Map Grant} (h : Evolves B a b) (h' : Evolves B b c) : Evolves B a c := by
  intro id g hg hk
  obtain ⟨g₁, hg₁, hs₁, hr₁⟩ := h id g hg hk
  obtain ⟨g₂, hg₂, hs₂, hr₂⟩ := h' id g₁ hg₁ (B.kept_congr hs₁ hk)
  exact ⟨g₂,hg₂,hs₂.trans hs₁,fun hr => hr₂ (hr₁ hr)⟩

theorem Carries.refl (h : RowsOk B rows) : Carries B rows rows := ⟨h,.refl rows⟩

theorem Carries.trans {a b c : Map Grant} (h : Carries B a b) (h' : Carries B b c) : Carries B a c :=
  ⟨h'.ok,h.evolves.trans h'.evolves⟩

theorem RowOk.cloneGrant (h : RowOk B id g) : RowOk B id (cloneGrant g) := by
  have hs := sameGrant_cloneGrant g
  refine ⟨h.toSoundRow.cloneGrant,fun hk => ?_,fun hr => ?_,?_,B.origin_congr hs h.origin,fun hc => ?_⟩
  · rw [validateGrant_cloneGrant]
    exact h.valid (B.kept_congr hs.symm hk)
  · rw [validateGrant_cloneGrant]
    exact (h.active (by simpa using hr)).imp_right (B.live_congr hs)
  · have hb : validBoundary (GrantStore.cloneGrant g) = validBoundary g := by simp [validBoundary]
    exact hb.trans h.boundary
  · simpa using h.consumed (by simpa using hc)

theorem rowOk_of_cloneGrant (h : RowOk B id (cloneGrant g)) : RowOk B id g := by
  have hs := (sameGrant_cloneGrant g).symm
  refine ⟨⟨by simpa using h.grantID,fun k v hk => h.plain k v (by simpa using hk),
    fun t ht => h.bounded t (by simpa using ht)⟩,fun hk => ?_,fun hr => ?_,?_,B.origin_congr hs h.origin,fun hc => ?_⟩
  · rw [← validateGrant_cloneGrant]
    exact h.valid (B.kept_congr hs.symm hk)
  · rw [← validateGrant_cloneGrant]
    exact (h.active (by simpa using hr)).imp_right (B.live_congr hs)
  · have hb : validBoundary (cloneGrant g) = validBoundary g := by simp [validBoundary]
    exact hb.symm.trans h.boundary
  · simpa using h.consumed (by simpa using hc)

section

variable (h : RowsOk B rows)
include h

theorem rowsOk_cloneGrants : RowsOk B (cloneGrants rows) := by
  intro id g hg
  rw [getElem?_cloneGrants,map_eq_some_iff] at hg
  obtain ⟨g', hg', rfl⟩ := hg
  exact (h id g' hg').cloneGrant

theorem carries_cloneGrants : Carries B rows (cloneGrants rows) := by
  refine ⟨rowsOk_cloneGrants h,fun id g hg _ => ?_⟩
  exact ⟨cloneGrant g,by simp [hg],sameGrant_cloneGrant g,fun h => by simpa using h⟩

theorem carries_validRows : Carries B rows (validRows rows) := by
  constructor
  · intro id g hg
    rw [getElem?_validRows,filter_eq_some_iff] at hg
    exact h id g hg.1
  · intro id g hg hk
    exact ⟨g,by rw [getElem?_validRows,hg,filter_some,if_pos ((h id g hg).valid hk)],.refl g,fun h => h⟩

theorem carries_decode {out : Map Grant} (hout : decodeShared (encodeGrantSnapshot rows) = some out) :
    Carries B rows out := by
  obtain ⟨-, rfl⟩ := (decodeShared_encode fun id g hg => (h id g hg).plain).mp hout
  have hvalid := carries_validRows h
  exact hvalid.trans (carries_cloneGrants hvalid.ok)

theorem rowsOk_insert (hg : RowOk B id g) : RowsOk B (rows.insert id g) := by
  intro id' g' hg'
  rw [Map.getElem?_insert_eq] at hg'
  split at hg'
  · next he =>
    obtain rfl := some.inj hg'
    exact he ▸ hg
  · exact h id' g' hg'

theorem carries_insert (hok : RowOk B id g')
    (hold : ∀ g, rows[id]? = some g → B.kept g → SameGrant g' g ∧ (g.revoked = true → g'.revoked = true)) :
    Carries B rows (rows.insert id g') := by
  refine ⟨rowsOk_insert h hok,fun id' g hg hk => ?_⟩
  by_cases he : id = id'
  · subst he
    exact ⟨g',by rw [Map.getElem?_insert_eq,if_pos rfl],hold g hg hk⟩
  · exact ⟨g,by rw [Map.getElem?_insert_eq,if_neg he,hg],.refl g,fun h => h⟩

theorem carries_insert_new (hok : RowOk B id g) (hnone : rows[id]? = none) : Carries B rows (rows.insert id g) := by
  refine carries_insert h hok fun g₀ hg₀ => ?_
  rw [hnone] at hg₀
  cases hg₀

end

/-- A consumption and a boundary that may be set on a row. -/
structure MayDeny (B : Books) (id : String) (g : Grant) (consumed boundary : String) : Prop where
  consumed : consumed = g.consumedAt ∨ B.window g.tenantID id consumed
  boundary : boundary = g.reauthenticateAfter ∨ BoundaryText boundary

theorem rowOk_denied (h : RowOk B id g) (hd : MayDeny B id g consumed boundary) :
    RowOk B id (denied g consumed boundary) := by
  have hs := sameGrant_denied g consumed boundary
  refine ⟨⟨h.grantID,h.plain,fun t ht => ?_⟩,fun hk => ?_,nofun,?_,B.origin_congr hs h.origin,fun hc => ?_⟩
  · rcases hd.boundary with rfl | ⟨t', ht', -, hlt⟩
    · exact h.bounded t ht
    · obtain rfl := some.inj (ht'.symm.trans ht)
      exact hlt
  · have hk := B.kept_congr hs.symm hk
    refine validateGrant_denied (h.valid hk) (hd.consumed.imp_right fun hw => ?_) hd.boundary
    exact B.fits hk h.origin (h.grantID.symm ▸ hw)
  · rcases hd.boundary with rfl | ⟨t, ht, hpos, -⟩
    · exact validBoundary_revoked h.boundary rfl rfl
    · simp [validBoundary,denied,ht,hpos]
  rcases hd.consumed with rfl | hw
  · exact h.consumed hc
  · exact hw

theorem denied_spec (hok : RowOk B id g) (hd : MayDeny B id g consumed boundary)
    (hg' : g' = denied g consumed boundary ∨ g' = cloneGrant (denied g consumed boundary)) :
    RowOk B id g' ∧ SameGrant g' g ∧ g'.revoked = true := by
  have hdenied := rowOk_denied hok hd
  have hs := sameGrant_denied g consumed boundary
  rcases hg' with rfl | rfl
  · exact ⟨hdenied,hs,rfl⟩
  · exact ⟨hdenied.cloneGrant,(sameGrant_cloneGrant _).trans hs,by simp [denied]⟩

theorem carries_deny (h : RowsOk B rows) (hg : rows[id]? = some g) (hd : MayDeny B id g consumed boundary)
    (hg' : g' = denied g consumed boundary ∨ g' = cloneGrant (denied g consumed boundary)) :
    Carries B rows (rows.insert id g') := by
  obtain ⟨hok, hsame, hrev⟩ := denied_spec (h id g hg) hd hg'
  refine carries_insert h hok fun g₀ hg₀ _ => ?_
  obtain rfl := some.inj (hg.symm.trans hg₀)
  exact ⟨hsame,fun _ => hrev⟩

theorem RowOk.laterBoundary {id' : String} (h : RowOk B id g) (h' : RowOk B id' g') :
    laterBoundary g.reauthenticateAfter g'.reauthenticateAfter = g.reauthenticateAfter ∨
      BoundaryText (laterBoundary g.reauthenticateAfter g'.reauthenticateAfter) := by
  unfold GrantStore.laterBoundary
  split
  · next hlt =>
    have hne : g'.reauthenticateAfter ≠ "" := by
      intro he
      rw [he] at hlt
      exact absurd (boundaryTime_nonneg h.boundary) (not_le.mpr hlt)
    have hb := h'.boundary
    unfold validBoundary at hb
    rw [Bool.or_eq_true,beq_iff_eq] at hb
    have hb := hb.resolve_left hne
    cases hp : Time.parseRFC3339 g'.reauthenticateAfter with
    | none => simp [hp] at hb
    | some t =>
      simp only [hp,Bool.and_eq_true,decide_eq_true_eq] at hb
      exact .inr ⟨t,hp,hb.2,h'.bounded t hp⟩
  · exact .inl rfl

end Books

variable {B : Books}

theorem overlayDenial_eq (tenants : List String) (next : Map Grant) (key : String) (g : Grant) :
    (overlayDenial tenants next (key,g) = next ∧ ∀ old, next[g.grantID]? = some old → old.tenantID ≠ g.tenantID) ∨
      (∃ old consumed, next[g.grantID]? = some old ∧ old.tenantID = g.tenantID ∧
        (consumed = old.consumedAt ∨ g.consumedAt ≠ "" ∧ consumed = g.consumedAt) ∧
        overlayDenial tenants next (key,g) = next.insert g.grantID
          (cloneGrant (denied old consumed (laterBoundary old.reauthenticateAfter g.reauthenticateAfter)))) ∨
      (next[g.grantID]? = none ∧ g.revoked = true ∧
        overlayDenial tenants next (key,g) = next.insert g.grantID (cloneGrant g)) := by
  unfold overlayDenial
  dsimp only
  cases hn : next[g.grantID]? with
  | none =>
    dsimp only
    split
    · next hc =>
      simp only [Bool.and_eq_true] at hc
      exact .inr (.inr ⟨rfl,hc.1.1.2,rfl⟩)
    · exact .inl ⟨rfl,nofun⟩
  | some old =>
    dsimp only
    split
    · next ht =>
      refine .inr (.inl ?_)
      by_cases hc : g.consumedAt ≠ ""
      · exact ⟨old,g.consumedAt,rfl,ht,.inr ⟨hc,rfl⟩,by rw [if_pos hc]; rfl⟩
      · exact ⟨old,old.consumedAt,rfl,ht,.inl rfl,by rw [if_neg hc]; rfl⟩
    · next ht =>
      refine .inl ⟨rfl,fun old' hold => ?_⟩
      obtain rfl := some.inj hold
      exact ht

theorem overlayDenial_carries (tenants : List String) {next : Map Grant} (h : RowsOk B next) (key : String)
    (hg : RowOk B g.grantID g) : Carries B next (overlayDenial tenants next (key,g)) := by
  rcases overlayDenial_eq tenants next key g with ⟨heq, -⟩ | ⟨old, consumed, hold, ht, hcons, heq⟩ | ⟨hnone, -, heq⟩
  · rw [heq]
    exact .refl h
  · have hd : MayDeny B g.grantID old consumed (laterBoundary old.reauthenticateAfter g.reauthenticateAfter) := by
      refine ⟨hcons.imp_right ?_,(h _ old hold).laterBoundary hg⟩
      rintro ⟨hne, rfl⟩
      rw [ht]
      exact hg.consumed hne
    rw [heq]
    exact carries_deny h hold hd (.inr rfl)
  · rw [heq]
    exact carries_insert_new h (hg.cloneGrant) hnone

/-- Pending denials that may be put on the rows of a document. -/
def PendingOk (B : Books) (pending : Map Grant) : Prop :=
  ∀ (key : String) g, pending[key]? = some g → RowOk B g.grantID g

theorem overlayPending_carries {pending : Map Grant} (h : RowsOk B rows) (hp : PendingOk B pending) :
    Carries B rows (overlayPending pending rows) := by
  refine Map.foldl_toList_inv pending (.refl h) fun next hnext key g hg => ?_
  exact hnext.trans (overlayDenial_carries _ hnext.ok key (hp key g hg))

end DsseCore.GrantStore
