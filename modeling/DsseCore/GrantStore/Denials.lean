import DsseCore.GrantStore.SingleUse

/-!
# Denials stay in force

A denial lives in the rows a store shows, among its pending denials and in the document of the authority.  A store
whose pending denials are shown, and a document or a pending denial that holds the denial, together outlast every end
of a transaction, every refresh and every write of others that keeps denials.  This lasts until the grant is expired
beyond its retention, when the row may be pruned.
-/

namespace DsseCore.GrantStore

open Go Lib Store List
open Std (ExtTreeMap)

variable {rows denials pending : Map Grant} {id id' key tenant : String} {g p : Grant} {next s : Store} {α : Type}
  {edit : Edit α} {a : α} {option : SharedGrantMutation} {env : Env} {document : Option Json} {now time : Time}
  {B B' : Books}

section Inactive

def Inactive (rows : Map Grant) (id : String) : Prop := ∀ g, rows[id]? = some g → g.revoked = true

theorem Inactive.cloneGrants (h : Inactive rows id) : Inactive (cloneGrants rows) id := by
  intro g hg
  rw [getElem?_cloneGrants,Option.map_eq_some_iff] at hg
  obtain ⟨g', hg', rfl⟩ := hg
  simpa using h g' hg'

theorem inactive_insert (h : id' ≠ id → Inactive rows id) (hg : g.revoked = true) :
    Inactive (rows.insert id' g) id := by
  intro g' hg'
  rw [Map.getElem?_insert_eq] at hg'
  split at hg'
  · obtain rfl := Option.some.inj hg'
    exact hg
  · next hne => exact h hne g' hg'

/-- All rows of the name of an active row belong to one tenant. -/
def Owned (B : Books) : Prop :=
  ∀ (id : String) g p, RowOk B id g → g.revoked = false → RowOk B id p → p.tenantID = g.tenantID

theorem Owned.revoked (howned : Owned B) (hg : RowOk B id g) (hp : RowOk B id p) (hne : g.tenantID ≠ p.tenantID) :
    g.revoked = true := by
  cases hr : g.revoked with
  | true => rfl
  | false => exact absurd (howned id g p hg hr hp).symm hne

theorem overlayDenial_inactive (tenants : List String) {next : Map Grant} (h : Inactive next id) (e : String × Grant) :
    Inactive (overlayDenial tenants next e) id := by
  rcases overlayDenial_eq tenants next e.1 e.2 with ⟨heq, -⟩ | ⟨old, consumed, -, -, -, heq⟩ | ⟨-, hr, heq⟩
  · exact heq.symm ▸ h
  · rw [heq]
    exact inactive_insert (fun _ => h) (by simp [denied])
  · rw [heq]
    exact inactive_insert (fun _ => h) (by simpa using hr)

theorem overlayDenial_denies (howned : Owned B) (tenants : List String) {next : Map Grant} (h : RowsOk B next)
    (key : String) (hp : RowOk B p.grantID p) : Inactive (overlayDenial tenants next (key,p)) p.grantID := by
  rcases overlayDenial_eq tenants next key p with ⟨heq, hne⟩ | ⟨old, consumed, -, -, -, heq⟩ | ⟨-, hr, heq⟩
  · rw [heq]
    intro g hg
    exact howned.revoked (h _ g hg) hp (hne g hg)
  · rw [heq]
    exact inactive_insert (absurd rfl) (by simp [denied])
  · rw [heq]
    exact inactive_insert (absurd rfl) (by simpa using hr)

theorem overlayPending_denies (howned : Owned B) (h : RowsOk B rows) (hp : PendingOk B pending)
    (hkey : pending[key]? = some p) : Inactive (overlayPending pending rows) p.grantID := by
  have hok : ∀ e ∈ pending.toList, RowOk B e.2.grantID e.2 :=
    fun e he => hp e.1 e.2 (ExtTreeMap.mem_toList_iff_getElem?_eq_some.mp he)
  -- the fold passes the denial, and keeps its name inactive from there on
  refine Map.foldl_of_mem (P := RowsOk B) (Q := (Inactive · p.grantID))
    (ExtTreeMap.mem_toList_iff_getElem?_eq_some.mpr hkey) h ?_ ?_ ?_
  · exact fun next hnext e he => (overlayDenial_carries _ hnext e.1 (hok e he)).ok
  · exact fun next _ hnext e _ => overlayDenial_inactive _ hnext e
  · exact fun next hnext => overlayDenial_denies howned _ hnext key (hp key p hkey)

def KeyedDenials (pending : Map Grant) : Prop :=
  ∀ (key : String) g, pending[key]? = some g → key = pendingGrantKey g.tenantID g.grantID ∧ g.revoked = true

theorem newDenials_keyed (before : Map Grant) {after : Map Grant} (h : RowsOk B after) :
    KeyedDenials (newDenials before after) := by
  intro key g hg
  obtain ⟨id, g', hg', hnew, rfl, rfl⟩ := getElem?_newDenials hg
  unfold isNewDenial at hnew
  rw [Bool.and_eq_true] at hnew
  rw [cloneGrant_grantID,(h id g' hg').grantID]
  exact ⟨rfl,hnew.1⟩

theorem refusedDenials_keyed (s : Store) (option : SharedGrantMutation) : KeyedDenials (s.refusedDenials option) := by
  intro key g' hg'
  obtain ⟨g, -, -, rfl, hcases⟩ := getElem?_refusedDenials hg'
  rcases hcases with rfl | ⟨t, -, rfl⟩
  · exact ⟨rfl,rfl⟩
  · simp [denied]

variable {e : String × Grant}

theorem latchRow_inactive (h : Inactive rows id) (he : e.2.revoked = true) : Inactive (latchRow rows e) id := by
  have hinsert := @inactive_insert rows id e.2.grantID (cloneGrant e.2) (fun _ => h) (by simpa using he)
  unfold latchRow
  split
  · split
    · exact hinsert
    · exact h
  · exact hinsert

theorem latchRow_denies (howned : Owned B) (h : RowsOk B rows) (hok : RowOk B e.2.grantID e.2)
    (he : e.2.revoked = true) : Inactive (latchRow rows e) e.2.grantID := by
  have hinsert := @inactive_insert rows e.2.grantID e.2.grantID (cloneGrant e.2) (absurd rfl) (by simpa using he)
  unfold latchRow
  split
  · next old hold =>
    split
    · exact hinsert
    rename_i hne
    intro g hg
    obtain rfl := Option.some.inj (hold.symm.trans hg)
    exact howned.revoked (h _ old hold) hok hne
  · exact hinsert

variable {grants : Map Grant}

theorem latchedRows_inactive (hd : KeyedDenials denials) (h : Inactive grants id) :
    Inactive (latchedRows grants denials) id :=
  Map.foldl_toList_inv (P := (Inactive · id)) denials h.cloneGrants fun _ hrows key g hg => latchRow_inactive hrows (hd key g hg).2

theorem latchedRows_denies (howned : Owned B) (h : RowsOk B grants) (hp : PendingOk B denials)
    (hd : KeyedDenials denials) (hkey : denials[key]? = some p) :
    Inactive (latchedRows grants denials) p.grantID := by
  have hdenial : ∀ e ∈ denials.toList, RowOk B e.2.grantID e.2 ∧ e.2.revoked = true := by
    intro e he
    have hget := ExtTreeMap.mem_toList_iff_getElem?_eq_some.mp he
    exact ⟨hp e.1 e.2 hget,(hd e.1 e.2 hget).2⟩
  refine Map.foldl_of_mem (P := RowsOk B) (Q := (Inactive · p.grantID))
    (ExtTreeMap.mem_toList_iff_getElem?_eq_some.mpr hkey) (rowsOk_cloneGrants h) ?_ ?_ ?_
  · exact fun rows hrows e he => latchRow_ok hrows (hdenial e he).1
  · exact fun rows _ hrows e he => latchRow_inactive hrows (hdenial e he).2
  · exact fun rows hrows => latchRow_denies howned hrows (hp key p hkey) (hd key p hkey).2

end Inactive

section Sealed

structure Sealed (B : Books) (s : Store) : Prop extends StoreOk B s where
  keyed : KeyedDenials s.pending
  latched : ∀ (key : String) p, s.pending[key]? = some p → Inactive s.grants p.grantID

theorem Sealed.observing (h : Sealed B s) (b : Bool) : Sealed B (s.observing b) :=
  ⟨h.toStoreOk.observing b,h.keyed,h.latched⟩

theorem latchAny_inactive (hd : KeyedDenials denials) (h : Inactive s.grants id) :
    Inactive (s.latchAny denials).grants id := by
  unfold latchAny
  split
  · exact h
  · rw [latchDenialsLocked_grants]
    exact (latchedRows_inactive hd h).cloneGrants

theorem latchAny_pending (s : Store) (denials : Map Grant) (key : String) :
    (s.latchAny denials).pending[key]? = (denials[key]?.map cloneGrant).or s.pending[key]? := by
  unfold latchAny
  split
  · next hempty =>
    rw [ExtTreeMap.isEmpty_iff] at hempty
    simp [hempty]
  · rw [latchDenialsLocked_pending,getElem?_latchedPending]

theorem latchAny_sealed (howned : Owned B) (h : Sealed B s) (hp : PendingOk B denials) (hd : KeyedDenials denials) :
    Sealed B (s.latchAny denials) := by
  refine ⟨latchAny_ok h.toStoreOk hp,fun key g hg => ?_,fun key p hkey => ?_⟩
  · rw [latchAny_pending,Option.or_eq_some_iff,Option.map_eq_some_iff] at hg
    rcases hg with ⟨g', hg', rfl⟩ | ⟨-, hg⟩
    · simpa using hd key g' hg'
    · exact h.keyed key g hg
  · rw [latchAny_pending,Option.or_eq_some_iff,Option.map_eq_some_iff] at hkey
    rcases hkey with ⟨p', hp', rfl⟩ | ⟨-, hold⟩
    · unfold latchAny
      split
      · next hempty =>
        rw [ExtTreeMap.isEmpty_iff] at hempty
        simp [hempty] at hp'
      · rw [latchDenialsLocked_grants]
        exact (latchedRows_denies howned h.rows hp hd hp').cloneGrants
    · exact latchAny_inactive hd (h.latched key p hold)

theorem not_revived (h : revivesPending pending rows = false) (hkey : pending[key]? = some p)
    (hg : rows[p.grantID]? = some g) (ht : g.tenantID = p.tenantID) : g.revoked = true := by
  unfold revivesPending at h
  rw [any_eq_false] at h
  have hno := h (key,p) (ExtTreeMap.mem_toList_iff_getElem?_eq_some.mpr hkey)
  simpa [hg,ht] using hno

variable {σ : Type} {A : Authority σ} {row : σ}

theorem Edited.rowsOk (hs : StoreOk B s) (hd : DocumentOk B A row) (h : Edited A s row edit rows next a) :
    RowsOk B rows := by
  obtain ⟨raw, authority, hread, hrows, rfl⟩ := h.source
  exact (overlayPending_carries (authorityRows_ok hs hd hread hrows) hs.pending).ok

theorem Edited.inactive (howned : Owned B) (hs : StoreOk B s) (h : Edited A s row edit rows next a)
    (hnext : RowsOk B next.grants) (hkey : s.pending[key]? = some p) : Inactive next.grants p.grantID := by
  intro g hg
  by_cases ht : g.tenantID = p.tenantID
  · exact not_revived h.denied hkey hg ht
  · exact howned.revoked (hnext _ g hg) (hs.pending key p hkey) ht

theorem mutateShared_sealed (howned : Owned B) (hs : Sealed B s) (hd : DocumentOk B A row) (hedit : EditOk B edit)
    (hdated : option.Dated) (o : Outcome) (clock : Time) :
    Sealed B (s.mutateShared A row edit option o clock).store := by
  have hends := mutateShared_ends A s row edit option o clock
  generalize s.mutateShared A row edit option o clock = m at hends ⊢
  cases hends with
  | refused => exact latchAny_sealed howned hs (refusedDenials_ok hs.toStoreOk hdated) (refusedDenials_keyed s option)
  | stopped b e => exact hs.observing b
  | @failed rows next a h b row' hrow =>
    have hnext := hedit rows next a (h.rowsOk hs.toStoreOk hd) h.edit
    have hp := newDenials_ok rows hnext
    have hk := newDenials_keyed rows hnext
    exact latchAny_sealed howned ((latchAny_sealed howned hs hp hk).observing b) hp hk
  | @committed rows next a h b row' ho hrow =>
    have hnext := hedit rows next a (h.rowsOk hs.toStoreOk hd) h.edit
    have hlatched := (latchAny_sealed howned hs (newDenials_ok rows hnext) (newDenials_keyed rows hnext)).observing b
    have hpending : ∀ (key : String) p,
        (((s.latchAny (newDenials rows next.grants)).observing b).adoptCommitted next.grants option clock).pending[key]? =
          some p → ((s.latchAny (newDenials rows next.grants)).observing b).pending[key]? = some p := by
      intro key p hkey
      unfold adoptCommitted at hkey
      rw [ExtTreeMap.getElem?_filter',Option.filter_eq_some_iff,publishLocked_pending] at hkey
      exact hkey.1
    refine ⟨adoptCommitted_ok hlatched.toStoreOk hnext option clock,fun key p hkey => hlatched.keyed key p (hpending key p hkey),
      fun key p hkey => ?_⟩
    rw [adoptCommitted_grants]
    refine Inactive.cloneGrants ?_
    have hold := hpending key p hkey
    have hold : (s.latchAny (newDenials rows next.grants)).pending[key]? = some p := hold
    rw [latchAny_pending,Option.or_eq_some_iff,Option.map_eq_some_iff] at hold
    rcases hold with ⟨p', hp', rfl⟩ | ⟨-, hold⟩
    · obtain ⟨id, g', hg', hnew, -, rfl⟩ := getElem?_newDenials hp'
      unfold isNewDenial at hnew
      rw [Bool.and_eq_true] at hnew
      intro g hg
      rw [cloneGrant_grantID,cloneGrant_grantID,(hnext id g' hg').grantID] at hg
      obtain rfl := Option.some.inj (hg'.symm.trans hg)
      exact hnew.1
    · exact h.inactive howned hs.toStoreOk hnext hold

end Sealed

section Durable

def DocumentRow (document : Option Json) (id : String) (g : Grant) : Prop :=
  ∃ raw rows, document = some raw ∧ snapshotRows raw = some rows ∧ rows[id]? = some g

/-- The document denies the grant with a valid row that expires with it. -/
def DocumentDenies (document : Option Json) (id expiry : String) : Prop :=
  ∃ g, DocumentRow document id g ∧ g.revoked = true ∧ validateGrant g = true ∧ g.expiresAt = expiry

def Durable (s : Store) (document : Option Json) (tenant id expiry : String) : Prop :=
  DocumentDenies document id expiry ∨ (s.pending[pendingGrantKey tenant id]?).isSome = true

/-- The denial of a grant is in force and outlasts the rows of the store. -/
structure Denies (s : Store) (document : Option Json) (tenant id expiry : String) : Prop where
  inactive : Inactive s.grants id
  durable : Durable s document tenant id expiry

/-- What the books say of a grant: one owner, one expiry, a name of its own among the pending keys, and rows that may
not be lost. -/
structure Followed (B : Books) (tenant id expiry : String) : Prop where
  owner : ∀ g, RowOk B id g → g.tenantID = tenant
  expiresAt : ∀ g, RowOk B id g → g.expiresAt = expiry
  key : ∀ t p, RowOk B p.grantID p → pendingGrantKey p.tenantID p.grantID = pendingGrantKey t id → p.grantID = id
  kept : ∀ g, RowOk B id g → B.kept g
  only : ∀ g, B.kept g → g.grantID = id

variable {expiry : String}

theorem DocumentDenies.loaded (h : DocumentDenies document id expiry) (hrows : loadedRows document = some rows) :
    ∃ g, rows[id]? = some g ∧ g.revoked = true := by
  obtain ⟨g, ⟨raw, all, rfl, hall, hg⟩, hr, hv, -⟩ := h
  obtain ⟨all', hall', -, rfl⟩ := decodeShared_eq_some.mp hrows
  obtain rfl := Option.some.inj (hall.symm.trans hall')
  exact ⟨g,by rw [getElem?_validRows,hg,Option.filter_some,if_pos hv],hr⟩

theorem documentDenies_encode (h : RowsOk B rows) (hg : rows[id]? = some g) (hk : B.kept g) (hr : g.revoked = true)
    (he : g.expiresAt = expiry) : DocumentDenies (some (encodeGrantSnapshot rows)) id expiry := by
  refine ⟨cloneGrant g,⟨_,_,rfl,snapshotRows_encode fun id g hg => (h id g hg).plain,?_⟩,by simpa using hr,?_,
    by simpa using he⟩
  · rw [getElem?_cloneGrants,hg,Option.map_some]
  · rw [validateGrant_cloneGrant]
    exact (h id g hg).valid hk

theorem Sealed.pending_of_key (h : Sealed B s) (hf : Followed B tenant id expiry)
    (hkey : (s.pending[pendingGrantKey tenant id]?).isSome = true) :
    ∃ p, s.pending[pendingGrantKey tenant id]? = some p ∧ p.grantID = id := by
  obtain ⟨p, hp⟩ := Option.isSome_iff_exists.mp hkey
  exact ⟨p,hp,hf.key tenant p (h.pending _ p hp) (h.keyed _ p hp).1.symm⟩

theorem Durable.overlay (howned : Owned B) (hs : Sealed B s) (hf : Followed B tenant id expiry)
    (h : Durable s document tenant id expiry) (hok : RowsOk B rows) (hrows : loadedRows document = some rows) :
    Inactive (overlayPending s.pending rows) id := by
  rcases h with hdoc | hkey
  · obtain ⟨g, hg, hr⟩ := hdoc.loaded hrows
    have hc := overlayPending_carries hok hs.pending
    obtain ⟨g', hg', -, hr'⟩ := hc.evolves id g hg (hf.kept g (hok id g hg))
    intro g'' hg''
    obtain rfl := Option.some.inj (hg'.symm.trans hg'')
    exact hr' hr
  · obtain ⟨p, hp, hid⟩ := hs.pending_of_key hf hkey
    exact hid ▸ overlayPending_denies howned hok hs.pending hp

theorem authorityRows_loaded {raw : Option Json} {authority : Map Grant} (h : s.authorityRows raw = .ok authority) :
    loadedRows raw = some authority ∨ raw = none := by
  cases raw with
  | none => exact .inr rfl
  | some raw =>
    refine .inl ?_
    unfold authorityRows at h
    dsimp only at h
    split at h
    · next rows hdec =>
      obtain rfl := Except.ok.inj h
      exact hdec
    · cases h

section

variable (h : Edited blobAuthority s document edit rows next a) (howned : Owned B) (hs : Sealed B s)
  (hd : DocumentOk B blobAuthority document) (hedit : EditCarries B edit) (hf : Followed B tenant id expiry)
  (hdurable : Durable s document tenant id expiry)
include h howned hs hd hedit hf hdurable

theorem Edited.denies : (∃ g, next.grants[id]? = some g ∧ g.revoked = true) ∨
      (next.grants[id]? = none ∧ (s.pending[pendingGrantKey tenant id]?).isSome = true) := by
  obtain ⟨hrows, hc⟩ := h.carries hs.toStoreOk hd hedit
  -- a denied row that is shown is carried on
  have hcarried : ∀ g, rows[id]? = some g → g.revoked = true →
      ∃ g, next.grants[id]? = some g ∧ g.revoked = true := by
    intro g hg hr
    obtain ⟨g', hg', -, hr'⟩ := hc.evolves id g hg (hf.kept g (hrows id g hg))
    exact ⟨g',hg',hr' hr⟩
  rcases hdurable with hdoc | hkey
  · obtain ⟨raw, authority, hread, hauthority, rfl⟩ := h.source
    obtain rfl := Except.ok.inj hread
    rcases authorityRows_loaded hauthority with hloaded | rfl
    · obtain ⟨g, hg, hr⟩ := hdoc.loaded hloaded
      have hok := authorityRows_ok hs.toStoreOk hd hread hauthority
      obtain ⟨g', hg', -, hr'⟩ := (overlayPending_carries hok hs.pending).evolves id g hg (hf.kept g (hok id g hg))
      exact .inl (hcarried g' hg' (hr' hr))
    · obtain ⟨g, ⟨raw, all, hnone, -⟩, -⟩ := hdoc
      cases hnone
  · obtain ⟨p, hp, hid⟩ := hs.pending_of_key hf hkey
    cases hg : next.grants[id]? with
    | none => exact .inr ⟨rfl,hkey⟩
    | some g => exact .inl ⟨g,rfl,h.inactive howned hs.toStoreOk hc.ok hp g (hid.symm ▸ hg)⟩

theorem Edited.written :
    Inactive next.grants id ∧ (DocumentDenies (some (encodeGrantSnapshot next.grants)) id expiry ∨
      (next.grants[id]? = none ∧ (s.pending[pendingGrantKey tenant id]?).isSome = true)) := by
  have hok := (h.carries hs.toStoreOk hd hedit).2.ok
  rcases h.denies howned hs hd hedit hf hdurable with ⟨g, hg, hr⟩ | ⟨hnone, hkey⟩
  · refine ⟨fun g' hg' => ?_,.inl (documentDenies_encode hok hg (hf.kept g (hok id g hg)) hr (hf.expiresAt g (hok id g hg)))⟩
    obtain rfl := Option.some.inj (hg.symm.trans hg')
    exact hr
  · exact ⟨fun g' hg' => (by rw [hnone] at hg'; cases hg'),.inr ⟨hnone,hkey⟩⟩

end

theorem latchAny_isSome (h : (s.pending[key]?).isSome = true) (denials : Map Grant) :
    ((s.latchAny denials).pending[key]?).isSome = true := by
  rw [latchAny_pending]
  cases denials[key]? with
  | none => exact h
  | some g => rfl

theorem Denies.latchAny (h : Denies s document tenant id expiry) (hd : KeyedDenials denials) :
    Denies (s.latchAny denials) document tenant id expiry :=
  ⟨latchAny_inactive hd h.inactive,h.durable.imp_right fun hkey => latchAny_isSome hkey denials⟩

theorem adoptCommitted_pending {clock : Time} (hp : s.pending[key]? = some p) (hnone : rows[p.grantID]? = none)
    (herase : option.eraseTenant = "" ∨ p.tenantID ≠ option.eraseTenant) :
    (s.adoptCommitted rows option clock).pending[key]? = some p := by
  unfold adoptCommitted
  rw [ExtTreeMap.getElem?_filter',publishLocked_pending,hp]
  rcases herase with he | he
  · simp [confirms,hnone,he]
  · simp [confirms,hnone,he]

theorem mutateShared_denies (howned : Owned B) (hs : Sealed B s) (hd : DocumentOk B blobAuthority document)
    (hedit : EditOk B edit) (hf : Followed B tenant id expiry) {o : Outcome}
    (hwrites : o = .commit ∨ o = .unconfirmed → EditCarries B edit ∧ (option.eraseTenant = "" ∨ option.eraseTenant ≠ tenant))
    (clock : Time) (h : Denies s document tenant id expiry) :
    Denies (s.mutateShared blobAuthority document edit option o clock).store
      (s.mutateShared blobAuthority document edit option o clock).row tenant id expiry := by
  have hends := mutateShared_ends blobAuthority s document edit option o clock
  generalize s.mutateShared blobAuthority document edit option o clock = m at hends ⊢
  cases hends with
  | refused => exact h.latchAny (refusedDenials_keyed s option)
  | stopped b e => exact ⟨h.inactive,h.durable⟩
  | @failed rows next a he b document' hrow =>
    have hk := newDenials_keyed rows (hedit rows next a (he.rowsOk hs.toStoreOk hd) he.edit)
    have hlatched : Denies (((s.latchAny (newDenials rows next.grants)).observing b).latchAny (newDenials rows next.grants))
        document tenant id expiry := by
      have hfirst := h.latchAny hk
      have hobserved : Denies ((s.latchAny (newDenials rows next.grants)).observing b) document tenant id expiry :=
        ⟨hfirst.inactive,hfirst.durable⟩
      exact hobserved.latchAny hk
    rcases hrow with rfl | ⟨ho, hwrite⟩
    · exact hlatched
    obtain rfl := Except.ok.inj hwrite
    obtain ⟨-, hdoc | ⟨-, hkey⟩⟩ := he.written howned hs hd (hwrites (.inr ho)).1 hf h.durable
    · exact ⟨hlatched.inactive,.inl hdoc⟩
    have hfirst := latchAny_isSome hkey (newDenials rows next.grants)
    have hobserved : (((s.latchAny (newDenials rows next.grants)).observing b).pending[pendingGrantKey tenant id]?).isSome =
      true := hfirst
    exact ⟨hlatched.inactive,.inr (latchAny_isSome hobserved _)⟩
  | @committed rows next a he b document' ho hwrite =>
    obtain rfl := Except.ok.inj hwrite
    obtain ⟨hcarries, herase⟩ := hwrites (.inl ho)
    obtain ⟨hinactive, hdurable⟩ := he.written howned hs hd hcarries hf h.durable
    refine ⟨?_,hdurable.imp_right ?_⟩
    · rw [adoptCommitted_grants]
      exact hinactive.cloneGrants
    rintro ⟨hnone, hkey⟩
    have hnext := (he.carries hs.toStoreOk hd hcarries).2.ok
    have hsealed := (latchAny_sealed howned hs (newDenials_ok rows hnext) (newDenials_keyed rows hnext)).observing b
    have hfirst := latchAny_isSome hkey (newDenials rows next.grants)
    obtain ⟨p, hp, hid⟩ := hsealed.pending_of_key hf hfirst
    have howner : p.tenantID = tenant := hf.owner p (hid ▸ hsealed.pending _ p hp)
    refine Option.isSome_iff_exists.mpr ⟨p,adoptCommitted_pending hp (hid.symm ▸ hnone) (herase.imp_right fun hne => ?_)⟩
    rw [howner]
    exact hne.symm

end Durable

section Reports

theorem pendingGrantKey_left {a b : String} (h : pendingGrantKey a id = pendingGrantKey b id) : a = b := by
  have hlist := congrArg String.toList h
  simp only [pendingGrantKey,String.toList_append,append_cancel_right_eq] at hlist
  exact String.toList_inj.mp hlist

theorem nul_not_mem {s : String} (h : validIdentifier s = true) : '\x00' ∉ s.toList := by
  unfold validIdentifier at h
  simp only [Bool.and_eq_true,Bool.not_eq_true',contains_eq_mem,decide_eq_false_iff_not] at h
  exact h.2

theorem revokeEdit_found (h : revokeEdit (trimSpace tenant) (trimSpace id) (candidateStore rows) = .ok (next,some g)) :
    ∃ g', next.grants[trimSpace id]? = some g' ∧ g'.revoked = true ∧ g'.tenantID = trimSpace tenant := by
  obtain ⟨rfl, hgrant⟩ := editDenial_ok h
  unfold revokeForTenantLocal at hgrant ⊢
  simp only [trimSpace_trimSpace] at hgrant ⊢
  split at hgrant
  · cases hgrant
  rename_i hne
  rw [if_neg hne]
  cases hg : (candidateStore rows).grants[trimSpace id]? with
  | none =>
    rw [hg] at hgrant
    cases hgrant
  | some g' =>
    rw [hg] at hgrant
    dsimp only at hgrant ⊢
    split at hgrant
    · next ht =>
      rw [if_pos ht]
      cases hr : g'.revoked with
      | false =>
        rw [revokeLocked_active _ _ hg hr]
        exact ⟨g'.withRevoked true,by rw [Map.getElem?_insert_eq,if_pos rfl],rfl,ht⟩
      | true =>
        refine ⟨g',?_,hr,ht⟩
        unfold revokeLocked persistLocked
        rw [hg]
        simp only [hr]
        split <;> exact hg
    · cases hgrant

theorem requireReauthenticationEdit_found (env : Env) (hrows : RowsOk B rows) (hw : Time.Writable now)
    (hsynthetic : env.threshold ≠ 0 → Synthetic B env tenant now) (hret : env.threshold ≠ 0 → Retained B tenant now)
    (hkept : ∀ g, RowOk B id g → B.kept g)
    (h : requireReauthenticationEdit env tenant id now (candidateStore rows) = .ok (next,some g)) :
    ∃ g', next.grants[id]? = some g' ∧ g'.revoked = true ∧ g'.tenantID = tenant := by
  obtain ⟨rfl, hgrant⟩ := editDenial_ok h
  have hpersist : ∀ s : Store, (s.persistLocked .saved).1.grants = s.grants := by
    intro s
    unfold persistLocked
    split <;> rfl
  unfold requireReauthenticationLocal at hgrant ⊢
  cases hg : (candidateStore rows).grants[id]? with
  | none =>
    rw [hg] at hgrant
    cases hgrant
  | some g₀ =>
    have hrow := hrows id g₀ hg
    rw [hg] at hgrant
    dsimp only at hgrant ⊢
    split_ifs at hgrant ⊢ with htenant hboundary hnow
    · rw [not_or,not_le] at hnow
      have hdenied := denied_spec hrow ⟨.inl rfl,.inr (boundaryText_format hw hnow.2)⟩
        (.inr (rfl : cloneGrant ((g₀.withRevoked true).withBoundary (Time.formatRFC3339Nano now)) = _))
      generalize cloneGrant ((g₀.withRevoked true).withBoundary (Time.formatRFC3339Nano now)) = g' at hdenied ⊢
      obtain ⟨hok, hsame, hr⟩ := hdenied
      rw [hpersist]
      have hrows' : RowsOk B ((candidateStore rows).withGrants
          ((candidateStore rows).grants.insert id g')).rebuildReauthenticationIndexLocked.grants :=
        rowsOk_insert hrows hok
      have hevolves := (consolidate_carries env hrows' rfl hsynthetic hret).evolves id g'
        (by exact (Map.getElem?_insert_eq ..).trans (if_pos rfl)) (hkept g' hok)
      obtain ⟨g'', hg'', hsame', hr'⟩ := hevolves
      exact ⟨g'',hg'',hr' hr,hsame'.tenantID.trans (hsame.tenantID.trans (not_not.mp htenant))⟩
    · refine ⟨g₀,by rw [hpersist]; exact hg,?_,not_not.mp htenant⟩
      have hb := hrow.boundary
      unfold validBoundary at hb
      rw [Bool.or_eq_true,beq_iff_eq] at hb
      have hb := hb.resolve_left hboundary
      split at hb
      · exact (Bool.and_eq_true_iff.mp hb).1
      · cases hb

variable {edit : Edit (Option Grant)} {expiry : String}

theorem report_denies (howned : Owned B) (hs : Sealed B s) (hd : DocumentOk B blobAuthority document)
    (hedit : EditCarries B edit) (hf : Followed B tenant id expiry) (hdated : option.Dated) (o : Outcome)
    (clock : Time) {t : String}
    (hfound : ∀ rows next g, RowsOk B rows → edit (candidateStore rows) = .ok (next,some g) → ∃ g', next.grants[id]? = some g' ∧ g'.revoked = true ∧ g'.tenantID = t)
    {applies : Grant → Bool}
    (hreport : (denialReport (pendingGrantKey t id) applies (s.mutateShared blobAuthority document edit option o clock)).grant.isSome = true) :
    t = tenant ∧ Denies (s.mutateShared blobAuthority document edit option o clock).store
      (s.mutateShared blobAuthority document edit option o clock).row tenant id expiry := by
  have hsealed := mutateShared_sealed howned hs hd hedit.editOk hdated o clock
  have hends := mutateShared_ends blobAuthority s document edit option o clock
  generalize s.mutateShared blobAuthority document edit option o clock = m at hends hsealed hreport ⊢
  -- an error with a report means that the denial is pending
  have hpending : ∀ e, m.err = some e → t = tenant ∧ Denies m.store m.row tenant id expiry := by
    intro e he
    unfold denialReport at hreport
    rw [he] at hreport
    simp only [Option.isSome_map] at hreport
    obtain ⟨p, hp⟩ := Option.isSome_iff_exists.mp hreport
    have hkey := (Option.filter_eq_some_iff.mp hp).1
    have hid := hf.key t p (hsealed.pending _ p hkey) (hsealed.keyed _ p hkey).1.symm
    have howner : p.tenantID = tenant := hf.owner p (hid ▸ hsealed.pending _ p hkey)
    have ht : t = tenant := by
      have hk := (hsealed.keyed _ p hkey).1
      rw [howner,hid] at hk
      exact pendingGrantKey_left hk
    subst ht
    refine ⟨rfl,hid ▸ hsealed.latched _ p hkey,.inr ?_⟩
    rw [hkey]
    rfl
  cases hends with
  | refused => exact hpending _ rfl
  | stopped b e => exact hpending _ rfl
  | failed h b hrow => exact hpending _ rfl
  | @committed rows next a h b document' ho hwrite =>
    obtain ⟨hrows, hc⟩ := h.carries hs.toStoreOk hd hedit
    cases a with
    | none => cases hreport
    | some g =>
      obtain ⟨g', hg', hr, ht⟩ := hfound rows next g hrows h.edit
      have hok := hc.ok id g' hg'
      obtain rfl := Except.ok.inj hwrite
      refine ⟨ht.symm.trans (hf.owner g' hok),?_,.inl (documentDenies_encode hc.ok hg' (hf.kept g' hok) hr (hf.expiresAt g' hok))⟩
      rw [adoptCommitted_grants]
      refine Inactive.cloneGrants fun g'' hg'' => ?_
      obtain rfl := Option.some.inj (hg'.symm.trans hg'')
      exact hr

end Reports

structure Node where
  store : Store
  document : Option Json
  time : Time

def Node.after {α : Type} (r : Store × Option Json × α) (time : Time) : Node := ⟨r.1,r.2.1,time⟩

/-- What happens to a process and its document.  A merge of reports is the refreshes and the transactions it makes. -/
inductive DenialOp where
  | mint (g : Grant) (ttl : Int) (now : Time)
  | merge (incoming : List Grant) (now : Time)
  | consume (expected : Grant) (now : Time)
  | revoke (tenant id : String) (report : Denial)
  | requireReauthentication (tenant id : String) (now : Time) (report : Denial)
  | refresh
  | prune (now : Time)
  | removeTenant (tenant : String) (o : Outcome)
  | write (document : Option Json) (now : Time)

/-- Other writers leave a valid denial, valid and with its expiry, until it is expired beyond its retention. -/
def KeepsDenials (document document' : Option Json) (now : Time) : Prop :=
  ∀ (id : String) g, DocumentRow document id g → g.revoked = true → validateGrant g = true →
    expiredBeyondRetention g now = false → DocumentDenies document' id g.expiresAt

/-- One operation, with any end of its transaction, or a write of others.  The times never decrease. -/
inductive NodeStep (env : Env) : Node → DenialOp → Node → Prop
  | mint {n : Node} (io : Io) (g : Grant) (ttl : Int) (now : Time) (h : n.time ≤ now) :
    NodeStep env n (.mint g ttl now) (.after (n.store.mintContext blobAuthority n.document io g ttl now) now)
  | merge {n : Node} (io : Io) (incoming : List Grant) (now : Time) (h : n.time ≤ now) :
    NodeStep env n (.merge incoming now)
      (.after (n.store.mergeTransaction blobAuthority n.document io incoming now false) now)
  | consume {n : Node} (io : Io) (expected : Grant) (now : Time) (h : n.time ≤ now) :
    NodeStep env n (.consume expected now)
      (.after (n.store.consumeAuthenticationRequest blobAuthority n.document io expected now) now)
  | revoke {n : Node} (io : Io) (tenant id : String) :
    NodeStep env n
      (.revoke tenant id (n.store.revokeForTenantContext blobAuthority n.document io tenant id).2.2)
      (.after (n.store.revokeForTenantContext blobAuthority n.document io tenant id) n.time)
  | requireReauthentication {n : Node} (io : Io) (tenant id : String) (now : Time) (h : n.time ≤ now) :
    NodeStep env n
      (.requireReauthentication tenant id now
        (n.store.requireReauthenticationForTenantContext env blobAuthority n.document io tenant id now).2.2)
      (.after (n.store.requireReauthenticationForTenantContext env blobAuthority n.document io tenant id now) now)
  | refresh {n : Node} (answer : LoadAnswer) (clock : Time)
    (h : ∀ raw, answer = .loaded raw → raw = n.document) :
    NodeStep env n .refresh ⟨(n.store.refreshShared answer clock).1,n.document,n.time⟩
  | prune {n : Node} (io : Io) (now : Time) (h : n.time ≤ now) :
    NodeStep env n (.prune now) (.after (n.store.pruneExpired blobAuthority n.document io now) now)
  | removeTenant {n : Node} (io : Io) (tenant : String) :
    NodeStep env n (.removeTenant tenant io.outcome)
      (.after (n.store.removeTenantContext blobAuthority n.document io tenant) n.time)
  | write {n : Node} (document : Option Json) (now : Time) (h : n.time ≤ now)
    (hkeeps : KeepsDenials n.document document now) : NodeStep env n (.write document now) ⟨n.store,document,now⟩

/-- The target of a denial that reported to have found it, with an error or without. -/
def DenialOp.found : DenialOp → Option (String × String)
  | revoke tenant id report => if report.grant.isSome then some (tenant,id) else none
  | requireReauthentication tenant id _ report => if report.grant.isSome then some (tenant,id) else none
  | _ => none

def DenialOp.Removes (op : DenialOp) (tenant : String) : Prop :=
  ∃ t o, op = .removeTenant t o ∧ (o = .commit ∨ o = .unconfirmed) ∧ trimSpace t = tenant

def documentRecords (document : Option Json) : List Grant :=
  match document.bind decodeShared with
  | some rows => rows.toList.map Prod.snd
  | none => []

def DenialOp.records : DenialOp → List Grant
  | mint g ttl now => [mintRecord g ttl now]
  | merge incoming _ => incoming
  | write document _ => documentRecords document
  | _ => []

def brought (document : Option Json) (ops : List DenialOp) : List Grant :=
  documentRecords document ++ ops.flatMap DenialOp.records

def DenialOp.consumptions : DenialOp → List Consumption
  | consume expected now => askedConsumption expected now
  | _ => []

def consumptionsIn (document : Option Json) (ops : List DenialOp) : List Consumption :=
  recordedConsumptions (brought document ops) ++ ops.flatMap DenialOp.consumptions

/-- The runs in which a denial is kept: no record has an unknown name that is read as a field or a boundary that cannot
be written again, a name has one owner and one expiry, every consumption of a grant lies in the lifetime of each of its
records, and the names of synthetic fences are identifiers of their own. -/
structure Coherent (env : Env) (document : Option Json) (ops : List DenialOp) : Prop where
  plain : ∀ r ∈ brought document ops, Plain r
  bounded : ∀ r ∈ brought document ops, ∀ t, Time.parseRFC3339 r.reauthenticateAfter = some t → t < year10000
  owner : ∀ r ∈ brought document ops, ∀ r' ∈ brought document ops, validateGrant r = true → validateGrant r' = true →
    r.grantID = r'.grantID → r.tenantID = r'.tenantID ∧ r.expiresAt = r'.expiresAt
  fits : ∀ r ∈ brought document ops, validateGrant r = true → ∀ c ∈ consumptionsIn document ops,
    c.tenant = r.tenantID → c.id = r.grantID → Fits r c.instant
  synthetic : env.threshold ≠ 0 → ∀ tenant n, validIdentifier (env.boundaryID tenant n) = true ∧
    ∀ r ∈ brought document ops, validateGrant r = true → r.grantID ≠ env.boundaryID tenant n
  dated : ∀ tenant id now report, .requireReauthentication tenant id now report ∈ ops → Time.Writable now

section Books

/-- Books that allow more rows, and more of them to be lost. -/
structure Books.Grows (B B' : Books) : Prop where
  origin : ∀ g, B.origin g → B'.origin g
  live : ∀ g, B.live g → B'.live g
  window : ∀ t id c, B.window t id c → B'.window t id c
  kept : ∀ g, B'.kept g → B.kept g

theorem RowOk.grow (h : B.Grows B') (hg : RowOk B id g) : RowOk B' id g :=
  ⟨hg.toSoundRow,fun hk => hg.valid (h.kept g hk),fun hr => (hg.active hr).imp_right (h.live g),hg.boundary,
    h.origin g hg.origin,fun hc => h.window _ _ _ (hg.consumed hc)⟩

theorem Sealed.grow (h : B.Grows B') (hs : Sealed B s) : Sealed B' s :=
  ⟨⟨fun id g hg => (hs.rows id g hg).grow h,fun key g hg => (hs.pending key g hg).grow h⟩,hs.keyed,hs.latched⟩

theorem DocumentOk.grow (h : B.Grows B') (hd : DocumentOk B blobAuthority document) :
    DocumentOk B' blobAuthority document :=
  fun raw rows hread hdec id g hg => (hd raw rows hread hdec id g hg).grow h

/-- A row of a record, which lost its request when it was compacted after its retention. -/
structure OfRecord (time : Time) (g r : Grant) : Prop where
  grantID : g.grantID = r.grantID
  tenantID : g.tenantID = r.tenantID
  expiresAt : g.expiresAt = r.expiresAt
  same : SameGrant g r ∨ expiredBeyondRetention r time = true

variable {ops : List DenialOp}

/-- The books of a run at a time, for one name: its rows may not be lost before their retention is over. -/
def Coherent.books (h : Coherent env document ops) (id : String) (time : Time) : Books where
  origin g := (env.threshold ≠ 0 ∧ ∃ tenant n, g.grantID = env.boundaryID tenant n) ∨
    ∃ r ∈ brought document ops, validateGrant r = true ∧ OfRecord time g r
  live g := ∃ r ∈ brought document ops, validateGrant r = true ∧ SameGrant g r
  window tenant id consumed := ∃ c ∈ consumptionsIn document ops, c.tenant = tenant ∧ c.id = id ∧ c.instant = consumed
  kept g := g.grantID = id ∧
    ∃ r ∈ brought document ops, validateGrant r = true ∧ r.grantID = id ∧ expiredBeyondRetention r time = false
  origin_congr hs := by
    rintro (⟨ht, t, n, hname⟩ | ⟨r, hr, hv, ho⟩)
    · exact .inl ⟨ht,t,n,hs.grantID.trans hname⟩
    · exact .inr ⟨r,hr,hv,hs.grantID.trans ho.grantID,hs.tenantID.trans ho.tenantID,hs.expiresAt.trans ho.expiresAt,
        ho.same.imp_left hs.trans⟩
  live_congr hs := fun ⟨r, hr, hv, hsame⟩ => ⟨r,hr,hv,hs.trans hsame⟩
  kept_congr hs hk := ⟨hs.grantID.trans hk.1,hk.2⟩
  fits := by
    rintro g _ ⟨hid, r₀, hr₀, hv₀, hid₀, hfresh⟩ horigin ⟨c, hc, htenant, hcid, rfl⟩
    rcases horigin with ⟨hthreshold, t, n, hname⟩ | ⟨r, hr, hv, ho⟩
    · exact absurd (hid₀.trans (hid.symm.trans hname)) ((h.synthetic hthreshold t n).2 r₀ hr₀ hv₀)
    · rcases ho.same with hsame | hexpired
      · exact Fits.congr hsame (h.fits r hr hv c hc (htenant.trans ho.tenantID) (hcid.trans ho.grantID))
      · -- the records of one name expire together
        have hexpiry := (h.owner r hr r₀ hr₀ hv hv₀ (ho.grantID.symm.trans (hid.trans hid₀.symm))).2
        unfold expiredBeyondRetention at hexpired hfresh
        rw [hexpiry,hfresh] at hexpired
        cases hexpired

variable (h : Coherent env document ops)
include h

theorem Coherent.row_spec {r₀ : Grant} (hr₀ : r₀ ∈ brought document ops) (hv₀ : validateGrant r₀ = true)
    (hg : RowOk (h.books id time) r₀.grantID g) : g.tenantID = r₀.tenantID ∧ g.expiresAt = r₀.expiresAt := by
  rcases hg.origin with ⟨hthreshold, t, n, hname⟩ | ⟨r, hr, hv, ho⟩
  · exact absurd (hg.grantID.symm.trans hname) ((h.synthetic hthreshold t n).2 r₀ hr₀ hv₀)
  · obtain ⟨ht, he⟩ := h.owner r hr r₀ hr₀ hv hv₀ (ho.grantID.symm.trans hg.grantID)
    exact ⟨ho.tenantID.trans ht,ho.expiresAt.trans he⟩

theorem Coherent.name_spec (hg : RowOk (h.books id time) id' g) : '\x00' ∉ g.grantID.toList := by
  rcases hg.origin with ⟨hthreshold, t, n, hname⟩ | ⟨r, -, hv, ho⟩
  · exact hname ▸ nul_not_mem (h.synthetic hthreshold t n).1
  · obtain ⟨_, _, hvalid⟩ := validateGrant_iff.mp hv
    exact ho.grantID ▸ nul_not_mem hvalid.grantID

theorem Coherent.owned (id : String) (time : Time) : Owned (h.books id time) := by
  intro id' g p hg hr hp
  obtain ⟨r, hr, hv, hs⟩ := (hg.active hr).2
  have hid : id' = r.grantID := hg.grantID.symm.trans hs.grantID
  exact (h.row_spec hr hv (hid ▸ hp)).1.trans hs.tenantID.symm

theorem Coherent.followed {r₀ : Grant} (hr₀ : r₀ ∈ brought document ops) (hv₀ : validateGrant r₀ = true)
    (hfresh : expiredBeyondRetention r₀ time = false) :
    Followed (h.books r₀.grantID time) r₀.tenantID r₀.grantID r₀.expiresAt := by
  refine ⟨fun g hg => (h.row_spec hr₀ hv₀ hg).1,fun g hg => (h.row_spec hr₀ hv₀ hg).2,fun t p hp hkey => ?_,
    fun g hg => ⟨hg.grantID,r₀,hr₀,hv₀,rfl,hfresh⟩,fun g hk => hk.1⟩
  obtain ⟨_, _, hvalid⟩ := validateGrant_iff.mp hv₀
  exact append_sep_inj (by decide) (h.name_spec hp) (nul_not_mem hvalid.grantID) hkey

omit h in
theorem expired_mono {time' : Time} (hle : time ≤ time') (hg : expiredBeyondRetention g time = true) :
    expiredBeyondRetention g time' = true := by
  unfold expiredBeyondRetention at hg ⊢
  cases hp : Time.parseRFC3339 g.expiresAt with
  | none => simp [hp] at hg
  | some t =>
    simp only [hp,Bool.not_eq_true',decide_eq_false_iff_not,not_lt] at hg ⊢
    exact hg.trans hle

theorem Coherent.grows (id : String) {time' : Time} (hle : time ≤ time') :
    (h.books id time).Grows (h.books id time') := by
  refine ⟨fun g hg => hg.imp_right ?_,fun g hg => hg,fun t id c hc => hc,?_⟩
  · rintro ⟨r, hr, hv, ho⟩
    exact ⟨r,hr,hv,ho.grantID,ho.tenantID,ho.expiresAt,ho.same.imp_right (expired_mono hle)⟩
  rintro g ⟨hid, r, hr, hv, hrid, hfresh⟩
  refine ⟨hid,r,hr,hv,hrid,?_⟩
  rw [← Bool.not_eq_true] at hfresh ⊢
  exact fun he => hfresh (expired_mono hle he)

theorem Coherent.expired_row (hg : RowOk (h.books id time) id' g) (he : expiredBeyondRetention g time = true) :
    ¬ (h.books id time).kept g ∧
      ¬ (h.books id time).kept (compactExpiredReauthenticationFence g) ∧
      (h.books id time).origin (compactExpiredReauthenticationFence g) := by
  have hname : (compactExpiredReauthenticationFence g).grantID = g.grantID := by
    simp [compactExpiredReauthenticationFence]
  have hlost : ∀ g' : Grant, g'.grantID = g.grantID → ¬ (h.books id time).kept g' := by
    rintro g' hid' ⟨hid, r, hr, hv, hrid, hfresh⟩
    have hrow : id' = r.grantID := hg.grantID.symm.trans (hid'.symm.trans (hid.trans hrid.symm))
    have hexpiry := (h.row_spec hr hv (hrow ▸ hg)).2
    unfold expiredBeyondRetention at he hfresh
    rw [hexpiry,hfresh] at he
    cases he
  refine ⟨hlost g rfl,hlost _ hname,?_⟩
  rcases hg.origin with ⟨hthreshold, t, n, hfence⟩ | ⟨r, hr, hv, ho⟩
  · exact .inl ⟨hthreshold,t,n,hname.trans hfence⟩
  refine .inr ⟨r,hr,hv,hname.trans ho.grantID,?_,?_,.inr ?_⟩
  · simpa [compactExpiredReauthenticationFence] using ho.tenantID
  · simpa [compactExpiredReauthenticationFence] using ho.expiresAt
  unfold expiredBeyondRetention at he ⊢
  rw [← ho.expiresAt]
  exact he

theorem Coherent.reportOk (id : String) (time : Time) {r : Grant} (hr : r ∈ brought document ops) :
    ReportOk (h.books id time) r := by
  refine ⟨h.plain r hr,h.bounded r hr,fun hv => ?_,fun hc => ?_⟩
  · exact ⟨.inr ⟨r,hr,hv,rfl,rfl,rfl,.inl (.refl r)⟩,r,hr,hv,.refl r⟩
  · exact ⟨_,mem_append_left _ (mem_recordedConsumptions hr hc),rfl,rfl,rfl⟩

theorem Coherent.documentOk (id : String) (time : Time) {document' : Option Json}
    (hmem : ∀ r ∈ documentRecords document', r ∈ brought document ops) :
    DocumentOk (h.books id time) blobAuthority document' := by
  intro raw rows hread hdec id' g hg
  obtain rfl : document' = some raw := Except.ok.inj hread
  obtain ⟨hid, hv⟩ := decodeShared_valid hdec hg
  have hr := h.reportOk id time (hmem g (by
    rw [documentRecords,Option.bind_some,hdec]
    exact mem_map.mpr ⟨(id',g),ExtTreeMap.mem_toList_iff_getElem?_eq_some.mpr hg,rfl⟩))
  exact ⟨⟨hid,hr.plain,hr.bounded⟩,fun _ => hv,fun _ => ⟨hv,(hr.origin hv).2⟩,validBoundary_of_valid hv,(hr.origin hv).1,
    fun hc => hid ▸ hr.consumed hc⟩

end Books

section Steps

def DenialOp.Ok (env : Env) (B : Books) : DenialOp → Prop
  | mint g ttl now => Plain g ∧
      (validateGrant (mintRecord g ttl now) = true → B.origin (mintRecord g ttl now) ∧ B.live (mintRecord g ttl now))
  | merge incoming _ => ∀ r ∈ incoming, ReportOk B r
  | consume expected now => ∀ expiry, Time.parseRFC3339 expected.expiresAt = some expiry → now < expiry →
      B.window expected.tenantID expected.grantID (Time.formatRFC3339 now)
  | requireReauthentication t _ now _ => Time.Writable now ∧
      (env.threshold ≠ 0 → Synthetic B env (trimSpace t) now) ∧ (env.threshold ≠ 0 → Retained B (trimSpace t) now)
  | prune now => ∀ (id : String) g, RowOk B id g → expiredBeyondRetention g now = true → ¬ B.kept g ∧
      ¬ B.kept (compactExpiredReauthenticationFence g) ∧ B.origin (compactExpiredReauthenticationFence g)
  | write document _ => DocumentOk B blobAuthority document
  | _ => True

structure NodeOk (B : Books) (s : Store) (document : Option Json) : Prop where
  sealed : Sealed B s
  document : DocumentOk B blobAuthority document
  shared : s.sharedLocked = true

structure KeepsDenied (B : Books) (s : Store) (document : Option Json) (s' : Store) (document' : Option Json) : Prop where
  ok : NodeOk B s' document'
  denies : ∀ tenant id expiry, Followed B tenant id expiry → Denies s document tenant id expiry →
    Denies s' document' tenant id expiry

theorem KeepsDenied.refl (h : NodeOk B s document) : KeepsDenied B s document s document := ⟨h,fun _ _ _ _ h => h⟩

theorem transaction_ok (howned : Owned B) (h : NodeOk B s document) (hedit : EditOk B edit) (hdated : option.Dated)
    (o : Outcome) (clock : Time) : NodeOk B (s.mutateShared blobAuthority document edit option o clock).store
      (s.mutateShared blobAuthority document edit option o clock).row := by
  refine ⟨mutateShared_sealed howned h.sealed h.document hedit hdated o clock,?_,?_⟩
  · have hends := mutateShared_ends blobAuthority s document edit option o clock
    generalize s.mutateShared blobAuthority document edit option o clock = m at hends ⊢
    -- a document changes only by what an edit wrote
    have hwritten : ∀ {rows : Map Grant} {next : Store} {a : α} {document' : Option Json},
        Edited blobAuthority s document edit rows next a →
        blobAuthority.write (encodeGrantSnapshot next.grants) = .ok document' → DocumentOk B blobAuthority document' := by
      intro rows next a document' he hw raw out hread hdec
      obtain rfl := Except.ok.inj hw
      obtain rfl := Option.some.inj (Except.ok.inj hread)
      exact (carries_decode (hedit rows next a (he.rowsOk h.sealed.toStoreOk h.document) he.edit) hdec).ok
    cases hends with
    | refused => exact h.document
    | stopped b e => exact h.document
    | failed he b hrow =>
      rcases hrow with rfl | ⟨-, hw⟩
      · exact h.document
      · exact hwritten he hw
    | committed he b ho hw => exact hwritten he hw
  · rw [sharedLocked,mutateShared_persister]
    exact h.shared

theorem transaction_keeps (howned : Owned B) (h : NodeOk B s document) (hedit : EditCarries B edit)
    (hdated : option.Dated) (herase : option.eraseTenant = "") (o : Outcome) (clock : Time) :
    KeepsDenied B s document (s.mutateShared blobAuthority document edit option o clock).store
      (s.mutateShared blobAuthority document edit option o clock).row := by
  refine ⟨transaction_ok howned h hedit.editOk hdated o clock,fun tenant id expiry hf hden => ?_⟩
  exact mutateShared_denies howned h.sealed h.document hedit.editOk hf (fun _ => ⟨hedit,.inl herase⟩) clock hden

theorem refresh_keeps (howned : Owned B) (h : NodeOk B s document) {answer : LoadAnswer}
    (ha : ∀ raw, answer = .loaded raw → raw = document) (clock : Time) :
    KeepsDenied B s document (s.refreshShared answer clock).1 document := by
  unfold refreshShared
  rw [if_pos h.shared]
  have hrows : ∀ raw rows, answer = .loaded raw → loadedRows raw = some rows → RowsOk B rows := by
    intro raw rows hraw hl
    obtain rfl := ha raw hraw
    cases raw with
    | none =>
      obtain rfl := Option.some.inj hl
      simp [RowsOk]
    | some raw => exact h.document raw rows rfl hl
  have hstore := publishLoaded_ok h.sealed.toStoreOk s.seen hrows clock
  obtain ⟨hpending, hpersister, hgrants⟩ := publishLoaded_cases s s.seen answer clock
  generalize (s.publishLoaded s.seen answer clock).1 = s' at hstore hpending hpersister hgrants ⊢
  constructor
  · refine ⟨⟨hstore,hpending ▸ h.sealed.keyed,fun key p hkey => ?_⟩,h.document,?_⟩
    · rw [hpending] at hkey
      rcases hgrants with heq | ⟨raw, rows, hraw, hl, heq⟩
      · rw [heq]
        exact h.sealed.latched key p hkey
      · rw [heq]
        exact (overlayPending_denies howned (hrows raw rows hraw hl) h.sealed.pending hkey).cloneGrants
    · rw [sharedLocked,hpersister]
      exact h.shared
  · intro tenant id expiry hf hden
    refine ⟨?_,hden.durable.imp_right fun hkey => hpending.symm ▸ hkey⟩
    rcases hgrants with heq | ⟨raw, rows, hraw, hl, heq⟩
    · rw [heq]
      exact hden.inactive
    rw [heq]
    obtain rfl := ha raw hraw
    exact (hden.durable.overlay howned h.sealed hf (hrows _ rows hraw hl) hl).cloneGrants

theorem prunePending_keeps (h : NodeOk B s document) (mixed : Bool)
    (hret : ∀ (id : String) g, RowOk B id g → expiredBeyondRetention g now = true → ¬ B.kept g) :
    KeepsDenied B s document (s.prunePending now mixed) document := by
  have hsub : ∀ (key : String) p, (s.prunePending now mixed).pending[key]? = some p → s.pending[key]? = some p := by
    intro key p hkey
    unfold prunePending at hkey
    rw [ExtTreeMap.getElem?_filter',Option.filter_eq_some_iff] at hkey
    exact hkey.1
  have hsealed : Sealed B (s.prunePending now mixed) :=
    ⟨⟨h.sealed.rows,fun key p hkey => h.sealed.pending key p (hsub key p hkey)⟩,
      fun key p hkey => h.sealed.keyed key p (hsub key p hkey),fun key p hkey => h.sealed.latched key p (hsub key p hkey)⟩
  refine ⟨⟨hsealed,h.document,h.shared⟩,fun tenant id expiry hf hden => ⟨hden.inactive,hden.durable.imp_right ?_⟩⟩
  intro hkey
  obtain ⟨p, hp, hid⟩ := h.sealed.pending_of_key hf hkey
  have hrow : RowOk B id p := hid ▸ h.sealed.pending _ p hp
  have hfresh : expiredBeyondRetention p now = false := by
    rw [← Bool.not_eq_true]
    exact fun he => hret id p hrow he (hf.kept p hrow)
  unfold prunePending
  rw [ExtTreeMap.getElem?_filter',hp,Option.filter_some,if_pos]
  · rfl
  · simp [prunableGrant,hfresh]

variable {n n' : Node} {op : DenialOp}

/-- The denials of a tenant that is not removed are kept until they are expired beyond their retention. -/
structure NodeKeeps (B : Books) (op : DenialOp) (n n' : Node) : Prop where
  ok : NodeOk B n'.store n'.document
  denies : ∀ tenant id expiry, Followed B tenant id expiry → ¬ op.Removes tenant →
    (∀ g : Grant, g.expiresAt = expiry → expiredBeyondRetention g n'.time = false) →
    Denies n.store n.document tenant id expiry → Denies n'.store n'.document tenant id expiry

theorem nodeStep_keeps (howned : Owned B) (h : NodeStep env n op n') (hok : NodeOk B n.store n.document)
    (hop : op.Ok env B) : NodeKeeps B op n n' := by
  -- most operations keep every denial
  have hall : KeepsDenied B n.store n.document n'.store n'.document → NodeKeeps B op n n' :=
    fun hk => ⟨hk.ok,fun t id e hf _ _ => hk.denies t id e hf⟩
  cases h with
  | mint io g ttl now hle =>
    refine hall ?_
    unfold Node.after mintContext
    rw [if_pos hok.shared]
    exact transaction_keeps howned hok (mint_carries hop.1 hop.2) undated rfl io.outcome io.clock
  | merge io incoming now hle =>
    refine hall ?_
    unfold Node.after mergeTransaction
    rw [if_pos hok.shared]
    exact transaction_keeps howned hok (merge_carries n.store.pending now false hop) undated rfl io.outcome io.clock
  | consume io expected now hle =>
    refine hall ?_
    unfold Node.after consumeAuthenticationRequest
    split
    · exact .refl hok
    · rw [if_pos hok.shared]
      exact transaction_keeps howned hok (consume_carries hop) undated rfl io.outcome io.clock
  | revoke io t id =>
    refine hall ?_
    unfold Node.after revokeForTenantContext
    rw [if_pos hok.shared]
    exact transaction_keeps howned hok (revoke_carries (trimSpace t) (trimSpace id)) undated rfl io.outcome io.clock
  | requireReauthentication io t id now hle =>
    refine hall ?_
    unfold Node.after requireReauthenticationForTenantContext
    dsimp only
    split
    · exact .refl hok
    rename_i hnow
    simp only [not_or,not_le] at hnow
    rw [if_pos hok.shared]
    exact transaction_keeps howned hok (requireReauthentication_carries env (trimSpace id) hop.1 hop.2.1 hop.2.2)
      (dated_at hop.1 hnow.2.2.2) rfl io.outcome io.clock
  | refresh answer clock ha => exact hall (refresh_keeps howned hok ha clock)
  | prune io now hle =>
    refine hall ?_
    have hk := transaction_keeps howned hok (prune_carries (n.store.persister == some .rolling) hop)
      (show SharedGrantMutation.Dated {} from undated) rfl io.outcome io.clock
    unfold Node.after pruneExpired
    dsimp only
    rw [if_pos hok.shared]
    split
    · exact hk
    · have hp := prunePending_keeps hk.ok (n.store.persister == some .rolling) fun id g hg he => (hop id g hg he).1
      exact ⟨hp.ok,fun tenant id expiry hf hden => hp.denies tenant id expiry hf (hk.denies tenant id expiry hf hden)⟩
  | removeTenant io t =>
    unfold Node.after removeTenantContext
    rw [if_pos hok.shared]
    refine ⟨transaction_ok howned hok (removeTenant_ok t) undated io.outcome io.clock,fun tenant id expiry hf hremoves _ hden => ?_⟩
    refine mutateShared_denies howned hok.sealed hok.document (removeTenant_ok t) hf (fun ho => ?_) io.clock hden
    have hne : trimSpace t ≠ tenant := fun he => hremoves ⟨t,io.outcome,rfl,ho,he⟩
    refine ⟨removeTenant_carries fun id' g hg hk => ?_,.inr hne⟩
    have hid : id' = id := hg.grantID.symm.trans (hf.only g hk)
    rw [hf.owner g (hid ▸ hg)]
    exact hne.symm
  | write document now hle hkeeps =>
    refine ⟨⟨hok.sealed,hop,hok.shared⟩,fun tenant id expiry hf _ hfresh hden => ⟨hden.inactive,?_⟩⟩
    rcases hden.durable with ⟨g, hg, hr, hv, he⟩ | hkey
    · exact .inl (he ▸ hkeeps id g hg hr hv (hfresh g he))
    · exact .inr hkey

end Steps

section Runs

variable {ops : List DenialOp} {n n' : Node} {op : DenialOp}

theorem Coherent.step_ok (h : Coherent env document ops) (id : String) (hstep : NodeStep env n op n') (hop : op ∈ ops) :
    op.Ok env (h.books id n'.time) := by
  have hmem : ∀ r ∈ op.records, r ∈ brought document ops := fun r hr =>
    mem_append_right _ (mem_flatMap.mpr ⟨op,hop,hr⟩)
  cases hstep with
  | mint io g ttl now hle =>
    have hr := h.reportOk id now (hmem _ mem_cons_self)
    exact ⟨hr.plain,hr.origin⟩
  | merge io incoming now hle => exact fun r hr => h.reportOk id now (hmem r hr)
  | consume io expected now hle =>
    intro expiry hexpiry hlt
    exact ⟨_,mem_append_right _ (mem_flatMap.mpr ⟨_,hop,mem_askedConsumption hexpiry hlt⟩),rfl,rfl,rfl⟩
  | revoke io t id' => trivial
  | requireReauthentication io t id' now hle =>
    refine ⟨h.dated t id' now _ hop,fun hthreshold k => ⟨.inl ⟨hthreshold,trimSpace t,k,rfl⟩,?_⟩,fun _ id'' g hg hk _ => ?_⟩
    · rintro ⟨hid, r, hr, hv, hrid, -⟩
      exact (h.synthetic hthreshold (trimSpace t) k).2 r hr hv (hrid.trans hid.symm)
    · rw [← Bool.not_eq_true]
      exact fun he => (h.expired_row hg he).1 hk
  | refresh answer clock ha => trivial
  | prune io now hle => exact fun id' g hg he => h.expired_row hg he
  | removeTenant io t => trivial
  | write document' now hle hkeeps => exact h.documentOk id now hmem

theorem NodeStep.time_le (h : NodeStep env n op n') : n.time ≤ n'.time := by
  cases h <;> first | exact le_refl _ | assumption

theorem NodeOk.grow (h : B.Grows B') (hok : NodeOk B s document) :
    NodeOk B' s document := ⟨hok.sealed.grow h,hok.document.grow h,hok.shared⟩

def Node.Fresh (n : Node) : Prop := n.store.grants = ∅ ∧ n.store.pending = ∅ ∧ n.store.sharedLocked = true

theorem Coherent.start (h : Coherent env n.document ops) (hfresh : n.Fresh) (id : String) :
    NodeOk (h.books id n.time) n.store n.document := by
  obtain ⟨hgrants, hpending, hshared⟩ := hfresh
  refine ⟨⟨⟨?_,?_⟩,?_,?_⟩,h.documentOk id n.time fun r hr => mem_append_left _ hr,hshared⟩
  · simp [RowsOk,hgrants]
  · simp [PendingOk,hpending]
  · simp [KeyedDenials,hpending]
  · simp [hpending]

/-- The grant of a record is denied, or expired beyond its retention. -/
def Denied (n : Node) (r : Grant) : Prop :=
  expiredBeyondRetention r n.time = true ∨ Denies n.store n.document r.tenantID r.grantID r.expiresAt

theorem Coherent.step (h : Coherent env document ops) (id : String) (hstep : NodeStep env n op n') (hop : op ∈ ops)
    (hok : NodeOk (h.books id n.time) n.store n.document) :
    NodeOk (h.books id n'.time) n'.store n'.document ∧
      ∀ r ∈ brought document ops, validateGrant r = true → r.grantID = id → ¬ op.Removes r.tenantID →
        Denied n r → Denied n' r := by
  have hgrow := hok.grow (h.grows id hstep.time_le)
  obtain ⟨hok', hdenies⟩ := nodeStep_keeps (h.owned id n'.time) hstep hgrow (h.step_ok id hstep hop)
  refine ⟨hok',fun r hr hv hid hremoves hden => ?_⟩
  cases hexpired : expiredBeyondRetention r n'.time with
  | true => exact .inl hexpired
  | false =>
    rcases hden with he | hden
    · rw [expired_mono hstep.time_le he] at hexpired
      cases hexpired
    subst hid
    refine .inr (hdenies _ _ _ (h.followed hr hv hexpired) hremoves (fun g hg => ?_) hden)
    unfold expiredBeyondRetention at hexpired ⊢
    rw [hg]
    exact hexpired

theorem Coherent.denies (h : Coherent env document ops) (hstep : NodeStep env n op n') (hop : op ∈ ops)
    (hfound : op.found = some (tenant,id)) (hok : NodeOk (h.books (trimSpace id) n.time) n.store n.document)
    {r : Grant} (hr : r ∈ brought document ops) (hv : validateGrant r = true) (hid : r.grantID = trimSpace id) :
    expiredBeyondRetention r n'.time = true ∨ (trimSpace tenant = r.tenantID ∧ Denied n' r) := by
  cases hexpired : expiredBeyondRetention r n'.time with
  | true => exact .inl rfl
  | false =>
    refine .inr ?_
    have hgrow := hok.grow (h.grows (trimSpace id) hstep.time_le)
    have howned := h.owned (trimSpace id) n'.time
    have hsok := h.step_ok (trimSpace id) hstep hop
    have hf : Followed (h.books (trimSpace id) n'.time) r.tenantID (trimSpace id) r.expiresAt := by
      have hf := h.followed hr hv hexpired
      rw [hid] at hf
      exact hf
    have hdone : ∀ (a : Store × Option Json × Denial) (t : Time), n' = .after a t →
        trimSpace tenant = r.tenantID ∧ Denies a.1 a.2.1 r.tenantID (trimSpace id) r.expiresAt →
        trimSpace tenant = r.tenantID ∧ Denied n' r := by
      rintro a t rfl ⟨ht, hden⟩
      refine ⟨ht,.inr ?_⟩
      rw [hid]
      exact hden
    cases hstep with
    | revoke io t id' =>
      unfold DenialOp.found at hfound
      dsimp only at hfound
      split at hfound
      · next hreport =>
        obtain ⟨rfl, rfl⟩ := Prod.mk.inj (Option.some.inj hfound)
        refine hdone _ _ rfl ?_
        unfold revokeForTenantContext at hreport ⊢
        rw [if_pos hgrow.shared] at hreport ⊢
        exact report_denies howned hgrow.sealed hgrow.document (revoke_carries (trimSpace t) (trimSpace id')) hf undated
          io.outcome io.clock (fun rows next g _ he => revokeEdit_found he) hreport
      · cases hfound
    | requireReauthentication io t id' now hle =>
      unfold DenialOp.found at hfound
      dsimp only at hfound
      split at hfound
      · next hreport =>
        obtain ⟨rfl, rfl⟩ := Prod.mk.inj (Option.some.inj hfound)
        refine hdone _ _ rfl ?_
        unfold requireReauthenticationForTenantContext at hreport ⊢
        dsimp only at hreport ⊢
        split at hreport
        · cases hreport
        rename_i hnow
        rw [if_neg hnow,if_pos hgrow.shared]
        rw [if_pos hgrow.shared] at hreport
        simp only [not_or,not_le] at hnow
        exact report_denies howned hgrow.sealed hgrow.document
          (requireReauthentication_carries env (trimSpace id') hsok.1 hsok.2.1 hsok.2.2) hf (dated_at hsok.1 hnow.2.2.2)
          io.outcome io.clock (fun rows next g hrows he =>
            requireReauthenticationEdit_found env hrows hsok.1 hsok.2.1 hsok.2.2 hf.kept he) hreport
      · cases hfound
    | _ => cases hfound

theorem Coherent.run (h : Coherent env document ops) (id : String) {ls : List DenialOp}
    (hrun : Run (NodeStep env) n ls n') (hls : ∀ op ∈ ls, op ∈ ops)
    (hok : NodeOk (h.books id n.time) n.store n.document) :
    NodeOk (h.books id n'.time) n'.store n'.document ∧ n.time ≤ n'.time ∧
      ∀ r ∈ brought document ops, validateGrant r = true → r.grantID = id → (∀ op ∈ ls, ¬ op.Removes r.tenantID) →
        Denied n r → Denied n' r := by
  induction hrun with
  | nil => exact ⟨hok,le_refl _,fun _ _ _ _ _ hden => hden⟩
  | snoc _ hstep ih =>
    obtain ⟨hm, hle, hden⟩ := ih fun op hop => hls op (mem_append_left _ hop)
    obtain ⟨hm', hkeep⟩ := h.step id hstep (hls _ (mem_append_right _ mem_cons_self)) hm
    refine ⟨hm',hle.trans hstep.time_le,fun r hr hv hid hremoves hn => ?_⟩
    refine hkeep r hr hv hid (hremoves _ (mem_append_right _ mem_cons_self)) (hden r hr hv hid (fun op hop => ?_) hn)
    exact hremoves op (mem_append_left _ hop)

theorem Coherent.valid_spec (h : Coherent env document ops)
    (hok : NodeOk (h.books (trimSpace id) n.time) n.store n.document) {clock : Time} (hnow : n.time ≤ now)
    (hvalid : n.store.validForAuthorization clock id now = true) :
    ∃ r ∈ brought document ops, validateGrant r = true ∧ r.grantID = trimSpace id ∧
      expiredBeyondRetention r n.time = false ∧ ¬ Inactive n.store.grants r.grantID := by
  unfold validForAuthorization at hvalid
  cases hg : n.store.grants[trimSpace id]? with
  | none => simp [hg] at hvalid
  | some g =>
    simp only [hg,Bool.and_eq_true,Bool.not_eq_true'] at hvalid
    obtain ⟨-, ⟨⟨-, hactive⟩, hexpiry⟩⟩ := hvalid
    have hrow := hok.sealed.rows _ g hg
    obtain ⟨r, hr, hv, hs⟩ := (hrow.active hactive).2
    have hid : r.grantID = trimSpace id := hs.grantID.symm.trans hrow.grantID
    refine ⟨r,hr,hv,hid,?_,fun hinactive => ?_⟩
    · rw [← Bool.not_eq_true]
      intro he
      have he := expired_mono hnow he
      unfold expiredBeyondRetention at he
      rw [← hs.expiresAt] at he
      cases hp : Time.parseRFC3339 g.expiresAt with
      | none => simp [hp] at he
      | some expiry =>
        simp only [hp,Bool.not_eq_true',decide_eq_false_iff_not,decide_eq_true_eq,not_lt] at he hexpiry
        have hpos : expiry ≤ expiry + expiredRetention := Int.le_add_of_nonneg_right (by decide)
        exact absurd hexpiry (not_lt.mpr (hpos.trans he))
    · have hrevoked := hinactive g (hid.symm ▸ hg)
      rw [hactive] at hrevoked
      cases hrevoked

/-- Over every coherent run, a grant whose denial was found is not valid for authorization at any later point, unless its
tenant is removed. -/
theorem denied_grant_stays_invalid {before after : List DenialOp} {n₀ n₁ n₂ n₃ : Node} {tenant id : String}
    (hfresh : n₀.Fresh) (hbefore : Run (NodeStep env) n₀ before n₁) (hdeny : NodeStep env n₁ op n₂)
    (hfound : op.found = some (tenant,id)) (hafter : Run (NodeStep env) n₂ after n₃)
    (hc : Coherent env n₀.document (before ++ op :: after)) (hremoves : ∀ op' ∈ after, ¬ op'.Removes (trimSpace tenant))
    (clock : Time) {now : Time} (hnow : n₃.time ≤ now) : n₃.store.validForAuthorization clock id now = false := by
  have hmem : op ∈ before ++ op :: after := mem_append_right _ mem_cons_self
  have hmems : ∀ op' ∈ after, op' ∈ before ++ op :: after := fun op' h => mem_append_right _ (mem_cons_of_mem _ h)
  have hok₁ := (hc.run (trimSpace id) hbefore (fun op' h => mem_append_left _ h) (hc.start hfresh _)).1
  have hok₂ := (hc.step _ hdeny hmem hok₁).1
  obtain ⟨hok₃, hle, hkeep⟩ := hc.run (trimSpace id) hafter hmems hok₂
  rw [← Bool.not_eq_true]
  intro hvalid
  obtain ⟨r, hr, hv, hid, hfresh₃, hactive⟩ := hc.valid_spec hok₃ hnow hvalid
  have hnotexpired : ∀ {m : Node}, m.time ≤ n₃.time → expiredBeyondRetention r m.time ≠ true := by
    intro m hm he
    rw [expired_mono hm he] at hfresh₃
    cases hfresh₃
  rcases hc.denies hdeny hmem hfound hok₁ hr hv hid with he | ⟨ht, hden⟩
  · exact hnotexpired hle he
  rcases hkeep r hr hv hid (fun op' h => ht ▸ hremoves op' h) hden with he | hden
  · exact hnotexpired (le_refl _) he
  · exact hactive hden.inactive

def startNode : Node where
  store := { persister := some .shared }
  document := none
  time := ten

def Node.merged (n : Node) (g : Grant) : Node :=
  .after (n.store.mergeTransaction blobAuthority n.document onTime [g] ten false) ten

def Node.revoking (n : Node) : Store × Option Json × Denial :=
  n.store.revokeForTenantContext blobAuthority n.document onTime "acme" "day"

def Node.revoked (n : Node) : Node := .after n.revoking n.time

def Node.minted (n : Node) : Node :=
  .after (n.store.mintContext blobAuthority n.document onTime singleGrant (5 * minute) ten) ten

/-- A report of a grant is merged, the grant is revoked, and another one is minted. -/
def revokedOps (g : Grant) : List DenialOp :=
  [.merge [g] ten] ++ .revoke "acme" "day" (startNode.merged g).revoking.2.2 :: [.mint singleGrant (5 * minute) ten]

theorem revokedOps_run (env : Env) (g : Grant) : Run (NodeStep env) startNode [.merge [g] ten] (startNode.merged g) ∧
    NodeStep env (startNode.merged g) (.revoke "acme" "day" (startNode.merged g).revoking.2.2) (startNode.merged g).revoked ∧
    Run (NodeStep env) (startNode.merged g).revoked [.mint singleGrant (5 * minute) ten]
      (startNode.merged g).revoked.minted :=
  ⟨(Run.nil startNode).snoc (.merge onTime [g] ten (le_refl _)),.revoke onTime "acme" "day",
    (Run.nil _).snoc (.mint onTime singleGrant (5 * minute) ten (le_refl _))⟩

theorem coherent_revokedOps : Coherent (strokeEnv 0) none (revokedOps dayGrant) := by
  have hbrought : brought none (revokedOps dayGrant) = [dayGrant,mintedGrant] := rfl
  constructor
  · rw [hbrought]
    intro r hr k v hk
    simp only [mem_cons,not_mem_nil,or_false] at hr
    rcases hr with rfl | rfl <;> simp [dayGrant,mintedGrant,mintRecord,singleGrant] at hk
  · rw [hbrought]
    intro r hr t ht
    simp only [mem_cons,not_mem_nil,or_false] at hr
    rcases hr with rfl | rfl <;> cases ht.symm.trans parseRFC3339_empty
  · rw [hbrought]
    intro r hr r' hr' _ _ hid
    simp only [mem_cons,not_mem_nil,or_false] at hr hr'
    rcases hr with rfl | rfl <;> rcases hr' with rfl | rfl
    · exact ⟨rfl,rfl⟩
    · exact absurd hid (by decide)
    · exact absurd hid (by decide)
    · exact ⟨rfl,rfl⟩
  · exact fun _ _ _ c hc => absurd hc not_mem_nil
  · exact fun h => absurd rfl h
  · intro tenant id now report h
    simp [revokedOps] at h

theorem denied_grant_stays_invalid_dayGrant : Coherent (strokeEnv 0) startNode.document (revokedOps dayGrant) ∧
    (startNode.merged dayGrant).revoking.2.2.grant.isSome = true ∧
    (startNode.merged dayGrant).revoked.minted.store.validForAuthorization ten "day" ten = false := by
  have hfound : (startNode.merged dayGrant).revoking.2.2.grant.isSome = true := by decide +kernel
  obtain ⟨hbefore, hdeny, hafter⟩ := revokedOps_run (strokeEnv 0) dayGrant
  refine ⟨coherent_revokedOps,hfound,?_⟩
  refine denied_grant_stays_invalid ⟨rfl,rfl,rfl⟩ hbefore hdeny (if_pos hfound) hafter coherent_revokedOps ?_ ten (le_refl _)
  rintro op hop ⟨t, o, rfl, -⟩
  simp at hop

/-- A grant with an unknown field whose name is read as that of the revocation. -/
def shadowedGrant : Grant := { dayGrant with unknownFields := Map.ofEntries [("revo\u212Aed",.bool false)] }

/-- The denial of a grant with such a field is written and read back as none. -/
theorem shadowed_denial_is_lost : ∃ before op after n₁ n₂ n₃, startNode.Fresh ∧
    Run (NodeStep (strokeEnv 0)) startNode before n₁ ∧ NodeStep (strokeEnv 0) n₁ op n₂ ∧
    op.found = some ("acme","day") ∧ Run (NodeStep (strokeEnv 0)) n₂ after n₃ ∧
    (∀ op' ∈ after, ¬ op'.Removes "acme") ∧ n₃.store.validForAuthorization ten "day" n₃.time = true := by
  have hvalid : (startNode.merged shadowedGrant).revoking.2.2.grant.isSome = true ∧
      (startNode.merged shadowedGrant).revoked.minted.store.validForAuthorization ten "day" ten = true := by
    decide +kernel
  obtain ⟨hbefore, hdeny, hafter⟩ := revokedOps_run (strokeEnv 0) shadowedGrant
  refine ⟨_,_,_,_,_,_,⟨rfl,rfl,rfl⟩,hbefore,hdeny,if_pos hvalid.1,hafter,?_,hvalid.2⟩
  rintro op hop ⟨t, o, rfl, -⟩
  simp at hop

end Runs

end DsseCore.GrantStore
