import DsseCore.GrantStore.Transactions

/-!
# Single use of an authentication request

Any number of processes share one authority in the rolling format.  A consumption leaves a revoked row behind, and
no process consumes a request of which the document holds a revoked row.  So the second consumption of a request fails
as long as that row stays in the document: it has to remain valid, and no compaction may remove it.
-/

namespace DsseCore.GrantStore

open Go Lib List Except
open Std (ExtTreeMap)

variable {rows : Map Grant} {p : Pair} {s : Store} {request : String} {w w' : Cluster}

abbrev Pair := Option Json × Option Json

/-- Processes that share one authority, which keeps the documents a slow load may still answer with. -/
structure Cluster where
  pair : Pair
  earlier : List Pair := []
  stores : ℕ → Store

def Cluster.after (w : Cluster) (i : ℕ) (s : Store) (pair : Pair) : Cluster :=
  { pair := pair, earlier := w.pair :: w.earlier, stores := Function.update w.stores i s }

/-- A load answers with a document that the authority has or had. -/
def Cluster.Answers (w : Cluster) (answer : LoadAnswer) : Prop :=
  ∀ raw, answer = .loaded raw → ∃ p ∈ w.pair :: w.earlier, rollingAuthority.read p = .ok raw

/-- What a process does.  A merge of reports is the refreshes and the transactions it makes. -/
inductive ClusterOp where
  | mint (g : Grant) (ttl : Int) (now : Time)
  | merge (incoming : List Grant) (now : Time)
  | consume (expected : Grant) (now : Time) (result : Except Err Bool)
  | revoke (tenant id : String)
  | requireReauthentication (tenant id : String) (now : Time)
  | refresh

/-- One operation of a process, with any end of its transaction.  Loads and transactions of one process may be mixed
with those of all others. -/
inductive ClusterStep (env : Env) : Cluster → ClusterOp → Cluster → Prop
  | mint {w : Cluster} (i : ℕ) (io : Io) (g : Grant) (ttl : Int) (now : Time) :
    ClusterStep env w (.mint g ttl now) (w.after i ((w.stores i).mintContext rollingAuthority w.pair io g ttl now).1
      ((w.stores i).mintContext rollingAuthority w.pair io g ttl now).2.1)
  | merge {w : Cluster} (i : ℕ) (io : Io) (incoming : List Grant) (now : Time) :
    ClusterStep env w (.merge incoming now)
      (w.after i ((w.stores i).mergeTransaction rollingAuthority w.pair io incoming now false).1
        ((w.stores i).mergeTransaction rollingAuthority w.pair io incoming now false).2.1)
  | consume {w : Cluster} (i : ℕ) (io : Io) (expected : Grant) (now : Time) :
    ClusterStep env w
      (.consume expected now ((w.stores i).consumeAuthenticationRequest rollingAuthority w.pair io expected now).2.2)
      (w.after i ((w.stores i).consumeAuthenticationRequest rollingAuthority w.pair io expected now).1
        ((w.stores i).consumeAuthenticationRequest rollingAuthority w.pair io expected now).2.1)
  | revoke {w : Cluster} (i : ℕ) (io : Io) (tenant id : String) :
    ClusterStep env w (.revoke tenant id)
      (w.after i ((w.stores i).revokeForTenantContext rollingAuthority w.pair io tenant id).1
        ((w.stores i).revokeForTenantContext rollingAuthority w.pair io tenant id).2.1)
  | requireReauthentication {w : Cluster} (i : ℕ) (io : Io) (tenant id : String) (now : Time) :
    ClusterStep env w (.requireReauthentication tenant id now)
      (w.after i
        ((w.stores i).requireReauthenticationForTenantContext env rollingAuthority w.pair io tenant id now).1
        ((w.stores i).requireReauthenticationForTenantContext env rollingAuthority w.pair io tenant id now).2.1)
  | refresh {w : Cluster} (i : ℕ) (seen : RefreshSeen) (answer : LoadAnswer) (clock : Time) (h : w.Answers answer) :
    ClusterStep env w .refresh (w.after i ((w.stores i).publishLoaded seen answer clock).1 w.pair)

def ClusterOp.consumed (tenant request : String) : ClusterOp → Bool
  | consume expected _ (.ok true) => expected.tenantID == tenant && expected.authenticationRequestID == request
  | _ => false

def Pair.records (p : Pair) : List Grant :=
  match joinRolling p.1 p.2 with
  | .ok rows => rows.toList.map Prod.snd
  | .error _ => []

def ClusterOp.records : ClusterOp → List Grant
  | mint g ttl now => [mintRecord g ttl now]
  | merge incoming _ => incoming
  | _ => []

def submitted (p : Pair) (ops : List ClusterOp) : List Grant := p.records ++ ops.flatMap ClusterOp.records

def ClusterOp.consumptions : ClusterOp → List Consumption
  | consume expected now _ => askedConsumption expected now
  | _ => []

def consumptions (p : Pair) (ops : List ClusterOp) : List Consumption :=
  recordedConsumptions (submitted p ops) ++ ops.flatMap ClusterOp.consumptions

/-- The runs in which a request is used once: no record has an unknown name that is read as a field or a boundary that
cannot be written again, every consumption of a grant lies in the lifetime of each of its records, and no compaction
comes after the retention of a record with a request. -/
structure Consistent (env : Env) (p : Pair) (ops : List ClusterOp) : Prop where
  plain : ∀ r ∈ submitted p ops, Plain r
  bounded : ∀ r ∈ submitted p ops, ∀ t, Time.parseRFC3339 r.reauthenticateAfter = some t → t < year10000
  fits : ∀ r ∈ submitted p ops, validateGrant r = true → r.authenticationRequestID ≠ "" → ∀ c ∈ consumptions p ops,
    c.tenant = r.tenantID → c.id = r.grantID → Fits r c.instant
  dated : ∀ tenant id now, .requireReauthentication tenant id now ∈ ops → Time.Writable now
  retained : env.threshold ≠ 0 → ∀ tenant id now, .requireReauthentication tenant id now ∈ ops →
    ∀ r ∈ submitted p ops, r.authenticationRequestID ≠ "" → r.tenantID = trimSpace tenant →
      expiredBeyondRetention r now = false

/-- The books of a request in a run: rows come from its records, and the synthetic ones have no request. -/
def runBooks (records : List Grant) (cs : List Consumption) (tenant : String) {request : String} (hreq : request ≠ "")
    (hfits : ∀ r ∈ records, validateGrant r = true → r.authenticationRequestID ≠ "" → ∀ c ∈ cs,
      c.tenant = r.tenantID → c.id = r.grantID → Fits r c.instant) : Books where
  origin g := g.authenticationRequestID = "" ∨ ∃ r ∈ records, validateGrant r = true ∧ SameGrant g r
  live _ := True
  window tenant id consumed := ∃ c ∈ cs, c.tenant = tenant ∧ c.id = id ∧ c.instant = consumed
  kept g := g.tenantID = tenant ∧ g.authenticationRequestID = request
  origin_congr h := by
    rintro (hr | ⟨r, hr, hv, hs⟩)
    · exact .inl (h.request.trans hr)
    · exact .inr ⟨r,hr,hv,h.trans hs⟩
  live_congr _ h := h
  kept_congr h hg := ⟨h.tenantID.trans hg.1,h.request.trans hg.2⟩
  fits := by
    rintro g _ ⟨-, hrequest⟩ horigin ⟨c, hc, htenant, hid, rfl⟩
    rcases horigin with hempty | ⟨r, hr, hv, hs⟩
    · exact absurd (hrequest.symm.trans hempty) hreq
    · refine Fits.congr hs (hfits r hr hv ?_ c hc (htenant.trans hs.tenantID) (hid.trans hs.grantID))
      rw [← hs.request,hrequest]
      exact hreq

def Spent (B : Books) (rows : Map Grant) : Prop :=
  ∃ (id : String) (g : Grant), rows[id]? = some g ∧ B.kept g ∧ g.revoked = true

theorem Spent.evolves {B : Books} {next : Map Grant} (h : Spent B rows) (he : Evolves B rows next) :
    Spent B next := by
  obtain ⟨id, g, hg, hk, hr⟩ := h
  obtain ⟨g', hg', hs, hr'⟩ := he id g hg hk
  exact ⟨id,g',hg',B.kept_congr hs hk,hr' hr⟩

variable {B : Books} {raw : Option Json}

def PairOk (B : Books) (p : Pair) : Prop := ∀ rows, joinRolling p.1 p.2 = .ok rows → RowsOk B rows

def SpentIn (B : Books) (p : Pair) : Prop :=
  ∀ rows, joinRolling p.1 p.2 = .ok rows → Spent B rows

theorem rolling_read (h : rollingAuthority.read p = .ok raw) : ∃ rows, joinRolling p.1 p.2 = .ok rows ∧
      ((raw = none ∧ p.1 = none ∧ p.2 = none) ∨ raw = some (encodeGrantSnapshot rows)) := by
  unfold rollingAuthority at h
  dsimp only at h
  split at h
  · cases h
  rename_i rows hj
  refine ⟨rows,hj,?_⟩
  obtain rfl := ok.inj h
  split
  · next hn =>
    rw [Bool.and_eq_true,Option.isNone_iff_eq_none,Option.isNone_iff_eq_none] at hn
    exact .inl ⟨rfl,hn⟩
  · exact .inr rfl

theorem rolling_write (h : rollingAuthority.write (encodeGrantSnapshot rows) = .ok p) :
    ∃ out, decodeShared (encodeGrantSnapshot rows) = some out ∧ p = (some (splitRolling out).1,some (splitRolling out).2) := by
  unfold rollingAuthority at h
  dsimp only at h
  split at h
  · cases h
  · next out hd => exact ⟨out,hd,(ok.inj h).symm⟩

theorem PairOk.document (h : PairOk B p) : DocumentOk B rollingAuthority p := by
  intro raw out hread hdec
  obtain ⟨rows, hj, hraw⟩ := rolling_read hread
  obtain ⟨hn, -⟩ | hraw := hraw
  · cases hn
  · obtain rfl := Option.some.inj hraw
    exact (carries_decode (h rows hj) hdec).ok

theorem decodeRollingMap_valid (h : decodeRollingMap raw = .ok rows) : ValidRows rows := by
  cases raw with
  | none =>
    obtain rfl := ok.inj h
    simp [ValidRows]
  | some raw =>
    unfold decodeRollingMap at h
    dsimp only at h
    split at h
    · cases h
    split at h
    · cases h
    rename_i members _ _
    rw [Map.fill_ok] at h
    intro id g hg
    cases hm : members[id]? with
    | none =>
      rw [h.2 id hm] at hg
      simp at hg
    | some m =>
      obtain ⟨g', hg', hout⟩ := h.1 id m hm
      obtain rfl := Option.some.inj (hout.symm.trans hg)
      exact (rollingRow_ok.mp hg').2

theorem joinRolling_valid {a b : Option Json} (h : joinRolling a b = .ok rows) : ValidRows rows := by
  obtain ⟨legacy, evidence, ha, hb, hrow, hnone⟩ := joinRolling_ok.mp h
  have hrevoked : ∀ {id : String} {full : Grant} (b : Bool), (full.revoked = true → b = true) → full.grantID = id →
      validateGrant full = true → (full.withRevoked b).grantID = id ∧ validateGrant (full.withRevoked b) = true := by
    intro id full b hb hid hv
    refine ⟨hid,?_⟩
    cases b with
    | true => exact validateGrant_withRevoked hv
    | false =>
      have hr : full.revoked = false := Bool.eq_false_iff.mpr fun hr => Bool.false_ne_true (hb hr)
      rw [← hr]
      exact hv
  intro id g hg
  cases he : evidence[id]? with
  | none =>
    rw [hnone id he] at hg
    exact (decodeRollingMap_valid ha).cloneGrants id g hg
  | some full =>
    obtain ⟨hid, hv⟩ := decodeRollingMap_valid hb id full he
    obtain ⟨g', hg', hout⟩ := hrow id full he
    obtain rfl := Option.some.inj (hout.symm.trans hg)
    unfold joinRow at hg'
    split at hg'
    · obtain rfl := ok.inj hg'
      split
      · exact ⟨hid,hv⟩
      · exact hrevoked true (fun _ => rfl) hid hv
    · split at hg'
      · obtain rfl := ok.inj hg'
        exact hrevoked true (fun _ => rfl) hid hv
      split at hg'
      · cases hg'
      obtain rfl := ok.inj hg'
      refine hrevoked _ (fun hr => ?_) hid hv
      rw [hr,Bool.true_or,Bool.true_or]

theorem joinRolling_none : joinRolling none none = .ok ∅ := by decide +kernel

theorem rolling_written (h : RowsOk B rows) (hw : rollingAuthority.write (encodeGrantSnapshot rows) = .ok p)
    {out : Map Grant} (hj : joinRolling p.1 p.2 = .ok out) : Carries B rows out := by
  obtain ⟨decoded, hdec, rfl⟩ := rolling_write hw
  have hc : Carries B rows decoded := carries_decode h hdec
  obtain ⟨-, -, rfl⟩ := (joinRolling_split fun id g hg => (hc.ok id g hg).plain).mp hj
  exact hc.trans (carries_cloneGrants hc.ok)

theorem Edited.spent {α : Type} {edit : Edit α} {next : Store} {a : α}
    (h : Edited rollingAuthority s p edit rows next a) (hs : StoreOk B s) (hp : PairOk B p) (hspent : SpentIn B p) :
    Spent B rows := by
  obtain ⟨raw, authority, hread, hrows, rfl⟩ := h.source
  have hok := authorityRows_ok hs hp.document hread hrows
  obtain ⟨document, hj, hraw⟩ := rolling_read hread
  have hdocument := hspent document hj
  refine Spent.evolves ?_ (overlayPending_carries hok hs.pending).evolves
  rcases hraw with ⟨rfl, h1, h2⟩ | rfl
  · -- without documents there are no rows
    rw [h1,h2] at hj
    obtain rfl := ok.inj hj
    obtain ⟨id, g, hg, -⟩ := hdocument
    simp at hg
  · unfold Store.authorityRows at hrows
    dsimp only at hrows
    split at hrows
    · next decoded hdec =>
      obtain rfl := ok.inj hrows
      exact hdocument.evolves (carries_decode (hp document hj) hdec).evolves
    · cases hrows

structure Keeps (B : Books) (p : Pair) (s : Store) (p' : Pair) (s' : Store) : Prop where
  store : StoreOk B s'
  persister : s'.persister = s.persister
  pair : PairOk B p'
  spent : SpentIn B p → SpentIn B p'

theorem Keeps.refl (hs : StoreOk B s) (hp : PairOk B p) : Keeps B p s p s :=
  ⟨hs,rfl,hp,fun h => h⟩

theorem mutateShared_keeps {α : Type} (hs : StoreOk B s) (hp : PairOk B p) {edit : Edit α}
    (hedit : EditCarries B edit) {option : SharedGrantMutation} (hdated : option.Dated) (o : Outcome) (clock : Time) :
    Keeps B p s (s.mutateShared rollingAuthority p edit option o clock).row
      (s.mutateShared rollingAuthority p edit option o clock).store := by
  -- the documents change only by what the edit wrote
  have hwritten : ∀ {rows : Map Grant} {next : Store} {a : α} {p' : Pair}, Edited rollingAuthority s p edit rows next a →
      rollingAuthority.write (encodeGrantSnapshot next.grants) = .ok p' →
      PairOk B p' ∧ (SpentIn B p → SpentIn B p') := by
    intro rows next a p' h hw
    have hc := (h.carries hs hp.document hedit).2
    refine ⟨fun out hj => (rolling_written hc.ok hw hj).ok,fun hspent out hj => ?_⟩
    exact ((h.spent hs hp hspent).evolves hc.evolves).evolves (rolling_written hc.ok hw hj).evolves
  have hrow : ∀ m : Mutation Pair α, Ends rollingAuthority s p edit option o clock m →
      PairOk B m.row ∧ (SpentIn B p → SpentIn B m.row) := by
    intro m hends
    cases hends with
    | refused => exact ⟨hp,fun h => h⟩
    | stopped b e => exact ⟨hp,fun h => h⟩
    | failed h b hrow =>
      rcases hrow with rfl | ⟨-, hw⟩
      · exact ⟨hp,fun h => h⟩
      · exact hwritten h hw
    | committed h b _ hw => exact hwritten h hw
  obtain ⟨hpair, hspent⟩ := hrow _ (mutateShared_ends rollingAuthority s p edit option o clock)
  exact ⟨mutateShared_ok hs hp.document hedit hdated o clock,mutateShared_persister _ _ _ _ _ _ _,hpair,hspent⟩

theorem consume_spends {tenant : String}
    (hkept : ∀ g, B.kept g ↔ g.tenantID = tenant ∧ g.authenticationRequestID = request) (hs : StoreOk B s)
    (hshared : s.sharedLocked = true) (hp : PairOk B p) {expected : Grant} {now : Time}
    (hw : ∀ expiry, Time.parseRFC3339 expected.expiresAt = some expiry → now < expiry → B.window expected.tenantID expected.grantID (Time.formatRFC3339 now))
    (io : Io) (htenant : expected.tenantID = tenant) (hrequest : expected.authenticationRequestID = request)
    (hok : (s.consumeAuthenticationRequest rollingAuthority p io expected now).2.2 = .ok true) :
    ¬ SpentIn B p ∧ SpentIn B (s.consumeAuthenticationRequest rollingAuthority p io expected now).2.1 := by
  unfold Store.consumeAuthenticationRequest at hok ⊢
  split at hok
  · cases hok
  rename_i hne
  rw [if_neg hne,if_pos hshared]
  have hends := mutateShared_ends rollingAuthority s p (consumeEdit expected now) {} io.outcome io.clock
  generalize s.mutateShared rollingAuthority p (consumeEdit expected now) {} io.outcome io.clock = m at hends hok ⊢
  cases hends with
  | refused => cases hok
  | stopped b e => cases hok
  | failed h b hrow => cases hok
  | @committed rows next a h b p' _ hwrite =>
    obtain rfl : a = true := ok.inj hok
    obtain ⟨hrows, hc⟩ := h.carries hs hp.document (consume_carries hw)
    obtain ⟨hnext, hlocal⟩ := editOf_ok h.edit
    have hk : Keyed (candidateStore rows).grants := fun id g hg => (hrows id g hg).grantID
    rcases consumeAuthenticationLocal_ok (Prod.ext hnext hlocal) hk with ⟨hb, -⟩ | ⟨-, g, hg, hconsumable, hgrants⟩
    · cases hb
    obtain ⟨-, hactive, hsame, ⟨expiry, hexpiry, hlt⟩, -, hfree⟩ := consumable_iff.mp hconsumable
    have hexpected := sameGrant_of_sameAuthorization hsame
    have hg' : B.kept g :=
      (hkept g).mpr ⟨hexpected.tenantID.trans htenant,hexpected.request.trans hrequest⟩
    constructor
    · intro hspent
      obtain ⟨id, other, hother, hk', hr'⟩ := h.spent hs hp hspent
      obtain ⟨ht, hr⟩ := (hkept other).mp hk'
      obtain ⟨ht', hrq⟩ := (hkept g).mp hg'
      have hfalse := hfree id other hother (ht.trans ht'.symm) (hr.trans hrq.symm)
      rw [hr'] at hfalse
      cases hfalse
    · intro out hj
      refine Spent.evolves ?_ (rolling_written hc.ok hwrite hj).evolves
      have hrow := hrows _ g hg
      have hwindow : B.window g.tenantID expected.grantID (Time.formatRFC3339 now) := by
        rw [hexpected.tenantID]
        exact hw expiry (hexpected.expiresAt ▸ hexpiry) hlt
      obtain ⟨-, hsame', hr'⟩ := denied_spec hrow ⟨.inr hwindow,.inl rfl⟩ (.inl (withConsumed_eq_denied g _))
      refine ⟨expected.grantID,_,?_,B.kept_congr hsame' hg',hr'⟩
      rw [hgrants,Map.getElem?_insert_eq,if_pos rfl]

def ClusterOp.Ok (env : Env) (B : Books) : ClusterOp → Prop
  | mint g ttl now => Plain g ∧
      (validateGrant (mintRecord g ttl now) = true → B.origin (mintRecord g ttl now) ∧ B.live (mintRecord g ttl now))
  | merge incoming _ => ∀ r ∈ incoming, ReportOk B r
  | consume expected now _ => ∀ expiry, Time.parseRFC3339 expected.expiresAt = some expiry → now < expiry →
      B.window expected.tenantID expected.grantID (Time.formatRFC3339 now)
  | requireReauthentication t _ now => Time.Writable now ∧
      (env.threshold ≠ 0 → Synthetic B env (trimSpace t) now) ∧ (env.threshold ≠ 0 → Retained B (trimSpace t) now)
  | _ => True

structure ClusterOk (B : Books) (w : Cluster) : Prop where
  stores : ∀ i, StoreOk B (w.stores i) ∧ (w.stores i).sharedLocked = true
  pairs : ∀ p ∈ w.pair :: w.earlier, PairOk B p

variable {env : Env} {op : ClusterOp}

theorem ClusterOk.after (h : ClusterOk B w) {i : ℕ} (hk : Keeps B w.pair (w.stores i) p s) :
    ClusterOk B (w.after i s p) := by
  constructor
  · intro j
    by_cases hj : j = i
    · subst hj
      simp only [Cluster.after,Function.update_self]
      refine ⟨hk.store,?_⟩
      rw [Store.sharedLocked,hk.persister]
      exact (h.stores j).2
    · simp only [Cluster.after,Function.update_of_ne hj]
      exact h.stores j
  · exact forall_mem_cons.mpr ⟨hk.pair,h.pairs⟩

theorem undated {t id e : String} : SharedGrantMutation.Dated { revokeTenant := t, revokeID := id, eraseTenant := e } :=
  nofun

theorem dated_at {t id : String} {now : Time} (hw : Time.Writable now) (hz : 0 < unix now) :
    SharedGrantMutation.Dated { revokeTenant := t, revokeID := id, reauthenticateAt := some now } := by
  rintro _ ⟨⟩
  exact ⟨hw,hz⟩

theorem clusterStep_keeps (h : ClusterStep env w op w') (hok : ClusterOk B w) (hop : op.Ok env B) :
    ClusterOk B w' ∧ (SpentIn B w.pair → SpentIn B w'.pair) := by
  have hpair := hok.pairs w.pair mem_cons_self
  have hdone : ∀ i s p, Keeps B w.pair (w.stores i) p s →
      ClusterOk B (w.after i s p) ∧ (SpentIn B w.pair → SpentIn B (w.after i s p).pair) :=
    fun i s p hk => ⟨hok.after hk,hk.spent⟩
  cases h with
  | mint i io g ttl now =>
    apply hdone
    unfold Store.mintContext
    rw [if_pos (hok.stores i).2]
    exact mutateShared_keeps (hok.stores i).1 hpair (mint_carries hop.1 hop.2) undated io.outcome io.clock
  | merge i io incoming now =>
    apply hdone
    unfold Store.mergeTransaction
    rw [if_pos (hok.stores i).2]
    exact mutateShared_keeps (hok.stores i).1 hpair (merge_carries _ now false hop) undated io.outcome io.clock
  | consume i io expected now =>
    apply hdone
    unfold Store.consumeAuthenticationRequest
    split
    · exact .refl (hok.stores i).1 hpair
    rw [if_pos (hok.stores i).2]
    exact mutateShared_keeps (hok.stores i).1 hpair (consume_carries hop) undated io.outcome io.clock
  | revoke i io t id =>
    apply hdone
    unfold Store.revokeForTenantContext
    rw [if_pos (hok.stores i).2]
    exact mutateShared_keeps (hok.stores i).1 hpair (revoke_carries _ _) undated io.outcome io.clock
  | requireReauthentication i io t id now =>
    apply hdone
    unfold Store.requireReauthenticationForTenantContext
    dsimp only
    split
    · exact .refl (hok.stores i).1 hpair
    rename_i hnow
    simp only [not_or,not_le] at hnow
    rw [if_pos (hok.stores i).2]
    exact mutateShared_keeps (hok.stores i).1 hpair
      (requireReauthentication_carries env (trimSpace id) hop.1 hop.2.1 hop.2.2) (dated_at hop.1 hnow.2.2.2) io.outcome
      io.clock
  | refresh i seen answer clock h =>
    have hloaded : ∀ raw rows, answer = .loaded raw → loadedRows raw = some rows → RowsOk B rows := by
      intro raw rows ha hrows
      obtain ⟨p, hp, hread⟩ := h raw ha
      cases raw with
      | none =>
        obtain rfl := Option.some.inj hrows
        simp [RowsOk]
      | some raw => exact (hok.pairs p hp).document raw rows hread hrows
    apply hdone
    exact ⟨publishLoaded_ok (hok.stores i).1 seen hloaded clock,(publishLoaded_cases _ _ _ _).2.1,hpair,fun h => h⟩

theorem clusterRun_consumed {tenant : String}
    (hkept : ∀ g, B.kept g ↔ g.tenantID = tenant ∧ g.authenticationRequestID = request) {ops : List ClusterOp}
    (h : Run (ClusterStep env) w ops w') (hok : ClusterOk B w) (hops : ∀ op ∈ ops, op.Ok env B) :
    ClusterOk B w' ∧ ops.countP (ClusterOp.consumed tenant request) ≤ 1 ∧
      (ops.countP (ClusterOp.consumed tenant request) = 1 → SpentIn B w'.pair) := by
  induction h with
  | nil => exact ⟨hok,by simp,by simp⟩
  | @snoc w₁ w₂ ls op hrun hstep ih =>
    obtain ⟨hok₁, hcount, hspent⟩ := ih fun op hop => hops op (mem_append_left _ hop)
    have hop := hops op (mem_append_right _ mem_cons_self)
    obtain ⟨hok₂, hkeeps⟩ := clusterStep_keeps hstep hok₁ hop
    refine ⟨hok₂,?_⟩
    rw [countP_append,countP_singleton]
    by_cases hc : op.consumed tenant request = true
    · -- a success: the request was free before, and is denied now
      have hnow : ¬ SpentIn B w₁.pair ∧ SpentIn B w₂.pair := by
        cases hstep with
        | consume i io expected now =>
          obtain ⟨hs, hshared⟩ := hok₁.stores i
          unfold ClusterOp.consumed at hc
          split at hc
          · next expected' now' heq =>
            obtain ⟨rfl, rfl, hresult⟩ := ClusterOp.consume.inj heq
            rw [Bool.and_eq_true,beq_iff_eq,beq_iff_eq] at hc
            exact consume_spends hkept hs hshared (hok₁.pairs _ mem_cons_self) hop io hc.1 hc.2 hresult
          · cases hc
        | _ => cases hc
      have hzero : ls.countP (ClusterOp.consumed tenant request) = 0 := by
        by_contra hne
        exact hnow.1 (hspent (by omega))
      rw [hzero,if_pos hc]
      exact ⟨le_refl _,fun _ => hnow.2⟩
    · rw [if_neg hc]
      exact ⟨hcount,fun hone => hkeeps (hspent hone)⟩

variable {p : Pair} {ops : List ClusterOp} {request : String}

def Consistent.books (h : Consistent env p ops) (tenant : String) (hreq : request ≠ "") : Books :=
  runBooks (submitted p ops) (consumptions p ops) tenant hreq h.fits

theorem Consistent.reportOk (h : Consistent env p ops) (tenant : String) (hreq : request ≠ "") {r : Grant}
    (hr : r ∈ submitted p ops) : ReportOk (h.books tenant hreq) r := by
  refine ⟨h.plain r hr,h.bounded r hr,fun hv => ⟨.inr ⟨r,hr,hv,.refl r⟩,trivial⟩,fun hc => ?_⟩
  exact ⟨_,mem_append_left _ (mem_recordedConsumptions hr hc),rfl,rfl,rfl⟩

theorem Consistent.op_ok (h : Consistent env p ops) (tenant : String) (hreq : request ≠ "") (hop : op ∈ ops) :
    op.Ok env (h.books tenant hreq) := by
  have hmem : ∀ r ∈ op.records, r ∈ submitted p ops := fun r hr =>
    mem_append_right _ (mem_flatMap.mpr ⟨op,hop,hr⟩)
  cases op with
  | mint g ttl now =>
    have hr := h.reportOk tenant hreq (hmem _ mem_cons_self)
    exact ⟨hr.plain,hr.origin⟩
  | merge incoming now => exact fun r hr => h.reportOk tenant hreq (hmem r hr)
  | consume expected now result =>
    intro expiry hexpiry hlt
    exact ⟨_,mem_append_right _ (mem_flatMap.mpr ⟨_,hop,mem_askedConsumption hexpiry hlt⟩),rfl,rfl,rfl⟩
  | revoke t id => trivial
  | requireReauthentication t id now =>
    refine ⟨h.dated t id now hop,fun _ _ => ⟨.inl rfl,fun hk => hreq hk.2.symm⟩,fun hthreshold id' g hrow hk ht => ?_⟩
    rcases hrow.origin with hempty | ⟨r, hr, -, hs⟩
    · exact absurd (hk.2.symm.trans hempty) hreq
    have hret := h.retained hthreshold t id now hop r hr (by rw [← hs.request,hk.2]; exact hreq)
      (hs.tenantID.symm.trans ht)
    unfold expiredBeyondRetention at hret ⊢
    rw [hs.expiresAt]
    exact hret
  | refresh => trivial

def Cluster.Fresh (w : Cluster) : Prop :=
  w.earlier = [] ∧ ∀ i, (w.stores i).grants = ∅ ∧ (w.stores i).pending = ∅ ∧ (w.stores i).sharedLocked = true

theorem Consistent.start (h : Consistent env w.pair ops) (hfresh : w.Fresh) (tenant : String) (hreq : request ≠ "") :
    ClusterOk (h.books tenant hreq) w := by
  constructor
  · intro i
    obtain ⟨hgrants, hpending, hshared⟩ := hfresh.2 i
    exact ⟨⟨by simp [RowsOk,hgrants],by simp [PendingOk,hpending]⟩,hshared⟩
  rw [hfresh.1]
  refine forall_mem_singleton.mpr fun rows hj id g hg => ?_
  obtain ⟨hid, hv⟩ := joinRolling_valid hj id g hg
  have hmem : g ∈ submitted w.pair ops := by
    refine mem_append_left _ ?_
    rw [Pair.records,hj]
    exact mem_map.mpr ⟨(id,g),ExtTreeMap.mem_toList_iff_getElem?_eq_some.mpr hg,rfl⟩
  have hr := h.reportOk tenant hreq hmem
  exact ⟨⟨hid,hr.plain,hr.bounded⟩,fun _ => hv,fun _ => ⟨hv,trivial⟩,validBoundary_of_valid hv,(hr.origin hv).1,
    fun hc => hid ▸ hr.consumed hc⟩

/-- Over every consistent run of any number of processes that share an authority, at most one call consumes a request. -/
theorem consume_at_most_once {w w' : Cluster} (hfresh : w.Fresh) (h : Run (ClusterStep env) w ops w')
    (hc : Consistent env w.pair ops) (tenant : String) (hreq : request ≠ "") :
    ops.countP (ClusterOp.consumed tenant request) ≤ 1 := by
  have hkept : ∀ g, (hc.books tenant hreq).kept g ↔ g.tenantID = tenant ∧ g.authenticationRequestID = request :=
    fun g => Iff.rfl
  exact (clusterRun_consumed hkept h (hc.start hfresh tenant hreq) fun _ hop => hc.op_ok tenant hreq hop).2.1

def ten : Time := 1788256800 * Time.second

def onTime : Io where
  clock := ten

def emptyCluster : Cluster where
  pair := (none,none)
  stores _ := { persister := some .rolling }

def mintedGrant : Grant := mintRecord singleGrant (5 * minute) ten

def Cluster.minted (w : Cluster) (i : ℕ) : Cluster :=
  let r := (w.stores i).mintContext rollingAuthority w.pair onTime singleGrant (5 * minute) ten
  w.after i r.1 r.2.1

def Cluster.consuming (w : Cluster) (i : ℕ) (now : Time) : Store × Pair × Except Err Bool :=
  (w.stores i).consumeAuthenticationRequest rollingAuthority w.pair onTime mintedGrant now

def Cluster.consumed (w : Cluster) (i : ℕ) (now : Time) : Cluster :=
  w.after i (w.consuming i now).1 (w.consuming i now).2.1

theorem mint_consume (h : Run (ClusterStep env) w ops w') (i j : ℕ) (now : Time)
    (hok : ((w'.minted i).consuming j now).2.2 = .ok true) :
    Run (ClusterStep env) w (ops ++ [.mint singleGrant (5 * minute) ten,.consume mintedGrant now (.ok true)])
      ((w'.minted i).consumed j now) := by
  have hmint := h.snoc (ClusterStep.mint i onTime singleGrant (5 * minute) ten)
  have hconsume := hmint.snoc (ClusterStep.consume j onTime mintedGrant now)
  rw [append_assoc] at hconsume
  unfold Cluster.consuming Cluster.minted at hok
  rw [hok] at hconsume
  exact hconsume

def onceOps : List ClusterOp :=
  [.mint singleGrant (5 * minute) ten,.consume mintedGrant (ten + minute) (.ok true)]

theorem submitted_onceOps : submitted emptyCluster.pair onceOps = [mintedGrant] := by
  have hnone : Pair.records emptyCluster.pair = [] := by
    unfold Pair.records emptyCluster
    rw [joinRolling_none]
    simp
  simp [submitted,hnone,onceOps,ClusterOp.records,mintedGrant]

theorem consistent_onceOps : Consistent (strokeEnv 0) emptyCluster.pair onceOps := by
  have hcs : consumptions emptyCluster.pair onceOps = [⟨"acme","single","2026-09-01T10:01:00Z"⟩] := by
    decide +kernel
  refine ⟨?_,?_,?_,fun t id now h => ?_,fun h => absurd rfl h⟩
  · rw [submitted_onceOps,forall_mem_singleton]
    intro k v hk
    simp [mintedGrant,mintRecord,singleGrant] at hk
  · rw [submitted_onceOps,forall_mem_singleton]
    intro t ht
    cases ht.symm.trans parseRFC3339_empty
  · rw [submitted_onceOps,forall_mem_singleton,hcs]
    intro _ _ c hc _ _
    rw [mem_singleton.mp hc]
    exact ⟨by decide,ten,ten + 5 * minute,ten + minute,by decide +kernel,by decide +kernel,by decide +kernel,by decide,
      by decide⟩
  · simp [onceOps] at h

theorem consume_at_most_once_onceOps : Consistent (strokeEnv 0) emptyCluster.pair onceOps ∧
    (∃ w', Run (ClusterStep (strokeEnv 0)) emptyCluster onceOps w') ∧
    onceOps.countP (ClusterOp.consumed "acme" "r1") = 1 := by
  have hok : ((emptyCluster.minted 0).consuming 1 (ten + minute)).2.2 = .ok true := by decide +kernel
  have hrun : Run (ClusterStep (strokeEnv 0)) emptyCluster onceOps ((emptyCluster.minted 0).consumed 1 (ten + minute)) :=
    mint_consume (.nil emptyCluster) 0 1 (ten + minute) hok
  have hfresh : emptyCluster.Fresh := ⟨rfl,fun _ => ⟨rfl,rfl,rfl⟩⟩
  have hreq : "r1" ≠ "" := by decide
  refine ⟨consistent_onceOps,⟨_,hrun⟩,le_antisymm ?_ (by decide)⟩
  exact consume_at_most_once hfresh hrun consistent_onceOps "acme" hreq

/-- A consumption before the grant was issued leaves a row that no document keeps, so the request is free again. -/
theorem early_consumption_repeats : ∃ w' ops, emptyCluster.Fresh ∧ Run (ClusterStep (strokeEnv 0)) emptyCluster ops w' ∧
    ops.countP (ClusterOp.consumed "acme" "r1") = 2 := by
  have hok : ((emptyCluster.minted 0).consuming 1 (ten - minute)).2.2 = .ok true ∧
      ((((emptyCluster.minted 0).consumed 1 (ten - minute)).minted 0).consuming 1 (ten - minute)).2.2 = .ok true := by
    decide +kernel
  have hfirst : Run (ClusterStep (strokeEnv 0)) emptyCluster _ ((emptyCluster.minted 0).consumed 1 (ten - minute)) :=
    mint_consume (.nil emptyCluster) 0 1 (ten - minute) hok.1
  exact ⟨_,_,⟨rfl,fun _ => ⟨rfl,rfl,rfl⟩⟩,mint_consume hfirst 0 1 (ten - minute) hok.2,by decide⟩

end DsseCore.GrantStore
