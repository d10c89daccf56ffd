import DsseCore.Authorization.Store

/-!
# What the operations of an authorization store keep

A record that is settled, both in the store and in the records its next edit starts from, stays so under every operation
that does not replace it.  A latched denial stays in force until a save has put it into the row.
-/

namespace DsseCore.Authorization

open Go Lib Node Option

variable {E P : Type} {kd : Kind E P} {admits : Transition E} {t : Touch E} {e : Ending} {n n' : Node E P}
  {key tenant id : String} {pending : Map P} {cur next : Map E}

section Base

variable (kd n)

@[simp] theorem Node.base_learn : n.learn.base kd = n.base kd := by
  unfold base
  rw [learn_persister,learn_row]
  split
  next hshared hrow => simp [learn,hrow]
  next => rfl
  next => rfl

variable {kd n}

theorem Node.base_unshared (h : n.persister ≠ .shared) : n.base kd = kd.decodeSnapshot n.records := by
  unfold base
  split
  next heq _ => exact absurd heq h
  next heq _ => exact absurd heq h
  next => rfl

theorem Node.canonical_base (h : kd.Canonical n.records) (hbase : n.base kd = some cur) : kd.Canonical cur := by
  unfold base at hbase
  split at hbase
  · split at hbase
    · contradiction
    · exact some.inj hbase ▸ h
  · obtain ⟨saved, -, hsaved⟩ := bind_eq_some_iff.mp hbase
    exact kd.canonical_decodeSnapshot hsaved
  · exact kd.canonical_decodeSnapshot hbase

theorem Node.base_of_row_eq (hpersister : n'.persister = n.persister) (hrow : n'.row = n.row)
    (hknown : n'.authorityKnown = n.authorityKnown) (hcanonical : kd.Canonical n'.records) :
    n'.base kd = n.base kd ∨ n'.base kd = some n'.records := by
  unfold base
  rw [hpersister,hrow,hknown]
  split
  · split
    · exact .inl rfl
    · exact .inr rfl
  · exact .inl rfl
  · exact .inr (kd.decodeSnapshot_canonical hcanonical)

theorem Node.base_land (hcanonical : kd.Canonical next) :
    (n.land e next).base kd = n.base kd ∨ e.Lands ∧ (n.land e next).base kd = some next := by
  unfold land
  split
  next h =>
    refine .inr ⟨h.2,?_⟩
    unfold base
    simp [h.1,kd.decodeSnapshot_canonical hcanonical]
  next => exact .inl rfl

theorem Node.base_confirm (hcanonical : kd.Canonical next) (he : e = .committed ∨ n.persister = .none) :
    ((n.land e next).confirm kd next).base kd = some next := by
  have hdecode := kd.decodeSnapshot_canonical hcanonical
  by_cases hshared : n.persister = .shared
  · obtain rfl : e = .committed := by
      rcases he with he | he
      · exact he
      · rw [hshared] at he
        contradiction
    simp [land,confirm,base,hshared,Ending.Lands,hdecode]
  · have hland : n.land e next = n := if_neg fun h => hshared h.1
    have hplain : (n.confirm kd next).persister ≠ .shared := hshared
    rw [hland,base_unshared hplain]
    exact hdecode

end Base

theorem Kind.Rewrites.canonical (h : kd.Canonical cur) (hnext : kd.Rewrites admits pending t cur next) :
    kd.Canonical next := by
  cases t with
  | put r =>
    obtain ⟨hvalid, -, -, rfl⟩ := hnext
    exact h.insert hvalid
  | deny =>
    obtain ⟨r, hvalid, -, rfl⟩ := hnext
    exact h.insert hvalid
  | erase tenant =>
    intro k r hk
    rw [hnext k] at hk
    exact h k r (eq_some_of_filter_eq_some hk)

namespace Effect

theorem canonical (h : Effect kd admits t e n n') (hn : kd.Canonical n.records) : kd.Canonical n'.records := by
  cases h with
  | kept => exact hn
  | learned => exact hn
  | read hbase => exact kd.canonical_applyPending (canonical_base hn hbase) _
  | failed => simpa using hn
  | confirmed hbase _ hnext => exact hnext.canonical (kd.canonical_applyPending (canonical_base hn hbase) _)

end Effect

theorem Latches.canonical (h : Latches kd key n n') (hn : kd.Canonical n.records) : kd.Canonical n'.records := by
  intro k r hk
  rcases h.records k with heq | ⟨r', hr', hvalid, hkey, -⟩
  · exact hn k r (heq ▸ hk)
  · obtain rfl := some.inj (hr'.symm.trans hk)
    exact ⟨hvalid,hkey⟩

/-- The record under a key exists and is as `Q` says. -/
def At (Q : E → Prop) (m : Map E) (k : String) : Prop := ∃ r, m[k]? = some r ∧ Q r

/-- The record is so in the store, and wherever the next edit can start. -/
structure Settled (kd : Kind E P) (Q : E → Prop) (k : String) (n : Node E P) : Prop where
  here : At Q n.records k
  next : ∀ cur, n.base kd = some cur → At Q cur k

variable {Q Q' : E → Prop} {k : String} {m : Map E} {r : E}

theorem At.mono (h : At Q m k) (himp : ∀ r, Q r → Q' r) : At Q' m k := by
  obtain ⟨r, hr, hq⟩ := h
  exact ⟨r,hr,himp r hq⟩

theorem Settled.mono (h : Settled kd Q k n) (himp : ∀ r, Q r → Q' r) : Settled kd Q' k n :=
  ⟨h.here.mono himp,fun cur hcur => (h.next cur hcur).mono himp⟩

theorem at_applyPending (hQ : ∀ r, kd.revoked r = true → Q r) (h : At Q m k) (pending : Map P) :
    At Q (kd.applyPending pending m) k := by
  obtain ⟨r, hr, hq⟩ := h
  rw [At,Kind.getElem?_applyPending,hr]
  refine ⟨_,rfl,?_⟩
  unfold Kind.under
  split
  · exact hQ _ (kd.revoked_deny _ _)
  · exact hq

theorem settled_read (hn : kd.Canonical n.records) (hQ : ∀ r, kd.revoked r = true → Q r)
    (hbase : n.base kd = some cur) (hat : At Q cur k) :
    Settled kd Q k (n.learn.publish (kd.applyPending n.pendingRevocations cur)) := by
  have hcur := at_applyPending hQ hat n.pendingRevocations
  refine ⟨hcur,?_⟩
  intro cur' hcur'
  have hcanonical := kd.canonical_applyPending (canonical_base hn hbase) n.pendingRevocations
  have hor : (n.learn.publish (kd.applyPending n.pendingRevocations cur)).base kd = n.learn.base kd ∨
      (n.learn.publish (kd.applyPending n.pendingRevocations cur)).base kd =
        some (kd.applyPending n.pendingRevocations cur) := base_of_row_eq rfl rfl rfl hcanonical
  rw [base_learn] at hor
  rcases hor with heq | heq
  · rw [heq,hbase] at hcur'
    exact some.inj hcur' ▸ hat
  · exact some.inj (heq.symm.trans hcur') ▸ hcur

theorem settled_confirm (hn : kd.Canonical n.records) (hbase : n.base kd = some cur)
    (he : e = .committed ∨ n.persister = .none)
    (hnext : kd.Rewrites admits n.pendingRevocations t (kd.applyPending n.pendingRevocations cur) next)
    (hat : At Q next k) : Settled kd Q k ((n.learn.land e next).confirm kd next) := by
  have hcanonical := hnext.canonical (kd.canonical_applyPending (canonical_base hn hbase) _)
  refine ⟨hat,?_⟩
  intro cur' hcur'
  rw [base_confirm hcanonical (by simpa using he)] at hcur'
  exact some.inj hcur' ▸ hat

theorem Effect.settled (h : Effect kd admits t e n n') (hn : kd.Canonical n.records)
    (hQ : ∀ r, kd.revoked r = true → Q r)
    (hkeep : ∀ cur next, kd.Canonical cur → At Q cur k → kd.Rewrites admits n.pendingRevocations t cur next →
      At Q next k)
    (hs : Settled kd Q k n) : Settled kd Q k n' := by
  cases h with
  | kept => exact hs
  | learned => exact ⟨hs.here,by rw [base_learn]; exact hs.next⟩
  | @read cur hbase => exact settled_read hn hQ hbase (hs.next cur hbase)
  | @failed cur next hbase _ hnext =>
    have hcur := at_applyPending hQ (hs.next cur hbase) n.pendingRevocations
    have hpending := kd.canonical_applyPending (canonical_base hn hbase) n.pendingRevocations
    have hcanonical := hnext.canonical hpending
    refine ⟨by simpa using hs.here,?_⟩
    intro cur' hcur'
    have hor : (n.learn.land e next).base kd = n.learn.base kd ∨ e.Lands ∧ (n.learn.land e next).base kd = some next :=
      base_land hcanonical
    rcases hor with heq | ⟨-, heq⟩
    · rw [heq,base_learn] at hcur'
      exact hs.next cur' hcur'
    · obtain rfl := some.inj (heq.symm.trans hcur')
      exact hkeep _ _ hpending hcur hnext
  | @confirmed cur next hbase he hnext =>
    have hcur := at_applyPending hQ (hs.next cur hbase) n.pendingRevocations
    have hpending := kd.canonical_applyPending (canonical_base hn hbase) n.pendingRevocations
    exact settled_confirm hn hbase he hnext (hkeep _ _ hpending hcur hnext)

theorem Latches.settled (h : Latches kd key n n') (hn : kd.Canonical n.records) (hQ : ∀ r, kd.revoked r = true → Q r)
    (hs : Settled kd Q k n) : Settled kd Q k n' := by
  have hhere : At Q n'.records k := by
    rcases h.records k with heq | ⟨r, hr, -, -, hrevoked⟩
    · rw [At,heq]
      exact hs.here
    · exact ⟨r,hr,hQ r hrevoked⟩
  refine ⟨hhere,?_⟩
  intro cur hcur
  rcases base_of_row_eq h.persister h.row h.authorityKnown (h.canonical hn) with heq | heq
  · exact hs.next cur (heq ▸ hcur)
  · exact some.inj (heq.symm.trans hcur) ▸ hhere

theorem Releases.base (h : Releases kd tenant n n') : n'.base kd = n.base kd := by
  unfold Node.base
  rw [h.persister,h.row,h.authorityKnown,h.records]

theorem Releases.settled (h : Releases kd tenant n n') (hs : Settled kd Q k n) : Settled kd Q k n' :=
  ⟨by rw [h.records]; exact hs.here,by rw [h.base]; exact hs.next⟩

theorem Kind.Rewrites.at (hvalid : validKey tenant id = true) (hQ : ∀ r, kd.revoked r = true → Q r)
    (hput : ∀ r old, t = .put r → kd.tenantID r = tenant → kd.id r = id → Q old → admits old r → Q r)
    (herase : ∀ tenant', t = .erase tenant' → tenant' ≠ tenant)
    (hcur : kd.Canonical cur) (hat : At Q cur (recordKey tenant id))
    (h : kd.Rewrites admits pending t cur next) : At Q next (recordKey tenant id) := by
  obtain ⟨old, hold, hq⟩ := hat
  cases t with
  | put r =>
    obtain ⟨hvalid', -, hadmits, rfl⟩ := h
    rw [At,Map.getElem?_insert_eq]
    split
    next heq =>
      obtain ⟨htenant, hid⟩ := recordKey_inj hvalid' hvalid heq
      exact ⟨r,rfl,hput r old rfl htenant hid hq (hadmits old (heq ▸ hold))⟩
    next => exact ⟨old,hold,hq⟩
  | deny =>
    obtain ⟨r, -, hrevoked, rfl⟩ := h
    rw [At,Map.getElem?_insert_eq]
    split
    · exact ⟨r,rfl,hQ r hrevoked⟩
    · exact ⟨old,hold,hq⟩
  | erase tenant' =>
    obtain ⟨hvalid', hkey⟩ := hcur _ old hold
    have htenant : kd.tenantID old ≠ tenant' := by
      rw [← (recordKey_inj hvalid hvalid' hkey).1]
      exact (herase tenant' rfl).symm
    refine ⟨old,?_,hq⟩
    rw [h (recordKey tenant id),hold,filter_some,if_pos (by simpa using htenant)]

/-- A revocation is in force: its latch is set and the store shows nothing else, or it stands in the records. -/
def Denied (kd : Kind E P) (k : String) (n : Node E P) : Prop :=
  (k ∈ n.pendingRevocations ∧ ∀ r, n.records[k]? = some r → kd.revoked r = true) ∨
    Settled kd (fun r => kd.revoked r = true) k n

theorem Denied.revoked (h : Denied kd k n) (hr : n.records[k]? = some r) : kd.revoked r = true := by
  rcases h with ⟨-, h⟩ | ⟨⟨r', hr', hrevoked⟩, -⟩
  · exact h r hr
  · exact some.inj (hr'.symm.trans hr) ▸ hrevoked

theorem revoked_applyPending (h : k ∈ pending) (hr : (kd.applyPending pending m)[k]? = some r) :
    kd.revoked r = true := by
  rw [Kind.getElem?_applyPending] at hr
  obtain ⟨r', -, rfl⟩ := map_eq_some_iff.mp hr
  obtain ⟨p, hp⟩ := isSome_iff_exists.mp (Std.ExtTreeMap.mem_iff_isSome_getElem?.mp h)
  rw [hp]
  exact kd.revoked_deny p r'

theorem Kind.Rewrites.revoked (h : kd.Rewrites admits pending t cur next) (hk : k ∈ pending)
    (hcur : ∀ r, cur[k]? = some r → kd.revoked r = true) (hr : next[k]? = some r) : kd.revoked r = true := by
  cases t with
  | put r' =>
    obtain ⟨-, hpending, -, rfl⟩ := h
    rw [Map.getElem?_insert_eq] at hr
    split at hr
    next heq => exact some.inj hr ▸ hpending (heq ▸ hk)
    next => exact hcur r hr
  | deny =>
    obtain ⟨r', -, hrevoked, rfl⟩ := h
    rw [Map.getElem?_insert_eq] at hr
    split at hr
    · exact some.inj hr ▸ hrevoked
    · exact hcur r hr
  | erase tenant =>
    rw [h k] at hr
    exact hcur r (eq_some_of_filter_eq_some hr)

theorem Effect.denied (h : Effect kd admits t e n n') (hn : kd.Canonical n.records)
    (hkeep : ∀ cur next, kd.Canonical cur → At (fun r => kd.revoked r = true) cur k →
      kd.Rewrites admits n.pendingRevocations t cur next → At (fun r => kd.revoked r = true) next k)
    (hd : Denied kd k n) : Denied kd k n' := by
  rcases hd with ⟨hk, hrecords⟩ | hs
  · cases h with
    | kept => exact .inl ⟨hk,hrecords⟩
    | learned => exact .inl ⟨hk,hrecords⟩
    | read => exact .inl ⟨hk,fun r hr => revoked_applyPending hk hr⟩
    | failed => exact .inl ⟨by simpa using hk,by simpa using hrecords⟩
    | @confirmed cur next hbase he hnext =>
      have hrevoked : ∀ r, next[k]? = some r → kd.revoked r = true :=
        fun r hr => hnext.revoked hk (fun r hr => revoked_applyPending hk hr) hr
      cases hr : next[k]? with
      | none =>
        refine .inl ⟨?_,hrevoked⟩
        simp only [confirm,Std.ExtTreeMap.mem_filter]
        exact ⟨by simpa using hk,by simp [hr]⟩
      | some r => exact .inr (settled_confirm hn hbase he hnext ⟨r,hr,hrevoked r hr⟩)
  · exact .inr (h.settled hn (fun _ h => h) hkeep hs)

theorem Latches.keepsDenied (h : Latches kd key n n') (hn : kd.Canonical n.records) (hd : Denied kd k n) :
    Denied kd k n' := by
  rcases hd with ⟨hk, hrecords⟩ | hs
  · refine .inl ⟨h.kept k hk,?_⟩
    intro r hr
    rcases h.records k with heq | ⟨r', hr', -, -, hrevoked⟩
    · exact hrecords r (heq ▸ hr)
    · exact some.inj (hr'.symm.trans hr) ▸ hrevoked
  · exact .inr (h.settled hn (fun _ h => h) hs)

theorem Latches.denies (h : Latches kd key n n') : Denied kd key n' := by
  refine .inl ⟨h.latched,?_⟩
  intro r hr
  obtain ⟨r', hr', hrevoked⟩ := h.denied
  exact some.inj (hr'.symm.trans hr) ▸ hrevoked

theorem Releases.denied {tenant' : String} (h : Releases kd tenant' n n') (hvalid : validKey tenant id = true)
    (hne : tenant ≠ tenant') (hd : Denied kd (recordKey tenant id) n) : Denied kd (recordKey tenant id) n' := by
  rcases hd with ⟨hk, hrecords⟩ | hs
  · exact .inl ⟨h.others tenant id hvalid hne hk,by rw [h.records]; exact hrecords⟩
  · exact .inr (h.settled hs)

/-- Another process writes the row. While the latch is set it may write what it likes; afterwards it has to leave the
denial in the row. -/
theorem Denied.peer (hd : Denied kd k n) {row : Option (Document E)}
    (hrow : k ∈ n.pendingRevocations ∨
      ∀ cur, row.bind (·.bind kd.decodeSnapshot) = some cur → At (fun r => kd.revoked r = true) cur k) :
    Denied kd k { n with row } := by
  rcases hd with hlatch | hs
  · exact .inl hlatch
  by_cases hk : k ∈ n.pendingRevocations
  · refine .inl ⟨hk,?_⟩
    exact fun r hr => (Denied.revoked (.inr hs)) hr
  refine .inr ⟨hs.here,?_⟩
  intro cur hcur
  by_cases hshared : n.persister = .shared
  · simp only [base,hshared] at hcur
    cases row with
    | none =>
      simp only at hcur
      split at hcur
      · contradiction
      · exact some.inj hcur ▸ hs.here
    | some doc => exact hrow.resolve_left hk cur hcur
  · have hplain : ({ n with row } : Node E P).persister ≠ .shared := hshared
    rw [base_unshared hplain] at hcur
    exact hs.next cur ((base_unshared hshared).trans hcur)

variable {A : Type} {edit : Map E → Except Refusal (Map E) × A} {r : Edited E P A}

theorem Node.Edits.eq_of_failed (h : n.Edits kd e edit r) (hfailed : r.error ≠ none) (he : e ≠ .unconfirmed) :
    r.node = n ∨ r.node = n.learn := by
  cases h with
  | stopped => exact .inl rfl
  | unchanged => exact absurd rfl hfailed
  | refused => exact .inr rfl
  | failed _ hne _ =>
    refine .inr (if_neg ?_)
    rintro ⟨-, hlands⟩
    cases e with
    | committed => exact hne rfl
    | unconfirmed => exact he rfl
    | refused => exact hlands
    | aborted => exact hlands
  | confirmed => exact absurd rfl hfailed

theorem Settled.learn (h : Settled kd Q k n) : Settled kd Q k n.learn :=
  ⟨h.here,by rw [base_learn]; exact h.next⟩

theorem Denied.learn (h : Denied kd k n) : Denied kd k n.learn :=
  h.imp id Settled.learn

/-- What an operation can do to a store: an edit or a refresh, after which it may latch a denial or, when it removed a
tenant, release the latches of the tenant. -/
inductive Performs (kd : Kind E P) (admits : Transition E) (t : Touch E) (e : Ending) (n : Node E P) : Node E P → Prop
  | plain {n' : Node E P} (h : Effect kd admits t e n n') : Performs kd admits t e n n'
  | latched {mid n' : Node E P} {key : String} (h : Effect kd admits t e n mid) (hl : Latches kd key mid n') :
      Performs kd admits t e n n'
  | released {mid n' : Node E P} {tenant : String} (ht : t = .erase tenant) (h : Effect kd admits t e n mid)
      (hr : Releases kd tenant mid n') : Performs kd admits t e n n'

namespace Performs

variable (h : Performs kd admits t e n n') (hn : kd.Canonical n.records)
include h hn

theorem canonical : kd.Canonical n'.records := by
  cases h with
  | plain h => exact h.canonical hn
  | latched h hl => exact hl.canonical (h.canonical hn)
  | released _ h hr =>
    rw [hr.records]
    exact h.canonical hn

theorem settled (hvalid : validKey tenant id = true) (hQ : ∀ r, kd.revoked r = true → Q r)
    (hput : ∀ r old, t = .put r → kd.tenantID r = tenant → kd.id r = id → Q old → admits old r → Q r)
    (herase : ∀ tenant', t = .erase tenant' → tenant' ≠ tenant) (hs : Settled kd Q (recordKey tenant id) n) :
    Settled kd Q (recordKey tenant id) n' := by
  have hkeep : ∀ cur next, kd.Canonical cur → At Q cur (recordKey tenant id) →
      kd.Rewrites admits n.pendingRevocations t cur next → At Q next (recordKey tenant id) :=
    fun cur next hcur hat hnext => hnext.at hvalid hQ hput herase hcur hat
  cases h with
  | plain h => exact h.settled hn hQ hkeep hs
  | latched h hl => exact hl.settled (h.canonical hn) hQ (h.settled hn hQ hkeep hs)
  | released _ h hr => exact hr.settled (h.settled hn hQ hkeep hs)

theorem denied (hvalid : validKey tenant id = true)
    (hadmits : ∀ old r, kd.revoked old = true → admits old r → kd.revoked r = true)
    (herase : ∀ tenant', t = .erase tenant' → tenant' ≠ tenant) (hd : Denied kd (recordKey tenant id) n) :
    Denied kd (recordKey tenant id) n' := by
  have hkeep : ∀ cur next, kd.Canonical cur → At (fun r => kd.revoked r = true) cur (recordKey tenant id) →
      kd.Rewrites admits n.pendingRevocations t cur next →
      At (fun r => kd.revoked r = true) next (recordKey tenant id) := by
    intro cur next hcur hat hnext
    exact hnext.at hvalid (fun _ h => h) (fun r old _ _ _ hold h => hadmits old r hold h) herase hcur hat
  cases h with
  | plain h => exact h.denied hn hkeep hd
  | latched h hl => exact hl.keepsDenied (h.canonical hn) (h.denied hn hkeep hd)
  | released ht h hr => exact hr.denied hvalid (herase _ ht).symm (h.denied hn hkeep hd)

end Performs

/-- What a revocation can come to: it finds nothing, it latches the denial of what it found, it finds the record
revoked in what it read, or its save is confirmed. -/
inductive Revokes (kd : Kind E P) (admits : Transition E) (n : Node E P) (e : Ending) (tenant id : String) :
    Node E P × Option E × Option StoreError → Prop
  | missed {n' : Node E P} {err : Option StoreError} (h : Effect kd admits .deny e n n') :
      Revokes kd admits n e tenant id (n',none,err)
  | latched {mid n' : Node E P} {key : String} {found : Option E} {err : StoreError}
      (h : Effect kd admits .deny e n mid) (hkey : tenant ≠ "" → key = recordKey tenant id)
      (hl : Latches kd key mid n') : Revokes kd admits n e tenant id (n',found,some err)
  | unchanged {cur : Map E} {r : E} (hbase : n.base kd = some cur)
      (hkey : tenant ≠ "" → kd.key r = recordKey tenant id) (hr : cur[kd.key r]? = some r)
      (hrevoked : kd.revoked r = true) :
      Revokes kd admits n e tenant id (n.learn.publish (kd.applyPending n.pendingRevocations cur),some r,none)
  | confirmed {cur : Map E} {r : E} (hbase : n.base kd = some cur) (he : e = .committed ∨ n.persister = .none)
      (hvalid : kd.Valid r) (hrevoked : kd.revoked r = true) (hkey : tenant ≠ "" → kd.key r = recordKey tenant id) :
      Revokes kd admits n e tenant id
        ((n.learn.land e ((kd.applyPending n.pendingRevocations cur).insert (kd.key r) r)).confirm kd
          ((kd.applyPending n.pendingRevocations cur).insert (kd.key r) r),some r,none)

namespace Revokes

variable {x : Node E P × Option E × Option StoreError}

theorem performs (h : Revokes kd admits n e tenant id x) : Performs kd admits .deny e n x.1 := by
  cases h with
  | missed h => exact .plain h
  | latched h _ hl => exact .latched h hl
  | unchanged hbase => exact .plain (.read hbase)
  | confirmed hbase he hvalid hrevoked _ => exact .plain (.confirmed hbase he ⟨_,hvalid,hrevoked,rfl⟩)

theorem eq_of_found {r : E} (herror : x.2.2 = none) (hfound : x.2.1 = some r) : x = (x.1,some r,none) :=
  Prod.ext rfl (Prod.ext hfound herror)

/-- A revocation that succeeded settled its record as revoked. -/
theorem settled {r : E} (hn : kd.Canonical n.records) (h : Revokes kd admits n e tenant id (n',some r,none)) :
    kd.Valid r ∧ (tenant ≠ "" → kd.key r = recordKey tenant id) ∧
      Settled kd (fun r => kd.revoked r = true) (kd.key r) n' := by
  cases h with
  | unchanged hbase hkey hr hrevoked =>
    exact ⟨(canonical_base hn hbase _ r hr).1,hkey,settled_read hn (fun _ h => h) hbase ⟨r,hr,hrevoked⟩⟩
  | @confirmed cur _ hbase he hvalid hrevoked hkey =>
    have hnext : kd.Rewrites admits n.pendingRevocations .deny (kd.applyPending n.pendingRevocations cur) _ :=
      ⟨r,hvalid,hrevoked,rfl⟩
    refine ⟨hvalid,hkey,settled_confirm hn hbase he hnext ⟨r,?_,hrevoked⟩⟩
    rw [Map.getElem?_insert_eq,if_pos rfl]

/-- A revocation that found the record of a tenant denies it, saved or not. -/
theorem denied (hn : kd.Canonical n.records) (hne : tenant ≠ "") (h : Revokes kd admits n e tenant id x)
    (hfound : x.2.1 ≠ none) : Denied kd (recordKey tenant id) x.1 := by
  obtain ⟨n', found, err⟩ := x
  cases err with
  | some err =>
    cases h with
    | missed => exact absurd rfl hfound
    | latched _ hkey hl => exact hkey hne ▸ hl.denies
  | none =>
    obtain ⟨r, rfl⟩ := ne_none_iff_exists'.mp hfound
    obtain ⟨-, hkey, hs⟩ := h.settled hn
    exact .inr (hkey hne ▸ hs)

end Revokes

/-- What a confirmed upsert stored is what the store shows and where its next edit starts. -/
theorem Node.Edits.settled_put {x : Edited E P A} {r : E} (h : n.Edits kd e edit x) (hn : kd.Canonical n.records)
    (herror : x.error = none) (hchange : ∀ cur a, edit cur ≠ (.error .noChange,a))
    (hput : ∀ cur next a, edit cur = (.ok next,a) → kd.Rewrites admits n.pendingRevocations (.put r) cur next)
    (hQ : Q r) : Settled kd Q (kd.key r) x.node := by
  cases h with
  | unchanged _ hedit => exact absurd hedit (hchange _ _)
  | confirmed hbase he hedit =>
    have hnext := hput _ _ _ hedit
    refine settled_confirm hn hbase he hnext ⟨r,?_,hQ⟩
    rw [hnext.2.2.2,Map.getElem?_insert_eq,if_pos rfl]
  | _ => cases herror

variable {owner : E → String} {ofTenant : String → String → Bool}

theorem Node.removeTenant_performs (hn : kd.Canonical n.records)
    (howner : ∀ r, kd.Valid r → owner r = kd.tenantID r)
    (hof : ∀ t t' id, validKey t id = true → ofTenant t' (recordKey t id) = true → t = t') :
    Performs kd admits (.erase (trimSpace tenant)) e n (n.removeTenant kd owner ofTenant e tenant).1 := by
  unfold removeTenant
  split
  · exact .plain .kept
  have heffect : Effect kd admits (.erase (trimSpace tenant)) e n
      (n.editLocked kd e (removeTenantEdit owner (trimSpace tenant))).node := by
    refine (n.editLocked_spec kd e _).effect ?_ fun cur => canonical_base hn
    intro cur next a hcur h k
    unfold removeTenantEdit at h
    dsimp only at h
    split at h
    · cases h
    cases h
    rw [getElem?_filter_records]
    cases hk : cur[k]? with
    | none => rfl
    | some r => rw [filter_some,filter_some,howner r (hcur k r hk).1]
  dsimp only
  split
  · exact .plain heffect
  refine .released rfl heffect ⟨rfl,rfl,rfl,rfl,?_⟩
  intro t id hvalid hne hmem
  refine Std.ExtTreeMap.mem_filter.mpr ⟨hmem,?_⟩
  by_contra h
  exact hne (hof t _ id hvalid (by simpa using h))

/-- A removal that fails and has not committed changes nothing that the store shows. -/
theorem Node.removeTenant_failed (hfailed : errorOf (n.removeTenant kd owner ofTenant e tenant).2 ≠ none)
    (he : e ≠ .unconfirmed) : (n.removeTenant kd owner ofTenant e tenant).1 = n ∨
      (n.removeTenant kd owner ofTenant e tenant).1 = n.learn := by
  have hspec := n.editLocked_spec kd e (removeTenantEdit owner (trimSpace tenant))
  revert hfailed
  unfold removeTenant
  dsimp only
  split
  · exact fun _ => .inl rfl
  split
  next err herr => exact fun _ => hspec.eq_of_failed (by rw [herr]; simp) he
  next => exact fun h => absurd rfl h

theorem Node.canonical_opened (capacity : Int) (p : Persister) (row : Option (Document E)) :
    kd.Canonical ((newStore capacity : Node E P).setPersister kd p row).records := by
  have hempty : kd.Canonical (newStore capacity : Node E P).records := kd.canonical_empty
  unfold setPersister
  split
  · exact hempty
  · split <;> exact hempty
  split
  · exact hempty
  next fresh hfresh =>
    obtain ⟨saved, -, hsaved⟩ := bind_eq_some_iff.mp hfresh
    exact kd.canonical_applyPending (kd.canonical_decodeSnapshot hsaved) _

theorem Node.refreshShared_effect (loaded : Bool) : Effect kd admits t e n (n.refreshShared kd loaded).1 := by
  unfold refreshShared
  split
  · exact .kept
  next hshared =>
    split
    · exact .kept
    split
    · exact .kept
    next doc hrow =>
      split
      · exact .kept
      next next hnext =>
        have hbase : n.base kd = some next := by
          unfold base
          rw [not_not.mp hshared,hrow]
          exact hnext
        have hlearn : n.learn.authorityKnown = true := by simp [learn,not_not.mp hshared,hrow]
        have heq : { n with records := kd.applyPending n.pendingRevocations next, authorityKnown := true } =
            n.learn.publish (kd.applyPending n.pendingRevocations next) := by
          rw [← hlearn]
          rfl
        rw [heq]
        exact .read hbase

end DsseCore.Authorization
