import DsseCore.EnrolledInventory.Operations
import DsseCore.Lib.Run

/-!
# One device enrolment per permission

Once a device has enrolled, the marker of its row is in memory and in the store, under the count of permissions it enrolled
with.  Saves that fail, saves that land and report an error, merges of lists without a newer permission and restarts keep
it in both places, unless the ledger could not be read and then saves nothing.
-/

namespace DsseCore.EnrolledInventory

open Go Lib Ledger

variable {e : Entry} {rows : Map Entry} {op : LedgerOp} {save : SaveOutcome}
  {id now tenantID group note machineRef : String}
variable {σ : Type} {k : String} {d : Int} {l l' : Ledger}

def Entry.Enrolled (d : Int) (e : Entry) : Prop := e.deviceEnrolled = true ∧ e.deviceEnrolledNonce = d

def Marked (k : String) (d : Int) (rows : Map Entry) : Prop := ∃ e : Entry, rows[k]? = some e ∧ e.Enrolled d

/-- The permission to enrol is used up, in memory and in the store. -/
structure Ledger.Spent (k : String) (d : Int) (l : Ledger) : Prop where
  persister : l.persister = true
  memory : l.persistBlocked = true ∨ Marked k d l.entries
  stored : ∃ current rows, l.stored = .file current rows ∧ Marked k d rows

theorem Entry.Enrolled.migrate (h : e.Enrolled d) : e.migrate.Enrolled d := by
  unfold Entry.migrate
  rwa [if_pos h.1]

theorem Marked.decode {current : Bool} {rows' : Map Entry} (h : Marked k d rows)
    (hd : decodeInventorySnapshot current rows = .ok rows') : Marked k d rows' := by
  unfold decodeInventorySnapshot at hd
  split at hd
  · obtain rfl := Except.ok.inj hd
    cases current with
    | true => exact h
    | false =>
      obtain ⟨e, he, hmark⟩ := h
      refine ⟨e.migrate,?_,hmark.migrate⟩
      rw [if_neg Bool.false_ne_true,Std.ExtTreeMap.getElem?_map,he,Option.map_some]
  · cases hd

theorem spent_reload {current : Bool} (hp : l.persister = true) (hstored : l.stored = .file current rows)
    (hmark : Marked k d rows) (readable : Bool) : (l.reloadFromStore readable).2.Spent k d := by
  unfold reloadFromStore loadLocked
  simp only [hp,hstored]
  cases readable with
  | false => exact ⟨rfl,.inl rfl,_,_,rfl,hmark⟩
  | true =>
    cases hd : decodeInventorySnapshot current rows with
    | error e => exact ⟨rfl,.inl rfl,_,_,rfl,hmark⟩
    | ok rows' => exact ⟨rfl,.inr (hmark.decode hd),_,_,rfl,hmark⟩

theorem Ledger.Spent.reload (h : l.Spent k d) (readable : Bool) : (l.reloadFromStore readable).2.Spent k d := by
  obtain ⟨current, rows, hstored, hmark⟩ := h.stored
  exact spent_reload h.persister hstored hmark readable

theorem Ledger.Spent.restart (h : l.Spent k d) (readable : Bool) : (l.restart readable).2.Spent k d := by
  obtain ⟨current, rows, hstored, hmark⟩ := h.stored
  have hload : ∀ l' : Ledger, l'.persister = true → l'.stored = .file current rows →
      (l'.reloadFromStore readable).2.Spent k d := fun _ hp hs => spent_reload hp hs hmark readable
  exact hload _ h.persister hstored

theorem Ledger.Spent.settled {ok : Bool} (h : l.Spent k d) (hs : Settled l rows ok l')
    (hrows : Marked k d l.entries → Marked k d rows) : l'.Spent k d := by
  obtain ⟨current, old, hstored, hold⟩ := h.stored
  refine ⟨hs.persister.trans h.persister,?_,?_⟩
  · rcases h.memory with hb | hm
    · exact .inl (hs.blocked.trans hb)
    right
    rcases hs.entries with he | he <;> rw [he]
    · exact hm
    · exact hrows hm
  · rcases h.memory with hb | hm
    · exact ⟨current,old,(hs.refused h.persister hb).trans hstored,hold⟩
    rcases hs.stored with he | he
    · exact ⟨current,old,he.trans hstored,hold⟩
    · exact ⟨true,rows,he,hrows hm⟩

/-- The operations of an Edge, merges of lists that name the identity among them. -/
def LedgerOp.OnEdge (k : String) : LedgerOp → Prop
  | .enrolmentReport .. | .enrollGroup .. | .remove .. | .retireTenant .. => False
  | .merge entries _ => ∃ e ∈ entries, normalizeIdentity e.identity = k
  | _ => True

/-- A permission to enrol again: a local one that succeeded, or a newer one in a list that reached the store. -/
def Permits (claimer : Option (IdentityClaimer σ)) (k : String) (d : Int) (n : Node σ) (save : SaveOutcome)
    (op : LedgerOp) : Prop :=
  match op with
  | .allowReenrolment id _ _ => normalizeIdentity id = k ∧ (n.exec claimer save op).1 = true
  | .merge entries _ =>
    (∃ e ∈ entries, normalizeIdentity e.identity = k ∧ d < e.reenrolmentNonce) ∧ save ≠ .failed ∧
      n.ledger.persistBlocked = false
  | _ => False

/-- A local permission of the identity is not saved while its save reports an error. -/
def LedgerOp.Confirmed (k : String) (save : SaveOutcome) : LedgerOp → Prop
  | .allowReenrolment id _ _ => normalizeIdentity id = k → save ≠ .unconfirmed
  | _ => True

def EdgeStep (claimer : Option (IdentityClaimer σ)) (k : String) (n : Node σ) (label : SaveOutcome × LedgerOp)
    (n' : Node σ) : Prop :=
  label.2.OnEdge k ∧ n' = (n.exec claimer label.1 label.2).2

def ConfirmedStep (claimer : Option (IdentityClaimer σ)) (k : String) (n : Node σ) (label : SaveOutcome × LedgerOp)
    (n' : Node σ) : Prop :=
  EdgeStep claimer k n label n' ∧ label.2.Confirmed k label.1

/-- The operations that have nothing to do with the marker of the identity. -/
def LedgerOp.Leaves (k : String) : LedgerOp → Prop
  | .enrollDevice id _ _ _ _ _ | .allowReenrolment id _ _ => normalizeIdentity id ≠ k
  | .enrollGroupForTenant .. | .setGroup .. | .setEnabled .. | .reportedMachine .. => True
  | _ => False

theorem RowChange.enrolled_of_leaves {r : Option Entry} (h : RowChange op k (some e) r) (hop : op.Leaves k)
    (he : e.Enrolled d) : ∃ e', r = some e' ∧ e'.Enrolled d := by
  cases h with
  | same => exact ⟨e,rfl,he⟩
  | kept _ _ hmark hdevice =>
    refine ⟨_,rfl,?_,hdevice.trans he.2⟩
    unfold Entry.deviceEnrolled
    rw [hmark]
    exact he.1
  | enrolled _ _ _ _ _ hop' =>
    rcases hop' with ⟨id, t, g, m, now, ref, rfl, hk⟩ | ⟨id, t, g, m, ref, now, rfl, -⟩
    · exact absurd hk hop
    · exact hop.elim
  | permitted hop' hk =>
    subst hop'
    exact absurd hk hop
  | removed hop' =>
    subst hop'
    exact hop.elim
  | purged hop' =>
    subst hop'
    exact hop.elim
  | retired hop' =>
    subst hop'
    exact hop.elim

theorem LedgerOp.Leaves.edits (h : op.Leaves k) : op.Edits := by
  cases op <;> first | exact trivial | exact h.elim

theorem Ledger.Spent.leaves {ok : Bool} (h : l.Spent k d) (hop : op.Leaves k) (hc : Changes op l ok l') :
    l'.Spent k d := by
  cases hc with
  | nothing => exact h
  | proposed rows hrows hsettled =>
    refine h.settled hsettled fun ⟨e, he, hmark⟩ => ?_
    have hrow := hrows k
    rw [he] at hrow
    exact hrow.enrolled_of_leaves hop hmark

theorem allowReenrolment_undone {callerTenant : String}
    (h : (l.allowReenrolment save id callerTenant now).1.isOk = false) (hsave : save ≠ .unconfirmed) :
    (l.allowReenrolment save id callerTenant now).2 = l := by
  unfold allowReenrolment at h ⊢
  dsimp only at h ⊢
  split
  · rfl
  rename_i hk
  rw [if_neg hk] at h
  cases hr : l.entries[normalizeIdentity id]? with
  | none => rfl
  | some e =>
    rw [hr] at h
    dsimp only at h ⊢
    split
    · rfl
    rename_i hforeign
    rw [if_neg hforeign] at h
    exact commit_undone h (.inl hsave)

theorem Marked.merge {es : List Entry} {entries : Map Entry} (h : Marked k d entries) (hk : k ≠ "")
    (hnamed : ∃ e ∈ es, normalizeIdentity e.identity = k)
    (hnone : ∀ e ∈ es, normalizeIdentity e.identity = k → e.reenrolmentNonce ≤ d) :
    Marked k d (mergeRows now entries es ∅) := by
  obtain ⟨p, hp, hmark⟩ := h
  obtain ⟨r, hr⟩ := mergeRows_named hk hnamed
  refine ⟨r,hr,?_⟩
  rcases mem_mergeRows hr with hr | ⟨e, he, hke, rfl⟩
  · simp at hr
  rw [hp]
  unfold mergeRow
  dsimp only
  rw [if_pos]
  · refine ⟨?_,hmark.2⟩
    have hdevice := hmark.1
    unfold Entry.deviceEnrolled at hdevice ⊢
    exact hdevice
  · simp only [Bool.and_eq_true,decide_eq_true_eq]
    exact ⟨hmark.1,hmark.2 ▸ hnone e he hke⟩

theorem enrollGroupMutateLocked_blocked {mayReEnable : Bool} {complete : Entry → Entry} (hp : l.persister = true)
    (hb : l.persistBlocked = true) :
    (l.enrollGroupMutateLocked true save k tenantID group note now mayReEnable complete).1.isOk = false ∧
      (l.enrollGroupMutateLocked true save k tenantID group note now mayReEnable complete).2 = l := by
  unfold enrollGroupMutateLocked
  split
  · exact ⟨rfl,rfl⟩
  have hfail : ∀ rows (a : Entry), (l.commit true save rows a).1.isOk = false :=
    fun _ _ => commit_unsaved hp (.inr hb)
  exact ⟨hfail _ _,commit_undone (hfail _ _) (.inr hb)⟩

theorem refuseLocally_marked (h : Marked k d l.entries) : l.refuseLocally k tenantID machineRef ≠ none := by
  obtain ⟨e, he, hmark⟩ := h
  unfold refuseLocally refuseRow
  rw [he]
  split
  · exact Option.some_ne_none _
  rw [Option.bind_some,hmark.1]
  dsimp only
  split
  · exact Option.some_ne_none _
  · split <;> exact Option.some_ne_none _

theorem enrollDevice_spent {claimer : Option (IdentityClaimer σ)} {n : Node σ} (h : n.ledger.Spent k d)
    (hk : normalizeIdentity id = k) :
    (enrollDeviceForTenantWithMachine claimer save id tenantID group note now machineRef n).1.isOk = false ∧
      (enrollDeviceForTenantWithMachine claimer save id tenantID group note now machineRef n).2.ledger = n.ledger := by
  subst hk
  rcases enrollDevice_cases claimer n save id tenantID group note now machineRef with ⟨⟨err, herr⟩, hsame⟩ | ⟨hfree, he⟩
  · rw [herr,hsame]
    exact ⟨rfl,rfl⟩
  have hblocked := h.memory.resolve_right fun hm => refuseLocally_marked hm hfree
  obtain ⟨hresult, hledger⟩ := Prod.ext_iff.mp he
  dsimp only at hresult hledger
  rw [hresult,hledger]
  exact enrollGroupMutateLocked_blocked h.persister hblocked

theorem spent_enrollDevice {claimer : Option (IdentityClaimer σ)} {n n' : Node σ} (hp : n.ledger.persister = true)
    (hnow : trimSpace now ≠ "")
    (h : enrollDeviceForTenantWithMachine claimer save id tenantID group note now machineRef n = (.ok e,n')) :
    n'.ledger.Spent (normalizeIdentity id) e.deviceEnrolledNonce := by
  rcases enrollDevice_cases claimer n save id tenantID group note now machineRef with ⟨⟨err, herr⟩, -⟩ | ⟨-, he⟩
  · rw [h] at herr
    cases herr
  rw [h] at he
  replace he := he.symm
  unfold enrollGroupMutateLocked at he
  split at he
  · cases he
  rename_i base _
  obtain ⟨rfl, hs⟩ := commit_ok he
  obtain ⟨hblocked, hstored⟩ := hs.saved rfl hp
  have hmark : Marked (normalizeIdentity id)
      (deviceFields now (normalizeMachineRef machineRef) (enrollFields tenantID group note now base)).deviceEnrolledNonce
      (n.ledger.entries.insert (normalizeIdentity id) (deviceFields now (normalizeMachineRef machineRef)
        (enrollFields tenantID group note now base))) := by
    refine ⟨_,by rw [Map.getElem?_insert_eq,if_pos rfl],?_,rfl⟩
    exact bne_iff_ne.mpr hnow
  exact ⟨hs.persister.trans hp,.inr (hs.accepted rfl ▸ hmark),true,_,hstored,hmark⟩

variable {claimer : Option (IdentityClaimer σ)} {n n' : Node σ}

theorem Ledger.Spent.step {label : SaveOutcome × LedgerOp} (hk : k ≠ "") (h : n.ledger.Spent k d)
    (hs : ConfirmedStep claimer k n label n') : n'.ledger.Spent k d ∨ Permits claimer k d n label.1 label.2 := by
  obtain ⟨⟨hedge, rfl⟩, hconf⟩ := hs
  obtain ⟨save, op⟩ := label
  have hleaves : op.Leaves k → (n.exec claimer save op).2.ledger.Spent k d :=
    fun hop => h.leaves hop (n.exec_changes claimer save hop.edits)
  dsimp only at hedge hconf ⊢
  cases op with
  | enrollDevice id tenantID group note now machineRef =>
    left
    by_cases hid : normalizeIdentity id = k
    · dsimp only [Node.exec]
      rw [(enrollDevice_spent h hid).2]
      exact h
    · exact hleaves hid
  | allowReenrolment id callerTenant now =>
    by_cases hid : normalizeIdentity id = k
    · cases hok : (n.exec claimer save (.allowReenrolment id callerTenant now)).1 with
      | true => exact .inr ⟨hid,hok⟩
      | false =>
        left
        dsimp only [Node.exec,Node.exec.onLedger] at hok ⊢
        rw [allowReenrolment_undone hok (hconf hid)]
        exact h
    · exact .inl (hleaves hid)
  | merge es now =>
    dsimp only [Node.exec,Node.exec.onLedger]
    by_cases hnew : ∃ e ∈ es, normalizeIdentity e.identity = k ∧ d < e.reenrolmentNonce
    · by_cases hlands : save ≠ .failed ∧ n.ledger.persistBlocked = false
      · exact .inr ⟨hnew,hlands⟩
      have hunsaved : save = .failed ∨ n.ledger.persistBlocked = true := by
        rw [not_and_or,not_not,Bool.not_eq_false] at hlands
        exact hlands
      have hsame : (n.ledger.mergeAuthoritative save es now).2 = n.ledger := by
        refine commit_undone (commit_unsaved h.persister hunsaved) ?_
        exact hunsaved.imp_left fun hsave => by rw [hsave]; decide
      rw [hsame]
      exact .inl h
    · left
      refine h.settled (settled_mergeAuthoritative save es now n.ledger) fun hm => hm.merge hk hedge fun e he hke => ?_
      exact not_lt.mp fun hlt => hnew ⟨e,he,hke,hlt⟩
  | reload readable => exact .inl (h.reload readable)
  | restart readable => exact .inl (h.restart readable)
  | enrollGroupForTenant => exact .inl (hleaves trivial)
  | setGroup => exact .inl (hleaves trivial)
  | setEnabled => exact .inl (hleaves trivial)
  | reportedMachine => exact .inl (hleaves trivial)
  | enrolmentReport => exact hedge.elim
  | enrollGroup => exact hedge.elim
  | remove => exact hedge.elim
  | retireTenant => exact hedge.elim

/-- Between two device enrolments of an identity lies a permission, as long as no local permission is saved while its
save reports an error and devices enrol with a time. -/
theorem one_enrolment_per_permission {start n₁ n₂ n₃ : Node σ} {ops : List (SaveOutcome × LedgerOp)}
    {save save' : SaveOutcome} {id tenantID group note now machineRef id' tenantID' group' note' now' machineRef' : String}
    {e e' : Entry} (hpersister : start.ledger.persister = true) (hnow : trimSpace now ≠ "")
    (hid : normalizeIdentity id' = normalizeIdentity id)
    (hfirst : enrollDeviceForTenantWithMachine claimer save id tenantID group note now machineRef start = (.ok e,n₁))
    (hrun : Run (ConfirmedStep claimer (normalizeIdentity id)) n₁ ops n₂)
    (hsecond : enrollDeviceForTenantWithMachine claimer save' id' tenantID' group' note' now' machineRef' n₂ =
      (.ok e',n₃)) :
    ∃ earlier label later m m', ops = earlier ++ label :: later ∧
      Run (ConfirmedStep claimer (normalizeIdentity id)) n₁ earlier m ∧
      ConfirmedStep claimer (normalizeIdentity id) m label m' ∧
      Permits claimer (normalizeIdentity id) e.deviceEnrolledNonce m label.1 label.2 := by
  have hk : normalizeIdentity id ≠ "" := by
    intro hk
    unfold enrollDeviceForTenantWithMachine at hfirst
    rw [if_pos hk] at hfirst
    cases hfirst
  have hspent := spent_enrollDevice hpersister hnow hfirst
  rcases hrun.inv_or (P := fun n => n.ledger.Spent (normalizeIdentity id) e.deviceEnrolledNonce)
    (Q := fun n label => Permits claimer (normalizeIdentity id) e.deviceEnrolledNonce n label.1 label.2) hspent
    (fun _ _ _ h hs => h.step hk hs) with h | h
  · have hfail : (enrollDeviceForTenantWithMachine claimer save' id' tenantID' group' note' now' machineRef'
        n₂).1.isOk = false := (enrollDevice_spent h hid).1
    rw [hsecond] at hfail
    cases hfail
  · exact h

def newEdge : Node Unit := ⟨{ newLedger with persister := true },()⟩

def enrollDesktop (now : String) (n : Node Unit) : Except LedgerError Entry × Node Unit :=
  enrollDeviceForTenantWithMachine none .saved "desktop" "acme" "" "" now "" n

def desktopPermitted : List Entry :=
  [{ identity := "desktop", enabled := true, tenantID := "acme", reenrolmentNonce := 1 }]

def desktopRow (now : String) (nonce : Int) : Entry :=
  { identity := "desktop", enabled := true, tenantID := "acme", enrolledAt := "09:00", updatedAt := now,
    deviceEnrolledAt := now, reenrolmentNonce := nonce, deviceEnrolledNonce := nonce }

/-- A device enrolls a second time after a newer permission was merged. -/
theorem desktop_permitted_between :
    ∃ e n₁ n₂ e' n₃, enrollDesktop "09:00" newEdge = (.ok e,n₁) ∧ enrollDesktop "11:00" n₂ = (.ok e',n₃) ∧
      ∃ earlier label later m m', [(SaveOutcome.saved,LedgerOp.merge desktopPermitted "10:00")] =
          earlier ++ label :: later ∧
        Run (ConfirmedStep none (normalizeIdentity "desktop")) n₁ earlier m ∧
        ConfirmedStep none (normalizeIdentity "desktop") m label m' ∧
        Permits none (normalizeIdentity "desktop") e.deviceEnrolledNonce m label.1 label.2 := by
  have hfirst : enrollDesktop "09:00" newEdge = (.ok (desktopRow "09:00" 0),(enrollDesktop "09:00" newEdge).2) :=
    Prod.ext (by decide +kernel) rfl
  have hstep : ConfirmedStep none (normalizeIdentity "desktop") (enrollDesktop "09:00" newEdge).2
      (.saved,.merge desktopPermitted "10:00")
      (((enrollDesktop "09:00" newEdge).2.exec none .saved (.merge desktopPermitted "10:00")).2) := by
    refine ⟨⟨⟨_,List.mem_singleton_self _,?_⟩,rfl⟩,trivial⟩
    decide +kernel
  have hsecond : enrollDesktop "11:00"
        ((enrollDesktop "09:00" newEdge).2.exec none .saved (.merge desktopPermitted "10:00")).2 =
      (.ok { desktopRow "11:00" 1 with enrolledAt := "" },(enrollDesktop "11:00"
        ((enrollDesktop "09:00" newEdge).2.exec none .saved (.merge desktopPermitted "10:00")).2).2) :=
    Prod.ext (by decide +kernel) rfl
  exact ⟨_,_,_,_,_,hfirst,hsecond,one_enrolment_per_permission rfl (by decide +kernel) rfl hfirst
    (.snoc (.nil _) hstep) hsecond⟩

/-- A permission whose save landed and reported an error is taken back in memory and comes into force with a restart; and
an enrolment without a time leaves no marker. -/
theorem enrolled_twice_without_permission :
    (∃ e n₁ m n₂ e' n₃, enrollDesktop "09:00" newEdge = (.ok e,n₁) ∧
      EdgeStep none "desktop" n₁ (.unconfirmed,.allowReenrolment "desktop" "acme" "10:00") m ∧
      ¬ Permits none "desktop" e.deviceEnrolledNonce n₁ .unconfirmed (.allowReenrolment "desktop" "acme" "10:00") ∧
      EdgeStep none "desktop" m (.saved,.restart true) n₂ ∧
      ¬ Permits none "desktop" e.deviceEnrolledNonce m .saved (.restart true) ∧
      enrollDesktop "11:00" n₂ = (.ok e',n₃)) ∧
    ∃ e n₁ e' n₂, enrollDesktop "" newEdge = (.ok e,n₁) ∧ enrollDesktop "11:00" n₁ = (.ok e',n₂) := by
  refine ⟨⟨desktopRow "09:00" 0,(enrollDesktop "09:00" newEdge).2,_,_,desktopRow "11:00" 1,_,Prod.ext ?_ rfl,
    ⟨trivial,rfl⟩,?_,⟨trivial,rfl⟩,not_false,Prod.ext ?_ rfl⟩,
    { desktopRow "" 0 with enrolledAt := "" },_,{ desktopRow "11:00" 0 with enrolledAt := "" },_,Prod.ext ?_ rfl,
    Prod.ext ?_ rfl⟩
  · decide +kernel
  · rintro ⟨-, h⟩
    revert h
    decide +kernel
  · decide +kernel
  · decide +kernel
  · decide +kernel

end DsseCore.EnrolledInventory
