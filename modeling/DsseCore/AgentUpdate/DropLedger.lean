import DsseCore.AgentUpdate.Version
import DsseCore.Go.Sort
import DsseCore.Lib.Proc
import DsseCore.Lib.Run

/-!
# The count of dropped reports

The outbox keeps a bounded number of reports.  What it drops is counted in a file; a drain claims the count by renaming
that file, hands it over with the first report that is taken, and puts it back when none was.  A process may die after
any operation on a file.
-/

namespace DsseCore.AgentUpdate

open Go Lib Proc Option

structure StoredReport where
  name : String
  readable : Bool := true
  deriving DecidableEq

@[irreducible] def maxStoredReports : ℕ := 200

inductive FileOp where
  | writeReport
  | removeOldest
  | addDropped
  | restoreClaim
  | removeRestored
  | rename
  | removeEmpty
  | removeReport
  | removeDelivered
  | removeUndelivered
  deriving DecidableEq

/-- The directory of the reports.  Nothing reads `lost`, the reports that were dropped, and `acknowledged`, how many of
them the fleet has been told about. -/
structure ReportDir where
  reports : List StoredReport := []
  dropped : Option ℕ := none
  claimed : Option ℕ := none
  /-- The process dies before this operation, when it has been done so many times. -/
  crash : Option (FileOp × ℕ) := none
  lost : ℕ := 0
  acknowledged : ℕ := 0
  deriving DecidableEq

namespace ReportDir

variable (s : ReportDir)

def setCrash (c : Option (FileOp × ℕ)) : ReportDir := { s with crash := c }

def store (r : StoredReport) : ReportDir := { s with reports := s.reports.filter (·.name ≠ r.name) ++ [r] }

def remove (name : String) : ReportDir := { s with reports := s.reports.filter (·.name ≠ name) }

def drop (name : String) : ReportDir := { s.remove name with lost := s.lost + 1 }

def addDropped (n : ℕ) : ReportDir := { s with dropped := some (s.dropped.getD 0 + n) }

def removeClaim : ReportDir := { s with claimed := none }

def claimLedger : ReportDir := { s with claimed := s.dropped,dropped := none }

def acknowledge (n : ℕ) : ReportDir := { s with acknowledged := s.acknowledged + n }

end ReportDir

/-- The text from the last occurrence of `p` on. -/
def fromLast (p : List Char) : List Char → Option (List Char)
  | [] => none
  | c :: l => (fromLast p l).or (if p.isPrefixOf (c :: l) then some (c :: l) else none)

def reportIDOrder (name : String) : Option (Int × Int) :=
  let base := (trimSuffix name ".json").toList
  let base := (fromLast "-aue_".toList base).elim base List.tail
  match split (String.ofList base) '_' with
  | ["aue", nano, seq] => do some (← atoi nano,← atoi seq)
  | _ => none

def reportBefore (a b : StoredReport) : Bool :=
  match reportIDOrder a.name, reportIDOrder b.name with
  | some (na, sa), some (nb, sb) => if na ≠ nb then na < nb else sa < sb
  | _, _ => a.name < b.name

def reportFiles (s : ReportDir) : List StoredReport := sliceStable reportBefore s.reports

abbrev Io := Proc ReportDir Unit

def fileOp (o : FileOp) (f : ReportDir → ReportDir) : Io Unit := fun s =>
  match s.crash with
  | some (o', n) =>
    if o' = o then match n with
      | 0 => (.error (),s)
      | n + 1 => (.ok (),(f s).setCrash (some (o',n)))
    else (.ok (),f s)
  | none => (.ok (),f s)

def addDropped (n : ℕ) : Io Unit := fileOp .addDropped (·.addDropped n)

def dropAll : List StoredReport → Io Unit
  | [] => pure ()
  | r :: rs => do
    fileOp .removeOldest (·.drop r.name)
    dropAll rs

def pruneReports : Io Unit := do
  let s ← get
  let oldest := (reportFiles s).take (s.reports.length - maxStoredReports)
  dropAll oldest
  onlyIf (oldest ≠ []) (addDropped oldest.length)

def sanitiseReportID (id : String) : String :=
  if trimSpace id = "" then "report"
  else String.ofList ((trimSpace id).toList.map fun c =>
    if c.isAlphanum || c == '-' || c == '_' then c else '_')

def reportName («at» id : String) : String :=
  String.ofList («at».toList.filter (· ≠ ':')) ++ "-" ++ sanitiseReportID id ++ ".json"

def appendReport («at» id : String) : Io Unit :=
  onlyIf (trimSpace «at» ≠ "") (do
    fileOp .writeReport (·.store { name := reportName «at» id })
    pruneReports)

/-- `recoverDroppedClaimLocked`: a claim that was left behind goes back. -/
def recoverDroppedClaim : Io Unit := do
  let s ← get
  match s.claimed with
  | some (n + 1) => do
    fileOp .restoreClaim (·.addDropped (n + 1))
    fileOp .removeRestored (·.removeClaim)
  | some 0 | none => fileOp .removeRestored (·.removeClaim)

def claimDropped : Io (Option ℕ) := do
  recoverDroppedClaim
  let s ← get
  match s.dropped with
  | none => pure none
  | some n => do
    fileOp .rename (·.claimLedger)
    if n = 0 then do
      fileOp .removeEmpty (·.removeClaim)
      pure none
    else pure (some n)

def releaseDropped (delivered : Bool) : Io Unit :=
  if delivered then fileOp .removeDelivered (·.removeClaim)
  else do
    let s ← get
    fileOp .removeUndelivered (·.removeClaim)
    match s.claimed with
    | some (n + 1) => addDropped (n + 1)
    | some 0 | none => pure ()

/-- The reports are sent in order, until one is not taken; `n` is the count that goes with the next one. -/
def sendReports : List StoredReport → List Bool → ℕ → Bool → Io Bool
  | [], _, _, delivered => pure delivered
  | r :: rs, answers, n, delivered =>
    if r.readable = false then do
      fileOp .removeReport (·.remove r.name)
      sendReports rs answers n delivered
    else match answers with
      | true :: answers => do
        modify (·.acknowledge n)
        fileOp .removeReport (·.remove r.name)
        sendReports rs answers 0 (delivered || decide (0 < n))
      | false :: _ | [] => pure delivered

def drainReports (answers : List Bool) : Io Unit := do
  let s ← get
  let claim ← claimDropped
  let delivered ← sendReports (reportFiles s) answers (claim.getD 0) false
  onlyIf (claim.isSome = true) (releaseDropped delivered)

/-- Somebody who claimed a count, and whether it has been acknowledged. -/
structure Claimer where
  count : ℕ
  acknowledged : Bool := false
  deriving DecidableEq

structure Ledger where
  dir : ReportDir := {}
  claimers : List Claimer := []
  deriving DecidableEq

/-- The calls, with where the process dies; a claimer can hand its count over, and can be gone. -/
inductive LedgerCall where
  | append («at» id : String) (crash : Option (FileOp × ℕ))
  | drain (answers : List Bool) (crash : Option (FileOp × ℕ))
  | claim (crash : Option (FileOp × ℕ))
  | deliver (i : ℕ)
  | release (i : ℕ) (crash : Option (FileOp × ℕ))
  | gone (i : ℕ)

def perform {α : Type} (x : Io α) (crash : Option (FileOp × ℕ)) (s : ReportDir) : Option α × ReportDir :=
  let r := x (s.setCrash crash)
  (r.1.toOption,r.2.setCrash none)

namespace Ledger

variable (l : Ledger)

def onDir {α : Type} (x : Io α) (crash : Option (FileOp × ℕ)) : Ledger := { l with dir := (perform x crash l.dir).2 }

def after : LedgerCall → Ledger
  | .append «at» id crash => l.onDir (appendReport «at» id) crash
  | .drain answers crash => l.onDir (drainReports answers) crash
  | .claim crash =>
    { dir := (perform claimDropped crash l.dir).2
      claimers := l.claimers ++ ((perform claimDropped crash l.dir).1.join.map fun n => ⟨n,false⟩).toList }
  | .deliver i =>
    match l.claimers[i]? with
    | some c =>
      if c.acknowledged then l
      else { dir := l.dir.acknowledge c.count,claimers := l.claimers.set i { c with acknowledged := true } }
    | none => l
  | .release i crash =>
    match l.claimers[i]? with
    | some c => { l.onDir (releaseDropped c.acknowledged) crash with claimers := l.claimers.eraseIdx i }
    | none => l
  | .gone i => { l with claimers := l.claimers.eraseIdx i }

def Conserves : Prop :=
  l.dir.lost ≤ l.dir.dropped.getD 0 + l.dir.claimed.getD 0 + l.dir.acknowledged

instance : Decidable l.Conserves := inferInstanceAs (Decidable (_ ≤ _))

end Ledger

/-- The process does not die between the removal of a report, or of a claim, and the entry that counts it. -/
def Survivable : Option (FileOp × ℕ) → Prop
  | some (.addDropped, _) => False
  | some (.removeOldest, _ + 1) => False
  | _ => True

/-- What the count relies on: nobody claims it while somebody else has it. -/
def LedgerCall.Careful (l : Ledger) : LedgerCall → Prop
  | append _ _ crash => Survivable crash
  | drain _ crash => Survivable crash ∧ l.claimers = []
  | claim _ => l.claimers = []
  | release _ crash => Survivable crash
  | deliver _ | gone _ => True

variable {s t : ReportDir} {o : FileOp} {f : ReportDir → ReportDir} {k : ℕ} {Q R : Unit → ReportDir → Prop}

/-- The counts are `k` more than what was lost. -/
def Covered (k : ℕ) (s : ReportDir) : Prop := s.lost + k ≤ s.dropped.getD 0 + s.claimed.getD 0 + s.acknowledged

/-- The process does not die before an entry in the ledger. -/
def Enters (s : ReportDir) : Prop := ∀ n, s.crash ≠ some (.addDropped,n)

theorem fileOp_ends (hf : (f s).crash = s.crash)
    (hq : ∀ c, c = s.crash ∨ (∃ n, c = some (o,n)) → Q () ((f s).setCrash c)) (hr : R () s) :
    (fileOp o f).Ends s Q R := by
  have hsame : Q () (f s) := by
    have := hq (f s).crash (.inl hf)
    exact this
  unfold Ends fileOp
  cases hc : s.crash with
  | none => exact hsame
  | some e =>
    obtain ⟨o', n⟩ := e
    dsimp only
    by_cases ho : o' = o
    · rw [if_pos ho]
      cases n with
      | zero => exact hr
      | succ n => exact hq _ (.inr ⟨n,by rw [ho]⟩)
    · rw [if_neg ho]
      exact hsame

theorem fileOp_done (h : ∀ n, s.crash ≠ some (o,n)) (hq : Q () (f s)) : (fileOp o f).Ends s Q R := by
  unfold Ends fileOp
  cases hc : s.crash with
  | none => exact hq
  | some e =>
    obtain ⟨o', n⟩ := e
    dsimp only
    rw [if_neg fun ho => h n (by rw [hc,ho])]
    exact hq

theorem Enters.setCrash (h : Enters s) (ho : o ≠ .addDropped) {c : Option (FileOp × ℕ)}
    (hc : c = s.crash ∨ ∃ n, c = some (o,n)) : Enters (t.setCrash c) := by
  intro n hn
  rcases hc with rfl | ⟨m, rfl⟩
  · exact h n hn
  · exact ho (Prod.mk.inj (some.inj hn)).1

structure Dropped (n : ℕ) (s t : ReportDir) : Prop where
  lost : t.lost = s.lost + n
  dropped : t.dropped = s.dropped
  claimed : t.claimed = s.claimed
  acknowledged : t.acknowledged = s.acknowledged
  crash : t.crash = s.crash

theorem dropAll_ends (l : List StoredReport) (h : ∀ n, s.crash ≠ some (.removeOldest,n)) :
    (dropAll l).Ends s (fun _ t => Dropped l.length s t) R := by
  induction l generalizing s with
  | nil => exact ⟨rfl,rfl,rfl,rfl,rfl⟩
  | cons r rs ih =>
    unfold dropAll
    rw [ends_bind]
    refine fileOp_done h ((ih (s := s.drop r.name) h).mono (fun _ t ht => ?_) fun _ _ hr => hr)
    refine ⟨?_,ht.dropped,ht.claimed,ht.acknowledged,ht.crash⟩
    rw [ht.lost,ReportDir.drop,List.length_cons]
    dsimp only
    omega

theorem pruneReports_ends (h : Covered k s) (hc : Survivable s.crash) :
    pruneReports.Ends s (fun _ t => Covered k t ∧ t.claimed = s.claimed) fun _ t => Covered k t ∧ t.claimed = s.claimed := by
  unfold pruneReports
  rw [ends_bind,ends_get]
  generalize (reportFiles s).take (s.reports.length - maxStoredReports) = oldest
  by_cases hfirst : s.crash = some (.removeOldest,0)
  · cases oldest with
    | nil => exact ⟨h,rfl⟩
    | cons r rs =>
      have hdies : (fileOp .removeOldest (·.drop r.name)).Ends s (fun _ _ => False)
          fun _ t => Covered k t ∧ t.claimed = s.claimed := by
        unfold Ends fileOp
        rw [hfirst]
        exact ⟨h,rfl⟩
      exact (Proc.Ends.bind hdies fun _ _ hf => hf.elim : (dropAll (r :: rs)).Ends s (fun _ _ => False) _).bind
        fun _ _ hf => hf.elim
  · have hnot : ∀ n, s.crash ≠ some (.removeOldest,n) := by
      intro n hn
      cases n with
      | zero => exact hfirst hn
      | succ n =>
        rw [hn] at hc
        exact hc
    have henters : Enters s := by
      intro n hn
      rw [hn] at hc
      exact hc
    refine (dropAll_ends oldest hnot).bind fun _ t ht => ?_
    unfold Covered at h ⊢
    refine .onlyIf (fun _ => fileOp_done (fun n hn => henters n (ht.crash ▸ hn)) ⟨?_,ht.claimed⟩) fun hnone => ⟨?_,ht.claimed⟩
    · simp only [ReportDir.addDropped,getD_some]
      rw [ht.lost,ht.dropped,ht.claimed,ht.acknowledged]
      omega
    · rw [ht.lost,ht.dropped,ht.claimed,ht.acknowledged,not_not.mp hnone]
      exact h

theorem appendReport_ends («at» id : String) (h : Covered k s) (hc : Survivable s.crash) :
    (appendReport «at» id).Ends s (fun _ t => Covered k t ∧ t.claimed = s.claimed)
      fun _ t => Covered k t ∧ t.claimed = s.claimed := by
  refine .onlyIf (fun _ => ?_) fun _ => ⟨h,rfl⟩
  generalize reportName «at» id = name
  have hwritten : (fileOp .writeReport (·.store { name := name })).Ends s
      (fun _ t => Covered k t ∧ t.claimed = s.claimed ∧ Survivable t.crash) fun _ t => Covered k t ∧ t.claimed = s.claimed := by
    refine fileOp_ends rfl (fun c hcrash => ⟨h,rfl,?_⟩) ⟨h,rfl⟩
    rcases hcrash with rfl | ⟨n, rfl⟩
    · exact hc
    · exact trivial
  refine hwritten.bind fun _ t ⟨ht, hclaimed, hcrash⟩ => ?_
  rw [← hclaimed]
  exact pruneReports_ends ht hcrash

theorem recoverDroppedClaim_ends (h : Covered 0 s) :
    recoverDroppedClaim.Ends s (fun _ t => Covered 0 t ∧ t.claimed = none ∧ (Enters s → Enters t))
      fun _ t => Covered 0 t := by
  unfold recoverDroppedClaim
  rw [ends_bind,ends_get]
  split
  · rename_i n hn
    rw [ends_bind]
    refine fileOp_ends rfl (fun c hc => fileOp_ends rfl (fun c' hc' => ⟨?_,rfl,fun he => ?_⟩) ?_) h
    · unfold Covered at h ⊢
      simp only [ReportDir.setCrash,ReportDir.addDropped,ReportDir.removeClaim,getD_some]
      rw [hn,getD_some] at h
      omega
    · exact Enters.setCrash (he.setCrash (t := s) (by decide) hc) (by decide) hc'
    unfold Covered at h ⊢
    simp only [ReportDir.setCrash,ReportDir.addDropped,getD_some]
    omega
  all_goals
    rename_i hn
    refine fileOp_ends rfl (fun c hc => ⟨?_,rfl,fun he => he.setCrash (by decide) hc⟩) h
    unfold Covered at h ⊢
    simpa [ReportDir.setCrash,ReportDir.removeClaim,hn] using h

theorem claimDropped_ends (h : Covered 0 s) :
    claimDropped.Ends s
      (fun c t => Covered 0 t ∧ (∀ n, c = some n → t.claimed = some n ∧ 0 < n) ∧ (Enters s → Enters t))
      fun _ t => Covered 0 t := by
  refine (recoverDroppedClaim_ends h).bind fun _ t ⟨ht, hnone, henters⟩ => ?_
  rw [ends_bind,ends_get]
  split
  · exact ⟨ht,nofun,henters⟩
  rename_i n hn
  have hmoved : ∀ c, Covered 0 (t.claimLedger.setCrash c) := by
    intro c
    unfold Covered at ht ⊢
    simpa [ReportDir.setCrash,ReportDir.claimLedger,hnone] using ht
  rw [ends_bind]
  refine fileOp_ends rfl (fun c hc => ?_) ht
  split
  · rename_i hzero
    rw [ends_bind]
    refine fileOp_ends rfl (fun c' hc' => ⟨?_,nofun,fun he => ?_⟩) (hmoved c)
    · unfold Covered at ht ⊢
      simpa [ReportDir.setCrash,ReportDir.claimLedger,ReportDir.removeClaim,hnone,hn,hzero] using ht
    · exact Enters.setCrash ((henters he).setCrash (t := t) (by decide) hc) (by decide) hc'
  · refine ⟨hmoved c,fun m hm => ?_,fun he => (henters he).setCrash (by decide) hc⟩
    obtain rfl := some.inj hm
    exact ⟨hn,by omega⟩

theorem releaseDropped_ends {n : ℕ} {delivered : Bool} (hn : s.claimed = some n)
    (h : Covered (if delivered then n else 0) s) (he : Enters s) :
    (releaseDropped delivered).Ends s (fun _ t => Covered 0 t) fun _ t => Covered 0 t := by
  have hnow : Covered 0 s := by
    unfold Covered at h ⊢
    omega
  unfold releaseDropped
  cases delivered with
  | true =>
    refine fileOp_ends rfl (fun c _ => ?_) hnow
    unfold Covered at h ⊢
    simp only [ReportDir.setCrash,ReportDir.removeClaim]
    rw [hn,getD_some,if_pos rfl] at h
    omega
  | false =>
    rw [if_neg Bool.false_ne_true,ends_bind,ends_get,ends_bind]
    refine fileOp_ends rfl (fun c hc => ?_) hnow
    have henters : Enters (s.removeClaim.setCrash c) := he.setCrash (by decide) hc
    rw [hn]
    cases n with
    | zero =>
      unfold Covered at h ⊢
      simpa [ReportDir.setCrash,ReportDir.removeClaim,hn] using h
    | succ n =>
      refine fileOp_done henters ?_
      unfold Covered at h ⊢
      simp only [ReportDir.setCrash,ReportDir.removeClaim,ReportDir.addDropped,getD_some]
      rw [hn,getD_some] at h
      omega

theorem sendReports_ends (l : List StoredReport) (answers : List Bool) (n : ℕ) (delivered : Bool)
    (h : Covered k s) (he : Enters s) :
    (sendReports l answers n delivered).Ends s
      (fun d t => t.claimed = s.claimed ∧ Enters t ∧
        (d = delivered ∧ Covered k t ∨ d = (delivered || decide (0 < n)) ∧ Covered (k + n) t))
      fun _ t => Covered k t := by
  induction l generalizing s answers n delivered k with
  | nil => exact ⟨rfl,he,.inl ⟨rfl,h⟩⟩
  | cons r rs ih =>
    unfold sendReports
    split
    · rw [ends_bind]
      refine fileOp_ends rfl (fun c hc => ?_) h
      exact ih answers n delivered h (he.setCrash (by decide) hc)
    split
    · have hacked : Covered (k + n) (s.acknowledge n) := by
        unfold Covered ReportDir.acknowledge at *
        dsimp only
        omega
      have hbefore : ∀ t, Covered (k + n) t → Covered k t := by
        intro t ht
        unfold Covered at ht ⊢
        omega
      rw [ends_bind,ends_modify,ends_bind]
      refine fileOp_ends rfl (fun c hc => ?_) (hbefore _ hacked)
      have hrest := ih (s := ((s.acknowledge n).remove r.name).setCrash c) (k := k + n) ‹List Bool› 0
        (delivered || decide (0 < n)) hacked (he.setCrash (by decide) hc)
      refine hrest.mono (fun d t ⟨hclaimed, henters, hd⟩ => ⟨hclaimed,henters,.inr ?_⟩) fun _ t ht => hbefore t ht
      rcases hd with ⟨rfl, ht⟩ | ⟨rfl, ht⟩
      · exact ⟨rfl,ht⟩
      · exact ⟨by simp,ht⟩
    · exact ⟨rfl,he,.inl ⟨rfl,h⟩⟩
    · exact ⟨rfl,he,.inl ⟨rfl,h⟩⟩

theorem drainReports_ends (answers : List Bool) (h : Covered 0 s) (he : Enters s) :
    (drainReports answers).Ends s (fun _ t => Covered 0 t) fun _ t => Covered 0 t := by
  refine (claimDropped_ends h).bind fun claim t ⟨ht, hclaim, henters⟩ => ?_
  refine (sendReports_ends _ answers (claim.getD 0) false ht (henters he)).bind fun d u ⟨hclaimed, hu, hd⟩ => ?_
  cases claim with
  | none =>
    rcases hd with ⟨-, hcov⟩ | ⟨-, hcov⟩
    · exact hcov
    · exact hcov
  | some n =>
    obtain ⟨hn, hpos⟩ := hclaim n rfl
    refine .onlyIf (fun _ => releaseDropped_ends (hclaimed.trans hn) ?_ hu) fun hc => absurd rfl hc
    rcases hd with ⟨rfl, hcov⟩ | ⟨rfl, hcov⟩
    · exact hcov
    · simpa [hpos] using hcov

variable {l : Ledger} {crash : Option (FileOp × ℕ)}

theorem perform_covered {α : Type} {x : Io α} {Q : α → ReportDir → Prop} (h : x.Ends (s.setCrash crash) Q R) :
    (∃ a t, perform x crash s = (some a,t.setCrash none) ∧ Q a t) ∨ ∃ t, perform x crash s = (none,t.setCrash none) ∧ R () t := by
  unfold Ends at h
  unfold perform
  cases hx : x (s.setCrash crash) with
  | mk r t =>
    rw [hx] at h
    cases r with
    | ok a => exact .inl ⟨a,t,rfl,h⟩
    | error e => exact .inr ⟨t,rfl,h⟩

/-- What holds between the calls: at most one claimer, whose count is in the claim file and, once it was acknowledged, is
counted twice. -/
structure Accounts (l : Ledger) : Prop where
  alone : l.claimers.length ≤ 1
  covered : Covered 0 l.dir
  claimed : ∀ c ∈ l.claimers, l.dir.claimed = some c.count ∧ Covered (if c.acknowledged then c.count else 0) l.dir

theorem survivable_enters (h : Survivable crash) : Enters (s.setCrash crash) := by
  intro n hn
  rw [show crash = some (.addDropped,n) from hn] at h
  exact h

section

variable (h : Accounts l)
include h

theorem Accounts.append («at» id : String) (hc : Survivable crash) : Accounts (l.after (.append «at» id crash)) := by
  have hkeeps : ∀ k, Covered k l.dir → Covered k (perform (appendReport «at» id) crash l.dir).2 ∧
      (perform (appendReport «at» id) crash l.dir).2.claimed = l.dir.claimed := by
    intro k hk
    have hk' : Covered k (l.dir.setCrash crash) := hk
    rcases perform_covered (appendReport_ends «at» id hk' hc) with ⟨a, t, ht, hcov, hcl⟩ | ⟨t, ht, hcov, hcl⟩
    · rw [ht]
      exact ⟨hcov,hcl⟩
    · rw [ht]
      exact ⟨hcov,hcl⟩
  unfold Ledger.after Ledger.onDir
  dsimp only
  generalize (perform (appendReport «at» id) crash l.dir).2 = t at hkeeps ⊢
  refine ⟨h.alone,(hkeeps 0 h.covered).1,fun c hmem => ?_⟩
  obtain ⟨hcount, hcov⟩ := h.claimed c hmem
  exact ⟨(hkeeps 0 h.covered).2.trans hcount,(hkeeps _ hcov).1⟩

theorem Accounts.drain (answers : List Bool) (hc : Survivable crash) (hnone : l.claimers = []) :
    Accounts (l.after (.drain answers crash)) := by
  have hcov : Covered 0 (l.dir.setCrash crash) := h.covered
  have hafter : Covered 0 (perform (drainReports answers) crash l.dir).2 := by
    rcases perform_covered (drainReports_ends answers hcov (survivable_enters hc)) with ⟨a, t, ht, ht'⟩ | ⟨t, ht, ht'⟩
    · rw [ht]
      exact ht'
    · rw [ht]
      exact ht'
  unfold Ledger.after Ledger.onDir
  dsimp only
  generalize (perform (drainReports answers) crash l.dir).2 = t at hafter ⊢
  refine ⟨h.alone,hafter,fun c hmem => ?_⟩
  rw [hnone] at hmem
  cases hmem

theorem Accounts.claim (crash : Option (FileOp × ℕ)) (hnone : l.claimers = []) :
    Accounts (l.after (.claim crash)) := by
  have hcov : Covered 0 (l.dir.setCrash crash) := h.covered
  unfold Ledger.after
  dsimp only
  rw [hnone]
  rcases perform_covered (claimDropped_ends hcov) with ⟨a, t, ht, hcov', hclaim, -⟩ | ⟨t, ht, hcov'⟩
  · rw [ht]
    cases a with
    | none => exact ⟨by simp,hcov',by simp⟩
    | some n =>
      refine ⟨by simp,hcov',fun c hmem => ?_⟩
      obtain rfl : c = ⟨n,false⟩ := by simpa using hmem
      exact ⟨(hclaim n rfl).1,hcov'⟩
  · rw [ht]
    exact ⟨by simp,hcov',by simp⟩

theorem Accounts.at_index {i : ℕ} {c : Claimer} (hi : l.claimers[i]? = some c) : l.claimers = [c] ∧ i = 0 := by
  have halone := h.alone
  cases hl : l.claimers with
  | nil => simp [hl] at hi
  | cons d ds =>
    rw [hl,List.length_cons] at halone
    obtain rfl := List.eq_nil_of_length_eq_zero (by omega : ds.length = 0)
    rw [hl] at hi
    cases i with
    | zero => exact ⟨by simpa using hi,rfl⟩
    | succ i => simp at hi

theorem Accounts.deliver (i : ℕ) : Accounts (l.after (.deliver i)) := by
  unfold Ledger.after
  dsimp only
  split
  · rename_i c hi
    obtain ⟨hone, rfl⟩ := h.at_index hi
    obtain ⟨hcount, hcov⟩ := h.claimed c (by rw [hone]; exact List.mem_cons_self)
    split
    · exact h
    have hmore : Covered c.count (l.dir.acknowledge c.count) := by
      unfold Covered ReportDir.acknowledge at *
      dsimp only
      omega
    rw [hone]
    refine ⟨by simp,?_,fun d hd => ?_⟩
    · unfold Covered at hmore ⊢
      dsimp only
      omega
    · obtain rfl : d = { c with acknowledged := true } := by simpa using hd
      exact ⟨hcount,hmore⟩
  · exact h

theorem Accounts.release (i : ℕ) (hc : Survivable crash) : Accounts (l.after (.release i crash)) := by
  unfold Ledger.after
  dsimp only
  split
  · rename_i c hi
    obtain ⟨hone, rfl⟩ := h.at_index hi
    obtain ⟨hcount, hcov⟩ := h.claimed c (by rw [hone]; exact List.mem_cons_self)
    have hcov' : Covered (if c.acknowledged then c.count else 0) (l.dir.setCrash crash) := hcov
    have hcount' : (l.dir.setCrash crash).claimed = some c.count := hcount
    have hafter : Covered 0 (perform (releaseDropped c.acknowledged) crash l.dir).2 := by
      rcases perform_covered (releaseDropped_ends hcount' hcov' (survivable_enters hc)) with ⟨a, t, ht, ht'⟩ | ⟨t, ht, ht'⟩
      · rw [ht]
        exact ht'
      · rw [ht]
        exact ht'
    rw [hone]
    exact ⟨by simp,hafter,by simp⟩
  · exact h

theorem Accounts.gone (i : ℕ) : Accounts (l.after (.gone i)) := by
  refine ⟨(List.length_eraseIdx_le _ _).trans h.alone,h.covered,fun c hmem => ?_⟩
  exact h.claimed c (List.mem_of_mem_eraseIdx hmem)

theorem Accounts.after {c : LedgerCall} (hc : c.Careful l) : Accounts (l.after c) := by
  cases c with
  | append «at» id crash => exact h.append «at» id hc
  | drain answers crash => exact h.drain answers hc.1 hc.2
  | claim crash => exact h.claim crash hc
  | deliver i => exact h.deliver i
  | release i crash => exact h.release i hc
  | gone i => exact h.gone i

end

/-- While nobody claims the count that somebody else has, and no process dies between a removal and the entry that counts
it, no dropped report goes uncounted. -/
theorem dropped_reports_counted {start : Ledger} {calls : List LedgerCall} (hstart : start.Conserves)
    (hnobody : start.claimers = []) (h : Run (fun l c m => c.Careful l ∧ m = l.after c) start calls l) :
    l.Conserves := by
  have haccounts : Accounts start := ⟨by simp [hnobody],hstart,by simp [hnobody]⟩
  have hend : Accounts l := by
    refine h.inv haccounts fun l c m hl => ?_
    rintro ⟨hc, rfl⟩
    exact hl.after hc
  exact hend.covered

def fullOutbox : Ledger :=
  { dir :=
      { reports := (List.range 200).map fun n => { name := String.ofList [Char.ofNat (1000 + n), '.', 'j', 's', 'o', 'n'] }
        dropped := some 1
        lost := 1 } }

def Ledger.afterAll (l : Ledger) (calls : List LedgerCall) : Ledger := calls.foldl Ledger.after l

/-- With a claimer that puts its count back, the report that was dropped is still counted. -/
theorem dropped_report_put_back :
    (((fullOutbox.after (.append "s" "" none)).after (.claim none)).after (.release 0 none)).Conserves := by
  have hcalls : Run (fun l c m => LedgerCall.Careful l c ∧ m = l.after c) fullOutbox
      ([] ++ [.append "s" "" none] ++ [.claim none] ++ [.release 0 none])
      (((fullOutbox.after (.append "s" "" none)).after (.claim none)).after (.release 0 none)) :=
    .snoc (.snoc (.snoc (.nil _) ⟨trivial,rfl⟩) ⟨rfl,rfl⟩) ⟨trivial,rfl⟩
  exact dropped_reports_counted (by decide +kernel) rfl hcalls

/-- A report is dropped and the process dies before it is counted; an undelivered claim is removed and the process dies
before it is put back; somebody claims what is claimed already, and the first claimer removes the claim of both. -/
theorem dropped_reports_uncounted :
    fullOutbox.Conserves ∧
    ¬ (fullOutbox.afterAll [.append "s" "" (some (.addDropped,0))]).Conserves ∧
    ¬ (fullOutbox.afterAll [.claim none,.release 0 (some (.addDropped,0))]).Conserves ∧
    ¬ (fullOutbox.afterAll [.claim none,.append "s" "" none,.claim none,.deliver 0,.release 0 none]).Conserves := by
  decide +kernel

end DsseCore.AgentUpdate
