import DsseCore.Dlp.Seams

/-!
# Streaming detection

What the scanner counted and what is left in its window make up the scan of everything that was written, as long as
every cut was made at a seam.
-/

namespace DsseCore.Dlp

open Go Lib List Scanner
open Std (ExtTreeMap)

variable {dropTo : ℕ} {l r data d : List Byte} {opts : Options} {found : List Found}

theorem lowerOnce_eq (h : ∀ m ∈ found, ¬ (m.start < dropTo ∧ m.stop > dropTo)) : lowerOnce found dropTo = dropTo := by
  unfold lowerOnce
  induction found with
  | nil => rfl
  | cons m found ih =>
    rw [foldl_cons,if_neg (h m mem_cons_self)]
    exact ih fun m' hm' => h m' (mem_cons_of_mem m hm')

theorem lowerFuel_eq (h : ∀ m ∈ found, ¬ (m.start < dropTo ∧ m.stop > dropTo)) (fuel : ℕ) :
    lowerFuel found fuel dropTo = dropTo := by
  cases fuel with
  | zero => rfl
  | succ fuel => rw [lowerFuel,if_pos (lowerOnce_eq h)]

theorem side_of_mem (hseam : Seam l r) {m : Found} (hm : m ∈ scanBaseAll opts (l ++ r)) :
    m.stop ≤ l.length ∨ l.length ≤ m.start := by
  rcases mem_append.mp ((scanBaseAll_append opts hseam).mem_iff.mp hm) with hm | hm
  · exact .inl (scanBaseAll_within opts hm).2
  · obtain ⟨m', -, rfl⟩ := mem_map.mp hm
    exact .inr (by simp)

theorem windowCommit_seam (opts : Options) (hseam : Seam l r) (hr : r.length = windowSize) :
    windowCommit (l ++ r) (scanBaseAll opts (l ++ r)) false = l.length := by
  have hlen : (l ++ r).length - windowSize = l.length := by
    rw [length_append]
    omega
  rw [windowCommit,hlen]
  refine lowerFuel_eq (fun m hm h => ?_) _
  rcases side_of_mem hseam hm with hs | hs <;> omega

theorem typesBefore_seam (hseam : Seam l r) :
    (typesBefore (scanBaseAll opts (l ++ r)) l.length).Perm ((scanBaseAll opts l).map (·.typ)) := by
  refine List.Perm.map _ (((scanBaseAll_append opts hseam).filter _).trans (.of_eq ?_))
  rw [filter_append,filter_eq_self.mpr,filter_eq_nil_iff.mpr,append_nil]
  · intro m hm
    obtain ⟨m', hm', rfl⟩ := mem_map.mp hm
    have hpos := (scanBaseAll_within opts hm').1
    rw [Match.shift_stop,decide_eq_true_eq]
    omega
  · intro m hm
    exact decide_eq_true (scanBaseAll_within opts hm).2

theorem typesBefore_zero (opts : Options) (data : List Byte) : typesBefore (scanBaseAll opts data) 0 = [] := by
  unfold typesBefore
  rw [map_eq_nil_iff,filter_eq_nil_iff]
  intro m hm
  have hpos := (scanBaseAll_within opts hm).1
  rw [decide_eq_true_eq]
  omega

theorem typesBefore_length (opts : Options) (data : List Byte) :
    typesBefore (scanBaseAll opts data) data.length = (scanBaseAll opts data).map (·.typ) := by
  unfold typesBefore
  rw [filter_eq_self.mpr fun m hm => decide_eq_true (scanBaseAll_within opts hm).2]

variable {s : Scanner} {t : IdentifierType} {c : CustomStreamState}

def baseCount (opts : Options) (t : IdentifierType) (data : List Byte) : ℕ :=
  ((scanBaseAll opts data).map (·.typ)).count t

theorem baseCount_append (hseam : Seam l r) :
    baseCount opts t (l ++ r) = baseCount opts t l + baseCount opts t r := by
  unfold baseCount
  rw [((scanBaseAll_append opts hseam).map (·.typ)).count_eq,map_append,count_append,map_map]
  rfl

/-- The types that come from the scans of a window: not email, and none of an operator's classifier. -/
structure Base (opts : Options) (t : IdentifierType) : Prop where
  email : t ≠ Email
  custom : ∀ c ∈ opts.classifiers, c.typ ≠ t

theorem count_emailTypes (ht : t ≠ Email) (found : List EmailStreamMatch) : (emailTypes found).count t = 0 := by
  rw [count_eq_zero]
  intro hmem
  obtain ⟨m, -, hm⟩ := mem_map.mp hmem
  exact ht hm.symm

theorem typ_of_mem_window {stop : Stop Byte IdentifierType} {u : IdentifierType}
    (h : ∀ p s v n, (v,n) ∈ (stop p s).1 → v = u) {«from» : ℕ} {m : Found}
    (hm : m ∈ CustomStreamState.window stop data «from» dropTo) : m.typ = u := by
  obtain ⟨m', hm', rfl⟩ := mem_map.mp ((takeWhile_sublist _).subset hm)
  obtain ⟨k, p, -, -, n, -, hn⟩ := mem_sweep hm'
  exact h p _ _ n hn

theorem findStop_typ (re : Regexp) (u : IdentifierType) (p : Option Byte) (s : List Byte) (v : IdentifierType) (n : ℕ)
    (h : (v,n) ∈ (re.findStop u p s).1) : v = u := by
  unfold Regexp.findStop at h
  split at h
  · exact (Prod.mk.inj (mem_singleton.mp h)).1
  · cases h

theorem keywordStop_typ (kw : List Byte) (u : IdentifierType) (p : Option Byte) (s : List Byte) (v : IdentifierType)
    (n : ℕ) (h : (v,n) ∈ (keywordStop u kw p s).1) : v = u := by
  unfold keywordStop at h
  split at h
  · exact (Prod.mk.inj (mem_singleton.mp h)).1
  · cases h

theorem typ_of_mem_stable {origin : ℕ} {m : StableCustomMatch} (hm : m ∈ c.stable opts data origin dropTo) :
    ∃ k ∈ opts.classifiers, m.found.typ = k.typ := by
  unfold CustomStreamState.stable at hm
  split at hm
  · cases hm
  obtain ⟨⟨k, ci⟩, hk, hm⟩ := mem_flatMap.mp hm
  refine ⟨k,fst_mem_of_mem_zipIdx hk,?_⟩
  unfold CustomStreamState.stableOf at hm
  split at hm
  · cases hm
  split at hm
  · obtain ⟨m', hm', rfl⟩ := mem_map.mp hm
    exact typ_of_mem_window (findStop_typ _ _) (mem_filter.mp hm').1
  obtain ⟨kw, -, hm⟩ := mem_flatMap.mp hm
  obtain ⟨m', hm', rfl⟩ := mem_map.mp hm
  exact typ_of_mem_window (keywordStop_typ _ _) hm'

theorem count_customTypes (ht : Base opts t) {origin : ℕ} :
    (customTypes (c.stable opts data origin dropTo)).count t = 0 := by
  rw [count_eq_zero]
  intro hmem
  obtain ⟨m, hm, hmt⟩ := mem_map.mp hmem
  obtain ⟨k, hk, hkt⟩ := typ_of_mem_stable (mem_filter.mp hm).1
  exact ht.custom k hk (hkt.symm.trans hmt)

theorem cut_buf (s : Scanner) (dropTo : ℕ) : (s.cut dropTo).buf = s.buf.drop dropTo := by
  unfold Scanner.cut
  split
  · rfl
  · next h => rw [Nat.eq_zero_of_not_pos h,drop_zero]

theorem cut_same (s : Scanner) (dropTo : ℕ) : (s.cut dropTo).counts = s.counts ∧ (s.cut dropTo).done = s.done := by
  unfold Scanner.cut
  split <;> exact ⟨rfl,rfl⟩

theorem of_counted (ht : Base opts t) (found : List Found) (dropTo : ℕ) :
    (s.counted opts found dropTo).counts.of t = s.counts.of t + (typesBefore found dropTo).count t := by
  rw [counted,Counts.of_addAll,Counts.of_addAll,count_customTypes ht,Nat.add_zero]

theorem of_advance (ht : Base opts t) (final : Bool) : (s.advance opts final).counts.of t = s.counts.of t +
    (typesBefore (scanBaseAll opts s.buf) (windowCommit s.buf (scanBaseAll opts s.buf) final)).count t := by
  rw [advance,← of_counted ht]
  split
  · rfl
  · rw [(cut_same _ _).1]

theorem of_emailed (ht : Base opts t) (r : EmailStream × List EmailStreamMatch) :
    (s.emailed r).counts.of t = s.counts.of t := by
  rw [emailed,Counts.of_addAll,count_emailTypes ht.email,Nat.add_zero]

theorem of_feed (ht : Base opts t) (piece : List Byte) : (s.feed opts piece).counts.of t = s.counts.of t +
    (typesBefore (scanBaseAll opts (s.buf ++ piece))
      (windowCommit (s.buf ++ piece) (scanBaseAll opts (s.buf ++ piece)) false)).count t := by
  rw [feed,of_advance ht,of_emailed ht]
  rfl

theorem buf_feed (s : Scanner) (piece : List Byte) : (s.feed opts piece).buf =
    (s.buf ++ piece).drop (windowCommit (s.buf ++ piece) (scanBaseAll opts (s.buf ++ piece)) false) := by
  rw [feed,advance,if_neg Bool.false_ne_true,cut_buf]
  rfl

theorem done_advance (s : Scanner) (final : Bool) : (s.advance opts final).done = s.done := by
  rw [advance]
  split
  · rfl
  · exact (cut_same _ _).2

theorem of_finish (ht : Base opts t) (hdone : s.done = false) :
    (s.finish opts).counts.of t = s.counts.of t + baseCount opts t s.buf := by
  rw [finish,hdone]
  have h := @of_advance opts (s.emailed (s.email.finish opts.allowlist)) t ht true
  rw [of_emailed ht] at h
  refine h.trans ?_
  rw [baseCount,← typesBefore_length]
  rfl

variable {body : List Byte}

/-- What was dropped was counted, and it was dropped at a seam. -/
structure Accounted (opts : Options) (t : IdentifierType) (body : List Byte) (s : Scanner) : Prop where
  open' : s.done = false
  dropped : ∃ d, body = d ++ s.buf ∧ (d ≠ [] → windowSize ≤ s.buf.length) ∧ Seam d s.buf ∧
    s.counts.of t = baseCount opts t d

/-- The window of everything that was written begins at a seam, if something lies before it. -/
def CutClean (body : List Byte) : Prop :=
  windowSize < body.length → Seam (body.take (body.length - windowSize)) (body.drop (body.length - windowSize))

instance (body : List Byte) : Decidable (CutClean body) := by
  unfold CutClean
  infer_instance

theorem Seam.of_append_left (h : Seam (d ++ l) r) (hl : l ≠ []) : Seam l r :=
  h.of_suffix rfl hl

theorem Seam.of_start (h : Seam d (l ++ r)) : Seam d l := by
  intro x hx y hy
  refine h x hx y ?_
  cases l with
  | nil => cases hy
  | cons z l => exact hy

theorem seam_nil (r : List Byte) : Seam [] r := fun x hx => by cases hx

theorem Seam.extend {buf : List Byte} (h : Seam d buf) (hne : d ≠ [] → windowSize ≤ buf.length) (piece : List Byte) :
    Seam d (buf ++ piece) := by
  cases buf with
  | nil =>
    have hnil : d = [] := by
      by_contra hd
      exact absurd (hne hd) (by decide)
    rw [hnil]
    exact seam_nil _
  | cons b buf => exact h

theorem Accounted.feed (h : Accounted opts t body s) (ht : Base opts t) {piece : List Byte}
    (hclean : CutClean (body ++ piece)) : Accounted opts t (body ++ piece) (s.feed opts piece) := by
  obtain ⟨hopen, d, hbody, hwindow, hseam, hcount⟩ := h
  have hdone : (s.feed opts piece).done = false := by
    rw [Scanner.feed,done_advance]
    exact hopen
  have hext := hseam.extend hwindow piece
  refine ⟨hdone,?_⟩
  by_cases hlong : windowSize < (s.buf ++ piece).length
  · -- the part before the window is dropped
    obtain ⟨l, r, hlr, hr⟩ : ∃ l r, s.buf ++ piece = l ++ r ∧ r.length = windowSize :=
      ⟨_,_,(take_append_drop ((s.buf ++ piece).length - windowSize) _).symm,by rw [length_drop]; omega⟩
    have hl : l ≠ [] := by
      rintro rfl
      rw [hlr,nil_append,hr] at hlong
      exact lt_irrefl _ hlong
    have hwhole : body ++ piece = (d ++ l) ++ r := by rw [hbody,append_assoc,hlr,append_assoc]
    have hcut : Seam (d ++ l) r := by
      have hlen : ((d ++ l) ++ r).length - windowSize = (d ++ l).length := by
        rw [length_append]
        omega
      have hpos : windowSize < ((d ++ l) ++ r).length := by
        rw [length_append,length_append]
        have := length_pos_iff.mpr hl
        omega
      have hclean' := hclean
      rw [hwhole] at hclean'
      have hseam' := hclean' hpos
      rwa [hlen,take_left,drop_left] at hseam'
    have hcommit := windowCommit_seam opts (hcut.of_append_left hl) hr
    have hdl : Seam d l := (hlr ▸ hext).of_start
    refine ⟨d ++ l,?_,fun _ => ?_,?_,?_⟩
    · rw [buf_feed,hlr,hcommit,drop_left,hwhole]
    · rw [buf_feed,hlr,hcommit,drop_left,hr]
    · rw [buf_feed,hlr,hcommit,drop_left]
      exact hcut
    · rw [of_feed ht,hlr,hcommit,(typesBefore_seam (hcut.of_append_left hl)).count_eq,hcount,baseCount_append hdl]
      rfl
  · -- nothing lies before the window
    have hcommit : windowCommit (s.buf ++ piece) (scanBaseAll opts (s.buf ++ piece)) false = 0 := by
      rw [windowCommit,Nat.sub_eq_zero_of_le (not_lt.mp hlong)]
      rfl
    refine ⟨d,?_,fun hd => ?_,?_,?_⟩
    · rw [buf_feed,hcommit,drop_zero,hbody,append_assoc]
    · rw [buf_feed,hcommit,drop_zero,length_append]
      exact le_trans (hwindow hd) (Nat.le_add_right _ _)
    · rw [buf_feed,hcommit]
      exact hext
    · rw [of_feed ht,hcommit,typesBefore_zero,hcount]
      rfl

theorem Accounted.foldl (pieces : List (List Byte)) (h : Accounted opts t body s) (ht : Base opts t)
    (hclean : ∀ xs ys, pieces = xs ++ ys → CutClean (body ++ xs.flatten)) :
    Accounted opts t (body ++ pieces.flatten) (pieces.foldl (Scanner.feed opts) s) := by
  induction pieces generalizing body s with
  | nil => simpa using h
  | cons piece pieces ih =>
    have hfirst : CutClean (body ++ piece) := by simpa using hclean [piece] pieces rfl
    have hrest := ih (h.feed ht hfirst) fun xs ys hxs => by
      simpa [append_assoc] using hclean (piece :: xs) ys (by rw [hxs]; rfl)
    simpa [append_assoc] using hrest

def pieces (writes : List (List Byte)) : List (List Byte) := writes.flatMap (chunks chunkSize)

theorem flatten_pieces (writes : List (List Byte)) : (pieces writes).flatten = writes.flatten := by
  induction writes with
  | nil => rfl
  | cons w writes ih =>
    rw [pieces,flatMap_cons,flatten_append,flatten_chunks (by decide),flatten_cons,← ih]
    rfl

theorem written_eq (opts : Options) (writes : List (List Byte)) :
    written opts writes = (pieces writes).foldl (feed opts) new := by
  rw [pieces,foldl_flatMap]
  rfl

def CutsClean (writes : List (List Byte)) : Prop := ∀ xs ∈ (pieces writes).inits, CutClean xs.flatten

instance (writes : List (List Byte)) : Decidable (CutsClean writes) := by
  unfold CutsClean
  infer_instance

def reported (found : List Finding) (t : IdentifierType) : ℕ := ((found.filter (·.type = t)).map (·.count)).sum

theorem reported_findings (counts : Counts) (t : IdentifierType) : reported (findings counts) t = counts.of t := by
  have hflat : reported (findings counts) t =
      (counts.toList.flatMap fun e => if e.1 = t then [e.2] else []).sum := by
    unfold reported findings
    congr 1
    induction counts.toList with
    | nil => rfl
    | cons e l ih =>
      by_cases h : e.1 = t <;> simp_all
  rw [hflat,Map.flatMap_toList_of_key counts t]
  · cases h : counts[t]? <;> simp [Counts.of,h]
  · intro a b _ hne
    simp [hne]

def filler (n : ℕ) : List Byte := replicate n 0x2C

theorem seam_filler {n : ℕ} : Seam l (filler n) := by
  intro x _ y hy
  have hy : y = 0x2C := eq_of_mem_replicate (mem_of_head? hy)
  have hother : kind y = .other := by
    rw [hy]
    decide
  rw [hother]
  cases kind x <;> rfl

theorem scanBaseAll_filler (n : ℕ) : scanBaseAll {} (filler n) = [] := by
  induction n with
  | zero => rfl
  | succ n ih =>
    have hone : scanBaseAll {} (filler 1) = [] := by decide +kernel
    have hperm := scanBaseAll_append {} (l := filler 1) (r := filler n) seam_filler
    rw [hone,ih,nil_append,map_nil,perm_nil] at hperm
    exact hperm

theorem scanBaseAll_filled (l : List Byte) (n : ℕ) : (scanBaseAll {} (l ++ filler n)).Perm (scanBaseAll {} l) := by
  have hperm := scanBaseAll_append {} (l := l) (r := filler n) seam_filler
  rwa [scanBaseAll_filler,map_nil,append_nil] at hperm

theorem baseCount_filled (t : IdentifierType) (l : List Byte) (n : ℕ) :
    baseCount {} t (l ++ filler n) = baseCount {} t l :=
  ((scanBaseAll_filled l n).map _).count_eq t

/-- Digits that are part of a word, so they are no number; but the window begins after the first letter. -/
def cutWord : List Byte := ascii "x123456789018" ++ filler 4084

theorem length_cutWord : cutWord.length = 1 + windowSize := by
  rw [cutWord,length_append,filler,length_replicate]
  rfl

theorem scanBaseAll_cutWord : scanBaseAll {} cutWord = [] := by
  have hword : scanBaseAll {} (ascii "x123456789018") = [] := by decide +kernel
  exact perm_nil.mp (hword ▸ scanBaseAll_filled (ascii "x123456789018") 4084)

theorem reported_cutWord : reported (findings ((written {} [cutWord]).finish {}).counts) MyNumber = 1 := by
  have ht : Base {} MyNumber := ⟨by decide,by simp⟩
  have hbody : cutWord = ascii "x" ++ (ascii "123456789018" ++ filler 4084) := by
    rfl
  have hcommit : windowCommit cutWord [] false = 1 := by
    rw [windowCommit,length_cutWord]
    rfl
  have hchunks : chunks chunkSize cutWord = [cutWord] := by
    refine chunks_of_le (by simp [cutWord,ascii]) ?_
    rw [length_cutWord]
    decide
  have hwritten : written {} [cutWord] = new.feed {} cutWord := by
    rw [written_eq,pieces,flatMap_singleton,hchunks,foldl_cons,foldl_nil]
  have hempty : new.buf ++ cutWord = cutWord := nil_append _
  -- the cut leaves the digits at the start of the window
  have hbuf : (new.feed {} cutWord).buf = ascii "123456789018" ++ filler 4084 := by
    rw [buf_feed,hempty,scanBaseAll_cutWord,hcommit,hbody]
    exact drop_left' rfl
  have hopen : (new.feed {} cutWord).done = false := by
    rw [feed,done_advance]
    rfl
  have hbefore : (new.feed {} cutWord).counts.of MyNumber = 0 := by
    rw [of_feed ht,hempty,scanBaseAll_cutWord]
    exact Counts.of_empty MyNumber
  rw [reported_findings,hwritten,of_finish ht hopen,hbefore,hbuf,baseCount_filled]
  decide +kernel

end DsseCore.Dlp
