import DsseCore.Dlp.Scanner

/-!
# Seams

The streaming scan cuts its input before the window.  Where the two bytes at the cut cannot stand side by side in an
identifier, the scans of both sides are the scan of the whole.  A cut inside a word or a group of digits is different:
what follows it looks like the start of a word.
-/

namespace DsseCore.Dlp

open Go Lib List Regexp
open Std (ExtTreeMap)

variable {b x y : Byte} {s r l : List Byte} {n : ℕ} {re : Regexp} {m : Found}

inductive Kind where
  | digit
  | upper
  | token
  | space
  | other
  deriving DecidableEq

/-- `\s` of an expression. -/
def isSpaceByte (b : Byte) : Bool := b.between 0x09 0x0A || b.between 0x0C 0x0D || b == 0x20

def kind (b : Byte) : Kind :=
  if asciiDigit b then .digit
  else if asciiUpper b then .upper
  else if edmTokenByte b then .token
  else if isSpaceByte b then .space
  else .other

/-- Two bytes of these kinds may stand side by side in an identifier. -/
def joins : Kind → Kind → Bool
  | .other, _ => false
  | _, .other => false
  | .space, .token => false
  | .token, .space => false
  | _, _ => true

/-- The two bytes at the seam cannot stand side by side in an identifier. -/
abbrev Seam (l r : List Byte) : Prop := Apart kind joins l r

instance (l r : List Byte) : Decidable (Seam l r) := by
  unfold Seam Apart
  infer_instance

theorem kind_of_token (h : edmTokenByte b = true) : kind b = .digit ∨ kind b = .upper ∨ kind b = .token := by
  unfold kind
  split
  · exact .inl rfl
  split
  · exact .inr (.inl rfl)
  · exact .inr (.inr rfl)

theorem token_of_digit (h : asciiDigit b = true) : edmTokenByte b = true := by
  simp [edmTokenByte,h]

theorem token_of_word (h : isWordByte b = true) : edmTokenByte b = true := by
  simp only [isWordByte,Bool.or_eq_true] at h
  simp only [edmTokenByte,Bool.or_eq_true]
  tauto

theorem joins_of_tokens (hx : edmTokenByte x = true) (hy : edmTokenByte y = true) :
    joins (kind x) (kind y) = true := by
  rcases kind_of_token hx with hx | hx | hx <;> rcases kind_of_token hy with hy | hy | hy <;> rw [hx,hy] <;> rfl

theorem kind_of_separator (h : isSeparator b = true) : kind b = .space ∨ kind b = .token := by
  simp only [isSeparator,Bool.or_eq_true,beq_iff_eq] at h
  rcases h with rfl | rfl
  · exact .inl (by decide)
  · exact .inr (by decide)

theorem joins_digit_separator (hx : asciiDigit x = true) (hy : isSeparator y = true) :
    joins (kind x) (kind y) = true ∧ joins (kind y) (kind x) = true := by
  rw [kind,if_pos hx]
  rcases kind_of_separator hy with h | h <;> rw [h] <;> exact ⟨rfl,rfl⟩

variable {a : List Byte} {p : Byte → Bool}

theorem Seam.not_joins (h : Seam l r) (hx : l.getLast? = some x) (hy : r.head? = some y) :
    ¬ joins (kind x) (kind y) = true := by
  rw [h x hx y hy]
  exact Bool.false_ne_true

theorem takeWhile_seam (hp : ∀ x y, p x = true → p y = true → joins (kind x) (kind y) = true) (ha : a ≠ [])
    (h : Seam a r) : (a ++ r).takeWhile p = a.takeWhile p := by
  rw [takeWhile_append]
  split
  · next hall =>
    have heq : a.takeWhile p = a := ( takeWhile_prefix p).eq_of_length hall
    have hlast : p (a.getLast ha) = true := takeWhile_eq_self_iff.mp heq _ (getLast_mem ha)
    have hnil : r.takeWhile p = [] := by
      cases r with
      | nil => rfl
      | cons y r =>
        refine takeWhile_cons_of_neg fun hy => ?_
        exact h.not_joins (getLast?_eq_some_getLast ha) rfl (hp _ _ hlast hy)
    rw [hnil,append_nil,heq]
  · rfl

theorem length_takeWhile_le (p : Byte → Bool) (s : List Byte) : (s.takeWhile p).length ≤ s.length :=
  ( takeWhile_prefix p).length_le

theorem word_after_run (hp : ∀ x, p x = true → edmTokenByte x = true) (ha : a ≠ []) (h : Seam a r) :
    ((a ++ r).drop (a.takeWhile p).length).head?.any isWordByte =
      (a.drop (a.takeWhile p).length).head?.any isWordByte := by
  rw [drop_append_of_le_length (length_takeWhile_le p a)]
  cases hd : a.drop (a.takeWhile p).length with
  | cons x d => rfl
  | nil =>
    -- the run is all of `a`
    have hle : a.length ≤ (a.takeWhile p).length := drop_eq_nil_iff.mp hd
    have heq : a.takeWhile p = a := ( takeWhile_prefix p).eq_of_length (le_antisymm (length_takeWhile_le p a) hle)
    have hlast : p (a.getLast ha) = true := takeWhile_eq_self_iff.mp heq _ (getLast_mem ha)
    cases r with
    | nil => rfl
    | cons y r =>
      by_contra hy
      exact h.not_joins (getLast?_eq_some_getLast ha) rfl
        (joins_of_tokens (hp _ hlast) (token_of_word (by simpa using hy)))

theorem word_before_seam (hl : l ≠ []) (h : Seam l r) (hr : r.head?.any asciiDigit = true) :
    l.getLast?.any isWordByte = false := by
  obtain ⟨y, hy⟩ : ∃ y, r.head? = some y := Option.isSome_iff_exists.mp (by cases r <;> simp_all)
  rw [hy] at hr
  rw [getLast?_eq_some_getLast hl]
  by_contra hw
  exact h.not_joins (getLast?_eq_some_getLast hl) hy
    (joins_of_tokens (token_of_word (by simpa using hw)) (token_of_digit hr))

theorem joins_of_digits (hx : asciiDigit x = true) (hy : asciiDigit y = true) : joins (kind x) (kind y) = true :=
  joins_of_tokens (token_of_digit hx) (token_of_digit hy)

theorem takeWhile_ne_nil (h : s.takeWhile p ≠ []) : s.head?.any p = true := by
  cases s with
  | nil => exact absurd rfl h
  | cons b s =>
    by_contra hb
    exact h (takeWhile_cons_of_neg (by simpa using hb))

theorem digitStop_ahead (hseam : Seam l r) : digitStop.Ahead l r := by
  intro prev a b hl ha
  have hseam' := hseam.of_suffix hl ha
  have hrun := takeWhile_seam (p := asciiDigit) (fun _ _ => joins_of_digits) ha hseam'
  have hword := word_after_run (p := asciiDigit) (fun _ => token_of_digit) ha hseam'
  refine ⟨by simp only [digitStop,hrun,hword],?_⟩
  unfold digitStop
  dsimp only
  split
  · exact length_pos_iff.mpr ha
  · exact length_takeWhile_le asciiDigit a

theorem digitStop_back (hseam : Seam l r) (hl : l ≠ []) : digitStop l.getLast? r = digitStop none r := by
  unfold digitStop
  dsimp only
  split
  · rfl
  · next hrun => rw [word_before_seam hl hseam (takeWhile_ne_nil hrun),Option.any_none]

theorem scanDigitRuns_append (hseam : Seam l r) :
    scanDigitRuns (l ++ r) = scanDigitRuns l ++ (scanDigitRuns r).map (Match.shift l.length) :=
  sweep_append (digitStop_ahead hseam) fun hl _ => digitStop_back hseam hl

theorem readGroups_append (digits : List Byte) (seps length : ℕ) (hseam : Seam a r) (ha : a ≠ []) :
    readGroups digits seps length (a ++ r) = readGroups digits seps length a := by
  induction a generalizing digits seps length with
  | nil => exact absurd rfl ha
  | cons c a ih =>
    rw [cons_append,readGroups,readGroups]
    cases a with
    | cons c' a =>
      have hne := cons_ne_nil c' a
      rw [ih (digits ++ [c]) seps (length + 1) (hseam.of_suffix (b := [c]) rfl hne) hne,
        ih digits (seps + 1) (length + 1) (hseam.of_suffix (b := [c]) rfl hne) hne]
      rfl
    | nil =>
      -- the last byte before the seam
      cases r with
      | nil => rfl
      | cons y r =>
        have hjoin : ¬ joins (kind c) (kind y) = true := hseam.not_joins rfl rfl
        split
        · next hc =>
          have hy : asciiDigit y = false := by
            by_contra hy
            exact hjoin (joins_of_digits hc (by simpa using hy))
          have hsep : isSeparator y = false := by
            by_contra hy
            exact hjoin (joins_digit_separator hc (by simpa using hy)).1
          have hword : isWordByte y = false := by
            by_contra hy
            exact hjoin (joins_of_tokens (token_of_digit hc) (token_of_word (by simpa using hy)))
          simp [readGroups,hy,hsep,hword]
        · have hsep : (isSeparator c && asciiDigit y) = false := by
            by_contra h
            rw [Bool.not_eq_false,Bool.and_eq_true] at h
            exact hjoin (joins_digit_separator h.2 h.1).2
          simp [hsep]

theorem readGroups_length (digits : List Byte) (seps length : ℕ) (s : List Byte) :
    length ≤ (readGroups digits seps length s).length ∧ (readGroups digits seps length s).length ≤ length + s.length := by
  induction s generalizing digits seps length with
  | nil => exact ⟨le_rfl,le_rfl⟩
  | cons c s ih =>
    rw [readGroups,length_cons]
    split
    · split
      · dsimp only
        omega
      · have := ih (digits ++ [c]) seps (length + 1)
        omega
    · split
      · have := ih digits (seps + 1) (length + 1)
        omega
      · dsimp only
        omega

theorem readGroups_pos (h : s.head?.any asciiDigit = true) : 0 < (readGroups [] 0 0 s).length := by
  cases s with
  | nil => cases h
  | cons c s =>
    have hc : asciiDigit c = true := h
    rw [readGroups,if_pos hc]
    exact (readGroups_length [c] 0 1 s).1

theorem separatedStop_ahead (hseam : Seam l r) : separatedStop.Ahead l r := by
  intro prev a b hl ha
  have hgroups := readGroups_append [] 0 0 (hseam.of_suffix hl ha) ha
  have hhead : (a ++ r).head? = a.head? := by
    cases a with
    | nil => exact absurd rfl ha
    | cons x a => rfl
  refine ⟨by simp only [separatedStop,hgroups,hhead],?_⟩
  unfold separatedStop
  split
  · exact length_pos_iff.mpr ha
  have := (readGroups_length [] 0 0 a).2
  dsimp only
  omega

theorem separatedStop_back (hseam : Seam l r) (hl : l ≠ []) : separatedStop l.getLast? r = separatedStop none r := by
  unfold separatedStop
  by_cases hr : r.head?.any asciiDigit = true
  · rw [word_before_seam hl hseam hr,Option.any_none]
  · simp [hr]

theorem scanSeparatedRuns_append (hseam : Seam l r) :
    scanSeparatedRuns (l ++ r) = scanSeparatedRuns l ++ (scanSeparatedRuns r).map (Match.shift l.length) :=
  sweep_append (separatedStop_ahead hseam) fun hl _ => separatedStop_back hseam hl

section Tokens

variable (fps : List Fingerprint)

theorem tokenStop_ahead (hseam : Seam l r) : (tokenStop fps).Ahead l r := by
  intro prev a b hl ha
  have hrun := takeWhile_seam (p := edmTokenByte) (fun _ _ => joins_of_tokens) ha (hseam.of_suffix hl ha)
  refine ⟨by simp only [tokenStop,hrun],?_⟩
  unfold tokenStop
  dsimp only
  split
  · exact length_pos_iff.mpr ha
  · exact length_takeWhile_le edmTokenByte a

theorem scanFingerprints_append (hseam : Seam l r) :
    scanFingerprints fps (l ++ r) = scanFingerprints fps l ++ (scanFingerprints fps r).map (Match.shift l.length) := by
  unfold scanFingerprints
  split
  · rfl
  · exact sweep_append (tokenStop_ahead fps hseam) fun _ _ => rfl

end Tokens

variable {data : List Byte} {set : List (ℕ × ℕ)} {lits : List (List Byte)} {t : IdentifierType}

theorem apiKeyRE_shape : (apiKeyRE.shape kind joins).ok = true ∧ (apiKeyRE.shape kind joins).nullable = false := by
  decide +kernel

theorem phoneJPRE_shape : (phoneJPRE.shape kind joins).ok = true ∧ (phoneJPRE.shape kind joins).nullable = false := by
  decide +kernel

theorem bytesContains_of_starts {lit : List Byte} (hne : lit ≠ []) {k : ℕ} (h : lit <+: data.drop k) :
    bytesContains data lit = true := by
  unfold bytesContains
  induction data generalizing k with
  | nil =>
    rw [drop_nil,prefix_nil] at h
    exact absurd h hne
  | cons b data ih =>
    rw [bytesIndex]
    split
    · rfl
    rename_i hno
    cases k with
    | zero => exact absurd ( isPrefixOf_iff_prefix.mpr h) hno
    | succ k =>
      rw [Option.isSome_map]
      exact ih h

theorem mem_ends_concat {a b : Regexp} (h : n ∈ (concat a b).ends s) :
    ∃ k ∈ a.ends s, ∃ m ∈ b.ends (s.drop k), n = k + m := by
  obtain ⟨k, hk, hm⟩ := mem_flatMap.mp h
  obtain ⟨m, hm', rfl⟩ := mem_map.mp hm
  exact ⟨k,hk,m,hm',rfl⟩

theorem mem_ends_alternate {a b : Regexp} (h : n ∈ (alternate a b).ends s) : n ∈ a.ends s ∨ n ∈ b.ends s :=
  mem_append.mp h

theorem mem_ends_char {c : CharSet} (hc : c.ascii = true) (h : n ∈ (char c).ends s) :
    n = 1 ∧ ∃ b, s.head? = some b ∧ c.has b.toNat = true := by
  rw [ends_char hc] at h
  split at h
  · next hb =>
    cases s with
    | nil => cases hb
    | cons b s => exact ⟨mem_singleton.mp h,b,rfl,hb⟩
  · cases h

theorem mem_ends_text {w : List Byte} (hw : w.all (fun b => decide (b.toNat < 0x80)) = true)
    (h : n ∈ (text w).ends s) : n = w.length ∧ w <+: s := by
  induction w generalizing s n with
  | nil => exact ⟨mem_singleton.mp h, nil_prefix⟩
  | cons b w ih =>
    rw [all_cons,Bool.and_eq_true] at hw
    obtain ⟨k, hk, m, hm, rfl⟩ := mem_ends_concat h
    obtain ⟨rfl, c, hc, hhas⟩ := mem_ends_char (by simpa [CharSet.ascii] using hw.1) hk
    obtain ⟨rfl, hpre⟩ := ih hw.2 hm
    cases s with
    | nil => cases hc
    | cons c' s =>
      obtain rfl : c' = c := Option.some.inj hc
      have hbc : c' = b := UInt8.toNat_inj.mp (by simpa [CharSet.has] using hhas)
      refine ⟨by rw [length_cons,Nat.add_comm],?_⟩
      rw [hbc,cons_prefix_cons]
      exact ⟨rfl,hpre⟩

theorem prefix_of_middle {lit lit' : String} (hw : (ascii lit).all (fun b => decide (b.toNat < 0x80)) = true)
    (hw' : (ascii lit').all (fun b => decide (b.toNat < 0x80)) = true) (hset : (CharSet.ranges set).ascii = true)
    (h : n ∈ (concat (literal lit) (.concat (oneOf set) (.concat (literal lit') re))).ends s) :
    ∃ b : Byte, (CharSet.ranges set).has b.toNat = true ∧ ascii lit ++ b :: ascii lit' <+: s := by
  obtain ⟨k, hk, m, hm, -⟩ := mem_ends_concat h
  obtain ⟨rfl, t, rfl⟩ := mem_ends_text hw hk
  rw [drop_left] at hm
  obtain ⟨k', hk', m', hm', -⟩ := mem_ends_concat hm
  obtain ⟨rfl, b, hb, hhas⟩ := mem_ends_char hset hk'
  cases t with
  | nil => cases hb
  | cons b' t =>
    obtain rfl : b' = b := Option.some.inj hb
    obtain ⟨k'', hk'', -⟩ := mem_ends_concat hm'
    obtain ⟨-, hpre⟩ := mem_ends_text hw' hk''
    exact ⟨b',hhas,(prefix_append_right_inj _).mpr (cons_prefix_cons.mpr ⟨rfl,hpre⟩)⟩

theorem mem_of_has (h : (CharSet.ranges set).has b.toNat = true) {f : Byte → List Byte}
    (hall : ((range 256).filter (CharSet.ranges set).has).all (fun n => lits.contains (f n.toUInt8)) = true) :
    f b ∈ lits := by
  rw [all_eq_true] at hall
  have hmem := hall b.toNat (mem_filter.mpr ⟨mem_range.mpr b.toNat_lt,h⟩)
  rw [Nat.toUInt8_eq,UInt8.ofNat_toNat,contains_iff_mem] at hmem
  exact hmem

theorem apiKey_literal (h : n ∈ apiKeyRE.ends s) : ∃ lit ∈ apiKeyLiterals, lit <+: s := by
  have hlit : ∀ {lit : String} {re : Regexp}, (ascii lit).all (fun b => decide (b.toNat < 0x80)) = true →
      ascii lit ∈ apiKeyLiterals → n ∈ (concat (literal lit) re).ends s → ∃ lit ∈ apiKeyLiterals, lit <+: s :=
    fun hw hmem h => let ⟨_, hk, _⟩ := mem_ends_concat h; ⟨_,hmem,(mem_ends_text hw hk).2⟩
  rcases mem_ends_alternate h with h | h
  · exact hlit (by decide +kernel) (by decide +kernel) h
  rcases mem_ends_alternate h with h | h
  · obtain ⟨b, hb, hpre⟩ := prefix_of_middle (by decide +kernel) (by decide +kernel) (by decide +kernel) h
    exact ⟨_,mem_of_has (f := fun b => ascii "gh" ++ b :: ascii "_") hb (by decide +kernel),hpre⟩
  iterate 5
    rcases mem_ends_alternate h with h | h
    · exact hlit (by decide +kernel) (by decide +kernel) h
  exact hlit (by decide +kernel) (by decide +kernel) h

theorem phoneJP_literal (h : n ∈ phoneJPRE.ends s) : ∃ lit ∈ phoneJPLiterals, lit <+: s := by
  obtain ⟨b, hb, hpre⟩ := prefix_of_middle (by decide +kernel) (by decide +kernel) (by decide +kernel) h
  exact ⟨_,mem_of_has (f := fun b => ascii "0" ++ b :: ascii "0") hb (by decide +kernel),hpre⟩

theorem mem_findStop {u : IdentifierType} {p : Option Byte} (h : (u,n) ∈ (re.findStop t p s).1) :
    0 < n ∧ n ∈ re.ends s := by
  unfold findStop at h
  split at h
  · next k hk =>
    obtain ⟨-, rfl⟩ := Prod.mk.inj (mem_singleton.mp h)
    exact ⟨Nat.succ_pos k,mem_of_head? hk⟩
  · cases h

theorem findAll_gated (hne : ∀ lit ∈ lits, lit ≠ []) (hlit : ∀ s, ∀ n ∈ re.ends s, ∃ lit ∈ lits, lit <+: s)
    (data : List Byte) : (if hasCandidate data lits then re.findAll t data else []) = re.findAll t data := by
  split
  · rfl
  rename_i hgate
  symm
  rw [eq_nil_iff_forall_not_mem]
  intro m hm
  obtain ⟨k, p, -, -, n, -, hn⟩ := mem_sweep hm
  obtain ⟨lit, hmem, hpre⟩ := hlit _ n (mem_findStop hn).2
  exact hgate (any_eq_true.mpr ⟨lit,hmem,bytesContains_of_starts (hne lit hmem) hpre⟩)

theorem scanNonEmail_eq (data : List Byte) : scanNonEmail data = scanDigitRuns data ++ scanSeparatedRuns data ++
    apiKeyRE.findAll APIKey data ++ phoneJPRE.findAll Phone data := by
  unfold scanNonEmail hasAPIKeyCandidate
  rw [findAll_gated (by decide +kernel) (fun s n => apiKey_literal),
    findAll_gated (by decide +kernel) (fun s n => phoneJP_literal)]

def Within (m : Found) (data : List Byte) : Prop := m.start < m.stop ∧ m.stop ≤ data.length

theorem sweep_within {stop : Stop Byte IdentifierType} (h : ∀ p s u n, (u,n) ∈ (stop p s).1 → 0 < n ∧ n ≤ s.length)
    (hm : m ∈ sweep stop none 0 0 data) : Within m data := by
  obtain ⟨k, p, hk, hstart, n, hstop, hn⟩ := mem_sweep hm
  obtain ⟨hpos, hle⟩ := h p _ _ n hn
  rw [length_drop] at hle
  exact ⟨by omega,by omega⟩

theorem findStop_within (hok : (re.shape kind joins).ok = true) (t : IdentifierType) (p : Option Byte) (s : List Byte)
    (u : IdentifierType) (n : ℕ) (h : (u,n) ∈ (re.findStop t p s).1) : 0 < n ∧ n ≤ s.length := by
  obtain ⟨hpos, hn⟩ := mem_findStop h
  exact ⟨hpos,((re.fits_shape hok).1 s n hn).1⟩

theorem digitStop_within (p : Option Byte) (s : List Byte) (u : IdentifierType) (n : ℕ) (h : (u,n) ∈ (digitStop p s).1) :
    0 < n ∧ n ≤ s.length := by
  unfold digitStop at h
  dsimp only at h
  split at h
  · cases h
  rename_i hrun
  split at h
  · obtain ⟨t, -, ht⟩ := mem_map.mp h
    obtain ⟨-, rfl⟩ := Prod.mk.inj ht
    exact ⟨length_pos_iff.mpr hrun,length_takeWhile_le asciiDigit s⟩
  · cases h

theorem separatedStop_within (p : Option Byte) (s : List Byte) (u : IdentifierType) (n : ℕ)
    (h : (u,n) ∈ (separatedStop p s).1) : 0 < n ∧ n ≤ s.length := by
  unfold separatedStop at h
  split at h
  · cases h
  rename_i hhead
  have hdigit : s.head?.any asciiDigit = true := by
    by_contra hno
    exact hhead (by simp [hno])
  dsimp only at h
  split at h
  · obtain ⟨t, -, ht⟩ := mem_map.mp h
    obtain ⟨-, rfl⟩ := Prod.mk.inj ht
    refine ⟨readGroups_pos hdigit,?_⟩
    have := (readGroups_length [] 0 0 s).2
    omega
  · cases h

theorem tokenStop_within (fps : List Fingerprint) (p : Option Byte) (s : List Byte) (u : IdentifierType) (n : ℕ)
    (h : (u,n) ∈ (tokenStop fps p s).1) : 0 < n ∧ n ≤ s.length := by
  unfold tokenStop at h
  dsimp only at h
  split at h
  · cases h
  rename_i hrun
  obtain ⟨t, -, ht⟩ := mem_map.mp h
  obtain ⟨-, rfl⟩ := Prod.mk.inj ht
  exact ⟨length_pos_iff.mpr hrun,length_takeWhile_le edmTokenByte s⟩

def scanRaw (opts : Options) (data : List Byte) : List Found :=
  scanNonEmail data ++ scanFingerprints opts.fingerprints data

theorem scanRaw_within (opts : Options) (hm : m ∈ scanRaw opts data) : Within m data := by
  rw [scanRaw,scanNonEmail_eq] at hm
  simp only [mem_append] at hm
  rcases hm with (((hm | hm) | hm) | hm) | hm
  · exact sweep_within digitStop_within hm
  · exact sweep_within separatedStop_within hm
  · exact sweep_within (findStop_within apiKeyRE_shape.1 APIKey) hm
  · exact sweep_within (findStop_within phoneJPRE_shape.1 Phone) hm
  unfold scanFingerprints at hm
  split at hm
  · cases hm
  · exact sweep_within (tokenStop_within opts.fingerprints) hm

theorem scanRaw_append (opts : Options) (hseam : Seam l r) :
    (scanRaw opts (l ++ r)).Perm (scanRaw opts l ++ (scanRaw opts r).map (Match.shift l.length)) := by
  unfold scanRaw
  rw [scanNonEmail_eq,scanNonEmail_eq,scanNonEmail_eq,scanDigitRuns_append hseam,scanSeparatedRuns_append hseam,
    findAll_append apiKeyRE_shape.1 apiKeyRE_shape.2 APIKey hseam,
    findAll_append phoneJPRE_shape.1 phoneJPRE_shape.2 Phone hseam,scanFingerprints_append _ hseam]
  simp only [map_append]
  rw [← Multiset.coe_eq_coe]
  simp only [← Multiset.coe_add]
  abel

theorem scanBaseAll_within (opts : Options) (hm : m ∈ scanBaseAll opts data) : Within m data :=
  scanRaw_within opts (mem_filter.mp hm).1

theorem slice_left (hm : Within m l) : slice (l ++ r) m.start m.stop = slice l m.start m.stop := by
  unfold slice
  rw [drop_append_of_le_length (hm.1.le.trans hm.2),take_append_of_le_length]
  rw [length_drop]
  exact Nat.sub_le_sub_right hm.2 m.start

theorem slice_right (l r : List Byte) (m : Found) :
    slice (l ++ r) (m.shift l.length).start (m.shift l.length).stop = slice r m.start m.stop := by
  unfold slice
  have hlen : m.stop + l.length - (m.start + l.length) = m.stop - m.start := by omega
  rw [Match.shift_start,Match.shift_stop,hlen,Nat.add_comm m.start,drop_length_add_append]

theorem scanBaseAll_append (opts : Options) (hseam : Seam l r) :
    (scanBaseAll opts (l ++ r)).Perm (scanBaseAll opts l ++ (scanBaseAll opts r).map (Match.shift l.length)) := by
  have hperm := (scanRaw_append opts hseam).filter fun m => !opts.allowed m.typ (slice (l ++ r) m.start m.stop)
  refine hperm.trans (.of_eq ?_)
  rw [filter_append,filter_map]
  congr 1
  · exact filter_congr fun m hm => by rw [slice_left (scanRaw_within opts hm)]
  congr 1
  refine filter_congr fun m _ => ?_
  rw [Function.comp_apply,slice_right]
  rfl

end DsseCore.Dlp
