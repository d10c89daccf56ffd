import DsseCore.Go.Numbers
import DsseCore.Go.Time

/-!
# Formatting an instant and reading it back

For years of four digits `time.Parse` inverts `Format`: the RFC 3339 text gives the instant back up to its whole
second, the text with a fraction gives it back exactly.  The heart is that the two conversions between days and
dates are inverse, which is checked on the start and the end of each of the 400 years of an era.
-/

namespace DsseCore.Go.Time

open List

/-- The day of an era on which its year `y` starts; an era is a day longer than 400 such years. -/
def yearStart (y : ℕ) : ℕ := if y < 400 then 365 * y + y / 4 - y / 100 else 146097

/-- Days with the leap days taken out, so that a year is 365 of them. -/
def flatDays (doe : ℕ) : ℕ := doe + doe / 36524 - doe / 1460 - doe / 146096

theorem flatDays_mono {a b : ℕ} (h : a ≤ b) (hb : b ≤ 146096) : flatDays a ≤ flatDays b := by
  unfold flatDays
  by_cases hlast : b = 146096
  · subst hlast
    omega
  · omega

theorem flatDays_yearStart : ∀ y < 400, flatDays (yearStart y) = 365 * y := by decide +kernel

theorem flatDays_yearEnd : ∀ y < 400, flatDays (yearStart (y + 1) - 1) ≤ 365 * y + 364 := by decide +kernel

theorem yearStart_succ : ∀ y < 400, yearStart y < yearStart (y + 1) ∧
    yearStart (y + 1) = yearStart y + if isLeap (y + 1) then 366 else 365 := by decide +kernel

theorem exists_year {doe : ℕ} (h : doe ≤ 146096) : ∃ y < 400, yearStart y ≤ doe ∧ doe < yearStart (y + 1) := by
  have hsearch : ∀ n ≤ 400, doe < yearStart n → ∃ y < n, yearStart y ≤ doe ∧ doe < yearStart (y + 1) := by
    intro n
    induction n with
    | zero => intro _ hlt; simp [yearStart] at hlt
    | succ n ih =>
      intro hn hlt
      by_cases hle : yearStart n ≤ doe
      · exact ⟨n,Nat.lt_succ_self n,hle,hlt⟩
      · obtain ⟨y, hy, hbounds⟩ := ih (by omega) (by omega)
        exact ⟨y,by omega,hbounds⟩
  exact hsearch 400 le_rfl (by rw [yearStart,if_neg (by omega)]; omega)

theorem year_of_day {doe : ℕ} (h : doe ≤ 146096) :
    flatDays doe / 365 < 400 ∧ yearStart (flatDays doe / 365) ≤ doe ∧ doe < yearStart (flatDays doe / 365 + 1) := by
  obtain ⟨y, hy, hstart, hend⟩ := exists_year h
  have hlow := flatDays_mono hstart h
  have hhigh := flatDays_mono (Nat.le_sub_one_of_lt hend) (by
    have hle : yearStart (y + 1) ≤ 146097 := by
      unfold yearStart
      split <;> omega
    omega)
  rw [flatDays_yearStart y hy] at hlow
  have hyear : flatDays doe / 365 = y := by
    have := flatDays_yearEnd y hy
    omega
  rw [hyear]
  exact ⟨hy,hstart,hend⟩

theorem isLeap_add_era {yoe : ℕ} {era : Int} (h : 0 ≤ (yoe : Int) + era * 400 + 1) :
    isLeap ((yoe : Int) + era * 400 + 1).toNat = isLeap (yoe + 1) := by
  have h4 : ((yoe : Int) + era * 400 + 1).toNat % 4 = (yoe + 1) % 4 := by omega
  have h100 : ((yoe : Int) + era * 400 + 1).toNat % 100 = (yoe + 1) % 100 := by omega
  have h400 : ((yoe : Int) + era * 400 + 1).toNat % 400 = (yoe + 1) % 400 := by omega
  rw [isLeap,isLeap,h4,h100,h400]

theorem civilFromDays_spec (days : Int) :
    ∃ y m d : Int, civilFromDays days = (y,m,d) ∧ daysFromCivil y m d = days ∧ 1 ≤ m ∧ m ≤ 12 ∧ 1 ≤ d ∧
      (0 ≤ y → d ≤ daysIn m.toNat y.toNat) ∧ d ≤ 31 := by
  obtain ⟨era, hera⟩ : ∃ era, era = (days + 719468).fdiv 146097 := ⟨_,rfl⟩
  obtain ⟨doe, hdoe⟩ : ∃ doe : ℕ, (doe : Int) = days + 719468 - era * 146097 := by
    rw [Int.fdiv_eq_ediv_of_nonneg _ (by omega)] at hera
    exact ⟨(days + 719468 - era * 146097).toNat,by omega⟩
  have hlast : doe ≤ 146096 := by
    rw [Int.fdiv_eq_ediv_of_nonneg _ (by omega)] at hera
    omega
  obtain ⟨hyear, hstart, hend⟩ := year_of_day hlast
  obtain ⟨hlt, hsucc⟩ := yearStart_succ _ hyear
  obtain ⟨yoe, hyoe⟩ : ∃ yoe, yoe = flatDays doe / 365 := ⟨_,rfl⟩
  rw [← hyoe] at hyear hstart hend hlt hsucc
  have hyoe' : ((doe : Int) - doe / 1460 + doe / 36524 - doe / 146096) / 365 = yoe := by
    rw [hyoe,flatDays]
    omega
  have hstart' : yearStart yoe = 365 * yoe + yoe / 4 - yoe / 100 := by rw [yearStart,if_pos hyear]
  obtain ⟨doy, hdoy⟩ : ∃ doy : ℕ, doe = 365 * yoe + yoe / 4 - yoe / 100 + doy :=
    ⟨doe - (365 * yoe + yoe / 4 - yoe / 100),by omega⟩
  have hdoy' : (doe : Int) - (365 * yoe + yoe / 4 - yoe / 100) = doy := by omega
  obtain ⟨mp, hmp⟩ : ∃ mp : ℕ, mp = (5 * doy + 2) / 153 := ⟨_,rfl⟩
  have hmp' : (5 * (doy : Int) + 2) / 153 = mp := by omega
  have hdoymax : doy ≤ 365 := by
    rw [hsucc] at hend
    split at hend <;> omega
  have hleap : doy = 365 → isLeap (yoe + 1) = true := by
    intro h
    by_contra hnot
    rw [hsucc,if_neg hnot] at hend
    omega
  refine ⟨if mp < 10 then yoe + era * 400 else yoe + era * 400 + 1,if mp < 10 then mp + 3 else mp - 9,
    doy - (153 * mp + 2) / 5 + 1,?_,?_,?_,?_,?_,?_,?_⟩
  · simp only [civilFromDays,← hera,← hdoe,hyoe',hdoy',hmp']
    by_cases h : mp < 10
    · have h' : (mp : Int) < 10 := by omega
      simp only [h,h',if_true]
      rw [if_neg (by omega)]
    have h' : ¬ (mp : Int) < 10 := by omega
    simp only [h,h',if_false]
    rw [if_pos (by omega)]
  · have hback : (if (if mp < 10 then (mp : Int) + 3 else mp - 9) ≤ 2 then
        (if mp < 10 then (yoe : Int) + era * 400 else yoe + era * 400 + 1) - 1
        else if mp < 10 then (yoe : Int) + era * 400 else yoe + era * 400 + 1) = yoe + era * 400 := by
      split_ifs <;> omega
    have hera' : ((yoe : Int) + era * 400).fdiv 400 = era := by
      rw [Int.fdiv_eq_ediv_of_nonneg _ (by omega)]
      omega
    have hmonth : (if 2 < (if mp < 10 then (mp : Int) + 3 else mp - 9) then
        (if mp < 10 then (mp : Int) + 3 else mp - 9) - 3 else (if mp < 10 then (mp : Int) + 3 else mp - 9) + 9) = mp := by
      split_ifs <;> omega
    simp only [daysFromCivil,hback,hera',hmonth,add_sub_cancel_right]
    clear hyoe' hyoe hleap hsucc hend hback hmonth hera' hera
    omega
  · split_ifs <;> omega
  · split_ifs <;> omega
  · omega
  · intro hy
    rcases Nat.lt_or_ge mp 11 with hlt11 | hge
    · have hshort : mp ≤ 10 := by omega
      clear hyoe' hyoe hleap hsucc hend hstart hdoe hera hlast hdoy hdoy'
      interval_cases mp <;> simp [daysIn] <;> omega
    obtain rfl : mp = 11 := by omega
    simp only [show ¬ 11 < 10 by omega,if_false] at hy ⊢
    rw [daysIn,if_pos (by omega)]
    split
    · push_cast
      omega
    rename_i hnot
    have hne : doy ≠ 365 := fun h => hnot (by rw [← hleap h]; exact isLeap_add_era hy)
    push_cast
    omega
  · omega

/-- The last `w` decimal digits of a number. -/
def padList : ℕ → ℕ → List Char
  | 0, _ => []
  | w + 1, n => padList w (n / 10) ++ [Nat.digitChar (n % 10)]

@[simp] theorem length_padList (w n : ℕ) : (padList w n).length = w := by
  induction w generalizing n with
  | zero => rfl
  | succ w ih => simp [padList,ih]

theorem padList_zero (w : ℕ) : padList w 0 = replicate w '0' := by
  induction w with
  | zero => rfl
  | succ w ih =>
    rw [padList,ih,replicate_succ']
    rfl

theorem toDigits_padded (w n : ℕ) (h : n < 10 ^ (w + 1)) :
    replicate (w + 1 - (Nat.toDigits 10 n).length) '0' ++ Nat.toDigits 10 n = padList (w + 1) n := by
  induction w generalizing n with
  | zero =>
    rw [Nat.toDigits_of_lt_base (by omega)]
    simp [padList,Nat.mod_eq_of_lt (show n < 10 by omega)]
  | succ w ih =>
    by_cases hn : n < 10
    · rw [Nat.toDigits_of_lt_base hn,padList,Nat.div_eq_of_lt hn,padList_zero,Nat.mod_eq_of_lt hn]
      rfl
    have hdiv : n / 10 < 10 ^ (w + 1) := by
      omega
    rw [Nat.toDigits_of_base_le (by omega) (by omega),padList,← ih (n / 10) hdiv]
    simp

theorem padded_toList (w n : ℕ) (h : n < 10 ^ (w + 1)) : (padded (w + 1) n).toList = padList (w + 1) n := by
  have hrepr : (toString n).toList = Nat.toDigits 10 n := by
    rw [show toString n = n.repr from rfl,Nat.repr_eq_ofList_toDigits,String.toList_ofList]
  have hlength : (toString n).length = (Nat.toDigits 10 n).length := by rw [← String.length_toList,hrepr]
  rw [← toDigits_padded w n h]
  simp only [padded,Int.natAbs_natCast,if_neg (show ¬ (n : Int) < 0 by omega),String.toList_append,hrepr,hlength,
    String.toList_ofList,String.toList_empty,nil_append]

theorem decimal?_padList (w n : ℕ) (h : n < 10 ^ (w + 1)) : decimal? (padList (w + 1) n) = some n := by
  have hfold : ∀ w n, n < 10 ^ w →
      (padList w n).foldl (fun acc c => acc.bind fun n => (digitValue? c).map (10 * n + ·)) (some 0) = some n := by
    intro w
    induction w with
    | zero =>
      intro n hn
      obtain rfl : n = 0 := by simpa using hn
      rfl
    | succ w ih =>
      intro n hn
      rw [padList,foldl_append,ih (n / 10) (by rw [pow_succ] at hn; omega)]
      simp only [foldl_cons,foldl_nil,Option.bind_some,digitValue?_digitChar _ (Nat.mod_lt n (by omega)),
        Option.map_some]
      congr 1
      omega
  have hne : padList (w + 1) n ≠ [] := by simp [padList]
  unfold decimal?
  split
  · contradiction
  · exact hfold (w + 1) n h

theorem getnum_padList (fixed : Bool) {n : ℕ} (h : n < 100) (rest : List Char) :
    getnum fixed (padList 2 n ++ rest) = some (n,rest) := by
  have h1 := digitValue?_digitChar (n / 10 % 10) (Nat.mod_lt _ (by omega))
  have h2 := digitValue?_digitChar (n % 10) (Nat.mod_lt _ (by omega))
  simp only [padList,nil_append,cons_append,getnum,h1,h2,Option.bind_eq_bind,Option.bind_some]
  congr 2
  omega

theorem parseRFC3339_fields {y m d hh mm ss ns : ℕ} {tail : List Char} (hy : y < 10000) (hm : 1 ≤ m ∧ m ≤ 12)
    (hd : 1 ≤ d ∧ d ≤ daysIn m y) (hhh : hh < 24) (hmm : mm < 60) (hss : ss < 60)
    (htail : fraction tail = (ns,['Z'])) :
    parseRFC3339 (String.ofList (padList 4 y ++ '-' :: (padList 2 m ++ '-' :: (padList 2 d ++ 'T' ::
      (padList 2 hh ++ ':' :: (padList 2 mm ++ ':' :: (padList 2 ss ++ tail))))))) =
      some ((((daysFromCivil y m d * 24 + hh) * 60 + mm) * 60 + ss) * second + ns) := by
  have hdays : daysIn m y ≤ 31 := by
    unfold daysIn
    split_ifs <;> omega
  have htake : ∀ rest, (padList 4 y ++ rest).take 4 = padList 4 y := by
    intro rest
    rw [take_left' (length_padList 4 y)]
  have hdrop : ∀ rest, (padList 4 y ++ rest).drop 4 = rest := by
    intro rest
    rw [drop_left' (length_padList 4 y)]
  have hlength : ∀ rest, ¬ (padList 4 y ++ rest).length < 4 := by
    intro rest
    rw [length_append,length_padList]
    omega
  have hvalid : (m < 1 || 12 < m || d < 1 || daysIn m y < d || 24 ≤ hh || 60 ≤ mm || 60 ≤ ss) = false := by
    simp
    omega
  unfold parseRFC3339
  simp only [String.toList_ofList,htake,hdrop,hlength,decimal?_padList 3 y hy,Option.bind_eq_bind,Option.bind_some,
    if_false,literal,if_true,getnum_padList true (show m < 100 by omega),getnum_padList true (show d < 100 by omega),
    getnum_padList false (show hh < 100 by omega),getnum_padList true (show mm < 100 by omega),
    getnum_padList true (show ss < 100 by omega),htail,zone,hvalid,Bool.false_eq_true,sub_zero]

theorem fraction_Z : fraction ['Z'] = (0,['Z']) := by decide

theorem fraction_fractionText {ns : ℕ} (h : ns < 1000000000) :
    fraction ((fractionText ns).toList ++ ['Z']) = (ns,['Z']) := by
  have hdigits := padded_toList 8 ns h
  obtain ⟨ds, hds⟩ : ∃ ds, ds = (padList 9 ns).rdropWhile (· == '0') := ⟨_,rfl⟩
  obtain ⟨zs, hzs⟩ : ∃ zs, zs = (padList 9 ns).rtakeWhile (· == '0') := ⟨_,rfl⟩
  have hsplit : ds ++ zs = padList 9 ns := by
    rw [hds,hzs]
    exact rdropWhile_append_rtakeWhile
  have hzeros : zs = replicate zs.length '0' := by
    refine eq_replicate_of_mem fun c hc => ?_
    rw [hzs] at hc
    simpa using mem_rtakeWhile_imp hc
  have hlength : ds.length + zs.length = 9 := by
    have := congrArg length hsplit
    simpa using this
  have hall : ∀ c ∈ padList 9 ns, isDigit c = true := by
    have hpad : ∀ w n, ∀ c ∈ padList w n, isDigit c = true := by
      intro w
      induction w with
      | zero => intro n c hc; simp [padList] at hc
      | succ w ih =>
        intro n c hc
        rcases mem_append.mp hc with hc | hc
        · exact ih _ c hc
        rw [mem_singleton] at hc
        rw [hc,isDigit,digitValue?_digitChar _ (Nat.mod_lt n (by omega))]
        rfl
    exact hpad 9 ns
  have hfill : zs = replicate (9 - ds.length) '0' := by
    rwa [show zs.length = 9 - ds.length by omega] at hzeros
  have htake : (ds ++ replicate 9 '0').take 9 = padList 9 ns := by
    rw [take_append,take_of_length_le (by omega),take_replicate,
      show min (9 - ds.length) 9 = 9 - ds.length by omega,← hfill,hsplit]
  have hread : decimal? ((ds ++ replicate 9 '0').take 9) = some ns := by
    rw [htake]
    exact decimal?_padList 8 ns h
  have hZ : isDigit 'Z' = false := by decide
  have htext : (fractionText ns).toList = if ds = [] then [] else '.' :: ds := by
    simp only [fractionText,hdigits,← hds]
    split
    · rfl
    · simp
  rw [htext]
  cases hcases : ds with
  | nil =>
    -- nothing but zeros was dropped
    rw [hcases] at hread
    have hzero : ns = 0 := by
      have : decimal? ((([] : List Char) ++ replicate 9 '0').take 9) = some 0 := by decide
      rw [this] at hread
      exact (Option.some.inj hread).symm
    rw [hzero]
    exact fraction_Z
  | cons c cs =>
    rw [if_neg (by simp)]
    have hdigit : ∀ x ∈ c :: cs, isDigit x = true := by
      intro x hx
      rw [← hcases] at hx
      exact hall x (hsplit ▸ mem_append_left _ hx)
    have htakeWhile : ((c :: cs) ++ ['Z']).takeWhile isDigit = c :: cs := by
      rw [takeWhile_append_of_pos hdigit]
      simp [hZ]
    have hc := hdigit c mem_cons_self
    simp only [cons_append,fraction]
    rw [if_pos (by simp [hc])]
    rw [cons_append] at htakeWhile
    simp only [tail_cons,htakeWhile]
    rw [hcases] at hread
    rw [hread]
    simp

theorem year_bounds {y m d days : Int} (h : daysFromCivil y m d = days) (hm1 : 1 ≤ m) (hm12 : m ≤ 12) (hd1 : 1 ≤ d)
    (hd31 : d ≤ 31) (hlow : -719528 ≤ days) (hhigh : days < 2932897) : 0 ≤ y ∧ y ≤ 9999 := by
  unfold daysFromCivil at h
  simp only [Int.fdiv_eq_ediv_of_nonneg _ (show (0 : Int) ≤ 400 by omega)] at h
  by_cases hm : m ≤ 2
  · constructor <;> omega
  rw [if_neg hm,if_pos (by omega)] at h
  have h4 : (y - y / 400 * 400) / 4 = y / 4 - y / 400 * 100 := by omega
  have h100 : (y - y / 400 * 400) / 100 = y / 100 - y / 400 * 4 := by omega
  constructor
  · by_contra hneg
    have hle : y / 4 ≤ y / 100 := by omega
    omega
  · omega

theorem year_late {y m d days : Int} (h : daysFromCivil y m d = days) (hm1 : 1 ≤ m) (hm12 : m ≤ 12) (hd31 : d ≤ 31)
    (hlate : 2932897 ≤ days) : 10000 ≤ y := by
  unfold daysFromCivil at h
  simp only [Int.fdiv_eq_ediv_of_nonneg _ (show (0 : Int) ≤ 400 by omega)] at h
  by_cases hm : m ≤ 2
  · omega
  · omega

def Writable (t : Time) : Prop := -62167219200 * second ≤ t ∧ t < 253402300800 * second

instance : DecidablePred Writable := fun _ => inferInstanceAs (Decidable (_ ∧ _))

variable {t : Time}

theorem late_of_not_writable (h0 : zero < t) (h : ¬ Writable t) : 253402300800 * second ≤ t := by
  have hlow : -62167219200 * second ≤ t := le_trans (by decide) h0.le
  exact not_lt.mp fun hlt => h ⟨hlow,hlt⟩

theorem format_spec (ht : Writable t) : ∃ y m d hh mm ss : ℕ,
    formatRFC3339 t = String.ofList (padList 4 y ++ '-' :: (padList 2 m ++ '-' :: (padList 2 d ++ 'T' ::
      (padList 2 hh ++ ':' :: (padList 2 mm ++ ':' :: (padList 2 ss ++ ['Z'])))))) ∧
    formatRFC3339Nano t = String.ofList (padList 4 y ++ '-' :: (padList 2 m ++ '-' :: (padList 2 d ++ 'T' ::
      (padList 2 hh ++ ':' :: (padList 2 mm ++ ':' :: (padList 2 ss ++
        ((fractionText (t - t.fdiv second * second)).toList ++ ['Z']))))))) ∧
    y < 10000 ∧ (1 ≤ m ∧ m ≤ 12) ∧ (1 ≤ d ∧ d ≤ daysIn m y) ∧ hh < 24 ∧ mm < 60 ∧ ss < 60 ∧
    ((daysFromCivil y m d * 24 + hh) * 60 + mm) * 60 + ss = t.fdiv second := by
  obtain ⟨secs, hsecs⟩ : ∃ secs, secs = t.fdiv second := ⟨_,rfl⟩
  obtain ⟨days, hdays⟩ : ∃ days, days = secs.fdiv 86400 := ⟨_,rfl⟩
  obtain ⟨y, m, d, hcivil, hback, hm1, hm12, hd1, hdlast, hd31⟩ := civilFromDays_spec days
  have hsecsbounds : -62167219200 ≤ secs ∧ secs < 253402300800 := by
    have hbounds : ∀ n : Int, -62167219200 * second ≤ n ∧ n < 253402300800 * second →
        -62167219200 ≤ n.fdiv second ∧ n.fdiv second < 253402300800 := by
      intro n hn
      rw [second] at hn ⊢
      rw [Int.fdiv_eq_ediv_of_nonneg _ (by omega)]
      omega
    exact hsecs ▸ hbounds t ht
  have hclock : 0 ≤ secs - days * 86400 ∧ secs - days * 86400 < 86400 ∧ -719528 ≤ days ∧ days < 2932897 := by
    rw [Int.fdiv_eq_ediv_of_nonneg _ (by omega)] at hdays
    omega
  obtain ⟨clock, hclockeq⟩ : ∃ clock : ℕ, (clock : Int) = secs - days * 86400 :=
    ⟨(secs - days * 86400).toNat,by omega⟩
  obtain ⟨hy0, hy9999⟩ := year_bounds hback hm1 hm12 hd1 hd31 hclock.2.2.1 hclock.2.2.2
  have hlast := hdlast hy0
  lift y to ℕ using hy0
  lift m to ℕ using (by omega)
  lift d to ℕ using (by omega)
  simp only [Int.toNat_natCast] at hlast
  have hpad : ∀ w n : ℕ, n < 10 ^ (w + 1) → padded (w + 1) n = String.ofList (padList (w + 1) n) := by
    intro w n hn
    rw [← padded_toList w n hn,String.ofList_toList]
  have hhour : (secs - days * 86400) / 3600 = (clock / 3600 : ℕ) := by omega
  have hminute : (secs - days * 86400) / 60 % 60 = (clock / 60 % 60 : ℕ) := by omega
  have hsecond : (secs - days * 86400) % 60 = (clock % 60 : ℕ) := by omega
  refine ⟨y,m,d,clock / 3600,clock / 60 % 60,clock % 60,?_,?_,by omega,by omega,by omega,by omega,by omega,by omega,?_⟩
  · simp only [formatRFC3339,← hsecs,← hdays,hcivil,hhour,hminute,hsecond]
    rw [hpad 3 y (by omega),hpad 1 m (by omega),hpad 1 d (by omega),hpad 1 _ (by omega),hpad 1 _ (by omega),
      hpad 1 _ (by omega)]
    apply String.toList_inj.mp
    simp
  · simp only [formatRFC3339Nano,← hsecs,← hdays,hcivil,hhour,hminute,hsecond]
    rw [hpad 3 y (by omega),hpad 1 m (by omega),hpad 1 d (by omega),hpad 1 _ (by omega),hpad 1 _ (by omega),
      hpad 1 _ (by omega)]
    apply String.toList_inj.mp
    simp
  · omega

theorem parse_formatRFC3339 (ht : Writable t) : parseRFC3339 (formatRFC3339 t) = some (t.fdiv second * second) := by
  obtain ⟨y, m, d, hh, mm, ss, hformat, _, hy, hm, hd, hhh, hmm, hss, hsum⟩ := format_spec ht
  rw [hformat,parseRFC3339_fields hy hm hd hhh hmm hss fraction_Z,hsum]
  simp

theorem parse_formatRFC3339_late (h : 253402300800 * second ≤ t) : parseRFC3339 (formatRFC3339 t) = none := by
  obtain ⟨y, m, d, hcivil, hback, hm1, hm12, hd1, -, hd31⟩ := civilFromDays_spec ((t.fdiv second).fdiv 86400)
  have hdays : 2932897 ≤ (t.fdiv second).fdiv 86400 := by
    rw [second] at h ⊢
    rw [Int.fdiv_eq_ediv_of_nonneg _ (by omega),Int.fdiv_eq_ediv_of_nonneg _ (by omega)]
    omega
  have hy := year_late hback hm1 hm12 hd31 hdays
  obtain ⟨n, rfl⟩ := Int.eq_ofNat_of_zero_le (show 0 ≤ y by omega)
  have hlen : 4 < (Nat.toDigits 10 n).length := by
    have hstep : ∀ k : ℕ, 10 ≤ k → (Nat.toDigits 10 k).length = (Nat.toDigits 10 (k / 10)).length + 1 := by
      intro k hk
      rw [Nat.toDigits_of_base_le (by omega) hk,length_append,length_singleton]
    have hone : 0 < (Nat.toDigits 10 (n / 10 / 10 / 10 / 10)).length := by
      by_cases hk : n / 10 / 10 / 10 / 10 < 10
      · rw [Nat.toDigits_of_lt_base hk]
        exact Nat.one_pos
      · rw [hstep _ (by omega)]
        omega
    rw [hstep n (by omega),hstep _ (by omega),hstep _ (by omega),hstep _ (by omega)]
    omega
  have hrepr : (toString n).toList = Nat.toDigits 10 n := by
    rw [show toString n = n.repr from rfl,Nat.repr_eq_ofList_toDigits,String.toList_ofList]
  have hpad : (padded 4 n).toList = Nat.toDigits 10 n := by
    have hlength : 4 - (toString n).length = 0 := by
      rw [← String.length_toList,hrepr]
      omega
    simp only [padded,Int.natAbs_natCast,hlength]
    simp
  -- the fifth character is a digit, where the layout has a dash
  obtain ⟨rest, hrest⟩ : ∃ rest, (formatRFC3339 t).toList = Nat.toDigits 10 n ++ rest := by
    simp only [formatRFC3339,hcivil,String.toList_append,hpad,append_assoc]
    exact ⟨_,rfl⟩
  have hdigit : literal '-' ((formatRFC3339 t).toList.drop 4) = none := by
    rw [hrest,drop_append_of_le_length hlen.le,drop_eq_getElem_cons hlen]
    have hmem := Nat.isDigit_of_mem_toDigits (b := 10) (by omega) (by omega) (getElem_mem hlen)
    refine if_neg fun he => ?_
    rw [← he] at hmem
    exact absurd hmem (by decide)
  unfold parseRFC3339
  generalize (formatRFC3339 t).toList = l at hdigit ⊢
  simp only [hdigit]
  cases decimal? (l.take 4) with
  | none => rfl
  | some v => exact ite_self none

theorem parse_formatRFC3339Nano (ht : Writable t) : parseRFC3339 (formatRFC3339Nano t) = some t := by
  obtain ⟨y, m, d, hh, mm, ss, _, hformat, hy, hm, hd, hhh, hmm, hss, hsum⟩ := format_spec ht
  obtain ⟨ns, hns⟩ : ∃ ns : ℕ, (ns : Int) = t - t.fdiv second * second := by
    refine ⟨(t - t.fdiv second * second).toNat,?_⟩
    rw [second,Int.fdiv_eq_ediv_of_nonneg _ (by omega)]
    omega
  have hlt : ns < 1000000000 := by
    rw [second,Int.fdiv_eq_ediv_of_nonneg _ (by omega)] at hns
    omega
  rw [hformat,← hns,parseRFC3339_fields hy hm hd hhh hmm hss (fraction_fractionText hlt),hsum]
  congr 1
  omega

end DsseCore.Go.Time
