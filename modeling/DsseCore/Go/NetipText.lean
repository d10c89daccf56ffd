import DsseCore.Go.Netip

/-!
# Reading back the text of an address

`ParseAddr` reads the text that `String` writes of an address which is not IPv4-mapped, and gives the address back.
-/

namespace DsseCore.Go.Addr

open List

variable {n : ℕ} {gs : List ℕ} {c : Char} {body : List Char}

theorem octet?_toDigits (h : n < 256) : octet? (Nat.toDigits 10 n) = some n := by
  have hall : (range 256).all (fun n => octet? (Nat.toDigits 10 n) == some n) = true := by decide +kernel
  exact beq_iff_eq.mp (all_eq_true.mp hall n (mem_range.mpr h))

theorem digits_of_octet (h : n < 256) : ∀ c ∈ Nat.toDigits 10 n, c ≠ '.' ∧ c ≠ ':' ∧ c ≠ '%' ∧ isSpace c = false := by
  have hall : (range 256).all (fun n =>
      (Nat.toDigits 10 n).all fun c => c != '.' && c != ':' && c != '%' && ! isSpace c) = true := by
    decide +kernel
  intro c hc
  simpa [and_assoc] using all_eq_true.mp (all_eq_true.mp hall n (mem_range.mpr h)) c hc

def octets (b : BitVec 32) : List ℕ :=
  [b.toNat / 2 ^ 24,b.toNat / 2 ^ 16 % 256,b.toNat / 2 ^ 8 % 256,b.toNat % 256]

theorem octets_lt (b : BitVec 32) : ∀ n ∈ octets b, n < 256 := by
  intro n hn
  simp only [octets,mem_cons,not_mem_nil,or_false] at hn
  omega

theorem octets?_join {w x y z : ℕ} (hw : w < 256) (hx : x < 256) (hy : y < 256) (hz : z < 256) :
    octets? (Nat.toDigits 10 w ++ '.' :: (Nat.toDigits 10 x ++ '.' :: (Nat.toDigits 10 y ++ '.' :: Nat.toDigits 10 z))) =
      some [w,x,y,z] := by
  have hsplit : ∀ n < 256, splitList '.' (Nat.toDigits 10 n) = [Nat.toDigits 10 n] :=
    fun n hn => splitList_of_notMem fun c hc => (digits_of_octet hn c hc).1
  unfold octets?
  rw [splitList_append,splitList_append,splitList_append,hsplit w hw,hsplit x hx,hsplit y hy,hsplit z hz]
  simp [octet?_toDigits hw,octet?_toDigits hx,octet?_toDigits hy,octet?_toDigits hz]

theorem toList_text4 (b : BitVec 32) :
    (text4 b).toList = Nat.toDigits 10 (b.toNat / 2 ^ 24) ++ '.' :: (Nat.toDigits 10 (b.toNat / 2 ^ 16 % 256) ++
      '.' :: (Nat.toDigits 10 (b.toNat / 2 ^ 8 % 256) ++ '.' :: Nat.toDigits 10 (b.toNat % 256))) := by
  simp [text4,join]

theorem octets?_text4 (b : BitVec 32) : octets? (text4 b).toList = some (octets b) := by
  have hlt := octets_lt b
  rw [toList_text4]
  exact octets?_join (hlt _ (by simp [octets])) (hlt _ (by simp [octets])) (hlt _ (by simp [octets]))
    (hlt _ (by simp [octets]))

theorem ofDigits_octets (b : BitVec 32) : ofDigits 256 (octets b) = b.toNat := by
  simp only [octets,ofDigits,foldl_cons,foldl_nil]
  omega

theorem parse_text4 (b : BitVec 32) : parse (text4 b) = some (v4 b) := by
  have hfirst : (text4 b).toList.find? (fun c => c = '.' || c = ':' || c = '%') = some '.' := by
    have hnone : (Nat.toDigits 10 (b.toNat / 2 ^ 24)).find? (fun c => c = '.' || c = ':' || c = '%') = none := by
      rw [find?_eq_none]
      intro c hc
      obtain ⟨hdot, hcolon, hzone, _⟩ := digits_of_octet (octets_lt b _ (by simp [octets])) c hc
      simp [hdot,hcolon,hzone]
    rw [toList_text4,find?_append,hnone]
    rfl
  unfold parse
  rw [hfirst]
  simp only [octets?_text4,Option.map_some,ofDigits_octets,BitVec.ofNat_toNat,BitVec.setWidth_eq]

theorem hexValue?_digitChar : ∀ k < 16, Float64.hexValue? (Nat.digitChar k) = some k := by decide

theorem ofDigits_append_singleton (base : ℕ) (l : List ℕ) (d : ℕ) :
    ofDigits base (l ++ [d]) = base * ofDigits base l + d := by
  simp [ofDigits]

theorem isHex_toDigits (n : ℕ) : ∀ c ∈ Nat.toDigits 16 n, isHex c = true := by
  induction n using Nat.strong_induction_on with
  | _ n ih =>
    by_cases hn : n < 16
    · rw [Nat.toDigits_of_lt_base hn]
      intro c hc
      rw [mem_singleton.mp hc,isHex,hexValue?_digitChar n hn]
      rfl
    · rw [Nat.toDigits_of_base_le (by omega) (by omega)]
      intro c hc
      rcases mem_append.mp hc with hc | hc
      · exact ih (n / 16) (by omega) c hc
      · rw [mem_singleton.mp hc,isHex,hexValue?_digitChar _ (Nat.mod_lt n (by omega))]
        rfl

theorem hexNumber_toDigits (n : ℕ) : hexNumber (Nat.toDigits 16 n) = n := by
  unfold hexNumber
  induction n using Nat.strong_induction_on with
  | _ n ih =>
    by_cases hn : n < 16
    · rw [Nat.toDigits_of_lt_base hn]
      simp [hexValue?_digitChar n hn,ofDigits]
    rw [Nat.toDigits_of_base_le (by omega) (by omega),filterMap_append]
    simp only [filterMap_cons,filterMap_nil,hexValue?_digitChar _ (Nat.mod_lt n (show 0 < 16 by omega))]
    rw [ofDigits_append_singleton,ih (n / 16) (by omega)]
    omega

def joinHex : List ℕ → List Char
  | [] => []
  | [n] => Nat.toDigits 16 n
  | n :: l => Nat.toDigits 16 n ++ ':' :: joinHex l

theorem joinHex_cons {m : ℕ} {l : List ℕ} :
    joinHex (n :: m :: l) = Nat.toDigits 16 n ++ ':' :: joinHex (m :: l) := rfl

theorem toList_join_hexText (gs : List ℕ) : (join ":" (gs.map hexText)).toList = joinHex gs := by
  induction gs with
  | nil => rfl
  | cons n l ih =>
    cases l with
    | nil => simp [join,hexText,joinHex]
    | cons m l =>
      rw [joinHex_cons,← ih]
      simp [join,hexText]

theorem mem_joinHex (hc : c ∈ joinHex gs) : c = ':' ∨ isHex c = true := by
  induction gs with
  | nil => exact absurd hc not_mem_nil
  | cons n l ih =>
    cases l with
    | nil => exact .inr (isHex_toDigits n c hc)
    | cons m l =>
      rw [joinHex_cons,mem_append,mem_cons] at hc
      rcases hc with hc | rfl | hc
      · exact .inr (isHex_toDigits n c hc)
      · exact .inl rfl
      · exact ih hc

theorem joinHex_head (n : ℕ) (l : List ℕ) : ∃ c t, joinHex (n :: l) = c :: t ∧ isHex c = true := by
  obtain ⟨c, t, ht⟩ := exists_cons_of_ne_nil (Nat.toDigits_ne_nil (b := 16) (n := n))
  have hc : isHex c = true := isHex_toDigits n c (by rw [ht]; exact mem_cons_self)
  cases l with
  | nil => exact ⟨c,t,ht,hc⟩
  | cons m l => exact ⟨c,t ++ ':' :: joinHex (m :: l),by rw [joinHex_cons,ht]; rfl,hc⟩

theorem takeWhile_group (n : ℕ) (rest : List Char) (hrest : ∀ c ∈ rest.head?, c = ':') :
    (Nat.toDigits 16 n ++ rest).takeWhile isHex = Nat.toDigits 16 n := by
  rw [takeWhile_append_of_pos (isHex_toDigits n)]
  cases rest with
  | nil => simp
  | cons c rest =>
    rw [hrest c rfl,takeWhile_cons_of_neg (by decide),append_nil]

section Parse

variable (hn : n < 65536) (fuel : ℕ) (groups : List ℕ) (ellipsis : Option ℕ)

include hn

theorem length_toDigits : ¬ ((Nat.toDigits 16 n).length = 0 || decide (4 < (Nat.toDigits 16 n).length)) = true := by
  have hpos := length_pos_iff.mpr (Nat.toDigits_ne_nil (b := 16) (n := n))
  have hle := Nat.toDigits_length 16 n 4 (by omega) (by omega)
  simp only [Bool.or_eq_true,decide_eq_true_eq]
  omega

theorem parseGroups_last :
    parseGroups (fuel + 1) groups ellipsis (Nat.toDigits 16 n) = some (groups ++ [n],ellipsis,[]) := by
  have htake : (Nat.toDigits 16 n).takeWhile isHex = Nat.toDigits 16 n := by
    simpa using takeWhile_group n [] (by simp)
  rw [parseGroups]
  simp only [htake,length_toDigits hn,drop_length,hexNumber_toDigits,Bool.false_eq_true,if_false]

theorem parseGroups_colon {rest : List Char} (hc : c ≠ ':') :
    parseGroups (fuel + 1) groups ellipsis (Nat.toDigits 16 n ++ ':' :: c :: rest) =
      parseGroups fuel (groups ++ [n]) ellipsis (c :: rest) := by
  have htake := takeWhile_group n (':' :: c :: rest) (by simp)
  rw [parseGroups]
  simp only [htake,length_toDigits hn,drop_left,hexNumber_toDigits,Bool.false_eq_true,if_false]
  split
  next h => exact absurd (cons.inj h).1 (by decide)
  next h => exact absurd h (by simp)
  next h => exact absurd h (by simp)
  next h => exact absurd (cons.inj (cons.inj h).2).1 hc
  next h => rw [← (cons.inj h).2]
  next h => exact absurd rfl (h (c :: rest))

theorem parseGroups_ellipsis (rest : List Char) :
    parseGroups (fuel + 1) groups none (Nat.toDigits 16 n ++ ':' :: ':' :: rest) =
      if rest.isEmpty then some (groups ++ [n],some (groups ++ [n]).length,[])
      else parseGroups fuel (groups ++ [n]) (some (groups ++ [n]).length) rest := by
  have htake := takeWhile_group n (':' :: ':' :: rest) (by simp)
  rw [parseGroups]
  simp only [htake,length_toDigits hn,drop_left,hexNumber_toDigits,Bool.false_eq_true,if_false,
    Option.isSome_none]

end Parse

theorem parseGroups_joinHex (hgs : ∀ n ∈ gs, n < 65536) (hne : gs ≠ []) (fuel : ℕ) (hfuel : gs.length ≤ fuel)
    (groups : List ℕ) (ellipsis : Option ℕ) :
    parseGroups fuel groups ellipsis (joinHex gs) = some (groups ++ gs,ellipsis,[]) := by
  induction gs generalizing fuel groups with
  | nil => exact absurd rfl hne
  | cons n l ih =>
    obtain ⟨fuel, rfl⟩ : ∃ k, fuel = k + 1 := Nat.exists_eq_add_one.mpr (by simp at hfuel; omega)
    have hn := hgs n mem_cons_self
    cases l with
    | nil => exact parseGroups_last hn fuel groups ellipsis
    | cons m l =>
      obtain ⟨c, t, ht, hc⟩ := joinHex_head m l
      have hcolon : c ≠ ':' := by
        rintro rfl
        exact absurd hc (by decide)
      have hrest := ih (fun k hk => hgs k (mem_cons_of_mem n hk)) (by simp) fuel
        (by simp only [length_cons] at hfuel ⊢; omega) (groups ++ [n])
      rw [joinHex_cons,ht,parseGroups_colon hn fuel groups ellipsis hcolon,← ht,hrest,append_assoc]
      rfl

theorem parseGroups_joinHex_ellipsis {right : List ℕ} (hgs : ∀ n ∈ gs, n < 65536) (hne : gs ≠ [])
    (hright : ∀ n ∈ right, n < 65536) (fuel : ℕ) (hfuel : gs.length + right.length ≤ fuel) (groups : List ℕ) :
    parseGroups fuel groups none (joinHex gs ++ ':' :: ':' :: joinHex right) =
      some (groups ++ gs ++ right,some (groups ++ gs).length,[]) := by
  induction gs generalizing fuel groups with
  | nil => exact absurd rfl hne
  | cons n l ih =>
    obtain ⟨fuel, rfl⟩ : ∃ k, fuel = k + 1 := Nat.exists_eq_add_one.mpr (by simp at hfuel; omega)
    have hn := hgs n mem_cons_self
    cases l with
    | nil =>
      rw [show joinHex [n] = Nat.toDigits 16 n from rfl,parseGroups_ellipsis hn]
      cases right with
      | nil => simp [joinHex]
      | cons m right =>
        obtain ⟨c, t, ht, -⟩ := joinHex_head m right
        have hrest := parseGroups_joinHex hright (by simp) fuel
          (by simp only [length_cons,length_nil] at hfuel ⊢; omega) (groups ++ [n])
          (some (groups ++ [n]).length)
        rw [hrest,ht]
        rfl
    | cons m l =>
      obtain ⟨c, t, ht, hc⟩ := joinHex_head m l
      have hcolon : c ≠ ':' := by
        rintro rfl
        exact absurd hc (by decide)
      have hrest := ih (fun k hk => hgs k (mem_cons_of_mem n hk)) (by simp) fuel
        (by simp only [length_cons] at hfuel ⊢; omega) (groups ++ [n])
      rw [ht] at hrest
      rw [joinHex_cons,append_assoc,cons_append,ht,cons_append,
        parseGroups_colon hn fuel groups none hcolon,← cons_append,hrest]
      simp

section Text6

variable (b : BitVec 128)

theorem length_groups6 : (groups6 b).length = 8 := by simp [groups6]

theorem groups6_lt : ∀ n ∈ groups6 b, n < 65536 := by
  intro n hn
  simp only [groups6,mem_map] at hn
  obtain ⟨i, -, rfl⟩ := hn
  exact Nat.mod_lt _ (by omega)

theorem ofDigits_groups6 : ofDigits 65536 (groups6 b) = b.toNat := by
  simp only [groups6,range_succ,range_zero,ofDigits,nil_append,cons_append,map_cons,map_nil,
    foldl_cons,foldl_nil]
  omega

theorem zeroRun_spec (gs : List ℕ) :
    (zeroRun gs).2 = 0 ∨
      2 ≤ (zeroRun gs).2 ∧ (zeroRun gs).2 = ((gs.drop (zeroRun gs).1).takeWhile (· == 0)).length := by
  unfold zeroRun
  generalize range 8 = positions
  have hstart : (((0,0) : ℕ × ℕ).2 = 0 ∨ 2 ≤ ((0,0) : ℕ × ℕ).2 ∧
      ((0,0) : ℕ × ℕ).2 = ((gs.drop ((0,0) : ℕ × ℕ).1).takeWhile (· == 0)).length) := .inl rfl
  generalize ((0,0) : ℕ × ℕ) = best at hstart
  induction positions generalizing best with
  | nil => exact hstart
  | cons i positions ih =>
    apply ih
    simp only
    split
    next h =>
      simp only [Bool.and_eq_true,decide_eq_true_eq] at h
      exact .inr ⟨h.1,rfl⟩
    next => exact hstart

theorem takeWhile_zero (gs : List ℕ) : gs.takeWhile (· == 0) = replicate (gs.takeWhile (· == 0)).length 0 := by
  rw [eq_replicate_iff]
  refine ⟨rfl,fun n hn => ?_⟩
  simpa using mem_takeWhile_imp hn

theorem expand_zeroRun (gs : List ℕ) :
    gs.take (zeroRun gs).1 ++ replicate (zeroRun gs).2 0 ++ gs.drop ((zeroRun gs).1 + (zeroRun gs).2) = gs := by
  rcases zeroRun_spec gs with h | ⟨-, h⟩
  · rw [h]
    simp
  have hrun : (gs.drop (zeroRun gs).1).take (zeroRun gs).2 = replicate (zeroRun gs).2 0 := by
    have htake := prefix_iff_eq_take.mp ( takeWhile_prefix (· == 0) (l := gs.drop (zeroRun gs).1))
    have hzeros := takeWhile_zero (gs.drop (zeroRun gs).1)
    rw [← h] at htake hzeros
    rw [← htake,← hzeros]
  rw [← hrun,append_assoc,← drop_drop,take_append_drop,take_append_drop]

theorem toList_text6 :
    (text6 b).toList = if (zeroRun (groups6 b)).2 = 0 then joinHex (groups6 b)
      else joinHex ((groups6 b).take (zeroRun (groups6 b)).1) ++
        ':' :: ':' :: joinHex ((groups6 b).drop ((zeroRun (groups6 b)).1 + (zeroRun (groups6 b)).2)) := by
  unfold text6
  simp only
  split
  · rw [toList_join_hexText]
  · rw [String.toList_append,String.toList_append,toList_join_hexText,toList_join_hexText,append_assoc]
    rfl

theorem mem_toList_text6 (hc : c ∈ (text6 b).toList) : c = ':' ∨ isHex c = true := by
  rw [toList_text6] at hc
  split at hc
  · exact mem_joinHex hc
  rw [mem_append,mem_cons,mem_cons] at hc
  rcases hc with hc | rfl | rfl | hc
  · exact mem_joinHex hc
  · exact .inl rfl
  · exact .inl rfl
  · exact mem_joinHex hc

def zoneText (z : String) : List Char := if z = "" then [] else '%' :: z.toList

/-- What becomes of the groups that were read, and of the rest of the text. -/
def readGroups (r : List ℕ × Option ℕ × List Char) : Option (List ℕ) :=
  if r.2.2.isEmpty then expandGroups r.1 r.2.1 else none

/-- The groups that `parseIPv6` reads of a text without a zone. -/
def bodyGroups (body : List Char) : Option (List ℕ) :=
  match body with
  | [':',':'] => some (replicate 8 0)
  | ':' :: ':' :: rest => (parseGroups 8 [] (some 0) rest).bind readGroups
  | _ => (parseGroups 8 [] none body).bind readGroups

theorem takeWhile_zoneText (hbody : ∀ c ∈ body, c ≠ '%') (z : String) :
    (body ++ zoneText z).takeWhile (· ≠ '%') = body := by
  rw [takeWhile_append_of_pos (by simpa using hbody)]
  unfold zoneText
  split <;> simp

theorem drop_zoneText (body : List Char) (z : String) : (body ++ zoneText z).drop (body.length + 1) = z.toList := by
  unfold zoneText
  split
  next h => simp [h]
  next => simp [drop_append]

theorem zone_given (hbody : ∀ c ∈ body, c ≠ '%') (z : String) :
    ((body ++ zoneText z).contains '%' && z.toList.isEmpty) = false := by
  have hnot : '%' ∉ body := fun h => hbody '%' h rfl
  unfold zoneText
  split
  next h => simp [hnot]
  next h =>
    have hne : z.toList ≠ [] := by
      intro hnil
      exact h (String.toList_inj.mp hnil)
    simp [hne]

theorem readGroups_bind (r : Option (List ℕ × Option ℕ × List Char)) (z : String) :
    (r.bind fun x => if ¬ x.2.2.isEmpty = true then none
      else (expandGroups x.1 x.2.1).bind fun gs => some (v6 (BitVec.ofNat 128 (ofDigits 65536 gs)) z)) =
    (r.bind readGroups).map fun gs => v6 (BitVec.ofNat 128 (ofDigits 65536 gs)) z := by
  cases r with
  | none => rfl
  | some x =>
    simp only [Option.bind_some,readGroups]
    cases hempty : x.2.2.isEmpty with
    | false => rfl
    | true => cases expandGroups x.1 x.2.1 <;> rfl

theorem parseIPv6_zoneText (hbody : ∀ c ∈ body, c ≠ '%') (z : String) : parseIPv6 (body ++ zoneText z) =
      (bodyGroups body).map fun gs => v6 (BitVec.ofNat 128 (ofDigits 65536 gs)) z := by
  unfold parseIPv6
  simp only [takeWhile_zoneText hbody,drop_zoneText,zone_given hbody,Bool.false_eq_true,if_false,String.ofList_toList]
  unfold bodyGroups
  split
  next rest =>
    cases rest with
    | nil => rfl
    | cons c rest => exact readGroups_bind (parseGroups 8 [] (some 0) (c :: rest)) z
  next hother =>
    rw [if_neg (by simp)]
    split
    next => exact (hother [] rfl).elim
    next rest _ => exact (hother rest rfl).elim
    next => exact readGroups_bind (parseGroups 8 [] none body) z

theorem bodyGroups_of_head {t : List Char} (hc : isHex c = true) :
    bodyGroups (c :: t) = (parseGroups 8 [] none (c :: t)).bind readGroups := by
  unfold bodyGroups
  split
  next h =>
    rw [(cons.inj h).1] at hc
    exact absurd hc (by decide)
  next h =>
    rw [(cons.inj h).1] at hc
    exact absurd hc (by decide)
  next => rfl

theorem bodyGroups_text6 : bodyGroups (text6 b).toList = some (groups6 b) := by
  have hlength := length_groups6 b
  have hlt := groups6_lt b
  have hexpand := expand_zeroRun (groups6 b)
  rw [toList_text6]
  generalize groups6 b = gs at *
  generalize zeroRun gs = run at *
  obtain ⟨start, len⟩ := run
  split
  next hlen =>
    obtain ⟨n, l, rfl⟩ := exists_cons_of_ne_nil (length_pos_iff.mp (by omega : 0 < gs.length))
    obtain ⟨c, t, ht, hc⟩ := joinHex_head n l
    have hparse := parseGroups_joinHex hlt (by simp) 8 (by omega) [] none
    rw [ht,bodyGroups_of_head hc,← ht,hparse]
    simp [readGroups,expandGroups,hlength]
  next hlen =>
    have hleft : ∀ n ∈ gs.take start, n < 65536 := fun n hn => hlt n (mem_of_mem_take hn)
    have hright : ∀ n ∈ gs.drop (start + len), n < 65536 := fun n hn => hlt n (mem_of_mem_drop hn)
    generalize gs.take start = left at *
    generalize gs.drop (start + len) = right at *
    have hsum : left.length + len + right.length = 8 := by
      rw [← hlength,← hexpand]
      simp [Nat.add_assoc]
    cases left with
    | nil =>
      cases right with
      | nil =>
        have hlen8 : len = 8 := by simpa using hsum
        subst hlen8
        simpa [joinHex,bodyGroups] using hexpand
      | cons m right =>
        obtain ⟨c, t, ht, hc⟩ := joinHex_head m right
        have hparse := parseGroups_joinHex hright (by simp) 8 (by omega) [] (some 0)
        have hbody : bodyGroups (joinHex [] ++ ':' :: ':' :: joinHex (m :: right)) =
            (parseGroups 8 [] (some 0) (joinHex (m :: right))).bind readGroups := by
          rw [ht]
          rfl
        have hzeros : 8 - (m :: right).length = len := by simp at hsum ⊢; omega
        have hfew : (m :: right).length < 8 := by simp at hsum ⊢; omega
        rw [hbody,hparse]
        simp only [Option.bind_some,readGroups,expandGroups,isEmpty_nil,if_true,nil_append,hfew,hzeros,
          take_zero,drop_zero]
        exact congrArg some hexpand
    | cons n left =>
      obtain ⟨c, t, ht, hc⟩ := joinHex_head n left
      have hparse := parseGroups_joinHex_ellipsis hleft (by simp) hright 8 (by omega) []
      have hzeros : 8 - (n :: left ++ right).length = len := by simp at hsum ⊢; omega
      have hfew : (n :: left ++ right).length < 8 := by simp at hsum ⊢; omega
      rw [ht,cons_append,bodyGroups_of_head hc,← cons_append,← ht,hparse]
      simp only [Option.bind_some,readGroups,expandGroups,isEmpty_nil,if_true,nil_append,hfew,hzeros,
        take_left,drop_left]
      exact congrArg some hexpand

theorem text_v6 (hmapped : ¬ (b >>> 32 == 0xffff#128) = true) (z : String) :
    (text (v6 b z)).toList = (text6 b).toList ++ zoneText z := by
  simp only [text,zoneText]
  split
  · simp
  · rw [String.toList_append,String.toList_append,append_assoc]
    rfl

theorem parse_text6 (hmapped : ¬ (b >>> 32 == 0xffff#128) = true) (z : String) :
    parse (text (v6 b z)) = some (v6 b z) := by
  have hplain : ∀ c ∈ (text6 b).toList, c ≠ '%' ∧ c ≠ '.' := by
    intro c hc
    rcases mem_toList_text6 b hc with rfl | hhex
    · decide
    constructor
    · rintro rfl
      exact absurd hhex (by decide)
    · rintro rfl
      exact absurd hhex (by decide)
  have hfirst : (text (v6 b z)).toList.find? (fun c => c = '.' || c = ':' || c = '%') = some ':' := by
    have hbody : (text6 b).toList.find? (fun c => c = '.' || c = ':' || c = '%') = some ':' := by
      cases hf : (text6 b).toList.find? (fun c => c = '.' || c = ':' || c = '%') with
      | none =>
        have := find?_eq_none.mp hf ':' (mem_text6 b)
        simp at this
      | some c =>
        have hc := find?_some hf
        obtain ⟨hzone, hdot⟩ := hplain c (mem_of_find?_eq_some hf)
        simp only [hzone,hdot,decide_false,Bool.or_false,Bool.false_or,decide_eq_true_eq] at hc
        rw [hc]
    rw [text_v6 b hmapped,find?_append,hbody]
    rfl
  unfold parse
  rw [hfirst]
  simp only [text_v6 b hmapped,parseIPv6_zoneText (fun c hc => (hplain c hc).1) z,bodyGroups_text6,Option.map_some,
    ofDigits_groups6,BitVec.ofNat_toNat,BitVec.setWidth_eq]

end Text6

theorem parse_text {a : Addr} (h : a.unmap = a) : parse a.text = some a := by
  cases a with
  | v4 b => exact parse_text4 b
  | v6 b z =>
    apply parse_text6
    intro hmapped
    rw [unmap,if_pos hmapped] at h
    exact Addr.noConfusion h

theorem isSpace_of_isHex (h : isHex c = true) : isSpace c = false := by
  have hrange : 48 ≤ c.toNat ∧ c.toNat ≤ 57 ∨ 97 ≤ c.toNat ∧ c.toNat ≤ 102 ∨ 65 ≤ c.toNat ∧ c.toNat ≤ 70 := by
    by_contra hnot
    have hd : ¬ (48 ≤ c.toNat ∧ c.toNat ≤ 57) := fun hc => hnot (.inl hc)
    have hl : ¬ (97 ≤ c.toNat ∧ c.toNat ≤ 102) := fun hc => hnot (.inr (.inl hc))
    have hu : ¬ (65 ≤ c.toNat ∧ c.toNat ≤ 70) := fun hc => hnot (.inr (.inr hc))
    simp [isHex,Float64.hexValue?,digitValue?,hd,hl,hu] at h
  simp only [isSpace,Bool.or_eq_false_iff,Bool.and_eq_false_imp,decide_eq_true_eq,decide_eq_false_iff_not,
    beq_eq_false_iff_ne]
  omega

theorem isSpace_text4 (b : BitVec 32) : ∀ c ∈ (text4 b).toList, isSpace c = false := by
  have hlt := octets_lt b
  intro c hc
  simp only [toList_text4,mem_append,mem_cons] at hc
  rcases hc with hc | rfl | hc | rfl | hc | rfl | hc
  all_goals first | rfl | exact (digits_of_octet (hlt _ (by simp [octets])) c hc).2.2.2

theorem isSpace_text6 (b : BitVec 128) : ∀ c ∈ (text6 b).toList, isSpace c = false := by
  intro c hc
  rcases mem_toList_text6 b hc with rfl | hhex
  · rfl
  · exact isSpace_of_isHex hhex

theorem zone_suffix {s : String} {b : BitVec 128} {z : String} (h : parse s = some (v6 b z)) :
    z.toList <:+ s.toList := by
  have hread : ∀ (ellipsis : Option ℕ) (rest zone : List Char),
      (if (ellipsis.isSome && rest.isEmpty) = true then some (v6 0 (String.ofList zone))
        else (parseGroups 8 [] ellipsis rest).bind fun r => if ¬ r.2.2.isEmpty = true then none
          else (expandGroups r.1 r.2.1).bind fun gs =>
            some (v6 (BitVec.ofNat 128 (ofDigits 65536 gs)) (String.ofList zone))) = some (v6 b z) →
      z.toList = zone := by
    intro ellipsis rest zone hz
    split at hz
    · simp only [Option.some.injEq,v6.injEq] at hz
      rw [← hz.2,String.toList_ofList]
    rw [readGroups_bind,Option.map_eq_some_iff] at hz
    obtain ⟨gs, -, hgs⟩ := hz
    rw [← (v6.inj hgs).2,String.toList_ofList]
  have hIPv6 : ∀ l : List Char, parseIPv6 l = some (v6 b z) → z.toList <:+ l := by
    intro l hl
    have hzone : z.toList = l.drop ((l.takeWhile (· ≠ '%')).length + 1) := by
      unfold parseIPv6 at hl
      simp only at hl
      split at hl
      · exact absurd hl (by simp)
      split at hl
      · exact hread _ _ _ hl
      · exact hread _ _ _ hl
    rw [hzone]
    exact drop_suffix _ _
  unfold parse at h
  split at h
  · cases hoctets : octets? s.toList with
    | none => simp [hoctets] at h
    | some l => simp [hoctets] at h
  · exact hIPv6 _ h
  · exact absurd h (by simp)

theorem trimSpace_text {s : String} (hs : trimSpace s = s) {a : Addr} (h : parse s = some a) :
    trimSpace a.unmap.text = a.unmap.text := by
  have hplain : ∀ t : String, (∀ c ∈ t.toList, isSpace c = false) → trimSpace t = t := by
    intro t ht
    rw [trimSpace_eq_self_iff,trimList_eq_self_iff]
    exact ⟨fun c hc => ht c (mem_of_mem_head? hc),fun c hc => ht c (mem_of_mem_getLast? hc)⟩
  cases a with
  | v4 b => exact hplain _ (isSpace_text4 b)
  | v6 b z =>
    by_cases hmapped : (b >>> 32 == 0xffff#128) = true
    · rw [unmap,if_pos hmapped]
      exact hplain _ (isSpace_text4 _)
    rw [unmap,if_neg hmapped,trimSpace_eq_self_iff,text_v6 b hmapped,trimList_eq_self_iff]
    have hbody := isSpace_text6 b
    obtain ⟨c, t, ht⟩ := exists_cons_of_ne_nil (ne_nil_of_mem (mem_text6 b))
    refine ⟨?_,?_⟩
    · rw [ht]
      rintro d ⟨⟩
      exact hbody c (by rw [ht]; exact mem_cons_self)
    unfold zoneText
    split
    · rw [append_nil]
      exact fun d hd => hbody d (mem_of_mem_getLast? hd)
    next hz =>
      -- the last character of the zone is the last one of the text that was read
      obtain ⟨l, hl⟩ := zone_suffix h
      have hlast := (trimList_eq_self_iff.mp (trimSpace_eq_self_iff.mp hs)).2
      have hne : z.toList ≠ [] := fun hnil => hz (String.toList_inj.mp hnil)
      rw [← hl,getLast?_append_of_ne_nil _ hne] at hlast
      rw [getLast?_append_of_ne_nil _ (cons_ne_nil _ _)]
      obtain ⟨e, zs, hzs⟩ := exists_cons_of_ne_nil hne
      rw [hzs] at hlast ⊢
      rwa [getLast?_cons_cons]

end DsseCore.Go.Addr
