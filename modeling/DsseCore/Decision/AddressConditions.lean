import DsseCore.Decision.Conditions
import DsseCore.Go.NetipText

/-!
# Host conditions that are written as addresses

A flow to a bare address has no host name.  Its destination is held against the value of an `fqdn` or `sni` condition by
text, by canonical text and, outside an operator, by prefix.
-/

namespace DsseCore.Decision

open Go Model Value Addr

variable {x : Addr} {d : String}

/-- The ways to author a list of texts: as a plain value, as a list, or under an `eq` or `in` operator. -/
inductive Authored : Value → Bool → List String → Prop
  | plain (s : String) : Authored (.str s) false [s]
  | list (l : List String) : Authored (.list (l.map str)) false l
  | eq {typed : List (String × Value)} {s : String} (hop : field typed "op" = .str "eq")
      (hvalue : field typed "value" = .str s) : Authored (.map typed) true [s]
  | in_ {typed : List (String × Value)} {l : List String} (hop : field typed "op" = .str "in")
      (hvalues : field typed "values" = .list (l.map str)) : Authored (.map typed) true l

variable {expected : Value} {operator : Bool} {items : List String}

theorem conditionMatches_authored (h : Authored expected operator items) {actual : List String} (hactual : actual ≠ []) :
    conditionMatches actual expected = true ↔ ∃ s ∈ actual, s ∈ items := by
  unfold conditionMatches
  rw [if_neg hactual]
  cases h with
  | plain s => simp [anyActualEquals,sprint]
  | list l => simp [anyActualInExpectedValues,sprint,and_comm]
  | eq hop hvalue => simp [hop,hvalue,sprint,anyActualEquals]
  | in_ hop hvalues => simp [hop,hvalues,sprint,anyActualInExpectedValues,and_comm]

theorem parse_map_none (t : List Char) : parse (String.ofList ('m' :: t)) = none := by
  have hoctets : octets? ('m' :: t) = none := by
    obtain ⟨w, ws, hw⟩ := List.exists_cons_of_ne_nil (splitList_ne_nil '.' t)
    have hdigits : ∀ l : List Char,
        l.foldl (fun acc c => acc.bind fun n => (digitValue? c).map (10 * n + ·)) (none : Option ℕ) = none := by
      intro l
      induction l with
      | nil => rfl
      | cons c l ih => exact ih
    have hm : octet? ('m' :: w) = none := by
      have hdecimal : decimal? ('m' :: w) = none := hdigits w
      simp [octet?,hdecimal]
    unfold octets?
    rw [splitList_cons_of_ne (by decide) hw]
    simp [hm]
  have hgroups : parseIPv6 ('m' :: t) = none := by
    have hm : ∀ l, parseGroups 8 [] none ('m' :: l) = none := by
      intro l
      rw [parseGroups]
      have hhex : ('m' :: l).takeWhile isHex = [] := List.takeWhile_cons_of_neg (by decide)
      simp [hhex]
    unfold parseIPv6
    simp [hm]
  unfold parse
  rw [String.toList_ofList]
  split
  · rw [hoctets]
    rfl
  · exact hgroups
  · rfl

theorem prefix_map_none (typed : List (String × Value)) : Prefix.parse (map typed).sprint = none := by
  obtain ⟨t, ht⟩ : ∃ t, (map typed).sprint.toList = 'm' :: t := by
    refine ⟨"ap[".toList ++ (join " " (sprintFields typed)).toList ++ "]".toList,?_⟩
    simp [sprint]
  have hnone : ∀ k, parse (String.ofList (('m' :: t).take k)) = none := by
    intro k
    cases k with
    | zero => rfl
    | succ k => exact parse_map_none (t.take k)
  unfold Prefix.parse
  rw [ht]
  simp [hnone]

theorem anyActualCIDRContains_authored (h : Authored expected operator items) (d : String) :
    anyActualCIDRContains [d] expected = true ↔ operator = false ∧ ∃ s ∈ items, cidrContains s d = true := by
  unfold anyActualCIDRContains
  cases h with
  | plain s => simp [conditionValues,sprint]
  | list l => simp [conditionValues,sprint]
  | eq hop hvalue => simp [conditionValues,cidrContains,prefix_map_none]
  | in_ hop hvalues => simp [conditionValues,cidrContains,prefix_map_none]

/-- The addresses a list of texts denotes, IPv4-mapped ones as their IPv4 address. -/
def Denoted (items : List String) : Set Addr :=
  {x | ∃ s ∈ items, (∃ a, parse s = some a ∧ a.unmap = x) ∨
    ∃ p y, Prefix.parse s = some p ∧ p.contains y = true ∧ y.unmap = x}

/-- The addresses that the texts name in the form the evaluator looks for: by their canonical text, or outside an operator
by a prefix of their own family. -/
def PlainlyDenoted (operator : Bool) (items : List String) : Set Addr :=
  {x | x.text ∈ items ∨ operator = false ∧ ∃ s ∈ items, ∃ p, Prefix.parse s = some p ∧ p.contains x = true}

/-- A destination text that spells the address `x`, in IPv4, in IPv4-mapped or in any IPv6 form. -/
def Spells (d : String) (x : Addr) : Prop := ∃ a, parse (trimSpace d) = some a ∧ a.unmap = x

structure BareFlow (req : DecisionRequest) (x : Addr) : Prop where
  fqdn : req.fqdn = ""
  sni : req.sni = ""
  destination : Spells req.destination x

/-- A condition that matches the flows to the addresses it denotes, however they are spelled. -/
structure AddressCondition (key : String) (expected : Value) (items : List String) : Prop where
  spelling : ∀ now actorType x req req', BareFlow req x → BareFlow req' x →
    matchCondition now req actorType key expected = matchCondition now req' actorType key expected
  meaning : ∀ now actorType x req, BareFlow req x →
    (matchCondition now req actorType key expected = true ↔ x ∈ Denoted items)

variable {key : String}

theorem matchCondition_bareFlow (hkey : key = "fqdn" ∨ key = "sni") {req : DecisionRequest} (h : BareFlow req x)
    (now : Time) (actorType : String) :
    matchCondition now req actorType key expected = ipLiteralConditionMatchesDestination req.destination expected := by
  have hactual : fieldValues now req actorType key = [] := by
    rcases hkey with rfl | rfl
    · have hvalues : fieldValues now req actorType "fqdn" = singleValue req.fqdn := rfl
      rw [hvalues,h.fqdn]
      rfl
    have hvalues : fieldValues now req actorType "sni" = singleValue req.sni := rfl
    rw [hvalues,h.sni]
    rfl
  have hhost : isHostnameConditionKey key = true := by
    rcases hkey with rfl | rfl <;> decide
  have hnames : hostnameConditionMatches [] expected = false := by
    unfold hostnameConditionMatches
    cases hostPatterns expected <;> rfl
  simp [matchCondition,hactual,hhost,hnames,conditionMatches]

theorem ipLiteral_iff (h : Authored expected operator items) {a : Addr} (ha : parse (trimSpace d) = some a) :
    ipLiteralConditionMatchesDestination d expected = true ↔
      (trimSpace d ∈ items ∨ a.unmap.text ∈ items) ∨
        operator = false ∧ ∃ s ∈ items, ∃ p, Prefix.parse s = some p ∧
          (p.contains a = true ∨ p.contains a.unmap = true) := by
  have hne : trimSpace d ≠ "" := by
    intro hempty
    have hnone : parse "" = none := rfl
    rw [hempty,hnone] at ha
    exact absurd ha (by simp)
  have hcidr : ∀ s, cidrContains s (trimSpace d) = true ↔
      ∃ p, Prefix.parse s = some p ∧ (p.contains a = true ∨ p.contains a.unmap = true) := by
    intro s
    unfold cidrContains
    rw [ha]
    cases Prefix.parse s with
    | none => simp
    | some p => simp
  unfold ipLiteralConditionMatchesDestination
  simp only [hne,if_false,ha,Bool.or_eq_true,conditionMatches_authored h (List.cons_ne_nil _ _),
    anyActualCIDRContains_authored h,hcidr]
  simp

theorem denoted_of_match (h : Authored expected operator items) (hd : Spells d x)
    (hmatch : ipLiteralConditionMatchesDestination d expected = true) : x ∈ Denoted items := by
  obtain ⟨a, ha, rfl⟩ := hd
  rcases (ipLiteral_iff h ha).mp hmatch with (hs | hs) | ⟨-, s, hs, p, hp, hc | hc⟩
  · exact ⟨_,hs,.inl ⟨a,ha,rfl⟩⟩
  · exact ⟨_,hs,.inl ⟨a.unmap,parse_text (unmap_unmap a),unmap_unmap a⟩⟩
  · exact ⟨s,hs,.inr ⟨p,a,hp,hc,rfl⟩⟩
  · exact ⟨s,hs,.inr ⟨p,a.unmap,hp,hc,unmap_unmap a⟩⟩

theorem match_of_plainly (h : Authored expected operator items) (hd : Spells d x)
    (hx : x ∈ PlainlyDenoted operator items) : ipLiteralConditionMatchesDestination d expected = true := by
  obtain ⟨a, ha, rfl⟩ := hd
  rw [ipLiteral_iff h ha]
  rcases hx with hs | ⟨hop, s, hs, p, hp, hc⟩
  · exact .inl (.inr hs)
  · exact .inr ⟨hop,s,hs,p,hp,.inr hc⟩

theorem trimSpace_text_of_spells (h : Spells d x) : trimSpace x.text = x.text := by
  obtain ⟨a, ha, rfl⟩ := h
  exact trimSpace_text (trimSpace_trimSpace d) ha

theorem parse_text_of_spells (h : Spells d x) : parse (trimSpace x.text) = some x := by
  rw [trimSpace_text_of_spells h]
  obtain ⟨a, -, rfl⟩ := h
  exact parse_text (unmap_unmap a)

theorem plainly_of_match (h : Authored expected operator items) (hx : Spells d x)
    (hmatch : ipLiteralConditionMatchesDestination x.text expected = true) : x ∈ PlainlyDenoted operator items := by
  have hunmapped : x.unmap = x := by
    obtain ⟨a, -, rfl⟩ := hx
    exact unmap_unmap a
  have hmeaning := (ipLiteral_iff h (parse_text_of_spells hx)).mp hmatch
  rw [trimSpace_text_of_spells hx,hunmapped] at hmeaning
  rcases hmeaning with (hs | hs) | ⟨hop, s, hs, p, hp, hc | hc⟩
  · exact .inl hs
  · exact .inl hs
  · exact .inr ⟨hop,s,hs,p,hp,hc⟩
  · exact .inr ⟨hop,s,hs,p,hp,hc⟩

/-- A host condition written as addresses means those addresses, whatever their spelling, exactly when every address it
denotes and a flow can be to is plainly denoted. -/
theorem address_condition_iff (hauthored : Authored expected operator items) (hkey : key = "fqdn" ∨ key = "sni") :
    AddressCondition key expected items ↔
      ∀ x ∈ Denoted items, (∃ d, Spells d x) → x ∈ PlainlyDenoted operator items := by
  constructor
  · rintro h x hx ⟨d, hd⟩
    have hflow : BareFlow { destination := x.text } x :=
      ⟨rfl,rfl,x,parse_text_of_spells hd,by obtain ⟨a, -, rfl⟩ := hd; exact unmap_unmap a⟩
    have hmatch := (h.meaning 0 "human" x _ hflow).mpr hx
    rw [matchCondition_bareFlow hkey hflow] at hmatch
    exact plainly_of_match hauthored hd hmatch
  · intro h
    have hmeaning : ∀ now actorType x req, BareFlow req x →
        (matchCondition now req actorType key expected = true ↔ x ∈ Denoted items) := by
      intro now actorType x req hflow
      rw [matchCondition_bareFlow hkey hflow]
      constructor
      · exact denoted_of_match hauthored hflow.destination
      · intro hx
        exact match_of_plainly hauthored hflow.destination (h x hx ⟨_,hflow.destination⟩)
    refine ⟨?_,hmeaning⟩
    intro now actorType x req req' hflow hflow'
    rw [Bool.eq_iff_iff,hmeaning now actorType x req hflow,hmeaning now actorType x req' hflow']

/-- An address in canonical text, under an operator. -/
theorem canonical_address_condition :
    Authored (.map [("op",.str "eq"),("value",.str "10.0.0.5")]) true ["10.0.0.5"] ∧
      AddressCondition "fqdn" (.map [("op",.str "eq"),("value",.str "10.0.0.5")]) ["10.0.0.5"] := by
  have hauthored : Authored (.map [("op",.str "eq"),("value",.str "10.0.0.5")]) true ["10.0.0.5"] := .eq rfl rfl
  refine ⟨hauthored,(address_condition_iff hauthored (.inl rfl)).mpr ?_⟩
  rintro x ⟨s, hs, hx⟩ -
  obtain rfl : s = "10.0.0.5" := by simpa using hs
  have haddr : parse "10.0.0.5" = some (.v4 0x0a000005#32) := by decide +kernel
  have hcidr : Prefix.parse "10.0.0.5" = none := by rfl
  rcases hx with ⟨a, ha, rfl⟩ | ⟨p, y, hp, -⟩
  · obtain rfl : v4 0x0a000005#32 = a := Option.some.inj (haddr.symm.trans ha)
    exact .inl (by decide +kernel)
  · rw [hcidr] at hp
    exact absurd hp (by simp)

/-- An address in capitals matches its own spelling only, a prefix under an operator matches nothing, and an IPv6 prefix
takes in the IPv4 addresses in one of their spellings. -/
theorem spelling_decides :
    (matchCondition 0 { destination := "2001:DB8::1" } "human" "fqdn" (.str "2001:DB8::1") = true ∧
      matchCondition 0 { destination := "2001:db8::1" } "human" "fqdn" (.str "2001:DB8::1") = false) ∧
    (matchCondition 0 { destination := "10.1.2.3" } "human" "fqdn" (.str "10.0.0.0/8") = true ∧
      matchCondition 0 { destination := "10.1.2.3" } "human" "fqdn"
        (.map [("op",.str "eq"),("value",.str "10.0.0.0/8")]) = false) ∧
    (matchCondition 0 { destination := "::ffff:10.1.2.3" } "human" "fqdn" (.str "::/0") = true ∧
      matchCondition 0 { destination := "10.1.2.3" } "human" "fqdn" (.str "::/0") = false) := by
  decide +kernel

end DsseCore.Decision
