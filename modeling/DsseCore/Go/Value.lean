import DsseCore.Go.Float64

/-!
# Maps and dynamic values

`Map` is Go's `map[string]T`: equality is equality of lookups, and iteration is in key order (the sources that
depend on an order sort the keys first).  `Value` is what an `any` can hold once a document has been decoded
from JSON or built by the repository's own literals.
-/

namespace DsseCore.Go

open List

open Std (ExtTreeMap)

abbrev Map (α : Type) := ExtTreeMap String α compare

namespace Map

variable {α : Type} {l : List (String × α)}

/-- The map a composite literal denotes; keys of a literal are distinct. -/
def ofEntries (l : List (String × α)) : Map α := l.foldl (fun m e => m.insert e.1 e.2) ∅

/-- Insert under a condition, as in `if c { m[k] = v }`. -/
def insertIf (m : Map α) (c : Bool) (k : String) (v : α) : Map α := if c then m.insert k v else m

theorem getElem?_insert_eq (m : Map α) (k a : String) (v : α) :
    (m.insert k v)[a]? = if k = a then some v else m[a]? := by
  rw [ExtTreeMap.getElem?_insert]
  simp only [Std.compare_eq_iff_eq]

theorem getElem?_erase_eq (m : Map α) (k a : String) :
    (m.erase k)[a]? = if k = a then none else m[a]? := by
  rw [ExtTreeMap.getElem?_erase]
  simp only [Std.compare_eq_iff_eq]

theorem getElem?_foldl_insert (hl : (l.map Prod.fst).Nodup) (m : Map α) (k : String) (v : α) :
    (l.foldl (fun m e => m.insert e.1 e.2) m)[k]? = some v ↔
      (k,v) ∈ l ∨ (k ∉ l.map Prod.fst ∧ m[k]? = some v) := by
  induction l generalizing m with
  | nil => simp
  | cons e l ih =>
    obtain ⟨k', v'⟩ := e
    rw [map_cons,nodup_cons] at hl
    rw [foldl_cons,ih hl.2,getElem?_insert_eq]
    by_cases hk : k' = k
    · subst hk
      have hmem : (k',v) ∉ l := fun hm => hl.1 (mem_map.mpr ⟨_,hm,rfl⟩)
      simp [hmem,hl.1,eq_comm]
    · have hk' : ¬ k = k' := fun h => hk h.symm
      simp [hk,hk']

theorem getElem?_ofEntries (hl : (l.map Prod.fst).Nodup) {k : String} {v : α} :
    (ofEntries l)[k]? = some v ↔ (k,v) ∈ l := by
  simp [ofEntries,getElem?_foldl_insert hl]

variable {β M γ : Type} {P : M → Prop}

/-- A fact that one element of a list brings about and the others keep. -/
theorem foldl_of_mem {Q : M → Prop} {step : M → γ → M} {l : List γ} {c : γ} (hc : c ∈ l) {m : M} (h : P m)
    (hP : ∀ m, P m → ∀ a ∈ l, P (step m a)) (hQ : ∀ m, P m → Q m → ∀ a ∈ l, Q (step m a))
    (hdone : ∀ m, P m → Q (step m c)) : Q (l.foldl step m) := by
  obtain ⟨xs, ys, rfl⟩ := append_of_mem hc
  have hbefore : P (xs.foldl step m) := foldlRecOn xs step h fun m hm a ha => hP m hm a (mem_append_left _ ha)
  have hmem : ∀ a ∈ ys, a ∈ xs ++ c :: ys := fun a ha => mem_append_right _ (mem_cons_of_mem _ ha)
  rw [foldl_append]
  refine (foldlRecOn (motive := fun m => P m ∧ Q m) ys step ⟨hP _ hbefore c hc,hdone _ hbefore⟩ ?_).2
  exact fun m hm a ha => ⟨hP m hm.1 a (hmem a ha),hQ m hm.1 hm.2 a (hmem a ha)⟩

theorem foldl_entries_obs (obs : M → String → γ) (step : M → String × β → M) (upd : String → β → γ → γ)
    {l : List (String × β)} (hl : (l.map Prod.fst).Nodup)
    (hstep : ∀ m, ∀ e ∈ l, ∀ k, obs (step m e) k = if e.1 = k then upd k e.2 (obs m k) else obs m k) (m : M)
    (k : String) :
    (∀ b, (k,b) ∈ l → obs (l.foldl step m) k = upd k b (obs m k)) ∧
      (k ∉ l.map Prod.fst → obs (l.foldl step m) k = obs m k) := by
  induction l generalizing m with
  | nil => simp
  | cons e l ih =>
    rw [map_cons,nodup_cons] at hl
    obtain ⟨hin, hout⟩ := ih hl.2 (fun m e he => hstep m e (mem_cons_of_mem _ he)) (step m e)
    have he := hstep m e mem_cons_self k
    rw [foldl_cons,map_cons]
    refine ⟨fun b hb => ?_,fun hk => ?_⟩
    · rcases mem_cons.mp hb with rfl | hb
      · rw [hout hl.1,he,if_pos rfl]
      · have hne : e.1 ≠ k := fun h => hl.1 (h ▸ mem_map.mpr ⟨_,hb,rfl⟩)
        rw [hin b hb,he,if_neg hne]
    · rw [mem_cons,not_or] at hk
      rw [hout hk.2,he,if_neg (Ne.symm hk.1)]

theorem foldl_toList_inv {step : M → String × β → M} (entries : Map β) {m : M} (h : P m)
    (hstep : ∀ m, P m → ∀ k b, entries[k]? = some b → P (step m (k,b))) : P (entries.toList.foldl step m) :=
  foldlRecOn _ _ h fun m hm e he => hstep m hm e.1 e.2 (ExtTreeMap.mem_toList_iff_getElem?_eq_some.mp he)

theorem nodup_toList_keys (m : Map β) : (m.toList.map Prod.fst).Nodup := by
  rw [ExtTreeMap.map_fst_toList_eq_keys]
  exact ExtTreeMap.nodup_keys

@[simp] theorem ofEntries_toList (m : Map β) : ofEntries m.toList = m := by
  refine ExtTreeMap.ext_getElem? fun k => Option.ext fun v => ?_
  rw [getElem?_ofEntries m.nodup_toList_keys,ExtTreeMap.mem_toList_iff_getElem?_eq_some]

theorem flatMap_toList_of_key (m : Map β) (k : String) (g : String × β → List γ)
    (h : ∀ a b, m[a]? = some b → a ≠ k → g (a,b) = []) :
    m.toList.flatMap g = (m[k]?.map fun b => g (k,b)).getD [] := by
  cases hm : m[k]? with
  | none =>
    refine flatMap_eq_nil_iff.mpr fun e he => ?_
    have hget := ExtTreeMap.mem_toList_iff_getElem?_eq_some.mp he
    exact h _ _ hget fun hk => by simp [← hk,hget] at hm
  | some b =>
    obtain ⟨l, r, hl⟩ := append_of_mem (ExtTreeMap.mem_toList_iff_getElem?_eq_some.mpr hm)
    have hnodup := m.nodup_toList_keys
    rw [hl,map_append,map_cons,nodup_middle,nodup_cons,mem_append,not_or] at hnodup
    have hnil : ∀ l' : List (String × β), (∀ e ∈ l', e ∈ m.toList) → k ∉ l'.map Prod.fst → l'.flatMap g = [] := by
      refine fun l' hsub hk => flatMap_eq_nil_iff.mpr fun e he => ?_
      exact h _ _ (ExtTreeMap.mem_toList_iff_getElem?_eq_some.mp (hsub e he))
        fun hek => hk (mem_map.mpr ⟨e,he,hek⟩)
    have hleft := hnil l (fun e he => hl ▸ mem_append_left _ he) hnodup.1.1
    have hright := hnil r (fun e he => hl ▸ mem_append_right _ (mem_cons_of_mem _ he)) hnodup.1.2
    rw [hl,flatMap_append,flatMap_cons,hleft,hright]
    simp

theorem foldl_toList_obs (obs : M → String → γ) (step : M → String × β → M) (upd : String → β → γ → γ)
    (entries : Map β)
    (hstep : ∀ m a b, entries[a]? = some b → ∀ k,
      obs (step m (a,b)) k = if a = k then upd k b (obs m k) else obs m k) (m : M) (k : String) :
    obs (entries.toList.foldl step m) k = entries[k]?.elim (obs m k) fun b => upd k b (obs m k) := by
  obtain ⟨hin, hout⟩ := foldl_entries_obs obs step upd entries.nodup_toList_keys
    (fun m e he => hstep m e.1 e.2 (ExtTreeMap.mem_toList_iff_getElem?_eq_some.mp he)) m k
  cases h : entries[k]? with
  | none =>
    rw [hout]
    · rfl
    rintro hk
    obtain ⟨⟨k', b⟩, hb, rfl⟩ := mem_map.mp hk
    rw [ExtTreeMap.mem_toList_iff_getElem?_eq_some.mp hb] at h
    cases h
  | some b => exact hin b (ExtTreeMap.mem_toList_iff_getElem?_eq_some.mpr h)

end Map

/-- The dynamic type behind `any`. -/
inductive Value where
  | null
  | bool (b : Bool)
  | int (n : Int)
  | float (f : Float64)
  | str (s : String)
  | strs (l : List String)
  | list (l : List Value)
  | map (fields : List (String × Value))

namespace Value

/-- `m[key]` on a dynamic map; a missing key reads as `nil`. -/
def field (fields : List (String × Value)) (key : String) : Value := (fields.lookup key).getD null

mutual

/-- `fmt.Sprint`. -/
def sprint : Value → String
  | null => "<nil>"
  | bool b => formatBool b
  | int n => itoa n
  | float f => f.format
  | str s => s
  | strs l => "[" ++ join " " l ++ "]"
  | list l => "[" ++ join " " (sprintList l) ++ "]"
  | map fields => "map[" ++ join " " (sprintFields fields) ++ "]"

def sprintList : List Value → List String
  | [] => []
  | v :: l => sprint v :: sprintList l

/-- The fields stand in key order, as `fmt` prints them. -/
def sprintFields : List (String × Value) → List String
  | [] => []
  | (k,v) :: l => (k ++ ":" ++ sprint v) :: sprintFields l

end

mutual

/-- `json.Marshal` refuses numbers that are not finite. -/
def encodable : Value → Bool
  | float .nan => false
  | float (.inf _) => false
  | list l => encodableList l
  | map fields => encodableFields fields
  | _ => true

def encodableList : List Value → Bool
  | [] => true
  | v :: l => encodable v && encodableList l

def encodableFields : List (String × Value) → Bool
  | [] => true
  | (_,v) :: l => encodable v && encodableFields l

end

mutual

/-- What is read back after writing as JSON: every number is a double and every array holds dynamic values. -/
def reencode : Value → Value
  | int n => float (Float64.ofInt n)
  | strs l => list (l.map str)
  | list l => list (reencodeList l)
  | map fields => map (reencodeFields fields)
  | v => v

def reencodeList : List Value → List Value
  | [] => []
  | v :: l => reencode v :: reencodeList l

def reencodeFields : List (String × Value) → List (String × Value)
  | [] => []
  | (k,v) :: l => (k,reencode v) :: reencodeFields l

end

mutual

def beq : Value → Value → Bool
  | null, null => true
  | bool a, bool b => a == b
  | int a, int b => a == b
  | float a, float b => a == b
  | str a, str b => a == b
  | strs a, strs b => a == b
  | list a, list b => beqList a b
  | map a, map b => beqFields a b
  | _, _ => false

def beqList : List Value → List Value → Bool
  | [], [] => true
  | a :: l, b :: m => beq a b && beqList l m
  | _, _ => false

def beqFields : List (String × Value) → List (String × Value) → Bool
  | [], [] => true
  | (j,a) :: l, (k,b) :: m => j == k && beq a b && beqFields l m
  | _, _ => false

end

mutual

theorem beq_iff (a b : Value) : beq a b = true ↔ a = b := by
  cases a <;> cases b <;> simp [beq,beqList_iff,beqFields_iff]

theorem beqList_iff (l m : List Value) : beqList l m = true ↔ l = m := by
  cases l <;> cases m <;> simp [beqList,beq_iff,beqList_iff]

theorem beqFields_iff (l m : List (String × Value)) : beqFields l m = true ↔ l = m := by
  match l, m with
  | [], [] => simp [beqFields]
  | [], _ :: _ => simp [beqFields]
  | _ :: _, [] => simp [beqFields]
  | (j,a) :: l, (k,b) :: m => simp [beqFields,beq_iff,beqFields_iff]

end

instance : DecidableEq Value := fun a b => decidable_of_iff (beq a b = true) (beq_iff a b)

end Value
end DsseCore.Go
