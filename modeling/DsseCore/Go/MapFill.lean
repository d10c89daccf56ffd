import DsseCore.Go.Value

/-!
# Loops that fill a map

A loop over a map that computes one value for each key and gives up at the first failure.
-/

namespace DsseCore.Go.Map

open List

open Std (ExtTreeMap)

variable {β γ ε : Type}

def fillList (f : String → β → Except ε γ) : List (String × β) → Map γ → Except ε (Map γ)
  | [], out => .ok out
  | (k,b) :: l, out =>
    match f k b with
    | .ok c => fillList f l (out.insert k c)
    | .error e => .error e

/-- `for k, b := range m { c, err := f(k, b); if err != nil { return err }; out[k] = c }`. -/
def fill (f : String → β → Except ε γ) (m : Map β) (out : Map γ) : Except ε (Map γ) := fillList f m.toList out

variable {f : String → β → Except ε γ}

theorem fillList_ok {l : List (String × β)} (hl : (l.map Prod.fst).Nodup) {init out : Map γ} :
    fillList f l init = .ok out ↔
      (∀ k b, (k,b) ∈ l → ∃ c, f k b = .ok c ∧ out[k]? = some c) ∧
        ∀ k, k ∉ l.map Prod.fst → out[k]? = init[k]? := by
  induction l generalizing init with
  | nil =>
    simp only [fillList,Except.ok.injEq]
    refine ⟨fun h => ⟨by simp,fun k _ => by rw [h]⟩,fun h => ExtTreeMap.ext_getElem? fun k => ?_⟩
    exact (h.2 k (by simp)).symm
  | cons e l ih =>
    obtain ⟨k₀, b₀⟩ := e
    rw [map_cons,nodup_cons] at hl
    unfold fillList
    cases hf : f k₀ b₀ with
    | error e =>
      refine ⟨nofun,fun h => ?_⟩
      obtain ⟨c, hc, -⟩ := h.1 k₀ b₀ mem_cons_self
      rw [hf] at hc
      cases hc
    | ok c₀ =>
      rw [ih hl.2]
      constructor
      · rintro ⟨hin, hout⟩
        refine ⟨fun k b hb => ?_,fun k hk => ?_⟩
        · rcases mem_cons.mp hb with he | hb
          · obtain ⟨rfl, rfl⟩ := Prod.mk.inj he
            refine ⟨c₀,hf,?_⟩
            rw [hout k hl.1,getElem?_insert_eq,if_pos rfl]
          · exact hin k b hb
        · rw [map_cons,mem_cons,not_or] at hk
          rw [hout k hk.2,getElem?_insert_eq,if_neg (Ne.symm hk.1)]
      · rintro ⟨hin, hout⟩
        refine ⟨fun k b hb => hin k b (mem_cons_of_mem _ hb),fun k hk => ?_⟩
        rw [getElem?_insert_eq]
        split
        · next he =>
          obtain ⟨c, hc, hget⟩ := hin k₀ b₀ mem_cons_self
          rw [hf] at hc
          rw [← he,hget,Except.ok.inj hc]
        · next he =>
          refine hout k ?_
          rw [map_cons,mem_cons,not_or]
          exact ⟨Ne.symm he,hk⟩

theorem fill_ok {m : Map β} {init out : Map γ} : fill f m init = .ok out ↔
    (∀ (k : String) b, m[k]? = some b → ∃ c, f k b = .ok c ∧ out[k]? = some c) ∧
      ∀ k : String, m[k]? = none → out[k]? = init[k]? := by
  rw [fill,fillList_ok m.nodup_toList_keys]
  simp only [ExtTreeMap.mem_toList_iff_getElem?_eq_some]
  refine and_congr_right fun _ => forall_congr' fun k => ?_
  refine imp_congr_left ?_
  simp

variable {nk : String → String} {nv : β → γ}

/-- `out` holds the entries of `m` under their normalised keys, and nothing else; entries without a name are dropped.
Which of two entries with one normalised key stays is left open. -/
structure Renames (nk : String → String) (nv : β → γ) (m : Map β) (out : Map γ) : Prop where
  sound : ∀ (k : String) c, out[k]? = some c → k ≠ "" ∧ ∃ (a : String) (b : β), m[a]? = some b ∧ nk a = k ∧ nv b = c
  complete : ∀ (a : String) b, m[a]? = some b → nk a ≠ "" → (out[nk a]?).isSome

def renameStep (nk : String → String) (nv : β → γ) (out : Map γ) (e : String × β) : Map γ :=
  if nk e.1 ≠ "" then out.insert (nk e.1) (nv e.2) else out

theorem renameStep_isSome {out : Map γ} {k : String} (h : (out[k]?).isSome) (e : String × β) :
    ((renameStep nk nv out e)[k]?).isSome := by
  unfold renameStep
  split
  · rw [getElem?_insert_eq]
    split
    · rfl
    · exact h
  · exact h

theorem foldl_renameStep (l : List (String × β)) (init : Map γ) :
    (∀ (k : String) c, (l.foldl (renameStep nk nv) init)[k]? = some c →
        init[k]? = some c ∨ k ≠ "" ∧ ∃ e ∈ l, nk e.1 = k ∧ nv e.2 = c) ∧
      ∀ k : String, (init[k]?).isSome ∨ (∃ e ∈ l, nk e.1 = k ∧ k ≠ "") →
        ((l.foldl (renameStep nk nv) init)[k]?).isSome := by
  induction l generalizing init with
  | nil => exact ⟨fun k c h => .inl h,fun k h => by simpa using h⟩
  | cons e l ih =>
    obtain ⟨hsound, hcomplete⟩ := ih (renameStep nk nv init e)
    refine ⟨fun k c h => ?_,fun k h => hcomplete k ?_⟩
    · rcases hsound k c h with h | ⟨hk, e', he', h⟩
      · unfold renameStep at h
        split at h
        · next hne =>
          rw [getElem?_insert_eq] at h
          split at h
          · next heq => exact .inr ⟨heq ▸ hne,e,mem_cons_self,heq,Option.some.inj h⟩
          · exact .inl h
        · exact .inl h
      · exact .inr ⟨hk,e',mem_cons_of_mem _ he',h⟩
    · rcases h with h | ⟨e', he', heq, hk⟩
      · exact .inl (renameStep_isSome h e)
      rcases mem_cons.mp he' with rfl | he'
      · left
        unfold renameStep
        rw [if_pos (heq ▸ hk),getElem?_insert_eq,if_pos heq]
        rfl
      · exact .inr ⟨e',he',heq,hk⟩

theorem renames_foldl (m : Map β) : Renames nk nv m (m.toList.foldl (renameStep nk nv) ∅) := by
  obtain ⟨hsound, hcomplete⟩ := @foldl_renameStep _ _ nk nv m.toList (∅ : Map γ)
  refine ⟨fun k c h => ?_,fun a b h hk => ?_⟩
  · rcases hsound k c h with h | ⟨hk, e, he, hname, hvalue⟩
    · simp at h
    · exact ⟨hk,e.1,e.2,ExtTreeMap.mem_toList_iff_getElem?_eq_some.mp he,hname,hvalue⟩
  · exact hcomplete _ (.inr ⟨(a,b),ExtTreeMap.mem_toList_iff_getElem?_eq_some.mpr h,rfl,hk⟩)

end DsseCore.Go.Map
