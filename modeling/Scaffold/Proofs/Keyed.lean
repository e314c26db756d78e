import Mathlib.Data.List.Induction
import Mathlib.Data.List.Sort
import Mathlib.Data.String.Basic
import Scaffold.Entity.Registry

/-!
# Keyed lists and sorted texts

Setting a key of a keyed list adds at most that key and changes no other one.  Sorting depends only
on which texts there are, and how often.
-/

namespace Scaffold

namespace Keyed

variable {α : Type}

theorem get?_put (keyed : Keyed α) (key other : String) (value : α) :
    get? (put keyed key value) other = if key = other then some value else get? keyed other := by
  split_ifs with same
  · rw [same, get?_put_same]
  · exact get?_put_other same keyed value

theorem mem_keys_put {keyed : Keyed α} {key other : String} {value : α} :
    other ∈ keys (put keyed key value) ↔ other ∈ keys keyed ∨ other = key := by
  induction keyed with
  | nil => simp [put, keys]
  | cons pair rest hypothesis =>
      obtain ⟨name, old⟩ := pair
      rw [put]
      split_ifs with here
      · rw [beq_iff_eq] at here
        subst here
        simp only [keys, List.map_cons, List.mem_cons]
        tauto
      · simp only [keys, List.map_cons, List.mem_cons] at hypothesis ⊢
        tauto

theorem mem_of_mem_put
    {keyed : Keyed α} {key : String} {value : α} {pair : String × α}
    (member : pair ∈ put keyed key value) : pair = (key, value) ∨ pair ∈ keyed := by
  induction keyed with
  | nil => exact .inl (List.mem_singleton.mp member)
  | cons first rest hypothesis =>
      obtain ⟨name, old⟩ := first
      rw [put] at member
      split_ifs at member with same
      · rw [beq_iff_eq] at same
        rcases List.mem_cons.mp member with rfl | later
        · exact .inl (by rw [same])
        · exact .inr (List.mem_cons_of_mem _ later)
      · rcases List.mem_cons.mp member with rfl | later
        · exact .inr List.mem_cons_self
        · exact (hypothesis later).imp_right (List.mem_cons_of_mem _)

/-- A new key comes last. -/
theorem put_of_not_mem {keyed : Keyed α} {key : String} (fresh : key ∉ keys keyed) (value : α) :
    put keyed key value = keyed ++ [(key, value)] := by
  induction keyed with
  | nil => rfl
  | cons pair rest hypothesis =>
      obtain ⟨different, later⟩ : key ≠ pair.1 ∧ key ∉ keys rest := by
        simpa [keys] using fresh
      rw [put, if_neg (by simpa using Ne.symm different), hypothesis later, List.cons_append]

theorem keys_put_of_not_mem
    {keyed : Keyed α} {key : String} (fresh : key ∉ keys keyed) (value : α) :
    keys (put keyed key value) = keys keyed ++ [key] := by
  rw [put_of_not_mem fresh, keys, keys, List.map_append, List.map_singleton]

theorem nodup_keys_put
    {keyed : Keyed α} (nodup : (keys keyed).Nodup) (key : String) (value : α) :
    (keys (put keyed key value)).Nodup := by
  induction keyed with
  | nil => simp [put, keys]
  | cons pair rest hypothesis =>
      obtain ⟨name, old⟩ := pair
      have apart : name ∉ keys rest := (List.nodup_cons.mp nodup).1
      rw [put]
      split_ifs with here
      · exact nodup
      · rw [beq_iff_eq] at here
        refine List.nodup_cons.mpr ⟨?_, hypothesis (List.nodup_cons.mp nodup).2⟩
        exact fun member => (mem_keys_put.mp member).elim apart here

theorem get?_eq_none_iff {keyed : Keyed α} {key : String} :
    get? keyed key = none ↔ key ∉ keys keyed := by
  induction keyed with
  | nil => simp [get?, keys]
  | cons pair rest hypothesis =>
      rw [get?, keys, List.map_cons, List.mem_cons, not_or]
      split_ifs with here
      · rw [beq_iff_eq] at here
        simp [here]
      · rw [beq_iff_eq] at here
        exact hypothesis.trans ⟨fun absent => ⟨Ne.symm here, absent⟩, fun absent => absent.2⟩

theorem mem_of_get? {keyed : Keyed α} {key : String} {value : α}
    (found : get? keyed key = some value) : (key, value) ∈ keyed := by
  induction keyed with
  | nil => cases found
  | cons pair rest hypothesis =>
      rw [get?] at found
      split_ifs at found with here
      · rw [beq_iff_eq] at here
        rw [← here, ← Option.some.inj found]
        exact List.mem_cons_self
      · exact List.mem_cons_of_mem _ (hypothesis found)

theorem get?_eq_some_iff
    {keyed : Keyed α} (nodup : (keys keyed).Nodup) {key : String} {value : α} :
    get? keyed key = some value ↔ (key, value) ∈ keyed := by
  refine ⟨mem_of_get?, fun member => ?_⟩
  cases found : get? keyed key with
  | none => exact absurd (List.mem_map_of_mem member) (get?_eq_none_iff.mp found)
  | some other =>
      have same := List.inj_on_of_nodup_map nodup (mem_of_get? found) member rfl
      rw [(Prod.mk.inj same).2]

/-! ### Lists of pairs -/

theorem ofList_concat (pairs : List (String × α)) (pair : String × α) :
    ofList (pairs ++ [pair]) = put (ofList pairs) pair.1 pair.2 := by
  rw [ofList, ofList, List.foldl_concat]

theorem nodup_keys_ofList (pairs : List (String × α)) : (keys (ofList pairs)).Nodup := by
  induction pairs using List.reverseRecOn with
  | nil => exact List.nodup_nil
  | append_singleton pairs pair hypothesis =>
      rw [ofList_concat]
      exact nodup_keys_put hypothesis _ _

/-- Of the pairs with a key the last one stays. -/
theorem get?_ofList (pairs : List (String × α)) (key : String) :
    get? (ofList pairs) key = (pairs.reverse.find? (·.1 == key)).map (·.2) := by
  induction pairs using List.reverseRecOn with
  | nil => rfl
  | append_singleton pairs pair hypothesis =>
      rw [ofList_concat, get?_put, hypothesis, List.reverse_concat]
      by_cases same : pair.1 = key
      · simp [same]
      · rw [if_neg same, List.find?_cons_of_neg (by simpa using same)]

theorem mem_ofList_iff {pairs : List (String × α)} {key : String} {value : α} :
    (key, value) ∈ ofList pairs ↔
      (pairs.reverse.find? (·.1 == key)).map (·.2) = some value := by
  rw [← get?_eq_some_iff (nodup_keys_ofList pairs), get?_ofList]

end Keyed

@[simp]
theorem mem_distinct {α : Type} [BEq α] [LawfulBEq α] {values : List α} {value : α} :
    value ∈ distinct values ↔ value ∈ values := by
  have keeps (known rest : List α) :
      value ∈ distinct.go known rest ↔ value ∈ rest ∧ value ∉ known := by
    induction rest generalizing known with
    | nil => simp [distinct.go]
    | cons first rest hypothesis =>
        rw [distinct.go]
        split_ifs with old
        · rw [List.contains_iff_mem] at old
          rw [hypothesis, List.mem_cons]
          refine and_congr_left fun new => ⟨.inr, fun among => among.resolve_left ?_⟩
          rintro rfl
          exact new old
        · rw [List.contains_iff_mem] at old
          rw [List.mem_cons, List.mem_cons, hypothesis, List.mem_cons, not_or]
          by_cases here : value = first
          · simp [here, old]
          · simp [here]
  rw [distinct, keeps]
  simp

theorem distinct_sublist {α : Type} [BEq α] (values : List α) :
    (distinct values).Sublist values := by
  have keeps (known rest : List α) : (distinct.go known rest).Sublist rest := by
    induction rest generalizing known with
    | nil => exact List.Sublist.refl _
    | cons first rest hypothesis =>
        rw [distinct.go]
        split_ifs
        · exact (hypothesis known).cons _
        · exact (hypothesis (first :: known)).cons_cons _
  exact keeps [] values

@[simp]
theorem mem_sortedTexts {texts : List String} {text : String} :
    text ∈ sortedTexts texts ↔ text ∈ texts :=
  (List.mergeSort_perm texts _).mem_iff

theorem sortedTexts_pairwise (texts : List String) : (sortedTexts texts).Pairwise (· ≤ ·) := by
  have sorted := @List.pairwise_mergeSort _ (fun left right : String => decide (left ≤ right))
    (by simpa using fun _ _ _ => le_trans) (by simpa using le_total) texts
  exact sorted.imp fun ordered => of_decide_eq_true ordered

/-- Sorted texts of which none occurs twice increase. -/
theorem sortedTexts_pairwise_lt {texts : List String} (apart : texts.Nodup) :
    (sortedTexts texts).Pairwise (· < ·) := by
  have distinct : (sortedTexts texts).Nodup := (List.mergeSort_perm texts _).nodup_iff.mpr apart
  exact (sortedTexts_pairwise texts).imp₂ (fun _ _ => lt_of_le_of_ne) distinct

/-- There is one order in which texts are sorted. -/
theorem sortedTexts_eq_of_perm {texts sorted : List String} (perm : texts.Perm sorted)
    (ordered : sorted.Pairwise (· ≤ ·)) : sortedTexts texts = sorted :=
  ((List.mergeSort_perm texts _).trans perm).eq_of_pairwise (fun _ _ _ _ => le_antisymm)
    (sortedTexts_pairwise texts) ordered

/-- Texts that differ in their order only are sorted in the same way. -/
theorem sortedTexts_of_perm {left right : List String} (perm : left.Perm right) :
    sortedTexts left = sortedTexts right :=
  sortedTexts_eq_of_perm (perm.trans (List.mergeSort_perm right _).symm)
    (sortedTexts_pairwise right)

end Scaffold
