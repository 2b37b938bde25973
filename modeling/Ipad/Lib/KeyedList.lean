import Mathlib.Data.List.Basic
import Mathlib.Data.List.Nodup

/-!
# Ordered maps as lists of entries with a key
-/

namespace Lib.KeyedList

section
variable {α κ : Type*} (key : α → κ)

def Distinct (entries : List α) : Prop := (entries.map key).Nodup

theorem distinct_concat (entries : List α) (entry : α) (distinct : Distinct key entries)
    (absent : key entry ∉ entries.map key) : Distinct key (entries ++ [entry]) := by
  rw [Distinct, List.map_append, List.nodup_append]
  refine ⟨distinct, List.nodup_singleton _, ?_⟩
  rintro k member _ last rfl
  have same : k = key entry := by simpa using last
  exact absent (same ▸ member)

theorem first_of_distinct (before : List α) (entry : α) (after : List α)
    (distinct : Distinct key (before ++ entry :: after)) : key entry ∉ before.map key := by
  rw [Distinct, List.map_append, List.map_cons, List.nodup_append] at distinct
  exact fun member => distinct.2.2 _ member _ (List.mem_cons_self ..) rfl

variable [DecidableEq κ]

def removeKey (k : κ) (entries : List α) : List α := entries.filter fun entry => key entry ≠ k

def updateKey (k : κ) (update : α → α) : List α → List α
  | [] => []
  | entry :: entries =>
      if key entry = k then update entry :: entries else entry :: updateKey k update entries

theorem distinct_removeKey (k : κ) (entries : List α) (distinct : Distinct key entries) :
    Distinct key (removeKey key k entries) :=
  List.Nodup.sublist (List.filter_sublist.map key) distinct

theorem map_key_updateKey (k : κ) (update : α → α) (same : ∀ entry, key (update entry) = key entry)
    (entries : List α) : (updateKey key k update entries).map key = entries.map key := by
  induction entries with
  | nil => rfl
  | cons entry entries ih =>
      unfold updateKey
      split
      · simp [same]
      · simp [ih]

theorem distinct_updateKey (k : κ) (update : α → α) (same : ∀ entry, key (update entry) = key entry)
    (entries : List α) (distinct : Distinct key entries) : Distinct key (updateKey key k update entries) := by
  rw [Distinct, map_key_updateKey key k update same]
  exact distinct

theorem removeKey_absent (k : κ) (entries : List α) (absent : k ∉ entries.map key) :
    removeKey key k entries = entries := by
  rw [removeKey, List.filter_eq_self]
  intro entry member
  simp only [ne_eq, decide_eq_true_eq]
  rintro rfl
  exact absent (List.mem_map_of_mem member)

theorem removeKey_split (before : List α) (entry : α) (after : List α)
    (distinct : Distinct key (before ++ entry :: after)) :
    removeKey key (key entry) (before ++ entry :: after) = before ++ after := by
  rw [Distinct, List.map_append, List.map_cons, List.nodup_append, List.nodup_cons] at distinct
  obtain ⟨-, ⟨notAfter, -⟩, disjoint⟩ := distinct
  have notBefore : key entry ∉ before.map key :=
    fun member => disjoint _ member _ (List.mem_cons_self ..) rfl
  have here : removeKey key (key entry) (entry :: after) = removeKey key (key entry) after := by
    simp [removeKey]
  calc removeKey key (key entry) (before ++ entry :: after)
      = removeKey key (key entry) before ++ removeKey key (key entry) (entry :: after) :=
        List.filter_append ..
    _ = before ++ after := by
        rw [here, removeKey_absent key _ before notBefore, removeKey_absent key _ after notAfter]

theorem updateKey_split (update : α → α) (before : List α) (entry : α) (after : List α)
    (first : key entry ∉ before.map key) :
    updateKey key (key entry) update (before ++ entry :: after) = before ++ update entry :: after := by
  induction before with
  | nil => simp [updateKey]
  | cons other before ih =>
      simp only [List.map_cons, List.mem_cons, not_or] at first
      rw [List.cons_append, updateKey, if_neg (Ne.symm first.1), ih first.2, List.cons_append]

theorem find?_updateKey (k k' : κ) (update : α → α) (same : ∀ entry, key (update entry) = key entry)
    (entries : List α) :
    (updateKey key k update entries).find? (fun entry => key entry = k') =
      if k' = k then (entries.find? fun entry => key entry = k').map update
      else entries.find? fun entry => key entry = k' := by
  induction entries with
  | nil => simp [updateKey]
  | cons entry entries ih =>
      rw [updateKey]
      by_cases here : key entry = k
      · by_cases wanted : k' = k
        · simp [here, wanted, same]
        · have other : ¬ k = k' := fun hit => wanted hit.symm
          simp [here, wanted, same, other]
      · rw [if_neg here, List.find?_cons, List.find?_cons, ih]
        by_cases found : key entry = k'
        · have wanted : ¬ k' = k := fun hit => here (found.trans hit)
          simp [found, wanted]
        · simp [found]

theorem updateKey_congr (k : κ) (update update' : α → α) (entries : List α)
    (agree : ∀ entry, entries.find? (fun entry => key entry = k) = some entry → update entry = update' entry) :
    updateKey key k update entries = updateKey key k update' entries := by
  induction entries with
  | nil => rfl
  | cons entry entries ih =>
      rw [updateKey, updateKey]
      by_cases here : key entry = k
      · rw [if_pos here, if_pos here, agree entry (List.find?_cons_of_pos (decide_eq_true here))]
      · rw [if_neg here, if_neg here, ih]
        intro found hit
        apply agree found
        rw [List.find?_cons_of_neg (by simpa using here)]
        exact hit

theorem forall_updateKey (P : α → Prop) (k : κ) (update : α → α) (entries : List α)
    (keeps : ∀ entry ∈ entries, P (update entry)) (all : ∀ entry ∈ entries, P entry) :
    ∀ entry ∈ updateKey key k update entries, P entry := by
  induction entries with
  | nil => exact all
  | cons head entries ih =>
      have rest := ih (fun entry member => keeps entry (List.mem_cons_of_mem _ member))
        (fun entry member => all entry (List.mem_cons_of_mem _ member))
      unfold updateKey
      split
      · rintro entry (_ | ⟨_, member⟩)
        · exact keeps head (List.mem_cons_self ..)
        · exact all entry (List.mem_cons_of_mem _ member)
      · rintro entry (_ | ⟨_, member⟩)
        · exact all head (List.mem_cons_self ..)
        · exact rest entry member

end

end Lib.KeyedList
