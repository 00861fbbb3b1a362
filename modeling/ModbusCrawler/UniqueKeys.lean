import Mathlib.Data.List.Nodup
import Mathlib.Tactic.Common

set_option autoImplicit false

/-!
# Maps filled one entry at a time

An entry whose key is already there stops the filling. What comes out is the
entries in the order of their keys, or a key that two of them share.
-/
namespace ModbusCrawler.UniqueKeys
open Std

variable {κ ν : Type} {cmp : κ → κ → Ordering}

def insertUnique : List (κ × ν) → TreeMap κ ν cmp → Except κ (TreeMap κ ν cmp)
  | [], m => .ok m
  | (k, v) :: rest, m => if m.contains k then .error k else insertUnique rest (m.insert k v)

variable [TransCmp cmp] [LawfulEqCmp cmp] [DecidableEq κ] {m m' : TreeMap κ ν cmp}

omit [DecidableEq κ] in
theorem contains_iff_mem_keys {k : κ} : m.contains k = true ↔ k ∈ m.toList.map Prod.fst := by
  rw [TreeMap.contains_eq_isSome_getElem?, Option.isSome_iff_exists, List.mem_map]
  constructor
  · rintro ⟨v, hv⟩
    exact ⟨(k, v), TreeMap.mem_toList_iff_getElem?_eq_some.mpr hv, rfl⟩
  · rintro ⟨⟨_, v⟩, hmem, rfl⟩
    exact ⟨v, TreeMap.mem_toList_iff_getElem?_eq_some.mp hmem⟩

omit [DecidableEq κ] in
theorem keys_nodup (m : TreeMap κ ν cmp) : (m.toList.map Prod.fst).Nodup := by
  rw [List.Nodup, List.pairwise_map]
  refine (TreeMap.distinct_keys_toList (t := m)).imp ?_
  intro first second hdistinct hsame
  exact hdistinct (LawfulEqCmp.compare_eq_iff_eq.mpr hsame)

theorem toList_insert_new {k : κ} {v : ν} (h : m.contains k = false) :
    (m.insert k v).toList.Perm ((k, v) :: m.toList) := by
  have kept : m.toList.filter (fun entry => ¬ k == entry.1) = m.toList := by
    rw [List.filter_eq_self]
    intro entry hmem
    have other : k ≠ entry.1 := by
      rintro rfl
      rw [contains_iff_mem_keys.mpr (List.mem_map_of_mem hmem)] at h
      cases h
    simpa using other
  have inserted := TreeMap.toList_insert_perm (t := m) (k := k) (v := v)
  rwa [kept] at inserted

omit [DecidableEq κ] in
theorem perm_pushed {entries entries' rest : List (κ × ν)} {entry : κ × ν}
    (h : entries'.Perm (entry :: entries)) :
    (entries' ++ rest).Perm (entries ++ entry :: rest) :=
  (h.append_right rest).trans List.perm_middle.symm

/-- A map that was filled has all the entries it was given. -/
theorem insertUnique_toList {entries : List (κ × ν)} (h : insertUnique entries m = .ok m') :
    m'.toList.Perm (m.toList ++ entries) := by
  induction entries generalizing m with
  | nil =>
    cases h
    simp
  | cons entry rest ih =>
    obtain ⟨k, v⟩ := entry
    rw [insertUnique] at h
    split_ifs at h with hthere
    have absent := Bool.eq_false_iff.mpr hthere
    exact (ih h).trans (perm_pushed (toList_insert_new absent))

theorem insertUnique_error {entries : List (κ × ν)} {k : κ} (h : insertUnique entries m = .error k) :
    2 ≤ ((m.toList ++ entries).map Prod.fst).count k := by
  induction entries generalizing m with
  | nil => cases h
  | cons entry rest ih =>
    obtain ⟨k', v⟩ := entry
    rw [insertUnique] at h
    split_ifs at h with hthere
    · cases h
      have first := List.count_pos_iff.mpr (contains_iff_mem_keys.mp hthere)
      rw [List.map_append, List.count_append, List.map_cons, List.count_cons_self]
      omega
    · have absent := Bool.eq_false_iff.mpr hthere
      have pushed := (perm_pushed (toList_insert_new absent) : ((m.insert k' v).toList ++ rest).Perm _)
      rw [← (pushed.map Prod.fst).count_eq]
      exact ih h

theorem insertUnique_error_iff (entries : List (κ × ν)) (m : TreeMap κ ν cmp) :
    (∃ k, insertUnique entries m = .error k) ↔ ¬ ((m.toList ++ entries).map Prod.fst).Nodup := by
  constructor
  · rintro ⟨k, hk⟩ hnodup
    have twice := insertUnique_error hk
    have once := List.nodup_iff_count_le_one.mp hnodup k
    omega
  · intro hdouble
    cases hfilled : insertUnique entries m with
    | error k => exact ⟨k, rfl⟩
    | ok m' =>
      have all := (insertUnique_toList hfilled).map Prod.fst
      exact absurd (all.nodup_iff.mp (keys_nodup m')) hdouble

end ModbusCrawler.UniqueKeys
