import Mathlib.Data.List.Nodup
import Mathlib.Data.List.Sort
import Mathlib.Tactic.Common

set_option autoImplicit false

/-!
# Maps of maps

Looking up a pair of keys, and the list of all entries with their pairs of keys.
-/
namespace ModbusCrawler.NestedMap
open Std

variable {α β ν : Type} {cmpA : α → α → Ordering} {cmpB : β → β → Ordering}

abbrev Map (α β ν : Type) (cmpA : α → α → Ordering) (cmpB : β → β → Ordering) :=
  TreeMap α (TreeMap β ν cmpB) cmpA

def lookup (m : Map α β ν cmpA cmpB) (key : α × β) : Option ν :=
  m[key.1]?.bind (fun inner => inner[key.2]?)

def entries (m : Map α β ν cmpA cmpB) : List ((α × β) × ν) :=
  m.toList.flatMap (fun outer => outer.2.toList.map (fun inner => ((outer.1, inner.1), inner.2)))

theorem lookup_empty [TransCmp cmpA] (key : α × β) :
    lookup (∅ : Map α β ν cmpA cmpB) key = none := by
  simp [lookup]

theorem lookup_insert [TransCmp cmpA] [LawfulEqCmp cmpA] [DecidableEq α]
    (m : Map α β ν cmpA cmpB) (a : α) (inner : TreeMap β ν cmpB) (key : α × β) :
    lookup (m.insert a inner) key = if a = key.1 then inner[key.2]? else lookup m key := by
  unfold lookup
  simp only [TreeMap.getElem?_insert, LawfulEqCmp.compare_eq_iff_eq]
  split_ifs <;> rfl

section Lookup
variable [TransCmp cmpA] [LawfulEqCmp cmpA] [TransCmp cmpB] [LawfulEqCmp cmpB]

omit [LawfulEqCmp cmpA] [LawfulEqCmp cmpB] in
theorem getD_getElem? (m : Map α β ν cmpA cmpB) (key : α × β) :
    (m.getD key.1 ∅)[key.2]? = lookup m key := by
  unfold lookup
  rw [TreeMap.getD_eq_getD_getElem?]
  cases m[key.1]? with
  | none => exact TreeMap.getElem?_emptyc
  | some inner => rfl

theorem lookup_insertIfNew [DecidableEq α] [DecidableEq β] (m : Map α β ν cmpA cmpB)
    (key : α × β) (v : ν) (other : α × β) :
    lookup (m.insert key.1 ((m.getD key.1 ∅).insertIfNew key.2 v)) other =
      if key = other ∧ lookup m key = none then some v else lookup m other := by
  obtain ⟨a, b⟩ := key
  obtain ⟨a', b'⟩ := other
  rw [lookup_insert]
  by_cases ha : a = a'
  · subst ha
    have old (b : β) : (m.getD a ∅)[b]? = lookup m (a, b) := getD_getElem? m (a, b)
    have absent : ¬ b ∈ m.getD a ∅ ↔ lookup m (a, b) = none := by
      rw [TreeMap.mem_iff_isSome_getElem?, old]
      simp
    simp only [if_true, TreeMap.getElem?_insertIfNew, LawfulEqCmp.compare_eq_iff_eq, old, absent,
      Prod.mk.injEq, true_and]
  · simp [ha]

theorem lookup_modify [DecidableEq α] [DecidableEq β] (m : Map α β ν cmpA cmpB) (key : α × β)
    (f : ν → ν) (other : α × β) :
    lookup (m.modify key.1 (fun inner => inner.modify key.2 f)) other =
      if key = other then (lookup m other).map f else lookup m other := by
  obtain ⟨a, b⟩ := key
  obtain ⟨a', b'⟩ := other
  unfold lookup
  simp only [TreeMap.getElem?_modify, LawfulEqCmp.compare_eq_iff_eq]
  by_cases ha : a = a'
  · subst ha
    cases hm : m[a]? with
    | none => simp
    | some inner =>
      simp only [Option.map_some, Option.bind_some, if_true, TreeMap.getElem?_modify,
        LawfulEqCmp.compare_eq_iff_eq, Prod.mk.injEq, true_and]
      by_cases hb : b = b'
      · subst hb
        simp
      · simp [hb]
  · simp [ha]

theorem lookup_map {μ : Type} (m : Map α β ν cmpA cmpB) (f : ν → μ) (key : α × β) :
    lookup (m.map (fun _ inner => inner.map (fun _ v => f v)) : Map α β μ cmpA cmpB) key =
      (lookup m key).map f := by
  unfold lookup
  rw [TreeMap.getElem?_map]
  cases m[key.1]? with
  | none => rfl
  | some inner => simp [TreeMap.getElem?_map]

theorem mem_entries (m : Map α β ν cmpA cmpB) (key : α × β) (v : ν) :
    (key, v) ∈ entries m ↔ lookup m key = some v := by
  obtain ⟨a, b⟩ := key
  unfold entries lookup
  simp only [List.mem_flatMap, List.mem_map, Prod.exists, Prod.mk.injEq, Option.bind_eq_some_iff]
  constructor
  · rintro ⟨_, inner, hm, _, _, hi, ⟨rfl, rfl⟩, rfl⟩
    exact ⟨inner, TreeMap.mem_toList_iff_getElem?_eq_some.mp hm,
      TreeMap.mem_toList_iff_getElem?_eq_some.mp hi⟩
  · rintro ⟨inner, hm, hi⟩
    exact ⟨a, inner, TreeMap.mem_toList_iff_getElem?_eq_some.mpr hm, b, v,
      TreeMap.mem_toList_iff_getElem?_eq_some.mpr hi, ⟨rfl, rfl⟩, rfl⟩

end Lookup

/-- The order of the entries: by the outer key, then by the inner one. -/
def Before (cmpA : α → α → Ordering) (cmpB : β → β → Ordering) (a b : α × β) : Prop :=
  cmpA a.1 b.1 = .lt ∨ (a.1 = b.1 ∧ cmpB a.2 b.2 = .lt)

def Sorted (cmpA : α → α → Ordering) (cmpB : β → β → Ordering) (es : List ((α × β) × ν)) : Prop :=
  es.Pairwise (fun a b => Before cmpA cmpB a.1 b.1)

theorem entries_sorted [TransCmp cmpA] [TransCmp cmpB] (m : Map α β ν cmpA cmpB) :
    Sorted cmpA cmpB (entries m) := by
  unfold Sorted entries
  rw [List.pairwise_flatMap]
  constructor
  · rintro ⟨a, inner⟩ _
    rw [List.pairwise_map]
    exact (TreeMap.ordered_keys_toList (t := inner)).imp fun hlt => .inr ⟨rfl, hlt⟩
  · refine (TreeMap.ordered_keys_toList (t := m)).imp ?_
    intro x y hlt e he e' he'
    obtain ⟨_, _, rfl⟩ := List.mem_map.mp he
    obtain ⟨_, _, rfl⟩ := List.mem_map.mp he'
    exact .inl hlt

theorem Before.asymm [OrientedCmp cmpA] [OrientedCmp cmpB] {a b : α × β}
    (h : Before cmpA cmpB a b) : ¬ Before cmpA cmpB b a := by
  obtain hlt | ⟨heq, hlt⟩ := h
  · rintro (hgt | ⟨heq, _⟩)
    · exact OrientedCmp.not_lt_of_lt hlt hgt
    · rw [heq] at hlt
      exact OrientedCmp.not_lt_of_lt hlt hlt
  · rintro (hgt | ⟨_, hgt⟩)
    · rw [heq] at hgt
      exact OrientedCmp.not_lt_of_lt hgt hgt
    · exact OrientedCmp.not_lt_of_lt hlt hgt

theorem Sorted.nodup [OrientedCmp cmpA] [OrientedCmp cmpB] {es : List ((α × β) × ν)}
    (h : Sorted cmpA cmpB es) : es.Nodup := by
  refine List.Pairwise.imp ?_ h
  rintro e _ hbefore rfl
  exact hbefore.asymm hbefore

/-- Sorted lists with the same entries are the same. -/
theorem Sorted.ext [OrientedCmp cmpA] [OrientedCmp cmpB] {es es' : List ((α × β) × ν)}
    (h : Sorted cmpA cmpB es) (h' : Sorted cmpA cmpB es') (hmem : ∀ e, e ∈ es ↔ e ∈ es') :
    es = es' := by
  let before (a b : (α × β) × ν) : Prop := Before cmpA cmpB a.1 b.1
  have irrefl : Std.Irrefl before := ⟨fun _ h => h.asymm h⟩
  have antisymm : Std.Antisymm before := ⟨fun _ _ h h' => absurd h' h.asymm⟩
  exact List.Pairwise.eq_of_mem_iff (r := before) h h' hmem

end ModbusCrawler.NestedMap
