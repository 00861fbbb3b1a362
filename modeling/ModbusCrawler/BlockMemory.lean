import Mathlib.Data.List.GetD
import Mathlib.Data.Int.Notation
import Mathlib.Data.Nat.Notation
import Mathlib.Tactic.Common

set_option autoImplicit false

/-!
# Memories written a block at a time
-/
namespace ModbusCrawler.BlockMemory

variable {α : Type}

def store (memory : ℕ → α) (start : ℕ) (block : List α) : ℕ → α := fun a =>
  if start ≤ a then block.getD (a - start) (memory a) else memory a

theorem store_below (memory : ℕ → α) {start a : ℕ} (block : List α) (h : a < start) :
    store memory start block a = memory a := if_neg (by omega)

theorem store_above (memory : ℕ → α) {start a : ℕ} (block : List α)
    (h : start + block.length ≤ a) : store memory start block a = memory a := by
  unfold store
  rw [if_pos (by omega), List.getD_eq_default]
  omega

theorem store_outside (memory : ℕ → α) {start a : ℕ} (block : List α)
    (h : a < start ∨ start + block.length ≤ a) : store memory start block a = memory a := by
  rcases h with below | above
  · exact store_below memory block below
  · exact store_above memory block above

theorem store_inside (memory : ℕ → α) (start i : ℕ) (block : List α) (h : i < block.length) :
    store memory start block (start + i) = block[i] := by
  unfold store
  rw [if_pos (by omega), Nat.add_sub_cancel_left, List.getD_eq_getElem _ _ h]

@[simp] theorem store_nil (memory : ℕ → α) (start : ℕ) : store memory start [] = memory := by
  funext a
  simp [store]

theorem store_append (memory : ℕ → α) (start : ℕ) (first second : List α) :
    store (store memory start first) (start + first.length) second =
      store memory start (first ++ second) := by
  funext a
  by_cases below : a < start
  · rw [store_below _ _ (by omega), store_below _ _ below, store_below _ _ below]
  · obtain ⟨i, rfl⟩ := Nat.exists_eq_add_of_le (Nat.le_of_not_lt below)
    by_cases hfirst : i < first.length
    · rw [store_below _ _ (by omega), store_inside _ _ _ _ hfirst,
        store_inside _ _ _ _ (by rw [List.length_append]; omega), List.getElem_append_left hfirst]
    · by_cases hsecond : i < first.length + second.length
      · have split : start + i = start + first.length + (i - first.length) := by omega
        have inside : i < (first ++ second).length := by rw [List.length_append]; omega
        rw [store_inside _ _ _ _ inside, List.getElem_append_right (by omega), split,
          store_inside]
      · rw [store_above _ _ (by omega), store_above _ _ (by omega),
          store_above _ _ (by rw [List.length_append]; omega)]

theorem store_comm (memory : ℕ → α) {s t : ℕ} (low high : List α) (h : s + low.length ≤ t) :
    store (store memory t high) s low = store (store memory s low) t high := by
  funext a
  by_cases hlow : a < s ∨ s + low.length ≤ a
  · rw [store_outside _ low hlow]
    by_cases hhigh : a < t ∨ t + high.length ≤ a
    · rw [store_outside _ high hhigh, store_outside _ high hhigh, store_outside _ low hlow]
    · obtain ⟨i, rfl⟩ := Nat.exists_eq_add_of_le (show t ≤ a by omega)
      rw [store_inside _ _ _ _ (by omega), store_inside _ _ _ _ (by omega)]
  · obtain ⟨i, rfl⟩ := Nat.exists_eq_add_of_le (show s ≤ a by omega)
    rw [store_inside _ _ _ _ (by omega), store_below _ high (by omega),
      store_inside _ _ _ _ (by omega)]

def storeAll (memory : ℕ → α) (blocks : List (ℕ × List α)) : ℕ → α :=
  blocks.foldl (fun memory block => store memory block.1 block.2) memory

/-- The blocks cover `[a, b)` exactly once, in increasing order, and none is empty. -/
def Tiles : ℕ → List (ℕ × List α) → ℕ → Prop
  | a, [], b => a = b
  | a, block :: rest, b => block.1 = a ∧ block.2 ≠ [] ∧ Tiles (a + block.2.length) rest b

theorem storeAll_tiles {a b : ℕ} {blocks : List (ℕ × List α)} (memory : ℕ → α)
    (h : Tiles a blocks b) : storeAll memory blocks = store memory a (blocks.flatMap Prod.snd) := by
  induction blocks generalizing a memory with
  | nil => exact (store_nil memory a).symm
  | cons block rest ih =>
    obtain ⟨rfl, _, htail⟩ := h
    change storeAll (store memory block.1 block.2) rest = _
    rw [ih _ htail, store_append, List.flatMap_cons]

/-- The same for a memory whose addresses may be negative. -/
def storeAt (memory : ℤ → α) (start : ℤ) (block : List α) : ℤ → α := fun a =>
  if start ≤ a then block.getD (a - start).toNat (memory a) else memory a

theorem storeAt_outside (memory : ℤ → α) {start a : ℤ} (block : List α)
    (h : a < start ∨ start + block.length ≤ a) : storeAt memory start block a = memory a := by
  unfold storeAt
  by_cases hstart : start ≤ a
  · rw [if_pos hstart, List.getD_eq_default]
    omega
  · rw [if_neg hstart]

theorem storeAt_inside (memory : ℤ → α) (start : ℤ) (i : ℕ) (block : List α)
    (h : i < block.length) : storeAt memory start block (start + i) = block[i] := by
  have index : (start + i - start).toNat = i := by omega
  unfold storeAt
  rw [if_pos (by omega), index, List.getD_eq_getElem _ _ h]

@[simp] theorem storeAt_nil (memory : ℤ → α) (start : ℤ) : storeAt memory start [] = memory := by
  funext a
  simp [storeAt]

theorem storeAt_append (memory : ℤ → α) (start : ℤ) (first second : List α) :
    storeAt (storeAt memory start first) (start + first.length) second =
      storeAt memory start (first ++ second) := by
  funext a
  by_cases hfirst : a < start + first.length
  · rw [storeAt_outside _ _ (.inl hfirst)]
    unfold storeAt
    by_cases hstart : start ≤ a
    · rw [if_pos hstart, if_pos hstart, List.getD_append _ _ _ _ (by omega)]
    · rw [if_neg hstart, if_neg hstart]
  · have index : (a - (start + first.length)).toNat = (a - start).toNat - first.length := by omega
    have before := storeAt_outside memory first (.inr (Int.not_lt.mp hfirst))
    rw [storeAt, before, storeAt, if_pos (by omega), if_pos (by omega), index,
      List.getD_append_right _ _ _ _ (by omega)]

/-- Where no address is negative it is the memory over the natural numbers. -/
theorem storeAt_natCast (memory : ℤ → α) {start : ℤ} (hstart : 0 ≤ start) (block : List α) (a : ℕ) :
    storeAt memory start block a = store (fun n => memory n) start.toNat block a := by
  have index : ((a : ℤ) - start).toNat = a - start.toNat := by omega
  unfold storeAt store
  rw [index]
  by_cases h : start ≤ a
  · rw [if_pos h, if_pos (by omega)]
  · rw [if_neg h, if_neg (by omega)]

end ModbusCrawler.BlockMemory
