import Mathlib.Data.Nat.Count
import Mathlib.Order.Interval.Finset.Nat

/-!
# Counting through a shuffle

A map that sends the numbers below `n` to distinct numbers below `n` is onto, so that it keeps every count
(`count_comp`). Together with the size of a block of consecutive numbers (`count_block`) this counts what a
shuffle puts into a block. `length_le_count` compares a list with such a count.
-/

namespace Leviathan
variable {n : Nat} {p : Nat → Prop}

lemma image_range {f : Nat → Nat} (hlt : ∀ i < n, f i < n) (hinj : ∀ i < n, ∀ j < n, f i = f j → i = j) :
    (Finset.range n).image f = Finset.range n := by
  have hsub : (Finset.range n).image f ⊆ Finset.range n := by
    intro x hx
    obtain ⟨i, hi, rfl⟩ := Finset.mem_image.mp hx
    exact Finset.mem_range.mpr (hlt i (Finset.mem_range.mp hi))
  have hcard : ((Finset.range n).image f).card = (Finset.range n).card := by
    apply Finset.card_image_of_injOn
    intro i hi j hj e
    exact hinj i (Finset.mem_range.mp hi) j (Finset.mem_range.mp hj) e
  exact Finset.eq_of_subset_of_card_le hsub hcard.ge

lemma count_comp [DecidablePred p] {f : Nat → Nat} (hlt : ∀ i < n, f i < n)
    (hinj : ∀ i < n, ∀ j < n, f i = f j → i = j) : Nat.count (fun i => p (f i)) n = Nat.count p n := by
  rw [Nat.count_eq_card_filter_range, Nat.count_eq_card_filter_range]
  have hset : (Finset.range n).filter p = ((Finset.range n).filter fun i => p (f i)).image f := by
    rw [← Finset.filter_image, image_range hlt hinj]
  rw [hset]
  symm
  apply Finset.card_image_of_injOn
  intro i hi j hj e
  obtain ⟨hi, _⟩ := Finset.mem_filter.mp hi
  obtain ⟨hj, _⟩ := Finset.mem_filter.mp hj
  exact hinj i (Finset.mem_range.mp hi) j (Finset.mem_range.mp hj) e

lemma count_block [DecidablePred p] {a b : Nat} (hb : b ≤ n) (h : ∀ x < n, p x ↔ a ≤ x ∧ x < b) :
    Nat.count p n = b - a := by
  have hset : (Finset.range n).filter p = Finset.Ico a b := by
    ext x
    rw [Finset.mem_filter, Finset.mem_range, Finset.mem_Ico]
    constructor
    · rintro ⟨hx, hp⟩
      exact (h x hx).mp hp
    · intro hx
      have hxn : x < n := by omega
      exact ⟨hxn, (h x hxn).mpr hx⟩
  rw [Nat.count_eq_card_filter_range, hset, Nat.card_Ico]

lemma length_le_count [DecidablePred p] {l : List Nat} (hn : l.Nodup) (h : ∀ i ∈ l, i < n ∧ p i) :
    l.length ≤ Nat.count p n := by
  rw [Nat.count_eq_card_filter_range, ← List.toFinset_card_of_nodup hn]
  refine Finset.card_le_card fun i hi => ?_
  obtain ⟨hlt, hp⟩ := h i (List.mem_toFinset.mp hi)
  exact Finset.mem_filter.mpr ⟨Finset.mem_range.mpr hlt, hp⟩

end Leviathan
