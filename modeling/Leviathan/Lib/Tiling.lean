import Mathlib.Algebra.BigOperators.Group.List.Basic
import Mathlib.Algebra.Order.Ring.Int
import Mathlib.Algebra.Order.Ring.Nat
import Mathlib.Data.Prod.Lex

/-!
# Cutting an interval into pieces

Closed intervals of natural numbers, ordered by their ends, and lists of them that lie side by side (`Tiles`). `tile`
cuts an interval into pieces of given sizes, one for each owner, and leaves out the empty ones; `evenSize` are the sizes
of a cut into pieces as equal as possible.

The pieces of `Tiles` cover each number once (`Tiles.mem_iff`, `Tiles.pairwise`), `tile` returns such a list
(`tile_tiles`), and an even cut is complete, with pieces that differ by at most one (`sum_evenSize`, `evenSize_le`).
-/

namespace Leviathan
open List

structure ClosedInterval where
  start : Nat
  end_ : Nat
  le : start ≤ end_
deriving DecidableEq, Repr

namespace ClosedInterval

instance : Membership Nat ClosedInterval := ⟨fun i x => i.start ≤ x ∧ x ≤ i.end_⟩

def size (i : ClosedInterval) : Nat := i.end_ - i.start + 1

def ofSize (start size : Nat) (h : size ≠ 0) : ClosedInterval := ⟨start, start + size - 1, by omega⟩

@[simp] lemma size_ofSize {start n : Nat} (h : n ≠ 0) : (ofSize start n h).size = n := by
  show start + n - 1 - start + 1 = n
  omega

def ends (i : ClosedInterval) : ℕ ×ₗ ℕ := toLex (i.start, i.end_)

lemma ends_injective : Function.Injective ends := by
  rintro ⟨a, b, _⟩ ⟨a', b', _⟩ h
  cases congrArg (fun p => (ofLex p).1) h
  cases congrArg (fun p => (ofLex p).2) h
  rfl

instance : LinearOrder ClosedInterval := LinearOrder.lift' ends ends_injective

lemma lt_of_start_lt {i j : ClosedInterval} (h : i.start < j.start) : i < j :=
  Prod.Lex.toLex_lt_toLex.mpr (.inl h)

end ClosedInterval

/-- The intervals of a list lie side by side from `a` to before `b`. -/
inductive Tiles : Nat → Nat → List ClosedInterval → Prop where
  | nil {a} :
    Tiles a a []
  | cons {a b i l} :
    i.start = a →
    Tiles (i.end_ + 1) b l →
    Tiles a b (i :: l)

namespace Tiles
variable {a b : Nat} {l : List ClosedInterval}

lemma le (h : Tiles a b l) : a ≤ b := by
  induction h with
  | nil => exact le_rfl
  | @cons a b i l hi _ ih =>
    have := i.le
    omega

lemma bounds (h : Tiles a b l) : ∀ i ∈ l, a ≤ i.start ∧ i.end_ < b := by
  induction h with
  | nil => simp
  | @cons a b i l hi ht ih =>
    have hle := i.le
    have hb := ht.le
    intro j hj
    rcases mem_cons.mp hj with rfl | hj
    · exact ⟨hi.ge, by omega⟩
    · obtain ⟨hs, he⟩ := ih j hj
      exact ⟨by omega, he⟩

lemma pairwise (h : Tiles a b l) : l.Pairwise fun i j => i.end_ < j.start := by
  induction h with
  | nil => exact .nil
  | cons _ ht ih =>
    refine .cons (fun j hj => ?_) ih
    exact (ht.bounds j hj).1

lemma mem_iff (h : Tiles a b l) {x : Nat} : (∃ i ∈ l, x ∈ i) ↔ a ≤ x ∧ x < b := by
  induction h with
  | nil =>
    constructor
    · rintro ⟨_, ⟨⟩, _⟩
    · omega
  | @cons a b i l hi ht ih =>
    have hle := i.le
    have hb := ht.le
    simp only [mem_cons, exists_eq_or_imp, ih]
    show (i.start ≤ x ∧ x ≤ i.end_) ∨ _ ↔ _
    omega

end Tiles

section Tile
variable {α β : Type} {start : Nat} {l : List (Nat × α)}

/-- Cut the numbers from `start` on into pieces, one for each owner, without the empty ones. -/
def tile : Nat → List (Nat × α) → List (ClosedInterval × α)
  | _, [] => []
  | start, (size, owner) :: l =>
    if h : size = 0 then tile start l
    else (.ofSize start size h, owner) :: tile (start + size) l

lemma tile_tiles (start : Nat) (l : List (Nat × α)) :
    Tiles start (start + (l.map Prod.fst).sum) ((tile start l).map Prod.fst) := by
  induction l generalizing start with
  | nil => exact .nil
  | cons e l ih =>
    obtain ⟨size, owner⟩ := e
    rw [map_cons, sum_cons, ← Nat.add_assoc]
    unfold tile
    split
    · rename_i h
      rw [h]
      exact ih start
    · rename_i h
      refine .cons rfl ?_
      have hend : (ClosedInterval.ofSize start size h).end_ + 1 = start + size := by
        show start + size - 1 + 1 = start + size
        omega
      rw [hend]
      exact ih (start + size)

lemma mem_tile : ∀ e ∈ tile start l, (e.1.size, e.2) ∈ l := by
  induction l generalizing start with
  | nil => simp [tile]
  | cons x l ih =>
    obtain ⟨size, owner⟩ := x
    intro e he
    unfold tile at he
    split at he
    · exact mem_cons_of_mem _ (ih e he)
    · rcases mem_cons.mp he with rfl | he
      · simp
      · exact mem_cons_of_mem _ (ih e he)

lemma sublist_tile (start : Nat) (l : List (Nat × α)) :
    ((tile start l).map Prod.snd).Sublist (l.map Prod.snd) := by
  induction l generalizing start with
  | nil => exact .slnil
  | cons x l ih =>
    obtain ⟨size, owner⟩ := x
    unfold tile
    split
    · exact .cons _ (ih _)
    · exact .cons_cons _ (ih _)

lemma map_fst_tile {l' : List (Nat × β)} (h : l.map Prod.fst = l'.map Prod.fst) :
    (tile start l).map Prod.fst = (tile start l').map Prod.fst := by
  induction l generalizing start l' with
  | nil =>
    cases l' with
    | nil => rfl
    | cons => cases h
  | cons x l ih =>
    cases l' with
    | nil => cases h
    | cons x' l' =>
      obtain ⟨size, owner⟩ := x
      obtain ⟨size', owner'⟩ := x'
      simp only [map_cons, List.cons.injEq] at h
      obtain ⟨rfl, h⟩ := h
      unfold tile
      split
      · exact ih h
      · rw [map_cons, map_cons, ih h]

lemma tile_cons {size : Nat} {owner : α} (h : size ≠ 0) :
    tile start ((size, owner) :: l) = (.ofSize start size h, owner) :: tile (start + size) l := by
  rw [tile, dif_neg h]

lemma tile_of_sum_eq_zero (h : (l.map Prod.fst).sum = 0) : tile start l = [] := by
  have hempty := tile_tiles start l
  rw [h, Nat.add_zero] at hempty
  rw [← map_eq_nil_iff (f := Prod.fst)]
  apply eq_nil_iff_forall_not_mem.mpr
  intro i hi
  have := hempty.bounds i hi
  have := i.le
  omega

end Tile

/-- The size of piece `i` of an even cut into `n` pieces: the remainder goes to the first ones. -/
def evenSize (total n i : Nat) : Nat := total / n + if i < total % n then 1 else 0

lemma evenSize_le (total n i j : Nat) : evenSize total n i ≤ evenSize total n j + 1 := by
  unfold evenSize
  split <;> split <;> omega

lemma evenSize_first_ne_zero {total n : Nat} (hn : 0 < n) (ht : total ≠ 0) : evenSize total n 0 ≠ 0 := by
  intro h
  unfold evenSize at h
  obtain ⟨hdiv, hmod⟩ := Nat.add_eq_zero_iff.mp h
  have hlt : total < n := (Nat.div_eq_zero_iff.mp hdiv).resolve_left hn.ne'
  rw [Nat.mod_eq_of_lt hlt, if_pos (Nat.pos_of_ne_zero ht)] at hmod
  cases hmod

lemma sum_evenSize_take (total n k : Nat) :
    ((List.range k).map (evenSize total n)).sum = k * (total / n) + min k (total % n) := by
  induction k with
  | zero => simp
  | succ k ih =>
    rw [range_succ, map_append, sum_append, ih, Nat.succ_mul]
    simp only [map_cons, map_nil, sum_cons, sum_nil, evenSize]
    split <;> omega

lemma sum_evenSize {total n : Nat} (hn : 0 < n) : ((List.range n).map (evenSize total n)).sum = total := by
  rw [sum_evenSize_take, min_eq_right (Nat.mod_lt _ hn).le]
  exact Nat.div_add_mod total n

end Leviathan
