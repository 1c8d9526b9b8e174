import Mathlib.Data.List.Basic
import Mathlib.Order.Lattice

/-!
# Sorted maps

A map that is iterated in the order of its keys, as the list of its entries. Inserting a key beyond all the others
appends (`insert_of_forall_lt`), so a map that is filled in order lists its entries in the order of their insertion.
-/

namespace Leviathan
open List

/-- The entries of a map in the order of their keys. -/
abbrev SortedMap (κ α : Type) := List (κ × α)

namespace SortedMap
section Insert
variable {κ α : Type} [Preorder κ] [DecidableLT κ]

/-- Insert an entry; an entry of the same key is replaced. -/
def insert (k : κ) (a : α) : SortedMap κ α → SortedMap κ α
  | [] => [(k, a)]
  | (k', a') :: m =>
    if k < k' then (k, a) :: (k', a') :: m
    else if k' < k then (k', a') :: insert k a m
    else (k, a) :: m

lemma insert_of_forall_lt {k : κ} {a : α} {m : SortedMap κ α} (h : ∀ e ∈ m, e.1 < k) :
    insert k a m = m ++ [(k, a)] := by
  induction m with
  | nil => rfl
  | cons e m ih =>
    have hlt : e.1 < k := h e mem_cons_self
    unfold insert
    rw [if_neg (not_lt_of_gt hlt), if_pos hlt, ih fun e' he' => h e' (mem_cons_of_mem _ he')]
    rfl

end Insert

section Ranges
variable {κ α : Type} [LinearOrder κ] {k : κ} {a : α} {m : SortedMap κ α} {e : κ × α} {R : κ × α → κ × α → Prop}

def lastUpTo (k : κ) (m : SortedMap κ α) : Option (κ × α) := (m.filter (·.1 ≤ k)).getLast?

def firstFrom (k : κ) (m : SortedMap κ α) : Option (κ × α) := m.find? (k ≤ ·.1)

/-- Remove the entry of a key; it is returned with the map. -/
def remove (k : κ) (m : SortedMap κ α) : Option (κ × α) × SortedMap κ α :=
  (m.find? (·.1 = k), m.filter (·.1 ≠ k))

lemma mem_of_lastUpTo (h : lastUpTo k m = some e) : e ∈ m ∧ e.1 ≤ k := by
  have he := mem_filter.mp (mem_of_getLast? h)
  exact ⟨he.1, of_decide_eq_true he.2⟩

lemma mem_of_firstFrom (h : firstFrom k m = some e) : e ∈ m ∧ k ≤ e.1 := by
  have hk := find?_some (p := fun e : κ × α => decide (k ≤ e.1)) h
  exact ⟨mem_of_find?_eq_some h, of_decide_eq_true hk⟩

lemma exists_lastUpTo (hR : m.Pairwise R) (he : e ∈ m) (hk : e.1 ≤ k) :
    ∃ e', lastUpTo k m = some e' ∧ (e = e' ∨ R e e') := by
  have hmem : e ∈ m.filter (·.1 ≤ k) := mem_filter.mpr ⟨he, decide_eq_true hk⟩
  obtain ⟨l, e', hl⟩ := (eq_nil_or_concat' _).resolve_left (ne_nil_of_mem hmem)
  have hpair := hR.filter (·.1 ≤ k)
  rw [hl] at hmem hpair
  refine ⟨e', by rw [lastUpTo, hl, getLast?_concat], ?_⟩
  obtain hin | hin := mem_append.mp hmem
  · exact .inr ((pairwise_append.mp hpair).2.2 e hin e' mem_cons_self)
  · exact .inl (mem_singleton.mp hin)

lemma exists_firstFrom (hR : m.Pairwise R) (he : e ∈ m) (hk : k ≤ e.1) :
    ∃ e', firstFrom k m = some e' ∧ (e = e' ∨ R e' e) := by
  induction m with
  | nil => cases he
  | cons b m ih =>
    obtain ⟨hb, hR⟩ := pairwise_cons.mp hR
    by_cases hkb : k ≤ b.1
    · refine ⟨b, find?_cons_of_pos (decide_eq_true hkb), ?_⟩
      obtain rfl | hin := mem_cons.mp he
      · exact .inl rfl
      · exact .inr (hb e hin)
    · have hin : e ∈ m := (mem_cons.mp he).resolve_left fun h => hkb (h ▸ hk)
      obtain ⟨e', hfind, hrel⟩ := ih hR hin
      exact ⟨e', (find?_cons_of_neg (by simpa using hkb)).trans hfind, hrel⟩

lemma mem_insert (hk : ∀ e ∈ m, e.1 ≠ k) : e ∈ insert k a m ↔ e = (k, a) ∨ e ∈ m := by
  induction m with
  | nil => simp [insert]
  | cons b m ih =>
    obtain ⟨hb, hk⟩ := forall_mem_cons.mp hk
    unfold insert
    split
    · exact mem_cons
    · rename_i hlt
      rw [if_pos (lt_of_le_of_ne (not_lt.mp hlt) hb), mem_cons, ih hk, mem_cons]
      exact or_left_comm

lemma pairwise_insert (hR : m.Pairwise R) (hk : ∀ e ∈ m, e.1 ≠ k) (hbefore : ∀ e ∈ m, e.1 < k → R e (k, a))
    (hafter : ∀ e ∈ m, k < e.1 → R (k, a) e) (hs : ∀ x y, R x y → x.1 < y.1) : (insert k a m).Pairwise R := by
  induction m with
  | nil => exact pairwise_singleton R _
  | cons b m ih =>
    obtain ⟨hb, hR'⟩ := pairwise_cons.mp hR
    obtain ⟨hkb, hk'⟩ := forall_mem_cons.mp hk
    unfold insert
    split
    · rename_i hlt
      refine pairwise_cons.mpr ⟨?_, hR⟩
      intro e he
      refine hafter e he ?_
      obtain rfl | he := mem_cons.mp he
      · exact hlt
      · exact hlt.trans (hs _ _ (hb e he))
    · rename_i hlt
      have hlt : b.1 < k := lt_of_le_of_ne (not_lt.mp hlt) hkb
      rw [if_pos hlt]
      refine pairwise_cons.mpr ⟨?_, ih hR' hk' (fun e he => hbefore e (mem_cons_of_mem _ he))
        fun e he => hafter e (mem_cons_of_mem _ he)⟩
      intro e he
      obtain rfl | he := (mem_insert hk').mp he
      · exact hbefore b mem_cons_self hlt
      · exact hb e he

end Ranges

end SortedMap
end Leviathan
