import Mathlib.Algebra.BigOperators.Ring.List
import Mathlib.Algebra.Order.BigOperators.Group.List
import Mathlib.Algebra.Order.Ring.Int
import Mathlib.Algebra.Order.Ring.Nat
import Mathlib.Data.List.AList

/-!
# Account maps

A program's accounts of one kind, addressed by key, as a Mathlib association list. `total f` sums a
counter over all accounts; the lemmas say how creating or overwriting one account moves the sum, and how sums are
compared.
-/

namespace Leviathan
open List

/-- Accounts of type `α` addressed by keys of type `κ`. -/
abbrev Accounts (κ α : Type) := AList (fun _ : κ => α)

namespace Accounts
variable {κ α β : Type} {m : Accounts κ α} {k k' : κ} {a : α} {f : α → Nat}

/-- The sum of a counter over all accounts. -/
def total (m : Accounts κ α) (f : α → Nat) : Nat :=
  (m.entries.map fun e => f e.2).sum

lemma total_add (m : Accounts κ α) (f g : α → Nat) : total m (fun a => f a + g a) = total m f + total m g :=
  sum_map_add

lemma total_mul_left (m : Accounts κ α) (n : Nat) (f : α → Nat) : total m (fun a => n * f a) = n * total m f :=
  sum_map_mul_left _ _ _

lemma total_mul_right (m : Accounts κ α) (f : α → Nat) (n : Nat) : total m (fun a => f a * n) = total m f * n :=
  sum_map_mul_right _ _ _

variable [DecidableEq κ]

/-- Change every account. -/
def mapValues {β : Type} (m : Accounts κ α) (f : α → β) : Accounts κ β :=
  ⟨m.entries.map fun e => ⟨e.1, f e.2⟩, by
    rw [List.NodupKeys, List.keys, List.map_map]
    exact m.nodupKeys⟩

@[simp] lemma lookup_mapValues (m : Accounts κ α) (f : α → β) (k : κ) :
    (m.mapValues f).lookup k = (m.lookup k).map f :=
  dlookup_map₂ (f := fun _ => f) k

def modify (m : Accounts κ α) (k : κ) (f : α → α) : Accounts κ α :=
  match m.lookup k with
  | some a => m.insert k (f a)
  | none => m

lemma lookup_modify (m : Accounts κ α) (k k' : κ) (f : α → α) :
    (m.modify k f).lookup k' = if k' = k then (m.lookup k).map f else m.lookup k' := by
  rw [modify]
  by_cases hk : k' = k
  · subst hk
    rw [if_pos rfl]
    split
    · rename_i a ha
      rw [AList.lookup_insert, ha, Option.map_some]
    · rename_i hnone
      rw [hnone, Option.map_none]
  · rw [if_neg hk]
    split
    · rw [AList.lookup_insert_ne hk]
    · rfl

@[simp] lemma mem_mapValues {f : α → β} : k ∈ m.mapValues f ↔ k ∈ m := by
  rw [← AList.lookup_isSome, lookup_mapValues, Option.isSome_map, AList.lookup_isSome]

@[simp] lemma mem_modify {f : α → α} : k' ∈ m.modify k f ↔ k' ∈ m := by
  rw [← AList.lookup_isSome, lookup_modify]
  by_cases hk : k' = k
  · rw [if_pos hk, Option.isSome_map, AList.lookup_isSome, hk]
  · rw [if_neg hk, AList.lookup_isSome]

lemma lookup_insert_eq_some {b : α} (h : (m.insert k a).lookup k' = some b) :
    k' = k ∧ b = a ∨ k' ≠ k ∧ m.lookup k' = some b := by
  by_cases he : k' = k
  · subst he
    rw [AList.lookup_insert] at h
    exact .inl ⟨rfl, (Option.some.inj h).symm⟩
  · rw [AList.lookup_insert_ne he] at h
    exact .inr ⟨he, h⟩

lemma lookup_insert_eq_none (h : (m.insert k a).lookup k' = none) : k' ≠ k ∧ m.lookup k' = none := by
  have he : k' ≠ k := by
    rintro rfl
    rw [AList.lookup_insert] at h
    cases h
  rw [AList.lookup_insert_ne he] at h
  exact ⟨he, h⟩

lemma total_insert_new (f : α → Nat) (h : m.lookup k = none) : total (m.insert k a) f = f a + total m f := by
  have hk : k ∉ m := AList.lookup_eq_none.mp h
  rw [total, AList.entries_insert_of_notMem hk, map_cons, sum_cons]
  rfl

lemma total_insert {b : α} (f : α → Nat) (h : m.lookup k = some b) :
    total (m.insert k a) f + f b = f a + total m f := by
  have hk : k ∈ m.entries.keys := AList.mem_keys.mp (AList.lookup_isSome.mp (by simp [h]))
  obtain ⟨b', l1, l2, hn, e1, e2⟩ := exists_of_kerase hk
  have hb : b' = b := by
    have hl : m.entries.dlookup k = some b := h
    have hmem : (⟨k, b'⟩ : Sigma fun _ : κ => α) ∈ m.entries := by simp [e1]
    have hl' := (mem_dlookup_iff m.nodupKeys).mpr hmem
    rw [hl] at hl'
    exact (Option.some.inj hl').symm
  subst hb
  have hi : (m.insert k a).entries = ⟨k, a⟩ :: (l1 ++ l2) := by rw [AList.entries_insert, e2]
  simp only [total, hi, e1, map_cons, map_append, sum_cons, sum_append]
  omega

lemma le_total (f : α → Nat) (h : m.lookup k = some a) : f a ≤ total m f := by
  have hmem : (⟨k, a⟩ : Sigma fun _ : κ => α) ∈ m.entries :=
    (mem_dlookup_iff m.nodupKeys).mp h
  exact le_sum_of_mem (mem_map.mpr ⟨_, hmem, rfl⟩)

lemma total_le_total {g : α → Nat} (h : ∀ k a, m.lookup k = some a → f a ≤ g a) : total m f ≤ total m g := by
  refine sum_le_sum fun e he => ?_
  exact h e.1 e.2 ((mem_dlookup_iff m.nodupKeys).mpr he)

lemma total_share_le (m : Accounts κ α) (f : α → Nat) (n d : Nat) :
    total m (fun a => n * f a / d) * d ≤ n * total m f := by
  rw [← total_mul_right, ← total_mul_left]
  exact total_le_total fun _ _ _ => Nat.div_mul_le_self _ _

lemma total_le_sum {g : κ → Nat} (h : ∀ k a, m.lookup k = some a → f a ≤ g k) : total m f ≤ (m.keys.map g).sum := by
  rw [total, AList.keys, List.keys, map_map]
  refine sum_le_sum fun e he => ?_
  exact h e.1 e.2 ((mem_dlookup_iff m.nodupKeys).mpr he)

end Accounts
end Leviathan
