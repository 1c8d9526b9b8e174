import Leviathan.Core.Identity

/-!
# Bloom filters

Model of `shared/core/src/bloom.rs` at the size the coordinator uses,
`WitnessBloom = Bloom<16, 8>`: eight hash keys and 1024 bits. A key of the filter seeds the FNV-1a hash
of the tested bytes (Rust `slice_hash`), and the hash modulo the number of bits names a bit.

A filter has no false negatives: what has been added is contained, whatever is added afterwards
(`HasAdded.contains`).
-/

namespace Leviathan

/-- A bloom filter of 1024 bits with eight keys. -/
structure WitnessBloom where
  keys : Vector (BitVec 64) 8
  bits : BitVec 1024
deriving DecidableEq

/-- FNV-1a from a given start value. -/
def sliceHash (slice : Bytes) (key : BitVec 64) : BitVec 64 :=
  slice.foldl (fun h b => (h ^^^ b.setWidth 64) * 0x100000001b3#64) key

namespace WitnessBloom
variable {b : WitnessBloom} {item : Bytes}

/-- The bit a key of the filter assigns to an item. -/
def pos (item : Bytes) (k : BitVec 64) : Nat := (sliceHash item k).toNat % 1024

/-- Whether all bits of an item are set. -/
def contains (b : WitnessBloom) (item : Bytes) : Bool :=
  b.keys.toList.all fun k => b.bits.getLsbD (pos item k)

/-- Set all bits of an item. -/
def add (b : WitnessBloom) (item : Bytes) : WitnessBloom :=
  { b with bits := b.keys.toList.foldl (fun bits k => bits ||| BitVec.twoPow 1024 (pos item k)) b.bits }

/-- The empty filter (Rust `default`). -/
def empty : WitnessBloom := ⟨Vector.replicate 8 0, 0⟩

open List

lemma pos_lt (item : Bytes) (k : BitVec 64) : pos item k < 1024 := Nat.mod_lt _ (by decide)

lemma getLsbD_foldl_or (item : Bytes) (ks : List (BitVec 64)) (bits : BitVec 1024) {i : Nat} (hi : i < 1024) :
    (ks.foldl (fun bits k => bits ||| BitVec.twoPow 1024 (pos item k)) bits).getLsbD i = true
      ↔ bits.getLsbD i = true ∨ ∃ k ∈ ks, pos item k = i := by
  induction ks generalizing bits with
  | nil => simp
  | cons k ks ih =>
    rw [foldl_cons, ih, BitVec.getLsbD_or, BitVec.getLsbD_twoPow]
    simp [hi, pos_lt, or_assoc]

lemma contains_add (b : WitnessBloom) (item : Bytes) : (b.add item).contains item = true := by
  refine all_eq_true.mpr fun k hk => ?_
  exact (getLsbD_foldl_or item _ _ (pos_lt item k)).mpr (.inr ⟨k, hk, rfl⟩)

lemma contains_add_of_contains (other : Bytes) (h : b.contains item = true) : (b.add other).contains item = true := by
  refine all_eq_true.mpr fun k hk => ?_
  exact (getLsbD_foldl_or other _ _ (pos_lt item k)).mpr (.inl (all_eq_true.mp h k hk))

/-- An item has been added to a filter, and others may have been after it. -/
def HasAdded (b : WitnessBloom) (item : Bytes) : Prop :=
  ∃ (b0 : WitnessBloom) (items : List Bytes), b = items.foldl add (b0.add item)

lemma HasAdded.contains (h : b.HasAdded item) : b.contains item = true := by
  obtain ⟨b0, items, rfl⟩ := h
  have hkeep : ∀ b : WitnessBloom, b.contains item = true → (items.foldl add b).contains item = true := by
    induction items with
    | nil => exact fun _ h => h
    | cons other items ih => exact fun b h => ih _ (contains_add_of_contains other h)
  exact hkeep _ (contains_add b0 item)

end WitnessBloom
end Leviathan
