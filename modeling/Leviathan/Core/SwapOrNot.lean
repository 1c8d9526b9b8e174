import Leviathan.Core.Identity
import Mathlib.Data.Nat.ModEq
import Mathlib.Data.Set.Finite.Lattice

/-!
# The swap-or-not shuffle

Model of `shared/core/src/swap_or_not.rs` (Rust `compute_shuffled_index`): ninety rounds, each of which
sends an index to its mirror image around a hashed pivot or leaves it alone, as a hashed bit of the
larger of the two says.

`shuffleRound` is one iteration of the Rust loop with its checked arithmetic, `swapRound` the value it
computes when nothing overflows. A round looks at `x` and its mirror image symmetrically, so it is an
involution on `[0, count)`.
-/

namespace Leviathan
open Exec
variable {ε : Type} {count x index : Nat}

def shuffleRoundCount : Nat := 90

def swapPivot (H : Sha256) (seed : Bytes32) (count round : Nat) : Nat :=
  (H (seed.bytes ++ leBytes 1 round)).toNat % 2 ^ 64 % count

/-- The hashed bit that decides about a position in a round. -/
def swapBit (H : Sha256) (seed : Bytes32) (round position : Nat) : Bool :=
  let source := H (seed.bytes ++ leBytes 1 round ++ leBytes 4 (position / 256))
  let byte := source.byte (position % 256 / 8)
  byte / 2 ^ (position % 8) % 2 == 1

/-- One iteration of the loop, with its overflow checks. -/
def shuffleRound (H : Sha256) (seed : Bytes32) (count current round : Nat) : Exec ε Panic Nat := do
  let pivot := swapPivot H seed count round
  let sum ← addU 64 pivot count
  let diff ← subU sum current
  let flip := diff % count
  let position := max current flip
  .ok (if swapBit H seed round position then flip else current)

def computeShuffledIndex (H : Sha256) (index count : Nat) (seed : Bytes32) : Exec ε Panic Nat := do
  Exec.ensure (index < count) .shuffleIndex
  (List.range shuffleRoundCount).foldlM (shuffleRound H seed count) index

/-- The mirror image of an index around a pivot. -/
def swapFlip (count pivot x : Nat) : Nat := (pivot + count - x) % count

/-- The value one round computes. -/
def swapRound (H : Sha256) (seed : Bytes32) (count x round : Nat) : Nat :=
  let flip := swapFlip count (swapPivot H seed count round) x
  if swapBit H seed round (max x flip) then flip else x

lemma swapPivot_lt (H : Sha256) (seed : Bytes32) (round : Nat) (h : 0 < count) :
    swapPivot H seed count round < count :=
  Nat.mod_lt _ h

lemma swapFlip_lt (pivot x : Nat) (h : 0 < count) : swapFlip count pivot x < count :=
  Nat.mod_lt _ h

lemma swapFlip_swapFlip {pivot : Nat} (hp : pivot < count) (hx : x < count) :
    swapFlip count pivot (swapFlip count pivot x) = x := by
  unfold swapFlip
  by_cases h : x ≤ pivot
  · have e1 : (pivot + count - x) % count = pivot - x := by
      rw [show pivot + count - x = (pivot - x) + count by omega, Nat.add_mod_right, Nat.mod_eq_of_lt (by omega)]
    rw [e1, show pivot + count - (pivot - x) = x + count by omega, Nat.add_mod_right, Nat.mod_eq_of_lt hx]
  · have e1 : (pivot + count - x) % count = pivot + count - x := Nat.mod_eq_of_lt (by omega)
    rw [e1, show pivot + count - (pivot + count - x) = x by omega, Nat.mod_eq_of_lt hx]

lemma swapRound_lt (H : Sha256) (seed : Bytes32) (round : Nat) (hx : x < count) :
    swapRound H seed count x round < count := by
  have hc : 0 < count := by omega
  unfold swapRound
  simp only
  split
  · exact swapFlip_lt _ _ hc
  · exact hx

lemma swapRound_swapRound (H : Sha256) (seed : Bytes32) (round : Nat) (hx : x < count) :
    swapRound H seed count (swapRound H seed count x round) round = x := by
  have hp := swapPivot_lt H seed round (show 0 < count by omega)
  have hf := swapFlip_swapFlip hp hx
  unfold swapRound
  simp only
  split
  · -- the mirror image is judged by the same bit, since the pair is unordered
    rename_i hb
    rw [hf, max_comm, if_pos hb]
  · rfl

lemma shuffleRound_eq (H : Sha256) (seed : Bytes32) (round : Nat) (hc : count ≤ 2 ^ 63) (hx : x < count) :
    (shuffleRound H seed count x round : Exec ε Panic Nat) = .ok (swapRound H seed count x round) := by
  have hp := swapPivot_lt H seed round (show 0 < count by omega)
  have hs : swapPivot H seed count round + count < 2 ^ 64 := by omega
  have hd : x ≤ swapPivot H seed count round + count := by omega
  unfold shuffleRound addU subU
  simp only [if_pos hs, ok_bind, if_pos hd]
  rfl

/-- The rounds of a list, in order. -/
def swapRounds (H : Sha256) (seed : Bytes32) (count : Nat) (rounds : List Nat) (x : Nat) : Nat :=
  rounds.foldl (swapRound H seed count) x

lemma swapRounds_lt (H : Sha256) (seed : Bytes32) (rounds : List Nat) (hx : x < count) :
    swapRounds H seed count rounds x < count := by
  induction rounds generalizing x with
  | nil => exact hx
  | cons r rs ih => exact ih (swapRound_lt H seed r hx)

lemma swapRounds_inj (H : Sha256) (seed : Bytes32) {y : Nat} (rounds : List Nat) (hx : x < count)
    (hy : y < count) (e : swapRounds H seed count rounds x = swapRounds H seed count rounds y) : x = y := by
  induction rounds generalizing x y with
  | nil => exact e
  | cons r rs ih =>
    have h := ih (swapRound_lt H seed r hx) (swapRound_lt H seed r hy) e
    have h' := congrArg (fun z => swapRound H seed count z r) h
    simpa only [swapRound_swapRound H seed r hx, swapRound_swapRound H seed r hy] using h'

lemma foldlM_shuffleRound (H : Sha256) (seed : Bytes32) (rounds : List Nat) (hc : count ≤ 2 ^ 63)
    (hx : x < count) :
    (rounds.foldlM (shuffleRound H seed count) x : Exec ε Panic Nat)
      = .ok (swapRounds H seed count rounds x) := by
  induction rounds generalizing x with
  | nil => rfl
  | cons r rs ih =>
    rw [List.foldlM_cons, shuffleRound_eq H seed r hc hx]
    exact ih (swapRound_lt H seed r hx)

/-- The value of the shuffle at an index in range. -/
def shuffled (H : Sha256) (seed : Bytes32) (count index : Nat) : Nat :=
  swapRounds H seed count (List.range shuffleRoundCount) index

lemma computeShuffledIndex_eq (H : Sha256) (seed : Bytes32) (hc : count ≤ 2 ^ 63) (hi : index < count) :
    (computeShuffledIndex H index count seed : Exec ε Panic Nat)
      = .ok (shuffled H seed count index) := by
  unfold computeShuffledIndex
  rw [ensure_of hi]
  exact foldlM_shuffleRound H seed _ hc hi

lemma shuffleRound_eq_ok (H : Sha256) (seed : Bytes32) {y round : Nat}
    (h : (shuffleRound H seed count x round : Exec ε Panic Nat) = .ok y) : y = swapRound H seed count x round := by
  simp only [shuffleRound, bind_eq_ok, addU_eq_ok, subU_eq_ok, Except.ok.injEq] at h
  obtain ⟨_, ⟨_, rfl⟩, _, ⟨_, rfl⟩, rfl⟩ := h
  rfl

lemma computeShuffledIndex_eq_ok (H : Sha256) (seed : Bytes32)
    (h : (computeShuffledIndex H index count seed : Exec ε Panic Nat) = .ok x) :
    index < count ∧ x = shuffled H seed count index := by
  have hrounds : ∀ (rounds : List Nat) {y z : Nat},
      (rounds.foldlM (shuffleRound H seed count) y : Exec ε Panic Nat) = .ok z → z = swapRounds H seed count rounds y := by
    intro rounds
    induction rounds with
    | nil =>
      intro y z h
      cases h
      rfl
    | cons r rs ih =>
      intro y z h
      rw [List.foldlM_cons, bind_eq_ok] at h
      obtain ⟨y', hy, hz⟩ := h
      rw [ih hz, shuffleRound_eq_ok H seed hy]
      rfl
  simp only [computeShuffledIndex, bind_eq_ok, ensure_eq_ok] at h
  obtain ⟨_, hi, h⟩ := h
  exact ⟨hi, hrounds _ h⟩

lemma shuffled_lt (H : Sha256) (seed : Bytes32) (hi : index < count) : shuffled H seed count index < count :=
  swapRounds_lt H seed _ hi

lemma shuffled_inj (H : Sha256) (seed : Bytes32) {i j : Nat} (hi : i < count) (hj : j < count)
    (e : shuffled H seed count i = shuffled H seed count j) : i = j :=
  swapRounds_inj H seed _ hi hj e

/-- The shuffle is a permutation of the indices. None of its additions overflows up to `2 ^ 63` of them. -/
theorem computeShuffledIndex_bijOn (H : Sha256) (seed : Bytes32) {count : Nat} (hc : count ≤ 2 ^ 63) :
    ∃ f : Nat → Nat,
      (∀ index < count, (computeShuffledIndex H index count seed : Exec String Panic Nat) = .ok (f index))
        ∧ Set.BijOn f (Set.Iio count) (Set.Iio count) := by
  have hmaps : Set.MapsTo (shuffled H seed count) (Set.Iio count) (Set.Iio count) := by
    intro i hi
    exact shuffled_lt H seed hi
  have hinj : Set.InjOn (shuffled H seed count) (Set.Iio count) := by
    intro i hi j hj
    exact shuffled_inj H seed hi hj
  refine ⟨shuffled H seed count, ?_, ?_⟩
  · intro index hindex
    exact computeShuffledIndex_eq H seed hc hindex
  · exact ((Set.finite_lt_nat count).injOn_iff_bijOn_of_mapsTo hmaps).mp hinj

/-- Two indices are shuffled among themselves. -/
theorem computeShuffledIndex_bijOn_two : ∃ f : Nat → Nat,
    (∀ index < 2, (computeShuffledIndex (fun _ => 1) index 2 0 : Exec String Panic Nat) = .ok (f index))
      ∧ Set.BijOn f (Set.Iio 2) (Set.Iio 2) :=
  computeShuffledIndex_bijOn (fun _ => 1) 0 (by decide)

end Leviathan
