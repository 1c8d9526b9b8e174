import Leviathan.Core.Identity
import Leviathan.Lib.Tiling

/-!
# Batches and the deterministic shuffle

Models of `shared/core/src/interval_tree.rs` (the intervals), `batch_id.rs`, `lcg.rs` and `deterministic_shuffle.rs`.
The shuffle exchanges elements at positions a congruential generator draws, so its result is a permutation of its
input whatever the seed (`deterministicShuffle_perm`).
-/

namespace Leviathan
variable {ε : Type}

def ClosedInterval.new (start end_ : Nat) : Exec ε Panic ClosedInterval :=
  if h : start ≤ end_ then .ok ⟨start, end_, h⟩ else Exec.abort .emptyInterval

/-- A batch is named by the interval of its data, and compared like it. -/
abbrev BatchId := ClosedInterval

def lcgA : Nat := 6364136223846793005

def lcgC : Nat := 1442695040888963407

/-- A step of the generator; both operations wrap. -/
def nextU64 (state : Nat) : Nat := (state * lcgA % 2 ^ 64 + lcgC) % 2 ^ 64

section Shuffle
variable {α : Type}

/-- The exchanges for the positions from `i` down to one. -/
def shuffleFrom : Nat → Nat → List α → List α
  | 0, _, items => items
  | i + 1, state, items =>
    let state := nextU64 state
    -- `next_range(i + 1)` of the position `i + 1`
    shuffleFrom i state (items.swap (i + 1) (state % (i + 2)))

def deterministicShuffle (items : List α) (seed : Nat) : List α := shuffleFrom (items.length - 1) seed items

lemma shuffleFrom_perm (i state : Nat) (items : List α) : (shuffleFrom i state items).Perm items := by
  induction i generalizing state items with
  | zero => exact .rfl
  | succ i ih => exact (ih _ _).trans (List.swap_perm _ _ _)

lemma deterministicShuffle_perm (items : List α) (seed : Nat) : (deterministicShuffle items seed).Perm items :=
  shuffleFrom_perm _ _ _

end Shuffle
end Leviathan
