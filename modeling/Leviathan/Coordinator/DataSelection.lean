import Leviathan.Lib.SortedMap
import Leviathan.Core.Batches
import Leviathan.Coordinator.Committee

/-!
# Data selection

Model of `shared/coordinator/src/data_selection.rs`: how the batch of a round is cut up among the trainers
(`assignDataForState`), the batches of a round as a client expects them (`getBatchIdsForRound`), and where the data of a
step begins (`getDataIndexForStep`). The clients are not built with overflow checks. The model aborts on an overflow all
the same: a sum that wraps around is no end of the data.
-/

namespace Leviathan.Coordinator
variable {ε : Type}

/-- The clients on trainer seats, in order, from an index on. -/
def trainerNodesFrom (P : Platform) (sel : CommitteeSelection) : Nat → List Client → Exec ε Panic (List Client)
  | _, [] => .ok []
  | i, client :: clients => do
    let proof ← sel.getCommittee P i
    let nodes ← trainerNodesFrom P sel (i + 1) clients
    match proof.committee with
    | .trainer => .ok (client :: nodes)
    | .verifier | .tieBreaker => .ok nodes

/-- The batch of trainer `i`, which starts at `current`, and where the next one starts; no batch if there is no data left
(the body of both loops). -/
def nextBatch (baseSize remainder i current : Nat) : Exec ε Panic (Option (BatchId × Nat)) := do
  let nodeBatchSize ← addU 64 baseSize (if i < remainder then 1 else 0)
  if 0 < nodeBatchSize then do
    let sum ← addU 64 current nodeBatchSize
    let endIndex ← subU sum 1
    let batchId ← ClosedInterval.new current endIndex
    let next ← addU 64 endIndex 1
    .ok (some (batchId, next))
  else
    .ok none

/-- The loop of `assign_data_for_state` from trainer `i` on. -/
def assignFrom (baseSize remainder : Nat) :
    Nat → Nat → SortedMap BatchId NodeIdentity → List Client → Exec ε Panic (SortedMap BatchId NodeIdentity)
  | _, _, assignments, [] => .ok assignments
  | i, current, assignments, node :: nodes => do
    match ← nextBatch baseSize remainder i current with
    | some (batchId, next) =>
      assignFrom baseSize remainder (i + 1) next (SortedMap.insert batchId node.id assignments) nodes
    | none => assignFrom baseSize remainder (i + 1) current assignments nodes

/-- Cut the batch of the current round up among the trainers. -/
def assignDataForState (P : Platform) (c : Coordinator) (sel : CommitteeSelection) :
    Exec ε Panic (SortedMap BatchId NodeIdentity) := do
  let trainerNodes ← trainerNodesFrom P sel 0 c.epochState.clients.toList
  if trainerNodes = [] then
    .ok []
  else do
    let trainerNodes := deterministicShuffle trainerNodes c.currentRound.randomSeed
    let totalSize ← c.getTargetGlobalBatchSize P (some c.currentRound)
    let numTrainers := trainerNodes.length
    assignFrom (totalSize / numTrainers) (totalSize % numTrainers) 0 c.currentRound.dataIndex [] trainerNodes

/-- The loop of `get_batch_ids_for_round` over the trainers that are left. -/
def batchIdsFrom (baseSize remainder end_ : Nat) : Nat → List Nat → Exec ε Panic (List BatchId)
  | _, [] => .ok []
  | current, i :: is => do
    match ← nextBatch baseSize remainder i current with
    | some (batchId, next) =>
      if end_ ≤ next then
        .ok [batchId]
      else do
        let batchIds ← batchIdsFrom baseSize remainder end_ next is
        .ok (batchId :: batchIds)
    | none => batchIdsFrom baseSize remainder end_ current is

/-- The batches of a round among a number of trainers. -/
def getBatchIdsForRound (P : Platform) (round : Round) (c : Coordinator) (numTrainerNodes : Nat) :
    Exec ε Panic (List BatchId) := do
  let totalSize ← c.getTargetGlobalBatchSize P (some round)
  let end_ ← addU 64 round.dataIndex totalSize
  Exec.ensure (numTrainerNodes ≠ 0) .divisionByZero
  batchIdsFrom (totalSize / numTrainerNodes) (totalSize % numTrainerNodes) end_ round.dataIndex
    (List.range numTrainerNodes)

/-- One iteration of the loop of `get_data_index_for_step`: the batch of a step is added. -/
def nextDataIndex (P : Platform) (c : Coordinator) (dataIndex : Nat) : Exec ε Panic Nat := do
  let tokensProcessed ← mulU 64 dataIndex c.getSequenceLength
  addU 64 dataIndex (c.config.getBatchSize P tokensProcessed)

def dataIndexAfter (P : Platform) (c : Coordinator) : Nat → Exec ε Panic Nat
  | 0 => .ok 0
  | n + 1 => do
    let dataIndex ← c.dataIndexAfter P n
    c.nextDataIndex P dataIndex

def getDataIndexForStep (P : Platform) (c : Coordinator) (targetStep : Nat) : Exec ε Panic Nat :=
  if targetStep ≤ 1 ∨ c.config.totalSteps < targetStep then .ok 0
  else c.dataIndexAfter P (targetStep - 1)

section DataIndex
variable {P : Platform} {c c' : Coordinator} {n : Nat}

lemma dataIndexAfter_congr (hc : c'.config = c.config) (hs : c'.getSequenceLength = c.getSequenceLength) :
    (c'.dataIndexAfter P n : Exec ε Panic Nat) = c.dataIndexAfter P n := by
  induction n with
  | zero => rfl
  | succ n ih => simp only [dataIndexAfter, ih, nextDataIndex, hc, hs]

lemma getDataIndexForStep_succ (h : n = 0 ∨ n + 1 ≤ c.config.totalSteps) :
    (c.getDataIndexForStep P (n + 1) : Exec ε Panic Nat) = c.dataIndexAfter P n := by
  unfold getDataIndexForStep
  cases n with
  | zero => rfl
  | succ n => rw [if_neg (by omega), Nat.add_sub_cancel]

end DataIndex
end Leviathan.Coordinator
