import Leviathan.Core.SwapOrNot
import Leviathan.Coordinator.State

/-!
# Committee selection

Model of `shared/coordinator/src/committee_selection.rs`: the seats of a round are drawn by shuffling
the client indices with a seed derived from the round's seed. The first positions are tie-breakers, the
next ones verifiers, the rest trainers; a second shuffle with another salt draws the witnesses.

`CommitteeSelection.position` is the position an index gets when it is in range, which is the only case
in which the Rust shuffle returns at all (`computeShuffledIndex_eq`, `position_inj`).
-/

namespace Leviathan
open Exec

def committeeSalt : Bytes := [0x63, 0x6f, 0x6d, 0x6d, 0x69, 0x74, 0x74, 0x65, 0x65]

def witnessSalt : Bytes := [0x77, 0x69, 0x74, 0x6e, 0x65, 0x73, 0x73]

/-- The kinds of seat. -/
inductive Committee where
  | tieBreaker
  | verifier
  | trainer
deriving DecidableEq, Repr

/-- A claimed seat. -/
structure CommitteeProof where
  committee : Committee
  position : Nat
  index : Nat
deriving DecidableEq, Repr

/-- The draw of a round. -/
structure CommitteeSelection where
  tieBreakerNodes : Nat
  verifierNodes : Nat
  totalNodes : Nat
  witnessNodes : Nat
  seed : Bytes32
deriving DecidableEq, Repr

namespace CommitteeSelection
variable {ε : Type} {P : Platform} {s : CommitteeSelection} {index : Nat} {salt : Bytes}

/-- Set up a draw. -/
def new (P : Platform) (tieBreakerNodes witnessNodes verificationPercent totalNodes seed : Nat) :
    Exec CoordinatorError Panic CommitteeSelection := do
  Exec.require (totalNodes < 2 ^ 64 - 1) .invalidCommitteeSelection
  Exec.require (tieBreakerNodes ≤ totalNodes) .invalidCommitteeSelection
  Exec.require (witnessNodes = 0 ∨ witnessNodes ≤ totalNodes) .invalidCommitteeSelection
  Exec.require (verificationPercent ≤ 100) .invalidCommitteeSelection
  let freeNodes := totalNodes - tieBreakerNodes
  let product ← mulU 64 freeNodes verificationPercent
  .ok
    { tieBreakerNodes
      verifierNodes := product / 100
      totalNodes
      witnessNodes
      seed := P.sha256 (leBytes 8 seed) }

/-- The round an offset names, `0` being the current one. -/
def roundAt (c : Coordinator) (offset : Int) : Option Round :=
  match offset with
  | -2 => c.previousPreviousRound
  | -1 => c.previousRound
  | 0 => some c.currentRound
  | _ => none

/-- The draw of a round with a given number of tie-breakers (Rust
`from_coordinator_with_tie_breakers`). -/
def fromCoordinatorWithTieBreakers (P : Platform) (c : Coordinator) (offset : Int)
    (tieBreakerNodes : Nat) : Exec CoordinatorError Panic CommitteeSelection := do
  let round ← Exec.okOr (roundAt c offset) .noActiveRound
  new P tieBreakerNodes c.config.witnessNodes c.config.verificationPercent round.clientsLen
    round.randomSeed

/-- The draw of a round with the round's own number of tie-breakers. -/
def fromCoordinator (P : Platform) (c : Coordinator) (offset : Int) :
    Exec CoordinatorError Panic CommitteeSelection := do
  let round ← Exec.okOr (roundAt c offset) .noActiveRound
  new P round.tieBreakerTasks c.config.witnessNodes c.config.verificationPercent round.clientsLen
    round.randomSeed

/-- The seed of one of the two lotteries. -/
def saltedSeed (P : Platform) (s : CommitteeSelection) (salt : Bytes) : Bytes32 :=
  P.sha256 (s.seed.bytes ++ salt)

def computeShuffledIndex (P : Platform) (s : CommitteeSelection) (index : Nat) (salt : Bytes) :
    Exec ε Panic Nat :=
  Leviathan.computeShuffledIndex P.sha256 index s.totalNodes (s.saltedSeed P salt)

def getCommitteeFromPosition (s : CommitteeSelection) (position : Nat) : Committee :=
  if position < s.tieBreakerNodes then
    .tieBreaker
  else if position < s.tieBreakerNodes + s.verifierNodes then
    .verifier
  else
    .trainer

def getWitnessFromPosition (s : CommitteeSelection) (position : Nat) : Bool :=
  if s.witnessNodes = 0 then position < solanaMaxNumWitnesses else position < s.witnessNodes

def getCommittee (P : Platform) (s : CommitteeSelection) (index : Nat) :
    Exec ε Panic CommitteeProof := do
  let position ← s.computeShuffledIndex P index committeeSalt
  .ok ⟨s.getCommitteeFromPosition position, position, index⟩

def getWitness (P : Platform) (s : CommitteeSelection) (index : Nat) : Exec ε Panic WitnessProof := do
  let position ← s.computeShuffledIndex P index witnessSalt
  .ok ⟨position, index, s.getWitnessFromPosition position⟩

def verifyClient (id : NodeIdentity) (index : Nat) (clients : List Client) : Bool :=
  match clients[index]? with
  | some client => client.id == id
  | none => false

/-- Whether a claimed seat is the one drawn. -/
def verifyCommittee (P : Platform) (s : CommitteeSelection) (proof : CommitteeProof) :
    Exec ε Panic Bool := do
  let position ← s.computeShuffledIndex P proof.index committeeSalt
  .ok (proof.position == position && proof.committee == s.getCommitteeFromPosition position)

/-- Whether a claimed witness seat is the one drawn. -/
def verifyWitness (P : Platform) (s : CommitteeSelection) (proof : WitnessProof) :
    Exec ε Panic Bool := do
  let position ← s.computeShuffledIndex P proof.index witnessSalt
  .ok (proof.position == position && proof.witness == s.getWitnessFromPosition position)

/-- Whether a client holds a claimed seat. -/
def verifyCommitteeForClient (P : Platform) (s : CommitteeSelection) (id : NodeIdentity)
    (proof : CommitteeProof) (clients : List Client) : Exec ε Panic Bool :=
  if verifyClient id proof.index clients then s.verifyCommittee P proof else .ok false

/-- Whether a client holds a claimed witness seat. -/
def verifyWitnessForClient (P : Platform) (s : CommitteeSelection) (id : NodeIdentity)
    (proof : WitnessProof) (clients : List Client) : Exec ε Panic Bool :=
  if verifyClient id proof.index clients then s.verifyWitness P proof else .ok false

def getNumTrainerNodes (s : CommitteeSelection) : Exec ε Panic Nat := do
  let rest ← subU s.totalNodes s.tieBreakerNodes
  subU rest s.verifierNodes

/-- The position an index in range gets. -/
def position (P : Platform) (s : CommitteeSelection) (salt : Bytes) (index : Nat) : Nat :=
  shuffled P.sha256 (s.saltedSeed P salt) s.totalNodes index

lemma index_lt_of_computeShuffledIndex {x : Nat}
    (h : (s.computeShuffledIndex P index salt : Exec ε Panic Nat) = .ok x) : index < s.totalNodes := by
  unfold computeShuffledIndex Leviathan.computeShuffledIndex at h
  simp only [bind_eq_ok, ensure_eq_ok] at h
  obtain ⟨_, hi, _⟩ := h
  exact hi

lemma computeShuffledIndex_eq (salt : Bytes) (ht : s.totalNodes ≤ 2 ^ 63) (hi : index < s.totalNodes) :
    (s.computeShuffledIndex P index salt : Exec ε Panic Nat) = .ok (s.position P salt index) :=
  Leviathan.computeShuffledIndex_eq _ _ ht hi

lemma position_inj {i j : Nat} (hi : i < s.totalNodes) (hj : j < s.totalNodes)
    (e : s.position P salt i = s.position P salt j) : i = j :=
  shuffled_inj _ _ hi hj e

lemma new_eq_ok {tb wn vp tn seed : Nat} (h : new P tb wn vp tn seed = .ok s) :
    tb ≤ tn ∧ vp ≤ 100 ∧ s = ⟨tb, (tn - tb) * vp / 100, tn, wn, P.sha256 (leBytes 8 seed)⟩ := by
  simp only [new, bind_eq_ok, require_eq_ok, mulU_eq_ok, Except.ok.injEq] at h
  obtain ⟨_, _, _, htb, _, _, _, hvp, p, ⟨_, rfl⟩, rfl⟩ := h
  exact ⟨htb, hvp, rfl⟩

end CommitteeSelection
end Leviathan
