import Leviathan.Lib.Counting
import Leviathan.Coordinator.Machine

/-!
# The two lotteries of a round

Both lotteries of `shared/coordinator/src/committee_selection.rs` read a seat off the position of an index in a
shuffle. The shuffle sends the indices to distinct positions, so the seats are dealt out exactly
(`count_seat`, `count_election`).
-/

namespace Leviathan.CommitteeSelection
open Exec
variable {ε : Type} {P : Platform} {s : CommitteeSelection} {i wn vp total tb seed : Nat}

/-- The seat an index in range gets. -/
def seat (P : Platform) (s : CommitteeSelection) (index : Nat) : CommitteeProof :=
  ⟨s.getCommitteeFromPosition (s.position P committeeSalt index), s.position P committeeSalt index, index⟩

/-- The witness seat an index in range gets. -/
def election (P : Platform) (s : CommitteeSelection) (index : Nat) : WitnessProof :=
  ⟨s.position P witnessSalt index, index, s.getWitnessFromPosition (s.position P witnessSalt index)⟩

lemma position_lt (salt : Bytes) (hi : i < s.totalNodes) : s.position P salt i < s.totalNodes :=
  shuffled_lt _ _ hi

lemma getCommittee_eq (ht : s.totalNodes ≤ 2 ^ 63) (hi : i < s.totalNodes) :
    (s.getCommittee P i : Exec ε Panic CommitteeProof) = .ok (s.seat P i) := by
  unfold getCommittee
  rw [computeShuffledIndex_eq committeeSalt ht hi]
  rfl

lemma getWitness_eq (ht : s.totalNodes ≤ 2 ^ 63) (hi : i < s.totalNodes) :
    (s.getWitness P i : Exec ε Panic WitnessProof) = .ok (s.election P i) := by
  unfold getWitness
  rw [computeShuffledIndex_eq witnessSalt ht hi]
  rfl

lemma verifyCommittee_iff {proof : CommitteeProof} (ht : s.totalNodes ≤ 2 ^ 63) (hi : proof.index < s.totalNodes) :
    (s.verifyCommittee P proof : Exec ε Panic Bool) = .ok true ↔ proof = s.seat P proof.index := by
  unfold verifyCommittee
  rw [computeShuffledIndex_eq committeeSalt ht hi]
  obtain ⟨committee, position, index⟩ := proof
  simp [seat, and_comm]

lemma verifyWitness_iff {proof : WitnessProof} (ht : s.totalNodes ≤ 2 ^ 63) (hi : proof.index < s.totalNodes) :
    (s.verifyWitness P proof : Exec ε Panic Bool) = .ok true ↔ proof = s.election P proof.index := by
  unfold verifyWitness
  rw [computeShuffledIndex_eq witnessSalt ht hi]
  obtain ⟨position, index, witness⟩ := proof
  simp [election]

lemma count_position {p : Nat → Prop} [DecidablePred p] (salt : Bytes) :
    Nat.count (fun i => p (s.position P salt i)) s.totalNodes = Nat.count p s.totalNodes :=
  count_comp (fun _ hi => position_lt salt hi) fun _ hi _ hj e => position_inj hi hj e

/-- The first and the last position of the seats of a kind. -/
def block (s : CommitteeSelection) : Committee → Nat × Nat
  | .tieBreaker => (0, s.tieBreakerNodes)
  | .verifier => (s.tieBreakerNodes, s.tieBreakerNodes + s.verifierNodes)
  | .trainer => (s.tieBreakerNodes + s.verifierNodes, s.totalNodes)

lemma getCommitteeFromPosition_iff {x : Nat} (hx : x < s.totalNodes) (kind : Committee) :
    s.getCommitteeFromPosition x = kind ↔ (s.block kind).1 ≤ x ∧ x < (s.block kind).2 := by
  unfold getCommitteeFromPosition
  cases kind with
  | tieBreaker =>
    show _ ↔ 0 ≤ x ∧ x < s.tieBreakerNodes
    split <;> [skip; split] <;> simp <;> omega
  | verifier =>
    show _ ↔ s.tieBreakerNodes ≤ x ∧ x < s.tieBreakerNodes + s.verifierNodes
    split <;> [skip; split] <;> simp <;> omega
  | trainer =>
    show _ ↔ s.tieBreakerNodes + s.verifierNodes ≤ x ∧ x < s.totalNodes
    split <;> [skip; split] <;> simp <;> omega

lemma verifierNodes_pos (h : (s.seat P i).committee = .verifier) : 0 < s.verifierNodes := by
  have h : s.getCommitteeFromPosition (s.position P committeeSalt i) = .verifier := h
  unfold getCommitteeFromPosition at h
  split at h
  · cases h
  · split at h
    · omega
    · cases h

lemma count_seat (h : s.tieBreakerNodes + s.verifierNodes ≤ s.totalNodes) (kind : Committee) :
    Nat.count (fun i => (s.seat P i).committee = kind) s.totalNodes = (s.block kind).2 - (s.block kind).1 := by
  show Nat.count (fun i => s.getCommitteeFromPosition (s.position P committeeSalt i) = kind) _ = _
  rw [count_position (p := fun x => s.getCommitteeFromPosition x = kind)]
  refine count_block ?_ fun x hx => getCommitteeFromPosition_iff hx kind
  cases kind with
  | tieBreaker => exact (Nat.le_add_right _ _).trans h
  | verifier => exact h
  | trainer => exact le_rfl

lemma count_election : Nat.count (fun i => (s.election P i).witness = true) s.totalNodes
    = min s.totalNodes (if s.witnessNodes = 0 then solanaMaxNumWitnesses else s.witnessNodes) := by
  show Nat.count (fun i => s.getWitnessFromPosition (s.position P witnessSalt i) = true) _ = _
  rw [count_position (p := fun x => s.getWitnessFromPosition x = true)]
  refine (count_block (a := 0) (min_le_left _ _) fun x hx => ?_).trans (Nat.sub_zero _)
  rw [lt_min_iff]
  by_cases hw : s.witnessNodes = 0
  · simp [getWitnessFromPosition, hw, hx]
  · simp [getWitnessFromPosition, hw, hx]

lemma seats_le (h : new P tb wn vp total seed = .ok s) : s.tieBreakerNodes + s.verifierNodes ≤ s.totalNodes := by
  obtain ⟨htb, hvp, rfl⟩ := new_eq_ok h
  have hshare : (total - tb) * vp / 100 ≤ total - tb := by
    apply Nat.div_le_of_le_mul
    rw [Nat.mul_comm]
    exact Nat.mul_le_mul_right _ hvp
  show tb + (total - tb) * vp / 100 ≤ total
  omega

lemma witnessNodes_le_of_new (h : new P tb wn vp total seed = .ok s) : wn ≤ total := by
  simp only [new, bind_eq_ok, require_eq_ok] at h
  obtain ⟨_, _, _, _, _, hw, _⟩ := h
  omega

lemma new_of (seed : Nat) (ht : total < 2 ^ 32) (htb : tb ≤ total) (hw : wn ≤ total) (hv : vp ≤ 100) :
    new P tb wn vp total seed = .ok ⟨tb, (total - tb) * vp / 100, total, wn, P.sha256 (leBytes 8 seed)⟩ := by
  have hmul : (total - tb) * vp < 2 ^ 64 :=
    lt_of_le_of_lt (Nat.mul_le_mul (Nat.sub_le _ _) hv) (by omega)
  simp only [new, bind_eq_ok, require_eq_ok, mulU_eq_ok]
  exact ⟨(), by omega, (), htb, (), .inr hw, (), hv, _, ⟨hmul, rfl⟩, rfl⟩

lemma trainers_iff (seed : Nat) (ht : total < 2 ^ 32) (hpos : 0 < total) (hw : wn ≤ total) :
    (∃ s n, new P 0 wn vp total seed = .ok s ∧ (s.getNumTrainerNodes : Exec ε Panic Nat) = .ok n ∧ 0 < n)
      ↔ vp < 100 := by
  constructor
  · rintro ⟨s, n, hnew, hn, hpos⟩
    obtain ⟨_, hv, rfl⟩ := new_eq_ok hnew
    simp only [getNumTrainerNodes, bind_eq_ok, subU_eq_ok] at hn
    obtain ⟨_, ⟨_, rfl⟩, _, rfl⟩ := hn
    refine lt_of_le_of_ne hv fun e => ?_
    -- all seats are verifier seats
    subst e
    rw [Nat.mul_div_cancel _ (by decide), Nat.sub_zero, Nat.sub_self] at hpos
    exact hpos.false
  · intro hv
    have hshare : total * vp / 100 < total := by
      apply Nat.div_lt_of_lt_mul
      rw [Nat.mul_comm]
      exact Nat.mul_lt_mul_of_pos_right hv hpos
    refine ⟨_, total - total * vp / 100, new_of seed ht (Nat.zero_le _) hw hv.le, ?_, by omega⟩
    simp only [getNumTrainerNodes, bind_eq_ok, subU_eq_ok, Nat.sub_zero]
    exact ⟨_, ⟨Nat.zero_le _, rfl⟩, hshare.le, rfl⟩

/-- The seats of a draw that was set up: as many tie-breakers and verifiers as were asked for, at distinct positions, and
trainers on the others; as many witnesses as were asked for, or as fit into a round if no number was given. A proof for an
index in range is accepted if and only if it is the generated one. -/
theorem committee_partition {tb wn vp total seed : Nat} (h : new P tb wn vp total seed = .ok s)
    (ht : total < 2 ^ 32) :
    ∃ (seat : Nat → CommitteeProof) (election : Nat → WitnessProof),
      (∀ i < total, (s.getCommittee P i : Exec ε Panic CommitteeProof) = .ok (seat i)
        ∧ (s.getWitness P i : Exec ε Panic WitnessProof) = .ok (election i))
      ∧ (∀ i < total, ∀ j < total, (seat i).position = (seat j).position → i = j)
      ∧ (∀ i < total, ∀ j < total, (election i).position = (election j).position → i = j)
      ∧ Nat.count (fun i => (seat i).committee = .tieBreaker) total = s.tieBreakerNodes
      ∧ Nat.count (fun i => (seat i).committee = .verifier) total = s.verifierNodes
      ∧ Nat.count (fun i => (seat i).committee = .trainer) total = total - s.tieBreakerNodes - s.verifierNodes
      ∧ Nat.count (fun i => (election i).witness = true) total
        = min total (if wn = 0 then solanaMaxNumWitnesses else wn)
      ∧ (∀ proof : CommitteeProof, proof.index < total →
        ((s.verifyCommittee P proof : Exec ε Panic Bool) = .ok true ↔ proof = seat proof.index))
      ∧ ∀ proof : WitnessProof, proof.index < total →
        ((s.verifyWitness P proof : Exec ε Panic Bool) = .ok true ↔ proof = election proof.index) := by
  have hle := seats_le h
  have hcount := count_seat (P := P) hle
  obtain ⟨_, _, rfl⟩ := new_eq_ok h
  have h63 : total ≤ 2 ^ 63 := by omega
  refine ⟨seat P _, election P _, fun i hi => ⟨getCommittee_eq h63 hi, getWitness_eq h63 hi⟩,
    fun i hi j hj e => position_inj hi hj e, fun i hi j hj e => position_inj hi hj e, hcount .tieBreaker, ?_, ?_,
    count_election, fun proof hi => verifyCommittee_iff h63 hi, fun proof hi => verifyWitness_iff h63 hi⟩
  · exact (hcount .verifier).trans (Nat.add_sub_cancel_left _ _)
  · exact (hcount .trainer).trans (Nat.sub_add_eq _ _ _)

/-- The draw of five clients with a tie-breaker and half of the rest as verifiers. -/
def fiveClients : CommitteeSelection := ⟨1, 2, 5, 0, Platform.zero.sha256 (leBytes 8 7)⟩

/-- Of five clients one is the tie-breaker, two are verifiers and two are trainers. -/
theorem committee_partition_five : new .zero 1 0 50 5 7 = .ok fiveClients
    ∧ ∃ seat : Nat → CommitteeProof,
      (∀ i < 5, (fiveClients.getCommittee .zero i : Exec CoordinatorError Panic CommitteeProof) = .ok (seat i))
      ∧ Nat.count (fun i => (seat i).committee = .trainer) 5 = 2 := by
  have h : new .zero 1 0 50 5 7 = .ok fiveClients := by rfl
  obtain ⟨seat, _, hseat, _, _, _, _, hcount, _⟩ := committee_partition (ε := CoordinatorError) h (by decide)
  exact ⟨h, seat, fun i hi => (hseat i hi).1, hcount⟩

end Leviathan.CommitteeSelection
