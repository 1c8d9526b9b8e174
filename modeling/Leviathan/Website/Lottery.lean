import Leviathan.Lib.Text
import Leviathan.Coordinator.Lottery

/-!
# The dashboard's witness lottery

Model of `website/backend/src/witness.ts`, which draws the witnesses of a round a second time, in TypeScript, to show
them on the dashboard.

The byte strings (`Uint8Array`) are lists, the `bigint` values natural numbers: an index is checked against the count
first, so the difference in a round is never negative. A `number` is exact below `2 ^ 53`.
-/

namespace Leviathan.Website

/-- The hash of the concatenated parts. -/
def sha256v (H : Sha256) (parts : List Bytes) : Bytes := (H parts.flatten).bytes

/-- The number with the given bytes, least significant first (`DataView.getBigUint64` on eight bytes). -/
def ofLeBytes : Bytes → Nat
  | [] => 0
  | byte :: rest => byte.toNat + 256 * ofLeBytes rest

def shuffleRoundCount : Nat := 90

/-- One iteration of the loop of `computeShuffledIndex`. -/
def shuffleRound (H : Sha256) (indexCount : Nat) (seed : Bytes) (currentIndex currentRound : Nat) : Nat :=
  let roundBytes := [BitVec.ofNat 8 currentRound]
  let hashResult := sha256v H [seed, roundBytes]
  let pivot := ofLeBytes (hashResult.take 8) % indexCount
  let flip := (pivot + indexCount - currentIndex) % indexCount
  let position := if currentIndex ≥ flip then currentIndex else flip
  -- `setUint32` keeps the low four bytes
  let positionDiv256 := leBytes 4 (position / 256)
  let source := sha256v H [seed, roundBytes, positionDiv256]
  -- reading past the end would give `undefined`, which shifts like 0
  let byte := (source[position % 256 / 8]?.getD 0).toNat
  let bit := (byte >>> (position % 8)) % 2
  if bit = 1 then flip else currentIndex

def computeShuffledIndex (H : Sha256) (index indexCount : Nat) (seed : Bytes) : Except Text Nat :=
  if index ≥ indexCount then
    .error "Index out of bounds".toList
  else
    .ok ((List.range shuffleRoundCount).foldl (shuffleRound H indexCount seed) index)

/-- TypeScript `bigIntToLeU64Bytes`; `setBigUint64` keeps the low eight bytes. -/
def bigIntToLeU64Bytes (value : Nat) : Bytes := leBytes 8 value

def witnessSalt : Bytes := [0x77, 0x69, 0x74, 0x6e, 0x65, 0x73, 0x73]

def isClientWitness (H : Sha256) (nodeIndex roundSeed numTotalNodes numWitnessNodes : Nat) : Except Text Bool := do
  let realRoundSeed := sha256v H [bigIntToLeU64Bytes roundSeed]
  let witnessShuffleSeed := sha256v H [realRoundSeed, witnessSalt]
  let shuffledPosition ← computeShuffledIndex H nodeIndex numTotalNodes witnessShuffleSeed
  if numWitnessNodes = 0 then
    .ok true
  else
    .ok (decide (shuffledPosition < numWitnessNodes))

lemma ofLeBytes_leBytes (n x : Nat) : ofLeBytes (leBytes n x) = x % 256 ^ n := by
  induction n generalizing x with
  | zero => rw [Nat.pow_zero, Nat.mod_one, leBytes, ofLeBytes]
  | succ n ih =>
    rw [leBytes, ofLeBytes, ih, BitVec.toNat_ofNat, pow_succ' 256 n, Nat.mod_mul]

lemma ofLeBytes_take (b : Bytes32) : ofLeBytes (b.bytes.take 8) = b.toNat % 2 ^ 64 := by
  rw [Bytes32.bytes, take_leBytes _ (by decide), ofLeBytes_leBytes, show 256 ^ 8 = 2 ^ 64 from rfl]

lemma toNat_getD_bytes (b : Bytes32) {i : Nat} (h : i < 32) : (b.bytes[i]?.getD 0).toNat = b.byte i := by
  rw [Bytes32.bytes, getElem?_leBytes _ h, Option.getD_some, BitVec.toNat_ofNat, Bytes32.byte]

lemma shuffleRound_eq (H : Sha256) (seed : Bytes32) (count x round : Nat) :
    shuffleRound H count seed.bytes x round = swapRound H seed count x round := by
  have hsum : ∀ bytes, sha256v H [seed.bytes, [BitVec.ofNat 8 round], bytes]
      = (H (seed.bytes ++ leBytes 1 round ++ bytes)).bytes := by
    intro bytes
    simp [sha256v, leBytes]
  have hpivot : sha256v H [seed.bytes, [BitVec.ofNat 8 round]] = (H (seed.bytes ++ leBytes 1 round)).bytes := by
    simp [sha256v, leBytes]
  have hmax : ∀ a b : Nat, (if a ≥ b then a else b) = max a b := by
    intro a b
    split <;> omega
  have hindex : ∀ position, position % 256 / 8 < 32 := by omega
  simp only [shuffleRound, hsum, hpivot, ofLeBytes_take, hmax, toNat_getD_bytes _ (hindex _), Nat.shiftRight_eq_div_pow]
  simp only [swapRound, swapFlip, swapPivot, swapBit, beq_iff_eq]

lemma computeShuffledIndex_eq (H : Sha256) (seed : Bytes32) {count index : Nat} (hi : index < count) :
    computeShuffledIndex H index count seed.bytes = .ok (shuffled H seed count index) := by
  have hround : shuffleRound H count seed.bytes = swapRound H seed count := by
    funext x round
    exact shuffleRound_eq H seed count x round
  rw [computeShuffledIndex, if_neg (Nat.not_le.2 hi), hround]
  rfl

lemma isClientWitness_eq {P : Platform} {tb wn vp total seed i : Nat} {s : CommitteeSelection}
    (h : CommitteeSelection.new P tb wn vp total seed = .ok s) (hi : i < total) :
    isClientWitness P.sha256 i seed total wn = .ok ((s.election P i).witness || wn == 0) := by
  obtain ⟨_, _, rfl⟩ := CommitteeSelection.new_eq_ok h
  have hseed : sha256v P.sha256 [sha256v P.sha256 [bigIntToLeU64Bytes seed], witnessSalt]
      = (P.sha256 ((P.sha256 (leBytes 8 seed)).bytes ++ Leviathan.witnessSalt)).bytes := by
    simp [sha256v, bigIntToLeU64Bytes, witnessSalt, Leviathan.witnessSalt]
  rw [isClientWitness]
  simp only [hseed]
  rw [computeShuffledIndex_eq _ _ hi]
  rcases Nat.eq_zero_or_pos wn with rfl | hwn
  · rw [beq_self_eq_true, Bool.or_true]
    rfl
  · have hne : wn ≠ 0 := Nat.ne_of_gt hwn
    rw [beq_eq_false_iff_ne.2 hne, Bool.or_false]
    simp only [CommitteeSelection.election, CommitteeSelection.getWitnessFromPosition, if_neg hne]
    rfl

/-- For every draw of the chain both lotteries answer for every client. The answers agree if and only if a number of
witnesses is configured or all clients fit into a round: without a number the dashboard shows all of them. -/
theorem lottery_agrees_iff {P : Platform} {tb wn vp total seed : Nat} {s : CommitteeSelection}
    (h : CommitteeSelection.new P tb wn vp total seed = .ok s) (ht : total < 2 ^ 53) :
    (∀ i < total, ∃ (proof : WitnessProof) (shown : Bool),
        (s.getWitness P i : Exec CoordinatorError Panic WitnessProof) = .ok proof
        ∧ isClientWitness P.sha256 i seed total wn = .ok shown
        ∧ (shown = true ↔ proof.witness = true ∨ wn = 0))
      ∧ ((∀ i < total, ∃ proof : WitnessProof,
          (s.getWitness P i : Exec CoordinatorError Panic WitnessProof) = .ok proof
          ∧ isClientWitness P.sha256 i seed total wn = .ok proof.witness)
        ↔ wn ≠ 0 ∨ total ≤ solanaMaxNumWitnesses) := by
  obtain ⟨htotal, hwitnesses⟩ : s.totalNodes = total ∧ s.witnessNodes = wn := by
    obtain ⟨_, _, rfl⟩ := CommitteeSelection.new_eq_ok h
    exact ⟨rfl, rfl⟩
  have h63 : s.totalNodes ≤ 2 ^ 63 := by omega
  have hchain : ∀ i < total, (s.getWitness P i : Exec CoordinatorError Panic WitnessProof) = .ok (s.election P i) :=
    fun i hi => CommitteeSelection.getWitness_eq h63 (htotal ▸ hi)
  refine ⟨fun i hi => ⟨_, _, hchain i hi, isClientWitness_eq h hi, by simp⟩, ?_, ?_⟩
  · intro hagree
    refine or_iff_not_imp_left.2 fun hwn => ?_
    have hwn : wn = 0 := Classical.not_not.1 hwn
    -- all are shown, so all are elected, and no more are elected than fit
    have hall : ∀ i < total, (s.election P i).witness = true := by
      intro i hi
      obtain ⟨proof, hproof, hshown⟩ := hagree i hi
      cases (hchain i hi).symm.trans hproof
      rw [isClientWitness_eq h hi] at hshown
      simpa [hwn] using hshown
    have hcount : Nat.count (fun i => (s.election P i).witness = true) total = total :=
      Nat.count_iff_forall.2 hall
    have helected := CommitteeSelection.count_election (P := P) (s := s)
    rw [htotal, hcount, hwitnesses, if_pos hwn] at helected
    exact helected ▸ min_le_right _ _
  · intro hfit
    have hshown : ∀ i < total, ((s.election P i).witness || wn == 0) = (s.election P i).witness := by
      intro i hi
      rcases hfit with hwn | hfit
      · rw [beq_eq_false_iff_ne.2 hwn, Bool.or_false]
      · by_cases hwn : wn = 0
        · have hposition : s.position P Leviathan.witnessSalt i < solanaMaxNumWitnesses :=
            (CommitteeSelection.position_lt _ (htotal ▸ hi)).trans_le (htotal ▸ hfit)
          simp [CommitteeSelection.election, CommitteeSelection.getWitnessFromPosition, hwitnesses, hwn, hposition]
        · rw [beq_eq_false_iff_ne.2 hwn, Bool.or_false]
    intro i hi
    exact ⟨_, hchain i hi, (isClientWitness_eq h hi).trans (congrArg _ (hshown i hi))⟩

/-- Forty clients with four witnesses: website and program elect the same ones. -/
theorem lottery_agrees_configured :
    CommitteeSelection.new .zero 0 4 0 40 9 = .ok ⟨0, 0, 40, 4, Platform.zero.sha256 (leBytes 8 9)⟩
    ∧ ∀ i < 40, ∃ proof : WitnessProof,
      (CommitteeSelection.getWitness .zero ⟨0, 0, 40, 4, Platform.zero.sha256 (leBytes 8 9)⟩ i
        : Exec CoordinatorError Panic WitnessProof) = .ok proof
      ∧ isClientWitness Platform.zero.sha256 i 9 40 4 = .ok proof.witness := by
  have h : CommitteeSelection.new .zero 0 4 0 40 9 = .ok ⟨0, 0, 40, 4, Platform.zero.sha256 (leBytes 8 9)⟩ := rfl
  exact ⟨h, (lottery_agrees_iff h (by decide)).2.2 (.inl (by decide))⟩

/-- Thirty-three clients, no number of witnesses configured: the dashboard shows the client that is drawn last as a
witness, the chain does not elect it. -/
theorem lottery_shows_unelected :
    CommitteeSelection.new .zero 0 0 0 33 9 = .ok ⟨0, 0, 33, 0, Platform.zero.sha256 (leBytes 8 9)⟩
      ∧ (CommitteeSelection.getWitness .zero ⟨0, 0, 33, 0, Platform.zero.sha256 (leBytes 8 9)⟩ 32
        : Exec CoordinatorError Panic WitnessProof) = .ok ⟨32, 32, false⟩
      ∧ isClientWitness Platform.zero.sha256 32 9 33 0 = .ok true := by
  refine ⟨rfl, ?_, ?_⟩
  · decide +kernel
  · decide +kernel

end Leviathan.Website
