import Leviathan.Coordinator.Machine

/-!
# The consensus commitment of a batch

Model of `select_consensus_commitment_by_witnesses` (`shared/coordinator/src/coordinator.rs`), by which every client
picks the commitment of a batch that it applies. A trainer may have sent several, which arrive in another order at every
client.

If no witness has confirmed two of them, all that matters is whether two commitments can reach the quorum (`scores_eq`).
They need twice the quorum of witnesses (`two_quorums`), which is more than there are for every number of witnesses but
four: `witness_quorum` truncates two thirds of four to two.
-/

namespace Leviathan
open List

/-- What a trainer signs. -/
structure Commitment where
  dataHash : Bytes32
  signature : BitVec 512
deriving DecidableEq, Repr

def Witness.confirms (w : Witness) (c : Commitment) : Bool := w.broadcastBloom.contains c.dataHash.bytes

/-- The last one of the entries with the highest key. -/
def maxByKey {α : Type} (key : α → Nat) : List α → Option α
  | [] => none
  | x :: l =>
    match maxByKey key l with
    | none => some x
    | some y => if key x ≤ key y then some y else some x

namespace Coordinator

/-- The scores after a witness: the first commitment that it has confirmed gains a point. -/
def addScore (commitments : List Commitment) (scores : List Nat) (w : Witness) : List Nat :=
  match commitments.findIdx? w.confirms with
  | some index => scores.modify index (· + 1)
  | none => scores

def scores (commitments : List Commitment) (witnesses : List Witness) : List Nat :=
  witnesses.foldl (addScore commitments) (List.replicate commitments.length 0)

def selectConsensusCommitmentByWitnesses (commitments : List Commitment) (witnesses : List Witness)
    (witnessQuorum : Nat) : Option Nat :=
  (maxByKey Prod.fst ((scores commitments witnesses).zipIdx.filter fun x => witnessQuorum ≤ x.1)).map Prod.snd

end Coordinator

section MaxByKey
variable {α : Type} {key : α → Nat} {l : List α}

lemma maxByKey_eq_none : maxByKey key l = none ↔ l = [] := by
  cases l with
  | nil => exact ⟨fun _ => rfl, fun _ => rfl⟩
  | cons x l =>
    refine ⟨fun h => ?_, by rintro ⟨⟩⟩
    rw [maxByKey] at h
    split at h
    · cases h
    · split at h <;> cases h

lemma mem_of_maxByKey {x : α} (h : maxByKey key l = some x) : x ∈ l := by
  induction l with
  | nil => cases h
  | cons y l ih =>
    rw [maxByKey] at h
    split at h
    · cases h
      exact mem_cons_self
    · rename_i z hz
      split at h
      · cases h
        exact mem_cons_of_mem _ (ih hz)
      · cases h
        exact mem_cons_self

end MaxByKey

namespace Coordinator
variable {commitments : List Commitment} {witnesses : List Witness} {quorum : Nat}

/-- No witness has confirmed two of the commitments. -/
def Unequivocal (commitments : List Commitment) (witnesses : List Witness) : Prop :=
  ∀ w ∈ witnesses, ∀ a ∈ commitments, ∀ b ∈ commitments, w.confirms a = true → w.confirms b = true → a = b

/-- The witnesses of a commitment. -/
def support (witnesses : List Witness) (c : Commitment) : Nat := witnesses.countP (·.confirms c)

lemma getElem?_scores (i : Nat) :
    (scores commitments witnesses)[i]? = if i < commitments.length then
      some (witnesses.countP fun w => commitments.findIdx? w.confirms = some i) else none := by
  -- the induction is on the witnesses, from the last one on
  induction witnesses using List.reverseRecOn with
  | nil =>
    show (List.replicate commitments.length 0)[i]? = _
    rw [getElem?_replicate]
    rfl
  | append_singleton ws w ih =>
    have hstep : scores commitments (ws ++ [w]) = addScore commitments (scores commitments ws) w := by
      simp [scores]
    rw [hstep, addScore, countP_append, countP_singleton]
    split
    · rename_i index hfirst
      rw [getElem?_modify, ih]
      by_cases hi : index = i
      · subst hi
        by_cases hlt : index < commitments.length <;> simp [hlt, hfirst]
      · by_cases hlt : i < commitments.length <;> simp [hlt, hfirst, hi]
    · rename_i hfirst
      rw [ih]
      by_cases hlt : i < commitments.length <;> simp [hlt, hfirst]

lemma findIdx?_confirms (hu : Unequivocal commitments witnesses) (hn : commitments.Nodup) {w : Witness}
    (hw : w ∈ witnesses) {i : Nat} {c : Commitment} (hc : commitments[i]? = some c) :
    commitments.findIdx? w.confirms = some i ↔ w.confirms c = true := by
  obtain ⟨hi, hget⟩ := List.getElem?_eq_some_iff.mp hc
  have hmem : c ∈ commitments := List.mem_of_getElem? hc
  rw [List.findIdx?_eq_some_iff_getElem]
  constructor
  · rintro ⟨_, h, _⟩
    rwa [hget] at h
  · intro h
    refine ⟨hi, by rwa [hget], fun j hj hconf => ?_⟩
    have hjlt : j < commitments.length := hj.trans hi
    have he := hu w hw _ (List.getElem_mem hjlt) c hmem hconf h
    rw [← hget] at he
    exact hj.ne ((hn.getElem_inj_iff).mp he)

lemma scores_eq (hu : Unequivocal commitments witnesses) (hn : commitments.Nodup) :
    scores commitments witnesses = commitments.map (support witnesses) := by
  apply ext_getElem?
  intro i
  rw [getElem?_scores, getElem?_map]
  cases hc : commitments[i]? with
  | none => rw [if_neg (Nat.not_lt.mpr (getElem?_eq_none_iff.mp hc))]; rfl
  | some c =>
    rw [if_pos (List.getElem?_eq_some_iff.mp hc).1, Option.map_some, support]
    congr 1
    refine countP_congr fun w hw => ?_
    rw [decide_eq_true_iff]
    exact findIdx?_confirms hu hn hw hc

def consensusHash (commitments : List Commitment) (witnesses : List Witness) (quorum : Nat) : Option Bytes32 :=
  (selectConsensusCommitmentByWitnesses commitments witnesses quorum).bind fun index =>
    commitments[index]?.map Commitment.dataHash

lemma select_eq_some (hu : Unequivocal commitments witnesses) (hn : commitments.Nodup) {i : Nat}
    (h : selectConsensusCommitmentByWitnesses commitments witnesses quorum = some i) :
    ∃ c, commitments[i]? = some c ∧ quorum ≤ support witnesses c := by
  rw [selectConsensusCommitmentByWitnesses, scores_eq hu hn] at h
  obtain ⟨⟨score, i⟩, hmax, rfl⟩ := Option.map_eq_some_iff.mp h
  obtain ⟨hmem, hq⟩ := mem_filter.mp (mem_of_maxByKey hmax)
  have hget := mem_zipIdx_iff_getElem?.mp hmem
  rw [getElem?_map] at hget
  obtain ⟨c, hc, rfl⟩ := Option.map_eq_some_iff.mp hget
  exact ⟨c, hc, of_decide_eq_true hq⟩

lemma select_eq_none (hu : Unequivocal commitments witnesses) (hn : commitments.Nodup)
    (h : selectConsensusCommitmentByWitnesses commitments witnesses quorum = none) {c : Commitment}
    (hc : c ∈ commitments) : support witnesses c < quorum := by
  rw [selectConsensusCommitmentByWitnesses, scores_eq hu hn, Option.map_eq_none_iff, maxByKey_eq_none,
    filter_eq_nil_iff] at h
  obtain ⟨i, hi⟩ := getElem?_of_mem hc
  have hmem : (support witnesses c, i) ∈ (commitments.map (support witnesses)).zipIdx := by
    rw [mem_zipIdx_iff_getElem?, getElem?_map, hi]
    rfl
  simpa using h _ hmem

lemma two_quorums (hu : Unequivocal commitments witnesses) {a b : Commitment} (ha : a ∈ commitments)
    (hb : b ∈ commitments) (hne : a ≠ b) (hqa : quorum ≤ support witnesses a) (hqb : quorum ≤ support witnesses b) :
    2 * quorum ≤ witnesses.length := by
  have hle : support witnesses b ≤ witnesses.countP fun w => ¬ w.confirms a = true := by
    refine countP_mono_left fun w hw h => ?_
    rw [decide_eq_true_iff]
    exact fun h' => hne (hu w hw a ha b hb h' h)
  have hlen := witnesses.length_eq_countP_add_countP fun w => w.confirms a
  simp only [support] at *
  omega

lemma consensusHash_perm {commitments' : List Commitment} (hp : commitments.Perm commitments')
    (hu : Unequivocal commitments witnesses) (hn : commitments.Nodup) (hlt : witnesses.length < 2 * quorum) :
    consensusHash commitments witnesses quorum = consensusHash commitments' witnesses quorum := by
  have hu' : Unequivocal commitments' witnesses :=
    fun w hw a ha b hb => hu w hw a (hp.mem_iff.mpr ha) b (hp.mem_iff.mpr hb)
  have hn' := hp.nodup_iff.mp hn
  unfold consensusHash
  cases h : selectConsensusCommitmentByWitnesses commitments witnesses quorum with
  | none =>
    cases h' : selectConsensusCommitmentByWitnesses commitments' witnesses quorum with
    | none => rfl
    | some j =>
      obtain ⟨c, hc, hq⟩ := select_eq_some hu' hn' h'
      have hlow := select_eq_none hu hn h (hp.mem_iff.mpr (mem_of_getElem? hc))
      omega
  | some i =>
    obtain ⟨c, hc, hq⟩ := select_eq_some hu hn h
    have hmem := mem_of_getElem? hc
    cases h' : selectConsensusCommitmentByWitnesses commitments' witnesses quorum with
    | none =>
      have hlow := select_eq_none hu' hn' h' (hp.mem_iff.mp hmem)
      omega
    | some j =>
      obtain ⟨c', hc', hq'⟩ := select_eq_some hu' hn' h'
      have he : c = c' := by
        by_contra hne
        have h2 := two_quorums hu hmem (hp.mem_iff.mpr (mem_of_getElem? hc')) hne hq hq'
        omega
      simp [hc, hc', he]

/-- How many witnesses a round has (in Rust `witness_quorum`). -/
def witnessCount (c : Coordinator) (numWitnesses : Nat) : Nat :=
  if c.config.witnessNodes = 0 then numWitnesses else c.config.witnessNodes

lemma two_mul_witnessQuorum {c : Coordinator} {numWitnesses : Nat} (hq : c.witnessQuorum numWitnesses = .ok quorum) :
    c.witnessCount numWitnesses < 2 * quorum ↔ c.witnessCount numWitnesses ≠ 4 := by
  unfold witnessQuorum at hq
  unfold witnessCount
  generalize (if c.config.witnessNodes = 0 then numWitnesses else c.config.witnessNodes) = n at hq ⊢
  split at hq <;> cases hq
  · simp
  · simp
  · simp
  · rename_i h0 h1 h2 h3
    have hn : n ≠ 0 ∧ n ≠ 1 ∧ n ≠ 2 ∧ n ≠ 3 := ⟨h0, h1, h2, h3⟩
    omega

/-- Every two clients that have received the same commitments, in whatever orders, apply the same one. -/
def Agrees (count quorum : Nat) : Prop :=
  ∀ (witnesses : List Witness) (commitments commitments' : List Commitment), witnesses.length ≤ count →
    commitments.Nodup → commitments.Perm commitments' → Unequivocal commitments witnesses →
    consensusHash commitments witnesses quorum = consensusHash commitments' witnesses quorum

/-- A witness that has confirmed what has the bits of a hash, under the key 0. -/
def confirming (hash : Bytes32) : Witness where
  proof := ⟨0, 0, true⟩
  participantBloom := .empty
  broadcastBloom := ⟨Vector.replicate 8 0, 1 <<< WitnessBloom.pos hash.bytes 0⟩
  broadcastMerkle := 0

/-- Two commitments of one trainer for one batch. -/
def equivocal : List Commitment := [⟨1, 0⟩, ⟨2, 0⟩]

/-- Four witnesses, two of either commitment. -/
def split : List Witness := [confirming 1, confirming 1, confirming 2, confirming 2]

lemma unequivocal_split : Unequivocal equivocal split := by
  have h : ∀ w ∈ split, ∀ a ∈ equivocal, ∀ b ∈ equivocal, w.confirms a = true → w.confirms b = true → a = b := by
    decide +kernel
  exact h

lemma consensusHash_split : consensusHash equivocal split 2 = some 2
    ∧ consensusHash equivocal.reverse split 2 = some 1 := by
  constructor <;> decide +kernel

lemma not_agrees_four : ¬ Agrees 4 2 := by
  intro h
  have he := h split equivocal equivocal.reverse (by decide) (by decide) (reverse_perm _).symm unequivocal_split
  rw [consensusHash_split.1, consensusHash_split.2] at he
  cases he

/-- Clients agree on the commitments that they apply if and only if the number of witnesses is not four. -/
theorem consensus_agrees_iff (c : Coordinator) (numWitnesses quorum : Nat)
    (hq : c.witnessQuorum numWitnesses = .ok quorum) :
    Agrees (c.witnessCount numWitnesses) quorum ↔ c.witnessCount numWitnesses ≠ 4 := by
  constructor
  · intro h h4
    have h2 : quorum = 2 := by
      have hw : (if c.config.witnessNodes = 0 then numWitnesses else c.config.witnessNodes) = 4 := h4
      rw [witnessQuorum, hw] at hq
      cases hq
      rfl
    rw [h4, h2] at h
    exact not_agrees_four h
  · intro h4 witnesses commitments commitments' hlen hn hp hu
    exact consensusHash_perm hp hu hn (hlen.trans_lt ((two_mul_witnessQuorum hq).mpr h4))

/-- A coordinator of five clients, a number of whom are elected witnesses. -/
def witnessed (witnessNodes : Nat) : Coordinator :=
  { Coordinator.small with
    config := { CoordinatorConfig.small with initMinClients := 5, minClients := 5, witnessNodes } }

/-- With five witnesses and a quorum of three the clients agree. -/
theorem consensus_agrees_iff_five : (witnessed 5).config.check = true ∧ (witnessed 5).witnessQuorum 5 = .ok 3
    ∧ Agrees 5 3 := by
  refine ⟨by decide, rfl, ?_⟩
  exact (consensus_agrees_iff (witnessed 5) 5 3 rfl).mpr (by decide)

/-- An accepted configuration with four witnesses, of whom two have confirmed either one of two commitments: the clients
apply the commitment that arrived last. -/
theorem consensus_split : (witnessed 4).config.check = true ∧ (witnessed 4).witnessQuorum 4 = .ok 2
    ∧ split.length = 4 ∧ equivocal.Nodup ∧ Unequivocal equivocal split
    ∧ consensusHash equivocal split 2 = some 2 ∧ consensusHash equivocal.reverse split 2 = some 1 := by
  exact ⟨by decide, rfl, rfl, by decide, unequivocal_split, consensusHash_split⟩

end Coordinator
end Leviathan
