import Leviathan.Coordinator.Assignment

/-!
# Audit selection

Model of `shared/coordinator/src/audit_selection.rs`: every client on a verifier seat is told which trainer's batch to
replay. The caller brings along the number of tie-breakers of the draw, while the clients train with the one that the
round notes (`trainingAssignments`, in `TrainingStepMetadata::start`).
-/

namespace Leviathan.Coordinator
open Exec List
open CommitteeSelection
variable {ε : Type}

def auditSalt : Bytes := [0x61, 0x75, 0x64, 0x69, 0x74]

/-- A batch to be replayed. -/
structure AuditAssignment where
  verifier : NodeIdentity
  verifierIndex : Nat
  target : NodeIdentity
  batchId : BatchId

/-- The number a verifier draws: the first eight bytes of its digest. -/
def auditDraw (P : Platform) (sel : CommitteeSelection) (index : Nat) : Nat :=
  (P.sha256 (sel.seed.bytes ++ auditSalt ++ leBytes 8 index)).toNat % 2 ^ 64

def selectAuditsFrom (P : Platform) (sel : CommitteeSelection) (targets : List (BatchId × NodeIdentity)) :
    Nat → List Client → Exec ε Panic (List AuditAssignment)
  | _, [] => .ok []
  | index, client :: clients => do
    let proof ← sel.getCommittee P index
    match proof.committee with
    | .verifier => do
      let (batchId, target) ← Exec.unwrap targets[auditDraw P sel index % targets.length]? .indexOutOfBounds
      let audits ← selectAuditsFrom P sel targets (index + 1) clients
      .ok (⟨client.id, index, target, batchId⟩ :: audits)
    | .trainer | .tieBreaker => selectAuditsFrom P sel targets (index + 1) clients

/-- Tell every verifier what to replay. -/
def selectAudits (P : Platform) (sel : CommitteeSelection) (clients : List Client)
    (assignments : SortedMap BatchId NodeIdentity) : Exec ε Panic (List AuditAssignment) :=
  if assignments = [] then .ok [] else selectAuditsFrom P sel assignments 0 clients

def selectAuditsForCurrentRound (P : Platform) (c : Coordinator) (tieBreakerNodes : Nat) :
    Exec CoordinatorError Panic (List AuditAssignment) := do
  let sel ← fromCoordinatorWithTieBreakers P c 0 tieBreakerNodes
  let assignments ← c.assignDataForState P sel
  selectAudits P sel c.epochState.clients.toList assignments

/-- What the clients train with while there is training (in Rust `TrainingStepMetadata::start`). -/
def trainingAssignments (P : Platform) (c : Coordinator) :
    Exec CoordinatorError Panic (SortedMap BatchId NodeIdentity) := do
  let sel ← CommitteeSelection.new P c.currentRound.tieBreakerTasks c.config.witnessNodes c.config.verificationPercent
    c.epochState.clients.len c.currentRound.randomSeed
  c.assignDataForState P sel

section Spec
variable {P : Platform} {sel : CommitteeSelection} {targets : List (BatchId × NodeIdentity)} {clients : List Client}

/-- What the verifiers are told, if there is something to replay. -/
structure Audited (P : Platform) (sel : CommitteeSelection) (targets : List (BatchId × NodeIdentity)) (i n : Nat)
    (audits : List AuditAssignment) : Prop where
  entry : ∀ a ∈ audits, (a.batchId, a.target) ∈ targets
  verifier : ∀ a ∈ audits, i ≤ a.verifierIndex ∧ a.verifierIndex < i + n
    ∧ (sel.seat P a.verifierIndex).committee = .verifier
  every : ∀ j, i ≤ j → j < i + n → (sel.seat P j).committee = .verifier →
    ∃ a ∈ audits, targets[auditDraw P sel j % targets.length]? = some (a.batchId, a.target)

/-- The loop over the clients selects one audit for each verifier. -/
lemma selectAuditsFrom_spec {i : Nat} (hne : targets ≠ []) (ht : sel.totalNodes ≤ 2 ^ 63)
    (hi : i + clients.length ≤ sel.totalNodes) :
    ∃ audits, (selectAuditsFrom P sel targets i clients : Exec ε Panic (List AuditAssignment)) = .ok audits
      ∧ Audited P sel targets i clients.length audits := by
  induction clients generalizing i with
  | nil => exact ⟨[], rfl, by simp, by simp, fun j h1 h2 => by simp at h2; omega⟩
  | cons client clients ih =>
    rw [length_cons] at hi
    obtain ⟨audits, hok, h⟩ := ih (i := i + 1) (by omega)
    have hlater : ∀ a ∈ audits, i ≤ a.verifierIndex ∧ a.verifierIndex < i + (clients.length + 1)
        ∧ (sel.seat P a.verifierIndex).committee = .verifier := by
      intro a ha
      obtain ⟨h1, h2, h3⟩ := h.verifier a ha
      exact ⟨by omega, by omega, h3⟩
    unfold selectAuditsFrom
    rw [getCommittee_eq ht (by omega), ok_bind, length_cons]
    by_cases hseat : (sel.seat P i).committee = .verifier
    · rw [hseat]
      -- the draw is an index of the targets
      have hlt : auditDraw P sel i % targets.length < targets.length :=
        Nat.mod_lt _ (length_pos_iff.mpr hne)
      obtain ⟨entry, hentry⟩ : ∃ entry, targets[auditDraw P sel i % targets.length]? = some entry :=
        ⟨_, getElem?_eq_getElem hlt⟩
      refine ⟨⟨client.id, i, entry.2, entry.1⟩ :: audits, ?_, ?_, ?_, ?_⟩
      · simp only [hentry, unwrap_some, ok_bind, hok]
      · intro a ha
        rcases mem_cons.mp ha with rfl | ha
        · exact mem_of_getElem? hentry
        · exact h.entry a ha
      · intro a ha
        rcases mem_cons.mp ha with rfl | ha
        · exact ⟨le_rfl, Nat.lt_add_of_pos_right (Nat.succ_pos _), hseat⟩
        · exact hlater a ha
      · intro j h1 h2 hj
        rcases Nat.eq_or_lt_of_le h1 with rfl | h1
        · exact ⟨_, mem_cons_self, hentry⟩
        · obtain ⟨a, ha, hpick⟩ := h.every j h1 (by omega) hj
          exact ⟨a, mem_cons_of_mem _ ha, hpick⟩
    · refine ⟨audits, ?_, h.entry, hlater, ?_⟩
      · cases hk : (sel.seat P i).committee with
        | verifier => exact absurd hk hseat
        | trainer => exact hok
        | tieBreaker => exact hok
      · intro j h1 h2 hj
        rcases Nat.eq_or_lt_of_le h1 with rfl | h1
        · exact absurd hj hseat
        · exact h.every j h1 (by omega) hj

end Spec

section Congruence
variable {P : Platform} {c : Coordinator} {sel sel' : CommitteeSelection}

lemma seat_trainer_iff {i : Nat} : (sel.seat P i).committee = .trainer
    ↔ sel.tieBreakerNodes + sel.verifierNodes ≤ sel.position P committeeSalt i := by
  show sel.getCommitteeFromPosition _ = .trainer ↔ _
  unfold getCommitteeFromPosition
  split
  · simp
    omega
  · split
    · simp
      omega
    · simp
      omega

lemma trainers_congr (ht : sel'.totalNodes = sel.totalNodes) (hs : sel'.seed = sel.seed)
    (h : sel'.tieBreakerNodes + sel'.verifierNodes = sel.tieBreakerNodes + sel.verifierNodes) (i : Nat)
    (clients : List Client) : trainers P sel' i clients = trainers P sel i clients := by
  have hpos : ∀ j, sel'.position P committeeSalt j = sel.position P committeeSalt j := by
    intro j
    simp only [position, saltedSeed, ht, hs]
  unfold trainers
  refine congrArg _ (filter_congr fun x _ => ?_)
  rw [Bool.eq_iff_iff, beq_iff_eq, beq_iff_eq, seat_trainer_iff, seat_trainer_iff, hpos, h]

lemma assignDataForState_congr (ht : sel.totalNodes = c.epochState.clients.len)
    (ht' : sel'.totalNodes = c.epochState.clients.len) (hs : sel'.seed = sel.seed)
    (h : sel'.tieBreakerNodes + sel'.verifierNodes = sel.tieBreakerNodes + sel.verifierNodes) :
    (c.assignDataForState P sel' : Exec ε Panic (SortedMap BatchId NodeIdentity)) = c.assignDataForState P sel := by
  have hlen : 0 + c.epochState.clients.toList.length = c.epochState.clients.len := Nat.zero_add _
  unfold assignDataForState
  rw [trainerNodesFrom_eq (totalNodes_le ht) (by omega), trainerNodesFrom_eq (totalNodes_le ht') (by omega),
    trainers_congr (ht'.trans ht.symm) hs h]

end Congruence
end Leviathan.Coordinator
