import Leviathan.Client.Inversion
import Leviathan.Coordinator.Assignment

/-!
# One vote for each batch

A client votes for a batch by adding the hash of a commitment to the broadcast bloom of the round. The tasks that do
this run beside everything else and can outlive their round. The invariant is about the rounds (`Assigned`, `Kept`), the
tasks (`Checked`), and the votes (`Counted`).
-/

namespace Leviathan.StepStateMachine

section Definitions

/-- The vote in an effect for a batch of a given round: the batch and the hash. -/
def voteOf (id : Nat) : ClientEffect → Option (RawBatchId × Bytes32)
  | .voted shared batchId dataHash => if shared = id then some (batchId, dataHash) else none
  | .recorded _ _ _ | .requested _ | .received _ | .accepted _ | .wrote _ _ => none

/-- The votes of a round, newest first. -/
def votes (id : Nat) (log : List ClientEffect) : List (RawBatchId × Bytes32) := log.filterMap (voteOf id)

/-- An empty bloom, with some votes added to it. -/
def countVotes (keys : Vector (BitVec 64) 8) (votes : List (RawBatchId × Bytes32)) : WitnessBloom :=
  votes.foldr (fun v bloom => bloom.add v.2.bytes) ⟨keys, 0⟩

/-- The shared parts that rounds and tasks know by their number. -/
structure Numbered (m : StepStateMachine) : Prop where
  round : ∀ slot, (m.round slot).shared < m.sharedRounds.length
  apart : ∀ slot slot', (m.round slot).shared = (m.round slot').shared → slot = slot'
  task : ∀ task ∈ m.tasks, task.shared < m.sharedRounds.length

/-- An announcement for a batch has been recorded in a round, from the node that the batch is assigned to. -/
def Owned (log : List ClientEffect) (round : RoundState) (b : RawBatchId) (a : Announcement) : Prop :=
  (∃ assignee, round.assignee b = some assignee ∧ a.from_.signer = assignee.signer)
    ∧ a.result.batchId = b ∧ .recorded round.shared round.step a ∈ log

/-- What stands in the results has been recorded, from the node that the batch is assigned to. -/
def Assigned (log : List ClientEffect) (m : StepStateMachine) : Prop :=
  ∀ slot b, ∀ a ∈ (m.round slot).announcements b, Owned log (m.round slot) b a

/-- What has been recorded stays in the results for as long as the round does. -/
def Kept (log : List ClientEffect) (m : StepStateMachine) : Prop :=
  ∀ id step a, .recorded id step a ∈ log → id < m.sharedRounds.length
    ∧ ∀ slot, (m.round slot).shared = id →
      (m.round slot).step = step ∧ a ∈ (m.round slot).announcements a.result.batchId

/-- A task is about a payload that was received and a commitment that was recorded; they are compared before it goes on. -/
structure Checked (P : Platform) (log : List ClientEffect) (task : VerifyTask) : Prop where
  received : .received { task with phase := .verify } ∈ log
  recorded : ∃ step a, .recorded task.shared step a ∈ log ∧ a.result.batchId = task.batchId
    ∧ a.from_.signer = task.from_.signer ∧ a.commitment = task.commitment
  hash : task.phase = .write ∨ task.phase = .vote → task.payload.comptueHash P = task.commitment.dataHash

/-- The votes of a round: one for a batch at most, none for a batch that is left, and all of them in the bloom. -/
structure Counted (shared : SharedRound) (votes : List (RawBatchId × Bytes32)) : Prop where
  once : (votes.map Prod.fst).Nodup
  left : ∀ remaining, shared.batchIdsNotYetTrainedOn = some remaining → ∀ v ∈ votes, v.1 ∉ remaining
  bloom : (shared.blooms = none ∧ votes = [])
    ∨ ∃ participantBloom keys, shared.blooms = some (participantBloom, countVotes keys votes)

end Definitions

open List

section Numbers
variable {P : Platform} {m m' : StepStateMachine} {fx : List ClientEffect}

@[simp] lemma length_record {slot : RoundSlot} {a : Announcement} :
    (m.record slot a).sharedRounds.length = m.sharedRounds.length := by
  simp [record]

lemma ClientStep.length_le (st : ClientStep P m fx m') : m.sharedRounds.length ≤ m'.sharedRounds.length := by
  cases st with
  | quiet | spawn => exact Nat.le_refl _
  | record => rw [length_record]
  | finished => rw [sharedRounds_setRound]
  | task => exact length_setShared.ge
  | warmup => simp [startWarmup]
  | train => simp

/-- What a step does to a round, as far as its results are concerned. -/
inductive RoundStep (m : StepStateMachine) (fx : List ClientEffect) (round : RoundState) : Prop where
  | same {slot} :
    round.shared = (m.round slot).shared →
    round.step = (m.round slot).step →
    round.assignee = (m.round slot).assignee →
    round.announcements = (m.round slot).announcements →
    (∀ step a, .recorded round.shared step a ∉ fx) →
    RoundStep m fx round
  | fresh :
    m.sharedRounds.length ≤ round.shared →
    round.results = ∅ →
    RoundStep m fx round
  | grown {slot a assignee} :
    round.shared = (m.round slot).shared →
    round.step = (m.round slot).step →
    round.assignee = (m.round slot).assignee →
    (∀ b, round.announcements b = if b = a.result.batchId then
      (m.round slot).announcements b ++ [a] else (m.round slot).announcements b) →
    round.assignee a.result.batchId = some assignee →
    a.from_.signer = assignee.signer →
    (∀ step' a', .recorded round.shared step' a' ∈ fx ↔ step' = round.step ∧ a' = a) →
    RoundStep m fx round

/-- What each step of a client does to a round. -/
lemma ClientStep.round (hn : Numbered m) (st : ClientStep P m fx m') (slot : RoundSlot) :
    RoundStep m fx (m'.round slot) := by
  have hquiet (hr : m'.round slot = m.round slot) (hfx : ∀ id step a, .recorded id step a ∉ fx) :
      RoundStep m fx (m'.round slot) := by
    rw [hr]
    exact .same rfl rfl rfl rfl (hfx _)
  cases st with
  | quiet | spawn => exact hquiet (by cases slot <;> rfl) (by simp)
  | record ha hfrom hfx =>
    rename_i slot' a assignee fx
    by_cases hs : slot = slot'
    · subst hs
      have hr := round_record m slot a slot
      rw [if_pos rfl] at hr
      have hshared : ((m.record slot a).round slot).shared = (m.round slot).shared := by rw [hr]
      have hstep : ((m.record slot a).round slot).step = (m.round slot).step := by rw [hr]
      have hassignee : ((m.record slot a).round slot).assignee = (m.round slot).assignee := by
        rw [hr]
        rfl
      refine .grown hshared hstep hassignee (announcements_record m slot a) (hassignee ▸ ha) hfrom fun step' a' => ?_
      rw [hshared, hstep, mem_cons]
      constructor
      · rintro (h | h)
        · cases h
          exact ⟨rfl, rfl⟩
        · obtain ⟨ticket, e⟩ := hfx _ h
          cases e
      · rintro ⟨rfl, rfl⟩
        exact .inl rfl
    · have hr : (m.record slot' a).round slot = m.round slot := by rw [round_record, if_neg hs]
      rw [hr]
      refine .same rfl rfl rfl rfl fun step' a' h => ?_
      rcases mem_cons.mp h with h | h
      · injection h with hid
        exact hs (hn.apart _ _ hid)
      · obtain ⟨ticket, e⟩ := hfx _ h
        cases e
  | finished =>
    rename_i slot' clientsFinished broadcasts
    rw [round_setRound]
    split
    · rename_i hs
      subst hs
      exact .same rfl rfl rfl rfl (by simp)
    · exact .same rfl rfl rfl rfl (by simp)
  | task _ st =>
    refine hquiet (by rw [round_setPhase, round_setShared]) fun id step a h => ?_
    cases st.effects h
  | warmup =>
    cases slot with
    | current => exact .fresh (Nat.le_succ _) rfl
    | previous => exact .fresh (Nat.le_refl _) rfl
  | train hc hr =>
    cases slot with
    | current => exact .fresh hc.ge hr
    | previous => exact @RoundStep.same m [] _ .current rfl rfl rfl rfl (by simp)

/-- Where the verifications after a step come from. -/
lemma ClientStep.tasks (st : ClientStep P m fx m') {task : VerifyTask} (h : task ∈ m'.tasks) :
    task ∈ m.tasks
      ∨ (∃ slot a, task.shared = (m.round slot).shared ∧ task.phase = .verify
        ∧ a ∈ (m.round slot).announcements task.batchId ∧ a.from_.signer = task.from_.signer
        ∧ a.commitment = task.commitment ∧ fx = [.received task])
      ∨ ∃ task' ∈ m.tasks, ∃ shared phase, task = { task' with phase }
        ∧ TaskStep P task' (m.sharedOf task'.shared) shared phase fx := by
  cases st with
  | quiet => exact .inl h
  | record =>
    simp only [StepStateMachine.record, setShared, tasks_setRound] at h
    exact .inl h
  | finished =>
    rw [tasks_setRound] at h
    exact .inl h
  | spawn hs hp ha hfrom hc =>
    rcases mem_append.mp h with h | h
    · exact .inl h
    · cases mem_singleton.mp h
      exact .inr (.inl ⟨_, _, hs, hp, ha, hfrom, hc, rfl⟩)
  | task ht st =>
    rcases mem_or_eq_of_mem_set h with h | h
    · exact .inl h
    · exact .inr (.inr ⟨_, mem_of_getElem? ht, _, _, h, st⟩)
  | warmup => exact .inl h
  | train => exact .inl h

lemma ClientStep.shared (st : ClientStep P m fx m') :
    (∀ slot, (m'.round slot).shared = (m.round slot).shared)
      ∨ m.sharedRounds.length ≤ m'.currentRound.shared ∧ m'.currentRound.shared < m'.sharedRounds.length
        ∧ (m'.previousRound.shared = m.currentRound.shared ∨ m.sharedRounds.length ≤ m'.previousRound.shared
          ∧ m'.previousRound.shared < m'.currentRound.shared) := by
  cases st with
  | quiet | spawn => exact .inl fun slot => by cases slot <;> rfl
  | record =>
    refine .inl fun slot => ?_
    rw [round_record]
    split
    · rename_i hs
      rw [hs]
    · rfl
  | finished =>
    refine .inl fun slot => ?_
    rw [round_setRound]
    split
    · rename_i hs
      rw [hs]
    · rfl
  | task => exact .inl fun slot => by rw [round_setPhase, round_setShared]
  | warmup =>
    refine .inr ⟨Nat.le_succ _, ?_, .inr ⟨Nat.le_refl _, Nat.lt_succ_self _⟩⟩
    simp [startWarmup, RoundState.new]
  | train hc _ =>
    refine .inr ⟨hc.ge, ?_, .inl rfl⟩
    simp [hc]

/-- Rounds keep numbers of their own. -/
lemma Numbered.step (hn : Numbered m) (st : ClientStep P m fx m') : Numbered m' := by
  have hle := st.length_le
  have htask : ∀ task ∈ m'.tasks, task.shared < m'.sharedRounds.length := by
    intro task ht
    obtain ht | ⟨slot, _, hs, _⟩ | ⟨task', ht', _, _, rfl, _⟩ := st.tasks ht
    · exact Nat.lt_of_lt_of_le (hn.task _ ht) hle
    · rw [hs]
      exact Nat.lt_of_lt_of_le (hn.round slot) hle
    · exact Nat.lt_of_lt_of_le (hn.task task' ht') hle
  obtain hs | ⟨hlow, hhigh, hprev⟩ := st.shared
  · refine ⟨fun slot => ?_, fun slot slot' h => ?_, htask⟩
    · rw [hs]
      exact Nat.lt_of_lt_of_le (hn.round slot) hle
    · rw [hs, hs] at h
      exact hn.apart slot slot' h
  · have hlt : m'.previousRound.shared < m'.currentRound.shared := by
      rcases hprev with h | ⟨_, h⟩
      · rw [h]
        exact Nat.lt_of_lt_of_le (hn.round .current) hlow
      · exact h
    refine ⟨fun slot => ?_, fun slot slot' h => ?_, htask⟩
    · cases slot with
      | current => exact hhigh
      | previous => exact Nat.lt_trans hlt hhigh
    · cases slot <;> cases slot'
      · rfl
      · exact absurd h hlt.ne'
      · exact absurd h hlt.ne
      · rfl

end Numbers

section Rounds
variable {P : Platform} {m m' : StepStateMachine} {fx log : List ClientEffect}

lemma Owned.mono {round round' : RoundState} {b : RawBatchId} {a : Announcement} (h : Owned log round b a)
    (hshared : round'.shared = round.shared) (hstep : round'.step = round.step)
    (hassignee : round'.assignee = round.assignee) : Owned (fx.reverse ++ log) round' b a := by
  obtain ⟨hfrom, hb, hrec⟩ := h
  refine ⟨?_, hb, mem_append_right _ ?_⟩
  · rw [hassignee]
    exact hfrom
  · rw [hshared, hstep]
    exact hrec

/-- Only the node that a batch is assigned to is recorded for it. -/
lemma Assigned.step (hn : Numbered m) (h : Assigned log m) (st : ClientStep P m fx m') :
    Assigned (fx.reverse ++ log) m' := by
  intro slot b a ha
  cases st.round hn slot with
  | same hshared hstep hassignee hann _ =>
    rw [hann] at ha
    exact (h _ b a ha).mono hshared hstep hassignee
  | fresh _ hr =>
    rw [RoundState.announcements, hr] at ha
    cases ha
  | grown hshared hstep hassignee hann hat hfrom hfx =>
    rw [hann] at ha
    split at ha
    · rename_i hb
      subst hb
      rcases mem_append.mp ha with ha | ha
      · exact (h _ _ a ha).mono hshared hstep hassignee
      · cases mem_singleton.mp ha
        exact ⟨⟨_, hat, hfrom⟩, rfl, mem_append_left _ (mem_reverse.mpr ((hfx _ _).mpr ⟨rfl, rfl⟩))⟩
    · exact (h _ b a ha).mono hshared hstep hassignee

/-- What has been recorded stays in the results. -/
lemma Kept.step (hn : Numbered m) (h : Kept log m) (st : ClientStep P m fx m') : Kept (fx.reverse ++ log) m' := by
  intro id step a he
  have hid : id < m.sharedRounds.length := by
    rcases mem_append.mp he with he | he
    · obtain ⟨slot, _, rfl, _⟩ := st.recorded_inv (mem_reverse.mp he)
      exact hn.round slot
    · exact (h id step a he).1
  refine ⟨Nat.lt_of_lt_of_le hid st.length_le, fun slot hs => ?_⟩
  subst hs
  rw [mem_append, mem_reverse] at he
  cases st.round hn slot with
  | same hshared hstep _ hann hfx =>
    rcases he with he | he
    · exact absurd he (hfx _ _)
    · rw [hstep, hann]
      exact (h _ _ _ he).2 _ hshared.symm
  | fresh hlt => exact absurd hid (Nat.not_lt.mpr hlt)
  | grown hshared hstep _ hann _ _ hfx =>
    rcases he with he | he
    · obtain ⟨rfl, rfl⟩ := (hfx _ _).mp he
      rw [hann, if_pos rfl]
      exact ⟨rfl, mem_append_right _ mem_cons_self⟩
    · obtain ⟨hs, ha⟩ := (h _ _ _ he).2 _ hshared.symm
      rw [hstep, hann]
      refine ⟨hs, ?_⟩
      split
      · exact mem_append_left _ ha
      · exact ha

/-- A task goes on only after the payload has been compared with the commitment. -/
lemma Checked.step (ha : Assigned log m) (h : ∀ task ∈ m.tasks, Checked P log task) (st : ClientStep P m fx m') :
    ∀ task ∈ m'.tasks, Checked P (fx.reverse ++ log) task := by
  intro task ht
  obtain ht | ⟨slot, a, hs, hp, hann, hfrom, hc, rfl⟩ | ⟨task', ht', shared, phase, rfl, st⟩ := st.tasks ht
  · obtain ⟨hrec, ⟨step, a, h1, h2⟩, hh⟩ := h task ht
    exact ⟨mem_append_right _ hrec, ⟨step, a, mem_append_right _ h1, h2⟩, hh⟩
  · obtain ⟨_, hb, hrec⟩ := ha slot _ a hann
    refine ⟨?_, ⟨_, a, mem_append_right _ (hs ▸ hrec), hb, hfrom, hc⟩, ?_⟩
    · rw [← hp]
      exact mem_append_left _ mem_cons_self
    · rw [hp]
      rintro (h | h) <;> cases h
  · obtain ⟨hrec, ⟨step, a, h1, h2⟩, hh⟩ := h task' ht'
    refine ⟨mem_append_right _ hrec, ⟨step, a, mem_append_right _ h1, h2⟩, fun hp => ?_⟩
    cases st with
    | accept _ he => exact he
    | write hw _ => exact hh (.inl hw)
    | _ => rcases hp with hp | hp <;> cases hp

end Rounds

section Votes
variable {P : Platform} {m m' : StepStateMachine} {fx log : List ClientEffect} {id : Nat}
  {vs : List (RawBatchId × Bytes32)}

lemma votes_append (id : Nat) (fx log : List ClientEffect) : votes id (fx ++ log) = votes id fx ++ votes id log :=
  filterMap_append

lemma votes_eq_nil (h : ∀ e ∈ fx, voteOf id e = none) : votes id fx = [] :=
  filterMap_eq_nil_iff.mpr h

lemma Counted.section {task : VerifyTask} {shared shared' : SharedRound} {phase : TaskPhase}
    (h : Counted shared vs) (st : TaskStep P task shared shared' phase fx) :
    Counted shared' (votes task.shared fx.reverse ++ vs) := by
  cases st with
  | accept => exact h
  | refuse => exact h
  | write _ hfx =>
    have hnone : votes task.shared fx.reverse = [] := by
      refine votes_eq_nil fun e he => ?_
      rw [hfx e (mem_reverse.mp he)]
      rfl
    rw [hnone]
    exact h
  | vote _ hr hm hb =>
    rename_i remaining participantBloom participantBloom' broadcastBloom justFinished
    have hvote : votes task.shared [ClientEffect.voted task.shared task.batchId task.commitment.dataHash].reverse
        = [(task.batchId, task.commitment.dataHash)] := by simp [votes, voteOf]
    rw [hvote]
    refine ⟨nodup_cons.mpr ⟨fun hmem => ?_, h.once⟩, ?_, ?_⟩
    · -- the batch was left, so there is no vote for it yet
      obtain ⟨v, hv, he⟩ := mem_map.mp hmem
      exact h.left _ hr v hv (he ▸ hm)
    · intro left hleft v hv
      cases hleft
      rcases mem_cons.mp hv with rfl | hv
      · exact Finset.notMem_erase _ _
      · exact fun he => h.left _ hr v hv (Finset.mem_of_mem_erase he)
    · obtain ⟨he, _⟩ | ⟨p, keys, he⟩ := h.bloom
      · rw [hb] at he
        cases he
      · rw [hb] at he
        cases he
        exact .inr ⟨_, keys, rfl⟩
  | abstain hr hl hb =>
    rename_i remaining left blooms justFinished
    refine ⟨h.once, fun left' hleft v hv he => ?_, ?_⟩
    · cases hleft
      exact h.left _ hr v hv (hl he)
    · obtain ⟨he, hv⟩ | ⟨p, keys, he⟩ := h.bloom
      · rw [he, Option.map_none, Option.map_eq_none_iff] at hb
        exact .inl ⟨hb, hv⟩
      · rw [he, Option.map_some, Option.map_eq_some_iff] at hb
        obtain ⟨⟨p', b⟩, hp, rfl⟩ := hb
        exact .inr ⟨p', keys, hp⟩
  | late => exact h
  | finish hb =>
    refine ⟨h.once, fun remaining hr => ?_, h.bloom⟩
    rcases hb with rfl | rfl
    · cases hr
    · exact h.left remaining hr
  | store => exact ⟨h.once, h.left, h.bloom⟩

lemma Counted.opened {batchIds : Option (Finset RawBatchId)} {participantBloom : WitnessBloom}
    {keys} (h : Counted .new vs) :
    Counted ⟨∅, some (participantBloom, ⟨keys, 0⟩), batchIds⟩ vs := by
  obtain ⟨_, rfl⟩ | ⟨_, _, he⟩ := h.bloom
  · exact ⟨.nil, fun _ _ v hv => absurd hv not_mem_nil, .inr ⟨_, keys, rfl⟩⟩
  · cases he

lemma getD_concat {α : Type} (l : List α) (x d : α) (i : Nat) :
    (l ++ [x]).getD i d = if i = l.length then x else l.getD i d := by
  simp only [getD_eq_getElem?_getD]
  rcases Nat.lt_trichotomy i l.length with h | h | h
  · rw [getElem?_append_left h, if_neg h.ne]
  · rw [if_pos h, h, getElem?_concat_length]
    rfl
  · rw [if_neg h.ne', getElem?_eq_none h.le, getElem?_eq_none]
    rw [length_append]
    exact h

lemma sharedOf_of_le (h : m.sharedRounds.length ≤ id) : m.sharedOf id = .new := by
  rw [sharedOf, getD_eq_getElem?_getD, getElem?_eq_none h]
  rfl

/-- A round has one vote for a batch at most, and all of them in its bloom. -/
lemma Counted.step (hn : Numbered m) (h : ∀ id, Counted (m.sharedOf id) (votes id log)) (st : ClientStep P m fx m') :
    ∀ id, Counted (m'.sharedOf id) (votes id (fx.reverse ++ log)) := by
  intro id
  rw [votes_append]
  cases st with
  | quiet => exact h id
  | record ha hfrom hfx =>
    rename_i slot a assignee fx
    have hnone : votes id (ClientEffect.recorded (m.round slot).shared (m.round slot).step a :: fx).reverse = [] := by
      refine votes_eq_nil fun e he => ?_
      rcases mem_cons.mp (mem_reverse.mp he) with rfl | he
      · rfl
      · obtain ⟨ticket, rfl⟩ := hfx e he
        rfl
    rw [hnone, StepStateMachine.record, sharedOf_setShared (by rw [sharedRounds_setRound]; exact hn.round slot)]
    split
    · rename_i he
      rw [he]
      exact ⟨(h _).once, (h _).left, (h _).bloom⟩
    · rw [sharedOf, sharedRounds_setRound]
      exact h id
  | finished =>
    rw [sharedOf, sharedRounds_setRound]
    exact h id
  | spawn => exact h id
  | task ht st =>
    rename_i index task shared phase
    have hs := sharedOf_setShared (hn.task task (mem_of_getElem? ht)) shared id
    change Counted ((m.setShared task.shared shared).sharedOf id) _
    rw [hs]
    split
    · rename_i he
      rw [he]
      exact (h task.shared).section st
    · rename_i hne
      have hnone : votes id fx.reverse = [] := by
        refine votes_eq_nil fun e he => ?_
        cases st.effects (mem_reverse.mp he) with
        | accepted | wrote => rfl
        | voted => exact if_neg fun e => hne e.symm
      rw [hnone]
      exact h id
  | warmup =>
    have hs : (m.sharedRounds ++ [SharedRound.new, SharedRound.new]).getD id .new = m.sharedOf id := by
      rw [append_cons, getD_concat, getD_concat]
      split
      · rename_i he
        rw [sharedOf_of_le (by simp [he])]
      · split
        · rename_i he
          rw [sharedOf_of_le he.ge]
        · rfl
    change Counted ((m.sharedRounds ++ [SharedRound.new, SharedRound.new]).getD id .new) _
    rw [hs]
    exact h id
  | train =>
    rename_i participant broadcast batchIds _ _
    change Counted ((m.sharedRounds ++ [_]).getD id .new) _
    rw [getD_concat]
    split
    · rename_i he
      have hnew : m.sharedOf id = .new := sharedOf_of_le he.ge
      exact (hnew ▸ h id).opened
    · exact h id

end Votes

section Runs
variable {P : Platform} {tr : Record} {m : StepStateMachine} {id : Nat} {b : RawBatchId} {dataHash : Bytes32}

/-- The whole invariant. -/
structure Orderly (P : Platform) (log : List ClientEffect) (m : StepStateMachine) : Prop where
  numbered : Numbered m
  assigned : Assigned log m
  kept : Kept log m
  checked : ∀ task ∈ m.tasks, Checked P log task
  counted : ∀ id, Counted (m.sharedOf id) (votes id log)

lemma orderly_new (identity : NodeIdentity) (writeGradientsDir : Bool) (coordinatorState : Coordinator) :
    Orderly P [] (new identity writeGradientsDir coordinatorState) where
  numbered := by
    refine ⟨fun slot => ?_, fun slot slot' h => ?_, fun task ht => absurd ht not_mem_nil⟩
    · cases slot with
      | current => exact Nat.one_lt_two
      | previous => exact Nat.two_pos
    · cases slot <;> cases slot' <;> first | rfl | cases h
  assigned := by
    intro slot b a ha
    cases slot <;> cases ha
  kept := fun _ _ _ h => absurd h not_mem_nil
  checked := fun _ h => absurd h not_mem_nil
  counted := by
    intro id
    have hnew : (new identity writeGradientsDir coordinatorState).sharedOf id = .new := by
      rcases id with _ | _ | id <;> rfl
    rw [hnew]
    refine ⟨.nil, fun remaining hr => ?_, .inl ⟨rfl, rfl⟩⟩
    cases hr

/-- All of it together, in every run. -/
lemma orderly_of_run (r : (machine P).Run tr m) : Orderly P (log tr) m := by
  refine r.history (P := fun tr m => Orderly P (log tr) m) ?_ ?_
  · rintro _ ⟨identity, writeGradientsDir, coordinatorState, rfl⟩
    exact orderly_new identity writeGradientsDir coordinatorState
  · intro tr m i m' fx _ h st
    have st := step_inv st
    exact ⟨h.numbered.step st, h.assigned.step h.numbered st, h.kept.step h.numbered st,
      Checked.step h.assigned h.checked st, Counted.step h.numbered h.counted st⟩

lemma voteOf_eq_some {e : ClientEffect} : voteOf id e = some (b, dataHash) ↔ e = .voted id b dataHash := by
  constructor
  · intro h
    cases e with
    | voted shared batchId dataHash =>
      rw [voteOf, Option.ite_none_right_eq_some] at h
      obtain ⟨rfl, h⟩ := h
      cases h
      rfl
    | recorded => cases h
    | requested => cases h
    | received => cases h
    | accepted => cases h
    | wrote => cases h
  · rintro rfl
    exact if_pos rfl

lemma vote_origin {ev : Event StepStateMachine ClientInput (List ClientEffect)} {tr1 tr2 : Record}
    (r : (machine P).Run (tr1 ++ ev :: tr2) m) (h : (b, dataHash) ∈ votes id ev.output) :
    ∃ task step a, .received task ∈ log tr2 ∧ task.payload.comptueHash P = dataHash
      ∧ .recorded id step a ∈ log tr2 ∧ a.result.batchId = b ∧ a.commitment.dataHash = dataHash := by
  obtain ⟨r2, st⟩ := r.split
  obtain ⟨e, he, hv⟩ := mem_filterMap.mp h
  rw [voteOf_eq_some.mp hv] at he
  obtain ⟨task, ht, hp, rfl, rfl, rfl⟩ := voted_inv st he
  obtain ⟨hreceived, ⟨step, a, hrec, hb, _, hc⟩, hh⟩ := (orderly_of_run r2).checked task ht
  exact ⟨_, step, a, hreceived, hh (.inr hp), hrec, hb, by rw [hc]⟩

/-- Results come from the assigned node, and each batch of a round gets one vote at most, for a commitment in its results
whose payload has come in. -/
theorem one_vote_per_batch (r : (machine P).Run tr m) :
    (∀ slot b, ∀ a ∈ (m.round slot).announcements b,
      ∃ assignee, (m.round slot).assignee b = some assignee ∧ a.from_.signer = assignee.signer)
    ∧ (∀ id, ((votes id (log tr)).map Prod.fst).Nodup)
    ∧ (∀ id participantBloom broadcastBloom, (m.sharedOf id).blooms = some (participantBloom, broadcastBloom) →
      ∃ keys, broadcastBloom = countVotes keys (votes id (log tr)))
    ∧ ∀ tr1 ev tr2 id b dataHash, tr = tr1 ++ ev :: tr2 → (b, dataHash) ∈ votes id ev.output →
      (∃ a : Announcement, a.commitment.dataHash = dataHash
        ∧ (∃ ev' ∈ tr2, ∃ slot, (ev'.after.round slot).shared = id ∧ a ∈ (ev'.after.round slot).announcements b)
        ∧ ∀ slot, (m.round slot).shared = id → a ∈ (m.round slot).announcements b)
      ∧ ∃ ev' ∈ tr2, ∃ hash payload own, ev'.input = .applyDistroResult hash payload own
        ∧ payload.comptueHash P = dataHash := by
  have h := orderly_of_run r
  refine ⟨fun slot b a ha => (h.assigned slot b a ha).1, fun id => (h.counted id).once, ?_, ?_⟩
  · intro id participantBloom broadcastBloom hb
    obtain ⟨he, _⟩ | ⟨_, keys, he⟩ := (h.counted id).bloom
    · rw [he] at hb
      cases hb
    · rw [he] at hb
      cases hb
      exact ⟨keys, rfl⟩
  · rintro tr1 ev tr2 id b dataHash rfl hv
    obtain ⟨task, step, a, hreceived, hh, hrec, rfl, hc⟩ := vote_origin r hv
    have hlog : ClientEffect.recorded id step a ∈ log (tr1 ++ ev :: tr2) := by
      obtain ⟨ev', hev, he⟩ := mem_log.mp hrec
      exact mem_log.mpr ⟨ev', mem_append_right _ (mem_cons_of_mem _ hev), he⟩
    refine ⟨⟨a, hc, ?_, fun slot hs => ((h.kept id step a hlog).2 slot hs).2⟩, ?_⟩
    · obtain ⟨ev', hev, he⟩ := mem_log.mp hrec
      obtain ⟨_, _, st⟩ := r.split.1.mem hev
      obtain ⟨slot, _, rfl, _, _, _, hafter⟩ := (step_inv st).recorded_inv he
      refine ⟨ev', hev, slot, ?_, ?_⟩
      · rw [hafter, round_record, if_pos rfl]
      · rw [hafter, announcements_record, if_pos rfl]
        exact mem_append_right _ mem_cons_self
    · obtain ⟨ev', hev, he⟩ := mem_log.mp hreceived
      obtain ⟨_, _, st⟩ := r.split.1.mem hev
      obtain ⟨hash, own, hi⟩ := received_inv st he
      exact ⟨ev', hev, hash, task.payload, own, hi, hh⟩

end Runs

section Example

/-- A client that takes part in a round of three clients. -/
def clientOf (inputs : List ClientInput) : Record × StepStateMachine :=
  (machine .zero).play [] (new ⟨1, 0⟩ true (Coordinator.threeClients 100))
    (.applyState (Coordinator.threeClients 100) ⟨Vector.replicate 8 0, Vector.replicate 8 0⟩ :: inputs)

lemma clientOf_run (inputs : List ClientInput) : (machine .zero).Run (clientOf inputs).1 (clientOf inputs).2 := by
  have h : (machine .zero).init (new ⟨1, 0⟩ true (Coordinator.threeClients 100)) := ⟨_, _, _, rfl⟩
  exact (Machine.Run.init h).play _

lemma input_of_mem_clientOf {inputs : List ClientInput} {ev : Event StepStateMachine ClientInput (List ClientEffect)}
    (h : ev ∈ (clientOf inputs).1) : (∃ state keys, ev.input = .applyState state keys) ∨ ev.input ∈ inputs := by
  rcases Machine.input_of_mem_play h with h | h
  · cases h
  · exact (mem_cons.mp h).imp_left fun h => ⟨_, _, h⟩

/-- The third client announces a result for its batch. -/
def announce (ticket : Bytes32) : ClientInput :=
  .applyMessage ⟨3, 0⟩ ⟨1, ⟨.trainer, 2, 2⟩, ⟨0, 0⟩, .trainingResult ⟨⟨100, 107⟩, ⟨ticket⟩⟩⟩

/-- The download of a payload without results. -/
def download (ticket : Bytes32) (step : BitVec 32) (batchId : RawBatchId) : ClientInput :=
  .applyDistroResult ticket ⟨step, 0, batchId, .new⟩ false

/-- Two results for one batch, whose tasks run at the same time. -/
def rivals : Record × StepStateMachine :=
  clientOf [announce 77, announce 78, download 77 1 ⟨100, 107⟩, download 78 1 ⟨100, 107⟩,
    .runTask 0 true, .runTask 1 true, .runTask 1 true, .runTask 0 true, .runTask 0 true, .runTask 1 true]

/-- Two tasks verify the same batch, and one of them casts the vote. -/
theorem one_vote_per_batch_rivals : (rivals.2.tasks.map VerifyTask.phase) = [.finish false, .finish false]
    ∧ votes 2 (log rivals.1) = [(⟨100, 107⟩, 0)] ∧ ((votes 2 (log rivals.1)).map Prod.fst).Nodup :=
  ⟨by decide +kernel, by decide +kernel, (one_vote_per_batch (clientOf_run _)).2.1 2⟩

end Example
end Leviathan.StepStateMachine
