import Leviathan.Coordinator.Transition

/-!
# Inversion of the coordinator's operations

What each operation of `Leviathan/Coordinator/Transition.lean` can have done when it succeeded, stated once so that no
later proof unfolds an operation. The operations with one outcome get an equivalence (`eject_eq_ok`, `pause_eq_ok`, …);
`tick`, which has eleven outcomes, gets the relation `TickStep` with one constructor for each (`tick_inv`). The outcomes
are written with pure updates, such as `entered` for `change_state`.
-/

namespace Leviathan
open Exec List

lemma FixedVec.asU16_len (v : FixedVec Client solanaMaxNumClients) : asU16 v.len = v.len :=
  asU16_of_lt (Nat.lt_of_le_of_lt v.bound (by decide))

lemma FixedVec.asU16_len_witnesses (v : FixedVec Witness solanaMaxNumWitnesses) : asU16 v.len = v.len :=
  asU16_of_lt (Nat.lt_of_le_of_lt v.bound (by decide))

/-- The epoch state after `move_clients_to_exited`. -/
structure Compacted (height : Nat) (e e' : CoordinatorEpochState) : Prop where
  eq : e' = { e with
    clients := e.clients.retain fun x => x.state == .healthy
    exitedClients := e'.exitedClients }
  exited : e'.exitedClients.toList = e.exitedClients.toList
    ++ (e.clients.toList.filter fun x => x.state != .healthy).map fun x => { x with exitedHeight := height }

namespace Compacted
variable {height : Nat} {e e' : CoordinatorEpochState}

lemma clients (h : Compacted height e e') :
    e'.clients.toList = e.clients.toList.filter fun x => x.state == .healthy := by
  rw [h.eq]
  rfl

lemma rounds (h : Compacted height e e') : e'.rounds = e.rounds := by rw [h.eq]

lemma roundsHead (h : Compacted height e e') : e'.roundsHead = e.roundsHead := by rw [h.eq]

lemma firstRound (h : Compacted height e e') : e'.firstRound = e.firstRound := by rw [h.eq]

lemma startTimestamp (h : Compacted height e e') : e'.startTimestamp = e.startTimestamp := by rw [h.eq]

end Compacted

namespace CoordinatorEpochState
variable {e : CoordinatorEpochState} {height : Nat}

/-- The clients that are not healthy move to the exited ones. -/
lemma moveClientsToExited_inv {e' : CoordinatorEpochState} (h : e.moveClientsToExited height = .ok e') :
    Compacted height e e' := by
  simp only [moveClientsToExited, bind_eq_ok, unwrap_eq_ok, FixedVec.extend_eq_some, Except.ok.injEq] at h
  obtain ⟨ex, ⟨_, hex⟩, rfl⟩ := h
  exact ⟨rfl, hex⟩

lemma moveClientsToExited_error {f : Fault CoordinatorError Panic} (h : e.moveClientsToExited height = .error f) :
    solanaMaxNumClients < e.exitedClients.toList.length + e.clients.toList.length := by
  by_contra hle
  have hl := length_filter_le (fun x : Client => x.state != .healthy) e.clients.toList
  obtain ⟨ex, hex⟩ : ∃ ex, e.exitedClients.extend ((e.clients.toList.filter fun x => x.state != .healthy).map
      fun x => { x with exitedHeight := height }) = some ex := by
    refine ⟨⟨e.exitedClients.toList ++ _, ?_⟩, FixedVec.extend_eq_some.mpr ⟨?_, rfl⟩⟩ <;>
    · simp only [length_append, length_map]
      omega
  simp [moveClientsToExited, hex] at h

end CoordinatorEpochState

/-- A healthy client leaves, any other stays as it is. -/
def Client.withdrawn (x : Client) : Client :=
  if x.state = .healthy then { x with state := .withdrawn } else x

namespace Coordinator

/-- The coordinator after entering a phase. -/
def entered (c : Coordinator) (now : Nat) (st : RunState) : Coordinator :=
  { c with runStateStartUnixTimestamp := now, runState := st }

/-- The coordinator after `start_cooldown`. -/
def cooled (c : Coordinator) (now : Nat) : Coordinator :=
  (c.setCurrentRound { c.currentRound with witnesses := .new }).entered now .cooldown

/-- The coordinator after the counters of a finished round have moved. -/
def roundClosed (c : Coordinator) (e : CoordinatorEpochState) (lastStep : Nat) : Coordinator :=
  { c with
    progress := { c.progress with step := c.progress.step + 1 }
    epochState := { e with lastStep } }

/-- The coordinator after the counters and the checkpoint of a finished epoch have moved. -/
def epochClosed (c : Coordinator) (e : CoordinatorEpochState) (dataIndex : Nat) : Coordinator :=
  { c with
    progress := { c.progress with epoch := c.progress.epoch + 1, epochStartDataIndex := dataIndex }
    epochState := e
    model := c.model.mapCheckpoint .toP2P }

/-- The coordinator after every healthy client has left. -/
def withdrawn (c : Coordinator) : Coordinator :=
  c.setEpochState { c.epochState with clients := c.epochState.clients.map Client.withdrawn }

/-- The phase has lasted its time. -/
def TimedOut (c : Coordinator) (now duration : Nat) : Prop :=
  c.runStateStartUnixTimestamp ≠ now ∧ duration + c.runStateStartUnixTimestamp ≤ now

/-- A round with the present clients has started (Rust `start_round_train`). -/
structure RoundStarted (P : Platform) (c : Coordinator) (now seed : Nat) (c' : Coordinator) : Prop where
  from_ : c.runState ≠ .roundTrain
  next : ∃ head height dataIndex, c.nextRound P = .ok (head, height, dataIndex)
    ∧ c' = (c.setEpochState { c.epochState with
        rounds := c.epochState.rounds.set head ⟨.new, dataIndex, seed, height, c.epochState.clients.len, 0⟩
          head.isLt
        roundsHead := head }).entered now .roundTrain

/-- An epoch with the waiting identities has started (in Rust `tick_waiting_for_members`). -/
structure EpochBegun (c : Coordinator) (ids : List NodeIdentity) (now : Nat) (c' : Coordinator) : Prop where
  clients : c'.epochState.clients.toList = (ids.take solanaMaxNumClients).map Client.new
  eq : c' = { c with
    model := c'.model
    runStateStartUnixTimestamp := now
    runState := .warmup
    epochState :=
      { CoordinatorEpochState.zeroed with
        firstRound := true
        coldStartEpoch := c.epochState.coldStartEpoch
        startStep := c.progress.step
        startTimestamp := now
        clients := c'.epochState.clients } }
  model : c'.model = c.model ∨ c'.model = c.model.mapCheckpoint .toRepository

/-- A witness has been appended to the current round. -/
structure WitnessStored (c : Coordinator) (from_ : NodeIdentity) (w : Witness) (c' : Coordinator) : Prop where
  fresh : hasWitnessed c.epochState.clients.toList from_ c.currentRound.witnesses.toList = .ok false
  stored : ∃ ws : FixedVec Witness solanaMaxNumWitnesses,
    ws.toList = c.currentRound.witnesses.toList ++ [w]
      ∧ c' = c.setCurrentRound { c.currentRound with witnesses := ws }

/-- A client is as it was, or was healthy and is now dropped. -/
def MayDrop (x y : Client) : Prop := y = x ∨ (x.state = .healthy ∧ y = { x with state := .dropped })

/-- The outcomes of a tick (Rust `tick`). -/
inductive TickStep (P : Platform) (c : Coordinator) (pending : Option (List NodeIdentity))
    (now seed : Nat) : Coordinator → TickResult → Prop where
  | idle :
    c.runState = .waitingForMembers ∨ c.runState = .roundTrain ∨ c.runState = .roundWitness
      ∨ c.runState = .cooldown →
    TickStep P c pending now seed c .ticked
  | beginEpoch {ids c'} :
    c.runState = .waitingForMembers →
    pending = some ids →
    c.config.initMinClients ≤ asU16 ids.length →
    c.TimedOut now c.config.waitingForMembersExtraTime →
    c.EpochBegun ids now c' →
    TickStep P c pending now seed c' .ticked
  | warm {e} :
    c.runState = .warmup →
    Compacted 0 c.epochState e →
    c.config.minClients ≤ e.clients.len →
    TickStep P c pending now seed (c.setEpochState e) .ticked
  | warmAbort {e} :
    c.runState = .warmup →
    Compacted 0 c.epochState e →
    e.clients.len < c.config.minClients →
    TickStep P c pending now seed ((c.setEpochState e).entered now c.betweenEpochs) (.epochEnd false)
  | train {c'} :
    c.runState = .warmup →
    c.TimedOut now c.config.warmupTime →
    c.RoundStarted P now seed c' →
    c.config.minClients ≤ c.epochState.clients.len →
    TickStep P c pending now seed c' .ticked
  | trainAbort {c'} :
    c.runState = .warmup →
    c.TimedOut now c.config.warmupTime →
    c.RoundStarted P now seed c' →
    c.epochState.clients.len < c.config.minClients →
    TickStep P c pending now seed (c'.entered now c.betweenEpochs) (.epochEnd false)
  | witness :
    c.runState = .roundTrain →
    c.TimedOut now c.config.maxRoundTrainTime →
    TickStep P c pending now seed (c.entered now .roundWitness) .ticked
  | coolEmpty {e} :
    c.runState = .roundWitness →
    c.TimedOut now c.config.roundWitnessTime →
    Compacted c.currentRound.height { c.epochState with firstRound := false } e →
    c.currentRound.witnesses.len = 0 →
    TickStep P c pending now seed ((c.roundClosed e e.lastStep).withdrawn.cooled now) .ticked
  | cool {e lastStep} :
    c.runState = .roundWitness →
    c.TimedOut now c.config.roundWitnessTime →
    Compacted c.currentRound.height { c.epochState with firstRound := false } e →
    c.currentRound.witnesses.len ≠ 0 →
    (c.roundClosed e e.lastStep).setLastStep now = .ok (c.roundClosed e lastStep) →
    (lastStep ≠ 0 ∧ c.progress.step + 1 = lastStep)
      ∨ (c.roundClosed e lastStep).cannotContinue c.currentRound.witnesses.len = .ok true →
    TickStep P c pending now seed ((c.roundClosed e lastStep).cooled now) .ticked
  | nextRound {e lastStep c'} :
    c.runState = .roundWitness →
    c.TimedOut now c.config.roundWitnessTime →
    Compacted c.currentRound.height { c.epochState with firstRound := false } e →
    c.currentRound.witnesses.len ≠ 0 →
    (c.roundClosed e e.lastStep).setLastStep now = .ok (c.roundClosed e lastStep) →
    (c.roundClosed e lastStep).cannotContinue c.currentRound.witnesses.len = .ok false →
    (c.roundClosed e lastStep).RoundStarted P now seed c' →
    TickStep P c pending now seed c' .ticked
  | endEpoch {e dataIndex} :
    c.runState = .cooldown →
    c.TimedOut now c.config.cooldownTime →
    Compacted c.currentRound.height c.epochState e →
    c.pendingPause = false →
    TickStep P c pending now seed
      ((c.epochClosed { e with coldStartEpoch := false } dataIndex).entered now c.betweenEpochs)
      (.epochEnd true)
  | endEpochPaused {e dataIndex} :
    c.runState = .cooldown →
    c.TimedOut now c.config.cooldownTime →
    Compacted c.currentRound.height c.epochState e →
    c.pendingPause = true →
    TickStep P c pending now seed
      ({ c.epochClosed { e with clients := e.clients.map Client.withdrawn, coldStartEpoch := true } dataIndex with
        pendingPause := false }.entered now .paused)
      (.epochEnd true)

section Rounds
variable {P : Platform} {c c' : Coordinator}

@[simp] lemma currentRound_setCurrentRound (round : Round) :
    (c.setCurrentRound round).currentRound = round := by
  simp [currentRound, setCurrentRound, setEpochState]

@[simp] lemma previousSlot_setCurrentRound (round : Round) :
    (c.setCurrentRound round).previousSlot = c.previousSlot := by
  have hne : c.epochState.roundsHead.val ≠ (c.epochState.roundsHead - 1).val := by
    have : ∀ h : Fin numStoredRounds, h.val ≠ (h - 1).val := by decide
    exact this _
  simp [previousSlot, setCurrentRound, setEpochState, hne]

lemma previousRound_eq_some {round : Round} (h : c.previousRound = some round) : round = c.previousSlot := by
  unfold previousRound at h
  split at h
  · cases h
  · exact (Option.some.inj h).symm

end Rounds

section Inversion
variable {P : Platform} {c c' : Coordinator} {now index seed : Nat} {from_ : NodeIdentity} {w : Witness}

lemma checkTimeout_true {duration : Nat}
    (h : (c.checkTimeout now duration : Exec CoordinatorError Panic Bool) = .ok true) : c.TimedOut now duration := by
  unfold checkTimeout at h
  split at h
  · simp at h
  · rename_i hne
    simp only [bind_eq_ok, addU_eq_ok, Except.ok.injEq, decide_eq_true_eq] at h
    obtain ⟨_, ⟨_, rfl⟩, hle⟩ := h
    exact ⟨hne, hle⟩

@[simp] lemma changeState_eq_ok {st : RunState} :
    c.changeState now st = .ok c' ↔ c.runState ≠ st ∧ c' = c.entered now st := by
  simp only [changeState, bind_eq_ok, ensure_eq_ok, Except.ok.injEq]
  constructor
  · rintro ⟨_, hne, rfl⟩
    exact ⟨hne, rfl⟩
  · rintro ⟨hne, rfl⟩
    exact ⟨(), hne, rfl⟩

@[simp] lemma startWaitingForMembers_eq_ok :
    c.startWaitingForMembers now = .ok c' ↔ c.runState ≠ c.betweenEpochs ∧ c' = c.entered now c.betweenEpochs :=
  changeState_eq_ok

@[simp] lemma startCooldown_eq_ok : c.startCooldown now = .ok c' ↔ c.runState ≠ .cooldown ∧ c' = c.cooled now :=
  changeState_eq_ok

lemma startRoundTrain_inv (h : c.startRoundTrain P now seed 0 = .ok c') : c.RoundStarted P now seed c' := by
  simp only [startRoundTrain, bind_eq_ok, changeState_eq_ok, FixedVec.asU16_len] at h
  obtain ⟨⟨head, height, dataIndex⟩, hn, hne, rfl⟩ := h
  exact ⟨hne, head, height, dataIndex, hn, rfl⟩

lemma beginEpoch_inv {ids : List NodeIdentity} (h : c.beginEpoch ids now = .ok c') : c.EpochBegun ids now c' := by
  simp only [beginEpoch, startWarmup, bind_eq_ok, unwrap_eq_ok, FixedVec.extend_eq_some, changeState_eq_ok] at h
  obtain ⟨e, _, clients, ⟨_, hcl⟩, _, rfl⟩ := h
  refine ⟨hcl, rfl, ?_⟩
  by_cases hp : (!e.clients.toList.any fun client => ids.any (· == client.id)) = true
  · exact .inr (if_pos hp)
  · exact .inl (if_neg hp)

lemma markClient_eq_ok {allowed : ClientState → Bool} {st : ClientState} {err : CoordinatorError} :
    c.markClient index allowed st err = .ok c' ↔
    ∃ x, c.epochState.clients.get? index = some x ∧ allowed x.state = true
      ∧ c' = c.setClientState index st := by
  unfold markClient
  cases hx : c.epochState.clients.get? index with
  | none => simp
  | some x =>
    by_cases hh : allowed x.state = true
    · simp only [hh, if_true, Except.ok.injEq, Option.some.injEq]
      refine ⟨fun h => ⟨x, rfl, hh, h.symm⟩, ?_⟩
      rintro ⟨_, _, _, h⟩
      exact h.symm
    · simp only [if_neg hh, fail_ne_ok, Option.some.injEq, false_iff]
      rintro ⟨_, rfl, hx', _⟩
      exact hh hx'

lemma withdraw_eq_ok : c.withdraw index = .ok c' ↔
    ∃ x, c.epochState.clients.get? index = some x ∧ x.state = .healthy
      ∧ c' = c.setClientState index .withdrawn := by
  simp [withdraw, markClient_eq_ok]

lemma eject_eq_ok : c.eject index = .ok c' ↔
    ∃ x, c.epochState.clients.get? index = some x ∧ (x.state = .healthy ∨ x.state = .dropped)
      ∧ c' = c.setClientState index .ejected := by
  simp [eject, markClient_eq_ok]

lemma withdrawOrSkip_eq (c : Coordinator) (index : Nat) :
    c.withdrawOrSkip index = c.setEpochState { c.epochState with
      clients := c.epochState.clients.modify index Client.withdrawn } := by
  unfold withdrawOrSkip
  cases hw : c.withdraw index with
  | ok c' =>
    obtain ⟨x, hx, hh, rfl⟩ := withdraw_eq_ok.mp hw
    simp only [setClientState]
    rw [FixedVec.modify_congr]
    intro y hy
    cases hx.symm.trans hy
    simp [Client.withdrawn, hh]
  | error f =>
    have hid : c.epochState.clients.modify index Client.withdrawn
        = c.epochState.clients.modify index id := by
      refine FixedVec.modify_congr fun x hx => if_neg fun hh => ?_
      have hok := withdraw_eq_ok.mpr ⟨x, hx, hh, rfl⟩
      rw [hw] at hok
      cases hok
    have hsame : c.epochState.clients.modify index id = c.epochState.clients :=
      FixedVec.ext (by simp)
    rw [hid, hsame]
    rfl

lemma withdrawAll_eq (c : Coordinator) : c.withdrawAll = c.withdrawn := by
  have hloop : ∀ is : List Nat, is.foldl withdrawOrSkip c
      = c.setEpochState { c.epochState with
          clients := is.foldl (fun v i => v.modify i Client.withdrawn) c.epochState.clients } := by
    intro is
    induction is generalizing c with
    | nil => rfl
    | cons i is ih =>
      rw [foldl_cons, withdrawOrSkip_eq, ih]
      rfl
  rw [withdrawAll, hloop, FixedVec.len, FixedVec.foldl_modify]
  rfl

/-- A pause waits for the end of a round, or is at once. -/
lemma pause_inv (h : c.pause now = .ok c') :
    (c.active = true ∧ c' = { c with pendingPause := true })
      ∨ ((c.runState = .waitingForMembers ∨ c.runState = .warmup)
        ∧ c' = (c.withdrawn.setEpochState { c.withdrawn.epochState with coldStartEpoch := true }).entered
            now .paused) := by
  unfold pause at h
  split at h
  · cases h
  · rename_i hh
    split at h
    · rename_i ha
      cases h
      exact .inl ⟨ha, rfl⟩
    · rename_i ha
      simp only [withdrawAll_eq, bind_eq_ok, changeState_eq_ok, Except.ok.injEq] at h
      obtain ⟨_, ⟨_, rfl⟩, rfl⟩ := h
      refine .inr ⟨?_, rfl⟩
      unfold halted at hh
      unfold active at ha
      cases hs : c.runState <;> simp_all

lemma resume_inv (h : c.resume now = .ok c') : c.runState = .paused ∧ c' = c.entered now c.betweenEpochs := by
  simp only [resume, bind_eq_ok, require_eq_ok, startWaitingForMembers_eq_ok] at h
  obtain ⟨_, hp, _, rfl⟩ := h
  exact ⟨hp, rfl⟩

lemma checkpoint_inv {repo : Checkpoint} (h : c.checkpoint from_ index repo = .ok c') :
    c' = { c with model := c.model.mapCheckpoint fun current => current.report repo } := by
  simp only [checkpoint, bind_eq_ok, require_eq_ok, Except.ok.injEq] at h
  obtain ⟨_, _, rfl⟩ := h
  rfl

lemma pushWitness_inv (h : c.pushWitness from_ w = .ok c') : c.WitnessStored from_ w c' := by
  simp only [pushWitness, bind_eq_ok, require_eq_ok, okOr_eq_ok, FixedVec.push_eq_some, Except.ok.injEq] at h
  obtain ⟨_, hf, _, rfl, ws, ⟨_, hws⟩, rfl⟩ := h
  exact ⟨hf, ws, hws, rfl⟩

/-- A report in warmup is stored, and the last one starts the round. -/
lemma warmupWitness_inv (h : c.warmupWitness P from_ w now seed = .ok c') :
    (c.runState = .roundTrain ∧ c' = c)
      ∨ (c.runState = .warmup
        ∧ CommitteeSelection.verifyClient from_ w.proof.index c.epochState.clients.toList = true
        ∧ ∃ c1, c.WitnessStored from_ w c1
          ∧ (c' = c1 ∨ (c1.currentRound.witnesses.len = c.witnessTarget ∧ c1.RoundStarted P now seed c'))) := by
  unfold warmupWitness at h
  split at h
  · cases h
  · split at h
    · cases h
      exact .inl ⟨‹_›, rfl⟩
    · simp only [bind_eq_ok, require_eq_ok] at h
      obtain ⟨_, hs, _, hv, c1, hp, h⟩ := h
      refine .inr ⟨hs, hv, c1, pushWitness_inv hp, ?_⟩
      split at h
      · exact .inr ⟨‹_›, startRoundTrain_inv h⟩
      · cases h
        exact .inl rfl

lemma WitnessStored.runState (h : c.WitnessStored from_ w c') : c'.runState = c.runState := by
  obtain ⟨_, _, _, rfl⟩ := h
  rfl

/-- A witness is checked and stored, and the last one that is waited for ends the phase. -/
lemma witness_inv (h : c.witness P from_ w now = .ok c') :
    ∃ selection c1, (c.runState = .roundWitness ∨ c.runState = .roundTrain)
      ∧ CommitteeSelection.fromCoordinator P c 0 = .ok selection
      ∧ (selection.verifyWitnessForClient P from_ w.proof c.epochState.clients.toList
          : Exec CoordinatorError Panic Bool) = .ok true
      ∧ w.proof.witness = true
      ∧ c.WitnessStored from_ w c1
      ∧ c' = if c1.currentRound.witnesses.len = c.witnessTarget ∧ c.runState ≠ .roundWitness then
          c1.entered now .roundWitness else c1 := by
  simp only [witness, bind_eq_ok, require_eq_ok] at h
  obtain ⟨_, _, _, hs, sel, hsel, _, hv, _, ⟨rfl, hw⟩, c1, hp, h⟩ := h
  have hst := pushWitness_inv hp
  refine ⟨sel, c1, hs, hsel, hv, hw, hst, ?_⟩
  rw [hst.runState] at h
  split at h
  · rw [if_pos ‹_›]
    exact (changeState_eq_ok.mp h).2
  · rw [if_neg ‹_›]
    exact (Except.ok.inj h).symm

lemma forall₂_mayDrop_modify {l l' : List Client} {i : Nat} {x : Client} (hx : l[i]? = some x)
    (hh : x.state = .healthy)
    (h : List.Forall₂ MayDrop (l.modify i fun x => { x with state := .dropped }) l') :
    List.Forall₂ MayDrop l l' := by
  induction l generalizing i l' with
  | nil => cases hx
  | cons a l ih =>
    cases i with
    | zero =>
      cases hx
      rw [modify_zero_cons] at h
      cases h with
      | cons hb hl =>
        obtain rfl | ⟨hd, _⟩ := hb
        · exact .cons (.inr ⟨hh, rfl⟩) hl
        · cases hd
    | succ i =>
      rw [modify_succ_cons] at h
      cases h with
      | cons hb hl => exact .cons hb (ih hx hl)

lemma foldlM_dropClient_inv {proofs : List CommitteeProof} {n m : Nat}
    (h : proofs.foldlM dropClient (c, n) = .ok (c', m)) :
    ∃ clients : FixedVec Client solanaMaxNumClients,
      List.Forall₂ MayDrop c.epochState.clients.toList clients.toList
        ∧ c' = c.setEpochState { c.epochState with clients } := by
  induction proofs generalizing c n with
  | nil =>
    cases h
    exact ⟨_, List.forall₂_same.mpr fun _ _ => .inl rfl, rfl⟩
  | cons p ps ih =>
    rw [foldlM_cons] at h
    obtain ⟨⟨c1, k⟩, hd, h⟩ := bind_eq_ok.mp h
    obtain ⟨clients, hcl, rfl⟩ := ih h
    unfold dropClient at hd
    split at hd
    · cases hd
    · rename_i x hx
      split at hd
      · rename_i hh
        cases hd
        exact ⟨clients, forall₂_mayDrop_modify hx hh hcl, rfl⟩
      · cases hd
        exact ⟨clients, hcl, rfl⟩

/-- A health check passes all its checks, and only drops clients. -/
lemma healthCheck_inv {checks : List (NodeIdentity × CommitteeProof)} {n : Nat}
    (h : c.healthCheck P checks = .ok (c', n)) :
    c.halted = false ∧ 2 ≤ c.currentRound.height ∧ c.checkUnhealthy P checks = .ok ()
      ∧ ∃ clients : FixedVec Client solanaMaxNumClients,
        List.Forall₂ MayDrop c.epochState.clients.toList clients.toList
          ∧ c' = c.setEpochState { c.epochState with clients } := by
  simp only [healthCheck, bind_eq_ok, require_eq_ok] at h
  obtain ⟨_, hh, _, hr, _, hc, h⟩ := h
  exact ⟨hh, hr, hc, foldlM_dropClient_inv h⟩

section Tick
variable {pending : Option (List NodeIdentity)} {now seed : Nat} {r : TickResult}

lemma tickWaitingForMembers_inv (hs : c.runState = .waitingForMembers)
    (h : c.tickWaitingForMembers pending now = .ok (c', r)) : TickStep P c pending now seed c' r := by
  unfold tickWaitingForMembers at h
  split at h
  · cases h
    exact .idle (.inl hs)
  · rename_i ids
    split at h
    · cases h
      exact .idle (.inl hs)
    · rename_i hlen
      obtain ⟨timeout, ht, h⟩ := bind_eq_ok.mp h
      split at h
      · rename_i htrue
        subst htrue
        simp only [bind_eq_ok, ok_pair] at h
        obtain ⟨_, hb, rfl, rfl⟩ := h
        exact .beginEpoch hs rfl (Nat.le_of_not_lt hlen) (checkTimeout_true ht) (beginEpoch_inv hb)
      · cases h
        exact .idle (.inl hs)

lemma RoundStarted.frame (h : c.RoundStarted P now seed c') :
    c'.epochState.clients = c.epochState.clients ∧ c'.config = c.config ∧ c'.progress = c.progress := by
  obtain ⟨_, _, _, _, _, rfl⟩ := h
  exact ⟨rfl, rfl, rfl⟩

lemma RoundStarted.tieBreakerTasks (h : c.RoundStarted P now seed c') : c'.currentRound.tieBreakerTasks = 0 := by
  obtain ⟨_, head, height, dataIndex, _, rfl⟩ := h
  simp [Coordinator.currentRound, entered, setEpochState]

lemma RoundStarted.since (h : c.RoundStarted P now seed c') : c'.runStateStartUnixTimestamp = now
    ∧ c'.epochState.startTimestamp = c.epochState.startTimestamp := by
  obtain ⟨_, _, _, _, _, rfl⟩ := h
  exact ⟨rfl, rfl⟩

lemma RoundStarted.active (h : c.RoundStarted P now seed c') : c'.active = true := by
  obtain ⟨_, _, _, _, _, rfl⟩ := h
  rfl

lemma RoundStarted.currentRound (h : c.RoundStarted P now seed c') :
    c'.currentRound.clientsLen = c.epochState.clients.len
      ∧ c'.currentRound.randomSeed = seed ∧ c'.currentRound.witnesses = .new := by
  obtain ⟨_, head, height, dataIndex, _, rfl⟩ := h
  simp [Coordinator.currentRound, entered, setEpochState]

lemma RoundStarted.first (h : c.RoundStarted P now seed c') (hf : c.epochState.firstRound = true) :
    c'.currentRound.height = 0 := by
  obtain ⟨_, head, height, dataIndex, hn, rfl⟩ := h
  simp only [nextRound, hf, if_true, ok_pair] at hn
  obtain ⟨rfl, rfl, _⟩ := hn
  simp [Coordinator.currentRound, entered, setEpochState]

lemma RoundStarted.later (h : c.RoundStarted P now seed c') (hf : c.epochState.firstRound = false) :
    c'.previousSlot = c.currentRound ∧ c'.currentRound.height = c.currentRound.height + 1 := by
  obtain ⟨_, head, height, dataIndex, hn, rfl⟩ := h
  simp only [nextRound, hf, Bool.false_eq_true, if_false, bind_eq_ok, mulU_eq_ok, addU_eq_ok, ok_pair] at hn
  obtain ⟨_, _, _, ⟨_, rfl⟩, _, _, rfl, rfl, rfl⟩ := hn
  have hne : (c.epochState.roundsHead + 1).val ≠ c.epochState.roundsHead.val := by
    have : ∀ h : Fin numStoredRounds, (h + 1).val ≠ h.val := by decide
    exact this _
  have hback : c.epochState.roundsHead + 1 - 1 = c.epochState.roundsHead := by
    have : ∀ h : Fin numStoredRounds, h + 1 - 1 = h := by decide
    exact this _
  simp [Coordinator.currentRound, previousSlot, entered, setEpochState, hback, hne]

lemma tickWarmup_inv (hs : c.runState = .warmup) (h : c.tickWarmup P now seed = .ok (c', r)) :
    TickStep P c pending now seed c' r := by
  simp only [tickWarmup, warmUp, bind_eq_ok, FixedVec.asU16_len] at h
  obtain ⟨c1, ⟨timeout, ht, h1⟩, h⟩ := h
  cases timeout with
  | true =>
    have hr := startRoundTrain_inv h1
    obtain ⟨hcl, hcfg, hpr⟩ := hr.frame
    rw [hcl, hcfg] at h
    split at h
    · rename_i hlt
      simp only [bind_eq_ok, startWaitingForMembers_eq_ok, ok_pair] at h
      obtain ⟨_, ⟨_, rfl⟩, rfl, rfl⟩ := h
      have hb : c1.betweenEpochs = c.betweenEpochs := by rw [betweenEpochs, hpr, hcfg, betweenEpochs]
      rw [hb]
      exact .trainAbort hs (checkTimeout_true ht) hr hlt
    · rename_i hge
      cases h
      exact .train hs (checkTimeout_true ht) hr (Nat.le_of_not_lt hge)
  | false =>
    simp only [Bool.false_eq_true, if_false, bind_eq_ok, Except.ok.injEq] at h1
    obtain ⟨e, hm, rfl⟩ := h1
    have hc := CoordinatorEpochState.moveClientsToExited_inv hm
    split at h
    · rename_i hlt
      simp only [bind_eq_ok, startWaitingForMembers_eq_ok, ok_pair] at h
      obtain ⟨_, ⟨_, rfl⟩, rfl, rfl⟩ := h
      exact .warmAbort hs hc hlt
    · rename_i hge
      cases h
      exact .warm hs hc (Nat.le_of_not_lt hge)

lemma tickRoundTrain_inv (hs : c.runState = .roundTrain) (h : c.tickRoundTrain now = .ok (c', r)) :
    TickStep P c pending now seed c' r := by
  obtain ⟨timeout, ht, h⟩ := bind_eq_ok.mp h
  cases timeout with
  | true =>
    simp only [if_true, bind_eq_ok, changeState_eq_ok, ok_pair] at h
    obtain ⟨_, ⟨_, rfl⟩, rfl, rfl⟩ := h
    exact .witness hs (checkTimeout_true ht)
  | false =>
    cases h
    exact .idle (.inr (.inl hs))

lemma setLastStep_inv (h : c.setLastStep now = .ok c') :
    ∃ lastStep, c' = c.setEpochState { c.epochState with lastStep } := by
  unfold setLastStep at h
  obtain ⟨timeout, _, h⟩ := bind_eq_ok.mp h
  split at h
  · simp only [bind_eq_ok, Except.ok.injEq] at h
    obtain ⟨lastStep, _, rfl⟩ := h
    split
    · exact ⟨lastStep, rfl⟩
    · exact ⟨c.epochState.lastStep, rfl⟩
  · cases h
    exact ⟨c.epochState.lastStep, rfl⟩

lemma tickRoundWitness_inv (hs : c.runState = .roundWitness)
    (h : c.tickRoundWitness P now seed = .ok (c', r)) : TickStep P c pending now seed c' r := by
  obtain ⟨timeout, ht, h⟩ := bind_eq_ok.mp h
  cases timeout with
  | false =>
    cases h
    exact .idle (.inr (.inr (.inl hs)))
  | true =>
    have hto := checkTimeout_true ht
    simp only [if_true, bind_eq_ok, addU_eq_ok, FixedVec.asU16_len_witnesses] at h
    obtain ⟨_, ⟨_, rfl⟩, e, hm, h⟩ := h
    have hc := CoordinatorEpochState.moveClientsToExited_inv hm
    split at h
    · rename_i hw
      simp only [bind_eq_ok, startCooldown_eq_ok, ok_pair, withdrawAll_eq] at h
      obtain ⟨_, ⟨_, rfl⟩, rfl, rfl⟩ := h
      exact .coolEmpty hs hto hc hw
    · rename_i hw
      obtain ⟨c2, hl, h⟩ := bind_eq_ok.mp h
      obtain ⟨lastStep, rfl⟩ := setLastStep_inv hl
      split at h
      · rename_i hlast
        simp only [bind_eq_ok, startCooldown_eq_ok, ok_pair] at h
        obtain ⟨_, ⟨_, rfl⟩, rfl, rfl⟩ := h
        simp only [CoordinatorEpochState.lastStepSet, Bool.and_eq_true, bne_iff_ne, ne_eq, beq_iff_eq]
          at hlast
        exact .cool hs hto hc hw hl (.inl hlast)
      · obtain ⟨stop, hstop, h⟩ := bind_eq_ok.mp h
        cases stop with
        | true =>
          simp only [if_true, bind_eq_ok, startCooldown_eq_ok, ok_pair] at h
          obtain ⟨_, ⟨_, rfl⟩, rfl, rfl⟩ := h
          exact .cool hs hto hc hw hl (.inr hstop)
        | false =>
          simp only [Bool.false_eq_true, if_false, bind_eq_ok, ok_pair] at h
          obtain ⟨_, hr, rfl, rfl⟩ := h
          exact .nextRound hs hto hc hw hl hstop (startRoundTrain_inv hr)

lemma tickCooldown_inv (hs : c.runState = .cooldown) (h : c.tickCooldown P now = .ok (c', r)) :
    TickStep P c pending now seed c' r := by
  obtain ⟨timeout, ht, h⟩ := bind_eq_ok.mp h
  cases timeout with
  | false =>
    cases h
    exact .idle (.inr (.inr (.inr hs)))
  | true =>
    have hto := checkTimeout_true ht
    simp only [if_true, bind_eq_ok, addU_eq_ok] at h
    obtain ⟨_, _, dataIndex, _, _, ⟨_, rfl⟩, e, hm, h⟩ := h
    have hc := CoordinatorEpochState.moveClientsToExited_inv hm
    split at h
    · rename_i hp
      simp only [bind_eq_ok, changeState_eq_ok, ok_pair, withdrawAll_eq] at h
      obtain ⟨_, ⟨_, rfl⟩, rfl, rfl⟩ := h
      exact .endEpochPaused hs hto hc hp
    · rename_i hp
      simp only [bind_eq_ok, startWaitingForMembers_eq_ok, ok_pair] at h
      obtain ⟨_, ⟨_, rfl⟩, rfl, rfl⟩ := h
      exact .endEpoch hs hto hc (by simpa using hp)

/-- A tick does one of the steps of the phase it finds. -/
lemma tick_inv (h : c.tick P pending now seed = .ok (c', r)) : TickStep P c pending now seed c' r := by
  unfold tick at h
  split at h
  · cases h
  · cases h
  · cases h
  · exact tickWaitingForMembers_inv ‹_› h
  · exact tickWarmup_inv ‹_› h
  · exact tickRoundTrain_inv ‹_› h
  · exact tickRoundWitness_inv ‹_› h
  · exact tickCooldown_inv ‹_› h

end Tick
end Inversion
end Coordinator
end Leviathan
