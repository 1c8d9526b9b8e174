import Leviathan.Coordinator.Steps
import Leviathan.Coordinator.Lottery

/-!
# The witnesses of a round

A stored witness names its sender by an index into the roster (Rust `WitnessProof`). `Named` says which clients a list
of witnesses names. Within a round the roster stays as it is, and the lottery of the round decides who may report.
`Genuine` is the invariant: the witnesses of the current round are distinct clients that its lottery has elected
(`genuine_of_run`). A checked configuration elects no more than fit into a round.
-/

namespace Leviathan
open Exec List

namespace Coordinator

/-- The indices of stored witnesses name these clients of a roster, in order. -/
def Named (roster : List Pubkey) (ws : List Witness) (keys : List Pubkey) : Prop :=
  ws.map (fun w => roster[w.proof.index]?) = keys.map some

section Named
variable {roster keys : List Pubkey} {ws : List Witness} {clients : List Client}

lemma Named.nil : Named roster [] [] := rfl

lemma Named.snoc {w : Witness} {key : Pubkey} (h : Named roster ws keys) (hw : roster[w.proof.index]? = some key) :
    Named roster (ws ++ [w]) (keys ++ [key]) := by
  unfold Named at h ⊢
  rw [map_append, map_append, h, map_singleton, hw, map_singleton]

lemma Named.hasWitnessed (h : Named (clients.map Client.signer) ws keys) (from_ : NodeIdentity) :
    hasWitnessed clients from_ ws = .ok (decide (from_.signer ∈ keys)) := by
  induction ws generalizing keys with
  | nil =>
    have hk : keys = [] := by simpa [Named] using h.symm
    rw [hk]
    rfl
  | cons w ws ih =>
    cases keys with
    | nil => cases h
    | cons key keys =>
      obtain ⟨hw, hrest⟩ := List.cons.inj h
      dsimp only at hw
      rw [getElem?_map] at hw
      obtain ⟨x, hx, rfl⟩ := Option.map_eq_some_iff.mp hw
      rw [Coordinator.hasWitnessed, hx]
      dsimp only
      by_cases hid : x.id.signer = from_.signer
      · rw [if_pos (NodeIdentity.beq_iff.mpr hid)]
        simp [Client.signer, hid]
      · rw [if_neg (fun hb => hid (NodeIdentity.beq_iff.mp hb)), ih hrest]
        simp [Client.signer, Ne.symm hid]

lemma getElem?_of_verifyClient {from_ : NodeIdentity} {index : Nat}
    (h : CommitteeSelection.verifyClient from_ index clients = true) :
    (clients.map Client.signer)[index]? = some from_.signer := by
  unfold CommitteeSelection.verifyClient at h
  rw [getElem?_map]
  split at h
  case h_1 x hx =>
    rw [hx, Option.map_some, Client.signer, NodeIdentity.beq_iff.mp h]
  case h_2 => cases h

lemma Named.nodup (h : Named roster ws keys) (hn : keys.Nodup) : (ws.map fun w => w.proof.index).Nodup := by
  have hsome : ((ws.map fun w => w.proof.index).map fun i => roster[i]?).Nodup := by
    rw [map_map]
    refine (congrArg List.Nodup h).mpr (hn.map (Option.some_injective _))
  exact hsome.of_map _

end Named

section Elected
variable {P : Platform} {c c' : Coordinator} {w : Witness} {selection : CommitteeSelection}

/-- The lottery of the current round has elected the client that a witness names. -/
def Elected (P : Platform) (c : Coordinator) (w : Witness) : Prop :=
  ∃ selection, CommitteeSelection.fromCoordinator P c 0 = .ok selection ∧ w.proof.index < selection.totalNodes
    ∧ w.proof = selection.election P w.proof.index ∧ w.proof.witness = true

/-- How many clients the lottery of the current round elects. -/
def electedWitnesses (P : Platform) (c : Coordinator) : Nat :=
  match CommitteeSelection.fromCoordinator P c 0 with
  | .ok selection => Nat.count (fun i => (selection.election P i).witness = true) selection.totalNodes
  | .error _ => 0

lemma fromCoordinator_congr (hc : c'.config = c.config) (hr : c'.currentRound.emptied = c.currentRound.emptied) :
    CommitteeSelection.fromCoordinator P c' 0 = CommitteeSelection.fromCoordinator P c 0 := by
  have h1 := congrArg Round.tieBreakerTasks hr
  have h2 := congrArg Round.clientsLen hr
  have h3 := congrArg Round.randomSeed hr
  dsimp only [Round.emptied] at h1 h2 h3
  show CommitteeSelection.new P c'.currentRound.tieBreakerTasks c'.config.witnessNodes c'.config.verificationPercent
    c'.currentRound.clientsLen c'.currentRound.randomSeed = CommitteeSelection.new P c.currentRound.tieBreakerTasks
    c.config.witnessNodes c.config.verificationPercent c.currentRound.clientsLen c.currentRound.randomSeed
  rw [h1, h2, h3, hc]

lemma fromCoordinator_zero : CommitteeSelection.fromCoordinator P c 0
    = CommitteeSelection.new P c.currentRound.tieBreakerTasks c.config.witnessNodes c.config.verificationPercent
        c.currentRound.clientsLen c.currentRound.randomSeed := rfl

lemma fromCoordinator_numbers (h : CommitteeSelection.fromCoordinator P c 0 = .ok selection) :
    selection.totalNodes = c.currentRound.clientsLen ∧ selection.witnessNodes = c.config.witnessNodes
      ∧ c.config.witnessNodes ≤ c.currentRound.clientsLen := by
  rw [fromCoordinator_zero] at h
  have hle := CommitteeSelection.witnessNodes_le_of_new h
  obtain ⟨_, _, rfl⟩ := CommitteeSelection.new_eq_ok h
  exact ⟨rfl, rfl, hle⟩

lemma elected_of_verified {from_ : NodeIdentity} (hlen : c.currentRound.clientsLen ≤ solanaMaxNumClients)
    (hsel : CommitteeSelection.fromCoordinator P c 0 = .ok selection)
    (hv : (selection.verifyWitnessForClient P from_ w.proof c.epochState.clients.toList
      : Exec CoordinatorError Panic Bool) = .ok true)
    (hw : w.proof.witness = true) : c.roster[w.proof.index]? = some from_.signer ∧ Elected P c w := by
  unfold CommitteeSelection.verifyWitnessForClient at hv
  split at hv
  case isFalse => cases hv
  case isTrue hc =>
    have htotal := (fromCoordinator_numbers hsel).1
    have hlt : w.proof.index < selection.totalNodes := by
      obtain ⟨_, hi, _⟩ := bind_eq_ok.mp hv
      exact CommitteeSelection.index_lt_of_computeShuffledIndex hi
    have hbound : selection.totalNodes ≤ 2 ^ 63 := by
      rw [htotal]
      exact hlen.trans (by decide)
    exact ⟨getElem?_of_verifyClient hc, selection, hsel, hlt,
      (CommitteeSelection.verifyWitness_iff hbound hlt).mp hv, hw⟩

end Elected

/-- The witnesses of the current round are distinct clients that its lottery has elected. -/
structure Genuine (P : Platform) (c : Coordinator) (keys : List Pubkey) : Prop where
  named : Named c.roster c.currentRound.witnesses.toList keys
  nodup : keys.Nodup
  elected : ∀ w ∈ c.currentRound.witnesses.toList, Elected P c w

section Genuine
variable {P : Platform} {c c' : Coordinator} {keys : List Pubkey} {seed now tb wn vp total : Nat} {w : Witness}
  {good : CoordinatorError → Prop} {from_ : NodeIdentity} {op : Operation} {tr : Record}

lemma Genuine.started (hr : c.RoundStarted P now seed c') : Genuine P c' [] := by
  have hnew := hr.currentRound.2.2
  refine ⟨?_, nodup_nil, ?_⟩
  · rw [hnew]
    exact .nil
  · intro w hw
    rw [hnew] at hw
    cases hw

lemma Genuine.congr (h : Genuine P c keys) (hs : c'.roster = c.roster) (hr : c'.currentRound = c.currentRound)
    (hc : c'.config = c.config) : Genuine P c' keys := by
  refine ⟨?_, h.nodup, ?_⟩
  · rw [hs, hr]
    exact h.named
  · intro w hw
    rw [hr] at hw
    obtain ⟨selection, hsel, helect⟩ := h.elected w hw
    exact ⟨selection, (fromCoordinator_congr hc (by rw [hr])).trans hsel, helect⟩

/-- An elected witness is stored once, under its key. -/
lemma Genuine.stored (h : Genuine P c keys) (hkey : c.roster[w.proof.index]? = some from_.signer)
    (helect : Elected P c w) (hst : c.WitnessStored from_ w c') :
    from_.signer ∉ keys ∧ Genuine P c' (keys ++ [from_.signer]) := by
  have hfresh : from_.signer ∉ keys := by
    have hf := hst.fresh
    rw [h.named.hasWitnessed from_] at hf
    exact of_decide_eq_false (Except.ok.inj hf)
  have hsame : ∀ v, Elected P c v → Elected P c' v := by
    rintro v ⟨selection, hsel, hv⟩
    have hk := Stays.witnessStored hst
    exact ⟨selection, (fromCoordinator_congr hk.config hk.currentRound).trans hsel, hv⟩
  obtain ⟨_, ws, hws, rfl⟩ := hst
  refine ⟨hfresh, ?_, ?_, ?_⟩
  · rw [currentRound_setCurrentRound, hws]
    exact h.named.snoc hkey
  · rw [← concat_eq_append]
    exact h.nodup.concat hfresh
  · intro v hv
    rw [currentRound_setCurrentRound, hws] at hv
    obtain hv | hv := mem_append.mp hv
    · exact hsame v (h.elected v hv)
    · rw [mem_singleton.mp hv]
      exact hsame w helect

lemma length_le_elected {ws : List Witness} (hnamed : Named c.roster ws keys) (hn : keys.Nodup)
    (he : ∀ w ∈ ws, Elected P c w) : ws.length ≤ electedWitnesses P c := by
  unfold electedWitnesses
  cases hsel : CommitteeSelection.fromCoordinator P c 0 with
  | error e =>
    -- nobody has been elected, so nobody has reported
    have hnil : ws = [] := by
      refine eq_nil_iff_forall_not_mem.mpr fun w hw => ?_
      obtain ⟨_, hok, _⟩ := he w hw
      rw [hsel] at hok
      cases hok
    rw [hnil]
    exact Nat.zero_le _
  | ok selection =>
    rw [← length_map fun w : Witness => w.proof.index]
    refine length_le_count (hnamed.nodup hn) fun i hi => ?_
    obtain ⟨w, hw, rfl⟩ := mem_map.mp hi
    obtain ⟨selection', hok, hlt, heq, hwit⟩ := he w hw
    rw [hsel] at hok
    cases hok
    rw [heq] at hwit
    exact ⟨hlt, hwit⟩

lemma Genuine.le_elected (h : Genuine P c keys) : c.currentRound.witnesses.len ≤ electedWitnesses P c :=
  length_le_elected h.named h.nodup h.elected

lemma Genuine.lt_elected {key : Pubkey} (h : Genuine P c keys) (hkey : c.roster[w.proof.index]? = some key)
    (helect : Elected P c w) (hfresh : key ∉ keys) : c.currentRound.witnesses.len < electedWitnesses P c := by
  have hnodup : (keys ++ [key]).Nodup := by
    rw [← concat_eq_append]
    exact h.nodup.concat hfresh
  have hall : ∀ v ∈ c.currentRound.witnesses.toList ++ [w], Elected P c v := by
    intro v hv
    obtain hv | hv := mem_append.mp hv
    · exact h.elected v hv
    · rw [mem_singleton.mp hv]
      exact helect
  have hle := length_le_elected (h.named.snoc hkey) hnodup hall
  rw [length_append, length_singleton] at hle
  exact hle

lemma electedWitnesses_eq {selection : CommitteeSelection} (hlen : c.epochState.clients.len = c.currentRound.clientsLen)
    (hsel : CommitteeSelection.fromCoordinator P c 0 = .ok selection) : electedWitnesses P c = c.witnessTarget := by
  obtain ⟨htotal, hwn, hle⟩ := fromCoordinator_numbers hsel
  unfold electedWitnesses witnessTarget
  rw [hsel]
  dsimp only
  rw [CommitteeSelection.count_election, htotal, hwn, hlen]
  split
  · rfl
  · exact min_eq_right hle

/-- A round starts without witnesses, and only elected ones are added, each once. -/
lemma Genuine.step (h : c.runState = .roundTrain ∨ c.runState = .roundWitness → ∃ keys, Genuine P c keys)
    (hlen : c.runState = .roundTrain ∨ c.runState = .roundWitness → c.currentRound.clientsLen ≤ solanaMaxNumClients)
    (st : RoundStep P c op c') (hs : c'.runState = .roundTrain ∨ c'.runState = .roundWitness) :
    ∃ keys, Genuine P c' keys := by
  cases st with
  | quiet _ hq =>
    rw [hq.runState] at hs
    obtain ⟨keys, hg⟩ := h hs
    exact ⟨keys, hg.congr hq.roster hq.currentRound hq.stays.config⟩
  | ignored => exact h hs
  | ticked ht =>
    cases ht with
    | idle => exact h hs
    | beginEpoch _ _ _ _ hb =>
      rw [hb.eq] at hs
      exact absurd hs (by simp)
    | warm hw => exact absurd hs (by simp [setEpochState, hw])
    | warmAbort | trainAbort | endEpoch => exact absurd hs (by have := betweenEpochs_ne c; simp [entered, this])
    | train _ _ hr _ | nextRound _ _ _ _ _ _ hr => exact ⟨[], .started hr⟩
    | witness hw =>
      obtain ⟨keys, hg⟩ := h (.inl hw)
      exact ⟨keys, hg.congr rfl rfl rfl⟩
    | coolEmpty | cool => exact absurd hs (by simp [cooled, entered])
    | endEpochPaused => exact absurd hs (by simp [entered])
  | warmed hw _ hst =>
    rw [hst.runState, hw] at hs
    exact absurd hs (by simp)
  | warmedUp _ _ _ _ hr => exact ⟨[], .started hr⟩
  | @witnessed from_ w now c1 selection hw hsel hv hwit hst =>
    obtain ⟨keys, hg⟩ := h hw.symm
    obtain ⟨hkey, helect⟩ := elected_of_verified (hlen hw.symm) hsel hv hwit
    have hg' := (hg.stored hkey helect hst).2
    refine ⟨keys ++ [from_.signer], ?_⟩
    split
    · exact hg'.congr rfl rfl rfl
    · exact hg'
  | paused => exact absurd hs (by simp [entered])
  | resumed => exact absurd hs (by have := betweenEpochs_ne c; simp [entered, this])
  | updated hh =>
    have hs : c.runState = .roundTrain ∨ c.runState = .roundWitness := hs
    exact absurd hh (by obtain hs | hs := hs <;> simp [halted, hs])

lemma clientsLen_le (r : (machine P).Run tr c) (hs : c.runState = .roundTrain ∨ c.runState = .roundWitness) :
    c.currentRound.clientsLen ≤ solanaMaxNumClients := by
  rw [← (RosterInv.of_run r).clientsLen hs]
  exact c.epochState.clients.bound

lemma genuine_of_run (r : (machine P).Run tr c) (hs : c.runState = .roundTrain ∨ c.runState = .roundWitness) :
    ∃ keys, Genuine P c keys := by
  refine history_of_steps (I := fun _ c => c.runState = .roundTrain ∨ c.runState = .roundWitness → ∃ keys, Genuine P c keys)
    ?_ ?_ r hs
  · rintro c ⟨_, _, _, hw⟩ hs
    exact absurd hw (by obtain hs | hs := hs <;> simp [halted, hs])
  · intro tr c op c' r h st hs'
    exact Genuine.step h (clientsLen_le r) st hs'

lemma new_safe (ht : total < 2 ^ 32) : Exec.Safe (fun _ => True) (CommitteeSelection.new P tb wn vp total seed) := by
  refine .bind (.require _ _) fun _ _ => .bind (.require _ _) fun _ _ => .bind (.require _ _) fun _ _ => ?_
  refine .bind (.require _ _) fun _ hv => ?_
  have hmul : (total - tb) * vp < 2 ^ 64 :=
    lt_of_le_of_lt (Nat.mul_le_mul (Nat.sub_le _ _) (require_eq_ok.mp hv)) (by omega)
  dsimp only
  rw [mulU_eq_ok.mpr ⟨hmul, rfl⟩]
  exact .ok _

lemma Genuine.witness_safe (h : Genuine P c keys) (hlen : c.epochState.clients.len = c.currentRound.clientsLen)
    (from_ : NodeIdentity) (w : Witness) (now : Nat) : Exec.Safe (fun _ => True) (c.witness P from_ w now) := by
  have hbound : c.currentRound.clientsLen ≤ solanaMaxNumClients := hlen ▸ c.epochState.clients.bound
  refine .bind (.require _ _) fun _ _ => .bind (.require _ _) fun _ _ => ?_
  refine .bind (fromCoordinator_zero ▸ new_safe (lt_of_le_of_lt hbound (by decide))) fun selection hsel => .bind ?_ fun _ _ => ?_
  · unfold CommitteeSelection.verifyWitnessForClient
    split
    case isFalse => exact .ok _
    case isTrue hc =>
      -- a client of the roster has a place in the lottery
      obtain ⟨hlt, _⟩ := List.getElem?_eq_some_iff.mp (getElem?_of_verifyClient hc)
      rw [List.length_map, ← FixedVec.len, hlen, ← (fromCoordinator_numbers hsel).1] at hlt
      have h63 : selection.totalNodes ≤ 2 ^ 63 := by
        rw [(fromCoordinator_numbers hsel).1]
        exact hbound.trans (by decide)
      unfold CommitteeSelection.verifyWitness
      rw [CommitteeSelection.computeShuffledIndex_eq _ h63 hlt]
      exact .ok _
  · refine .bind (.require _ _) fun _ _ => .bind ?_ fun _ _ => ?_
    · unfold pushWitness
      rw [h.named.hasWitnessed from_]
      exact .bind (.ok _) fun _ _ => .bind (.require _ _) fun _ _ => .bind (.okOr _ _) fun _ _ => .ok _
    · split
      case isTrue hne => exact .bind (.ensure fun hn => absurd hne.2 hn) fun _ _ => .ok _
      case isFalse => exact .ok _

lemma new_failsWith (h : good .invalidCommitteeSelection) :
    Exec.FailsWith good (CommitteeSelection.new P tb wn vp total seed) := by
  refine .bind (.require _ h) fun _ => .bind (.require _ h) fun _ => .bind (.require _ h) fun _ => ?_
  exact .bind (.require _ h) fun _ => .bind (.checked _ _ _) fun _ => .ok _

lemma computeShuffledIndex_failsWith (selection : CommitteeSelection) (index : Nat) (salt : Bytes) :
    Exec.FailsWith good (selection.computeShuffledIndex P index salt) :=
  .bind (.ensure _ _) fun _ => .foldlM (fun _ _ => .bind (.checked _ _ _) fun _ => .bind (.checked _ _ _) fun _ => .ok _) _ _

lemma verifyWitnessForClient_failsWith (selection : CommitteeSelection) (from_ : NodeIdentity)
    (proof : WitnessProof) (clients : List Client) :
    Exec.FailsWith good (selection.verifyWitnessForClient P from_ proof clients) := by
  unfold CommitteeSelection.verifyWitnessForClient
  split
  · exact .bind (computeShuffledIndex_failsWith _ _ _) fun _ => .ok _
  · exact .ok _

lemma Genuine.witness_failsWith (h : Genuine P c keys) (hlen : c.epochState.clients.len = c.currentRound.clientsLen)
    (hroom : electedWitnesses P c ≤ solanaMaxNumWitnesses) (from_ : NodeIdentity) (w : Witness) (now : Nat) :
    Exec.FailsWith (fun e => e ≠ .witnessesFull) (c.witness P from_ w now) := by
  have hbound : c.currentRound.clientsLen ≤ solanaMaxNumClients := hlen ▸ c.epochState.clients.bound
  refine .bind (.require _ (by rintro ⟨⟩)) fun _ => .bind (.require _ (by rintro ⟨⟩)) fun _ => ?_
  refine .bind_of (fromCoordinator_zero ▸ new_failsWith (by rintro ⟨⟩)) fun selection hsel => ?_
  refine .bind_of (verifyWitnessForClient_failsWith _ _ _ _) fun elected hv => ?_
  refine .bind_of (.require _ (by rintro ⟨⟩)) fun _ hreq => .bind ?_ fun _ => ?_
  · obtain ⟨rfl, hw⟩ := require_eq_ok.mp hreq
    obtain ⟨hkey, helect⟩ := elected_of_verified hbound hsel hv hw
    unfold pushWitness
    rw [h.named.hasWitnessed from_, ok_bind]
    refine .bind_of (.require _ (by rintro ⟨⟩)) fun _ hfresh => ?_
    have hlt := h.lt_elected hkey helect (of_decide_eq_false (require_eq_ok.mp hfresh))
    obtain ⟨ws, hws, _⟩ := FixedVec.push_isSome (x := w) (hlt.trans_le hroom)
    rw [hws]
    exact .bind (.ok _) fun _ => .ok _
  · split
    · exact .bind (.ensure _ _) fun _ => .ok _
    · exact .ok _

lemma electedWitnesses_le (hc : c.config.check = true) : electedWitnesses P c ≤ solanaMaxNumWitnesses := by
  unfold electedWitnesses
  split
  case h_1 selection hsel =>
    rw [CommitteeSelection.count_election, (fromCoordinator_numbers hsel).2.1]
    refine (min_le_right _ _).trans ?_
    split
    · exact le_rfl
    · exact (CoordinatorConfig.checked_of_check hc).witnessNodes.2
  case h_2 => exact Nat.zero_le _

lemma completes_iff (hlen : c.epochState.clients.len = c.currentRound.clientsLen)
    (hs : c.runState = .roundTrain) (h : c.witness P from_ w now = .ok c') :
    c'.runState = .roundWitness ↔ c'.currentRound.witnesses.len = electedWitnesses P c := by
  obtain ⟨selection, c1, _, hsel, _, _, hst, rfl⟩ := witness_inv h
  have hne : c.runState ≠ .roundWitness := by
    rw [hs]
    rintro ⟨⟩
  rw [electedWitnesses_eq hlen hsel]
  by_cases hlast : c1.currentRound.witnesses.len = c.witnessTarget
  · rw [if_pos ⟨hlast, hne⟩]
    exact ⟨fun _ => hlast, fun _ => rfl⟩
  · rw [if_neg fun hn => hlast hn.1, hst.runState]
    exact ⟨fun hn => absurd hn hne, fun hn => absurd hn hlast⟩

lemma leaves_roundTrain (hs : c.runState = .roundTrain) (st : RoundStep P c op c')
    (hs' : c'.runState ≠ .roundTrain) :
    (∃ from_ w now, op = .witness from_ w now)
      ∨ ∃ pending now seed, op = .tick pending now seed ∧ c.TimedOut now c.config.maxRoundTrainTime := by
  cases st with
  | quiet _ hq => exact absurd (hq.runState.trans hs) hs'
  | ignored | updated h => exact absurd hs hs'
  | ticked ht =>
    cases ht with
    | idle => exact absurd hs hs'
    | witness _ hto => exact .inr ⟨_, _, _, rfl, hto⟩
    | beginEpoch h | warm h | warmAbort h | train h | trainAbort h | coolEmpty h | cool h | nextRound h | endEpoch h
    | endEpochPaused h =>
      rw [hs] at h
      cases h
  | warmed h | warmedUp h | resumed h =>
    rw [hs] at h
    cases h
  | witnessed => exact .inl ⟨_, _, _, rfl⟩
  | paused h => exact absurd h (by simp [hs])

/-- In every round of every run the witnesses are distinct clients of the roster that the lottery of the round has elected;
a report never aborts and always finds room; and training ends before its time exactly when the last of the elected has
reported. -/
theorem witnesses_genuine {tr : Record} (r : (machine P).Run tr c)
    (hs : c.runState = .roundTrain ∨ c.runState = .roundWitness) :
    (∃ keys, Named c.roster c.currentRound.witnesses.toList keys ∧ keys.Nodup)
      ∧ (∀ w ∈ c.currentRound.witnesses.toList, Elected P c w)
      ∧ c.currentRound.witnesses.len ≤ electedWitnesses P c
      ∧ (∀ from_ w now p, c.witness P from_ w now ≠ Exec.abort p)
      ∧ (c.config.check = true → electedWitnesses P c ≤ solanaMaxNumWitnesses
        ∧ ∀ from_ w now, c.witness P from_ w now ≠ Exec.fail .witnessesFull)
      ∧ (c.runState = .roundTrain → ∀ op c', c.perform P op = .ok c' →
        (∀ from_ w now, op = .witness from_ w now →
          (c'.runState = .roundWitness ↔ c'.currentRound.witnesses.len = electedWitnesses P c))
        ∧ (c'.runState ≠ .roundTrain → (∃ from_ w now, op = .witness from_ w now)
          ∨ ∃ pending now seed, op = .tick pending now seed ∧ c.TimedOut now c.config.maxRoundTrainTime)) := by
  have hlen := (RosterInv.of_run r).clientsLen hs
  obtain ⟨keys, hg⟩ := genuine_of_run r hs
  refine ⟨⟨keys, hg.named, hg.nodup⟩, hg.elected, hg.le_elected, ?_, ?_, ?_⟩
  · intro from_ w now p he
    exact hg.witness_safe hlen from_ w now p he trivial
  · intro hc
    have hroom := electedWitnesses_le (P := P) hc
    exact ⟨hroom, fun from_ w now he => hg.witness_failsWith hlen hroom from_ w now _ he rfl⟩
  · intro htrain op c' hp
    refine ⟨?_, leaves_roundTrain htrain (roundStep_of_perform hp)⟩
    rintro from_ w now rfl
    exact completes_iff hlen htrain hp

/-- A witness with nothing in its filters. -/
def report (position index : Nat) : Witness := ⟨⟨position, index, true⟩, .empty, .empty, 0⟩

/-- Three clients that wait to join. -/
def threePending : PendingClients := ⟨[⟨1, 7⟩, ⟨2, 8⟩, ⟨3, 9⟩], by decide⟩

/-- Two clients in the first round of an epoch, of which the first has reported. -/
def halfReported : Record × Coordinator :=
  (machine .zero).play [] .small [.tick (some .two) 5 0, .tick none 15 0, .witness ⟨1, 0⟩ (report 0 0) 16]

/-- One of the elected witnesses has reported, and there is a place for the others. -/
theorem witnesses_genuine_halfReported : halfReported.2.runState = .roundTrain
    ∧ halfReported.2.currentRound.witnesses.len = 1 ∧ 1 ≤ electedWitnesses .zero halfReported.2
    ∧ ∀ from_ w now, halfReported.2.witness .zero from_ w now ≠ Exec.fail .witnessesFull := by
  have hrun : (machine .zero).Run halfReported.1 halfReported.2 := run_small _
  obtain ⟨hs, hlen, hcheck⟩ : halfReported.2.runState = .roundTrain ∧ halfReported.2.currentRound.witnesses.len = 1
      ∧ halfReported.2.config.check = true := by
    decide +kernel
  obtain ⟨_, _, hle, _, hroom, _⟩ := witnesses_genuine hrun (.inl hs)
  exact ⟨hs, hlen, hlen ▸ hle, (hroom hcheck).2⟩

end Genuine
end Coordinator
end Leviathan
