import Leviathan.Coordinator.Roster

/-!
# The rounds of an epoch

How the operations of a coordinator move through epochs and rounds. They stay in a round, in which clients may only
leave (`Stays`), go on to a later round of the epoch, enter its first round, leave the last one, which counts the epoch,
or stay outside of rounds (`Moved`). Every tick and every report is one of these (`TickStep.moved`, …), so what is known
about an epoch and a height stays true until the round is over.
-/

namespace Leviathan
open List

/-- A round without what has been reported on it. -/
def Round.emptied (round : Round) : Round := { round with witnesses := .new }

namespace Coordinator

/-- The keys of the present clients, in order. -/
def roster (c : Coordinator) : List Pubkey := c.epochState.clients.toList.map Client.signer

def NoneHealthy (c : Coordinator) : Prop := ∀ x ∈ c.epochState.clients.toList, x.state ≠ .healthy

/-- Clients have only moved from the present to the exited ones. -/
def Departed (c c' : Coordinator) : Prop :=
  ∃ gone : List Client, c'.epochState.exitedClients.toList = c.epochState.exitedClients.toList ++ gone
    ∧ (c'.roster ++ gone.map Client.signer).Perm c.roster

/-- The stored rounds are the same up to witnesses of the current one, and clients have only left: nobody has joined,
changed places or recovered. -/
structure Stays (c c' : Coordinator) : Prop where
  config : c'.config = c.config
  head : c'.epochState.roundsHead = c.epochState.roundsHead
  rounds : ∃ round : Round, round.emptied = c.currentRound.emptied
    ∧ c'.epochState.rounds = c.epochState.rounds.set c.epochState.roundsHead round c.epochState.roundsHead.isLt
  roster : c'.roster.Sublist c.roster
  departed : Departed c c'
  healthy : c.NoneHealthy → c'.NoneHealthy

/-- How a coordinator moves through rounds. -/
inductive Moved (c c' : Coordinator) : Prop where
  | within :
    c.active = true →
    c'.active = true →
    c'.progress.epoch = c.progress.epoch →
    Stays c c' →
    Moved c c'
  | next :
    c.active = true →
    c'.active = true →
    c'.progress.epoch = c.progress.epoch →
    c.currentRound.height < c'.currentRound.height →
    c'.epochState.clients.len = c'.currentRound.clientsLen →
    Moved c c'
  | enter :
    c.active = false →
    c'.active = true →
    c'.progress.epoch = c.progress.epoch →
    c'.epochState.clients.len = c'.currentRound.clientsLen →
    Moved c c'
  | leave :
    c.active = true →
    c'.active = false →
    c.progress.epoch < c'.progress.epoch →
    Moved c c'
  | outside :
    c.active = false →
    c'.active = false →
    c.progress.epoch ≤ c'.progress.epoch →
    Moved c c'

section Departed
variable {c c' c'' : Coordinator}

lemma Departed.same (hr : c'.roster = c.roster) (he : c'.epochState.exitedClients = c.epochState.exitedClients) :
    Departed c c' := by
  refine ⟨[], ?_, ?_⟩
  · rw [he, append_nil]
  · simp [hr]

lemma Departed.trans (h : Departed c c') (h' : Departed c' c'') : Departed c c'' := by
  obtain ⟨gone, hex, hperm⟩ := h
  obtain ⟨gone', hex', hperm'⟩ := h'
  refine ⟨gone ++ gone', ?_, ?_⟩
  · rw [hex', hex, append_assoc]
  · rw [map_append]
    have hswap : (c''.roster ++ (gone.map Client.signer ++ gone'.map Client.signer)).Perm
        (c''.roster ++ gone'.map Client.signer ++ gone.map Client.signer) := by
      rw [append_assoc]
      exact perm_append_comm.append_left _
    exact (hswap.trans (hperm'.append_right _)).trans hperm

end Departed

section Stays
variable {c c' c'' : Coordinator} {e : CoordinatorEpochState} {now : Nat}

/-- The first of two writes to a slot is lost. -/
lemma Stays.trans (h : Stays c c') (h' : Stays c' c'') : Stays c c'' where
  config := h'.config.trans h.config
  head := h'.head.trans h.head
  rounds := by
    obtain ⟨round, he, hr⟩ := h.rounds
    obtain ⟨round', he', hr'⟩ := h'.rounds
    have hcur : c'.currentRound = round := by
      simp [Coordinator.currentRound, hr, h.head]
    refine ⟨round', he'.trans (hcur ▸ he), ?_⟩
    simp [hr', hr, h.head]
  roster := h'.roster.trans h.roster
  departed := h.departed.trans h'.departed
  healthy := fun hn => h'.healthy (h.healthy hn)

lemma Stays.currentRound (h : Stays c c') : c'.currentRound.emptied = c.currentRound.emptied := by
  obtain ⟨round, he, hr⟩ := h.rounds
  rw [← he]
  simp [Coordinator.currentRound, hr, h.head]

lemma Stays.height (h : Stays c c') : c'.currentRound.height = c.currentRound.height :=
  (congrArg Round.height h.currentRound :)

lemma Stays.clientsLen (h : Stays c c') : c'.currentRound.clientsLen = c.currentRound.clientsLen :=
  (congrArg Round.clientsLen h.currentRound :)

/-- The roster and the exited clients are the same too. -/
lemma Stays.of_frame (hc : c'.config = c.config) (hh : c'.epochState.roundsHead = c.epochState.roundsHead)
    (hs : c'.epochState.rounds = c.epochState.rounds) (hr : c'.roster = c.roster)
    (hex : c'.epochState.exitedClients = c.epochState.exitedClients) (hn : c.NoneHealthy → c'.NoneHealthy) :
    Stays c c' where
  config := hc
  head := hh
  rounds := ⟨c.currentRound, rfl, by rw [hs]; exact (Vector.set_getElem_self _).symm⟩
  roster := by rw [hr]
  departed := .same hr hex
  healthy := hn

lemma Stays.of_epochState (hc : c'.config = c.config) (he : c'.epochState = c.epochState) : Stays c c' := by
  refine .of_frame hc (by rw [he]) (by rw [he]) ?_ (by rw [he]) ?_
  · rw [Coordinator.roster, he]
    rfl
  · unfold NoneHealthy
    rw [he]
    exact id

lemma Stays.refl (c : Coordinator) : Stays c c := .of_epochState rfl rfl

/-- Those who have left are appended to the exited clients. -/
lemma Stays.compacted {height : Nat} {e' : CoordinatorEpochState} (hc : Compacted height c.epochState e')
    (hcfg : c'.config = c.config) (hcl : c'.epochState.clients = e'.clients)
    (hex : c'.epochState.exitedClients = e'.exitedClients) (hh : c'.epochState.roundsHead = e'.roundsHead)
    (hs : c'.epochState.rounds = e'.rounds) : Stays c c' where
  config := hcfg
  head := hh.trans hc.roundsHead
  rounds := ⟨c.currentRound, rfl, by rw [hs, hc.rounds]; exact (Vector.set_getElem_self _).symm⟩
  roster := by
    rw [Coordinator.roster, hcl, hc.clients]
    exact filter_sublist.map _
  departed := by
    refine ⟨_, by rw [hex, hc.exited], ?_⟩
    have hsplit := (filter_append_perm (fun x : Client => x.state == .healthy) c.epochState.clients.toList).map
      Client.signer
    rw [Coordinator.roster, hcl, hc.clients, map_map]
    rw [map_append] at hsplit
    exact hsplit
  healthy := fun hn x hx => by
    rw [hcl, hc.clients] at hx
    exact hn x (mem_filter.mp hx).1

lemma Stays.setCurrentRound {round : Round} (h : round.emptied = c.currentRound.emptied) :
    Stays c (c.setCurrentRound round) where
  config := rfl
  head := rfl
  rounds := ⟨round, h, rfl⟩
  roster := List.Sublist.refl _
  departed := .same rfl rfl
  healthy := id

lemma Stays.witnessStored {from_ : NodeIdentity} {w : Witness} (h : c.WitnessStored from_ w c') : Stays c c' := by
  obtain ⟨_, _, _, rfl⟩ := h
  exact .setCurrentRound rfl

lemma Stays.roundClosed (lastStep : Nat)
    (hc : Compacted c.currentRound.height { c.epochState with firstRound := false } e) :
    Stays c (c.roundClosed e lastStep) := by
  have hfirst : Stays c (c.setEpochState { c.epochState with firstRound := false }) :=
    .of_frame rfl rfl rfl rfl rfl id
  exact hfirst.trans (.compacted hc rfl rfl rfl rfl rfl)

lemma roster_withdrawn (c : Coordinator) : c.withdrawn.roster = c.roster := by
  simp only [Coordinator.roster, Coordinator.withdrawn, setEpochState, FixedVec.map_toList, map_map]
  refine map_congr_left fun x _ => ?_
  exact congrArg Prod.fst (mark_withdrawn x)

lemma noneHealthy_withdrawn (c : Coordinator) : c.withdrawn.NoneHealthy := by
  intro x hx
  have hx : x ∈ (c.epochState.clients.map Client.withdrawn).toList := hx
  rw [FixedVec.map_toList] at hx
  obtain ⟨y, _, rfl⟩ := mem_map.mp hx
  unfold Client.withdrawn
  split
  · rintro ⟨⟩
  · assumption

lemma Stays.withdrawn : Stays c c.withdrawn :=
  .of_frame rfl rfl rfl (roster_withdrawn c) rfl fun _ => noneHealthy_withdrawn c

lemma Stays.cooled : Stays c (c.cooled now) := by
  have hset : Stays c (c.setCurrentRound { c.currentRound with witnesses := .new }) := .setCurrentRound rfl
  exact hset.trans (.of_epochState rfl rfl)

lemma Stays.setClientState {index : Nat} {st : ClientState} (hst : st ≠ .healthy) :
    Stays c (c.setClientState index st) := by
  refine .of_frame rfl rfl rfl (map_modify_eq fun _ _ => rfl) rfl fun hn x hx => ?_
  have hx : x ∈ c.epochState.clients.toList.modify index fun x => { x with state := st } := hx
  obtain ⟨i, hi⟩ := mem_iff_getElem?.mp hx
  rw [getElem?_modify] at hi
  obtain ⟨y, hy, rfl⟩ := Option.map_eq_some_iff.mp hi
  split
  · exact hst
  · exact hn y (mem_of_getElem? hy)

lemma not_healthy_of_mayDrop {l l' : List Client} (h : List.Forall₂ MayDrop l l')
    (hn : ∀ x ∈ l, x.state ≠ .healthy) : ∀ x ∈ l', x.state ≠ .healthy := by
  induction h with
  | nil => exact hn
  | cons hxy _ ih =>
    obtain ⟨hx, hl⟩ := forall_mem_cons.mp hn
    refine forall_mem_cons.mpr ⟨?_, ih hl⟩
    obtain rfl | ⟨hh, _⟩ := hxy
    · exact hx
    · exact absurd hh hx

lemma Stays.healthCheck {P : Platform} {checks : List (NodeIdentity × CommitteeProof)} {n : Nat}
    (h : c.healthCheck P checks = .ok (c', n)) : Stays c c' := by
  obtain ⟨_, _, _, clients, hcl, rfl⟩ := healthCheck_inv h
  have hr : clients.toList.map Client.signer = c.roster :=
    map_eq_of_mayDrop (fun _ _ hxy => congrArg Prod.fst (MayDrop.mark hxy)) hcl
  exact .of_frame rfl rfl rfl hr rfl (not_healthy_of_mayDrop hcl)

end Stays

section Moved
variable {P : Platform} {c c' : Coordinator} {now seed index : Nat} {from_ : NodeIdentity} {w : Witness}

lemma Moved.of_stays (ha : c'.active = c.active) (he : c'.progress.epoch = c.progress.epoch) (hs : Stays c c') :
    Moved c c' := by
  cases h : c.active with
  | true => exact .within h (ha.trans h) he hs
  | false => exact .outside h (ha.trans h) he.ge

lemma Moved.epoch_le (h : Moved c c') : c.progress.epoch ≤ c'.progress.epoch := by
  cases h with
  | within _ _ he _ => exact he.ge
  | next _ _ he _ _ => exact he.ge
  | enter _ _ he _ => exact he.ge
  | leave _ _ he => exact he.le
  | outside _ _ he => exact he

lemma active_betweenEpochs (c c' : Coordinator) (now : Nat) : (c'.entered now c.betweenEpochs).active = false := by
  obtain h | h := betweenEpochs_cases c <;> simp [active, entered, h]

lemma TickStep.moved {pending : Option (List NodeIdentity)} {r : TickResult}
    (st : TickStep P c pending now seed c' r) : Moved c c' := by
  cases st with
  | idle hs => exact .of_stays rfl rfl (.refl c)
  | beginEpoch hs _ _ _ hb =>
    have hrun : c'.runState = .warmup := by rw [hb.eq]
    have hep : c'.progress = c.progress := by rw [hb.eq]
    exact .outside (by simp [active, hs]) (by simp [active, hrun]) (by rw [hep])
  | warm hs _ _ => exact .outside (by simp [active, hs]) (by simp [active, setEpochState, hs]) le_rfl
  | warmAbort hs _ _ => exact .outside (by simp [active, hs]) (active_betweenEpochs _ _ _) le_rfl
  | train hs _ hr _ =>
    obtain ⟨hcl, _, hp⟩ := hr.frame
    exact .enter (by simp [active, hs]) hr.active (by rw [hp]) (by rw [hcl, hr.currentRound.1])
  | trainAbort hs _ hr _ =>
    obtain ⟨_, _, hp⟩ := hr.frame
    exact .outside (by simp [active, hs]) (active_betweenEpochs _ _ _) (by rw [entered, hp])
  | witness hs _ =>
    exact .within (by simp [active, hs]) rfl rfl (.of_epochState rfl rfl)
  | coolEmpty hs _ hc _ =>
    exact .within (by simp [active, hs]) rfl rfl ((Stays.roundClosed _ hc).trans (Stays.withdrawn.trans .cooled))
  | cool hs _ hc _ _ _ => exact .within (by simp [active, hs]) rfl rfl ((Stays.roundClosed _ hc).trans .cooled)
  | @nextRound e lastStep _ hs _ hc _ _ _ hr =>
    have hf : (c.roundClosed e lastStep).epochState.firstRound = false := hc.firstRound
    obtain ⟨hcl, _, hp⟩ := hr.frame
    refine .next (by simp [active, hs]) hr.active (by rw [hp]; rfl) ?_ (by rw [hcl, hr.currentRound.1])
    rw [(hr.later hf).2, (Stays.roundClosed lastStep hc).height]
    exact Nat.lt_succ_self _
  | endEpoch hs _ _ _ => exact .leave (by simp [active, hs]) (active_betweenEpochs _ _ _) (Nat.lt_succ_self _)
  | endEpochPaused hs _ _ _ => exact .leave (by simp [active, hs]) rfl (Nat.lt_succ_self _)

lemma WitnessStored.frame (h : c.WitnessStored from_ w c') : c'.active = c.active ∧ c'.progress = c.progress := by
  obtain ⟨_, _, _, rfl⟩ := h
  exact ⟨rfl, rfl⟩

lemma moved_warmupWitness (h : c.warmupWitness P from_ w now seed = .ok c') : Moved c c' := by
  obtain ⟨_, rfl⟩ | ⟨hs, _, c1, hw, rfl | ⟨_, hr⟩⟩ := warmupWitness_inv h
  · exact .of_stays rfl rfl (.refl _)
  · exact .of_stays hw.frame.1 (by rw [hw.frame.2]) (.witnessStored hw)
  · obtain ⟨hcl, _, hp⟩ := hr.frame
    refine .enter (by simp [active, hs]) hr.active ?_ (by rw [hcl, hr.currentRound.1])
    rw [hp, hw.frame.2]

lemma moved_witness (h : c.witness P from_ w now = .ok c') : Moved c c' := by
  obtain ⟨_, c1, hs, _, _, _, hw, rfl⟩ := witness_inv h
  have hp : c1.progress.epoch = c.progress.epoch := by rw [hw.frame.2]
  split
  · refine .within (by obtain hs | hs := hs <;> simp [active, hs]) rfl hp ?_
    exact (Stays.witnessStored hw).trans (.of_epochState rfl rfl)
  · exact .of_stays hw.frame.1 hp (.witnessStored hw)

lemma moved_healthCheck {checks : List (NodeIdentity × CommitteeProof)} {n : Nat}
    (h : c.healthCheck P checks = .ok (c', n)) : Moved c c' := by
  have hs := Stays.healthCheck h
  obtain ⟨_, _, _, _, _, rfl⟩ := healthCheck_inv h
  exact .of_stays rfl rfl hs

lemma moved_eject (h : c.eject index = .ok c') : Moved c c' := by
  obtain ⟨_, _, _, rfl⟩ := eject_eq_ok.mp h
  exact .of_stays rfl rfl (.setClientState (by rintro ⟨⟩))

lemma moved_pause (h : c.pause now = .ok c') : Moved c c' := by
  obtain ⟨_, rfl⟩ | ⟨hs, rfl⟩ := pause_inv h
  · exact .of_stays rfl rfl (.of_epochState rfl rfl)
  · exact .outside (by obtain hs | hs := hs <;> simp [active, hs]) rfl le_rfl

lemma moved_checkpoint {repo : Checkpoint} (h : c.checkpoint from_ index repo = .ok c') : Moved c c' := by
  rw [checkpoint_inv h]
  exact .of_stays rfl rfl (.of_epochState rfl rfl)

end Moved
end Coordinator
end Leviathan
