import Leviathan.Instance.Inversion

/-!
# What holds of every instance

`Sound s` is what the accounting depends on in every state of a run (`solana-coordinator/src/instance_state.rs`): there
is one record per key, every client of the epoch has a record, a run that has been started has a checked configuration,
a warmup has enough clients, and the rates of a running epoch have been fixed. Each step keeps it
(`InstanceStep.sound`).
-/

namespace Leviathan
open List

def RunState.InEpoch (st : RunState) : Prop :=
  st = .warmup ∨ st = .roundTrain ∨ st = .roundWitness ∨ st = .cooldown

instance : DecidablePred RunState.InEpoch := fun _ => inferInstanceAs (Decidable (_ ∨ _ ∨ _ ∨ _))

namespace InstanceState
open CoordinatorEpochState Coordinator

def recordKeys (s : InstanceState) : List Pubkey := s.clientsState.clients.toList.map SolanaClient.signer

abbrev EpochOpen (c : Coordinator) : Prop := c.runState.InEpoch

/-- The invariant of the coordinator account. -/
structure Sound (s : InstanceState) : Prop where
  records : s.recordKeys.Nodup
  roster : ∃ roster, RosterInv roster s.coordinator ∧ ∀ k ∈ roster, k ∈ s.recordKeys
  config : s.coordinator.runState ≠ .uninitialized → s.coordinator.config.check = true
  warm : s.coordinator.runState = .warmup →
    s.coordinator.config.minClients ≤ s.coordinator.epochState.clients.len
  rates : EpochOpen s.coordinator → s.isWarmupFirstTick = false

section Sound
variable {P : Platform} {s s' : InstanceState} {fx : List InstanceEffect} {c c' : Coordinator}
  {pending : Option (List NodeIdentity)} {now seed : Nat} {r : TickResult}

lemma Sound.signers_nodup (h : Sound s) : s.coordinator.epochState.signers.Nodup := by
  obtain ⟨roster, hr, _⟩ := h.roster
  exact hr.core.perm.nodup_iff.mpr hr.core.nodup

lemma Sound.created (v : Bytes) : Sound (created v) where
  records := nodup_nil
  roster := ⟨[], .fresh ⟨rfl, rfl, rfl, .inr rfl⟩, by simp⟩
  config := fun h => absurd rfl h
  warm := by rintro ⟨⟩
  rates := by
    rintro (h | h | h | h) <;> cases h

lemma pendingIds_spec {ids : List NodeIdentity} (h : s.pendingIds = some ids) :
    List.Sublist (ids.map NodeIdentity.signer) s.recordKeys ∧ ids.length ≤ solanaMaxNumClients := by
  unfold pendingIds at h
  split at h
  · cases h
    refine ⟨?_, ?_⟩
    · rw [ClientsState.getActiveClientsIds, map_map]
      exact filter_sublist.map _
    · rw [ClientsState.getActiveClientsIds, length_map]
      exact Nat.le_trans (length_filter_le _ _) s.clientsState.clients.bound
  · cases h

lemma recordKeys_settled (s : InstanceState) : s.settled.recordKeys = s.recordKeys := by
  simp [recordKeys, settled, settleClient, Function.comp_def]

lemma tickStep_config (st : c.TickStep P pending now seed c' r) : c'.config = c.config := by
  cases st with
  | beginEpoch _ _ _ _ hb => rw [hb.eq]
  | train _ _ hr _ | trainAbort _ _ hr _ | nextRound _ _ _ _ _ _ hr => exact hr.frame.2.1
  | _ => rfl

lemma not_epochOpen_between (c c' : Coordinator) (now : Nat) : ¬ EpochOpen (c'.entered now c.betweenEpochs) := by
  obtain hb | hb := betweenEpochs_cases c <;> simp [RunState.InEpoch, entered, hb]

lemma tickStep_epochEnd {success : Bool} (st : c.TickStep P pending now seed c' (.epochEnd success)) :
    EpochOpen c ∧ ¬ EpochOpen c' := by
  cases st with
  | warmAbort hs | trainAbort hs => exact ⟨.inl hs, not_epochOpen_between _ _ _⟩
  | endEpoch hs => exact ⟨.inr (.inr (.inr hs)), not_epochOpen_between _ _ _⟩
  | endEpochPaused hs => exact ⟨.inr (.inr (.inr hs)), by simp [RunState.InEpoch, entered]⟩

/-- An epoch ends in a warmup with too few clients, or after its cooldown. -/
lemma epochEnd_inv {success : Bool}
    (hmin : c.runState = .warmup → c.config.minClients ≤ c.epochState.clients.len)
    (st : c.TickStep P pending now seed c' (.epochEnd success)) :
    ∃ height e, Compacted height c.epochState e ∧ c'.epochState.exitedClients = e.exitedClients
      ∧ ((success = false ∧ c.runState = .warmup ∧ c'.epochState.clients = e.clients
          ∧ e.clients.len < c.config.minClients)
        ∨ (success = true ∧ c.runState = .cooldown ∧ c.TimedOut now c.config.cooldownTime
          ∧ c'.epochState.clients = if c.pendingPause then e.clients.map Client.withdrawn else e.clients)) := by
  cases st with
  | @warmAbort e hs hc hlt => exact ⟨0, e, hc, rfl, .inl ⟨rfl, hs, rfl, hlt⟩⟩
  | trainAbort hs _ _ hlt => exact absurd (hmin hs) (by omega)
  | @endEpoch e dataIndex hs ht hc hp | @endEpochPaused e dataIndex hs ht hc hp =>
    exact ⟨c.currentRound.height, e, hc, rfl, .inr ⟨rfl, hs, ht, by rw [hp]; rfl⟩⟩

lemma tickStep_ticked (st : c.TickStep P pending now seed c' .ticked) :
    (EpochOpen c ∧ EpochOpen c') ∨ (c.runState = .waitingForMembers ∧ c' = c)
      ∨ (c.runState = .waitingForMembers ∧ ∃ ids, pending = some ids ∧ c.EpochBegun ids now c') := by
  cases st with
  | idle hs =>
    obtain hs | hs | hs | hs := hs
    · exact .inr (.inl ⟨hs, rfl⟩)
    · exact .inl ⟨.inr (.inl hs), .inr (.inl hs)⟩
    · exact .inl ⟨.inr (.inr (.inl hs)), .inr (.inr (.inl hs))⟩
    · exact .inl ⟨.inr (.inr (.inr hs)), .inr (.inr (.inr hs))⟩
  | beginEpoch hs hp _ _ hb => exact .inr (.inr ⟨hs, _, hp, hb⟩)
  | warm hs => exact .inl ⟨.inl hs, .inl hs⟩
  | train hs _ hr =>
    obtain ⟨_, _, _, _, _, rfl⟩ := hr
    exact .inl ⟨.inl hs, .inr (.inl rfl)⟩
  | witness hs => exact .inl ⟨.inr (.inl hs), .inr (.inr (.inl rfl))⟩
  | coolEmpty hs | cool hs => exact .inl ⟨.inr (.inr (.inl hs)), .inr (.inr (.inr rfl))⟩
  | nextRound hs _ _ _ _ _ hr =>
    obtain ⟨_, _, _, _, _, rfl⟩ := hr
    exact .inl ⟨.inr (.inr (.inl hs)), .inr (.inl rfl)⟩

lemma Sound.tick (h : Sound s) (st : s.coordinator.TickStep P s.pendingIds now seed c r) :
    (∃ roster, RosterInv roster c ∧ ∀ k ∈ roster, k ∈ s.recordKeys)
      ∧ (c.runState = .warmup → c.config.minClients ≤ c.epochState.clients.len) := by
  obtain ⟨roster, hr, hsub⟩ := h.roster
  constructor
  · obtain ⟨_, hk⟩ | ⟨ids, hids, _, hk⟩ :=
      hr.tick (fun ids e => h.records.sublist (pendingIds_spec e).1) st
    · exact ⟨roster, hk, hsub⟩
    · refine ⟨_, hk, fun k hk => (pendingIds_spec hids).1.subset ?_⟩
      exact ((take_sublist _ _).map _).subset hk
  · intro hw
    cases st with
    | idle hs => simp [hw] at hs
    | @beginEpoch ids _ hs hp hmin _ hb =>
      -- all waiting identities fit, and a checked configuration asks for no more than are waiting
      have hlen := (pendingIds_spec hp).2
      rw [asU16_of_lt (Nat.lt_of_le_of_lt hlen (by decide))] at hmin
      have hcfg := (CoordinatorConfig.checked_of_check (h.config (by simp [hs]))).initMinClients
      have hcl : c.epochState.clients.len = min solanaMaxNumClients ids.length := by
        rw [FixedVec.len, hb.clients, length_map, length_take]
      have hc : c.config = s.coordinator.config := by rw [hb.eq]
      rw [hc, hcl]
      omega
    | warm hs hc hmin => exact hmin
    | warmAbort | trainAbort | endEpoch => exact absurd (.inl hw) (not_epochOpen_between _ _ _)
    | train _ _ hr | nextRound _ _ _ _ _ _ hr =>
      obtain ⟨_, _, _, _, _, rfl⟩ := hr
      simp [entered] at hw
    | witness | endEpochPaused => simp [entered] at hw
    | coolEmpty | cool => simp [cooled, entered] at hw

lemma Sound.entry_mem_tick (h : Sound s) (st : s.coordinator.TickStep P s.pendingIds now seed c r) {x : Client}
    (hx : x ∈ c.epochState.entries) : x.signer ∈ s.recordKeys := by
  obtain ⟨⟨roster, hr, hsub⟩, _⟩ := h.tick st
  exact hsub _ (hr.core.perm.mem_iff.mp (mem_map_of_mem hx))

lemma Sound.attended (h : Sound s) (ha : Attended s.coordinator c)
    (hr : ∀ roster, RosterInv roster s.coordinator → RosterInv roster c) : Sound (s.withCoordinator c) where
  records := h.records
  roster := by
    obtain ⟨roster, hroster, hsub⟩ := h.roster
    exact ⟨roster, hr _ hroster, hsub⟩
  config := by
    intro hu
    change c.config.check = true
    rw [ha.config]
    refine h.config fun hu' => hu ?_
    obtain hp | ⟨hp, _⟩ | ⟨hp, _⟩ := ha.phase
    · exact hp.trans hu'
    · simp [hu'] at hp
    · simp [hu'] at hp
  warm := by
    intro hw
    change c.config.minClients ≤ c.epochState.clients.len
    rw [ha.config, ha.len]
    refine h.warm ?_
    obtain hp | ⟨_, hp⟩ | ⟨_, hp⟩ := ha.phase
    · exact hp.symm.trans hw
    · cases hp.symm.trans hw
    · cases hp.symm.trans hw
  rates := by
    intro ho
    refine h.rates ?_
    obtain hp | ⟨hp, _⟩ | ⟨hp, _⟩ := ha.phase
    · simpa only [EpochOpen, withCoordinator, hp] using ho
    · exact .inl hp
    · exact .inr (.inl hp)

lemma Sound.noteStart (h : Sound s) (st : s.coordinator.TickStep P s.pendingIds now seed c .ticked)
    (hn : (s.ticking c).noteStart = .ok s') :
    s'.coordinator = c ∧ s'.recordKeys = s.recordKeys ∧ (EpochOpen c → s'.isWarmupFirstTick = false) := by
  have hkeys : (s.ticking c).recordKeys = s.recordKeys := by rw [recordKeys, clientsState_ticking, recordKeys]
  have hflag : EpochOpen s.coordinator → (s.ticking c).isWarmupFirstTick = false := by
    intro ho
    have hw : s.coordinator.runState ≠ .waitingForMembers := by
      intro hw
      simp [RunState.InEpoch, hw] at ho
    simpa only [ticking, resetFlags, if_neg hw] using h.rates ho
  obtain ⟨_, _, rfl⟩ | ⟨hnot, _, _, rfl⟩ := noteStart_inv hn
  · exact ⟨rfl, hkeys, fun _ => rfl⟩
  · refine ⟨rfl, hkeys, fun ho => ?_⟩
    obtain ⟨ho', _⟩ | ⟨hw, rfl⟩ | ⟨hw, ids, _, hb⟩ := tickStep_ticked st
    · exact hflag ho'
    · simp [RunState.InEpoch, hw] at ho
    · -- an epoch that has just begun is noted, since the flags were set while members were awaited
      refine absurd ⟨?_, ?_⟩ hnot
      · change c.isWarmupJustStarting = true
        rw [hb.eq]
        rfl
      · simp [ticking, resetFlags, hw]

/-- Every step keeps the invariant. -/
lemma InstanceStep.sound (h : Sound s) (st : InstanceStep P s fx s') : Sound s' := by
  cases st with
  | @ticked clock c _ ht hn =>
    obtain ⟨hroster, hwarm⟩ := h.tick ht
    obtain ⟨hc, hkeys, hflag⟩ := h.noteStart ht hn
    refine ⟨hkeys ▸ h.records, ?_, ?_, ?_, ?_⟩
    · rw [hc, hkeys]
      exact hroster
    · intro _
      rw [hc, tickStep_config ht]
      refine h.config fun hu => ?_
      obtain ⟨ho, _⟩ | ⟨hw, _⟩ | ⟨hw, _⟩ := tickStep_ticked ht
      · simp [RunState.InEpoch, hu] at ho
      · simp [hu] at hw
      · simp [hu] at hw
    · rw [hc]
      exact hwarm
    · rw [hc]
      exact hflag
  | @settle clock c success ht =>
    obtain ⟨hroster, hwarm⟩ := h.tick ht
    obtain ⟨ho, hnc⟩ := tickStep_epochEnd ht
    have hkeys : (s.ticking c).settled.recordKeys = s.recordKeys := by
      rw [recordKeys_settled, recordKeys, clientsState_ticking, recordKeys]
    refine ⟨hkeys ▸ h.records, ?_, ?_, hwarm, fun ho' => absurd ho' hnc⟩
    · rw [hkeys]
      exact hroster
    · intro _
      change c.config.check = true
      rw [tickStep_config ht]
      refine h.config fun hu => ?_
      simp [RunState.InEpoch, hu] at ho
  | witness hc => exact h.attended (attended_witness hc) fun _ hr => hr.witness hc
  | warmupWitness hc => exact h.attended (attended_warmupWitness hc) fun _ hr => hr.warmupWitness hc
  | healthCheck hc => exact h.attended (attended_healthCheck hc) fun _ hr => hr.healthCheck hc
  | checkpoint hc => exact h.attended (attended_checkpoint hc) fun _ hr => hr.checkpoint hc
  | @eject index x c hx hc =>
    obtain ⟨_, _, _, rfl⟩ := eject_eq_ok.mp hc
    obtain ⟨roster, hr, hsub⟩ := h.roster
    refine ⟨h.records, ⟨roster, hr.setClientState _ _, hsub⟩, h.config, ?_, h.rates⟩
    simpa [withCoordinator, setClientState, setEpochState, FixedVec.len] using h.warm
  | @pause now c hc =>
    obtain ⟨roster, hr, hsub⟩ := h.roster
    refine ⟨h.records, ⟨roster, hr.pause hc, hsub⟩, ?_, ?_, ?_⟩
    · intro _
      obtain ⟨ha, rfl⟩ | ⟨hs, rfl⟩ := pause_inv hc
      · refine h.config fun hu => ?_
        simp [Coordinator.active, hu] at ha
      · refine h.config fun hu => ?_
        simp [hu] at hs
    · intro hw
      obtain ⟨_, rfl⟩ | ⟨_, rfl⟩ := pause_inv hc
      · exact h.warm hw
      · cases hw
    · intro ho
      obtain ⟨_, rfl⟩ | ⟨_, rfl⟩ := pause_inv hc
      · exact h.rates ho
      · simp [RunState.InEpoch, withCoordinator, entered] at ho
  | @unpause now c nextActive hc =>
    obtain ⟨hcfg, hs, step, rfl⟩ := unpause_inv hc
    obtain ⟨roster, hr, hsub⟩ := h.roster
    have hno := not_epochOpen_between { s.coordinator with progress := { s.coordinator.progress with step } }
      { s.coordinator with progress := { s.coordinator.progress with step } } now
    refine ⟨h.records, ⟨roster, ?_, hsub⟩, fun _ => hcfg, fun hw => absurd (.inl hw) hno,
      fun ho => absurd ho hno⟩
    exact .outside hr.core (betweenEpochs_ne _) hr.witnessed
  | @register id cs hreg =>
    obtain ⟨roster, hr, hsub⟩ := h.roster
    obtain ⟨index, r, hi, hk, rfl⟩ | ⟨hnew, clients, hcl, rfl⟩ := register_inv hreg
    · have hkeys : recordKeys { s with clientsState := { s.clientsState with
          clients := s.clientsState.clients.modify index fun x =>
            { x with id, active := s.clientsState.nextActive } } } = s.recordKeys := by
        refine map_modify_eq fun x hx => ?_
        cases hi.symm.trans hx
        exact hk.symm
      refine ⟨hkeys ▸ h.records, ⟨roster, hr, hkeys ▸ hsub⟩, h.config, h.warm, h.rates⟩
    · have hkeys : recordKeys { s with clientsState := { s.clientsState with clients } }
          = s.recordKeys ++ [id.signer] := by
        simp [recordKeys, hcl]
      refine ⟨?_, ⟨roster, hr, ?_⟩, h.config, h.warm, h.rates⟩
      · rw [hkeys, nodup_append]
        refine ⟨h.records, nodup_singleton _, ?_⟩
        rintro k hk _ hk' rfl
        obtain ⟨r, hr, rfl⟩ := mem_map.mp hk
        exact hnew r hr (mem_singleton.mp hk')
      · intro k hk
        rw [hkeys]
        exact mem_append_left _ (hsub k hk)
  | update hu =>
    obtain ⟨_, hh, hcfg, rfl⟩ := update_inv hu
    obtain ⟨roster, hr, hsub⟩ := h.roster
    refine ⟨h.records, ⟨roster, hr.restate rfl rfl rfl rfl ⟨rfl, rfl, rfl⟩, hsub⟩, ?_, ?_, h.rates⟩
    · intro hu
      cases hc : ‹Option CoordinatorConfig› with
      | none => exact h.config hu
      | some cfg => exact hcfg cfg hc
    · intro hw
      obtain hh | ⟨rfl, _⟩ := hh
      · have hw' : s.coordinator.runState = .warmup := hw
        simp [Coordinator.halted, hw'] at hh
      · exact h.warm hw
  | rates | version => exact ⟨h.records, h.roster, h.config, h.warm, h.rates⟩

end Sound
end InstanceState
end Leviathan
