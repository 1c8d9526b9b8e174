import Leviathan.Client.Votes
import Leviathan.Network.Binding

/-!
# Where a payload is filed

A client writes the payload of a peer to a file, for the verifier to find. The name of the file has the step and the
batch that the payload itself carries. They are not compared with the announcement: the client compares the hash of the
payload with the commitment, and what was announced with its rounds and assignments.
-/

namespace Leviathan.StepStateMachine
open List
open TransmittableDistroResult (comptueHash_inj)

section Filing
variable {P : Platform} {m m' : StepStateMachine} {tr : Record} {fx : List ClientEffect}

/-- The peers commit to what they announce: the commitment of a node for a batch it was assigned is to a payload for that
batch and step, whose bytes the hash function tells apart from those of every payload that comes in. -/
def Truthful (P : Platform) (tr : Record) : Prop :=
  ∀ ev ∈ tr, ∀ from_ broadcast result slot assignee, ev.input = .applyMessage from_ broadcast →
    broadcast.data = .trainingResult result →
    (ev.before.round slot).step = broadcast.step →
    (ev.before.round slot).assignee result.batchId = some assignee →
    from_.signer = assignee.signer →
    from_.signer ≠ ev.before.identity.signer →
    ∃ p : TransmittableDistroResult, p.step = broadcast.step ∧ p.batchId = result.batchId
      ∧ p.comptueHash P = broadcast.commitment.dataHash
      ∧ ∀ ev' ∈ tr, ∀ hash payload own, ev'.input = .applyDistroResult hash payload own →
        P.sha256 p.hashInput = P.sha256 payload.hashInput → p.hashInput = payload.hashInput

/-- A step in which the payload of a task was announced, for its batch in the round of a step, by the node it is assigned
to. -/
def Announces (task : VerifyTask) (step : BitVec 32) (ev : Event StepStateMachine ClientInput (List ClientEffect)) : Prop :=
  ∃ from_ broadcast result slot assignee, ev.input = .applyMessage from_ broadcast
    ∧ broadcast.commitment = task.commitment
    ∧ broadcast.data = .trainingResult result ∧ result.batchId = task.batchId
    ∧ (ev.before.round slot).shared = task.shared ∧ (ev.before.round slot).step = step ∧ broadcast.step = step
    ∧ (ev.before.round slot).assignee task.batchId = some assignee
    ∧ from_.signer = assignee.signer ∧ from_.signer = task.from_.signer

lemma ClientStep.identity (st : ClientStep P m fx m') : m'.identity = m.identity := by
  cases st with
  | quiet => rfl
  | record | finished => exact identity_setRound
  | spawn => rfl
  | task => rfl
  | warmup => rfl
  | train => rfl

lemma identity_of_run (r : (machine P).Run tr m) : ∀ ev ∈ tr, ev.before.identity = m.identity := by
  induction r with
  | init => exact fun ev h => absurd h not_mem_nil
  | accept _ st ih =>
    have hid := (step_inv st).identity
    intro ev hev
    rw [hid]
    cases hev with
    | head => rfl
    | tail _ hev => exact ih ev hev
  | reject _ _ ih => exact ih

lemma Truthful.suffix {tr1 : Record} (h : Truthful P (tr1 ++ tr)) : Truthful P tr := by
  intro ev hev from_ broadcast result slot assignee hi hdata hstep ha hfrom hne
  obtain ⟨p, hs, hb, hh, hc⟩ := h ev (mem_append_right _ hev) _ _ _ slot assignee hi hdata hstep ha hfrom hne
  exact ⟨p, hs, hb, hh, fun ev' hev' => hc ev' (mem_append_right _ hev')⟩

lemma announced_of_checked (r : (machine P).Run tr m) (ht : Truthful P tr) {task : VerifyTask}
    (hc : Checked P (log tr) task) (hh : task.payload.comptueHash P = task.commitment.dataHash)
    (hpeer : task.from_.signer ≠ m.identity.signer) :
    ∃ ev ∈ tr, ∃ step, Announces task step ev ∧ task.payload.step = step ∧ task.payload.batchId = task.batchId := by
  obtain ⟨hreceived, ⟨step, a, hrec, hb, hfrom, hcom⟩, _⟩ := hc
  -- the two inputs that the task goes back to
  obtain ⟨ev, hev, he⟩ := mem_log.mp hrec
  obtain ⟨_, _, st⟩ := r.mem hev
  obtain ⟨broadcast, slot, assignee, hi, hbc, hdata, rfl, hshared, hslot, ha, hassignee⟩ := announced_inv st he
  obtain ⟨ev', hev', he'⟩ := mem_log.mp hreceived
  obtain ⟨_, _, st'⟩ := r.mem hev'
  obtain ⟨hash, own, hi'⟩ := received_inv st' he'
  have hne : a.from_.signer ≠ ev.before.identity.signer := by
    rw [identity_of_run r ev hev, hfrom]
    exact hpeer
  obtain ⟨p, hpstep, hpb, hph, hcol⟩ := ht ev hev _ _ _ slot assignee hi hdata hslot ha hassignee hne
  have hann : Announces task broadcast.step ev :=
    ⟨a.from_, broadcast, a.result, slot, assignee, hi, hbc.trans hcom, hdata, hb, hshared, hslot, rfl, hb ▸ ha, hassignee,
      hfrom⟩
  have hp : p = task.payload := comptueHash_inj (hcol ev' hev' _ _ _ hi') (by rw [hph, hh, hbc, hcom])
  exact ⟨ev, hev, _, hann, by rw [← hp, hpstep], by rw [← hp, hpb, hb]⟩

/-- When the peers commit to what they announce, an accepted payload is for the step and batch that were announced, and so is
the name of its file. -/
theorem filed_as_announced (r : (machine P).Run tr m) (ht : Truthful P tr) :
    ∀ tr1 ev tr2, tr = tr1 ++ ev :: tr2 → ∀ task, task.from_.signer ≠ m.identity.signer →
      (.accepted task ∈ ev.output → ∃ ev' ∈ tr2, ∃ step, Announces task step ev'
        ∧ task.payload.step = step ∧ task.payload.batchId = task.batchId)
      ∧ ∀ file, .wrote task file ∈ ev.output → ∃ ev' ∈ tr2, ∃ step, Announces task step ev'
        ∧ file = gradientsFile P task.from_.signer step task.batchId := by
  rintro tr1 ev tr2 rfl task hpeer
  obtain ⟨r2, st⟩ := r.split
  have ht2 : Truthful P tr2 := by
    rw [append_cons] at ht
    exact ht.suffix
  have hpeer2 : task.from_.signer ≠ ev.before.identity.signer := by
    rw [identity_of_run r ev (mem_append_right _ mem_cons_self)]
    exact hpeer
  refine ⟨fun he => ?_, fun file he => ?_⟩
  · obtain ⟨htask, hh⟩ := accepted_inv st he
    exact announced_of_checked r2 ht2 ((orderly_of_run r2).checked task htask) hh hpeer2
  · obtain ⟨htask, hp, rfl⟩ := wrote_inv st he
    have hc := (orderly_of_run r2).checked task htask
    obtain ⟨ev', hev', step, hann, hs, hb⟩ := announced_of_checked r2 ht2 hc (hc.hash (.inl hp)) hpeer2
    exact ⟨ev', hev', step, hann, by rw [hs, hb]⟩

end Filing

section Example

/-- The payload that an effect accepts: its sender, the batch it was announced for, and the step and batch it carries. -/
def acceptedOf : ClientEffect → Option (Pubkey × RawBatchId × BitVec 32 × RawBatchId)
  | .accepted task => some (task.from_.signer, task.batchId, task.payload.step, task.payload.batchId)
  | .recorded _ _ _ | .requested _ | .received _ | .wrote _ _ | .voted _ _ _ => none

/-- The file that an effect writes: who sent the payload, for which batch it was announced, and the name. -/
def fileOf : ClientEffect → Option (Pubkey × RawBatchId × String)
  | .wrote task file => some (task.from_.signer, task.batchId, file)
  | .recorded _ _ _ | .requested _ | .received _ | .accepted _ | .voted _ _ _ => none

/-- A peer whose payload is filed where it belongs. -/
def filed : Record × StepStateMachine :=
  clientOf [announce 77, download 77 1 ⟨100, 107⟩, .runTask 0 true, .runTask 0 true]

lemma filed_truthful : Truthful .zero filed.1 := by
  intro ev hev from_ broadcast result slot assignee hi hdata hstep ha hfrom hne
  obtain ⟨_, _, he⟩ | he := input_of_mem_clientOf hev
  · rw [hi] at he
    cases he
  rw [hi] at he
  simp only [announce, download, mem_cons, not_mem_nil, ClientInput.applyMessage.injEq, reduceCtorEq, or_false] at he
  obtain ⟨rfl, rfl⟩ := he
  cases hdata
  refine ⟨⟨1, 0, ⟨100, 107⟩, .new⟩, rfl, rfl, rfl, fun ev' hev' hash payload own hi' => ?_⟩
  obtain ⟨_, _, he'⟩ | he' := input_of_mem_clientOf hev'
  · rw [hi'] at he'
    cases he'
  rw [hi'] at he'
  simp only [announce, download, mem_cons, not_mem_nil, ClientInput.applyDistroResult.injEq, reduceCtorEq,
    or_false, false_or] at he'
  obtain ⟨_, rfl, _⟩ := he'
  exact fun _ => rfl

/-- The file that one task writes has the name of the commitment it was announced under. -/
theorem filed_as_announced_filed : ∃ ev tr2 task file, filed.1 = ev :: tr2 ∧ .wrote task file ∈ ev.output
    ∧ ∃ ev' ∈ tr2, ∃ step, Announces task step ev' ∧ file = gradientsFile .zero task.from_.signer step task.batchId := by
  have hfile : (filed.1.head?.map fun ev => ev.output.filterMap fileOf)
      = some [(3, ⟨100, 107⟩, gradientsFile .zero 3 1 ⟨100, 107⟩)] := by decide +kernel
  obtain ⟨ev, hev, hout⟩ := Option.map_eq_some_iff.mp hfile
  obtain ⟨tr2, htr⟩ := head?_eq_some_iff.mp hev
  have hmem : (3, ⟨100, 107⟩, gradientsFile .zero 3 1 ⟨100, 107⟩) ∈ ev.output.filterMap fileOf := by
    rw [hout]
    exact mem_cons_self
  obtain ⟨e, he, hf⟩ := mem_filterMap.mp hmem
  cases e with
  | wrote task file =>
    injection hf with hf
    have hsigner : task.from_.signer = 3 := congrArg Prod.fst hf
    have hid : filed.2.identity.signer = 1 := by decide +kernel
    refine ⟨ev, tr2, task, file, htr, he, ?_⟩
    refine (filed_as_announced (clientOf_run _) filed_truthful [] ev tr2 htr task ?_).2 file he
    rw [hsigner]
    exact fun h => absurd (h.trans hid) (by decide)
  | recorded => cases hf
  | requested => cases hf
  | received => cases hf
  | accepted => cases hf
  | voted => cases hf

/-- A peer that commits to a payload for another step and batch than it announces. -/
def misfiled : Record × StepStateMachine :=
  clientOf [announce 77, download 77 5 ⟨9, 9⟩, .runTask 0 true, .runTask 0 true]

/-- The payload is accepted for the batch that was assigned and announced, in the round of step 1, and filed under the step
and batch it carries. -/
theorem misfiled_payload : (machine .zero).Run misfiled.1 misfiled.2
    ∧ misfiled.2.currentRound.step = 1
    ∧ (misfiled.2.currentRound.assignee ⟨100, 107⟩).map NodeIdentity.signer = some 3
    ∧ (log misfiled.1).filterMap acceptedOf = [(3, ⟨100, 107⟩, 5, ⟨9, 9⟩)]
    ∧ (log misfiled.1).filterMap fileOf = [(3, ⟨100, 107⟩, gradientsFile .zero 3 5 ⟨9, 9⟩)]
    ∧ gradientsFile .zero 3 5 ⟨9, 9⟩ ≠ gradientsFile .zero 3 1 ⟨100, 107⟩ :=
  ⟨clientOf_run _, by decide +kernel, by decide +kernel, by decide +kernel, by decide +kernel, by decide +kernel⟩

end Example
end Leviathan.StepStateMachine
