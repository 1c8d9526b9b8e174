import Leviathan.Instance.Invariant

/-!
# What the permanent records add up

The records of an account (`solana-coordinator/src/client.rs`) are all that is kept of the outcome of an epoch.
`earnedOf` and `slashedOf` read them as the treasurer does: the first record of a key, and zero where there is none.
Each step raises them by what the settlements among its effects say (`InstanceStep.earnedOf`, `InstanceStep.slashedOf`),
so along a run they are the sums of all payments and charges.
-/

namespace Leviathan
open List

def InstanceEffect.isEjection : InstanceEffect → Bool
  | .ejected _ => true
  | .settled _ => false

/-- How much an effect pays a key. -/
def InstanceEffect.payment (p : Pubkey) : InstanceEffect → Nat
  | .ejected _ => 0
  | .settled st => if p ∈ st.credited then st.earnedShare else 0

def InstanceEffect.charge (p : Pubkey) : InstanceEffect → Nat
  | .ejected _ => 0
  | .settled st => if p ∈ st.charged then st.slashingRate else 0

lemma tally_of_ejections {f : InstanceEffect → Nat} (hf : ∀ p, f (.ejected p) = 0) {fx : List InstanceEffect}
    (h : ∀ e ∈ fx, e.isEjection = true) : tally f fx = 0 := by
  refine tally_eq_zero fun e he => ?_
  cases e with
  | ejected q => exact hf q
  | settled st => cases h _ he

namespace InstanceState

def recordOf (s : InstanceState) (p : Pubkey) : Option SolanaClient :=
  s.clientsState.clients.toList.find? fun r => r.signer == p

def earnedOf (s : InstanceState) (p : Pubkey) : Nat := ((s.recordOf p).map SolanaClient.earned).getD 0

def slashedOf (s : InstanceState) (p : Pubkey) : Nat := ((s.recordOf p).map SolanaClient.slashed).getD 0

section Settlement
variable {c : Coordinator} {r r' : SolanaClient}

lemma credited_iff : credited c r = true ↔
    ∃ x ∈ c.epochState.clients.toList, x.signer = r.signer ∧ x.state = .healthy := by
  simp [credited, NodeIdentity.beq_iff]

lemma charged_iff : charged c r = true ↔
    ∃ x ∈ c.epochState.exitedClients.toList, x.signer = r.signer ∧ x.state = .ejected := by
  simp [charged, NodeIdentity.beq_iff]

lemma credited_congr (h : r'.signer = r.signer) : credited c r' = credited c r := by
  rw [Bool.eq_iff_iff, credited_iff, credited_iff, h]

lemma charged_congr (h : r'.signer = r.signer) : charged c r' = charged c r := by
  rw [Bool.eq_iff_iff, charged_iff, charged_iff, h]

end Settlement

section Records
variable {P : Platform} {s s' : InstanceState} {fx : List InstanceEffect} {p : Pubkey} {r : SolanaClient}
  {success : Bool} {f : SolanaClient → Nat}

lemma signer_of_recordOf (h : s.recordOf p = some r) : r.signer = p := by
  simpa using find?_some h

lemma recordOf_eq_none : s.recordOf p = none ↔ p ∉ s.recordKeys := by
  simp [recordOf, recordKeys]

lemma mem_settlement (h : s.recordOf p = some r) :
    (p ∈ (s.settlement success).credited ↔ credited s.coordinator r = true)
      ∧ (p ∈ (s.settlement success).charged ↔ charged s.coordinator r = true) := by
  have hr := mem_of_find?_eq_some h
  have hp := signer_of_recordOf h
  simp only [settlement, mem_map, mem_filter]
  constructor
  · constructor
    · rintro ⟨r', ⟨_, hc⟩, hp'⟩
      rwa [credited_congr (hp.trans hp'.symm)]
    · exact fun hc => ⟨r, ⟨hr, hc⟩, hp⟩
  · constructor
    · rintro ⟨r', ⟨_, hc⟩, hp'⟩
      rwa [charged_congr (hp.trans hp'.symm)]
    · exact fun hc => ⟨r, ⟨hr, hc⟩, hp⟩

lemma settlement_subset :
    (p ∈ (s.settlement success).credited → p ∈ s.recordKeys)
      ∧ (p ∈ (s.settlement success).charged → p ∈ s.recordKeys) := by
  simp only [settlement, recordKeys, mem_map, mem_filter]
  constructor
  · rintro ⟨r, ⟨hr, _⟩, hp⟩
    exact ⟨r, hr, hp⟩
  · rintro ⟨r, ⟨hr, _⟩, hp⟩
    exact ⟨r, hr, hp⟩

lemma recordOf_settled : s.settled.recordOf p
    = (s.recordOf p).map (settleClient s.coordinator s.clientsState.currentEpochRates) := by
  simp only [recordOf, settled, FixedVec.map_toList, find?_map]
  rfl

lemma read_settled {keys : List Pubkey} {amount : Nat}
    (hf : ∀ r, s.recordOf p = some r → f (settleClient s.coordinator s.clientsState.currentEpochRates r)
      = f r + if p ∈ keys then amount else 0)
    (hk : p ∈ keys → p ∈ s.recordKeys) :
    ((s.settled.recordOf p).map f).getD 0 = ((s.recordOf p).map f).getD 0 + if p ∈ keys then amount else 0 := by
  rw [recordOf_settled]
  cases hr : s.recordOf p with
  | none => simp [mt hk (recordOf_eq_none.mp hr)]
  | some r => simpa using hf r hr

lemma earnedOf_settled (success : Bool) :
    s.settled.earnedOf p = s.earnedOf p + tally (InstanceEffect.payment p) [.settled (s.settlement success)] := by
  rw [tally_cons, tally_nil, Nat.add_zero]
  refine read_settled (fun r hr => ?_) settlement_subset.1
  rw [if_congr (mem_settlement hr).1 rfl rfl]
  change (if credited s.coordinator r = true then _ else _) = _
  split <;> rfl

lemma slashedOf_settled (success : Bool) :
    s.settled.slashedOf p = s.slashedOf p + tally (InstanceEffect.charge p) [.settled (s.settlement success)] := by
  rw [tally_cons, tally_nil, Nat.add_zero]
  refine read_settled (fun r hr => ?_) settlement_subset.2
  rw [if_congr (mem_settlement hr).2 rfl rfl]
  change (if charged s.coordinator r = true then _ else _) = _
  split <;> rfl

lemma find?_modify_map {α β : Type} {q : α → Bool} {f : α → β} {g : α → α} {l : List α} {i : Nat}
    (h : ∀ x, l[i]? = some x → q (g x) = q x ∧ f (g x) = f x) :
    ((l.modify i g).find? q).map f = (l.find? q).map f := by
  induction l generalizing i with
  | nil => rw [modify_nil]
  | cons x l ih =>
    cases i with
    | zero =>
      obtain ⟨hq, hf⟩ := h x rfl
      rw [modify_zero_cons, find?_cons, find?_cons, hq]
      split
      · simp [hf]
      · rfl
    | succ i =>
      rw [modify_succ_cons, find?_cons, find?_cons]
      split
      · rfl
      · exact ih fun y hy => h y (by simpa using hy)

lemma read_register {id : NodeIdentity} {cs : ClientsState}
    (hf : ∀ (r : SolanaClient) (id : NodeIdentity) (active : Nat), f { r with id, active } = f r)
    (h0 : ∀ (id : NodeIdentity) (active : Nat), f ⟨id, 0, 0, active⟩ = 0) (h : s.register id = .ok cs) :
    ((recordOf { s with clientsState := cs } p).map f).getD 0 = ((s.recordOf p).map f).getD 0 := by
  obtain ⟨index, r, hi, hk, rfl⟩ | ⟨hnew, clients, hcl, rfl⟩ := register_inv h
  · refine congrArg (Option.getD · 0) (find?_modify_map fun x hx => ?_)
    cases hi.symm.trans hx
    exact ⟨by rw [hk], hf _ _ _⟩
  · simp only [recordOf, hcl, find?_append]
    cases hr : s.clientsState.clients.toList.find? fun r => r.signer == p with
    | some r => rfl
    | none =>
      simp only [Option.none_or, find?_singleton]
      split
      · simp [h0]
      · rfl

/-- Records change by a settlement or a registration only. -/
lemma InstanceStep.records (st : InstanceStep P s fx s') :
    (∃ clock c success,
      s.coordinator.TickStep P s.pendingIds (Clock.now clock) (getRandomSeed P clock) c (.epochEnd success)
        ∧ s' = (s.ticking c).settled ∧ fx = [.settled ((s.ticking c).settlement success)])
      ∨ (∀ e ∈ fx, e.isEjection = true)
        ∧ (s'.clientsState.clients = s.clientsState.clients
          ∨ ∃ id cs, s.register id = .ok cs ∧ s' = { s with clientsState := cs }) := by
  cases st with
  | @ticked clock c _ ht hn =>
    refine .inr ⟨by simp, .inl ?_⟩
    obtain ⟨_, _, rfl⟩ | ⟨_, _, _, rfl⟩ := noteStart_inv hn <;>
    · unfold ticking resetFlags
      split <;> rfl
  | settle ht => exact .inl ⟨_, _, _, ht, rfl, rfl⟩
  | eject _ _ => exact .inr ⟨by simp [InstanceEffect.isEjection], .inl rfl⟩
  | register h => exact .inr ⟨by simp, .inr ⟨_, _, h, rfl⟩⟩
  | update hu =>
    obtain ⟨_, _, _, rfl⟩ := update_inv hu
    exact .inr ⟨by simp, .inl rfl⟩
  | _ => exact .inr ⟨by simp, .inl rfl⟩

/-- What is read off a record grows by what the settlements say. -/
lemma InstanceStep.read {w : InstanceEffect → Nat} (st : InstanceStep P s fx s')
    (hf : ∀ (r : SolanaClient) (id : NodeIdentity) (active : Nat), f { r with id, active } = f r)
    (h0 : ∀ (id : NodeIdentity) (active : Nat), f ⟨id, 0, 0, active⟩ = 0) (hw : ∀ q, w (.ejected q) = 0)
    (hs : ∀ (s : InstanceState) (success : Bool), ((s.settled.recordOf p).map f).getD 0
      = ((s.recordOf p).map f).getD 0 + tally w [.settled (s.settlement success)]) :
    ((s'.recordOf p).map f).getD 0 = ((s.recordOf p).map f).getD 0 + tally w fx := by
  obtain ⟨_, c, success, _, rfl, rfl⟩ | ⟨hej, hcl | ⟨id, cs, hr, rfl⟩⟩ := st.records
  · rw [hs _ success, recordOf, clientsState_ticking, recordOf]
  · rw [tally_of_ejections hw hej, recordOf, recordOf, hcl]
    rfl
  · rw [tally_of_ejections hw hej]
    exact read_register hf h0 hr

lemma InstanceStep.earnedOf (st : InstanceStep P s fx s') :
    s'.earnedOf p = s.earnedOf p + tally (InstanceEffect.payment p) fx :=
  st.read (fun _ _ _ => rfl) (fun _ _ => rfl) (fun _ => rfl) fun _ => earnedOf_settled

lemma InstanceStep.slashedOf (st : InstanceStep P s fx s') :
    s'.slashedOf p = s.slashedOf p + tally (InstanceEffect.charge p) fx :=
  st.read (fun _ _ _ => rfl) (fun _ _ => rfl) (fun _ => rfl) fun _ => slashedOf_settled

lemma earnedOf_chain (h : Chain (InstanceStep P) s fx s') :
    s'.earnedOf p = s.earnedOf p + tally (InstanceEffect.payment p) fx := by
  induction h with
  | nil => rfl
  | snoc _ st ih => rw [st.earnedOf, ih, tally_append, Nat.add_assoc]

lemma slashedOf_chain (h : Chain (InstanceStep P) s fx s') :
    s'.slashedOf p = s.slashedOf p + tally (InstanceEffect.charge p) fx := by
  induction h with
  | nil => rfl
  | snoc _ st ih => rw [st.slashedOf, ih, tally_append, Nat.add_assoc]

end Records
end InstanceState
end Leviathan
