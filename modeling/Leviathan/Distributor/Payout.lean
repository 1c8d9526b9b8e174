import Leviathan.Distributor.Tree

/-!
# Airdrops never pay too much

What a claimer may redeem depends on what it presents: of the vesting in the instruction the program knows only that a
Merkle proof leads from it to the root. `vestedAt` is what an allocation has vested by a time, which the program
computes (`computeVestedCollateralAmount_eq_vestedAt`).

`ClaimsStep` is what an instruction does to the claims; `entitled_of_run` is the bound.
-/

namespace Leviathan
open Exec List

namespace Vesting

/-- What has vested by a time: nothing before the start, everything from the end on, and in between the part of the time
that has passed, rounded down. -/
def vestedAt (v : Vesting) (now : Int) : Nat :=
  if now < v.startUnixTimestamp.toInt then 0
  else if v.startUnixTimestamp.toInt + v.durationSeconds.toNat ≤ now then v.endCollateralAmount.toNat
  else v.endCollateralAmount.toNat * (now - v.startUnixTimestamp.toInt).toNat / v.durationSeconds.toNat

variable {v : Vesting} {now : Int}

lemma part_le {amount elapsed duration : Nat} (h : elapsed < duration) : amount * elapsed / duration ≤ amount :=
  Nat.div_le_of_le_mul (by rw [Nat.mul_comm]; exact Nat.mul_le_mul_right _ h.le)

lemma vestedAt_le (v : Vesting) (now : Int) : v.vestedAt now ≤ v.endCollateralAmount.toNat := by
  unfold vestedAt
  split
  · exact Nat.zero_le _
  · split
    · exact Nat.le_refl _
    · exact part_le (by omega)

lemma vestedAt_mono {now' : Int} (h : now ≤ now') : v.vestedAt now ≤ v.vestedAt now' := by
  by_cases hend : v.startUnixTimestamp.toInt + v.durationSeconds.toNat ≤ now'
  · have hall : v.vestedAt now' = v.endCollateralAmount.toNat := by
      rw [vestedAt, if_neg (by omega), if_pos hend]
    rw [hall]
    exact vestedAt_le v now
  · by_cases hstart : now < v.startUnixTimestamp.toInt
    · rw [vestedAt, if_pos hstart]
      exact Nat.zero_le _
    · rw [vestedAt, vestedAt, if_neg hstart, if_neg (by omega), if_neg (by omega), if_neg hend]
      exact Nat.div_le_div_right (Nat.mul_le_mul_left _ (by omega))

lemma computeVestedCollateralAmount_eq_vestedAt {n : Nat} (h : v.computeVestedCollateralAmount now = .ok n) :
    n = v.vestedAt now := by
  unfold computeVestedCollateralAmount at h
  unfold vestedAt
  split at h
  · rename_i hstart
    rw [if_pos hstart]
    exact (Except.ok.inj h).symm
  · rename_i hstart
    rw [if_neg hstart]
    split at h
    · rename_i hzero
      have hd : v.durationSeconds.toNat = 0 := by rw [hzero]; rfl
      rw [if_pos (by omega)]
      exact (Except.ok.inj h).symm
    · simp only [bind_eq_ok, subI64_eq_ok, require_eq_ok] at h
      obtain ⟨_, ⟨_, rfl⟩, _, _, _, _, _, hpos, h⟩ := h
      split at h
      · -- more than the whole, so that the end has come
        rename_i hmore
        have hend : v.startUnixTimestamp.toInt + v.durationSeconds.toNat ≤ now := by
          by_contra hc
          exact absurd (part_le (by omega)) (Nat.not_le.mpr hmore)
        rw [if_pos hend]
        exact (Except.ok.inj h).symm
      · rename_i hless
        obtain ⟨_, _, h⟩ := bind_eq_ok.mp h
        obtain rfl := Except.ok.inj h
        split
        · rename_i hend
          refine Nat.le_antisymm (Nat.not_lt.mp hless) ?_
          exact (Nat.le_div_iff_mul_le (by omega)).mpr (Nat.mul_le_mul_left _ (by omega))
        · rfl

lemma vestedAt_of_end (h : v.startUnixTimestamp.toInt + v.durationSeconds.toNat ≤ now) :
    v.vestedAt now = v.endCollateralAmount.toNat := by
  rw [vestedAt, if_neg (by omega), if_pos h]

lemma computeVestedCollateralAmount_isOk (h : v.durationSeconds = 0 ∨ now - v.startUnixTimestamp.toInt < 2 ^ 63) :
    ∃ n, v.computeVestedCollateralAmount now = .ok n := by
  unfold computeVestedCollateralAmount
  split
  · exact ⟨_, rfl⟩
  · rename_i hstart
    split
    · exact ⟨_, rfl⟩
    · rename_i hduration
      have hlt := h.resolve_left hduration
      have hpos : v.durationSeconds.toNat ≠ 0 := fun e => hduration (BitVec.eq_of_toNat_eq e)
      -- a `u64` times less than `2 ^ 63` seconds fits into 128 bits
      have hmul : v.endCollateralAmount.toNat * (now - v.startUnixTimestamp.toInt).toNat < 2 ^ 64 * 2 ^ 63 :=
        Nat.mul_lt_mul'' v.endCollateralAmount.isLt (by omega)
      have hfits : v.endCollateralAmount.toNat * (now - v.startUnixTimestamp.toInt).toNat < 2 ^ 128 :=
        hmul.trans (by decide)
      have helapsed : 0 ≤ now - v.startUnixTimestamp.toInt := by omega
      rw [subI64_eq_ok.mpr ⟨⟨by omega, hlt⟩, rfl⟩]
      simp only [ok_bind, require_of helapsed, require_of hfits, require_of hpos]
      split
      · exact ⟨_, rfl⟩
      · rename_i hless
        rw [require_of (lt_of_le_of_lt (Nat.not_lt.mp hless) v.endCollateralAmount.isLt)]
        exact ⟨_, rfl⟩

lemma computeVestedCollateralAmount_aborts (hd : v.durationSeconds ≠ 0)
    (h : 2 ^ 63 ≤ now - v.startUnixTimestamp.toInt) :
    v.computeVestedCollateralAmount now = .error (.panic .overflow) := by
  unfold computeVestedCollateralAmount
  rw [if_neg (by omega), if_neg hd, subI64, if_neg (by omega)]
  rfl

/-- For every vesting and two times, one after the other: both amounts are computed, do not exceed the whole, do not get
less, and are the whole from the end on, if and only if there is no duration or the time from the start to the second one
fits into an `i64`. -/
theorem vesting_total_iff {now1 now2 : Int} (h : now1 ≤ now2) :
    (∃ n1 n2, v.computeVestedCollateralAmount now1 = .ok n1 ∧ v.computeVestedCollateralAmount now2 = .ok n2
      ∧ n1 ≤ v.endCollateralAmount.toNat ∧ n2 ≤ v.endCollateralAmount.toNat ∧ n1 ≤ n2
      ∧ (v.startUnixTimestamp.toInt + v.durationSeconds.toNat ≤ now1 → n1 = v.endCollateralAmount.toNat)
      ∧ (v.startUnixTimestamp.toInt + v.durationSeconds.toNat ≤ now2 → n2 = v.endCollateralAmount.toNat))
    ↔ v.durationSeconds = 0 ∨ now2 - v.startUnixTimestamp.toInt < 2 ^ 63 := by
  constructor
  · rintro ⟨_, n2, _, hn2, _⟩
    by_contra hno
    rw [not_or, not_lt] at hno
    rw [computeVestedCollateralAmount_aborts hno.1 hno.2] at hn2
    cases hn2
  · intro hfits
    have hbefore : v.durationSeconds = 0 ∨ now1 - v.startUnixTimestamp.toInt < 2 ^ 63 := hfits.imp_right (by omega)
    obtain ⟨n1, h1⟩ := computeVestedCollateralAmount_isOk hbefore
    obtain ⟨n2, h2⟩ := computeVestedCollateralAmount_isOk hfits
    refine ⟨n1, n2, h1, h2, ?_⟩
    rw [computeVestedCollateralAmount_eq_vestedAt h1, computeVestedCollateralAmount_eq_vestedAt h2]
    exact ⟨vestedAt_le v now1, vestedAt_le v now2, vestedAt_mono h, vestedAt_of_end, vestedAt_of_end⟩

/-- Three hundred over ten seconds. -/
def tenSeconds : Vesting := ⟨100, 10, 300⟩

/-- At the end of the ten seconds all of the 300 are vested. -/
theorem vesting_total_tenSeconds :
    ∃ n1 n2, tenSeconds.computeVestedCollateralAmount 104 = .ok n1
      ∧ tenSeconds.computeVestedCollateralAmount 110 = .ok n2 ∧ n1 ≤ n2 ∧ n2 = 300 := by
  have hlater : (104 : Int) ≤ 110 := by decide
  have hfits : tenSeconds.durationSeconds = 0 ∨ (110 : Int) - tenSeconds.startUnixTimestamp.toInt < 2 ^ 63 := by decide
  obtain ⟨n1, n2, h1, h2, _, _, hle, _, hend⟩ := (vesting_total_iff hlater).mpr hfits
  exact ⟨n1, n2, h1, h2, hle, hend (by decide)⟩

/-- One second that began at the earliest time of all. -/
def earliest : Vesting := ⟨.intMin 64, 1, 1⟩

/-- At the beginning of the Unix epoch its amount cannot be computed. -/
theorem vesting_aborts : earliest.startUnixTimestamp.toInt + earliest.durationSeconds.toNat ≤ 0
    ∧ earliest.computeVestedCollateralAmount 0 = .error (.panic .overflow) := by
  decide

end Vesting

def DistributorInstruction.redeems (key : Pubkey × BitVec 64) : DistributorInstruction → Nat
  | .claimRedeem claimer _ _ params => if (claimer, params.nonce) = key then params.collateralAmount else 0
  | _ => 0

def DistributorInstruction.hashed (H : Sha256) : DistributorInstruction → List Bytes
  | .claimRedeem claimer _ _ params => (params.allocation claimer).hashed H params.merkleProof
  | _ => []

namespace Distribution

/-- What an instruction does to the claims and to the total that is kept of them. -/
inductive ClaimsStep (H : Sha256) (now : Int) (d d' : Distribution) : DistributorInstruction → Prop where
  | create {claimer nonce} :
    d.claims.lookup (claimer, nonce) = none →
    d'.claims = d.claims.insert (claimer, nonce) ⟨0⟩ →
    d'.airdrop.totalClaimedCollateralAmount = d.airdrop.totalClaimedCollateralAmount →
    ClaimsStep H now d d' (.claimCreate claimer nonce)
  | redeem {claimer receiver mint params claim} :
    d.claims.lookup (claimer, params.nonce) = some claim →
    d.airdrop.merkleRoot.isValidProof H ((params.allocation claimer).toMerkleHash H) params.merkleProof = true →
    params.collateralAmount ≤ params.vesting.vestedAt now - claim.claimedCollateralAmount →
    d'.claims = d.claims.insert (claimer, params.nonce) ⟨claim.claimedCollateralAmount + params.collateralAmount⟩ →
    d'.airdrop.totalClaimedCollateralAmount = d.airdrop.totalClaimedCollateralAmount + params.collateralAmount →
    ClaimsStep H now d d' (.claimRedeem claimer receiver mint params)
  | other {ix} :
    (∀ key, ix.redeems key = 0) →
    d'.claims = d.claims →
    d'.airdrop.totalClaimedCollateralAmount = d.airdrop.totalClaimedCollateralAmount →
    ClaimsStep H now d d' ix

section Inversion
variable {H : Sha256} {d d' : Distribution} {now : Int} {ix : DistributorInstruction}

lemma transfer_eq_ok {receiver : Receiver} {amount : Nat} (h : d.transfer receiver amount = .ok d') :
    d'.airdrop = d.airdrop ∧ d'.claims = d.claims := by
  simp only [transfer, bind_eq_ok, require_eq_ok, Except.ok.injEq] at h
  obtain ⟨_, _, rfl⟩ := h
  split
  · exact ⟨rfl, rfl⟩
  · exact ⟨rfl, rfl⟩

lemma process_claims (h : d.process H now ix = .ok d') : ClaimsStep H now d d' ix := by
  cases ix with
  | airdropUpdate authority params =>
    simp only [process, airdropUpdate, bind_eq_ok, require_eq_ok, Except.ok.injEq] at h
    obtain ⟨_, _, _, _, rfl⟩ := h
    exact .other (fun _ => rfl) rfl rfl
  | airdropWithdraw authority receiver mint amount =>
    simp only [process, airdropWithdraw, bind_eq_ok, require_eq_ok] at h
    obtain ⟨_, _, _, _, _, _, h⟩ := h
    obtain ⟨ha, hc⟩ := transfer_eq_ok h
    exact .other (fun _ => rfl) hc (by rw [ha])
  | claimCreate claimer nonce =>
    simp only [process, claimCreate, bind_eq_ok, require_eq_ok, Except.ok.injEq] at h
    obtain ⟨_, hnew, _, _, rfl⟩ := h
    exact .create hnew rfl rfl
  | claimRedeem claimer receiver mint params =>
    simp only [process, claimRedeem, bind_eq_ok, require_eq_ok, okOr_eq_ok, addU_eq_ok] at h
    obtain ⟨_, _, _, _, claim, hclaim, _, _, _, hvalid, vested, hvested, _, hle, _, ⟨_, rfl⟩, _, ⟨_, rfl⟩, h⟩ := h
    obtain ⟨ha, hc⟩ := transfer_eq_ok h
    rw [Vesting.computeVestedCollateralAmount_eq_vestedAt hvested] at hle
    exact .redeem hclaim hvalid hle hc (by rw [ha])
  | transferIn amount =>
    simp only [process, transferIn, bind_eq_ok, require_eq_ok, Except.ok.injEq] at h
    obtain ⟨_, _, rfl⟩ := h
    exact .other (fun _ => rfl) rfl rfl

lemma step_claims {o : Unit} (h : (machine H).step d (now, ix) = .ok (d', o)) : ClaimsStep H now d d' ix := by
  obtain ⟨d'', hd, h⟩ := bind_eq_ok.mp h
  cases h
  exact process_claims hd

end Inversion

section Runs
variable {H : Sha256} {tr : Record} {s : Distribution} {ev : Event Distribution (Int × DistributorInstruction) Unit}
  {key : Pubkey × BitVec 64}

/-- What a claim has been paid, nothing if there is none. -/
def claimedOf (d : Distribution) (key : Pubkey × BitVec 64) : Nat :=
  ((d.claims.lookup key).map Claim.claimedCollateralAmount).getD 0

/-- What has been redeemed of a claim in a run. -/
def redeemed (key : Pubkey × BitVec 64) (tr : Record) : Nat := (tr.map fun ev => ev.input.2.redeems key).sum

/-- What is hashed in a run to check the proofs that are presented. -/
def checked (H : Sha256) (tr : Record) : List Bytes := tr.flatMap fun ev => ev.input.2.hashed H

lemma redeemed_cons (key : Pubkey × BitVec 64) : redeemed key (ev :: tr) = ev.input.2.redeems key + redeemed key tr :=
  sum_cons

lemma checked_cons : checked H (ev :: tr) = ev.input.2.hashed H ++ checked H tr :=
  flatMap_cons

/-- The total of the airdrop is that of its claims. -/
lemma total_eq_of_run (r : (machine H).Run tr s) :
    s.airdrop.totalClaimedCollateralAmount = s.claims.total Claim.claimedCollateralAmount := by
  refine r.invariant (I := fun s => s.airdrop.totalClaimedCollateralAmount
    = s.claims.total Claim.claimedCollateralAmount) ?_ ?_
  · rintro s ⟨_, _, _, _, rfl⟩
    rfl
  · rintro s ⟨now, ix⟩ s' o hs st
    cases step_claims st with
    | create hnew hc ht => rw [ht, hc, Accounts.total_insert_new _ hnew, Nat.zero_add, hs]
    | @redeem claimer _ _ params claim hclaim _ _ hc ht =>
      have hsum := Accounts.total_insert (a := ⟨claim.claimedCollateralAmount + params.collateralAmount⟩)
        Claim.claimedCollateralAmount hclaim
      rw [ht, hc, hs]
      dsimp only at hsum
      omega
    | other _ hc ht => rw [ht, hc, hs]

lemma claimedOf_insert {d d' : Distribution} {claim : Claim} (h : d'.claims = d.claims.insert key claim)
    (key' : Pubkey × BitVec 64) :
    d'.claimedOf key' = if key = key' then claim.claimedCollateralAmount else d.claimedOf key' := by
  unfold claimedOf
  rw [h]
  split
  · rename_i he
    rw [← he, AList.lookup_insert]
    rfl
  · rename_i hne
    rw [AList.lookup_insert_ne (Ne.symm hne)]

lemma claimedOf_eq_redeemed (r : (machine H).Run tr s) (key : Pubkey × BitVec 64) : s.claimedOf key = redeemed key tr := by
  refine r.history (P := fun tr s => s.claimedOf key = redeemed key tr) ?_ ?_
  · rintro s ⟨_, _, _, _, rfl⟩
    rfl
  · rintro tr s ⟨now, ix⟩ s' o _ hs st
    rw [redeemed_cons, ← hs]
    cases step_claims st with
    | create hnew hc _ =>
      rw [claimedOf_insert hc]
      refine Eq.trans ?_ (Nat.zero_add _).symm
      split
      · rename_i he
        rw [claimedOf, ← he, hnew]
        rfl
      · rfl
    | redeem hclaim _ _ hc _ =>
      rw [claimedOf_insert hc, DistributorInstruction.redeems]
      split
      · rename_i he
        rw [claimedOf, ← he, hclaim]
        exact Nat.add_comm _ _
      · rw [Nat.zero_add]
    | other hix hc _ => rw [hix, Nat.zero_add, claimedOf, claimedOf, hc]

/-- An amount that has vested by a time for a claim. -/
def Entitled (allocations : List Allocation) (now : Int) (key : Pubkey × BitVec 64) (amount : Nat) : Prop :=
  amount = 0 ∨ ∃ a ∈ allocations, a.key = key ∧ amount ≤ a.vesting.vestedAt now

variable {allocations : List Allocation} {tree : AirdropMerkleTree} {root : MerkleHash}

/-- Nobody has claimed more than what its allocation has vested. -/
lemma entitled_of_run (htree : AirdropMerkleTree.tryFrom H allocations = .ok tree) (hroot : tree.root = .ok root)
    (r : (machine H).Run tr s) (hfixed : ∀ d ∈ tr.map Event.before, d.airdrop.merkleRoot = root)
    (hfree : CollisionFree H (tree.hashed ++ checked H tr)) {now : Int}
    (hclock : ∀ ev ∈ tr, ev.input.1 ≤ now) (key : Pubkey × BitVec 64) :
    Entitled allocations now key (s.claimedOf key) := by
  revert hfixed hfree hclock
  refine r.history (P := fun tr s => (∀ d ∈ tr.map Event.before, d.airdrop.merkleRoot = root) →
    CollisionFree H (tree.hashed ++ checked H tr) → (∀ ev ∈ tr, ev.input.1 ≤ now) →
    Entitled allocations now key (s.claimedOf key)) ?_ ?_
  · rintro s ⟨_, _, _, _, rfl⟩ _ _ _
    exact .inl rfl
  · rintro tr s ⟨t, ix⟩ s' o _ hs st hfixed hfree hclock
    rw [map_cons, forall_mem_cons] at hfixed
    rw [forall_mem_cons] at hclock
    rw [checked_cons] at hfree
    have hold := hs hfixed.2 (hfree.mono (by simp)) hclock.2
    cases step_claims st with
    | create hnew hc _ =>
      rw [claimedOf_insert hc]
      split
      · exact .inl rfl
      · exact hold
    | @redeem claimer _ _ params claim hclaim hvalid hle hc _ =>
      rw [claimedOf_insert hc]
      split
      · rename_i he
        subst he
        by_cases hzero : params.collateralAmount = 0
        · rw [claimedOf, hclaim] at hold
          rw [hzero]
          exact hold
        · -- what is presented is an allocation of the tree, and the new amount has vested for it
          have hmem : params.allocation claimer ∈ allocations := by
            refine AirdropMerkleTree.proof_sound htree hroot (hfree.mono ?_) (hfixed.1 ▸ hvalid)
            simp [DistributorInstruction.hashed]
          refine .inr ⟨_, hmem, rfl, ?_⟩
          refine Nat.le_trans ?_ (Vesting.vestedAt_mono hclock.1)
          show claim.claimedCollateralAmount + params.collateralAmount ≤ params.vesting.vestedAt t
          omega
      · exact hold
    | other _ hc _ =>
      rw [claimedOf, hc]
      exact hold

lemma Entitled.le {now : Int} {amount : Nat} (h : Entitled allocations now key amount)
    (hdistinct : (allocations.map Allocation.key).Nodup) {a : Allocation} (ha : a ∈ allocations)
    (hkey : a.key = key) : amount ≤ a.vesting.vestedAt now := by
  obtain rfl | ⟨b, hb, hbkey, hle⟩ := h
  · exact Nat.zero_le _
  · rw [inj_on_of_nodup_map hdistinct ha hb (hkey.trans hbkey.symm)]
    exact hle

/-- The root of the tree over three allocations. -/
def threeRoot : MerkleHash := (AirdropMerkleTree.threeTree.root.toOption).getD 0

/-- The second claimer creates a claim for its second allocation and redeems 100 of 300 when 120 have vested, and 50 more at
150. -/
def redemptions : List (Int × DistributorInstruction) :=
  let proof := (AirdropMerkleTree.threeTree.proofAtAllocationIndex 2).toOption.getD []
  [(5, .transferIn 2000), (6, .claimCreate 2 1),
    (40, .claimRedeem 2 ⟨7, none, false⟩ 7 ⟨1, ⟨20, 50, 300⟩, 100, proof⟩),
    (45, .claimRedeem 2 ⟨7, none, false⟩ 7 ⟨1, ⟨20, 50, 300⟩, 50, proof⟩)]

/-- The airdrop after the redemptions, and what has been accepted. -/
def redeemedAirdrop : Record × Distribution :=
  (machine digitsHash).play [] (airdropCreate 9 7 threeRoot []) redemptions

/-- Airdrops never pay too much. While the root is that of the tree over allocations of which no two are for the same claim,
what has been redeemed of a claim is at most what its allocation has vested, nothing is paid without an allocation, and the
total is the sum over all claims. -/
theorem claims_never_overpaid (htree : AirdropMerkleTree.tryFrom H allocations = .ok tree) (hroot : tree.root = .ok root)
    (hdistinct : (allocations.map Allocation.key).Nodup) (r : (machine H).Run tr s)
    (hfixed : ∀ d ∈ s :: tr.map Event.before, d.airdrop.merkleRoot = root)
    (hfree : CollisionFree H (tree.hashed ++ checked H tr)) {now : Int}
    (hclocks : (now :: tr.map fun ev => ev.input.1).Pairwise (· ≥ ·)) :
    (∀ key claim, s.claims.lookup key = some claim →
      claim.claimedCollateralAmount = redeemed key tr
        ∧ (∀ a ∈ allocations, a.key = key → claim.claimedCollateralAmount ≤ a.vesting.vestedAt now
          ∧ claim.claimedCollateralAmount ≤ a.vesting.endCollateralAmount.toNat)
        ∧ ((∀ a ∈ allocations, a.key ≠ key) → claim.claimedCollateralAmount = 0))
      ∧ s.airdrop.totalClaimedCollateralAmount = s.claims.total Claim.claimedCollateralAmount := by
  refine ⟨?_, total_eq_of_run r⟩
  intro key claim hclaim
  have hof : s.claimedOf key = claim.claimedCollateralAmount := by rw [claimedOf, hclaim]; rfl
  have hclock : ∀ ev ∈ tr, ev.input.1 ≤ now := by
    intro ev hev
    exact (pairwise_cons.mp hclocks).1 _ (mem_map_of_mem hev)
  have hent := entitled_of_run htree hroot r (fun d hd => hfixed d (mem_cons_of_mem _ hd)) hfree hclock key
  rw [hof] at hent
  refine ⟨hof.symm.trans (claimedOf_eq_redeemed r key), ?_, ?_⟩
  · intro a ha hkey
    have hle := hent.le hdistinct ha hkey
    exact ⟨hle, hle.trans (Vesting.vestedAt_le _ _)⟩
  · intro hnone
    obtain hzero | ⟨a, ha, hkey, _⟩ := hent
    · exact hzero
    · exact absurd hkey (hnone a ha)

/-- Of 300, the claimant has redeemed the 150 that are vested. -/
theorem claims_never_overpaid_redemptions :
    redeemedAirdrop.2.claims.lookup (2, 1) = some ⟨150⟩ ∧ redeemed (2, 1) redeemedAirdrop.1 = 150
      ∧ 150 ≤ Vesting.vestedAt ⟨20, 50, 300⟩ 45
      ∧ redeemedAirdrop.2.airdrop.totalClaimedCollateralAmount
        = redeemedAirdrop.2.claims.total Claim.claimedCollateralAmount := by
  have hinit : (machine digitsHash).Run [] (airdropCreate 9 7 threeRoot []) :=
    .init ⟨9, 7, threeRoot, [], rfl⟩
  have hrun : (machine digitsHash).Run redeemedAirdrop.1 redeemedAirdrop.2 := hinit.play redemptions
  have hroot : AirdropMerkleTree.threeTree.root = .ok threeRoot := by
    rw [AirdropMerkleTree.root_eq_ok]
    decide +kernel
  have hlookup : redeemedAirdrop.2.claims.lookup (2, 1) = some ⟨150⟩ := by decide +kernel
  obtain ⟨hclaims, htotal⟩ := claims_never_overpaid (AirdropMerkleTree.tryFrom_of_ne (cons_ne_nil _ _)) hroot
    (by decide) hrun (by decide +kernel) (by decide +kernel)
    (by decide +kernel : (45 :: redeemedAirdrop.1.map fun ev => ev.input.1).Pairwise (· ≥ ·))
  obtain ⟨hredeemed, hvested, _⟩ := hclaims _ _ hlookup
  exact ⟨hlookup, hredeemed.symm, (hvested ⟨2, 1, ⟨20, 50, 300⟩⟩ (by decide) rfl).1, htotal⟩

end Runs

end Distribution
end Leviathan
