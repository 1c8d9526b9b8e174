import Leviathan.Authorizer.State
import Leviathan.Treasurer.Inversion

/-!
# Joining a bonded run

A run that is its own join authority, with the authorizer beside it: three programs and the accounts of each. The
treasurer grants an authorization to a user whose bond is at least the minimum (`participant_authorize_join.rs`), and
the coordinator lets a key join that an authorization of the join authority is valid for (`join_run.rs`). The bond is
looked at when the authorization is granted and never again, and nothing of the treasurer takes an authorization back.

The run is a program-derived address: it signs through the treasurer only, and so no instruction that is sent to the
authorizer directly is signed by it. Nobody signs with the default key either. `joinRun` of a deployment leaves the
authorization out; here it is checked first.
-/

namespace Leviathan
open Exec List

/-- Rust `JOIN_RUN_AUTHORIZATION_SCOPE`, the bytes of `CoordinatorJoinRun`. -/
def joinRunAuthorizationScope : Bytes :=
  [67, 111, 111, 114, 100, 105, 110, 97, 116, 111, 114, 74, 111, 105, 110, 82, 117, 110]

/-- Why an instruction is refused. -/
inductive AdmissionError where
  | treasurer (e : TreasurerError)
  | authorizer (e : AuthorizerError)
  | constraint
deriving DecidableEq, Repr

/-- A deployment and the authorizations beside it. -/
structure Admission where
  deployment : Deployment
  authorizations : Authorizations

/-- What can be done to a deployment and to authorizations. -/
inductive AdmissionInstruction where
  | treasurer (ix : TreasurerInstruction)
  | authorizer (signer : Pubkey) (ix : AuthorizerInstruction)
  | participantAuthorizeJoin (user : Pubkey)
  | joinRun (user : Pubkey) (clientId : NodeIdentity) (authorization : Authorization.Seeds)

def TreasurerInstruction.isJoin : TreasurerInstruction → Bool
  | .coordinator (.joinRun _ _) => true
  | _ => false

namespace Admission

/-- An instruction of the treasurer, or one of the coordinator that needs no authorization. -/
def treasurerInstruction (P : Platform) (s : Admission) (clock : Clock) (ix : TreasurerInstruction) :
    Exec AdmissionError Panic (Admission × List TreasurerEffect) := do
  Exec.require (ix.isJoin = false ∧ ix.participant? ≠ some 0) .constraint
  let (d, fx) ← Exec.mapErr .treasurer (s.deployment.process P clock ix)
  .ok ({ s with deployment := d }, fx)

/-- An instruction that is sent to the authorizer directly. -/
def authorizerInstruction (s : Admission) (clock : Clock) (signer : Pubkey) (ix : AuthorizerInstruction) :
    Exec AdmissionError Panic (Admission × List TreasurerEffect) := do
  Exec.require (signer ≠ s.deployment.run.address ∧ signer ≠ 0) .constraint
  let authorizations ← Exec.mapErr .authorizer (s.authorizations.process clock.unixTimestamp signer ix)
  .ok ({ s with authorizations }, [])

/-- Rust `participant_authorize_join_processor`. The run signs for the two calls of the authorizer. -/
def participantAuthorizeJoin (s : Admission) (clock : Clock) (user : Pubkey) :
    Exec AdmissionError Panic (Admission × List TreasurerEffect) := do
  Exec.require (s.deployment.run.joinAuthority = s.deployment.run.address) .constraint
  let participant ← Exec.mapErr .treasurer (s.deployment.participant user)
  Exec.require (s.deployment.run.bondMinimumAmount ≤ participant.bondAmount) (.treasurer .bondBelowMinimum)
  let authorizations ← Exec.mapErr .authorizer
    (s.authorizations.authorizationCreate s.deployment.run.address user joinRunAuthorizationScope)
  let authorizations ← Exec.mapErr .authorizer
    (authorizations.authorizationGrantorUpdate clock.unixTimestamp s.deployment.run.address
      ⟨s.deployment.run.address, user, joinRunAuthorizationScope⟩ true)
  .ok ({ s with authorizations }, [])

/-- Rust `join_run_processor` with `JoinRunAccounts`. The join authority of the coordinator instance is that of the run (in
Rust `run_create_processor`). -/
def joinRun (P : Platform) (s : Admission) (clock : Clock) (user : Pubkey) (clientId : NodeIdentity)
    (seeds : Authorization.Seeds) : Exec AdmissionError Panic (Admission × List TreasurerEffect) := do
  let authorization ← Exec.mapErr .authorizer (s.authorizations.authorization seeds)
  Exec.require (authorization.isValidFor s.deployment.run.joinAuthority user joinRunAuthorizationScope = true)
    .constraint
  let (d, fx) ← Exec.mapErr .treasurer (s.deployment.process P clock (.coordinator (.joinRun user clientId)))
  .ok ({ s with deployment := d }, fx)

def process (P : Platform) (s : Admission) (clock : Clock) :
    AdmissionInstruction → Exec AdmissionError Panic (Admission × List TreasurerEffect)
  | .treasurer ix => s.treasurerInstruction P clock ix
  | .authorizer signer ix => s.authorizerInstruction clock signer ix
  | .participantAuthorizeJoin user => s.participantAuthorizeJoin clock user
  | .joinRun user clientId seeds => s.joinRun P clock user clientId seeds

/-- A run that has just been created as its own join authority. It has granted nothing yet. -/
def created (address mainAuthority collateralMint : Pubkey) (clientVersion : Bytes) : Admission where
  deployment := .created address mainAuthority address collateralMint clientVersion
  authorizations := ∅

/-- A run that is its own join authority, driven by instructions. -/
def machine (P : Platform) :
    Machine Admission (Clock × AdmissionInstruction) (List TreasurerEffect) (Fault AdmissionError Panic) where
  init s := ∃ address mainAuthority collateralMint clientVersion,
    s = created address mainAuthority collateralMint clientVersion
  step s i := s.process P i.1 i.2

abbrev Record := List (Event Admission (Clock × AdmissionInstruction) (List TreasurerEffect))

/-- A user that takes part in the run with at least the minimum bonded. -/
def Bonded (d : Deployment) (user : Pubkey) : Prop :=
  ∃ p, d.participants.lookup user = some p ∧ d.run.bondMinimumAmount ≤ p.bondAmount

/-- A withdrawal of the user leaves it the minimum, after what has been slashed and what is pending. -/
def LeavesMinimum (d : Deployment) (user : Pubkey) : Prop :=
  match d.participants.lookup user with
  | some p => d.run.bondMinimumAmount = 0 ∨ d.run.bondMinimumAmount + p.bondWithdrawPendingAmount
      + (d.account.slashedOf user - p.bondSettledSlashedPoints) ≤ p.bondAmount
  | none => True

instance (d : Deployment) (user : Pubkey) : Decidable (LeavesMinimum d user) := by
  unfold LeavesMinimum
  split <;> infer_instance

def authorized (s : Admission) : List Pubkey :=
  (s.authorizations.keys.filter fun seeds => seeds.grantor = s.deployment.run.address).map Authorization.Seeds.grantee

/-- An instruction that does not part the authorizations of the run from the bonds: it adds no delegate to one, a withdrawal
of an authorized user leaves it the minimum, and every authorized user meets a new minimum. -/
def KeepsBond (s : Admission) : AdmissionInstruction → Prop
  | .authorizer _ (.granteeUpdate seeds _ added) => seeds.grantor = s.deployment.run.address → added = []
  | .treasurer (.participantBondFinalizeWithdraw user _ _ _) => user ∈ s.authorized → LeavesMinimum s.deployment user
  | .treasurer (.runBondConfigUpdate _ minimum _) => ∀ user ∈ s.authorized, minimum ≤ s.deployment.bondOf user
  | _ => True

instance (s : Admission) (ix : AdmissionInstruction) : Decidable (s.KeepsBond ix) := by
  unfold KeepsBond
  split
  · infer_instance
  · infer_instance
  · exact List.decidableBAll _ _
  · infer_instance

section Bonds
variable {P : Platform} {d d' : Deployment} {clock : Clock} {ix : TreasurerInstruction} {fx : List TreasurerEffect}
  {user : Pubkey}

lemma process_joinAuthority (h : d.process P clock ix = .ok (d', fx)) :
    d'.run.address = d.run.address ∧ d'.run.joinAuthority = d.run.joinAuthority := by
  have ht : (d'.run.terms.address, d'.run.terms.joinAuthority) = (d.run.terms.address, d.run.terms.joinAuthority) := by
    have st := (Deployment.process_spec h).terms
    generalize d'.run.terms = t' at st
    cases st <;> rfl
  exact Prod.mk.inj ht

/-- A user that has the minimum bonded still has it after an instruction, unless a withdrawal takes too much or a new
minimum asks for more. -/
lemma Bonded.process (hb : Bonded d user) (h : d.process P clock ix = .ok (d', fx))
    (hw : ∀ uc appeal remaining, ix = .participantBondFinalizeWithdraw user uc appeal remaining →
      LeavesMinimum d user)
    (hm : ∀ a minimum delay, ix = .runBondConfigUpdate a minimum delay → minimum ≤ d.bondOf user) :
    Bonded d' user := by
  obtain ⟨p, hp, hle⟩ := hb
  have hx := (Deployment.process_spec h).participant user
  have ht := (Deployment.process_spec h).terms
  have hleft : ∀ uc appeal remaining, ix = .participantBondFinalizeWithdraw user uc appeal remaining →
      d.run.bondMinimumAmount = 0 ∨ d.run.bondMinimumAmount + p.bondWithdrawPendingAmount
        + (d.account.slashedOf user - p.bondSettledSlashedPoints) ≤ p.bondAmount := by
    intro uc appeal remaining he
    have hl := hw uc appeal remaining he
    rw [LeavesMinimum, hp] at hl
    exact hl
  have hmin : ∀ a minimum delay, ix = .runBondConfigUpdate a minimum delay → minimum ≤ p.bondAmount := by
    intro a minimum delay he
    have := hm a minimum delay he
    rw [Deployment.bondOf, hp] at this
    exact this
  rw [hp] at hx
  suffices hs : ∃ p', d'.participants.lookup user = some p' ∧ d'.run.terms.bondMinimumAmount ≤ p'.bondAmount from hs
  generalize d'.run.terms = t' at ht
  generalize d'.participants.lookup user = o' at hx
  cases hx with
  | deposit _ =>
    cases ht with
    | other _ => exact ⟨_, rfl, Nat.le_add_right_of_le hle⟩
  | request _ | claim =>
    cases ht with
    | other _ => exact ⟨_, rfl, hle⟩
  | finalize _ hf hpay =>
    cases ht with
    | other _ =>
      have hrest := hleft _ _ _ rfl
      refine ⟨_, rfl, ?_⟩
      show d.run.bondMinimumAmount ≤ p.bondAmount - _ - _
      omega
  | other _ =>
    cases ht with
    | bondConfig _ => exact ⟨_, rfl, hmin _ _ _ rfl⟩
    | challengeConfig _ => exact ⟨_, rfl, hle⟩
    | other _ => exact ⟨_, rfl, hle⟩

end Bonds

/-- The run is its own join authority, the default key is no participant, and whoever the run has authorized has the
minimum bonded and no delegates. -/
structure Secured (s : Admission) : Prop where
  own : s.deployment.run.joinAuthority = s.deployment.run.address
  filed : s.authorizations.Filed
  nobody : s.deployment.participants.lookup 0 = none
  granted : ∀ seeds a, s.authorizations.lookup seeds = some a → seeds.grantor = s.deployment.run.address →
    a.delegates = [] ∧ Bonded s.deployment seeds.grantee

section Steps
variable {P : Platform} {s s' : Admission} {clock : Clock} {fx : List TreasurerEffect}

lemma mem_authorized {seeds : Authorization.Seeds} {a : Authorization} (ha : s.authorizations.lookup seeds = some a)
    (hg : seeds.grantor = s.deployment.run.address) : seeds.grantee ∈ s.authorized := by
  have hmem : seeds ∈ s.authorizations.keys := AList.mem_keys.mp (AList.lookup_isSome.mp (by rw [ha]; rfl))
  exact mem_map_of_mem (mem_filter.mpr ⟨hmem, by simpa using hg⟩)

lemma Secured.deployment (h : Secured s) {ix : TreasurerInstruction} {d : Deployment}
    (hp : s.deployment.process P clock ix = .ok (d, fx)) (hz : ix.participant? ≠ some 0)
    (hw : ∀ user uc appeal remaining, ix = .participantBondFinalizeWithdraw user uc appeal remaining →
      user ∈ s.authorized → LeavesMinimum s.deployment user)
    (hm : ∀ a minimum delay, ix = .runBondConfigUpdate a minimum delay →
      ∀ user ∈ s.authorized, minimum ≤ s.deployment.bondOf user) :
    Secured { s with deployment := d } := by
  obtain ⟨haddr, hjoin⟩ := process_joinAuthority hp
  refine ⟨?_, h.filed, ?_, ?_⟩
  · show d.run.joinAuthority = d.run.address
    rw [hjoin, haddr, h.own]
  · have hx := (Deployment.process_spec hp).participant 0
    have hold := h.nobody
    show d.participants.lookup 0 = none
    generalize s.deployment.participants.lookup 0 = o at hx hold
    generalize d.participants.lookup 0 = o' at hx
    cases hx with
    | create => exact absurd rfl hz
    | other _ => exact hold
    | _ => cases hold
  · intro seeds a ha hg
    have hg' : seeds.grantor = s.deployment.run.address := by rw [← haddr]; exact hg
    have hmem : seeds.grantee ∈ s.authorized := mem_authorized ha hg'
    obtain ⟨hd, hb⟩ := h.granted seeds a ha hg'
    refine ⟨hd, hb.process hp ?_ ?_⟩
    · intro uc appeal remaining he
      exact hw _ uc appeal remaining he hmem
    · intro a minimum delay he
      exact hm a minimum delay he _ hmem

lemma Secured.authorizer (h : Secured s) {signer : Pubkey} {ix : AuthorizerInstruction} {m : Authorizations}
    (hp : s.authorizations.process clock.unixTimestamp signer ix = .ok m)
    (hs : signer ≠ s.deployment.run.address)
    (hd : ∀ seeds clear added, ix = .granteeUpdate seeds clear added → seeds.grantor = s.deployment.run.address →
      added = []) :
    Secured { s with authorizations := m } := by
  refine ⟨h.own, h.filed.process hp, h.nobody, fun seeds a ha hg => ?_⟩
  have st := Authorizations.process_authorization hp seeds
  have hold := h.granted seeds
  have hfiled := h.filed seeds
  rw [ha] at st
  generalize s.authorizations.lookup seeds = o at st hold hfiled
  cases st with
  | create he =>
    rw [he] at hg
    exact absurd hg hs
  | @grantorUpdate b _ _ => exact hold b rfl hg
  | @granteeUpdate b clear added delegates _ he _ =>
    obtain ⟨hnil, hb⟩ := hold b rfl hg
    obtain rfl := hd _ _ _ rfl hg
    refine ⟨?_, hb⟩
    rw [he, hnil]
    cases clear <;> rfl
  | other => exact hold a rfl hg

lemma participantAuthorizeJoin_inv {user : Pubkey} (h : s.participantAuthorizeJoin clock user = .ok (s', fx)) :
    Bonded s.deployment user ∧ s' = { s with
      authorizations := s.authorizations.insert ⟨s.deployment.run.address, user, joinRunAuthorizationScope⟩
        ⟨s.deployment.run.address, user, joinRunAuthorizationScope, true, [], clock.unixTimestamp⟩ } := by
  simp only [participantAuthorizeJoin, Authorizations.authorizationCreate, Authorizations.authorizationGrantorUpdate,
    bind_eq_ok, mapErr_eq_ok, require_eq_ok, Deployment.participant_eq_ok,
    Authorizations.authorization_eq_ok, Except.ok.injEq, Prod.mk.injEq] at h
  obtain ⟨_, _, p, hp, _, hle, _, ⟨_, _, rfl⟩, _, ⟨a, ha, _, _, rfl⟩, rfl, _⟩ := h
  rw [AList.lookup_insert] at ha
  obtain rfl := Option.some.inj ha
  rw [AList.insert_insert]
  exact ⟨⟨p, hp, hle⟩, rfl⟩

lemma Secured.authorizeJoin (h : Secured s) {user : Pubkey}
    (hp : s.participantAuthorizeJoin clock user = .ok (s', fx)) : Secured s' := by
  obtain ⟨hb, rfl⟩ := participantAuthorizeJoin_inv hp
  refine ⟨h.own, fun seeds a ha => ?_, h.nobody, fun seeds a ha hg => ?_⟩
  · obtain ⟨rfl, rfl⟩ | ⟨_, ha⟩ := Accounts.lookup_insert_eq_some ha
    · exact ⟨rfl, Nat.zero_le _⟩
    · exact h.filed seeds a ha
  · obtain ⟨rfl, rfl⟩ | ⟨_, ha⟩ := Accounts.lookup_insert_eq_some ha
    · exact ⟨rfl, hb⟩
    · exact h.granted seeds a ha hg

end Steps

section Runs
variable {P : Platform} {s s' : Admission} {clock : Clock} {ix : AdmissionInstruction} {fx : List TreasurerEffect}

/-- An instruction that keeps the bonds keeps whoever is authorized bonded. -/
lemma Secured.process (h : Secured s) (hp : s.process P clock ix = .ok (s', fx)) (hk : s.KeepsBond ix) :
    Secured s' := by
  cases ix with
  | treasurer ix =>
    simp only [Admission.process, treasurerInstruction, bind_eq_ok, require_eq_ok, mapErr_eq_ok, ok_pair] at hp
    obtain ⟨_, ⟨_, hz⟩, ⟨d, _⟩, hd, rfl, _⟩ := hp
    refine h.deployment hd hz ?_ ?_
    · rintro user uc appeal remaining rfl
      exact hk
    · rintro a minimum delay rfl
      exact hk
  | authorizer signer ix =>
    simp only [Admission.process, authorizerInstruction, bind_eq_ok, require_eq_ok, mapErr_eq_ok, ok_pair] at hp
    obtain ⟨_, ⟨hs, _⟩, m, hm, rfl, _⟩ := hp
    refine h.authorizer hm hs ?_
    rintro seeds clear added rfl
    exact hk
  | participantAuthorizeJoin user => exact h.authorizeJoin hp
  | joinRun user clientId seeds =>
    simp only [Admission.process, joinRun, bind_eq_ok, mapErr_eq_ok, ok_pair] at hp
    obtain ⟨_, _, _, _, ⟨d, _⟩, hd, rfl, _⟩ := hp
    exact h.deployment hd (by rintro ⟨⟩) (by rintro _ _ _ _ ⟨⟩) (by rintro _ _ _ ⟨⟩)

/-- While bonds are kept, whoever is authorized has the minimum bonded. -/
lemma secured_of_run {tr : Record} (r : (machine P).Run tr s) (hk : ∀ ev ∈ tr, ev.before.KeepsBond ev.input.2) :
    Secured s := by
  induction r with
  | init h =>
    obtain ⟨_, _, _, _, rfl⟩ := h
    exact ⟨rfl, by rintro _ _ ⟨⟩, rfl, by rintro _ _ ⟨⟩⟩
  | accept _ st ih =>
    have h := ih fun ev hev => hk ev (mem_cons_of_mem _ hev)
    exact h.process st (hk _ mem_cons_self)
  | reject _ _ ih => exact ih hk

lemma Secured.bonded_of_isValidFor (h : Secured s) {seeds : Authorization.Seeds} {a : Authorization} {user : Pubkey}
    (ha : s.authorizations.lookup seeds = some a)
    (hv : a.isValidFor s.deployment.run.joinAuthority user joinRunAuthorizationScope = true) :
    Bonded s.deployment user := by
  simp only [Authorization.isValidFor, Bool.and_eq_true, Bool.or_eq_true, beq_iff_eq] at hv
  obtain ⟨⟨⟨_, hgrantor⟩, _⟩, hwho⟩ := hv
  have hseeds := (h.filed seeds a ha).1
  have hg : seeds.grantor = s.deployment.run.address := by
    rw [← hseeds, ← h.own, ← hgrantor]
    rfl
  obtain ⟨hnil, hb⟩ := h.granted seeds a ha hg
  have hgrantee : a.grantee = seeds.grantee := by
    rw [← hseeds]
    rfl
  rw [hnil, hgrantee] at hwho
  obtain (hzero | he) | hdel := hwho
  · -- an authorization for everybody would have been granted to the default key
    obtain ⟨p, hp, _⟩ := hb
    rw [hzero, h.nobody] at hp
    cases hp
  · rw [← he]
    exact hb
  · cases hdel

/-- **Nobody joins without a bond**: in every run in which no delegate is added to an authorization of the run, and neither
a withdrawal nor a new minimum puts an authorized user below the minimum, whoever joins has at least the minimum bonded. -/
theorem join_bonded {tr : Record} (r : (machine P).Run tr s) (hk : ∀ ev ∈ tr, ev.before.KeepsBond ev.input.2) :
    ∀ ev ∈ tr, ∀ user clientId seeds, ev.input.2 = .joinRun user clientId seeds →
      ∃ p, ev.before.deployment.participants.lookup user = some p
        ∧ ev.before.deployment.run.bondMinimumAmount ≤ p.bondAmount := by
  intro ev hev user clientId seeds he
  obtain ⟨tr1, tr2, rfl⟩ := append_of_mem hev
  obtain ⟨r', st⟩ := r.split
  have h : Secured ev.before := by
    refine secured_of_run r' fun ev' hev' => hk ev' ?_
    exact mem_append_right _ (mem_cons_of_mem _ hev')
  obtain ⟨before, ⟨clock, ix⟩, output, after⟩ := ev
  obtain rfl : ix = .joinRun user clientId seeds := he
  have st : before.joinRun P clock user clientId seeds = .ok (after, output) := st
  simp only [joinRun, bind_eq_ok, mapErr_eq_ok, require_eq_ok, Authorizations.authorization_eq_ok] at st
  obtain ⟨a, ha, _, hv, _⟩ := st
  exact h.bonded_of_isValidFor ha hv

/-- The run of a new deployment on a platform with a constant hash. -/
def runOf (inputs : List (Clock × AdmissionInstruction)) : Record × Admission :=
  (machine .zero).play [] (created 100 Deployment.authority Deployment.mint []) inputs

lemma runOf_run (inputs : List (Clock × AdmissionInstruction)) :
    (machine .zero).Run (runOf inputs).1 (runOf inputs).2 := by
  have hinit : (machine .zero).init (created 100 Deployment.authority Deployment.mint []) := ⟨_, _, _, _, rfl⟩
  exact (Machine.Run.init hinit).play inputs

/-- The authorization that the run grants to a user. -/
def joinSeeds (user : Pubkey) : Authorization.Seeds := ⟨100, user, joinRunAuthorizationScope⟩

/-- A user bonds the minimum of 50 and more and is authorized, then withdraws some of its bond and joins. -/
def withdrawing (amount : Nat) : List (Clock × AdmissionInstruction) :=
  (Deployment.opening.map fun i => (i.1, .treasurer i.2)) ++
  [(⟨0, 0⟩, .treasurer (.runBondConfigUpdate Deployment.authority 50 1)),
    (⟨1, 1⟩, .treasurer (.participantCreate 1)),
    (⟨1, 1⟩, .treasurer (.participantBondDeposit 1 (Deployment.wallet 1) 60)),
    (⟨1, 1⟩, .participantAuthorizeJoin 1),
    (⟨2, 1⟩, .treasurer (.participantBondRequestWithdraw 1 amount)),
    (⟨3, 1⟩, .treasurer (.participantBondFinalizeWithdraw 1 (Deployment.wallet 1) none [])),
    (⟨4, 1⟩, .joinRun 1 ⟨1, 0⟩ (joinSeeds 1))]

/-- The joins of a record: who joined, and the minimum and the bond of the user at that time. -/
def joins (tr : Record) : List (Pubkey × Nat × Nat) :=
  tr.filterMap fun ev => match ev.input.2 with
    | .joinRun user _ _ =>
      some (user, ev.before.deployment.run.bondMinimumAmount, ev.before.deployment.bondOf user)
    | _ => none

/-- With 10 of its 60 withdrawn, the user still has the minimum when it joins. -/
theorem join_bonded_withdrawing :
    joins (runOf (withdrawing 10)).1 = [(1, 50, 50)]
      ∧ ∀ ev ∈ (runOf (withdrawing 10)).1, ∀ user clientId seeds, ev.input.2 = .joinRun user clientId seeds →
        ∃ p, ev.before.deployment.participants.lookup user = some p
          ∧ ev.before.deployment.run.bondMinimumAmount ≤ p.bondAmount := by
  have hk : ∀ ev ∈ (runOf (withdrawing 10)).1, ev.before.KeepsBond ev.input.2 := by decide +kernel
  exact ⟨by decide +kernel, join_bonded (runOf_run (withdrawing 10)) hk⟩

/-- With all 60 withdrawn, the user that was authorized before joins without a bond. -/
theorem join_unbonded : joins (runOf (withdrawing 60)).1 = [(1, 50, 0)] := by decide +kernel

end Runs

end Admission
end Leviathan
