import Leviathan.Core.Identity
import Leviathan.Lib.Accounts

/-!
# Authorizations

The authorizer program (`solana-authorizer/src/{state,logic}`). A grantor creates an authorization for a grantee and a
scope, and switches it on and off; the grantee adds delegates of its own to it; the grantor closes it once it is off.

The account of an authorization is found by its grantor, grantee and scope (in Rust `find_authorization`); `Seeds` is
that address. An instruction names its account and is signed by one key, the grantor's or the grantee's.
`AuthorizationStep` is what an accepted one does to the account at one address (`process_authorization`). Left out:
bumps, the payer and the size of the account.
-/

namespace Leviathan
open Exec

/-- Why an instruction is refused (Rust `ProgramError`); `constraint` is an account that does not exist, exists already or
is not the signer's. -/
inductive AuthorizerError where
  | authorizationActiveIsTrue
  | authorizationClosingConditionsNotReachedYet
  | tooManyDelegates
  | constraint
deriving DecidableEq, Repr

structure Authorization where
  grantor : Pubkey
  grantee : Pubkey
  scope : Bytes
  active : Bool
  delegates : List Pubkey
  grantorUpdateUnixTimestamp : Int
deriving DecidableEq, Repr

namespace Authorization

def maxDelegates : Nat := 64

/-- How long a grantor waits before it closes an authorization with delegates: thirty days. -/
def closingDelaySeconds : Int := 30 * 24 * 60 * 60

/-- Whether an authorization lets a key act for a grantor. The default key stands for everybody. -/
def isValidFor (a : Authorization) (grantor grantee : Pubkey) (scope : Bytes) : Bool :=
  a.active && a.grantor == grantor && a.scope == scope
    && (a.grantee == 0 || a.grantee == grantee || a.delegates.contains grantee)

/-- The seeds of the address of an authorization. -/
structure Seeds where
  grantor : Pubkey
  grantee : Pubkey
  scope : Bytes
deriving DecidableEq, Repr

/-- The seeds under which an authorization is found. -/
def seeds (a : Authorization) : Seeds := ⟨a.grantor, a.grantee, a.scope⟩

end Authorization

abbrev Authorizations := Accounts Authorization.Seeds Authorization

/-- The instructions of the authorizer (Rust `psyche_solana_authorizer`). -/
inductive AuthorizerInstruction where
  | create (grantee : Pubkey) (scope : Bytes)
  | grantorUpdate (seeds : Authorization.Seeds) (active : Bool)
  | granteeUpdate (seeds : Authorization.Seeds) (delegatesClear : Bool) (delegatesAdded : List Pubkey)
  | close (seeds : Authorization.Seeds)

namespace Authorizations
open Authorization

/-- The account at an address; it has to exist. -/
def authorization (m : Authorizations) (seeds : Seeds) : Exec AuthorizerError Panic Authorization :=
  Exec.okOr (m.lookup seeds) .constraint

def authorizationCreate (m : Authorizations) (grantor grantee : Pubkey) (scope : Bytes) :
    Exec AuthorizerError Panic Authorizations := do
  Exec.require (m.lookup ⟨grantor, grantee, scope⟩ = none) .constraint
  .ok (m.insert ⟨grantor, grantee, scope⟩ ⟨grantor, grantee, scope, false, [], 0⟩)

def authorizationGrantorUpdate (m : Authorizations) (now : Int) (grantor : Pubkey) (seeds : Seeds) (active : Bool) :
    Exec AuthorizerError Panic Authorizations := do
  let a ← m.authorization seeds
  Exec.require (a.grantor = grantor) .constraint
  .ok (m.insert seeds { a with active, grantorUpdateUnixTimestamp := now })

def authorizationGranteeUpdate (m : Authorizations) (grantee : Pubkey) (seeds : Seeds) (delegatesClear : Bool)
    (delegatesAdded : List Pubkey) : Exec AuthorizerError Panic Authorizations := do
  let a ← m.authorization seeds
  Exec.require (a.grantee = grantee) .constraint
  let delegates := if delegatesClear then [] else a.delegates
  Exec.require (delegates.length + delegatesAdded.length ≤ maxDelegates) .tooManyDelegates
  .ok (m.insert seeds { a with delegates := delegates ++ delegatesAdded })

/-- Rust `authorization_close_processor`. The waiting time is added with `saturating_add`. -/
def authorizationClose (m : Authorizations) (now : Int) (grantor : Pubkey) (seeds : Seeds) :
    Exec AuthorizerError Panic Authorizations := do
  let a ← m.authorization seeds
  Exec.require (a.grantor = grantor) .constraint
  Exec.require (a.active = false) .authorizationActiveIsTrue
  Exec.require (a.delegates = [] ∨ min (a.grantorUpdateUnixTimestamp + closingDelaySeconds) (2 ^ 63 - 1) ≤ now)
    .authorizationClosingConditionsNotReachedYet
  .ok (m.erase seeds)

/-- Execute an instruction of the authorizer, signed by a key. -/
def process (m : Authorizations) (now : Int) (signer : Pubkey) :
    AuthorizerInstruction → Exec AuthorizerError Panic Authorizations
  | .create grantee scope => m.authorizationCreate signer grantee scope
  | .grantorUpdate seeds active => m.authorizationGrantorUpdate now signer seeds active
  | .granteeUpdate seeds clear added => m.authorizationGranteeUpdate signer seeds clear added
  | .close seeds => m.authorizationClose now signer seeds

/-- What an instruction does to the account at an address: before and after, none if there is none. -/
inductive AuthorizationStep (now : Int) (signer : Pubkey) (s : Seeds) :
    AuthorizerInstruction → Option Authorization → Option Authorization → Prop where
  | create {grantee scope} :
    s = ⟨signer, grantee, scope⟩ →
    AuthorizationStep now signer s (.create grantee scope) none (some ⟨signer, grantee, scope, false, [], 0⟩)
  | grantorUpdate {a active} :
    a.grantor = signer →
    AuthorizationStep now signer s (.grantorUpdate s active) (some a)
      (some { a with active, grantorUpdateUnixTimestamp := now })
  | granteeUpdate {a clear added delegates} :
    a.grantee = signer →
    delegates = (if clear then [] else a.delegates) ++ added →
    delegates.length ≤ maxDelegates →
    AuthorizationStep now signer s (.granteeUpdate s clear added) (some a) (some { a with delegates })
  | close {a} :
    a.grantor = signer →
    a.active = false →
    AuthorizationStep now signer s (.close s) (some a) none
  | other {ix o} :
    AuthorizationStep now signer s ix o o

section Inversion
variable {m m' : Authorizations} {now : Int} {signer : Pubkey} {ix : AuthorizerInstruction} {s : Seeds}
  {a : Authorization}

@[simp] lemma authorization_eq_ok : m.authorization s = .ok a ↔ m.lookup s = some a :=
  okOr_eq_ok

lemma authorizationStep_of_insert {t : Seeds} {o : Option Authorization} (ho : m.lookup t = o)
    (h : AuthorizationStep now signer t ix o (some a)) :
    AuthorizationStep now signer s ix (m.lookup s) ((m.insert t a).lookup s) := by
  by_cases he : s = t
  · subst he
    rw [AList.lookup_insert, ho]
    exact h
  · rw [AList.lookup_insert_ne he]
    exact .other

lemma process_authorization (h : m.process now signer ix = .ok m') (s : Seeds) :
    AuthorizationStep now signer s ix (m.lookup s) (m'.lookup s) := by
  cases ix with
  | create grantee scope =>
    simp only [process, authorizationCreate, bind_eq_ok, require_eq_ok, Except.ok.injEq] at h
    obtain ⟨_, hnew, rfl⟩ := h
    exact authorizationStep_of_insert hnew (.create rfl)
  | grantorUpdate t active =>
    simp only [process, authorizationGrantorUpdate, bind_eq_ok, require_eq_ok, authorization_eq_ok,
      Except.ok.injEq] at h
    obtain ⟨a, ha, _, hg, rfl⟩ := h
    exact authorizationStep_of_insert ha (.grantorUpdate hg)
  | granteeUpdate t clear added =>
    simp only [process, authorizationGranteeUpdate, bind_eq_ok, require_eq_ok, authorization_eq_ok,
      Except.ok.injEq] at h
    obtain ⟨a, ha, _, hg, _, hlen, rfl⟩ := h
    rw [← List.length_append] at hlen
    exact authorizationStep_of_insert ha (.granteeUpdate hg rfl hlen)
  | close t =>
    simp only [process, authorizationClose, bind_eq_ok, require_eq_ok, authorization_eq_ok, Except.ok.injEq] at h
    obtain ⟨a, ha, _, hg, _, hoff, _, _, rfl⟩ := h
    by_cases he : s = t
    · subst he
      rw [AList.lookup_erase, ha]
      exact .close hg hoff
    · rw [AList.lookup_erase_ne he]
      exact .other

end Inversion

/-- Every account is found under its own seeds and has no more delegates than allowed. -/
def Filed (m : Authorizations) : Prop :=
  ∀ s a, m.lookup s = some a → a.seeds = s ∧ a.delegates.length ≤ maxDelegates

/-- An instruction keeps each authorization filed under its own seeds. -/
lemma Filed.process {m m' : Authorizations} {now : Int} {signer : Pubkey} {ix : AuthorizerInstruction} (hm : m.Filed)
    (h : m.process now signer ix = .ok m') : m'.Filed := by
  intro s a ha
  have st := process_authorization h s
  rw [ha] at st
  have hold := hm s
  generalize m.lookup s = o at st hold
  cases st with
  | create hs => exact ⟨hs.symm, Nat.zero_le _⟩
  | @grantorUpdate b _ _ => exact hold b rfl
  | @granteeUpdate b _ _ _ _ _ hlen => exact ⟨(hold b rfl).1, hlen⟩
  | other => exact hold a rfl

end Authorizations
end Leviathan
