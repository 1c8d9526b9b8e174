import Leviathan.Network.Payload

/-!
# From the wire to a tensor

Model of the conversions of `shared/network/src/serializable_tensor.rs` and `serialized_distro.rs` that every payload of a
peer goes through before it is used: `elementCount`, `Tensor.tryFrom`, `validateXshape`, `DistroResult.tryFrom`. What they
guarantee of a contribution that passes is `DistroResult.WellFormed`. `handed` is the part of `Tensor.tryFrom` up to the
call of libtorch, which takes the size of the buffer on trust. libtorch is not part of the repository, and what depends
on the kinds of elements alone is a parameter (`Torch`).
-/

namespace Leviathan
open Exec List

/-- A tensor with its elements as bytes, in row-major order. -/
structure Tensor where
  kind : Kind
  dims : List Nat
  bytes : Bytes
deriving DecidableEq

/-- What libtorch knows about the kinds of elements: their size in bytes, and the tensors that can be made of bytes or
have a gradient. -/
structure Torch where
  eltSizeInBytes : Kind → Nat
  fromData : Kind → Bool
  differentiable : Kind → Bool

/-- Why a payload is refused, one constructor for each message. -/
inductive TchError where
  | negativeDimension (dim : Int) (dims : List Int)
  | overflowsElementCount (dims : List Int)
  | overflowsByteCount (dims : List Int) (kind : Kind)
  | needsBytes (dims : List Int) (kind : Kind) (needed got : Nat)
  | bitCountOverflows
  | needsPackedBytes (dims : List Int) (needed got : Nat)
  | emptyParameterShape
  | parameterShapeRank (rank : Nat)
  | zeroDimension (xshape : List Nat)
  | tooManyElements (xshape : List Nat)
  | torch
deriving DecidableEq, Repr

/-- A length as a signed number (Rust `as i64`). -/
def asI64 (n : Nat) : Int := (BitVec.ofNat 64 n).toInt

def elementCount {π : Type} (dims : List (BitVec 64)) : Exec TchError π Nat :=
  dims.foldlM (fun count dim => do
    Exec.require (0 ≤ dim.toInt) (.negativeDimension dim.toInt (dims.map BitVec.toInt))
    Exec.require (count * dim.toNat < 2 ^ 63) (.overflowsElementCount (dims.map BitVec.toInt))
    .ok (count * dim.toNat)) 1

/-- The bits of some bytes, each in a byte of its own, lowest bit first. -/
def unpackBits (bytes : Bytes) : Bytes :=
  bytes.flatMap fun b => (List.range 8).map fun i => if b.getLsbD i then 1 else 0

/-- What libtorch is called with: the bytes of all elements, or bytes to be unpacked into so many elements. -/
inductive Handed where
  | fromDataSize (data : Bytes) (dims : List (BitVec 64)) (kind : Kind)
  | fromSlice (bytes : Bytes) (elements : Nat) (dims : List (BitVec 64))
deriving DecidableEq

/-- The conversion up to its first call of libtorch (in Rust `TryFrom<&SerializableTensor> for Tensor`). -/
def handed {π : Type} (T : Torch) (value : SerializableTensor) : Exec TchError π Handed := do
  let shape := value.dims.toList.map BitVec.toInt
  let elements ← elementCount value.dims.toList
  match value.data with
  | .full data => do
    let needed := elements * T.eltSizeInBytes value.kind
    Exec.require (needed < 2 ^ 63) (.overflowsByteCount shape value.kind)
    Exec.require (asI64 data.toList.length = needed) (.needsBytes shape value.kind needed data.toList.length)
    .ok (.fromDataSize data.toList value.dims.toList value.kind)
  | .oneBit bytes => do
    Exec.require (elements + 7 < 2 ^ 63) .bitCountOverflows
    let neededBytes := (elements + 7) / 8
    Exec.require (neededBytes ≤ asI64 bytes.toList.length) (.needsPackedBytes shape neededBytes bytes.toList.length)
    .ok (.fromSlice bytes.toList elements value.dims.toList)

/-- What libtorch makes of it. -/
def Handed.build {π : Type} (T : Torch) : Handed → Exec TchError π Tensor
  | fromDataSize data dims kind => do
    Exec.require (T.fromData kind) .torch
    .ok ⟨kind, dims.map BitVec.toNat, data⟩
  | fromSlice bytes elements dims => .ok ⟨.bool, dims.map BitVec.toNat, (unpackBits bytes).take elements⟩

/-- A tensor that has arrived (Rust `TryFrom<&SerializableTensor> for Tensor`). -/
def Tensor.tryFrom {π : Type} (T : Torch) (value : SerializableTensor) : Exec TchError π Tensor := do
  let h ← handed T value
  let tensor ← h.build T
  Exec.require (value.requiresGrad → T.differentiable tensor.kind) .torch
  .ok tensor

def maxXshapeRank : Nat := 8

def maxXshapeElements : Nat := 2 ^ 32

/-- The shape of a parameter, if it may be allocated. -/
def validateXshape {π : Type} (xshape : List (BitVec 16)) : Exec TchError π (List Nat) := do
  Exec.require (xshape ≠ []) .emptyParameterShape
  Exec.require (xshape.length ≤ maxXshapeRank) (.parameterShapeRank xshape.length)
  let _ ← xshape.foldlM (fun elements dim => do
    Exec.require (dim ≠ 0) (.zeroDimension (xshape.map BitVec.toNat))
    Exec.require (elements * dim.toNat ≤ maxXshapeElements) (.tooManyElements (xshape.map BitVec.toNat))
    .ok (elements * dim.toNat)) 1
  .ok (xshape.map BitVec.toNat)

section Shapes
variable {π : Type} {dims : List (BitVec 64)}

/-- A shape whose dimensions are not negative and can be multiplied one after the other. -/
structure Countable (dims : List (BitVec 64)) : Prop where
  nonneg : ∀ dim ∈ dims, 0 ≤ dim.toInt
  fits : ∀ k, ((dims.take k).map BitVec.toNat).prod < 2 ^ 63

lemma foldlM_count (whole : List Int) (dims : List (BitVec 64)) {count n : Nat} (hcount : count < 2 ^ 63) :
    (dims.foldlM (fun count dim => do
      Exec.require (0 ≤ dim.toInt) (.negativeDimension dim.toInt whole)
      Exec.require (count * dim.toNat < 2 ^ 63) (.overflowsElementCount whole)
      .ok (count * dim.toNat)) count : Exec TchError π Nat) = .ok n
    ↔ (∀ dim ∈ dims, 0 ≤ dim.toInt) ∧ (∀ k, count * ((dims.take k).map BitVec.toNat).prod < 2 ^ 63)
      ∧ count * (dims.map BitVec.toNat).prod = n := by
  induction dims generalizing count with
  | nil =>
    simp only [foldlM_nil, take_nil, map_nil, prod_nil, Nat.mul_one, hcount, not_mem_nil,
      false_imp_iff, implies_true, true_and, pure_eq, Except.ok.injEq]
  | cons dim dims ih =>
    simp only [foldlM_cons, bind_eq_ok, require_eq_ok, exists_const, Except.ok.injEq]
    constructor
    · rintro ⟨_, ⟨hdim, hfits, rfl⟩, hrest⟩
      obtain ⟨hdims, hprods, hn⟩ := (ih hfits).mp hrest
      refine ⟨forall_mem_cons.mpr ⟨hdim, hdims⟩, fun k => ?_, ?_⟩
      · cases k with
        | zero => simpa using hcount
        | succ k =>
          rw [take_succ_cons, map_cons, prod_cons, ← Nat.mul_assoc]
          exact hprods k
      · rw [map_cons, prod_cons, ← Nat.mul_assoc]
        exact hn
    · rintro ⟨hdims, hprods, hn⟩
      obtain ⟨hdim, hdims⟩ := forall_mem_cons.mp hdims
      have hfits : count * dim.toNat < 2 ^ 63 := by simpa using hprods 1
      refine ⟨_, ⟨hdim, hfits, rfl⟩, (ih hfits).mpr ⟨hdims, fun k => ?_, ?_⟩⟩
      · have := hprods (k + 1)
        rwa [take_succ_cons, map_cons, prod_cons, ← Nat.mul_assoc] at this
      · rwa [map_cons, prod_cons, ← Nat.mul_assoc] at hn

lemma elementCount_eq_ok {n : Nat} :
    (elementCount dims : Exec TchError π Nat) = .ok n ↔ Countable dims ∧ (dims.map BitVec.toNat).prod = n := by
  rw [elementCount, foldlM_count _ _ (by decide), ← and_assoc]
  simp only [Nat.one_mul]
  exact and_congr_left fun _ => ⟨fun h => ⟨h.1, h.2⟩, fun h => ⟨h.nonneg, h.fits⟩⟩

end Shapes

section Handed
variable {π : Type} {T : Torch} {value : SerializableTensor}

/-- What libtorch may be called with: a shape that can be multiplied out, with the bytes its elements need or a bit for
each. -/
def Handed.Sound (T : Torch) : Handed → Prop
  | fromDataSize data dims kind => Countable dims
    ∧ (dims.map BitVec.toNat).prod * T.eltSizeInBytes kind < 2 ^ 63
    ∧ data.length = (dims.map BitVec.toNat).prod * T.eltSizeInBytes kind
  | fromSlice bytes elements dims => Countable dims ∧ elements = (dims.map BitVec.toNat).prod
    ∧ elements + 7 < 2 ^ 63 ∧ elements ≤ 8 * bytes.length

lemma asI64_eq {n : Nat} (hn : n < 2 ^ 64) : asI64 n = if 2 * n < 2 ^ 64 then (n : Int) else n - (2 ^ 64 : Nat) := by
  rw [asI64, BitVec.toInt_eq_toNat_cond, BitVec.toNat_ofNat, Nat.mod_eq_of_lt hn]

lemma eq_of_asI64_eq {n m : Nat} (hn : n < 2 ^ 64) (h : asI64 n = m) : n = m := by
  rw [asI64_eq hn] at h
  split at h <;> omega

lemma le_of_le_asI64 {n m : Nat} (hn : n < 2 ^ 64) (h : (m : Int) ≤ asI64 n) : m ≤ n := by
  rw [asI64_eq hn] at h
  split at h <;> omega

lemma asI64_of_lt {n : Nat} (h : n < 2 ^ 63) : asI64 n = n := by
  rw [asI64_eq (by omega), if_pos (by omega)]

lemma sound_of_handed {h : Handed} (hh : (handed T value : Exec TchError π Handed) = .ok h) : h.Sound T := by
  unfold handed at hh
  simp only [bind_eq_ok, elementCount_eq_ok] at hh
  obtain ⟨_, ⟨hdims, rfl⟩, hh⟩ := hh
  cases hdata : value.data with
  | full data =>
    simp only [hdata, bind_eq_ok, require_eq_ok, exists_const, Except.ok.injEq] at hh
    obtain ⟨hfits, hlen, rfl⟩ := hh
    exact ⟨hdims, hfits, eq_of_asI64_eq data.bound hlen⟩
  | oneBit bytes =>
    simp only [hdata, bind_eq_ok, require_eq_ok, exists_const, Except.ok.injEq] at hh
    obtain ⟨hfits, hlen, rfl⟩ := hh
    have := le_of_le_asI64 bytes.bound hlen
    exact ⟨hdims, rfl, hfits, by omega⟩

end Handed

section Xshape
variable {π : Type} {xshape : List (BitVec 16)} {dims : List Nat}

lemma foldlM_elements (whole : List Nat) {elements n : Nat} (helements : elements ≤ maxXshapeElements)
    (h : (xshape.foldlM (fun elements dim => do
      Exec.require (dim ≠ 0) (.zeroDimension whole)
      Exec.require (elements * dim.toNat ≤ maxXshapeElements) (.tooManyElements whole)
      .ok (elements * dim.toNat)) elements : Exec TchError π Nat) = .ok n) :
    0 ∉ xshape ∧ elements * (xshape.map BitVec.toNat).prod = n ∧ n ≤ maxXshapeElements := by
  induction xshape generalizing elements with
  | nil =>
    cases h
    simpa using helements
  | cons dim xshape ih =>
    simp only [foldlM_cons, bind_eq_ok, require_eq_ok, exists_const, Except.ok.injEq] at h
    obtain ⟨_, ⟨hdim, hle, rfl⟩, hrest⟩ := h
    obtain ⟨hzero, hn, hn'⟩ := ih hle hrest
    refine ⟨?_, ?_, hn'⟩
    · rw [mem_cons, not_or]
      exact ⟨hdim.symm, hzero⟩
    · rw [map_cons, prod_cons, ← Nat.mul_assoc]
      exact hn

/-- A shape that may be allocated is the one of the payload, with at most eight dimensions, none of them zero, and so
many elements. -/
lemma xshape_of_validate (h : (validateXshape xshape : Exec TchError π (List Nat)) = .ok dims) :
    dims = xshape.map BitVec.toNat ∧ 1 ≤ dims.length ∧ dims.length ≤ maxXshapeRank ∧ (∀ dim ∈ dims, 0 < dim)
      ∧ dims.prod ≤ maxXshapeElements := by
  simp only [validateXshape, bind_eq_ok, require_eq_ok, Except.ok.injEq, exists_const] at h
  obtain ⟨hne, hrank, _, hfold, rfl⟩ := h
  obtain ⟨hzero, hprod, hle⟩ := foldlM_elements _ (by decide) hfold
  rw [Nat.one_mul] at hprod
  refine ⟨rfl, ?_, ?_, fun dim hdim => ?_, ?_⟩
  · rw [length_map]
    exact length_pos_iff.mpr hne
  · rwa [length_map]
  · obtain ⟨d, hd, rfl⟩ := mem_map.mp hdim
    refine Nat.pos_of_ne_zero fun h0 => hzero ?_
    rwa [← BitVec.eq_of_toNat_eq (x := d) (y := 0) h0]
  · rwa [hprod]

lemma validateXshape_eq_ok (h : (validateXshape xshape : Exec TchError π (List Nat)) = .ok dims) :
    dims ≠ [] ∧ 0 ∉ dims := by
  obtain ⟨_, hrank, _, hpos, _⟩ := xshape_of_validate h
  exact ⟨length_pos_iff.mp hrank, fun h0 => absurd (hpos 0 h0) (Nat.lt_irrefl 0)⟩

end Xshape

/-- Of every tensor that a peer can send, either the conversion fails before libtorch is called, or libtorch is called with
a shape that can be multiplied out and with exactly the bytes or at least the bits that its elements need. A shape of a
parameter that is accepted has one to eight positive dimensions and at most `2 ^ 32` elements. -/
theorem hostile_tensor_rejected (T : Torch) (value : SerializableTensor) (xshape : List (BitVec 16)) :
    ((∃ e, (handed T value : Exec TchError Empty Handed) = .error (.error e)
        ∧ (Tensor.tryFrom T value : Exec TchError Empty Tensor) = .error (.error e))
      ∨ ∃ h, (handed T value : Exec TchError Empty Handed) = .ok h ∧ h.Sound T
        ∧ (Tensor.tryFrom T value : Exec TchError Empty Tensor) = (do
            let tensor ← h.build T
            Exec.require (value.requiresGrad → T.differentiable tensor.kind) .torch
            .ok tensor))
    ∧ ∀ dims, (validateXshape xshape : Exec TchError Empty (List Nat)) = .ok dims →
        dims = xshape.map BitVec.toNat ∧ 1 ≤ dims.length ∧ dims.length ≤ 8 ∧ (∀ dim ∈ dims, 0 < dim)
          ∧ dims.prod ≤ 2 ^ 32 := by
  refine ⟨?_, fun dims hdims => xshape_of_validate hdims⟩
  have heq : (Tensor.tryFrom T value : Exec TchError Empty Tensor) = _ := Tensor.tryFrom.eq_def ..
  cases hh : (handed T value : Exec TchError Empty Handed) with
  | ok h =>
    rw [hh, ok_bind] at heq
    exact .inr ⟨h, rfl, sound_of_handed hh, heq⟩
  | error e =>
    cases e with
    | error e =>
      rw [hh, error_bind] at heq
      exact .inl ⟨e, rfl, heq⟩
    | panic p => exact p.elim

/-- The contribution to a variable as the optimizer sees it, without statistics. -/
structure DistroResult where
  sparseIdx : Tensor
  sparseVal : Tensor
  xshape : List Nat
  totalk : Nat
deriving DecidableEq

namespace DistroResult

/-- A contribution that has arrived (Rust `TryFrom<&SerializedDistroResult> for DistroResult`). -/
def tryFrom {π : Type} (T : Torch) (value : SerializedDistroResult) : Exec TchError π DistroResult := do
  let sparseIdx ← Tensor.tryFrom T value.sparseIdx
  let sparseVal ← Tensor.tryFrom T value.sparseVal
  let xshape ← validateXshape value.xshape.toList
  .ok { sparseIdx, sparseVal, xshape, totalk := value.totalk.toNat }

/-- What the conversion guarantees. -/
structure WellFormed (r : DistroResult) : Prop where
  totalk : r.totalk < 2 ^ 32
  rank : r.xshape ≠ []
  positive : 0 ∉ r.xshape

lemma wellFormed_of_tryFrom {π : Type} {T : Torch} {value : SerializedDistroResult} {r : DistroResult}
    (h : (tryFrom T value : Exec TchError π DistroResult) = .ok r) : r.WellFormed := by
  simp only [tryFrom, bind_eq_ok, Except.ok.injEq] at h
  obtain ⟨_, _, _, _, xshape, hx, rfl⟩ := h
  obtain ⟨hne, hpos⟩ := validateXshape_eq_ok hx
  exact ⟨value.totalk.isLt, hne, hpos⟩

end DistroResult
end Leviathan
