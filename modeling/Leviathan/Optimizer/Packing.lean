import Leviathan.Lib.Chunks
import Leviathan.Optimizer.Conversion

/-!
# From a tensor to the wire

Model of `TryFrom<&Tensor> for SerializableTensor` of `shared/network/src/serializable_tensor.rs`. A tensor is transmitted
as its bytes, and a boolean one as its bits: padded to a multiple of eight, reshaped to rows of eight, and summed with the
weights of the bits, lowest first.

A tensor of the model is the logical one: its elements in row-major order, on whatever device and with whatever strides
they are stored.
-/

namespace Leviathan
open Exec List

/-- The aborts of the conversion. -/
inductive PackPanic where
  | overflow
  | reshape
  | capacity        -- a `Vec` that does not fit into memory
deriving DecidableEq, Repr

section Packing
variable {ε : Type}

/-- A list as a Rust `Vec`. -/
def Vec.ofList {α : Type} (l : List α) : Exec ε PackPanic (Vec α) :=
  if h : l.length < 2 ^ 64 then .ok ⟨l, h⟩ else Exec.abort .capacity

/-- The weights of the bits of a byte, lowest first (in Rust `try_from`). -/
def bitWeights : List (BitVec 8) := [1, 2, 4, 8, 16, 32, 64, 128]

/-- The elements of a row, multiplied by the weights and summed. -/
def packRow (row : Bytes) : BitVec 8 := (List.zipWith (· * ·) row bitWeights).foldr (· + ·) 0#8

/-- The elements of a boolean tensor, eight to a byte (in Rust `try_from`). -/
def packBits (elements : Bytes) : Exec ε PackPanic Bytes := do
  let nBits := elements.length
  Exec.ensure (nBits + 7 < 2 ^ 63) .overflow
  let nBytes := (nBits + 7) / 8
  let padSize := (8 - nBits % 8) % 8
  let padded := elements ++ List.replicate padSize 0
  Exec.ensure (padded.length = nBytes * 8) .reshape
  .ok ((pieces 8 nBytes padded).map packRow)

/-- A tensor to be transmitted (Rust `TryFrom<&Tensor> for SerializableTensor`). -/
def SerializableTensor.tryFrom (tensor : Tensor) (requiresGrad : Bool) : Exec ε PackPanic SerializableTensor := do
  let dims ← Vec.ofList (tensor.dims.map (BitVec.ofNat 64))
  let data ←
    if tensor.kind = .bool then do
      let packed ← packBits tensor.bytes
      let bytes ← Vec.ofList packed
      .ok (.oneBit bytes)
    else do
      let bytes ← Vec.ofList tensor.bytes
      .ok (.full bytes)
  .ok { dims, kind := tensor.kind, requiresGrad, data }

end Packing

/-- A boolean tensor: its dimensions and its bits in row-major order. -/
structure BoolTensor where
  dims : List Nat
  bits : List Bool
  dims_lt : ∀ dim ∈ dims, dim < 2 ^ 63
  rank : dims.length < 2 ^ 64
  count : bits.length = dims.prod

def bit (b : Bool) : BitVec 8 := if b then 1 else 0

def BoolTensor.toTensor (t : BoolTensor) : Tensor := ⟨.bool, t.dims, t.bits.map bit⟩

/-- Bits, padded to whole bytes. -/
def padded (bits : List Bool) : List Bool := bits ++ List.replicate ((8 - bits.length % 8) % 8) false

section Bits
variable {ε : Type} {bits : List Bool}

lemma length_padded (bits : List Bool) : (padded bits).length = (bits.length + 7) / 8 * 8 := by
  rw [padded, length_append, length_replicate]
  omega

lemma unpackBits_packRow {row : List Bool} (h : row.length = 8) : unpackBits [packRow (row.map bit)] = row.map bit := by
  have hall : ∀ a b c d e f g i : Bool,
      unpackBits [packRow ([a, b, c, d, e, f, g, i].map bit)] = [a, b, c, d, e, f, g, i].map bit := by
    decide
  rcases row with _ | ⟨a, _ | ⟨b, _ | ⟨c, _ | ⟨d, _ | ⟨e, _ | ⟨f, _ | ⟨g, _ | ⟨i, _ | ⟨j, row⟩⟩⟩⟩⟩⟩⟩⟩⟩
  case cons.cons.cons.cons.cons.cons.cons.cons.nil => exact hall a b c d e f g i
  all_goals simp at h

lemma unpackBits_packRows {rows : List (List Bool)} (h : ∀ row ∈ rows, row.length = 8) :
    unpackBits (rows.map fun row => packRow (row.map bit)) = rows.flatten.map bit := by
  induction rows with
  | nil => rfl
  | cons row rows ih =>
    obtain ⟨hrow, hrows⟩ := forall_mem_cons.mp h
    have hcons : unpackBits (packRow (row.map bit) :: rows.map fun row => packRow (row.map bit))
        = unpackBits [packRow (row.map bit)] ++ unpackBits (rows.map fun row => packRow (row.map bit)) := by
      simp only [unpackBits, flatMap_cons, flatMap_nil, append_nil]
    rw [map_cons, hcons, unpackBits_packRow hrow, ih hrows, flatten_cons, map_append]

lemma packBits_eq (h : bits.length + 7 < 2 ^ 63) :
    (packBits (bits.map bit) : Exec ε PackPanic Bytes)
      = .ok ((pieces 8 ((bits.length + 7) / 8) (padded bits)).map fun row => packRow (row.map bit)) := by
  have hpad : bits.map bit ++ List.replicate ((8 - bits.length % 8) % 8) 0 = (padded bits).map bit := by
    rw [padded, map_append, map_replicate]
    rfl
  simp only [packBits, length_map, ensure_of h, ensure_of (length_padded bits), ok_bind, hpad, ← map_pieces, map_map]
  rfl

lemma unpackBits_packBits (h : bits.length + 7 < 2 ^ 63) :
    ∃ bytes, (packBits (bits.map bit) : Exec ε PackPanic Bytes) = .ok bytes
      ∧ bytes.length = (bits.length + 7) / 8 ∧ unpackBits bytes = (padded bits).map bit := by
  refine ⟨_, packBits_eq h, ?_, ?_⟩
  · rw [length_map, length_pieces]
  · have hwhole := length_padded bits
    rw [unpackBits_packRows, flatten_pieces, ← hwhole, take_length]
    intro row hrow
    rw [← chunks_of_eq_mul (by decide) hwhole] at hrow
    exact length_of_mem_chunks (by decide) hwhole hrow

end Bits

section RoundTrip
variable {ε π : Type} {T : Torch} (t : BoolTensor)

lemma Vec.ofList_of {α : Type} {l : List α} (h : l.length < 2 ^ 64) :
    (Vec.ofList l : Exec ε PackPanic (Vec α)) = .ok ⟨l, h⟩ := dif_pos h

lemma tryFrom_oneBit {dims : Vec (BitVec 64)} {kind : Kind} {bytes : Vec (BitVec 8)} {tensor : Tensor} :
    (Tensor.tryFrom T ⟨dims, kind, false, .oneBit bytes⟩ : Exec TchError π Tensor) = .ok tensor
    ↔ Countable dims.toList ∧ (dims.toList.map BitVec.toNat).prod + 7 < 2 ^ 63
      ∧ (((dims.toList.map BitVec.toNat).prod + 7) / 8 : Nat) ≤ asI64 bytes.toList.length
      ∧ tensor = ⟨.bool, dims.toList.map BitVec.toNat,
          (unpackBits bytes.toList).take (dims.toList.map BitVec.toNat).prod⟩ := by
  simp only [Tensor.tryFrom, handed, bind_eq_ok, elementCount_eq_ok, require_eq_ok, exists_const, Except.ok.injEq,
    Bool.false_eq_true, false_imp_iff, true_and]
  constructor
  · rintro ⟨_, ⟨_, ⟨hdims, rfl⟩, hcount, hlen, rfl⟩, _, hbuild, rfl⟩
    cases hbuild
    exact ⟨hdims, hcount, hlen, rfl⟩
  · rintro ⟨hdims, hcount, hlen, rfl⟩
    exact ⟨_, ⟨_, ⟨hdims, rfl⟩, hcount, hlen, rfl⟩, _, rfl, rfl⟩

namespace BoolTensor

lemma toNat_ofNat {dim : Nat} (h : dim ∈ t.dims) : (BitVec.ofNat 64 dim).toNat = dim := by
  have := t.dims_lt dim h
  rw [BitVec.toNat_ofNat, Nat.mod_eq_of_lt (by omega)]

lemma map_toNat (k : Nat) : (((t.dims.map (BitVec.ofNat 64)).take k).map BitVec.toNat) = t.dims.take k := by
  rw [← map_take, map_map]
  exact (map_congr_left fun dim h => t.toNat_ofNat (mem_of_mem_take h)).trans (map_id _)

lemma countable_iff : Countable (t.dims.map (BitVec.ofNat 64)) ↔ ∀ k, (t.dims.take k).prod < 2 ^ 63 := by
  refine ⟨fun h k => ?_, fun h => ⟨fun dim hdim => ?_, fun k => ?_⟩⟩
  · have := h.fits k
    rwa [t.map_toNat] at this
  · obtain ⟨d, hd, rfl⟩ := mem_map.mp hdim
    have hlt := t.dims_lt d hd
    rw [BitVec.toInt_eq_toNat_of_lt (by rw [t.toNat_ofNat hd]; omega)]
    omega
  · rw [t.map_toNat]
    exact h k

lemma length_dims : (t.dims.map (BitVec.ofNat 64)).length < 2 ^ 64 := by
  rw [length_map]
  exact t.rank

lemma map_dims : (t.dims.map (BitVec.ofNat 64)).map BitVec.toNat = t.dims := by
  have := t.map_toNat t.dims.length
  rwa [take_of_length_le (length_map _).le, take_length] at this

/-- What has been packed can be unpacked only if its dimensions can be multiplied. -/
lemma fits_of_roundTrip {w : SerializableTensor} {tensor : Tensor}
    (hw : (SerializableTensor.tryFrom t.toTensor false : Exec TchError PackPanic SerializableTensor) = .ok w)
    (hback : (Tensor.tryFrom T w : Exec TchError PackPanic Tensor) = .ok tensor) :
    (∀ k, (t.dims.take k).prod < 2 ^ 63) ∧ t.bits.length + 7 < 2 ^ 63 := by
  simp only [SerializableTensor.tryFrom, toTensor, Vec.ofList_of t.length_dims, ok_bind, if_true, bind_eq_ok,
    Except.ok.injEq] at hw
  obtain ⟨_, _, _, _, _, rfl, rfl⟩ := hw
  obtain ⟨hcountable, hcount, _⟩ := tryFrom_oneBit.mp hback
  rw [t.map_dims, ← t.count] at hcount
  exact ⟨t.countable_iff.mp hcountable, hcount⟩

end BoolTensor

/-- A boolean tensor that is packed is unpacked into the same tensor, and the bits behind its elements are zero, if and only
if its dimensions can be multiplied one after the other without leaving `i64`, and neither does the number of its elements
rounded up to whole bytes. Of any other one the packing or the unpacking fails. -/
theorem one_bit_round_trip_iff :
    ((∃ w bytes, (SerializableTensor.tryFrom t.toTensor false : Exec TchError PackPanic SerializableTensor) = .ok w
      ∧ w.dims.toList.map BitVec.toNat = t.dims ∧ w.kind = .bool ∧ w.data = .oneBit bytes
      ∧ bytes.toList.length = (t.bits.length + 7) / 8 ∧ unpackBits bytes.toList = (padded t.bits).map bit
      ∧ (Tensor.tryFrom T w : Exec TchError PackPanic Tensor) = .ok t.toTensor)
    ↔ (∀ k, (t.dims.take k).prod < 2 ^ 63) ∧ t.bits.length + 7 < 2 ^ 63)
    ∧ (¬ ((∀ k, (t.dims.take k).prod < 2 ^ 63) ∧ t.bits.length + 7 < 2 ^ 63) →
      ∃ fault, (SerializableTensor.tryFrom t.toTensor false >>= fun w => Tensor.tryFrom T w
        : Exec TchError PackPanic Tensor) = .error fault) := by
  refine ⟨⟨?_, ?_⟩, fun hnot => ?_⟩
  · rintro ⟨w, bytes, hw, _, _, _, _, _, hback⟩
    exact t.fits_of_roundTrip hw hback
  · rintro ⟨hfits, hcount⟩
    simp only [SerializableTensor.tryFrom, BoolTensor.toTensor, Vec.ofList_of t.length_dims, ok_bind, if_true]
    obtain ⟨packed, hpacked, hlen, hunpack⟩ := unpackBits_packBits (ε := TchError) hcount
    have hbytes : packed.length < 2 ^ 64 := by omega
    have hlen' : asI64 packed.length = ((t.bits.length + 7) / 8 : Nat) := by rw [asI64_of_lt (by omega), hlen]
    have htake : (unpackBits packed).take t.bits.length = t.bits.map bit := by
      rw [hunpack, padded, map_append, take_append_of_le_length (length_map _).ge,
        take_of_length_le (length_map _).le]
    rw [hpacked, ok_bind, Vec.ofList_of hbytes]
    refine ⟨_, ⟨packed, hbytes⟩, rfl, t.map_dims, rfl, rfl, hlen, hunpack, tryFrom_oneBit.mpr ?_⟩
    rw [t.map_dims, ← t.count, htake]
    exact ⟨t.countable_iff.mpr hfits, hcount, hlen'.ge, rfl⟩
  · cases hboth : (_ >>= fun w => Tensor.tryFrom T w : Exec TchError PackPanic Tensor) with
    | error fault => exact ⟨fault, rfl⟩
    | ok tensor =>
      obtain ⟨w, hw, hback⟩ := bind_eq_ok.mp hboth
      exact absurd (t.fits_of_roundTrip hw hback) hnot

def emptyTensor : BoolTensor where
  dims := [2 ^ 62, 2, 0]
  bits := []
  dims_lt := by decide
  rank := by decide
  count := by decide

/-- Its first dimensions are too large to be multiplied. -/
theorem one_bit_refused :
    ∃ w, (SerializableTensor.tryFrom emptyTensor.toTensor false : Exec TchError PackPanic SerializableTensor) = .ok w
      ∧ ∀ T, (Tensor.tryFrom T w : Exec TchError PackPanic Tensor)
        = .error (.error (.overflowsElementCount [2 ^ 62, 2, 0])) :=
  ⟨_, rfl, fun _ => rfl⟩

end RoundTrip
end Leviathan
