import KakeyaEngine.Lib.Fallible
import KakeyaEngine.Orchestration.Document
import Mathlib.Algebra.BigOperators.Group.List.Defs

/-!
# Tensors on the wire

A tensor travels as the name of its dtype, its shape and its bytes.  A `WireTensor` has as many bytes as its shape asks for,
and `fromProtoFields` builds one from three fields of unknown types or refuses them: what it accepts has the declared dtype
and shape and exactly the given bytes, and the fields of a tensor are accepted (`fromProtoFields_fields`).

Which shapes an array can have at all is numpy's business and a parameter.
-/

namespace KakeyaEngine

/-- What packing and unpacking tensors raise. -/
inductive SnapshotError
  | valueError (message : String)
  | structError (message : String)
  | jsonError (message : String)
  | typeError
  | keyError (key : String)
  | attributeError
deriving DecidableEq

/-- The exceptions of the conversions. -/
def SnapshotError.ofConversion : Orchestration.CheckpointError → SnapshotError
  | .valueError message => .valueError message
  | .typeError => .typeError
  | .keyError key => .keyError key
  | .attributeError => .attributeError

/-- `np.dtype(dtype).itemsize` of the dtypes that are allowed on the wire; `bfloat16` travels as `uint16`. -/
def itemSize : String → Option Nat
  | "float32" => some 4
  | "float16" => some 2
  | "bfloat16" => some 2
  | "int32" => some 4
  | "int64" => some 8
  | "uint32" => some 4
  | "bool" => some 1
  | _ => none

/-- A dtype that is allowed on the wire. -/
structure WireDtype where
  name : String
  size : Nat
  allowed : itemSize name = some size

/-- `WireTensor`, with its array as `tobytes` gives it. -/
structure WireTensor (reshapes : List Nat → Bool) where
  dtype : WireDtype
  shape : List Nat
  data : Bytes
  sized : data.length = shape.prod * dtype.size
  array : reshapes shape = true

namespace TensorCodec

section

variable (u : Auth.Unicode)

/-- `int(value)`. -/
def int (v : PyValue) : Except SnapshotError Int := (Orchestration.toInt u v).mapError .ofConversion

/-- What a `for` loop runs over. -/
def iterate (v : PyValue) : Except SnapshotError (List PyValue) := (Orchestration.iterate v).mapError .ofConversion

/-- `value < 0`. -/
def negative (v : PyValue) : Except SnapshotError Bool :=
  match v.number?, v with
  | some q, _ => .ok (q < 0)
  | none, .float text => .ok (text = "-inf")
  | none, _ => .error .typeError

end

section

variable (quote : String → String) (u : Auth.Unicode) (reshapes : List Nat → Bool)

/-- The text of `tuple(shape)`. -/
def tuple : List PyValue → String
  | [v] => "(" ++ v.repr quote ++ ",)"
  | vs => "(" ++ ", ".intercalate (PyValue.reprItems quote vs) ++ ")"

/-- One pass of the loop over the shape. -/
def dimension (shape : List PyValue) (d : PyValue) : Except SnapshotError Nat :=
  negative d >>= fun isNegative =>
    if isNegative then .error (.valueError ("negative dim in shape " ++ tuple quote shape))
    else (int u d).map Int.toNat

/-- `dtype not in _ALLOWED_DTYPES`, and the item size. -/
def lookupDtype : PyValue → Except SnapshotError WireDtype
  | .list _ => .error .typeError
  | .dict _ => .error .typeError
  | .str dtype =>
    match h : itemSize dtype with
    | some size => .ok ⟨dtype, size, h⟩
    | none => .error (.valueError ("unsupported wire dtype " ++ quote dtype))
  | v => .error (.valueError ("unsupported wire dtype " ++ v.repr quote))

/-- The value may stand in a shape; numpy does not take truth values for integers. -/
def isIndex : PyValue → Bool
  | .int _ => true
  | _ => false

/-- `from_proto_fields`. -/
def fromProtoFields (dtype shape : PyValue) (data : Bytes) : Except SnapshotError (WireTensor reshapes) := do
  let wireDtype ← lookupDtype quote dtype
  let sizes ← iterate shape
  let dims ← sizes.mapM (dimension quote u sizes)
  if hsized : data.length = dims.prod * wireDtype.size then
    if sizes.all isIndex then
      if harray : reshapes dims = true then .ok ⟨wireDtype, dims, data, hsized, harray⟩
      else .error (.valueError ("cannot reshape array of size " ++ toString dims.prod ++ " into shape " ++
        tuple quote sizes))
    else .error .typeError
  else .error (.valueError ("tensor byte count " ++ toString data.length ++ " != shape " ++ tuple quote sizes ++ " × " ++
    toString wireDtype.size ++ "B = " ++ toString (dims.prod * wireDtype.size) ++ " (dtype " ++ wireDtype.name ++ ")"))

end

/-! ### What is accepted -/

variable {quote : String → String} {u : Auth.Unicode} {reshapes : List Nat → Bool}

/-- The declared dtype and shape are those of the tensor, and its bytes are the given ones. -/
theorem fromProtoFields_eq_ok {dtype shape : PyValue} {data : Bytes} {wire : WireTensor reshapes}
    (h : fromProtoFields quote u reshapes dtype shape data = .ok wire) :
    lookupDtype quote dtype = .ok wire.dtype ∧
      (∃ sizes, iterate shape = .ok sizes ∧ sizes.mapM (dimension quote u sizes) = .ok wire.shape) ∧ wire.data = data := by
  unfold fromProtoFields at h
  obtain ⟨wireDtype, hdtype, h⟩ := Fallible.bind_eq_ok.mp h
  obtain ⟨sizes, hsizes, h⟩ := Fallible.bind_eq_ok.mp h
  obtain ⟨dims, hdims, h⟩ := Fallible.bind_eq_ok.mp h
  by_cases hsized : data.length = dims.prod * wireDtype.size
  · rw [dif_pos hsized] at h
    by_cases hindex : sizes.all isIndex = true
    · rw [if_pos hindex] at h
      by_cases harray : reshapes dims = true
      · rw [dif_pos harray] at h
        obtain rfl := Except.ok.inj h
        exact ⟨hdtype, ⟨sizes, hsizes, hdims⟩, rfl⟩
      · rw [dif_neg harray] at h
        cases h
    · rw [if_neg hindex] at h
      cases h
  · rw [dif_neg hsized] at h
    cases h

theorem lookupDtype_name (quote : String → String) (dtype : WireDtype) :
    lookupDtype quote (.str dtype.name) = .ok dtype := by
  obtain ⟨name, size, hsize⟩ := dtype
  unfold lookupDtype
  dsimp only
  split
  · rename_i size' hsize'
    obtain rfl : size = size' := Option.some.inj (hsize.symm.trans hsize')
    rfl
  · rename_i hnone
    rw [hsize] at hnone
    cases hnone

theorem mapM_dimension (quote : String → String) (u : Auth.Unicode) (shape : List PyValue) (dims : List Nat) :
    (dims.map fun d : Nat => PyValue.int d).mapM (dimension quote u shape) = .ok dims := by
  induction dims with
  | nil => rfl
  | cons d dims ih =>
    rw [List.map_cons, Fallible.mapM_cons_eq_ok]
    refine ⟨d, dims, ?_, ih, rfl⟩
    have hneg : negative (.int d) = .ok false := congrArg _ (decide_eq_false (by simp))
    unfold dimension
    rw [hneg]
    rfl

/-- The fields of a tensor give the tensor. -/
theorem fromProtoFields_fields (quote : String → String) (u : Auth.Unicode) (wire : WireTensor reshapes) :
    fromProtoFields quote u reshapes (.str wire.dtype.name) (.list (wire.shape.map fun d : Nat => .int d)) wire.data =
      .ok wire := by
  unfold fromProtoFields
  rw [lookupDtype_name]
  have hiterate : iterate (.list (wire.shape.map fun d : Nat => .int d)) = .ok (wire.shape.map fun d : Nat => .int d) := rfl
  have hindex : (wire.shape.map fun d : Nat => PyValue.int d).all isIndex = true := by simp [isIndex]
  simp only [bind, Except.bind, hiterate, mapM_dimension, dif_pos wire.sized, if_pos hindex, dif_pos wire.array]

end TensorCodec

end KakeyaEngine
