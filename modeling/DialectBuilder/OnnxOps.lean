import DialectBuilder.Vector

namespace DialectBuilder.OnnxOps

open DialectBuilder.Types DialectBuilder.Vector

inductive TensorType
  | unranked (elementType : ElemType)
  | ranked (shape : List Int) (elementType : ElemType)
  deriving DecidableEq, Repr

namespace TensorType

def isRanked : TensorType → Bool
  | unranked _ => false
  | ranked _ _ => true

def castRanked : TensorType → Except String (List Int × ElemType)
  | unranked _ => throw "cast<Ty>() argument of incompatible type!"
  | ranked shape e => pure (shape, e)

@[simp] theorem castRanked_ranked (shape : List Int) (e : ElemType) :
    (ranked shape e).castRanked = .ok (shape, e) := rfl

@[simp] theorem castRanked_unranked (e : ElemType) :
    (unranked e).castRanked = .error "cast<Ty>() argument of incompatible type!" := rfl

end TensorType

def shapeAt (shape : List Int) (i : Nat) : Except String Int :=
  match shape[i]? with
  | some d => pure d
  | none => throw "Invalid index!"

theorem shapeAt_of_lt {shape : List Int} {i : Nat} (h : i < shape.length) :
    shapeAt shape i = .ok shape[i] := by
  simp [shapeAt, List.getElem?_eq_getElem h]

theorem shapeAt_of_le {shape : List Int} {i : Nat} (h : shape.length ≤ i) :
    shapeAt shape i = .error "Invalid index!" := by
  simp [shapeAt, List.getElem?_eq_none h]; rfl

/-- What shape inference reads and writes on an op: the types of its first two operands, its
result type, and the diagnostics emitted on it. -/
structure InferState where
  operand0 : TensorType
  operand1 : TensorType
  result : TensorType
  diagnostics : List String
  deriving DecidableEq, Repr

def InferState.emitError (op : InferState) (msg : String) : InferState :=
  { op with diagnostics := op.diagnostics ++ [msg] }

/-- The body the elementwise ops' `inferShapes` share: the result takes the type of the
operand, or of the first operand. -/
def inferElementwiseShape (op : InferState) : Except String InferState :=
  pure { op with result := op.operand0 }

def ONNXExpOp.inferShapes := inferElementwiseShape
def ONNXTanhOp.inferShapes := inferElementwiseShape
def ONNXSinhOp.inferShapes := inferElementwiseShape
def ONNXCoshOp.inferShapes := inferElementwiseShape
def ONNXHardSigmoidOp.inferShapes := inferElementwiseShape
def ONNXSigmoidOp.inferShapes := inferElementwiseShape
def ONNXEluOp.inferShapes := inferElementwiseShape
def ONNXReluOp.inferShapes := inferElementwiseShape
def ONNXLeakyReluOp.inferShapes := inferElementwiseShape
def ONNXSeluOp.inferShapes := inferElementwiseShape
def ONNXReciprocalOp.inferShapes := inferElementwiseShape

def ONNXAddOp.inferShapes := inferElementwiseShape
def ONNXMulOp.inferShapes := inferElementwiseShape
def ONNXDivOp.inferShapes := inferElementwiseShape
def ONNXSubOp.inferShapes := inferElementwiseShape
def ONNXAndOp.inferShapes := inferElementwiseShape
def ONNXOrOp.inferShapes := inferElementwiseShape
def ONNXXorOp.inferShapes := inferElementwiseShape
def ONNXSumOp.inferShapes := inferElementwiseShape
def ONNXMaxOp.inferShapes := inferElementwiseShape
def ONNXMinOp.inferShapes := inferElementwiseShape

/-- The body the three `inferShapes` share: the first operand's extent `0` and the second's
extent `1`, with the first operand's element type. -/
def inferMatrixProductShape (op : InferState) : Except String InferState :=
  if op.operand0.isRanked && op.operand1.isRanked then do
    let (lhsShape, lhsElementType) ← op.operand0.castRanked
    let (rhsShape, _) ← op.operand1.castRanked
    let dims := [← shapeAt lhsShape 0, ← shapeAt rhsShape 1]
    pure { op with result := .ranked dims lhsElementType }
  else
    pure op

def ONNXMatMulOp.inferShapes (op : InferState) : Except String InferState :=
  inferMatrixProductShape op

def ONNXGemmOp.inferShapes (op : InferState) : Except String InferState :=
  inferMatrixProductShape op

def ONNXFullGemmOp.inferShapes (op : InferState) : Except String InferState :=
  inferMatrixProductShape op

def broadcastRev : List Int → List Int → Option (List Int)
  | [], ys => some ys
  | xs, [] => some xs
  | x :: xs, y :: ys => do
    let d ← if x = y then some x else if x = 1 then some y else if y = 1 then some x else none
    pure (d :: (← broadcastRev xs ys))

/-- The result shape of ONNX `MatMul` on static extents, as numpy's `matmul` gives it, with the
batch extents broadcast. -/
def matMulShape (lhs rhs : List Int) : Option (List Int) :=
  if lhs = [] ∨ rhs = [] then none else do
    let rows := if lhs.length = 1 then [] else (lhs.drop (lhs.length - 2)).take 1
    let cols := if rhs.length = 1 then [] else rhs.drop (rhs.length - 1)
    let batch ← broadcastRev lhs.dropLast.dropLast.reverse rhs.dropLast.dropLast.reverse
    pure (batch.reverse ++ rows ++ cols)

section MatrixProduct

variable (op : InferState)

theorem inferMatrixProductShape_unranked
    (h : op.operand0.isRanked = false ∨ op.operand1.isRanked = false) :
    inferMatrixProductShape op = .ok op := by
  rcases h with h | h <;> simp [inferMatrixProductShape, h]

theorem inferMatrixProductShape_ranked {lhs rhs : List Int} {e e' : ElemType}
    (h0 : op.operand0 = .ranked lhs e) (h1 : op.operand1 = .ranked rhs e') :
    inferMatrixProductShape op =
      if h : 0 < lhs.length ∧ 1 < rhs.length then
        .ok { op with result := .ranked [lhs[0], rhs[1]] e }
      else .error "Invalid index!" := by
  simp only [inferMatrixProductShape, h0, h1, TensorType.isRanked, Bool.and_self, if_true,
    TensorType.castRanked_ranked, ok_bind]
  by_cases hl : 0 < lhs.length
  · by_cases hr : 1 < rhs.length
    · simp [hl, hr, shapeAt_of_lt hl, shapeAt_of_lt hr]
    · simp [hl, hr, shapeAt_of_lt hl, shapeAt_of_le (Nat.le_of_not_lt hr)]
  · simp [hl, shapeAt_of_le (Nat.le_of_not_lt hl)]

theorem inferMatrixProductShape_matrices {m k k' n : Int} {e e' : ElemType}
    (h0 : op.operand0 = .ranked [m, k] e) (h1 : op.operand1 = .ranked [k', n] e') :
    inferMatrixProductShape op = .ok { op with result := .ranked [m, n] e } ∧
      matMulShape [m, k] [k', n] = some [m, n] := by
  rw [inferMatrixProductShape_ranked op h0 h1]
  exact ⟨rfl, rfl⟩

end MatrixProduct

/-- A 1-D second operand makes all three methods read its extent `1`, past its rank; and on
batched operands they set the shape `[lhs[0], rhs[1]]`, not the product's shape. -/
theorem inferShapes_matrix_product_past_rank :
    ONNXMatMulOp.inferShapes
        ⟨.ranked [3, 4] (.float .f32), .ranked [4] (.float .f32), .unranked (.float .f32), []⟩ =
      .error "Invalid index!" ∧
    ONNXGemmOp.inferShapes
        ⟨.ranked [3, 4] (.float .f32), .ranked [4] (.float .f32), .unranked (.float .f32), []⟩ =
      .error "Invalid index!" ∧
    ONNXFullGemmOp.inferShapes
        ⟨.ranked [3, 4] (.float .f32), .ranked [4] (.float .f32), .unranked (.float .f32), []⟩ =
      .error "Invalid index!" ∧
    ONNXMatMulOp.inferShapes
        ⟨.ranked [2, 3, 4] (.float .f32), .ranked [2, 4, 5] (.float .f32),
          .unranked (.float .f32), []⟩ =
      .ok ⟨.ranked [2, 3, 4] (.float .f32), .ranked [2, 4, 5] (.float .f32),
        .ranked [2, 4] (.float .f32), []⟩ ∧
    matMulShape [2, 3, 4] [2, 4, 5] = some [2, 3, 5] ∧ matMulShape [3, 4] [4] = some [3] :=
  ⟨rfl, rfl, rfl, rfl, rfl, rfl⟩

/-- `ONNXReshapeOp::inferShapes`. `emitError` does not return: after each diagnostic the
method goes on to the next cast, read and `setType`. -/
def ONNXReshapeOp.inferShapes (op : InferState) : Except String InferState := do
  let op := if op.operand1.isRanked then op else op.emitError "Shape tensor not ranked."
  let (_, inputElementType) ← op.operand0.castRanked
  let (shapeTensorShape, _) ← op.operand1.castRanked
  let op := if shapeTensorShape.length = 1 then op
    else op.emitError "Shape tensor must have rank one."
  let outputRank ← shapeAt shapeTensorShape 0
  let op := if outputRank < 0 then op.emitError "Shape tensor must have constant shape." else op
  let dims := List.replicate outputRank.toNat (-1)
  pure { op with result := .ranked dims inputElementType }

section Reshape

@[simp] theorem InferState.emitError_operand0 (op : InferState) (msg : String) :
    (op.emitError msg).operand0 = op.operand0 := rfl

@[simp] theorem InferState.emitError_operand1 (op : InferState) (msg : String) :
    (op.emitError msg).operand1 = op.operand1 := rfl

theorem reshape_inferShapes_ranked (shape : List Int) (e e' : ElemType) (n : Int)
    (rest : List Int) (result : TensorType) (ds : List String) :
    ONNXReshapeOp.inferShapes ⟨.ranked shape e, .ranked (n :: rest) e', result, ds⟩ =
      .ok ⟨.ranked shape e, .ranked (n :: rest) e', .ranked (List.replicate n.toNat (-1)) e,
        ds ++ (if rest = [] then [] else ["Shape tensor must have rank one."]) ++
          (if n < 0 then ["Shape tensor must have constant shape."] else [])⟩ := by
  by_cases hr : rest = [] <;> by_cases hn : n < 0 <;>
    simp [ONNXReshapeOp.inferShapes, TensorType.isRanked, InferState.emitError, shapeAt, hr, hn]

theorem reshape_inferShapes_error_iff (op : InferState) :
    (∃ msg, ONNXReshapeOp.inferShapes op = .error msg) ↔
      op.operand0.isRanked = false ∨ op.operand1.isRanked = false ∨
        ∃ e, op.operand1 = .ranked [] e := by
  obtain ⟨_ | ⟨shape, e⟩, _ | ⟨_ | ⟨n, rest⟩, e'⟩, result, ds⟩ := op <;>
    (try rw [reshape_inferShapes_ranked]) <;>
    simp [ONNXReshapeOp.inferShapes, TensorType.isRanked, InferState.emitError, shapeAt_of_le]

end Reshape

/-- No error branch stops `Reshape`'s shape inference: after its diagnostic the method goes on, to
an invalid cast, a read past the rank, or `setType`. -/
theorem reshape_inferShapes_error_paths_continue :
    ONNXReshapeOp.inferShapes ⟨.ranked [6] (.float .f32), .unranked (.integer 64 .signless),
        .unranked (.float .f32), []⟩ =
      .error "cast<Ty>() argument of incompatible type!" ∧
    ONNXReshapeOp.inferShapes ⟨.unranked (.float .f32), .ranked [1] (.integer 64 .signless),
        .unranked (.float .f32), []⟩ =
      .error "cast<Ty>() argument of incompatible type!" ∧
    ONNXReshapeOp.inferShapes ⟨.ranked [6] (.float .f32), .ranked [] (.integer 64 .signless),
        .unranked (.float .f32), []⟩ =
      .error "Invalid index!" ∧
    ONNXReshapeOp.inferShapes ⟨.ranked [6] (.float .f32), .ranked [-1] (.integer 64 .signless),
        .unranked (.float .f32), []⟩ =
      .ok ⟨.ranked [6] (.float .f32), .ranked [-1] (.integer 64 .signless), .ranked [] (.float .f32),
        ["Shape tensor must have constant shape."]⟩ ∧
    ONNXReshapeOp.inferShapes ⟨.ranked [6] (.float .f32), .ranked [2, 3] (.integer 64 .signless),
        .unranked (.float .f32), []⟩ =
      .ok ⟨.ranked [6] (.float .f32), .ranked [2, 3] (.integer 64 .signless),
        .ranked [-1, -1] (.float .f32), ["Shape tensor must have rank one."]⟩ :=
  ⟨rfl, rfl, rfl, rfl, rfl⟩

end DialectBuilder.OnnxOps
