import DialectBuilder.Vector

namespace DialectBuilder.MemRef

open DialectBuilder.Types DialectBuilder.Vector

/-- Modelled from the spec: `IndexExpr` (IndexExpr.cpp is not in src/), a literal integer, a
symbol, a `dim` query, or a product, sum or round-up quotient of index expressions. -/
inductive IndexExpr
  | literal (n : Nat)
  | symbol (id : Nat)
  | dim (operand : Nat) (index : Nat)
  | mul (a b : IndexExpr)
  | add (a b : IndexExpr)
  | ceilDiv (a b : IndexExpr)
  deriving DecidableEq, Repr

namespace IndexExpr

def isLiteral : IndexExpr → Bool
  | literal _ => true
  | _ => false

def getShape : IndexExpr → Option Nat
  | literal n => some n
  | _ => none

/-- Modelled from the spec: multiplication, folding two literals eagerly. -/
def times : IndexExpr → IndexExpr → IndexExpr
  | literal a, literal b => literal (a * b)
  | a, b => mul a b

/-- Modelled from the spec: addition, folding two literals eagerly. -/
def plus : IndexExpr → IndexExpr → IndexExpr
  | literal a, literal b => literal (a + b)
  | a, b => add a b

/-- Modelled from the spec: round-up division, folding two literals eagerly. -/
def ceilDivBy : IndexExpr → IndexExpr → IndexExpr
  | literal a, literal b => literal ((a + b - 1) / b)
  | a, b => ceilDiv a b

/-- Modelled from the spec: the run-time value, given the symbols' values `σ` and the
operands' extents `δ`. -/
def eval (σ : Nat → Nat) (δ : Nat → Nat → Nat) : IndexExpr → Nat
  | literal n => n
  | symbol id => σ id
  | dim v i => δ v i
  | mul a b => a.eval σ δ * b.eval σ δ
  | add a b => a.eval σ δ + b.eval σ δ
  | ceilDiv a b => (a.eval σ δ + b.eval σ δ - 1) / b.eval σ δ

variable (σ : Nat → Nat) (δ : Nat → Nat → Nat) (a b : IndexExpr)

@[simp] theorem eval_literal (n : Nat) : (literal n).eval σ δ = n := rfl

@[simp] theorem isLiteral_literal (n : Nat) : (literal n).isLiteral = true := rfl

@[simp] theorem eval_times : (a.times b).eval σ δ = a.eval σ δ * b.eval σ δ := by
  unfold times; split <;> rfl

@[simp] theorem eval_plus : (a.plus b).eval σ δ = a.eval σ δ + b.eval σ δ := by
  unfold plus; split <;> rfl

@[simp] theorem eval_ceilDivBy :
    (a.ceilDivBy b).eval σ δ = (a.eval σ δ + b.eval σ δ - 1) / b.eval σ δ := by
  unfold ceilDivBy; split <;> rfl

@[simp] theorem isLiteral_times : (a.times b).isLiteral = (a.isLiteral && b.isLiteral) := by
  cases a <;> cases b <;> rfl

@[simp] theorem isLiteral_plus : (a.plus b).isLiteral = (a.isLiteral && b.isLiteral) := by
  cases a <;> cases b <;> rfl

@[simp] theorem isLiteral_ceilDivBy :
    (a.ceilDivBy b).isLiteral = (a.isLiteral && b.isLiteral) := by
  cases a <;> cases b <;> rfl

theorem eq_literal_of_isLiteral {a : IndexExpr} (h : a.isLiteral = true) :
    a = literal (a.eval σ δ) := by
  cases a <;> simp_all [isLiteral]

end IndexExpr

/-- An `int64_t` result: the exact integer taken modulo `2^64` into `[-2^63, 2^63)`, as two's
complement arithmetic wraps. -/
def wrap64 (x : Int) : Int := x.bmod (2 ^ 64)

def kDynamic : Int := -2 ^ 63

def rem64 (a b : Int) : Except String Int :=
  if b = 0 ∨ (a = -2 ^ 63 ∧ b = -1) then throw "integer division trap" else pure (a.tmod b)

/-- `LiteralIndexExpr` of an `int64_t`: a negative value, which only a wrapped product gives, is
outside the model, which stops there. -/
def literalIndexExpr (value : Int) : Except String IndexExpr :=
  if 0 ≤ value then pure (.literal value.toNat) else throw "negative literal index expression"

/-- An extent of `MemRefType::get` from its `int64_t`: `kDynamic` is dynamic, and any other
negative size fails the type's verifier. -/
def shapeEntry (s : Int) : Except String (Option Nat) :=
  if s = kDynamic then pure none
  else if 0 ≤ s then pure (some s.toNat)
  else throw "invalid memref size"

theorem wrap64_of_lt {x : Int} (h0 : 0 ≤ x) (h : x < 2 ^ 63) : wrap64 x = x := by
  have hx : x % ((2 ^ 64 : Nat) : Int) = x := Int.emod_eq_of_lt h0 (by push_cast; omega)
  rw [wrap64, Int.bmod_pos _ _ (by rw [hx]; push_cast; omega), hx]

theorem wrap64_natCast_mul {a b : Nat} (h : a * b < 2 ^ 63) :
    wrap64 ((a : Int) * b) = ((a * b : Nat) : Int) := by
  rw [← Int.natCast_mul]; exact wrap64_of_lt (Int.natCast_nonneg _) (by exact_mod_cast h)

theorem wrap64_mul_wrap64 (a b : Int) : wrap64 (wrap64 a * b) = wrap64 (a * b) :=
  Int.bmod_mul_bmod

@[simp] theorem literalIndexExpr_natCast (n : Nat) : literalIndexExpr n = .ok (.literal n) := by
  simp [literalIndexExpr]

theorem shapeEntry_natCast (n : Nat) : shapeEntry n = .ok (some n) := by
  simp [shapeEntry, kDynamic]

@[simp] theorem shapeEntry_kDynamic : shapeEntry kDynamic = .ok none := by
  simp [shapeEntry]

theorem rem64_natCast {a b : Nat} (hb : 0 < b) : rem64 a b = .ok ((a % b : Nat) : Int) := by
  simp [rem64, Int.tmod, show b ≠ 0 by omega]

/-- A `MemRefType`: its extents (`none` is `ShapedType::kDynamic`), its element type, and
whether its layout is the identity. -/
structure MemRefType where
  shape : List (Option Nat)
  elementType : Ty
  identityLayout : Bool
  deriving DecidableEq, Repr

namespace MemRefType

def getRank (t : MemRefType) : Nat := t.shape.length

def hasNonIdentityLayout (t : MemRefType) : Bool := !t.identityLayout

def get (shape : List (Option Nat)) (elementType : Ty) : MemRefType := ⟨shape, elementType, true⟩

end MemRefType

def dynamicEntries {α : Type} (shape : List (Option Nat)) (dims : List α) : List α :=
  ((shape.zip dims).filter (fun p => p.1.isNone)).map Prod.snd

def numDynamic (shape : List (Option Nat)) : Nat := (shape.filter Option.isNone).length

def resolveExtents : List (Option Nat) → List Nat → List Nat
  | [], _ => []
  | some s :: shape, vals => s :: resolveExtents shape vals
  | none :: shape, vals => vals.headD 0 :: resolveExtents shape vals.tail

@[simp] theorem numDynamic_nil : numDynamic [] = 0 := rfl
@[simp] theorem numDynamic_cons_none (xs : List (Option Nat)) :
    numDynamic (none :: xs) = numDynamic xs + 1 := by simp [numDynamic]
@[simp] theorem numDynamic_cons_some (s : Nat) (xs : List (Option Nat)) :
    numDynamic (some s :: xs) = numDynamic xs := by simp [numDynamic]

theorem numDynamic_append (xs ys : List (Option Nat)) :
    numDynamic (xs ++ ys) = numDynamic xs + numDynamic ys := by
  simp [numDynamic]

theorem numDynamic_take_succ {shape : List (Option Nat)} {i : Nat} (hi : i < shape.length) :
    numDynamic (shape.take (i + 1)) = numDynamic (shape.take i) + if shape[i] = none then 1 else 0 := by
  rw [List.take_succ, List.getElem?_eq_getElem hi, numDynamic_append]
  cases shape[i] <;> simp

theorem numDynamic_take_le (shape : List (Option Nat)) (i : Nat) :
    numDynamic (shape.take i) ≤ numDynamic shape := by
  conv_rhs => rw [← List.take_append_drop i shape]
  rw [numDynamic_append]; omega

theorem numDynamic_eq_zero {shape : List (Option Nat)} : numDynamic shape = 0 ↔ none ∉ shape := by
  simp only [numDynamic, List.length_eq_zero, List.filter_eq_nil_iff, Option.isNone_iff_eq_none]
  exact ⟨fun h hn => h _ hn rfl, fun h a ha hna => h (hna ▸ ha)⟩

theorem dynamicEntries_take_succ {α : Type} {shape : List (Option Nat)} {dims : List α} {i : Nat}
    (hs : i < shape.length) (hd : i < dims.length) :
    dynamicEntries (shape.take (i + 1)) (dims.take (i + 1)) =
      dynamicEntries (shape.take i) (dims.take i) ++ (if shape[i] = none then [dims[i]] else []) := by
  rw [List.take_succ, List.take_succ, List.getElem?_eq_getElem hs, List.getElem?_eq_getElem hd]
  simp only [dynamicEntries, Option.toList_some]
  rw [List.zip_append (by simp; omega)]
  cases shape[i] <;> simp

theorem dynamicEntries_length {α : Type} {shape : List (Option Nat)} {dims : List α}
    (hlen : dims.length = shape.length) : (dynamicEntries shape dims).length = numDynamic shape := by
  induction shape generalizing dims with
  | nil => simp [dynamicEntries, numDynamic]
  | cons s shape ih =>
    cases dims with
    | nil => simp at hlen
    | cons d dims =>
      have := @ih dims (by simpa using hlen)
      cases s <;> simp_all [dynamicEntries, numDynamic]

theorem resolveExtents_append (xs ys : List (Option Nat)) (vals : List Nat) :
    resolveExtents (xs ++ ys) vals =
      resolveExtents xs vals ++ resolveExtents ys (vals.drop (numDynamic xs)) := by
  induction xs generalizing vals with
  | nil => simp [resolveExtents]
  | cons x xs ih =>
    cases x with
    | some s => simp [resolveExtents, ih]
    | none => cases vals <;> simp [resolveExtents, ih]

theorem resolveExtents_take_succ {shape : List (Option Nat)} {i : Nat} (hi : i < shape.length)
    (vals : List Nat) :
    resolveExtents (shape.take (i + 1)) vals = resolveExtents (shape.take i) vals ++
      [(shape[i]).getD ((vals.drop (numDynamic (shape.take i))).headD 0)] := by
  rw [List.take_succ, List.getElem?_eq_getElem hi, Option.toList_some, resolveExtents_append]
  cases shape[i] <;> simp [resolveExtents]

theorem resolveExtents_dynamicEntries {shape : List (Option Nat)} {dims : List IndexExpr}
    (hlen : dims.length = shape.length) (f : IndexExpr → Nat) :
    resolveExtents shape ((dynamicEntries shape dims).map f) =
      List.zipWith (fun s d => s.getD (f d)) shape dims := by
  induction shape generalizing dims with
  | nil => simp [resolveExtents]
  | cons s shape ih =>
    cases dims with
    | nil => simp at hlen
    | cons d dims =>
      have := @ih dims (by simpa using hlen)
      cases s <;> simp_all [dynamicEntries, resolveExtents]

structure AllocOp where
  type : MemRefType
  dynamicSizes : List IndexExpr
  alignment : Option Int
  deriving DecidableEq, Repr

structure ShapeBuffer where
  alloc : AllocOp
  extents : List IndexExpr
  deriving DecidableEq, Repr

/-- A memref value: an argument, an allocation, a `memref.view` of a source at a byte shift,
or a `memref.reshape` of a source to the extents in a shape buffer. -/
inductive MemRefValue
  | arg (id : Nat) (type : MemRefType)
  | alloc (op : AllocOp)
  | view (source : MemRefValue) (byteShift : IndexExpr) (type : MemRefType)
      (sizes : List IndexExpr)
  | reshape (type : MemRefType) (source : MemRefValue) (shape : ShapeBuffer)
  deriving DecidableEq, Repr

def MemRefValue.type : MemRefValue → MemRefType
  | arg _ t => t
  | alloc op => op.type
  | view _ _ t _ => t
  | reshape t _ _ => t

def MemRefValue.sizes : MemRefValue → List IndexExpr
  | alloc op => op.dynamicSizes
  | view _ _ _ sizes => sizes
  | _ => []

def MemRefValue.sizesMatch : MemRefValue → Bool
  | arg _ _ => true
  | alloc op => op.dynamicSizes.length == numDynamic op.type.shape
  | view src _ t sizes => sizes.length == numDynamic t.shape && src.sizesMatch
  | reshape _ src _ => src.sizesMatch

def AllocOp.numElements (σ : Nat → Nat) (δ : Nat → Nat → Nat) (op : AllocOp) : Nat :=
  (resolveExtents op.type.shape (op.dynamicSizes.map (·.eval σ δ))).prod

def AllocOp.sizeInBits (σ : Nat → Nat) (δ : Nat → Nat → Nat) (op : AllocOp) : Nat :=
  op.numElements σ δ * op.type.elementType.getIntOrFloatBitWidth

def MemRefValue.buffer : MemRefValue → Option AllocOp
  | arg _ _ => none
  | alloc op => some op
  | view src _ _ _ => src.buffer
  | reshape _ src _ => src.buffer

def defaultAlign : Int := -1

def i8 : Ty := .scalar (.integer 8 .signless)

section Builders

variable (gDefaultAllocAlign : Int)

def computeAlignment (alignment : Int) : Int :=
  if alignment > gDefaultAllocAlign then alignment else gDefaultAllocAlign

def computeDynSymbols (type : MemRefType) (dims : List IndexExpr) :
    Except String (List IndexExpr) :=
  (List.range type.getRank).foldlM (fun dynSymbols i => do
    if (← getAt type.shape i) = none then pure (dynSymbols ++ [← getAt dims i])
    else pure dynSymbols) []

def computeDynSymbolsOfOperand (operandOfSameType : Option Nat) (type : MemRefType) :
    Except String (List IndexExpr) :=
  match operandOfSameType with
  | none => pure []
  | some v => (List.range type.getRank).foldlM (fun dynSymbols i => do
      if (← getAt type.shape i) = none then pure (dynSymbols ++ [.dim v i])
      else pure dynSymbols) []

def alloc (type : MemRefType) (dynSymbols : List IndexExpr) : AllocOp :=
  if dynSymbols.length = 0 then ⟨type, [], none⟩ else ⟨type, dynSymbols, none⟩

def allocOfDims (type : MemRefType) (dims : List IndexExpr) : Except String AllocOp := do
  pure (alloc type (← computeDynSymbols type dims))

def alignedAlloc (type : MemRefType) (dynSymbols : List IndexExpr) (alignment : Int) : AllocOp :=
  if type.shape.length = 0 then alloc type dynSymbols
  else
    let alignmentAttr := computeAlignment gDefaultAllocAlign alignment
    if dynSymbols.length = 0 then ⟨type, [], some alignmentAttr⟩
    else ⟨type, dynSymbols, some alignmentAttr⟩

def alignedAllocOfDims (type : MemRefType) (dims : List IndexExpr) (alignment : Int) :
    Except String AllocOp := do
  pure (alignedAlloc gDefaultAllocAlign type (← computeDynSymbols type dims) alignment)

def memSizeStep (type : MemRefType) (dynSymbols : List IndexExpr) (staticShape : Bool)
    (acc : Int × IndexExpr × Nat) (i : Nat) : Except String (Int × IndexExpr × Nat) := do
  let (staticSize, dynSize, iDim) := acc
  match ← getAt type.shape i with
  | none => do
    expect (!staticShape) "expected static shape"
    expect (iDim < dynSymbols.length) "not enough dynamic symbols"
    pure (staticSize, dynSize.times (← getAt dynSymbols iDim), iDim + 1)
  | some s =>
    pure (wrap64 (staticSize * s), dynSize, iDim)

def getStaticAndDynamicMemSize (type : MemRefType) (dynSymbols : List IndexExpr) :
    Except String (Bool × Int × IndexExpr) := do
  expect type.elementType.vectorShape?.isNone "unsupported vector type"
  let staticShape := dynSymbols.length == 0
  let (staticSize, dynSize, _) ← (List.range type.getRank).foldlM
    (memSizeStep type dynSymbols staticShape) (1, .literal 1, 0)
  pure (staticShape, staticSize, dynSize)

def getStaticAndDynamicMemSizeOfDims (type : MemRefType) (dims : List IndexExpr) :
    Except String (Bool × Int × IndexExpr) := do
  getStaticAndDynamicMemSize type (← computeDynSymbols type dims)

def view (input : MemRefValue) (byteOffset : Nat) (outputType : MemRefType)
    (outputDynSymbols : List IndexExpr) : MemRefValue :=
  .view input (.literal byteOffset) outputType outputDynSymbols

def paddedByteSize (bitWidth : Nat) (staticSize paddingSize : Int) (dynSize : IndexExpr) :
    Except String IndexExpr :=
  if bitWidth % 8 = 0 then do
    let byteWidth := bitWidth / 8
    let totByteSize := (← literalIndexExpr (wrap64 (staticSize * byteWidth))).times dynSize
    pure (totByteSize.plus (← literalIndexExpr (wrap64 (paddingSize * byteWidth))))
  else do
    let totBitSize := (← literalIndexExpr (wrap64 (staticSize * bitWidth))).times dynSize
    let totPaddedBitSize :=
      totBitSize.plus (← literalIndexExpr (wrap64 (paddingSize * bitWidth)))
    pure (totPaddedBitSize.ceilDivBy (.literal 8))

def paddedAlloc (totPaddedByteSize : IndexExpr) (alignment : Int) : AllocOp :=
  match totPaddedByteSize with
  | .literal n => alignedAlloc gDefaultAllocAlign (.get [some n] i8) [] alignment
  | _ => alignedAlloc gDefaultAllocAlign (.get [none] i8) [totPaddedByteSize] alignment

def allocWithPadding (type : MemRefType) (dynSymbols : List IndexExpr) (alignment : Int)
    (VL : Int) (staticShape : Bool) (staticSize : Int) (dynSize : IndexExpr) :
    Except String MemRefValue := do
  let rem ← rem64 staticSize VL
  if rem = 0 then
    pure (.alloc (alignedAlloc gDefaultAllocAlign type dynSymbols alignment))
  else do
    let paddingSize := if staticShape then wrap64 (VL - rem) else VL
    let elementType := type.elementType
    expect (elementType.isaInteger || elementType.isaFloat)
      "only integers and floats have a bitwidth"
    let totPaddedByteSize ←
      paddedByteSize elementType.getIntOrFloatBitWidth staticSize paddingSize dynSize
    if staticShape then expect totPaddedByteSize.isLiteral "expected literal padded tot size"
    pure (view (.alloc (paddedAlloc gDefaultAllocAlign totPaddedByteSize alignment)) 0 type
      dynSymbols)

/-- Allocate, padding the buffer so that its end is safe for vectors of the machine
length times `simdUnroll`. -/
def alignedAllocWithSimdPadding (vms : ElemType → Int) (type : MemRefType)
    (dynSymbols : List IndexExpr) (simdUnroll alignment : Int) : Except String MemRefValue := do
  let elementType := type.elementType
  expect (!type.hasNonIdentityLayout) "unsupported layout"
  expect elementType.vectorShape?.isNone "unsupported vector type"
  expect (simdUnroll ≥ 1) "expected positive simd unroll factor"
  let (staticShape, staticSize, dynSize) ← getStaticAndDynamicMemSize type dynSymbols
  let VL := wrap64 (getMachineVectorLength vms elementType.elem * simdUnroll)
  allocWithPadding gDefaultAllocAlign type dynSymbols alignment VL staticShape staticSize dynSize

def alignedAllocWithSimdPaddingOfDims (vms : ElemType → Int) (type : MemRefType)
    (dims : List IndexExpr) (simdUnroll alignment : Int) : Except String MemRefValue := do
  alignedAllocWithSimdPadding gDefaultAllocAlign vms type (← computeDynSymbols type dims)
    simdUnroll alignment

def reshape (destType : MemRefType) (valToReshape : MemRefValue)
    (destShapeStoredInMem : ShapeBuffer) : MemRefValue :=
  .reshape destType valToReshape destShapeStoredInMem

def reshapeToFlat (valToReshape : MemRefValue) (dims : List IndexExpr) (dimsToFlatten : Int) :
    Except String (MemRefValue × IndexExpr) := do
  let inputType := valToReshape.type
  let inputRank := inputType.getRank
  expect (inputRank == dims.length) "rank mismatch"
  let elementType := inputType.elementType
  expect (!inputType.hasNonIdentityLayout) "MemRef is not normalized"
  let dimsToFlatten := if dimsToFlatten = -1 then (inputRank : Int) else dimsToFlatten
  expect (dimsToFlatten > 0 && dimsToFlatten ≤ inputRank) "out of range dimsToFlatten"
  let k := dimsToFlatten.toNat
  let numOfFlattenedElements ← (List.range' (inputRank - k) k).foldlM
    (fun acc d => do pure (acc.times (← getAt dims d))) (IndexExpr.literal 1)
  let flattenedSize := numOfFlattenedElements
  if k = 1 then pure (valToReshape, flattenedSize)
  else do
    let outputRank := inputRank - k + 1
    let outputShapeInMem :=
      alignedAlloc gDefaultAllocAlign (.get [some outputRank] (.scalar .index)) [] defaultAlign
    let (stored, outputShape) ← (List.range outputRank).foldlM
      (fun (acc : List IndexExpr × List (Option Nat)) d => do
        let shapeIE ← if d = outputRank - 1 then pure numOfFlattenedElements else getAt dims d
        pure (acc.1 ++ [shapeIE], acc.2 ++ [shapeIE.getShape])) ([], [])
    let outputType := MemRefType.get outputShape elementType
    pure (reshape outputType valToReshape ⟨outputShapeInMem, stored⟩, flattenedSize)

def reshapeFromFlat (valToReshape : MemRefValue) (dims : List IndexExpr)
    (outputType : MemRefType) : Except String MemRefValue := do
  expect (!outputType.hasNonIdentityLayout) "MemRef is not normalized"
  let rank := outputType.getRank
  let shapeND := alignedAlloc gDefaultAllocAlign (.get [some rank] (.scalar .index)) [] defaultAlign
  let stored ← (List.range rank).foldlM (fun acc i => do pure (acc ++ [← getAt dims i])) []
  pure (reshape outputType valToReshape ⟨shapeND, stored⟩)

end Builders

theorem dynamicLoop_eq {α : Type} {shape : List (Option Nat)} {dims : List α}
    (f : Nat → Except String α) (hlen : dims.length = shape.length)
    (hf : ∀ i (hi : i < dims.length), f i = .ok (dims.get ⟨i, hi⟩)) :
    (List.range shape.length).foldlM (fun acc i => do
      if (← getAt shape i) = none then pure (acc ++ [← f i]) else pure acc) [] =
      .ok (dynamicEntries shape dims) := by
  obtain ⟨b, hb, rfl⟩ := @foldlM_range_inv _ (fun acc i => do
      if (← getAt shape i) = none then pure (acc ++ [← f i]) else pure acc)
    (fun i acc => acc = dynamicEntries (shape.take i) (dims.take i)) shape.length []
    (by simp [dynamicEntries]) (fun i hi acc hacc => by
      refine ⟨_, ?_, (dynamicEntries_take_succ hi (by omega)).symm⟩
      subst hacc
      dsimp only
      rw [getAt_of_lt hi]
      cases h : shape[i] <;> simp [h, hf i (by omega)])
  rwa [List.take_length, show dims.take shape.length = dims by rw [← hlen, List.take_length]] at hb

theorem computeDynSymbols_eq {type : MemRefType} {dims : List IndexExpr}
    (hlen : dims.length = type.getRank) :
    computeDynSymbols type dims = .ok (dynamicEntries type.shape dims) :=
  dynamicLoop_eq (getAt dims) hlen (fun i hi => by rw [getAt_of_lt hi]; rfl)

theorem computeDynSymbolsOfOperand_eq (v : Nat) (type : MemRefType) :
    computeDynSymbolsOfOperand (some v) type =
      .ok (dynamicEntries type.shape ((List.range type.getRank).map (.dim v))) := by
  show List.foldlM _ [] (List.range type.shape.length) = _
  exact
  dynamicLoop_eq (fun i => (pure (.dim v i) : Except String IndexExpr))
    (by simp [MemRefType.getRank]) (fun i hi => by simp)

theorem alloc_spec (type : MemRefType) (syms : List IndexExpr) :
    (alloc type syms).type = type ∧ (alloc type syms).dynamicSizes = syms := by
  unfold alloc; split <;> simp_all

theorem alignedAlloc_spec (g : Int) (type : MemRefType) (syms : List IndexExpr) (alignment : Int) :
    (alignedAlloc g type syms alignment).type = type ∧
      (alignedAlloc g type syms alignment).dynamicSizes = syms := by
  unfold alignedAlloc; split_ifs <;> simp_all [alloc_spec]

theorem computeAlignment_eq_max (g alignment : Int) : computeAlignment g alignment = max alignment g := by
  unfold computeAlignment; split <;> omega

theorem alignedAlloc_alignment (g : Int) (type : MemRefType) (syms : List IndexExpr)
    (alignment : Int) :
    (alignedAlloc g type syms alignment).alignment =
      if type.shape = [] then none else some (max alignment g) := by
  unfold alignedAlloc alloc
  by_cases hs : type.shape = [] <;> split_ifs <;> simp_all [computeAlignment_eq_max]

theorem prod_resolveExtents (shape : List (Option Nat)) {vals : List Nat}
    (h : numDynamic shape ≤ vals.length) :
    (resolveExtents shape vals).prod =
      (shape.filterMap id).prod * (vals.take (numDynamic shape)).prod := by
  induction shape generalizing vals with
  | nil => simp [resolveExtents]
  | cons e shape ih =>
    cases e with
    | some s =>
      simp only [resolveExtents, List.prod_cons, @ih vals (by simpa using h)]
      simp [Nat.mul_assoc]
    | none =>
      cases vals with
      | nil => simp at h
      | cons v vals =>
        simp [resolveExtents, @ih vals (by simpa using h), Nat.mul_left_comm]

section MemSize

variable (σ : Nat → Nat) (δ : Nat → Nat → Nat)

def MemSizeDone (shape : List (Option Nat)) (syms : List IndexExpr) (i : Nat)
    (acc : Int × IndexExpr × Nat) : Prop :=
  acc.2.2 = numDynamic (shape.take i) ∧ acc.2.2 ≤ syms.length ∧
    acc.1 = wrap64 ((shape.take i).filterMap id).prod ∧
    acc.2.1.eval σ δ = ((syms.take acc.2.2).map (·.eval σ δ)).prod ∧
    (acc.2.2 = 0 → acc.2.1 = .literal 1)

theorem memSizeStep_done {type : MemRefType} {syms : List IndexExpr} {staticShape : Bool} {i : Nat}
    (hi : i < type.shape.length) {acc acc' : Int × IndexExpr × Nat}
    (h : MemSizeDone σ δ type.shape syms i acc) (hok : memSizeStep type syms staticShape acc i = .ok acc') :
    MemSizeDone σ δ type.shape syms (i + 1) acc' := by
  obtain ⟨staticSize, dynSize, iDim⟩ := acc
  obtain ⟨hiDim, hle, hstatic, hdyn, hlit⟩ := h
  simp only at hiDim hle hstatic hdyn hlit
  have hcount := numDynamic_take_succ hi
  have htake : (type.shape.take (i + 1)).filterMap id =
      (type.shape.take i).filterMap id ++ type.shape[i].toList := by
    rw [List.take_succ, List.getElem?_eq_getElem hi, List.filterMap_append]
    cases type.shape[i] <;> rfl
  cases hs : type.shape[i] with
  | none =>
    simp [memSizeStep, getAt_of_lt hi, hs, bind_eq_ok] at hok
    obtain ⟨-, hlt, a, ha, rfl⟩ := hok
    rw [getAt_of_lt hlt] at ha
    cases ha
    rw [if_pos hs] at hcount
    rw [hs, Option.toList_none, List.append_nil] at htake
    refine ⟨by simp [hcount, hiDim], hlt, htake ▸ hstatic, ?_, by simp⟩
    show (dynSize.times syms[iDim]).eval σ δ = _
    rw [IndexExpr.eval_times, hdyn, List.take_succ, List.getElem?_eq_getElem hlt]
    simp only [Option.toList_some, List.map_append, List.prod_append, List.map_cons, List.map_nil,
      List.prod_cons, List.prod_nil, Nat.mul_one]
  | some s =>
    simp [memSizeStep, getAt_of_lt hi, hs] at hok
    subst hok
    simp only [hs, reduceCtorEq, if_false, add_zero, Option.toList_some] at hcount htake
    refine ⟨hiDim.trans hcount.symm, hle, ?_, hdyn, hlit⟩
    rw [hstatic, wrap64_mul_wrap64, htake, List.prod_append]
    simp

theorem memSizeStep_ok {type : MemRefType} {syms : List IndexExpr}
    (hlen : numDynamic type.shape ≤ syms.length) {i : Nat} (hi : i < type.shape.length)
    {acc : Int × IndexExpr × Nat} (h : acc.2.2 = numDynamic (type.shape.take i)) :
    ∃ acc', memSizeStep type syms (syms.length == 0) acc i = .ok acc' := by
  obtain ⟨staticSize, dynSize, iDim⟩ := acc
  cases hs : type.shape[i] with
  | none =>
    have hcount := numDynamic_take_succ hi
    have hle := numDynamic_take_le type.shape (i + 1)
    simp only [hs, if_true] at hcount h
    have hlt : iDim < syms.length := by omega
    have hne : (syms.length == 0) = false := by rw [beq_eq_false_iff_ne]; omega
    exact ⟨(staticSize, dynSize.times syms[iDim], iDim + 1),
      by simp [memSizeStep, getAt_of_lt hi, hs, hlt, getAt_of_lt hlt, hne]⟩
  | some s => exact ⟨(wrap64 (staticSize * s), dynSize, iDim), by simp [memSizeStep, getAt_of_lt hi, hs]⟩

theorem getStaticAndDynamicMemSize_of_ok {type : MemRefType} {syms : List IndexExpr}
    {staticShape : Bool} {staticSize : Int} {dynSize : IndexExpr}
    (h : getStaticAndDynamicMemSize type syms = .ok (staticShape, staticSize, dynSize)) :
    type.elementType.vectorShape? = none ∧ numDynamic type.shape ≤ syms.length ∧
      staticShape = (syms.length == 0) ∧ staticSize = wrap64 (type.shape.filterMap id).prod ∧
      dynSize.eval σ δ = ((syms.take (numDynamic type.shape)).map (·.eval σ δ)).prod ∧
      (numDynamic type.shape = 0 → dynSize = .literal 1) := by
  simp only [getStaticAndDynamicMemSize, bind_eq_ok, expect_eq_ok, Option.isNone_iff_eq_none] at h
  obtain ⟨-, hvec, ⟨staticSize', dynSize', iDim⟩, hloop, hret⟩ := h
  cases hret
  obtain ⟨hiDim, hle, hstatic, hdyn, hlit⟩ := foldlM_range_ok_inv _ (MemSizeDone σ δ type.shape syms)
    (by simp [MemSizeDone]; rfl) (fun i hi _ _ hb hok => memSizeStep_done σ δ hi hb hok) hloop
  simp only [MemRefType.getRank, List.take_length] at hiDim hle hstatic hdyn hlit
  exact ⟨hvec, hiDim ▸ hle, rfl, hstatic, hiDim ▸ hdyn, hiDim ▸ hlit⟩

theorem getStaticAndDynamicMemSize_ok_iff {type : MemRefType} {syms : List IndexExpr} :
    (∃ r, getStaticAndDynamicMemSize type syms = .ok r) ↔
      type.elementType.vectorShape? = none ∧ numDynamic type.shape ≤ syms.length := by
  constructor
  · rintro ⟨⟨_, _, _⟩, h⟩
    obtain ⟨hvec, hlen, -⟩ := getStaticAndDynamicMemSize_of_ok id (fun _ _ => 0) h
    exact ⟨hvec, hlen⟩
  · rintro ⟨hvec, hlen⟩
    obtain ⟨acc, hloop, -⟩ := @foldlM_range_inv _ (memSizeStep type syms (syms.length == 0))
      (MemSizeDone id (fun _ _ => 0) type.shape syms) type.getRank (1, .literal 1, 0)
      (by simp [MemSizeDone]; rfl) fun i hi acc h =>
        let ⟨acc', hok⟩ := memSizeStep_ok hlen hi h.1
        ⟨acc', hok, memSizeStep_done id (fun _ _ => 0) hi h hok⟩
    exact ⟨(syms.length == 0, acc.1, acc.2.1), by simp [getStaticAndDynamicMemSize, hvec, hloop]⟩

theorem getStaticAndDynamicMemSize_spec {type : MemRefType} {syms : List IndexExpr}
    (hvec : type.elementType.vectorShape? = none) (hlen : numDynamic type.shape ≤ syms.length) :
    ∃ dynSize, getStaticAndDynamicMemSize type syms =
        .ok (syms.length == 0, wrap64 (type.shape.filterMap id).prod, dynSize) ∧
      dynSize.eval σ δ = ((syms.take (numDynamic type.shape)).map (·.eval σ δ)).prod ∧
      (syms = [] → dynSize = .literal 1) := by
  obtain ⟨⟨staticShape, staticSize, dynSize⟩, h⟩ := getStaticAndDynamicMemSize_ok_iff.2 ⟨hvec, hlen⟩
  obtain ⟨-, -, h1, h2, hdyn, hlit⟩ := getStaticAndDynamicMemSize_of_ok σ δ h
  exact ⟨dynSize, by rw [← h1, ← h2]; exact h, hdyn, fun hs => hlit (by simpa [hs] using hlen)⟩

end MemSize

/-- A symbol passed for a memref with no dynamic extent passes every assertion and turns the
static flag off; a vector element type fails whatever the symbols. -/
theorem getStaticAndDynamicMemSize_surplus_symbol :
    numDynamic [some 4] = 0 ∧
      getStaticAndDynamicMemSize (.get [some 4] (.scalar (.float .f32))) [.symbol 0] =
        .ok (false, 4, .literal 1) ∧
      getStaticAndDynamicMemSize (.get [] (.vector [4] (.float .f32))) [] =
        .error "unsupported vector type" :=
  ⟨rfl, rfl, rfl⟩

theorem paddedAlloc_sizes (g : Int) (tot : IndexExpr) (alignment : Int) :
    (paddedAlloc g tot alignment).dynamicSizes.length =
      numDynamic (paddedAlloc g tot alignment).type.shape := by
  unfold paddedAlloc; split <;> simp [alignedAlloc_spec, MemRefType.get]

theorem paddedAlloc_elementType (g : Int) (tot : IndexExpr) (alignment : Int) :
    (paddedAlloc g tot alignment).type.elementType = i8 := by
  unfold paddedAlloc; split <;> simp [alignedAlloc_spec, MemRefType.get]

theorem allocWithPadding_eq_ok {g : Int} {type : MemRefType} {syms : List IndexExpr}
    {alignment VL : Int} {staticShape : Bool} {staticSize : Int} {dynSize : IndexExpr}
    {v : MemRefValue}
    (h : allocWithPadding g type syms alignment VL staticShape staticSize dynSize = .ok v) :
    v = .alloc (alignedAlloc g type syms alignment) ∨
      ∃ tot, v = view (.alloc (paddedAlloc g tot alignment)) 0 type syms := by
  simp only [allocWithPadding, bind_eq_ok] at h
  obtain ⟨rem, -, h⟩ := h
  by_cases h0 : rem = 0
  · rw [if_pos h0] at h
    exact .inl (Except.ok.inj h).symm
  · rw [if_neg h0] at h
    simp only [bind_eq_ok] at h
    obtain ⟨-, -, tot, -, h⟩ := h
    refine .inr ⟨tot, ?_⟩
    cases staticShape <;> simp [bind_eq_ok] at h <;> simp [h]

theorem allocWithPadding_sizes {g : Int} {type : MemRefType} {syms : List IndexExpr}
    {alignment VL : Int} {staticShape : Bool} {staticSize : Int} {dynSize : IndexExpr}
    {v : MemRefValue} (hlen : syms.length = numDynamic type.shape)
    (h : allocWithPadding g type syms alignment VL staticShape staticSize dynSize = .ok v) :
    v.type = type ∧ v.sizes = syms ∧ v.sizesMatch = true := by
  rcases allocWithPadding_eq_ok h with rfl | ⟨tot, rfl⟩
  · simp [MemRefValue.type, MemRefValue.sizes, MemRefValue.sizesMatch, alignedAlloc_spec, hlen]
  · simp [view, MemRefValue.type, MemRefValue.sizes, MemRefValue.sizesMatch, hlen,
      paddedAlloc_sizes]

theorem alignedAllocWithSimdPadding_sizes {g : Int} {vms : ElemType → Int} {type : MemRefType}
    {syms : List IndexExpr} {simdUnroll alignment : Int} {v : MemRefValue}
    (hlen : syms.length = numDynamic type.shape)
    (h : alignedAllocWithSimdPadding g vms type syms simdUnroll alignment = .ok v) :
    v.type = type ∧ v.sizes = syms ∧ v.sizesMatch = true := by
  simp only [alignedAllocWithSimdPadding, bind_eq_ok] at h
  obtain ⟨-, -, -, -, -, -, ⟨staticShape, staticSize, dynSize⟩, -, h⟩ := h
  exact allocWithPadding_sizes hlen h

/-- The buffer behind every value `alignedAllocWithSimdPadding` returns is aligned to the requested
alignment raised to `gDefaultAllocAlign`, unless it is a rank-0 memref's own allocation. -/
theorem alignedAllocWithSimdPadding_aligned {g : Int} {vms : ElemType → Int} {type : MemRefType}
    {syms : List IndexExpr} {simdUnroll alignment : Int} {v : MemRefValue}
    (h : alignedAllocWithSimdPadding g vms type syms simdUnroll alignment = .ok v) :
    ∃ op, v.buffer = some op ∧ (op.alignment = some (max alignment g) ∨
      op.type = type ∧ type.shape = [] ∧ op.alignment = none) := by
  simp only [alignedAllocWithSimdPadding, bind_eq_ok] at h
  obtain ⟨-, -, -, -, -, -, ⟨staticShape, staticSize, dynSize⟩, -, h⟩ := h
  rcases allocWithPadding_eq_ok h with rfl | ⟨tot, rfl⟩
  · refine ⟨_, rfl, ?_⟩
    by_cases hs : type.shape = []
    · exact .inr ⟨(alignedAlloc_spec g type syms alignment).1, hs, by simp [alignedAlloc_alignment, hs]⟩
    · exact .inl (by simp [alignedAlloc_alignment, hs])
  · refine ⟨_, rfl, .inl ?_⟩
    unfold paddedAlloc; split <;> simp [alignedAlloc_alignment, MemRefType.get]

theorem alignedAllocWithSimdPadding_ten_f32_aligned :
    ∃ v op, alignedAllocWithSimdPadding 16 (fun _ => 4) (.get [some 10] (.scalar (.float .f32)))
        [] 1 defaultAlign = .ok v ∧ v.buffer = some op ∧ op.alignment = some 16 := by
  obtain ⟨v, hv⟩ : ∃ v, alignedAllocWithSimdPadding 16 (fun _ => 4)
      (.get [some 10] (.scalar (.float .f32))) [] 1 defaultAlign = .ok v := ⟨_, rfl⟩
  obtain ⟨op, hbuf, hal⟩ := alignedAllocWithSimdPadding_aligned hv
  refine ⟨v, op, hv, hbuf, ?_⟩
  rcases hal with hal | ⟨-, hs, -⟩
  · simpa [defaultAlign] using hal
  · simp [MemRefType.get] at hs

section DynSymbols

variable (σ : Nat → Nat) (δ : Nat → Nat → Nat)

end DynSymbols

end DialectBuilder.MemRef
