import DialectBuilder.Vector

namespace DialectBuilder.MathBuilder

open DialectBuilder.Types DialectBuilder.Ir DialectBuilder.Vector

def boolLike (t : Ty) : Ty := getTypeWithVector t.vectorShape? (.scalar (.integer 1 .signless))

def abs (val : Expr) : Except String Expr :=
  if isIntegerWithVector val.ty then pure (.unary .absI val.ty val)
  else if isFloatWithVector val.ty then pure (.unary .absF val.ty val)
  else throw "expected int or float"

def bitwise (op : BinOp) (lhs rhs : Expr) : Except String Expr := do
  expect (lhs.ty == rhs.ty) "expected same type"
  if isIntegerWithVector lhs.ty then pure (.binary op lhs.ty lhs rhs)
  else throw "expected int"

def andi := bitwise .andI
def ori := bitwise .orI
def xori := bitwise .xorI

/-- Several operations in the arith dialect require signless integers; this
reinterprets a signed or unsigned integer (or vector of them) as signless. -/
def castToSignless (val : Expr) (width : Nat) : Except String Expr := do
  let valElemType := elementTypeWithVector val.ty
  expect (valElemType.isaInteger && !valElemType.isSignlessInteger)
    "Expecting signed integer type"
  pure (.unary .unrealizedConversionCast
    (getTypeWithVector val.ty.vectorShape? (.scalar (.integer width .signless))) val)

def castToUnsigned (val : Expr) (width : Nat) : Except String Expr := do
  let valElemType := elementTypeWithVector val.ty
  expect valElemType.isaInteger "Expecting integer type"
  pure (.unary .unrealizedConversionCast
    (getTypeWithVector val.ty.vectorShape? (.scalar (.integer width .unsigned))) val)

/-- `add` and `mul`: on unsigned integers they run the signless extended op on
reinterpreted operands and reinterpret its result back. -/
def addOrMul (iop extOp fop : BinOp) (lhs rhs : Expr) : Except String Expr := do
  expect (lhs.ty == rhs.ty) "expected same type"
  if isIntegerWithVector lhs.ty then
    let elemType := elementTypeWithVector lhs.ty
    if elemType.isUnsignedInteger then do
      let elemWidth := elemType.getIntOrFloatBitWidth
      let castLhs ← castToSignless lhs elemWidth
      let castRhs ← castToSignless rhs elemWidth
      castToUnsigned (.binary extOp castLhs.ty castLhs castRhs) elemWidth
    else pure (.binary iop lhs.ty lhs rhs)
  else if isFloatWithVector lhs.ty then pure (.binary fop lhs.ty lhs rhs)
  else throw "expected int or float"

def add := addOrMul .addI .addUIExtended .addF
def mul := addOrMul .mulI .mulUIExtended .mulF

def sub (lhs rhs : Expr) : Except String Expr := do
  expect (lhs.ty == rhs.ty) "expected same type"
  if isIntegerWithVector lhs.ty then pure (.binary .subI lhs.ty lhs rhs)
  else if isFloatWithVector lhs.ty then pure (.binary .subF lhs.ty lhs rhs)
  else throw "expected int or float"

def floatUnsignedSigned (fop uop sop : BinOp) (lhs rhs : Expr) : Except String Expr := do
  expect (lhs.ty == rhs.ty) "expected same type"
  if isFloatWithVector lhs.ty then pure (.binary fop lhs.ty lhs rhs)
  else if isUnsignedIntegerWithVector lhs.ty then pure (.binary uop lhs.ty lhs rhs)
  else if isIntegerWithVector lhs.ty then pure (.binary sop lhs.ty lhs rhs)
  else throw "expected int or float"

def div := floatUnsignedSigned .divF .divUI .divSI
def rem := floatUnsignedSigned .remF .remUI .remSI
def min := floatUnsignedSigned .minF .minUI .minSI
def max := floatUnsignedSigned .maxF .maxUI .maxSI

def unsignedSigned (uop sop : BinOp) (lhs rhs : Expr) : Except String Expr := do
  expect (lhs.ty == rhs.ty) "expected same type"
  if isUnsignedIntegerWithVector lhs.ty then pure (.binary uop lhs.ty lhs rhs)
  else if isIntegerWithVector lhs.ty then pure (.binary sop lhs.ty lhs rhs)
  else throw "expected int"

def ceilDiv := unsignedSigned .ceilDivUI .ceilDivSI
def floorDiv := unsignedSigned .divUI .floorDivSI

def copySign (rem dividend : Expr) : Except String Expr := do
  expect (rem.ty == dividend.ty) "expected same type"
  if isFloatWithVector rem.ty then pure (.binary .copySign rem.ty rem dividend)
  else throw "expected float"

def floatUnary (op : UnOp) (val : Expr) : Except String Expr :=
  if isFloatWithVector val.ty then pure (.unary op val.ty val) else throw "expected float"

def exp := floatUnary .exp
def exp2 := floatUnary .exp2
def log := floatUnary .log
def log2 := floatUnary .log2
def sqrt := floatUnary .sqrt
def ceil := floatUnary .ceil
def floor := floatUnary .floor

def pow (base exp : Expr) : Except String Expr :=
  if isFloatWithVector base.ty then pure (.binary .powF base.ty base exp)
  else throw "expected base float"

def createArithCmpI (lhs rhs : Expr) (pred : CmpIPredicate) : Except String Expr := do
  expect (lhs.ty == rhs.ty) "Operands should have the same type"
  expect (isIntegerWithVector lhs.ty) "expected int"
  pure (.binary (.cmpI pred) (boolLike lhs.ty) lhs rhs)

def createArithCmpF (lhs rhs : Expr) (pred : CmpFPredicate) : Except String Expr := do
  expect (lhs.ty == rhs.ty) "Operands should have the same type"
  expect (isFloatWithVector lhs.ty) "expected float"
  pure (.binary (.cmpF pred) (boolLike lhs.ty) lhs rhs)

def compareIntOrFloat (ip : CmpIPredicate) (fp : CmpFPredicate) (lhs rhs : Expr) :
    Except String Expr := do
  expect (lhs.ty == rhs.ty) "expected same type"
  if isIntegerWithVector lhs.ty then createArithCmpI lhs rhs ip
  else if isFloatWithVector lhs.ty then createArithCmpF lhs rhs fp
  else throw "expected int or float"

def sgt := compareIntOrFloat .sgt .ogt
def sge := compareIntOrFloat .sge .oge
def slt := compareIntOrFloat .slt .olt
def sle := compareIntOrFloat .sle .ole
def eq := compareIntOrFloat .eq .oeq
def neq := compareIntOrFloat .ne .one

def compareUnsigned (ip : CmpIPredicate) (lhs rhs : Expr) : Except String Expr := do
  expect (lhs.ty == rhs.ty) "expected same type"
  if isUnsignedIntegerWithVector lhs.ty then createArithCmpI lhs rhs ip
  else throw "expected unsigned int"

def ugt := compareUnsigned .ugt
def uge := compareUnsigned .uge
def ult := compareUnsigned .ult
def ule := compareUnsigned .ule

def compareOrdered (up sp : CmpIPredicate) (fp : CmpFPredicate) (lhs rhs : Expr) :
    Except String Expr :=
  if isUnsignedIntegerWithVector lhs.ty then compareUnsigned up lhs rhs
  else compareIntOrFloat sp fp lhs rhs

def gt := compareOrdered .ugt .sgt .ogt
def ge := compareOrdered .uge .sge .oge
def lt := compareOrdered .ult .slt .olt
def le := compareOrdered .ule .sle .ole

def select (cmp lhs rhs : Expr) : Except String Expr := do
  expect (lhs.ty == rhs.ty) "expected same type"
  pure (.select lhs.ty cmp lhs rhs)

def fitsInt64 (val : Int) : Bool := -2 ^ 63 ≤ val && val < 2 ^ 63

/-- `APInt(width, (int64_t)val)`: the 64-bit pattern of `val`, truncated to `width` bits,
or zero-extended past 64 bits since `isSigned` defaults to false. -/
def apInt (width : Nat) (val : Int) : Nat := bitsOf 64 val % 2 ^ width

def scalarConstant (elementType : ElemType) (val : Int) : Except String Expr :=
  match elementType with
  | .float .f16 | .float .f32 | .float .f64 => pure (.constantF (.scalar elementType) val)
  | .integer width sign => do
    expect (fitsInt64 val) "value is ambiguous"
    if width = 1 then pure (.constant (.scalar (.integer 1 .signless)) (if val ≠ 0 then 1 else 0))
    else if sign = .unsigned then
      castToUnsigned (.constant (.scalar (.integer width .signless)) (apInt width val)) width
    else pure (.constant (.scalar (.integer width sign)) (apInt width val))
  | .index => pure (.constant (.scalar .index) (bitsOf 64 val))
  | _ => throw "unsupported element type"

/-- `MathBuilder::constant`; vector types splat the scalar constant. -/
def constant (type : Ty) (val : Int) : Except String Expr := do
  let constant ← scalarConstant type.elem val
  match type with
  | .vector _ _ => pure (splat type constant)
  | .scalar _ => pure constant

def constantIndex (val : Int) : Expr := .constant (.scalar .index) (bitsOf 64 val)

inductive InfAttr
  | floatInf (kind : FloatKind) (negative : Bool)
  | integer (type : ElemType) (bits : Nat)
  deriving DecidableEq, Repr

/-- The `switch` on the width of an integer type: the `std::numeric_limits` value of the signed
(for signless and signed types) or the unsigned integer of that width. -/
def integerLimit (width : Nat) (isSignlessOrSigned : Bool) (signedLimit unsignedLimit : Int) :
    Except String Int :=
  if width = 8 ∨ width = 16 ∨ width = 32 ∨ width = 64 then
    pure (if isSignlessOrSigned then signedLimit else unsignedLimit)
  else throw "unsupported element type"

def infAttr (negative : Bool) (signedLimit unsignedLimit : Nat → Int) (type : Ty) :
    Except String InfAttr :=
  match type with
  | .scalar (.float .f32) => pure (.floatInf .f32 negative)
  | .scalar (.float .f64) => pure (.floatInf .f64 negative)
  | .scalar (.integer width sign) => do
    let value ← integerLimit width (sign == .signless || sign == .signed) (signedLimit width)
      (unsignedLimit width)
    pure (.integer (.integer width sign) (apInt width value))
  | _ => throw "unsupported element type"

def negativeInfAttr := infAttr true (fun w => -2 ^ (w - 1)) (fun _ => 0)

def positiveInfAttr := infAttr false (fun w => 2 ^ (w - 1) - 1) (fun w => 2 ^ w - 1)

def neg (val : Expr) : Except String Expr := do
  if isIntegerWithVector val.ty then
    let zero ← constant val.ty 0
    sub zero val
  else if isFloatWithVector val.ty then pure (.unary .negF val.ty val)
  else throw "expected int or float"

def fma (lhs rhs acc : Expr) : Except String Expr := do
  expect (lhs.ty == rhs.ty && rhs.ty == acc.ty) "expected same type"
  if isFloatWithVector lhs.ty && !lhs.ty.isaFloat then pure (.fma lhs.ty lhs rhs acc)
  else do
    let prod ← mul lhs rhs
    add prod acc

def castToBool (src : Expr) (srcType : Ty) : Except String Expr := do
  let srcElemType := elementTypeWithVector srcType
  if srcElemType.isaInteger && !srcElemType.isSignlessInteger then do
    let srcElemWidth := srcElemType.getIntOrFloatBitWidth
    let src ← castToSignless src srcElemWidth
    let zero ← constant
      (getTypeWithVector srcType.vectorShape? (.scalar (.integer srcElemWidth .signless))) 0
    neq src zero
  else do
    let zero ← constant srcType 0
    neq src zero

def castIntToInt (src : Expr) (srcType destType : Ty) (destIsIndex : Bool) :
    Except String Expr := do
  let srcElemWidth := srcType.getIntOrFloatBitWidth
  let destElemWidth := destType.getIntOrFloatBitWidth
  let bitExtend := srcElemWidth < destElemWidth
  let bitTrunc := srcElemWidth > destElemWidth
  if srcType.isUnsignedInteger then
    if srcElemWidth = destElemWidth && destType.isSignlessInteger then
      castToSignless src srcElemWidth
    else do
      expect (bitExtend || bitTrunc) "expected extend or trunc"
      let cast ← castToSignless src srcElemWidth
      let castType := Ty.scalar (.integer destElemWidth .signless)
      let cast := if bitExtend then Expr.unary .extUI castType cast
        else Expr.unary .truncI castType cast
      if destType.isUnsignedInteger then castToUnsigned cast destElemWidth else pure cast
  else
    if srcElemWidth = destElemWidth && destType.isUnsignedInteger then
      castToUnsigned src srcElemWidth
    else
      let dest := if bitExtend then Expr.unary .extSI destType src
        else if bitTrunc then Expr.unary .truncI destType src else src
      if destIsIndex then pure (.unary .indexCast (.scalar .index) dest)
      else if destType.isUnsignedInteger then castToUnsigned dest destElemWidth
      else pure dest

/-- The body of `cast` after index types were replaced by `i64`; `savedDestType` is the
requested type, kept for the final conversion back to `index`. -/
def castNormalized (src : Expr) (srcType destType savedDestType : Ty) (destIsIndex : Bool) :
    Except String Expr := do
  let srcElemType := elementTypeWithVector srcType
  let destElemType := elementTypeWithVector destType
  expect (srcElemType.isaInteger || srcElemType.isaFloat) "support only float or int"
  expect (destElemType.isaInteger || destElemType.isaFloat) "support only float or int"
  let srcElemWidth := srcElemType.getIntOrFloatBitWidth
  let destElemWidth := destElemType.getIntOrFloatBitWidth
  let bitExtend := srcElemWidth < destElemWidth
  let bitTrunc := srcElemWidth > destElemWidth
  if srcElemType.isInteger 1 then
    if destElemType.isaFloat then pure (.unary .uiToFP destType src)
    else
      let dest := Expr.unary .extUI destType src
      pure (if destIsIndex then .unary .indexCast savedDestType dest else dest)
  else if destElemType.isInteger 1 then castToBool src srcType
  else if srcElemType.isaFloat && destElemType.isaFloat then do
    expect (bitExtend || bitTrunc) "expected extend or trunc"
    pure (if bitExtend then .unary .extF destType src else .unary .truncF destType src)
  else if srcElemType.isaFloat && destElemType.isaInteger then
    if destType.isUnsignedInteger then
      castToUnsigned (.unary .fpToUI (.scalar (.integer destElemWidth .signless)) src)
        destElemWidth
    else
      let dest := Expr.unary .fpToSI destType src
      pure (if destIsIndex then .unary .indexCast savedDestType dest else dest)
  else if srcElemType.isaInteger && destElemType.isaFloat then
    if srcElemType.isUnsignedInteger then do
      let cast ← castToSignless src srcElemWidth
      pure (.unary .uiToFP destType cast)
    else pure (.unary .siToFP destType src)
  else if srcType.isaInteger && destType.isaInteger then
    castIntToInt src srcType destType destIsIndex
  else throw "unsupported element type"

def i64Like (vecType : Option (List Nat)) : Ty :=
  getTypeWithVector vecType (.scalar (.integer 64 .signless))

/-- `MathBuilder::cast`, after the conversions of `MLIR TosaToLinalg`. -/
def cast (destType : Ty) (src : Expr) : Except String Expr := do
  let srcVecType := src.ty.vectorShape?
  let destVecType := destType.vectorShape?
  expect (srcVecType.isSome == destVecType.isSome) "expect both to be scalars or vectors"
  if src.ty = destType then pure src
  else
    let src' := if (elementTypeWithVector src.ty).isaIndex
      then Expr.unary .indexCast (i64Like srcVecType) src else src
    let destIsIndex := (elementTypeWithVector destType).isaIndex
    castNormalized src' src'.ty (if destIsIndex then i64Like destVecType else destType)
      destType destIsIndex

def castToIndex (src : Expr) : Except String Expr := cast (.scalar .index) src

end DialectBuilder.MathBuilder
