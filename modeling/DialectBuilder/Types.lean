import Mathlib.Data.Nat.Defs
import Mathlib.Algebra.BigOperators.Group.Finset
import Mathlib.Tactic.Ring
import Mathlib.Tactic.Linarith

namespace DialectBuilder.Types

inductive Signedness
  | signless
  | signed
  | unsigned
  deriving DecidableEq, Repr

inductive FloatKind
  | f16
  | bf16
  | f32
  | f64
  deriving DecidableEq, Repr

def FloatKind.width : FloatKind → Nat
  | .f16 => 16
  | .bf16 => 16
  | .f32 => 32
  | .f64 => 64

/-- Element types the builders dispatch on: `IntegerType`, `FloatType` and `IndexType`. -/
inductive ElemType
  | integer (width : Nat) (sign : Signedness)
  | float (kind : FloatKind)
  | index
  deriving DecidableEq, Repr

def indexWidth : Nat := 64

def ElemType.bitWidth : ElemType → Nat
  | .integer w _ => w
  | .float k => k.width
  | .index => indexWidth

@[simp] theorem ElemType.bitWidth_integer (w : Nat) (s : Signedness) :
    (ElemType.integer w s).bitWidth = w := rfl

@[simp] theorem ElemType.bitWidth_index : ElemType.index.bitWidth = 64 := rfl

@[simp] theorem ElemType.bitWidth_float (k : FloatKind) :
    (ElemType.float k).bitWidth = k.width := rfl

/-- A scalar type, or a `VectorType` given by its shape and element type. -/
inductive Ty
  | scalar (e : ElemType)
  | vector (shape : List Nat) (e : ElemType)
  deriving DecidableEq, Repr

namespace Ty

def elem : Ty → ElemType
  | scalar e => e
  | vector _ e => e

def laneCount : Ty → Nat
  | scalar _ => 1
  | vector shape _ => shape.prod

def bitWidth (t : Ty) : Nat := t.elem.bitWidth

/-- `type.dyn_cast<VectorType>()`; only the shape is ever read back. -/
def vectorShape? : Ty → Option (List Nat)
  | scalar _ => none
  | vector shape _ => some shape

def isaInteger : Ty → Bool
  | scalar (.integer _ _) => true
  | _ => false

def isaFloat : Ty → Bool
  | scalar (.float _) => true
  | _ => false

def isaIndex : Ty → Bool
  | scalar .index => true
  | _ => false

def isUnsignedInteger : Ty → Bool
  | scalar (.integer _ .unsigned) => true
  | _ => false

def isSignlessInteger : Ty → Bool
  | scalar (.integer _ .signless) => true
  | _ => false

def signlessLike (t : Ty) : Bool :=
  match t.elem with
  | .integer _ .signless | .index => true
  | _ => false

def isInteger (width : Nat) : Ty → Bool
  | scalar (.integer w _) => w == width
  | _ => false

/-- `getIntOrFloatBitWidth`, called only once a type is known to be an integer or a float. -/
def getIntOrFloatBitWidth : Ty → Nat
  | scalar (.integer w _) => w
  | scalar (.float k) => k.width
  | _ => 0

@[simp] theorem elem_scalar (e : ElemType) : (scalar e).elem = e := rfl
@[simp] theorem elem_vector (s : List Nat) (e : ElemType) : (vector s e).elem = e := rfl
@[simp] theorem bitWidth_eq (t : Ty) : t.bitWidth = t.elem.bitWidth := rfl
@[simp] theorem vectorShape_scalar (e : ElemType) : (scalar e).vectorShape? = none := rfl
@[simp] theorem vectorShape_vector (s : List Nat) (e : ElemType) :
    (vector s e).vectorShape? = some s := rfl
@[simp] theorem laneCount_scalar (e : ElemType) : (scalar e).laneCount = 1 := rfl
@[simp] theorem laneCount_vector (s : List Nat) (e : ElemType) :
    (vector s e).laneCount = s.prod := rfl

end Ty

def elementTypeWithVector : Ty → Ty
  | .vector _ e => .scalar e
  | t => t

def getTypeWithVector (vectorType : Option (List Nat)) (elementType : Ty) : Ty :=
  match vectorType with
  | some shape => .vector shape elementType.elem
  | none => elementType

def isIntegerWithVector (t : Ty) : Bool :=
  (elementTypeWithVector t).isaInteger || (elementTypeWithVector t).isaIndex

def isUnsignedIntegerWithVector (t : Ty) : Bool :=
  (elementTypeWithVector t).isUnsignedInteger

def isFloatWithVector (t : Ty) : Bool :=
  (elementTypeWithVector t).isaFloat

@[simp] theorem elementTypeWithVector_eq (t : Ty) :
    elementTypeWithVector t = .scalar t.elem := by
  cases t <;> rfl

@[simp] theorem getTypeWithVector_none (t : Ty) : getTypeWithVector none t = t := rfl

@[simp] theorem getTypeWithVector_some (s : List Nat) (t : Ty) :
    getTypeWithVector (some s) t = .vector s t.elem := rfl

theorem getTypeWithVector_self (t : Ty) :
    getTypeWithVector t.vectorShape? (.scalar t.elem) = t := by
  cases t <;> rfl

@[simp] theorem elem_getTypeWithVector (v : Option (List Nat)) (e : ElemType) :
    (getTypeWithVector v (.scalar e)).elem = e := by
  cases v <;> rfl

@[simp] theorem vectorShape_getTypeWithVector (v : Option (List Nat)) (e : ElemType) :
    (getTypeWithVector v (.scalar e)).vectorShape? = v := by
  cases v <;> rfl

theorem isIntegerWithVector_iff (t : Ty) :
    isIntegerWithVector t = true ↔ (∃ w s, t.elem = .integer w s) ∨ t.elem = .index := by
  simp only [isIntegerWithVector, elementTypeWithVector_eq, Bool.or_eq_true]
  cases t.elem <;> simp [Ty.isaInteger, Ty.isaIndex]

theorem isUnsignedIntegerWithVector_iff (t : Ty) :
    isUnsignedIntegerWithVector t = true ↔ ∃ w, t.elem = .integer w .unsigned := by
  simp only [isUnsignedIntegerWithVector, elementTypeWithVector_eq]
  rcases t.elem with ⟨w, _ | _ | _⟩ | _ | _ <;> simp [Ty.isUnsignedInteger]

theorem isFloatWithVector_iff (t : Ty) :
    isFloatWithVector t = true ↔ ∃ k, t.elem = .float k := by
  simp only [isFloatWithVector, elementTypeWithVector_eq]
  cases t.elem <;> simp [Ty.isaFloat]

theorem elem_ne_unsigned {t : Ty} (h : isUnsignedIntegerWithVector t = false) :
    ∀ w, t.elem ≠ .integer w .unsigned := fun w hw =>
  Bool.false_ne_true (h ▸ (isUnsignedIntegerWithVector_iff t).2 ⟨w, hw⟩)

theorem isFloatWithVector_of_integer {t : Ty} (h : isIntegerWithVector t = true) :
    isFloatWithVector t = false := by
  rcases (isIntegerWithVector_iff t).1 h with ⟨w, s, hw⟩ | hw <;>
    simp [isFloatWithVector, hw, Ty.isaFloat]

end DialectBuilder.Types
