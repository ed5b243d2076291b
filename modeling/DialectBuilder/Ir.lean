import DialectBuilder.Types
import Mathlib.Algebra.Order.Group.Int
import Mathlib.Data.Int.Defs

namespace DialectBuilder.Ir

open DialectBuilder.Types

inductive CmpIPredicate
  | eq | ne | slt | sle | sgt | sge | ult | ule | ugt | uge
  deriving DecidableEq, Repr

inductive CmpFPredicate
  | oeq | one | olt | ole | ogt | oge
  deriving DecidableEq, Repr

inductive UnOp
  | absI | absF | negF | ceil | floor | sqrt | exp | exp2 | log | log2
  | extUI | extSI | truncI | indexCast | uiToFP | siToFP | fpToUI | fpToSI | extF | truncF
  | unrealizedConversionCast
  deriving DecidableEq, Repr

/-- Two-operand operations; the extended ops stand for the result the builders keep
(`getSum()` of `arith.addui_extended`, `getLow()` of `arith.mului_extended`). -/
inductive BinOp
  | addI | subI | mulI | divSI | divUI | remSI | remUI | ceilDivSI | ceilDivUI | floorDivSI
  | minSI | minUI | maxSI | maxUI | andI | orI | xorI
  | addUIExtended | mulUIExtended
  | cmpI (pred : CmpIPredicate)
  | addF | subF | mulF | divF | remF | minF | maxF | powF | copySign
  | cmpF (pred : CmpFPredicate)
  deriving DecidableEq, Repr

/-- An SSA value as the tree of operations that produced it. Each node carries the
result type it was created with; `arg` is a value the caller passed in. -/
inductive Expr
  | arg (id : Nat) (ty : Ty)
  | constant (ty : Ty) (bits : Nat)
  | constantF (ty : Ty) (val : Int)
  | unary (op : UnOp) (ty : Ty) (a : Expr)
  | binary (op : BinOp) (ty : Ty) (a b : Expr)
  | select (ty : Ty) (c a b : Expr)
  | fma (ty : Ty) (a b c : Expr)
  | splat (ty : Ty) (a : Expr)
  | shuffle (ty : Ty) (mask : List Nat) (a b : Expr)
  deriving DecidableEq, Repr

def Expr.ty : Expr → Ty
  | arg _ t | constant t _ | constantF t _ | unary _ t _ | binary _ t _ _
  | select t _ _ _ | fma t _ _ _ | splat t _ | shuffle t _ _ _ => t

namespace Expr

@[simp] theorem ty_arg (id : Nat) (t : Ty) : (arg id t).ty = t := rfl
@[simp] theorem ty_constant (t : Ty) (bits : Nat) : (constant t bits).ty = t := rfl
@[simp] theorem ty_constantF (t : Ty) (val : Int) : (constantF t val).ty = t := rfl
@[simp] theorem ty_unary (op : UnOp) (t : Ty) (a : Expr) : (unary op t a).ty = t := rfl
@[simp] theorem ty_binary (op : BinOp) (t : Ty) (a b : Expr) : (binary op t a b).ty = t := rfl
@[simp] theorem ty_select (t : Ty) (c a b : Expr) : (select t c a b).ty = t := rfl
@[simp] theorem ty_fma (t : Ty) (a b c : Expr) : (fma t a b c).ty = t := rfl
@[simp] theorem ty_splat (t : Ty) (a : Expr) : (splat t a).ty = t := rfl
@[simp] theorem ty_shuffle (t : Ty) (mask : List Nat) (a b : Expr) :
    (shuffle t mask a b).ty = t := rfl

end Expr

def UnOp.typesOk (op : UnOp) (a t : Ty) : Bool :=
  match op with
  | .absI | .extUI | .extSI | .truncI | .indexCast => a.signlessLike && t.signlessLike
  | .uiToFP | .siToFP => a.signlessLike
  | .fpToUI | .fpToSI => t.signlessLike
  | _ => true

def BinOp.typesOk (op : BinOp) (a b t : Ty) : Bool :=
  match op with
  | .addF | .subF | .mulF | .divF | .remF | .minF | .maxF | .powF | .copySign | .cmpF _ => true
  | .cmpI _ => a.signlessLike && b.signlessLike
  | _ => a.signlessLike && b.signlessLike && t.signlessLike

/-- Every integer op of the tree has signless or `index` operands and results. -/
def Expr.signlessTyped : Expr → Bool
  | arg _ _ => true
  | constant t _ => t.signlessLike
  | constantF _ _ => true
  | unary op t a => op.typesOk a.ty t && a.signlessTyped
  | binary op t a b => op.typesOk a.ty b.ty t && a.signlessTyped && b.signlessTyped
  | select _ c a b => c.signlessTyped && a.signlessTyped && b.signlessTyped
  | fma _ a b c => a.signlessTyped && b.signlessTyped && c.signlessTyped
  | splat _ a => a.signlessTyped
  | shuffle _ _ a b => a.signlessTyped && b.signlessTyped

/-- Floating-point semantics on bit patterns, left as a parameter. -/
structure FloatSemantics where
  unary : UnOp → ElemType → ElemType → Nat → Nat
  binary : BinOp → ElemType → Nat → Nat → Nat
  fma : ElemType → Nat → Nat → Nat → Nat
  constant : ElemType → Int → Nat

def signedOf (w x : Nat) : Int := Int.bmod x (2 ^ w)

def bitsOf (w : Nat) (i : Int) : Nat := (i % (2 ^ w : Nat)).toNat

theorem bitsOf_coe (w : Nat) (i : Int) : (bitsOf w i : Int) = i % (2 ^ w : Nat) :=
  Int.toNat_of_nonneg (Int.emod_nonneg _ (by positivity))

theorem bitsOf_lt (w : Nat) (i : Int) : bitsOf w i < 2 ^ w := by
  have h := Int.emod_lt_of_pos i (show (0 : Int) < (2 ^ w : Nat) by positivity)
  rw [← bitsOf_coe] at h
  exact_mod_cast h

theorem bitsOf_signedOf {w x : Nat} (hx : x < 2 ^ w) : bitsOf w (signedOf w x) = x := by
  have : ((bitsOf w (signedOf w x) : Nat) : Int) = x := by
    rw [bitsOf_coe, signedOf, Int.bmod_emod, Int.emod_eq_of_lt (by omega) (by exact_mod_cast hx)]
  exact_mod_cast this

theorem bitsOf_mod {ws wd : Nat} (h : ws ≤ wd) (i : Int) : bitsOf wd i % 2 ^ ws = bitsOf ws i := by
  have : ((bitsOf wd i % 2 ^ ws : Nat) : Int) = bitsOf ws i := by
    push_cast [bitsOf_coe]
    exact Int.emod_emod_of_dvd i (by exact_mod_cast Nat.pow_dvd_pow 2 h)
  exact_mod_cast this

theorem bitsOf_natCast (w n : Nat) : bitsOf w n = n % 2 ^ w := by
  rw [bitsOf, ← Int.ofNat_emod, Int.toNat_ofNat]

theorem bitsOf_sub_signedOf (w x y : Nat) :
    bitsOf w (signedOf w x - signedOf w y) = bitsOf w ((x : Int) - y) := by
  unfold bitsOf signedOf
  rw [Int.sub_emod, Int.bmod_emod, Int.bmod_emod, ← Int.sub_emod]

def ceilDivU (a b : Nat) : Nat := if a = 0 then 0 else (a - 1) / b + 1

def ceilDivS (a b : Int) : Int := -Int.fdiv (-a) b

def CmpIPredicate.holds (w a b : Nat) : CmpIPredicate → Bool
  | eq => a == b
  | ne => a != b
  | slt => signedOf w a < signedOf w b
  | sle => signedOf w a ≤ signedOf w b
  | sgt => signedOf w b < signedOf w a
  | sge => signedOf w b ≤ signedOf w a
  | ult => a < b
  | ule => a ≤ b
  | ugt => b < a
  | uge => b ≤ a

def UnOp.eval (F : FloatSemantics) (op : UnOp) (src dst : ElemType) (x : Nat) : Nat :=
  match op with
  | absI => bitsOf dst.bitWidth (signedOf src.bitWidth x).natAbs
  | extUI | truncI | unrealizedConversionCast => x
  | extSI | indexCast => bitsOf dst.bitWidth (signedOf src.bitWidth x)
  | op => F.unary op src dst x

def BinOp.eval (F : FloatSemantics) (op : BinOp) (src : ElemType) (a b : Nat) : Nat :=
  let w := src.bitWidth
  match op with
  | addI | addUIExtended => a + b
  | subI => bitsOf w (a - b)
  | mulI | mulUIExtended => a * b
  | divSI => bitsOf w (Int.tdiv (signedOf w a) (signedOf w b))
  | divUI => a / b
  | remSI => bitsOf w (Int.tmod (signedOf w a) (signedOf w b))
  | remUI => a % b
  | ceilDivSI => bitsOf w (ceilDivS (signedOf w a) (signedOf w b))
  | ceilDivUI => ceilDivU a b
  | floorDivSI => bitsOf w (Int.fdiv (signedOf w a) (signedOf w b))
  | minSI => bitsOf w (min (signedOf w a) (signedOf w b))
  | minUI => min a b
  | maxSI => bitsOf w (max (signedOf w a) (signedOf w b))
  | maxUI => max a b
  | andI => a &&& b
  | orI => a ||| b
  | xorI => a ^^^ b
  | cmpI p => if p.holds w a b then 1 else 0
  | op => F.binary op src a b

section

variable (F : FloatSemantics) (s d : ElemType) (x a b : Nat)

@[simp] theorem UnOp.eval_absI :
    UnOp.eval F .absI s d x = bitsOf d.bitWidth (signedOf s.bitWidth x).natAbs := rfl
@[simp] theorem UnOp.eval_extUI : UnOp.eval F .extUI s d x = x := rfl
@[simp] theorem UnOp.eval_truncI : UnOp.eval F .truncI s d x = x := rfl
@[simp] theorem UnOp.eval_unrealizedConversionCast :
    UnOp.eval F .unrealizedConversionCast s d x = x := rfl
@[simp] theorem UnOp.eval_extSI :
    UnOp.eval F .extSI s d x = bitsOf d.bitWidth (signedOf s.bitWidth x) := rfl
@[simp] theorem UnOp.eval_indexCast :
    UnOp.eval F .indexCast s d x = bitsOf d.bitWidth (signedOf s.bitWidth x) := rfl

@[simp] theorem BinOp.eval_addI : BinOp.eval F .addI s a b = a + b := rfl
@[simp] theorem BinOp.eval_addUIExtended : BinOp.eval F .addUIExtended s a b = a + b := rfl
@[simp] theorem BinOp.eval_mulI : BinOp.eval F .mulI s a b = a * b := rfl
@[simp] theorem BinOp.eval_mulUIExtended : BinOp.eval F .mulUIExtended s a b = a * b := rfl
@[simp] theorem BinOp.eval_subI : BinOp.eval F .subI s a b = bitsOf s.bitWidth (a - b) := rfl
@[simp] theorem BinOp.eval_cmpI (p : CmpIPredicate) :
    BinOp.eval F (.cmpI p) s a b = if p.holds s.bitWidth a b then 1 else 0 := rfl

end

variable (F : FloatSemantics) (ρ : Nat → Nat → Nat)

/-- Lane `k` of a value, for the inputs `ρ` (argument, lane ↦ bits). Every node's
result is reduced to the width of its type. -/
def Expr.eval : Expr → Nat → Nat
  | arg id t, k => ρ id k % 2 ^ t.bitWidth
  | constant t bits, _ => bits % 2 ^ t.bitWidth
  | constantF t val, _ => F.constant t.elem val % 2 ^ t.bitWidth
  | unary op t a, k => UnOp.eval F op a.ty.elem t.elem (a.eval k) % 2 ^ t.bitWidth
  | binary op t a b, k => BinOp.eval F op a.ty.elem (a.eval k) (b.eval k) % 2 ^ t.bitWidth
  | select t c a b, k =>
    (if c.eval (if c.ty.vectorShape?.isSome then k else 0) = 1 then a.eval k else b.eval k)
      % 2 ^ t.bitWidth
  | fma t a b c, k => F.fma t.elem (a.eval k) (b.eval k) (c.eval k) % 2 ^ t.bitWidth
  | splat t a, _ => a.eval 0 % 2 ^ t.bitWidth
  | shuffle t mask a b, k =>
    (if mask.getD k 0 < a.ty.laneCount then a.eval (mask.getD k 0)
      else b.eval (mask.getD k 0 - a.ty.laneCount)) % 2 ^ t.bitWidth

theorem Expr.eval_lt (e : Expr) (k : Nat) : e.eval F ρ k < 2 ^ e.ty.bitWidth := by
  cases e <;> exact Nat.mod_lt _ (Nat.two_pow_pos _)

@[simp] theorem Expr.eval_mod (e : Expr) (k : Nat) :
    e.eval F ρ k % 2 ^ e.ty.bitWidth = e.eval F ρ k :=
  Nat.mod_eq_of_lt (e.eval_lt F ρ k)

theorem Expr.eval_mod_of_width {e : Expr} {w : Nat} (h : e.ty.elem.bitWidth = w) (k : Nat) :
    e.eval F ρ k % 2 ^ w = e.eval F ρ k := by
  rw [← h]; exact e.eval_mod F ρ k

end DialectBuilder.Ir
