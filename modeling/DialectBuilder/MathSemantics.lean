import DialectBuilder.MathBuilder

namespace DialectBuilder.MathSemantics

open DialectBuilder.Types DialectBuilder.Ir DialectBuilder.MathBuilder DialectBuilder.Vector

variable (F : FloatSemantics) (ρ : Nat → Nat → Nat)

theorem castToSignless_eq {a : Expr}
    (h : ((Ty.scalar a.ty.elem).isaInteger && !(Ty.scalar a.ty.elem).isSignlessInteger) = true)
    (w : Nat) :
    castToSignless a w = .ok (.unary .unrealizedConversionCast
      (getTypeWithVector a.ty.vectorShape? (.scalar (.integer w .signless))) a) := by
  simp [castToSignless, h]

theorem castToUnsigned_eq {a : Expr} (h : (Ty.scalar a.ty.elem).isaInteger = true) (w : Nat) :
    castToUnsigned a w = .ok (.unary .unrealizedConversionCast
      (getTypeWithVector a.ty.vectorShape? (.scalar (.integer w .unsigned))) a) := by
  simp [castToUnsigned, h]

def signlessOf (t : Ty) (w : Nat) : Ty :=
  getTypeWithVector t.vectorShape? (.scalar (.integer w .signless))

theorem getTypeWithVector_of_elem {t : Ty} {e : ElemType} (h : t.elem = e) :
    getTypeWithVector t.vectorShape? (.scalar e) = t := h ▸ getTypeWithVector_self t

@[simp] theorem eval_unrealized (t : Ty) (a : Expr) (k : Nat) :
    (Expr.unary .unrealizedConversionCast t a).eval F ρ k = a.eval F ρ k % 2 ^ t.elem.bitWidth :=
  by simp [Expr.eval]

theorem addOrMul_unsigned (iop extOp fop : BinOp) {a b : Expr} {w : Nat} (hb : b.ty = a.ty)
    (hs : a.ty.elem = .integer w .unsigned) :
    addOrMul iop extOp fop a b = .ok (.unary .unrealizedConversionCast a.ty
      (.binary extOp (signlessOf a.ty w) (.unary .unrealizedConversionCast (signlessOf a.ty w) a)
        (.unary .unrealizedConversionCast (signlessOf a.ty w) b))) := by
  simp [addOrMul, hb, isIntegerWithVector, hs, Ty.isaInteger, Ty.isUnsignedInteger,
    Ty.isSignlessInteger, Ty.getIntOrFloatBitWidth, castToSignless_eq, castToUnsigned_eq,
    signlessOf, getTypeWithVector_of_elem hs]

theorem addOrMul_signless (iop extOp fop : BinOp) {a b : Expr} (hb : b.ty = a.ty)
    (hint : isIntegerWithVector a.ty = true) (hu : isUnsignedIntegerWithVector a.ty = false) :
    addOrMul iop extOp fop a b = .ok (.binary iop a.ty a b) := by
  simp_all [addOrMul, isUnsignedIntegerWithVector]

/-- `add` and `mul` on integers of width `w` compute `g` modulo `2^w`, on the signless path and
on the unsigned emulation path alike, and keep the operand type. -/
theorem addOrMul_spec {iop extOp fop : BinOp} (g : Nat → Nat → Nat)
    (hi : ∀ s x y, BinOp.eval F iop s x y = g x y) (he : ∀ s x y, BinOp.eval F extOp s x y = g x y)
    {a b : Expr} (hb : b.ty = a.ty) (hint : isIntegerWithVector a.ty = true) :
    ∃ e, addOrMul iop extOp fop a b = .ok e ∧ e.ty = a.ty ∧
      ∀ k, e.eval F ρ k = g (a.eval F ρ k) (b.eval F ρ k) % 2 ^ a.ty.elem.bitWidth := by
  cases hu : isUnsignedIntegerWithVector a.ty
  · exact ⟨_, addOrMul_signless _ _ _ hb hint hu, rfl, fun k => by simp [Expr.eval, hi]⟩
  · obtain ⟨w, hw⟩ := (isUnsignedIntegerWithVector_iff _).1 hu
    refine ⟨_, addOrMul_unsigned _ _ _ hb hw, rfl, fun k => ?_⟩
    have hbw : b.ty.elem = .integer w .unsigned := hb ▸ hw
    simp [Expr.eval, signlessOf, hw, he, a.eval_mod_of_width F ρ (show a.ty.elem.bitWidth = w by simp [hw]),
      b.eval_mod_of_width F ρ (show b.ty.elem.bitWidth = w by simp [hbw])]

theorem add_spec {a b : Expr} (hb : b.ty = a.ty) (hint : isIntegerWithVector a.ty = true) :
    ∃ e, add a b = .ok e ∧ e.ty = a.ty ∧
      ∀ k, e.eval F ρ k = (a.eval F ρ k + b.eval F ρ k) % 2 ^ a.ty.elem.bitWidth :=
  @addOrMul_spec F ρ .addI .addUIExtended .addF (· + ·) (fun _ _ _ => rfl) (fun _ _ _ => rfl) a b hb hint

theorem mul_spec {a b : Expr} (hb : b.ty = a.ty) (hint : isIntegerWithVector a.ty = true) :
    ∃ e, mul a b = .ok e ∧ e.ty = a.ty ∧
      ∀ k, e.eval F ρ k = a.eval F ρ k * b.eval F ρ k % 2 ^ a.ty.elem.bitWidth :=
  @addOrMul_spec F ρ .mulI .mulUIExtended .mulF (· * ·) (fun _ _ _ => rfl) (fun _ _ _ => rfl) a b hb hint

theorem fma_int_spec {a b c : Expr} (hb : b.ty = a.ty) (hc : c.ty = a.ty)
    (hint : isIntegerWithVector a.ty = true) :
    ∃ e, MathBuilder.fma a b c = .ok e ∧ e.ty = a.ty ∧
      ∀ k, e.eval F ρ k = (a.eval F ρ k * b.eval F ρ k + c.eval F ρ k) % 2 ^ a.ty.elem.bitWidth := by
  obtain ⟨p, hp, hpt, hpv⟩ := mul_spec F ρ hb hint
  obtain ⟨e, he, het, hev⟩ := add_spec F ρ (hc.trans hpt.symm) (hpt ▸ hint)
  refine ⟨e, by simp [MathBuilder.fma, hb, hc, isFloatWithVector_of_integer hint, hp, he],
    het.trans hpt, fun k => ?_⟩
  rw [hev, hpv, hpt, Nat.mod_add_mod]

theorem scalarConstant_integer {w : Nat} {s : Signedness} {v : Int} (hv : fitsInt64 v = true)
    (hw : w ≠ 1) (hs : s ≠ .unsigned) :
    scalarConstant (.integer w s) v = .ok (.constant (.scalar (.integer w s)) (apInt w v)) := by
  simp [scalarConstant, hv, hw, hs]

theorem constant_scalar (e : ElemType) (v : Int) : constant (.scalar e) v = scalarConstant e v := by
  simp only [constant, Ty.elem_scalar]
  cases scalarConstant e v <;> rfl

theorem apInt_of_le {w : Nat} (h : w ≤ 64) (v : Int) : apInt w v = bitsOf w v := bitsOf_mod h v

/-- `constant` of an integer type other than a one-bit one, scalar or vector, holds the
pattern `apInt` builds in every lane, and has the requested type. -/
theorem constant_spec {t : Ty} {v : Int} (hint : isIntegerWithVector t = true)
    (hw : t.elem.bitWidth ≠ 1) (hv : fitsInt64 v = true) :
    ∃ e, constant t v = .ok e ∧ e.ty = t ∧ ∀ k, e.eval F ρ k = apInt t.elem.bitWidth v := by
  have hc : ∃ c, scalarConstant t.elem v = .ok c ∧ c.ty = .scalar t.elem ∧
      ∀ k, c.eval F ρ k = apInt t.elem.bitWidth v := by
    rcases (isIntegerWithVector_iff t).1 hint with ⟨w, s, hws⟩ | hidx
    · rw [hws] at hw ⊢
      cases s
      case unsigned =>
        have hw' : w ≠ 1 := by simpa using hw
        exact ⟨.unary .unrealizedConversionCast (.scalar (.integer w .unsigned))
          (.constant (.scalar (.integer w .signless)) (apInt w v)),
          by simp [scalarConstant, hv, hw',
            @castToUnsigned_eq (.constant (.scalar (.integer w .signless)) (apInt w v)) rfl w], rfl,
          fun k => by simp [Expr.eval, apInt]⟩
      all_goals exact ⟨_, scalarConstant_integer hv hw (by simp), rfl,
        fun k => by simp [Expr.eval, apInt]⟩
    · rw [hidx]
      exact ⟨_, rfl, rfl, fun k => by simp [Expr.eval, apInt, Nat.mod_eq_of_lt (bitsOf_lt _ _)]⟩
  obtain ⟨c, hc, hct, hcv⟩ := hc
  cases t with
  | scalar e => exact ⟨c, (constant_scalar e v).trans hc, hct, hcv⟩
  | vector sh e =>
    simp only [Ty.elem_vector] at hc hcv
    refine ⟨splat (.vector sh e) c, by simp [constant, hc], rfl, fun k => ?_⟩
    simp [splat, Expr.eval, hcv, apInt]

theorem compareIntOrFloat_int {ip : CmpIPredicate} {fp : CmpFPredicate} {a b : Expr}
    (hb : b.ty = a.ty) (hint : isIntegerWithVector a.ty = true) :
    compareIntOrFloat ip fp a b = .ok (.binary (.cmpI ip) (boolLike a.ty) a b) := by
  simp [compareIntOrFloat, createArithCmpI, hb, hint]

/-- The integer a lane of element type `e` stands for: unsigned bits read as a natural number, the
others in two's complement. -/
def laneInt : ElemType → Nat → Int
  | .integer _ .unsigned, x => x
  | e, x => signedOf e.bitWidth x

@[simp] theorem laneInt_unsigned (w x : Nat) : laneInt (.integer w .unsigned) x = x := rfl

theorem laneInt_of_not_unsigned {e : ElemType} (h : ∀ w, e ≠ .integer w .unsigned) (x : Nat) :
    laneInt e x = signedOf e.bitWidth x := by
  rcases e with ⟨w, _ | _ | _⟩ | _ | _ <;> first | rfl | exact absurd rfl (h _)

@[simp] theorem bitWidth_boolLike (t : Ty) : (boolLike t).elem.bitWidth = 1 := by
  simp [boolLike]

theorem eval_binary_cmpI (p : CmpIPredicate) (t : Ty) (a b : Expr) (k : Nat) :
    (Expr.binary (.cmpI p) (boolLike t) a b).eval F ρ k =
      if p.holds a.ty.elem.bitWidth (a.eval F ρ k) (b.eval F ρ k) then 1 else 0 := by
  simp only [Expr.eval, BinOp.eval_cmpI, Ty.bitWidth_eq, bitWidth_boolLike]
  split_ifs <;> rfl

theorem compareOrdered_spec {up sp : CmpIPredicate} {fp : CmpFPredicate} (R : Int → Int → Bool)
    (hu : ∀ w x y, up.holds w x y = R x y)
    (hs : ∀ w x y, sp.holds w x y = R (signedOf w x) (signedOf w y))
    {a b : Expr} (hb : b.ty = a.ty) (hint : isIntegerWithVector a.ty = true) :
    ∃ e, compareOrdered up sp fp a b = .ok e ∧ e.ty = boolLike a.ty ∧
      ∀ k, e.eval F ρ k =
        if R (laneInt a.ty.elem (a.eval F ρ k)) (laneInt a.ty.elem (b.eval F ρ k)) then 1 else 0 := by
  unfold compareOrdered
  cases hun : isUnsignedIntegerWithVector a.ty
  · refine ⟨.binary (.cmpI sp) (boolLike a.ty) a b, by simp [compareIntOrFloat_int hb hint], rfl,
      fun k => ?_⟩
    simp [eval_binary_cmpI, hs, laneInt_of_not_unsigned (elem_ne_unsigned hun)]
  · obtain ⟨w, hw⟩ := (isUnsignedIntegerWithVector_iff _).1 hun
    refine ⟨.binary (.cmpI up) (boolLike a.ty) a b,
      by simp [compareUnsigned, createArithCmpI, hb, hun, hint], rfl, fun k => ?_⟩
    simp [eval_binary_cmpI, hu, hw]

theorem ordered_compare_spec {a b : Expr} (hb : b.ty = a.ty) (hint : isIntegerWithVector a.ty = true) :
    let x k := laneInt a.ty.elem (a.eval F ρ k)
    let y k := laneInt a.ty.elem (b.eval F ρ k)
    (∃ e, gt a b = .ok e ∧ ∀ k, e.eval F ρ k = if y k < x k then 1 else 0) ∧
    (∃ e, ge a b = .ok e ∧ ∀ k, e.eval F ρ k = if y k ≤ x k then 1 else 0) ∧
    (∃ e, lt a b = .ok e ∧ ∀ k, e.eval F ρ k = if x k < y k then 1 else 0) ∧
    (∃ e, le a b = .ok e ∧ ∀ k, e.eval F ρ k = if x k ≤ y k then 1 else 0) := by
  intro x y
  have key : ∀ up sp fp (R : Int → Int → Bool), (∀ w (m n : Nat), up.holds w m n = R m n) →
      (∀ w m n, sp.holds w m n = R (signedOf w m) (signedOf w n)) →
      ∃ e, compareOrdered up sp fp a b = .ok e ∧ ∀ k, e.eval F ρ k = if R (x k) (y k) then 1 else 0 :=
    fun _ _ _ R hu hs =>
      let ⟨e, he, _, hev⟩ := compareOrdered_spec F ρ R hu hs hb hint
      ⟨e, he, hev⟩
  refine ⟨?_, ?_, ?_, ?_⟩
  · simpa using key .ugt .sgt .ogt (fun x y => decide (y < x)) (by simp [CmpIPredicate.holds])
      (fun _ _ _ => rfl)
  · simpa using key .uge .sge .oge (fun x y => decide (y ≤ x)) (by simp [CmpIPredicate.holds])
      (fun _ _ _ => rfl)
  · simpa using key .ult .slt .olt (fun x y => decide (x < y)) (by simp [CmpIPredicate.holds])
      (fun _ _ _ => rfl)
  · simpa using key .ule .sle .ole (fun x y => decide (x ≤ y)) (by simp [CmpIPredicate.holds])
      (fun _ _ _ => rfl)

theorem sub_spec {a b : Expr} (hb : b.ty = a.ty) (hint : isIntegerWithVector a.ty = true) :
    ∃ e, sub a b = .ok e ∧ e.ty = a.ty ∧ ∀ k, e.eval F ρ k = bitsOf a.ty.elem.bitWidth
      (laneInt a.ty.elem (a.eval F ρ k) - laneInt a.ty.elem (b.eval F ρ k)) := by
  refine ⟨.binary .subI a.ty a b, by simp [sub, hb, hint], rfl, fun k => ?_⟩
  simp only [Expr.eval, BinOp.eval_subI, Ty.bitWidth_eq, hb, Nat.mod_eq_of_lt (bitsOf_lt _ _)]
  cases hun : isUnsignedIntegerWithVector a.ty
  · rw [laneInt_of_not_unsigned (elem_ne_unsigned hun), laneInt_of_not_unsigned (elem_ne_unsigned hun),
      bitsOf_sub_signedOf]
  · obtain ⟨w, hw⟩ := (isUnsignedIntegerWithVector_iff _).1 hun
    simp [hw]

@[simp] theorem laneInt_zero (e : ElemType) : laneInt e 0 = 0 := by
  unfold laneInt; split <;> simp [signedOf]

theorem neg_spec {a : Expr} (hint : isIntegerWithVector a.ty = true) (hw : a.ty.elem.bitWidth ≠ 1) :
    ∃ e, neg a = .ok e ∧ e.ty = a.ty ∧
      ∀ k, e.eval F ρ k = bitsOf a.ty.elem.bitWidth (-laneInt a.ty.elem (a.eval F ρ k)) := by
  obtain ⟨z, hz, hzt, hzv⟩ := @constant_spec F ρ a.ty 0 hint hw rfl
  obtain ⟨e, he, het, hev⟩ := sub_spec F ρ hzt.symm (hzt ▸ hint)
  refine ⟨e, by simp [neg, hint, hz, he], het.trans hzt, fun k => ?_⟩
  rw [hev, hzv, hzt]
  simp [apInt, bitsOf]

theorem floatUnsignedSigned_of_int {fop uop sop : BinOp} {a b : Expr}
    (hint : isIntegerWithVector a.ty = true) :
    floatUnsignedSigned fop uop sop a b = unsignedSigned uop sop a b := by
  simp [floatUnsignedSigned, unsignedSigned, isFloatWithVector_of_integer hint, hint]

theorem unsignedSigned_spec {uop sop : BinOp} (f : Int → Int → Int)
    (hu : ∀ w x y, x < 2 ^ w → y < 2 ^ w →
      BinOp.eval F uop (.integer w .unsigned) x y % 2 ^ w = bitsOf w (f x y))
    (hs : ∀ s x y, BinOp.eval F sop s x y % 2 ^ s.bitWidth =
      bitsOf s.bitWidth (f (signedOf s.bitWidth x) (signedOf s.bitWidth y)))
    {a b : Expr} (hb : b.ty = a.ty) (hint : isIntegerWithVector a.ty = true) :
    ∃ e, unsignedSigned uop sop a b = .ok e ∧ e.ty = a.ty ∧
      ∀ k, e.eval F ρ k = bitsOf a.ty.elem.bitWidth
        (f (laneInt a.ty.elem (a.eval F ρ k)) (laneInt a.ty.elem (b.eval F ρ k))) := by
  cases hun : isUnsignedIntegerWithVector a.ty
  · refine ⟨.binary sop a.ty a b, by simp [unsignedSigned, hb, hun, hint], rfl, fun k => ?_⟩
    simp [Expr.eval, hs, laneInt_of_not_unsigned (elem_ne_unsigned hun)]
  · obtain ⟨w, hw⟩ := (isUnsignedIntegerWithVector_iff _).1 hun
    refine ⟨.binary uop a.ty a b, by simp [unsignedSigned, hb, hun], rfl, fun k => ?_⟩
    have hbw : b.ty.elem = .integer w .unsigned := hb ▸ hw
    have ha := a.eval_lt F ρ k
    have hb' := b.eval_lt F ρ k
    simp only [Ty.bitWidth_eq, hw, hbw, ElemType.bitWidth_integer] at ha hb'
    simp [Expr.eval, hw, hu w _ _ ha hb']

theorem integer_division_spec {a b : Expr} (hb : b.ty = a.ty)
    (hint : isIntegerWithVector a.ty = true) :
    let w := a.ty.elem.bitWidth
    let x k := laneInt a.ty.elem (a.eval F ρ k)
    let y k := laneInt a.ty.elem (b.eval F ρ k)
    (∃ e, div a b = .ok e ∧ ∀ k, e.eval F ρ k = bitsOf w (Int.tdiv (x k) (y k))) ∧
    (∃ e, rem a b = .ok e ∧ ∀ k, e.eval F ρ k = bitsOf w (Int.tmod (x k) (y k))) ∧
    (∃ e, MathBuilder.min a b = .ok e ∧ ∀ k, e.eval F ρ k = bitsOf w (Min.min (x k) (y k))) ∧
    (∃ e, MathBuilder.max a b = .ok e ∧ ∀ k, e.eval F ρ k = bitsOf w (Max.max (x k) (y k))) ∧
    (∃ e, floorDiv a b = .ok e ∧ ∀ k, e.eval F ρ k = bitsOf w (Int.fdiv (x k) (y k))) := by
  intro w x y
  have key : ∀ uop sop (f : Int → Int → Int),
      (∀ w (m n : Nat), BinOp.eval F uop (.integer w .unsigned) m n % 2 ^ w = bitsOf w (f m n)) →
      (∀ s m n, BinOp.eval F sop s m n % 2 ^ s.bitWidth =
        bitsOf s.bitWidth (f (signedOf s.bitWidth m) (signedOf s.bitWidth n))) →
      ∃ e, unsignedSigned uop sop a b = .ok e ∧ ∀ k, e.eval F ρ k = bitsOf w (f (x k) (y k)) :=
    fun _ _ f hu hs =>
      let ⟨e, he, _, hev⟩ := unsignedSigned_spec F ρ f (fun w m n _ _ => hu w m n) hs hb hint
      ⟨e, he, hev⟩
  have hsigned : ∀ (g : Int → Int → Int) (s : ElemType) (m n : Nat),
      bitsOf s.bitWidth (g (signedOf s.bitWidth m) (signedOf s.bitWidth n)) % 2 ^ s.bitWidth =
        bitsOf s.bitWidth (g (signedOf s.bitWidth m) (signedOf s.bitWidth n)) :=
    fun _ _ _ _ => Nat.mod_eq_of_lt (bitsOf_lt _ _)
  simp only [div, rem, MathBuilder.min, MathBuilder.max, floatUnsignedSigned_of_int hint]
  refine ⟨key .divUI .divSI Int.tdiv (fun w m n => ?_) (hsigned _), key .remUI .remSI Int.tmod
    (fun w m n => ?_) (hsigned _), key .minUI .minSI Min.min (fun w m n => ?_) (hsigned _),
    key .maxUI .maxSI Max.max (fun w m n => ?_) (hsigned _),
    key .divUI .floorDivSI Int.fdiv (fun w m n => ?_) (hsigned _)⟩
  · rw [← Int.ofNat_tdiv, bitsOf_natCast]; rfl
  · rw [← Int.ofNat_tmod, bitsOf_natCast]; rfl
  · rw [← Nat.cast_min, bitsOf_natCast]; rfl
  · rw [← Nat.cast_max, bitsOf_natCast]; rfl
  · rw [← Int.ofNat_fdiv, bitsOf_natCast]; rfl

/-- `abs` of the unsigned byte `200` is `56`: `math.absi` reads its operand as signed, and
`abs` has no unsigned case. -/
theorem abs_unsigned_reads_signed :
    ∃ e, MathBuilder.abs (.arg 0 (.scalar (.integer 8 .unsigned))) = .ok e ∧
      ∀ F : FloatSemantics, e.eval F (fun _ _ => 200) 0 = 56 :=
  ⟨_, rfl, fun _ => by simp [Expr.eval, signedOf, bitsOf, Int.bmod]⟩

/-- `sub` on unsigned integers hands them to `arith.subi` unchanged. -/
theorem sub_unsigned_not_signless :
    ∃ e, sub (.arg 0 (.scalar (.integer 32 .unsigned))) (.arg 1 (.scalar (.integer 32 .unsigned))) =
      .ok e ∧ e.signlessTyped = false :=
  ⟨_, rfl, rfl⟩

/-- `constant` at a width above 64 zero-extends the 64-bit pattern of a negative value. -/
theorem constant_wide_negative :
    ∃ e, constant (.scalar (.integer 128 .signless)) (-1) = .ok e ∧
      (∀ F ρ, e.eval F ρ 0 = 2 ^ 64 - 1) ∧ bitsOf 128 (-1) = 2 ^ 128 - 1 :=
  ⟨_, rfl, fun _ _ => rfl, rfl⟩

theorem bitsOf_laneInt (e : ElemType) {x : Nat} (hx : x < 2 ^ e.bitWidth) :
    bitsOf e.bitWidth (laneInt e x) = x := by
  unfold laneInt
  split
  · simpa [bitsOf_natCast] using Nat.mod_eq_of_lt hx
  · exact bitsOf_signedOf hx

theorem laneInt_bounds {w : Nat} (hw : 0 < w) (s : Signedness) {x : Nat} (hx : x < 2 ^ w) :
    (if s = .unsigned then 0 else -2 ^ (w - 1) : Int) ≤ laneInt (.integer w s) x ∧
      laneInt (.integer w s) x ≤ (if s = .unsigned then 2 ^ w - 1 else 2 ^ (w - 1) - 1 : Int) := by
  obtain ⟨v, rfl⟩ : ∃ v, w = v + 1 := ⟨w - 1, by omega⟩
  have hpos : 0 < 2 ^ (v + 1) := Nat.two_pow_pos _
  cases s
  case unsigned =>
    have : (x : Int) < 2 ^ (v + 1) := by exact_mod_cast hx
    simp only [laneInt_unsigned, if_true]
    omega
  all_goals
    have hlo := @Int.le_bmod x (2 ^ (v + 1)) hpos
    have hhi := @Int.bmod_lt x (2 ^ (v + 1)) hpos
    simp only [laneInt, signedOf, ElemType.bitWidth_integer, reduceCtorEq, if_false,
      Nat.add_sub_cancel]
    rw [Nat.pow_succ] at hlo hhi ⊢
    push_cast at hlo hhi ⊢
    omega

theorem infAttr_integer {w : Nat} (hw : w = 8 ∨ w = 16 ∨ w = 32 ∨ w = 64) (s : Signedness) :
    ∃ lo hi, negativeInfAttr (.scalar (.integer w s)) = .ok (.integer (.integer w s) lo) ∧
      positiveInfAttr (.scalar (.integer w s)) = .ok (.integer (.integer w s) hi) ∧
      lo < 2 ^ w ∧ hi < 2 ^ w ∧
      laneInt (.integer w s) lo = (if s = .unsigned then 0 else -2 ^ (w - 1)) ∧
      laneInt (.integer w s) hi = (if s = .unsigned then 2 ^ w - 1 else 2 ^ (w - 1) - 1) := by
  rcases hw with rfl | rfl | rfl | rfl <;> cases s <;> exact ⟨_, _, rfl, rfl, by decide⟩

theorem max_min_constant_eval {w : Nat} {s : Signedness} {c : Nat} (hc : c < 2 ^ w) {a : Expr}
    (ha : a.ty = .scalar (.integer w s)) :
    (∃ e, MathBuilder.max (.constant (.scalar (.integer w s)) c) a = .ok e ∧ ∀ k, e.eval F ρ k =
      bitsOf w (Max.max (laneInt (.integer w s) c) (laneInt (.integer w s) (a.eval F ρ k)))) ∧
    (∃ e, MathBuilder.min (.constant (.scalar (.integer w s)) c) a = .ok e ∧ ∀ k, e.eval F ρ k =
      bitsOf w (Min.min (laneInt (.integer w s) c) (laneInt (.integer w s) (a.eval F ρ k)))) := by
  obtain ⟨-, -, ⟨e₁, he₁, hev₁⟩, ⟨e₂, he₂, hev₂⟩, -⟩ := integer_division_spec F ρ
    (show a.ty = (Expr.constant (.scalar (.integer w s)) c).ty by simp [ha])
    (show isIntegerWithVector (Expr.constant (.scalar (.integer w s)) c).ty = true by
      simp [isIntegerWithVector, Ty.isaInteger])
  refine ⟨⟨e₂, he₂, fun k => ?_⟩, ⟨e₁, he₁, fun k => ?_⟩⟩ <;>
    simp only [hev₁, hev₂, Expr.ty_constant, Ty.elem_scalar, ElemType.bitWidth_integer, Expr.eval,
      Ty.bitWidth_eq, Nat.mod_eq_of_lt hc]

/-- `negativeInf` and `positiveInf` stand for the least and greatest integer of each integer type
they support, and so are identities of `max` and `min`. -/
theorem infAttr_max_min_identity {w : Nat} {s : Signedness}
    (hw : w = 8 ∨ w = 16 ∨ w = 32 ∨ w = 64) :
    ∃ lo hi, negativeInfAttr (.scalar (.integer w s)) = .ok (.integer (.integer w s) lo) ∧
      positiveInfAttr (.scalar (.integer w s)) = .ok (.integer (.integer w s) hi) ∧
      (∀ x < 2 ^ w, laneInt (.integer w s) lo ≤ laneInt (.integer w s) x ∧
        laneInt (.integer w s) x ≤ laneInt (.integer w s) hi) ∧
      ∀ a : Expr, a.ty = .scalar (.integer w s) →
        (∃ e, MathBuilder.max (.constant (.scalar (.integer w s)) lo) a = .ok e ∧
          ∀ k, e.eval F ρ k = a.eval F ρ k) ∧
        (∃ e, MathBuilder.min (.constant (.scalar (.integer w s)) hi) a = .ok e ∧
          ∀ k, e.eval F ρ k = a.eval F ρ k) := by
  obtain ⟨lo, hi, hneg, hpos, hlo, hhi, hlov, hhiv⟩ := infAttr_integer hw s
  have hbounds : ∀ x < 2 ^ w, laneInt (.integer w s) lo ≤ laneInt (.integer w s) x ∧
      laneInt (.integer w s) x ≤ laneInt (.integer w s) hi := fun x hx => by
    rw [hlov, hhiv]; exact laneInt_bounds (by omega) s hx
  refine ⟨lo, hi, hneg, hpos, hbounds, fun a ha => ?_⟩
  have hx : ∀ k, a.eval F ρ k < 2 ^ w := fun k => by simpa [ha] using a.eval_lt F ρ k
  have hback : ∀ k, bitsOf w (laneInt (.integer w s) (a.eval F ρ k)) = a.eval F ρ k := fun k => by
    simpa using bitsOf_laneInt (.integer w s) (by simpa using hx k)
  obtain ⟨e₁, he₁, hev₁⟩ := (max_min_constant_eval F ρ hlo ha).1
  obtain ⟨e₂, he₂, hev₂⟩ := (max_min_constant_eval F ρ hhi ha).2
  exact ⟨⟨e₁, he₁, fun k => by rw [hev₁, max_eq_right (hbounds _ (hx k)).1, hback]⟩,
    ⟨e₂, he₂, fun k => by rw [hev₂, min_eq_right (hbounds _ (hx k)).2, hback]⟩⟩

theorem select_compare_eval {a b c : Expr} (hb : b.ty = a.ty) (hc : c.ty = boolLike a.ty)
    {R : Nat → Prop} [DecidablePred R] (hcv : ∀ k, c.eval F ρ k = if R k then 1 else 0) :
    MathBuilder.select c a b = .ok (.select a.ty c a b) ∧
      ∀ k, (a.ty.vectorShape?.isSome ∨ k = 0) →
        (Expr.select a.ty c a b).eval F ρ k = if R k then a.eval F ρ k else b.eval F ρ k := by
  refine ⟨by simp [MathBuilder.select, hb], fun k hk => ?_⟩
  have hlane : (if c.ty.vectorShape?.isSome then k else 0) = k := by
    rcases hk with hk | rfl
    · simp [hc, boolLike, hk]
    · split_ifs <;> rfl
  simp only [Expr.eval, hlane, hcv]
  by_cases h : R k
  · rw [if_pos h, if_pos h, if_pos rfl]; exact a.eval_mod F ρ k
  · rw [if_neg h, if_neg h, if_neg Nat.zero_ne_one, ← hb]; exact b.eval_mod F ρ k

/-- On every integer type, `select(gt(a, b), a, b)` is `max(a, b)` and `select(lt(a, b), a, b)` is
`min(a, b)`, lane by lane. -/
theorem select_compare_agrees_with_max_min {a b : Expr} (hb : b.ty = a.ty)
    (hint : isIntegerWithVector a.ty = true) :
    (∃ c e m, gt a b = .ok c ∧ MathBuilder.select c a b = .ok e ∧ MathBuilder.max a b = .ok m ∧
      ∀ k, (a.ty.vectorShape?.isSome ∨ k = 0) → e.eval F ρ k = m.eval F ρ k) ∧
    (∃ c e m, lt a b = .ok c ∧ MathBuilder.select c a b = .ok e ∧ MathBuilder.min a b = .ok m ∧
      ∀ k, (a.ty.vectorShape?.isSome ∨ k = 0) → e.eval F ρ k = m.eval F ρ k) := by
  have hx : ∀ k, bitsOf a.ty.elem.bitWidth (laneInt a.ty.elem (a.eval F ρ k)) = a.eval F ρ k :=
    fun k => bitsOf_laneInt _ (by simpa using a.eval_lt F ρ k)
  have hy : ∀ k, bitsOf a.ty.elem.bitWidth (laneInt a.ty.elem (b.eval F ρ k)) = b.eval F ρ k :=
    fun k => bitsOf_laneInt _ (by simpa [hb] using b.eval_lt F ρ k)
  obtain ⟨-, -, ⟨m₁, hm₁, hmv₁⟩, ⟨m₂, hm₂, hmv₂⟩, -⟩ := integer_division_spec F ρ hb hint
  obtain ⟨c₁, hc₁, hct₁, hcv₁⟩ := @compareOrdered_spec F ρ .ugt .sgt .ogt
    (fun x y => decide (y < x)) (by simp [CmpIPredicate.holds]) (fun _ _ _ => rfl) a b hb hint
  obtain ⟨c₂, hc₂, hct₂, hcv₂⟩ := @compareOrdered_spec F ρ .ult .slt .olt
    (fun x y => decide (x < y)) (by simp [CmpIPredicate.holds]) (fun _ _ _ => rfl) a b hb hint
  obtain ⟨hs₁, hsv₁⟩ := select_compare_eval F ρ hb hct₁ (fun k => by simpa using hcv₁ k)
  obtain ⟨hs₂, hsv₂⟩ := select_compare_eval F ρ hb hct₂ (fun k => by simpa using hcv₂ k)
  refine ⟨⟨c₁, _, m₂, hc₁, hs₁, hm₂, fun k hk => ?_⟩, ⟨c₂, _, m₁, hc₂, hs₂, hm₁, fun k hk => ?_⟩⟩
  · rw [hsv₁ k hk, hmv₂]
    split_ifs with h
    · rw [max_eq_left h.le, hx]
    · rw [max_eq_right (not_lt.1 h), hy]
  · rw [hsv₂ k hk, hmv₁]
    split_ifs with h
    · rw [min_eq_left h.le, hx]
    · rw [min_eq_right (not_lt.1 h), hy]

theorem select_gt_agrees_with_max_ui8x4 :
    ∃ c e m, gt (.arg 0 (.vector [4] (.integer 8 .unsigned))) (.arg 1 (.vector [4] (.integer 8 .unsigned))) =
        .ok c ∧
      MathBuilder.select c (.arg 0 (.vector [4] (.integer 8 .unsigned)))
        (.arg 1 (.vector [4] (.integer 8 .unsigned))) = .ok e ∧
      MathBuilder.max (.arg 0 (.vector [4] (.integer 8 .unsigned)))
        (.arg 1 (.vector [4] (.integer 8 .unsigned))) = .ok m ∧
      e.eval ⟨fun _ _ _ x => x, fun _ _ a _ => a, fun _ a _ _ => a, fun _ _ => 0⟩ (fun i k => i * 200 + k) 3 =
        m.eval ⟨fun _ _ _ x => x, fun _ _ a _ => a, fun _ a _ _ => a, fun _ _ => 0⟩ (fun i k => i * 200 + k) 3 := by
  obtain ⟨⟨c, e, m, hc, he, hm, hev⟩, -⟩ := @select_compare_agrees_with_max_min
    ⟨fun _ _ _ x => x, fun _ _ a _ => a, fun _ a _ _ => a, fun _ _ => 0⟩ (fun i k => i * 200 + k)
    (.arg 0 (.vector [4] (.integer 8 .unsigned))) (.arg 1 (.vector [4] (.integer 8 .unsigned))) rfl rfl
  exact ⟨c, e, m, hc, he, hm, hev 3 (.inl rfl)⟩

theorem infAttr_max_identity_ui8 :
    ∃ lo, negativeInfAttr (.scalar (.integer 8 .unsigned)) = .ok (.integer (.integer 8 .unsigned) lo) ∧
      ∃ e, MathBuilder.max (.constant (.scalar (.integer 8 .unsigned)) lo)
          (.arg 0 (.scalar (.integer 8 .unsigned))) = .ok e ∧
        e.eval ⟨fun _ _ _ x => x, fun _ _ a _ => a, fun _ a _ _ => a, fun _ _ => 0⟩
          (fun _ _ => 200) 0 = 200 := by
  obtain ⟨lo, hi, hneg, -, -, hid⟩ := @infAttr_max_min_identity
    ⟨fun _ _ _ x => x, fun _ _ a _ => a, fun _ a _ _ => a, fun _ _ => 0⟩ (fun _ _ => 200) 8
    .unsigned (by decide)
  obtain ⟨⟨e, he, hev⟩, -⟩ := hid (.arg 0 (.scalar (.integer 8 .unsigned))) rfl
  exact ⟨lo, hneg, e, he, (hev 0).trans rfl⟩

end DialectBuilder.MathSemantics
