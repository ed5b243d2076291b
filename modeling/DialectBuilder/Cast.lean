import DialectBuilder.MathSemantics

namespace DialectBuilder.Cast

open DialectBuilder.Types DialectBuilder.Ir DialectBuilder.MathBuilder DialectBuilder.Vector
open DialectBuilder.MathSemantics

def isIntLike : ElemType → Bool
  | .integer _ s => s != .signed
  | .index => true
  | .float _ => false

def zeroExtends : ElemType → Bool
  | .integer w s => s == .unsigned || w == 1
  | _ => false

/-- The reference conversion of a bit pattern `x` of `S` to `D`: a test against zero for a
one-bit destination, truncation when `D` is not wider, and extension otherwise. -/
def intCastRef (S D : ElemType) (x : Nat) : Nat :=
  if D.bitWidth = 1 ∧ S.bitWidth ≠ 1 then (if x = 0 then 0 else 1)
  else if D.bitWidth ≤ S.bitWidth then x % 2 ^ D.bitWidth
  else if zeroExtends S then x
  else bitsOf D.bitWidth (signedOf S.bitWidth x)

/-- The element type `cast` returns: `i1` for any one-bit destination, and the `i64`
stand-in when an unsigned integer is converted to `index`. -/
def castResultElem (S D : ElemType) : ElemType :=
  if D.bitWidth = 1 ∧ S.bitWidth ≠ 1 then .integer 1 .signless
  else match S, D with
    | .integer w .unsigned, .index => if w = 1 then .index else .integer 64 .signless
    | _, D => D

theorem castResultElem_self (S : ElemType) : castResultElem S S = S := by
  rcases S with ⟨w, _ | _ | _⟩ | _ | _ <;> simp [castResultElem]

theorem castResultElem_bitWidth (S D : ElemType) : (castResultElem S D).bitWidth = D.bitWidth := by
  unfold castResultElem
  split_ifs with h
  · simp [h.1]
  · split <;> (try split) <;> rfl

theorem isIntLike_castResultElem (S : ElemType) {D : ElemType} (hD : isIntLike D = true) :
    isIntLike (castResultElem S D) = true := by
  unfold castResultElem
  split_ifs
  · rfl
  · split <;> (try split) <;> first | rfl | exact hD

theorem intCastRef_index_left (D : ElemType) :
    intCastRef .index D = intCastRef (.integer 64 .signless) D := rfl

theorem intCastRef_index_right (S : ElemType) :
    intCastRef S .index = intCastRef S (.integer 64 .signless) := rfl

theorem intCastRef_self {S : ElemType} {x : Nat} (hx : x < 2 ^ S.bitWidth) :
    intCastRef S S x = x := by
  simp [intCastRef, Nat.mod_eq_of_lt hx]

theorem intCastRef_roundtrip {S D E : ElemType} (hE : E.bitWidth = D.bitWidth)
    (h : S.bitWidth ≤ D.bitWidth) {x : Nat} (hx : x < 2 ^ S.bitWidth) :
    intCastRef E S (intCastRef S D x) = x := by
  by_cases hS1 : S.bitWidth = 1
  · -- a boolean source is zero-extended, then tested against zero or kept
    have hz : zeroExtends S = true := by
      rcases S with ⟨w, s⟩ | ⟨_ | _ | _ | _⟩ | _ <;> simp_all [zeroExtends, FloatKind.width]
    have hx2 : x < 2 := by simpa [hS1] using hx
    by_cases hD1 : D.bitWidth = 1
    · simp [intCastRef, hS1, hD1, hE, Nat.mod_eq_of_lt hx2]
    · simp only [intCastRef, hS1, hD1, hE, hz, ne_eq, not_false_eq_true, and_true, false_and,
        if_false, if_true, show ¬ D.bitWidth ≤ 1 by omega]
      split_ifs <;> omega
  · have hx' : x % 2 ^ S.bitWidth = x := Nat.mod_eq_of_lt hx
    by_cases h1 : D.bitWidth = 1
    · -- only a zero-width source reaches a boolean destination here
      have hS0 : S.bitWidth = 0 := by omega
      have hx0 : x = 0 := by simpa [hS0] using hx
      simp [intCastRef, hx0, h1, hS0, hE]
    by_cases h3 : D.bitWidth ≤ S.bitWidth
    · simp [intCastRef, h1, hE, show D.bitWidth = S.bitWidth by omega, hx']
    by_cases hz : zeroExtends S = true
    · simp [intCastRef, h1, h3, hz, hE, h, hS1, hx']
    · simp [intCastRef, h1, h3, hz, hE, h, hS1, bitsOf_mod h, bitsOf_signedOf hx]

variable (F : FloatSemantics) (ρ : Nat → Nat → Nat)

theorem eval_ne_zero {a : Expr} {w : Nat} (ha : a.ty = .scalar (.integer w .signless)) (k : Nat) :
    (Expr.binary (.cmpI .ne) (.scalar (.integer 1 .signless)) a
      (.constant (.scalar (.integer w .signless)) (apInt w 0))).eval F ρ k =
      if a.eval F ρ k = 0 then 0 else 1 := by
  simp [Expr.eval, ha, apInt, bitsOf, CmpIPredicate.holds]
  split_ifs <;> simp_all

theorem castToBool_spec {src : Expr} {w : Nat} {s : Signedness} (hsrc : src.ty = .scalar (.integer w s))
    (hw : w ≠ 1) (hs : s ≠ .signed) :
    ∃ e, castToBool src (.scalar (.integer w s)) = .ok e ∧ e.ty = .scalar (.integer 1 .signless) ∧
      ∀ k, e.eval F ρ k = if src.eval F ρ k = 0 then 0 else 1 := by
  have hx : ∀ k, src.eval F ρ k % 2 ^ w = src.eval F ρ k :=
    src.eval_mod_of_width F ρ (by simp [hsrc])
  cases s with
  | signed => exact absurd rfl hs
  | unsigned =>
    refine ⟨.binary (.cmpI .ne) (.scalar (.integer 1 .signless))
      (.unary .unrealizedConversionCast (.scalar (.integer w .signless)) src)
      (.constant (.scalar (.integer w .signless)) (apInt w 0)), ?_, rfl,
      fun k => (@eval_ne_zero F ρ (.unary .unrealizedConversionCast (.scalar (.integer w .signless)) src)
        w rfl k).trans ?_⟩
    · simp [castToBool, Ty.isaInteger, Ty.isSignlessInteger, Ty.getIntOrFloatBitWidth,
        castToSignless_eq, hsrc, constant_scalar, scalarConstant_integer, hw, fitsInt64, compareIntOrFloat_int, neq, boolLike, isIntegerWithVector, Ty.isaInteger]
    · simp [Expr.eval, hsrc, hx]
  | signless =>
    refine ⟨.binary (.cmpI .ne) (.scalar (.integer 1 .signless)) src
      (.constant (.scalar (.integer w .signless)) (apInt w 0)), ?_, rfl, eval_ne_zero F ρ hsrc⟩
    simp [castToBool, Ty.isaInteger, Ty.isSignlessInteger, hsrc, constant_scalar, scalarConstant_integer, hw, fitsInt64, compareIntOrFloat_int, neq, boolLike, isIntegerWithVector]

theorem eval_indexCast_of_width {a : Expr} {t : Ty} (ha : a.ty.elem.bitWidth = 64)
    (ht : t.elem.bitWidth = 64) (k : Nat) :
    (Expr.unary .indexCast t a).eval F ρ k = a.eval F ρ k := by
  have := a.eval_lt F ρ k
  simp only [Ty.bitWidth_eq, ha] at this
  simp only [Expr.eval, UnOp.eval_indexCast, Ty.bitWidth_eq, ha, ht, bitsOf_signedOf this,
    Nat.mod_eq_of_lt this]

section IntToInt

variable {src : Expr} {ws wd : Nat} {ss sd : Signedness} {dIdx : Bool}

theorem castIntToInt_extend (hsrc : src.ty = .scalar (.integer ws ss)) (hss : ss ≠ .signed)
    (hsd : sd ≠ .signed) (hidx : dIdx = true → wd = 64 ∧ sd = .signless) (h : ws < wd) :
    ∃ e, castIntToInt src (.scalar (.integer ws ss)) (.scalar (.integer wd sd)) dIdx = .ok e ∧
      e.ty = .scalar (if dIdx = true ∧ ss ≠ .unsigned then .index else .integer wd sd) ∧
      ∀ k, e.eval F ρ k = if ss = .unsigned then src.eval F ρ k
        else bitsOf wd (signedOf ws (src.eval F ρ k)) := by
  have hx : ∀ k, src.eval F ρ k % 2 ^ ws = src.eval F ρ k :=
    src.eval_mod_of_width F ρ (by simp [hsrc])
  have hlt : ∀ k, src.eval F ρ k < 2 ^ wd := fun k => lt_of_lt_of_le
    (by simpa [hsrc] using src.eval_lt F ρ k) (Nat.pow_le_pow_right two_pos h.le)
  cases ss <;> cases sd <;> cases dIdx <;>
    simp at hss hsd hidx
  all_goals try subst hidx
  all_goals simp [-Nat.reducePow, castIntToInt, Ty.isUnsignedInteger, Ty.isSignlessInteger,
    Ty.getIntOrFloatBitWidth, castToSignless_eq, castToUnsigned_eq, hsrc, Ty.isaInteger, h, h.ne,
    Expr.eval, hx, hlt, Nat.mod_eq_of_lt, bitsOf_lt, bitsOf_signedOf]

theorem castIntToInt_same (hsrc : src.ty = .scalar (.integer ws ss)) (hss : ss ≠ .signed)
    (hsd : sd ≠ .signed) (hidx : dIdx = true → ws = 64 ∧ sd = .signless) (hu : ss = .unsigned → sd ≠ .unsigned) :
    ∃ e, castIntToInt src (.scalar (.integer ws ss)) (.scalar (.integer ws sd)) dIdx = .ok e ∧
      e.ty = .scalar (if dIdx = true ∧ ss ≠ .unsigned then .index else .integer ws sd) ∧
      ∀ k, e.eval F ρ k = src.eval F ρ k := by
  have hlt : ∀ k, src.eval F ρ k < 2 ^ ws := fun k => by simpa [hsrc] using src.eval_lt F ρ k
  cases ss <;> cases sd <;> cases dIdx <;>
    simp at hss hsd hidx hu
  all_goals try subst hidx
  all_goals simp [-Nat.reducePow, castIntToInt, Ty.isUnsignedInteger, Ty.isSignlessInteger,
    Ty.getIntOrFloatBitWidth, castToSignless_eq, castToUnsigned_eq, hsrc, Ty.isaInteger,
    Expr.eval, hlt, Nat.mod_eq_of_lt, bitsOf_signedOf]

theorem castIntToInt_trunc (hsrc : src.ty = .scalar (.integer ws ss)) (hss : ss ≠ .signed)
    (hsd : sd ≠ .signed) (hidx : dIdx = true → wd = 64 ∧ sd = .signless) (h : wd < ws) :
    ∃ e, castIntToInt src (.scalar (.integer ws ss)) (.scalar (.integer wd sd)) dIdx = .ok e ∧
      e.ty = .scalar (if dIdx = true ∧ ss ≠ .unsigned then .index else .integer wd sd) ∧
      ∀ k, e.eval F ρ k = src.eval F ρ k % 2 ^ wd := by
  have hmod : ∀ k, src.eval F ρ k % 2 ^ ws % 2 ^ wd = src.eval F ρ k % 2 ^ wd :=
    fun k => Nat.mod_mod_of_dvd _ (Nat.pow_dvd_pow 2 h.le)
  cases ss <;> cases sd <;> cases dIdx <;>
    simp at hss hsd hidx
  all_goals try subst hidx
  all_goals simp [-Nat.reducePow, castIntToInt, Ty.isUnsignedInteger, Ty.isSignlessInteger,
    Ty.getIntOrFloatBitWidth, castToSignless_eq, castToUnsigned_eq, hsrc, Ty.isaInteger, h, h.ne',
    h.not_lt, Expr.eval, hmod, Nat.mod_eq_of_lt, bitsOf_signedOf, Nat.mod_lt, Nat.two_pow_pos]

end IntToInt

theorem castNormalized_int {src : Expr} {ws wd : Nat} {ss sd : Signedness} {saved : Ty} {dIdx : Bool}
    (hsrc : src.ty = .scalar (.integer ws ss)) (hss : ss ≠ .signed) (hsd : sd ≠ .signed)
    (hu : ss = .unsigned → sd = .unsigned → ws ≠ wd)
    (hidx : dIdx = true → wd = 64 ∧ sd = .signless ∧ saved = .scalar .index) :
    ∃ e, castNormalized src (.scalar (.integer ws ss)) (.scalar (.integer wd sd)) saved dIdx = .ok e ∧
      e.ty = (if wd = 1 ∧ ws ≠ 1 then .scalar (.integer 1 .signless)
        else if dIdx = true ∧ (ws = 1 ∨ ss ≠ .unsigned) then saved else .scalar (.integer wd sd)) ∧
      ∀ k, e.eval F ρ k = intCastRef (.integer ws ss) (.integer wd sd) (src.eval F ρ k) := by
  have hlt : ∀ k, src.eval F ρ k < 2 ^ ws := fun k => by simpa [hsrc] using src.eval_lt F ρ k
  by_cases h1 : ws = 1
  · -- a boolean source is zero-extended
    subst h1
    have hb : ∀ k, src.eval F ρ k % 2 ^ wd =
        intCastRef (.integer 1 ss) (.integer wd sd) (src.eval F ρ k) := by
      intro k
      by_cases hw : wd ≤ 1
      · simp [intCastRef, hw]
      · simp [intCastRef, hw, zeroExtends, Nat.mod_eq_of_lt (show src.eval F ρ k < 2 ^ wd from
            lt_of_lt_of_le (hlt k) (Nat.pow_le_pow_right two_pos (by omega)))]
    cases dIdx
    · exact ⟨.unary .extUI (.scalar (.integer wd sd)) src, by simp [castNormalized, Ty.isaInteger,
        Ty.isaFloat, Ty.isInteger, Ty.getIntOrFloatBitWidth], by simp, fun k => by simp [Expr.eval, hb]⟩
    · obtain ⟨rfl, rfl, rfl⟩ := hidx rfl
      refine ⟨.unary .indexCast (.scalar .index) (.unary .extUI (.scalar (.integer 64 .signless)) src),
        by simp [castNormalized, Ty.isaInteger, Ty.isaFloat, Ty.isInteger, Ty.getIntOrFloatBitWidth],
        by simp, fun k => ?_⟩
      rw [@eval_indexCast_of_width F ρ (.unary .extUI (.scalar (.integer 64 .signless)) src)
        (.scalar .index) rfl rfl]
      simp [-Nat.reducePow, Expr.eval, hb]
  by_cases h2 : wd = 1
  · -- a boolean destination compares with zero
    subst h2
    obtain ⟨e, he, hty, hev⟩ := castToBool_spec F ρ hsrc h1 hss
    exact ⟨e, by simp [castNormalized, Ty.isaInteger, Ty.isaFloat, Ty.isInteger,
      Ty.getIntOrFloatBitWidth, h1, he], by simp [hty, h1], fun k => by simp [hev, intCastRef, h1]⟩
  have hcast : castNormalized src (.scalar (.integer ws ss)) (.scalar (.integer wd sd)) saved dIdx =
      castIntToInt src (.scalar (.integer ws ss)) (.scalar (.integer wd sd)) dIdx := by
    simp [castNormalized, Ty.isaInteger, Ty.isaFloat, Ty.isInteger, Ty.getIntOrFloatBitWidth, h1, h2]
  have hty : ∀ e : Expr, e.ty = .scalar (if dIdx = true ∧ ss ≠ .unsigned then .index else .integer wd sd) →
      e.ty = (if wd = 1 ∧ ws ≠ 1 then .scalar (.integer 1 .signless)
        else if dIdx = true ∧ (ws = 1 ∨ ss ≠ .unsigned) then saved else .scalar (.integer wd sd)) := by
    intro e he
    cases dIdx <;> simp_all
    split_ifs <;> rfl
  rw [hcast]
  have hidx' : dIdx = true → wd = 64 ∧ sd = .signless := fun h => ⟨(hidx h).1, (hidx h).2.1⟩
  rcases Nat.lt_trichotomy ws wd with h | rfl | h
  · obtain ⟨e, he, ht, hev⟩ := castIntToInt_extend F ρ hsrc hss hsd hidx' h
    refine ⟨e, he, hty e ht, fun k => ?_⟩
    cases ss <;> simp [hev, intCastRef, h1, h2, h.not_le, zeroExtends] at hss ⊢
  · obtain ⟨e, he, ht, hev⟩ := castIntToInt_same F ρ hsrc hss hsd hidx' (fun h h' => hu h h' rfl)
    exact ⟨e, he, hty e ht, fun k => by simp [hev, intCastRef, h1, Nat.mod_eq_of_lt (hlt k)]⟩
  · obtain ⟨e, he, ht, hev⟩ := castIntToInt_trunc F ρ hsrc hss hsd hidx' h
    exact ⟨e, he, hty e ht, fun k => by simp [hev, intCastRef, h2, h.le]⟩

theorem cast_int_spec {S D : ElemType} (hS : isIntLike S = true) (hD : isIntLike D = true) {x : Expr}
    (hx : x.ty = .scalar S) :
    ∃ e, cast (.scalar D) x = .ok e ∧ e.ty = .scalar (castResultElem S D) ∧
      ∀ k, e.eval F ρ k = intCastRef S D (x.eval F ρ k) := by
  by_cases hSD : S = D
  · subst hSD
    exact ⟨x, by simp [MathBuilder.cast, hx], by simp [hx, castResultElem_self],
      fun k => (intCastRef_self (by simpa [hx] using x.eval_lt F ρ k)).symm⟩
  cases S with
  | float => simp [isIntLike] at hS
  | integer ws ss =>
    cases D with
    | float => simp [isIntLike] at hD
    | integer wd sd =>
      have := @castNormalized_int F ρ x ws wd ss sd (.scalar (.integer wd sd)) false hx
        (by simpa [isIntLike] using hS) (by simpa [isIntLike] using hD)
        (by rintro rfl rfl rfl; exact hSD rfl) (by simp)
      simpa [MathBuilder.cast, hx, hSD, Ty.isaIndex, castResultElem, apply_ite Ty.scalar] using this
    | index =>
      have := @castNormalized_int F ρ x ws 64 ss .signless (.scalar .index) true hx
        (by simpa [isIntLike] using hS) (by simp) (by simp) (by simp)
      cases ss <;> simpa [MathBuilder.cast, hx, Ty.isaIndex, i64Like, intCastRef_index_right,
        castResultElem, apply_ite Ty.scalar] using this
  | index =>
    cases D with
    | float => simp [isIntLike] at hD
    | integer wd sd =>
      have := @castNormalized_int F ρ (.unary .indexCast (.scalar (.integer 64 .signless)) x) 64 wd
        .signless sd (.scalar (.integer wd sd)) false rfl (by simp) (by simpa [isIntLike] using hD)
        (by simp) (by simp)
      simpa [MathBuilder.cast, hx, Ty.isaIndex, i64Like, intCastRef_index_left, castResultElem,
        apply_ite Ty.scalar, eval_indexCast_of_width F ρ (show x.ty.elem.bitWidth = 64 by simp [hx])] using this
    | index => exact absurd rfl hSD

theorem castToIndex_unsigned {w : Nat} (hw : w ≠ 1) {x : Expr}
    (hx : x.ty = .scalar (.integer w .unsigned)) :
    ∃ e, castToIndex x = .ok e ∧ e.ty = .scalar (.integer 64 .signless) ∧
      ∀ k, e.eval F ρ k = intCastRef (.integer w .unsigned) .index (x.eval F ρ k) := by
  obtain ⟨e, he, hty, hev⟩ := @cast_int_spec F ρ (.integer w .unsigned) .index rfl rfl x hx
  exact ⟨e, he, by simpa [castResultElem, hw] using hty, hev⟩

/-- `castToIndex` of a `ui32` value is typed `i64`, and `cast` of an `i8` value to `ui1`
is typed `i1`. -/
theorem cast_result_type_differs :
    (∃ e, castToIndex (.arg 0 (.scalar (.integer 32 .unsigned))) = .ok e ∧
      e.ty = .scalar (.integer 64 .signless)) ∧
    ∃ e, cast (.scalar (.integer 1 .unsigned)) (.arg 0 (.scalar (.integer 8 .signless))) = .ok e ∧
      e.ty = .scalar (.integer 1 .signless) :=
  ⟨⟨_, rfl, rfl⟩, _, rfl, rfl⟩

/-- The integer to integer path tests the type itself for an integer, so it is never taken
for vectors: a vector of `i32` cannot be converted to a vector of `i64`. -/
theorem cast_vector_int_unsupported :
    (∃ e, cast (.scalar (.integer 64 .signless)) (.arg 0 (.scalar (.integer 32 .signless))) = .ok e) ∧
    cast (.vector [4] (.integer 64 .signless)) (.arg 0 (.vector [4] (.integer 32 .signless))) =
      .error "unsupported element type" :=
  ⟨⟨_, rfl⟩, rfl⟩

theorem cast_integer_reference {S D : ElemType} (hS : isIntLike S = true) (hD : isIntLike D = true)
    {x : Expr} (hx : x.ty = .scalar S) :
    (∃ e, cast (.scalar D) x = .ok e ∧ ∀ k, e.eval F ρ k = intCastRef S D (x.eval F ρ k)) ∧
    (S.bitWidth ≤ D.bitWidth → ∃ e e', cast (.scalar D) x = .ok e ∧ cast (.scalar S) e = .ok e' ∧
      ∀ k, e'.eval F ρ k = x.eval F ρ k) := by
  obtain ⟨e, he, hty, hev⟩ := cast_int_spec F ρ hS hD hx
  refine ⟨⟨e, he, hev⟩, fun h => ?_⟩
  obtain ⟨e', he', -, hev'⟩ := cast_int_spec F ρ (isIntLike_castResultElem S hD) hS hty
  refine ⟨e, e', he, he', fun k => ?_⟩
  rw [hev', hev]
  exact intCastRef_roundtrip (castResultElem_bitWidth S D) h (by simpa [hx] using x.eval_lt F ρ k)

theorem cast_i8_to_i32_instance :
    isIntLike (.integer 8 .signless) = true ∧ isIntLike (.integer 32 .signless) = true ∧
      (Expr.arg 0 (.scalar (.integer 8 .signless))).ty = .scalar (.integer 8 .signless) ∧
      ∃ e, cast (.scalar (.integer 32 .signless)) (.arg 0 (.scalar (.integer 8 .signless))) = .ok e ∧
        e.eval ⟨fun _ _ _ x => x, fun _ _ a _ => a, fun _ a _ _ => a, fun _ _ => 0⟩
          (fun _ _ => 200) 0 = intCastRef (.integer 8 .signless) (.integer 32 .signless) 200 := by
  refine ⟨rfl, rfl, rfl, ?_⟩
  obtain ⟨e, he, hev⟩ := (@cast_integer_reference
    ⟨fun _ _ _ x => x, fun _ _ a _ => a, fun _ a _ _ => a, fun _ _ => 0⟩ (fun _ _ => 200)
    (.integer 8 .signless) (.integer 32 .signless) rfl rfl (.arg 0 (.scalar (.integer 8 .signless)))
    rfl).1
  exact ⟨e, he, hev 0⟩

/-- A one-bit unsigned destination is tested against zero, not truncated: the unsigned
byte `2` converts to `1`, where truncation gives `0`. -/
theorem cast_to_ui1_tests_nonzero :
    ∃ e, cast (.scalar (.integer 1 .unsigned)) (.arg 0 (.scalar (.integer 8 .unsigned))) = .ok e ∧
      ∀ F : FloatSemantics, e.eval F (fun _ _ => 2) 0 = 1 ∧ 2 % 2 ^ 1 = 0 :=
  ⟨_, rfl, fun _ => ⟨rfl, rfl⟩⟩

end DialectBuilder.Cast
