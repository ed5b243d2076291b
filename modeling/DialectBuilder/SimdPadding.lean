import DialectBuilder.MemRef

namespace DialectBuilder.SimdPadding

open DialectBuilder.Types DialectBuilder.Vector DialectBuilder.MemRef

section Ceil

variable {n VL : Nat}

theorem le_mul_ceil (hVL : 0 < VL) : n ≤ VL * ((n + VL - 1) / VL) := by
  have h1 := Nat.div_add_mod (n + VL - 1) VL
  have h2 := Nat.mod_lt (n + VL - 1) hVL
  omega

theorem mul_ceil_lt (hVL : 0 < VL) : VL * ((n + VL - 1) / VL) < n + VL := by
  have h1 := Nat.div_add_mod (n + VL - 1) VL
  omega

theorem mul_ceil_of_mod_ne (hVL : 0 < VL) (h : n % VL ≠ 0) :
    VL * ((n + VL - 1) / VL) = n + (VL - n % VL) := by
  have h3 := Nat.div_add_mod n VL
  have h4 := Nat.mod_lt n hVL
  have : n + VL - 1 = (n % VL - 1) + VL * (n / VL + 1) := by rw [Nat.mul_add]; omega
  rw [this, Nat.add_mul_div_left _ _ hVL, Nat.div_eq_of_lt (by omega), Nat.mul_add]
  omega

theorem mul_ceil_of_dvd (hVL : 0 < VL) (h : VL ∣ n) : VL * ((n + VL - 1) / VL) = n := by
  obtain ⟨c, rfl⟩ := h
  rw [show VL * c + VL - 1 = (VL - 1) + VL * c by omega, Nat.add_mul_div_left _ _ hVL,
    Nat.div_eq_of_lt (by omega), Nat.zero_add]

theorem vector_end_le (hVL : 0 < VL) {s : Nat} (hs : VL ∣ s) (hsn : s < n) :
    s + VL ≤ VL * ((n + VL - 1) / VL) := by
  obtain ⟨a, rfl⟩ := hs
  have h := @le_mul_ceil n VL hVL
  have : a < (n + VL - 1) / VL := by
    by_contra hc
    have := Nat.mul_le_mul_left VL (Nat.le_of_not_lt hc)
    omega
  have := Nat.mul_le_mul_left VL (Nat.succ_le_of_lt this)
  rw [Nat.mul_succ] at this
  exact this

end Ceil

section Padding

variable (σ : Nat → Nat) (δ : Nat → Nat → Nat)

theorem paddedByteSize_ok {bw s p : Nat} (d : IndexExpr) (hs : s * bw < 2 ^ 63)
    (hp : p * bw < 2 ^ 63) :
    ∃ tot, paddedByteSize bw s p d = .ok tot ∧
      tot.eval σ δ = (bw * (s * d.eval σ δ + p) + 7) / 8 ∧
      (d.isLiteral = true → tot.isLiteral = true) := by
  have hle : bw / 8 ≤ bw := Nat.div_le_self _ _
  unfold paddedByteSize
  split_ifs with h
  · dsimp only
    rw [wrap64_natCast_mul (lt_of_le_of_lt (Nat.mul_le_mul_left _ hle) hs),
      wrap64_natCast_mul (lt_of_le_of_lt (Nat.mul_le_mul_left _ hle) hp)]
    simp only [literalIndexExpr_natCast, ok_bind, pure_eq_ok]
    refine ⟨_, rfl, ?_, fun hd => by simp [hd]⟩
    obtain ⟨k, rfl⟩ := Nat.dvd_of_mod_eq_zero h
    have : 8 * k * (s * d.eval σ δ + p) = 8 * (s * k * d.eval σ δ + p * k) := by ring
    simp only [IndexExpr.eval_plus, IndexExpr.eval_times, IndexExpr.eval_literal,
      Nat.mul_div_cancel_left k (by norm_num : 0 < 8), this]
    omega
  · rw [wrap64_natCast_mul hs, wrap64_natCast_mul hp]
    simp only [literalIndexExpr_natCast, ok_bind, pure_eq_ok]
    refine ⟨_, rfl, ?_, fun hd => by simp [hd]⟩
    simp only [IndexExpr.eval_ceilDivBy, IndexExpr.eval_plus, IndexExpr.eval_times,
      IndexExpr.eval_literal]
    congr 1
    ring_nf
    omega

theorem paddedAlloc_sizeInBits (g : Int) (tot : IndexExpr) (alignment : Int) :
    (paddedAlloc g tot alignment).sizeInBits σ δ = tot.eval σ δ * 8 := by
  unfold paddedAlloc
  split <;> simp [AllocOp.sizeInBits, AllocOp.numElements, alignedAlloc_spec, MemRefType.get,
    resolveExtents, i8, Ty.getIntOrFloatBitWidth]

theorem alignedAllocWithSimdPadding_spec {g : Int} {vms : ElemType → Int} {type : MemRefType}
    {syms : List IndexExpr} {simdUnroll alignment : Int}
    (hlay : type.identityLayout = true) (hvec : type.elementType.vectorShape? = none)
    (helem : (type.elementType.isaInteger || type.elementType.isaFloat) = true)
    (hu : 1 ≤ simdUnroll) (hlen : syms.length = numDynamic type.shape)
    (hfit : (type.shape.filterMap id).prod +
      getMachineVectorLength vms type.elementType.elem * simdUnroll.toNat < 2 ^ 63)
    (hfitBits : ((type.shape.filterMap id).prod +
      getMachineVectorLength vms type.elementType.elem * simdUnroll.toNat) *
        type.elementType.getIntOrFloatBitWidth < 2 ^ 63) :
    let S := (type.shape.filterMap id).prod
    let VL := getMachineVectorLength vms type.elementType.elem * simdUnroll.toNat
    ∃ dynSize : IndexExpr,
      S * dynSize.eval σ δ = (resolveExtents type.shape (syms.map (·.eval σ δ))).prod ∧
      (syms = [] → dynSize = .literal 1) ∧
      (S % VL = 0 → alignedAllocWithSimdPadding g vms type syms simdUnroll alignment =
        .ok (.alloc (alignedAlloc g type syms alignment))) ∧
      (S % VL ≠ 0 → ∃ tot, alignedAllocWithSimdPadding g vms type syms simdUnroll alignment =
          .ok (view (.alloc (paddedAlloc g tot alignment)) 0 type syms) ∧
        tot.eval σ δ = (type.elementType.getIntOrFloatBitWidth *
          (S * dynSize.eval σ δ + if syms = [] then VL - S % VL else VL) + 7) / 8) := by
  intro S VL
  obtain ⟨dynSize, hsize, hdyn, hlit⟩ := getStaticAndDynamicMemSize_spec σ δ hvec hlen.ge
  have hVL : 0 < VL := Nat.mul_pos (getMachineVectorLength_pos _ _) (by omega)
  have hwVL :
      wrap64 ((getMachineVectorLength vms type.elementType.elem : Int) * simdUnroll) = VL := by
    rw [show simdUnroll = (simdUnroll.toNat : Int) by omega]
    exact wrap64_natCast_mul (by omega)
  have hwS : wrap64 (S : Int) = S :=
    wrap64_of_lt (Int.natCast_nonneg S) (by exact_mod_cast (show S < 2 ^ 63 by omega))
  have hpre : alignedAllocWithSimdPadding g vms type syms simdUnroll alignment =
      allocWithPadding g type syms alignment VL (syms.length == 0) S dynSize := by
    have hu' : decide (simdUnroll ≥ 1) = true := by simpa using hu
    simp only [alignedAllocWithSimdPadding, MemRefType.hasNonIdentityLayout, hlay, hvec, hu',
      Option.isNone_none, Bool.not_true, Bool.not_false, expect_true, pure_eq_ok, ok_bind, hsize,
      hwS, hwVL]
  have hrem : rem64 S VL = .ok ((S % VL : Nat) : Int) := rem64_natCast hVL
  refine ⟨dynSize, ?_, hlit, fun h0 => ?_, fun h0 => ?_⟩
  · rw [prod_resolveExtents _ (by simp [hlen]), hdyn, ← hlen, List.map_take]
  · rw [hpre]; simp [allocWithPadding, hrem, h0]
  · have hne : ((S % VL : Nat) : Int) ≠ 0 := by exact_mod_cast h0
    have hlt := Nat.mod_lt S hVL
    have hP : (if (syms.length == 0) = true then wrap64 ((VL : Int) - ((S % VL : Nat) : Int))
        else (VL : Int)) = ((if syms = [] then VL - S % VL else VL : Nat) : Int) := by
      by_cases hs : syms = []
      · simp only [hs, List.length_nil, beq_self_eq_true, if_true]
        rw [← Nat.cast_sub hlt.le, wrap64_of_lt (Int.natCast_nonneg _) (by omega)]
      · simp [hs]
    have hPle : (if syms = [] then VL - S % VL else VL) ≤ S + VL := by split_ifs <;> omega
    obtain ⟨tot, htot, heval, hlitT⟩ := @paddedByteSize_ok σ δ
      type.elementType.getIntOrFloatBitWidth S (if syms = [] then VL - S % VL else VL) dynSize
      (lt_of_le_of_lt (Nat.mul_le_mul_right _ (Nat.le_add_right S VL)) hfitBits)
      (lt_of_le_of_lt (Nat.mul_le_mul_right _ hPle) hfitBits)
    refine ⟨tot, ?_, heval⟩
    rw [hpre]
    simp only [allocWithPadding, hrem, ok_bind, if_neg hne, hP, helem, expect_true, htot]
    by_cases hs : syms = []
    · simp [hs, hlitT (by rw [hlit hs]; rfl)]
    · simp [hs]

end Padding

section VectorSafe

variable (σ : Nat → Nat) (δ : Nat → Nat → Nat)

end VectorSafe

end DialectBuilder.SimdPadding
