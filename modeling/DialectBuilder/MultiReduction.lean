import DialectBuilder.MathSemantics

namespace DialectBuilder.MultiReduction

open DialectBuilder.Types DialectBuilder.Ir DialectBuilder.Vector DialectBuilder.MathSemantics

def reducePair (step r : Nat) (tmpArray : List Expr) (p : Nat) : Except String (List Expr) := do
  let highVal ← mergeHigh (← getAt tmpArray (r + 2 * p)) (← getAt tmpArray (r + 2 * p + 1)) step
  let lowVal ← mergeLow (← getAt tmpArray (r + 2 * p)) (← getAt tmpArray (r + 2 * p + 1)) step
  let red ← MathBuilder.add highVal lowVal
  setAt tmpArray (r + p) red

/-- The `step` loop for the group `tmpArray[r .. r + machineVL)`; `step` doubles and
`numPairs` halves. The loop runs at most `machineVL` times, which `fuel` bounds. -/
def stageLoop (machineVL r : Nat) : Nat → Nat → Nat → List Expr → Except String (List Expr)
  | 0, _, _, tmpArray => pure tmpArray
  | fuel + 1, step, numPairs, tmpArray =>
    if step < machineVL then do
      let tmpArray ← (List.range numPairs).foldlM (reducePair step r) tmpArray
      stageLoop machineVL r fuel (step * 2) (numPairs / 2) tmpArray
    else pure tmpArray

def reduceGroup (machineVL r : Nat) (tmpArray : List Expr) : Except String (List Expr) :=
  stageLoop machineVL r machineVL 1 (machineVL / 2) tmpArray

def groupStarts (N machineVL : Nat) : List Nat :=
  List.range' 0 ((N + machineVL - 1) / machineVL) machineVL

def appendChecked (VL : Nat) (tmpArray : List Expr) (v : Expr) : Except String (List Expr) := do
  let len ← getLengthOf1DVector v
  expect (len == VL) "different vector length"
  pure (tmpArray ++ [v])

def reduceAndEmit (machineVL : Nat) (st : List Expr × List Expr) (r : Nat) :
    Except String (List Expr × List Expr) := do
  let tmpArray ← reduceGroup machineVL r st.1
  pure (tmpArray, st.2 ++ [← getAt tmpArray r])

/-- `VectorBuilder::multiReduction`: reduce `N` vectors of `VL` lanes into `N / VL` vectors,
one group of `VL` consecutive inputs per output. -/
def multiReduction (vms : ElemType → Int) (inputVecArray : List Expr) :
    Except String (List Expr) := do
  let N := inputVecArray.length
  expect (N > 0) "expected at least one value to reduce"
  let VL ← getLengthOf1DVector (← getAt inputVecArray 0)
  let machineVL ← getMachineVectorLengthOf vms (← getAt inputVecArray 0)
  expect (VL == machineVL) "only natural sizes supported at this time"
  expect (N % machineVL == 0) "can only reduces multiple of VL vectors at this time"
  let tmpArray ← inputVecArray.foldlM (appendChecked VL) []
  let st ← (groupStarts N machineVL).foldlM (reduceAndEmit machineVL) (tmpArray, [])
  pure st.2

section

variable (F : FloatSemantics) (ρ : Nat → Nat → Nat)

/-- One butterfly stage on lane values: pair `p` becomes the lanewise sum, modulo `2^w`, of the
high and low merges of vectors `2p` and `2p+1`. -/
def stageLanes (w VL step : Nat) (L : Nat → Nat → Nat) (p k : Nat) : Nat :=
  (mergeLane (L (2 * p)) (L (2 * p + 1)) step 0 k +
    mergeLane (L (2 * p)) (L (2 * p + 1)) step (VL / 2) k) % 2 ^ w

theorem reducePair_spec {tmp : List Expr} {r p step VL w : Nat} {s : Signedness} {x y : Expr}
    (hx : tmp[r + 2 * p]? = some x) (hy : tmp[r + 2 * p + 1]? = some y)
    (htx : x.ty = .vector [VL] (.integer w s)) (hty : y.ty = x.ty)
    (hpow : isPowerOf2 VL = true) (hstep : 0 < step) (hdvd : 2 * step ∣ VL) :
    ∃ z, reducePair step r tmp p = .ok (tmp.set (r + p) z) ∧ z.ty = x.ty ∧
      ∀ k < VL, z.eval F ρ k = (mergeLane (x.eval F ρ) (y.eval F ρ) step 0 k +
        mergeLane (x.eval F ρ) (y.eval F ρ) step (VL / 2) k) % 2 ^ w := by
  obtain ⟨h, hh, hht, hhe⟩ := mergeHigh_spec F ρ htx hty hpow hstep hdvd
  obtain ⟨l, hl, hlt, hle⟩ := mergeLow_spec F ρ htx hty hpow hstep hdvd
  obtain ⟨z, hz, hzt, hze⟩ := add_spec F ρ (show l.ty = h.ty by rw [hlt, hht])
    (by simp [hht, htx, isIntegerWithVector, Ty.isaInteger])
  have hlt' : r + 2 * p + 1 < tmp.length := (List.getElem?_eq_some_iff.1 hy).1
  refine ⟨z, ?_, by rw [hzt, hht], fun k hk => ?_⟩
  · simp [reducePair, getAt, hx, hy, hh, hl, hz, setAt, show r + p < tmp.length by omega]
  · rw [hze, hhe k hk, hle k hk, hht, htx]; rfl

theorem mergeLane_congr {X Y X' Y' : Nat → Nat} {step VL half k : Nat} (hstep : 0 < step)
    (hdvd : 2 * step ∣ VL) (hk : k < VL) (hhalf : half ≤ VL / 2)
    (hX : ∀ k < VL, X k = X' k) (hY : ∀ k < VL, Y k = Y' k) :
    mergeLane X Y step half k = mergeLane X' Y' step half k := by
  have := merge_index_lt hstep hdvd hk
  unfold mergeLane
  split_ifs
  · exact hX _ (by omega)
  · exact hY _ (by omega)

def Holds (tmp : List Expr) (r n : Nat) (t : Ty) (L : Nat → Nat → Nat) : Prop :=
  ∀ i < n, ∃ v, tmp[r + i]? = some v ∧ v.ty = t ∧ ∀ k < t.laneCount, v.eval F ρ k = L i k

/-- The `p` loop updates `tmpArray` in place yet computes the simultaneous butterfly stage: pair `p`
is read before any write reaches it. -/
theorem pairs_spec {tmp : List Expr} {r numPairs step VL w : Nat} {s : Signedness}
    {L : Nat → Nat → Nat} (hL : Holds F ρ tmp r (2 * numPairs) (.vector [VL] (.integer w s)) L)
    (hpow : isPowerOf2 VL = true) (hstep : 0 < step) (hdvd : 2 * step ∣ VL) :
    ∀ p0 ≤ numPairs, ∃ tmp', (List.range p0).foldlM (reducePair step r) tmp = .ok tmp' ∧
      tmp'.length = tmp.length ∧
      Holds F ρ tmp' r p0 (.vector [VL] (.integer w s)) (stageLanes w VL step L) ∧
      ∀ x, x < r ∨ r + p0 ≤ x → tmp'[x]? = tmp[x]? := by
  intro p0 hp0
  induction p0 with
  | zero => exact ⟨tmp, rfl, rfl, fun i hi => absurd hi (Nat.not_lt_zero _), fun _ _ => rfl⟩
  | succ p ih =>
    obtain ⟨tmp1, hrun, hlen, hhold, hframe⟩ := ih (by omega)
    obtain ⟨x, hx, htx, hex⟩ := hL (2 * p) (by omega)
    obtain ⟨y, hy, hty, hey⟩ := hL (2 * p + 1) (by omega)
    have hx1 : tmp1[r + 2 * p]? = some x := by rw [hframe _ (by omega), hx]
    have hy1 : tmp1[r + 2 * p + 1]? = some y := by rw [hframe _ (by omega), ← hy]; rfl
    obtain ⟨z, hz, hzt, hze⟩ := reducePair_spec F ρ hx1 hy1 htx (hty.trans htx.symm) hpow hstep hdvd
    have hwr : r + p < tmp1.length := by
      have := (List.getElem?_eq_some_iff.1 hx1).1; omega
    refine ⟨tmp1.set (r + p) z, ?_, by simp [hlen], fun i hi => ?_, fun x' hx' => ?_⟩
    · rw [List.range_succ, List.foldlM_append, hrun]; simp [hz]
    · rcases Nat.lt_succ_iff_lt_or_eq.1 hi with hi | rfl
      · obtain ⟨v, hv, hvt, hve⟩ := hhold i hi
        exact ⟨v, by rw [List.getElem?_set_ne (by omega), hv], hvt, hve⟩
      · refine ⟨z, by simp [hwr], hzt.trans htx, fun k hk => ?_⟩
        simp only [Ty.laneCount, List.prod_cons, List.prod_nil, Nat.mul_one] at hk hex hey
        rw [hze k hk, stageLanes, mergeLane_congr hstep hdvd hk (Nat.zero_le _) hex hey,
          mergeLane_congr hstep hdvd hk (by omega) hex hey]
    · rw [List.getElem?_set_ne (by omega), hframe _ (by omega)]

def butterfly (w VL : Nat) (L : Nat → Nat → Nat) : Nat → Nat → Nat → Nat
  | 0 => L
  | s + 1 => stageLanes w VL (2 ^ s) (butterfly w VL L s)

theorem sum_range_two_mul (f : Nat → Nat) (n : Nat) :
    ∑ j ∈ Finset.range (2 * n), f j =
      ∑ j ∈ Finset.range n, f (2 * j) + ∑ j ∈ Finset.range n, f (2 * j + 1) := by
  induction n with
  | zero => simp
  | succ n ih =>
    rw [show 2 * (n + 1) = 2 * n + 1 + 1 by ring, Finset.sum_range_succ, Finset.sum_range_succ, ih,
      Finset.sum_range_succ, Finset.sum_range_succ]
    ring

theorem mergeLane_split (x y : Nat → Nat) {P half a c b : Nat} (hc : c < 2) (hb : b < P) :
    mergeLane x y P half ((2 * a + c) * P + b) = (if c = 0 then x else y) (half + a * P + b) := by
  have hP : 0 < P := by omega
  have h1 : ((2 * a + c) * P + b) / P = 2 * a + c := by
    rw [Nat.add_comm, Nat.add_mul_div_right _ _ hP, Nat.div_eq_of_lt hb, Nat.zero_add]
  have h2 : ((2 * a + c) * P + b) / (2 * P) = a := by
    rw [show (2 * a + c) * P + b = 2 * P * a + (c * P + b) by ring, Nat.mul_add_div (by omega),
      Nat.div_eq_of_lt (by have := Nat.mul_le_mul_right P (show c ≤ 1 by omega); omega),
      Nat.add_zero]
  have h3 : ((2 * a + c) * P + b) % P = b := by
    rw [Nat.add_comm, Nat.add_mul_mod_self_right, Nat.mod_eq_of_lt hb]
  have h4 : (2 * a + c) % 2 = c := by omega
  simp only [mergeLane, h1, h2, h3, h4]
  split_ifs <;> rfl

/-- The stage invariant: after `s` stages on `2^m` vectors, lane `a * 2^s + b` of vector `q`
is the sum, modulo `2^w`, of lanes `a + j * 2^(m-s)` (`j < 2^s`) of input `q * 2^s + b`. -/
theorem butterfly_closed {w m : Nat} {L : Nat → Nat → Nat} (hL : ∀ i k, L i k < 2 ^ w) :
    ∀ s ≤ m, ∀ q a b, a < 2 ^ (m - s) → b < 2 ^ s →
      butterfly w (2 ^ m) L s q (a * 2 ^ s + b) =
        (∑ j ∈ Finset.range (2 ^ s), L (q * 2 ^ s + b) (a + j * 2 ^ (m - s))) % 2 ^ w := by
  intro s
  induction s with
  | zero =>
    intro _ q a b _ hb
    obtain rfl : b = 0 := by simpa using hb
    simp [butterfly, Nat.mod_eq_of_lt (hL _ _)]
  | succ s ih =>
    intro hs q a b ha hb
    obtain ⟨M, hM⟩ : ∃ M, 2 ^ (m - s) = 2 * M ∧ 2 ^ (m - (s + 1)) = M :=
      ⟨2 ^ (m - (s + 1)), by rw [← pow_succ']; congr 1; omega, rfl⟩
    have hVL : 2 ^ m / 2 = M * 2 ^ s := by
      rw [show 2 ^ m = 2 * (M * 2 ^ s) by rw [← hM.2, ← pow_add, ← pow_succ']; congr 1; omega,
        Nat.mul_div_cancel_left _ (by omega)]
    have hbc : b / 2 ^ s < 2 := by
      rw [Nat.div_lt_iff_lt_mul (Nat.two_pow_pos s)]; rw [pow_succ] at hb; omega
    obtain ⟨c, b0, hc, hb0, rfl⟩ : ∃ c b0, c < 2 ∧ b0 < 2 ^ s ∧ b = c * 2 ^ s + b0 :=
      ⟨b / 2 ^ s, b % 2 ^ s, hbc, Nat.mod_lt _ (Nat.two_pow_pos s), (Nat.div_add_mod' b _).symm⟩
    have hsel : ∀ i, (if c = 0 then butterfly w (2 ^ m) L s (2 * q)
        else butterfly w (2 ^ m) L s (2 * q + 1)) i = butterfly w (2 ^ m) L s (2 * q + c) i := by
      intro i; rcases (show c = 0 ∨ c = 1 by omega) with rfl | rfl <;> rfl
    have hidx : (2 * q + c) * 2 ^ s + b0 = q * 2 ^ (s + 1) + (c * 2 ^ s + b0) := by ring
    rw [show a * 2 ^ (s + 1) + (c * 2 ^ s + b0) = (2 * a + c) * 2 ^ s + b0 by ring]
    simp only [butterfly, stageLanes]
    rw [mergeLane_split _ _ hc hb0, mergeLane_split _ _ hc hb0, hsel, hsel, hVL, Nat.zero_add,
      show M * 2 ^ s + a * 2 ^ s + b0 = (a + M) * 2 ^ s + b0 by ring,
      ih (by omega) _ a b0 (by omega) hb0, ih (by omega) _ (a + M) b0 (by omega) hb0,
      ← Nat.add_mod, hidx, pow_succ', sum_range_two_mul, hM.1, hM.2]
    congr 2 <;> refine Finset.sum_congr rfl (fun j _ => ?_) <;> congr 1 <;> ring

theorem numPairs_eq {m s : Nat} (hs : s < m) : 2 ^ m / 2 / 2 ^ s = 2 ^ (m - (s + 1)) := by
  rw [Nat.div_div_eq_div_mul, ← pow_succ', Nat.pow_div (by omega) (by omega)]

theorem stageLoop_spec {r m w : Nat} {sg : Signedness} {L : Nat → Nat → Nat} :
    ∀ d s fuel (tmp : List Expr), s + d = m → d ≤ fuel →
      Holds F ρ tmp r (2 ^ (m - s)) (.vector [2 ^ m] (.integer w sg)) (butterfly w (2 ^ m) L s) →
      ∃ tmp', stageLoop (2 ^ m) r fuel (2 ^ s) (2 ^ m / 2 / 2 ^ s) tmp = .ok tmp' ∧
        tmp'.length = tmp.length ∧
        Holds F ρ tmp' r 1 (.vector [2 ^ m] (.integer w sg)) (butterfly w (2 ^ m) L m) ∧
        ∀ x, x < r ∨ r + 2 ^ m ≤ x → tmp'[x]? = tmp[x]? := by
  intro d
  induction d with
  | zero =>
    intro s fuel tmp hs _ hh
    obtain rfl : s = m := by omega
    refine ⟨tmp, ?_, rfl, by simpa using hh, fun _ _ => rfl⟩
    cases fuel <;> simp [stageLoop]
  | succ d ih =>
    intro s fuel tmp hs hf hh
    obtain ⟨f, rfl⟩ : ∃ f, fuel = f + 1 := ⟨fuel - 1, by omega⟩
    have hsm : s < m := by omega
    have hnp := numPairs_eq hsm
    have hpairs : 2 * (2 ^ m / 2 / 2 ^ s) = 2 ^ (m - s) := by
      rw [hnp, ← pow_succ']; congr 1; omega
    obtain ⟨tmp1, hrun, hlen, hhold, hframe⟩ := pairs_spec F ρ
      (show Holds F ρ tmp r (2 * (2 ^ m / 2 / 2 ^ s)) _ _ by rwa [hpairs]) (isPowerOf2_two_pow m) (Nat.two_pow_pos s)
      (by rw [← pow_succ']; exact Nat.pow_dvd_pow 2 hsm) _ le_rfl
    obtain ⟨tmp2, hrun2, hlen2, hhold2, hframe2⟩ := ih (s + 1) f tmp1 (by omega) (by omega)
      (by rwa [hnp] at hhold)
    refine ⟨tmp2, ?_, hlen2.trans hlen, hhold2, fun x hx => ?_⟩
    · rw [stageLoop, if_pos (Nat.pow_lt_pow_right (by norm_num) hsm), hrun]
      simpa [← pow_succ, Nat.div_div_eq_div_mul, Nat.mul_assoc, Nat.mul_comm 2] using hrun2
    · rw [hframe2 x hx, hframe x (by rw [hnp]; have := Nat.pow_le_pow_right (show 2 > 0 by omega) (show m - (s + 1) ≤ m by omega); omega)]

theorem reduceGroup_spec {tmp : List Expr} {r m w : Nat} {sg : Signedness} {L : Nat → Nat → Nat}
    (hL : ∀ i k, L i k < 2 ^ w)
    (hh : Holds F ρ tmp r (2 ^ m) (.vector [2 ^ m] (.integer w sg)) L) :
    ∃ tmp', reduceGroup (2 ^ m) r tmp = .ok tmp' ∧ tmp'.length = tmp.length ∧
      (∃ o, tmp'[r]? = some o ∧ o.ty = .vector [2 ^ m] (.integer w sg) ∧
        ∀ k < 2 ^ m, o.eval F ρ k = (∑ l ∈ Finset.range (2 ^ m), L k l) % 2 ^ w) ∧
      ∀ x, x < r ∨ r + 2 ^ m ≤ x → tmp'[x]? = tmp[x]? := by
  obtain ⟨tmp', hrun, hlen, hhold, hframe⟩ := @stageLoop_spec F ρ r m w sg L m 0 (2 ^ m) tmp
    (by omega) (Nat.lt_two_pow m).le (by simpa using hh)
  obtain ⟨o, ho, hot, hoe⟩ := hhold 0 (by omega)
  refine ⟨tmp', by simpa [reduceGroup] using hrun, hlen, ⟨o, by simpa using ho, hot, fun k hk => ?_⟩,
    hframe⟩
  rw [hoe k (by simpa [hot] using hk)]
  simpa using butterfly_closed hL m le_rfl 0 0 k (by simp) hk

theorem appendChecked_fold {VL : Nat} {e : ElemType} (inputs : List Expr)
    (hty : ∀ v ∈ inputs, v.ty = .vector [VL] e) (acc : List Expr) :
    inputs.foldlM (appendChecked VL) acc = .ok (acc ++ inputs) := by
  induction inputs generalizing acc with
  | nil => simp
  | cons v vs ih =>
    simp [appendChecked, getLengthOf1DVector, hty v (by simp),
      ih (fun u hu => hty u (by simp [hu]))]

theorem groupStarts_eq (k M : Nat) (hM : 0 < M) : groupStarts (k * M) M = List.range' 0 k M := by
  rw [groupStarts, show k * M + M - 1 = (M - 1) + M * k by rw [Nat.mul_comm]; omega,
    Nat.add_mul_div_left _ _ hM, Nat.div_eq_of_lt (by omega), Nat.zero_add]

theorem reduceGroup_sums {tmp : List Expr} {r m w : Nat} {sg : Signedness}
    (hty : ∀ i < 2 ^ m, ∃ v, tmp[r + i]? = some v ∧ v.ty = .vector [2 ^ m] (.integer w sg)) :
    ∃ tmp', reduceGroup (2 ^ m) r tmp = .ok tmp' ∧ tmp'.length = tmp.length ∧
      (∀ x, x < r ∨ r + 2 ^ m ≤ x → tmp'[x]? = tmp[x]?) ∧
      ∀ k < 2 ^ m, ∃ o v, tmp'[r]? = some o ∧ tmp[r + k]? = some v ∧
        o.ty = .vector [2 ^ m] (.integer w sg) ∧
        o.eval F ρ k = (∑ l ∈ Finset.range (2 ^ m), v.eval F ρ l) % 2 ^ w := by
  let L : Nat → Nat → Nat := fun i l => ((tmp[r + i]?).map (fun v => v.eval F ρ l)).getD 0 % 2 ^ w
  have hLv : ∀ i v l, tmp[r + i]? = some v → v.ty = .vector [2 ^ m] (.integer w sg) →
      L i l = v.eval F ρ l := by
    intro i v l hv hvt
    simp only [L, hv, Option.map_some', Option.getD_some]
    exact v.eval_mod_of_width F ρ (by simp [hvt]) l
  obtain ⟨tmp', hred, hlen, ⟨o, ho, hot, hoe⟩, hframe⟩ :=
    reduceGroup_spec F ρ (show ∀ i l, L i l < 2 ^ w from fun i l => Nat.mod_lt _ (Nat.two_pow_pos w)) (fun i hi => by
      obtain ⟨v, hv, hvt⟩ := hty i hi
      exact ⟨v, hv, hvt, fun l _ => (hLv i v l hv hvt).symm⟩)
  refine ⟨tmp', hred, hlen, hframe, fun k hk => ?_⟩
  obtain ⟨v, hv, hvt⟩ := hty k hk
  refine ⟨o, v, ho, hv, hot, ?_⟩
  rw [hoe k hk]
  exact congrArg (· % 2 ^ w) (Finset.sum_congr rfl (fun l _ => hLv k v l hv hvt))

theorem groups_spec {inputs : List Expr} {m k w : Nat} {sg : Signedness}
    (hN : inputs.length = k * 2 ^ m) (hty : ∀ v ∈ inputs, v.ty = .vector [2 ^ m] (.integer w sg)) :
    ∀ g ≤ k, ∃ tmp outs, (List.range' 0 g (2 ^ m)).foldlM (reduceAndEmit (2 ^ m)) (inputs, []) =
        .ok (tmp, outs) ∧ tmp.length = inputs.length ∧ (∀ x, g * 2 ^ m ≤ x → tmp[x]? = inputs[x]?) ∧
      outs.length = g ∧ ∀ i < g, ∀ j < 2 ^ m, ∃ o v, outs[i]? = some o ∧
        inputs[i * 2 ^ m + j]? = some v ∧ o.ty = .vector [2 ^ m] (.integer w sg) ∧
        o.eval F ρ j = (∑ l ∈ Finset.range (2 ^ m), v.eval F ρ l) % 2 ^ w := by
  intro g
  induction g with
  | zero => exact fun _ => ⟨inputs, [], rfl, rfl, fun _ _ => rfl, rfl, fun i hi => absurd hi (by omega)⟩
  | succ g ih =>
    intro hg
    obtain ⟨tmp, outs, hrun, hlen, hframe, houts, hout⟩ := ih (by omega)
    have hM := Nat.two_pow_pos m
    have hgk : (g + 1) * 2 ^ m ≤ k * 2 ^ m := Nat.mul_le_mul_right _ hg
    have hsucc : (g + 1) * 2 ^ m = g * 2 ^ m + 2 ^ m := Nat.succ_mul g _
    have hin : ∀ i < 2 ^ m, ∃ v, tmp[g * 2 ^ m + i]? = some v ∧
        v.ty = .vector [2 ^ m] (.integer w sg) := by
      intro i hi
      obtain ⟨v, hv⟩ : ∃ v, inputs[g * 2 ^ m + i]? = some v :=
        ⟨_, List.getElem?_eq_getElem (by omega)⟩
      exact ⟨v, by rw [hframe _ (by omega), hv], hty v (List.getElem?_mem hv)⟩
    obtain ⟨tmp', hred, hlen', hframe', hsums⟩ := reduceGroup_sums F ρ hin
    obtain ⟨o, -, ho, -⟩ := hsums 0 hM
    refine ⟨tmp', outs ++ [o], ?_, hlen'.trans hlen, fun x hx => ?_, by simp [houts], ?_⟩
    · rw [List.range'_concat, List.foldlM_append, hrun]
      simp [reduceAndEmit, Nat.mul_comm (2 ^ m) g, hred, getAt, ho]
    · rw [hframe' x (by omega), hframe x (by omega)]
    · intro i hi j hj
      rcases Nat.lt_succ_iff_lt_or_eq.1 hi with hi | rfl
      · obtain ⟨o', v, ho', hv⟩ := hout i hi j hj
        exact ⟨o', v, by rw [List.getElem?_append_left (by omega)]; exact ho', hv⟩
      · obtain ⟨o', v, ho', hv, hvs⟩ := hsums j hj
        obtain rfl : o' = o := Option.some.inj (ho'.symm.trans ho)
        refine ⟨o', v, by simp [houts], ?_, hvs⟩
        rwa [hframe _ (by omega)] at hv

theorem multiReduction_spec (vms : ElemType → Int) {inputs : List Expr} {m k w : Nat}
    {sg : Signedness} (hvl : getMachineVectorLength vms (.integer w sg) = 2 ^ m) (hk : 0 < k)
    (hN : inputs.length = k * 2 ^ m)
    (hty : ∀ v ∈ inputs, v.ty = .vector [2 ^ m] (.integer w sg)) :
    ∃ outs, multiReduction vms inputs = .ok outs ∧ outs.length = k ∧
      ∀ i < k, ∀ j < 2 ^ m, ∃ o v, outs[i]? = some o ∧ inputs[i * 2 ^ m + j]? = some v ∧
        o.ty = .vector [2 ^ m] (.integer w sg) ∧
        o.eval F ρ j = (∑ l ∈ Finset.range (2 ^ m), v.eval F ρ l) % 2 ^ w := by
  have hpos : 0 < inputs.length := by rw [hN]; exact Nat.mul_pos hk (Nat.two_pow_pos m)
  obtain ⟨v0, hv0⟩ : ∃ v0, inputs[0]? = some v0 := ⟨_, List.getElem?_eq_getElem hpos⟩
  have hv0t := hty v0 (List.getElem?_mem hv0)
  obtain ⟨tmp, outs, hrun, -, -, houts, hout⟩ := groups_spec F ρ hN hty k le_rfl
  refine ⟨outs, ?_, houts, hout⟩
  simp [multiReduction, hpos, getAt, hv0, getLengthOf1DVector, hv0t, getMachineVectorLengthOf,
    hvl, hN, appendChecked_fold inputs hty, groupStarts_eq k _ (Nat.two_pow_pos m), hrun, hk]

/-- On `k * VL` vectors of `VL = 2^m` lanes, output `i` holds in lane `j` the sum, modulo `2^w`, of
the lanes of input `i * VL + j`. -/
theorem multiReduction_horizontal_sums (vms : ElemType → Int) (m w : Nat) (sg : Signedness)
    (hvl : getMachineVectorLength vms (.integer w sg) = 2 ^ m) :
    (∀ (tmp : List Expr) (r : Nat),
      (∀ i < 2 ^ m, ∃ v, tmp[r + i]? = some v ∧ v.ty = .vector [2 ^ m] (.integer w sg)) →
      ∃ tmp', reduceGroup (2 ^ m) r tmp = .ok tmp' ∧
        (∀ x, x < r ∨ r + 2 ^ m ≤ x → tmp'[x]? = tmp[x]?) ∧
        ∀ j < 2 ^ m, ∃ o v, tmp'[r]? = some o ∧ tmp[r + j]? = some v ∧
          o.eval F ρ j = (∑ l ∈ Finset.range (2 ^ m), v.eval F ρ l) % 2 ^ w) ∧
    ∀ (inputs : List Expr) (k : Nat), 0 < k → inputs.length = k * 2 ^ m →
      (∀ v ∈ inputs, v.ty = .vector [2 ^ m] (.integer w sg)) →
      ∃ outs, multiReduction vms inputs = .ok outs ∧ outs.length = k ∧
        ∀ i < k, ∀ j < 2 ^ m, ∃ o v, outs[i]? = some o ∧ inputs[i * 2 ^ m + j]? = some v ∧
          o.eval F ρ j = (∑ l ∈ Finset.range (2 ^ m), v.eval F ρ l) % 2 ^ w := by
  refine ⟨fun tmp r hty => ?_, fun inputs k hk hN hty => ?_⟩
  · obtain ⟨tmp', hred, -, hframe, hsums⟩ := reduceGroup_sums F ρ hty
    exact ⟨tmp', hred, hframe, fun j hj => by
      obtain ⟨o, v, ho, hv, -, he⟩ := hsums j hj; exact ⟨o, v, ho, hv, he⟩⟩
  · obtain ⟨outs, hred, hlen, hsums⟩ := multiReduction_spec F ρ vms hvl hk hN hty
    exact ⟨outs, hred, hlen, fun i hi j hj => by
      obtain ⟨o, v, ho, hv, -, he⟩ := hsums i hi j hj; exact ⟨o, v, ho, hv, he⟩⟩

theorem multiReduction_eight_inputs :
    getMachineVectorLength (fun _ => 4) (.integer 32 .signless) = 2 ^ 2 ∧
      ∃ outs, multiReduction (fun _ => 4)
        ((List.range 8).map (fun i => .arg i (.vector [4] (.integer 32 .signless)))) = .ok outs ∧
        outs.length = 2 := by
  refine ⟨rfl, ?_⟩
  obtain ⟨-, h⟩ := multiReduction_horizontal_sums
    ⟨fun _ _ _ x => x, fun _ _ a _ => a, fun _ a _ _ => a, fun _ _ => 0⟩ (fun _ _ => 0)
    (fun _ => 4) 2 32 .signless rfl
  obtain ⟨outs, hred, hlen, -⟩ :=
    h ((List.range 8).map (fun i => .arg i (.vector [4] (.integer 32 .signless)))) 2
      (by decide) (by simp) (by simp)
  exact ⟨outs, hred, hlen⟩

end

end DialectBuilder.MultiReduction
