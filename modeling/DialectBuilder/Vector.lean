import DialectBuilder.Ir

namespace DialectBuilder.Vector

open DialectBuilder.Types DialectBuilder.Ir

/-- `assert(cond && msg)`: a failed assertion aborts the build with its message. -/
def expect (cond : Bool) (msg : String) : Except String Unit :=
  if cond then pure () else throw msg

@[simp] theorem expect_true (msg : String) : expect true msg = pure () := rfl

@[simp] theorem expect_false (msg : String) : expect false msg = .error msg := rfl

@[simp] theorem pure_eq_ok {α : Type} (x : α) : (pure x : Except String α) = .ok x := rfl

@[simp] theorem ok_bind {α β : Type} (x : α) (f : α → Except String β) :
    (Except.ok x >>= f) = f x := rfl

@[simp] theorem error_bind {α β : Type} (m : String) (f : α → Except String β) :
    (Except.error m >>= f) = .error m := rfl

@[simp] theorem ok_map {α β : Type} (f : α → β) (a : α) :
    (Except.ok a : Except String α).map f = .ok (f a) := rfl

theorem bind_eq_ok {α β : Type} {x : Except String α} {f : α → Except String β} {b : β} :
    x >>= f = .ok b ↔ ∃ a, x = .ok a ∧ f a = .ok b := by
  cases x <;> simp [bind, Except.bind]

@[simp] theorem expect_eq_ok {c : Bool} {msg : String} {u : Unit} :
    expect c msg = .ok u ↔ c = true := by
  cases c <;> simp [expect, throw, throwThe, MonadExceptOf.throw]

/-- Reading `SmallVector::operator[]`, which asserts that the index is in range. -/
def getAt {α : Type} (xs : List α) (i : Nat) : Except String α :=
  match xs[i]? with
  | some x => pure x
  | none => throw "idx < size()"

def setAt {α : Type} (xs : List α) (i : Nat) (x : α) : Except String (List α) :=
  if i < xs.length then pure (xs.set i x) else throw "idx < size()"

theorem getAt_of_lt {α : Type} {xs : List α} {i : Nat} (h : i < xs.length) :
    getAt xs i = pure xs[i] := by
  simp [getAt, List.getElem?_eq_getElem h]

theorem setAt_of_lt {α : Type} {xs : List α} {i : Nat} (x : α) (h : i < xs.length) :
    setAt xs i x = pure (xs.set i x) := by
  simp [setAt, h]

theorem foldlM_range_inv {β : Type} (body : β → Nat → Except String β) (P : Nat → β → Prop)
    {n : Nat} {init : β} (h0 : P 0 init)
    (h : ∀ i < n, ∀ b, P i b → ∃ b', body b i = .ok b' ∧ P (i + 1) b') :
    ∃ b, (List.range n).foldlM body init = .ok b ∧ P n b := by
  induction n with
  | zero => exact ⟨init, rfl, h0⟩
  | succ n ih =>
    obtain ⟨b, hb, hP⟩ := ih (fun i hi => h i (by omega))
    obtain ⟨b', hb', hP'⟩ := h n (by omega) b hP
    refine ⟨b', ?_, hP'⟩
    simp [List.range_succ, List.foldlM_append, hb, hb']

theorem foldlM_range_reverse_inv {β : Type} (body : β → Nat → Except String β)
    (P : Nat → β → Prop) {n : Nat} {init : β} (h0 : P n init)
    (h : ∀ i < n, ∀ b, P (i + 1) b → ∃ b', body b i = .ok b' ∧ P i b') :
    ∃ b, (List.range n).reverse.foldlM body init = .ok b ∧ P 0 b := by
  induction n generalizing init with
  | zero => exact ⟨init, rfl, h0⟩
  | succ n ih =>
    obtain ⟨b', hb', hP'⟩ := h n (by omega) init h0
    obtain ⟨b, hb, hP⟩ := ih hP' (fun i hi => h i (by omega))
    refine ⟨b, ?_, hP⟩
    rw [List.range_succ, List.reverse_append, List.reverse_singleton, List.singleton_append,
      List.foldlM_cons, hb', ok_bind, hb]

theorem foldlM_range_ok_inv {β : Type} (body : β → Nat → Except String β) (P : Nat → β → Prop)
    {n : Nat} {init b : β} (h0 : P 0 init)
    (h : ∀ i < n, ∀ b b', P i b → body b i = .ok b' → P (i + 1) b')
    (hok : (List.range n).foldlM body init = .ok b) : P n b := by
  induction n generalizing b with
  | zero => cases hok; exact h0
  | succ n ih =>
    rw [List.range_succ, List.foldlM_append, bind_eq_ok] at hok
    obtain ⟨a, ha, hb⟩ := hok
    obtain ⟨c, hc, hcb⟩ := bind_eq_ok.1 (by simpa using hb)
    obtain rfl : c = b := by simpa using hcb
    exact h n (by omega) a c (ih (fun i hi => h i (by omega)) ha) hc

def splat (vecType : Ty) (val : Expr) : Expr := .splat vecType val

def shuffle (lhs rhs : Expr) (mask : List Nat) : Expr :=
  .shuffle (.vector [mask.length] lhs.ty.elem) mask lhs rhs

def isPowerOf2 (num : Nat) : Bool := num &&& (num - 1) == 0

def getLengthOf1DVector (vec : Expr) : Except String Nat :=
  match vec.ty with
  | .vector [n] _ => pure n
  | .vector _ _ => throw "expected a 1D vector"
  | .scalar _ => throw "expected a vector type"

/-- `VectorBuilder::getMachineVectorLength` of an element type. `vms` is the target's
`VectorMachineSupport::getVectorLength`, which lies outside this code. -/
def getMachineVectorLength (vms : ElemType → Int) (elementType : ElemType) : Nat :=
  (max 1 (vms elementType)).toNat

theorem getMachineVectorLength_pos (vms : ElemType → Int) (elementType : ElemType) :
    0 < getMachineVectorLength vms elementType := by
  simp [getMachineVectorLength]

def getMachineVectorLengthOf (vms : ElemType → Int) (vecValue : Expr) : Except String Nat :=
  match vecValue.ty with
  | .vector _ e => pure (getMachineVectorLength vms e)
  | .scalar _ => throw "expected vector type"

def fillRun (base step : Nat) (st : List Nat × Nat) : Except String (List Nat × Nat) :=
  (List.range step).foldlM (fun st e => do pure (← setAt st.1 st.2 (base + e), st.2 + 1)) st

def fillPair (VL step firstLane : Nat) (st : List Nat × Nat) (p : Nat) :
    Except String (List Nat × Nat) := do
  let st ← fillRun (firstLane + p * step) step st
  fillRun (firstLane + VL + p * step) step st

/-- The mask loops of `mergeHigh` (`firstLane = 0`) and `mergeLow` (`firstLane = VL / 2`). -/
def mergeMask (VL step firstLane : Nat) : Except String (List Nat) := do
  let st ← (List.range (VL / (2 * step))).foldlM (fillPair VL step firstLane)
    (List.replicate VL 0, 0)
  pure st.1

def mergeLength (lhs rhs : Expr) : Except String Nat := do
  let VL ← getLengthOf1DVector lhs
  let VLr ← getLengthOf1DVector rhs
  expect (VLr == VL) "expected same sized vectors"
  expect (isPowerOf2 VL) "expected power of 2 vector length"
  pure VL

def mergeHigh (lhs rhs : Expr) (step : Nat) : Except String Expr := do
  let VL ← mergeLength lhs rhs
  let mask ← mergeMask VL step 0
  pure (shuffle lhs rhs mask)

def mergeLow (lhs rhs : Expr) (step : Nat) : Except String Expr := do
  let VL ← mergeLength lhs rhs
  let mask ← mergeMask VL step (VL / 2)
  pure (shuffle lhs rhs mask)

/-- Closed form of mask entry `k` of `mergeHigh` (`firstLane = 0`) and `mergeLow`
(`firstLane = VL / 2`). -/
def maskLane (VL step firstLane k : Nat) : Nat :=
  (if k / step % 2 = 0 then firstLane else firstLane + VL) + k / (2 * step) * step + k % step

theorem maskLane_left (VL step firstLane p e : Nat) (he : e < step) :
    maskLane VL step firstLane (2 * step * p + e) = firstLane + p * step + e := by
  have hs : 0 < step := by omega
  have h1 : (2 * step * p + e) / step = 2 * p := by
    rw [show 2 * step * p + e = step * (2 * p) + e by ring, Nat.mul_add_div hs,
      Nat.div_eq_of_lt he, Nat.add_zero]
  have h2 : (2 * step * p + e) / (2 * step) = p := by
    rw [Nat.mul_add_div (by omega), Nat.div_eq_of_lt (by omega), Nat.add_zero]
  have h3 : (2 * step * p + e) % step = e := by
    rw [show 2 * step * p + e = step * (2 * p) + e by ring, Nat.mul_add_mod, Nat.mod_eq_of_lt he]
  simp [maskLane, h1, h2, h3]

theorem maskLane_right (VL step firstLane p e : Nat) (he : e < step) :
    maskLane VL step firstLane (2 * step * p + step + e) = firstLane + VL + p * step + e := by
  have hs : 0 < step := by omega
  have h1 : (2 * step * p + step + e) / step = 2 * p + 1 := by
    rw [show 2 * step * p + step + e = step * (2 * p + 1) + e by ring, Nat.mul_add_div hs,
      Nat.div_eq_of_lt he, Nat.add_zero]
  have h2 : (2 * step * p + step + e) / (2 * step) = p := by
    rw [Nat.add_assoc, Nat.mul_add_div (by omega), Nat.div_eq_of_lt (by omega), Nat.add_zero]
  have h3 : (2 * step * p + step + e) % step = e := by
    rw [show 2 * step * p + step + e = step * (2 * p + 1) + e by ring, Nat.mul_add_mod,
      Nat.mod_eq_of_lt he]
  simp [maskLane, h1, h2, h3, Nat.add_mod]

def writeLanes (f : Nat → Nat) (n : Nat) (mask : List Nat) : Except String (List Nat) :=
  (List.range n).foldlM (fun m k => setAt m k (f k)) mask

theorem foldlM_congr_mem {β α : Type} {f g : β → α → Except String β} :
    ∀ {l : List α} {init : β}, (∀ b, ∀ a ∈ l, f b a = g b a) → l.foldlM f init = l.foldlM g init
  | [], _, _ => rfl
  | a :: l, init, h => by
    simp only [List.foldlM_cons, h init a (List.mem_cons_self _ _)]
    congr 1
    funext b
    exact foldlM_congr_mem fun b x hx => h b x (List.mem_cons_of_mem _ hx)

theorem counterLoop_eq (f : Nat → Nat) (n i : Nat) (m : List Nat) :
    (List.range n).foldlM (fun st e => do pure (← setAt st.1 st.2 (f e), st.2 + 1)) (m, i) =
      ((List.range n).foldlM (fun m e => setAt m (i + e) (f e)) m).map (·, i + n) := by
  induction n with
  | zero => rfl
  | succ n ih =>
    rw [List.range_succ, List.foldlM_append, List.foldlM_append, ih]
    cases (List.range n).foldlM (fun m e => setAt m (i + e) (f e)) m with
    | error err => rfl
    | ok m' =>
      simp only [Except.map, List.foldlM_cons, List.foldlM_nil, ok_bind]
      cases setAt m' (i + n) (f n) <;> rfl

theorem fillPair_eq (VL step firstLane p : Nat) (m : List Nat) :
    fillPair VL step firstLane (m, 2 * step * p) p =
      ((List.range (2 * step)).foldlM (fun m j => setAt m (2 * step * p + j)
        (maskLane VL step firstLane (2 * step * p + j))) m).map (·, 2 * step * p + 2 * step) := by
  have hleft : (List.range step).foldlM (fun m j => setAt m (2 * step * p + j)
      (maskLane VL step firstLane (2 * step * p + j))) m =
      (List.range step).foldlM (fun m e => setAt m (2 * step * p + e) (firstLane + p * step + e)) m :=
    foldlM_congr_mem fun _ e he => by rw [maskLane_left VL step firstLane p e (List.mem_range.1 he)]
  have hright : ∀ m', (List.range step).foldlM (fun m j => setAt m (2 * step * p + (step + j))
      (maskLane VL step firstLane (2 * step * p + (step + j)))) m' =
      (List.range step).foldlM (fun m e => setAt m (2 * step * p + step + e)
        (firstLane + VL + p * step + e)) m' := fun m' =>
    foldlM_congr_mem fun _ e he => by
      rw [← Nat.add_assoc, maskLane_right VL step firstLane p e (List.mem_range.1 he)]
  have hsplit : List.range (2 * step) = List.range step ++ (List.range step).map (step + ·) := by
    rw [two_mul, List.range_add]
  rw [hsplit, List.foldlM_append, hleft]
  simp only [List.foldlM_map, hright, fillPair, fillRun, counterLoop_eq]
  cases (List.range step).foldlM (fun m e => setAt m (2 * step * p + e) (firstLane + p * step + e)) m with
  | error err => rfl
  | ok m' =>
    simp only [ok_map, ok_bind, counterLoop_eq]
    rw [show 2 * step * p + step + step = 2 * step * p + 2 * step by ring]

theorem fillPairs_eq (VL step firstLane P : Nat) (m : List Nat) :
    (List.range P).foldlM (fillPair VL step firstLane) (m, 0) =
      (writeLanes (maskLane VL step firstLane) (2 * step * P) m).map (·, 2 * step * P) := by
  induction P with
  | zero => rfl
  | succ P ih =>
    have hsplit : List.range (2 * step * (P + 1)) =
        List.range (2 * step * P) ++ (List.range (2 * step)).map (2 * step * P + ·) := by
      rw [Nat.mul_succ, List.range_add]
    rw [List.range_succ, List.foldlM_append, ih]
    unfold writeLanes
    rw [hsplit, List.foldlM_append]
    simp only [List.foldlM_map]
    cases (List.range (2 * step * P)).foldlM (fun m k => setAt m k (maskLane VL step firstLane k)) m with
    | error err => rfl
    | ok m' =>
      simp only [ok_map, ok_bind, List.foldlM_cons, List.foldlM_nil, fillPair_eq]
      rw [show 2 * step * (P + 1) = 2 * step * P + 2 * step by ring]
      cases (List.range (2 * step)).foldlM (fun m j => setAt m (2 * step * P + j)
        (maskLane VL step firstLane (2 * step * P + j))) m' <;> rfl

theorem mergeMask_eq_writeLanes (VL step firstLane : Nat) :
    mergeMask VL step firstLane =
      writeLanes (maskLane VL step firstLane) (2 * step * (VL / (2 * step))) (List.replicate VL 0) := by
  rw [mergeMask, fillPairs_eq]
  cases writeLanes (maskLane VL step firstLane) (2 * step * (VL / (2 * step))) (List.replicate VL 0) <;> rfl

theorem writeLanes_spec (f : Nat → Nat) {n : Nat} {m : List Nat} (hn : n ≤ m.length) :
    ∃ m', writeLanes f n m = .ok m' ∧ m'.length = m.length ∧
      ∀ k, m'[k]? = if k < n then some (f k) else m[k]? := by
  induction n with
  | zero => exact ⟨m, rfl, rfl, fun k => by simp⟩
  | succ n ih =>
    obtain ⟨m', hrun, hlen, hget⟩ := ih (by omega)
    refine ⟨m'.set n (f n), ?_, by simp [hlen], fun k => ?_⟩
    · rw [writeLanes, List.range_succ, List.foldlM_append, ← writeLanes, hrun]
      simp [setAt, hlen, show n < m.length by omega]
    · rw [List.getElem?_set, hget, hlen]
      by_cases hk : n = k
      · subst hk; simp; omega
      · simp only [hk, if_false]
        split_ifs <;> first | rfl | omega

theorem mergeMask_spec (VL step firstLane : Nat) :
    ∃ mask, mergeMask VL step firstLane = .ok mask ∧ mask.length = VL ∧
      ∀ k, mask[k]? = if k < VL then some (if k < 2 * step * (VL / (2 * step))
        then maskLane VL step firstLane k else 0) else none := by
  obtain ⟨ms, hrun, hlen, hms⟩ := @writeLanes_spec (maskLane VL step firstLane) _
    (List.replicate VL 0) (by simpa using Nat.mul_div_le VL (2 * step))
  refine ⟨ms, by rw [mergeMask_eq_writeLanes, hrun], by simpa using hlen, fun k => ?_⟩
  rw [hms, List.getElem?_replicate]
  have := Nat.mul_div_le VL (2 * step)
  split_ifs <;> first | rfl | omega

theorem maskLane_lt {VL step firstLane k : Nat} (hstep : 0 < step) (hfirst : firstLane ≤ VL / 2)
    (hk : k < 2 * step * (VL / (2 * step))) : maskLane VL step firstLane k < 2 * VL := by
  have ha : k / (2 * step) < VL / (2 * step) :=
    (Nat.div_lt_iff_lt_mul (by omega)).2 (by rwa [Nat.mul_comm])
  have hq : (k / (2 * step) + 1) * step ≤ VL / (2 * step) * step := Nat.mul_le_mul_right _ ha
  have hv : 2 * (VL / (2 * step) * step) ≤ VL := by
    have := Nat.mul_div_le VL (2 * step)
    rw [show 2 * (VL / (2 * step) * step) = 2 * step * (VL / (2 * step)) by ring]
    exact this
  have hm : k % step < step := Nat.mod_lt _ hstep
  rw [Nat.add_mul, Nat.one_mul] at hq
  unfold maskLane
  split_ifs <;> omega

section

variable (F : FloatSemantics) (ρ : Nat → Nat → Nat)

/-- Lane `k` of `mergeHigh` (`half = 0`) or `mergeLow` (`half = VL / 2`) on lanes `x`, `y`. -/
def mergeLane (x y : Nat → Nat) (step half k : Nat) : Nat :=
  if k / step % 2 = 0 then x (half + k / (2 * step) * step + k % step)
  else y (half + k / (2 * step) * step + k % step)

theorem isPowerOf2_two_pow (m : Nat) : isPowerOf2 (2 ^ m) = true := by
  simp [isPowerOf2, Nat.and_pow_two_sub_one_eq_mod]

theorem merge_index_lt {VL step k : Nat} (hstep : 0 < step) (hdvd : 2 * step ∣ VL) (hk : k < VL) :
    k / (2 * step) * step + k % step < VL / 2 := by
  obtain ⟨Q, rfl⟩ := hdvd
  have ha : k / (2 * step) < Q := (Nat.div_lt_iff_lt_mul (by omega)).2 (by rwa [Nat.mul_comm])
  have hm : k % step < step := Nat.mod_lt _ hstep
  have hq : (k / (2 * step) + 1) * step ≤ Q * step := Nat.mul_le_mul_right _ ha
  have hv : 2 * step * Q / 2 = Q * step := by
    rw [show 2 * step * Q = 2 * (Q * step) by ring, Nat.mul_div_cancel_left _ (by omega)]
  rw [Nat.add_mul, Nat.one_mul] at hq
  omega

theorem eval_shuffle (lhs rhs : Expr) (mask : List Nat) (k : Nat) :
    (shuffle lhs rhs mask).eval F ρ k =
      (if mask.getD k 0 < lhs.ty.laneCount then lhs.eval F ρ (mask.getD k 0)
        else rhs.eval F ρ (mask.getD k 0 - lhs.ty.laneCount)) % 2 ^ lhs.ty.elem.bitWidth := by
  simp [shuffle, Expr.eval]

theorem merge_shuffle_spec {lhs rhs : Expr} {VL step half : Nat} {e : ElemType}
    (hl : lhs.ty = .vector [VL] e) (hr : rhs.ty = lhs.ty) (hstep : 0 < step)
    (hdvd : 2 * step ∣ VL) (hhalf : half + VL / 2 ≤ VL) {mask : List Nat}
    (hmask : mergeMask VL step half = .ok mask) :
    (shuffle lhs rhs mask).ty = lhs.ty ∧ ∀ k < VL,
      (shuffle lhs rhs mask).eval F ρ k = mergeLane (lhs.eval F ρ) (rhs.eval F ρ) step half k := by
  obtain ⟨ms, hms, hlen, hget⟩ := mergeMask_spec VL step half
  obtain rfl : ms = mask := by rw [hms] at hmask; exact Except.ok.inj hmask
  refine ⟨by simp [shuffle, hl, hlen], fun k hk => ?_⟩
  have hfull : 2 * step * (VL / (2 * step)) = VL := Nat.mul_div_cancel' hdvd
  have hlane : ms.getD k 0 = maskLane VL step half k := by
    simp [List.getD_eq_getElem?_getD, hget, hk, hfull]
  have hidx := merge_index_lt hstep hdvd hk
  have hwl : lhs.ty.elem.bitWidth = e.bitWidth := by simp [hl]
  have hwr : rhs.ty.elem.bitWidth = e.bitWidth := by simp [hr, hl]
  rw [eval_shuffle, hlane, hl]
  simp only [maskLane, mergeLane, Ty.laneCount, List.prod_cons, List.prod_nil, Nat.mul_one,
    Ty.elem_vector]
  split_ifs with h1 h2 h2
  · exact lhs.eval_mod_of_width F ρ hwl _
  · omega
  · omega
  · rw [show half + VL + k / (2 * step) * step + k % step - VL =
      half + k / (2 * step) * step + k % step by omega]
    exact rhs.eval_mod_of_width F ρ hwr _

theorem mergeLength_eq {lhs rhs : Expr} {VL : Nat} {e : ElemType} (hl : lhs.ty = .vector [VL] e)
    (hr : rhs.ty = lhs.ty) (hpow : isPowerOf2 VL = true) : mergeLength lhs rhs = .ok VL := by
  simp [mergeLength, getLengthOf1DVector, hl, hr, hpow]

theorem mergeHigh_spec {lhs rhs : Expr} {VL step : Nat} {e : ElemType}
    (hl : lhs.ty = .vector [VL] e) (hr : rhs.ty = lhs.ty) (hpow : isPowerOf2 VL = true)
    (hstep : 0 < step) (hdvd : 2 * step ∣ VL) :
    ∃ h, mergeHigh lhs rhs step = .ok h ∧ h.ty = lhs.ty ∧
      ∀ k < VL, h.eval F ρ k = mergeLane (lhs.eval F ρ) (rhs.eval F ρ) step 0 k := by
  obtain ⟨mask, hmask, -⟩ := mergeMask_spec VL step 0
  exact ⟨_, by simp [mergeHigh, mergeLength_eq hl hr hpow, hmask],
    merge_shuffle_spec F ρ hl hr hstep hdvd (by omega) hmask⟩

theorem mergeLow_spec {lhs rhs : Expr} {VL step : Nat} {e : ElemType}
    (hl : lhs.ty = .vector [VL] e) (hr : rhs.ty = lhs.ty) (hpow : isPowerOf2 VL = true)
    (hstep : 0 < step) (hdvd : 2 * step ∣ VL) :
    ∃ h, mergeLow lhs rhs step = .ok h ∧ h.ty = lhs.ty ∧
      ∀ k < VL, h.eval F ρ k = mergeLane (lhs.eval F ρ) (rhs.eval F ρ) step (VL / 2) k := by
  obtain ⟨mask, hmask, -⟩ := mergeMask_spec VL step (VL / 2)
  exact ⟨_, by simp [mergeLow, mergeLength_eq hl hr hpow, hmask],
    merge_shuffle_spec F ρ hl hr hstep hdvd (by omega) hmask⟩

end

/-- The merge masks write each lane below `2·step·(VL / (2·step))` once, in order, with its closed
form; for powers of two with `2·step ≤ VL`, every lane. -/
theorem merge_masks_write_each_lane_once :
    (∀ VL step firstLane, 0 < step → firstLane ≤ VL / 2 →
      mergeMask VL step firstLane =
        writeLanes (maskLane VL step firstLane) (2 * step * (VL / (2 * step))) (List.replicate VL 0) ∧
      2 * step * (VL / (2 * step)) ≤ VL ∧
      ∀ k < 2 * step * (VL / (2 * step)), maskLane VL step firstLane k < 2 * VL) ∧
    ∀ (F : FloatSemantics) (ρ : Nat → Nat → Nat) (lhs rhs : Expr) (e : ElemType) (a b : Nat),
      2 * 2 ^ b ≤ 2 ^ a → lhs.ty = .vector [2 ^ a] e → rhs.ty = lhs.ty →
      2 * 2 ^ b * (2 ^ a / (2 * 2 ^ b)) = 2 ^ a ∧
      (∃ h, mergeHigh lhs rhs (2 ^ b) = .ok h ∧ h.ty = lhs.ty ∧
        ∀ k < 2 ^ a, h.eval F ρ k = mergeLane (lhs.eval F ρ) (rhs.eval F ρ) (2 ^ b) 0 k) ∧
      (∃ h, mergeLow lhs rhs (2 ^ b) = .ok h ∧ h.ty = lhs.ty ∧
        ∀ k < 2 ^ a, h.eval F ρ k = mergeLane (lhs.eval F ρ) (rhs.eval F ρ) (2 ^ b) (2 ^ a / 2) k) := by
  refine ⟨fun VL step firstLane hstep hfirst => ⟨mergeMask_eq_writeLanes VL step firstLane,
    Nat.mul_div_le VL (2 * step), fun k hk => maskLane_lt hstep hfirst hk⟩,
    fun F ρ lhs rhs e a b hle hl hr => ?_⟩
  have hdvd : 2 * 2 ^ b ∣ 2 ^ a := by
    rw [← pow_succ'] at hle ⊢
    exact Nat.pow_dvd_pow 2 ((Nat.pow_le_pow_iff_right (by norm_num)).1 hle)
  exact ⟨Nat.mul_div_cancel' hdvd,
    mergeHigh_spec F ρ hl hr (isPowerOf2_two_pow a) (by positivity) hdvd,
    mergeLow_spec F ρ hl hr (isPowerOf2_two_pow a) (by positivity) hdvd⟩

theorem merge_masks_eight_by_two :
    mergeMask 8 2 0 = writeLanes (maskLane 8 2 0) (2 * 2 * (8 / (2 * 2))) (List.replicate 8 0) ∧
      2 * 2 ^ 1 * (2 ^ 3 / (2 * 2 ^ 1)) = 2 ^ 3 ∧
      ∃ h, mergeHigh (.arg 0 (.vector [2 ^ 3] (.integer 32 .signless)))
        (.arg 1 (.vector [2 ^ 3] (.integer 32 .signless))) (2 ^ 1) = .ok h := by
  obtain ⟨hmask, -, -⟩ := merge_masks_write_each_lane_once.1 8 2 0 (by decide) (by decide)
  obtain ⟨hN, ⟨h, hh, -⟩, -⟩ := merge_masks_write_each_lane_once.2
    ⟨fun _ _ _ x => x, fun _ _ a _ => a, fun _ a _ _ => a, fun _ _ => 0⟩ (fun _ _ => 0)
    (.arg 0 (.vector [2 ^ 3] (.integer 32 .signless)))
    (.arg 1 (.vector [2 ^ 3] (.integer 32 .signless))) (.integer 32 .signless) 3 1 (by decide)
    rfl rfl
  exact ⟨hmask, hN, h, hh⟩

end DialectBuilder.Vector
