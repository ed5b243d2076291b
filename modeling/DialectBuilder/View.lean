import DialectBuilder.Reshape

namespace DialectBuilder.View

open DialectBuilder.Types DialectBuilder.Vector DialectBuilder.MemRef DialectBuilder.Reshape

def suffixProducts : List Nat → List Nat
  | [] => []
  | _ :: ds => ds.prod :: suffixProducts ds

@[simp] theorem suffixProducts_cons (d : Nat) (ds : List Nat) :
    suffixProducts (d :: ds) = ds.prod :: suffixProducts ds := rfl

@[simp] theorem length_suffixProducts (d : List Nat) : (suffixProducts d).length = d.length := by
  induction d <;> simp_all [suffixProducts]

theorem getElem_suffixProducts {d : List Nat} {i : Nat} (h : i < (suffixProducts d).length) :
    (suffixProducts d)[i] = (d.drop (i + 1)).prod := by
  induction d generalizing i with
  | nil => simp at h
  | cons e es ih => cases i <;> simp [ih]

def InBox (d idx : List Nat) : Prop := List.Forall₂ (· < ·) idx d

/-- A layout that sends the index box of `d` one to one onto `[0, ∏ d)`: no two elements
alias and no storage position in that range is skipped. -/
structure DenseLayout (d : List Nat) (f : List Nat → Nat) : Prop where
  lt : ∀ idx, InBox d idx → f idx < d.prod
  inj : ∀ idx idx', InBox d idx → InBox d idx' → f idx = f idx' → idx = idx'
  surj : ∀ j < d.prod, ∃ idx, InBox d idx ∧ f idx = j

theorem sum_zipWith_suffixProducts (d idx : List Nat) :
    (List.zipWith (· * ·) idx (suffixProducts d)).sum = linearize d idx := by
  induction d generalizing idx with
  | nil => cases idx <;> rfl
  | cons e es ih => cases idx <;> simp [linearize, ih]

theorem linearize_lt {d idx : List Nat} (h : InBox d idx) : linearize d idx < d.prod := by
  induction h with
  | nil => simp [linearize]
  | @cons i e is es hi _ ih =>
    calc i * es.prod + linearize es is < i * es.prod + es.prod := by omega
      _ = (i + 1) * es.prod := by ring
      _ ≤ e * es.prod := Nat.mul_le_mul_right _ hi

theorem delinearize_linearize {d idx : List Nat} (h : InBox d idx) :
    delinearize d (linearize d idx) = idx := by
  induction h with
  | nil => rfl
  | @cons i e is es _ hbox ih =>
    have hlt := linearize_lt hbox
    have hpos : 0 < es.prod := by omega
    simp only [linearize_cons, delinearize, Nat.mul_comm i, Nat.mul_add_div hpos,
      Nat.div_eq_of_lt hlt, Nat.mul_add_mod, Nat.mod_eq_of_lt hlt, Nat.add_zero, ih]

theorem inBox_delinearize {d : List Nat} {j : Nat} (h : j < d.prod) :
    InBox d (delinearize d j) := by
  induction d generalizing j with
  | nil => exact List.Forall₂.nil
  | cons e es ih =>
    have hpos : 0 < es.prod := Nat.pos_of_ne_zero fun h0 => by simp [h0] at h
    exact List.Forall₂.cons ((Nat.div_lt_iff_lt_mul hpos).2 (by simpa [Nat.mul_comm] using h))
      (ih (Nat.mod_lt _ hpos))

theorem linearize_dense (d : List Nat) : DenseLayout d (linearize d) where
  lt _ h := linearize_lt h
  inj idx idx' h h' heq := by
    rw [← delinearize_linearize h, ← delinearize_linearize h', heq]
  surj j hj := ⟨delinearize d j, inBox_delinearize hj, linearize_delinearize hj⟩

structure ReinterpretCastOp where
  type : MemRefType
  source : MemRefValue
  offset : Nat
  sizes : List IndexExpr
  strides : List IndexExpr
  deriving DecidableEq, Repr

section Layout

variable (σ : Nat → Nat) (δ : Nat → Nat → Nat)

def ReinterpretCastOp.extents (op : ReinterpretCastOp) : List Nat := op.sizes.map (·.eval σ δ)

def ReinterpretCastOp.offsetOf (op : ReinterpretCastOp) (idx : List Nat) : Nat :=
  op.offset + (List.zipWith (· * ·) idx (op.strides.map (·.eval σ δ))).sum

end Layout

def reinterpretCastStep (outputDims : List IndexExpr)
    (acc : List IndexExpr × List IndexExpr × IndexExpr) (i : Nat) :
    Except String (List IndexExpr × List IndexExpr × IndexExpr) := do
  let (sizesIE, stridesIE, strideIE) := acc
  let sizesIE ← setAt sizesIE i (← getAt outputDims i)
  let stridesIE ← setAt stridesIE i strideIE
  if i > 0 then
    pure (sizesIE, stridesIE, strideIE.times (← getAt sizesIE i))
  else
    pure (sizesIE, stridesIE, strideIE)

/-- `MemRefBuilder::reinterpretCast`: a view with the given extents and row-major strides.
`resize` fills both vectors with placeholders, which the loop overwrites. -/
def reinterpretCast (input : MemRefValue) (outputDims : List IndexExpr) :
    Except String ReinterpretCastOp := do
  let rank := outputDims.length
  let (sizesIE, stridesIE, _) ← (List.range rank).reverse.foldlM
    (reinterpretCastStep outputDims)
    (List.replicate rank (.literal 0), List.replicate rank (.literal 0), .literal 1)
  let outputShape := outputDims.map IndexExpr.getShape
  pure ⟨.get outputShape input.type.elementType, input, 0, sizesIE, stridesIE⟩

section ReinterpretCastSpec

variable (σ : Nat → Nat) (δ : Nat → Nat → Nat)

def ReinterpretInv (outputDims : List IndexExpr) (k : Nat)
    (acc : List IndexExpr × List IndexExpr × IndexExpr) : Prop :=
  acc.1.length = outputDims.length ∧ acc.2.1.length = outputDims.length ∧
    acc.1.drop k = outputDims.drop k ∧
    (acc.2.1.drop k).map (·.eval σ δ) = suffixProducts ((outputDims.drop k).map (·.eval σ δ)) ∧
    (0 < k → acc.2.2.eval σ δ = ((outputDims.drop k).map (·.eval σ δ)).prod)

theorem reinterpretCastStep_inv {outputDims : List IndexExpr} {i : Nat}
    (hi : i < outputDims.length) {acc : List IndexExpr × List IndexExpr × IndexExpr}
    (h : ReinterpretInv σ δ outputDims (i + 1) acc) :
    ∃ acc', reinterpretCastStep outputDims acc i = .ok acc' ∧
      ReinterpretInv σ δ outputDims i acc' := by
  obtain ⟨sizesIE, stridesIE, strideIE⟩ := acc
  obtain ⟨hs, ht, hsizes, hstrides, hstride⟩ := h
  simp only at hs ht hsizes hstrides hstride
  have hsi : i < (sizesIE.set i outputDims[i]).length := by simp [hs, hi]
  have hdrop : outputDims.drop i = outputDims[i] :: outputDims.drop (i + 1) :=
    List.drop_eq_getElem_cons hi
  have hsizes' : (sizesIE.set i outputDims[i]).drop i = outputDims.drop i := by
    rw [List.drop_eq_getElem_cons hsi, List.getElem_set_self, List.drop_set_of_lt _ _ (by omega),
      hsizes, ← hdrop]
  have hstrides' : ((stridesIE.set i strideIE).drop i).map (·.eval σ δ) =
      suffixProducts ((outputDims.drop i).map (·.eval σ δ)) := by
    rw [List.drop_eq_getElem_cons (by simp [ht, hi]), List.getElem_set_self,
      List.drop_set_of_lt _ _ (by omega), List.map_cons, hstrides, hdrop, List.map_cons,
      suffixProducts_cons, hstride (by omega)]
  have hstep : reinterpretCastStep outputDims (sizesIE, stridesIE, strideIE) i =
      .ok (sizesIE.set i outputDims[i], stridesIE.set i strideIE,
        if 0 < i then strideIE.times outputDims[i] else strideIE) := by
    by_cases hpos : 0 < i <;> simp [reinterpretCastStep, getAt_of_lt hi, setAt_of_lt _ (hs ▸ hi),
      setAt_of_lt _ (ht ▸ hi), hpos, getAt_of_lt hsi]
  refine ⟨_, hstep, by simp [hs], by simp [ht], hsizes', hstrides', fun hpos => ?_⟩
  rw [if_pos hpos, IndexExpr.eval_times, hstride (by omega), hdrop, List.map_cons, List.prod_cons,
    Nat.mul_comm]

/-- `reinterpretCast` always builds its view: offset `0`, the output extents as sizes, and
row-major strides, so that its layout sends the index box one to one onto `[0, ∏ d)`. -/
theorem reinterpretCast_dense_layout (input : MemRefValue) (outputDims : List IndexExpr) :
    ∃ op, reinterpretCast input outputDims = .ok op ∧ op.source = input ∧ op.offset = 0 ∧
      op.sizes = outputDims ∧
      op.strides.map (·.eval σ δ) = suffixProducts (outputDims.map (·.eval σ δ)) ∧
      DenseLayout (op.extents σ δ) (op.offsetOf σ δ) := by
  obtain ⟨⟨sizesIE, stridesIE, strideIE⟩, hloop, -, -, hsizes, hstrides, -⟩ :=
    @foldlM_range_reverse_inv _ (reinterpretCastStep outputDims) (ReinterpretInv σ δ outputDims)
      outputDims.length (List.replicate outputDims.length (.literal 0),
        List.replicate outputDims.length (.literal 0), .literal 1)
      (by simp [ReinterpretInv, suffixProducts])
      (fun i hi acc h => reinterpretCastStep_inv σ δ hi h)
  simp only [List.drop_zero] at hsizes hstrides
  refine ⟨_, by simp only [reinterpretCast, hloop, ok_bind]; rfl, rfl, rfl, hsizes, hstrides, ?_⟩
  convert linearize_dense (outputDims.map (·.eval σ δ)) using 1
  · simp [ReinterpretCastOp.extents, hsizes]
  · funext idx
    simp [ReinterpretCastOp.offsetOf, hstrides, sum_zipWith_suffixProducts]

end ReinterpretCastSpec

example : (reinterpretCast (.arg 0 (.get [none] i8)) [.literal 2, .literal 3, .literal 4]).map
    ReinterpretCastOp.strides = .ok [.literal 12, .literal 4, .literal 1] := rfl

structure CollapseShapeOp where
  type : MemRefType
  source : MemRefValue
  reassociation : List (List Int)
  deriving DecidableEq, Repr

/-- The inner loop of `collapseShape` over one group, from the `int64_t` product `currShape`: a
dynamic extent gives `kDynamic` and breaks out of the loop. -/
def collapseGroup (inputShape : List (Option Nat)) (currShape : Int) :
    List Int → Except String Int
  | [] => pure currShape
  | ii :: rest => do
    expect (0 ≤ ii && ii < inputShape.length) "out of bound reassociation index"
    match ← getAt inputShape ii.toNat with
    | none => pure kDynamic
    | some ss => collapseGroup inputShape (wrap64 (currShape * ss)) rest

def collapseShapeStep (inputShape : List (Option Nat)) (reassociation : List (List Int))
    (outputShape : List Int) (r : Nat) : Except String (List Int) := do
  let group ← getAt reassociation r
  expect (group.length > 0) "expect one or more index in reassociation indices"
  pure (outputShape ++ [← collapseGroup inputShape 1 group])

def collapseShape (input : MemRefValue) (reassociation : List (List Int)) :
    Except String CollapseShapeOp := do
  let inputType := input.type
  expect (!inputType.hasNonIdentityLayout) "collapse only for identity layout at this time"
  let outputShape ← (List.range reassociation.length).foldlM
    (collapseShapeStep inputType.shape reassociation) []
  pure ⟨.get (← outputShape.mapM shapeEntry) inputType.elementType, input, reassociation⟩

/-- The extent of a collapsed dimension: dynamic if one of its input extents is, and
otherwise their product. -/
def collapsedExtent (extents : List (Option Nat)) : Option Nat :=
  if none ∈ extents then none else some (extents.filterMap id).prod

@[simp] theorem collapsedExtent_nil : collapsedExtent [] = some 1 := rfl

@[simp] theorem collapsedExtent_cons_none (es : List (Option Nat)) :
    collapsedExtent (none :: es) = none := by
  simp [collapsedExtent]

@[simp] theorem collapsedExtent_cons_some (s : Nat) (es : List (Option Nat)) :
    collapsedExtent (some s :: es) = (collapsedExtent es).map (s * ·) := by
  unfold collapsedExtent; split_ifs <;> simp_all

theorem collapsedExtent_map_some (xs : List Nat) : collapsedExtent (xs.map some) = some xs.prod := by
  induction xs <;> simp_all

def groupExtent (inputShape : List (Option Nat)) (ii : Int) : Option Nat :=
  inputShape.getD ii.toNat none

theorem collapseGroup_eq {inputShape : List (Option Nat)} {currShape : Int} {group : List Int}
    (hc : wrap64 currShape = currShape) (hin : ∀ ii ∈ group, 0 ≤ ii ∧ ii < inputShape.length) :
    collapseGroup inputShape currShape group =
      .ok ((collapsedExtent (group.map (groupExtent inputShape))).elim kDynamic
        fun p => wrap64 (currShape * p)) := by
  induction group generalizing currShape with
  | nil => simp [collapseGroup, hc]
  | cons ii rest ih =>
    obtain ⟨h0, hlt⟩ := hin ii (List.mem_cons_self _ _)
    have hi : ii.toNat < inputShape.length := by omega
    have hget : groupExtent inputShape ii = inputShape[ii.toNat] := by simp [groupExtent, hi]
    simp only [collapseGroup, h0, hlt, decide_True, Bool.and_self, expect_true, getAt_of_lt hi,
      List.map_cons, hget]
    cases inputShape[ii.toNat] with
    | none => rfl
    | some ss =>
      show collapseGroup inputShape (wrap64 (currShape * ss)) rest = _
      rw [ih (by simp [wrap64]) (fun j hj => hin j (List.mem_cons_of_mem _ hj)),
        collapsedExtent_cons_some]
      cases collapsedExtent (rest.map (groupExtent inputShape)) <;>
        simp [wrap64_mul_wrap64, Int.mul_assoc]

theorem map_getD_range {α : Type} (l : List α) (d : α) :
    (List.range l.length).map (l.getD · d) = l :=
  List.ext_getElem (by simp) fun i _ h => by simp [h]

theorem map_getD_of_static {shape : List (Option Nat)} (hstatic : none ∉ shape) :
    shape.map (·.getD 1) = shape.filterMap id := by
  induction shape with
  | nil => rfl
  | cons e es ih => cases e <;> simp_all

theorem collapsedExtent_static {shape : List (Option Nat)} {group : List Int}
    (hstatic : none ∉ shape) (hin : ∀ ii ∈ group, 0 ≤ ii ∧ ii < shape.length) :
    collapsedExtent (group.map (groupExtent shape)) =
      some (group.map fun ii => (groupExtent shape ii).getD 1).prod := by
  have hsome : group.map (groupExtent shape) =
      (group.map fun ii => (groupExtent shape ii).getD 1).map some := by
    rw [List.map_map]
    refine List.map_congr_left fun ii hii => ?_
    have hi : ii.toNat < shape.length := by have := hin ii hii; omega
    have hmem : groupExtent shape ii ∈ shape := by simp [groupExtent, hi]
    cases hg : groupExtent shape ii with
    | none => exact absurd (hg ▸ hmem) hstatic
    | some s => simp [hg]
  rw [hsome, collapsedExtent_map_some]

theorem shapeEntry_elim {e : Option Nat} (h : ∀ s, e = some s → s < 2 ^ 63) :
    shapeEntry (e.elim kDynamic fun p => wrap64 (1 * p)) = .ok e := by
  cases e with
  | none => exact shapeEntry_kDynamic
  | some p =>
    have hp : (p : Int) < 2 ^ 63 := by exact_mod_cast h p rfl
    rw [Option.elim_some, Int.one_mul, wrap64_of_lt (Int.natCast_nonneg p) hp, shapeEntry_natCast]

theorem mapM_shapeEntry {α : Type} (f : α → Int) (g : α → Option Nat) (l : List α)
    (h : ∀ a ∈ l, shapeEntry (f a) = .ok (g a)) : (l.map f).mapM shapeEntry = .ok (l.map g) := by
  induction l with
  | nil => rfl
  | cons a l ih =>
    rw [List.map_cons, List.mapM_cons, h a (List.mem_cons_self _ _),
      ih fun b hb => h b (List.mem_cons_of_mem _ hb)]
    rfl

section CollapseShapeSpec

variable {input : MemRefValue} {reassociation : List (List Int)}

/-- With non-empty groups of in-range indices whose static products fit in `int64_t`, output extent
`r` of `collapseShape` is the collapsed extent of group `r`. -/
theorem collapseShape_collapsed_extents (hlayout : input.type.identityLayout = true)
    (hne : ∀ group ∈ reassociation, group ≠ [])
    (hin : ∀ group ∈ reassociation, ∀ ii ∈ group, 0 ≤ ii ∧ ii < input.type.getRank)
    (hfit : ∀ group ∈ reassociation, ∀ s,
      collapsedExtent (group.map (groupExtent input.type.shape)) = some s → s < 2 ^ 63) :
    ∃ op, collapseShape input reassociation = .ok op ∧
      op.type.shape = reassociation.map (fun group =>
        collapsedExtent (group.map (groupExtent input.type.shape))) ∧
      (reassociation.flatten.Perm ((List.range input.type.getRank).map fun i : Nat => (i : Int)) →
        none ∉ input.type.shape →
        none ∉ op.type.shape ∧
          (op.type.shape.filterMap id).prod = (input.type.shape.filterMap id).prod) := by
  set shape := input.type.shape
  set L := reassociation.map fun group => collapsedExtent (group.map (groupExtent shape))
  set E : List Int → Int := fun group =>
    (collapsedExtent (group.map (groupExtent shape))).elim kDynamic fun p => wrap64 (1 * p)
  have hloop : (List.range reassociation.length).foldlM
      (collapseShapeStep shape reassociation) [] = .ok (reassociation.map E) :=
    @foldlM_range_snoc _ _ _ id (reassociation.map E) _ (by simp) fun l r h => by
      have hr : r < reassociation.length := by simpa using h
      have hmem := List.getElem_mem hr
      simp [collapseShapeStep, getAt_of_lt hr, List.length_pos.2 (hne _ hmem),
        collapseGroup_eq (@wrap64_of_lt 1 (by norm_num) (by norm_num)) (hin _ hmem), E]
  have hshape : (reassociation.map E).mapM shapeEntry = .ok L :=
    mapM_shapeEntry E _ reassociation fun group hg => shapeEntry_elim (hfit group hg)
  refine ⟨_, by simp only [collapseShape, MemRefType.hasNonIdentityLayout, hlayout, Bool.not_not,
    expect_true, ok_bind, hloop, hshape]; rfl, rfl, fun hperm hstatic => ?_⟩
  let size := fun ii => (groupExtent shape ii).getD 1
  have hout : L = (reassociation.map fun group => (group.map size).prod).map some := by
    simp only [L, List.map_map]
    exact List.map_congr_left fun group hg => collapsedExtent_static hstatic (hin group hg)
  refine ⟨by simp [MemRefType.get, hout], ?_⟩
  calc (L.filterMap id).prod = (reassociation.map fun group => (group.map size).prod).prod := by
        simp [hout]
    _ = (reassociation.flatten.map size).prod := by
        rw [List.map_flatten, List.prod_flatten, List.map_map]; rfl
    _ = (((List.range shape.length).map fun i : Nat => (i : Int)).map size).prod :=
        (hperm.map size).prod_eq
    _ = (((List.range shape.length).map (shape.getD · none)).map (·.getD 1)).prod := by
        simp [size, groupExtent, Function.comp_def]
    _ = (shape.filterMap id).prod := by rw [map_getD_range, map_getD_of_static hstatic]

end CollapseShapeSpec

theorem collapseShape_dynamic_pair :
    (MemRefValue.arg 0 (.get [some 2, none, some 4] i8)).type.identityLayout = true ∧
      (∀ group ∈ [[(0 : Int), 1], [2]], group ≠ []) ∧
      (∀ group ∈ [[(0 : Int), 1], [2]], ∀ ii ∈ group,
        0 ≤ ii ∧ ii < (MemRefValue.arg 0 (.get [some 2, none, some 4] i8)).type.getRank) ∧
      (∀ group ∈ [[(0 : Int), 1], [2]], ∀ s, collapsedExtent (group.map
        (groupExtent (MemRefValue.arg 0 (.get [some 2, none, some 4] i8)).type.shape)) = some s →
          s < 2 ^ 63) ∧
      ∃ op, collapseShape (.arg 0 (.get [some 2, none, some 4] i8)) [[0, 1], [2]] = .ok op ∧
        op.type.shape = [none, some 4] := by
  have hfit : ∀ group ∈ [[(0 : Int), 1], [2]], ∀ s, collapsedExtent (group.map
      (groupExtent (MemRefValue.arg 0 (.get [some 2, none, some 4] i8)).type.shape)) = some s →
        s < 2 ^ 63 := by
    intro group hg s hs
    simp only [List.mem_cons, List.mem_singleton, List.not_mem_nil, or_false] at hg
    rcases hg with rfl | rfl <;>
      simp [collapsedExtent, groupExtent, MemRefValue.type, MemRefType.get] at hs
    omega
  obtain ⟨op, hok, hshape, -⟩ := @collapseShape_collapsed_extents
    (.arg 0 (.get [some 2, none, some 4] i8)) [[0, 1], [2]] rfl (by decide) (by decide) hfit
  exact ⟨rfl, by decide, by decide, hfit, op, hok, by rw [hshape]; rfl⟩

/-- Two static extents whose product is `2^63` collapse to a dynamic extent: the `int64_t`
product wraps to `kDynamic`. -/
theorem collapseShape_wraps_to_dynamic :
    ∃ op, collapseShape (.arg 0 (.get [some 4294967296, some 2147483648] i8)) [[0, 1]] = .ok op ∧
      op.type.shape = [none] :=
  ⟨_, rfl, rfl⟩

end DialectBuilder.View
