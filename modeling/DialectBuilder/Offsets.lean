import DialectBuilder.MathBuilder
import DialectBuilder.Reshape

namespace DialectBuilder.Offsets

open DialectBuilder.Types DialectBuilder.Ir DialectBuilder.Vector DialectBuilder.MathBuilder
open DialectBuilder.MemRef DialectBuilder.Reshape

def valueAt (values : List Expr) (i : Nat) : Except String Expr :=
  match values[i]? with
  | some v => pure v
  | none => throw "invalid index for value range"

theorem valueAt_of_lt {values : List Expr} {i : Nat} (h : i < values.length) :
    valueAt values i = .ok values[i] := by
  simp [valueAt, List.getElem?_eq_getElem h]

def addOffsetStep (indices offsets : List Expr) (firstOffset : Int)
    (computedIndices : List Expr) (i : Nat) : Except String (List Expr) :=
  if (i : Int) < firstOffset then do
    pure (computedIndices ++ [← valueAt indices i])
  else do
    pure (computedIndices ++
      [← add (← valueAt offsets (i - firstOffset).toNat) (← valueAt indices i)])

def addOffsetToLeastSignificant (indices offsets : List Expr) : Except String (List Expr) := do
  let indexRank : Int := indices.length
  let offsetRank : Int := offsets.length
  let firstOffset := indexRank - offsetRank
  expect (firstOffset ≥ 0)
    "indexOffset should not have a higher rank than the indices in the memref"
  (List.range indices.length).foldlM (addOffsetStep indices offsets firstOffset) []

/-- `MathBuilder::addOffsetToLeastSignificant` on index expressions, which it turns into values
first. `getValue` is `IndexExpr::getValue`, which lies outside this code. -/
def addOffsetToLeastSignificantOfIndexExprs (getValue : IndexExpr → Expr)
    (indices : List IndexExpr) (offsets : List Expr) : Except String (List Expr) :=
  addOffsetToLeastSignificant (indices.map getValue) offsets

theorem add_index {a b : Expr} (ha : a.ty = .scalar .index) (hb : b.ty = .scalar .index) :
    add a b = .ok (.binary .addI (.scalar .index) a b) := by
  simp [add, addOrMul, ha, hb, isIntegerWithVector, elementTypeWithVector, Ty.isaIndex,
    Ty.isUnsignedInteger]

theorem addOffsetToLeastSignificant_rank_error {indices offsets : List Expr}
    (h : indices.length < offsets.length) :
    addOffsetToLeastSignificant indices offsets =
      .error "indexOffset should not have a higher rank than the indices in the memref" := by
  simp [addOffsetToLeastSignificant, show ¬((offsets.length : Int) ≤ indices.length) by omega]

def offsetSums (indices offsets : List Expr) : List Expr :=
  (offsets.zip (indices.drop (indices.length - offsets.length))).map fun ov =>
    .binary .addI (.scalar .index) ov.1 ov.2

theorem length_offsetSums {indices offsets : List Expr} (hK : offsets.length ≤ indices.length) :
    (indices.take (indices.length - offsets.length) ++ offsetSums indices offsets).length =
      indices.length := by
  simp [offsetSums]; omega

theorem addOffsetStep_eq {indices offsets : List Expr} (hK : offsets.length ≤ indices.length)
    (hidx : ∀ v ∈ indices ++ offsets, v.ty = .scalar .index) (l : List Expr) {i : Nat}
    (hi : i < (indices.take (indices.length - offsets.length) ++
      offsetSums indices offsets).length) :
    addOffsetStep indices offsets ((indices.length : Int) - offsets.length) l i =
      .ok (l ++ [(indices.take (indices.length - offsets.length) ++
        offsetSums indices offsets)[i]]) := by
  have hiR : i < indices.length := length_offsetSums hK ▸ hi
  by_cases hlt : i < indices.length - offsets.length
  · rw [addOffsetStep, if_pos (by omega), valueAt_of_lt hiR, List.getElem_append_left (by simpa)]
    simp
  · have hj : i - (indices.length - offsets.length) < offsets.length := by omega
    have hsum := add_index (hidx _ (List.mem_append_right _ (List.getElem_mem hj)))
      (hidx _ (List.mem_append_left _ (List.getElem_mem hiR)))
    rw [addOffsetStep, if_neg (by omega), List.getElem_append_right (by simp; omega)]
    simp [show ((i : Int) - (indices.length - offsets.length)).toNat =
      i - (indices.length - offsets.length) by omega, valueAt_of_lt hj, valueAt_of_lt hiR, hsum,
      offsetSums, Nat.add_sub_cancel' (Nat.le_of_not_lt hlt), hK]

theorem addOffsetToLeastSignificant_eq {indices offsets : List Expr}
    (hK : offsets.length ≤ indices.length)
    (hidx : ∀ v ∈ indices ++ offsets, v.ty = .scalar .index) :
    addOffsetToLeastSignificant indices offsets =
      .ok (indices.take (indices.length - offsets.length) ++ offsetSums indices offsets) := by
  have hloop := @foldlM_range_snoc _ _ (addOffsetStep indices offsets
    ((indices.length : Int) - offsets.length)) id _ _ (length_offsetSums hK)
    (fun l i h => addOffsetStep_eq hK hidx l h)
  simpa [addOffsetToLeastSignificant, hK] using hloop

theorem forall₂_add_offsetSums {indices offsets : List Expr}
    (hidx : ∀ v ∈ indices ++ offsets, v.ty = .scalar .index) :
    List.Forall₂ (fun sum ov => add ov.1 ov.2 = .ok sum) (offsetSums indices offsets)
      (offsets.zip (indices.drop (indices.length - offsets.length))) := by
  rw [offsetSums, List.forall₂_map_left_iff, List.forall₂_same]
  intro ov hov
  obtain ⟨ho, hv⟩ := List.of_mem_zip hov
  exact add_index (hidx _ (List.mem_append_right _ ho))
    (hidx _ (List.mem_append_left _ (List.mem_of_mem_drop hv)))

/-- On `R` indices and `K ≤ R` offsets, both overloads keep the first `R - K` indices and add offset
`j` to index `R - K + j`. -/
theorem addOffsetToLeastSignificant_last_positions :
    (∀ indices offsets : List Expr, offsets.length ≤ indices.length →
      (∀ v ∈ indices ++ offsets, v.ty = .scalar .index) →
      ∃ sums, addOffsetToLeastSignificant indices offsets =
          .ok (indices.take (indices.length - offsets.length) ++ sums) ∧
        (indices.take (indices.length - offsets.length) ++ sums).length = indices.length ∧
        List.Forall₂ (fun sum ov => add ov.1 ov.2 = .ok sum) sums
          (offsets.zip (indices.drop (indices.length - offsets.length)))) ∧
    ∀ (getValue : IndexExpr → Expr) (indices : List IndexExpr) (offsets : List Expr),
      offsets.length ≤ indices.length →
      (∀ v ∈ indices.map getValue ++ offsets, v.ty = .scalar .index) →
      ∃ sums, addOffsetToLeastSignificantOfIndexExprs getValue indices offsets =
          .ok ((indices.map getValue).take (indices.length - offsets.length) ++ sums) ∧
        ((indices.map getValue).take (indices.length - offsets.length) ++ sums).length =
          indices.length ∧
        List.Forall₂ (fun sum ov => add ov.1 ov.2 = .ok sum) sums
          (offsets.zip ((indices.map getValue).drop (indices.length - offsets.length))) := by
  refine ⟨fun indices offsets hK hidx => ⟨_, addOffsetToLeastSignificant_eq hK hidx,
    length_offsetSums hK,
    forall₂_add_offsetSums hidx⟩, fun getValue indices offsets hK hidx => ?_⟩
  have hK' : offsets.length ≤ (indices.map getValue).length := by simpa using hK
  have h := List.length_map indices getValue
  exact ⟨_, by rw [addOffsetToLeastSignificantOfIndexExprs,
      addOffsetToLeastSignificant_eq hK' hidx, h],
    h ▸ length_offsetSums hK', h ▸ forall₂_add_offsetSums hidx⟩

theorem addOffsetToLeastSignificant_three_by_one :
    (∃ sums, addOffsetToLeastSignificant
        [.arg 0 (.scalar .index), .arg 1 (.scalar .index), .arg 2 (.scalar .index)]
        [.arg 3 (.scalar .index)] =
      .ok ([.arg 0 (.scalar .index), .arg 1 (.scalar .index)] ++ sums)) ∧
    ∃ sums, addOffsetToLeastSignificantOfIndexExprs (fun _ => .arg 0 (.scalar .index))
        [.literal 4, .literal 5] [.arg 3 (.scalar .index)] =
      .ok ([.arg 0 (.scalar .index)] ++ sums) := by
  obtain ⟨s1, h1, -⟩ := addOffsetToLeastSignificant_last_positions.1
    [.arg 0 (.scalar .index), .arg 1 (.scalar .index), .arg 2 (.scalar .index)]
    [.arg 3 (.scalar .index)] (by decide) (by decide)
  obtain ⟨s2, h2, -⟩ := addOffsetToLeastSignificant_last_positions.2
    (fun _ => .arg 0 (.scalar .index)) [.literal 4, .literal 5] [.arg 3 (.scalar .index)]
    (by decide) (by decide)
  exact ⟨⟨s1, h1⟩, ⟨s2, h2⟩⟩

end DialectBuilder.Offsets
