import DialectBuilder.LLVMBuilder

namespace DialectBuilder.SCFBuilder

open DialectBuilder.Vector DialectBuilder.LLVMBuilder

inductive RegionOp
  | op (id : Nat)
  | yield
  deriving DecidableEq, Repr

/-- `scf.if`: its condition value and its two regions; the else region has no block when no
else emitter is given. -/
structure IfOp where
  cond : Nat
  thenRegion : List RegionOp
  elseRegion : List RegionOp
  deriving DecidableEq, Repr

/-- `SCFBuilder::ifThenElse`. The emitters are the ops they create; each region they fill is
closed by `scf.yield`. -/
def ifThenElse (cond : Nat) (thenFn : List Nat) (elseFn : Option (List Nat)) : IfOp :=
  match elseFn with
  | none => ⟨cond, thenFn.map .op ++ [.yield], []⟩
  | some elseOps => ⟨cond, thenFn.map .op ++ [.yield], elseOps.map .op ++ [.yield]⟩

inductive StructuredOp
  | op (id : Nat)
  | ifOp (op : IfOp)
  deriving DecidableEq, Repr

def runRegion : List RegionOp → List Nat
  | [] => []
  | .op id :: ops => id :: runRegion ops
  | .yield :: _ => []

def IfOp.run (cv : Nat → Bool) (op : IfOp) : List Nat :=
  runRegion (if cv op.cond then op.thenRegion else op.elseRegion)

def runBlock (cv : Nat → Bool) : List StructuredOp → List Nat
  | [] => []
  | .op id :: ops => id :: runBlock cv ops
  | .ifOp op :: ops => op.run cv ++ runBlock cv ops

@[simp] theorem runRegion_map_op_yield (ids : List Nat) :
    runRegion (ids.map .op ++ [.yield]) = ids := by
  induction ids with
  | nil => rfl
  | cons id ids ih => simp [runRegion, ih]

@[simp] theorem runBlock_map_op (cv : Nat → Bool) (ids : List Nat) (ops : List StructuredOp) :
    runBlock cv (ids.map .op ++ ops) = ids ++ runBlock cv ops := by
  induction ids with
  | nil => rfl
  | cons id ids ih => simp [runBlock, ih]

theorem run_ifThenElse (cv : Nat → Bool) (cond : Nat) (thenFn : List Nat)
    (elseFn : Option (List Nat)) :
    (ifThenElse cond thenFn elseFn).run cv = if cv cond then thenFn else elseFn.getD [] := by
  cases elseFn <;> by_cases h : cv cond <;> simp [ifThenElse, IfOp.run, h, runRegion]

inductive Exit
  | ret
  | jump (dest : Nat)
  deriving DecidableEq, Repr

/-- Running a block's ops: ops without successors are recorded and the first return or branch ends
the block; `none` if no terminator is reached. -/
def runOps (cv : Nat → Bool) : List Op → List Nat × Option Exit
  | [] => ([], none)
  | .other id :: ops => (id :: (runOps cv ops).1, (runOps cv ops).2)
  | .ret :: _ => ([], some .ret)
  | .br dest :: _ => ([], some (.jump dest))
  | .condBr cond trueDest falseDest :: _ =>
    ([], some (.jump (if cv cond then trueDest else falseDest)))

inductive Outcome
  | reached
  | returned
  | fellOff
  | outOfFuel
  deriving DecidableEq, Repr

/-- Running the region from block `b` until control enters block `stop`, through at most `fuel`
other blocks: the ops recorded, and how the run ended. -/
def runFrom (cv : Nat → Bool) (blocks : Nat → List Op) (stop : Nat) (fuel b : Nat) :
    List Nat × Outcome :=
  if b = stop then ([], .reached)
  else match fuel with
    | 0 => ([], .outOfFuel)
    | fuel + 1 =>
      match runOps cv (blocks b) with
      | (t, none) => (t, .fellOff)
      | (t, some .ret) => (t, .returned)
      | (t, some (.jump dest)) =>
        (t ++ (runFrom cv blocks stop fuel dest).1, (runFrom cv blocks stop fuel dest).2)

@[simp] theorem runOps_map_other (cv : Nat → Bool) (ids : List Nat) (ops : List Op) :
    runOps cv (ids.map .other ++ ops) = (ids ++ (runOps cv ops).1, (runOps cv ops).2) := by
  induction ids with
  | nil => rfl
  | cons id ids ih => simp [runOps, ih]

@[simp] theorem runFrom_stop (cv : Nat → Bool) (blocks : Nat → List Op) (stop fuel : Nat) :
    runFrom cv blocks stop fuel stop = ([], .reached) := by
  rw [runFrom.eq_def, if_pos rfl]

theorem runFrom_jump {cv : Nat → Bool} {blocks : Nat → List Op} {stop b dest : Nat}
    {t : List Nat} (hb : b ≠ stop) (h : runOps cv (blocks b) = (t, some (.jump dest)))
    (fuel : Nat) :
    runFrom cv blocks stop (fuel + 1) b =
      (t ++ (runFrom cv blocks stop fuel dest).1, (runFrom cv blocks stop fuel dest).2) := by
  rw [runFrom, if_neg hb, h]

theorem runFrom_add_fuel {cv : Nat → Bool} {blocks : Nat → List Op} {stop : Nat} :
    ∀ {fuel b : Nat} {t : List Nat} {o : Outcome}, runFrom cv blocks stop fuel b = (t, o) →
      o ≠ .outOfFuel → ∀ k, runFrom cv blocks stop (fuel + k) b = (t, o) := by
  intro fuel
  induction fuel with
  | zero =>
    intro b t o h ho k
    by_cases hb : b = stop
    · subst hb; rw [runFrom_stop] at h ⊢; exact h
    · rw [runFrom.eq_def, if_neg hb] at h; cases h; exact absurd rfl ho
  | succ fuel ih =>
    intro b t o h ho k
    rw [Nat.add_right_comm]
    by_cases hb : b = stop
    · subst hb; rw [runFrom_stop] at h ⊢; exact h
    · rw [runFrom, if_neg hb] at h ⊢
      rcases hr : runOps cv (blocks b) with ⟨t', _ | _ | dest⟩ <;> simp only [hr] at h ⊢
      · exact h
      · exact h
      · rw [ih (Prod.ext rfl rfl) ((Prod.mk.inj h).2 ▸ ho) k]; exact h

theorem closeBranch_straight {ids : List Nat} (h : ids ≠ []) (dest : Nat) :
    closeBranch (ids.map .other) [] dest = .ok (ids.map .other ++ [.br dest]) := by
  obtain ⟨init, last, rfl⟩ := List.eq_nil_or_concat ids |>.resolve_left h
  simp [closeBranch, Op.numSuccessors, Op.isReturn]

section Diamond

variable {cv : Nat → Bool} {blocks : Nat → List Op} {stop a f g e cond : Nat}
  {pre thenIds elseIds t : List Nat} {o : Outcome}

theorem runFrom_if_then_else (ha : blocks a = pre.map .other ++ [.condBr cond f g])
    (hf : blocks f = thenIds.map .other ++ [.br e]) (hg : blocks g = elseIds.map .other ++ [.br e])
    (has : a ≠ stop) (hfs : f ≠ stop) (hgs : g ≠ stop) {fuel : Nat}
    (he : runFrom cv blocks stop fuel e = (t, o)) :
    runFrom cv blocks stop (fuel + 2) a = (pre ++ (if cv cond then thenIds else elseIds) ++ t, o) := by
  have hra : runOps cv (blocks a) = (pre, some (.jump (if cv cond then f else g))) := by
    simp [ha, runOps]
  have hrf : runOps cv (blocks f) = (thenIds, some (.jump e)) := by simp [hf, runOps]
  have hrg : runOps cv (blocks g) = (elseIds, some (.jump e)) := by simp [hg, runOps]
  rw [runFrom_jump has hra]
  by_cases hc : cv cond
  · rw [if_pos hc, runFrom_jump hfs hrf, he]; simp [hc]
  · rw [if_neg hc, runFrom_jump hgs hrg, he]; simp [hc]

theorem runFrom_if_then (ha : blocks a = pre.map .other ++ [.condBr cond f e])
    (hf : blocks f = thenIds.map .other ++ [.br e]) (has : a ≠ stop) (hfs : f ≠ stop) {fuel : Nat}
    (he : runFrom cv blocks stop fuel e = (t, o)) (ho : o ≠ .outOfFuel) :
    runFrom cv blocks stop (fuel + 2) a = (pre ++ (if cv cond then thenIds else []) ++ t, o) := by
  have hra : runOps cv (blocks a) = (pre, some (.jump (if cv cond then f else e))) := by
    simp [ha, runOps]
  have hrf : runOps cv (blocks f) = (thenIds, some (.jump e)) := by simp [hf, runOps]
  rw [runFrom_jump has hra]
  by_cases hc : cv cond
  · rw [if_pos hc, runFrom_jump hfs hrf, he]; simp [hc]
  · rw [if_neg hc, runFrom_add_fuel he ho 1]; simp [hc]

theorem runFrom_if {elseIds : Option (List Nat)}
    (ha : blocks a = pre.map .other ++ [.condBr cond f (f + 1)])
    (hf : blocks f = thenIds.map .other ++ [.br e])
    (hg : ∀ E, elseIds = some E → blocks (f + 1) = E.map .other ++ [.br e] ∧ f + 1 ≠ stop)
    (hge : elseIds = none → f + 1 = e) (has : a ≠ stop) (hfs : f ≠ stop) {fuel : Nat}
    (he : runFrom cv blocks stop fuel e = (t, o)) (ho : o ≠ .outOfFuel) :
    runFrom cv blocks stop (fuel + 2) a =
      (pre ++ (if cv cond then thenIds else elseIds.getD []) ++ t, o) := by
  cases elseIds with
  | none =>
    obtain rfl := hge rfl
    exact runFrom_if_then ha hf has hfs he ho
  | some E =>
    obtain ⟨hg', hgs⟩ := hg E rfl
    exact runFrom_if_then_else ha hf hg' has hfs hgs he

end Diamond

/-- A program of straight-line ops and `if`s; each `if` is its condition's ops, its condition value
and its emitters' ops, so emitters create no blocks. -/
inductive Stmt
  | op (id : Nat)
  | ite (condIds : List Nat) (cond : Nat) (thenIds : List Nat) (elseFn : Option (List Nat))
  deriving DecidableEq, Repr

/-- Emitting a program with `LLVMBuilder`: ops at the insertion point, each `if` by `ifThenElse`. -/
def emitLLVM : List Stmt → Builder → Except String Builder
  | [], s => pure s
  | .op id :: rest, s => emitLLVM rest (s.insert [.other id])
  | .ite condIds cond thenIds elseFn :: rest, s => do
    emitLLVM rest (← LLVMBuilder.ifThenElse (condIds.map .other, cond) (thenIds.map .other)
      (elseFn.map (·.map .other)) s)

def emitSCF : List Stmt → List StructuredOp
  | [] => []
  | .op id :: rest => .op id :: emitSCF rest
  | .ite condIds cond thenIds elseFn :: rest =>
    condIds.map .op ++ .ifOp (ifThenElse cond thenIds elseFn) :: emitSCF rest

def Stmt.emitsCode : Stmt → Bool
  | .op _ => true
  | .ite _ _ thenIds elseFn => thenIds ≠ [] && elseFn ≠ some []

def numIfs : List Stmt → Nat
  | [] => 0
  | .op _ :: rest => numIfs rest
  | .ite .. :: rest => numIfs rest + 1

theorem emitLLVM_wellFormed :
    ∀ (prog : List Stmt) {s s' : Builder}, s.WellFormed → emitLLVM prog s = .ok s' →
      s'.WellFormed ∧ s.order.Sublist s'.order := by
  intro prog
  induction prog with
  | nil => intro s s' hwf h; cases h; exact ⟨hwf, List.Sublist.refl _⟩
  | cons st rest ih =>
    intro s s' hwf h
    cases st with
    | op id => exact @ih (s.insert [.other id]) s' (hwf.insert _) h
    | ite condIds cond thenIds elseFn =>
      obtain ⟨s1, h1, h⟩ := bind_eq_ok.1 h
      obtain ⟨hwf1, l, r, hlr, hlr1⟩ := ifThenElse_wellFormed hwf h1
      obtain ⟨hwf', hsub⟩ := ih hwf1 h
      refine ⟨hwf', List.Sublist.trans ?_ hsub⟩
      rw [hlr, hlr1]
      exact (((List.sublist_append_right _ r).cons₂ _).append_left l)

/-- From a well-formed region, a successful `LLVMBuilder::ifThenElse` with straight-line emitters,
and every run of a program, leave a well-formed region. -/
theorem ifThenElse_keeps_region_wellFormed :
    (∀ (cond : List Op × Nat) (thenFn : List Op) (elseFn : Option (List Op)) (s s' : Builder),
      s.WellFormed → LLVMBuilder.ifThenElse cond thenFn elseFn s = .ok s' →
        s'.WellFormed ∧ ∃ l r, s.order = l ++ s.block :: r ∧
          s'.order = l ++ s.block ::
            ((s.fresh :: (s.fresh + 1) :: if elseFn.isSome then [s.fresh + 2] else []) ++ r)) ∧
    ∀ (prog : List Stmt) (s s' : Builder), s.WellFormed → emitLLVM prog s = .ok s' →
      s'.WellFormed ∧ s.order.Sublist s'.order :=
  ⟨fun _ _ _ _ _ hwf h => ifThenElse_wellFormed hwf h,
    fun prog _ _ hwf h => emitLLVM_wellFormed prog hwf h⟩

theorem ifThenElse_at_end {prefixIds condIds thenIds : List Nat} {elseFn : Option (List Nat)}
    {cond : Nat} {s : Builder} (hb : s.block < s.fresh)
    (hblock : s.blocks s.block = prefixIds.map .other) (hend : s.pos = prefixIds.length)
    (hthen : thenIds ≠ []) (helse : elseFn ≠ some []) :
    ∃ s1, LLVMBuilder.ifThenElse (condIds.map .other, cond) (thenIds.map .other)
        (elseFn.map (·.map .other)) s = .ok s1 ∧
      s1.block = (if elseFn.isSome then s.fresh + 2 else s.fresh + 1) ∧
      s1.fresh = s1.block + 1 ∧ s1.blocks s1.block = [] ∧ s1.pos = 0 ∧
      s1.blocks s.block = (prefixIds ++ condIds).map .other ++ [.condBr cond s.fresh (s.fresh + 1)] ∧
      s1.blocks s.fresh = thenIds.map .other ++ [.br s1.block] ∧
      (∀ E, elseFn = some E → s1.blocks (s.fresh + 1) = E.map .other ++ [.br s1.block]) ∧
      ∀ b, b ≠ s.block → b < s.fresh → s1.blocks b = s.blocks b := by
  have hpos : s.pos ≤ (s.blocks s.block).length := by simp [hblock, hend]
  have hdrop : (s.blocks s.block).drop s.pos = [] := by simp [hblock, hend]
  have htake : (s.blocks s.block).take s.pos = prefixIds.map .other := by
    simp [hblock, hend, List.take_of_length_le]
  have hne := fresh_ids_ne hb
  cases elseFn with
  | none =>
    refine ⟨_, by rw [Option.map_none', ifThenElse_none_eq hb hpos, hdrop,
      closeBranch_straight hthen]; rfl, ?_⟩
    refine ⟨rfl, rfl, ?_, rfl, ?_, ?_, by simp, fun b hb1 hb2 => ?_⟩ <;>
      simp [ifThenElseResult, htake, hne]
    simp [hb1, hb2.ne, show b ≠ s.fresh + 1 by omega]
  | some elseIds =>
    have helse' : elseIds ≠ [] := fun h => helse (h ▸ rfl)
    refine ⟨_, by rw [Option.map_some', ifThenElse_some_eq hb hpos, hdrop,
      closeBranch_straight hthen, closeBranch_straight helse']; rfl, ?_⟩
    refine ⟨rfl, rfl, ?_, rfl, ?_, ?_, ?_, fun b hb1 hb2 => ?_⟩ <;>
      simp [ifThenElseResult, htake, hne]
    simp [hb1, hb2.ne, show b ≠ s.fresh + 1 by omega, show b ≠ s.fresh + 1 + 1 by omega]

theorem emitLLVM_two_ifs_wellFormed :
    ∃ s', emitLLVM [.op 5, .ite [1] 9 [2] (some [3]), .ite [4] 8 [6] none, .op 7]
        ⟨fun b => if b = 0 then [.other 0] else [], [0], 0, 1, 1⟩ = .ok s' ∧
      s'.WellFormed ∧ [0].Sublist s'.order := by
  obtain ⟨s', h⟩ : ∃ s', emitLLVM [.op 5, .ite [1] 9 [2] (some [3]), .ite [4] 8 [6] none, .op 7]
      ⟨fun b => if b = 0 then [.other 0] else [], [0], 0, 1, 1⟩ = .ok s' := ⟨_, rfl⟩
  exact ⟨s', h, ifThenElse_keeps_region_wellFormed.2 _ _ _
    ⟨by decide, by decide, by decide, by decide⟩ h⟩

end DialectBuilder.SCFBuilder
