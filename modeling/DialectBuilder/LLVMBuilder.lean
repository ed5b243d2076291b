import DialectBuilder.Vector

namespace DialectBuilder.LLVMBuilder

open DialectBuilder.Vector

/-- An LLVM dialect op as `ifThenElse` sees it: an op without successors, `llvm.return`, or a
branch to one or two blocks, named by id. -/
inductive Op
  | other (id : Nat)
  | ret
  | br (dest : Nat)
  | condBr (cond : Nat) (trueDest falseDest : Nat)
  deriving DecidableEq, Repr

namespace Op

def numSuccessors : Op → Nat
  | br _ => 1
  | condBr _ _ _ => 2
  | _ => 0

def isReturn : Op → Bool
  | ret => true
  | _ => false

end Op

/-- The builder's view of a region: each block's ops, the blocks in region order, the insertion
point and the next fresh block id. -/
structure Builder where
  blocks : Nat → List Op
  order : List Nat
  block : Nat
  pos : Nat
  fresh : Nat

def insertAfter (b new : Nat) (order : List Nat) : List Nat :=
  order.flatMap fun x => if x = b then [x, new] else [x]

namespace Builder

def splitBlock (s : Builder) (b pos : Nat) : Builder × Nat :=
  ({ s with
      blocks := Function.update (Function.update s.blocks b ((s.blocks b).take pos)) s.fresh
        ((s.blocks b).drop pos)
      order := insertAfter b s.fresh s.order
      fresh := s.fresh + 1 }, s.fresh)

def createBlock (s : Builder) (after : Nat) : Builder × Nat :=
  ({ s with
      blocks := Function.update s.blocks s.fresh []
      order := insertAfter after s.fresh s.order
      block := s.fresh
      pos := 0
      fresh := s.fresh + 1 }, s.fresh)

def setInsertionPointToEnd (s : Builder) (b : Nat) : Builder :=
  { s with block := b, pos := (s.blocks b).length }

def setInsertionPointToStart (s : Builder) (b : Nat) : Builder :=
  { s with block := b, pos := 0 }

def insert (s : Builder) (ops : List Op) : Builder :=
  { s with
      blocks := Function.update s.blocks s.block
        ((s.blocks s.block).take s.pos ++ ops ++ (s.blocks s.block).drop s.pos)
      pos := s.pos + ops.length }

def hasNoSuccessors (s : Builder) (b : Nat) : Bool :=
  match (s.blocks b).getLast? with
  | none => true
  | some op => op.numSuccessors == 0

/-- `Block::back()`, which on an empty block reads the list's sentinel as an op. -/
def back (s : Builder) (b : Nat) : Except String Op :=
  match (s.blocks b).getLast? with
  | none => throw "back() of an empty block"
  | some op => pure op

def br (s : Builder) (destBlock : Nat) : Builder := s.insert [.br destBlock]

def condBr (s : Builder) (cond trueBlock falseBlock : Nat) : Builder :=
  s.insert [.condBr cond trueBlock falseBlock]

def brIfFallsThrough (s : Builder) (b dest : Nat) : Except String Builder :=
  if s.hasNoSuccessors b then do
    if (← s.back b).isReturn then pure s else pure (s.br dest)
  else pure s

end Builder

/-- `LLVMBuilder::ifThenElse` with straight-line emitters: each emitter is the list of ops it
creates at the insertion point, and creates no block. -/
def ifThenElse (cond : List Op × Nat) (thenFn : List Op) (elseFn : Option (List Op))
    (s : Builder) : Except String Builder := do
  let ifBlock := s.block
  let (s, thenBlock) := s.splitBlock ifBlock s.pos
  let (s, elseBlock) := s.createBlock thenBlock
  let (s, endBlock) := if elseFn.isSome then s.createBlock elseBlock else (s, elseBlock)
  let s := (s.setInsertionPointToEnd ifBlock).insert cond.1
  let s := s.condBr cond.2 thenBlock elseBlock
  let s := (s.setInsertionPointToStart thenBlock).insert thenFn
  let s ← s.brIfFallsThrough thenBlock endBlock
  let s := s.setInsertionPointToStart elseBlock
  let s ← match elseFn with
    | some elseOps => (s.insert elseOps).brIfFallsThrough elseBlock endBlock
    | none => pure s
  pure (s.setInsertionPointToStart endBlock)

/-- What the check after an emitter leaves of a block: reading the last op of an empty block fails,
and otherwise a branch to `dest` follows ops that neither branch nor return. -/
def closeBranch (emitted trailing : List Op) (dest : Nat) : Except String (List Op) :=
  match (emitted ++ trailing).getLast? with
  | none => throw "back() of an empty block"
  | some last =>
    if last.numSuccessors = 0 ∧ last.isReturn = false then pure (emitted ++ [.br dest] ++ trailing)
    else pure (emitted ++ trailing)

theorem brIfFallsThrough_eq {s : Builder} {b dest : Nat} (hblock : s.block = b)
    (hpos : s.pos ≤ (s.blocks b).length) :
    s.brIfFallsThrough b dest =
      (closeBranch ((s.blocks b).take s.pos) ((s.blocks b).drop s.pos) dest).map fun ops =>
        { s with blocks := Function.update s.blocks b ops,
                 pos := s.pos + (ops.length - (s.blocks b).length) } := by
  subst hblock
  unfold Builder.brIfFallsThrough Builder.hasNoSuccessors Builder.back closeBranch
  rw [List.take_append_drop]
  cases hl : (s.blocks s.block).getLast? with
  | none => rfl
  | some last =>
    by_cases hs : last.numSuccessors = 0 <;> by_cases hr : last.isReturn = true <;>
      simp [hs, hr, Builder.br, Builder.insert, Except.map]
    omega

theorem except_map_eq_ok {α β : Type} {f : α → β} {x : Except String α} {b : β} :
    x.map f = .ok b ↔ ∃ a, x = .ok a ∧ f a = b := by
  cases x <;> simp [Except.map]

theorem closeBranch_ok_iff {emitted trailing : List Op} {dest : Nat} :
    (∃ ops, closeBranch emitted trailing dest = .ok ops) ↔ emitted ++ trailing ≠ [] := by
  unfold closeBranch
  cases h : (emitted ++ trailing).getLast? with
  | none => simp_all [List.getLast?_eq_none_iff]
  | some last =>
    have hne : emitted ++ trailing ≠ [] := by intro h'; simp [h'] at h
    simp only [ne_eq, hne, not_false_eq_true, iff_true]
    split_ifs <;> exact ⟨_, rfl⟩

theorem closeBranch_at_end {emitted ops : List Op} {dest : Nat}
    (h : closeBranch emitted [] dest = .ok ops) :
    (ops = emitted ∨ ops = emitted ++ [.br dest]) ∧
      ∃ last, ops.getLast? = some last ∧ (last.isReturn = true ∨ 0 < last.numSuccessors) := by
  unfold closeBranch at h
  rw [List.append_nil] at h
  cases hl : emitted.getLast? with
  | none => simp [hl] at h
  | some last =>
    simp only [hl] at h
    split_ifs at h with hc
    · cases h
      exact ⟨Or.inr (List.append_nil _), .br dest, by simp, Or.inr Nat.one_pos⟩
    · cases h
      refine ⟨Or.inl rfl, last, hl, ?_⟩
      cases hr : last.isReturn <;> simp_all [Nat.pos_iff_ne_zero]

theorem fresh_ids_ne {b f : Nat} (hb : b < f) :
    f ≠ b ∧ f + 1 ≠ b ∧ f + 1 + 1 ≠ b ∧ b ≠ f ∧ b ≠ f + 1 ∧ b ≠ f + 1 + 1 ∧
      f ≠ f + 1 + 1 ∧ f + 1 + 1 ≠ f ∧ f + 1 ≠ f + 1 + 1 ∧ f + 1 + 1 ≠ f + 1 := by
  omega

def ifThenElseResult (cond : List Op × Nat) (hasElse : Bool) (s : Builder)
    (thenOps elseOps : List Op) : Builder where
  blocks x :=
    if x = s.block then
      (s.blocks s.block).take s.pos ++ cond.1 ++ [.condBr cond.2 s.fresh (s.fresh + 1)]
    else if x = s.fresh then thenOps
    else if x = s.fresh + 1 then elseOps
    else if hasElse ∧ x = s.fresh + 2 then []
    else s.blocks x
  order :=
    if hasElse then
      insertAfter (s.fresh + 1) (s.fresh + 2)
        (insertAfter s.fresh (s.fresh + 1) (insertAfter s.block s.fresh s.order))
    else insertAfter s.fresh (s.fresh + 1) (insertAfter s.block s.fresh s.order)
  block := if hasElse then s.fresh + 2 else s.fresh + 1
  pos := 0
  fresh := if hasElse then s.fresh + 3 else s.fresh + 2

section IfThenElse

variable {cond : List Op × Nat} {thenFn : List Op} {s s' : Builder}

theorem ifThenElse_some_eq {elseOps : List Op} (hb : s.block < s.fresh)
    (hpos : s.pos ≤ (s.blocks s.block).length) :
    ifThenElse cond thenFn (some elseOps) s =
      (closeBranch thenFn ((s.blocks s.block).drop s.pos) (s.fresh + 2)).bind fun thenOps =>
        (closeBranch elseOps [] (s.fresh + 2)).map (ifThenElseResult cond true s thenOps) := by
  have hlen : ((s.blocks s.block).take s.pos ++ cond.1).length = s.pos + cond.1.length := by
    simp [hpos]
  simp only [ifThenElse, Option.isSome_some, if_true, Builder.splitBlock, Builder.createBlock,
    Builder.setInsertionPointToEnd, Builder.insert, Builder.condBr,
    Builder.setInsertionPointToStart]
  rw [brIfFallsThrough_eq rfl (by simp)]
  simp [Function.update_apply, fresh_ids_ne hb, Nat.add_assoc, hpos, List.take_take,
    List.drop_take]
  cases closeBranch thenFn ((s.blocks s.block).drop s.pos) (s.fresh + 2) with
  | error err => rfl
  | ok thenOps =>
    simp only [ok_map, ok_bind]
    rw [brIfFallsThrough_eq (by rfl) (by simp)]
    simp [Function.update_apply, fresh_ids_ne hb]
    cases closeBranch elseOps [] (s.fresh + 2) with
    | error err => rfl
    | ok elseOps' =>
      simp only [ok_map, ok_bind, Except.bind, ifThenElseResult, if_true, true_and]
      congr 2
      funext x
      rw [← hlen, List.take_length, List.drop_length]
      simp only [Function.update_apply]
      split_ifs <;> first | rfl | omega

theorem ifThenElse_none_eq (hb : s.block < s.fresh) (hpos : s.pos ≤ (s.blocks s.block).length) :
    ifThenElse cond thenFn none s =
      (closeBranch thenFn ((s.blocks s.block).drop s.pos) (s.fresh + 1)).map fun thenOps =>
        ifThenElseResult cond false s thenOps [] := by
  have hlen : ((s.blocks s.block).take s.pos ++ cond.1).length = s.pos + cond.1.length := by
    simp [hpos]
  simp only [ifThenElse, Option.isSome_none, Bool.false_eq_true, if_false, Builder.splitBlock,
    Builder.createBlock, Builder.setInsertionPointToEnd, Builder.insert, Builder.condBr,
    Builder.setInsertionPointToStart]
  rw [brIfFallsThrough_eq rfl (by simp)]
  simp [Function.update_apply, fresh_ids_ne hb, hpos, List.take_take, List.drop_take]
  cases closeBranch thenFn ((s.blocks s.block).drop s.pos) (s.fresh + 1) with
  | error err => rfl
  | ok thenOps =>
    simp only [ok_map, ok_bind, ifThenElseResult, Bool.false_eq_true, if_false, false_and]
    congr 2
    funext x
    rw [← hlen, List.take_length, List.drop_length]
    simp only [Function.update_apply]
    split_ifs <;> first | rfl | omega

theorem ifThenElse_some_ok {elseOps : List Op} (hb : s.block < s.fresh)
    (hpos : s.pos ≤ (s.blocks s.block).length)
    (h : ifThenElse cond thenFn (some elseOps) s = .ok s') :
    s'.blocks s.block =
        (s.blocks s.block).take s.pos ++ cond.1 ++ [.condBr cond.2 s.fresh (s.fresh + 1)] ∧
      closeBranch thenFn ((s.blocks s.block).drop s.pos) (s.fresh + 2) = .ok (s'.blocks s.fresh) ∧
      closeBranch elseOps [] (s.fresh + 2) = .ok (s'.blocks (s.fresh + 1)) ∧
      s'.blocks (s.fresh + 2) = [] ∧ s'.block = s.fresh + 2 ∧ s'.pos = 0 ∧
      ∀ b, b ≠ s.block → b < s.fresh → s'.blocks b = s.blocks b := by
  rw [ifThenElse_some_eq hb hpos] at h
  obtain ⟨thenOps, hthen, h⟩ := bind_eq_ok.1 h
  obtain ⟨elseOps', helse, rfl⟩ := except_map_eq_ok.1 h
  refine ⟨by simp [ifThenElseResult], by simpa [ifThenElseResult, fresh_ids_ne hb] using hthen,
    by simpa [ifThenElseResult, fresh_ids_ne hb] using helse,
    by simp [ifThenElseResult, fresh_ids_ne hb], rfl, rfl, fun b hne hlt => ?_⟩
  simp [ifThenElseResult, hne, show b ≠ s.fresh + 1 by omega, show b ≠ s.fresh by omega,
    show b ≠ s.fresh + 2 by omega]

theorem ifThenElse_none_ok (hb : s.block < s.fresh) (hpos : s.pos ≤ (s.blocks s.block).length)
    (h : ifThenElse cond thenFn none s = .ok s') :
    s'.blocks s.block =
        (s.blocks s.block).take s.pos ++ cond.1 ++ [.condBr cond.2 s.fresh (s.fresh + 1)] ∧
      closeBranch thenFn ((s.blocks s.block).drop s.pos) (s.fresh + 1) = .ok (s'.blocks s.fresh) ∧
      s'.blocks (s.fresh + 1) = [] ∧ s'.block = s.fresh + 1 ∧ s'.pos = 0 ∧
      ∀ b, b ≠ s.block → b < s.fresh → s'.blocks b = s.blocks b := by
  rw [ifThenElse_none_eq hb hpos] at h
  obtain ⟨thenOps, hthen, rfl⟩ := except_map_eq_ok.1 h
  refine ⟨by simp [ifThenElseResult], by simpa [ifThenElseResult, fresh_ids_ne hb] using hthen,
    by simp [ifThenElseResult, fresh_ids_ne hb], rfl, rfl, fun b hne hlt => ?_⟩
  simp [ifThenElseResult, hne, show b ≠ s.fresh + 1 by omega, show b ≠ s.fresh by omega]

theorem ifThenElse_at_end_terminated {elseOps : List Op} (hb : s.block < s.fresh)
    (hend : s.pos = (s.blocks s.block).length)
    (h : ifThenElse cond thenFn (some elseOps) s = .ok s') :
    (s'.blocks s.block).getLast? = some (.condBr cond.2 s.fresh (s.fresh + 1)) ∧
      (∃ last, (s'.blocks s.fresh).getLast? = some last ∧
        (last.isReturn = true ∨ 0 < last.numSuccessors)) ∧
      ∃ last, (s'.blocks (s.fresh + 1)).getLast? = some last ∧
        (last.isReturn = true ∨ 0 < last.numSuccessors) := by
  obtain ⟨hif, hthen, helse, -⟩ := ifThenElse_some_ok hb hend.le h
  rw [hend, List.drop_length] at hthen
  exact ⟨by simp [hif], (closeBranch_at_end hthen).2, (closeBranch_at_end helse).2⟩

theorem ifThenElse_ok_iff {elseFn : Option (List Op)} (hb : s.block < s.fresh)
    (hpos : s.pos ≤ (s.blocks s.block).length) :
    (∃ s', ifThenElse cond thenFn elseFn s = .ok s') ↔
      thenFn ++ (s.blocks s.block).drop s.pos ≠ [] ∧ elseFn ≠ some [] := by
  cases elseFn with
  | none =>
    rw [ifThenElse_none_eq hb hpos, ← @closeBranch_ok_iff thenFn _ (s.fresh + 1)]
    simp only [except_map_eq_ok, ne_eq, reduceCtorEq, not_false_eq_true, and_true]
    exact ⟨fun ⟨_, a, ha, _⟩ => ⟨a, ha⟩, fun ⟨a, ha⟩ => ⟨_, a, ha, rfl⟩⟩
  | some elseOps =>
    rw [ifThenElse_some_eq hb hpos, ← @closeBranch_ok_iff thenFn _ (s.fresh + 2)]
    have helse := @closeBranch_ok_iff elseOps [] (s.fresh + 2)
    simp only [List.append_nil] at helse
    simp only [ne_eq, Option.some.injEq, ← helse]
    constructor
    · rintro ⟨s', h⟩
      obtain ⟨thenOps, hthen, h⟩ := bind_eq_ok.1 h
      obtain ⟨elseOps', helse', -⟩ := except_map_eq_ok.1 h
      exact ⟨⟨_, hthen⟩, ⟨_, helse'⟩⟩
    · rintro ⟨⟨thenOps, hthen⟩, ⟨elseOps', helse'⟩⟩
      exact ⟨_, by rw [hthen, helse']; rfl⟩

end IfThenElse

/-- The region the builder works in is well formed: each block is listed once, all below the
id the next new block gets, and the insertion point lies in a listed block. -/
structure Builder.WellFormed (s : Builder) : Prop where
  nodup : s.order.Nodup
  lt_fresh : ∀ b ∈ s.order, b < s.fresh
  block_mem : s.block ∈ s.order
  pos_le : s.pos ≤ (s.blocks s.block).length

theorem Builder.WellFormed.insert {s : Builder} (hwf : s.WellFormed) (ops : List Op) :
    (s.insert ops).WellFormed :=
  ⟨hwf.nodup, hwf.lt_fresh, hwf.block_mem, by
    have := hwf.pos_le
    simp only [Builder.insert, Function.update_same, List.length_append, List.length_take,
      List.length_drop]
    omega⟩

theorem insertAfter_of_not_mem (new : Nat) {b : Nat} {l : List Nat} (h : b ∉ l) :
    insertAfter b new l = l := by
  induction l with
  | nil => rfl
  | cons x l ih =>
    simp only [List.mem_cons, not_or] at h
    rw [insertAfter, List.flatMap_cons, if_neg (Ne.symm h.1), List.singleton_append]
    exact congrArg (x :: ·) (ih h.2)

theorem insertAfter_eq (new : Nat) {b : Nat} {l r : List Nat} (hl : b ∉ l) (hr : b ∉ r) :
    insertAfter b new (l ++ b :: r) = l ++ b :: new :: r := by
  have hl' := insertAfter_of_not_mem new hl
  have hr' := insertAfter_of_not_mem new hr
  simp only [insertAfter] at hl' hr' ⊢
  rw [List.flatMap_append, List.flatMap_cons, hl', hr', if_pos rfl]
  rfl

theorem Builder.WellFormed.of_order {s s' : Builder} (hwf : s.WellFormed) {l r new : List Nat}
    (horder : s.order = l ++ s.block :: r) (h' : s'.order = l ++ s.block :: (new ++ r))
    (hnew : new.Nodup) (hfresh : ∀ x ∈ new, s.fresh ≤ x ∧ x < s'.fresh)
    (hle : s.fresh ≤ s'.fresh) (hblock : s'.block ∈ new)
    (hpos : s'.pos ≤ (s'.blocks s'.block).length) : s'.WellFormed := by
  have hperm : (l ++ s.block :: (new ++ r)).Perm (new ++ (l ++ s.block :: r)) := by
    simpa using (@List.perm_append_comm _ (l ++ [s.block]) new).append_right r
  have hold := hwf.nodup
  rw [horder] at hold
  refine ⟨?_, fun b hb => ?_, ?_, hpos⟩
  · rw [h', hperm.nodup_iff, List.nodup_append]
    refine ⟨hnew, hold, fun x hx hx' => ?_⟩
    have := hwf.lt_fresh x (horder ▸ hx')
    have := (hfresh x hx).1
    omega
  · rw [h', hperm.mem_iff, List.mem_append, ← horder] at hb
    rcases hb with hb | hb
    · exact (hfresh b hb).2
    · exact lt_of_lt_of_le (hwf.lt_fresh b hb) hle
  · rw [h']; simp [hblock]

theorem ifThenElse_wellFormed {cond : List Op × Nat} {thenFn : List Op}
    {elseFn : Option (List Op)} {s s' : Builder} (hwf : s.WellFormed)
    (h : ifThenElse cond thenFn elseFn s = .ok s') :
    s'.WellFormed ∧ ∃ l r, s.order = l ++ s.block :: r ∧
      s'.order = l ++ s.block ::
        ((s.fresh :: (s.fresh + 1) :: if elseFn.isSome then [s.fresh + 2] else []) ++ r) := by
  obtain ⟨l, r, hlr⟩ := List.append_of_mem hwf.block_mem
  have hnd := hwf.nodup
  rw [hlr, List.nodup_append, List.nodup_cons] at hnd
  have hlt : ∀ b ∈ l ++ s.block :: r, b < s.fresh := hlr ▸ hwf.lt_fresh
  have hb : s.block < s.fresh := hlt _ (by simp)
  have hbl : s.block ∉ l := fun hb' => hnd.2.2 hb' (List.mem_cons_self _ _)
  have hfl : ∀ x, s.fresh ≤ x → x ∉ l ++ [s.block] := fun x hx hk => by
    have := hlt x (by simp only [List.mem_append, List.mem_singleton, List.mem_cons] at hk ⊢; tauto)
    omega
  have hfr : ∀ x, s.fresh ≤ x → x ∉ r := fun x hx hk => by have := hlt x (by simp [hk]); omega
  have hpos := hwf.pos_le
  cases elseFn with
  | none =>
    rw [ifThenElse_none_eq hb hpos] at h
    obtain ⟨thenOps, -, rfl⟩ := except_map_eq_ok.1 h
    have horder : (ifThenElseResult cond false s thenOps []).order =
        l ++ s.block :: ([s.fresh, s.fresh + 1] ++ r) := by
      simp only [ifThenElseResult, Bool.false_eq_true, if_false, hlr]
      rw [insertAfter_eq _ hbl hnd.2.1.1, ← List.singleton_append, ← List.append_assoc,
        insertAfter_eq _ (hfl _ le_rfl) (hfr _ le_rfl)]
      simp
    refine ⟨hwf.of_order hlr horder (by simp) (fun x hx => ?_) (by simp [ifThenElseResult])
      (by simp [ifThenElseResult]) (by simp [ifThenElseResult]), l, r, hlr, by simpa using horder⟩
    simp only [List.mem_cons, List.mem_singleton, List.not_mem_nil, or_false] at hx
    simp only [ifThenElseResult, Bool.false_eq_true, if_false]
    omega
  | some elseOps =>
    rw [ifThenElse_some_eq hb hpos] at h
    obtain ⟨thenOps, -, h⟩ := bind_eq_ok.1 h
    obtain ⟨elseOps', -, rfl⟩ := except_map_eq_ok.1 h
    have horder : (ifThenElseResult cond true s thenOps elseOps').order =
        l ++ s.block :: ([s.fresh, s.fresh + 1, s.fresh + 2] ++ r) := by
      simp only [ifThenElseResult, if_true, hlr]
      have h1 : s.fresh + 1 ∉ l ++ [s.block, s.fresh] := fun h => by
        simp only [List.mem_append, List.mem_cons, List.not_mem_nil, or_false] at h
        rcases h with h | h | h
        exacts [hfl _ (by omega) (List.mem_append_left _ h), by omega, by omega]
      rw [insertAfter_eq _ hbl hnd.2.1.1, ← List.singleton_append, ← List.append_assoc,
        insertAfter_eq _ (hfl _ le_rfl) (hfr _ le_rfl),
        show l ++ [s.block] ++ s.fresh :: (s.fresh + 1) :: r =
          (l ++ [s.block, s.fresh]) ++ (s.fresh + 1) :: r by simp,
        insertAfter_eq _ h1 (hfr _ (by omega))]
      simp
    refine ⟨hwf.of_order hlr horder (by simp) (fun x hx => ?_) (by simp [ifThenElseResult])
      (by simp [ifThenElseResult]) (by simp [ifThenElseResult]), l, r, hlr, by simpa using horder⟩
    simp only [List.mem_cons, List.mem_singleton, List.not_mem_nil, or_false] at hx
    simp only [ifThenElseResult, if_true]
    omega

/-- Inserting mid-block, the ops after the insertion point end up in the then block alone, while the
else path reaches an empty end block. -/
theorem ifThenElse_trailing_ops_then_only :
    (∃ s', ifThenElse ([.other 2], 2) [.other 3] (some [.other 4])
        ⟨fun b => if b = 0 then [.other 0, .other 1, .ret] else [], [0], 0, 1, 1⟩ = .ok s' ∧
      s'.blocks 0 = [.other 0, .other 2, .condBr 2 1 2] ∧
      s'.blocks 1 = [.other 3, .other 1, .ret] ∧ s'.blocks 2 = [.other 4, .br 3] ∧
      s'.blocks 3 = [] ∧ s'.block = 3) ∧
    (∃ s', ifThenElse ([.other 2], 2) [.other 3] none
        ⟨fun b => if b = 0 then [.other 0, .other 1] else [], [0], 0, 1, 1⟩ = .ok s' ∧
      s'.blocks 1 = [.other 3, .br 2, .other 1]) ∧
    ifThenElse ([.other 2], 2) [] (some [.other 4])
        ⟨fun b => if b = 0 then [.other 0] else [], [0], 0, 1, 1⟩ =
      .error "back() of an empty block" :=
  ⟨⟨_, rfl, rfl, rfl, rfl, rfl, rfl⟩, ⟨_, rfl, rfl⟩, rfl⟩

structure LLVMFunctionType (T : Type) where
  result : T
  params : List T
  isVarArg : Bool
  deriving DecidableEq, Repr

/-- An op of a module's body as symbol lookup sees it: an `llvm.func`, another op defining a
symbol (an `llvm.mlir.global`, say), or an op defining none. -/
inductive ModuleOp (T : Type)
  | func (name : String) (type : LLVMFunctionType T)
  | global (name : String)
  | other
  deriving DecidableEq, Repr

namespace ModuleOp

variable {T : Type}

def symName? : ModuleOp T → Option String
  | func name _ => some name
  | global name => some name
  | other => none

@[simp] theorem symName_func (name : String) (type : LLVMFunctionType T) :
    (func name type).symName? = some name := rfl

@[simp] theorem symName_global (name : String) : (global name : ModuleOp T).symName? = some name :=
  rfl

end ModuleOp

section SymbolRef

variable {T : Type}

def lookupSymbol (body : List (ModuleOp T)) (name : String) : Option (ModuleOp T) :=
  body.find? fun op => op.symName? == some name

def lookupFunc (body : List (ModuleOp T)) (name : String) : Option (LLVMFunctionType T) :=
  match lookupSymbol body name with
  | some (.func _ type) => some type
  | _ => none

/-- `LLVMBuilder::getOrInsertSymbolRef`: unless an `llvm.func` of that name is found, one of the
given type is declared at the start of the module's body. -/
def getOrInsertSymbolRef (body : List (ModuleOp T)) (funcName : String) (resultType : T)
    (operandTypes : List T) (isVarArg : Bool) : List (ModuleOp T) × String :=
  if (lookupFunc body funcName).isNone then
    (.func funcName ⟨resultType, operandTypes, isVarArg⟩ :: body, funcName)
  else (body, funcName)

structure SymbolRequest (T : Type) where
  funcName : String
  type : LLVMFunctionType T

def runRequests (body : List (ModuleOp T)) (calls : List (SymbolRequest T)) : List (ModuleOp T) :=
  calls.foldl (fun body c =>
    (getOrInsertSymbolRef body c.funcName c.type.result c.type.params c.type.isVarArg).1) body

/-- A symbol table's names are unique, as the MLIR verifier requires. -/
def SymbolsUnique (body : List (ModuleOp T)) : Prop :=
  (body.filterMap ModuleOp.symName?).Nodup

instance (body : List (ModuleOp T)) : Decidable (SymbolsUnique body) :=
  inferInstanceAs (Decidable (List.Nodup _))

theorem lookupSymbol_cons (op : ModuleOp T) (body : List (ModuleOp T)) (name : String) :
    lookupSymbol (op :: body) name =
      if op.symName? = some name then some op else lookupSymbol body name := by
  by_cases h : op.symName? = some name <;> simp [lookupSymbol, List.find?_cons, h]

theorem lookupFunc_cons_func (name name' : String) (type : LLVMFunctionType T)
    (body : List (ModuleOp T)) :
    lookupFunc (.func name type :: body) name' =
      if name = name' then some type else lookupFunc body name' := by
  by_cases h : name = name' <;> simp [lookupFunc, lookupSymbol_cons, h]

theorem getOrInsertSymbolRef_snd (body : List (ModuleOp T)) (funcName : String) (r : T)
    (ps : List T) (v : Bool) : (getOrInsertSymbolRef body funcName r ps v).2 = funcName := by
  unfold getOrInsertSymbolRef; split_ifs <;> rfl

theorem runRequests_cons (body : List (ModuleOp T)) (c : SymbolRequest T)
    (calls : List (SymbolRequest T)) :
    runRequests body (c :: calls) = runRequests
      (if (lookupFunc body c.funcName).isNone then .func c.funcName c.type :: body else body) calls := by
  simp only [runRequests, List.foldl_cons, getOrInsertSymbolRef]
  split_ifs <;> rfl

theorem lookupFunc_getOrInsertSymbolRef (body : List (ModuleOp T)) (funcName : String) (r : T)
    (ps : List T) (v : Bool) (name : String) :
    lookupFunc (getOrInsertSymbolRef body funcName r ps v).1 name =
      if name = funcName then (lookupFunc body funcName).or (some ⟨r, ps, v⟩)
      else lookupFunc body name := by
  unfold getOrInsertSymbolRef
  cases h : lookupFunc body funcName with
  | none =>
    by_cases hn : name = funcName
    · subst hn; simp [lookupFunc_cons_func]
    · simp [lookupFunc_cons_func, hn, Ne.symm hn]
  | some type =>
    by_cases hn : name = funcName
    · subst hn; simp [h]
    · simp [hn]

theorem lookupFunc_runRequests (body : List (ModuleOp T)) (calls : List (SymbolRequest T))
    (name : String) :
    lookupFunc (runRequests body calls) name =
      (lookupFunc body name).or ((calls.find? (·.funcName == name)).map (·.type)) := by
  induction calls generalizing body with
  | nil => simp [runRequests]
  | cons c calls ih =>
    have hstep := lookupFunc_getOrInsertSymbolRef body c.funcName c.type.result c.type.params
      c.type.isVarArg name
    simp only [runRequests, List.foldl_cons] at ih hstep ⊢
    rw [ih, hstep, List.find?_cons]
    by_cases hn : name = c.funcName
    · subst hn
      cases lookupFunc body c.funcName <;> simp
    · have hne : (c.funcName == name) = false := by simpa using Ne.symm hn
      simp [hn, hne]

theorem runRequests_adds_requested (body : List (ModuleOp T)) (calls : List (SymbolRequest T)) :
    ∃ added, runRequests body calls = added ++ body ∧
      ∀ op ∈ added, ∃ c ∈ calls, op = .func c.funcName c.type := by
  induction calls generalizing body with
  | nil => exact ⟨[], rfl, by simp⟩
  | cons c calls ih =>
    rw [runRequests_cons]
    split_ifs
    · obtain ⟨added, hrun, hadded⟩ := ih (.func c.funcName c.type :: body)
      refine ⟨added ++ [.func c.funcName c.type], by simpa using hrun, fun op hop => ?_⟩
      rcases List.mem_append.1 hop with hop | hop
      · obtain ⟨c', hc', rfl⟩ := hadded op hop
        exact ⟨c', List.mem_cons_of_mem _ hc', rfl⟩
      · exact ⟨c, List.mem_cons_self _ _, by simpa using hop⟩
    · obtain ⟨added, hrun, hadded⟩ := ih body
      refine ⟨added, hrun, fun op hop => ?_⟩
      obtain ⟨c', hc', rfl⟩ := hadded op hop
      exact ⟨c', List.mem_cons_of_mem _ hc', rfl⟩

/-- The calls only add `llvm.func` declarations at the start of the body, and a name keeps resolving
to the first `llvm.func` declared for it. -/
theorem runRequests_keeps_first_declaration (body : List (ModuleOp T))
    (calls : List (SymbolRequest T)) :
    (∃ added, runRequests body calls = added ++ body ∧
      ∀ op ∈ added, ∃ c ∈ calls, op = .func c.funcName c.type) ∧
    ∀ name, lookupFunc (runRequests body calls) name =
      (lookupFunc body name).or ((calls.find? (·.funcName == name)).map (·.type)) :=
  ⟨runRequests_adds_requested body calls, lookupFunc_runRequests body calls⟩

theorem lookupSymbol_of_mem {body : List (ModuleOp T)} (hu : SymbolsUnique body)
    {op : ModuleOp T} (hop : op ∈ body) {name : String} (hn : op.symName? = some name) :
    lookupSymbol body name = some op := by
  induction body with
  | nil => simp at hop
  | cons x body ih =>
    unfold SymbolsUnique at hu
    rw [lookupSymbol_cons]
    by_cases hx : x.symName? = some name
    · rw [if_pos hx]
      rcases List.mem_cons.1 hop with rfl | hop
      · rfl
      · simp only [List.filterMap_cons, hx, List.nodup_cons] at hu
        exact absurd (List.mem_filterMap.2 ⟨op, hop, hn⟩) hu.1
    · rw [if_neg hx]
      have hu' : SymbolsUnique body := by
        unfold SymbolsUnique; cases h : x.symName? <;> simp_all
      exact ih hu' ((List.mem_cons.1 hop).resolve_left (by rintro rfl; exact hx hn))

theorem mem_names_of_lookupFunc_none {body : List (ModuleOp T)} (hu : SymbolsUnique body)
    {name : String} (hf : lookupFunc body name = none) (hg : .global name ∉ body) :
    name ∉ body.filterMap ModuleOp.symName? := by
  intro hmem
  obtain ⟨op, hop, hn⟩ := List.mem_filterMap.1 hmem
  have hl := lookupSymbol_of_mem hu hop hn
  cases op with
  | func name' type => simp [lookupFunc, hl] at hf
  | global name' => cases hn; exact hg hop
  | other => cases hn

theorem getOrInsertSymbolRef_symbolsUnique {body : List (ModuleOp T)} (hu : SymbolsUnique body)
    {funcName : String} (hg : .global funcName ∉ body) (r : T) (ps : List T) (v : Bool) :
    SymbolsUnique (getOrInsertSymbolRef body funcName r ps v).1 := by
  unfold getOrInsertSymbolRef
  split_ifs with h
  · exact List.nodup_cons.2 ⟨mem_names_of_lookupFunc_none hu (Option.isNone_iff_eq_none.1 h) hg,
      hu⟩
  · exact hu

/-- Calls that name no symbol other than an `llvm.func` keep a module's symbol names unique,
whatever their order and repetitions. -/
theorem runRequests_symbolsUnique :
    (∀ (body : List (ModuleOp T)) (calls : List (SymbolRequest T)), SymbolsUnique body →
      (∀ c ∈ calls, .global c.funcName ∉ body) → SymbolsUnique (runRequests body calls)) ∧
    ∀ (body : List (ModuleOp T)) (funcName : String) (r : T) (ps : List T) (v : Bool),
      SymbolsUnique body → .global funcName ∈ body →
        ¬ SymbolsUnique (getOrInsertSymbolRef body funcName r ps v).1 := by
  refine ⟨fun body calls hu hg => ?_, fun body funcName r ps v hu hg => ?_⟩
  · induction calls generalizing body with
    | nil => exact hu
    | cons c calls ih =>
      refine ih _ (getOrInsertSymbolRef_symbolsUnique hu (hg c (List.mem_cons_self _ _)) _ _ _)
        fun c' hc' => ?_
      dsimp only [getOrInsertSymbolRef]
      split_ifs <;> simpa using hg c' (List.mem_cons_of_mem _ hc')
  · have hl := lookupSymbol_of_mem hu hg (ModuleOp.symName_global funcName)
    have hf : lookupFunc body funcName = none := by simp [lookupFunc, hl]
    simp only [SymbolsUnique, getOrInsertSymbolRef, hf, Option.isNone_none, if_true,
      List.filterMap_cons, ModuleOp.symName_func, List.nodup_cons, not_and, not_not]
    exact fun h => absurd (List.mem_filterMap.2 ⟨_, hg, ModuleOp.symName_global funcName⟩) h

theorem runRequests_symbolsUnique_malloc_free :
    SymbolsUnique (runRequests [.global "str", .other]
      [⟨"malloc", ⟨0, [0], false⟩⟩, ⟨"free", ⟨1, [0], false⟩⟩, ⟨"malloc", ⟨0, [1], true⟩⟩] :
        List (ModuleOp Nat)) ∧
    ¬ SymbolsUnique (getOrInsertSymbolRef ([.global "str"] : List (ModuleOp Nat)) "str" 0 [] false).1 :=
  ⟨runRequests_symbolsUnique.1 _ _ (by decide) (by decide),
    runRequests_symbolsUnique.2 _ _ _ _ _ (by decide) (by decide)⟩

end SymbolRef

end DialectBuilder.LLVMBuilder
