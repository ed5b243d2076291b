import DialectBuilder.MemRef

namespace DialectBuilder.Reshape

open DialectBuilder.Types DialectBuilder.Vector DialectBuilder.MemRef

/-- The row-major position of a multi-index within the given extents. -/
def linearize : List Nat → List Nat → Nat
  | _ :: es, i :: is => i * es.prod + linearize es is
  | _, _ => 0

@[simp] theorem linearize_cons (e i : Nat) (es is : List Nat) :
    linearize (e :: es) (i :: is) = i * es.prod + linearize es is := rfl

def delinearize : List Nat → Nat → List Nat
  | [], _ => []
  | _ :: es, j => j / es.prod :: delinearize es (j % es.prod)

theorem linearize_append {O I is is' : List Nat} (h : is.length = O.length) :
    linearize (O ++ I) (is ++ is') = linearize O is * I.prod + linearize I is' := by
  induction O generalizing is with
  | nil =>
    rw [List.length_eq_zero.1 h]
    show linearize I is' = 0 * I.prod + linearize I is'
    rw [Nat.zero_mul, Nat.zero_add]
  | cons e es ih =>
    obtain ⟨i, is, rfl⟩ := List.exists_cons_of_length_eq_add_one h
    rw [List.cons_append, List.cons_append, linearize_cons, linearize_cons, List.prod_append,
      ih (Nat.succ.inj h), Nat.add_mul, Nat.mul_assoc, Nat.add_assoc]

theorem linearize_delinearize {I : List Nat} {j : Nat} (h : j < I.prod) :
    linearize I (delinearize I j) = j := by
  induction I generalizing j with
  | nil => simp_all [linearize, delinearize]
  | cons e es ih =>
    have hpos : 0 < es.prod := Nat.pos_of_ne_zero fun h0 => by simp [h0] at h
    simp only [delinearize, linearize, ih (Nat.mod_lt _ hpos)]
    exact Nat.div_add_mod' j es.prod

theorem linearize_flatten {O I is : List Nat} {j : Nat} (h : is.length = O.length)
    (hj : j < I.prod) :
    linearize (O ++ [I.prod]) (is ++ [j]) = linearize (O ++ I) (is ++ delinearize I j) := by
  rw [linearize_append h, linearize_append h, linearize_delinearize hj]
  simp [linearize]

/-- A memref's contents at run time: its extents and its elements in row-major order. -/
structure Buffer (α : Type) where
  extents : List Nat
  data : Nat → α

def Buffer.get {α : Type} (b : Buffer α) (idx : List Nat) : α := b.data (linearize b.extents idx)

section Eval

variable {α : Type} (σ : Nat → Nat) (δ : Nat → Nat → Nat) (ν : Nat → Buffer α)

/-- The contents a value denotes, given the arguments' contents `ν`: `memref.reshape` reads the
source's row-major elements under its shape operand's extents. -/
def contents : MemRefValue → Option (Buffer α)
  | .arg id _ => some (ν id)
  | .reshape _ src shape =>
    (contents src).map fun b => ⟨shape.extents.map (·.eval σ δ), b.data⟩
  | _ => none

end Eval

theorem foldlM_range_snoc {β γ : Type} (body : γ → Nat → Except String γ) (g : List β → γ)
    {L : List β} {n : Nat} (hL : L.length = n)
    (hbody : ∀ l i (h : i < L.length), body (g l) i = .ok (g (l ++ [L[i]]))) :
    (List.range n).foldlM body (g []) = .ok (g L) := by
  obtain ⟨b, hb, rfl⟩ := @foldlM_range_inv _ body (fun i acc => acc = g (L.take i)) n (g []) rfl
    (fun i hi acc hacc => ⟨_, hacc ▸ hbody _ i (by omega), show _ = g (L.take (i + 1)) by
      rw [List.take_succ, List.getElem?_eq_getElem (by omega)]; rfl⟩)
  subst hL
  rwa [List.take_length] at hb

theorem foldlM_range_times {dims : List IndexExpr} (acc : IndexExpr) {s n : Nat}
    (h : s + n ≤ dims.length) :
    (List.range' s n).foldlM (fun acc d => do pure (acc.times (← getAt dims d))) acc =
      .ok (((dims.drop s).take n).foldl IndexExpr.times acc) := by
  induction n generalizing s acc with
  | zero => rfl
  | succ n ih =>
    rw [List.range'_succ, List.foldlM_cons, getAt_of_lt (show s < dims.length by omega)]
    show List.foldlM _ (acc.times dims[s]) _ = _
    rw [ih _ (by omega), List.drop_eq_getElem_cons (show s < dims.length by omega)]
    rfl

theorem eval_foldl_times (σ : Nat → Nat) (δ : Nat → Nat → Nat) (l : List IndexExpr)
    (acc : IndexExpr) :
    (l.foldl IndexExpr.times acc).eval σ δ = acc.eval σ δ * (l.map (·.eval σ δ)).prod := by
  induction l generalizing acc with
  | nil => simp
  | cons d l ih => simp [ih, Nat.mul_assoc]

theorem reshapeToFlat_eq (g : Int) {v : MemRefValue} {dims : List IndexExpr} {k : Int} {n : Nat}
    (hlay : v.type.identityLayout = true) (hrank : dims.length = v.type.getRank)
    (hn : (if k = -1 then (v.type.getRank : Int) else k) = n) (h0 : 0 < n)
    (hle : n ≤ v.type.getRank) :
    let flat := (dims.drop (v.type.getRank - n)).foldl IndexExpr.times (.literal 1)
    let L := dims.take (v.type.getRank - n) ++ [flat]
    reshapeToFlat g v dims k = .ok (if n = 1 then (v, flat) else
      (reshape (.get (L.map IndexExpr.getShape) v.type.elementType) v
        ⟨alignedAlloc g (.get [some (v.type.getRank - n + 1)] (.scalar .index)) [] defaultAlign, L⟩,
        flat)) := by
  intro flat L
  simp only [reshapeToFlat, hrank, beq_self_eq_true, expect_true, MemRefType.hasNonIdentityLayout,
    hlay, hn, Int.toNat_ofNat, Bool.not_not, Nat.cast_pos.2 h0, Nat.cast_le.2 hle, decide_True,
    Bool.and_self, pure_bind, foldlM_range_times _ (show v.type.getRank - n + n ≤ dims.length by omega),
    ok_bind, List.take_of_length_le (show (dims.drop (v.type.getRank - n)).length ≤ n by simp; omega)]
  have hL : L.length = v.type.getRank - n + 1 := by
    simp only [L, List.length_append, List.length_take, List.length_singleton]; omega
  split_ifs with h1
  · rfl
  erw [foldlM_range_snoc _ (fun l : List IndexExpr => (l, l.map IndexExpr.getShape)) hL]
  · rfl
  intro l i hi
  dsimp only [L]
  by_cases hlast : i = v.type.getRank - n + 1 - 1
  · rw [if_pos hlast, List.getElem_concat_length _ _ _ (by simp; omega)]
    simp
  · have hi' : i < (dims.take (v.type.getRank - n)).length := by simp; omega
    rw [if_neg hlast]
    simp [getAt_of_lt (show i < dims.length by omega), List.getElem_append_left hi']

theorem reshapeFromFlat_eq (g : Int) (w : MemRefValue) {dims : List IndexExpr}
    {outputType : MemRefType} (hlay : outputType.identityLayout = true)
    (hrank : dims.length = outputType.getRank) :
    reshapeFromFlat g w dims outputType = .ok (reshape outputType w
      ⟨alignedAlloc g (.get [some outputType.getRank] (.scalar .index)) [] defaultAlign, dims⟩) := by
  simp only [reshapeFromFlat, MemRefType.hasNonIdentityLayout, hlay, Bool.not_not, expect_true,
    pure_bind]
  erw [foldlM_range_snoc _ id hrank (fun l i hi => by simp [getAt_of_lt hi])]
  rfl

section RoundTrip

variable {α : Type} (σ : Nat → Nat) (δ : Nat → Nat → Nat) (ν : Nat → Buffer α)

theorem Buffer.get_flatten {b b' : Buffer α} {O I : List Nat} (hb : b.extents = O ++ I)
    (hb' : b'.extents = O ++ [I.prod]) (hd : b'.data = b.data) {is : List Nat} {j : Nat}
    (his : is.length = O.length) (hj : j < I.prod) :
    b'.get (is ++ [j]) = b.get (is ++ delinearize I j) := by
  simp only [Buffer.get, hb, hb', hd, linearize_flatten his hj]

theorem reshapeFromFlat_contents (g : Int) {w : MemRefValue} {dims : List IndexExpr}
    {t : MemRefType} {b b' : Buffer α} (hlay : t.identityLayout = true)
    (hrank : dims.length = t.getRank) (hw : contents σ δ ν w = some b') (hd : b'.data = b.data)
    (hb : b.extents = dims.map (·.eval σ δ)) :
    ∃ back, reshapeFromFlat g w dims t = .ok back ∧ back.type = t ∧
      contents σ δ ν back = some b :=
  ⟨_, reshapeFromFlat_eq g w hlay hrank, rfl, by simp [reshape, contents, hw, hd, ← hb]⟩

theorem reshapeToFlat_reshapeFromFlat (g : Int) {v : MemRefValue} {dims : List IndexExpr}
    {k : Int} {b : Buffer α} (hlay : v.type.identityLayout = true) (hr : 1 ≤ v.type.getRank)
    (hrank : dims.length = v.type.getRank) (hk : (1 ≤ k ∧ k ≤ v.type.getRank) ∨ k = -1)
    (hv : contents σ δ ν v = some b) (hb : b.extents = dims.map (·.eval σ δ)) :
    let n := if k = -1 then v.type.getRank else k.toNat
    let outer := dims.take (v.type.getRank - n)
    let inner := (dims.drop (v.type.getRank - n)).map (·.eval σ δ)
    ∃ res flat, reshapeToFlat g v dims k = .ok (res, flat) ∧ flat.eval σ δ = inner.prod ∧
      (n ≠ 1 → res.type = .get ((outer ++ [flat]).map IndexExpr.getShape) v.type.elementType) ∧
      ∃ b', contents σ δ ν res = some b' ∧ b'.extents = outer.map (·.eval σ δ) ++ [flat.eval σ δ] ∧
        (∀ is j, is.length = outer.length → j < inner.prod →
          b'.get (is ++ [j]) = b.get (is ++ delinearize inner j)) ∧
        ∃ back, reshapeFromFlat g res dims v.type = .ok back ∧ back.type = v.type ∧
          contents σ δ ν back = some b := by
  intro n outer inner
  obtain ⟨hn, h0, hle⟩ : (if k = -1 then (v.type.getRank : Int) else k) = n ∧ 0 < n ∧
      n ≤ v.type.getRank := by
    rcases hk with ⟨h1, h2⟩ | rfl
    · simp [n, show k ≠ -1 by omega]; omega
    · simp [n]; omega
  set flat := (dims.drop (v.type.getRank - n)).foldl IndexExpr.times (.literal 1)
  have hflat : flat.eval σ δ = inner.prod := by simp [flat, inner, eval_foldl_times]
  have hsplit : b.extents = outer.map (·.eval σ δ) ++ inner := by
    rw [hb, ← List.map_append, List.take_append_drop]
  have hlen : (outer.map (·.eval σ δ)).length = outer.length := List.length_map _ _
  rw [reshapeToFlat_eq g hlay hrank hn h0 hle]
  by_cases h1 : n = 1
  · -- Flattening the last dimension returns the value itself.
    obtain ⟨x, hx⟩ : ∃ x, inner = [x] := List.length_eq_one.1 (by simp [inner]; omega)
    have hext : b.extents = outer.map (·.eval σ δ) ++ [flat.eval σ δ] := by
      rw [hsplit, hflat, hx, List.prod_singleton]
    rw [if_pos h1]
    exact ⟨v, flat, rfl, hflat, fun h => absurd h1 h, b, hv, hext,
      fun is j his hj => Buffer.get_flatten hsplit (hflat ▸ hext) rfl (his.trans hlen.symm) hj,
      reshapeFromFlat_contents σ δ ν g hlay hrank hv rfl hb⟩
  · have hres : contents σ δ ν (reshape (.get ((outer ++ [flat]).map IndexExpr.getShape)
        v.type.elementType) v ⟨alignedAlloc g (.get [some (v.type.getRank - n + 1)] (.scalar .index))
        [] defaultAlign, outer ++ [flat]⟩) = some ⟨(outer ++ [flat]).map (·.eval σ δ), b.data⟩ := by
      simp [reshape, contents, hv]
    rw [if_neg h1]
    exact ⟨_, flat, rfl, hflat, fun _ => rfl, _, hres, List.map_append _ _ _,
      fun is j his hj => Buffer.get_flatten hsplit (by simp [hflat]) (by rfl) (his.trans hlen.symm) hj,
      reshapeFromFlat_contents σ δ ν g hlay hrank hres rfl hb⟩

end RoundTrip

theorem reshapeToFlat_two_by_twelve :
    let v := MemRefValue.arg 0 (.get [some 2, none, some 3] (.scalar (.float .f32)))
    let dims := [IndexExpr.literal 2, .symbol 0, .literal 3]
    let ν : Nat → Buffer Nat := fun _ => ⟨[2, 4, 3], id⟩
    v.type.identityLayout = true ∧ 1 ≤ v.type.getRank ∧ dims.length = v.type.getRank ∧
      ((1 : Int) ≤ 2 ∧ (2 : Int) ≤ v.type.getRank) ∧ contents (fun _ => 4) (fun _ _ => 0) ν v = some (ν 0) ∧
      (ν 0).extents = dims.map (·.eval (fun _ => 4) (fun _ _ => 0)) ∧
      ∃ res flat, reshapeToFlat 0 v dims 2 = .ok (res, flat) ∧ flat.eval (fun _ => 4) (fun _ _ => 0) = 12 ∧
        ∃ b', contents (fun _ => 4) (fun _ _ => 0) ν res = some b' ∧ b'.extents = [2, 12] ∧
          b'.get [1, 5] = (ν 0).get [1, 1, 2] := by
  intro v dims ν
  refine ⟨rfl, by decide, rfl, by decide, rfl, rfl, ?_⟩
  obtain ⟨res, flat, hres, hflat, -, b', hb', hext, hget, -⟩ :=
    @reshapeToFlat_reshapeFromFlat Nat (fun _ => 4) (fun _ _ => 0) ν 0 v dims 2 (ν 0)
      rfl (by decide) rfl (.inl (by decide)) rfl rfl
  exact ⟨res, flat, hres, hflat, b', hb', hext.trans (by rw [hflat]; rfl), hget [1] 5 rfl (by decide)⟩

end DialectBuilder.Reshape
