import MTalk.Library.PolarOrder

/-!
# Gift wrapping

A walk round the convex hull of a set of points that begins at the leftmost of the lowest points and
always goes on to a point with the first angle after that of the current direction. Every edge has
the whole set to its left, and when the walk is back at its beginning it has met every extreme
point.
-/

namespace PlaneGeometry

open PolygonWinding

section Defs

variable {K : Type*} [Field K] [LinearOrder K]

/-- All points are to the left of the line through `p` with the direction `d`. -/
def Supports (S : Set (K × K)) (p d : K × K) : Prop := ∀ x ∈ S, 0 ≤ cross d (x - p)

/-- The leftmost of the lowest points. -/
structure Lowest (S : Set (K × K)) (p0 : K × K) : Prop where
  mem : p0 ∈ S
  upper : ∀ x ∈ S, x ≠ p0 → Upper (x - p0)

/-- On the way round the hull from `p0` the point `a` comes before `b`. -/
def Passed (S : Set (K × K)) (p0 a b : K × K) : Prop :=
  0 < cross (a - p0) (b - p0) ∨ cross (a - p0) (b - p0) = 0 ∧ Supports S p0 (b - a)

/-- An edge of the hull, or a part of one. -/
def Side (S : Set (K × K)) (a b : K × K) : Prop := a ≠ b ∧ Supports S a (b - a)

/-- The points go once round the boundary of the convex hull of `S`, counter-clockwise, and meet
every extreme point. -/
structure Hull (S : Set (K × K)) (q : List (K × K)) : Prop where
  subset : ∀ x ∈ q, x ∈ S
  nodup : q.Nodup
  sides : (q ++ q.head?.toList).IsChain (Side S)
  order : ∀ p0 ∈ q.head?, q.tail.Pairwise fun a b => 0 ≤ orient p0 a b
  extreme : Set.extremePoints K (convexHull K S) ⊆ {x | x ∈ q}

/-- The walk has come by `l` to `P` and has the direction `d`. -/
structure Wrapping (S : Set (K × K)) (p0 : K × K) (l : List (K × K)) (P d : K × K) : Prop where
  subset : ∀ x ∈ l ++ [P], x ∈ S
  nodup : (l ++ [P]).Nodup
  head : (l ++ [P]).head? = some p0
  sides : (l ++ [P]).IsChain (Side S)
  dir : d ≠ 0
  ahead : Supports S P d
  passed : (l ++ [P]).tail.Pairwise (Passed S p0)
  covered : (∀ x ∈ S, 0 ≤ cross (x - p0) (P - p0) → x ∈ convexHull K {y | y ∈ l ++ [P]}) ∨
    Supports S p0 (P - p0)

end Defs

variable {K : Type*} [Field K] [LinearOrder K] [IsStrictOrderedRing K] {S : Set (K × K)}
  {p0 P R d a b c : K × K} {l : List (K × K)} {polar : K × K → K}

omit [LinearOrder K] [IsStrictOrderedRing K] in
lemma cross_sub_left (u v w : K × K) : cross (u - v) w = cross u w - cross v w := by
  simp only [cross, Prod.fst_sub, Prod.snd_sub]
  ring

omit [LinearOrder K] [IsStrictOrderedRing K] in
/-- The triangle `p0 a b` seen from its corner `a`. -/
lemma cross_corner (p0 a b : K × K) : cross (b - a) (p0 - a) = cross (a - p0) (b - p0) := by
  simp only [cross, Prod.fst_sub, Prod.snd_sub]
  ring

lemma collinear_of_cross (hP : P ∈ S) (hd : d ≠ 0) (h : ∀ x ∈ S, cross d (x - P) = 0) :
    Collinear K S := by
  rw [collinear_iff_of_mem hP]
  refine ⟨d, fun x hx => ?_⟩
  obtain ⟨r, hr⟩ := exists_smul_of_cross_eq_zero hd (h x hx)
  exact ⟨r, by rw [← hr, vadd_eq_add, sub_add_cancel]⟩

omit [IsStrictOrderedRing K] in
/-- A supporting line can be moved along itself. -/
lemma Supports.move (h : Supports S P d) (hR : cross d (R - P) = 0) : Supports S R d := by
  intro x hx
  have hsplit : x - R = x - P - (R - P) := by abel
  rw [hsplit, cross_sub, hR, sub_zero]
  exact h x hx

section Lowest

variable (hlow : Lowest S p0)

include hlow

lemma Lowest.not_upper (hP : P ∈ S) (hne : P ≠ p0) : ¬ Upper (p0 - P) := by
  have h := (hlow.upper P hP hne).not_neg
  rwa [neg_sub] at h

/-- The horizontal line through the lowest point. -/
lemma Lowest.supports : Supports S p0 (1, 0) := by
  intro x hx
  by_cases hxp : x = p0
  · rw [hxp, sub_self]
    simp [cross]
  · rcases hlow.upper x hx hxp with hpos | ⟨hzero, -⟩
    · simpa [cross] using hpos.le
    · simp [cross, hzero]

/-- The leftmost of the lowest points is an extreme point. -/
theorem Lowest.extreme : p0 ∈ Set.extremePoints K (convexHull K S) := by
  have hconvex : Convex K {x | x = p0 ∨ Upper (x - p0)} := by
    intro x hx y hy s t hs ht hst
    have hsplit : s • x + t • y - p0 = s • (x - p0) + t • (y - p0) := by
      have hp : p0 = s • p0 + t • p0 := by rw [← add_smul, hst, one_smul]
      rw [smul_sub, smul_sub]
      nth_rewrite 1 [hp]
      abel
    simp only [Set.mem_ofPred_eq] at hx hy ⊢
    rw [hsplit, ← sub_eq_zero, hsplit]
    rcases hx with rfl | hx <;> rcases hy with rfl | hy
    · exact .inl (by simp)
    · rw [sub_self, smul_zero, zero_add]
      rcases ht.eq_or_lt with rfl | ht
      · exact .inl (zero_smul K _)
      · exact .inr (hy.smul ht)
    · rw [sub_self, smul_zero, add_zero]
      rcases hs.eq_or_lt with rfl | hs
      · exact .inl (zero_smul K _)
      · exact .inr (hx.smul hs)
    · rcases ht.eq_or_lt with rfl | ht
      · rw [add_zero] at hst
        rw [hst, one_smul, zero_smul, add_zero]
        exact .inr hx
      · exact .inr (hx.combine hs ht hy)
  have hsub : convexHull K S ⊆ {x | x = p0 ∨ Upper (x - p0)} := by
    refine convexHull_min (fun x hx => ?_) hconvex
    by_cases hxp : x = p0
    · exact .inl hxp
    · exact .inr (hlow.upper x hx hxp)
  refine mem_extremePoints_iff_left.mpr ⟨subset_convexHull K S hlow.mem, fun x hx y hy hseg => ?_⟩
  obtain ⟨s, t, hs, ht, hst, hp⟩ := hseg
  have hzero : s • (x - p0) + t • (y - p0) = 0 := by
    rw [smul_sub, smul_sub, sub_add_sub_comm, hp, ← add_smul, hst, one_smul, sub_self]
  rcases hsub hx with hx' | hx'
  · exact hx'
  · rcases hsub hy with hy' | hy'
    · rw [hy', sub_self, smul_zero, add_zero] at hzero
      exact absurd hzero (hx'.smul hs).ne_zero
    · exact absurd hzero (hx'.combine hs.le ht hy').ne_zero

end Lowest

section Passed

variable (hlow : Lowest S p0)

include hlow

omit [IsStrictOrderedRing K] in
/-- The end of an edge comes after its beginning. -/
lemma passed_of_supports (h : Supports S P (R - P)) : Passed S p0 P R := by
  have hp0 := h p0 hlow.mem
  rw [cross_corner] at hp0
  rcases hp0.eq_or_lt with hzero | hpos
  · refine .inr ⟨hzero.symm, h.move ?_⟩
    rw [cross_corner]
    exact hzero.symm
  · exact .inl hpos

lemma Passed.trans (ha : a ∈ S) (hb : b ∈ S) (hc : c ∈ S) (ha0 : a ≠ p0) (hb0 : b ≠ p0)
    (hc0 : c ≠ p0) (hab : Passed S p0 a b) (hbc : Passed S p0 b c) : Passed S p0 a c := by
  have ha' := hlow.upper a ha ha0
  have hb' := hlow.upper b hb hb0
  have hc' := hlow.upper c hc hc0
  rcases hab with hab | ⟨hab, hsab⟩
  · refine .inl (ha'.cross_trans hb' hc' hab ?_)
    rcases hbc with hbc | ⟨hbc, -⟩
    · exact hbc.le
    · exact hbc.ge
  · rcases hbc with hbc | ⟨hbc, hsbc⟩
    · exact .inl (ha'.cross_trans' hb' hc' hab.ge hbc)
    · refine .inr ⟨?_, fun x hx => ?_⟩
      · obtain ⟨t, ht⟩ := exists_smul_of_cross_eq_zero hb'.ne_zero hbc
        have hba : cross (b - p0) (a - p0) = 0 := by rw [cross_swap, hab, neg_zero]
        obtain ⟨s, hs⟩ := exists_smul_of_cross_eq_zero hb'.ne_zero hba
        rw [ht, hs, smul_cross, cross_smul, PolygonWinding.cross_self, mul_zero, mul_zero]
      · have hsum : cross (c - a) (x - p0) = cross (b - a) (x - p0) + cross (c - b) (x - p0) := by
          rw [cross_sub_left, cross_sub_left, cross_sub_left]
          ring
        rw [hsum]
        exact add_nonneg (hsab x hx) (hsbc x hx)

omit hlow [IsStrictOrderedRing K] in
lemma Passed.nonneg (h : Passed S p0 a b) : 0 ≤ cross (a - p0) (b - p0) := by
  rcases h with h | ⟨h, -⟩
  · exact h.le
  · exact h.ge

omit hlow [IsStrictOrderedRing K] in
lemma Passed.supports_of_cross (h : Passed S p0 a b) (hzero : cross (a - p0) (b - p0) = 0) :
    Supports S p0 (b - a) := by
  rcases h with h | ⟨-, h⟩
  · exact absurd hzero h.ne'
  · exact h

/-- A point that the walk has passed is to the left of an edge that goes on from `P` with a greater
angle. -/
lemma cross_nonneg_of_passed (hpolar : ExactAngle polar) (hS : ¬ Collinear K S) (hP : P ∈ S)
    (hP0 : P ≠ p0) (hR : R ∈ S) (hd : d ≠ 0) (hahead : Supports S P d) (ha : a ∈ S)
    (hpassed : Passed S p0 a P) (hcopy : 0 ≤ cross (R - P) (p0 - P))
    (hangle : polar (p0 - P) ≠ polar d) : 0 ≤ cross (R - P) (a - P) := by
  have hz : p0 - P ≠ 0 := sub_ne_zero.mpr hP0.symm
  have hdz := hahead p0 hlow.mem
  have hdu := hahead R hR
  have hdw := hahead a ha
  have hzw : 0 ≤ cross (p0 - P) (a - P) := by
    rw [cross_corner, cross_corner]
    exact hpassed.nonneg
  rcases hdz.eq_or_lt with hdz | hdz
  · -- Then `p0` is behind `P`, and so is every point the walk has passed.
    obtain ⟨t, ht⟩ := exists_smul_of_cross_eq_zero hd hdz.symm
    have htneg : t < 0 := by
      refine lt_of_not_ge fun hge => hangle ?_
      rcases hge.eq_or_lt with rfl | hpos
      · exact absurd (ht.trans (zero_smul K d)) hz
      · exact ((hpolar.eq_iff hd hz).mpr ⟨t, hpos, ht⟩).symm
    have hw : cross d (a - P) = 0 := by
      rw [ht, smul_cross] at hzw
      exact le_antisymm (nonpos_of_mul_nonneg_right hzw htneg) hdw
    obtain ⟨s, hs⟩ := exists_smul_of_cross_eq_zero hd hw
    have hsle : s ≤ 0 := by
      by_contra hspos
      refine hS (collinear_of_cross hP hd fun x hx => le_antisymm ?_ (hahead x hx))
      have hback := hpassed.supports_of_cross ?_ x hx
      · have hsplit : x - p0 = x - P - t • d := by
          rw [← ht]
          abel
        rw [← neg_sub, hs, ← neg_smul, smul_cross, hsplit, cross_sub, cross_smul,
          PolygonWinding.cross_self, mul_zero, sub_zero] at hback
        exact nonpos_of_mul_nonneg_right hback (neg_neg_of_pos (not_le.mp hspos))
      · have hap0 : a - p0 = (s - t) • d := by
          rw [sub_smul, ← hs, ← ht]
          abel
        have hPp0 : P - p0 = -t • d := by
          rw [neg_smul, ← ht]
          abel
        rw [hap0, hPp0, smul_cross, cross_smul, PolygonWinding.cross_self, mul_zero, mul_zero]
    rw [hs, cross_smul, cross_swap, mul_neg, ← neg_mul]
    exact mul_nonneg (neg_nonneg.mpr hsle) hdu
  · have hmul : 0 ≤ cross d (p0 - P) * cross (R - P) (a - P) := by
      rw [cross_mul_cross, cross_swap (R - P) (p0 - P), mul_neg, sub_neg_eq_add]
      exact add_nonneg (mul_nonneg hdu hzw) (mul_nonneg hdw hcopy)
    exact nonneg_of_mul_nonneg_right hmul hdz

end Passed

/-- A point of a triangle is in every convex set with the three corners. -/
lemma mem_of_triangle {C : Set (K × K)} (hC : Convex K C) (ha : a ∈ C) (hb : b ∈ C) (hc : c ∈ C)
    {x : K × K} (harea : 0 < cross (b - a) (c - a)) (hbx : 0 ≤ cross (x - a) (c - a))
    (hcx : 0 ≤ cross (b - a) (x - a)) (hax : 0 ≤ cross (c - b) (x - b)) : x ∈ C := by
  have hsum : cross (c - b) (x - b) + cross (x - a) (c - a) + cross (b - a) (x - a) =
      cross (b - a) (c - a) := by
    simp only [cross, Prod.fst_sub, Prod.snd_sub]
    ring
  have hx : ∑ i, ![cross (c - b) (x - b) / cross (b - a) (c - a),
      cross (x - a) (c - a) / cross (b - a) (c - a),
      cross (b - a) (x - a) / cross (b - a) (c - a)] i • ![a, b, c] i = x := by
    have hne := harea.ne'
    rw [Fin.sum_univ_three]
    ext
    · simp only [cross, Prod.fst_sub, Prod.snd_sub] at hne ⊢
      simp only [Matrix.cons_val, Prod.smul_fst, Prod.fst_add, smul_eq_mul]
      field_simp
      ring
    · simp only [cross, Prod.fst_sub, Prod.snd_sub] at hne ⊢
      simp only [Matrix.cons_val, Prod.smul_snd, Prod.snd_add, smul_eq_mul]
      field_simp
      ring
  rw [← hx]
  refine hC.sum_mem (fun i _ => ?_) ?_ fun i _ => ?_
  · fin_cases i
    · exact div_nonneg hax harea.le
    · exact div_nonneg hbx harea.le
    · exact div_nonneg hcx harea.le
  · rw [Fin.sum_univ_three]
    simp only [Matrix.cons_val]
    rw [← add_div, ← add_div, hsum, div_self harea.ne']
  · fin_cases i
    · exact ha
    · exact hb
    · exact hc

namespace Wrapping

/-- The walk begins at `p0` in the direction of the first axis. -/
lemma start (hlow : Lowest S p0) : Wrapping S p0 [] p0 (1, 0) where
  subset := by simpa using hlow.mem
  nodup := by simp
  head := rfl
  sides := by simp
  dir := by simp
  ahead := hlow.supports
  passed := by simp
  covered := .inr fun x _ => by simp [cross]

omit [IsStrictOrderedRing K] in
lemma mem_of_wrapping (h : Wrapping S p0 l P d) : P ∈ S := h.subset P (by simp)

omit [IsStrictOrderedRing K] in
lemma ne_of_mem (h : Wrapping S p0 l P d) (ha : a ∈ l) : a ≠ P := by
  rintro rfl
  exact (List.nodup_append.mp h.nodup).2.2 a ha a (by simp) rfl

omit [IsStrictOrderedRing K] in
/-- The points before the last one are its beginning or are passed. -/
lemma passed_last (h : Wrapping S p0 l P d) (ha : a ∈ l) (ha0 : a ≠ p0) : Passed S p0 a P := by
  have hhead := h.head
  have hpassed := h.passed
  cases l with
  | nil => simp at ha
  | cons b l =>
    obtain rfl : b = p0 := by simpa using hhead
    rw [List.cons_append, List.tail_cons, List.pairwise_append] at hpassed
    exact hpassed.2.2 a ((List.mem_cons.mp ha).resolve_left ha0) P (by simp)

omit [IsStrictOrderedRing K] in
lemma eq_nil_of_eq (h : Wrapping S p0 l p0 d) : l = [] := by
  cases l with
  | nil => rfl
  | cons b l =>
    obtain rfl : b = p0 := by simpa using h.head
    exact absurd rfl (h.ne_of_mem (by simp))

variable (hlow : Lowest S p0) (hpolar : ExactAngle polar)

include hlow hpolar

/-- The beginning is never before the current direction. -/
lemma angle_le (h : Wrapping S p0 l P d) (hP0 : P ≠ p0) : polar d ≤ polar (p0 - P) := by
  have hz : p0 - P ≠ 0 := sub_ne_zero.mpr hP0.symm
  have hnot := hlow.not_upper h.mem_of_wrapping hP0
  have hdz := h.ahead p0 hlow.mem
  rw [← not_lt, hpolar.lt_iff _ _ hz h.dir]
  rintro (⟨hup, -⟩ | ⟨-, hpos⟩)
  · exact hnot hup
  · rw [cross_swap] at hpos
    linarith

/-- The next edge has all points to its left, when no point that is left comes before its end. -/
lemma side_next (h : Wrapping S p0 l P d) (hS : ¬ Collinear K S) {rest : Set (K × K)}
    (hrest : ∀ x ∈ S, x ∈ l ++ [P] ∨ x ∈ rest) (hcopy : P ≠ p0 → p0 ∈ rest) (hR : R ∈ S)
    (hne : R ≠ P) (hnext : polar (R - P) = polar d ∨ polar d < polar (R - P) ∧
      ∀ x ∈ rest, x ≠ P → polar (x - P) < polar d ∨ polar (R - P) ≤ polar (x - P)) :
    Supports S P (R - P) := by
  have hu : R - P ≠ 0 := sub_ne_zero.mpr hne
  rcases hnext with htie | ⟨hlt, hmin⟩
  · obtain ⟨t, ht, hRP⟩ := (hpolar.eq_iff h.dir hu).mp htie.symm
    intro x hx
    rw [hRP, smul_cross]
    exact mul_nonneg ht.le (h.ahead x hx)
  · have hleft : ∀ x ∈ S, x ∈ rest → x ≠ P → 0 ≤ cross (R - P) (x - P) := by
      intro x hx hxrest hxP
      exact hpolar.cross_nonneg h.dir hu (sub_ne_zero.mpr hxP) hlt (h.ahead x hx)
        (hmin x hxrest hxP).symm
    intro x hx
    by_cases hxP : x = P
    · rw [hxP, sub_self]
      simp [cross]
    · rcases hrest x hx with hxl | hxrest
      · have hxl' : x ∈ l := by simpa [hxP] using hxl
        have hP0 : P ≠ p0 := by
          rintro rfl
          rw [h.eq_nil_of_eq] at hxl'
          simp at hxl'
        have hp0 := hleft p0 hlow.mem (hcopy hP0) hP0.symm
        by_cases hx0 : x = p0
        · rw [hx0]
          exact hp0
        · have hangle : polar (p0 - P) ≠ polar d := by
            intro heq
            rcases hmin p0 (hcopy hP0) hP0.symm with hbefore | hafter
            · exact hbefore.ne heq
            · exact (hlt.trans_le hafter).ne' heq
          exact cross_nonneg_of_passed hlow hpolar hS h.mem_of_wrapping hP0 hR h.dir h.ahead hx
            (h.passed_last hxl' hx0) hp0 hangle
      · exact hleft x hx hxrest hxP

/-- There is a point to go on to. -/
lemma exists_next (h : Wrapping S p0 l P d) (hS : ¬ Collinear K S) (hstart : l = [] → d = (1, 0)) :
    ∃ x, (x ∈ S ∧ x ∉ l ++ [P] ∨ x = p0 ∧ P ≠ p0) ∧ x ≠ P ∧ polar d ≤ polar (x - P) := by
  by_cases hP0 : P = p0
  · subst hP0
    have hnil := h.eq_nil_of_eq
    obtain ⟨x, hx, hxP⟩ : ∃ x ∈ S, x ≠ P := by
      by_contra hall
      push Not at hall
      refine hS ((collinear_singleton K P).subset fun x hx => ?_)
      exact hall x hx
    refine ⟨x, .inl ⟨hx, by simpa [hnil] using hxP⟩, hxP, ?_⟩
    rw [hstart hnil, hpolar.right]
    exact hpolar.nonneg (sub_ne_zero.mpr hxP)
  · exact ⟨p0, .inr ⟨rfl, hP0⟩, Ne.symm hP0, h.angle_le hlow hpolar hP0⟩

omit hpolar

/-- The points met so far cover the part of the hull that the walk has gone round. -/
lemma covered_step (h : Wrapping S p0 l P d) (hR : R ∈ S) (hnew : R ∉ l ++ [P])
    (hside : Supports S P (R - P)) :
    (∀ x ∈ S, 0 ≤ cross (x - p0) (R - p0) → x ∈ convexHull K {y | y ∈ l ++ [P] ++ [R]}) ∨
      Supports S p0 (R - p0) := by
  have hp0 : p0 ∈ l ++ [P] := List.mem_of_mem_head? h.head
  have hR0 : R ≠ p0 := by
    rintro rfl
    exact hnew hp0
  by_cases hP0 : P = p0
  · rw [hP0] at hside
    exact .inr hside
  · have hgrow : {y | y ∈ l ++ [P]} ⊆ {y | y ∈ l ++ [P] ++ [R]} :=
      fun y hy => List.mem_append_left [R] hy
    have hPup := hlow.upper P h.mem_of_wrapping hP0
    have hRup := hlow.upper R hR hR0
    have htriangle : ∀ x ∈ S, 0 < cross (P - p0) (R - p0) → 0 ≤ cross (x - p0) (R - p0) →
        0 ≤ cross (P - p0) (x - p0) → x ∈ convexHull K {y | y ∈ l ++ [P] ++ [R]} := by
      intro x hx harea hxR hxP
      have hcorner : ∀ y ∈ l ++ [P] ++ [R], y ∈ convexHull K {y | y ∈ l ++ [P] ++ [R]} :=
        fun y hy => subset_convexHull K _ hy
      exact mem_of_triangle (convex_convexHull K _) (hcorner p0 (List.mem_append_left [R] hp0))
        (hcorner P (by simp)) (hcorner R (by simp)) harea hxR hxP (hside x hx)
    rcases passed_of_supports hlow hside with hpos | ⟨hzero, -⟩
    · refine .inl fun x hx hxR => ?_
      rcases h.covered with hcov | hfirst
      · by_cases hxP : 0 ≤ cross (x - p0) (P - p0)
        · exact convexHull_mono hgrow (hcov x hx hxP)
        · rw [cross_swap, neg_nonneg, not_le] at hxP
          exact htriangle x hx hpos hxR hxP.le
      · exact htriangle x hx hpos hxR (hfirst x hx)
    · -- The three points are on one ray from `p0`, so that nothing is between `P` and `R`.
      obtain ⟨t, hRt⟩ := exists_smul_of_cross_eq_zero hPup.ne_zero hzero
      have ht : 0 < t := by
        rw [hRt] at hRup
        exact hPup.pos_of_smul hRup
      rcases h.covered with hcov | hfirst
      · refine .inl fun x hx hxR => ?_
        rw [hRt, cross_smul] at hxR
        exact convexHull_mono hgrow (hcov x hx (nonneg_of_mul_nonneg_right hxR ht))
      · refine .inr fun x hx => ?_
        rw [hRt, smul_cross]
        exact mul_nonneg ht.le (hfirst x hx)

/-- The walk goes on along a side of the hull. -/
lemma step (h : Wrapping S p0 l P d) (hR : R ∈ S) (hnew : R ∉ l ++ [P])
    (hside : Supports S P (R - P)) : Wrapping S p0 (l ++ [P]) R (R - P) where
  subset := by
    intro x hx
    rcases List.mem_append.mp hx with hx | hx
    · exact h.subset x hx
    · rw [List.mem_singleton.mp hx]
      exact hR
  nodup := by
    refine h.nodup.append (by simp) fun x hx hxR => hnew ?_
    rw [← List.mem_singleton.mp hxR]
    exact hx
  head := by
    rw [List.head?_append, h.head]
    rfl
  sides := by
    refine List.isChain_append.mpr ⟨h.sides, by simp, ?_⟩
    intro x hx y hy
    obtain rfl : P = x := by simpa using hx
    obtain rfl : R = y := by simpa using hy
    exact ⟨fun heq => hnew (by simp [heq]), hside⟩
  dir := by
    refine sub_ne_zero.mpr fun heq => hnew ?_
    simp [heq]
  ahead := hside.move (PolygonWinding.cross_self _)
  passed := by
    rw [List.tail_append_of_ne_nil (by simp), List.pairwise_append]
    refine ⟨h.passed, by simp, fun x hx y hy => ?_⟩
    rw [List.mem_singleton.mp hy]
    have hp0 : p0 ∈ l ++ [P] := List.mem_of_mem_head? h.head
    have hx' : x ∈ l ++ [P] := List.mem_of_mem_tail hx
    have hx0 : x ≠ p0 := by
      rintro rfl
      have hnodup := h.nodup
      rw [← List.cons_head?_tail h.head, List.nodup_cons] at hnodup
      exact hnodup.1 hx
    have hP0 : P ≠ p0 := by
      rintro rfl
      rw [h.eq_nil_of_eq] at hx
      simp at hx
    have hR0 : R ≠ p0 := by
      rintro rfl
      exact hnew hp0
    have hPR := passed_of_supports hlow hside
    rcases List.mem_append.mp hx' with hxl | hxP
    · exact (h.passed_last hxl hx0).trans hlow (h.subset x hx') h.mem_of_wrapping hR hx0 hP0 hR0 hPR
    · rw [List.mem_singleton.mp hxP]
      exact hPR
  covered := h.covered_step hlow hR hnew hside

/-- A walk that goes back to its beginning has gone round the hull. -/
theorem close (h : Wrapping S p0 l P d) (hS : ¬ Collinear K S) (hP0 : P ≠ p0)
    (hside : Supports S P (p0 - P)) : Hull S (l ++ [P]) where
  subset := h.subset
  nodup := h.nodup
  sides := by
    rw [h.head]
    refine List.isChain_append.mpr ⟨h.sides, by simp, ?_⟩
    intro x hx y hy
    obtain rfl : P = x := by simpa using hx
    obtain rfl : p0 = y := by simpa using hy
    exact ⟨hP0, hside⟩
  order := by
    intro p hp
    rw [h.head] at hp
    obtain rfl := Option.some.inj hp
    exact h.passed.imp fun hab => hab.nonneg
  extreme := by
    have hback : ∀ x ∈ S, 0 ≤ cross (x - p0) (P - p0) := by
      intro x hx
      have hx' := hside x hx
      rwa [cross_corner, cross_corner] at hx'
    have hall : ∀ x ∈ S, x ∈ convexHull K {y | y ∈ l ++ [P]} := by
      rcases h.covered with hcov | hfirst
      · exact fun x hx => hcov x hx (hback x hx)
      · refine absurd (collinear_of_cross hlow.mem (sub_ne_zero.mpr hP0) fun x hx => ?_) hS
        refine le_antisymm ?_ (hfirst x hx)
        rw [cross_swap, neg_nonpos]
        exact hback x hx
    have hhull : convexHull K S = convexHull K {y | y ∈ l ++ [P]} :=
      subset_antisymm (convexHull_min hall (convex_convexHull K _)) (convexHull_mono h.subset)
    rw [hhull]
    exact extremePoints_convexHull_subset

end Wrapping

omit [IsStrictOrderedRing K] in
/-- A walk whose angles do not fall cannot leave the leftmost of the lowest points after it has come
to it from another point. -/
lemma Lowest.not_left (hlow : Lowest S p0) (hpolar : ExactAngle polar) (hd : d ≠ 0)
    (hdown : ¬ Upper d) (hR : R ∈ S) (hR0 : R ≠ p0) : ¬ polar d ≤ polar (R - p0) := by
  have hup := hlow.upper R hR hR0
  rw [not_le, hpolar.lt_iff _ _ hup.ne_zero hd]
  exact .inl ⟨hup, hdown⟩

end PlaneGeometry
