import MTalk.Library.PolygonWinding

/-!
# Simple polygons

A simple polygon has one winding number along the left of all its edges and one less along the
right, and so it winds at most once about every point off its boundary: the point is inside exactly
when an odd number of edges cross a ray from it.
-/

namespace PolygonWinding

open PlaneGeometry

variable {K : Type*} [Field K] [LinearOrder K] [IsStrictOrderedRing K]

/-- A closed polygon of at least three vertices whose edges meet at common ends only. -/
structure SimplePolygon (n : ℕ) (p : ℕ → K × K) : Prop where
  three_le : 3 ≤ n
  periodic : ∀ i, p (i + n) = p i
  ne_next : ∀ i, p i ≠ p (i + 1)
  meet : ∀ i j, i < j → j < i + n → ∀ x ∈ segment K (p i) (p (i + 1)),
    x ∈ segment K (p j) (p (j + 1)) → j = i + 1 ∧ x = p j ∨ j + 1 = i + n ∧ x = p i

/-- An edge that ends behind the ray does not cross it. -/
lemma rayCrossing_behind {s : K} (hs : 0 ≤ s) (d a : K × K) :
    rayCrossing d a (-(s • d)) = 0 := by
  have hend : cross d (-(s • d)) = 0 := by
    rw [← neg_smul, cross_smul, cross_self, mul_zero]
  have hside : cross a (-(s • d)) = s * cross d a := by
    rw [← neg_smul, cross_smul, cross_swap d a]
    ring
  rw [rayCrossing, hend, hside, if_neg (by simp), if_neg]
  rintro ⟨-, ha, hneg⟩
  have := mul_nonneg hs ha.le
  linarith

/-- An edge that begins on the ray crosses it if it goes to the left. -/
lemma rayCrossing_ahead {s : K} (hs : 0 < s) (d b : K × K) :
    rayCrossing d (s • d) b = if 0 < cross d b then 1 else 0 := by
  have hstart : cross d (s • d) = 0 := by rw [cross_smul, cross_self, mul_zero]
  rw [rayCrossing, hstart, smul_cross]
  by_cases hb : 0 < cross d b
  · simp [hb, mul_pos hs hb]
  · simp [hb]

/-- An edge that crosses the ray has a point ahead on it. -/
lemma mem_of_rayCrossing_ne_zero {d a b : K × K} (h : rayCrossing d a b ≠ 0) :
    0 < cross a b / (cross d b - cross d a) ∧
      (cross a b / (cross d b - cross d a)) • d ∈ segment K a b := by
  unfold rayCrossing at h
  split_ifs at h with hup hdown
  · obtain ⟨ha, hb, hab⟩ := hup
    exact ⟨div_pos hab (by linarith), crossing_mem_segment ha hb.le (ha.trans_lt hb)⟩
  · obtain ⟨hb, ha, hab⟩ := hdown
    have hmem := crossing_mem_segment hb ha.le (hb.trans_lt ha)
    rw [cross_swap a b, ← neg_sub (cross d b), neg_div_neg_eq, segment_symm] at hmem
    exact ⟨div_pos_of_neg_of_neg hab (by linarith), hmem⟩
  · exact absurd rfl h

/-- An edge with a point ahead on it crosses the ray if its ends are off the line, and the point is
determined. -/
lemma rayCrossing_of_mem {d a b : K × K} {s : K} (hs : 0 < s) (h : s • d ∈ segment K a b)
    (ha : cross d a ≠ 0) (hb : cross d b ≠ 0) :
    rayCrossing d a b ≠ 0 ∧ s = cross a b / (cross d b - cross d a) := by
  obtain ⟨u, v, hu, hv, huv, hpoint⟩ := h
  have hlevel : u * cross d a + v * cross d b = 0 := by
    have hsum : cross d (u • a + v • b) = u * cross d a + v * cross d b := by
      simp only [cross, Prod.fst_add, Prod.snd_add, Prod.smul_fst, Prod.smul_snd, smul_eq_mul]
      ring
    rw [← hsum, hpoint, cross_smul, cross_self, mul_zero]
  have hd : d ≠ 0 := by
    rintro rfl
    exact ha (by simp [cross])
  have hscale : s * (cross d b - cross d a) = cross a b := by
    have hcombine : (cross d b - cross d a) • (s • d) = cross a b • d := by
      rw [← hpoint, ← cross_smul_sub, smul_add, smul_smul, smul_smul]
      obtain rfl : u = 1 - v := by linarith
      have hleft : (cross d b - cross d a) * (1 - v) = cross d b := by linarith
      have hright : (cross d b - cross d a) * v = -cross d a := by linarith
      rw [hleft, hright, neg_smul, sub_eq_add_neg]
    rw [smul_smul, ← sub_eq_zero, ← sub_smul, smul_eq_zero, or_iff_left hd] at hcombine
    linarith
  rcases lt_or_gt_of_ne ha with hneg | hpos
  · have hb' : 0 < cross d b := by
      by_contra hle
      have hlt : cross d b < 0 := lt_of_le_of_ne (not_lt.mp hle) hb
      rcases hu.eq_or_lt with rfl | hupos
      · rw [zero_add] at huv
        rw [huv] at hlevel
        linarith
      · nlinarith
    have hpos : 0 < cross d b - cross d a := by linarith
    have hside : 0 < cross a b := by
      rw [← hscale]
      exact mul_pos hs hpos
    refine ⟨?_, by rw [eq_div_iff hpos.ne', hscale]⟩
    rw [rayCrossing, if_pos ⟨hneg.le, hb', hside⟩]
    exact one_ne_zero
  · have hb' : cross d b < 0 := by
      by_contra hle
      have hlt : 0 < cross d b := lt_of_le_of_ne (not_lt.mp hle) hb.symm
      rcases hu.eq_or_lt with rfl | hupos
      · rw [zero_add] at huv
        rw [huv] at hlevel
        linarith
      · nlinarith
    have hneg : cross d b - cross d a < 0 := by linarith
    have hside : cross a b < 0 := by
      rw [← hscale]
      exact mul_neg_of_pos_of_neg hs hneg
    refine ⟨?_, by rw [eq_div_iff hneg.ne, hscale]⟩
    rw [rayCrossing, if_neg (fun hup => hup.1.not_gt hpos), if_pos ⟨hb'.le, hpos, hside⟩]
    exact neg_ne_zero.mpr one_ne_zero

namespace SimplePolygon

variable {n : ℕ} {p : ℕ → K × K}

/-- The edge from a vertex, as a vector. -/
def edge (p : ℕ → K × K) (i : ℕ) : K × K := p (i + 1) - p i

/-- The winding number just to the left of an edge. -/
def leftWinding (n : ℕ) (p : ℕ → K × K) (i : ℕ) : ℤ :=
  chainCrossing (edge p i) (p i) p (i + 1) (n - 2)

lemma edge_mem {i : ℕ} {s : K} (hs : 0 ≤ s) (hs' : s ≤ 1) :
    p i + s • edge p i ∈ segment K (p i) (p (i + 1)) := by
  rw [segment_eq_image']
  exact ⟨s, ⟨hs, hs'⟩, rfl⟩

variable (h : SimplePolygon n p)

include h

omit [IsStrictOrderedRing K] in
lemma edge_ne_zero (i : ℕ) : edge p i ≠ 0 := sub_ne_zero.mpr (h.ne_next i).symm

omit [IsStrictOrderedRing K] in
/-- A point of an edge but its end is on none of the following edges but the last. -/
lemma avoids_of_ne_end {i : ℕ} {x : K × K} (hx : x ∈ segment K (p i) (p (i + 1)))
    (hend : x ≠ p (i + 1)) : ChainAvoids x p (i + 1) (n - 2) := by
  have hn := h.three_le
  intro k hk hmem
  rcases h.meet i (i + 1 + k) (by omega) (by omega) x hx hmem with ⟨hj, hxj⟩ | ⟨hj, -⟩
  · obtain rfl : k = 0 := by omega
    exact hend hxj
  · omega

omit [IsStrictOrderedRing K] in
/-- A point inside an edge is on no other edge. -/
lemma avoids_of_inner {i : ℕ} {x : K × K} (hx : x ∈ segment K (p i) (p (i + 1)))
    (hstart : x ≠ p i) (hend : x ≠ p (i + 1)) : ChainAvoids x p (i + 1) (n - 1) := by
  have hn := h.three_le
  intro k hk hmem
  rcases h.meet i (i + 1 + k) (by omega) (by omega) x hx hmem with ⟨hj, hxj⟩ | ⟨hj, hxi⟩
  · obtain rfl : k = 0 := by omega
    exact hend hxj
  · exact hstart hxi

/-- Consecutive edges on one line have the same direction. -/
lemma exists_smul_edge {i : ℕ} (hzero : cross (edge p i) (edge p (i + 1)) = 0) :
    ∃ t : K, 0 < t ∧ edge p (i + 1) = t • edge p i := by
  have hn := h.three_le
  obtain ⟨t, ht⟩ := exists_smul_of_cross_eq_zero (h.edge_ne_zero i) hzero
  refine ⟨t, ?_, ht⟩
  by_contra hneg
  rw [not_lt] at hneg
  have htzero : t ≠ 0 := by
    rintro rfl
    exact h.edge_ne_zero (i + 1) (by rw [ht, zero_smul])
  have hlt : t < 0 := lt_of_le_of_ne hneg htzero
  have hmeet : ∀ x ∈ segment K (p i) (p (i + 1)), x ∈ segment K (p (i + 1)) (p (i + 1 + 1)) →
      x = p (i + 1) := by
    intro x hx hx'
    rcases h.meet i (i + 1) (by omega) (by omega) x hx hx' with ⟨-, hxj⟩ | ⟨hj, -⟩
    · exact hxj
    · omega
  have hback : p i = p (i + 1) - edge p i := by rw [edge, sub_sub_cancel]
  rcases le_or_gt t (-1) with hfar | hnear
  · -- the second edge comes back to the start of the first
    apply h.ne_next i
    apply hmeet _ (left_mem_segment K _ _)
    have hmem := edge_mem (p := p) (i := i + 1) (s := -t⁻¹) (by
      rw [neg_nonneg, inv_nonpos]
      exact hlt.le) (by
      rw [neg_le, ← inv_neg_one]
      exact (inv_le_inv_of_neg (neg_lt_zero.mpr one_pos) hlt).mpr hfar)
    rw [ht, smul_smul, neg_mul, inv_mul_cancel₀ htzero, neg_one_smul, ← sub_eq_add_neg,
      ← hback] at hmem
    exact hmem
  · apply h.ne_next (i + 1)
    symm
    apply hmeet _ _ (right_mem_segment K _ _)
    have hmem := edge_mem (p := p) (i := i) (s := 1 + t) (by linarith) (by linarith)
    rw [add_smul, one_smul, ← ht, ← add_assoc] at hmem
    simpa [edge] using hmem

/-- Turning into the next edge, the polygon keeps the same winding number on its left. -/
theorem leftWinding_succ (i : ℕ) : leftWinding n p i = leftWinding n p (i + 1) := by
  obtain ⟨m, rfl⟩ : ∃ m, n = m + 3 := ⟨n - 3, by have := h.three_le; omega⟩
  have hturned : cross (edge p i) (p (i + 1 + 1) - p i) = cross (edge p i) (edge p (i + 1)) := by
    have hsum : p (i + 1 + 1) - p i = edge p (i + 1) + edge p i := by simp [edge]
    rw [hsum, ← sub_neg_eq_add, cross_sub, ← neg_one_smul K, cross_smul, cross_self]
    ring
  have hbefore : p (i + 1 + 1 + m + 1) - p (i + 1) = -((1 : K) • edge p i) := by
    have hend : p (i + 1 + 1 + m + 1) = p i := by
      rw [← h.periodic i]
      congr 1
      omega
    rw [hend, one_smul, edge, neg_sub]
  -- the edge after the turn is crossed if it goes to the left
  have hleft : leftWinding (m + 3) p i = (if 0 < cross (edge p i) (edge p (i + 1)) then 1 else 0)
      + chainCrossing (edge p i) (p (i + 1)) p (i + 1 + 1) (m + 1) := by
    have hmoved := chainCrossing_move (d := edge p i) (q := p i) (i := i + 1 + 1) (m := m)
      (t := 1) zero_le_one (p := p) (by
        intro s hs hs' k hk hmem
        rcases h.meet i (i + 1 + 1 + k) (by omega) (by omega) _ (edge_mem hs hs') hmem with
          ⟨hj, -⟩ | ⟨hj, -⟩
        · omega
        · omega)
    have hend : p i + (1 : K) • edge p i = p (i + 1) := by simp [edge]
    rw [hend] at hmoved
    have hfirst : p (i + 1) - p i = (1 : K) • edge p i := by rw [one_smul, edge]
    rw [leftWinding, show m + 3 - 2 = m + 1 from rfl, chainCrossing_succ', ← hmoved, hfirst,
      rayCrossing_ahead one_pos, hturned, chainCrossing_succ, hbefore,
      rayCrossing_behind zero_le_one, add_zero]
  have hright : leftWinding (m + 3) p (i + 1)
      = chainCrossing (edge p (i + 1)) (p (i + 1)) p (i + 1 + 1) (m + 1) := rfl
  have havoids : ChainAvoids (p (i + 1)) p (i + 1 + 1) (m + 1) :=
    h.avoids_of_ne_end (left_mem_segment K _ _) (h.ne_next (i + 1))
  have hafter : p (i + 1 + 1) - p (i + 1) = edge p (i + 1) := rfl
  have hlast : p (i + 1 + 1 + (m + 1)) - p (i + 1) = -((1 : K) • edge p i) := hbefore
  have hflat : ∀ d : K × K, cross d (-((1 : K) • edge p i)) = -cross d (edge p i) := by
    intro d
    rw [one_smul, ← neg_one_smul K, cross_smul, neg_one_mul]
  rw [hleft, hright]
  rcases lt_trichotomy (cross (edge p i) (edge p (i + 1))) 0 with hneg | hzero | hpos
  · have hpos : 0 < cross (edge p (i + 1)) (edge p i) := by
      rw [cross_swap]
      linarith
    have hturn := chainCrossing_turn hpos havoids
    rw [hlast, hafter, sector, sector, hflat, hflat, cross_self, cross_self, if_neg, if_neg]
      at hturn
    · rw [if_neg hneg.not_gt]
      omega
    · simp
    · rintro ⟨hlt, -⟩
      linarith
  · obtain ⟨t, ht, hedge⟩ := h.exists_smul_edge hzero
    rw [if_neg hzero.not_gt, zero_add, hedge]
    exact (chainCrossing_congr fun k _ => rayCrossing_smul ht _ _ _).symm
  · have hturn := chainCrossing_turn hpos havoids
    rw [hlast, hafter, sector, sector, hflat, hflat, cross_self, cross_self, if_neg,
      if_pos ⟨hpos, le_rfl⟩] at hturn
    · rw [if_pos hpos]
      omega
    · simp

/-- The winding number is the same along the left of all edges. -/
theorem leftWinding_eq (i j : ℕ) : leftWinding n p i = leftWinding n p j := by
  have hfirst : ∀ i, leftWinding n p 0 = leftWinding n p i := by
    intro i
    induction i with
    | zero => rfl
    | succ i ih => rw [ih, h.leftWinding_succ]
  rw [← hfirst i, ← hfirst j]

/-- The ray along an edge from a point on it. -/
lemma chainCrossing_edge {i : ℕ} {s : K} (hs : 0 ≤ s) (hs' : s < 1) :
    chainCrossing (edge p i) (p i + s • edge p i) p (i + 1) (n - 1) = leftWinding n p i := by
  have hn := h.three_le
  have hend : ∀ r, r ≤ s → p i + r • edge p i ≠ p (i + 1) := by
    intro r hr heq
    have hzero : (r - 1) • edge p i = 0 := by
      rw [sub_smul, one_smul, sub_eq_zero]
      nth_rewrite 2 [edge]
      rw [← heq, add_sub_cancel_left]
    rcases smul_eq_zero.mp hzero with hr' | hedge
    · linarith
    · exact h.edge_ne_zero i hedge
  have hmoved := chainCrossing_move (d := edge p i) (q := p i) (i := i + 1) (m := n - 2) hs
    (p := p) fun r hr hrs => h.avoids_of_ne_end (edge_mem hr (by linarith)) (hend r hrs)
  have hlast : p (i + 1 + (n - 2) + 1) - (p i + s • edge p i) = -(s • edge p i) := by
    have hperiodic : p (i + 1 + (n - 2) + 1) = p i := by
      rw [← h.periodic i]
      congr 1
      omega
    rw [hperiodic, sub_add_cancel_left]
  rw [show n - 1 = n - 2 + 1 by omega, chainCrossing_succ, hlast, rayCrossing_behind hs, add_zero,
    hmoved]
  rfl

/-- The first edge that a ray meets, if it meets any: the winding number is that of one side of it. -/
lemma windingAlong_first {q d : K × K} (hq : OffBoundary n p q)
    (hd : ∀ i, cross d (p i - q) ≠ 0) : windingAlong d n p q = 0
      ∨ windingAlong d n p q = leftWinding n p 0 ∨ windingAlong d n p q = leftWinding n p 0 - 1 := by
  classical
  have hn := h.three_le
  let r : ℕ → ℤ := fun i => rayCrossing d (p i - q) (p (i + 1) - q)
  let f : ℕ → K := fun i =>
    cross (p i - q) (p (i + 1) - q) / (cross d (p (i + 1) - q) - cross d (p i - q))
  have hmod : ∀ i, r (i % n) = r i ∧ f (i % n) = f i := by
    intro i
    have hnext : p (i % n + 1) = p (i + 1) := by
      rw [← periodic_mod h.periodic, Nat.mod_add_mod, periodic_mod h.periodic]
    simp only [r, f, hnext, periodic_mod h.periodic, and_self]
  by_cases hnone : ∀ i ∈ Finset.range n, r i = 0
  · left
    rw [windingAlong, chainCrossing]
    apply Finset.sum_eq_zero
    intro i hi
    rw [Nat.zero_add]
    exact hnone i hi
  right
  push Not at hnone
  obtain ⟨j, hj, hleast⟩ := Finset.exists_min_image ((Finset.range n).filter fun i => r i ≠ 0) f
    (by
      obtain ⟨i, hi, hri⟩ := hnone
      exact ⟨i, Finset.mem_filter.mpr ⟨hi, hri⟩⟩)
  rw [Finset.mem_filter] at hj
  have hfirst : ∀ i, r i ≠ 0 → f j ≤ f i := by
    intro i hi
    have hle := hleast (i % n) (Finset.mem_filter.mpr
      ⟨Finset.mem_range.mpr (Nat.mod_lt _ (by omega)), by rw [(hmod i).1]; exact hi⟩)
    rwa [(hmod i).2] at hle
  obtain ⟨hfj, hmem⟩ := mem_of_rayCrossing_ne_zero hj.2
  rw [mem_segment_sub] at hmem
  change 0 < f j at hfj
  change q + f j • d ∈ segment K (p j) (p (j + 1)) at hmem
  have hlevel : ∀ i, q + f j • d ≠ p i := by
    intro i hi
    apply hd i
    rw [← hi, add_sub_cancel_left, cross_smul, cross_self, mul_zero]
  have havoids := h.avoids_of_inner hmem (hlevel j) (hlevel (j + 1))
  -- the other edges are crossed in the same way from the first point that is met
  have hothers : chainCrossing d q p (j + 1) (n - 1)
      = chainCrossing d (q + f j • d) p (j + 1) (n - 1) := by
    apply chainCrossing_congr
    intro k hk
    rw [← sub_sub, ← sub_sub]
    symm
    apply rayCrossing_move hfj.le
    intro s hs hsf hmeet
    rcases hs.eq_or_lt with rfl | hpos
    · rw [zero_smul, mem_segment_sub, add_zero] at hmeet
      exact hq.chain h.periodic (by omega) (j + 1) (n - 1) k hk hmeet
    · obtain ⟨hcrossed, hs'⟩ := rayCrossing_of_mem hpos hmeet (hd _) (hd _)
      have hle := hfirst (j + 1 + k) hcrossed
      obtain rfl : s = f j := le_antisymm hsf (hle.trans_eq hs'.symm)
      rw [mem_segment_sub] at hmeet
      exact havoids k hk hmeet
  have hwinding : windingAlong d n p q = r j + chainCrossing d (q + f j • d) p (j + 1) (n - 1) := by
    rw [← hothers, windingAlong, ← chainCrossing_start h.periodic d q j,
      ← chainCrossing_succ', Nat.sub_add_cancel (by omega)]
  rw [segment_eq_image'] at hmem
  obtain ⟨s, ⟨hs, hs'⟩, hpoint⟩ := hmem
  change p j + s • edge p j = _ at hpoint
  have hstart : 0 < s := by
    apply lt_of_le_of_ne hs
    rintro rfl
    apply hlevel j
    rw [← hpoint, zero_smul, add_zero]
  have hend : s < 1 := by
    apply lt_of_le_of_ne hs'
    rintro rfl
    apply hlevel (j + 1)
    rw [← hpoint, one_smul, edge, add_sub_cancel]
  have hedge := h.chainCrossing_edge (i := j) hs hend
  rw [h.leftWinding_eq j 0] at hedge
  rw [← hpoint] at hwinding havoids
  have hback : p (j + 1 + (n - 1)) - (p j + s • edge p j) = -(s • edge p j) := by
    rw [Nat.add_assoc, Nat.add_sub_cancel' (by omega), h.periodic, sub_add_cancel_left]
  have hahead : p (j + 1) - (p j + s • edge p j) = (1 - s) • edge p j := by
    rw [sub_smul, one_smul, ← sub_sub, edge]
  have hcross : cross d (edge p j) = cross d (p (j + 1) - q) - cross d (p j - q) := by
    rw [← cross_sub, sub_sub_sub_cancel_right, edge]
  have hsectors : ∀ u v : K × K, sector u v (-(s • edge p j)) =
      (if 0 < cross u (edge p j) * -s ∧ cross v (edge p j) * -s ≤ 0 then 1 else 0)
      ∧ sector u v ((1 - s) • edge p j) =
      (if 0 < cross u (edge p j) * (1 - s) ∧ cross v (edge p j) * (1 - s) ≤ 0 then 1 else 0) := by
    intro u v
    rw [sector, sector, ← neg_smul, cross_smul, cross_smul, cross_smul, cross_smul, mul_comm (-s),
      mul_comm (-s), mul_comm (1 - s), mul_comm (1 - s)]
    exact ⟨rfl, rfl⟩
  have hone : 0 < 1 - s := by linarith
  have hrj := hj.2
  simp only [r, rayCrossing] at hrj hwinding
  split_ifs at hrj hwinding with hup hdown
  · left
    obtain ⟨ha, hb, -⟩ := hup
    have hpos : 0 < cross d (edge p j) := by linarith
    have hturn := chainCrossing_turn hpos havoids
    rw [hback, hahead, (hsectors _ _).1, (hsectors _ _).2, cross_self, if_neg, if_pos, hedge]
      at hturn
    · omega
    · exact ⟨mul_pos hpos hone, by rw [zero_mul]⟩
    · rintro ⟨hlt, -⟩
      have := mul_pos hpos hstart
      linarith
  · right
    obtain ⟨hb, ha, -⟩ := hdown
    have hpos : 0 < cross (edge p j) d := by
      rw [cross_swap]
      linarith
    have hturn := chainCrossing_turn hpos havoids
    rw [hback, hahead, (hsectors _ _).1, (hsectors _ _).2, cross_self, if_neg (by simp),
      if_neg (by simp), hedge] at hturn
    omega
  · exact absurd rfl hrj

/-- The vertices are different points. -/
lemma ne_of_lt {i j : ℕ} (hij : i < j) (hj : j < i + n) : p i ≠ p j := by
  intro hsame
  have hmem : p i ∈ segment K (p j) (p (j + 1)) := hsame ▸ left_mem_segment K _ _
  rcases h.meet i j hij hj _ (left_mem_segment K _ _) hmem with ⟨rfl, -⟩ | ⟨hlast, -⟩
  · exact h.ne_next i hsame
  · apply h.ne_next j
    rw [hlast, h.periodic, hsame]

/-- The polygon has no points to the left of its edges, or winds once about them. -/
theorem leftWinding_zero_or_one : leftWinding n p 0 = 0 ∨ leftWinding n p 0 = 1 := by
  classical
  have hn := h.three_le
  -- a direction for which one vertex is lowest
  obtain ⟨e, he⟩ := exists_direction
    ((Finset.range n ×ˢ Finset.range n).filter fun ij => ij.1 < ij.2)
    (fun ij => p ij.2 - p ij.1) (by
      intro ij hij
      rw [Finset.mem_filter, Finset.mem_product, Finset.mem_range, Finset.mem_range] at hij
      exact sub_ne_zero.mpr (h.ne_of_lt hij.2 (by omega)).symm)
  obtain ⟨i, hi, hlowest⟩ := Finset.exists_min_image (Finset.range n) (fun i => cross e (p i))
    ⟨0, Finset.mem_range.mpr (by omega)⟩
  rw [Finset.mem_range] at hi
  have habove : ∀ j, i < j → j < i + n → 0 < cross e (p j - p i) := by
    intro j hij hj
    have hmod : p (j % n) = p j := periodic_mod h.periodic j
    have hjn : j % n < n := Nat.mod_lt _ (by omega)
    have hle := hlowest (j % n) (Finset.mem_range.mpr hjn)
    have hne : j % n ≠ i := by
      intro hsame
      apply h.ne_of_lt hij hj
      rw [← hmod, hsame]
    rw [← hmod, cross_sub]
    apply lt_of_le_of_ne (sub_nonneg.mpr hle)
    intro hzero
    rcases Nat.lt_or_gt_of_ne hne with hlt | hgt
    · apply he (j % n, i) (by simp [hlt, hi, hjn])
      rw [cross_sub]
      linarith
    · apply he (i, j % n) (by simp [hgt, hi, hjn])
      rw [cross_sub]
      exact hzero.symm
  have hnone : chainCrossing e (p i) p (i + 1) (n - 2) = 0 := by
    apply Finset.sum_eq_zero
    intro k hk
    rw [Finset.mem_range] at hk
    have h1 := habove (i + 1 + k) (by omega) (by omega)
    have h2 := habove (i + 1 + k + 1) (by omega) (by omega)
    rw [rayCrossing, if_neg (fun hup => hup.1.not_gt h1), if_neg (fun hdown => hdown.1.not_gt h2)]
  have hedge : 0 < cross e (edge p i) := habove (i + 1) (by omega) (by omega)
  have hturn := chainCrossing_turn hedge
    (h.avoids_of_ne_end (left_mem_segment K (p i) (p (i + 1))) (h.ne_next i))
  have hsector : sector e (edge p i) (p (i + 1) - p i) = 1 :=
    if_pos ⟨hedge, by rw [← edge, cross_self]⟩
  rw [hnone, hsector] at hturn
  rw [← h.leftWinding_eq i 0, leftWinding]
  rw [sector] at hturn
  split_ifs at hturn
  · left
    omega
  · right
    omega

/-- The vertices of a simple polygon are not all on one line. -/
lemma exists_off_line {d q : K × K} (hd : d ≠ 0) : ∃ i, cross d (p i - q) ≠ 0 := by
  by_contra hall
  push Not at hall
  have hline : ∀ i, cross (edge p i) (edge p (i + 1)) = 0 := by
    intro i
    have hpart : ∀ i, cross d (edge p i) = 0 := by
      intro i
      have hdiff : edge p i = p (i + 1) - q - (p i - q) := by
        rw [edge, sub_sub_sub_cancel_right]
      rw [hdiff, cross_sub, hall, hall, sub_zero]
    obtain ⟨s, hs⟩ := exists_smul_of_cross_eq_zero hd (hpart i)
    rw [hs, smul_cross, hpart, mul_zero]
  -- all edges have the direction of the first, so that the polygon does not close
  have hscale : ∀ i, ∃ t : K, 0 < t ∧ edge p i = t • edge p 0 := by
    intro i
    induction i with
    | zero => exact ⟨1, one_pos, (one_smul K _).symm⟩
    | succ i ih =>
      obtain ⟨t, ht, hi⟩ := ih
      obtain ⟨u, hu, hi'⟩ := h.exists_smul_edge (hline i)
      exact ⟨u * t, mul_pos hu ht, by rw [hi', hi, smul_smul]⟩
  choose t ht hedge using hscale
  have hsum : ∑ i ∈ Finset.range n, edge p i = 0 := by
    have htelescope : ∑ i ∈ Finset.range n, edge p i = p n - p 0 := Finset.sum_range_sub p n
    rw [htelescope, ← h.periodic 0, Nat.zero_add, sub_self]
  have hpos : 0 < ∑ i ∈ Finset.range n, t i := by
    apply Finset.sum_pos fun i _ => ht i
    exact ⟨0, Finset.mem_range.mpr (by have := h.three_le; omega)⟩
  rw [Finset.sum_congr rfl fun i _ => hedge i, ← Finset.sum_smul, smul_eq_zero] at hsum
  exact hsum.elim hpos.ne' (h.edge_ne_zero 0)

/-- A simple polygon winds at most once about a point. -/
theorem windingNumber_cases {q : K × K} (hq : OffBoundary n p q) : windingNumber n p q = 0
    ∨ windingNumber n p q = leftWinding n p 0 ∨ windingNumber n p q = leftWinding n p 0 - 1 := by
  have hn := h.three_le
  have hne : ∀ i, p i - q ≠ 0 := by
    intro i hzero
    rw [sub_eq_zero] at hzero
    apply hq.chain h.periodic (by omega) i 1 0 one_pos
    rw [← hzero]
    exact left_mem_segment K _ _
  obtain ⟨d, hd⟩ := exists_direction (Finset.range n) (fun i => p i - q) fun i _ => hne i
  have hall : ∀ i, cross d (p i - q) ≠ 0 := by
    intro i
    rw [← periodic_mod h.periodic i]
    exact hd (i % n) (Finset.mem_range.mpr (Nat.mod_lt _ (by omega)))
  have hzero : d ≠ 0 := by
    rintro rfl
    exact hall 0 (by simp [cross])
  rw [windingNumber, windingAlong_eq h.periodic hq (by simp) hzero]
  exact h.windingAlong_first hq hall

/-- A point is inside a simple polygon when an odd number of edges cross a ray from it. -/
theorem inside_iff_odd {q d : K × K} (hq : OffBoundary n p q) (hd : d ≠ 0) : Inside n p q ↔
    Odd ((Finset.range n).filter fun i => rayCrossing d (p i - q) (p (i + 1) - q) ≠ 0).card := by
  have hparity : Odd (windingNumber n p q) ↔ Odd ((Finset.range n).filter fun i =>
      rayCrossing d (p i - q) (p (i + 1) - q) ≠ 0).card := by
    rw [windingNumber, windingAlong_eq h.periodic hq (by simp) hd, windingAlong,
      odd_chainCrossing_iff]
    simp only [Nat.zero_add]
  rw [← hparity, Inside]
  have hcases := h.windingNumber_cases hq
  have hleft := h.leftWinding_zero_or_one
  have hall : windingNumber n p q = 0 ∨ windingNumber n p q = 1 ∨ windingNumber n p q = -1 := by
    omega
  rcases hall with hw | hw | hw <;> simp [hw]

end SimplePolygon

/-! A test for simple polygons. -/

section Test

variable {a b c d x : K × K}

/-- Two edges at a vertex do not run back on each other. -/
def Bends (a b c : K × K) : Prop :=
  orient a b c ≠ 0 ∨ (a.1 - b.1) * (c.1 - b.1) + (a.2 - b.2) * (c.2 - b.2) < 0

/-- One of two edges has both ends on one side of the other. -/
def Apart (a b c d : K × K) : Prop :=
  0 < orient a b c * orient a b d ∨ 0 < orient c d a * orient c d b

instance (a b c : K × K) : Decidable (Bends a b c) := inferInstanceAs (Decidable (_ ∨ _))

instance (a b c d : K × K) : Decidable (Apart a b c d) := inferInstanceAs (Decidable (_ ∨ _))

omit [LinearOrder K] [IsStrictOrderedRing K] in
lemma orient_combine (a b c d : K × K) {u v : K} (huv : u + v = 1) :
    orient a b (u • c + v • d) = u * orient a b c + v * orient a b d := by
  obtain rfl : u = 1 - v := by rw [← huv]; ring
  simp only [orient, Prod.fst_add, Prod.snd_add, Prod.smul_fst, Prod.smul_snd, smul_eq_mul]
  ring

omit [IsStrictOrderedRing K] in
lemma orient_eq_zero_of_mem (hx : x ∈ segment K a b) : orient a b x = 0 := by
  obtain ⟨u, v, -, -, huv, rfl⟩ := hx
  rw [orient_combine _ _ _ _ huv]
  simp only [orient]
  ring

lemma notMem_of_same_side (h : 0 < orient a b c * orient a b d) (hx : x ∈ segment K a b) :
    x ∉ segment K c d := by
  rintro ⟨u, v, hu, hv, huv, rfl⟩
  have hzero := orient_eq_zero_of_mem hx
  rw [orient_combine _ _ _ _ huv] at hzero
  rcases pos_and_pos_or_neg_and_neg_of_mul_pos h with ⟨hc, hd⟩ | ⟨hc, hd⟩
  · rcases hu.eq_or_lt with rfl | hu
    · rw [zero_add] at huv
      subst huv
      linarith
    · have := mul_pos hu hc
      have := mul_nonneg hv hd.le
      linarith
  · rcases hu.eq_or_lt with rfl | hu
    · rw [zero_add] at huv
      subst huv
      linarith
    · have := mul_neg_of_pos_of_neg hu hc
      have := mul_nonpos_of_nonneg_of_nonpos hv hd.le
      linarith

lemma Apart.notMem (h : Apart a b c d) (hx : x ∈ segment K a b) : x ∉ segment K c d := by
  rcases h with hside | hside
  · exact notMem_of_same_side hside hx
  · exact fun hx' => notMem_of_same_side hside hx' hx

lemma Bends.eq_of_mem (h : Bends a b c) (hx : x ∈ segment K a b) (hx' : x ∈ segment K b c) :
    x = b := by
  rw [segment_symm, segment_eq_image'] at hx
  rw [segment_eq_image'] at hx'
  obtain ⟨s, ⟨hs, -⟩, rfl⟩ := hx
  obtain ⟨t, ⟨ht, -⟩, hst⟩ := hx'
  dsimp only at hst
  rw [add_right_inj] at hst
  have h1 : t * (c.1 - b.1) = s * (a.1 - b.1) := congrArg Prod.fst hst
  have h2 : t * (c.2 - b.2) = s * (a.2 - b.2) := congrArg Prod.snd hst
  suffices hzero : s = 0 by
    show b + s • (a - b) = b
    rw [hzero, zero_smul, add_zero]
  by_contra hne
  have hpos : 0 < s := lt_of_le_of_ne hs (Ne.symm hne)
  rcases h with hturn | hback
  · apply hturn
    have hscaled : s * orient a b c = 0 := by
      simp only [orient]
      linear_combination (c.2 - b.2) * h1 - (c.1 - b.1) * h2
    exact (mul_eq_zero.mp hscaled).resolve_left hne
  · have hscaled : s * ((a.1 - b.1) * (c.1 - b.1) + (a.2 - b.2) * (c.2 - b.2))
        = t * ((c.1 - b.1) * (c.1 - b.1) + (c.2 - b.2) * (c.2 - b.2)) := by
      linear_combination -(c.1 - b.1) * h1 - (c.2 - b.2) * h2
    have := mul_neg_of_pos_of_neg hpos hback
    have := mul_nonneg ht (add_nonneg (mul_self_nonneg (c.1 - b.1)) (mul_self_nonneg (c.2 - b.2)))
    linarith

/-- A polygon is simple if its edges pass the test in pairs. -/
theorem simplePolygon_of_test {n : ℕ} {p : ℕ → K × K} (hn : 3 ≤ n) (hp : ∀ i, p (i + n) = p i)
    (hne : ∀ i < n, p i ≠ p (i + 1)) (hbends : ∀ i < n, Bends (p i) (p (i + 1)) (p (i + 1 + 1)))
    (hapart : ∀ i < n, ∀ k < n, 2 ≤ k → k ≤ n - 2 →
      Apart (p i) (p (i + 1)) (p (i + k)) (p (i + k + 1))) : SimplePolygon n p := by
  have hmod : ∀ i k, p (i % n + k) = p (i + k) := by
    intro i k
    rw [← periodic_mod hp, Nat.mod_add_mod, periodic_mod hp]
  have hlt : ∀ i, i % n < n := fun i => Nat.mod_lt _ (by omega)
  refine ⟨hn, hp, fun i => ?_, fun i j hij hj x hx hx' => ?_⟩
  · have hi := hne (i % n) (hlt i)
    rwa [hmod, ← Nat.add_zero (i % n), hmod] at hi
  · rcases Nat.lt_or_ge (i + 1) j with hgap | hnext
    · rcases Nat.lt_or_ge (j + 1) (i + n) with hfar | hlast
      · have hi := hapart (i % n) (hlt i) (j - i) (by omega) (by omega) (by omega)
        rw [Nat.add_assoc _ (j - i), hmod, hmod, hmod, ← Nat.add_zero (i % n), hmod,
          ← Nat.add_assoc, Nat.add_sub_cancel' hij.le] at hi
        exact absurd hx' (hi.notMem hx)
      · right
        have hlast' : j + 1 = i + n := by omega
        refine ⟨hlast', ?_⟩
        have hi := hbends (j % n) (hlt j)
        rw [Nat.add_assoc, hmod, hmod, ← Nat.add_zero (j % n), hmod, ← Nat.add_assoc, hlast', hp,
          Nat.add_right_comm, hp, Nat.add_zero] at hi
        rw [hlast', hp] at hx'
        exact hi.eq_of_mem hx' hx
    · left
      obtain rfl : j = i + 1 := by omega
      refine ⟨rfl, ?_⟩
      have hi := hbends (i % n) (hlt i)
      rw [Nat.add_assoc, hmod, hmod, ← Nat.add_zero (i % n), hmod] at hi
      exact hi.eq_of_mem hx hx'

end Test

end PolygonWinding
