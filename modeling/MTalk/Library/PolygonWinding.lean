import MTalk.Library.PlaneGeometry

/-!
# Winding numbers of polygons

The winding number of a closed polygon about a point, as the signed number of its edges that cross a
ray from the point. Points on the line of the ray count as lying to its right, so that no edge needs
to be in general position. The number does not depend on the ray.
-/

namespace PolygonWinding

open PlaneGeometry

variable {K : Type*} [Field K]

/-! Products of plane vectors. -/

lemma cross_self (a : K × K) : cross a a = 0 := by
  simp only [cross]
  ring

lemma cross_swap (a b : K × K) : cross b a = -cross a b := by
  simp only [cross]
  ring

lemma cross_sub (d a b : K × K) : cross d (a - b) = cross d a - cross d b := by
  simp only [cross, Prod.fst_sub, Prod.snd_sub]
  ring

lemma cross_smul (d a : K × K) (t : K) : cross d (t • a) = t * cross d a := by
  simp only [cross, Prod.smul_fst, Prod.smul_snd, smul_eq_mul]
  ring

lemma smul_cross (d a : K × K) (t : K) : cross (t • d) a = t * cross d a := by
  simp only [cross, Prod.smul_fst, Prod.smul_snd, smul_eq_mul]
  ring

lemma cross_mul_cross (d e a b : K × K) :
    cross d e * cross a b = cross d a * cross e b - cross d b * cross e a := by
  simp only [cross]
  ring

/-- Where a line through the origin meets the line of two points. -/
lemma cross_smul_sub (d a b : K × K) : cross d b • a - cross d a • b = cross a b • d := by
  ext
  · simp only [cross, Prod.fst_sub, Prod.smul_fst, smul_eq_mul]
    ring
  · simp only [cross, Prod.snd_sub, Prod.smul_snd, smul_eq_mul]
    ring

lemma orient_eq_cross (a b q : K × K) : orient a b q = cross (a - q) (b - q) := by
  simp only [orient, cross, Prod.fst_sub, Prod.snd_sub]
  ring

variable [LinearOrder K]

/-- How an edge crosses the ray from the origin in a direction: `1` from right to left, `-1` from
left to right. -/
def rayCrossing (d a b : K × K) : ℤ :=
  if cross d a ≤ 0 ∧ 0 < cross d b ∧ 0 < cross a b then 1
  else if cross d b ≤ 0 ∧ 0 < cross d a ∧ cross a b < 0 then -1
  else 0

/-- The other way an edge crosses in the other direction. -/
lemma rayCrossing_swap (d a b : K × K) [IsStrictOrderedRing K] :
    rayCrossing d b a = -rayCrossing d a b := by
  unfold rayCrossing
  simp only [cross_swap a b, neg_lt_zero, neg_pos]
  split_ifs with hdown hup hup
  · exact absurd hup.2.1 hdown.1.not_gt
  · rfl
  · rfl
  · rfl

/-- Whether a point is in the sector from one direction to another one to its left. -/
def sector (d e a : K × K) : ℤ := if 0 < cross d a ∧ cross e a ≤ 0 then 1 else 0

variable [IsStrictOrderedRing K]

/-- Factors of the smaller of two products that agree in sign make those of the larger agree. -/
lemma signs_of_mul_lt {x y u v : K} (h : x * y < u * v) :
    (0 < u ↔ 0 < v) ∨ ¬ (0 < x ↔ 0 < y) := by
  by_contra hsigns
  push Not at hsigns
  obtain ⟨huv, hxy⟩ := hsigns
  have huv' : u * v ≤ 0 := by
    rcases le_or_gt u 0 with hu | hu <;> rcases le_or_gt v 0 with hv | hv
    · simp [hu.not_gt, hv.not_gt] at huv
    · exact mul_nonpos_of_nonpos_of_nonneg hu hv.le
    · exact mul_nonpos_of_nonneg_of_nonpos hu.le hv
    · simp [hu, hv, hu.not_ge, hv.not_ge] at huv
  have hxy' : 0 ≤ x * y := by
    rcases le_or_gt x 0 with hx | hx <;> rcases le_or_gt y 0 with hy | hy
    · exact mul_nonneg_of_nonpos_of_nonpos hx hy
    · simp [hx.not_gt, hy] at hxy
    · simp [hx, hy.not_gt] at hxy
    · exact (mul_pos hx hy).le
  linarith

section OneEdge

variable {d e a b : K × K}

/-- The crossing point of an edge and a ray. -/
lemma crossing_mem_segment (ha : cross d a ≤ 0) (hb : 0 ≤ cross d b)
    (hab : cross d a < cross d b) :
    (cross a b / (cross d b - cross d a)) • d ∈ segment K a b := by
  have hpos : 0 < cross d b - cross d a := sub_pos.mpr hab
  refine ⟨cross d b / (cross d b - cross d a), -cross d a / (cross d b - cross d a),
    div_nonneg hb hpos.le, div_nonneg (by linarith) hpos.le, ?_, ?_⟩
  · rw [← add_div, ← sub_eq_add_neg]
    exact div_self hpos.ne'
  · rw [div_eq_inv_mul, div_eq_inv_mul, div_eq_inv_mul, mul_smul, mul_smul, mul_smul, ← smul_add,
      neg_smul, ← sub_eq_add_neg, cross_smul_sub]

/-- Both ends of an edge on a line through the origin are on one side of it, unless the edge has the
origin on it. -/
lemma same_side_of_cross_eq_zero (h : (0 : K × K) ∉ segment K a b) (hab : cross a b = 0)
    (d : K × K) : 0 < cross d a ↔ 0 < cross d b := by
  have hdir : ∀ {a b : K × K}, (0 : K × K) ∉ segment K a b → cross a b = 0 →
      0 < cross d b → 0 < cross d a := by
    intro a b h hab hb
    by_contra ha
    rw [not_lt] at ha
    have hmem := crossing_mem_segment ha hb.le (ha.trans_lt hb)
    rw [hab, zero_div, zero_smul] at hmem
    exact h hmem
  refine ⟨?_, hdir h hab⟩
  rw [segment_symm] at h
  exact hdir h (by rw [cross_swap, hab, neg_zero])

/-- Turning the ray changes the crossing of an edge by what its ends contribute. -/
theorem rayCrossing_turn (hde : 0 < cross d e) (h : (0 : K × K) ∉ segment K a b) :
    rayCrossing d a b - rayCrossing e a b = sector d e b - sector d e a := by
  have hprod := cross_mul_cross d e a b
  rcases lt_trichotomy (cross a b) 0 with hneg | hzero | hpos
  · have hsigns : (0 < cross d b ↔ 0 < cross e a) ∨ ¬ (0 < cross d a ↔ 0 < cross e b) := by
      apply signs_of_mul_lt
      have := mul_neg_of_pos_of_neg hde hneg
      linarith
    simp only [rayCrossing, sector, hneg, hneg.not_gt, ← not_lt]
    by_cases ha : 0 < cross d a <;> by_cases hb : 0 < cross d b <;>
      by_cases ha' : 0 < cross e a <;> by_cases hb' : 0 < cross e b <;>
      simp [ha, hb, ha', hb'] at hsigns ⊢
  · have hd := same_side_of_cross_eq_zero h hzero d
    have he := same_side_of_cross_eq_zero h hzero e
    have hnot : ∀ f : K × K, rayCrossing f a b = 0 := by
      intro f
      simp [rayCrossing, hzero]
    simp only [hnot, sector, hd, ← not_lt, he, sub_self]
  · have hsigns : (0 < cross d a ↔ 0 < cross e b) ∨ ¬ (0 < cross d b ↔ 0 < cross e a) := by
      apply signs_of_mul_lt
      have := mul_pos hde hpos
      linarith
    simp only [rayCrossing, sector, hpos, hpos.not_gt, ← not_lt]
    by_cases ha : 0 < cross d a <;> by_cases hb : 0 < cross d b <;>
      by_cases ha' : 0 < cross e a <;> by_cases hb' : 0 < cross e b <;>
      simp [ha, hb, ha', hb'] at hsigns ⊢

/-- Rays of one direction are crossed in the same way. -/
lemma rayCrossing_smul {t : K} (ht : 0 < t) (d a b : K × K) :
    rayCrossing (t • d) a b = rayCrossing d a b := by
  simp only [rayCrossing, smul_cross, mul_pos_iff_of_pos_left ht, ← not_lt]

/-- Moving the beginning of the ray along it changes nothing while it does not meet the edge. -/
theorem rayCrossing_move {t : K} (ht : 0 ≤ t)
    (h : ∀ s, 0 ≤ s → s ≤ t → s • d ∉ segment K a b) :
    rayCrossing d (a - t • d) (b - t • d) = rayCrossing d a b := by
  have hcross : ∀ v : K × K, cross d (v - t • d) = cross d v := by
    intro v
    rw [cross_sub, cross_smul, cross_self, mul_zero, sub_zero]
  have hmoved : cross (a - t • d) (b - t • d) = cross a b - t * (cross d b - cross d a) := by
    simp only [cross, Prod.fst_sub, Prod.snd_sub, Prod.smul_fst, Prod.smul_snd, smul_eq_mul]
    ring
  have hfar : ∀ {a b : K × K}, (∀ s, 0 ≤ s → s ≤ t → s • d ∉ segment K a b) →
      cross d a ≤ 0 → 0 < cross d b → 0 < cross a b → t * (cross d b - cross d a) < cross a b := by
    intro a b h ha hb hab
    by_contra hle
    rw [not_lt] at hle
    have hpos : 0 < cross d b - cross d a := by linarith
    apply h _ (div_nonneg hab.le hpos.le) ((div_le_iff₀ hpos).mpr hle)
    exact crossing_mem_segment ha hb.le (ha.trans_lt hb)
  simp only [rayCrossing, hcross, hmoved]
  have hup : cross d a ≤ 0 → 0 < cross d b →
      (0 < cross a b - t * (cross d b - cross d a) ↔ 0 < cross a b) := by
    intro ha hb
    constructor
    · intro hlt
      have := mul_nonneg ht (by linarith : 0 ≤ cross d b - cross d a)
      linarith
    · intro hab
      have := hfar h ha hb hab
      linarith
  have hdown : cross d b ≤ 0 → 0 < cross d a →
      (cross a b - t * (cross d b - cross d a) < 0 ↔ cross a b < 0) := by
    intro hb ha
    constructor
    · intro hlt
      have := mul_nonneg ht (by linarith : 0 ≤ cross d a - cross d b)
      linarith
    · intro hab
      have hswap : 0 < cross b a := by rw [cross_swap]; linarith
      have := hfar (fun s hs hst => by rw [segment_symm]; exact h s hs hst) hb ha hswap
      rw [cross_swap a b] at this
      linarith
  by_cases ha : cross d a ≤ 0 <;> by_cases hb : cross d b ≤ 0
  · simp [ha, hb, ha.not_gt, hb.not_gt]
  · simp [ha, ha.not_gt, not_le.mp hb, hup ha (not_le.mp hb)]
  · simp [hb, hb.not_gt, not_le.mp ha, hdown hb (not_le.mp ha)]
  · simp [ha, hb]

end OneEdge

/-! Chains of edges. -/

section Chains

variable {p : ℕ → K × K}

/-- The crossings of a ray by consecutive edges. -/
def chainCrossing (d q : K × K) (p : ℕ → K × K) (i m : ℕ) : ℤ :=
  ∑ k ∈ Finset.range m, rayCrossing d (p (i + k) - q) (p (i + k + 1) - q)

/-- No edge of a chain has a point on it. -/
def ChainAvoids (q : K × K) (p : ℕ → K × K) (i m : ℕ) : Prop :=
  ∀ k < m, q ∉ segment K (p (i + k)) (p (i + k + 1))

omit [IsStrictOrderedRing K] in
lemma chainCrossing_succ (d q : K × K) (p : ℕ → K × K) (i m : ℕ) :
    chainCrossing d q p i (m + 1) = chainCrossing d q p i m
      + rayCrossing d (p (i + m) - q) (p (i + m + 1) - q) := Finset.sum_range_succ _ _

omit [IsStrictOrderedRing K] in
lemma chainCrossing_succ' (d q : K × K) (p : ℕ → K × K) (i m : ℕ) :
    chainCrossing d q p i (m + 1) = rayCrossing d (p i - q) (p (i + 1) - q)
      + chainCrossing d q p (i + 1) m := by
  rw [chainCrossing, Finset.sum_range_succ', add_comm]
  congr 1
  apply Finset.sum_congr rfl
  intro k _
  have hk : i + 1 + k = i + (k + 1) := by omega
  rw [hk]

lemma mem_segment_sub {q v a b : K × K} :
    v ∈ segment K (a - q) (b - q) ↔ q + v ∈ segment K a b := by
  rw [← mem_segment_translate K q, add_sub_cancel, add_sub_cancel]

/-- Turning the ray changes the crossings of a chain by what its ends contribute. -/
lemma chainCrossing_turn {d e q : K × K} {i m : ℕ} (hde : 0 < cross d e)
    (h : ChainAvoids q p i m) :
    chainCrossing d q p i m - chainCrossing e q p i m
      = sector d e (p (i + m) - q) - sector d e (p i - q) := by
  induction m with
  | zero => simp [chainCrossing]
  | succ m ih =>
    have hrest := ih fun k hk => h k (by omega)
    have hlast := rayCrossing_turn hde (a := p (i + m) - q) (b := p (i + m + 1) - q) (by
      rw [mem_segment_sub, add_zero]
      exact h m (by omega))
    rw [chainCrossing_succ, chainCrossing_succ, ← Nat.add_assoc]
    linarith

omit [IsStrictOrderedRing K] in
lemma chainCrossing_congr {d e q r : K × K} {i m : ℕ}
    (h : ∀ k < m, rayCrossing d (p (i + k) - q) (p (i + k + 1) - q)
      = rayCrossing e (p (i + k) - r) (p (i + k + 1) - r)) :
    chainCrossing d q p i m = chainCrossing e r p i m :=
  Finset.sum_congr rfl fun k hk => h k (Finset.mem_range.mp hk)

omit [IsStrictOrderedRing K] in
/-- The parity of the signed crossings is that of the edges that cross. -/
lemma odd_chainCrossing_iff (d q : K × K) (p : ℕ → K × K) (i m : ℕ) :
    Odd (chainCrossing d q p i m) ↔ Odd ((Finset.range m).filter fun k =>
      rayCrossing d (p (i + k) - q) (p (i + k + 1) - q) ≠ 0).card := by
  induction m with
  | zero => simp [chainCrossing]
  | succ m ih =>
    have hone : ∀ r, r = rayCrossing d (p (i + m) - q) (p (i + m + 1) - q) →
        (Odd r ↔ r ≠ 0) := by
      intro r hr
      rw [rayCrossing] at hr
      split_ifs at hr <;> subst hr <;> decide
    rw [chainCrossing_succ, Finset.range_add_one, Finset.filter_insert, Int.odd_add, ih,
      ← Int.not_odd_iff_even, hone _ rfl]
    split_ifs with hcrossed
    · rw [Finset.card_insert_of_notMem (by simp), Nat.odd_add_one]
      tauto
    · tauto

/-- Moving the beginning of the ray along it, past no edge of the chain. -/
lemma chainCrossing_move {d q : K × K} {t : K} {i m : ℕ} (ht : 0 ≤ t)
    (h : ∀ s, 0 ≤ s → s ≤ t → ChainAvoids (q + s • d) p i m) :
    chainCrossing d (q + t • d) p i m = chainCrossing d q p i m := by
  apply chainCrossing_congr
  intro k hk
  rw [← sub_sub, ← sub_sub]
  apply rayCrossing_move ht
  intro s hs hst hmem
  rw [mem_segment_sub] at hmem
  exact h s hs hst k hk hmem

end Chains

/-! Closed polygons. -/

/-- The point is on no edge. -/
def OffBoundary (n : ℕ) (p : ℕ → K × K) (q : K × K) : Prop := ChainAvoids q p 0 n

/-- How often a polygon winds about a point, counted along a ray. -/
def windingAlong (d : K × K) (n : ℕ) (p : ℕ → K × K) (q : K × K) : ℤ := chainCrossing d q p 0 n

/-- The winding number, counted along the ray to the right. -/
def windingNumber (n : ℕ) (p : ℕ → K × K) (q : K × K) : ℤ := windingAlong (1, 0) n p q

/-- The point is in the interior of the polygon. -/
def Inside (n : ℕ) (p : ℕ → K × K) (q : K × K) : Prop := windingNumber n p q ≠ 0

section Periodic

variable {n : ℕ} {p : ℕ → K × K} (hp : ∀ i, p (i + n) = p i)

include hp

omit [Field K] [LinearOrder K] [IsStrictOrderedRing K] in
lemma periodic_mul (i k : ℕ) : p (i + n * k) = p i := by
  induction k with
  | zero => rfl
  | succ k ih => rw [Nat.mul_succ, ← Nat.add_assoc, hp, ih]

omit [Field K] [LinearOrder K] [IsStrictOrderedRing K] in
lemma periodic_mod (i : ℕ) : p (i % n) = p i := by
  rw [← periodic_mul hp (i % n) (i / n), Nat.mod_add_div]

omit [IsStrictOrderedRing K] in
/-- The edges of a closed polygon may be counted from any vertex. -/
lemma chainCrossing_start (d q : K × K) (i : ℕ) :
    chainCrossing d q p i n = chainCrossing d q p 0 n := by
  induction i with
  | zero => rfl
  | succ i ih =>
    rw [← ih]
    have hleft := chainCrossing_succ d q p i n
    have hright := chainCrossing_succ' d q p i n
    rw [Nat.add_right_comm, hp, hp] at hleft
    linarith

omit [IsStrictOrderedRing K] in
lemma OffBoundary.chain {q : K × K} (hq : OffBoundary n p q) (hn : 0 < n) (i m : ℕ) :
    ChainAvoids q p i m := by
  intro k _ hmem
  apply hq ((i + k) % n) (Nat.mod_lt _ hn)
  rw [Nat.zero_add, periodic_mod hp]
  have hnext : p ((i + k) % n + 1) = p (i + k + 1) := by
    rw [← periodic_mod hp, Nat.mod_add_mod, periodic_mod hp]
  rw [hnext]
  exact hmem

/-- The winding number counted along two rays, the second to the left of the first. -/
lemma windingAlong_turn {d e q : K × K} (hde : 0 < cross d e) (hq : OffBoundary n p q) :
    windingAlong d n p q = windingAlong e n p q := by
  have hturn := chainCrossing_turn hde hq
  have hclosed : p (0 + n) = p 0 := hp 0
  rw [hclosed, sub_self] at hturn
  exact sub_eq_zero.mp hturn

end Periodic

/-- Finitely many vectors have a direction that none of them is parallel to. -/
lemma exists_direction {ι : Type*} (s : Finset ι) (v : ι → K × K) (hv : ∀ i ∈ s, v i ≠ 0) :
    ∃ d : K × K, ∀ i ∈ s, cross d (v i) ≠ 0 := by
  classical
  obtain ⟨t, ht⟩ := Infinite.exists_notMem_finset (s.image fun i => (v i).2 / (v i).1)
  refine ⟨(1, t), fun i hi hzero => ?_⟩
  simp only [cross, one_mul] at hzero
  by_cases hfirst : (v i).1 = 0
  · rw [hfirst, mul_zero, sub_zero] at hzero
    exact hv i hi (Prod.ext hfirst hzero)
  · apply ht
    rw [Finset.mem_image]
    refine ⟨i, hi, ?_⟩
    rw [div_eq_iff hfirst]
    linarith

lemma exists_smul_of_cross_eq_zero {d e : K × K} (hd : d ≠ 0) (h : cross d e = 0) :
    ∃ t : K, e = t • d := by
  simp only [cross] at h
  by_cases hfirst : d.1 = 0
  · have hsecond : d.2 ≠ 0 := fun hzero => hd (Prod.ext hfirst hzero)
    refine ⟨e.2 / d.2, Prod.ext ?_ ?_⟩
    · rw [hfirst, zero_mul, zero_sub, neg_eq_zero, mul_eq_zero, or_iff_right hsecond] at h
      simp [hfirst, h]
    · simp [div_mul_cancel₀ _ hsecond]
  · refine ⟨e.1 / d.1, Prod.ext ?_ ?_⟩
    · simp [div_mul_cancel₀ _ hfirst]
    · rw [Prod.smul_snd, smul_eq_mul, div_mul_eq_mul_div, eq_div_iff hfirst]
      linarith

/-- The winding number does not depend on the ray. -/
theorem windingAlong_eq {n : ℕ} {p : ℕ → K × K} (hp : ∀ i, p (i + n) = p i) {q : K × K}
    (hq : OffBoundary n p q) {d e : K × K} (hd : d ≠ 0) (he : e ≠ 0) :
    windingAlong d n p q = windingAlong e n p q := by
  have hturn : ∀ {d f : K × K}, cross f d ≠ 0 → windingAlong d n p q = windingAlong f n p q := by
    intro d f hdf
    rcases lt_or_gt_of_ne hdf with hneg | hpos
    · apply windingAlong_turn hp _ hq
      rw [cross_swap]
      linarith
    · exact (windingAlong_turn hp hpos hq).symm
  obtain ⟨f, hf⟩ := exists_direction {d, e} id (by simp [hd, he])
  exact (hturn (hf d (by simp))).trans (hturn (hf e (by simp))).symm

end PolygonWinding
