import MTalk.Library.SegmentCrossings
import MTalk.Library.StableInsertion
import MTalk.Triangle.ClosedCuts
import MTalk.Triangle.ConvexHulls
import MTalk.Triangle.Heights

/-!
# The order of the meeting points

`GeoMath.presect` puts every meeting point of a polygon and a line into the segments of both edges.
A segment keeps its points in the order of their distances in space from its vertex, with the
differences that `differance` drops, and of two points at one distance the earlier one stays in
front. Whether this is their order in the plane depends on the heights of the line.
-/

namespace MTalk.Triangle.Cuts

open MTalk.GuardedRuns PlaneGeometry PolygonWinding StableInsertion

section Spec

variable {K : Type} [Field K] [LinearOrder K]

def vertexAt (p : List (GVector K)) (i : ℕ) : GVector K := p.getD (i % p.length) ⟨0, 0, 0⟩

/-- The first `n` edges of a line in the plane. -/
def edges (p : List (GVector K)) (n : ℕ) : List ((K × K) × (K × K)) :=
  (List.range n).map fun i => ((vertexAt p i).xy, (vertexAt p (i + 1)).xy)

/-- The common points of two edges. -/
def common (a b : K × K) (e : (K × K) × (K × K)) : Set (K × K) := segment K a b ∩ segment K e.1 e.2

open Classical in
/-- The points are the meeting points of an edge with the others, one for each of the others with
which it has a point in common. -/
def SectsOf (a b : K × K) (others : List ((K × K) × (K × K))) (ps : List (K × K)) : Prop :=
  ∃ qs, ps.Perm qs ∧
    List.Forall₂ (fun x e => x ∈ common a b e) qs (others.filter fun e => (common a b e).Nonempty)

/-- The segment of the edge from `v` to `b` after the intersection with the others. -/
structure EdgeSects (v : GVector K) (b : K × K) (others : List ((K × K) × (K × K)))
    (s : Segment K) : Prop where
  vex : s.vex.pos = some v
  sects : ∃ ps : List (GVector K), s.sa.map Node.pos = ps.map some ∧
    SectsOf v.xy b others (ps.map GVector.xy) ∧
    ps.Pairwise fun x y => dist2 v.xy x.xy ≤ dist2 v.xy y.xy

/-- The vertices of a line with points on its edges, each between the vertex before and the next
point. -/
def Traverses (p : List (GVector K)) (nodes : List (Node K)) : Prop :=
  ∃ between : ℕ → List (GVector K),
    nodes.map Node.pos =
      ((List.range p.length).flatMap fun i => vertexAt p i :: between i).map some ∧
    ∀ i < p.length,
      (∀ x ∈ between i, x.xy ∈ segment K (vertexAt p i).xy (vertexAt p (i + 1)).xy) ∧
      (between i).Pairwise fun x y => x.xy ∈ segment K (vertexAt p i).xy y.xy

/-- After `presect` every segment has all the meeting points of its edge in the order of their
distances in the plane, and `reTrans` runs along the edges. -/
def PresectOrders (math : JavaMath K) (next : ℕ) (poly line : List (Node K))
    (p l : List (GVector K)) (closed : Bool) : Prop :=
  let n := if closed then l.length else l.length - 1
  Returns (presect math next (trans poly) (trans line) closed) fun c =>
    (c.poly.length = p.length ∧ ∀ i < p.length, ∃ s, c.poly[i]? = some s ∧
      EdgeSects (vertexAt p i) (vertexAt p (i + 1)).xy (edges l n) s) ∧
    (c.line.length = l.length ∧ ∀ j < l.length, ∃ s, c.line[j]? = some s ∧
      EdgeSects (vertexAt l j) (vertexAt l (j + 1)).xy (if j < n then edges p p.length else []) s) ∧
    Traverses p (reTrans c.poly) ∧ Traverses l (reTrans c.line)

end Spec

section Conditions

variable {K : Type} [Field K] [LinearOrder K]

/-- `InterSect` for edge `i` of the polygon and edge `j` of the line. -/
def edgesMeet (p l : List (GVector K)) (i j : ℕ) : Bool :=
  GeoMath.interSect (vertexAt p i) (vertexAt p (i + 1)) (vertexAt l j) (vertexAt l (j + 1))

/-- The two edges are parallel, or one of them has length zero. -/
def Parallel (p l : List (GVector K)) (i j : ℕ) : Prop :=
  cross ((vertexAt p (i + 1)).xy - (vertexAt p i).xy) ((vertexAt l (j + 1)).xy - (vertexAt l j).xy)
    = 0

instance (p l : List (GVector K)) (i j : ℕ) : Decidable (Parallel p l i j) :=
  inferInstanceAs (Decidable (_ = _))

/-- The meeting point, with the height of the line. -/
def sectPoint (p l : List (GVector K)) (i j : ℕ) : GVector K :=
  { GeoMath.getSect (vertexAt p i) (vertexAt p (i + 1)) (vertexAt l j) (vertexAt l (j + 1)) with
    z := (vertexAt l j).z }

/-- The squared distance in space, without the differences that `differance` drops. -/
def space2 (v x : GVector K) : K :=
  let d := GeoMath.differance x v
  d.x * d.x + d.y * d.y + d.z * d.z

/-- The point `x`, met before `y`, is put in front of it only if it is not farther in the plane, and
behind it only if it is not nearer. -/
def KeepsOrder (v x y : GVector K) : Prop :=
  (dist2 v.xy y.xy < dist2 v.xy x.xy → space2 v y < space2 v x) ∧
    (dist2 v.xy x.xy < dist2 v.xy y.xy → space2 v x ≤ space2 v y)

instance (v x y : GVector K) : Decidable (KeepsOrder v x y) := inferInstanceAs (Decidable (_ ∧ _))

/-- Edges that `InterSect` accepts are not parallel, the heights of the line do not change the order
along an edge of the polygon, and along an edge of the line no point is met before a nearer one so
close to the start that `differance` drops it. -/
structure OrderKept (p l : List (GVector K)) (n : ℕ) : Prop where
  crossing : ∀ i < p.length, ∀ j < n, edgesMeet p l i j = true → ¬ Parallel p l i j
  poly : ∀ i < p.length, ∀ j' < n, ∀ j < j', edgesMeet p l i j = true → edgesMeet p l i j' = true →
    KeepsOrder (vertexAt p i) (sectPoint p l i j) (sectPoint p l i j')
  line : ∀ j < n, ∀ i' < p.length, ∀ i < i', edgesMeet p l i j = true → edgesMeet p l i' j = true →
    ¬ (GeoMath.toonear (vertexAt l j) (sectPoint p l i j).x (sectPoint p l i j).y = true ∧
      dist2 (vertexAt l j).xy (sectPoint p l i' j).xy <
        dist2 (vertexAt l j).xy (sectPoint p l i j).xy)

end Conditions

variable {K : Type} [Field K] [LinearOrder K] [IsStrictOrderedRing K]

section Meetings

omit [IsStrictOrderedRing K] in
lemma interSect_iff_not_apart (v1 v2 l1 l2 : GVector K) :
    GeoMath.interSect v1 v2 l1 l2 = true ↔ ¬ Apart v1.xy v2.xy l1.xy l2.xy := by
  have hside : ∀ a b c d : GVector K,
      GeoMath.sideProduct a b c d = orient c.xy d.xy a.xy * orient c.xy d.xy b.xy := by
    intro a b c d
    simp only [GeoMath.sideProduct, orient, GVector.xy]
    ring
  rw [GeoMath.interSect, GeoMath.sameSide, GeoMath.sameSide, hside, hside, Apart, not_or]
  simp [and_comm]

variable {p l : List (GVector K)} {i j : ℕ}

/-- Edges with a common point are found. -/
lemma edgesMeet_of_common (h : (common (vertexAt p i).xy (vertexAt p (i + 1)).xy
    ((vertexAt l j).xy, (vertexAt l (j + 1)).xy)).Nonempty) : edgesMeet p l i j = true := by
  obtain ⟨x, hx, hx'⟩ := h
  rw [edgesMeet, interSect_iff_not_apart]
  intro hapart
  exact hapart.notMem hx hx'

omit [LinearOrder K] [IsStrictOrderedRing K] in
/-- `GetSect` solves the equations of both lines. -/
lemma orient_getSect (v1 v2 l1 l2 : GVector K)
    (hdet : cross (v2.xy - v1.xy) (l2.xy - l1.xy) ≠ 0) :
    orient v1.xy v2.xy (GeoMath.getSect v1 v2 l1 l2).xy = 0 ∧
      orient l1.xy l2.xy (GeoMath.getSect v1 v2 l1 l2).xy = 0 := by
  have hdet' : (v2.y - v1.y) * -(l2.x - l1.x) - -(v2.x - v1.x) * (l2.y - l1.y) ≠ 0 := by
    intro hzero
    apply hdet
    simp only [cross, GVector.xy, Prod.fst_sub, Prod.snd_sub]
    linear_combination hzero
  have hx := div_mul_cancel₀ (((v2.y - v1.y) * v1.x - (v2.x - v1.x) * v1.y) * -(l2.x - l1.x)
    - ((l2.y - l1.y) * l1.x - (l2.x - l1.x) * l1.y) * -(v2.x - v1.x)) hdet'
  have hy := div_mul_cancel₀ ((v2.y - v1.y) * ((l2.y - l1.y) * l1.x - (l2.x - l1.x) * l1.y)
    - (l2.y - l1.y) * ((v2.y - v1.y) * v1.x - (v2.x - v1.x) * v1.y)) hdet'
  constructor
  · apply mul_right_cancel₀ hdet'
    simp only [orient, GVector.xy, GeoMath.getSect]
    linear_combination (v2.x - v1.x) * hy - (v2.y - v1.y) * hx
  · apply mul_right_cancel₀ hdet'
    simp only [orient, GVector.xy, GeoMath.getSect]
    linear_combination (l2.x - l1.x) * hy - (l2.y - l1.y) * hx

/-- The point that is found is on both edges. -/
lemma sectPoint_mem (h : edgesMeet p l i j = true) (hpar : ¬ Parallel p l i j) :
    (sectPoint p l i j).xy ∈ common (vertexAt p i).xy (vertexAt p (i + 1)).xy
      ((vertexAt l j).xy, (vertexAt l (j + 1)).xy) := by
  rw [edgesMeet, interSect_iff_not_apart] at h
  have hlines := orient_getSect _ _ _ _ hpar
  exact mem_both_of_not_apart hpar h hlines.1 hlines.2

end Meetings

section Levels

variable {v x y : GVector K} {b : K × K} {s t e : K}

lemma snap_mul_le (hs : 0 ≤ s) (hst : s ≤ t) :
    GeoMath.snap (s * e) * GeoMath.snap (s * e) ≤ GeoMath.snap (t * e) * GeoMath.snap (t * e) := by
  have habs : |s * e| ≤ |t * e| := by
    rw [abs_mul, abs_mul, abs_of_nonneg hs, abs_of_nonneg (hs.trans hst)]
    exact mul_le_mul_of_nonneg_right hst (abs_nonneg e)
  by_cases hnear : |s * e| < 1 / 10 ^ 8
  · rw [GeoMath.snap, if_pos hnear, zero_mul]
    exact mul_self_nonneg _
  · have hfar : ¬ |t * e| < 1 / 10 ^ 8 := fun h => hnear (habs.trans_lt h)
    rw [GeoMath.snap, if_neg hnear, GeoMath.snap, if_neg hfar, ← abs_mul_abs_self (s * e),
      ← abs_mul_abs_self (t * e)]
    exact mul_self_le_mul_self (abs_nonneg _) habs

lemma snap_mul_lt (hs : 0 ≤ s) (hst : s < t) (hfar : ¬ |t * e| < 1 / 10 ^ 8) :
    GeoMath.snap (s * e) * GeoMath.snap (s * e) < GeoMath.snap (t * e) * GeoMath.snap (t * e) := by
  have hpos : 0 < |t * e| := lt_of_lt_of_le (by positivity) (not_lt.mp hfar)
  rw [GeoMath.snap, GeoMath.snap, if_neg hfar, ← abs_mul_abs_self (t * e)]
  split_ifs with hnear
  · rw [zero_mul]
    exact mul_pos hpos hpos
  · have he : 0 < |e| := by
      apply abs_pos.mpr
      rintro rfl
      simp at hpos
    have habs : |s * e| < |t * e| := by
      rw [abs_mul, abs_mul, abs_of_nonneg hs, abs_of_pos (hs.trans_lt hst)]
      exact mul_lt_mul_of_pos_right hst he
    rw [← abs_mul_abs_self (s * e)]
    exact mul_self_lt_mul_self (abs_nonneg _) habs

omit [IsStrictOrderedRing K] in
lemma snap_of_near {d : K} (h : |d| < 1 / 10 ^ 8) : GeoMath.snap d = 0 := if_pos h

/-- Along an edge points of one height keep their order but for those that are too near. -/
lemma keepsOrder_iff (hx : x.xy ∈ segment K v.xy b) (hy : y.xy ∈ segment K v.xy b)
    (hz : x.z = y.z) : KeepsOrder v x y ↔
      ¬ (GeoMath.toonear v x.x x.y = true ∧ dist2 v.xy y.xy < dist2 v.xy x.xy) := by
  rw [segment_eq_image'] at hx hy
  obtain ⟨s, ⟨hs, -⟩, hxs⟩ := hx
  obtain ⟨t, ⟨ht, -⟩, hyt⟩ := hy
  dsimp only at hxs hyt
  by_cases hvb : v.xy = b
  · have hsame : x.xy = y.xy := by
      rw [← hxs, ← hyt, hvb, sub_self, smul_zero, smul_zero]
    simp [KeepsOrder, hsame]
  have hlt : ∀ {q r : K}, 0 ≤ q → 0 ≤ r → (dist2 v.xy (v.xy + q • (b - v.xy)) <
      dist2 v.xy (v.xy + r • (b - v.xy)) ↔ q < r) := by
    intro q r hq hr
    rw [← not_le, dist2_le_iff hvb hr hq, not_le]
  have hoff : ∀ {w : GVector K} {r : K}, v.xy + r • (b - v.xy) = w.xy →
      w.x - v.x = r * (b.1 - v.x) ∧ w.y - v.y = r * (b.2 - v.y) := by
    intro w r h
    have h1 : v.x + r * (b.1 - v.x) = w.x := congrArg Prod.fst h
    have h2 : v.y + r * (b.2 - v.y) = w.y := congrArg Prod.snd h
    exact ⟨by rw [← h1]; ring, by rw [← h2]; ring⟩
  have hspace : ∀ {w : GVector K} {r : K}, v.xy + r • (b - v.xy) = w.xy → w.z = x.z →
      space2 v w = GeoMath.snap (r * (b.1 - v.x)) * GeoMath.snap (r * (b.1 - v.x)) +
        GeoMath.snap (r * (b.2 - v.y)) * GeoMath.snap (r * (b.2 - v.y)) +
        GeoMath.snap (x.z - v.z) * GeoMath.snap (x.z - v.z) := by
    intro w r h hw
    simp only [space2, GeoMath.differance, (hoff h).1, (hoff h).2, hw]
  have hnear : GeoMath.toonear v x.x x.y = true ↔
      |s * (b.1 - v.x)| < 1 / 10 ^ 8 ∧ |s * (b.2 - v.y)| < 1 / 10 ^ 8 := by
    rw [← (hoff hxs).1, ← (hoff hxs).2, abs_sub_comm x.x, abs_sub_comm x.y]
    simp [GeoMath.toonear]
  rw [KeepsOrder, hspace hxs rfl, hspace hyt hz.symm, ← hxs, ← hyt, hlt ht hs, hlt hs ht, hnear]
  constructor
  · rintro ⟨hstrict, -⟩ ⟨⟨hx1, hx2⟩, hts⟩
    have := hstrict hts
    rw [snap_of_near hx1, snap_of_near hx2] at this
    have h1 := mul_self_nonneg (GeoMath.snap (t * (b.1 - v.x)))
    have h2 := mul_self_nonneg (GeoMath.snap (t * (b.2 - v.y)))
    linarith
  · intro hfar
    refine ⟨fun hts => ?_, fun hst => ?_⟩
    · have h1 := snap_mul_le (e := b.1 - v.x) ht hts.le
      have h2 := snap_mul_le (e := b.2 - v.y) ht hts.le
      by_cases hx1 : |s * (b.1 - v.x)| < 1 / 10 ^ 8
      · have hx2 : ¬ |s * (b.2 - v.y)| < 1 / 10 ^ 8 := fun hx2 => hfar ⟨⟨hx1, hx2⟩, hts⟩
        linarith [snap_mul_lt ht hts hx2]
      · linarith [snap_mul_lt ht hts hx1]
    · have h1 := snap_mul_le (e := b.1 - v.x) hs hst.le
      have h2 := snap_mul_le (e := b.2 - v.y) hs hst.le
      linarith

end Levels

section Segments

variable {math : JavaMath K} {node : Node K} {v : GVector K} {b : K × K} {n : ℕ}
  {meet : ℕ → Option (Node K)}

/-- The comparison of `Segment.add`. -/
def nearer (math : JavaMath K) (vex a b : Node K) : Bool :=
  less (distanceFrom math vex a) (distanceFrom math vex b)

omit [IsStrictOrderedRing K] in
/-- A segment has the meeting points of its edge as its `add` puts them in. -/
lemma segmentWith_sa : (segmentWith math node meet n).sa =
    insertAll (nearer math node) ((List.range n).filterMap meet) := by
  induction n with
  | zero => rfl
  | succ n ih =>
    rw [segmentWith_succ, List.range_succ, List.filterMap_append]
    cases hmeet : meet n with
    | none => simp [hmeet, addSect, ih]
    | some q =>
      have hlast : List.filterMap meet [n] = [q] := by simp [hmeet]
      rw [hlast, insertAll_concat, ← ih, addSect, Segment.add, segmentWith_vex]
      rfl

lemma nearer_eq (hsqrt : StrictMonoOn math.sqrt (Set.Ici 0)) {q r : Node K} {x y : GVector K}
    (hnode : node.pos = some v) (hq : q.pos = some x) (hr : r.pos = some y) :
    nearer math node q r = decide (space2 v x < space2 v y) := by
  have hpos : ∀ w : GVector K, space2 v w ∈ Set.Ici 0 := by
    intro w
    exact add_nonneg (add_nonneg (mul_self_nonneg _) (mul_self_nonneg _)) (mul_self_nonneg _)
  rw [nearer, distanceFrom, distanceFrom, hnode, hq, hr]
  exact decide_eq_decide.mpr (hsqrt.lt_iff_lt (hpos x) (hpos y))

lemma pairwise_range {R : ℕ → ℕ → Prop} :
    (List.range n).Pairwise R ↔ ∀ j' < n, ∀ j < j', R j j' := by
  rw [List.pairwise_iff_getElem]
  simp only [List.length_range, List.getElem_range]
  constructor
  · intro h j' hj' j hj
    exact h j j' (by omega) hj' hj
  · intro h j j' _ hj' hj
    exact h j' hj' j hj

/-- The meeting points of one edge with `n` others as `presect` finds them. -/
structure Found (v : GVector K) (b : K × K) (e : ℕ → (K × K) × (K × K)) (meets : ℕ → Bool)
    (parallel : ℕ → Prop) (point : ℕ → GVector K) (meet : ℕ → Option (Node K)) (n : ℕ) : Prop where
  apart : ∀ j < n, meets j = false → meet j = none
  crossing : ∀ j < n, meets j = true → ¬ parallel j → ∃ ref, meet j = some ⟨ref, some (point j)⟩
  overlap : ∀ j < n, meets j = true → parallel j → ∃ ref, meet j = some ⟨ref, none⟩
  mem : ∀ j < n, meets j = true → ¬ parallel j → (point j).xy ∈ common v.xy b (e j)
  found : ∀ j < n, (common v.xy b (e j)).Nonempty → meets j = true

namespace Found

variable {e : ℕ → (K × K) × (K × K)} {meets : ℕ → Bool} {parallel : ℕ → Prop}
  {point : ℕ → GVector K}

def place (q : Node K) : GVector K := q.pos.getD ⟨0, 0, 0⟩

omit [IsStrictOrderedRing K] in
/-- A segment without points that are not numbers has no parallel edge. -/
lemma crossing_of_edgeSects (h : Found v b e meets parallel point meet n)
    (hs : EdgeSects v b ((List.range n).map e) (segmentWith math node meet n)) :
    ∀ j < n, meets j = true → ¬ parallel j := by
  intro j hj hmeets hparallel
  obtain ⟨ref, hmeet⟩ := h.overlap j hj hmeets hparallel
  obtain ⟨ps, hps, -⟩ := hs.sects
  have hmem : (⟨ref, none⟩ : Node K) ∈ (segmentWith math node meet n).sa := by
    rw [segmentWith_sa, mem_insertAll, List.mem_filterMap]
    exact ⟨j, List.mem_range.mpr hj, hmeet⟩
  have hnone := List.mem_map_of_mem (f := Node.pos) hmem
  rw [hps] at hnone
  simp at hnone

variable (h : Found v b e meets parallel point meet n)
  (hcross : ∀ j < n, meets j = true → ¬ parallel j)
include h hcross

omit [IsStrictOrderedRing K] in
lemma pos_eq {q : Node K} (hq : q ∈ (List.range n).filterMap meet) : q.pos = some (place q) := by
  obtain ⟨j, hj, hmeet⟩ := List.mem_filterMap.mp hq
  rw [List.mem_range] at hj
  cases hmeets : meets j with
  | false =>
    rw [h.apart j hj hmeets] at hmeet
    cases hmeet
  | true =>
    obtain ⟨ref, hnode⟩ := h.crossing j hj hmeets (hcross j hj hmeets)
    rw [hnode] at hmeet
    cases hmeet
    rfl

omit [IsStrictOrderedRing K] in
lemma map_place : ((List.range n).filterMap meet).map place =
    ((List.range n).filter meets).map point := by
  rw [List.map_filterMap, ← List.filterMap_eq_map, List.filterMap_filter]
  apply List.filterMap_congr
  intro j hj
  rw [List.mem_range] at hj
  cases hmeets : meets j with
  | false => simp [h.apart j hj hmeets]
  | true =>
    obtain ⟨ref, hnode⟩ := h.crossing j hj hmeets (hcross j hj hmeets)
    simp [hnode, place]

omit [IsStrictOrderedRing K] in
open Classical in
/-- No meeting point is lost and nothing else is put in. -/
lemma sectsOf : SectsOf v.xy b ((List.range n).map e)
    (((segmentWith math node meet n).sa.map place).map GVector.xy) := by
  refine ⟨((List.range n).filter meets).map fun j => (point j).xy, ?_, ?_⟩
  · have hperm := ((perm_insertAll (nearer math node) ((List.range n).filterMap meet)).map
      place).map GVector.xy
    rw [map_place h hcross] at hperm
    rw [segmentWith_sa]
    exact hperm.trans (by rw [List.map_map]; rfl)
  · have hfilter : (List.range n).filter (fun j => decide (common v.xy b (e j)).Nonempty) =
        (List.range n).filter meets := by
      apply List.filter_congr
      intro j hj
      rw [List.mem_range] at hj
      cases hmeets : meets j with
      | false =>
        rw [decide_eq_false_iff_not]
        intro hcommon
        rw [h.found j hj hcommon] at hmeets
        cases hmeets
      | true =>
        rw [decide_eq_true_iff]
        exact ⟨_, h.mem j hj hmeets (hcross j hj hmeets)⟩
    rw [List.filter_map]
    change List.Forall₂ _ _ (((List.range n).filter fun j =>
      decide (common v.xy b (e j)).Nonempty).map e)
    rw [hfilter, List.forall₂_map_left_iff, List.forall₂_map_right_iff, List.forall₂_same]
    intro j hj
    rw [List.mem_filter, List.mem_range] at hj
    exact h.mem j hj.1 hj.2 (hcross j hj.1 hj.2)

/-- The points are in the order of the plane exactly if each two of them keep it. -/
lemma pairwise_iff (hsqrt : StrictMonoOn math.sqrt (Set.Ici 0)) (hnode : node.pos = some v) :
    ((segmentWith math node meet n).sa.map place).Pairwise
        (fun x y => dist2 v.xy x.xy ≤ dist2 v.xy y.xy) ↔
      ∀ j' < n, ∀ j < j', meets j = true → meets j' = true →
        KeepsOrder v (point j) (point j') := by
  have hnearer : ∀ q ∈ (List.range n).filterMap meet, ∀ r ∈ (List.range n).filterMap meet,
      nearer math node q r = decide (space2 v (place q) < space2 v (place r)) := by
    intro q hq r hr
    exact nearer_eq hsqrt hnode (pos_eq h hcross hq) (pos_eq h hcross hr)
  have hpairs : ∀ q ∈ (List.range n).filterMap meet, ∀ r ∈ (List.range n).filterMap meet,
      ((if nearer math node r q = true then dist2 v.xy (place r).xy ≤ dist2 v.xy (place q).xy
        else dist2 v.xy (place q).xy ≤ dist2 v.xy (place r).xy) ↔
      KeepsOrder v (place q) (place r)) := by
    intro q hq r hr
    simp only [hnearer r hr q hq, KeepsOrder, decide_eq_true_iff]
    split_ifs with hspace
    · rw [← not_lt]
      constructor
      · exact fun hnot => ⟨fun _ => hspace, fun hlt => absurd hlt hnot⟩
      · exact fun hkeeps hlt => absurd hspace (hkeeps.2 hlt).not_gt
    · rw [← not_lt]
      constructor
      · exact fun hnot => ⟨fun hlt => absurd hlt hnot, fun _ => not_lt.mp hspace⟩
      · exact fun hkeeps hlt => hspace (hkeeps.1 hlt)
  have hmapped : ((List.range n).filterMap meet).Pairwise
        (fun q r => KeepsOrder v (place q) (place r)) ↔
      (((List.range n).filter meets).map point).Pairwise (KeepsOrder v) := by
    rw [← map_place h hcross, List.pairwise_map]
  rw [segmentWith_sa, List.pairwise_map, pairwise_insertAll_iff (weakOrderOn_key hnearer),
    List.Pairwise.iff_of_mem fun hq hr => hpairs _ hq _ hr, hmapped, List.pairwise_map,
    List.pairwise_filter, pairwise_range]

omit hcross in
/-- The points of a segment are right exactly if no edge it meets is parallel to its edge and each
two of the points keep the order of the plane. -/
lemma edgeSects_iff (hsqrt : StrictMonoOn math.sqrt (Set.Ici 0)) (hnode : node.pos = some v) :
    EdgeSects v b ((List.range n).map e) (segmentWith math node meet n) ↔
      (∀ j < n, meets j = true → ¬ parallel j) ∧
        ∀ j' < n, ∀ j < j', meets j = true → meets j' = true →
          KeepsOrder v (point j) (point j') := by
  have hplaces : (∀ j < n, meets j = true → ¬ parallel j) →
      (segmentWith math node meet n).sa.map Node.pos =
        ((segmentWith math node meet n).sa.map place).map some := by
    intro hcross
    rw [List.map_map]
    apply List.map_congr_left
    intro q hq
    rw [segmentWith_sa, mem_insertAll] at hq
    exact pos_eq h hcross hq
  constructor
  · intro hs
    have hcross := crossing_of_edgeSects h hs
    obtain ⟨ps, hps, -, hsorted⟩ := hs.sects
    rw [hplaces hcross] at hps
    obtain rfl := (List.map_injective_iff.mpr (Option.some_injective _)) hps
    exact ⟨hcross, (pairwise_iff h hcross hsqrt hnode).mp hsorted⟩
  · rintro ⟨hcross, hkeeps⟩
    refine ⟨by rw [segmentWith_vex, hnode], _, hplaces hcross, sectsOf h hcross, ?_⟩
    exact (pairwise_iff h hcross hsqrt hnode).mpr hkeeps

end Found

end Segments

section Results

variable {math : JavaMath K} {next n i j : ℕ} {poly line : List (Node K)} {p l : List (GVector K)}

omit [LinearOrder K] [IsStrictOrderedRing K] in
lemma nodeAt_pos (hpoly : poly.map Node.pos = p.map some) (hp : 0 < p.length) (i : ℕ) :
    (nodeAt poly i).pos = some (vertexAt p i) := by
  have hlen : poly.length = p.length := by simpa using congrArg List.length hpoly
  have hi : i % p.length < p.length := Nat.mod_lt _ hp
  have hi' : i % p.length < poly.length := hlen ▸ hi
  have hget := congrArg (fun q => q[i % p.length]?) hpoly
  simp only [List.getElem?_map, hi', hi, List.getElem?_eq_getElem, Option.map_some] at hget
  rw [nodeAt, vertexAt, hlen, List.getD_eq_getElem _ _ hi', List.getD_eq_getElem _ _ hi]
  exact Option.some.inj hget

omit [IsStrictOrderedRing K] in
lemma meetAt_eq (hpoly : poly.map Node.pos = p.map some) (hline : line.map Node.pos = l.map some)
    (hp : 0 < p.length) (hl : 0 < l.length) (i j : ℕ) : meetAt next n poly line i j =
      if edgesMeet p l i j then
        some ⟨next + i * n + j, if Parallel p l i j then none else some (sectPoint p l i j)⟩
      else none := by
  have hdet : ∀ v1 v2 l1 l2 : GVector K,
      (v2.y - v1.y) * -(l2.x - l1.x) - -(v2.x - v1.x) * (l2.y - l1.y) =
        cross (v2.xy - v1.xy) (l2.xy - l1.xy) := by
    intro v1 v2 l1 l2
    simp only [cross, GVector.xy, Prod.fst_sub, Prod.snd_sub]
    ring
  simp only [meetAt, getSect, nodeAt_pos hpoly hp, nodeAt_pos hline hl, hdet]
  rfl

lemma found_poly (hpoly : poly.map Node.pos = p.map some) (hline : line.map Node.pos = l.map some)
    (hi : i < p.length) (hn : n ≤ l.length) :
    Found (vertexAt p i) (vertexAt p (i + 1)).xy
      (fun j => ((vertexAt l j).xy, (vertexAt l (j + 1)).xy)) (edgesMeet p l i) (Parallel p l i)
      (sectPoint p l i) (fun j => meetAt next n poly line i j) n where
  apart j hj hmeets := by
    rw [meetAt_eq hpoly hline (by omega) (by omega), hmeets]
    rfl
  crossing j hj hmeets hpar := by
    rw [meetAt_eq hpoly hline (by omega) (by omega), if_pos hmeets, if_neg hpar]
    exact ⟨_, rfl⟩
  overlap j hj hmeets hpar := by
    rw [meetAt_eq hpoly hline (by omega) (by omega), if_pos hmeets, if_pos hpar]
    exact ⟨_, rfl⟩
  mem j _ hmeets hpar := sectPoint_mem hmeets hpar
  found j _ hcommon := edgesMeet_of_common hcommon

lemma found_line (hpoly : poly.map Node.pos = p.map some) (hline : line.map Node.pos = l.map some)
    (hj : j < l.length) {m : ℕ} (hm : m ≤ p.length) :
    Found (vertexAt l j) (vertexAt l (j + 1)).xy
      (fun i => ((vertexAt p i).xy, (vertexAt p (i + 1)).xy)) (fun i => edgesMeet p l i j)
      (fun i => Parallel p l i j) (fun i => sectPoint p l i j)
      (fun i => meetAt next n poly line i j) m where
  apart i hi hmeets := by
    rw [meetAt_eq hpoly hline (by omega) (by omega), hmeets]
    rfl
  crossing i hi hmeets hpar := by
    rw [meetAt_eq hpoly hline (by omega) (by omega), if_pos hmeets, if_neg hpar]
    exact ⟨_, rfl⟩
  overlap i hi hmeets hpar := by
    rw [meetAt_eq hpoly hline (by omega) (by omega), if_pos hmeets, if_pos hpar]
    exact ⟨_, rfl⟩
  mem i _ hmeets hpar := (sectPoint_mem hmeets hpar).symm
  found i _ hcommon := edgesMeet_of_common ⟨_, hcommon.choose_spec.symm⟩

omit [IsStrictOrderedRing K] in
lemma SectsOf.mem_segment {a b x : K × K} {others : List ((K × K) × (K × K))} {ps : List (K × K)}
    (h : SectsOf a b others ps) (hx : x ∈ ps) : x ∈ segment K a b := by
  obtain ⟨qs, hperm, hall⟩ := h
  have hmem : ∀ {us : List (K × K)} {es}, List.Forall₂ (fun x e => x ∈ common a b e) us es →
      ∀ x ∈ us, x ∈ segment K a b := by
    intro us es hus
    induction hus with
    | nil => simp
    | cons hfirst _ ih =>
      intro y hy
      rcases List.mem_cons.mp hy with rfl | hy
      · exact hfirst.1
      · exact ih y hy
  exact hmem hall x (hperm.mem_iff.mp hx)

/-- Segments with the right points are joined to a line along the original edges. -/
lemma traverses_of_edgeSects {F : ℕ → Segment K} {others : ℕ → List ((K × K) × (K × K))}
    (h : ∀ i < p.length,
      EdgeSects (vertexAt p i) (vertexAt p (i + 1)).xy (others i) (F i)) :
    Traverses p (reTrans ((List.range p.length).map F)) := by
  have hall : ∀ i, ∃ ps : List (GVector K), i < p.length →
      (F i).sa.map Node.pos = ps.map some ∧
      SectsOf (vertexAt p i).xy (vertexAt p (i + 1)).xy (others i) (ps.map GVector.xy) ∧
      ps.Pairwise fun x y => dist2 (vertexAt p i).xy x.xy ≤ dist2 (vertexAt p i).xy y.xy := by
    intro i
    by_cases hi : i < p.length
    · obtain ⟨ps, hps⟩ := (h i hi).sects
      exact ⟨ps, fun _ => hps⟩
    · exact ⟨[], fun hi' => absurd hi' hi⟩
  choose between hbetween using hall
  refine ⟨between, ?_, fun i hi => ?_⟩
  · rw [reTrans, List.flatMap_map, List.map_flatMap, List.map_flatMap]
    apply List.flatMap_congr
    intro i hi
    rw [List.mem_range] at hi
    rw [List.map_cons, List.map_cons, (h i hi).vex, (hbetween i hi).1]
  · obtain ⟨-, hsects, hsorted⟩ := hbetween i hi
    have hmem : ∀ x ∈ between i, x.xy ∈ segment K (vertexAt p i).xy (vertexAt p (i + 1)).xy :=
      fun x hx => hsects.mem_segment (List.mem_map_of_mem hx)
    refine ⟨hmem, hsorted.imp_of_mem fun {x y} hx hy hle => ?_⟩
    exact mem_segment_of_dist2_le (hmem x hx) (hmem y hy) hle

/-- The points of an edge of the line have the height of its start, so that only those near to it
may change their order. -/
lemma line_keepsOrder_iff {i' : ℕ} (hm : edgesMeet p l i j = true) (hm' : edgesMeet p l i' j = true)
    (hpar : ¬ Parallel p l i j) (hpar' : ¬ Parallel p l i' j) :
    KeepsOrder (vertexAt l j) (sectPoint p l i j) (sectPoint p l i' j) ↔
      ¬ (GeoMath.toonear (vertexAt l j) (sectPoint p l i j).x (sectPoint p l i j).y = true ∧
        dist2 (vertexAt l j).xy (sectPoint p l i' j).xy <
          dist2 (vertexAt l j).xy (sectPoint p l i j).xy) :=
  keepsOrder_iff (sectPoint_mem hm hpar).2 (sectPoint_mem hm' hpar').2 rfl

/-- Likewise on an edge of the polygon for edges of the line that start at one height, as those of a
contour do. -/
lemma poly_keepsOrder_iff {j' : ℕ} (hz : (vertexAt l j).z = (vertexAt l j').z)
    (hm : edgesMeet p l i j = true) (hm' : edgesMeet p l i j' = true)
    (hpar : ¬ Parallel p l i j) (hpar' : ¬ Parallel p l i j') :
    KeepsOrder (vertexAt p i) (sectPoint p l i j) (sectPoint p l i j') ↔
      ¬ (GeoMath.toonear (vertexAt p i) (sectPoint p l i j).x (sectPoint p l i j).y = true ∧
        dist2 (vertexAt p i).xy (sectPoint p l i j').xy <
          dist2 (vertexAt p i).xy (sectPoint p l i j).xy) :=
  keepsOrder_iff (sectPoint_mem hm hpar).1 (sectPoint_mem hm' hpar').1 hz

/-- The result of `presect` is right exactly if all its segments are. -/
lemma presectOrders_iff_edgeSects (hpoly : poly.map Node.pos = p.map some)
    (hline : line.map Node.pos = l.map some) {closed : Bool}
    (hn : n = if closed then l.length else l.length - 1) :
    PresectOrders math next poly line p l closed ↔
      (∀ i < p.length, EdgeSects (vertexAt p i) (vertexAt p (i + 1)).xy (edges l n)
        (segmentWith math (nodeAt poly i) (fun j => meetAt next n poly line i j) n)) ∧
      ∀ j < l.length, EdgeSects (vertexAt l j) (vertexAt l (j + 1)).xy
        (if j < n then edges p p.length else [])
        (segmentWith math (nodeAt line j) (fun i => meetAt next n poly line i j)
          (if j < n then p.length else 0)) := by
  have hpolylen : poly.length = p.length := by simpa using congrArg List.length hpoly
  have hlinelen : line.length = l.length := by simpa using congrArg List.length hline
  have hcount : n = edgeCount line closed := by rw [hn, edgeCount, hlinelen]
  have hget : ∀ {m : ℕ} (H : ℕ → Segment K), ∀ i < m, ((List.range m).map H)[i]? = some (H i) := by
    intro m H i hi
    simp [hi]
  rw [PresectOrders, ← hn, presect_segments closed hcount, hpolylen, hlinelen, returns_ok]
  constructor
  · rintro ⟨⟨-, hp⟩, ⟨-, hl⟩, -, -⟩
    constructor
    · intro i hi
      obtain ⟨s, hs, hedge⟩ := hp i hi
      rw [hget _ i hi] at hs
      cases hs
      exact hedge
    · intro j hj
      obtain ⟨s, hs, hedge⟩ := hl j hj
      rw [hget _ j hj] at hs
      cases hs
      exact hedge
  · rintro ⟨hp, hl⟩
    exact ⟨⟨by simp, fun i hi => ⟨_, hget _ i hi, hp i hi⟩⟩,
      ⟨by simp, fun j hj => ⟨_, hget _ j hj, hl j hj⟩⟩,
      traverses_of_edgeSects hp, traverses_of_edgeSects hl⟩

lemma edgeSects_poly_iff (hsqrt : StrictMonoOn math.sqrt (Set.Ici 0))
    (hpoly : poly.map Node.pos = p.map some) (hline : line.map Node.pos = l.map some)
    (hi : i < p.length) (hn : n ≤ l.length) :
    EdgeSects (vertexAt p i) (vertexAt p (i + 1)).xy (edges l n)
        (segmentWith math (nodeAt poly i) (fun j => meetAt next n poly line i j) n) ↔
      (∀ j < n, edgesMeet p l i j = true → ¬ Parallel p l i j) ∧
        ∀ j' < n, ∀ j < j', edgesMeet p l i j = true → edgesMeet p l i j' = true →
          KeepsOrder (vertexAt p i) (sectPoint p l i j) (sectPoint p l i j') :=
  (found_poly hpoly hline hi hn).edgeSects_iff hsqrt (nodeAt_pos hpoly (by omega) i)

/-- A vertex behind the last edge of an open line has no points. -/
lemma edgeSects_line_iff (hsqrt : StrictMonoOn math.sqrt (Set.Ici 0))
    (hpoly : poly.map Node.pos = p.map some) (hline : line.map Node.pos = l.map some)
    (hj : j < l.length) : EdgeSects (vertexAt l j) (vertexAt l (j + 1)).xy
        (if j < n then edges p p.length else [])
        (segmentWith math (nodeAt line j) (fun i => meetAt next n poly line i j)
          (if j < n then p.length else 0)) ↔
      (j < n → (∀ i < p.length, edgesMeet p l i j = true → ¬ Parallel p l i j) ∧
        ∀ i' < p.length, ∀ i < i', edgesMeet p l i j = true → edgesMeet p l i' j = true →
          KeepsOrder (vertexAt l j) (sectPoint p l i j) (sectPoint p l i' j)) := by
  have hpos := nodeAt_pos hline (by omega) j
  by_cases hjn : j < n
  · rw [if_pos hjn, if_pos hjn]
    simp only [hjn, forall_const]
    exact (found_line hpoly hline hj le_rfl).edgeSects_iff hsqrt hpos
  · rw [if_neg hjn, if_neg hjn]
    simp only [hjn, false_imp_iff, iff_true]
    have hnone : EdgeSects (vertexAt l j) (vertexAt l (j + 1)).xy [] (segmentWith math
        (nodeAt line j) (fun i => meetAt next n poly line i j) 0) ↔ _ :=
      (found_line hpoly hline hj (Nat.zero_le _)).edgeSects_iff hsqrt hpos
    exact hnone.mpr ⟨fun i hi => absurd hi (Nat.not_lt_zero i),
      fun i hi => absurd hi (Nat.not_lt_zero i)⟩

/-- `presect` leaves all meeting points in the order of the plane exactly if the order in space, with
the differences that are dropped, agrees with it and no edges lie on one straight line. -/
theorem presectOrders_iff (hsqrt : StrictMonoOn math.sqrt (Set.Ici 0))
    (hpoly : poly.map Node.pos = p.map some) (hline : line.map Node.pos = l.map some)
    (closed : Bool) : PresectOrders math next poly line p l closed ↔
      OrderKept p l (if closed then l.length else l.length - 1) := by
  set n := if closed then l.length else l.length - 1 with hn
  have hle : n ≤ l.length := by
    rw [hn]
    split_ifs <;> omega
  rw [presectOrders_iff_edgeSects hpoly hline hn]
  constructor
  · rintro ⟨hp, hl⟩
    have hp' := fun i hi => (edgeSects_poly_iff hsqrt hpoly hline hi hle).mp (hp i hi)
    refine ⟨fun i hi => (hp' i hi).1, fun i hi => (hp' i hi).2, ?_⟩
    intro j hj i' hi' i hi hm hm'
    have hpar := fun i hi => (hp' i hi).1 j hj
    have hedge := (edgeSects_line_iff hsqrt hpoly hline (by omega)).mp (hl j (by omega)) hj
    rw [← line_keepsOrder_iff hm hm' (hpar i (hi.trans hi') hm) (hpar i' hi' hm')]
    exact hedge.2 i' hi' i hi hm hm'
  · intro hkept
    constructor
    · intro i hi
      rw [edgeSects_poly_iff hsqrt hpoly hline hi hle]
      exact ⟨hkept.crossing i hi, hkept.poly i hi⟩
    · intro j hj
      rw [edgeSects_line_iff hsqrt hpoly hline hj]
      refine fun hjn => ⟨fun i hi => hkept.crossing i hi j hjn, fun i' hi' i hi hm hm' => ?_⟩
      rw [line_keepsOrder_iff hm hm' (hkept.crossing i (hi.trans hi') j hjn hm)
        (hkept.crossing i' hi' j hjn hm')]
      exact hkept.line j hjn i' hi' i hi hm hm'

end Results

/-! A square at the height 0 and two lines over its lower edge. -/

def base : List (GVector ℝ) := [⟨0, 0, 0⟩, ⟨4, 0, 0⟩, ⟨4, 4, 0⟩, ⟨0, 4, 0⟩]

/-- It leaves the square through the lower edge at the height 5, and returns at the same height. -/
def levelLine : List (GVector ℝ) := [⟨1, -1, 5⟩, ⟨1, 1, 5⟩, ⟨2, -1, 5⟩]

/-- It enters at the height 10 and leaves at the height 0. -/
def fallingLine : List (GVector ℝ) := [⟨1, -1, 10⟩, ⟨1, 1, 10⟩, ⟨2, 1, 0⟩, ⟨2, -1, 0⟩]

lemma realMath_sqrt : StrictMonoOn Convex.realMath.sqrt (Set.Ici 0) := fun _ ha _ _ hab =>
  Real.sqrt_lt_sqrt ha hab

lemma map_pos_nodes {K : Type} (next : ℕ) (p : List (GVector K)) :
    (nodes next p).map Node.pos = p.map some := by
  apply List.ext_getElem?
  intro i
  simp only [nodes, List.getElem?_map, List.getElem?_mapIdx, Option.map_map]
  rfl

lemma vertexAt_base : vertexAt base 0 = ⟨0, 0, 0⟩ ∧ vertexAt base 1 = ⟨4, 0, 0⟩ ∧
    vertexAt base 2 = ⟨4, 4, 0⟩ ∧ vertexAt base 3 = ⟨0, 4, 0⟩ ∧ vertexAt base 4 = ⟨0, 0, 0⟩ :=
  ⟨rfl, rfl, rfl, rfl, rfl⟩

lemma vertexAt_levelLine : vertexAt levelLine 0 = ⟨1, -1, 5⟩ ∧ vertexAt levelLine 1 = ⟨1, 1, 5⟩ ∧
    vertexAt levelLine 2 = ⟨2, -1, 5⟩ :=
  ⟨rfl, rfl, rfl⟩

/-- The level line meets the lower edge only. -/
lemma levelLine_edgesMeet {i j : ℕ} (hi : i < 4) (hj : j < 2) :
    edgesMeet base levelLine i j = decide (i = 0) := by
  obtain ⟨p0, p1, p2, p3, p4⟩ := vertexAt_base
  obtain ⟨l0, l1, l2⟩ := vertexAt_levelLine
  interval_cases i <;> interval_cases j <;>
    simp [edgesMeet, GeoMath.interSect, GeoMath.sameSide, GeoMath.sideProduct, p0, p1, p2, p3, p4,
      l0, l1, l2] <;> norm_num

lemma levelLine_kept : OrderKept base levelLine 2 := by
  obtain ⟨p0, p1, -, -, -⟩ := vertexAt_base
  obtain ⟨l0, l1, l2⟩ := vertexAt_levelLine
  have hcross : ∀ j < 2, ¬ Parallel base levelLine 0 j := by
    intro j hj
    interval_cases j <;> simp [Parallel, cross, GVector.xy, p0, p1, l0, l1, l2]
    norm_num
  constructor
  · intro i hi j hj hmeet
    rw [levelLine_edgesMeet hi hj, decide_eq_true_iff] at hmeet
    subst hmeet
    exact hcross j hj
  · intro i hi j' hj' j hj hmeet hmeet'
    have hzero := hmeet
    rw [levelLine_edgesMeet hi (hj.trans hj'), decide_eq_true_iff] at hzero
    subst hzero
    obtain ⟨rfl, rfl⟩ : j = 0 ∧ j' = 1 := by omega
    have hfirst : sectPoint base levelLine 0 0 = ⟨1, 0, 5⟩ := by
      simp [sectPoint, GeoMath.getSect, p0, p1, l0, l1]
      norm_num
    have hz : (vertexAt levelLine 0).z = (vertexAt levelLine 1).z := by rw [l0, l1]
    rw [poly_keepsOrder_iff hz hmeet hmeet' (hcross 0 (by omega)) (hcross 1 hj'), hfirst, p0]
    norm_num [GeoMath.toonear]
  · intro j hj i' hi' i hi _ hmeet
    rw [levelLine_edgesMeet hi' hj, decide_eq_true_iff] at hmeet
    omega

theorem presectOrders_level :
    PresectOrders Convex.realMath 7 (nodes 0 base) (nodes 4 levelLine) base levelLine false :=
  (presectOrders_iff realMath_sqrt (map_pos_nodes 0 base) (map_pos_nodes 4 levelLine) false).mpr
    levelLine_kept

/-- The point at the height 10 is put behind the one at the height 0. -/
theorem presect_misorders_falling : ¬ PresectOrders Convex.realMath 8 (nodes 0 base)
    (nodes 4 fallingLine) base fallingLine false := by
  intro h
  rw [presectOrders_iff_edgeSects (map_pos_nodes 0 base) (map_pos_nodes 4 fallingLine) rfl] at h
  obtain ⟨p0, p1, -, -, -⟩ := vertexAt_base
  have l0 : vertexAt fallingLine 0 = ⟨1, -1, 10⟩ := rfl
  have l1 : vertexAt fallingLine 1 = ⟨1, 1, 10⟩ := rfl
  have l2 : vertexAt fallingLine 2 = ⟨2, 1, 0⟩ := rfl
  have l3 : vertexAt fallingLine 3 = ⟨2, -1, 0⟩ := rfl
  have hfirst : edgesMeet base fallingLine 0 0 = true := by
    norm_num [edgesMeet, GeoMath.interSect, GeoMath.sameSide, GeoMath.sideProduct, p0, p1, l0, l1]
  have hlast : edgesMeet base fallingLine 0 2 = true := by
    norm_num [edgesMeet, GeoMath.interSect, GeoMath.sameSide, GeoMath.sideProduct, p0, p1, l2, l3]
  have hkeeps := ((edgeSects_poly_iff realMath_sqrt (map_pos_nodes 0 base)
    (map_pos_nodes 4 fallingLine) (by decide) (by decide)).mp (h.1 0 (by decide))).2 2 (by decide)
    0 (by decide) hfirst hlast
  have hhigh : sectPoint base fallingLine 0 0 = ⟨1, 0, 10⟩ := by
    simp [sectPoint, GeoMath.getSect, p0, p1, l0, l1]
    norm_num
  have hlow : sectPoint base fallingLine 0 2 = ⟨2, 0, 0⟩ := by
    simp [sectPoint, GeoMath.getSect, p0, p1, l2, l3]
    norm_num
  have hspace := hkeeps.2
  rw [hhigh, hlow, p0] at hspace
  norm_num [dist2, space2, GeoMath.differance, GeoMath.snap, GVector.xy, abs_of_pos] at hspace

end MTalk.Triangle.Cuts
