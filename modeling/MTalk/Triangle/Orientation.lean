import MTalk.Triangle.NetRuns

/-!
# Orientation and area

Splitting a trigon at a point inside it and flipping an edge that `Exchangable` admits both keep
every trigon positively oriented and the total area unchanged. So the net covers the area of the
start polygon after any run of such operations.
-/

namespace MTalk.Triangle

open PlaneGeometry WhileLoop

namespace Net

variable {K : Type}

/-- The sum of a quantity over the live trigons. -/
def total [AddMonoid K] (f : (Fin 3 → Vertex K) → K) (s : Net K) : K :=
  (s.trigonIndex.map fun t => f (s.vex t)).sum

/-- The trigons are positively oriented. -/
def Positive [Field K] [LinearOrder K] (s : Net K) : Prop := ∀ t, s.Live t → 0 < area2 (s.vex t)

section Rebuilt

variable {s s' : Net K} {olds news : List TrigonRef}

lemma Rebuilt.live_iff (h : Rebuilt s olds news s') (hnd : s.trigonIndex.Nodup) (t : TrigonRef) :
    s'.Live t ↔ s.Live t ∧ t ∉ olds ∨ t ∈ news := by
  unfold Live
  rw [h.trigonIndex, List.mem_append, hnd.mem_sdiff_iff]

lemma total_congr [AddMonoid K] (f : (Fin 3 → Vertex K) → K) (hi : s'.trigonIndex = s.trigonIndex)
    (hv : ∀ t, s.Live t → s'.vex t = s.vex t) : total f s' = total f s := by
  unfold total
  rw [hi]
  exact congrArg List.sum (List.map_congr_left fun t ht => by rw [hv t ht])

/-- Replacing trigons changes a total by the difference of what they contribute. -/
lemma Rebuilt.total [AddCommMonoid K] (h : Rebuilt s olds news s') (hnd : olds.Nodup)
    (holds : ∀ t ∈ olds, s.Live t) (f : (Fin 3 → Vertex K) → K) :
    s'.total f + (olds.map fun t => f (s.vex t)).sum =
      s.total f + (news.map fun t => f (s.vex t)).sum := by
  have hperm : (olds ++ s.trigonIndex.diff olds).Perm s.trigonIndex :=
    List.subperm_append_diff_self_of_count_le
      (List.subperm_ext_iff.mp (hnd.subperm fun t ht => holds t ht))
  have hsum := (hperm.map fun t => f (s.vex t)).sum_eq
  rw [List.map_append, List.sum_append] at hsum
  unfold Net.total
  rw [h.trigonIndex, h.vex, List.map_append, List.sum_append, ← hsum]
  abel

end Rebuilt

section Exchangable

variable [Field K] [LinearOrder K]

/-- The in-circle determinant of the vertex `j` of `u` against the trigon `t`. -/
def determinant (s : Net K) (t u : TrigonRef) (j : Fin 3) : K :=
  inCircle (s.vex t 0).xy (s.vex t 1).xy (s.vex t 2).xy (s.vex u j).xy

omit [LinearOrder K] in
lemma determinant_at (s : Net K) (t u : TrigonRef) (i j : Fin 3) :
    inCircle (s.vex t i).xy (s.vex t (i + 1)).xy (s.vex t (i + 2)).xy (s.vex u j).xy =
      s.determinant t u j := by
  fin_cases i
  · rfl
  · exact inCircle_rotate _ _ _ _
  · exact (inCircle_rotate _ _ _ _).symm

/-- `Exchangable` asks whether the determinant is not negative. -/
lemma exchangable_eq {s : Net K} {edge : QueueNode} {p2 : TrigonRef} {vid1 : Fin 3}
    (hl : s.link (edge.trigon, edge.vid) = some (p2, vid1)) :
    s.exchangable edge = .ok (decide (0 ≤ s.determinant edge.trigon p2 vid1)) := by
  obtain ⟨hp, hv⟩ := link_eq_some.mp hl
  simp only [exchangable, hp, hv, deref_some, index_some, bind, Except.bind, pure, Except.pure,
    Except.ok.injEq]
  change (if s.determinant edge.trigon p2 vid1 = 0 then true
    else if s.determinant edge.trigon p2 vid1 < 0 then false else true) = _
  split_ifs with h0 hneg
  · simp [h0]
  · simp [hneg]
  · simp [not_lt.mp hneg]

/-- `Exchangable` completes on the edges that have a neighbour and on no others. -/
lemma link_of_exchangable {s : Net K} {edge : QueueNode} {b : Bool}
    (h : s.exchangable edge = .ok b) : ∃ p2 vid1, s.link (edge.trigon, edge.vid) = some (p2, vid1) := by
  unfold exchangable at h
  simp only [bind_eq_ok, deref_eq_ok, index_eq_ok] at h
  obtain ⟨p2, hp, vid1, hv, -⟩ := h
  exact ⟨p2, vid1, link_eq_some.mpr ⟨hp, hv⟩⟩

end Exchangable

section Positive

variable [Field K] [LinearOrder K] {s : Net K}

lemma Positive.area_at (h : s.Positive) {t : TrigonRef} (ht : s.Live t) (i : Fin 3) :
    0 < orient (s.vex t i).xy (s.vex t (i + 1)).xy (s.vex t (i + 2)).xy := by
  rw [area2_at]
  exact h t ht

variable [IsStrictOrderedRing K]

/-- Two positive trigons share at most one side. -/
lemma Positive.sharesOneSide (h : s.Positive) (hadj : s.Adjacent) {t : TrigonRef} (ht : s.Live t)
    (i : Fin 3) : s.SharesOneSide t i := by
  intro k hne hk
  obtain ⟨u, hu⟩ := Option.ne_none_iff_exists'.mp hne
  obtain ⟨j, hj⟩ := hadj.link_of_nbtri hu
  obtain ⟨l, hl⟩ := hadj.link_of_nbtri (hk.trans hu)
  have hposT := h.area_at ht i
  have hposU := h.area_at (hadj.symmetric _ _ ht hj).1 j
  obtain ⟨e1, e2⟩ := hadj.ends _ _ _ _ hj
  obtain ⟨f1, f2⟩ := hadj.ends _ _ _ _ hl
  dsimp only at hposU
  -- a second shared side would make `u` the trigon `t` turned over, or one of them flat
  have hturned : s.vex u j ≠ s.vex t i := by
    intro he
    rw [he, e1, e2] at hposU
    have hback : orient (s.vex t i).xy (s.vex t (i + 2)).xy (s.vex t (i + 1)).xy =
        -orient (s.vex t i).xy (s.vex t (i + 1)).xy (s.vex t (i + 2)).xy := by
      simp only [orient]
      ring
    linarith
  have hflat1 : s.vex t i ≠ s.vex t (i + 1) := by
    intro he
    rw [he] at hposT
    simp [orient] at hposT
  have hflat2 : s.vex t i ≠ s.vex t (i + 2) := by
    intro he
    rw [he] at hposT
    simp only [orient] at hposT
    linarith
  by_contra hki
  have hlj : l ≠ j := by
    rintro rfl
    exact hki (congrArg Prod.snd (hadj.symmetric.unshared (t, k) (t, i) (u, l) ht ht hl hj))
  rcases (side_cases i k).resolve_left hki with rfl | rfl <;>
    rcases (side_cases j l).resolve_left hlj with rfl | rfl <;>
    simp only [side_one_one, side_one_two, side_two_one, side_two_two] at f1 f2
  · exact hflat1 (f1.symm.trans e2)
  · exact hturned f1
  · exact hturned f2
  · exact hflat2 (f2.symm.trans e1)

/-- Two positive trigons whose determinant is not negative form a convex quadrilateral. -/
lemma Positive.convex (h : s.Positive) (hadj : s.Adjacent) {t u : TrigonRef} {i j : Fin 3}
    (ht : s.Live t) (hl : s.link (t, i) = some (u, j)) (hdet : 0 ≤ s.determinant t u j) :
    0 < orient (s.vex u j).xy (s.vex t (i + 2)).xy (s.vex t (i + 1)).xy ∧
      0 < orient (s.vex t i).xy (s.vex t (i + 1)).xy (s.vex u j).xy ∧
      0 < orient (s.vex u j).xy (s.vex t (i + 2)).xy (s.vex t i).xy := by
  have h1 := h.area_at ht i
  have h2 := h.area_at (hadj.symmetric _ _ ht hl).1 j
  obtain ⟨e1, e2⟩ := hadj.ends _ _ _ _ hl
  dsimp only at h2
  rw [e1, e2] at h2
  rw [← determinant_at s t u i] at hdet
  exact ⟨h2, flip_convex h1 h2 hdet⟩

lemma exchangable_pos (h : s.Positive) (hadj : s.Adjacent) {edge : QueueNode} {p2 : TrigonRef}
    {vid1 : Fin 3} (ht : s.Live edge.trigon)
    (hl : s.link (edge.trigon, edge.vid) = some (p2, vid1))
    (hx : s.exchangable edge = .ok true) :
    0 < area2 ![s.vex edge.trigon edge.vid, s.vex edge.trigon (edge.vid + 1), s.vex p2 vid1] ∧
      0 < area2 ![s.vex p2 vid1, s.vex p2 (vid1 + 1), s.vex edge.trigon edge.vid] := by
  rw [exchangable_eq hl] at hx
  have hconvex := (h.convex hadj ht hl (by simpa using hx)).2
  rw [← (hadj.ends _ _ _ _ hl).1] at hconvex
  exact hconvex

end Positive

section Steps

variable [Field K] {s s' : Net K} {v : Vertex K} {t : TrigonRef}

lemma total_newMids (h : s.Adjacent) (f : (Fin 3 → Vertex K) → K) :
    (s.newMids v t).total f = s.total f :=
  total_congr f rfl fun u hu => (s.newMids_old v t (s.ne_mids (h.old u hu))).1

lemma total_newPair (h : s.Adjacent) {p1 p2 : TrigonRef} {vid vid1 : Fin 3}
    (f : (Fin 3 → Vertex K) → K) : (s.newPair p1 vid p2 vid1).total f = s.total f :=
  total_congr f rfl fun u hu =>
    (s.newPair_old p1 vid p2 vid1 (h.old u hu).ne (Nat.lt_add_right 1 (h.old u hu)).ne).1

variable [LinearOrder K] [FloorRing K]

/-- What `InsertMid` does to a total. -/
lemma insertMid_total (h : s.Adjacent) (ht : s.Live t) (hr : s.insertMid v t = .ok s')
    (f : (Fin 3 → Vertex K) → K) : s'.total f + f (s.vex t) = s.total f +
      (f (fun j => if 0 ≠ j then s.vex t j else v) + f (fun j => if 1 ≠ j then s.vex t j else v) +
        f (fun j => if 2 ≠ j then s.vex t j else v)) := by
  have hsum := (insertMid_ok h ht hr).2.total (by simp)
    (by simp only [List.mem_singleton, forall_eq]; exact ht) f
  simp only [List.map_cons, List.map_nil, List.sum_cons, List.sum_nil, add_zero, total_newMids h,
    (s.newMids_new v t _).1, (s.newMids_old v t (s.ne_mids (h.old t ht))).1] at hsum
  rw [hsum]
  ring

/-- What `ChangeEdge` does to a total. -/
lemma changeEdge_total {edge : QueueNode} {p2 : TrigonRef} {vid1 : Fin 3} (h : s.Adjacent)
    (ht : s.Live edge.trigon) (hl : s.link (edge.trigon, edge.vid) = some (p2, vid1))
    (hone : s.SharesOneSide edge.trigon edge.vid) (hr : s.changeEdge edge = .ok s')
    (f : (Fin 3 → Vertex K) → K) :
    s'.total f + (f (s.vex edge.trigon) + f (s.vex p2)) = s.total f +
      (f ![s.vex edge.trigon edge.vid, s.vex edge.trigon (edge.vid + 1), s.vex p2 vid1] +
        f ![s.vex p2 vid1, s.vex p2 (vid1 + 1), s.vex edge.trigon edge.vid]) := by
  have hp2 := (h.symmetric _ _ ht hl).1
  have hold : ∀ u, s.Live u → (s.newPair edge.trigon edge.vid p2 vid1).vex u = s.vex u := fun u hu =>
    (s.newPair_old _ _ _ _ (h.old u hu).ne (Nat.lt_add_right 1 (h.old u hu)).ne).1
  have hsum := (changeEdge_ok h ht hl hone hr).2.total
    (by simpa using (h.known _ _ _ _ hl).2.2.symm)
    (by simp only [List.mem_cons, List.not_mem_nil, or_false, forall_eq_or_imp, forall_eq]
        exact ⟨ht, hp2⟩) f
  simp only [List.map_cons, List.map_nil, List.sum_cons, List.sum_nil, add_zero, total_newPair h,
    (s.newPair_first _ _ _ _).1, (s.newPair_second _ _ _ _).1, hold _ ht, hold _ hp2] at hsum
  exact hsum

variable [IsStrictOrderedRing K]

/-- A split at an inner point keeps the trigons positive. -/
theorem insertMid_positive (h : s.Adjacent) (hp : s.Positive) (ht : s.Live t)
    (hv : vexPosition (s.vex t) v = 3) (hr : s.insertMid v t = .ok s') : s'.Positive := by
  obtain ⟨-, hreb⟩ := insertMid_ok h ht hr
  intro u hu
  rw [hreb.vex]
  rcases (hreb.live_iff h.nodup u).mp hu with ⟨hl, -⟩ | hn
  · rw [(s.newMids_old v t (s.ne_mids (h.old u hl))).1]
    exact hp u hl
  · obtain ⟨i, rfl⟩ : ∃ i, u = s.mids i := by simpa [Fin.exists_fin_succ] using hn
    rw [(s.newMids_new v t i).1, ← area2_at _ i]
    simp only [ne_eq, not_true_eq_false, if_false, side_ne_one, side_ne_two, not_false_eq_true,
      if_true]
    rw [← orient_rotate, ← side_one_one]
    exact vexPosition_inside hv (hp t ht) (i + 1)

/-- A flip that `Exchangable` admits keeps the trigons positive. -/
theorem changeEdge_positive {edge : QueueNode} (h : s.Adjacent) (hp : s.Positive)
    (ht : s.Live edge.trigon) (hx : s.exchangable edge = .ok true)
    (hr : s.changeEdge edge = .ok s') : s'.Positive := by
  obtain ⟨p2, vid1, hl⟩ := link_of_exchangable hx
  obtain ⟨-, hreb⟩ := changeEdge_ok h ht hl (hp.sharesOneSide h ht _) hr
  obtain ⟨h1, h2⟩ := exchangable_pos hp h ht hl hx
  intro u hu
  rw [hreb.vex]
  rcases (hreb.live_iff h.nodup u).mp hu with ⟨hlu, -⟩ | hn
  · rw [(s.newPair_old _ _ _ _ (h.old u hlu).ne (Nat.lt_add_right 1 (h.old u hlu)).ne).1]
    exact hp u hlu
  · simp only [List.mem_cons, List.not_mem_nil, or_false] at hn
    rcases hn with rfl | rfl
    · rw [(s.newPair_first _ _ _ _).1]
      exact h1
    · rw [(s.newPair_second _ _ _ _).1]
      exact h2

/-- Splitting a trigon keeps the total area. -/
lemma insertMid_area (h : s.Adjacent) (ht : s.Live t) (hr : s.insertMid v t = .ok s') :
    s'.total area2 = s.total area2 := by
  have hsum := insertMid_total h ht hr area2
  have hsplit := orient_split (s.vex t 0).xy (s.vex t 1).xy (s.vex t 2).xy v.xy
  have h02 : (0 : Fin 3) ≠ 2 := by decide
  have h12 : (1 : Fin 3) ≠ 2 := by decide
  simp [area2, h02, h12, h02.symm, h12.symm] at hsum
  linarith

lemma changeEdge_area {edge : QueueNode} (h : s.Adjacent) (hp : s.Positive)
    (ht : s.Live edge.trigon) (hx : s.exchangable edge = .ok true)
    (hr : s.changeEdge edge = .ok s') : s'.total area2 = s.total area2 := by
  obtain ⟨p2, vid1, hl⟩ := link_of_exchangable hx
  have hsum := changeEdge_total h ht hl (hp.sharesOneSide h ht _) hr area2
  obtain ⟨e1, e2⟩ := h.ends _ _ _ _ hl
  rw [← area2_at (s.vex edge.trigon) edge.vid, ← area2_at (s.vex p2) vid1, e1, e2] at hsum
  have hflip := flip_orient (s.vex edge.trigon edge.vid).xy (s.vex edge.trigon (edge.vid + 1)).xy
    (s.vex edge.trigon (edge.vid + 2)).xy (s.vex p2 vid1).xy
  simp only [area2, Matrix.cons_val_zero, Matrix.cons_val_one, Matrix.cons_val_two, Matrix.tail_cons,
    Matrix.head_cons] at hsum
  linarith

end Steps

section StartPolygon

variable [Field K] [LinearOrder K] [FloorRing K]

/-- The points of the remaining polygon. -/
def outlinePoints (nodes : List (PolygonNode K)) : List (K × K) := nodes.map fun n => n.vertex.xy

/-- What the net and the remaining polygon cover together. -/
def covered (sp : Net K × List (PolygonNode K)) : K :=
  sp.1.total area2 + polygon2 (outlinePoints sp.2)

lemma appendTrigon_area {s s' : Net K} {nodes nodes' : List (PolygonNode K)} (h : s.Adjacent)
    (ho : s.Outline nodes) (hr : Polygon.appendTrigon s nodes = .ok (s', nodes')) :
    covered (s', nodes') = covered (s, nodes) := by
  obtain ⟨-, -, edge, hcut, hreb⟩ := appendTrigon_adjacent h ho hr
  have hsum := hreb.total List.nodup_nil (by simp) area2
  have hold : (s.appended edge).total area2 = s.total area2 :=
    total_congr area2 rfl fun u hu => appended_vex_old (h.old u hu).ne
  simp only [List.map_nil, List.map_cons, List.sum_nil, List.sum_cons, add_zero, hold,
    appended_vex_new] at hsum
  unfold covered
  rw [hsum, add_assoc]
  congr 1
  cases hcut with
  | last hd b c =>
    simp only [outlinePoints, List.map_cons, List.map_nil, polygon2_cut, polygon2_pair]
    rfl
  | ear hd b c d rest =>
    simp only [outlinePoints, List.map_cons, polygon2_cut hd.vertex.xy b.vertex.xy]
    rfl

/-- A call of `triangulize` moves area from the polygon to the net. -/
lemma triangulizeBody_area {sp sp' : Net K × List (PolygonNode K)}
    (h : sp.1.Adjacent ∧ sp.1.Outline sp.2) (hr : Iteration Polygon.triangulizeBody sp sp') :
    covered sp' = covered sp := by
  unfold Iteration Polygon.triangulizeBody at hr
  split_ifs at hr
  · simp [pure, Except.pure] at hr
  · simp only [bind_eq_ok, pure, Except.pure, Except.ok.injEq, Option.some.injEq] at hr
    obtain ⟨⟨s1, nodes1⟩, h1, rfl⟩ := hr
    exact appendTrigon_area h.1 h.2 h1
  · simp only [pure, Except.pure, Except.ok.injEq, Option.some.injEq] at hr
    subst hr
    obtain ⟨s, nodes⟩ := sp
    cases nodes with
    | nil => rfl
    | cons n rest =>
      simp only [covered, outlinePoints, Polygon.turn, List.map_append, List.map_cons, List.map_nil,
        polygon2_turn]

/-- The triangulation covers the start polygon. -/
theorem triangulize_area {p : ListParam K} {vs : List (Vertex K)} {fuel : ℕ} {s : Net K}
    (h : Polygon.triangulize fuel (create p) (Polygon.ofVertices vs) = .ok s) :
    s.total area2 = polygon2 (vs.map Vertex.xy) := by
  simp only [Polygon.triangulize, bind_eq_ok, pure, Except.pure, Except.ok.injEq] at h
  obtain ⟨⟨s, nodes⟩, hrun, rfl⟩ := h
  obtain ⟨⟨-, hcov⟩, hexit⟩ := invariant_of_run (I := fun sp => (sp.1.Adjacent ∧ sp.1.Outline sp.2) ∧
      covered sp = covered (create p, Polygon.ofVertices vs))
    (fun _ _ h hr => ⟨triangulizeBody_adjacent h.1 hr, (triangulizeBody_area h.1 hr).trans h.2⟩)
    hrun ⟨⟨create_adjacent p, outline_ofVertices _ vs⟩, rfl⟩
  have hdone : polygon2 (outlinePoints nodes) = 0 := by
    unfold Polygon.triangulizeBody at hexit
    dsimp only at hexit
    split_ifs at hexit with hlen hcut
    · rcases hlen with hlen | hlen
      · rw [List.length_eq_zero_iff.mp hlen]
        rfl
      · obtain ⟨a, b, rfl⟩ := List.length_eq_two.mp hlen
        exact polygon2_pair _ _
    · simp only [bind_eq_ok, pure, Except.pure, Except.ok.injEq] at hexit
      obtain ⟨_, -, hexit⟩ := hexit
      exact absurd hexit (by simp)
    · simp [pure, Except.pure] at hexit
  have hstart : covered (create p, Polygon.ofVertices vs) = polygon2 (vs.map Vertex.xy) := by
    simp [covered, total, create, outlinePoints, Polygon.ofVertices, Function.comp_def]
  simp only [covered, hdone, add_zero] at hcov
  rw [hcov, ← hstart, covered]

end StartPolygon

section Soundness

variable [Field K] [LinearOrder K] [FloorRing K] [IsStrictOrderedRing K]

/-- The signed area of a trigon. -/
def signedArea (vex : Fin 3 → Vertex K) : K := area2 vex / 2

lemma positive_of_signedArea {s : Net K} (h : ∀ t, s.Live t → 0 < signedArea (s.vex t)) :
    s.Positive := fun t ht => pos_of_mul_pos_left
  (by simpa only [signedArea, div_eq_mul_inv] using h t ht) (by norm_num)

/-- The area of a polygon, by the shoelace formula. -/
def polygonArea (vs : List (Vertex K)) : K := |polygon2 (vs.map Vertex.xy)| / 2

/-- The calls that insert only inner points and flip only exchangable edges. -/
abbrev LegalRun : Net K → Net K → Prop :=
  Edited (fun s v t => vexPosition (s.vex t) v = 3) (fun s edge => s.exchangable edge = .ok true)

/-- Legal calls keep a positive net positive and its area unchanged. -/
theorem LegalRun.positive {s₀ s : Net K} (h : LegalRun s₀ s) (hadj : s₀.Adjacent)
    (hpos : s₀.Positive) : s.Adjacent ∧ s.Positive ∧ s.total area2 = s₀.total area2 := by
  induction h with
  | start => exact ⟨hadj, hpos, rfl⟩
  | insertMid _ ht hv hr ih =>
    obtain ⟨ha, hp, hs⟩ := ih
    exact ⟨(insertMid_ok ha ht hr).1, insertMid_positive ha hp ht hv hr,
      (insertMid_area ha ht hr).trans hs⟩
  | changeEdge _ ht hx hr ih =>
    obtain ⟨ha, hp, hs⟩ := ih
    obtain ⟨p2, vid1, hl⟩ := link_of_exchangable hx
    exact ⟨(changeEdge_ok ha ht hl (hp.sharesOneSide ha ht _) hr).1,
      changeEdge_positive ha hp ht hx hr, (changeEdge_area ha hp ht hx hr).trans hs⟩

/-- In every net that legal calls make of a positive triangulation of a start polygon, all
trigons have positive area, and together the area of the polygon. -/
theorem net_covers_polygon {p : ListParam K} {vs : List (Vertex K)} {fuel : ℕ} {s₀ s : Net K}
    (h₀ : Polygon.triangulize fuel (create p) (Polygon.ofVertices vs) = .ok s₀)
    (hpos : ∀ t, s₀.Live t → 0 < signedArea (s₀.vex t)) (h : LegalRun s₀ s) :
    (∀ t, s.Live t → 0 < signedArea (s.vex t)) ∧
      (s.trigonIndex.map fun t => signedArea (s.vex t)).sum = polygonArea vs := by
  obtain ⟨-, hp, htotal⟩ :=
    LegalRun.positive h (triangulize_adjacent h₀) (positive_of_signedArea hpos)
  rw [triangulize_area h₀] at htotal
  refine ⟨fun t ht => half_pos (hp t ht), ?_⟩
  have hnonneg : 0 ≤ s.total area2 := by
    refine List.sum_nonneg fun x hx => ?_
    obtain ⟨t, ht, rfl⟩ := List.mem_map.mp hx
    exact (hp t ht).le
  have hhalf : (s.trigonIndex.map fun t => signedArea (s.vex t)).sum = s.total area2 / 2 := by
    simp only [signedArea, div_eq_mul_inv, List.sum_map_mul_right]
    rfl
  rw [hhalf, polygonArea, ← htotal, abs_of_nonneg hnonneg]

theorem net_covers_square : ∃ s₀ s₁ s,
    Polygon.triangulize 4 (create unitGrid) (Polygon.ofVertices square) = .ok s₀ ∧
      s₀.changeEdge ⟨10, 0, 1⟩ = .ok s₁ ∧ s₁.insertMid midpoint 3 = .ok s ∧
      (∀ t, s.Live t → 0 < signedArea (s.vex t)) ∧
        (s.trigonIndex.map fun t => signedArea (s.vex t)).sum = polygonArea square := by
  have h : passes (Polygon.triangulize 4 (create unitGrid) (Polygon.ofVertices square))
      (fun s₀ => passes (s₀.changeEdge ⟨10, 0, 1⟩) fun s₁ => passes (s₁.insertMid midpoint 3) fun _ =>
        decide ((∀ t ∈ s₀.trigonIndex, 0 < signedArea (s₀.vex t)) ∧ s₀.Live 0 ∧
          s₀.exchangable ⟨10, 0, 1⟩ = .ok true ∧ s₁.Live 3 ∧
          vexPosition (s₁.vex 3) midpoint = 3)) = true := by
    decide +kernel
  obtain ⟨s₀, h₀, h⟩ := exists_of_passes h
  obtain ⟨s₁, h₁, h⟩ := exists_of_passes h
  obtain ⟨s, hs, h⟩ := exists_of_passes h
  obtain ⟨hpos, hl₀, hx, hl₁, hv⟩ := of_decide_eq_true h
  exact ⟨s₀, s₁, s, h₀, h₁, hs, net_covers_polygon h₀ hpos
    (.insertMid (.changeEdge .start hl₀ hx h₁) hl₁ hv hs)⟩

end Soundness

end Net

end MTalk.Triangle
