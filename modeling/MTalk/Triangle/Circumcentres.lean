import MTalk.Triangle.Rings

/-!
# Circumcentres and the Voronoi polygons

`Insert` computes the circumcentre of a trigon when it enters the net. The vertices of a trigon are
never written again, so the centre stays right while splits and flips rewire the net, and the
polygon of `GetInsideVorPoly` has the circumcentres of the trigons around its vertex.
-/

namespace MTalk.Triangle

open PlaneGeometry WhileLoop

section Formula

variable {K : Type} [Field K]

/-- The two quotients of `SetHeart`, above and below the line. -/
def heartNumerators (vex : Fin 3 → Vertex K) : K × K :=
  let x := fun i => (vex i).coord.x
  let y := fun i => (vex i).coord.y
  let k11 := (x 0 - x 1) * 2
  let k12 := (y 0 - y 1) * 2
  let k21 := (x 0 - x 2) * 2
  let k22 := (y 0 - y 2) * 2
  let d1 := (x 0 - x 1) * (x 0 + x 1) + (y 0 - y 1) * (y 0 + y 1)
  let d2 := (x 0 - x 2) * (x 0 + x 2) + (y 0 - y 2) * (y 0 + y 2)
  (d1 * k22 - d2 * k12, d1 * k21 - d2 * k11)

def heartDenominators (vex : Fin 3 → Vertex K) : K × K :=
  let x := fun i => (vex i).coord.x
  let y := fun i => (vex i).coord.y
  let k11 := (x 0 - x 1) * 2
  let k12 := (y 0 - y 1) * 2
  let k21 := (x 0 - x 2) * 2
  let k22 := (y 0 - y 2) * 2
  (k11 * k22 - k12 * k21, k12 * k21 - k22 * k11)

lemma heartDenominators_eq (vex : Fin 3 → Vertex K) :
    heartDenominators vex = (4 * area2 vex, -(4 * area2 vex)) := by
  ext
  · simp only [heartDenominators, area2, orient, GVector.xy]
    ring
  · simp only [heartDenominators, area2, orient, GVector.xy]
    ring

lemma setHeart_eq [LinearOrder K] (vex : Fin 3 → Vertex K) : setHeart vex =
    ⟨(heartNumerators vex).1 / (heartDenominators vex).1,
      (heartNumerators vex).2 / (heartDenominators vex).2, 0⟩ := rfl

/-- The point has the same distance to the three vertices. -/
def Equidistant (vex : Fin 3 → Vertex K) (o : K × K) : Prop :=
  ∀ i j, dist2 o (vex i).xy = dist2 o (vex j).xy

lemma dist2_center {a b : K × K} {p q : K} (h : (a.1 - b.1) * 2 * p + (a.2 - b.2) * 2 * q =
    (a.1 - b.1) * (a.1 + b.1) + (a.2 - b.2) * (a.2 + b.2)) :
    dist2 (p, q) a = dist2 (p, q) b := by
  simp only [dist2]
  linear_combination -h

/-- `SetHeart` finds the circumcentre of a trigon that is not flat. -/
theorem setHeart_equidistant [LinearOrder K] [IsStrictOrderedRing K] {vex : Fin 3 → Vertex K}
    (h : area2 vex ≠ 0) : Equidistant vex (setHeart vex).xy := by
  have hden : (4 * area2 vex) ≠ 0 := mul_ne_zero four_ne_zero h
  have hx : (setHeart vex).x * (4 * area2 vex) = (heartNumerators vex).1 := by
    rw [setHeart_eq, heartDenominators_eq]
    exact div_mul_cancel₀ _ hden
  have hy : (setHeart vex).y * (4 * area2 vex) = -(heartNumerators vex).2 := by
    rw [setHeart_eq, heartDenominators_eq]
    dsimp only
    rw [div_neg, neg_mul, div_mul_cancel₀ _ hden]
  have hfirst : dist2 (setHeart vex).xy (vex 0).xy = dist2 (setHeart vex).xy (vex 1).xy := by
    apply dist2_center
    apply mul_right_cancel₀ hden
    simp only [heartNumerators, area2, orient, GVector.xy] at hx hy ⊢
    linear_combination ((vex 0).coord.x - (vex 1).coord.x) * 2 * hx
      + ((vex 0).coord.y - (vex 1).coord.y) * 2 * hy
  have hsecond : dist2 (setHeart vex).xy (vex 0).xy = dist2 (setHeart vex).xy (vex 2).xy := by
    apply dist2_center
    apply mul_right_cancel₀ hden
    simp only [heartNumerators, area2, orient, GVector.xy] at hx hy ⊢
    linear_combination ((vex 0).coord.x - (vex 2).coord.x) * 2 * hx
      + ((vex 0).coord.y - (vex 2).coord.y) * 2 * hy
  have hall : ∀ i, dist2 (setHeart vex).xy (vex i).xy = dist2 (setHeart vex).xy (vex 0).xy := by
    intro i
    fin_cases i
    · rfl
    · exact hfirst.symm
    · exact hsecond.symm
  exact fun i j => (hall i).trans (hall j).symm

end Formula

namespace Net

variable {K : Type} [Field K] [LinearOrder K] [FloorRing K]

/-- `GetInsideVorPoly`, `none` for `null`. -/
def getInsideVorPoly (s : Net K) (fuel : ℕ) (vertex : Option (Vertex K)) :
    Except Stop (Option (List (GVector K))) := do
  let ts ← s.getCommonVertexTrigon fuel vertex
  return ts.map fun ts => ts.map fun c => s.heart c.1

/-! What the index records of the live trigons. -/

/-- The live trigons are filed in their cells and have their circumcentres. -/
structure Recorded (s : Net K) : Prop where
  ready : QueryList.Ready s
  heart : ∀ t, s.Live t → s.heart t = setHeart (s.vex t)

section Recorded

variable {s s' : Net K}

lemma Recorded.congr (h : s.Recorded) (hcells : s'.cells = s.cells)
    (hindex : s'.trigonIndex = s.trigonIndex) (hlistp : s'.listp = s.listp)
    (hvex : ∀ t, s.Live t → s'.vex t = s.vex t) (hheart : ∀ t, s.Live t → s'.heart t = s.heart t) :
    s'.Recorded := by
  refine ⟨⟨⟨fun r c u => ?_, fun r c => ?_⟩, fun t ht i => ?_⟩, fun t ht => ?_⟩
  · rw [hcells, hindex, hlistp, h.ready.filed.mem_iff]
    exact and_congr_right fun hu => by rw [hvex u hu]
  · rw [hcells]
    exact h.ready.filed.nodup r c
  · rw [hindex] at ht
    rw [hlistp, hvex t ht]
    exact h.ready.inside t ht i
  · rw [Live, hindex] at ht
    rw [hvex t ht, hheart t ht]
    exact h.heart t ht

omit [Field K] [LinearOrder K] [FloorRing K] in
/-- `Insert` has a cell in the grid for each cell of the box. -/
lemma insertCells_inRange {p : ListParam K} {trigon : TrigonRef} {rcs : List (ℤ × ℤ)}
    {cells cells' : ℤ → ℤ → List TrigonRef}
    (h : rcs.foldlM (QueryList.insertCell p trigon) cells = .ok cells') :
    ∀ rc ∈ rcs, p.InRange rc.1 rc.2 := by
  induction rcs generalizing cells with
  | nil => simp
  | cons rc rcs ih =>
    rw [List.foldlM_cons, bind_eq_ok] at h
    obtain ⟨cells₁, h₁, h⟩ := h
    have hrange : p.InRange rc.1 rc.2 := by
      unfold QueryList.insertCell at h₁
      split_ifs at h₁ with hin <;> exact hin
    exact List.forall_mem_cons.mpr ⟨hrange, ih h⟩

lemma deleteTrigon_recorded {t : TrigonRef} (h : s.Recorded) (hw : s.Wired)
    (hnd : s.trigonIndex.Nodup) (hr : s.deleteTrigon t = .ok s') : s'.Recorded ∧ s'.Wired ∧
      s'.trigonIndex.Nodup ∧ s'.listp = s.listp := by
  obtain ⟨cells, e, q, nb, nv, rfl, hcells, -, hcleared⟩ := deleteTrigon_ok hw hr
  have hdelete : QueryList.delete s t = .ok { s with
      cells := cells
      trigonIndex := s.trigonIndex.erase t } := bind_eq_ok.mpr ⟨cells, hcells, rfl⟩
  have hfiled := QueryList.delete_filed h.ready.filed (List.nodup_iff_count_le_one.mp hnd t) hdelete
  refine ⟨⟨⟨⟨hfiled.mem_iff, hfiled.nodup⟩, fun u hu => ?_⟩, fun u hu => ?_⟩,
    hcleared.wired hw rfl rfl rfl rfl, hnd.erase t, rfl⟩
  · exact h.ready.inside u (List.mem_of_mem_erase hu)
  · exact h.heart u (List.mem_of_mem_erase hu)

lemma deleteTrigons_recorded {ts : List TrigonRef} (h : s.Recorded) (hw : s.Wired)
    (hnd : s.trigonIndex.Nodup) (hr : ts.foldlM deleteTrigon s = .ok s') : s'.Recorded ∧ s'.Wired ∧
      s'.listp = s.listp := by
  induction ts generalizing s with
  | nil =>
    simp only [List.foldlM_nil, pure, Except.pure, Except.ok.injEq] at hr
    exact hr ▸ ⟨h, hw, rfl⟩
  | cons t ts ih =>
    rw [List.foldlM_cons, bind_eq_ok] at hr
    obtain ⟨s₁, h₁, hr⟩ := hr
    obtain ⟨hrec, hw₁, hnd₁, hlistp⟩ := deleteTrigon_recorded h hw hnd h₁
    obtain ⟨hrec', hw', hlistp'⟩ := ih hrec hw₁ hnd₁ hr
    exact ⟨hrec', hw', hlistp'.trans hlistp⟩

variable [IsStrictOrderedRing K]

lemma insertTrigon_recorded {t : TrigonRef} (h : s.Recorded) (hw : s.Wired)
    (hsize : 0 < s.listp.cellsize) (hr : s.insertTrigon t = .ok s') : s'.Recorded ∧ s'.Wired ∧
      s'.listp = s.listp := by
  obtain ⟨cells, nb, nv, rfl, hcells, hglued⟩ := insertTrigon_ok (hw.no_self t) hr
  have hinsert : QueryList.insert s t = .ok { s with
      cells := cells
      trigonIndex := s.trigonIndex ++ [t]
      heart := Function.update s.heart t (setHeart (s.vex t)) } :=
    bind_eq_ok.mpr ⟨cells, hcells, rfl⟩
  have hfiled := QueryList.insert_filed h.ready.filed hinsert
  refine ⟨⟨⟨⟨hfiled.mem_iff, hfiled.nodup⟩, fun u hu => ?_⟩, fun u hu => ?_⟩,
    hglued.wired hw rfl rfl rfl rfl, rfl⟩
  · rcases List.mem_append.mp hu with hu | hu
    · exact h.ready.inside u hu
    · obtain rfl := List.mem_singleton.mp hu
      exact fun i => insertCells_inRange hcells _ (ListParam.mem_box_of_vertex hsize _ i)
  · change Function.update s.heart t (setHeart (s.vex t)) u = setHeart (s.vex u)
    by_cases hut : u = t
    · rw [hut, Function.update_self]
    · rw [Function.update_of_ne hut]
      refine h.heart u ((List.mem_append.mp hu).resolve_right fun hin => hut ?_)
      exact List.mem_singleton.mp hin

lemma insertTrigons_recorded {ts : List TrigonRef} (h : s.Recorded) (hw : s.Wired)
    (hsize : 0 < s.listp.cellsize) (hr : ts.foldlM insertTrigon s = .ok s') : s'.Recorded := by
  induction ts generalizing s with
  | nil =>
    simp only [List.foldlM_nil, pure, Except.pure, Except.ok.injEq] at hr
    exact hr ▸ h
  | cons t ts ih =>
    rw [List.foldlM_cons, bind_eq_ok] at hr
    obtain ⟨s₁, h₁, hr⟩ := hr
    obtain ⟨hrec, hw₁, hlistp⟩ := insertTrigon_recorded h hw hsize h₁
    exact ih hrec hw₁ (hlistp ▸ hsize) hr

/-- Replacing trigons keeps the records. -/
lemma rebuild_recorded {s₁ : Net K} {olds news : List TrigonRef} (h : s.Recorded) (hw : s.Wired)
    (hnd : s.trigonIndex.Nodup) (hsize : 0 < s.listp.cellsize)
    (h₁ : olds.foldlM deleteTrigon s = .ok s₁) (h₂ : news.foldlM insertTrigon s₁ = .ok s') :
    s'.Recorded := by
  obtain ⟨hrec, hw₁, hlistp⟩ := deleteTrigons_recorded h hw hnd h₁
  exact insertTrigons_recorded hrec hw₁ (hlistp ▸ hsize) h₂

lemma insertMid_recorded {v : Vertex K} {t : TrigonRef} (hs : s.Adjacent) (h : s.Recorded)
    (hsize : 0 < s.listp.cellsize) (hr : s.insertMid v t = .ok s') : s'.Recorded := by
  obtain ⟨s₁, s₂, h₁, h₂, rfl⟩ := insertMid_eq_ok.mp hr
  obtain ⟨n, e, q, he⟩ := enterEdges_eq s₂ [(s.mids 0, 0), (s.mids 1, 1), (s.mids 2, 2)]
  have hnew : (s.newMids v t).Recorded := by
    refine h.congr rfl rfl rfl (fun u hu => (s.newMids_old v t (s.ne_mids (hs.old u hu))).1) ?_
    intro u hu
    have hne := s.ne_mids (hs.old u hu)
    have h₀ : u ≠ s.trigonCount := hne 0
    have h₁ : u ≠ s.trigonCount + 1 := hne 1
    have h₂ : u ≠ s.trigonCount + 1 + 1 := hne 2
    simp [newMids, newMid, newTrigon, h₀, h₁, h₂]
  rw [he]
  exact (rebuild_recorded hnew (newMids_wired hs.toWired v t) hs.nodup hsize h₁ h₂).congr
    rfl rfl rfl (fun _ _ => rfl) (fun _ _ => rfl)

lemma changeEdge_recorded {edge : QueueNode} {p2 : TrigonRef} {vid1 : Fin 3} (hs : s.Adjacent)
    (hl : s.link (edge.trigon, edge.vid) = some (p2, vid1)) (h : s.Recorded)
    (hsize : 0 < s.listp.cellsize) (hr : s.changeEdge edge = .ok s') : s'.Recorded := by
  obtain ⟨s₁, s₂, h₁, h₂, rfl⟩ := (changeEdge_eq_ok hl).mp hr
  obtain ⟨n, e, q, he⟩ := enterOuters_eq s₂ [(s.trigonCount, 0), (s.trigonCount, 2),
    (s.trigonCount + 1, 0), (s.trigonCount + 1, 2)]
  have hnew : (s.newPair edge.trigon edge.vid p2 vid1).Recorded := by
    have hne : ∀ u, s.Live u → u ≠ s.trigonCount ∧ u ≠ s.trigonCount + 1 := fun u hu =>
      ⟨(hs.old u hu).ne, (Nat.lt_add_right 1 (hs.old u hu)).ne⟩
    refine h.congr rfl rfl rfl (fun u hu => ?_) fun u hu => ?_
    · exact (s.newPair_old _ _ _ _ (hne u hu).1 (hne u hu).2).1
    · simp [newPair, newTrigon, hne u hu]
  rw [he]
  exact (rebuild_recorded hnew (newPair_wired hs.toWired hl) hs.nodup hsize h₁ h₂).congr
    rfl rfl rfl (fun _ _ => rfl) (fun _ _ => rfl)

/-- The triangulation of the start polygon records its trigons too. -/
lemma appendTrigon_recorded {nodes nodes' : List (PolygonNode K)} (hs : s.Adjacent)
    (ho : s.Outline nodes) (h : s.Recorded) (hsize : 0 < s.listp.cellsize)
    (hr : Polygon.appendTrigon s nodes = .ok (s', nodes')) : s'.Recorded := by
  obtain ⟨edge, s₁, hcut, h₁, h₂⟩ := appendTrigon_ok hr
  obtain ⟨hbehind, -⟩ := ho.edges hcut
  obtain ⟨n, e, q, rfl⟩ := checkTrigonEdge_ok h₂
  have hnew : (s.appended edge).Recorded := by
    refine h.congr rfl rfl rfl (fun u hu => appended_vex_old (hs.old u hu).ne) fun u hu => ?_
    simp [appended, newTrigon, (hs.old u hu).ne]
  obtain ⟨hrec, -⟩ := insertTrigon_recorded hnew (hs.appended hbehind).toWired hsize h₁
  exact hrec.congr rfl rfl rfl (fun _ _ => rfl) (fun _ _ => rfl)

end Recorded

/-! Runs. -/

/-- What holds of the nets that legal calls make of a positive triangulation without overlaps; the
vertices in `outer` are those of the start polygon. -/
structure Regular (outer : List (Vertex K)) (s : Net K) : Prop where
  adjacent : s.Adjacent
  positive : s.Positive
  apart : s.Apart
  recorded : s.Recorded
  cellsize : 0 < s.listp.cellsize
  encircled : ∀ v ∉ outer, s.Encircled v

section Runs

variable {s s' s₀ : Net K} {p : ListParam K} {vs : List (Vertex K)}

lemma create_recorded (p : ListParam K) : (create p).Recorded := by
  refine ⟨⟨⟨?_, ?_⟩, ?_⟩, ?_⟩ <;> simp [create, Live]

variable [IsStrictOrderedRing K]

/-- The triangulation of a start polygon has its records and the vertices of the polygon. -/
lemma triangulize_recorded {fuel : ℕ} (hsize : 0 < p.cellsize)
    (h : Polygon.triangulize fuel (create p) (Polygon.ofVertices vs) = .ok s) :
    s.Recorded ∧ s.listp = p ∧ ∀ t, s.Live t → ∀ i, s.vex t i ∈ vs := by
  simp only [Polygon.triangulize, bind_eq_ok, pure, Except.pure, Except.ok.injEq] at h
  obtain ⟨⟨s, nodes⟩, hrun, rfl⟩ := h
  have hinv := invariant_of_run (I := fun sp : Net K × List (PolygonNode K) =>
      (sp.1.Adjacent ∧ sp.1.Outline sp.2) ∧ sp.1.Recorded ∧ sp.1.listp = p ∧
        (∀ t, sp.1.Live t → ∀ i, sp.1.vex t i ∈ vs) ∧ ∀ n ∈ sp.2, n.vertex ∈ vs)
    (fun sp sp' hsp hr => ?_) hrun
    ⟨⟨create_adjacent p, outline_ofVertices _ vs⟩, create_recorded p, rfl, by simp [create, Live],
      by simp [Polygon.ofVertices]⟩
  · exact ⟨hinv.1.2.1, hinv.1.2.2.1, hinv.1.2.2.2.1⟩
  · obtain ⟨hao, hrec, hlistp, hvex, hnodes⟩ := hsp
    refine ⟨triangulizeBody_adjacent hao hr, ?_⟩
    unfold Iteration Polygon.triangulizeBody at hr
    split_ifs at hr
    · simp [pure, Except.pure] at hr
    · simp only [bind_eq_ok, pure, Except.pure, Except.ok.injEq, Option.some.injEq] at hr
      obtain ⟨⟨s₁, nodes₁⟩, h₁, rfl⟩ := hr
      obtain ⟨-, -, edge, hcut, hreb⟩ := appendTrigon_adjacent hao.1 hao.2 h₁
      obtain ⟨hedge, hnodes₁⟩ := hcut.vertices hnodes
      have hrec₁ := appendTrigon_recorded hao.1 hao.2 hrec (by rwa [hlistp]) h₁
      refine ⟨hrec₁, hreb.listp.trans hlistp, fun t ht i => ?_, hnodes₁⟩
      rw [hreb.vex]
      rcases (hreb.live_iff hao.1.nodup t).mp ht with ⟨hlive, -⟩ | hnew
      · rw [appended_vex_old (hao.1.old t hlive).ne]
        exact hvex t hlive i
      · obtain rfl := List.mem_singleton.mp hnew
        rw [appended_vex_new]
        exact hedge (i + 2)
    · simp only [pure, Except.pure, Except.ok.injEq, Option.some.injEq] at hr
      subst hr
      refine ⟨hrec, hlistp, hvex, fun n hn => hnodes n ?_⟩
      cases hsp : sp.2 with
      | nil => simp [hsp, Polygon.turn] at hn
      | cons m rest =>
        rw [hsp] at hn
        simpa [Polygon.turn, or_comm] using hn

theorem triangulize_regular {fuel : ℕ} (hsize : 0 < p.cellsize)
    (h : Polygon.triangulize fuel (create p) (Polygon.ofVertices vs) = .ok s) (hpos : s.Positive)
    (hapart : s.Apart) : s.Regular vs := by
  obtain ⟨hrec, hlistp, hvex⟩ := triangulize_recorded hsize h
  refine ⟨triangulize_adjacent h, hpos, hapart, hrec, hlistp ▸ hsize, fun v hv => ⟨?_, ?_⟩⟩
  · rintro c - hc rfl - -
    exact absurd (hvex c.1 hc c.2) hv
  · rintro c hc rfl
    exact absurd (hvex c.1 hc c.2) hv

/-- Legal calls keep a net regular. -/
theorem LegalRun.regular (h : LegalRun s₀ s) (h₀ : s₀.Regular vs) : s.Regular vs := by
  induction h with
  | start => exact h₀
  | @insertMid s s' v t _ ht hv hr ih =>
    obtain ⟨hadj, hreb⟩ := insertMid_ok ih.adjacent ht hr
    refine ⟨hadj, insertMid_positive ih.adjacent ih.positive ht hv hr,
      insertMid_apart ih.adjacent ih.positive ih.apart ht hv hr,
      insertMid_recorded ih.adjacent ih.recorded ih.cellsize hr, ?_, fun w hw => ?_⟩
    · rw [hreb.listp]
      exact ih.cellsize
    · exact insertMid_encircled ih.adjacent ht hr (ih.apart.fresh ih.positive ht hv)
        (.inl (ih.encircled w hw))
  | @changeEdge s s' edge _ ht hx hr ih =>
    obtain ⟨p2, vid1, hl⟩ := link_of_exchangable hx
    have hone := ih.positive.sharesOneSide ih.adjacent ht edge.vid
    obtain ⟨hadj, hreb⟩ := changeEdge_ok ih.adjacent ht hl hone hr
    have hflip : Flipped s edge.trigon edge.vid p2 vid1 s' := ⟨ih.adjacent, hadj, ht, hl, hone, hreb⟩
    refine ⟨hadj, changeEdge_positive ih.adjacent ih.positive ht hx hr,
      changeEdge_apart ih.adjacent ih.positive ih.apart ht hx hr,
      changeEdge_recorded ih.adjacent hl ih.recorded ih.cellsize hr, ?_,
      fun w hw => hflip.encircled (ih.encircled w hw)⟩
    rw [hreb.listp]
    exact ih.cellsize

omit [FloorRing K] [IsStrictOrderedRing K] in
/-- The three vertices of a positive trigon are different. -/
lemma Positive.vex_injective (h : s.Positive) {t : TrigonRef} (ht : s.Live t) {i j : Fin 3}
    (hij : s.vex t i = s.vex t j) : i = j := by
  have hpos := h.area_at ht i
  rcases side_cases i j with rfl | rfl | rfl
  · rfl
  · rw [← hij] at hpos
    simp [orient] at hpos
  · rw [← hij] at hpos
    exact absurd hpos (by simp)

/-- `GetOneTrigon` finds a trigon of every vertex on the net. -/
lemma Regular.exists_getOneTrigon (h : s.Regular vs) {v : Vertex K} (hv : s.OnNet v) :
    ∃ t, QueryList.getOneTrigon s (some v) = some t ∧ s.Live t ∧ ∃ i, s.vex t i = v := by
  have hfind := QueryList.find_exact h.recorded.ready v (fun vex => QueryList.isVertex vex v)
    (fun vex hvex => by
      obtain ⟨i, rfl⟩ := QueryList.isVertex_iff.mp hvex
      exact ListParam.mem_box_of_vertex h.cellsize vex i)
    (rfl : QueryList.getOneTrigon s (some v) = _)
  simp only [QueryList.isVertex_iff] at hfind
  obtain ⟨t, ht⟩ := Option.isSome_iff_exists.mp (hfind.1.mpr hv)
  exact ⟨t, ht, hfind.2 t ht⟩

/-- Around an inner vertex `GetInsideVorPoly` lists the circumcentres of the closed fan. -/
theorem Regular.getInsideVorPoly (h : s.Regular vs) {v : Vertex K} (hv : s.OnNet v)
    (hinner : v ∉ vs) : ∃ n star, s.Fan v star ∧
      (∀ c ∈ star.getLast?, s.rightCorner c = star.head?) ∧ ∀ fuel, n ≤ fuel →
        s.getInsideVorPoly fuel (some v) = .ok (some (star.map fun c => s.heart c.1)) := by
  have hs := h.adjacent.adjacencyInvariant
  have hround := h.encircled v hinner
  obtain ⟨star, hfan, -⟩ := hround.exists_fan hs hv
    fun t ht i j hi hj => h.positive.vex_injective ht (hi.trans hj.symm)
  obtain ⟨t, hfound, ht, hvt⟩ := h.exists_getOneTrigon hv
  obtain ⟨n, star', hfan', hfrom⟩ := hfan.starFrom hs ht hvt
  refine ⟨n, star', hfan', fun c hc => ?_, fun fuel hfuel => ?_⟩
  · rcases hfan'.ends with ⟨-, hlast⟩ | hclosed
    · obtain ⟨hlive, hvc⟩ := (hfan'.mem_iff c).mp (List.mem_of_mem_getLast? hc)
      exact absurd (hlast c hc) (hround.closed c hlive hvc)
    · exact hclosed c hc
  · rw [Net.getInsideVorPoly, getCommonVertexTrigon_eq hfound (hfrom fuel hfuel)]
    rfl

/-- In every net that legal calls make of a positive triangulation of a start polygon without
overlaps, the trigons have their circumcentres, computed with denominators that are not zero, and
around every vertex that is not of the polygon `GetInsideVorPoly` lists the circumcentres of its
trigons, each once and all the way round. -/
theorem circumcentres_exact {fuel : ℕ} (hsize : 0 < p.cellsize)
    (h₀ : Polygon.triangulize fuel (create p) (Polygon.ofVertices vs) = .ok s₀)
    (hpos : ∀ t, s₀.Live t → 0 < signedArea (s₀.vex t)) (hapart : s₀.Apart) (h : LegalRun s₀ s) :
    (∀ t, s.Live t → s.heart t = setHeart (s.vex t) ∧ (heartDenominators (s.vex t)).1 ≠ 0 ∧
      (heartDenominators (s.vex t)).2 ≠ 0 ∧ Equidistant (s.vex t) (s.heart t).xy) ∧
    ∀ v, s.OnNet v → v ∉ vs → ∃ n star, s.Fan v star ∧
      (∀ c ∈ star.getLast?, s.rightCorner c = star.head?) ∧ ∀ fuel, n ≤ fuel →
        s.getInsideVorPoly fuel (some v) = .ok (some (star.map fun c => s.heart c.1)) := by
  have hreg := LegalRun.regular h (triangulize_regular hsize h₀ (positive_of_signedArea hpos) hapart)
  refine ⟨fun t ht => ?_, fun v hv hinner => hreg.getInsideVorPoly hv hinner⟩
  have harea := (hreg.positive t ht).ne'
  have hden : (4 * area2 (s.vex t)) ≠ 0 := mul_ne_zero four_ne_zero harea
  have hheart := hreg.recorded.heart t ht
  refine ⟨hheart, ?_, ?_, ?_⟩
  · rw [heartDenominators_eq]
    exact hden
  · rw [heartDenominators_eq]
    exact neg_ne_zero.mpr hden
  · rw [hheart]
    exact setHeart_equidistant harea

omit [FloorRing K] in
/-- Two trigons with a common side do not overlap. -/
lemma apart_of_two (hindex : s.trigonIndex = [0, 1]) (hfirst : s.vex 1 0 = s.vex 0 0)
    (hsecond : s.vex 1 1 = s.vex 0 2) : s.Apart := by
  have hside : ∀ q, Encloses (s.vex 0) q → ¬ Encloses (s.vex 1) q := by
    intro q hq hq'
    unfold Encloses at hq'
    rw [hfirst, hsecond] at hq'
    exact hq.rotate.rotate.not_across hq'
  intro t u ht hu hne q
  simp only [Live, hindex, List.mem_cons, List.not_mem_nil, or_false] at ht hu
  rcases ht with rfl | rfl <;> rcases hu with rfl | rfl
  · exact absurd rfl hne
  · exact hside q
  · exact fun hq hq' => hside q hq' hq
  · exact absurd rfl hne

/-- The split square, with the Voronoi polygon of its inner vertex. -/
theorem circumcentres_exact_square : ∃ s₀ s₁ s : Net ℚ,
    Polygon.triangulize 4 (create unitGrid) (Polygon.ofVertices square) = .ok s₀ ∧
      s₀.changeEdge ⟨10, 0, 1⟩ = .ok s₁ ∧ s₁.insertMid midpoint 3 = .ok s ∧
      s.OnNet midpoint ∧ midpoint ∉ square ∧
      (∀ t, s.Live t → s.heart t = setHeart (s.vex t) ∧ (heartDenominators (s.vex t)).1 ≠ 0 ∧
        (heartDenominators (s.vex t)).2 ≠ 0 ∧ Equidistant (s.vex t) (s.heart t).xy) ∧
      ∀ v, s.OnNet v → v ∉ square → ∃ n star, s.Fan v star ∧
        (∀ c ∈ star.getLast?, s.rightCorner c = star.head?) ∧ ∀ fuel, n ≤ fuel →
          s.getInsideVorPoly fuel (some v) = .ok (some (star.map fun c => s.heart c.1)) := by
  have h : passes (Polygon.triangulize 4 (create unitGrid) (Polygon.ofVertices square))
      (fun s₀ => passes (s₀.changeEdge ⟨10, 0, 1⟩) fun s₁ => passes (s₁.insertMid midpoint 3) fun s =>
        decide ((∀ t ∈ s₀.trigonIndex, 0 < signedArea (s₀.vex t)) ∧ s₀.trigonIndex = [0, 1] ∧
          s₀.vex 1 0 = s₀.vex 0 0 ∧ s₀.vex 1 1 = s₀.vex 0 2 ∧
          s₀.exchangable ⟨10, 0, 1⟩ = .ok true ∧ s₁.Live 3 ∧
          vexPosition (s₁.vex 3) midpoint = 3 ∧ ∃ t ∈ s.trigonIndex, ∃ i, s.vex t i = midpoint)) =
        true := by
    decide +kernel
  obtain ⟨s₀, h₀, h⟩ := exists_of_passes h
  obtain ⟨s₁, h₁, h⟩ := exists_of_passes h
  obtain ⟨s, hs, h⟩ := exists_of_passes h
  obtain ⟨hpos, hindex, hfirst, hsecond, hx, hlive₁, hv, hon⟩ := of_decide_eq_true h
  have hlive₀ : s₀.Live 0 := by
    unfold Live
    rw [hindex]
    simp
  have hrun : LegalRun s₀ s := .insertMid (.changeEdge .start hlive₀ hx h₁) hlive₁ hv hs
  exact ⟨s₀, s₁, s, h₀, h₁, hs, hon, by decide,
    circumcentres_exact (by decide) h₀ hpos (apart_of_two hindex hfirst hsecond) hrun⟩

end Runs

end Net

end MTalk.Triangle
