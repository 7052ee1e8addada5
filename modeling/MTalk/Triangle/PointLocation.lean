import MTalk.Triangle.QueryList

/-!
# Point location in the bucketed index

The grid that `ListParam` lays over the data extent, and the two queries of `QueryList` against
a scan of `TrigonIndex`. A trigon is filed in the cells of its bounding box; a query looks into
one cell, which suffices because a trigon that answers it has that cell in its box.
-/

namespace MTalk.Triangle

structure RawDataInfo (K : Type) where
  minx : K
  maxx : K
  miny : K
  maxy : K
  minz : K
  maxz : K
  meanz : K
  pnumber : ℤ

/-- The vertex lies in the data extent. -/
def RawDataInfo.Contains {K : Type} [LE K] (info : RawDataInfo K) (v : Vertex K) : Prop :=
  (info.minx ≤ v.coord.x ∧ v.coord.x ≤ info.maxx) ∧
    info.miny ≤ v.coord.y ∧ v.coord.y ≤ info.maxy

variable {K : Type} [Field K] [LinearOrder K] [FloorRing K]

/-- The constructor of `ListParam`. -/
def ListParam.ofInfo (math : JavaMath K) (info : RawDataInfo K) : ListParam K :=
  let startx := info.minx - (info.maxx - info.minx) * 0.05
  let starty := info.miny - (info.maxy - info.miny) * 0.05
  let endx := info.maxx + (info.maxx - info.minx) * 0.05
  let endy := info.maxy + (info.maxy - info.miny) * 0.05
  let cellsize := (info.maxx - info.minx) / math.sqrt info.pnumber
  let nx := toInt ((endx - startx) / cellsize + 1)
  let ny := toInt ((endy - starty) / cellsize + 1)
  { startx := startx
    starty := starty
    endx := startx + nx * cellsize
    endy := starty + ny * cellsize
    cellsize := cellsize
    nx := nx
    ny := ny }

/-- The extent has a width, and its number of points a square root. -/
structure RawDataInfo.Proper (math : JavaMath K) (info : RawDataInfo K) : Prop where
  width : info.minx < info.maxx
  height : info.miny ≤ info.maxy
  sqrt_pos : 0 < math.sqrt info.pnumber

namespace QueryList

/-- `IsVertex`. -/
def isVertex (vex : Fin 3 → Vertex K) (vertex : Vertex K) : Bool :=
  decide (vex 0 = vertex) || decide (vex 1 = vertex) || decide (vex 2 = vertex)

/-- `GetOneTrigon`: the first trigon of the vertex's cell that has it as a vertex. -/
def getOneTrigon (s : Net K) (vertex : Option (Vertex K)) : Option TrigonRef :=
  match vertex with
  | none => none
  | some vertex =>
    let r := s.listp.cellx vertex.coord.x
    let c := s.listp.celly vertex.coord.y
    if s.listp.InRange r c then (s.cells r c).find? fun p => isVertex (s.vex p) vertex
    else none

/-- A call of `Insert(trigon)` or of `Delete(trigon)`. -/
inductive Operation where
  | insert (trigon : TrigonRef)
  | delete (trigon : TrigonRef)
deriving DecidableEq

def Operation.trigon : Operation → TrigonRef
  | .insert trigon => trigon
  | .delete trigon => trigon

def apply (s : Net K) : Operation → Except Stop (Net K)
  | .insert trigon => insert s trigon
  | .delete trigon => delete s trigon

/-- The index answers both queries as a scan of `TrigonIndex` does. -/
def Exact (s : Net K) : Prop :=
  ∀ v : Vertex K,
    ((getTrigon s v).isSome ↔ ∃ t ∈ s.trigonIndex, vexPosition (s.vex t) v = 3) ∧
    (∀ t, getTrigon s v = some t → t ∈ s.trigonIndex ∧ vexPosition (s.vex t) v = 3) ∧
    ((getOneTrigon s (some v)).isSome ↔ ∃ t ∈ s.trigonIndex, ∃ i, s.vex t i = v)

/-- Every live trigon is in exactly the cells of its box, once in each. -/
structure Filed (s : Net K) : Prop where
  mem_iff : ∀ r c u, u ∈ s.cells r c ↔ u ∈ s.trigonIndex ∧ (r, c) ∈ s.listp.box (s.vex u)
  nodup : ∀ r c, (s.cells r c).Nodup

/-- The grid has every live trigon inside. -/
def Inside (s : Net K) (t : TrigonRef) : Prop := ∀ i, s.listp.Covers (s.vex t i)

omit [Field K] [FloorRing K] in
lemma isVertex_iff {vex : Fin 3 → Vertex K} {v : Vertex K} :
    isVertex vex v = true ↔ ∃ i, vex i = v := by
  simp only [isVertex, Bool.or_eq_true, decide_eq_true_eq]
  constructor
  · rintro ((h | h) | h)
    · exact ⟨0, h⟩
    · exact ⟨1, h⟩
    · exact ⟨2, h⟩
  · rintro ⟨i, h⟩
    fin_cases i
    · exact .inl (.inl h)
    · exact .inl (.inr h)
    · exact .inr h

/-! One step of a run. -/

variable {s s' : Net K} {t : TrigonRef}

/-- `Insert(trigon)` files the trigon, whether it was in the index before or not. -/
lemma insert_filed (hs : Filed s) (h : insert s t = .ok s') : Filed s' := by
  obtain ⟨cells, hc, rfl⟩ := insert_ok h
  obtain ⟨hmem, hnodup⟩ := insertCells_ok hc
  constructor
  · intro r c u
    change u ∈ cells r c ↔ u ∈ s.trigonIndex ++ [t] ∧ (r, c) ∈ s.listp.box (s.vex u)
    rw [hmem, hs.mem_iff, List.mem_append, List.mem_singleton]
    constructor
    · rintro (⟨hu, hb⟩ | ⟨rfl, hb⟩)
      · exact ⟨.inl hu, hb⟩
      · exact ⟨.inr rfl, hb⟩
    · rintro ⟨hu | rfl, hb⟩
      · exact .inl ⟨hu, hb⟩
      · exact .inr ⟨rfl, hb⟩
  · exact hnodup hs.nodup

/-- `Delete(trigon)` takes the trigon out of its cells, and out of `TrigonIndex` too when that
holds it at most once. -/
lemma delete_filed (hs : Filed s) (hcount : s.trigonIndex.count t ≤ 1)
    (h : delete s t = .ok s') : Filed s' := by
  obtain ⟨cells, hc, rfl⟩ := delete_ok h
  obtain ⟨hnodup, hmem⟩ := deleteCells_ok hc hs.nodup
  have herase : ∀ u, u ∈ s.trigonIndex.erase t ↔ u ∈ s.trigonIndex ∧ u ≠ t := by
    intro u
    by_cases hu : u = t
    · subst hu
      have hzero : (s.trigonIndex.erase u).count u = 0 := by
        rw [List.count_erase_self]
        omega
      simpa using List.count_eq_zero.mp hzero
    · simp [List.mem_erase_of_ne hu, hu]
  constructor
  · intro r c u
    change u ∈ cells r c ↔ u ∈ s.trigonIndex.erase t ∧ (r, c) ∈ s.listp.box (s.vex u)
    rw [hmem, hs.mem_iff, herase]
    constructor
    · rintro ⟨⟨hu, hb⟩, hne⟩
      refine ⟨⟨hu, ?_⟩, hb⟩
      rintro rfl
      exact hne ⟨rfl, hb⟩
    · rintro ⟨⟨hu, hne⟩, hb⟩
      exact ⟨⟨hu, hb⟩, fun h => hne h.1⟩
  · exact hnodup

/-- `TrigonIndex` after one operation. -/
def Operation.listed (index : List TrigonRef) : Operation → List TrigonRef
  | .insert trigon => index ++ [trigon]
  | .delete trigon => index.erase trigon

lemma apply_frame {op : Operation} (h : apply s op = .ok s') :
    s'.vex = s.vex ∧ s'.listp = s.listp ∧ s'.trigonIndex = op.listed s.trigonIndex := by
  cases op with
  | insert t =>
    obtain ⟨cells, -, rfl⟩ := insert_ok h
    exact ⟨rfl, rfl, rfl⟩
  | delete t =>
    obtain ⟨cells, -, rfl⟩ := delete_ok h
    exact ⟨rfl, rfl, rfl⟩

lemma apply_total {op : Operation} (h : Inside s op.trigon) : ∃ s', apply s op = .ok s' := by
  have hr : ∀ rc ∈ s.listp.box (s.vex op.trigon), s.listp.InRange rc.1 rc.2 :=
    fun rc hrc => ListParam.box_inRange h hrc
  cases op with
  | insert t =>
    obtain ⟨cells, hc⟩ := insertCells_total hr t s.cells
    exact ⟨_, bind_eq_ok.mpr ⟨cells, hc, rfl⟩⟩
  | delete t =>
    obtain ⟨cells, hc⟩ := deleteCells_total hr t s.cells
    exact ⟨_, bind_eq_ok.mpr ⟨cells, hc, rfl⟩⟩

/-- What holds along a run of `Insert` and `Delete` on trigons that the grid covers. -/
structure Ready (s : Net K) : Prop where
  filed : Filed s
  inside : ∀ t ∈ s.trigonIndex, Inside s t

lemma apply_ready {op : Operation} (hs : Ready s) (hin : Inside s op.trigon)
    (hcount : ∀ t, op = .delete t → s.trigonIndex.count t ≤ 1) (h : apply s op = .ok s') :
    Ready s' := by
  cases op with
  | insert t =>
    refine ⟨insert_filed hs.filed h, ?_⟩
    obtain ⟨cells, -, rfl⟩ := insert_ok h
    intro u hu
    rcases List.mem_append.mp hu with hu | hu
    · exact hs.inside u hu
    · rw [List.mem_singleton.mp hu]
      exact hin
  | delete t =>
    refine ⟨delete_filed hs.filed (hcount t rfl) h, ?_⟩
    obtain ⟨cells, -, rfl⟩ := delete_ok h
    intro u hu
    exact hs.inside u (List.mem_of_mem_erase hu)

/-- From this `TrigonIndex` on, no `Delete` of the run meets a trigon that is listed twice. -/
def DeletesSingle : List TrigonRef → List Operation → Prop
  | _, [] => True
  | index, op :: ops =>
    (∀ t ∈ index, op = .delete t → index.count t ≤ 1) ∧ DeletesSingle (op.listed index) ops

instance decidableDeletesSingle :
    (index : List TrigonRef) → (ops : List Operation) → Decidable (DeletesSingle index ops)
  | _, [] => isTrue trivial
  | index, op :: ops =>
    have := decidableDeletesSingle (op.listed index) ops
    inferInstanceAs (Decidable (_ ∧ _))

lemma run_ready {ops : List Operation} (hs : Ready s) (hin : ∀ op ∈ ops, Inside s op.trigon)
    (hsingle : DeletesSingle s.trigonIndex ops) :
    ∃ s', ops.foldlM apply s = .ok s' ∧ Ready s' ∧ s'.vex = s.vex ∧ s'.listp = s.listp := by
  induction ops generalizing s with
  | nil => exact ⟨s, rfl, hs, rfl, rfl⟩
  | cons op ops ih =>
    obtain ⟨hop, hops⟩ := hsingle
    obtain ⟨s₁, h₁⟩ := apply_total (hin op (by simp))
    obtain ⟨hvex, hlistp, hindex⟩ := apply_frame h₁
    have hready : Ready s₁ := by
      apply apply_ready hs (hin op (by simp)) ?_ h₁
      intro t ht
      by_cases hmem : t ∈ s.trigonIndex
      · exact hop t hmem ht
      · rw [List.count_eq_zero.mpr hmem]
        omega
    have hin₁ : ∀ op' ∈ ops, Inside s₁ op'.trigon := by
      intro op' hop' i
      rw [hvex, hlistp]
      exact hin op' (by simp [hop']) i
    rw [← hindex] at hops
    obtain ⟨s', hrun, hs', hv, hp⟩ := ih hready hin₁ hops
    refine ⟨s', ?_, hs', hv.trans hvex, hp.trans hlistp⟩
    rw [List.foldlM_cons, bind_eq_ok]
    exact ⟨s₁, h₁, hrun⟩

end QueryList

/-! The geometry of one cell. -/

section Cells

lemma toInt_mono {x y : K} (h : x ≤ y) : toInt x ≤ toInt y := by
  unfold toInt
  split_ifs with hx hy hy
  · exact Int.floor_mono h
  · exact absurd (hx.trans h) hy
  · calc ⌈x⌉ ≤ 0 := Int.ceil_le.mpr (by simpa using (not_le.mp hx).le)
      _ ≤ ⌊y⌋ := Int.floor_nonneg.mpr hy
  · exact Int.ceil_mono h

omit [Field K] [FloorRing K] in
lemma smallest_le (f : Fin 3 → K) (i : Fin 3) : smallest f ≤ f i := by
  obtain rfl | rfl | rfl : i = 0 ∨ i = 1 ∨ i = 2 := by fin_cases i <;> simp
  all_goals
    unfold smallest
    dsimp only
    split_ifs <;> order

omit [Field K] [FloorRing K] in
lemma le_largest (f : Fin 3 → K) (i : Fin 3) : f i ≤ largest f := by
  obtain rfl | rfl | rfl : i = 0 ∨ i = 1 ∨ i = 2 := by fin_cases i <;> simp
  all_goals
    unfold largest
    dsimp only
    split_ifs <;> order

open PlaneGeometry

variable [IsStrictOrderedRing K]

omit [FloorRing K] in
/-- A vertex strictly inside a trigon is a proper mean of its vertices. -/
lemma vexPosition_weights {vex : Fin 3 → Vertex K} {v : Vertex K} (h : vexPosition vex v = 3) :
    ∃ a b c : K, 0 < a ∧ 0 < b ∧ 0 < c ∧
      a * ((vex 0).coord.x - v.coord.x) + b * ((vex 1).coord.x - v.coord.x) +
        c * ((vex 2).coord.x - v.coord.x) = 0 ∧
      a * ((vex 0).coord.y - v.coord.y) + b * ((vex 1).coord.y - v.coord.y) +
        c * ((vex 2).coord.y - v.coord.y) = 0 := by
  have hxy : (⟨v.coord.x, v.coord.y, 0⟩ : GVector K).xy = v.xy := rfl
  unfold vexPosition at h
  dsimp only at h
  split_ifs at h with h1 h2 h3 h4 h5 h6 h7 <;> try omega
  rcases h7 with ⟨h01, h12, h20⟩ | ⟨h01, h12, h20⟩
  · refine ⟨-orient (vex 1).xy (vex 2).xy v.xy, -orient (vex 2).xy (vex 0).xy v.xy,
      -orient (vex 0).xy (vex 1).xy v.xy, ?_, ?_, ?_, ?_, ?_⟩
    · exact neg_pos.mpr (directZ_pos h12)
    · exact neg_pos.mpr (directZ_pos h20)
    · exact neg_pos.mpr (directZ_pos h01)
    · simp only [orient, GVector.xy]
      ring
    · simp only [orient, GVector.xy]
      ring
  · refine ⟨orient (vex 1).xy (vex 2).xy v.xy, orient (vex 2).xy (vex 0).xy v.xy,
      orient (vex 0).xy (vex 1).xy v.xy, ?_, ?_, ?_, ?_, ?_⟩
    · exact directZ_neg h12
    · exact directZ_neg h20
    · exact directZ_neg h01
    · simp only [orient, GVector.xy]
      ring
    · simp only [orient, GVector.xy]
      ring

omit [FloorRing K] in
/-- A proper mean lies between the smallest and the largest of the three numbers. -/
lemma mean_between {f : Fin 3 → K} {x a b c : K} (ha : 0 < a) (hb : 0 < b) (hc : 0 < c)
    (h : a * (f 0 - x) + b * (f 1 - x) + c * (f 2 - x) = 0) : smallest f ≤ x ∧ x ≤ largest f := by
  constructor
  · by_contra hx
    have h0 := mul_pos ha (sub_pos.mpr ((not_le.mp hx).trans_le (smallest_le f 0)))
    have h1 := mul_pos hb (sub_pos.mpr ((not_le.mp hx).trans_le (smallest_le f 1)))
    have h2 := mul_pos hc (sub_pos.mpr ((not_le.mp hx).trans_le (smallest_le f 2)))
    linarith
  · by_contra hx
    have h0 := mul_neg_of_pos_of_neg ha (sub_neg.mpr ((le_largest f 0).trans_lt (not_le.mp hx)))
    have h1 := mul_neg_of_pos_of_neg hb (sub_neg.mpr ((le_largest f 1).trans_lt (not_le.mp hx)))
    have h2 := mul_neg_of_pos_of_neg hc (sub_neg.mpr ((le_largest f 2).trans_lt (not_le.mp hx)))
    linarith

namespace ListParam

variable {p : ListParam K}

lemma cellx_mono (hp : 0 < p.cellsize) {x y : K} (h : x ≤ y) : p.cellx x ≤ p.cellx y := by
  apply toInt_mono
  exact div_le_div_of_nonneg_right (sub_le_sub_right h _) hp.le

lemma celly_mono (hp : 0 < p.cellsize) {x y : K} (h : x ≤ y) : p.celly x ≤ p.celly y := by
  apply toInt_mono
  exact div_le_div_of_nonneg_right (sub_le_sub_right h _) hp.le

/-- The cell of a vertex is in the box of a trigon whose bounding box has the vertex. -/
lemma mem_box (hp : 0 < p.cellsize) {vex : Fin 3 → Vertex K} {v : Vertex K}
    (hx : minx vex ≤ v.coord.x ∧ v.coord.x ≤ maxx vex)
    (hy : miny vex ≤ v.coord.y ∧ v.coord.y ≤ maxy vex) :
    (p.cellx v.coord.x, p.celly v.coord.y) ∈ p.box vex := by
  simp only [box, List.mem_flatMap, List.mem_map, mem_indices]
  exact ⟨_, ⟨cellx_mono hp hx.1, cellx_mono hp hx.2⟩, _,
    ⟨celly_mono hp hy.1, celly_mono hp hy.2⟩, rfl⟩

lemma mem_box_of_inside (hp : 0 < p.cellsize) {vex : Fin 3 → Vertex K} {v : Vertex K}
    (h : vexPosition vex v = 3) : (p.cellx v.coord.x, p.celly v.coord.y) ∈ p.box vex := by
  obtain ⟨a, b, c, ha, hb, hc, hx, hy⟩ := vexPosition_weights h
  apply mem_box hp
  · exact mean_between (f := fun i => (vex i).coord.x) ha hb hc hx
  · exact mean_between (f := fun i => (vex i).coord.y) ha hb hc hy

lemma mem_box_of_vertex (hp : 0 < p.cellsize) (vex : Fin 3 → Vertex K) (i : Fin 3) :
    (p.cellx (vex i).coord.x, p.celly (vex i).coord.y) ∈ p.box vex := by
  apply mem_box hp
  · exact ⟨smallest_le (fun i => (vex i).coord.x) i, le_largest (fun i => (vex i).coord.x) i⟩
  · exact ⟨smallest_le (fun i => (vex i).coord.y) i, le_largest (fun i => (vex i).coord.y) i⟩

lemma cellsize_pos {math : JavaMath K} {info : RawDataInfo K} (h : info.Proper math) :
    0 < (ofInfo math info).cellsize :=
  div_pos (sub_pos.mpr h.width) h.sqrt_pos

/-- A coordinate of the extent falls into one of the `n` cells of its direction. -/
lemma cell_lt (x lo hi : K) {size : K} (hsize : 0 < size) (hlo : lo ≤ x)
    (hhi : x ≤ hi) : 0 ≤ toInt ((x - lo) / size) ∧
      toInt ((x - lo) / size) < toInt ((hi - lo) / size + 1) := by
  have hx : 0 ≤ (x - lo) / size := div_nonneg (sub_nonneg.mpr hlo) hsize.le
  have hle : (x - lo) / size ≤ (hi - lo) / size :=
    div_le_div_of_nonneg_right (sub_le_sub_right hhi _) hsize.le
  have htop : 0 ≤ (hi - lo) / size + 1 := by linarith
  unfold toInt
  rw [if_pos hx, if_pos htop]
  constructor
  · exact Int.floor_nonneg.mpr hx
  · rw [Int.floor_add_one]
    have := Int.floor_mono hle
    omega

/-- The grid of an extent has a cell for every vertex of the extent. -/
lemma ofInfo_covers {math : JavaMath K} {info : RawDataInfo K} (h : info.Proper math)
    {v : Vertex K} (hv : info.Contains v) : (ofInfo math info).Covers v := by
  obtain ⟨⟨hx1, hx2⟩, hy1, hy2⟩ := hv
  have hsize := cellsize_pos h
  have hwidth : 0 < info.maxx - info.minx := sub_pos.mpr h.width
  have hheight : 0 ≤ info.maxy - info.miny := sub_nonneg.mpr h.height
  have hcx := cell_lt v.coord.x (info.minx - (info.maxx - info.minx) * 0.05)
    (info.maxx + (info.maxx - info.minx) * 0.05) hsize (by linarith) (by linarith)
  have hcy := cell_lt v.coord.y (info.miny - (info.maxy - info.miny) * 0.05)
    (info.maxy + (info.maxy - info.miny) * 0.05) hsize (by linarith) (by linarith)
  exact ⟨hcx.1, hcx.2, hcy.1, hcy.2⟩

end ListParam

namespace QueryList

variable {s : Net K}

omit [IsStrictOrderedRing K] in
/-- A find in one cell answers as a scan of the index does, for a test that only holds of trigons
with that cell in their box. -/
lemma find_exact (hs : Ready s) (v : Vertex K) (test : (Fin 3 → Vertex K) → Bool)
    (htest : ∀ vex, test vex = true →
      (s.listp.cellx v.coord.x, s.listp.celly v.coord.y) ∈ s.listp.box vex)
    {found : Option TrigonRef}
    (hfound : found = if s.listp.InRange (s.listp.cellx v.coord.x) (s.listp.celly v.coord.y) then
      (s.cells (s.listp.cellx v.coord.x) (s.listp.celly v.coord.y)).find? fun t => test (s.vex t)
      else none) :
    (found.isSome ↔ ∃ t ∈ s.trigonIndex, test (s.vex t) = true) ∧
      ∀ t, found = some t → t ∈ s.trigonIndex ∧ test (s.vex t) = true := by
  have hsound : ∀ t, found = some t → t ∈ s.trigonIndex ∧ test (s.vex t) = true := by
    intro t ht
    rw [hfound] at ht
    split_ifs at ht
    have hmem := (hs.filed.mem_iff _ _ t).mp (List.mem_of_find?_eq_some ht)
    have htrue := List.find?_some (p := fun t => test (s.vex t)) ht
    exact ⟨hmem.1, htrue⟩
  refine ⟨⟨fun h => ?_, ?_⟩, hsound⟩
  · obtain ⟨t, ht⟩ := Option.isSome_iff_exists.mp h
    exact ⟨t, hsound t ht⟩
  · rintro ⟨t, hlive, ht⟩
    have hbox := htest _ ht
    have hrange := ListParam.box_inRange (hs.inside t hlive) hbox
    rw [hfound, if_pos hrange, List.find?_isSome]
    exact ⟨t, (hs.filed.mem_iff _ _ t).mpr ⟨hlive, hbox⟩, ht⟩

/-- While every live trigon is filed in its box, the queries are exact. -/
lemma exact_of_ready (hs : Ready s) (hsize : 0 < s.listp.cellsize) : Exact s := by
  intro v
  have hinside := find_exact hs v (fun vex => decide (vexPosition vex v = 3))
    (fun vex h => ListParam.mem_box_of_inside hsize (of_decide_eq_true h))
    (rfl : getTrigon s v = _)
  have hvertex := find_exact hs v (fun vex => isVertex vex v)
    (fun vex h => by
      obtain ⟨i, rfl⟩ := isVertex_iff.mp h
      exact ListParam.mem_box_of_vertex hsize vex i)
    (rfl : getOneTrigon s (some v) = _)
  simp only [decide_eq_true_eq] at hinside
  simp only [isVertex_iff] at hvertex
  exact ⟨hinside.1, hinside.2, hvertex.1⟩

/-- The net with the given trigon objects over an empty grid for the extent. -/
def start (math : JavaMath K) (info : RawDataInfo K) (vex : TrigonRef → Fin 3 → Vertex K) : Net K :=
  { Net.create (ListParam.ofInfo math info) with vex := vex }

omit [IsStrictOrderedRing K] in
lemma start_ready (math : JavaMath K) (info : RawDataInfo K)
    (vex : TrigonRef → Fin 3 → Vertex K) : Ready (start math info vex) := by
  refine ⟨⟨?_, ?_⟩, ?_⟩ <;> simp [start, Net.create]

/-- After any sequence of `Insert` and `Delete` with trigons inside the extent, in which `Delete`
never meets a trigon listed twice, `GetTrigon` and `GetOneTrigon` agree with a scan of
`TrigonIndex`. -/
theorem queries_exact {math : JavaMath K} {info : RawDataInfo K} (hinfo : info.Proper math)
    (vex : TrigonRef → Fin 3 → Vertex K) {ops : List Operation}
    (hin : ∀ op ∈ ops, ∀ i, info.Contains (vex op.trigon i))
    (hsingle : DeletesSingle [] ops) :
    ∃ s, ops.foldlM apply (start math info vex) = .ok s ∧ s.vex = vex ∧ Exact s := by
  have hinside : ∀ op ∈ ops, Inside (start math info vex) op.trigon :=
    fun op hop i => ListParam.ofInfo_covers hinfo (hin op hop i)
  obtain ⟨s, hrun, hs, hv, hp⟩ := run_ready (start_ready math info vex) hinside hsingle
  refine ⟨s, hrun, hv, exact_of_ready hs ?_⟩
  rw [hp]
  exact ListParam.cellsize_pos hinfo

end QueryList

end Cells

namespace QueryList

/-- A square root that is right at four, the number of points in the runs below. -/
def rootOfFour : JavaMath ℚ := ⟨fun x => if x = 4 then 2 else x, fun x => x⟩

def squareExtent : RawDataInfo ℚ := ⟨0, 4, 0, 4, 0, 0, 0, 4⟩

/-- The two halves of the square. -/
def squareHalves (t : TrigonRef) (i : Fin 3) : Vertex ℚ :=
  if t = 0 then ![⟨0, 0, ⟨0, 0, 0⟩⟩, ⟨1, 1, ⟨4, 0, 0⟩⟩, ⟨2, 2, ⟨0, 4, 0⟩⟩] i
  else ![⟨1, 1, ⟨4, 0, 0⟩⟩, ⟨3, 3, ⟨4, 4, 0⟩⟩, ⟨2, 2, ⟨0, 4, 0⟩⟩] i

lemma squareExtent_proper : squareExtent.Proper rootOfFour :=
  ⟨by decide +kernel, by decide +kernel, by decide +kernel⟩

lemma squareHalves_inside (t : TrigonRef) (i : Fin 3) :
    squareExtent.Contains (squareHalves t i) := by
  unfold squareHalves RawDataInfo.Contains
  split_ifs <;> fin_cases i <;> simp [squareExtent]

theorem queries_exact_square : ∃ s, [Operation.insert 0, .insert 1, .delete 0, .insert 0].foldlM
    apply (start rootOfFour squareExtent squareHalves) = .ok s ∧ s.vex = squareHalves ∧ Exact s :=
  queries_exact squareExtent_proper squareHalves (fun _ _ i => squareHalves_inside _ i)
    (by decide)

/-- A trigon inserted twice is in its cells once and in `TrigonIndex` twice, so that one `Delete`
leaves it listed but in no cell. -/
theorem queries_miss_trigon_listed_twice :
    ∃ s, [Operation.insert 0, .insert 0, .delete 0].foldlM apply
        (start rootOfFour squareExtent squareHalves) = .ok s ∧
      (∀ t i, squareExtent.Contains (squareHalves t i)) ∧ ¬Exact s := by
  have hrun : passes ([Operation.insert 0, .insert 0, .delete 0].foldlM apply
      (start rootOfFour squareExtent squareHalves)) (fun s =>
        decide (getTrigon s ⟨4, 4, ⟨1, 1, 0⟩⟩ = none) && decide (0 ∈ s.trigonIndex) &&
          decide (vexPosition (s.vex 0) ⟨4, 4, ⟨1, 1, 0⟩⟩ = 3)) = true := by
    decide +kernel
  obtain ⟨s, hs, htest⟩ := exists_of_passes hrun
  simp only [Bool.and_eq_true, decide_eq_true_eq] at htest
  obtain ⟨⟨hnone, hlisted⟩, hinside⟩ := htest
  refine ⟨s, hs, squareHalves_inside, fun hexact => ?_⟩
  have hsome := (hexact ⟨4, 4, ⟨1, 1, 0⟩⟩).1.mpr ⟨0, hlisted, hinside⟩
  rw [hnone] at hsome
  simp at hsome

end QueryList

end MTalk.Triangle
