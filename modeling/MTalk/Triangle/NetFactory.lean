import MTalk.Triangle.ConvexHulls
import MTalk.Triangle.NetRuns
import MTalk.Triangle.PointLocation
import MTalk.Triangle.Completion

/-!
# Building a net from its data

`NetFactory.createNet` adds four vertices far outside the data, triangulates their hull and inserts
every vertex. `InsertToNet` returns without a word where no trigon has the vertex strictly inside.
Splits and flips keep the vertices that are on the net, so that exactly the vertices that were
skipped are missing in the end.
-/

namespace MTalk.Triangle

open WhileLoop MTalk.GuardedRuns

namespace NetFactory

variable {K : Type} [Field K] [LinearOrder K]

/-- `prepareVertex`: a new vertex object at the end of the data. -/
def prepareVertex (data : List (Vertex K)) (coord : GVector K) (id : ℤ) : List (Vertex K) :=
  data ++ [⟨data.length, id, coord⟩]

/-- The data after a call of `prepareVertex` for each coordinate and id. -/
def prepared (rows : List (GVector K × ℤ)) : List (Vertex K) :=
  rows.foldl (fun data row => prepareVertex data row.1 row.2) []

/-- One round of the loop in `extractInfo`. -/
def extend (d : RawDataInfo K) (v : Vertex K) : RawDataInfo K :=
  { d with
    minx := if v.coord.x < d.minx then v.coord.x else d.minx
    miny := if v.coord.y < d.miny then v.coord.y else d.miny
    minz := if v.coord.z < d.minz then v.coord.z else d.minz
    maxx := if d.maxx < v.coord.x then v.coord.x else d.maxx
    maxy := if d.maxy < v.coord.y then v.coord.y else d.maxy
    maxz := if d.maxz < v.coord.z then v.coord.z else d.maxz
    meanz := d.meanz + v.coord.z }

/-- `extractInfo`. -/
def extractInfo (data : List (Vertex K)) : RawDataInfo K :=
  let start : RawDataInfo K :=
    { minx := 1000000000, maxx := -1000000000, miny := 1000000000, maxy := -1000000000,
      minz := 1000000000, maxz := -1000000000, meanz := 0, pnumber := data.length }
  let dif := data.foldl extend start
  { dif with meanz := dif.meanz / data.length }

/-- `expand`: four vertices as far outside the data as it is wide. -/
def expand (data : List (Vertex K)) : List (Vertex K) :=
  let di := extractInfo data
  let x0 := di.minx - (di.maxx - di.minx)
  let y0 := di.miny - (di.maxy - di.miny)
  let x1 := di.maxx + (di.maxx - di.minx)
  let y1 := di.maxy + (di.maxy - di.miny)
  let data := prepareVertex data ⟨x0, y0, di.meanz⟩ (-1)
  let data := prepareVertex data ⟨x0, y1, di.meanz⟩ (-1)
  let data := prepareVertex data ⟨x1, y0, di.meanz⟩ (-1)
  prepareVertex data ⟨x1, y1, di.meanz⟩ (-1)

end NetFactory

/-- `ExportData`: the vertices of the hull become the nodes of the start polygon. -/
def Convex.exportData {K : Type} (c : Convex K) : Except Stop (List (Vertex K)) :=
  (List.range c.noc).mapM fun i => do
    let v ← c.read i
    deref v

namespace Net

variable {K : Type} [Field K] [LinearOrder K] [FloorRing K]

/-- `VertexSet.InsertVertex`: a vertex outside the grid is left out. -/
def insertVertex (s : Net K) (vertex : Vertex K) : Net K :=
  let r := s.listp.cellx vertex.coord.x
  let c := s.listp.celly vertex.coord.y
  if s.listp.InRange r c then
    if vertex ∈ s.vcells r c then s
    else { s with
      vcells := write s.vcells r c (s.vcells r c ++ [vertex])
      np := { s.np with nov := s.np.nov + 1 }
      lnlist := s.lnlist ++ [vertex] }
  else s

/-- `GetBoundary`: the vertices of the start polygon. -/
def getBoundary (math : JavaMath K) (fuel : ℕ) (s : Net K) : Except Stop (List (Vertex K)) := do
  let c ← Convex.setData s.lnlist
  let c ← c.getConvex (GVector.theta math) math fuel
  c.exportData

/-- `InsertToNet`. -/
def insertToNet (fuel : ℕ) (s : Net K) (vertex : Vertex K) : Except Stop (Net K) :=
  match QueryList.getTrigon s vertex with
  | none => .ok s
  | some t => do
    let s ← s.insertMid vertex t
    s.process fuel

/-- `ReceiveVertex`. -/
def receiveVertex (fuel : ℕ) (s : Net K) (vertex : Vertex K) : Except Stop (Net K) :=
  match QueryList.getTrigon s vertex with
  | none => .ok s
  | some t => do
    let s ← (s.insertVertex vertex).insertMid vertex t
    s.process fuel

/-- `VertexSet.CreateNet`. -/
def createNet (fuel : ℕ) (s : Net K) : Except Stop (Net K) := s.lnlist.foldlM (insertToNet fuel) s

end Net

namespace NetFactory

variable {K : Type} [Field K] [LinearOrder K] [FloorRing K]

/-- `Init`, `setVertice`: the empty net with the vertices in its vertex set. -/
def setVertice (math : JavaMath K) (data : List (Vertex K)) : Net K :=
  data.foldl Net.insertVertex (Net.create (ListParam.ofInfo math (extractInfo data)))

/-- `createNet` up to `net.CreateNet()`. -/
def startNet (math : JavaMath K) (fuel : ℕ) (data : List (Vertex K)) : Except Stop (Net K) := do
  let s := setVertice math (expand data)
  let startpolygon ← s.getBoundary math fuel
  s.initTriang fuel (Polygon.ofVertices startpolygon)

/-- `createNet`. -/
def createNet (math : JavaMath K) (fuel : ℕ) (data : List (Vertex K)) : Except Stop (Net K) := do
  let s ← startNet math fuel data
  s.createNet fuel

end NetFactory

instance {K : Type} [LinearOrder K] (s : Net K) (v : Vertex K) : Decidable (s.OnNet v) :=
  inferInstanceAs (Decidable (∃ t ∈ s.trigonIndex, ∃ i, s.vex t i = v))

/-! The vertex set has all the data. -/

namespace NetFactory

variable {K : Type} [Field K] [LinearOrder K]

omit [Field K] [LinearOrder K] in
lemma foldl_prepareVertex (rows : List (GVector K × ℤ)) (data : List (Vertex K))
    (h : ∀ (i : ℕ) (v : Vertex K), data[i]? = some v → v.ref = i) :
    ∀ (i : ℕ) (v : Vertex K),
      (rows.foldl (fun data row => prepareVertex data row.1 row.2) data)[i]? = some v →
        v.ref = i := by
  induction rows generalizing data with
  | nil => exact h
  | cons row rows ih =>
    apply ih
    intro i v hv
    unfold prepareVertex at hv
    rcases Nat.lt_or_ge i data.length with hlt | hge
    · rw [List.getElem?_append_left hlt] at hv
      exact h i v hv
    · rw [List.getElem?_append_right hge] at hv
      obtain ⟨hi, rfl⟩ := List.getElem?_eq_some_iff.mp hv
      rw [List.length_singleton] at hi
      have hzero : i - data.length = 0 := by omega
      simp only [hzero, List.getElem_cons_zero]
      omega

omit [Field K] [LinearOrder K] in
/-- The objects of the data are numbered by their places. -/
lemma nodup_of_numbered {data : List (Vertex K)}
    (h : ∀ (i : ℕ) (v : Vertex K), data[i]? = some v → v.ref = i) :
    data.Nodup := by
  rw [List.nodup_iff_injective_get]
  intro i j hij
  have hi := h i _ (List.getElem?_eq_getElem i.isLt)
  have hj := h j _ (List.getElem?_eq_getElem j.isLt)
  apply Fin.ext
  rw [← hi, ← hj]
  exact congrArg Vertex.ref hij

/-- The data and the four outer vertices, as calls of `prepareVertex`. -/
lemma exists_expand (rows : List (GVector K × ℤ)) :
    ∃ outer : List (GVector K × ℤ), outer.length = 4 ∧
      expand (prepared rows) = prepared (rows ++ outer) := by
  let di := extractInfo (prepared rows)
  let x0 := di.minx - (di.maxx - di.minx)
  let y0 := di.miny - (di.maxy - di.miny)
  let x1 := di.maxx + (di.maxx - di.minx)
  let y1 := di.maxy + (di.maxy - di.miny)
  refine ⟨[(⟨x0, y0, di.meanz⟩, -1), (⟨x0, y1, di.meanz⟩, -1), (⟨x1, y0, di.meanz⟩, -1),
    (⟨x1, y1, di.meanz⟩, -1)], rfl, ?_⟩
  conv_rhs => rw [prepared, List.foldl_append]
  rfl

omit [Field K] [LinearOrder K] in
lemma prepared_append (rows outer : List (GVector K × ℤ)) :
    ∃ tail, prepared (rows ++ outer) = prepared rows ++ tail := by
  induction outer using List.reverseRecOn with
  | nil => exact ⟨[], by rw [List.append_nil, List.append_nil]⟩
  | append_singleton outer row ih =>
    obtain ⟨tail, htail⟩ := ih
    refine ⟨tail ++ [⟨(prepared rows ++ tail).length, row.2, row.1⟩], ?_⟩
    rw [← List.append_assoc rows, prepared, List.foldl_append, ← prepared, htail,
      ← List.append_assoc]
    rfl

omit [Field K] [LinearOrder K] in
lemma nodup_prepared (rows : List (GVector K × ℤ)) : (prepared rows).Nodup :=
  nodup_of_numbered (foldl_prepareVertex rows [] (by simp))

lemma extend_contains (d : RawDataInfo K) (v : Vertex K) :
    ((extend d v).minx ≤ d.minx ∧ d.maxx ≤ (extend d v).maxx ∧ (extend d v).miny ≤ d.miny ∧
      d.maxy ≤ (extend d v).maxy) ∧ (extend d v).Contains v := by
  have hlow : ∀ a b : K, (if a < b then a else b) ≤ a ∧ (if a < b then a else b) ≤ b := by
    intro a b
    split_ifs with h
    · exact ⟨le_rfl, h.le⟩
    · exact ⟨not_lt.mp h, le_rfl⟩
  have hhigh : ∀ a b : K, a ≤ (if b < a then a else b) ∧ b ≤ (if b < a then a else b) := by
    intro a b
    split_ifs with h
    · exact ⟨le_rfl, h.le⟩
    · exact ⟨not_lt.mp h, le_rfl⟩
  exact ⟨⟨(hlow _ _).2, (hhigh _ _).2, (hlow _ _).2, (hhigh _ _).2⟩,
    ⟨(hlow _ _).1, (hhigh _ _).1⟩, (hlow _ _).1, (hhigh _ _).1⟩

lemma foldl_extend_contains (l : List (Vertex K)) (d : RawDataInfo K) :
    ((l.foldl extend d).minx ≤ d.minx ∧ d.maxx ≤ (l.foldl extend d).maxx ∧
      (l.foldl extend d).miny ≤ d.miny ∧ d.maxy ≤ (l.foldl extend d).maxy) ∧
      ∀ v ∈ l, (l.foldl extend d).Contains v := by
  induction l generalizing d with
  | nil => simp
  | cons w l ih =>
    rw [List.foldl_cons]
    obtain ⟨⟨hx, hx', hy, hy'⟩, hl⟩ := ih (extend d w)
    obtain ⟨⟨gx, gx', gy, gy'⟩, ⟨wx, wx'⟩, wy, wy'⟩ := extend_contains d w
    refine ⟨⟨hx.trans gx, gx'.trans hx', hy.trans gy, gy'.trans hy'⟩, fun v hv => ?_⟩
    rcases List.mem_cons.mp hv with rfl | hv
    · exact ⟨⟨hx.trans wx, wx'.trans hx'⟩, hy.trans wy, wy'.trans hy'⟩
    · exact hl v hv

/-- The extent that `extractInfo` finds has every vertex in it. -/
lemma extractInfo_contains {data : List (Vertex K)} {v : Vertex K} (hv : v ∈ data) :
    (extractInfo data).Contains v :=
  (foldl_extend_contains data _).2 v hv

lemma pnumber_foldl_extend (l : List (Vertex K)) (d : RawDataInfo K) :
    (l.foldl extend d).pnumber = d.pnumber := by
  induction l generalizing d with
  | nil => rfl
  | cons w l ih => exact ih (extend d w)

lemma pnumber_extractInfo (data : List (Vertex K)) :
    (extractInfo data).pnumber = data.length :=
  pnumber_foldl_extend data _

variable [FloorRing K]

omit [Field K] [LinearOrder K] [FloorRing K] in
lemma length_prepared (rows : List (GVector K × ℤ)) : (prepared rows).length = rows.length := by
  induction rows using List.reverseRecOn with
  | nil => rfl
  | append_singleton rows row ih =>
    rw [prepared, List.foldl_append, ← prepared, List.foldl_cons, List.foldl_nil, prepareVertex,
      List.length_append, ih, List.length_append]
    rfl

/-- A grid that covers the vertices takes them all, in their order. -/
lemma insertVertices_eq {vs : List (Vertex K)} {s : Net K} (hcovers : ∀ v ∈ vs, s.listp.Covers v)
    (hset : ∀ r c, ∀ v ∈ s.vcells r c, v ∈ s.lnlist) (hnodup : (s.lnlist ++ vs).Nodup) :
    ∃ vcells nov, vs.foldl Net.insertVertex s = { s with
      vcells := vcells, np := { s.np with nov := nov }, lnlist := s.lnlist ++ vs } := by
  induction vs generalizing s with
  | nil => exact ⟨s.vcells, s.np.nov, by rw [List.append_nil]; rfl⟩
  | cons v vs ih =>
    have hnew : v ∉ s.lnlist := by
      intro hv
      exact (List.nodup_append.mp hnodup).2.2 v hv v List.mem_cons_self rfl
    have hstep : s.insertVertex v = { s with
        vcells := write s.vcells (s.listp.cellx v.coord.x) (s.listp.celly v.coord.y)
          (s.vcells (s.listp.cellx v.coord.x) (s.listp.celly v.coord.y) ++ [v])
        np := { s.np with nov := s.np.nov + 1 }
        lnlist := s.lnlist ++ [v] } := by
      unfold Net.insertVertex
      dsimp only
      have hin : s.listp.InRange (s.listp.cellx v.coord.x) (s.listp.celly v.coord.y) :=
        hcovers v List.mem_cons_self
      rw [if_pos hin, if_neg fun hv => hnew (hset _ _ v hv)]
    rw [List.foldl_cons, hstep]
    obtain ⟨vcells, nov, heq⟩ := ih (s := { s with
        vcells := write s.vcells (s.listp.cellx v.coord.x) (s.listp.celly v.coord.y)
          (s.vcells (s.listp.cellx v.coord.x) (s.listp.celly v.coord.y) ++ [v])
        np := { s.np with nov := s.np.nov + 1 }
        lnlist := s.lnlist ++ [v] })
      (fun w hw => hcovers w (List.mem_cons_of_mem _ hw)) (by
        intro r c w hw
        simp only [write_apply] at hw
        rw [List.mem_append]
        split_ifs at hw with hcell
        · rcases List.mem_append.mp hw with hw | hw
          · exact .inl (hset _ _ w hw)
          · exact .inr hw
        · exact .inl (hset r c w hw)) (by simpa using hnodup)
    refine ⟨vcells, nov, ?_⟩
    rw [heq]
    simp

/-- Before the hull the net is empty, and the vertex set has the data. -/
lemma setVertice_eq [IsStrictOrderedRing K] {math : JavaMath K} {data : List (Vertex K)}
    (hnodup : data.Nodup) (hproper : (extractInfo data).Proper math) :
    ∃ vcells nov, setVertice math data =
      { Net.create (ListParam.ofInfo math (extractInfo data)) with
        vcells := vcells, np := ⟨nov, 0⟩, lnlist := data } := by
  obtain ⟨vcells, nov, heq⟩ := insertVertices_eq
    (s := Net.create (ListParam.ofInfo math (extractInfo data)))
    (fun v hv => ListParam.ofInfo_covers hproper (extractInfo_contains hv)) (by simp [Net.create])
    (by simpa [Net.create] using hnodup)
  exact ⟨vcells, nov, heq⟩

/-- The outer vertices keep the extent from being empty. -/
lemma expand_proper [IsStrictOrderedRing K] {data : List (Vertex K)}
    (hx : (extractInfo data).minx < (extractInfo data).maxx)
    (hy : (extractInfo data).miny ≤ (extractInfo data).maxy) :
    (extractInfo (expand data)).minx < (extractInfo (expand data)).maxx ∧
      (extractInfo (expand data)).miny ≤ (extractInfo (expand data)).maxy := by
  obtain ⟨lower, hlower, hlx, hly⟩ : ∃ v ∈ expand data,
      v.coord.x = (extractInfo data).minx - ((extractInfo data).maxx - (extractInfo data).minx) ∧
      v.coord.y = (extractInfo data).miny -
        ((extractInfo data).maxy - (extractInfo data).miny) := by
    refine ⟨⟨data.length, -1, ⟨_, _, (extractInfo data).meanz⟩⟩, ?_, rfl, rfl⟩
    simp [expand, prepareVertex]
  obtain ⟨upper, hupper, hux, huy⟩ : ∃ v ∈ expand data,
      v.coord.x = (extractInfo data).maxx + ((extractInfo data).maxx - (extractInfo data).minx) ∧
      v.coord.y = (extractInfo data).maxy +
        ((extractInfo data).maxy - (extractInfo data).miny) := by
    refine ⟨⟨data.length + 3, -1, ⟨_, _, (extractInfo data).meanz⟩⟩, ?_, rfl, rfl⟩
    simp [expand, prepareVertex]
  obtain ⟨⟨hl1, -⟩, hl3, -⟩ := extractInfo_contains hlower
  obtain ⟨⟨-, hu2⟩, -, hu4⟩ := extractInfo_contains hupper
  rw [hlx] at hl1
  rw [hly] at hl3
  rw [hux] at hu2
  rw [huy] at hu4
  constructor <;> linarith

end NetFactory

/-! What the operations do to the vertices on the net. -/

namespace Net

variable {K : Type} {s s' : Net K}

/-- The net refers to trigon objects that exist, and their vertices are on it. -/
structure Intact (s : Net K) : Prop where
  wired : s.Wired
  covering : s.Covering
  index : ∀ t ∈ s.trigonIndex, t < s.trigonCount
  cells : ∀ r c, ∀ t ∈ s.cells r c, t < s.trigonCount

lemma deleteCells_subset {p : ListParam K} {trigon : TrigonRef} {rcs : List (ℤ × ℤ)}
    {cells cells' : ℤ → ℤ → List TrigonRef}
    (h : rcs.foldlM (QueryList.deleteCell p trigon) cells = .ok cells') :
    ∀ r c, ∀ u ∈ cells' r c, u ∈ cells r c := by
  induction rcs generalizing cells with
  | nil =>
    simp only [List.foldlM_nil, pure, Except.pure, Except.ok.injEq] at h
    exact h ▸ fun r c u hu => hu
  | cons rc rcs ih =>
    rw [List.foldlM_cons, bind_eq_ok] at h
    obtain ⟨cells₁, h₁, h⟩ := h
    unfold QueryList.deleteCell at h₁
    split_ifs at h₁
    simp only [Except.ok.injEq] at h₁
    subst h₁
    intro r c u hu
    have hin := ih h r c u hu
    rw [write_apply] at hin
    split_ifs at hin with hcell
    · rw [hcell.1, hcell.2]
      exact List.mem_of_mem_erase hin
    · exact hin

section Rebuilding

variable [Field K] [LinearOrder K] [FloorRing K]

lemma deleteTrigons_cells {ts : List TrigonRef} (hw : s.Wired)
    (h : ts.foldlM deleteTrigon s = .ok s') : ∀ r c, ∀ u ∈ s'.cells r c, u ∈ s.cells r c := by
  induction ts generalizing s with
  | nil =>
    simp only [List.foldlM_nil, pure, Except.pure, Except.ok.injEq] at h
    exact h ▸ fun r c u hu => hu
  | cons t ts ih =>
    rw [List.foldlM_cons, bind_eq_ok] at h
    obtain ⟨s₁, h₁, h⟩ := h
    obtain ⟨cells, e, q, nb, nv, hs₁, hcells, -, hcleared⟩ := deleteTrigon_ok hw h₁
    have hw₁ : s₁.Wired := by
      subst hs₁
      exact hcleared.wired hw rfl rfl rfl rfl
    intro r c u hu
    have hin := ih hw₁ h r c u hu
    rw [hs₁] at hin
    exact deleteCells_subset hcells r c u hin

lemma insertTrigons_cells {ts : List TrigonRef} (hw : s.Wired)
    (h : ts.foldlM insertTrigon s = .ok s') :
    ∀ r c, ∀ u ∈ s'.cells r c, u ∈ s.cells r c ∨ u ∈ ts := by
  induction ts generalizing s with
  | nil =>
    simp only [List.foldlM_nil, pure, Except.pure, Except.ok.injEq] at h
    exact h ▸ fun r c u hu => .inl hu
  | cons t ts ih =>
    rw [List.foldlM_cons, bind_eq_ok] at h
    obtain ⟨s₁, h₁, h⟩ := h
    obtain ⟨cells, nb, nv, hs₁, hcells, hglued⟩ := insertTrigon_ok (hw.no_self t) h₁
    have hw₁ : s₁.Wired := by
      subst hs₁
      exact hglued.wired hw rfl rfl rfl rfl
    intro r c u hu
    rcases ih hw₁ h r c u hu with hin | hin
    · rw [hs₁] at hin
      rcases ((QueryList.insertCells_ok hcells).1 r c u).mp hin with hin | ⟨rfl, -⟩
      · exact .inl hin
      · exact .inr List.mem_cons_self
    · exact .inr (List.mem_cons_of_mem _ hin)

lemma rebuild_cells {s₁ : Net K} {olds news : List TrigonRef} (hw : s.Wired)
    (h₁ : olds.foldlM deleteTrigon s = .ok s₁) (h₂ : news.foldlM insertTrigon s₁ = .ok s') :
    ∀ r c, ∀ u ∈ s'.cells r c, u ∈ s.cells r c ∨ u ∈ news := by
  obtain ⟨-, -, -, -, -, -, -, hw₁, -⟩ := deleteTrigons_ok hw h₁
  intro r c u hu
  rcases insertTrigons_cells hw₁ h₂ r c u hu with hin | hin
  · exact .inl (deleteTrigons_cells hw h₁ r c u hin)
  · exact .inr hin

omit [Field K] [LinearOrder K] [FloorRing K] in
/-- What replacing trigons does to an intact net: `s₁` has the new trigon objects besides. -/
lemma Intact.rebuilt (h : s.Intact) (s₁ : Net K) {olds news : List TrigonRef}
    {V : Vertex K → Prop} (hcount : s.trigonCount ≤ s₁.trigonCount)
    (hold : ∀ u < s.trigonCount, s₁.vex u = s.vex u) (hindex : s₁.trigonIndex = s.trigonIndex)
    (hnews : ∀ u, u ∈ news ↔ s.trigonCount ≤ u ∧ u < s₁.trigonCount)
    (holds : ∀ u ∈ olds, u < s.trigonCount)
    (hcover : ∀ t ∈ olds, ∀ i, ∃ u ∈ news, ∃ j, s₁.vex u j = s.vex t i)
    (hverts : ∀ w, (∃ u ∈ news, ∃ j, s₁.vex u j = w) → s.OnNet w ∨ V w)
    (hadded : ∀ w, V w → ∃ u ∈ news, ∃ j, s₁.vex u j = w)
    (hre : Reindexed s₁ olds news s')
    (hcells : ∀ r c, ∀ u ∈ s'.cells r c, u ∈ s.cells r c ∨ u ∈ news) :
    s'.Intact ∧ ∀ w, s'.OnNet w ↔ s.OnNet w ∨ V w := by
  have hsame : ∀ w, s₁.OnNet w ↔ s.OnNet w := by
    intro w
    unfold OnNet
    rw [hindex]
    refine exists_congr fun t => and_congr_right fun ht => ?_
    rw [hold t (h.index t ht)]
  have honnet : ∀ w, s'.OnNet w ↔ s.OnNet w ∨ V w := by
    intro w
    rw [hre.onNet_iff fun t ht i => by rw [hold t (holds t ht)]; exact hcover t ht i, hsame]
    constructor
    · rintro (hw | hw)
      · exact .inl hw
      · exact hverts w hw
    · rintro (hw | hw)
      · exact .inl hw
      · exact .inr (hadded w hw)
  refine ⟨⟨hre.wired, ?_, ?_, ?_⟩, honnet⟩
  · intro t ht i
    rw [hre.trigonCount] at ht
    rw [hre.vex, honnet]
    rcases Nat.lt_or_ge t s.trigonCount with hlt | hge
    · rw [hold t hlt]
      exact .inl (h.covering t hlt i)
    · exact hverts _ ⟨t, (hnews t).mpr ⟨hge, ht⟩, i, rfl⟩
  · intro t ht
    rw [hre.trigonIndex, hindex] at ht
    rw [hre.trigonCount]
    rcases List.mem_append.mp ht with ht | ht
    · exact (h.index t (List.diff_subset _ _ ht)).trans_le hcount
    · exact ((hnews t).mp ht).2
  · intro r c t ht
    rw [hre.trigonCount]
    rcases hcells r c t ht with ht | ht
    · exact (h.cells r c t ht).trans_le hcount
    · exact ((hnews t).mp ht).2

/-- `InsertMid` adds its vertex. -/
lemma insertMid_intact {v : Vertex K} {t : TrigonRef} (h : s.Intact) (ht : t < s.trigonCount)
    (hr : s.insertMid v t = .ok s') :
    s'.Intact ∧ s'.listp = s.listp ∧ s'.lnlist = s.lnlist ∧
      ∀ w, s'.OnNet w ↔ s.OnNet w ∨ w = v := by
  have hre := insertMid_reindexed h.wired hr
  have hcells : ∀ r c, ∀ u ∈ s'.cells r c,
      u ∈ s.cells r c ∨ u ∈ [s.mids 0, s.mids 1, s.mids 2] := by
    obtain ⟨s₁, s₂, h₁, h₂, rfl⟩ := insertMid_eq_ok.mp hr
    obtain ⟨n, e, q, he⟩ := enterEdges_eq s₂ [(s.mids 0, 0), (s.mids 1, 1), (s.mids 2, 2)]
    have hin := rebuild_cells (newMids_wired h.wired v t) h₁ h₂
    rw [he]
    exact hin
  have hmids : ∀ i, (s.newMids v t).vex (s.mids i) = fun j => if i ≠ j then s.vex t j else v :=
    fun i => (s.newMids_new v t i).1
  have hmem : ∀ i, s.mids i ∈ [s.mids 0, s.mids 1, s.mids 2] := by
    intro i
    fin_cases i <;> simp
  have hnews : ∀ u, u ∈ [s.mids 0, s.mids 1, s.mids 2] ↔ ∃ i, u = s.mids i := by
    intro u
    constructor
    · intro hu
      simp only [List.mem_cons, List.not_mem_nil, or_false] at hu
      rcases hu with rfl | rfl | rfl
      · exact ⟨0, rfl⟩
      · exact ⟨1, rfl⟩
      · exact ⟨2, rfl⟩
    · rintro ⟨i, rfl⟩
      exact hmem i
  have hboth := h.rebuilt (s.newMids v t) (V := fun w => w = v) ?_ ?_ rfl ?_ ?_ ?_ ?_ ?_ hre
    hcells
  · exact ⟨hboth.1, hre.listp, hre.lnlist, hboth.2⟩
  · rw [newMids_count]
    omega
  · intro u hu
    exact (s.newMids_old v t (s.ne_mids hu)).1
  · intro u
    rw [hnews, newMids_count]
    constructor
    · rintro ⟨i, rfl⟩
      exact ⟨Nat.le_add_right _ _, s.mids_lt i⟩
    · rintro ⟨hge, hlt⟩
      obtain ⟨k, rfl⟩ := Nat.exists_eq_add_of_le hge
      exact ⟨⟨k, Nat.lt_of_add_lt_add_left hlt⟩, rfl⟩
  · simpa using ht
  · intro u hu i
    obtain rfl := List.mem_singleton.mp hu
    refine ⟨s.mids (i + 1), hmem _, i, ?_⟩
    rw [hmids]
    exact if_pos (side_ne_one i).symm
  · rintro w ⟨u, hu, j, rfl⟩
    obtain ⟨i, rfl⟩ := (hnews u).mp hu
    rw [hmids]
    by_cases hij : i = j
    · right
      simp [hij]
    · left
      have hkept : (fun j => if i ≠ j then s.vex t j else v) j = s.vex t j := if_pos hij
      rw [hkept]
      exact h.covering t ht j
  · rintro w rfl
    refine ⟨s.mids 0, hmem 0, 0, ?_⟩
    rw [hmids]
    simp

/-- `ChangeEdge` keeps the vertices. -/
lemma changeEdge_intact {edge : QueueNode} (h : s.Intact) (hr : s.changeEdge edge = .ok s') :
    s'.Intact ∧ s'.listp = s.listp ∧ s'.lnlist = s.lnlist ∧ ∀ w, s'.OnNet w ↔ s.OnNet w := by
  cases hl : s.link (edge.trigon, edge.vid) with
  | none =>
    have hnull := h.wired.link_eq_none.mp hl
    simp only [changeEdge, hnull, pure, Except.pure, Except.ok.injEq] at hr
    exact hr ▸ ⟨h, rfl, rfl, fun w => Iff.rfl⟩
  | some b =>
    obtain ⟨p2, vid1⟩ := b
    obtain ⟨hp1, hp2, -⟩ := h.wired.known _ _ _ _ hl
    have hcells : ∀ r c, ∀ u ∈ s'.cells r c,
        u ∈ s.cells r c ∨ u ∈ [s.trigonCount, s.trigonCount + 1] := by
      obtain ⟨s₁, s₂, h₁, h₂, rfl⟩ := (changeEdge_eq_ok hl).mp hr
      obtain ⟨n, e, q, he⟩ := enterOuters_eq s₂ [(s.trigonCount, 0), (s.trigonCount, 2),
        (s.trigonCount + 1, 0), (s.trigonCount + 1, 2)]
      have hin := rebuild_cells (newPair_wired h.wired hl) h₁ h₂
      rw [he]
      exact hin
    have hold : ∀ u < s.trigonCount,
        (s.newPair edge.trigon edge.vid p2 vid1).vex u = s.vex u :=
      fun u hu => (s.newPair_old _ _ _ _ hu.ne (Nat.lt_add_right 1 hu).ne).1
    have hknown : ∀ u ∈ [edge.trigon, p2], u < s.trigonCount := by
      simp only [List.mem_cons, List.not_mem_nil, or_false, forall_eq_or_imp, forall_eq]
      exact ⟨hp1, hp2⟩
    obtain ⟨hcover, hverts⟩ := newPair_vertices h.wired hl
    have hre := changeEdge_reindexed h.wired hl hr
    have hboth := h.rebuilt (s.newPair edge.trigon edge.vid p2 vid1) (V := fun _ => False) ?_ hold
      rfl ?_ hknown hcover ?_ (by simp) hre hcells
    · simp only [or_false] at hboth
      exact ⟨hboth.1, hre.listp, hre.lnlist, hboth.2⟩
    · rw [newPair_count]
      omega
    · intro u
      rw [newPair_count]
      simp only [List.mem_cons, List.not_mem_nil, or_false]
      constructor
      · rintro (rfl | rfl)
        · exact ⟨le_rfl, Nat.lt_add_of_pos_right Nat.two_pos⟩
        · exact ⟨Nat.le_add_right _ 1, Nat.lt_succ_self _⟩
      · rintro ⟨hge, hlt⟩
        rcases Nat.eq_or_lt_of_le hge with heq | hgt
        · exact .inl heq.symm
        · exact .inr (Nat.le_antisymm (Nat.lt_succ_iff.mp hlt) hgt)
    · rintro w ⟨u, hu, j, rfl⟩
      obtain ⟨t, ht, i, hi⟩ := hverts u hu j
      rw [hi]
      exact .inl (h.covering t (hknown t ht) i)

end Rebuilding

end Net

/-! The operations do not leave the grid. -/

namespace Net

variable {K : Type} {s s' : Net K}

/-- A side with a neighbour has the neighbour's index. -/
def Paired (s : Net K) : Prop := ∀ t i, s.nbtri t i ≠ none → s.nbvex t i ≠ none

/-- The objects and the grid are the same, and the sides are paired. -/
structure Kept (s s' : Net K) : Prop where
  paired : s'.Paired
  vex : s'.vex = s.vex
  listp : s'.listp = s.listp

lemma Kept.trans {s'' : Net K} (h : s.Kept s') (h' : s'.Kept s'') : s.Kept s'' :=
  ⟨h'.paired, h'.vex.trans h.vex, h'.listp.trans h.listp⟩

lemma Paired.index (h : s.Paired) {t u : TrigonRef} {i : Fin 3} (hu : s.nbtri t i = some u) :
    ∃ j, s.nbvex t i = some j :=
  Option.ne_none_iff_exists'.mp (h t i (by simp [hu]))

lemma Paired.setNeighbour (h : s.Paired) (t : TrigonRef) (i : Fin 3) {u : Option TrigonRef}
    {j : Option (Fin 3)} (huj : u ≠ none → j ≠ none) : (s.setNeighbour t i u j).Paired := by
  intro t' i' hne
  simp only [Net.setNeighbour, write_apply] at hne ⊢
  split_ifs at hne ⊢ with hcell
  · exact huj hne
  · exact h t' i' hne

lemma clearAcross_returns (h : s.Paired) (t : TrigonRef) (i : Fin 3) :
    Returns (s.clearAcross t i) s.Kept := by
  unfold clearAcross
  cases hu : s.nbtri t i with
  | none => exact returns_pure.mpr ⟨h, rfl, rfl⟩
  | some u =>
    obtain ⟨j, hj⟩ := h.index hu
    simp only [hj, index_some, ok_bind]
    exact returns_pure.mpr ⟨h, rfl, rfl⟩

lemma deleteEtc_returns (h : s.Paired) (o : Option QueueNode) :
    Returns (s.deleteEtc o) s.Kept := by
  cases o with
  | none => exact returns_pure.mpr ⟨h, rfl, rfl⟩
  | some node =>
    have hset : (s.setEtc node.trigon node.vid none).Paired := h
    refine returns_bind.mpr ((clearAcross_returns hset node.trigon node.vid).mono ?_)
    intro s' _ hs'
    exact returns_pure.mpr ⟨hs'.paired, hs'.vex, hs'.listp⟩

lemma deleteEdge_returns (h : s.Paired) (t : TrigonRef) (i : Fin 3) :
    Returns (s.deleteEdge t i) s.Kept := by
  refine returns_bind.mpr ((deleteEtc_returns h _).mono ?_)
  intro s₁ hr hs₁
  obtain ⟨e, q, rfl, -⟩ := deleteEtc_ok hr
  cases hu : s.nbtri t i with
  | none => simpa [hu] using hs₁
  | some u =>
    obtain ⟨j, hj⟩ := h.index hu
    simp only [hj, index_some, ok_bind]
    exact (deleteEtc_returns hs₁.paired _).mono fun s₂ _ hs₂ => hs₁.trans hs₂

lemma detachSide_returns (h : s.Paired) (t : TrigonRef) (i : Fin 3) :
    Returns (detachSide t s i) s.Kept := by
  unfold detachSide
  refine returns_bind.mpr ((deleteEdge_returns h t i).mono ?_)
  intro s₁ _ hs₁
  cases hu : s.nbtri t i with
  | none => exact returns_pure.mpr hs₁
  | some u =>
    obtain ⟨j, hj⟩ := h.index hu
    simp only [hj, index_some, ok_bind]
    exact returns_pure.mpr ⟨hs₁.paired.setNeighbour u j (by simp), hs₁.vex, hs₁.listp⟩

lemma attachSide_returns (h : s.Paired) (t : TrigonRef) (i : Fin 3) :
    Returns (attachSide t s i) s.Kept := by
  unfold attachSide
  cases hu : s.nbtri t i with
  | none => exact returns_pure.mpr ⟨h, rfl, rfl⟩
  | some u =>
    obtain ⟨j, hj⟩ := h.index hu
    simp only [hj, index_some, ok_bind]
    exact returns_pure.mpr ⟨h.setNeighbour u j (by simp), rfl, rfl⟩

lemma checkSide_returns (h : s.Paired) (t : TrigonRef) (i : Fin 3) :
    Returns (checkSide t s i) s.Kept := by
  unfold checkSide
  cases hu : s.nbtri t i with
  | none => exact returns_pure.mpr ⟨h, rfl, rfl⟩
  | some u =>
    obtain ⟨j, hj⟩ := h.index hu
    simp only [hj, index_some, ok_bind]
    split_ifs
    · obtain ⟨n, e, q, he⟩ := enterEdges_eq s [(t, i)]
      have hentered : s.enterEdge t i = { s with nodeCount := n, etc := e, queue := q } := he
      rw [hentered]
      exact returns_pure.mpr ⟨h, rfl, rfl⟩
    · exact returns_pure.mpr ⟨h, rfl, rfl⟩

/-- The three sides of a trigon, one after the other. -/
lemma sides_return {side : Net K → Fin 3 → Except Stop (Net K)}
    (hside : ∀ s : Net K, s.Paired → ∀ i, Returns (side s i) s.Kept) (h : s.Paired) :
    Returns ([0, 1, 2].foldlM side s) s.Kept := by
  refine foldlM_returns (fun i _ s₁ hs₁ => ?_) ⟨h, rfl, rfl⟩
  exact (hside s₁ hs₁.paired i).mono fun s₂ _ hs₂ => hs₁.trans hs₂

variable [Field K] [LinearOrder K] [FloorRing K]

/-- `Delete` and `Insert` stay in the grid for a trigon with vertices in it. -/
lemma queryList_completes {t : TrigonRef} (hg : ∀ i, s.listp.Covers (s.vex t i)) :
    (∃ s', QueryList.delete s t = .ok s') ∧ ∃ s', QueryList.insert s t = .ok s' := by
  obtain ⟨cells, hc⟩ := QueryList.deleteCells_total (fun _ => ListParam.box_inRange hg) t s.cells
  obtain ⟨cells', hc'⟩ := QueryList.insertCells_total (fun _ => ListParam.box_inRange hg) t s.cells
  exact ⟨⟨_, bind_eq_ok.mpr ⟨cells, hc, rfl⟩⟩, ⟨_, bind_eq_ok.mpr ⟨cells', hc', rfl⟩⟩⟩

lemma deleteTrigon_returns {t : TrigonRef} (h : s.Paired)
    (hg : ∀ i, s.listp.Covers (s.vex t i)) : Returns (s.deleteTrigon t) s.Kept := by
  obtain ⟨⟨s₁, h₁⟩, -⟩ := queryList_completes hg
  unfold deleteTrigon
  rw [h₁, ok_bind]
  obtain ⟨cells, -, rfl⟩ := QueryList.delete_ok h₁
  have hdeleted : ({ s with cells := cells, trigonIndex := s.trigonIndex.erase t } :
      Net K).Paired := h
  refine returns_bind.mpr ((sides_return (fun s hs => detachSide_returns hs t) hdeleted).mono ?_)
  intro s₂ _ hs₂
  exact returns_pure.mpr ⟨hs₂.paired, hs₂.vex, hs₂.listp⟩

lemma insertTrigon_returns {t : TrigonRef} (h : s.Paired)
    (hg : ∀ i, s.listp.Covers (s.vex t i)) : Returns (s.insertTrigon t) s.Kept := by
  unfold insertTrigon
  refine returns_bind.mpr ((sides_return (fun s hs => attachSide_returns hs t) h).mono ?_)
  intro s₁ _ hs₁
  obtain ⟨-, ⟨s₂, h₂⟩⟩ := queryList_completes (s := s₁) (t := t) fun i => by
    rw [hs₁.listp, hs₁.vex]
    exact hg i
  rw [h₂, ok_bind]
  obtain ⟨cells, -, rfl⟩ := QueryList.insert_ok h₂
  exact returns_pure.mpr ⟨hs₁.paired, hs₁.vex, hs₁.listp⟩

/-- The same for several trigons, one after the other. -/
lemma trigons_return {each : Net K → TrigonRef → Except Stop (Net K)} {l : List TrigonRef}
    (heach : ∀ (s : Net K) (t : TrigonRef), s.Paired → (∀ i, s.listp.Covers (s.vex t i)) →
      Returns (each s t) s.Kept)
    (h : s.Paired) (hg : ∀ t ∈ l, ∀ i, s.listp.Covers (s.vex t i)) :
    Returns (l.foldlM each s) s.Kept := by
  refine foldlM_returns (fun t ht s₁ hs₁ => ?_) ⟨h, rfl, rfl⟩
  refine (heach s₁ t hs₁.paired fun i => ?_).mono fun s₂ _ hs₂ => hs₁.trans hs₂
  rw [hs₁.listp, hs₁.vex]
  exact hg t ht i

/-- `InsertMid` completes for a trigon and a vertex in the grid. -/
lemma insertMid_completes {v : Vertex K} {t : TrigonRef} (h : s.Intact) (hg : s.OnGrid)
    (hv : s.listp.Covers v) (ht : t < s.trigonCount) : ∃ s', s.insertMid v t = .ok s' := by
  have hw := newMids_wired h.wired v t
  have hvex : ∀ i, (s.newMids v t).vex (s.mids i) = fun j => if i ≠ j then s.vex t j else v :=
    fun i => (s.newMids_new v t i).1
  have hnew : ∀ i j, s.listp.Covers ((s.newMids v t).vex (s.mids i) j) := by
    intro i j
    rw [hvex]
    dsimp only
    split_ifs
    · exact hg _ (h.covering t ht j)
    · exact hv
  obtain ⟨s₁, h₁, hs₁⟩ := trigons_return (l := [t])
    (fun _ _ => deleteTrigon_returns) hw.paired fun u hu i => by
    obtain rfl := List.mem_singleton.mp hu
    rw [(s.newMids_old v u (s.ne_mids ht)).1]
    exact hg _ (h.covering u ht i)
  obtain ⟨s₂, h₂, -⟩ := trigons_return (l := [s.mids 0, s.mids 1, s.mids 2])
    (fun _ _ => insertTrigon_returns) hs₁.paired fun u hu i => by
      rw [hs₁.listp, hs₁.vex]
      simp only [List.mem_cons, List.not_mem_nil, or_false] at hu
      rcases hu with rfl | rfl | rfl
      · exact hnew 0 i
      · exact hnew 1 i
      · exact hnew 2 i
  exact ⟨_, insertMid_eq_ok.mpr ⟨s₁, s₂, h₁, h₂, rfl⟩⟩

/-- So does `ChangeEdge`, at any node. -/
lemma changeEdge_returns (h : s.Intact) (hg : s.OnGrid) (edge : QueueNode) :
    ∃ s', s.changeEdge edge = .ok s' := by
  cases hl : s.link (edge.trigon, edge.vid) with
  | none =>
    have hnull := h.wired.link_eq_none.mp hl
    exact ⟨s, by simp [changeEdge, hnull, pure, Except.pure]⟩
  | some b =>
    obtain ⟨p2, vid1⟩ := b
    obtain ⟨hp1, hp2, -⟩ := h.wired.known _ _ _ _ hl
    have hold : ∀ u < s.trigonCount,
        (s.newPair edge.trigon edge.vid p2 vid1).vex u = s.vex u :=
      fun u hu => (s.newPair_old _ _ _ _ hu.ne (Nat.lt_add_right 1 hu).ne).1
    have hknown : ∀ u ∈ [edge.trigon, p2], u < s.trigonCount := by
      simp only [List.mem_cons, List.not_mem_nil, or_false, forall_eq_or_imp, forall_eq]
      exact ⟨hp1, hp2⟩
    obtain ⟨-, hverts⟩ := newPair_vertices h.wired hl
    obtain ⟨s₁, h₁, hs₁⟩ := trigons_return (l := [edge.trigon, p2])
      (fun _ _ => deleteTrigon_returns) (newPair_wired h.wired hl).paired fun u hu i => by
        rw [hold u (hknown u hu)]
        exact hg _ (h.covering u (hknown u hu) i)
    obtain ⟨s₂, h₂, -⟩ := trigons_return (l := [s.trigonCount, s.trigonCount + 1])
      (fun _ _ => insertTrigon_returns) hs₁.paired fun u hu j => by
        rw [hs₁.listp, hs₁.vex]
        obtain ⟨t, ht, i, hi⟩ := hverts u hu j
        rw [hi]
        exact hg _ (h.covering t (hknown t ht) i)
    exact ⟨_, (changeEdge_eq_ok hl).mpr ⟨s₁, s₂, h₁, h₂, rfl⟩⟩

end Net

/-! Runs of insertions. -/

namespace Net

variable {K : Type} {s s' : Net K}

lemma Intact.of_queue (h : s.Intact) (n : ℕ) (e : TrigonRef → Fin 3 → Option QueueNode)
    (q : List QueueNode) : ({ s with nodeCount := n, etc := e, queue := q } : Net K).Intact :=
  ⟨⟨h.wired.paired, h.wired.known, h.wired.ends⟩, h.covering, h.index, h.cells⟩

/-- What a run of the net's operations keeps, and which vertices it leaves on the net. -/
structure Extends (s s' : Net K) (added : Vertex K → Prop) : Prop where
  intact : s'.Intact
  listp : s'.listp = s.listp
  lnlist : s'.lnlist = s.lnlist
  onNet_iff : ∀ w, s'.OnNet w ↔ s.OnNet w ∨ added w

lemma Extends.refl (h : s.Intact) : s.Extends s fun _ => False :=
  ⟨h, rfl, rfl, fun w => by simp⟩

lemma Extends.trans {s'' : Net K} {added added' : Vertex K → Prop} (h : s.Extends s' added)
    (h' : s'.Extends s'' added') : s.Extends s'' fun w => added w ∨ added' w := by
  refine ⟨h'.intact, h'.listp.trans h.listp, h'.lnlist.trans h.lnlist, fun w => ?_⟩
  rw [h'.onNet_iff, h.onNet_iff, or_assoc]

lemma Extends.onGrid {added : Vertex K → Prop} [Field K] [LinearOrder K] [FloorRing K]
    (h : s.Extends s' added) (hg : s.OnGrid) (hadded : ∀ w, added w → s.listp.Covers w) :
    s'.OnGrid := by
  intro w hw
  rw [h.listp]
  rcases (h.onNet_iff w).mp hw with hw | hw
  · exact hg w hw
  · exact hadded w hw

lemma removeEdge_ok {node : QueueNode} (hr : s.removeEdge node = .ok s') :
    ∃ e, s' = { s with etc := e } := by
  unfold removeEdge at hr
  simp only [bind_eq_ok, pure, Except.pure, Except.ok.injEq] at hr
  obtain ⟨t1, -, vid1, -, rfl⟩ := hr
  split_ifs
  · exact ⟨_, rfl⟩
  · exact ⟨_, rfl⟩
  · exact ⟨_, rfl⟩
  · exact ⟨_, rfl⟩

lemma removeEdge_ne_error (h : s.Paired) (node : QueueNode) :
    s.removeEdge node ≠ .error .indexOutOfBounds := by
  unfold removeEdge
  dsimp only
  have hsame : ∀ s₁ : Net K, s₁.nbtri = s.nbtri → s₁.nbvex = s.nbvex →
      (do
        let t1 ← deref (s₁.nbtri node.trigon node.vid)
        let vid1 ← Triangle.index (s₁.nbvex node.trigon node.vid)
        return if s₁.etc t1 vid1 = some node then s₁.setEtc t1 vid1 none else s₁ :
          Except Stop (Net K)) ≠ .error .indexOutOfBounds := by
    intro s₁ hnb hnv
    rw [hnb, hnv]
    cases hu : s.nbtri node.trigon node.vid with
    | none => simp [deref, bind, Except.bind]
    | some u =>
      obtain ⟨j, hj⟩ := h.index hu
      simp [hj, bind, Except.bind, pure, Except.pure]
  split_ifs
  · exact hsame _ rfl rfl
  · exact hsame _ rfl rfl

variable [Field K] [LinearOrder K] [FloorRing K]

omit [FloorRing K] in
/-- `Exchangable` throws only where the edge has no neighbour. -/
lemma exchangable_ne_error (h : s.Paired) (node : QueueNode) :
    s.exchangable node ≠ .error .indexOutOfBounds := by
  unfold exchangable
  cases hu : s.nbtri node.trigon node.vid with
  | none => simp [deref, bind, Except.bind]
  | some u =>
    obtain ⟨j, hj⟩ := h.index hu
    simp [hj, bind, Except.bind, pure, Except.pure]

lemma processBody_extends (h : s.Intact) (hr : Iteration processBody s s') :
    s.Extends s' fun _ => False := by
  unfold Iteration processBody at hr
  cases hq : s.queue with
  | nil => simp [hq, pure, Except.pure] at hr
  | cons edge rest =>
    simp only [hq, bind_eq_ok] at hr
    obtain ⟨b, -, hr⟩ := hr
    have hrest := h.of_queue s.nodeCount s.etc rest
    split_ifs at hr
    · obtain ⟨s₁, h₁, hr⟩ := bind_eq_ok.mp hr
      simp only [pure, Except.pure, Except.ok.injEq, Option.some.injEq] at hr
      obtain ⟨hintact, hlistp, hlnlist, honnet⟩ := changeEdge_intact hrest h₁
      rw [hr] at hintact hlistp hlnlist honnet
      exact ⟨hintact, hlistp, hlnlist, fun w => (honnet w).trans (by simp [OnNet])⟩
    · obtain ⟨s₁, h₁, hr⟩ := bind_eq_ok.mp hr
      simp only [pure, Except.pure, Except.ok.injEq, Option.some.injEq] at hr
      obtain ⟨e, rfl⟩ := removeEdge_ok h₁
      subst hr
      exact ⟨h.of_queue s.nodeCount e rest, rfl, rfl, fun w => by simp [OnNet]⟩

lemma process_extends {fuel : ℕ} (h : s.Intact) (hr : s.process fuel = .ok s') :
    s.Extends s' fun _ => False := by
  refine (invariant_of_run (I := fun s₁ => s.Extends s₁ fun _ => False) (fun s₁ s₂ h₁ h₂ => ?_) hr
    (.refl h)).1
  simpa using h₁.trans (processBody_extends h₁.intact h₂)

lemma processBody_ne_error (h : s.Intact) (hg : s.OnGrid) :
    processBody s ≠ .error .indexOutOfBounds := by
  unfold processBody
  cases hq : s.queue with
  | nil => simp [pure, Except.pure]
  | cons edge rest =>
    have hrest := h.of_queue s.nodeCount s.etc rest
    refine bind_ne_error (exchangable_ne_error hrest.wired.paired edge) fun b _ => ?_
    split_ifs
    · obtain ⟨s₁, h₁⟩ := changeEdge_returns hrest hg edge
      simp [h₁, bind, Except.bind, pure, Except.pure]
    · refine bind_ne_error (removeEdge_ne_error hrest.wired.paired edge) fun s₁ _ => ?_
      simp [pure, Except.pure]

lemma process_ne_error (fuel : ℕ) (h : s.Intact) (hg : s.OnGrid) :
    s.process fuel ≠ .error .indexOutOfBounds := by
  refine run_ne_error (I := fun s => s.Intact ∧ s.OnGrid) (fun s s' hs hr => ?_)
    (fun s hs => processBody_ne_error hs.1 hs.2) (by simp) ⟨h, hg⟩ fuel
  have hext := processBody_extends hs.1 hr
  exact ⟨hext.intact, hext.onGrid hs.2 (by simp)⟩

/-- The trigon that `GetTrigon` finds exists, and the grid has a cell for the vertex. -/
lemma getTrigon_known (h : s.Intact) {v : Vertex K} {t : TrigonRef}
    (ht : QueryList.getTrigon s v = some t) : t < s.trigonCount ∧ s.listp.Covers v := by
  unfold QueryList.getTrigon at ht
  dsimp only at ht
  split_ifs at ht with hrange
  exact ⟨h.cells _ _ t (List.mem_of_find?_eq_some ht), hrange⟩

/-- `InsertToNet` adds its vertex if it finds a trigon for it. -/
lemma insertToNet_extends {fuel : ℕ} {v : Vertex K} (h : s.Intact)
    (hr : s.insertToNet fuel v = .ok s') :
    s.Extends s' fun w => w = v ∧ (QueryList.getTrigon s v).isSome := by
  unfold insertToNet at hr
  cases ht : QueryList.getTrigon s v with
  | none =>
    simp only [ht, Except.ok.injEq] at hr
    subst hr
    simpa using Extends.refl h
  | some t =>
    simp only [ht] at hr
    obtain ⟨s₁, h₁, hr⟩ := bind_eq_ok.mp hr
    obtain ⟨hintact, hlistp, hlnlist, honnet⟩ :=
      insertMid_intact h (getTrigon_known h ht).1 h₁
    have hext : s.Extends s₁ fun w => w = v := ⟨hintact, hlistp, hlnlist, honnet⟩
    simpa using hext.trans (process_extends hintact hr)

lemma insertToNet_ne_error (fuel : ℕ) (v : Vertex K) (h : s.Intact) (hg : s.OnGrid) :
    s.insertToNet fuel v ≠ .error .indexOutOfBounds := by
  unfold insertToNet
  cases ht : QueryList.getTrigon s v with
  | none => simp
  | some t =>
    obtain ⟨hknown, hcovers⟩ := getTrigon_known h ht
    obtain ⟨s₁, h₁⟩ := insertMid_completes h hg hcovers hknown
    obtain ⟨hintact, hlistp, hlnlist, honnet⟩ := insertMid_intact h hknown h₁
    have hext : s.Extends s₁ fun w => w = v := ⟨hintact, hlistp, hlnlist, honnet⟩
    dsimp only
    rw [h₁, ok_bind]
    exact process_ne_error fuel hintact (hext.onGrid hg fun w hw => hw ▸ hcovers)

end Net

/-! The start net. -/

namespace Net

variable {K : Type} [Field K] [LinearOrder K] [FloorRing K] {s₀ s s' : Net K}
variable {vs : List (Vertex K)}

/-- What `triangulize` keeps of the net and of the polygon that remains. -/
structure Started (s₀ : Net K) (vs : List (Vertex K)) (sp : Net K × List (PolygonNode K)) :
    Prop where
  adjacent : sp.1.Adjacent
  outline : sp.1.Outline sp.2
  live : ∀ t < sp.1.trigonCount, sp.1.Live t
  cells : ∀ r c, ∀ t ∈ sp.1.cells r c, t < sp.1.trigonCount
  vertices : ∀ t < sp.1.trigonCount, ∀ i, sp.1.vex t i ∈ vs
  nodes : ∀ n ∈ sp.2, n.vertex ∈ vs
  listp : sp.1.listp = s₀.listp
  lnlist : sp.1.lnlist = s₀.lnlist

lemma Started.appendTrigon {sp sp' : Net K × List (PolygonNode K)} (h : Started s₀ vs sp)
    (hr : Polygon.appendTrigon sp.1 sp.2 = .ok sp') : Started s₀ vs sp' := by
  obtain ⟨s', nodes'⟩ := sp'
  obtain ⟨hadj, hout, -⟩ := appendTrigon_adjacent h.adjacent h.outline hr
  obtain ⟨edge, s₁, hcut, h₁, h₂⟩ := appendTrigon_ok hr
  have happ := h.adjacent.appended (h.outline.edges hcut).1
  obtain ⟨hedge, hnodes⟩ := hcut.vertices h.nodes
  obtain ⟨cells, nb, nv, rfl, hcells, -⟩ := insertTrigon_ok (happ.no_self _) h₁
  obtain ⟨n, e, q, rfl⟩ := checkTrigonEdge_ok h₂
  refine ⟨hadj, hout, fun t ht => ?_, fun r c t ht => ?_, fun t ht i => ?_, hnodes, h.listp,
    h.lnlist⟩
  · have hlive : t ∈ sp.1.trigonIndex ++ [sp.1.trigonCount] := by
      rw [List.mem_append, List.mem_singleton]
      rcases Nat.lt_succ_iff_lt_or_eq.mp ht with hlt | heq
      · exact .inl (h.live t hlt)
      · exact .inr heq
    exact hlive
  · rcases ((QueryList.insertCells_ok hcells).1 r c t).mp ht with hin | ⟨rfl, -⟩
    · exact Nat.lt_succ_of_lt (h.cells r c t hin)
    · exact Nat.lt_succ_self _
  · change (sp.1.appended edge).vex t i ∈ vs
    rcases Nat.lt_succ_iff_lt_or_eq.mp ht with hlt | rfl
    · rw [appended_vex_old hlt.ne]
      exact h.vertices t hlt i
    · rw [appended_vex_new]
      exact hedge (i + 2)

omit [Field K] [LinearOrder K] [FloorRing K] in
lemma mem_turn {nodes : List (PolygonNode K)} {n : PolygonNode K}
    (hn : n ∈ Polygon.turn nodes) : n ∈ nodes := by
  cases nodes with
  | nil => exact hn
  | cons m rest => simpa [Polygon.turn, or_comm] using hn

lemma triangulizeBody_started {sp sp' : Net K × List (PolygonNode K)} (h : Started s₀ vs sp)
    (hr : Iteration Polygon.triangulizeBody sp sp') : Started s₀ vs sp' := by
  unfold Iteration Polygon.triangulizeBody at hr
  split_ifs at hr
  · simp [pure, Except.pure] at hr
  · simp only [bind_eq_ok, pure, Except.pure, Except.ok.injEq, Option.some.injEq] at hr
    obtain ⟨sp₁, h₁, rfl⟩ := hr
    exact h.appendTrigon h₁
  · simp only [pure, Except.pure, Except.ok.injEq, Option.some.injEq] at hr
    subst hr
    exact ⟨h.adjacent, h.outline.turn, h.live, h.cells, h.vertices,
      fun n hn => h.nodes n (mem_turn hn), h.listp, h.lnlist⟩

/-- A trigon that is cut off the start polygon has its cells in the grid. -/
lemma Started.appendTrigon_ne_error {sp : Net K × List (PolygonNode K)} (h : Started s₀ vs sp)
    (hg : ∀ v ∈ vs, s₀.listp.Covers v) :
    Polygon.appendTrigon sp.1 sp.2 ≠ .error .indexOutOfBounds := by
  rcases Nat.lt_or_ge sp.2.length 3 with hlt | hge
  · rw [appendTrigon_short hlt]
    simp
  · obtain ⟨edge, nodes', hcut⟩ := exists_cutOff sp.1.trigonCount hge
    rw [appendTrigon_eq hcut]
    have happ := h.adjacent.appended (h.outline.edges hcut).1
    obtain ⟨hedge, -⟩ := hcut.vertices h.nodes
    have hcovers : ∀ i, (sp.1.appended edge).listp.Covers
        ((sp.1.appended edge).vex sp.1.trigonCount i) := by
      intro i
      rw [appended_vex_new]
      change sp.1.listp.Covers _
      rw [h.listp]
      exact hg _ (hedge (i + 2))
    obtain ⟨s₁, h₁, hs₁⟩ := insertTrigon_returns happ.paired hcovers
    obtain ⟨s₂, h₂, -⟩ := sides_return
      (fun s hs => checkSide_returns hs sp.1.trigonCount) hs₁.paired
    rw [h₁, ok_bind, checkTrigonEdge, h₂, ok_bind]
    simp [pure, Except.pure]

lemma triangulizeBody_ne_error {sp : Net K × List (PolygonNode K)} (h : Started s₀ vs sp)
    (hg : ∀ v ∈ vs, s₀.listp.Covers v) :
    Polygon.triangulizeBody sp ≠ .error .indexOutOfBounds := by
  unfold Polygon.triangulizeBody
  split_ifs
  · simp [pure, Except.pure]
  · refine bind_ne_error (h.appendTrigon_ne_error hg) fun sp' _ => ?_
    simp [pure, Except.pure]
  · simp [pure, Except.pure]

/-- No trigon exists yet. -/
structure Blank (s : Net K) : Prop where
  adjacent : s.Adjacent
  trigonCount : s.trigonCount = 0
  cells : ∀ r c, s.cells r c = []

omit [Field K] [LinearOrder K] [FloorRing K] in
lemma Blank.started (h : s₀.Blank) (vs : List (Vertex K)) :
    Started s₀ vs (s₀, Polygon.ofVertices vs) := by
  refine ⟨h.adjacent, outline_ofVertices s₀ vs, ?_, ?_, ?_, by simp [Polygon.ofVertices], rfl, rfl⟩
  · simp [h.trigonCount]
  · simp [h.cells]
  · simp [h.trigonCount]

omit [Field K] [LinearOrder K] [FloorRing K] in
lemma Started.intact {nodes : List (PolygonNode K)} (h : Started s₀ vs (s, nodes)) : s.Intact :=
  ⟨h.adjacent.toWired, fun t ht i => ⟨t, h.live t ht, i, rfl⟩, h.adjacent.old, h.cells⟩

/-- `triangulize` leaves an intact net of trigons with vertices of the start polygon. -/
lemma triangulize_intact {fuel : ℕ} (h₀ : s₀.Blank)
    (hr : Polygon.triangulize fuel s₀ (Polygon.ofVertices vs) = .ok s) :
    s.Intact ∧ s.listp = s₀.listp ∧ s.lnlist = s₀.lnlist ∧ ∀ v, s.OnNet v → v ∈ vs := by
  simp only [Polygon.triangulize, bind_eq_ok, pure, Except.pure, Except.ok.injEq] at hr
  obtain ⟨⟨s, nodes⟩, hrun, rfl⟩ := hr
  have hstarted := (invariant_of_run (fun _ _ => triangulizeBody_started) hrun
    (h₀.started vs)).1
  refine ⟨hstarted.intact, hstarted.listp, hstarted.lnlist, ?_⟩
  rintro v ⟨t, ht, i, rfl⟩
  exact hstarted.vertices t (hstarted.adjacent.old t ht) i

lemma triangulize_ne_error (fuel : ℕ) (h₀ : s₀.Blank) (hg : ∀ v ∈ vs, s₀.listp.Covers v) :
    Polygon.triangulize fuel s₀ (Polygon.ofVertices vs) ≠ .error .indexOutOfBounds := by
  refine bind_ne_error (run_ne_error (I := Started s₀ vs) (fun _ _ => triangulizeBody_started)
    (fun sp hsp => triangulizeBody_ne_error hsp hg) (by simp) (h₀.started vs) fuel) fun sp _ => ?_
  simp [pure, Except.pure]

end Net

/-! The start polygon has its vertices from the vertex set. -/

namespace Convex

variable {K : Type} {c c' : Convex K} {pts : List (Vertex K)}

/-- Every entry is one of the vertices. -/
def Filled (pts : List (Vertex K)) (c : Convex K) : Prop :=
  ∀ i v, c.ppVertex i = some v → v ∈ pts

lemma Filled.write (h : c.Filled pts) {i : ℕ} {v : Option (Vertex K)}
    (hv : ∀ w, v = some w → w ∈ pts) (hr : c.write i v = .ok c') : c'.Filled pts := by
  unfold Convex.write at hr
  split_ifs at hr
  simp only [Except.ok.injEq] at hr
  subst hr
  intro j w hw
  simp only [Function.update_apply] at hw
  split_ifs at hw
  · exact hv w hw
  · exact h j w hw

lemma Filled.read (h : c.Filled pts) {i : ℕ} {v : Option (Vertex K)} (hr : c.read i = .ok v) :
    ∀ w, v = some w → w ∈ pts := by
  unfold Convex.read at hr
  split_ifs at hr
  simp only [Except.ok.injEq] at hr
  exact fun w hw => h i w (hr.trans hw)

lemma Filled.exchange (h : c.Filled pts) {k j : ℕ} (hr : c.exchange k j = .ok c') :
    c'.Filled pts := by
  simp only [Convex.exchange, bind_eq_ok] at hr
  obtain ⟨t, ht, v, hv, c₁, h₁, h₂⟩ := hr
  exact (h.write (h.read hv) h₁).write (h.read ht) h₂

lemma setData_filled (hr : setData pts = .ok c) : c.Filled pts := by
  have hrun : ∀ (l : List (Vertex K)) (c c' : Convex K), (∀ v ∈ l, v ∈ pts) → c.Filled pts →
      l.foldlM addVertex c = .ok c' → c'.Filled pts := by
    intro l
    induction l with
    | nil =>
      intro c c' _ hc hr
      simp only [List.foldlM_nil, pure, Except.pure, Except.ok.injEq] at hr
      exact hr ▸ hc
    | cons v l ih =>
      intro c c' hl hc hr
      simp only [List.foldlM_cons, addVertex, bind_eq_ok, pure, Except.pure, Except.ok.injEq] at hr
      obtain ⟨_, ⟨c₁, h₁, rfl⟩, hr⟩ := hr
      have hwritten : c₁.Filled pts := by
        refine hc.write (fun w hw => ?_) h₁
        obtain rfl := Option.some.inj hw
        exact hl v List.mem_cons_self
      exact ih { c₁ with nov := c₁.nov + 1 } c' (fun w hw => hl w (List.mem_cons_of_mem _ hw))
        hwritten hr
  exact hrun pts _ c (fun v hv => hv) (fun i v hv => by simp at hv) hr

section Run

variable [Field K] [LinearOrder K] {theta : GVector K → K} {math : JavaMath K}

lemma round_filled {s s' : Wrap K} {k : ℕ} (h : s.convex.Filled pts)
    (hr : round theta math s k = .ok s') : s'.convex.Filled pts := by
  simp only [round, bind_eq_ok, pure, Except.pure, Except.ok.injEq] at hr
  obtain ⟨c, hc, r, -, rfl⟩ := hr
  exact h.exchange hc

lemma getConvex_filled {fuel : ℕ} (h : c.Filled pts)
    (hr : c.getConvex theta math fuel = .ok c') : c'.Filled pts := by
  simp only [getConvex, bind_eq_ok, pure, Except.pure, Except.ok.injEq] at hr
  obtain ⟨j, -, v, hv, c₁, h₁, s, hs, s', hs', c₂, h₂, rfl⟩ := hr
  have hcopied : (⟨c₁, j, 0, 0⟩ : Wrap K).convex.Filled pts := h.write (h.read hv) h₁
  have hfirst := round_filled hcopied hs
  have hlast := (invariant_of_run (I := fun s : Wrap K => s.convex.Filled pts)
    (fun s s' hs hr => ?_) hs' hfirst).1
  · have hfilled : c₂.Filled pts := hlast.exchange h₂
    exact hfilled
  · unfold Iteration body at hr
    split_ifs at hr
    · simp at hr
    · simp only [bind_eq_ok, pure, Except.pure, Except.ok.injEq, Option.some.injEq] at hr
      obtain ⟨s₁, h₁, rfl⟩ := hr
      exact round_filled hs h₁

end Run

lemma exportData_mem {l : List (Vertex K)} (h : c.Filled pts) (hr : c.exportData = .ok l) :
    ∀ v ∈ l, v ∈ pts := by
  have hrun : ∀ (is : List ℕ) (l : List (Vertex K)), is.mapM (fun i => do
      let v ← c.read i
      deref v) = .ok l → ∀ v ∈ l, v ∈ pts := by
    intro is
    induction is with
    | nil =>
      intro l hr
      simp only [List.mapM_nil, pure, Except.pure, Except.ok.injEq] at hr
      simp [← hr]
    | cons i is ih =>
      intro l hr
      simp only [List.mapM_cons, bind_eq_ok, pure, Except.pure, Except.ok.injEq] at hr
      obtain ⟨v, ⟨o, ho, hv⟩, l', hl', rfl⟩ := hr
      rw [List.forall_mem_cons]
      refine ⟨?_, ih l' hl'⟩
      cases o with
      | none => simp [deref] at hv
      | some w =>
        simp only [deref, Except.ok.injEq] at hv
        exact h.read ho v (by rw [hv])
  exact hrun _ l hr

end Convex

lemma Net.getBoundary_mem {K : Type} [Field K] [LinearOrder K] [FloorRing K] {math : JavaMath K}
    {fuel : ℕ} {s : Net K} {vs : List (Vertex K)} (hr : s.getBoundary math fuel = .ok vs) :
    ∀ v ∈ vs, v ∈ s.lnlist := by
  simp only [Net.getBoundary, bind_eq_ok] at hr
  obtain ⟨c, hc, c', hc', hr⟩ := hr
  exact Convex.exportData_mem (Convex.getConvex_filled (Convex.setData_filled hc) hc') hr

/-! The grid covers the data and the net. -/

namespace Net

variable {K : Type} [Field K] [LinearOrder K] [FloorRing K] {s s' : Net K}

/-- A call on the net after its start. -/
inductive Call (K : Type) where
  | prepareVertex (vertex : Vertex K)
  | receiveVertex (vertex : Vertex K)
  | insertToNet (vertex : Vertex K)

def Call.run (fuel : ℕ) (s : Net K) : Call K → Except Stop (Net K)
  | .prepareVertex vertex => .ok (s.insertVertex vertex)
  | .receiveVertex vertex => s.receiveVertex fuel vertex
  | .insertToNet vertex => s.insertToNet fuel vertex

/-- `InitTriang` on a start polygon, then calls. -/
def session (fuel : ℕ) (s : Net K) (vs : List (Vertex K)) (calls : List (Call K)) :
    Except Stop (Net K) := do
  let s ← s.initTriang fuel (Polygon.ofVertices vs)
  calls.foldlM (Call.run fuel) s

/-- The grid has the cells of the trigon's bounding box. -/
structure HasCells (s : Net K) (t : TrigonRef) : Prop where
  corners : ∀ x ∈ [minx (s.vex t), maxx (s.vex t)], ∀ y ∈ [miny (s.vex t), maxy (s.vex t)],
    s.listp.InRange (s.listp.cellx x) (s.listp.celly y)
  insert : ∃ s', QueryList.insert s t = .ok s'
  delete : ∃ s', QueryList.delete s t = .ok s'

lemma insertVertex_eq (s : Net K) (v : Vertex K) : ∃ vcells nov lnlist, s.insertVertex v =
    { s with vcells := vcells, np := { s.np with nov := nov }, lnlist := lnlist } := by
  unfold insertVertex
  dsimp only
  split_ifs
  · exact ⟨s.vcells, s.np.nov, s.lnlist, rfl⟩
  · exact ⟨_, _, _, rfl⟩
  · exact ⟨s.vcells, s.np.nov, s.lnlist, rfl⟩

/-- The vertex set is not used by the trigons. -/
lemma insertVertex_intact (h : s.Intact) (hg : s.OnGrid) (v : Vertex K) :
    (s.insertVertex v).Intact ∧ (s.insertVertex v).OnGrid ∧
      (s.insertVertex v).listp = s.listp := by
  obtain ⟨vcells, nov, lnlist, heq⟩ := insertVertex_eq s v
  rw [heq]
  exact ⟨⟨⟨h.wired.paired, h.wired.known, h.wired.ends⟩, h.covering, h.index, h.cells⟩, hg, rfl⟩

/-- `ReceiveVertex` completes its split, and the net is on its grid after it. -/
lemma insertMid_found {v : Vertex K} {t : TrigonRef} (h : s.Intact) (hg : s.OnGrid)
    (ht : QueryList.getTrigon s v = some t) :
    ∃ s₁, (s.insertVertex v).insertMid v t = .ok s₁ ∧ s₁.Intact ∧ s₁.OnGrid := by
  obtain ⟨hknown, hcovers⟩ := getTrigon_known h ht
  obtain ⟨hintact, hgrid, hlistp⟩ := insertVertex_intact h hg v
  have hcount : t < (s.insertVertex v).trigonCount := by
    obtain ⟨vcells, nov, lnlist, heq⟩ := insertVertex_eq s v
    rw [heq]
    exact hknown
  rw [← hlistp] at hcovers
  obtain ⟨s₁, h₁⟩ := insertMid_completes hintact hgrid hcovers hcount
  obtain ⟨hintact₁, hlistp₁, hlnlist₁, honnet⟩ := insertMid_intact hintact hcount h₁
  have hext : (s.insertVertex v).Extends s₁ fun w => w = v :=
    ⟨hintact₁, hlistp₁, hlnlist₁, honnet⟩
  refine ⟨s₁, h₁, hintact₁, hext.onGrid hgrid ?_⟩
  rintro w rfl
  exact hcovers

/-- A call keeps the net intact and on its grid. -/
lemma call_onGrid {fuel : ℕ} {call : Call K} (h : s.Intact ∧ s.OnGrid)
    (hr : call.run fuel s = .ok s') : s'.Intact ∧ s'.OnGrid := by
  cases call with
  | prepareVertex v =>
    simp only [Call.run, Except.ok.injEq] at hr
    obtain ⟨hintact, hgrid, -⟩ := insertVertex_intact h.1 h.2 v
    exact hr ▸ ⟨hintact, hgrid⟩
  | receiveVertex v =>
    simp only [Call.run, receiveVertex] at hr
    cases ht : QueryList.getTrigon s v with
    | none =>
      simp only [ht, Except.ok.injEq] at hr
      exact hr ▸ h
    | some t =>
      obtain ⟨s₁, h₁, hintact, hgrid⟩ := insertMid_found h.1 h.2 ht
      simp only [ht, h₁, ok_bind] at hr
      have hprocess := process_extends hintact hr
      exact ⟨hprocess.intact, hprocess.onGrid hgrid (by simp)⟩
  | insertToNet v =>
    have hext := insertToNet_extends h.1 hr
    refine ⟨hext.intact, hext.onGrid h.2 ?_⟩
    rintro w ⟨rfl, hsome⟩
    obtain ⟨t, ht⟩ := Option.isSome_iff_exists.mp hsome
    exact (getTrigon_known h.1 ht).2

lemma call_ne_error (fuel : ℕ) (call : Call K) (h : s.Intact ∧ s.OnGrid) :
    call.run fuel s ≠ .error .indexOutOfBounds := by
  cases call with
  | prepareVertex v => simp [Call.run]
  | receiveVertex v =>
    simp only [Call.run, receiveVertex]
    cases ht : QueryList.getTrigon s v with
    | none => simp
    | some t =>
      obtain ⟨s₁, h₁, hintact, hgrid⟩ := insertMid_found h.1 h.2 ht
      simp only [h₁, ok_bind]
      exact process_ne_error fuel hintact hgrid
  | insertToNet v => exact insertToNet_ne_error fuel v h.1 h.2

/-- In a net on its grid every trigon has its cells. -/
lemma OnGrid.hasCells (hg : s.OnGrid) {t : TrigonRef} (ht : s.Live t) : s.HasCells t := by
  have hcovers : ∀ i, s.listp.Covers (s.vex t i) := fun i => hg _ ⟨t, ht, i, rfl⟩
  obtain ⟨hdelete, hinsert⟩ := queryList_completes hcovers
  refine ⟨?_, hinsert, hdelete⟩
  have hcell : ∀ i j, s.listp.InRange (s.listp.cellx (s.vex t i).coord.x)
      (s.listp.celly (s.vex t j).coord.y) :=
    fun i j => ⟨(hcovers i).1, (hcovers i).2.1, (hcovers j).2.2⟩
  obtain ⟨a, ha⟩ := smallest_mem fun i => (s.vex t i).coord.x
  obtain ⟨b, hb⟩ := largest_mem fun i => (s.vex t i).coord.x
  obtain ⟨c, hc⟩ := smallest_mem fun i => (s.vex t i).coord.y
  obtain ⟨d, hd⟩ := largest_mem fun i => (s.vex t i).coord.y
  rw [minx, ha, maxx, hb, miny, hc, maxy, hd]
  simp only [List.mem_cons, List.not_mem_nil, or_false, forall_eq_or_imp, forall_eq]
  exact ⟨⟨hcell a c, hcell a d⟩, hcell b c, hcell b d⟩

/-- From an empty net whose grid covers the start polygon, no session leaves the grid. -/
theorem session_onGrid {s₀ : Net K} {vs : List (Vertex K)} (fuel : ℕ) (calls : List (Call K))
    (h₀ : s₀.Blank) (hg : ∀ v ∈ vs, s₀.listp.Covers v) :
    s₀.session fuel vs calls ≠ .error .indexOutOfBounds ∧
      ∀ s, s₀.session fuel vs calls = .ok s → s.OnGrid := by
  have hstart : ∀ s, Polygon.triangulize fuel s₀ (Polygon.ofVertices vs) = .ok s →
      s.Intact ∧ s.OnGrid := by
    intro s hr
    obtain ⟨hintact, hlistp, -, hverts⟩ := triangulize_intact h₀ hr
    refine ⟨hintact, fun v hv => ?_⟩
    rw [hlistp]
    exact hg v (hverts v hv)
  have hinit : ∀ s, s₀.initTriang fuel (Polygon.ofVertices vs) = .ok s → s.Intact ∧ s.OnGrid := by
    intro s hr
    obtain ⟨s₁, h₁, hr⟩ := bind_eq_ok.mp hr
    obtain ⟨hintact, hgrid⟩ := hstart s₁ h₁
    have hprocess := process_extends hintact hr
    exact ⟨hprocess.intact, hprocess.onGrid hgrid (by simp)⟩
  constructor
  · refine bind_ne_error ?_ fun s hs => ?_
    · refine bind_ne_error (triangulize_ne_error fuel h₀ hg) fun s hs => ?_
      exact process_ne_error fuel (hstart s hs).1 (hstart s hs).2
    · exact foldlM_ne_error (I := fun s => s.Intact ∧ s.OnGrid)
        (fun s call s' => call_onGrid) (fun s call => call_ne_error fuel call) calls (hinit s hs)
  · intro s hr
    obtain ⟨s₁, h₁, hr⟩ := bind_eq_ok.mp hr
    exact (foldlM_invariant (I := fun s => s.Intact ∧ s.OnGrid)
      (fun s call s' => call_onGrid) (hinit s₁ h₁) hr).2

end Net

namespace NetFactory

variable {K : Type} [Field K] [LinearOrder K] [IsStrictOrderedRing K] [FloorRing K]
variable {math : JavaMath K} {rows : List (GVector K × ℤ)} {data : List (Vertex K)} {fuel : ℕ}

/-- The data have a width and no negative height, and point counts have positive roots. -/
structure Extended (math : JavaMath K) (data : List (Vertex K)) : Prop where
  width : (extractInfo data).minx < (extractInfo data).maxx
  height : (extractInfo data).miny ≤ (extractInfo data).maxy
  sqrt_pos : ∀ n : ℤ, 0 < n → 0 < math.sqrt (n : K)

lemma Extended.proper (h : Extended math data) : (extractInfo data).Proper math := by
  refine ⟨h.width, h.height, h.sqrt_pos _ ?_⟩
  rw [pnumber_extractInfo, Int.natCast_pos, List.length_pos_iff]
  rintro rfl
  have hwidth : (1000000000 : K) < -1000000000 := h.width
  linarith

lemma Extended.expand (h : Extended math data) : Extended math (expand data) :=
  ⟨(expand_proper h.width h.height).1, (expand_proper h.width h.height).2, h.sqrt_pos⟩

/-- The vertex set has all the data, in their order, and no trigon exists yet. -/
lemma setVertice_ok (hnodup : data.Nodup) (h : Extended math data) :
    (setVertice math data).lnlist = data ∧ (setVertice math data).Blank ∧
      ∀ v ∈ data, (setVertice math data).listp.Covers v := by
  obtain ⟨vcells, nov, heq⟩ := setVertice_eq hnodup h.proper
  have hadj := Net.create_adjacent (ListParam.ofInfo math (extractInfo data))
  rw [heq]
  refine ⟨rfl, ⟨⟨⟨hadj.paired, hadj.known, hadj.ends⟩, hadj.symmetric, hadj.nodup, hadj.old, rfl⟩,
    rfl, fun r c => rfl⟩, fun v hv => ?_⟩
  exact ListParam.ofInfo_covers h.proper (extractInfo_contains hv)

omit [IsStrictOrderedRing K] [FloorRing K] in
lemma nodup_expand (rows : List (GVector K × ℤ)) : (NetFactory.expand (prepared rows)).Nodup := by
  obtain ⟨outer, -, heq⟩ := exists_expand rows
  rw [heq]
  exact nodup_prepared _

/-- The grid of the data, with the outer vertices or without, has a cell for every vertex, and no
session from the start polygon leaves the grid. -/
theorem grid_covers_net (h : Extended math (prepared rows))
    (hdata : data = prepared rows ∨ data = NetFactory.expand (prepared rows)) (fuel : ℕ)
    (calls : List (Net.Call K)) :
    (setVertice math data).lnlist = data ∧
      (∀ v ∈ data, (setVertice math data).listp.Covers v) ∧
      ∀ vs, (setVertice math data).getBoundary math fuel = .ok vs →
        (setVertice math data).session fuel vs calls ≠ .error .indexOutOfBounds ∧
        ∀ s, (setVertice math data).session fuel vs calls = .ok s →
          ∀ t, s.Live t → s.HasCells t := by
  have hboth : data.Nodup ∧ Extended math data := by
    rcases hdata with rfl | rfl
    · exact ⟨nodup_prepared rows, h⟩
    · exact ⟨nodup_expand rows, h.expand⟩
  obtain ⟨hall, hblank, hcovers⟩ := setVertice_ok hboth.1 hboth.2
  refine ⟨hall, hcovers, fun vs hvs => ?_⟩
  have hfrom : ∀ v ∈ vs, (setVertice math data).listp.Covers v := by
    intro v hv
    have hin := Net.getBoundary_mem hvs v hv
    rw [hall] at hin
    exact hcovers v hin
  obtain ⟨hne, hgrid⟩ := Net.session_onGrid fuel calls hblank hfrom
  exact ⟨hne, fun s hs t ht => (hgrid s hs).hasCells ht⟩

/-- A root that is right for nine, and angles in the order of the arctangent. -/
def roughMath : JavaMath ℚ := ⟨fun x => x / 3, fun k => 3 / 2 * (k / (1 + |k|))⟩

/-- Five vertices; the first is on a diagonal of the outer vertices. -/
def fiveRows : List (GVector ℚ × ℤ) :=
  [(⟨1, 3, 0⟩, 0), (⟨0, 0, 0⟩, 1), (⟨4, 4, 0⟩, 2), (⟨3, 2, 0⟩, 3), (⟨2, 0, 0⟩, 4)]

lemma fiveRows_extended : Extended roughMath (prepared fiveRows) := by
  refine ⟨by decide +kernel, by decide +kernel, fun n hn => ?_⟩
  have hpos : (0 : ℚ) < n := Int.cast_pos.mpr hn
  exact div_pos hpos (by norm_num)

theorem grid_covers_net_five : ∃ vs s,
    (setVertice roughMath (NetFactory.expand (prepared fiveRows))).getBoundary roughMath 30 =
      .ok vs ∧
    (setVertice roughMath (NetFactory.expand (prepared fiveRows))).session 30 vs
      [.insertToNet ⟨1, 1, ⟨0, 0, 0⟩⟩, .receiveVertex ⟨9, 9, ⟨5, 1, 0⟩⟩] = .ok s ∧
    s.trigonIndex.length = 6 ∧ ∀ t, s.Live t → s.HasCells t := by
  have hrun : passes ((setVertice roughMath (NetFactory.expand (prepared fiveRows))).getBoundary
      roughMath 30) (fun vs =>
        passes ((setVertice roughMath (NetFactory.expand (prepared fiveRows))).session 30 vs
          [.insertToNet ⟨1, 1, ⟨0, 0, 0⟩⟩, .receiveVertex ⟨9, 9, ⟨5, 1, 0⟩⟩]) fun s =>
            decide (s.trigonIndex.length = 6)) = true := by
    decide +kernel
  obtain ⟨vs, hvs, hrun⟩ := exists_of_passes hrun
  obtain ⟨s, hs, hcount⟩ := exists_of_passes hrun
  have hcovers := grid_covers_net fiveRows_extended (.inr rfl) 30
    [.insertToNet ⟨1, 1, ⟨0, 0, 0⟩⟩, .receiveVertex ⟨9, 9, ⟨5, 1, 0⟩⟩]
  exact ⟨vs, s, hvs, hs, of_decide_eq_true hcount, (hcovers.2.2 vs hvs).2 s hs⟩

end NetFactory

/-! Which vertices get onto the net. -/

namespace Net

variable {K : Type} [Field K] [LinearOrder K] [FloorRing K] {s s' : Net K} {fuel : ℕ}

/-- Insertions add no vertices but those that they are made with. -/
lemma insertions_extend {l : List (Vertex K)} (h : s.Intact)
    (hr : l.foldlM (insertToNet fuel) s = .ok s') :
    ∃ added : Vertex K → Prop, s.Extends s' added ∧ ∀ w, added w → w ∈ l := by
  induction l generalizing s with
  | nil =>
    simp only [List.foldlM_nil, pure, Except.pure, Except.ok.injEq] at hr
    exact ⟨fun _ => False, hr ▸ .refl h, fun w hw => hw.elim⟩
  | cons v l ih =>
    rw [List.foldlM_cons, bind_eq_ok] at hr
    obtain ⟨s₁, h₁, hr⟩ := hr
    have hstep := insertToNet_extends h h₁
    obtain ⟨added, hext, hadded⟩ := ih hstep.intact hr
    refine ⟨_, hstep.trans hext, ?_⟩
    rintro w (⟨rfl, -⟩ | hw)
    · exact List.mem_cons_self
    · exact List.mem_cons_of_mem v (hadded w hw)

/-- The vertices of a list without repetitions are all on the net in the end if and only if each
is there already, or has a trigon around it, when its turn comes. -/
theorem insertions_keep_iff {l : List (Vertex K)} (D : Vertex K → Prop) (h : s.Intact)
    (hnodup : l.Nodup) (hr : l.foldlM (insertToNet fuel) s = .ok s') :
    (∀ v ∈ l, D v → s'.OnNet v) ↔ Guarded (insertToNet fuel)
      (fun s v => D v → s.OnNet v ∨ (QueryList.getTrigon s v).isSome) s l := by
  induction l generalizing s with
  | nil => simp [Guarded]
  | cons v l ih =>
    rw [List.foldlM_cons, bind_eq_ok] at hr
    obtain ⟨s₁, h₁, hr⟩ := hr
    obtain ⟨hv, hl⟩ := List.nodup_cons.mp hnodup
    have hstep := insertToNet_extends h h₁
    obtain ⟨added, hext, hadded⟩ := insertions_extend hstep.intact hr
    have hfirst : s'.OnNet v ↔ s.OnNet v ∨ (QueryList.getTrigon s v).isSome := by
      rw [hext.onNet_iff, hstep.onNet_iff]
      have hnot : ¬ added v := fun ha => hv (hadded v ha)
      simp [hnot]
    rw [List.forall_mem_cons, hfirst, ih hstep.intact hl hr, Guarded]
    refine and_congr_right fun _ => ⟨fun hrest s₂ h₂ => ?_, fun hrest => hrest s₁ h₁⟩
    rw [h₁, Except.ok.injEq] at h₂
    exact h₂ ▸ hrest

end Net

namespace NetFactory

variable {K : Type} [Field K] [LinearOrder K] [IsStrictOrderedRing K] [FloorRing K]
variable {math : JavaMath K} {rows : List (GVector K × ℤ)} {fuel : ℕ} {s₀ s : Net K}

/-- The net at the start is intact and has the data in its vertex set. -/
lemma startNet_intact (h : Extended math (prepared rows))
    (hr : startNet math fuel (prepared rows) = .ok s₀) :
    s₀.Intact ∧ s₀.lnlist = NetFactory.expand (prepared rows) := by
  obtain ⟨hall, hblank, -⟩ := setVertice_ok (nodup_expand rows) h.expand
  obtain ⟨vs, -, hinit⟩ := bind_eq_ok.mp hr
  obtain ⟨s₁, h₁, hprocess⟩ := bind_eq_ok.mp hinit
  obtain ⟨hintact, -, hlnlist, -⟩ := Net.triangulize_intact hblank h₁
  have hext := Net.process_extends hintact hprocess
  exact ⟨hext.intact, hext.lnlist.trans (hlnlist.trans hall)⟩

/-- `createNet` keeps all data if and only if, when the turn of a vertex comes, it is on the net
already or `GetTrigon` finds a trigon that has it strictly inside. -/
theorem createNet_keeps_iff (h : Extended math (prepared rows))
    (h₀ : startNet math fuel (prepared rows) = .ok s₀)
    (hr : createNet math fuel (prepared rows) = .ok s) :
    (∀ v ∈ prepared rows, s.OnNet v) ↔ Guarded (Net.insertToNet fuel)
      (fun s v => v ∈ prepared rows → s.OnNet v ∨ (QueryList.getTrigon s v).isSome) s₀
      (NetFactory.expand (prepared rows)) := by
  obtain ⟨hintact, hlnlist⟩ := startNet_intact h h₀
  rw [createNet, h₀, ok_bind, Net.createNet, hlnlist] at hr
  rw [← Net.insertions_keep_iff (fun v => v ∈ prepared rows) hintact (nodup_expand rows) hr]
  obtain ⟨outer, -, heq⟩ := exists_expand rows
  obtain ⟨tail, htail⟩ := prepared_append rows outer
  constructor
  · exact fun hall v _ hv => hall v hv
  · intro hall v hv
    refine hall v ?_ hv
    rw [heq, htail]
    exact List.mem_append_left _ hv

theorem createNet_keeps_iff_five : ∃ s₀ s, startNet roughMath 30 (prepared fiveRows) = .ok s₀ ∧
    createNet roughMath 30 (prepared fiveRows) = .ok s ∧
    ((∀ v ∈ prepared fiveRows, s.OnNet v) ↔ Guarded (Net.insertToNet 30)
      (fun s v => v ∈ prepared fiveRows → s.OnNet v ∨ (QueryList.getTrigon s v).isSome) s₀
      (NetFactory.expand (prepared fiveRows))) := by
  have hrun : passes (startNet roughMath 30 (prepared fiveRows)) (fun s₀ =>
      passes (s₀.createNet 30) fun _ => true) = true := by
    decide +kernel
  obtain ⟨s₀, h₀, hrun⟩ := exists_of_passes hrun
  obtain ⟨s, hs, -⟩ := exists_of_passes hrun
  have hr : createNet roughMath 30 (prepared fiveRows) = .ok s := by
    rw [createNet, h₀, ok_bind, hs]
  exact ⟨s₀, s, h₀, hr, createNet_keeps_iff fiveRows_extended h₀ hr⟩

/-- The first and the third of the five vertices are on an edge in their turn and are left out. -/
theorem createNet_loses_vertices : ¬ ∀ (math : JavaMath ℚ) (rows : List (GVector ℚ × ℤ))
    (fuel : ℕ) (s : Net ℚ), Extended math (prepared rows) →
    (rows.map fun row => (row.1.x, row.1.y)).Nodup →
    createNet math fuel (prepared rows) = .ok s → ∀ v ∈ prepared rows, s.OnNet v := by
  intro hall
  have hrun : passes (createNet roughMath 30 (prepared fiveRows)) (fun s =>
      decide (∃ v ∈ prepared fiveRows, ¬ s.OnNet v)) = true := by
    decide +kernel
  obtain ⟨s, hs, hlost⟩ := exists_of_passes hrun
  obtain ⟨v, hv, hmissing⟩ := of_decide_eq_true hlost
  exact hmissing (hall roughMath fiveRows 30 s fiveRows_extended (by decide +kernel) hs v hv)

end NetFactory

end MTalk.Triangle
