import MTalk.Triangle.Adjacency

/-!
# The vertices of a net

Flips keep the set of vertices on the net and splits add the inserted one. This needs nothing
but the wiring, so that it holds of every net whatever its geometry.
-/

namespace MTalk.Triangle

namespace Net

variable {K : Type}

/-- `s'` is `s` with the index entries of `olds` replaced by `news`. -/
structure Reindexed (s : Net K) (olds news : List TrigonRef) (s' : Net K) : Prop where
  wired : s'.Wired
  vex : s'.vex = s.vex
  trigonCount : s'.trigonCount = s.trigonCount
  trigonIndex : s'.trigonIndex = s.trigonIndex.diff olds ++ news
  listp : s'.listp = s.listp
  lnlist : s'.lnlist = s.lnlist

/-- The vertices of every trigon object ever created are on the net. -/
def Covering (s : Net K) : Prop := ∀ t < s.trigonCount, ∀ i, s.OnNet (s.vex t i)

section Reindexed

variable {s s' : Net K} {olds news : List TrigonRef}

lemma Reindexed.of_queue (h : Reindexed s olds news s') (n : ℕ)
    (e : TrigonRef → Fin 3 → Option QueueNode) (q : List QueueNode) :
    Reindexed s olds news { s' with nodeCount := n, etc := e, queue := q } :=
  ⟨⟨h.wired.paired, h.wired.known, h.wired.ends⟩, h.vex, h.trigonCount, h.trigonIndex, h.listp,
    h.lnlist⟩

/-- When the old trigons' vertices occur in the new ones, only the new ones add vertices. -/
lemma Reindexed.onNet_iff (h : Reindexed s olds news s')
    (hcover : ∀ t ∈ olds, ∀ i, ∃ u ∈ news, ∃ j, s.vex u j = s.vex t i) (v : Vertex K) :
    s'.OnNet v ↔ s.OnNet v ∨ ∃ u ∈ news, ∃ j, s.vex u j = v := by
  unfold OnNet
  rw [h.trigonIndex, h.vex]
  constructor
  · rintro ⟨t, ht, i, hi⟩
    rcases List.mem_append.mp ht with ht | ht
    · exact .inl ⟨t, List.diff_subset _ _ ht, i, hi⟩
    · exact .inr ⟨t, ht, i, hi⟩
  · rintro (⟨t, ht, i, hi⟩ | ⟨u, hu, j, hj⟩)
    · by_cases hold : t ∈ olds
      · obtain ⟨u, hu, j, hj⟩ := hcover t hold i
        exact ⟨u, List.mem_append_right _ hu, j, hj.trans hi⟩
      · exact ⟨t, List.mem_append_left _ (List.mem_diff_of_mem ht hold), i, hi⟩
    · exact ⟨u, List.mem_append_right _ hu, j, hj⟩

variable [Field K] [LinearOrder K] [FloorRing K]

lemma reindexed_of_ok {s1 : Net K} (hw : s.Wired) (h1 : olds.foldlM deleteTrigon s = .ok s1)
    (h2 : news.foldlM insertTrigon s1 = .ok s') : Reindexed s olds news s' := by
  obtain ⟨cells, e, q, nb, nv, rfl, -, hw1, -⟩ := deleteTrigons_ok hw h1
  obtain ⟨cells', heart, nb', nv', rfl, hw', -⟩ := insertTrigons_ok hw1 h2
  exact ⟨hw', rfl, rfl, rfl, rfl, rfl⟩

/-- `InsertMid` on any wired net. -/
lemma insertMid_reindexed {v : Vertex K} {t : TrigonRef} (hw : s.Wired)
    (hr : s.insertMid v t = .ok s') :
    Reindexed (s.newMids v t) [t] [s.mids 0, s.mids 1, s.mids 2] s' := by
  obtain ⟨s1, s2, h1, h2, rfl⟩ := insertMid_eq_ok.mp hr
  obtain ⟨n, e, q, he⟩ := enterEdges_eq s2 [(s.mids 0, 0), (s.mids 1, 1), (s.mids 2, 2)]
  rw [he]
  exact (reindexed_of_ok (newMids_wired hw v t) h1 h2).of_queue n e q

/-- `ChangeEdge` at an interior edge of any wired net. -/
lemma changeEdge_reindexed {edge : QueueNode} {p2 : TrigonRef} {vid1 : Fin 3} (hw : s.Wired)
    (hl : s.link (edge.trigon, edge.vid) = some (p2, vid1)) (hr : s.changeEdge edge = .ok s') :
    Reindexed (s.newPair edge.trigon edge.vid p2 vid1) [edge.trigon, p2]
      [s.trigonCount, s.trigonCount + 1] s' := by
  obtain ⟨s1, s2, h1, h2, rfl⟩ := (changeEdge_eq_ok hl).mp hr
  obtain ⟨n, e, q, he⟩ := enterOuters_eq s2 [(s.trigonCount, 0), (s.trigonCount, 2),
    (s.trigonCount + 1, 0), (s.trigonCount + 1, 2)]
  rw [he]
  exact (reindexed_of_ok (newPair_wired hw hl) h1 h2).of_queue n e q

omit [LinearOrder K] [FloorRing K] in
/-- The vertices of the two new trigons of a flip are those of the two old ones. -/
lemma newPair_vertices {p1 p2 : TrigonRef} {vid vid1 : Fin 3} (hw : s.Wired)
    (hl : s.link (p1, vid) = some (p2, vid1)) :
    (∀ t ∈ [p1, p2], ∀ i, ∃ u ∈ [s.trigonCount, s.trigonCount + 1], ∃ j,
      (s.newPair p1 vid p2 vid1).vex u j = s.vex t i) ∧
    ∀ u ∈ [s.trigonCount, s.trigonCount + 1], ∀ j, ∃ t ∈ [p1, p2], ∃ i,
      (s.newPair p1 vid p2 vid1).vex u j = s.vex t i := by
  obtain ⟨hv1, -⟩ := s.newPair_first p1 vid p2 vid1
  obtain ⟨hv2, -⟩ := s.newPair_second p1 vid p2 vid1
  obtain ⟨e1, e2⟩ := hw.ends p1 vid p2 vid1 hl
  have hnew : ∀ {u j w}, u ∈ [s.trigonCount, s.trigonCount + 1] →
      (s.newPair p1 vid p2 vid1).vex u j = w →
        ∃ u ∈ [s.trigonCount, s.trigonCount + 1], ∃ j, (s.newPair p1 vid p2 vid1).vex u j = w :=
    fun hu hj => ⟨_, hu, _, hj⟩
  constructor
  · intro t ht i
    simp only [List.mem_cons, List.not_mem_nil, or_false] at ht
    rcases ht with rfl | rfl
    · rcases side_cases vid i with rfl | rfl | rfl
      · exact hnew (u := s.trigonCount) (j := 0) (by simp) (by rw [hv1]; rfl)
      · exact hnew (u := s.trigonCount) (j := 1) (by simp) (by rw [hv1]; rfl)
      · exact hnew (u := s.trigonCount + 1) (j := 1) (by simp) (by rw [hv2, ← e1]; rfl)
    · rcases side_cases vid1 i with rfl | rfl | rfl
      · exact hnew (u := s.trigonCount) (j := 2) (by simp) (by rw [hv1]; rfl)
      · exact hnew (u := s.trigonCount + 1) (j := 1) (by simp) (by rw [hv2]; rfl)
      · exact hnew (u := s.trigonCount) (j := 1) (by simp) (by rw [hv1, e2]; rfl)
  · intro u hu j
    simp only [List.mem_cons, List.not_mem_nil, or_false] at hu
    rcases hu with rfl | rfl
    · rw [hv1]
      fin_cases j
      · exact ⟨p1, by simp, vid, rfl⟩
      · exact ⟨p1, by simp, vid + 1, rfl⟩
      · exact ⟨p2, by simp, vid1, rfl⟩
    · rw [hv2]
      fin_cases j
      · exact ⟨p2, by simp, vid1, rfl⟩
      · exact ⟨p2, by simp, vid1 + 1, rfl⟩
      · exact ⟨p1, by simp, vid, rfl⟩

end Reindexed

end Net

end MTalk.Triangle
