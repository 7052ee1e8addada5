import MTalk.Triangle.Net

/-!
# The bucketed index of trigons

`QueryList` files every live trigon in each grid cell that its bounding box touches, next to
the plain list `TrigonIndex`. An index outside the cell array is an exception.
-/

namespace MTalk.Triangle

/-- The cast of a number to `int`, towards zero. -/
def toInt {K : Type} [Ring K] [LinearOrder K] [FloorRing K] (x : K) : ℤ := if 0 ≤ x then ⌊x⌋ else ⌈x⌉

/-- The indices of `for (i = a; i <= b; i++)`. -/
def indices (a b : ℤ) : List ℤ := (List.range (b + 1 - a).toNat).map fun k : ℕ => a + (k : ℤ)

lemma mem_indices {a b i : ℤ} : i ∈ indices a b ↔ a ≤ i ∧ i ≤ b := by
  simp only [indices, List.mem_map, List.mem_range]
  constructor
  · rintro ⟨k, hk, rfl⟩
    omega
  · rintro ⟨ha, hb⟩
    exact ⟨(i - a).toNat, by omega, by omega⟩

namespace ListParam

variable {K : Type}

/-- The cell indices that the arrays of the grid have. -/
def InRange (p : ListParam K) (r c : ℤ) : Prop := 0 ≤ r ∧ r < p.nx ∧ 0 ≤ c ∧ c < p.ny

instance (p : ListParam K) (r c : ℤ) : Decidable (p.InRange r c) :=
  inferInstanceAs (Decidable (_ ∧ _ ∧ _ ∧ _))

variable [Field K] [LinearOrder K] [FloorRing K]

def cellx (p : ListParam K) (x : K) : ℤ := toInt ((x - p.startx) / p.cellsize)

def celly (p : ListParam K) (y : K) : ℤ := toInt ((y - p.starty) / p.cellsize)

/-- The cells that the bounding box of a trigon touches, row by row. -/
def box (p : ListParam K) (vex : Fin 3 → Vertex K) : List (ℤ × ℤ) :=
  (indices (p.cellx (minx vex)) (p.cellx (maxx vex))).flatMap fun i =>
    (indices (p.celly (miny vex)) (p.celly (maxy vex))).map fun j => (i, j)

/-- The grid has a cell for the vertex. -/
def Covers (p : ListParam K) (v : Vertex K) : Prop :=
  p.InRange (p.cellx v.coord.x) (p.celly v.coord.y)

/-- A box has all its cells in the grid once the grid covers the three vertices. -/
lemma box_inRange {p : ListParam K} {vex : Fin 3 → Vertex K} (h : ∀ i, p.Covers (vex i))
    {rc : ℤ × ℤ} (hrc : rc ∈ p.box vex) : p.InRange rc.1 rc.2 := by
  simp only [box, List.mem_flatMap, List.mem_map, mem_indices] at hrc
  obtain ⟨i, ⟨hi1, hi2⟩, j, ⟨hj1, hj2⟩, rfl⟩ := hrc
  obtain ⟨a, ha⟩ := smallest_mem fun i => (vex i).coord.x
  obtain ⟨b, hb⟩ := largest_mem fun i => (vex i).coord.x
  obtain ⟨c, hc⟩ := smallest_mem fun i => (vex i).coord.y
  obtain ⟨d, hd⟩ := largest_mem fun i => (vex i).coord.y
  rw [minx, ha] at hi1
  rw [maxx, hb] at hi2
  rw [miny, hc] at hj1
  rw [maxy, hd] at hj2
  exact ⟨(h a).1.trans hi1, hi2.trans_lt (h b).2.1, (h c).2.2.1.trans hj1,
    hj2.trans_lt (h d).2.2.2⟩

end ListParam

namespace QueryList

variable {K : Type}

/-- `Insert(r, c, trigon)`. -/
def insertCell (p : ListParam K) (trigon : TrigonRef) (cells : ℤ → ℤ → List TrigonRef)
    (rc : ℤ × ℤ) : Except Stop (ℤ → ℤ → List TrigonRef) :=
  if p.InRange rc.1 rc.2 then
    if trigon ∈ cells rc.1 rc.2 then .ok cells
    else .ok (write cells rc.1 rc.2 (cells rc.1 rc.2 ++ [trigon]))
  else .error .indexOutOfBounds

/-- `Delete(r, c, trigon)`. -/
def deleteCell (p : ListParam K) (trigon : TrigonRef) (cells : ℤ → ℤ → List TrigonRef)
    (rc : ℤ × ℤ) : Except Stop (ℤ → ℤ → List TrigonRef) :=
  if p.InRange rc.1 rc.2 then
    .ok (write cells rc.1 rc.2 ((cells rc.1 rc.2).erase trigon))
  else .error .indexOutOfBounds

lemma insertCells_ok {p : ListParam K} {trigon : TrigonRef} {rcs : List (ℤ × ℤ)}
    {cells cells' : ℤ → ℤ → List TrigonRef}
    (h : rcs.foldlM (insertCell p trigon) cells = .ok cells') :
    (∀ r c u, u ∈ cells' r c ↔ u ∈ cells r c ∨ u = trigon ∧ (r, c) ∈ rcs) ∧
      ((∀ r c, (cells r c).Nodup) → ∀ r c, (cells' r c).Nodup) := by
  induction rcs generalizing cells with
  | nil =>
    simp only [List.foldlM_nil, pure, Except.pure, Except.ok.injEq] at h
    subst h
    exact ⟨by simp, fun hn => hn⟩
  | cons rc rcs ih =>
    rw [List.foldlM_cons, bind_eq_ok] at h
    obtain ⟨cells1, h1, h2⟩ := h
    obtain ⟨hmem, hnodup⟩ := ih h2
    unfold insertCell at h1
    split_ifs at h1 with hr hin
    · simp only [Except.ok.injEq] at h1
      subst h1
      refine ⟨fun r c u => ?_, hnodup⟩
      rw [hmem, List.mem_cons]
      constructor
      · rintro (hu | ⟨rfl, hu⟩)
        · exact .inl hu
        · exact .inr ⟨rfl, .inr hu⟩
      · rintro (hu | ⟨rfl, he | hu⟩)
        · exact .inl hu
        · subst he
          exact .inl hin
        · exact .inr ⟨rfl, hu⟩
    · simp only [Except.ok.injEq] at h1
      subst h1
      refine ⟨fun r c u => ?_, fun hn => hnodup fun r c => ?_⟩
      · rw [hmem, List.mem_cons, write_apply]
        by_cases he : r = rc.1 ∧ c = rc.2
        · obtain ⟨rfl, rfl⟩ := he
          simp only [and_self, if_true, List.mem_append, List.mem_singleton, Prod.mk.eta, true_or,
            and_true]
          tauto
        · have hne : (r, c) ≠ rc := fun hrc => he ⟨congrArg Prod.fst hrc, congrArg Prod.snd hrc⟩
          simp only [he, if_false, hne, false_or]
      · rw [write_apply]
        split_ifs with he
        · rw [List.nodup_append]
          refine ⟨hn _ _, List.nodup_singleton _, ?_⟩
          rintro a ha b hb rfl
          rw [List.mem_singleton] at hb
          exact hin (hb ▸ ha)
        · exact hn r c

lemma insertCells_total {p : ListParam K} {rcs : List (ℤ × ℤ)}
    (hr : ∀ rc ∈ rcs, p.InRange rc.1 rc.2) (trigon : TrigonRef)
    (cells : ℤ → ℤ → List TrigonRef) :
    ∃ cells', rcs.foldlM (insertCell p trigon) cells = .ok cells' := by
  induction rcs generalizing cells with
  | nil => exact ⟨cells, rfl⟩
  | cons rc rcs ih =>
    have hstep : ∃ cells1, insertCell p trigon cells rc = .ok cells1 := by
      unfold insertCell
      rw [if_pos (hr rc (by simp))]
      split_ifs
      · exact ⟨_, rfl⟩
      · exact ⟨_, rfl⟩
    obtain ⟨cells1, h1⟩ := hstep
    obtain ⟨cells', h2⟩ := ih (fun rc h => hr rc (by simp [h])) cells1
    exact ⟨cells', by rw [List.foldlM_cons, bind_eq_ok]; exact ⟨cells1, h1, h2⟩⟩

lemma deleteCells_ok {p : ListParam K} {trigon : TrigonRef} {rcs : List (ℤ × ℤ)}
    {cells cells' : ℤ → ℤ → List TrigonRef}
    (h : rcs.foldlM (deleteCell p trigon) cells = .ok cells') (hn : ∀ r c, (cells r c).Nodup) :
    (∀ r c, (cells' r c).Nodup) ∧
      ∀ r c u, u ∈ cells' r c ↔ u ∈ cells r c ∧ ¬(u = trigon ∧ (r, c) ∈ rcs) := by
  induction rcs generalizing cells with
  | nil =>
    simp only [List.foldlM_nil, pure, Except.pure, Except.ok.injEq] at h
    subst h
    exact ⟨hn, by simp⟩
  | cons rc rcs ih =>
    rw [List.foldlM_cons, bind_eq_ok] at h
    obtain ⟨cells1, h1, h2⟩ := h
    unfold deleteCell at h1
    split_ifs at h1 with hr
    simp only [Except.ok.injEq] at h1
    subst h1
    have hn1 : ∀ r c, (write cells rc.1 rc.2 ((cells rc.1 rc.2).erase trigon) r c).Nodup := by
      intro r c
      rw [write_apply]
      split_ifs
      · exact (hn _ _).erase trigon
      · exact hn r c
    obtain ⟨hnodup, hmem⟩ := ih h2 hn1
    refine ⟨hnodup, fun r c u => ?_⟩
    rw [hmem, List.mem_cons, write_apply]
    by_cases he : r = rc.1 ∧ c = rc.2
    · obtain ⟨rfl, rfl⟩ := he
      simp only [and_self, if_true, (hn _ _).mem_erase_iff, Prod.mk.eta, true_or, and_true]
      tauto
    · have hne : (r, c) ≠ rc := fun hrc => he ⟨congrArg Prod.fst hrc, congrArg Prod.snd hrc⟩
      simp only [he, if_false, hne, false_or]

lemma deleteCells_total {p : ListParam K} {rcs : List (ℤ × ℤ)}
    (hr : ∀ rc ∈ rcs, p.InRange rc.1 rc.2) (trigon : TrigonRef)
    (cells : ℤ → ℤ → List TrigonRef) :
    ∃ cells', rcs.foldlM (deleteCell p trigon) cells = .ok cells' := by
  induction rcs generalizing cells with
  | nil => exact ⟨cells, rfl⟩
  | cons rc rcs ih =>
    obtain ⟨cells', h2⟩ := ih (fun rc h => hr rc (by simp [h]))
      (write cells rc.1 rc.2 ((cells rc.1 rc.2).erase trigon))
    refine ⟨cells', ?_⟩
    rw [List.foldlM_cons, bind_eq_ok]
    exact ⟨_, if_pos (hr rc (by simp)), h2⟩

variable [Field K] [LinearOrder K] [FloorRing K]

/-- `GetTrigon`: the first trigon of the vertex's cell that has the vertex inside. -/
def getTrigon (s : Net K) (vertex : Vertex K) : Option TrigonRef :=
  let r := s.listp.cellx vertex.coord.x
  let c := s.listp.celly vertex.coord.y
  if s.listp.InRange r c then (s.cells r c).find? fun p => vexPosition (s.vex p) vertex = 3
  else none

/-- `Insert(trigon)`. -/
def insert (s : Net K) (trigon : TrigonRef) : Except Stop (Net K) := do
  let cells ← (s.listp.box (s.vex trigon)).foldlM (insertCell s.listp trigon) s.cells
  return { s with
    cells := cells
    trigonIndex := s.trigonIndex ++ [trigon]
    heart := Function.update s.heart trigon (setHeart (s.vex trigon)) }

/-- `Delete(trigon)`. -/
def delete (s : Net K) (trigon : TrigonRef) : Except Stop (Net K) := do
  let cells ← (s.listp.box (s.vex trigon)).foldlM (deleteCell s.listp trigon) s.cells
  return { s with cells := cells, trigonIndex := s.trigonIndex.erase trigon }

lemma insert_ok {s s' : Net K} {trigon : TrigonRef} (h : insert s trigon = .ok s') :
    ∃ cells, (s.listp.box (s.vex trigon)).foldlM (insertCell s.listp trigon) s.cells = .ok cells ∧
      s' = { s with
        cells := cells
        trigonIndex := s.trigonIndex ++ [trigon]
        heart := Function.update s.heart trigon (setHeart (s.vex trigon)) } := by
  unfold insert at h
  rw [bind_eq_ok] at h
  obtain ⟨cells, hc, h⟩ := h
  simp only [pure, Except.pure, Except.ok.injEq] at h
  exact ⟨cells, hc, h.symm⟩

lemma delete_ok {s s' : Net K} {trigon : TrigonRef} (h : delete s trigon = .ok s') :
    ∃ cells, (s.listp.box (s.vex trigon)).foldlM (deleteCell s.listp trigon) s.cells = .ok cells ∧
      s' = { s with cells := cells, trigonIndex := s.trigonIndex.erase trigon } := by
  unfold delete at h
  rw [bind_eq_ok] at h
  obtain ⟨cells, hc, h⟩ := h
  simp only [pure, Except.pure, Except.ok.injEq] at h
  exact ⟨cells, hc, h.symm⟩

end QueryList

end MTalk.Triangle
