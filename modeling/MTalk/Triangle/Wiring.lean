import MTalk.Triangle.Polygon
import MTalk.Library.SideGluing

/-!
# How the operations rewire the net

`nbtri` and `nbvex` together are a gluing of trigon sides. Deleting a trigon cuts it out of
this gluing and inserting one pastes it in; the queue bookkeeping that happens on the way
touches neither. `Wired` is what holds of every trigon object, live or not.
-/

namespace MTalk.Triangle

open SideGluing

namespace Net

variable {K : Type}

/-- The side glued to a side, by `nbtri` and `nbvex`. -/
def link (s : Net K) : Link TrigonRef (Fin 3) := fun a =>
  match s.nbtri a.1 a.2, s.nbvex a.1 a.2 with
  | some u, some j => some (u, j)
  | _, _ => none

lemma link_eq_some {s : Net K} {t u : TrigonRef} {i j : Fin 3} :
    s.link (t, i) = some (u, j) ↔ s.nbtri t i = some u ∧ s.nbvex t i = some j := by
  unfold link
  cases s.nbtri t i <;> cases s.nbvex t i <;> simp

lemma link_congr {s s' : Net K} {t t' : TrigonRef} {i i' : Fin 3}
    (h1 : s'.nbtri t' i' = s.nbtri t i) (h2 : s'.nbvex t' i' = s.nbvex t i) :
    s'.link (t', i') = s.link (t, i) := by
  unfold link
  rw [h1, h2]

lemma link_of_null {s : Net K} {t : TrigonRef} {i : Fin 3} (h : s.nbtri t i = none) :
    s.link (t, i) = none := by
  unfold link
  rw [h]

/-- What holds of all trigon objects: a neighbour comes with an index, is another object that
exists, and shares the end vertices of the side in reversed order. -/
structure Wired (s : Net K) : Prop where
  paired : ∀ t i, s.nbtri t i ≠ none → s.nbvex t i ≠ none
  known : ∀ t i u j, s.link (t, i) = some (u, j) → t < s.trigonCount ∧ u < s.trigonCount ∧ u ≠ t
  ends : ∀ t i u j, s.link (t, i) = some (u, j) →
    s.vex u (j + 1) = s.vex t (i + 2) ∧ s.vex u (j + 2) = s.vex t (i + 1)

namespace Wired

variable {s : Net K}

lemma link_of_nbtri (h : s.Wired) {t u : TrigonRef} {i : Fin 3} (hu : s.nbtri t i = some u) :
    ∃ j, s.link (t, i) = some (u, j) := by
  have hne := h.paired t i (by simp [hu])
  obtain ⟨j, hj⟩ := Option.ne_none_iff_exists'.mp hne
  exact ⟨j, link_eq_some.mpr ⟨hu, hj⟩⟩

lemma link_eq_none (h : s.Wired) {t : TrigonRef} {i : Fin 3} :
    s.link (t, i) = none ↔ s.nbtri t i = none := by
  constructor
  · intro hl
    by_contra hne
    obtain ⟨u, hu⟩ := Option.ne_none_iff_exists'.mp hne
    obtain ⟨j, hj⟩ := h.link_of_nbtri hu
    rw [hl] at hj
    simp at hj
  · exact link_of_null

lemma no_self (h : s.Wired) (t : TrigonRef) (i j : Fin 3) : s.link (t, i) ≠ some (t, j) :=
  fun hl => (h.known t i t j hl).2.2 rfl

end Wired

/-- Only `etc` and the queue differ, and both have only lost nodes. -/
def LessQueue (s : Net K) (e : TrigonRef → Fin 3 → Option QueueNode) (q : List QueueNode) : Prop :=
  (∀ n ∈ q, n ∈ s.queue) ∧ ∀ t i n, e t i = some n → s.etc t i = some n

lemma LessQueue.refl (s : Net K) : LessQueue s s.etc s.queue := ⟨fun _ h => h, fun _ _ _ h => h⟩

lemma LessQueue.trans {s : Net K} {e e' : TrigonRef → Fin 3 → Option QueueNode}
    {q q' : List QueueNode} (h : LessQueue s e q)
    (h' : LessQueue { s with etc := e, queue := q } e' q') : LessQueue s e' q' :=
  ⟨fun n hn => h.1 n (h'.1 n hn), fun t i n hn => h.2 t i n (h'.2 t i n hn)⟩

lemma LessQueue.clear {s : Net K} {e : TrigonRef → Fin 3 → Option QueueNode} {q : List QueueNode}
    (h : LessQueue s e q) (t : TrigonRef) (i : Fin 3) : LessQueue s (write e t i none) q := by
  refine ⟨h.1, fun t' i' n hn => ?_⟩
  rw [write_apply] at hn
  split_ifs at hn
  exact h.2 t' i' n hn

lemma clearAcross_ok {s s' : Net K} {t : TrigonRef} {i : Fin 3} (h : s.clearAcross t i = .ok s') :
    ∃ e, s' = { s with etc := e } ∧ LessQueue s e s.queue := by
  unfold clearAcross at h
  cases hu : s.nbtri t i with
  | none =>
    simp only [hu, pure, Except.pure, Except.ok.injEq] at h
    exact ⟨s.etc, h.symm, LessQueue.refl s⟩
  | some u =>
    simp only [hu, bind_eq_ok, pure, Except.pure, Except.ok.injEq] at h
    obtain ⟨j, -, rfl⟩ := h
    exact ⟨_, rfl, (LessQueue.refl s).clear u j⟩

lemma queueDelete_ok {s s' : Net K} {n : QueueNode} (h : s.queueDelete n = .ok s') :
    ∃ e q, s' = { s with etc := e, queue := q } ∧ LessQueue s e q := by
  unfold queueDelete at h
  simp only [bind_eq_ok, pure, Except.pure, Except.ok.injEq] at h
  obtain ⟨s1, h1, rfl⟩ := h
  obtain ⟨e, rfl, hle⟩ := clearAcross_ok h1
  refine ⟨e, s.queue.erase n, rfl, fun m hm => List.mem_of_mem_erase hm, ?_⟩
  exact (((LessQueue.refl s).clear n.trigon n.vid).trans hle).2

lemma deleteEtc_ok {s s' : Net K} {o : Option QueueNode} (h : s.deleteEtc o = .ok s') :
    ∃ e q, s' = { s with etc := e, queue := q } ∧ LessQueue s e q := by
  cases o with
  | none =>
    simp only [deleteEtc, pure, Except.pure, Except.ok.injEq] at h
    exact ⟨s.etc, s.queue, h.symm, LessQueue.refl s⟩
  | some n => exact queueDelete_ok h

lemma deleteEdge_ok {s s' : Net K} {t : TrigonRef} {i : Fin 3} (h : s.deleteEdge t i = .ok s') :
    ∃ e q, s' = { s with etc := e, queue := q } ∧ LessQueue s e q := by
  unfold deleteEdge at h
  rw [bind_eq_ok] at h
  obtain ⟨s1, h1, h2⟩ := h
  obtain ⟨e, q, rfl, hle⟩ := deleteEtc_ok h1
  cases hu : s.nbtri t i with
  | none =>
    simp only [hu, pure, Except.pure, Except.ok.injEq] at h2
    exact ⟨e, q, h2.symm, hle⟩
  | some u =>
    simp only [hu, bind_eq_ok] at h2
    obtain ⟨j, -, h2⟩ := h2
    obtain ⟨e', q', rfl, hle'⟩ := deleteEtc_ok h2
    exact ⟨e', q', rfl, hle.trans hle'⟩

/-- The neighbour fields after the sides glued to `t` by the sides in `is` were cleared. -/
def Cleared (s : Net K) (t : TrigonRef) (is : List (Fin 3))
    (nb : TrigonRef → Fin 3 → Option TrigonRef) (nv : TrigonRef → Fin 3 → Option (Fin 3)) : Prop :=
  ∀ u j, ((∃ i ∈ is, s.link (t, i) = some (u, j)) → nb u j = none ∧ nv u j = none) ∧
    ((∀ i ∈ is, s.link (t, i) ≠ some (u, j)) → nb u j = s.nbtri u j ∧ nv u j = s.nbvex u j)

lemma detachSides_ok {s s' : Net K} {t : TrigonRef} {is : List (Fin 3)}
    (hself : ∀ i j, s.link (t, i) ≠ some (t, j)) (h : is.foldlM (detachSide t) s = .ok s') :
    ∃ e q nb nv, s' = { s with etc := e, queue := q, nbtri := nb, nbvex := nv } ∧
      LessQueue s e q ∧ Cleared s t is nb nv := by
  induction is generalizing s with
  | nil =>
    simp only [List.foldlM_nil, pure, Except.pure, Except.ok.injEq] at h
    exact ⟨s.etc, s.queue, s.nbtri, s.nbvex, h.symm, LessQueue.refl s, by simp [Cleared]⟩
  | cons i is ih =>
    rw [List.foldlM_cons, bind_eq_ok] at h
    obtain ⟨s1, h1, h2⟩ := h
    unfold detachSide at h1
    rw [bind_eq_ok] at h1
    obtain ⟨s0, h0, h1⟩ := h1
    obtain ⟨e, q, rfl, hle⟩ := deleteEdge_ok h0
    cases hu : s.nbtri t i with
    | none =>
      simp only [hu, pure, Except.pure, Except.ok.injEq] at h1
      subst h1
      obtain ⟨e', q', nb, nv, rfl, hle', hcl⟩ := ih (s := { s with etc := e, queue := q }) hself h2
      refine ⟨e', q', nb, nv, rfl, hle.trans hle', fun u j => ?_⟩
      have hnull : s.link (t, i) ≠ some (u, j) := by simp [link_of_null hu]
      refine ⟨?_, fun hne => (hcl u j).2 fun k hk => hne k (by simp [hk])⟩
      rintro ⟨k, hk, hl⟩
      rcases List.mem_cons.mp hk with rfl | hk
      · exact absurd hl hnull
      · exact (hcl u j).1 ⟨k, hk, hl⟩
    | some p =>
      simp only [hu, bind_eq_ok, index_eq_ok, pure, Except.pure, Except.ok.injEq] at h1
      obtain ⟨vid, hv, rfl⟩ := h1
      have hpt : p ≠ t := by
        rintro rfl
        exact hself i vid (link_eq_some.mpr ⟨hu, hv⟩)
      -- the cleared side belongs to the neighbour, so the links of `t` itself are as before
      have hown : ∀ k, (({ s with etc := e, queue := q } : Net K).setNeighbour p vid none none).link
          (t, k) = s.link (t, k) := by
        intro k
        apply link_congr
        · simp [setNeighbour, write_apply, hpt.symm]
        · simp [setNeighbour, write_apply, hpt.symm]
      obtain ⟨e', q', nb, nv, rfl, hle', hcl⟩ := ih (fun k j => by rw [hown]; exact hself k j) h2
      refine ⟨e', q', nb, nv, rfl, hle.trans hle', fun u j => ?_⟩
      obtain ⟨hcl1, hcl2⟩ := hcl u j
      simp only [hown] at hcl1 hcl2
      constructor
      · rintro ⟨k, hk, hl⟩
        by_cases hex : ∃ k ∈ is, s.link (t, k) = some (u, j)
        · exact hcl1 hex
        · rcases List.mem_cons.mp hk with rfl | hk
          · obtain ⟨hn, hnv⟩ := hcl2 fun k hk hl => hex ⟨k, hk, hl⟩
            obtain ⟨hu', hv'⟩ := link_eq_some.mp hl
            rw [hu] at hu'
            rw [hv] at hv'
            cases hu'
            cases hv'
            rw [hn, hnv]
            simp [setNeighbour]
          · exact absurd ⟨k, hk, hl⟩ hex
      · intro hne
        obtain ⟨hn, hnv⟩ := hcl2 fun k hk => hne k (by simp [hk])
        have hother : ¬(u = p ∧ j = vid) := by
          rintro ⟨rfl, rfl⟩
          exact hne i (by simp) (link_eq_some.mpr ⟨hu, hv⟩)
        rw [hn, hnv]
        simp [setNeighbour, write_apply, hother]

/-- The neighbour fields after the sides glued to `t` by the sides in `is` were glued back. -/
def GluedBack (s : Net K) (t : TrigonRef) (is : List (Fin 3))
    (nb : TrigonRef → Fin 3 → Option TrigonRef) (nv : TrigonRef → Fin 3 → Option (Fin 3)) : Prop :=
  ∀ u j, ((∀ i ∈ is, s.link (t, i) ≠ some (u, j)) ∧ nb u j = s.nbtri u j ∧ nv u j = s.nbvex u j) ∨
    ∃ i ∈ is, s.link (t, i) = some (u, j) ∧ nb u j = some t ∧ nv u j = some i

lemma attachSides_ok {s s' : Net K} {t : TrigonRef} {is : List (Fin 3)}
    (hself : ∀ i j, s.link (t, i) ≠ some (t, j)) (h : is.foldlM (attachSide t) s = .ok s') :
    ∃ nb nv, s' = { s with nbtri := nb, nbvex := nv } ∧ GluedBack s t is nb nv := by
  induction is generalizing s with
  | nil =>
    simp only [List.foldlM_nil, pure, Except.pure, Except.ok.injEq] at h
    exact ⟨s.nbtri, s.nbvex, h.symm, by simp [GluedBack]⟩
  | cons i is ih =>
    rw [List.foldlM_cons, bind_eq_ok] at h
    obtain ⟨s1, h1, h2⟩ := h
    unfold attachSide at h1
    cases hu : s.nbtri t i with
    | none =>
      simp only [hu, pure, Except.pure, Except.ok.injEq] at h1
      subst h1
      obtain ⟨nb, nv, rfl, hgl⟩ := ih hself h2
      refine ⟨nb, nv, rfl, fun u j => ?_⟩
      rcases hgl u j with ⟨hne, he⟩ | ⟨k, hk, hl⟩
      · refine .inl ⟨fun k hk => ?_, he⟩
        rcases List.mem_cons.mp hk with rfl | hk
        · simp [link_of_null hu]
        · exact hne k hk
      · exact .inr ⟨k, by simp [hk], hl⟩
    | some p =>
      simp only [hu, bind_eq_ok, index_eq_ok, pure, Except.pure, Except.ok.injEq] at h1
      obtain ⟨vid, hv, rfl⟩ := h1
      have hpt : p ≠ t := by
        rintro rfl
        exact hself i vid (link_eq_some.mpr ⟨hu, hv⟩)
      have hown : ∀ k, (s.setNeighbour p vid (some t) (some i)).link (t, k) = s.link (t, k) := by
        intro k
        apply link_congr
        · simp [setNeighbour, write_apply, hpt.symm]
        · simp [setNeighbour, write_apply, hpt.symm]
      obtain ⟨nb, nv, rfl, hgl⟩ := ih (fun k j => by rw [hown]; exact hself k j) h2
      refine ⟨nb, nv, rfl, fun u j => ?_⟩
      rcases hgl u j with ⟨hne, hn, hnv⟩ | ⟨k, hk, hl, he⟩
      · simp only [hown] at hne
        by_cases hother : u = p ∧ j = vid
        · obtain ⟨rfl, rfl⟩ := hother
          refine .inr ⟨i, by simp, link_eq_some.mpr ⟨hu, hv⟩, ?_⟩
          rw [hn, hnv]
          simp [setNeighbour]
        · refine .inl ⟨fun k hk => ?_, ?_⟩
          · rcases List.mem_cons.mp hk with rfl | hk
            · intro hl
              obtain ⟨hu', hv'⟩ := link_eq_some.mp hl
              rw [hu] at hu'
              rw [hv] at hv'
              cases hu'
              cases hv'
              exact hother ⟨rfl, rfl⟩
            · exact hne k hk
          · rw [hn, hnv]
            simp [setNeighbour, write_apply, hother]
      · rw [hown] at hl
        exact .inr ⟨k, by simp [hk], hl, he⟩

lemma mem_sides (i : Fin 3) : i ∈ ([0, 1, 2] : List (Fin 3)) := by
  fin_cases i <;> simp

/-- `Wired` survives any change of the gluing that only drops pairs or turns them round. -/
lemma Wired.of_link {s s' : Net K} (h : s.Wired) (hv : s'.vex = s.vex)
    (hc : s'.trigonCount = s.trigonCount)
    (hp : ∀ t i, s'.nbtri t i ≠ none → s'.nbvex t i ≠ none)
    (hl : ∀ a b, s'.link a = some b → s.link a = some b ∨ s.link b = some a) : s'.Wired := by
  refine ⟨hp, fun t i u j hab => ?_, fun t i u j hab => ?_⟩
  · rw [hc]
    rcases hl _ _ hab with h1 | h1
    · exact h.known t i u j h1
    · obtain ⟨hu, ht, hne⟩ := h.known u j t i h1
      exact ⟨ht, hu, hne.symm⟩
  · rw [hv]
    rcases hl _ _ hab with h1 | h1
    · exact h.ends t i u j h1
    · obtain ⟨he1, he2⟩ := h.ends u j t i h1
      exact ⟨he2.symm, he1.symm⟩

section Gluing

variable {s s' : Net K} {t : TrigonRef}

lemma Cleared.cut {nb nv} (h : Cleared s t [0, 1, 2] nb nv) (hb : s'.nbtri = nb)
    (hv : s'.nbvex = nv) : Cut s.link t s'.link := by
  subst hb hv
  rintro ⟨u, j⟩
  constructor
  · rintro ⟨i, hi⟩
    exact link_of_null ((h u j).1 ⟨i, mem_sides i, hi⟩).1
  · intro hne
    obtain ⟨h1, h2⟩ := (h u j).2 fun i _ => hne i
    exact link_congr h1 h2

lemma Cleared.wired {nb nv} (h : Cleared s t [0, 1, 2] nb nv) (hw : s.Wired) (hb : s'.nbtri = nb)
    (hv : s'.nbvex = nv) (hx : s'.vex = s.vex) (hc : s'.trigonCount = s.trigonCount) :
    s'.Wired := by
  refine hw.of_link hx hc ?_ fun a b hab => .inl ((h.cut hb hv).eq_of_some hab).1
  subst hb hv
  intro u j hne
  by_cases hex : ∃ i ∈ ([0, 1, 2] : List (Fin 3)), s.link (t, i) = some (u, j)
  · exact absurd ((h u j).1 hex).1 hne
  · obtain ⟨h1, h2⟩ := (h u j).2 fun i hi hl => hex ⟨i, hi, hl⟩
    rw [h2]
    exact hw.paired u j (h1 ▸ hne)

lemma GluedBack.pasted {nb nv} (h : GluedBack s t [0, 1, 2] nb nv) (hb : s'.nbtri = nb)
    (hv : s'.nbvex = nv) : Pasted s.link t s'.link := by
  subst hb hv
  rintro ⟨u, j⟩
  rcases h u j with ⟨hne, h1, h2⟩ | ⟨i, -, hl, h1, h2⟩
  · exact .inl ⟨fun i => hne i (mem_sides i), link_congr h1 h2⟩
  · exact .inr ⟨i, hl, link_eq_some.mpr ⟨h1, h2⟩⟩

lemma GluedBack.wired {nb nv} (h : GluedBack s t [0, 1, 2] nb nv) (hw : s.Wired)
    (hb : s'.nbtri = nb) (hv : s'.nbvex = nv) (hx : s'.vex = s.vex)
    (hc : s'.trigonCount = s.trigonCount) : s'.Wired := by
  refine hw.of_link hx hc ?_ fun a b hab => ?_
  · subst hb hv
    intro u j hne
    rcases h u j with ⟨-, h1, h2⟩ | ⟨i, -, -, h1, h2⟩
    · rw [h2]
      exact hw.paired u j (h1 ▸ hne)
    · rw [h2]
      simp
  · rcases (h.pasted hb hv).eq_of_some hab with ⟨hl, -⟩ | ⟨i, hi, rfl⟩
    · exact .inl hl
    · exact .inr hi

end Gluing

variable [Field K] [LinearOrder K] [FloorRing K]

/-- `deleteTrigon` takes the trigon out of the index and cuts it out of the gluing. -/
theorem deleteTrigon_ok {s s' : Net K} {t : TrigonRef} (hw : s.Wired)
    (h : s.deleteTrigon t = .ok s') :
    ∃ cells e q nb nv,
      s' = { s with
        cells := cells
        trigonIndex := s.trigonIndex.erase t
        etc := e
        queue := q
        nbtri := nb
        nbvex := nv
        np := { s.np with not := s.np.not - 1 } } ∧
      (s.listp.box (s.vex t)).foldlM (QueryList.deleteCell s.listp t) s.cells = .ok cells ∧
      LessQueue s e q ∧ Cleared s t [0, 1, 2] nb nv := by
  unfold deleteTrigon at h
  simp only [bind_eq_ok, pure, Except.pure, Except.ok.injEq] at h
  obtain ⟨s1, h1, s2, h2, rfl⟩ := h
  obtain ⟨cells, hc, rfl⟩ := QueryList.delete_ok h1
  obtain ⟨e, q, nb, nv, rfl, hle, hcl⟩ := detachSides_ok
    (s := { s with cells := cells, trigonIndex := s.trigonIndex.erase t }) (hw.no_self t) h2
  exact ⟨cells, e, q, nb, nv, rfl, hc, hle, hcl⟩

/-- `insertTrigon` puts the trigon into the index and pastes it into the gluing. -/
theorem insertTrigon_ok {s s' : Net K} {t : TrigonRef} (hself : ∀ i j, s.link (t, i) ≠ some (t, j))
    (h : s.insertTrigon t = .ok s') :
    ∃ cells nb nv,
      s' = { s with
        cells := cells
        trigonIndex := s.trigonIndex ++ [t]
        heart := Function.update s.heart t (setHeart (s.vex t))
        nbtri := nb
        nbvex := nv
        np := { s.np with not := s.np.not + 1 } } ∧
      (s.listp.box (s.vex t)).foldlM (QueryList.insertCell s.listp t) s.cells = .ok cells ∧
      GluedBack s t [0, 1, 2] nb nv := by
  unfold insertTrigon at h
  simp only [bind_eq_ok, pure, Except.pure, Except.ok.injEq] at h
  obtain ⟨s1, h1, s2, h2, rfl⟩ := h
  obtain ⟨nb, nv, rfl, hgl⟩ := attachSides_ok hself h1
  obtain ⟨cells, hc, rfl⟩ := QueryList.insert_ok h2
  exact ⟨cells, nb, nv, rfl, hc, hgl⟩

/-- Deleting several trigons cuts them out of the gluing one after the other. -/
theorem deleteTrigons_ok {s s' : Net K} {ts : List TrigonRef} (hw : s.Wired)
    (h : ts.foldlM deleteTrigon s = .ok s') :
    ∃ cells e q nb nv,
      s' = { s with
        cells := cells
        trigonIndex := s.trigonIndex.diff ts
        etc := e
        queue := q
        nbtri := nb
        nbvex := nv
        np := { s.np with not := s.np.not - ts.length } } ∧
      LessQueue s e q ∧ s'.Wired ∧ Cuts s.link ts s'.link := by
  induction ts generalizing s with
  | nil =>
    simp only [List.foldlM_nil, pure, Except.pure, Except.ok.injEq] at h
    subst h
    exact ⟨s.cells, s.etc, s.queue, s.nbtri, s.nbvex, by simp, LessQueue.refl s, hw, rfl⟩
  | cons t ts ih =>
    rw [List.foldlM_cons, bind_eq_ok] at h
    obtain ⟨s1, h1, h2⟩ := h
    obtain ⟨cells, e, q, nb, nv, hs1, -, hle, hcl⟩ := deleteTrigon_ok hw h1
    subst hs1
    have hw1 : Wired { s with
        cells := cells
        trigonIndex := s.trigonIndex.erase t
        etc := e
        queue := q
        nbtri := nb
        nbvex := nv
        np := { s.np with not := s.np.not - 1 } } := hcl.wired hw rfl rfl rfl rfl
    obtain ⟨cells', e', q', nb', nv', rfl, hle', hw', hcuts⟩ := ih hw1 h2
    refine ⟨cells', e', q', nb', nv', ?_, hle.trans hle', hw', _, hcl.cut rfl rfl, hcuts⟩
    simp only [List.diff_cons, List.length_cons, Nat.cast_add, Nat.cast_one, mk.injEq, true_and,
      NetParam.mk.injEq]
    ring

/-- Inserting several trigons pastes them into the gluing one after the other. -/
theorem insertTrigons_ok {s s' : Net K} {ts : List TrigonRef} (hw : s.Wired)
    (h : ts.foldlM insertTrigon s = .ok s') :
    ∃ cells heart nb nv,
      s' = { s with
        cells := cells
        trigonIndex := s.trigonIndex ++ ts
        heart := heart
        nbtri := nb
        nbvex := nv
        np := { s.np with not := s.np.not + ts.length } } ∧
      s'.Wired ∧ Pastes s.link ts s'.link := by
  induction ts generalizing s with
  | nil =>
    simp only [List.foldlM_nil, pure, Except.pure, Except.ok.injEq] at h
    subst h
    exact ⟨s.cells, s.heart, s.nbtri, s.nbvex, by simp, hw, rfl⟩
  | cons t ts ih =>
    rw [List.foldlM_cons, bind_eq_ok] at h
    obtain ⟨s1, h1, h2⟩ := h
    obtain ⟨cells, nb, nv, hs1, -, hgl⟩ := insertTrigon_ok (hw.no_self t) h1
    subst hs1
    have hw1 : Wired { s with
        cells := cells
        trigonIndex := s.trigonIndex ++ [t]
        heart := Function.update s.heart t (setHeart (s.vex t))
        nbtri := nb
        nbvex := nv
        np := { s.np with not := s.np.not + 1 } } := hgl.wired hw rfl rfl rfl rfl
    obtain ⟨cells', heart, nb', nv', rfl, hw', hpastes⟩ := ih hw1 h2
    refine ⟨cells', heart, nb', nv', ?_, hw', _, hgl.pasted rfl rfl, hpastes⟩
    simp only [List.append_assoc, List.singleton_append, List.length_cons, Nat.cast_add,
      Nat.cast_one, mk.injEq, true_and, NetParam.mk.injEq]
    ring

end Net

end MTalk.Triangle
