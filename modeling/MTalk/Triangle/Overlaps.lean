import MTalk.Triangle.Orientation
import MTalk.Library.TriangleInteriors

/-!
# Trigons that do not overlap

In a triangulation no two trigons have an inner point in common. Splits at inner points and flips
of exchangable edges keep it so. A point strictly inside a trigon is therefore on the net at no
other place, and the vertex that a split inserts is new.
-/

namespace MTalk.Triangle

open PlaneGeometry

variable {K : Type} [Field K] [LinearOrder K]

/-- The point is strictly inside the trigon. -/
def Encloses (vex : Fin 3 → Vertex K) (p : K × K) : Prop :=
  InTriangle (vex 0).xy (vex 1).xy (vex 2).xy p

lemma encloses_at (vex : Fin 3 → Vertex K) (i : Fin 3) {p : K × K} :
    InTriangle (vex i).xy (vex (i + 1)).xy (vex (i + 2)).xy p ↔ Encloses vex p := by
  fin_cases i
  · exact Iff.rfl
  · exact ⟨fun h => h.rotate.rotate, fun h => h.rotate⟩
  · exact ⟨fun h => h.rotate, fun h => h.rotate.rotate⟩

namespace Net

/-- No two trigons overlap. -/
def Apart (s : Net K) : Prop :=
  ∀ t u, s.Live t → s.Live u → t ≠ u → ∀ p, Encloses (s.vex t) p → ¬ Encloses (s.vex u) p

/-- Replacing trigons keeps the net free of overlaps, when what meets a new trigon met an old one. -/
lemma Rebuilt.apart {s s₁ s' : Net K} {olds news : List TrigonRef} (h : Rebuilt s₁ olds news s')
    (hs : s.Apart) (hindex : s₁.trigonIndex = s.trigonIndex) (hnd : s.trigonIndex.Nodup)
    (hvex : ∀ t, s.Live t → s₁.vex t = s.vex t) (holds : ∀ t ∈ olds, s.Live t)
    (hnews : ∀ t ∈ news, ∀ u ∈ news, t ≠ u → ∀ p, Encloses (s₁.vex t) p → ¬ Encloses (s₁.vex u) p)
    (hmeets : ∀ t ∈ news, ∀ x y z p, Encloses (s₁.vex t) p → InTriangle x y z p →
      ∃ o ∈ olds, ∃ q, Encloses (s.vex o) q ∧ InTriangle x y z q) : s'.Apart := by
  have hlive : ∀ t, s'.Live t ↔ s.Live t ∧ t ∉ olds ∨ t ∈ news := by
    intro t
    rw [h.live_iff (by rwa [hindex]), Live, Live, hindex]
  have hmixed : ∀ t u, t ∈ news → s.Live u ∧ u ∉ olds → ∀ p, Encloses (s₁.vex t) p →
      ¬ Encloses (s.vex u) p := by
    intro t u ht hu p htp hup
    obtain ⟨o, ho, q, hoq, huq⟩ := hmeets t ht _ _ _ p htp hup
    have hne : o ≠ u := fun he => hu.2 (he ▸ ho)
    exact hs o u (holds o ho) hu.1 hne q hoq huq
  intro t u ht hu hne p
  rw [h.vex]
  rcases (hlive t).mp ht with ht | ht
  · rcases (hlive u).mp hu with hu | hu
    · rw [hvex t ht.1, hvex u hu.1]
      exact hs t u ht.1 hu.1 hne p
    · rw [hvex t ht.1]
      exact fun htp hup => hmixed u t hu ht p hup htp
  · rcases (hlive u).mp hu with hu | hu
    · rw [hvex u hu.1]
      exact hmixed t u ht hu p
    · exact hnews t ht u hu hne p

section Steps

variable [IsStrictOrderedRing K] {s s' : Net K} {v : Vertex K} {t : TrigonRef}

lemma encloses_of_vexPosition (hp : s.Positive) (ht : s.Live t)
    (hv : vexPosition (s.vex t) v = 3) : Encloses (s.vex t) v.xy := by
  have hinside := vexPosition_inside hv (hp t ht)
  exact ⟨hinside 0, hinside 1, hinside 2⟩

/-- The vertex that a split inserts is not on the net yet. -/
theorem Apart.fresh (hs : s.Apart) (hp : s.Positive) (ht : s.Live t)
    (hv : vexPosition (s.vex t) v = 3) : ¬ s.OnNet v := by
  rintro ⟨u, hu, i, rfl⟩
  have hinner := encloses_of_vexPosition hp ht hv
  obtain ⟨q, htq, huq⟩ := exists_common_of_corner hinner (hp.area_at hu i)
  rw [encloses_at] at huq
  by_cases hne : t = u
  · rw [hne, ← encloses_at _ i] at hinner
    exact hinner.first.ne' (orient_start _ _)
  · exact hs t u ht hu hne q htq huq

/-- The trigons of a split are inside the old one. -/
lemma encloses_of_part {vex : Fin 3 → Vertex K} (hv : Encloses vex v.xy) {i : Fin 3} {p : K × K}
    (h : Encloses (fun j => if i ≠ j then vex j else v) p) : Encloses vex p := by
  rw [← encloses_at _ i] at h ⊢
  simp only [ne_eq, not_true_eq_false, if_false, side_ne_one, side_ne_two, not_false_eq_true,
    if_true] at h
  exact ((encloses_at vex i).mpr hv).of_part h

/-- Two trigons of a split share an edge, so they do not overlap. -/
lemma parts_apart {vex : Fin 3 → Vertex K} {i j : Fin 3} (hij : i ≠ j) {p : K × K}
    (h : Encloses (fun k => if i ≠ k then vex k else v) p) :
    ¬ Encloses (fun k => if j ≠ k then vex k else v) p := by
  intro h'
  rw [← encloses_at _ i] at h
  rw [← encloses_at _ j] at h'
  simp only [ne_eq, not_true_eq_false, if_false, side_ne_one, side_ne_two, not_false_eq_true,
    if_true] at h h'
  rcases (side_cases i j).resolve_left hij.symm with rfl | rfl
  · rw [side_one_one] at h'
    exact h.rotate.rotate.not_across h'
  · rw [side_two_one] at h'
    simp only [side_two_two] at h'
    exact h'.rotate.rotate.not_across h

variable [FloorRing K]

/-- A split at an inner point makes no overlaps. -/
theorem insertMid_apart (h : s.Adjacent) (hp : s.Positive) (hs : s.Apart) (ht : s.Live t)
    (hv : vexPosition (s.vex t) v = 3) (hr : s.insertMid v t = .ok s') : s'.Apart := by
  obtain ⟨-, hreb⟩ := insertMid_ok h ht hr
  have hmem : ∀ u, u ∈ [s.mids 0, s.mids 1, s.mids 2] ↔ ∃ i, u = s.mids i := by
    intro u
    simp [Fin.exists_fin_succ]
  refine hreb.apart hs rfl h.nodup (fun u hu => (s.newMids_old v t (s.ne_mids (h.old u hu))).1)
    (by simpa using ht) ?_ ?_
  · intro u hu w hw hne p
    obtain ⟨i, rfl⟩ := (hmem u).mp hu
    obtain ⟨j, rfl⟩ := (hmem w).mp hw
    rw [(s.newMids_new v t i).1, (s.newMids_new v t j).1]
    exact parts_apart fun hij => hne (by rw [hij])
  · intro u hu x y z p hup hp'
    obtain ⟨i, rfl⟩ := (hmem u).mp hu
    rw [(s.newMids_new v t i).1] at hup
    exact ⟨t, by simp, p, encloses_of_part (encloses_of_vexPosition hp ht hv) hup, hp'⟩

/-- A flip that `Exchangable` admits makes no overlaps. -/
theorem changeEdge_apart {edge : QueueNode} (h : s.Adjacent) (hp : s.Positive) (hs : s.Apart)
    (ht : s.Live edge.trigon) (hx : s.exchangable edge = .ok true)
    (hr : s.changeEdge edge = .ok s') : s'.Apart := by
  obtain ⟨p2, vid1, hl⟩ := link_of_exchangable hx
  obtain ⟨-, hreb⟩ := changeEdge_ok h ht hl (hp.sharesOneSide h ht _) hr
  obtain ⟨hfirst, hsecond⟩ := exchangable_pos hp h ht hl hx
  have hp2 := (h.symmetric _ _ ht hl).1
  obtain ⟨he₁, he₂⟩ := h.ends _ _ _ _ hl
  have habc := hp.area_at ht edge.vid
  have hdcb := hp.area_at hp2 vid1
  rw [he₁, he₂] at hdcb
  have hinner : ∀ {q}, InTriangle (s.vex p2 vid1).xy (s.vex edge.trigon (edge.vid + 2)).xy
      (s.vex edge.trigon (edge.vid + 1)).xy q → Encloses (s.vex p2) q := by
    intro q hq
    rwa [← he₁, ← he₂, encloses_at] at hq
  refine hreb.apart hs rfl h.nodup (fun u hu => ?_) ?_ ?_ ?_
  · exact (s.newPair_old _ _ _ _ (h.old u hu).ne (Nat.lt_add_right 1 (h.old u hu)).ne).1
  · simp only [List.mem_cons, List.not_mem_nil, or_false, forall_eq_or_imp, forall_eq]
    exact ⟨ht, hp2⟩
  · have hcross : ∀ q, Encloses ((s.newPair edge.trigon edge.vid p2 vid1).vex s.trigonCount) q →
        ¬ Encloses ((s.newPair edge.trigon edge.vid p2 vid1).vex (s.trigonCount + 1)) q := by
      rw [(s.newPair_first _ _ _ _).1, (s.newPair_second _ _ _ _).1]
      intro q hq hq'
      exact hq.rotate.rotate.not_across hq'.rotate.rotate
    intro u hu w hw hne q
    simp only [List.mem_cons, List.not_mem_nil, or_false] at hu hw
    rcases hu with rfl | rfl <;> rcases hw with rfl | rfl
    · exact absurd rfl hne
    · exact hcross q
    · exact fun hq hq' => hcross q hq' hq
    · exact absurd rfl hne
  · rw [he₁] at hsecond
    intro u hu x y z q huq hq
    simp only [List.mem_cons, List.not_mem_nil, or_false] at hu
    rcases hu with rfl | rfl
    · rw [(s.newPair_first _ _ _ _).1] at huq
      obtain ⟨r, hr, hrt | hrp⟩ := exists_common_of_flip habc hdcb hsecond huq hq
      · exact ⟨edge.trigon, by simp, r, (encloses_at _ _).mp hrt, hr⟩
      · exact ⟨p2, by simp, r, hinner hrp, hr⟩
    · rw [(s.newPair_second _ _ _ _).1, he₁] at huq
      obtain ⟨r, hr, hrp | hrt⟩ := exists_common_of_flip hdcb habc hfirst huq hq
      · exact ⟨p2, by simp, r, hinner hrp, hr⟩
      · exact ⟨edge.trigon, by simp, r, (encloses_at _ _).mp hrt, hr⟩

end Steps

end Net

end MTalk.Triangle
