import MTalk.Triangle.LevelLines

/-!
# Whole contours

The list of a walk that does not turn round, or that turns round at a first branch, is the whole
component of the level line. A turn at a second branch takes the entry side of the first branch, so
that the second walk leaves by the side that the first ended with: the list then has that point
twice, and of an open line the part before the turn is missing.
-/

namespace MTalk.Triangle

open GeoMath PartialWalks

namespace Net

variable {K : Type} [Field K] [LinearOrder K] {s : Net K} {z : K}

/-- The point of the level on a side. -/
def sectOf (s : Net K) (z : K) (a : TrigonRef × Fin 3) : SidePoint K := s.sect z a.1 a.2

/-- The sides of a walk: the one that it begins at and those it leaves by. -/
def lineSides (s : Net K) (z : K) (n : ℕ) (x : TrigonRef × Fin 3) : List (TrigonRef × Fin 3) :=
  x :: (points (s.follow z) n x).map (s.flip z)

lemma map_lineSides (s : Net K) (z : K) (n : ℕ) (x : TrigonRef × Fin 3) :
    (s.lineSides z n x).map (s.sectOf z)
      = s.sectOf z x :: (points (s.follow z) n x).map (s.exitPoint z) := by
  rw [lineSides, List.map_cons, List.map_map]
  rfl

lemma onSide_sectOf [IsStrictOrderedRing K] (hz : s.AvoidsVertices z) {a : TrigonRef × Fin 3}
    (ha : a ∈ s.entered z) : s.OnSide z (s.sectOf z a) := by
  have h1 := hz a.1 ha.1 (a.2 + 1)
  have h2 := hz a.1 ha.1 (a.2 + 2)
  have hcross := isCross_iff.mp ha.2
  unfold OnSide
  simp only [sectOf, sect]
  generalize (s.vex a.1 (a.2 + 1)).coord = l1 at *
  generalize (s.vex a.1 (a.2 + 2)).coord = l2 at *
  have hparts : ∀ l1 l2 : GVector K, l1.z < z → z < l2.z →
      0 < (z - l1.z) / (l2.z - l1.z) ∧ (z - l1.z) / (l2.z - l1.z) < 1
        ∧ z = l1.z + (z - l1.z) / (l2.z - l1.z) * (l2.z - l1.z) := by
    intro l1 l2 hlow hhigh
    have hpos : 0 < l2.z - l1.z := by linarith
    refine ⟨div_pos (by linarith) hpos, (div_lt_one hpos).mpr (by linarith), ?_⟩
    rw [div_mul_cancel₀ _ hpos.ne']
    ring
  rw [min_le_iff, le_max_iff] at hcross
  rcases lt_or_gt_of_ne h1 with hlow | hlow
  · have hhigh : z < l2.z := lt_of_le_of_ne (hcross.2.resolve_left hlow.not_ge) h2.symm
    obtain ⟨hpos, hone, hlevel⟩ := hparts l1 l2 hlow hhigh
    refine ⟨_, hpos, hone, ?_, ?_, hlevel⟩
    all_goals
      simp only [getSectLevel, (hlow.trans hhigh).not_gt, if_false, h1.symm, h2.symm]
      ring
  · have hhigh : l2.z < z := lt_of_le_of_ne (hcross.1.resolve_left hlow.not_ge) h2
    obtain ⟨hpos, hone, hlevel⟩ := hparts l2 l1 hhigh hlow
    refine ⟨1 - (z - l2.z) / (l1.z - l2.z), by linarith, by linarith, ?_, ?_, ?_⟩
    · simp only [getSectLevel, hhigh.trans hlow, if_true, if_false, h1.symm, h2.symm]
      ring
    · simp only [getSectLevel, hhigh.trans hlow, if_true, if_false, h1.symm, h2.symm]
      ring
    · linarith

section FullWalks

variable (hs : s.AdjacencyInvariant) (hz : s.AvoidsVertices z) {p : TrigonRef}
  {x w : TrigonRef × Fin 3} {n : ℕ} (hx : x ∈ s.entered z) (hfull : FullWalk s z x n w)

include hs hz hx

omit [Field K] in
/-- Two sides by which a walk leaves are different edges. -/
lemma flip_not_sameEdge {b c : TrigonRef × Fin 3} (hb : b ∈ points (s.follow z) n x)
    (hc : c ∈ points (s.follow z) n x) (hne : b ≠ c) :
    ¬ s.SameEdge (s.flip z b) (s.flip z c) := by
  have hbin := entered_of_mem_points hs hx hb
  have hcin := entered_of_mem_points hs hx hc
  obtain ⟨k, -, hkb⟩ := mem_points.mp hb
  obtain ⟨m, -, hmc⟩ := mem_points.mp hc
  rintro (hsame | hlink)
  · apply hne
    rw [← flip_flip hz hbin, hsame, flip_flip hz hcin]
  · have hrising := rising_follow hs hz hbin hlink
    rw [rising_flip hz hcin, rising_iter hs hz hx hkb, rising_iter hs hz hx hmc] at hrising
    tauto

omit [Field K] in
/-- A side by which a walk leaves is the one it began at only where it comes back. -/
lemma not_sameEdge_flip {c : TrigonRef × Fin 3} (hc : c ∈ points (s.follow z) n x)
    (hreturn : s.follow z c ≠ some x) : ¬ s.SameEdge x (s.flip z c) := by
  have hcin := entered_of_mem_points hs hx hc
  obtain ⟨m, -, hmc⟩ := mem_points.mp hc
  rintro (hsame | hlink)
  · have hrising := rising_flip hz hcin
    rw [← hsame, rising_iter hs hz hx hmc] at hrising
    tauto
  · exact hreturn (hs.link_some hx.1 hlink).2.1

omit [Field K] in
lemma pairwise_lineSides (hbefore : ∀ m, 0 < m → m ≤ n → iter (s.follow z) m x ≠ some x) :
    (s.lineSides z n x).Pairwise fun a b => ¬ s.SameEdge a b := by
  rw [lineSides, List.pairwise_cons, List.pairwise_map]
  constructor
  · intro a ha
    obtain ⟨c, hc, rfl⟩ := List.mem_map.mp ha
    apply not_sameEdge_flip hs hz hx hc
    obtain ⟨m, hm, hmc⟩ := mem_points.mp hc
    intro hreturn
    apply hbefore (m + 1) (by omega) (by omega)
    rw [iter_succ, hmc]
    exact hreturn
  · have hnodup := (hs.injective_follow z).nodup_points hx
      fun m hm hmn => hbefore m hm hmn.le
    refine List.Pairwise.imp_of_mem ?_ hnodup
    intro b c hb hc hne
    exact flip_not_sameEdge hs hz hx hb hc hne

omit [Field K] in
/-- Consecutive points of a walk are on the two crossed sides of a trigon. -/
lemma isChain_lineSides : (s.lineSides z n x).IsChain fun a b =>
    ∃ a' b', s.SameEdge a a' ∧ s.SameEdge b b' ∧ a'.1 = b'.1 ∧ a' ≠ b' := by
  have hrest : ((points (s.follow z) n x).map (s.flip z)).IsChain fun a b =>
      ∃ a' b', s.SameEdge a a' ∧ s.SameEdge b b' ∧ a'.1 = b'.1 ∧ a' ≠ b' := by
    rw [List.isChain_map]
    refine List.IsChain.imp_of_mem_imp ?_ (isChain_points n x)
    intro b c hb hc hbc
    have hcin := entered_of_mem_points hs hx hc
    exact ⟨c, s.flip z c, .inr hbc, .inl rfl, rfl, (flip_ne hz hcin).symm⟩
  rw [lineSides]
  cases n with
  | zero => exact .singleton _
  | succ n =>
    rw [points, List.map_cons] at hrest ⊢
    exact .cons_cons ⟨x, s.flip z x, .inl rfl, .inl rfl, rfl, (flip_ne hz hx).symm⟩ hrest

include hfull

/-- The points of a full walk are the whole line. -/
theorem FullWalk.wholeLine [IsStrictOrderedRing K] (hp : s.Live p) (hxp : x ∈ s.component z p) :
    s.WholeLine z p ((s.lineSides z (n + 1) x).map (s.sectOf z)) := by
  have hsides : ∀ a ∈ s.lineSides z (n + 1) x, a ∈ s.entered z ∧ a ∈ s.component z p := by
    intro a ha
    rw [lineSides, List.mem_cons, List.mem_map] at ha
    rcases ha with rfl | ⟨b, hb, rfl⟩
    · exact ⟨hx, hxp⟩
    · have hbin := entered_of_mem_points hs hx hb
      obtain ⟨k, -, hk⟩ := mem_points.mp hb
      exact ⟨flip_entered hbin, component_flip hbin (component_iter hs hx hxp hk)⟩
  refine ⟨?_, ?_, ?_, ?_⟩
  · intro q hq
    obtain ⟨a, ha, rfl⟩ := List.mem_map.mp hq
    exact ⟨(hsides a ha).2, onSide_sectOf hz (hsides a ha).1⟩
  · intro a ha
    obtain ⟨b, hb, hab⟩ := hfull.component_subset hs hz hx hp hxp ha
    have hleft : s.flip z b ∈ s.lineSides z (n + 1) x :=
      List.mem_cons_of_mem _ (List.mem_map_of_mem hb)
    rcases hab with rfl | rfl
    · -- a state's own side is the one before it on the line
      obtain ⟨k, hk, hka⟩ := mem_points.mp hb
      cases k with
      | zero =>
        cases hka
        exact ⟨_, List.mem_map_of_mem List.mem_cons_self, .inl rfl⟩
      | succ k =>
        rw [iter_succ] at hka
        obtain ⟨d, hd, hda⟩ := Option.bind_eq_some_iff.mp hka
        have hdin : s.flip z d ∈ s.lineSides z (n + 1) x :=
          List.mem_cons_of_mem _ (List.mem_map_of_mem (mem_points.mpr ⟨k, by omega, hd⟩))
        exact ⟨_, List.mem_map_of_mem hdin, .inr hda⟩
    · exact ⟨_, List.mem_map_of_mem hleft, .inl rfl⟩
  · rw [List.isChain_map]
    exact isChain_lineSides hs hz hx
  · have hlast : s.lineSides z (n + 1) x = s.lineSides z n x ++ [s.flip z w] := by
      rw [lineSides, points_succ hfull.walk, List.map_append]
      rfl
    have hpairwise := pairwise_lineSides hs hz hx hfull.before
    rcases hfull.ends with ⟨hfirst, hend⟩ | hclosed
    · left
      refine ⟨?_, ?_, ?_⟩
      · rw [List.pairwise_map]
        apply pairwise_lineSides hs hz hx
        intro m hm hmn hreturn
        rcases Nat.lt_or_ge n m with hlt | hge
        · obtain rfl : m = n + 1 := by omega
          rw [iter_succ, hfull.walk] at hreturn
          rw [Option.bind_some, hend] at hreturn
          cases hreturn
        · exact hfull.before m hm hge hreturn
      · intro q hq
        cases hq
        exact hfirst
      · intro q hq
        rw [hlast, List.map_append, List.map_singleton, List.getLast?_concat] at hq
        cases hq
        exact hend
    · right
      refine ⟨(s.lineSides z n x).map (s.sectOf z), s.sectOf z (s.flip z w), ?_, ?_, s.sectOf z x,
        rfl, .inr ?_⟩
      · rw [hlast, List.map_append]
        rfl
      · rw [List.pairwise_map]
        exact hpairwise
      · have hw := (hs.injective_follow z).mem_of_iter hx hfull.walk
        exact (hs.link_some hw.1 hclosed).2.1

end FullWalks

/-! The start trigons from which the whole line is traced. -/

/-- The level line leads from one state to another, out of each trigon by its other crossed side,
and not through the start trigon. -/
inductive LineTo (s : Net K) (z : K) (p : TrigonRef) :
    TrigonRef × Fin 3 → TrigonRef × Fin 3 → Prop
  | here (x) : LineTo s z p x x
  | across {x y w} (e : Fin 3) : e ≠ x.2 → s.crosses z x.1 e = true → s.link (x.1, e) = some y →
      y.1 ≠ p → LineTo s z p y w → LineTo s z p x w

/-- The line from the first crossed side of a trigon through it comes to the boundary, or to the
trigon again, by the side before the one that it enters the last trigon by. -/
def EndsInFirstBranch (s : Net K) (z : K) (p : TrigonRef) : Prop :=
  ∃ i y, s.firstSide z p = some i ∧ s.LineTo z p (p, i) y ∧ s.crosses z y.1 (y.2 + 2) = true
    ∧ (s.nbtri y.1 (y.2 + 2) = none ∨ s.nbtri y.1 (y.2 + 2) = some p)

/-- A crossed side of a trigon is glued to another side of it. -/
def GluedToItself (s : Net K) (z : K) (p : TrigonRef) : Prop :=
  ∃ i j, s.crosses z p i = true ∧ s.link (p, i) = some (p, j)

end Net

namespace Contour

open Net

section Ends

variable {K : Type} [LinearOrder K] {s : Net K} {z : K} {p : TrigonRef}

lemma Last.lineTo (hz : s.AvoidsVertices z) (hs : s.AdjacencyInvariant)
    {x y : TrigonRef × Fin 3} {n : ℕ} (hx : x ∈ s.entered z) (h : Last s z p x n y) :
    s.LineTo z p x y := by
  obtain ⟨hwalk, hbefore, -⟩ := h
  induction n generalizing x with
  | zero =>
    cases hwalk
    exact .here _
  | succ n ih =>
    obtain ⟨x', hx', hwalk⟩ := Option.bind_eq_some_iff.mp hwalk
    have hexit := (exitSide_iff hz hx _).mp rfl
    have hne := hbefore 1 (by omega) (by omega) x' (by rw [iter_one]; exact hx')
    apply LineTo.across (s.exitSide z x) hexit.1 hexit.2 hx' hne
    apply ih ((hs.injective_follow z).closed x hx x' hx') hwalk
    intro m hm hmn y' hy'
    exact hbefore (m + 1) (by omega) (by omega) y' (by rw [iter_succ_of_next hx']; exact hy')

lemma iter_of_lineTo (hz : s.AvoidsVertices z) (hs : s.AdjacencyInvariant)
    {x y : TrigonRef × Fin 3} (h : s.LineTo z p x y) (hx : x ∈ s.entered z) :
    ∃ n, iter (s.follow z) n x = some y ∧
      ∀ m, 0 < m → m ≤ n → ∀ y', iter (s.follow z) m x = some y' → y'.1 ≠ p := by
  induction h with
  | here x => exact ⟨0, rfl, fun m hm hm' => by omega⟩
  | @across x x' y e hne hcross hlink hother _ ih =>
    have hexit := (exitSide_iff hz hx e).mpr ⟨hne, hcross⟩
    have hx' : s.follow z x = some x' := by
      rw [follow, hexit, hlink]
    obtain ⟨n, hy, hbefore⟩ := ih ((hs.injective_follow z).closed x hx x' hx')
    refine ⟨n + 1, by rw [iter_succ_of_next hx', hy], ?_⟩
    intro m hm hmn y' hy'
    obtain ⟨m, rfl⟩ : ∃ k, m = k + 1 := ⟨m - 1, by omega⟩
    rw [iter_succ_of_next hx'] at hy'
    rcases Nat.eq_zero_or_pos m with rfl | hpos
    · cases hy'
      exact hother
    · exact hbefore m hpos (by omega) y' hy'

/-- There is one last state. -/
lemma Last.unique {x y y' : TrigonRef × Fin 3} {n n' : ℕ} (h : Last s z p x n y)
    (h' : Last s z p x n' y') : n = n' ∧ y = y' := by
  have hnot : ∀ {y y' : TrigonRef × Fin 3} {n n' : ℕ}, Last s z p x n y → Last s z p x n' y' →
      ¬ n < n' := by
    intro y y' n n' h h' hlt
    rcases h.ends with hnone | ⟨j, hj⟩
    · apply iter_ne_none_of_le (Nat.succ_le_of_lt hlt) (by rw [h'.walk]; simp)
      rw [iter_succ, h.walk]
      exact hnone
    · exact h'.before (n + 1) (by omega) (by omega) (p, j) (by rw [iter_succ, h.walk]; exact hj) rfl
  have hsame : n = n' := by
    have h1 := hnot h h'
    have h2 := hnot h' h
    omega
  subst hsame
  have hwalk := h.walk
  rw [h'.walk, Option.some.injEq] at hwalk
  exact ⟨rfl, hwalk.symm⟩

/-- Which branch the walk leaves its last trigon by, as a condition on the net. -/
lemma endsInFirstBranch_iff (hz : s.AvoidsVertices z) (hs : s.AdjacencyInvariant) {i : Fin 3}
    (hi : s.firstSide z p = some i) (hx : (p, i) ∈ s.entered z) {y : TrigonRef × Fin 3} {n : ℕ}
    (h : Last s z p (p, i) n y) : s.EndsInFirstBranch z p ↔ s.exitSide z y = y.2 + 2 := by
  have hy := (hs.injective_follow z).mem_of_iter hx h.walk
  constructor
  · rintro ⟨i', y', hi', hline, hcross, hend⟩
    rw [hi, Option.some.injEq] at hi'
    subst hi'
    obtain ⟨n', hwalk, hbefore⟩ := iter_of_lineTo hz hs hline hx
    have hlive := ((hs.injective_follow z).mem_of_iter hx hwalk).1
    have hexit : s.exitSide z y' = y'.2 + 2 := if_pos hcross
    have hends : s.follow z y' = none ∨ ∃ j, s.follow z y' = some (p, j) := by
      rw [follow, hexit]
      rcases hend with hnone | hsome
      · left
        cases hlink : s.link (y'.1, y'.2 + 2) with
        | none => rfl
        | some b =>
          rw [(link_eq_some.mp (show _ = some (b.1, b.2) from hlink)).1] at hnone
          cases hnone
      · obtain ⟨j, hj, -⟩ := hs.link_of_nbtri hlive hsome
        exact .inr ⟨j, hj⟩
    obtain ⟨-, rfl⟩ := h.unique ⟨hwalk, hbefore, hends⟩
    exact hexit
  · intro hexit
    refine ⟨i, y, hi, h.lineTo hz hs hx, ?_, ?_⟩
    · rw [← hexit]
      exact crosses_exitSide hy.2
    · rw [← hexit]
      exact h.nbtri hs hy.1

end Ends

section Lists

variable {K : Type} [Field K] [LinearOrder K] {s : Net K} {z : K} {p : TrigonRef}

/-- More fuel does not change the outcome. -/
lemma go_add {c c' : Contour K} {n : ℕ} (h : c.go s z n = .ok c') (m : ℕ) :
    c.go s z (n + m) = .ok c' := by
  induction n generalizing c with
  | zero => cases h
  | succ n ih =>
    rw [Nat.add_right_comm]
    unfold go at h ⊢
    obtain ⟨⟨d, flow⟩, hnext, h⟩ := bind_eq_ok.mp h
    rw [hnext]
    simp only [bind, Except.bind]
    cases flow with
    | stop => exact h
    | next => exact ih h
    | turn => exact ih h

lemma go_unique {c c₁ c₂ : Contour K} {n m : ℕ} (h₁ : c.go s z n = .ok c₁)
    (h₂ : c.go s z m = .ok c₂) : c₁ = c₂ := by
  have h₁' := go_add h₁ m
  have h₂' := go_add h₂ n
  rw [Nat.add_comm, h₁', Except.ok.injEq] at h₂'
  exact h₂'

variable (hs : s.AdjacencyInvariant) (hz : s.AvoidsVertices z)

include hs hz

omit hs in
/-- A line with a point twice at its beginning is whole only where a trigon is glued to itself. -/
lemma link_of_wholeLine {y : TrigonRef × Fin 3} {rest : List (SidePoint K)} (hy : y ∈ s.entered z)
    (hyp : y ∈ s.component z p)
    (h : s.WholeLine z p (s.exitPoint z y :: s.exitPoint z y :: rest)) :
    s.follow z y = some y := by
  have htwice : s.SameEdge (s.exitPoint z y).side (s.exitPoint z y).side := .inl rfl
  rcases h.once with ⟨hpairwise, -, -⟩ | ⟨l, q, hlist, hpairwise, -⟩
  · exact absurd htwice (List.rel_of_pairwise_cons hpairwise List.mem_cons_self)
  · match l with
    | [] => simp at hlist
    | [r] =>
      obtain ⟨rfl, rfl, rfl⟩ : s.exitPoint z y = r ∧ s.exitPoint z y = q ∧ rest = [] := by
        simpa using hlist
      obtain ⟨r, hr, hsame⟩ := h.complete y hyp
      obtain rfl : r = s.exitPoint z y := by simpa using hr
      rcases hsame with heq | hlink
      · exact absurd heq (flip_ne hz hy)
      · exact hlink
    | r :: r' :: l =>
      obtain ⟨rfl, rfl, -⟩ : s.exitPoint z y = r ∧ s.exitPoint z y = r' ∧ rest = l ++ [q] := by
        simpa using hlist
      exact absurd htwice (List.rel_of_pairwise_cons hpairwise List.mem_cons_self)

omit [Field K] in
/-- The walk of a trigon that is glued to itself is one step long. -/
lemma follow_of_gluedToItself {x : TrigonRef × Fin 3} (hx : x ∈ s.entered z)
    (h : s.GluedToItself z x.1) : s.follow z x = some x := by
  obtain ⟨i, j, hcross, hlink⟩ := h
  have hi : (x.1, i) ∈ s.entered z := ⟨hx.1, hcross⟩
  have hj : (x.1, j) ∈ s.entered z := by
    refine ⟨hx.1, ?_⟩
    change s.crosses z x.1 j = true
    rw [hs.crosses_of_link hx.1 hlink]
    exact hcross
  have hback := (hs.link_some hx.1 hlink).2.1
  have hfollow : s.follow z x = s.link (s.flip z x) := rfl
  have hne : (x.1, i) ≠ (x.1, j) := by
    intro hsame
    have hrising := rising_link hs hz hi hlink
    rw [hsame] at hrising
    tauto
  rcases eq_or_eq_flip hz hx hi rfl with h1 | h1 <;> rcases eq_or_eq_flip hz hx hj rfl with h2 | h2
  · exact absurd (h1.trans h2.symm) hne
  · rw [hfollow, ← h2, hback, h1]
  · rw [hfollow, ← h1, hlink, h2]
  · exact absurd (h1.trans h2.symm) hne

omit [Field K] in
/-- The second walk after a turn at a second branch is one step long only at the boundary or in a
trigon that is glued to itself. -/
lemma second_walk_short {y w : TrigonRef × Fin 3} {k : ℕ} (hy : y ∈ s.entered z)
    (hexit : s.exitSide z y = y.2 + 1) (hback : Last s z y.1 (turned y) k w) :
    k = 0 ↔ s.follow z y = none ∨ s.follow z y = some y := by
  have hsame : s.follow z (turned y) = s.follow z y := by
    rw [follow, follow, exitSide_turned hy hexit, hexit]
    rfl
  constructor
  · rintro rfl
    obtain rfl := Option.some.inj hback.walk
    rcases hback.ends with hnone | ⟨j, hj⟩
    · exact .inl (hsame ▸ hnone)
    · right
      rw [hsame] at hj
      have hstep : iter (s.follow z) 1 y = some (y.1, j) := by rw [iter_one, hj]
      have hself := eq_of_iter hs hz hy hstep rfl
      rw [hj, hself]
  · intro hend
    have hatonce : Last s z y.1 (turned y) 0 (turned y) := by
      refine ⟨rfl, fun m hm hm' => by omega, ?_⟩
      rw [hsame]
      exact hend.imp_right fun h => ⟨y.2, h⟩
    exact (hback.unique hatonce).1

variable [IsStrictOrderedRing K]

/-- A trigon that is glued to itself has one crossed edge, whatever side of it is listed. -/
lemma wholeLine_of_follow_self {x : TrigonRef × Fin 3} (hx : x ∈ s.entered z)
    (hxp : x ∈ s.component z x.1) (h : s.follow z x = some x) :
    s.WholeLine z x.1 [s.exitPoint z x, s.exitPoint z x] := by
  have hfull : FullWalk s z x 0 x := ⟨rfl, fun m hm hm' => by omega, .inr h⟩
  have hwhole := hfull.wholeLine hs hz hx hx.1 hxp
  have hflip : s.exitPoint z x = s.sectOf z (s.flip z x) := rfl
  have hlist : (s.lineSides z 1 x).map (s.sectOf z) = [s.sectOf z x, s.exitPoint z x] := by
    cases hnext : s.follow z x <;> simp [lineSides, points, hnext, hflip]
  have hother : s.SameEdge (s.flip z x) x := .inr h
  rw [hlist] at hwhole
  refine ⟨?_, ?_, ?_, .inr ⟨[s.exitPoint z x], s.exitPoint z x, rfl, List.pairwise_singleton _ _,
    s.exitPoint z x, rfl, .inl rfl⟩⟩
  · intro q hq
    apply hwhole.onSides q
    simp only [List.mem_cons, List.not_mem_nil, or_false, or_self] at hq
    simp [hq]
  · intro a ha
    obtain ⟨b, hb, hab⟩ := hfull.component_subset hs hz hx hx.1 hxp ha
    obtain rfl : b = x := by
      obtain ⟨k, hk, hkb⟩ := mem_points.mp hb
      obtain rfl : k = 0 := by omega
      exact (Option.some.inj hkb).symm
    refine ⟨s.exitPoint z b, List.mem_cons_self, ?_⟩
    rcases hab with rfl | rfl
    · exact hother
    · exact .inl rfl
  · exact .cons_cons ⟨x, s.flip z x, hother, .inl rfl, rfl, (flip_ne hz hx).symm⟩ (.singleton _)

/-- A walk that is not turned round lists the whole loop. -/
lemma wholeLine_closed {x y : TrigonRef × Fin 3} {n : ℕ} (hx : x ∈ s.entered z)
    (hxp : x ∈ s.component z x.1) (h : Last s z x.1 x n y)
    (hreturn : s.nbtri y.1 (s.exitSide z y) = some x.1) :
    s.WholeLine z x.1 ((s.lineSides z (n + 1) x).map (s.sectOf z)) := by
  have hy := (hs.injective_follow z).mem_of_iter hx h.walk
  obtain ⟨j, hj, -⟩ := hs.link_of_nbtri hy.1 hreturn
  have hback : iter (s.follow z) (n + 1) x = some (x.1, j) := by
    rw [iter_succ, h.walk]
    exact hj
  have hsame := eq_of_iter hs hz hx hback rfl
  refine FullWalk.wholeLine hs hz hx ⟨h.walk, ?_, .inr ?_⟩ hx.1 hxp
  · intro m hm hmn hm'
    exact h.before m hm hmn x hm' rfl
  · rw [← hsame]
    exact hj

/-- A walk from the boundary lists the whole open line. -/
lemma wholeLine_open {x w : TrigonRef × Fin 3} {k : ℕ} (hp : s.Live p) (hx : x ∈ s.entered z)
    (hxp : x ∈ s.component z p) (h : Last s z x.1 x k w) (hboundary : s.link x = none) :
    s.WholeLine z p ((s.lineSides z (k + 1) x).map (s.sectOf z)) := by
  refine FullWalk.wholeLine hs hz hx ⟨h.walk, ?_, .inl ⟨hboundary, ?_⟩⟩ hp hxp
  · intro m hm hmn hm'
    exact h.before m hm hmn x hm' rfl
  · rcases h.ends with hnone | ⟨j, hj⟩
    · exact hnone
    · have hback : iter (s.follow z) (k + 1) x = some (x.1, j) := by
        rw [iter_succ, h.walk]
        exact hj
      have hw := (hs.injective_follow z).mem_of_iter hx h.walk
      have hlink := (hs.link_some hw.1 hj).2.1
      rw [eq_of_iter hs hz hx hback rfl, hboundary] at hlink
      cases hlink

/-- The list that is traced from a trigon: the whole line if the first walk ends by a first branch,
and otherwise a list that begins with its first point twice. -/
lemma extractFrom_cases (hp : s.Live p) {i : Fin 3} (hi : s.firstSide z p = some i)
    (hcross : s.crosses z p i = true) :
    ∃ c n y, (∃ fuel, extractFrom s z fuel p = .ok c) ∧ Last s z p (p, i) n y ∧ y ∈ s.entered z
      ∧ (s.exitSide z y = y.2 + 2 ∧ s.WholeLine z p c.list
        ∨ s.exitSide z y = y.2 + 1 ∧ ∃ rest,
          c.list = s.exitPoint z y :: s.exitPoint z y :: rest.map (s.exitPoint z)
          ∧ (∀ b ∈ rest, b ∈ s.entered z ∧ b ∈ s.component z p)
          ∧ (rest = [] ↔ s.follow z y = none ∨ s.follow z y = some y)) := by
  have hx : (p, i) ∈ s.entered z := ⟨hp, hcross⟩
  have hxp : (p, i) ∈ s.component z p := ⟨i, hcross, .refl _⟩
  have hat : (getFirst s z p).At (p, i) := ⟨rfl, hi⟩
  have hfirst : (getFirst s z p).list = [s.sectOf z (p, i)] := by
    simp [getFirst, insert, hi, sectOf]
  obtain ⟨n, y, hlast, hy⟩ := exists_last_first hs hx
  have hyp := component_iter hs hx hxp hlast.walk
  by_cases hturn : s.nbtri y.1 (s.exitSide z y) = none ∨ s.exitSide z y ≠ y.2 + 2
  · obtain ⟨k, w, hback⟩ := exists_last_turned hs hy hturn
    obtain ⟨c, hgo, hlist⟩ := go_turned hs hat (leaves_of_entered hx) rfl rfl hlast hy hturn hback
    refine ⟨c, n, y, ⟨_, hgo⟩, hlast, hy, ?_⟩
    rcases exitSide_eq_or (s := s) (z := z) y with hexit | ⟨hexit, -⟩
    · -- the second walk begins at the boundary side
      left
      have hflip : turned y = s.flip z y := by rw [turned, Net.flip, hexit]
      have hboundary : s.link (s.flip z y) = none := by
        have hnone := hturn.resolve_right fun h => h hexit
        cases hlink : s.link (s.flip z y) with
        | none => rfl
        | some b =>
          rw [Net.flip] at hlink
          rw [(link_eq_some.mp (show _ = some (b.1, b.2) from hlink)).1] at hnone
          cases hnone
      have hwhole := wholeLine_open hs hz hp (flip_entered hy) (component_flip hy hyp)
        (hflip ▸ hback) hboundary
      rw [map_lineSides] at hwhole
      rw [hlist, hflip]
      exact ⟨hexit, hwhole⟩
    · right
      have hagain : s.exitPoint z (turned y) = s.exitPoint z y := by
        rw [exitPoint, exitSide_turned hy hexit, exitPoint, hexit]
        rfl
      have hsame : s.follow z (turned y) = s.follow z y := by
        rw [follow, follow, exitSide_turned hy hexit, hexit]
        rfl
      have hshort := second_walk_short hs hz hy hexit hback
      refine ⟨hexit, ((s.follow z y).map (points (s.follow z) k)).getD [], ?_, ?_, ?_⟩
      · rw [hlist, points, List.map_cons, hagain, hsame]
      · intro b hb
        cases hnext : s.follow z y with
        | none => simp [hnext] at hb
        | some v =>
          simp only [hnext, Option.map_some, Option.getD_some] at hb
          have hv : v ∈ s.entered z := (hs.injective_follow z).closed y hy v hnext
          have hvp : v ∈ s.component z p :=
            by
            have hstep : iter (s.follow z) 1 y = some v := by rw [iter_one, hnext]
            exact component_iter hs hy hyp hstep
          obtain ⟨m, -, hm⟩ := mem_points.mp hb
          exact ⟨entered_of_mem_points hs hv hb, component_iter hs hv hvp hm⟩
      · rw [← hshort]
        cases hnext : s.follow z y with
        | none =>
          rw [hnext] at hshort
          simp [hshort.mpr (.inl rfl)]
        | some v => cases k <;> simp [points]
  · push Not at hturn
    have hreturn := (hlast.nbtri hs hy.1).resolve_left hturn.1
    obtain ⟨c, hgo, hlist⟩ := go_closed hs hat (leaves_of_entered hx) rfl hlast hreturn hturn.2
    have hwhole := wholeLine_closed hs hz hx hxp hlast hreturn
    rw [map_lineSides] at hwhole
    rw [hfirst] at hlist
    refine ⟨c, n, y, ⟨_, hgo⟩, hlast, hy, .inl ⟨hturn.2, ?_⟩⟩
    rw [hlist]
    exact hwhole

/-- The whole line is traced exactly where the first walk ends by a first branch, or the start
trigon is glued to itself. -/
theorem extractFrom_wholeLine_iff (hp : s.Live p) (hcross : ∃ i, s.crosses z p i = true) :
    ∃ c, (∃ fuel, extractFrom s z fuel p = .ok c)
      ∧ (∀ fuel c', extractFrom s z fuel p = .ok c' → c' = c)
      ∧ (s.WholeLine z p c.list ↔ s.EndsInFirstBranch z p ∨ s.GluedToItself z p) := by
  obtain ⟨i, hi, hcross⟩ := exists_firstSide hcross
  have hx : (p, i) ∈ s.entered z := ⟨hp, hcross⟩
  have hxp : (p, i) ∈ s.component z p := ⟨i, hcross, .refl _⟩
  obtain ⟨c, n, y, ⟨fuel, hgo⟩, hlast, hy, hcases⟩ := extractFrom_cases hs hz hp hi hcross
  have hyp := component_iter hs hx hxp hlast.walk
  have hbranch := endsInFirstBranch_iff hz hs hi hx hlast
  refine ⟨c, ⟨fuel, hgo⟩, fun fuel c' h => go_unique h hgo, ?_⟩
  rcases hcases with ⟨hexit, hwhole⟩ | ⟨hexit, rest, hlist, -, hshort⟩
  · exact ⟨fun _ => .inl (hbranch.mpr hexit), fun _ => hwhole⟩
  · have hnot : ¬ s.EndsInFirstBranch z p := by
      rw [hbranch, hexit, ← side_one_one]
      exact side_ne_one _
    rw [hlist]
    constructor
    · intro hwhole
      have hself := link_of_wholeLine hz hy hyp hwhole
      right
      have hsame : y.1 = p := by
        rcases hlast.ends with hnone | ⟨j, hj⟩
        · rw [hself] at hnone
          cases hnone
        · rw [hself, Option.some.injEq] at hj
          rw [hj]
      exact ⟨s.exitSide z y, y.2, hsame ▸ crosses_exitSide hy.2, hsame ▸ hself⟩
    · intro h
      have hself := follow_of_gluedToItself hs hz hx (h.resolve_left hnot)
      have hatonce : Last s z p (p, i) 0 (p, i) :=
        ⟨rfl, fun m hm hm' => by omega, .inr ⟨i, hself⟩⟩
      obtain ⟨rfl, rfl⟩ := hlast.unique hatonce
      rw [hshort.mpr (.inr hself)]
      exact wholeLine_of_follow_self hs hz hx hxp hself

end Lists

/-- One trigon with its second vertex below the level. -/
def loneTrigon : Net ℚ :=
  { Net.create ⟨0, 0, 4, 4, 4, 1, 1⟩ with
    vex := fun _ => ![⟨0, 0, ⟨0, 0, 1⟩⟩, ⟨1, 1, ⟨4, 0, -1⟩⟩, ⟨2, 2, ⟨0, 4, 1⟩⟩]
    trigonCount := 1
    cells := fun _ _ => [0]
    trigonIndex := [0]
    np := ⟨3, 1⟩ }

lemma loneTrigon_adjacencyInvariant : loneTrigon.AdjacencyInvariant := by
  refine ⟨fun t ht i u hu => ?_, rfl⟩
  cases hu

lemma loneTrigon_avoidsVertices : loneTrigon.AvoidsVertices 0 := by
  intro t _ i
  have hheights : ∀ i, (loneTrigon.vex 0 i).coord.z ≠ 0 := by decide +kernel
  exact hheights i

/-- The line is entered by side 2 and left by side 0, a second branch: side 0 is listed twice and
side 2 is missing. -/
theorem second_branch_is_not_whole :
    loneTrigon.AdjacencyInvariant ∧ loneTrigon.AvoidsVertices 0 ∧ loneTrigon.Live 0
      ∧ loneTrigon.crosses 0 0 2 = true
      ∧ ∃ result c, extractSegment loneTrigon 0 2 = .ok result ∧ result.2 = some c
        ∧ ¬ loneTrigon.WholeLine 0 0 c.list := by
  have hcross : loneTrigon.crosses 0 0 2 = true := by decide +kernel
  have hlive : loneTrigon.Live 0 := List.mem_singleton_self 0
  have hrun : passes (extractSegment loneTrigon 0 2) (fun r => r.2.map Contour.list
      = some [loneTrigon.exitPoint 0 (0, 2), loneTrigon.exitPoint 0 (0, 2)]) = true := by
    decide +kernel
  refine ⟨loneTrigon_adjacencyInvariant, loneTrigon_avoidsVertices, hlive, hcross, ?_⟩
  obtain ⟨result, hresult, hlist⟩ := exists_of_passes hrun
  rw [decide_eq_true_eq, Option.map_eq_some_iff] at hlist
  obtain ⟨c, hc, hlist⟩ := hlist
  refine ⟨result, c, hresult, hc, fun hwhole => ?_⟩
  rw [hlist] at hwhole
  have hin : (0, 2) ∈ loneTrigon.entered 0 := ⟨hlive, hcross⟩
  have hself := link_of_wholeLine loneTrigon_avoidsVertices hin ⟨2, hcross, .refl _⟩ hwhole
  cases hself

/-- The same trigon at a level that its first side found and the one before it cross. -/
theorem extractFrom_wholeLine_iff_lone :
    ∃ c, (∃ fuel, extractFrom loneTrigon 0 fuel 0 = .ok c)
      ∧ (∀ fuel c', extractFrom loneTrigon 0 fuel 0 = .ok c' → c' = c)
      ∧ (loneTrigon.WholeLine 0 0 c.list
        ↔ loneTrigon.EndsInFirstBranch 0 0 ∨ loneTrigon.GluedToItself 0 0) :=
  extractFrom_wholeLine_iff loneTrigon_adjacencyInvariant loneTrigon_avoidsVertices
    (List.mem_singleton_self 0) ⟨2, by decide +kernel⟩

end Contour

end MTalk.Triangle
