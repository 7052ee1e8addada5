import MTalk.Triangle.ContourWalks

/-!
# A contour is traced in finitely many steps

`ExtractSegment` makes one or two walks. The first goes from the side that `GetFirst` found. Where
it turns round, the second enters the same trigon by the side opposite to the turn. If that side is
the boundary, no walk leads there, so that the second walk ends at the boundary too; if it is not
crossed, the second walk leaves by the side that the first was leaving by, and comes back to the
trigon from there if it does not end.
-/

namespace MTalk.Triangle

open PartialWalks

namespace Net

variable {K : Type} [Field K] [LinearOrder K] {s : Net K} {z : K}

omit [Field K] in
/-- A level between the heights of two vertices crosses a side. -/
lemma exists_crosses {t : TrigonRef} (hlow : minz (s.vex t) ≤ z) (hhigh : z ≤ maxz (s.vex t)) :
    ∃ i, s.crosses z t i = true := by
  obtain ⟨i, hi⟩ := smallest_mem fun i => (s.vex t i).coord.z
  obtain ⟨j, hj⟩ := largest_mem fun i => (s.vex t i).coord.z
  have hiz : (s.vex t i).coord.z ≤ z := hi ▸ hlow
  have hzj : z ≤ (s.vex t j).coord.z := hj ▸ hhigh
  have hside : ∀ k, s.crosses z t k = true ↔
      ((s.vex t (k + 1)).coord.z ≤ z ∨ (s.vex t (k + 2)).coord.z ≤ z)
        ∧ (z ≤ (s.vex t (k + 1)).coord.z ∨ z ≤ (s.vex t (k + 2)).coord.z) := by
    intro k
    rw [crosses, isCross_iff, min_le_iff, le_max_iff]
  rcases side_cases i j with rfl | rfl | rfl
  · refine ⟨j + 2, (hside _).mpr ?_⟩
    rw [side_two_one]
    exact ⟨.inl hiz, .inl hzj⟩
  · refine ⟨i + 2, (hside _).mpr ?_⟩
    rw [side_two_one, side_two_two]
    exact ⟨.inl hiz, .inr hzj⟩
  · refine ⟨i + 1, (hside _).mpr ?_⟩
    rw [side_one_one, side_one_two]
    exact ⟨.inr hiz, .inl hzj⟩

omit [Field K] in
lemma exists_firstSide {t : TrigonRef} (h : ∃ i, s.crosses z t i = true) :
    ∃ i, s.firstSide z t = some i ∧ s.crosses z t i = true := by
  obtain ⟨i, hi⟩ := h
  have hfound : (s.firstSide z t).isSome := by
    rw [firstSide, List.find?_isSome]
    refine ⟨i, ?_, hi⟩
    fin_cases i <;> decide
  obtain ⟨j, hj⟩ := Option.isSome_iff_exists.mp hfound
  exact ⟨j, hj, by simpa using List.find?_some hj⟩

/-- The state in which the walk goes on after it has turned round. -/
def turned (y : TrigonRef × Fin 3) : TrigonRef × Fin 3 := (y.1, y.2 + 2)

omit [Field K] in
lemma exitSide_eq_or (y : TrigonRef × Fin 3) :
    s.exitSide z y = y.2 + 2 ∨ s.exitSide z y = y.2 + 1 ∧ s.crosses z y.1 (y.2 + 2) ≠ true := by
  unfold exitSide
  split_ifs with h
  · exact .inl rfl
  · exact .inr ⟨rfl, h⟩

omit [Field K] in
/-- After a turn at a second branch the walk leaves by the same side again. -/
lemma exitSide_turned {y : TrigonRef × Fin 3} (hy : y ∈ s.entered z)
    (hexit : s.exitSide z y = y.2 + 1) : s.exitSide z (turned y) = y.2 + 1 := by
  have hcross := crosses_exitSide hy.2
  rw [hexit] at hcross
  rw [exitSide, turned, side_two_two, if_pos hcross]

omit [Field K] in
lemma leaves_turned {y : TrigonRef × Fin 3} (hy : y ∈ s.entered z) : turned y ∈ s.leaves z := by
  refine ⟨hy.1, ?_⟩
  have hcross := crosses_exitSide hy.2
  rcases exitSide_eq_or (s := s) (z := z) y with hexit | ⟨hexit, -⟩
  · rw [hexit] at hcross
    exact crosses_exitSide (x := turned y) hcross
  · rw [hexit] at hcross
    rw [exitSide_turned hy hexit]
    exact hcross

end Net

namespace Contour

open Net

variable {K : Type} [Field K] [LinearOrder K] {s : Net K} {z : K}

omit [Field K] in
/-- The walk from a crossed side comes back to its trigon or ends. -/
lemma exists_last_first (hs : s.AdjacencyInvariant) {x : TrigonRef × Fin 3}
    (hx : x ∈ s.entered z) : ∃ n y, Last s z x.1 x n y ∧ y ∈ s.entered z := by
  have hinj := hs.injective_follow z
  obtain ⟨n, hpos, hend⟩ := hinj.exists_end_or_return (s.finite_entered z) hx
  obtain ⟨m, y, hy⟩ := exists_last (t := x.1) ⟨n, hpos, hend.imp_right fun h => ⟨x.2, h⟩⟩
  exact ⟨m, y, hy, hinj.mem_of_iter hx hy.walk⟩

omit [Field K] in
/-- The walk from a side at the boundary ends there, or in its own trigon. -/
lemma exists_last_boundary (hs : s.AdjacencyInvariant) {x : TrigonRef × Fin 3}
    (hx : x ∈ s.entered z) (hboundary : s.nbtri x.1 x.2 = none) :
    ∃ n y, Last s z x.1 x n y := by
  have hfirst : ∀ y ∈ s.entered z, s.follow z y ≠ some x := by
    intro y hy hyx
    have hback := (link_eq_some.mp (hs.link_some hy.1 hyx).2.1).1
    rw [hboundary] at hback
    cases hback
  obtain ⟨n, hn⟩ := (hs.injective_follow z).exists_end (s.finite_entered z) hx hfirst
  cases n with
  | zero => cases hn
  | succ n => exact exists_last ⟨n + 1, by omega, .inl hn⟩

omit [Field K] in
/-- A walk that leaves by the side of a state comes back to the trigon of that state or ends. -/
lemma exists_last_again (hs : s.AdjacencyInvariant) {x y : TrigonRef × Fin 3}
    (hx : x ∈ s.entered z) (hsame : s.follow z y = s.follow z x) : ∃ n w, Last s z x.1 y n w := by
  cases hu : s.follow z x with
  | none =>
    refine ⟨0, y, rfl, fun m hm hm' => by omega, .inl (by rw [hsame, hu])⟩
  | some u =>
    have hinj := hs.injective_follow z
    have hentered := hinj.closed x hx u hu
    obtain ⟨n, hpos, hend⟩ := hinj.exists_end_or_return (s.finite_entered z) hentered
    rw [hu] at hsame
    apply exists_last
    rcases hend with hnone | hreturn
    · exact ⟨n + 1, by omega, .inl (by rw [iter_succ_of_next hsame]; exact hnone)⟩
    · obtain ⟨n, rfl⟩ : ∃ m, n = m + 1 := ⟨n - 1, by omega⟩
      rw [iter_succ] at hreturn
      obtain ⟨w, hw, hwu⟩ := Option.bind_eq_some_iff.mp hreturn
      -- the state before the return is the only one that is followed so
      obtain rfl := hinj.injective w (hinj.mem_of_iter hentered hw) x hx u hwu hu
      exact ⟨n + 1, by omega, .inr ⟨w.2, by rw [iter_succ_of_next hsame]; exact hw⟩⟩

omit [Field K] in
lemma exists_last_turned (hs : s.AdjacencyInvariant) {y : TrigonRef × Fin 3}
    (hy : y ∈ s.entered z)
    (hturn : s.nbtri y.1 (s.exitSide z y) = none ∨ s.exitSide z y ≠ y.2 + 2) :
    ∃ n w, Last s z y.1 (turned y) n w := by
  rcases exitSide_eq_or (s := s) (z := z) y with hexit | ⟨hexit, -⟩
  · have hboundary := hturn.resolve_right fun h => h hexit
    have hcross := crosses_exitSide hy.2
    rw [hexit] at hcross hboundary
    exact exists_last_boundary (x := turned y) hs ⟨hy.1, hcross⟩ hboundary
  · apply exists_last_again hs hy
    rw [follow, follow, exitSide_turned hy hexit, hexit]
    rfl

/-- A walk that closes at its start trigon without a turn. -/
lemma go_closed (hs : s.AdjacencyInvariant) {c : Contour K} {x y : TrigonRef × Fin 3} {n : ℕ}
    (hc : c.At x) (hx : x ∈ s.leaves z) (hstart : c.startTrigon = some x.1)
    (h : Last s z x.1 x n y) (hreturn : s.nbtri y.1 (s.exitSide z y) = some x.1)
    (hexit : s.exitSide z y = y.2 + 2) :
    ∃ c', c.go s z (n + 1) = .ok c'
      ∧ c'.list = c.list ++ (points (s.follow z) (n + 1) x).map (s.exitPoint z) := by
  obtain ⟨c', hgo, hat, hstart', -, hlist⟩ := go_walk hs hc hx h.walk (h.ne_start hstart)
  have hlast := go_last hat (hs.leaves_of_iter hx h.walk)
    (.inr ⟨by rw [hstart', hstart, hreturn], by simp [hreturn], .inr hexit⟩) 0
  refine ⟨_, (hgo 1).trans hlast, ?_⟩
  change c'.list ++ [s.exitPoint z y] = _
  rw [hlist, List.append_assoc, points_succ h.walk, List.map_append]
  rfl

/-- A walk that turns round: the list is that of the second walk. -/
lemma go_turned (hs : s.AdjacencyInvariant) {c : Contour K} {x y w : TrigonRef × Fin 3}
    {n k : ℕ} (hc : c.At x) (hx : x ∈ s.leaves z) (hstart : c.startTrigon = some x.1)
    (hforward : c.reverse = false) (h : Last s z x.1 x n y) (hy : y ∈ s.entered z)
    (hturn : s.nbtri y.1 (s.exitSide z y) = none ∨ s.exitSide z y ≠ y.2 + 2)
    (hback : Last s z y.1 (turned y) k w) :
    ∃ c', c.go s z (n + (k + 1 + 1)) = .ok c'
      ∧ c'.list = s.exitPoint z y :: (points (s.follow z) (k + 1) (turned y)).map (s.exitPoint z) := by
  obtain ⟨c', hgo, hat, hstart', hforward', -⟩ := go_walk hs hc hx h.walk (h.ne_start hstart)
  have hnext : s.nbtri y.1 (s.exitSide z y) = none
      ∨ s.exitSide z y ≠ y.2 + 2 ∧ s.nbtri y.1 (s.exitSide z y) = c'.startTrigon := by
    rw [hstart', hstart]
    rcases h.nbtri hs hy.1 with hnone | hsome
    · exact .inl hnone
    · exact .inr ⟨hturn.resolve_left (by simp [hsome]), hsome⟩
  have hsteps := go_turn hat (leaves_of_entered hy) (hforward'.trans hforward) hnext (k + 1)
  have hat' : ((stepped s z c' y).turn y.1 (y.2 + 2)).At (turned y) := ⟨rfl, rfl⟩
  obtain ⟨c'', hgo', hlist⟩ := go_reverse hs hat' (leaves_turned hy) rfl rfl hback 0
  rw [Nat.zero_add] at hgo'
  refine ⟨c'', ?_, hlist⟩
  rw [hgo, hsteps, hgo']

/-- The walk from a start trigon returns. -/
theorem extractFrom_returns (hs : s.AdjacencyInvariant) {p : TrigonRef} (hp : s.Live p)
    (hcross : ∃ i, s.crosses z p i = true) : ∃ fuel c, extractFrom s z fuel p = .ok c := by
  obtain ⟨i, hi, hcross⟩ := exists_firstSide hcross
  have hx : (p, i) ∈ s.entered z := ⟨hp, hcross⟩
  have hat : (getFirst s z p).At (p, i) := ⟨rfl, hi⟩
  obtain ⟨n, y, hlast, hy⟩ := exists_last_first hs hx
  by_cases hturn : s.nbtri y.1 (s.exitSide z y) = none ∨ s.exitSide z y ≠ y.2 + 2
  · obtain ⟨k, w, hback⟩ := exists_last_turned hs hy hturn
    obtain ⟨c, hgo, -⟩ := go_turned hs hat (leaves_of_entered hx) rfl rfl hlast hy hturn hback
    exact ⟨_, c, hgo⟩
  · push Not at hturn
    have hreturn := (hlast.nbtri hs hy.1).resolve_left hturn.1
    obtain ⟨c, hgo, -⟩ := go_closed hs hat (leaves_of_entered hx) rfl hlast hreturn hturn.2
    exact ⟨_, c, hgo⟩

/-- `ExtractSegment` returns at every level, whatever trigons are marked. -/
theorem extractSegment_returns (hs : s.AdjacencyInvariant)
    (hcells : ∀ r c, ∀ t ∈ s.cells r c, s.Live t) (z : K) :
    ∃ fuel result, extractSegment s z fuel = .ok result := by
  cases hp : s.getCrossTrigon z with
  | none => exact ⟨0, (s, none), by simp [extractSegment, hp]⟩
  | some p =>
    have hmeets := List.find?_some hp
    simp only [decide_eq_true_eq] at hmeets
    have hmem := List.mem_of_find?_eq_some hp
    simp only [List.mem_flatMap] at hmem
    obtain ⟨r, -, q, -, hfiled⟩ := hmem
    obtain ⟨fuel, c, hgo⟩ := extractFrom_returns hs (hcells r q p hfiled)
      (exists_crosses hmeets.1 hmeets.2.1)
    refine ⟨fuel, ({ s with visited := Function.update s.visited p true }, some c), ?_⟩
    simp [extractSegment, hp, hgo, bind, Except.bind]

/-- Two trigons of one height with a common side. -/
def plateau : Net ℚ :=
  { Net.create ⟨0, 0, 4, 4, 4, 1, 1⟩ with
    vex := fun t i =>
      if i = 2 then ⟨t + 2, t + 2, ⟨4 * (t : ℚ), 4 - 4 * (t : ℚ), 0⟩⟩
      else if (t = 0 ↔ i = 0) then ⟨0, 0, ⟨0, 0, 0⟩⟩
      else ⟨1, 1, ⟨4, 4, 0⟩⟩
    nbtri := fun t i => if i = 2 then some (1 - t) else none
    nbvex := fun _ i => if i = 2 then some 2 else none
    trigonCount := 2
    cells := fun _ _ => [0, 1]
    trigonIndex := [0, 1]
    np := ⟨4, 2⟩ }

lemma plateau_adjacencyInvariant : plateau.AdjacencyInvariant := by
  have hsides : ∀ t ∈ [0, 1], ∀ i : Fin 3, ∀ u ∈ plateau.nbtri t i, u ∈ [0, 1] ∧
      ∃ j, plateau.nbvex t i = some j ∧ plateau.nbtri u j = some t ∧ plateau.nbvex u j = some i ∧
        plateau.vex u (j + 1) = plateau.vex t (i + 2) ∧
        plateau.vex u (j + 2) = plateau.vex t (i + 1) := by
    decide +kernel
  exact ⟨fun t ht i u hu => hsides t ht i u hu, rfl⟩

/-- The contour of a plateau at its own height. -/
theorem extractSegment_returns_plateau :
    ∃ fuel result, extractSegment plateau 0 fuel = .ok result :=
  extractSegment_returns plateau_adjacencyInvariant (fun _ _ _ ht => ht) 0

end Contour

end MTalk.Triangle
