import MTalk.Triangle.Wiring

/-!
# The adjacency invariant

`Adjacent` is the invariant of the neighbour fields: the gluing is mutual on the live trigons
and `np.not` counts them. `InsertMid` keeps it for any vertex and any live trigon. `ChangeEdge`
keeps it for an edge whose two trigons share no second side.
-/

namespace MTalk.Triangle

open SideGluing

namespace Net

variable {K : Type}

/-- The adjacency invariant of a net. -/
structure Adjacent (s : Net K) : Prop extends Wired s where
  symmetric : Symmetric s.link s.Live
  nodup : s.trigonIndex.Nodup
  old : ∀ t, s.Live t → t < s.trigonCount
  count : s.np.not = s.trigonIndex.length

/-- The two trigons at the side `vid` of `p1` have no other side in common. -/
def SharesOneSide (s : Net K) (p1 : TrigonRef) (vid : Fin 3) : Prop :=
  ∀ k, s.nbtri p1 vid ≠ none → s.nbtri p1 k = s.nbtri p1 vid → k = vid

instance (s : Net K) (p1 : TrigonRef) (vid : Fin 3) : Decidable (s.SharesOneSide p1 vid) :=
  inferInstanceAs (Decidable (∀ _, _))

lemma SharesOneSide.eq_of_link {s : Net K} {p1 u : TrigonRef} {vid j k l : Fin 3}
    (h : s.SharesOneSide p1 vid) (hj : s.link (p1, vid) = some (u, j))
    (hl : s.link (p1, k) = some (u, l)) : k = vid := by
  have h1 := (link_eq_some.mp hj).1
  have h2 := (link_eq_some.mp hl).1
  exact h k (by simp [h1]) (h2.trans h1.symm)

section Fresh

variable (s : Net K)

lemma mids_inj {i j : Fin 3} (h : s.mids i = s.mids j) : i = j :=
  Fin.ext (Nat.add_left_cancel h)

lemma mids_lt (i : Fin 3) : s.mids i < s.trigonCount + 3 := Nat.add_lt_add_left i.isLt _

lemma ne_mids {u : TrigonRef} (hu : u < s.trigonCount) (i : Fin 3) : u ≠ s.mids i :=
  (hu.trans_le (Nat.le_add_right _ _)).ne

variable [Zero K]

lemma newMids_count (v : Vertex K) (t : TrigonRef) :
    (s.newMids v t).trigonCount = s.trigonCount + 3 := rfl

/-- The new trigons of `InsertMid` leave all other objects alone. -/
lemma newMids_old (v : Vertex K) (t : TrigonRef) {u : TrigonRef} (hu : ∀ i, u ≠ s.mids i) :
    (s.newMids v t).vex u = s.vex u ∧ (s.newMids v t).nbtri u = s.nbtri u ∧
      (s.newMids v t).nbvex u = s.nbvex u ∧ (s.newMids v t).etc u = s.etc u := by
  have h0 : u ≠ s.trigonCount := hu 0
  have h1 : u ≠ s.trigonCount + 1 := hu 1
  have h2 : u ≠ s.trigonCount + 1 + 1 := hu 2
  simp [newMids, newMid, newTrigon, h0, h1, h2]

lemma newMids_new (v : Vertex K) (t : TrigonRef) (i : Fin 3) :
    ((s.newMids v t).vex (s.mids i) = fun j => if i ≠ j then s.vex t j else v) ∧
      ((s.newMids v t).nbtri (s.mids i) =
        fun j => if i ≠ j then some (s.mids j) else s.nbtri t j) ∧
      ((s.newMids v t).nbvex (s.mids i) = fun j => if i ≠ j then some i else s.nbvex t i) ∧
      (s.newMids v t).etc (s.mids i) = fun _ => none := by
  have h2 : s.trigonCount ≠ s.trigonCount + 1 + 1 := (Nat.lt_add_right 1 (Nat.lt_succ_self _)).ne
  fin_cases i <;> simp [newMids, newMid, newTrigon, mids, h2]

lemma newPair_count (p1 : TrigonRef) (vid : Fin 3) (p2 : TrigonRef) (vid1 : Fin 3) :
    (s.newPair p1 vid p2 vid1).trigonCount = s.trigonCount + 2 := rfl

/-- The new trigons of `ChangeEdge` leave all other objects alone. -/
lemma newPair_old (p1 : TrigonRef) (vid : Fin 3) (p2 : TrigonRef) (vid1 : Fin 3) {u : TrigonRef}
    (h0 : u ≠ s.trigonCount) (h1 : u ≠ s.trigonCount + 1) :
    (s.newPair p1 vid p2 vid1).vex u = s.vex u ∧ (s.newPair p1 vid p2 vid1).nbtri u = s.nbtri u ∧
      (s.newPair p1 vid p2 vid1).nbvex u = s.nbvex u ∧
      (s.newPair p1 vid p2 vid1).etc u = s.etc u := by
  simp [newPair, newTrigon, h0, h1]

lemma newPair_first (p1 : TrigonRef) (vid : Fin 3) (p2 : TrigonRef) (vid1 : Fin 3) :
    (s.newPair p1 vid p2 vid1).vex s.trigonCount =
        ![s.vex p1 vid, s.vex p1 (vid + 1), s.vex p2 vid1] ∧
      (s.newPair p1 vid p2 vid1).nbtri s.trigonCount =
        ![s.nbtri p2 (vid1 + 1), some (s.trigonCount + 1), s.nbtri p1 (vid + 2)] ∧
      (s.newPair p1 vid p2 vid1).nbvex s.trigonCount =
        ![s.nbvex p2 (vid1 + 1), some 1, s.nbvex p1 (vid + 2)] ∧
      (s.newPair p1 vid p2 vid1).etc s.trigonCount = fun _ => none := by
  simp [newPair, newTrigon]

lemma newPair_second (p1 : TrigonRef) (vid : Fin 3) (p2 : TrigonRef) (vid1 : Fin 3) :
    (s.newPair p1 vid p2 vid1).vex (s.trigonCount + 1) =
        ![s.vex p2 vid1, s.vex p2 (vid1 + 1), s.vex p1 vid] ∧
      (s.newPair p1 vid p2 vid1).nbtri (s.trigonCount + 1) =
        ![s.nbtri p1 (vid + 1), some s.trigonCount, s.nbtri p2 (vid1 + 2)] ∧
      (s.newPair p1 vid p2 vid1).nbvex (s.trigonCount + 1) =
        ![s.nbvex p1 (vid + 1), some 1, s.nbvex p2 (vid1 + 2)] ∧
      (s.newPair p1 vid p2 vid1).etc (s.trigonCount + 1) = fun _ => none := by
  simp [newPair, newTrigon]

end Fresh

section Links

variable [Zero K] {s : Net K}

/-- The links of the three new trigons: to each other, and where the old trigon pointed. -/
lemma newMids_link (v : Vertex K) (t : TrigonRef) (i j : Fin 3) :
    (s.newMids v t).link (s.mids i, j) =
      if i ≠ j then some (s.mids j, i) else s.link (t, i) := by
  obtain ⟨-, hn, hv, -⟩ := s.newMids_new v t i
  by_cases hij : i = j
  · subst hij
    simp [link, hn, hv]
  · simp [link, hn, hv, hij]

lemma newMids_link_old (v : Vertex K) (t : TrigonRef) {a : TrigonRef × Fin 3}
    (ha : ∀ i, a.1 ≠ s.mids i) : (s.newMids v t).link a = s.link a := by
  obtain ⟨-, hn, hv, -⟩ := s.newMids_old v t ha
  exact link_congr (congrFun hn a.2) (congrFun hv a.2)

/-- The three new trigons fit together and against the neighbours of the old one. -/
lemma newMids_wired (h : s.Wired) (v : Vertex K) (t : TrigonRef) : (s.newMids v t).Wired := by
  refine ⟨fun u j hne => ?_, fun u j w k hl => ?_, fun u j w k hl => ?_⟩
  · by_cases hu : ∃ i, u = s.mids i
    · obtain ⟨i, rfl⟩ := hu
      obtain ⟨-, hn, hv, -⟩ := s.newMids_new v t i
      rw [hn] at hne
      rw [hv]
      by_cases hij : i = j
      · subst hij
        simpa using h.paired t i (by simpa using hne)
      · simp [hij]
    · push Not at hu
      obtain ⟨-, hn, hv, -⟩ := s.newMids_old v t hu
      rw [hv]
      exact h.paired u j (hn ▸ hne)
  · rw [newMids_count]
    by_cases hu : ∃ i, u = s.mids i
    · obtain ⟨i, rfl⟩ := hu
      rw [newMids_link] at hl
      split_ifs at hl with hij
      · obtain ⟨rfl, rfl⟩ := Prod.mk.inj (Option.some.inj hl)
        exact ⟨s.mids_lt i, s.mids_lt j, fun he => hij (s.mids_inj he).symm⟩
      · obtain ⟨-, hw, -⟩ := h.known t i w k hl
        exact ⟨s.mids_lt i, Nat.lt_add_right 3 hw, s.ne_mids hw i⟩
    · push Not at hu
      rw [newMids_link_old v t hu] at hl
      obtain ⟨hu', hw, hne⟩ := h.known u j w k hl
      exact ⟨Nat.lt_add_right 3 hu', Nat.lt_add_right 3 hw, hne⟩
  · by_cases hu : ∃ i, u = s.mids i
    · obtain ⟨i, rfl⟩ := hu
      rw [(s.newMids_new v t i).1]
      rw [newMids_link] at hl
      split_ifs at hl with hij
      · obtain ⟨rfl, rfl⟩ := Prod.mk.inj (Option.some.inj hl)
        rw [(s.newMids_new v t j).1]
        revert hij
        fin_cases i <;> fin_cases j <;> simp
      · rw [not_not] at hij
        subst hij
        obtain ⟨he1, he2⟩ := h.ends t i w k hl
        rw [(s.newMids_old v t (s.ne_mids (h.known t i w k hl).2.1)).1, he1, he2]
        exact ⟨(if_pos (side_ne_two i)).symm, (if_pos (side_ne_one i)).symm⟩
    · push Not at hu
      rw [newMids_link_old v t hu] at hl
      have hw := (h.known u j w k hl).2.1
      rw [(s.newMids_old v t hu).1, (s.newMids_old v t (s.ne_mids hw)).1]
      exact h.ends u j w k hl

/-- The links of the first new trigon of `ChangeEdge`. -/
lemma newPair_link_first (p1 : TrigonRef) (vid : Fin 3) (p2 : TrigonRef) (vid1 j : Fin 3) :
    (s.newPair p1 vid p2 vid1).link (s.trigonCount, j) =
      ![s.link (p2, vid1 + 1), some (s.trigonCount + 1, 1), s.link (p1, vid + 2)] j := by
  obtain ⟨-, hn, hv, -⟩ := s.newPair_first p1 vid p2 vid1
  fin_cases j <;> simp [link, hn, hv]

/-- The links of the second new trigon of `ChangeEdge`. -/
lemma newPair_link_second (p1 : TrigonRef) (vid : Fin 3) (p2 : TrigonRef) (vid1 j : Fin 3) :
    (s.newPair p1 vid p2 vid1).link (s.trigonCount + 1, j) =
      ![s.link (p1, vid + 1), some (s.trigonCount, 1), s.link (p2, vid1 + 2)] j := by
  obtain ⟨-, hn, hv, -⟩ := s.newPair_second p1 vid p2 vid1
  fin_cases j <;> simp [link, hn, hv]

lemma newPair_link_old (p1 : TrigonRef) (vid : Fin 3) (p2 : TrigonRef) (vid1 : Fin 3)
    {a : TrigonRef × Fin 3} (h0 : a.1 ≠ s.trigonCount) (h1 : a.1 ≠ s.trigonCount + 1) :
    (s.newPair p1 vid p2 vid1).link a = s.link a := by
  obtain ⟨-, hn, hv, -⟩ := s.newPair_old p1 vid p2 vid1 h0 h1
  exact link_congr (congrFun hn a.2) (congrFun hv a.2)

/-- The two new trigons fit together and against the neighbours of the two old ones. -/
lemma newPair_wired (h : s.Wired) {p1 p2 : TrigonRef} {vid vid1 : Fin 3}
    (hp : s.link (p1, vid) = some (p2, vid1)) : (s.newPair p1 vid p2 vid1).Wired := by
  obtain ⟨hv1, hn1, hw1, -⟩ := s.newPair_first p1 vid p2 vid1
  obtain ⟨hv2, hn2, hw2, -⟩ := s.newPair_second p1 vid p2 vid1
  obtain ⟨hend1, hend2⟩ := h.ends p1 vid p2 vid1 hp
  have hold : ∀ {u}, u < s.trigonCount →
      (s.newPair p1 vid p2 vid1).vex u = s.vex u := fun hu =>
    (s.newPair_old p1 vid p2 vid1 hu.ne (hu.trans (Nat.lt_succ_self _)).ne).1
  refine ⟨fun u j hne => ?_, fun u j w k hl => ?_, fun u j w k hl => ?_⟩
  · by_cases h0 : u = s.trigonCount
    · subst h0
      rw [hn1] at hne
      rw [hw1]
      fin_cases j
      · exact h.paired p2 (vid1 + 1) hne
      · simp
      · exact h.paired p1 (vid + 2) hne
    · by_cases h1 : u = s.trigonCount + 1
      · subst h1
        rw [hn2] at hne
        rw [hw2]
        fin_cases j
        · exact h.paired p1 (vid + 1) hne
        · simp
        · exact h.paired p2 (vid1 + 2) hne
      · obtain ⟨-, hn, hw, -⟩ := s.newPair_old p1 vid p2 vid1 h0 h1
        rw [hw]
        exact h.paired u j (hn ▸ hne)
  · rw [newPair_count]
    -- a side that points where an old side pointed
    have houter : ∀ {p q u}, s.link (p, q) = some (w, k) → u = s.trigonCount ∨
        u = s.trigonCount + 1 → u < s.trigonCount + 2 ∧ w < s.trigonCount + 2 ∧ w ≠ u := by
      intro p q u hpq hu
      obtain ⟨-, hw, -⟩ := h.known p q w k hpq
      rcases hu with rfl | rfl
      · exact ⟨Nat.lt_add_of_pos_right two_pos, Nat.lt_add_right 2 hw, hw.ne⟩
      · exact ⟨Nat.lt_succ_self _, Nat.lt_add_right 2 hw, (Nat.lt_add_right 1 hw).ne⟩
    by_cases h0 : u = s.trigonCount
    · subst h0
      rw [newPair_link_first] at hl
      fin_cases j
      · exact houter hl (.inl rfl)
      · obtain ⟨rfl, -⟩ := Prod.mk.inj (Option.some.inj hl)
        exact ⟨Nat.lt_add_of_pos_right two_pos, Nat.lt_succ_self _, Nat.succ_ne_self _⟩
      · exact houter hl (.inl rfl)
    · by_cases h1 : u = s.trigonCount + 1
      · subst h1
        rw [newPair_link_second] at hl
        fin_cases j
        · exact houter hl (.inr rfl)
        · obtain ⟨rfl, -⟩ := Prod.mk.inj (Option.some.inj hl)
          exact ⟨Nat.lt_succ_self _, Nat.lt_add_of_pos_right two_pos, (Nat.succ_ne_self _).symm⟩
        · exact houter hl (.inr rfl)
      · rw [newPair_link_old p1 vid p2 vid1 h0 h1] at hl
        obtain ⟨hu, hw, hne⟩ := h.known u j w k hl
        exact ⟨Nat.lt_add_right 2 hu, Nat.lt_add_right 2 hw, hne⟩
  · by_cases h0 : u = s.trigonCount
    · subst h0
      rw [newPair_link_first] at hl
      rw [hv1]
      fin_cases j
      · obtain ⟨he1, he2⟩ := h.ends p2 (vid1 + 1) w k hl
        rw [hold (h.known _ _ _ _ hl).2.1, he1, he2, side_one_one, side_one_two]
        exact ⟨rfl, hend2⟩
      · obtain ⟨rfl, rfl⟩ := Prod.mk.inj (Option.some.inj hl)
        rw [hv2]
        exact ⟨rfl, rfl⟩
      · obtain ⟨he1, he2⟩ := h.ends p1 (vid + 2) w k hl
        rw [hold (h.known _ _ _ _ hl).2.1, he1, he2, side_two_one, side_two_two]
        exact ⟨rfl, rfl⟩
    · by_cases h1 : u = s.trigonCount + 1
      · subst h1
        rw [newPair_link_second] at hl
        rw [hv2]
        fin_cases j
        · obtain ⟨he1, he2⟩ := h.ends p1 (vid + 1) w k hl
          rw [hold (h.known _ _ _ _ hl).2.1, he1, he2, side_one_one, side_one_two]
          exact ⟨rfl, hend1.symm⟩
        · obtain ⟨rfl, rfl⟩ := Prod.mk.inj (Option.some.inj hl)
          rw [hv1]
          exact ⟨rfl, rfl⟩
        · obtain ⟨he1, he2⟩ := h.ends p2 (vid1 + 2) w k hl
          rw [hold (h.known _ _ _ _ hl).2.1, he1, he2, side_two_one, side_two_two]
          exact ⟨rfl, rfl⟩
      · rw [newPair_link_old p1 vid p2 vid1 h0 h1] at hl
        rw [(s.newPair_old p1 vid p2 vid1 h0 h1).1, hold (h.known u j w k hl).2.1]
        exact h.ends u j w k hl

end Links

section Rebuild

/-- `s'` is `s` with the trigons `olds` of the net replaced by `news`. -/
structure Rebuilt (s : Net K) (olds news : List TrigonRef) (s' : Net K) : Prop where
  vex : s'.vex = s.vex
  trigonCount : s'.trigonCount = s.trigonCount
  trigonIndex : s'.trigonIndex = s.trigonIndex.diff olds ++ news
  listp : s'.listp = s.listp
  links : Replaced s.link s.Live olds news s'.link

lemma Adjacent.of_queue {s : Net K} (h : s.Adjacent) (n : ℕ)
    (e : TrigonRef → Fin 3 → Option QueueNode) (q : List QueueNode) :
    ({ s with nodeCount := n, etc := e, queue := q } : Net K).Adjacent :=
  ⟨⟨h.paired, h.known, h.ends⟩, h.symmetric, h.nodup, h.old, h.count⟩

lemma Rebuilt.of_queue {s s' : Net K} {olds news : List TrigonRef} (h : Rebuilt s olds news s')
    (n : ℕ) (e : TrigonRef → Fin 3 → Option QueueNode) (q : List QueueNode) :
    Rebuilt s olds news { s' with nodeCount := n, etc := e, queue := q } :=
  ⟨h.vex, h.trigonCount, h.trigonIndex, h.listp, h.links⟩

lemma enterEdge_eq (s : Net K) (t : TrigonRef) (i : Fin 3) :
    ∃ e q, s.enterEdge t i = { s with nodeCount := s.nodeCount + 1, etc := e, queue := q } := by
  unfold enterEdge enter
  simp only [setEtc]
  split
  · exact ⟨_, s.queue, rfl⟩
  · exact ⟨_, _, rfl⟩

/-- Entering edges into the queue leaves the trigons alone. -/
lemma enterEdges_eq (s : Net K) (sides : List (TrigonRef × Fin 3)) :
    ∃ n e q, sides.foldl (fun s a => s.enterEdge a.1 a.2) s =
      { s with nodeCount := n, etc := e, queue := q } := by
  induction sides generalizing s with
  | nil => exact ⟨s.nodeCount, s.etc, s.queue, rfl⟩
  | cons a sides ih =>
    obtain ⟨e, q, he⟩ := s.enterEdge_eq a.1 a.2
    obtain ⟨n, e', q', hs⟩ := ih (s.enterEdge a.1 a.2)
    rw [he] at hs
    exact ⟨n, e', q', by rw [List.foldl_cons, he, hs]⟩

lemma enterOuter_eq (s : Net K) (t : TrigonRef) (i : Fin 3) :
    ∃ n e q, s.enterOuter t i = { s with nodeCount := n, etc := e, queue := q } := by
  unfold enterOuter
  split_ifs
  · exact ⟨s.nodeCount, s.etc, s.queue, rfl⟩
  · obtain ⟨e, q, he⟩ := s.enterEdge_eq t i
    exact ⟨_, e, q, he⟩

lemma enterOuters_eq (s : Net K) (sides : List (TrigonRef × Fin 3)) :
    ∃ n e q, sides.foldl (fun s a => s.enterOuter a.1 a.2) s =
      { s with nodeCount := n, etc := e, queue := q } := by
  induction sides generalizing s with
  | nil => exact ⟨s.nodeCount, s.etc, s.queue, rfl⟩
  | cons a sides ih =>
    obtain ⟨n, e, q, he⟩ := s.enterOuter_eq a.1 a.2
    obtain ⟨n', e', q', hs⟩ := ih (s.enterOuter a.1 a.2)
    rw [he] at hs
    exact ⟨n', e', q', by rw [List.foldl_cons, he, hs]⟩

/-- The new trigons form a net that still has the old ones as its live trigons. -/
lemma Adjacent.newMids [Zero K] {s : Net K} (h : s.Adjacent) (v : Vertex K) {t : TrigonRef} :
    (s.newMids v t).Adjacent := by
  have hlink : ∀ a : TrigonRef × Fin 3, s.Live a.1 → (s.newMids v t).link a = s.link a :=
    fun a ha => newMids_link_old v t (s.ne_mids (h.old a.1 ha))
  refine ⟨newMids_wired h.toWired v t, ?_, h.nodup, fun u hu => ?_, h.count⟩
  · intro a b ha hab
    rw [hlink a ha] at hab
    obtain ⟨hb, hback⟩ := h.symmetric a b ha hab
    exact ⟨hb, (hlink b hb).trans hback⟩
  · exact Nat.lt_add_right 3 (h.old u hu)

/-- So do the two new trigons of `ChangeEdge`. -/
lemma Adjacent.newPair [Zero K] {s : Net K} (h : s.Adjacent) {p1 p2 : TrigonRef} {vid vid1 : Fin 3}
    (hp : s.link (p1, vid) = some (p2, vid1)) : (s.newPair p1 vid p2 vid1).Adjacent := by
  have hlink : ∀ a : TrigonRef × Fin 3, s.Live a.1 →
      (s.newPair p1 vid p2 vid1).link a = s.link a := by
    intro a ha
    have hlt := h.old a.1 ha
    exact newPair_link_old p1 vid p2 vid1 hlt.ne (Nat.lt_add_right 1 hlt).ne
  refine ⟨newPair_wired h.toWired hp, ?_, h.nodup, fun u hu => ?_, h.count⟩
  · intro a b ha hab
    rw [hlink a ha] at hab
    obtain ⟨hb, hback⟩ := h.symmetric a b ha hab
    exact ⟨hb, (hlink b hb).trans hback⟩
  · exact Nat.lt_add_right 2 (h.old u hu)

variable [Field K] [LinearOrder K] [FloorRing K]

/-- Replacing trigons by new ones that fit keeps the adjacency invariant. -/
theorem Adjacent.rebuild {s s1 s' : Net K} {olds news : List TrigonRef} (h : s.Adjacent)
    (holds : ∀ t ∈ olds, s.Live t) (hnews : news.Nodup) (hknown : ∀ t ∈ news, t < s.trigonCount)
    (h1 : olds.foldlM deleteTrigon s = .ok s1) (h2 : news.foldlM insertTrigon s1 = .ok s')
    (hnd : olds.Nodup) (hfresh : ∀ t ∈ news, ¬s.Live t)
    (hlinks : ∀ l₁ l', Cuts s.link olds l₁ → Pastes l₁ news l' →
      Replaced s.link s.Live olds news l') : s'.Adjacent ∧ Rebuilt s olds news s' := by
  obtain ⟨cells, e, q, nb, nv, rfl, -, hw1, hcuts⟩ := deleteTrigons_ok h.toWired h1
  obtain ⟨cells', heart, nb', nv', rfl, hw', hpastes⟩ := insertTrigons_ok hw1 h2
  have hrep := hlinks _ _ hcuts hpastes
  have hmem : ∀ t, t ∈ s.trigonIndex.diff olds ++ news ↔ s.Live t ∧ t ∉ olds ∨ t ∈ news := by
    intro t
    rw [List.mem_append, h.nodup.mem_sdiff_iff]
    rfl
  refine ⟨⟨hw', ?_, ?_, fun t ht => ?_, ?_⟩, ⟨rfl, rfl, rfl, rfl, hrep⟩⟩
  · intro a b ha hab
    obtain ⟨hb, hback⟩ := hrep.symmetric a b ((hmem _).mp ha) hab
    exact ⟨(hmem _).mpr hb, hback⟩
  · refine h.nodup.diff.append hnews fun t ht htn => hfresh t htn ?_
    exact (h.nodup.mem_sdiff_iff.mp ht).1
  · rcases (hmem t).mp ht with ⟨hl, -⟩ | hn
    · exact h.old t hl
    · exact hknown t hn
  · have hlen : (s.trigonIndex.diff olds).length + olds.length = s.trigonIndex.length := by
      have hperm := List.subperm_append_diff_self_of_count_le
        (List.subperm_ext_iff.mp (hnd.subperm fun t ht => holds t ht))
      rw [← hperm.length_eq, List.length_append, add_comm]
    have hcount := h.count
    simp only [List.length_append]
    push_cast
    omega

lemma insertMid_eq_ok {s s' : Net K} {v : Vertex K} {t : TrigonRef} :
    s.insertMid v t = .ok s' ↔ ∃ s1 s2, [t].foldlM deleteTrigon (s.newMids v t) = .ok s1 ∧
      [s.mids 0, s.mids 1, s.mids 2].foldlM insertTrigon s1 = .ok s2 ∧
      s' = [(s.mids 0, 0), (s.mids 1, 1), (s.mids 2, 2)].foldl (fun s a => s.enterEdge a.1 a.2) s2 := by
  unfold insertMid
  simp only [List.foldlM_cons, List.foldlM_nil, List.foldl_cons, List.foldl_nil, bind_eq_ok, pure,
    Except.pure, Except.ok.injEq]
  aesop

/-- `InsertMid` replaces the trigon by the three new ones. -/
theorem insertMid_ok {s s' : Net K} {v : Vertex K} {t : TrigonRef} (h : s.Adjacent) (ht : s.Live t)
    (hr : s.insertMid v t = .ok s') : s'.Adjacent ∧
      Rebuilt (s.newMids v t) [t] [s.mids 0, s.mids 1, s.mids 2] s' := by
  obtain ⟨s1, s2, h1, h2, rfl⟩ := insertMid_eq_ok.mp hr
  obtain ⟨n, e, q, he⟩ := enterEdges_eq s2 [(s.mids 0, 0), (s.mids 1, 1), (s.mids 2, 2)]
  rw [he]
  have hmem : ∀ u, u ∈ [s.mids 0, s.mids 1, s.mids 2] ↔ ∃ i, u = s.mids i := by
    intro u
    simp [Fin.exists_fin_succ]
  have hfresh : ∀ i, ¬s.Live (s.mids i) := fun i hl => s.ne_mids (h.old _ hl) i rfl
  have h0 : (s.newMids v t).Adjacent := h.newMids v
  suffices hs2 : s2.Adjacent ∧ Rebuilt (s.newMids v t) [t] [s.mids 0, s.mids 1, s.mids 2] s2 from
    ⟨hs2.1.of_queue n e q, hs2.2.of_queue n e q⟩
  have hto : ∀ u ∈ [t], (s.newMids v t).Live u := by
    simp only [List.mem_singleton, forall_eq]
    exact ht
  refine h0.rebuild hto ?_ ?_ h1 h2 (by simp) ?_ fun l₁ l' hc hp => ?_
  · simp only [List.nodup_cons, List.mem_cons, List.not_mem_nil, or_false, not_or, not_false_eq_true,
      List.nodup_nil, and_true]
    exact ⟨⟨fun he => by simpa using s.mids_inj he, fun he => by simpa using s.mids_inj he⟩,
      fun he => by simpa using s.mids_inj he⟩
  · intro u hu
    obtain ⟨i, rfl⟩ := (hmem u).mp hu
    exact s.mids_lt i
  · intro u hu
    obtain ⟨i, rfl⟩ := (hmem u).mp hu
    exact hfresh i
  · refine h0.symmetric.replace_outer (fun c => (s.mids c.2, c.2)) hto (by simp) ?_
      (fun u _ => h0.no_self u) ?_ hc hp
    · intro u hu
      obtain ⟨i, rfl⟩ := (hmem u).mp hu
      exact hfresh i
    · rintro ⟨u, j⟩ b hu hab
      obtain ⟨i, rfl⟩ := (hmem u).mp hu
      rw [newMids_link] at hab
      split_ifs at hab with hij
      · obtain rfl := Option.some.inj hab
        left
        exact ⟨(hmem _).mpr ⟨j, rfl⟩, by simp [newMids_link, Ne.symm hij]⟩
      · rw [not_not] at hij
        subst hij
        right
        refine ⟨(t, i), by simp, ?_, ?_, rfl⟩
        · rw [newMids_link_old v t (s.ne_mids (h.old t ht)), hab]
        · simpa using (h.known t i b.1 b.2 hab).2.2

lemma changeEdge_eq_ok {s s' : Net K} {edge : QueueNode} {p2 : TrigonRef} {vid1 : Fin 3}
    (hl : s.link (edge.trigon, edge.vid) = some (p2, vid1)) :
    s.changeEdge edge = .ok s' ↔ ∃ s1 s2,
      [edge.trigon, p2].foldlM deleteTrigon (s.newPair edge.trigon edge.vid p2 vid1) = .ok s1 ∧
      [s.trigonCount, s.trigonCount + 1].foldlM insertTrigon s1 = .ok s2 ∧
      s' = [(s.trigonCount, 0), (s.trigonCount, 2), (s.trigonCount + 1, 0),
        (s.trigonCount + 1, 2)].foldl (fun s a => s.enterOuter a.1 a.2) s2 := by
  obtain ⟨hp, hv⟩ := link_eq_some.mp hl
  unfold changeEdge
  simp only [hp, hv, index_some, List.foldlM_cons, List.foldlM_nil, List.foldl_cons, List.foldl_nil,
    bind_eq_ok, pure, Except.pure, Except.ok.injEq]
  constructor
  · rintro ⟨_, rfl, s1, h1, s2, h2, s3, h3, s4, h4, rfl⟩
    exact ⟨s2, s4, ⟨s1, h1, s2, h2, rfl⟩, ⟨s3, h3, s4, h4, rfl⟩, rfl⟩
  · rintro ⟨s2, s4, ⟨s1, h1, _, h2, rfl⟩, ⟨s3, h3, _, h4, rfl⟩, rfl⟩
    exact ⟨_, rfl, s1, h1, _, h2, s3, h3, _, h4, rfl⟩

/-- Where a flip moves the outer sides of its two trigons. -/
def flipSide (s : Net K) (p1 : TrigonRef) (vid vid1 : Fin 3) (c : TrigonRef × Fin 3) :
    TrigonRef × Fin 3 :=
  if c.1 = p1 then
    if c.2 = vid + 1 then (s.trigonCount + 1, 0) else (s.trigonCount, 2)
  else
    if c.2 = vid1 + 1 then (s.trigonCount, 0) else (s.trigonCount + 1, 2)

section Flip

variable {s : Net K} {p1 p2 : TrigonRef} {vid vid1 : Fin 3}

omit [Field K] [LinearOrder K] [FloorRing K] in
/-- The outer sides of the two trigons at an edge point away from both of them. -/
lemma Adjacent.outer (h : s.Adjacent) (ht : s.Live p1) (hl : s.link (p1, vid) = some (p2, vid1))
    (hone : s.SharesOneSide p1 vid) {c b : TrigonRef × Fin 3} (hc : c.1 ∈ [p1, p2])
    (hv : c ≠ (p1, vid)) (hv1 : c ≠ (p2, vid1)) (hcb : s.link c = some b) : b.1 ∉ [p1, p2] := by
  obtain ⟨hlive, hback⟩ := h.symmetric _ _ ht hl
  obtain ⟨u, k⟩ := c
  simp only [List.mem_cons, List.not_mem_nil, or_false, not_or] at hc ⊢
  rcases hc with rfl | rfl
  · refine ⟨(h.known _ _ b.1 b.2 hcb).2.2, fun hb => ?_⟩
    obtain rfl := hone.eq_of_link (k := k) (l := b.2) hl (by rw [hcb, ← hb])
    exact hv rfl
  · refine ⟨fun hb => ?_, (h.known _ _ b.1 b.2 hcb).2.2⟩
    have hb' := (h.symmetric (u, k) b hlive hcb).2
    obtain ⟨x, m⟩ := b
    obtain rfl : x = p1 := hb
    obtain rfl := hone.eq_of_link hl hb'
    rw [hl] at hb'
    exact hv1 (Option.some.inj hb').symm

omit [LinearOrder K] [FloorRing K] in
/-- The links of the two trigons that a flip creates. -/
lemma newPair_link_new (hne : p2 ≠ p1) {a b : TrigonRef × Fin 3}
    (ha : a.1 ∈ [s.trigonCount, s.trigonCount + 1])
    (hab : (s.newPair p1 vid p2 vid1).link a = some b) :
    b.1 ∈ [s.trigonCount, s.trigonCount + 1] ∧ (s.newPair p1 vid p2 vid1).link b = some a ∨
      ∃ c, c.1 ∈ [p1, p2] ∧ c ≠ (p1, vid) ∧ c ≠ (p2, vid1) ∧ s.link c = some b ∧
        s.flipSide p1 vid vid1 c = a := by
  have h12 : ∀ i : Fin 3, i + 2 ≠ i + 1 := by decide
  have h1 : ∀ i : Fin 3, i + 1 ≠ i := by decide
  have h2 : ∀ i : Fin 3, i + 2 ≠ i := by decide
  obtain ⟨u, j⟩ := a
  simp only [List.mem_cons, List.not_mem_nil, or_false] at ha
  rcases ha with rfl | rfl
  · rw [newPair_link_first] at hab
    fin_cases j
    · exact .inr ⟨(p2, vid1 + 1), by simp, by simp [hne], by simp [h1], hab, by simp [flipSide, hne]⟩
    · obtain rfl := Option.some.inj hab
      exact .inl ⟨by simp, by rw [newPair_link_second]; rfl⟩
    · exact .inr ⟨(p1, vid + 2), by simp, by simp [h2], by simp [hne.symm], hab,
        by simp [flipSide, h12]⟩
  · rw [newPair_link_second] at hab
    fin_cases j
    · exact .inr ⟨(p1, vid + 1), by simp, by simp [h1], by simp [hne.symm], hab, by simp [flipSide]⟩
    · obtain rfl := Option.some.inj hab
      exact .inl ⟨by simp, by rw [newPair_link_first]; rfl⟩
    · exact .inr ⟨(p2, vid1 + 2), by simp, by simp [hne], by simp [h2], hab,
        by simp [flipSide, hne, h12]⟩

end Flip

/-- `ChangeEdge` replaces the two trigons at the edge by the two new ones. -/
theorem changeEdge_ok {s s' : Net K} {edge : QueueNode} {p2 : TrigonRef} {vid1 : Fin 3}
    (h : s.Adjacent) (ht : s.Live edge.trigon)
    (hl : s.link (edge.trigon, edge.vid) = some (p2, vid1))
    (hone : s.SharesOneSide edge.trigon edge.vid) (hr : s.changeEdge edge = .ok s') :
    s'.Adjacent ∧ Rebuilt (s.newPair edge.trigon edge.vid p2 vid1) [edge.trigon, p2]
      [s.trigonCount, s.trigonCount + 1] s' := by
  obtain ⟨s1, s2, h1, h2, rfl⟩ := (changeEdge_eq_ok hl).mp hr
  obtain ⟨n, e, q, he⟩ := enterOuters_eq s2 [(s.trigonCount, 0), (s.trigonCount, 2),
    (s.trigonCount + 1, 0), (s.trigonCount + 1, 2)]
  rw [he]
  obtain ⟨ref, p1, vid⟩ := edge
  dsimp only at ht hl hone h1 ⊢
  have h0 := h.newPair hl
  have hp2 := (h.symmetric _ _ ht hl).1
  have hne : p2 ≠ p1 := (h.known _ _ _ _ hl).2.2
  have holds : ∀ u ∈ [p1, p2], (s.newPair p1 vid p2 vid1).Live u := by
    simp only [List.mem_cons, List.not_mem_nil, or_false, forall_eq_or_imp, forall_eq]
    exact ⟨ht, hp2⟩
  have hnd : [p1, p2].Nodup := by simp [hne.symm]
  have hfresh : ∀ u ∈ [s.trigonCount, s.trigonCount + 1], ¬s.Live u := by
    simp only [List.mem_cons, List.not_mem_nil, or_false, forall_eq_or_imp, forall_eq]
    exact ⟨fun hu => (h.old _ hu).ne rfl, fun hu => (Nat.lt_add_right 1 (h.old _ hu)).ne rfl⟩
  suffices hs2 : s2.Adjacent ∧ Rebuilt (s.newPair p1 vid p2 vid1) [p1, p2]
      [s.trigonCount, s.trigonCount + 1] s2 from
    ⟨hs2.1.of_queue n e q, hs2.2.of_queue n e q⟩
  refine h0.rebuild holds (by simp) (by simp [newPair_count]) h1 h2 hnd hfresh fun l₁ l' hc hp => ?_
  refine h0.symmetric.replace_outer (s.flipSide p1 vid vid1) holds hnd hfresh
    (fun u _ => h0.no_self u) (fun a b ha hab => ?_) hc hp
  rcases newPair_link_new hne ha hab with hin | ⟨c, hc, hcv, hcv1, hcb, hca⟩
  · exact .inl hin
  · have hlt := h.old c.1 (holds c.1 hc)
    refine .inr ⟨c, hc, ?_, h.outer ht hl hone hc hcv hcv1 hcb, hca⟩
    rw [newPair_link_old p1 vid p2 vid1 hlt.ne (Nat.lt_add_right 1 hlt).ne, hcb]

end Rebuild

end Net

end MTalk.Triangle
