import MTalk.Triangle.Delaunay

/-!
# Ties of the in-circle test

`Exchangable` decides a zero determinant for the flip. Such a flip turns two triangles of one
circle into two others, so that around it exactly the same edges are ties as before, and the
new diagonal is a tie again.
-/

namespace MTalk.Triangle

open PlaneGeometry SideGluing WhileLoop

namespace Net

variable {K : Type} [Field K]

/-- The edge at the side is interior and its four vertices lie on one circle. -/
def Tie (s : Net K) (a : TrigonRef × Fin 3) : Prop := ∃ b ∈ s.link a, s.determinant a.1 b.1 b.2 = 0

/-- A tie with another tie among the four edges around it: at least five vertices on one circle. -/
def RecurringTie (s : Net K) (a : TrigonRef × Fin 3) : Prop :=
  s.Tie a ∧ ∃ b ∈ s.link a, ∃ k, (k ≠ a.2 ∧ s.Tie (a.1, k)) ∨ (k ≠ b.2 ∧ s.Tie (b.1, k))

section Sides

variable {s s' : Net K}

lemma tie_iff {a b : TrigonRef × Fin 3} (hab : s.link a = some b) :
    s.Tie a ↔ s.determinant a.1 b.1 b.2 = 0 := by
  simp [Tie, hab]

/-- Both sides of an edge say the same about it. -/
lemma tie_across (hw : s.Wired) {a b : TrigonRef × Fin 3} (hab : s.link a = some b)
    (hba : s.link b = some a) : s.Tie a ↔ s.Tie b := by
  rw [tie_iff hab, tie_iff hba, determinant_across hw (i := a.2) (j := b.2) hab]

lemma RecurringTie.of_outer {a b : TrigonRef × Fin 3} (hab : s.link a = some b) (ha : s.Tie a)
    {c : TrigonRef × Fin 3} (hc : c.1 ∈ [a.1, b.1]) (hca : c ≠ a) (hcb : c ≠ b) (ht : s.Tie c) :
    s.RecurringTie a := by
  obtain ⟨u, k⟩ := c
  simp only [List.mem_cons, List.not_mem_nil, or_false] at hc
  refine ⟨ha, b, hab, k, ?_⟩
  rcases hc with rfl | rfl
  · exact .inl ⟨fun hk => hca (Prod.ext rfl hk), ht⟩
  · exact .inr ⟨fun hk => hcb (Prod.ext rfl hk), ht⟩

end Sides

variable [LinearOrder K]

/-- No interior edge has a positive determinant. -/
def Settled (s : Net K) : Prop := ∀ a b, s.Live a.1 → s.link a = some b →
  s.determinant a.1 b.1 b.2 ≤ 0

instance (s : Net K) (a : TrigonRef × Fin 3) : Decidable (s.Tie a) :=
  inferInstanceAs (Decidable (∃ b ∈ s.link a, _))

instance (s : Net K) (a : TrigonRef × Fin 3) : Decidable (s.RecurringTie a) :=
  inferInstanceAs (Decidable (_ ∧ ∃ b ∈ s.link a, _))

variable [FloorRing K]

/-- A flip of a tie on a positive net. -/
structure TieFlip (s : Net K) (edge : QueueNode) (p2 : TrigonRef) (vid1 : Fin 3) (s' : Net K) :
    Prop where
  adjacent : s.Adjacent
  positive : s.Positive
  live : s.Live edge.trigon
  link : s.link edge.side = some (p2, vid1)
  tie : s.determinant edge.trigon p2 vid1 = 0
  done : s.changeEdge edge = .ok s'

namespace TieFlip

variable [IsStrictOrderedRing K] {s s' : Net K} {edge : QueueNode} {p2 : TrigonRef} {vid1 : Fin 3}

lemma sharesOneSide (h : TieFlip s edge p2 vid1 s') : s.SharesOneSide edge.trigon edge.vid :=
  h.positive.sharesOneSide h.adjacent h.live edge.vid

lemma after (h : TieFlip s edge p2 vid1 s') : s'.Adjacent ∧
    Rebuilt (s.newPair edge.trigon edge.vid p2 vid1) [edge.trigon, p2]
      [s.trigonCount, s.trigonCount + 1] s' :=
  changeEdge_ok h.adjacent h.live h.link h.sharesOneSide h.done

lemma after_positive (h : TieFlip s edge p2 vid1 s') : s'.Positive := by
  refine changeEdge_positive h.adjacent h.positive h.live ?_ h.done
  rw [exchangable_eq h.link, h.tie]
  simp

omit [IsStrictOrderedRing K] in
lemma old_live (h : TieFlip s edge p2 vid1 s') {u : TrigonRef} (hu : u ∈ [edge.trigon, p2]) :
    s.Live u := by
  simp only [List.mem_cons, List.not_mem_nil, or_false] at hu
  rcases hu with rfl | rfl
  · exact h.live
  · exact (h.adjacent.symmetric _ _ h.live h.link).1

lemma new_live (h : TieFlip s edge p2 vid1 s') {u : TrigonRef}
    (hu : u ∈ [s.trigonCount, s.trigonCount + 1]) : s'.Live u :=
  (h.after.2.live_iff (h.adjacent.newPair h.link).nodup u).mpr (.inr hu)

omit [IsStrictOrderedRing K] in
lemma fresh (h : TieFlip s edge p2 vid1 s') {u : TrigonRef} (hu : s.Live u) :
    u ∉ [s.trigonCount, s.trigonCount + 1] := by
  have hlt := h.adjacent.old u hu
  simp only [List.mem_cons, List.not_mem_nil, or_false, not_or]
  exact ⟨hlt.ne, (Nat.lt_add_right 1 hlt).ne⟩

/-- A trigon of the old net keeps its vertices. -/
lemma vex_old (h : TieFlip s edge p2 vid1 s') {u : TrigonRef} (hu : s.Live u) :
    s'.vex u = s.vex u := by
  have hlt := h.adjacent.old u hu
  rw [h.after.2.vex, (s.newPair_old _ _ _ _ hlt.ne (Nat.lt_add_right 1 hlt).ne).1]

/-- Away from the flip the gluing stays. -/
lemma link_kept (h : TieFlip s edge p2 vid1 s') {c d : TrigonRef × Fin 3} (hc : s.Live c.1)
    (hco : c.1 ∉ [edge.trigon, p2]) (hdo : d.1 ∉ [edge.trigon, p2])
    (hdn : d.1 ∉ [s.trigonCount, s.trigonCount + 1]) : s'.link c = some d ↔ s.link c = some d := by
  have hlt := h.adjacent.old c.1 hc
  rw [h.after.2.links.kept c d hc hco hdo hdn,
    newPair_link_old _ _ _ _ hlt.ne (Nat.lt_add_right 1 hlt).ne]

/-- The new diagonal. -/
lemma diagonal (h : TieFlip s edge p2 vid1 s') :
    s'.link (s.trigonCount, 1) = some (s.trigonCount + 1, 1) ∧
      s'.link (s.trigonCount + 1, 1) = some (s.trigonCount, 1) := by
  obtain ⟨ha, hreb⟩ := h.after
  constructor
  · rw [hreb.links.new _ (by simp), newPair_link_first]
    rfl
  · rw [hreb.links.new _ (by simp), newPair_link_second]
    rfl

lemma diagonal_tie (h : TieFlip s edge p2 vid1 s') :
    s'.Tie (s.trigonCount, 1) ∧ s'.Tie (s.trigonCount + 1, 1) := by
  obtain ⟨h1, h2⟩ := h.diagonal
  have htie : s'.Tie (s.trigonCount, 1) := by
    rw [tie_iff h1, flip_determinant h.adjacent.toWired h.link h.after.2.vex, h.tie, neg_zero]
  exact ⟨htie, (tie_across h.after.1.toWired h1 h2).mp htie⟩

/-- The four old and new trigons have their vertices on one circle. -/
lemma power (h : TieFlip s edge p2 vid1 s') (e : K × K) : ∃ power : K,
    (∀ u ∈ [edge.trigon, p2],
      inCircle (s.vex u 0).xy (s.vex u 1).xy (s.vex u 2).xy e = area2 (s.vex u) * power) ∧
    ∀ u ∈ [s.trigonCount, s.trigonCount + 1],
      inCircle (s'.vex u 0).xy (s'.vex u 1).xy (s'.vex u 2).xy e = area2 (s'.vex u) * power := by
  obtain ⟨power, hpower⟩ := inCircle_power (h.positive _ h.live).ne' h.tie e
  obtain ⟨e1, e2⟩ := h.adjacent.ends _ _ _ _ h.link
  have hcorner : ∀ i, (s.vex edge.trigon i).xy = (s.vex edge.trigon 0).xy ∨
      (s.vex edge.trigon i).xy = (s.vex edge.trigon 1).xy ∨
      (s.vex edge.trigon i).xy = (s.vex edge.trigon 2).xy := by
    intro i
    fin_cases i
    · exact .inl rfl
    · exact .inr (.inl rfl)
    · exact .inr (.inr rfl)
  have hold : ∀ u ∈ [edge.trigon, p2], ∀ i, (s.vex u i).xy = (s.vex edge.trigon 0).xy ∨
      (s.vex u i).xy = (s.vex edge.trigon 1).xy ∨ (s.vex u i).xy = (s.vex edge.trigon 2).xy ∨
      (s.vex u i).xy = (s.vex p2 vid1).xy := by
    intro u hu i
    simp only [List.mem_cons, List.not_mem_nil, or_false] at hu
    have hone : ∀ k, (s.vex edge.trigon k).xy = (s.vex edge.trigon 0).xy ∨
        (s.vex edge.trigon k).xy = (s.vex edge.trigon 1).xy ∨
        (s.vex edge.trigon k).xy = (s.vex edge.trigon 2).xy ∨
        (s.vex edge.trigon k).xy = (s.vex p2 vid1).xy := fun k =>
      (hcorner k).imp_right (Or.imp_right .inl)
    rcases hu with rfl | rfl
    · exact hone i
    · rcases side_cases vid1 i with rfl | rfl | rfl
      · exact .inr (.inr (.inr rfl))
      · rw [e1]
        exact hone _
      · rw [e2]
        exact hone _
  refine ⟨power, fun u hu => hpower _ _ _ (hold u hu 0) (hold u hu 1) (hold u hu 2), ?_⟩
  intro u hu
  have hnew : ∀ j, (s'.vex u j).xy = (s.vex edge.trigon 0).xy ∨
      (s'.vex u j).xy = (s.vex edge.trigon 1).xy ∨ (s'.vex u j).xy = (s.vex edge.trigon 2).xy ∨
      (s'.vex u j).xy = (s.vex p2 vid1).xy := by
    intro j
    obtain ⟨t, ht, i, hi⟩ := (newPair_vertices h.adjacent.toWired h.link).2 u hu j
    rw [h.after.2.vex, hi]
    exact hold t ht i
  exact hpower _ _ _ (hnew 0) (hnew 1) (hnew 2)

/-- An outer edge of the two trigons passes from an old trigon to a new one with the sign of
its determinant. -/
lemma outer (h : TieFlip s edge p2 vid1 s') {c d : TrigonRef × Fin 3}
    (hc : c.1 ∈ [edge.trigon, p2]) (hv : c ≠ edge.side) (hv1 : c ≠ (p2, vid1))
    (hcd : s.link c = some d) : ∃ o ∈ s.outerSides, s'.link o = some d ∧ s'.link d = some o ∧
      (s'.determinant o.1 d.1 d.2 = 0 ↔ s.determinant c.1 d.1 d.2 = 0) ∧
      (s'.determinant o.1 d.1 d.2 ≤ 0 ↔ s.determinant c.1 d.1 d.2 ≤ 0) := by
  obtain ⟨h', hreb⟩ := h.after
  have hne : p2 ≠ edge.trigon := (h.adjacent.known _ _ _ _ h.link).2.2
  obtain ⟨ho, hlink⟩ := flipSide_outer (s := s) hne hc hv hv1
  have hon := outerSides_new ho
  have hod : s'.link (s.flipSide edge.trigon edge.vid vid1 c) = some d := by
    rw [hreb.links.new _ hon, hlink, hcd]
  refine ⟨_, ho, hod, (h'.symmetric _ _ (h.new_live hon) hod).2, ?_⟩
  have hdl := (h.adjacent.symmetric c d (h.old_live hc) hcd).1
  obtain ⟨power, hold, hnew⟩ := h.power (s.vex d.1 d.2).xy
  have hpos := h.positive _ (h.old_live hc)
  have hpos' := h.after_positive _ (h.new_live hon)
  unfold determinant
  rw [h.vex_old hdl, hold _ hc, hnew _ hon, mul_eq_zero, mul_eq_zero, or_iff_right hpos.ne',
    or_iff_right hpos'.ne', ← not_lt, mul_pos_iff_of_pos_left hpos', ← not_lt (a := 0),
    mul_pos_iff_of_pos_left hpos]
  exact ⟨Iff.rfl, Iff.rfl⟩

/-- Every outer side of a new trigon that is glued takes over an outer edge. -/
lemma outer_of_new (h : TieFlip s edge p2 vid1 s') {o d : TrigonRef × Fin 3}
    (ho : o ∈ s.outerSides) (hod : s'.link o = some d) : ∃ c, c.1 ∈ [edge.trigon, p2] ∧
      c ≠ edge.side ∧ c ≠ (p2, vid1) ∧ s.link c = some d ∧
      (s'.determinant o.1 d.1 d.2 = 0 ↔ s.determinant c.1 d.1 d.2 = 0) ∧
      (s'.determinant o.1 d.1 d.2 ≤ 0 ↔ s.determinant c.1 d.1 d.2 ≤ 0) := by
  obtain ⟨h', hreb⟩ := h.after
  have hne : p2 ≠ edge.trigon := (h.adjacent.known _ _ _ _ h.link).2.2
  obtain ⟨c, hc, hv, hv1, rfl⟩ := exists_flipSide edge.vid vid1 hne ho
  have hcd : s.link c = some d := by
    rw [hreb.links.new _ (outerSides_new ho), (flipSide_outer hne hc hv hv1).2] at hod
    exact hod
  obtain ⟨o', ho', -, hback, hsign⟩ := h.outer hc hv hv1 hcd
  have hback' := (h'.symmetric _ _ (h.new_live (outerSides_new ho)) hod).2
  obtain rfl := Option.some.inj (hback.symm.trans hback')
  exact ⟨c, hc, hv, hv1, hcd, hsign⟩

omit [Field K] [LinearOrder K] [FloorRing K] [IsStrictOrderedRing K] in
/-- A side of a new trigon is outer or belongs to the new diagonal. -/
lemma outer_or_diagonal {o : TrigonRef × Fin 3} (ho : o.1 ∈ [s.trigonCount, s.trigonCount + 1]) :
    o ∈ s.outerSides ∨ o = (s.trigonCount, 1) ∨ o = (s.trigonCount + 1, 1) := by
  obtain ⟨u, j⟩ := o
  simp only [List.mem_cons, List.not_mem_nil, or_false] at ho
  rcases ho with rfl | rfl <;> fin_cases j <;> simp [outerSides]

/-- An edge of a trigon away from the flip keeps the sign of its determinant. -/
lemma edge_kept (h : TieFlip s edge p2 vid1 s') {c d : TrigonRef × Fin 3} (hc : s.Live c.1)
    (hco : c.1 ∉ [edge.trigon, p2]) (hcd : s.link c = some d) : ∃ d', s'.link c = some d' ∧
      (s'.determinant c.1 d'.1 d'.2 = 0 ↔ s.determinant c.1 d.1 d.2 = 0) ∧
      (s'.determinant c.1 d'.1 d'.2 ≤ 0 ↔ s.determinant c.1 d.1 d.2 ≤ 0) := by
  obtain ⟨hd, hdc⟩ := h.adjacent.symmetric c d hc hcd
  by_cases hdo : d.1 ∈ [edge.trigon, p2]
  · -- seen from the other side this is an outer edge of the flip
    have hv : d ≠ edge.side := by
      rintro rfl
      rw [h.link] at hdc
      exact hco (Option.some.inj hdc ▸ by simp)
    have hv1 : d ≠ (p2, vid1) := by
      rintro rfl
      rw [(h.adjacent.symmetric _ _ h.live h.link).2] at hdc
      exact hco (Option.some.inj hdc ▸ by simp [QueueNode.side])
    obtain ⟨o, ho, hoc, hco', hsign⟩ := h.outer hdo hv hv1 hdc
    have hdet := determinant_across h.adjacent.toWired (i := c.2) (j := d.2) hcd
    have hdet' := determinant_across h.after.1.toWired (i := c.2) (j := o.2) hco'
    rw [hdet, hdet'] at hsign
    exact ⟨o, hco', hsign⟩
  · refine ⟨d, (h.link_kept hc hco hdo (h.fresh hd)).mpr hcd, ?_⟩
    rw [determinant_congr (h.vex_old hc) (h.vex_old hd)]
    exact ⟨Iff.rfl, Iff.rfl⟩

/-- Such a side is not glued to anything new. -/
lemma glued_before (h : TieFlip s edge p2 vid1 s') {c d' : TrigonRef × Fin 3} (hc : s.Live c.1)
    (hco : c.1 ∉ [edge.trigon, p2]) (hcd : s'.link c = some d') : ∃ d, s.link c = some d := by
  obtain ⟨h', hreb⟩ := h.after
  have hc' : s'.Live c.1 :=
    (hreb.live_iff (h.adjacent.newPair h.link).nodup c.1).mpr (.inl ⟨hc, hco⟩)
  obtain ⟨hd', hback⟩ := h'.symmetric c d' hc' hcd
  by_cases hdn : d'.1 ∈ [s.trigonCount, s.trigonCount + 1]
  · obtain ⟨hdiag, hdiag'⟩ := h.diagonal
    have hcn := h.fresh hc
    rcases outer_or_diagonal hdn with ho | rfl | rfl
    · obtain ⟨c', hc'o, -, -, hlink, -⟩ := h.outer_of_new ho hback
      exact ⟨c', (h.adjacent.symmetric c' c (h.old_live hc'o) hlink).2⟩
    · rw [hdiag] at hback
      exact absurd (Option.some.inj hback ▸ by simp) hcn
    · rw [hdiag'] at hback
      exact absurd (Option.some.inj hback ▸ by simp) hcn
  · rcases (hreb.live_iff (h.adjacent.newPair h.link).nodup d'.1).mp hd' with ⟨-, hdo⟩ | hn
    · exact ⟨d', (h.link_kept hc hco hdo hdn).mp hcd⟩
    · exact absurd hn hdn

/-- Away from the flip the same sides are ties as before. -/
theorem tie_kept (h : TieFlip s edge p2 vid1 s') {c : TrigonRef × Fin 3} (hc : s.Live c.1)
    (hco : c.1 ∉ [edge.trigon, p2]) : s'.Tie c ↔ s.Tie c := by
  constructor
  · rintro ⟨d', hcd', hdet⟩
    obtain ⟨d, hcd⟩ := h.glued_before hc hco hcd'
    obtain ⟨d'', hcd'', hsign, -⟩ := h.edge_kept hc hco hcd
    obtain rfl := Option.some.inj (hcd''.symm.trans hcd')
    exact (tie_iff hcd).mpr (hsign.mp hdet)
  · rintro ⟨d, hcd, hdet⟩
    obtain ⟨d', hcd', hsign, -⟩ := h.edge_kept hc hco hcd
    exact (tie_iff hcd').mpr (hsign.mpr hdet)

/-- A flip of a tie keeps a net settled. -/
theorem settled (h : TieFlip s edge p2 vid1 s') (hset : s.Settled) : s'.Settled := by
  obtain ⟨h', hreb⟩ := h.after
  obtain ⟨hdiag, hdiag'⟩ := h.diagonal
  obtain ⟨htie, htie'⟩ := h.diagonal_tie
  intro a b ha hab
  rcases (hreb.live_iff (h.adjacent.newPair h.link).nodup a.1).mp ha with ⟨hl, hao⟩ | hn
  · obtain ⟨d, had⟩ := h.glued_before hl hao hab
    obtain ⟨d', had', -, hsign⟩ := h.edge_kept hl hao had
    obtain rfl := Option.some.inj (had'.symm.trans hab)
    exact hsign.mpr (hset a d hl had)
  · rcases outer_or_diagonal hn with ho | rfl | rfl
    · obtain ⟨c, hc, -, -, hcd, -, hsign⟩ := h.outer_of_new ho hab
      exact hsign.mpr (hset c b (h.old_live hc) hcd)
    · obtain rfl := Option.some.inj (hdiag.symm.trans hab)
      exact ((tie_iff hdiag).mp htie).le
    · obtain rfl := Option.some.inj (hdiag'.symm.trans hab)
      exact ((tie_iff hdiag').mp htie').le

/-- A recurring tie away from the flip stays one, and none appears there. -/
theorem recurring_kept (h : TieFlip s edge p2 vid1 s') {a b : TrigonRef × Fin 3} (ha : s.Live a.1)
    (hab : s.link a = some b) (hao : a.1 ∉ [edge.trigon, p2]) (hbo : b.1 ∉ [edge.trigon, p2]) :
    s'.RecurringTie a ↔ s.RecurringTie a := by
  have hb := (h.adjacent.symmetric a b ha hab).1
  have hab' := (h.link_kept ha hao hbo (h.fresh hb)).mpr hab
  have hta : ∀ k, s'.Tie (a.1, k) ↔ s.Tie (a.1, k) := fun k => h.tie_kept (c := (a.1, k)) ha hao
  have htb : ∀ k, s'.Tie (b.1, k) ↔ s.Tie (b.1, k) := fun k => h.tie_kept (c := (b.1, k)) hb hbo
  simp only [RecurringTie, hab, hab', Option.mem_def, Option.some.injEq, exists_eq_left', hta, htb]

/-- After the flip of a recurring tie a recurring tie is in the queue. -/
theorem recurring_queued {out : QueueNode → Prop} (h : TieFlip s edge p2 vid1 s')
    (hq : s.QueueInv out) (hrec : s.RecurringTie edge.side) :
    ∃ n ∈ s'.queue, s'.RecurringTie n.side := by
  obtain ⟨-, henq⟩ := changeEdge_queue h.adjacent hq h.live h.link h.sharesOneSide h.done
  obtain ⟨hdiag, hdiag'⟩ := h.diagonal
  obtain ⟨htie, htie'⟩ := h.diagonal_tie
  have houter : ∀ c : TrigonRef × Fin 3, c.1 ∈ [edge.trigon, p2] → c ≠ edge.side →
      c ≠ (p2, vid1) → s.Tie c → ∃ n ∈ s'.queue, s'.RecurringTie n.side := by
    rintro c hc hv hv1 ⟨d, hcd, hdet⟩
    obtain ⟨o, ho, hod, -, hsign, -⟩ := h.outer hc hv hv1 hcd
    obtain ⟨n, hn, rfl⟩ := henq.offered ho hod
    refine ⟨n, hn, (tie_iff hod).mpr (hsign.mpr hdet), d, hod, 1, .inl ?_⟩
    -- the diagonal is the other tie of the new trigon
    simp only [outerSides, List.mem_cons, List.not_mem_nil, or_false] at ho
    rcases ho with ho | ho | ho | ho <;> rw [ho]
    · exact ⟨by simp, htie⟩
    · exact ⟨by simp, htie⟩
    · exact ⟨by simp, htie'⟩
    · exact ⟨by simp, htie'⟩
  obtain ⟨-, b, hb, k, hk⟩ := hrec
  obtain rfl := Option.some.inj (h.link.symm.trans hb)
  have hne : p2 ≠ edge.trigon := (h.adjacent.known _ _ _ _ h.link).2.2
  rcases hk with ⟨hk, ht⟩ | ⟨hk, ht⟩
  · refine houter _ (by simp [QueueNode.side]) (fun he => hk (congrArg Prod.snd he)) ?_ ht
    exact fun he => hne (congrArg Prod.fst he).symm
  · refine houter _ (by simp) ?_ (fun he => hk (congrArg Prod.snd he)) ht
    exact fun he => hne (congrArg Prod.fst he)

/-- The flip of a tie that is not recurring queues no tie. -/
theorem offered_not_tie (h : TieFlip s edge p2 vid1 s') (hrec : ¬s.RecurringTie edge.side)
    {o : TrigonRef × Fin 3} (ho : o ∈ s.outerSides) : ¬s'.Tie o := by
  rintro ⟨d, hod, hdet⟩
  obtain ⟨c, hc, hv, hv1, hcd, hsign, -⟩ := h.outer_of_new ho hod
  exact hrec (.of_outer h.link ((tie_iff h.link).mpr h.tie) hc hv hv1
    ((tie_iff hcd).mpr (hsign.mp hdet)))

end TieFlip

end Net

end MTalk.Triangle
