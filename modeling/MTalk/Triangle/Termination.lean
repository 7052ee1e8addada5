import MTalk.Triangle.Ties

/-!
# Termination of the legalisation loop

Lifted to the paraboloid, the net loses volume with every flip of a positive determinant, and
the nets on given vertices have finitely many volumes. A flip of a tie keeps the volume. It
takes a tie out of the queue for good unless the tie is recurring, and once only recurring
ties are left to flip `Process` does not stop.
-/

namespace MTalk.Triangle

open PlaneGeometry SideGluing WhileLoop

namespace Net

variable {K : Type} [Field K]

/-- Six times the volume below a trigon lifted to the paraboloid. -/
def lifted3 (vex : Fin 3 → Vertex K) : K := lifted (vex 0).xy (vex 1).xy (vex 2).xy

/-- The lifted volume of the net. -/
def potential (s : Net K) : K := s.total lifted3

lemma lifted3_at (vex : Fin 3 → Vertex K) (i : Fin 3) :
    lifted (vex i).xy (vex (i + 1)).xy (vex (i + 2)).xy = lifted3 vex := by
  fin_cases i
  · rfl
  · exact lifted_rotate _ _ _
  · exact (lifted_rotate _ _ _).symm

/-- The next iteration takes a recurring tie out of the queue. -/
def TakesRecurringTie (s : Net K) : Prop := ∃ n ∈ s.queue.head?, s.RecurringTie n.side

omit [Field K] in
lemma onNet_finite (s : Net K) : {v | s.OnNet v}.Finite := by
  have himage : {v | s.OnNet v} = ⋃ t ∈ s.trigonIndex.toFinset, Set.range (s.vex t) := by
    ext v
    simp [OnNet]
  rw [himage]
  exact Set.Finite.biUnion (Finset.finite_toSet _) fun t _ => Set.finite_range _

/-- The nets with a given number of trigons on finitely many vertices have finitely many
volumes. -/
lemma potential_finite {V : Set (Vertex K)} (hV : V.Finite) (n : ℕ) :
    {x | ∃ s : Net K, (s.trigonIndex.length = n ∧ ∀ v, s.OnNet v → v ∈ V) ∧
      s.potential = x}.Finite := by
  have hfin : Finite V := hV
  refine ((List.finite_length_eq (Fin 3 → V) n).image fun l =>
    (l.map fun f => lifted3 fun i => (f i : Vertex K)).sum).subset ?_
  rintro x ⟨s, ⟨hn, hon⟩, rfl⟩
  refine ⟨s.trigonIndex.attach.map fun (t : { t // t ∈ s.trigonIndex }) i =>
    ⟨s.vex t.1 i, hon _ ⟨t.1, t.2, i, rfl⟩⟩, by simp [hn], ?_⟩
  simp only [List.map_map, potential, total]
  congr 1
  exact List.attach_map_val (f := fun t => lifted3 (s.vex t))

variable [LinearOrder K]

/-- The number of queued ties. -/
def ties (s : Net K) : ℕ := s.queue.countP fun n => s.Tie n.side

variable [FloorRing K]

section Flip

variable {s s' : Net K} {edge : QueueNode} {p2 : TrigonRef} {vid1 : Fin 3}

/-- A flip lowers the lifted volume by the determinant of its edge. -/
lemma changeEdge_potential (h : s.Adjacent) (ht : s.Live edge.trigon)
    (hl : s.link (edge.trigon, edge.vid) = some (p2, vid1))
    (hone : s.SharesOneSide edge.trigon edge.vid) (hr : s.changeEdge edge = .ok s') :
    s'.potential = s.potential - s.determinant edge.trigon p2 vid1 := by
  have hsum := changeEdge_total h ht hl hone hr lifted3
  obtain ⟨e1, e2⟩ := h.ends _ _ _ _ hl
  rw [← lifted3_at (s.vex edge.trigon) edge.vid, ← lifted3_at (s.vex p2) vid1, e1, e2] at hsum
  have hflip := flip_lifted (s.vex edge.trigon edge.vid).xy (s.vex edge.trigon (edge.vid + 1)).xy
    (s.vex edge.trigon (edge.vid + 2)).xy (s.vex p2 vid1).xy
  rw [determinant_at] at hflip
  simp only [lifted3, Matrix.cons_val_zero, Matrix.cons_val_one, Matrix.cons_val_two,
    Matrix.tail_cons, Matrix.head_cons] at hsum
  unfold potential
  linear_combination hsum + hflip

/-- A flip keeps the number of trigons. -/
lemma changeEdge_length [IsStrictOrderedRing K] (h : s.Adjacent) (ht : s.Live edge.trigon)
    (hl : s.link (edge.trigon, edge.vid) = some (p2, vid1))
    (hone : s.SharesOneSide edge.trigon edge.vid) (hr : s.changeEdge edge = .ok s') :
    s'.trigonIndex.length = s.trigonIndex.length := by
  have hsum := changeEdge_total h ht hl hone hr fun _ => 1
  have hlength : ∀ s : Net K, s.total (fun _ => 1) = (s.trigonIndex.length : K) := by
    intro s
    simp [total]
  rw [hlength, hlength] at hsum
  exact_mod_cast add_right_cancel hsum

end Flip

variable [IsStrictOrderedRing K] {s s' : Net K}

omit [IsStrictOrderedRing K] in
/-- A tie at an edge of the flip makes the flip recurring. -/
lemma TieFlip.recurring_of_near {edge : QueueNode} {p2 : TrigonRef} {vid1 : Fin 3}
    (h : TieFlip s edge p2 vid1 s') {a b : TrigonRef × Fin 3} (ha : s.Live a.1)
    (hab : s.link a = some b) (ht : s.Tie a) (hv : a ≠ edge.side) (hv1 : a ≠ (p2, vid1))
    (hnear : a.1 ∈ [edge.trigon, p2] ∨ b.1 ∈ [edge.trigon, p2]) : s.RecurringTie edge.side := by
  have hedge := (tie_iff h.link).mpr h.tie
  have hback := (h.adjacent.symmetric a b ha hab).2
  rcases hnear with hin | hin
  · exact .of_outer h.link hedge hin hv hv1 ht
  · refine .of_outer h.link hedge hin ?_ ?_ ((tie_across h.adjacent.toWired hab hback).mp ht)
    · rintro rfl
      exact hv1 (Option.some.inj (hback.symm.trans h.link))
    · rintro rfl
      have hedge' := (h.adjacent.symmetric _ _ h.live h.link).2
      exact hv (Option.some.inj (hback.symm.trans hedge'))

/-- An iteration of `Process` on a valid net drops the first edge or flips it, and flips a tie
in the sense of `TieFlip`. -/
lemma iteration_cases (h : s.Valid) (hr : Iteration processBody s s') :
    ∃ edge rest p2 vid1, s.queue = edge :: rest ∧ s.Live edge.trigon ∧
      s.link edge.side = some (p2, vid1) ∧
      ((s.determinant edge.trigon p2 vid1 < 0 ∧
          s' = ({ s with queue := rest } : Net K).setEtc edge.trigon edge.vid none) ∨
        (0 < s.determinant edge.trigon p2 vid1 ∧
          s'.potential = s.potential - s.determinant edge.trigon p2 vid1) ∨
        (s'.potential = s.potential ∧
          TieFlip ({ s with queue := rest } : Net K) edge p2 vid1 s')) := by
  obtain ⟨edge, rest, p2, vid1, hs, hl, hlink, hcase⟩ := processBody_cases h.queued hr
  refine ⟨edge, rest, p2, vid1, hs, hl, hlink, ?_⟩
  rcases hcase with ⟨hdet, hr⟩ | ⟨hdet, rfl⟩
  · have h1 : ({ s with queue := rest } : Net K).Adjacent := h.adjacent.of_queue s.nodeCount s.etc rest
    have hp1 : ({ s with queue := rest } : Net K).Positive := h.positive
    have hpot := changeEdge_potential h1 hl hlink (hp1.sharesOneSide h1 hl edge.vid) hr
    change s'.potential = s.potential - s.determinant edge.trigon p2 vid1 at hpot
    rcases hdet.lt_or_eq with hpos | hzero
    · exact .inr (.inl ⟨hpos, hpot⟩)
    · exact .inr (.inr ⟨by rw [hpot, ← hzero, sub_zero], ⟨h1, hp1, hl, hlink, hzero.symm, hr⟩⟩)
  · exact .inl ⟨hdet, rfl⟩

/-- Taking out an edge that is no recurring tie lowers the volume, the number of queued ties
or the length of the queue. -/
theorem processBody_decreases (h : s.Valid) (hrec : ¬s.TakesRecurringTie)
    (hr : Iteration processBody s s') : s'.potential < s.potential ∨ s'.potential = s.potential ∧
      (s'.ties < s.ties ∨ s'.ties ≤ s.ties ∧ s'.queue.length < s.queue.length) := by
  obtain ⟨edge, rest, p2, vid1, hs, hl, hlink, ⟨hdet, rfl⟩ | ⟨hdet, hpot⟩ | ⟨hpot, hflip⟩⟩ :=
    iteration_cases h hr
  · refine .inr ⟨rfl, .inr ⟨?_, by simp [hs, setEtc]⟩⟩
    unfold ties
    rw [hs]
    exact (List.sublist_cons_self edge rest).countP_le
  · left
    rw [hpot]
    exact sub_lt_self _ hdet
  · refine .inr ⟨hpot, .inl ?_⟩
    have hedge : s.Tie edge.side := (tie_iff hlink).mpr hflip.tie
    have hnot : ¬({ s with queue := rest } : Net K).RecurringTie edge.side := fun hr =>
      hrec ⟨edge, by simp [hs], hr⟩
    obtain ⟨-, new, hqueue, hin, -⟩ := changeEdge_queue hflip.adjacent (h.queued.out hs) hl hlink
      hflip.sharesOneSide hflip.done
    -- the new nodes are no ties, the old ones are ties as before
    have hnew : new.countP (fun n => s'.Tie n.side) = 0 := by
      rw [List.countP_eq_zero]
      intro n hn
      simpa using hflip.offered_not_tie hnot (hin n hn)
    have hkept : (rest.filter fun n => ¬({ s with queue := rest } : Net K).Near [edge.trigon, p2]
        n.side).countP (fun n => s'.Tie n.side) ≤ rest.countP fun n => s.Tie n.side := by
      refine le_trans (List.countP_mono_left fun n hn => ?_) List.filter_sublist.countP_le
      rw [List.mem_filter] at hn
      have hfar := of_decide_eq_true hn.2
      have hnl := (h.queued.recorded n (by simp [hs, hn.1])).1
      simp only [decide_eq_true_eq]
      exact (hflip.tie_kept (c := n.side) hnl fun hin => hfar (.inl hin)).mp
    unfold ties
    rw [hqueue, List.countP_append, hnew, add_zero, hs, List.countP_cons_of_pos (by simp [hedge])]
    exact Nat.lt_succ_of_le hkept

/-- The number of trigons stays. -/
lemma processBody_length (h : s.Valid) (hr : Iteration processBody s s') :
    s'.trigonIndex.length = s.trigonIndex.length := by
  obtain ⟨edge, rest, p2, vid1, hs, hl, hlink, ⟨-, hr⟩ | ⟨-, rfl⟩⟩ := processBody_cases h.queued hr
  · have h1 : ({ s with queue := rest } : Net K).Adjacent := h.adjacent.of_queue s.nodeCount s.etc rest
    have hp1 : ({ s with queue := rest } : Net K).Positive := h.positive
    have hlen := changeEdge_length h1 hl hlink (hp1.sharesOneSide h1 hl edge.vid) hr
    exact hlen
  · rfl

/-- `Process` returns if it takes out no recurring tie any more. -/
theorem returns_of_no_recurring (h : s.Valid)
    (hno : ∀ s₁, Iterates processBody s s₁ → ¬s₁.TakesRecurringTie) :
    ∃ r, Returns Stop.running processBody s r := by
  let I : Net K → Prop := fun s₁ => (s₁.Valid ∧ Iterates processBody s s₁) ∧
    s₁.trigonIndex.length = s.trigonIndex.length ∧ ∀ v, s₁.OnNet v → s.OnNet v
  have hfin : {x | ∃ s₁, I s₁ ∧ s₁.potential = x}.Finite :=
    (potential_finite s.onNet_finite s.trigonIndex.length).subset fun x ⟨s₁, hs₁, hx⟩ =>
      ⟨s₁, hs₁.2, hx⟩
  refine returns_of_potential (I := I) potential ties (fun s => s.queue.length) hfin
    (fun s₁ ⟨⟨hv, hit⟩, hlen, hon⟩ => ?_) ⟨⟨h, .refl⟩, rfl, fun v hv => hv⟩
  by_cases hempty : s₁.queue = []
  · exact .inl (processBody_exit.mpr hempty)
  · obtain ⟨s₂, hstep⟩ := processBody_completes hv hempty
    refine .inr ⟨s₂, hstep, ⟨⟨hv.iteration hstep, hit.tail hstep⟩,
      (processBody_length hv hstep).trans hlen,
      fun v hv2 => hon v ((processBody_onNet hv hstep v).mp hv2)⟩,
      processBody_decreases hv (hno s₁ hit) hstep⟩

/-- On a settled net a queued recurring tie keeps `Process` running. -/
theorem settled_recurring (h : s.Valid) (hset : s.Settled) {n : QueueNode} (hn : n ∈ s.queue)
    (hrec : s.RecurringTie n.side) (hr : Iteration processBody s s') :
    s'.Settled ∧ ∃ n ∈ s'.queue, s'.RecurringTie n.side := by
  obtain ⟨edge, rest, p2, vid1, hs, hl, hlink, ⟨hdet, rfl⟩ | ⟨hdet, -⟩ | ⟨-, hflip⟩⟩ :=
    iteration_cases h hr
  · refine ⟨hset, n, ?_, hrec⟩
    rw [hs, List.mem_cons] at hn
    refine hn.resolve_left ?_
    rintro rfl
    exact hdet.ne ((tie_iff hlink).mp hrec.1)
  · exact absurd (hset edge.side _ hl hlink) (not_le.mpr hdet)
  · refine ⟨hflip.settled hset, ?_⟩
    by_cases hedge : s.RecurringTie edge.side
    · exact hflip.recurring_queued (h.queued.out hs) hedge
    · obtain ⟨hnl, hne, hetc⟩ := h.queued.recorded n hn
      obtain ⟨b, hb⟩ := Option.ne_none_iff_exists'.mp hne
      have hv : n.side ≠ edge.side := fun he => hedge (he ▸ hrec)
      have hv1 : n.side ≠ (p2, vid1) := by
        intro he
        have hfree := h.queued.once edge.side (p2, vid1) hl hlink
          (by rw [show s.etc edge.side.1 edge.side.2 = some edge from
            (h.queued.recorded edge (by simp [hs])).2.2]; simp)
        rw [← he] at hfree
        exact absurd (hetc.symm.trans hfree) (by simp)
      have hfar : ¬(n.side.1 ∈ [edge.trigon, p2] ∨ b.1 ∈ [edge.trigon, p2]) := fun hnear =>
        hedge (hflip.recurring_of_near (a := n.side) hnl hb hrec.1 hv hv1 hnear)
      rw [not_or] at hfar
      obtain ⟨-, new, hqueue, -, -⟩ := changeEdge_queue hflip.adjacent (h.queued.out hs) hl hlink
        hflip.sharesOneSide hflip.done
      refine ⟨n, ?_, (hflip.recurring_kept (a := n.side) hnl hb hfar.1 hfar.2).mpr hrec⟩
      rw [hs, List.mem_cons] at hn
      rw [hqueue, List.mem_append, List.mem_filter]
      refine .inl ⟨hn.resolve_left fun he => hv (congrArg QueueNode.side he), decide_eq_true ?_⟩
      rintro (hin | ⟨c, hc, hin⟩)
      · exact hfar.1 hin
      · obtain rfl := Option.some.inj (hb.symm.trans hc)
        exact hfar.2 hin

/-- Without a queued recurring tie a settled net never gets one. -/
theorem settled_not_recurring (h : s.Valid) (hset : s.Settled)
    (hno : ∀ n ∈ s.queue, ¬s.RecurringTie n.side) (hr : Iteration processBody s s') :
    s'.Settled ∧ ∀ n ∈ s'.queue, ¬s'.RecurringTie n.side := by
  obtain ⟨edge, rest, p2, vid1, hs, hl, hlink, ⟨hdet, rfl⟩ | ⟨hdet, -⟩ | ⟨-, hflip⟩⟩ :=
    iteration_cases h hr
  · exact ⟨hset, fun n hn => hno n (by rw [hs]; exact List.mem_cons_of_mem _ hn)⟩
  · exact absurd (hset edge.side _ hl hlink) (not_le.mpr hdet)
  · refine ⟨hflip.settled hset, fun n hn => ?_⟩
    obtain ⟨-, new, hqueue, hin, -⟩ := changeEdge_queue hflip.adjacent (h.queued.out hs) hl hlink
      hflip.sharesOneSide hflip.done
    rw [hqueue, List.mem_append, List.mem_filter] at hn
    rcases hn with ⟨hn, hfar⟩ | hn
    · have hn' : n ∈ s.queue := by
        rw [hs]
        exact List.mem_cons_of_mem _ hn
      obtain ⟨hnl, hne, -⟩ := h.queued.recorded n hn'
      obtain ⟨b, hb⟩ := Option.ne_none_iff_exists'.mp hne
      have hfar' := of_decide_eq_true hfar
      rw [hflip.recurring_kept (a := n.side) hnl hb (fun hin => hfar' (.inl hin))
        fun hin => hfar' (.inr ⟨b, hb, hin⟩)]
      exact hno n hn'
    · exact fun hrec => hflip.offered_not_tie (hno edge (by simp [hs])) (hin n hn) hrec.1

lemma Valid.iterates (h : s.Valid) (hr : Iterates processBody s s') : s'.Valid :=
  hr.invariant (fun _ _ hv hstep => hv.iteration hstep) h

/-- On a settled net `Process` returns exactly when no recurring tie is queued. -/
theorem settled_returns_iff (h : s.Valid) (hset : s.Settled) :
    (∃ r, Returns Stop.running processBody s r) ↔ ∀ n ∈ s.queue, ¬s.RecurringTie n.side := by
  constructor
  · rintro ⟨r, hr⟩ n hn hrec
    refine not_returns (I := fun s => s.Valid ∧ s.Settled ∧ ∃ n ∈ s.queue, s.RecurringTie n.side)
      (fun s₁ ⟨hv, hset, n, hn, hrec⟩ => ?_) ⟨h, hset, n, hn, hrec⟩ r hr
    obtain ⟨s₂, hstep⟩ := processBody_completes hv (List.ne_nil_of_mem hn)
    exact ⟨s₂, hstep, hv.iteration hstep, settled_recurring hv hset hn hrec hstep⟩
  · intro hno
    refine returns_of_no_recurring h fun s₁ hit => ?_
    have hinv := hit.invariant
      (I := fun s => s.Valid ∧ s.Settled ∧ ∀ n ∈ s.queue, ¬s.RecurringTie n.side)
      (fun _ _ hi hstep => ⟨hi.1.iteration hstep, settled_not_recurring hi.1 hi.2.1 hi.2.2 hstep⟩)
      ⟨h, hset, hno⟩
    rintro ⟨n, hn, hrec⟩
    exact hinv.2.2 n (List.mem_of_mem_head? hn) hrec

/-- Five vertices of the net lie on one circle. -/
def FiveCocircular (s : Net K) : Prop := ∃ (o : K × K) (r : K) (l : List (K × K)), l.Nodup ∧
  l.length = 5 ∧ ∀ p ∈ l, dist2 o p = r ∧ ∃ v, s.OnNet v ∧ v.xy = p

omit [FloorRing K] [IsStrictOrderedRing K] in
lemma ne_of_orient {a b c : K × K} (h : 0 < orient a b c) : a ≠ b ∧ b ≠ c ∧ a ≠ c := by
  refine ⟨?_, ?_, ?_⟩ <;> rintro rfl <;> simp [orient, mul_comm] at h

/-- Two ties at one trigon put five vertices on its circle. -/
lemma five_of_ties (h : s.Valid) {t : TrigonRef} {i k : Fin 3} {b d : TrigonRef × Fin 3}
    (ht : s.Live t) (hb : s.link (t, i) = some b) (hdet : s.determinant t b.1 b.2 = 0) (hk : k ≠ i)
    (hd : s.link (t, k) = some d) (hdet' : s.determinant t d.1 d.2 = 0) : s.FiveCocircular := by
  have hon : ∀ u j, s.Live u → ∃ v, s.OnNet v ∧ v.xy = (s.vex u j).xy := fun u j hu =>
    ⟨s.vex u j, ⟨u, hu, j, rfl⟩, rfl⟩
  have hbl := (h.adjacent.symmetric _ _ ht hb).1
  have hdl := (h.adjacent.symmetric _ _ ht hd).1
  have hxyz := h.positive.area_at ht i
  obtain ⟨hwzy, hxyw, hwzx⟩ := h.positive.convex h.adjacent ht hb hdet.ge
  obtain ⟨he1, he2, -⟩ := h.positive.convex h.adjacent ht hd hdet'.ge
  rw [← determinant_at s t b.1 i] at hdet
  rw [← determinant_at s t d.1 i] at hdet'
  obtain ⟨o, hxy, hyz⟩ := exists_center hxyz.ne'
  -- a vertex with a zero determinant is on the circle of the trigon
  have hcircle : ∀ p, inCircle (s.vex t i).xy (s.vex t (i + 1)).xy (s.vex t (i + 2)).xy p = 0 →
      dist2 o p = dist2 o (s.vex t i).xy := by
    intro p hp
    rw [inCircle_of_center (r := dist2 o (s.vex t i).xy) rfl hxy.symm (hxy.trans hyz).symm,
      mul_eq_zero, sub_eq_zero, or_iff_right hxyz.ne'] at hp
    exact hp.symm
  -- the fifth vertex lies beyond another side than the fourth
  have hfifth : (s.vex d.1 d.2).xy ≠ (s.vex t i).xy ∧ (s.vex d.1 d.2).xy ≠ (s.vex t (i + 1)).xy ∧
      (s.vex d.1 d.2).xy ≠ (s.vex t (i + 2)).xy ∧ (s.vex d.1 d.2).xy ≠ (s.vex b.1 b.2).xy := by
    rcases (side_cases i k).resolve_left hk with rfl | rfl <;>
      simp only [side_one_one, side_one_two, side_two_one, side_two_two] at he1 he2
    · refine ⟨(ne_of_orient he1).1, (ne_of_orient he2).2.2.symm, (ne_of_orient he1).2.2, fun he => ?_⟩
      have hopp : orient (s.vex b.1 b.2).xy (s.vex t i).xy (s.vex t (i + 2)).xy =
          -orient (s.vex b.1 b.2).xy (s.vex t (i + 2)).xy (s.vex t i).xy := by
        simp only [orient]
        ring
      rw [he, hopp] at he1
      linarith
    · refine ⟨(ne_of_orient he1).2.2, (ne_of_orient he1).1, (ne_of_orient he2).2.2.symm, fun he => ?_⟩
      have hopp : orient (s.vex b.1 b.2).xy (s.vex t (i + 1)).xy (s.vex t i).xy =
          -orient (s.vex t i).xy (s.vex t (i + 1)).xy (s.vex b.1 b.2).xy := by
        simp only [orient]
        ring
      rw [he, hopp] at he1
      linarith
  obtain ⟨hex, hey, hez, hew⟩ := hfifth
  obtain ⟨hxney, hynez, hxnez⟩ := ne_of_orient hxyz
  obtain ⟨hwz, -, hwy⟩ := ne_of_orient hwzy
  have hxw := (ne_of_orient hxyw).2.2
  refine ⟨o, dist2 o (s.vex t i).xy, [(s.vex t i).xy, (s.vex t (i + 1)).xy, (s.vex t (i + 2)).xy,
    (s.vex b.1 b.2).xy, (s.vex d.1 d.2).xy], ?_, rfl, ?_⟩
  · simp only [List.nodup_cons, List.mem_cons, List.not_mem_nil, or_false, not_or,
      not_false_eq_true, List.nodup_nil, and_true]
    exact ⟨⟨hxney, hxnez, hxw, hex.symm⟩, ⟨hynez, hwy.symm, hey.symm⟩, ⟨hwz.symm, hez.symm⟩, hew.symm⟩
  · simp only [List.mem_cons, List.not_mem_nil, or_false, forall_eq_or_imp, forall_eq]
    exact ⟨⟨trivial, hon t i ht⟩, ⟨hxy.symm, hon t (i + 1) ht⟩, ⟨(hxy.trans hyz).symm, hon t (i + 2) ht⟩,
      ⟨hcircle _ hdet, hon b.1 b.2 hbl⟩, ⟨hcircle _ hdet', hon d.1 d.2 hdl⟩⟩

/-- A recurring tie needs five vertices on one circle. -/
theorem RecurringTie.fiveCocircular (h : s.Valid) {a : TrigonRef × Fin 3} (ha : s.Live a.1)
    (hrec : s.RecurringTie a) : s.FiveCocircular := by
  obtain ⟨⟨b, hab, hdet⟩, b', hab', k, hk⟩ := hrec
  obtain rfl := Option.some.inj (hab.symm.trans hab')
  have hback := h.adjacent.symmetric a b ha hab
  rcases hk with ⟨hk, d, hd, hdet'⟩ | ⟨hk, d, hd, hdet'⟩
  · exact five_of_ties h (i := a.2) ha hab hdet hk hd hdet'
  · refine five_of_ties h (i := b.2) hback.1 hback.2 ?_ hk hd hdet'
    rw [determinant_across h.adjacent.toWired (i := a.2) (j := b.2) hab]
    exact hdet

/-- `Process` returns on the net. -/
def ProcessReturns (s : Net K) : Prop := ∃ fuel s', s.process fuel = .ok s'

omit [IsStrictOrderedRing K] in
lemma processReturns_iff : s.ProcessReturns ↔ ∃ r, Returns Stop.running processBody s r := by
  constructor
  · rintro ⟨fuel, r, h⟩
    exact ⟨r, fuel, h⟩
  · rintro ⟨r, fuel, h⟩
    exact ⟨fuel, r, h⟩

instance (s : Net K) : Decidable s.Settled :=
  decidable_of_iff (∀ t ∈ s.trigonIndex, ∀ i, ∀ b ∈ s.link (t, i), s.determinant t b.1 b.2 ≤ 0)
    ⟨fun h a b ha hab => h a.1 ha a.2 b hab, fun h t ht i b hb => h (t, i) b ht hb⟩

omit [IsStrictOrderedRing K] in
/-- The triangulation of a start polygon is valid once its trigons are positive and on the grid. -/
lemma triangulize_valid {p : ListParam K} {vs : List (Vertex K)} {fuel : ℕ}
    (h : Polygon.triangulize fuel (create p) (Polygon.ofVertices vs) = .ok s)
    (hpos : ∀ t ∈ s.trigonIndex, 0 < area2 (s.vex t))
    (hgrid : ∀ t ∈ s.trigonIndex, ∀ i, s.listp.Covers (s.vex t i)) : s.Valid := by
  obtain ⟨ha, hq, -⟩ := triangulize_queued h
  refine ⟨ha, hpos, hq, ?_⟩
  rintro v ⟨t, ht, i, rfl⟩
  exact hgrid t ht i

/-- Five points of the circle of radius five. -/
def pentagon : List (Vertex ℚ) :=
  [⟨0, 0, ⟨5, 0, 0⟩⟩, ⟨1, 1, ⟨3, 4, 0⟩⟩, ⟨2, 2, ⟨-3, 4, 0⟩⟩, ⟨3, 3, ⟨-5, 0, 0⟩⟩, ⟨4, 4, ⟨0, -5, 0⟩⟩]

end Net

end MTalk.Triangle
