import MTalk.Triangle.EdgeQueue

/-!
# The edge queue along runs

`InsertMid`, `ChangeEdge`, `RemoveEdge` and `appendTrigon` keep the queue invariant, and so
does every iteration of `Process` on a positive net.
-/

namespace MTalk.Triangle

open SideGluing WhileLoop

namespace Net

variable {K : Type}

/-- No node is recorded without being in the list. -/
abbrev Queued (s : Net K) : Prop := s.QueueInv fun _ => False

section New

variable {s s0 : Net K} {out : QueueNode → Prop}

/-- Creating objects does not touch the queue. -/
lemma QueueInv.of_new (hq : s.QueueInv out) (h : s.Adjacent) (hi : s0.trigonIndex = s.trigonIndex)
    (hqueue : s0.queue = s.queue)
    (hold : ∀ a : TrigonRef × Fin 3, s.Live a.1 →
      s0.link a = s.link a ∧ s0.etc a.1 a.2 = s.etc a.1 a.2) : s0.QueueInv out := by
  have hlive : ∀ u, s0.Live u ↔ s.Live u := by
    intro u
    unfold Live
    rw [hi]
  refine ⟨fun n hn => ?_, fun t i n ht hn => ?_, fun a b ha hab hne => ?_, ?_, fun t i n ht hn => ?_⟩
  · obtain ⟨hl, hne, he⟩ := hq.recorded n (hqueue ▸ hn)
    obtain ⟨hlink, hetc⟩ := hold n.side hl
    exact ⟨(hlive _).mpr hl, hlink ▸ hne, hetc.trans he⟩
  · rw [(hold (t, i) ((hlive t).mp ht)).2] at hn
    exact hq.own t i n ((hlive t).mp ht) hn
  · have ha' := (hlive _).mp ha
    rw [(hold a ha').1] at hab
    rw [(hold a ha').2] at hne
    rw [(hold b (h.symmetric a b ha' hab).1).2]
    exact hq.once a b ha' hab hne
  · rw [hqueue]
    exact hq.nodup
  · rw [(hold (t, i) ((hlive t).mp ht)).2] at hn
    rw [hqueue]
    exact hq.listed t i n ((hlive t).mp ht) hn

/-- An unglued side of a live trigon has nothing recorded. -/
lemma QueueInv.etc_of_free (hq : s.Queued) {a : TrigonRef × Fin 3} (ha : s.Live a.1)
    (hfree : s.link a = none) : s.etc a.1 a.2 = none := by
  by_contra hne
  obtain ⟨n, hn⟩ := Option.ne_none_iff_exists'.mp hne
  have hin := (hq.listed _ _ n ha hn).resolve_right id
  exact (hq.recorded n hin).2.1 (by rw [hq.own _ _ n ha hn]; exact hfree)

lemma QueueInv.mono {out' : QueueNode → Prop} (hq : s.QueueInv out) (h : ∀ n, out n → out' n) :
    s.QueueInv out' :=
  ⟨hq.recorded, hq.own, hq.once, hq.nodup, fun t i n ht hn => (hq.listed t i n ht hn).imp_right (h n)⟩

lemma near_congr {olds : List TrigonRef} {a : TrigonRef × Fin 3} (h : s0.link a = s.link a) :
    s0.Near olds a ↔ s.Near olds a := by
  unfold Near
  rw [h]

end New

section Steps

variable [Field K] [LinearOrder K] [FloorRing K] {s s' : Net K} {out : QueueNode → Prop}

/-- Replacing trigons and offering the outer edges of the new ones keeps the queue invariant. -/
theorem rebuild_offered {s0 s1 s2 : Net K} {olds news : List TrigonRef}
    {sides : List (TrigonRef × Fin 3)} (h : s.Adjacent) (hq : s.QueueInv out) (h0 : s0.Adjacent)
    (hi : s0.trigonIndex = s.trigonIndex) (hqueue : s0.queue = s.queue)
    (hold : ∀ a : TrigonRef × Fin 3, s.Live a.1 →
      s0.link a = s.link a ∧ s0.etc a.1 a.2 = s.etc a.1 a.2)
    (holds : ∀ t ∈ olds, s.Live t) (hnd : olds.Nodup) (hfresh : ∀ t ∈ news, ¬s.Live t)
    (hnone : ∀ t ∈ news, ∀ i, s0.etc t i = none) (h1 : olds.foldlM deleteTrigon s0 = .ok s1)
    (h2 : news.foldlM insertTrigon s1 = .ok s2) (hadj : s2.Adjacent)
    (hreb : Rebuilt s0 olds news s2) (hsides : ∀ a ∈ sides, a.1 ∈ news) (hnds : sides.Nodup)
    (houter : ∀ a ∈ sides, ∀ b, s0.link a = some b → s.Live b.1 ∧
      (s.etc b.1 b.2 = none ∨ s.Near olds b)) (ho : s2.OfferedAll sides s') :
    s'.QueueInv (fun n => out n ∧ n.trigon ∉ olds) ∧
      s2.Enqueued (s.queue.filter fun n => ¬s.Near olds n.side) sides s' := by
  have hlive0 : ∀ u, s0.Live u ↔ s.Live u := by
    intro u
    unfold Live
    rw [hi]
  have hq0 := hq.of_new h hi hqueue hold
  obtain ⟨hq2, hqueue2, hetc2⟩ := rebuild_queue h0 hq0 (fun t ht => (hlive0 t).mpr (holds t ht)) hnd
    (fun t ht hl => hfresh t ht ((hlive0 t).mp hl)) hnone h1 h2 hadj hreb
  have hlink2 : ∀ a ∈ sides, s2.link a = s0.link a := fun a ha => hreb.links.new a (hsides a ha)
  have hl2 : ∀ a ∈ sides, s2.Live a.1 := fun a ha =>
    (hreb.live_iff h0.nodup _).mpr (.inr (hsides a ha))
  have hfree : ∀ a ∈ sides, s2.Unrecorded a := by
    intro a ha
    refine ⟨hetc2 a (.inl (hnone _ (hsides a ha) _)), fun b hb => ?_⟩
    rw [hlink2 a ha] at hb
    obtain ⟨hbl, hb'⟩ := houter a ha b hb
    obtain ⟨hlinkb, hetcb⟩ := hold b hbl
    refine hetc2 b (hb'.imp (fun he => hetcb.trans he) fun hn => ?_)
    exact ⟨(hlive0 _).mpr hbl, (near_congr hlinkb).mpr hn⟩
  have hsep : ∀ a ∈ sides, ∀ b, s2.link a = some b → b ∉ sides := by
    intro a ha b hb hbs
    rw [hlink2 a ha] at hb
    exact hfresh _ (hsides b hbs) (houter a ha b hb).1
  obtain ⟨hq', new, hqueue', hin, hall⟩ := ho.queueInv hadj hq2 hl2 hnds hfree hsep
  refine ⟨hq', new, ?_, hin, hall⟩
  rw [hqueue', hqueue2, hqueue]
  congr 1
  refine List.filter_congr fun n hn => ?_
  rw [decide_eq_decide, near_congr (hold n.side (hq.recorded n hn).1).1]

/-- `InsertMid` replaces the queued edges of the old trigon by the outer edges of the new ones. -/
theorem insertMid_queue {v : Vertex K} {t : TrigonRef} (h : s.Adjacent) (hq : s.Queued)
    (ht : s.Live t) (hr : s.insertMid v t = .ok s') :
    s'.Queued ∧ s'.Enqueued (s.queue.filter fun n => ¬s.Near [t] n.side)
      [(s.mids 0, 0), (s.mids 1, 1), (s.mids 2, 2)] s' := by
  obtain ⟨hadj', hreb'⟩ := insertMid_ok h ht hr
  obtain ⟨s1, s2, h1, h2, rfl⟩ := insertMid_eq_ok.mp hr
  obtain ⟨n, e, q, he⟩ := enterEdges_eq s2 [(s.mids 0, 0), (s.mids 1, 1), (s.mids 2, 2)]
  rw [he] at hadj' hreb'
  have hfresh : ∀ u ∈ [s.mids 0, s.mids 1, s.mids 2], ∃ i, u = s.mids i := by
    intro u hu
    simpa [Fin.exists_fin_succ] using hu
  have hsides : ∀ a ∈ [(s.mids 0, (0 : Fin 3)), (s.mids 1, 1), (s.mids 2, 2)],
      ∃ i, a = (s.mids i, i) := by
    intro a ha
    simpa [Fin.exists_fin_succ] using ha
  have hnds : [(s.mids 0, (0 : Fin 3)), (s.mids 1, 1), (s.mids 2, 2)].Nodup :=
    List.Nodup.of_map Prod.snd (by simp only [List.map_cons, List.map_nil]; decide)
  have holds : ∀ u ∈ [t], s.Live u := by
    simp only [List.mem_singleton, forall_eq]
    exact ht
  obtain ⟨hq', henq⟩ := rebuild_offered h hq (h.newMids v (t := t)) rfl rfl
    (fun a ha => by
      have hne := s.ne_mids (h.old a.1 ha)
      exact ⟨newMids_link_old v t hne, congrFun (s.newMids_old v t hne).2.2.2 a.2⟩)
    holds (by simp)
    (fun u hu hl => by
      obtain ⟨i, rfl⟩ := hfresh u hu
      exact s.ne_mids (h.old _ hl) i rfl)
    (fun u hu j => by
      obtain ⟨i, rfl⟩ := hfresh u hu
      rw [(s.newMids_new v t i).2.2.2]) h1 h2
    (hadj'.of_queue s2.nodeCount s2.etc s2.queue) (hreb'.of_queue s2.nodeCount s2.etc s2.queue)
    (fun a ha => by
      obtain ⟨i, rfl⟩ := hsides a ha
      fin_cases i <;> simp)
    hnds
    (fun a ha b hb => by
      obtain ⟨i, rfl⟩ := hsides a ha
      rw [newMids_link, if_neg (by simp)] at hb
      obtain ⟨hbl, hback⟩ := h.symmetric (t, i) b ht hb
      exact ⟨hbl, .inr (.inr ⟨(t, i), hback, by simp⟩)⟩) (enterEdges_offered _)
  refine ⟨hq'.mono (fun n hn => hn.1), ?_⟩
  have hlink : ([(s.mids 0, 0), (s.mids 1, 1), (s.mids 2, 2)].foldl
      (fun s a => s.enterEdge a.1 a.2) s2).link = s2.link := by
    rw [he]
    rfl
  unfold Enqueued at henq ⊢
  rw [hlink]
  exact henq

/-- The outer sides of the two new trigons of a flip. -/
def outerSides (s : Net K) : List (TrigonRef × Fin 3) :=
  [(s.trigonCount, 0), (s.trigonCount, 2), (s.trigonCount + 1, 0), (s.trigonCount + 1, 2)]

omit [Field K] [LinearOrder K] [FloorRing K] in
lemma outerSides_new {a : TrigonRef × Fin 3} (ha : a ∈ s.outerSides) :
    a.1 ∈ [s.trigonCount, s.trigonCount + 1] := by
  simp only [outerSides, List.mem_cons, List.not_mem_nil, or_false] at ha
  rcases ha with rfl | rfl | rfl | rfl <;> simp

omit [LinearOrder K] [FloorRing K] in
/-- An outer side of a new trigon points where an outer side of an old one pointed. -/
lemma flipSide_outer {p1 p2 : TrigonRef} {vid vid1 : Fin 3} (hne : p2 ≠ p1)
    {c : TrigonRef × Fin 3} (hc : c.1 ∈ [p1, p2]) (hv : c ≠ (p1, vid)) (hv1 : c ≠ (p2, vid1)) :
    s.flipSide p1 vid vid1 c ∈ s.outerSides ∧
      (s.newPair p1 vid p2 vid1).link (s.flipSide p1 vid vid1 c) = s.link c := by
  have h21 : ∀ i : Fin 3, i + 2 ≠ i + 1 := by decide
  obtain ⟨u, k⟩ := c
  simp only [List.mem_cons, List.not_mem_nil, or_false] at hc
  rcases hc with rfl | rfl
  · rcases side_cases vid k with rfl | rfl | rfl
    · exact absurd rfl hv
    · simp only [flipSide, if_true, newPair_link_second]
      exact ⟨by simp [outerSides], rfl⟩
    · simp only [flipSide, if_true, h21, if_false, newPair_link_first]
      exact ⟨by simp [outerSides], rfl⟩
  · rcases side_cases vid1 k with rfl | rfl | rfl
    · exact absurd rfl hv1
    · simp only [flipSide, hne, if_false, if_true, newPair_link_first]
      exact ⟨by simp [outerSides], rfl⟩
    · simp only [flipSide, hne, if_false, h21, newPair_link_second]
      exact ⟨by simp [outerSides], rfl⟩

omit [Field K] [LinearOrder K] [FloorRing K] in
/-- Every outer side of a new trigon arises like that. -/
lemma exists_flipSide {p1 p2 : TrigonRef} (vid vid1 : Fin 3) (hne : p2 ≠ p1)
    {a : TrigonRef × Fin 3} (ha : a ∈ s.outerSides) :
    ∃ c, c.1 ∈ [p1, p2] ∧ c ≠ (p1, vid) ∧ c ≠ (p2, vid1) ∧ s.flipSide p1 vid vid1 c = a := by
  have h21 : ∀ i : Fin 3, i + 2 ≠ i + 1 := by decide
  simp only [outerSides, List.mem_cons, List.not_mem_nil, or_false] at ha
  rcases ha with rfl | rfl | rfl | rfl
  · exact ⟨(p2, vid1 + 1), by simp, by simp [hne], by simp [(side_ne_one vid1).symm], by simp [flipSide, hne]⟩
  · exact ⟨(p1, vid + 2), by simp, by simp [(side_ne_two vid).symm], by simp [hne.symm],
      by simp [flipSide, h21]⟩
  · exact ⟨(p1, vid + 1), by simp, by simp [(side_ne_one vid).symm], by simp [hne.symm], by simp [flipSide]⟩
  · exact ⟨(p2, vid1 + 2), by simp, by simp [hne], by simp [(side_ne_two vid1).symm],
      by simp [flipSide, hne, h21]⟩

/-- `ChangeEdge` replaces the queued edges of the two trigons by the outer edges of the new ones. -/
theorem changeEdge_queue {edge : QueueNode} {p2 : TrigonRef} {vid1 : Fin 3} (h : s.Adjacent)
    (hq : s.QueueInv out) (ht : s.Live edge.trigon)
    (hl : s.link (edge.trigon, edge.vid) = some (p2, vid1))
    (hone : s.SharesOneSide edge.trigon edge.vid) (hr : s.changeEdge edge = .ok s') :
    s'.QueueInv (fun n => out n ∧ n.trigon ∉ [edge.trigon, p2]) ∧
      s'.Enqueued (s.queue.filter fun n => ¬s.Near [edge.trigon, p2] n.side) s.outerSides s' := by
  obtain ⟨hadj', hreb'⟩ := changeEdge_ok h ht hl hone hr
  obtain ⟨s1, s2, h1, h2, rfl⟩ := (changeEdge_eq_ok hl).mp hr
  change Net.Adjacent (s.outerSides.foldl (fun s a => s.enterOuter a.1 a.2) s2) at hadj'
  change Rebuilt _ _ _ (s.outerSides.foldl (fun s a => s.enterOuter a.1 a.2) s2) at hreb'
  change (s.outerSides.foldl (fun s a => s.enterOuter a.1 a.2) s2).QueueInv _ ∧ Enqueued
    (s.outerSides.foldl (fun s a => s.enterOuter a.1 a.2) s2) _ _
    (s.outerSides.foldl (fun s a => s.enterOuter a.1 a.2) s2)
  obtain ⟨n, e, q, he⟩ := enterOuters_eq s2 s.outerSides
  rw [he] at hadj' hreb'
  have hp2 := (h.symmetric _ _ ht hl).1
  have hne : p2 ≠ edge.trigon := (h.known _ _ _ _ hl).2.2
  have hnew : ∀ u, s.Live u → u ≠ s.trigonCount ∧ u ≠ s.trigonCount + 1 := fun u hu =>
    ⟨(h.old u hu).ne, (Nat.lt_add_right 1 (h.old u hu)).ne⟩
  have hnds : s.outerSides.Nodup := by simp [outerSides]
  have holds : ∀ u ∈ [edge.trigon, p2], s.Live u := by
    simp only [List.mem_cons, List.not_mem_nil, or_false, forall_eq_or_imp, forall_eq]
    exact ⟨ht, hp2⟩
  obtain ⟨hq', henq⟩ := rebuild_offered h hq (h.newPair hl) rfl rfl
    (fun a ha => by
      obtain ⟨h0, h1⟩ := hnew a.1 ha
      exact ⟨newPair_link_old _ _ _ _ h0 h1, congrFun (s.newPair_old _ _ _ _ h0 h1).2.2.2 a.2⟩)
    holds
    (by simpa using hne.symm)
    (fun u hu hlu => by
      simp only [List.mem_cons, List.not_mem_nil, or_false] at hu
      exact hu.elim (hnew u hlu).1 (hnew u hlu).2)
    (fun u hu j => by
      simp only [List.mem_cons, List.not_mem_nil, or_false] at hu
      rcases hu with rfl | rfl
      · rw [(s.newPair_first _ _ _ _).2.2.2]
      · rw [(s.newPair_second _ _ _ _).2.2.2]) h1 h2
    (hadj'.of_queue s2.nodeCount s2.etc s2.queue) (hreb'.of_queue s2.nodeCount s2.etc s2.queue)
    (fun a ha => outerSides_new ha) hnds
    (fun a ha b hb => by
      obtain ⟨c, hc, hv, hv1, rfl⟩ := exists_flipSide edge.vid vid1 hne ha
      have hlink := (flipSide_outer (s := s) hne hc hv hv1).2
      have hcl : s.Live c.1 := by
        simp only [List.mem_cons, List.not_mem_nil, or_false] at hc
        rcases hc with hc | hc
        · rw [hc]; exact ht
        · rw [hc]; exact hp2
      obtain ⟨hbl, hback⟩ := h.symmetric c b hcl (hlink.symm.trans hb)
      exact ⟨hbl, .inr (.inr ⟨c, hback, hc⟩)⟩) (enterOuters_offered _)
  refine ⟨hq', ?_⟩
  have hlink : (s.outerSides.foldl (fun s a => s.enterOuter a.1 a.2) s2).link = s2.link := by
    rw [he]
    rfl
  unfold Enqueued at henq ⊢
  rw [hlink]
  exact henq

/-- `appendTrigon` queues the edges that the new trigon shares with the net. -/
theorem appendTrigon_queue {nodes nodes' : List (PolygonNode K)} (h : s.Adjacent) (hq : s.Queued)
    (ho : s.Outline nodes) (hr : Polygon.appendTrigon s nodes = .ok (s', nodes')) :
    s'.Queued ∧ s'.Enqueued s.queue
      [(s.trigonCount, 0), (s.trigonCount, 1), (s.trigonCount, 2)] s' := by
  obtain ⟨edge, s1, hcut, h1, h2⟩ := appendTrigon_ok hr
  obtain ⟨hb, hinj⟩ := ho.edges hcut
  obtain ⟨hadj1, hreb1⟩ := appended_ok h hb hinj h1
  obtain ⟨n, e, q, hs'⟩ := checkTrigonEdge_ok h2
  have hlist : [s.trigonCount].foldlM insertTrigon (s.appended edge) = .ok s1 := by
    rw [List.foldlM_cons, bind_eq_ok]
    exact ⟨s1, h1, rfl⟩
  have hsides : ∀ a ∈ [(s.trigonCount, (0 : Fin 3)), (s.trigonCount, 1), (s.trigonCount, 2)],
      ∃ i, a = (s.trigonCount, i) := by
    intro a ha
    simpa [Fin.exists_fin_succ] using ha
  have hnds : [(s.trigonCount, (0 : Fin 3)), (s.trigonCount, 1), (s.trigonCount, 2)].Nodup :=
    List.Nodup.of_map Prod.snd (by simp only [List.map_cons, List.map_nil]; decide)
  have hnone : [].foldlM deleteTrigon (s.appended edge) = .ok (s.appended edge) := rfl
  obtain ⟨hq', henq⟩ := rebuild_offered h hq (h.appended hb)
    rfl rfl
    (fun a ha => by
      have hne := (h.old a.1 ha).ne
      exact ⟨appended_link_old hne, by simp [appended, newTrigon, hne]⟩)
    (by simp) (by simp)
    (fun u hu hl => by
      obtain rfl := List.mem_singleton.mp hu
      exact (h.old _ hl).ne rfl)
    (fun u hu j => by
      obtain rfl := List.mem_singleton.mp hu
      simp [appended, newTrigon]) hnone hlist hadj1 hreb1
    (fun a ha => by
      obtain ⟨i, rfl⟩ := hsides a ha
      simp) hnds
    (fun a ha b hab => by
      obtain ⟨i, rfl⟩ := hsides a ha
      rw [appended_link_new] at hab
      obtain ⟨hbl, hfree, -⟩ := (hb i).free b.1 b.2 hab
      exact ⟨hbl, .inl (hq.etc_of_free hbl hfree)⟩) (checkTrigonEdge_offered h2)
  refine ⟨hq'.mono fun n hn => hn.1, ?_⟩
  have hlink : s'.link = s1.link := by
    rw [hs']
    rfl
  have hkept : (s.queue.filter fun n => ¬s.Near [] n.side) = s.queue := by simp [Near]
  rw [hkept] at henq
  unfold Enqueued at henq ⊢
  rw [hlink]
  exact henq

end Steps

section Process

variable [Field K] [LinearOrder K] [FloorRing K] {s s' : Net K}

omit [Field K] [LinearOrder K] [FloorRing K] in
/-- Taking the first node out of the list leaves it as the only recorded node outside. -/
lemma QueueInv.out (hq : s.Queued) {edge : QueueNode} {rest : List QueueNode}
    (hs : s.queue = edge :: rest) : ({ s with queue := rest } : Net K).QueueInv (· = edge) := by
  refine ⟨fun n hn => hq.recorded n (by rw [hs]; exact List.mem_cons_of_mem _ hn), hq.own, hq.once,
    ?_, fun t i n ht hn => ?_⟩
  · have hnd := hq.nodup
    rw [hs] at hnd
    exact (List.nodup_cons.mp hnd).2
  · have hin := (hq.listed t i n ht hn).resolve_right id
    rw [hs, List.mem_cons] at hin
    exact hin.symm

omit [Field K] [LinearOrder K] [FloorRing K] in
/-- `RemoveEdge` clears the slot of the node that was taken out. -/
lemma removeEdge_eq {edge : QueueNode} {b : TrigonRef × Fin 3}
    (hq : s.QueueInv (· = edge)) (ht : s.Live edge.trigon) (hl : s.link edge.side = some b)
    (he : s.etc edge.trigon edge.vid = some edge) :
    s.removeEdge edge = .ok (s.setEtc edge.trigon edge.vid none) := by
  obtain ⟨hn, hv⟩ := link_eq_some (t := edge.trigon) (i := edge.vid).mp hl
  have hb : s.etc b.1 b.2 = none := hq.once edge.side b ht hl (by
    change s.etc edge.trigon edge.vid ≠ none
    simp [he])
  have hb' : (s.setEtc edge.trigon edge.vid none).etc b.1 b.2 ≠ some edge := by
    simp only [setEtc, write_apply, hb]
    split_ifs <;> simp
  unfold removeEdge
  simp only [he, if_true]
  have hn' : (s.setEtc edge.trigon edge.vid none).nbtri edge.trigon edge.vid = some b.1 := hn
  have hv' : (s.setEtc edge.trigon edge.vid none).nbvex edge.trigon edge.vid = some b.2 := hv
  simp only [hn', hv', deref_some, index_some, bind, Except.bind, hb', if_false, pure, Except.pure]

omit [Field K] [LinearOrder K] [FloorRing K] in
lemma removeEdge_queue {edge : QueueNode} (hq : s.QueueInv (· = edge))
    (he : s.etc edge.trigon edge.vid = some edge) (hout : edge ∉ s.queue) : (s.setEtc edge.trigon edge.vid none).Queued := by
  have hless : ∀ t i n, (s.setEtc edge.trigon edge.vid none).etc t i = some n →
      s.etc t i = some n ∧ ¬(t = edge.trigon ∧ i = edge.vid) := by
    intro t i n hn
    simp only [setEtc, write_apply] at hn
    split_ifs at hn with hti
    exact ⟨hn, hti⟩
  refine ⟨fun n hn => ?_, fun t i n ht hn => hq.own t i n ht (hless t i n hn).1,
    fun a b ha hab hne => ?_, hq.nodup, fun t i n ht hn => ?_⟩
  · obtain ⟨hl, hne, hen⟩ := hq.recorded n hn
    have hother : ¬(n.trigon = edge.trigon ∧ n.vid = edge.vid) := by
      rintro ⟨h1, h2⟩
      rw [h1, h2, he] at hen
      exact hout (Option.some.inj hen ▸ hn)
    exact ⟨hl, hne, by simp only [setEtc, write_apply, if_neg hother, hen]⟩
  · obtain ⟨n, hn⟩ := Option.ne_none_iff_exists'.mp hne
    have hb := hq.once a b ha hab (by simp [(hless _ _ n hn).1])
    simp only [setEtc, write_apply, hb, ite_self]
  · obtain ⟨hn', hother⟩ := hless t i n hn
    refine .inl ((hq.listed t i n ht hn').resolve_right ?_)
    rintro rfl
    obtain ⟨h1, h2⟩ := Prod.mk.inj (hq.own t i n ht hn')
    exact hother ⟨h1.symm, h2.symm⟩

/-- An iteration of `Process` takes the first edge out and either flips it or drops it. -/
theorem processBody_cases [IsStrictOrderedRing K] (hq : s.Queued) (hr : Iteration processBody s s') :
    ∃ edge rest p2 vid1, s.queue = edge :: rest ∧ s.Live edge.trigon ∧
      s.link (edge.trigon, edge.vid) = some (p2, vid1) ∧
      (0 ≤ s.determinant edge.trigon p2 vid1 ∧
          ({ s with queue := rest } : Net K).changeEdge edge = .ok s' ∨
        s.determinant edge.trigon p2 vid1 < 0 ∧
          s' = ({ s with queue := rest } : Net K).setEtc edge.trigon edge.vid none) := by
  unfold Iteration processBody at hr
  cases hs : s.queue with
  | nil => simp [hs, pure, Except.pure] at hr
  | cons edge rest =>
    obtain ⟨hl, hne, he⟩ := hq.recorded edge (by simp [hs])
    obtain ⟨⟨p2, vid1⟩, hlink⟩ := Option.ne_none_iff_exists'.mp hne
    have hx : ({ s with queue := rest } : Net K).exchangable edge =
        .ok (decide (0 ≤ s.determinant edge.trigon p2 vid1)) := exchangable_eq hlink
    refine ⟨edge, rest, p2, vid1, rfl, hl, hlink, ?_⟩
    simp only [hs, hx, bind_eq_ok, Except.ok.injEq, exists_eq_left', decide_eq_true_eq] at hr
    split_ifs at hr with hdet
    · simp only [bind_eq_ok, pure, Except.pure, Except.ok.injEq, Option.some.injEq] at hr
      obtain ⟨s1, h1, rfl⟩ := hr
      exact .inl ⟨hdet, h1⟩
    · have hnd := hq.nodup
      rw [hs] at hnd
      rw [removeEdge_eq (hq.out hs) hl hlink he] at hr
      simp only [bind_eq_ok, pure, Except.pure, Except.ok.injEq, exists_eq_left', Option.some.injEq] at hr
      exact .inr ⟨not_le.mp hdet, hr.symm⟩

/-- An iteration of `Process` keeps a positive net adjacent, positive and its queue consistent. -/
theorem processBody_inv [IsStrictOrderedRing K] (h : s.Adjacent) (hp : s.Positive) (hq : s.Queued)
    (hr : Iteration processBody s s') : s'.Adjacent ∧ s'.Positive ∧ s'.Queued := by
  obtain ⟨edge, rest, p2, vid1, hs, hl, hlink, ⟨hdet, hr⟩ | ⟨-, rfl⟩⟩ := processBody_cases hq hr
  · have h1 : ({ s with queue := rest } : Net K).Adjacent := h.of_queue s.nodeCount s.etc rest
    have hp1 : ({ s with queue := rest } : Net K).Positive := hp
    have hx : ({ s with queue := rest } : Net K).exchangable edge = .ok true := by
      rw [exchangable_eq (s := { s with queue := rest }) hlink]
      exact congrArg Except.ok (decide_eq_true hdet)
    have hone := hp1.sharesOneSide h1 hl edge.vid
    refine ⟨(changeEdge_ok h1 hl hlink hone hr).1, changeEdge_positive h1 hp1 hl hx hr, ?_⟩
    refine (changeEdge_queue h1 (hq.out hs) hl hlink hone hr).1.mono ?_
    rintro n ⟨rfl, hn⟩
    exact hn (by simp)
  · have hnd := hq.nodup
    rw [hs] at hnd
    exact ⟨h.of_queue s.nodeCount _ rest, hp, removeEdge_queue (hq.out hs)
      (hq.recorded edge (by simp [hs])).2.2 (List.nodup_cons.mp hnd).1⟩

end Process

end Net

end MTalk.Triangle
