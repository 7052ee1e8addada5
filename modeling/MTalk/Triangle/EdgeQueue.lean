import MTalk.Triangle.Orientation

/-!
# The edge queue

Each node of the queue is recorded in the `etc` slot of the side it names, and at most one of
the two sides of an edge has such a slot. `QueueInv` holds between the operations; inside
`Process` the edge that was taken out is still recorded but no longer in the list.
-/

namespace MTalk.Triangle

open SideGluing WhileLoop

/-- The side that a queue node names. -/
def QueueNode.side (n : QueueNode) : TrigonRef × Fin 3 := (n.trigon, n.vid)

namespace Net

variable {K : Type}

/-- The slots after a side and the side glued to it have been cleared. -/
def forget (e : TrigonRef → Fin 3 → Option QueueNode) (a : TrigonRef × Fin 3)
    (o : Option (TrigonRef × Fin 3)) : TrigonRef → Fin 3 → Option QueueNode :=
  fun t i => if (t, i) = a ∨ o = some (t, i) then none else e t i

/-- The queue invariant, up to the nodes that `out` admits: they are recorded but not in the list. -/
structure QueueInv (s : Net K) (out : QueueNode → Prop) : Prop where
  recorded : ∀ n ∈ s.queue, s.Live n.trigon ∧ s.link n.side ≠ none ∧
    s.etc n.trigon n.vid = some n
  own : ∀ t i n, s.Live t → s.etc t i = some n → n.side = (t, i)
  once : ∀ a b, s.Live a.1 → s.link a = some b → s.etc a.1 a.2 ≠ none → s.etc b.1 b.2 = none
  nodup : s.queue.Nodup
  listed : ∀ t i n, s.Live t → s.etc t i = some n → n ∈ s.queue ∨ out n

section Delete

variable {s : Net K}

lemma write_eq_forget (e : TrigonRef → Fin 3 → Option QueueNode) (t : TrigonRef) (i : Fin 3) :
    write e t i none = forget e (t, i) none := by
  funext u j
  simp [write, forget]

lemma write_write_eq_forget (e : TrigonRef → Fin 3 → Option QueueNode) (t : TrigonRef) (i : Fin 3)
    (b : TrigonRef × Fin 3) :
    write (write e t i none) b.1 b.2 none = forget e (t, i) (some b) := by
  funext u j
  obtain ⟨w, k⟩ := b
  by_cases h1 : u = w ∧ j = k
  · obtain ⟨rfl, rfl⟩ := h1
    simp [write, forget]
  · have h1' : ¬(w = u ∧ k = j) := fun h => h1 ⟨h.1.symm, h.2.symm⟩
    simp [write, forget, h1, h1']

/-- `Queue.Delete` clears both slots of the edge and takes the node out of the list. -/
lemma queueDelete_eq (hw : s.Wired) (n : QueueNode) : s.queueDelete n =
    .ok { s with etc := forget s.etc n.side (s.link n.side), queue := s.queue.erase n } := by
  unfold queueDelete clearAcross
  cases hl : s.link n.side with
  | none =>
    have hn : s.nbtri n.trigon n.vid = none := hw.link_eq_none.mp hl
    simp only [setEtc, hn, bind, Except.bind, pure, Except.pure, Except.ok.injEq, write_eq_forget]
    rfl
  | some b =>
    obtain ⟨hn, hv⟩ := link_eq_some (t := n.trigon) (i := n.vid).mp hl
    simp only [setEtc, hn, hv, index_some, bind, Except.bind, pure, Except.pure, Except.ok.injEq]
    rw [write_write_eq_forget]
    rfl

/-- The list without the nodes of an edge. -/
def unlist (q : List QueueNode) (a : TrigonRef × Fin 3) (o : Option (TrigonRef × Fin 3)) :
    List QueueNode :=
  q.filter fun n => n.side ≠ a ∧ o ≠ some n.side

/-- The part of the queue invariant that deleting the edge at the side `a` of `s` needs. -/
structure EdgeRecorded (s : Net K) (a : TrigonRef × Fin 3) : Prop where
  back : ∀ b, s.link a = some b → s.link b = some a
  slots : ∀ n ∈ s.queue, s.etc n.trigon n.vid = some n
  nodup : s.queue.Nodup
  here : ∀ n, s.etc a.1 a.2 = some n → n.side = a
  across : ∀ b n, s.link a = some b → s.etc b.1 b.2 = some n → n.side = b
  once : ∀ b, s.link a = some b → s.etc a.1 a.2 ≠ none → s.etc b.1 b.2 = none

/-- Erasing the node that a slot holds takes the nodes of that side out of the list. -/
lemma erase_eq_filter (hslots : ∀ n ∈ s.queue, s.etc n.trigon n.vid = some n)
    (hnd : s.queue.Nodup) {n : QueueNode} (hn : s.etc n.trigon n.vid = some n) :
    s.queue.erase n = s.queue.filter fun m => m.side ≠ n.side := by
  rw [hnd.erase_eq_filter]
  refine List.filter_congr fun m hm => ?_
  have hiff : m = n ↔ m.side = n.side := by
    refine ⟨fun h => h ▸ rfl, fun h => ?_⟩
    have h1 := hslots m hm
    simp only [QueueNode.side, Prod.mk.injEq] at h
    rw [h.1, h.2, hn] at h1
    exact (Option.some.inj h1).symm
  by_cases h : m = n
  · simp [h]
  · simp [h, mt hiff.mpr h]

/-- `DeleteEdge` forgets the edge at the side. -/
lemma deleteEdge_eq (hw : s.Wired) {t : TrigonRef} {i : Fin 3} (h : s.EdgeRecorded (t, i)) :
    s.deleteEdge t i = .ok { s with
      etc := forget s.etc (t, i) (s.link (t, i))
      queue := unlist s.queue (t, i) (s.link (t, i)) } := by
  -- a node in the list sits in the slot of its side
  have hslot : ∀ {m a}, m ∈ s.queue → m.side = a → s.etc a.1 a.2 = some m := by
    rintro m _ hm rfl
    exact h.slots m hm
  have hkeep : ∀ o, s.etc t i = none → (∀ b, o = some b → s.etc b.1 b.2 = none) →
      forget s.etc (t, i) o = s.etc ∧ unlist s.queue (t, i) o = s.queue := by
    intro o ha hb
    constructor
    · funext u j
      unfold forget
      split_ifs with hu
      · rcases hu with hu | hu
        · obtain ⟨rfl, rfl⟩ := Prod.mk.inj hu
          exact ha.symm
        · exact (hb _ hu).symm
      · rfl
    · refine List.filter_eq_self.mpr fun m hm => ?_
      have h1 : m.side ≠ (t, i) := fun hs => by simpa [ha] using hslot hm hs
      have h2 : o ≠ some m.side := fun hs => by simpa [hb _ hs] using hslot hm rfl
      simp [h1, h2]
  unfold deleteEdge
  cases he : s.etc t i with
  | some n =>
    have hside := h.here n he
    have hslotn : s.etc n.trigon n.vid = some n := by
      obtain ⟨h1, h2⟩ := Prod.mk.inj hside
      rw [h1, h2, he]
    have hdel : s.deleteEtc (some n) = .ok { s with
        etc := forget s.etc (t, i) (s.link (t, i))
        queue := s.queue.filter fun m => m.side ≠ (t, i) } := by
      rw [deleteEtc, queueDelete_eq hw, erase_eq_filter h.slots h.nodup hslotn, hside]
    rw [hdel]
    cases hl : s.link (t, i) with
    | none =>
      simp only [hw.link_eq_none.mp hl, bind, Except.bind, pure, Except.pure, unlist]
      simp
    | some b =>
      obtain ⟨hn, hv⟩ := link_eq_some.mp hl
      have hb : s.etc b.1 b.2 = none := h.once b hl (by simp [he])
      have hfil : unlist s.queue (t, i) (some b) = s.queue.filter fun m => m.side ≠ (t, i) := by
        refine List.filter_congr fun m hm => ?_
        have h2 : b ≠ m.side := fun hs => by simpa [hb] using hslot hm hs.symm
        simp [h2]
      have hclear : forget s.etc (t, i) (some b) b.1 b.2 = none := by simp [forget]
      simp only [hn, hv, index_some, bind, Except.bind, hclear, deleteEtc, pure, Except.pure, hfil]
  | none =>
    cases hl : s.link (t, i) with
    | none =>
      obtain ⟨h1, h2⟩ := hkeep none he (by simp)
      simp only [deleteEtc, hw.link_eq_none.mp hl, bind, Except.bind, pure, Except.pure, h1, h2]
    | some b =>
      obtain ⟨hn, hv⟩ := link_eq_some.mp hl
      cases hb : s.etc b.1 b.2 with
      | none =>
        obtain ⟨h1, h2⟩ := hkeep (some b) he (by rintro _ ⟨⟩; exact hb)
        simp only [deleteEtc, hn, hv, hb, index_some, bind, Except.bind, pure, Except.pure, h1, h2]
      | some m =>
        have hside := h.across b m hl hb
        have hslotm : s.etc m.trigon m.vid = some m := by rw [← hb, ← hside]; rfl
        have hdel : s.deleteEtc (some m) = .ok { s with
            etc := forget s.etc b (some (t, i))
            queue := s.queue.filter fun n => n.side ≠ b } := by
          rw [deleteEtc, queueDelete_eq hw, erase_eq_filter h.slots h.nodup hslotm, hside,
            h.back b hl]
        have hfil : unlist s.queue (t, i) (some b) = s.queue.filter fun m => m.side ≠ b := by
          refine List.filter_congr fun n hn => ?_
          have h1 : n.side ≠ (t, i) := fun hs => by simpa [he] using hslot hn hs
          simp [h1, eq_comm]
        have hforget : forget s.etc b (some (t, i)) = forget s.etc (t, i) (some b) := by
          funext u j
          simp only [forget, Option.some.injEq, eq_comm, or_comm]
        rw [hforget, ← hfil] at hdel
        simp only [deleteEtc, pure, Except.pure, bind, Except.bind, hn, hv, hb, index_some] at hdel ⊢
        exact hdel

/-- What a round of `DeleteTrigon` leaves behind. -/
def detached (s : Net K) (t : TrigonRef) (i : Fin 3) : Net K :=
  let s' := { s with
    etc := forget s.etc (t, i) (s.link (t, i))
    queue := unlist s.queue (t, i) (s.link (t, i)) }
  match s.link (t, i) with
  | none => s'
  | some b => s'.setNeighbour b.1 b.2 none none

lemma detachSide_eq (hw : s.Wired) {t : TrigonRef} {i : Fin 3} (h : s.EdgeRecorded (t, i)) :
    detachSide t s i = .ok (s.detached t i) := by
  unfold detachSide detached
  rw [deleteEdge_eq hw h]
  cases hl : s.link (t, i) with
  | none => simp only [hw.link_eq_none.mp hl, bind, Except.bind, pure, Except.pure]
  | some b =>
    obtain ⟨hn, hv⟩ := link_eq_some.mp hl
    simp only [hn, hv, index_some, bind, Except.bind, pure, Except.pure]

lemma detached_etc (t : TrigonRef) (i : Fin 3) :
    (s.detached t i).etc = forget s.etc (t, i) (s.link (t, i)) := by
  unfold detached
  cases s.link (t, i) <;> rfl

lemma detached_queue (t : TrigonRef) (i : Fin 3) :
    (s.detached t i).queue = unlist s.queue (t, i) (s.link (t, i)) := by
  unfold detached
  cases s.link (t, i) <;> rfl

lemma detached_link (t : TrigonRef) (i : Fin 3) (a : TrigonRef × Fin 3) :
    (s.detached t i).link a = if s.link (t, i) = some a then none else s.link a := by
  unfold detached
  cases hl : s.link (t, i) with
  | none => simp only [reduceCtorEq, if_false]; rfl
  | some b =>
    obtain ⟨u, j⟩ := a
    obtain ⟨w, k⟩ := b
    by_cases hb : u = w ∧ j = k
    · obtain ⟨rfl, rfl⟩ := hb
      simp only [if_true]
      exact link_of_null (by simp [setNeighbour])
    · have hb' : ¬(w = u ∧ k = j) := fun h => hb ⟨h.1.symm, h.2.symm⟩
      simp only [Option.some.injEq, Prod.mk.injEq, hb', if_false]
      exact link_congr (by simp [setNeighbour, write_apply, hb]) (by simp [setNeighbour, write_apply, hb])

lemma detached_wired (hw : s.Wired) (t : TrigonRef) (i : Fin 3) : (s.detached t i).Wired := by
  refine hw.of_link ?_ ?_ (fun u j hne => ?_) fun a b hab => ?_
  · unfold detached
    cases s.link (t, i) <;> rfl
  · unfold detached
    cases s.link (t, i) <;> rfl
  · unfold detached at hne ⊢
    cases hl : s.link (t, i) with
    | none =>
      simp only [hl] at hne ⊢
      exact hw.paired u j hne
    | some b =>
      simp only [hl, setNeighbour, write_apply] at hne ⊢
      by_cases hb : u = b.1 ∧ j = b.2
      · exact absurd (if_pos hb) hne
      · rw [if_neg hb] at hne ⊢
        exact hw.paired u j hne
  · rw [detached_link] at hab
    split_ifs at hab
    exact .inl hab

/-- The side belongs to one of the sides `is` of `t`, or is glued to it. -/
def Touches (s : Net K) (t : TrigonRef) (is : List (Fin 3)) (a : TrigonRef × Fin 3) : Prop :=
  ∃ i ∈ is, a = (t, i) ∨ s.link (t, i) = some a

instance (t : TrigonRef) (is : List (Fin 3)) (a : TrigonRef × Fin 3) :
    Decidable (s.Touches t is a) :=
  inferInstanceAs (Decidable (∃ i ∈ is, _))

/-- Detaching some sides of a trigon forgets their edges and no others. -/
lemma detachSides_queue {t : TrigonRef} {is : List (Fin 3)} (hw : s.Wired) (hnd : is.Nodup)
    (h : ∀ i ∈ is, s.EdgeRecorded (t, i)) :
    ∃ s', is.foldlM (detachSide t) s = .ok s' ∧
      (∀ u j, s'.etc u j = if s.Touches t is (u, j) then none else s.etc u j) ∧
      s'.queue = s.queue.filter fun n => ¬s.Touches t is n.side := by
  induction is generalizing s with
  | nil => exact ⟨s, rfl, by simp [Touches], by simp [Touches]⟩
  | cons i is ih =>
    obtain ⟨hi, hnd'⟩ := List.nodup_cons.mp hnd
    have hhead := h i (by simp)
    -- the other sides keep their links and what is recorded for them
    have hlink : ∀ k, (s.detached t i).link (t, k) = s.link (t, k) := by
      intro k
      rw [detached_link, if_neg (hw.no_self t i k)]
    have hless : ∀ (a : TrigonRef × Fin 3) n, (s.detached t i).etc a.1 a.2 = some n → s.etc a.1 a.2 = some n := by
      intro a n hn
      rw [detached_etc, forget] at hn
      split_ifs at hn
      exact hn
    have hrest : ∀ k ∈ is, (s.detached t i).EdgeRecorded (t, k) := by
      intro k hk
      have hk' := h k (by simp [hk])
      have hki : k ≠ i := by
        rintro rfl
        exact hi hk
      refine ⟨fun b hb => ?_, fun n hn => ?_, ?_, fun n hn => hk'.here n (hless _ _ hn),
        fun b n hb hn => ?_, fun b hb hne => ?_⟩
      · rw [hlink] at hb
        have hback := hk'.back b hb
        rw [detached_link, if_neg, hback]
        intro hib
        rw [hhead.back b hib] at hback
        exact hki (Prod.mk.inj (Option.some.inj hback)).2.symm
      · rw [detached_queue, unlist, List.mem_filter] at hn
        have hother := of_decide_eq_true hn.2
        rw [detached_etc, forget, if_neg fun hor => hor.elim hother.1 hother.2, hhead.slots n hn.1]
      · rw [detached_queue]
        exact hhead.nodup.filter _
      · rw [hlink] at hb
        exact hk'.across b n hb (hless _ _ hn)
      · rw [hlink] at hb
        obtain ⟨n, hn⟩ := Option.ne_none_iff_exists'.mp hne
        have hb' := hk'.once b hb (by simp [hless (t, k) n hn])
        by_contra hne'
        obtain ⟨m, hm⟩ := Option.ne_none_iff_exists'.mp hne'
        simp [hless b m hm] at hb'
    obtain ⟨s', hs', he, hq⟩ := ih (detached_wired hw t i) hnd' hrest
    have htouch : ∀ a, s.Touches t (i :: is) a ↔
        (a = (t, i) ∨ s.link (t, i) = some a) ∨ (s.detached t i).Touches t is a := by
      intro a
      simp only [Touches, List.mem_cons, exists_eq_or_imp, hlink]
    refine ⟨s', ?_, fun u j => ?_, ?_⟩
    · rw [List.foldlM_cons, detachSide_eq hw hhead]
      exact hs'
    · rw [he, detached_etc, forget]
      simp only [htouch]
      by_cases h1 : (s.detached t i).Touches t is (u, j)
      · simp only [h1, or_true, if_true]
      · simp only [h1, or_false, if_false]
    · rw [hq, detached_queue, unlist, List.filter_filter]
      refine List.filter_congr fun n _ => ?_
      simp only [htouch, ← Bool.decide_and, decide_eq_decide]
      tauto

end Delete

section DeleteTrigon

variable {s s' : Net K} {out : QueueNode → Prop}

/-- The edge at the side belongs to one of the trigons. -/
def Near (s : Net K) (ts : List TrigonRef) (a : TrigonRef × Fin 3) : Prop :=
  a.1 ∈ ts ∨ ∃ b ∈ s.link a, b.1 ∈ ts

instance (s : Net K) (ts : List TrigonRef) (a : TrigonRef × Fin 3) : Decidable (s.Near ts a) :=
  inferInstanceAs (Decidable (_ ∨ ∃ b ∈ s.link a, _))

lemma QueueInv.edgeRecorded (hq : s.QueueInv out) (h : s.Adjacent) {a : TrigonRef × Fin 3}
    (ha : s.Live a.1) : s.EdgeRecorded a where
  back b hb := (h.symmetric a b ha hb).2
  slots n hn := (hq.recorded n hn).2.2
  nodup := hq.nodup
  here n hn := hq.own a.1 a.2 n ha hn
  across b n hb hn := hq.own b.1 b.2 n (h.symmetric a b ha hb).1 hn
  once b hb hne := hq.once a b ha hb hne

lemma touches_iff_near (h : s.Adjacent) {t : TrigonRef} (ht : s.Live t) {a : TrigonRef × Fin 3}
    (ha : s.Live a.1) : s.Touches t [0, 1, 2] a ↔ s.Near [t] a := by
  obtain ⟨u, j⟩ := a
  unfold Touches Near
  simp only [List.mem_singleton]
  constructor
  · rintro ⟨i, -, he | hl⟩
    · exact .inl (congrArg Prod.fst he)
    · exact .inr ⟨(t, i), (h.symmetric _ _ ht hl).2, rfl⟩
  · rintro (rfl | ⟨⟨w, i⟩, hi, rfl⟩)
    · exact ⟨j, mem_sides j, .inl rfl⟩
    · exact ⟨i, mem_sides i, .inr (h.symmetric _ _ ha hi).2⟩

variable [Field K] [LinearOrder K] [FloorRing K]

lemma deleteTrigon_etc (h : s.Adjacent) (hq : s.QueueInv out) {t : TrigonRef} (ht : s.Live t)
    (hr : s.deleteTrigon t = .ok s') :
    (∀ u j, s'.etc u j = if s.Touches t [0, 1, 2] (u, j) then none else s.etc u j) ∧
      s'.queue = s.queue.filter fun n => ¬s.Touches t [0, 1, 2] n.side := by
  unfold deleteTrigon at hr
  simp only [bind_eq_ok, pure, Except.pure, Except.ok.injEq] at hr
  obtain ⟨s1, h1, s2, h2, rfl⟩ := hr
  obtain ⟨cells, -, rfl⟩ := QueryList.delete_ok h1
  have hrec : ∀ i ∈ ([0, 1, 2] : List (Fin 3)), ({ s with
      cells := cells, trigonIndex := s.trigonIndex.erase t } : Net K).EdgeRecorded (t, i) := by
    intro i _
    have hi := hq.edgeRecorded h (a := (t, i)) ht
    exact ⟨hi.back, hi.slots, hi.nodup, hi.here, hi.across, hi.once⟩
  obtain ⟨s3, h3, he, hqueue⟩ := detachSides_queue (s := { s with
      cells := cells, trigonIndex := s.trigonIndex.erase t }) ⟨h.paired, h.known, h.ends⟩ (by simp) hrec
  rw [h2] at h3
  obtain rfl := Except.ok.inj h3
  exact ⟨he, hqueue⟩

lemma deleteTrigon_rebuilt (h : s.Adjacent) {t : TrigonRef} (ht : s.Live t)
    (hr : s.deleteTrigon t = .ok s') : s'.Adjacent ∧ Rebuilt s [t] [] s' := by
  have hts : ∀ u ∈ [t], s.Live u := by
    simp only [List.mem_singleton, forall_eq]
    exact ht
  have hlist : [t].foldlM deleteTrigon s = .ok s' := by
    rw [List.foldlM_cons, bind_eq_ok]
    exact ⟨s', hr, rfl⟩
  have hnone : [].foldlM insertTrigon s' = .ok s' := rfl
  exact h.rebuild hts (by simp) (by simp) hlist hnone (by simp) (by simp)
    fun l₁ l' hc hp => h.symmetric.replace hts (by simp) (by simp) (by simp) (by simp) (by simp) hc hp

/-- `DeleteTrigon` takes the nodes of the trigon's edges out of the list and clears their slots. -/
theorem deleteTrigon_queue (h : s.Adjacent) (hq : s.QueueInv out) {t : TrigonRef} (ht : s.Live t)
    (hr : s.deleteTrigon t = .ok s') :
    s'.QueueInv (fun n => out n ∧ n.trigon ≠ t) ∧
      s'.queue = s.queue.filter (fun n => ¬s.Near [t] n.side) ∧
      ∀ a : TrigonRef × Fin 3, (s.etc a.1 a.2 = none ∨ s.Live a.1 ∧ s.Near [t] a) →
        s'.etc a.1 a.2 = none := by
  obtain ⟨he, hqueue⟩ := deleteTrigon_etc h hq ht hr
  obtain ⟨hadj, hreb⟩ := deleteTrigon_rebuilt h ht hr
  have hqueue' : s'.queue = s.queue.filter fun n => ¬s.Near [t] n.side := by
    rw [hqueue]
    refine List.filter_congr fun n hn => ?_
    rw [decide_eq_decide, touches_iff_near h ht (hq.recorded n hn).1]
  have hless : ∀ u j n, s'.etc u j = some n → s.etc u j = some n ∧ ¬s.Touches t [0, 1, 2] (u, j) := by
    intro u j n hn
    rw [he] at hn
    split_ifs at hn with htouch
    exact ⟨hn, htouch⟩
  have hlive : ∀ u, s'.Live u ↔ s.Live u ∧ u ≠ t := by
    intro u
    rw [hreb.live_iff h.nodup]
    simp
  have hlink : ∀ a b, s'.Live a.1 → s'.link a = some b → s.link a = some b := by
    intro a b ha hab
    have hb := (hadj.symmetric a b ha hab).1
    exact (hreb.links.kept a b ((hlive _).mp ha).1 (by simpa using ((hlive _).mp ha).2)
      (by simpa using ((hlive _).mp hb).2) (by simp)).mp hab
  refine ⟨⟨fun n hn => ?_, fun u j n hu hn => hq.own u j n ((hlive u).mp hu).1 (hless u j n hn).1,
    fun a b ha hab hne => ?_, ?_, fun u j n hu hn => ?_⟩, hqueue', fun a ha => ?_⟩
  · rw [hqueue', List.mem_filter] at hn
    obtain ⟨hn, hfar⟩ := hn
    have hfar' : ¬s.Near [t] n.side := of_decide_eq_true hfar
    obtain ⟨hl, hne, hetc⟩ := hq.recorded n hn
    obtain ⟨b, hb⟩ := Option.ne_none_iff_exists'.mp hne
    have hnt : n.side.1 ∉ [t] := fun hin => hfar' (.inl hin)
    have hbt : b.1 ∉ [t] := fun hin => hfar' (.inr ⟨b, hb, hin⟩)
    have hfree : ¬s.Touches t [0, 1, 2] (n.trigon, n.vid) := fun htouch =>
      hfar' ((touches_iff_near h ht hl).mp htouch)
    refine ⟨(hlive _).mpr ⟨hl, fun hnt' => hnt (by simpa [QueueNode.side] using hnt')⟩, ?_, ?_⟩
    · rw [(hreb.links.kept n.side b hl hnt hbt (by simp)).mpr hb]
      simp
    · rw [he, if_neg hfree, hetc]
  · obtain ⟨n, hn⟩ := Option.ne_none_iff_exists'.mp hne
    have hb := hq.once a b ((hlive _).mp ha).1 (hlink a b ha hab) (by simp [(hless _ _ n hn).1])
    rw [he, hb]
    simp
  · rw [hqueue']
    exact hq.nodup.filter _
  · obtain ⟨hn', htouch⟩ := hless u j n hn
    obtain ⟨hl, hut⟩ := (hlive u).mp hu
    have hside := hq.own u j n hl hn'
    rcases hq.listed u j n hl hn' with hin | hout
    · left
      rw [hqueue', List.mem_filter, hside]
      exact ⟨hin, decide_eq_true fun hnear => htouch ((touches_iff_near h ht hl).mpr hnear)⟩
    · exact .inr ⟨hout, by rw [show n.trigon = u from congrArg Prod.fst hside]; exact hut⟩
  · rw [he]
    rcases ha with ha | ⟨hl, hnear⟩
    · simp [ha]
    · rw [if_pos ((touches_iff_near h ht hl).mpr hnear)]

/-- The same for several trigons in a row. -/
theorem deleteTrigons_queue {ts : List TrigonRef} (h : s.Adjacent) (hq : s.QueueInv out)
    (hts : ∀ t ∈ ts, s.Live t) (hnd : ts.Nodup) (hr : ts.foldlM deleteTrigon s = .ok s') :
    s'.QueueInv (fun n => out n ∧ n.trigon ∉ ts) ∧
      s'.queue = s.queue.filter (fun n => ¬s.Near ts n.side) ∧
      ∀ a : TrigonRef × Fin 3, (s.etc a.1 a.2 = none ∨ s.Live a.1 ∧ s.Near ts a) →
        s'.etc a.1 a.2 = none := by
  induction ts generalizing s out with
  | nil =>
    simp only [List.foldlM_nil, pure, Except.pure, Except.ok.injEq] at hr
    subst hr
    refine ⟨by simpa using hq, by simp [Near], fun a ha => ?_⟩
    simpa [Near] using ha
  | cons t ts ih =>
    rw [List.foldlM_cons, bind_eq_ok] at hr
    obtain ⟨s1, h1, h2⟩ := hr
    obtain ⟨htn, hnd'⟩ := List.nodup_cons.mp hnd
    have ht := hts t (by simp)
    obtain ⟨hadj1, hreb⟩ := deleteTrigon_rebuilt h ht h1
    obtain ⟨hq1, hqueue1, hetc1⟩ := deleteTrigon_queue h hq ht h1
    have hlive : ∀ u, s1.Live u ↔ s.Live u ∧ u ≠ t := by
      intro u
      rw [hreb.live_iff h.nodup]
      simp
    have hts1 : ∀ u ∈ ts, s1.Live u := by
      intro u hu
      refine (hlive u).mpr ⟨hts u (by simp [hu]), ?_⟩
      rintro rfl
      exact htn hu
    -- away from `t` the second round sees the links of the first
    have hnear : ∀ a : TrigonRef × Fin 3, s.Live a.1 → ¬s.Near [t] a →
        (s1.Near ts a ↔ s.Near (t :: ts) a) := by
      intro a ha hfar
      have hat : a.1 ∉ [t] := fun hin => hfar (.inl hin)
      unfold Near at hfar ⊢
      simp only [List.mem_cons]
      constructor
      · rintro (hin | ⟨b, hb, hin⟩)
        · exact .inl (.inr hin)
        · have hbt : b.1 ∉ [t] := by
            rintro hbt
            exact htn (List.mem_singleton.mp hbt ▸ hin)
          exact .inr ⟨b, (hreb.links.kept a b ha hat hbt (by simp)).mp hb, .inr hin⟩
      · rintro ((hin | hin) | ⟨b, hb, hin | hin⟩)
        · exact absurd (List.mem_singleton.mpr hin) hat
        · exact .inl hin
        · exact absurd (.inr ⟨b, hb, List.mem_singleton.mpr hin⟩) hfar
        · have hbt : b.1 ∉ [t] := by
            rintro hbt
            exact htn (List.mem_singleton.mp hbt ▸ hin)
          exact .inr ⟨b, (hreb.links.kept a b ha hat hbt (by simp)).mpr hb, hin⟩
    have hsub : ∀ a, s.Near [t] a → s.Near (t :: ts) a := by
      rintro a (hin | ⟨b, hb, hin⟩)
      · exact .inl (List.mem_cons.mpr (.inl (List.mem_singleton.mp hin)))
      · exact .inr ⟨b, hb, List.mem_cons.mpr (.inl (List.mem_singleton.mp hin))⟩
    obtain ⟨hq', hqueue', hetc'⟩ := ih hadj1 hq1 hts1 hnd' h2
    refine ⟨?_, ?_, fun a ha => ?_⟩
    · simpa only [List.mem_cons, not_or, and_assoc] using hq'
    · rw [hqueue', hqueue1, List.filter_filter]
      refine List.filter_congr fun n hn => ?_
      have hl := (hq.recorded n hn).1
      rw [← Bool.decide_and, decide_eq_decide]
      by_cases hfar : s.Near [t] n.side
      · simp only [hfar, not_true_eq_false, and_false, hsub _ hfar]
      · rw [hnear n.side hl hfar]
        simp only [hfar, not_false_eq_true, and_true]
    · apply hetc'
      rcases ha with ha | ⟨hl, hn⟩
      · exact .inl (hetc1 a (.inl ha))
      · by_cases hfar : s.Near [t] a
        · exact .inl (hetc1 a (.inr ⟨hl, hfar⟩))
        · refine .inr ⟨(hlive _).mpr ⟨hl, fun hat => hfar (.inl (by simp [hat]))⟩, ?_⟩
          exact (hnear a hl hfar).mpr hn

end DeleteTrigon

section RebuildQueue

variable [Field K] [LinearOrder K] [FloorRing K] {s s1 s' : Net K} {out : QueueNode → Prop}
  {olds news : List TrigonRef}

/-- Replacing trigons drops the edges of the old ones from the queue; nothing is recorded for
the new ones yet. -/
theorem rebuild_queue (h : s.Adjacent) (hq : s.QueueInv out) (holds : ∀ t ∈ olds, s.Live t)
    (hnd : olds.Nodup) (hfresh : ∀ t ∈ news, ¬s.Live t) (hnone : ∀ t ∈ news, ∀ i, s.etc t i = none)
    (h1 : olds.foldlM deleteTrigon s = .ok s1) (h2 : news.foldlM insertTrigon s1 = .ok s')
    (h' : s'.Adjacent) (hreb : Rebuilt s olds news s') :
    s'.QueueInv (fun n => out n ∧ n.trigon ∉ olds) ∧
      s'.queue = s.queue.filter (fun n => ¬s.Near olds n.side) ∧
      ∀ a : TrigonRef × Fin 3, (s.etc a.1 a.2 = none ∨ s.Live a.1 ∧ s.Near olds a) →
        s'.etc a.1 a.2 = none := by
  obtain ⟨hq1, hqueue, hetc⟩ := deleteTrigons_queue h hq holds hnd h1
  obtain ⟨cells, e, q, nb, nv, hs1, -, hw1, -⟩ := deleteTrigons_ok h.toWired h1
  have hindex : s1.trigonIndex = s.trigonIndex.diff olds := by rw [hs1]
  obtain ⟨cells', heart, nb', nv', hs', -, -⟩ := insertTrigons_ok hw1 h2
  have hetc' : s'.etc = s1.etc := by rw [hs']
  have hqueue' : s'.queue = s1.queue := by rw [hs']
  have hlive1 : ∀ u, s1.Live u ↔ s.Live u ∧ u ∉ olds := by
    intro u
    unfold Live
    rw [hindex, h.nodup.mem_sdiff_iff]
  have hlive : ∀ u, s'.Live u ↔ s1.Live u ∨ u ∈ news := by
    intro u
    rw [hreb.live_iff h.nodup, hlive1]
  rw [hqueue', hetc']
  -- a recorded side belongs to a trigon that was there before
  have hset : ∀ (a : TrigonRef × Fin 3) n, s'.Live a.1 → s1.etc a.1 a.2 = some n → s1.Live a.1 := by
    intro a n ha hn
    refine ((hlive _).mp ha).resolve_right fun hnew => ?_
    rw [hetc a (.inl (hnone _ hnew _))] at hn
    exact absurd hn (by simp)
  refine ⟨⟨fun n hn => ?_, fun t i n ht hn => ?_, fun a b ha hab hne => ?_, ?_,
    fun t i n ht hn => ?_⟩, hqueue, hetc⟩
  · rw [hqueue'] at hn
    obtain ⟨hl1, -, he1⟩ := hq1.recorded n hn
    rw [hqueue, List.mem_filter] at hn
    have hfar : ¬s.Near olds n.side := of_decide_eq_true hn.2
    obtain ⟨hl, hne, -⟩ := hq.recorded n hn.1
    obtain ⟨b, hb⟩ := Option.ne_none_iff_exists'.mp hne
    have hbl := (h.symmetric n.side b hl hb).1
    refine ⟨(hlive _).mpr (.inl hl1), ?_, by rw [hetc', he1]⟩
    rw [(hreb.links.kept n.side b hl (fun hin => hfar (.inl hin)) (fun hin => hfar (.inr ⟨b, hb, hin⟩))
      (fun hin => hfresh _ hin hbl)).mpr hb]
    simp
  · rw [hetc'] at hn
    exact hq1.own t i n (hset (t, i) n ht hn) hn
  · rw [hetc'] at hne ⊢
    obtain ⟨n, hn⟩ := Option.ne_none_iff_exists'.mp hne
    have ha1 := (hlive1 _).mp (hset a n ha hn)
    rcases (hlive _).mp (h'.symmetric a b ha hab).1 with hb | hb
    · have hb1 := (hlive1 _).mp hb
      have hab' := (hreb.links.kept a b ha1.1 ha1.2 hb1.2 (fun hin => hfresh _ hin hb1.1)).mp hab
      have hae : s.etc a.1 a.2 ≠ none := fun he => hne (hetc a (.inl he))
      exact hetc b (.inl (hq.once a b ha1.1 hab' hae))
    · exact hetc b (.inl (hnone _ hb _))
  · rw [hqueue']
    exact hq1.nodup
  · rw [hetc'] at hn
    rw [hqueue']
    exact hq1.listed t i n (hset (t, i) n ht hn) hn

end RebuildQueue

section Offer

variable {s s' : Net K} {out : QueueNode → Prop}

/-- `s'` is `s` after the edge at the side `a` has been offered to the queue. -/
def Offered (s : Net K) (a : TrigonRef × Fin 3) (s' : Net K) : Prop :=
  (s.link a = none ∧ ∃ k, s' = { s with nodeCount := k }) ∨
    s.link a ≠ none ∧ ∃ k r, s' = { s with
      nodeCount := k
      etc := write s.etc a.1 a.2 (some ⟨r, a.1, a.2⟩)
      queue := s.queue ++ [⟨r, a.1, a.2⟩] }

/-- Nothing is recorded for the edge at the side. -/
def Unrecorded (s : Net K) (a : TrigonRef × Fin 3) : Prop :=
  s.etc a.1 a.2 = none ∧ ∀ b, s.link a = some b → s.etc b.1 b.2 = none

lemma enterEdge_offered (hw : s.Wired) {t : TrigonRef} {i : Fin 3} (hnone : s.etc t i = none) :
    s.Offered (t, i) (s.enterEdge t i) := by
  unfold enterEdge enter
  simp only [setEtc]
  cases hn : s.nbtri t i with
  | none =>
    refine .inl ⟨link_of_null hn, s.nodeCount + 1, ?_⟩
    have hsame : write (write s.etc t i (some ⟨s.nodeCount, t, i⟩)) t i none = s.etc := by
      funext u j
      simp only [write_apply]
      split_ifs with hu
      · obtain ⟨rfl, rfl⟩ := hu
        exact hnone.symm
      · rfl
    simp only [hsame]
  | some u =>
    obtain ⟨j, hj⟩ := hw.link_of_nbtri hn
    exact .inr ⟨by simp [hj], s.nodeCount + 1, s.nodeCount, rfl⟩

lemma enterOuter_offered (hw : s.Wired) {t : TrigonRef} {i : Fin 3} (hnone : s.etc t i = none) :
    s.Offered (t, i) (s.enterOuter t i) := by
  unfold enterOuter
  split_ifs with hn
  · exact .inl ⟨link_of_null hn, s.nodeCount, rfl⟩
  · exact enterEdge_offered hw hnone

lemma checkSide_offered (hw : s.Wired) {t : TrigonRef} {i : Fin 3} (hfree : s.Unrecorded (t, i))
    (hr : checkSide t s i = .ok s') : s.Offered (t, i) s' := by
  unfold checkSide at hr
  cases hn : s.nbtri t i with
  | none =>
    simp only [hn, pure, Except.pure, Except.ok.injEq] at hr
    subst hr
    exact .inl ⟨link_of_null hn, s.nodeCount, rfl⟩
  | some u =>
    obtain ⟨j, hj⟩ := hw.link_of_nbtri hn
    simp only [hn, (link_eq_some.mp hj).2, index_some, bind, Except.bind, hfree.1,
      hfree.2 (u, j) hj, and_self, if_true, pure, Except.pure, Except.ok.injEq] at hr
    subst hr
    exact enterEdge_offered hw hfree.1

/-- Offering an edge for which nothing is recorded keeps the queue invariant. -/
lemma Offered.queueInv {a : TrigonRef × Fin 3} (ho : s.Offered a s') (h : s.Adjacent)
    (hq : s.QueueInv out) (ha : s.Live a.1) (hfree : s.Unrecorded a) : s'.QueueInv out := by
  rcases ho with ⟨-, k, rfl⟩ | ⟨hne, k, r, rfl⟩
  · exact ⟨hq.recorded, hq.own, hq.once, hq.nodup, hq.listed⟩
  · have hother : ∀ t i n, s.etc t i = some n → ¬(t = a.1 ∧ i = a.2) := by
      rintro t i n hn ⟨rfl, rfl⟩
      rw [hfree.1] at hn
      exact absurd hn (by simp)
    refine ⟨fun n hn => ?_, fun t i n ht hn => ?_, fun b c hb hbc hbne => ?_, ?_,
      fun t i n ht hn => ?_⟩
    · rcases List.mem_append.mp hn with hn | hn
      · obtain ⟨hl, hlink, he⟩ := hq.recorded n hn
        refine ⟨hl, hlink, ?_⟩
        simp only [write_apply, if_neg (hother _ _ _ he), he]
      · obtain rfl := List.mem_singleton.mp hn
        exact ⟨ha, hne, write_same _ _ _ _⟩
    · simp only [write_apply] at hn
      split_ifs at hn with hti
      · obtain ⟨rfl, rfl⟩ := hti
        obtain rfl := Option.some.inj hn
        rfl
      · exact hq.own t i n ht hn
    · simp only [write_apply] at hbne ⊢
      by_cases hba : b.1 = a.1 ∧ b.2 = a.2
      · obtain rfl : b = a := Prod.ext hba.1 hba.2
        have hcb : ¬(c.1 = b.1 ∧ c.2 = b.2) := fun he => (h.known _ _ _ _ hbc).2.2 he.1
        rw [if_neg hcb]
        exact hfree.2 c hbc
      · rw [if_neg hba] at hbne
        have hca : ¬(c.1 = a.1 ∧ c.2 = a.2) := by
          intro he
          obtain rfl : c = a := Prod.ext he.1 he.2
          exact hbne (hfree.2 b (h.symmetric b c hb hbc).2)
        rw [if_neg hca]
        exact hq.once b c hb hbc hbne
    · rw [List.nodup_append]
      refine ⟨hq.nodup, List.nodup_singleton _, fun n hn m hm => ?_⟩
      obtain rfl := List.mem_singleton.mp hm
      rintro rfl
      exact hother _ _ _ (hq.recorded _ hn).2.2 ⟨rfl, rfl⟩
    · simp only [write_apply] at hn
      split_ifs at hn with hti
      · obtain rfl := Option.some.inj hn
        exact .inl (by simp)
      · exact (hq.listed t i n ht hn).imp_left fun hin => by simp [hin]

/-- The edges at some sides have been offered one after the other. -/
def OfferedAll (s : Net K) : List (TrigonRef × Fin 3) → Net K → Prop
  | [], s' => s' = s
  | a :: rest, s' => ∃ s1, (s.Wired → s.Unrecorded a → s.Offered a s1) ∧ OfferedAll s1 rest s'

/-- What offering the edges at some sides does to the list. -/
def Enqueued (s : Net K) (kept : List QueueNode) (sides : List (TrigonRef × Fin 3))
    (s' : Net K) : Prop :=
  ∃ new, s'.queue = kept ++ new ∧ (∀ n ∈ new, n.side ∈ sides) ∧
    ∀ a ∈ sides, s.link a ≠ none → ∃ n ∈ new, n.side = a

/-- Offering unrelated edges for which nothing is recorded keeps the queue invariant. -/
theorem OfferedAll.queueInv {sides : List (TrigonRef × Fin 3)} (ho : s.OfferedAll sides s')
    (h : s.Adjacent) (hq : s.QueueInv out) (hl : ∀ a ∈ sides, s.Live a.1) (hnd : sides.Nodup)
    (hfree : ∀ a ∈ sides, s.Unrecorded a) (hsep : ∀ a ∈ sides, ∀ b, s.link a = some b → b ∉ sides) :
    s'.QueueInv out ∧ s.Enqueued s.queue sides s' := by
  induction sides generalizing s with
  | nil =>
    obtain rfl : s' = s := ho
    exact ⟨hq, [], by simp, by simp, by simp⟩
  | cons a sides ih =>
    obtain ⟨s1, h1, h2⟩ := ho
    have ho1 := h1 h.toWired (hfree a (by simp))
    have hq1 := ho1.queueInv h hq (hl a (by simp)) (hfree a (by simp))
    obtain ⟨ha, hnd'⟩ := List.nodup_cons.mp hnd
    have hadj1 : s1.Adjacent ∧ s1.link = s.link ∧ s1.trigonIndex = s.trigonIndex ∧
        ∀ c : TrigonRef × Fin 3, c ≠ a → s1.etc c.1 c.2 = s.etc c.1 c.2 := by
      rcases ho1 with ⟨-, k, rfl⟩ | ⟨-, k, r, rfl⟩
      · exact ⟨h.of_queue k s.etc s.queue, rfl, rfl, fun c _ => rfl⟩
      · refine ⟨h.of_queue k _ _, rfl, rfl, fun c hc => ?_⟩
        simp only [write_apply]
        rw [if_neg fun he => hc (Prod.ext he.1 he.2)]
    obtain ⟨hadj1, hlink1, hindex1, hetc1⟩ := hadj1
    have hfree1 : ∀ c ∈ sides, s1.Unrecorded c := by
      intro c hc
      obtain ⟨hc1, hc2⟩ := hfree c (by simp [hc])
      have hca : c ≠ a := by
        rintro rfl
        exact ha hc
      refine ⟨(hetc1 c hca).trans hc1, fun b hb => ?_⟩
      rw [hlink1] at hb
      have hba : b ≠ a := by
        rintro rfl
        exact hsep c (by simp [hc]) b hb (by simp)
      exact (hetc1 b hba).trans (hc2 b hb)
    obtain ⟨hq', new, hqueue, hin, hall⟩ := ih h2 hadj1 hq1
      (fun c hc => by unfold Live; rw [hindex1]; exact hl c (by simp [hc])) hnd' hfree1
      (fun c hc b hb => by
        rw [hlink1] at hb
        exact fun hbs => hsep c (by simp [hc]) b hb (by simp [hbs]))
    refine ⟨hq', ?_⟩
    rw [hlink1] at hall
    rcases ho1 with ⟨hnull, k, rfl⟩ | ⟨-, k, r, rfl⟩
    · refine ⟨new, hqueue, fun n hn => by simp [hin n hn], fun c hc hne => ?_⟩
      rcases List.mem_cons.mp hc with rfl | hc
      · exact absurd hnull hne
      · exact hall c hc hne
    · refine ⟨⟨r, a.1, a.2⟩ :: new, by rw [hqueue]; simp, fun n hn => ?_, fun c hc hne => ?_⟩
      · rcases List.mem_cons.mp hn with rfl | hn
        · simp [QueueNode.side]
        · simp [hin n hn]
      · rcases List.mem_cons.mp hc with rfl | hc
        · exact ⟨⟨r, c.1, c.2⟩, by simp, rfl⟩
        · obtain ⟨n, hn, hs⟩ := hall c hc hne
          exact ⟨n, by simp [hn], hs⟩

lemma enterEdges_offered (sides : List (TrigonRef × Fin 3)) :
    s.OfferedAll sides (sides.foldl (fun s a => s.enterEdge a.1 a.2) s) := by
  induction sides generalizing s with
  | nil => exact rfl
  | cons a sides ih => exact ⟨_, fun hw hfree => enterEdge_offered hw hfree.1, ih⟩

lemma enterOuters_offered (sides : List (TrigonRef × Fin 3)) :
    s.OfferedAll sides (sides.foldl (fun s a => s.enterOuter a.1 a.2) s) := by
  induction sides generalizing s with
  | nil => exact rfl
  | cons a sides ih => exact ⟨_, fun hw hfree => enterOuter_offered hw hfree.1, ih⟩

lemma checkTrigonEdge_offered {t : TrigonRef} (hr : s.checkTrigonEdge t = .ok s') :
    s.OfferedAll [(t, 0), (t, 1), (t, 2)] s' := by
  simp only [checkTrigonEdge, List.foldlM_cons, List.foldlM_nil, bind_eq_ok, pure, Except.pure,
    Except.ok.injEq] at hr
  obtain ⟨s1, h1, s2, h2, s3, h3, rfl⟩ := hr
  exact ⟨s1, fun hw hfree => checkSide_offered hw hfree h1, s2,
    fun hw hfree => checkSide_offered hw hfree h2, s3,
    fun hw hfree => checkSide_offered hw hfree h3, rfl⟩

end Offer

end Net

end MTalk.Triangle
