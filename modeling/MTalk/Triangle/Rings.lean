import MTalk.Triangle.Overlaps
import MTalk.Triangle.QueueRuns
import MTalk.Triangle.VertexStars
import MTalk.Library.PartialWalks

/-!
# Rings of trigons around the inserted vertices

A vertex is encircled when each of its trigons has a right neighbour and steps to the right and back
join them all. A split encircles the vertex it inserts, and splits and flips take the corners
at every other vertex over into the new trigons with the steps between them. The trigons around an
encircled vertex form one closed fan.
-/

namespace MTalk.Triangle

open PartialWalks

namespace Net

variable {K : Type}

/-- A corner of the net and its right neighbour. -/
def RightOf (s : Net K) (c d : Corner) : Prop := s.Live c.1 ∧ s.rightCorner c = some d

/-- Steps to the right and back lead from one corner to the other. -/
def StarJoined (s : Net K) : Corner → Corner → Prop := Relation.EqvGen s.RightOf

/-- The trigons around the vertex all have right neighbours and are joined by them. -/
structure Encircled (s : Net K) (v : Vertex K) : Prop where
  joined : ∀ c d, s.Live c.1 → s.vex c.1 c.2 = v → s.Live d.1 → s.vex d.1 d.2 = v → s.StarJoined c d
  closed : ∀ c, s.Live c.1 → s.vex c.1 c.2 = v → s.rightCorner c ≠ none

variable {s s' : Net K} {v : Vertex K}

lemma Wired.rightCorner_eq (h : s.Wired) (t : TrigonRef) (i : Fin 3) :
    s.rightCorner (t, i) = (s.link (t, i + 1)).map fun b => (b.1, b.2 + 1) := by
  unfold rightCorner
  cases hu : s.nbtri t (i + 1) with
  | none =>
    rw [link_of_null hu]
    rfl
  | some u =>
    obtain ⟨j, hj⟩ := h.link_of_nbtri hu
    rw [hj, (link_eq_some.mp hj).2]
    rfl

lemma rightOf_iff (h : s.Wired) {t : TrigonRef} {i : Fin 3} {d : Corner} :
    s.RightOf (t, i) d ↔ s.Live t ∧ ∃ b, s.link (t, i + 1) = some b ∧ d = (b.1, b.2 + 1) := by
  unfold RightOf
  rw [h.rightCorner_eq, Option.map_eq_some_iff]
  simp only [eq_comm]

lemma starJoined_of_link (h : s.Wired) {t u : TrigonRef} {i j : Fin 3} (ht : s.Live t)
    (hl : s.link (t, i + 1) = some (u, j)) : s.StarJoined (t, i) (u, j + 1) :=
  .rel _ _ ((rightOf_iff h).mpr ⟨ht, _, hl, rfl⟩)

/-! The fan of an encircled vertex. -/

lemma finite_corners (s : Net K) (v : Vertex K) :
    {c : Corner | s.Live c.1 ∧ s.vex c.1 c.2 = v}.Finite := by
  have hfinite : {t : TrigonRef | s.Live t}.Finite := List.finite_toSet s.trigonIndex
  exact (hfinite.prod Set.finite_univ).subset fun c hc => ⟨hc.1, trivial⟩

lemma injective_corners (hs : s.AdjacencyInvariant) (v : Vertex K) :
    Injective s.rightCorner {c : Corner | s.Live c.1 ∧ s.vex c.1 c.2 = v} := by
  constructor
  · rintro c ⟨hlive, hv⟩ d hd
    obtain ⟨-, hlive', hv'⟩ := leftCorner_of_right hs hlive hd
    exact ⟨hlive', hv'.trans hv⟩
  · rintro c ⟨hlive, -⟩ c' ⟨hlive', -⟩ d hd hd'
    have hback := (leftCorner_of_right hs hlive hd).1
    rw [(leftCorner_of_right hs hlive' hd').1] at hback
    exact (Option.some.inj hback).symm

/-- The trigons around an encircled vertex form one closed fan. -/
theorem Encircled.exists_fan (h : s.Encircled v) (hs : s.AdjacencyInvariant) (hv : s.OnNet v)
    (honce : ∀ t, s.Live t → ∀ i j, s.vex t i = v → s.vex t j = v → i = j) :
    ∃ star, s.Fan v star ∧ ∀ c ∈ star.getLast?, s.rightCorner c = star.head? := by
  obtain ⟨t, ht, i, hi⟩ := hv
  have hinj := injective_corners hs v
  have hstart : (t, i) ∈ {c : Corner | s.Live c.1 ∧ s.vex c.1 c.2 = v} := ⟨ht, hi⟩
  have hgoes : ∀ n, iter s.rightCorner n (t, i) ≠ none := by
    intro n
    induction n with
    | zero => simp
    | succ n ih =>
      obtain ⟨c, hc⟩ := Option.ne_none_iff_exists'.mp ih
      have hmem := hinj.mem_of_iter hstart hc
      rw [iter_succ, hc]
      exact h.closed c hmem.1 hmem.2
  have hreturns : ∃ n, 0 < n ∧ iter s.rightCorner n (t, i) = some (t, i) := by
    obtain ⟨n, hn, hend⟩ := hinj.exists_end_or_return (s.finite_corners v) hstart
    exact ⟨n, hn, hend.resolve_left (hgoes n)⟩
  classical
  obtain ⟨hpos, hreturn⟩ := Nat.find_spec hreturns
  have hfirst : ∀ m, 0 < m → m < Nat.find hreturns → iter s.rightCorner m (t, i) ≠ some (t, i) :=
    fun m hm hlt hback => Nat.find_min hreturns hlt ⟨hm, hback⟩
  generalize Nat.find hreturns = n at hpos hreturn hfirst
  have hsub : ∀ c ∈ points s.rightCorner n (t, i), s.Live c.1 ∧ s.vex c.1 c.2 = v := by
    intro c hc
    obtain ⟨k, -, hk⟩ := mem_points.mp hc
    exact hinj.mem_of_iter hstart hk
  -- A step to the right or back stays in the walk.
  have hstays : ∀ c d, s.StarJoined c d →
      (c ∈ points s.rightCorner n (t, i) ↔ d ∈ points s.rightCorner n (t, i)) := by
    intro c d hcd
    induction hcd with
    | rel c d hcd =>
      obtain ⟨hlive, hright⟩ := hcd
      refine ⟨fun hc => next_mem_points hreturn hc hright, fun hd => ?_⟩
      obtain ⟨b, hb, hbd⟩ := exists_before_mem_points hpos hreturn hd
      have hvertex : s.vex c.1 c.2 = v := by
        rw [← (leftCorner_of_right hs hlive hright).2.2]
        exact (hsub d hd).2
      rwa [hinj.injective c ⟨hlive, hvertex⟩ b (hsub b hb) d hright hbd]
    | refl c => exact Iff.rfl
    | symm c d _ ih => exact ih.symm
    | trans c d e _ _ ih₁ ih₂ => exact ih₁.trans ih₂
  have hhead : (points s.rightCorner n (t, i)).head? = some (t, i) := head_points hpos (t, i)
  have hlast : ∀ c ∈ (points s.rightCorner n (t, i)).getLast?,
      s.rightCorner c = (points s.rightCorner n (t, i)).head? := by
    intro c hc
    rw [hhead, ← hreturn]
    exact next_getLast_points (hgoes n) hc
  refine ⟨points s.rightCorner n (t, i), ⟨fun c => ⟨hsub c, fun hc => ?_⟩, ?_, ?_, .inr hlast⟩, hlast⟩
  · refine (hstays (t, i) c (h.joined _ _ ht hi hc.1 hc.2)).mp ?_
    exact List.mem_of_mem_head? hhead
  · refine List.Nodup.map_on ?_ (hinj.nodup_points hstart hfirst)
    intro c hc d hd hsame
    obtain ⟨hlive, hvc⟩ := hsub c hc
    have hvd := (hsub d hd).2
    rw [← hsame] at hvd
    exact Prod.ext hsame (honce c.1 hlive c.2 d.2 hvc hvd)
  · exact isChain_points n (t, i)

/-! Corners that follow the corners of the net before. -/

/-- Each old corner has new ones in its place, joined to each other, and so are those of corners
next to each other. -/
structure Follows (s s' : Net K) (R : Corner → Corner → Prop) : Prop where
  total : ∀ c, ∃ c', R c c'
  same : ∀ c c' c'', R c c' → R c c'' → s'.StarJoined c' c''
  step : ∀ c d, s.RightOf c d → ∃ c' d', R c c' ∧ R d d' ∧ s'.StarJoined c' d'

lemma Follows.joined {R : Corner → Corner → Prop} (hf : Follows s s' R) {c d : Corner}
    (h : s.StarJoined c d) : ∀ c' d', R c c' → R d d' → s'.StarJoined c' d' := by
  induction h with
  | rel c d hcd =>
    intro c' d' hc' hd'
    obtain ⟨c₁, d₁, hc₁, hd₁, hjoin⟩ := hf.step c d hcd
    exact .trans _ _ _ (hf.same c c' c₁ hc' hc₁) (.trans _ _ _ hjoin (hf.same d d₁ d' hd₁ hd'))
  | refl c => exact fun c' d' hc' hd' => hf.same c c' d' hc' hd'
  | symm c d _ ih => exact fun c' d' hc' hd' => .symm _ _ (ih d' c' hd' hc')
  | trans c d e _ _ ih₁ ih₂ =>
    intro c' e' hc' he'
    obtain ⟨d', hd'⟩ := hf.total d
    exact .trans _ _ _ (ih₁ c' d' hc' hd') (ih₂ d' e' hd' he')

/-- A vertex whose corners follow old ones stays encircled. -/
lemma Encircled.follow {R : Corner → Corner → Prop} (h : s.Encircled v) (hf : Follows s s' R)
    (hfrom : ∀ c', s'.Live c'.1 → s'.vex c'.1 c'.2 = v → ∃ c, s.Live c.1 ∧ s.vex c.1 c.2 = v ∧
      R c c' ∧ (s.rightCorner c ≠ none → s'.rightCorner c' ≠ none)) : s'.Encircled v := by
  constructor
  · intro c' d' hc' hvc' hd' hvd'
    obtain ⟨c, hc, hvc, hcc', -⟩ := hfrom c' hc' hvc'
    obtain ⟨d, hd, hvd, hdd', -⟩ := hfrom d' hd' hvd'
    exact hf.joined (h.joined c d hc hvc hd hvd) c' d' hcc' hdd'
  · intro c' hc' hvc'
    obtain ⟨c, hc, hvc, -, hright⟩ := hfrom c' hc' hvc'
    exact hright (h.closed c hc hvc)

/-! Sides that are taken over by new trigons. -/

/-- The new net has the sides of the old one at their new places, glued as they were. The sides
next to a corner are still next to each other, around it or across an edge that went. -/
structure Takeover (s s' : Net K) (place : TrigonRef × Fin 3 → Option (TrigonRef × Fin 3)) :
    Prop where
  wired : s'.Wired
  total : ∀ t i, (∃ a, place (t, i + 1) = some a) ∨ ∃ a, place (t, i + 2) = some a
  live : ∀ a a', s.Live a.1 → place a = some a' → s'.Live a'.1
  link : ∀ a a' b, s.Live a.1 → place a = some a' → s.link a = some b →
    ∃ b', place b = some b' ∧ s'.link a' = some b'
  turn : ∀ t i a b, place (t, i + 1) = some a → place (t, i + 2) = some b →
    s'.StarJoined (a.1, a.2 + 2) (b.1, b.2 + 1)
  gap : ∀ t i b, s.Live t → place (t, i + 1) = none → s.link (t, i + 1) = some b →
    ∃ a : Corner, place (t, i + 2) = some (a.1, a.2 + 2) ∧
      place (b.1, b.2 + 2) = some (a.1, a.2 + 1)

/-- A new corner in the place of an old one: it has the old corner's left or right side. -/
def InPlace (place : TrigonRef × Fin 3 → Option (TrigonRef × Fin 3)) (c c' : Corner) : Prop :=
  place (c.1, c.2 + 1) = some (c'.1, c'.2 + 1) ∨ place (c.1, c.2 + 2) = some (c'.1, c'.2 + 2)

lemma Takeover.follows {place : TrigonRef × Fin 3 → Option (TrigonRef × Fin 3)}
    (h : Takeover s s' place) (hs : s.Wired) : Follows s s' (InPlace place) := by
  have hturn : ∀ {c c' c'' : Corner}, place (c.1, c.2 + 1) = some (c'.1, c'.2 + 1) →
      place (c.1, c.2 + 2) = some (c''.1, c''.2 + 2) → s'.StarJoined c' c'' := by
    intro c c' c'' hright hleft
    have hjoin := h.turn c.1 c.2 _ _ hright hleft
    rwa [side_one_two, side_two_one] at hjoin
  constructor
  · rintro ⟨t, i⟩
    rcases h.total t i with ⟨a, ha⟩ | ⟨a, ha⟩
    · exact ⟨(a.1, a.2 + 2), .inl (by rw [side_two_one]; exact ha)⟩
    · exact ⟨(a.1, a.2 + 1), .inr (by rw [side_one_two]; exact ha)⟩
  · rintro c c' c'' (hc' | hc') (hc'' | hc'')
    · rw [hc'] at hc''
      obtain ⟨hfirst, hsecond⟩ := Prod.mk.inj (Option.some.inj hc'')
      rw [Prod.ext hfirst (add_right_cancel hsecond)]
      exact .refl _
    · exact hturn hc' hc''
    · exact .symm _ _ (hturn hc'' hc')
    · rw [hc'] at hc''
      obtain ⟨hfirst, hsecond⟩ := Prod.mk.inj (Option.some.inj hc'')
      rw [Prod.ext hfirst (add_right_cancel hsecond)]
      exact .refl _
  · rintro ⟨t, i⟩ d hd
    obtain ⟨ht, b, hb, rfl⟩ := (rightOf_iff hs).mp hd
    cases hp : place (t, i + 1) with
    | some a =>
      obtain ⟨b', hplace, hlink⟩ := h.link _ a b ht hp hb
      refine ⟨(a.1, a.2 + 2), (b'.1, b'.2 + 1), .inl ?_, .inr ?_, ?_⟩
      · rw [side_two_one]
        exact hp
      · rw [side_one_two, side_one_two]
        exact hplace
      · refine starJoined_of_link h.wired (h.live (t, i + 1) a ht hp) ?_
        rw [side_two_one]
        exact hlink
    | none =>
      obtain ⟨a, hleft, hright⟩ := h.gap t i b ht hp hb
      refine ⟨a, a, .inr hleft, .inl ?_, .refl _⟩
      rw [side_one_one]
      exact hright

/-- A corner with the right side of an old one has a right neighbour if that had one. -/
lemma Takeover.rightCorner_ne_none {place : TrigonRef × Fin 3 → Option (TrigonRef × Fin 3)}
    (h : Takeover s s' place) (hs : s.Wired) {c c' : Corner} (hc : s.Live c.1)
    (hplace : place (c.1, c.2 + 1) = some (c'.1, c'.2 + 1)) (hright : s.rightCorner c ≠ none) :
    s'.rightCorner c' ≠ none := by
  rw [hs.rightCorner_eq c.1 c.2, Ne, Option.map_eq_none_iff] at hright
  obtain ⟨b, hb⟩ := Option.ne_none_iff_exists'.mp hright
  obtain ⟨b', -, hb'⟩ := h.link (c.1, c.2 + 1) _ b hc hplace hb
  rw [h.wired.rightCorner_eq c'.1 c'.2, hb']
  simp

/-- A side that keeps its place is glued where it was, or to the new place of that side. -/
lemma Rebuilt.link_kept {s₁ : Net K} {olds news : List TrigonRef} (h : Rebuilt s₁ olds news s')
    (hadj : s.Adjacent) (hadj' : s'.Adjacent) (hlive : s₁.Live = s.Live)
    (hlink : ∀ a, s.Live a.1 → s₁.link a = s.link a) (hnews : ∀ u ∈ news, s'.Live u)
    (hfresh : ∀ u ∈ news, ¬ s.Live u) {place : TrigonRef × Fin 3 → Option (TrigonRef × Fin 3)}
    (hkept : ∀ a, a.1 ∉ olds → place a = some a)
    (hmoved : ∀ a b, a.1 ∈ olds → s.Live a.1 → s.link a = some b → b.1 ∉ olds →
      ∃ a', place a = some a' ∧ a'.1 ∈ news ∧ s₁.link a' = some b) {a b : TrigonRef × Fin 3}
    (ha : s.Live a.1) (hao : a.1 ∉ olds) (hab : s.link a = some b) :
    ∃ b', place b = some b' ∧ s'.link a = some b' := by
  obtain ⟨hb, hba⟩ := hadj.symmetric a b ha hab
  by_cases hbo : b.1 ∈ olds
  · obtain ⟨b', hplace, hnew, hlink'⟩ := hmoved b a hbo hb hba hao
    rw [← h.links.new _ hnew] at hlink'
    exact ⟨b', hplace, (hadj'.symmetric _ _ (hnews _ hnew) hlink').2⟩
  · refine ⟨b, hkept b hbo, ?_⟩
    rw [h.links.kept a b (hlive ▸ ha) hao hbo fun hn => hfresh _ hn hb, hlink a ha]
    exact hab

/-! Splits. -/

/-- Where a split puts the sides of its trigon. -/
def midPlace (s : Net K) (t : TrigonRef) (a : TrigonRef × Fin 3) : Option (TrigonRef × Fin 3) :=
  if a.1 = t then some (s.mids a.2, a.2) else some a

section Split

variable [Field K] [LinearOrder K] [FloorRing K] {t : TrigonRef}

lemma insertMid_link (h : s.Adjacent) (ht : s.Live t) (hr : s.insertMid v t = .ok s') (i j : Fin 3) :
    s'.Live (s.mids i) ∧ s'.link (s.mids i, j) =
      if i ≠ j then some (s.mids j, i) else s.link (t, i) := by
  obtain ⟨-, hreb⟩ := insertMid_ok h ht hr
  have hmem : s.mids i ∈ [s.mids 0, s.mids 1, s.mids 2] := by
    fin_cases i <;> simp
  refine ⟨?_, by rw [hreb.links.new _ hmem, newMids_link]⟩
  rw [hreb.live_iff h.nodup]
  exact .inr hmem

lemma insertMid_takeover (h : s.Adjacent) (ht : s.Live t) (hr : s.insertMid v t = .ok s') :
    Takeover s s' (s.midPlace t) := by
  obtain ⟨hadj', hreb⟩ := insertMid_ok h ht hr
  have hnew := fun i j => insertMid_link h ht hr i j
  have hmem : ∀ u, u ∈ [s.mids 0, s.mids 1, s.mids 2] ↔ ∃ i, u = s.mids i := by
    intro u
    simp [Fin.exists_fin_succ]
  refine ⟨hadj'.toWired, fun u i => ?_, fun a a' ha hplace => ?_, fun a a' b ha hplace hab => ?_,
    fun u i a b ha hb => ?_, fun u i b _ hplace _ => ?_⟩
  · left
    unfold midPlace
    split_ifs
    · exact ⟨_, rfl⟩
    · exact ⟨_, rfl⟩
  · unfold midPlace at hplace
    split_ifs at hplace with hat
    · obtain rfl := Option.some.inj hplace
      exact (hnew a.2 a.2).1
    · obtain rfl := Option.some.inj hplace
      exact (hreb.live_iff h.nodup a.1).mpr (.inl ⟨ha, by simpa using hat⟩)
  · by_cases hat : a.1 = t
    · obtain ⟨u, i⟩ := a
      obtain rfl : u = t := hat
      have hbt : b.1 ≠ u := (h.known u i b.1 b.2 hab).2.2
      rw [midPlace, if_pos rfl] at hplace
      obtain rfl := Option.some.inj hplace
      refine ⟨b, if_neg hbt, ?_⟩
      rw [(hnew i i).2, if_neg (not_not.mpr rfl)]
      exact hab
    · rw [midPlace, if_neg hat] at hplace
      obtain rfl := Option.some.inj hplace
      have hkept : ∀ c : Corner, c.1 ∉ [t] → s.midPlace t c = some c :=
        fun c hc => if_neg (by simpa using hc)
      have hmoved : ∀ c d : Corner, c.1 ∈ [t] → s.Live c.1 → s.link c = some d → d.1 ∉ [t] →
          ∃ c', s.midPlace t c = some c' ∧ c'.1 ∈ [s.mids 0, s.mids 1, s.mids 2] ∧
            (s.newMids v t).link c' = some d := by
        rintro ⟨w, i⟩ d hw - hd -
        obtain rfl : w = t := by simpa using hw
        refine ⟨(s.mids i, i), if_pos rfl, (hmem _).mpr ⟨i, rfl⟩, ?_⟩
        rw [newMids_link, if_neg (not_not.mpr rfl)]
        exact hd
      refine hreb.link_kept h hadj' rfl (fun c hc => newMids_link_old v t (s.ne_mids (h.old c.1 hc)))
        (fun u hu => ?_) (fun u hu hlive => ?_) hkept hmoved ha (by simpa using hat) hab
      · obtain ⟨i, rfl⟩ := (hmem u).mp hu
        exact (hnew i i).1
      · obtain ⟨i, rfl⟩ := (hmem u).mp hu
        exact s.ne_mids (h.old _ hlive) i rfl
  · unfold midPlace at ha hb
    dsimp only at ha hb
    split_ifs at ha hb with hut
    · obtain rfl := Option.some.inj ha
      obtain rfl := Option.some.inj hb
      dsimp only
      rw [side_one_two, side_two_one]
      have hlink : s'.link (s.mids (i + 2), i + 1) = some (s.mids (i + 1), i + 2) := by
        rw [(hnew (i + 2) (i + 1)).2, if_pos]
        rw [← side_one_one]
        exact (side_ne_one (i + 1)).symm
      have hjoin := starJoined_of_link hadj'.toWired (hnew (i + 2) 0).1 hlink
      rw [side_two_one] at hjoin
      exact .symm _ _ hjoin
    · obtain rfl := Option.some.inj ha
      obtain rfl := Option.some.inj hb
      dsimp only
      rw [side_one_two, side_two_one]
      exact .refl _
  · unfold midPlace at hplace
    split_ifs at hplace

/-- A split keeps the other vertices encircled and encircles the one it inserts, if that is new. -/
theorem insertMid_encircled (h : s.Adjacent) (ht : s.Live t) (hr : s.insertMid v t = .ok s')
    (hnew : ¬ s.OnNet v) {w : Vertex K} (hw : s.Encircled w ∨ w = v) : s'.Encircled w := by
  obtain ⟨hadj', hreb⟩ := insertMid_ok h ht hr
  have hlink := fun i j => insertMid_link h ht hr i j
  have hmem : ∀ u, u ∈ [s.mids 0, s.mids 1, s.mids 2] ↔ ∃ i, u = s.mids i := by
    intro u
    simp [Fin.exists_fin_succ]
  have hcases : ∀ c : Corner, s'.Live c.1 → s.Live c.1 ∧ c.1 ≠ t ∧ s'.vex c.1 = s.vex c.1 ∨
      ∃ i, c.1 = s.mids i ∧ s'.vex c.1 = fun j => if i ≠ j then s.vex t j else v := by
    intro c hc
    rw [hreb.vex]
    rcases (hreb.live_iff h.nodup c.1).mp hc with ⟨hlive, hne⟩ | hin
    · exact .inl ⟨hlive, by simpa using hne,
        (s.newMids_old v t (s.ne_mids (h.old c.1 hlive))).1⟩
    · obtain ⟨i, hi⟩ := (hmem c.1).mp hin
      exact .inr ⟨i, hi, by rw [hi, (s.newMids_new v t i).1]⟩
  by_cases hwv : w = v
  · -- The corners at the inserted vertex are those of the three new trigons.
    subst hwv
    have hcorner : ∀ c : Corner, s'.Live c.1 → s'.vex c.1 c.2 = w → ∃ i, c = (s.mids i, i) := by
      intro c hc hvc
      rcases hcases c hc with ⟨hlive, -, hvex⟩ | ⟨i, hi, hvex⟩
      · rw [hvex] at hvc
        exact absurd ⟨c.1, hlive, c.2, hvc⟩ hnew
      · rw [hvex] at hvc
        by_cases hne : i = c.2
        · exact ⟨i, Prod.ext hi hne.symm⟩
        · dsimp only at hvc
          rw [if_pos hne] at hvc
          exact absurd ⟨t, ht, c.2, hvc⟩ hnew
    have hnext : ∀ i, s'.link (s.mids i, i + 1) = some (s.mids (i + 1), i) := by
      intro i
      rw [(hlink i (i + 1)).2, if_pos (side_ne_one i)]
    have hstep : ∀ i, s'.StarJoined (s.mids i, i) (s.mids (i + 1), i + 1) := fun i =>
      starJoined_of_link hadj'.toWired (hlink i i).1 (hnext i)
    constructor
    · intro c d hc hvc hd hvd
      obtain ⟨i, rfl⟩ := hcorner c hc hvc
      obtain ⟨j, rfl⟩ := hcorner d hd hvd
      rcases side_cases i j with rfl | rfl | rfl
      · exact .refl _
      · exact hstep i
      · have hsecond := hstep (i + 1)
        rw [side_one_one] at hsecond
        exact .trans _ _ _ (hstep i) hsecond
    · intro c hc hvc
      obtain ⟨i, rfl⟩ := hcorner c hc hvc
      rw [hadj'.rightCorner_eq, hnext]
      simp
  · refine (hw.resolve_right hwv).follow ((insertMid_takeover h ht hr).follows h.toWired) ?_
    intro c' hc' hvc'
    rcases hcases c' hc' with ⟨hlive, hne, hvex⟩ | ⟨k, hk, hvex⟩
    · have hplace : s.midPlace t (c'.1, c'.2 + 1) = some (c'.1, c'.2 + 1) := if_neg hne
      exact ⟨c', hlive, by rwa [← hvex], .inl hplace,
        (insertMid_takeover h ht hr).rightCorner_ne_none h.toWired hlive hplace⟩
    · obtain ⟨u, i⟩ := c'
      obtain rfl : u = s.mids k := hk
      rw [hvex] at hvc'
      dsimp only at hvc'
      by_cases hki : k = i
      · rw [if_neg (not_not.mpr hki)] at hvc'
        exact absurd hvc'.symm hwv
      rw [if_pos hki] at hvc'
      have hplace : InPlace (s.midPlace t) (t, i) (s.mids k, i) := by
        rcases (side_cases i k).resolve_left hki with rfl | rfl
        · exact .inl (if_pos rfl)
        · exact .inr (if_pos rfl)
      refine ⟨(t, i), ht, hvc', hplace, fun hright => ?_⟩
      rw [hadj'.rightCorner_eq, (hlink k (i + 1)).2]
      split_ifs with hki'
      · simp
      · rw [h.rightCorner_eq] at hright
        rwa [not_not.mp hki']

end Split

/-! Flips. -/

/-- Where a flip puts the sides of its trigons; the two sides at the edge go. -/
def flipPlace (s : Net K) (p1 : TrigonRef) (vid : Fin 3) (p2 : TrigonRef) (vid1 : Fin 3)
    (a : TrigonRef × Fin 3) : Option (TrigonRef × Fin 3) :=
  if a.1 ∈ [p1, p2] then
    if a = (p1, vid) ∨ a = (p2, vid1) then none else some (s.flipSide p1 vid vid1 a)
  else some a

section Flip

variable {p1 p2 : TrigonRef} {vid vid1 : Fin 3}

lemma flipPlace_kept {a : TrigonRef × Fin 3} (ha : a.1 ∉ [p1, p2]) :
    s.flipPlace p1 vid p2 vid1 a = some a := if_neg ha

lemma flipPlace_first {i j : Fin 3} (hne : p2 ≠ p1) : s.flipPlace p1 i p2 j (p1, i) = none ∧
    s.flipPlace p1 i p2 j (p1, i + 1) = some (s.trigonCount + 1, 0) ∧
      s.flipPlace p1 i p2 j (p1, i + 2) = some (s.trigonCount, 2) := by
  have h21 : ∀ i : Fin 3, i + 2 ≠ i + 1 := by decide
  simp [flipPlace, flipSide, hne.symm, (side_ne_one i).symm, (side_ne_two i).symm, h21]

lemma flipPlace_second {i j : Fin 3} (hne : p2 ≠ p1) : s.flipPlace p1 i p2 j (p2, j) = none ∧
    s.flipPlace p1 i p2 j (p2, j + 1) = some (s.trigonCount, 0) ∧
      s.flipPlace p1 i p2 j (p2, j + 2) = some (s.trigonCount + 1, 2) := by
  have h21 : ∀ i : Fin 3, i + 2 ≠ i + 1 := by decide
  simp [flipPlace, flipSide, hne, (side_ne_one j).symm, (side_ne_two j).symm, h21]

variable [Field K]

/-- What a flip of an edge between two trigons does to the net. -/
structure Flipped (s : Net K) (p1 : TrigonRef) (vid : Fin 3) (p2 : TrigonRef) (vid1 : Fin 3)
    (s' : Net K) : Prop where
  adjacent : s.Adjacent
  adjacent' : s'.Adjacent
  live : s.Live p1
  link : s.link (p1, vid) = some (p2, vid1)
  one : s.SharesOneSide p1 vid
  rebuilt : Rebuilt (s.newPair p1 vid p2 vid1) [p1, p2] [s.trigonCount, s.trigonCount + 1] s'

namespace Flipped

variable (h : Flipped s p1 vid p2 vid1 s')

include h

lemma ne : p2 ≠ p1 := (h.adjacent.known _ _ _ _ h.link).2.2

lemma back : s.Live p2 ∧ s.link (p2, vid1) = some (p1, vid) := h.adjacent.symmetric _ _ h.live h.link

lemma live_iff (u : TrigonRef) : s'.Live u ↔
    s.Live u ∧ u ∉ [p1, p2] ∨ u ∈ [s.trigonCount, s.trigonCount + 1] :=
  h.rebuilt.live_iff h.adjacent.nodup u

lemma link_first (j : Fin 3) : s'.link (s.trigonCount, j) = ![s.link (p2, vid1 + 1),
    some (s.trigonCount + 1, 1), s.link (p1, vid + 2)] j := by
  rw [h.rebuilt.links.new _ (by simp), newPair_link_first]

lemma link_second (j : Fin 3) : s'.link (s.trigonCount + 1, j) = ![s.link (p1, vid + 1),
    some (s.trigonCount, 1), s.link (p2, vid1 + 2)] j := by
  rw [h.rebuilt.links.new _ (by simp), newPair_link_second]

/-- Around the ends of the new edge its two trigons are next to each other. -/
lemma across : s'.StarJoined (s.trigonCount, 0) (s.trigonCount + 1, 2) ∧
    s'.StarJoined (s.trigonCount + 1, 0) (s.trigonCount, 2) := by
  have hw := h.adjacent'.toWired
  have hfirst : s'.link (s.trigonCount, 0 + 1) = some (s.trigonCount + 1, 1) := h.link_first 1
  have hsecond : s'.link (s.trigonCount + 1, 0 + 1) = some (s.trigonCount, 1) := h.link_second 1
  exact ⟨starJoined_of_link hw ((h.live_iff _).mpr (.inr (by simp))) hfirst,
    starJoined_of_link hw ((h.live_iff _).mpr (.inr (by simp))) hsecond⟩

/-- An outer side of the two old trigons, at its new place. -/
lemma outer {a a' : TrigonRef × Fin 3} (ha : a.1 ∈ [p1, p2])
    (hplace : s.flipPlace p1 vid p2 vid1 a = some a') : a'.1 ∈ [s.trigonCount, s.trigonCount + 1] ∧
      (s.newPair p1 vid p2 vid1).link a' = s.link a ∧
        ∀ b, s.link a = some b → b.1 ∉ [p1, p2] := by
  unfold flipPlace at hplace
  rw [if_pos ha] at hplace
  split_ifs at hplace with hinner
  obtain ⟨hv, hv1⟩ := not_or.mp hinner
  obtain rfl := Option.some.inj hplace
  obtain ⟨hout, hlink⟩ := flipSide_outer (s := s) h.ne ha hv hv1
  exact ⟨outerSides_new hout, hlink, fun b hb => h.adjacent.outer h.live h.link h.one ha hv hv1 hb⟩

lemma takeover_link {a a' b : TrigonRef × Fin 3} (ha : s.Live a.1)
    (hplace : s.flipPlace p1 vid p2 vid1 a = some a') (hab : s.link a = some b) :
    ∃ b', s.flipPlace p1 vid p2 vid1 b = some b' ∧ s'.link a' = some b' := by
  have hold : ∀ c : Corner, s.Live c.1 → (s.newPair p1 vid p2 vid1).link c = s.link c := by
    intro c hc
    have hlt := h.adjacent.old c.1 hc
    exact newPair_link_old p1 vid p2 vid1 hlt.ne (Nat.lt_add_right 1 hlt).ne
  by_cases hao : a.1 ∈ [p1, p2]
  · obtain ⟨hnew, hlink, hbo⟩ := h.outer hao hplace
    refine ⟨b, flipPlace_kept (hbo b hab), ?_⟩
    rw [h.rebuilt.links.new _ hnew, hlink]
    exact hab
  · rw [flipPlace_kept hao] at hplace
    obtain rfl := Option.some.inj hplace
    have hmoved : ∀ c d : Corner, c.1 ∈ [p1, p2] → s.Live c.1 → s.link c = some d →
        d.1 ∉ [p1, p2] → ∃ c', s.flipPlace p1 vid p2 vid1 c = some c' ∧
          c'.1 ∈ [s.trigonCount, s.trigonCount + 1] ∧
            (s.newPair p1 vid p2 vid1).link c' = some d := by
      intro c d hc _ hcd hd
      have hplace : ∃ c', s.flipPlace p1 vid p2 vid1 c = some c' := by
        unfold flipPlace
        rw [if_pos hc, if_neg]
        · exact ⟨_, rfl⟩
        · rintro (rfl | rfl)
          · rw [h.link] at hcd
            obtain rfl := Option.some.inj hcd
            simp at hd
          · rw [h.back.2] at hcd
            obtain rfl := Option.some.inj hcd
            simp at hd
      obtain ⟨c', hc'⟩ := hplace
      obtain ⟨hnew, hlink, -⟩ := h.outer hc hc'
      exact ⟨c', hc', hnew, hlink.trans hcd⟩
    refine h.rebuilt.link_kept h.adjacent h.adjacent' rfl hold
      (fun u hu => (h.live_iff u).mpr (.inr hu)) (fun u hu hlive => ?_)
      (fun c hc => flipPlace_kept hc) hmoved ha hao hab
    have hlt := h.adjacent.old u hlive
    simp only [List.mem_cons, List.not_mem_nil, or_false] at hu
    rcases hu with rfl | rfl
    · exact hlt.ne rfl
    · exact (Nat.lt_add_right 1 hlt).ne rfl

lemma takeover : Takeover s s' (s.flipPlace p1 vid p2 vid1) := by
  have hw := h.adjacent'.toWired
  obtain ⟨hfirst, hfirst₁, hfirst₂⟩ := flipPlace_first (s := s) (i := vid) (j := vid1) h.ne
  obtain ⟨hsecond, hsecond₁, hsecond₂⟩ := flipPlace_second (s := s) (i := vid) (j := vid1) h.ne
  refine ⟨hw, fun u i => ?_, fun a a' ha hplace => ?_, fun a a' b ha hplace hab => ?_,
    fun u i a b ha hb => ?_, fun u i b hu hplace hb => ?_⟩
  · by_cases hold : u ∈ [p1, p2]
    · simp only [List.mem_cons, List.not_mem_nil, or_false] at hold
      rcases hold with rfl | rfl
      · rcases side_cases vid i with rfl | rfl | rfl
        · exact .inl ⟨_, hfirst₁⟩
        · exact .inl ⟨_, side_one_one vid ▸ hfirst₂⟩
        · exact .inr ⟨_, side_two_two vid ▸ hfirst₁⟩
      · rcases side_cases vid1 i with rfl | rfl | rfl
        · exact .inl ⟨_, hsecond₁⟩
        · exact .inl ⟨_, side_one_one vid1 ▸ hsecond₂⟩
        · exact .inr ⟨_, side_two_two vid1 ▸ hsecond₁⟩
    · exact .inl ⟨_, flipPlace_kept hold⟩
  · by_cases hold : a.1 ∈ [p1, p2]
    · exact (h.live_iff _).mpr (.inr (h.outer hold hplace).1)
    · rw [flipPlace_kept hold] at hplace
      obtain rfl := Option.some.inj hplace
      exact (h.live_iff _).mpr (.inl ⟨ha, hold⟩)
  · exact h.takeover_link ha hplace hab
  · by_cases hold : u ∈ [p1, p2]
    · simp only [List.mem_cons, List.not_mem_nil, or_false] at hold
      rcases hold with rfl | rfl
      · rcases side_cases vid i with rfl | rfl | rfl
        · rw [hfirst₁] at ha
          rw [hfirst₂] at hb
          obtain rfl := Option.some.inj ha
          obtain rfl := Option.some.inj hb
          exact .symm _ _ h.across.1
        · rw [side_one_two, hfirst] at hb
          cases hb
        · rw [side_two_one, hfirst] at ha
          cases ha
      · rcases side_cases vid1 i with rfl | rfl | rfl
        · rw [hsecond₁] at ha
          rw [hsecond₂] at hb
          obtain rfl := Option.some.inj ha
          obtain rfl := Option.some.inj hb
          exact .symm _ _ h.across.2
        · rw [side_one_two, hsecond] at hb
          cases hb
        · rw [side_two_one, hsecond] at ha
          cases ha
    · rw [flipPlace_kept hold] at ha hb
      obtain rfl := Option.some.inj ha
      obtain rfl := Option.some.inj hb
      dsimp only
      rw [side_one_two, side_two_one]
      exact .refl _
  · have hinner : (u, i + 1) = (p1, vid) ∨ (u, i + 1) = (p2, vid1) := by
      unfold flipPlace at hplace
      split_ifs at hplace with hold hinner
      exact hinner
    rcases hinner with he | he
    · obtain ⟨rfl, rfl⟩ := Prod.mk.inj he
      rw [h.link] at hb
      obtain rfl := Option.some.inj hb
      refine ⟨(s.trigonCount + 1, 1), ?_, hsecond₂⟩
      rw [← side_one_one]
      exact hfirst₁
    · obtain ⟨rfl, rfl⟩ := Prod.mk.inj he
      rw [h.back.2] at hb
      obtain rfl := Option.some.inj hb
      refine ⟨(s.trigonCount, 1), ?_, hfirst₂⟩
      rw [← side_one_one]
      exact hsecond₁

/-- A flip keeps every vertex encircled. -/
theorem encircled {w : Vertex K} (hw : s.Encircled w) : s'.Encircled w := by
  obtain ⟨-, hfirst₁, hfirst₂⟩ := flipPlace_first (s := s) (i := vid) (j := vid1) h.ne
  obtain ⟨-, hsecond₁, hsecond₂⟩ := flipPlace_second (s := s) (i := vid) (j := vid1) h.ne
  have hspin : ∀ u u' j, s'.link (u, 1) = some (u', j) → s'.rightCorner (u, 0) ≠ none := by
    intro u u' j hl
    rw [h.adjacent'.rightCorner_eq]
    simp [hl]
  have hkeeps : ∀ c c' : Corner, s.Live c.1 →
      s.flipPlace p1 vid p2 vid1 (c.1, c.2 + 1) = some (c'.1, c'.2 + 1) →
        s.rightCorner c ≠ none → s'.rightCorner c' ≠ none :=
    fun c c' hc hplace => h.takeover.rightCorner_ne_none h.adjacent.toWired hc hplace
  refine hw.follow (h.takeover.follows h.adjacent.toWired) ?_
  rintro ⟨u, k⟩ hc' hvc'
  rcases (h.live_iff u).mp hc' with ⟨hlive, hkept⟩ | hnew
  · have hplace : s.flipPlace p1 vid p2 vid1 (u, k + 1) = some (u, k + 1) := flipPlace_kept hkept
    have hlt := h.adjacent.old u hlive
    rw [h.rebuilt.vex, (s.newPair_old _ _ _ _ hlt.ne (Nat.lt_add_right 1 hlt).ne).1] at hvc'
    exact ⟨(u, k), hlive, hvc', .inl hplace, hkeeps _ _ hlive hplace⟩
  · simp only [List.mem_cons, List.not_mem_nil, or_false] at hnew
    rcases hnew with rfl | rfl
    · rw [h.rebuilt.vex, (s.newPair_first _ _ _ _).1] at hvc'
      fin_cases k
      · exact ⟨(p1, vid), h.live, hvc', .inr hfirst₂, fun _ => hspin _ _ _ (h.link_first 1)⟩
      · rw [← side_one_one] at hfirst₂
        exact ⟨(p1, vid + 1), h.live, hvc', .inl hfirst₂, hkeeps _ _ h.live hfirst₂⟩
      · exact ⟨(p2, vid1), h.back.1, hvc', .inl hsecond₁, hkeeps _ _ h.back.1 hsecond₁⟩
    · rw [h.rebuilt.vex, (s.newPair_second _ _ _ _).1] at hvc'
      fin_cases k
      · exact ⟨(p2, vid1), h.back.1, hvc', .inr hsecond₂, fun _ => hspin _ _ _ (h.link_second 1)⟩
      · rw [← side_one_one] at hsecond₂
        exact ⟨(p2, vid1 + 1), h.back.1, hvc', .inl hsecond₂, hkeeps _ _ h.back.1 hsecond₂⟩
      · exact ⟨(p1, vid), h.live, hvc', .inl hfirst₁, hkeeps _ _ h.live hfirst₁⟩

end Flipped

end Flip

end Net

end MTalk.Triangle
