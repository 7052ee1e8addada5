import MTalk.Triangle.ContourReturns

/-!
# Level lines

At a level that is the height of no vertex a trigon has two crossed sides or none, so that the level
line through the net is a union of open lines and closed loops. A list of points is the whole line
through a trigon when it has every crossed edge of the component once and in order. The walk keeps
the higher ground on one side, and so it is never at both sides of one trigon.
-/

namespace MTalk.Triangle

open PartialWalks

namespace Net

variable {K : Type}

/-- Two sides are one edge of the net. -/
def SameEdge (s : Net K) (a b : TrigonRef × Fin 3) : Prop := a = b ∨ s.link a = some b

section Component

variable [LinearOrder K]

/-- Two crossed sides of one trigon, or a crossed edge seen from its two trigons. -/
def Joined (s : Net K) (z : K) (a b : TrigonRef × Fin 3) : Prop :=
  a ∈ s.entered z ∧ b ∈ s.entered z ∧ (a.1 = b.1 ∨ s.link a = some b)

/-- The crossed sides that are connected to those of a trigon. -/
def component (s : Net K) (z : K) (p : TrigonRef) : Set (TrigonRef × Fin 3) :=
  {a | ∃ i, s.crosses z p i = true ∧ Relation.EqvGen (s.Joined z) (p, i) a}

end Component

/-- A point divides its side in the proportion that the level divides the heights. -/
def OnSide [Field K] [LinearOrder K] (s : Net K) (z : K) (q : SidePoint K) : Prop :=
  let l1 := (s.vex q.side.1 (q.side.2 + 1)).coord
  let l2 := (s.vex q.side.1 (q.side.2 + 2)).coord
  ∃ k, 0 < k ∧ k < 1 ∧ q.coord.x = l1.x + k * (l2.x - l1.x) ∧ q.coord.y = l1.y + k * (l2.y - l1.y)
    ∧ z = l1.z + k * (l2.z - l1.z)

/-- The whole component of the level line, as the points of one open line or one closed loop. -/
structure WholeLine [Field K] [LinearOrder K] (s : Net K) (z : K) (p : TrigonRef)
    (list : List (SidePoint K)) : Prop where
  onSides : ∀ q ∈ list, q.side ∈ s.component z p ∧ s.OnSide z q
  complete : ∀ a ∈ s.component z p, ∃ q ∈ list, s.SameEdge q.side a
  consecutive : list.IsChain fun q r =>
    ∃ a b, s.SameEdge q.side a ∧ s.SameEdge r.side b ∧ a.1 = b.1 ∧ a ≠ b
  once : (list.Pairwise fun q r => ¬ s.SameEdge q.side r.side)
      ∧ (∀ q ∈ list.head?, s.link q.side = none) ∧ (∀ q ∈ list.getLast?, s.link q.side = none)
    ∨ ∃ l q, list = l ++ [q] ∧ (l.Pairwise fun q r => ¬ s.SameEdge q.side r.side)
      ∧ ∃ r ∈ l.head?, s.SameEdge r.side q.side

variable [LinearOrder K] {s : Net K} {z : K}

/-- The level is the height of no vertex. -/
def AvoidsVertices (s : Net K) (z : K) : Prop := ∀ t, s.Live t → ∀ i, (s.vex t i).coord.z ≠ z

/-- The other crossed side of a trigon. -/
def flip (s : Net K) (z : K) (x : TrigonRef × Fin 3) : TrigonRef × Fin 3 := (x.1, s.exitSide z x)

/-- The first end of a side, counted round the trigon, is below the level. -/
def Rising (s : Net K) (z : K) (x : TrigonRef × Fin 3) : Prop :=
  (s.vex x.1 (x.2 + 1)).coord.z < z

section OneTrigon

variable (hz : s.AvoidsVertices z)

include hz

lemma crosses_iff {t : TrigonRef} (ht : s.Live t) (i : Fin 3) :
    s.crosses z t i = true ↔
      ¬ ((s.vex t (i + 1)).coord.z < z ↔ (s.vex t (i + 2)).coord.z < z) := by
  have h1 := hz t ht (i + 1)
  have h2 := hz t ht (i + 2)
  rw [crosses, isCross_iff, min_le_iff, le_max_iff]
  rcases lt_or_gt_of_ne h1 with h1 | h1 <;> rcases lt_or_gt_of_ne h2 with h2 | h2
  · simp [h1, h2, h1.le, h1.not_ge, h2.not_ge]
  · simp [h1, h1.le, h2.le, h2.not_gt]
  · simp [h2, h1.le, h2.le, h1.not_gt]
  · simp [h1.not_gt, h2.not_gt, h1.not_ge, h2.not_ge]

/-- Of the other two sides of an entered trigon one is crossed. -/
lemma crosses_two_iff {x : TrigonRef × Fin 3} (hx : x ∈ s.entered z) :
    s.crosses z x.1 (x.2 + 2) = true ↔ ¬ s.crosses z x.1 (x.2 + 1) = true := by
  have h := (crosses_iff hz hx.1 x.2).mp hx.2
  rw [crosses_iff hz hx.1, crosses_iff hz hx.1, side_two_one, side_two_two, side_one_one,
    side_one_two]
  tauto

lemma exitSide_iff {x : TrigonRef × Fin 3} (hx : x ∈ s.entered z) (i : Fin 3) :
    s.exitSide z x = i ↔ i ≠ x.2 ∧ s.crosses z x.1 i = true := by
  have htwo := crosses_two_iff hz hx
  unfold exitSide
  rcases side_cases x.2 i with rfl | rfl | rfl
  · have h1 := (side_ne_one x.2).symm
    have h2 := (side_ne_two x.2).symm
    split_ifs <;> simp [h1, h2]
  · have h1 := (side_ne_one x.2).symm
    have h12 : x.2 + 2 ≠ x.2 + 1 := by
      rw [← side_one_one]
      exact (side_ne_one _).symm
    split_ifs with h <;> simp [h1, h12, h] at htwo ⊢ <;> tauto
  · have h2 := (side_ne_two x.2).symm
    have h12 : x.2 + 1 ≠ x.2 + 2 := by
      rw [← side_one_one]
      exact side_ne_one _
    split_ifs with h <;> simp [h2, h12, h]

omit hz in
lemma flip_entered {x : TrigonRef × Fin 3} (hx : x ∈ s.entered z) : s.flip z x ∈ s.entered z := by
  have hcross : s.crosses z x.1 (s.exitSide z x) = true := crosses_exitSide hx.2
  exact ⟨hx.1, hcross⟩

lemma flip_ne {x : TrigonRef × Fin 3} (hx : x ∈ s.entered z) : s.flip z x ≠ x := by
  intro h
  exact ((exitSide_iff hz hx _).mp rfl).1 (congrArg Prod.snd h)

lemma flip_flip {x : TrigonRef × Fin 3} (hx : x ∈ s.entered z) : s.flip z (s.flip z x) = x := by
  have hne := flip_ne hz hx
  have hback := (exitSide_iff hz (flip_entered hx) x.2).mpr
    ⟨fun h => hne (Prod.ext rfl h.symm), hx.2⟩
  rw [flip, hback]
  rfl

/-- The crossed sides of one trigon. -/
lemma eq_or_eq_flip {x y : TrigonRef × Fin 3} (hx : x ∈ s.entered z) (hy : y ∈ s.entered z)
    (hsame : x.1 = y.1) : y = x ∨ y = s.flip z x := by
  by_cases hside : y.2 = x.2
  · exact .inl (Prod.ext hsame.symm hside)
  · right
    have hcross : s.crosses z x.1 y.2 = true := by
      rw [hsame]
      exact hy.2
    have hexit := (exitSide_iff hz hx y.2).mpr ⟨hside, hcross⟩
    exact Prod.ext hsame.symm hexit.symm

lemma rising_flip {x : TrigonRef × Fin 3} (hx : x ∈ s.entered z) :
    s.Rising z (s.flip z x) ↔ ¬ s.Rising z x := by
  have hcross := (crosses_iff hz hx.1 x.2).mp hx.2
  have hflip := (crosses_iff hz hx.1 _).mp (flip_entered hx).2
  rcases exitSide_eq_or (s := s) (z := z) x with h | ⟨h, -⟩
  · simp only [flip, Rising, h, side_two_one, side_two_two] at hflip ⊢
    tauto
  · simp only [flip, Rising, h, side_one_one, side_one_two] at hflip ⊢
    tauto

end OneTrigon

section Walk

variable (hs : s.AdjacencyInvariant) (hz : s.AvoidsVertices z)

include hs hz

/-- An edge is rising seen from one side and falling seen from the other. -/
lemma rising_link {x y : TrigonRef × Fin 3} (hx : x ∈ s.entered z) (hxy : s.link x = some y) :
    s.Rising z y ↔ ¬ s.Rising z x := by
  obtain ⟨-, -, hfirst, -⟩ := hs.link_some hx.1 (show s.link (x.1, x.2) = some (y.1, y.2) from hxy)
  have hcross := (crosses_iff hz hx.1 x.2).mp hx.2
  unfold Rising
  rw [hfirst]
  tauto

lemma rising_follow {x y : TrigonRef × Fin 3} (hx : x ∈ s.entered z)
    (hxy : s.follow z x = some y) : s.Rising z y ↔ s.Rising z x := by
  have hflip := rising_flip hz hx
  have hlink := rising_link hs hz (flip_entered hx) hxy
  tauto

lemma rising_iter {n : ℕ} {x y : TrigonRef × Fin 3} (hx : x ∈ s.entered z)
    (hy : iter (s.follow z) n x = some y) : s.Rising z y ↔ s.Rising z x := by
  induction n generalizing x with
  | zero =>
    cases hy
    rfl
  | succ n ih =>
    obtain ⟨x', hx', hy⟩ := Option.bind_eq_some_iff.mp hy
    rw [ih ((hs.injective_follow z).closed x hx x' hx') hy, rising_follow hs hz hx hx']

/-- The walk never comes to the other side of a trigon that it has been in. -/
lemma eq_of_iter {n : ℕ} {x y : TrigonRef × Fin 3} (hx : x ∈ s.entered z)
    (hy : iter (s.follow z) n x = some y) (hsame : y.1 = x.1) : y = x := by
  have hyin := (hs.injective_follow z).mem_of_iter hx hy
  rcases eq_or_eq_flip hz hx hyin hsame.symm with rfl | rfl
  · rfl
  · have hrising := rising_iter hs hz hx hy
    rw [rising_flip hz hx] at hrising
    tauto

end Walk

section Whole

variable {p : TrigonRef}

lemma Joined.symm (hs : s.AdjacencyInvariant) {a b : TrigonRef × Fin 3} (h : s.Joined z a b) :
    s.Joined z b a := by
  obtain ⟨ha, hb, hsame | hlink⟩ := h
  · exact ⟨hb, ha, .inl hsame.symm⟩
  · exact ⟨hb, ha, .inr (hs.link_some ha.1 hlink).2.1⟩

/-- A set of crossed sides that joined sides do not lead out of has the component of each. -/
lemma mem_of_eqvGen (hs : s.AdjacencyInvariant) {S : Set (TrigonRef × Fin 3)}
    (hclosed : ∀ a b, s.Joined z a b → a ∈ S → b ∈ S) {a b : TrigonRef × Fin 3}
    (h : Relation.EqvGen (s.Joined z) a b) : a ∈ S ↔ b ∈ S := by
  induction h with
  | rel a b hab => exact ⟨hclosed a b hab, hclosed b a (hab.symm hs)⟩
  | refl a => rfl
  | symm a b _ ih => exact ih.symm
  | trans a b c _ _ hab hbc => exact hab.trans hbc

lemma component_of_joined {a b : TrigonRef × Fin 3} (ha : a ∈ s.component z p)
    (h : s.Joined z a b) : b ∈ s.component z p := by
  obtain ⟨i, hi, hpa⟩ := ha
  exact ⟨i, hi, hpa.trans _ _ _ (.rel _ _ h)⟩

lemma component_flip {x : TrigonRef × Fin 3} (hx : x ∈ s.entered z)
    (hp : x ∈ s.component z p) : s.flip z x ∈ s.component z p :=
  component_of_joined hp ⟨hx, flip_entered hx, .inl rfl⟩

lemma component_iter (hs : s.AdjacencyInvariant) {n : ℕ} {x y : TrigonRef × Fin 3}
    (hx : x ∈ s.entered z) (hp : x ∈ s.component z p) (hy : iter (s.follow z) n x = some y) :
    y ∈ s.component z p := by
  induction n generalizing x with
  | zero =>
    cases hy
    exact hp
  | succ n ih =>
    obtain ⟨x', hx', hy⟩ := Option.bind_eq_some_iff.mp hy
    have hentered := (hs.injective_follow z).closed x hx x' hx'
    apply ih hentered _ hy
    exact component_of_joined (component_flip hx hp) ⟨flip_entered hx, hentered, .inr hx'⟩

/-- The crossed sides of the trigons of a walk. -/
def sidesOf (s : Net K) (z : K) (n : ℕ) (x : TrigonRef × Fin 3) : Set (TrigonRef × Fin 3) :=
  {a | ∃ b ∈ points (s.follow z) n x, a = b ∨ a = s.flip z b}

/-- A walk from boundary to boundary, or back to its first state. -/
structure FullWalk (s : Net K) (z : K) (x : TrigonRef × Fin 3) (n : ℕ)
    (w : TrigonRef × Fin 3) : Prop where
  walk : iter (s.follow z) n x = some w
  before : ∀ m, 0 < m → m ≤ n → iter (s.follow z) m x ≠ some x
  ends : s.link x = none ∧ s.follow z w = none ∨ s.follow z w = some x

variable (hs : s.AdjacencyInvariant) (hz : s.AvoidsVertices z) {x w : TrigonRef × Fin 3} {n : ℕ}
  (hx : x ∈ s.entered z) (hfull : FullWalk s z x n w)

include hs hx in
lemma entered_of_mem_points {b : TrigonRef × Fin 3} (hb : b ∈ points (s.follow z) n x) :
    b ∈ s.entered z := by
  obtain ⟨k, -, hk⟩ := mem_points.mp hb
  exact (hs.injective_follow z).mem_of_iter hx hk

include hs hx hfull

/-- The state before a state of the walk is on it too, unless the walk begins there. -/
lemma FullWalk.link_mem {b c : TrigonRef × Fin 3} (hb : b ∈ points (s.follow z) (n + 1) x)
    (hbc : s.link b = some c) : ∃ d ∈ points (s.follow z) (n + 1) x, c = s.flip z d := by
  obtain ⟨k, hk, hb⟩ := mem_points.mp hb
  cases k with
  | zero =>
    cases hb
    rcases hfull.ends with ⟨hnone, -⟩ | hclosed
    · rw [hnone] at hbc
      cases hbc
    · have hw := (hs.injective_follow z).mem_of_iter hx hfull.walk
      have hback := (hs.link_some hw.1 hclosed).2.1
      rw [hback, Option.some.injEq] at hbc
      exact ⟨w, mem_points.mpr ⟨n, by omega, hfull.walk⟩, hbc.symm⟩
  | succ k =>
    rw [iter_succ] at hb
    obtain ⟨d, hd, hdb⟩ := Option.bind_eq_some_iff.mp hb
    have hback := (hs.link_some ((hs.injective_follow z).mem_of_iter hx hd).1 hdb).2.1
    rw [hback, Option.some.injEq] at hbc
    exact ⟨d, mem_points.mpr ⟨k, by omega, hd⟩, hbc.symm⟩

omit hs hx in
/-- The state after a state of the walk is on it too, unless the walk ends. -/
lemma FullWalk.follow_mem {b c : TrigonRef × Fin 3} (hb : b ∈ points (s.follow z) (n + 1) x)
    (hbc : s.follow z b = some c) : c ∈ points (s.follow z) (n + 1) x := by
  obtain ⟨k, hk, hkb⟩ := mem_points.mp hb
  rcases Nat.lt_or_ge k n with hlt | hge
  · refine mem_points.mpr ⟨k + 1, by omega, ?_⟩
    rw [iter_succ, hkb]
    exact hbc
  · obtain rfl : k = n := by omega
    rw [hfull.walk, Option.some.injEq] at hkb
    subst hkb
    rcases hfull.ends with ⟨-, hnone⟩ | hclosed
    · rw [hnone] at hbc
      cases hbc
    · rw [hclosed, Option.some.injEq] at hbc
      exact mem_points.mpr ⟨0, by omega, by rw [hbc]; rfl⟩

include hz

/-- Joined sides do not lead out of a full walk. -/
lemma FullWalk.closed {a b : TrigonRef × Fin 3} (hab : s.Joined z a b)
    (ha : a ∈ s.sidesOf z (n + 1) x) : b ∈ s.sidesOf z (n + 1) x := by
  obtain ⟨ha', hb', hjoin⟩ := hab
  obtain ⟨c, hc, hac⟩ := ha
  have hcin := entered_of_mem_points hs hx hc
  rcases hjoin with hsame | hlink
  · have htrigon : c.1 = b.1 := by
      rw [← hsame]
      rcases hac with rfl | rfl <;> rfl
    exact ⟨c, hc, eq_or_eq_flip hz hcin hb' htrigon⟩
  · rcases hac with rfl | rfl
    · obtain ⟨d, hd, rfl⟩ := hfull.link_mem hs hx hc hlink
      exact ⟨d, hd, .inr rfl⟩
    · exact ⟨b, hfull.follow_mem hc hlink, .inl rfl⟩

/-- A full walk has all crossed sides of its component. -/
lemma FullWalk.component_subset (hp : s.Live p) (hxp : x ∈ s.component z p)
    {a : TrigonRef × Fin 3} (ha : a ∈ s.component z p) : a ∈ s.sidesOf z (n + 1) x := by
  have hfirst : x ∈ s.sidesOf z (n + 1) x := ⟨x, mem_points.mpr ⟨0, by omega, rfl⟩, .inl rfl⟩
  obtain ⟨i, hi, hpx⟩ := hxp
  obtain ⟨j, hj, hpa⟩ := ha
  have hin := fun a b => hfull.closed hs hz hx (a := a) (b := b)
  have hpi := (mem_of_eqvGen hs hin hpx).mpr hfirst
  have hpj := hin (p, i) (p, j) ⟨⟨hp, hi⟩, ⟨hp, hj⟩, .inl rfl⟩ hpi
  exact (mem_of_eqvGen hs hin hpa).mp hpj

end Whole

end Net

end MTalk.Triangle
