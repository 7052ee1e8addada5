import MTalk.Triangle.GridLines

/-!
# The contours of a grid

Between two contours the flags that are `1` are those of whole lines, so `getContourSet` follows
every line once. A trace turns round with `-2` for the edge that it came from, and that is what
`Pre` gives for the edge `0`: from there it follows the line in the first direction again.
-/

namespace MTalk.Triangle.MatrixCon

open MTalk.GuardedRuns JavaArrays TriangleWalks PartialWalks

namespace Matrix

section Spec

variable {K : Type} [Field K] [LinearOrder K]

/-- One end of the edge is above the level and the other one is below. -/
def Crosses (m : Matrix K) (z : K) (e : ℤ) : Prop :=
  m.IsPresent e ∧ ∃ s t, m.getStart e = .ok s ∧ m.getEnd e = .ok t ∧
    (s < z ∧ z < t ∨ t < z ∧ z < s)

/-- The polylines have every crossed edge once, and go from triangle to triangle. -/
structure ExactSet (m : Matrix K) (z : K) (set : List (List (EdgePoint K))) : Prop where
  visits : ∃ vs, List.Forall₂ (fun line v => Visits (line.map EdgePoint.edge) v) set vs ∧
    vs.flatten.Nodup ∧ ∀ e, e ∈ vs.flatten ↔ m.Crosses z e
  consecutive : ∀ line ∈ set, line.IsChain fun q r => m.CommonTriangle q.edge r.edge
  points : ∀ line ∈ set, ∀ q ∈ line, { m with curh := z }.intersect q.edge = .ok (some q.coord)

/-- A grid between two calls. -/
structure Idle (row col : ℕ) (m : Matrix K) : Prop extends m.Grid row col where
  rev : m.rev = false
  clear : ∀ e, m.IsPresent e → load Stop.indexOutOfBounds m.flag e = .ok 0

end Spec

variable {K : Type} [Field K] [LinearOrder K] {m : Matrix K} {p q : (ℤ × ℤ) × (ℤ × ℤ)}

section Scans

/-- The contours of the edges before a number are there, and their edges are the ones marked. -/
structure Scanned (m : Matrix K) (k : ℤ) (s : Matrix K) : Prop where
  same : Same m s
  inv : s.Inv
  rev : s.rev = false
  lines : ∃ vs, List.Forall₂ (fun line v => Visits (line.map EdgePoint.edge) v) s.conset vs ∧
    vs.flatten.Nodup ∧
    (∀ e ∈ vs.flatten, ∃ q, m.crossed q ∧ m.pairEdge q = e) ∧
    (∀ e, m.IsPresent e →
      load Stop.indexOutOfBounds s.flag e = .ok (if e ∈ vs.flatten then 1 else 0)) ∧
    (∀ q r, m.crossed q → m.pairEdge q ∈ vs.flatten → m.follow q = some r →
      m.pairEdge r ∈ vs.flatten) ∧
    ∀ q, m.crossed q → m.pairEdge q < k → m.pairEdge q ∈ vs.flatten
  consecutive : ∀ line ∈ s.conset, line.IsChain fun q r => m.CommonTriangle q.edge r.edge
  points : ∀ line ∈ s.conset, ∀ q ∈ line, ∃ r, m.crossed r ∧ q = m.node r

/-- A line through an edge that is not marked has no marked edge. -/
lemma disjoint_of_whole {line : List ((ℤ × ℤ) × (ℤ × ℤ))} (hsep : Separates m.apex m.crossed
      fun v => m.height v < m.curh) (h : Whole m.apex m.crossed p line) (hp : m.crossed p)
    (marked : ℤ → Prop)
    (hclosed : ∀ q r, m.crossed q → marked (m.pairEdge q) → m.follow q = some r →
      marked (m.pairEdge r)) (hstart : ¬ marked (m.pairEdge p)) :
    ∀ q ∈ line, ¬ marked (m.pairEdge q) := by
  have hiter : ∀ n a b, m.crossed a → marked (m.pairEdge a) → iter m.follow n a = some b →
      marked (m.pairEdge b) := by
    intro n
    induction n with
    | zero =>
      intro a b _ hmark hb
      cases hb
      exact hmark
    | succ n ih =>
      intro a b ha hmark hb
      obtain ⟨c, hc, hb⟩ := Option.bind_eq_some_iff.mp hb
      exact ih c b (m.crossing.crossed_step hc) (hclosed a c ha hmark hc) hb
  intro q hq hmark
  have hqc := h.sides q hq
  have hswap : marked (m.pairEdge q.swap) := by
    rw [pairEdge_swap hqc.1]
    exact hmark
  obtain ⟨n, hn | hn⟩ := h.reached q hq
  · have hback := hiter n q.swap p.swap (crossed_swap hqc) hswap (hsep.iter_swap hp hn)
    rw [pairEdge_swap hp.1] at hback
    exact hstart hback
  · have hturn := hsep.iter_swap (crossed_swap hp) hn
    rw [Prod.swap_swap, Prod.swap_swap] at hturn
    exact hstart (hiter n q p hqc hmark hturn)

omit [Field K] [LinearOrder K] in
lemma Same.avoidsHeights {s : Matrix K} (h : Same m s) (hz : m.AvoidsHeights m.curh) :
    s.AvoidsHeights s.curh := by
  rw [h]
  exact hz

/-- `GetContourSet` begins a contour. -/
lemma begun_of_begin {s : Matrix K} (hinv : s.Inv) (hrev : s.rev = false) (hp : s.crossed p)
    (hforward : forward p = true) :
    ∃ s₁, s.begin (s.pairEdge p) (s.point (s.pairEdge p)) = .ok s₁ ∧ Same s s₁ ∧ s₁.Begun p ∧
      s₁.conset = s.conset ∧ ∀ e, e ≠ s.pairEdge p →
        load Stop.indexOutOfBounds s₁.flag e = load Stop.indexOutOfBounds s.flag e := by
  obtain ⟨hinv', hrange, hstored⟩ := hinv.moved hp.1
  refine ⟨{ s with
    flag := s.flag.set (s.pairEdge p).toNat 1
    curCon := [s.node p]
    cur := s.pairEdge p
    start := s.pairEdge p
    prev := -1 }, ?_, rfl, ⟨⟨?_, hp, rfl, ?_⟩, rfl, rfl, hrev, hforward, ?_⟩, rfl, ?_⟩
  · rw [Matrix.begin, store_ok hrange, ok_bind]
    rfl
  · exact hinv'.of_fields rfl rfl rfl rfl
  · exact iff_of_true (Or.inr (Or.inr rfl)) hforward
  · exact hstored.same
  · exact hstored.other

lemma nodup_edges {line : List ((ℤ × ℤ) × (ℤ × ℤ))} (h : Whole m.apex m.crossed p line) :
    (line.map m.pairEdge).Nodup := by
  rw [List.Nodup, List.pairwise_map]
  refine h.once.imp_of_mem ?_
  rintro a b ha hb ⟨hne, hne'⟩ hsame
  rcases (pairEdge_inj (h.sides a ha).1 (h.sides b hb).1).mp hsame with h1 | h1
  · exact hne h1
  · exact hne' h1

/-- A contour more. -/
lemma Scanned.collect {s s₁ s₂ : Matrix K} {k : ℤ} {line : List ((ℤ × ℤ) × (ℤ × ℤ))}
    (h : Scanned m k s) (hinv : m.Inv) (hz : m.AvoidsHeights m.curh) (hp : m.crossed p)
    (hedge : m.pairEdge p = k)
    (hflag : load Stop.indexOutOfBounds s.flag k = .ok 0) (hsame : Same s s₁)
    (hconset : s₁.conset = s.conset)
    (hload : ∀ e, e ≠ k → load Stop.indexOutOfBounds s₁.flag e =
      load Stop.indexOutOfBounds s.flag e)
    (ht : s₁.Traced s₂ line) (hw : Whole m.apex m.crossed p line) :
    Scanned m (k + 1) { s₂ with conset := s₂.conset ++ [s₂.curCon], curCon := [] } := by
  have hsame₁ : Same m s₁ := h.same.trans hsame
  obtain ⟨-, -, hedges, -, hnode⟩ := hsame₁.eqs
  have hcommon := hsame₁.commonTriangle
  obtain ⟨vs, hvisits, hnodup, hcrossed, hmarks, hclosed, hdone⟩ := h.lines
  have hstart : m.pairEdge p ∉ vs.flatten := by
    intro hmem
    have hmark := hmarks _ hp.1.isPresent
    rw [hedge, hflag, if_pos (hedge ▸ hmem)] at hmark
    simp at hmark
  have hdisjoint := disjoint_of_whole (hinv.separates hz) hw hp (· ∈ vs.flatten) hclosed hstart
  have hflatten : (vs ++ [line.map m.pairEdge]).flatten = vs.flatten ++ line.map m.pairEdge := by
    simp
  have hvisits₂ := ht.visits
  rw [hedges] at hvisits₂
  constructor
  · exact (hsame₁.trans ht.same).trans rfl
  · exact ht.inv.of_fields rfl rfl rfl rfl
  · exact ht.rev
  · refine ⟨vs ++ [line.map m.pairEdge], ?_, ?_, ?_, ?_, ?_, ?_⟩
    · rw [ht.conset, hconset]
      exact List.rel_append hvisits (.cons hvisits₂ .nil)
    · rw [hflatten]
      refine List.nodup_append.mpr ⟨hnodup, nodup_edges hw, ?_⟩
      rintro e he f hf rfl
      obtain ⟨q, hq, rfl⟩ := List.mem_map.mp hf
      exact hdisjoint q hq he
    · intro e he
      rw [hflatten, List.mem_append] at he
      rcases he with he | he
      · exact hcrossed e he
      · obtain ⟨q, hq, rfl⟩ := List.mem_map.mp he
        exact ⟨q, hw.sides q hq, rfl⟩
    · intro e he
      have hmark := ht.flag e
      rw [hedges] at hmark
      refine hmark.trans ?_
      rw [hflatten]
      by_cases hline : e ∈ line.map m.pairEdge
      · rw [if_pos hline, if_pos (List.mem_append_right _ hline)]
      · have hne : e ≠ k := by
          rintro rfl
          exact hline (hedge ▸ List.mem_map_of_mem hw.start)
        rw [if_neg hline, hload e hne, hmarks e he]
        simp only [List.mem_append, hline, or_false]
    · intro q r hq hmem hr
      rw [hflatten, List.mem_append] at hmem ⊢
      rcases hmem with hmem | hmem
      · exact Or.inl (hclosed q r hq hmem hr)
      · right
        obtain ⟨a, ha, haq⟩ := List.mem_map.mp hmem
        have hside : q ∈ line ∨ q.swap ∈ line := by
          rcases (pairEdge_inj (hw.sides a ha).1 hq.1).mp haq with rfl | rfl
          · exact Or.inl ha
          · rw [Prod.swap_swap]
            exact Or.inr ha
        have hrc := m.crossing.crossed_step hr
        rcases hw.closed q hside r hr with hmem' | hmem'
        · exact List.mem_map_of_mem hmem'
        · rw [← pairEdge_swap hrc.1]
          exact List.mem_map_of_mem hmem'
    · intro q hq hlt
      rw [hflatten, List.mem_append]
      rcases (Int.lt_add_one_iff.mp hlt).lt_or_eq with hlt | heq
      · exact Or.inl (hdone q hq hlt)
      · rw [heq, ← hedge]
        exact Or.inr (List.mem_map_of_mem hw.start)
  · intro l hl
    rw [ht.conset, hconset, List.mem_append, List.mem_singleton] at hl
    rcases hl with hl | rfl
    · exact h.consecutive l hl
    · rw [← hcommon]
      exact ht.consecutive
  · intro l hl q hq
    rw [ht.conset, hconset, List.mem_append, List.mem_singleton] at hl
    rcases hl with hl | rfl
    · exact h.points l hl q hq
    · obtain ⟨r, hr, rfl⟩ := ht.nodes q hq
      rw [hnode]
      exact ⟨r, hw.sides r hr, rfl⟩

omit [Field K] [LinearOrder K] in
lemma Same.isPresent {s : Matrix K} (h : Same m s) {e : ℤ} : s.IsPresent e ↔ m.IsPresent e := by
  have hrow : s.row = m.row := by rw [h]
  have hcol : s.col = m.col := by rw [h]
  exact ⟨fun he => he.of_size hrow.symm hcol.symm, fun he => he.of_size hrow hcol⟩

/-- An edge number more that begins no contour. -/
lemma Scanned.skip {s : Matrix K} {k : ℤ} (h : Scanned m k s)
    (hmark : ∀ vs : List (List ℤ),
      (∀ e, m.IsPresent e →
        load Stop.indexOutOfBounds s.flag e = .ok (if e ∈ vs.flatten then 1 else 0)) →
      ∀ q, m.crossed q → m.pairEdge q = k → k ∈ vs.flatten) :
    Scanned m (k + 1) s := by
  obtain ⟨vs, hvisits, hnodup, hcrossed, hmarks, hclosed, hdone⟩ := h.lines
  refine ⟨h.same, h.inv, h.rev, ⟨vs, hvisits, hnodup, hcrossed, hmarks, hclosed, ?_⟩,
    h.consecutive, h.points⟩
  intro q hq hlt
  rcases (Int.lt_add_one_iff.mp hlt).lt_or_eq with hlt | heq
  · exact hdone q hq hlt
  · rw [heq]
    exact hmark vs hmarks q hq heq

/-- One round of the loop of `GetContourSet`. -/
lemma Scanned.scan {s : Matrix K} {k : ℤ} (h : Scanned m k s) (hinv : m.Inv) (hcol : 0 ≤ m.col)
    (hz : m.AvoidsHeights m.curh) (h0 : ∀ q, m.crossed q → m.pairEdge q ≠ 0) (hk : m.IsEdge k) :
    ∃ N s', (∀ fuel, N ≤ fuel → s.scan fuel k = .ok s') ∧ Scanned m (k + 1) s' := by
  obtain ⟨heq, hfollow, hedge, -, hnode⟩ := h.same.eqs
  have hk' : s.IsEdge k := by
    rw [h.same]
    exact hk
  obtain ⟨f, hf⟩ : ∃ f, load Stop.indexOutOfBounds s.flag k = .ok f :=
    exists_load (h.inv.inRange_iff.mpr hk')
  by_cases hf0 : f = 0
  · subst hf0
    have hpresent : m.IsPresent k := by
      obtain ⟨a, b, c, hat, rfl⟩ := hk.exists_at hcol
      have hats : s.At a b c := by
        apply hat.of_size
        · rw [h.same]
        · rw [h.same]
      have hne : load Stop.indexOutOfBounds s.flag (m.edgeAt a b c) ≠ .ok (-1) := by
        rw [hf]
        simp
      have hsame : m.edgeAt a b c = s.edgeAt a b c := by
        rw [edgeAt, edgeAt, h.same]
      rw [hsame] at hne
      exact ⟨a, b, c, ((h.inv.present a b c hats).mp hne).of_size (by rw [h.same]) (by rw [h.same]),
        rfl⟩
    obtain ⟨p, hp, hpk, hforward⟩ := hpresent.exists_forward
    have hps : s.IsPair p := by
      rw [h.same]
      exact hp
    have hsk : s.pairEdge p = k := by rw [hedge, hpk]
    have hsect := h.inv.intersect_pair hps
    rw [hsk] at hsect
    have hiff : s.crossed p ↔ m.crossed p := by rw [heq]
    by_cases hmeet : m.crossed p
    · rw [if_pos (hiff.mpr hmeet)] at hsect
      obtain ⟨s₁, hbegin, hsame, hbegun, hconset, hload⟩ :=
        begun_of_begin h.inv h.rev (hiff.mpr hmeet) hforward
      have hsame₁ : Same m s₁ := h.same.trans hsame
      obtain ⟨N, s₂, line, hrun, htraced, hwhole⟩ := hbegun.traced (hsame₁.avoidsHeights hz)
        (by rw [hsame₁.eqs.2.2.1]; exact h0 p hmeet)
      have hw : Whole m.apex m.crossed p line := by
        rw [hsame₁] at hwhole
        exact hwhole
      rw [hsk] at hbegin hload
      refine ⟨N, _, fun fuel hfuel => ?_,
        h.collect hinv hz hmeet hpk hf hsame hconset hload htraced hw⟩
      rw [Matrix.scan, hf, ok_bind, if_pos rfl, hsect, ok_bind]
      dsimp only
      rw [hbegin, ok_bind, hrun fuel hfuel, ok_bind]
    · rw [if_neg (mt hiff.mp hmeet)] at hsect
      refine ⟨0, s, fun fuel _ => ?_, h.skip ?_⟩
      · rw [Matrix.scan, hf, ok_bind, if_pos rfl, hsect, ok_bind]
      · intro vs _ q hq hqk
        rcases (pairEdge_inj hp hq.1).mp (hpk.trans hqk.symm) with rfl | rfl
        · exact absurd hq hmeet
        · have hswap := crossed_swap hq
          rw [Prod.swap_swap] at hswap
          exact absurd hswap hmeet
  · refine ⟨0, s, fun fuel _ => ?_, h.skip ?_⟩
    · rw [Matrix.scan, hf, ok_bind, if_neg hf0]
    · intro vs hmarks q hq hqk
      have hmark := hmarks k (hqk ▸ hq.1.isPresent)
      by_contra hnot
      rw [if_neg hnot, hf] at hmark
      exact hf0 (Except.ok.inj hmark)

/-- All the rounds of the loop of `GetContourSet`. -/
lemma Scanned.scans {s : Matrix K} (h : Scanned m 0 s) (hinv : m.Inv) (hcol : 0 ≤ m.col)
    (hz : m.AvoidsHeights m.curh) (h0 : ∀ q, m.crossed q → m.pairEdge q ≠ 0) (n : ℕ)
    (hn : (n : ℤ) ≤ 3 * m.row * m.col) :
    ∃ N s', (∀ fuel, N ≤ fuel →
      (List.range n).foldlM (fun s (i : ℕ) => s.scan fuel i) s = .ok s') ∧ Scanned m n s' := by
  induction n with
  | zero => exact ⟨0, s, fun fuel _ => rfl, h⟩
  | succ n ih =>
    obtain ⟨N, s₁, hrun, h₁⟩ := ih (by omega)
    obtain ⟨N', s₂, hrun', h₂⟩ := h₁.scan hinv hcol hz h0 ⟨by omega, by omega⟩
    refine ⟨max N N', s₂, fun fuel hfuel => ?_, by exact_mod_cast h₂⟩
    rw [List.range_succ, List.foldlM_append, hrun fuel (le_of_max_le_left hfuel), ok_bind,
      List.foldlM_cons, hrun' fuel (le_of_max_le_right hfuel), ok_bind]
    rfl

end Scans

section Sets

lemma crosses_iff (hinv : m.Inv) (hz : m.AvoidsHeights m.curh) (hp : m.IsPair p) :
    m.Crosses m.curh (m.pairEdge p) ↔ m.crossed p := by
  obtain ⟨s, t, hs, ht, hst⟩ := hinv.ends_pair hp
  have hne1 : m.height p.1 ≠ m.curh := hz _ _ _ (hinv.getZ_eq hp.1)
  have hne2 : m.height p.2 ≠ m.curh := hz _ _ _ (hinv.getZ_eq hp.2.1)
  have hmeets : m.crossed p ↔ m.height p.1 < m.curh ∧ m.curh < m.height p.2 ∨
      m.height p.2 < m.curh ∧ m.curh < m.height p.1 := by
    rw [crossed, min_le_iff, le_max_iff]
    rcases lt_or_gt_of_ne hne1 with h1 | h1 <;> rcases lt_or_gt_of_ne hne2 with h2 | h2 <;>
      simp [hp, h1, h2, h1.le, h2.le, h1.not_gt, h2.not_gt, h1.not_ge, h2.not_ge]
  rw [hmeets]
  constructor
  · rintro ⟨-, s', t', hs', ht', hcross⟩
    rw [hs, Except.ok.injEq] at hs'
    rw [ht, Except.ok.injEq] at ht'
    subst hs' ht'
    obtain ⟨h1, h2⟩ | ⟨h1, h2⟩ := hst
    · rw [h1, h2]
      exact hcross
    · rw [h1, h2]
      exact hcross.symm
  · intro hcross
    refine ⟨hp.isPresent, s, t, hs, ht, ?_⟩
    obtain ⟨h1, h2⟩ | ⟨h1, h2⟩ := hst
    · rw [h1, h2] at hcross
      exact hcross
    · rw [h1, h2] at hcross
      exact hcross.symm

variable {row col : ℕ}

omit [Field K] [LinearOrder K] in
/-- `reset` makes a grid ready for the next call and keeps the contours. -/
lemma Grid.idle_of_reset {s : Matrix K} (h : s.Grid row col) (hrow : m.row = row)
    (hcol : m.col = col) (hlength : (m.flag.length : ℤ) = 3 * m.row * m.col)
    (hs : m.reset = .ok s) : s.Idle row col ∧ s.conset = m.conset := by
  have hrow0 : 0 ≤ m.row := by
    rw [hrow]
    exact Int.natCast_nonneg row
  have hcol0 : 0 ≤ m.col := by
    rw [hcol]
    exact Int.natCast_nonneg col
  obtain ⟨s', hs', flag, hflag, rfl⟩ := reset_returns hrow0 hcol0 hlength
  rw [hs, Except.ok.injEq] at hs'
  subst hs'
  refine ⟨⟨h, rfl, ?_⟩, rfl⟩
  rintro e ⟨i, j, k, hp, rfl⟩
  have hat : m.At i j k := hp.toAt.of_size rfl rfl
  have hlt : i * m.col + j < m.row * m.col := by
    have hedge := hat.isEdge.2
    rw [edgeAt, mul_assoc] at hedge
    have hk := hat.kind
    omega
  have hdown : k ≠ 2 → i + 1 < m.row := hp.down
  have hright : k ≠ 0 → j + 1 < m.col := hp.right
  refine (hflag.cleared i j k hat hlt).trans ?_
  rw [cleared, if_neg (by omega)]

/-- Where the edge `0` is not crossed every crossed edge is visited once. -/
lemma Idle.exactSet (h : m.Idle row col) {z : K} (hz : m.AvoidsHeights z)
    (h0 : ¬ m.Crosses z 0) :
    ∃ N s, (∀ fuel, N ≤ fuel → m.getContourSet fuel z = .ok s) ∧ s.1.Idle row col ∧
      m.ExactSet z s.2 := by
  obtain ⟨m₁, hm₁⟩ : ∃ m₁ : Matrix K, m₁ = { m with curh := z, conset := [] } := ⟨_, rfl⟩
  have hgrid : m₁.Grid row col := by
    rw [hm₁]
    exact h.toGrid.of_fields rfl rfl rfl rfl
  have hz₁ : m₁.AvoidsHeights m₁.curh := by
    rw [hm₁]
    exact hz
  have hcrosses : ∀ e, m.Crosses z e ↔ m₁.Crosses m₁.curh e := by
    intro e
    have hpresent : m₁.IsPresent e ↔ m.IsPresent e := by
      rw [hm₁]
      exact ⟨fun he => he.of_size rfl rfl, fun he => he.of_size rfl rfl⟩
    rw [Crosses, Crosses, hpresent, hm₁]
    rfl
  have hcol : 0 ≤ m₁.col := by
    rw [hgrid.col_eq]
    exact Int.natCast_nonneg col
  have hsize : (0 : ℤ) ≤ 3 * m₁.col * m₁.row := by
    rw [hgrid.row_eq, hgrid.col_eq]
    positivity
  have hzero : ∀ q, m₁.crossed q → m₁.pairEdge q ≠ 0 := by
    intro q hq hedge
    apply h0
    rw [hcrosses, ← hedge]
    exact (crosses_iff hgrid.toInv hz₁ hq.1).mpr hq
  have hstart : Scanned m₁ 0 m₁ := by
    refine ⟨rfl, hgrid.toInv, by rw [hm₁]; exact h.rev, ⟨[], ?_, ?_, ?_, ?_, ?_, ?_⟩, ?_, ?_⟩
    · rw [hm₁]
      exact .nil
    · exact List.nodup_nil
    · simp
    · intro e he
      have hclear : load Stop.indexOutOfBounds m₁.flag e = .ok 0 := by
        rw [hm₁] at he ⊢
        exact h.clear e (he.of_size rfl rfl)
      simpa using hclear
    · simp
    · intro q hq hlt
      obtain ⟨i, j, k, hat, hedge⟩ := hq.1.isPresent
      have := hat.toAt.isEdge.1
      omega
    · simp [hm₁]
    · simp [hm₁]
  obtain ⟨N, s, hrun, hs⟩ := hstart.scans hgrid.toInv hcol hz₁ hzero
    (3 * m₁.col * m₁.row).toNat (by rw [Int.toNat_of_nonneg hsize, mul_right_comm])
  have hsgrid : s.Grid row col := by
    refine ⟨hs.inv, ?_, ?_⟩
    · rw [hs.same]
      exact hgrid.row_eq
    · rw [hs.same]
      exact hgrid.col_eq
  obtain ⟨s', hs', hgrid'⟩ := hsgrid.reset
  obtain ⟨hidle, hconset⟩ := hgrid'.idle_of_reset hsgrid.row_eq hsgrid.col_eq hsgrid.flag hs'
  refine ⟨N, ({ s' with conset := [] }, s'.conset), fun fuel hfuel => ?_, ?_, ?_⟩
  · have hfold := hrun fuel hfuel
    have hset : contourSet fuel { m with curh := z } = .ok s' := by
      rw [contourSet]
      have hfold' : (List.range (3 * m.col * m.row).toNat).foldlM
          (fun s (i : ℕ) => s.scan fuel i) { m with curh := z, conset := [] } = .ok s := by
        rw [hm₁] at hfold
        exact hfold
      rw [hfold', ok_bind]
      exact hs'
    rw [getContourSet, hset, ok_bind]
  · exact ⟨hidle.toGrid.of_fields rfl rfl rfl rfl, hidle.rev, fun e he =>
      hidle.clear e (he.of_size rfl rfl)⟩
  · obtain ⟨vs, hvisits, hnodup, hcrossed, -, -, hdone⟩ := hs.lines
    have hcommon : m₁.CommonTriangle = m.CommonTriangle := by
      rw [hm₁]
      rfl
    rw [hconset]
    refine ⟨⟨vs, hvisits, hnodup, fun e => ?_⟩, ?_, ?_⟩
    · rw [hcrosses]
      constructor
      · intro he
        obtain ⟨q, hq, rfl⟩ := hcrossed e he
        exact (crosses_iff hgrid.toInv hz₁ hq.1).mpr hq
      · intro he
        obtain ⟨p, hp, rfl, -⟩ := he.1.exists_forward
        apply hdone p ((crosses_iff hgrid.toInv hz₁ hp).mp he)
        obtain ⟨i, j, k, hat, hedge⟩ := hp.isPresent
        rw [Int.toNat_of_nonneg hsize, hedge, mul_right_comm]
        exact hat.toAt.isEdge.2
    · rw [← hcommon]
      exact hs.consecutive
    · intro line hline q hq
      obtain ⟨r, hr, rfl⟩ := hs.points line hline q hq
      have hsect := hgrid.toInv.intersect_pair hr.1
      rw [if_pos hr] at hsect
      rw [hm₁] at hsect ⊢
      exact hsect

/-- A list that is walked back and forth has an edge twice. -/
lemma not_visits {l v : List ℤ} {e : ℤ} (hl : l ≠ []) (h : Visits (l.reverse ++ e :: l) v) :
    ¬ v.Nodup := by
  intro hnodup
  generalize hes : l.reverse ++ e :: l = es at h
  cases h with
  | once =>
    obtain ⟨x, hx⟩ := List.exists_mem_of_ne_nil l hl
    rw [← hes] at hnodup
    exact (List.nodup_append.mp hnodup).2.2 x (List.mem_reverse.mpr hx) x
      (List.mem_cons_of_mem e hx) rfl
  | closed f w hlength =>
    obtain ⟨l', x, rfl⟩ : ∃ l' x, l = l' ++ [x] :=
      ⟨l.dropLast, l.getLast hl, (List.dropLast_append_getLast hl).symm⟩
    rw [List.reverse_append, List.reverse_singleton, List.singleton_append, List.cons_append,
      List.cons_append, List.cons.injEq] at hes
    obtain ⟨rfl, hes⟩ := hes
    have hw : w = l'.reverse ++ e :: l' := by
      have hlast := congrArg List.dropLast hes
      rw [List.dropLast_concat, ← List.cons_append, ← List.append_assoc, List.dropLast_concat]
        at hlast
      exact hlast.symm
    have hnil : l' = [] := by
      by_contra hne
      obtain ⟨y, hy⟩ := List.exists_mem_of_ne_nil l' hne
      rw [hw] at hnodup
      exact (List.nodup_append.mp (List.nodup_cons.mp hnodup).2).2.2 y (List.mem_reverse.mpr hy) y
        (List.mem_cons_of_mem e hy) rfl
    rw [hw, hnil] at hlength
    simp at hlength

/-- From the edge `0` the second walk follows the line in the direction of the first one. -/
lemma Begun.twice (h : m.Begun p) (hz : m.AvoidsHeights m.curh) (h0 : m.pairEdge p = 0)
    (hin : m.InGrid (corner p)) (hout : ¬ m.InGrid (corner p.swap)) :
    ∃ N s l, l ≠ [] ∧ (∀ fuel, N ≤ fuel → m.getOneSeg fuel = .ok s) ∧ s.Inv ∧ Same m s ∧
      s.conset = m.conset ∧ s.curCon.map EdgePoint.edge = l.reverse ++ m.pairEdge p :: l := by
  have hsep := h.inv.separates hz
  have hfirst : ∀ q, m.crossed q → m.follow q ≠ some p := fun q hq =>
    hsep.step_ne_of_apex ((apex_eq_none h.crossed.1.swap).mpr hout) hq
  have hends : ∃ n, iter m.follow n p = none :=
    m.crossing.injective_step.exists_end m.finite_crossed h.crossed hfirst
  have hnext : m.follow p ≠ none := by
    intro hnone
    rw [hsep.step_eq_none_iff h.crossed] at hnone
    exact (apex_eq_none h.crossed.1).mp hnone hin
  have hleast := fun k => Nat.find_min hends (m := k)
  have hspec := Nat.find_spec hends
  obtain ⟨n, hn⟩ : ∃ n, Nat.find hends = n + 1 + 1 := by
    have hne : Nat.find hends ≠ 0 := by
      intro hzero
      rw [hzero] at hspec
      cases hspec
    have hne' : Nat.find hends ≠ 1 := by
      intro hone
      rw [hone, iter_one] at hspec
      exact hnext hspec
    exact ⟨Nat.find hends - 2, by omega⟩
  rw [hn] at hspec hleast
  obtain ⟨t, ht⟩ := Option.ne_none_iff_exists'.mp (hleast (n + 1) (by omega))
  have hend : m.follow t = none := by
    rw [iter_succ, ht] at hspec
    exact hspec
  obtain ⟨u, hwalk, hu⟩ := h.first_walk hz ht hend
  obtain ⟨heq, hfollow, hedge, hpre, hnode⟩ := hu.same.eqs
  have hat : u.AtPair p := by
    refine ⟨hu.inv, ?_, ?_, ?_⟩
    · rw [heq]
      exact h.crossed
    · rw [hedge, hu.cur]
    · refine iff_of_true (Or.inr (Or.inl ?_)) h.forward
      rw [hu.prev, hpre, hu.cur, h0]
      rfl
  have ht' : iter u.follow (n + 1) p = some t := by
    rw [hfollow]
    exact ht
  -- no side before the end of the line is that of the end
  have hstart : ∀ k < n, ∀ r, iter u.follow (k + 1) p = some r → u.pairEdge r ≠ u.start := by
    intro k hk r hr hsame
    rw [hfollow] at hr
    rw [hedge, hu.start] at hsame
    have hrc := hsep.crossed_iter h.crossed hr
    have hon : iter m.follow (n - k) r = some t := by
      have hsum : n + 1 = k + 1 + (n - k) := by omega
      rw [hsum, iter_add, hr] at ht
      exact ht
    rcases (pairEdge_inj hrc.1 (hsep.crossed_iter h.crossed ht).1).mp hsame with rfl | rfl
    · have hback := m.crossing.injective_step.iter_sub h.crossed (by omega : k + 1 ≤ n + 1) hr ht
      exact iter_ne_none_of_return (by omega) hback (n + 1 + 1) hspec
    · exact hsep.ne_swap hrc hon rfl
  have hwalk' : ∀ fuel, n < fuel →
      walk fuel u = .ok (u.moves (points u.follow (n + 1 + 1) p).tail) := fun fuel hfuel =>
    hat.walk_stop ht' (by rw [hedge, hu.start]) hstart hfuel
  have hpairs : ∀ q ∈ (points u.follow (n + 1 + 1) p).tail, u.IsPair q := fun q hq =>
    (walk_isPair hat.crossed q (List.mem_of_mem_tail hq)).1
  obtain ⟨-, -, hconset, hcon⟩ := moves_fields u (points u.follow (n + 1 + 1) p).tail
  have hlist : points m.follow (n + 1 + 1) p = p :: (points m.follow (n + 1 + 1) p).tail := rfl
  refine ⟨n + 2, _, ((points m.follow (n + 1 + 1) p).tail).map m.pairEdge, ?_, fun fuel hfuel => ?_,
    hu.inv.moves hpairs, hu.same.trans (same_moves u _), hconset.trans hu.conset, ?_⟩
  · intro hnil
    rw [List.map_eq_nil_iff] at hnil
    have hmem : t ∈ (points m.follow (n + 1 + 1) p).tail :=
      mem_tail_points.mpr ⟨n, n.lt_succ_self, ht⟩
    rw [hnil] at hmem
    cases hmem
  · rw [getOneSeg, hwalk fuel (by omega), ok_bind, if_pos hu.rev]
    exact hwalk' fuel (by omega)
  · rw [hcon, hu.rev, if_pos rfl, hu.curCon, hnode, hfollow, hlist]
    simp only [List.map_append, List.map_reverse, List.map_map, List.map_cons, List.tail_cons]
    rfl

omit [Field K] [LinearOrder K] in
/-- The edge `0` in the direction of the first walk has a triangle on that hand only. -/
lemma corner_of_zero (hp : m.IsPair p) (hcol : 2 ≤ m.col) (h0 : m.pairEdge p = 0)
    (hforward : forward p = true) : m.InGrid (corner p) ∧ ¬ m.InGrid (corner p.swap) := by
  obtain ⟨i, j, k, hat, rfl | rfl⟩ := hp.cases
  · rw [pairEdge_start hat.kind, edgeAt] at h0
    have hkind := hat.kind
    have hrow := hat.row
    have hnode := hat.toAt.node_nonneg
    obtain rfl : i = 0 := by
      by_contra hi
      have hle : 1 * m.col ≤ i * m.col := mul_le_mul_of_nonneg_right (by omega) (by omega)
      have hj := hat.col
      omega
    obtain ⟨rfl, rfl⟩ : j = 0 ∧ k = 0 := by omega
    have hdown := hat.down (by decide)
    simp [InGrid, corner, way, otherEnd]
    omega
  · rw [pairEdge_end hat.kind, edgeAt] at h0
    rw [forward_end hat.kind, decide_eq_true_iff] at hforward
    have hnode := hat.toAt.node_nonneg
    omega

omit [Field K] [LinearOrder K] in
lemma move_conset {m m' : Matrix K} {c : ℤ} {node : GVector K} {more : Bool}
    (h : m.move c node = .ok (m', more)) : m'.conset = m.conset := by
  obtain ⟨flag, -, h⟩ := bind_eq_ok.mp h
  cases h
  rfl

lemma next_conset {m m' : Matrix K} {more : Bool} (h : m.next = .ok (m', more)) :
    m'.conset = m.conset := by
  obtain ⟨c1, -, h⟩ := bind_eq_ok.mp h
  obtain ⟨c2, -, h⟩ := bind_eq_ok.mp h
  obtain ⟨nex1, -, h⟩ := bind_eq_ok.mp h
  obtain ⟨nex2, -, h⟩ := bind_eq_ok.mp h
  rcases nex1 with _ | node
  · rcases nex2 with _ | node
    · dsimp only at h
      split at h
      next =>
        cases h
        rfl
      next =>
        cases h
        rfl
    · exact move_conset h
  · exact move_conset h

lemma walk_conset {m m' : Matrix K} {fuel : ℕ} (h : walk fuel m = .ok m') :
    m'.conset = m.conset := by
  induction fuel generalizing m with
  | zero => cases h
  | succ fuel ih =>
    obtain ⟨⟨m₁, more⟩, hnext, h⟩ := bind_eq_ok.mp h
    have h₁ := next_conset hnext
    cases more
    · obtain rfl := Except.ok.inj h
      exact h₁
    · exact (ih h).trans h₁

/-- A round of the loop of `GetContourSet` only adds a polyline at the end. -/
lemma scan_conset {m m' : Matrix K} {fuel : ℕ} {e : ℤ} (h : m.scan fuel e = .ok m') :
    m.conset <+: m'.conset := by
  obtain ⟨f, -, h⟩ := bind_eq_ok.mp h
  split at h
  next =>
    obtain ⟨sect, -, h⟩ := bind_eq_ok.mp h
    rcases sect with _ | sect
    · obtain rfl := Except.ok.inj h
      exact List.prefix_refl _
    · obtain ⟨m₁, hbegin, h⟩ := bind_eq_ok.mp h
      obtain ⟨m₂, hseg, h⟩ := bind_eq_ok.mp h
      obtain rfl := Except.ok.inj h
      obtain ⟨flag, -, hbegin⟩ := bind_eq_ok.mp hbegin
      obtain rfl := Except.ok.inj hbegin
      obtain ⟨m₃, hwalk, hseg⟩ := bind_eq_ok.mp hseg
      have hfirst := walk_conset hwalk
      have hsame : m₂.conset = m.conset := by
        split at hseg
        next => exact (walk_conset hseg).trans hfirst
        next =>
          obtain rfl := Except.ok.inj hseg
          exact hfirst
      rw [← hsame]
      exact List.prefix_append _ _
  next =>
    obtain rfl := Except.ok.inj h
    exact List.prefix_refl _

/-- From the edge `0` the first polyline has edges twice. -/
lemma Idle.not_exactSet (h : m.Idle row col) (hcol : 2 ≤ col) {z : K} (hz : m.AvoidsHeights z)
    (h0 : m.Crosses z 0) : ∃ N, ∀ fuel, N ≤ fuel → ∀ r, m.getContourSet fuel z = .ok r →
      ¬ m.ExactSet z r.2 := by
  obtain ⟨m₁, hm₁⟩ : ∃ m₁ : Matrix K, m₁ = { m with curh := z, conset := [] } := ⟨_, rfl⟩
  have hgrid : m₁.Grid row col := by
    rw [hm₁]
    exact h.toGrid.of_fields rfl rfl rfl rfl
  have hz₁ : m₁.AvoidsHeights m₁.curh := by
    rw [hm₁]
    exact hz
  have hcrosses : m₁.Crosses m₁.curh 0 := by
    rw [hm₁]
    exact ⟨h0.1.of_size rfl rfl, h0.2⟩
  obtain ⟨p, hp, hedge, hforward⟩ := hcrosses.1.exists_forward
  have hpc : m₁.crossed p := by
    rw [← hedge] at hcrosses
    exact (crosses_iff hgrid.toInv hz₁ hp).mp hcrosses
  have hrev : m₁.rev = false := by
    rw [hm₁]
    exact h.rev
  have hflag : load Stop.indexOutOfBounds m₁.flag 0 = .ok 0 := by
    rw [hm₁]
    exact h.clear 0 h0.1
  have hconset : m₁.conset = [] := by rw [hm₁]
  obtain ⟨hin, hout⟩ := corner_of_zero hp (by rw [hgrid.col_eq]; omega) hedge hforward
  have hsect := hgrid.toInv.intersect_pair hp
  rw [if_pos hpc, hedge] at hsect
  obtain ⟨s₁, hbegin, hsame, hbegun, hconset₁, -⟩ := begun_of_begin hgrid.toInv hrev hpc hforward
  obtain ⟨-, -, hedge₁, -, -⟩ := hsame.eqs
  have hin₁ : s₁.InGrid (corner p) ∧ ¬ s₁.InGrid (corner p.swap) := by
    rw [hsame]
    exact ⟨hin, hout⟩
  obtain ⟨N, s₂, l, hl, hseg, -, -, hconset₂, hcon⟩ :=
    hbegun.twice (hsame.avoidsHeights hz₁) (by rw [hedge₁, hedge]) hin₁.1 hin₁.2
  rw [hedge] at hbegin
  refine ⟨N, fun fuel hfuel r hr hexact => ?_⟩
  have hscan : m₁.scan fuel 0 = .ok { s₂ with conset := [s₂.curCon], curCon := [] } := by
    rw [scan, hflag, ok_bind, if_pos rfl, hsect, ok_bind]
    dsimp only
    rw [hbegin, ok_bind, hseg fuel hfuel, ok_bind, hconset₂, hconset₁, hconset]
    rfl
  obtain ⟨m₂, hset, hr⟩ := bind_eq_ok.mp hr
  obtain rfl := Except.ok.inj hr
  obtain ⟨m₃, hfold, hreset⟩ := bind_eq_ok.mp hset
  obtain ⟨n, hn⟩ : ∃ n, (3 * m.col * m.row).toNat = n + 1 := by
    obtain ⟨i, j, k, hat, hzero⟩ := h0.1
    have hlt := hat.toAt.isEdge.2
    rw [← hzero, mul_right_comm] at hlt
    exact ⟨(3 * m.col * m.row).toNat - 1, by omega⟩
  have hprefix : [s₂.curCon] <+: m₃.conset := by
    have hfold' : (List.range (n + 1)).foldlM (fun s (i : ℕ) => s.scan fuel i) m₁ = .ok m₃ := by
      rw [← hn, hm₁]
      exact hfold
    rw [List.range_succ_eq_map, List.foldlM_cons, Nat.cast_zero, hscan, ok_bind] at hfold'
    exact foldlM_invariant (I := fun s : Matrix K => [s₂.curCon] <+: s.conset)
      (fun s a s' hs hscan => hs.trans (scan_conset hscan)) (List.prefix_refl _) hfold'
  have hreset' : m₂.conset = m₃.conset := by
    obtain ⟨flag, -, hreset⟩ := bind_eq_ok.mp hreset
    obtain rfl := Except.ok.inj hreset
    rfl
  obtain ⟨rest, hrest⟩ := hprefix
  obtain ⟨vs, hvisits, hnodup, -⟩ := hexact.visits
  dsimp only at hvisits
  rw [hreset', ← hrest, List.singleton_append] at hvisits
  cases hvisits with
  | cons hfirst hothers =>
    rw [hcon] at hfirst
    rw [List.flatten_cons] at hnodup
    exact not_visits hl hfirst (List.nodup_append.mp hnodup).1

end Sets

section Calls

variable {row col : ℕ}

/-- The states that the calls of the public methods leave. -/
inductive Served (row col : ℕ) : Matrix K → Prop
  | initiate {m₀ m : Matrix K} {b : Bool} {x0 y0 x1 y1 : K} (hstate : m₀.state = 0)
      (h : m₀.initiate x0 y0 x1 y1 row col = .ok (m, b)) : Served row col m
  | createMesh {m₀ m : Matrix K} {evalue : K → K → K} {x0 y0 x1 y1 : K} (hstate : m₀.state = 0)
      (h : m₀.createMesh evalue x0 y0 x1 y1 row col = .ok m) : Served row col m
  | createAgain {m m' : Matrix K} {evalue : K → K → K} {x0 y0 x1 y1 : K} {r c : ℕ}
      (hm : Served row col m) (hstate : m.state ≠ 0)
      (h : m.createMesh evalue x0 y0 x1 y1 r c = .ok m') : Served row col m'
  | setElement {m m' : Matrix K} {i j : ℤ} {z : K} (hm : Served row col m)
      (h : m.setElement i j z = .ok m') : Served row col m'
  | getContourSet {m m' : Matrix K} {fuel : ℕ} {z : K} {set : List (List (EdgePoint K))}
      (hm : Served row col m) (h : m.getContourSet fuel z = .ok (m', set)) : Served row col m'

omit [LinearOrder K] in
lemma initiate_idle {m₀ : Matrix K} {b : Bool} {x0 y0 x1 y1 : K} (hstate : m₀.state = 0)
    (h : m₀.initiate x0 y0 x1 y1 row col = .ok (m, b)) : m.Idle row col := by
  have hgrid : Returns (m₀.initiate x0 y0 x1 y1 row col) fun r => r.1.Grid row col :=
    initiate_grid hstate x0 y0 x1 y1
  obtain ⟨r, hr, hgrid⟩ := hgrid
  rw [h, Except.ok.injEq] at hr
  subst hr
  rw [initiate, if_neg (not_not.mpr hstate)] at h
  obtain ⟨s, hs, h⟩ := bind_eq_ok.mp h
  cases h
  refine (hgrid.idle_of_reset rfl rfl ?_ hs).1
  simp only [List.length_replicate]
  push_cast
  ring

omit [Field K] [LinearOrder K] in
lemma Idle.setElement {m' : Matrix K} {i j : ℤ} {z : K} (h : m.Idle row col)
    (hset : m.setElement i j z = .ok m') : m'.Idle row col := by
  have hgrid := h.toGrid.setElement hset
  obtain ⟨d, -, hset⟩ := bind_eq_ok.mp hset
  obtain ⟨d', -, hset⟩ := bind_eq_ok.mp hset
  obtain ⟨data, -, hset⟩ := bind_eq_ok.mp hset
  obtain rfl := Except.ok.inj hset
  exact ⟨hgrid, h.rev, fun e he => h.clear e (he.of_size rfl rfl)⟩

omit [LinearOrder K] in
/-- The loops that take the heights keep a grid ready. -/
lemma createMesh_idle {m₀ m m' : Matrix K} {b : Bool} {evalue : K → K → K} {x0 y0 x1 y1 : K}
    {r c : ℕ} (hinit : m₀.initiate x0 y0 x1 y1 r c = .ok (m, b)) (h : m.Idle row col)
    (hmesh : m₀.createMesh evalue x0 y0 x1 y1 r c = .ok m') : m'.Idle row col := by
  rw [createMesh, hinit, ok_bind] at hmesh
  obtain ⟨s, hfold, hmesh⟩ := bind_eq_ok.mp hmesh
  obtain rfl := Except.ok.inj hmesh
  have hs : s.Idle row col := by
    refine foldlM_invariant (I := Idle row col) (fun m₁ i m₂ h₁ hline => ?_) h hfold
    exact foldlM_invariant (fun _ _ _ h₃ hset => h₃.setElement hset) h₁ hline
  exact ⟨hs.toGrid.of_fields rfl rfl rfl rfl, hs.rev, fun e he => hs.clear e (he.of_size rfl rfl)⟩

lemma Idle.getContourSet {m' : Matrix K} {fuel : ℕ} {z : K} {set : List (List (EdgePoint K))}
    (h : m.Idle row col) (hset : m.getContourSet fuel z = .ok (m', set)) : m'.Idle row col := by
  obtain ⟨m₁, hcontour, hr⟩ := bind_eq_ok.mp hset
  obtain rfl : { m₁ with conset := [] } = m' := congrArg Prod.fst (Except.ok.inj hr)
  obtain ⟨m₂, hfold, hreset⟩ := bind_eq_ok.mp hcontour
  have hlevel : Grid row col { m with curh := z } := h.toGrid.of_fields rfl rfl rfl rfl
  have hgrid : m₂.Grid row col := (hlevel.scans fuel).of_ok hfold
  have hgrid' : m₁.Grid row col := by
    obtain ⟨s, hs, hgrid'⟩ := hgrid.reset
    rw [hreset, Except.ok.injEq] at hs
    rw [hs]
    exact hgrid'
  have hidle := (hgrid'.idle_of_reset hgrid.row_eq hgrid.col_eq hgrid.flag hreset).1
  exact ⟨hidle.toGrid.of_fields rfl rfl rfl rfl, hidle.rev, fun e he =>
    hidle.clear e (he.of_size rfl rfl)⟩

lemma Served.idle (h : Served row col m) : m.Idle row col := by
  induction h with
  | initiate hstate h => exact initiate_idle hstate h
  | createMesh hstate h =>
    obtain ⟨⟨m₁, b⟩, hinit, -⟩ := bind_eq_ok.mp h
    exact createMesh_idle hinit (initiate_idle hstate hinit) h
  | createAgain hm hstate h ih =>
    exact createMesh_idle (if_pos hstate) ih h
  | setElement hm h ih => exact ih.setElement h
  | getContourSet hm h ih => exact ih.getContourSet h

/-- At a level that is no height every edge that it crosses is visited once, exactly if the edge `0`
is not one of them. -/
theorem Served.exactSet_iff (h : Served row col m) (hcol : 2 ≤ col) {z : K}
    (hz : m.AvoidsHeights z) :
    (∃ N, ∀ fuel, N ≤ fuel → Returns (m.getContourSet fuel z) fun r => m.ExactSet z r.2) ↔
      ¬ m.Crosses z 0 := by
  constructor
  · rintro ⟨N, hreturns⟩ h0
    obtain ⟨N', hnot⟩ := h.idle.not_exactSet hcol hz h0
    obtain ⟨r, hr, hexact⟩ := hreturns (max N N') (le_max_left _ _)
    exact hnot (max N N') (le_max_right _ _) r hr hexact
  · intro h0
    obtain ⟨N, r, hr, -, hexact⟩ := h.idle.exactSet hz h0
    exact ⟨N, fun fuel hfuel => ⟨r, hr fuel hfuel, hexact⟩⟩

omit [Field K] [LinearOrder K] in
lemma avoidsHeights_of_data {z : K} (h : ∀ d ∈ m.data, ∀ x ∈ d, x ≠ z) : m.AvoidsHeights z := by
  intro i j x hx
  obtain ⟨d, hd, hx⟩ := bind_eq_ok.mp hx
  exact h d (mem_of_load hd) x (mem_of_load hx)

/-- One raised node: the contour round it is exact if it is not at the edge `0`. -/
theorem exactSet_iff_square : ∃ m m' : Matrix ℚ, Served 2 2 m ∧ Served 2 2 m' ∧
    (∃ N, ∀ fuel, N ≤ fuel →
      Returns (m.getContourSet fuel (1 / 2)) fun r => m.ExactSet (1 / 2) r.2) ∧
    ¬ ∃ N, ∀ fuel, N ≤ fuel →
      Returns (m'.getContourSet fuel (1 / 2)) fun r => m'.ExactSet (1 / 2) r.2 := by
  obtain ⟨m₀, m, m', hinit, hset, hset', hdata, hdata', hrow, hcol, hs, ht, hs', ht'⟩ :
      ∃ m₀ m m' : Matrix ℚ, (new : Matrix ℚ).initiate 0 0 1 1 2 2 = .ok (m₀, true) ∧
        m₀.setElement 1 1 1 = .ok m ∧ m₀.setElement 0 0 1 = .ok m' ∧
        m.data = [[0, 0], [0, 1]] ∧ m'.data = [[1, 0], [0, 0]] ∧ m'.row = 2 ∧ m'.col = 2 ∧
        m.getStart 0 = .ok 0 ∧ m.getEnd 0 = .ok 0 ∧ m'.getStart 0 = .ok 1 ∧
        m'.getEnd 0 = .ok 0 :=
    ⟨_, _, _, rfl, rfl, rfl, rfl, rfl, rfl, rfl, rfl, rfl, rfl, rfl⟩
  have hserved : Served 2 2 m := (Served.initiate rfl hinit).setElement hset
  have hserved' : Served 2 2 m' := (Served.initiate rfl hinit).setElement hset'
  have hz : m.AvoidsHeights (1 / 2) := avoidsHeights_of_data (by rw [hdata]; norm_num)
  have hz' : m'.AvoidsHeights (1 / 2) := avoidsHeights_of_data (by rw [hdata']; norm_num)
  refine ⟨m, m', hserved, hserved', (hserved.exactSet_iff le_rfl hz).mpr ?_, ?_⟩
  · rintro ⟨-, s, t, hs₁, ht₁, hcross⟩
    rw [hs, Except.ok.injEq] at hs₁
    rw [ht, Except.ok.injEq] at ht₁
    subst hs₁ ht₁
    norm_num at hcross
  · rw [hserved'.exactSet_iff le_rfl hz', not_not]
    refine ⟨⟨0, 0, 0, ?_, ?_⟩, 1, 0, hs', ht', ?_⟩
    · exact ⟨⟨by omega, by omega, by omega⟩, by omega, by omega⟩
    · simp [edgeAt]
    · norm_num

end Calls

end Matrix

end MTalk.Triangle.MatrixCon
