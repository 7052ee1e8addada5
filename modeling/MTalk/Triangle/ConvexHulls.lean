import MTalk.Library.GiftWrapping
import MTalk.Library.GuardedRuns
import MTalk.Library.WhileLoop
import MTalk.Triangle.Net

/-!
# Convex hulls

`Convex.GetConvex` permutes the vertices in place: it moves the first of the lowest to the front,
copies it behind the last, and then wraps the hull from there until it comes to the copy. With exact
angles this finds the hull if and only if no other of the lowest vertices is further left.
-/

namespace MTalk.Triangle

open MTalk.GuardedRuns PlaneGeometry

/-- The data of `Convex`. Only the first `length` places of `ppVertex` exist. -/
structure Convex (K : Type) where
  ppVertex : ℕ → Option (Vertex K)
  length : ℕ
  nov : ℕ
  noc : ℕ

namespace Convex

variable {K : Type}

def read (c : Convex K) (i : ℕ) : Except Stop (Option (Vertex K)) :=
  if i < c.length then .ok (c.ppVertex i) else .error .indexOutOfBounds

def write (c : Convex K) (i : ℕ) (v : Option (Vertex K)) : Except Stop (Convex K) :=
  if i < c.length then .ok { c with ppVertex := Function.update c.ppVertex i v }
  else .error .indexOutOfBounds

def coord (c : Convex K) (i : ℕ) : Except Stop (GVector K) := do
  match ← c.read i with
  | some v => .ok v.coord
  | none => .error .nullPointer

def addVertex (c : Convex K) (vertex : Vertex K) : Except Stop (Convex K) := do
  let c ← c.write c.nov (some vertex)
  return { c with nov := c.nov + 1 }

/-- The vertices of the list, in its order; `np.nov` is their number. -/
def setData (lnlist : List (Vertex K)) : Except Stop (Convex K) :=
  lnlist.foldlM addVertex ⟨fun _ => none, lnlist.length + 2, 0, 0⟩

/-- `t=ppVertex[k]; ppVertex[k]=ppVertex[j]; ppVertex[j]=t` -/
def exchange (c : Convex K) (k j : ℕ) : Except Stop (Convex K) := do
  let t ← c.read k
  let v ← c.read j
  let c ← c.write k v
  c.write j t

section Run

variable [Field K] [LinearOrder K]

/-- The locals of `GetIndexOfMinY`. -/
structure MinY (K : Type) where
  y : K
  index : ℕ

def getIndexOfMinY (c : Convex K) : Except Stop ℕ := do
  let first ← c.coord 0
  let r ← (List.range c.nov).foldlM (fun (s : MinY K) i => do
    let v ← c.coord i
    return if v.y < s.y then ⟨v.y, i⟩ else s) ⟨first.y, 0⟩
  return r.index

/-- The locals of the inner loop. -/
structure Scan (K : Type) where
  j : ℕ
  thmin : K
  dist : K

variable (theta : GVector K → K) (math : JavaMath K)

/-- One place of the inner loop: the nearest of the vertices with the angle `th`, otherwise the
first vertex with the next angle. -/
def scanStep (c : Convex K) (k : ℕ) (th : K) (s : Scan K) (i : ℕ) : Except Stop (Scan K) := do
  let vi ← c.coord i
  let vk ← c.coord k
  let v := GeoMath.differance vi vk
  let th1 := theta v
  let s := if th1 = th ∧ v.distance math < s.dist then ⟨i, th1, v.distance math⟩ else s
  return if th1 < s.thmin ∧ th < th1 then { s with j := i, thmin := th1 } else s

/-- The locals of the outer loop after one round. -/
structure Wrap (K : Type) where
  convex : Convex K
  j : ℕ
  k : ℕ
  thmin : K

/-- The body of the outer loop, with the new value of `k`. -/
def round (s : Wrap K) (k : ℕ) : Except Stop (Wrap K) := do
  let c ← s.convex.exchange k s.j
  let r ← (List.range' (k + 1) (c.nov - k)).foldlM (scanStep theta math c k s.thmin)
    ⟨0, 11, 10 ^ 20⟩
  return ⟨c, r.j, k, r.thmin⟩

/-- The test at the end of the outer loop and the next round. -/
def body (s : Wrap K) : Except Stop (Option (Wrap K)) :=
  if s.j = s.convex.nov then .ok none
  else do
    let s ← round theta math s (s.k + 1)
    return some s

/-- `GetConvex` with the angles that `theta` gives. -/
def getConvex (fuel : ℕ) (c : Convex K) : Except Stop (Convex K) := do
  let j ← c.getIndexOfMinY
  let v ← c.read j
  let c ← c.write c.nov v
  let s ← round theta math ⟨c, j, 0, 0⟩ 0
  let s ← WhileLoop.run .running (body theta math) fuel s
  let c ← s.convex.exchange (s.k + 1) s.j
  return { c with noc := s.k + 1 }

end Run

/-- The vertices as points of the plane. -/
def positions (pts : List (Vertex K)) : Set (K × K) := {x | ∃ v ∈ pts, v.xy = x}

/-- The entries that count go round the hull of the vertices. -/
def IsHull [Field K] [LinearOrder K] (pts : List (Vertex K)) (c : Convex K) : Prop :=
  ∃ q : List (Vertex K), (List.range c.noc).map c.ppVertex = q.map some ∧ (∀ v ∈ q, v ∈ pts) ∧
    Hull (positions pts) (q.map Vertex.xy)

/-- The run returns with the hull. -/
def FindsHull [Field K] [LinearOrder K] (theta : GVector K → K) (math : JavaMath K)
    (pts : List (Vertex K)) : Prop :=
  ∃ fuel0, ∀ fuel ≥ fuel0, Returns (setData pts >>= getConvex theta math fuel) (IsHull pts)

/-- No vertex at the lowest height is further left than the first one in the list. -/
def FirstIsLeftmost [LinearOrder K] (pts : List (Vertex K)) : Prop :=
  ∀ (j : ℕ) (v : Vertex K), pts[j]? = some v → (∀ w ∈ pts, v.coord.y ≤ w.coord.y) →
    (∀ i < j, ∀ w : Vertex K, pts[i]? = some w → v.coord.y < w.coord.y) →
      ∀ w ∈ pts, w.coord.y = v.coord.y → v.coord.x ≤ w.coord.x

section Entries

lemma addVertices_ok (n : ℕ) (pre l : List (Vertex K)) (h : pre.length + l.length ≤ n) :
    l.foldlM addVertex ⟨fun i => pre[i]?, n, pre.length, 0⟩ =
      .ok ⟨fun i => (pre ++ l)[i]?, n, (pre ++ l).length, 0⟩ := by
  induction l generalizing pre with
  | nil => simp [pure, Except.pure]
  | cons v l ih =>
    rw [List.length_cons] at h
    have hadd : addVertex ⟨fun i => pre[i]?, n, pre.length, 0⟩ v =
        .ok ⟨fun i => (pre ++ [v])[i]?, n, (pre ++ [v]).length, 0⟩ := by
      have hentry : Function.update (fun i => pre[i]?) pre.length (some v) =
          fun i => (pre ++ [v])[i]? := by
        funext i
        rcases lt_trichotomy i pre.length with hlt | rfl | hgt
        · rw [Function.update_of_ne hlt.ne, List.getElem?_append_left hlt]
        · simp
        · rw [Function.update_of_ne hgt.ne', List.getElem?_append_right hgt.le]
          rw [List.getElem?_eq_none hgt.le, eq_comm, List.getElem?_eq_none]
          simp only [List.length_singleton]
          omega
      simp only [addVertex, write, if_pos (show pre.length < n by omega), ok_bind, hentry,
        List.length_append, List.length_singleton]
      rfl
    rw [List.foldlM_cons, hadd, ok_bind, ih]
    · simp
    · simp only [List.length_append, List.length_singleton]
      omega

lemma setData_ok (pts : List (Vertex K)) :
    setData pts = .ok ⟨fun i => pts[i]?, pts.length + 2, pts.length, 0⟩ := by
  have h := addVertices_ok (pts.length + 2) [] pts (by simp)
  simpa [setData] using h

/-- The vertices stand at the first places in the order `vs`, and the pivot behind them. -/
structure Arranged (pts : List (Vertex K)) (pivot : Vertex K) (c : Convex K) (vs : ℕ → Vertex K) :
    Prop where
  length : c.length = pts.length + 2
  nov : c.nov = pts.length
  entry : ∀ i ≤ pts.length, c.ppVertex i = some (vs i)
  inj : ∀ i < pts.length, ∀ j < pts.length, vs i = vs j → i = j
  mem_iff : ∀ v, v ∈ pts ↔ ∃ i < pts.length, vs i = v
  copy : vs pts.length = pivot

variable {pts : List (Vertex K)} {pivot : Vertex K} {c : Convex K} {vs : ℕ → Vertex K}

lemma coord_ok {i : ℕ} {v : Vertex K} (hi : i < c.length) (h : c.ppVertex i = some v) :
    c.coord i = .ok v.coord := by
  simp [coord, read, hi, h]

lemma exchange_ok {k j : ℕ} (hk : k < c.length) (hj : j < c.length) :
    c.exchange k j = .ok { c with ppVertex := c.ppVertex ∘ Equiv.swap k j } := by
  have hswap : Function.update (Function.update c.ppVertex k (c.ppVertex j)) j (c.ppVertex k) =
      c.ppVertex ∘ Equiv.swap k j := by
    funext i
    by_cases hij : i = j
    · simp [hij]
    · by_cases hik : i = k
      · rw [Function.update_of_ne hij, hik, Function.update_self]
        simp
      · simp [hij, hik, Equiv.swap_apply_of_ne_of_ne]
  simp [exchange, read, write, hk, hj, hswap]

namespace Arranged

variable (h : Arranged pts pivot c vs)

include h

lemma coord_eq {i : ℕ} (hi : i ≤ pts.length) : c.coord i = .ok (vs i).coord :=
  coord_ok (by rw [h.length]; omega) (h.entry i hi)

lemma mem {i : ℕ} (hi : i < pts.length) : vs i ∈ pts := (h.mem_iff _).mpr ⟨i, hi, rfl⟩

lemma exchange {k j : ℕ} (hk : k < pts.length) (hj : j < pts.length) :
    Arranged pts pivot { c with ppVertex := c.ppVertex ∘ Equiv.swap k j } (vs ∘ Equiv.swap k j) := by
  have hswap : ∀ i, i < pts.length → Equiv.swap k j i < pts.length := by
    intro i hi
    rw [Equiv.swap_apply_def]
    split_ifs
    · exact hj
    · exact hk
    · exact hi
  refine ⟨h.length, h.nov, fun i hi => ?_, fun a ha b hb hab => ?_, fun v => ?_, ?_⟩
  · refine h.entry _ ?_
    rcases hi.eq_or_lt with rfl | hi
    · rw [Equiv.swap_apply_of_ne_of_ne hk.ne' hj.ne']
    · exact (hswap i hi).le
  · exact (Equiv.swap k j).injective (h.inj _ (hswap a ha) _ (hswap b hb) hab)
  · rw [h.mem_iff]
    constructor
    · rintro ⟨i, hi, rfl⟩
      exact ⟨Equiv.swap k j i, hswap i hi, by simp⟩
    · rintro ⟨i, hi, rfl⟩
      exact ⟨_, hswap i hi, rfl⟩
  · rw [Function.comp_apply, Equiv.swap_apply_of_ne_of_ne hk.ne' hj.ne']
    exact h.copy

end Arranged

end Entries

section Rounds

variable [Field K] [LinearOrder K]

/-- What the inner loop has chosen from the places behind `k` up to `m`. -/
inductive Chosen (f : ℕ → K) (th : K) (k m : ℕ) : Scan K → Prop where
  | none (h : ∀ i, k < i → i ≤ m → f i < th) : Chosen f th k m ⟨0, 11, 10 ^ 20⟩
  | tie (j : ℕ) (dist : K) (hkj : k < j) (hjm : j ≤ m) (h : f j = th) : Chosen f th k m ⟨j, th, dist⟩
  | first (j : ℕ) (hkj : k < j) (hjm : j ≤ m) (hlt : th < f j)
      (h : ∀ i, k < i → i ≤ m → f i < th ∨ f j ≤ f i) : Chosen f th k m ⟨j, f j, 10 ^ 20⟩

/-- The angles are those of the differences of the positions, and no vertex is too far for the
initial value of `dist`. -/
structure Exact (theta : GVector K → K) (math : JavaMath K) (polar : K × K → K)
    (pts : List (Vertex K)) : Prop where
  angle : ∀ v ∈ pts, ∀ w ∈ pts,
    theta (GeoMath.differance v.coord w.coord) = polar (v.xy - w.xy)
  near : ∀ v ∈ pts, ∀ w ∈ pts, (GeoMath.differance v.coord w.coord).distance math < 10 ^ 20

variable {theta : GVector K → K} {math : JavaMath K} {polar : K × K → K} {pts : List (Vertex K)}
  {pivot : Vertex K} {c : Convex K} {vs : ℕ → Vertex K} {f : ℕ → K} {th : K} {k m : ℕ}
  {s : Scan K}

lemma scanStep_ok {v w : Vertex K} (hexact : Exact theta math polar pts) (hv : v ∈ pts)
    (hw : w ∈ pts) (hvm : c.coord (m + 1) = .ok v.coord) (hwk : c.coord k = .ok w.coord)
    (hf : f (m + 1) = polar (v.xy - w.xy)) (hlt : f (m + 1) < 11) (hkm : k ≤ m)
    (h : Chosen f th k m s) :
    Returns (scanStep theta math c k th s (m + 1)) (Chosen f th k (m + 1)) := by
  have hnear := hexact.near v hv w hw
  unfold scanStep
  simp only [hvm, hwk, ok_bind, hexact.angle v hv w hw, ← hf]
  have hlast : ∀ {p : ℕ → Prop}, (∀ i, k < i → i ≤ m → p i) → p (m + 1) →
      ∀ i, k < i → i ≤ m + 1 → p i := by
    intro p hp hp' i hki him
    rcases Nat.le_succ_iff.mp him with him | rfl
    · exact hp i hki him
    · exact hp'
  refine returns_pure.mpr ?_
  rcases lt_trichotomy (f (m + 1)) th with hbelow | heq | habove
  · simp only [hbelow.ne, hbelow.not_gt, false_and, and_false, if_false]
    cases h with
    | none h => exact .none (hlast h hbelow)
    | tie j dist hkj hjm h => exact .tie j dist hkj (by omega) h
    | first j hkj hjm hlt' h => exact .first j hkj (by omega) hlt' (hlast h (.inl hbelow))
  · simp only [heq, lt_irrefl, true_and, and_false, if_false]
    cases h with
    | none h =>
      rw [if_pos hnear]
      exact .tie _ _ (by omega) le_rfl heq
    | tie j dist hkj hjm h =>
      split_ifs
      · exact .tie _ _ (by omega) le_rfl heq
      · exact .tie j dist hkj (by omega) h
    | first j hkj hjm hlt' h =>
      rw [if_pos hnear]
      exact .tie _ _ (by omega) le_rfl heq
  · simp only [habove.ne', habove, false_and, and_true, if_false]
    cases h with
    | none h =>
      rw [if_pos hlt]
      exact .first _ (by omega) le_rfl habove
        (hlast (fun i hki him => .inl (h i hki him)) (.inr le_rfl))
    | tie j dist hkj hjm h =>
      rw [if_neg habove.not_gt]
      exact .tie j dist hkj (by omega) h
    | first j hkj hjm hlt' h =>
      split_ifs with hless
      · refine .first _ (by omega) le_rfl habove (hlast (fun i hki him => ?_) (.inr le_rfl))
        exact (h i hki him).imp_right fun hle => hless.le.trans hle
      · exact .first j hkj (by omega) hlt' (hlast h (.inr (not_lt.mp hless)))

/-- The inner loop over places with vertices of the list. -/
lemma scan_ok (hexact : Exact theta math polar pts) (hpolar : ∀ u, polar u < 11)
    (hcoord : ∀ i, k ≤ i → i ≤ k + m → vs i ∈ pts ∧ c.coord i = .ok (vs i).coord) :
    Returns ((List.range' (k + 1) m).foldlM (scanStep theta math c k th) ⟨0, 11, 10 ^ 20⟩)
      (Chosen (fun i => polar ((vs i).xy - (vs k).xy)) th k (k + m)) := by
  induction m with
  | zero => exact returns_pure.mpr (.none fun i hki him => by omega)
  | succ m ih =>
    rw [List.range'_1_concat, List.foldlM_append]
    refine returns_bind.mpr ((ih fun i hki him => hcoord i hki (by omega)).mono fun s _ hs => ?_)
    obtain ⟨hk, hck⟩ := hcoord k le_rfl (by omega)
    obtain ⟨hm, hcm⟩ := hcoord (k + m + 1) (by omega) (by omega)
    have hstep := scanStep_ok hexact hm hk hcm hck rfl (hpolar _) (by omega) hs
    rw [List.foldlM_cons, show k + 1 + m = k + m + 1 by omega]
    refine returns_bind.mpr (hstep.mono fun s' _ hs' => ?_)
    exact returns_pure.mpr hs'

/-- One round from a place of the array: the vertex at `j` comes to `k` and the places behind it
are searched. -/
lemma round_ok {s : Wrap K} (hexact : Exact theta math polar pts) (hpolar : ∀ u, polar u < 11)
    (hpivot : pivot ∈ pts) (h : Arranged pts pivot s.convex vs) (hk : k < pts.length)
    (hj : s.j < pts.length) : Returns (round theta math s k) fun s' => s'.k = k ∧
      Arranged pts pivot s'.convex (vs ∘ Equiv.swap k s.j) ∧ ∃ dist,
        Chosen (fun i => polar ((vs (Equiv.swap k s.j i)).xy - (vs s.j).xy)) s.thmin k pts.length
          ⟨s'.j, s'.thmin, dist⟩ := by
  have hnew := h.exchange hk hj
  unfold round
  rw [exchange_ok (by rw [h.length]; omega) (by rw [h.length]; omega), ok_bind]
  have hcoord : ∀ i, k ≤ i → i ≤ k + (s.convex.nov - k) → (vs ∘ Equiv.swap k s.j) i ∈ pts ∧
      coord { s.convex with ppVertex := s.convex.ppVertex ∘ Equiv.swap k s.j } i =
        .ok ((vs ∘ Equiv.swap k s.j) i).coord := by
    intro i hki hin
    rw [h.nov] at hin
    refine ⟨?_, hnew.coord_eq (by omega)⟩
    rcases (show i ≤ pts.length by omega).eq_or_lt with rfl | hlt
    · rw [hnew.copy]
      exact hpivot
    · exact hnew.mem hlt
  refine returns_bind.mpr ((scan_ok hexact hpolar hcoord).mono fun r _ hr => ?_)
  rw [h.nov, Nat.add_sub_cancel' hk.le] at hr
  exact returns_pure.mpr ⟨rfl, hnew, r.dist, by simpa using hr⟩

end Rounds

section Wound

variable [Field K] [LinearOrder K] [IsStrictOrderedRing K]

omit [IsStrictOrderedRing K] in
lemma polar_lt_eleven {polar : K × K → K} (hpolar : ExactAngle polar) (hten : (10 : K) < 11)
    (u : K × K) : polar u < 11 := by
  by_cases hu : u = 0
  · rw [hu, hpolar.zero]
    exact hten
  · exact (hpolar.lt_ten u hu).trans hten

/-- The walk so far, and that the next edge is a side of the hull. -/
structure Wound (pts : List (Vertex K)) (polar : K × K → K) (pivot : Vertex K) (s : Wrap K)
    (vs : ℕ → Vertex K) (d : K × K) : Prop where
  arranged : Arranged pts pivot s.convex vs
  below : s.k < pts.length
  wrapping : Wrapping (positions pts) pivot.xy ((List.range s.k).map fun i => (vs i).xy)
    (vs s.k).xy d
  after : s.k < s.j
  atMost : s.j ≤ pts.length
  angle : s.thmin = polar ((vs s.j).xy - (vs s.k).xy)
  ne : (vs s.j).xy ≠ (vs s.k).xy
  side : Supports (positions pts) (vs s.k).xy ((vs s.j).xy - (vs s.k).xy)

variable {theta : GVector K → K} {math : JavaMath K} {polar : K × K → K} {pts : List (Vertex K)}
  {pivot : Vertex K} {vs : ℕ → Vertex K} {k : ℕ} {s : Wrap K} {d : K × K}
  (hexact : Exact theta math polar pts) (hpolar : ExactAngle polar) (hpivot : pivot ∈ pts)
  (hlow : Lowest (positions pts) pivot.xy) (hflat : ¬ Collinear K (positions pts))

include hexact hpolar hpivot hlow hflat

lemma round_wound (h : Arranged pts pivot s.convex vs) (hk : k < pts.length)
    (hj : s.j < pts.length) (hwrap : Wrapping (positions pts) pivot.xy
      ((List.range k).map fun i => (vs (Equiv.swap k s.j i)).xy) (vs s.j).xy d)
    (hth : s.thmin = polar d) (hstart : k = 0 → d = (1, 0)) :
    Returns (round theta math s k) fun s' => s'.k = k ∧
      Wound pts polar pivot s' (vs ∘ Equiv.swap k s.j) d := by
  have hten : (10 : K) < 11 := by norm_num
  refine (round_ok hexact (polar_lt_eleven hpolar hten) hpivot h hk hj).mono ?_
  rintro s' - ⟨rfl, harranged, dist, hchosen⟩
  refine ⟨rfl, ?_⟩
  have hlast : (vs ∘ Equiv.swap s'.k s.j) s'.k = vs s.j := by simp
  generalize hvs : vs ∘ Equiv.swap s'.k s.j = vs' at harranged hlast ⊢
  have hvs' : ∀ i, vs (Equiv.swap s'.k s.j i) = vs' i := fun i => congrFun hvs i
  simp only [hvs', ← hlast] at hwrap hchosen
  have hmem : ∀ i ≤ pts.length, (vs' i).xy ∈ positions pts := by
    intro i hi
    rcases hi.eq_or_lt with rfl | hi
    · rw [harranged.copy]
      exact ⟨pivot, hpivot, rfl⟩
    · exact ⟨_, harranged.mem hi, rfl⟩
  let rest : Set (K × K) := {x | ∃ i, s'.k < i ∧ i ≤ pts.length ∧ (vs' i).xy = x}
  have hrest : ∀ x ∈ positions pts,
      x ∈ ((List.range s'.k).map fun i => (vs' i).xy) ++ [(vs' s'.k).xy] ∨ x ∈ rest := by
    rintro x ⟨v, hv, rfl⟩
    obtain ⟨i, hi, rfl⟩ := (harranged.mem_iff v).mp hv
    rcases lt_trichotomy i s'.k with hlt | rfl | hgt
    · refine .inl (List.mem_append_left _ (List.mem_map.mpr ⟨i, List.mem_range.mpr hlt, rfl⟩))
    · exact .inl (by simp)
    · exact .inr ⟨i, hgt, hi.le, rfl⟩
  have hcopy : pivot.xy ∈ rest := ⟨pts.length, hk, le_rfl, by rw [harranged.copy]⟩
  obtain ⟨x, hx, hxne, hxle⟩ := hwrap.exists_next hlow hpolar hflat fun hnil => hstart (by
    simpa using hnil)
  have hxrest : x ∈ rest := by
    rcases hx with ⟨hxS, hxnew⟩ | ⟨rfl, -⟩
    · exact (hrest x hxS).resolve_left hxnew
    · exact hcopy
  obtain ⟨i, hki, hin, rfl⟩ := hxrest
  have hxten := hpolar.lt_ten _ (sub_ne_zero.mpr hxne)
  have hnezero : ∀ j, polar ((vs' j).xy - (vs' s'.k).xy) < 10 → (vs' j).xy ≠ (vs' s'.k).xy := by
    intro j hj heq
    rw [heq, sub_self, hpolar.zero] at hj
    exact lt_irrefl _ hj
  have hfound : s'.k < s'.j ∧ s'.j ≤ pts.length ∧
      s'.thmin = polar ((vs' s'.j).xy - (vs' s'.k).xy) ∧ (vs' s'.j).xy ≠ (vs' s'.k).xy ∧
      (polar ((vs' s'.j).xy - (vs' s'.k).xy) = polar d ∨
        polar d < polar ((vs' s'.j).xy - (vs' s'.k).xy) ∧ ∀ x ∈ rest, x ≠ (vs' s'.k).xy →
          polar (x - (vs' s'.k).xy) < polar d ∨
            polar ((vs' s'.j).xy - (vs' s'.k).xy) ≤ polar (x - (vs' s'.k).xy)) := by
    rw [hth] at hchosen
    generalize hj' : s'.j = j' at hchosen ⊢
    generalize hth' : s'.thmin = th' at hchosen ⊢
    cases hchosen with
    | none hnone => exact absurd (hnone i hki hin) hxle.not_gt
    | tie j dist hkj hjm heq =>
      refine ⟨hkj, hjm, heq.symm, hnezero j' ?_, .inl heq⟩
      rw [heq]
      exact hpolar.lt_ten _ hwrap.dir
    | first j hkj hjm hlt hfirst =>
      have hle := (hfirst i hki hin).resolve_left hxle.not_gt
      refine ⟨hkj, hjm, rfl, hnezero j' (hle.trans_lt hxten), .inr ⟨hlt, ?_⟩⟩
      rintro x ⟨m, hkm, hmn, rfl⟩ -
      exact hfirst m hkm hmn
  obtain ⟨hafter, hatMost, hangle, hne, hnext⟩ := hfound
  exact ⟨harranged, hk, hwrap, hafter, hatMost, hangle, hne,
    hwrap.side_next hlow hpolar hflat hrest (fun _ => hcopy) (hmem _ hatMost) hne hnext⟩

variable (hdistinct : (pts.map Vertex.xy).Nodup)

omit [Field K] [LinearOrder K] [IsStrictOrderedRing K] hexact hpolar hpivot hlow hflat in
include hdistinct in
/-- Two places of the array with one position are one place. -/
lemma Arranged.eq_of_xy {c : Convex K} (h : Arranged pts pivot c vs) {i j : ℕ}
    (hi : i < pts.length) (hj : j < pts.length) (hij : (vs i).xy = (vs j).xy) : i = j :=
  h.inj i hi j hj (List.inj_on_of_nodup_map hdistinct (h.mem hi) (h.mem hj) hij)

include hdistinct

/-- The outer loop goes on from one point of the hull to the next. -/
lemma body_wound (h : Wound pts polar pivot s vs d) (hj : s.j ≠ pts.length) :
    Returns (round theta math s (s.k + 1)) fun s' => s'.k = s.k + 1 ∧
      ∃ vs' d', Wound pts polar pivot s' vs' d' := by
  have hjlt : s.j < pts.length := lt_of_le_of_ne h.atMost hj
  have hsk := h.after
  have hfixed : ∀ i ≤ s.k, Equiv.swap (s.k + 1) s.j i = i := by
    intro i hi
    exact Equiv.swap_apply_of_ne_of_ne (by omega) (by omega)
  have hpoints : ((List.range (s.k + 1)).map fun i => (vs (Equiv.swap (s.k + 1) s.j i)).xy) =
      ((List.range s.k).map fun i => (vs i).xy) ++ [(vs s.k).xy] := by
    rw [List.range_succ, List.map_append, List.map_singleton, hfixed s.k le_rfl]
    congr 1
    refine List.map_congr_left fun i hi => ?_
    rw [hfixed i (List.mem_range.mp hi).le]
  have hnew : (vs s.j).xy ∉ ((List.range s.k).map fun i => (vs i).xy) ++ [(vs s.k).xy] := by
    rw [← hpoints, List.mem_map]
    rintro ⟨i, hi, heq⟩
    have hik := Nat.le_of_lt_succ (List.mem_range.mp hi)
    rw [hfixed i hik] at heq
    have := h.arranged.eq_of_xy hdistinct (by omega) hjlt heq
    omega
  have hstep := h.wrapping.step hlow ⟨_, h.arranged.mem hjlt, rfl⟩ hnew h.side
  rw [← hpoints] at hstep
  refine (round_wound hexact hpolar hpivot hlow hflat h.arranged (by omega) hjlt hstep h.angle
    (by omega)).mono ?_
  rintro s' - ⟨hk, hwound⟩
  exact ⟨hk, _, _, hwound⟩

/-- From a state on the hull the loop returns, and the state in which it does is the hull. -/
lemma run_wound (h : Wound pts polar pivot s vs d) : ∃ fuel0, ∀ fuel ≥ fuel0,
    Returns (WhileLoop.run .running (body theta math) fuel s) fun s' =>
      s'.j = pts.length ∧ ∃ vs' d', Wound pts polar pivot s' vs' d' := by
  have hI : ∀ s, (∃ vs d, Wound pts polar pivot s vs d) → body theta math s = .ok none ∨
      ∃ s', WhileLoop.Iteration (body theta math) s s' ∧ (∃ vs d, Wound pts polar pivot s' vs d) ∧
        pts.length - s'.k < pts.length - s.k := by
    rintro s ⟨vs, d, hs⟩
    unfold WhileLoop.Iteration body
    rw [hs.arranged.nov]
    by_cases hj : s.j = pts.length
    · exact .inl (if_pos hj)
    · obtain ⟨s', hs', hk, hwound⟩ :=
        body_wound hexact hpolar hpivot hlow hflat hdistinct hs hj
      refine .inr ⟨s', ?_, hwound, ?_⟩
      · rw [if_neg hj, hs']
        rfl
      · have := hs.below
        omega
  obtain ⟨r, fuel0, hr⟩ : ∃ r, WhileLoop.Returns .running (body theta math) s r :=
    WhileLoop.returns_of_wellFounded (measure fun s : Wrap K => pts.length - s.k).wf hI ⟨vs, d, h⟩
  have hinv : (∃ vs d, Wound pts polar pivot r vs d) ∧ body theta math r = .ok none := by
    refine WhileLoop.invariant_of_run (I := fun s => ∃ vs d, Wound pts polar pivot s vs d)
      (fun s s' hs hiter => ?_) hr ⟨vs, d, h⟩
    rcases hI s hs with hexit | ⟨s'', hiter', hs'', -⟩
    · rw [WhileLoop.Iteration, hexit] at hiter
      simp at hiter
    · rw [WhileLoop.Iteration] at hiter hiter'
      rw [hiter] at hiter'
      cases hiter'
      exact hs''
  obtain ⟨⟨vs', d', hwound⟩, hexit⟩ := hinv
  refine ⟨fuel0, fun fuel hfuel => ⟨r, WhileLoop.run_of_le hr hfuel, ?_, vs', d', hwound⟩⟩
  by_contra hj
  obtain ⟨s', hs', -⟩ := body_wound hexact hpolar hpivot hlow hflat hdistinct hwound hj
  rw [body, hwound.arranged.nov, if_neg hj, hs'] at hexit
  cases hexit

omit hexact hpolar hpivot hdistinct in
/-- The entries before the copy of the pivot are the hull. -/
lemma isHull_of_wound (h : Wound pts polar pivot s vs d) (hj : s.j = pts.length) :
    Returns (s.convex.exchange (s.k + 1) s.j) fun c => IsHull pts { c with noc := s.k + 1 } := by
  have hk := h.below
  have hlen := h.arranged.length
  rw [exchange_ok (by omega) (by omega), returns_ok]
  refine ⟨(List.range (s.k + 1)).map vs, ?_, ?_, ?_⟩
  · rw [List.map_map]
    refine List.map_congr_left fun i hi => ?_
    have hik : i < s.k + 1 := List.mem_range.mp hi
    change s.convex.ppVertex (Equiv.swap (s.k + 1) s.j i) = some (vs i)
    rw [Equiv.swap_apply_of_ne_of_ne (by omega) (by omega)]
    exact h.arranged.entry i (by omega)
  · intro v hv
    obtain ⟨i, hi, rfl⟩ := List.mem_map.mp hv
    exact h.arranged.mem (by have := List.mem_range.mp hi; omega)
  · have hne := h.ne
    have hside := h.side
    rw [hj, h.arranged.copy] at hne hside
    have hhull := h.wrapping.close hlow hflat hne.symm hside
    simpa [List.range_succ, Function.comp_def] using hhull

end Wound

section Start

variable [Field K] [LinearOrder K]

/-- The vertex at the place is the first of the lowest. -/
structure FirstLowest (pts : List (Vertex K)) (j : ℕ) (v : Vertex K) : Prop where
  entry : pts[j]? = some v
  lowest : ∀ w ∈ pts, v.coord.y ≤ w.coord.y
  first : ∀ i < j, ∀ w, pts[i]? = some w → v.coord.y < w.coord.y

variable {pts : List (Vertex K)} {pivot : Vertex K} {j : ℕ}

omit [Field K] in
lemma getIndexOfMinY_ok {c : Convex K} (hnov : c.nov = pts.length)
    (hcoord : ∀ i v, pts[i]? = some v → c.coord i = .ok v.coord) (hpts : pts ≠ []) :
    Returns c.getIndexOfMinY fun j => ∃ v, FirstLowest pts j v := by
  obtain ⟨first, hfirst⟩ : ∃ v, pts[0]? = some v :=
    ⟨_, List.getElem?_eq_getElem (List.length_pos_iff.mpr hpts)⟩
  have hscan : ∀ m ≤ pts.length, Returns ((List.range m).foldlM (fun (s : MinY K) i => do
      let v ← c.coord i
      return if v.y < s.y then ⟨v.y, i⟩ else s) ⟨first.coord.y, 0⟩) fun s =>
        ∃ v, s.y = v.coord.y ∧ pts[s.index]? = some v ∧
          (∀ i < m, ∀ w, pts[i]? = some w → v.coord.y ≤ w.coord.y) ∧
          ∀ i < s.index, ∀ w, pts[i]? = some w → v.coord.y < w.coord.y := by
    intro m hm
    induction m with
    | zero => exact returns_pure.mpr ⟨first, rfl, hfirst, by simp, by simp⟩
    | succ m ih =>
      rw [List.range_succ, List.foldlM_append]
      refine returns_bind.mpr ((ih (by omega)).mono ?_)
      rintro s - ⟨v, hy, hentry, hle, hlt⟩
      have hw : pts[m]? = some pts[m] := List.getElem?_eq_getElem (by omega)
      rw [List.foldlM_cons, hcoord m _ hw, ok_bind]
      have hupto : ∀ {u : Vertex K}, (∀ i < m, ∀ w, pts[i]? = some w → u.coord.y ≤ w.coord.y) →
          u.coord.y ≤ (pts[m]).coord.y →
            ∀ i < m + 1, ∀ w, pts[i]? = some w → u.coord.y ≤ w.coord.y := by
        intro u hu hum i hi w hiw
        rcases (Nat.le_of_lt_succ hi).eq_or_lt with rfl | hi
        · rw [hw] at hiw
          rwa [← Option.some.inj hiw]
        · exact hu i hi w hiw
      split_ifs with hless
      · rw [hy] at hless
        exact returns_pure.mpr ⟨pts[m], rfl, hw,
          hupto (fun i hi w hiw => hless.le.trans (hle i hi w hiw)) le_rfl,
          fun i hi w hiw => hless.trans_le (hle i hi w hiw)⟩
      · rw [hy, not_lt] at hless
        exact returns_pure.mpr ⟨v, hy, hentry, hupto hle hless, hlt⟩
  unfold getIndexOfMinY
  rw [hcoord 0 first hfirst, ok_bind, hnov]
  refine returns_bind.mpr ((hscan _ le_rfl).mono ?_)
  rintro s - ⟨v, -, hentry, hle, hlt⟩
  refine returns_pure.mpr ⟨v, hentry, fun w hw => ?_, hlt⟩
  obtain ⟨i, hi, rfl⟩ := List.mem_iff_getElem.mp hw
  exact hle i hi _ (List.getElem?_eq_getElem hi)

/-- `GetConvex` up to the first round. -/
lemma getConvex_start (hpts : pts ≠ []) (hnodup : pts.Nodup) :
    ∃ j pivot c vs, FirstLowest pts j pivot ∧ vs j = pivot ∧ Arranged pts pivot c vs ∧
      ∀ theta math fuel, (setData pts >>= getConvex theta math fuel) = do
        let s ← round theta math ⟨c, j, 0, 0⟩ 0
        let s ← WhileLoop.run .running (body theta math) fuel s
        let c ← s.convex.exchange (s.k + 1) s.j
        return { c with noc := s.k + 1 } := by
  obtain ⟨j, hj, pivot, hfirst⟩ := getIndexOfMinY_ok
    (c := ⟨fun i => pts[i]?, pts.length + 2, pts.length, 0⟩) rfl (fun i v hv =>
      coord_ok (by have := (List.getElem?_eq_some_iff.mp hv).1; simp only; omega) hv) hpts
  have hjlt := (List.getElem?_eq_some_iff.mp hfirst.entry).1
  have hvs : ∀ i < pts.length, pts[i]? = some (pts.getD i pivot) := by
    intro i hi
    rw [List.getD_eq_getElem _ _ hi, List.getElem?_eq_getElem hi]
  refine ⟨j, pivot, ⟨Function.update (fun i => pts[i]?) pts.length (some pivot), pts.length + 2,
    pts.length, 0⟩, fun i => pts.getD i pivot, hfirst, ?_, ⟨rfl, rfl, ?_, ?_, ?_, ?_⟩, ?_⟩
  · have h := hvs j hjlt
    rw [hfirst.entry] at h
    exact (Option.some.inj h).symm
  · intro i hi
    rcases hi.eq_or_lt with rfl | hi
    · simp
    · exact (Function.update_of_ne hi.ne _ _).trans (hvs i hi)
  · intro a ha b hb hab
    rw [List.getD_eq_getElem _ _ ha, List.getD_eq_getElem _ _ hb] at hab
    exact (hnodup.getElem_inj_iff).mp hab
  · intro v
    rw [List.mem_iff_getElem]
    constructor
    · rintro ⟨i, hi, rfl⟩
      exact ⟨i, hi, List.getD_eq_getElem _ _ hi⟩
    · rintro ⟨i, hi, rfl⟩
      exact ⟨i, hi, (List.getD_eq_getElem _ _ hi).symm⟩
  · exact List.getD_eq_default _ _ le_rfl
  · intro theta math fuel
    rw [setData_ok, ok_bind, getConvex, hj, ok_bind, read, if_pos (by simp only; omega), ok_bind,
      write, if_pos (by simp only; omega), ok_bind, ← hfirst.entry]

/-- When the first of the lowest vertices is the leftmost of them, all others are above or to the
right. -/
lemma FirstLowest.firstIsLeftmost_iff [IsStrictOrderedRing K] (h : FirstLowest pts j pivot) :
    FirstIsLeftmost pts ↔ Lowest (positions pts) pivot.xy := by
  have hmem : pivot ∈ pts := List.mem_of_getElem? h.entry
  constructor
  · intro hleft
    refine ⟨⟨pivot, hmem, rfl⟩, ?_⟩
    rintro x ⟨w, hw, rfl⟩ hne
    rcases (h.lowest w hw).lt_or_eq with hlt | heq
    · exact .inl (sub_pos.mpr hlt)
    · refine .inr ⟨sub_eq_zero.mpr heq.symm, sub_pos.mpr ?_⟩
      have hle := hleft j pivot h.entry h.lowest h.first w hw heq.symm
      exact lt_of_le_of_ne hle fun hx => hne (Prod.ext hx.symm heq.symm)
  · intro hlow i v hv hvlow hvfirst w hw hwy
    have hvp : v = pivot := by
      rcases lt_trichotomy i j with hlt | rfl | hgt
      · exact absurd (h.first i hlt v hv) (hvlow pivot hmem).not_gt
      · rw [h.entry] at hv
        exact (Option.some.inj hv).symm
      · exact absurd (hvfirst j hgt pivot h.entry)
          (h.lowest v (List.mem_of_getElem? hv)).not_gt
    rw [hvp] at hwy ⊢
    by_cases hxy : w.xy = pivot.xy
    · exact (congrArg Prod.fst hxy).ge
    · rcases hlow.upper w.xy ⟨w, hw, rfl⟩ hxy with hpos | ⟨-, hpos⟩
      · exact absurd hwy (sub_pos.mp hpos).ne'
      · exact (sub_pos.mp hpos).le

end Start

section Missed

variable [Field K] [LinearOrder K] [IsStrictOrderedRing K]

omit [Field K] [LinearOrder K] [IsStrictOrderedRing K] in
lemma exchange_nov {c c' : Convex K} {k j : ℕ} (h : c.exchange k j = .ok c') : c'.nov = c.nov := by
  by_cases hk : k < c.length
  · by_cases hj : j < c.length
    · rw [exchange_ok hk hj] at h
      cases h
      rfl
    · simp [exchange, read, hk, hj] at h
  · simp [exchange, read, hk] at h

/-- The run has not come by the point `L`, or has come to it from another point just now. -/
structure Missed (pts : List (Vertex K)) (polar : K × K → K) (pivot : Vertex K) (L : K × K)
    (s : Wrap K) (vs : ℕ → Vertex K) (d : K × K) : Prop where
  arranged : Arranged pts pivot s.convex vs
  below : s.k < pts.length
  dir : d ≠ 0
  missed : ∀ i < s.k, (vs i).xy ≠ L
  arrived : (vs s.k).xy = L → ¬ Upper d
  after : s.k < s.j
  atMost : s.j ≤ pts.length
  angle : s.thmin = polar ((vs s.j).xy - (vs s.k).xy)
  rising : polar d ≤ polar ((vs s.j).xy - (vs s.k).xy)

/-- No vertex has been chosen; then none will be. -/
structure Dead (pts : List (Vertex K)) (pivot : Vertex K) (s : Wrap K) : Prop where
  nov : s.convex.nov = pts.length
  j : s.j = 0
  thmin : s.thmin = 11
  arranged : s.k < pts.length → ∃ vs, Arranged pts pivot s.convex vs

variable {theta : GVector K → K} {math : JavaMath K} {polar : K × K → K} {pts : List (Vertex K)}
  {pivot : Vertex K} {L : K × K} {vs : ℕ → Vertex K} {k : ℕ} {s s' : Wrap K} {d : K × K}
  (hexact : Exact theta math polar pts) (hpolar : ExactAngle polar) (hpivot : pivot ∈ pts)

include hexact hpolar hpivot

lemma round_missed (h : Arranged pts pivot s.convex vs) (hk : k < pts.length)
    (hj : s.j < pts.length) (hd : d ≠ 0) (hth : s.thmin = polar d)
    (hmissed : ∀ i < k, (vs (Equiv.swap k s.j i)).xy ≠ L)
    (harrived : (vs s.j).xy = L → ¬ Upper d) : Returns (round theta math s k) fun s' =>
      (∃ vs, Missed pts polar pivot L s' vs d) ∨ Dead pts pivot s' := by
  have hten : (10 : K) < 11 := by norm_num
  refine (round_ok hexact (polar_lt_eleven hpolar hten) hpivot h hk hj).mono ?_
  rintro s' - ⟨rfl, harranged, dist, hchosen⟩
  have hlast : (vs ∘ Equiv.swap s'.k s.j) s'.k = vs s.j := by simp
  generalize hvs : vs ∘ Equiv.swap s'.k s.j = vs' at harranged hlast
  have hvs' : ∀ i, vs (Equiv.swap s'.k s.j i) = vs' i := fun i => congrFun hvs i
  simp only [hvs', ← hlast] at hmissed harrived hchosen
  have hcases : (s'.j = 0 ∧ s'.thmin = 11) ∨ s'.k < s'.j ∧ s'.j ≤ pts.length ∧
      s'.thmin = polar ((vs' s'.j).xy - (vs' s'.k).xy) ∧
      polar d ≤ polar ((vs' s'.j).xy - (vs' s'.k).xy) := by
    rw [hth] at hchosen
    generalize hj' : s'.j = j' at hchosen ⊢
    generalize hth' : s'.thmin = th' at hchosen ⊢
    cases hchosen with
    | none => exact .inl ⟨rfl, rfl⟩
    | tie j dist hkj hjm heq => exact .inr ⟨hkj, hjm, heq.symm, heq.ge⟩
    | first j hkj hjm hlt => exact .inr ⟨hkj, hjm, rfl, hlt.le⟩
  rcases hcases with ⟨hj0, hth11⟩ | ⟨hafter, hatMost, hangle, hrising⟩
  · exact .inr ⟨harranged.nov, hj0, hth11, fun _ => ⟨_, harranged⟩⟩
  · exact .inl ⟨vs', harranged, hk, hd, hmissed, harrived, hafter, hatMost, hangle, hrising⟩

lemma round_dead (h : Dead pts pivot s) (hr : round theta math s (s.k + 1) = .ok s') :
    Dead pts pivot s' := by
  have hten : (10 : K) < 11 := by norm_num
  by_cases hk : s.k + 1 < pts.length
  · obtain ⟨vs, hvs⟩ := h.arranged (by omega)
    obtain ⟨s'', hr', -, harranged, dist, hchosen⟩ := round_ok hexact
      (polar_lt_eleven hpolar hten) hpivot hvs hk (by rw [h.j]; omega)
    rw [hr] at hr'
    cases hr'
    have hcases : s'.j = 0 ∧ s'.thmin = 11 := by
      rw [h.thmin] at hchosen
      generalize s'.j = j' at hchosen ⊢
      generalize s'.thmin = th' at hchosen ⊢
      cases hchosen with
      | none => exact ⟨rfl, rfl⟩
      | tie j dist hkj hjm heq => exact absurd heq (polar_lt_eleven hpolar hten _).ne
      | first j hkj hjm hlt => exact absurd hlt (polar_lt_eleven hpolar hten _).not_gt
    exact ⟨harranged.nov, hcases.1, hcases.2, fun _ => ⟨_, harranged⟩⟩
  · obtain ⟨c, hc, hr⟩ := bind_eq_ok.mp hr
    have hnov := (exchange_nov hc).trans h.nov
    rw [hnov, Nat.sub_eq_zero_of_le (not_lt.mp hk)] at hr
    cases hr
    exact ⟨hnov, rfl, rfl, fun hlt => absurd hlt hk⟩

variable (hdistinct : (pts.map Vertex.xy).Nodup) (hlow : Lowest (positions pts) L)

include hdistinct hlow

omit hexact hpivot hdistinct in
/-- A run that goes on from `L` would have to turn back. -/
lemma Missed.missed_last (h : Missed pts polar pivot L s vs d)
    (hj : (vs s.j).xy ∈ positions pts) (hjL : (vs s.j).xy ≠ L) :
    ∀ i < s.k + 1, (vs i).xy ≠ L := by
  intro i hi
  rcases (Nat.le_of_lt_succ hi).eq_or_lt with rfl | hi
  · intro heq
    have hrising := h.rising
    rw [heq] at hrising
    exact hlow.not_left hpolar h.dir (h.arrived heq) hj hjL hrising
  · exact h.missed i hi

lemma body_missed (h : Missed pts polar pivot L s vs d)
    (hb : body theta math s = .ok (some s')) :
    (∃ vs d, Missed pts polar pivot L s' vs d) ∨ Dead pts pivot s' := by
  unfold body at hb
  rw [h.arranged.nov] at hb
  split_ifs at hb with hj
  · cases hb
  obtain ⟨s'', hr, hs''⟩ := bind_eq_ok.mp hb
  cases hs''
  have hjlt : s.j < pts.length := lt_of_le_of_ne h.atMost hj
  have hsk := h.after
  have hmem : (vs s.j).xy ∈ positions pts := ⟨_, h.arranged.mem hjlt, rfl⟩
  have hmem' : (vs s.k).xy ∈ positions pts := ⟨_, h.arranged.mem h.below, rfl⟩
  have hne : (vs s.j).xy ≠ (vs s.k).xy := fun heq =>
    hsk.ne' (h.arranged.eq_of_xy hdistinct hjlt h.below heq)
  have hmissed : ∀ i < s.k + 1, (vs i).xy ≠ L := by
    intro i hi heq
    by_cases hjL : (vs s.j).xy = L
    · have hij := h.arranged.eq_of_xy hdistinct (by omega) hjlt (heq.trans hjL.symm)
      omega
    · exact h.missed_last hpolar hlow hmem hjL i hi heq
  obtain ⟨s'', hr', hinv⟩ := round_missed (L := L) hexact hpolar hpivot h.arranged
    (show s.k + 1 < pts.length by omega) hjlt (sub_ne_zero.mpr hne) h.angle (by
      intro i hi
      rw [Equiv.swap_apply_of_ne_of_ne (by omega) (by omega)]
      exact hmissed i hi) (by
      rintro rfl
      exact hlow.not_upper hmem' (hmissed s.k (by omega)))
  rw [hr] at hr'
  cases hr'
  exact hinv.imp_left fun ⟨vs', hvs'⟩ => ⟨vs', _, hvs'⟩

/-- A run that returns has not come by `L`, unless it began there. -/
lemma run_missed {fuel : ℕ} (h : (∃ vs d, Missed pts polar pivot L s vs d) ∨ Dead pts pivot s)
    (hr : WhileLoop.run .running (body theta math) fuel s = .ok s') (hne : pivot.xy ≠ L) :
    ∃ vs, Arranged pts pivot s'.convex vs ∧ s'.k < pts.length ∧ s'.j = pts.length ∧
      ∀ i < s'.k + 1, (vs i).xy ≠ L := by
  obtain ⟨hinv, hexit⟩ := WhileLoop.invariant_of_run
    (I := fun s => (∃ vs d, Missed pts polar pivot L s vs d) ∨ Dead pts pivot s) (by
      rintro s s' (⟨vs, d, hs⟩ | hs) hiter
      · exact body_missed hexact hpolar hpivot hdistinct hlow hs hiter
      · unfold WhileLoop.Iteration body at hiter
        split_ifs at hiter
        · cases hiter
        · obtain ⟨s'', hr, hs''⟩ := bind_eq_ok.mp hiter
          cases hs''
          exact .inr (round_dead hexact hpolar hpivot hs hr)) hr h
  have hj : s'.j = s'.convex.nov := by
    by_contra hj
    rw [body, if_neg hj] at hexit
    obtain ⟨s'', -, hs''⟩ := bind_eq_ok.mp hexit
    cases hs''
  rcases hinv with ⟨vs, d, hs⟩ | hs
  · have hjn : s'.j = pts.length := hj.trans hs.arranged.nov
    have hcopy : vs s'.j = pivot := by rw [hjn, hs.arranged.copy]
    refine ⟨vs, hs.arranged, hs.below, hjn, hs.missed_last hpolar hlow ?_ ?_⟩
    · rw [hcopy]
      exact ⟨pivot, hpivot, rfl⟩
    · rw [hcopy]
      exact hne
  · rw [hs.j, hs.nov] at hj
    have := List.length_pos_of_mem hpivot
    omega

end Missed

section Corner

/-- Where no difference of coordinates is below the tolerance of `differance` the angles are
exact. -/
lemma exact_of_snap [Field K] [LinearOrder K] {math : JavaMath K} (polar : K × K → K)
    {pts : List (Vertex K)} (hx : ∀ v ∈ pts, ∀ w ∈ pts,
      GeoMath.snap (v.coord.x - w.coord.x) = v.coord.x - w.coord.x)
    (hy : ∀ v ∈ pts, ∀ w ∈ pts, GeoMath.snap (v.coord.y - w.coord.y) = v.coord.y - w.coord.y)
    (hnear : ∀ v ∈ pts, ∀ w ∈ pts,
      (GeoMath.differance v.coord w.coord).distance math < 10 ^ 20) :
    Exact (fun v => polar v.xy) math polar pts := by
  refine ⟨fun v hv w hw => congrArg polar (Prod.ext ?_ ?_), hnear⟩
  · exact hx v hv w hw
  · exact hy v hv w hw

/-- The functions of the real numbers. -/
noncomputable def realMath : JavaMath ℝ := ⟨Real.sqrt, Real.arctan⟩

/-- The three corners of a right-angled triangle, with the right angle second. -/
def corner : List (Vertex ℝ) := [⟨0, 0, ⟨1, 0, 0⟩⟩, ⟨1, 1, ⟨0, 0, 0⟩⟩, ⟨2, 2, ⟨0, 1, 0⟩⟩]

lemma corner_exact : Exact (fun v => polarAngle v.xy) realMath polarAngle corner := by
  have hunit : ∀ v ∈ corner, (v.coord.x = 0 ∨ v.coord.x = 1) ∧ (v.coord.y = 0 ∨ v.coord.y = 1) ∧
      v.coord.z = 0 := by
    simp [corner]
  have hsnap : ∀ a b : ℝ, (a = 0 ∨ a = 1) → (b = 0 ∨ b = 1) →
      GeoMath.snap (a - b) = a - b ∧ (a - b) * (a - b) ≤ 1 := by
    rintro a b (rfl | rfl) (rfl | rfl) <;> norm_num [GeoMath.snap]
  refine exact_of_snap polarAngle (fun v hv w hw => ?_) (fun v hv w hw => ?_) fun v hv w hw => ?_
  · exact (hsnap _ _ (hunit v hv).1 (hunit w hw).1).1
  · exact (hsnap _ _ (hunit v hv).2.1 (hunit w hw).2.1).1
  · obtain ⟨hx, hx'⟩ := hsnap _ _ (hunit v hv).1 (hunit w hw).1
    obtain ⟨hy, hy'⟩ := hsnap _ _ (hunit v hv).2.1 (hunit w hw).2.1
    simp only [GVector.distance, GeoMath.differance, realMath, hx, hy, (hunit v hv).2.2,
      (hunit w hw).2.2]
    rw [Real.sqrt_lt' (by norm_num)]
    norm_num [GeoMath.snap]
    linarith

lemma corner_not_collinear : ¬ Collinear ℝ (positions corner) := by
  have hmem : ∀ v ∈ corner, v.xy ∈ positions corner := fun v hv => ⟨v, hv, rfl⟩
  have h0 : ((0, 0) : ℝ × ℝ) ∈ positions corner := hmem ⟨1, 1, ⟨0, 0, 0⟩⟩ (by simp [corner])
  have h1 : ((1, 0) : ℝ × ℝ) ∈ positions corner := hmem ⟨0, 0, ⟨1, 0, 0⟩⟩ (by simp [corner])
  have h2 : ((0, 1) : ℝ × ℝ) ∈ positions corner := hmem ⟨2, 2, ⟨0, 1, 0⟩⟩ (by simp [corner])
  rw [collinear_iff_of_mem h0]
  rintro ⟨d, hd⟩
  obtain ⟨r, hr⟩ := hd _ h1
  obtain ⟨t, ht⟩ := hd _ h2
  have hr1 : 1 = r * d.1 := by simpa using congrArg Prod.fst hr
  have hr2 : 0 = r * d.2 := by simpa using congrArg Prod.snd hr
  have ht2 : 1 = t * d.2 := by simpa using congrArg Prod.snd ht
  have hd2 : d.2 = 0 := by
    rcases mul_eq_zero.mp hr2.symm with hr0 | hd0
    · rw [hr0, zero_mul] at hr1
      exact absurd hr1 one_ne_zero
    · exact hd0
  rw [hd2, mul_zero] at ht2
  exact one_ne_zero ht2

lemma corner_distinct : (corner.map Vertex.xy).Nodup := by
  simp [corner, GVector.xy]

end Corner

section Results

variable [Field K] [LinearOrder K] {theta : GVector K → K} {math : JavaMath K}
  {polar : K × K → K} {pts : List (Vertex K)}

lemma exists_lowest [IsStrictOrderedRing K] (hpts : pts ≠ []) : ∃ L, Lowest (positions pts) L := by
  obtain ⟨v, hv, hmin⟩ := pts.toFinset.exists_min_image
    (fun v => toLex (v.coord.y, v.coord.x)) (List.toFinset_nonempty_iff pts |>.mpr hpts)
  refine ⟨v.xy, ⟨v, List.mem_toFinset.mp hv, rfl⟩, ?_⟩
  rintro x ⟨w, hw, rfl⟩ hne
  rcases Prod.Lex.toLex_le_toLex.mp (hmin w (List.mem_toFinset.mpr hw)) with hlt | ⟨heq, hle⟩
  · exact .inl (sub_pos.mpr hlt)
  · refine .inr ⟨sub_eq_zero.mpr heq.symm, sub_pos.mpr (lt_of_le_of_ne hle fun hx => ?_)⟩
    exact hne (Prod.ext hx.symm heq.symm)

/-- A hull is found only from the leftmost of the lowest vertices. -/
lemma firstIsLeftmost_of_findsHull [IsStrictOrderedRing K] (hpolar : ExactAngle polar)
    (hexact : Exact theta math polar pts) (hpts : pts ≠ []) (hdistinct : (pts.map Vertex.xy).Nodup)
    (h : FindsHull theta math pts) : FirstIsLeftmost pts := by
  obtain ⟨j, pivot, c, vs, hfirst, hj, harranged, hrun⟩ :=
    getConvex_start hpts (List.Nodup.of_map _ hdistinct)
  obtain ⟨L, hlow⟩ := exists_lowest hpts
  have hpivot : pivot ∈ pts := List.mem_of_getElem? hfirst.entry
  by_cases hL : pivot.xy = L
  · rw [hfirst.firstIsLeftmost_iff, hL]
    exact hlow
  · exfalso
    have hjlt := (List.getElem?_eq_some_iff.mp hfirst.entry).1
    obtain ⟨fuel, hfuel⟩ := h
    obtain ⟨r, hr, q, hq, -, hhull⟩ := hfuel fuel le_rfl
    rw [hrun] at hr
    obtain ⟨s, hs, hr⟩ := bind_eq_ok.mp hr
    obtain ⟨s', hs', hr⟩ := bind_eq_ok.mp hr
    obtain ⟨c', hc', hr⟩ := bind_eq_ok.mp hr
    cases hr
    obtain ⟨s'', hround, hinv⟩ := round_missed (L := L) (d := (1, 0)) hexact hpolar hpivot
      harranged (s := ⟨c, j, 0, 0⟩) (k := 0) (by omega) hjlt (by simp) hpolar.right.symm
      (by simp) (by
        simp only [hj]
        exact fun heq => absurd heq hL)
    rw [hs] at hround
    cases hround
    obtain ⟨vs', harranged', hk, hjn, hmissed⟩ := run_missed hexact hpolar hpivot hdistinct hlow
      (hinv.imp_left fun ⟨vs, hvs⟩ => ⟨vs, _, hvs⟩) hs' hL
    have hlen := harranged'.length
    rw [exchange_ok (by omega) (by omega)] at hc'
    cases hc'
    obtain ⟨v, hv, hvL⟩ := List.mem_map.mp (hhull.extreme hlow.extreme)
    have hentry : some v ∈ q.map some := List.mem_map_of_mem hv
    rw [← hq] at hentry
    obtain ⟨i, hi, hiv⟩ := List.mem_map.mp hentry
    have hik : i < s'.k + 1 := List.mem_range.mp hi
    have hiv' : s'.convex.ppVertex (Equiv.swap (s'.k + 1) s'.j i) = some v := hiv
    rw [Equiv.swap_apply_of_ne_of_ne (by omega) (by omega), harranged'.entry i (by omega)] at hiv'
    obtain rfl := Option.some.inj hiv'
    exact hmissed i hik hvL

end Results

end Convex

end MTalk.Triangle
