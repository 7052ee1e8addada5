import MTalk.Library.GuardedRuns
import MTalk.Triangle.GeoMath

/-!
# Nested areas

An `Area` is bounded by a closed line and holds the areas that are cut out of it. `dissect` puts a
closed line into it: beside the areas it holds, into one of them, or round some of them. For lines
that do not meet the tree that results is the order of the lines by inclusion.
-/

namespace MTalk.Triangle

open MTalk.GuardedRuns

inductive Area (L : Type) where
  | mk (bpoly : L) (culls : Option (List (Area L))) (type : ℤ)

namespace Area

variable {L P : Type}

def bpoly : Area L → L
  | mk bpoly _ _ => bpoly

def culls : Area L → Option (List (Area L))
  | mk _ culls _ => culls

/-- The area with other areas cut out of it. -/
def withCulls : Area L → List (Area L) → Area L
  | mk bpoly _ type, culls => mk bpoly (some culls) type

/-- An area after `dissect`: the area itself, whether it was removed from the set of areas, and the
areas that were added there. -/
structure Dissected (L : Type) where
  area : Area L
  removed : Bool
  added : List (Area L)

lemma sizeOf_cull {a cull : Area L} (h : cull ∈ a.culls.getD []) : sizeOf cull < sizeOf a := by
  cases a with
  | mk b culls t =>
    cases culls with
    | none => simp [Area.culls] at h
    | some cs =>
      have := List.sizeOf_lt_of_mem (show cull ∈ cs from h)
      simp only [mk.sizeOf_spec, Option.some.sizeOf_spec]
      omega

lemma mem_of_dropWhile {α : Type} {l post : List α} {p : α → Bool} {b : α}
    (h : l.dropWhile p = b :: post) : b ∈ l :=
  (List.dropWhile_sublist p).subset (by rw [h]; simp)

section Code

variable (pRp : L → L → ℤ) (cutPoly : L → L → Except Stop (List L)) (insidePolygon : L → P → Bool)

def getCulls (a : Area L) (poly : L) : Option (List (Area L)) :=
  a.culls.map fun culls => culls.filter fun cull => pRp cull.bpoly poly = 1

def createArea (a : Area L) (pset : List L) : List (Area L) :=
  pset.map fun poly => mk poly (a.getCulls pRp poly) 1

def polyInt (a : Area L) (poly : L) : Except Stop (Dissected L) := do
  let pset ← cutPoly a.bpoly poly
  return ⟨a, true, a.createArea pRp pset⟩

def clear (a : Area L) (poly : L) : Bool :=
  (a.culls.getD []).all fun cull => pRp poly cull.bpoly = 0

mutual

def polyCut (a : Area L) (poly : L) : Except Stop (Dissected L) :=
  let rel := pRp a.bpoly poly
  if rel = 0 ∨ rel = 1 then .ok ⟨a, false, []⟩
  else if rel = -1 then a.polyInt pRp cutPoly poly
  else polyInc a poly
termination_by (sizeOf a, 1)

/-- A line inside the area. Without an area inside the line `getIncMeArea` looks for the first area
that the line is inside of. -/
def polyInc (a : Area L) (poly : L) : Except Stop (Dissected L) :=
  let culls := a.culls.getD []
  let outside := fun cull : Area L => decide (pRp poly cull.bpoly ≠ 1)
  if a.clear pRp poly then .ok ⟨a.withCulls (culls ++ [mk poly none 0]), false, []⟩
  else
    let cs := (a.getCulls pRp poly).getD []
    if cs.isEmpty then
      match h : culls.dropWhile outside with
      | [] => .error .nullPointer
      | ar :: post =>
        have : sizeOf ar < sizeOf a := sizeOf_cull (mem_of_dropWhile h)
        do
          let d ← polyCut ar poly
          return ⟨a.withCulls (culls.takeWhile outside ++ d.area :: post), false, d.added⟩
    else
      let others := culls.filter fun cull => pRp cull.bpoly poly ≠ 1
      .ok ⟨a.withCulls (others ++ [mk poly (some cs) 0]), false, []⟩
termination_by (sizeOf a, 0)

end

/-- The set of areas during `LineCut`: those that stay and those that are added behind them. -/
structure Areas (L : Type) where
  kept : List (Area L)
  added : List (Area L)

/-- `AreaSet.LineCut` with a closed line. -/
def lineCut (set : List (Area L)) (line : L) : Except Stop (List (Area L)) := do
  let s ← set.foldlM (fun (s : Areas L) a => do
    let d ← a.polyCut pRp cutPoly line
    return ⟨if d.removed then s.kept else s.kept ++ [d.area], s.added ++ d.added⟩) ⟨[], []⟩
  return s.kept ++ s.added

def getArea (a : Area L) (v : P) : Option (Area L) :=
  if !insidePolygon a.bpoly v then none
  else
    match h : (a.culls.getD []).dropWhile fun cull => !insidePolygon cull.bpoly v with
    | [] => some a
    | cull :: _ =>
      have : sizeOf cull < sizeOf a := sizeOf_cull (mem_of_dropWhile h)
      getArea cull v
termination_by sizeOf a

/-- `AreaSet.getArea`. -/
def getAreaOf (set : List (Area L)) (v : P) : Option (Area L) :=
  set.findSome? fun a => a.getArea insidePolygon v

end Code

section Tree

mutual

/-- The lines of the area and of all areas in it. -/
def lines : Area L → List L
  | mk b none _ => [b]
  | mk b (some cs) _ => b :: linesOf cs

def linesOf : List (Area L) → List L
  | [] => []
  | c :: cs => c.lines ++ linesOf cs

end

/-- An area with the second line is cut out of an area with the first line. -/
inductive Parent : Area L → L → L → Prop where
  | here {a c : Area L} (h : c ∈ a.culls.getD []) : Parent a a.bpoly c.bpoly
  | inside {a c : Area L} {p x : L} (h : c ∈ a.culls.getD []) (hc : Parent c p x) : Parent a p x

variable (region : L → Set P)

/-- The areas in an area are inside it and apart from each other. -/
inductive Nested : Area L → Prop where
  | intro {a : Area L} (inner : ∀ c ∈ a.culls.getD [], region c.bpoly ⊂ region a.bpoly)
      (apart : (a.culls.getD []).Pairwise fun c d => Disjoint (region c.bpoly) (region d.bpoly))
      (culls : ∀ c ∈ a.culls.getD [], Nested c) : Nested a

/-- Any two lines of the family are disjoint or one is inside the other. -/
structure Laminar (F : Set L) : Prop where
  nonempty : ∀ a ∈ F, (region a).Nonempty
  cases : ∀ a ∈ F, ∀ b ∈ F, a ≠ b →
    Disjoint (region a) (region b) ∨ region a ⊂ region b ∨ region b ⊂ region a

/-- `pRp` and `InsidePolygon` are the exact relations on a laminar family. -/
structure ExactTests (pRp : L → L → ℤ) (insidePolygon : L → P → Bool) (F : Set L) : Prop where
  disjoint : ∀ a ∈ F, ∀ b ∈ F, Disjoint (region a) (region b) → pRp a b = 0
  inside : ∀ a ∈ F, ∀ b ∈ F, region a ⊂ region b → pRp a b = 1
  around : ∀ a ∈ F, ∀ b ∈ F, region b ⊂ region a → pRp a b = 2
  point : ∀ a ∈ F, ∀ v, insidePolygon a v = true ↔ v ∈ region a

variable {region} {a : Area L} {F : Set L}

lemma linesOf_eq (cs : List (Area L)) : linesOf cs = cs.flatMap lines := by
  induction cs with
  | nil => rfl
  | cons c cs ih => rw [linesOf, ih, List.flatMap_cons]

lemma lines_eq (a : Area L) : a.lines = a.bpoly :: (a.culls.getD []).flatMap lines := by
  cases a with
  | mk b culls t =>
    cases culls with
    | none => rfl
    | some cs => rw [lines, linesOf_eq]; rfl

lemma mem_lines {x : L} : x ∈ a.lines ↔ x = a.bpoly ∨ ∃ c ∈ a.culls.getD [], x ∈ c.lines := by
  rw [lines_eq, List.mem_cons, List.mem_flatMap]

lemma bpoly_mem_lines (a : Area L) : a.bpoly ∈ a.lines := mem_lines.mpr (.inl rfl)

lemma lines_subset_of_cull {c : Area L} (hc : c ∈ a.culls.getD []) : c.lines ⊆ a.lines :=
  fun _ hx => mem_lines.mpr (.inr ⟨c, hc, hx⟩)

@[simp] lemma withCulls_bpoly (cs : List (Area L)) : (a.withCulls cs).bpoly = a.bpoly := by
  cases a
  rfl

@[simp] lemma withCulls_culls (cs : List (Area L)) : (a.withCulls cs).culls = some cs := by
  cases a
  rfl

lemma disjoint_of_apart {cs : List (Area L)} {c d : Area L}
    (h : cs.Pairwise fun c d => Disjoint (region c.bpoly) (region d.bpoly)) (hc : c ∈ cs)
    (hd : d ∈ cs) (hcd : c ≠ d) : Disjoint (region c.bpoly) (region d.bpoly) := by
  have hsymm : Std.Symm fun c d : Area L => Disjoint (region c.bpoly) (region d.bpoly) :=
    ⟨fun _ _ hdis => hdis.symm⟩
  exact h.forall hc hd hcd

/-- The lines in an area are inside its line. -/
lemma Nested.ssubset (h : Nested region a) {x : L} (hx : x ∈ a.lines) :
    x = a.bpoly ∨ region x ⊂ region a.bpoly := by
  induction h with
  | intro inner _ _ ih =>
    rcases mem_lines.mp hx with rfl | ⟨c, hc, hxc⟩
    · exact .inl rfl
    · rcases ih c hc hxc with rfl | hsub
      · exact .inr (inner c hc)
      · exact .inr (hsub.trans (inner c hc))

lemma Nested.subset (h : Nested region a) {x : L} (hx : x ∈ a.lines) :
    region x ⊆ region a.bpoly := by
  rcases h.ssubset hx with rfl | hsub
  · exact subset_rfl
  · exact hsub.subset

end Tree

section Insert

variable {region : L → Set P} {pRp : L → L → ℤ} {cutPoly : L → L → Except Stop (List L)}
  {insidePolygon : L → P → Bool} {a : Area L} {line : L} {F : Set L}

lemma polyInc_clear (h : a.clear pRp line = true) : polyInc pRp cutPoly a line =
    .ok ⟨a.withCulls (a.culls.getD [] ++ [mk line none 0]), false, []⟩ := by
  rw [polyInc]
  simp only [h, if_true]

lemma polyInc_round (h : a.clear pRp line = false) (hcs : (a.getCulls pRp line).getD [] ≠ []) :
    polyInc pRp cutPoly a line = .ok ⟨a.withCulls (((a.culls.getD []).filter fun cull =>
      pRp cull.bpoly line ≠ 1) ++ [mk line (some ((a.getCulls pRp line).getD [])) 0]), false, []⟩ := by
  rw [polyInc]
  simp only [h, Bool.false_eq_true, if_false, List.isEmpty_iff, hcs]

lemma polyInc_into {pre post : List (Area L)} {ar : Area L} (h : a.clear pRp line = false)
    (hcs : (a.getCulls pRp line).getD [] = []) (hculls : a.culls.getD [] = pre ++ ar :: post)
    (hpre : ∀ c ∈ pre, pRp line c.bpoly ≠ 1) (har : pRp line ar.bpoly = 1) :
    polyInc pRp cutPoly a line = (do
      let d ← polyCut pRp cutPoly ar line
      return ⟨a.withCulls (pre ++ d.area :: post), false, d.added⟩) := by
  have hpre' : ∀ c ∈ pre, decide (pRp line c.bpoly ≠ 1) = true := fun c hc => decide_eq_true (hpre c hc)
  have hdrop : (a.culls.getD []).dropWhile (fun cull => decide (pRp line cull.bpoly ≠ 1)) =
      ar :: post := by
    rw [hculls, List.dropWhile_append_of_pos hpre', List.dropWhile_cons_of_neg (by simp [har])]
  have htake : (a.culls.getD []).takeWhile (fun cull => decide (pRp line cull.bpoly ≠ 1)) = pre := by
    rw [hculls, List.takeWhile_append_of_pos hpre', List.takeWhile_cons_of_neg (by simp [har]),
      List.append_nil]
  rw [polyInc]
  simp only [h, Bool.false_eq_true, if_false, hcs, List.isEmpty_nil, if_true, htake]
  split
  · rename_i hnil
    rw [hdrop] at hnil
    cases hnil
  · rename_i b post' hcons
    rw [hdrop] at hcons
    cases hcons
    rfl

/-- The area after a line has been put into it. -/
structure Inserted (region : L → Set P) (a : Area L) (line : L) (a' : Area L) : Prop where
  bpoly : a'.bpoly = a.bpoly
  nested : Nested region a'
  lines : a'.lines.Perm (line :: a.lines)

lemma nested_withCulls {cs : List (Area L)} (inner : ∀ c ∈ cs, region c.bpoly ⊂ region a.bpoly)
    (apart : cs.Pairwise fun c d => Disjoint (region c.bpoly) (region d.bpoly))
    (culls : ∀ c ∈ cs, Nested region c) : Nested region (a.withCulls cs) := by
  constructor <;> simpa

lemma withCulls_lines (cs : List (Area L)) :
    (a.withCulls cs).lines = a.bpoly :: cs.flatMap lines := by
  rw [lines_eq]
  simp

/-- A closed line that does not meet the lines of the area finds its place among them. -/
theorem polyCut_inserted (cutPoly : L → L → Except Stop (List L))
    (hexact : ExactTests region pRp insidePolygon F) (hlam : Laminar region F) (h : Nested region a) (hF : ∀ x ∈ a.lines, x ∈ F) (hline : line ∈ F)
    (hnew : line ∉ a.lines) (hsub : region line ⊂ region a.bpoly) :
    ∃ a', polyCut pRp cutPoly a line = .ok ⟨a', false, []⟩ ∧ Inserted region a line a' := by
  induction h with
  | @intro a inner apart culls ih =>
    have hcullF : ∀ c ∈ a.culls.getD [], c.bpoly ∈ F :=
      fun c hc => hF _ (lines_subset_of_cull hc c.bpoly_mem_lines)
    have hcases : ∀ c ∈ a.culls.getD [], Disjoint (region line) (region c.bpoly) ∧
          pRp line c.bpoly = 0 ∧ pRp c.bpoly line = 0 ∨
        region line ⊂ region c.bpoly ∧ pRp line c.bpoly = 1 ∧ pRp c.bpoly line = 2 ∨
        region c.bpoly ⊂ region line ∧ pRp line c.bpoly = 2 ∧ pRp c.bpoly line = 1 := by
      intro c hc
      have hne : line ≠ c.bpoly := by
        rintro rfl
        exact hnew (lines_subset_of_cull hc c.bpoly_mem_lines)
      rcases hlam.cases _ hline _ (hcullF c hc) hne with hdis | hin | hout
      · exact .inl ⟨hdis, hexact.disjoint _ hline _ (hcullF c hc) hdis,
          hexact.disjoint _ (hcullF c hc) _ hline hdis.symm⟩
      · exact .inr (.inl ⟨hin, hexact.inside _ hline _ (hcullF c hc) hin,
          hexact.around _ (hcullF c hc) _ hline hin⟩)
      · exact .inr (.inr ⟨hout, hexact.around _ hline _ (hcullF c hc) hout,
          hexact.inside _ (hcullF c hc) _ hline hout⟩)
    have hinc : polyCut pRp cutPoly a line = polyInc pRp cutPoly a line := by
      have hrel := hexact.around _ (hF _ a.bpoly_mem_lines) _ hline hsub
      rw [polyCut]
      simp [hrel]
    have hleaf : Nested region (mk line none 0) := by
      constructor <;> simp [Area.culls]
    rw [hinc]
    cases hclear : a.clear pRp line with
    | true =>
      have hdis : ∀ c ∈ a.culls.getD [], Disjoint (region c.bpoly) (region line) := by
        intro c hc
        have hzero : pRp line c.bpoly = 0 := by
          simpa using List.all_eq_true.mp hclear c hc
        rcases hcases c hc with ⟨hdis, -⟩ | ⟨-, hone, -⟩ | ⟨-, htwo, -⟩
        · exact hdis.symm
        · omega
        · omega
      refine ⟨_, polyInc_clear hclear, by simp, nested_withCulls ?_ ?_ ?_, ?_⟩
      · intro c hc
        rcases List.mem_append.mp hc with hc | hc
        · exact inner c hc
        · rw [List.mem_singleton.mp hc]
          exact hsub
      · refine List.pairwise_append.mpr ⟨apart, by simp, fun c hc d hd => ?_⟩
        rw [List.mem_singleton.mp hd]
        exact hdis c hc
      · intro c hc
        rcases List.mem_append.mp hc with hc | hc
        · exact culls c hc
        · rw [List.mem_singleton.mp hc]
          exact hleaf
      · have hone : [mk line none 0].flatMap lines = [line] := by simp [lines]
        rw [withCulls_lines, lines_eq a, List.flatMap_append, hone]
        exact ((List.perm_append_singleton line _).cons a.bpoly).trans (.swap line a.bpoly _)
    | false =>
      have hcs : (a.getCulls pRp line).getD [] =
          (a.culls.getD []).filter fun c => pRp c.bpoly line = 1 := by
        unfold getCulls
        cases a.culls <;> rfl
      by_cases hnil : (a.getCulls pRp line).getD [] = []
      · -- The line is inside one of the areas.
        have hnone : ∀ c ∈ a.culls.getD [], ¬ pRp c.bpoly line = 1 := by
          intro c hc hone
          rw [hcs, List.filter_eq_nil_iff] at hnil
          exact hnil c hc (decide_eq_true hone)
        obtain ⟨c, hc, hnonzero⟩ : ∃ c ∈ a.culls.getD [], pRp line c.bpoly ≠ 0 := by
          simpa [clear] using hclear
        have hfound : ((a.culls.getD []).find? fun c => pRp line c.bpoly = 1).isSome := by
          rw [List.find?_isSome]
          refine ⟨c, hc, decide_eq_true ?_⟩
          rcases hcases c hc with ⟨-, hzero, -⟩ | ⟨-, hone, -⟩ | ⟨-, -, hone⟩
          · exact absurd hzero hnonzero
          · exact hone
          · exact absurd hone (hnone c hc)
        obtain ⟨ar, har⟩ := Option.isSome_iff_exists.mp hfound
        obtain ⟨hone, pre, post, hculls, hpre⟩ := List.find?_eq_some_iff_append.mp har
        have hone' : pRp line ar.bpoly = 1 := of_decide_eq_true hone
        have hmem : ar ∈ a.culls.getD [] := by
          rw [hculls]
          simp
        have hin : region line ⊂ region ar.bpoly := by
          rcases hcases ar hmem with ⟨-, hzero, -⟩ | ⟨hin, -⟩ | ⟨-, htwo, -⟩
          · omega
          · exact hin
          · omega
        obtain ⟨ar', hcut, hins⟩ := ih ar hmem (fun x hx => hF x (lines_subset_of_cull hmem hx))
          (fun hx => hnew (lines_subset_of_cull hmem hx)) hin
        refine ⟨a.withCulls (pre ++ ar' :: post), ?_, by simp, nested_withCulls ?_ ?_ ?_, ?_⟩
        · rw [polyInc_into hclear hnil hculls (fun c hc => by simpa using hpre c hc) hone', hcut]
          rfl
        all_goals rw [hculls] at inner apart culls
        · intro c hc
          rcases List.mem_append.mp hc with hc | hc
          · exact inner c (by simp [hc])
          · rcases List.mem_cons.mp hc with rfl | hc
            · rw [hins.bpoly]
              exact inner ar (by simp)
            · exact inner c (by simp [hc])
        · simpa only [List.pairwise_append, List.pairwise_cons, List.mem_cons, forall_eq_or_imp,
            hins.bpoly] using apart
        · intro c hc
          rcases List.mem_append.mp hc with hc | hc
          · exact culls c (by simp [hc])
          · rcases List.mem_cons.mp hc with rfl | hc
            · exact hins.nested
            · exact culls c (by simp [hc])
        · rw [withCulls_lines, lines_eq a, hculls, List.flatMap_append, List.flatMap_append,
            List.flatMap_cons, List.flatMap_cons]
          have hmiddle : (pre.flatMap lines ++ (ar'.lines ++ post.flatMap lines)).Perm
              (line :: (pre.flatMap lines ++ (ar.lines ++ post.flatMap lines))) :=
            ((hins.lines.append_right _).append_left _).trans List.perm_middle
          exact (hmiddle.cons a.bpoly).trans (.swap line a.bpoly _)
      · -- The line goes round some of the areas.
        have hround : ∀ c ∈ (a.culls.getD []).filter (fun c => pRp c.bpoly line = 1),
            c ∈ a.culls.getD [] ∧ region c.bpoly ⊂ region line := by
          intro c hc
          obtain ⟨hc, hone⟩ := List.mem_filter.mp hc
          have hone' := of_decide_eq_true hone
          rcases hcases c hc with ⟨-, -, hzero⟩ | ⟨-, -, htwo⟩ | ⟨hout, -⟩
          · omega
          · omega
          · exact ⟨hc, hout⟩
        obtain ⟨c, hcround⟩ := List.exists_mem_of_ne_nil _ (hcs ▸ hnil)
        have hother : ∀ d ∈ (a.culls.getD []).filter (fun c => pRp c.bpoly line ≠ 1),
            d ∈ a.culls.getD [] ∧ Disjoint (region d.bpoly) (region line) := by
          intro d hd
          obtain ⟨hd, hne⟩ := List.mem_filter.mp hd
          have hne' := of_decide_eq_true hne
          refine ⟨hd, ?_⟩
          rcases hcases d hd with ⟨hdis, -⟩ | ⟨hin, -⟩ | ⟨-, -, hone⟩
          · exact hdis.symm
          · exfalso
            obtain ⟨hc, hcline⟩ := hround c hcround
            have hcd : c ≠ d := by
              rintro rfl
              exact (hcline.trans hin).ne rfl
            have hdis := disjoint_of_apart apart hc hd hcd
            obtain ⟨v, hv⟩ := hlam.nonempty _ (hcullF c hc)
            exact Set.disjoint_left.mp hdis hv (hin.subset (hcline.subset hv))
          · exact absurd hone hne'
        have hnested : Nested region (mk line (some ((a.culls.getD []).filter fun c =>
            pRp c.bpoly line = 1)) 0) := by
          constructor
          · exact fun c hc => (hround c hc).2
          · exact apart.sublist List.filter_sublist
          · exact fun c hc => culls c (hround c hc).1
        refine ⟨_, polyInc_round hclear hnil, by simp, nested_withCulls ?_ ?_ ?_, ?_⟩
        all_goals rw [hcs]
        · intro c hc
          rcases List.mem_append.mp hc with hc | hc
          · exact inner c (hother c hc).1
          · rw [List.mem_singleton.mp hc]
            exact hsub
        · refine List.pairwise_append.mpr ⟨apart.sublist List.filter_sublist, by simp, ?_⟩
          intro d hd e he
          rw [List.mem_singleton.mp he]
          exact (hother d hd).2
        · intro c hc
          rcases List.mem_append.mp hc with hc | hc
          · exact culls c (hother c hc).1
          · rw [List.mem_singleton.mp hc]
            exact hnested
        · have hlines : [mk line (some ((a.culls.getD []).filter fun c => pRp c.bpoly line = 1))
              0].flatMap lines = line :: ((a.culls.getD []).filter fun c =>
                pRp c.bpoly line = 1).flatMap lines := by
            rw [List.flatMap_singleton, lines_eq]
            rfl
          have hparts : (((a.culls.getD []).filter fun c => pRp c.bpoly line ≠ 1) ++
              (a.culls.getD []).filter fun c => pRp c.bpoly line = 1).Perm (a.culls.getD []) := by
            have hperm := List.filter_append_perm (fun c => pRp c.bpoly line = 1) (a.culls.getD [])
            refine (List.perm_append_comm).trans ?_
            simpa using hperm
          rw [withCulls_lines, lines_eq a, List.flatMap_append, hlines]
          refine List.Perm.trans (List.Perm.cons a.bpoly ?_) (.swap line a.bpoly _)
          refine List.perm_middle.trans (List.Perm.cons line ?_)
          rw [← List.flatMap_append]
          exact hparts.flatMap_right lines

end Insert

section Forest

variable {region : L → Set P} {pRp : L → L → ℤ} {cutPoly : L → L → Except Stop (List L)}
  {insidePolygon : L → P → Bool} {a : Area L} {F : Set L} {p x : L}

lemma Parent.mem (h : Parent a p x) : p ∈ a.lines ∧ x ∈ a.lines := by
  induction h with
  | here hc => exact ⟨bpoly_mem_lines _, lines_subset_of_cull hc (bpoly_mem_lines _)⟩
  | inside hc _ ih => exact ⟨lines_subset_of_cull hc ih.1, lines_subset_of_cull hc ih.2⟩

/-- `p` is the smallest of the lines round `x`. -/
def SmallestAround (region : L → Set P) (ls : List L) (p x : L) : Prop :=
  p ∈ ls ∧ x ∈ ls ∧ region x ⊂ region p ∧
    ∀ y ∈ ls, region x ⊂ region y → y = p ∨ region p ⊂ region y

/-- A line round a line of one of the areas is in that area too, or it is the outermost one. -/
lemma Nested.around_cases (hlam : Laminar region F) (h : Nested region a)
    (hF : ∀ x ∈ a.lines, x ∈ F) {c : Area L} (hc : c ∈ a.culls.getD []) (hx : x ∈ c.lines) {y : L}
    (hy : y ∈ a.lines) (hxy : region x ⊂ region y) : y = a.bpoly ∨ y ∈ c.lines := by
  cases h with
  | intro inner apart culls =>
    rcases mem_lines.mp hy with hya | ⟨d, hd, hyd⟩
    · exact .inl hya
    · by_cases hcd : c = d
      · rw [hcd]
        exact .inr hyd
      · have hdis := disjoint_of_apart apart hc hd hcd
        obtain ⟨v, hv⟩ := hlam.nonempty x (hF x (lines_subset_of_cull hc hx))
        exact absurd ((culls d hd).subset hyd (hxy.subset hv))
          (Set.disjoint_left.mp hdis ((culls c hc).subset hx hv))

/-- Each area is cut out of the smallest area round it. -/
theorem Nested.parent_iff (hlam : Laminar region F) (h : Nested region a)
    (hF : ∀ x ∈ a.lines, x ∈ F) : Parent a p x ↔ SmallestAround region a.lines p x := by
  constructor
  · intro hparent
    refine ⟨hparent.mem.1, hparent.mem.2, ?_⟩
    induction hparent with
    | @here a c hc =>
      cases h with
      | intro inner apart culls =>
        refine ⟨inner c hc, fun y hy hxy => ?_⟩
        have h' : Nested region a := ⟨inner, apart, culls⟩
        rcases h'.around_cases hlam hF hc c.bpoly_mem_lines hy hxy with hya | hyc
        · exact .inl hya
        · exact absurd ((culls c hc).subset hyc) hxy.2
    | @inside a c p x hc hparent ih =>
      have h' := h
      cases h with
      | intro inner apart culls =>
        have hFc : ∀ x ∈ c.lines, x ∈ F := fun x hx => hF x (lines_subset_of_cull hc hx)
        obtain ⟨hsub, hsmall⟩ := ih (culls c hc) hFc
        refine ⟨hsub, fun y hy hxy => ?_⟩
        rcases h'.around_cases hlam hF hc hparent.mem.2 hy hxy with rfl | hyc
        · exact .inr (((culls c hc).subset hparent.mem.1).trans_ssubset (inner c hc))
        · exact hsmall y hyc hxy
  · rintro ⟨hp, hx, hsub, hsmall⟩
    induction h with
    | @intro a inner apart culls ih =>
      have h' : Nested region a := ⟨inner, apart, culls⟩
      rcases mem_lines.mp hx with rfl | ⟨c, hc, hxc⟩
      · exact absurd (h'.subset hp) hsub.2
      · have hFc : ∀ x ∈ c.lines, x ∈ F := fun x hx => hF x (lines_subset_of_cull hc hx)
        rcases h'.around_cases hlam hF hc hxc hp hsub with rfl | hpc
        · rcases (culls c hc).ssubset hxc with rfl | hxsub
          · exact .here hc
          · -- The area `c` would be smaller than `p`.
            rcases hsmall c.bpoly (lines_subset_of_cull hc c.bpoly_mem_lines) hxsub with heq | hlt
            · exact absurd (heq ▸ inner c hc) (ssubset_irrefl _)
            · exact absurd (hlt.trans (inner c hc)) (ssubset_irrefl _)
        · refine .inside hc (ih c hc hFc hpc hxc ?_)
          exact fun y hy hxy => hsmall y (lines_subset_of_cull hc hy) hxy

/-- Two lines with one smallest line round them are apart. -/
lemma SmallestAround.disjoint (hlam : Laminar region F) {ls : List L} (hF : ∀ x ∈ ls, x ∈ F) {y : L}
    (hx : SmallestAround region ls p x) (hy : SmallestAround region ls p y) (hxy : x ≠ y) :
    Disjoint (region x) (region y) := by
  have hnot : ∀ {x y : L}, SmallestAround region ls p x → SmallestAround region ls p y →
      ¬ region x ⊂ region y := by
    intro x y hx hy hsub
    rcases hx.2.2.2 y hy.2.1 hsub with rfl | hlt
    · exact ssubset_irrefl _ hy.2.2.1
    · exact ssubset_irrefl _ (hlt.trans hy.2.2.1)
  rcases hlam.cases x (hF x hx.2.1) y (hF y hy.2.1) hxy with hdis | hin | hout
  · exact hdis
  · exact absurd hin (hnot hx hy)
  · exact absurd hout (hnot hy hx)

/-- `m` is the smallest of the lines round the point. -/
def Innermost (region : L → Set P) (ls : List L) (v : P) (m : L) : Prop :=
  m ∈ ls ∧ v ∈ region m ∧ ∀ y ∈ ls, v ∈ region y → y = m ∨ region m ⊂ region y

lemma getArea_outside (hexact : ExactTests region pRp insidePolygon F) (ha : a.bpoly ∈ F) {v : P}
    (hv : v ∉ region a.bpoly) : a.getArea insidePolygon v = none := by
  have houtside : insidePolygon a.bpoly v = false := by
    rw [← Bool.not_eq_true, hexact.point _ ha]
    exact hv
  rw [getArea]
  simp [houtside]

/-- `getArea` finds the innermost area. -/
theorem Nested.getArea_innermost (hexact : ExactTests region pRp insidePolygon F)
    (h : Nested region a) (hF : ∀ x ∈ a.lines, x ∈ F) {v : P} (hv : v ∈ region a.bpoly) :
    ∃ b, a.getArea insidePolygon v = some b ∧ Innermost region a.lines v b.bpoly := by
  induction h with
  | @intro a inner apart culls ih =>
    have htest : insidePolygon a.bpoly v = true := (hexact.point _ (hF _ a.bpoly_mem_lines) v).mpr hv
    have hFc : ∀ c ∈ a.culls.getD [], ∀ x ∈ c.lines, x ∈ F :=
      fun c hc x hx => hF x (lines_subset_of_cull hc hx)
    have hpoint : ∀ c ∈ a.culls.getD [], insidePolygon c.bpoly v = true ↔ v ∈ region c.bpoly :=
      fun c hc => hexact.point _ (hFc c hc _ c.bpoly_mem_lines) v
    rw [getArea]
    simp only [htest, Bool.not_true, Bool.false_eq_true, if_false]
    split
    · rename_i hnil
      refine ⟨a, rfl, a.bpoly_mem_lines, hv, fun y hy hvy => ?_⟩
      rcases mem_lines.mp hy with hya | ⟨c, hc, hyc⟩
      · exact .inl hya
      · have hall := List.dropWhile_eq_nil_iff.mp hnil c hc
        have hvc := (hpoint c hc).mpr ((culls c hc).subset hyc hvy)
        simp [hvc] at hall
    · rename_i c post hcons
      have hc := mem_of_dropWhile hcons
      have hvc : v ∈ region c.bpoly := by
        have hhead := List.head_dropWhile_not (fun cull : Area L => !insidePolygon cull.bpoly v)
          (l := a.culls.getD []) (by simp [hcons])
        simp only [hcons, List.head_cons, Bool.not_eq_false'] at hhead
        exact (hpoint c hc).mp (by simpa using hhead)
      obtain ⟨b, hb, hbmem, hvb, hsmall⟩ := ih c hc (hFc c hc) hvc
      refine ⟨b, hb, lines_subset_of_cull hc hbmem, hvb, fun y hy hvy => ?_⟩
      rcases mem_lines.mp hy with rfl | ⟨d, hd, hyd⟩
      · exact .inr (((culls c hc).subset hbmem).trans_ssubset (inner c hc))
      · by_cases hcd : c = d
        · rw [← hcd] at hyd
          exact hsmall y hyd hvy
        · exact absurd ((culls d hd).subset hyd hvy)
            (Set.disjoint_left.mp (disjoint_of_apart apart hc hd hcd) hvc)

/-- The tree is the family of lines, ordered by inclusion. -/
structure IsForest (region : L → Set P) (insidePolygon : L → P → Bool) (root : L) (family : List L)
    (tree : Area L) : Prop where
  lines : tree.lines.Perm (root :: family)
  parent : ∀ p x, Parent tree p x ↔ SmallestAround region (root :: family) p x
  siblings : ∀ p x y, Parent tree p x → Parent tree p y → x ≠ y → Disjoint (region x) (region y)
  innermost : ∀ v ∈ region root, ∃ b, getAreaOf insidePolygon [tree] v = some b ∧
    Innermost region (root :: family) v b.bpoly
  outside : ∀ v, v ∉ region root → getAreaOf insidePolygon [tree] v = none

lemma smallestAround_congr {ls ls' : List L} (h : ∀ x, x ∈ ls ↔ x ∈ ls') :
    SmallestAround region ls p x ↔ SmallestAround region ls' p x := by
  simp only [SmallestAround, h]

/-- Closed lines that do not meet give the same forest in every order. -/
theorem lineCut_forest {root : L} {family : List L} (type : ℤ)
    (hlam : Laminar region {x | x ∈ root :: family})
    (hexact : ExactTests region pRp insidePolygon {x | x ∈ root :: family})
    (hinside : ∀ x ∈ family, region x ⊂ region root) (hnodup : family.Nodup) :
    ∀ order : List L, order.Perm family → ∃ tree,
      order.foldlM (lineCut pRp cutPoly) [mk root none type] = .ok [tree] ∧
        IsForest region insidePolygon root family tree := by
  intro order horder
  have hrun : ∀ rest done : List L, (done ++ rest).Perm family → ∀ a : Area L, a.bpoly = root →
      Nested region a → a.lines.Perm (root :: done) → ∃ tree,
        rest.foldlM (lineCut pRp cutPoly) [a] = .ok [tree] ∧ tree.bpoly = root ∧
          Nested region tree ∧ tree.lines.Perm (root :: (done ++ rest)) := by
    intro rest
    induction rest with
    | nil =>
      intro done _ a hroot hnested hlines
      exact ⟨a, rfl, hroot, hnested, by simpa using hlines⟩
    | cons line rest ih =>
      intro done hperm a hroot hnested hlines
      have hfamily : ∀ x ∈ done ++ line :: rest, x ∈ family := fun x hx => hperm.mem_iff.mp hx
      have hF : ∀ x ∈ a.lines, x ∈ {x | x ∈ root :: family} := by
        intro x hx
        rcases List.mem_cons.mp (hlines.mem_iff.mp hx) with rfl | hx
        · simp
        · exact List.mem_cons_of_mem _ (hfamily x (by simp [hx]))
      have hline : line ∈ family := hfamily line (by simp)
      have hnew : line ∉ a.lines := by
        intro hmem
        rcases List.mem_cons.mp (hlines.mem_iff.mp hmem) with rfl | hmem
        · exact ssubset_irrefl _ (hinside line hline)
        · have hd := hperm.nodup_iff.mpr hnodup
          exact (List.nodup_append.mp hd).2.2 line hmem line (by simp) rfl
      obtain ⟨a', hcut, hins⟩ := polyCut_inserted cutPoly hexact hlam hnested hF
        (List.mem_cons_of_mem _ hline) hnew (by rw [hroot]; exact hinside line hline)
      have hstep : lineCut pRp cutPoly [a] line = .ok [a'] := by
        simp only [lineCut, List.foldlM_cons, List.foldlM_nil, hcut, ok_bind]
        rfl
      obtain ⟨tree, htree⟩ := ih (done ++ [line]) (by simpa using hperm) a'
        (hins.bpoly.trans hroot) hins.nested (by
          refine (hins.lines.trans (hlines.cons line)).trans ?_
          exact (List.Perm.swap root line done).trans
            ((List.perm_append_singleton line done).symm.cons root))
      refine ⟨tree, ?_, by simpa using htree.2⟩
      rw [List.foldlM_cons, hstep, ok_bind]
      exact htree.1
  obtain ⟨tree, hcut, hroot, hnested, hlines⟩ := hrun order [] horder (mk root none type) rfl
    (by constructor <;> simp [Area.culls]) (by simp [Area.lines])
  have hlines' : tree.lines.Perm (root :: family) := hlines.trans (horder.cons root)
  have hmem : ∀ x, x ∈ tree.lines ↔ x ∈ root :: family := fun x => hlines'.mem_iff
  have hF : ∀ x ∈ tree.lines, x ∈ {x | x ∈ root :: family} := fun x hx => (hmem x).mp hx
  have hparent : ∀ p x, Parent tree p x ↔ SmallestAround region (root :: family) p x :=
    fun p x => (hnested.parent_iff hlam hF).trans (smallestAround_congr hmem)
  refine ⟨tree, hcut, hlines', hparent, fun p x y hx hy hxy => ?_, fun v hv => ?_, fun v hv => ?_⟩
  · exact ((hparent p x).mp hx).disjoint hlam (fun x hx => hx) ((hparent p y).mp hy) hxy
  · obtain ⟨b, hb, hin⟩ := hnested.getArea_innermost hexact hF (by rw [hroot]; exact hv)
    refine ⟨b, by simp [getAreaOf, hb], ?_⟩
    simpa only [Innermost, hmem] using hin
  · have hnone := getArea_outside (a := tree) hexact (hF _ tree.bpoly_mem_lines) (by rwa [hroot])
    simp [getAreaOf, hnone]

end Forest

/-! Finite sets in place of lines. -/

/-- The exact relation of finite sets. -/
def setRelation (a b : Finset ℕ) : ℤ :=
  if a ⊂ b then 1 else if b ⊂ a then 2 else if Disjoint a b then 0 else -1

/-- The set round two others comes last. -/
theorem lineCut_forest_sets : ∃ tree,
    [{0}, {2}, {0, 1, 2}].foldlM (lineCut setRelation fun _ _ => .ok []) [mk {0, 1, 2, 3} none 1] =
      .ok [tree] ∧
    IsForest (fun a : Finset ℕ => (a : Set ℕ)) (fun a v => decide (v ∈ a)) {0, 1, 2, 3}
      [{0, 1, 2}, {0}, {2}] tree := by
  let family : List (Finset ℕ) := [{0, 1, 2, 3}, {0, 1, 2}, {0}, {2}]
  have hcases : ∀ a ∈ family, ∀ b ∈ family, a ≠ b → Disjoint a b ∨ a ⊂ b ∨ b ⊂ a := by decide
  have hnonempty : ∀ a ∈ family, a.Nonempty := by decide
  have hdisjoint : ∀ a ∈ family, ∀ b ∈ family, Disjoint a b → setRelation a b = 0 := by decide
  refine lineCut_forest 1 ⟨fun a ha => ?_, fun a ha b hb hab => ?_⟩ ⟨?_, ?_, ?_, ?_⟩ ?_ (by decide)
    _ (by decide)
  · exact Finset.coe_nonempty.mpr (hnonempty a ha)
  · simpa only [Finset.disjoint_coe, Finset.coe_ssubset] using hcases a ha b hb hab
  · intro a ha b hb hdis
    exact hdisjoint a ha b hb (Finset.disjoint_coe.mp hdis)
  · intro a _ b _ hsub
    exact if_pos (Finset.coe_ssubset.mp hsub)
  · intro a _ b _ hsub
    have hsub' := Finset.coe_ssubset.mp hsub
    exact (if_neg fun h => ssubset_irrefl _ (h.trans hsub')).trans (if_pos hsub')
  · intro a _ v
    simp
  · intro a ha
    simp only [List.mem_cons, List.not_mem_nil, or_false] at ha
    rw [Finset.coe_ssubset]
    rcases ha with rfl | rfl | rfl <;> decide

end Area

end MTalk.Triangle
