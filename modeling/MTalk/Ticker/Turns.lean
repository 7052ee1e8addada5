import MTalk.Ticker.Flow
import MTalk.Ticker.Hosts

/-!
# The turns of the filters in a running host

What the ticks of a host do that any run of proper actions has led to.
-/

namespace MTalk.Ticker

variable {F T M D : Type} {desc : F → MSFilterDesc} [DecidableEq F] [DecidableEq T]

/-- The second filter is the first one or gets messages from it over others. -/
def Wiring.Feeds (g : Wiring desc) : F → F → Prop :=
  Relation.ReflTransGen fun p f => p ∈ g.feeders f

/-- The filter gets messages from itself over others. -/
def Wiring.OnLoop (g : Wiring desc) (f : F) : Prop :=
  Relation.TransGen (fun p f => p ∈ g.feeders f) f f

/-- A source on the ticker feeds the filter. -/
def Host.Served (h : Host desc T M D) (t : T) (f : F) : Prop :=
  ∃ source, h.ticker source = some t ∧ (desc source).ninputs = 0 ∧ h.wiring.Feeds source f

/-- All that feeds the filter is served by the ticker and is on no loop. -/
def Host.Straight (h : Host desc T M D) (t : T) (f : F) : Prop :=
  ∀ p, h.wiring.Feeds p f → h.Served t p ∧ ¬h.wiring.OnLoop p

variable {m : Methods desc M D} {h h' : Host desc T M D} {fuel : ℕ} {t : T}

omit [DecidableEq F] [DecidableEq T] in
lemma Host.Kept.served_iff (hk : h.Kept) {f : F} :
    h.Served t f ↔ GuardedSearch.Reached h.wiring.followers (h.executionList t) f := by
  unfold Host.Served GuardedSearch.Reached Wiring.Feeds
  have hrel : (fun p f => p ∈ h.wiring.feeders f) = fun p f => f ∈ h.wiring.followers p := by
    funext p f
    exact propext Wiring.mem_feeders_iff
  rw [hrel]
  refine exists_congr fun source => ?_
  rw [hk.mem t source, and_assoc]

omit [DecidableEq F] [DecidableEq T] in
lemma finite_feeds (g : Wiring desc) (f : F) : {p | g.Feeds p f}.Finite := by
  refine ((g.finite_queues.image (·.prev.filter)).insert f).subset fun p hp => ?_
  rcases Relation.ReflTransGen.cases_head hp with rfl | ⟨q, hpq, -⟩
  · exact Or.inl rfl
  · obtain ⟨l, hl, rfl⟩ := List.mem_map.mp hpq
    exact Or.inr ⟨l, ⟨_, (Wiring.mem_inputQueues_iff.mp hl).2⟩, rfl⟩

omit [DecidableEq F] [DecidableEq T] in
lemma Host.Kept.straight_iff (hk : h.Kept) {f : F} :
    h.Straight t f ↔
      GuardedSearch.Schedulable h.wiring.followers h.wiring.feeders (h.executionList t) f := by
  rw [GuardedSearch.schedulable_iff (finite_feeds h.wiring f)]
  unfold Host.Straight Wiring.OnLoop
  refine forall₂_congr fun p _ => ?_
  rw [hk.served_iff]

/-- What a tick of a reachable host does is one search. -/
lemma search_of_msTickerTick (hr : Reachable m h) (ht : h.ticks t + 1 ≠ 0)
    (htick : msTickerTick m fuel t h = .ok h') :
    ∃ first, GuardedSearch.Search h.wiring.followers h.wiring.feeders (h.executionList t) first
      h'.called := by
  obtain ⟨s, hs, htick⟩ := GuardedRuns.bind_eq_ok.mp htick
  obtain rfl := Except.ok.inj htick
  have hk := hr.kept
  exact (search_of_runGraphs (hk.closed t) (hk.on_ticker t) (hk.fresh ht) hs).2

lemma relay_puts : relay.Puts := by
  intro g f w q hq
  unfold relay
  dsimp only
  split_ifs
  · exact List.nil_suffix
  · exact List.suffix_refl _

lemma relay_ends : relay.Ends := by
  intro g f w
  have hnodata : msFilterInputsHaveData g (relay.process g f w) f = false := by
    unfold msFilterInputsHaveData relay
    rw [List.any_eq_false]
    intro q hq
    simp [hq]
  refine ⟨2, ?_⟩
  unfold callProcess
  split_ifs
  · exact ⟨_, rfl⟩
  · by_cases hdata : msFilterInputsHaveData g w f
    · exact ⟨relay.process g f w, by simp [WhileLoop.run, hdata, hnodata]⟩
    · exact ⟨w, by simp [WhileLoop.run, hdata]⟩

/-- The host with the loop after its first tick. -/
def loopTicked : Host loopDesc Unit Unit Unit :=
  ((msTickerTick relay 5 () loopHost).toOption).getD loopHost

lemma loopTicked_eq : msTickerTick relay 5 () loopHost = .ok loopTicked := rfl

lemma straight_loopHost : loopHost.Straight () 1 := by
  have hsource : GuardedSearch.Reached loopHost.wiring.followers (loopHost.executionList ()) 0 :=
    .of_mem (by decide)
  refine reachable_loopHost.kept.straight_iff.mpr (.intro (hsource.step (by decide)) ?_)
  intro p hp
  have hzero : p = 0 := by
    revert p
    decide
  subst hzero
  refine .intro hsource fun p hp => ?_
  have hnone : loopHost.wiring.feeders 0 = [] := by decide
  rw [hnone] at hp
  exact absurd hp List.not_mem_nil

example : loopTicked.called.reverse = [0, 1, 2] := by decide

omit [DecidableEq F] in
lemma Wiring.Connected.symm {g : Wiring desc} {f f' : F} (hf : g.Connected f f') :
    g.Connected f' f := by
  induction hf with
  | refl => exact .refl
  | tail _ hy ih =>
    refine .head ?_ ih
    rcases List.mem_append.mp hy with hy | hy
    · exact List.mem_append_right _ (Wiring.mem_feeders_iff.mp hy)
    · exact List.mem_append_left _ (Wiring.mem_feeders_iff.mpr hy)

omit [DecidableEq T] in
/-- There is such a component exactly if the search for it returns and finds a source. -/
lemma exists_component (hk : h.Kept) {f : F}
    (hsound : ∀ x, h.wiring.Connected f x → h.wiring.Sound x)
    (hsource : ∃ x, h.wiring.Connected f x ∧ (desc x).ninputs = 0) :
    ∃ fuel s, msFilterFindNeighbours h.wiring fuel f h.seen = .ok s ∧
      ¬(getSources desc s.filters).isEmpty := by
  obtain ⟨fuel, s, hs⟩ := exists_msFilterFindNeighbours hk.unseen hsound
  obtain ⟨-, hmem, -, -⟩ := neighbours_of_msFilterFindNeighbours hk.unseen hs
  obtain ⟨x, hx, hsrc⟩ := hsource
  refine ⟨fuel, s, hs, fun hempty => ?_⟩
  have hin := mem_getSources.mpr ⟨(hmem x).mpr hx, hsrc⟩
  rw [List.isEmpty_iff.mp hempty] at hin
  exact List.not_mem_nil hin

lemma foldl_erase_append {l ws us : List F} (hl : (l ++ ws).Nodup) (hus : ∀ x, x ∈ us ↔ x ∈ ws) :
    us.foldl List.erase (l ++ ws) = l := by
  rw [← List.diff_eq_foldl, hl.sdiff_eq_filter, List.filter_append]
  have hkeep : l.filter (· ∉ us) = l := by
    rw [List.filter_eq_self]
    intro x hx
    rw [decide_eq_true_iff, hus]
    exact fun hw => List.disjoint_of_nodup_append hl hx hw
  have hdrop : ws.filter (· ∉ us) = [] := by
    rw [List.filter_eq_nil_iff]
    intro x hx
    simpa [hus] using hx
  rw [hkeep, hdrop, List.append_nil]

end MTalk.Ticker
