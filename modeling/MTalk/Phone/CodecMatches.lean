import MTalk.Phone.CodecLists

/-!
# Entries and the payloads found for them

Which payload `find_payload` takes, and what a list of entries does to the profile: each payload is
found once, and nothing but flags changes. A list of entries regains a list of payloads if each entry
finds its payload while those before it are used.
-/

namespace MTalk.Phone

open CStrings Config

/-! Profiles that differ in flags. -/

/-- The profiles are the same but for the flags. -/
def RtpProfile.Like (prof prof' : RtpProfile) : Prop :=
  ∀ i, (prof' i).map PayloadType.unflagged = (prof i).map PayloadType.unflagged

namespace RtpProfile

variable {prof prof' : RtpProfile}

lemma Like.refl (prof : RtpProfile) : prof.Like prof := fun _ => rfl

lemma Like.symm (h : prof.Like prof') : prof'.Like prof := fun i => (h i).symm

lemma Like.trans {prof'' : RtpProfile} (h : prof.Like prof') (h' : prof'.Like prof'') :
    prof.Like prof'' := fun i => (h' i).trans (h i)

lemma like_setEnable (prof : RtpProfile) (i : ℕ) (value : Bool) :
    prof.Like (prof.setEnable i value) := by
  intro j
  by_cases hj : j = i
  · subst hj
    cases hpt : prof j <;> simp [setEnable, hpt, PayloadType.unflagged]
  · simp [setEnable, hj]

lemma Like.some {pt : PayloadType} {i : ℕ} (h : prof.Like prof') (hpt : prof i = some pt) :
    ∃ pt', prof' i = some pt' ∧ pt'.unflagged = pt.unflagged := by
  have hi := h i
  rw [hpt, Option.map_some, Option.map_eq_some_iff] at hi
  exact hi

lemma Like.any (h : prof.Like prof') (i : ℕ) {test : PayloadType → Bool}
    (htest : ∀ pt, test pt.unflagged = test pt) : (prof' i).any test = (prof i).any test := by
  have hany : ∀ p : RtpProfile, ((p i).map PayloadType.unflagged).any test = (p i).any test := by
    intro p
    cases p i with
    | none => rfl
    | some pt => exact htest pt
  rw [← hany, ← hany, h i]

lemma Like.isCandidate (h : prof.Like prof') (used : List ℕ) (mime : String) (rate : ℤ) (i : ℕ) :
    prof'.isCandidate used mime rate i = prof.isCandidate used mime rate i := by
  unfold RtpProfile.isCandidate
  rw [h.any i]
  intro pt
  rfl

/-! The payload that is found. -/

/-- The payload may be taken for an entry. -/
def Candidate (prof : RtpProfile) (used : List ℕ) (e : ConfigCodec) (i : ℕ) : Prop :=
  i < 127 ∧ i ∉ used ∧ ∃ it, prof i = some it ∧ caseEq e.mimeType it.mimeType = true
    ∧ (e.clockRate = it.clockRate ∨ e.clockRate ≤ 0)

/-- The payload has the receiving format of the entry. -/
def Exact (prof : RtpProfile) (e : ConfigCodec) (i : ℕ) : Prop :=
  ∃ it, prof i = some it ∧ sameFmtp e.recvFmtp it.recvFmtp = true

/-- Of the candidates the payload is the first with the format, or the last and none has it. -/
def Regains (prof : RtpProfile) (used : List ℕ) (e : ConfigCodec) (p : ℕ) : Prop :=
  prof.Candidate used e p ∧
    (prof.Exact e p ∧ (∀ i < p, prof.Candidate used e i → ¬ prof.Exact e i)
      ∨ ∀ i, prof.Candidate used e i → ¬ prof.Exact e i ∧ i ≤ p)

/-- Each entry regains its payload, with those before it used. -/
def RegainsAll (prof : RtpProfile) : List ℕ → List ConfigCodec → List ℕ → Prop
  | _, [], [] => True
  | used, e :: es, p :: ps => prof.Regains used e p ∧ prof.RegainsAll (used ++ [p]) es ps
  | _, _, _ => False

lemma isCandidate_iff {used : List ℕ} {e : ConfigCodec} {i : ℕ} (hi : i < 127) :
    prof.isCandidate used e.mimeType e.clockRate i = true ↔ prof.Candidate used e i := by
  unfold isCandidate Candidate
  rw [Bool.and_eq_true, Option.any_eq_true]
  simp only [hi, true_and, Bool.and_eq_true, Bool.or_eq_true, decide_eq_true_eq]
  constructor
  · exact fun ⟨h, hused⟩ => ⟨by simpa using hused, h⟩
  · exact fun ⟨hused, h⟩ => ⟨h, by simpa using hused⟩

lemma exact_iff {e : ConfigCodec} {i : ℕ} :
    ((prof i).any fun it => sameFmtp e.recvFmtp it.recvFmtp) = true ↔ prof.Exact e i := by
  rw [Option.any_eq_true]
  rfl

/-- The last number below a bound that passes a test. -/
lemma find_reverse_range_eq_some {n p : ℕ} {test : ℕ → Bool} :
    (List.range n).reverse.find? test = some p
      ↔ p < n ∧ test p = true ∧ ∀ i < n, test i = true → i ≤ p := by
  induction n with
  | zero => simp
  | succ n ih =>
    rw [List.range_succ, List.reverse_append, List.reverse_singleton, List.singleton_append]
    by_cases hn : test n = true
    · rw [List.find?_cons_of_pos hn]
      constructor
      · rintro h
        cases h
        exact ⟨by omega, hn, fun i hi _ => by omega⟩
      · rintro ⟨hp, -, hlast⟩
        have hle := hlast n (by omega) hn
        rw [show n = p by omega]
    · rw [List.find?_cons_of_neg hn, ih]
      constructor
      · rintro ⟨hp, htest, hlast⟩
        refine ⟨by omega, htest, fun i hi hi' => ?_⟩
        rcases Nat.lt_succ_iff_lt_or_eq.mp hi with hlt | rfl
        · exact hlast i hlt hi'
        · exact absurd hi' hn
      · rintro ⟨hp, htest, hlast⟩
        have hne : p ≠ n := by
          rintro rfl
          exact hn htest
        exact ⟨by omega, htest, fun i hi hi' => hlast i (by omega) hi'⟩

/-- The two tests of the search on a number below the bound. -/
lemma matches_iff {used : List ℕ} {e : ConfigCodec} {i : ℕ} (hi : i < 127) :
    (prof.isCandidate used e.mimeType e.clockRate i
        && (prof i).any fun it => sameFmtp e.recvFmtp it.recvFmtp) = true
      ↔ prof.Candidate used e i ∧ prof.Exact e i := by
  rw [Bool.and_eq_true, isCandidate_iff hi, exact_iff]

lemma findPayload_eq_some_iff {used : List ℕ} {e : ConfigCodec} {p : ℕ} :
    prof.findPayload used e = some p ↔ prof.Regains used e p := by
  unfold findPayload
  dsimp only
  rw [Option.or_eq_some_iff, List.find?_range_eq_some, List.find?_range_eq_none,
    find_reverse_range_eq_some]
  constructor
  · rintro (⟨hmatch, hp, hfirst⟩ | ⟨hnone, hp, hcandidate, hlast⟩)
    · rw [List.mem_range] at hp
      obtain ⟨hcandidate, hexact⟩ := (matches_iff hp).mp hmatch
      refine ⟨hcandidate, .inl ⟨hexact, fun i hi hc hx => ?_⟩⟩
      have h := hfirst i hi
      rw [(matches_iff (hi.trans hp)).mpr ⟨hc, hx⟩] at h
      cases h
    · refine ⟨(isCandidate_iff hp).mp hcandidate, .inr fun i hc => ⟨fun hx => ?_, ?_⟩⟩
      · have h := hnone i hc.1
        rw [(matches_iff hc.1).mpr ⟨hc, hx⟩] at h
        cases h
      · exact hlast i hc.1 ((isCandidate_iff hc.1).mpr hc)
  · rintro ⟨hcandidate, ⟨hexact, hfirst⟩ | hlast⟩
    · refine .inl ⟨(matches_iff hcandidate.1).mpr ⟨hcandidate, hexact⟩,
        List.mem_range.mpr hcandidate.1, fun i hi => ?_⟩
      rw [Bool.not_eq_true', Bool.eq_false_iff]
      intro hmatch
      obtain ⟨hc, hx⟩ := (matches_iff (hi.trans hcandidate.1)).mp hmatch
      exact hfirst i hi hc hx
    · refine .inr ⟨fun i hi => ?_, hcandidate.1, (isCandidate_iff hcandidate.1).mpr hcandidate,
        fun i hi hc => (hlast i ((isCandidate_iff hi).mp hc)).2⟩
      rw [Bool.not_eq_true', Bool.eq_false_iff]
      intro hmatch
      obtain ⟨hc, hx⟩ := (matches_iff hi).mp hmatch
      exact (hlast i hc).1 hx

lemma findPayload_eq_none_iff {used : List ℕ} {e : ConfigCodec} :
    prof.findPayload used e = none ↔ ∀ i, ¬ prof.Candidate used e i := by
  constructor
  · intro hnone i hc
    unfold findPayload at hnone
    dsimp only at hnone
    rw [Option.or_eq_none_iff, List.find?_eq_none] at hnone
    have h := List.find?_eq_none.mp hnone.2 i (List.mem_reverse.mpr (List.mem_range.mpr hc.1))
    exact h ((isCandidate_iff hc.1).mpr hc)
  · intro hall
    cases hfind : prof.findPayload used e with
    | none => rfl
    | some p => exact absurd (findPayload_eq_some_iff.mp hfind).1 (hall p)

lemma Like.candidate (h : prof.Like prof') {used : List ℕ} {e : ConfigCodec} {i : ℕ} :
    prof'.Candidate used e i ↔ prof.Candidate used e i := by
  by_cases hi : i < 127
  · rw [← isCandidate_iff hi, ← isCandidate_iff hi, h.isCandidate]
  · constructor
    · exact fun hc => absurd hc.1 hi
    · exact fun hc => absurd hc.1 hi

lemma Like.exact (h : prof.Like prof') {e : ConfigCodec} {i : ℕ} :
    prof'.Exact e i ↔ prof.Exact e i := by
  rw [← exact_iff, ← exact_iff, h.any i]
  intro pt
  rfl

lemma Like.regains (h : prof.Like prof') {used : List ℕ} {e : ConfigCodec} {p : ℕ} :
    prof'.Regains used e p ↔ prof.Regains used e p := by
  unfold Regains
  simp only [h.candidate, h.exact]

lemma Like.regainsAll (h : prof.Like prof') {used : List ℕ} {es : List ConfigCodec}
    {ps : List ℕ} : prof'.RegainsAll used es ps ↔ prof.RegainsAll used es ps := by
  induction es generalizing used ps with
  | nil => cases ps <;> rfl
  | cons e es ih =>
    cases ps with
    | nil => rfl
    | cons p ps => rw [RegainsAll, RegainsAll, h.regains, ih]

end RtpProfile

/-! A list of entries. -/

section Fix

variable {F : FilterList}

lemma codecSupported_congr {mime mime' : String} (h : caseEq mime mime' = true) :
    F.codecSupported mime = F.codecSupported mime' := by
  have hsame : ∀ s, caseEq s mime = caseEq s mime' := by
    intro s
    rw [Bool.eq_iff_iff]
    exact ⟨fun h' => caseEq_trans h' h, fun h' => caseEq_trans h' (caseEq_symm h)⟩
  unfold FilterList.codecSupported FilterList.getEncoder FilterList.getDecoder
  simp only [hsame]

/-- No payload of the profile is H264. -/
def NoH264 (prof : RtpProfile) : Prop :=
  ∀ i pt, prof i = some pt → caseEq pt.mimeType "H264" = false

lemma RtpProfile.Candidate.noH264 {prof : RtpProfile} (hprof : NoH264 prof) {used : List ℕ}
    {e : ConfigCodec} {i : ℕ} (h : prof.Candidate used e i) :
    caseEq e.mimeType "H264" = false := by
  obtain ⟨-, -, it, hit, hmime, -⟩ := h
  rw [Bool.eq_false_iff]
  intro hsame
  have hpayload := hprof i it hit
  rw [caseEq_trans (caseEq_symm hmime) hsame] at hpayload
  cases hpayload

/-- An entry gives the payload that it finds, if there is a codec for it. -/
lemma fixCodec_eq_some_iff {m : Marked} (hprof : NoH264 m.localProfile) {e : ConfigCodec} {p : ℕ} :
    fixCodec F m e = some p
      ↔ m.localProfile.Regains m.used e p ∧ F.codecSupported e.mimeType = true := by
  unfold fixCodec
  rw [Option.filter_eq_some_iff, RtpProfile.findPayload_eq_some_iff]
  constructor
  · rintro ⟨hregains, htest⟩
    rw [Bool.and_eq_true] at htest
    exact ⟨hregains, htest.1⟩
  · rintro ⟨hregains, hsupported⟩
    refine ⟨hregains, ?_⟩
    rw [hsupported, hregains.1.noH264 hprof]
    rfl

lemma fixCodec_eq_none_iff {m : Marked} (hprof : NoH264 m.localProfile) {e : ConfigCodec} :
    fixCodec F m e = none
      ↔ (F.codecSupported e.mimeType = true → ∀ i, ¬ m.localProfile.Candidate m.used e i) := by
  constructor
  · intro hnone hsupported
    rw [← RtpProfile.findPayload_eq_none_iff]
    cases hfind : m.localProfile.findPayload m.used e with
    | none => rfl
    | some p =>
      have hsome := (fixCodec_eq_some_iff (F := F) hprof).mpr
        ⟨RtpProfile.findPayload_eq_some_iff.mp hfind, hsupported⟩
      rw [hnone] at hsome
      cases hsome
  · intro h
    cases hfix : fixCodec F m e with
    | none => rfl
    | some p =>
      obtain ⟨hregains, hsupported⟩ := (fixCodec_eq_some_iff hprof).mp hfix
      exact absurd hregains.1 (h hsupported p)

lemma RtpProfile.Like.noH264 {prof prof' : RtpProfile} (h : prof.Like prof') (hprof : NoH264 prof) :
    NoH264 prof' := by
  intro i pt hpt
  obtain ⟨pt', hpt', hsame⟩ := h.symm.some hpt
  have hmime : pt'.unflagged.mimeType = pt.unflagged.mimeType := by rw [hsame]
  change pt'.mimeType = pt.mimeType at hmime
  rw [← hmime]
  exact hprof i pt' hpt'

lemma fixCodecList_append (m : Marked) (es rest : List ConfigCodec) :
    fixCodecList F m (es ++ rest)
      = ((fixCodecList F (fixCodecList F m es).1 rest).1,
        (fixCodecList F m es).2
          ++ (fixCodecList F (fixCodecList F m es).1 rest).2) := by
  induction es generalizing m with
  | nil => rfl
  | cons e es ih =>
    rw [List.cons_append, fixCodecList, fixCodecList]
    cases fixCodec F m e with
    | none => exact ih m
    | some p =>
      dsimp only
      rw [ih]
      rfl

/-- What a list of entries does: the payloads it gives are new and used afterwards, and only their
flags change. -/
structure ListFollows (m : Marked) (ps : List ℕ) (m' : Marked) : Prop where
  used : m'.used = m.used ++ ps
  nodup : m.used.Nodup → m'.used.Nodup
  below : ∀ p ∈ ps, p < 127
  like : m.localProfile.Like m'.localProfile
  kept : ∀ i ∈ m.used, m'.localProfile i = m.localProfile i

lemma follows_fixCodecList {m : Marked} (hprof : NoH264 m.localProfile) (es : List ConfigCodec) :
    ListFollows m (fixCodecList F m es).2 (fixCodecList F m es).1 := by
  induction es generalizing m with
  | nil => exact ⟨(List.append_nil _).symm, id, by simp [fixCodecList], .refl _, fun _ _ => rfl⟩
  | cons e es ih =>
    rw [fixCodecList]
    cases hfix : fixCodec F m e with
    | none => exact ih hprof
    | some p =>
      have hlike := m.localProfile.like_setEnable p e.enabled
      have hrest := ih (m := m.mark p e.enabled) (hlike.noH264 hprof)
      obtain ⟨⟨hbelow, hnew, -⟩, -⟩ := ((fixCodec_eq_some_iff hprof).mp hfix).1
      refine ⟨?_, ?_, ?_, hlike.trans hrest.like, ?_⟩
      · rw [hrest.used, Marked.mark, List.append_assoc]
        rfl
      · intro hnodup
        apply hrest.nodup
        rw [Marked.mark, List.nodup_append]
        simp only [List.mem_singleton]
        exact ⟨hnodup, List.nodup_singleton p, fun i hi j hj hsame => hnew (hj ▸ hsame ▸ hi)⟩
      · intro i hi
        rcases List.mem_cons.mp hi with rfl | hmem
        · exact hbelow
        · exact hrest.below i hmem
      · intro i hi
        have hne : i ≠ p := by
          rintro rfl
          exact hnew hi
        rw [hrest.kept i (List.mem_append_left _ hi)]
        simp [Marked.mark, RtpProfile.setEnable, hne]

/-- Entries that regain their payloads give just those, with their own flags. -/
lemma fixCodecList_of_regainsAll {m : Marked} (hprof : NoH264 m.localProfile)
    {es : List ConfigCodec} {ps : List ℕ} (h : m.localProfile.RegainsAll m.used es ps)
    (hsupported : ∀ e ∈ es, F.codecSupported e.mimeType = true) :
    (fixCodecList F m es).2 = ps
      ∧ List.Forall₂ (fun e p =>
          ((fixCodecList F m es).1.localProfile p).map PayloadType.enabled
            = some e.enabled) es ps := by
  induction es generalizing m ps with
  | nil =>
    cases ps with
    | nil => exact ⟨rfl, .nil⟩
    | cons p ps => exact absurd h id
  | cons e es ih =>
    cases ps with
    | nil => exact absurd h id
    | cons p ps =>
      obtain ⟨hregains, hall⟩ := h
      have hfix := (fixCodec_eq_some_iff (F := F) hprof).mpr
        ⟨hregains, hsupported e List.mem_cons_self⟩
      have hlike := m.localProfile.like_setEnable p e.enabled
      obtain ⟨hlist, hflags⟩ := ih (m := m.mark p e.enabled) (hlike.noH264 hprof)
        (hlike.regainsAll.mpr hall) fun e' he' => hsupported e' (List.mem_cons_of_mem e he')
      have hrest := follows_fixCodecList (F := F) (m := m.mark p e.enabled)
        (hlike.noH264 hprof) es
      rw [fixCodecList, hfix]
      dsimp only
      refine ⟨by rw [hlist], .cons ?_ hflags⟩
      obtain ⟨-, -, pt, hpt, -⟩ := hregains.1
      rw [hrest.kept p (by simp [Marked.mark])]
      simp [Marked.mark, RtpProfile.setEnable, hpt]

/-- Entries without candidates give nothing. -/
lemma fixCodecList_eq_nil_iff {m : Marked} (hprof : NoH264 m.localProfile)
    {es : List ConfigCodec} :
    (fixCodecList F m es).2 = []
      ↔ ∀ e ∈ es, F.codecSupported e.mimeType = true →
        ∀ i, ¬ m.localProfile.Candidate m.used e i := by
  induction es with
  | nil => simp [fixCodecList]
  | cons e es ih =>
    rw [List.forall_mem_cons, ← fixCodec_eq_none_iff hprof, ← ih, fixCodecList]
    cases fixCodec F m e with
    | none => simp
    | some p => simp

lemma fixCodecList_of_nil {m : Marked} {es : List ConfigCodec}
    (h : (fixCodecList F m es).2 = []) : (fixCodecList F m es).1 = m := by
  induction es with
  | nil => rfl
  | cons e es ih =>
    rw [fixCodecList] at h ⊢
    cases hfix : fixCodec F m e with
    | none =>
      rw [hfix] at h
      exact ih h
    | some p =>
      rw [hfix] at h
      cases h

/-- An entry that fits a payload if that is not used. -/
def FitsEntry (F : FilterList) (prof : RtpProfile) (e : ConfigCodec) (p : ℕ) : Prop :=
  F.codecSupported e.mimeType = true ∧ ∀ used, p ∉ used → prof.Candidate used e p

lemma RtpProfile.Like.fits {prof prof' : RtpProfile} (h : prof.Like prof') {e : ConfigCodec}
    {p : ℕ} (hfits : FitsEntry F prof e p) : FitsEntry F prof' e p :=
  ⟨hfits.1, fun used hp => h.candidate.mpr (hfits.2 used hp)⟩

/-- Entries that give the payloads they fit regain them. -/
lemma regainsAll_of_fixCodecList {prof : RtpProfile} (hprof : NoH264 prof) {m : Marked}
    (hlike : prof.Like m.localProfile) {es rest : List ConfigCodec} {ps more : List ℕ}
    (hfits : List.Forall₂ (FitsEntry F prof) es ps) (hnodup : (m.used ++ ps).Nodup)
    (h : (fixCodecList F m (es ++ rest)).2 = ps ++ more) :
    prof.RegainsAll m.used es ps := by
  induction hfits generalizing m with
  | nil => trivial
  | @cons e p es ps hfit _ ih =>
    have hp : p ∉ m.used := by
      intro hmem
      exact (List.nodup_append.mp hnodup).2.2 p hmem p List.mem_cons_self rfl
    rw [List.cons_append, fixCodecList] at h
    cases hfix : fixCodec F m e with
    | none =>
      have hnone := (fixCodec_eq_none_iff (hlike.noH264 hprof)).mp hfix hfit.1 p
      exact absurd (hlike.candidate.mpr (hfit.2 m.used hp)) hnone
    | some q =>
      rw [hfix] at h
      dsimp only at h
      rw [List.cons_append, List.cons.injEq] at h
      obtain ⟨rfl, h⟩ := h
      have hregains := ((fixCodec_eq_some_iff (hlike.noH264 hprof)).mp hfix).1
      refine ⟨hlike.regains.mp hregains, ?_⟩
      apply ih (m := m.mark q e.enabled) (hlike.trans (m.localProfile.like_setEnable q e.enabled))
      · rw [Marked.mark, List.append_assoc]
        exact hnodup
      · exact h

/-- While a payload is not used each entry of its class gives a payload of the class. -/
lemma countP_fixCodecList {m : Marked} (hprof : NoH264 m.localProfile) {l : List ConfigCodec}
    {p : ℕ} {class₁ : ConfigCodec → Bool} {class₂ : ℕ → Bool}
    (hclass : ∀ e, class₁ e = true → FitsEntry F m.localProfile e p)
    (hsame : ∀ e used i, class₁ e = true → m.localProfile.Candidate used e i → class₂ i = true)
    (hp : p ∉ m.used ++ (fixCodecList F m l).2) :
    l.countP class₁ ≤ (fixCodecList F m l).2.countP class₂ := by
  induction l generalizing m with
  | nil => exact Nat.zero_le _
  | cons e l ih =>
    rw [List.countP_cons]
    rw [fixCodecList] at hp ⊢
    cases hfix : fixCodec F m e with
    | none =>
      rw [hfix] at hp
      have hout : class₁ e = false := by
        rw [Bool.eq_false_iff]
        intro he
        have hnone := (fixCodec_eq_none_iff hprof).mp hfix (hclass e he).1 p
        exact hnone ((hclass e he).2 m.used fun hmem => hp (List.mem_append_left _ hmem))
      simp only [hout, Bool.false_eq_true, if_false, Nat.add_zero]
      exact ih hprof hclass hsame hp
    | some q =>
      rw [hfix] at hp
      dsimp only at hp ⊢
      have hlike := m.localProfile.like_setEnable q e.enabled
      have hrest := ih (m := m.mark q e.enabled) (hlike.noH264 hprof)
        (fun e he => hlike.fits (hclass e he))
        (fun e used i he hc => hsame e used i he (hlike.candidate.mp hc))
        (by
          rw [Marked.mark, List.append_assoc]
          exact hp)
      rw [List.countP_cons]
      have hq : class₁ e = true → class₂ q = true := by
        intro he
        exact hsame e m.used q he ((fixCodec_eq_some_iff hprof).mp hfix).1.1
      by_cases he : class₁ e = true
      · rw [if_pos he, if_pos (hq he)]
        omega
      · rw [if_neg he]
        omega

end Fix

end MTalk.Phone
