import MTalk.Phone.CodecMatches
import MTalk.Phone.CodecSaves

/-!
# The codec lists across a restart

The lists come back exactly when each entry finds its own payload: the receiving format of an audio
codec is not saved, and the channels of none, so payloads of one type and rate are told apart by
their order only.
-/

namespace MTalk.Phone

open CStrings Config LpConfig

/-! The payloads that are added. -/

section Add

variable {F : FilterList}

/-- Both lists. -/
def LocalSetup.listed (s : LocalSetup) : List ℕ := s.audiopt ++ s.videopt

lemma mem_placed {onTop : Prop} [Decidable onTop] {i j : ℕ} {l : List ℕ} :
    (j ∈ if onTop then i :: l else l ++ [i]) ↔ j = i ∨ j ∈ l := by
  split_ifs
  · exact List.mem_cons
  · rw [List.mem_append, List.mem_singleton, or_comm]

/-- A round leaves everything, or it marks a payload with a codec and may add it to a list. -/
lemma addRemaining_cases (s : LocalSetup) (i : ℕ) :
    addRemaining F s i = s ∨ ∃ pt, s.localProfile i = some pt ∧ i ∉ s.used
      ∧ F.codecSupported pt.mimeType = true
      ∧ (addRemaining F s i).toMarked = s.toMarked.mark i true
      ∧ ((addRemaining F s i).audiopt = s.audiopt ∧ (addRemaining F s i).videopt = s.videopt
        ∨ pt.kind ≠ .other
          ∧ ∀ j, j ∈ (addRemaining F s i).listed ↔ j = i ∨ j ∈ s.listed) := by
  unfold addRemaining
  cases hpt : s.localProfile i with
  | none => exact .inl rfl
  | some pt =>
    dsimp only
    by_cases hused : i ∈ s.used
    · rw [if_pos hused]
      exact .inl rfl
    · rw [if_neg hused]
      by_cases hsupported : F.codecSupported pt.mimeType = true
      · rw [if_pos hsupported]
        refine .inr ⟨pt, rfl, hused, hsupported, ?_⟩
        split
        · exact ⟨rfl, .inl ⟨rfl, rfl⟩⟩
        · cases hkind : pt.kind with
          | audioContinuous =>
            refine ⟨rfl, .inr ⟨by simp, fun j => ?_⟩⟩
            simp only [LocalSetup.listed, List.mem_append, mem_placed]
            tauto
          | audioPacketized =>
            refine ⟨rfl, .inr ⟨by simp, fun j => ?_⟩⟩
            simp only [LocalSetup.listed, List.mem_append, mem_placed]
            tauto
          | video =>
            refine ⟨rfl, .inr ⟨by simp, fun j => ?_⟩⟩
            simp only [LocalSetup.listed, List.mem_append, mem_placed]
            tauto
          | other => exact ⟨rfl, .inl ⟨rfl, rfl⟩⟩
      · rw [if_neg hsupported]
        exact .inl rfl

/-- What rounds do: used payloads are left alone, the lists stay as they are or get a payload that
was not used, and all they get are payloads with a codec. -/
structure Added (F : FilterList) (s s' : LocalSetup) : Prop where
  used : ∀ i ∈ s.used, i ∈ s'.used
  kept : ∀ i ∈ s.used, s'.localProfile i = s.localProfile i
  like : s.localProfile.Like s'.localProfile
  grows : ∀ i ∈ s.listed, i ∈ s'.listed
  added : ∀ i ∈ s'.listed, i ∈ s.listed ∨ i ∉ s.used ∧ ∃ pt, s.localProfile i = some pt
    ∧ F.codecSupported pt.mimeType = true ∧ pt.kind ≠ .other
  same : s'.audiopt = s.audiopt ∧ s'.videopt = s.videopt ∨ ∃ i ∈ s'.listed, i ∉ s.used

lemma Added.refl (s : LocalSetup) : Added F s s :=
  ⟨fun _ h => h, fun _ _ => rfl, .refl _, fun _ h => h, fun _ h => .inl h, .inl ⟨rfl, rfl⟩⟩

lemma Added.trans {s s' s'' : LocalSetup} (h : Added F s s') (h' : Added F s' s'') :
    Added F s s'' := by
  refine ⟨fun i hi => h'.used i (h.used i hi), fun i hi => ?_, h.like.trans h'.like,
    fun i hi => h'.grows i (h.grows i hi), fun i hi => ?_, ?_⟩
  · rw [h'.kept i (h.used i hi), h.kept i hi]
  · rcases h'.added i hi with hlisted | ⟨hnew, pt, hpt, hsupported, hkind⟩
    · exact h.added i hlisted
    · have hunused : i ∉ s.used := fun hmem => hnew (h.used i hmem)
      obtain ⟨pt', hpt', hsame⟩ := h.like.symm.some hpt
      have hmime : pt'.unflagged.mimeType = pt.unflagged.mimeType := by rw [hsame]
      have hkinds : pt'.unflagged.kind = pt.unflagged.kind := by rw [hsame]
      change pt'.mimeType = pt.mimeType at hmime
      change pt'.kind = pt.kind at hkinds
      exact .inr ⟨hunused, pt', hpt', by rw [hmime]; exact hsupported, by rw [hkinds]; exact hkind⟩
  · rcases h'.same with ⟨haudio, hvideo⟩ | ⟨i, hi, hnew⟩
    · rcases h.same with ⟨haudio', hvideo'⟩ | ⟨i, hi, hnew⟩
      · exact .inl ⟨haudio.trans haudio', hvideo.trans hvideo'⟩
      · exact .inr ⟨i, h'.grows i hi, hnew⟩
    · exact .inr ⟨i, hi, fun hmem => hnew (h.used i hmem)⟩

lemma added_addRemaining (s : LocalSetup) (i : ℕ) : Added F s (addRemaining F s i) := by
  obtain hsame | ⟨pt, hpt, hused, hsupported, hmarked, hlists⟩ := addRemaining_cases s i
  · rw [hsame]
    exact .refl s
  · have husedAfter : (addRemaining F s i).used = s.used ++ [i] := congrArg Marked.used hmarked
    have hprofile : (addRemaining F s i).localProfile = s.localProfile.setEnable i true :=
      congrArg Marked.localProfile hmarked
    have hlisted : (∀ j ∈ s.listed, j ∈ (addRemaining F s i).listed)
        ∧ (∀ j ∈ (addRemaining F s i).listed, j ∈ s.listed ∨ j = i ∧ pt.kind ≠ .other)
        ∧ ((addRemaining F s i).audiopt = s.audiopt ∧ (addRemaining F s i).videopt = s.videopt
          ∨ i ∈ (addRemaining F s i).listed) := by
      rcases hlists with ⟨haudio, hvideo⟩ | ⟨hkind, hmem⟩
      · have hsame : (addRemaining F s i).listed = s.listed := by
          rw [LocalSetup.listed, haudio, hvideo, LocalSetup.listed]
        rw [hsame]
        exact ⟨fun _ h => h, fun _ h => .inl h, .inl ⟨haudio, hvideo⟩⟩
      · refine ⟨fun j hj => (hmem j).mpr (.inr hj), fun j hj => ?_, .inr ((hmem i).mpr (.inl rfl))⟩
        rcases (hmem j).mp hj with rfl | hj
        · exact .inr ⟨rfl, hkind⟩
        · exact .inl hj
    obtain ⟨hgrows, hadded, hsame⟩ := hlisted
    refine ⟨fun j hj => ?_, fun j hj => ?_, ?_, hgrows, fun j hj => ?_, ?_⟩
    · rw [husedAfter]
      exact List.mem_append_left _ hj
    · have hne : j ≠ i := by
        rintro rfl
        exact hused hj
      rw [hprofile]
      simp [RtpProfile.setEnable, hne]
    · rw [hprofile]
      exact s.localProfile.like_setEnable i true
    · rcases hadded j hj with hj | ⟨rfl, hkind⟩
      · exact .inl hj
      · exact .inr ⟨hused, pt, hpt, hsupported, hkind⟩
    · rcases hsame with hsame | hmem
      · exact .inl hsame
      · exact .inr ⟨i, hmem, hused⟩

lemma added_foldl (s : LocalSetup) (l : List ℕ) :
    Added F s (l.foldl (addRemaining F) s) := by
  induction l generalizing s with
  | nil => exact .refl s
  | cons i l ih => exact (added_addRemaining s i).trans (ih _)

/-- What is in a list afterwards was there or is one of the rounds. -/
lemma mem_listed_foldl {s : LocalSetup} {l : List ℕ} {i : ℕ}
    (h : i ∈ (l.foldl (addRemaining F) s).listed) : i ∈ s.listed ∨ i ∈ l := by
  induction l generalizing s with
  | nil => exact .inl h
  | cons j l ih =>
    rcases ih h with hi | hi
    · obtain hsame | ⟨pt, -, -, -, -, ⟨haudio, hvideo⟩ | ⟨-, hmem⟩⟩ :=
        addRemaining_cases (F := F) s j
      · rw [hsame] at hi
        exact .inl hi
      · rw [LocalSetup.listed, haudio, hvideo] at hi
        exact .inl hi
      · rcases (hmem i).mp hi with rfl | hi
        · exact .inr List.mem_cons_self
        · exact .inl hi
    · exact .inr (List.mem_cons_of_mem j hi)

end Add

/-! The entries of the lists. -/

/-- The entries of the audio codecs, with the receiving formats that the configuration has there. -/
def audioEntries (c : LpConfig) (lists : CodecLists) : List ConfigCodec :=
  (lists.audioCodecs.filterMap lists.localProfile).mapIdx fun j pt =>
    savedCodec pt (c.getString (codecKey "audio_codec" j) "recv_fmtp")

/-- The entries of the video codecs. One without a receiving format has the next value of the
configuration, if the key stands there twice. -/
def videoEntries (c : LpConfig) (lists : CodecLists) : List ConfigCodec :=
  (lists.videoCodecs.filterMap lists.localProfile).mapIdx fun j pt =>
    savedCodec pt (pt.recvFmtp.or (c.values (codecKey "video_codec" j) "recv_fmtp").tail.head?)

/-- Each entry finds its own payload, and no entry that the configuration has behind the lists
finds any payload with a codec. -/
structure Recoverable (F : FilterList) (prof : RtpProfile) (c : LpConfig)
    (lists : CodecLists) : Prop where
  audio : prof.RegainsAll [] (audioEntries c lists) lists.audioCodecs
  video : prof.RegainsAll lists.audioCodecs (videoEntries c lists) lists.videoCodecs
  audioBehind : ∀ e ∈ entriesFrom c "audio_codec" lists.audioCodecs.length,
    F.codecSupported e.mimeType = true →
      ∀ i, ¬ prof.Candidate lists.audioCodecs e i
  videoBehind : ∀ e ∈ entriesFrom c "video_codec" lists.videoCodecs.length,
    F.codecSupported e.mimeType = true →
      ∀ i, ¬ prof.Candidate (lists.audioCodecs ++ lists.videoCodecs) e i

/-- The entry of a payload. -/
def IsEntry (prof : RtpProfile) (e : ConfigCodec) (p : ℕ) : Prop :=
  ∃ pt fmtp, prof p = some pt ∧ e = savedCodec pt fmtp

lemma forall₂_entries {prof : RtpProfile} {l : List ℕ} (hl : ∀ i ∈ l, ∃ pt, prof i = some pt)
    (f : ℕ → PayloadType → Option String) :
    List.Forall₂ (IsEntry prof)
      ((l.filterMap prof).mapIdx fun j pt => savedCodec pt (f j pt)) l := by
  induction l generalizing f with
  | nil => exact .nil
  | cons i l ih =>
    obtain ⟨pt, hpt⟩ := hl i List.mem_cons_self
    rw [List.filterMap_cons_some hpt, List.mapIdx_cons]
    exact .cons ⟨pt, _, hpt, rfl⟩
      (ih (fun j hj => hl j (List.mem_cons_of_mem i hj)) fun j pt => f (j + 1) pt)

section Restart

variable {F : FilterList} {prof : RtpProfile} {c : LpConfig} {lists : CodecLists}

lemma codecSupported_ne_empty {mime : String} (h : F.codecSupported mime = true) :
    mime ≠ "" := by
  rintro rfl
  rw [FilterList.codecSupported, Bool.and_eq_true] at h
  obtain ⟨desc, hdesc⟩ := Option.isSome_iff_exists.mp h.1
  have htest := List.find?_some hdesc
  rw [Bool.and_eq_true, decide_eq_true_eq, caseEq_iff] at htest
  apply F.named desc (List.mem_of_find?_eq_some hdesc) (by rw [htest.1]; simp)
  rw [← String.toList_inj]
  simpa using htest.2

/-- The payload of a list, with its flag. -/
lemma UserLists.payload (h : UserLists F prof lists) {i : ℕ}
    (hi : i ∈ lists.audioCodecs ++ lists.videoCodecs) :
    ∃ pt, lists.localProfile i = some pt ∧ F.codecSupported pt.mimeType = true := by
  obtain ⟨pt, hpt, hsupported⟩ := h.encodable i hi
  rw [RtpProfile.getPayload] at hpt
  split_ifs at hpt
  obtain ⟨pt', hpt', hsame⟩ := RtpProfile.Like.some h.profile (i := i) hpt
  have hmime : pt'.unflagged.mimeType = pt.unflagged.mimeType := by rw [hsame]
  change pt'.mimeType = pt.mimeType at hmime
  exact ⟨pt', hpt', by rw [hmime]; exact hsupported⟩

lemma UserLists.audioEntries (h : UserLists F prof lists) (c : LpConfig) :
    List.Forall₂ (IsEntry lists.localProfile) (audioEntries c lists) lists.audioCodecs := by
  apply forall₂_entries (f := fun j _ => c.getString (codecKey "audio_codec" j) "recv_fmtp")
  intro i hi
  obtain ⟨pt, hpt, -⟩ := h.payload (List.mem_append_left _ hi)
  exact ⟨pt, hpt⟩

lemma UserLists.videoEntries (h : UserLists F prof lists) (c : LpConfig) :
    List.Forall₂ (IsEntry lists.localProfile) (videoEntries c lists) lists.videoCodecs := by
  apply forall₂_entries
  intro i hi
  obtain ⟨pt, hpt, -⟩ := h.payload (List.mem_append_right _ hi)
  exact ⟨pt, hpt⟩

lemma UserLists.mimeType_ne_empty (h : UserLists F prof lists) {l : List ℕ}
    (hl : ∀ i ∈ l, i ∈ lists.audioCodecs ++ lists.videoCodecs) {pt : PayloadType}
    (hpt : pt ∈ l.filterMap lists.localProfile) : pt.mimeType ≠ "" := by
  obtain ⟨i, hi, hi'⟩ := List.mem_filterMap.mp hpt
  obtain ⟨pt', hpt', hsupported⟩ := h.payload (hl i hi)
  rw [hi', Option.some.injEq] at hpt'
  subst hpt'
  exact codecSupported_ne_empty hsupported

/-- What the next start reads: the entries of the lists and those behind them. -/
lemma UserLists.read_saved (h : UserLists F prof lists) (c : LpConfig) :
    codecsConfigRead F prof (codecsConfigUninit c lists)
      = setupLocalRtpProfile F prof
        (Phone.audioEntries c lists ++ entriesFrom c "audio_codec" lists.audioCodecs.length)
        (Phone.videoEntries c lists ++ entriesFrom c "video_codec" lists.videoCodecs.length) := by
  have haudio := writesEntry_audio.readCodecs (c := c) (d := codecsConfigUninit c lists)
    (fun pt => h.mimeType_ne_empty (fun i => List.mem_append_left _))
    (fun _ _ => rfl) (fun i key => writesEntry_video.values_writeFrom _ _ _
      (fun j _ => audioKey_ne_videoKey _ _) key)
  have hvideo := writesEntry_video.readCodecs (c := c) (d := codecsConfigUninit c lists)
    (fun pt => h.mimeType_ne_empty (fun i => List.mem_append_right _))
    (fun i key => writesEntry_audio.values_writeFrom _ _ _
      (fun j _ => (audioKey_ne_videoKey _ _).symm) key) (fun _ _ => rfl)
  have haudioLength := (h.audioEntries c).length_eq
  have hvideoLength := (h.videoEntries c).length_eq
  rw [Phone.audioEntries, List.length_mapIdx] at haudioLength
  rw [Phone.videoEntries, List.length_mapIdx] at hvideoLength
  have hfmtp : ∀ (pt : PayloadType) (values : List String),
      (pt.recvFmtp.toList ++ values.tail).head? = pt.recvFmtp.or values.tail.head? := by
    intro pt values
    cases pt.recvFmtp <;> simp
  simp only [hfmtp] at hvideo
  simp only [← getString_eq_values] at haudio
  rw [codecsConfigRead, haudio, hvideo, haudioLength, hvideoLength]
  rfl

/-- The payloads that are found and the flags that they get are those of the lists. -/
lemma flags_of_entries {prof' : RtpProfile} {es : List ConfigCodec} {ps : List ℕ}
    (hentries : List.Forall₂ (IsEntry prof) es ps)
    (hflags : List.Forall₂ (fun e p => (prof' p).map PayloadType.enabled = some e.enabled) es ps) :
    ∀ i ∈ ps, (prof' i).map PayloadType.enabled = (prof i).map PayloadType.enabled := by
  induction hentries with
  | nil => simp
  | cons hentry _ ih =>
    cases hflags with
    | cons hflag hflags =>
      rw [List.forall_mem_cons]
      refine ⟨?_, ih hflags⟩
      obtain ⟨pt, fmtp, hpt, rfl⟩ := hentry
      rw [hflag, hpt]
      rfl

lemma supported_of_entries (h : UserLists F prof lists) {es : List ConfigCodec}
    {ps : List ℕ} (hps : ∀ i ∈ ps, i ∈ lists.audioCodecs ++ lists.videoCodecs)
    (hentries : List.Forall₂ (IsEntry lists.localProfile) es ps) :
    ∀ e ∈ es, F.codecSupported e.mimeType = true := by
  induction hentries with
  | nil => simp
  | @cons e p _ _ hentry _ ih =>
    rw [List.forall_mem_cons]
    refine ⟨?_, ih fun i hi => hps i (List.mem_cons_of_mem p hi)⟩
    obtain ⟨pt, fmtp, hpt, rfl⟩ := hentry
    obtain ⟨pt', hpt', hsupported⟩ := h.payload (hps p List.mem_cons_self)
    rw [hpt, Option.some.injEq] at hpt'
    subst hpt'
    exact hsupported

/-- Entries that regain a list with nothing to be found behind them give the list. -/
lemma fixCodecList_of_recoverable {m : Marked} (hprof : NoH264 prof)
    (hlike : prof.Like m.localProfile) {es rest : List ConfigCodec} {ps : List ℕ} (h : prof.RegainsAll m.used es ps)
    (hsupported : ∀ e ∈ es, F.codecSupported e.mimeType = true)
    (hrest : ∀ e ∈ rest, F.codecSupported e.mimeType = true →
      ∀ i, ¬ prof.Candidate (m.used ++ ps) e i) :
    (fixCodecList F m (es ++ rest)).2 = ps
      ∧ List.Forall₂ (fun e p =>
          ((fixCodecList F m (es ++ rest)).1.localProfile p).map PayloadType.enabled
            = some e.enabled) es ps := by
  have hm := hlike.noH264 hprof
  obtain ⟨hlist, hflags⟩ := fixCodecList_of_regainsAll hm (hlike.regainsAll.mpr h) hsupported
  have hfollows := follows_fixCodecList (F := F) hm es
  rw [hlist] at hfollows
  have hlike' := hlike.trans hfollows.like
  have hnil : (fixCodecList F (fixCodecList F m es).1 rest).2 = [] := by
    rw [fixCodecList_eq_nil_iff (hlike'.noH264 hprof), hfollows.used]
    intro e he hsupported' i hc
    exact hrest e he hsupported' i (hlike'.candidate.mp hc)
  rw [fixCodecList_append, hnil, List.append_nil, fixCodecList_of_nil hnil]
  exact ⟨hlist, hflags⟩

lemma survives_of_recoverable (h : UserLists F prof lists) (hprof : NoH264 prof)
    (hr : Recoverable F prof c lists) : PreferencesSurvive F prof c lists := by
  have haudioSupported := supported_of_entries h (fun i => List.mem_append_left _)
    (h.audioEntries c)
  have hvideoSupported := supported_of_entries h (fun i => List.mem_append_right _)
    (h.videoEntries c)
  obtain ⟨haudio, haudioFlags⟩ := fixCodecList_of_recoverable (m := ⟨prof, []⟩) hprof (.refl prof)
    hr.audio haudioSupported hr.audioBehind
  have hA := follows_fixCodecList (F := F) (m := ⟨prof, []⟩) hprof
    (Phone.audioEntries c lists ++ entriesFrom c "audio_codec" lists.audioCodecs.length)
  rw [haudio] at hA
  obtain ⟨A, hAeq⟩ : ∃ A, fixCodecList F ⟨prof, []⟩ (Phone.audioEntries c lists
    ++ entriesFrom c "audio_codec" lists.audioCodecs.length) = A := ⟨_, rfl⟩
  rw [hAeq] at haudio haudioFlags hA
  have hAused : A.1.used = lists.audioCodecs := hA.used
  have hAlike : prof.Like A.1.localProfile := hA.like
  obtain ⟨hvideo, hvideoFlags⟩ := fixCodecList_of_recoverable (m := A.1) hprof hAlike
    (by rw [hAused]; exact hr.video) hvideoSupported (by rw [hAused]; exact hr.videoBehind)
  have hV := follows_fixCodecList (F := F) (hAlike.noH264 hprof)
    (Phone.videoEntries c lists ++ entriesFrom c "video_codec" lists.videoCodecs.length)
  rw [hvideo] at hV
  obtain ⟨V, hVeq⟩ : ∃ V, fixCodecList F A.1 (Phone.videoEntries c lists
    ++ entriesFrom c "video_codec" lists.videoCodecs.length) = V := ⟨_, rfl⟩
  rw [hVeq] at hvideo hvideoFlags hV
  have hVused : V.1.used = lists.audioCodecs ++ lists.videoCodecs := by rw [hV.used, hAused]
  have hVlike : prof.Like V.1.localProfile := hAlike.trans hV.like
  -- no payload is left to be added
  have hadded := added_foldl (F := F) ⟨V.1, A.2, V.2⟩ (List.range 127)
  have hsame := hadded.same.resolve_right (by
    rintro ⟨i, hi, hnew⟩
    dsimp only at hnew
    rw [hVused] at hnew
    have hlisted : ∀ j ∈ LocalSetup.listed ⟨V.1, A.2, V.2⟩,
        j ∈ lists.audioCodecs ++ lists.videoCodecs := by
      intro j hj
      rwa [LocalSetup.listed, haudio, hvideo] at hj
    have hbound : i < 127 := by
      rcases mem_listed_foldl hi with hi | hi
      · exact absurd (hlisted i hi) hnew
      · exact List.mem_range.mp hi
    rcases hadded.added i hi with hi | ⟨-, pt, hpt, hsupported, hkind⟩
    · exact hnew (hlisted i hi)
    · obtain ⟨pt', hpt', hunflagged⟩ := hVlike.symm.some hpt
      have hmime : pt'.unflagged.mimeType = pt.unflagged.mimeType := by rw [hunflagged]
      have hkinds : pt'.unflagged.kind = pt.unflagged.kind := by rw [hunflagged]
      change pt'.mimeType = pt.mimeType at hmime
      change pt'.kind = pt.kind at hkinds
      apply hnew
      apply h.complete i pt' _ hpt' (by rw [hkinds]; exact hkind)
      refine ⟨pt', ?_, by rw [hmime]; exact hsupported⟩
      rw [RtpProfile.getPayload, if_neg (by simp [rtpProfileMaxPayloads]; omega), Int.toNat_natCast]
      exact hpt')
  have hread : codecsConfigRead F prof (codecsConfigUninit c lists)
      = ⟨((List.range 127).foldl (addRemaining F) ⟨V.1, A.2, V.2⟩).localProfile,
        lists.audioCodecs, lists.videoCodecs⟩ := by
    rw [h.read_saved, setupLocalRtpProfile, hAeq, hVeq, hsame.1, hsame.2, haudio, hvideo]
  unfold PreferencesSurvive
  rw [hread]
  refine ⟨rfl, rfl, fun i hi => ?_⟩
  rw [← hVused] at hi
  dsimp only
  rw [hadded.kept i hi]
  rw [hVused] at hi
  rcases List.mem_append.mp hi with hi | hi
  · rw [hV.kept i (by rw [hAused]; exact hi)]
    exact flags_of_entries (h.audioEntries c) haudioFlags i hi
  · exact flags_of_entries (h.videoEntries c) hvideoFlags i hi

/-- Entries that give just their list regain it, and there is nothing to be found behind them. -/
lemma recoverable_of_fixCodecList {m : Marked} (hprof : NoH264 prof)
    (hlike : prof.Like m.localProfile) {es rest : List ConfigCodec} {ps : List ℕ}
    (hfits : List.Forall₂ (FitsEntry F prof) es ps)
    (hsupported : ∀ e ∈ es, F.codecSupported e.mimeType = true)
    (hnodup : (m.used ++ ps).Nodup) (h : (fixCodecList F m (es ++ rest)).2 = ps) :
    prof.RegainsAll m.used es ps ∧ ∀ e ∈ rest, F.codecSupported e.mimeType = true →
      ∀ i, ¬ prof.Candidate (m.used ++ ps) e i := by
  have hm := hlike.noH264 hprof
  have hall : (fixCodecList F m (es ++ rest)).2 = ps ++ [] := by rw [h, List.append_nil]
  have hregains := regainsAll_of_fixCodecList hprof hlike hfits hnodup hall
  obtain ⟨hlist, -⟩ := fixCodecList_of_regainsAll hm (hlike.regainsAll.mpr hregains) hsupported
  have hfollows := follows_fixCodecList (F := F) hm es
  have hlike' := hlike.trans hfollows.like
  rw [fixCodecList_append, hlist] at h
  have hnil := List.append_right_eq_self.mp h
  rw [fixCodecList_eq_nil_iff (hlike'.noH264 hprof), hfollows.used, hlist] at hnil
  exact ⟨hregains, fun e he hsupported' i hc =>
    hnil e he hsupported' i (hlike'.candidate.mpr hc)⟩

/-- The rates of the payloads with a codec are positive numbers of the C type. -/
def PositiveRates (F : FilterList) (prof : RtpProfile) : Prop :=
  ∀ i pt, Encodable F prof i → prof i = some pt → 0 < pt.clockRate ∧ pt.clockRate < 2 ^ 31

/-- The payload of a list, without its flag. -/
lemma UserLists.stored (h : UserLists F prof lists) (hrates : PositiveRates F prof)
    {i : ℕ} (hi : i ∈ lists.audioCodecs ++ lists.videoCodecs) {pt : PayloadType}
    (hpt : lists.localProfile i = some pt) :
    ∃ it, prof i = some it ∧ it.mimeType = pt.mimeType
      ∧ it.clockRate = pt.clockRate.bmod (2 ^ 32) ∧ 0 < it.clockRate
      ∧ F.codecSupported it.mimeType = true := by
  obtain ⟨it, hit, hsame⟩ := (RtpProfile.Like.symm h.profile).some hpt
  have hmime : it.unflagged.mimeType = pt.unflagged.mimeType := by rw [hsame]
  have hrate : it.unflagged.clockRate = pt.unflagged.clockRate := by rw [hsame]
  change it.mimeType = pt.mimeType at hmime
  change it.clockRate = pt.clockRate at hrate
  obtain ⟨hpos, hbound⟩ := hrates i it (h.encodable i hi) hit
  obtain ⟨pt', hpt', hsupported⟩ := h.payload hi
  rw [hpt, Option.some.injEq] at hpt'
  subst hpt'
  refine ⟨it, hit, hmime, ?_, hpos, by rw [hmime]; exact hsupported⟩
  rw [hrate] at hpos hbound ⊢
  exact (Int.bmod_eq_of_le_mul_two (by omega) (by omega)).symm

lemma fits_of_entries (h : UserLists F prof lists) (hrates : PositiveRates F prof)
    {es : List ConfigCodec} {ps : List ℕ}
    (hps : ∀ i ∈ ps, i ∈ lists.audioCodecs ++ lists.videoCodecs) (hbound : ∀ i ∈ ps, i < 127)
    (hentries : List.Forall₂ (IsEntry lists.localProfile) es ps) :
    List.Forall₂ (FitsEntry F prof) es ps := by
  induction hentries with
  | nil => exact .nil
  | @cons e p _ _ hentry _ ih =>
    refine .cons ?_ (ih (fun i hi => hps i (List.mem_cons_of_mem p hi))
      fun i hi => hbound i (List.mem_cons_of_mem p hi))
    obtain ⟨pt, fmtp, hpt, rfl⟩ := hentry
    obtain ⟨it, hit, hmime, hrate, -, hsupported⟩ := h.stored hrates (hps p List.mem_cons_self) hpt
    refine ⟨by rw [hmime] at hsupported; exact hsupported, fun used hp =>
      ⟨hbound p List.mem_cons_self, hp, it, hit, ?_, .inl hrate.symm⟩⟩
    rw [hmime]
    exact caseEq_refl _

/-- The payloads of one type and rate. -/
def sameClass (prof : RtpProfile) (pt : PayloadType) (i : ℕ) : Bool :=
  (prof i).any fun it => caseEq pt.mimeType it.mimeType && pt.clockRate = it.clockRate

/-- The entries of one type and rate. -/
def entryClass (pt : PayloadType) (e : ConfigCodec) : Bool :=
  caseEq pt.mimeType e.mimeType && pt.clockRate = e.clockRate

lemma countP_entries (h : UserLists F prof lists) (hrates : PositiveRates F prof)
    {es : List ConfigCodec} {ps : List ℕ} (pt : PayloadType)
    (hps : ∀ i ∈ ps, i ∈ lists.audioCodecs ++ lists.videoCodecs)
    (hentries : List.Forall₂ (IsEntry lists.localProfile) es ps) :
    ps.countP (sameClass prof pt) = es.countP (entryClass pt) := by
  induction hentries with
  | nil => rfl
  | @cons e p _ _ hentry _ ih =>
    have hrest := ih fun i hi => hps i (List.mem_cons_of_mem p hi)
    obtain ⟨pt', fmtp, hpt', rfl⟩ := hentry
    obtain ⟨it, hit, hmime, hrate, -⟩ := h.stored hrates (hps p List.mem_cons_self) hpt'
    have hsame : sameClass prof pt p = entryClass pt (savedCodec pt' fmtp) := by
      rw [sameClass, hit, Option.any_some, hmime, hrate]
      rfl
    rw [List.countP_cons, List.countP_cons, hrest, hsame]

/-- A payload that is not found is missed in its class, where each entry has found another one. -/
lemma found_of_listed (h : UserLists F prof lists) (hrates : PositiveRates F prof)
    (hprof : NoH264 prof) {audio video : List ConfigCodec} {A V : Marked × List ℕ}
    (hA : fixCodecList F ⟨prof, []⟩ (Phone.audioEntries c lists ++ audio) = A)
    (hV : fixCodecList F A.1 (Phone.videoEntries c lists ++ video) = V)
    (hfound : ∀ i ∈ A.2 ++ V.2, i ∈ lists.audioCodecs ++ lists.videoCodecs)
    {p : ℕ} (hp : p ∈ lists.audioCodecs ++ lists.videoCodecs) (hbound : p < 127) :
    p ∈ A.2 ++ V.2 := by
  obtain ⟨pt, hpt, -⟩ := h.payload hp
  obtain ⟨it, hit, -, -, hpos, hsupported⟩ := h.stored hrates hp hpt
  by_contra hnew
  have hfits : ∀ e, entryClass it e = true → FitsEntry F prof e p := by
    intro e he
    rw [entryClass, Bool.and_eq_true, decide_eq_true_eq] at he
    exact ⟨by rw [← codecSupported_congr he.1]; exact hsupported,
      fun used hused => ⟨hbound, hused, it, hit, caseEq_symm he.1, .inl he.2.symm⟩⟩
  have hclass : ∀ e used i, entryClass it e = true → prof.Candidate used e i →
      sameClass prof it i = true := by
    rintro e used i he ⟨-, -, it', hit', hmime, hrate⟩
    rw [entryClass, Bool.and_eq_true, decide_eq_true_eq] at he
    rw [sameClass, hit', Option.any_some, caseEq_trans he.1 hmime, Bool.true_and,
      decide_eq_true_eq]
    omega
  have hfollowsA := follows_fixCodecList (F := F) (m := ⟨prof, []⟩) hprof
    (Phone.audioEntries c lists ++ audio)
  rw [hA] at hfollowsA
  have hfollowsV := follows_fixCodecList (F := F)
    (hfollowsA.like.noH264 hprof) (Phone.videoEntries c lists ++ video)
  rw [hV] at hfollowsV
  have hused : V.1.used = A.2 ++ V.2 := by rw [hfollowsV.used, hfollowsA.used, List.nil_append]
  have hcountA := countP_fixCodecList (F := F) (m := ⟨prof, []⟩) hprof
    (l := Phone.audioEntries c lists ++ audio) hfits hclass (by
      rw [hA]
      exact fun hmem => hnew (List.mem_append_left _ hmem))
  have hcountV := countP_fixCodecList (F := F) (m := A.1)
    (hfollowsA.like.noH264 hprof) (l := Phone.videoEntries c lists ++ video)
    (fun e he => hfollowsA.like.fits (hfits e he))
    (fun e used i he hc => hclass e used i he (hfollowsA.like.candidate.mp hc)) (by
      rw [hV, hfollowsA.used, List.nil_append]
      exact hnew)
  rw [hA, List.countP_append, ← countP_entries h hrates it (fun i => List.mem_append_left _)
    (h.audioEntries c)] at hcountA
  rw [hV, List.countP_append, ← countP_entries h hrates it (fun i => List.mem_append_right _)
    (h.videoEntries c)] at hcountV
  have hnodup : (p :: (A.2 ++ V.2)).Nodup := by
    rw [List.nodup_cons, ← hused]
    exact ⟨by rw [hused]; exact hnew, hfollowsV.nodup (hfollowsA.nodup List.nodup_nil)⟩
  have hsub : p :: (A.2 ++ V.2) ⊆ lists.audioCodecs ++ lists.videoCodecs := by
    rw [List.cons_subset]
    exact ⟨hp, hfound⟩
  have hcount := (hnodup.subperm hsub).countP_le (sameClass prof it)
  have hself : sameClass prof it p = true := by
    rw [sameClass, hit, Option.any_some, caseEq_refl, Bool.true_and, decide_eq_true_eq]
  rw [List.countP_cons, if_pos hself, List.countP_append, List.countP_append] at hcount
  omega

lemma recoverable_of_survives (h : UserLists F prof lists)
    (hrates : PositiveRates F prof) (hprof : NoH264 prof)
    (hs : PreferencesSurvive F prof c lists) : Recoverable F prof c lists := by
  obtain ⟨A, hA⟩ : ∃ A, fixCodecList F ⟨prof, []⟩ (Phone.audioEntries c lists
    ++ entriesFrom c "audio_codec" lists.audioCodecs.length) = A := ⟨_, rfl⟩
  obtain ⟨V, hV⟩ : ∃ V, fixCodecList F A.1 (Phone.videoEntries c lists
    ++ entriesFrom c "video_codec" lists.videoCodecs.length) = V := ⟨_, rfl⟩
  have hfollowsA := follows_fixCodecList (F := F) (m := ⟨prof, []⟩) hprof
    (Phone.audioEntries c lists ++ entriesFrom c "audio_codec" lists.audioCodecs.length)
  rw [hA] at hfollowsA
  have hfollowsV := follows_fixCodecList (F := F) (hfollowsA.like.noH264 hprof)
    (Phone.videoEntries c lists ++ entriesFrom c "video_codec" lists.videoCodecs.length)
  rw [hV] at hfollowsV
  have hAused : A.1.used = A.2 := hfollowsA.used
  have hVused : V.1.used = A.2 ++ V.2 := by rw [hfollowsV.used, hAused]
  have hadded := added_foldl (F := F) ⟨V.1, A.2, V.2⟩ (List.range 127)
  obtain ⟨haudio, hvideo, -⟩ := hs
  rw [h.read_saved, setupLocalRtpProfile, hA, hV] at haudio hvideo
  obtain ⟨S, hS⟩ : ∃ S, (List.range 127).foldl (addRemaining F) ⟨V.1, A.2, V.2⟩ = S := ⟨_, rfl⟩
  rw [hS] at hadded
  have hlisted : S.listed = lists.audioCodecs ++ lists.videoCodecs := by
    dsimp only at haudio hvideo
    rw [hS] at haudio hvideo
    rw [LocalSetup.listed, haudio, hvideo]
  have hbound : ∀ i ∈ lists.audioCodecs ++ lists.videoCodecs, i < 127 := by
    intro i hi
    rw [← hlisted, ← hS] at hi
    rcases mem_listed_foldl hi with hi | hi
    · rcases List.mem_append.mp hi with hi | hi
      · exact hfollowsA.below i hi
      · exact hfollowsV.below i hi
    · exact List.mem_range.mp hi
  have hfound : ∀ i ∈ A.2 ++ V.2, i ∈ lists.audioCodecs ++ lists.videoCodecs := by
    intro i hi
    rw [← hlisted]
    exact hadded.grows i hi
  have hall : ∀ i ∈ lists.audioCodecs ++ lists.videoCodecs, i ∈ A.2 ++ V.2 :=
    fun i hi => found_of_listed h hrates hprof hA hV hfound hi (hbound i hi)
  -- so nothing was added to what the entries gave
  obtain ⟨haudioSame, hvideoSame⟩ := hadded.same.resolve_right (by
    rintro ⟨i, hi, hnew⟩
    rw [hlisted] at hi
    apply hnew
    rw [hVused]
    exact hall i hi)
  dsimp only at haudio hvideo haudioSame hvideoSame
  rw [hS, haudioSame] at haudio
  rw [hS, hvideoSame] at hvideo
  obtain ⟨haudioRegains, haudioBehind⟩ := recoverable_of_fixCodecList hprof (.refl prof)
    (fits_of_entries h hrates (fun i => List.mem_append_left _)
      (fun i hi => hbound i (List.mem_append_left _ hi)) (h.audioEntries c))
    (supported_of_entries h (fun i => List.mem_append_left _) (h.audioEntries c))
    (m := ⟨prof, []⟩) (List.nodup_append.mp h.nodup).1 (by rw [hA, haudio])
  obtain ⟨hvideoRegains, hvideoBehind⟩ := recoverable_of_fixCodecList hprof hfollowsA.like
    (fits_of_entries h hrates (fun i => List.mem_append_right _)
      (fun i hi => hbound i (List.mem_append_right _ hi)) (h.videoEntries c))
    (supported_of_entries h (fun i => List.mem_append_right _) (h.videoEntries c))
    (by rw [hAused, haudio]; exact h.nodup) (by rw [hV, hvideo])
  rw [hAused, haudio] at hvideoRegains hvideoBehind
  exact ⟨haudioRegains, hvideoRegains, haudioBehind, hvideoBehind⟩

/-- The preferences survive if each entry finds its own payload and none behind the lists finds one;
and, for rates as payloads have them, only then. -/
theorem preferences_survive (h : UserLists F prof lists) (hprof : NoH264 prof) :
    (Recoverable F prof c lists → PreferencesSurvive F prof c lists)
      ∧ (PositiveRates F prof →
        (PreferencesSurvive F prof c lists ↔ Recoverable F prof c lists)) :=
  ⟨survives_of_recoverable h hprof, fun hrates =>
    ⟨recoverable_of_survives h hrates hprof, survives_of_recoverable h hprof⟩⟩

end Restart

/-- Filters for uncompressed sound. -/
def soundFilters : FilterList where
  descs := [⟨.encoder, "L16", "L16 encoder"⟩, ⟨.decoder, "L16", "L16 decoder"⟩]
  named := by simp

/-- Uncompressed sound with some channels. -/
def sound (channels : ℤ) (enabled : Bool) : PayloadType where
  kind := .audioContinuous
  clockRate := 44100
  normalBitrate := 705600 * channels
  mimeType := "L16"
  channels := channels
  recvFmtp := none
  sendFmtp := none
  enabled := enabled

/-- Stereo under the number 10 and mono under the number 11. -/
def soundProfile (stereo mono : Bool) : RtpProfile := fun i =>
  if i = 10 then some (sound 2 stereo) else if i = 11 then some (sound 1 mono) else none

lemma soundProfile_eq_some {stereo mono : Bool} {i : ℕ} {pt : PayloadType}
    (h : soundProfile stereo mono i = some pt) :
    i = 10 ∧ pt = sound 2 stereo ∨ i = 11 ∧ pt = sound 1 mono := by
  unfold soundProfile at h
  split_ifs at h with h₁ h₂
  · exact .inl ⟨h₁, (Option.some.inj h).symm⟩
  · exact .inr ⟨h₂, (Option.some.inj h).symm⟩

lemma noH264_sound : NoH264 (soundProfile true true) := by
  intro i pt hpt
  rcases soundProfile_eq_some hpt with ⟨-, rfl⟩ | ⟨-, rfl⟩
  · decide
  · decide

lemma userLists_sound (mono : Bool) {l : List ℕ} (hl : l.Perm [10, 11]) :
    UserLists soundFilters (soundProfile true true) ⟨soundProfile true mono, l, []⟩ := by
  have hmem : ∀ i, i ∈ l ↔ i = 10 ∨ i = 11 := by
    intro i
    rw [hl.mem_iff]
    simp
  refine ⟨fun i => ?_, ?_, fun i hi => ?_, fun i pt _ hpt _ => ?_⟩
  · dsimp only
    unfold soundProfile
    split_ifs
    · rfl
    · rfl
    · rfl
  · rw [List.append_nil, hl.nodup_iff]
    decide
  · rw [List.append_nil, hmem] at hi
    rcases hi with rfl | rfl
    · exact ⟨sound 2 true, rfl, by decide⟩
    · exact ⟨sound 1 true, rfl, by decide⟩
  · rw [List.append_nil, hmem]
    rcases soundProfile_eq_some hpt with ⟨rfl, -⟩ | ⟨rfl, -⟩
    · exact .inl rfl
    · exact .inr rfl

/-- In the order of their numbers both come back. -/
theorem preferences_survive_sound :
    PreferencesSurvive soundFilters (soundProfile true true) []
      ⟨soundProfile true false, [10, 11], []⟩ := by
  refine (preferences_survive (userLists_sound false (.refl _)) noH264_sound).1 ⟨?_, ?_, ?_, ?_⟩
  · have hentries : audioEntries [] ⟨soundProfile true false, [10, 11], []⟩
        = [savedCodec (sound 2 true) none, savedCodec (sound 1 false) none] := rfl
    rw [hentries]
    exact ⟨RtpProfile.findPayload_eq_some_iff.mp (by decide +kernel),
      RtpProfile.findPayload_eq_some_iff.mp (by decide +kernel), trivial⟩
  · trivial
  · intro e he
    cases he
  · intro e he
    cases he

/-- Mono before stereo comes back the other way round. -/
theorem preferences_are_swapped :
    ¬ ∀ (F : FilterList) (prof : RtpProfile) (c : LpConfig) (lists : CodecLists),
      UserLists F prof lists → NoH264 prof → PreferencesSurvive F prof c lists := by
  intro hall
  have hlists := hall soundFilters (soundProfile true true) []
    ⟨soundProfile true false, [11, 10], []⟩ (userLists_sound false (List.Perm.swap 10 11 []))
    noH264_sound
  have hread : (codecsConfigRead soundFilters (soundProfile true true) (codecsConfigUninit []
      ⟨soundProfile true false, [11, 10], []⟩)).audioCodecs = [10, 11] := by decide +kernel
  have hsame := hlists.1
  rw [hread] at hsame
  cases hsame

end MTalk.Phone
