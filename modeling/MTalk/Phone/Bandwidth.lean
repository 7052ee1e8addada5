import MTalk.Phone.Payloads

/-!
# The bandwidth limits

An unlimited direction is `0` in the configuration and `-1` in the allocated shares. The check of an
audio codec takes the minimum of the configured limits, so that one unlimited direction makes both
unlimited. The shares of a limited direction fit its limit after each allocation.
-/

namespace MTalk.Phone

/-- An `int` after an operation that may overflow. -/
def toInt (n : ℤ) : ℤ := n.bmod (2 ^ 32)

/-- An audio payload whose bit rate is not negative and whose bandwidth is an `int`. -/
structure PayloadType.Audio (pt : PayloadType) : Prop where
  kind : pt.kind = .audioContinuous ∨ pt.kind = .audioPacketized
  rate : 0 ≤ pt.normalBitrate
  small : getAudioPayloadBandwidth pt < 2 ^ 31

namespace CodecConfig

/-- `linphone_core_check_payload_type_usability`. Outside calls the bandwidth is allocated first. -/
def linphoneCoreCheckPayloadTypeUsability (inCall : Bool) (lc : CodecConfig) (i : ℕ)
    (pt : PayloadType) : CodecConfig × Bool :=
  let lc := if inCall then lc else lc.updateAllocatedAudioBandwidth
  let minAudioBw := getMinBandwidth lc.downloadBw lc.uploadBw
  let minAudioBw := if minAudioBw = 0 then -1 else minAudioBw
  let minVideoBw := getMinBandwidth lc.dwVideoBw lc.upVideoBw
  match pt.kind with
  | .audioContinuous | .audioPacketized =>
    (lc, bandwidthIsGreater (toInt (minAudioBw * 1000)) (getAudioPayloadBandwidth pt))
  | .video =>
    if minVideoBw ≠ 0 then
      let bitrate := if 0 < minVideoBw then toInt (minVideoBw * 1000) else 1500000
      ({ lc with localProfile :=
          lc.localProfile.setPayload i { pt with normalBitrate := bitrate } }, true)
    else (lc, false)
  | .other => (lc, false)

/-- The bandwidth is not above a limit. Zero is no limit. -/
def Within (bandwidth limit : ℤ) : Prop := limit ≠ 0 → bandwidth ≤ 1000 * limit

/-- The shares of a direction fit its limit. -/
def SharesFit (limit audio video : ℤ) : Prop :=
  limit ≠ 0 → 0 ≤ audio ∧ 0 ≤ video ∧ audio + video ≤ limit

/-- The shares of both directions fit. -/
def Allocated (lc : CodecConfig) : Prop :=
  SharesFit lc.downloadBw lc.dwAudioBw lc.dwVideoBw ∧ SharesFit lc.uploadBw lc.upAudioBw lc.upVideoBw

/-- The check finds the codecs within both limits, and after an allocation, for the best codec that
is enabled or for a codec that was negotiated, the shares fit. -/
def RespectsLimits (inCall : Bool) (lc : CodecConfig) (i : ℕ) (pt : PayloadType) : Prop :=
  ((lc.linphoneCoreCheckPayloadTypeUsability inCall i pt).2 = true ↔
      Within (getAudioPayloadBandwidth pt) lc.downloadBw
        ∧ Within (getAudioPayloadBandwidth pt) lc.uploadBw)
    ∧ lc.updateAllocatedAudioBandwidth.Allocated
    ∧ ∀ codec : PayloadType, codec.Audio → (lc.updateAllocatedAudioBandwidthInCall codec).Allocated

/-- The enabled codecs of the list. -/
def enabledCodecs (lc : CodecConfig) : List PayloadType :=
  (lc.audioCodecs.filterMap lc.localProfile).filter PayloadType.enabled

variable {lc : CodecConfig} {pt : PayloadType}

lemma audioPayloadBandwidth_nonneg (h : pt.Audio) : 0 ≤ getAudioPayloadBandwidth pt := by
  have hrate := Int.tdiv_nonneg h.rate (by norm_num : (0 : ℤ) ≤ 400)
  unfold getAudioPayloadBandwidth
  omega

/-- An allocation for a codec leaves the limits as they are. -/
lemma updateInCall_limits (lc : CodecConfig) (pt : PayloadType) :
    (lc.updateAllocatedAudioBandwidthInCall pt).downloadBw = lc.downloadBw
      ∧ (lc.updateAllocatedAudioBandwidthInCall pt).uploadBw = lc.uploadBw := ⟨rfl, rfl⟩

lemma sharesFit_split {audioBw limit : ℤ} (haudio : 0 ≤ audioBw) (hlimit : 0 ≤ limit) :
    SharesFit limit (if limit = 0 then -1 else min audioBw limit)
      (if limit = 0 then -1 else max (limit - (if limit = 0 then -1 else min audioBw limit) - 10) 0)
    := by
  intro hne
  rw [if_neg hne, if_neg hne]
  omega

/-- The shares fit after an allocation for a codec. -/
lemma updateInCall_allocated (hdown : 0 ≤ lc.downloadBw) (hup : 0 ≤ lc.uploadBw) (h : pt.Audio) :
    (lc.updateAllocatedAudioBandwidthInCall pt).Allocated := by
  have haudio : 0 ≤ (getAudioPayloadBandwidth pt).tdiv 1000 :=
    Int.tdiv_nonneg (audioPayloadBandwidth_nonneg h) (by norm_num)
  exact ⟨sharesFit_split haudio hdown, sharesFit_split haudio hup⟩

/-- A loop that keeps the best element so far ends with one of the elements. -/
lemma foldl_best {α : Type} {f : Option α → α → Option α}
    (hf : ∀ a b, f (some a) b = some b ∨ f (some a) b = some a) (l : List α) (a : α) :
    ∃ c ∈ a :: l, l.foldl f (some a) = some c := by
  induction l generalizing a with
  | nil => exact ⟨a, by simp, rfl⟩
  | cons b l ih =>
    rw [List.foldl_cons]
    rcases hf a b with hkeep | hkeep
    · obtain ⟨c, hc, heq⟩ := ih b
      exact ⟨c, List.mem_cons_of_mem _ hc, by rw [hkeep, heq]⟩
    · obtain ⟨c, hc, heq⟩ := ih a
      refine ⟨c, ?_, by rw [hkeep, heq]⟩
      rw [List.mem_cons] at hc ⊢
      exact hc.imp_right (List.mem_cons_of_mem _)

/-- The codec that is allocated for is one of those that are enabled, if there is any. -/
lemma updateAllocated_eq (lc : CodecConfig) : lc.enabledCodecs = []
      ∧ lc.updateAllocatedAudioBandwidth = lc
    ∨ ∃ codec ∈ lc.enabledCodecs,
      lc.updateAllocatedAudioBandwidth = lc.updateAllocatedAudioBandwidthInCall codec := by
  unfold updateAllocatedAudioBandwidth
  rw [enabledCodecs]
  cases hcodecs : (lc.audioCodecs.filterMap lc.localProfile).filter PayloadType.enabled with
  | nil => exact .inl ⟨rfl, rfl⟩
  | cons b codecs =>
    dsimp only
    generalize hf : (fun (best : Option PayloadType) (pt : PayloadType) => _) = f
    have hkeep : ∀ a b, f (some a) b = some b ∨ f (some a) b = some a := by
      intro a b
      rw [← hf]
      exact ite_eq_or_eq _ (some b) (some a)
    have hfirst : f none b = some b := by rw [← hf]
    obtain ⟨c, hc, heq⟩ := foldl_best hkeep codecs b
    exact .inr ⟨c, hc, by rw [List.foldl_cons, hfirst, heq]; rfl⟩

/-- The limits after the allocation that precedes a check. -/
lemma check_limits (inCall : Bool) (lc : CodecConfig) :
    (if inCall then lc else lc.updateAllocatedAudioBandwidth).downloadBw = lc.downloadBw
      ∧ (if inCall then lc else lc.updateAllocatedAudioBandwidth).uploadBw = lc.uploadBw := by
  cases inCall
  · rcases lc.updateAllocated_eq with ⟨-, heq⟩ | ⟨codec, -, heq⟩
    · simp [heq]
    · simp [heq, updateInCall_limits]
  · exact ⟨rfl, rfl⟩

/-- What the check of an audio payload compares. -/
lemma check_audio (inCall : Bool) (lc : CodecConfig) (i : ℕ) (h : pt.Audio) :
    (lc.linphoneCoreCheckPayloadTypeUsability inCall i pt).2 = bandwidthIsGreater
      (toInt ((if getMinBandwidth lc.downloadBw lc.uploadBw = 0 then -1
        else getMinBandwidth lc.downloadBw lc.uploadBw) * 1000)) (getAudioPayloadBandwidth pt) := by
  obtain ⟨hdown, hup⟩ := check_limits inCall lc
  unfold linphoneCoreCheckPayloadTypeUsability
  dsimp only
  rw [hdown, hup]
  rcases h.kind with hkind | hkind
  · rw [hkind]
  · rw [hkind]

/-- The product with a limit that is not too large is exact. -/
lemma toInt_of_lt {n : ℤ} (hn : 0 ≤ n) (hlt : n < 2 ^ 31) : toInt n = n := by
  apply Int.bmod_eq_of_le_mul_two
  · omega
  · omega

/-- While no product overflows, the check during a call is that of the codec callbacks. -/
lemma check_inCall_eq (lc : CodecConfig) (i : ℕ) (h : pt.Audio) (hdown : 0 ≤ lc.downloadBw)
    (hup : 0 ≤ lc.uploadBw) (hsmall : 1000 * min lc.downloadBw lc.uploadBw < 2 ^ 31) :
    (lc.linphoneCoreCheckPayloadTypeUsability true i pt).2
      = (lc.checkPayloadTypeUsability i pt).2 := by
  have hmin : getMinBandwidth lc.downloadBw lc.uploadBw = min lc.downloadBw lc.uploadBw := by
    rw [getMinBandwidth, if_neg hdown.not_gt, if_neg hup.not_gt]
  have hexact : ∀ bw : ℤ, (bw = -1 ∨ 0 ≤ bw) → bw * 1000 < 2 ^ 31 →
      toInt (bw * 1000) = bw * 1000 := by
    rintro bw (rfl | hbw) hlt
    · decide
    · exact toInt_of_lt (by omega) hlt
  rw [check_audio true lc i h, hexact]
  · unfold checkPayloadTypeUsability
    rcases h.kind with hkind | hkind
    · rw [hkind]
    · rw [hkind]
  · rw [hmin]
    split_ifs
    · exact .inl rfl
    · exact .inr (le_min hdown hup)
  · rw [hmin]
    split_ifs
    · norm_num
    · omega

/-- The check finds a payload within both limits exactly when, with one limit, it is within that
one, and with two, their minimum does not overflow or overflows without harm. -/
lemma check_iff_within (inCall : Bool) (lc : CodecConfig) (i : ℕ) (h : pt.Audio)
    (hdown : 0 ≤ lc.downloadBw) (hup : 0 ≤ lc.uploadBw) :
    ((lc.linphoneCoreCheckPayloadTypeUsability inCall i pt).2 = true ↔
      Within (getAudioPayloadBandwidth pt) lc.downloadBw
        ∧ Within (getAudioPayloadBandwidth pt) lc.uploadBw) ↔
    if min lc.downloadBw lc.uploadBw = 0 then
      Within (getAudioPayloadBandwidth pt) (max lc.downloadBw lc.uploadBw)
    else 1000 * min lc.downloadBw lc.uploadBw < 2 ^ 31
      ∨ toInt (1000 * min lc.downloadBw lc.uploadBw) < 0
      ∨ getAudioPayloadBandwidth pt ≤ toInt (1000 * min lc.downloadBw lc.uploadBw) := by
  have hband := audioPayloadBandwidth_nonneg h
  have hsmall := h.small
  rw [check_audio inCall lc i h, getMinBandwidth, if_neg hdown.not_gt, if_neg hup.not_gt]
  generalize getAudioPayloadBandwidth pt = band at hband hsmall ⊢
  generalize lc.downloadBw = down at hdown ⊢
  generalize lc.uploadBw = up at hup ⊢
  unfold Within
  by_cases hzero : min down up = 0
  · have hfree : bandwidthIsGreater (toInt (-1 * 1000)) band = true := rfl
    rw [if_pos hzero, if_pos hzero, hfree]
    simp only [true_iff]
    omega
  · rw [if_neg hzero, if_neg hzero, mul_comm (min down up)]
    have hcheck : bandwidthIsGreater (toInt (1000 * min down up)) band = true ↔
        toInt (1000 * min down up) < 0 ∨ band ≤ toInt (1000 * min down up) := by
      unfold bandwidthIsGreater
      split_ifs with hneg hband'
      · simp [hneg]
      · omega
      · simp [hneg]
    rw [hcheck]
    by_cases hexact : 1000 * min down up < 2 ^ 31
    · rw [toInt_of_lt (by omega) hexact]
      omega
    · omega

/-- The limits are respected exactly when a single limit is not exceeded, the smaller of two does
not overflow in a way that matters, and a codec is enabled or the shares fit already. -/
theorem respectsLimits_iff (inCall : Bool) (lc : CodecConfig) (i : ℕ) (h : pt.Audio)
    (hcodecs : ∀ codec ∈ lc.enabledCodecs, codec.Audio)
    (hdown : 0 ≤ lc.downloadBw) (hup : 0 ≤ lc.uploadBw) :
    RespectsLimits inCall lc i pt ↔
      (if min lc.downloadBw lc.uploadBw = 0 then
        Within (getAudioPayloadBandwidth pt) (max lc.downloadBw lc.uploadBw)
      else 1000 * min lc.downloadBw lc.uploadBw < 2 ^ 31
        ∨ toInt (1000 * min lc.downloadBw lc.uploadBw) < 0
        ∨ getAudioPayloadBandwidth pt ≤ toInt (1000 * min lc.downloadBw lc.uploadBw))
      ∧ (lc.enabledCodecs ≠ [] ∨ lc.Allocated) := by
  have hincall : ∀ codec : PayloadType, codec.Audio →
      (lc.updateAllocatedAudioBandwidthInCall codec).Allocated :=
    fun codec hcodec => updateInCall_allocated hdown hup hcodec
  have hupdate : lc.updateAllocatedAudioBandwidth.Allocated ↔
      lc.enabledCodecs ≠ [] ∨ lc.Allocated := by
    rcases lc.updateAllocated_eq with ⟨hnone, heq⟩ | ⟨codec, hcodec, heq⟩
    · simp [hnone, heq]
    · rw [heq]
      exact iff_of_true (hincall codec (hcodecs codec hcodec)) (.inl (List.ne_nil_of_mem hcodec))
  rw [RespectsLimits, check_iff_within inCall lc i h hdown hup, hupdate]
  exact and_congr_right fun _ => and_iff_left hincall

/-- PCMU, which takes 80 kbit/s. -/
def mulaw : PayloadType := ⟨.audioContinuous, 8000, 64000, "PCMU", 1, none, none, true⟩

lemma mulaw_audio : mulaw.Audio := ⟨.inl rfl, by decide, by decide⟩

/-- 64 kbit/s for the download and no limit for the upload. -/
def limitedDownload : CodecConfig where
  localProfile := fun i => if i = 0 then some mulaw else none
  audioCodecs := [0]
  videoCodecs := []
  audioRtpPort := 7078
  videoRtpPort := 9078
  onlyOneCodec := false
  videoEnabled := false
  downloadBw := 64
  uploadBw := 0
  audioBw := 80
  dwAudioBw := 64
  dwVideoBw := 0
  upAudioBw := -1
  upVideoBw := -1

/-- PCMU is found usable. -/
theorem limited_download_is_ignored : ¬ RespectsLimits false limitedDownload 0 mulaw := by
  rintro ⟨hcheck, -⟩
  have hwithin := (hcheck.mp rfl).1 (by decide)
  exact absurd hwithin (by decide)

/-- The same limits. -/
theorem respectsLimits_iff_limitedDownload : RespectsLimits false limitedDownload 0 mulaw ↔
    (if min (64 : ℤ) 0 = 0 then Within (getAudioPayloadBandwidth mulaw) (max 64 0)
      else 1000 * min (64 : ℤ) 0 < 2 ^ 31 ∨ toInt (1000 * min (64 : ℤ) 0) < 0
        ∨ getAudioPayloadBandwidth mulaw ≤ toInt (1000 * min (64 : ℤ) 0))
      ∧ (limitedDownload.enabledCodecs ≠ [] ∨ limitedDownload.Allocated) := by
  refine respectsLimits_iff false limitedDownload 0 mulaw_audio ?_ (by decide) (by decide)
  intro codec hcodec
  obtain rfl : codec = mulaw := by
    simpa [enabledCodecs, limitedDownload, mulaw] using hcodec
  exact mulaw_audio

end CodecConfig

end MTalk.Phone
