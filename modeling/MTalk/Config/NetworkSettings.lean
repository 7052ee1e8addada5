import MTalk.Config.LpConfig

/-!
# The network and RTP settings

The reading of the sections `net` and `rtp` and their writing at the end of the program. Saving what
was just read changes no stored value and no setting, except where the number in the text was not
in its printed form, where the video port is zero, and where the jitter compensation of the video
stream differs from that of the audio stream, which is written in its place.
-/

namespace MTalk.Config

open CStrings LpConfig

structure NetConf where
  natAddress : Option String
  stunServer : Option String
  downloadBw : ℤ
  uploadBw : ℤ
  firewallPolicy : ℤ
  mtu : ℤ
  natSdpOnly : ℤ

structure RtpConf where
  audioRtpPort : ℤ
  videoRtpPort : ℤ
  audioJittComp : ℤ
  videoJittComp : ℤ
  nortpTimeout : ℤ

/-- The members of `CLinphoneCore` that the settings are kept in, and the last argument of
`ms_set_mtu`. -/
structure NetworkCore where
  netConf : NetConf
  rtpConf : RtpConf
  audioBw : ℤ
  dwAudioBw : ℤ
  dwVideoBw : ℤ
  upAudioBw : ℤ
  upVideoBw : ℤ
  applyNatSettings : Bool
  msMtu : ℤ

namespace NetworkCore

def linphoneCoreSetDownloadBandwidth (s : NetworkCore) (bw : ℤ) : NetworkCore :=
  let s := { s with netConf := { s.netConf with downloadBw := bw } }
  if bw = 0 then { s with dwAudioBw := -1, dwVideoBw := -1 }
  else
    { s with
      dwAudioBw := min s.audioBw bw
      dwVideoBw := max (bw - min s.audioBw bw - 10) 0 }

def linphoneCoreSetUploadBandwidth (s : NetworkCore) (bw : ℤ) : NetworkCore :=
  let s := { s with netConf := { s.netConf with uploadBw := bw } }
  if bw = 0 then { s with upAudioBw := -1, upVideoBw := -1 }
  else
    { s with
      upAudioBw := min s.audioBw bw
      upVideoBw := max (bw - min s.audioBw bw - 10) 0 }

def linphoneCoreSetStunServer (s : NetworkCore) (server : Option String) : NetworkCore :=
  { s with netConf := { s.netConf with stunServer := server }, applyNatSettings := true }

def linphoneCoreSetNatAddress (s : NetworkCore) (addr : Option String) : NetworkCore :=
  { s with netConf := { s.netConf with natAddress := addr }, applyNatSettings := true }

def linphoneCoreSetFirewallPolicy (s : NetworkCore) (pol : ℤ) : NetworkCore :=
  { s with netConf := { s.netConf with firewallPolicy := pol }, applyNatSettings := true }

/-- `linphone_core_set_mtu`: the setting is kept as it is, the stream library gets at least 500. -/
def linphoneCoreSetMtu (s : NetworkCore) (mtu : ℤ) : NetworkCore :=
  { s with
    netConf := { s.netConf with mtu := mtu }
    msMtu := if 0 < mtu then max mtu 500 else 0 }

/-- `net_config_read`. The member `nat_sdp_only` is an unsigned char. -/
def netConfigRead (c : LpConfig) (s : NetworkCore) : NetworkCore :=
  let s := s.linphoneCoreSetDownloadBandwidth (c.getInt "net" "download_bw" 0)
  let s := s.linphoneCoreSetUploadBandwidth (c.getInt "net" "upload_bw" 0)
  let s := s.linphoneCoreSetStunServer (c.getString "net" "stun_server")
  let s := s.linphoneCoreSetNatAddress ((c.getString "net" "nat_address").filter (· ≠ ""))
  let s := s.linphoneCoreSetFirewallPolicy (c.getInt "net" "firewall_policy" 0)
  let s := { s with
    netConf := { s.netConf with natSdpOnly := c.getInt "net" "nat_sdp_only" 0 % 256 } }
  s.linphoneCoreSetMtu (c.getInt "net" "mtu" 0)

/-- The video port that `rtp_config_read` takes for a stored one. -/
def videoPort (port : ℤ) : ℤ := if port = 0 then 9078 else port

/-- `rtp_config_read`. The stored value of `video_jitt_comp` is read and not used. -/
def rtpConfigRead (c : LpConfig) (s : NetworkCore) : NetworkCore :=
  { s with
    rtpConf :=
      { s.rtpConf with
        audioRtpPort := c.getInt "rtp" "audio_rtp_port" 7078
        videoRtpPort := videoPort (c.getInt "rtp" "video_rtp_port" 9078)
        audioJittComp := c.getInt "rtp" "audio_jitt_comp" 60
        nortpTimeout := c.getInt "rtp" "nortp_timeout" 30 } }

/-- `net_config_uninit`. -/
def netConfigUninit (s : NetworkCore) (c : LpConfig) : LpConfig :=
  let c := c.setInt "net" "download_bw" s.netConf.downloadBw
  let c := c.setInt "net" "upload_bw" s.netConf.uploadBw
  let c := setOptional c "net" "stun_server" s.netConf.stunServer
  let c := setOptional c "net" "nat_address" s.netConf.natAddress
  let c := c.setInt "net" "firewall_policy" s.netConf.firewallPolicy
  c.setInt "net" "mtu" s.netConf.mtu

/-- `rtp_config_uninit`, with the audio value under `video_jitt_comp`. -/
def rtpConfigUninit (s : NetworkCore) (c : LpConfig) : LpConfig :=
  let c := c.setInt "rtp" "audio_rtp_port" s.rtpConf.audioRtpPort
  let c := c.setInt "rtp" "video_rtp_port" s.rtpConf.videoRtpPort
  let c := c.setInt "rtp" "audio_jitt_comp" s.rtpConf.audioJittComp
  let c := c.setInt "rtp" "video_jitt_comp" s.rtpConf.audioJittComp
  c.setInt "rtp" "nortp_timeout" s.rtpConf.nortpTimeout

/-- The settings of a core that was started with a configuration. -/
def load (c : LpConfig) (s : NetworkCore) : NetworkCore := rtpConfigRead c (netConfigRead c s)

/-- The configuration that a core leaves. -/
def save (s : NetworkCore) (c : LpConfig) : LpConfig := rtpConfigUninit s (netConfigUninit s c)

/-- The keys of the two sections. -/
def keys : List (String × String) :=
  [("net", "download_bw"), ("net", "upload_bw"), ("net", "stun_server"), ("net", "nat_address"),
    ("net", "firewall_policy"), ("net", "nat_sdp_only"), ("net", "mtu"),
    ("rtp", "audio_rtp_port"), ("rtp", "video_rtp_port"), ("rtp", "audio_jitt_comp"),
    ("rtp", "video_jitt_comp"), ("rtp", "nortp_timeout")]

/-- Saving right after loading leaves the stored values, and the next load gives the same
settings. -/
def SaveIsIdentity (c : LpConfig) (s : NetworkCore) : Prop :=
  (∀ k ∈ keys, ∀ v, c.getString k.1 k.2 = some v →
      (save (load c s) c).getString k.1 k.2 = some v)
    ∧ load (save (load c s) c) s = load c s

/-- The number that is read from a text is printed as the same text. -/
def Canonical (text : String) : Prop := toString ((atoi text).bmod (2 ^ 32)) = text

/-- The keys whose number is written as it was read. -/
def plainKeys : List (String × String) :=
  [("net", "download_bw"), ("net", "upload_bw"), ("net", "firewall_policy"), ("net", "mtu"),
    ("rtp", "audio_rtp_port"), ("rtp", "video_rtp_port"), ("rtp", "audio_jitt_comp"),
    ("rtp", "nortp_timeout")]

/-- The stored numbers are in their printed form, the video port is not zero, and the jitter
compensation of the video stream is that of the audio stream. -/
structure Agreeing (c : LpConfig) : Prop where
  canonical : ∀ k ∈ plainKeys, ∀ v, c.getString k.1 k.2 = some v → Canonical v
  videoPort : c.getString "rtp" "video_rtp_port" ≠ some "0"
  videoJitt : ∀ v, c.getString "rtp" "video_jitt_comp" = some v →
    toString (c.getInt "rtp" "audio_jitt_comp" 60) = v

/-! What saving writes. -/

/-- The values that saving writes, in order. -/
def writes (s : NetworkCore) : List Write :=
  [⟨("net", "download_bw"), some (toString s.netConf.downloadBw)⟩,
    ⟨("net", "upload_bw"), some (toString s.netConf.uploadBw)⟩,
    ⟨("net", "stun_server"), s.netConf.stunServer⟩,
    ⟨("net", "nat_address"), s.netConf.natAddress⟩,
    ⟨("net", "firewall_policy"), some (toString s.netConf.firewallPolicy)⟩,
    ⟨("net", "mtu"), some (toString s.netConf.mtu)⟩,
    ⟨("rtp", "audio_rtp_port"), some (toString s.rtpConf.audioRtpPort)⟩,
    ⟨("rtp", "video_rtp_port"), some (toString s.rtpConf.videoRtpPort)⟩,
    ⟨("rtp", "audio_jitt_comp"), some (toString s.rtpConf.audioJittComp)⟩,
    ⟨("rtp", "video_jitt_comp"), some (toString s.rtpConf.audioJittComp)⟩,
    ⟨("rtp", "nortp_timeout"), some (toString s.rtpConf.nortpTimeout)⟩]

lemma save_eq (s : NetworkCore) (c : LpConfig) :
    save s c = writeAll (writes s) c := by
  simp only [writes, writeAll, List.foldl_cons, List.foldl_nil, save, rtpConfigUninit,
    netConfigUninit, setInt, setOptional]

lemma writes_keys (s : NetworkCore) : ((writes s).map Write.key).Nodup := by
  simp [writes]

lemma getString_save {s : NetworkCore} {w : Write} (hw : w ∈ writes s) (c : LpConfig) :
    (save s c).getString w.key.1 w.key.2 = w.value.or (c.getString w.key.1 w.key.2) := by
  rw [save_eq]
  exact getString_writes (writes_keys s) hw c

/-- Saving leaves the stored values exactly when each value that it writes over another one is the
same. -/
lemma unchanged_iff (s : NetworkCore) (c : LpConfig) :
    (∀ k ∈ keys, ∀ v, c.getString k.1 k.2 = some v → (save s c).getString k.1 k.2 = some v)
      ↔ ∀ w ∈ writes s, ∀ x ∈ w.value, ∀ v, c.getString w.key.1 w.key.2 = some v → x = v := by
  constructor
  · intro h w hw x hx v hv
    have hkey : w.key ∈ keys := by
      have hall : ∀ u ∈ writes s, u.key ∈ keys := by
        simp [writes, keys]
      exact hall w hw
    have hsaved := h w.key hkey v hv
    rw [getString_save hw, Option.mem_def.mp hx, Option.some_or] at hsaved
    exact Option.some.inj hsaved
  · intro h k hk v hv
    by_cases hkey : ∃ w ∈ writes s, w.key = k
    · obtain ⟨w, hw, rfl⟩ := hkey
      rw [getString_save hw]
      cases hvalue : w.value with
      | none => exact hv
      | some x => rw [Option.some_or, h w hw x (by rw [hvalue]; rfl) v hv]
    · have hother : ∀ w ∈ writes s, w.key ≠ k := fun w hw hsame => hkey ⟨w, hw, hsame⟩
      rw [save_eq, getString_writes_of_notMem hother]
      exact hv

/-! The numbers. -/

lemma getInt_of_some {c : LpConfig} {name key v : String} (h : c.getString name key = some v)
    (default : ℤ) : c.getInt name key default = (atoi v).bmod (2 ^ 32) := by
  unfold getInt
  rw [h]

/-- A number that was read is in the range of the type. -/
lemma getInt_bmod (c : LpConfig) (name key : String) {default : ℤ}
    (hdefault : default.bmod (2 ^ 32) = default) :
    (c.getInt name key default).bmod (2 ^ 32) = c.getInt name key default := by
  unfold getInt
  split
  · rw [Int.bmod_bmod]
  · exact hdefault

/-- A number that was written is read again. -/
lemma getInt_printed {c : LpConfig} {name key : String} {n : ℤ} (hn : n.bmod (2 ^ 32) = n)
    (h : c.getString name key = some (toString n)) (default : ℤ) :
    c.getInt name key default = n := by
  rw [getInt_of_some h, atoi_toString, hn]

/-! The settings after a load. -/

/-- The settings that loading takes over. -/
lemma load_netConf (c : LpConfig) (s : NetworkCore) : (load c s).netConf =
    { natAddress := (c.getString "net" "nat_address").filter (· ≠ "")
      stunServer := c.getString "net" "stun_server"
      downloadBw := c.getInt "net" "download_bw" 0
      uploadBw := c.getInt "net" "upload_bw" 0
      firewallPolicy := c.getInt "net" "firewall_policy" 0
      mtu := c.getInt "net" "mtu" 0
      natSdpOnly := c.getInt "net" "nat_sdp_only" 0 % 256 } := by
  unfold load rtpConfigRead netConfigRead linphoneCoreSetDownloadBandwidth
    linphoneCoreSetUploadBandwidth
  dsimp only
  split_ifs <;> rfl

lemma load_rtpConf (c : LpConfig) (s : NetworkCore) : (load c s).rtpConf =
    { audioRtpPort := c.getInt "rtp" "audio_rtp_port" 7078
      videoRtpPort := videoPort (c.getInt "rtp" "video_rtp_port" 9078)
      audioJittComp := c.getInt "rtp" "audio_jitt_comp" 60
      videoJittComp := s.rtpConf.videoJittComp
      nortpTimeout := c.getInt "rtp" "nortp_timeout" 30 } := by
  unfold load rtpConfigRead netConfigRead linphoneCoreSetDownloadBandwidth
    linphoneCoreSetUploadBandwidth
  dsimp only
  split_ifs <;> rfl

/-- A load reads a configuration through these values only. -/
lemma load_congr {c c' : LpConfig} (s : NetworkCore)
    (hdownload : c'.getInt "net" "download_bw" 0 = c.getInt "net" "download_bw" 0)
    (hupload : c'.getInt "net" "upload_bw" 0 = c.getInt "net" "upload_bw" 0)
    (hstun : c'.getString "net" "stun_server" = c.getString "net" "stun_server")
    (hnat : (c'.getString "net" "nat_address").filter (· ≠ "")
      = (c.getString "net" "nat_address").filter (· ≠ ""))
    (hfirewall : c'.getInt "net" "firewall_policy" 0 = c.getInt "net" "firewall_policy" 0)
    (hsdp : c'.getInt "net" "nat_sdp_only" 0 = c.getInt "net" "nat_sdp_only" 0)
    (hmtu : c'.getInt "net" "mtu" 0 = c.getInt "net" "mtu" 0)
    (haudio : c'.getInt "rtp" "audio_rtp_port" 7078 = c.getInt "rtp" "audio_rtp_port" 7078)
    (hvideo : videoPort (c'.getInt "rtp" "video_rtp_port" 9078)
      = videoPort (c.getInt "rtp" "video_rtp_port" 9078))
    (hjitt : c'.getInt "rtp" "audio_jitt_comp" 60 = c.getInt "rtp" "audio_jitt_comp" 60)
    (htimeout : c'.getInt "rtp" "nortp_timeout" 30 = c.getInt "rtp" "nortp_timeout" 30) :
    load c' s = load c s := by
  unfold load rtpConfigRead netConfigRead
  rw [hdownload, hupload, hstun, hnat, hfirewall, hsdp, hmtu, haudio, hvideo, hjitt, htimeout]

lemma videoPort_bmod {port : ℤ} (h : port.bmod (2 ^ 32) = port) :
    (videoPort port).bmod (2 ^ 32) = videoPort port := by
  unfold videoPort
  split_ifs
  · decide
  · exact h

lemma videoPort_videoPort (port : ℤ) : videoPort (videoPort port) = videoPort port := by
  unfold videoPort
  split_ifs <;> simp_all

/-- The next load after saving gives the same settings. -/
theorem load_save (c : LpConfig) (s : NetworkCore) : load (save (load c s) c) s = load c s := by
  have hsaved : ∀ w ∈ writes (load c s), (save (load c s) c).getString w.key.1 w.key.2
      = w.value.or (c.getString w.key.1 w.key.2) := fun w hw => getString_save hw c
  simp only [writes, load_netConf, load_rtpConf, List.forall_mem_cons, Option.some_or] at hsaved
  obtain ⟨hdownload, hupload, hstun, hnat, hfirewall, hmtu, haudio, hvideo, hjitt, -, htimeout,
    -⟩ := hsaved
  apply load_congr
  · exact getInt_printed (getInt_bmod _ _ _ rfl) hdownload 0
  · exact getInt_printed (getInt_bmod _ _ _ rfl) hupload 0
  · rw [hstun]
    cases c.getString "net" "stun_server" with
    | none => rfl
    | some v => rfl
  · rw [hnat]
    cases c.getString "net" "nat_address" with
    | none => rfl
    | some v =>
      by_cases hv : v = ""
      · simp [Option.filter, hv]
      · simp [Option.filter, hv]
  · exact getInt_printed (getInt_bmod _ _ _ rfl) hfirewall 0
  · apply getInt_congr
    have hother : ∀ w ∈ writes (load c s), w.key ≠ ("net", "nat_sdp_only") := by
      simp [writes]
    rw [save_eq]
    exact getString_writes_of_notMem hother c
  · exact getInt_printed (getInt_bmod _ _ _ rfl) hmtu 0
  · exact getInt_printed (getInt_bmod _ _ _ rfl) haudio 7078
  · rw [getInt_printed (videoPort_bmod (getInt_bmod _ _ _ rfl)) hvideo, videoPort_videoPort]
  · exact getInt_printed (getInt_bmod _ _ _ rfl) hjitt 60
  · exact getInt_printed (getInt_bmod _ _ _ rfl) htimeout 30

/-! Saving and the stored values. -/

/-- A number that is written as it was read stays when its text is in the printed form. -/
lemma printed_iff (c : LpConfig) (name key : String) (default : ℤ) :
    (∀ v, c.getString name key = some v → toString (c.getInt name key default) = v)
      ↔ ∀ v, c.getString name key = some v → Canonical v := by
  apply forall_congr'
  intro v
  apply imp_congr_right
  intro hv
  rw [getInt_of_some hv, Canonical]

lemma canonical_zero : Canonical "0" := by
  unfold Canonical
  decide +kernel

/-- The video port is only changed if it is zero. -/
lemma printed_videoPort_iff (c : LpConfig) :
    (∀ v, c.getString "rtp" "video_rtp_port" = some v →
        toString (videoPort (c.getInt "rtp" "video_rtp_port" 9078)) = v)
      ↔ (∀ v, c.getString "rtp" "video_rtp_port" = some v → Canonical v)
        ∧ c.getString "rtp" "video_rtp_port" ≠ some "0" := by
  constructor
  · intro h
    have hne : c.getString "rtp" "video_rtp_port" ≠ some "0" := by
      intro hzero
      have hprinted := h "0" hzero
      rw [getInt_of_some hzero] at hprinted
      revert hprinted
      decide +kernel
    refine ⟨?_, hne⟩
    intro v hv
    have hprinted := h v hv
    rw [getInt_of_some hv, videoPort] at hprinted
    split_ifs at hprinted with hzero
    · rw [← hprinted] at hzero
      exact absurd hzero (by decide +kernel)
    · exact hprinted
  · rintro ⟨hcanonical, hne⟩ v hv
    have hprinted := hcanonical v hv
    unfold Canonical at hprinted
    rw [getInt_of_some hv, videoPort, if_neg, hprinted]
    intro hzero
    rw [hzero] at hprinted
    exact hne (by rw [hv, ← hprinted]; rfl)

/-- The texts are written as they were read. -/
lemma text_unchanged (text : Option String) (p : String → Bool) :
    ∀ x ∈ text.filter p, ∀ v, text = some v → x = v := by
  intro x hx v hv
  rw [Option.mem_def, Option.filter_eq_some_iff, hv] at hx
  exact (Option.some.inj hx.1).symm

/-- Saving right after loading changes nothing exactly when the stored numbers are printed numbers,
the video port is not zero and the jitter compensations agree. -/
theorem saveIsIdentity_iff (c : LpConfig) (s : NetworkCore) :
    SaveIsIdentity c s ↔ Agreeing c := by
  have hstun : ∀ x ∈ c.getString "net" "stun_server", ∀ v,
      c.getString "net" "stun_server" = some v → x = v := by
    intro x hx v hv
    rw [hv] at hx
    exact (Option.some.inj hx).symm
  have hnat := text_unchanged (c.getString "net" "nat_address") (· ≠ "")
  unfold SaveIsIdentity
  rw [unchanged_iff, and_iff_left (load_save c s)]
  simp only [writes, load_netConf, load_rtpConf, List.forall_mem_cons, Option.mem_some_iff,
    forall_eq', printed_iff, printed_videoPort_iff]
  constructor
  · rintro ⟨hdownload, hupload, -, -, hfirewall, hmtu, haudio, ⟨hvideo, hzero⟩, hjitt, hvideoJitt,
      htimeout, -⟩
    refine ⟨?_, hzero, hvideoJitt⟩
    simp only [plainKeys, List.forall_mem_cons]
    exact ⟨hdownload, hupload, hfirewall, hmtu, haudio, hvideo, hjitt, htimeout, by simp⟩
  · rintro ⟨hcanonical, hzero, hvideoJitt⟩
    simp only [plainKeys, List.forall_mem_cons] at hcanonical
    obtain ⟨hdownload, hupload, hfirewall, hmtu, haudio, hvideo, hjitt, htimeout, -⟩ := hcanonical
    exact ⟨hdownload, hupload, hstun, hnat, hfirewall, hmtu, haudio, ⟨hvideo, hzero⟩, hjitt,
      hvideoJitt, htimeout, by simp⟩

/-- A configuration with the jitter compensation of the video stream only. -/
def videoJittConfig : LpConfig := [⟨"rtp", [⟨"video_jitt_comp", "80"⟩]⟩]

/-- The members at the start of the program. -/
def freshCore : NetworkCore where
  netConf := ⟨none, none, 0, 0, 0, 0, 0⟩
  rtpConf := ⟨0, 0, 0, 0, 0⟩
  audioBw := 0
  dwAudioBw := 0
  dwVideoBw := 0
  upAudioBw := 0
  upVideoBw := 0
  applyNatSettings := false
  msMtu := 0

/-- A jitter compensation of the video stream is overwritten. -/
theorem video_jitt_comp_is_overwritten : ¬ SaveIsIdentity videoJittConfig freshCore := by
  intro h
  have hjitt := h.1 ("rtp", "video_jitt_comp") (by simp [keys]) "80" (by decide +kernel)
  revert hjitt
  decide +kernel

end NetworkCore

end MTalk.Config
