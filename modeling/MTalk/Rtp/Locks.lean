import MTalk.Rtp.SessionRuns

/-!
# Locking on a source

A session takes packets of one source. It changes to another source after a row of packets of it,
and what is queued and returned after that is of the new source.
-/

namespace MTalk.Rtp

/-- What has been returned since the last resynchronization, with some messages before it. -/
def collect (ms : List Message) (reports : List Report) : List Message :=
  reports.foldl (fun ms r => match r with
    | .resync => []
    | .returned m _ => ms ++ [m]
    | _ => ms) ms

/-- The messages that have been returned since the last resynchronization. -/
def sinceResync (reports : List Report) : List Message := collect [] reports

@[simp] lemma sinceResync_append (r r' : List Report) :
    sinceResync (r ++ r') = collect (sinceResync r) r' := List.foldl_append

@[simp] lemma collect_append (ms : List Message) (r r' : List Report) :
    collect ms (r ++ r') = collect (collect ms r) r' := List.foldl_append

@[simp] lemma collect_nil (ms : List Message) : collect ms [] = ms := rfl

@[simp] lemma collect_freeAll (ms old : List Message) : collect ms (freeAll old) = ms := by
  induction old with
  | nil => rfl
  | cons m old ih => exact ih

@[simp] lemma collect_resync (ms : List Message) (reports : List Report) :
    collect ms (.resync :: reports) = collect [] reports := rfl

@[simp] lemma collect_freed (ms : List Message) (block : ℕ) :
    collect ms [.freed block] = ms := rfl

lemma mem_queue_of_mem {q : List Message} {maxrqsz : ℕ} {m m' : Message}
    (h : m' ∈ (queuePacket q maxrqsz m).queue) : m' = m ∨ m' ∈ q := by
  have hperm := perm_queuePacket q maxrqsz m
  exact List.mem_cons.mp (hperm.mem_iff.mp (List.mem_append_left _ h))

namespace Session

variable {J : Type} {e : Setup J}

/-- What the session knows about sources. -/
def lock (s : Session J) : Bool × BitVec 32 × BitVec 32 × ℕ :=
  (s.ssrcSet, s.rcvSsrc, s.incSsrcCandidate, s.incSameSsrcCount)

/-- Everything is of the source that the session is locked on. -/
structure OneSource (reports : List Report) (s : Session J) : Prop where
  queued : ∀ m ∈ s.rq, m.rtp.ssrc = s.rcvSsrc
  returned : ∀ m ∈ sinceResync reports, m.rtp.ssrc = s.rcvSsrc
  unset : s.ssrcSet = false → s.rq = [] ∧ sinceResync reports = []

variable {reports : List Report} {s : Session J}

lemma oneSource_resync (reports : List Report) (s : Session J) :
    OneSource (reports ++ (s.resync e).2) (s.resync e).1 where
  queued := by simp [resync]
  returned := by simp [resync]
  unset := by simp [resync]

lemma OneSource.checkSsrc (h : OneSource reports s) {rtp : Header}
    {x : Session J × List Report × Bool} (hx : SsrcChecked e s rtp x) :
    OneSource (reports ++ x.2.1) x.1 ∧
      (x.2.2 = true → x.1.ssrcSet = true ∧ x.1.rcvSsrc = rtp.ssrc) := by
  obtain ⟨count, hcount⟩ := s.countCandidate_eq rtp.ssrc
  cases hx with
  | locks hset =>
    obtain ⟨hrq, hsince⟩ := h.unset hset
    refine ⟨⟨?_, ?_, ?_⟩, fun _ => ⟨rfl, rfl⟩⟩
    · simp [hrq]
    · simp [hsince]
    · exact fun hfalse => absurd hfalse (by simp)
  | same hset hssrc =>
    refine ⟨⟨h.queued, ?_, ?_⟩, fun _ => ⟨hset, hssrc⟩⟩
    · simpa using h.returned
    · simpa using h.unset
  | foreign =>
    rw [hcount]
    refine ⟨⟨h.queued, ?_, ?_⟩, fun hfalse => absurd hfalse (by simp)⟩
    · simpa using h.returned
    · simpa using h.unset
  | changes hset _ _ s' hs' =>
    refine ⟨oneSource_resync reports s', fun _ => ?_⟩
    rw [hcount] at hs'
    subst hs'
    exact ⟨hset, rfl⟩

lemma OneSource.parseTelephoneEvent (h : OneSource reports s) (m : Message) :
    OneSource (reports ++ (s.parseTelephoneEvent e m).2) (s.parseTelephoneEvent e m).1 where
  queued := h.queued
  returned := by simpa [Session.parseTelephoneEvent] using h.returned
  unset := by simpa [Session.parseTelephoneEvent] using h.unset

/-- A media packet of the source is queued. -/
lemma OneSource.queuePacket (h : OneSource reports s) (hset : s.ssrcSet = true) {m : Message}
    (hm : s.rcvSsrc = m.rtp.ssrc) :
    OneSource (reports ++ freeAll (queuePacket s.rq e.maxRqSize m).freed)
      { s with rq := (Rtp.queuePacket s.rq e.maxRqSize m).queue } where
  queued := by
    intro m' hm'
    rcases mem_queue_of_mem hm' with rfl | hm'
    · exact hm.symm
    · exact h.queued m' hm'
  returned := by simpa using h.returned
  unset := fun hfalse => absurd (hset.symm.trans hfalse) (by simp)

lemma OneSource.checkTimestamp (h : OneSource reports s) {timestamp : BitVec 32}
    {x : Session J × List Report × Bool} (hx : TimestampChecked e s timestamp x) :
    OneSource (reports ++ x.2.1) x.1 ∧ x.1.ssrcSet = s.ssrcSet ∧ x.1.rcvSsrc = s.rcvSsrc := by
  have hsame : OneSource (reports ++ []) s := by simpa using h
  cases hx with
  | starting => exact ⟨hsame, rfl, rfl⟩
  | jump => exact ⟨oneSource_resync reports s, rfl, rfl⟩
  | late _ _ r s' hs' =>
    rcases hs' with hs' | hs'
    · obtain ⟨rfl, rfl⟩ := Prod.mk.inj hs'
      exact ⟨hsame, rfl, rfl⟩
    · obtain ⟨rfl, rfl⟩ := Prod.mk.inj hs'
      exact ⟨oneSource_resync reports s, rfl, rfl⟩
  | inTime => exact ⟨hsame, rfl, rfl⟩

lemma OneSource.free (h : OneSource reports s) (block : ℕ) :
    OneSource (reports ++ [.freed block]) s :=
  ⟨h.queued, by simpa using h.returned, by simpa using h.unset⟩

lemma OneSource.parseMedia (h : OneSource reports s) (hset : s.ssrcSet = true) {m : Message}
    (hm : s.rcvSsrc = m.rtp.ssrc) (localStrTs : BitVec 32) :
    OneSource (reports ++ (s.parseMedia e m localStrTs).2) (s.parseMedia e m localStrTs).1 := by
  obtain ⟨jittctl, hwRecvPt, tsJump, permissive, hfollow⟩ :=
    followPacket_eq (e := e) s m.rtp localStrTs
  rw [Session.parseMedia, hfollow]
  set t : Session J := { s with
    jittctl := jittctl, hwRecvPt := hwRecvPt, tsJump := tsJump, permissive := permissive } with ht
  have ht : OneSource reports t := ⟨h.queued, h.returned, h.unset⟩
  have hcheck := ht.checkTimestamp (timestampChecked (e := e) t m.rtp.timestamp)
  generalize t.checkTimestamp e m.rtp.timestamp = x at hcheck ⊢
  obtain ⟨u, jump, kept⟩ := x
  obtain ⟨hu, huset, hussrc⟩ := hcheck
  cases kept with
  | true =>
    have hqueue := OneSource.queuePacket (e := e) hu (huset.trans hset) (hussrc.trans hm)
    rwa [List.append_assoc] at hqueue
  | false =>
    have hfree := hu.free m.block
    rwa [List.append_assoc] at hfree

lemma OneSource.parsePacket (h : OneSource reports s) (m : Message) (localStrTs : BitVec 32) :
    OneSource (reports ++ (s.parsePacket e m localStrTs).2) (s.parsePacket e m localStrTs).1 := by
  have hcheck := h.checkSsrc (ssrcChecked (e := e) s m.rtp)
  rw [Session.parsePacket]
  generalize s.checkSsrc e m.rtp = x at hcheck ⊢
  obtain ⟨t, change, kept⟩ := x
  obtain ⟨ht, hkept⟩ := hcheck
  cases kept with
  | true =>
    obtain ⟨hset, hm⟩ := hkept rfl
    dsimp only
    rw [if_pos rfl]
    split_ifs
    · have htev := OneSource.parseTelephoneEvent (e := e) ht m
      rwa [List.append_assoc] at htev
    · have hmedia := OneSource.parseMedia (e := e) ht hset hm localStrTs
      rwa [List.append_assoc] at hmedia
  | false =>
    have hfree := ht.free m.block
    rwa [List.append_assoc] at hfree

lemma OneSource.rtpParse (h : OneSource reports s) (mp : Datagram) (localStrTs : BitVec 32) :
    OneSource (reports ++ (s.rtpParse e mp localStrTs).2) (s.rtpParse e mp localStrTs).1 := by
  cases hpacket : mp.packet with
  | some m =>
    rw [rtpParse_of_packet e hpacket]
    exact h.parsePacket m localStrTs
  | none =>
    rcases rtpParse_of_no_packet e hpacket s localStrTs with heq | heq
    · rw [heq]
      exact h.free mp.block
    · rw [heq]
      exact ⟨h.queued, by simpa [collect] using h.returned, by simpa [collect] using h.unset⟩

lemma collect_telephoneEvents (ms : List Message) (events : List Byte) :
    collect ms (events.map Report.telephoneEvent) = ms := by
  induction events with
  | nil => rfl
  | cons event events ih => exact ih

lemma collect_trashed (ms : List Message) (blocks : List ℕ) :
    collect ms (blocks.map Report.trashed) = ms := by
  induction blocks with
  | nil => rfl
  | cons block blocks ih => exact ih

lemma OneSource.checkTev (h : OneSource reports s) :
    OneSource (reports ++ s.checkTev.2) s.checkTev.1 := by
  cases hq : s.tevRq with
  | nil =>
    rw [checkTev_nil hq]
    exact ⟨h.queued, by simpa using h.returned, by simpa using h.unset⟩
  | cons mp q =>
    have hsince : sinceResync (reports ++ s.checkTev.2) = sinceResync reports := by
      rw [checkTev_cons hq, sinceResync_append, collect_append]
      exact collect_telephoneEvents _ _
    rw [checkTev_cons hq] at hsince ⊢
    exact ⟨h.queued, hsince ▸ h.returned, hsince ▸ h.unset⟩

lemma Synchronized.oneSource {t : Session J} {userTs : BitVec 32} (ht : Synchronized s userTs t)
    (h : OneSource reports s) : OneSource reports t ∧ lock t = lock s := by
  cases ht with
  | before => exact ⟨h, rfl⟩
  | @now mp q _ hrq =>
    have hmp : mp.rtp.ssrc = s.rcvSsrc := h.queued mp (hrq ▸ List.mem_cons_self)
    refine ⟨⟨?_, ?_, h.unset⟩, ?_⟩
    · exact fun m hm => (h.queued m hm).trans hmp.symm
    · exact fun m hm => (h.returned m hm).trans hmp.symm
    · simp only [lock, hmp]

/-- What is returned was queued, and what is queued then was so before. -/
lemma OneSource.getMedia (h : OneSource reports s) (userTs : BitVec 32) :
    OneSource (reports ++ (s.getMedia e userTs).2) (s.getMedia e userTs).1 ∧
      lock (s.getMedia e userTs).1 = lock s := by
  have hgot := mediaGot (e := e) s userTs
  generalize s.getMedia e userTs = x at hgot ⊢
  cases hgot with
  | starting => exact ⟨by simpa using h, rfl⟩
  | @nothing t ht q old htake =>
    obtain ⟨h, hlock⟩ := ht.oneSource h
    have hperm := perm_takeMessage (e := e) t userTs
    rw [htake] at hperm
    refine ⟨⟨?_, ?_, ?_⟩, hlock⟩
    · exact fun m hm => h.queued m (hperm.mem_iff.mp (by simp [hm]))
    · simpa using h.returned
    · intro hunset
      obtain ⟨hrq, hsince⟩ := h.unset hunset
      rw [hrq] at hperm
      have hnil := hperm.eq_nil
      simp only [List.append_eq_nil_iff] at hnil
      exact ⟨hnil.1.2, by simpa using hsince⟩
  | @message t ht mp q old htake jittctl changedTs change hchange =>
    obtain ⟨h, hlock⟩ := ht.oneSource h
    have hperm := perm_takeMessage (e := e) t userTs
    rw [htake] at hperm
    have hmp : mp ∈ t.rq := hperm.mem_iff.mp (by simp)
    have hsince : sinceResync (reports ++ (freeAll old ++ (change ++ [.returned mp changedTs]))) =
        sinceResync reports ++ [mp] := by
      rcases hchange with rfl | rfl
      · rw [sinceResync_append, collect_append, collect_freeAll]
        rfl
      · rw [sinceResync_append, collect_append, collect_freeAll]
        rfl
    refine ⟨⟨?_, ?_, ?_⟩, hlock⟩
    · exact fun m hm => h.queued m (hperm.mem_iff.mp (by simp [hm]))
    · rw [hsince]
      intro m hm
      rcases List.mem_append.mp hm with hm | hm
      · exact h.returned m hm
      · rw [List.mem_singleton.mp hm]
        exact h.queued mp hmp
    · intro hunset
      rw [(h.unset hunset).1] at hmp
      cases hmp

lemma OneSource.piece (h : OneSource reports s) (p : Piece) :
    OneSource (reports ++ (s.piece e p).2) (s.piece e p).1 := by
  cases p with
  | parse mp userTs => exact h.rtpParse mp userTs
  | query userTs =>
    obtain ⟨rcvQueryTsOffset, heq⟩ := s.startQuery_eq userTs
    rw [Session.piece, heq]
    exact ⟨h.queued, by simpa using h.returned, by simpa using h.unset⟩
  | checkTev => exact h.checkTev
  | getMedia userTs => exact (h.getMedia userTs).1
  | resync => exact oneSource_resync reports s
  | reset =>
    have hresync := oneSource_resync (e := e) reports { s with
      recvNotStarted := true, rcvTsOffset := 0, rcvQueryTsOffset := 0, rcvLastTs := 0
      rcvLastAppTs := 0 }
    exact ⟨hresync.queued, hresync.returned, fun _ => ⟨rfl, by simp [Session.piece, reset, resync]⟩⟩
  | flushSockets blocks =>
    have hsince : sinceResync (reports ++ blocks.map Report.trashed) = sinceResync reports := by
      rw [sinceResync_append]
      exact collect_trashed _ blocks
    exact ⟨h.queued, hsince ▸ h.returned, hsince ▸ h.unset⟩

lemma oneSource_create (jittctl : J) : OneSource [] (create e jittctl) where
  queued := by simp [create]
  returned := by simp [sinceResync]
  unset := fun _ => ⟨rfl, rfl⟩

lemma oneSource_play (jittctl : J) (pieces : List Piece) :
    OneSource ((create e jittctl).play e pieces).2 ((create e jittctl).play e pieces).1 :=
  run_rule e (P := fun _ => OneSource) (G := fun _ _ _ => True)
    (fun _ _ _ p h _ => h.piece p) (oneSource_create jittctl)
    (guarded_of_forall e (fun _ _ _ _ => trivial) _ _)

end Session

section Rows

variable {α : Type*}

lemma row_concat {n : ℕ} {a b : α} {l : List α} :
    List.replicate (n + 1) b <:+ l ++ [a] ↔ b = a ∧ List.replicate n b <:+ l := by
  rw [List.replicate_succ', List.suffix_concat_iff]
  constructor
  · rintro (hnil | ⟨t, heq, ht⟩)
    · simp at hnil
    · obtain ⟨rfl, hb⟩ := List.append_inj' heq rfl
      exact ⟨List.cons.inj hb |>.1, ht⟩
  · rintro ⟨rfl, h⟩
    exact .inr ⟨_, rfl, h⟩

end Rows

/-- The source of the packet that is looked at. -/
def Piece.source : Piece → Option (BitVec 32)
  | .parse mp _ => mp.packet.map fun m => m.rtp.ssrc
  | _ => none

/-- The sources of the packets that a session has looked at. -/
def heardSources (pieces : List Piece) : List (BitVec 32) := pieces.filterMap Piece.source

namespace Session

variable {J : Type} {e : Setup J}

/-- What the counter of a session says about the packets that it has looked at. -/
structure Locked (heard : List (BitVec 32)) (s : Session J) : Prop where
  set : s.ssrcSet = true ↔ heard ≠ []
  below : s.incSsrcCandidate ≠ s.rcvSsrc → s.incSameSsrcCount ≤ ssrcChangedThreshold
  row : List.replicate s.incSameSsrcCount s.incSsrcCandidate <:+ heard
  others : ∀ b n, b ≠ s.rcvSsrc → List.replicate (n + 1) b <:+ heard →
    b = s.incSsrcCandidate ∧ n ≤ s.incSameSsrcCount
  origin : heard ≠ [] → heard.head? = some s.rcvSsrc ∨
    List.replicate (ssrcChangedThreshold + 1) s.rcvSsrc <:+: heard

variable {heard : List (BitVec 32)} {s : Session J}

lemma Locked.of_lock (h : Locked heard s) {t : Session J} (ht : lock t = lock s) :
    Locked heard t := by
  simp only [lock, Prod.mk.injEq] at ht
  obtain ⟨hset, hssrc, hcandidate, hcount⟩ := ht
  refine ⟨?_, ?_, ?_, ?_, ?_⟩
  · exact hset ▸ h.set
  · rw [hssrc, hcandidate, hcount]
    exact h.below
  · rw [hcandidate, hcount]
    exact h.row
  · rw [hssrc, hcandidate, hcount]
    exact h.others
  · rw [hssrc]
    exact h.origin

lemma Locked.origin_concat (h : Locked heard s) (hset : s.ssrcSet = true) (ssrc : BitVec 32) :
    (heard ++ [ssrc]).head? = some s.rcvSsrc ∨
      List.replicate (ssrcChangedThreshold + 1) s.rcvSsrc <:+: heard ++ [ssrc] := by
  rcases h.origin (h.set.mp hset) with hhead | hrow
  · left
    rw [List.head?_append, hhead]
    rfl
  · exact .inr (hrow.trans (List.prefix_append _ _).isInfix)

lemma Locked.countCandidate (h : Locked heard s) {ssrc : BitVec 32} (hssrc : s.rcvSsrc ≠ ssrc) :
    List.replicate (s.countCandidate ssrc).incSameSsrcCount ssrc <:+ heard ++ [ssrc] ∧
      ∀ b n, List.replicate (n + 1) b <:+ heard ++ [ssrc] →
        b = ssrc ∧ n ≤ (s.countCandidate ssrc).incSameSsrcCount := by
  rw [Session.countCandidate]
  split_ifs with hcandidate
  · refine ⟨row_concat.mpr ⟨rfl, hcandidate ▸ h.row⟩, fun b n hn => ?_⟩
    obtain ⟨rfl, hrest⟩ := row_concat.mp hn
    refine ⟨rfl, ?_⟩
    cases n with
    | zero => exact Nat.zero_le _
    | succ n => exact Nat.succ_le_succ (h.others b n hssrc.symm hrest).2
  · refine ⟨List.nil_suffix, fun b n hn => ?_⟩
    obtain ⟨rfl, hrest⟩ := row_concat.mp hn
    refine ⟨rfl, ?_⟩
    cases n with
    | zero => exact le_rfl
    | succ n => exact absurd (h.others b n hssrc.symm hrest).1.symm hcandidate

lemma Locked.checkSsrc (h : Locked heard s) {rtp : Header} {x : Session J × List Report × Bool}
    (hx : SsrcChecked e s rtp x) : Locked (heard ++ [rtp.ssrc]) x.1 := by
  obtain ⟨count, hcount⟩ := s.countCandidate_eq rtp.ssrc
  cases hx with
  | locks hset =>
    have hheard : heard = [] := by
      by_contra hne
      rw [h.set.mpr hne] at hset
      cases hset
    have hzero : s.incSameSsrcCount = 0 := by
      have hrow := h.row
      rw [hheard, List.suffix_nil, List.replicate_eq_nil_iff] at hrow
      exact hrow
    subst hheard
    refine ⟨by simp, ?_, ?_, ?_, fun _ => .inl rfl⟩
    · exact fun _ => hzero.trans_le (Nat.zero_le _)
    · rw [hzero]
      exact List.nil_suffix
    · exact fun b n hb hn => absurd (row_concat (l := []).mp hn).1 hb
  | same hset hssrc =>
    refine ⟨by simp [hset], fun _ => Nat.zero_le _, List.nil_suffix, ?_, ?_⟩
    · exact fun b n hb hn => absurd ((row_concat.mp hn).1.trans hssrc.symm) hb
    · exact fun _ => h.origin_concat hset rtp.ssrc
  | foreign hset hssrc hbelow =>
    obtain ⟨hrow, hothers⟩ := h.countCandidate hssrc
    rw [hcount] at hbelow hrow hothers ⊢
    refine ⟨by simp [hset], fun _ => hbelow, hrow, ?_, ?_⟩
    · exact fun b n _ hn => hothers b n hn
    · exact fun _ => h.origin_concat hset rtp.ssrc
  | changes hset hssrc habove s' hs' =>
    obtain ⟨hrow, -⟩ := h.countCandidate hssrc
    rw [hcount] at habove hrow hs'
    subst hs'
    refine ⟨by simp [hset, resync], fun hne => absurd rfl hne, hrow, ?_, fun _ => .inr ?_⟩
    · exact fun b n hb hn => absurd (row_concat.mp hn).1 hb
    · have hshort : List.replicate (ssrcChangedThreshold + 1) rtp.ssrc <:+
          List.replicate count rtp.ssrc := by
        have hle : ssrcChangedThreshold + 1 ≤ count := habove
        have hsplit := List.replicate_add (count - (ssrcChangedThreshold + 1))
          (ssrcChangedThreshold + 1) rtp.ssrc
        rw [Nat.sub_add_cancel hle] at hsplit
        exact hsplit ▸ List.suffix_append _ _
      exact (hshort.trans hrow).isInfix

lemma lock_parseMedia (s : Session J) (m : Message) (localStrTs : BitVec 32) :
    lock (s.parseMedia e m localStrTs).1 = lock s := by
  obtain ⟨jittctl, hwRecvPt, tsJump, permissive, hfollow⟩ :=
    followPacket_eq (e := e) s m.rtp localStrTs
  rw [Session.parseMedia, hfollow]
  set t : Session J := { s with
    jittctl := jittctl, hwRecvPt := hwRecvPt, tsJump := tsJump, permissive := permissive } with ht
  have hcheck := timestampChecked (e := e) t m.rtp.timestamp
  generalize t.checkTimestamp e m.rtp.timestamp = x at hcheck ⊢
  cases hcheck with
  | starting => rfl
  | jump => rfl
  | late _ _ r s' hs' =>
    rcases hs' with hs' | hs'
    · obtain ⟨rfl, rfl⟩ := Prod.mk.inj hs'
      rfl
    · obtain ⟨rfl, rfl⟩ := Prod.mk.inj hs'
      rfl
  | inTime => rfl

lemma Locked.parsePacket (h : Locked heard s) (m : Message) (localStrTs : BitVec 32) :
    Locked (heard ++ [m.rtp.ssrc]) (s.parsePacket e m localStrTs).1 := by
  have hcheck := h.checkSsrc (ssrcChecked (e := e) s m.rtp)
  refine hcheck.of_lock ?_
  rw [Session.parsePacket]
  generalize s.checkSsrc e m.rtp = x
  obtain ⟨t, change, kept⟩ := x
  cases kept with
  | true =>
    dsimp only
    rw [if_pos rfl]
    split_ifs
    · rfl
    · exact lock_parseMedia t m localStrTs
  | false => rfl

lemma Locked.piece (h : Locked heard s) {reports : List Report} (hsource : OneSource reports s)
    {p : Piece} (hp : p ≠ .reset) : Locked (heard ++ heardSources [p]) (s.piece e p).1 := by
  cases p with
  | parse mp userTs =>
    rw [heardSources, List.filterMap_cons, Piece.source, Session.piece]
    cases hpacket : mp.packet with
    | some m =>
      rw [rtpParse_of_packet e hpacket]
      exact h.parsePacket m userTs
    | none =>
      rw [Option.map_none, List.filterMap_nil, List.append_nil]
      rcases rtpParse_of_no_packet e hpacket s userTs with heq | heq
      · rwa [heq]
      · rwa [heq]
  | query userTs =>
    obtain ⟨rcvQueryTsOffset, heq⟩ := s.startQuery_eq userTs
    refine (List.append_nil heard).symm ▸ h.of_lock ?_
    rw [Session.piece, heq]
    rfl
  | checkTev =>
    refine (List.append_nil heard).symm ▸ h.of_lock ?_
    rw [Session.piece]
    cases hq : s.tevRq with
    | nil => rw [checkTev_nil hq]
    | cons mp q =>
      rw [checkTev_cons hq]
      rfl
  | getMedia userTs =>
    exact (List.append_nil heard).symm ▸ h.of_lock (hsource.getMedia userTs).2
  | resync => exact (List.append_nil heard).symm ▸ h.of_lock rfl
  | reset => exact absurd rfl hp
  | flushSockets blocks => exact (List.append_nil heard).symm ▸ h

lemma locked_create (jittctl : J) : Locked [] (create e jittctl) where
  set := by simp [create]
  below := fun _ => Nat.zero_le _
  row := List.nil_suffix
  others := fun b n _ hn => by simp at hn
  origin := fun h => absurd rfl h

lemma locked_play (jittctl : J) (pieces : List Piece) (hreset : .reset ∉ pieces) :
    Locked (heardSources pieces) ((create e jittctl).play e pieces).1 := by
  have hguard : Guarded e (fun _ _ p => p ≠ Piece.reset) [] (create e jittctl) pieces := by
    refine guarded_of_forall e (fun p hp _ _ => ?_) _ _
    rintro rfl
    exact hreset hp
  have hrun := run_rule e
    (P := fun played reports s => Locked (heardSources played) s ∧ OneSource reports s) ?_
    ⟨locked_create jittctl, oneSource_create jittctl⟩ hguard
  · exact hrun.1
  · intro played reports s p ⟨hlocked, hsource⟩ hp
    refine ⟨?_, hsource.piece p⟩
    rw [heardSources, List.filterMap_append]
    exact hlocked.piece hsource hp

end Session

namespace Host

variable {J : Type} (e : Setup J)

/-- In every run the media that is queued and what has been returned since the last
resynchronization is of the source that the session is locked on. -/
theorem one_source (jittctl : J) (actions : List Action) (m : Message)
    (hm : m ∈ ((create e jittctl).run e actions).1.session.rq ∨
      m ∈ sinceResync ((create e jittctl).run e actions).2) :
    m.rtp.ssrc = ((create e jittctl).run e actions).1.session.rcvSsrc := by
  have hplay := Session.oneSource_play (e := e) jittctl ((create e jittctl).pieces e actions)
  rw [show Session.create e jittctl = (create e jittctl).session from rfl, play_pieces] at hplay
  rcases hm with hm | hm
  · exact hplay.queued m hm
  · exact hplay.returned m hm

theorem one_source_talk :
    (talk 7 1).rtp.ssrc =
      ((Host.create audioSetup (0, 0)).run audioSetup talkRun).1.session.rcvSsrc :=
  Host.one_source audioSetup (0, 0) talkRun ⟨talk 7 1, 1⟩ (.inr (by decide +kernel))

lemma reset_not_mem_pieces {h : Host J} {actions : List Action} (hreset : .reset ∉ actions) :
    .reset ∉ h.pieces e actions := by
  induction actions generalizing h with
  | nil => simp [pieces]
  | cons a actions ih =>
    rw [List.mem_cons, not_or] at hreset
    rw [pieces, List.mem_append, not_or]
    refine ⟨?_, ih hreset.2⟩
    cases a with
    | recvm userTs =>
      rw [stepPieces]
      split_ifs
      · simp
      · simp
    | reset => exact absurd rfl hreset.1
    | _ => simp [stepPieces]

/-- In every run without a reset the session is locked on the source of the last 52 packets that it
has looked at, if they have one source, and on no source but the one of the first packet or of 51
packets in a row. -/
theorem lock_changes (jittctl : J) (actions : List Action) (hreset : .reset ∉ actions) :
    let heard := heardSources ((create e jittctl).pieces e actions)
    let ssrc := ((create e jittctl).run e actions).1.session.rcvSsrc
    (∀ b, List.replicate 52 b <:+ heard → ssrc = b) ∧
      (heard ≠ [] → heard.head? = some ssrc ∨ List.replicate 51 ssrc <:+: heard) := by
  have hplay := Session.locked_play (e := e) jittctl ((create e jittctl).pieces e actions)
    (reset_not_mem_pieces e hreset)
  rw [show Session.create e jittctl = (create e jittctl).session from rfl, play_pieces] at hplay
  refine ⟨fun b hb => ?_, hplay.origin⟩
  by_contra hne
  obtain ⟨rfl, hcount⟩ := hplay.others b 51 (Ne.symm hne) hb
  have hbelow := hplay.below (Ne.symm hne)
  rw [ssrcChangedThreshold] at hbelow
  omega

theorem lock_changes_talk :
    let heard := heardSources ((Host.create audioSetup (0, 0)).pieces audioSetup talkRun)
    let ssrc := ((Host.create audioSetup (0, 0)).run audioSetup talkRun).1.session.rcvSsrc
    (∀ b, List.replicate 52 b <:+ heard → ssrc = b) ∧
      (heard ≠ [] → heard.head? = some ssrc ∨ List.replicate 51 ssrc <:+: heard) :=
  Host.lock_changes audioSetup (0, 0) talkRun (by simp [talkRun])

end Host

end MTalk.Rtp
