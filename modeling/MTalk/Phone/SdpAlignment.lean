import MTalk.Phone.SdpHandler

/-!
# Answers aligned with their offers

The answer that `sdp_context_get_answer` ought to give has a line for each offered line, built from
that line alone. The handler appends its lines but puts the payloads on the lines with the offer's
index, so that its answer is the aligned one only while every offered line gets an answer line.
-/

namespace MTalk.Phone

open CStrings

variable {App Msg : Type} {osip : Osip Msg}

namespace SdpMedia

/-- The part of a line that payloads and attributes do not change. -/
def heading (m : SdpMedia) : String × String × String := (m.media, m.port, m.proto)

def addRelay (relay relaySessionId : Option String) (m : SdpMedia) : SdpMedia :=
  let m := (relay.map fun r => m.addAttribute "relay-addr" r).getD m
  (relaySessionId.map fun s => m.addAttribute "relay-session-id" s).getD m

def addPtAttribute (pt : ℤ) (field : String) (value : Option String) (m : SdpMedia) : SdpMedia :=
  (value.map fun v => m.addAttribute field (toString pt ++ " " ++ v)).getD m

/-- The line with a payload, its rtpmap, its fmtp and, unless it has one already, its bandwidth. -/
def addCodec (payload : SdpPayload) (m : SdpMedia) : SdpMedia :=
  let m := ((m.addPayload (int2char payload.pt)).addPtAttribute payload.pt "rtpmap"
    payload.aRtpmap).addPtAttribute payload.pt "fmtp" payload.aFmtp
  if payload.bAsBandwidth ≠ 0 ∧ m.bandwidths.head? = none then
    m.addBandwidth "AS" (toString payload.bAsBandwidth)
  else m

@[simp] lemma heading_addPayload (m : SdpMedia) (payload : String) :
    (m.addPayload payload).heading = m.heading := rfl

@[simp] lemma heading_addAttribute (m : SdpMedia) (field value : String) :
    (m.addAttribute field value).heading = m.heading := rfl

@[simp] lemma heading_addBandwidth (m : SdpMedia) (bwtype bandwidth : String) :
    (m.addBandwidth bwtype bandwidth).heading = m.heading := rfl

@[simp] lemma heading_addRelay (m : SdpMedia) (relay session : Option String) :
    (m.addRelay relay session).heading = m.heading := by
  cases relay <;> cases session <;> rfl

@[simp] lemma heading_addPtAttribute (m : SdpMedia) (pt : ℤ) (field : String)
    (value : Option String) : (m.addPtAttribute pt field value).heading = m.heading := by
  cases value <;> rfl

@[simp] lemma heading_addCodec (m : SdpMedia) (payload : SdpPayload) :
    (m.addCodec payload).heading = m.heading := by
  unfold addCodec
  dsimp only
  split_ifs
  · simp
  · simp

end SdpMedia

/-! The aligned answer. -/

section Answered

variable (osip)

/-- The line that the first codec sets up. -/
def openedLine (ctx : SdpContext Msg) (init : SdpPayload) (m : SdpMedia) (payload : SdpPayload) :
    SdpMedia :=
  let line := SdpMedia.new m.media (int2char payload.localport) m.proto
  if ctx.relay.isSome ∧ init.relayHost.isSome then
    line.addRelay init.relayHost payload.relaySessionId
  else line

def refusedLine (m : SdpMedia) : SdpMedia :=
  (SdpMedia.new m.media (int2char 0) m.proto).addPayload (int2char 0)

/-- One payload of an offered line, on the line that answers it. -/
def answeredPayload (accept : App → SdpPayload → App × SdpPayload × ℤ) (ctx : SdpContext Msg)
    (m : SdpMedia) (init : SdpPayload) (p : App × Option SdpMedia) (pt : String) :
    App × Option SdpMedia :=
  let asked := accept p.1 (codecPayload osip init m pt)
  if asked.2.2 = 0 then
    (asked.1, some ((p.2.getD (openedLine ctx init m asked.2.1)).addCodec asked.2.1))
  else (asked.1, p.2)

def answeredLine (callback : Option (App → SdpPayload → App × SdpPayload × ℤ))
    (ctx : SdpContext Msg) (remote : Msg) (i : ℕ) (m : SdpMedia) (app : App) : App × SdpMedia :=
  match callback with
  | none => (app, refusedLine m)
  | some accept =>
    let p := m.payloads.foldl (answeredPayload osip accept ctx m (linePayload osip remote i m))
      (app, none)
    (p.1, p.2.getD (refusedLine m))

/-- The answer to an offered line; there is none for other media. -/
def answeredMedia (handler : SdpHandler App Msg) (ctx : SdpContext Msg) (remote : Msg) (i : ℕ)
    (m : SdpMedia) (app : App) : App × Option SdpMedia :=
  if startsWith "audio" m.media then
    (answeredLine osip handler.acceptAudioCodecs ctx remote i m app).map id some
  else if startsWith "video" m.media then
    (answeredLine osip handler.acceptVideoCodecs ctx remote i m app).map id some
  else (app, none)

/-- What is built for each offered line. -/
def answeredMedias (handler : SdpHandler App Msg) (ctx : SdpContext Msg) (remote : Msg) :
    ℕ → List SdpMedia → App → List (Option SdpMedia)
  | _, [], _ => []
  | i, m :: ms, app =>
    let answered := answeredMedia osip handler ctx remote i m app
    answered.2 :: answeredMedias handler ctx remote (i + 1) ms answered.1

/-- Each offered line has an answer line of its media type, and what was built for it is there. -/
structure Aligned (handler : SdpHandler App Msg) (app : App) (ctx : SdpContext Msg)
    (remote answer : Msg) : Prop where
  lines : (osip.medias answer).length = (osip.medias remote).length
  types : ∀ (k : ℕ) (m : SdpMedia), (osip.medias remote)[k]? = some m →
    ∃ l : SdpMedia, (osip.medias answer)[k]? = some l ∧ l.media = m.media
  stored : ∀ (k : ℕ) (l : SdpMedia),
    (answeredMedias osip handler ctx remote 0 (osip.medias remote) app)[k]? =
    some (some l) → (osip.medias answer)[k]? = some l

end Answered

/-! What the handler does to its message. -/

lemma map_modify_of_eq {α β : Type} {f : α → β} {g : α → α} (h : ∀ a, f (g a) = f a)
    (l : List α) (i : ℕ) : (l.modify i g).map f = l.map f := by
  induction l generalizing i with
  | nil => simp
  | cons a l ih =>
    cases i with
    | zero => simp [h]
    | succ i => simp [ih]

lemma modify_last {α : Type} (l : List α) (a : α) (g : α → α) :
    (l ++ [a]).modify l.length g = l ++ [g a] := by
  induction l with
  | nil => rfl
  | cons b l ih => simp [ih]

lemma modify_congr {α : Type} {f g : α → α} {l : List α} {i : ℕ}
    (h : ∀ a, l[i]? = some a → f a = g a) : l.modify i f = l.modify i g := by
  apply List.ext_getElem?
  intro j
  rw [List.getElem?_modify, List.getElem?_modify]
  split_ifs with hij
  · subst hij
    cases ha : l[i]? with
    | none => rfl
    | some a => exact congrArg some (h a ha)
  · rfl

lemma medias_addPtAttribute (sdp : Msg) (i : ℕ) (pt : ℤ) (field : String)
    (value : Option String) : osip.medias (addPtAttribute osip sdp i pt field value) =
      (osip.medias sdp).modify i (SdpMedia.addPtAttribute pt field value) := by
  cases value with
  | none => exact (List.modify_id i _).symm
  | some v => exact osip.medias_aAttributeAdd sdp i field _

lemma medias_addRelayInfo (sdp : Msg) (i : ℕ) (relay session : Option String) :
    osip.medias (addRelayInfo osip sdp i relay session) =
      (osip.medias sdp).modify i (SdpMedia.addRelay relay session) := by
  cases relay with
  | none =>
    cases session with
    | none => exact (List.modify_id i _).symm
    | some s => exact osip.medias_aAttributeAdd sdp i "relay-session-id" s
  | some r =>
    cases session with
    | none => exact osip.medias_aAttributeAdd sdp i "relay-addr" r
    | some s =>
      refine (osip.medias_aAttributeAdd _ i "relay-session-id" s).trans ?_
      rw [osip.medias_aAttributeAdd, List.modify_modify_eq]
      rfl

lemma medias_addCodec (sdp : Msg) (i : ℕ) (payload : SdpPayload) :
    osip.medias (addCodec osip sdp i payload) =
      (osip.medias sdp).modify i (SdpMedia.addCodec payload) := by
  unfold addCodec
  dsimp only
  generalize hsdp : addPtAttribute osip (addPtAttribute osip (osip.mPayloadAdd sdp i _) i _ _ _) i
    payload.pt "fmtp" payload.aFmtp = sdp'
  have hmedias : osip.medias sdp' = (osip.medias sdp).modify i fun m =>
      ((m.addPayload (int2char payload.pt)).addPtAttribute payload.pt "rtpmap"
        payload.aRtpmap).addPtAttribute payload.pt "fmtp" payload.aFmtp := by
    rw [← hsdp, medias_addPtAttribute, medias_addPtAttribute, osip.medias_mPayloadAdd,
      List.modify_modify_eq, List.modify_modify_eq]
    rfl
  have hget : ∀ m, (osip.medias sdp)[i]? = some m →
      bandwidthGet osip sdp' i = (((m.addPayload (int2char payload.pt)).addPtAttribute payload.pt
        "rtpmap" payload.aRtpmap).addPtAttribute payload.pt "fmtp"
          payload.aFmtp).bandwidths.head? := by
    intro m hm
    unfold bandwidthGet
    rw [hmedias, List.getElem?_modify_eq, hm]
    rfl
  split_ifs with hb
  · rw [osip.medias_bBandwidthAdd, hmedias, List.modify_modify_eq]
    apply modify_congr
    intro m hm
    rw [hget m hm] at hb
    exact (if_pos hb).symm
  · rw [hmedias]
    apply modify_congr
    intro m hm
    rw [hget m hm] at hb
    exact (if_neg hb).symm

lemma medias_refuseMline (answer : Msg) (m : SdpMedia) (i : ℕ) :
    osip.medias (refuseMline osip answer m.media m.proto i) =
      (osip.medias answer ++ [SdpMedia.new m.media (int2char 0) m.proto]).modify i
        (SdpMedia.addPayload (int2char 0)) := by
  unfold refuseMline
  rw [osip.medias_mPayloadAdd, osip.medias_mMediaAdd]

/-! The lines of the answer, line by line. -/

variable {handler : SdpHandler App Msg} {ctx : SdpContext Msg} {remote : Msg} {i : ℕ}
  {m : SdpMedia} {st : Answering App Msg} {before : List SdpMedia}

/-- The answer consists of the lines before and the line that is being built: as far as the
headings go, and altogether when the line has the offer's index. -/
structure Follows (osip : Osip Msg) (before : List SdpMedia) (i : ℕ) (st : Answering App Msg)
    (p : App × Option SdpMedia) : Prop where
  app : st.app = p.1
  opened : st.accepted = 0 ↔ p.2 = none
  headings : (osip.medias st.answer).map SdpMedia.heading =
    (before ++ p.2.toList).map SdpMedia.heading
  lines : before.length = i → osip.medias st.answer = before ++ p.2.toList

lemma addCodec_follows {app : App} {answer : Msg} {line : SdpMedia} {opened accepted : ℕ}
    (h : Follows osip before i ⟨app, answer, opened⟩ (app, some line)) (payload : SdpPayload) :
    Follows osip before i ⟨app, addCodec osip answer i payload, accepted + 1⟩
      (app, some (line.addCodec payload)) where
  app := rfl
  opened := by simp
  headings := by
    rw [medias_addCodec, map_modify_of_eq fun m => SdpMedia.heading_addCodec m payload, h.headings]
    simp
  lines hlen := by
    have hlines := h.lines hlen
    dsimp only at hlines ⊢
    rw [medias_addCodec, hlines, ← hlen]
    exact modify_last before line _

/-- The line is set up with the relay's address, where both sides use one. -/
lemma openLine_follows {app : App} {answer : Msg} (init : SdpPayload)
    (h : Follows osip before i ⟨app, answer, 0⟩ (app, none)) (payload : SdpPayload) :
    Follows osip before i
      ⟨app, if ctx.relay.isSome ∧ init.relayHost.isSome then
          addRelayInfo osip (osip.mMediaAdd answer m.media (int2char payload.localport) m.proto) i
            init.relayHost payload.relaySessionId
        else osip.mMediaAdd answer m.media (int2char payload.localport) m.proto, 1⟩
      (app, some (openedLine ctx init m payload)) := by
  have hheadings : (osip.medias answer).map SdpMedia.heading = before.map SdpMedia.heading := by
    simpa using h.headings
  have hlines : before.length = i → osip.medias answer = before := by
    simpa using h.lines
  unfold openedLine
  dsimp only
  split_ifs with hrelay
  · refine ⟨rfl, by simp, ?_, fun hlen => ?_⟩
    · dsimp only
      rw [medias_addRelayInfo, map_modify_of_eq fun m => SdpMedia.heading_addRelay m _ _,
        osip.medias_mMediaAdd]
      simp [hheadings]
    · dsimp only
      rw [medias_addRelayInfo, osip.medias_mMediaAdd, hlines hlen, ← hlen]
      exact modify_last before _ _
  · refine ⟨rfl, by simp, ?_, fun hlen => ?_⟩
    · dsimp only
      rw [osip.medias_mMediaAdd]
      simp [hheadings]
    · dsimp only
      rw [osip.medias_mMediaAdd, hlines hlen]
      rfl

lemma acceptPayload_follows {accept : App → SdpPayload → App × SdpPayload × ℤ}
    {init : SdpPayload} {p : App × Option SdpMedia} (h : Follows osip before i st p)
    (pt : String) : Follows osip before i (acceptPayload osip accept ctx i m init st pt)
      (answeredPayload osip accept ctx m init p pt) := by
  obtain ⟨app, answer, accepted⟩ := st
  obtain ⟨app', line⟩ := p
  obtain rfl : app = app' := h.app
  unfold acceptPayload answeredPayload
  dsimp only
  by_cases herr : (accept app (codecPayload osip init m pt)).2.2 = 0
  · rw [if_pos herr, if_pos herr]
    cases line with
    | none =>
      have hfirst : accepted = 0 := h.opened.mpr rfl
      rw [if_pos hfirst]
      apply addCodec_follows
      apply openLine_follows
      exact ⟨rfl, by simp, h.headings, h.lines⟩
    | some line =>
      have hfirst : accepted ≠ 0 := fun hzero => by simpa using h.opened.mp hzero
      rw [if_neg hfirst]
      apply addCodec_follows
      exact ⟨rfl, by simpa using hfirst, h.headings, h.lines⟩
  · rw [if_neg herr, if_neg herr]
    exact ⟨rfl, h.opened, h.headings, h.lines⟩

lemma payloads_follow (ctx : SdpContext Msg) (m : SdpMedia)
    (accept : App → SdpPayload → App × SdpPayload × ℤ) (init : SdpPayload)
    (payloads : List String) {p : App × Option SdpMedia} (h : Follows osip before i st p) :
    Follows osip before i (payloads.foldl (acceptPayload osip accept ctx i m init) st)
      (payloads.foldl (answeredPayload osip accept ctx m init) p) := by
  induction payloads generalizing st p with
  | nil => exact h
  | cons pt payloads ih => exact ih (acceptPayload_follows h pt)

/-- The lines so far, of which the answer has the headings, and which it has themselves as long as
there are as many of them as offered lines. -/
structure Answers (osip : Osip Msg) (before : List SdpMedia) (i : ℕ) (st : Answering App Msg) :
    Prop where
  short : before.length ≤ i
  headings : (osip.medias st.answer).map SdpMedia.heading = before.map SdpMedia.heading
  lines : before.length = i → osip.medias st.answer = before

lemma refuseMline_answers {app : App} {answer : Msg} {accepted accepted' : ℕ}
    (h : Answers osip before i ⟨app, answer, accepted⟩) :
    Answers osip (before ++ [refusedLine m]) (i + 1)
      ⟨app, refuseMline osip answer m.media m.proto i, accepted'⟩ where
  short := by simpa using h.short
  headings := by
    have hheadings := h.headings
    dsimp only at hheadings ⊢
    rw [medias_refuseMline, map_modify_of_eq fun m => SdpMedia.heading_addPayload m _]
    simp [hheadings, refusedLine]
  lines hlen := by
    have hlen' : before.length = i := by simpa using hlen
    have hlines := h.lines hlen'
    dsimp only at hlines ⊢
    rw [medias_refuseMline, hlines, ← hlen']
    exact modify_last before _ _

lemma answerLine_answers (callback : Option (App → SdpPayload → App × SdpPayload × ℤ))
    (h : Answers osip before i st) :
    (answerLine osip callback ctx remote i m st).app =
        (answeredLine osip callback ctx remote i m st.app).1 ∧
      Answers osip (before ++ [(answeredLine osip callback ctx remote i m st.app).2]) (i + 1)
        (answerLine osip callback ctx remote i m st) := by
  cases callback with
  | none => exact ⟨rfl, refuseMline_answers h⟩
  | some accept =>
    have hstart : Follows osip before i ⟨st.app, st.answer, 0⟩ (st.app, none) :=
      ⟨rfl, by simp, by simpa using h.headings, by simpa using h.lines⟩
    have hline := payloads_follow ctx m accept (linePayload osip remote i m) m.payloads hstart
    unfold answerLine answeredLine
    dsimp only
    generalize m.payloads.foldl (acceptPayload osip accept ctx i m _) _ = line at hline ⊢
    generalize m.payloads.foldl (answeredPayload osip accept ctx m _) _ = p at hline ⊢
    obtain ⟨app, built⟩ := p
    cases built with
    | none =>
      rw [if_pos (hline.opened.mpr rfl)]
      have hrefused : Answers osip before i ⟨line.app, line.answer, 0⟩ :=
        ⟨h.short, by simpa using hline.headings, by simpa using hline.lines⟩
      exact ⟨hline.app, refuseMline_answers hrefused⟩
    | some built =>
      have hopened : line.accepted ≠ 0 := fun hzero => by simpa using hline.opened.mp hzero
      rw [if_neg hopened]
      refine ⟨hline.app, by simpa using h.short, hline.headings, fun hlen => hline.lines ?_⟩
      simpa using hlen

/-- Whether the line is one that the handler answers. -/
def IsAudioOrVideo (m : SdpMedia) : Prop :=
  startsWith "audio" m.media = true ∨ startsWith "video" m.media = true

lemma answerMedia_answers (handler : SdpHandler App Msg) (ctx : SdpContext Msg) (remote : Msg)
    (m : SdpMedia) (h : Answers osip before i st) :
    (answerMedia osip handler ctx remote i m st).app =
        (answeredMedia osip handler ctx remote i m st.app).1 ∧
      Answers osip (before ++ (answeredMedia osip handler ctx remote i m st.app).2.toList) (i + 1)
        (answerMedia osip handler ctx remote i m st) := by
  unfold answerMedia answeredMedia
  split_ifs with haudio hvideo
  · exact answerLine_answers handler.acceptAudioCodecs h
  · exact answerLine_answers handler.acceptVideoCodecs h
  · have hshort := h.short
    refine ⟨rfl, ?_, ?_, fun hlen => ?_⟩
    · simpa using Nat.le_succ_of_le hshort
    · simpa using h.headings
    · -- an index ahead of the answer's lines stays ahead
      rw [Option.toList_none, List.append_nil] at hlen
      omega

lemma answerMedias_answers (handler : SdpHandler App Msg) (ctx : SdpContext Msg) (remote : Msg)
    (ms : List SdpMedia) (h : Answers osip before i st) :
    Answers osip (before ++ (answeredMedias osip handler ctx remote i ms st.app).reduceOption)
      (i + ms.length) (answerMedias osip handler ctx remote i ms st) := by
  induction ms generalizing i st before with
  | nil => simpa [answeredMedias, answerMedias] using h
  | cons m ms ih =>
    obtain ⟨happ, hanswers⟩ := answerMedia_answers handler ctx remote m h
    have hrest := ih hanswers
    rw [happ, List.append_assoc] at hrest
    have hlines : (answeredMedias osip handler ctx remote i (m :: ms) st.app).reduceOption =
        (answeredMedia osip handler ctx remote i m st.app).2.toList ++ (answeredMedias osip handler
          ctx remote (i + 1) ms (answeredMedia osip handler ctx remote i m
            st.app).1).reduceOption := by
      rw [answeredMedias]
      cases (answeredMedia osip handler ctx remote i m st.app).2 with
      | none => simp
      | some l => simp
    rw [hlines, List.length_cons, ← Nat.add_assoc, Nat.add_right_comm]
    exact hrest

/-! The lines that are built. -/

lemma answeredPayload_media {accept : App → SdpPayload → App × SdpPayload × ℤ}
    {init : SdpPayload} {p : App × Option SdpMedia}
    (h : ∀ l, p.2 = some l → l.media = m.media) (pt : String) :
    ∀ l, (answeredPayload osip accept ctx m init p pt).2 = some l → l.media = m.media := by
  have hopened : ∀ payload, (openedLine ctx init m payload).media = m.media := by
    intro payload
    have hheading : (openedLine ctx init m payload).heading =
        (m.media, int2char payload.localport, m.proto) := by
      unfold openedLine
      split_ifs
      · exact SdpMedia.heading_addRelay _ _ _
      · rfl
    exact congrArg Prod.fst hheading
  have hcodec : ∀ (l : SdpMedia) payload, (l.addCodec payload).media = l.media :=
    fun l payload => congrArg Prod.fst (SdpMedia.heading_addCodec l payload)
  unfold answeredPayload
  intro l hl
  dsimp only at hl
  split_ifs at hl
  · rw [Option.some.injEq] at hl
    rw [← hl, hcodec]
    cases hp : p.2 with
    | none => exact hopened _
    | some l' => exact h l' hp
  · exact h l hl

lemma answeredLine_media (callback : Option (App → SdpPayload → App × SdpPayload × ℤ))
    (app : App) : (answeredLine osip callback ctx remote i m app).2.media = m.media := by
  unfold answeredLine
  cases callback with
  | none => rfl
  | some accept =>
    have hfold : ∀ (payloads : List String) (p : App × Option SdpMedia),
        (∀ l, p.2 = some l → l.media = m.media) → ∀ l, (payloads.foldl (answeredPayload osip accept
          ctx m (linePayload osip remote i m)) p).2 = some l → l.media = m.media := by
      intro payloads
      induction payloads with
      | nil => exact fun p hp => hp
      | cons pt payloads ih => exact fun p hp => ih _ (answeredPayload_media hp pt)
    have hbuilt := hfold m.payloads (app, none) (by simp)
    dsimp only
    cases hline : (m.payloads.foldl (answeredPayload osip accept ctx m
        (linePayload osip remote i m)) (app, none)).2 with
    | none => rfl
    | some l => exact hbuilt l hline

variable (osip) (handler) (ctx) (remote) (i)

lemma answeredMedia_some (hm : IsAudioOrVideo m) (app : App) :
    ∃ l : SdpMedia, (answeredMedia osip handler ctx remote i m app).2 = some l ∧
      l.media = m.media := by
  unfold answeredMedia
  split_ifs with haudio hvideo
  · exact ⟨_, rfl, answeredLine_media handler.acceptAudioCodecs app⟩
  · exact ⟨_, rfl, answeredLine_media handler.acceptVideoCodecs app⟩
  · exact absurd hm (by simp [IsAudioOrVideo, haudio, hvideo])

lemma answeredMedia_none (hm : ¬IsAudioOrVideo m) (app : App) :
    (answeredMedia osip handler ctx remote i m app).2 = none := by
  unfold IsAudioOrVideo at hm
  rw [not_or] at hm
  unfold answeredMedia
  rw [if_neg hm.1, if_neg hm.2]

lemma length_answeredMedias (ms : List SdpMedia) (app : App) :
    (answeredMedias osip handler ctx remote i ms app).length = ms.length := by
  induction ms generalizing i app with
  | nil => rfl
  | cons m ms ih => simp [answeredMedias, ih]

lemma answeredMedias_isSome_iff (ms : List SdpMedia) (app : App) :
    (∀ x ∈ answeredMedias osip handler ctx remote i ms app, x.isSome = true) ↔
      ∀ m ∈ ms, IsAudioOrVideo m := by
  induction ms generalizing i app with
  | nil => simp [answeredMedias]
  | cons m ms ih =>
    rw [answeredMedias, List.forall_mem_cons, List.forall_mem_cons, ih]
    refine and_congr_left fun _ => ?_
    by_cases hm : IsAudioOrVideo m
    · obtain ⟨l, hl, -⟩ := answeredMedia_some osip handler ctx remote i hm app
      simp [hl, hm]
    · simp [answeredMedia_none osip handler ctx remote i hm app, hm]

lemma answeredMedias_getElem {ms : List SdpMedia} (hms : ∀ m ∈ ms, IsAudioOrVideo m) (app : App)
    {k : ℕ} (hk : ms[k]? = some m) :
    ∃ l : SdpMedia, (answeredMedias osip handler ctx remote i ms app)[k]? = some (some l) ∧
      l.media = m.media := by
  induction ms generalizing i app k with
  | nil => simp at hk
  | cons m' ms ih =>
    rw [List.forall_mem_cons] at hms
    rw [answeredMedias]
    cases k with
    | zero =>
      rw [List.getElem?_cons_zero, Option.some.injEq] at hk
      subst hk
      obtain ⟨l, hl, hmedia⟩ := answeredMedia_some osip handler ctx remote i hms.1 app
      exact ⟨l, by rw [List.getElem?_cons_zero, hl], hmedia⟩
    | succ k =>
      rw [List.getElem?_cons_succ] at hk ⊢
      exact ih _ hms.2 _ hk

/-- The answer starts without lines. -/
lemma template_answers (app : App) :
    Answers osip [] 0 ⟨app, sdpContextGenerateTemplate osip ctx, 0⟩ := by
  have hnil : osip.medias (sdpContextGenerateTemplate osip ctx) = [] := by
    rw [sdpContextGenerateTemplate, osip.medias_cConnectionAdd, osip.medias_init]
  exact ⟨le_rfl, by simp [hnil], fun _ => hnil⟩

lemma eq_map_some {α : Type} {l : List (Option α)} (h : ∀ x ∈ l, x.isSome = true) :
    l = l.reduceOption.map some := by
  induction l with
  | nil => rfl
  | cons x l ih =>
    rw [List.forall_mem_cons] at h
    obtain ⟨a, rfl⟩ := Option.isSome_iff_exists.mp h.1
    rw [List.reduceOption_cons_of_some, List.map_cons, ← ih h.2]

/-- An offer of an application and of audio. -/
def applicationOffer : SdpMessage where
  cAddr := some "192.0.2.1"
  medias := [⟨"application", "7000", "udp", ["wb"], none, [], []⟩,
    ⟨"audio", "7078", "RTP/AVP", ["0"], none, [], [⟨"rtpmap", some "0 PCMU/8000"⟩]⟩]

/-- A handler that accepts each audio codec on port 7080. -/
def acceptingHandler : SdpHandler Unit SdpMessage where
  acceptAudioCodecs := some fun _ payload => ((), { payload with localport := 7080 }, 0)
  acceptVideoCodecs := none
  setAudioCodecs := none
  setVideoCodecs := none
  getAudioCodecs := none
  getVideoCodecs := none

end MTalk.Phone
