import MTalk.Phone.SdpAlignment

/-!
# What is accepted of an offer

The payloads that the callbacks accept, line by line. They determine the state that a negotiation
leaves, its status and the headings of the answer's lines.
-/

namespace MTalk.Phone

open CStrings

variable {App Msg : Type} {osip : Osip Msg}

/-- An offered audio or video line with its index. -/
structure OfferedLine where
  index : ℕ
  media : SdpMedia

namespace OfferedLine

def isAudio (l : OfferedLine) : Bool := startsWith "audio" l.media.media

/-- The payloads of the line as the application is asked for them. -/
def payloads (osip : Osip Msg) (remote : Msg) (l : OfferedLine) : List SdpPayload :=
  l.media.payloads.map (codecPayload osip (linePayload osip remote l.index l.media) l.media)

def port (osip : Osip Msg) (l : OfferedLine) : ℤ := osip.osipAtoi l.media.port

end OfferedLine

/-- The lines of an offer that the handler answers. -/
def offeredLines : ℕ → List SdpMedia → List OfferedLine
  | _, [] => []
  | i, m :: ms =>
    if startsWith "audio" m.media || startsWith "video" m.media then
      ⟨i, m⟩ :: offeredLines (i + 1) ms
    else offeredLines (i + 1) ms

/-- A payload that was accepted, as it was asked for and as the callback returned it. -/
structure Accepted where
  asked : SdpPayload
  returned : SdpPayload

/-- Asks for one payload after the other. -/
def askAll (accept : App → SdpPayload → App × SdpPayload × ℤ) :
    App → List SdpPayload → App × List Accepted
  | app, [] => (app, [])
  | app, p :: ps =>
    let asked := accept app p
    let rest := askAll accept asked.1 ps
    (rest.1, if asked.2.2 = 0 then ⟨p, asked.2.1⟩ :: rest.2 else rest.2)

def askLine (callback : Option (App → SdpPayload → App × SdpPayload × ℤ)) (app : App)
    (ps : List SdpPayload) : App × List Accepted :=
  match callback with
  | none => (app, [])
  | some accept => askAll accept app ps

structure LineOutcome where
  line : OfferedLine
  accepted : List Accepted

/-- The port of the line that answers it: that of the first payload accepted. -/
def LineOutcome.answerPort (o : LineOutcome) : ℤ :=
  (o.accepted.head?.map fun a => a.returned.localport).getD 0

def LineOutcome.heading (o : LineOutcome) : String × String × String :=
  (o.line.media.media, int2char o.answerPort, o.line.media.proto)

/-- The lines that something is accepted of. -/
def acceptedLines (os : List LineOutcome) : ℕ := os.countP fun o => !o.accepted.isEmpty

/-- The callback for a line. -/
def SdpHandler.accept (handler : SdpHandler App Msg) (l : OfferedLine) :
    Option (App → SdpPayload → App × SdpPayload × ℤ) :=
  if l.isAudio then handler.acceptAudioCodecs else handler.acceptVideoCodecs

/-- What is accepted of the lines, with the state that is left. -/
def outcomes (osip : Osip Msg) (handler : SdpHandler App Msg) (remote : Msg) :
    App → List OfferedLine → App × List LineOutcome
  | app, [] => (app, [])
  | app, l :: ls =>
    let asked := askLine (handler.accept l) app (l.payloads osip remote)
    let rest := outcomes osip handler remote asked.1 ls
    (rest.1, ⟨l, asked.2⟩ :: rest.2)

lemma askAll_append (accept : App → SdpPayload → App × SdpPayload × ℤ) (app : App)
    (ps qs : List SdpPayload) : askAll accept app (ps ++ qs) =
      ((askAll accept (askAll accept app ps).1 qs).1,
        (askAll accept app ps).2 ++ (askAll accept (askAll accept app ps).1 qs).2) := by
  induction ps generalizing app with
  | nil => rfl
  | cons p ps ih =>
    rw [List.cons_append]
    simp only [askAll, ih]
    split_ifs <;> rfl

lemma outcomes_append {handler : SdpHandler App Msg} {remote : Msg} (app : App)
    (ls ls' : List OfferedLine) : outcomes osip handler remote app (ls ++ ls') =
      ((outcomes osip handler remote (outcomes osip handler remote app ls).1 ls').1,
        (outcomes osip handler remote app ls).2 ++
          (outcomes osip handler remote (outcomes osip handler remote app ls).1 ls').2) := by
  induction ls generalizing app with
  | nil => rfl
  | cons l ls ih =>
    rw [List.cons_append]
    simp only [outcomes, ih]
    rfl

/-! The outcomes are those of the handler. -/

variable {handler : SdpHandler App Msg} {ctx : SdpContext Msg} {remote : Msg} {i : ℕ}
  {m : SdpMedia} {st : Answering App Msg}

lemma openedLine_heading (init payload : SdpPayload) : (openedLine ctx init m payload).heading =
    (m.media, int2char payload.localport, m.proto) := by
  unfold openedLine
  split_ifs
  · exact SdpMedia.heading_addRelay _ _ _
  · rfl

variable (osip) (handler) (ctx) (remote) (i) (m) (st)

/-- The state and the line that the payloads leave. -/
lemma answeredPayloads_outcome (accept : App → SdpPayload → App × SdpPayload × ℤ)
    (init : SdpPayload) (payloads : List String) (p : App × Option SdpMedia) :
    let built := payloads.foldl (answeredPayload osip accept ctx m init) p
    let asked := askAll accept p.1 (payloads.map (codecPayload osip init m))
    built.1 = asked.1 ∧ built.2.map SdpMedia.heading = (p.2.map SdpMedia.heading).or
      (asked.2.head?.map fun a => (m.media, int2char a.returned.localport, m.proto)) := by
  induction payloads generalizing p with
  | nil => simp [askAll]
  | cons pt payloads ih =>
    obtain ⟨happ, hline⟩ := ih (answeredPayload osip accept ctx m init p pt)
    have hstate : (answeredPayload osip accept ctx m init p pt).1 =
        (accept p.1 (codecPayload osip init m pt)).1 := by
      unfold answeredPayload
      dsimp only
      split_ifs <;> rfl
    rw [hstate] at happ hline
    simp only [List.foldl_cons, List.map_cons, askAll]
    refine ⟨happ, hline.trans ?_⟩
    unfold answeredPayload
    dsimp only
    split_ifs with herr
    · rw [Option.map_some, SdpMedia.heading_addCodec]
      cases p.2 with
      | none => simp [openedLine_heading]
      | some l => simp
    · rfl

lemma answeredLine_outcome (callback : Option (App → SdpPayload → App × SdpPayload × ℤ))
    (app : App) :
    let l : OfferedLine := ⟨i, m⟩
    let asked := askLine callback app (l.payloads osip remote)
    (answeredLine osip callback ctx remote i m app).1 = asked.1 ∧
      (answeredLine osip callback ctx remote i m app).2.heading =
        (m.media, int2char (LineOutcome.answerPort ⟨l, asked.2⟩), m.proto) := by
  cases callback with
  | none => exact ⟨rfl, rfl⟩
  | some accept =>
    obtain ⟨happ, hline⟩ := answeredPayloads_outcome osip ctx m accept
      (linePayload osip remote i m) m.payloads (app, none)
    refine ⟨happ, ?_⟩
    unfold answeredLine LineOutcome.answerPort askLine OfferedLine.payloads
    dsimp only at hline ⊢
    cases hbuilt : (m.payloads.foldl (answeredPayload osip accept ctx m
        (linePayload osip remote i m)) (app, none)).2 with
    | none =>
      rw [hbuilt] at hline
      have hnone : (askAll accept app (m.payloads.map (codecPayload osip
          (linePayload osip remote i m) m))).2.head? = none := by
        simpa using hline.symm
      rw [hnone]
      rfl
    | some l =>
      rw [hbuilt] at hline
      cases hfirst : (askAll accept app (m.payloads.map (codecPayload osip
          (linePayload osip remote i m) m))).2.head? with
      | none =>
        rw [hfirst] at hline
        simp at hline
      | some a =>
        rw [hfirst] at hline
        simpa using hline

/-- The counter of the accepted lines goes up exactly when a payload is accepted. -/
lemma answerLine_outcome (callback : Option (App → SdpPayload → App × SdpPayload × ℤ)) :
    let asked := askLine callback st.app (OfferedLine.payloads osip remote ⟨i, m⟩)
    (answerLine osip callback ctx remote i m st).app = asked.1 ∧
      (answerLine osip callback ctx remote i m st).accepted =
        st.accepted + if asked.2 = [] then 0 else 1 := by
  cases callback with
  | none => exact ⟨rfl, rfl⟩
  | some accept =>
    have hstart : Follows osip (osip.medias st.answer) i ⟨st.app, st.answer, 0⟩ (st.app, none) :=
      ⟨rfl, by simp, by simp, by simp⟩
    have hfollows := payloads_follow ctx m accept (linePayload osip remote i m) m.payloads hstart
    obtain ⟨happ, hline⟩ := answeredPayloads_outcome osip ctx m accept
      (linePayload osip remote i m) m.payloads (st.app, none)
    have hopened := hfollows.opened
    have hstate := hfollows.app.trans happ
    unfold answerLine askLine OfferedLine.payloads
    dsimp only at hline hstate ⊢
    by_cases hzero : (m.payloads.foldl (acceptPayload osip accept ctx i m
        (linePayload osip remote i m)) ⟨st.app, st.answer, 0⟩).accepted = 0
    · rw [if_pos hzero, if_pos]
      · exact ⟨hstate, rfl⟩
      · rw [hopened.mp hzero] at hline
        simpa using hline.symm
    · rw [if_neg hzero, if_neg]
      · exact ⟨hstate, rfl⟩
      · intro hnil
        rw [hnil] at hline
        exact hzero (hopened.mpr (by simpa using hline))

/-- One offered line, passed over or answered. -/
lemma answerMedia_other (hm : ¬IsAudioOrVideo m) :
    answerMedia osip handler ctx remote i m st = st ∧
      answeredMedia osip handler ctx remote i m st.app = (st.app, none) := by
  unfold IsAudioOrVideo at hm
  rw [not_or] at hm
  unfold answerMedia answeredMedia
  rw [if_neg hm.1, if_neg hm.2, if_neg hm.1, if_neg hm.2]
  exact ⟨rfl, rfl⟩

lemma answerMedia_line (hm : IsAudioOrVideo m) :
    answerMedia osip handler ctx remote i m st =
        answerLine osip (handler.accept ⟨i, m⟩) ctx remote i m st ∧
      answeredMedia osip handler ctx remote i m st.app =
        (answeredLine osip (handler.accept ⟨i, m⟩) ctx remote i m st.app).map id some := by
  unfold answerMedia answeredMedia
  by_cases haudio : startsWith "audio" m.media = true
  · have hcallback : handler.accept ⟨i, m⟩ = handler.acceptAudioCodecs := if_pos haudio
    rw [if_pos haudio, if_pos haudio, hcallback]
    exact ⟨rfl, rfl⟩
  · have hcallback : handler.accept ⟨i, m⟩ = handler.acceptVideoCodecs := if_neg haudio
    have hvideo := hm.resolve_left haudio
    rw [if_neg haudio, if_neg haudio, if_pos hvideo, if_pos hvideo, hcallback]
    exact ⟨rfl, rfl⟩

lemma answerMedias_outcomes (ms : List SdpMedia) :
    let os := outcomes osip handler remote st.app (offeredLines i ms)
    (answerMedias osip handler ctx remote i ms st).app = os.1 ∧
      (answerMedias osip handler ctx remote i ms st).accepted =
        st.accepted + acceptedLines os.2 ∧
      (answeredMedias osip handler ctx remote i ms st.app).reduceOption.map SdpMedia.heading =
        os.2.map LineOutcome.heading := by
  induction ms generalizing i st with
  | nil => exact ⟨rfl, rfl, rfl⟩
  | cons m ms ih =>
    rw [answerMedias, answeredMedias, offeredLines]
    by_cases hm : IsAudioOrVideo m
    · obtain ⟨hst, hbuilt⟩ := answerMedia_line osip handler ctx remote i m st hm
      obtain ⟨happ, haccepted⟩ := answerLine_outcome osip ctx remote i m st
        (handler.accept ⟨i, m⟩)
      obtain ⟨hstate, hheading⟩ := answeredLine_outcome osip ctx remote i m
        (handler.accept ⟨i, m⟩) st.app
      rw [if_pos (by simpa [IsAudioOrVideo] using hm), hst, hbuilt, outcomes]
      obtain ⟨happ', haccepted', hheadings⟩ := ih (i + 1)
        (answerLine osip (handler.accept ⟨i, m⟩) ctx remote i m st)
      rw [happ] at happ' haccepted' hheadings
      refine ⟨happ', ?_, ?_⟩
      · rw [haccepted', haccepted]
        unfold acceptedLines
        rw [List.countP_cons]
        by_cases hnil : (askLine (handler.accept ⟨i, m⟩) st.app
            (OfferedLine.payloads osip remote ⟨i, m⟩)).2 = []
        · simp [hnil]
        · simp [hnil]
          omega
      · rw [Prod.map_snd, Prod.map_fst, List.reduceOption_cons_of_some, List.map_cons,
          List.map_cons, hheading, id, hstate, hheadings]
        rfl
    · obtain ⟨hst, hbuilt⟩ := answerMedia_other osip handler ctx remote i m st hm
      rw [if_neg (by simpa [IsAudioOrVideo] using hm), hst, hbuilt,
        List.reduceOption_cons_of_none]
      exact ih (i + 1) st

/-- The state, the status and the answer of `sdp_context_get_answer`. -/
theorem getAnswer_outcomes (osip : Osip Msg) (handler : SdpHandler App Msg) (app : App)
    (ctx : SdpContext Msg) (remote : Msg) :
    let os := outcomes osip handler remote app (offeredLines 0 (osip.medias remote))
    let r := sdpContextGetAnswer osip handler app ctx remote
    r.1 = os.1 ∧ (r.2.1.negocStatus = 200 ↔ ∃ o ∈ os.2, o.accepted ≠ []) ∧
      ∃ answer, r.2.1.answer = some answer ∧
        (osip.medias answer).map SdpMedia.heading = os.2.map LineOutcome.heading := by
  have hanswers := answerMedias_answers handler ctx remote (osip.medias remote)
    (template_answers osip ctx app)
  obtain ⟨happ, haccepted, hheadings⟩ := answerMedias_outcomes osip handler ctx remote 0
    ⟨app, sdpContextGenerateTemplate osip ctx, 0⟩ (osip.medias remote)
  have hpositive : 0 < acceptedLines (outcomes osip handler remote app
      (offeredLines 0 (osip.medias remote))).2 ↔
      ∃ o ∈ (outcomes osip handler remote app (offeredLines 0 (osip.medias remote))).2,
        o.accepted ≠ [] := by
    simp [acceptedLines, List.countP_pos_iff]
  have hanswer := hanswers.headings
  rw [List.nil_append, hheadings] at hanswer
  rw [Nat.zero_add] at haccepted
  unfold sdpContextGetAnswer
  dsimp only at happ haccepted hanswer ⊢
  rw [← hpositive, ← haccepted]
  split_ifs with hzero
  · exact ⟨happ, by simp [hzero], _, rfl, hanswer⟩
  · exact ⟨happ, by simp [hzero], _, rfl, hanswer⟩

end MTalk.Phone
