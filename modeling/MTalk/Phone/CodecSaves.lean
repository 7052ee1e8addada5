import MTalk.Phone.CodecLists

/-!
# The saved codec lists

What `codecs_config_uninit` leaves in the configuration and what `get_codec` makes of it: an entry
for each codec of the list, and behind them the entries of a longer list of an earlier time.
-/

namespace MTalk.Phone

open CStrings Config LpConfig

lemma codecKey_injective {type : String} {i j : ℕ} (h : codecKey type i = codecKey type j) :
    i = j := by
  have hint := toString_injective (append_cancel h)
  exact_mod_cast hint

lemma audioKey_ne_videoKey (i j : ℕ) : codecKey "audio_codec" i ≠ codecKey "video_codec" j := by
  intro h
  have hhead := congrArg (fun s => s.toList.head?) h
  simp [codecKey] at hhead

/-! One entry. -/

/-- The entry of a payload with a receiving format. -/
def savedCodec (pt : PayloadType) (recvFmtp : Option String) : ConfigCodec where
  mimeType := pt.mimeType
  clockRate := pt.clockRate.bmod (2 ^ 32)
  recvFmtp := recvFmtp
  enabled := pt.enabled

/-- A round of a loop writes one section. Of the receiving format it makes something of its own. -/
structure WritesEntry (write : LpConfig → PayloadType → ℕ → LpConfig) (type : String)
    (fmtp : PayloadType → List String → List String) : Prop where
  other : ∀ c pt i name key, name ≠ codecKey type i →
    (write c pt i).values name key = c.values name key
  mime : ∀ c pt i, ((write c pt i).values (codecKey type i) "mime").head? = some pt.mimeType
  rate : ∀ c pt i,
    ((write c pt i).values (codecKey type i) "rate").head? = some (toString pt.clockRate)
  enabled : ∀ c pt i, ((write c pt i).values (codecKey type i) "enabled").head?
    = some (toString (pt.enabled.toNat : ℤ))
  recvFmtp : ∀ c pt i, (write c pt i).values (codecKey type i) "recv_fmtp"
    = fmtp pt (c.values (codecKey type i) "recv_fmtp")

lemma writesEntry_audio : WritesEntry writeAudioCodec "audio_codec" fun _ values => values where
  other c pt i name key h := by simp [writeAudioCodec, setInt, values_setString, h]
  mime c pt i := by simp [writeAudioCodec, setInt, values_setString]
  rate c pt i := by simp [writeAudioCodec, setInt, values_setString]
  enabled c pt i := by simp [writeAudioCodec, setInt, values_setString]
  recvFmtp c pt i := by simp [writeAudioCodec, setInt, values_setString]

lemma writesEntry_video : WritesEntry writeVideoCodec "video_codec"
    fun pt values => pt.recvFmtp.toList ++ values.tail where
  other c pt i name key h := by simp [writeVideoCodec, setInt, values_setString, h]
  mime c pt i := by simp [writeVideoCodec, setInt, values_setString]
  rate c pt i := by simp [writeVideoCodec, setInt, values_setString]
  enabled c pt i := by simp [writeVideoCodec, setInt, values_setString]
  recvFmtp c pt i := by simp [writeVideoCodec, setInt, values_setString]

lemma getCodec_congr {c c' : LpConfig} {type : String} {i : ℕ}
    (h : ∀ key, c'.values (codecKey type i) key = c.values (codecKey type i) key) :
    getCodec c' type i = getCodec c type i := by
  have hstring : ∀ key, c'.getString (codecKey type i) key = c.getString (codecKey type i) key := by
    intro key
    rw [getString_eq_values, getString_eq_values, h]
  unfold getCodec
  rw [hstring, hstring, getInt_congr (hstring _), getInt_congr (hstring _)]

/-- The entry that was written last is read with what the section has of the receiving format. -/
lemma WritesEntry.getCodec_write {write : LpConfig → PayloadType → ℕ → LpConfig} {type : String}
    {fmtp : PayloadType → List String → List String} (h : WritesEntry write type fmtp)
    (c : LpConfig) {pt : PayloadType} (hmime : pt.mimeType ≠ "") (i : ℕ) :
    getCodec (write c pt i) type i
      = some (savedCodec pt (fmtp pt (c.values (codecKey type i) "recv_fmtp")).head?) := by
  have hrate : (write c pt i).getInt (codecKey type i) "rate" 8000
      = pt.clockRate.bmod (2 ^ 32) := by
    rw [getInt, getString_eq_values, h.rate]
    dsimp only
    rw [atoi_toString]
  have henabled : (write c pt i).getInt (codecKey type i) "enabled" 1 = pt.enabled.toNat := by
    rw [getInt, getString_eq_values, h.enabled]
    dsimp only
    rw [atoi_toString]
    cases pt.enabled <;> rfl
  unfold getCodec
  rw [getString_eq_values, h.mime, getString_eq_values, h.recvFmtp, hrate, henabled]
  dsimp only
  rw [if_neg hmime, savedCodec]
  cases pt.enabled <;> rfl

/-! The entries of a list. -/

lemma WritesEntry.values_writeFrom {write : LpConfig → PayloadType → ℕ → LpConfig} {type : String}
    {fmtp : PayloadType → List String → List String} (h : WritesEntry write type fmtp)
    (l : List PayloadType) (c : LpConfig) (i : ℕ) {name : String}
    (hname : ∀ j < l.length, name ≠ codecKey type (i + j)) (key : String) :
    (writeFrom write c i l).values name key = c.values name key := by
  induction l generalizing c i with
  | nil => rfl
  | cons pt l ih =>
    have hrest : ∀ j < l.length, name ≠ codecKey type (i + 1 + j) := by
      intro j hj
      rw [Nat.add_assoc, Nat.add_comm 1 j]
      exact hname (j + 1) (by simpa using hj)
    rw [writeFrom, ih _ _ hrest, h.other c pt i name key (hname 0 (by simp))]

lemma WritesEntry.getCodec_writeFrom {write : LpConfig → PayloadType → ℕ → LpConfig}
    {type : String} {fmtp : PayloadType → List String → List String}
    (h : WritesEntry write type fmtp) {l : List PayloadType} (hl : ∀ pt ∈ l, pt.mimeType ≠ "")
    (c : LpConfig) (i : ℕ) {j : ℕ} {pt : PayloadType} (hj : l[j]? = some pt) :
    getCodec (writeFrom write c i l) type (i + j)
      = some (savedCodec pt (fmtp pt (c.values (codecKey type (i + j)) "recv_fmtp")).head?) := by
  induction l generalizing c i j with
  | nil => simp at hj
  | cons first l ih =>
    rw [writeFrom]
    cases j with
    | zero =>
      rw [List.getElem?_cons_zero, Option.some.injEq] at hj
      subst hj
      have hlast : ∀ key, (writeFrom write (write c first i) (i + 1) l).values (codecKey type i) key
          = (write c first i).values (codecKey type i) key := by
        intro key
        apply h.values_writeFrom
        intro k _ hsame
        have hplace := codecKey_injective hsame
        omega
      simp only [Nat.add_zero]
      rw [getCodec_congr hlast, h.getCodec_write c
        (hl first List.mem_cons_self) i]
    | succ j =>
      rw [List.getElem?_cons_succ] at hj
      have hrest := ih (fun b hb => hl b (List.mem_cons_of_mem _ hb)) (write c first i) (i + 1) hj
      have hother : codecKey type (i + 1 + j) ≠ codecKey type i := by
        intro hsame
        have hplace := codecKey_injective hsame
        omega
      rw [h.other _ _ _ _ _ hother, Nat.add_assoc, Nat.add_comm 1 j] at hrest
      exact hrest

/-! The loop of `codecs_config_read`. -/

/-- Some place is without an entry. -/
lemma exists_getCodec_eq_none (c : LpConfig) (type : String) (i : ℕ) :
    ∃ j ≤ c.length, getCodec c type (i + j) = none := by
  by_contra hall
  push Not at hall
  have hkey : ∀ j k, codecKey type (i + j) = codecKey type (i + k) → j = k := by
    intro j k hsame
    have hplace := codecKey_injective hsame
    omega
  have hlength : c.length + 1 ≤ c.length := by
    apply length_of_hasSection hkey
    intro j hj
    have hsome := hall j (by omega)
    cases hmime : c.getString (codecKey type (i + j)) "mime" with
    | none =>
      rw [getCodec, hmime] at hsome
      exact absurd rfl hsome
    | some mime => exact hasSection_of_getString hmime
  omega

/-- The loop ends at a place without an entry, if it is told to go that far. -/
lemma readCodecs_eq_of_stop {c : LpConfig} {type : String} {i j : ℕ}
    (h : getCodec c type (i + j) = none) {n m : ℕ} (hn : j < n) (hm : j < m) :
    readCodecs c type n i = readCodecs c type m i := by
  induction n generalizing i j m with
  | zero => omega
  | succ n ih =>
    obtain ⟨m, rfl⟩ : ∃ m', m = m' + 1 := ⟨m - 1, by omega⟩
    rw [readCodecs, readCodecs]
    cases hget : getCodec c type i with
    | none => rfl
    | some pt =>
      obtain ⟨j, rfl⟩ : ∃ j', j = j' + 1 := by
        refine ⟨j - 1, ?_⟩
        have hpos : j ≠ 0 := by
          rintro rfl
          rw [Nat.add_zero, hget] at h
          cases h
        omega
      have hnext : getCodec c type (i + 1 + j) = none := by
        rwa [Nat.add_assoc, Nat.add_comm 1 j]
      have hrest := ih hnext (m := m) (by omega) (by omega)
      simp only [hrest]

lemma readCodecs_congr {c c' : LpConfig} {type : String} {i : ℕ}
    (h : ∀ j, getCodec c' type (i + j) = getCodec c type (i + j)) (n : ℕ) :
    readCodecs c' type n i = readCodecs c type n i := by
  induction n generalizing i with
  | zero => rfl
  | succ n ih =>
    have hfirst : getCodec c' type i = getCodec c type i := h 0
    have hrest : readCodecs c' type n (i + 1) = readCodecs c type n (i + 1) := by
      apply ih
      intro j
      rw [Nat.add_assoc]
      exact h (1 + j)
    rw [readCodecs, readCodecs, hfirst, hrest]

lemma readCodecs_append {c : LpConfig} {type : String} {es : List ConfigCodec} {i : ℕ}
    (h : ∀ j e, es[j]? = some e → getCodec c type (i + j) = some e) (n : ℕ) :
    readCodecs c type (es.length + n) i = es ++ readCodecs c type n (i + es.length) := by
  induction es generalizing i with
  | nil => simp
  | cons e es ih =>
    have hfirst : getCodec c type i = some e := h 0 e rfl
    have hrest : ∀ j e', es[j]? = some e' → getCodec c type (i + 1 + j) = some e' := by
      intro j e' he'
      rw [Nat.add_assoc, Nat.add_comm 1 j]
      exact h (j + 1) e' he'
    rw [List.length_cons, Nat.add_right_comm, readCodecs, hfirst]
    simp only
    rw [ih hrest, List.cons_append, Nat.add_assoc, Nat.add_comm 1]

/-- The entries that stay behind a list, with the ones the configuration had there. -/
def entriesFrom (c : LpConfig) (type : String) (i : ℕ) : List ConfigCodec :=
  readCodecs c type (c.length + 1) i

/-- The whole list is read: the entries that were written and those that stood behind them. -/
lemma readCodecs_of_entries {c c' : LpConfig} {type : String} {es : List ConfigCodec}
    (hentries : ∀ j e, es[j]? = some e → getCodec c' type j = some e)
    (hbehind : ∀ j, getCodec c' type (es.length + j) = getCodec c type (es.length + j)) :
    readCodecs c' type (c'.length + 1) 0 = es ++ entriesFrom c type es.length := by
  obtain ⟨stop, hstop, hnone⟩ := exists_getCodec_eq_none c' type 0
  rw [Nat.zero_add] at hnone
  have hend : es.length ≤ stop := by
    by_contra hlt
    have hget := hentries stop es[stop] (List.getElem?_eq_getElem (by omega))
    rw [hnone] at hget
    cases hget
  obtain ⟨n, hn⟩ : ∃ n, c'.length + 1 = es.length + n := ⟨c'.length + 1 - es.length, by omega⟩
  obtain ⟨k, rfl⟩ : ∃ k, stop = es.length + k := ⟨stop - es.length, by omega⟩
  rw [hn, readCodecs_append (fun j e he => by rw [Nat.zero_add]; exact hentries j e he),
    Nat.zero_add, readCodecs_congr hbehind, entriesFrom]
  congr 1
  obtain ⟨stop', hstop', hnone'⟩ := exists_getCodec_eq_none c type es.length
  rw [hbehind] at hnone
  by_cases hle : k ≤ stop'
  · exact readCodecs_eq_of_stop hnone (by omega) (by omega)
  · exact readCodecs_eq_of_stop hnone' (by omega) (by omega)

/-- What is read after a list was written, if everything else left the sections of its type. -/
lemma WritesEntry.readCodecs {write : LpConfig → PayloadType → ℕ → LpConfig} {type : String}
    {fmtp : PayloadType → List String → List String} (h : WritesEntry write type fmtp)
    {l : List PayloadType} (hl : ∀ pt ∈ l, pt.mimeType ≠ "") {c c₁ d : LpConfig}
    (hbefore : ∀ i key, c₁.values (codecKey type i) key = c.values (codecKey type i) key)
    (hafter : ∀ i key, d.values (codecKey type i) key
      = (writeFrom write c₁ 0 l).values (codecKey type i) key) :
    readCodecs d type (d.length + 1) 0
      = (l.mapIdx fun j pt => savedCodec pt (fmtp pt (c.values (codecKey type j) "recv_fmtp")).head?)
        ++ entriesFrom c type l.length := by
  rw [readCodecs_of_entries (c := c), List.length_mapIdx]
  · intro j e he
    rw [List.getElem?_mapIdx, Option.map_eq_some_iff] at he
    obtain ⟨pt, hpt, rfl⟩ := he
    have hget := h.getCodec_writeFrom hl c₁ 0 hpt
    rw [Nat.zero_add, hbefore] at hget
    rw [getCodec_congr (hafter j), hget]
  · intro j
    rw [List.length_mapIdx]
    apply getCodec_congr
    intro key
    rw [hafter, h.values_writeFrom, hbefore]
    intro k hk hsame
    have hplace := codecKey_injective hsame
    omega

end MTalk.Phone
