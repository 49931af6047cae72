import NucleoMqtt.Tls.SslRead
import NucleoMqtt.Lib.Machine

/-!
# Tls — what is received

The bytes handed out by calls of `mbedtls_ssl_read` are the application data
of the records on the wire, in their order, up to what the current record
still holds. `Took` is what a call has taken off the wire, and `appData` what
is in it. Nothing depends on how the socket cuts the records up, on where it
times out, or on how much each call asks for.
-/

namespace NucleoMqtt.Tls

open NucleoMqtt.Lib

/-! ## The application data of records -/

/-- The application data in a record, behind those before it. -/
def Session.content (c : Session) (earlier : List Frame) (f : Frame) : List UInt8 :=
  match c.decryptBuf earlier f with
  | .failed _ _ => []
  | .opened content =>
      if f.type = MBEDTLS_SSL_MSG_APPLICATION_DATA ∧
          content.length ≤ MBEDTLS_SSL_IN_CONTENT_LEN then
        content
      else []

/-- The application data in records. -/
def Session.appData (c : Session) : List Frame → List Frame → List UInt8
  | _, [] => []
  | earlier, f :: fs => c.content earlier f ++ c.appData (earlier ++ [f]) fs

theorem appData_append (c : Session) (earlier fs gs : List Frame) :
    c.appData earlier (fs ++ gs) = c.appData earlier fs ++ c.appData (earlier ++ fs) gs := by
  induction fs generalizing earlier with
  | nil => rw [List.nil_append, List.append_nil, Session.appData, List.nil_append]
  | cons f fs ih =>
      rw [List.cons_append, Session.appData, Session.appData, ih, List.append_assoc,
        List.append_assoc, List.singleton_append]

theorem appData_singleton (c : Session) (earlier : List Frame) (f : Frame) :
    c.appData earlier [f] = c.content earlier f := by
  rw [Session.appData, Session.appData, List.append_nil]

/-- Records on the wire. -/
def encodeAll (fs : List Frame) : List UInt8 := fs.flatMap Frame.encode

/-- A record cannot be mistaken for another. -/
theorem Frame.encode_inj {f g : Frame} (hf : f.body.length < 2 ^ 16) (hg : g.body.length < 2 ^ 16)
    {r r' : List UInt8} (h : f.encode ++ r = g.encode ++ r') : f = g ∧ r = r' := by
  obtain ⟨type, major, minor, body⟩ := f
  obtain ⟨type', major', minor', body'⟩ := g
  have hcons : type :: major :: minor :: (be16 body.length ++ (body ++ r))
      = type' :: major' :: minor' :: (be16 body'.length ++ (body' ++ r')) := by
    simpa only [encode, List.cons_append, List.append_assoc] using h
  simp only [List.cons.injEq] at hcons
  obtain ⟨rfl, rfl, rfl, hrest⟩ := hcons
  obtain ⟨hlen, hrest⟩ := List.append_inj hrest rfl
  have hlength : body.length = body'.length := by
    rw [be16, be16, List.cons.injEq, List.cons.injEq] at hlen
    have h₁ := be16_value hf
    rw [hlen.1, hlen.2.1, be16_value hg] at h₁
    exact h₁.symm
  obtain ⟨rfl, rfl⟩ := List.append_inj hrest hlength
  exact ⟨rfl, rfl⟩

/-- So of two ways to take records off one wire one goes on from the other. -/
theorem encodeAll_prefix {fs gs : List Frame} (hfs : ∀ f ∈ fs, f.body.length < 2 ^ 16)
    (hgs : ∀ g ∈ gs, g.body.length < 2 ^ 16) {r r' : List UInt8}
    (h : encodeAll fs ++ r = encodeAll gs ++ r') : fs <+: gs ∨ gs <+: fs := by
  induction fs generalizing gs with
  | nil => exact Or.inl List.nil_prefix
  | cons f fs ih =>
      cases gs with
      | nil => exact Or.inr List.nil_prefix
      | cons g gs =>
          rw [encodeAll, encodeAll, List.flatMap_cons, List.flatMap_cons, List.append_assoc,
            List.append_assoc] at h
          obtain ⟨rfl, hrest⟩ := Frame.encode_inj (hfs f List.mem_cons_self)
            (hgs g List.mem_cons_self) h
          rcases ih (fun x hx => hfs x (List.mem_cons_of_mem f hx))
              (fun x hx => hgs x (List.mem_cons_of_mem f hx)) hrest with hp | hp
          · exact Or.inl ((List.prefix_cons_inj f).mpr hp)
          · exact Or.inr ((List.prefix_cons_inj f).mpr hp)

/-! ## What a call takes off the wire -/

/-- Records have been taken off the wire, whole and in order. -/
structure Took (s s' : SslIn) (fs : List Frame) : Prop where
  frames : s'.frames = s.frames ++ fs
  bytes : s.inLeft ++ s.wire = encodeAll fs ++ (s'.inLeft ++ s'.wire)
  fits : ∀ f ∈ fs, f.body.length < 2 ^ 16

theorem Took.trans {s s' s'' : SslIn} {fs gs : List Frame} (h : Took s s' fs)
    (h' : Took s' s'' gs) : Took s s'' (fs ++ gs) where
  frames := by rw [h'.frames, h.frames, List.append_assoc]
  bytes := by rw [h.bytes, h'.bytes, encodeAll, encodeAll, encodeAll, List.flatMap_append,
    List.append_assoc]
  fits f hf := (List.mem_append.mp hf).elim (h.fits f) (h'.fits f)

/-- Nothing is taken by a change of other fields. -/
theorem Took.none {s s' : SslIn} (hframes : s'.frames = s.frames)
    (hbytes : s.inLeft ++ s.wire = s'.inLeft ++ s'.wire) : Took s s' [] :=
  ⟨by rw [hframes, List.append_nil], hbytes, by rintro f ⟨⟩⟩

/-- What waits in the input buffer is a part of one record, and only a
handshake message is gone through piece by piece. -/
structure Sound (s : SslIn) : Prop where
  within : sslHdrLen ≤ s.inLeft.length → s.inLeft.length ≤ sslHdrLen + headerLength s.inLeft
  handshake : s.inHslen ≠ 0 → s.inMsgtype = MBEDTLS_SSL_MSG_HANDSHAKE

/-- Bytes of the wire have come into the input buffer. -/
structure Fetched (s s' : SslIn) : Prop where
  bytes : ∃ got, s'.inLeft = s.inLeft ++ got ∧ s.wire = got ++ s'.wire
  same : s' = { s with wire := s'.wire, inLeft := s'.inLeft, turns := s'.turns }

theorem Fetched.append {s s' : SslIn} (h : Fetched s s') :
    s.inLeft ++ s.wire = s'.inLeft ++ s'.wire := by
  obtain ⟨got, hleft, hwire⟩ := h.bytes
  rw [hleft, hwire, List.append_assoc]

theorem Fetched.took {s s' : SslIn} (h : Fetched s s') : Took s s' [] :=
  .none (by rw [h.same]) h.append

theorem Fetched.trans {s s' s'' : SslIn} (h : Fetched s s') (h' : Fetched s' s'') :
    Fetched s s'' := by
  obtain ⟨got, hleft, hwire⟩ := h.bytes
  obtain ⟨got', hleft', hwire'⟩ := h'.bytes
  refine ⟨⟨got ++ got', ?_, ?_⟩, ?_⟩
  · rw [hleft', hleft, List.append_assoc]
  · rw [hwire, hwire', List.append_assoc]
  · rw [h'.same, h.same]

/-- Only the calls of the socket are other ones. -/
theorem Fetched.turns (s : SslIn) (turns : List Turn) : Fetched s { s with turns := turns } :=
  ⟨⟨[], (List.append_nil _).symm, rfl⟩, rfl⟩

theorem tcpRead_fetched (s : SslIn) (len : Nat) (turn : Turn) :
    Fetched s (tcpRead s len turn).2 ∧
      (tcpRead s len turn).2.inLeft.length ≤ s.inLeft.length + len := by
  cases turn with
  | failed code neg =>
      exact ⟨⟨⟨[], (List.append_nil _).symm, rfl⟩, rfl⟩, Nat.le_add_right _ _⟩
  | ready more =>
      refine ⟨⟨⟨_, rfl, (List.take_append_drop _ _).symm⟩, rfl⟩, ?_⟩
      show (s.inLeft ++ s.wire.take (min (more + 1) len)).length ≤ _
      rw [List.length_append, List.length_take]
      omega

/-- **The bytes wanted come into the buffer**, or as many as the socket has
had, and no more. -/
theorem fetchLoop_fetched {nbWant : Nat} {turns : List Turn} {s s' : SslIn} {ret : Int}
    (h : fetchLoop nbWant turns s = some (ret, s')) :
    Fetched s s' ∧ (ret = 0 → nbWant ≤ s'.inLeft.length) ∧
      (s'.inLeft = s.inLeft ∨ s'.inLeft.length ≤ nbWant) := by
  induction turns generalizing s with
  | nil =>
      obtain ⟨hdone, -, rfl⟩ := fetchLoop_nil h
      exact ⟨.turns s [], fun _ => hdone, Or.inl rfl⟩
  | cons turn turns ih =>
      rcases fetchLoop_cons h with ⟨hdone, -, rfl⟩ | ⟨hless, n, s₁, htcp, hends⟩
      · exact ⟨.turns s _, fun _ => hdone, Or.inl rfl⟩
      obtain ⟨hread, hlen⟩ := tcpRead_fetched s (nbWant - s.inLeft.length) turn
      rw [htcp] at hread hlen
      have hle : s₁.inLeft.length ≤ nbWant := by
        change s₁.inLeft.length ≤ _ at hlen
        omega
      rcases hends with ⟨-, rfl, rfl⟩ | ⟨hneg, rfl, rfl⟩ | ⟨-, h⟩
      · exact ⟨hread.trans (.turns _ turns), by rintro ⟨⟩, Or.inr hle⟩
      · exact ⟨hread.trans (.turns _ turns), fun hzero => absurd hzero (Int.ne_of_lt hneg),
          Or.inr hle⟩
      · obtain ⟨hfetched, hwant, hleft⟩ := ih h
        refine ⟨hread.trans hfetched, hwant, Or.inr ?_⟩
        rcases hleft with hsame | hle'
        · rw [hsame]
          exact hle
        · exact hle'

theorem sslFetchInput_fetched {c : Session} {nbWant : Nat} {s s' : SslIn} {ret : Int}
    (h : sslFetchInput c nbWant s = some (ret, s')) :
    Fetched s s' ∧ (ret = 0 → nbWant ≤ s'.inLeft.length) ∧
      (s'.inLeft = s.inLeft ∨ s'.inLeft.length ≤ nbWant) := by
  rw [sslFetchInput] at h
  split at h
  · cases h
    exact ⟨.turns s s.turns, by rintro ⟨⟩, Or.inl rfl⟩
  · exact fetchLoop_fetched h

/-- **The end of the connection** is told by the code of a call, or by the
wire at its end with not all of the bytes wanted. -/
theorem fetchLoop_eof {nbWant : Nat} {turns : List Turn} {s s' : SslIn}
    (h : fetchLoop nbWant turns s = some (MBEDTLS_ERR_SSL_CONN_EOF, s')) :
    (∃ neg, .failed MBEDTLS_ERR_SSL_CONN_EOF neg ∈ turns) ∨
      s'.wire = [] ∧ s'.inLeft.length < nbWant ∧
        (s.wire = [] → ∃ more, turns.head? = some (.ready more)) := by
  induction turns generalizing s with
  | nil =>
      obtain ⟨-, hzero, -⟩ := fetchLoop_nil h
      cases hzero
  | cons turn turns ih =>
      rcases fetchLoop_cons h with ⟨-, hzero, -⟩ | ⟨hless, n, s₁, htcp, hends⟩
      · cases hzero
      cases turn with
      | failed code neg =>
          obtain ⟨rfl, rfl⟩ := Prod.mk.inj htcp
          rcases hends with ⟨hzero, -, -⟩ | ⟨-, rfl, -⟩ | ⟨hpos, -⟩
          · exact absurd hzero (Int.ne_of_lt neg)
          · exact Or.inl ⟨neg, List.mem_cons_self⟩
          · omega
      | ready more =>
          have hhead : ∃ more', (Turn.ready more :: turns).head? = some (.ready more') :=
            ⟨more, rfl⟩
          obtain ⟨rfl, rfl⟩ := Prod.mk.inj htcp
          rcases hends with ⟨hnone, -, rfl⟩ | ⟨hneg, -, -⟩ | ⟨-, h⟩
          · obtain hnil : s.wire = [] := by
              rw [Int.natCast_eq_zero, List.length_take] at hnone
              exact List.eq_nil_of_length_eq_zero (by omega)
            rw [hnil]
            refine Or.inr ⟨List.drop_nil, ?_, fun _ => hhead⟩
            rw [List.take_nil, List.append_nil]
            exact hless
          · omega
          · rcases ih h with ⟨neg, hmem⟩ | ⟨hwire, hless', -⟩
            · exact Or.inl ⟨neg, List.mem_cons_of_mem _ hmem⟩
            · exact Or.inr ⟨hwire, hless', fun _ => hhead⟩

theorem sslFetchInput_eof {c : Session} {nbWant : Nat} {s s' : SslIn}
    (h : sslFetchInput c nbWant s = some (MBEDTLS_ERR_SSL_CONN_EOF, s')) :
    (∃ neg, .failed MBEDTLS_ERR_SSL_CONN_EOF neg ∈ s.turns) ∨
      s'.wire = [] ∧ s'.inLeft.length < nbWant ∧
        (s.wire = [] → ∃ more, s.turns.head? = some (.ready more)) := by
  rw [sslFetchInput] at h
  split at h
  · cases h
  · exact fetchLoop_eof h

theorem sslFetchInput_suffix {c : Session} {nbWant : Nat} {s s' : SslIn} {ret : Int}
    (h : sslFetchInput c nbWant s = some (ret, s')) : s'.turns <:+ s.turns := by
  rw [sslFetchInput] at h
  split at h
  · cases h
    exact List.suffix_refl _
  · exact fetchLoop_suffix h

/-- What is so when a read ends with the connection: a call has failed with
the code for it, or the wire is at its end, with a part of a record in the
buffer at the most. -/
def Eof (s s' : SslIn) : Prop :=
  (∃ neg, .failed MBEDTLS_ERR_SSL_CONN_EOF neg ∈ s.turns) ∨
    s'.wire = [] ∧ s'.inLeft.length < sslHdrLen + headerLength s'.inLeft ∧
      (s.inLeft ++ s.wire = [] → ∃ more, s.turns.head? = some (.ready more))

/-! ## Records -/

/-- The header stays what it is when more comes in. -/
theorem headerLength_append {hdr : List UInt8} (h : sslHdrLen ≤ hdr.length) (got : List UInt8) :
    headerLength (hdr ++ got) = headerLength hdr := by
  have hlt : 4 < hdr.length := h
  rw [headerLength, headerLength, List.getD_eq_getElem?_getD, List.getD_eq_getElem?_getD,
    List.getD_eq_getElem?_getD, List.getD_eq_getElem?_getD, List.getElem?_append_left hlt,
    List.getElem?_append_left (Nat.lt_of_succ_lt hlt)]

theorem headerLength_lt (hdr : List UInt8) : headerLength hdr < 2 ^ 16 := by
  have h₁ := (hdr.getD 3 0).toNat_lt
  have h₂ := (hdr.getD 4 0).toNat_lt
  rw [headerLength]
  omega

theorem exists_header {inLeft : List UInt8} (h : sslHdrLen ≤ inLeft.length) :
    ∃ type major minor hi lo body, inLeft = type :: major :: minor :: hi :: lo :: body := by
  match inLeft with
  | type :: major :: minor :: hi :: lo :: body => exact ⟨type, major, minor, hi, lo, body, rfl⟩
  | [] | [_] | [_, _] | [_, _, _] | [_, _, _, _] => exact absurd h (by simp [sslHdrLen])

/-- A buffer that holds what the header announces is a record. -/
theorem recordIn_encode {inLeft : List UInt8}
    (h : inLeft.length = sslHdrLen + headerLength inLeft) :
    (recordIn inLeft).encode = inLeft ∧ (recordIn inLeft).body.length < 2 ^ 16 := by
  have hlt := headerLength_lt inLeft
  obtain ⟨type, major, minor, hi, lo, body, rfl⟩ := exists_header (h ▸ Nat.le_add_right _ _)
  have hlen : body.length = 256 * hi.toNat + lo.toNat := by
    rw [List.length_cons, List.length_cons, List.length_cons, List.length_cons,
      List.length_cons] at h
    change body.length + 1 + 1 + 1 + 1 + 1 = 5 + (256 * hi.toNat + lo.toNat) at h
    omega
  have hlo := lo.toNat_lt
  have hhi : UInt8.ofNat (body.length / 256) = hi := by
    rw [show body.length / 256 = hi.toNat by omega, UInt8.ofNat_toNat]
  have hlow : UInt8.ofNat (body.length % 256) = lo := by
    rw [show body.length % 256 = lo.toNat by omega, UInt8.ofNat_toNat]
  refine ⟨?_, ?_⟩
  · show type :: major :: minor :: (be16 body.length ++ body) = _
    rw [be16, hhi, hlow]
    rfl
  · show body.length < 2 ^ 16
    rw [hlen]
    exact hlt

/-- A header is refused with a code of its own. -/
theorem sslParseRecordHeader_ne_eof (c : Session) (hdr : List UInt8) :
    sslParseRecordHeader c hdr ≠ MBEDTLS_ERR_SSL_CONN_EOF := by
  rw [sslParseRecordHeader]
  repeat' split
  all_goals decide

/-- A call takes records with this application data off the wire. -/
def Yields (c : Session) (s s' : SslIn) (data : List UInt8) : Prop :=
  ∃ fs, Took s s' fs ∧ c.appData s.frames fs = data

theorem Yields.trans {c : Session} {s s' s'' : SslIn} {data data' : List UInt8}
    (h : Yields c s s' data) (h' : Yields c s' s'' data') : Yields c s s'' (data ++ data') := by
  obtain ⟨fs, htook, rfl⟩ := h
  obtain ⟨gs, htook', rfl⟩ := h'
  exact ⟨fs ++ gs, htook.trans htook', by rw [appData_append, htook.frames]⟩

theorem Took.yields {c : Session} {s s' : SslIn} (h : Took s s' []) : Yields c s s' [] :=
  ⟨[], h, rfl⟩

/-- The application data that a message brings. -/
def msgData (ret : Int) (s : SslIn) : List UInt8 :=
  if ret = 0 ∧ s.inMsgtype = MBEDTLS_SSL_MSG_APPLICATION_DATA then s.inMsg else []

theorem msgData_error {ret : Int} (h : ret ≠ 0) (s : SslIn) : msgData ret s = [] :=
  if_neg fun hdata => h hdata.1

theorem msgData_other {s : SslIn} (h : s.inMsgtype ≠ MBEDTLS_SSL_MSG_APPLICATION_DATA)
    (ret : Int) : msgData ret s = [] :=
  if_neg fun hdata => h hdata.2

theorem Sound.fetched {s s' : SslIn} {nbWant : Nat} (hs : Sound s) (hf : Fetched s s')
    (hle : s'.inLeft = s.inLeft ∨ s'.inLeft.length ≤ nbWant)
    (hwant : nbWant ≤ sslHdrLen + headerLength s'.inLeft) : Sound s' where
  within hlen := by
    rcases hle with hsame | hle
    · rw [hsame] at hlen ⊢
      exact hs.within hlen
    · exact Nat.le_trans hle hwant
  handshake := by
    rw [hf.same]
    exact hs.handshake

/-- A record that is whole in the buffer is taken out of it. -/
theorem sslPrepareRecordContent_yields {c : Session} {s : SslIn} (hhs : s.inHslen = 0)
    (hwhole : s.inLeft.length = sslHdrLen + headerLength s.inLeft) :
    Yields c s (sslPrepareRecordContent c s (recordIn s.inLeft)).2
        (msgData (sslPrepareRecordContent c s (recordIn s.inLeft)).1
          (sslPrepareRecordContent c s (recordIn s.inLeft)).2) ∧
      Sound (sslPrepareRecordContent c s (recordIn s.inLeft)).2 ∧
      (sslPrepareRecordContent c s (recordIn s.inLeft)).2.inOfft = s.inOfft := by
  obtain ⟨hencode, hfits⟩ := recordIn_encode hwhole
  have htook : ∀ s', s'.frames = s.frames ++ [recordIn s.inLeft] → s'.inLeft = [] →
      s'.wire = s.wire → Took s s' [recordIn s.inLeft] := by
    intro s' hframes hleft hwire
    refine ⟨hframes, ?_, fun f hf => ?_⟩
    · rw [hleft, hwire, encodeAll, List.flatMap_cons, List.flatMap_nil, List.append_nil, hencode,
        List.nil_append]
    · obtain rfl := List.mem_singleton.mp hf
      exact hfits
  have hsound : ∀ s', s'.inLeft = [] → s'.inHslen = 0 → Sound s' := fun s' hleft hzero =>
    ⟨fun hlen => absurd (hleft ▸ hlen) (by decide), fun hne => absurd hzero hne⟩
  rw [sslPrepareRecordContent]
  cases hdec : c.decryptBuf s.frames (recordIn s.inLeft) with
  | failed code neg =>
      refine ⟨⟨_, htook _ rfl rfl rfl, ?_⟩, hsound _ rfl hhs, rfl⟩
      rw [appData_singleton, Session.content, hdec, msgData_error (Int.ne_of_lt neg)]
  | opened content =>
      simp only
      by_cases hlong : content.length > MBEDTLS_SSL_IN_CONTENT_LEN
      · rw [if_pos hlong]
        refine ⟨⟨_, htook _ rfl rfl rfl, ?_⟩, hsound _ rfl hhs, rfl⟩
        rw [appData_singleton, Session.content, hdec,
          msgData_error (show MBEDTLS_ERR_SSL_INVALID_RECORD ≠ 0 by decide)]
        exact if_neg fun h => Nat.not_lt.mpr h.2 hlong
      · rw [if_neg hlong]
        refine ⟨⟨_, htook _ rfl rfl rfl, ?_⟩, hsound _ rfl hhs, rfl⟩
        rw [appData_singleton, Session.content, hdec, msgData]
        simp only [true_and, and_iff_left (Nat.not_lt.mp hlong)]

/-- **A record is read**, or nothing but a part of one comes into the buffer. -/
theorem sslGetNextRecord_cases {c : Session} {s s' : SslIn} {ret : Int} (hs : Sound s)
    (h : sslGetNextRecord c s = some (ret, s')) :
    (ret ≠ 0 ∧ Fetched s s' ∧ Sound s' ∧ (ret = MBEDTLS_ERR_SSL_CONN_EOF → Eof s s')) ∨
      ∃ s₂, Fetched s s₂ ∧ s₂.inLeft.length = sslHdrLen + headerLength s₂.inLeft ∧
        sslPrepareRecordContent c s₂ (recordIn s₂.inLeft) = (ret, s') := by
  rcases andThen_cases h with ⟨hret, h₁⟩ | ⟨s₁, h₁, h⟩
  · obtain ⟨hf, -, hle⟩ := sslFetchInput_fetched h₁
    refine Or.inl ⟨hret, hf, hs.fetched hf hle (Nat.le_add_right _ _), ?_⟩
    rintro rfl
    refine (sslFetchInput_eof h₁).imp id fun ⟨hwire, hless, hhead⟩ =>
      ⟨hwire, Nat.lt_of_lt_of_le hless (Nat.le_add_right _ _), fun hnil => ?_⟩
    exact hhead (List.append_eq_nil_iff.mp hnil).2
  obtain ⟨hf₁, hwant₁, hle₁⟩ := sslFetchInput_fetched h₁
  have hs₁ := hs.fetched hf₁ hle₁ (Nat.le_add_right _ _)
  rcases andThen_cases h with ⟨hret, hparse⟩ | ⟨s₁', hparse, h⟩
  · obtain ⟨rfl, rfl⟩ := Prod.mk.inj (Option.some.inj hparse)
    exact Or.inl ⟨hret, hf₁, hs₁, fun heof => absurd heof (sslParseRecordHeader_ne_eof c _)⟩
  obtain ⟨-, rfl⟩ := Prod.mk.inj (Option.some.inj hparse)
  -- the header is all there, so more bytes leave it alone
  have hheader : ∀ {ret₂ s₂},
      sslFetchInput c (sslHdrLen + headerLength s₁.inLeft) s₁ = some (ret₂, s₂) →
      Fetched s₁ s₂ ∧ Sound s₂ ∧ headerLength s₂.inLeft = headerLength s₁.inLeft ∧
        (ret₂ = 0 → sslHdrLen + headerLength s₂.inLeft ≤ s₂.inLeft.length) ∧
        sslHdrLen ≤ s₂.inLeft.length := by
    intro ret₂ s₂ h₂
    obtain ⟨hf₂, hwant₂, hle₂⟩ := sslFetchInput_fetched h₂
    obtain ⟨got, hleft, -⟩ := hf₂.bytes
    have hsame : headerLength s₂.inLeft = headerLength s₁.inLeft := by
      rw [hleft, headerLength_append (hwant₁ rfl)]
    refine ⟨hf₂, hs₁.fetched hf₂ hle₂ (Nat.le_of_eq (by rw [hsame])), hsame,
      fun hzero => ?_, ?_⟩
    · rw [hsame]
      exact hwant₂ hzero
    · rw [hleft, List.length_append]
      exact Nat.le_add_right_of_le (hwant₁ rfl)
  rcases andThen_cases h with ⟨hret, h₂⟩ | ⟨s₂, h₂, h⟩
  · obtain ⟨hf₂, hs₂, hsame, -, hlen⟩ := hheader h₂
    refine Or.inl ⟨hret, hf₁.trans hf₂, hs₂, ?_⟩
    rintro rfl
    rcases sslFetchInput_eof h₂ with ⟨neg, hmem⟩ | ⟨hwire, hless, -⟩
    · exact Or.inl ⟨neg, (sslFetchInput_suffix h₁).subset hmem⟩
    · refine Or.inr ⟨hwire, hsame ▸ hless, fun hnil => ?_⟩
      have hempty := (List.append_eq_nil_iff.mp ((hf₁.trans hf₂).append.symm.trans hnil)).1
      rw [hempty] at hlen
      exact absurd hlen (by decide)
  · obtain ⟨hf₂, hs₂, -, hwhole, hlen⟩ := hheader h₂
    exact Or.inr ⟨s₂, hf₁.trans hf₂, Nat.le_antisymm (hs₂.within hlen) (hwhole rfl),
      Option.some.inj h⟩

theorem sslGetNextRecord_yields {c : Session} {s s' : SslIn} {ret : Int} (hs : Sound s)
    (hhs : s.inHslen = 0) (h : sslGetNextRecord c s = some (ret, s')) :
    Yields c s s' (msgData ret s') ∧ Sound s' ∧ s'.inOfft = s.inOfft := by
  rcases sslGetNextRecord_cases hs h with ⟨hret, hf, hs', -⟩ | ⟨s₂, hf, hwhole, hprepare⟩
  · rw [msgData_error hret]
    exact ⟨hf.took.yields, hs', by rw [hf.same]⟩
  · have hzero : s₂.inHslen = 0 := by rw [hf.same]; exact hhs
    have hofft : s₂.inOfft = s.inOfft := by rw [hf.same]
    obtain ⟨hyields, hs', hofft'⟩ := sslPrepareRecordContent_yields (c := c) hzero hwhole
    rw [hprepare] at hyields hs' hofft'
    exact ⟨List.nil_append (msgData ret s') ▸ hf.took.yields.trans hyields, hs',
      hofft'.trans hofft⟩

/-! ## Messages -/

/-- What the current message is, and what a message brings. -/
structure Reads (c : Session) (s s' : SslIn) (data : List UInt8) : Prop where
  yields : Yields c s s' data
  sound : Sound s'
  inOfft : s'.inOfft = s.inOfft

theorem sslNextMessage_reads {c : Session} {s s' : SslIn} {ret : Int} (hs : Sound s)
    (h : sslNextMessage c s = some (ret, s')) : Reads c s s' (msgData ret s') := by
  have hrecord : ∀ msg, sslGetNextRecord c { s with inMsg := msg, inHslen := 0 } = some (ret, s') →
      Reads c s s' (msgData ret s') := by
    intro msg h
    obtain ⟨⟨fs, htook, hdata⟩, hs', hofft⟩ := sslGetNextRecord_yields
      (s := { s with inMsg := msg, inHslen := 0 }) ⟨hs.within, fun hne => absurd rfl hne⟩ rfl h
    exact ⟨⟨fs, ⟨htook.frames, htook.bytes, htook.fits⟩, hdata⟩, hs', hofft⟩
  rw [sslNextMessage, sslConsumeCurrentMessage] at h
  by_cases hhs : s.inHslen ≠ 0
  · rw [if_pos hhs] at h
    by_cases hmsg : s.inMsg.drop s.inHslen ≠ []
    · -- the next handshake message of the record
      rw [if_pos hmsg] at h
      cases h
      refine ⟨?_, ⟨hs.within, fun hne => absurd rfl hne⟩, rfl⟩
      rw [msgData_other (by show s.inMsgtype ≠ _; rw [hs.handshake hhs]; decide)]
      exact Took.yields (.none rfl rfl)
    · rw [if_neg hmsg] at h
      exact hrecord _ h
  · rw [if_neg hhs, if_neg (fun hne => hne rfl)] at h
    obtain hzero : s.inHslen = 0 := Decidable.not_not.mp hhs
    refine hrecord [] ?_
    rw [← hzero]
    exact h

/-- The handling by type leaves the message alone. Only alerts are ignored. -/
theorem sslHandleMessageType_reads {c : Session} {s s' : SslIn} (h : Reads c s s' (msgData 0 s')) :
    Reads c s (sslHandleMessageType s').2
        (msgData (sslHandleMessageType s').1 (sslHandleMessageType s').2) ∧
      ((sslHandleMessageType s').1 = MBEDTLS_ERR_SSL_NON_FATAL →
        Reads c s (sslHandleMessageType s').2 []) := by
  obtain ⟨⟨fs, htook, hdata⟩, hs', hofft⟩ := h
  by_cases htype : s'.inMsgtype = MBEDTLS_SSL_MSG_APPLICATION_DATA
  · have hhandle : sslHandleMessageType s' = (0, s') := by
      rw [sslHandleMessageType, htype, if_neg (by decide), if_neg (by decide),
        if_neg (by decide)]
    rw [hhandle]
    exact ⟨⟨⟨fs, htook, hdata⟩, hs', hofft⟩, fun hnon => absurd hnon (show (0 : Int) ≠ _ by decide)⟩
  · obtain ⟨hslen, hsame, hhslen⟩ := sslHandleMessageType_same s'
    have hnone : Reads c s (sslHandleMessageType s').2 [] := by
      rw [hsame]
      refine ⟨⟨fs, ⟨htook.frames, htook.bytes, htook.fits⟩, hdata.trans (msgData_other htype 0)⟩,
        ⟨hs'.within, fun hne => ?_⟩, hofft⟩
      exact Decidable.byContradiction fun hother =>
        hother (hs'.handshake (hhslen hother ▸ hne))
    have hdata' : msgData (sslHandleMessageType s').1 (sslHandleMessageType s').2 = [] :=
      msgData_other (by rw [hsame]; exact htype) _
    rw [hdata']
    exact ⟨hnone, fun _ => hnone⟩

theorem Reads.trans {c : Session} {s s' s'' : SslIn} {data : List UInt8} (h : Reads c s s' [])
    (h' : Reads c s' s'' data) : Reads c s s'' data where
  yields := h.yields.trans h'.yields
  sound := h'.sound
  inOfft := h'.inOfft.trans h.inOfft

theorem sslReadRecord_reads {c : Session} {s s' : SslIn} {ret : Int} (hs : Sound s)
    (h : sslReadRecord c s = some (ret, s')) : Reads c s s' (msgData ret s') := by
  fun_induction sslReadRecord c s with
  | case1 => cases h
  | case2 s ret₁ s₁ hnext hret =>
      cases h
      exact sslNextMessage_reads hs hnext
  | case3 s ret₁ s₁ hnext hret hagain ih =>
      obtain rfl : ret₁ = 0 := Decidable.not_not.mp hret
      have hskip := (sslHandleMessageType_reads (sslNextMessage_reads hs hnext)).2 hagain
      exact hskip.trans (ih hskip.sound h)
  | case4 s ret₁ s₁ hnext hret hagain =>
      obtain rfl : ret₁ = 0 := Decidable.not_not.mp hret
      have hhandled := (sslHandleMessageType_reads (sslNextMessage_reads hs hnext)).1
      rw [Option.some.inj h] at hhandled
      exact hhandled

/-! ## The value returned -/

/-- A call that does not succeed returns a negative value. -/
def Nonpos (r : Option (Int × SslIn)) : Prop := ∀ ret s, r = some (ret, s) → ret ≤ 0

theorem Nonpos.andThen {r : Option (Int × SslIn)} {next : SslIn → Option (Int × SslIn)}
    (h : Nonpos r) (hnext : ∀ s, Nonpos (next s)) : Nonpos (andThen r next) := by
  intro ret s hr
  rcases andThen_cases hr with ⟨-, hr⟩ | ⟨s₁, -, hr⟩
  · exact h ret s hr
  · exact hnext s₁ ret s hr

theorem fetchLoop_nonpos (nbWant : Nat) (turns : List Turn) (s : SslIn) :
    Nonpos (fetchLoop nbWant turns s) := by
  intro ret s' h
  induction turns generalizing s with
  | nil =>
      rw [fetchLoop] at h
      split at h <;> cases h
      exact Int.le_refl 0
  | cons turn turns ih =>
      rw [fetchLoop] at h
      split at h
      · cases h
        exact Int.le_refl 0
      · simp only at h
        split at h
        · cases h
          decide
        · split at h
          · rename_i hneg
            cases h
            exact Int.le_of_lt hneg
          · exact ih _ h

theorem sslFetchInput_nonpos (c : Session) (nbWant : Nat) (s : SslIn) :
    Nonpos (sslFetchInput c nbWant s) := by
  rw [sslFetchInput]
  split
  · rintro _ _ ⟨⟩
    decide
  · exact fetchLoop_nonpos nbWant s.turns s

theorem sslParseRecordHeader_nonpos (c : Session) (hdr : List UInt8) :
    sslParseRecordHeader c hdr ≤ 0 := by
  rw [sslParseRecordHeader]
  repeat' split
  all_goals decide

theorem sslPrepareRecordContent_nonpos (c : Session) (s : SslIn) (f : Frame) :
    (sslPrepareRecordContent c s f).1 ≤ 0 := by
  rw [sslPrepareRecordContent]
  split
  · rename_i neg _
    exact Int.le_of_lt neg
  · split
    all_goals
      dsimp only
      decide

theorem sslGetNextRecord_nonpos (c : Session) (s : SslIn) : Nonpos (sslGetNextRecord c s) :=
  (sslFetchInput_nonpos c _ s).andThen fun s₁ =>
    Nonpos.andThen (fun _ _ h => (Prod.mk.inj (Option.some.inj h)).1 ▸
        sslParseRecordHeader_nonpos c s₁.inLeft) fun s₂ =>
      (sslFetchInput_nonpos c _ s₂).andThen fun s₃ _ _ h => by
        have hle := sslPrepareRecordContent_nonpos c s₃ (recordIn s₃.inLeft)
        rw [Option.some.inj h] at hle
        exact hle

theorem sslHandleMessageType_nonpos (s : SslIn) : (sslHandleMessageType s).1 ≤ 0 := by
  rw [sslHandleMessageType]
  repeat' first | split | (simp only; split)
  all_goals
    dsimp only
    decide

theorem sslReadRecord_nonpos (c : Session) (s : SslIn) : Nonpos (sslReadRecord c s) := by
  intro ret s' h
  fun_induction sslReadRecord c s with
  | case1 => cases h
  | case2 s ret₁ s₁ hnext hret =>
      cases h
      rw [sslNextMessage] at hnext
      split at hnext
      · cases hnext
        exact Int.le_refl 0
      · exact sslGetNextRecord_nonpos c _ _ _ hnext
  | case3 s ret₁ s₁ hnext hret hagain ih => exact ih h
  | case4 s ret₁ s₁ hnext hret hagain =>
      have hle := sslHandleMessageType_nonpos s₁
      rw [Option.some.inj h] at hle
      exact hle

theorem sslReadLoop_nonpos (c : Session) (retried : Bool) (s : SslIn) :
    Nonpos (sslReadLoop c retried s) := by
  intro ret s' h
  fun_induction sslReadLoop c retried s with
  | case1 => cases h
  | case2 retried s ret₁ s₁ hrecord hret =>
      cases h
      split
      · exact Int.le_refl 0
      · exact sslReadRecord_nonpos c s ret₁ s' hrecord
  | case3 => rename_i ih; exact ih h
  | case4 =>
      cases h
      exact Int.le_refl 0
  | case5 =>
      cases h
      decide
  | case6 =>
      cases h
      exact c.sendAlert_le _
  | case7 => rename_i ih; exact ih h
  | case8 =>
      cases h
      decide
  | case9 =>
      cases h
      decide

/-! ## One call -/

/-- The data that waits for the next calls. -/
def SslIn.pending (s : SslIn) : List UInt8 := s.inOfft.getD []

/-- The loop ends with the data of the records it has read, all of it. -/
theorem sslReadLoop_reads {c : Session} {retried : Bool} {s s' : SslIn} {ret : Int}
    (hs : Sound s) (hempty : s.inOfft = none) (h : sslReadLoop c retried s = some (ret, s')) :
    Yields c s s' s'.pending ∧ Sound s' := by
  have hstop : ∀ {s s₁}, s.inOfft = none → Reads c s s₁ [] →
      Yields c s s₁ s₁.pending ∧ Sound s₁ := by
    intro s s₁ hempty hreads
    rw [SslIn.pending, hreads.inOfft, hempty]
    exact ⟨hreads.yields, hreads.sound⟩
  fun_induction sslReadLoop c retried s with
  | case1 => cases h
  | case2 retried s ret₁ s₁ hrecord hret =>
      cases h
      exact hstop hempty (msgData_error hret s' ▸ sslReadRecord_reads hs hrecord)
  | case3 retried s ret₁ s₁ hrecord hret htype hagain ih =>
      obtain rfl : ret₁ = 0 := Decidable.not_not.mp hret
      have hreads := sslReadRecord_reads hs hrecord
      rw [msgData, if_pos ⟨rfl, htype⟩, hagain.1] at hreads
      obtain ⟨hyields, hsound⟩ := ih hreads.sound (hreads.inOfft.trans hempty) h
      exact ⟨hreads.yields.trans hyields, hsound⟩
  | case4 retried s ret₁ s₁ hrecord hret htype hagain =>
      obtain rfl : ret₁ = 0 := Decidable.not_not.mp hret
      have hreads := sslReadRecord_reads hs hrecord
      rw [msgData, if_pos ⟨rfl, htype⟩] at hreads
      obtain ⟨fs, htook, hdata⟩ := hreads.yields
      cases h
      exact ⟨⟨fs, ⟨htook.frames, htook.bytes, htook.fits⟩, hdata⟩,
        ⟨hreads.sound.within, hreads.sound.handshake⟩⟩
  | case5 retried s ret₁ s₁ hrecord hret htype =>
      cases h
      exact hstop hempty (msgData_other htype ret₁ ▸ sslReadRecord_reads hs hrecord)
  | case6 retried s ret₁ s₁ hrecord hret htype =>
      cases h
      exact hstop hempty (msgData_other htype ret₁ ▸ sslReadRecord_reads hs hrecord)
  | case7 retried s ret₁ s₁ hrecord hret htype hhello hname halert ih =>
      have hreads : Reads c s s₁ [] :=
        msgData_other htype ret₁ ▸ sslReadRecord_reads hs hrecord
      obtain ⟨hyields, hsound⟩ := ih hreads.sound (hreads.inOfft.trans hempty) h
      exact ⟨hreads.yields.trans hyields, hsound⟩
  | case8 retried s ret₁ s₁ hrecord hret htype =>
      cases h
      exact hstop hempty (msgData_other htype ret₁ ▸ sslReadRecord_reads hs hrecord)
  | case9 retried s ret₁ s₁ hrecord hret htype =>
      cases h
      exact hstop hempty (msgData_other htype ret₁ ▸ sslReadRecord_reads hs hrecord)

/-- What is handed out and what waits is what there was. -/
theorem sslTake_pending (len : Nat) (data : List UInt8) (s : SslIn) :
    (sslTake len data s).2.1 ++ (sslTake len data s).2.2.pending = data ∧
      (sslTake len data s).1 = (sslTake len data s).2.1.length ∧
      (sslTake len data s).2.1.length ≤ len := by
  have hn : (if len < data.length then len else data.length) = min len data.length := by
    rw [Nat.min_def]
    split <;> split <;> omega
  rw [sslTake, hn]
  refine ⟨?_, ?_, ?_⟩
  · rw [SslIn.pending]
    simp only
    split
    · rename_i hdrop
      rw [Option.getD_none, List.append_nil]
      conv => rhs; rw [← List.take_append_drop (min len data.length) data, hdrop]
      rw [List.append_nil]
    · exact List.take_append_drop _ data
  · rw [List.length_take]
    omega
  · rw [List.length_take]
    omega

/-- **What a call hands out** is the data that waits and the data of the
records it takes off the wire, up to what waits after it. A positive value is
the number of bytes handed out; else there are none. -/
structure Handed (c : Session) (len : Nat) (s : SslIn) (ret : Int) (out : List UInt8)
    (s' : SslIn) : Prop where
  took : ∃ fs, Took s s' fs ∧ s.pending ++ c.appData s.frames fs = out ++ s'.pending
  sound : Sound s'
  length : out.length = ret.toNat
  most : out.length ≤ len

/-- Data that waits is handed out. -/
theorem sslTake_handed {c : Session} (len : Nat) {s s' : SslIn} (data : List UInt8)
    {fs : List Frame} (htook : Took s s' fs) (hs' : Sound s')
    (hdata : s.pending ++ c.appData s.frames fs = data) :
    Handed c len s (sslTake len data s').1 (sslTake len data s').2.1 (sslTake len data s').2.2 := by
  obtain ⟨hpending, hret, hmost⟩ := sslTake_pending len data s'
  refine ⟨⟨fs, ⟨htook.frames, htook.bytes, htook.fits⟩, hdata.trans hpending.symm⟩,
    ⟨hs'.within, hs'.handshake⟩, ?_, hmost⟩
  rw [hret, Int.toNat_natCast]

theorem sslRead_handed {c : Session} {len : Nat} {s s' : SslIn} {ret : Int} {out : List UInt8}
    (hs : Sound s) (h : sslRead c len s = some (ret, out, s')) : Handed c len s ret out s' := by
  rw [sslRead] at h
  cases hofft : s.inOfft with
  | some data =>
      rw [hofft] at h
      have hnone : Took s s [] := .none rfl rfl
      have hhanded := sslTake_handed (c := c) len data hnone hs
        (by rw [SslIn.pending, hofft, Session.appData, List.append_nil]; rfl)
      rw [Option.some.inj h] at hhanded
      exact hhanded
  | none =>
      rw [hofft] at h
      obtain ⟨⟨ret₁, s₁⟩, hloop, h⟩ := Option.map_eq_some_iff.mp h
      obtain ⟨⟨fs, htook, hdata⟩, hs₁⟩ := sslReadLoop_reads hs hofft hloop
      have hpending : s.pending = [] := by rw [SslIn.pending, hofft]; rfl
      simp only at h
      cases hofft₁ : s₁.inOfft with
      | some data =>
          rw [hofft₁] at h
          have hhanded := sslTake_handed len data htook hs₁
            (by rw [hpending, hdata, SslIn.pending, hofft₁]; rfl)
          have htake : sslTake len data s₁ = (ret, out, s') := h
          rw [htake] at hhanded
          exact hhanded
      | none =>
          rw [hofft₁] at h
          cases h
          refine ⟨⟨fs, htook, by rw [hpending, hdata]⟩, hs₁, ?_, Nat.zero_le _⟩
          exact (Int.toNat_of_nonpos (sslReadLoop_nonpos c false s ret s' hloop)).symm

/-! ## Runs -/

/-- The context, and the bytes handed out so far. -/
structure Receiving where
  ssl : SslIn
  received : List UInt8

/-- A call of `TLS_Read` for `call.1` bytes, and what the socket has for it. -/
def Receiving.step (c : Session) (s : Receiving) (call : Nat × List Turn) : Option Receiving :=
  (sslRead c call.1 { s.ssl with turns := call.2 }).map fun (_, out, ssl) =>
    ⟨ssl, s.received ++ out⟩

/-- The handshake is over, and nothing has been read of what comes next. -/
def Receiving.start (wire : List UInt8) : Receiving where
  ssl := ⟨wire, [], 0, [], 0, none, [], []⟩
  received := []

/-- Some records are taken off the wire, and their application data has been
handed out, up to what waits. -/
structure Received (c : Session) (wire : List UInt8) (s : Receiving) : Prop where
  took : Took (Receiving.start wire).ssl s.ssl s.ssl.frames
  data : c.appData [] s.ssl.frames = s.received ++ s.ssl.pending
  sound : Sound s.ssl

theorem received_start (c : Session) (wire : List UInt8) :
    Received c wire (Receiving.start wire) where
  took := .none rfl rfl
  data := rfl
  sound := ⟨fun hlen => absurd hlen (show ¬sslHdrLen ≤ 0 by decide), fun hne => absurd rfl hne⟩

theorem Received.step {c : Session} {wire : List UInt8} {s s' : Receiving}
    {call : Nat × List Turn} (h : Received c wire s) (hstep : s.step c call = some s') :
    Received c wire s' := by
  obtain ⟨⟨ret, out, ssl⟩, hread, rfl⟩ := Option.map_eq_some_iff.mp hstep
  have hhanded := sslRead_handed (s := { s.ssl with turns := call.2 })
    ⟨h.sound.within, h.sound.handshake⟩ hread
  obtain ⟨fs, htook, hdata⟩ := hhanded.took
  have hframes : ssl.frames = s.ssl.frames ++ fs := htook.frames
  refine ⟨?_, ?_, hhanded.sound⟩
  · show Took _ ssl ssl.frames
    rw [hframes]
    exact h.took.trans ⟨htook.frames, htook.bytes, htook.fits⟩
  · show c.appData [] ssl.frames = (s.received ++ out) ++ ssl.pending
    rw [hframes, appData_append, h.data, List.nil_append, List.append_assoc, List.append_assoc]
    exact congrArg (s.received ++ ·) hdata

theorem run_received {c : Session} {wire : List UInt8} {calls : List (Nat × List Turn)}
    {s : Receiving} (h : Machine.run (Receiving.step c) (.start wire) calls = some s) :
    Received c wire s := by
  have hany : Machine.Along (Receiving.step c) (fun _ _ => True) (.start wire) calls :=
    Machine.along_of_forall (fun _ _ _ => trivial) _
  exact Machine.run_invariant (Received c wire) (fun _ _ _ _ hinv hstep => hinv.step hstep)
    (received_start c wire) hany h

theorem appData_mono (c : Session) {fs gs : List Frame} (h : fs <+: gs) :
    c.appData [] fs <+: c.appData [] gs := by
  obtain ⟨rest, rfl⟩ := h
  rw [appData_append]
  exact List.prefix_append _ _

end NucleoMqtt.Tls
