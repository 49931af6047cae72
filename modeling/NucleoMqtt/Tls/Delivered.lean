import NucleoMqtt.Tls.Received

/-!
# Tls — reads that bring in everything

When every record on the wire is one that the session accepts, with
application data in it, and the socket keeps on handing out bytes, then
calls of `mbedtls_ssl_read` bring in everything: each call that finds
something left hands out at least a byte of it. In front of this stand the
two results about any run at all.
-/

namespace NucleoMqtt.Tls

open NucleoMqtt.Lib

/-! ## Enough bytes on the socket -/

/-- The socket hands out bytes in all of these calls. -/
def AllReady (turns : List Turn) : Prop := ∀ turn ∈ turns, ∃ more, turn = .ready more

theorem AllReady.tail {turn : Turn} {turns : List Turn} (h : AllReady (turn :: turns)) :
    AllReady turns := fun t ht => h t (List.mem_cons_of_mem turn ht)

/-- The first `n` bytes on the wire are in the input buffer. -/
def SslIn.filled (s : SslIn) (n : Nat) (turns : List Turn) : SslIn :=
  { s with inLeft := s.inLeft ++ s.wire.take n, wire := s.wire.drop n, turns := turns }

theorem filled_filled (s : SslIn) (m n : Nat) (turns turns' : List Turn) :
    (s.filled m turns).filled n turns' = s.filled (m + n) turns' := by
  rw [SslIn.filled, SslIn.filled, SslIn.filled]
  simp only [List.append_assoc, List.drop_drop, List.take_add]

theorem filled_zero (s : SslIn) (turns : List Turn) :
    s.filled 0 turns = { s with turns := turns } := by
  rw [SslIn.filled, List.take_zero, List.append_nil, List.drop_zero]

/-- Nothing is read when there is enough. -/
theorem fetchLoop_done (turns : List Turn) (s : SslIn) :
    fetchLoop s.inLeft.length turns s = some (0, s.filled 0 turns) := by
  rw [filled_zero]
  cases turns <;> exact if_pos (Nat.le_refl _)

/-- **The bytes wanted come**, a call for each at the most. -/
theorem fetchLoop_ready {turns : List Turn} (hready : AllReady turns) (s : SslIn) (n : Nat)
    (hwire : n ≤ s.wire.length) (hturns : n ≤ turns.length) :
    ∃ turns', fetchLoop (s.inLeft.length + n) turns s = some (0, s.filled n turns') ∧
      AllReady turns' ∧ turns.length ≤ turns'.length + n := by
  induction turns generalizing s n with
  | nil =>
      obtain rfl : n = 0 := Nat.le_zero.mp hturns
      exact ⟨[], fetchLoop_done [] s, hready, Nat.le_refl _⟩
  | cons turn turns ih =>
      rcases Nat.eq_zero_or_pos n with rfl | hpos
      · exact ⟨turn :: turns, fetchLoop_done _ s, hready, Nat.le_refl _⟩
      · obtain ⟨more, rfl⟩ := hready turn List.mem_cons_self
        have hsome : 1 ≤ min (more + 1) n := by omega
        have hall : min (more + 1) n ≤ n := Nat.min_le_right _ _
        obtain ⟨turns', hfetch, hready', hlen⟩ := ih hready.tail
          (s.filled (min (more + 1) n) s.turns) (n - min (more + 1) n)
          (by rw [SslIn.filled, List.length_drop]; omega)
          (by rw [List.length_cons] at hturns; omega)
        refine ⟨turns', ?_, hready', by rw [List.length_cons]; omega⟩
        have hread : tcpRead s (s.inLeft.length + n - s.inLeft.length) (.ready more)
            = (((min (more + 1) n : Nat) : Int), s.filled (min (more + 1) n) s.turns) := by
          rw [tcpRead, Nat.add_sub_cancel_left, SslIn.filled, List.length_take,
            Nat.min_eq_left (Nat.le_trans hall hwire)]
        have hwant : (s.filled (min (more + 1) n) s.turns).inLeft.length + (n - min (more + 1) n)
            = s.inLeft.length + n := by
          rw [SslIn.filled, List.length_append, List.length_take]
          omega
        rw [hwant, filled_filled, Nat.add_sub_cancel' hall] at hfetch
        rw [fetchLoop, if_neg (by omega), hread]
        simp only
        rw [if_neg (by omega), if_neg (by omega)]
        exact hfetch

/-! ## A record with application data -/

/-- A record that the session accepts, behind those before, and the
application data in it. -/
structure Carries (c : Session) (earlier : List Frame) (f : Frame) (content : List UInt8) :
    Prop where
  header : sslParseRecordHeader c (f.encode.take sslHdrLen) = 0
  room : f.encode.length ≤ c.hdrRoom
  fits : f.body.length < 2 ^ 16
  type : f.type = MBEDTLS_SSL_MSG_APPLICATION_DATA
  opened : c.decryptBuf earlier f = .opened content
  some : content ≠ []
  most : content.length ≤ MBEDTLS_SSL_IN_CONTENT_LEN

theorem Carries.content {c : Session} {earlier : List Frame} {f : Frame} {content : List UInt8}
    (h : Carries c earlier f content) : c.content earlier f = content := by
  rw [Session.content, h.opened]
  exact if_pos ⟨h.type, h.most⟩

theorem length_encode (f : Frame) : f.encode.length = sslHdrLen + f.body.length := by
  rw [Frame.encode, List.length_cons, List.length_cons, List.length_cons, List.length_append,
    length_be16, sslHdrLen]
  omega

theorem headerLength_encode {f : Frame} (h : f.body.length < 2 ^ 16) :
    headerLength (f.encode.take sslHdrLen) = f.body.length :=
  be16_value h

theorem recordIn_of_encode (f : Frame) : recordIn f.encode = f := rfl

theorem andThen_ok (s : SslIn) (next : SslIn → Option (Int × SslIn)) :
    andThen (some (0, s)) next = next s := rfl

/-- **The record is read whole** when the socket has it. -/
theorem sslGetNextRecord_carries {c : Session} {s : SslIn} {f : Frame} {content rest : List UInt8}
    (hf : Carries c s.frames f content) (hleft : s.inLeft = []) (hwire : s.wire = f.encode ++ rest)
    (hready : AllReady s.turns) (hturns : f.encode.length ≤ s.turns.length) :
    ∃ turns', sslGetNextRecord c s
      = some (0, { s with wire := rest, inMsgtype := MBEDTLS_SSL_MSG_APPLICATION_DATA,
                          inMsg := content, turns := turns', frames := s.frames ++ [f] }) := by
  have hlen := length_encode f
  have hroom := hf.room
  obtain ⟨turns₁, hfetch₁, hready₁, hlen₁⟩ := fetchLoop_ready hready s sslHdrLen
    (by rw [hwire, List.length_append]; omega) (by omega)
  have hinput₁ : sslFetchInput c sslHdrLen s = some (0, s.filled sslHdrLen turns₁) := by
    rw [hleft, List.length_nil, Nat.zero_add] at hfetch₁
    rw [sslFetchInput, if_neg (by omega), hfetch₁]
  have hhdr : (s.filled sslHdrLen turns₁).inLeft = f.encode.take sslHdrLen := by
    rw [SslIn.filled, hleft, hwire, List.nil_append,
      List.take_append_of_le_length (by omega)]
  have hhdrlen : (s.filled sslHdrLen turns₁).inLeft.length = sslHdrLen := by
    rw [hhdr, List.length_take]
    omega
  obtain ⟨turns₂, hfetch₂, -, -⟩ := fetchLoop_ready hready₁ (s.filled sslHdrLen turns₁)
    f.body.length (by rw [SslIn.filled, List.length_drop, hwire, List.length_append]; omega)
    (by omega)
  rw [hhdrlen, filled_filled] at hfetch₂
  have hinput₂ : sslFetchInput c (sslHdrLen + headerLength (s.filled sslHdrLen turns₁).inLeft)
      (s.filled sslHdrLen turns₁) = some (0, s.filled (sslHdrLen + f.body.length) turns₂) := by
    rw [hhdr, headerLength_encode hf.fits, sslFetchInput, if_neg (by omega)]
    exact hfetch₂
  have hwhole : s.filled (sslHdrLen + f.body.length) turns₂
      = { s with inLeft := f.encode, wire := rest, turns := turns₂ } := by
    rw [SslIn.filled, hleft, hwire, List.nil_append, ← hlen, List.take_left, List.drop_left]
  refine ⟨turns₂, ?_⟩
  rw [sslGetNextRecord, hinput₁, andThen_ok, hhdr, hf.header, andThen_ok, hinput₂, hwhole,
    andThen_ok, recordIn_of_encode, sslPrepareRecordContent]
  simp only [hf.opened]
  rw [if_neg (Nat.not_lt.mpr hf.most), hleft, hf.type]

/-- At the end of the wire there is no record. -/
theorem sslGetNextRecord_end {c : Session} {s : SslIn} (hleft : s.inLeft = [])
    (hwire : s.wire = []) (hready : AllReady s.turns) (hturns : 0 < s.turns.length) :
    ∃ ret turns', sslGetNextRecord c s = some (ret, { s with turns := turns' }) ∧ ret ≠ 0 := by
  have hinput : ∃ ret turns', sslFetchInput c sslHdrLen s = some (ret, { s with turns := turns' }) ∧
      ret ≠ 0 := by
    rw [sslFetchInput]
    split
    · exact ⟨_, s.turns, rfl, by decide⟩
    · obtain ⟨turn, turns, hcons⟩ := List.exists_cons_of_length_pos hturns
      obtain ⟨more, rfl⟩ := hready turn (hcons ▸ List.mem_cons_self)
      refine ⟨MBEDTLS_ERR_SSL_CONN_EOF, turns, ?_, by decide⟩
      rw [hcons, fetchLoop, hleft, if_neg (by decide), tcpRead, hwire, List.take_nil, List.drop_nil,
        hleft]
      rfl
  obtain ⟨ret, turns', hinput, hret⟩ := hinput
  refine ⟨ret, turns', ?_, hret⟩
  rw [sslGetNextRecord, hinput]
  exact if_pos hret

/-! ## One call -/

theorem sslReadRecord_eq {c : Session} {s s₁ : SslIn} {ret : Int}
    (h : sslNextMessage c s = some (ret, s₁)) :
    sslReadRecord c s = if ret ≠ 0 then some (ret, s₁)
      else if (sslHandleMessageType s₁).1 = MBEDTLS_ERR_SSL_NON_FATAL then
        sslReadRecord c (sslHandleMessageType s₁).2
      else some (sslHandleMessageType s₁) := by
  rw [sslReadRecord]
  split
  · rename_i hnone
    rw [hnone] at h
    cases h
  · rename_i hsome
    rw [h] at hsome
    cases hsome
    rfl

theorem sslNextMessage_eq (c : Session) {s : SslIn} (h : s.inHslen = 0) :
    sslNextMessage c s = sslGetNextRecord c { s with inMsg := [] } := by
  have hconsume : sslConsumeCurrentMessage s = { s with inMsg := [] } :=
    if_neg fun hne => hne h
  rw [sslNextMessage, hconsume]
  exact if_neg fun hne => hne rfl

/-- A record with application data ends the loop. -/
theorem sslReadLoop_data {c : Session} (retried : Bool) {s s₁ : SslIn} (hhs : s.inHslen = 0)
    (h : sslGetNextRecord c { s with inMsg := [] } = some (0, s₁))
    (htype : s₁.inMsgtype = MBEDTLS_SSL_MSG_APPLICATION_DATA) (hsome : s₁.inMsg ≠ []) :
    sslReadLoop c retried s = some (0, { s₁ with inMsg := [], inOfft := some s₁.inMsg }) := by
  have hhandle : sslHandleMessageType s₁ = (0, s₁) := by
    rw [sslHandleMessageType, htype, if_neg (by decide), if_neg (by decide), if_neg (by decide)]
  have hrecord : sslReadRecord c s = some (0, s₁) := by
    rw [sslReadRecord_eq ((sslNextMessage_eq c hhs).trans h), if_neg (fun hne => hne rfl), hhandle]
    exact if_neg (show (0 : Int) ≠ MBEDTLS_ERR_SSL_NON_FATAL by decide)
  rw [sslReadLoop]
  split
  · rename_i hnone
    rw [hnone] at hrecord
    cases hrecord
  · rename_i hread
    rw [hrecord] at hread
    cases hread
    rw [dif_neg (fun hne => hne rfl), if_pos htype, if_neg (fun hempty => hsome hempty.1)]

/-- A failure ends it too. -/
theorem sslReadLoop_failed {c : Session} (retried : Bool) {s s₁ : SslIn} {ret : Int}
    (hhs : s.inHslen = 0) (h : sslGetNextRecord c { s with inMsg := [] } = some (ret, s₁))
    (hret : ret ≠ 0) :
    sslReadLoop c retried s = some (if ret = MBEDTLS_ERR_SSL_CONN_EOF then 0 else ret, s₁) := by
  have hrecord : sslReadRecord c s = some (ret, s₁) := by
    rw [sslReadRecord_eq ((sslNextMessage_eq c hhs).trans h), if_pos hret]
  rw [sslReadLoop]
  split
  · rename_i hnone
    rw [hnone] at hrecord
    cases hrecord
  · rename_i hread
    rw [hrecord] at hread
    cases hread
    exact dif_pos hret

/-- The records from here on carry this, each its own part. -/
def AllCarry (c : Session) : List Frame → List Frame → List (List UInt8) → Prop
  | _, [], contents => contents = []
  | earlier, f :: fs, contents => ∃ content rest, contents = content :: rest ∧
      Carries c earlier f content ∧ AllCarry c (earlier ++ [f]) fs rest

theorem AllCarry.appData {c : Session} {earlier fs : List Frame} {contents : List (List UInt8)}
    (h : AllCarry c earlier fs contents) : c.appData earlier fs = contents.flatten := by
  induction fs generalizing earlier contents with
  | nil =>
      rw [show contents = [] from h]
      rfl
  | cons f fs ih =>
      obtain ⟨content, rest, rfl, hf, hrest⟩ := h
      rw [Session.appData, hf.content, ih hrest, List.flatten_cons]

/-- Between two calls: no part of a record is in the buffer, and the records
to come have application data. -/
structure Between (c : Session) (s : SslIn) (fs : List Frame) : Prop where
  inLeft : s.inLeft = []
  inHslen : s.inHslen = 0
  wire : s.wire = encodeAll fs
  carry : ∃ contents, AllCarry c s.frames fs contents
  waiting : s.inOfft ≠ some []

/-- What there is still to hand out. -/
def SslIn.toCome (c : Session) (s : SslIn) (fs : List Frame) : List UInt8 :=
  s.pending ++ c.appData s.frames fs

/-- A call for some bytes, with enough calls of the socket. -/
structure Ample (n : Nat) (call : Nat × List Turn) : Prop where
  asks : 0 < call.1
  ready : AllReady call.2
  turns : n < call.2.length

theorem waiting_ne_nil (rest : List UInt8) :
    (if rest = [] then none else some rest) ≠ some [] := by
  split
  · rintro ⟨⟩
  · rename_i hrest
    exact fun heq => hrest (Option.some.inj heq)

/-- **A call finds some of what is left**, if there is some. -/
structure Finds (c : Session) (s : SslIn) (fs : List Frame) (out : List UInt8) (s' : SslIn)
    (fs' : List Frame) : Prop where
  between : Between c s' fs'
  toCome : s.toCome c fs = out ++ s'.toCome c fs'
  found : out = [] → s.toCome c fs = []
  less : (encodeAll fs').length ≤ (encodeAll fs).length

theorem sslTake_finds {c : Session} {len : Nat} {s : SslIn} {data : List UInt8} {fs : List Frame}
    (hlen : 0 < len) (hofft : s.inOfft = some data) (h : Between c s fs) :
    Finds c s fs (sslTake len data s).2.1 (sslTake len data s).2.2 fs where
  between := ⟨h.inLeft, h.inHslen, h.wire, h.carry, waiting_ne_nil _⟩
  toCome := by
    have hpending : s.pending = data := by rw [SslIn.pending, hofft]; rfl
    rw [SslIn.toCome, SslIn.toCome, ← List.append_assoc, (sslTake_pending len data s).1, hpending]
    rfl
  found hnil := by
    have hdata : data ≠ [] := fun hnil => h.waiting (hnil ▸ hofft)
    have hpos := List.length_pos_iff.mpr hdata
    have hzero := congrArg List.length hnil
    rw [sslTake, List.length_take, List.length_nil] at hzero
    split at hzero <;> omega
  less := Nat.le_refl _

theorem sslRead_finds {c : Session} {s : SslIn} {fs : List Frame} {len : Nat} (hlen : 0 < len)
    (hs : Between c s fs) (hready : AllReady s.turns)
    (hturns : (encodeAll fs).length < s.turns.length) :
    ∃ ret out s' fs', sslRead c len s = some (ret, out, s') ∧ Finds c s fs out s' fs' := by
  rw [sslRead]
  cases hofft : s.inOfft with
  | some data => exact ⟨_, _, _, fs, rfl, sslTake_finds hlen hofft hs⟩
  | none =>
      have hpending : s.pending = [] := by rw [SslIn.pending, hofft]; rfl
      cases fs with
      | nil =>
          obtain ⟨ret, turns', hrecord, hret⟩ := sslGetNextRecord_end (c := c)
            (s := { s with inMsg := [] }) hs.inLeft hs.wire hready (Nat.zero_lt_of_lt hturns)
          have hloop := sslReadLoop_failed false hs.inHslen hrecord hret
          refine ⟨if ret = MBEDTLS_ERR_SSL_CONN_EOF then 0 else ret, [],
            { s with inMsg := [], turns := turns' }, [], ?_,
            ⟨hs.inLeft, hs.inHslen, hs.wire, hs.carry, hs.waiting⟩, rfl, fun _ => ?_, Nat.le_refl _⟩
          · rw [hloop, Option.map_some]
            simp only [hofft]
          · rw [SslIn.toCome, hpending]
            rfl
      | cons f fs =>
          obtain ⟨contents, content, rest, -, hf, hcarry⟩ := hs.carry
          have hencode : encodeAll (f :: fs) = f.encode ++ encodeAll fs := List.flatMap_cons
          obtain ⟨turns', hrecord⟩ := sslGetNextRecord_carries (s := { s with inMsg := [] })
            hf hs.inLeft (hs.wire.trans hencode) hready
            (by rw [hencode, List.length_append] at hturns; show _ ≤ s.turns.length; omega)
          have hloop := sslReadLoop_data false hs.inHslen hrecord rfl hf.some
          obtain ⟨s₁, hs₁⟩ : ∃ s₁, s₁ = { s with
              wire := encodeAll fs, inMsgtype := MBEDTLS_SSL_MSG_APPLICATION_DATA, inMsg := [],
              inOfft := some content, turns := turns', frames := s.frames ++ [f] } := ⟨_, rfl⟩
          have hofft₁ : s₁.inOfft = some content := by rw [hs₁]
          have hbetween : Between c s₁ fs := by
            rw [hs₁]
            exact ⟨hs.inLeft, hs.inHslen, rfl, ⟨rest, hcarry⟩,
              fun heq => hf.some (Option.some.inj heq)⟩
          have htoCome : s.toCome c (f :: fs) = s₁.toCome c fs := by
            rw [SslIn.toCome, SslIn.toCome, hpending, SslIn.pending, hofft₁, Session.appData,
              hf.content, hs₁]
            rfl
          have htake := sslTake_finds hlen hofft₁ hbetween
          refine ⟨(sslTake len content s₁).1, _, _, fs, ?_, htake.between,
            htoCome.trans htake.toCome,
            fun hnil => htoCome.trans (htake.found hnil), ?_⟩
          · rw [hloop, Option.map_some, ← hs₁]
            simp only [hofft₁]
          · rw [hencode, List.length_append]
            exact Nat.le_add_left _ _

/-! ## Runs -/

/-- As many calls as there are bytes to come hand out all of them. -/
theorem run_finds {c : Session} {s : Receiving} {fs : List Frame} {n : Nat}
    {calls : List (Nat × List Turn)} (hs : Between c s.ssl fs)
    (hcalls : ∀ call ∈ calls, Ample n call) (hn : (encodeAll fs).length ≤ n)
    (hmany : (s.ssl.toCome c fs).length ≤ calls.length) :
    ∃ s', Machine.run (Receiving.step c) s calls = some s' ∧
      s'.received = s.received ++ s.ssl.toCome c fs := by
  induction calls generalizing s fs with
  | nil =>
      have hnil := List.eq_nil_of_length_eq_zero (Nat.le_zero.mp hmany)
      exact ⟨s, rfl, by rw [hnil, List.append_nil]⟩
  | cons call calls ih =>
      have hample := hcalls call List.mem_cons_self
      obtain ⟨ret, out, ssl, fs', hread, hfinds⟩ := sslRead_finds
        (s := { s.ssl with turns := call.2 }) hample.asks
        ⟨hs.inLeft, hs.inHslen, hs.wire, hs.carry, hs.waiting⟩ hample.ready
        (Nat.lt_of_le_of_lt hn hample.turns)
      have htoCome : s.ssl.toCome c fs = out ++ ssl.toCome c fs' := hfinds.toCome
      have hfound : out = [] → s.ssl.toCome c fs = [] := hfinds.found
      have hless : (ssl.toCome c fs').length ≤ calls.length := by
        rw [List.length_cons, htoCome, List.length_append] at hmany
        rcases Nat.eq_zero_or_pos out.length with hzero | hpos
        · have hnil := hfound (List.eq_nil_of_length_eq_zero hzero)
          rw [htoCome, List.append_eq_nil_iff] at hnil
          rw [hnil.2]
          exact Nat.zero_le _
        · omega
      have hstep : s.step c call = some ⟨ssl, s.received ++ out⟩ := by
        rw [Receiving.step, hread, Option.map_some]
      obtain ⟨s', hrun, hreceived⟩ := ih (s := ⟨ssl, s.received ++ out⟩) hfinds.between
        (fun call' hcall' => hcalls call' (List.mem_cons_of_mem call hcall'))
        (Nat.le_trans hfinds.less hn) hless
      refine ⟨s', by rw [Machine.run_step hstep, hrun], ?_⟩
      rw [hreceived, htoCome, List.append_assoc]

/-- A session without a cipher, of TLS 1.2. -/
def plain : Session where
  majorVer := 3
  maxMinorVer := 3
  minlen := 0
  hdrRoom := 16725
  msgRoom := 16712
  decryptBuf _ f := .opened f.body
  sendAlert _ := 0
  sendAlert_le _ := Int.le_refl 0

/-- Two records. -/
def twoRecords : List Frame := [⟨23, 3, 3, [32, 2, 0, 0]⟩, ⟨23, 3, 3, [208]⟩]

theorem twoRecords_carry : AllCarry plain [] twoRecords [[32, 2, 0, 0], [208]] := by
  refine ⟨_, _, rfl, ?_, _, _, rfl, ?_, rfl⟩
  all_goals exact ⟨by decide, by decide, by decide, rfl, rfl, by decide, by decide⟩

/-- Calls for `len` bytes, in front of a socket that hands out `more + 1`. -/
def callsFor (len more : Nat) : List (Nat × List Turn) :=
  List.replicate 5 (len, List.replicate 16 (.ready more))

theorem callsFor_ample {len : Nat} (hlen : 0 < len) (more : Nat) :
    ∀ call ∈ callsFor len more, Ample (encodeAll twoRecords).length call := by
  intro call hcall
  obtain rfl := List.eq_of_mem_replicate hcall
  refine ⟨hlen, fun turn hturn => ⟨more, List.eq_of_mem_replicate hturn⟩, ?_⟩
  rw [List.length_replicate]
  decide

theorem twoRecords_run (len : Nat) (hlen : 0 < len) (more : Nat) :
    ∃ s, Machine.run (Receiving.step plain) (.start (encodeAll twoRecords)) (callsFor len more)
      = some s ∧ s.received = [32, 2, 0, 0, 208] :=
  run_finds (s := .start (encodeAll twoRecords))
    ⟨rfl, rfl, rfl, ⟨_, twoRecords_carry⟩, by rintro ⟨⟩⟩
    (callsFor_ample hlen more) (Nat.le_refl _) (Nat.le_refl _)

/-- **What is received are the records on the wire.** However the socket cuts
them up and wherever it fails, whatever each call asks for: the bytes handed
out by a run are the application data of the records at the front of the wire,
up to what is still in the buffer. -/
theorem tlsRead_stream {c : Session} {wire : List UInt8} {calls : List (Nat × List Turn)}
    {s : Receiving} (h : Machine.run (Receiving.step c) (.start wire) calls = some s) :
    ∃ fs, wire = encodeAll fs ++ (s.ssl.inLeft ++ s.ssl.wire) ∧
      c.appData [] fs = s.received ++ s.ssl.pending :=
  have hreceived := run_received h
  ⟨s.ssl.frames, hreceived.took.bytes, hreceived.data⟩

/-- A byte at a time, off a socket that hands out three. -/
theorem tlsRead_stream_bytes : ∃ s fs,
    Machine.run (Receiving.step plain) (.start (encodeAll twoRecords)) (callsFor 1 2) = some s ∧
      encodeAll twoRecords = encodeAll fs ++ (s.ssl.inLeft ++ s.ssl.wire) ∧
      plain.appData [] fs = s.received ++ s.ssl.pending := by
  obtain ⟨s, hrun, -⟩ := twoRecords_run 1 (by decide) 2
  obtain ⟨fs, hwire, hdata⟩ := tlsRead_stream hrun
  exact ⟨s, fs, hrun, hwire, hdata⟩

/-- **And they are the same ones in any run**: of two runs over one wire one
has received what the other has, and goes on from there. -/
theorem tlsRead_any {c : Session} {wire : List UInt8} {calls calls' : List (Nat × List Turn)}
    {s s' : Receiving} (h : Machine.run (Receiving.step c) (.start wire) calls = some s)
    (h' : Machine.run (Receiving.step c) (.start wire) calls' = some s') :
    s.received <+: s'.received ∨ s'.received <+: s.received := by
  have hreceived := run_received h
  have hreceived' := run_received h'
  have hpre : s.received <+: c.appData [] s.ssl.frames := ⟨_, hreceived.data.symm⟩
  have hpre' : s'.received <+: c.appData [] s'.ssl.frames := ⟨_, hreceived'.data.symm⟩
  have hbytes := hreceived.took.bytes.symm.trans hreceived'.took.bytes
  rcases encodeAll_prefix hreceived.took.fits hreceived'.took.fits hbytes with hle | hle
  · exact List.prefix_or_prefix_of_prefix (hpre.trans (appData_mono c hle)) hpre'
  · exact List.prefix_or_prefix_of_prefix hpre (hpre'.trans (appData_mono c hle))

theorem tlsRead_any_bytes : ∃ s s',
    Machine.run (Receiving.step plain) (.start (encodeAll twoRecords)) (callsFor 1 2) = some s ∧
      Machine.run (Receiving.step plain) (.start (encodeAll twoRecords)) (callsFor 3 0) = some s' ∧
      (s.received <+: s'.received ∨ s'.received <+: s.received) := by
  obtain ⟨s, hrun, -⟩ := twoRecords_run 1 (by decide) 2
  obtain ⟨s', hrun', -⟩ := twoRecords_run 3 (by decide) 0
  exact ⟨s, s', hrun, hrun', tlsRead_any hrun hrun'⟩

/-- **All the application data is received.** When the records on the wire
are ones that the session accepts, each with application data, and the socket
does not fail, then as many calls as there are bytes, each for at least one,
hand out exactly the application data. -/
theorem tlsRead_all {c : Session} {fs : List Frame} {contents : List (List UInt8)}
    {calls : List (Nat × List Turn)} (hfs : AllCarry c [] fs contents)
    (hcalls : ∀ call ∈ calls, Ample (encodeAll fs).length call)
    (hmany : contents.flatten.length ≤ calls.length) :
    ∃ s, Machine.run (Receiving.step c) (.start (encodeAll fs)) calls = some s ∧
      s.received = contents.flatten := by
  rw [← hfs.appData] at hmany ⊢
  exact run_finds (s := .start (encodeAll fs)) ⟨rfl, rfl, rfl, ⟨contents, hfs⟩, by rintro ⟨⟩⟩ hcalls
    (Nat.le_refl _) hmany

theorem tlsRead_all_bytes : ∃ s,
    Machine.run (Receiving.step plain) (.start (encodeAll twoRecords)) (callsFor 1 2) = some s ∧
      s.received = [32, 2, 0, 0, 208] :=
  tlsRead_all twoRecords_carry (callsFor_ample (by decide) 2) (Nat.le_refl _)

end NucleoMqtt.Tls
