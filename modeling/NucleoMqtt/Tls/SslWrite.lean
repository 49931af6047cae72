import NucleoMqtt.Lib.Drain

/-!
# Tls — writing through mbedTLS

`MQTT_Write_Packet` hands its packet to `TLS_Write`, which is
`mbedtls_ssl_write`. The handshake is over and renegotiation is disabled,
so what runs is `ssl_write_split` over `ssl_write_real`. A record that has
been built stands in the output buffer until `TCP_Write` has taken all of
it; `outLeft` is what still waits there.

The results of `TCP_Write` and what the cipher makes of a record are the
surroundings of a connection (`Connection`). `placed` does not exist in the
source: it collects the application bytes of the records built.
-/

namespace NucleoMqtt.Tls

open NucleoMqtt.Lib

def MBEDTLS_ERR_SSL_INTERNAL_ERROR : Int := -0x6C00

def MBEDTLS_ERR_SSL_COUNTER_WRAPPING : Int := -0x6B80

def MBEDTLS_SSL_OUT_CONTENT_LEN : Nat := 16384

/-- What `ssl_encrypt_buf` makes of a record: an error code, or the length of
the protected message. -/
inductive Encrypted where
  | failed (code : Int) (neg : code < 0)
  | sealed (msglen : Nat)

/-- What has been negotiated, and what the calls below are answered. -/
structure Connection where
  /-- TLS 1.0 with a CBC cipher: record splitting is enabled, and applies. -/
  cbcTls10 : Bool
  /-- the result of each call of `TCP_Write` -/
  tcpWrite : Nat → Int
  /-- the result of each call of `ssl_encrypt_buf` -/
  encryptBuf : Nat → Encrypted

/-- The part of the SSL context that a write reads and changes. -/
structure Ssl where
  outLeft : Nat
  curOutCtr : UInt64
  splitDone : Bool
  /-- calls of `TCP_Write` so far -/
  tcpCalls : Nat
  /-- calls of `ssl_encrypt_buf` so far -/
  records : Nat
  placed : List UInt8

/-- `mbedtls_ssl_flush_output`; a sender that takes nothing ends it with its
own result, zero included. -/
def sslFlushOutput (c : Connection) (s : Ssl) : Int × Ssl :=
  if s.outLeft = 0 then (0, s)
  else
    let ret := c.tcpWrite s.tcpCalls
    if ret ≤ 0 then (ret, { s with tcpCalls := s.tcpCalls + 1 })
    else if s.outLeft < ret then
      (MBEDTLS_ERR_SSL_INTERNAL_ERROR, { s with tcpCalls := s.tcpCalls + 1 })
    else
      sslFlushOutput c { s with tcpCalls := s.tcpCalls + 1, outLeft := s.outLeft - ret.toNat }
termination_by s.outLeft
decreasing_by omega

/-- `mbedtls_ssl_hdr_len`, over a stream. -/
def sslHdrLen : Nat := 5

/-- `mbedtls_ssl_write_record`, with the message in `out_msg`. -/
def sslWriteRecord (c : Connection) (s : Ssl) (outMsg : List UInt8) : Int × Ssl :=
  match c.encryptBuf s.records with
  | .failed code _ => (code, { s with records := s.records + 1 })
  | .sealed msglen =>
      let s := { s with
        records := s.records + 1
        outLeft := s.outLeft + (msglen + sslHdrLen)
        curOutCtr := s.curOutCtr + 1
        placed := s.placed ++ outMsg }
      if s.curOutCtr = 0 then (MBEDTLS_ERR_SSL_COUNTER_WRAPPING, s)
      else
        let (ret, s) := sslFlushOutput c s
        if ret ≠ 0 then (ret, s) else (0, s)

/-- `mbedtls_ssl_get_max_out_record_payload`: no fragment length has been
negotiated, and a stream has no MTU. -/
def sslGetMaxOutRecordPayload : Nat := MBEDTLS_SSL_OUT_CONTENT_LEN

def sslWriteReal (c : Connection) (s : Ssl) (buf : List UInt8) : Int × Ssl :=
  let maxLen := sslGetMaxOutRecordPayload
  let len := if buf.length > maxLen then maxLen else buf.length
  if s.outLeft ≠ 0 then
    -- the record before this one: `buf` is taken to be what it was made of
    let (ret, s) := sslFlushOutput c s
    if ret ≠ 0 then (ret, s) else (len, s)
  else
    let (ret, s) := sslWriteRecord c s (buf.take len)
    if ret ≠ 0 then (ret, s) else (len, s)

/-- The second record of a split write. -/
def sslWriteRest (c : Connection) (s : Ssl) (buf : List UInt8) : Int × Ssl :=
  let (ret, s) := sslWriteReal c s (buf.drop 1)
  if ret ≤ 0 then (ret, s) else (ret + 1, { s with splitDone := false })

def sslWriteSplit (c : Connection) (s : Ssl) (buf : List UInt8) : Int × Ssl :=
  if buf.length ≤ 1 ∨ c.cbcTls10 = false then sslWriteReal c s buf
  else if s.splitDone then sslWriteRest c s buf
  else
    let (ret, s) := sslWriteReal c s (buf.take 1)
    if ret ≤ 0 then (ret, s) else sslWriteRest c { s with splitDone := true } buf

/-- `mbedtls_ssl_write`. -/
def sslWrite (c : Connection) (s : Ssl) (buf : List UInt8) : Int × Ssl := sslWriteSplit c s buf

def tlsWrite (c : Connection) (s : Ssl) (buf : List UInt8) : Int × Ssl := sslWrite c s buf

/-- `MQTT_Write_Packet`, with `USE_TLS`. -/
def mqttWritePacket (c : Connection) (s : Ssl) (buf : List UInt8) : Int × Ssl :=
  let (ret, s) := tlsWrite c s buf
  -- a negative value is printed as an error, any other as success
  (ret, s)

/-! ## What the calls do -/

/-- **The flush** drains the buffer, is held up, or is broken off with a
negative value. -/
theorem sslFlushOutput_cases (c : Connection) (s : Ssl) :
    (∃ j, Drains c.tcpWrite s.tcpCalls s.outLeft j ∧
      sslFlushOutput c s = (0, { s with outLeft := 0, tcpCalls := j })) ∨
    (∃ j left, Stalls c.tcpWrite s.tcpCalls s.outLeft j left ∧
      sslFlushOutput c s = (0, { s with outLeft := left, tcpCalls := j + 1 })) ∨
    (Breaks c.tcpWrite s.tcpCalls s.outLeft ∧ ∃ ret left calls, ret < 0 ∧ 0 < left ∧
      sslFlushOutput c s = (ret, { s with outLeft := left, tcpCalls := calls })) := by
  fun_induction sslFlushOutput c s with
  | case1 s hzero =>
      obtain ⟨outLeft, curOutCtr, splitDone, tcpCalls, records, placed⟩ := s
      obtain rfl : outLeft = 0 := hzero
      exact Or.inl ⟨tcpCalls, .none _ _, rfl⟩
  | case2 s hleft ret hnone =>
      rcases Int.lt_or_eq_of_le hnone with hneg | hzero
      · exact Or.inr (Or.inr ⟨⟨_, _, .none _ _, by omega, Or.inl hneg⟩, ret, s.outLeft, _, hneg,
          by omega, rfl⟩)
      · refine Or.inr (Or.inl ⟨s.tcpCalls, s.outLeft, ⟨.none _ _, by omega, hzero⟩, ?_⟩)
        rw [hzero]
  | case3 s hleft ret hpos hmore =>
      exact Or.inr (Or.inr ⟨⟨_, _, .none _ _, by omega, Or.inr hmore⟩, _, s.outLeft, _,
        by decide, by omega, rfl⟩)
  | case4 s hleft ret hpos hle ih =>
      have more {j left : Nat}
          (h : Takes c.tcpWrite (s.tcpCalls + 1) (s.outLeft - ret.toNat) j left) :
          Takes c.tcpWrite s.tcpCalls s.outLeft j left :=
        .more (by omega) (by omega) h
      obtain ⟨j, hdrains, heq⟩ | ⟨j, left, ⟨htakes, hstalls⟩, heq⟩ |
        ⟨⟨j, left, htakes, hbreaks⟩, ret', left', calls, hneg, hleft', heq⟩ := ih
      · exact Or.inl ⟨j, more hdrains, heq⟩
      · exact Or.inr (Or.inl ⟨j, left, ⟨more htakes, hstalls⟩, heq⟩)
      · exact Or.inr (Or.inr ⟨⟨j, left, more htakes, hbreaks⟩, ret', left', calls, hneg,
          hleft', heq⟩)

/-- The bytes of `buf` that one record takes. -/
def accepted (buf : List UInt8) : List UInt8 := buf.take sslGetMaxOutRecordPayload

/-- The context with one record more in its output buffer. -/
def Ssl.build (s : Ssl) (outMsg : List UInt8) (msglen : Nat) : Ssl :=
  { s with
    records := s.records + 1
    outLeft := s.outLeft + (msglen + sslHdrLen)
    curOutCtr := s.curOutCtr + 1
    placed := s.placed ++ outMsg }

/-- **Everything a call of ssl_write_real can do**, with nothing in the
output buffer and with a record still in it. -/
inductive RealWrite (c : Connection) (s : Ssl) (buf : List UInt8) : Int → Ssl → Prop where
  | refused {code : Int} {neg : code < 0} (hleft : s.outLeft = 0)
      (henc : c.encryptBuf s.records = .failed code neg) :
      RealWrite c s buf code { s with records := s.records + 1 }
  | lost {msglen : Nat} {ret : Int} {s' : Ssl} (hleft : s.outLeft = 0)
      (henc : c.encryptBuf s.records = .sealed msglen)
      (hfail : s.curOutCtr + 1 = 0 ∨ Breaks c.tcpWrite s.tcpCalls (msglen + sslHdrLen))
      (hret : ret < 0) (hplaced : s'.placed = s.placed ++ accepted buf) :
      RealWrite c s buf ret s'
  | written {msglen j : Nat} (hleft : s.outLeft = 0)
      (henc : c.encryptBuf s.records = .sealed msglen) (hctr : s.curOutCtr + 1 ≠ 0)
      (hdrains : Drains c.tcpWrite s.tcpCalls (msglen + sslHdrLen) j) :
      RealWrite c s buf (accepted buf).length
        { s.build (accepted buf) msglen with outLeft := 0, tcpCalls := j }
  | held {msglen j left : Nat} (hleft : s.outLeft = 0)
      (henc : c.encryptBuf s.records = .sealed msglen) (hctr : s.curOutCtr + 1 ≠ 0)
      (hstalls : Stalls c.tcpWrite s.tcpCalls (msglen + sslHdrLen) j left) :
      RealWrite c s buf (accepted buf).length
        { s.build (accepted buf) msglen with outLeft := left, tcpCalls := j + 1 }
  | flushed {j : Nat} (hleft : s.outLeft ≠ 0)
      (hdrains : Drains c.tcpWrite s.tcpCalls s.outLeft j) :
      RealWrite c s buf (accepted buf).length { s with outLeft := 0, tcpCalls := j }
  | stuck {j left : Nat} (hleft : s.outLeft ≠ 0)
      (hstalls : Stalls c.tcpWrite s.tcpCalls s.outLeft j left) :
      RealWrite c s buf (accepted buf).length { s with outLeft := left, tcpCalls := j + 1 }
  | failed {ret : Int} {s' : Ssl} (hleft : s.outLeft ≠ 0)
      (hbreaks : Breaks c.tcpWrite s.tcpCalls s.outLeft)
      (hret : ret < 0) (hplaced : s'.placed = s.placed) :
      RealWrite c s buf ret s'

/-- What `ssl_write_real` makes of `buf` before it writes. -/
theorem sslWriteReal_eq (c : Connection) (s : Ssl) (buf : List UInt8) :
    sslWriteReal c s buf =
      if s.outLeft ≠ 0 then
        if (sslFlushOutput c s).1 ≠ 0 then sslFlushOutput c s
        else ((accepted buf).length, (sslFlushOutput c s).2)
      else if (sslWriteRecord c s (accepted buf)).1 ≠ 0 then sslWriteRecord c s (accepted buf)
      else ((accepted buf).length, (sslWriteRecord c s (accepted buf)).2) := by
  have hlen : (if buf.length > sslGetMaxOutRecordPayload then sslGetMaxOutRecordPayload
      else buf.length) = (accepted buf).length := by
    rw [accepted, List.length_take]
    split <;> omega
  have htake : buf.take (accepted buf).length = accepted buf := by
    rw [accepted, List.length_take, List.take_eq_take_min]
    simp
  simp only [sslWriteReal, hlen, htake]

theorem sslWriteReal_realWrite (c : Connection) (s : Ssl) (buf : List UInt8) :
    RealWrite c s buf (sslWriteReal c s buf).1 (sslWriteReal c s buf).2 := by
  rw [sslWriteReal_eq]
  by_cases hleft : s.outLeft = 0
  · rw [if_neg (not_not_intro hleft)]
    cases henc : c.encryptBuf s.records with
    | failed code neg =>
        have hrecord : sslWriteRecord c s (accepted buf)
            = (code, { s with records := s.records + 1 }) := by
          simp only [sslWriteRecord, henc]
        rw [hrecord, if_pos (Int.ne_of_lt neg)]
        exact .refused hleft henc
    | sealed msglen =>
        have hbuilt : (s.build (accepted buf) msglen).outLeft = msglen + sslHdrLen := by
          simp [Ssl.build, hleft]
        by_cases hctr : s.curOutCtr + 1 = 0
        · have hrecord : sslWriteRecord c s (accepted buf)
              = (MBEDTLS_ERR_SSL_COUNTER_WRAPPING, s.build (accepted buf) msglen) := by
            simp only [sslWriteRecord, henc, hctr, if_true]
            simp [Ssl.build, hctr]
          have hwrap : MBEDTLS_ERR_SSL_COUNTER_WRAPPING < 0 := by decide
          rw [hrecord, if_pos (Int.ne_of_lt hwrap)]
          exact .lost hleft henc (Or.inl hctr) hwrap rfl
        · have hrecord : sslWriteRecord c s (accepted buf)
              = if (sslFlushOutput c (s.build (accepted buf) msglen)).1 ≠ 0 then
                  sslFlushOutput c (s.build (accepted buf) msglen)
                else (0, (sslFlushOutput c (s.build (accepted buf) msglen)).2) := by
            simp only [sslWriteRecord, henc, hctr, if_false]
            rfl
          obtain ⟨j, hdrains, hflush⟩ | ⟨j, left, hstalls, hflush⟩ |
            ⟨hbreaks, ret, left, calls, hret, -, hflush⟩ :=
              sslFlushOutput_cases c (s.build (accepted buf) msglen)
          · rw [hbuilt] at hdrains
            rw [hrecord, hflush]
            exact .written hleft henc hctr hdrains
          · rw [hbuilt] at hstalls
            rw [hrecord, hflush]
            exact .held hleft henc hctr hstalls
          · rw [hbuilt] at hbreaks
            have hne : ret ≠ 0 := Int.ne_of_lt hret
            rw [hrecord, hflush]
            simp only [hne, ne_eq, not_false_eq_true, if_true]
            exact .lost hleft henc (Or.inr hbreaks) hret rfl
  · rw [if_pos hleft]
    obtain ⟨j, hdrains, hflush⟩ | ⟨j, left, hstalls, hflush⟩ |
      ⟨hbreaks, ret, left, calls, hret, -, hflush⟩ := sslFlushOutput_cases c s
    · rw [hflush]
      exact .flushed hleft hdrains
    · rw [hflush]
      exact .stuck hleft hstalls
    · have hne : ret ≠ 0 := Int.ne_of_lt hret
      rw [hflush]
      simp only [hne, ne_eq, not_false_eq_true, if_true]
      exact .failed hleft hbreaks hret rfl

theorem sslWriteReal_cases {c : Connection} {s s' : Ssl} {buf : List UInt8} {ret : Int}
    (h : sslWriteReal c s buf = (ret, s')) : RealWrite c s buf ret s' := by
  have hwrite := sslWriteReal_realWrite c s buf
  rw [h] at hwrite
  exact hwrite

/-! ## Split writes -/

theorem sslWriteRest_of_neg {c : Connection} {s s' : Ssl} {buf : List UInt8} {ret : Int}
    (h : sslWriteReal c s (buf.drop 1) = (ret, s')) (hret : ret < 0) :
    sslWriteRest c s buf = (ret, s') := by
  simp only [sslWriteRest, h, Int.le_of_lt hret, if_true]

theorem sslWriteRest_of_pos {c : Connection} {s s' : Ssl} {buf : List UInt8} {ret : Int}
    (h : sslWriteReal c s (buf.drop 1) = (ret, s')) (hret : 0 < ret) :
    sslWriteRest c s buf = (ret + 1, { s' with splitDone := false }) := by
  simp only [sslWriteRest, h, Int.not_le.mpr hret, if_false]

theorem sslWriteSplit_whole {c : Connection} {buf : List UInt8} (s : Ssl)
    (hwhole : buf.length ≤ 1 ∨ c.cbcTls10 = false) :
    sslWriteSplit c s buf = sslWriteReal c s buf := by
  rw [sslWriteSplit, if_pos hwhole]

theorem sslWriteSplit_done {c : Connection} {s : Ssl} {buf : List UInt8}
    (hsplit : ¬ (buf.length ≤ 1 ∨ c.cbcTls10 = false)) (hdone : s.splitDone = true) :
    sslWriteSplit c s buf = sslWriteRest c s buf := by
  rw [sslWriteSplit, if_neg hsplit, if_pos hdone]

theorem sslWriteSplit_of_neg {c : Connection} {s s' : Ssl} {buf : List UInt8} {ret : Int}
    (hsplit : ¬ (buf.length ≤ 1 ∨ c.cbcTls10 = false)) (hdone : s.splitDone = false)
    (h : sslWriteReal c s (buf.take 1) = (ret, s')) (hret : ret < 0) :
    sslWriteSplit c s buf = (ret, s') := by
  rw [sslWriteSplit, if_neg hsplit, hdone, if_neg (by decide)]
  simp only [h, Int.le_of_lt hret, if_true]

theorem sslWriteSplit_of_pos {c : Connection} {s s' : Ssl} {buf : List UInt8} {ret : Int}
    (hsplit : ¬ (buf.length ≤ 1 ∨ c.cbcTls10 = false)) (hdone : s.splitDone = false)
    (h : sslWriteReal c s (buf.take 1) = (ret, s')) (hret : 0 < ret) :
    sslWriteSplit c s buf = sslWriteRest c { s' with splitDone := true } buf := by
  rw [sslWriteSplit, if_neg hsplit, hdone, if_neg (by decide)]
  simp only [h, Int.not_le.mpr hret, if_false]

end NucleoMqtt.Tls
