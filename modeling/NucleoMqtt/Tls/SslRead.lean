import NucleoMqtt.Tls.SslWrite
import NucleoMqtt.Lib.Word

/-!
# Tls — reading through mbedTLS

`TLS_Read` is `mbedtls_ssl_read`. The handshake is over, renegotiation is
disabled and there are no timers, so it reads records until one has
application data, and hands out that data in as many calls as it takes. A
record comes off the socket piece by piece: each call of `TCP_Read` is a
`Turn`, which finds some bytes or fails, and what has come so far waits in
the input buffer for the next call.

The bytes that the peer sends are `wire`; what the cipher makes of a record,
which depends on the records before it, and what sending an alert is answered
are the surroundings of the session (`Session`). `frames` does not exist in
the source: it collects the records taken from the input buffer.
-/

namespace NucleoMqtt.Tls

open NucleoMqtt.Lib

def MBEDTLS_ERR_SSL_FEATURE_UNAVAILABLE : Int := -0x7080
def MBEDTLS_ERR_SSL_BAD_INPUT_DATA : Int := -0x7100
def MBEDTLS_ERR_SSL_INVALID_RECORD : Int := -0x7200
def MBEDTLS_ERR_SSL_CONN_EOF : Int := -0x7280
def MBEDTLS_ERR_SSL_UNEXPECTED_MESSAGE : Int := -0x7700
def MBEDTLS_ERR_SSL_FATAL_ALERT_MESSAGE : Int := -0x7780
def MBEDTLS_ERR_SSL_PEER_CLOSE_NOTIFY : Int := -0x7880
def MBEDTLS_ERR_SSL_WANT_READ : Int := -0x6900
def MBEDTLS_ERR_SSL_NON_FATAL : Int := -0x6680

def MBEDTLS_SSL_MSG_CHANGE_CIPHER_SPEC : UInt8 := 20
def MBEDTLS_SSL_MSG_ALERT : UInt8 := 21
def MBEDTLS_SSL_MSG_HANDSHAKE : UInt8 := 22
def MBEDTLS_SSL_MSG_APPLICATION_DATA : UInt8 := 23

def MBEDTLS_SSL_IN_CONTENT_LEN : Nat := 16384

/-- `mbedtls_ssl_hs_hdr_len`, over a stream. -/
def sslHsHdrLen : Nat := 4

/-! ## Surroundings -/

/-- A record on the wire. -/
structure Frame where
  type : UInt8
  major : UInt8
  minor : UInt8
  body : List UInt8

def Frame.encode (f : Frame) : List UInt8 :=
  f.type :: f.major :: f.minor :: (be16 f.body.length ++ f.body)

/-- What `ssl_decrypt_buf` makes of a record. -/
inductive Decrypted where
  | failed (code : Int) (neg : code < 0)
  | opened (content : List UInt8)

/-- What has been negotiated, and what the calls below are answered. -/
structure Session where
  majorVer : UInt8
  maxMinorVer : UInt8
  /-- `transform_in->minlen` -/
  minlen : Nat
  /-- the room of the input buffer from `in_hdr` and from `in_msg` on -/
  hdrRoom : Nat
  msgRoom : Nat
  /-- by the records before -/
  decryptBuf : List Frame → Frame → Decrypted
  /-- the alert that refuses a renegotiation, by the records so far -/
  sendAlert : List Frame → Int
  sendAlert_le : ∀ frames, sendAlert frames ≤ 0

/-- One call of `TCP_Read`: it may hand out `more + 1` bytes, or fails. With
no bytes left to hand out, the peer has closed. -/
inductive Turn where
  | ready (more : Nat)
  | failed (code : Int) (neg : code < 0)

/-- The part of the SSL context that a read reads and changes. -/
structure SslIn where
  wire : List UInt8
  /-- the `in_left` bytes from `in_hdr` on -/
  inLeft : List UInt8
  inMsgtype : UInt8
  /-- the `in_msglen` bytes from `in_msg` on -/
  inMsg : List UInt8
  inHslen : Nat
  /-- the `in_msglen` bytes from `in_offt` on, when that is set -/
  inOfft : Option (List UInt8)
  /-- the calls of `TCP_Read` to come -/
  turns : List Turn
  frames : List Frame

/-! ## Records -/

/-- `ssl->f_recv( ssl->p_bio, ssl->in_hdr + ssl->in_left, len )`: the value
returned, with the bytes behind those in the buffer. -/
def tcpRead (s : SslIn) (len : Nat) : Turn → Int × SslIn
  | .failed code _ => (code, s)
  | .ready more =>
      let got := s.wire.take (min (more + 1) len)
      (got.length, { s with inLeft := s.inLeft ++ got, wire := s.wire.drop (min (more + 1) len) })

/-- The loop of `mbedtls_ssl_fetch_input`; no answer while it waits. -/
def fetchLoop (nbWant : Nat) : List Turn → SslIn → Option (Int × SslIn)
  | [], s => if nbWant ≤ s.inLeft.length then some (0, { s with turns := [] }) else none
  | turn :: turns, s =>
      if nbWant ≤ s.inLeft.length then some (0, { s with turns := turn :: turns })
      else
        let (ret, s) := tcpRead s (nbWant - s.inLeft.length) turn
        if ret = 0 then some (MBEDTLS_ERR_SSL_CONN_EOF, { s with turns := turns })
        else if ret < 0 then some (ret, { s with turns := turns })
        else fetchLoop nbWant turns s

def sslFetchInput (c : Session) (nbWant : Nat) (s : SslIn) : Option (Int × SslIn) :=
  if nbWant > c.hdrRoom then some (MBEDTLS_ERR_SSL_BAD_INPUT_DATA, s)
  else fetchLoop nbWant s.turns s

/-- `if( ( ret = … ) != 0 ) return( ret );` -/
def andThen (r : Option (Int × SslIn)) (next : SslIn → Option (Int × SslIn)) :
    Option (Int × SslIn) :=
  r.bind fun p => if p.1 ≠ 0 then some p else next p.2

/-- `in_msglen` by the header. -/
def headerLength (hdr : List UInt8) : Nat := 256 * (hdr.getD 3 0).toNat + (hdr.getD 4 0).toNat

/-- `ssl_parse_record_header`. The alert about an unknown type is sent, and
what that is answered is not looked at. -/
def sslParseRecordHeader (c : Session) (hdr : List UInt8) : Int :=
  let type := hdr.getD 0 0
  let msglen := headerLength hdr
  if type ≠ MBEDTLS_SSL_MSG_HANDSHAKE ∧ type ≠ MBEDTLS_SSL_MSG_ALERT ∧
      type ≠ MBEDTLS_SSL_MSG_CHANGE_CIPHER_SPEC ∧ type ≠ MBEDTLS_SSL_MSG_APPLICATION_DATA then
    MBEDTLS_ERR_SSL_INVALID_RECORD
  else if hdr.getD 1 0 ≠ c.majorVer then MBEDTLS_ERR_SSL_INVALID_RECORD
  else if hdr.getD 2 0 > c.maxMinorVer then MBEDTLS_ERR_SSL_INVALID_RECORD
  else if msglen > c.msgRoom then MBEDTLS_ERR_SSL_INVALID_RECORD
  else if msglen < c.minlen then MBEDTLS_ERR_SSL_INVALID_RECORD
  else if msglen > c.minlen + MBEDTLS_SSL_IN_CONTENT_LEN + 256 then
    MBEDTLS_ERR_SSL_INVALID_RECORD
  else 0

/-- The record in the input buffer. -/
def recordIn (inLeft : List UInt8) : Frame where
  type := inLeft.getD 0 0
  major := inLeft.getD 1 0
  minor := inLeft.getD 2 0
  body := inLeft.drop sslHdrLen

/-- `ssl_prepare_record_content`, with the record taken out of the buffer. -/
def sslPrepareRecordContent (c : Session) (s : SslIn) (f : Frame) : Int × SslIn :=
  let taken := { s with inLeft := [], inMsgtype := f.type, inMsg := [],
                        frames := s.frames ++ [f] }
  match c.decryptBuf s.frames f with
  | .failed code _ => (code, taken)
  | .opened content =>
      if content.length > MBEDTLS_SSL_IN_CONTENT_LEN then (MBEDTLS_ERR_SSL_INVALID_RECORD, taken)
      else (0, { taken with inMsg := content })

/-- `ssl_get_next_record`. -/
def sslGetNextRecord (c : Session) (s : SslIn) : Option (Int × SslIn) :=
  andThen (sslFetchInput c sslHdrLen s) fun s =>
    andThen (some (sslParseRecordHeader c s.inLeft, s)) fun s =>
      andThen (sslFetchInput c (sslHdrLen + headerLength s.inLeft) s) fun s =>
        some (sslPrepareRecordContent c s (recordIn s.inLeft))

/-- `ssl_consume_current_message`, with `in_offt` not set: the next handshake
message of a record moves to the front, anything else is done with. -/
def sslConsumeCurrentMessage (s : SslIn) : SslIn :=
  if s.inHslen ≠ 0 then { s with inMsg := s.inMsg.drop s.inHslen, inHslen := 0 }
  else { s with inMsg := [] }

/-- `ssl_get_hs_total_len`. -/
def sslGetHsTotalLen (msg : List UInt8) : Nat :=
  65536 * (msg.getD 1 0).toNat + 256 * (msg.getD 2 0).toNat + (msg.getD 3 0).toNat

/-- `mbedtls_ssl_handle_message_type`. -/
def sslHandleMessageType (s : SslIn) : Int × SslIn :=
  if s.inMsgtype = MBEDTLS_SSL_MSG_HANDSHAKE then
    if s.inMsg.length < sslHsHdrLen then (MBEDTLS_ERR_SSL_INVALID_RECORD, s)
    else
      let s := { s with inHslen := sslHsHdrLen + sslGetHsTotalLen s.inMsg }
      if s.inMsg.length < s.inHslen then (MBEDTLS_ERR_SSL_FEATURE_UNAVAILABLE, s) else (0, s)
  else if s.inMsgtype = MBEDTLS_SSL_MSG_CHANGE_CIPHER_SPEC then
    if s.inMsg.length ≠ 1 then (MBEDTLS_ERR_SSL_INVALID_RECORD, s)
    else if s.inMsg.getD 0 0 ≠ 1 then (MBEDTLS_ERR_SSL_INVALID_RECORD, s)
    else (0, s)
  else if s.inMsgtype = MBEDTLS_SSL_MSG_ALERT then
    if s.inMsg.length ≠ 2 then (MBEDTLS_ERR_SSL_INVALID_RECORD, s)
    -- by level and description: fatal, `close_notify`, `no_renegotiation`
    else if s.inMsg.getD 0 0 = 2 then (MBEDTLS_ERR_SSL_FATAL_ALERT_MESSAGE, s)
    else if s.inMsg.getD 0 0 = 1 ∧ s.inMsg.getD 1 0 = 0 then
      (MBEDTLS_ERR_SSL_PEER_CLOSE_NOTIFY, s)
    else if s.inMsg.getD 0 0 = 1 ∧ s.inMsg.getD 1 0 = 100 then (0, s)
    else (MBEDTLS_ERR_SSL_NON_FATAL, s)
  else (0, s)

/-- A record, or what is left of the one before: the loop of
`mbedtls_ssl_read_record` in front of the handling by type. -/
def sslNextMessage (c : Session) (s : SslIn) : Option (Int × SslIn) :=
  let s := sslConsumeCurrentMessage s
  if s.inMsg ≠ [] then some (0, s) else sslGetNextRecord c s

/-! ## Every message uses something up -/

theorem andThen_cases {r : Option (Int × SslIn)} {next : SslIn → Option (Int × SslIn)}
    {p : Int × SslIn} (h : andThen r next = some p) :
    (p.1 ≠ 0 ∧ r = some p) ∨ ∃ s, r = some (0, s) ∧ next s = some p := by
  obtain ⟨⟨ret, s⟩, hr, h⟩ := Option.bind_eq_some_iff.mp h
  by_cases hret : ret ≠ 0
  · rw [if_pos hret] at h
    cases h
    exact Or.inl ⟨hret, hr⟩
  · obtain rfl : ret = 0 := Decidable.not_not.mp hret
    rw [if_neg hret] at h
    exact Or.inr ⟨s, hr, h⟩

/-- Calls of the socket have been used, or else bytes of the input buffer, or
else bytes of the current record. -/
def Shrinks (s s' : SslIn) : Prop :=
  s'.turns.length < s.turns.length ∨ s'.turns.length = s.turns.length ∧
    (s'.inLeft.length < s.inLeft.length ∨ s'.inLeft.length = s.inLeft.length ∧
      s'.inMsg.length < s.inMsg.length)

/-- With no call of the socket left, everything has to be there. -/
theorem fetchLoop_nil {nbWant : Nat} {s s' : SslIn} {ret : Int}
    (h : fetchLoop nbWant [] s = some (ret, s')) :
    nbWant ≤ s.inLeft.length ∧ ret = 0 ∧ s' = { s with turns := [] } := by
  rw [fetchLoop] at h
  split at h
  · rename_i hdone
    cases h
    exact ⟨hdone, rfl, rfl⟩
  · cases h

/-- What one round of the loop does: it ends with what it wants, with the end
of the connection or with a failure, or goes on. -/
theorem fetchLoop_cons {nbWant : Nat} {turn : Turn} {turns : List Turn} {s s' : SslIn} {ret : Int}
    (h : fetchLoop nbWant (turn :: turns) s = some (ret, s')) :
    (nbWant ≤ s.inLeft.length ∧ ret = 0 ∧ s' = { s with turns := turn :: turns }) ∨
      s.inLeft.length < nbWant ∧
        ∃ n s₁, tcpRead s (nbWant - s.inLeft.length) turn = (n, s₁) ∧
          ((n = 0 ∧ ret = MBEDTLS_ERR_SSL_CONN_EOF ∧ s' = { s₁ with turns := turns }) ∨
            (n < 0 ∧ ret = n ∧ s' = { s₁ with turns := turns }) ∨
            (0 < n ∧ fetchLoop nbWant turns s₁ = some (ret, s'))) := by
  rw [fetchLoop] at h
  by_cases hdone : nbWant ≤ s.inLeft.length
  · rw [if_pos hdone] at h
    cases h
    exact Or.inl ⟨hdone, rfl, rfl⟩
  · rw [if_neg hdone] at h
    obtain ⟨⟨n, s₁⟩, htcp⟩ : ∃ p, tcpRead s (nbWant - s.inLeft.length) turn = p := ⟨_, rfl⟩
    rw [htcp] at h ⊢
    refine Or.inr ⟨Nat.lt_of_not_le hdone, n, s₁, rfl, ?_⟩
    simp only at h
    split at h
    · rename_i hzero
      cases h
      exact Or.inl ⟨hzero, rfl, rfl⟩
    · rename_i hzero
      split at h
      · rename_i hneg
        cases h
        exact Or.inr (Or.inl ⟨hneg, rfl, rfl⟩)
      · exact Or.inr (Or.inr ⟨by omega, h⟩)

/-- The calls of the socket are used from the front. -/
theorem fetchLoop_suffix {nbWant : Nat} {turns : List Turn} {s s' : SslIn} {ret : Int}
    (h : fetchLoop nbWant turns s = some (ret, s')) : s'.turns <:+ turns := by
  induction turns generalizing s with
  | nil =>
      obtain ⟨-, -, rfl⟩ := fetchLoop_nil h
      exact List.suffix_refl _
  | cons turn turns ih =>
      have hrest : turns <:+ turn :: turns := List.suffix_cons turn turns
      rcases fetchLoop_cons h with ⟨-, -, rfl⟩ |
          ⟨-, n, s₁, -, ⟨-, -, rfl⟩ | ⟨-, -, rfl⟩ | ⟨-, h⟩⟩
      · exact List.suffix_refl _
      · exact hrest
      · exact hrest
      · exact (ih h).trans hrest

theorem fetchLoop_uses {nbWant : Nat} {turns : List Turn} {s s' : SslIn} {ret : Int}
    (h : fetchLoop nbWant turns s = some (ret, s')) :
    (s' = { s with turns := turns } ∧ nbWant ≤ s.inLeft.length) ∨
      s'.turns.length < turns.length := by
  cases turns with
  | nil =>
      obtain ⟨hdone, -, rfl⟩ := fetchLoop_nil h
      exact Or.inl ⟨rfl, hdone⟩
  | cons turn turns =>
      rcases fetchLoop_cons h with ⟨hdone, -, rfl⟩ |
          ⟨-, n, s₁, -, ⟨-, -, rfl⟩ | ⟨-, -, rfl⟩ | ⟨-, h⟩⟩
      · exact Or.inl ⟨rfl, hdone⟩
      · exact Or.inr (Nat.lt_succ_self _)
      · exact Or.inr (Nat.lt_succ_self _)
      · exact Or.inr (Nat.lt_succ_of_le (fetchLoop_suffix h).length_le)

theorem sslFetchInput_uses {c : Session} {nbWant : Nat} {s s' : SslIn}
    (h : sslFetchInput c nbWant s = some (0, s')) :
    (s' = s ∧ nbWant ≤ s.inLeft.length) ∨ s'.turns.length < s.turns.length := by
  rw [sslFetchInput] at h
  split at h
  · cases h
  · exact fetchLoop_uses h

theorem sslPrepareRecordContent_taken (c : Session) (s : SslIn) (f : Frame) :
    (sslPrepareRecordContent c s f).2.inLeft = [] ∧
      (sslPrepareRecordContent c s f).2.turns = s.turns := by
  rw [sslPrepareRecordContent]
  split
  · exact ⟨rfl, rfl⟩
  · split <;> exact ⟨rfl, rfl⟩

/-- What `ssl_get_next_record` has done when it succeeds. -/
theorem sslGetNextRecord_ok {c : Session} {s s' : SslIn}
    (h : sslGetNextRecord c s = some (0, s')) :
    ∃ s₁ s₂, sslFetchInput c sslHdrLen s = some (0, s₁) ∧
      sslFetchInput c (sslHdrLen + headerLength s₁.inLeft) s₁ = some (0, s₂) ∧
      sslPrepareRecordContent c s₂ (recordIn s₂.inLeft) = (0, s') := by
  obtain ⟨hne, -⟩ | ⟨s₁, h₁, h⟩ := andThen_cases h
  · exact absurd rfl hne
  obtain ⟨hne, -⟩ | ⟨s₁', hparse, h⟩ := andThen_cases h
  · exact absurd rfl hne
  obtain ⟨-, rfl⟩ := Prod.mk.inj (Option.some.inj hparse)
  obtain ⟨hne, -⟩ | ⟨s₂, h₂, h⟩ := andThen_cases h
  · exact absurd rfl hne
  exact ⟨s₁, s₂, h₁, h₂, Option.some.inj h⟩

theorem sslGetNextRecord_shrinks {c : Session} {s s' : SslIn}
    (h : sslGetNextRecord c s = some (0, s')) :
    s'.turns.length < s.turns.length ∨ s'.turns.length = s.turns.length ∧
      s'.inLeft.length < s.inLeft.length := by
  obtain ⟨s₁, s₂, h₁, h₂, hprepare⟩ := sslGetNextRecord_ok h
  obtain ⟨hleft, hturns⟩ := sslPrepareRecordContent_taken c s₂ (recordIn s₂.inLeft)
  rw [hprepare] at hleft hturns
  rw [hleft, hturns]
  rcases sslFetchInput_uses h₁ with ⟨rfl, hlen⟩ | hlt₁
  · rcases sslFetchInput_uses h₂ with ⟨rfl, -⟩ | hlt₂
    · exact Or.inr ⟨rfl, Nat.lt_of_lt_of_le (by decide) hlen⟩
    · exact Or.inl hlt₂
  · rcases sslFetchInput_uses h₂ with ⟨rfl, -⟩ | hlt₂
    · exact Or.inl hlt₁
    · exact Or.inl (Nat.lt_trans hlt₂ hlt₁)

theorem sslNextMessage_shrinks {c : Session} {s s' : SslIn}
    (h : sslNextMessage c s = some (0, s')) : Shrinks s s' := by
  rw [sslNextMessage, sslConsumeCurrentMessage] at h
  by_cases hhs : s.inHslen ≠ 0
  · rw [if_pos hhs] at h
    by_cases hmsg : s.inMsg.drop s.inHslen ≠ []
    · rw [if_pos hmsg] at h
      cases h
      have hpos := List.length_pos_iff.mpr hmsg
      rw [List.length_drop] at hpos
      refine Or.inr ⟨rfl, Or.inr ⟨rfl, ?_⟩⟩
      rw [List.length_drop]
      omega
    · rw [if_neg hmsg] at h
      rcases sslGetNextRecord_shrinks h with hturns | ⟨hturns, hleft⟩
      · exact Or.inl hturns
      · exact Or.inr ⟨hturns, Or.inl hleft⟩
  · rw [if_neg hhs, if_neg (fun hne => hne rfl)] at h
    rcases sslGetNextRecord_shrinks h with hturns | ⟨hturns, hleft⟩
    · exact Or.inl hturns
    · exact Or.inr ⟨hturns, Or.inl hleft⟩

/-- The type of a message is handled without touching what is read. -/
theorem sslHandleMessageType_same (s : SslIn) :
    ∃ hslen, (sslHandleMessageType s).2 = { s with inHslen := hslen } ∧
      (s.inMsgtype ≠ MBEDTLS_SSL_MSG_HANDSHAKE → hslen = s.inHslen) := by
  rw [sslHandleMessageType]
  split
  · rename_i htype
    split
    · exact ⟨s.inHslen, rfl, fun hne => absurd htype hne⟩
    · simp only
      split <;> exact ⟨_, rfl, fun hne => absurd htype hne⟩
  · refine ⟨s.inHslen, ?_, fun _ => rfl⟩
    repeat' split
    all_goals rfl

theorem Shrinks.handle {s s' : SslIn} (h : Shrinks s s') :
    Shrinks s (sslHandleMessageType s').2 := by
  obtain ⟨hslen, heq, -⟩ := sslHandleMessageType_same s'
  rw [heq]
  exact h

theorem Shrinks.trans {s s' s'' : SslIn} (h : Shrinks s s') (h' : Shrinks s' s'') :
    Shrinks s s'' := by
  rw [Shrinks] at h h' ⊢
  omega

theorem Shrinks.lex {s s' : SslIn} (h : Shrinks s s') :
    Prod.Lex (· < ·) (Prod.Lex (· < ·) (· < ·))
      (s'.turns.length, s'.inLeft.length, s'.inMsg.length)
      (s.turns.length, s.inLeft.length, s.inMsg.length) := by
  rcases h with h | ⟨h, h' | ⟨h', h''⟩⟩
  · exact .left _ _ h
  · rw [h]
    exact .right _ (.left _ _ h')
  · rw [h, h']
    exact .right _ (.right _ h'')

/-! ## Messages and data -/

/-- `mbedtls_ssl_read_record`, with `in_offt` not set. An alert that is
neither fatal nor the end is ignored. -/
def sslReadRecord (c : Session) (s : SslIn) : Option (Int × SslIn) :=
  match _h : sslNextMessage c s with
  | none => none
  | some (ret, s₁) =>
      if _hret : ret ≠ 0 then some (ret, s₁)
      else if (sslHandleMessageType s₁).1 = MBEDTLS_ERR_SSL_NON_FATAL then
        sslReadRecord c (sslHandleMessageType s₁).2
      else some (sslHandleMessageType s₁)
termination_by (s.turns.length, s.inLeft.length, s.inMsg.length)
decreasing_by
  obtain rfl : ret = 0 := Decidable.not_not.mp _hret
  exact (sslNextMessage_shrinks _h).handle.lex

theorem sslReadRecord_shrinks {c : Session} {s s' : SslIn}
    (h : sslReadRecord c s = some (0, s')) : Shrinks s s' := by
  fun_induction sslReadRecord c s with
  | case1 => cases h
  | case2 s ret s₁ hnext hret =>
      cases h
      exact absurd rfl hret
  | case3 s ret s₁ hnext hret hagain ih =>
      obtain rfl : ret = 0 := Decidable.not_not.mp hret
      exact (sslNextMessage_shrinks hnext).handle.trans (ih h)
  | case4 s ret s₁ hnext hret hagain =>
      obtain rfl : ret = 0 := Decidable.not_not.mp hret
      have hs' : s' = (sslHandleMessageType s₁).2 := by rw [Option.some.inj h]
      rw [hs']
      exact (sslNextMessage_shrinks hnext).handle

/-- The loop of `mbedtls_ssl_read`: it stops with a value, or with 0 once
`in_offt` is set. Of an empty record with application data the next one is
read at once, by `retried`. -/
def sslReadLoop (c : Session) (retried : Bool) (s : SslIn) : Option (Int × SslIn) :=
  match _h : sslReadRecord c s with
  | none => none
  | some (ret, s₁) =>
      if _hret : ret ≠ 0 then
        some (if ret = MBEDTLS_ERR_SSL_CONN_EOF then 0 else ret, s₁)
      else if s₁.inMsgtype = MBEDTLS_SSL_MSG_APPLICATION_DATA then
        if s₁.inMsg = [] ∧ retried = false then sslReadLoop c true s₁
        else some (0, { s₁ with inMsg := [], inOfft := some s₁.inMsg })
      else if s₁.inMsgtype = MBEDTLS_SSL_MSG_HANDSHAKE then
        -- anything but a `HelloRequest` is unexpected, and that is refused
        if s₁.inMsg.getD 0 0 ≠ 0 ∨ s₁.inHslen ≠ sslHsHdrLen then
          some (MBEDTLS_ERR_SSL_UNEXPECTED_MESSAGE, s₁)
        else if c.sendAlert s₁.frames ≠ 0 then some (c.sendAlert s₁.frames, s₁)
        else sslReadLoop c false s₁
      else if s₁.inMsgtype = MBEDTLS_SSL_MSG_ALERT then some (MBEDTLS_ERR_SSL_WANT_READ, s₁)
      else some (MBEDTLS_ERR_SSL_UNEXPECTED_MESSAGE, s₁)
termination_by (s.turns.length, s.inLeft.length, s.inMsg.length)
decreasing_by
  all_goals
    obtain rfl : ret = 0 := Decidable.not_not.mp _hret
    exact (sslReadRecord_shrinks _h).lex

/-- The data that is handed out, behind the loop. -/
def sslTake (len : Nat) (data : List UInt8) (s : SslIn) : Int × List UInt8 × SslIn :=
  let n := if len < data.length then len else data.length
  (n, data.take n, { s with inOfft := if data.drop n = [] then none else some (data.drop n) })

/-- `mbedtls_ssl_read`: the value returned, and the bytes handed out. -/
def sslRead (c : Session) (len : Nat) (s : SslIn) : Option (Int × List UInt8 × SslIn) :=
  match s.inOfft with
  | some data => some (sslTake len data s)
  | none =>
      (sslReadLoop c false s).map fun (ret, s) =>
        match s.inOfft with
        | some data => sslTake len data s
        | none => (ret, [], s)

end NucleoMqtt.Tls
