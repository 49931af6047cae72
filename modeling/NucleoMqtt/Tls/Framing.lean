import NucleoMqtt.Tls.Delivered

/-!
# Tls — a record, a read

A read for as many bytes as any record carries never hands out a part of a
record, nor two of them: it hands out what one record carries, or nothing.
That holds wherever the socket fails, since a record that has come in part
waits in the input buffer. And it returns 0 only when the peer has closed
the connection (`SslIn.Closed`).
-/

namespace NucleoMqtt.Tls

open NucleoMqtt.Lib

/-- The records that have not been taken off the wire carry this, and
nothing waits to be handed out. -/
structure Aligned (c : Session) (s : SslIn) (fs : List Frame) (contents : List (List UInt8)) :
    Prop where
  sound : Sound s
  inHslen : s.inHslen = 0
  inOfft : s.inOfft = none
  bytes : s.inLeft ++ s.wire = encodeAll fs
  carry : AllCarry c s.frames fs contents

theorem Aligned.fetched {c : Session} {s s' : SslIn} {fs : List Frame}
    {contents : List (List UInt8)} (h : Aligned c s fs contents) (hf : Fetched s s')
    (hs' : Sound s') : Aligned c s' fs contents where
  sound := hs'
  inHslen := by
    rw [hf.same]
    exact h.inHslen
  inOfft := by
    rw [hf.same]
    exact h.inOfft
  bytes := hf.append.symm.trans h.bytes
  carry := by
    rw [hf.same]
    exact h.carry

/-- Other calls of the socket leave the records alone. -/
theorem Aligned.turns {c : Session} {s : SslIn} {fs : List Frame} {contents : List (List UInt8)}
    (h : Aligned c s fs contents) (turns : List Turn) :
    Aligned c { s with turns := turns } fs contents :=
  h.fetched (.turns s turns) ⟨h.sound.within, h.sound.handshake⟩

theorem Aligned.between {c : Session} {s : SslIn} {fs : List Frame} {contents : List (List UInt8)}
    (h : Aligned c s fs contents) (hleft : s.inLeft = []) : Between c s fs where
  inLeft := hleft
  inHslen := h.inHslen
  wire := by
    rw [← h.bytes, hleft, List.nil_append]
  carry := ⟨contents, h.carry⟩
  waiting := by
    rw [h.inOfft]
    rintro ⟨⟩

/-- Something is on the wire as long as records are to come. -/
theorem Aligned.wire_ne_nil {c : Session} {s : SslIn} {fs : List Frame} {content : List UInt8}
    {contents : List (List UInt8)} (h : Aligned c s fs (content :: contents))
    (hleft : s.inLeft = []) : s.wire ≠ [] := by
  intro hwire
  have hbytes := h.bytes
  have hcarry := h.carry
  rw [hleft, hwire] at hbytes
  cases fs with
  | nil => cases hcarry
  | cons f fs => cases hbytes

theorem start_aligned {c : Session} {fs : List Frame} {contents : List (List UInt8)}
    (h : AllCarry c [] fs contents) :
    Aligned c (Receiving.start (encodeAll fs)).ssl fs contents :=
  ⟨⟨fun hlen => absurd hlen (show ¬sslHdrLen ≤ 0 by decide), fun hne => absurd rfl hne⟩, rfl, rfl,
    rfl, h⟩

/-- The peer has closed the connection: the first call of the socket finds
the wire at its end, or one fails with the code for that. The second is out
of reach of `TCP_Read`, which fails with −1. -/
def SslIn.Closed (s : SslIn) : Prop :=
  (s.wire = [] ∧ ∃ more, s.turns.head? = some (.ready more)) ∨
    ∃ neg, .failed MBEDTLS_ERR_SSL_CONN_EOF neg ∈ s.turns

/-- **The wire does not end in the middle of a record**, so a read that ends
with the connection has found it closed from the start. -/
theorem Aligned.closed {c : Session} {s s' : SslIn} {fs : List Frame}
    {contents : List (List UInt8)} (hs : Aligned c s fs contents) (hf : Fetched s s')
    (h : Eof s s') : s.Closed := by
  rcases h with hfailed | ⟨hwire, hless, hhead⟩
  · exact Or.inr hfailed
  have hbytes := hf.append.symm.trans hs.bytes
  rw [hwire, List.append_nil] at hbytes
  have hcarry := hs.carry
  cases fs with
  | nil => exact Or.inl ⟨(List.append_eq_nil_iff.mp hs.bytes).2, hhead hs.bytes⟩
  | cons f fs =>
      obtain ⟨content, rest, -, hcarries, -⟩ := hcarry
      have hlength := length_encode f
      have hleft : s'.inLeft = f.encode ++ encodeAll fs := hbytes.trans List.flatMap_cons
      have hheader : headerLength f.encode = f.body.length := be16_value hcarries.fits
      rw [hleft, headerLength_append (by omega), hheader, List.length_append] at hless
      omega

/-- The next record is the one in front. -/
theorem sslGetNextRecord_aligned {c : Session} {s s' : SslIn} {ret : Int} {fs : List Frame}
    {contents : List (List UInt8)} (hs : Aligned c s fs contents)
    (h : sslGetNextRecord c s = some (ret, s')) :
    (ret ≠ 0 ∧ Aligned c s' fs contents ∧ (ret = MBEDTLS_ERR_SSL_CONN_EOF → s.Closed)) ∨
      ∃ f fs' content rest, fs = f :: fs' ∧ contents = content :: rest ∧ content ≠ [] ∧ ret = 0 ∧
        s'.inMsgtype = MBEDTLS_SSL_MSG_APPLICATION_DATA ∧ s'.inMsg = content ∧
        Aligned c s' fs' rest := by
  rcases sslGetNextRecord_cases hs.sound h with ⟨hret, hf, hs', heof⟩ |
      ⟨s₂, hf, hwhole, hprepare⟩
  · exact Or.inl ⟨hret, hs.fetched hf hs', fun hclosed => hs.closed hf (heof hclosed)⟩
  obtain ⟨hencode, hfits⟩ := recordIn_encode hwhole
  have hframes : s₂.frames = s.frames := by rw [hf.same]
  have hbytes := hf.append.symm.trans hs.bytes
  have hcarry := hs.carry
  cases fs with
  | nil =>
      have hnil : s₂.inLeft = [] := (List.append_eq_nil_iff.mp hbytes).1
      rw [hnil, List.length_nil] at hwhole
      exact absurd hwhole (Nat.ne_of_lt (Nat.lt_of_lt_of_le (by decide) (Nat.le_add_right _ _)))
  | cons f fs =>
      obtain ⟨content, rest, rfl, hcarries, hcarry⟩ := hcarry
      have hsplit : (recordIn s₂.inLeft).encode ++ s₂.wire = f.encode ++ encodeAll fs := by
        rw [hencode, hbytes]
        exact List.flatMap_cons
      obtain ⟨hrecord, hwire⟩ := Frame.encode_inj hfits hcarries.fits hsplit
      rw [hrecord, sslPrepareRecordContent, hframes, hcarries.opened] at hprepare
      simp only at hprepare
      rw [if_neg (Nat.not_lt.mpr hcarries.most)] at hprepare
      cases hprepare
      have hzero : s₂.inHslen = 0 := by rw [hf.same]; exact hs.inHslen
      refine Or.inr ⟨f, fs, content, rest, rfl, rfl, hcarries.some, rfl, hcarries.type, rfl,
        ⟨⟨fun hlen => absurd hlen (show ¬sslHdrLen ≤ 0 by decide), fun hne => absurd hzero hne⟩,
          hzero, by rw [hf.same]; exact hs.inOfft, hwire, hcarry⟩⟩

/-- What the loop does with it. -/
theorem sslReadLoop_aligned {c : Session} {s s' : SslIn} {ret : Int} {fs : List Frame}
    {contents : List (List UInt8)} (hs : Aligned c s fs contents)
    (h : sslReadLoop c false s = some (ret, s')) :
    (ret ≤ 0 ∧ Aligned c s' fs contents ∧ (ret = 0 → s.Closed)) ∨
      ∃ f fs' content rest, fs = f :: fs' ∧ contents = content :: rest ∧
        s'.inOfft = some content ∧ Aligned c { s' with inOfft := none } fs' rest := by
  have hle := sslReadLoop_nonpos c false s ret s' h
  cases hrecord : sslGetNextRecord c { s with inMsg := [] } with
  | none =>
      have hnone : sslReadRecord c s = none := by
        rw [sslReadRecord]
        split
        · rfl
        · rename_i hnext
          rw [sslNextMessage_eq c hs.inHslen, hrecord] at hnext
          cases hnext
      rw [sslReadLoop] at h
      split at h
      · cases h
      · rename_i hread
        rw [hnone] at hread
        cases hread
  | some p =>
      obtain ⟨ret₁, s₁⟩ := p
      have hempty : Aligned c { s with inMsg := [] } fs contents :=
        ⟨⟨hs.sound.within, hs.sound.handshake⟩, hs.inHslen, hs.inOfft, hs.bytes, hs.carry⟩
      rcases sslGetNextRecord_aligned hempty hrecord with ⟨hret, hs₁, hclosed⟩ |
          ⟨f, fs', content, rest, rfl, rfl, hsome, rfl, htype, rfl, hs₁⟩
      · rw [sslReadLoop_failed false hs.inHslen hrecord hret] at h
        cases h
        refine Or.inl ⟨hle, hs₁, fun hzero => hclosed (Decidable.byContradiction ?_)⟩
        intro hother
        rw [if_neg hother] at hzero
        exact hret hzero
      · rw [sslReadLoop_data false hs.inHslen hrecord htype hsome] at h
        cases h
        have hofft := hs₁.inOfft
        exact Or.inr ⟨f, fs', _, rest, rfl, rfl, rfl, ⟨hs₁.sound.within, hs₁.sound.handshake⟩,
          hs₁.inHslen, rfl, hs₁.bytes, hs₁.carry⟩

/-- **A record, a read**: all that the next record carries, or nothing; and
0 only from a closed connection. -/
theorem sslRead_aligned {c : Session} {len : Nat} {s s' : SslIn} {ret : Int} {out : List UInt8}
    {fs : List Frame} {contents : List (List UInt8)} (hs : Aligned c s fs contents)
    (hfit : ∀ content ∈ contents, content.length ≤ len)
    (h : sslRead c len s = some (ret, out, s')) :
    (ret ≤ 0 ∧ Aligned c s' fs contents ∧ (ret = 0 → s.Closed)) ∨
      ∃ f fs' rest, fs = f :: fs' ∧ contents = out :: rest ∧ ret = out.length ∧
        Aligned c s' fs' rest := by
  rw [sslRead, hs.inOfft] at h
  obtain ⟨⟨ret₁, s₁⟩, hloop, h⟩ := Option.map_eq_some_iff.mp h
  rcases sslReadLoop_aligned hs hloop with ⟨hret, hs₁, hclosed⟩ |
      ⟨f, fs', content, rest, rfl, rfl, hofft, hs₁⟩
  · simp only [hs₁.inOfft] at h
    cases h
    exact Or.inl ⟨hret, hs₁, hclosed⟩
  · have hlen := hfit content List.mem_cons_self
    have htake : sslTake len content s₁ = (ret, out, s') := by
      simp only [hofft] at h
      exact h
    rw [sslTake] at htake
    have hall : (if len < content.length then len else content.length) = content.length :=
      if_neg (Nat.not_lt.mpr hlen)
    rw [hall, List.take_length, List.drop_length, if_pos rfl] at htake
    cases htake
    exact Or.inr ⟨f, fs', rest, rfl, rfl, rfl, hs₁⟩

end NucleoMqtt.Tls
