import NucleoMqtt.Tls.SslWrite

/-!
# Tls — a packet reported as sent

`Sent` sets the application bytes placed in records against the packets
whose call of `MQTT_Write_Packet` returned a value that is not negative. A
call keeps the two equal under a condition on the context it finds and on
what `TCP_Write` and the cipher answer (`Keeps`), and no other call does.
What goes wrong is what the source leaves to its caller: a call that has
failed has left its record in the output buffer, and the next call, which
brings another packet, only flushes that record and reports its own packet
as sent.
-/

namespace NucleoMqtt.Tls

open NucleoMqtt.Lib

/-- A connection with the packets reported as sent, one behind the other. -/
structure Sent where
  ssl : Ssl
  reported : List UInt8

namespace Sent

/-- A connection as the handshake leaves it. -/
def start (s : Ssl) : Sent := { ssl := { s with placed := [] }, reported := [] }

/-- One call of `MQTT_Write_Packet`. -/
def write (c : Connection) (h : Sent) (packet : List UInt8) : Sent :=
  let (ret, ssl) := mqttWritePacket c h.ssl packet
  { ssl := ssl, reported := h.reported ++ if 0 ≤ ret then packet else [] }

/-- Calls of `MQTT_Write_Packet`, one behind the other. -/
def writes (c : Connection) (h : Sent) (packets : List (List UInt8)) : Sent :=
  packets.foldl (write c) h

/-- Exactly the packets reported as sent have been placed in records. -/
def Truthful (h : Sent) : Prop := h.ssl.placed = h.reported

end Sent

/-! ## The condition -/

/-- A packet that is written as one record. With nothing in the output
buffer it is refused by the cipher, or it fits in one record, the record
counter does not wrap and `TCP_Write` does not fail. With an earlier record
in the buffer `TCP_Write` fails, so that the call fails too. -/
def KeepsWhole (c : Connection) (s : Ssl) (packet : List UInt8) : Prop :=
  if s.outLeft = 0 then
    ∀ msglen, c.encryptBuf s.records = .sealed msglen →
      packet.length ≤ sslGetMaxOutRecordPayload ∧ s.curOutCtr + 1 ≠ 0 ∧
        ¬ Breaks c.tcpWrite s.tcpCalls (msglen + sslHdrLen)
  else Breaks c.tcpWrite s.tcpCalls s.outLeft

/-- A packet that is split, its first byte in a record of its own. With
nothing in the output buffer the first record is refused, or no earlier
split has been left half done, `TCP_Write` takes all of the first record and
does not fail in the second, and both are built. With an earlier record in
the buffer `TCP_Write` fails before a record of this packet is built: at
once, or behind a result of zero; or else the cipher refuses the rest. -/
def KeepsSplit (c : Connection) (s : Ssl) (packet : List UInt8) : Prop :=
  if s.outLeft = 0 then
    ∀ msglen, c.encryptBuf s.records = .sealed msglen →
      s.splitDone = false ∧ packet.length ≤ 1 + sslGetMaxOutRecordPayload ∧
        s.curOutCtr + 1 ≠ 0 ∧ s.curOutCtr + 1 + 1 ≠ 0 ∧
        ∃ j, Drains c.tcpWrite s.tcpCalls (msglen + sslHdrLen) j ∧
          ∃ msglen', c.encryptBuf (s.records + 1) = .sealed msglen' ∧
            ¬ Breaks c.tcpWrite j (msglen' + sslHdrLen)
  else
    Breaks c.tcpWrite s.tcpCalls s.outLeft ∨
      s.splitDone = false ∧
        ((∃ j left, Stalls c.tcpWrite s.tcpCalls s.outLeft j left ∧
            Breaks c.tcpWrite (j + 1) left) ∨
          (∃ j, Drains c.tcpWrite s.tcpCalls s.outLeft j) ∧
            ∀ msglen, c.encryptBuf s.records ≠ .sealed msglen)

/-- The calls that place what they report. -/
def Keeps (c : Connection) (s : Ssl) (packet : List UInt8) : Prop :=
  packet = [] ∨
    if packet.length ≤ 1 ∨ c.cbcTls10 = false then KeepsWhole c s packet
    else KeepsSplit c s packet

/-! ## One record -/

theorem accepted_eq_self {buf : List UInt8} :
    accepted buf = buf ↔ buf.length ≤ sslGetMaxOutRecordPayload := by
  refine ⟨fun h => ?_, List.take_of_length_le⟩
  have hlen := congrArg List.length h
  rw [accepted, List.length_take] at hlen
  omega

theorem accepted_ne_nil {buf : List UInt8} (h : buf ≠ []) : accepted buf ≠ [] := by
  have hpos := List.length_pos_iff.mpr h
  refine List.ne_nil_of_length_pos ?_
  rw [accepted, List.length_take, sslGetMaxOutRecordPayload, MBEDTLS_SSL_OUT_CONTENT_LEN]
  omega

/-- What a call adds to the records and to the report. -/
def Adds (s s' : Ssl) (ret : Int) (packet : List UInt8) : Prop :=
  s'.placed = s.placed ++ if 0 ≤ ret then packet else []

/-- A call that reports success. -/
theorem adds_ok {s s' : Ssl} {ret : Int} {packet put : List UInt8} (hret : 0 ≤ ret)
    (hput : s'.placed = s.placed ++ put) : Adds s s' ret packet ↔ put = packet := by
  rw [Adds, if_pos hret, hput, List.append_cancel_left_eq]

theorem adds_ok_nothing {s s' : Ssl} {ret : Int} {packet : List UInt8} (hret : 0 ≤ ret)
    (hsame : s'.placed = s.placed) : Adds s s' ret packet ↔ packet = [] := by
  rw [adds_ok hret (hsame.trans (List.append_nil _).symm), eq_comm]

/-- A call that reports failure. -/
theorem adds_failed {s s' : Ssl} {ret : Int} {packet put : List UInt8} (hret : ret < 0)
    (hput : s'.placed = s.placed ++ put) : Adds s s' ret packet ↔ put = [] := by
  rw [Adds, if_neg (Int.not_le.mpr hret), hput, List.append_cancel_left_eq]

theorem adds_failed_nothing {s s' : Ssl} {ret : Int} {packet : List UInt8} (hret : ret < 0)
    (hsame : s'.placed = s.placed) : Adds s s' ret packet :=
  (adds_failed hret (hsame.trans (List.append_nil _).symm)).mpr rfl

/-- **One record keeps the report exactly under its condition.** -/
theorem RealWrite.adds_iff {c : Connection} {s s' : Ssl} {buf : List UInt8} {ret : Int}
    (h : RealWrite c s buf ret s') (hbuf : buf ≠ []) :
    Adds s s' ret buf ↔ KeepsWhole c s buf := by
  have hlen : (0 : Int) ≤ (accepted buf).length := Int.natCast_nonneg _
  cases h with
  | @refused code neg hleft henc =>
      refine iff_of_true (adds_failed_nothing neg rfl) ?_
      rw [KeepsWhole, if_pos hleft, henc]
      rintro msglen ⟨⟩
  | lost hleft henc hfail hret hplaced =>
      rw [adds_failed hret hplaced, KeepsWhole, if_pos hleft]
      refine iff_of_false (accepted_ne_nil hbuf) fun hkeeps => ?_
      obtain ⟨-, hctr, hbreaks⟩ := hkeeps _ henc
      rcases hfail with hfail | hfail
      · exact hctr hfail
      · exact hbreaks hfail
  | written hleft henc hctr hdrains =>
      rw [adds_ok hlen rfl, accepted_eq_self, KeepsWhole, if_pos hleft, henc]
      simp [hctr, hdrains.not_breaks]
  | held hleft henc hctr hstalls =>
      rw [adds_ok hlen rfl, accepted_eq_self, KeepsWhole, if_pos hleft, henc]
      simp [hctr, hstalls.not_breaks]
  | flushed hleft hdrains =>
      refine (adds_ok_nothing hlen rfl).trans ?_
      rw [KeepsWhole, if_neg hleft]
      exact iff_of_false hbuf hdrains.not_breaks
  | stuck hleft hstalls =>
      refine (adds_ok_nothing hlen rfl).trans ?_
      rw [KeepsWhole, if_neg hleft]
      exact iff_of_false hbuf hstalls.not_breaks
  | failed hleft hbreaks hret hplaced =>
      rw [KeepsWhole, if_neg hleft]
      exact iff_of_true (adds_failed_nothing hret hplaced) hbreaks

/-! ## Two records -/

/-- The record of the rest takes something, and never the whole packet. -/
theorem accepted_rest {buf : List UInt8} (hbuf : 2 ≤ buf.length) :
    accepted (buf.drop 1) ≠ [] ∧ accepted (buf.drop 1) ≠ buf ∧
      (0 : Int) < (accepted (buf.drop 1)).length := by
  have hrest : accepted (buf.drop 1) ≠ [] :=
    accepted_ne_nil (List.ne_nil_of_length_pos (by rw [List.length_drop]; omega))
  refine ⟨hrest, ?_, ?_⟩
  · intro heq
    have hlen := congrArg List.length heq
    rw [accepted, List.length_take, List.length_drop] at hlen
    omega
  · have := List.length_pos_iff.mpr hrest
    omega

/-- The record of the rest, when the first byte has not been placed: the
report is kept exactly if the call fails before it places anything. -/
theorem sslWriteRest_adds_alone {c : Connection} {s₀ s : Ssl} {buf : List UInt8}
    (hplaced : s.placed = s₀.placed) (hbuf : 2 ≤ buf.length) :
    Adds s₀ (sslWriteRest c s buf).2 (sslWriteRest c s buf).1 buf ↔
      if s.outLeft = 0 then ∀ msglen, c.encryptBuf s.records ≠ .sealed msglen
      else Breaks c.tcpWrite s.tcpCalls s.outLeft := by
  have hne : buf ≠ [] := List.ne_nil_of_length_pos (by omega)
  obtain ⟨hrest, hshort, hpos⟩ := accepted_rest hbuf
  have hok := Int.le_of_lt (Int.lt_add_one_of_le (Int.le_of_lt hpos))
  obtain ⟨ret, s', hwrite⟩ : ∃ ret s', sslWriteReal c s (buf.drop 1) = (ret, s') := ⟨_, _, rfl⟩
  cases sslWriteReal_cases hwrite with
  | @refused code neg hleft henc =>
      rw [sslWriteRest_of_neg hwrite neg, if_pos hleft, henc]
      exact iff_of_true (adds_failed_nothing neg hplaced) (by simp)
  | lost hleft henc hfail hret hplaced' =>
      rw [sslWriteRest_of_neg hwrite hret, if_pos hleft, adds_failed hret (hplaced ▸ hplaced')]
      exact iff_of_false hrest fun h => h _ henc
  | written hleft henc hctr hdrains | held hleft henc hctr hstalls =>
      rw [sslWriteRest_of_pos hwrite hpos, if_pos hleft, adds_ok hok (congrArg (· ++ _) hplaced)]
      exact iff_of_false hshort fun h => h _ henc
  | flushed hleft hdrains =>
      rw [sslWriteRest_of_pos hwrite hpos, if_neg hleft]
      refine (adds_ok_nothing hok ?_).trans (iff_of_false hne hdrains.not_breaks)
      exact hplaced
  | stuck hleft hstalls =>
      rw [sslWriteRest_of_pos hwrite hpos, if_neg hleft]
      refine (adds_ok_nothing hok ?_).trans (iff_of_false hne hstalls.not_breaks)
      exact hplaced
  | failed hleft hbreaks hret hplaced' =>
      rw [sslWriteRest_of_neg hwrite hret, if_neg hleft]
      exact iff_of_true (adds_failed_nothing hret (hplaced'.trans hplaced)) hbreaks

/-- The first byte and the record of the rest make the packet if the rest fits. -/
theorem first_append_rest (buf : List UInt8) :
    buf.take 1 ++ accepted (buf.drop 1) = buf ↔
      buf.length ≤ 1 + sslGetMaxOutRecordPayload := by
  calc buf.take 1 ++ accepted (buf.drop 1) = buf
      ↔ buf.take 1 ++ accepted (buf.drop 1) = buf.take 1 ++ buf.drop 1 := by
        rw [List.take_append_drop]
    _ ↔ accepted (buf.drop 1) = buf.drop 1 := by
        rw [List.append_cancel_left_eq]
    _ ↔ (buf.drop 1).length ≤ sslGetMaxOutRecordPayload := accepted_eq_self
    _ ↔ buf.length ≤ 1 + sslGetMaxOutRecordPayload := by
        rw [List.length_drop]
        omega

/-- The record of the rest, behind a first byte that has been placed: the
report is kept exactly if the whole rest is placed and reported. -/
theorem sslWriteRest_adds_behind {c : Connection} {s₀ s : Ssl} {buf : List UInt8}
    (hplaced : s.placed = s₀.placed ++ buf.take 1) (hbuf : 2 ≤ buf.length) :
    Adds s₀ (sslWriteRest c s buf).2 (sslWriteRest c s buf).1 buf ↔
      s.outLeft = 0 ∧ buf.length ≤ 1 + sslGetMaxOutRecordPayload ∧ s.curOutCtr + 1 ≠ 0 ∧
        ∃ msglen, c.encryptBuf s.records = .sealed msglen ∧
          ¬ Breaks c.tcpWrite s.tcpCalls (msglen + sslHdrLen) := by
  have hfirst : buf.take 1 ≠ [] := List.ne_nil_of_length_pos (by rw [List.length_take]; omega)
  have hfirst' : buf.take 1 ≠ buf := by
    intro heq
    have hlen := congrArg List.length heq
    rw [List.length_take] at hlen
    omega
  obtain ⟨hrest, -, hpos⟩ := accepted_rest hbuf
  have hok := Int.le_of_lt (Int.lt_add_one_of_le (Int.le_of_lt hpos))
  have hbehind {s' : Ssl} (h : s'.placed = s.placed ++ accepted (buf.drop 1)) :
      s'.placed = s₀.placed ++ (buf.take 1 ++ accepted (buf.drop 1)) := by
    rw [h, hplaced, List.append_assoc]
  obtain ⟨ret, s', hwrite⟩ : ∃ ret s', sslWriteReal c s (buf.drop 1) = (ret, s') := ⟨_, _, rfl⟩
  cases sslWriteReal_cases hwrite with
  | @refused code neg hleft henc =>
      rw [sslWriteRest_of_neg hwrite neg]
      refine (adds_failed neg ?_).trans (iff_of_false hfirst ?_)
      · exact hplaced
      · rintro ⟨-, -, -, msglen, hsealed, -⟩
        rw [henc] at hsealed
        cases hsealed
  | lost hleft henc hfail hret hplaced' =>
      rw [sslWriteRest_of_neg hwrite hret, adds_failed hret (hbehind hplaced')]
      refine iff_of_false (fun h => hrest (List.append_eq_nil_iff.mp h).2) ?_
      rintro ⟨-, -, hctr, msglen, hsealed, hbreaks⟩
      rw [henc] at hsealed
      cases hsealed
      rcases hfail with hfail | hfail
      · exact hctr hfail
      · exact hbreaks hfail
  | written hleft henc hctr hdrains =>
      rw [sslWriteRest_of_pos hwrite hpos, adds_ok hok (hbehind rfl), first_append_rest]
      simp [hleft, hctr, henc, hdrains.not_breaks]
  | held hleft henc hctr hstalls =>
      rw [sslWriteRest_of_pos hwrite hpos, adds_ok hok (hbehind rfl), first_append_rest]
      simp [hleft, hctr, henc, hstalls.not_breaks]
  | flushed hleft hdrains | stuck hleft hstalls =>
      rw [sslWriteRest_of_pos hwrite hpos]
      refine (adds_ok hok ?_).trans (iff_of_false hfirst' fun h => hleft h.1)
      exact hplaced
  | failed hleft hbreaks hret hplaced' =>
      rw [sslWriteRest_of_neg hwrite hret, adds_failed hret (hplaced'.trans hplaced)]
      exact iff_of_false hfirst fun h => hleft h.1

/-- The first byte makes a record of its own. -/
theorem accepted_first {buf : List UInt8} (hbuf : 2 ≤ buf.length) :
    accepted (buf.take 1) = buf.take 1 ∧ buf.take 1 ≠ [] ∧
      (0 : Int) < (accepted (buf.take 1)).length := by
  have hlen : (buf.take 1).length = 1 := by
    rw [List.length_take]
    omega
  have hself : accepted (buf.take 1) = buf.take 1 := accepted_eq_self.mpr (by
    rw [hlen, sslGetMaxOutRecordPayload, MBEDTLS_SSL_OUT_CONTENT_LEN]
    omega)
  refine ⟨hself, List.ne_nil_of_length_pos (by omega), ?_⟩
  rw [hself, hlen]
  decide

/-- **A split write keeps the report exactly under its condition.** -/
theorem sslWriteSplit_adds_iff {c : Connection} {s : Ssl} {buf : List UInt8}
    (hsplit : ¬ (buf.length ≤ 1 ∨ c.cbcTls10 = false)) :
    Adds s (sslWriteSplit c s buf).2 (sslWriteSplit c s buf).1 buf ↔ KeepsSplit c s buf := by
  have hbuf : 2 ≤ buf.length := by omega
  cases hdone : s.splitDone with
  | true =>
      rw [sslWriteSplit_done hsplit hdone, sslWriteRest_adds_alone rfl hbuf, KeepsSplit, hdone]
      by_cases hleft : s.outLeft = 0
      · rw [if_pos hleft, if_pos hleft]
        simp
      · rw [if_neg hleft, if_neg hleft]
        simp
  | false =>
      obtain ⟨hself, hfirst, hpos⟩ := accepted_first hbuf
      obtain ⟨ret, s₁, hwrite⟩ : ∃ ret s₁, sslWriteReal c s (buf.take 1) = (ret, s₁) :=
        ⟨_, _, rfl⟩
      cases sslWriteReal_cases hwrite with
      | @refused code neg hleft henc =>
          rw [sslWriteSplit_of_neg hsplit hdone hwrite neg, KeepsSplit, if_pos hleft, henc]
          refine iff_of_true (adds_failed_nothing neg rfl) ?_
          rintro msglen ⟨⟩
      | lost hleft henc hfail hret hplaced =>
          rw [sslWriteSplit_of_neg hsplit hdone hwrite hret, KeepsSplit, if_pos hleft,
            adds_failed hret hplaced, hself]
          refine iff_of_false hfirst fun hkeeps => ?_
          obtain ⟨-, -, hctr, -, j, hdrains, -⟩ := hkeeps _ henc
          rcases hfail with hfail | hfail
          · exact hctr hfail
          · exact hdrains.not_breaks hfail
      | @written msglen j hleft henc hctr hdrains =>
          rw [sslWriteSplit_of_pos hsplit hdone hwrite hpos, KeepsSplit, if_pos hleft]
          refine (sslWriteRest_adds_behind (congrArg (s.placed ++ ·) hself) hbuf).trans ⟨?_, ?_⟩
          · rintro ⟨-, hfits, hctr', msglen', henc', hbreaks⟩ m hm
            rw [henc] at hm
            cases hm
            exact ⟨hdone, hfits, hctr, hctr', j, hdrains, msglen', henc', hbreaks⟩
          · intro hkeeps
            obtain ⟨-, hfits, -, hctr', j', hdrains', msglen', henc', hbreaks⟩ := hkeeps _ henc
            obtain rfl := hdrains.unique hdrains'
            exact ⟨rfl, hfits, hctr', msglen', henc', hbreaks⟩
      | @held msglen j left hleft henc hctr hstalls =>
          rw [sslWriteSplit_of_pos hsplit hdone hwrite hpos, KeepsSplit, if_pos hleft]
          refine (sslWriteRest_adds_behind (congrArg (s.placed ++ ·) hself) hbuf).trans
            (iff_of_false ?_ ?_)
          · intro h
            exact Nat.ne_of_gt hstalls.2.1 h.1
          · intro hkeeps
            obtain ⟨-, -, -, -, j', hdrains, -⟩ := hkeeps _ henc
            exact hdrains.not_stalls hstalls
      | @flushed j hleft hdrains =>
          rw [sslWriteSplit_of_pos hsplit hdone hwrite hpos, KeepsSplit, if_neg hleft]
          refine (sslWriteRest_adds_alone (by rfl) hbuf).trans ?_
          rw [if_pos rfl]
          refine ⟨fun h => Or.inr ⟨hdone, Or.inr ⟨⟨j, hdrains⟩, h⟩⟩, ?_⟩
          rintro (hbreaks | ⟨-, ⟨j', left, hstalls, -⟩ | ⟨-, hrefused⟩⟩)
          · exact absurd hbreaks hdrains.not_breaks
          · exact absurd hstalls hdrains.not_stalls
          · exact hrefused
      | @stuck j left hleft hstalls =>
          rw [sslWriteSplit_of_pos hsplit hdone hwrite hpos, KeepsSplit, if_neg hleft]
          refine (sslWriteRest_adds_alone (by rfl) hbuf).trans ?_
          rw [if_neg (Nat.ne_of_gt hstalls.2.1)]
          refine ⟨fun h => Or.inr ⟨hdone, Or.inl ⟨j, left, hstalls, h⟩⟩, ?_⟩
          rintro (hbreaks | ⟨-, ⟨j', left', hstalls', hbreaks⟩ | ⟨⟨j', hdrains⟩, -⟩⟩)
          · exact absurd hbreaks hstalls.not_breaks
          · obtain ⟨rfl, rfl⟩ := hstalls.unique hstalls'
            exact hbreaks
          · exact absurd hstalls hdrains.not_stalls
      | failed hleft hbreaks hret hplaced =>
          rw [sslWriteSplit_of_neg hsplit hdone hwrite hret, KeepsSplit, if_neg hleft]
          exact iff_of_true (adds_failed_nothing hret hplaced) (Or.inl hbreaks)

/-! ## One call and any number of calls -/

/-- An empty packet adds nothing, whatever is reported. -/
theorem adds_nil {c : Connection} {s : Ssl} :
    Adds s (sslWriteReal c s []).2 (sslWriteReal c s []).1 [] := by
  rw [Adds, ite_self, List.append_nil]
  obtain ⟨ret, s', hwrite⟩ : ∃ ret s', sslWriteReal c s [] = (ret, s') := ⟨_, _, rfl⟩
  rw [hwrite]
  cases sslWriteReal_cases hwrite with
  | refused | flushed | stuck => rfl
  | written | held => exact List.append_nil _
  | lost hleft henc hfail hret hplaced => exact hplaced.trans (List.append_nil _)
  | failed hleft hbreaks hret hplaced => exact hplaced

/-- **One call keeps the report exactly under its condition.** -/
theorem mqttWritePacket_adds_iff (c : Connection) (s : Ssl) (packet : List UInt8) :
    Adds s (mqttWritePacket c s packet).2 (mqttWritePacket c s packet).1 packet ↔
      Keeps c s packet := by
  show Adds s (sslWriteSplit c s packet).2 (sslWriteSplit c s packet).1 packet ↔ _
  by_cases hsplit : packet.length ≤ 1 ∨ c.cbcTls10 = false
  · rw [sslWriteSplit_whole s hsplit, Keeps, if_pos hsplit]
    by_cases hnil : packet = []
    · rw [hnil]
      exact iff_of_true adds_nil (Or.inl rfl)
    · rw [(sslWriteReal_realWrite c s packet).adds_iff hnil]
      simp [hnil]
  · have hne : packet ≠ [] := by
      rintro rfl
      exact hsplit (Or.inl (Nat.zero_le 1))
    rw [sslWriteSplit_adds_iff hsplit, Keeps, if_neg hsplit]
    simp [hne]

namespace Sent

theorem writes_append (c : Connection) (h : Sent) (before after : List (List UInt8)) :
    h.writes c (before ++ after) = (h.writes c before).writes c after :=
  List.foldl_append

/-- **A call from a truthful state.** -/
theorem Truthful.write_iff {c : Connection} {h : Sent} {packet : List UInt8} (ht : h.Truthful) :
    (h.write c packet).Truthful ↔ Keeps c h.ssl packet := by
  rw [← mqttWritePacket_adds_iff, Adds, ht]
  exact Iff.rfl

theorem start_truthful (s : Ssl) : (start s).Truthful := rfl

/-- **Calls that all keep the report** lead from a truthful state to one. -/
theorem Truthful.writes {c : Connection} {h : Sent} {packets : List (List UInt8)}
    (ht : h.Truthful)
    (hkeeps : ∀ before packet after, packets = before ++ packet :: after →
      Keeps c (h.writes c before).ssl packet) : (h.writes c packets).Truthful := by
  induction packets generalizing h with
  | nil => exact ht
  | cons packet packets ih =>
      have hfirst := hkeeps [] packet packets rfl
      refine ih (ht.write_iff.mpr hfirst) ?_
      intro before packet' after hsplit
      exact hkeeps (packet :: before) packet' after (by rw [hsplit, List.cons_append])

/-- **What is reported as sent has been sent while every call keeps it, and
no longer.** Over any calls on any connection, the application bytes placed
in records are, after every one of the calls, the contents of the packets
reported as sent, in order and without repetition, if and only if every call
finds its condition in the state before it. -/
theorem truthful_iff (c : Connection) (s : Ssl) (packets : List (List UInt8)) :
    (∀ before after, packets = before ++ after → ((start s).writes c before).Truthful) ↔
      ∀ before packet after, packets = before ++ packet :: after →
        Keeps c ((start s).writes c before).ssl packet := by
  refine ⟨?_, ?_⟩
  · intro htruthful before packet after hsplit
    have hbefore := htruthful before (packet :: after) hsplit
    have hafter := htruthful (before ++ [packet]) after (by
      rw [hsplit, List.append_assoc, List.singleton_append])
    rw [writes_append] at hafter
    exact hbefore.write_iff.mp hafter
  · intro hkeeps before after hsplit
    refine (start_truthful s).writes ?_
    intro before' packet after' hsplit'
    refine hkeeps before' packet (after' ++ after) ?_
    rw [hsplit, hsplit', List.append_assoc, List.cons_append]

/-- `TCP_Write` fails once and from then on takes whole records of 31 bytes. -/
def failingOnce : Connection where
  cbcTls10 := false
  tcpWrite n := if n = 0 then -1 else 31
  encryptBuf _ := .sealed 26

/-- A context with nothing in its output buffer. -/
def established : Ssl where
  outLeft := 0
  curOutCtr := 1
  splitDone := false
  tcpCalls := 0
  records := 0
  placed := []

/-- A PINGREQ whose call fails, and a DISCONNECT whose call does not: it is
the PINGREQ that goes out, and the DISCONNECT has never been placed. -/
theorem disconnect_not_sent :
    ((start established).writes failingOnce [[0xC0, 0x00], [0xE0, 0x00]]).ssl.placed
        = [0xC0, 0x00] ∧
      ((start established).writes failingOnce [[0xC0, 0x00], [0xE0, 0x00]]).reported
        = [0xE0, 0x00] ∧
      ¬ ((start established).writes failingOnce [[0xC0, 0x00], [0xE0, 0x00]]).Truthful := by
  have hplaced : ((start established).writes failingOnce
      [[0xC0, 0x00], [0xE0, 0x00]]).ssl.placed = [0xC0, 0x00] := by decide +kernel
  have hreported : ((start established).writes failingOnce
      [[0xC0, 0x00], [0xE0, 0x00]]).reported = [0xE0, 0x00] := by decide +kernel
  refine ⟨hplaced, hreported, ?_⟩
  rw [Truthful, hplaced, hreported]
  decide

end Sent

end NucleoMqtt.Tls
