import NucleoMqtt.Mqtt.WriterSpec
import NucleoMqtt.Mqtt.Verdict

/-!
# Mqtt — a PUBLISH that comes back

The test mode publishes to a topic the board is subscribed to, so a packet
of the PUBLISH writer returns to the PUBLISH reader. The writer splits the
topic length by 256; the reader puts it together with a factor of 128. For
a topic of up to 255 bytes the high byte is zero and the two agree. A
longer topic makes the reader look for the Property Length inside the
topic, and the byte found there decides where it takes the message to
start.
-/

namespace NucleoMqtt.Mqtt

open NucleoMqtt.Lib NucleoMqtt.Spec

/-- `pkt` is read whole, and the buffer then starts with `msg` and a NUL. -/
def ReadsBack (b : Block UInt8 RECV_BUF_SIZE) (pkt msg : List UInt8) : Prop :=
  ∃ (fits : pkt.length ≤ RECV_BUF_SIZE) (b' : Block UInt8 RECV_BUF_SIZE),
    mqttReadPacket b (.data pkt fits) = some ((pkt.length : Int), b') ∧
      msg ++ [0] <+: b'.cells

/-- How many bytes of `topic ++ 0 :: msg` the reader takes to come before
the message: with the length `T` of the topic read as `T - 128 * (T / 256)`,
so many, the byte behind them, and as many as that byte says. -/
def skipped (topic msg : List UInt8) : Nat :=
  let k := topic.length - 128 * (topic.length / 256)
  k + 1 + ((topic ++ 0 :: msg)[k]?.getD 0).toNat

/-- The message is found although the reader may skip a wrong number of
bytes. It skips exactly the topic and its Property Length; or too few, and
the end of the topic reads like the message; or too many, and what is left
of the message, closed with a NUL, goes on as the message does in the bytes
the packet has there. -/
def MessageFound (topic msg : List UInt8) : Prop :=
  let skip := skipped topic msg
  skip = topic.length + 1 ∨
  (skip ≤ topic.length ∧ msg ++ [0] <+: topic.drop skip ++ 0 :: msg) ∨
  (topic.length + 1 < skip ∧ skip ≤ topic.length + 1 + msg.length ∧
    msg ++ [0] <+: msg.drop (skip - (topic.length + 1)) ++
      0 :: (publishOf topic msg).encode.drop (topic.length + 1 + msg.length - skip + 1))

instance (topic msg : List UInt8) : Decidable (MessageFound topic msg) :=
  inferInstanceAs (Decidable (_ ∨ _ ∨ _))

/-- A short topic is skipped exactly. -/
theorem skipped_short {topic : List UInt8} (h : topic.length ≤ 255) (msg : List UInt8) :
    skipped topic msg = topic.length + 1 := by
  have hk : topic.length - 128 * (topic.length / 256) = topic.length := by omega
  simp [skipped, hk]

/-- The three cases in one: what is left of topic, NUL and message behind
the skipped bytes, closed with a NUL, begins like the message. -/
theorem messageFound_iff (topic msg : List UInt8) : MessageFound topic msg ↔
    skipped topic msg ≤ topic.length + 1 + msg.length ∧
      msg ++ [0] <+: (topic ++ 0 :: msg).drop (skipped topic msg) ++
        0 :: (publishOf topic msg).encode.drop
          (topic.length + 1 + msg.length - skipped topic msg + 1) := by
  simp only [MessageFound]
  generalize skipped topic msg = skip
  generalize (publishOf topic msg).encode.drop _ = tail
  rcases Nat.lt_trichotomy skip (topic.length + 1) with hlt | heq | hgt
  · have hdrop : (topic ++ 0 :: msg).drop skip = topic.drop skip ++ 0 :: msg :=
      List.drop_append_of_le_length (Nat.le_of_lt_succ hlt)
    have hfront : topic.drop skip ++ 0 :: msg <+: topic.drop skip ++ 0 :: msg ++ 0 :: tail :=
      List.prefix_append _ _
    rw [hdrop]
    constructor
    · rintro (h | ⟨-, h⟩ | ⟨h, -⟩)
      · omega
      · exact ⟨by omega, h.trans hfront⟩
      · omega
    · rintro ⟨-, h⟩
      exact Or.inr (Or.inl ⟨Nat.le_of_lt_succ hlt,
        List.prefix_of_prefix_length_le h hfront (by simp)⟩)
  · have hdrop : (topic ++ 0 :: msg).drop skip = msg := by
      simp [heq]
    rw [hdrop]
    refine iff_of_true (Or.inl heq) ⟨by omega, ?_⟩
    rw [← List.singleton_append (l := tail), ← List.append_assoc]
    exact List.prefix_append _ _
  · have hdrop : (topic ++ 0 :: msg).drop skip = msg.drop (skip - (topic.length + 1)) := by
      rw [List.drop_append, List.drop_eq_nil_of_le (by omega), List.nil_append,
        show skip - topic.length = skip - (topic.length + 1) + 1 by omega, List.drop_succ_cons]
    rw [hdrop]
    constructor
    · rintro (h | ⟨h, -⟩ | ⟨-, h⟩)
      · omega
      · omega
      · exact h
    · intro h
      exact Or.inr (Or.inr ⟨hgt, h⟩)

section Encoding

variable {topic msg : List UInt8}

/-- The encoding, split in front of the topic length. -/
theorem publishOf_encode_split (topic msg : List UInt8) :
    (publishOf topic msg).encode
      = (0b00110000 :: VarInt.encode (topic.length + msg.length + 3))
        ++ (be16 topic.length ++ (topic ++ 0 :: msg)) := by
  rw [publishOf_encode]
  simp [be16]

theorem publishOf_encode_length (topic msg : List UInt8) :
    (publishOf topic msg).encode.length
      = VarInt.size (topic.length + msg.length + 3) + 3 + (topic.length + 1 + msg.length) := by
  simp [publishOf_encode_split]
  omega

/-- The cells behind the Remaining Length are topic length, topic and message. -/
theorem publishOf_encode_drop (topic msg : List UInt8) (i : Nat) :
    (publishOf topic msg).encode.drop (VarInt.size (topic.length + msg.length + 3) + 1 + i)
      = (be16 topic.length ++ (topic ++ 0 :: msg)).drop i := by
  have hlen : (0b00110000 :: VarInt.encode (topic.length + msg.length + 3)).length
      = VarInt.size (topic.length + msg.length + 3) + 1 := by simp
  rw [publishOf_encode_split, ← hlen, List.drop_length_add_append]

/-- The reader skips the header and `skipped` bytes of what the topic and
the message make up. -/
theorem payloadOffset_publishOf (msg : List UInt8) (ht : topic.length ≤ 65535) :
    payloadOffset (publishOf topic msg).encode
      = some (VarInt.size (topic.length + msg.length + 3) + 3 + skipped topic msg) := by
  have hlt : topic.length - 128 * (topic.length / 256) < (topic ++ 0 :: msg).length := by
    simp
    omega
  have hp := List.getElem?_eq_getElem hlt
  rw [publishOf_encode_split, payloadOffset_frame _ _ ht hp, skipped, hp, Option.getD_some]

/-- **The loopback, from the packet on**: the encoding of a PUBLISH reads
back exactly when the message is found. -/
theorem readsBack_iff (b : Block UInt8 RECV_BUF_SIZE) (ht : topic.length ≤ 65535)
    (hfit : (publishOf topic msg).encode.length ≤ RECV_BUF_SIZE) :
    ReadsBack b (publishOf topic msg).encode msg ↔ MessageFound topic msg := by
  have hlen := publishOf_encode_length topic msg
  have hoff := payloadOffset_publishOf msg ht
  have hc : (publishOf topic msg).encode[0]? = some 0b00110000 := by
    rw [publishOf_encode_split]
    rfl
  have htype : packetType 0b00110000 = typePublish := by decide
  rcases Nat.lt_or_ge (topic.length + 1 + msg.length) (skipped topic msg) with hgt | hle
  · rw [messageFound_iff]
    refine iff_of_false ?_ (fun h => Nat.not_le_of_lt hgt h.1)
    rintro ⟨fits, b', hrun, -⟩
    obtain ⟨off, hoff', hoffle⟩ := payloadOffset_of_isSome (by decide) recvBufSize_lt hc htype
      (Option.isSome_of_eq_some hrun)
    rw [hoff] at hoff'
    cases hoff'
    omega
  · obtain ⟨b', hrun, hcells⟩ := readPacket_publish b hfit
      (Nat.lt_of_le_of_lt hfit recvBufSize_lt) hc htype hoff (by omega)
    have hpayload : (publishOf topic msg).encode.drop
          (VarInt.size (topic.length + msg.length + 3) + 3 + skipped topic msg)
        = (topic ++ 0 :: msg).drop (skipped topic msg) := by
      rw [Nat.add_assoc, show ∀ k, 3 + k = 1 + (2 + k) by omega, ← Nat.add_assoc,
        publishOf_encode_drop]
      rw [← length_be16 topic.length, List.drop_length_add_append]
    have hleft : (publishOf topic msg).encode.length
          - (VarInt.size (topic.length + msg.length + 3) + 3 + skipped topic msg) + 1
        = topic.length + 1 + msg.length - skipped topic msg + 1 := by
      omega
    -- the front of the buffer, as long as the packet, does not depend on its old content
    have hfront : (topic ++ 0 :: msg).drop (skipped topic msg) ++ 0 ::
        (publishOf topic msg).encode.drop
          (topic.length + 1 + msg.length - skipped topic msg + 1) <+: b'.cells := by
      have hshort : topic.length + 1 + msg.length - skipped topic msg + 1
          ≤ (publishOf topic msg).encode.length := by omega
      rw [hcells, hpayload, hleft, List.drop_append_of_le_length hshort,
        ← List.cons_append, ← List.append_assoc]
      exact List.prefix_append _ _
    rw [messageFound_iff]
    constructor
    · rintro ⟨fits, b'', hrun', hmsg⟩
      rw [hrun] at hrun'
      cases hrun'
      exact ⟨hle, List.prefix_of_prefix_length_le hmsg hfront (by simp; omega)⟩
    · intro h
      exact ⟨hfit, b', hrun, h.2.trans hfront⟩

end Encoding

/-- **The loopback**: the packet that `MQTT_Write_PUBLISH` hands over,
delivered in one read, is read whole and leaves the message and a NUL in
the buffer exactly when the topic has at most 255 bytes or the message
happens to stand where the reader looks for it. -/
theorem mqttWritePublish_readsBack_iff (topic msg : List UInt8) (ht : topic.length ≤ 65535)
    (hfit : (publishOf topic msg).encode.length ≤ RECV_BUF_SIZE) :
    ∃ h, mqttWritePublish (topic ++ [0]) (topic.length + 1) (msg ++ [0]) (msg.length + 1)
        = some h ∧ ∀ b, ReadsBack b h.buf.cells msg ↔
          topic.length ≤ 255 ∨ MessageFound topic msg := by
  have hlen := publishOf_encode_length topic msg
  have hmax : topic.length + msg.length + 3 ≤ maxRemainingLength := by
    simp only [RECV_BUF_SIZE, maxRemainingLength] at *
    omega
  obtain ⟨h, hrun, -, hcells⟩ := mqttWritePublish_eq topic msg hmax
  refine ⟨h, hrun, fun b => ?_⟩
  rw [hcells, readsBack_iff b ht hfit]
  constructor
  · exact Or.inr
  · rintro (hshort | hfound)
    · exact Or.inl (skipped_short hshort msg)
    · exact hfound

theorem mqttWritePublish_readsBack_iff_short :
    ∃ h, mqttWritePublish [116, 0] 2 [50, 49, 0] 3 = some h ∧
      ∀ b, ReadsBack b h.buf.cells [50, 49] ↔
        [(116 : UInt8)].length ≤ 255 ∨ MessageFound [116] [50, 49] :=
  mqttWritePublish_readsBack_iff [116] [50, 49] (by decide) (by decide +kernel)

/-- A topic of 256 bytes is already too long: instead of the message `1`
the buffer holds the last thirty bytes of the topic. -/
theorem mqttWritePublish_topic_256 :
    ∃ h, mqttWritePublish (List.replicate 256 97 ++ [0]) 257 [49, 0] 2 = some h ∧
      h.buf.cells.length ≤ RECV_BUF_SIZE ∧
      ¬ ReadsBack (Block.replicate RECV_BUF_SIZE 0) h.buf.cells [49] := by
  have hmax : (List.replicate 256 (97 : UInt8)).length + [(49 : UInt8)].length + 3
      ≤ maxRemainingLength := by
    rw [List.length_replicate]
    decide
  obtain ⟨h, hrun, -, hcells⟩ := mqttWritePublish_eq (List.replicate 256 97) [49] hmax
  have hfit : (publishOf (List.replicate 256 97) [49]).encode.length ≤ RECV_BUF_SIZE := by
    rw [publishOf_encode_length, List.length_replicate]
    decide +kernel
  refine ⟨h, by rwa [List.length_replicate] at hrun, by rwa [hcells], ?_⟩
  rw [hcells, readsBack_iff _ (by rw [List.length_replicate]; decide) hfit]
  decide +kernel

end NucleoMqtt.Mqtt
