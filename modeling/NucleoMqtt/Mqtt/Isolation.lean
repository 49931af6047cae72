import NucleoMqtt.Mqtt.Verdict

/-!
# Mqtt — reads that do not depend on the buffer's past

Two runs of one read over two buffers with different pasts. Their verdicts
agree on a negative outcome, and on received bytes that carry every byte
the reader of their type looks at: at least the first one, four for a
CONNACK, and for a PUBLISH all that its header announces.

An empty read is the case that matters in practice. The transport reports
the peer's closing that way, and the dispatch then looks at the first byte
of whatever was read before.
-/

namespace NucleoMqtt.Mqtt

open NucleoMqtt.Lib

variable {len : Nat}

/-- The received bytes hold every byte their reader looks at. -/
def Recv.SelfContained : Recv len → Prop
  | .error _ _ => True
  | .data bytes _ => ∃ c, bytes[0]? = some c ∧
      (packetType c = typeConnack → 4 ≤ bytes.length) ∧
      (packetType c = typePublish →
        ∃ off, payloadOffset bytes = some off ∧ off ≤ bytes.length)

/-- Any two buffers give the same verdict. -/
def Isolated (r : Recv len) : Prop :=
  ∀ b₁ b₂ : Block UInt8 len, ∃ v, verdict b₁ r = some v ∧ verdict b₂ r = some v

theorem judge_of_selfContained {bytes : List UInt8} {fits : bytes.length ≤ len}
    (h : (Recv.data bytes fits).SelfContained) : ∃ v, judge bytes = some v := by
  obtain ⟨c, hc, hconnack, hpublish⟩ := h
  have hret : 0 < bytes.length := (List.getElem?_eq_some_iff.mp hc).1
  simp only [judge, hc, Option.bind_eq_bind, Option.bind_some]
  by_cases h1 : packetType c = typeConnack
  · rw [if_pos h1, List.getElem?_eq_getElem (hconnack h1)]
    exact ⟨_, rfl⟩
  rw [if_neg h1]
  by_cases h2 : packetType c = typePublish
  · obtain ⟨off, hoff, hle⟩ := hpublish h2
    rw [if_pos h2, hoff, Option.bind_some, if_pos hle]
    exact ⟨_, rfl⟩
  rw [if_neg h2]
  by_cases h3 : packetType c = typeSuback ∨ packetType c = typeUnsuback
  · rw [if_pos h3, List.getElem?_eq_getElem (Nat.sub_lt hret (by decide))]
    exact ⟨_, rfl⟩
  rw [if_neg h3]
  split
  · exact ⟨_, rfl⟩
  · exact ⟨_, rfl⟩

theorem load_replicate {i : Nat} (h : i < len) (a : UInt8) :
    (Block.replicate len a).load i = some a := by
  simp [Block.load, Block.replicate, h]

/-- A cell the read did not reach keeps its content. -/
theorem load_into_of_le {b : Block UInt8 len} {bytes : List UInt8}
    {fits : bytes.length ≤ len} {i : Nat} (h : bytes.length ≤ i) :
    ((Recv.data bytes fits).into b).load i = b.load i := by
  rw [Block.load, cells_into, List.getElem?_append_right h, List.getElem?_drop,
    Nat.add_sub_cancel' h]
  rfl

/-- After an empty read the stale first byte decides. -/
theorem isolated_data_ne_nil (h5 : 5 ≤ len) {bytes : List UInt8} {fits : bytes.length ≤ len}
    (h : Isolated (.data bytes fits)) : 0 < bytes.length := by
  rcases Nat.eq_zero_or_pos bytes.length with hnil | hpos
  case inr => exact hpos
  obtain rfl : bytes = [] := List.length_eq_zero_iff.mp hnil
  obtain ⟨v, hping, hzero⟩ := h (Block.replicate len 0xD0) (Block.replicate len 0)
  have hload (a : UInt8) : ((Recv.data [] fits).into (Block.replicate len a)).load 0 = some a :=
    (load_into_of_le (by simp)).trans (load_replicate (by omega) a)
  have hv₁ : verdict (Block.replicate len 0xD0) (.data [] fits) = some (0, none) := by
    have ht : packetType 0xD0 = typePingresp := by decide
    simp [verdict, mqttReadPacket_data, mqttDispatch, hload, ht, mqttReadPingresp,
      typeConnack, typePublish, typeSuback, typeUnsuback, typePingresp, frontType]
  have hv₂ : verdict (Block.replicate len 0) (.data [] fits) = some (-1, none) := by
    have ht : packetType 0 = 0 := by decide
    simp [verdict, mqttReadPacket_data, mqttDispatch, hload, ht, typeConnack,
      typePublish, typeSuback, typeUnsuback, typePingresp]
  rw [hv₁] at hping
  rw [hv₂] at hzero
  cases hping
  cases hzero

/-- A CONNACK cut before its Reason Code is judged by a stale byte. -/
theorem isolated_connack (h5 : 5 ≤ len) {bytes : List UInt8} {fits : bytes.length ≤ len}
    {c : UInt8} (hc : bytes[0]? = some c) (ht : packetType c = typeConnack)
    (h : Isolated (.data bytes fits)) : 4 ≤ bytes.length := by
  rcases Nat.lt_or_ge bytes.length 4 with hshort | hlong
  case inr => exact hlong
  obtain ⟨v, haccepted, hrefused⟩ := h (Block.replicate len 0) (Block.replicate len 1)
  have hload (a : UInt8) :
      ((Recv.data bytes fits).into (Block.replicate len a)).load 3 = some a :=
    (load_into_of_le (by omega)).trans (load_replicate (by omega) a)
  have hrun (a : UInt8) : mqttReadPacket (Block.replicate len a) (.data bytes fits)
      = some (accept a bytes.length, (Recv.data bytes fits).into (Block.replicate len a)) := by
    simp [mqttReadPacket_data, mqttDispatch, load_into hc, ht, mqttReadConnack, hload, accept]
  have hne : packetType c ≠ typePublish := by
    rw [ht]
    decide
  rw [verdict_of_other hc (hrun 0) hne] at haccepted
  rw [verdict_of_other hc (hrun 1) hne, ← haccepted] at hrefused
  simp [accept] at hrefused

/-- A PUBLISH cut inside what its header announces has no verdict at all. -/
theorem isolated_publish (h5 : 5 ≤ len) (hlen : len < 2 ^ 31) {bytes : List UInt8}
    {fits : bytes.length ≤ len} {c : UInt8} (hc : bytes[0]? = some c)
    (ht : packetType c = typePublish) (h : Isolated (.data bytes fits)) :
    ∃ off, payloadOffset bytes = some off ∧ off ≤ bytes.length := by
  obtain ⟨v, hv, -⟩ := h (Block.replicate len 0) (Block.replicate len 0)
  rw [verdict, Option.map_eq_some_iff] at hv
  obtain ⟨p, hrun, -⟩ := hv
  exact payloadOffset_of_isSome h5 hlen hc ht (Option.isSome_of_eq_some hrun)

/-- **A verdict rests on the received bytes exactly when** they are self-
contained. -/
theorem isolated_iff_selfContained (h5 : 5 ≤ len) (hlen : len < 2 ^ 31) (r : Recv len) :
    Isolated r ↔ r.SelfContained := by
  cases r with
  | error code neg =>
      have hv (b : Block UInt8 len) : verdict b (.error code neg) = some (code, none) := by
        simp [verdict, mqttReadPacket, Recv.ret, neg]
      exact ⟨fun _ => trivial, fun _ b₁ b₂ => ⟨_, hv b₁, hv b₂⟩⟩
  | data bytes fits =>
      constructor
      · intro h
        have hpos := isolated_data_ne_nil h5 h
        have hc : bytes[0]? = some (bytes[0]) := List.getElem?_eq_getElem hpos
        exact ⟨_, hc, fun ht => isolated_connack h5 hc ht h,
          fun ht => isolated_publish h5 hlen hc ht h⟩
      · intro h b₁ b₂
        obtain ⟨v, hv⟩ := judge_of_selfContained h
        exact ⟨v, verdict_of_judge hlen hv b₁ fits, verdict_of_judge hlen hv b₂ fits⟩

/-- A PUBLISH of `Hi` to the topic `t`. -/
theorem isolated_iff_selfContained_publish :
    Isolated (.data [0x30, 0x06, 0x00, 0x01, 0x74, 0x00, 0x48, 0x69] (by decide) : Recv 2048) ↔
      (Recv.data [0x30, 0x06, 0x00, 0x01, 0x74, 0x00, 0x48, 0x69] (by decide) :
        Recv 2048).SelfContained :=
  isolated_iff_selfContained (by decide) (by decide) _

/-- The peer closes the connection (an empty read) while an old PINGRESP is
still in the buffer: the close is reported as a packet. Over a zeroed
buffer it is not. -/
theorem closed_connection_not_isolated :
    verdict ((Block.replicate 2048 0).overwrite [0xD0, 0x00] (by decide))
        (.data [] (by decide) : Recv 2048) = some (0, none) ∧
      verdict (Block.replicate 2048 0) (.data [] (by decide) : Recv 2048)
        = some (-1, none) := by
  decide +kernel

end NucleoMqtt.Mqtt
