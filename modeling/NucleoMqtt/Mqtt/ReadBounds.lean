import NucleoMqtt.Mqtt.ReaderSpec

/-!
# Mqtt — when a read stays inside its buffer

`MQTT_Read_Packet` trusts the header fields of what it received. The
readers of CONNACK and PINGRESP touch fixed positions only; SUBACK and
UNSUBACK look at the last byte received, which does not exist after an
empty read; PUBLISH follows the lengths in the packet. `ReadInBounds` is
what all of that asks of the buffer, and
`mqttReadPacket_isSome_iff` that it is asked exactly.
-/

namespace NucleoMqtt.Mqtt

open NucleoMqtt.Lib

variable {len : Nat}

/-- The buffer `cs` after a read of `ret` bytes does not lead its reader
astray: a PUBLISH announces sizes that add up to at most `ret`, and a
SUBACK or UNSUBACK is not empty. -/
def ReadInBounds (cs : List UInt8) (ret : Nat) : Prop :=
  ∀ c, cs[0]? = some c →
    (packetType c = typePublish → ∃ off, payloadOffset cs = some off ∧ off ≤ ret) ∧
    (packetType c = typeSuback ∨ packetType c = typeUnsuback → 0 < ret)

theorem mqttReadConnack_isSome {b : Block UInt8 len} {ret : Nat} (h5 : 5 ≤ len) :
    (mqttReadConnack b ret).isSome := by
  obtain ⟨c, hc⟩ := Option.isSome_iff_exists.mp
    (Block.load_isSome.mpr (show 3 < len by omega) : (b.load 3).isSome)
  simp [mqttReadConnack, hc]

theorem load_last_isSome {b : Block UInt8 len} {ret : Nat} (hlen : len < 2 ^ 31)
    (hret : ret ≤ len) : (b.load (wsub ret 1)).isSome ↔ 0 < ret := by
  rw [Block.load_isSome]
  rcases Nat.eq_zero_or_pos ret with rfl | hpos
  · rw [wsub_of_gt (by omega) (by omega)]
    omega
  · rw [wsub_of_le (by omega) hpos]
    omega

theorem mqttReadSuback_isSome {b : Block UInt8 len} {ret : Nat} (hlen : len < 2 ^ 31)
    (hret : ret ≤ len) : (mqttReadSuback b ret).isSome ↔ 0 < ret := by
  rw [← load_last_isSome hlen hret (b := b), mqttReadSuback]
  cases b.load (wsub ret 1) <;> simp

/-- UNSUBACK is read as SUBACK is. -/
theorem mqttReadUnsuback_eq (b : Block UInt8 len) (ret : Nat) :
    mqttReadUnsuback b ret = mqttReadSuback b ret := rfl

/-- The dispatch stays inside the buffer exactly when the reader it picks does. -/
theorem mqttDispatch_isSome_iff {b : Block UInt8 len} {ret : Nat} (h5 : 5 ≤ len)
    (hlen : len < 2 ^ 31) (hret : ret ≤ len) :
    (mqttDispatch b ret).isSome ↔ ReadInBounds b.cells ret := by
  have hsome : (b.load 0).isSome := Block.load_isSome.mpr (by omega)
  obtain ⟨c, hc⟩ := Option.isSome_iff_exists.mp hsome
  have hcell : b.cells[0]? = some c := hc
  simp only [mqttDispatch, ReadInBounds, hc, hcell, Option.bind_eq_bind, Option.bind_some,
    Option.some.injEq, forall_eq']
  by_cases ht : packetType c = typeConnack
  · simp [ht, mqttReadConnack_isSome h5, typeConnack, typePublish, typeSuback, typeUnsuback]
  · rw [if_neg ht]
    by_cases ht : packetType c = typePublish
    · simp [ht, mqttReadPublish_isSome hlen hret, typePublish, typeSuback, typeUnsuback]
    · rw [if_neg ht]
      by_cases ht : packetType c = typeSuback
      · simp [ht, mqttReadSuback_isSome hlen hret, typePublish, typeSuback]
      · rw [if_neg ht]
        by_cases ht : packetType c = typeUnsuback
        · simp [ht, mqttReadUnsuback_eq, mqttReadSuback_isSome hlen hret, typePublish,
            typeUnsuback]
        · rw [if_neg ht]
          split <;> simp_all [mqttReadPingresp]

/-- **A read stays inside its buffer exactly when** the header fields in the
buffer let it: every access of the reader and of the readers it dispatches
to is in `[0, len)`, and its loops end, if and only if a PUBLISH announces
at most the bytes received and a SUBACK or UNSUBACK is not empty. -/
theorem mqttReadPacket_isSome_iff (b : Block UInt8 len) (bytes : List UInt8)
    (fits : bytes.length ≤ len) (h5 : 5 ≤ len) (hlen : len < 2 ^ 31) :
    (mqttReadPacket b (.data bytes fits)).isSome ↔
      ReadInBounds (bytes ++ b.cells.drop bytes.length) bytes.length := by
  have hret : ¬ (Recv.data bytes fits).ret < 0 := by
    simp [Recv.ret]
  rw [mqttReadPacket, if_neg hret]
  exact mqttDispatch_isSome_iff h5 hlen fits

/-- A PUBLISH in a buffer that holds an old one. -/
theorem mqttReadPacket_isSome_iff_publish :
    (mqttReadPacket (Block.replicate 12 0x31)
      (.data [0x30, 0x06, 0x00, 0x01, 0x74, 0x00, 0x48, 0x69] (by decide))).isSome ↔
      ReadInBounds [0x30, 0x06, 0x00, 0x01, 0x74, 0x00, 0x48, 0x69, 0x31, 0x31, 0x31, 0x31] 8 :=
  mqttReadPacket_isSome_iff (Block.replicate 12 0x31)
    [0x30, 0x06, 0x00, 0x01, 0x74, 0x00, 0x48, 0x69] (by decide) (by decide) (by decide)

/-- Four received bytes are enough to leave a buffer of 2048: a PUBLISH that
announces a topic of 65535 bytes. -/
theorem mqttReadPacket_long_topic :
    (mqttReadPacket (Block.replicate 2048 0)
      (.data [0x30, 0x02, 0xFF, 0xFF] (by decide))).isSome = false := by
  decide +kernel

end NucleoMqtt.Mqtt
