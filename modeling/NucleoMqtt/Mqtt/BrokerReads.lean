import NucleoMqtt.Mqtt.Verdict
import NucleoMqtt.Spec.Broker

/-!
# Mqtt — what a read makes of a broker's packet

`answer` is the value and the message the client gets out of one packet of
the broker that arrives whole and alone. It does not mention the buffer:
every packet is self-contained, so `verdict_encode` holds over any.
-/

namespace NucleoMqtt.Mqtt

open NucleoMqtt.Lib NucleoMqtt.Spec

/-- What the client gets out of a whole packet. An acknowledgement is
accepted by its last Reason Code, a CONNACK by its fourth byte. -/
def answer (p : BrokerPacket) : Int × Option (List UInt8) :=
  match p with
  | .connack .. => (accept (p.encode[3]?.getD 0) p.encode.length, none)
  | .publish q => (p.encode.length, some (cString q.payload))
  | .suback _ _ reasons => (accept (reasons.getLastD 0) p.encode.length, none)
  | .unsuback _ _ reasons => (accept (reasons.getLastD 0) p.encode.length, none)
  | .pingresp => (p.encode.length, none)
  | .other .. => (-1, none)

theorem packetType_publish {p : Publish} (h : p.WellFormed) :
    packetType p.header = typePublish := by
  have hnibble := (Publish.header_fields h.qos_le).1
  apply UInt8.toNat_inj.mp
  rw [packetType, byte_and_240, hnibble]
  rfl

/-- A nibble that no reader knows. -/
theorem packetType_other {c : UInt8} (h : c.toNat / 16 ∉ [2, 3, 9, 11, 13]) :
    ¬ KnownType (packetType c) := by
  have hval (t : UInt8) : packetType c = t → c.toNat / 16 * 16 = t.toNat := by
    intro ht
    rw [← ht, packetType, byte_and_240]
  have := c.toNat_lt
  rintro (ht | ht | ht | ht | ht) <;> have := hval _ ht <;>
    simp [typeConnack, typePublish, typeSuback, typeUnsuback, typePingresp] at h this <;>
    omega

/-- The payload of a PUBLISH within the client's limits starts where the
reader looks for it. -/
theorem payloadOffset_publish {p : Publish} (h : p.WellFormed) (hq : p.qos = 0)
    (ht : p.topic.length ≤ 255) (hp : p.properties.length ≤ 127) :
    ∃ off, payloadOffset p.encode = some off ∧ off ≤ p.encode.length ∧
      p.encode.drop off = p.payload := by
  have hk : p.topic.length - 128 * (p.topic.length / 256) = p.topic.length := by omega
  have hblock : block p.properties = UInt8.ofNat p.properties.length :: p.properties := by
    rw [block, VarInt.encode_small (by omega)]
    rfl
  have hbody := BrokerPacket.body_publish h hq
  rw [hblock] at hbody
  have hsplit : p.encode = (p.header :: VarInt.encode p.body.length) ++
      (be16 p.topic.length ++ (p.topic ++
        (UInt8.ofNat p.properties.length :: p.properties ++ p.payload))) := by
    rw [Publish.encode, frame, hbody]
    rfl
  have hcell : (p.topic ++ (UInt8.ofNat p.properties.length :: p.properties ++ p.payload))[
      p.topic.length - 128 * (p.topic.length / 256)]?
        = some (UInt8.ofNat p.properties.length) := by
    rw [hk]
    simp
  have hbyte : (UInt8.ofNat p.properties.length).toNat = p.properties.length := by
    rw [toNat_byte]
    omega
  have hfront : p.encode = (p.header :: VarInt.encode p.body.length ++
      (be16 p.topic.length ++ (p.topic ++
        (UInt8.ofNat p.properties.length :: p.properties)))) ++ p.payload := by
    rw [hsplit]
    simp
  have hoff := payloadOffset_frame p.header p.body.length (by omega) hcell
  rw [← hsplit, hk, hbyte] at hoff
  refine ⟨_, hoff, ?_, ?_⟩
  · rw [hfront]
    simp
    omega
  · rw [hfront]
    exact List.drop_left' (by simp; omega)

/-- An acknowledgement is judged by its last Reason Code. -/
theorem judge_ack {header : UInt8} {packetId : Nat} {properties reasons : List UInt8}
    (ht : packetType header = typeSuback ∨ packetType header = typeUnsuback)
    (hne : reasons ≠ []) :
    judge (frame header (BrokerPacket.ackBody packetId properties reasons))
      = some (accept (reasons.getLastD 0)
          (frame header (BrokerPacket.ackBody packetId properties reasons)).length, none) := by
  have hhead : (frame header (BrokerPacket.ackBody packetId properties reasons))[0]?
      = some header := rfl
  have hlast := BrokerPacket.getLast?_frame_ackBody header packetId properties hne
  rw [List.getLast?_eq_getElem?] at hlast
  have h1 : ¬ packetType header = typeConnack := by
    rcases ht with ht | ht <;> rw [ht] <;> decide
  have h2 : ¬ packetType header = typePublish := by
    rcases ht with ht | ht <;> rw [ht] <;> decide
  simp only [judge, hhead, hlast, Option.bind_eq_bind, Option.bind_some]
  rw [if_neg h1, if_neg h2, if_pos ht, List.getLastD_eq_getLast?,
    List.getLast?_eq_some_getLast hne]
  rfl

/-- A CONNACK has the byte its reader looks at. -/
theorem connack_fourth (sessionPresent : Bool) (reason : UInt8) (properties : List UInt8) :
    (BrokerPacket.connack sessionPresent reason properties).encode[3]?
      = some ((BrokerPacket.connack sessionPresent reason properties).encode[3]?.getD 0) := by
  have hlen : 3 < (BrokerPacket.connack sessionPresent reason properties).encode.length := by
    have hsize := VarInt.size_pos
      (BrokerPacket.connack sessionPresent reason properties).body.length
    have hbody : 2 ≤ (BrokerPacket.connack sessionPresent reason properties).body.length := by
      simp [BrokerPacket.body]
    rw [BrokerPacket.encode, length_frame]
    omega
  rw [List.getElem?_eq_getElem hlen]
  rfl

/-- **The readers judge a whole packet by itself.** -/
theorem judge_encode {p : BrokerPacket} (h : p.WellFormed) : judge p.encode = some (answer p) := by
  have hhead := p.encode_head
  cases p with
  | connack sessionPresent reason properties =>
      have ht : packetType 0x20 = typeConnack := by decide
      simp only [judge, hhead, Option.bind_eq_bind, Option.bind_some, BrokerPacket.header]
      rw [if_pos ht, answer, connack_fourth]
      rfl
  | publish q =>
      obtain ⟨hq, hqos, htopic, hprops⟩ := h
      have ht := packetType_publish hq
      have hne : ¬ packetType q.header = typeConnack := by
        rw [ht]
        decide
      obtain ⟨off, hoff, hle, hdrop⟩ := payloadOffset_publish hq hqos htopic hprops
      simp only [judge, hhead, Option.bind_eq_bind, Option.bind_some, BrokerPacket.header]
      show (if packetType q.header = typeConnack then _ else _) = _
      rw [if_neg hne, if_pos ht]
      show (payloadOffset q.encode).bind _ = _
      rw [hoff, Option.bind_some]
      show (if off ≤ q.encode.length then some ((q.encode.length : Int),
        some (cString (q.encode.drop off))) else none) = _
      rw [if_pos hle, hdrop]
      rfl
  | suback packetId properties reasons =>
      have ht : packetType 0x90 = typeSuback := by decide
      exact judge_ack (Or.inl ht) h.2.2
  | unsuback packetId properties reasons =>
      have ht : packetType 0xB0 = typeUnsuback := by decide
      exact judge_ack (Or.inr ht) h.2.2
  | pingresp => rfl
  | other header body =>
      have ht := packetType_other h
      simp only [KnownType, not_or] at ht
      simp only [judge, hhead, Option.bind_eq_bind, Option.bind_some, BrokerPacket.header]
      rw [if_neg ht.1, if_neg ht.2.1, if_neg (not_or.mpr ⟨ht.2.2.1, ht.2.2.2.1⟩),
        if_neg ht.2.2.2.2]
      rfl

/-- **One whole packet gives one verdict**, whatever was in the buffer. -/
theorem verdict_encode {len : Nat} (hlen : len < 2 ^ 31) {p : BrokerPacket} (h : p.WellFormed)
    (b : Block UInt8 len) (fits : p.encode.length ≤ len) :
    verdict b (.data p.encode fits) = some (answer p) :=
  verdict_of_judge hlen (judge_encode h) b fits

end NucleoMqtt.Mqtt
