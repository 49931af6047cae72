import NucleoMqtt.Spec.Packet

/-!
# Spec — the packets a broker sends

The five kinds the client reads, and one case for every other kind. The
limits of `WellFormed` are the protocol's, and for a PUBLISH also the ones
the client is made for: QoS 0, a topic whose length fits in one byte, and a
property block whose length does.
-/

namespace NucleoMqtt.Spec

open NucleoMqtt.Lib

inductive BrokerPacket where
  | connack (sessionPresent : Bool) (reason : UInt8) (properties : List UInt8)
  | publish (p : Publish)
  | suback (packetId : Nat) (properties reasons : List UInt8)
  | unsuback (packetId : Nat) (properties reasons : List UInt8)
  | pingresp
  | other (header : UInt8) (body : List UInt8)
deriving DecidableEq

/-- The property that carries a key and a value of the publisher's own. -/
def userProperty (key value : List UInt8) : List UInt8 := 0x26 :: (str key ++ str value)

/-- The property in which a broker explains a Reason Code. -/
def reasonString (s : List UInt8) : List UInt8 := 0x1F :: str s

namespace BrokerPacket

/-- Packet type and flags. -/
def header : BrokerPacket → UInt8
  | connack .. => 0x20
  | publish p => p.header
  | suback .. => 0x90
  | unsuback .. => 0xB0
  | pingresp => 0xD0
  | other header _ => header

/-- An acknowledgement: Packet Identifier, properties, Reason Codes. -/
def ackBody (packetId : Nat) (properties reasons : List UInt8) : List UInt8 :=
  be16 packetId ++ (block properties ++ reasons)

/-- Everything behind the Remaining Length. -/
def body : BrokerPacket → List UInt8
  | connack sessionPresent reason properties =>
      (if sessionPresent then 1 else 0) :: reason :: block properties
  | publish p => p.body
  | suback packetId properties reasons => ackBody packetId properties reasons
  | unsuback packetId properties reasons => ackBody packetId properties reasons
  | pingresp => []
  | other _ body => body

def encode (p : BrokerPacket) : List UInt8 := frame p.header p.body

/-- Limits of one packet. Type nibbles 2, 3, 9, 11 and 13 have a case of
their own. -/
def WellFormed : BrokerPacket → Prop
  | connack sessionPresent reason _ => reason ≠ 0 → sessionPresent = false
  | publish p =>
      p.WellFormed ∧ p.qos = 0 ∧ p.topic.length ≤ 255 ∧ p.properties.length ≤ 127
  | suback packetId _ reasons => 0 < packetId ∧ packetId ≤ 65535 ∧ reasons ≠ []
  | unsuback packetId _ reasons => 0 < packetId ∧ packetId ≤ 65535 ∧ reasons ≠ []
  | pingresp => True
  | other header _ => header.toNat / 16 ∉ [2, 3, 9, 11, 13]

theorem encode_head (p : BrokerPacket) : p.encode[0]? = some p.header := rfl

theorem encode_ne_nil (p : BrokerPacket) : p.encode ≠ [] := List.cons_ne_nil _ _

/-- An acknowledgement ends with its last Reason Code. -/
theorem getLast?_frame_ackBody (header : UInt8) (packetId : Nat) (properties : List UInt8)
    {reasons : List UInt8} (h : reasons ≠ []) :
    (frame header (ackBody packetId properties reasons)).getLast?
      = some (reasons.getLast h) := by
  rw [frame, ackBody, ← List.cons_append, ← List.append_assoc, ← List.append_assoc,
    List.getLast?_append, List.getLast?_eq_some_getLast h]
  rfl

/-- A QoS 0 PUBLISH carries no Packet Identifier. -/
theorem body_publish {p : Publish} (h : p.WellFormed) (hq : p.qos = 0) :
    p.body = be16 p.topic.length ++ (p.topic ++ (block p.properties ++ p.payload)) := by
  simp [Publish.body, str, h.packetId_iff.mpr hq]

end BrokerPacket

end NucleoMqtt.Spec
