import NucleoMqtt.Spec.Wire

/-!
# Spec — PUBLISH, with a reference decoder

What an MQTT v5 receiver reads out of a PUBLISH. `decode` refuses anything
that is not exactly one such packet: a wrong type, a Remaining Length that
is not minimal or does not count the bytes after it, a field cut short,
bytes left over. `decode_encode` says that it reads back what the
protocol's own encoding of a packet says.
-/

namespace NucleoMqtt.Spec

open NucleoMqtt.Lib

/-- Go on only if `p` holds. -/
def require (p : Prop) [Decidable p] : Option Unit := if p then some () else none

@[simp] theorem require_true {p : Prop} [Decidable p] (h : p) : require p = some () :=
  if_pos h

/-! ## PUBLISH -/

structure Publish where
  dup : Bool
  qos : Nat
  retain : Bool
  topic : List UInt8
  packetId : Option Nat
  properties : List UInt8
  payload : List UInt8
deriving DecidableEq

namespace Publish

/-- Type 3, then DUP, two bits of QoS and RETAIN. -/
def header (p : Publish) : UInt8 :=
  UInt8.ofNat (48 + (if p.dup then 8 else 0) + 2 * p.qos + (if p.retain then 1 else 0))

/-- Topic name, Packet Identifier above QoS 0, properties, payload. -/
def body (p : Publish) : List UInt8 :=
  str p.topic ++ ((p.packetId.map be16).getD [] ++ (block p.properties ++ p.payload))

def encode (p : Publish) : List UInt8 := frame p.header p.body

/-- The Packet Identifier is there above QoS 0 only. -/
def readPacketId (qos : Nat) (bs : List UInt8) : Option (Option Nat × List UInt8) :=
  if qos = 0 then some (none, bs)
  else (readU16 bs).map fun (i, rest) => (some i, rest)

/-- The reference decoder. -/
def decode (bs : List UInt8) : Option Publish := do
  let (h, bs) ← unframe bs
  require (h.toNat / 16 = 3)
  let qos := h.toNat / 2 % 4
  require (qos ≤ 2)
  let (topic, bs) ← readStr bs
  let (packetId, bs) ← readPacketId qos bs
  let (properties, payload) ← readBlock bs
  return {
    dup := h.toNat / 8 % 2 = 1
    qos := qos
    retain := h.toNat % 2 = 1
    topic := topic
    packetId := packetId
    properties := properties
    payload := payload }

/-- The limits a packet of this kind obeys. -/
structure WellFormed (p : Publish) : Prop where
  qos_le : p.qos ≤ 2
  topic_le : p.topic.length ≤ 65535
  packetId_iff : p.packetId = none ↔ p.qos = 0
  packetId_le : ∀ i ∈ p.packetId, i ≤ 65535
  body_le : p.body.length ≤ maxRemainingLength

theorem header_fields {p : Publish} (hq : p.qos ≤ 2) :
    p.header.toNat / 16 = 3 ∧ p.header.toNat / 2 % 4 = p.qos ∧
      decide (p.header.toNat / 8 % 2 = 1) = p.dup ∧
      decide (p.header.toNat % 2 = 1) = p.retain := by
  obtain ⟨dup, qos, retain, topic, packetId, properties, payload⟩ := p
  cases dup <;> cases retain <;> simp only [header, toNat_byte] <;> simp at hq ⊢ <;> omega

theorem readPacketId_body {p : Publish} (h : p.WellFormed) (rest : List UInt8) :
    readPacketId p.qos ((p.packetId.map be16).getD [] ++ rest)
      = some (p.packetId, rest) := by
  cases hid : p.packetId with
  | none => simp [readPacketId, h.packetId_iff.mp hid]
  | some i =>
      have h0 : ¬ p.qos = 0 := fun hq => by
        rw [h.packetId_iff.mpr hq] at hid
        cases hid
      have hi : i < 2 ^ 16 := by
        have := h.packetId_le i hid
        omega
      simp [readPacketId, h0, readU16_be16 hi]

theorem decode_encode {p : Publish} (h : p.WellFormed) : decode p.encode = some p := by
  obtain ⟨htype, hqos, hdup, hretain⟩ := header_fields h.qos_le
  have htopic : p.topic.length < 2 ^ 16 := by
    have := h.topic_le
    omega
  have hprops : p.properties.length ≤ maxRemainingLength := by
    have := h.body_le
    simp only [body, List.length_append, length_block] at this
    omega
  have hframe : unframe p.encode = some (p.header, p.body) :=
    unframe_frame p.header h.body_le
  have hstr := readStr_str htopic ((p.packetId.map be16).getD [] ++
    (block p.properties ++ p.payload))
  rw [← body] at hstr
  simp only [decode, hframe, Option.bind_eq_bind, Option.bind_some, htype, hqos, hdup,
    hretain, require_true, h.qos_le, hstr, readPacketId_body h, readBlock_block hprops,
    pure]

end Publish

end NucleoMqtt.Spec
