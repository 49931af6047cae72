import NucleoMqtt.Mqtt.BrokerReads

/-!
# Mqtt — what a read leaves of a PUBLISH

The reader subtracts header byte, Remaining Length, topic and properties
from what it received and moves the rest to the front. Of the Property
Length it reads one byte. Up to 127 that byte is the length, and the rest
is the payload. From 128 on it is the first of several bytes of the length,
its value is too small, and the end of the property block stays in front of
the payload.
-/

namespace NucleoMqtt.Mqtt

open NucleoMqtt.Lib NucleoMqtt.Spec

variable {len : Nat}

/-- A read of a PUBLISH, with what lies behind the payload offset at the
front and everything else in its place. -/
theorem mqttReadPacket_publish_eq (b : Block UInt8 len) {p : Publish} (h : p.WellFormed)
    (fits : p.encode.length ≤ len) {off : Nat} (hoff : payloadOffset p.encode = some off)
    (hle : off ≤ p.encode.length) :
    ∃ b', mqttReadPacket b (.data p.encode fits) = some ((p.encode.length : Int), b') ∧
      b'.cells = p.encode.drop off ++ 0 ::
        (p.encode ++ b.cells.drop p.encode.length).drop (p.encode.length - off + 1) := by
  have hsmall : p.encode.length < 2 ^ 31 := length_frame_lt p.header h.body_le
  exact readPacket_publish b fits hsmall rfl (packetType_publish h) hoff hle

/-- **The PUBLISH reader extracts the payload in place**: the call returns
the bytes received, the buffer begins with exactly the payload and one NUL,
and every later position is as the read left it. -/
theorem mqttReadPacket_publish_in_place (b : Block UInt8 len) {p : Publish}
    (h : p.WellFormed) (hq : p.qos = 0) (ht : p.topic.length ≤ 255)
    (hp : p.properties.length ≤ 127) (fits : p.encode.length ≤ len) :
    ∃ b', mqttReadPacket b (.data p.encode fits) = some ((p.encode.length : Int), b') ∧
      b'.cells = p.payload ++ 0 ::
        (p.encode ++ b.cells.drop p.encode.length).drop (p.payload.length + 1) := by
  obtain ⟨off, hoff, hle, hdrop⟩ := payloadOffset_publish h hq ht hp
  obtain ⟨b', hrun, hcells⟩ := mqttReadPacket_publish_eq b h fits hoff hle
  have hlen : p.encode.length - off = p.payload.length := by
    rw [← hdrop, List.length_drop]
  refine ⟨b', hrun, ?_⟩
  rw [hcells, hdrop, hlen]

/-- A retained PUBLISH with a NUL in its payload. -/
def retainedPublish : Publish :=
  { dup := false, qos := 0, retain := true, topic := [116], packetId := none,
    properties := [], payload := [50, 0, 49] }

theorem retainedPublish_wellFormed : retainedPublish.WellFormed where
  qos_le := Nat.zero_le 2
  topic_le := by decide
  packetId_iff := Iff.intro (fun _ => rfl) (fun _ => rfl)
  packetId_le := fun i hi => by cases hi
  body_le := by decide +kernel

theorem mqttReadPacket_publish_in_place_retained :
    ∃ b', mqttReadPacket (Block.replicate 16 7) (.data retainedPublish.encode (by decide +kernel))
        = some ((retainedPublish.encode.length : Int), b') ∧
      b'.cells = retainedPublish.payload ++ 0 ::
        (retainedPublish.encode ++ (Block.replicate 16 7).cells.drop
          retainedPublish.encode.length).drop (retainedPublish.payload.length + 1) :=
  mqttReadPacket_publish_in_place (Block.replicate 16 7) retainedPublish_wellFormed rfl
    (by decide) (by decide) (by decide +kernel)

/-! ## Property blocks of 128 bytes and more -/

/-- The end of the property block that the reader takes for payload: it
skips the first byte of the Property Length and as many bytes as that byte
says. -/
def unskipped (p : Publish) : List UInt8 :=
  p.properties.drop (p.properties.length % 128 + 129 - VarInt.size p.properties.length)

/-- The read leaves the payload and a NUL at the start of the buffer. -/
def LeavesPayload (b : Block UInt8 len) (p : Publish) (fits : p.encode.length ≤ len) : Prop :=
  ∃ v b', mqttReadPacket b (.data p.encode fits) = some (v, b') ∧
    p.payload ++ [0] <+: b'.cells

/-- At least one byte stays in front of the payload. -/
theorem unskipped_pos {p : Publish} (hp : 128 ≤ p.properties.length) :
    0 < (unskipped p).length := by
  have hsize := VarInt.size_big hp
  have hpos := VarInt.size_pos (p.properties.length / 128)
  rw [unskipped, List.length_drop]
  omega

/-- The offset the reader computes for a long property block. -/
theorem payloadOffset_long {p : Publish} (h : p.WellFormed) (hq : p.qos = 0)
    (ht : p.topic.length ≤ 255) (hp : 128 ≤ p.properties.length) :
    ∃ off, payloadOffset p.encode = some off ∧ off ≤ p.encode.length ∧
      p.encode.drop off = unskipped p ++ p.payload := by
  have hbody := BrokerPacket.body_publish h hq
  have hmax : p.properties.length ≤ maxRemainingLength := by
    have hle := h.body_le
    rw [hbody] at hle
    simp only [List.length_append, length_block] at hle
    omega
  have h4 := size_le_four hmax
  have hk : p.topic.length - 128 * (p.topic.length / 256) = p.topic.length := by omega
  have hbyte : (UInt8.ofNat (p.properties.length % 128 + 128)).toNat
      = p.properties.length % 128 + 128 := by
    rw [toNat_byte]
    omega
  have hsplit : p.encode = (p.header :: VarInt.encode p.body.length) ++
      (be16 p.topic.length ++ (p.topic ++ (block p.properties ++ p.payload))) := by
    rw [Publish.encode, frame, hbody]
    rfl
  have hcell : (p.topic ++ (block p.properties ++ p.payload))[
      p.topic.length - 128 * (p.topic.length / 256)]?
        = some (UInt8.ofNat (p.properties.length % 128 + 128)) := by
    rw [hk, List.getElem?_append_right (Nat.le_refl _), Nat.sub_self, block,
      VarInt.encode_big hp]
    rfl
  have hoff := payloadOffset_frame p.header p.body.length (by omega) hcell
  rw [← hsplit, hk, hbyte] at hoff
  -- everything up to the end of the Property Length, then properties and payload
  have hfront : p.encode = (p.header :: VarInt.encode p.body.length ++
      (be16 p.topic.length ++ (p.topic ++ VarInt.encode p.properties.length))) ++
        (p.properties ++ p.payload) := by
    rw [hsplit, block]
    simp
  have hlen : (p.header :: VarInt.encode p.body.length ++
      (be16 p.topic.length ++ (p.topic ++ VarInt.encode p.properties.length))).length
        = 1 + VarInt.size p.body.length + 2 + p.topic.length
          + VarInt.size p.properties.length := by
    simp
    omega
  have hbehind : VarInt.size p.body.length + 3
        + (p.topic.length + 1 + (p.properties.length % 128 + 128))
      = (p.header :: VarInt.encode p.body.length ++ (be16 p.topic.length ++
          (p.topic ++ VarInt.encode p.properties.length))).length
        + (p.properties.length % 128 + 129 - VarInt.size p.properties.length) := by
    rw [hlen]
    omega
  have hinside : p.properties.length % 128 + 129 - VarInt.size p.properties.length
      ≤ p.properties.length := by
    have := unskipped_pos hp
    rw [unskipped, List.length_drop] at this
    omega
  refine ⟨_, hoff, ?_, ?_⟩
  · have hrest : p.properties.length % 128 + 129 - VarInt.size p.properties.length
        ≤ (p.properties ++ p.payload).length := by
      rw [List.length_append]
      omega
    rw [hfront, List.length_append, hbehind]
    exact Nat.add_le_add_left hrest _
  · rw [hbehind, hfront, List.drop_length_add_append, List.drop_append_of_le_length hinside,
      unskipped]

/-- With a long property block, its end and the payload are left. -/
theorem mqttReadPacket_long_properties (b : Block UInt8 len) {p : Publish}
    (h : p.WellFormed) (hq : p.qos = 0) (ht : p.topic.length ≤ 255)
    (hp : 128 ≤ p.properties.length) (fits : p.encode.length ≤ len) :
    ∃ b' rest, mqttReadPacket b (.data p.encode fits) = some ((p.encode.length : Int), b') ∧
      b'.cells = unskipped p ++ p.payload ++ 0 :: rest := by
  obtain ⟨off, hoff, hle, hdrop⟩ := payloadOffset_long h hq ht hp
  obtain ⟨b', hrun, hcells⟩ := mqttReadPacket_publish_eq b h fits hoff hle
  exact ⟨b', _, hrun, by rw [hcells, hdrop]⟩

/-- A message that survives is the beginning of what is left. -/
theorem prefix_of_leavesPayload {b : Block UInt8 len} {p : Publish} (h : p.WellFormed)
    (hq : p.qos = 0) (ht : p.topic.length ≤ 255) (hp : 128 ≤ p.properties.length)
    {fits : p.encode.length ≤ len} (hleaves : LeavesPayload b p fits) :
    p.payload ++ [0] <+: unskipped p ++ p.payload := by
  have hpos := unskipped_pos hp
  obtain ⟨b', rest, hrun, hcells⟩ := mqttReadPacket_long_properties b h hq ht hp fits
  obtain ⟨v, b'', hrun', hprefix⟩ := hleaves
  rw [hrun] at hrun'
  cases hrun'
  rw [hcells] at hprefix
  refine List.prefix_of_prefix_length_le hprefix (List.prefix_append _ _) ?_
  rw [List.length_append, List.length_append, List.length_singleton]
  omega

/-- A message of at least the length of what is left in front of it, with no
NUL in it, never survives. -/
theorem not_leavesPayload {b : Block UInt8 len} {p : Publish} (h : p.WellFormed)
    (hq : p.qos = 0) (ht : p.topic.length ≤ 255) (hp : 128 ≤ p.properties.length)
    {fits : p.encode.length ≤ len} (hnul : 0 ∉ p.payload)
    (hlong : (unskipped p).length ≤ p.payload.length) : ¬ LeavesPayload b p fits := by
  intro hleaves
  -- the NUL of the message lies among the bytes of the payload moved behind it
  obtain ⟨tail, htail⟩ := prefix_of_leavesPayload h hq ht hp hleaves
  have hcell := congrArg (fun cs => cs[p.payload.length]?) htail
  rw [List.append_assoc, List.getElem?_append_right (Nat.le_refl _), Nat.sub_self,
    List.getElem?_append_right hlong] at hcell
  exact hnul (List.mem_of_getElem? hcell.symm)

/-- **With a long property block the message survives exactly when** what
the reader leaves of the block happens to look like it: followed by the
payload, it begins with the payload and a NUL. -/
theorem leavesPayload_iff (b : Block UInt8 len) {p : Publish} (h : p.WellFormed)
    (hq : p.qos = 0) (ht : p.topic.length ≤ 255) (hp : 128 ≤ p.properties.length)
    (fits : p.encode.length ≤ len) :
    LeavesPayload b p fits ↔ p.payload ++ [0] <+: unskipped p ++ p.payload := by
  constructor
  · exact prefix_of_leavesPayload h hq ht hp
  · intro hprefix
    obtain ⟨b', rest, hrun, hcells⟩ := mqttReadPacket_long_properties b h hq ht hp fits
    refine ⟨_, b', hrun, ?_⟩
    rw [hcells]
    exact hprefix.trans (List.prefix_append _ _)

/-- A message of two digits, published with one user property of 128 bytes. -/
def taggedPublish : Publish :=
  { dup := false, qos := 0, retain := false, topic := [116], packetId := none,
    properties := userProperty [107] (List.replicate 122 118), payload := [50, 48] }

theorem taggedPublish_wellFormed : taggedPublish.WellFormed where
  qos_le := Nat.zero_le 2
  topic_le := by decide
  packetId_iff := Iff.intro (fun _ => rfl) (fun _ => rfl)
  packetId_le := fun i hi => by cases hi
  body_le := by decide +kernel

theorem taggedPublish_fits : taggedPublish.encode.length ≤ 2048 := by
  decide +kernel

theorem leavesPayload_iff_tagged :
    LeavesPayload (Block.replicate 2048 0) taggedPublish taggedPublish_fits ↔
      taggedPublish.payload ++ [0] <+: unskipped taggedPublish ++ taggedPublish.payload :=
  leavesPayload_iff (Block.replicate 2048 0) taggedPublish_wellFormed rfl (by decide)
    (by decide +kernel) taggedPublish_fits

/-- The last byte of the user property stays in front of the message. -/
theorem taggedPublish_damaged :
    taggedPublish.WellFormed ∧ taggedPublish.qos = 0 ∧ taggedPublish.topic.length ≤ 255 ∧
      128 ≤ taggedPublish.properties.length ∧
      ¬ LeavesPayload (Block.replicate 2048 0) taggedPublish taggedPublish_fits := by
  have hp : 128 ≤ taggedPublish.properties.length := by decide +kernel
  refine ⟨taggedPublish_wellFormed, rfl, by decide, hp, ?_⟩
  exact not_leavesPayload taggedPublish_wellFormed rfl (by decide) hp (by decide)
    (by decide +kernel)

end NucleoMqtt.Mqtt
