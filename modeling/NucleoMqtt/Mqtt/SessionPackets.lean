import NucleoMqtt.Mqtt.WriterSpec
import NucleoMqtt.Spec.Request

/-!
# Mqtt — the packets that open a session are decodable

CONNECT, SUBSCRIBE and UNSUBSCRIBE as the writers fill them in, read by the
protocol's decoder. For each, the bytes of the block are first shown to be
the protocol's encoding of one packet value; the decoder then reads that
value back.
-/

namespace NucleoMqtt.Mqtt

open NucleoMqtt.Lib NucleoMqtt.Spec

/-! ## CONNECT -/

/-- The packet `MQTT_Write_CONNECT` means to write. -/
def connectOf (client : List UInt8) (keepAlive : Nat) : Connect :=
  { protocolName := [77, 81, 84, 84], version := 5, cleanStart := true, will := none,
    userName := none, password := none, keepAlive := keepAlive, properties := [],
    clientId := client }

theorem connectOf_body (client : List UInt8) (keepAlive : Nat) :
    (connectOf client keepAlive).body
      = [0, 4, 77, 81, 84, 84, 5, 2] ++ be16 keepAlive ++ [0] ++ be16 client.length
        ++ client := by
  simp [connectOf, Connect.body, Connect.payload, Connect.flags, str, block,
    VarInt.encode_small, be16]

theorem connectOf_length (client : List UInt8) (keepAlive : Nat) :
    (connectOf client keepAlive).body.length = client.length + 13 := by
  simp [connectOf_body]
  omega

theorem connectOf_wellFormed {client : List UInt8} {keepAlive : Nat}
    (hc : client.length ≤ 65535) (hk : keepAlive ≤ 65535) :
    (connectOf client keepAlive).WellFormed where
  name := rfl
  version := rfl
  keepAlive_le := hk
  clientId_le := hc
  will := fun w hw => by cases hw
  userName_le := fun s hs => by cases hs
  password_le := fun s hs => by cases hs
  body_le := by
    rw [connectOf_length, maxRemainingLength]
    omega

/-- The keep-alive is stored high byte first. -/
theorem keepAlive_bytes (keepAlive : Nat) :
    [UInt8.ofInt ((keepAlive : Int).tdiv 256), UInt8.ofInt ((keepAlive : Int).tmod 256)]
      = be16 keepAlive := by
  have hdiv : (keepAlive : Int).tdiv 256 = ((keepAlive / 256 : Nat) : Int) := rfl
  have hmod : (keepAlive : Int).tmod 256 = ((keepAlive % 256 : Nat) : Int) := rfl
  rw [hdiv, hmod, byte_ofInt, byte_ofInt]
  rfl

/-- **The CONNECT writer refines the protocol's encoding.** -/
theorem mqttWriteConnect_eq (client : List UInt8) (keepAlive : Nat)
    (hc : client.length ≤ 65535) :
    ∃ h, mqttWriteConnect (client ++ [0]) (client.length + 1) keepAlive = some h ∧
      h.len = h.alloc ∧ h.buf.cells = (connectOf client keepAlive).encode := by
  have hcl : wsub (client.length + 1) 1 = client.length := by
    rw [wsub_of_le (by omega) (by omega), Nat.add_sub_cancel]
  obtain ⟨p, hopen, hplen, hpi, hp⟩ :=
    openPacket_spec CONNECT_MIN_SIZE 0b00010000 (by decide)
      (show 13 + client.length = client.length + 13 by omega)
      (show client.length + 13 ≤ 268435455 by omega)
  have hpos := VarInt.size_pos (client.length + 13)
  obtain ⟨b₁, h₁, f₁⟩ := hp.store (i := 2 + p.i) (by simp; omega) (by simp; omega) 0
  obtain ⟨b₂, h₂, f₂⟩ := f₁.store (i := 3 + p.i) (by simp; omega) (by simp; omega) 4
  obtain ⟨b₃, h₃, f₃⟩ := f₂.store (i := 4 + p.i) (by simp; omega) (by simp; omega) 77
  obtain ⟨b₄, h₄, f₄⟩ := f₃.store (i := 5 + p.i) (by simp; omega) (by simp; omega) 81
  obtain ⟨b₅, h₅, f₅⟩ := f₄.store (i := 6 + p.i) (by simp; omega) (by simp; omega) 84
  obtain ⟨b₆, h₆, f₆⟩ := f₅.store (i := 7 + p.i) (by simp; omega) (by simp; omega) 84
  obtain ⟨b₇, h₇, f₇⟩ := f₆.store (i := 8 + p.i) (by simp; omega) (by simp; omega) 5
  obtain ⟨b₈, h₈, f₈⟩ := f₇.store (i := 9 + p.i) (by simp; omega) (by simp; omega) 0b00000010
  obtain ⟨b₉, h₉, f₉⟩ := f₈.store (i := 10 + p.i) (by simp; omega) (by simp; omega)
    (UInt8.ofInt ((keepAlive : Int).tdiv 256))
  obtain ⟨c₁, g₁, e₁⟩ := f₉.store (i := 11 + p.i) (by simp; omega) (by simp; omega)
    (UInt8.ofInt ((keepAlive : Int).tmod 256))
  obtain ⟨c₂, g₂, e₂⟩ := e₁.store (i := 12 + p.i) (by simp; omega) (by simp; omega) 0
  obtain ⟨c₃, g₃, e₃⟩ := e₂.store (i := 13 + p.i) (by simp; omega) (by simp; omega)
    (UInt8.ofNat (client.length / 256))
  obtain ⟨c₄, g₄, e₄⟩ := e₃.store (i := 14 + p.i) (by simp; omega) (by simp; omega)
    (UInt8.ofNat (client.length % 256))
  obtain ⟨c₅, g₅, e₅⟩ := e₄.copyIn (15 + p.i) (by simp; omega) client [0] (by simp; omega)
  refine ⟨⟨p.len, c₅, p.len⟩, ?_, rfl, ?_⟩
  · simp only [mqttWriteConnect, Option.bind_eq_bind, hcl]
    rw [hopen, Option.bind_some, h₁, Option.bind_some, h₂, Option.bind_some, h₃,
      Option.bind_some, h₄, Option.bind_some, h₅, Option.bind_some, h₆, Option.bind_some,
      h₇, Option.bind_some, h₈, Option.bind_some, h₉, Option.bind_some, g₁,
      Option.bind_some, g₂, Option.bind_some, g₃, Option.bind_some, g₄, Option.bind_some,
      g₅, Option.bind_some]
    rfl
  · rw [e₅.cells_eq (by simp; omega), Connect.encode, frame, connectOf_length,
      connectOf_body, ← keepAlive_bytes]
    simp [be16]

/-- **A CONNECT is decodable MQTT v5**: one whole packet with the protocol
name and version, Clean Start as its only flag, the caller's keep-alive, no
properties, and the client identifier as its payload. -/
theorem mqttWriteConnect_decodes (client : List UInt8) (keepAlive : Nat)
    (hc : client.length ≤ 65535) (hk : keepAlive ≤ 65535) :
    ∃ h, mqttWriteConnect (client ++ [0]) (client.length + 1) keepAlive = some h ∧
      h.len = h.alloc ∧
      (∃ body, h.buf.cells = frame 0b00010000 body) ∧
      Connect.decode h.buf.cells = some
        { protocolName := [77, 81, 84, 84], version := 5, cleanStart := true, will := none,
          userName := none, password := none, keepAlive := keepAlive, properties := [],
          clientId := client } := by
  obtain ⟨h, hrun, hlen, hcells⟩ := mqttWriteConnect_eq client keepAlive hc
  refine ⟨h, hrun, hlen, ⟨_, hcells⟩, ?_⟩
  rw [hcells]
  exact Connect.decode_encode (connectOf_wellFormed hc hk)

theorem mqttWriteConnect_decodes_short :
    ∃ h, mqttWriteConnect [105, 100, 0] 3 300 = some h ∧ h.len = h.alloc ∧
      (∃ body, h.buf.cells = frame 0b00010000 body) ∧
      Connect.decode h.buf.cells = some
        { protocolName := [77, 81, 84, 84], version := 5, cleanStart := true, will := none,
          userName := none, password := none, keepAlive := 300, properties := [],
          clientId := [105, 100] } :=
  mqttWriteConnect_decodes [105, 100] 300 (by decide) (by decide)

/-! ## SUBSCRIBE and UNSUBSCRIBE -/

/-- Any two bytes are a Packet Identifier. -/
theorem packetIdBytes_eq (packetIdentifier : Int) :
    ∃ i, i ≤ 65535 ∧ packetIdBytes packetIdentifier = be16 i := by
  have hhi := (UInt8.ofInt (packetIdentifier.tdiv 128)).toNat_lt
  have hlo := (UInt8.ofInt (packetIdentifier.tmod 128)).toNat_lt
  refine ⟨256 * (UInt8.ofInt (packetIdentifier.tdiv 128)).toNat
    + (UInt8.ofInt (packetIdentifier.tmod 128)).toNat, by omega, ?_⟩
  rw [be16, Nat.mul_add_div (by decide), Nat.div_eq_of_lt hlo, Nat.mul_add_mod,
    Nat.mod_eq_of_lt hlo, Nat.add_zero, UInt8.ofNat_toNat, UInt8.ofNat_toNat]
  rfl

/-- A request for one topic, with some identifier and no properties. -/
def requestOf {α : Type} (packetId : Nat) (item : α) : Request α :=
  { packetId := packetId, properties := [], filters := [item] }

theorem requestOf_body {α : Type} (enc : α → List UInt8) (packetId : Nat) (item : α) :
    (requestOf packetId item).body enc = be16 packetId ++ [0] ++ enc item := by
  simp [requestOf, Request.body, block, VarInt.encode_small]

theorem requestOf_wellFormed {α : Type} {enc : α → List UInt8} {packetId : Nat} {item : α}
    (hid : packetId ≤ 65535) (hlen : (enc item).length ≤ 65538) :
    (requestOf packetId item).WellFormed enc where
  packetId_le := hid
  filters_ne := List.cons_ne_nil _ _
  body_le := by
    rw [requestOf_body, maxRemainingLength, List.length_append, List.length_append,
      length_be16, List.length_singleton]
    omega

/-- **SUBSCRIBE and UNSUBSCRIBE are decodable MQTT v5**: each is one whole
packet with reserved flags 0010, some Packet Identifier, no properties and
exactly the caller's topic as its filter, in SUBSCRIBE with options 0. -/
theorem mqttWriteFilters_decode (counter : Int) (topic : List UInt8)
    (ht : topic.length ≤ 65535) :
    (∃ h i, mqttWriteSubscribe counter (topic ++ [0]) (topic.length + 1)
        = some (h, mqttGeneratePacketId counter) ∧ h.len = h.alloc ∧
      (∃ body, h.buf.cells = frame 0b10000010 body) ∧ i ≤ 65535 ∧
      Subscribe.decode h.buf.cells = some
        { packetId := i, properties := [], filters := [(topic, 0)] }) ∧
    (∃ h i, mqttWriteUnsubscribe counter (topic ++ [0]) (topic.length + 1)
        = some (h, mqttGeneratePacketId counter) ∧ h.len = h.alloc ∧
      (∃ body, h.buf.cells = frame 0b10100010 body) ∧ i ≤ 65535 ∧
      Unsubscribe.decode h.buf.cells = some
        { packetId := i, properties := [], filters := [topic] }) := by
  have htopic : topic.length < 2 ^ 16 := by omega
  have hoptions : (0 : UInt8).toNat % 4 ≤ 2 ∧ (0 : UInt8).toNat / 16 ≤ 2 := by decide
  obtain ⟨i, hi, hid⟩ := packetIdBytes_eq (mqttGeneratePacketId counter)
  refine ⟨?_, ?_⟩
  · obtain ⟨h, hrun, hlen, hcells⟩ := writeFilterPacket_eq SUBSCRIBE_MIN_SIZE 0b10000010
      [0b00000000] topic (mqttGeneratePacketId counter) rfl
      (show topic.length + 1 + 5 ≤ 268435455 by omega)
    have hbody : filterBody (mqttGeneratePacketId counter) topic [0]
        = (requestOf i (topic, (0 : UInt8))).body encodeSubscription := by
      rw [requestOf_body, filterBody, hid, encodeSubscription, List.append_assoc]
    refine ⟨h, i, ?_, hlen, ⟨_, hcells⟩, hi, ?_⟩
    · rw [mqttWriteSubscribe, hrun]
      rfl
    · rw [hcells, hbody]
      refine Request.decode_frame (requestOf_wellFormed hi ?_) ?_ ?_
      · simp [encodeSubscription]
        omega
      · intro s hs rest
        rw [requestOf, List.mem_singleton] at hs
        rw [hs]
        exact readSubscription_encode htopic hoptions rest
      · intro s
        simp [encodeSubscription]
  · obtain ⟨h, hrun, hlen, hcells⟩ := writeFilterPacket_eq UNSUBSCRIBE_MIN_SIZE 0b10100010
      [] topic (mqttGeneratePacketId counter) rfl
      (show topic.length + 0 + 5 ≤ 268435455 by omega)
    have hbody : filterBody (mqttGeneratePacketId counter) topic []
        = (requestOf i topic).body str := by
      rw [requestOf_body, filterBody, hid, List.append_nil]
    refine ⟨h, i, ?_, hlen, ⟨_, hcells⟩, hi, ?_⟩
    · rw [mqttWriteUnsubscribe, hrun]
      rfl
    · rw [hcells, hbody]
      refine Request.decode_frame (requestOf_wellFormed hi ?_) ?_ ?_
      · simp
        omega
      · intro s hs rest
        rw [requestOf, List.mem_singleton] at hs
        rw [hs]
        exact readStr_str htopic rest
      · intro s
        simp [str, be16]

theorem mqttWriteFilters_decode_first :
    (∃ h i, mqttWriteSubscribe 0 [97, 0] 2 = some (h, 1) ∧ h.len = h.alloc ∧
      (∃ body, h.buf.cells = frame 0b10000010 body) ∧ i ≤ 65535 ∧
      Subscribe.decode h.buf.cells = some
        { packetId := i, properties := [], filters := [([97], 0)] }) ∧
    (∃ h i, mqttWriteUnsubscribe 0 [97, 0] 2 = some (h, 1) ∧ h.len = h.alloc ∧
      (∃ body, h.buf.cells = frame 0b10100010 body) ∧ i ≤ 65535 ∧
      Unsubscribe.decode h.buf.cells = some
        { packetId := i, properties := [], filters := [[97]] }) :=
  mqttWriteFilters_decode 0 [97] (by decide)

end NucleoMqtt.Mqtt
