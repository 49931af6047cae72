import NucleoMqtt.Mqtt.Writer
import NucleoMqtt.Spec.Packet

/-!
# Mqtt — what the writers put on the wire

One lemma for each piece of a writer. The sizing loop counts the groups of
the Remaining Length, the writing loop emits its encoding, and
`openPacket_spec` puts the two together: the packet is allocated with
exactly the bytes the body still needs behind the header.
-/

namespace NucleoMqtt.Mqtt

open NucleoMqtt.Lib NucleoMqtt.Spec

/-- The sizing loop, entered with `n` groups known to be too few. -/
theorem remLenBytes_eq {x n : Nat} (hn : n < VarInt.size x)
    (hx : x ≤ maxRemainingLength) : remLenBytes x n = some (VarInt.size x) := by
  have h4 : VarInt.size x ≤ 4 := size_le_four hx
  induction hm : 4 - n generalizing n with
  | zero => omega
  | succ m ih =>
      have hpow : 128 ^ (n + 1) < 2 ^ 32 := by
        calc 128 ^ (n + 1) ≤ 128 ^ 4 := Nat.pow_le_pow_right (by decide) (by omega)
          _ < 2 ^ 32 := by decide
      have hle := @VarInt.size_le_iff x n
      rw [remLenBytes, dif_pos hpow]
      split
      · rename_i hpos
        refine ih ?_ (by omega)
        rcases Nat.lt_or_ge (n + 1) (VarInt.size x) with h | h
        · exact h
        · rw [Nat.div_eq_of_lt (hle.mp h)] at hpos
          omega
      · rename_i hzero
        have : x < 128 ^ (n + 1) := by
          rcases Nat.lt_or_ge x (128 ^ (n + 1)) with h | h
          · exact h
          · have := Nat.div_pos h (Nat.pow_pos (by decide))
            omega
        have := hle.mpr this
        congr 1
        omega

/-- The writing loop appends the shortest encoding. -/
theorem writeRemLen_eq {len : Nat} {b : Block UInt8 len} {done : List UInt8} {v i : Nat}
    (hb : b.Filled done) (hi : done.length = 1 + i)
    (hfit : done.length + VarInt.size v ≤ len) :
    ∃ b', writeRemLen b v i = some (b', i + VarInt.size v - 1) ∧
      b'.Filled (done ++ VarInt.encode v) := by
  induction v using Nat.strongRecOn generalizing b done i with
  | ind v ih =>
      have hpos := VarInt.size_pos v
      obtain ⟨b₁, hstore, hb₁⟩ :=
        hb.store hi.symm (by omega) (UInt8.ofNat (v % 128))
      rw [writeRemLen, hstore, Option.bind_some]
      rcases Nat.lt_or_ge v 128 with hv | hv
      · rw [dif_neg (by omega), VarInt.size_small hv, VarInt.encode_small hv]
        rw [Nat.mod_eq_of_lt hv] at hb₁
        exact ⟨b₁, by simp, hb₁⟩
      · rw [VarInt.size_big hv] at hfit ⊢
        obtain ⟨b₂, hor, hb₂⟩ :=
          hb₁.restore hi.symm (UInt8.ofNat (v % 128) ||| 128)
        rw [byte_or_128 (Nat.mod_lt v (by decide))] at hb₂
        have hlen : (done ++ [UInt8.ofNat (v % 128 + 128)]).length = 1 + (i + 1) := by
          simp only [List.length_append, List.length_singleton]
          omega
        obtain ⟨b₃, hrest, hb₃⟩ := ih (v / 128) (by omega) hb₂ hlen (by omega)
        refine ⟨b₃, ?_, ?_⟩
        · rw [dif_pos (by omega), ← hi, hb₁.load_last, Option.bind_some, hi, hor,
            Option.bind_some, hrest]
          congr 2
          have := VarInt.size_pos (v / 128)
          omega
        · rwa [VarInt.encode_big hv, ← List.singleton_append, ← List.append_assoc]

/-- **The opening is sound**: header byte and Remaining Length are written,
and the block has room for exactly the `rem` bytes still to come. -/
theorem openPacket_spec (minSize : Nat) {extra rem : Nat} (header : UInt8)
    (hmin : FIXED_HEADER_MIN_SIZE ≤ minSize)
    (hrem : minSize - FIXED_HEADER_MIN_SIZE + extra = rem)
    (hmax : rem ≤ maxRemainingLength) :
    ∃ p, openPacket minSize header extra = some p ∧ p.len = 1 + VarInt.size rem + rem ∧
      p.i = VarInt.size rem - 1 ∧ p.block.Filled (header :: VarInt.encode rem) := by
  have h4 : VarInt.size rem ≤ 4 := size_le_four hmax
  have hpos := VarInt.size_pos rem
  simp only [FIXED_HEADER_MIN_SIZE, maxRemainingLength] at *
  have hsum : wadd (minSize - 2) extra = rem := by
    rw [wadd_of_lt (by omega), hrem]
  have hlen : wadd (wadd minSize (wsub (VarInt.size rem) 1)) extra
      = 1 + VarInt.size rem + rem := by
    rw [wsub_of_le (by omega) hpos, wadd_of_lt (show minSize + _ < _ by omega),
      wadd_of_lt (by omega)]
    omega
  have hbody : wsub (wsub (1 + VarInt.size rem + rem) 2) (wsub (VarInt.size rem) 1) = rem := by
    rw [wsub_of_le (show VarInt.size rem < _ by omega) hpos, wsub_wsub,
      wsub_of_le (by omega) (by omega)]
    omega
  rw [openPacket, FIXED_HEADER_MIN_SIZE, hsum, remLenBytes_eq hpos hmax,
    Option.bind_eq_bind, Option.bind_some]
  simp only [Option.bind_eq_bind]
  generalize wadd (wadd minSize (wsub (VarInt.size rem) 1)) extra = len at hlen ⊢
  subst hlen
  obtain ⟨b₁, hstore, hb₁⟩ :=
    (Block.filled_nil (Block.replicate (1 + VarInt.size rem + rem) (0 : UInt8))).store
      (i := 0) rfl (by rw [List.length_nil]; omega) header
  obtain ⟨b₂, hwrite, hb₂⟩ := writeRemLen_eq (v := rem) (i := 0) hb₁ rfl (by simp)
  refine ⟨⟨_, b₂, VarInt.size rem - 1⟩, ?_, rfl, rfl, by simpa using hb₂⟩
  rw [hbody, hstore, Option.bind_some, hwrite, Option.bind_some, Nat.zero_add]
  rfl

/-! ## PUBLISH -/

/-- The packet `MQTT_Write_PUBLISH` means to write. -/
def publishOf (topic msg : List UInt8) : Publish :=
  { dup := false, qos := 0, retain := false, topic := topic, packetId := none,
    properties := [], payload := msg }

theorem publishOf_body (topic msg : List UInt8) :
    (publishOf topic msg).body = be16 topic.length ++ topic ++ [0] ++ msg := by
  simp [publishOf, Publish.body, str, block, VarInt.encode_small]

theorem publishOf_length (topic msg : List UInt8) :
    (publishOf topic msg).body.length = topic.length + msg.length + 3 := by
  simp [publishOf_body]
  omega

theorem publishOf_encode (topic msg : List UInt8) :
    (publishOf topic msg).encode
      = 0b00110000 :: VarInt.encode (topic.length + msg.length + 3)
        ++ [UInt8.ofNat (topic.length / 256)] ++ [UInt8.ofNat (topic.length % 256)]
        ++ topic ++ [0] ++ msg := by
  rw [Publish.encode, frame, publishOf_length, publishOf_body]
  simp [publishOf, Publish.header, be16]

theorem publishOf_wellFormed {topic msg : List UInt8} (ht : topic.length ≤ 65535)
    (hmax : topic.length + msg.length + 3 ≤ maxRemainingLength) :
    (publishOf topic msg).WellFormed where
  qos_le := Nat.zero_le 2
  topic_le := ht
  packetId_iff := Iff.intro (fun _ => rfl) (fun _ => rfl)
  packetId_le := fun i hi => by cases hi
  body_le := by rw [publishOf_length]; exact hmax

/-- **The PUBLISH writer refines the protocol's encoding**: every store
lands in the block, the block is filled to its end, and its length is the
length passed on. -/
theorem mqttWritePublish_eq (topic msg : List UInt8)
    (hmax : topic.length + msg.length + 3 ≤ maxRemainingLength) :
    ∃ h, mqttWritePublish (topic ++ [0]) (topic.length + 1) (msg ++ [0]) (msg.length + 1)
        = some h ∧ h.len = h.alloc ∧ h.buf.cells = (publishOf topic msg).encode := by
  have hbig := hmax
  simp only [maxRemainingLength] at hbig
  have htl : wsub (topic.length + 1) 1 = topic.length := by
    rw [wsub_of_le (by omega) (by omega), Nat.add_sub_cancel]
  have hml : wsub (msg.length + 1) 1 = msg.length := by
    rw [wsub_of_le (by omega) (by omega), Nat.add_sub_cancel]
  have hsum : wadd topic.length msg.length = topic.length + msg.length :=
    wadd_of_lt (by omega)
  obtain ⟨p, hopen, hplen, hpi, hp⟩ :=
    openPacket_spec PUBLISH_MIN_SIZE 0b00110000 (by decide)
      (show 3 + (topic.length + msg.length) = topic.length + msg.length + 3 by omega) hmax
  have hpos := VarInt.size_pos (topic.length + msg.length + 3)
  obtain ⟨b₁, h₁, f₁⟩ := hp.store (i := 2 + p.i) (by simp; omega) (by simp; omega)
    (UInt8.ofNat (topic.length / 256))
  obtain ⟨b₂, h₂, f₂⟩ := f₁.store (i := 3 + p.i) (by simp; omega) (by simp; omega)
    (UInt8.ofNat (topic.length % 256))
  obtain ⟨b₃, h₃, f₃⟩ := f₂.copyIn (4 + p.i) (by simp; omega) topic [0] (by simp; omega)
  obtain ⟨b₄, h₄, f₄⟩ := f₃.store (i := 4 + p.i + topic.length) (by simp; omega)
    (by simp; omega) 0
  obtain ⟨b₅, h₅, f₅⟩ := f₄.copyIn (5 + p.i + topic.length) (by simp; omega) msg [0]
    (by simp; omega)
  refine ⟨⟨p.len, b₅, p.len⟩, ?_, rfl, ?_⟩
  · simp only [mqttWritePublish, Option.bind_eq_bind, htl, hml, hsum]
    rw [hopen, Option.bind_some, h₁, Option.bind_some, h₂, Option.bind_some, h₃,
      Option.bind_some, h₄, Option.bind_some, h₅, Option.bind_some]
    rfl
  · rw [f₅.cells_eq (by simp; omega), publishOf_encode]

/-- **A PUBLISH is decodable MQTT v5**: what is handed over is one whole
packet, of QoS 0 with no flags and no properties, whose reference decoding
is the topic and the message the caller passed. -/
theorem mqttWritePublish_decodes (topic msg : List UInt8) (ht : topic.length ≤ 65535)
    (hmax : topic.length + msg.length + 3 ≤ 268435455) :
    ∃ h, mqttWritePublish (topic ++ [0]) (topic.length + 1) (msg ++ [0]) (msg.length + 1)
        = some h ∧ h.len = h.alloc ∧
      (∃ body, h.buf.cells = frame 0b00110000 body) ∧
      Publish.decode h.buf.cells = some
        { dup := false, qos := 0, retain := false, topic := topic, packetId := none,
          properties := [], payload := msg } := by
  obtain ⟨h, hrun, hlen, hcells⟩ := mqttWritePublish_eq topic msg hmax
  refine ⟨h, hrun, hlen, ⟨_, hcells⟩, ?_⟩
  rw [hcells]
  exact Publish.decode_encode (publishOf_wellFormed ht hmax)

theorem mqttWritePublish_decodes_short :
    ∃ h, mqttWritePublish [116, 0] 2 [50, 49, 0] 3 = some h ∧ h.len = h.alloc ∧
      (∃ body, h.buf.cells = frame 0b00110000 body) ∧
      Publish.decode h.buf.cells = some
        { dup := false, qos := 0, retain := false, topic := [116], packetId := none,
          properties := [], payload := [50, 49] } :=
  mqttWritePublish_decodes [116] [50, 49] (by decide) (by decide)

/-! ## SUBSCRIBE and UNSUBSCRIBE -/

/-- The two bytes the writers make of a packet identifier. -/
def packetIdBytes (packetIdentifier : Int) : List UInt8 :=
  [UInt8.ofInt (packetIdentifier.tdiv 128), UInt8.ofInt (packetIdentifier.tmod 128)]

/-- The body of a SUBSCRIBE or UNSUBSCRIBE. -/
def filterBody (packetIdentifier : Int) (topic options : List UInt8) : List UInt8 :=
  packetIdBytes packetIdentifier ++ [0] ++ str topic ++ options

theorem filterBody_length (packetIdentifier : Int) (topic options : List UInt8) :
    (filterBody packetIdentifier topic options).length
      = topic.length + options.length + 5 := by
  simp [filterBody, packetIdBytes]
  omega

/-- The two filter writers fill their block to its end with one frame. -/
theorem writeFilterPacket_eq (minSize : Nat) (header : UInt8) (options topic : List UInt8)
    (packetIdentifier : Int) (hmin : minSize = 7 + options.length)
    (hmax : topic.length + options.length + 5 ≤ maxRemainingLength) :
    ∃ h, writeFilterPacket minSize header options (topic ++ [0]) (topic.length + 1)
        packetIdentifier = some h ∧ h.len = h.alloc ∧
      h.buf.cells = frame header (filterBody packetIdentifier topic options) := by
  have hbig := hmax
  simp only [maxRemainingLength] at hbig
  have htl : wsub (topic.length + 1) 1 = topic.length := by
    rw [wsub_of_le (by omega) (by omega), Nat.add_sub_cancel]
  obtain ⟨p, hopen, hplen, hpi, hp⟩ :=
    openPacket_spec minSize header (show 2 ≤ minSize by omega)
      (show minSize - 2 + topic.length = topic.length + options.length + 5 by omega) hmax
  have hpos := VarInt.size_pos (topic.length + options.length + 5)
  obtain ⟨b₁, h₁, f₁⟩ := hp.store (i := 2 + p.i) (by simp; omega) (by simp; omega)
    (UInt8.ofInt (packetIdentifier.tdiv 128))
  obtain ⟨b₂, h₂, f₂⟩ := f₁.store (i := 3 + p.i) (by simp; omega) (by simp; omega)
    (UInt8.ofInt (packetIdentifier.tmod 128))
  obtain ⟨b₃, h₃, f₃⟩ := f₂.store (i := 4 + p.i) (by simp; omega) (by simp; omega) 0
  obtain ⟨b₄, h₄, f₄⟩ := f₃.store (i := 5 + p.i) (by simp; omega) (by simp; omega)
    (UInt8.ofNat (topic.length / 256))
  obtain ⟨b₅, h₅, f₅⟩ := f₄.store (i := 6 + p.i) (by simp; omega) (by simp; omega)
    (UInt8.ofNat (topic.length % 256))
  obtain ⟨b₆, h₆, f₆⟩ := f₅.copyIn (7 + p.i) (by simp; omega) topic [0] (by simp; omega)
  obtain ⟨b₇, h₇, f₇⟩ := f₆.copyIn (7 + p.i + topic.length) (by simp; omega) options []
    (by simp; omega)
  rw [List.append_nil] at h₇
  refine ⟨⟨p.len, b₇, p.len⟩, ?_, rfl, ?_⟩
  · simp only [writeFilterPacket, Option.bind_eq_bind, htl]
    rw [hopen, Option.bind_some, h₁, Option.bind_some, h₂, Option.bind_some, h₃,
      Option.bind_some, h₄, Option.bind_some, h₅, Option.bind_some, h₆, Option.bind_some,
      h₇, Option.bind_some]
    rfl
  · rw [f₇.cells_eq (by simp; omega), frame, filterBody_length]
    simp [filterBody, packetIdBytes, str, be16]

end NucleoMqtt.Mqtt
