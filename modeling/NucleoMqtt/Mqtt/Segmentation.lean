import NucleoMqtt.Mqtt.BrokerReads

/-!
# Mqtt — packets and reads

TCP and TLS hand over a byte stream in pieces of their own choosing, and
the client takes one piece for one packet: it keeps nothing from one read
to the next. `readAll` is a run of reads over one buffer. Over the pieces
that are the packets themselves it gives the packets' answers, and with
packets the client accepts no other cutting of the stream does.
-/

namespace NucleoMqtt.Mqtt

open NucleoMqtt.Lib NucleoMqtt.Spec

variable {len : Nat}

/-- What the transport delivers in one read. -/
structure Chunk (len : Nat) where
  bytes : List UInt8
  nonempty : bytes ≠ []
  fits : bytes.length ≤ len
deriving DecidableEq

def Chunk.recv (c : Chunk len) : Recv len := .data c.bytes c.fits

/-- A well-formed packet that fits in the buffer. -/
structure SentPacket (len : Nat) where
  packet : BrokerPacket
  wellFormed : packet.WellFormed
  fits : packet.encode.length ≤ len

/-- The packet in a read of its own. -/
def SentPacket.alone (p : SentPacket len) : Chunk len :=
  ⟨p.packet.encode, p.packet.encode_ne_nil, p.fits⟩

/-- What the client is to see of a packet: its type and the answer to it. -/
def SentPacket.seen (p : SentPacket len) : Option UInt8 × Int × Option (List UInt8) :=
  (some (packetType p.packet.header), answer p.packet)

/-- Packet type, value returned and message of each read in a row. -/
def readAll : Block UInt8 len → List (Chunk len) →
    Option (List (Option UInt8 × Int × Option (List UInt8)))
  | _, [] => some []
  | b, c :: cs => do
      let (_, b') ← mqttReadPacket b c.recv
      let v ← verdict b c.recv
      let rest ← readAll b' cs
      return (frontType (c.recv.into b), v) :: rest

/-- A Reason Code lets the byte count through or stops it. -/
theorem reasonCode_value {c : Option UInt8} {ret : Nat} {v : Int}
    (h : (c.bind fun c => some (if c = 0 then (ret : Int) else -1)) = some v) (hv : 0 ≤ v) :
    v = ret := by
  obtain ⟨c, -, h⟩ := Option.bind_eq_some_iff.mp h
  split at h
  · cases h
    rfl
  · cases h
    exact absurd hv (by decide)

/-- A value that is not negative is the number of bytes received. -/
theorem mqttReadPacket_value (hlen : len < 2 ^ 31) {b b' : Block UInt8 len}
    {bytes : List UInt8} {fits : bytes.length ≤ len} {v : Int}
    (h : mqttReadPacket b (.data bytes fits) = some (v, b')) (hv : 0 ≤ v) :
    v = bytes.length := by
  rw [mqttReadPacket_data, mqttDispatch] at h
  obtain ⟨c, -, h⟩ := Option.bind_eq_some_iff.mp h
  dsimp only at h
  split at h
  · obtain ⟨w, hw, h⟩ := Option.map_eq_some_iff.mp h
    cases h
    exact reasonCode_value hw hv
  · split at h
    · rw [mqttReadPublish_eq_bind _ _ fun n hw => by have := width_lt _ hw; omega] at h
      obtain ⟨off, -, h⟩ := Option.bind_eq_some_iff.mp h
      obtain ⟨moved, -, h⟩ := Option.bind_eq_some_iff.mp h
      obtain ⟨closed, -, h⟩ := Option.map_eq_some_iff.mp h
      cases h
      rfl
    · split at h
      · obtain ⟨w, hw, h⟩ := Option.map_eq_some_iff.mp h
        cases h
        exact reasonCode_value hw hv
      · split at h
        · obtain ⟨w, hw, h⟩ := Option.map_eq_some_iff.mp h
          cases h
          exact reasonCode_value hw hv
        · split at h
          · cases h
            rfl
          · cases h
            exact absurd hv (by decide)

/-- A verdict is given by a read. -/
theorem verdict_fst {b : Block UInt8 len} {r : Recv len} {v : Int × Option (List UInt8)}
    (h : verdict b r = some v) : ∃ b', mqttReadPacket b r = some (v.1, b') := by
  obtain ⟨⟨w, b'⟩, hrun, hv⟩ := Option.map_eq_some_iff.mp h
  cases hv
  exact ⟨b', hrun⟩

/-- The stream's packets, each read alone. -/
theorem readAll_alone (hlen : len < 2 ^ 31) (b : Block UInt8 len)
    (packets : List (SentPacket len)) :
    readAll b (packets.map SentPacket.alone) = some (packets.map SentPacket.seen) := by
  induction packets generalizing b with
  | nil => rfl
  | cons p packets ih =>
      have hverdict : verdict b p.alone.recv = some (answer p.packet) :=
        verdict_encode hlen p.wellFormed b _
      have hfront : frontType (p.alone.recv.into b) = some (packetType p.packet.header) := by
        have hload : (p.alone.recv.into b).load 0 = some p.packet.header :=
          load_into p.packet.encode_head
        rw [frontType, hload]
        rfl
      obtain ⟨b', hrun⟩ := verdict_fst hverdict
      simp only [List.map_cons, readAll, hrun, hverdict, hfront, Option.bind_eq_bind,
        Option.bind_some, ih b', pure, SentPacket.seen]

/-- The answer to an accepted packet is its length. -/
theorem answer_value (hlen : len < 2 ^ 31) (p : SentPacket len)
    (hacc : 0 ≤ (answer p.packet).1) : (answer p.packet).1 = p.packet.encode.length := by
  have hverdict := verdict_encode hlen p.wellFormed (Block.replicate len 0)
    p.fits
  obtain ⟨b', hrun⟩ := verdict_fst hverdict
  exact mqttReadPacket_value hlen hrun hacc

/-- In a run that sees accepted packets every read is as long as its packet. -/
theorem length_of_readAll (hlen : len < 2 ^ 31) {b : Block UInt8 len}
    {chunks : List (Chunk len)} {packets : List (SentPacket len)}
    (hacc : ∀ p ∈ packets, 0 ≤ (answer p.packet).1)
    (h : readAll b chunks = some (packets.map SentPacket.seen)) :
    chunks.map (·.bytes.length) = packets.map (·.packet.encode.length) := by
  induction chunks generalizing b packets with
  | nil =>
      cases packets with
      | nil => rfl
      | cons p packets => cases h
  | cons c chunks ih =>
      simp only [readAll, Option.bind_eq_bind, Option.bind_eq_some_iff] at h
      obtain ⟨⟨v, b'⟩, hrun, w, hverdict, rest, hrest, h⟩ := h
      cases packets with
      | nil => cases h
      | cons p packets =>
          have hp := hacc p (List.mem_cons_self ..)
          obtain ⟨hseen, hrest'⟩ := List.cons.inj (Option.some.inj h)
          have hw : w = answer p.packet := (Prod.mk.inj hseen).2
          obtain ⟨b'', hrun'⟩ := verdict_fst hverdict
          have hvalue := mqttReadPacket_value hlen hrun' (by rw [hw]; exact hp)
          rw [hw, answer_value hlen p hp] at hvalue
          have htail := ih (fun q hq => hacc q (List.mem_cons_of_mem _ hq))
            (hrest.trans (congrArg some hrest'))
          rw [List.map_cons, List.map_cons, htail]
          congr 1
          omega

/-- **One read is one packet.** Reads cut at the packet boundaries give the
same types, values and messages as the packets each in a read of its own,
from any buffer; and over packets the client accepts, no other cutting of
the same bytes does. -/
theorem readAll_eq_alone_iff (packets : List (SentPacket RECV_BUF_SIZE))
    (chunks : List (Chunk RECV_BUF_SIZE))
    (hstream : (chunks.map (·.bytes)).flatten = (packets.map (·.packet.encode)).flatten)
    (b₁ b₂ : Block UInt8 RECV_BUF_SIZE) :
    (chunks = packets.map SentPacket.alone → ∃ seen,
      readAll b₁ chunks = some seen ∧ readAll b₂ (packets.map SentPacket.alone) = some seen) ∧
    ((∀ p ∈ packets, 0 ≤ (answer p.packet).1) →
      readAll b₁ chunks = readAll b₂ (packets.map SentPacket.alone) →
      chunks = packets.map SentPacket.alone) := by
  constructor
  · rintro rfl
    exact ⟨_, readAll_alone recvBufSize_lt b₁ packets, readAll_alone recvBufSize_lt b₂ packets⟩
  · intro hacc h
    rw [readAll_alone recvBufSize_lt b₂ packets] at h
    have hlength := length_of_readAll recvBufSize_lt hacc h
    have hbytes : chunks.map (·.bytes) = packets.map (·.packet.encode) := by
      refine List.eq_iff_flatten_eq.mpr ⟨hstream, ?_⟩
      rw [List.map_map, List.map_map]
      exact hlength
    have hinj (c d : Chunk RECV_BUF_SIZE) (hcd : c.bytes = d.bytes) : c = d := by
      cases c
      cases d
      cases hcd
      rfl
    refine (List.map_inj_right hinj).mp ?_
    rw [hbytes, List.map_map]
    rfl

/-- The shortest packet of all. -/
def pingrespAlone : SentPacket RECV_BUF_SIZE := ⟨.pingresp, trivial, by decide +kernel⟩

/-- A short PUBLISH, with a property. -/
def shortPublish : Publish where
  dup := false
  qos := 0
  retain := false
  topic := [116]
  packetId := none
  properties := [0x01, 0x01]
  payload := [72, 105]

theorem shortPublish_wellFormed : shortPublish.WellFormed where
  qos_le := Nat.zero_le 2
  topic_le := by decide
  packetId_iff := Iff.intro (fun _ => rfl) (fun _ => rfl)
  packetId_le := fun i hi => by cases hi
  body_le := by decide +kernel

/-- One packet of each type that the client reads. -/
def onePacketEach : List (SentPacket RECV_BUF_SIZE) :=
  [⟨.connack true 0 [], fun h => absurd rfl h, by decide +kernel⟩,
    ⟨.suback 2 [] [0], ⟨by decide, by decide, by decide⟩, by decide +kernel⟩,
    ⟨.publish shortPublish, ⟨shortPublish_wellFormed, rfl, by decide, by decide⟩,
      by decide +kernel⟩,
    pingrespAlone,
    ⟨.unsuback 3 [] [0], ⟨by decide, by decide, by decide⟩, by decide +kernel⟩]

/-- The same bytes, with the UNSUBACK in two reads. -/
def unsubackInTwo : List (Chunk RECV_BUF_SIZE) :=
  (onePacketEach.take 4).map SentPacket.alone ++
    [⟨[0xB0, 4, 0], by decide, by decide⟩, ⟨[3, 0, 0], by decide, by decide⟩]

theorem readAll_eq_alone_iff_onePacketEach :
    (∃ seen, readAll (Block.replicate RECV_BUF_SIZE 0) (onePacketEach.map SentPacket.alone)
        = some seen ∧
      readAll (Block.replicate RECV_BUF_SIZE 1) (onePacketEach.map SentPacket.alone)
        = some seen) ∧
    readAll (Block.replicate RECV_BUF_SIZE 0) unsubackInTwo ≠
      readAll (Block.replicate RECV_BUF_SIZE 1) (onePacketEach.map SentPacket.alone) := by
  have halone := readAll_eq_alone_iff onePacketEach (onePacketEach.map SentPacket.alone)
    (by rw [List.map_map]; rfl) (Block.replicate RECV_BUF_SIZE 0)
    (Block.replicate RECV_BUF_SIZE 1)
  have hcut := readAll_eq_alone_iff onePacketEach unsubackInTwo (by decide +kernel)
    (Block.replicate RECV_BUF_SIZE 0) (Block.replicate RECV_BUF_SIZE 1)
  refine ⟨halone.1 rfl, fun h => ?_⟩
  have hlength := congrArg List.length (hcut.2 (by decide +kernel) h)
  revert hlength
  decide +kernel

/-- Two PINGRESP delivered in one read are seen as one packet of four bytes. -/
theorem readAll_depends_on_cut :
    ¬ ∀ (packets : List (SentPacket RECV_BUF_SIZE)) (chunks : List (Chunk RECV_BUF_SIZE)),
      (chunks.map (·.bytes)).flatten = (packets.map (·.packet.encode)).flatten →
      ∀ b : Block UInt8 RECV_BUF_SIZE,
        readAll b chunks = readAll b (packets.map SentPacket.alone) := by
  intro h
  have hglued := h [pingrespAlone, pingrespAlone]
    [⟨[0xD0, 0, 0xD0, 0], by decide, by decide⟩] (by decide +kernel)
    (Block.replicate RECV_BUF_SIZE 0)
  revert hglued
  decide +kernel

end NucleoMqtt.Mqtt
