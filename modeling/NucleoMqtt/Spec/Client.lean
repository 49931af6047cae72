import NucleoMqtt.Spec.Request

/-!
# Spec — the packets of a client, and the stream they make

A transport carries bytes and no packet boundaries. `readStream` is the
receiver's side of it: it takes one packet after another off the front by
their Remaining Length and decodes each by the format its header byte
names. `readStream_encode` says that a stream of well-formed packets is
read back as these packets, each exactly once and in order.
-/

namespace NucleoMqtt.Spec

open NucleoMqtt.Lib

/-- A packet a client sends at QoS 0. -/
inductive ClientPacket where
  | connect (c : Connect)
  | publish (p : Publish)
  | subscribe (r : Subscribe)
  | unsubscribe (r : Unsubscribe)
  | pingreq
  /-- a DISCONNECT with Reason Code and properties left out -/
  | disconnect
deriving DecidableEq

/-- A packet without a body. -/
theorem frame_nil (header : UInt8) : frame header [] = [header, 0] := by
  rw [frame, List.length_nil, VarInt.encode_small (by decide)]
  rfl

namespace ClientPacket

def encode : ClientPacket → List UInt8
  | connect c => c.encode
  | publish p => p.encode
  | subscribe r => frame 0x82 (r.body encodeSubscription)
  | unsubscribe r => frame 0xA2 (r.body str)
  | pingreq => frame 0xC0 []
  | disconnect => frame 0xE0 []

/-- What a packet `bs` with this header byte and body is. -/
def ofFrame (h : UInt8) (body bs : List UInt8) : Option ClientPacket :=
  if h.toNat / 16 = 3 then (Publish.decode bs).map publish
  else if h = 0x10 then (Connect.decode bs).map connect
  else if h = 0x82 then (Subscribe.decode bs).map subscribe
  else if h = 0xA2 then (Unsubscribe.decode bs).map unsubscribe
  else if h = 0xC0 then (require (body = [])).map fun _ => pingreq
  else if h = 0xE0 then (require (body = [])).map fun _ => disconnect
  else none

/-- The reference decoder of one packet. -/
def decode (bs : List UInt8) : Option ClientPacket :=
  (unframe bs).bind fun f => ofFrame f.1 f.2 bs

/-- The limits each kind of packet obeys. -/
def WellFormed : ClientPacket → Prop
  | connect c => c.WellFormed
  | publish p => p.WellFormed
  | subscribe r => r.WellFormed encodeSubscription ∧
      ∀ s ∈ r.filters, s.1.length ≤ 65535 ∧ s.2.toNat % 4 ≤ 2 ∧ s.2.toNat / 16 ≤ 2
  | unsubscribe r => r.WellFormed str ∧ ∀ s ∈ r.filters, s.length ≤ 65535
  | pingreq | disconnect => True

/-- Every packet is a frame. -/
theorem encode_frame {p : ClientPacket} (h : p.WellFormed) :
    ∃ header body, p.encode = frame header body ∧ body.length ≤ maxRemainingLength := by
  cases p with
  | connect c => exact ⟨_, _, rfl, h.body_le⟩
  | publish p => exact ⟨_, _, rfl, h.body_le⟩
  | subscribe r => exact ⟨_, _, rfl, h.1.body_le⟩
  | unsubscribe r => exact ⟨_, _, rfl, h.1.body_le⟩
  | pingreq | disconnect => exact ⟨_, [], rfl, Nat.zero_le _⟩

theorem decode_frame (header : UInt8) {body : List UInt8} (h : body.length ≤ maxRemainingLength) :
    decode (frame header body) = ofFrame header body (frame header body) := by
  rw [decode, unframe_frame header h, Option.bind_some]

theorem decode_encode {p : ClientPacket} (h : p.WellFormed) : decode p.encode = some p := by
  cases p with
  | publish p =>
      have htype := (Publish.header_fields (p := p) h.qos_le).1
      have hread := Publish.decode_encode h
      rw [Publish.encode] at hread
      rw [encode, Publish.encode, decode_frame _ h.body_le, ofFrame, if_pos htype, hread,
        Option.map_some]
  | connect c =>
      have hread := Connect.decode_encode h
      rw [Connect.encode] at hread
      rw [encode, Connect.encode, decode_frame _ h.body_le, ofFrame, if_neg (by decide),
        if_pos rfl, hread, Option.map_some]
  | subscribe r =>
      obtain ⟨hr, hfilters⟩ := h
      have hread : Subscribe.decode (frame 0x82 (r.body encodeSubscription)) = some r := by
        refine Request.decode_frame hr (fun s hs rest => ?_) (fun s => ?_)
        · obtain ⟨hlen, hoptions⟩ := hfilters s hs
          exact readSubscription_encode (Nat.lt_succ_of_le hlen) hoptions rest
        · simp [encodeSubscription]
      rw [encode, decode_frame _ hr.body_le, ofFrame, if_neg (by decide), if_neg (by decide),
        if_pos rfl, hread, Option.map_some]
  | unsubscribe r =>
      obtain ⟨hr, hfilters⟩ := h
      have hread : Unsubscribe.decode (frame 0xA2 (r.body str)) = some r := by
        refine Request.decode_frame hr (fun s hs rest => ?_) (fun s => ?_)
        · exact readStr_str (Nat.lt_succ_of_le (hfilters s hs)) rest
        · simp [str, be16]
      rw [encode, decode_frame _ hr.body_le, ofFrame, if_neg (by decide), if_neg (by decide),
        if_neg (by decide), if_pos rfl, hread, Option.map_some]
  | pingreq | disconnect =>
      rw [encode, decode_frame _ (Nat.zero_le _)]
      rfl

/-! ## Streams -/

/-- The packet at the front of a stream, and the bytes behind it. The
Remaining Length is minimal, so header and body say all of it. -/
def readFrame : List UInt8 → Option (List UInt8 × List UInt8)
  | [] => none
  | header :: bs => do
      let (n, bs) ← VarInt.decode 4 bs
      let (body, rest) ← takeBytes n bs
      return (frame header body, rest)

/-- One packet off a stream. -/
def read (bs : List UInt8) : Option (ClientPacket × List UInt8) := do
  let (packet, rest) ← readFrame bs
  let p ← decode packet
  return (p, rest)

/-- All packets of a stream that ends behind a packet. -/
def readStream (bs : List UInt8) : Option (List ClientPacket) := readAll read bs.length bs

theorem readFrame_frame (header : UInt8) {body : List UInt8}
    (h : body.length ≤ maxRemainingLength) (rest : List UInt8) :
    readFrame (frame header body ++ rest) = some (frame header body, rest) := by
  have hlen := VarInt.decode_encode (size_le_four h) (body ++ rest)
  rw [frame, List.cons_append, List.append_assoc, readFrame, hlen]
  simp only [Option.bind_eq_bind, Option.bind_some, takeBytes_append, frame, pure]

theorem read_encode {p : ClientPacket} (h : p.WellFormed) (rest : List UInt8) :
    read (p.encode ++ rest) = some (p, rest) := by
  obtain ⟨header, body, hframe, hle⟩ := encode_frame h
  have hread : readFrame (p.encode ++ rest) = some (p.encode, rest) := by
    rw [hframe]
    exact readFrame_frame header hle rest
  simp only [read, hread, decode_encode h, Option.bind_eq_bind, Option.bind_some, pure]

theorem encode_ne_nil (p : ClientPacket) : p.encode ≠ [] := by
  cases p <;> exact List.cons_ne_nil _ _

/-- **A stream of packets is read back**, packet by packet. -/
theorem readStream_encode {ps : List ClientPacket} (h : ∀ p ∈ ps, p.WellFormed) :
    readStream (ps.flatMap encode) = some ps :=
  readAll_flatMap (fun p hp => read_encode (h p hp)) encode_ne_nil
    (length_le_flatMap encode_ne_nil ps)

end ClientPacket

end NucleoMqtt.Spec
