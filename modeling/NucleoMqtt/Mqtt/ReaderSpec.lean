import NucleoMqtt.Mqtt.Reader
import NucleoMqtt.Lib.VarInt

/-!
# Mqtt — what the readers do with a buffer

The PUBLISH reader is a function of one number, the offset at which it
takes the payload to start. `payloadOffset` reads that number off the
header fields. The reader stays inside the buffer exactly when the offset
exists and does not exceed the bytes received (`mqttReadPublish_isSome`),
and then it moves what lies behind the offset to the front
(`mqttReadPublish_eq_some`). With an offset past the bytes received the message length wraps
around and the copy runs off the end of the buffer.
-/

namespace NucleoMqtt.Mqtt

open NucleoMqtt.Lib

variable {len : Nat}

/-- Where the reader takes the payload to start: behind the header byte,
the Remaining Length, the topic (whose length it computes with a factor
128), the one byte of Property Length and the properties. -/
def payloadOffset (cs : List UInt8) : Option Nat := do
  let n ← VarInt.width (cs.drop 1)
  let hi ← cs[n + 1]?
  let lo ← cs[n + 2]?
  let tLen := 128 * hi.toNat + lo.toNat
  let p ← cs[n + 3 + tLen]?
  return 4 + n + tLen + p.toNat

theorem payloadOffset_of_fields {cs : List UInt8} {n : Nat} {hi lo p : UInt8}
    (hn : VarInt.width (cs.drop 1) = some n) (hhi : cs[n + 1]? = some hi)
    (hlo : cs[n + 2]? = some lo)
    (hp : cs[n + 3 + (128 * hi.toNat + lo.toNat)]? = some p) :
    payloadOffset cs = some (4 + n + (128 * hi.toNat + lo.toNat) + p.toNat) := by
  rw [payloadOffset, hn]
  simp [hhi, hlo, hp]

/-- The offset in a packet of any header byte and Remaining Length, whose
body starts with a topic length `T`. With `T` read as `k`, the offset is
behind byte `k` of what follows the length, and further by the value of
that byte. -/
theorem payloadOffset_frame (header : UInt8) (rem : Nat) {T : Nat} (hT : T ≤ 65535)
    {text : List UInt8} {p : UInt8} (hp : text[T - 128 * (T / 256)]? = some p) :
    payloadOffset ((header :: VarInt.encode rem) ++ (be16 T ++ text))
      = some (VarInt.size rem + 3 + (T - 128 * (T / 256) + 1 + p.toNat)) := by
  have hlen : (header :: VarInt.encode rem).length = VarInt.size rem + 1 := by simp
  have hcell (i : Nat) : ((header :: VarInt.encode rem) ++ (be16 T ++ text))[
      VarInt.size rem + 1 + i]? = (be16 T ++ text)[i]? := by
    rw [← hlen, List.getElem?_append_right (Nat.le_add_right _ _), Nat.add_sub_cancel_left]
  have hk : 128 * (UInt8.ofNat (T / 256)).toNat + (UInt8.ofNat (T % 256)).toNat
      = T - 128 * (T / 256) := by
    rw [toNat_byte, toNat_byte]
    omega
  have hprop : ((header :: VarInt.encode rem) ++ (be16 T ++ text))[
      VarInt.size rem + 3 + (T - 128 * (T / 256))]? = some p := by
    rw [Nat.add_assoc, show ∀ k, 3 + k = 1 + (2 + k) by omega, ← Nat.add_assoc, hcell,
      List.getElem?_append_right (by simp), length_be16, Nat.add_sub_cancel_left, hp]
  rw [← hk] at hprop
  rw [payloadOffset_of_fields (VarInt.width_encode _ _) (hcell 0) (hcell 1) hprop, hk]
  congr 1
  omega

/-- The scan stops at the end of the variable byte integer. -/
theorem remLenScan_eq (b : Block UInt8 len) (n : Nat) :
    remLenScan b n = (VarInt.width (b.cells.drop (n + 1))).map (n + ·) := by
  induction hm : len - n using Nat.strongRecOn generalizing n with
  | ind m ih =>
      rw [remLenScan]
      rcases Nat.lt_or_ge (n + 1) len with hlt | hge
      · have hcell : n + 1 < b.cells.length := by simpa using hlt
        have hload : b.load (n + 1) = some b.cells[n + 1] := by
          simp [Block.load]
        split
        · rename_i h
          rw [hload] at h
          cases h
        · rename_i c h
          rw [hload] at h
          cases h
          rw [List.drop_eq_getElem_cons hcell, VarInt.width]
          rcases Nat.lt_or_ge b.cells[n + 1].toNat 128 with hb | hb
          · rw [if_neg (by rw [byte_and_128]; omega), if_pos hb]
            rfl
          · rw [if_pos ((byte_and_128 _).mpr hb), if_neg (by omega),
              ih (len - (n + 1)) (by omega) (n + 1) rfl, Option.map_map]
            congr 1
            funext k
            show n + 1 + k = n + (k + 1)
            omega
      · have hload : b.load (n + 1) = none := Block.load_eq_none hge
        have hdrop : b.cells.drop (n + 1) = [] :=
          List.drop_eq_nil_of_le (by simpa using hge)
        split
        · rw [hdrop]
          rfl
        · rename_i c h
          rw [hload] at h
          cases h

theorem payloadOffset_pos {cs : List UInt8} {off : Nat} (h : payloadOffset cs = some off) :
    5 ≤ off := by
  simp only [payloadOffset, Option.bind_eq_bind, Option.bind_eq_some_iff] at h
  obtain ⟨n, hn, hi, -, lo, -, p, -, h⟩ := h
  have := VarInt.width_pos hn
  cases h
  omega

/-- The offset lies behind the Remaining Length. -/
theorem payloadOffset_width {cs : List UInt8} {off n : Nat} (h : payloadOffset cs = some off)
    (hw : VarInt.width (cs.drop 1) = some n) : 4 + n ≤ off := by
  simp only [payloadOffset, hw, Option.bind_eq_bind, Option.bind_some,
    Option.bind_eq_some_iff] at h
  obtain ⟨hi, -, lo, -, p, -, h⟩ := h
  cases h
  omega

/-- The last two statements of the PUBLISH reader, for a payload at `off`. -/
def movePayload (b : Block UInt8 len) (ret off : Nat) : Option (Int × Block UInt8 len) :=
  (b.copyDown (fun i => wadd i (wsub ret (wsub ret off))) (wsub ret off)).bind fun b =>
    (b.store (wsub ret off) 0).map fun b => ((ret : Int), b)

/-- A variable byte integer ends within the buffer. -/
theorem width_lt (b : Block UInt8 len) {n : Nat}
    (hw : VarInt.width (b.cells.drop 1) = some n) : n < len := by
  have hle := VarInt.width_le hw
  have hpos := VarInt.width_pos hw
  rw [List.length_drop, b.length_cells] at hle
  omega

/-- The subtractions of the PUBLISH reader add up to the payload offset. -/
theorem mqttReadPublish_eq_bind (b : Block UInt8 len) (ret : Nat)
    (hsmall : ∀ n, VarInt.width (b.cells.drop 1) = some n → n < 2 ^ 31) :
    mqttReadPublish b ret = (payloadOffset b.cells).bind (movePayload b ret) := by
  have hscan : remLenScan b 0 = VarInt.width (b.cells.drop 1) := by
    rw [remLenScan_eq]
    cases VarInt.width (b.cells.drop (0 + 1)) <;> simp
  simp only [mqttReadPublish, payloadOffset, hscan, Option.bind_eq_bind, Block.load]
  cases hw : VarInt.width (b.cells.drop 1) with
  | none => rfl
  | some n =>
      have hn := hsmall n hw
      rw [Option.bind_some, Option.bind_some]
      cases hhi : b.cells[n + 1]? with
      | none => rfl
      | some hi =>
          rw [Option.bind_some, Option.bind_some]
          cases hlo : b.cells[n + 2]? with
          | none => rfl
          | some lo =>
              have hidx : wadd (wadd (n + 2) (128 * hi.toNat + lo.toNat)) 1
                  = n + 3 + (128 * hi.toNat + lo.toNat) := by
                have := hi.toNat_lt
                have := lo.toNat_lt
                rw [wadd_of_lt (show n + 2 + _ < _ by omega), wadd_of_lt (by omega)]
                omega
              rw [Option.bind_some, Option.bind_some, hidx]
              cases hp : b.cells[n + 3 + (128 * hi.toNat + lo.toNat)]? with
              | none => rfl
              | some p =>
                  rw [Option.bind_some, Option.bind_some]
                  show _ = movePayload b ret _
                  simp only [wsub_wsub, movePayload, Option.map_eq_bind]
                  rw [show 1 + n + 2 + (128 * hi.toNat + lo.toNat) + 1 + p.toNat
                    = 4 + n + (128 * hi.toNat + lo.toNat) + p.toNat from by omega]
                  rfl

/-- A payload inside the received bytes is moved to the front and closed
with a NUL; what lies behind it keeps its place. -/
theorem movePayload_eq {b : Block UInt8 len} {ret off : Nat} (hsmall : ret < 2 ^ 31)
    (hret : ret ≤ len) (hpos : 0 < off) (hoff : off ≤ ret) :
    ∃ b', movePayload b ret off = some ((ret : Int), b') ∧
      b'.cells = (b.cells.drop off).take (ret - off) ++ 0 :: b.cells.drop (ret - off + 1) := by
  have hm : wsub ret off = ret - off := wsub_of_le (by omega) hoff
  have hback : wsub ret (ret - off) = off := by
    rw [wsub_of_le (by omega) (by omega)]
    omega
  have hk : off + (ret - off) ≤ len := by omega
  have hsrc : ∀ j, j < ret - off → wadd j off = j + off :=
    fun j hj => wadd_of_lt (by omega)
  refine ⟨⟨(b.moved off (ret - off) hk).cells.set (ret - off) 0, by simp⟩, ?_, ?_⟩
  · rw [movePayload, hm, hback, Block.copyDown_eq hsrc hk, Option.bind_some,
      Block.store_of_lt (by omega)]
    rfl
  · have htake : ((b.cells.drop off).take (ret - off)).length = ret - off := by
      simp
      omega
    have hcell : ret - off < b.cells.length := by simp; omega
    simp only [Block.moved]
    rw [List.set_append_right _ _ (by omega), htake, Nat.sub_self,
      List.drop_eq_getElem_cons hcell, List.set_cons_zero]

/-- An offset past the received bytes makes the length wrap, and the copy
reads past the end of the buffer. -/
theorem movePayload_none {b : Block UInt8 len} {ret off : Nat} (hlen : len < 2 ^ 31)
    (hret : ret ≤ len) (hoff : ret < off) (hmax : off < 2 ^ 32) :
    movePayload b ret off = none := by
  have hm : wsub ret off = 2 ^ 32 - (off - ret) := wsub_of_gt (by omega) hoff
  have hback : wsub ret (2 ^ 32 - (off - ret)) = off := by
    rw [wsub_of_gt (by omega) (by omega)]
    omega
  rw [movePayload, hm, hback,
    Block.copyDown_none off (fun j hj => wadd_of_lt (by omega)) (by omega) (by omega)]
  rfl

theorem payloadOffset_le {cs : List UInt8} {off : Nat} (h : payloadOffset cs = some off) :
    off ≤ cs.length + 256 := by
  simp only [payloadOffset, Option.bind_eq_bind, Option.bind_eq_some_iff] at h
  obtain ⟨n, -, hi, -, lo, -, p, hp, h⟩ := h
  have hidx := (List.getElem?_eq_some_iff.mp hp).1
  have := p.toNat_lt
  cases h
  omega

/-- **The PUBLISH reader**: it stays inside the buffer exactly when the
payload offset exists and lies within the bytes received. -/
theorem mqttReadPublish_eq_some {b : Block UInt8 len} {ret off : Nat} (hsmall : ret < 2 ^ 31)
    (hret : ret ≤ len) (h : payloadOffset b.cells = some off) (hoff : off ≤ ret) :
    ∃ b', mqttReadPublish b ret = some ((ret : Int), b') ∧
      b'.cells = (b.cells.drop off).take (ret - off) ++ 0 :: b.cells.drop (ret - off + 1) := by
  have hpos := payloadOffset_pos h
  have hwidth (n : Nat) (hw : VarInt.width (b.cells.drop 1) = some n) : n < 2 ^ 31 := by
    have := payloadOffset_width h hw
    omega
  rw [mqttReadPublish_eq_bind b ret hwidth, h]
  exact movePayload_eq hsmall hret (by omega) hoff

theorem mqttReadPublish_isSome {b : Block UInt8 len} {ret : Nat} (hlen : len < 2 ^ 31)
    (hret : ret ≤ len) : (mqttReadPublish b ret).isSome ↔
      ∃ off, payloadOffset b.cells = some off ∧ off ≤ ret := by
  constructor
  · intro hrun
    rw [mqttReadPublish_eq_bind b ret fun n hw => by have := width_lt b hw; omega] at hrun
    cases h : payloadOffset b.cells with
    | none => simp [h] at hrun
    | some off =>
        refine ⟨off, rfl, ?_⟩
        rcases Nat.lt_or_ge ret off with hlt | hle
        · have hmax := payloadOffset_le h
          rw [b.length_cells] at hmax
          rw [h, Option.bind_some, movePayload_none hlen hret hlt (by omega)] at hrun
          cases hrun
        · exact hle
  · rintro ⟨off, h, hoff⟩
    obtain ⟨b', hrun, -⟩ := mqttReadPublish_eq_some (by omega) hret h hoff
    simp [hrun]

end NucleoMqtt.Mqtt
