import NucleoMqtt.Mqtt.ReadBounds

/-!
# Mqtt — what a read rests on

A caller of `MQTT_Read_Packet` sees a value and, after a PUBLISH, a message
at the front of the buffer. `verdict` is that view of one call. `judge` is
the same decision taken from the received bytes alone, without a buffer: it
is undefined where the readers look at a byte the call did not receive.

`verdict_of_judge` says that a defined judgement is the verdict over every
buffer.
-/

namespace NucleoMqtt.Mqtt

open NucleoMqtt.Lib

variable {len : Nat}

/-- A NUL-terminated string at the front of `cs`, as `strcmp` and `%s` see it. -/
def cString (cs : List UInt8) : List UInt8 := cs.takeWhile (· ≠ 0)

/-- The type nibble of the first byte in the buffer. -/
def frontType (b : Block UInt8 len) : Option UInt8 := (b.load 0).map packetType

/-- What the caller of one read sees: the value returned and, when a
PUBLISH has been accepted, the message. -/
def verdict (b : Block UInt8 len) (r : Recv len) : Option (Int × Option (List UInt8)) :=
  (mqttReadPacket b r).map fun (v, b') =>
    (v, if frontType (r.into b) = some typePublish ∧ 0 ≤ v then some (cString b'.cells)
        else none)

/-- `ret` when the Reason Code `c` is 0, otherwise -1. -/
def accept (c : UInt8) (ret : Nat) : Int := if c = 0 then ret else -1

theorem accept_neg_iff (c : UInt8) (n : Nat) : accept c n < 0 ↔ c ≠ 0 := by
  rw [accept]
  by_cases hc : c = 0
  · simp [hc]
  · simp [hc]

/-- The verdict on `bytes`, taken from them alone. -/
def judge (bytes : List UInt8) : Option (Int × Option (List UInt8)) := do
  let ret := bytes.length
  let t := packetType (← bytes[0]?)
  if t = typeConnack then return (accept (← bytes[3]?) ret, none)
  else if t = typePublish then
    let off ← payloadOffset bytes
    if off ≤ ret then return (ret, some (cString (bytes.drop off))) else none
  else if t = typeSuback ∨ t = typeUnsuback then return (accept (← bytes[ret - 1]?) ret, none)
  else if t = typePingresp then return (ret, none)
  else return (-1, none)

@[simp] theorem cString_nil : cString [] = [] := rfl

theorem cString_cons (x : UInt8) (xs : List UInt8) :
    cString (x :: xs) = if x = 0 then [] else x :: cString xs := by
  by_cases hx : x = 0
  · simp [cString, hx]
  · simp [cString, hx]

theorem cString_append_zero (xs ys : List UInt8) :
    cString (xs ++ 0 :: ys) = cString xs := by
  induction xs with
  | nil => simp [cString_cons]
  | cons x xs ih => rw [List.cons_append, cString_cons, cString_cons, ih]

theorem cString_of_not_mem {s : List UInt8} (h : 0 ∉ s) : cString s = s := by
  induction s with
  | nil => rfl
  | cons x xs ih =>
      have hx : x ≠ 0 := fun hzero => h (hzero ▸ List.mem_cons_self)
      rw [cString_cons, if_neg hx, ih fun hmem => h (List.mem_cons_of_mem x hmem)]

/-- A NUL-terminated string in front of other bytes is found by its prefix. -/
theorem prefix_iff_cString {s : List UInt8} (hs : 0 ∉ s) (xs ys : List UInt8) :
    s ++ [0] <+: xs ++ 0 :: ys ↔ cString xs = s := by
  induction xs generalizing s with
  | nil =>
      cases s with
      | nil => exact iff_of_true ⟨ys, rfl⟩ rfl
      | cons a s =>
          have ha : a ≠ 0 := fun h => hs (h ▸ List.mem_cons_self ..)
          simp [List.cons_prefix_cons, ha]
  | cons x xs ih =>
      rw [cString_cons, List.cons_append]
      cases s with
      | nil =>
          by_cases hx : x = 0
          · simp [hx]
          · simp [hx, Ne.symm hx]
      | cons a s =>
          have ha : a ≠ 0 := fun h => hs (h ▸ List.mem_cons_self ..)
          have htail := ih (fun h => hs (List.mem_cons_of_mem _ h))
          rw [List.cons_append, List.cons_prefix_cons, htail]
          by_cases hx : x = 0
          · simp [hx, ha]
          · rw [if_neg hx, List.cons.injEq]
            exact and_congr_left (fun _ => eq_comm)

/-- The header fields found in a prefix are those of the whole buffer. -/
theorem payloadOffset_append {cs : List UInt8} {off : Nat} (h : payloadOffset cs = some off)
    (rest : List UInt8) : payloadOffset (cs ++ rest) = some off := by
  simp only [payloadOffset, Option.bind_eq_bind, Option.bind_eq_some_iff] at h ⊢
  obtain ⟨n, hn, hi, hhi, lo, hlo, p, hp, h⟩ := h
  have hkeep {i : Nat} {a : UInt8} (ha : cs[i]? = some a) : (cs ++ rest)[i]? = some a := by
    rw [List.getElem?_append_left (List.getElem?_eq_some_iff.mp ha).1, ha]
  refine ⟨n, ?_, hi, hkeep hhi, lo, hkeep hlo, p, hkeep hp, h⟩
  cases cs with
  | nil => cases hhi
  | cons c cs => exact VarInt.width_append hn rest

/-- Header fields that add up to no more than the prefix lie in the prefix. -/
theorem payloadOffset_of_append {cs rest : List UInt8} {off : Nat}
    (h : payloadOffset (cs ++ rest) = some off) (hoff : off ≤ cs.length) :
    payloadOffset cs = some off := by
  simp only [payloadOffset, Option.bind_eq_bind, Option.bind_eq_some_iff] at h ⊢
  obtain ⟨n, hn, hi, hhi, lo, hlo, p, hp, h⟩ := h
  have hsum : off = 4 + n + (128 * hi.toNat + lo.toNat) + p.toNat := by
    cases h
    rfl
  have hkeep {i : Nat} {a : UInt8} (hi : i < cs.length) (ha : (cs ++ rest)[i]? = some a) :
      cs[i]? = some a := by
    rwa [List.getElem?_append_left hi] at ha
  refine ⟨n, ?_, hi, hkeep (by omega) hhi, lo, hkeep (by omega) hlo, p,
    hkeep (by omega) hp, h⟩
  cases cs with
  | nil =>
      simp at hoff
      omega
  | cons c cs => exact VarInt.width_of_append hn (by simp at hoff ⊢; omega)

/-! ## One dispatch for each packet type

`bytes` have just been read into `b`; their first byte is `c`. -/

section Dispatch

variable {b : Block UInt8 len} {bytes : List UInt8} {fits : bytes.length ≤ len} {c : UInt8}

theorem cells_into (b : Block UInt8 len) (bytes : List UInt8) (fits : bytes.length ≤ len) :
    ((Recv.data bytes fits).into b).cells = bytes ++ b.cells.drop bytes.length := rfl

/-- A received byte is where the read put it. -/
theorem load_into {i : Nat} {a : UInt8} (h : bytes[i]? = some a) :
    ((Recv.data bytes fits).into b).load i = some a := by
  rw [← h]
  exact Block.load_overwrite_lt (h := fits) (List.getElem?_eq_some_iff.mp h).1

theorem mqttReadPacket_data (b : Block UInt8 len) (bytes : List UInt8)
    (fits : bytes.length ≤ len) :
    mqttReadPacket b (.data bytes fits)
      = mqttDispatch ((Recv.data bytes fits).into b) bytes.length := by
  rw [mqttReadPacket, if_neg (by simp [Recv.ret])]
  rfl

theorem readPacket_connack (hc : bytes[0]? = some c) (ht : packetType c = typeConnack)
    {c3 : UInt8} (h3 : bytes[3]? = some c3) :
    mqttReadPacket b (.data bytes fits)
      = some (accept c3 bytes.length, (Recv.data bytes fits).into b) := by
  simp [mqttReadPacket_data, mqttDispatch, load_into hc, ht, mqttReadConnack, load_into h3,
    accept]

/-- A PUBLISH whose sizes fit leaves its payload and a NUL at the front. -/
theorem readPacket_publish (b : Block UInt8 len) (fits : bytes.length ≤ len)
    (hlen : bytes.length < 2 ^ 31) (hc : bytes[0]? = some c)
    (ht : packetType c = typePublish) {off : Nat} (hoff : payloadOffset bytes = some off)
    (hle : off ≤ bytes.length) :
    ∃ b', mqttReadPacket b (.data bytes fits) = some ((bytes.length : Int), b') ∧
      b'.cells = bytes.drop off ++ 0 ::
        (bytes ++ b.cells.drop bytes.length).drop (bytes.length - off + 1) := by
  obtain ⟨b', hread, hcells⟩ := mqttReadPublish_eq_some
    (b := (Recv.data bytes fits).into b) hlen fits
    (payloadOffset_append hoff (b.cells.drop bytes.length)) hle
  refine ⟨b', ?_, ?_⟩
  · simp [mqttReadPacket_data, mqttDispatch, load_into hc, ht, hread, typeConnack,
      typePublish]
  · rw [hcells, cells_into, List.drop_append_of_le_length hle,
      List.take_append_of_le_length (by simp), List.take_of_length_le (by simp)]

/-- A PUBLISH that was read at all announces sizes that fit. -/
theorem payloadOffset_of_isSome (h5 : 5 ≤ len) (hlen : len < 2 ^ 31) (hc : bytes[0]? = some c)
    (ht : packetType c = typePublish) (h : (mqttReadPacket b (.data bytes fits)).isSome) :
    ∃ off, payloadOffset bytes = some off ∧ off ≤ bytes.length := by
  rw [mqttReadPacket_data] at h
  have hbounds := (mqttDispatch_isSome_iff h5 hlen fits).mp h c (load_into hc)
  obtain ⟨off, hoff, hle⟩ := hbounds.1 ht
  rw [cells_into] at hoff
  exact ⟨off, payloadOffset_of_append hoff hle, hle⟩

theorem readPacket_ack (hlen : bytes.length < 2 ^ 31) (hc : bytes[0]? = some c)
    (ht : packetType c = typeSuback ∨ packetType c = typeUnsuback) {last : UInt8}
    (hlast : bytes[bytes.length - 1]? = some last) :
    mqttReadPacket b (.data bytes fits)
      = some (accept last bytes.length, (Recv.data bytes fits).into b) := by
  have hret : 0 < bytes.length := (List.getElem?_eq_some_iff.mp hc).1
  have hload : ((Recv.data bytes fits).into b).load (wsub bytes.length 1) = some last := by
    rw [wsub_of_le (by omega) hret]
    exact load_into hlast
  rcases ht with ht | ht <;>
    simp [mqttReadPacket_data, mqttDispatch, load_into hc, ht, mqttReadUnsuback_eq,
      mqttReadSuback, hload, accept, typeConnack, typePublish, typeSuback, typeUnsuback]

theorem readPacket_pingresp (hc : bytes[0]? = some c) (ht : packetType c = typePingresp) :
    mqttReadPacket b (.data bytes fits)
      = some ((bytes.length : Int), (Recv.data bytes fits).into b) := by
  simp [mqttReadPacket_data, mqttDispatch, load_into hc, ht, mqttReadPingresp, typeConnack,
    typePublish, typeSuback, typeUnsuback, typePingresp]

/-- The packet types the client knows how to read. -/
def KnownType (t : UInt8) : Prop :=
  t = typeConnack ∨ t = typePublish ∨ t = typeSuback ∨ t = typeUnsuback ∨ t = typePingresp

theorem readPacket_unknown (b : Block UInt8 len) (fits : bytes.length ≤ len)
    (hc : bytes[0]? = some c) (ht : ¬ KnownType (packetType c)) :
    mqttReadPacket b (.data bytes fits) = some (-1, (Recv.data bytes fits).into b) := by
  simp only [KnownType, not_or] at ht
  simp [mqttReadPacket_data, mqttDispatch, load_into hc, ht]

/-- Only PUBLISH moves bytes: any other read leaves what it received. -/
theorem buffer_of_readPacket {b' : Block UInt8 len} {v : Int} (hc : bytes[0]? = some c)
    (ht : packetType c ≠ typePublish)
    (h : mqttReadPacket b (.data bytes fits) = some (v, b')) :
    b' = (Recv.data bytes fits).into b := by
  have hpair {x : Option Int} (hx : x.map (·, (Recv.data bytes fits).into b) = some (v, b')) :
      b' = (Recv.data bytes fits).into b := by
    obtain ⟨w, -, hw⟩ := Option.map_eq_some_iff.mp hx
    exact (Prod.mk.inj hw).2.symm
  rw [mqttReadPacket_data, mqttDispatch, load_into hc, Option.bind_eq_bind,
    Option.bind_some] at h
  dsimp only at h
  rw [if_neg ht] at h
  split at h
  · exact hpair h
  · split at h
    · exact hpair h
    · split at h
      · exact hpair h
      · split at h
        · exact hpair h
        · exact (Prod.mk.inj (Option.some.inj h)).2.symm

/-! ## The judgement is the verdict -/

theorem verdict_of_readPacket {b' : Block UInt8 len} {v : Int} (hc : bytes[0]? = some c)
    (hrun : mqttReadPacket b (.data bytes fits) = some (v, b')) :
    verdict b (.data bytes fits) = some (v,
      if packetType c = typePublish ∧ 0 ≤ v then some (cString b'.cells) else none) := by
  simp [verdict, hrun, frontType, load_into hc]

/-- Outside PUBLISH there is no message. -/
theorem verdict_of_other {b' : Block UInt8 len} {v : Int} (hc : bytes[0]? = some c)
    (hrun : mqttReadPacket b (.data bytes fits) = some (v, b'))
    (ht : packetType c ≠ typePublish) :
    verdict b (.data bytes fits) = some (v, none) := by
  rw [verdict_of_readPacket hc hrun, if_neg (fun h => ht h.1)]

/-- **A defined judgement is the verdict over every buffer.** -/
theorem verdict_of_judge {v : Int × Option (List UInt8)} (hlen : len < 2 ^ 31)
    (h : judge bytes = some v) (b : Block UInt8 len) (fits : bytes.length ≤ len) :
    verdict b (.data bytes fits) = some v := by
  simp only [judge, Option.bind_eq_bind, Option.bind_eq_some_iff] at h
  obtain ⟨c, hc, h⟩ := h
  by_cases h1 : packetType c = typeConnack
  · rw [if_pos h1] at h
    obtain ⟨c3, h3, h⟩ := Option.bind_eq_some_iff.mp h
    cases h
    exact verdict_of_other hc (readPacket_connack hc h1 h3) (by rw [h1]; decide)
  rw [if_neg h1] at h
  by_cases h2 : packetType c = typePublish
  · rw [if_pos h2] at h
    obtain ⟨off, hoff, h⟩ := Option.bind_eq_some_iff.mp h
    split at h
    · rename_i hle
      cases h
      obtain ⟨b', hrun, hcells⟩ := readPacket_publish b fits (by omega) hc h2 hoff hle
      rw [verdict_of_readPacket hc hrun, if_pos ⟨h2, by omega⟩, hcells, cString_append_zero]
    · cases h
  rw [if_neg h2] at h
  by_cases h3 : packetType c = typeSuback ∨ packetType c = typeUnsuback
  · rw [if_pos h3] at h
    obtain ⟨last, hlast, h⟩ := Option.bind_eq_some_iff.mp h
    cases h
    exact verdict_of_other hc (readPacket_ack (by omega) hc h3 hlast) h2
  rw [if_neg h3] at h
  by_cases h4 : packetType c = typePingresp
  · rw [if_pos h4] at h
    cases h
    exact verdict_of_other hc (readPacket_pingresp hc h4) h2
  · rw [if_neg h4] at h
    cases h
    refine verdict_of_other hc (readPacket_unknown b fits hc ?_) h2
    simp only [KnownType, not_or]
    exact ⟨h1, h2, (not_or.mp h3).1, (not_or.mp h3).2, h4⟩

end Dispatch

end NucleoMqtt.Mqtt
