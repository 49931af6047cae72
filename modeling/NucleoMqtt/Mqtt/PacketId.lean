import NucleoMqtt.Mqtt.WriterSpec

/-!
# Mqtt — packet identifiers on the wire

SUBSCRIBE and UNSUBSCRIBE take their identifiers from one static counter of
32 bits, which counts up by one and skips zero. On the wire an identifier
is two bytes, high byte first; the writers compute them as quotient and
remainder by 128. So the identifier a broker reads is not the counter, and
write number 32768, the first whose quotient no longer fits in a byte,
carries the forbidden zero.
-/

namespace NucleoMqtt.Mqtt

open NucleoMqtt.Lib NucleoMqtt.Spec

/-! ## Runs of identifier-consuming writes -/

/-- One call of a writer that consumes an identifier; the topic leaves room
for the Remaining Length. -/
structure FilterRequest where
  subscribe : Bool
  topic : List UInt8
  fits : topic.length + 6 ≤ maxRemainingLength

/-- The packet handed over and the counter afterwards. -/
def FilterRequest.write (r : FilterRequest) (counter : Int) : Option (Handed × Int) :=
  if r.subscribe then mqttWriteSubscribe counter (r.topic ++ [0]) (r.topic.length + 1)
  else mqttWriteUnsubscribe counter (r.topic ++ [0]) (r.topic.length + 1)

/-- The packets of a run of writes that finds the static counter at `counter`. -/
def writeAll (counter : Int) : List FilterRequest → Option (List (List UInt8))
  | [] => some []
  | r :: rs => do
      let (h, counter) ← r.write counter
      let packets ← writeAll counter rs
      return h.buf.cells :: packets

/-- The Packet Identifier a receiver reads: the first two bytes behind the
fixed header. -/
def wireId (packet : List UInt8) : Option Nat := do
  let (_, body) ← unframe packet
  let (packetId, _) ← readU16 body
  return packetId

/-- The identifiers of a run obey the protocol: none is zero, and fewer
than 65535 writes apart no two are equal. -/
def LawfulIds (ids : List Nat) : Prop :=
  0 ∉ ids ∧ ∀ i j a, i < j → j - i < 65535 → ids[i]? = some a → ids[j]? ≠ some a

/-! ## One write -/

/-- What the two bytes of an identifier mean to a receiver. -/
def wireValue (packetIdentifier : Int) : Nat :=
  256 * (UInt8.ofInt (packetIdentifier.tdiv 128)).toNat
    + (UInt8.ofInt (packetIdentifier.tmod 128)).toNat

theorem wireId_frame (header : UInt8) (packetIdentifier : Int) {topic options : List UInt8}
    (hmax : topic.length + options.length + 5 ≤ maxRemainingLength) :
    wireId (frame header (filterBody packetIdentifier topic options))
      = some (wireValue packetIdentifier) := by
  have hbody : (filterBody packetIdentifier topic options).length ≤ maxRemainingLength := by
    rw [filterBody_length]
    exact hmax
  simp only [wireId, unframe_frame header hbody, Option.bind_eq_bind, Option.bind_some]
  rfl

/-- **One write**: the counter moves on, and the packet carries its value. -/
theorem FilterRequest.write_eq (r : FilterRequest) (counter : Int) :
    ∃ h, r.write counter = some (h, mqttGeneratePacketId counter) ∧
      wireId h.buf.cells = some (wireValue (mqttGeneratePacketId counter)) := by
  obtain ⟨subscribe, topic, fits⟩ := r
  cases subscribe with
  | true =>
      have hmax : topic.length + [(0b00000000 : UInt8)].length + 5 ≤ maxRemainingLength := fits
      obtain ⟨h, hrun, -, hcells⟩ := writeFilterPacket_eq SUBSCRIBE_MIN_SIZE
        0b10000010 [0b00000000] topic (mqttGeneratePacketId counter) rfl hmax
      refine ⟨h, ?_, ?_⟩
      · simp only [write, mqttWriteSubscribe, hrun, if_true]
        rfl
      · rw [hcells, wireId_frame _ _ hmax]
  | false =>
      have hmax : topic.length + ([] : List UInt8).length + 5 ≤ maxRemainingLength := by
        simp only [List.length_nil]
        omega
      obtain ⟨h, hrun, -, hcells⟩ := writeFilterPacket_eq UNSUBSCRIBE_MIN_SIZE
        0b10100010 [] topic (mqttGeneratePacketId counter) rfl hmax
      refine ⟨h, ?_, ?_⟩
      · simp only [write, mqttWriteUnsubscribe, hrun]
        rfl
      · rw [hcells, wireId_frame _ _ hmax]

/-! ## The counter over a run -/

/-- The counter after `n` writes. -/
def generated (counter : Int) : Nat → Int
  | 0 => counter
  | n + 1 => mqttGeneratePacketId (generated counter n)

theorem generated_succ (counter : Int) (n : Nat) :
    generated counter (n + 1) = generated (mqttGeneratePacketId counter) n := by
  induction n with
  | zero => rfl
  | succ n ih => rw [generated, ih, generated]

theorem mqttGeneratePacketId_of_lt {k : Nat} (h : k + 1 < 2 ^ 31) :
    mqttGeneratePacketId k = ((k + 1 : Nat) : Int) := by
  have hnext : ((k : Int) + 1).bmod (2 ^ 32) = ((k + 1 : Nat) : Int) :=
    Int.bmod_eq_of_le_mul_two (by omega) (by omega)
  have hne : ¬ ((k + 1 : Nat) : Int) = 0 := by omega
  rw [mqttGeneratePacketId]
  simp only [hnext, hne, if_false]

/-- Below the overflow of an `int` the counter counts. -/
theorem generated_of_lt {n : Nat} (h : n < 2 ^ 31) : generated 0 n = (n : Int) := by
  induction n with
  | zero => rfl
  | succ n ih => rw [generated, ih (by omega), mqttGeneratePacketId_of_lt h]

/-- **The identifiers of a run**, by position. -/
theorem wireIds_eq (run : List FilterRequest) (counter : Int) :
    ∃ packets ids, writeAll counter run = some packets ∧ packets.mapM wireId = some ids ∧
      ids.length = run.length ∧
      ∀ i, i < run.length → ids[i]? = some (wireValue (generated counter (i + 1))) := by
  induction run generalizing counter with
  | nil => exact ⟨[], [], rfl, rfl, rfl, fun i hi => absurd hi (Nat.not_lt_zero i)⟩
  | cons r run ih =>
      obtain ⟨h, hwrite, hid⟩ := r.write_eq counter
      obtain ⟨packets, ids, hrun, hids, hlen, hget⟩ := ih (mqttGeneratePacketId counter)
      refine ⟨h.buf.cells :: packets, wireValue (mqttGeneratePacketId counter) :: ids,
        ?_, ?_, ?_, ?_⟩
      · simp [writeAll, hwrite, hrun]
      · simp [hid, hids]
      · simp [hlen]
      · intro i hi
        cases i with
        | zero => rfl
        | succ i =>
            rw [List.getElem?_cons_succ, generated_succ]
            exact hget i (Nat.lt_of_succ_lt_succ hi)

/-! ## The two bytes -/

/-- The high byte keeps the quotient modulo 256. -/
theorem wireValue_natCast (k : Nat) :
    wireValue k = 256 * (k / 128 % 256) + k % 128 := by
  show 256 * (UInt8.ofInt ((k / 128 : Nat) : Int)).toNat
    + (UInt8.ofInt ((k % 128 : Nat) : Int)).toNat = _
  rw [byte_ofInt, byte_ofInt, toNat_byte, toNat_byte]
  omega

/-- Write number `n` carries the low 15 bits of `n`, split into 8 and 7. -/
theorem wireValue_generated {n : Nat} (h : n < 2 ^ 31) :
    wireValue (generated 0 n) = 256 * (n / 128 % 256) + n % 128 := by
  rw [generated_of_lt h, wireValue_natCast]

/-- **Identifiers are lawful for the first 32767 writes only.** Over every
run of SUBSCRIBE and UNSUBSCRIBE writes from the counter's initial value,
the identifiers on the wire are non-zero and distinct at short distance
exactly when the run is no longer than that. -/
theorem wireIds_lawful_iff (run : List FilterRequest) :
    ∃ packets ids, writeAll 0 run = some packets ∧ packets.mapM wireId = some ids ∧
      (LawfulIds ids ↔ run.length ≤ 32767) := by
  obtain ⟨packets, ids, hrun, hids, hlen, hget⟩ := wireIds_eq run 0
  have hval (i : Nat) (hi : i < run.length) (hsmall : i ≤ 32767) :
      ids[i]? = some (256 * ((i + 1) / 128 % 256) + (i + 1) % 128) := by
    rw [hget i hi, wireValue_generated (by omega)]
  refine ⟨packets, ids, hrun, hids, ?_⟩
  constructor
  · rintro ⟨hzero, -⟩
    rcases Nat.lt_or_ge 32767 run.length with hlong | hshort
    · exact absurd (List.mem_of_getElem? (hval 32767 hlong (Nat.le_refl _))) hzero
    · exact hshort
  · intro hshort
    refine ⟨?_, ?_⟩
    · intro hmem
      obtain ⟨i, hi⟩ := List.getElem?_of_mem hmem
      have hi' : i < run.length := by
        rw [← hlen]
        exact (List.getElem?_eq_some_iff.mp hi).1
      rw [hval i hi' (by omega)] at hi
      have := Option.some.inj hi
      omega
    · intro i j a hij _ hi hj
      have hj' : j < run.length := by
        rw [← hlen]
        exact (List.getElem?_eq_some_iff.mp hj).1
      rw [hval i (by omega) (by omega)] at hi
      rw [hval j hj' (by omega)] at hj
      have := Option.some.inj hi
      have := Option.some.inj hj
      omega

/-- The last of 32768 SUBSCRIBE writes in a row carries the identifier 0. -/
theorem wireIds_32768_subscribes :
    ∃ packets ids,
      writeAll 0 (List.replicate 32768 ⟨true, [97], by decide⟩) = some packets ∧
      packets.mapM wireId = some ids ∧ ¬ LawfulIds ids := by
  obtain ⟨packets, ids, hrun, hids, -, hget⟩ :=
    wireIds_eq (List.replicate 32768 ⟨true, [97], by decide⟩) 0
  refine ⟨packets, ids, hrun, hids, fun h => h.1 ?_⟩
  have hlast := hget 32767 (by rw [List.length_replicate]; decide)
  rw [wireValue_generated (by decide)] at hlast
  exact List.mem_of_getElem? hlast

end NucleoMqtt.Mqtt
