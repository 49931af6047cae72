import NucleoMqtt.Mqtt.BrokerReads

/-!
# Mqtt — where a read looks for the Reason Code

SUBACK and UNSUBACK end with their Reason Code, and their readers look at
the last byte. A CONNACK has it behind the Remaining Length and the flags,
in front of the properties; its reader looks at the fourth byte of the
packet, where it is while the Remaining Length takes one byte. A property
block that makes the Remaining Length wider moves the flags there, and then
the third byte of the length itself.
-/

namespace NucleoMqtt.Mqtt

open NucleoMqtt.Lib NucleoMqtt.Spec

variable {len : Nat}

/-- An acknowledgement of one request. -/
inductive Ack where
  | connack (sessionPresent : Bool) (reason : UInt8) (properties : List UInt8)
  | suback (packetId : Nat) (reason : UInt8) (properties : List UInt8)
  | unsuback (packetId : Nat) (reason : UInt8) (properties : List UInt8)
deriving DecidableEq

namespace Ack

def reason : Ack → UInt8
  | connack _ reason _ => reason
  | suback _ reason _ => reason
  | unsuback _ reason _ => reason

def packet : Ack → BrokerPacket
  | connack sessionPresent reason properties => .connack sessionPresent reason properties
  | suback packetId reason properties => .suback packetId properties [reason]
  | unsuback packetId reason properties => .unsuback packetId properties [reason]

/-- The byte the reader of an acknowledgement looks at. -/
def byteRead (a : Ack) : UInt8 :=
  match a with
  | connack .. => a.packet.encode[3]?.getD 0
  | suback _ reason _ => reason
  | unsuback _ reason _ => reason

/-- The fourth byte of a CONNACK is its Reason Code while the Remaining
Length is below 128. Up to 16383 it is the flags byte, which agrees with the
Reason Code of a new session that is accepted. Above that it is a byte of
the length other than 0, which agrees with every refusal. -/
def ReasonInPlace : Ack → Prop
  | connack sessionPresent reason properties =>
      let remLen := 2 + (block properties).length
      remLen < 128 ∨ (remLen < 16384 ∧ reason = 0 ∧ sessionPresent = false)
        ∨ (16384 ≤ remLen ∧ reason ≠ 0)
  | suback .. => True
  | unsuback .. => True

/-- The read of a whole acknowledgement returns a value that is not negative
exactly when the Reason Code is 0. -/
def JudgedByReason (b : Block UInt8 len) (a : Ack) (fits : a.packet.encode.length ≤ len) :
    Prop :=
  ∃ v b', mqttReadPacket b (.data a.packet.encode fits) = some (v, b') ∧
    (0 ≤ v ↔ a.reason = 0)

/-- Every acknowledgement is judged by the byte its reader looks at. -/
theorem readPacket_eq (b : Block UInt8 len) {a : Ack} (h : a.packet.WellFormed)
    (hmax : a.packet.body.length ≤ maxRemainingLength)
    (fits : a.packet.encode.length ≤ len) :
    ∃ b', mqttReadPacket b (.data a.packet.encode fits)
      = some (accept a.byteRead a.packet.encode.length, b') := by
  have hlen : a.packet.encode.length < 2 ^ 31 := length_frame_lt a.packet.header hmax
  cases a with
  | connack sessionPresent reason properties =>
      have htype : packetType 0x20 = typeConnack := by decide
      have hhead : (connack sessionPresent reason properties).packet.encode[0]? = some 0x20 := rfl
      have hfourth := connack_fourth sessionPresent reason properties
      exact ⟨_, readPacket_connack hhead htype hfourth⟩
  | suback packetId reason properties =>
      have hlast := BrokerPacket.getLast?_frame_ackBody 0x90 packetId properties h.2.2
      rw [List.getLast?_eq_getElem?] at hlast
      have htype : packetType 0x90 = typeSuback := by decide
      have hhead : (suback packetId reason properties).packet.encode[0]? = some 0x90 := rfl
      exact ⟨_, readPacket_ack hlen hhead (Or.inl htype) hlast⟩
  | unsuback packetId reason properties =>
      have hlast := BrokerPacket.getLast?_frame_ackBody 0xB0 packetId properties h.2.2
      rw [List.getLast?_eq_getElem?] at hlast
      have htype : packetType 0xB0 = typeUnsuback := by decide
      have hhead : (unsuback packetId reason properties).packet.encode[0]? = some 0xB0 := rfl
      exact ⟨_, readPacket_ack hlen hhead (Or.inr htype) hlast⟩

theorem judgedByReason_iff_byteRead (b : Block UInt8 len) {a : Ack}
    (h : a.packet.WellFormed) (hmax : a.packet.body.length ≤ maxRemainingLength)
    (fits : a.packet.encode.length ≤ len) :
    JudgedByReason b a fits ↔ (a.byteRead = 0 ↔ a.reason = 0) := by
  obtain ⟨b', hrun⟩ := readPacket_eq b h hmax fits
  have haccept := accept_neg_iff a.byteRead a.packet.encode.length
  have hvalue : 0 ≤ accept a.byteRead a.packet.encode.length ↔ a.byteRead = 0 := by
    rw [← Int.not_lt, haccept, Decidable.not_not]
  constructor
  · rintro ⟨v, b'', hrun', hv⟩
    rw [hrun] at hrun'
    cases hrun'
    rw [← hvalue]
    exact hv
  · intro hiff
    exact ⟨_, b', hrun, hvalue.trans hiff⟩

/-! ## The fourth byte of a CONNACK -/

section Connack

variable {sessionPresent : Bool} {reason : UInt8} {properties : List UInt8}

/-- The CONNACK with its Remaining Length written out. -/
theorem connack_encode :
    (connack sessionPresent reason properties).packet.encode
      = 0x20 :: (VarInt.encode (2 + (block properties).length) ++
          (if sessionPresent then 1 else 0) :: reason :: block properties) := by
  have hlen : ((if sessionPresent then 1 else 0) :: reason :: block properties).length
      = 2 + (block properties).length := by
    rw [List.length_cons, List.length_cons]
    omega
  rw [← hlen]
  rfl

/-- A Remaining Length of one byte: the Reason Code. -/
theorem byteRead_short (h : 2 + (block properties).length < 128) :
    (connack sessionPresent reason properties).byteRead = reason := by
  rw [byteRead, connack_encode, VarInt.encode_small h]
  rfl

/-- A Remaining Length of two bytes: the flags. -/
theorem byteRead_flags (h : 128 ≤ 2 + (block properties).length)
    (hlt : 2 + (block properties).length < 16384) :
    (connack sessionPresent reason properties).byteRead = if sessionPresent then 1 else 0 := by
  rw [byteRead, connack_encode, VarInt.encode_big h, VarInt.encode_small (by omega)]
  rfl

/-- A Remaining Length of three or four bytes: its third byte. -/
theorem byteRead_length (sessionPresent : Bool) (reason : UInt8)
    (h : 16384 ≤ 2 + (block properties).length) :
    (connack sessionPresent reason properties).byteRead ≠ 0 := by
  obtain ⟨c, rest, hc, hne⟩ := VarInt.encode_head
    (show 0 < (2 + (block properties).length) / 128 / 128 by omega)
  rw [byteRead, connack_encode, VarInt.encode_big (by omega), VarInt.encode_big (by omega), hc]
  exact hne

end Connack

/-- **Acknowledgements are judged by their Reason Code exactly when** it is
where the reader looks, or what is there instead happens to agree with it. -/
theorem judgedByReason_iff (b : Block UInt8 len) {a : Ack} (h : a.packet.WellFormed)
    (hmax : a.packet.body.length ≤ maxRemainingLength)
    (fits : a.packet.encode.length ≤ len) : JudgedByReason b a fits ↔ a.ReasonInPlace := by
  rw [judgedByReason_iff_byteRead b h hmax fits]
  cases a with
  | connack sessionPresent reason properties =>
      show ((connack sessionPresent reason properties).byteRead = 0 ↔ reason = 0) ↔ _
      simp only [ReasonInPlace]
      rcases Nat.lt_or_ge (2 + (block properties).length) 128 with hshort | hlong
      · rw [byteRead_short hshort]
        exact iff_of_true Iff.rfl (Or.inl hshort)
      rcases Nat.lt_or_ge (2 + (block properties).length) 16384 with hflags | hwide
      · rw [byteRead_flags hlong hflags]
        have hsession : reason ≠ 0 → sessionPresent = false := h
        cases sessionPresent with
        | true =>
            have hzero : reason = 0 := by
              by_cases hr : reason = 0
              · exact hr
              · cases hsession hr
            refine iff_of_false (fun hiff => absurd (hiff.mpr hzero) (by decide)) ?_
            rintro (hlt | ⟨-, -, hsp⟩ | ⟨-, hr⟩)
            · omega
            · cases hsp
            · exact hr hzero
        | false =>
            constructor
            · intro hiff
              exact Or.inr (Or.inl ⟨hflags, hiff.mp rfl, rfl⟩)
            · rintro (hlt | ⟨-, hr, -⟩ | ⟨hge, -⟩)
              · omega
              · exact iff_of_true rfl hr
              · omega
      · have hne := byteRead_length sessionPresent reason hwide
        constructor
        · intro hiff
          exact Or.inr (Or.inr ⟨hwide, fun hr => hne (hiff.mpr hr)⟩)
        · rintro (hlt | ⟨hlt, -, -⟩ | ⟨-, hr⟩)
          · omega
          · omega
          · exact iff_of_false hne hr
  | suback packetId reason properties => exact iff_of_true Iff.rfl trivial
  | unsuback packetId reason properties => exact iff_of_true Iff.rfl trivial

/-- A refusal, with a Reason String of 125 bytes. -/
def notAuthorized : Ack := connack false 0x87 (reasonString (List.replicate 125 46))

theorem notAuthorized_fits : notAuthorized.packet.encode.length ≤ 2048 := by
  decide +kernel

theorem notAuthorized_wellFormed : notAuthorized.packet.WellFormed := fun _ => rfl

theorem judgedByReason_iff_notAuthorized :
    JudgedByReason (Block.replicate 2048 0) notAuthorized notAuthorized_fits
      ↔ notAuthorized.ReasonInPlace :=
  judgedByReason_iff (Block.replicate 2048 0) notAuthorized_wellFormed (by decide +kernel)
    notAuthorized_fits

/-- The refusal is taken for an acceptance. -/
theorem notAuthorized_accepted :
    notAuthorized.packet.WellFormed ∧
      notAuthorized.packet.body.length ≤ maxRemainingLength ∧
      notAuthorized.reason = 0x87 ∧
      ¬ JudgedByReason (Block.replicate 2048 0) notAuthorized notAuthorized_fits := by
  have hmax : notAuthorized.packet.body.length ≤ maxRemainingLength := by decide +kernel
  refine ⟨notAuthorized_wellFormed, hmax, rfl, ?_⟩
  rw [judgedByReason_iff_byteRead (Block.replicate 2048 0) notAuthorized_wellFormed hmax
    notAuthorized_fits]
  decide +kernel

end Ack

end NucleoMqtt.Mqtt
