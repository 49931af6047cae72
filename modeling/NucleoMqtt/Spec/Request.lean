import NucleoMqtt.Spec.Packet

/-!
# Spec — CONNECT, SUBSCRIBE and UNSUBSCRIBE, with reference decoders

The packets that open a session and ask for topics. A `decode` reads the
wire format: type and reserved flags, a minimal Remaining Length that
counts the bytes after it, every field whole, nothing left over. What a
field may say (a filter of at least one character, an identifier that is
not zero) is not its concern.

SUBSCRIBE and UNSUBSCRIBE are one format, a `Request` with a list of items;
they differ in the header byte and in what an item is.
-/

namespace NucleoMqtt.Spec

open NucleoMqtt.Lib

/-! ## SUBSCRIBE and UNSUBSCRIBE -/

/-- A request for the topics named by `filters`. -/
structure Request (α : Type) where
  packetId : Nat
  properties : List UInt8
  filters : List α
deriving DecidableEq

namespace Request

variable {α : Type}

/-- Packet Identifier, properties, items. -/
def body (enc : α → List UInt8) (r : Request α) : List UInt8 :=
  be16 r.packetId ++ (block r.properties ++ r.filters.flatMap enc)

/-- The reference decoder for a header byte and a kind of item. At least
one item is there. -/
def decode (header : UInt8) (item : List UInt8 → Option (α × List UInt8))
    (bs : List UInt8) : Option (Request α) := do
  let (h, bs) ← unframe bs
  require (h = header)
  let (packetId, bs) ← readU16 bs
  let (properties, bs) ← readBlock bs
  require (bs ≠ [])
  let filters ← readAll item bs.length bs
  return { packetId := packetId, properties := properties, filters := filters }

/-- The limits a request obeys. -/
structure WellFormed (enc : α → List UInt8) (r : Request α) : Prop where
  packetId_le : r.packetId ≤ 65535
  filters_ne : r.filters ≠ []
  body_le : (r.body enc).length ≤ maxRemainingLength

theorem decode_frame {header : UInt8} {item : List UInt8 → Option (α × List UInt8)}
    {enc : α → List UInt8} {r : Request α} (h : r.WellFormed enc)
    (hread : ∀ a ∈ r.filters, ∀ rest, item (enc a ++ rest) = some (a, rest))
    (hne : ∀ a, enc a ≠ []) :
    decode header item (frame header (r.body enc)) = some r := by
  have hid : r.packetId < 2 ^ 16 := by
    have := h.packetId_le
    omega
  have hprops : r.properties.length ≤ maxRemainingLength := by
    have := h.body_le
    simp only [body, List.length_append, length_block] at this
    omega
  have hlen := length_le_flatMap hne r.filters
  have hsome : r.filters.flatMap enc ≠ [] := by
    intro hnil
    rw [hnil, List.length_nil, Nat.le_zero] at hlen
    exact h.filters_ne (List.eq_nil_of_length_eq_zero hlen)
  have hu16 := readU16_be16 hid (block r.properties ++ r.filters.flatMap enc)
  rw [← body] at hu16
  simp only [decode, unframe_frame header h.body_le, Option.bind_eq_bind, Option.bind_some,
    require_true, hu16, readBlock_block hprops, require_true hsome,
    readAll_flatMap hread hne hlen, pure]

end Request

/-- A topic filter and its Subscription Options. -/
abbrev Subscribe := Request (List UInt8 × UInt8)

/-- A topic filter, then the options byte: QoS and Retain Handling are not
3, and the upper two bits are reserved. -/
def readSubscription (bs : List UInt8) : Option ((List UInt8 × UInt8) × List UInt8) := do
  let (filter, bs) ← readStr bs
  let (options, bs) ← readByte bs
  require (options.toNat % 4 ≤ 2 ∧ options.toNat / 16 ≤ 2)
  return ((filter, options), bs)

def encodeSubscription (s : List UInt8 × UInt8) : List UInt8 := str s.1 ++ [s.2]

def Subscribe.decode : List UInt8 → Option Subscribe := Request.decode 0x82 readSubscription

/-- Topic filters alone. -/
abbrev Unsubscribe := Request (List UInt8)

def Unsubscribe.decode : List UInt8 → Option Unsubscribe := Request.decode 0xA2 readStr

theorem readSubscription_encode {s : List UInt8 × UInt8} (h : s.1.length < 2 ^ 16)
    (hopt : s.2.toNat % 4 ≤ 2 ∧ s.2.toNat / 16 ≤ 2) (rest : List UInt8) :
    readSubscription (encodeSubscription s ++ rest) = some (s, rest) := by
  rw [readSubscription, encodeSubscription, List.append_assoc, readStr_str h]
  simp only [Option.bind_eq_bind, Option.bind_some, List.singleton_append, readByte,
    require_true hopt]
  rfl

/-! ## CONNECT -/

/-- The message the broker publishes when the connection is lost. -/
structure Will where
  qos : Nat
  retain : Bool
  properties : List UInt8
  topic : List UInt8
  payload : List UInt8
deriving DecidableEq

structure Connect where
  protocolName : List UInt8
  version : UInt8
  cleanStart : Bool
  will : Option Will
  userName : Option (List UInt8)
  password : Option (List UInt8)
  keepAlive : Nat
  properties : List UInt8
  clientId : List UInt8
deriving DecidableEq

namespace Connect

/-- Bit 1 is Clean Start; bit 2 announces a Will, whose QoS and Retain are
bits 3 to 5; bits 6 and 7 announce password and user name. -/
def flags (c : Connect) : Nat :=
  2 * c.cleanStart.toNat
    + (c.will.elim 0 fun w => 4 + 8 * w.qos + 32 * w.retain.toNat)
    + 64 * c.password.isSome.toNat + 128 * c.userName.isSome.toNat

/-- Will Properties, Will Topic, Will Payload. -/
def encodeWill (w : Will) : List UInt8 := block w.properties ++ (str w.topic ++ str w.payload)

/-- Client Identifier, then what the flags announce. -/
def payload (c : Connect) : List UInt8 :=
  str c.clientId ++ (c.will.elim [] encodeWill ++
    (c.userName.elim [] str ++ c.password.elim [] str))

def body (c : Connect) : List UInt8 :=
  str c.protocolName ++ (c.version :: UInt8.ofNat c.flags ::
    (be16 c.keepAlive ++ (block c.properties ++ c.payload)))

def encode (c : Connect) : List UInt8 := frame 0x10 c.body

/-- The Will, if the flags announce one. -/
def readWill (flags : Nat) (bs : List UInt8) : Option (Option Will × List UInt8) :=
  if flags / 4 % 2 = 1 then do
    let (properties, bs) ← readBlock bs
    let (topic, bs) ← readStr bs
    let (payload, bs) ← readStr bs
    return (some { qos := flags / 8 % 4, retain := flags / 32 % 2 = 1,
                   properties := properties, topic := topic, payload := payload }, bs)
  else some (none, bs)

/-- A string field, if bit `bit` of the flags announces it. -/
def readField (flags bit : Nat) (bs : List UInt8) :
    Option (Option (List UInt8) × List UInt8) :=
  if flags / 2 ^ bit % 2 = 1 then (readStr bs).map fun (s, rest) => (some s, rest)
  else some (none, bs)

/-- The reference decoder. -/
def decode (bs : List UInt8) : Option Connect := do
  let (h, bs) ← unframe bs
  require (h = 0x10)
  let (protocolName, bs) ← readStr bs
  require (protocolName = [77, 81, 84, 84])
  let (version, bs) ← readByte bs
  require (version = 5)
  let (f, bs) ← readByte bs
  let flags := f.toNat
  -- bit 0 is reserved; without a Will its QoS and Retain are zero
  require (flags % 2 = 0 ∧ flags / 8 % 4 ≤ 2 ∧
    (flags / 4 % 2 = 0 → flags / 8 % 4 = 0 ∧ flags / 32 % 2 = 0))
  let (keepAlive, bs) ← readU16 bs
  let (properties, bs) ← readBlock bs
  let (clientId, bs) ← readStr bs
  let (will, bs) ← readWill flags bs
  let (userName, bs) ← readField flags 7 bs
  let (password, bs) ← readField flags 6 bs
  require (bs = [])
  return {
    protocolName := protocolName
    version := version
    cleanStart := flags / 2 % 2 = 1
    will := will
    userName := userName
    password := password
    keepAlive := keepAlive
    properties := properties
    clientId := clientId }

/-- The limits a Will obeys. -/
structure WillFormed (w : Will) : Prop where
  qos_le : w.qos ≤ 2
  topic_le : w.topic.length ≤ 65535
  payload_le : w.payload.length ≤ 65535
  properties_le : w.properties.length ≤ maxRemainingLength

/-- The limits a CONNECT obeys. -/
structure WellFormed (c : Connect) : Prop where
  name : c.protocolName = [77, 81, 84, 84]
  version : c.version = 5
  keepAlive_le : c.keepAlive ≤ 65535
  clientId_le : c.clientId.length ≤ 65535
  will : ∀ w ∈ c.will, WillFormed w
  userName_le : ∀ s ∈ c.userName, s.length ≤ 65535
  password_le : ∀ s ∈ c.password, s.length ≤ 65535
  body_le : c.body.length ≤ maxRemainingLength

/-- What each bit of the flags says. -/
theorem flags_fields {c : Connect} (h : c.WellFormed) :
    c.flags < 256 ∧ c.flags % 2 = 0 ∧ decide (c.flags / 2 % 2 = 1) = c.cleanStart ∧
      c.flags / 4 % 2 = c.will.isSome.toNat ∧
      (c.flags / 8 % 4 = c.will.elim 0 (·.qos)) ∧
      (c.flags / 32 % 2 = c.will.elim 0 (·.retain.toNat)) ∧
      c.flags / 64 % 2 = c.password.isSome.toNat ∧
      c.flags / 128 % 2 = c.userName.isSome.toNat := by
  have hclean := c.cleanStart.toNat_lt
  have hpass := c.password.isSome.toNat_lt
  have huser := c.userName.isSome.toNat_lt
  have hbit : decide (c.flags / 2 % 2 = 1) = c.cleanStart ↔
      c.flags / 2 % 2 = c.cleanStart.toNat := by
    cases c.cleanStart with
    | false =>
        rw [decide_eq_false_iff_not, Bool.toNat_false]
        omega
    | true => rw [decide_eq_true_iff, Bool.toNat_true]
  rw [hbit]
  cases hw : c.will with
  | none =>
      simp only [flags, hw, Option.elim_none, Option.isSome_none, Bool.toNat_false]
      omega
  | some w =>
      have hqos := (h.will w hw).qos_le
      have hretain := w.retain.toNat_lt
      simp only [flags, hw, Option.elim_some, Option.isSome_some, Bool.toNat_true]
      omega

theorem readWill_encode {c : Connect} (h : c.WellFormed) (rest : List UInt8) :
    readWill c.flags (c.will.elim [] encodeWill ++ rest) = some (c.will, rest) := by
  obtain ⟨-, -, -, hwill, hqos, hretain, -, -⟩ := flags_fields h
  rw [readWill, hwill]
  cases hw : c.will with
  | none => rfl
  | some w =>
      obtain ⟨-, htopic, hpayload, hprops⟩ := h.will w hw
      rw [hw, Option.elim_some] at hqos hretain
      have hflag : decide (c.flags / 32 % 2 = 1) = w.retain := by
        rw [hretain]
        cases w.retain <;> rfl
      rw [if_pos (by rfl), Option.elim_some, encodeWill, List.append_assoc, List.append_assoc,
        readBlock_block hprops]
      simp only [Option.bind_eq_bind, Option.bind_some,
        readStr_str (show w.topic.length < 2 ^ 16 by omega),
        readStr_str (show w.payload.length < 2 ^ 16 by omega), hqos, hflag]
      rfl

theorem readField_encode {flags b : Nat} {s : Option (List UInt8)}
    (hbit : flags / 2 ^ b % 2 = s.isSome.toNat) (hs : ∀ t ∈ s, t.length ≤ 65535)
    (rest : List UInt8) : readField flags b (s.elim [] str ++ rest) = some (s, rest) := by
  rw [readField, hbit]
  cases s with
  | none => rfl
  | some t =>
      have ht := hs t rfl
      rw [if_pos (by rfl), Option.elim_some, readStr_str (by omega)]
      rfl

theorem decode_encode {c : Connect} (h : c.WellFormed) : decode c.encode = some c := by
  obtain ⟨hlt, heven, hclean, hwill, hqos, hretain, hpass, huser⟩ := flags_fields h
  have hbyte : (UInt8.ofNat c.flags).toNat = c.flags := by
    rw [toNat_byte, Nat.mod_eq_of_lt hlt]
  have hid : c.clientId.length < 2 ^ 16 := by
    have := h.clientId_le
    omega
  have halive : c.keepAlive < 2 ^ 16 := by
    have := h.keepAlive_le
    omega
  have hprops : c.properties.length ≤ maxRemainingLength := by
    have := h.body_le
    simp only [body, List.length_append, List.length_cons, length_block] at this
    omega
  have hname : c.protocolName.length < 2 ^ 16 := by
    rw [h.name]
    decide
  have hlegal : c.flags % 2 = 0 ∧ c.flags / 8 % 4 ≤ 2 ∧
      (c.flags / 4 % 2 = 0 → c.flags / 8 % 4 = 0 ∧ c.flags / 32 % 2 = 0) := by
    refine ⟨heven, ?_, ?_⟩
    · rw [hqos]
      cases hw : c.will with
      | none => exact Nat.zero_le 2
      | some w => exact (h.will w hw).qos_le
    · rw [hwill, hqos, hretain]
      cases c.will with
      | none => exact fun _ => ⟨rfl, rfl⟩
      | some w => exact fun hone => absurd hone Nat.one_ne_zero
  have hfields : readWill c.flags (c.will.elim [] encodeWill ++
      (c.userName.elim [] str ++ c.password.elim [] str)) = _ := readWill_encode h _
  have hpassword := readField_encode (b := 6) hpass h.password_le []
  rw [List.append_nil] at hpassword
  rw [decode, encode, unframe_frame 0x10 h.body_le]
  simp only [Option.bind_eq_bind, Option.bind_some, require_true, body,
    readStr_str hname, require_true h.name, readByte, require_true h.version, hbyte,
    require_true hlegal, readU16_be16 halive, readBlock_block hprops, payload,
    readStr_str hid, hfields, readField_encode (b := 7) huser h.userName_le, hpassword,
    hclean, pure]

end Connect

end NucleoMqtt.Spec
