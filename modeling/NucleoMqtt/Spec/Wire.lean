import NucleoMqtt.Lib.VarInt

/-!
# Spec — the MQTT v5 wire fields

The field encodings of the protocol and a decoder for each. A decoder
takes the bytes still to be read and answers the value with the bytes
behind it; every decoder comes with the one lemma that composes: it reads
back an encoded value in front of any rest.

`frame` and `unframe` are the fixed header. `unframe` accepts a packet only
when its Remaining Length is minimal and counts exactly the bytes after it.
-/

namespace NucleoMqtt.Spec

open NucleoMqtt.Lib

/-- The largest Remaining Length, four groups of seven bits. -/
def maxRemainingLength : Nat := 268435455

/-! ## Encodings -/

/-- A string or binary field: two-byte length, then the bytes. -/
def str (s : List UInt8) : List UInt8 := be16 s.length ++ s

/-- A property block: its length as a variable byte integer, then its bytes. -/
def block (p : List UInt8) : List UInt8 := VarInt.encode p.length ++ p

/-- A packet: header byte, Remaining Length, body. -/
def frame (header : UInt8) (body : List UInt8) : List UInt8 :=
  header :: (VarInt.encode body.length ++ body)

/-! ## Decoders -/

/-- The next `n` bytes. -/
def takeBytes (n : Nat) (bs : List UInt8) : Option (List UInt8 × List UInt8) :=
  if n ≤ bs.length then some (bs.take n, bs.drop n) else none

/-- A two-byte integer, most significant byte first. -/
def readU16 : List UInt8 → Option (Nat × List UInt8)
  | hi :: lo :: rest => some (256 * hi.toNat + lo.toNat, rest)
  | _ => none

/-- A string or binary field. -/
def readStr (bs : List UInt8) : Option (List UInt8 × List UInt8) :=
  (readU16 bs).bind fun (n, rest) => takeBytes n rest

/-- A property block. -/
def readBlock (bs : List UInt8) : Option (List UInt8 × List UInt8) :=
  (VarInt.decode 4 bs).bind fun (n, rest) => takeBytes n rest

/-- One byte. -/
def readByte : List UInt8 → Option (UInt8 × List UInt8)
  | b :: rest => some (b, rest)
  | [] => none

/-- Items up to the end, each read by `item`. -/
def readAll {α : Type} (item : List UInt8 → Option (α × List UInt8)) :
    Nat → List UInt8 → Option (List α)
  | _, [] => some []
  | 0, _ :: _ => none
  | fuel + 1, b :: bs =>
      (item (b :: bs)).bind fun (a, rest) => (readAll item fuel rest).map (a :: ·)

/-- A four-byte integer, most significant byte first. -/
def readU32 (bs : List UInt8) : Option (Nat × List UInt8) := do
  let (hi, bs) ← readU16 bs
  let (lo, bs) ← readU16 bs
  return (2 ^ 16 * hi + lo, bs)

/-- A number of items known beforehand. -/
def readCounted {α : Type} (item : List UInt8 → Option (α × List UInt8)) :
    Nat → List UInt8 → Option (List α × List UInt8)
  | 0, bs => some ([], bs)
  | n + 1, bs => do
      let (a, bs) ← item bs
      let (as, bs) ← readCounted item n bs
      return (a :: as, bs)

/-- The header byte and the body of a packet that fills `bs` exactly. -/
def unframe : List UInt8 → Option (UInt8 × List UInt8)
  | [] => none
  | header :: rest =>
      match VarInt.decode 4 rest with
      | some (n, body) => if n = body.length then some (header, body) else none
      | none => none

theorem size_le_four {v : Nat} (h : v ≤ maxRemainingLength) : VarInt.size v ≤ 4 :=
  VarInt.size_le_iff.mpr (by simp only [maxRemainingLength] at h; omega)

@[simp] theorem takeBytes_append (s rest : List UInt8) :
    takeBytes s.length (s ++ rest) = some (s, rest) := by
  simp [takeBytes]

theorem readU16_be16 {n : Nat} (h : n < 2 ^ 16) (rest : List UInt8) :
    readU16 (be16 n ++ rest) = some (n, rest) := by
  show some (256 * (UInt8.ofNat (n / 256)).toNat + (UInt8.ofNat (n % 256)).toNat, rest)
    = some (n, rest)
  rw [be16_value h]

theorem readU32_be32 {n : Nat} (h : n < 2 ^ 32) (rest : List UInt8) :
    readU32 (be32 n ++ rest) = some (n, rest) := by
  have hbytes : 2 ^ 16 * (256 * (UInt8.ofNat (n / 2 ^ 24)).toNat
      + (UInt8.ofNat (n / 2 ^ 16 % 256)).toNat)
      + (256 * (UInt8.ofNat (n / 2 ^ 8 % 256)).toNat + (UInt8.ofNat (n % 256)).toNat) = n := by
    simp only [toNat_byte]
    omega
  show some (_, rest) = some (n, rest)
  rw [hbytes]

theorem readStr_str {s : List UInt8} (h : s.length < 2 ^ 16) (rest : List UInt8) :
    readStr (str s ++ rest) = some (s, rest) := by
  simp [readStr, str, List.append_assoc, readU16_be16 h]

theorem readBlock_block {p : List UInt8} (h : p.length ≤ maxRemainingLength)
    (rest : List UInt8) : readBlock (block p ++ rest) = some (p, rest) := by
  simp [readBlock, block, List.append_assoc, VarInt.decode_encode (size_le_four h)]

theorem unframe_frame (header : UInt8) {body : List UInt8}
    (h : body.length ≤ maxRemainingLength) :
    unframe (frame header body) = some (header, body) := by
  simp [unframe, frame, VarInt.decode_encode (size_le_four h)]

/-- Reading back a sequence of encoded items. -/
theorem readAll_flatMap {α : Type} {item : List UInt8 → Option (α × List UInt8)}
    {enc : α → List UInt8} {as : List α} {fuel : Nat}
    (hread : ∀ a ∈ as, ∀ rest, item (enc a ++ rest) = some (a, rest))
    (hne : ∀ a, enc a ≠ []) (hfuel : as.length ≤ fuel) :
    readAll item fuel (as.flatMap enc) = some as := by
  induction as generalizing fuel with
  | nil => rw [List.flatMap_nil, readAll]
  | cons a as ih =>
      cases fuel with
      | zero => simp at hfuel
      | succ fuel =>
          have ha := hread a List.mem_cons_self (as.flatMap enc)
          have has := ih (fun c hc => hread c (List.mem_cons_of_mem a hc))
            (Nat.le_of_succ_le_succ hfuel)
          rw [List.flatMap_cons]
          cases henc : enc a with
          | nil => exact absurd henc (hne a)
          | cons b bs =>
              rw [henc, List.cons_append] at ha
              rw [List.cons_append, readAll, ha, Option.bind_some]
              show (readAll item fuel (as.flatMap enc)).map (a :: ·) = some (a :: as)
              rw [has]
              rfl

/-- Reading back a known number of encoded items in front of any rest. -/
theorem readCounted_flatMap {α : Type} {item : List UInt8 → Option (α × List UInt8)}
    {enc : α → List UInt8} {as : List α}
    (hread : ∀ a ∈ as, ∀ rest, item (enc a ++ rest) = some (a, rest)) (rest : List UInt8) :
    readCounted item as.length (as.flatMap enc ++ rest) = some (as, rest) := by
  induction as with
  | nil => rfl
  | cons a as ih =>
      have ha := hread a List.mem_cons_self (as.flatMap enc ++ rest)
      have has := ih fun c hc => hread c (List.mem_cons_of_mem a hc)
      rw [List.flatMap_cons, List.append_assoc, List.length_cons, readCounted]
      simp only [ha, has, Option.bind_eq_bind, Option.bind_some, pure]

theorem length_le_flatMap {α : Type} {enc : α → List UInt8} (hne : ∀ a, enc a ≠ []) (as : List α) :
    as.length ≤ (as.flatMap enc).length := by
  induction as with
  | nil => exact Nat.le_refl 0
  | cons a as ih =>
      have := List.length_pos_iff.mpr (hne a)
      rw [List.flatMap_cons, List.length_append, List.length_cons]
      omega

@[simp] theorem length_str (s : List UInt8) : (str s).length = s.length + 2 := by
  simp [str]
  omega

@[simp] theorem length_block (p : List UInt8) :
    (block p).length = VarInt.size p.length + p.length := by
  simp [block]

@[simp] theorem length_frame (header : UInt8) (body : List UInt8) :
    (frame header body).length = 1 + VarInt.size body.length + body.length := by
  simp [frame]
  omega

/-- The client's `int` holds the length of every frame. -/
theorem length_frame_lt (header : UInt8) {body : List UInt8}
    (h : body.length ≤ maxRemainingLength) : (frame header body).length < 2 ^ 31 := by
  have hsize := size_le_four h
  simp only [maxRemainingLength] at h
  rw [length_frame]
  omega

end NucleoMqtt.Spec
