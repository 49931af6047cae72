import NucleoMqtt.Lib.Word

/-!
# VarInt — variable byte integers

A number as groups of seven bits, lowest group first, one group a byte;
every byte but the last has its top bit set. `encode` writes the shortest
form, `decode` reads it back and refuses longer ones, and `width` finds the
end of a variable byte integer without looking at its value.
-/

namespace NucleoMqtt.Lib.VarInt

/-- The number of seven-bit groups of `v`, at least one. -/
def size (v : Nat) : Nat := if v < 128 then 1 else size (v / 128) + 1
termination_by v
decreasing_by omega

/-- The shortest encoding of `v`. -/
def encode (v : Nat) : List UInt8 :=
  if v < 128 then [UInt8.ofNat v]
  else UInt8.ofNat (v % 128 + 128) :: encode (v / 128)
termination_by v
decreasing_by omega

/-- The value encoded in at most `fuel` bytes at the front, and the bytes
behind it. A zero group behind a continuation bit is not minimal. -/
def decode : Nat → List UInt8 → Option (Nat × List UInt8)
  | 0, _ => none
  | _ + 1, [] => none
  | fuel + 1, b :: rest =>
      if b.toNat < 128 then some (b.toNat, rest)
      else
        match decode fuel rest with
        | some (m, tail) =>
            if m = 0 then none else some (b.toNat - 128 + 128 * m, tail)
        | none => none

/-- How many bytes the variable byte integer at the front takes. -/
def width : List UInt8 → Option Nat
  | [] => none
  | b :: rest => if b.toNat < 128 then some 1 else (width rest).map (· + 1)

theorem size_small {v : Nat} (h : v < 128) : size v = 1 := by
  rw [size, if_pos h]

theorem size_big {v : Nat} (h : 128 ≤ v) : size v = size (v / 128) + 1 := by
  rw [size, if_neg (by omega)]

theorem encode_small {v : Nat} (h : v < 128) : encode v = [UInt8.ofNat v] := by
  rw [encode, if_pos h]

theorem encode_big {v : Nat} (h : 128 ≤ v) :
    encode v = UInt8.ofNat (v % 128 + 128) :: encode (v / 128) := by
  rw [encode, if_neg (by omega)]

/-- The shortest encoding of a number above 0 does not start with a zero byte. -/
theorem encode_head {v : Nat} (h : 0 < v) : ∃ c rest, encode v = c :: rest ∧ c ≠ 0 := by
  have hbyte {n : Nat} (hpos : 0 < n) (hlt : n < 256) : UInt8.ofNat n ≠ 0 := by
    intro hzero
    have hval := congrArg UInt8.toNat hzero
    rw [toNat_byte, Nat.mod_eq_of_lt hlt] at hval
    exact Nat.ne_of_gt hpos hval
  rcases Nat.lt_or_ge v 128 with hv | hv
  · exact ⟨_, [], encode_small hv, hbyte h (by omega)⟩
  · exact ⟨_, _, encode_big hv, hbyte (by omega) (by omega)⟩

theorem size_pos (v : Nat) : 0 < size v := by
  rw [size]
  split <;> omega

/-- `k` groups hold exactly the values below `128 ^ k`. -/
theorem size_le_iff {v k : Nat} : size v ≤ k + 1 ↔ v < 128 ^ (k + 1) := by
  induction k generalizing v with
  | zero =>
      rcases Nat.lt_or_ge v 128 with h | h
      · simp [size_small h, h]
      · have := size_pos (v / 128)
        rw [size_big h]
        omega
  | succ k ih =>
      rcases Nat.lt_or_ge v 128 with h | h
      · have : 128 ≤ 128 ^ (k + 1 + 1) := by
          calc 128 = 128 ^ 1 := rfl
            _ ≤ 128 ^ (k + 1 + 1) := Nat.pow_le_pow_right (by decide) (by omega)
        rw [size_small h]
        omega
      · rw [size_big h, Nat.pow_succ, ← Nat.div_lt_iff_lt_mul (by decide)]
        have := @ih (v / 128)
        omega

@[simp] theorem length_encode (v : Nat) : (encode v).length = size v := by
  induction v using Nat.strongRecOn with
  | ind v ih =>
      rcases Nat.lt_or_ge v 128 with h | h
      · simp [encode_small h, size_small h]
      · simp [encode_big h, size_big h, ih (v / 128) (by omega)]

/-- Reading back the shortest encoding, whatever follows it. -/
theorem decode_encode {v fuel : Nat} (h : size v ≤ fuel) (rest : List UInt8) :
    decode fuel (encode v ++ rest) = some (v, rest) := by
  induction fuel generalizing v with
  | zero =>
      have := size_pos v
      omega
  | succ fuel ih =>
      rcases Nat.lt_or_ge v 128 with hv | hv
      · simp [encode_small hv, decode, Nat.mod_eq_of_lt (show v < 256 by omega), hv]
      · have hbyte : (UInt8.ofNat (v % 128 + 128)).toNat = v % 128 + 128 := by
          rw [toNat_byte]
          omega
        rw [size_big hv] at h
        rw [encode_big hv, List.cons_append, decode, hbyte, if_neg (by omega),
          ih (by omega)]
        have hne : ¬ v / 128 = 0 := by omega
        simp only [hne, if_false]
        congr 2
        omega

/-- The end of an encoding is where `width` finds it. -/
theorem width_encode (v : Nat) (rest : List UInt8) :
    width (encode v ++ rest) = some (size v) := by
  induction v using Nat.strongRecOn with
  | ind v ih =>
      rcases Nat.lt_or_ge v 128 with h | h
      · simp [encode_small h, size_small h, width,
          Nat.mod_eq_of_lt (show v < 256 by omega), h]
      · have hbyte : ¬ (UInt8.ofNat (v % 128 + 128)).toNat < 128 := by
          rw [toNat_byte]
          omega
        rw [encode_big h, List.cons_append, width, if_neg hbyte,
          ih (v / 128) (by omega), size_big h]
        rfl

theorem width_pos {bs : List UInt8} {n : Nat} (h : width bs = some n) : 0 < n := by
  cases bs with
  | nil => cases h
  | cons b rest =>
      rw [width] at h
      split at h
      · cases h
        decide
      · cases hw : width rest with
        | none => simp [hw] at h
        | some m =>
            rw [hw] at h
            cases h
            exact Nat.succ_pos m

theorem width_le {bs : List UInt8} {n : Nat} (h : width bs = some n) :
    n ≤ bs.length := by
  induction bs generalizing n with
  | nil => cases h
  | cons b rest ih =>
      rw [width] at h
      split at h
      · cases h
        simp
      · cases hw : width rest with
        | none => simp [hw] at h
        | some m =>
            rw [hw] at h
            cases h
            simpa using ih hw

/-- A width found in a prefix is not changed by what follows. -/
theorem width_append {bs : List UInt8} {n : Nat} (h : width bs = some n)
    (rest : List UInt8) : width (bs ++ rest) = some n := by
  induction bs generalizing n with
  | nil => cases h
  | cons b bs ih =>
      rw [List.cons_append, width]
      rw [width] at h
      split at h
      · rename_i hb
        rw [if_pos hb, h]
      · rename_i hb
        cases hw : width bs with
        | none => simp [hw] at h
        | some m =>
            rw [hw] at h
            rw [if_neg hb, ih hw]
            exact h

/-- A width that fits a prefix is found in the prefix. -/
theorem width_of_append {bs rest : List UInt8} {n : Nat} (h : width (bs ++ rest) = some n)
    (hn : n ≤ bs.length) : width bs = some n := by
  induction bs generalizing n with
  | nil =>
      have := width_pos h
      simp at hn
      omega
  | cons b bs ih =>
      rw [List.cons_append, width] at h
      rw [width]
      split at h
      · rename_i hb
        rw [if_pos hb, h]
      · rename_i hb
        cases hw : width (bs ++ rest) with
        | none => simp [hw] at h
        | some m =>
            rw [hw] at h
            cases h
            rw [if_neg hb, ih hw (by simpa using hn)]
            rfl

end NucleoMqtt.Lib.VarInt
