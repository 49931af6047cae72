import Mathlib.Algebra.Group.Int.Defs
import Mathlib.Algebra.Group.Nat.Defs

/-!
# Word — 32-bit and 8-bit machine arithmetic on `Nat`

A `size_t` of a 32-bit target is a `Nat` below `2 ^ 32`; its sums and
differences wrap. An unsigned `char` is a `UInt8`, and storing an integer
in one keeps its low eight bits, which is `UInt8.ofNat`.
-/

namespace NucleoMqtt.Lib

/-- `a + b` on `size_t`. -/
def wadd (a b : Nat) : Nat := (a + b) % 2 ^ 32

/-- `a - b` on `size_t`. -/
def wsub (a b : Nat) : Nat := (a + (2 ^ 32 - b % 2 ^ 32)) % 2 ^ 32

theorem wadd_of_lt {a b : Nat} (h : a + b < 2 ^ 32) : wadd a b = a + b :=
  Nat.mod_eq_of_lt h

theorem wsub_of_le {a b : Nat} (ha : a < 2 ^ 32) (h : b ≤ a) : wsub a b = a - b := by
  unfold wsub
  omega

theorem wsub_of_gt {a b : Nat} (hb : b < 2 ^ 32) (h : a < b) :
    wsub a b = 2 ^ 32 - (b - a) := by
  unfold wsub
  omega

/-- Successive differences add up: `a - b - c` is `a - (b + c)`. -/
theorem wsub_wsub (a b c : Nat) : wsub (wsub a b) c = wsub a (b + c) := by
  unfold wsub
  omega

@[simp] theorem toNat_byte (n : Nat) : (UInt8.ofNat n).toNat = n % 256 :=
  UInt8.toNat_ofNat'

/-- A natural number is stored in a byte as it is when it comes as an `int`. -/
theorem byte_ofInt (n : Nat) : UInt8.ofInt (n : Int) = UInt8.ofNat n := by
  apply UInt8.toNat_inj.mp
  have hmod : ((n : Int) % 2 ^ 8).toNat = n % 256 := by omega
  rw [UInt8.ofInt, hmod, toNat_byte, toNat_byte, Nat.mod_mod]

/-- Setting the top bit of a seven-bit value adds 128. -/
theorem byte_or_128 {n : Nat} (h : n < 128) :
    UInt8.ofNat n ||| 128 = UInt8.ofNat (n + 128) := by
  apply UInt8.toNat_inj.mp
  rw [UInt8.toNat_or, toNat_byte, toNat_byte, Nat.mod_eq_of_lt (by omega),
    Nat.mod_eq_of_lt (by omega)]
  have := Nat.two_pow_add_eq_or_of_lt (i := 7) h 1
  rw [Nat.or_comm]
  simpa [Nat.add_comm] using this.symm

/-- The top bit of a byte tells whether its value is below 128. -/
theorem byte_and_128 (b : UInt8) : b &&& 128 ≠ 0 ↔ 128 ≤ b.toNat := by
  have hval : (b &&& 128).toNat = b.toNat / 128 * 128 := by
    rw [UInt8.toNat_and]
    have h : ∀ i : Fin 256, i.val &&& 128 = i.val / 128 * 128 := by decide +kernel
    exact h ⟨b.toNat, b.toNat_lt⟩
  have := b.toNat_lt
  rw [Ne, ← UInt8.toNat_inj, hval]
  simp only [UInt8.toNat_ofNat, Nat.zero_mod]
  omega

/-- The upper nibble of a byte, in place. -/
theorem byte_and_240 (b : UInt8) : (b &&& 0xF0).toNat = b.toNat / 16 * 16 := by
  rw [UInt8.toNat_and]
  have h : ∀ i : Fin 256, i.val &&& 240 = i.val / 16 * 16 := by decide +kernel
  exact h ⟨b.toNat, b.toNat_lt⟩

/-- A property of the bytes below `n`, byte by byte. -/
theorem byte_lt_induction {p : UInt8 → Prop} {n : Nat} (h : ∀ i < n, p (UInt8.ofNat i))
    {b : UInt8} (hb : b.toNat < n) : p b := by
  rw [← @UInt8.ofNat_toNat b]
  exact h b.toNat hb

/-! ## Fields of a register -/

/-- A field of `w` bits at position `p`, read under a mask that keeps it. -/
theorem masked_field {res mask p w : Nat} (x : Nat) (h : res &&& mask = (2 ^ w - 1) <<< p) :
    ((x &&& res) &&& mask) >>> p = x / 2 ^ p % 2 ^ w := by
  rw [Nat.and_assoc, h, Nat.shiftRight_and_distrib, Nat.shiftLeft_shiftRight,
    Nat.and_two_pow_sub_one_eq_mod, Nat.shiftRight_eq_div_pow]

/-- Side by side, or and sum are the same. -/
theorem shiftLeft_or {a b p : Nat} (h : b < 2 ^ p) : a <<< p ||| b = 2 ^ p * a + b := by
  rw [← Nat.shiftLeft_add_eq_or_of_lt h, Nat.shiftLeft_eq, Nat.mul_comm]

/-! ## Big-endian integers -/

/-- A 16-bit value, most significant byte first. -/
def be16 (n : Nat) : List UInt8 := [UInt8.ofNat (n / 256), UInt8.ofNat (n % 256)]

@[simp] theorem length_be16 (n : Nat) : (be16 n).length = 2 := rfl

theorem be16_value {n : Nat} (h : n < 2 ^ 16) :
    256 * (UInt8.ofNat (n / 256)).toNat + (UInt8.ofNat (n % 256)).toNat = n := by
  simp only [toNat_byte]
  omega

/-- A 32-bit value, most significant byte first. -/
def be32 (n : Nat) : List UInt8 :=
  [UInt8.ofNat (n / 2 ^ 24), UInt8.ofNat (n / 2 ^ 16 % 256), UInt8.ofNat (n / 2 ^ 8 % 256),
    UInt8.ofNat (n % 256)]

end NucleoMqtt.Lib
