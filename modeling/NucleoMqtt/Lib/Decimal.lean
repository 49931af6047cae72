import NucleoMqtt.Lib.Word

/-!
# Decimal — numbers as ASCII text

`decimal` is what `%i` prints of a number that is not negative, and
`readDecimal` takes it back. A text to be read may have zeros in front.
-/

namespace NucleoMqtt.Lib

def isDigit (c : UInt8) : Bool := 48 ≤ c && c ≤ 57

/-- The decimal text of a number. -/
def decimal (n : Nat) : List UInt8 := (Nat.toDigits 10 n).map Char.toUInt8

/-- The number that digits stand for, behind those worth `n`. -/
def digitsValue (n : Nat) (cs : List UInt8) : Nat :=
  cs.foldl (fun n c => 10 * n + (c.toNat - 48)) n

/-- The number a text of digits stands for. -/
def readDecimal (cs : List UInt8) : Option Nat :=
  if cs ≠ [] ∧ cs.all isDigit then some (digitsValue 0 cs) else none

/-- A digit of a character set is the same digit in ASCII. -/
theorem toUInt8_digit {c : Char} (h : c.isDigit = true) :
    c.toUInt8.toNat = c.toNat ∧ isDigit c.toUInt8 = true := by
  have hrange : 48 ≤ c.toNat ∧ c.toNat ≤ 57 := by
    rwa [Char.isDigit, Bool.and_eq_true, decide_eq_true_iff, decide_eq_true_iff] at h
  have hbyte : c.toUInt8.toNat = c.toNat := by
    show c.toNat % 2 ^ 8 = c.toNat
    omega
  refine ⟨hbyte, ?_⟩
  rw [isDigit, Bool.and_eq_true, decide_eq_true_iff, decide_eq_true_iff]
  constructor
  · show 48 ≤ c.toUInt8.toNat
    omega
  · show c.toUInt8.toNat ≤ 57
    omega

theorem all_isDigit_decimal (n : Nat) : (decimal n).all isDigit = true := by
  rw [decimal, List.all_map, List.all_eq_true]
  intro c hc
  exact (toUInt8_digit (Nat.isDigit_of_mem_toDigits (by decide) (by decide) hc)).2

theorem decimal_ne_nil (n : Nat) : decimal n ≠ [] := by
  rw [decimal, Ne, List.map_eq_nil_iff]
  exact Nat.toDigits_ne_nil

/-- The value of digit characters is that of their bytes. -/
theorem digitsValue_map {cs : List Char} (h : ∀ c ∈ cs, c.isDigit = true) (n : Nat) :
    digitsValue n (cs.map Char.toUInt8) = Nat.ofDigitChars 10 cs n := by
  induction cs generalizing n with
  | nil => rfl
  | cons c cs ih =>
      have hc := (toUInt8_digit (h c List.mem_cons_self)).1
      have hcs := ih fun d hd => h d (List.mem_cons_of_mem c hd)
      rw [List.map_cons, Nat.ofDigitChars_cons, ← hcs, digitsValue, List.foldl_cons, hc]
      rfl

/-- **A number is read back from its text.** -/
theorem readDecimal_decimal (n : Nat) : readDecimal (decimal n) = some n := by
  rw [readDecimal, if_pos ⟨decimal_ne_nil n, all_isDigit_decimal n⟩, decimal, digitsValue_map,
    Nat.ofDigitChars_ten_toDigits]
  intro c hc
  exact Nat.isDigit_of_mem_toDigits (by decide) (by decide) hc

theorem length_decimal_le {n k : Nat} (hk : 0 < k) (h : n < 10 ^ k) : (decimal n).length ≤ k := by
  rw [decimal, List.length_map]
  exact (Nat.length_toDigits_le_iff (by decide) hk).mpr h

/-- The digits of a number, the last one apart. -/
theorem decimal_eq {n : Nat} (h : 10 ≤ n) :
    decimal n = decimal (n / 10) ++ [(n % 10).digitChar.toUInt8] := by
  rw [decimal, Nat.toDigits_of_base_le (by decide) h, List.map_append, decimal]
  rfl

/-- There is no zero in front. -/
theorem decimal_leading {n : Nat} (h : 0 < n) : ∃ d ds, decimal n = d :: ds ∧ d ≠ 48 := by
  induction n using Nat.strongRecOn with
  | ind n ih =>
      rcases Nat.lt_or_ge n 10 with hlt | hge
      · refine ⟨n.digitChar.toUInt8, [], ?_, ?_⟩
        · rw [decimal, Nat.toDigits_of_lt_base hlt]
          rfl
        · have hdigits : ∀ i < 10, 0 < i → i.digitChar.toUInt8 ≠ 48 := by decide
          exact hdigits n hlt h
      · obtain ⟨d, ds, hds, hd⟩ := ih (n / 10) (by omega) (by omega)
        exact ⟨d, ds ++ [(n % 10).digitChar.toUInt8], by rw [decimal_eq hge, hds]; rfl, hd⟩

theorem not_mem_decimal {c : UInt8} (hc : isDigit c = false) (n : Nat) : c ∉ decimal n := by
  intro hmem
  have hdigit := List.all_eq_true.mp (all_isDigit_decimal n) c hmem
  rw [hc] at hdigit
  cases hdigit

end NucleoMqtt.Lib
