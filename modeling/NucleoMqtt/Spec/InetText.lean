import NucleoMqtt.Spec.Ipv4

/-!
# Spec — the texts of `inet_addr`

More texts than the dotted quad stand for an address. One to four numbers
with dots between them are taken, each in one of three radices, and the last
of them fills all the bytes that the others leave. A numeral is as long as
it likes: what counts is its value in 32 bits. Behind a blank anything may
follow.
-/

namespace NucleoMqtt.Spec

open NucleoMqtt.Lib

/-! ## Numerals -/

/-- The letters `a` to `f`. -/
def isHexLower (c : UInt8) : Bool := 97 ≤ c && c ≤ 102

/-- The letters `A` to `F`. -/
def isHexUpper (c : UInt8) : Bool := 65 ≤ c && c ≤ 70

/-- The characters that may end an address. -/
def isBlank (c : UInt8) : Bool := c = 32 || (9 ≤ c && c ≤ 13)

inductive Radix where
  | decimal
  | octal
  | hex (upper : Bool)
deriving DecidableEq

namespace Radix

def base : Radix → Nat
  | decimal => 10
  | octal => 8
  | hex _ => 16

/-- What stands in front of the digits. -/
def mark : Radix → List UInt8
  | decimal => []
  | octal => [48]
  | hex false => [48, 120]
  | hex true => [48, 88]

/-- The characters taken for digits. An octal number may have the digits 8
and 9. -/
def takes : Radix → UInt8 → Bool
  | hex _, c => isDigit c || isHexLower c || isHexUpper c
  | _, c => isDigit c

end Radix

/-- The value of a digit. -/
def digitValue (c : UInt8) : Nat :=
  if isDigit c then c.toNat - 48 else if isHexLower c then c.toNat - 87 else c.toNat - 55

/-- The value of digits, behind those worth `n`. -/
def Radix.value (r : Radix) (n : Nat) (digits : List UInt8) : Nat :=
  digits.foldl (fun n c => r.base * n + digitValue c) n

/-- A number as it is written. -/
structure Numeral where
  radix : Radix
  digits : List UInt8
  taken : digits.all radix.takes = true
  /-- a decimal number has a digit, and no zero in front -/
  leading : radix = .decimal → ∃ d ds, digits = d :: ds ∧ d ≠ 48

namespace Numeral

def text (n : Numeral) : List UInt8 := n.radix.mark ++ n.digits

def value (n : Numeral) : Nat := n.radix.value 0 n.digits

/-- The value in 32 bits. -/
def word (n : Numeral) : UInt32 := UInt32.ofNat n.value

/-- What may stand behind a numeral without being taken for a part of it. -/
def Ends (n : Numeral) (rest : List UInt8) : Prop :=
  ∀ c ∈ rest.head?, n.radix.takes c = false ∧ c ≠ 120 ∧ c ≠ 88

/-- Nothing is taken for a part of it that separates numbers or ends them. -/
theorem ends_of_dot {n : Numeral} {rest : List UInt8} : n.Ends (46 :: rest) := by
  rintro c ⟨⟩
  cases hr : n.radix <;> exact ⟨rfl, by decide, by decide⟩

theorem takes_blank (r : Radix) {c : UInt8} (hc : isBlank c = true) :
    r.takes c = false ∧ c ≠ 120 ∧ c ≠ 88 := by
  have hlt : c.toNat < 33 := by
    rw [isBlank, Bool.or_eq_true, Bool.and_eq_true, decide_eq_true_iff, decide_eq_true_iff,
      decide_eq_true_iff] at hc
    rcases hc with rfl | ⟨-, hc⟩
    · decide
    · exact Nat.lt_of_le_of_lt hc (by decide)
  refine byte_lt_induction (p := fun c => r.takes c = false ∧ c ≠ 120 ∧ c ≠ 88) ?_ hlt
  cases r with
  | decimal | octal => decide
  | hex upper => cases upper <;> decide

theorem ends_of_blank {n : Numeral} {rest : List UInt8} (h : ∀ c ∈ rest.head?, isBlank c = true) :
    n.Ends rest := fun c hc => takes_blank n.radix (h c hc)

/-- The numeral of a byte in decimal; a zero counts as octal. -/
def octet (b : UInt8) : Numeral :=
  if h : b = 0 then
    { radix := .octal, digits := [], taken := rfl, leading := by rintro ⟨⟩ }
  else
    { radix := .decimal, digits := decimal b.toNat, taken := all_isDigit_decimal _,
      leading := fun _ => decimal_leading (Nat.pos_of_ne_zero fun hzero =>
        h (UInt8.toNat_inj.mp hzero)) }

theorem octet_text (b : UInt8) : (octet b).text = decimal b.toNat := by
  by_cases h : b = 0
  · rw [octet, dif_pos h, h]
    rfl
  · rw [octet, dif_neg h]
    rfl

/-- The value of digits is what they read as. -/
theorem value_decimal {cs : List UInt8} (h : cs.all isDigit = true) (n : Nat) :
    Radix.decimal.value n cs = digitsValue n cs := by
  induction cs generalizing n with
  | nil => rfl
  | cons c cs ih =>
      rw [List.all_cons, Bool.and_eq_true] at h
      rw [Radix.value, List.foldl_cons, digitsValue, List.foldl_cons, digitValue, if_pos h.1]
      exact ih h.2 _

theorem octet_value (b : UInt8) : (octet b).value = b.toNat := by
  by_cases h : b = 0
  · rw [octet, dif_pos h, h]
    rfl
  · rw [octet, dif_neg h, value, value_decimal (all_isDigit_decimal _)]
    have hread := readDecimal_decimal b.toNat
    rw [readDecimal, if_pos ⟨decimal_ne_nil _, all_isDigit_decimal _⟩] at hread
    exact Option.some.inj hread

theorem octet_word (b : UInt8) : (octet b).word.toNat = b.toNat := by
  rw [word, octet_value, UInt32.toNat_ofNat']
  exact Nat.mod_eq_of_lt (Nat.lt_trans b.toNat_lt (by decide))

end Numeral

/-! ## Addresses -/

/-- Bytes in front of `n`, the first one on top. -/
def stacked (n : Nat) (ns : List Nat) : Nat := ns.foldl (fun v n => 256 * v + n) n

theorem stacked_lt {ns : List Nat} (h : ∀ n ∈ ns, n < 256) (k : Nat) :
    stacked k ns < (k + 1) * 256 ^ ns.length := by
  induction ns generalizing k with
  | nil => exact Nat.lt_of_lt_of_eq (Nat.lt_succ_self k) (Nat.mul_one _).symm
  | cons n ns ih =>
      have hn : n < 256 := h n List.mem_cons_self
      calc stacked k (n :: ns) = stacked (256 * k + n) ns := rfl
        _ < (256 * k + n + 1) * 256 ^ ns.length :=
          ih (fun m hm => h m (List.mem_cons_of_mem n hm)) _
        _ ≤ ((k + 1) * 256) * 256 ^ ns.length := Nat.mul_le_mul_right _ (by omega)
        _ = (k + 1) * 256 ^ (n :: ns).length := by
          rw [List.length_cons, Nat.pow_succ', Nat.mul_assoc]

/-- An address as it is written. -/
structure InetText where
  front : List Numeral
  last : Numeral
  tail : List UInt8
  short : front.length ≤ 3
  octets : ∀ n ∈ front, n.word.toNat < 256
  room : last.word.toNat < 256 ^ (4 - front.length)
  blank : ∀ c ∈ tail.head?, isBlank c = true

namespace InetText

def text (t : InetText) : List UInt8 :=
  t.front.flatMap (fun n => n.text ++ [46]) ++ t.last.text ++ t.tail

/-- The numbers in front are the upper bytes, the last one is the rest. -/
def value (t : InetText) : Nat :=
  stacked 0 (t.front.map fun n => n.word.toNat) * 256 ^ (4 - t.front.length) + t.last.word.toNat

/-- It is a value of 32 bits. -/
theorem value_lt (t : InetText) : t.value < 2 ^ 32 := by
  have hfront : ∀ n ∈ t.front.map fun n => n.word.toNat, n < 256 := by
    intro n hn
    obtain ⟨m, hm, rfl⟩ := List.mem_map.mp hn
    exact t.octets m hm
  have hstack := stacked_lt hfront 0
  rw [List.length_map, Nat.zero_add, Nat.one_mul] at hstack
  have hshort := t.short
  calc t.value
      < (stacked 0 (t.front.map fun n => n.word.toNat) + 1) * 256 ^ (4 - t.front.length) := by
        rw [value, Nat.succ_mul]
        exact Nat.add_lt_add_left t.room _
    _ ≤ 256 ^ t.front.length * 256 ^ (4 - t.front.length) := Nat.mul_le_mul_right _ hstack
    _ = 256 ^ 4 := by rw [← Nat.pow_add, Nat.add_sub_cancel' (by omega)]

/-- The dotted quad of four bytes. -/
def quad (a b c d : UInt8) : InetText where
  front := [.octet a, .octet b, .octet c]
  last := .octet d
  tail := []
  short := Nat.le_refl 3
  octets := by
    intro n hn
    simp only [List.mem_cons, List.not_mem_nil, or_false] at hn
    rcases hn with rfl | rfl | rfl <;> rw [Numeral.octet_word] <;> exact UInt8.toNat_lt _
  room := by
    rw [Numeral.octet_word]
    exact d.toNat_lt
  blank := by rintro c ⟨⟩

theorem quad_text (a b c d : UInt8) : (quad a b c d).text = Ipv4.text [a, b, c, d] := by
  simp only [text, quad, List.flatMap_cons, List.flatMap_nil, Numeral.octet_text,
    Ipv4.text_quad, List.append_assoc, List.append_nil]

theorem quad_value (a b c d : UInt8) : (quad a b c d).value
    = a.toNat * 2 ^ 24 + b.toNat * 2 ^ 16 + c.toNat * 2 ^ 8 + d.toNat := by
  have hlen : 4 - (quad a b c d).front.length = 1 := rfl
  rw [value, hlen]
  simp only [quad, List.map_cons, List.map_nil, Numeral.octet_word, stacked, List.foldl_cons,
    List.foldl_nil]
  omega

end InetText

end NucleoMqtt.Spec
