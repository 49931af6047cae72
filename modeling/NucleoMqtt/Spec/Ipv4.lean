import NucleoMqtt.Lib.Decimal

/-!
# Spec — the text of an IPv4 address

A dotted quad is four decimal numbers up to 255 with dots between them.
`text` writes the four bytes of an address so, with no zeros in front, and
takes at most 15 characters. `read` takes any dotted quad.
-/

namespace NucleoMqtt.Spec.Ipv4

open NucleoMqtt.Lib

/-- The text of the bytes of an address. -/
def text (ip : List UInt8) : List UInt8 := [46].intercalate (ip.map fun b => decimal b.toNat)

/-- One number of a dotted quad. -/
def readOctet (cs : List UInt8) : Option UInt8 :=
  (readDecimal cs).bind fun n => if n < 256 then some (UInt8.ofNat n) else none

/-- The bytes of an address from its text. -/
def read (cs : List UInt8) : Option (List UInt8) :=
  if (cs.splitOn 46).length = 4 then (cs.splitOn 46).mapM readOctet else none

theorem readOctet_decimal (b : UInt8) : readOctet (decimal b.toNat) = some b := by
  rw [readOctet, readDecimal_decimal, Option.bind_some, if_pos b.toNat_lt, UInt8.ofNat_toNat]

theorem mapM_readOctet (ip : List UInt8) :
    (ip.map fun b => decimal b.toNat).mapM readOctet = some ip := by
  induction ip with
  | nil => rfl
  | cons b ip ih =>
      rw [List.map_cons, List.mapM_cons, readOctet_decimal, ih]
      rfl

theorem splitOn_text {ip : List UInt8} (h : ip ≠ []) :
    (text ip).splitOn 46 = ip.map fun b => decimal b.toNat := by
  refine List.splitOn_intercalate 46 ?_ (by simpa using h)
  intro cs hcs
  obtain ⟨b, -, rfl⟩ := List.mem_map.mp hcs
  exact not_mem_decimal rfl _

/-- **An address is read back from its text.** -/
theorem read_text {ip : List UInt8} (h : ip.length = 4) : read (text ip) = some ip := by
  have hsplit := splitOn_text (List.ne_nil_of_length_pos (by omega : 0 < ip.length))
  rw [read, hsplit, List.length_map, if_pos h, mapM_readOctet]

theorem text_inj {ip ip' : List UInt8} (h : ip.length = 4) (h' : ip'.length = 4)
    (heq : text ip = text ip') : ip = ip' := by
  have hread := read_text h
  rw [heq, read_text h'] at hread
  exact (Option.some.inj hread).symm

/-- The characters of a text put together with dots. -/
theorem mem_of_mem_intercalate {c : UInt8} {parts : List (List UInt8)} (hc : c ≠ 46)
    (h : c ∈ [46].intercalate parts) : ∃ part ∈ parts, c ∈ part := by
  induction parts with
  | nil => cases h
  | cons part parts ih =>
      cases parts with
      | nil =>
          rw [List.intercalate_singleton] at h
          exact ⟨part, List.mem_cons_self, h⟩
      | cons part' parts =>
          rw [List.intercalate_cons_cons, List.append_assoc, List.mem_append, List.mem_append,
            List.mem_singleton] at h
          rcases h with h | h | h
          · exact ⟨part, List.mem_cons_self, h⟩
          · exact absurd h hc
          · obtain ⟨q, hq, hcq⟩ := ih h
            exact ⟨q, List.mem_cons_of_mem part hq, hcq⟩

theorem not_mem_text {ip : List UInt8} : 0 ∉ text ip := by
  intro h
  obtain ⟨part, hpart, hzero⟩ := mem_of_mem_intercalate (by decide) h
  obtain ⟨b, -, rfl⟩ := List.mem_map.mp hpart
  exact not_mem_decimal rfl _ hzero

theorem text_quad (a b c d : UInt8) :
    text [a, b, c, d] = decimal a.toNat ++ [46] ++ (decimal b.toNat ++ [46]
      ++ (decimal c.toNat ++ [46] ++ decimal d.toNat)) := by
  rw [text, List.map_cons, List.map_cons, List.map_cons, List.map_cons, List.map_nil,
    List.intercalate_cons_cons, List.intercalate_cons_cons, List.intercalate_cons_cons,
    List.intercalate_singleton]

theorem length_text_quad (a b c d : UInt8) : (text [a, b, c, d]).length ≤ 15 := by
  have hbyte (x : UInt8) : (decimal x.toNat).length ≤ 3 :=
    length_decimal_le (by decide) (Nat.lt_trans x.toNat_lt (by decide))
  have := hbyte a
  have := hbyte b
  have := hbyte c
  have := hbyte d
  rw [text_quad]
  simp only [List.length_append, List.length_singleton]
  omega

end NucleoMqtt.Spec.Ipv4
