import NucleoMqtt.Lib.Block
import NucleoMqtt.Lib.Word

/-!
# Net — the DNS query

`dns_client.c`, `DNS_Request` up to the call of `UDP_Request`. A host name
of digits and dots is taken for an address and not resolved. Otherwise the
packet is allocated and filled: header, name, type, class. Three indices
run through the name loop, `i` over the host name, `k` over the packet, and
`j`, first the length of a label and then the position of its last byte.

The host name is its array, the NUL included, so a read behind the NUL is a
read outside the array and answers `none`. The indices are `int`s that stay
below the size of an object in memory.
-/

namespace NucleoMqtt.Net

open NucleoMqtt.Lib

def HOST_START : Nat := 12
def DNS_PACKET_MIN_SIZE : Nat := 17

/-- The characters of an IPv4 address: the digits, `.` and the NUL. -/
def isIpaddrChar (c : UInt8) : Bool := (48 ≤ c && c ≤ 57) || c = 46 || c = 0

/-- `hostname_is_ipaddr`, after its loop. -/
def hostnameIsIpaddr (hostname : List UInt8) (len : Nat) : Option Bool :=
  forLoop (fun i flag => do
    let c ← hostname[i]?
    return if isIpaddrChar c then flag else false) 0 len true

/-- `while((hostname[i + j] != '.') && (hostname[i + j] != 0)) j++;` -/
def labelLength (hostname : List UInt8) (i j : Nat) : Option Nat :=
  match _h : hostname[i + j]? with
  | none => none
  | some c => if c ≠ 46 ∧ c ≠ 0 then labelLength hostname i (j + 1) else some j
termination_by hostname.length - (i + j)
decreasing_by
  have := (List.getElem?_eq_some_iff.mp _h).1
  omega

/-- The packet under construction, with the positions in host name and
packet. -/
structure Cursor (n : Nat) where
  packet : Block UInt8 n
  i : Nat
  k : Nat

/-- `for(; k <= j; k++) { DNS_REQUEST[k] = hostname[i]; i++; }` -/
def copyLabel {n : Nat} (hostname : List UInt8) (c : Cursor n) (j : Nat) : Option (Cursor n) :=
  if _h : c.k ≤ j then
    (hostname[c.i]?).bind fun a =>
      (c.packet.store c.k a).bind fun b => copyLabel hostname ⟨b, c.i + 1, c.k + 1⟩ j
  else some c
termination_by j + 1 - c.k

/-- One pass of the name loop. -/
def encodeLabel {n : Nat} (hostname : List UInt8) (len : Nat) (c : Cursor n) :
    Option (Cursor n) := do
  let j ← labelLength hostname c.i 0
  let b ← c.packet.store c.k (UInt8.ofNat j)
  let j := j + c.k
  let c ← copyLabel hostname ⟨b, c.i, c.k + 1⟩ j
  -- the dot, or the final NUL
  let i := c.i + 1
  if i = len then
    let b ← c.packet.store c.k 0
    return ⟨b, i, c.k⟩
  else return ⟨c.packet, i, c.k⟩

theorem copyLabel_i {n : Nat} {hostname : List UInt8} {c d : Cursor n} {j : Nat}
    (h : copyLabel hostname c j = some d) : c.i ≤ d.i := by
  induction hm : j + 1 - c.k generalizing c with
  | zero =>
      rw [copyLabel, dif_neg (by omega)] at h
      cases h
      exact Nat.le_refl _
  | succ m ih =>
      rw [copyLabel, dif_pos (by omega)] at h
      obtain ⟨a, -, h⟩ := Option.bind_eq_some_iff.mp h
      obtain ⟨b, -, h⟩ := Option.bind_eq_some_iff.mp h
      have hle : c.i + 1 ≤ d.i := ih h (by show j + 1 - (c.k + 1) = m; omega)
      omega

/-- Every pass moves on in the host name. -/
theorem encodeLabel_i {n : Nat} {hostname : List UInt8} {len : Nat} {c d : Cursor n}
    (h : encodeLabel hostname len c = some d) : c.i < d.i := by
  simp only [encodeLabel, Option.bind_eq_bind, Option.bind_eq_some_iff] at h
  obtain ⟨j, -, b, -, e, he, h⟩ := h
  have hle : c.i ≤ e.i := by
    have hcopy := copyLabel_i he
    exact hcopy
  split at h
  · obtain ⟨b', -, h⟩ := Option.bind_eq_some_iff.mp h
    cases h
    exact Nat.lt_succ_of_le hle
  · cases h
    exact Nat.lt_succ_of_le hle

/-- `do { … } while(i < len);` -/
def encodeName {n : Nat} (hostname : List UInt8) (len : Nat) (c : Cursor n) :
    Option (Cursor n) :=
  match _h : encodeLabel hostname len c with
  | none => none
  | some d => if _hi : d.i < len then encodeName hostname len d else some d
termination_by len - c.i
decreasing_by
  have := encodeLabel_i _h
  omega

/-- The packet handed to `UDP_Request`, and the position last written. -/
structure Query where
  alloc : Nat
  buf : Block UInt8 alloc
  last : Nat

/-- The twelve bytes in front of the name; `r₀` and `r₁` are the values of
`rand`. -/
def dnsHeader (r₀ r₁ : UInt8) : List UInt8 :=
  [r₀, r₁, 0b00000001, 0b00000000, 0x00, 0x01, 0x00, 0x00, 0x00, 0x00, 0x00, 0x00]

/-- The query for a host name, or `some none` where none is sent because the
host name is taken for an address. -/
def dnsQuery (r₀ r₁ : UInt8) (hostname : List UInt8) (len : Nat) : Option (Option Query) := do
  let isIpaddr ← hostnameIsIpaddr hostname len
  if isIpaddr = false then
    let alloc := DNS_PACKET_MIN_SIZE + len
    let b ← (Block.replicate alloc 0).copyIn 0 (dnsHeader r₀ r₁) 12
    let c ← encodeName hostname len ⟨b, 0, HOST_START⟩
    let k := c.k
    -- Type: A
    let b ← c.packet.store (k + 1) 0
    let b ← b.store (k + 2) 1
    -- Class: IN
    let b ← b.store (k + 3) 0
    let b ← b.store (k + 4) 1
    return some { alloc := alloc, buf := b, last := k + 4 }
  else return none

end NucleoMqtt.Net
