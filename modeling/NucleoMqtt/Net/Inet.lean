import NucleoMqtt.Spec.InetText

/-!
# Net — addresses as text

`ip4_addr.c` of lwIP, on the little-endian target. `inet_addr` is
`ipaddr_addr`, and the text of `inet_ntoa` is made by `ip4addr_ntoa_r`. A C
string is the list of its characters without the NUL, which is what stands
at the end of it.

The main result is that `ip4addr_aton` takes the texts of `InetText` and no
others, each with its value.
-/

namespace NucleoMqtt.Net

open NucleoMqtt.Lib NucleoMqtt.Spec

/-! ## Byte order -/

/-- `lwip_htonl`. -/
def htonl (x : UInt32) : UInt32 :=
  ((x &&& 0xff) <<< 24) ||| ((x &&& 0xff00) <<< 8) ||| ((x &&& 0xff0000) >>> 8)
    ||| ((x &&& 0xff000000) >>> 24)

/-- The bytes of a `u32_t` in memory. -/
def memory (x : UInt32) : List UInt8 :=
  [x.toUInt8, (x >>> 8).toUInt8, (x >>> 16).toUInt8, (x >>> 24).toUInt8]

/-! ## Text to address -/

/-- `lwip_islower`. -/
def islower (c : UInt8) : Bool := 97 ≤ c && c ≤ 122

/-- `lwip_isxdigit`. -/
def isxdigit (c : UInt8) : Bool := isDigit c || (97 ≤ c && c ≤ 102) || (65 ≤ c && c ≤ 70)

/-- `lwip_isspace`. -/
def isspace (c : UInt8) : Bool := c = 32 || (9 ≤ c && c ≤ 13)

/-- The inner loop: the digits of a number, and where it stops. -/
def collect (base : UInt32) (val : UInt32) : List UInt8 → UInt32 × List UInt8
  | [] => (val, [])
  | c :: cp =>
      if isDigit c then collect base (val * base + (c - 48).toUInt32) cp
      else if base = 16 ∧ isxdigit c then
        collect base ((val <<< 4) ||| (c.toUInt32 + 10 - if islower c then 97 else 65)) cp
      else (val, c :: cp)

/-- Behind a zero in front: `x` or `X` for hexadecimal, else octal. -/
def atonZero : List UInt8 → UInt32 × List UInt8
  | [] => collect 8 0 []
  | x :: cp => if x = 120 ∨ x = 88 then collect 16 0 cp else collect 8 0 (x :: cp)

/-- One number: its value and what follows. -/
def atonPart : List UInt8 → Option (UInt32 × List UInt8)
  | [] => none
  | c :: cp =>
      if !isDigit c then none
      else if c = 48 then some (atonZero cp)
      else some (collect 10 0 (c :: cp))

/-- The outer loop, with `room` elements of `parts` left behind `pp`: the
parts stored, the last number and what follows. -/
def atonParts : Nat → List UInt32 → List UInt8 → Option (List UInt32 × UInt32 × List UInt8)
  | room, parts, cp =>
      match atonPart cp with
      | none => none
      | some (val, []) => some (parts, val, [])
      | some (val, c :: cp') =>
          if c = 46 then
            match room with
            | 0 => none
            | room + 1 => atonParts room (parts ++ [val]) cp'
          else some (parts, val, c :: cp')

/-- The address put together according to the number of parts. -/
def concoct (parts : List UInt32) (val : UInt32) : Option UInt32 :=
  match parts with
  | [] => some val
  | [a] =>
      if val > 0xffffff then none
      else if a > 0xff then none
      else some (val ||| (a <<< 24))
  | [a, b] =>
      if val > 0xffff then none
      else if a > 0xff ∨ b > 0xff then none
      else some (val ||| ((a <<< 24) ||| (b <<< 16)))
  | [a, b, c] =>
      if val > 0xff then none
      else if a > 0xff ∨ b > 0xff ∨ c > 0xff then none
      else some (val ||| ((a <<< 24) ||| (b <<< 16) ||| (c <<< 8)))
  | _ => some val

/-- `ip4addr_aton`: the address in network order, if the text is one. -/
def ip4addrAton (cp : List UInt8) : Option UInt32 :=
  match atonParts 3 [] cp with
  | none => none
  | some (parts, val, rest) =>
      match rest with
      | [] => (concoct parts val).map htonl
      | c :: _ => if !isspace c then none else (concoct parts val).map htonl

def IPADDR_NONE : UInt32 := 0xffffffff

/-- `ipaddr_addr`. -/
def ipaddrAddr (cp : List UInt8) : UInt32 := (ip4addrAton cp).getD IPADDR_NONE

/-! ## Address to text -/

/-- The digits of a byte as they come into `inv`, the last one first. -/
def inv (ap : UInt8) : List UInt8 :=
  if _h : ap / 10 = 0 then [48 + ap % 10] else (48 + ap % 10) :: inv (ap / 10)
termination_by ap.toNat
decreasing_by
  have hne : ap.toNat / 10 ≠ 0 := fun hzero => _h (UInt8.toNat_inj.mp hzero)
  rw [UInt8.toNat_div]
  exact Nat.div_lt_self (by omega) (by decide)

/-- `if(len++ >= buflen) return NULL; *rp++ = c;` with what stands in front
of `rp`. -/
def put (buflen : Nat) (out : List UInt8) (c : UInt8) : Option (List UInt8) :=
  if buflen ≤ out.length then none else some (out ++ [c])

/-- `ip4addr_ntoa_r`: what has been written to the buffer, or `NULL`. -/
def ip4addrNtoaR (addr : UInt32) (buflen : Nat) : Option (List UInt8) := do
  let out ← (memory addr).foldlM (fun out ap => do
    let out ← (inv ap).reverse.foldlM (put buflen) out
    put buflen out 46) []
  -- the last dot becomes the NUL
  return out.dropLast ++ [0]

def IP4ADDR_STRLEN_MAX : Nat := 16

/-- `ip4addr_ntoa`, with its static buffer. -/
def ip4addrNtoa (addr : UInt32) : Option (List UInt8) := ip4addrNtoaR addr IP4ADDR_STRLEN_MAX

/-! ## Digits -/

theorem isxdigit_eq (c : UInt8) : isxdigit c = (isDigit c || isHexLower c || isHexUpper c) := rfl

/-- A digit is worth what it adds. -/
theorem digit_word {c : UInt8} (h : isDigit c = true) :
    (c - 48).toUInt32 = UInt32.ofNat (digitValue c) := by
  refine byte_lt_induction (n := 256) (p := fun c => isDigit c = true →
    (c - 48).toUInt32 = UInt32.ofNat (digitValue c)) ?_ c.toNat_lt h
  decide +kernel

theorem letter_word {c : UInt8} (hdigit : isDigit c = false) (h : isxdigit c = true) :
    (c.toUInt32 + 10 - if islower c then 97 else 65) = UInt32.ofNat (digitValue c) ∧
      digitValue c < 16 := by
  refine byte_lt_induction (n := 256) (p := fun c => isDigit c = false → isxdigit c = true →
    (c.toUInt32 + 10 - if islower c then 97 else 65) = UInt32.ofNat (digitValue c) ∧
      digitValue c < 16) ?_ c.toNat_lt hdigit h
  decide +kernel

/-- A nibble is put behind a number by `|`. -/
theorem nibble_or (n : Nat) {d : Nat} (h : d < 16) :
    (UInt32.ofNat n <<< 4) ||| UInt32.ofNat d = UInt32.ofNat (16 * n + d) := by
  apply UInt32.toNat_inj.mp
  have hfour : UInt32.toNat 4 % 32 = 4 := rfl
  have hshift : (n % 2 ^ 32) <<< 4 % 2 ^ 32 = (n % 2 ^ 28) <<< 4 := by
    rw [Nat.shiftLeft_eq, Nat.shiftLeft_eq]
    omega
  rw [UInt32.toNat_or, UInt32.toNat_shiftLeft, UInt32.toNat_ofNat', UInt32.toNat_ofNat',
    UInt32.toNat_ofNat', hfour, hshift, Nat.mod_eq_of_lt (by omega : d < 2 ^ 32), shiftLeft_or h]
  omega

/-- One digit more. -/
theorem collect_take (r : Radix) (n : Nat) {c : UInt8} (h : r.takes c = true)
    (cp : List UInt8) :
    collect (UInt32.ofNat r.base) (UInt32.ofNat n) (c :: cp)
      = collect (UInt32.ofNat r.base) (UInt32.ofNat (r.base * n + digitValue c)) cp := by
  rw [collect]
  by_cases hdigit : isDigit c = true
  · rw [if_pos hdigit, digit_word hdigit, ← UInt32.ofNat_mul, ← UInt32.ofNat_add, Nat.mul_comm]
  · cases r with
    | decimal | octal => exact absurd h hdigit
    | hex upper =>
        obtain ⟨hword, hlt⟩ := letter_word (Bool.eq_false_iff.mpr hdigit)
          ((isxdigit_eq c).trans h)
        rw [if_neg hdigit, if_pos ⟨rfl, (isxdigit_eq c).trans h⟩, hword, nibble_or n hlt]
        rfl

/-- Any other character stops the loop. -/
theorem collect_stop (r : Radix) (val : UInt32) {rest : List UInt8}
    (h : ∀ c ∈ rest.head?, r.takes c = false) :
    collect (UInt32.ofNat r.base) val rest = (val, rest) := by
  cases rest with
  | nil => rfl
  | cons c rest =>
      have hc : r.takes c = false := h c rfl
      cases r with
      | decimal | octal =>
          have hdigit : isDigit c = false := hc
          rw [collect, if_neg (by rw [hdigit]; exact Bool.false_ne_true), if_neg]
          rintro ⟨hbase, -⟩
          cases hbase
      | hex upper =>
          have hx : isxdigit c = false := hc
          have hdigit : isDigit c = false := by
            rw [isxdigit_eq, Bool.or_eq_false_iff, Bool.or_eq_false_iff] at hx
            exact hx.1.1
          rw [collect, if_neg (by rw [hdigit]; exact Bool.false_ne_true), if_neg]
          rintro ⟨-, htrue⟩
          rw [hx] at htrue
          cases htrue

/-- **The inner loop** takes the digits that stand there. -/
theorem collect_digits (r : Radix) {digits rest : List UInt8} (h : digits.all r.takes = true)
    (hrest : ∀ c ∈ rest.head?, r.takes c = false) (n : Nat) :
    collect (UInt32.ofNat r.base) (UInt32.ofNat n) (digits ++ rest)
      = (UInt32.ofNat (r.value n digits), rest) := by
  induction digits generalizing n with
  | nil => exact collect_stop r _ hrest
  | cons c digits ih =>
      rw [List.all_cons, Bool.and_eq_true] at h
      rw [List.cons_append, collect_take r n h.1, ih h.2]
      rfl

/-- The digits at the beginning of a text. -/
theorem split_digits (r : Radix) (cs : List UInt8) :
    ∃ digits rest, cs = digits ++ rest ∧ digits.all r.takes = true ∧
      ∀ c ∈ rest.head?, r.takes c = false := by
  refine ⟨cs.takeWhile r.takes, cs.dropWhile r.takes, List.takeWhile_append_dropWhile.symm,
    List.all_takeWhile, ?_⟩
  intro c hc
  have := List.head?_dropWhile_not r.takes cs
  rw [Option.mem_def.mp hc] at this
  exact this

/-! ## Numbers -/

/-- The first of some digits is one. -/
theorem isDigit_head {d : UInt8} {ds : List UInt8} (h : (d :: ds).all isDigit = true) :
    isDigit d = true := by
  rw [List.all_cons, Bool.and_eq_true] at h
  exact h.1

/-- Behind a zero in front, octal digits are no mark of hexadecimal ones. -/
theorem atonZero_octal {cs : List UInt8} (h : ∀ c ∈ cs.head?, c ≠ 120 ∧ c ≠ 88) :
    atonZero cs = collect 8 0 cs := by
  cases cs with
  | nil => rfl
  | cons c cs =>
      obtain ⟨hx, hX⟩ := h c rfl
      rw [atonZero, if_neg (not_or.mpr ⟨hx, hX⟩)]

/-- A numeral is read as a whole. -/
theorem atonPart_numeral (n : Numeral) {rest : List UInt8} (h : n.Ends rest) :
    atonPart (n.text ++ rest) = some (n.word, rest) := by
  obtain ⟨radix, digits, htaken, hleading⟩ := n
  have hdigits := collect_digits radix htaken (fun c hc => (h c hc).1) 0
  cases radix with
  | decimal =>
      obtain ⟨d, ds, rfl, hd⟩ := hleading rfl
      have hdigit : isDigit d = true := isDigit_head htaken
      show atonPart (d :: (ds ++ rest)) = _
      rw [atonPart, hdigit, if_neg (by decide), if_neg hd]
      exact congrArg some hdigits
  | octal =>
      have hmark : ∀ c ∈ (digits ++ rest).head?, c ≠ 120 ∧ c ≠ 88 := by
        cases digits with
        | nil => exact fun c hc => (h c hc).2
        | cons d ds =>
            rintro c ⟨⟩
            have hdigit : isDigit d = true := isDigit_head htaken
            constructor <;> rintro rfl <;> cases hdigit
      show atonPart (48 :: (digits ++ rest)) = _
      rw [atonPart, if_neg (by decide), if_pos rfl, atonZero_octal hmark]
      exact congrArg some hdigits
  | hex upper =>
      cases upper with
      | false => exact congrArg some hdigits
      | true => exact congrArg some hdigits

/-- What the inner loop has read is a numeral, with the mark in front. -/
theorem numeral_of_collect (r : Radix) {cs rest : List UInt8} {val : UInt32}
    (hleading : r = .decimal → ∃ d ds, cs = d :: ds ∧ isDigit d = true ∧ d ≠ 48)
    (h : collect (UInt32.ofNat r.base) 0 cs = (val, rest)) :
    ∃ n : Numeral, r.mark ++ cs = n.text ++ rest ∧ val = n.word := by
  obtain ⟨digits, rest', rfl, htaken, hstop⟩ := split_digits r cs
  have hcollect := collect_digits r htaken hstop 0
  obtain ⟨rfl, rfl⟩ := Prod.mk.inj (h.symm.trans hcollect)
  refine ⟨⟨r, digits, htaken, fun hr => ?_⟩, (List.append_assoc _ _ _).symm, rfl⟩
  obtain ⟨d, ds, hcs, hdigit, hd⟩ := hleading hr
  subst hr
  cases digits with
  | nil =>
      rw [List.nil_append] at hcs
      have hnot : isDigit d = false := hstop d (by rw [hcs]; rfl)
      rw [hdigit] at hnot
      cases hnot
  | cons d' ds' =>
      obtain ⟨rfl, -⟩ := List.cons.inj hcs
      exact ⟨d', ds', rfl, hd⟩

/-- And nothing else is read. -/
theorem atonPart_some {cs rest : List UInt8} {val : UInt32} (h : atonPart cs = some (val, rest)) :
    ∃ n : Numeral, cs = n.text ++ rest ∧ val = n.word := by
  cases cs with
  | nil => cases h
  | cons c cp =>
      rw [atonPart] at h
      by_cases hdigit : isDigit c = true
      · rw [hdigit, if_neg (by decide)] at h
        by_cases hzero : c = 48
        · subst hzero
          rw [if_pos rfl] at h
          cases cp with
          | nil => exact numeral_of_collect .octal (by rintro ⟨⟩) (Option.some.inj h)
          | cons x cp =>
              rw [atonZero] at h
              by_cases hx : x = 120
              · subst hx
                exact numeral_of_collect (.hex false) (by rintro ⟨⟩) (Option.some.inj h)
              · by_cases hX : x = 88
                · subst hX
                  exact numeral_of_collect (.hex true) (by rintro ⟨⟩) (Option.some.inj h)
                · rw [if_neg (not_or.mpr ⟨hx, hX⟩)] at h
                  exact numeral_of_collect .octal (by rintro ⟨⟩) (Option.some.inj h)
        · rw [if_neg hzero] at h
          exact numeral_of_collect .decimal (fun _ => ⟨c, cp, rfl, hdigit, hzero⟩)
            (Option.some.inj h)
      · rw [if_pos (by simp [hdigit])] at h
        cases h

/-! ## Parts -/

/-- The text of the numbers in front. -/
def frontText (front : List Numeral) : List UInt8 := front.flatMap fun n => n.text ++ [46]

theorem frontText_cons (n : Numeral) (front : List Numeral) (cs : List UInt8) :
    frontText (n :: front) ++ cs = n.text ++ 46 :: (frontText front ++ cs) := by
  rw [frontText, List.flatMap_cons, List.append_assoc, List.append_assoc]
  rfl

/-- Numbers with dots between them are read as parts. -/
theorem atonParts_numerals {front : List Numeral} {room : Nat} (hroom : front.length ≤ room)
    (last : Numeral) {rest : List UInt8} (hends : last.Ends rest)
    (hdot : ∀ c ∈ rest.head?, c ≠ 46) (parts : List UInt32) :
    atonParts room parts (frontText front ++ (last.text ++ rest))
      = some (parts ++ front.map Numeral.word, last.word, rest) := by
  induction front generalizing room parts with
  | nil =>
      have hpart := atonPart_numeral last hends
      show atonParts room parts (last.text ++ rest) = _
      rw [List.map_nil, List.append_nil]
      cases rest with
      | nil =>
          rw [atonParts, hpart]
      | cons c cs =>
          rw [atonParts, hpart]
          simp only [if_neg (hdot c rfl)]
  | cons n front ih =>
      cases room with
      | zero => exact absurd hroom (Nat.not_succ_le_zero _)
      | succ room =>
          rw [frontText_cons, atonParts, atonPart_numeral n Numeral.ends_of_dot]
          simp only [if_pos]
          rw [ih (Nat.le_of_succ_le_succ hroom), List.map_cons, List.append_assoc]
          rfl

/-- And no others. -/
theorem atonParts_some {room : Nat} {parts parts' : List UInt32} {cs rest : List UInt8}
    {val : UInt32} (h : atonParts room parts cs = some (parts', val, rest)) :
    ∃ (front : List Numeral) (last : Numeral), front.length ≤ room ∧
      cs = frontText front ++ (last.text ++ rest) ∧ parts' = parts ++ front.map Numeral.word ∧
      val = last.word := by
  fun_induction atonParts room parts cs with
  | case1 => cases h
  | case2 room parts cs val' hpart =>
      cases h
      obtain ⟨n, hcs, hval⟩ := atonPart_some hpart
      exact ⟨[], n, Nat.zero_le _, hcs, (List.append_nil _).symm, hval⟩
  | case3 => cases h
  | case4 parts cs val' room cp' hpart ih =>
      obtain ⟨n, hcs, hval⟩ := atonPart_some hpart
      obtain ⟨front, last, hlen, hcp, hparts, hlast⟩ := ih h
      refine ⟨n :: front, last, Nat.succ_le_succ hlen, ?_, ?_, hlast⟩
      · rw [frontText_cons, hcs, hcp]
      · rw [hparts, List.map_cons, hval, List.append_assoc]
        rfl
  | case5 room parts cs val' c cp' hpart hdot =>
      cases h
      obtain ⟨n, hcs, hval⟩ := atonPart_some hpart
      exact ⟨[], n, Nat.zero_le _, hcs, (List.append_nil _).symm, hval⟩

/-! ## The address -/

/-- A byte on top of a number. -/
theorem top_or {a x : UInt32} {p : Nat} (hp : p ≤ 24) (ha : a.toNat < 256)
    (hx : x.toNat < 2 ^ p) :
    ((a <<< UInt32.ofNat p) ||| x).toNat = 2 ^ p * a.toNat + x.toNat := by
  have hmod : (UInt32.ofNat p).toNat % 32 = p := by
    rw [UInt32.toNat_ofNat']
    omega
  have hlt : a.toNat <<< p < 2 ^ 32 := by
    rw [Nat.shiftLeft_eq]
    calc a.toNat * 2 ^ p < 256 * 2 ^ p := Nat.mul_lt_mul_of_pos_right ha (Nat.two_pow_pos p)
      _ = 2 ^ (8 + p) := (Nat.pow_add 2 8 p).symm
      _ ≤ 2 ^ 32 := Nat.pow_le_pow_right (by decide) (by omega)
  rw [UInt32.toNat_or, UInt32.toNat_shiftLeft, hmod, Nat.mod_eq_of_lt hlt, shiftLeft_or hx]

/-- The bounds of the last number and of the others are checked, and then
the word is `n`. -/
theorem checked_iff {P Q : Prop} [Decidable P] [Decidable Q] {parts : List UInt32}
    {val v w : UInt32} {m n : Nat} (hP : ¬ P ↔ val.toNat < m)
    (hQ : ¬ Q ↔ ∀ p ∈ parts, p.toNat < 256)
    (hw : (∀ p ∈ parts, p.toNat < 256) → val.toNat < m → w.toNat = n) :
    (if P then none else if Q then none else some w) = some v ↔
      (∀ p ∈ parts, p.toNat < 256) ∧ val.toNat < m ∧ v.toNat = n := by
  by_cases hp : P
  · rw [if_pos hp]
    exact iff_of_false (by rintro ⟨⟩) fun h => hP.mpr h.2.1 hp
  · by_cases hq : Q
    · rw [if_neg hp, if_pos hq]
      exact iff_of_false (by rintro ⟨⟩) fun h => hQ.mpr h.1 hq
    · have hword := hw (hQ.mp hq) (hP.mp hp)
      rw [if_neg hp, if_neg hq, Option.some.injEq, ← hword, UInt32.toNat_inj]
      exact ⟨fun h => ⟨hQ.mp hq, hP.mp hp, h.symm⟩, fun h => h.2.2.symm⟩

theorem not_gt_iff {a m : UInt32} : ¬ a > m ↔ a.toNat < m.toNat + 1 := by
  rw [gt_iff_lt, UInt32.lt_iff_toNat_lt]
  exact Nat.not_lt.trans Nat.lt_succ_iff.symm

theorem le_byte_iff {a : UInt32} : a ≤ 255 ↔ a.toNat < 256 := by
  rw [UInt32.le_iff_toNat_le]
  exact Nat.lt_succ_iff.symm

/-- **The parts put together**, each within its bounds. -/
theorem concoct_iff {parts : List UInt32} (hlen : parts.length ≤ 3) {val v : UInt32} :
    concoct parts val = some v ↔
      (∀ p ∈ parts, p.toNat < 256) ∧ val.toNat < 256 ^ (4 - parts.length) ∧
        v.toNat = stacked 0 (parts.map UInt32.toNat) * 256 ^ (4 - parts.length) + val.toNat := by
  match parts, hlen with
  | [], _ =>
      have hval : val.toNat < 256 ^ 4 := val.toNat_lt
      rw [concoct, Option.some.injEq, ← UInt32.toNat_inj]
      simp only [List.not_mem_nil, false_implies, implies_true, true_and, List.length_nil,
        Nat.sub_zero, hval, List.map_nil, stacked, List.foldl_nil, Nat.zero_mul, Nat.zero_add]
      exact eq_comm
  | [a], _ =>
      refine checked_iff not_gt_iff (by simp [le_byte_iff]) fun hparts hval => ?_
      have ha : a.toNat < 256 := hparts a List.mem_cons_self
      have h₁ := top_or (p := 24) (Nat.le_refl 24) ha hval
      rw [UInt32.or_comm]
      refine h₁.trans ?_
      simp only [List.map_cons, List.map_nil, stacked, List.foldl_cons, List.foldl_nil,
        List.length_singleton]
      omega
  | [a, b], _ =>
      refine checked_iff not_gt_iff (by simp [le_byte_iff]) fun hparts hval => ?_
      have ha : a.toNat < 256 := hparts a (by simp)
      have hb : b.toNat < 256 := hparts b (by simp)
      have hlast : val.toNat < 2 ^ 16 := hval
      have h₂ := top_or (p := 16) (by decide) hb hlast
      have h₁ := top_or (p := 24) (x := (b <<< UInt32.ofNat 16) ||| val) (Nat.le_refl 24) ha
        (by omega)
      rw [UInt32.or_comm, UInt32.or_assoc]
      refine h₁.trans ?_
      simp only [h₂, List.map_cons, List.map_nil, stacked, List.foldl_cons, List.foldl_nil,
        List.length_cons, List.length_nil]
      omega
  | [a, b, c], _ =>
      refine checked_iff not_gt_iff (by simp [le_byte_iff]) fun hparts hval => ?_
      have ha : a.toNat < 256 := hparts a (by simp)
      have hb : b.toNat < 256 := hparts b (by simp)
      have hc : c.toNat < 256 := hparts c (by simp)
      have hlast : val.toNat < 2 ^ 8 := hval
      have h₃ := top_or (p := 8) (by decide) hc hlast
      have h₂ := top_or (p := 16) (x := (c <<< UInt32.ofNat 8) ||| val) (by decide) hb (by omega)
      have h₁ := top_or (p := 24)
        (x := (b <<< UInt32.ofNat 16) ||| ((c <<< UInt32.ofNat 8) ||| val)) (Nat.le_refl 24) ha
        (by omega)
      rw [UInt32.or_comm, UInt32.or_assoc, UInt32.or_assoc]
      refine h₁.trans ?_
      simp only [h₂, h₃, List.map_cons, List.map_nil, stacked, List.foldl_cons, List.foldl_nil,
        List.length_cons, List.length_nil]
      omega

/-- What stands behind the last number has to be blank. -/
theorem ip4addrAton_parts {cp rest : List UInt8} {parts : List UInt32} {val : UInt32}
    (h : atonParts 3 [] cp = some (parts, val, rest)) (addr : UInt32) :
    ip4addrAton cp = some addr ↔
      (∀ c ∈ rest.head?, isBlank c = true) ∧ (concoct parts val).map htonl = some addr := by
  rw [ip4addrAton, h]
  cases rest with
  | nil => exact (and_iff_right (by rintro c ⟨⟩)).symm
  | cons c cs =>
      have hblank : (∀ c' ∈ (c :: cs).head?, isBlank c' = true) ↔ isspace c = true :=
        ⟨fun h => h c rfl, by rintro h c' ⟨⟩; exact h⟩
      rw [hblank]
      by_cases hc : isspace c = true
      · simp [hc]
      · simp [hc]

/-- **`ip4addr_aton` takes the texts of an address and no others.** -/
theorem ip4addrAton_iff {cp : List UInt8} {addr : UInt32} :
    ip4addrAton cp = some addr ↔
      ∃ t : InetText, t.text = cp ∧ addr = htonl (UInt32.ofNat t.value) := by
  constructor
  · intro h
    cases hparts : atonParts 3 [] cp with
    | none =>
        rw [ip4addrAton, hparts] at h
        cases h
    | some p =>
        obtain ⟨parts, val, rest⟩ := p
        obtain ⟨front, last, hshort, htext, rfl, rfl⟩ := atonParts_some hparts
        obtain ⟨hblank, hmap⟩ := (ip4addrAton_parts hparts addr).mp h
        obtain ⟨v, hv, rfl⟩ := Option.map_eq_some_iff.mp hmap
        rw [List.nil_append] at hv
        obtain ⟨hoctets, hroom, hvalue⟩ := (concoct_iff (by rwa [List.length_map])).mp hv
        rw [List.length_map] at hroom hvalue
        rw [List.map_map] at hvalue
        refine ⟨⟨front, last, rest, hshort, fun n hn => hoctets _ (List.mem_map_of_mem hn), hroom,
          hblank⟩, ?_, ?_⟩
        · rw [htext, InetText.text, List.append_assoc]
          rfl
        · refine congrArg htonl ?_
          rw [← UInt32.toNat_inj, UInt32.toNat_ofNat', Nat.mod_eq_of_lt (InetText.value_lt _)]
          exact hvalue
  · rintro ⟨t, rfl, rfl⟩
    have hdot : ∀ c ∈ t.tail.head?, c ≠ 46 := by
      rintro c hc rfl
      have := t.blank _ hc
      cases this
    have hparts := atonParts_numerals t.short t.last (Numeral.ends_of_blank t.blank) hdot []
    have htext : t.text = frontText t.front ++ (t.last.text ++ t.tail) := List.append_assoc _ _ _
    rw [htext]
    refine (ip4addrAton_parts hparts _).mpr ⟨t.blank, ?_⟩
    have hconcoct : concoct ([] ++ t.front.map Numeral.word) t.last.word
        = some (UInt32.ofNat t.value) := by
      rw [List.nil_append]
      refine (concoct_iff (by rw [List.length_map]; exact t.short)).mpr ⟨?_, ?_, ?_⟩
      · intro p hp
        obtain ⟨n, hn, rfl⟩ := List.mem_map.mp hp
        exact t.octets n hn
      · rw [List.length_map]
        exact t.room
      · rw [UInt32.toNat_ofNat', Nat.mod_eq_of_lt t.value_lt, List.length_map, List.map_map]
        rfl
    rw [hconcoct, Option.map_some]

end NucleoMqtt.Net
