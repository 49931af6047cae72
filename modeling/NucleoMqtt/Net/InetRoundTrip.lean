import NucleoMqtt.Net.Inet
import Mathlib.Tactic.IntervalCases

/-!
# Net — addresses to text and back

What `ip4addr_ntoa_r` writes is the dotted quad of the four bytes that the
address has in memory, and `ip4addr_aton` reads the same address from it.
-/

namespace NucleoMqtt.Net

open NucleoMqtt.Lib NucleoMqtt.Spec

/-! ## Memory -/

/-- The bytes in memory, as numbers. -/
theorem memory_toNat (x : UInt32) : (memory x).map UInt8.toNat
    = [x.toNat % 256, x.toNat / 256 % 256, x.toNat / 65536 % 256, x.toNat / 16777216] := by
  have hlt := x.toNat_lt
  simp only [memory, List.map_cons, List.map_nil, UInt32.toNat_toUInt8, UInt32.toNat_shiftRight,
    Nat.shiftRight_eq_div_pow, List.cons.injEq, and_true, true_and]
  refine ⟨rfl, rfl, ?_⟩
  show x.toNat / 2 ^ 24 % 256 = x.toNat / 16777216
  omega

theorem memory_inj {x y : UInt32} (h : memory x = memory y) : x = y := by
  have hbytes := memory_toNat x
  rw [h, memory_toNat y] at hbytes
  apply UInt32.toNat_inj.mp
  simp only [List.cons.injEq, and_true] at hbytes
  omega

/-- Network order turns the bytes round. -/
theorem memory_htonl (x : UInt32) : memory (htonl x) = (memory x).reverse := by
  simp only [memory, htonl, List.reverse_cons, List.reverse_nil, List.nil_append,
    List.cons_append, List.cons.injEq, and_true, ← UInt8.toBitVec_inj]
  refine ⟨?_, ?_, ?_, ?_⟩ <;> (ext i hi; interval_cases i <;> simp)

/-- The word of four bytes, the first one on top, has them in memory in
network order. -/
theorem memory_htonl_quad (a b c d : UInt8) :
    memory (htonl (UInt32.ofNat (a.toNat * 2 ^ 24 + b.toNat * 2 ^ 16 + c.toNat * 2 ^ 8
      + d.toNat))) = [a, b, c, d] := by
  have ha := a.toNat_lt
  have hb := b.toNat_lt
  have hc := c.toNat_lt
  have hd := d.toNat_lt
  have hword : (UInt32.ofNat (a.toNat * 2 ^ 24 + b.toNat * 2 ^ 16 + c.toNat * 2 ^ 8
      + d.toNat)).toNat = a.toNat * 2 ^ 24 + b.toNat * 2 ^ 16 + c.toNat * 2 ^ 8 + d.toNat := by
    rw [UInt32.toNat_ofNat']
    exact Nat.mod_eq_of_lt (by omega)
  rw [memory_htonl]
  apply (List.map_inj_right fun _ _ => UInt8.toNat_inj.mp).mp
  rw [List.map_reverse, memory_toNat, hword]
  simp only [List.reverse_cons, List.reverse_nil, List.nil_append, List.cons_append, List.map_cons,
    List.map_nil, List.cons.injEq, and_true]
  omega

/-! ## Round trips -/

/-- The four bytes of a word. -/
theorem memory_quad (x : UInt32) : ∃ a b c d, memory x = [a, b, c, d] := ⟨_, _, _, _, rfl⟩

/-- **A dotted quad is the address with its bytes.** -/
theorem ip4addrAton_text (a b c d : UInt8) :
    ∃ addr, ip4addrAton (Ipv4.text [a, b, c, d]) = some addr ∧ memory addr = [a, b, c, d] := by
  refine ⟨_, ip4addrAton_iff.mpr ⟨InetText.quad a b c d, InetText.quad_text a b c d, rfl⟩, ?_⟩
  rw [InetText.quad_value]
  exact memory_htonl_quad a b c d

theorem ip4addrAton_memory (addr : UInt32) :
    ip4addrAton (Ipv4.text (memory addr)) = some addr := by
  obtain ⟨a, b, c, d, hbytes⟩ := memory_quad addr
  obtain ⟨addr', hrun, hmem⟩ := ip4addrAton_text a b c d
  rw [hbytes, hrun, memory_inj (hmem.trans hbytes.symm)]

/-- Characters go into the buffer as long as it has room. -/
theorem foldlM_put {buflen : Nat} (cs out : List UInt8) (hout : out.length ≤ buflen) :
    cs.foldlM (put buflen) out
      = if out.length + cs.length ≤ buflen then some (out ++ cs) else none := by
  induction cs generalizing out with
  | nil =>
      rw [List.foldlM_nil, List.length_nil, Nat.add_zero, if_pos hout, List.append_nil]
      rfl
  | cons c cs ih =>
      rw [List.foldlM_cons, put]
      by_cases hfull : buflen ≤ out.length
      · rw [if_pos hfull, if_neg (by rw [List.length_cons]; omega)]
        rfl
      · have hlen : (out ++ [c]).length = out.length + 1 := List.length_append
        rw [if_neg hfull]
        show cs.foldlM (put buflen) (out ++ [c]) = _
        rw [ih _ (by omega), hlen, List.length_cons, List.append_assoc, List.singleton_append]
        congr 1
        rw [Nat.add_assoc, Nat.add_comm 1]

theorem digit_byte {k : Nat} (h : k < 10) : k.digitChar.toUInt8 = 48 + UInt8.ofNat k := by
  have hdigits : ∀ i < 10, i.digitChar.toUInt8 = 48 + UInt8.ofNat i := by decide
  exact hdigits k h

/-- The digits are those of the number. -/
theorem inv_reverse (ap : UInt8) : (inv ap).reverse = decimal ap.toNat := by
  have hlast (x : UInt8) : (x.toNat % 10).digitChar.toUInt8 = 48 + x % 10 := by
    rw [digit_byte (Nat.mod_lt _ (by decide))]
    congr 1
    apply UInt8.toNat_inj.mp
    rw [toNat_byte, UInt8.toNat_mod]
    show x.toNat % 10 % 256 = x.toNat % 10
    omega
  fun_induction inv ap with
  | case1 ap h =>
      have hzero : ap.toNat / 10 = 0 := by
        have := congrArg UInt8.toNat h
        rwa [UInt8.toNat_div] at this
      have hmod : ap.toNat % 10 = ap.toNat := Nat.mod_eq_of_lt (by omega)
      rw [List.reverse_singleton, decimal, Nat.toDigits_of_lt_base (by omega), ← hlast, hmod]
      rfl
  | case2 ap h ih =>
      have hten : 10 ≤ ap.toNat := by
        rcases Nat.lt_or_ge ap.toNat 10 with hlt | hge
        · refine absurd (UInt8.toNat_inj.mp ?_) h
          rw [UInt8.toNat_div]
          exact Nat.div_eq_of_lt hlt
        · exact hge
      rw [List.reverse_cons, ih, decimal_eq hten, hlast, UInt8.toNat_div]
      rfl

/-- No byte has more digits than `inv` has room for. -/
theorem length_inv (ap : UInt8) : (inv ap).length ≤ 3 := by
  rw [← List.length_reverse, inv_reverse]
  exact length_decimal_le (by decide) (Nat.lt_trans ap.toNat_lt (by decide))

/-- Every byte is followed by a dot. -/
theorem foldlM_bytes {buflen : Nat} (bytes out : List UInt8) :
    (bytes.foldlM (fun out ap => do
        let out ← (inv ap).reverse.foldlM (put buflen) out
        put buflen out 46) out)
      = (bytes.flatMap fun b => decimal b.toNat ++ [46]).foldlM (put buflen) out := by
  induction bytes generalizing out with
  | nil => rfl
  | cons b bytes ih =>
      rw [List.foldlM_cons, List.flatMap_cons, List.foldlM_append, List.foldlM_append, inv_reverse]
      congr 1
      · rw [bind_congr]
        intro out'
        exact (bind_pure _).symm
      · funext out'
        exact ih out'

theorem flatMap_quad (a b c d : UInt8) :
    [a, b, c, d].flatMap (fun b => decimal b.toNat ++ [46]) = Ipv4.text [a, b, c, d] ++ [46] := by
  rw [Ipv4.text_quad]
  simp only [List.flatMap_cons, List.flatMap_nil, List.append_assoc, List.append_nil]

/-- **The text fits or `NULL` is returned**, and nothing is written behind
the buffer. -/
theorem ip4addrNtoaR_eq (addr : UInt32) (buflen : Nat) :
    ip4addrNtoaR addr buflen
      = if (Ipv4.text (memory addr)).length < buflen
        then some (Ipv4.text (memory addr) ++ [0]) else none := by
  obtain ⟨a, b, c, d, hbytes⟩ := memory_quad addr
  have hlen : (Ipv4.text [a, b, c, d] ++ [46]).length = (Ipv4.text [a, b, c, d]).length + 1 :=
    List.length_append
  rw [ip4addrNtoaR, hbytes, foldlM_bytes, flatMap_quad, foldlM_put _ _ (Nat.zero_le _), hlen,
    List.length_nil, Nat.zero_add, List.nil_append]
  by_cases hfit : (Ipv4.text [a, b, c, d]).length < buflen
  · rw [if_pos hfit, if_pos (Nat.succ_le_of_lt hfit)]
    show some ((Ipv4.text [a, b, c, d] ++ [46]).dropLast ++ [0]) = _
    rw [List.dropLast_concat]
  · rw [if_neg hfit, if_neg fun hle => hfit (Nat.lt_of_succ_le hle)]
    rfl

theorem length_text_memory (addr : UInt32) :
    (Ipv4.text (memory addr)).length < IP4ADDR_STRLEN_MAX := by
  obtain ⟨a, b, c, d, hbytes⟩ := memory_quad addr
  rw [hbytes]
  exact Nat.lt_succ_of_le (Ipv4.length_text_quad a b c d)

/-- The static buffer has room for every address. -/
theorem ip4addrNtoa_eq (addr : UInt32) :
    ip4addrNtoa addr = some (Ipv4.text (memory addr) ++ [0]) := by
  rw [ip4addrNtoa, ip4addrNtoaR_eq, if_pos (length_text_memory addr)]

/-- **Text and address are inverse to each other.** Whatever buffer
`ip4addr_ntoa_r` is given, it fills it within its length or returns `NULL`,
the latter exactly when the text and its NUL do not fit; and what it writes
is read by `inet_addr` as the same address. The static buffer of
`ip4addr_ntoa` has room for every address, and `inv` for the digits of every
byte. -/
theorem inet_roundTrip (addr : UInt32) (buflen : Nat) :
    (ip4addrNtoaR addr buflen = none ↔ buflen ≤ (Ipv4.text (memory addr)).length) ∧
      (∀ out, ip4addrNtoaR addr buflen = some out →
        out.length ≤ buflen ∧ out.length ≤ IP4ADDR_STRLEN_MAX ∧
        ∃ text, out = text ++ [0] ∧ 0 ∉ text ∧ Ipv4.read text = some (memory addr) ∧
          ip4addrAton text = some addr ∧ ipaddrAddr text = addr) ∧
      ip4addrNtoa addr = some (Ipv4.text (memory addr) ++ [0]) ∧
      ∀ ap ∈ memory addr, (inv ap).length ≤ 3 := by
  have hlen : (Ipv4.text (memory addr) ++ [0]).length = (Ipv4.text (memory addr)).length + 1 :=
    List.length_append
  have hmax := length_text_memory addr
  rw [ip4addrNtoaR_eq]
  by_cases hfit : (Ipv4.text (memory addr)).length < buflen
  · rw [if_pos hfit]
    refine ⟨iff_of_false (by rintro ⟨⟩) (Nat.not_le.mpr hfit), ?_, ip4addrNtoa_eq addr,
      fun ap _ => length_inv ap⟩
    rintro out ⟨⟩
    refine ⟨by omega, by omega, _, rfl, Ipv4.not_mem_text, Ipv4.read_text rfl,
      ip4addrAton_memory addr, ?_⟩
    rw [ipaddrAddr, ip4addrAton_memory, Option.getD_some]
  · rw [if_neg hfit]
    exact ⟨iff_of_true rfl (Nat.not_lt.mp hfit), by rintro out ⟨⟩, ip4addrNtoa_eq addr,
      fun ap _ => length_inv ap⟩

end NucleoMqtt.Net
