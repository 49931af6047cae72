import NucleoMqtt.Net.DnsRequest

/-!
# Net — the address text

What the callers of `DNS_Request` find in their buffer of 16 bytes. An
address that has been resolved is always a dotted quad. A host name that is
copied has passed a check of its characters one by one, which says nothing
of their number or order.
-/

namespace NucleoMqtt.Net

open NucleoMqtt.Lib NucleoMqtt.Spec
open NucleoMqtt.Mqtt (Recv cString cString_append_zero cString_of_not_mem)

/-- A buffer with a NUL-terminated dotted quad. -/
def HoldsQuad {n : Nat} (ipaddr : Block UInt8 n) : Prop :=
  0 ∈ ipaddr.cells ∧ (Ipv4.read (cString ipaddr.cells)).isSome

theorem holdsQuad_iff {n : Nat} {ipaddr : Block UInt8 n} {text rest : List UInt8}
    (h : ipaddr.cells = text ++ 0 :: rest) (hnul : 0 ∉ text) :
    HoldsQuad ipaddr ↔ (Ipv4.read text).isSome := by
  have hmem : 0 ∈ text ++ 0 :: rest := List.mem_append_right _ List.mem_cons_self
  rw [HoldsQuad, h, cString_append_zero, cString_of_not_mem hnul]
  exact and_iff_right hmem

/-- The request for the host name `s` writes inside the caller's buffer, what
it leaves there when it returns 0 is a dotted quad, and it skips resolution
only if `s` is one itself. -/
def DeliversAddress (udpRequest : List UInt8 → Recv DNS_PACKET_MAX_SIZE) (r₀ r₁ : UInt8)
    (s : List UInt8) (ipaddr : Block UInt8 IPADDR_SIZE) : Prop :=
  ∃ ret out, dnsRequest udpRequest r₀ r₁ (s ++ [0]) (s.length + 1) ipaddr = some (ret, out) ∧
    (ret = 0 → HoldsQuad out) ∧
    (dnsQuery r₀ r₁ (s ++ [0]) (s.length + 1) = some none → (Ipv4.read s).isSome)

variable {udpRequest : List UInt8 → Recv DNS_PACKET_MAX_SIZE} {r₀ r₁ : UInt8} {s : List UInt8}

/-- **An address that has been resolved** is a dotted quad. -/
theorem deliversAddress_resolved (hnul : 0 ∉ s) (hname : ∃ c ∈ s, isIpaddrChar c = false)
    (hreply : ∀ query, (udpRequest query).ret < 0 ∨ 4 ≤ (udpRequest query).ret)
    (ipaddr : Block UInt8 IPADDR_SIZE) : DeliversAddress udpRequest r₀ r₁ s ipaddr := by
  obtain ⟨q, hquery, -⟩ := dnsQuery_eq r₀ r₁ hnul hname
  have hsent : dnsQuery r₀ r₁ (s ++ [0]) (s.length + 1) = some none → (Ipv4.read s).isSome := by
    intro hskipped
    rw [hquery] at hskipped
    cases hskipped
  rcases hreply (queryBytes r₀ r₁ s) with hneg | hpos
  · have hrun := dnsRequest_error hnul hname ipaddr rfl hneg
    exact ⟨_, _, hrun, fun hzero => absurd hneg (by omega), hsent⟩
  · cases hmsg : udpRequest (queryBytes r₀ r₁ s) with
    | error code neg =>
        rw [hmsg] at hpos
        exact absurd neg (Int.not_lt.mpr (Int.le_trans (by decide) hpos))
    | data msg fits =>
        rw [hmsg] at hpos
        have hlen : 4 ≤ msg.length := Int.ofNat_le.mp hpos
        obtain ⟨out, rest, hrun, hout⟩ := dnsRequest_data hnul hname ipaddr hmsg hlen
        refine ⟨0, out, hrun, fun _ => ?_, hsent⟩
        rw [holdsQuad_iff hout Ipv4.not_mem_text, Ipv4.read_text (length_lastFour hlen)]
        rfl

/-- **A host name that is copied** has to be a dotted quad that fits. -/
theorem deliversAddress_verbatim_iff (hnul : 0 ∉ s) (h : s.all isIpaddrChar = true)
    (ipaddr : Block UInt8 IPADDR_SIZE) :
    DeliversAddress udpRequest r₀ r₁ s ipaddr ↔
      (Ipv4.read s).isSome ∧ s.length < IPADDR_SIZE := by
  have hlen : (s ++ [0]).length = s.length + 1 := List.length_append
  rcases Nat.lt_or_ge s.length IPADDR_SIZE with hfit | hlong
  · obtain ⟨out, hcopy, hfill⟩ := (Block.filled_nil ipaddr).copyIn 0 rfl (s ++ [0]) []
      (by rw [hlen, List.length_nil, Nat.zero_add]; exact hfit)
    rw [List.append_nil, hlen] at hcopy
    have hrun : dnsRequest udpRequest r₀ r₁ (s ++ [0]) (s.length + 1) ipaddr = some (0, out) := by
      rw [dnsRequest_verbatim h, hcopy]
      rfl
    obtain ⟨rest, hcells⟩ := hfill
    rw [List.nil_append, List.append_assoc, List.singleton_append] at hcells
    have hquad := holdsQuad_iff hcells.symm hnul
    constructor
    · rintro ⟨ret, out', hrun', hholds, -⟩
      rw [hrun] at hrun'
      cases hrun'
      exact ⟨hquad.mp (hholds rfl), hfit⟩
    · rintro ⟨hread, -⟩
      exact ⟨0, out, hrun, fun _ => hquad.mpr hread, fun _ => hread⟩
  · have hrun : dnsRequest udpRequest r₀ r₁ (s ++ [0]) (s.length + 1) ipaddr = none := by
      rw [dnsRequest_verbatim h, Block.copyIn_none (Nat.zero_le _) (Nat.le_of_eq hlen.symm)
        (by omega)]
      rfl
    refine iff_of_false ?_ fun hquad => Nat.not_lt.mpr hlong hquad.2
    rintro ⟨ret, out, hrun', -⟩
    rw [hrun] at hrun'
    cases hrun'

/-- **A usable address text is delivered exactly when** the host name has a
character other than digits and dots, or is a dotted quad of at most 15
characters itself. -/
theorem deliversAddress_iff
    (hreply : ∀ query, (udpRequest query).ret < 0 ∨ 4 ≤ (udpRequest query).ret)
    (r₀ r₁ : UInt8) (hnul : 0 ∉ s) (ipaddr : Block UInt8 IPADDR_SIZE) :
    DeliversAddress udpRequest r₀ r₁ s ipaddr ↔
      (∃ c ∈ s, isIpaddrChar c = false) ∨
        ((Ipv4.read s).isSome ∧ s.length < IPADDR_SIZE) := by
  cases hall : s.all isIpaddrChar with
  | true =>
      rw [deliversAddress_verbatim_iff hnul hall ipaddr]
      refine (or_iff_right ?_).symm
      rintro ⟨c, hc, hother⟩
      rw [List.all_eq_true.mp hall c hc] at hother
      cases hother
  | false =>
      have hname : ∃ c ∈ s, isIpaddrChar c = false := by
        obtain ⟨c, hc, hother⟩ := List.all_eq_false.mp hall
        exact ⟨c, hc, Bool.not_eq_true _ ▸ hother⟩
      exact iff_of_true (deliversAddress_resolved hnul hname hreply ipaddr) (Or.inl hname)

/-- A server that answers every query with an address alone. -/
def bareAnswer : List UInt8 → Recv DNS_PACKET_MAX_SIZE :=
  fun _ => .data [10, 0, 0, 1] (by decide)

theorem bareAnswer_ret (query : List UInt8) : (bareAnswer query).ret = 4 := rfl

/-- `10.0.0.1` for `a`. -/
theorem deliversAddress_iff_short :
    DeliversAddress bareAnswer 7 9 [97] (Block.replicate IPADDR_SIZE 0) ↔
      (∃ c ∈ [97], isIpaddrChar c = false) ∨
        ((Ipv4.read [97]).isSome ∧ [97].length < IPADDR_SIZE) :=
  deliversAddress_iff (fun query => Or.inr (Int.le_of_eq (bareAnswer_ret query).symm)) 7 9
    (by decide) _

/-- The host name `10.0.0` is copied as an address, and so is one of 16
digits, whose NUL is written behind the buffer. -/
theorem address_not_quad :
    ¬ DeliversAddress bareAnswer 7 9 [49, 48, 46, 48, 46, 48] (Block.replicate IPADDR_SIZE 0) ∧
      ¬ DeliversAddress bareAnswer 7 9 (List.replicate 16 49) (Block.replicate IPADDR_SIZE 0) := by
  constructor
  · rw [deliversAddress_verbatim_iff (by decide) (by decide)]
    decide
  · rw [deliversAddress_verbatim_iff (by decide) (by decide)]
    decide

end NucleoMqtt.Net
