import NucleoMqtt.Net.DnsRequest
import NucleoMqtt.Spec.DnsReply

/-!
# Net — what is taken for an answer

`DNS_Request` looks at the last four bytes of a reply and at nothing else.
They are an address if an A record of the answer section stands last, with
no authority or additional records behind it. Of a reply without an answer,
or of one to another query, they are taken all the same.
-/

namespace NucleoMqtt.Net

open NucleoMqtt.Lib NucleoMqtt.Spec
open NucleoMqtt.Mqtt (Recv cString cString_append_zero cString_of_not_mem)

/-- The transaction ID of a query: its first two bytes. -/
def transactionId (r₀ r₁ : UInt8) : Nat := 256 * r₀.toNat + r₁.toNat

/-- The request for `s` returns 0 only with an address that `msg` has for its
query, and fails without touching the caller's buffer if there is none. -/
def AcceptsOnlyAnswers (r₀ r₁ : UInt8) (s : List UInt8) (ipaddr : Block UInt8 IPADDR_SIZE)
    (msg : List UInt8) (fits : msg.length ≤ DNS_PACKET_MAX_SIZE) : Prop :=
  ∃ ret out,
    dnsRequest (fun _ => .data msg fits) r₀ r₁ (s ++ [0]) (s.length + 1) ipaddr
      = some (ret, out) ∧
    (ret = 0 → ∃ ip ∈ DnsReply.addressesFor (transactionId r₀ r₁) msg,
      cString out.cells = Ipv4.text ip) ∧
    (DnsReply.addressesFor (transactionId r₀ r₁) msg = [] → ret < 0 ∧ out = ipaddr)

theorem length_of_mem_addressesFor {id : Nat} {msg ip : List UInt8}
    (h : ip ∈ DnsReply.addressesFor id msg) : ip.length = 4 := by
  rw [DnsReply.addressesFor] at h
  split at h
  · split at h
    · obtain ⟨a, ha, rfl⟩ := List.mem_map.mp h
      exact (of_decide_eq_true (List.mem_filter.mp ha).2).2.2
    · cases h
  · cases h

section Answer

variable {r₀ r₁ : UInt8} {s : List UInt8}

/-- What is left in the caller's buffer for a message of four bytes or more. -/
theorem dnsRequest_data_cString (hnul : 0 ∉ s) (hname : ∃ c ∈ s, isIpaddrChar c = false)
    (ipaddr : Block UInt8 IPADDR_SIZE) {msg : List UInt8}
    (fits : msg.length ≤ DNS_PACKET_MAX_SIZE) (hlen : 4 ≤ msg.length) :
    ∃ out, dnsRequest (fun _ => .data msg fits) r₀ r₁ (s ++ [0]) (s.length + 1) ipaddr
        = some (0, out) ∧ cString out.cells = Ipv4.text (lastFour msg) := by
  have hdata : ∃ out rest,
      dnsRequest (fun _ => .data msg fits) r₀ r₁ (s ++ [0]) (s.length + 1) ipaddr
        = some (0, out) ∧ out.cells = Ipv4.text (lastFour msg) ++ 0 :: rest :=
    dnsRequest_data hnul hname ipaddr rfl hlen
  obtain ⟨out, rest, hrun, hout⟩ := hdata
  refine ⟨out, hrun, ?_⟩
  rw [hout, cString_append_zero, cString_of_not_mem Ipv4.not_mem_text]

/-- What is printed is the last four bytes, so they have to be an address. -/
theorem AcceptsOnlyAnswers.lastFour_mem {ipaddr : Block UInt8 IPADDR_SIZE} {msg : List UInt8}
    {fits : msg.length ≤ DNS_PACKET_MAX_SIZE}
    (h : AcceptsOnlyAnswers r₀ r₁ s ipaddr msg fits) (hnul : 0 ∉ s)
    (hname : ∃ c ∈ s, isIpaddrChar c = false) :
    lastFour msg ∈ DnsReply.addressesFor (transactionId r₀ r₁) msg := by
  obtain ⟨ret, out, hrun, haccepted, -⟩ := h
  rcases Nat.lt_or_ge msg.length 4 with hshort | hlen
  · rw [dnsRequest_short hnul hname ipaddr rfl hshort] at hrun
    cases hrun
  · obtain ⟨out', hrun', htext⟩ := dnsRequest_data_cString hnul hname ipaddr fits hlen
    rw [hrun'] at hrun
    cases hrun
    obtain ⟨ip, hip, hprinted⟩ := haccepted rfl
    rw [htext] at hprinted
    rwa [Ipv4.text_inj (length_lastFour hlen) (length_of_mem_addressesFor hip) hprinted]

/-- **A reply is accepted rightly exactly when** it answers the query and its
last four bytes are an address of its answer section. -/
theorem acceptsOnlyAnswers_iff (hnul : 0 ∉ s) (hname : ∃ c ∈ s, isIpaddrChar c = false)
    (r₀ r₁ : UInt8) (ipaddr : Block UInt8 IPADDR_SIZE) {msg : List UInt8}
    (fits : msg.length ≤ DNS_PACKET_MAX_SIZE) :
    AcceptsOnlyAnswers r₀ r₁ s ipaddr msg fits ↔
      lastFour msg ∈ DnsReply.addressesFor (transactionId r₀ r₁) msg := by
  constructor
  · intro h
    exact h.lastFour_mem hnul hname
  · intro hmem
    have hlen : 4 ≤ msg.length := by
      have hfour := length_of_mem_addressesFor hmem
      rw [lastFour, List.length_drop] at hfour
      omega
    obtain ⟨out, hrun, htext⟩ := dnsRequest_data_cString hnul hname ipaddr fits hlen
    refine ⟨0, out, hrun, fun _ => ⟨_, hmem, htext⟩, fun hnone => ?_⟩
    rw [hnone] at hmem
    cases hmem

/-- **An A record that stands last** in a reply to the query is what the
caller gets, whatever stands in front of it. -/
theorem dnsRequest_lastRecord (hnul : 0 ∉ s) (hname : ∃ c ∈ s, isIpaddrChar c = false)
    (ipaddr : Block UInt8 IPADDR_SIZE) {r : DnsReply} {before : List Record} {a : Record}
    (hanswers : r.answers = before ++ [a]) (ha : a.IsAddress) (hrest : r.rest = [])
    (fits : r.encode.length ≤ DNS_PACKET_MAX_SIZE) :
    ∃ out, dnsRequest (fun _ => .data r.encode fits) r₀ r₁ (s ++ [0]) (s.length + 1) ipaddr
        = some (0, out) ∧ cString out.cells = Ipv4.text a.rdata := by
  have hsuffix : a.rdata <:+ r.encode := by
    rw [DnsReply.encode, hanswers, hrest, List.flatMap_append, List.flatMap_singleton,
      List.append_nil, Record.encode, str]
    simp only [← List.append_assoc]
    exact List.suffix_append _ _
  obtain ⟨front, hfront⟩ := hsuffix
  have hlast : lastFour r.encode = a.rdata := by
    rw [lastFour, ← hfront, List.length_append, ha.2.2, Nat.add_sub_cancel, List.drop_left]
  have hlen : 4 ≤ r.encode.length := by
    rw [← hfront, List.length_append, ha.2.2]
    exact Nat.le_add_left 4 _
  rw [← hlast]
  exact dnsRequest_data_cString hnul hname ipaddr fits hlen

end Answer

/-- `a` has the address 10.0.0.1. -/
def answerA : DnsReply where
  id := transactionId 7 9
  flags := 0x8180
  questions := [⟨⟨[[97]], none⟩, 1, 1⟩]
  answers := [⟨⟨[], some 12⟩, 1, 1, 300, [10, 0, 0, 1]⟩]
  nscount := 0
  arcount := 0
  rest := []

theorem acceptsOnlyAnswers_iff_a :
    AcceptsOnlyAnswers 7 9 [97] (Block.replicate IPADDR_SIZE 0) answerA.encode (by decide) ↔
      lastFour answerA.encode ∈ DnsReply.addressesFor (transactionId 7 9) answerA.encode :=
  acceptsOnlyAnswers_iff (by decide) ⟨97, by decide, rfl⟩ 7 9 _ (by decide)

/-- `a` does not exist (NXDOMAIN): the start of authority of the root comes
with the reply, and with it how long this may be taken for granted. -/
def noSuchName : DnsReply where
  id := transactionId 7 9
  flags := 0x8183
  questions := [⟨⟨[[97]], none⟩, 1, 1⟩]
  answers := []
  nscount := 1
  arcount := 0
  rest := Record.encode ⟨⟨[], none⟩, 6, 1, 86400,
    [0, 0] ++ be32 2021100800 ++ be32 1800 ++ be32 900 ++ be32 604800 ++ be32 86400⟩

/-- A name that does not exist is resolved to the seconds of one day. -/
theorem noSuchName_accepted :
    lastFour noSuchName.encode = [0, 1, 81, 128] ∧
      ¬ AcceptsOnlyAnswers 7 9 [97] (Block.replicate IPADDR_SIZE 0) noSuchName.encode
        (by decide) := by
  have hnone : DnsReply.addressesFor (transactionId 7 9) noSuchName.encode = [] := by
    decide +kernel
  refine ⟨by decide, ?_⟩
  intro h
  have hmem := h.lastFour_mem (by decide) ⟨97, by decide, rfl⟩
  rw [hnone] at hmem
  cases hmem

end NucleoMqtt.Net
