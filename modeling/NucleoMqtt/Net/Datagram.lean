import NucleoMqtt.Net.DnsRequest
import NucleoMqtt.Net.Ntp

/-!
# Net — datagrams of any length

A datagram can have any length down to 0. Both clients look at the value of
`UDP_Request` only for its sign. `DNS_Request` then counts back from it, and
for fewer than four bytes out of its buffer; `NTP_Request` takes the bytes
40 to 43 of a buffer whose front alone has been written.
-/

namespace NucleoMqtt.Net

open NucleoMqtt.Lib
open NucleoMqtt.Mqtt (Recv)

/-- What is taken from a receive buffer is all in the received bytes: it does
not depend on what the buffer held before, and it is inside the buffer. -/
def RestsOnReceived {β : Type} {len : Nat} (bytes : List UInt8) (fits : bytes.length ≤ len)
    (take : Block UInt8 len → Option β) : Prop :=
  ∀ b₁ b₂ : Block UInt8 len, ∃ v,
    take (b₁.overwrite bytes fits) = some v ∧ take (b₂.overwrite bytes fits) = some v

/-- The length of an address, and the end of the transmit seconds. -/
def ADDRESS_BYTES : Nat := 4
def TRANSMIT_END : Nat := 44

/-- `DNS_Request` rests on the datagram, and refuses one too short for an
address without touching the caller's buffer. -/
def DnsRefusesShort (r₀ r₁ : UInt8) (s : List UInt8) (ipaddr : Block UInt8 IPADDR_SIZE)
    (bytes : List UInt8) (fits : bytes.length ≤ DNS_PACKET_MAX_SIZE) : Prop :=
  RestsOnReceived bytes fits (dnsDeliver · bytes.length ipaddr) ∧
    (bytes.length < ADDRESS_BYTES → ∃ ret, ret < 0 ∧
      dnsRequest (fun _ => .data bytes fits) r₀ r₁ (s ++ [0]) (s.length + 1) ipaddr
        = some (ret, ipaddr))

/-- `NTP_Request` rests on the datagram, and refuses one too short for the
time without touching `*curtime`. -/
def NtpRefusesShort (gmtTime curtime : Int) (bytes : List UInt8)
    (fits : bytes.length ≤ NTP_PACKET_SIZE) : Prop :=
  RestsOnReceived bytes fits secsSince1900 ∧
    (bytes.length < TRANSMIT_END → ∃ ret, ret < 0 ∧
      ntpRequest (.data bytes fits) gmtTime curtime = some (ret, curtime))

/-! ## The DNS client -/

theorem dnsDeliver_rests {bytes : List UInt8} {fits : bytes.length ≤ DNS_PACKET_MAX_SIZE}
    (h : ADDRESS_BYTES ≤ bytes.length) (ipaddr : Block UInt8 IPADDR_SIZE) :
    RestsOnReceived bytes fits (dnsDeliver · bytes.length ipaddr) := by
  intro b₁ b₂
  have htake (b : Block UInt8 DNS_PACKET_MAX_SIZE) :
      (b.overwrite bytes fits).cells.take bytes.length = bytes := List.take_left
  obtain ⟨ip₁, hget₁, hip₁⟩ := getIp_eq (b₁.overwrite bytes fits) h fits
  obtain ⟨ip₂, hget₂, hip₂⟩ := getIp_eq (b₂.overwrite bytes fits) h fits
  rw [htake] at hip₁ hip₂
  have hsame : ip₂ = ip₁ := Block.ext (hip₂.trans hip₁.symm)
  obtain ⟨out, rest, hprint, -⟩ := sprintfIp_eq ipaddr ip₁
  refine ⟨(0, out), ?_, ?_⟩
  · simp only [dnsDeliver, hget₁, hprint, Option.bind_eq_bind, Option.bind_some, pure]
  · simp only [dnsDeliver, hget₂, hsame, hprint, Option.bind_eq_bind, Option.bind_some, pure]

theorem dnsRefusesShort_iff {s : List UInt8} (hnul : 0 ∉ s)
    (hname : ∃ c ∈ s, isIpaddrChar c = false) {r₀ r₁ : UInt8}
    {ipaddr : Block UInt8 IPADDR_SIZE} {bytes : List UInt8}
    {fits : bytes.length ≤ DNS_PACKET_MAX_SIZE} :
    DnsRefusesShort r₀ r₁ s ipaddr bytes fits ↔ ADDRESS_BYTES ≤ bytes.length := by
  constructor
  · rintro ⟨-, hrefused⟩
    rcases Nat.lt_or_ge bytes.length ADDRESS_BYTES with hshort | hlong
    · obtain ⟨ret, -, hrun⟩ := hrefused hshort
      rw [dnsRequest_short hnul hname ipaddr rfl hshort] at hrun
      cases hrun
    · exact hlong
  · intro h
    exact ⟨dnsDeliver_rests h ipaddr, fun hshort => absurd h (Nat.not_le.mpr hshort)⟩

/-! ## The NTP client -/

/-- Bytes 40 to 43 are inside the buffer in any case. -/
theorem secsSince1900_isSome (recvBuf : Block UInt8 NTP_PACKET_SIZE) :
    ∃ secs, secsSince1900 recvBuf = some secs := by
  have hload {i : Nat} (hi : i < NTP_PACKET_SIZE) : ∃ c, recvBuf.load i = some c :=
    Option.isSome_iff_exists.mp (Block.load_isSome.mpr hi)
  obtain ⟨b40, h40⟩ := hload (i := 40) (by decide)
  obtain ⟨b41, h41⟩ := hload (i := 41) (by decide)
  obtain ⟨b42, h42⟩ := hload (i := 42) (by decide)
  obtain ⟨b43, h43⟩ := hload (i := 43) (by decide)
  simp only [secsSince1900, h40, h41, h42, h43]
  exact ⟨_, rfl⟩

theorem secsSince1900_rests {bytes : List UInt8} {fits : bytes.length ≤ NTP_PACKET_SIZE}
    (h : TRANSMIT_END ≤ bytes.length) : RestsOnReceived bytes fits secsSince1900 := by
  intro b₁ b₂
  have hload {i : Nat} (hi : i < TRANSMIT_END) :
      (b₂.overwrite bytes fits).load i = (b₁.overwrite bytes fits).load i := by
    rw [Block.load_overwrite_lt (Nat.lt_of_lt_of_le hi h),
      Block.load_overwrite_lt (Nat.lt_of_lt_of_le hi h)]
  obtain ⟨secs, hsecs⟩ := secsSince1900_isSome (b₁.overwrite bytes fits)
  refine ⟨secs, hsecs, ?_⟩
  rw [← hsecs, secsSince1900, secsSince1900, hload (by decide), hload (by decide),
    hload (by decide), hload (by decide)]

theorem ntpRefusesShort_iff {gmtTime curtime : Int} {bytes : List UInt8}
    {fits : bytes.length ≤ NTP_PACKET_SIZE} :
    NtpRefusesShort gmtTime curtime bytes fits ↔ TRANSMIT_END ≤ bytes.length := by
  constructor
  · rintro ⟨-, hrefused⟩
    rcases Nat.lt_or_ge bytes.length TRANSMIT_END with hshort | hlong
    · obtain ⟨ret, hneg, hrun⟩ := hrefused hshort
      obtain ⟨secs, hsecs⟩ := secsSince1900_isSome
        ((Recv.data bytes fits).into (Block.replicate NTP_PACKET_SIZE 0))
      rw [ntpRequest_of_secs (Int.not_lt.mpr (Int.natCast_nonneg _)) hsecs] at hrun
      obtain ⟨offset, -, hzero⟩ := Option.map_eq_some_iff.mp hrun
      rw [← (Prod.mk.inj hzero).1] at hneg
      exact absurd hneg (Int.lt_irrefl 0)
    · exact hlong
  · intro h
    exact ⟨secsSince1900_rests h, fun hshort => absurd h (Nat.not_le.mpr hshort)⟩

/-! ## Both -/

/-- **A datagram is used as received, and refused if short, exactly when** it
is not short: four bytes for an address, 44 for the time. -/
theorem refusesShort_iff {s : List UInt8} (hnul : 0 ∉ s)
    (hname : ∃ c ∈ s, isIpaddrChar c = false) (r₀ r₁ : UInt8)
    (ipaddr : Block UInt8 IPADDR_SIZE) (gmtTime curtime : Int) :
    (∀ (bytes : List UInt8) (fits : bytes.length ≤ DNS_PACKET_MAX_SIZE),
      DnsRefusesShort r₀ r₁ s ipaddr bytes fits ↔ ADDRESS_BYTES ≤ bytes.length) ∧
    (∀ (bytes : List UInt8) (fits : bytes.length ≤ NTP_PACKET_SIZE),
      NtpRefusesShort gmtTime curtime bytes fits ↔ TRANSMIT_END ≤ bytes.length) :=
  ⟨fun _ _ => dnsRefusesShort_iff hnul hname, fun _ _ => ntpRefusesShort_iff⟩

/-- Requests for `a`, and in GMT+2. -/
theorem refusesShort_iff_a :
    (∀ (bytes : List UInt8) (fits : bytes.length ≤ DNS_PACKET_MAX_SIZE),
      DnsRefusesShort 7 9 [97] (Block.replicate IPADDR_SIZE 0) bytes fits ↔
        ADDRESS_BYTES ≤ bytes.length) ∧
    (∀ (bytes : List UInt8) (fits : bytes.length ≤ NTP_PACKET_SIZE),
      NtpRefusesShort 2 0 bytes fits ↔ TRANSMIT_END ≤ bytes.length) :=
  refusesShort_iff (by decide) ⟨97, by decide, rfl⟩ 7 9 (Block.replicate IPADDR_SIZE 0) 2 0

/-- After an empty datagram the DNS client reads in front of its buffer, and
the NTP client reports the first second of 1900. -/
theorem emptyDatagram_taken :
    ¬ DnsRefusesShort 7 9 [97] (Block.replicate IPADDR_SIZE 0) [] (Nat.zero_le _) ∧
      ntpRequest (.data [] (Nat.zero_le _)) 0 1633703173 = some (0, -2208988800) ∧
      ¬ NtpRefusesShort 0 1633703173 [] (Nat.zero_le _) := by
  refine ⟨?_, by decide, ?_⟩
  · rw [dnsRefusesShort_iff (by decide) ⟨97, by decide, rfl⟩]
    decide
  · rw [ntpRefusesShort_iff]
    decide

end NucleoMqtt.Net
