import NucleoMqtt.Mqtt.Verdict
import NucleoMqtt.Net.DnsSpec
import NucleoMqtt.Spec.Ipv4

/-!
# Net — the DNS client

`dns_client.c`, `DNS_Request` as a whole. A host name of digits and dots is
copied to the caller's buffer. For any other the query of
`NucleoMqtt.Net.DnsQuery` goes to `UDP_Request`, and the last four bytes of
what comes back are printed there as an address.

`UDP_Request` is the environment: what one call answers to the bytes it is
given. A `char` is unsigned on the target, so `%i` prints it from 0 to 255.
-/

namespace NucleoMqtt.Net

open NucleoMqtt.Lib NucleoMqtt.Spec
open NucleoMqtt.Mqtt (Recv)

def DNS_PACKET_MAX_SIZE : Nat := 512

/-- The size of the callers' buffers for an address: twelve digits, three
dots and the NUL. -/
def IPADDR_SIZE : Nat := 16

/-- `for(i = 0; i < 4; i++) get_IP[i] = recv_buf[ret - 4 + i];` -/
def getIp (recvBuf : Block UInt8 DNS_PACKET_MAX_SIZE) (ret : Nat) : Option (Block UInt8 4) :=
  forLoop (fun i getIp => do getIp.store i (← recvBuf.loadInt ((ret : Int) - 4 + i))) 0 4
    (Block.replicate 4 0)

/-- `sprintf(ipaddr, "%i.%i.%i.%i", get_IP[0], …, get_IP[3]);` -/
def sprintfIp {n : Nat} (ipaddr : Block UInt8 n) (getIp : Block UInt8 4) :
    Option (Block UInt8 n) := do
  let a ← getIp.load 0
  let b ← getIp.load 1
  let c ← getIp.load 2
  let d ← getIp.load 3
  let text := decimal a.toNat ++ [46] ++ (decimal b.toNat ++ [46]
    ++ (decimal c.toNat ++ [46] ++ decimal d.toNat))
  ipaddr.copyIn 0 (text ++ [0]) (text.length + 1)

/-- What happens to a buffer in which `ret ≥ 0` bytes have been received. -/
def dnsDeliver {n : Nat} (recvBuf : Block UInt8 DNS_PACKET_MAX_SIZE) (ret : Nat)
    (ipaddr : Block UInt8 n) : Option (Int × Block UInt8 n) := do
  let getIp ← getIp recvBuf ret
  let ipaddr ← sprintfIp ipaddr getIp
  return (0, ipaddr)

/-- `DNS_Request`: the value returned and the caller's buffer. -/
def dnsRequest {n : Nat} (udpRequest : List UInt8 → Recv DNS_PACKET_MAX_SIZE) (r₀ r₁ : UInt8)
    (hostname : List UInt8) (len : Nat) (ipaddr : Block UInt8 n) :
    Option (Int × Block UInt8 n) := do
  match ← dnsQuery r₀ r₁ hostname len with
  | some query =>
      let reply := udpRequest query.buf.cells
      if reply.ret < 0 then return (reply.ret, ipaddr)
      else
        dnsDeliver (reply.into (Block.replicate DNS_PACKET_MAX_SIZE 0)) reply.ret.toNat ipaddr
  | none =>
      let ipaddr ← ipaddr.copyIn 0 hostname len
      return (0, ipaddr)

/-! ## The last four bytes -/

/-- The last four bytes of a message. -/
def lastFour (msg : List UInt8) : List UInt8 := msg.drop (msg.length - 4)

theorem length_lastFour {msg : List UInt8} (h : 4 ≤ msg.length) : (lastFour msg).length = 4 := by
  rw [lastFour, List.length_drop]
  omega

/-- From four bytes on, the bytes taken are those in front of `ret`. -/
theorem getIp_eq (recvBuf : Block UInt8 DNS_PACKET_MAX_SIZE) {ret : Nat} (h : 4 ≤ ret)
    (hmax : ret ≤ DNS_PACKET_MAX_SIZE) :
    ∃ ip, getIp recvBuf ret = some ip ∧ ip.cells = lastFour (recvBuf.cells.take ret) := by
  have hlen : (recvBuf.cells.take ret).length = ret := by
    rw [List.length_take, Block.length_cells]
    omega
  have hsplit : recvBuf.cells.drop (ret - 4)
      = lastFour (recvBuf.cells.take ret) ++ recvBuf.cells.drop ret := by
    calc recvBuf.cells.drop (ret - 4)
        = (recvBuf.cells.take ret ++ recvBuf.cells.drop ret).drop (ret - 4) := by
          rw [List.take_append_drop]
      _ = lastFour (recvBuf.cells.take ret) ++ recvBuf.cells.drop ret := by
          rw [List.drop_append_of_le_length (by omega), lastFour, hlen]
  have hloop : getIp recvBuf ret
      = (Block.replicate 4 (0 : UInt8)).copyIn 0 (recvBuf.cells.drop (ret - 4)) 4 := by
    rw [getIp, Block.copyIn]
    congr 1
    funext i ip
    have hindex : (ret : Int) - 4 + i = ((ret - 4 + i : Nat) : Int) := by omega
    rw [hindex, Block.loadInt_natCast, Block.load, List.getElem?_drop, Nat.zero_add]
  obtain ⟨ip, hrun, hfill⟩ := (Block.filled_nil (Block.replicate 4 (0 : UInt8))).copyIn 0 rfl
    (lastFour (recvBuf.cells.take ret)) (recvBuf.cells.drop ret)
    (by rw [length_lastFour (by omega)]; exact Nat.le_refl 4)
  rw [← hsplit, length_lastFour (by omega), ← hloop] at hrun
  exact ⟨ip, hrun, hfill.cells_eq (by rw [List.nil_append, length_lastFour (by omega)])⟩

/-- Below four bytes the first one is looked for in front of the buffer. -/
theorem getIp_none (recvBuf : Block UInt8 DNS_PACKET_MAX_SIZE) {ret : Nat} (h : ret < 4) :
    getIp recvBuf ret = none := by
  rw [getIp, forLoop_succ, Block.loadInt_of_neg (by omega)]
  rfl

/-- What is printed is the text of the address, with a NUL behind it. -/
theorem sprintfIp_eq (ipaddr : Block UInt8 IPADDR_SIZE) (ip : Block UInt8 4) :
    ∃ out rest, sprintfIp ipaddr ip = some out ∧
      out.cells = Ipv4.text ip.cells ++ 0 :: rest := by
  obtain ⟨cells, hsize⟩ := ip
  obtain ⟨a, b, c, d, rfl⟩ : ∃ a b c d, cells = [a, b, c, d] := by
    match cells, hsize with
    | [a, b, c, d], _ => exact ⟨a, b, c, d, rfl⟩
  have hlen := Ipv4.length_text_quad a b c d
  obtain ⟨out, hrun, hfill⟩ := (Block.filled_nil ipaddr).copyIn 0 rfl
    (Ipv4.text [a, b, c, d] ++ [0]) []
    (by simp only [List.length_append, List.length_singleton, List.length_nil, IPADDR_SIZE]; omega)
  obtain ⟨rest, hcells⟩ := hfill
  refine ⟨out, rest, ?_, ?_⟩
  · rw [List.append_nil, Ipv4.text_quad, List.length_append, List.length_singleton] at hrun
    exact hrun
  · rw [← hcells, List.nil_append, List.append_assoc, List.singleton_append]

theorem dnsDeliver_eq (recvBuf : Block UInt8 DNS_PACKET_MAX_SIZE) {ret : Nat} (h : 4 ≤ ret)
    (hmax : ret ≤ DNS_PACKET_MAX_SIZE) (ipaddr : Block UInt8 IPADDR_SIZE) :
    ∃ out rest, dnsDeliver recvBuf ret ipaddr = some (0, out) ∧
      out.cells = Ipv4.text (lastFour (recvBuf.cells.take ret)) ++ 0 :: rest := by
  obtain ⟨ip, hget, hip⟩ := getIp_eq recvBuf h hmax
  obtain ⟨out, rest, hprint, hout⟩ := sprintfIp_eq ipaddr ip
  refine ⟨out, rest, ?_, by rw [hout, hip]⟩
  simp only [dnsDeliver, hget, hprint, Option.bind_eq_bind, Option.bind_some, pure]

theorem dnsDeliver_none {n : Nat} (recvBuf : Block UInt8 DNS_PACKET_MAX_SIZE) {ret : Nat}
    (h : ret < 4) (ipaddr : Block UInt8 n) : dnsDeliver recvBuf ret ipaddr = none := by
  rw [dnsDeliver, getIp_none recvBuf h]
  rfl

/-! ## The request -/

section Request

variable {n : Nat} {udpRequest : List UInt8 → Recv DNS_PACKET_MAX_SIZE} {r₀ r₁ : UInt8}
  {s msg : List UInt8} {fits : msg.length ≤ DNS_PACKET_MAX_SIZE}

/-- A host name with any other character is resolved: the query is sent, and
the reply decides. -/
theorem dnsRequest_resolved (hnul : 0 ∉ s) (hname : ∃ c ∈ s, isIpaddrChar c = false)
    (ipaddr : Block UInt8 n) {reply : Recv DNS_PACKET_MAX_SIZE}
    (hreply : udpRequest (queryBytes r₀ r₁ s) = reply) :
    dnsRequest udpRequest r₀ r₁ (s ++ [0]) (s.length + 1) ipaddr
      = if reply.ret < 0 then some (reply.ret, ipaddr)
        else dnsDeliver (reply.into (Block.replicate DNS_PACKET_MAX_SIZE 0)) reply.ret.toNat
          ipaddr := by
  obtain ⟨q, hrun, -, -, hcells⟩ := dnsQuery_eq r₀ r₁ hnul hname
  simp only [dnsRequest, hrun, Option.bind_eq_bind, Option.bind_some, hcells, hreply]
  rfl

theorem dnsRequest_error (hnul : 0 ∉ s) (hname : ∃ c ∈ s, isIpaddrChar c = false)
    (ipaddr : Block UInt8 n) {reply : Recv DNS_PACKET_MAX_SIZE}
    (hreply : udpRequest (queryBytes r₀ r₁ s) = reply) (hneg : reply.ret < 0) :
    dnsRequest udpRequest r₀ r₁ (s ++ [0]) (s.length + 1) ipaddr = some (reply.ret, ipaddr) := by
  rw [dnsRequest_resolved hnul hname ipaddr hreply, if_pos hneg]

/-- **Any message of four bytes or more is taken for an answer**, and its last
four for the address. -/
theorem dnsRequest_data (hnul : 0 ∉ s) (hname : ∃ c ∈ s, isIpaddrChar c = false)
    (ipaddr : Block UInt8 IPADDR_SIZE)
    (hreply : udpRequest (queryBytes r₀ r₁ s) = .data msg fits) (hlen : 4 ≤ msg.length) :
    ∃ out rest, dnsRequest udpRequest r₀ r₁ (s ++ [0]) (s.length + 1) ipaddr = some (0, out) ∧
      out.cells = Ipv4.text (lastFour msg) ++ 0 :: rest := by
  have hret : ¬ (Recv.data msg fits).ret < 0 := Int.not_lt.mpr (Int.natCast_nonneg _)
  have htake : (((Recv.data msg fits).into (Block.replicate DNS_PACKET_MAX_SIZE 0)).cells.take
      msg.length) = msg := by
    rw [Mqtt.cells_into, List.take_left]
  obtain ⟨out, rest, hrun, hout⟩ := dnsDeliver_eq
    ((Recv.data msg fits).into (Block.replicate DNS_PACKET_MAX_SIZE 0)) hlen fits ipaddr
  rw [htake] at hout
  refine ⟨out, rest, ?_, hout⟩
  rw [dnsRequest_resolved hnul hname ipaddr hreply, if_neg hret]
  exact hrun

/-- For a shorter one memory in front of the receive buffer is read. -/
theorem dnsRequest_short (hnul : 0 ∉ s) (hname : ∃ c ∈ s, isIpaddrChar c = false)
    (ipaddr : Block UInt8 n) (hreply : udpRequest (queryBytes r₀ r₁ s) = .data msg fits)
    (hlen : msg.length < 4) :
    dnsRequest udpRequest r₀ r₁ (s ++ [0]) (s.length + 1) ipaddr = none := by
  have hret : ¬ (Recv.data msg fits).ret < 0 := Int.not_lt.mpr (Int.natCast_nonneg _)
  rw [dnsRequest_resolved hnul hname ipaddr hreply, if_neg hret]
  exact dnsDeliver_none _ hlen ipaddr

/-- A host name of digits and dots is copied as it is. -/
theorem dnsRequest_verbatim (h : s.all isIpaddrChar = true) (ipaddr : Block UInt8 n) :
    dnsRequest udpRequest r₀ r₁ (s ++ [0]) (s.length + 1) ipaddr
      = (ipaddr.copyIn 0 (s ++ [0]) (s.length + 1)).map (0, ·) := by
  simp only [dnsRequest, dnsQuery_none r₀ r₁ h, Option.bind_eq_bind, Option.bind_some,
    Option.map_eq_bind]
  rfl

end Request

end NucleoMqtt.Net
