import NucleoMqtt.App.MainLoop
import NucleoMqtt.Net.Dhcp
import NucleoMqtt.Net.DnsRequest
import NucleoMqtt.Net.InetRoundTrip
import NucleoMqtt.Rtc.NetworkTime

/-!
# App — from the network configuration to the broker

`Main_Thread` between the first `Sw_DHCP_Request` and `Sw_MQTT_Init`: the
gateway is stored as text, two host names are resolved, the time is asked for
and written to the clock, and the broker is connected to. Every address
passes through a buffer of 16 characters on its way from one call to the
next. `Site.plan` is the same start-up on addresses.

`startUp` is that part of `Main_Thread` with its data, `mainStep` its control
alone. `startUp_mainThread` says that they are one: the values that the calls
return lead `Main_Thread` where `startUp` ends.
-/

namespace NucleoMqtt.App

open NucleoMqtt.Lib NucleoMqtt.Spec NucleoMqtt.Net NucleoMqtt.Rtc
open NucleoMqtt.Mqtt (Recv cString cString_append_zero cString_of_not_mem)

/-! ## The calls -/

/-- Whom a socket sends to, both fields in network order. -/
structure Endpoint where
  addr : UInt32
  port : UInt16
deriving DecidableEq

/-- `lwip_htons`. -/
def htons (x : UInt16) : UInt16 := ((x &&& 0xff) <<< 8) ||| ((x &&& 0xff00) >>> 8)

/-- What `recvfrom` makes of the answer to a datagram, by the endpoint that
it has been sent to. -/
def Network := Endpoint → List UInt8 → (len : Nat) → Recv len

/-- `UDP_Request`, with the text of an address. -/
def udpRequest {len : Nat} (net : Network) (ipaddr : List UInt8) (port : UInt16)
    (msg : List UInt8) : Recv len :=
  net ⟨ipaddrAddr (cString ipaddr), htons port⟩ msg len

def DNS_PORT : UInt16 := 53
def NTP_PORT : UInt16 := 123

/-- `NTP_REQUEST`: zeros behind the first byte. -/
def NTP_REQUEST : List UInt8 := 0xE3 :: List.replicate 47 0

/-- The conversions of lwIP. -/
def lwipInet : Inet where
  addr := ipaddrAddr
  ntoa addr := cString ((ip4addrNtoa addr).getD [])

/-- `sprintf(gateway, "%s", …)`, the one effect of `DHCP_Request` on the
buffer of `Main_Thread`. -/
def storeGateway (gateway : Block UInt8 IPADDR_SIZE) :
    DhcpEffect → Option (Block UInt8 IPADDR_SIZE)
  | .gateway text => gateway.copyIn 0 (text ++ [0]) (text.length + 1)
  | _ => some gateway

/-- `DNS_SERVER`: the buffer of the gateway, or a text of the settings. -/
inductive DnsServer where
  | gateway
  | text (ipaddr : List UInt8)

/-- The string that the argument `DNS_SERVER` points to. -/
def DnsServer.arg (gateway : Block UInt8 IPADDR_SIZE) : DnsServer → List UInt8
  | .gateway => gateway.cells
  | .text ipaddr => ipaddr ++ [0]

/-- The settings that the start-up looks at. -/
structure Site where
  dnsServer : DnsServer
  ntpServer : List UInt8
  broker : List UInt8
  gmtTime : Int
  mqttPort : UInt16

/-- What the start-up is answered: by the network to each of the three
requests, by the random numbers in the transaction identifiers, and by the
clock, which enters its initialisation mode or does not. -/
structure Surroundings where
  net : Nat → Network
  rand : Nat → UInt8
  enteredTime : Bool
  enteredDate : Bool

/-- How the start-up ends. -/
inductive StartUp where
  | errorHandler
  /-- `connect` to the broker, with what the clock holds then -/
  | connect (peer : Endpoint) (clock : Registers)

/-- The first call of `Sw_DNS_Request`. -/
def requestNtp (env : Surroundings) (site : Site) (gateway ntpIpaddr : Block UInt8 IPADDR_SIZE) :
    Option (Int × Block UInt8 IPADDR_SIZE) :=
  dnsRequest (udpRequest (env.net 0) (site.dnsServer.arg gateway) DNS_PORT) (env.rand 0)
    (env.rand 1) (site.ntpServer ++ [0]) (site.ntpServer.length + 1) ntpIpaddr

/-- The call of `Sw_NTP_Request`. -/
def requestTime (env : Surroundings) (site : Site) (ntpIpaddr : Block UInt8 IPADDR_SIZE)
    (curtime : Int) : Option (Int × Int) :=
  ntpRequest (udpRequest (env.net 1) ntpIpaddr.cells NTP_PORT NTP_REQUEST) site.gmtTime curtime

/-- The second call of `Sw_DNS_Request`. -/
def requestMqtt (env : Surroundings) (site : Site)
    (gateway mqttIpaddr : Block UInt8 IPADDR_SIZE) : Option (Int × Block UInt8 IPADDR_SIZE) :=
  dnsRequest (udpRequest (env.net 2) (site.dnsServer.arg gateway) DNS_PORT) (env.rand 2)
    (env.rand 3) (site.broker ++ [0]) (site.broker.length + 1) mqttIpaddr

/-- `Main_Thread` from the first `Sw_DNS_Request` to `Sw_MQTT_Init`. -/
def startUp (env : Surroundings) (site : Site) (gateway : Block UInt8 IPADDR_SIZE)
    (clock : Registers) : Option StartUp := do
  let (ret, ntpIpaddr) ← requestNtp env site gateway (Block.replicate IPADDR_SIZE 0)
  if ret < 0 then return .errorHandler
  else
    let (ret, curtime) ← requestTime env site ntpIpaddr 0
    if ret < 0 then return .errorHandler
    else
      let clock := rtcWrite env.enteredTime env.enteredDate clock curtime
      let (ret, mqttIpaddr) ← requestMqtt env site gateway (Block.replicate IPADDR_SIZE 0)
      if ret < 0 then return .errorHandler
      else
        return .connect ⟨ipaddrAddr (cString mqttIpaddr.cells), htons site.mqttPort⟩ clock

/-! ## The plan -/

/-- The address that has the bytes in memory. -/
def word : List UInt8 → UInt32
  | [a, b, c, d] => htonl (UInt32.ofNat (a.toNat * 2 ^ 24 + b.toNat * 2 ^ 16 + c.toNat * 2 ^ 8
      + d.toNat))
  | _ => 0

/-- A number of bytes, the first one on top. -/
def bigEndian (cs : List UInt8) : Nat := cs.foldl (fun v c => 256 * v + c.toNat) 0

/-- The transmit seconds of a reply, with zeros for what is missing. -/
def transmitSeconds (bytes : List UInt8) : Nat :=
  bigEndian (((bytes ++ List.replicate (NTP_PACKET_SIZE - bytes.length) 0).drop 40).take 4)

/-- A host name is resolved by the last four bytes of the answer. -/
def resolve (net : Network) (server : UInt32) (r₀ r₁ : UInt8) (host : List UInt8) : Option UInt32 :=
  match net ⟨server, htons DNS_PORT⟩ (queryBytes r₀ r₁ host) DNS_PACKET_MAX_SIZE with
  | .error _ _ => none
  | .data msg _ => some (word (lastFour msg))

/-- The seconds that a time server sends. -/
def askTime (net : Network) (server : UInt32) : Option Nat :=
  match net ⟨server, htons NTP_PORT⟩ NTP_REQUEST NTP_PACKET_SIZE with
  | .error _ _ => none
  | .data bytes _ => some (transmitSeconds bytes)

/-- The address of the DNS server. -/
def DnsServer.addr (gw : UInt32) : DnsServer → UInt32
  | .gateway => gw
  | .text ipaddr => ipaddrAddr (cString ipaddr)

/-- **The start-up on addresses**: the broker's, and the time. -/
def Site.plan (site : Site) (env : Surroundings) (gw : UInt32) : Option (UInt32 × Int) := do
  let dns := site.dnsServer.addr gw
  let server ← resolve (env.net 0) dns (env.rand 0) (env.rand 1) site.ntpServer
  let secs ← askTime (env.net 1) server
  let broker ← resolve (env.net 2) dns (env.rand 2) (env.rand 3) site.broker
  return (broker, (secs : Int) - SECS_FROM_1900_TO_1970 + 3600 * site.gmtTime)

/-- How the start-up ends for a plan. -/
def Site.outcome (site : Site) (env : Surroundings) (clock : Registers) :
    Option (UInt32 × Int) → StartUp
  | none => .errorHandler
  | some (broker, time) =>
      .connect ⟨broker, htons site.mqttPort⟩
        (rtcWrite env.enteredTime env.enteredDate clock time)

/-! ## Text and address -/

theorem four_bytes {cs : List UInt8} (h : cs.length = 4) : ∃ a b c d, cs = [a, b, c, d] := by
  match cs, h with
  | [a, b, c, d], _ => exact ⟨a, b, c, d, rfl⟩

theorem memory_word {ip : List UInt8} (h : ip.length = 4) : memory (word ip) = ip := by
  obtain ⟨a, b, c, d, rfl⟩ := four_bytes h
  exact memory_htonl_quad a b c d

theorem word_memory (addr : UInt32) : word (memory addr) = addr :=
  memory_inj (memory_word rfl)

/-- The text that is left in a buffer is read as the address. -/
theorem ipaddrAddr_text {ip rest : List UInt8} (h : ip.length = 4) :
    ipaddrAddr (cString (Ipv4.text ip ++ 0 :: rest)) = word ip := by
  have hword := ip4addrAton_memory (word ip)
  rw [memory_word h] at hword
  rw [cString_append_zero, cString_of_not_mem Ipv4.not_mem_text, ipaddrAddr, hword,
    Option.getD_some]

theorem lwipInet_ntoa (addr : UInt32) : lwipInet.ntoa addr = Ipv4.text (memory addr) := by
  show cString ((ip4addrNtoa addr).getD []) = _
  rw [ip4addrNtoa_eq, Option.getD_some, cString_append_zero,
    cString_of_not_mem Ipv4.not_mem_text]

/-! ## The gateway -/

/-- Only the call that finishes stores a gateway, behind the configuration
that it shows. -/
theorem dhcpRequest_gateway (inet : Inet) (dhcpAttempts : Int) (static : StaticConfig)
    {v : DhcpVars} (l : Lwip) (hv : v.state ≠ .finish) :
    ∃ pre, (∀ text, .gateway text ∉ pre) ∧
      (((dhcpRequest inet dhcpAttempts static v l).1.state ≠ .finish ∧
          (dhcpRequest inet dhcpAttempts static v l).2 = pre) ∨
        ((dhcpRequest inet dhcpAttempts static v l).1.state = .finish ∧
          ∃ c, (dhcpRequest inet dhcpAttempts static v l).2 = pre ++ netifInfo inet c)) := by
  obtain ⟨state, count⟩ := v
  cases state with
  | start =>
      refine ⟨if dhcpAttempts > 0 then [.dhcpStart] else [], ?_, Or.inl ⟨by rintro ⟨⟩, rfl⟩⟩
      intro text
      by_cases hask : dhcpAttempts > 0 <;> simp [hask]
  | wait =>
      rw [dhcpRequest]
      by_cases hyes : l.supplied = true
      · simp only [hyes, if_true]
        exact ⟨[.poll true], by simp, Or.inr ⟨trivial, l.netif, rfl⟩⟩
      · simp only [hyes]
        by_cases hcount : count < dhcpAttempts
        · simp only [hcount, if_true]
          exact ⟨[.poll false], by simp, Or.inl ⟨by rintro ⟨⟩, rfl⟩⟩
        · simp only [hcount, if_false]
          refine ⟨.poll false :: (if dhcpAttempts > 0 then [.dhcpStop] else [])
            ++ [.netifSetAddr (static.parse inet)], ?_, Or.inr ⟨rfl, static.parse inet, ?_⟩⟩
          · intro text
            by_cases hask : dhcpAttempts > 0 <;> simp [hask]
          · simp only [List.append_assoc]
            rfl
  | finish => exact absurd rfl hv

/-- Other effects leave the buffer alone. -/
theorem storeGateway_none {gateway : Block UInt8 IPADDR_SIZE} {es : List DhcpEffect}
    (h : ∀ text, .gateway text ∉ es) : es.foldlM storeGateway gateway = some gateway := by
  induction es with
  | nil => rfl
  | cons e es ih =>
      have hes := ih fun text hmem => h text (List.mem_cons_of_mem e hmem)
      cases e with
      | gateway text => exact absurd List.mem_cons_self (h text)
      | _ => exact hes

/-- The gateway fits the buffer. -/
theorem storeGateway_ntoa (gateway : Block UInt8 IPADDR_SIZE) (addr : UInt32) :
    ∃ out rest, storeGateway gateway (.gateway (lwipInet.ntoa addr)) = some out ∧
      out.cells = Ipv4.text (memory addr) ++ 0 :: rest := by
  have hfit := length_text_memory addr
  have hlen : (Ipv4.text (memory addr) ++ [0]).length = (Ipv4.text (memory addr)).length + 1 :=
    List.length_append
  obtain ⟨out, hcopy, rest, hcells⟩ := (Block.filled_nil gateway).copyIn 0 rfl
    (Ipv4.text (memory addr) ++ [0]) [] (by
      rw [hlen, List.length_nil, Nat.zero_add]
      exact hfit)
  rw [List.append_nil, hlen] at hcopy
  refine ⟨out, rest, ?_, ?_⟩
  · rw [storeGateway, lwipInet_ntoa]
    exact hcopy
  · rw [← hcells, List.nil_append, List.append_assoc, List.singleton_append]

section Configured

variable {dhcpAttempts : Int} {static : StaticConfig} {lwip : Nat → Lwip}

/-- The calls in front of the last one store nothing. -/
theorem storeGateway_waiting {n : Nat} (gateway : Block UInt8 IPADDR_SIZE)
    (hwait : ∀ m < n, retAt lwipInet dhcpAttempts static lwip m < 0) :
    (varsAt lwipInet dhcpAttempts static lwip n).state ≠ .finish ∧
      (effectsUpTo lwipInet dhcpAttempts static lwip n).foldlM storeGateway gateway
        = some gateway := by
  induction n with
  | zero => exact ⟨by rintro ⟨⟩, rfl⟩
  | succ n ih =>
      obtain ⟨hstate, hfold⟩ := ih fun m hm => hwait m (Nat.lt_succ_of_lt hm)
      have hnext : (varsAt lwipInet dhcpAttempts static lwip (n + 1)).state ≠ .finish := by
        intro hfinish
        have hneg := hwait n (Nat.lt_succ_self n)
        rw [retAt, hfinish] at hneg
        exact absurd hneg (Int.lt_irrefl 0)
      obtain ⟨pre, hpre, ⟨-, heffects⟩ | ⟨hfinish, -⟩⟩ :=
        dhcpRequest_gateway lwipInet dhcpAttempts static (lwip n) hstate
      · refine ⟨hnext, ?_⟩
        rw [effectsUpTo_succ, List.foldlM_append, hfold, effectsAt, heffects]
        exact storeGateway_none hpre
      · exact absurd hfinish hnext

/-- **The gateway stored** is that of the configuration shown. -/
theorem gateway_stored {n : Nat} (gateway : Block UInt8 IPADDR_SIZE)
    (hwait : ∀ m < n, retAt lwipInet dhcpAttempts static lwip m < 0)
    (hlast : retAt lwipInet dhcpAttempts static lwip n = 0) :
    ∃ c out rest, .info c ∈ effectsAt lwipInet dhcpAttempts static lwip n ∧
      (effectsUpTo lwipInet dhcpAttempts static lwip (n + 1)).foldlM storeGateway gateway
        = some out ∧ out.cells = Ipv4.text (memory c.gw) ++ 0 :: rest := by
  obtain ⟨hstate, hfold⟩ := storeGateway_waiting gateway hwait
  obtain ⟨pre, hpre, ⟨hopen, -⟩ | ⟨-, c, heffects⟩⟩ :=
    dhcpRequest_gateway lwipInet dhcpAttempts static (lwip n) hstate
  · refine absurd ?_ hopen
    cases hcode : (varsAt lwipInet dhcpAttempts static lwip (n + 1)).state with
    | finish => exact hcode
    | start | wait =>
        rw [retAt, hcode] at hlast
        cases hlast
  · obtain ⟨out, rest, hstore, hcells⟩ := storeGateway_ntoa gateway c.gw
    refine ⟨c, out, rest, ?_, ?_, hcells⟩
    · rw [effectsAt, heffects, netifInfo]
      simp
    · rw [effectsUpTo_succ, List.foldlM_append, hfold, effectsAt, heffects]
      show (pre ++ netifInfo lwipInet c).foldlM storeGateway gateway = some out
      rw [List.foldlM_append, storeGateway_none hpre]
      show (storeGateway gateway (.gateway (lwipInet.ntoa c.gw))).bind _ = some out
      rw [hstore]
      rfl

end Configured

/-! ## The requests -/

/-- Every answer of a DNS server has the length of an address at least; for a
shorter one `DNS_Request` reads in front of its buffer. -/
def Network.Answers (net : Network) : Prop :=
  ∀ peer msg bytes fits, net peer msg DNS_PACKET_MAX_SIZE = .data bytes fits → 4 ≤ bytes.length

/-- A host name that is resolved. -/
structure IsName (host : List UInt8) : Prop where
  nul : 0 ∉ host
  name : ∃ c ∈ host, isIpaddrChar c = false

/-- **`DNS_Request` resolves**: the text it leaves is read as the address
that the answer ends with. -/
theorem dnsRequest_resolve {net : Network} (hnet : net.Answers) {dnsServer host : List UInt8}
    {server : UInt32} (hserver : ipaddrAddr (cString dnsServer) = server) (hhost : IsName host)
    (r₀ r₁ : UInt8) (ipaddr : Block UInt8 IPADDR_SIZE) :
    (resolve net server r₀ r₁ host = none ∧ ∃ ret out, ret < 0 ∧
      dnsRequest (udpRequest net dnsServer DNS_PORT) r₀ r₁ (host ++ [0]) (host.length + 1) ipaddr
        = some (ret, out)) ∨
    ∃ addr out, resolve net server r₀ r₁ host = some addr ∧
      dnsRequest (udpRequest net dnsServer DNS_PORT) r₀ r₁ (host ++ [0]) (host.length + 1) ipaddr
        = some (0, out) ∧ ipaddrAddr (cString out.cells) = addr := by
  subst hserver
  cases hreply : net ⟨ipaddrAddr (cString dnsServer), htons DNS_PORT⟩ (queryBytes r₀ r₁ host)
      DNS_PACKET_MAX_SIZE with
  | error code neg =>
      left
      refine ⟨by rw [resolve, hreply], code, ipaddr, neg, ?_⟩
      have hreply' : udpRequest net dnsServer DNS_PORT (queryBytes r₀ r₁ host)
        = .error code neg := hreply
      exact dnsRequest_error hhost.nul hhost.name ipaddr hreply' neg
  | data msg fits =>
      right
      have hlen := hnet _ _ _ _ hreply
      have hreply' : udpRequest net dnsServer DNS_PORT (queryBytes r₀ r₁ host)
        = .data msg fits := hreply
      obtain ⟨out, rest, hrun, hcells⟩ :=
        dnsRequest_data hhost.nul hhost.name ipaddr hreply' hlen
      refine ⟨_, out, by rw [resolve, hreply], hrun, ?_⟩
      rw [hcells, ipaddrAddr_text (length_lastFour hlen)]

/-- What `NTP_Request` takes out of a zeroed buffer. -/
theorem secsSince1900_into {bytes : List UInt8} (fits : bytes.length ≤ NTP_PACKET_SIZE) :
    secsSince1900 ((Recv.data bytes fits).into (Block.replicate NTP_PACKET_SIZE 0))
      = some (transmitSeconds bytes) := by
  have hcells : ((Recv.data bytes fits).into (Block.replicate NTP_PACKET_SIZE 0)).cells
      = bytes ++ List.replicate (NTP_PACKET_SIZE - bytes.length) 0 := by
    rw [Mqtt.cells_into]
    exact congrArg (bytes ++ ·) List.drop_replicate
  have hlen : (((bytes ++ List.replicate (NTP_PACKET_SIZE - bytes.length) 0).drop 40).take
      4).length = 4 := by
    rw [List.length_take, List.length_drop, List.length_append, List.length_replicate,
      NTP_PACKET_SIZE]
    rw [NTP_PACKET_SIZE] at fits
    omega
  obtain ⟨a, b, c, d, htake⟩ : ∃ a b c d, ((bytes ++ List.replicate
      (NTP_PACKET_SIZE - bytes.length) 0).drop 40).take 4 = [a, b, c, d] :=
    four_bytes hlen
  have hload {i : Nat} (hi : i < 4) :
      ((Recv.data bytes fits).into (Block.replicate NTP_PACKET_SIZE 0)).load (40 + i)
        = [a, b, c, d][i]? := by
    rw [Block.load, hcells, ← htake, List.getElem?_take_of_lt hi, List.getElem?_drop]
  have h0 := hload (i := 0) (by decide)
  have h1 := hload (i := 1) (by decide)
  have h2 := hload (i := 2) (by decide)
  have h3 := hload (i := 3) (by decide)
  have ha := a.toNat_lt
  have hb := b.toNat_lt
  have hc := c.toNat_lt
  have hd := d.toNat_lt
  simp only [Nat.add_zero] at h0
  simp only [secsSince1900, h0, h1, h2, h3, transmitSeconds, htake, bigEndian, List.foldl_cons,
    List.foldl_nil, List.getElem?_cons_zero, List.getElem?_cons_succ, Option.bind_eq_bind,
    Option.bind_some, pure, Option.some.injEq]
  omega

/-- **`NTP_Request` asks the time.** -/
theorem ntpRequest_askTime (net : Network) {ipaddr : List UInt8} {server : UInt32}
    (hserver : ipaddrAddr (cString ipaddr) = server) {gmtTime : Int} (hwest : -12 ≤ gmtTime)
    (heast : gmtTime ≤ 14) (curtime : Int) :
    (askTime net server = none ∧ ∃ ret, ret < 0 ∧
      ntpRequest (udpRequest net ipaddr NTP_PORT NTP_REQUEST) gmtTime curtime
        = some (ret, curtime)) ∨
    ∃ secs, askTime net server = some secs ∧
      ntpRequest (udpRequest net ipaddr NTP_PORT NTP_REQUEST) gmtTime curtime
        = some (0, (secs : Int) - SECS_FROM_1900_TO_1970 + 3600 * gmtTime) := by
  subst hserver
  have hreply : udpRequest net ipaddr NTP_PORT NTP_REQUEST
      = net ⟨ipaddrAddr (cString ipaddr), htons NTP_PORT⟩ NTP_REQUEST NTP_PACKET_SIZE := rfl
  rw [hreply, askTime]
  cases net ⟨ipaddrAddr (cString ipaddr), htons NTP_PORT⟩ NTP_REQUEST NTP_PACKET_SIZE with
  | error code neg =>
      refine Or.inl ⟨rfl, code, neg, ?_⟩
      rw [ntpRequest]
      exact if_pos neg
  | data bytes fits =>
      refine Or.inr ⟨_, rfl, ?_⟩
      have hret : ¬ (Recv.data bytes fits).ret < 0 := Int.not_lt.mpr (Int.natCast_nonneg _)
      rw [ntpRequest_of_secs hret (secsSince1900_into fits), gmtOffset_eq hwest heast]
      rfl

/-! ## The whole -/

/-- The string in `DNS_SERVER` is read as the address of the plan. -/
theorem DnsServer.ipaddrAddr_arg (d : DnsServer) {gateway : Block UInt8 IPADDR_SIZE}
    {gw : UInt32} (h : ipaddrAddr (cString gateway.cells) = gw) :
    ipaddrAddr (cString (d.arg gateway)) = d.addr gw := by
  cases d with
  | gateway => exact h
  | text ipaddr => rw [arg, addr, cString_append_zero]

/-- **The start-up carries out the plan.** Take any DNS server, the gateway or
a text; any configuration that DHCP ends with; any network whose DNS answers
have four bytes; host names that are not addresses, and a time zone of the
earth. Through whatever buffers the addresses go: the DNS server is asked for
the two names, the server found is asked for the time, and the broker found
is connected to, with the clock written. If a request fails, the program
ends. -/
theorem startUp_plan {dhcpAttempts : Int} {static : StaticConfig} {lwip : Nat → Lwip} {n : Nat}
    (hwait : ∀ m < n, retAt lwipInet dhcpAttempts static lwip m < 0)
    (hlast : retAt lwipInet dhcpAttempts static lwip n = 0) {env : Surroundings}
    (hnet : ∀ k, (env.net k).Answers) {site : Site} (hntp : IsName site.ntpServer)
    (hbroker : IsName site.broker) (hwest : -12 ≤ site.gmtTime) (heast : site.gmtTime ≤ 14)
    (clock : Registers) :
    ∃ c gateway, .info c ∈ effectsAt lwipInet dhcpAttempts static lwip n ∧
      (effectsUpTo lwipInet dhcpAttempts static lwip (n + 1)).foldlM storeGateway
        (Block.replicate IPADDR_SIZE 0) = some gateway ∧
      startUp env site gateway clock = some (site.outcome env clock (site.plan env c.gw)) := by
  obtain ⟨c, gateway, rest, hinfo, hstored, hcells⟩ :=
    gateway_stored (Block.replicate IPADDR_SIZE 0) hwait hlast
  refine ⟨c, gateway, hinfo, hstored, ?_⟩
  have hserver : ipaddrAddr (cString (site.dnsServer.arg gateway)) = site.dnsServer.addr c.gw :=
    site.dnsServer.ipaddrAddr_arg (by rw [hcells, ipaddrAddr_text rfl, word_memory])
  rw [startUp, Site.plan, requestNtp]
  -- the first name
  obtain ⟨hnone, ret, out, hneg, hrun⟩ | ⟨server, out, hsome, hrun, hout⟩ :=
    dnsRequest_resolve (hnet 0) hserver hntp (env.rand 0) (env.rand 1)
      (Block.replicate IPADDR_SIZE 0)
  · simp only [hrun, hnone, Option.bind_eq_bind, Option.bind_some, Option.bind_none, if_pos hneg]
    rfl
  simp only [hrun, hsome, Option.bind_eq_bind, Option.bind_some, if_neg (Int.lt_irrefl 0)]
  -- the time
  rw [requestTime]
  obtain ⟨hnone, ret, hneg, hrun⟩ | ⟨secs, hsome, hrun⟩ :=
    ntpRequest_askTime (env.net 1) hout hwest heast 0
  · simp only [hrun, hnone, Option.bind_some, Option.bind_none, if_pos hneg]
    rfl
  simp only [hrun, hsome, Option.bind_some, if_neg (Int.lt_irrefl 0)]
  -- the second name
  rw [requestMqtt]
  obtain ⟨hnone, ret, out₂, hneg, hrun⟩ | ⟨broker, out₂, hsome, hrun, hout₂⟩ :=
    dnsRequest_resolve (hnet 2) hserver hbroker (env.rand 2) (env.rand 3)
      (Block.replicate IPADDR_SIZE 0)
  · simp only [hrun, hnone, Option.bind_some, Option.bind_none, if_pos hneg]
    rfl
  simp only [hrun, hsome, hout₂, Option.bind_some, if_neg (Int.lt_irrefl 0)]
  rfl

/-- A network that answers every request with an address alone. -/
def bareNetwork : Network := fun _ _ len =>
  if h : 4 ≤ len then .data [10, 0, 0, 1] h else .error (-1) minusOne_neg

theorem bareNetwork_answers : bareNetwork.Answers := by
  intro peer msg bytes fits h
  have hdata : bareNetwork peer msg DNS_PACKET_MAX_SIZE = .data [10, 0, 0, 1] (by decide) := rfl
  cases hdata.symm.trans h
  exact Nat.le_refl 4

def bareSurroundings : Surroundings := ⟨fun _ => bareNetwork, fun _ => 7, true, true⟩

/-- An interface that is configured at once. -/
def readyLwip : Nat → Lwip := fun _ => ⟨true, ⟨word [10, 0, 0, 7], word [255, 0, 0, 0],
  word [10, 0, 0, 254]⟩⟩

/-- The settings of the program: `8.8.8.8`, `time.windows.com` and
`test.mosquitto.org`. -/
def settings : Site where
  dnsServer := .text (ascii ['8', '.', '8', '.', '8', '.', '8'])
  ntpServer := ascii ['t', 'i', 'm', 'e', '.', 'w', 'i', 'n', 'd', 'o', 'w', 's', '.', 'c',
    'o', 'm']
  broker := ascii ['t', 'e', 's', 't', '.', 'm', 'o', 's', 'q', 'u', 'i', 't', 't', 'o', '.', 'o',
    'r', 'g']
  gmtTime := 1
  mqttPort := 8883

/-- Their DNS server is asked, whatever the gateway is. -/
example : settings.dnsServer.addr (word [10, 0, 0, 254]) = word [8, 8, 8, 8] := by decide +kernel

theorem startUp_plan_settings :
    ∃ c gateway, .info c ∈ effectsAt lwipInet 50 ⟨[], [], []⟩ readyLwip 1 ∧
      (effectsUpTo lwipInet 50 ⟨[], [], []⟩ readyLwip 2).foldlM storeGateway
        (Block.replicate IPADDR_SIZE 0) = some gateway ∧
      startUp bareSurroundings settings gateway ⟨0, 0⟩
        = some (settings.outcome bareSurroundings ⟨0, 0⟩
            (settings.plan bareSurroundings c.gw)) :=
  startUp_plan (n := 1)
    (fun m hm => by
      obtain rfl : m = 0 := Nat.lt_one_iff.mp hm
      exact minusOne_neg)
    rfl (fun _ => bareNetwork_answers) ⟨by decide, 116, by decide, rfl⟩
    ⟨by decide, 116, by decide, rfl⟩ (by decide) (by decide) ⟨0, 0⟩

/-! ## The start-up in Main_Thread -/

/-- The variables of `Main_Thread` that the start-up fills, and the clock. -/
structure StartVars where
  gateway : Block UInt8 IPADDR_SIZE
  ntpIpaddr : Block UInt8 IPADDR_SIZE
  curtime : Int
  mqttIpaddr : Block UInt8 IPADDR_SIZE
  clock : Registers

/-- What a call of the start-up gives back, and what it leaves. -/
def startCall (env : Surroundings) (site : Site) (v : StartVars) :
    MainPc → Option (Answer × StartVars)
  | .dnsRequestNtp =>
      (requestNtp env site v.gateway v.ntpIpaddr).map fun (ret, ntpIpaddr) =>
        (.int ret, { v with ntpIpaddr := ntpIpaddr })
  | .ntpRequest =>
      (requestTime env site v.ntpIpaddr v.curtime).map fun (ret, curtime) =>
        (.int ret, { v with curtime := curtime })
  | .rtcWrite =>
      some (.void,
        { v with clock := rtcWrite env.enteredTime env.enteredDate v.clock v.curtime })
  | .dnsRequestMqtt =>
      (requestMqtt env site v.gateway v.mqttIpaddr).map fun (ret, mqttIpaddr) =>
        (.int ret, { v with mqttIpaddr := mqttIpaddr })
  | _ => none

/-- The calls from `pc` to `pc'`, with what they are answered. -/
inductive Starts (env : Surroundings) (site : Site) (b : Board) :
    MainPc → StartVars → List Answer → MainPc → StartVars → Prop where
  | here (pc : MainPc) (v : StartVars) : Starts env site b pc v [] pc v
  | call {pc pc₁ pc' : MainPc} {v v₁ v' : StartVars} {a : Answer} {answers : List Answer}
      (hcall : startCall env site v pc = some (a, v₁))
      (hstep : mainStep pc a b = some (pc₁, b))
      (hrest : Starts env site b pc₁ v₁ answers pc' v') :
      Starts env site b pc v (a :: answers) pc' v'

/-- The answers lead `Main_Thread` there, and leave the board alone. -/
theorem Starts.runMain {env : Surroundings} {site : Site} {b : Board} {pc pc' : MainPc}
    {v v' : StartVars} {answers : List Answer} (h : Starts env site b pc v answers pc' v') :
    runMain (pc, b) answers = some (pc', b) := by
  induction h with
  | here pc v => rfl
  | call hcall hstep hrest ih => rw [runMain_step hstep, ih]

/-- The call that `Main_Thread` makes next. -/
def StartUp.pc : StartUp → MainPc
  | .errorHandler => .errorHandler
  | .connect _ _ => .mqttInit

/-- The broker that `Sw_MQTT_Init` is given, and the clock. -/
def StartUp.From (site : Site) (v : StartVars) : StartUp → Prop
  | .errorHandler => True
  | .connect peer clock =>
      peer = ⟨ipaddrAddr (cString v.mqttIpaddr.cells), htons site.mqttPort⟩ ∧ clock = v.clock

/-- The variables in front of the first request. -/
def StartVars.init (gateway : Block UInt8 IPADDR_SIZE) (clock : Registers) : StartVars where
  gateway := gateway
  ntpIpaddr := Block.replicate IPADDR_SIZE 0
  curtime := 0
  mqttIpaddr := Block.replicate IPADDR_SIZE 0
  clock := clock

/-- **The start-up is that of Main_Thread**, call by call. -/
theorem startUp_starts {env : Surroundings} {site : Site} {gateway : Block UInt8 IPADDR_SIZE}
    {clock : Registers} {r : StartUp} (h : startUp env site gateway clock = some r) (b : Board) :
    ∃ answers v, Starts env site b .dnsRequestNtp (.init gateway clock) answers r.pc v ∧
      r.From site v := by
  obtain ⟨⟨ret, ntpIpaddr⟩, hntp, h⟩ := Option.bind_eq_some_iff.mp h
  have call₁ : startCall env site (.init gateway clock) .dnsRequestNtp
      = some (.int ret, { StartVars.init gateway clock with ntpIpaddr := ntpIpaddr }) := by
    rw [startCall, StartVars.init, hntp, Option.map_some]
  have step₁ : mainStep .dnsRequestNtp (.int ret) b
      = some (if ret < 0 then .errorHandler else .ntpRequest, b) := rfl
  by_cases hret : ret < 0
  · simp only [if_pos hret, pure, Option.some.injEq] at h step₁
    subst h
    exact ⟨_, _, .call call₁ step₁ (.here _ _), trivial⟩
  simp only [if_neg hret] at h step₁
  obtain ⟨⟨ret₂, curtime⟩, htime, h⟩ := Option.bind_eq_some_iff.mp h
  have call₂ : startCall env site
      { StartVars.init gateway clock with ntpIpaddr := ntpIpaddr } .ntpRequest
      = some (.int ret₂, { StartVars.init gateway clock with
          ntpIpaddr := ntpIpaddr, curtime := curtime }) := by
    rw [startCall, StartVars.init, htime, Option.map_some]
  have step₂ : mainStep .ntpRequest (.int ret₂) b
      = some (if ret₂ < 0 then .errorHandler else .rtcWrite, b) := rfl
  by_cases hret₂ : ret₂ < 0
  · simp only [if_pos hret₂, pure, Option.some.injEq] at h step₂
    subst h
    exact ⟨_, _, .call call₁ step₁ (.call call₂ step₂ (.here _ _)), trivial⟩
  simp only [if_neg hret₂] at h step₂
  obtain ⟨⟨ret₃, mqttIpaddr⟩, hmqtt, h⟩ := Option.bind_eq_some_iff.mp h
  have step₃ : mainStep .rtcWrite .void b = some (.dnsRequestMqtt, b) := rfl
  have call₄ : startCall env site
      { StartVars.init gateway clock with
        ntpIpaddr := ntpIpaddr
        curtime := curtime
        clock := rtcWrite env.enteredTime env.enteredDate clock curtime } .dnsRequestMqtt
      = some (.int ret₃,
        { gateway := gateway
          ntpIpaddr := ntpIpaddr
          curtime := curtime
          mqttIpaddr := mqttIpaddr
          clock := rtcWrite env.enteredTime env.enteredDate clock curtime }) := by
    rw [startCall, StartVars.init, hmqtt, Option.map_some]
  have step₄ : mainStep .dnsRequestMqtt (.int ret₃) b
      = some (if ret₃ < 0 then .errorHandler else .mqttInit, b) := rfl
  by_cases hret₃ : ret₃ < 0
  · simp only [if_pos hret₃, pure, Option.some.injEq] at h step₄
    subst h
    exact ⟨_, _, .call call₁ step₁ (.call call₂ step₂ (.call rfl step₃
      (.call call₄ step₄ (.here _ _)))), trivial⟩
  simp only [if_neg hret₃, pure, Option.some.injEq] at h step₄
  subst h
  exact ⟨_, _, .call call₁ step₁ (.call call₂ step₂ (.call rfl step₃
    (.call call₄ step₄ (.here _ _)))), rfl, rfl⟩

section Configured

variable {dhcpAttempts : Int} {static : StaticConfig} {lwip : Nat → Lwip}

/-- What the calls are answered until DHCP has ended and LD2 is on. -/
def dhcpAnswers (dhcpAttempts : Int) (static : StaticConfig) (lwip : Nat → Lwip) (n : Nat) :
    List Answer :=
  (List.range n).flatMap (fun m => [.int (retAt lwipInet dhcpAttempts static lwip m), .void])
    ++ [.int (retAt lwipInet dhcpAttempts static lwip n), .void]

/-- `Main_Thread` waits for the configuration. -/
theorem runMain_waiting (b : Board) {n : Nat}
    (hwait : ∀ m < n, retAt lwipInet dhcpAttempts static lwip m < 0) :
    runMain (.dhcpRequest, b) ((List.range n).flatMap
      (fun m => [.int (retAt lwipInet dhcpAttempts static lwip m), .void]))
      = some (.dhcpRequest, b) := by
  induction n with
  | zero => rfl
  | succ n ih =>
      have hneg := hwait n (Nat.lt_succ_self n)
      have hask : mainStep .dhcpRequest (.int (retAt lwipInet dhcpAttempts static lwip n)) b
          = some (.tickDelay, b) := by
        rw [mainStep, if_pos hneg]
      have hdelay : mainStep .tickDelay .void b = some (.dhcpRequest, b) := rfl
      rw [List.range_succ, List.flatMap_append, runMain, Machine.run_append, ← runMain,
        ih fun m hm => hwait m (Nat.lt_succ_of_lt hm), Option.bind_some,
        List.flatMap_singleton]
      exact (runMain_step hask _).trans (runMain_step hdelay [])

/-- `Main_Thread` up to the first request. -/
theorem runMain_dhcp (b : Board) {n : Nat}
    (hwait : ∀ m < n, retAt lwipInet dhcpAttempts static lwip m < 0)
    (hlast : retAt lwipInet dhcpAttempts static lwip n = 0) :
    runMain (.dhcpRequest, b) (dhcpAnswers dhcpAttempts static lwip n)
      = some (.dnsRequestNtp, b.setLed .ld2 true) := by
  rw [dhcpAnswers, hlast, runMain, Machine.run_append, ← runMain, runMain_waiting b hwait]
  rfl

/-- **Main_Thread goes where the start-up ends**: from the first call of
`Sw_DHCP_Request` on, the values that the calls return lead it to
`Error_Handler`, or to `Sw_MQTT_Init` with the broker's address. -/
theorem startUp_mainThread {n : Nat}
    (hwait : ∀ m < n, retAt lwipInet dhcpAttempts static lwip m < 0)
    (hlast : retAt lwipInet dhcpAttempts static lwip n = 0) {env : Surroundings} {site : Site}
    {gateway : Block UInt8 IPADDR_SIZE} {clock : Registers} {r : StartUp}
    (h : startUp env site gateway clock = some r) (b : Board) :
    ∃ answers v,
      Starts env site (b.setLed .ld2 true) .dnsRequestNtp (.init gateway clock) answers r.pc v ∧
      r.From site v ∧
      runMain (.dhcpRequest, b) (dhcpAnswers dhcpAttempts static lwip n ++ answers)
        = some (r.pc, b.setLed .ld2 true) := by
  obtain ⟨answers, v, hstarts, hfrom⟩ := startUp_starts h (b.setLed .ld2 true)
  refine ⟨answers, v, hstarts, hfrom, ?_⟩
  rw [runMain, Machine.run_append, ← runMain, runMain_dhcp b hwait hlast, Option.bind_some]
  exact hstarts.runMain

end Configured

end NucleoMqtt.App
