import NucleoMqtt.Lib.Block
import NucleoMqtt.Lib.VarInt

/-!
# Mqtt — the packet writers

`mqtt_client.c`, the `MQTT_Write_*` side. A writer strips the final NUL
from its lengths, sizes the Remaining Length field, allocates the packet,
fills it from the front and hands buffer and length to
`MQTT_Write_Packet`. The result here is what that function is given;
`none` stands for a store outside the allocated block or a conversion C
leaves undefined.

All but the two-byte packets share their opening (sizing loop, `calloc`,
header byte, Remaining Length loop), which is `openPacket`; SUBSCRIBE and
UNSUBSCRIBE differ in three constants only and are two instances of
`writeFilterPacket`.
-/

namespace NucleoMqtt.Mqtt

open NucleoMqtt.Lib

def FIXED_HEADER_MIN_SIZE : Nat := 2
def CONNECT_MIN_SIZE : Nat := 15
def DISCONNECT_MIN_SIZE : Nat := 2
def PUBLISH_MIN_SIZE : Nat := 5
def SUBSCRIBE_MIN_SIZE : Nat := 8
def UNSUBSCRIBE_MIN_SIZE : Nat := 7
def PINGREQ_MIN_SIZE : Nat := 2

/-- What `MQTT_Write_Packet` receives: the buffer and the length passed. -/
structure Handed where
  alloc : Nat
  buf : Block UInt8 alloc
  len : Nat

/-- `do { n++; power = pow(128, n); } while (x / power > 0);` -/
def remLenBytes (x n : Nat) : Option Nat :=
  -- the conversion of `pow(128, n)` to `size_t` is defined below 2^32 only
  if _h : 128 ^ (n + 1) < 2 ^ 32 then
    if x / 128 ^ (n + 1) > 0 then remLenBytes x (n + 1) else some (n + 1)
  else none
termination_by 5 - n
decreasing_by
  rcases Nat.lt_or_ge n 5 with hn | hn
  · omega
  · have : 128 ^ 6 ≤ 128 ^ (n + 1) := Nat.pow_le_pow_right (by decide) (by omega)
    omega

/-- The loop that writes Remaining Length from position `1 + i` on, and the
final value of `i`. -/
def writeRemLen {len : Nat} (b : Block UInt8 len) (remLen i : Nat) :
    Option (Block UInt8 len × Nat) :=
  (b.store (1 + i) (UInt8.ofNat (remLen % 128))).bind fun b =>
    if _h : remLen / 128 > 0 then
      (b.load (1 + i)).bind fun c =>
        (b.store (1 + i) (c ||| 128)).bind fun b => writeRemLen b (remLen / 128) (i + 1)
    else some (b, i)
termination_by remLen
decreasing_by omega

/-- A packet under construction, written up to its Remaining Length. -/
structure Opened where
  len : Nat
  block : Block UInt8 len
  i : Nat

/-- The opening every writer shares, for a packet of `minSize` fixed bytes
and `extra` bytes of strings. -/
def openPacket (minSize : Nat) (header : UInt8) (extra : Nat) : Option Opened := do
  let n ← remLenBytes (wadd (minSize - FIXED_HEADER_MIN_SIZE) extra) 0
  let len := wadd (wadd minSize (wsub n 1)) extra
  let b ← (Block.replicate len 0).store 0 header
  let remLen := wsub (wsub len FIXED_HEADER_MIN_SIZE) (wsub n 1)
  let (b, i) ← writeRemLen b remLen 0
  return { len := len, block := b, i := i }

def mqttWriteConnect (client : List UInt8) (cLen : Nat) (keepAlive : Int) :
    Option Handed := do
  let cLen := wsub cLen 1
  let p ← openPacket CONNECT_MIN_SIZE 0b00010000 cLen
  let i := p.i
  -- Protocol Name Length
  let b ← p.block.store (2 + i) 0
  let b ← b.store (3 + i) 4
  -- Protocol Name
  let b ← b.store (4 + i) 77
  let b ← b.store (5 + i) 81
  let b ← b.store (6 + i) 84
  let b ← b.store (7 + i) 84
  -- Version
  let b ← b.store (8 + i) 5
  -- Connect Flags
  let b ← b.store (9 + i) 0b00000010
  -- Keep Alive
  let b ← b.store (10 + i) (UInt8.ofInt (keepAlive.tdiv 256))
  let b ← b.store (11 + i) (UInt8.ofInt (keepAlive.tmod 256))
  -- Properties
  let b ← b.store (12 + i) 0
  -- Client ID Length
  let b ← b.store (13 + i) (UInt8.ofNat (cLen / 256))
  let b ← b.store (14 + i) (UInt8.ofNat (cLen % 256))
  -- Client ID
  let b ← b.copyIn (15 + i) client cLen
  return { alloc := p.len, buf := b, len := p.len }

def mqttWritePublish (topic : List UInt8) (tLen : Nat) (msg : List UInt8) (mLen : Nat) :
    Option Handed := do
  let tLen := wsub tLen 1
  let mLen := wsub mLen 1
  let p ← openPacket PUBLISH_MIN_SIZE 0b00110000 (wadd tLen mLen)
  let i := p.i
  -- Topic Length
  let b ← p.block.store (2 + i) (UInt8.ofNat (tLen / 256))
  let b ← b.store (3 + i) (UInt8.ofNat (tLen % 256))
  -- Topic
  let b ← b.copyIn (4 + i) topic tLen
  let j := tLen
  -- Properties
  let b ← b.store (4 + i + j) 0
  -- Message
  let b ← b.copyIn (5 + i + j) msg mLen
  return { alloc := p.len, buf := b, len := p.len }

/-- The body SUBSCRIBE and UNSUBSCRIBE share; `options` is what SUBSCRIBE
writes behind the topic. -/
def writeFilterPacket (minSize : Nat) (header : UInt8) (options : List UInt8)
    (topic : List UInt8) (tLen : Nat) (packetIdentifier : Int) : Option Handed := do
  let tLen := wsub tLen 1
  let p ← openPacket minSize header tLen
  let i := p.i
  -- Message Identifier
  let b ← p.block.store (2 + i) (UInt8.ofInt (packetIdentifier.tdiv 128))
  let b ← b.store (3 + i) (UInt8.ofInt (packetIdentifier.tmod 128))
  -- Properties
  let b ← b.store (4 + i) 0
  -- Topic Length
  let b ← b.store (5 + i) (UInt8.ofNat (tLen / 256))
  let b ← b.store (6 + i) (UInt8.ofNat (tLen % 256))
  -- Topic
  let b ← b.copyIn (7 + i) topic tLen
  let j := tLen
  -- Subscription Options
  let b ← b.copyIn (7 + i + j) options options.length
  return { alloc := p.len, buf := b, len := p.len }

/-- The static counter after one call, which is also the identifier
returned. `++` on the 32-bit `int` wraps. -/
def mqttGeneratePacketId (packetIdentifier : Int) : Int :=
  let next := (packetIdentifier + 1).bmod (2 ^ 32)
  if next = 0 then (next + 1).bmod (2 ^ 32) else next

/-- The packet and the static counter afterwards. -/
def mqttWriteSubscribe (counter : Int) (topic : List UInt8) (tLen : Nat) :
    Option (Handed × Int) :=
  let packetIdentifier := mqttGeneratePacketId counter
  (writeFilterPacket SUBSCRIBE_MIN_SIZE 0b10000010 [0b00000000] topic tLen
    packetIdentifier).map (·, packetIdentifier)

def mqttWriteUnsubscribe (counter : Int) (topic : List UInt8) (tLen : Nat) :
    Option (Handed × Int) :=
  let packetIdentifier := mqttGeneratePacketId counter
  (writeFilterPacket UNSUBSCRIBE_MIN_SIZE 0b10100010 [] topic tLen
    packetIdentifier).map (·, packetIdentifier)

def mqttWritePingreq : Option Handed := do
  let b ← (Block.replicate PINGREQ_MIN_SIZE 0).store 0 0b11000000
  let b ← b.store 1 0
  return { alloc := PINGREQ_MIN_SIZE, buf := b, len := PINGREQ_MIN_SIZE }

def mqttWriteDisconnect : Option Handed := do
  let b ← (Block.replicate DISCONNECT_MIN_SIZE 0).store 0 0b11100000
  let b ← b.store 1 0
  return { alloc := DISCONNECT_MIN_SIZE, buf := b, len := DISCONNECT_MIN_SIZE }

end NucleoMqtt.Mqtt
