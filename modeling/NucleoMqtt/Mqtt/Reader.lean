import NucleoMqtt.Lib.Block
import NucleoMqtt.Lib.Word

/-!
# Mqtt — the packet readers

`mqtt_client.c`, the `MQTT_Read_*` side. `MQTT_Read_Packet` makes one read
of the transport into the caller's buffer, looks at the upper nibble of the
first byte and hands buffer and byte count to the reader of that packet
type. `none` stands for an access outside the buffer.

The transport is the environment: `Recv` is what one call of `TLS_Read` or
`TCP_Read` may do to a buffer of `len` bytes.
-/

namespace NucleoMqtt.Mqtt

open NucleoMqtt.Lib

/-- The size of the receive buffer of `main.c`. -/
def RECV_BUF_SIZE : Nat := 2048

theorem recvBufSize_lt : RECV_BUF_SIZE < 2 ^ 31 := by decide

/-- The outcome of one read: a negative code and an untouched buffer, or up
to `len` bytes written at the front of the buffer. -/
inductive Recv (len : Nat) where
  | error (code : Int) (neg : code < 0)
  | data (bytes : List UInt8) (fits : bytes.length ≤ len)

namespace Recv

variable {len : Nat}

/-- The value the read returns. -/
def ret : Recv len → Int
  | error code _ => code
  | data bytes _ => bytes.length

/-- The buffer after the read. -/
def into : Recv len → Block UInt8 len → Block UInt8 len
  | error _ _, b => b
  | data bytes fits, b => b.overwrite bytes fits

end Recv

variable {len : Nat}

/-- The Reason Code is the fourth byte. -/
def mqttReadConnack (b : Block UInt8 len) (ret : Nat) : Option Int := do
  let c ← b.load 3
  return if c = 0 then (ret : Int) else -1

/-- `do { n++; } while ((buf[n] & 0b10000000) != 0);` -/
def remLenScan (b : Block UInt8 len) (n : Nat) : Option Nat :=
  match h : b.load (n + 1) with
  | none => none
  | some c => if c &&& 128 ≠ 0 then remLenScan b (n + 1) else some (n + 1)
termination_by len - n
decreasing_by
  have : n + 1 < len := Block.load_isSome.mp (Option.isSome_of_eq_some h)
  omega

/-- Move the message to the front of the buffer and end it with a NUL. -/
def mqttReadPublish (b : Block UInt8 len) (ret : Nat) : Option (Int × Block UInt8 len) := do
  let mLen := ret
  -- Header Flags
  let mLen := wsub mLen 1
  -- Remaining Length
  let n ← remLenScan b 0
  let mLen := wsub mLen n
  -- Topic Length
  let mLen := wsub mLen 2
  -- Topic
  let hi ← b.load (n + 1)
  let lo ← b.load (n + 2)
  let tLen := 128 * hi.toNat + lo.toNat
  let mLen := wsub mLen tLen
  -- Properties, Total Length
  let mLen := wsub mLen 1
  -- Properties
  let p ← b.load (wadd (wadd (n + 2) tLen) 1)
  let mLen := wsub mLen p.toNat
  let b ← b.copyDown (fun i => wadd i (wsub ret mLen)) mLen
  let b ← b.store mLen 0
  return (ret, b)

/-- The Reason Code is the last byte received. -/
def mqttReadSuback (b : Block UInt8 len) (ret : Nat) : Option Int := do
  let c ← b.load (wsub ret 1)
  return if c = 0 then (ret : Int) else -1

/-- The Reason Code is the last byte received. -/
def mqttReadUnsuback (b : Block UInt8 len) (ret : Nat) : Option Int := do
  let c ← b.load (wsub ret 1)
  return if c = 0 then (ret : Int) else -1

def mqttReadPingresp (_b : Block UInt8 len) (ret : Nat) : Option Int := some ret

/-- The upper nibble of a first byte, in place. -/
def packetType (c : UInt8) : UInt8 := c &&& 0b11110000

def typeConnack : UInt8 := 0b00100000
def typePublish : UInt8 := 0b00110000
def typeSuback : UInt8 := 0b10010000
def typeUnsuback : UInt8 := 0b10110000
def typePingresp : UInt8 := 0b11010000

/-- What happens to a buffer in which `ret ≥ 0` bytes have been received. -/
def mqttDispatch (b : Block UInt8 len) (ret : Nat) : Option (Int × Block UInt8 len) := do
  let t := packetType (← b.load 0)
  if t = typeConnack then (mqttReadConnack b ret).map (·, b)
  else if t = typePublish then mqttReadPublish b ret
  else if t = typeSuback then (mqttReadSuback b ret).map (·, b)
  else if t = typeUnsuback then (mqttReadUnsuback b ret).map (·, b)
  else if t = typePingresp then (mqttReadPingresp b ret).map (·, b)
  else return (-1, b)

/-- The value returned and the buffer left by one call. -/
def mqttReadPacket (b : Block UInt8 len) (r : Recv len) : Option (Int × Block UInt8 len) :=
  if r.ret < 0 then some (r.ret, r.into b) else mqttDispatch (r.into b) r.ret.toNat

end NucleoMqtt.Mqtt
