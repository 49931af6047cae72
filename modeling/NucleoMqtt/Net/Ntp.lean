import NucleoMqtt.Mqtt.Reader

/-!
# Net — the NTP client

`ntp_client.c`. `NTP_Request` takes the seconds since 1900 out of the
server's reply, makes them seconds since 1970 and adds the time zone, so
what it stores is local time.
-/

namespace NucleoMqtt.Net

open NucleoMqtt.Lib
open NucleoMqtt.Mqtt (Recv)

def NTP_PACKET_SIZE : Nat := 48
def SECS_FROM_1900_TO_1970 : Nat := 2208988800

/-- `gmt_time * 60 * 60` on a 32-bit `int`, undefined on overflow. -/
def gmtOffset (gmtTime : Int) : Option Int :=
  if -2 ^ 31 ≤ gmtTime * 60 * 60 ∧ gmtTime * 60 * 60 < 2 ^ 31 then some (gmtTime * 60 * 60)
  else none

/-- `secs_since_1900`, all that is taken from the receive buffer: the sum of
the shifted bytes, as an `unsigned long` of 32 bits. -/
def secsSince1900 (recvBuf : Block UInt8 NTP_PACKET_SIZE) : Option Nat := do
  let b40 ← recvBuf.load 40
  let b41 ← recvBuf.load 41
  let b42 ← recvBuf.load 42
  let b43 ← recvBuf.load 43
  return (b40.toNat * 2 ^ 24 + b41.toNat * 2 ^ 16 + b42.toNat * 2 ^ 8 + b43.toNat) % 2 ^ 32

/-- `NTP_Request`, for the outcome of its `UDP_Request`: the value returned
and `*curtime`. The receive buffer is set to zero in front of the request. -/
def ntpRequest (reply : Recv NTP_PACKET_SIZE) (gmtTime : Int) (curtime : Int) :
    Option (Int × Int) :=
  if reply.ret < 0 then some (reply.ret, curtime)
  else do
    let secs ← secsSince1900 (reply.into (Block.replicate NTP_PACKET_SIZE 0))
    -- the constant is a `long long`
    let curtime : Int := secs - SECS_FROM_1900_TO_1970
    let offset ← gmtOffset gmtTime
    return (0, curtime + offset)

/-- Behind its reply the client takes the seconds out of the buffer and moves
them. -/
theorem ntpRequest_of_secs {reply : Recv NTP_PACKET_SIZE} (hret : ¬ reply.ret < 0) {secs : Nat}
    (hsecs : secsSince1900 (reply.into (Block.replicate NTP_PACKET_SIZE 0)) = some secs)
    (gmtTime curtime : Int) :
    ntpRequest reply gmtTime curtime
      = (gmtOffset gmtTime).map fun offset =>
          (0, (secs : Int) - SECS_FROM_1900_TO_1970 + offset) := by
  rw [ntpRequest, if_neg hret, hsecs, Option.map_eq_bind]
  rfl

/-- A reply of 48 bytes that carries `n` seconds since 1900. -/
structure NtpReply (n : Nat) where
  bytes : List UInt8
  size : bytes.length = NTP_PACKET_SIZE
  transmit : (bytes.drop 40).take 4 = be32 n

/-- How the reply arrives. -/
def NtpReply.recv {n : Nat} (r : NtpReply n) : Recv NTP_PACKET_SIZE :=
  .data r.bytes (Nat.le_of_eq r.size)

theorem NtpReply.load {n : Nat} (r : NtpReply n) {i : Nat} (hi : i < 4) :
    (r.recv.into (Block.replicate NTP_PACKET_SIZE 0)).load (40 + i) = (be32 n)[i]? := by
  have hin : 40 + i < r.bytes.length := by
    rw [r.size]
    simp only [NTP_PACKET_SIZE]
    omega
  rw [← r.transmit, List.getElem?_take_of_lt hi, List.getElem?_drop]
  exact Block.load_overwrite_lt (h := Nat.le_of_eq r.size) hin

/-- **What is stored** is the time sent, in seconds since 1970, and the time
zone. -/
theorem ntpRequest_eq {n : Nat} (r : NtpReply n) (hn : n < 2 ^ 32) (gmtTime curtime : Int) :
    ntpRequest r.recv gmtTime curtime
      = (gmtOffset gmtTime).map fun offset =>
          (0, (n : Int) - SECS_FROM_1900_TO_1970 + offset) := by
  have hret : ¬ r.recv.ret < 0 := by
    show ¬ ((r.bytes.length : Nat) : Int) < 0
    omega
  have hsum : ((UInt8.ofNat (n / 2 ^ 24)).toNat * 2 ^ 24
      + (UInt8.ofNat (n / 2 ^ 16 % 256)).toNat * 2 ^ 16
      + (UInt8.ofNat (n / 2 ^ 8 % 256)).toNat * 2 ^ 8 + (UInt8.ofNat (n % 256)).toNat) % 2 ^ 32
        = n := by
    simp only [toNat_byte]
    omega
  have h0 : (r.recv.into (Block.replicate NTP_PACKET_SIZE 0)).load 40
      = some (UInt8.ofNat (n / 2 ^ 24)) := r.load (i := 0) (by decide)
  have h1 : (r.recv.into (Block.replicate NTP_PACKET_SIZE 0)).load 41
      = some (UInt8.ofNat (n / 2 ^ 16 % 256)) := r.load (i := 1) (by decide)
  have h2 : (r.recv.into (Block.replicate NTP_PACKET_SIZE 0)).load 42
      = some (UInt8.ofNat (n / 2 ^ 8 % 256)) := r.load (i := 2) (by decide)
  have h3 : (r.recv.into (Block.replicate NTP_PACKET_SIZE 0)).load 43
      = some (UInt8.ofNat (n % 256)) := r.load (i := 3) (by decide)
  refine ntpRequest_of_secs hret ?_ gmtTime curtime
  simp only [secsSince1900, h0, h1, h2, h3, Option.bind_eq_bind, Option.bind_some, hsum, pure]

end NucleoMqtt.Net
