import NucleoMqtt.Mqtt.Writer
import NucleoMqtt.Mqtt.Reader

/-!
# App — the board

What the tasks of `main.c` share: the receive buffer, the LEDs and the
MQTT client with its static packet counter. The calls that touch them are
the operations here. The log records every read with what the transport
delivered and every packet handed to `MQTT_Write_Packet`, in order.

The constants are those of `settings.h` and `main.c`.
-/

namespace NucleoMqtt.App

open NucleoMqtt.Lib NucleoMqtt.Mqtt

/-! ## Texts -/

/-- The bytes of an ASCII text. -/
def ascii (cs : List Char) : List UInt8 := cs.map fun c => UInt8.ofNat c.toNat

def CLIENT_ID : List UInt8 := ascii ['[', 'J', 'O', 'R', 'G', 'E', ']']

def KEEP_ALIVE : Int := 60

/-- The one letter outside ASCII takes two bytes. -/
def PUBLIC_TOPIC : List UInt8 :=
  ascii ['[', 'T', 'E', 'M', 'A', '_', 'P'] ++ [0xC3, 0x9A] ++ ascii ['B', 'L', 'I', 'C', 'O', ']']

def SECRET_TOPIC : List UInt8 :=
  ascii ['[', 'T', 'E', 'M', 'A', '_', 'S', 'E', 'C', 'R', 'E', 'T', 'O', ']']

def MSG_CONNECTED : List UInt8 :=
  ascii ['[', 'P', 'L', 'A', 'C', 'A', ' ', 'C', 'O', 'N', 'E', 'C', 'T', 'A', 'D', 'A', ']']

def MSG_DISCONNECTED : List UInt8 :=
  ascii ['[', 'P', 'L', 'A', 'C', 'A', ' ', 'D', 'E', 'S', 'C', 'O', 'N', 'E', 'C', 'T', 'A',
    'D', 'A', ']']

/-! ## LEDs and commands -/

inductive Led where
  | ld1
  | ld2
  | ld3
deriving DecidableEq

/-- The character that names a LED in commands and confirmations. -/
def Led.digit : Led → Char
  | ld1 => '1'
  | ld2 => '2'
  | ld3 => '3'

structure Leds where
  ld1 : Bool
  ld2 : Bool
  ld3 : Bool
deriving DecidableEq

/-- `Hw_LDn_On` and `Hw_LDn_Off`. -/
def Leds.set (l : Leds) (led : Led) (on : Bool) : Leds :=
  match led with
  | .ld1 => { l with ld1 := on }
  | .ld2 => { l with ld2 := on }
  | .ld3 => { l with ld3 := on }

/-- A command of the secret topic. -/
structure Command where
  led : Led
  on : Bool
deriving DecidableEq

namespace Command

/-- `LDnON`, `LDnOFF`. -/
def text (c : Command) : List UInt8 :=
  ascii (['L', 'D', c.led.digit] ++ if c.on then ['O', 'N'] else ['O', 'F', 'F'])

/-- `MSG_LDn_ON`, `MSG_LDn_OFF`. -/
def confirmation (c : Command) : List UInt8 :=
  ascii (['[', 'L', 'E', 'D', ' ', c.led.digit, ' '] ++
    (if c.on then ['E', 'N', 'C', 'E', 'N', 'D', 'I', 'D', 'O']
      else ['A', 'P', 'A', 'G', 'A', 'D', 'O']) ++ [']'])

/-- The commands in the order in which the main loop compares them. -/
def all : List Command :=
  [⟨.ld1, true⟩, ⟨.ld1, false⟩, ⟨.ld2, true⟩, ⟨.ld2, false⟩, ⟨.ld3, true⟩, ⟨.ld3, false⟩]

/-- The command a message is. -/
def ofText (message : List UInt8) : Option Command := all.find? fun c => message = c.text

end Command

/-- `strcmp(mqtt_recv_buf, s) == 0`: the buffer starts with `s` and its NUL. -/
def strcmpEq (buf : Block UInt8 RECV_BUF_SIZE) (s : List UInt8) : Bool :=
  (s ++ [0]).isPrefixOf buf.cells

/-- The first command that compares equal with the buffer. -/
def commandIn (buf : Block UInt8 RECV_BUF_SIZE) : Option Command :=
  Command.all.find? fun c => strcmpEq buf c.text

/-! ## The board and its calls -/

/-- The calls of `MQTT_Write_*`, by the place they stand in the program. -/
inductive Write where
  | connect
  | subscribe
  | connected
  | pingreq
  | confirm (c : Command)
  | date (text : List UInt8)
  | unsubscribe
  | disconnected
  | disconnect
deriving DecidableEq

inductive Event where
  | read (r : Recv RECV_BUF_SIZE) (value : Int)
  | wrote (w : Write) (packet : List UInt8)

structure Board where
  buf : Block UInt8 RECV_BUF_SIZE
  /-- `packet_identifier`, the static counter. -/
  packetId : Int
  leds : Leds
  log : List Event

namespace Board

/-- One more event in the log. -/
def record (b : Board) (e : Event) : Board := { b with log := b.log ++ [e] }

@[simp] theorem record_buf (b : Board) (e : Event) : (b.record e).buf = b.buf := rfl
@[simp] theorem record_packetId (b : Board) (e : Event) :
    (b.record e).packetId = b.packetId := rfl
@[simp] theorem record_leds (b : Board) (e : Event) : (b.record e).leds = b.leds := rfl
@[simp] theorem record_log (b : Board) (e : Event) : (b.record e).log = b.log ++ [e] := rfl

/-- `Sw_MQTT_Read_Packet(mqtt_recv_buf, sizeof(mqtt_recv_buf))`. -/
def read (b : Board) (r : Recv RECV_BUF_SIZE) : Option (Int × Board) := do
  let (value, buf) ← mqttReadPacket b.buf r
  return (value, { b with buf := buf }.record (.read r value))

/-- A packet reaches `MQTT_Write_Packet`. -/
def hand (b : Board) (w : Write) (h : Handed) : Board := b.record (.wrote w h.buf.cells)

/-- A string literal with its NUL, and its `sizeof`, go to the PUBLISH writer. -/
def publish (b : Board) (w : Write) (msg : List UInt8) : Option Board :=
  (mqttWritePublish (PUBLIC_TOPIC ++ [0]) (PUBLIC_TOPIC.length + 1) (msg ++ [0])
    (msg.length + 1)).map (b.hand w)

/-- `Sw_MQTT_Write_*`, with the arguments of each call. -/
def write (b : Board) (w : Write) : Option Board :=
  match w with
  | .connect =>
      (mqttWriteConnect (CLIENT_ID ++ [0]) (CLIENT_ID.length + 1) KEEP_ALIVE).map (b.hand w)
  | .subscribe =>
      (mqttWriteSubscribe b.packetId (SECRET_TOPIC ++ [0]) (SECRET_TOPIC.length + 1)).map
        fun (h, packetId) => { b with packetId := packetId }.hand w h
  | .connected => b.publish w MSG_CONNECTED
  | .pingreq => mqttWritePingreq.map (b.hand w)
  | .confirm c => b.publish w c.confirmation
  | .date text => b.publish w text
  | .unsubscribe =>
      (mqttWriteUnsubscribe b.packetId (SECRET_TOPIC ++ [0]) (SECRET_TOPIC.length + 1)).map
        fun (h, packetId) => { b with packetId := packetId }.hand w h
  | .disconnected => b.publish w MSG_DISCONNECTED
  | .disconnect => mqttWriteDisconnect.map (b.hand w)

/-- `Hw_LDn_On` and `Hw_LDn_Off`. -/
def setLed (b : Board) (led : Led) (on : Bool) : Board := { b with leds := b.leds.set led on }

/-- What `Error_Handler` leaves of the board. -/
def dark (b : Board) : Board := { b with leds := ⟨false, false, false⟩ }

end Board

end NucleoMqtt.App
