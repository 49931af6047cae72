import NucleoMqtt.App.Board
import NucleoMqtt.Lib.Machine

/-!
# App — the tasks of `main.c`

`Main_Thread`, `Link_Thread` and `Button_Thread`, each as a program counter
that names the call the task makes next. One step is one call: it takes
what the environment answers (`Answer`), changes the board and moves the
counter to the call that follows in the source. `TEST_MODE` is not defined.

`Error_Handler` locks the kernel and then blocks, so it is the last step of
any task. `System` puts the tasks together; which of them makes the next
call is the scheduler's choice, and so an input.
-/

namespace NucleoMqtt.App

open NucleoMqtt.Lib NucleoMqtt.Mqtt

/-- What the environment gives back from a call. -/
inductive Answer where
  /-- a call whose result is not looked at -/
  | void
  /-- the value of a call that returns one -/
  | int (value : Int)
  /-- what the transport delivers to a read -/
  | recv (r : Recv RECV_BUF_SIZE)
  /-- what `strftime` makes of the time read from the RTC, at most 29 characters -/
  | text (text : List UInt8) (fits : text.length < 30)

/-! ## Main_Thread -/

inductive MainPc where
  | ld1On
  | tcpipInit
  | ethLinkStatus
  | linkThreadNew
  | dhcpRequest
  | tickDelay
  | ld2On
  | dnsRequestNtp
  | ntpRequest
  | rtcWrite
  | dnsRequestMqtt
  | mqttInit
  | writeConnect
  | readConnack
  | writeSubscribe
  | readSuback
  | publishConnected
  | ld3On
  | buttonThreadNew
  | read
  | writePingreq
  | readAgain
  | led (c : Command)
  | publishLed (c : Command)
  | rtcRead
  | publishDate (text : List UInt8)
  | errorHandler
deriving DecidableEq

/-- Where the main loop goes with the buffer as it is. -/
def dispatch (buf : Block UInt8 RECV_BUF_SIZE) : MainPc :=
  match commandIn buf with
  | some c => .led c
  | none => .rtcRead

/-- One call of `Main_Thread`. -/
def mainStep (pc : MainPc) (a : Answer) (b : Board) : Option (MainPc × Board) :=
  match pc, a with
  | .ld1On, .void => some (.tcpipInit, b.setLed .ld1 true)
  | .tcpipInit, .void => some (.ethLinkStatus, b)
  | .ethLinkStatus, .int value => some (if value < 0 then .ethLinkStatus else .linkThreadNew, b)
  | .linkThreadNew, .void => some (.dhcpRequest, b)
  | .dhcpRequest, .int value => some (if value < 0 then .tickDelay else .ld2On, b)
  | .tickDelay, .void => some (.dhcpRequest, b)
  | .ld2On, .void => some (.dnsRequestNtp, b.setLed .ld2 true)
  | .dnsRequestNtp, .int value => some (if value < 0 then .errorHandler else .ntpRequest, b)
  | .ntpRequest, .int value => some (if value < 0 then .errorHandler else .rtcWrite, b)
  | .rtcWrite, .void => some (.dnsRequestMqtt, b)
  | .dnsRequestMqtt, .int value => some (if value < 0 then .errorHandler else .mqttInit, b)
  | .mqttInit, .int value => some (if value < 0 then .errorHandler else .writeConnect, b)
  | .writeConnect, .void => (b.write .connect).map (.readConnack, ·)
  | .readConnack, .recv r =>
      (b.read r).map fun (value, b) => (if value < 0 then .errorHandler else .writeSubscribe, b)
  | .writeSubscribe, .void => (b.write .subscribe).map (.readSuback, ·)
  | .readSuback, .recv r =>
      (b.read r).map fun (value, b) => (if value < 0 then .errorHandler else .publishConnected, b)
  | .publishConnected, .void => (b.write .connected).map (.ld3On, ·)
  | .ld3On, .void => some (.buttonThreadNew, b.setLed .ld3 true)
  | .buttonThreadNew, .void => some (.read, b)
  | .read, .recv r =>
      (b.read r).map fun (value, b) => (if value < 0 then .writePingreq else dispatch b.buf, b)
  | .writePingreq, .void => (b.write .pingreq).map (.readAgain, ·)
  | .readAgain, .recv r =>
      (b.read r).map fun (value, b) => (if value < 0 then .errorHandler else dispatch b.buf, b)
  | .led c, .void => some (.publishLed c, b.setLed c.led c.on)
  | .publishLed c, .void => (b.write (.confirm c)).map (.read, ·)
  | .rtcRead, .text text _ => some (.publishDate text, b)
  | .publishDate text, .void => (b.write (.date text)).map (.read, ·)
  | _, _ => none

/-! ## Close_Program, Link_Thread and Button_Thread -/

inductive ClosePc where
  | writeUnsubscribe
  | readUnsuback
  | publishDisconnected
  | writeDisconnect
  | mqttClose
  | errorHandler
deriving DecidableEq

/-- One call of `Close_Program`. -/
def closeStep (pc : ClosePc) (a : Answer) (b : Board) : Option (ClosePc × Board) :=
  match pc, a with
  | .writeUnsubscribe, .void => (b.write .unsubscribe).map (.readUnsuback, ·)
  | .readUnsuback, .recv r =>
      (b.read r).map fun (value, b) =>
        (if value < 0 then .errorHandler else .publishDisconnected, b)
  | .publishDisconnected, .void => (b.write .disconnected).map (.writeDisconnect, ·)
  | .writeDisconnect, .void => (b.write .disconnect).map (.mqttClose, ·)
  -- what the closing handshake reads into the buffer is not looked at
  | .mqttClose, .void => some (.errorHandler, b)
  | _, _ => none

inductive LinkPc where
  | ethLinkStatus
  | uartStop
  | uartStart
  | delay
  | errorHandler
deriving DecidableEq

/-- One call of `Link_Thread`. -/
def linkStep (pc : LinkPc) (a : Answer) : Option LinkPc :=
  match pc, a with
  | .ethLinkStatus, .int value => some (if value < 0 then .uartStop else .delay)
  | .uartStop, .void => some .uartStart
  | .uartStart, .void => some .errorHandler
  | .delay, .void => some .ethLinkStatus
  | _, _ => none

inductive ButtonPc where
  | b1Read
  | uartStop
  | uartStart
  | terminateMain
  | close (pc : ClosePc)
  | delay
deriving DecidableEq

/-- One call of `Button_Thread`. -/
def buttonStep (pc : ButtonPc) (a : Answer) (b : Board) : Option (ButtonPc × Board) :=
  match pc, a with
  | .b1Read, .int value => some (if value = 1 then .uartStop else .delay, b)
  | .uartStop, .void => some (.uartStart, b)
  | .uartStart, .void => some (.terminateMain, b)
  | .terminateMain, .void => some (.close .writeUnsubscribe, b)
  | .close pc, a => (closeStep pc a b).map fun (pc, b) => (.close pc, b)
  | .delay, .void => some (.b1Read, b)
  | _, _ => none

/-! ## The system -/

/-- A task is `none` before it is created and after it is terminated. -/
structure System where
  board : Board
  main : Option MainPc
  link : Option LinkPc
  button : Option ButtonPc
  /-- `Error_Handler` has locked the kernel: no task runs any more. -/
  locked : Bool

/-- Which task makes its next call, and what it is answered. -/
inductive Action where
  | main (a : Answer)
  | link (a : Answer)
  | button (a : Answer)

namespace System

/-- After start-up only `Main_Thread` exists. -/
def init : System :=
  { board := { buf := Block.replicate RECV_BUF_SIZE 0, packetId := 0,
               leds := ⟨false, false, false⟩, log := [] }
    main := some .ld1On
    link := none
    button := none
    locked := false }

/-- `Error_Handler`: lock the kernel, switch the LEDs off, stay here. -/
def halt (s : System) : System := { s with board := s.board.dark, locked := true }

def stepMain (s : System) (a : Answer) : Option System :=
  s.main.bind fun pc =>
    if pc = .errorHandler then some s.halt
    else (mainStep pc a s.board).map fun (pc', board) =>
      { s with
        board := board
        main := some pc'
        link := if pc = .linkThreadNew then some .ethLinkStatus else s.link
        button := if pc = .buttonThreadNew then some .b1Read else s.button }

def stepLink (s : System) (a : Answer) : Option System :=
  s.link.bind fun pc =>
    if pc = .errorHandler then some s.halt
    else (linkStep pc a).map fun pc' => { s with link := some pc' }

def stepButton (s : System) (a : Answer) : Option System :=
  s.button.bind fun pc =>
    if pc = .close .errorHandler then some s.halt
    else (buttonStep pc a s.board).map fun (pc', board) =>
      { s with
        board := board
        main := if pc = .terminateMain then none else s.main
        button := some pc' }

/-- One call of one task. -/
def step (s : System) (act : Action) : Option System :=
  if s.locked then none
  else
    match act with
    | .main a => s.stepMain a
    | .link a => s.stepLink a
    | .button a => s.stepButton a

end System

end NucleoMqtt.App
