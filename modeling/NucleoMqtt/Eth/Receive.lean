import NucleoMqtt.Lib.Machine
import NucleoMqtt.Lib.Ring

/-!
# Eth — receiving frames

The MAC's DMA writes frames into a ring of descriptors, each with a buffer of
its own, and interrupts; the handler releases a binary semaphore; the thread
`ethernetif_input` takes it, and hands frame after frame to the stack until
there is none. A frame is not copied: its pbuf refers to the DMA's buffer, and
the descriptor is given back to the DMA before the pbuf is used.

The model has the ring as the driver sees it, with the scan for a packet of
several descriptors and for an incomplete one. `Rx_Buff` is not cached. There
is one core: while the handler runs, the thread does not, but the DMA does.
`received` and `handled` do not exist in the source: they collect the frames
and what has become of each.
-/

namespace NucleoMqtt.Eth

def ETH_RX_DESC_CNT : Nat := 4

def ETH_RX_BUFFER_SIZE : Nat := 1524

/-- The elements of `RX_POOL`. -/
def RX_POOL_SIZE : Nat := 10

/-! ## The driver -/

/-- A receive descriptor: with the OWN bit, as the DMA reads it, and without,
as the DMA writes it back. The buffer is in `DESC0`, the rest in `DESC3`. -/
inductive Desc where
  | dma (desc0 : Nat) (ioc : Bool)
  | app (fd ld ctxt : Bool) (pl : Nat)

/-- `ETH_RxDescListTypeDef`, with the descriptors themselves. Of each,
`BackupAddr0` is its row of `Rx_Buff` and `BackupAddr1` is not set. -/
structure RxDescList where
  rxDesc : Nat → Desc
  curRxDesc : Nat
  firstAppDesc : Nat
  appDescNbr : Nat
  appContextDesc : Nat

def incrRxDescIndex (inx offset : Nat) : Nat :=
  if inx + offset ≥ ETH_RX_DESC_CNT then inx + offset - ETH_RX_DESC_CNT else inx + offset

/-- What the scan has come to: whether a last descriptor has been found, the
index behind, the number of descriptors and the first of them. -/
structure Scan where
  found : Bool
  descidx : Nat
  appdesccnt : Nat
  firstappdescidx : Nat

/-- The loop of `HAL_ETH_IsRxDataAvailable`, up to the last descriptor. -/
def scan (rxDesc : Nat → Desc) : Nat → Nat → Nat → Nat → Scan
  | 0, descidx, appdesccnt, firstappdescidx => ⟨false, descidx, appdesccnt, firstappdescidx⟩
  | left + 1, descidx, appdesccnt, firstappdescidx =>
      match rxDesc descidx with
      | .dma _ _ => ⟨false, descidx, appdesccnt, firstappdescidx⟩
      | .app fd ld _ _ =>
          if ld then
            ⟨true, incrRxDescIndex descidx 1, appdesccnt + 1,
              if appdesccnt + 1 = 1 then descidx else firstappdescidx⟩
          else if fd then scan rxDesc left (incrRxDescIndex descidx 1) 1 descidx
          else scan rxDesc left (incrRxDescIndex descidx 1) (appdesccnt + 1) firstappdescidx

/-- Descriptors are given back to the DMA, in interrupt mode: the loop of
`HAL_ETH_BuildRxDescriptors`. -/
def build (rxDesc : Nat → Desc) : Nat → Nat → (Nat → Desc)
  | 0, _ => rxDesc
  | n + 1, descindex =>
      build (Function.update rxDesc descindex (.dma descindex true)) n
        (incrRxDescIndex descindex 1)

/-- A context descriptor, and not the DMA's. -/
def Desc.context : Desc → Bool
  | dma _ _ => false
  | app _ _ ctxt _ => ctxt

def halEthIsRxDataAvailable (l : RxDescList) : Bool × RxDescList :=
  if l.appDescNbr ≠ 0 then (false, l)
  else
    let r := scan l.rxDesc ETH_RX_DESC_CNT l.curRxDesc 0 0
    if r.found then
      let ctxt := (l.rxDesc r.descidx).context
      (true, { l with
        curRxDesc := if ctxt then incrRxDescIndex r.descidx 1 else r.descidx
        firstAppDesc := r.firstappdescidx
        appDescNbr := r.appdesccnt
        appContextDesc := if ctxt then 1 else l.appContextDesc })
    -- what there is of an incomplete packet is given back
    else if r.appdesccnt > 0 then
      (false, { l with
        rxDesc := build l.rxDesc r.appdesccnt r.firstappdescidx
        curRxDesc := r.descidx
        firstAppDesc := r.firstappdescidx
        appDescNbr := 0 })
    else (false, l)

/-- `ETH_DMARXNDESCWBF_PL` of a descriptor. -/
def Desc.packetLength : Desc → Nat
  | dma _ _ => 0
  | app _ _ _ pl => pl

/-- The buffers of a packet, with their lengths; none for `HAL_ERROR`. The
second argument is the length up to here. -/
def packetBuffers (rxDesc : Nat → Desc) : Nat → Nat → Nat → Option (List (Nat × Nat))
  | 0, accumulatedlen, descidx =>
      let lastdesclen := ((rxDesc descidx).packetLength + 4294967296 - accumulatedlen) % 4294967296
      if lastdesclen ≤ ETH_RX_BUFFER_SIZE then some [(descidx, lastdesclen)] else none
  | n + 1, _, descidx =>
      (packetBuffers rxDesc n (rxDesc descidx).packetLength (incrRxDescIndex descidx 1)).map
        fun rest => (descidx, ETH_RX_BUFFER_SIZE) :: rest

def halEthGetRxDataBuffer (l : RxDescList) : Option (List (Nat × Nat)) × RxDescList :=
  if l.appDescNbr = 0 then
    let (available, l) := halEthIsRxDataAvailable l
    if available then (packetBuffers l.rxDesc (l.appDescNbr - 1) 0 l.firstAppDesc, l)
    else (none, l)
  else (packetBuffers l.rxDesc (l.appDescNbr - 1) 0 l.firstAppDesc, l)

/-- With a packet there. -/
def halEthGetRxDataLength (l : RxDescList) : Nat :=
  (l.rxDesc (incrRxDescIndex l.firstAppDesc (l.appDescNbr - 1))).packetLength

def halEthBuildRxDescriptors (l : RxDescList) : RxDescList :=
  if l.appDescNbr = 0 then l
  else
    { l with
      rxDesc := build l.rxDesc
        (if l.appContextDesc ≠ 0 then l.appDescNbr + 1 else l.appDescNbr) l.firstAppDesc
      appDescNbr := 0
      appContextDesc := 0 }

/-! ## State -/

/-- A `pbuf_custom` for a packet: its buffer, its length, and which of the
packets it was. -/
structure Pbuf where
  buffer : Nat
  len : Nat
  number : Nat

/-- Where `ethernetif_input` stands: at the semaphore, in front of
`HAL_ETH_GetRxDataBuffer`, of `HAL_ETH_BuildRxDescriptors`, of the allocation,
or of `netif->input`. -/
inductive InputPc where
  | acquire
  | look
  | build (buffer framelength : Nat)
  | alloc (buffer framelength : Nat)
  | input (p : Pbuf)

def InputPc.pbufs : InputPc → Nat
  | input _ => 1
  | _ => 0

/-- What becomes of a packet. -/
inductive Fate where
  | passed (p : Pbuf)
  | refused (p : Pbuf)
  | noPbuf (number : Nat)

def Fate.number : Fate → Nat
  | passed p => p.number
  | refused p => p.number
  | noPbuf number => number

structure Ethernetif where
  list : RxDescList
  rxBuff : Nat → List UInt8
  /-- the descriptor that the DMA uses next, and how much of a packet stands
  in those before -/
  dma : Nat
  dmaLength : Nat
  /-- `ETH_DMACSR_RI` -/
  ri : Bool
  /-- in `HAL_ETH_IRQHandler`, with the semaphore released -/
  irq : Bool
  /-- `RxPktSemaphore` -/
  semaphore : Bool
  pc : InputPc
  /-- the pbufs that the stack has not freed yet -/
  stack : List Pbuf
  /-- the last allocation has failed, and the thread has not been woken since -/
  starved : Bool
  received : List (List UInt8)
  handled : List Fate

namespace Ethernetif

/-- What `low_level_init` leaves. -/
def init : Ethernetif where
  list := ⟨fun i => .dma i true, 0, 0, 0, 0⟩
  rxBuff := fun _ => []
  dma := 0
  dmaLength := 0
  ri := false
  irq := false
  semaphore := true
  pc := .acquire
  stack := []
  starved := false
  received := []
  handled := []

/-- The elements of the pool in use. -/
def inUse (s : Ethernetif) : Nat := s.stack.length + s.pc.pbufs

/-! ## Steps -/

/-- The DMA fills a descriptor, if it has one. -/
def receive (bytes : List UInt8) (fd ld : Bool) (s : Ethernetif) : Option Ethernetif :=
  match s.list.rxDesc s.dma with
  | .app _ _ _ _ => none
  | .dma buffer ioc =>
      if bytes.length ≤ ETH_RX_BUFFER_SIZE then
        let pl := if fd then bytes.length else s.dmaLength + bytes.length
        some { s with
          list := { s.list with
            rxDesc := Function.update s.list.rxDesc s.dma (.app fd ld false pl) }
          rxBuff := Function.update s.rxBuff buffer bytes
          dma := incrRxDescIndex s.dma 1
          dmaLength := pl
          ri := s.ri || ioc
          received := s.received ++ [bytes] }
      else none

/-- `HAL_ETH_RxCpltCallback`, when the interrupt comes. -/
def enterIrq (s : Ethernetif) : Option Ethernetif :=
  if s.ri ∧ s.irq = false then some { s with semaphore := true, irq := true } else none

/-- The end of the handler. -/
def leaveIrq (s : Ethernetif) : Option Ethernetif :=
  if s.irq then some { s with ri := false, irq := false } else none

/-- `ethernetif_input` and `low_level_input` in it. Whether the stack takes a
packet is up to its mailbox. -/
def goOn (accepts : Bool) (s : Ethernetif) : Option Ethernetif :=
  match s.pc with
  | .acquire =>
      if s.semaphore then
        some { s with semaphore := false, pc := .look, starved := false }
      else none
  | .look =>
      let (buffers, list) := halEthGetRxDataBuffer s.list
      match buffers with
      | some ((buffer, _) :: _) =>
          some { s with list := list, pc := .build buffer (halEthGetRxDataLength list) }
      | _ => some { s with list := list, pc := .acquire }
  | .build buffer framelength =>
      some { s with list := halEthBuildRxDescriptors s.list, pc := .alloc buffer framelength }
  | .alloc buffer framelength =>
      if s.inUse < RX_POOL_SIZE then
        some { s with pc := .input ⟨buffer, framelength, s.handled.length⟩ }
      else
        some { s with pc := .acquire, starved := true,
                      handled := s.handled ++ [.noPbuf s.handled.length] }
  | .input p =>
      if accepts then
        some { s with pc := .look, stack := s.stack ++ [p], handled := s.handled ++ [.passed p] }
      else some { s with pc := .look, handled := s.handled ++ [.refused p] }

/-- The stack frees a pbuf. -/
def free (i : Nat) (s : Ethernetif) : Option Ethernetif :=
  if i < s.stack.length then some { s with stack := s.stack.eraseIdx i } else none

inductive Act where
  | receive (bytes : List UInt8) (fd ld : Bool)
  | enterIrq
  | leaveIrq
  | goOn (accepts : Bool)
  | free (i : Nat)

def step (s : Ethernetif) : Act → Option Ethernetif
  | .receive bytes fd ld => s.receive bytes fd ld
  | .enterIrq => s.enterIrq
  | .leaveIrq => s.leaveIrq
  | .goOn accepts => if s.irq then none else s.goOn accepts
  | .free i => if s.irq then none else s.free i

end Ethernetif

end NucleoMqtt.Eth
