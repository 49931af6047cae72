import NucleoMqtt.Eth.Receive

/-!
# Eth — sending frames

`low_level_output` sends the pbufs of a chain as one frame. The driver writes
them into descriptors, two to each, moves the tail pointer behind these, and
waits until the DMA has given the last one back. When that takes too long, or
the bus fails, the driver goes into an error state and stays there; the DMA
may still send what it has, from pbufs that have been freed by then.

`chains`, `answers` and `wire` do not exist in the source: they collect what
`low_level_output` is given and returns, and the frames sent, with nothing for
one whose bytes are no longer known.
-/

namespace NucleoMqtt.Eth

def ETH_TX_DESC_CNT : Nat := 4

def ERR_OK : Int := 0

def ERR_IF : Int := -12

/-! ## The driver -/

/-- A transmit descriptor: the bytes that `DESC0`, `DESC1` and the lengths in
`DESC2` refer to, and bits of `DESC3`. A length has 14 bits; the interface's
MTU of 1500 bytes keeps every pbuf of a frame below that. -/
structure TxDesc where
  own : Bool
  fd : Bool
  ld : Bool
  buffer1 : List UInt8
  buffer2 : List UInt8

inductive HalEthState where
  | ready
  | error

/-- `ETH_TxDescListTypeDef`, with the descriptors and the tail pointer. No
`PacketAddress` is ever set. -/
structure TxDescList where
  txDesc : Nat → TxDesc
  curTxDesc : Nat
  /-- `DMACTDTPR` -/
  tail : Nat

def incrTxDescIndex (inx offset : Nat) : Nat :=
  if inx + offset ≥ ETH_TX_DESC_CNT then inx + offset - ETH_TX_DESC_CNT else inx + offset

/-- Fields of one descriptor are changed. -/
def change (txDesc : Nat → TxDesc) (idx : Nat) (f : TxDesc → TxDesc) : Nat → TxDesc :=
  Function.update txDesc idx (f (txDesc idx))

/-- The loop that takes the OWN bits back. -/
def disown (txDesc : Nat → TxDesc) : Nat → Nat → (Nat → TxDesc)
  | 0, _ => txDesc
  | n + 1, descidx =>
      disown (change txDesc descidx fun d => { d with own := false }) n (incrTxDescIndex descidx 1)

/-- The loop of `ETH_Prepare_Tx_Descriptors` over the buffers that do not fit
in the first descriptor, and what follows it: whether there were descriptors
enough, and the last of them. -/
def prepareRest (first : Nat) :
    List (List UInt8) → (Nat → TxDesc) → Nat → Nat → Bool × (Nat → TxDesc) × Nat
  | [], txDesc, descidx, _ => (true, change txDesc descidx fun d => { d with ld := true }, descidx)
  | [b], txDesc, descidx, descnbr =>
      let txDesc := change txDesc descidx fun d => { d with ld := false }
      let descidx := incrTxDescIndex descidx 1
      let txDesc := change txDesc descidx fun d => { d with fd := false }
      if (txDesc descidx).own then (false, disown txDesc descnbr first, first)
      else
        prepareRest first []
          (change txDesc descidx fun d => { d with own := true, buffer1 := b, buffer2 := [] })
          descidx (descnbr + 1)
  | b :: b' :: rest, txDesc, descidx, descnbr =>
      let txDesc := change txDesc descidx fun d => { d with ld := false }
      let descidx := incrTxDescIndex descidx 1
      let txDesc := change txDesc descidx fun d => { d with fd := false }
      if (txDesc descidx).own then (false, disown txDesc descnbr first, first)
      else
        prepareRest first rest
          (change txDesc descidx fun d => { d with own := true, buffer1 := b, buffer2 := b' })
          descidx (descnbr + 1)

/-- `ETH_Prepare_Tx_Descriptors`, of a packet that is not tagged and not
segmented, without interrupt. -/
def ethPrepareTxDescriptors (l : TxDescList) (b : List UInt8) (rest : List (List UInt8)) :
    Bool × TxDescList :=
  if (l.txDesc l.curTxDesc).own then (false, l)
  else
    let txDesc := change l.txDesc l.curTxDesc fun d =>
      { d with own := true, fd := true, buffer1 := b, buffer2 := rest.headD [] }
    let (enough, txDesc, descidx) := prepareRest l.curTxDesc rest.tail txDesc l.curTxDesc 1
    (enough, { l with txDesc := txDesc, curTxDesc := if enough then descidx else l.curTxDesc })

/-! ## State -/

/-- Where `low_level_output` stands: outside, or in the loop that waits for a
descriptor. -/
inductive OutputPc where
  | idle
  | wait (dmatxdesc : Nat)

structure Sender where
  list : TxDescList
  gState : HalEthState
  pc : OutputPc
  /-- the descriptor that the DMA uses next, and what it has got of a frame -/
  dma : Nat
  part : Option (List UInt8)
  chains : List (List (List UInt8))
  answers : List Int
  wire : List (Option (List UInt8))

namespace Sender

/-- After `HAL_ETH_Start_IT`. -/
def init : Sender where
  list := ⟨fun _ => ⟨false, false, false, [], []⟩, 0, 0⟩
  gState := .ready
  pc := .idle
  dma := 0
  part := some []
  chains := []
  answers := []
  wire := []

/-! ## Steps -/

/-- `low_level_output` returns, whatever the driver has returned to it. -/
def answer (err : Int) (s : Sender) : Sender :=
  { s with pc := .idle, answers := s.answers ++ [err] }

/-- `low_level_output` of the chain `b :: rest`, and `HAL_ETH_Transmit`, up to
the loop. -/
def output (b : List UInt8) (rest : List (List UInt8)) (s : Sender) : Option Sender :=
  match s.pc with
  | .wait _ => none
  | .idle =>
      let s := { s with chains := s.chains ++ [b :: rest] }
      if (b :: rest).length > ETH_TX_DESC_CNT then some (s.answer ERR_IF)
      else
        match s.gState with
        | .error => some (s.answer ERR_OK)
        | .ready =>
            let (enough, list) := ethPrepareTxDescriptors s.list b rest
            if enough then
              some { s with
                list := { list with
                  curTxDesc := incrTxDescIndex list.curTxDesc 1
                  tail := incrTxDescIndex list.curTxDesc 1 }
                pc := .wait list.curTxDesc }
            else some (answer ERR_OK { s with list := list })

/-- The loop finds that the DMA has given the descriptor back. -/
def poll (s : Sender) : Option Sender :=
  match s.pc with
  | .idle => none
  | .wait dmatxdesc => if (s.list.txDesc dmatxdesc).own then none else some (s.answer ERR_OK)

/-- It is left with a time-out, or because the bus has failed. -/
def giveUp (s : Sender) : Option Sender :=
  match s.pc with
  | .idle => none
  | .wait dmatxdesc =>
      if (s.list.txDesc dmatxdesc).own then some (answer ERR_OK { s with gState := .error })
      else none

/-- The DMA takes a descriptor, up to the tail pointer. The frame goes out with
the last one. Its bytes are those of the pbufs as long as the call waits. -/
def fetch (s : Sender) : Option Sender :=
  let d := s.list.txDesc s.dma
  if s.dma ≠ s.list.tail ∧ d.own then
    let part := match s.pc with
      | .idle => none
      | .wait _ => (if d.fd then some [] else s.part).map fun p => p ++ (d.buffer1 ++ d.buffer2)
    some { s with
      list := { s.list with
        txDesc := change s.list.txDesc s.dma fun d => { d with own := false } }
      dma := incrTxDescIndex s.dma 1
      part := part
      wire := if d.ld then s.wire ++ [part] else s.wire }
  else none

inductive Act where
  | output (b : List UInt8) (rest : List (List UInt8))
  | poll
  | giveUp
  | fetch
  /-- `HAL_ETH_IRQHandler` finds an error -/
  | error

def step (s : Sender) : Act → Option Sender
  | .output b rest => s.output b rest
  | .poll => s.poll
  | .giveUp => s.giveUp
  | .fetch => s.fetch
  | .error => some { s with gState := .error }

end Sender

end NucleoMqtt.Eth
