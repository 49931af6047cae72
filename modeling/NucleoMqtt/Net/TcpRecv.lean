import NucleoMqtt.Lib.Machine

/-!
# Net — the receiving side of a TCP socket

`TCP_Read` is a read of a lwIP socket. Two threads meet there. The TCP/IP
thread takes segments in and posts what they carry to `recvmbox`, which has
room for six messages; what does not fit it keeps as `refused_data` and tries
again. The thread that reads takes messages out, in `lwip_recv_tcp`, and
keeps what a call had no room for as `lastdata`.

`Tcp` is the state they share, one step is one access of either to the
mailbox, or what it does between two of them. `arrived`, `fin` and `results`
do not exist in the source: they collect the bytes that TCP has acknowledged,
whether it has acknowledged the end, and what the calls have returned.
-/

namespace NucleoMqtt.Net

def DEFAULT_TCP_RECVMBOX_SIZE : Nat := 6

def SSIZE_MAX : Nat := 2147483647

def ERR_TIMEOUT : Int := -3
def ERR_WOULDBLOCK : Int := -7
def ERR_CONN : Int := -11
def ERR_ABRT : Int := -13
def ERR_RST : Int := -14
def ERR_CLSD : Int := -15

/-! ## State -/

/-- The errors that `err_tcp` is called with. -/
inductive TcpErr where
  | abrt
  | rst

def TcpErr.code : TcpErr → Int
  | abrt => ERR_ABRT
  | rst => ERR_RST

/-- A message in the mailbox: a pbuf, `netconn_closed`, or the pointer that
stands for an error. -/
inductive Msg where
  | pbuf (bytes : List UInt8)
  | closed
  | error (e : TcpErr)

/-- What the TCP/IP thread is in the middle of: `tcp_input` with a segment
that carries this, a `TCP_EVENT_CLOSED`, or the post of `err_tcp`. -/
inductive Todo where
  | segment (data : List UInt8) (fin : Bool)
  | closed
  | error (e : TcpErr)

/-- A call of `lwip_recv_tcp`: the bytes asked for, those copied, and whether
`apiflags` have `NETCONN_DONTBLOCK | NETCONN_NOFIN`. -/
structure RecvCall where
  len : Nat
  mem : List UInt8
  again : Bool

/-- `recv_left`. -/
def RecvCall.left (c : RecvCall) : Nat := min c.len SSIZE_MAX - c.mem.length

/-- Where the reading thread stands: outside, at the top of the loop, or in
front of `sys_arch_mbox_fetch` or `sys_arch_mbox_tryfetch`. -/
inductive RecvPc where
  | idle
  | top (c : RecvCall)
  | fetch (block : Bool) (c : RecvCall)

/-- What a call has returned, and the bytes it has put in the memory. -/
structure RecvResult where
  len : Nat
  ret : Int
  bytes : List UInt8

structure Tcp where
  /-- no mailbox once the receiving side has been shut down -/
  recvmbox : Option (List Msg)
  /-- `NETCONN_FLAG_MBOXCLOSED` -/
  mboxClosed : Bool
  pendingErr : Option TcpErr
  /-- `NETCONN_FIN_RX_PENDING` -/
  finRxPending : Bool
  /-- `conn->pcb.tcp` is there -/
  pcb : Bool
  /-- with `PBUF_FLAG_TCP_FIN` -/
  refusedData : Option (List UInt8 × Bool)
  todo : List Todo
  lastdata : Option (List UInt8)
  pc : RecvPc
  arrived : List UInt8
  fin : Bool
  results : List RecvResult

namespace Tcp

/-- A connection that has just been established. -/
def init : Tcp where
  recvmbox := some []
  mboxClosed := false
  pendingErr := none
  finRxPending := false
  pcb := true
  refusedData := none
  todo := []
  lastdata := none
  pc := .idle
  arrived := []
  fin := false
  results := []

/-! ## The TCP/IP thread -/

/-- `recv_tcp`; no answer for `ERR_MEM`. -/
def recvTcp (m : Msg) (s : Tcp) : Option Tcp :=
  match s.recvmbox with
  | none => some s
  | some q =>
      if q.length < DEFAULT_TCP_RECVMBOX_SIZE then some { s with recvmbox := some (q ++ [m]) }
      else none

/-- `tcp_process_refused_data`. -/
def tcpProcessRefusedData (s : Tcp) : Tcp :=
  match s.refusedData with
  | none => s
  | some (bytes, fin) =>
      match s.recvTcp (.pbuf bytes) with
      | none => s
      | some s' =>
          { s' with refusedData := none, todo := if fin then .closed :: s'.todo else s'.todo }

/-- `tcp_input`, of a segment with what TCP takes from it: while data is
refused, it is dropped unless it carries nothing. -/
def tcpInput (data : List UInt8) (fin : Bool) (s : Tcp) : Tcp :=
  let s := s.tcpProcessRefusedData
  if s.refusedData.isSome ∧ (data ≠ [] ∨ fin) then s
  else { s with todo := s.todo ++ [.segment data fin] }

/-- `TCP_EVENT_RECV`, with the data kept when it is refused. -/
def recvData (data : List UInt8) (s : Tcp) : Tcp :=
  if data = [] then s
  else (s.recvTcp (.pbuf data)).getD { s with refusedData := some (data, false) }

/-- The data of a segment, and then its FIN. -/
def tcpProcess (data : List UInt8) (fin : Bool) (s : Tcp) : Tcp :=
  let s := recvData data { s with arrived := s.arrived ++ data, fin := s.fin || fin }
  if fin then
    match s.refusedData with
    | some (bytes, _) => { s with refusedData := some (bytes, true) }
    | none => { s with todo := .closed :: s.todo }
  else s

/-- What `err_tcp` does first, and what becomes of the pcb. -/
def errTcp (e : TcpErr) (s : Tcp) : Tcp :=
  { s with pcb := false, pendingErr := some e, mboxClosed := true, refusedData := none,
           todo := [.error e] }

/-- The TCP/IP thread goes on. Nobody looks at the answer to an end or to an
error: when the mailbox is full they are lost. -/
def goOn (s : Tcp) : Option Tcp :=
  match s.todo with
  | [] => none
  | .segment data fin :: todo => some (tcpProcess data fin { s with todo := todo })
  | .closed :: todo => some ((recvTcp .closed { s with todo := todo }).getD { s with todo := todo })
  | .error e :: todo =>
      some ((recvTcp (.error e) { s with todo := todo }).getD { s with todo := todo })

/-! ## The thread that reads -/

/-- `lwip_recv_tcp_done`. -/
def recvDone (c : RecvCall) (s : Tcp) : Tcp :=
  { s with pc := .idle, results := s.results ++ [⟨c.len, c.mem.length, c.mem⟩] }

/-- `netconn_recv_tcp_pbuf_flags` has returned an error. -/
def recvErr (err : Int) (c : RecvCall) (s : Tcp) : Tcp :=
  if 0 < c.mem.length then recvDone c s
  else
    { s with pc := .idle,
             results := s.results ++ [⟨c.len, if err = ERR_CLSD then 0 else -1, []⟩] }

/-- The body of the loop, from the pbuf on. -/
def recvCopy (p : List UInt8) (c : RecvCall) (s : Tcp) : Tcp :=
  let copylen := if c.left > p.length then p.length else c.left
  let c := { c with mem := c.mem ++ p.take copylen, again := true }
  let s := { s with lastdata := if p.length - copylen > 0 then some (p.drop copylen) else none }
  if c.left > 0 then { s with pc := .top c } else recvDone c s

/-- `handle_fin`. The shutdown does not go through while another thread is in
a write. -/
def handleFin (through : Bool) (c : RecvCall) (s : Tcp) : Tcp :=
  if s.pcb then
    recvErr ERR_CLSD c (if through then { s with recvmbox := none } else s)
  else
    recvErr (s.pendingErr.elim ERR_RST TcpErr.code) c { s with pendingErr := none }

/-- The top of the loop, up to the mailbox. -/
def recvTop (through : Bool) (c : RecvCall) (s : Tcp) : Tcp :=
  match s.lastdata with
  | some p => recvCopy p c s
  | none =>
      if s.recvmbox.isNone then recvErr ERR_CONN c s
      else if s.finRxPending then handleFin through c { s with finRxPending := false }
      else { s with pc := .fetch (!(c.again || s.mboxClosed || s.pendingErr.isSome)) c }

/-- A message has been taken out of the mailbox. -/
def recvMsg (through : Bool) (m : Msg) (c : RecvCall) (s : Tcp) : Tcp :=
  match m with
  | .pbuf p => recvCopy p c s
  | .error e => recvErr e.code c s
  | .closed =>
      if c.again then recvErr ERR_WOULDBLOCK c { s with finRxPending := true }
      else handleFin through c s

/-- `sys_arch_mbox_tryfetch` has found nothing. -/
def recvNothing (c : RecvCall) (s : Tcp) : Tcp :=
  match s.pendingErr with
  | some e => recvErr e.code c { s with pendingErr := none }
  | none => recvErr (if s.mboxClosed then ERR_CONN else ERR_WOULDBLOCK) c s

/-- The fetch, which waits on an empty mailbox when it may. -/
def recvFetch (through block : Bool) (c : RecvCall) (s : Tcp) : Option Tcp :=
  match s.recvmbox with
  | none => none
  | some [] => if block then none else some (recvNothing c s)
  | some (m :: q) => some (recvMsg through m c { s with recvmbox := some q })

/-- The time of a fetch that waits runs out. -/
def recvTimeout (s : Tcp) : Option Tcp :=
  match s.pc, s.recvmbox with
  | .fetch true c, some [] => some (recvErr ERR_TIMEOUT c s)
  | _, _ => none

def recvGoOn (through : Bool) (s : Tcp) : Option Tcp :=
  match s.pc with
  | .idle => none
  | .top c => some (recvTop through c s)
  | .fetch block c => recvFetch through block c s

/-! ## Steps -/

/-- One step of either thread, or of their surroundings. -/
inductive Act where
  /-- a segment comes in -/
  | input (data : List UInt8) (fin : Bool)
  /-- `tcp_fasttmr` -/
  | fasttmr
  /-- the connection is reset or given up -/
  | err (e : TcpErr)
  | goOn
  /-- `TCP_Read` is called -/
  | read (len : Nat)
  | recv (through : Bool)
  | timeout

/-- The TCP/IP thread is free, and has a connection. -/
def Free (s : Tcp) : Bool := s.todo.isEmpty && s.pcb

/-- A peer sends nothing behind its FIN. -/
def step (s : Tcp) : Act → Option Tcp
  | .input data fin =>
      if s.Free ∧ (s.fin → data = [] ∧ fin = false) then some (s.tcpInput data fin) else none
  | .fasttmr => if s.Free then some s.tcpProcessRefusedData else none
  | .err e => if s.Free then some (s.errTcp e) else none
  | .goOn => s.goOn
  | .read len =>
      match s.pc with
      | .idle => some { s with pc := .top ⟨len, [], false⟩ }
      | _ => none
  | .recv through => s.recvGoOn through
  | .timeout => s.recvTimeout

end Tcp

end NucleoMqtt.Net
