import NucleoMqtt.Net.TcpRecv

/-!
# Net — a TCP socket is a stream

Whatever the interleaving of the two threads, the bytes that calls of
`TCP_Read` return, one call behind the other, are those that TCP has
acknowledged, in their order. Nothing is lost while the connection lives, and
a call returns 0 only when the peer has ended the stream and all of it has
been returned. `Inv` says where each byte is, and that the end never
overtakes data.
-/

namespace NucleoMqtt.Net

open NucleoMqtt.Lib

/-! ## Where the bytes are -/

def Msg.bytes : Msg → List UInt8
  | pbuf b => b
  | _ => []

/-- There is no data among these messages. -/
def Quiet (q : List Msg) : Prop := q.flatMap Msg.bytes = []

/-- No data stands behind an end. -/
def Orderly : List Msg → Prop
  | [] => True
  | .closed :: q => Quiet q
  | _ :: q => Orderly q

theorem Quiet.concat {q : List Msg} {m : Msg} (h : Quiet q) (hm : m.bytes = []) :
    Quiet (q ++ [m]) := by
  rw [Quiet, List.flatMap_append, List.flatMap_singleton, hm, h]
  rfl

theorem Orderly.concat {q : List Msg} {m : Msg} (h : Orderly q)
    (hm : .closed ∈ q → m.bytes = []) : Orderly (q ++ [m]) := by
  induction q with
  | nil =>
      cases m with
      | closed => exact rfl
      | pbuf b => trivial
      | error e => trivial
  | cons m' q ih =>
      have hrest : .closed ∈ q → m.bytes = [] := fun hmem => hm (List.mem_cons_of_mem m' hmem)
      cases m' with
      | closed => exact Quiet.concat h (hm List.mem_cons_self)
      | pbuf b => exact ih h hrest
      | error e => exact ih h hrest

theorem Orderly.tail {q : List Msg} {m : Msg} (h : Orderly (m :: q)) : Orderly q := by
  cases m with
  | closed =>
      have hquiet : Quiet q := h
      induction q with
      | nil => trivial
      | cons m' q ih =>
          rw [Quiet, List.flatMap_cons, List.append_eq_nil_iff] at hquiet
          cases m' with
          | closed => exact hquiet.2
          | pbuf b => exact ih hquiet.2 hquiet.2
          | error e => exact ih hquiet.2 hquiet.2
  | pbuf b => exact h
  | error e => exact h

namespace Tcp

def box (s : Tcp) : List Msg := s.recvmbox.getD []

def queued (s : Tcp) : List UInt8 := s.box.flatMap Msg.bytes

def refused (s : Tcp) : List UInt8 := s.refusedData.elim [] Prod.fst

end Tcp

/-- The call that is in progress. -/
def RecvPc.call : RecvPc → Option RecvCall
  | idle => none
  | top c => some c
  | fetch _ c => some c

def RecvPc.mem (pc : RecvPc) : List UInt8 := pc.call.elim [] RecvCall.mem

namespace Tcp

/-- What the calls have returned. -/
def taken (s : Tcp) : List UInt8 := s.results.flatMap RecvResult.bytes

/-- What a call in progress has copied, and what waits for it. -/
def unread (s : Tcp) : List UInt8 :=
  s.pc.mem ++ (s.lastdata.getD [] ++ (s.queued ++ s.refused))

/-- The end is on its way to the reading thread, or has come. -/
def Ended (s : Tcp) : Prop :=
  .closed ∈ s.todo ∨ .closed ∈ s.box ∨ s.finRxPending = true ∨ s.recvmbox = none

end Tcp

/-! ## The invariant -/

/-- A call that is in progress has copied no more than it was asked for. -/
structure RecvCall.Sound (c : RecvCall) : Prop where
  room : c.mem.length ≤ min c.len SSIZE_MAX
  first : c.again = false → c.mem = []

/-- Where an end may be taken up: no data has been copied yet. -/
def RecvPc.Fresh : RecvPc → Prop
  | idle => True
  | top c => c.again = false
  | fetch _ _ => False

/-- A segment is the last thing to do, and one that carries something has only
been let in while there was room and no end, by a living connection. -/
def Waits (free : Prop) : List Todo → Prop
  | [] => True
  | .segment data fin :: todo => todo = [] ∧ (data ≠ [] ∨ fin = true → free)
  | _ :: todo => Waits free todo

/-- What a call returns is the number of bytes it has put in the memory, or
no positive number when there are none. -/
structure RecvResult.Right (r : RecvResult) : Prop where
  fits : r.bytes.length ≤ r.len
  some : r.bytes ≠ [] → r.ret = r.bytes.length
  none : r.bytes = [] → r.ret ≤ 0

structure Inv (s : Tcp) : Prop where
  /-- each byte that has arrived is in its place, until the connection dies -/
  stream : ∃ lost, s.taken ++ (s.unread ++ lost) = s.arrived ∧ (s.pcb = true → lost = [])
  ended : s.Ended → s.fin = true ∧ s.refusedData = none
  orderly : Orderly s.box
  pending : s.finRxPending = true → Quiet s.box ∧ s.lastdata = none ∧ s.pc.Fresh
  call : ∀ c, s.pc.call = some c → c.Sound
  fetch : ∀ block c, s.pc = .fetch block c → s.lastdata = none
  segment : Waits (s.fin = false ∧ s.refusedData = none ∧ s.pcb = true) s.todo
  refusedFin : ∀ b, s.refusedData = some (b, true) → s.fin = true
  right : ∀ r ∈ s.results, r.Right
  /-- who is told that the stream has ended has got all of it -/
  eof : Machine.Guarded (fun r => r.ret = 0 ∧ 0 < r.len)
    (fun pre => pre.flatMap RecvResult.bytes = s.arrived ∧ s.fin = true) s.results

namespace Inv

theorem init : Inv Tcp.init where
  stream := ⟨[], rfl, fun _ => rfl⟩
  ended h := by
    rcases h with h | h | h | h
    · cases h
    · cases h
    · cases h
    · cases h
  orderly := trivial
  pending h := by cases h
  call c h := by cases h
  fetch block c h := by cases h
  segment := trivial
  refusedFin b h := by cases h
  right r h := by cases h
  eof := Machine.guarded_nil _ _

/-! ## The thread that reads -/

/-- A call returns, with what it has copied. -/
theorem returns {s : Tcp} {c : RecvCall} {r : RecvResult} (h : Inv { s with pc := .top c })
    (hbytes : r.bytes = c.mem) (hright : r.Right)
    (heof : r.ret = 0 → 0 < r.len → s.taken = s.arrived ∧ s.fin = true) :
    Inv { s with pc := .idle, results := s.results ++ [r] } where
  stream := by
    obtain ⟨lost, hstream, hlost⟩ := h.stream
    refine ⟨lost, ?_, hlost⟩
    rw [← hstream]
    show (s.results ++ [r]).flatMap RecvResult.bytes ++ _ = s.taken ++ (c.mem ++ _ ++ lost)
    rw [List.flatMap_append, List.flatMap_singleton, hbytes, List.append_assoc, List.append_assoc]
    rfl
  ended := h.ended
  orderly := h.orderly
  pending hpending := by
    obtain ⟨hquiet, hlast, -⟩ := h.pending hpending
    exact ⟨hquiet, hlast, trivial⟩
  call c' hc' := by cases hc'
  fetch block c' hc' := by cases hc'
  segment := h.segment
  refusedFin := h.refusedFin
  right r' hr' := by
    rcases List.mem_append.mp hr' with hr' | hr'
    · exact h.right r' hr'
    · rw [List.mem_singleton.mp hr']
      exact hright
  eof := h.eof.concat fun hzero => heof hzero.1 hzero.2

theorem done {s : Tcp} {c : RecvCall} (h : Inv { s with pc := .top c })
    (hmem : 0 < c.len → c.mem ≠ []) : Inv (s.recvDone c) := by
  have hsound := h.call c rfl
  refine h.returns rfl ⟨Nat.le_trans hsound.room (Nat.min_le_left _ _), fun _ => rfl, ?_⟩ ?_
  · intro hnil
    show ((c.mem.length : Nat) : Int) ≤ 0
    rw [show c.mem = [] from hnil]
    exact Int.le_refl 0
  · intro hret hlen
    have hzero : c.mem.length = 0 := Int.ofNat.inj hret
    exact absurd (List.eq_nil_of_length_eq_zero hzero) (hmem hlen)

/-- An error is reported by a call that has copied nothing. -/
theorem err {s : Tcp} {c : RecvCall} {e : Int} (h : Inv { s with pc := .top c })
    (heof : e = ERR_CLSD → c.mem = [] → s.taken = s.arrived ∧ s.fin = true) :
    Inv (s.recvErr e c) := by
  rw [Tcp.recvErr]
  by_cases hmem : 0 < c.mem.length
  · rw [if_pos hmem]
    exact h.done fun _ hnil => by rw [hnil] at hmem; exact Nat.lt_irrefl 0 hmem
  · rw [if_neg hmem]
    have hnil : c.mem = [] := List.eq_nil_of_length_eq_zero (Nat.eq_zero_of_not_pos hmem)
    refine h.returns hnil.symm ⟨Nat.zero_le _, fun hne => absurd rfl hne, fun _ => ?_⟩ ?_
    · show (if e = ERR_CLSD then (0 : Int) else -1) ≤ 0
      split <;> decide
    · intro hret _
      by_cases hclsd : e = ERR_CLSD
      · exact heof hclsd hnil
      · have hminus : (if e = ERR_CLSD then (0 : Int) else -1) = 0 := hret
        rw [if_neg hclsd] at hminus
        cases hminus

/-- A pbuf is copied, as far as there is room. -/
theorem copy {s : Tcp} {c : RecvCall} {p : List UInt8}
    (h : Inv { s with lastdata := some p, pc := .top c }) : Inv (s.recvCopy p c) := by
  have hsound := h.call c rfl
  have hroom := hsound.room
  have hfin : s.finRxPending = true → False := fun hpending => by
    obtain ⟨-, hlast, -⟩ := h.pending hpending
    cases hlast
  obtain ⟨n, hn⟩ : ∃ n, n = if c.left > p.length then p.length else c.left := ⟨_, rfl⟩
  have hle : n ≤ c.left := by
    rw [hn]
    split <;> omega
  obtain ⟨c', hc'⟩ : ∃ c' : RecvCall, c' = ⟨c.len, c.mem ++ p.take n, true⟩ := ⟨_, rfl⟩
  have hsound' : c'.Sound := by
    rw [hc']
    refine ⟨?_, fun hfirst => by cases hfirst⟩
    show (c.mem ++ p.take n).length ≤ min c.len SSIZE_MAX
    rw [List.length_append, List.length_take]
    rw [RecvCall.left] at hle
    omega
  have htop : Inv { s with
      lastdata := if p.length - n > 0 then some (p.drop n) else none, pc := .top c' } := by
    refine { h with
      stream := ?_, pending := fun hpending => (hfin hpending).elim,
      call := fun c'' hc'' => ?_, fetch := fun block c'' hc'' => by cases hc'' }
    · obtain ⟨lost, hstream, hlost⟩ := h.stream
      refine ⟨lost, ?_, hlost⟩
      rw [← hstream]
      have hlast : (if p.length - n > 0 then some (p.drop n) else none).getD [] = p.drop n := by
        split
        · rfl
        · rw [List.drop_eq_nil_of_le (by omega)]
          rfl
      show s.taken ++ (c'.mem ++ ((if p.length - n > 0 then some (p.drop n) else none).getD []
        ++ _) ++ lost) = s.taken ++ (c.mem ++ (p ++ _) ++ lost)
      rw [hlast, hc']
      show _ ++ ((c.mem ++ p.take n) ++ (p.drop n ++ _) ++ lost) = _
      rw [List.append_assoc c.mem, ← List.append_assoc (p.take n), List.take_append_drop]
      rfl
    · cases hc''
      exact hsound'
  have hcopy : s.recvCopy p c = if c'.left > 0 then
      { s with lastdata := if p.length - n > 0 then some (p.drop n) else none, pc := .top c' }
      else Tcp.recvDone c'
        { s with lastdata := if p.length - n > 0 then some (p.drop n) else none } := by
    rw [Tcp.recvCopy, hc', hn]
  rw [hcopy]
  by_cases hleft : c'.left > 0
  · rw [if_pos hleft]
    exact htop
  · rw [if_neg hleft]
    refine done htop fun hlen hnil => hleft ?_
    rw [RecvCall.left, hnil, List.length_nil, Nat.sub_zero, SSIZE_MAX]
    omega

/-- **The end is taken up** by a call that has copied nothing, when there is
nothing left. -/
theorem handleFin {s : Tcp} {c : RecvCall} {through : Bool} (h : Inv { s with pc := .top c })
    (hfresh : c.again = false) (hquiet : Quiet s.box) (hlast : s.lastdata = none)
    (hfin : s.fin = true) (hrefused : s.refusedData = none) : Inv (s.handleFin through c) := by
  have hnil := (h.call c rfl).first hfresh
  rw [Tcp.handleFin]
  by_cases hpcb : s.pcb = true
  · rw [if_pos hpcb]
    have htaken : s.taken = s.arrived := by
      obtain ⟨lost, hstream, hlost⟩ := h.stream
      have hunread : Tcp.unread { s with pc := .top c } = [] := by
        show c.mem ++ (s.lastdata.getD [] ++ (s.box.flatMap Msg.bytes ++ s.refused)) = []
        rw [hnil, hlast, show s.box.flatMap Msg.bytes = [] from hquiet, Tcp.refused, hrefused]
        rfl
      rw [hunread, hlost hpcb, List.append_nil, List.append_nil] at hstream
      exact hstream
    refine err ?_ fun _ _ => ?_
    · cases through
      · exact h
      · refine { h with
          stream := ?_, ended := fun _ => ⟨hfin, hrefused⟩, orderly := trivial,
          pending := fun hpending => ⟨rfl, hlast, (h.pending hpending).2.2⟩ }
        obtain ⟨lost, hstream, hlost⟩ := h.stream
        refine ⟨lost, ?_, hlost⟩
        rw [← hstream]
        show _ = s.taken ++ (c.mem ++ (s.lastdata.getD [] ++ (s.box.flatMap Msg.bytes ++ s.refused))
          ++ lost)
        rw [show s.box.flatMap Msg.bytes = [] from hquiet]
        rfl
    · cases through <;> exact ⟨htaken, hfin⟩
  · rw [if_neg hpcb]
    have hclear : Inv { s with pendingErr := none, pc := .top c } := { h with }
    refine hclear.err fun hclsd => ?_
    cases hpending : s.pendingErr with
    | none =>
        rw [hpending] at hclsd
        cases hclsd
    | some e =>
        rw [hpending] at hclsd
        cases e <;> cases hclsd

theorem code_ne (e : TcpErr) : e.code ≠ ERR_CLSD := by
  cases e <;> decide

theorem recvErr_eq (e : Int) (c : RecvCall) (s : Tcp) :
    ∃ r, s.recvErr e c = { s with pc := .idle, results := s.results ++ [r] } := by
  rw [Tcp.recvErr]
  split
  · exact ⟨_, rfl⟩
  · exact ⟨_, rfl⟩

theorem recvErr_pending (e : Int) (c : RecvCall) (s : Tcp) :
    Tcp.recvErr e c { s with finRxPending := true }
      = { s.recvErr e c with finRxPending := true } := by
  rw [Tcp.recvErr, Tcp.recvErr]
  split <;> rfl

/-- The end is left for the next call. -/
theorem handOver {s : Tcp} (h : Inv s) (hpc : s.pc = .idle) (hquiet : Quiet s.box)
    (hlast : s.lastdata = none) (hfin : s.fin = true) (hrefused : s.refusedData = none) :
    Inv { s with finRxPending := true } :=
  { h with
    ended := fun _ => ⟨hfin, hrefused⟩
    pending := fun _ => ⟨hquiet, hlast, by rw [hpc]; trivial⟩ }

/-- The top of the loop. -/
theorem top {s : Tcp} {c : RecvCall} {through : Bool} (h : Inv s) (hpc : s.pc = .top c) :
    Inv (s.recvTop through c) := by
  have hs : Inv { s with pc := .top c } := hpc ▸ h
  rw [Tcp.recvTop]
  split
  case h_1 p hlast =>
      refine copy (s := s) ?_
      rw [← hlast]
      exact hs
  case h_2 hlast =>
      by_cases hnone : s.recvmbox.isNone
      · rw [if_pos hnone]
        exact hs.err fun hclsd => absurd hclsd (by decide)
      · rw [if_neg hnone]
        by_cases hpending : s.finRxPending = true
        · rw [if_pos hpending]
          obtain ⟨hquiet, -, hfresh⟩ := hs.pending hpending
          obtain ⟨hfin, hrefused⟩ := h.ended (Or.inr (Or.inr (Or.inl hpending)))
          refine handleFin (s := { s with finRxPending := false }) ?_ hfresh hquiet hlast hfin
            hrefused
          exact { hs with
            ended := fun _ => ⟨hfin, hrefused⟩, pending := fun hfalse => by cases hfalse }
        · rw [if_neg hpending]
          exact { hs with
            pending := fun hp => absurd hp hpending, call := hs.call, fetch := fun _ _ _ => hlast }

/-- A message has been taken out. -/
theorem msg {s : Tcp} {c : RecvCall} {through block : Bool} {m : Msg} {q : List Msg} (h : Inv s)
    (hpc : s.pc = .fetch block c) (hbox : s.recvmbox = some (m :: q)) :
    Inv (Tcp.recvMsg through m c { s with recvmbox := some q }) := by
  have hcons : s.box = m :: q := by rw [Tcp.box, hbox]; rfl
  have hlast := h.fetch block c hpc
  have hpending : s.finRxPending = true → False := fun hp => by
    obtain ⟨-, -, hfresh⟩ := h.pending hp
    rw [hpc] at hfresh
    exact hfresh
  have horderly : Orderly q := by
    have hall := h.orderly
    rw [hcons] at hall
    exact hall.tail
  have hended : Tcp.Ended { s with recvmbox := some q } → s.Ended := by
    rintro (ht | ht | ht | ht)
    · exact Or.inl ht
    · refine Or.inr (Or.inl ?_)
      rw [hcons]
      exact List.mem_cons_of_mem m ht
    · exact Or.inr (Or.inr (Or.inl ht))
    · cases ht
  -- the call goes on with the bytes of the message in hand
  have hrest (l : Option (List UInt8)) (hl : l.getD [] = m.bytes) :
      Inv { s with recvmbox := some q, lastdata := l, pc := .top c } := by
    refine { h with
      stream := ?_, ended := fun he => h.ended (hended he), orderly := horderly,
      pending := fun hp => (hpending hp).elim, call := fun c' hc' => ?_,
      fetch := fun block' c' hc' => by cases hc' }
    · obtain ⟨lost, hstream, hlost⟩ := h.stream
      refine ⟨lost, ?_, hlost⟩
      rw [← hstream]
      show _ ++ (c.mem ++ (l.getD [] ++ (q.flatMap Msg.bytes ++ s.refused)) ++ lost)
        = _ ++ (s.pc.mem ++ (s.lastdata.getD [] ++ (s.box.flatMap Msg.bytes ++ s.refused)) ++ lost)
      rw [hl, hpc, hlast, hcons, List.flatMap_cons, List.append_assoc m.bytes]
      rfl
    · exact h.call c' (by rw [hpc]; exact hc')
  cases m with
  | pbuf p => exact copy (s := { s with recvmbox := some q }) (hrest (some p) rfl)
  | error e =>
      have hs := hrest s.lastdata (by rw [hlast]; rfl)
      exact err (s := { s with recvmbox := some q }) hs fun hclsd => absurd hclsd (code_ne e)
  | closed =>
      have hs := hrest s.lastdata (by rw [hlast]; rfl)
      have hquiet : Quiet q := by
        have hall := h.orderly
        rw [hcons] at hall
        exact hall
      obtain ⟨hfin, hrefused⟩ := h.ended (Or.inr (Or.inl (by rw [hcons]; exact List.mem_cons_self)))
      rw [Tcp.recvMsg]
      by_cases hagain : c.again = true
      · rw [if_pos hagain, recvErr_pending]
        have herr := err (s := { s with recvmbox := some q }) (e := ERR_WOULDBLOCK) hs
          fun hclsd => absurd hclsd (by decide)
        obtain ⟨r, hr⟩ := recvErr_eq ERR_WOULDBLOCK c { s with recvmbox := some q }
        rw [hr] at herr ⊢
        exact herr.handOver rfl hquiet hlast hfin hrefused
      · rw [if_neg hagain]
        exact handleFin (s := { s with recvmbox := some q }) hs (Bool.eq_false_iff.mpr hagain)
          hquiet hlast hfin hrefused

/-- The mailbox is empty. -/
theorem nothing {s : Tcp} {c : RecvCall} (h : Inv { s with pc := .top c }) :
    Inv (s.recvNothing c) := by
  rw [Tcp.recvNothing]
  split
  case h_1 e he =>
      refine err (s := { s with pendingErr := none }) { h with } fun hclsd => ?_
      exact absurd hclsd (code_ne e)
  case h_2 =>
      refine h.err fun hclsd => absurd hclsd ?_
      split <;> decide

/-- A call in front of the mailbox is back at the top, for all that counts. -/
theorem unfetched {s : Tcp} {c : RecvCall} {block : Bool} (h : Inv s)
    (hpc : s.pc = .fetch block c) : Inv { s with pc := .top c } := by
  refine { h with
    stream := ?_, pending := fun hp => ?_, call := fun c' hc' => h.call c' (by rw [hpc]; exact hc'),
    fetch := fun block' c' hc' => by cases hc' }
  · obtain ⟨lost, hstream, hlost⟩ := h.stream
    refine ⟨lost, ?_, hlost⟩
    rw [← hstream]
    show _ ++ (c.mem ++ _ ++ lost) = _ ++ (s.pc.mem ++ _ ++ lost)
    rw [hpc]
    rfl
  · obtain ⟨-, -, hfresh⟩ := h.pending hp
    rw [hpc] at hfresh
    exact hfresh.elim

theorem recvGoOn {s s' : Tcp} {through : Bool} (h : Inv s) (hrecv : s.recvGoOn through = some s') :
    Inv s' := by
  rw [Tcp.recvGoOn] at hrecv
  split at hrecv
  case h_1 => cases hrecv
  case h_2 c hpc =>
      cases hrecv
      exact h.top hpc
  case h_3 block c hpc =>
      rw [Tcp.recvFetch] at hrecv
      split at hrecv
      case h_1 => cases hrecv
      case h_2 =>
          split at hrecv
          · cases hrecv
          · cases hrecv
            exact (h.unfetched hpc).nothing
      case h_3 m q hbox =>
          cases hrecv
          exact h.msg hpc hbox

theorem recvTimeout {s s' : Tcp} (h : Inv s) (hrecv : s.recvTimeout = some s') : Inv s' := by
  rw [Tcp.recvTimeout] at hrecv
  split at hrecv
  case h_1 c hpc hbox =>
      cases hrecv
      exact (h.unfetched hpc).err fun hclsd => absurd hclsd (by decide)
  case h_2 => cases hrecv

theorem read {s : Tcp} (h : Inv s) (hpc : s.pc = .idle) (len : Nat) :
    Inv { s with pc := .top ⟨len, [], false⟩ } := by
  refine { h with
    stream := ?_, pending := fun hp => ?_, call := fun c hc => ?_,
    fetch := fun block c hc => by cases hc }
  · obtain ⟨lost, hstream, hlost⟩ := h.stream
    refine ⟨lost, ?_, hlost⟩
    rw [← hstream]
    show _ ++ ([] ++ _ ++ lost) = _ ++ (s.pc.mem ++ _ ++ lost)
    rw [hpc]
    rfl
  · obtain ⟨hquiet, hlast, -⟩ := h.pending hp
    exact ⟨hquiet, hlast, rfl⟩
  · cases hc
    exact ⟨Nat.zero_le _, fun _ => rfl⟩

/-! ## The TCP/IP thread -/

/-- What is left of `recv_tcp`: the mailbox is shut down, has taken the
message, or has no room for it. -/
theorem recvTcp_cases (m : Msg) (s : Tcp) :
    (s.recvmbox = none ∧ s.recvTcp m = some s) ∨
    (∃ q, s.recvmbox = some q ∧ s.recvTcp m = some { s with recvmbox := some (q ++ [m]) }) ∨
    s.recvTcp m = none := by
  rw [Tcp.recvTcp]
  split
  case h_1 hbox => exact Or.inl ⟨hbox, rfl⟩
  case h_2 q hbox =>
      split
      · exact Or.inr (Or.inl ⟨q, hbox, rfl⟩)
      · exact Or.inr (Or.inr rfl)

/-- A message without data. -/
theorem post {s : Tcp} {m : Msg} (h : Inv s) (hm : m.bytes = [])
    (hend : m = .closed → s.fin = true ∧ s.refusedData = none) :
    Inv ((s.recvTcp m).getD s) := by
  rcases recvTcp_cases m s with ⟨-, hrecv⟩ | ⟨q, hbox, hrecv⟩ | hrecv
  · rw [hrecv]
    exact h
  · rw [hrecv]
    have hq : s.box = q := by rw [Tcp.box, hbox]; rfl
    refine { h with
      stream := ?_, ended := fun hended => ?_,
      orderly := (hq ▸ h.orderly).concat fun _ => hm, pending := fun hp => ?_ }
    · obtain ⟨lost, hstream, hlost⟩ := h.stream
      refine ⟨lost, ?_, hlost⟩
      rw [← hstream]
      show _ ++ (_ ++ (_ ++ ((q ++ [m]).flatMap Msg.bytes ++ _)) ++ lost)
        = _ ++ (_ ++ (_ ++ (s.box.flatMap Msg.bytes ++ _)) ++ lost)
      rw [List.flatMap_append, List.flatMap_singleton, hm, List.append_nil, hq]
      rfl
    · rcases hended with ht | ht | ht | ht
      · exact h.ended (Or.inl ht)
      · rcases List.mem_append.mp ht with ht | ht
        · exact h.ended (Or.inr (Or.inl (hq.symm ▸ ht)))
        · exact hend (List.mem_singleton.mp ht).symm
      · exact h.ended (Or.inr (Or.inr (Or.inl ht)))
      · cases ht
    · obtain ⟨hquiet, hrest⟩ := h.pending hp
      exact ⟨(hq ▸ hquiet).concat hm, hrest⟩
  · rw [hrecv]
    exact h

/-- Refused data is tried again. -/
theorem process {s : Tcp} (h : Inv s) (htodo : s.todo = []) : Inv s.tcpProcessRefusedData := by
  rw [Tcp.tcpProcessRefusedData]
  split
  case h_1 => exact h
  case h_2 bytes fin hrefused =>
      have hopen : ¬ s.Ended := fun hended => by
        obtain ⟨-, hnone⟩ := h.ended hended
        rw [hrefused] at hnone
        cases hnone
      rcases recvTcp_cases (.pbuf bytes) s with ⟨hbox, -⟩ | ⟨q, hbox, hrecv⟩ | hrecv
      · exact absurd (Or.inr (Or.inr (Or.inr hbox))) hopen
      · rw [hrecv]
        have hq : s.box = q := by rw [Tcp.box, hbox]; rfl
        have hclosed : .closed ∉ q := fun hmem => hopen (Or.inr (Or.inl (hq.symm ▸ hmem)))
        refine { h with
          stream := ?_, ended := fun hended => ⟨?_, rfl⟩,
          orderly := (hq ▸ h.orderly).concat fun hmem => absurd hmem hclosed,
          pending := fun hp => absurd (Or.inr (Or.inr (Or.inl hp))) hopen, segment := ?_,
          refusedFin := fun b hb => by cases hb }
        · obtain ⟨lost, hstream, hlost⟩ := h.stream
          refine ⟨lost, ?_, hlost⟩
          rw [← hstream]
          show _ ++ (_ ++ (_ ++ ((q ++ [Msg.pbuf bytes]).flatMap Msg.bytes ++ [])) ++ lost)
            = _ ++ (_ ++ (_ ++ (s.box.flatMap Msg.bytes ++ s.refused)) ++ lost)
          rw [List.flatMap_append, List.flatMap_singleton, List.append_nil, hq, Tcp.refused,
            hrefused]
          rfl
        · cases hf : fin with
          | true => exact h.refusedFin bytes (by rw [hrefused, hf])
          | false =>
              rw [hf] at hended
              rcases hended with ht | ht | ht | ht
              · exact absurd (Or.inl ht) hopen
              · rcases List.mem_append.mp ht with ht | ht
                · exact absurd ht hclosed
                · cases List.mem_singleton.mp ht
              · exact absurd (Or.inr (Or.inr (Or.inl ht))) hopen
              · cases ht
        · show Waits _ (if fin = true then Todo.closed :: s.todo else s.todo)
          rw [htodo]
          by_cases hf : fin = true
          · rw [if_pos hf]
            trivial
          · rw [if_neg hf]
            trivial
      · rw [hrecv]
        exact h

/-- What is new can as well have been refused first. -/
theorem tcpProcess_eq {s : Tcp} {data : List UInt8} {fin : Bool} (hdata : data ≠ [])
    (hrefused : s.refusedData = none) :
    Tcp.tcpProcess data fin s = Tcp.tcpProcessRefusedData
      { s with arrived := s.arrived ++ data, fin := s.fin || fin, refusedData := some (data, fin) }
      := by
  rw [Tcp.tcpProcess, Tcp.recvData, if_neg hdata, Tcp.tcpProcessRefusedData]
  simp only [Tcp.recvTcp]
  cases hbox : s.recvmbox with
  | none =>
      simp only [Option.getD_some, hrefused]
      cases fin <;> rfl
  | some q =>
      simp only
      by_cases hroom : q.length < DEFAULT_TCP_RECVMBOX_SIZE
      · simp only [if_pos hroom, Option.getD_some, hrefused]
        cases fin <;> rfl
      · simp only [if_neg hroom, Option.getD_none]
        cases fin <;> rfl

/-- A segment is taken in. One that carries something finds that there is
room, and that the end has not come. -/
theorem tcpProcess {s : Tcp} {data : List UInt8} {fin : Bool} (h : Inv s) (htodo : s.todo = [])
    (hfree : data ≠ [] ∨ fin = true → s.fin = false ∧ s.refusedData = none ∧ s.pcb = true) :
    Inv (Tcp.tcpProcess data fin s) := by
  -- what has been returned as the end has been returned behind a FIN
  have heof (hfin : s.fin = false) (fin' : Bool) (arrived : List UInt8) : Machine.Guarded
      (fun r : RecvResult => r.ret = 0 ∧ 0 < r.len)
      (fun pre => pre.flatMap RecvResult.bytes = arrived ∧ fin' = true) s.results := by
    intro pre r post hsplit hr
    obtain ⟨-, htrue⟩ := h.eof pre r post hsplit hr
    rw [hfin] at htrue
    cases htrue
  have hopen (hfin : s.fin = false) : ¬ s.Ended := fun hended => by
    obtain ⟨hend, -⟩ := h.ended hended
    rw [hfin] at hend
    cases hend
  by_cases hdata : data = []
  · rw [Tcp.tcpProcess, Tcp.recvData, if_pos hdata, hdata, List.append_nil]
    cases fin with
    | false =>
        rw [Bool.or_false]
        exact h
    | true =>
        obtain ⟨hfin, hrefused, -⟩ := hfree (Or.inr rfl)
        simp only [Bool.or_true, if_true, hrefused, htodo]
        exact { h with
          stream := by
            obtain ⟨lost, hstream, hlost⟩ := h.stream
            refine ⟨lost, ?_, hlost⟩
            rw [← hstream, Tcp.unread, Tcp.unread, Tcp.refused, Tcp.refused, hrefused]
            rfl
          ended := fun _ => ⟨rfl, rfl⟩
          segment := trivial
          refusedFin := fun b hb => by cases hb
          eof := heof hfin true s.arrived }
  · obtain ⟨hfin, hrefused, hpcb⟩ := hfree (Or.inl hdata)
    rw [tcpProcess_eq hdata hrefused]
    refine process ?_ htodo
    refine { h with
      stream := ?_, ended := fun hended => absurd hended (hopen hfin),
      segment := htodo ▸ trivial, refusedFin := fun b hb => ?_, eof := heof hfin _ _ }
    · obtain ⟨lost, hstream, hlost⟩ := h.stream
      refine ⟨[], ?_, fun _ => rfl⟩
      rw [hlost hpcb, List.append_nil] at hstream
      have hunread : s.unread = s.pc.mem ++ (s.lastdata.getD [] ++ s.queued) := by
        rw [Tcp.unread, Tcp.refused, hrefused]
        simp only [Option.elim_none, List.append_nil]
      show s.taken ++ (s.pc.mem ++ (s.lastdata.getD [] ++ (s.queued ++ data)) ++ [])
        = s.arrived ++ data
      rw [← hstream, hunread]
      simp only [List.append_assoc, List.append_nil]
    · cases hb
      exact Bool.or_true _

theorem errTcp {s : Tcp} (h : Inv s) (e : TcpErr) : Inv (s.errTcp e) := by
  rw [Tcp.errTcp]
  refine { h with
    stream := ?_, ended := fun hended => ?_, segment := trivial,
    refusedFin := fun b hb => by cases hb }
  · obtain ⟨lost, hstream, -⟩ := h.stream
    refine ⟨s.refused ++ lost, ?_, fun hpcb => by cases hpcb⟩
    rw [← hstream]
    show s.taken ++ ((s.pc.mem ++ (s.lastdata.getD [] ++ (s.queued ++ []))) ++ (s.refused ++ lost))
      = s.taken ++ ((s.pc.mem ++ (s.lastdata.getD [] ++ (s.queued ++ s.refused))) ++ lost)
    simp only [List.append_assoc, List.append_nil]
  · rcases hended with ht | ht
    · rcases ht with _ | ⟨_, ht⟩
      cases ht
    · exact ⟨(h.ended (Or.inr ht)).1, rfl⟩

/-- What was to be done first is done. -/
theorem rest {s : Tcp} {t : Todo} {todo : List Todo} (h : Inv s) (htodo : s.todo = t :: todo) :
    Inv { s with todo := todo } :=
  { h with
    ended := fun hended => h.ended (hended.imp (fun hmem => by
      rw [htodo]
      exact List.mem_cons_of_mem t hmem) id)
    segment := by
      have hwaits := h.segment
      rw [htodo] at hwaits
      cases t with
      | segment data fin =>
          rw [hwaits.1]
          trivial
      | closed => exact hwaits
      | error e => exact hwaits }

theorem goOn {s s' : Tcp} (h : Inv s) (hgo : s.goOn = some s') : Inv s' := by
  rw [Tcp.goOn] at hgo
  split at hgo
  case h_1 => cases hgo
  case h_2 data fin todo htodo =>
      cases hgo
      have hrest := h.rest htodo
      have hwaits := h.segment
      rw [htodo] at hwaits
      obtain ⟨rfl, hfree⟩ := hwaits
      exact hrest.tcpProcess rfl hfree
  case h_3 todo htodo =>
      cases hgo
      refine (h.rest htodo).post rfl fun _ => h.ended (Or.inl ?_)
      rw [htodo]
      exact List.mem_cons_self
  case h_4 e todo htodo =>
      cases hgo
      exact (h.rest htodo).post rfl fun hclosed => by cases hclosed

/-- Whether refused data is taken now or not, there is nothing to do, or the
end to pass on. -/
theorem tcpProcessRefusedData_spec {s : Tcp} (htodo : s.todo = []) :
    (s.tcpProcessRefusedData.todo = [] ∨ s.tcpProcessRefusedData.todo = [.closed]) ∧
    s.tcpProcessRefusedData.fin = s.fin ∧ s.tcpProcessRefusedData.pcb = s.pcb := by
  rw [Tcp.tcpProcessRefusedData]
  split
  case h_1 => exact ⟨Or.inl htodo, rfl, rfl⟩
  case h_2 bytes fin hrefused =>
      split
      case h_1 => exact ⟨Or.inl htodo, rfl, rfl⟩
      case h_2 s' hs' =>
          have hframe : s'.todo = s.todo ∧ s'.fin = s.fin ∧ s'.pcb = s.pcb := by
            rcases recvTcp_cases (.pbuf bytes) s with ⟨-, hrecv⟩ | ⟨q, -, hrecv⟩ | hrecv
            · cases hrecv.symm.trans hs'
              exact ⟨rfl, rfl, rfl⟩
            · cases hrecv.symm.trans hs'
              exact ⟨rfl, rfl, rfl⟩
            · cases hrecv.symm.trans hs'
          refine ⟨?_, hframe.2⟩
          show (if fin = true then Todo.closed :: s'.todo else s'.todo) = []
            ∨ (if fin = true then Todo.closed :: s'.todo else s'.todo) = [.closed]
          rw [hframe.1, htodo]
          cases fin
          · exact Or.inl rfl
          · exact Or.inr rfl

theorem tcpInput {s : Tcp} {data : List UInt8} {fin : Bool} (h : Inv s) (htodo : s.todo = [])
    (hpcb : s.pcb = true) (hfin : s.fin = true → data = [] ∧ fin = false) :
    Inv (s.tcpInput data fin) := by
  have hs := h.process htodo
  obtain ⟨hlist, hfin', hpcb'⟩ := tcpProcessRefusedData_spec htodo
  rw [Tcp.tcpInput]
  obtain ⟨t, ht⟩ : ∃ t, t = s.tcpProcessRefusedData := ⟨_, rfl⟩
  rw [← ht] at hs hlist hfin' hpcb' ⊢
  by_cases hdrop : t.refusedData.isSome ∧ (data ≠ [] ∨ fin)
  · rw [if_pos hdrop]
    exact hs
  · rw [if_neg hdrop]
    have hfree : data ≠ [] ∨ fin = true → t.fin = false ∧ t.refusedData = none ∧ t.pcb = true := by
      intro hsome
      refine ⟨?_, ?_, hpcb'.trans hpcb⟩
      · rw [hfin']
        refine Bool.eq_false_iff.mpr fun htrue => ?_
        obtain ⟨hdata, hfalse⟩ := hfin htrue
        rcases hsome with hsome | hsome
        · exact hsome hdata
        · rw [hfalse] at hsome
          cases hsome
      · refine Option.not_isSome_iff_eq_none.mp fun hrefused => hdrop ⟨hrefused, hsome⟩
    refine { hs with
      ended := fun hended => hs.ended (hended.imp (fun hmem => ?_) id)
      segment := ?_ }
    · rcases List.mem_append.mp hmem with hmem | hmem
      · exact hmem
      · cases List.mem_singleton.mp hmem
    · rcases hlist with hlist | hlist
      · show Waits _ (t.todo ++ [.segment data fin])
        rw [hlist]
        exact ⟨rfl, hfree⟩
      · show Waits _ (t.todo ++ [.segment data fin])
        rw [hlist]
        exact ⟨rfl, hfree⟩

/-- **Every step keeps the invariant.** -/
theorem step {s s' : Tcp} {a : Tcp.Act} (h : Inv s) (hstep : s.step a = some s') : Inv s' := by
  have hfree (hs : s.Free = true) : s.todo = [] ∧ s.pcb = true := by
    rw [Tcp.Free, Bool.and_eq_true, List.isEmpty_iff] at hs
    exact hs
  cases a with
  | input data fin =>
      rw [Tcp.step] at hstep
      by_cases hgate : s.Free ∧ (s.fin → data = [] ∧ fin = false)
      · rw [if_pos hgate] at hstep
        cases hstep
        exact h.tcpInput (hfree hgate.1).1 (hfree hgate.1).2 hgate.2
      · rw [if_neg hgate] at hstep
        cases hstep
  | fasttmr =>
      rw [Tcp.step] at hstep
      by_cases hgate : s.Free = true
      · rw [if_pos hgate] at hstep
        cases hstep
        exact h.process (hfree hgate).1
      · rw [if_neg hgate] at hstep
        cases hstep
  | err e =>
      rw [Tcp.step] at hstep
      by_cases hgate : s.Free = true
      · rw [if_pos hgate] at hstep
        cases hstep
        exact h.errTcp e
      · rw [if_neg hgate] at hstep
        cases hstep
  | goOn => exact h.goOn hstep
  | read len =>
      rw [Tcp.step] at hstep
      split at hstep
      case h_1 hpc =>
          cases hstep
          exact h.read hpc len
      case h_2 => cases hstep
  | recv through => exact h.recvGoOn hstep
  | timeout => exact h.recvTimeout hstep

theorem run {acts : List Tcp.Act} {s : Tcp} (hrun : Machine.run Tcp.step .init acts = some s) :
    Inv s := by
  have hany : Machine.Along Tcp.step (fun _ _ => True) .init acts :=
    Machine.along_of_forall (fun _ _ _ => trivial) _
  exact Machine.run_invariant Inv (fun _ _ _ _ h hstep => h.step hstep) init hany hrun

end Inv

/-! ## The stream -/

/-- A segment that is read in two calls, with the FIN between them. -/
def twoReads : List Tcp.Act :=
  [.input [1, 2] false, .goOn, .read 1, .recv true, .recv true, .input [] true, .goOn, .goOn,
    .read 5, .recv true, .recv true, .recv true, .read 5, .recv true]

/-- **A TCP socket is a stream.** In every run, what the calls have returned
are the first of the bytes acknowledged, and while the connection lives the
rest of them waits; a call returns the number of its bytes, or 0 or -1 when
there are none; and one that had room and returned 0 has been told of the end
with everything returned before. -/
theorem tcp_stream {acts : List Tcp.Act} {s : Tcp}
    (hrun : Machine.run Tcp.step .init acts = some s) :
    s.taken <+: s.arrived ∧ (s.pcb = true → s.taken ++ s.unread = s.arrived) ∧
      (∀ r ∈ s.results, r.Right) ∧
      Machine.Guarded (fun r => r.ret = 0 ∧ 0 < r.len)
        (fun earlier => earlier.flatMap RecvResult.bytes = s.arrived ∧ s.fin = true)
        s.results := by
  have h := Inv.run hrun
  obtain ⟨lost, hstream, hlost⟩ := h.stream
  refine ⟨⟨_, hstream⟩, fun hpcb => ?_, h.right, h.eof⟩
  rw [hlost hpcb, List.append_nil] at hstream
  exact hstream

theorem tcp_stream_twoReads : ∃ s : Tcp, Machine.run Tcp.step .init twoReads = some s ∧
    s.taken <+: s.arrived ∧ (s.pcb = true → s.taken ++ s.unread = s.arrived) ∧
      (∀ r ∈ s.results, r.Right) ∧
      Machine.Guarded (fun r => r.ret = 0 ∧ 0 < r.len)
        (fun earlier => earlier.flatMap RecvResult.bytes = s.arrived ∧ s.fin = true)
        s.results := by
  refine ⟨_, rfl, ?_⟩
  have hrun : Machine.run Tcp.step .init twoReads = some _ := rfl
  exact tcp_stream hrun

end NucleoMqtt.Net
