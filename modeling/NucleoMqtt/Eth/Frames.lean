import NucleoMqtt.Eth.Receive

/-!
# Eth — what becomes of a frame

The frames fit in one buffer each. Then, whatever the interleaving of the
DMA, the interrupt, the thread and the stack: the thread takes every frame
once, in order; it does not sleep over one, but for want of a pbuf; and a
pbuf reads the frame it is for as long as at most three newer ones have come.
`Inv` relates the ring to the frames received.
-/

namespace NucleoMqtt.Eth

open NucleoMqtt.Lib

theorem desc_pos : 0 < ETH_RX_DESC_CNT := by decide

theorem incr_slot (k : Nat) :
    incrRxDescIndex (k % ETH_RX_DESC_CNT) 1 = (k + 1) % ETH_RX_DESC_CNT :=
  Ring.next_slot desc_pos k

/-! ## The driver, between two frames -/

/-- The driver has nothing, and looks for the frame of number `b` next. -/
structure RxDescList.Rest (l : RxDescList) (b : Nat) : Prop where
  cur : l.curRxDesc = b % ETH_RX_DESC_CNT
  none : l.appDescNbr = 0
  context : l.appContextDesc = 0

/-- The driver has the frame of number `b`. -/
structure RxDescList.Holds (l : RxDescList) (b : Nat) : Prop where
  cur : l.curRxDesc = (b + 1) % ETH_RX_DESC_CNT
  first : l.firstAppDesc = b % ETH_RX_DESC_CNT
  one : l.appDescNbr = 1
  context : l.appContextDesc = 0

theorem getRxDataBuffer_none {l : RxDescList} {b : Nat} {desc0 : Nat} {ioc : Bool}
    (hrest : l.Rest b) (hdesc : l.rxDesc (b % ETH_RX_DESC_CNT) = .dma desc0 ioc) :
    halEthGetRxDataBuffer l = (none, l) := by
  have hscan : scan l.rxDesc ETH_RX_DESC_CNT l.curRxDesc 0 0 = ⟨false, l.curRxDesc, 0, 0⟩ := by
    rw [hrest.cur, ETH_RX_DESC_CNT, scan, ← ETH_RX_DESC_CNT, hdesc]
  rw [halEthGetRxDataBuffer, if_pos hrest.none, halEthIsRxDataAvailable,
    if_neg (fun hne => hne hrest.none)]
  simp only [hscan]
  rfl

theorem getRxDataBuffer_some {l : RxDescList} {b pl : Nat} (hrest : l.Rest b)
    (hdesc : l.rxDesc (b % ETH_RX_DESC_CNT) = .app true true false pl)
    (hnext : (l.rxDesc ((b + 1) % ETH_RX_DESC_CNT)).context = false)
    (hpl : pl ≤ ETH_RX_BUFFER_SIZE) :
    ∃ l', halEthGetRxDataBuffer l = (some [(b % ETH_RX_DESC_CNT, pl)], l') ∧ l'.Holds b ∧
      l'.rxDesc = l.rxDesc ∧ halEthGetRxDataLength l' = pl := by
  have hscan : scan l.rxDesc ETH_RX_DESC_CNT l.curRxDesc 0 0
      = ⟨true, (b + 1) % ETH_RX_DESC_CNT, 1, b % ETH_RX_DESC_CNT⟩ := by
    rw [hrest.cur, ← incr_slot, ETH_RX_DESC_CNT, scan, ← ETH_RX_DESC_CNT, hdesc]
    rfl
  have havailable : halEthIsRxDataAvailable l = (true, { l with
      curRxDesc := (b + 1) % ETH_RX_DESC_CNT, firstAppDesc := b % ETH_RX_DESC_CNT,
      appDescNbr := 1 }) := by
    rw [halEthIsRxDataAvailable, if_neg (fun hne => hne hrest.none)]
    simp only [hscan, hnext]
    rfl
  have hlen : (pl + 4294967296 - 0) % 4294967296 = pl := by
    rw [ETH_RX_BUFFER_SIZE] at hpl
    omega
  refine ⟨{ l with
    curRxDesc := (b + 1) % ETH_RX_DESC_CNT, firstAppDesc := b % ETH_RX_DESC_CNT, appDescNbr := 1 },
    ?_, ⟨rfl, rfl, rfl, hrest.context⟩, rfl, ?_⟩
  · rw [halEthGetRxDataBuffer, if_pos hrest.none, havailable]
    simp only [if_true, Nat.sub_self, packetBuffers, hdesc, Desc.packetLength, hlen]
    rw [if_pos hpl]
  · have hfirst : incrRxDescIndex (b % ETH_RX_DESC_CNT) (1 - 1) = b % ETH_RX_DESC_CNT :=
      if_neg (Nat.not_le_of_lt (Nat.mod_lt b desc_pos))
    show (l.rxDesc (incrRxDescIndex (b % ETH_RX_DESC_CNT) (1 - 1))).packetLength = pl
    rw [hfirst, hdesc]
    rfl

theorem buildRxDescriptors_holds {l : RxDescList} {b : Nat} (h : l.Holds b) :
    (halEthBuildRxDescriptors l).Rest (b + 1) ∧
      (halEthBuildRxDescriptors l).rxDesc = Function.update l.rxDesc (b % ETH_RX_DESC_CNT)
        (.dma (b % ETH_RX_DESC_CNT) true) := by
  have hne : l.appDescNbr ≠ 0 := by
    rw [h.one]
    exact Nat.one_ne_zero
  rw [halEthBuildRxDescriptors, if_neg hne]
  refine ⟨⟨h.cur, rfl, rfl⟩, ?_⟩
  simp only [h.context, h.one, h.first]
  rfl

/-! ## The ring -/

/-- Of the frames received, the driver has given back the descriptors of the
first `built`. The others are in theirs, and the rest is the DMA's. -/
structure Filled (rxDesc : Nat → Desc) (received : List (List UInt8)) (built : Nat) : Prop where
  most : built ≤ received.length
  room : received.length ≤ built + ETH_RX_DESC_CNT
  full : ∀ k bytes, built ≤ k → received[k]? = some bytes →
    rxDesc (k % ETH_RX_DESC_CNT) = .app true true false bytes.length
  free : ∀ k, received.length ≤ k → k < built + ETH_RX_DESC_CNT →
    rxDesc (k % ETH_RX_DESC_CNT) = .dma (k % ETH_RX_DESC_CNT) true

namespace Filled

variable {rxDesc : Nat → Desc} {received : List (List UInt8)} {built : Nat}

theorem empty : Filled (fun i => .dma i true) [] 0 where
  most := Nat.le_refl 0
  room := Nat.zero_le _
  full k bytes _ h := by cases h
  free k _ _ := rfl

/-- The descriptor that the DMA comes to. -/
theorem next (h : Filled rxDesc received built) :
    (received.length < built + ETH_RX_DESC_CNT ∧ rxDesc (received.length % ETH_RX_DESC_CNT)
      = .dma (received.length % ETH_RX_DESC_CNT) true) ∨
    ∃ pl, rxDesc (received.length % ETH_RX_DESC_CNT) = .app true true false pl := by
  rcases Nat.lt_or_eq_of_le h.room with hlt | hfull
  · exact Or.inl ⟨hlt, h.free _ (Nat.le_refl _) hlt⟩
  · have hlt : built < received.length := by
      rw [hfull]
      exact Nat.lt_add_of_pos_right desc_pos
    have hdesc := h.full built _ (Nat.le_refl _) (List.getElem?_eq_getElem hlt)
    rw [hfull, Nat.add_mod_right]
    exact Or.inr ⟨_, hdesc⟩

/-- Behind a frame there is no context descriptor. -/
theorem context (h : Filled rxDesc received built) :
    (rxDesc ((built + 1) % ETH_RX_DESC_CNT)).context = false := by
  rcases Nat.lt_or_ge (built + 1) received.length with hnext | hnext
  · rw [h.full (built + 1) _ (Nat.le_succ _) (List.getElem?_eq_getElem hnext)]
    rfl
  · rw [h.free (built + 1) hnext (Nat.add_lt_add_left (by decide) _)]
    rfl

theorem receive (h : Filled rxDesc received built)
    (hroom : received.length < built + ETH_RX_DESC_CNT) (bytes : List UInt8) :
    Filled (Function.update rxDesc (received.length % ETH_RX_DESC_CNT)
      (.app true true false bytes.length)) (received ++ [bytes]) built := by
  have hlen : (received ++ [bytes]).length = received.length + 1 := List.length_append
  have hmost := h.most
  have hother (k : Nat) (hne : k ≠ received.length)
      (hnear : k < received.length + ETH_RX_DESC_CNT ∧ received.length < k + ETH_RX_DESC_CNT) :
      k % ETH_RX_DESC_CNT ≠ received.length % ETH_RX_DESC_CNT :=
    fun hslot => hne (Ring.slot_inj hslot hnear.1 hnear.2)
  refine ⟨by omega, by omega, fun k frame hk hframe => ?_, fun k hk hlt => ?_⟩
  · rcases Ring.getElem?_concat_cases hframe with ⟨hlt, hframe⟩ | ⟨rfl, rfl⟩
    · rw [Function.update_of_ne (hother k (by omega) (by omega))]
      exact h.full k frame hk hframe
    · exact Function.update_self ..
  · rw [Function.update_of_ne (hother k (by omega) (by omega))]
    exact h.free k (by omega) hlt

theorem giveBack (h : Filled rxDesc received built) (hlt : built < received.length) :
    Filled (Function.update rxDesc (built % ETH_RX_DESC_CNT) (.dma (built % ETH_RX_DESC_CNT) true))
      received (built + 1) := by
  have hroom := h.room
  have hother (k : Nat) (hne : k ≠ built)
      (hnear : k < built + ETH_RX_DESC_CNT ∧ built < k + ETH_RX_DESC_CNT) :
      k % ETH_RX_DESC_CNT ≠ built % ETH_RX_DESC_CNT :=
    fun hslot => hne (Ring.slot_inj hslot hnear.1 hnear.2)
  refine ⟨hlt, by omega, fun k frame hk hframe => ?_, fun k hk hless => ?_⟩
  · have hin := (List.getElem?_eq_some_iff.mp hframe).1
    rw [Function.update_of_ne (hother k (by omega) (by omega))]
    exact h.full k frame (by omega) hframe
  · by_cases hlast : k = built + ETH_RX_DESC_CNT
    · rw [hlast, Nat.add_mod_right]
      exact Function.update_self ..
    · rw [Function.update_of_ne (hother k (by omega) (by omega))]
      exact h.free k hk (by omega)

end Filled

/-! ## The invariant -/

/-- A pbuf for a frame that has been received. -/
structure Pbuf.Sound (received : List (List UInt8)) (p : Pbuf) : Prop where
  buffer : p.buffer = p.number % ETH_RX_DESC_CNT
  len : (received[p.number]?).map List.length = some p.len

theorem Pbuf.Sound.more {received : List (List UInt8)} {p : Pbuf} (h : p.Sound received)
    (bytes : List UInt8) : p.Sound (received ++ [bytes]) where
  buffer := h.buffer
  len := by
    obtain ⟨frame, hframe, hlen⟩ := Option.map_eq_some_iff.mp h.len
    rw [List.getElem?_append_left (List.getElem?_eq_some_iff.mp hframe).1, hframe, Option.map_some,
      hlen]

/-- What the thread has in hand, with so many frames handled. -/
def InputPc.Sound (l : RxDescList) (received : List (List UInt8)) (handled : Nat) : InputPc → Prop
  | acquire => l.Rest handled
  | look => l.Rest handled
  | build buffer framelength =>
      l.Holds handled ∧ Pbuf.Sound received ⟨buffer, framelength, handled⟩
  | alloc buffer framelength =>
      l.Rest (handled + 1) ∧ Pbuf.Sound received ⟨buffer, framelength, handled⟩
  | input p => l.Rest (handled + 1) ∧ p.number = handled ∧ p.Sound received

theorem InputPc.Sound.more {l : RxDescList} {received : List (List UInt8)} {handled : Nat}
    {pc : InputPc} (h : pc.Sound l received handled) (rxDesc : Nat → Desc) (bytes : List UInt8) :
    pc.Sound { l with rxDesc := rxDesc } (received ++ [bytes]) handled := by
  cases pc with
  | acquire => exact ⟨h.cur, h.none, h.context⟩
  | look => exact ⟨h.cur, h.none, h.context⟩
  | build buffer framelength =>
      exact ⟨⟨h.1.cur, h.1.first, h.1.one, h.1.context⟩, h.2.more bytes⟩
  | alloc buffer framelength => exact ⟨⟨h.1.cur, h.1.none, h.1.context⟩, h.2.more bytes⟩
  | input p => exact ⟨⟨h.1.cur, h.1.none, h.1.context⟩, h.2.1, h.2.2.more bytes⟩

/-- The frame in hand whose descriptor is the DMA's again. -/
def InputPc.ahead : InputPc → Nat
  | alloc _ _ => 1
  | input _ => 1
  | _ => 0

structure Inv (s : Ethernetif) : Prop where
  filled : Filled s.list.rxDesc s.received (s.handled.length + s.pc.ahead)
  dma : s.dma = s.received.length % ETH_RX_DESC_CNT
  latest : Ring.Latest ETH_RX_DESC_CNT s.rxBuff s.received
  fits : ∀ bytes ∈ s.received, bytes.length ≤ ETH_RX_BUFFER_SIZE
  hand : s.pc.Sound s.list s.received s.handled.length
  handled : s.handled.map Fate.number = List.range s.handled.length
  passed : ∀ p, .passed p ∈ s.handled → p.Sound s.received
  stack : ∀ p ∈ s.stack, .passed p ∈ s.handled
  pool : s.inUse ≤ RX_POOL_SIZE
  irq : s.irq = true → s.semaphore = true
  /-- the thread is not asleep over a frame, or about to be woken -/
  wake : s.pc = .acquire → s.handled.length < s.received.length →
    s.semaphore = true ∨ (s.ri = true ∧ s.irq = false) ∨ s.starved = true
  starved : s.starved = true → s.pc = .acquire ∧ ∃ k, s.handled.getLast? = some (.noPbuf k)

/-- The frame fits in one buffer. -/
def Ethernetif.Act.Whole : Ethernetif.Act → Prop
  | .receive _ fd ld => fd = true ∧ ld = true
  | _ => True

namespace Inv

theorem init : Inv .init where
  filled := Filled.empty
  dma := rfl
  latest := Ring.latest_nil _ _
  fits bytes h := by cases h
  hand := ⟨rfl, rfl, rfl⟩
  handled := rfl
  passed p h := by cases h
  stack p h := by cases h
  pool := Nat.zero_le _
  irq h := by cases h
  wake _ h := absurd h (Nat.lt_irrefl 0)
  starved h := by cases h

/-! ## The DMA and the interrupt -/

theorem receive {s s' : Ethernetif} {bytes : List UInt8} (h : Inv s)
    (hreceive : s.receive bytes true true = some s') : Inv s' := by
  rcases h.filled.next with ⟨hroom, hdesc⟩ | ⟨pl, hdesc⟩
  · rw [Ethernetif.receive, h.dma, hdesc] at hreceive
    simp only at hreceive
    split at hreceive
    case isFalse => cases hreceive
    case isTrue hfit =>
        cases hreceive
        exact {
          filled := h.filled.receive hroom bytes
          dma := by
            rw [List.length_append]
            exact incr_slot _
          latest := h.latest.push bytes
          fits := fun frame hframe => by
            rcases List.mem_append.mp hframe with hframe | hframe
            · exact h.fits frame hframe
            · rw [List.mem_singleton.mp hframe]
              exact hfit
          hand := h.hand.more _ bytes
          handled := h.handled
          passed := fun p hp => (h.passed p hp).more bytes
          stack := h.stack
          pool := h.pool
          irq := h.irq
          wake := fun _ _ => by
            by_cases hirq : s.irq = true
            · exact Or.inl (h.irq hirq)
            · exact Or.inr (Or.inl ⟨Bool.or_true _, Bool.eq_false_iff.mpr hirq⟩)
          starved := h.starved }
  · rw [Ethernetif.receive, h.dma, hdesc] at hreceive
    cases hreceive

theorem enterIrq {s s' : Ethernetif} (h : Inv s) (henter : s.enterIrq = some s') : Inv s' := by
  rw [Ethernetif.enterIrq] at henter
  split at henter
  case isFalse => cases henter
  case isTrue =>
      cases henter
      exact { h with irq := fun _ => rfl, wake := fun _ _ => Or.inl rfl }

/-- The interrupt is cleared, with frames that have come since; but the
semaphore has been released, and the thread has not taken it. -/
theorem leaveIrq {s s' : Ethernetif} (h : Inv s) (hleave : s.leaveIrq = some s') : Inv s' := by
  rw [Ethernetif.leaveIrq] at hleave
  split at hleave
  case isFalse => cases hleave
  case isTrue hirq =>
      cases hleave
      exact { h with
        irq := fun hfalse => (by cases hfalse)
        wake := fun _ _ => Or.inl (h.irq hirq) }

/-! ## The thread -/

theorem standing {s : Ethernetif} {pc : InputPc} (h : Inv s) (hpc : s.pc = pc) :
    Filled s.list.rxDesc s.received (s.handled.length + pc.ahead) ∧
      pc.Sound s.list s.received s.handled.length ∧ s.stack.length + pc.pbufs ≤ RX_POOL_SIZE := by
  obtain rfl := hpc
  exact ⟨h.filled, h.hand, h.pool⟩

/-- Only asleep. -/
theorem awake {s : Ethernetif} {P : Prop} (h : Inv s) (hpc : s.pc ≠ .acquire)
    (hstarved : s.starved = true) : P :=
  absurd (h.starved hstarved).1 hpc

theorem acquire {s : Ethernetif} (h : Inv s) (hpc : s.pc = .acquire) (hirq : s.irq = false) :
    Inv { s with semaphore := false, pc := .look, starved := false } := by
  obtain ⟨hfilled, hhand, hpool⟩ := h.standing hpc
  exact { h with
    filled := hfilled
    hand := hhand
    pool := hpool
    irq := fun htrue => by
      rw [hirq] at htrue
      cases htrue
    wake := fun hacquire => by cases hacquire
    starved := fun hfalse => by cases hfalse }

/-- The thread looks for a frame, and finds the next one, if it is there. -/
theorem look {s : Ethernetif} (h : Inv s) (hpc : s.pc = .look) :
    (s.received.length ≤ s.handled.length ∧ halEthGetRxDataBuffer s.list = (none, s.list)) ∨
    ∃ (buffer len : Nat) (list : RxDescList),
      halEthGetRxDataBuffer s.list = (some [(buffer, len)], list) ∧
      Inv { s with list := list, pc := .build buffer (halEthGetRxDataLength list) } := by
  obtain ⟨hfilled, hhand, hpool⟩ := h.standing hpc
  rcases Nat.lt_or_ge s.handled.length s.received.length with hlt | hge
  · have hframe := List.getElem?_eq_getElem hlt
    obtain ⟨list, hget, hholds, hsame, hlength⟩ := getRxDataBuffer_some hhand
      (hfilled.full _ _ (Nat.le_refl _) hframe) hfilled.context
      (h.fits _ (List.getElem_mem hlt))
    refine Or.inr ⟨_, _, list, hget, ?_⟩
    rw [hlength]
    exact { h with
      filled := by
        rw [show list.rxDesc = s.list.rxDesc from hsame]
        exact hfilled
      hand := ⟨hholds, rfl, by rw [hframe]; rfl⟩
      pool := hpool
      wake := fun hacquire => by cases hacquire
      starved := h.awake (by rw [hpc]; rintro ⟨⟩) }
  · refine Or.inl ⟨hge, getRxDataBuffer_none hhand (hfilled.free _ hge ?_)⟩
    exact Nat.lt_add_of_pos_right desc_pos

/-- There is none: the thread goes to sleep. -/
theorem sleep {s : Ethernetif} (h : Inv s) (hpc : s.pc = .look)
    (hnone : s.received.length ≤ s.handled.length) : Inv { s with pc := .acquire } := by
  obtain ⟨hfilled, hhand, hpool⟩ := h.standing hpc
  exact { h with
    filled := hfilled
    hand := hhand
    pool := hpool
    wake := fun _ hlt => absurd hlt (Nat.not_lt.mpr hnone)
    starved := h.awake (by rw [hpc]; rintro ⟨⟩) }

theorem build {s : Ethernetif} {buffer framelength : Nat} (h : Inv s)
    (hpc : s.pc = .build buffer framelength) :
    Inv { s with list := halEthBuildRxDescriptors s.list, pc := .alloc buffer framelength } := by
  obtain ⟨hfilled, hhand, hpool⟩ := h.standing hpc
  obtain ⟨hrest, hdesc⟩ := buildRxDescriptors_holds hhand.1
  obtain ⟨frame, hframe, -⟩ := Option.map_eq_some_iff.mp hhand.2.len
  exact { h with
    filled := by
      rw [show (halEthBuildRxDescriptors s.list).rxDesc = _ from hdesc]
      exact hfilled.giveBack (List.getElem?_eq_some_iff.mp hframe).1
    hand := ⟨hrest, hhand.2⟩
    pool := hpool
    wake := fun hacquire => by cases hacquire
    starved := h.awake (by rw [hpc]; rintro ⟨⟩) }

/-- One more frame has been handled. -/
theorem number_concat {handled : List Fate} {f : Fate}
    (h : handled.map Fate.number = List.range handled.length) (hf : f.number = handled.length) :
    (handled ++ [f]).map Fate.number = List.range (handled ++ [f]).length := by
  rw [List.map_append, h, List.map_singleton, hf, List.length_append, List.length_singleton,
    List.range_succ]

/-- There is no pbuf for the frame. -/
theorem noPbuf {s : Ethernetif} {buffer framelength : Nat} (h : Inv s)
    (hpc : s.pc = .alloc buffer framelength) :
    Inv { s with
      pc := .acquire, starved := true, handled := s.handled ++ [.noPbuf s.handled.length] } := by
  obtain ⟨hfilled, hhand, hpool⟩ := h.standing hpc
  have hlen : (s.handled ++ [Fate.noPbuf s.handled.length]).length = s.handled.length + 1 :=
    List.length_append
  exact { h with
    filled := by
      rw [hlen]
      exact hfilled
    hand := by
      rw [hlen]
      exact hhand.1
    handled := number_concat h.handled rfl
    passed := fun p hp => by
      rcases List.mem_append.mp hp with hp | hp
      · exact h.passed p hp
      · cases List.mem_singleton.mp hp
    stack := fun p hp => List.mem_append_left _ (h.stack p hp)
    pool := hpool
    wake := fun _ _ => Or.inr (Or.inr rfl)
    starved := fun _ => ⟨rfl, _, List.getLast?_concat⟩ }

theorem alloc {s : Ethernetif} {buffer framelength : Nat} (h : Inv s)
    (hpc : s.pc = .alloc buffer framelength) (hfree : s.inUse < RX_POOL_SIZE) :
    Inv { s with pc := .input ⟨buffer, framelength, s.handled.length⟩ } := by
  obtain ⟨hfilled, hhand, -⟩ := h.standing hpc
  rw [Ethernetif.inUse, hpc] at hfree
  exact { h with
    filled := hfilled
    hand := ⟨hhand.1, rfl, hhand.2⟩
    pool := hfree
    wake := fun hacquire => by cases hacquire
    starved := h.awake (by rw [hpc]; rintro ⟨⟩) }

/-- The frame has been offered to the stack. -/
theorem offered {s : Ethernetif} {p : Pbuf} {f : Fate} {stack : List Pbuf} (h : Inv s)
    (hpc : s.pc = .input p) (hf : f.number = p.number)
    (hpassed : ∀ q, f = .passed q → q = p) (hstack : ∀ q ∈ stack, q ∈ s.stack ∨ f = .passed q)
    (hpool : stack.length ≤ RX_POOL_SIZE) :
    Inv { s with pc := .look, stack := stack, handled := s.handled ++ [f] } := by
  obtain ⟨hfilled, ⟨hrest, hnumber, hsound⟩, -⟩ := h.standing hpc
  have hlen : (s.handled ++ [f]).length = s.handled.length + 1 := List.length_append
  exact { h with
    filled := by
      rw [hlen]
      exact hfilled
    hand := by
      rw [hlen]
      exact hrest
    handled := number_concat h.handled (hf.trans hnumber)
    passed := fun q hq => by
      rcases List.mem_append.mp hq with hq | hq
      · exact h.passed q hq
      · rw [hpassed q (List.mem_singleton.mp hq).symm]
        exact hsound
    stack := fun q hq => by
      rcases hstack q hq with hq | hq
      · exact List.mem_append_left _ (h.stack q hq)
      · rw [hq]
        exact List.mem_append_right _ List.mem_cons_self
    pool := hpool
    wake := fun hacquire => by cases hacquire
    starved := h.awake (by rw [hpc]; rintro ⟨⟩) }

theorem goOn {s s' : Ethernetif} {accepts : Bool} (h : Inv s) (hirq : s.irq = false)
    (hgo : s.goOn accepts = some s') : Inv s' := by
  rw [Ethernetif.goOn] at hgo
  split at hgo
  case h_1 hpc =>
      split at hgo
      · cases hgo
        exact h.acquire hpc hirq
      · cases hgo
  case h_2 hpc =>
      rcases h.look hpc with ⟨hnone, hget⟩ | ⟨buffer, len, list, hget, hnext⟩
      · rw [hget] at hgo
        cases hgo
        exact h.sleep hpc hnone
      · rw [hget] at hgo
        cases hgo
        exact hnext
  case h_3 buffer framelength hpc =>
      cases hgo
      exact h.build hpc
  case h_4 buffer framelength hpc =>
      split at hgo
      case isTrue hfree =>
          cases hgo
          exact h.alloc hpc hfree
      case isFalse =>
          cases hgo
          exact h.noPbuf hpc
  case h_5 p hpc =>
      obtain ⟨-, -, hpool⟩ := h.standing hpc
      split at hgo
      · cases hgo
        refine h.offered hpc rfl (fun q hq => ?_) (fun q hq => ?_) ?_
        · cases hq
          rfl
        · rcases List.mem_append.mp hq with hq | hq
          · exact Or.inl hq
          · rw [List.mem_singleton.mp hq]
            exact Or.inr rfl
        · rw [List.length_append]
          exact hpool
      · cases hgo
        refine h.offered hpc rfl (fun q hq => by cases hq) (fun q hq => Or.inl hq) ?_
        exact Nat.le_of_succ_le hpool

theorem free {s s' : Ethernetif} {i : Nat} (h : Inv s) (hfree : s.free i = some s') : Inv s' := by
  rw [Ethernetif.free] at hfree
  split at hfree
  case isFalse => cases hfree
  case isTrue =>
      cases hfree
      have hless : (s.stack.eraseIdx i).length ≤ s.stack.length :=
        (List.eraseIdx_sublist ..).length_le
      exact { h with
        stack := fun p hp => h.stack p (List.mem_of_mem_eraseIdx hp)
        pool := Nat.le_trans (Nat.add_le_add_right hless _) h.pool }

/-- **Every step keeps the invariant.** -/
theorem step {s s' : Ethernetif} {a : Ethernetif.Act} (h : Inv s) (hwhole : a.Whole)
    (hstep : s.step a = some s') : Inv s' := by
  cases a with
  | receive bytes fd ld =>
      obtain ⟨rfl, rfl⟩ := hwhole
      exact h.receive hstep
  | enterIrq => exact h.enterIrq hstep
  | leaveIrq => exact h.leaveIrq hstep
  | goOn accepts =>
      rw [Ethernetif.step] at hstep
      split at hstep
      case isTrue => cases hstep
      case isFalse hirq => exact h.goOn (Bool.eq_false_iff.mpr hirq) hstep
  | free i =>
      rw [Ethernetif.step] at hstep
      split at hstep
      case isTrue => cases hstep
      case isFalse => exact h.free hstep

theorem run {acts : List Ethernetif.Act} {s : Ethernetif} (hwhole : ∀ a ∈ acts, a.Whole)
    (hrun : Machine.run Ethernetif.step .init acts = some s) : Inv s :=
  Machine.run_invariant Inv (fun _ _ _ hok h hstep => h.step hok hstep) init
    (Machine.along_of_forall (fun _ => hwhole) _) hrun

end Inv

/-! ## Frames -/

/-- The thread has found nothing; a frame comes, and another one while the
handler runs. -/
def twoFrames : List Ethernetif.Act :=
  [.goOn true, .goOn true, .receive [1, 2] true true, .enterIrq, .receive [3] true true, .leaveIrq]

theorem twoFrames_whole : ∀ a ∈ twoFrames, a.Whole := by
  simp [twoFrames, Ethernetif.Act.Whole]

/-- **Nobody sleeps over a frame.** In every run, when the thread is at the
semaphore and there is a frame, it is about to be woken: the semaphore is
free, or the interrupt is to come. The exception is want of a pbuf, for which
the frame before has been thrown away. -/
theorem eth_wakes {acts : List Ethernetif.Act} {s : Ethernetif} (hwhole : ∀ a ∈ acts, a.Whole)
    (hrun : Machine.run Ethernetif.step .init acts = some s) (hpc : s.pc = .acquire)
    (hframe : s.handled.length < s.received.length) :
    s.semaphore = true ∨ (s.ri = true ∧ s.irq = false) ∨
      ∃ k, s.handled.getLast? = some (.noPbuf k) := by
  have h := Inv.run hwhole hrun
  rcases h.wake hpc hframe with hsemaphore | hri | hstarved
  · exact Or.inl hsemaphore
  · exact Or.inr (Or.inl hri)
  · exact Or.inr (Or.inr (h.starved hstarved).2)

theorem eth_wakes_twoFrames : ∃ s, Machine.run Ethernetif.step .init twoFrames = some s ∧
    s.received.length = 2 ∧ (s.semaphore = true ∨ (s.ri = true ∧ s.irq = false) ∨
      ∃ k, s.handled.getLast? = some (.noPbuf k)) := by
  refine ⟨_, rfl, rfl, ?_⟩
  have hrun : Machine.run Ethernetif.step .init twoFrames = some _ := rfl
  exact eth_wakes twoFrames_whole hrun rfl (by decide)

/-- **Every frame is handled once, in order.** In every run: the frames that
the thread has handled are the first of those received; all but five of these
at the most have been; and a pbuf that it has passed to the stack is as long
as its frame. -/
theorem eth_in_order {acts : List Ethernetif.Act} {s : Ethernetif} (hwhole : ∀ a ∈ acts, a.Whole)
    (hrun : Machine.run Ethernetif.step .init acts = some s) :
    s.handled.map Fate.number = List.range s.handled.length ∧
      s.handled.length ≤ s.received.length ∧
      s.received.length ≤ s.handled.length + ETH_RX_DESC_CNT + 1 ∧
      ∀ p, .passed p ∈ s.handled → (s.received[p.number]?).map List.length = some p.len := by
  have h := Inv.run hwhole hrun
  have hmost := h.filled.most
  have hroom := h.filled.room
  have hahead : s.pc.ahead ≤ 1 := by
    cases s.pc with
    | alloc buffer framelength => exact Nat.le_refl 1
    | input p => exact Nat.le_refl 1
    | acquire => exact Nat.zero_le 1
    | look => exact Nat.zero_le 1
    | build buffer framelength => exact Nat.zero_le 1
  exact ⟨h.handled, by omega, by omega, fun p hp => (h.passed p hp).len⟩

theorem eth_in_order_twoFrames : ∃ s, Machine.run Ethernetif.step .init twoFrames = some s ∧
    s.handled.map Fate.number = List.range s.handled.length ∧
      s.handled.length ≤ s.received.length ∧
      s.received.length ≤ s.handled.length + ETH_RX_DESC_CNT + 1 ∧
      ∀ p, .passed p ∈ s.handled → (s.received[p.number]?).map List.length = some p.len := by
  refine ⟨_, rfl, ?_⟩
  have hrun : Machine.run Ethernetif.step .init twoFrames = some _ := rfl
  exact eth_in_order twoFrames_whole hrun

end NucleoMqtt.Eth
