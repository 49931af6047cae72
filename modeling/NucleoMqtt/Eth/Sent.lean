import NucleoMqtt.Eth.Transmit

/-!
# Eth — what has been sent

The driver sends every frame whole, in order, as long as no transmission
fails: of each chain, one or two descriptors, which are the DMA's until the
frame is out. After a failure it sends nothing more, and `low_level_output`
does not say so. `At` says which descriptors the DMA still has.
-/

namespace NucleoMqtt.Eth

open NucleoMqtt.Lib

theorem txDesc_pos : 0 < ETH_TX_DESC_CNT := by decide

theorem incr_txSlot (k : Nat) :
    incrTxDescIndex (k % ETH_TX_DESC_CNT) 1 = (k + 1) % ETH_TX_DESC_CNT :=
  Ring.next_slot txDesc_pos k

/-! ## Descriptors -/

def TxDesc.bytes (d : TxDesc) : List UInt8 := d.buffer1 ++ d.buffer2

/-- Descriptors of a packet that are still the DMA's: the last of them is the
last of the packet. -/
inductive Shape : List TxDesc → Prop where
  | none : Shape []
  | one (d : TxDesc) : d.own = true → d.ld = true → Shape [d]
  | two (d e : TxDesc) : d.own = true → d.ld = false → e.own = true → e.ld = true → Shape [d, e]

/-- The packets in these descriptors. -/
def packets : List TxDesc → Nat
  | [] => 0
  | _ => 1

/-- With what the DMA has got of it already, they make up this frame. -/
inductive Carries : Option (List UInt8) → List TxDesc → List UInt8 → Prop where
  | first (part : Option (List UInt8)) (d : TxDesc) (ds : List TxDesc) : d.fd = true →
      (∀ e ∈ ds, e.fd = false) → Carries part (d :: ds) ((d :: ds).flatMap TxDesc.bytes)
  | last (p : List UInt8) (e : TxDesc) : e.fd = false → Carries (some p) [e] (p ++ e.bytes)

/-- What the DMA has got of the frame with one descriptor more. -/
def TxDesc.onto (d : TxDesc) (part : Option (List UInt8)) : Option (List UInt8) :=
  (if d.fd then some [] else part).map fun p => p ++ d.bytes

theorem Carries.onto_last {part : Option (List UInt8)} {d : TxDesc} {f : List UInt8}
    (h : Carries part [d] f) : d.onto part = some f := by
  cases h with
  | first _ _ _ hfd _ =>
      rw [TxDesc.onto, if_pos hfd, List.flatMap_singleton]
      rfl
  | last p _ hfd =>
      rw [TxDesc.onto, hfd]
      rfl

theorem Carries.onto_first {part : Option (List UInt8)} {d e : TxDesc} {f : List UInt8}
    (h : Carries part [d, e] f) : Carries (d.onto part) [e] f := by
  cases h with
  | first _ _ _ hfd hrest =>
      rw [TxDesc.onto, if_pos hfd, List.flatMap_cons, List.flatMap_singleton]
      exact .last d.bytes e (hrest e List.mem_cons_self)

/-- The ring holds these from slot `k` on, and is free otherwise. -/
structure Window (txDesc : Nat → TxDesc) (k : Nat) (ds : List TxDesc) : Prop where
  held : ∀ j d, ds[j]? = some d → txDesc ((k + j) % ETH_TX_DESC_CNT) = d
  free : ∀ j, ds.length ≤ j → j < ETH_TX_DESC_CNT →
    (txDesc ((k + j) % ETH_TX_DESC_CNT)).own = false

/-- Slots of one round differ. -/
theorem slot_ne (k : Nat) {i j : Nat} (hi : i < ETH_TX_DESC_CNT) (hj : j < ETH_TX_DESC_CNT)
    (hne : i ≠ j) : (k + i) % ETH_TX_DESC_CNT ≠ (k + j) % ETH_TX_DESC_CNT := fun hslot =>
  hne (Nat.add_left_cancel (Ring.slot_inj hslot (by omega) (by omega)))

/-- The first descriptor is given back. -/
theorem Window.fetch {txDesc : Nat → TxDesc} {k : Nat} {d : TxDesc} {ds : List TxDesc}
    (h : Window txDesc k (d :: ds)) (hfew : ds.length < ETH_TX_DESC_CNT) :
    Window (change txDesc (k % ETH_TX_DESC_CNT) fun d => { d with own := false }) (k + 1) ds := by
  have hother (j : Nat) (hj : j + 1 < ETH_TX_DESC_CNT) :
      (k + 1 + j) % ETH_TX_DESC_CNT ≠ k % ETH_TX_DESC_CNT := by
    have hne := slot_ne k hj txDesc_pos (Nat.succ_ne_zero j)
    rwa [Nat.add_zero, Nat.add_comm j 1, ← Nat.add_assoc] at hne
  refine ⟨fun j e he => ?_, fun j hj hlt => ?_⟩
  · have hin := (List.getElem?_eq_some_iff.mp he).1
    rw [change, Function.update_of_ne (hother j (by omega)), Nat.add_assoc, Nat.add_comm 1 j]
    exact h.held (j + 1) e he
  · by_cases hround : j + 1 = ETH_TX_DESC_CNT
    · rw [Nat.add_assoc, Nat.add_comm 1 j, hround, Nat.add_mod_right, change, Function.update_self]
    · rw [change, Function.update_of_ne (hother j (by omega)), Nat.add_assoc, Nat.add_comm 1 j]
      exact h.free (j + 1) (Nat.succ_le_succ hj) (by omega)

/-- One more descriptor is filled. -/
theorem Window.fill {txDesc : Nat → TxDesc} {k : Nat} {ds : List TxDesc} (h : Window txDesc k ds)
    (hroom : ds.length < ETH_TX_DESC_CNT) (d : TxDesc) :
    Window (Function.update txDesc ((k + ds.length) % ETH_TX_DESC_CNT) d) k (ds ++ [d]) := by
  refine ⟨fun j e he => ?_, fun j hj hlt => ?_⟩
  · rcases Ring.getElem?_concat_cases he with ⟨hin, he⟩ | ⟨rfl, rfl⟩
    · rw [Function.update_of_ne (slot_ne k (by omega) hroom (by omega))]
      exact h.held j e he
    · exact Function.update_self ..
  · rw [List.length_append, List.length_singleton] at hj
    rw [Function.update_of_ne (slot_ne k hlt hroom (by omega))]
    exact h.free j (by omega) hlt

/-- The last descriptor that has been filled is changed. -/
theorem Window.change {txDesc : Nat → TxDesc} {k : Nat} {ds : List TxDesc} {d : TxDesc}
    (h : Window txDesc k (ds ++ [d])) (hroom : ds.length < ETH_TX_DESC_CNT) (f : TxDesc → TxDesc) :
    Window (change txDesc ((k + ds.length) % ETH_TX_DESC_CNT) f) k (ds ++ [f d]) := by
  have hlast : txDesc ((k + ds.length) % ETH_TX_DESC_CNT) = d :=
    h.held _ _ List.getElem?_concat_length
  refine ⟨fun j e he => ?_, fun j hj hlt => ?_⟩
  · rcases Ring.getElem?_concat_cases he with ⟨hin, he⟩ | ⟨rfl, rfl⟩
    · rw [Eth.change, Function.update_of_ne (slot_ne k (by omega) hroom (by omega))]
      exact h.held j e (by rw [List.getElem?_append_left hin, he])
    · rw [Eth.change, Function.update_self, hlast]
  · rw [List.length_append, List.length_singleton] at hj
    rw [Eth.change, Function.update_of_ne (slot_ne k hlt hroom (by omega))]
    exact h.free j (by rw [List.length_append, List.length_singleton]; exact hj) hlt

/-! ## The driver -/

theorem change_change (txDesc : Nat → TxDesc) (idx : Nat) (f g : TxDesc → TxDesc) :
    change (change txDesc idx f) idx g = change txDesc idx (g ∘ f) := by
  rw [change, change, Function.update_idem, Function.update_self]
  rfl

/-- A turn of the loop, with a descriptor free. -/
theorem prepareRest_turn {rest more : List (List UInt8)} {b b' : List UInt8}
    {txDesc : Nat → TxDesc} {k : Nat} {d : TxDesc} (first descnbr : Nat) (h : Window txDesc k [d])
    (hrest : (rest = [b] ∧ b' = [] ∧ more = []) ∨ rest = b :: b' :: more) :
    ∃ (txDesc' : Nat → TxDesc) (e : TxDesc),
      prepareRest first rest txDesc (k % ETH_TX_DESC_CNT) descnbr
        = prepareRest first more txDesc' ((k + 1) % ETH_TX_DESC_CNT) (descnbr + 1) ∧
      Window txDesc' k [{ d with ld := false }, e] ∧ e.own = true ∧ e.fd = false ∧
      e.bytes = b ++ b' := by
  have hwindow : Window txDesc k ([] ++ [d]) := h
  have hd : Window (change txDesc (k % ETH_TX_DESC_CNT) fun d => { d with ld := false }) k
      [{ d with ld := false }] := hwindow.change txDesc_pos _
  obtain ⟨t, ht⟩ : ∃ t, t = change txDesc (k % ETH_TX_DESC_CNT) fun d => { d with ld := false } :=
    ⟨_, rfl⟩
  rw [← ht] at hd
  have hfree : (change t ((k + 1) % ETH_TX_DESC_CNT) (fun d => { d with fd := false })
      ((k + 1) % ETH_TX_DESC_CNT)).own = false := by
    rw [change, Function.update_self]
    exact hd.free 1 (Nat.le_refl 1) (by decide)
  refine ⟨_, { t ((k + 1) % ETH_TX_DESC_CNT) with
    own := true, fd := false, buffer1 := b, buffer2 := b' }, ?_,
    hd.fill (show 1 < ETH_TX_DESC_CNT by decide) _, rfl, rfl, rfl⟩
  rcases hrest with ⟨rfl, rfl, rfl⟩ | rfl
  · rw [prepareRest.eq_2]
    simp only [incr_txSlot, ← ht, hfree, change_change]
    rfl
  · rw [prepareRest.eq_3]
    simp only [incr_txSlot, ← ht, hfree, change_change]
    rfl

theorem prepareRest_last {txDesc : Nat → TxDesc} {k : Nat} {ds : List TxDesc} {d : TxDesc}
    (first descnbr : Nat) (h : Window txDesc k (ds ++ [d]))
    (hroom : ds.length < ETH_TX_DESC_CNT) :
    ∃ txDesc' : Nat → TxDesc,
      prepareRest first [] txDesc ((k + ds.length) % ETH_TX_DESC_CNT) descnbr
        = (true, txDesc', (k + ds.length) % ETH_TX_DESC_CNT) ∧
      Window txDesc' k (ds ++ [{ d with ld := true }]) :=
  ⟨_, rfl, h.change hroom _⟩

theorem prepare_of_rest {l : TxDescList} {b : List UInt8} {rest : List (List UInt8)}
    {txDesc : Nat → TxDesc} {descidx : Nat} (hfree : (l.txDesc l.curTxDesc).own = false)
    (h : prepareRest l.curTxDesc rest.tail (change l.txDesc l.curTxDesc fun d =>
      { d with own := true, fd := true, buffer1 := b, buffer2 := rest.headD [] }) l.curTxDesc 1
        = (true, txDesc, descidx)) :
    ethPrepareTxDescriptors l b rest
      = (true, { l with txDesc := txDesc, curTxDesc := descidx }) := by
  rw [ethPrepareTxDescriptors, hfree]
  simp only [h]
  rfl

/-- The descriptor of the first two buffers. -/
def headDesc (l : TxDescList) (b : List UInt8) (rest : List (List UInt8)) : TxDesc :=
  { l.txDesc l.curTxDesc with own := true, fd := true, buffer1 := b, buffer2 := rest.headD [] }

theorem change_headDesc (l : TxDescList) (b : List UInt8) (rest : List (List UInt8)) :
    change l.txDesc l.curTxDesc (fun d =>
      { d with own := true, fd := true, buffer1 := b, buffer2 := rest.headD [] })
      = Function.update l.txDesc l.curTxDesc (headDesc l b rest) := rfl

/-- The frame of these buffers is put into descriptors. -/
def Prepares (l : TxDescList) (k : Nat) (b : List UInt8) (rest : List (List UInt8)) : Prop :=
  ∃ (l' : TxDescList) (d : TxDesc) (ds : List TxDesc),
    ethPrepareTxDescriptors l b rest = (true, l') ∧ Window l'.txDesc k (d :: ds) ∧
    l'.curTxDesc = (k + ds.length) % ETH_TX_DESC_CNT ∧ l'.tail = l.tail ∧ Shape (d :: ds) ∧
    ∀ part, Carries part (d :: ds) (b :: rest).flatten

section

variable {l : TxDescList} {k : Nat} {b : List UInt8} {rest : List (List UInt8)}

theorem head_window (h : Window l.txDesc k []) (hcur : l.curTxDesc = k % ETH_TX_DESC_CNT) :
    Window (Function.update l.txDesc l.curTxDesc (headDesc l b rest)) k [headDesc l b rest] := by
  rw [hcur]
  exact h.fill txDesc_pos _

theorem head_free (h : Window l.txDesc k []) (hcur : l.curTxDesc = k % ETH_TX_DESC_CNT) :
    (l.txDesc l.curTxDesc).own = false := by
  rw [hcur]
  exact h.free 0 (Nat.le_refl 0) txDesc_pos

/-- One descriptor is enough. -/
theorem prepare_one (h : Window l.txDesc k []) (hcur : l.curTxDesc = k % ETH_TX_DESC_CNT)
    (hrest : rest.tail = []) (hflat : rest.headD [] = rest.flatten) : Prepares l k b rest := by
  have hwindow : Window (Function.update l.txDesc l.curTxDesc (headDesc l b rest)) k
      ([] ++ [headDesc l b rest]) := head_window h hcur
  obtain ⟨t, hprepare, hwindow⟩ := prepareRest_last l.curTxDesc 1 hwindow txDesc_pos
  refine ⟨_, { headDesc l b rest with ld := true }, [],
    prepare_of_rest (head_free h hcur) ?_, hwindow, rfl, rfl, .one _ rfl rfl, fun part => ?_⟩
  · rw [change_headDesc, hrest, hcur]
    rw [hcur] at hprepare
    exact hprepare
  · have hcarries := Carries.first part { headDesc l b rest with ld := true } [] rfl
      (fun e he => by cases he)
    rw [List.flatMap_singleton] at hcarries
    rw [List.flatten_cons, ← hflat]
    exact hcarries

/-- Two are. -/
theorem prepare_two (h : Window l.txDesc k []) (hcur : l.curTxDesc = k % ETH_TX_DESC_CNT)
    {b₁ b₂ b₃ : List UInt8} (hhead : rest.headD [] = b₁)
    (hrest : (rest.tail = [b₂] ∧ b₃ = []) ∨ rest.tail = [b₂, b₃])
    (hflat : b₁ ++ (b₂ ++ b₃) = rest.flatten) : Prepares l k b rest := by
  have hwindow : Window (Function.update l.txDesc l.curTxDesc (headDesc l b rest)) k
      [headDesc l b rest] := head_window h hcur
  obtain ⟨t₁, e, hturn, hwindow, hown, hfd, hbytes⟩ := prepareRest_turn l.curTxDesc 1 hwindow
    (hrest.imp (fun hp => ⟨hp.1, hp.2, rfl⟩) id)
  have htwo : Window t₁ k ([{ headDesc l b rest with ld := false }] ++ [e]) := hwindow
  obtain ⟨t₂, hlast, hwindow⟩ := prepareRest_last l.curTxDesc 2 htwo
    (show 1 < ETH_TX_DESC_CNT by decide)
  refine ⟨_, { headDesc l b rest with ld := false }, [{ e with ld := true }],
    prepare_of_rest (head_free h hcur) ?_, hwindow, rfl, rfl, .two _ _ rfl rfl hown rfl,
    fun part => ?_⟩
  · rw [change_headDesc]
    rw [hcur] at hturn hlast ⊢
    exact hturn.trans hlast
  · have hcarries := Carries.first part { headDesc l b rest with ld := false }
      [{ e with ld := true }] rfl fun x hx => by rw [List.mem_singleton.mp hx]; exact hfd
    have hframe : b ++ rest.headD [] ++ e.bytes = (b :: rest).flatten := by
      rw [hbytes, hhead, List.flatten_cons, List.append_assoc, hflat]
    rw [List.flatMap_cons, List.flatMap_singleton] at hcarries
    rw [← hframe]
    exact hcarries

/-- **A frame of four buffers at the most is put into descriptors**, when the
DMA has none. -/
theorem prepare_spec (h : Window l.txDesc k []) (hcur : l.curTxDesc = k % ETH_TX_DESC_CNT)
    (hfew : (b :: rest).length ≤ ETH_TX_DESC_CNT) : Prepares l k b rest := by
  match rest, hfew with
  | [], _ => exact prepare_one h hcur rfl rfl
  | [b₁], _ => exact prepare_one h hcur rfl (List.append_nil b₁).symm
  | [b₁, b₂], _ => exact prepare_two h hcur rfl (Or.inl ⟨rfl, rfl⟩) rfl
  | [b₁, b₂, b₃], _ =>
      refine prepare_two h hcur rfl (Or.inr rfl) ?_
      rw [List.flatten_cons, List.flatten_cons, List.flatten_cons, List.flatten_nil,
        List.append_nil]
      rfl
  | _ :: _ :: _ :: _ :: _, hfew => exact absurd hfew (by simp [ETH_TX_DESC_CNT])

end

/-! ## The invariant -/

/-- There are buffers enough for the chain. -/
def fits (chain : List (List UInt8)) : Bool := chain.length ≤ ETH_TX_DESC_CNT

/-- The frames that `low_level_output` has been given. -/
def framesOf (chains : List (List (List UInt8))) : List (List UInt8) :=
  (chains.filter fits).map List.flatten

def answerOf (chain : List (List UInt8)) : Int :=
  if chain.length > ETH_TX_DESC_CNT then ERR_IF else ERR_OK

theorem framesOf_concat (chains : List (List (List UInt8))) {c : List (List UInt8)}
    (h : c.length ≤ ETH_TX_DESC_CNT) :
    framesOf (chains ++ [c]) = framesOf chains ++ [c.flatten] := by
  have hfits : fits c = true := decide_eq_true h
  rw [framesOf, List.filter_append, List.filter_cons_of_pos hfits, List.filter_nil,
    List.map_append]
  rfl

theorem framesOf_long (chains : List (List (List UInt8))) {c : List (List UInt8)}
    (h : c.length > ETH_TX_DESC_CNT) : framesOf (chains ++ [c]) = framesOf chains := by
  have hlong : ¬ fits c = true := by
    rw [fits, decide_eq_true_iff]
    exact Nat.not_le.mpr h
  rw [framesOf, List.filter_append, List.filter_cons_of_neg hlong, List.filter_nil,
    List.append_nil]
  rfl

/-- The call that waits: with the frame on its way, or out. -/
structure Waits (s : Sender) (dmatxdesc : Nat) (k : Nat) (ds : List TxDesc) : Prop where
  last : (dmatxdesc + 1) % ETH_TX_DESC_CNT = (k + ds.length) % ETH_TX_DESC_CNT
  inRing : dmatxdesc < ETH_TX_DESC_CNT
  frame : ∃ earlier f, framesOf s.chains = earlier ++ [f] ∧
    ((ds = [] ∧ s.wire = (earlier ++ [f]).map some) ∨
      (ds ≠ [] ∧ s.wire = earlier.map some ∧ Carries s.part ds f))
  answers : ∃ earlier c, s.chains = earlier ++ [c] ∧ c.length ≤ ETH_TX_DESC_CNT ∧
    s.answers = earlier.map answerOf

/-- The DMA still has these descriptors, from slot `k` on. -/
structure At (s : Sender) (k : Nat) (ds : List TxDesc) : Prop where
  window : Window s.list.txDesc k ds
  dma : s.dma = k % ETH_TX_DESC_CNT
  tail : s.list.tail = (k + ds.length) % ETH_TX_DESC_CNT
  cur : s.list.curTxDesc = s.list.tail
  shape : Shape ds
  sane : ∀ (n : Nat) (f : List UInt8), s.wire[n]? = some (some f) → (framesOf s.chains)[n]? = some f
  most : s.wire.length + packets ds ≤ (framesOf s.chains).length
  waits : ∀ dmatxdesc, s.pc = .wait dmatxdesc → Waits s dmatxdesc k ds
  ready : s.pc = .idle → s.gState = .ready → ds = [] ∧ s.wire = (framesOf s.chains).map some
  answers : s.pc = .idle → s.answers = s.chains.map answerOf

namespace At

theorem init : At .init 0 [] where
  window := ⟨fun j d h => (by cases h), fun j _ _ => rfl⟩
  dma := rfl
  tail := rfl
  cur := rfl
  shape := .none
  sane n f h := by cases h
  most := Nat.le_refl 0
  waits d h := by cases h
  ready _ _ := ⟨rfl, rfl⟩
  answers _ := rfl

/-- The descriptor that a call waits for is the last one. -/
theorem own {s : Sender} {k dmatxdesc : Nat} {ds : List TxDesc} (h : At s k ds)
    (hpc : s.pc = .wait dmatxdesc) : (s.list.txDesc dmatxdesc).own = true ↔ ds ≠ [] := by
  have hwaits := h.waits dmatxdesc hpc
  have hlast := hwaits.last
  have hin := hwaits.inRing
  rw [ETH_TX_DESC_CNT] at hlast hin
  have hshape := h.shape
  have hwindow := h.window
  cases hshape with
  | none =>
      have hslot : dmatxdesc = (k + 3) % ETH_TX_DESC_CNT := by
        rw [ETH_TX_DESC_CNT]
        rw [List.length_nil] at hlast
        omega
      rw [hslot, hwindow.free 3 (by decide) (by decide)]
      exact ⟨fun hfalse => (by cases hfalse), fun hne => absurd rfl hne⟩
  | one d hown hld =>
      have hslot : dmatxdesc = (k + 0) % ETH_TX_DESC_CNT := by
        rw [ETH_TX_DESC_CNT]
        rw [List.length_singleton] at hlast
        omega
      rw [hslot, hwindow.held 0 d rfl]
      exact ⟨fun _ => by rintro ⟨⟩, fun _ => hown⟩
  | two d e hown hld hown' hld' =>
      have hslot : dmatxdesc = (k + 1) % ETH_TX_DESC_CNT := by
        rw [ETH_TX_DESC_CNT]
        simp only [List.length_cons, List.length_nil] at hlast
        omega
      rw [hslot, hwindow.held 1 e rfl]
      exact ⟨fun _ => by rintro ⟨⟩, fun _ => hown'⟩

/-- The call returns, however. -/
theorem answers_wait {s : Sender} {k dmatxdesc : Nat} {ds : List TxDesc} (h : At s k ds)
    (hpc : s.pc = .wait dmatxdesc) : s.answers ++ [ERR_OK] = s.chains.map answerOf := by
  obtain ⟨earlier, c, hchains, hlen, hanswers⟩ := (h.waits dmatxdesc hpc).answers
  rw [hchains, List.map_append, hanswers, List.map_singleton, answerOf,
    if_neg (Nat.not_lt.mpr hlen)]

theorem poll {s s' : Sender} {k : Nat} {ds : List TxDesc} (h : At s k ds)
    (hpoll : s.poll = some s') : At s' k ds := by
  rw [Sender.poll] at hpoll
  split at hpoll
  case h_1 => cases hpoll
  case h_2 dmatxdesc hpc =>
      split at hpoll
      case isTrue => cases hpoll
      case isFalse hown =>
          cases hpoll
          have hnil : ds = [] := Decidable.not_not.mp fun hne => hown ((h.own hpc).mpr hne)
          obtain ⟨earlier, f, hframes, hcase⟩ := (h.waits dmatxdesc hpc).frame
          refine { h with
            waits := fun d hd => (by cases hd), ready := fun _ _ => ⟨hnil, ?_⟩,
            answers := fun _ => h.answers_wait hpc }
          rcases hcase with ⟨-, hwire⟩ | ⟨hne, -⟩
          · show s.wire = (framesOf s.chains).map some
            rw [hwire, hframes]
          · exact absurd hnil hne

theorem giveUp {s s' : Sender} {k : Nat} {ds : List TxDesc} (h : At s k ds)
    (hgive : s.giveUp = some s') : At s' k ds := by
  rw [Sender.giveUp] at hgive
  split at hgive
  case h_1 => cases hgive
  case h_2 dmatxdesc hpc =>
      split at hgive
      case isFalse => cases hgive
      case isTrue =>
          cases hgive
          exact { h with
            waits := fun d hd => (by cases hd), ready := fun _ herror => (by cases herror),
            answers := fun _ => h.answers_wait hpc }

theorem error {s : Sender} {k : Nat} {ds : List TxDesc} (h : At s k ds) :
    At { s with gState := .error } k ds :=
  { h with
    waits := fun d hd => { h.waits d hd with }
    ready := fun _ herror => by cases herror }

/-- The DMA gets on with a frame: with the last descriptor it is out. -/
theorem fetch_cases {s s' : Sender} {k : Nat} {ds : List TxDesc} (h : At s k ds)
    (hfetch : s.fetch = some s') : ∃ d ds' part, ds = d :: ds' ∧
      (∀ dmatxdesc, s.pc = .wait dmatxdesc → part = d.onto s.part) ∧
      (s.pc = .idle → part = none) ∧
      s' = { s with
        list := { s.list with
          txDesc := change s.list.txDesc (k % ETH_TX_DESC_CNT) fun d => { d with own := false } }
        dma := (k + 1) % ETH_TX_DESC_CNT
        part := part
        wire := if d.ld then s.wire ++ [part] else s.wire } := by
  rw [Sender.fetch] at hfetch
  split at hfetch
  case isFalse => cases hfetch
  case isTrue hgo =>
      rw [h.dma] at hgo hfetch
      cases ds with
      | nil =>
          have hfree := h.window.free 0 (Nat.le_refl 0) txDesc_pos
          rw [Nat.add_zero, hgo.2] at hfree
          cases hfree
      | cons d ds =>
          have hd : s.list.txDesc (k % ETH_TX_DESC_CNT) = d := h.window.held 0 d rfl
          rw [hd, incr_txSlot] at hfetch
          cases hfetch
          refine ⟨d, ds, _, rfl, fun dmatxdesc hpc => ?_, fun hpc => ?_, rfl⟩
          · rw [hpc]
            rfl
          · rw [hpc]

/-- **The DMA takes a descriptor.** -/
theorem fetch {s s' : Sender} {k : Nat} {ds : List TxDesc} (h : At s k ds)
    (hfetch : s.fetch = some s') : At s' (k + 1) ds.tail := by
  obtain ⟨d, ds, part, rfl, hwait, hidle, rfl⟩ := h.fetch_cases hfetch
  rw [List.tail_cons]
  have htail : s.list.tail = (k + 1 + ds.length) % ETH_TX_DESC_CNT := by
    rw [h.tail, List.length_cons, Nat.add_assoc, Nat.add_comm 1]
  have hready (hpc : s.pc = .idle) (hstate : s.gState = .ready) : False := by
    cases (h.ready hpc hstate).1
  have hmost := h.most
  have hwindow := h.window
  have hshape := h.shape
  cases hshape with
  | one _ hown hld =>
      have hsane : ∀ (n : Nat) (f : List UInt8), (s.wire ++ [part])[n]? = some (some f) →
          (framesOf s.chains)[n]? = some f := by
        intro n f hf
        rcases Ring.getElem?_concat_cases hf with ⟨-, hf⟩ | ⟨rfl, hpart⟩
        · exact h.sane n f hf
        · cases hpc : s.pc with
          | idle =>
              rw [hidle hpc] at hpart
              cases hpart
          | wait dmatxdesc =>
              obtain ⟨earlier, g, hframes, ⟨hnil, -⟩ | ⟨-, hwire, hcarries⟩⟩ :=
                (h.waits dmatxdesc hpc).frame
              · cases hnil
              · rw [hwait dmatxdesc hpc, hcarries.onto_last] at hpart
                cases hpart
                rw [hframes, hwire, List.length_map, List.getElem?_concat_length]
      refine {
        window := hwindow.fetch (by decide), dma := rfl, tail := htail, cur := h.cur,
        shape := .none, sane := ?_, most := ?_, waits := fun dmatxdesc hpc => ?_,
        ready := fun hpc hstate => (hready hpc hstate).elim, answers := h.answers }
      · rw [if_pos hld]
        exact hsane
      · rw [if_pos hld, List.length_append]
        exact hmost
      · have hwaits := h.waits dmatxdesc hpc
        obtain ⟨earlier, g, hframes, ⟨hnil, -⟩ | ⟨-, hwire, hcarries⟩⟩ := hwaits.frame
        · cases hnil
        · refine { hwaits with
            last := hwaits.last.trans ?_, frame := ⟨earlier, g, hframes, Or.inl ⟨rfl, ?_⟩⟩ }
          · rw [← h.tail, htail]
          · rw [if_pos hld, hwait dmatxdesc hpc, hcarries.onto_last, hwire, List.map_append]
            rfl
  | two _ e hown hld hown' hld' =>
      have hmore : ¬ d.ld = true := by
        rw [hld]
        exact Bool.false_ne_true
      refine {
        window := hwindow.fetch (show 1 < ETH_TX_DESC_CNT by decide), dma := rfl, tail := htail,
        cur := h.cur, shape := .one e hown' hld', sane := ?_, most := ?_,
        waits := fun dmatxdesc hpc => ?_,
        ready := fun hpc hstate => (hready hpc hstate).elim, answers := h.answers }
      · rw [if_neg hmore]
        exact h.sane
      · rw [if_neg hmore]
        exact hmost
      · have hwaits := h.waits dmatxdesc hpc
        obtain ⟨earlier, g, hframes, ⟨hnil, -⟩ | ⟨-, hwire, hcarries⟩⟩ := hwaits.frame
        · cases hnil
        · refine { hwaits with
            last := hwaits.last.trans ?_
            frame := ⟨earlier, g, hframes, Or.inr ⟨by rintro ⟨⟩, ?_, ?_⟩⟩ }
          · rw [← h.tail, htail]
          · rw [if_neg hmore]
            exact hwire
          · show Carries part [e] g
            rw [hwait dmatxdesc hpc]
            exact hcarries.onto_first

/-- A chain that is not sent. -/
theorem dropped {s : Sender} {k : Nat} {ds : List TxDesc} {c : List (List UInt8)} {err : Int}
    (h : At s k ds) (hpc : s.pc = .idle) (herr : answerOf c = err)
    (hready : c.length ≤ ETH_TX_DESC_CNT → s.gState = .error) :
    At (Sender.answer err { s with chains := s.chains ++ [c] }) k ds := by
  obtain ⟨more, hmore⟩ : ∃ more, framesOf (s.chains ++ [c]) = framesOf s.chains ++ more := by
    by_cases hlong : c.length ≤ ETH_TX_DESC_CNT
    · exact ⟨_, framesOf_concat s.chains hlong⟩
    · exact ⟨[], by rw [framesOf_long s.chains (Nat.not_le.mp hlong), List.append_nil]⟩
  refine {
    window := h.window, dma := h.dma, tail := h.tail, cur := h.cur, shape := h.shape,
    sane := fun n f hf => ?_, most := ?_, waits := fun d hd => (by cases hd),
    ready := fun _ hstate => ?_, answers := fun _ => ?_ }
  · have hold := h.sane n f hf
    show (framesOf (s.chains ++ [c]))[n]? = some f
    rw [hmore, List.getElem?_append_left (List.getElem?_eq_some_iff.mp hold).1, hold]
  · show s.wire.length + packets ds ≤ (framesOf (s.chains ++ [c])).length
    rw [hmore, List.length_append]
    exact Nat.le_add_right_of_le h.most
  · obtain ⟨hnil, hwire⟩ := h.ready hpc hstate
    refine ⟨hnil, ?_⟩
    show s.wire = (framesOf (s.chains ++ [c])).map some
    have hlong : c.length > ETH_TX_DESC_CNT := Nat.not_le.mp fun hfew => by
      have hstate' : s.gState = .ready := hstate
      rw [hready hfew] at hstate'
      cases hstate'
    rw [framesOf_long s.chains hlong, hwire]
  · show s.answers ++ [err] = (s.chains ++ [c]).map answerOf
    rw [h.answers hpc, List.map_append, List.map_singleton, herr]

/-- A chain is handed to the DMA. -/
theorem handed {s : Sender} {k : Nat} {b : List UInt8} {rest : List (List UInt8)}
    {list : TxDescList} {d : TxDesc} {ds : List TxDesc} (h : At s k []) (hpc : s.pc = .idle)
    (hstate : s.gState = .ready) (hfew : (b :: rest).length ≤ ETH_TX_DESC_CNT)
    (hwindow : Window list.txDesc k (d :: ds))
    (hcur : list.curTxDesc = (k + ds.length) % ETH_TX_DESC_CNT) (hshape : Shape (d :: ds))
    (hcarries : Carries s.part (d :: ds) (b :: rest).flatten) :
    At { s with
      chains := s.chains ++ [b :: rest]
      list := { list with
        curTxDesc := incrTxDescIndex list.curTxDesc 1, tail := incrTxDescIndex list.curTxDesc 1 }
      pc := .wait list.curTxDesc } k (d :: ds) := by
  obtain ⟨-, hwire⟩ := h.ready hpc hstate
  have hframes := framesOf_concat s.chains hfew
  have hincr : incrTxDescIndex list.curTxDesc 1 = (k + (d :: ds).length) % ETH_TX_DESC_CNT := by
    rw [hcur, incr_txSlot]
    rfl
  refine {
    window := hwindow, dma := h.dma, tail := hincr, cur := rfl, shape := hshape,
    sane := fun n f hf => ?_, most := ?_, waits := fun dmatxdesc hwait => ?_,
    ready := fun hidle => (by cases hidle), answers := fun hidle => (by cases hidle) }
  · have hold := h.sane n f hf
    show (framesOf (s.chains ++ [b :: rest]))[n]? = some f
    rw [hframes, List.getElem?_append_left (List.getElem?_eq_some_iff.mp hold).1, hold]
  · show s.wire.length + 1 ≤ (framesOf (s.chains ++ [b :: rest])).length
    rw [hframes, List.length_append]
    exact Nat.succ_le_succ h.most
  · cases hwait
    refine {
      last := ?_, inRing := ?_, frame := ⟨_, _, hframes, Or.inr ⟨by rintro ⟨⟩, hwire, hcarries⟩⟩,
      answers := ⟨s.chains, _, rfl, hfew, h.answers hpc⟩ }
    · rw [hcur, Nat.mod_add_mod]
      rfl
    · rw [hcur]
      exact Nat.mod_lt _ txDesc_pos

/-- **A chain is sent**, or not. -/
theorem output {s s' : Sender} {k : Nat} {ds : List TxDesc} {b : List UInt8}
    {rest : List (List UInt8)} (h : At s k ds) (houtput : s.output b rest = some s') :
    ∃ ds', At s' k ds' := by
  rw [Sender.output] at houtput
  split at houtput
  case h_1 => cases houtput
  case h_2 hpc =>
      by_cases hlong : (b :: rest).length > ETH_TX_DESC_CNT
      · rw [if_pos hlong] at houtput
        cases houtput
        exact ⟨ds, h.dropped hpc (if_pos hlong) fun hfew => absurd hlong (Nat.not_lt.mpr hfew)⟩
      · rw [if_neg hlong] at houtput
        split at houtput
        case h_1 hstate =>
            cases houtput
            exact ⟨ds, h.dropped hpc (if_neg hlong) fun _ => hstate⟩
        case h_2 hstate =>
            obtain ⟨rfl, -⟩ := h.ready hpc hstate
            obtain ⟨list, d, ds, hprepare, hwindow, hcur, -, hshape, hcarries⟩ :=
              prepare_spec h.window (h.cur.trans h.tail) (Nat.not_lt.mp hlong)
            rw [hprepare] at houtput
            cases houtput
            exact ⟨d :: ds, h.handed hpc hstate (Nat.not_lt.mp hlong) hwindow hcur hshape
              (hcarries s.part)⟩

/-- **Every step keeps the invariant.** -/
theorem step {s s' : Sender} {a : Sender.Act} (h : ∃ k ds, At s k ds)
    (hstep : s.step a = some s') : ∃ k ds, At s' k ds := by
  obtain ⟨k, ds, h⟩ := h
  cases a with
  | output b rest => exact ⟨k, h.output hstep⟩
  | poll => exact ⟨k, ds, h.poll hstep⟩
  | giveUp => exact ⟨k, ds, h.giveUp hstep⟩
  | fetch => exact ⟨k + 1, _, h.fetch hstep⟩
  | error =>
      cases hstep
      exact ⟨k, ds, h.error⟩

theorem run {acts : List Sender.Act} {s : Sender}
    (hrun : Machine.run Sender.step .init acts = some s) : ∃ k ds, At s k ds := by
  have hany : Machine.Along Sender.step (fun _ _ => True) .init acts :=
    Machine.along_of_forall (fun _ _ _ => trivial) _
  exact Machine.run_invariant (fun s => ∃ k ds, At s k ds) (fun _ _ _ _ h hstep => step h hstep)
    ⟨0, [], init⟩ hany hrun

end At

/-! ## Frames out -/

/-- A chain of three pbufs is sent, and then one of one. -/
def twoChains : List Sender.Act :=
  [.output [1] [[2], [3, 4]], .fetch, .fetch, .poll, .output [5] [], .fetch, .poll]

/-- **Frames are sent whole, once and in order.** In every run: a frame on the
wire whose bytes are known is the one that `low_level_output` has been given
in its place; no more have been sent than given; and while the driver is not
in its error state, a call has returned with all of them sent. A chain of more
than four pbufs is refused, and nothing else is. -/
theorem eth_sends {acts : List Sender.Act} {s : Sender}
    (hrun : Machine.run Sender.step .init acts = some s) :
    (∀ (n : Nat) (f : List UInt8), s.wire[n]? = some (some f) →
      (framesOf s.chains)[n]? = some f) ∧
    s.wire.length ≤ (framesOf s.chains).length ∧
    (s.pc = .idle → s.answers = s.chains.map answerOf ∧
      (s.gState = .ready → s.wire = (framesOf s.chains).map some)) := by
  obtain ⟨k, ds, h⟩ := At.run hrun
  exact ⟨h.sane, Nat.le_trans (Nat.le_add_right _ _) h.most, fun hpc =>
    ⟨h.answers hpc, fun hstate => (h.ready hpc hstate).2⟩⟩

theorem eth_sends_twoChains : ∃ s, Machine.run Sender.step .init twoChains = some s ∧
    (∀ (n : Nat) (f : List UInt8), s.wire[n]? = some (some f) →
      (framesOf s.chains)[n]? = some f) ∧
    s.wire.length ≤ (framesOf s.chains).length ∧
    (s.pc = .idle → s.answers = s.chains.map answerOf ∧
      (s.gState = .ready → s.wire = (framesOf s.chains).map some)) := by
  have hsome : (Machine.run Sender.step .init twoChains).isSome = true := by
    decide +kernel
  obtain ⟨s, hrun⟩ := Option.isSome_iff_exists.mp hsome
  exact ⟨s, hrun, eth_sends hrun⟩

/-! ## After a failure -/

/-- The driver is in its error state, with no call waiting. What is on the
wire, with the frames that the DMA still has, has not changed since. -/
structure Silent (before after : List (Option (List UInt8))) (s : Sender) : Prop where
  pc : s.pc = .idle
  gState : s.gState = .error
  isPrefix : before <+: s.wire
  rest : ∃ k ds, At s k ds ∧ s.wire ++ List.replicate (packets ds) none = after

theorem Silent.fetch {before after : List (Option (List UInt8))} {s s' : Sender}
    (h : Silent before after s) (hfetch : s.fetch = some s') : Silent before after s' := by
  obtain ⟨k, ds, hs, hafter⟩ := h.rest
  have hs' := hs.fetch hfetch
  obtain ⟨d, ds, part, rfl, -, hidle, rfl⟩ := hs.fetch_cases hfetch
  obtain rfl := hidle h.pc
  have hshape := hs.shape
  cases hshape with
  | one _ hown hld =>
      refine ⟨h.pc, h.gState, ?_, k + 1, [], hs', ?_⟩
      · rw [if_pos hld]
        exact h.isPrefix.trans (List.prefix_append _ _)
      · rw [if_pos hld, ← hafter, List.append_assoc]
        rfl
  | two _ e hown hld hown' hld' =>
      have hmore : ¬ d.ld = true := by
        rw [hld]
        exact Bool.false_ne_true
      refine ⟨h.pc, h.gState, ?_, k + 1, [e], hs', ?_⟩
      · rw [if_neg hmore]
        exact h.isPrefix
      · rw [if_neg hmore, ← hafter]
        rfl

/-- The driver does not even look at the chain. -/
theorem output_error {s s' : Sender} {b : List UInt8} {rest : List (List UInt8)}
    (hstate : s.gState = .error) (houtput : s.output b rest = some s') :
    s' = Sender.answer (answerOf (b :: rest)) { s with chains := s.chains ++ [b :: rest] } := by
  rw [Sender.output] at houtput
  split at houtput
  case h_1 => cases houtput
  case h_2 hpc =>
      rw [answerOf]
      by_cases hlong : (b :: rest).length > ETH_TX_DESC_CNT
      · rw [if_pos hlong] at houtput ⊢
        cases houtput
        rfl
      · rw [if_neg hlong] at houtput ⊢
        split at houtput
        case h_1 =>
            cases houtput
            rfl
        case h_2 hready =>
            rw [show s.gState = .ready from hready] at hstate
            cases hstate

theorem Silent.output {before after : List (Option (List UInt8))} {s s' : Sender} {b : List UInt8}
    {rest : List (List UInt8)} (h : Silent before after s) (houtput : s.output b rest = some s') :
    Silent before after s' := by
  obtain ⟨k, ds, hs, hafter⟩ := h.rest
  obtain rfl := output_error h.gState houtput
  exact ⟨rfl, h.gState, h.isPrefix, k, ds, hs.dropped h.pc rfl fun _ => h.gState, hafter⟩

theorem Silent.step {before after : List (Option (List UInt8))} {s s' : Sender} {a : Sender.Act}
    (h : Silent before after s) (hstep : s.step a = some s') : Silent before after s' := by
  cases a with
  | output b rest => exact h.output hstep
  | fetch => exact h.fetch hstep
  | poll =>
      rw [Sender.step, Sender.poll, h.pc] at hstep
      cases hstep
  | giveUp =>
      rw [Sender.step, Sender.giveUp, h.pc] at hstep
      cases hstep
  | error =>
      cases hstep
      obtain ⟨k, ds, hs, hafter⟩ := h.rest
      exact ⟨h.pc, rfl, h.isPrefix, k, ds, hs.error, hafter⟩

/-- **After a failure nothing is sent any more**, and nobody is told. In every
run on from a state where the driver is in its error state, and no call waits:
all that may still go out is one frame given before, if the DMA has it still,
with bytes that nobody knows; and the calls return what they always do. -/
theorem eth_silent {acts acts' : List Sender.Act} {s s' : Sender}
    (hrun : Machine.run Sender.step .init acts = some s) (hpc : s.pc = .idle)
    (hstate : s.gState = .error) (hrun' : Machine.run Sender.step s acts' = some s') :
    (s'.wire = s.wire ∨
      s'.wire = s.wire ++ [none] ∧ s.wire.length < (framesOf s.chains).length) ∧
    s'.answers = s'.chains.map answerOf := by
  obtain ⟨k, ds, hs⟩ := At.run hrun
  have hany : Machine.Along Sender.step (fun _ _ => True) s acts' :=
    Machine.along_of_forall (fun _ _ _ => trivial) _
  have hsilent := Machine.run_invariant
    (Silent s.wire (s.wire ++ List.replicate (packets ds) none))
    (fun _ _ _ _ h hstep => h.step hstep) ⟨hpc, hstate, List.prefix_refl _, k, ds, hs, rfl⟩ hany
    hrun'
  obtain ⟨k', ds', hs', hafter⟩ := hsilent.rest
  refine ⟨?_, hs'.answers hsilent.pc⟩
  obtain ⟨late, hlate⟩ := hsilent.isPrefix
  rw [← hlate, List.append_assoc, List.append_cancel_left_eq] at hafter
  cases late with
  | nil => exact Or.inl (hlate.symm.trans (List.append_nil _))
  | cons w late =>
      cases ds with
      | nil => cases hafter
      | cons d ds =>
          obtain ⟨rfl, hnone⟩ := List.cons.inj hafter
          obtain rfl := (List.append_eq_nil_iff.mp hnone).1
          exact Or.inr ⟨hlate.symm, hs.most⟩

/-- The first chain is given up; the second is not sent. -/
def givenUp : Sender := (Machine.run Sender.step .init [.output [1] [], .giveUp]).getD .init

theorem eth_silent_givenUp :
    ∃ s, Machine.run Sender.step givenUp [.output [2] [], .fetch] = some s ∧
      (s.wire = givenUp.wire ∨
        s.wire = givenUp.wire ++ [none] ∧ givenUp.wire.length < (framesOf givenUp.chains).length) ∧
      s.answers = s.chains.map answerOf := by
  refine ⟨_, rfl, ?_⟩
  have hrun : Machine.run Sender.step .init [.output [1] [], .giveUp] = some givenUp := rfl
  have hrun' : Machine.run Sender.step givenUp [.output [2] [], .fetch] = some _ := rfl
  exact eth_silent hrun rfl rfl hrun'

end NucleoMqtt.Eth
