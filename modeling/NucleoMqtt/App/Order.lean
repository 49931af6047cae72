import NucleoMqtt.App.Opening
import NucleoMqtt.Mqtt.SessionPackets

/-!
# App — the order of the packets

A session has stages, and each packet handed over either keeps the stage or
moves it on (`Stage.Step`). `Stage.Word` is what has been handed over at
each stage, and `mainStep_goes` and `closeStep_goes` say that the two
sequences of calls that write follow the stages. `OnStage` puts the tasks
together: `Button_Thread` exists only behind the opening, and it terminates
`Main_Thread` before it writes itself. Nothing is asked of the reads or of
the scheduler.

A task enters `Error_Handler` with the call that locks the kernel.
-/

namespace NucleoMqtt.App

open NucleoMqtt.Lib NucleoMqtt.Spec NucleoMqtt.Mqtt

/-! ## What is handed over -/

/-- The first byte of the packet each call makes. -/
def Write.header : Write → UInt8
  | .connect => 0x10
  | .subscribe => 0x82
  | .connected | .confirm _ | .date _ | .disconnected => 0x30
  | .pingreq => 0xC0
  | .unsubscribe => 0xA2
  | .disconnect => 0xE0

/-- The calls of the endless loop. -/
def Write.OfLoop : Write → Prop
  | .pingreq | .confirm _ | .date _ => True
  | _ => False

def Event.write? : Event → Option Write
  | .read _ _ => none
  | .wrote w _ => some w

/-- The packets handed to `MQTT_Write_Packet` so far, by the calls that made them. -/
def Board.writes (b : Board) : List Write := b.log.filterMap Event.write?

/-- Every packet in the log is of the kind its call stands for. -/
def Framed (log : List Event) : Prop :=
  ∀ w packet, .wrote w packet ∈ log → packet.head? = some w.header

/-- The board hands over one packet more. -/
def Board.Hands (b b' : Board) (w : Write) : Prop :=
  ∃ packet, b'.log = b.log ++ [.wrote w packet] ∧ packet.head? = some w.header

/-- The board hands over nothing. -/
def Board.Quiet (b b' : Board) : Prop :=
  b'.log = b.log ∨ ∃ r v, b'.log = b.log ++ [.read r v]

theorem publishOf_head (topic msg : List UInt8) :
    (publishOf topic msg).encode.head? = some 0x30 := by
  rw [publishOf_encode]
  rfl

/-- **Every write hands over one packet of its kind.** -/
theorem Board.write_hands {b b' : Board} {w : Write} (h : b.write w = some b')
    (hdate : ∀ text, w = .date text → text.length < 30) : b.Hands b' w := by
  cases w with
  | connect =>
      obtain ⟨handed, hrun, rfl⟩ := Option.map_eq_some_iff.mp h
      obtain ⟨handed', hrun', -, hcells⟩ := mqttWriteConnect_eq CLIENT_ID 60 (by decide)
      obtain rfl := Option.some.inj (hrun.symm.trans hrun')
      exact ⟨_, rfl, by rw [hcells]; rfl⟩
  | subscribe =>
      obtain ⟨⟨handed, packetId⟩, hrun, rfl⟩ := Option.map_eq_some_iff.mp h
      obtain ⟨handed', hrun', heq⟩ := Option.map_eq_some_iff.mp hrun
      obtain ⟨handed'', hrun'', -, hcells⟩ := writeFilterPacket_eq SUBSCRIBE_MIN_SIZE 0x82
        [0b00000000] SECRET_TOPIC (mqttGeneratePacketId b.packetId) rfl (by decide)
      obtain rfl := Option.some.inj (hrun'.symm.trans hrun'')
      cases heq
      exact ⟨_, rfl, by rw [hcells]; rfl⟩
  | unsubscribe =>
      obtain ⟨⟨handed, packetId⟩, hrun, rfl⟩ := Option.map_eq_some_iff.mp h
      obtain ⟨handed', hrun', heq⟩ := Option.map_eq_some_iff.mp hrun
      obtain ⟨handed'', hrun'', -, hcells⟩ := writeFilterPacket_eq UNSUBSCRIBE_MIN_SIZE 0xA2
        [] SECRET_TOPIC (mqttGeneratePacketId b.packetId) rfl (by decide)
      obtain rfl := Option.some.inj (hrun'.symm.trans hrun'')
      cases heq
      exact ⟨_, rfl, by rw [hcells]; rfl⟩
  | connected | disconnected =>
      rw [Board.write, b.publish_eq _ (by decide)] at h
      cases h
      exact ⟨_, rfl, publishOf_head _ _⟩
  | confirm c =>
      rw [b.write_confirm c] at h
      cases h
      exact ⟨_, rfl, publishOf_head _ _⟩
  | date text =>
      rw [b.write_date text (hdate text rfl)] at h
      cases h
      exact ⟨_, rfl, publishOf_head _ _⟩
  | pingreq | disconnect =>
      cases h
      exact ⟨_, rfl, rfl⟩

theorem Board.read_quiet {b b' : Board} {r : Recv RECV_BUF_SIZE} {v : Int}
    (h : b.read r = some (v, b')) : b.Quiet b' :=
  Or.inr ⟨r, v, (Board.read_cases h).1⟩

/-! ## Stages -/

namespace Stage

/-- What one packet does to the stage. -/
inductive Step : Stage → Write → Stage → Prop where
  | connect : Step booted .connect connecting
  | subscribe : Step connecting .subscribe subscribing
  | connected : Step subscribing .connected looping
  | loop {w : Write} (h : w.OfLoop) : Step looping w looping
  | unsubscribe : Step looping .unsubscribe unsubscribing
  | disconnected : Step unsubscribing .disconnected leaving
  | disconnect : Step leaving .disconnect left

/-- UNSUBSCRIBE has not been handed over. -/
def Open : Stage → Prop
  | booted | connecting | subscribing | looping => True
  | _ => False

end Stage

def openingWord : List Write := [.connect, .subscribe, .connected]

def closingWord : List Write := [.unsubscribe, .disconnected, .disconnect]

namespace Stage

/-- The part of the opening a stage has behind it. -/
def opened : Stage → List Write
  | booted => []
  | connecting => [.connect]
  | subscribing => [.connect, .subscribe]
  | _ => openingWord

/-- The part of the closing a stage has behind it. -/
def closed : Stage → List Write
  | unsubscribing => [.unsubscribe]
  | leaving => [.unsubscribe, .disconnected]
  | left => closingWord
  | _ => []

/-- What has been handed over at a stage; the loop adds to it only behind
the whole opening. -/
def Word (st : Stage) (ws : List Write) : Prop :=
  ∃ mid, (∀ w ∈ mid, w.OfLoop) ∧ (st.opened = openingWord ∨ mid = []) ∧
    ws = st.opened ++ mid ++ st.closed

/-- A packet handed over at its stage. -/
theorem Word.step {st st' : Stage} {w : Write} {ws : List Write} (h : st.Word ws)
    (hstep : Step st w st') : st'.Word (ws ++ [w]) := by
  obtain ⟨mid, hmid, hopened, rfl⟩ := h
  cases hstep with
  | connect | subscribe | connected =>
      rcases hopened with hopened | rfl
      · cases hopened
      · exact ⟨[], hmid, by simp [opened], rfl⟩
  | loop hw =>
      refine ⟨mid ++ [w], ?_, Or.inl rfl, by simp [opened, closed]⟩
      intro w' hw'
      rcases List.mem_append.mp hw' with hw' | hw'
      · exact hmid w' hw'
      · rw [List.mem_singleton.mp hw']
        exact hw
  | unsubscribe | disconnected | disconnect =>
      exact ⟨mid, hmid, Or.inl rfl, by simp [opened, closed, closingWord]⟩

/-- The opening and the closing are handed over in order. -/
theorem opened_isPrefix (st : Stage) : st.opened <+: openingWord := by
  cases st <;> simp [opened, openingWord]

theorem closed_isPrefix (st : Stage) : st.closed <+: closingWord := by
  cases st <;> simp [closed, closingWord]

theorem closed_of_opened {st : Stage} (h : st.opened ≠ openingWord) : st.closed = [] := by
  cases st <;> simp_all [opened, closed]

/-- **A word of a stage is a prefix of a session.** -/
theorem Word.isPrefix {st : Stage} {ws : List Write} (h : st.Word ws) :
    ∃ mid, (∀ w ∈ mid, w.OfLoop) ∧ ws <+: openingWord ++ mid ++ closingWord := by
  obtain ⟨mid, hmid, hopened, rfl⟩ := h
  refine ⟨mid, hmid, ?_⟩
  by_cases hwhole : st.opened = openingWord
  · rw [hwhole]
    exact (List.prefix_append_right_inj _).mpr st.closed_isPrefix
  · rw [closed_of_opened hwhole, hopened.resolve_left hwhole, List.append_nil, List.append_nil,
      List.append_nil]
    exact st.opened_isPrefix.trans (List.prefix_append _ _)

/-- The packets before the closing are not of the closing. -/
theorem not_mem_opened {st : Stage} {mid : List Write} (hmid : ∀ w ∈ mid, w.OfLoop) {w : Write}
    (hw : w ∈ closingWord) : w ∉ st.opened ++ mid := by
  intro hmem
  rcases List.mem_append.mp hmem with hmem | hmem
  · have := st.opened_isPrefix.subset hmem
    revert this hw
    cases w <;> simp [openingWord, closingWord]
  · have := hmid w hmem
    revert this hw
    cases w <;> simp [Write.OfLoop, closingWord]

end Stage

/-! ## The stages of the board -/

/-- The board is at a stage: what has been handed over is a word of it. -/
structure Stage.At (st : Stage) (b : Board) : Prop where
  word : st.Word b.writes
  framed : Framed b.log

/-- One call takes the board from one stage to the next. -/
def Stage.Goes (b b' : Board) (st st' : Stage) : Prop :=
  b.Quiet b' ∧ st' = st ∨ ∃ w, b.Hands b' w ∧ Stage.Step st w st'

theorem Stage.At.quiet {st : Stage} {b b' : Board} (h : st.At b) (hquiet : b.Quiet b') :
    st.At b' := by
  rcases hquiet with hlog | ⟨r, v, hlog⟩
  · refine ⟨?_, ?_⟩
    · rw [Board.writes, hlog]
      exact h.word
    · rw [hlog]
      exact h.framed
  · refine ⟨?_, ?_⟩
    · have hwrites : b'.writes = b.writes := by
        simp [Board.writes, hlog, List.filterMap_append, Event.write?]
      rw [hwrites]
      exact h.word
    · intro w packet hmem
      rw [hlog] at hmem
      rcases List.mem_append.mp hmem with hmem | hmem
      · exact h.framed w packet hmem
      · cases List.mem_singleton.mp hmem

theorem Stage.At.hands {st st' : Stage} {b b' : Board} {w : Write} (h : st.At b)
    (hands : b.Hands b' w) (hstep : Stage.Step st w st') : st'.At b' := by
  obtain ⟨packet, hlog, hhead⟩ := hands
  refine ⟨?_, ?_⟩
  · have hwrites : b'.writes = b.writes ++ [w] := by
      simp [Board.writes, hlog, List.filterMap_append, Event.write?]
    rw [hwrites]
    exact h.word.step hstep
  · intro w' packet' hmem
    rw [hlog] at hmem
    rcases List.mem_append.mp hmem with hmem | hmem
    · exact h.framed w' packet' hmem
    · cases List.mem_singleton.mp hmem
      exact hhead

theorem Stage.At.goes {st st' : Stage} {b b' : Board} (h : st.At b)
    (hgoes : Stage.Goes b b' st st') : st'.At b' := by
  obtain ⟨hquiet, rfl⟩ | ⟨w, hands, hstep⟩ := hgoes
  · exact h.quiet hquiet
  · exact h.hands hands hstep

/-- In the loop, a call that closes nothing stays in the loop. -/
theorem Stage.Goes.looping {st' : Stage} {b b' : Board} (h : Stage.Goes b b' .looping st')
    (hopen : st'.Open) : st' = .looping := by
  obtain ⟨-, rfl⟩ | ⟨w, -, hstep⟩ := h
  · rfl
  · cases hstep with
    | loop hw => rfl
    | unsubscribe => exact hopen.elim

/-! ## The stages of the tasks -/

theorem MainPc.stage_open (pc : MainPc) : pc.stage.Open := by
  cases pc <;> trivial

/-- A packet handed over moves the session on. -/
theorem MainPc.Writes.goes {pc pc' : MainPc} {w : Write} {b b' : Board} (h : pc.Writes w pc')
    (hwrite : b.write w = some b') (hdated : pc.Dated) :
    pc'.Dated ∧ Stage.Goes b b' pc.stage pc'.stage := by
  cases h with
  | connect =>
      exact ⟨trivial, Or.inr ⟨_, Board.write_hands hwrite (by simp), .connect⟩⟩
  | subscribe =>
      exact ⟨trivial, Or.inr ⟨_, Board.write_hands hwrite (by simp), .subscribe⟩⟩
  | connected =>
      exact ⟨trivial, Or.inr ⟨_, Board.write_hands hwrite (by simp), .connected⟩⟩
  | pingreq | confirm c =>
      exact ⟨trivial, Or.inr ⟨_, Board.write_hands hwrite (by simp), .loop trivial⟩⟩
  | date text =>
      refine ⟨trivial, Or.inr ⟨_, Board.write_hands hwrite ?_, .loop trivial⟩⟩
      rintro text' ⟨⟩
      exact hdated

/-- A wait leaves the session where it is. -/
theorem MainPc.Reads.stage {pc pc' : MainPc} {buf : Block UInt8 RECV_BUF_SIZE} {v : Int}
    (h : MainPc.Reads buf v pc pc') :
    pc'.Dated ∧ (pc' = .errorHandler ∨ pc'.stage = pc.stage) := by
  cases h with
  | connack hv | suback hv | nothing hv => exact ⟨trivial, Or.inr rfl⟩
  | packet hpc hstage hv =>
      obtain ⟨-, hstage', hdated⟩ := dispatch_spec buf
      exact ⟨hdated, Or.inr (hstage'.trans hstage.symm)⟩
  | lost hv => exact ⟨trivial, Or.inl rfl⟩

/-- **Every call of Main_Thread follows the stages**, or gives up where it is. -/
theorem mainStep_goes {pc pc' : MainPc} {a : Answer} {b b' : Board}
    (h : mainStep pc a b = some (pc', b')) (hdated : pc.Dated) :
    pc'.Dated ∧ ∃ st', st'.Open ∧ Stage.Goes b b' pc.stage st' ∧
      (pc' = .errorHandler ∨ pc'.stage = st') := by
  obtain ⟨hlog, -, hpasses⟩ | ⟨w, hw, hwrite⟩ | ⟨r, v, -, hread, hnext⟩ := mainStep_cases h
  · have hquiet : b.Quiet b' := Or.inl hlog
    rcases hpasses with rfl | ⟨-, hstage, hdated'⟩
    · exact ⟨trivial, _, pc.stage_open, Or.inl ⟨hquiet, rfl⟩, Or.inl rfl⟩
    · exact ⟨hdated', _, pc.stage_open, Or.inl ⟨hquiet, rfl⟩, Or.inr hstage⟩
  · obtain ⟨hdated', hgoes⟩ := hw.goes hwrite hdated
    exact ⟨hdated', _, pc'.stage_open, hgoes, Or.inr rfl⟩
  · obtain ⟨hdated', hstage⟩ := hnext.stage
    exact ⟨hdated', _, pc.stage_open, Or.inl ⟨Board.read_quiet hread, rfl⟩, hstage⟩

/-- **Every call of Close_Program follows the stages**, or gives up. -/
theorem closeStep_goes {pc pc' : ClosePc} {a : Answer} {b b' : Board}
    (h : closeStep pc a b = some (pc', b')) :
    ∃ st', Stage.Goes b b' pc.stage st' ∧ (pc' = .errorHandler ∨ pc'.stage = st') := by
  obtain ⟨w, hw, hwrite⟩ | ⟨rfl, r, v, -, hread, rfl⟩ | ⟨rfl, rfl, rfl⟩ := closeStep_cases h
  · have hstep : Stage.Step pc.stage w pc'.stage := by
      cases hw with
      | unsubscribe => exact .unsubscribe
      | disconnected => exact .disconnected
      | disconnect => exact .disconnect
    have hdate : ∀ text, w = .date text → text.length < 30 := by
      rintro text rfl
      cases hw
    exact ⟨_, Or.inr ⟨w, Board.write_hands hwrite hdate, hstep⟩, Or.inr rfl⟩
  · refine ⟨_, Or.inl ⟨Board.read_quiet hread, rfl⟩, ?_⟩
    split
    · exact Or.inl rfl
    · exact Or.inr rfl
  · exact ⟨_, Or.inl ⟨Or.inl rfl, rfl⟩, Or.inl rfl⟩

/-! ## The invariant -/

/-- All tasks are at one stage: `Main_Thread` before the closing,
`Button_Thread` in the loop until it has terminated `Main_Thread`. -/
structure OnStage (st : Stage) (s : System) : Prop where
  board : st.At s.board
  main : ∀ pc, s.main = some pc → st.Open ∧ pc.Dated ∧ (pc = .errorHandler ∨ pc.stage = st)
  waiting : ∀ pc, s.button = some pc → (∀ c, pc ≠ .close c) → st = .looping
  closing : ∀ c, s.button = some (.close c) →
    s.main = none ∧ (c = .errorHandler ∨ c.stage = st)

namespace OnStage

theorem init : OnStage .booted System.init where
  board := ⟨⟨[], by simp, Or.inr rfl, rfl⟩, by rintro w packet ⟨⟩⟩
  main := by
    rintro pc ⟨⟩
    exact ⟨trivial, trivial, Or.inr rfl⟩
  waiting := by rintro pc ⟨⟩
  closing := by rintro c ⟨⟩

/-- Switching the LEDs off hands over nothing. -/
theorem halt {st : Stage} {s : System} (h : OnStage st s) : OnStage st s.halt :=
  ⟨h.board.quiet (Or.inl rfl), h.main, h.waiting, h.closing⟩

/-- A call of `Main_Thread`, which runs and so has not been terminated. -/
theorem main_call {st : Stage} {s : System} {a : Answer} {pc pc' : MainPc} {board : Board}
    (h : OnStage st s) (hpc : s.main = some pc) (hne : pc ≠ .errorHandler)
    (hstep : mainStep pc a s.board = some (pc', board)) :
    ∃ st', OnStage st'
      { s with
        board := board
        main := some pc'
        link := if pc = .linkThreadNew then some .ethLinkStatus else s.link
        button := if pc = .buttonThreadNew then some .b1Read else s.button } := by
  obtain ⟨-, hdated, hstage⟩ := h.main pc hpc
  obtain ⟨hdated', st', hopen, hgoes, hstage'⟩ := mainStep_goes hstep hdated
  obtain rfl := hstage.resolve_left hne
  have hloop (hst : pc.stage = .looping) : st' = .looping := by
    rw [hst] at hgoes
    exact hgoes.looping hopen
  refine ⟨st', h.board.goes hgoes, ?_, ?_, ?_⟩
  · rintro pc'' ⟨⟩
    exact ⟨hopen, hdated', hstage'⟩
  · -- the button task is new, or it has found the session in the loop
    intro pcButton hbutton hclose
    by_cases hnew : pc = .buttonThreadNew
    · exact hloop (by rw [hnew]; rfl)
    · rw [if_neg hnew] at hbutton
      exact hloop (h.waiting pcButton hbutton hclose)
  · intro c hclose
    rw [(h.closing c (System.close_of_main hclose)).1] at hpc
    cases hpc

/-- **One call of any task** leaves all tasks at one stage. -/
theorem step {s s' : System} {act : Action} (h : ∃ st, OnStage st s)
    (hstep : s.step act = some s') : ∃ st', OnStage st' s' := by
  obtain ⟨st, h⟩ := h
  cases System.step_moves hstep with
  | halt => exact ⟨st, h.halt⟩
  | main hpc hne hmain => exact h.main_call hpc hne hmain
  | link pc' => exact ⟨st, h.board, h.main, h.waiting, h.closing⟩
  | @close a c c' board hc hne hclose =>
      obtain ⟨hnone, hstage⟩ := h.closing c hc
      obtain rfl := hstage.resolve_left hne
      obtain ⟨st', hgoes, hstage'⟩ := closeStep_goes hclose
      refine ⟨st', h.board.goes hgoes, ?_, ?_, ?_⟩
      · intro pc hpc
        rw [hnone] at hpc
        cases hpc
      · rintro pc ⟨⟩ hopen
        exact absurd rfl (hopen c')
      · rintro c'' ⟨⟩
        exact ⟨hnone, hstage'⟩
  | terminate hpc =>
      -- osThreadTerminate: from here on only this task writes
      obtain rfl := h.waiting _ hpc (by simp)
      refine ⟨.looping, h.board, ?_, ?_, ?_⟩
      · rintro pc ⟨⟩
      · rintro pc ⟨⟩ hopen
        exact absurd rfl (hopen _)
      · rintro c ⟨⟩
        exact ⟨rfl, Or.inr rfl⟩
  | @wait a pc pc' hpc hopen hopen' =>
      refine ⟨st, h.board, h.main, ?_, ?_⟩
      · intro _ _ _
        exact h.waiting pc hpc hopen
      · intro c hc
        exact absurd (Option.some.inj hc) (hopen' c)

end OnStage

/-! ## The order -/

/-- What the packets handed over look like in a state. -/
structure InOrder (s : System) : Prop where
  session : ∃ mid, (∀ w ∈ mid, w.OfLoop) ∧ s.board.writes <+: openingWord ++ mid ++ closingWord
  framed : Framed s.board.log
  /-- `Main_Thread` is gone, and what follows comes from `Close_Program`. -/
  unsubscribed : ∀ before after, s.board.writes = before ++ .unsubscribe :: after →
    s.main = none ∧ after <+: [.disconnected, .disconnect]
  disconnected : ∀ before after, s.board.writes = before ++ .disconnect :: after → after = []

namespace Stage

/-- A packet of the closing stands where the closing has it. -/
theorem Word.split {st : Stage} {ws before after : List Write} {w : Write} (h : st.Word ws)
    (hw : w ∈ closingWord) (hsplit : ws = before ++ w :: after) :
    ∃ pre, st.closed = pre ++ w :: after := by
  obtain ⟨mid, hmid, -, rfl⟩ := h
  rcases List.append_eq_append_iff.mp hsplit with ⟨pre, -, hclosed⟩ | ⟨post, hopened, hrest⟩
  · exact ⟨pre, hclosed⟩
  · cases post with
    | nil => exact ⟨[], hrest.symm⟩
    | cons w' post =>
        obtain ⟨rfl, -⟩ := List.cons.inj hrest
        have hmem : w ∈ st.opened ++ mid := by
          rw [hopened]
          exact List.mem_append_right _ (List.mem_cons_self ..)
        exact absurd hmem (not_mem_opened hmid hw)

/-- Before the closing none of its packets has been handed over. -/
theorem Word.not_open {st : Stage} {ws before after : List Write} {w : Write} (h : st.Word ws)
    (hw : w ∈ closingWord) (hsplit : ws = before ++ w :: after) : ¬ st.Open := by
  obtain ⟨pre, hclosed⟩ := h.split hw hsplit
  intro hopen
  cases st with
  | booted | connecting | subscribing | looping => simp [closed] at hclosed
  | unsubscribing | leaving | left => exact hopen

/-- What follows a packet of the closing. -/
theorem Word.behind {st : Stage} {ws before after : List Write} {w : Write} (h : st.Word ws)
    (hw : w ∈ closingWord) (hsplit : ws = before ++ w :: after) :
    ∃ pre, pre ++ w :: after <+: closingWord := by
  obtain ⟨pre, hclosed⟩ := h.split hw hsplit
  exact ⟨pre, hclosed ▸ st.closed_isPrefix⟩

end Stage

theorem OnStage.inOrder {st : Stage} {s : System} (h : OnStage st s) : InOrder s where
  session := h.board.word.isPrefix
  framed := h.board.framed
  unsubscribed := by
    intro before after hsplit
    refine ⟨?_, ?_⟩
    · cases hmain : s.main with
      | none => rfl
      | some pc =>
          exact absurd (h.main pc hmain).1 (h.board.word.not_open (by simp [closingWord]) hsplit)
    · obtain ⟨pre, hpre⟩ := h.board.word.behind (by simp [closingWord]) hsplit
      rcases pre with _ | ⟨w, pre⟩
      · exact (List.cons_prefix_cons.mp hpre).2
      · have hmem := (List.cons_prefix_cons.mp hpre).2.subset
          (List.mem_append_right pre (List.mem_cons_self ..))
        simp at hmem
  disconnected := by
    intro before after hsplit
    obtain ⟨pre, hpre⟩ := h.board.word.behind (by simp [closingWord]) hsplit
    rcases pre with _ | ⟨w₁, _ | ⟨w₂, _ | ⟨w₃, pre⟩⟩⟩ <;> simp [closingWord] at hpre
    exact hpre.2.2

/-- The task that makes its next call stands at `Error_Handler`. -/
def System.Enters (s : System) : Action → Prop
  | .main _ => s.main = some .errorHandler
  | .link _ => s.link = some .errorHandler
  | .button _ => s.button = some (.close .errorHandler)

/-- That call locks the kernel. -/
theorem System.Enters.step {s s' : System} {act : Action} (h : s.Enters act)
    (hstep : s.step act = some s') : s' = s.halt := by
  by_cases hlocked : s.locked = true
  · simp [System.step, hlocked] at hstep
  cases act with
  | main a =>
      have hpc : s.main = some .errorHandler := h
      rw [System.step, if_neg hlocked, System.stepMain, hpc, Option.bind_some, if_pos rfl]
        at hstep
      exact (Option.some.inj hstep).symm
  | link a =>
      have hpc : s.link = some .errorHandler := h
      rw [System.step, if_neg hlocked, System.stepLink, hpc, Option.bind_some, if_pos rfl]
        at hstep
      exact (Option.some.inj hstep).symm
  | button a =>
      have hpc : s.button = some (.close .errorHandler) := h
      rw [System.step, if_neg hlocked, System.stepButton, hpc, Option.bind_some, if_pos rfl]
        at hstep
      exact (Option.some.inj hstep).symm

/-- In a locked kernel no task makes a call. -/
theorem run_locked {s s' : System} {acts : List Action} (hlocked : s.locked = true)
    (hrun : Machine.run System.step s acts = some s') : acts = [] ∧ s' = s := by
  cases acts with
  | nil => exact ⟨rfl, (Option.some.inj hrun).symm⟩
  | cons act acts =>
      obtain ⟨s₁, hstep, -⟩ := Option.bind_eq_some_iff.mp hrun
      simp [System.step, hlocked] at hstep

/-- **The packets are in order under any scheduler.** After every run of the
three tasks, whatever the calls are answered, the packets handed over are a
prefix of CONNECT, SUBSCRIBE, PUBLISH(connected), any packets of the loop,
UNSUBSCRIBE, PUBLISH(disconnected), DISCONNECT; nothing of `Main_Thread`
follows the UNSUBSCRIBE and nothing at all the DISCONNECT. And when any task
that stands at `Error_Handler` makes its call, no call of any task follows,
and nothing more has been handed over. -/
theorem packets_in_order {acts : List Action} {s : System}
    (hrun : Machine.run System.step System.init acts = some s) :
    InOrder s ∧ ∀ acts₁ act acts₂ s₁, acts = acts₁ ++ act :: acts₂ →
      Machine.run System.step System.init acts₁ = some s₁ → s₁.Enters act →
      acts₂ = [] ∧ s.board.writes = s₁.board.writes := by
  refine ⟨?_, ?_⟩
  · obtain ⟨st, h⟩ := Machine.run_invariant (fun s => ∃ st, OnStage st s)
      (fun _ _ _ _ h hstep => OnStage.step h hstep) ⟨_, OnStage.init⟩
      (Machine.along_of_forall (fun _ _ _ => trivial) _) hrun
    exact h.inOrder
  · rintro acts₁ act acts₂ s₁ rfl hrun₁ henters
    rw [Machine.run_append, hrun₁, Option.bind_some, Machine.run_cons] at hrun
    obtain ⟨s₂, hstep, hrest⟩ := Option.bind_eq_some_iff.mp hrun
    obtain rfl := henters.step hstep
    obtain ⟨hnil, rfl⟩ := run_locked rfl hrest
    exact ⟨hnil, rfl⟩

/-- A button pressed in the loop, no answer to the UNSUBSCRIBE, and so the
end of the program. -/
def buttonCalls : List Action :=
  [.button (.int 1), .button .void, .button .void, .button .void, .button .void,
    .button (.recv (.error (-1) minusOne_neg)), .button .void]

theorem packets_in_order_button :
    ∃ s, Machine.run System.step System.init
        (bootCalls ++ openingCalls connackDelivery subackDelivery ++ buttonCalls) = some s ∧
      s.board.writes = [.connect, .subscribe, .connected, .unsubscribe] ∧ s.locked = true ∧
      InOrder s ∧ ∀ acts₁ act acts₂ s₁,
        bootCalls ++ openingCalls connackDelivery subackDelivery ++ buttonCalls
          = acts₁ ++ act :: acts₂ →
        Machine.run System.step System.init acts₁ = some s₁ → s₁.Enters act →
        acts₂ = [] ∧ s.board.writes = s₁.board.writes := by
  obtain ⟨b, p₁, p₂, p₃, -, hopening, hlog⟩ := session_opens (fun _ _ => True) connackDelivery
    subackDelivery (by decide +kernel) (by decide +kernel) (fun _ => trivial)
    (fun _ _ => trivial) (fun _ => trivial) (fun _ _ => trivial)
  obtain ⟨packet, hwrite, -⟩ := b.write_unsubscribe
  obtain ⟨b', hread, -, -, hlog', -⟩ :=
    ({ b with packetId := mqttGeneratePacketId b.packetId }.record
      (.wrote .unsubscribe packet)).read_delivery (.nothing (-1) minusOne_neg)
  simp only [Delivery.recv, Delivery.value] at hread
  have hbutton : Machine.run System.step { opening .read b with button := some .b1Read }
      buttonCalls = some
        { board := b'.dark
          main := none, link := some .ethLinkStatus
          button := some (.close .errorHandler), locked := true } := by
    simp [buttonCalls, System.step, System.stepButton, buttonStep, closeStep, opening, hwrite,
      hread, System.halt]
  have hrun := Machine.run_append System.step System.init
    (bootCalls ++ openingCalls connackDelivery subackDelivery) buttonCalls
  rw [hopening, Option.bind_some, hbutton] at hrun
  refine ⟨_, hrun, ?_, rfl, packets_in_order hrun⟩
  rw [Board.writes, show b'.dark.log = b'.log from rfl, hlog', Board.record_log, hlog]
  rfl

end NucleoMqtt.App
