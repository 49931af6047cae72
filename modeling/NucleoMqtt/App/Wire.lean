import NucleoMqtt.App.Order
import NucleoMqtt.Spec.Client

/-!
# App — what the broker reads

The bytes handed to `MQTT_Write_Packet` over a whole run, one behind the
other, are what a broker gets. `Write.packet` says what each call of the
tasks means, with the identifiers 1 and 2 for the two calls that take one;
`Told` is the invariant that every packet in the log is the encoding of
that, and that the counter has moved once for each identifier taken. The
stages say how many that are at a call that takes the next.
-/

namespace NucleoMqtt.App

open NucleoMqtt.Lib NucleoMqtt.Spec NucleoMqtt.Mqtt

/-! ## What the calls mean -/

/-- What each call asks the broker for. -/
def Write.packet : Write → ClientPacket
  | .connect => .connect (connectOf CLIENT_ID 60)
  | .subscribe => .subscribe (requestOf 1 (SECRET_TOPIC, 0))
  | .connected => .publish (publishOf PUBLIC_TOPIC MSG_CONNECTED)
  | .pingreq => .pingreq
  | .confirm c => .publish (publishOf PUBLIC_TOPIC c.confirmation)
  | .date text => .publish (publishOf PUBLIC_TOPIC text)
  | .unsubscribe => .unsubscribe (requestOf 2 SECRET_TOPIC)
  | .disconnected => .publish (publishOf PUBLIC_TOPIC MSG_DISCONNECTED)
  | .disconnect => .disconnect

/-- The calls that take an identifier. -/
def Write.takesId : Write → Bool
  | .subscribe | .unsubscribe => true
  | _ => false

/-- The bytes an event puts into the connection. -/
def Event.bytes : Event → List UInt8
  | .read _ _ => []
  | .wrote _ packet => packet

/-- All bytes handed to the transport so far. -/
def Board.stream (b : Board) : List UInt8 := b.log.flatMap Event.bytes

/-- A message of the board is short. -/
theorem publishPacket_wellFormed {msg : List UInt8} (h : msg.length ≤ 65535) :
    (ClientPacket.publish (publishOf PUBLIC_TOPIC msg)).WellFormed := by
  have htopic : PUBLIC_TOPIC.length = 15 := rfl
  refine publishOf_wellFormed (by rw [htopic]; decide) ?_
  rw [htopic, maxRemainingLength]
  omega

/-- Every call asks for something the protocol allows. -/
theorem Write.packet_wellFormed {w : Write} (h : ∀ text, w = .date text → text.length < 30) :
    w.packet.WellFormed := by
  cases w with
  | connect => exact connectOf_wellFormed (by decide) (by decide)
  | subscribe =>
      refine ⟨requestOf_wellFormed (by decide) (by decide), ?_⟩
      intro s hs
      rw [requestOf, List.mem_singleton] at hs
      rw [hs]
      decide
  | unsubscribe =>
      refine ⟨requestOf_wellFormed (by decide) (by decide), ?_⟩
      intro s hs
      rw [requestOf, List.mem_singleton] at hs
      rw [hs]
      decide
  | connected => exact publishPacket_wellFormed (show MSG_CONNECTED.length ≤ 65535 by decide)
  | disconnected => exact publishPacket_wellFormed (show MSG_DISCONNECTED.length ≤ 65535 by decide)
  | confirm c =>
      refine publishPacket_wellFormed ?_
      obtain ⟨led, on⟩ := c
      cases led <;> cases on <;> decide
  | date text =>
      have := h text rfl
      exact publishPacket_wellFormed (by omega)
  | pingreq | disconnect => trivial

/-! ## One write -/

/-- A filter writer hands over the request with its identifier. -/
theorem filterBody_request {α : Type} {enc : α → List UInt8} (item : α)
    {topic options : List UInt8} (packetIdentifier : Int) {i : Nat}
    (hid : packetIdBytes packetIdentifier = be16 i)
    (hitem : enc item = str topic ++ options) :
    filterBody packetIdentifier topic options = (requestOf i item).body enc := by
  rw [filterBody, requestOf_body, hid, hitem, List.append_assoc]

/-- **Every write hands over the encoding of what the call means.** -/
theorem Board.write_packet {b b' : Board} {w : Write} (h : b.write w = some b')
    (hdate : ∀ text, w = .date text → text.length < 30)
    (hsub : w = .subscribe → b.packetId = 0) (hunsub : w = .unsubscribe → b.packetId = 1) :
    b'.log = b.log ++ [.wrote w w.packet.encode] ∧
      b'.packetId = if w.takesId then b.packetId + 1 else b.packetId := by
  cases w with
  | connect =>
      obtain ⟨handed, hrun, rfl⟩ := Option.map_eq_some_iff.mp h
      obtain ⟨handed', hrun', -, hcells⟩ := mqttWriteConnect_eq CLIENT_ID 60 (by decide)
      obtain rfl := Option.some.inj (hrun.symm.trans hrun')
      refine ⟨?_, rfl⟩
      rw [hand, record_log, hcells]
      rfl
  | subscribe =>
      obtain ⟨⟨handed, packetId⟩, hrun, rfl⟩ := Option.map_eq_some_iff.mp h
      obtain ⟨handed', hrun', heq⟩ := Option.map_eq_some_iff.mp hrun
      obtain ⟨handed'', hrun'', -, hcells⟩ := writeFilterPacket_eq SUBSCRIBE_MIN_SIZE 0x82
        [0b00000000] SECRET_TOPIC (mqttGeneratePacketId b.packetId) rfl (by decide)
      obtain rfl := Option.some.inj (hrun'.symm.trans hrun'')
      cases heq
      rw [hsub rfl] at hcells ⊢
      have hitem : encodeSubscription (SECRET_TOPIC, 0) = str SECRET_TOPIC ++ [0] := rfl
      have hbody := filterBody_request (i := 1) (SECRET_TOPIC, 0) (mqttGeneratePacketId 0) rfl hitem
      refine ⟨?_, rfl⟩
      show b.log ++ [.wrote .subscribe handed.buf.cells] = _
      rw [hcells, hbody]
      rfl
  | unsubscribe =>
      obtain ⟨⟨handed, packetId⟩, hrun, rfl⟩ := Option.map_eq_some_iff.mp h
      obtain ⟨handed', hrun', heq⟩ := Option.map_eq_some_iff.mp hrun
      obtain ⟨handed'', hrun'', -, hcells⟩ := writeFilterPacket_eq UNSUBSCRIBE_MIN_SIZE 0xA2
        [] SECRET_TOPIC (mqttGeneratePacketId b.packetId) rfl (by decide)
      obtain rfl := Option.some.inj (hrun'.symm.trans hrun'')
      cases heq
      rw [hunsub rfl] at hcells ⊢
      have hitem : str SECRET_TOPIC = str SECRET_TOPIC ++ [] := (List.append_nil _).symm
      have hbody := filterBody_request (i := 2) SECRET_TOPIC (mqttGeneratePacketId 1) rfl hitem
      refine ⟨?_, rfl⟩
      show b.log ++ [.wrote .unsubscribe handed.buf.cells] = _
      rw [hcells, hbody]
      rfl
  | connected | disconnected =>
      rw [Board.write, b.publish_eq _ (by decide)] at h
      cases h
      exact ⟨rfl, rfl⟩
  | confirm c =>
      rw [b.write_confirm c] at h
      cases h
      exact ⟨rfl, rfl⟩
  | date text =>
      rw [b.write_date text (hdate text rfl)] at h
      cases h
      exact ⟨rfl, rfl⟩
  | pingreq | disconnect =>
      cases h
      rw [Write.packet, ClientPacket.encode, frame_nil]
      exact ⟨rfl, rfl⟩

/-! ## The identifiers taken -/

/-- How many identifiers a stage has behind it. -/
def Stage.ids : Stage → Nat
  | booted | connecting => 0
  | subscribing | looping => 1
  | _ => 2

/-- The packets handed over at a stage have taken that many. -/
theorem Stage.Word.ids {st : Stage} {ws : List Write} (h : st.Word ws) :
    (ws.filter Write.takesId).length = st.ids := by
  obtain ⟨mid, hmid, hopened, rfl⟩ := h
  have hnone : mid.filter Write.takesId = [] := by
    refine List.filter_eq_nil_iff.mpr fun w hw => ?_
    have := hmid w hw
    revert this
    cases w <;> simp [Write.OfLoop, Write.takesId]
  rw [List.filter_append, List.filter_append, hnone, List.append_nil]
  cases st <;> rfl

/-! ## The invariant -/

/-- Every packet in the log says what its call means, and the counter has
moved once for each identifier. -/
structure Told (b : Board) : Prop where
  meant : ∀ w packet, .wrote w packet ∈ b.log → packet = w.packet.encode ∧ w.packet.WellFormed
  counter : b.packetId = (b.writes.filter Write.takesId).length

/-- The bytes of a log whose packets say what they mean. -/
theorem flatMap_bytes {log : List Event}
    (h : ∀ w packet, .wrote w packet ∈ log → packet = w.packet.encode) :
    log.flatMap Event.bytes
      = ((log.filterMap Event.write?).map Write.packet).flatMap ClientPacket.encode := by
  induction log with
  | nil => rfl
  | cons e log ih =>
      have hrest := ih fun w packet hmem => h w packet (List.mem_cons_of_mem e hmem)
      cases e with
      | read r v => exact hrest
      | wrote w packet =>
          obtain rfl := h w packet (List.mem_cons_self ..)
          rw [List.flatMap_cons, hrest]
          rfl

namespace Told

theorem quiet {b b' : Board} (h : Told b) (hquiet : b.Quiet b')
    (hid : b'.packetId = b.packetId) : Told b' := by
  rcases hquiet with hlog | ⟨r, v, hlog⟩
  · refine ⟨?_, ?_⟩
    · rw [hlog]
      exact h.meant
    · rw [hid, Board.writes, hlog]
      exact h.counter
  · refine ⟨?_, ?_⟩
    · intro w packet hmem
      rw [hlog] at hmem
      rcases List.mem_append.mp hmem with hmem | hmem
      · exact h.meant w packet hmem
      · cases List.mem_singleton.mp hmem
    · have hwrites : b'.writes = b.writes := by
        simp [Board.writes, hlog, List.filterMap_append, Event.write?]
      rw [hid, hwrites]
      exact h.counter

/-- A write at its stage finds the counter where its packet has it. -/
theorem write {st st' : Stage} {b b' : Board} {w : Write} (h : Told b) (hst : st.At b)
    (hstep : Stage.Step st w st') (hwrite : b.write w = some b')
    (hdate : ∀ text, w = .date text → text.length < 30) : Told b' := by
  have hcounter : b.packetId = st.ids := by
    rw [h.counter, hst.word.ids]
  have hsub : w = .subscribe → b.packetId = 0 := by
    rintro rfl
    cases hstep with
    | subscribe => exact hcounter
    | loop hw => exact hw.elim
  have hunsub : w = .unsubscribe → b.packetId = 1 := by
    rintro rfl
    cases hstep with
    | unsubscribe => exact hcounter
    | loop hw => exact hw.elim
  obtain ⟨hlog, hid⟩ := Board.write_packet hwrite hdate hsub hunsub
  refine ⟨?_, ?_⟩
  · intro w' packet hmem
    rw [hlog] at hmem
    rcases List.mem_append.mp hmem with hmem | hmem
    · exact h.meant w' packet hmem
    · cases List.mem_singleton.mp hmem
      exact ⟨rfl, Write.packet_wellFormed hdate⟩
  · have hwrites : b'.writes = b.writes ++ [w] := by
      simp [Board.writes, hlog, List.filterMap_append, Event.write?]
    rw [hid, hwrites, h.counter, List.filter_append, List.length_append]
    cases htakes : w.takesId <;> simp [htakes]

/-- **The broker reads the calls back** off the bytes. -/
theorem readStream {b : Board} (h : Told b) :
    ClientPacket.readStream b.stream = some (b.writes.map Write.packet) := by
  rw [Board.stream, flatMap_bytes fun w packet hmem => (h.meant w packet hmem).1]
  refine ClientPacket.readStream_encode fun p hp => ?_
  obtain ⟨w, hw, rfl⟩ := List.mem_map.mp hp
  obtain ⟨e, he, hwrite⟩ := List.mem_filterMap.mp hw
  cases e with
  | read r v => cases hwrite
  | wrote w' packet =>
      cases hwrite
      exact (h.meant w packet he).2

end Told

/-! ## Runs -/

/-- A packet `Main_Thread` hands over is the next of its stage. -/
theorem MainPc.Writes.step {pc pc' : MainPc} {w : Write} (h : pc.Writes w pc') :
    Stage.Step pc.stage w pc'.stage := by
  cases h with
  | connect => exact .connect
  | subscribe => exact .subscribe
  | connected => exact .connected
  | pingreq | confirm c | date text => exact .loop trivial

theorem MainPc.Writes.dated {pc pc' : MainPc} {w : Write} (h : pc.Writes w pc')
    (hdated : pc.Dated) : ∀ text, w = .date text → text.length < 30 := by
  rintro text rfl
  cases h
  exact hdated

theorem ClosePc.Writes.step {pc pc' : ClosePc} {w : Write} (h : pc.Writes w pc') :
    Stage.Step pc.stage w pc'.stage ∧ ∀ text, w ≠ .date text := by
  cases h with
  | unsubscribe => exact ⟨.unsubscribe, fun _ => by simp⟩
  | disconnected => exact ⟨.disconnected, fun _ => by simp⟩
  | disconnect => exact ⟨.disconnect, fun _ => by simp⟩

/-- **One call of any task** tells the broker what it means. -/
theorem Told.step {st : Stage} {s s' : System} {act : Action} (h : Told s.board)
    (hst : OnStage st s) (hstep : s.step act = some s') : Told s'.board := by
  cases System.step_moves hstep with
  | halt => exact h.quiet (Or.inl rfl) rfl
  | @main a pc pc' board hpc hne hmain =>
      obtain ⟨-, hdated, hstage⟩ := hst.main pc hpc
      obtain rfl := hstage.resolve_left hne
      obtain ⟨hlog, hid, -⟩ | ⟨w, hw, hwrite⟩ | ⟨r, v, -, hread, -⟩ := mainStep_cases hmain
      · exact h.quiet (Or.inl hlog) hid
      · exact h.write hst.board hw.step hwrite (hw.dated hdated)
      · exact h.quiet (Board.read_quiet hread) (Board.read_cases hread).2
  | link pc' => exact h
  | @close a c c' board hc hne hclose =>
      obtain ⟨-, hstage⟩ := hst.closing c hc
      obtain rfl := hstage.resolve_left hne
      obtain ⟨w, hw, hwrite⟩ | ⟨-, r, v, -, hread, -⟩ | ⟨-, -, rfl⟩ := closeStep_cases hclose
      · obtain ⟨hnext, hdate⟩ := hw.step
        exact h.write hst.board hnext hwrite fun text heq => absurd heq (hdate text)
      · exact h.quiet (Board.read_quiet hread) (Board.read_cases hread).2
      · exact h
  | terminate hpc => exact h
  | wait hpc hopen hopen' => exact h

/-- **What the broker reads is what the tasks mean**, under any scheduler.
After every run of the three tasks, whatever the calls are answered, the
bytes handed to the transport are a stream of whole MQTT packets, and the
reference decoder finds in it the requests of the calls, in order. -/
theorem session_stream {acts : List Action} {s : System}
    (hrun : Machine.run System.step System.init acts = some s) :
    ClientPacket.readStream s.board.stream = some (s.board.writes.map Write.packet) := by
  obtain ⟨⟨-, -⟩, htold⟩ := Machine.run_invariant
    (fun s => (∃ st, OnStage st s) ∧ Told s.board)
    (fun s i s' _ h hstep => by
      obtain ⟨⟨st, hst⟩, htold⟩ := h
      exact ⟨OnStage.step ⟨st, hst⟩ hstep, htold.step hst hstep⟩)
    ⟨⟨_, OnStage.init⟩, ⟨by rintro w packet ⟨⟩, rfl⟩⟩
    (Machine.along_of_forall (fun _ _ _ => trivial) _) hrun
  exact htold.readStream

/-- The session opened by a broker that answers at once. -/
theorem session_stream_opening :
    ∃ s, Machine.run System.step System.init
        (bootCalls ++ openingCalls connackDelivery subackDelivery) = some s ∧
      s.board.writes = [.connect, .subscribe, .connected] ∧
      ClientPacket.readStream s.board.stream = some (s.board.writes.map Write.packet) := by
  obtain ⟨b, p₁, p₂, p₃, -, hopening, hlog⟩ := session_opens (fun _ _ => True) connackDelivery
    subackDelivery (by decide +kernel) (by decide +kernel) (fun _ => trivial)
    (fun _ _ => trivial) (fun _ => trivial) (fun _ _ => trivial)
  refine ⟨_, hopening, ?_, session_stream hopening⟩
  show b.log.filterMap Event.write? = _
  rw [hlog]
  rfl

end NucleoMqtt.App
