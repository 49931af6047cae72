import NucleoMqtt.App.MainLoop
import NucleoMqtt.App.Session

/-!
# App — opening a session

The run from power-on to the endless loop, for any two deliveries that the
waits for CONNACK and SUBACK accept. With the right ones it is a
disciplined run. With a PUBLISH in place of the SUBACK it is a run too, and
shows what the waits do not look at.
-/

namespace NucleoMqtt.App

open NucleoMqtt.Lib NucleoMqtt.Spec NucleoMqtt.Mqtt

/-- The program from CONNECT to the creation of the button task. -/
def opening (pc : MainPc) (b : Board) : System :=
  { board := b, main := some pc, link := some .ethLinkStatus, button := none, locked := false }

/-- The calls before CONNECT, each as it should go. -/
def bootCalls : List Action :=
  [.main .void, .main .void, .main (.int 0), .main .void, .main (.int 0), .main .void,
    .main (.int 0), .main (.int 0), .main .void, .main (.int 0), .main (.int 0)]

/-- The calls from CONNECT on, with what the two waits are given. -/
def openingCalls (d₁ d₂ : Delivery) : List Action :=
  [.main .void, .main (.recv d₁.recv), .main .void, .main (.recv d₂.recv), .main .void,
    .main .void, .main .void]

theorem run_boot : Machine.run System.step System.init bootCalls
    = some (opening .writeConnect { System.init.board with leds := ⟨true, true, false⟩ }) := by
  rfl

theorem opening_step {pc pc' : MainPc} {a : Answer} {b b' : Board}
    (hstep : mainStep pc a b = some (pc', b')) (hne : pc ∉ [.errorHandler, .buttonThreadNew]) :
    (opening pc b).step (.main a) = some (opening pc' b') := by
  simp only [List.mem_cons, List.not_mem_nil, or_false, not_or] at hne
  simp [System.step, System.stepMain, opening, hstep, hne]

/-- A wait for an acknowledgement goes on behind any accepted delivery. -/
theorem mainStep_wait {pc pc' : MainPc} {b b' : Board} {d : Delivery}
    (hpc : mainStep pc (.recv d.recv) b = (b.read d.recv).map fun (value, b) =>
      (if value < 0 then .errorHandler else pc', b))
    (hread : b.read d.recv = some (d.value, b')) (hd : 0 ≤ d.value) :
    mainStep pc (.recv d.recv) b = some (pc', b') := by
  rw [hpc, hread, Option.map_some]
  simp [Int.not_lt.mpr hd]

/-- **Any two accepted deliveries open the session**, whatever they are. -/
theorem opening_run {ok : System → Action → Prop} (b : Board) {d₁ d₂ : Delivery}
    (h₁ : 0 ≤ d₁.value) (h₂ : 0 ≤ d₂.value) (hvoid : ∀ s, ok s (.main .void))
    (hok₁ : ∀ b', ok (opening .readConnack b') (.main (.recv d₁.recv)))
    (hok₂ : ∀ b', b'.packetId = mqttGeneratePacketId b.packetId →
      ok (opening .readSuback b') (.main (.recv d₂.recv))) :
    ∃ b' p₁ p₂ p₃,
      Machine.Along System.step ok (opening .writeConnect b) (openingCalls d₁ d₂) ∧
      Machine.run System.step (opening .writeConnect b) (openingCalls d₁ d₂)
        = some { opening .read b' with button := some .b1Read } ∧
      b'.log = b.log ++ [.wrote .connect p₁, .read d₁.recv d₁.value, .wrote .subscribe p₂,
        .read d₂.recv d₂.value, .wrote .connected p₃] := by
  obtain ⟨p₁, hconnect⟩ := b.write_connect
  obtain ⟨b₂, hread₁, hid₂, -, hlog₂, -⟩ := (b.record (.wrote .connect p₁)).read_delivery d₁
  obtain ⟨p₂, hsubscribe, -⟩ := b₂.write_subscribe
  rw [hid₂, Board.record_packetId] at hsubscribe
  obtain ⟨b₄, hread₂, hid₄, -, hlog₄, -⟩ :=
    ({ b₂ with packetId := mqttGeneratePacketId b.packetId }.record
      (.wrote .subscribe p₂)).read_delivery d₂
  have hconnected := b₄.write_connected
  have step₁ := opening_step (mainStep_write .writeConnect .readConnack rfl hconnect) (by decide)
  have wait₁ : mainStep .readConnack _ _ = some (.writeSubscribe, b₂) := mainStep_wait rfl hread₁ h₁
  have step₂ := opening_step wait₁ (by decide)
  have step₃ := opening_step (mainStep_write .writeSubscribe .readSuback rfl hsubscribe)
    (by decide)
  have wait₂ : mainStep .readSuback _ _ = some (.publishConnected, b₄) :=
    mainStep_wait rfl hread₂ h₂
  have step₄ := opening_step wait₂ (by decide)
  have step₅ := opening_step (mainStep_write .publishConnected .ld3On rfl hconnected) (by decide)
  have step₆ (b : Board) : (opening .ld3On b).step (.main .void)
      = some (opening .buttonThreadNew (b.setLed .ld3 true)) := opening_step rfl (by decide)
  have step₇ (b : Board) : (opening .buttonThreadNew b).step (.main .void)
      = some { opening .read b with button := some .b1Read } := rfl
  refine ⟨(b₄.record (.wrote .connected (publishOf PUBLIC_TOPIC MSG_CONNECTED).encode)).setLed
    .ld3 true, p₁, p₂, (publishOf PUBLIC_TOPIC MSG_CONNECTED).encode, ?_, ?_, ?_⟩
  · exact .cons (hvoid _) step₁ (.cons (hok₁ _) step₂ (.cons (hvoid _) step₃
      (.cons (hok₂ _ rfl) step₄ (.cons (hvoid _) step₅ (.cons (hvoid _) (step₆ _)
        (.cons (hvoid _) (step₇ _) trivial))))))
  · rw [openingCalls, Machine.run_step step₁, Machine.run_step step₂, Machine.run_step step₃,
      Machine.run_step step₄, Machine.run_step step₅, Machine.run_step (step₆ _),
      Machine.run_step (step₇ _), Machine.run_nil]
  · simp [Board.setLed, hlog₄, hlog₂]

/-- From power-on to the endless loop. -/
theorem session_opens (ok : System → Action → Prop) (d₁ d₂ : Delivery)
    (h₁ : 0 ≤ d₁.value) (h₂ : 0 ≤ d₂.value) (hvoid : ∀ s, ok s (.main .void))
    (hint : ∀ s v, ok s (.main (.int v)))
    (hok₁ : ∀ b', ok (opening .readConnack b') (.main (.recv d₁.recv)))
    (hok₂ : ∀ b', b'.packetId = mqttGeneratePacketId 0 →
      ok (opening .readSuback b') (.main (.recv d₂.recv))) :
    ∃ b' p₁ p₂ p₃,
      Machine.Along System.step ok System.init (bootCalls ++ openingCalls d₁ d₂) ∧
      Machine.run System.step System.init (bootCalls ++ openingCalls d₁ d₂)
        = some { opening .read b' with button := some .b1Read } ∧
      b'.log = [.wrote .connect p₁, .read d₁.recv d₁.value, .wrote .subscribe p₂,
        .read d₂.recv d₂.value, .wrote .connected p₃] := by
  obtain ⟨b', p₁, p₂, p₃, halong, hrun, hlog⟩ :=
    opening_run { System.init.board with leds := ⟨true, true, false⟩ } h₁ h₂ hvoid hok₁ hok₂
  have hboot : Machine.Along System.step ok System.init bootCalls :=
    Machine.along_of_forall (fun s i hi => by
      simp only [bootCalls, List.mem_cons, List.not_mem_nil, or_false] at hi
      rcases hi with rfl | rfl | rfl | rfl | rfl | rfl | rfl | rfl | rfl | rfl | rfl <;>
        first | exact hvoid s | exact hint s 0) _
  refine ⟨b', p₁, p₂, p₃, hboot.append run_boot halong, ?_, hlog⟩
  rw [Machine.run_append, run_boot, Option.bind_some, hrun]

/-- A CONNACK with Reason Code 0. -/
def connackDelivery : Delivery :=
  .packet { packet := .connack false 0 [], wellFormed := fun h => absurd rfl h,
            fits := by decide +kernel }

/-- The SUBACK for the first identifier. -/
def subackDelivery : Delivery :=
  .packet { packet := .suback 1 [] [0], wellFormed := ⟨by decide, by decide, by decide⟩,
            fits := by decide +kernel }

theorem session_disciplined_opening :
    ∃ s, Machine.run System.step System.init
        (bootCalls ++ openingCalls connackDelivery subackDelivery) = some s ∧ Disciplined s := by
  obtain ⟨b', -, -, -, halong, hrun, -⟩ := session_opens Awaited connackDelivery
    subackDelivery (by decide +kernel) (by decide +kernel) (fun _ => trivial) (fun _ _ => trivial)
    (fun b' pc hpc => by
      cases hpc
      exact ⟨connackDelivery, rfl, Or.inr ⟨_, rfl, false, [], rfl⟩⟩)
    (fun b' hid pc hpc => by
      cases hpc
      refine ⟨subackDelivery, rfl, Or.inr ⟨_, rfl, [], ?_⟩⟩
      show BrokerPacket.suback 1 [] [0] = .suback (wireValue b'.packetId) [] [0]
      rw [hid]
      rfl)
  exact ⟨_, hrun, session_disciplined halong hrun⟩

/-- Nothing is asked of the broker but whole packets. -/
def Delivered (_ : System) : Action → Prop
  | .main (.recv r) => ∃ d : Delivery, r = d.recv
  | .button (.recv r) => ∃ d : Delivery, r = d.recv
  | _ => True

/-- Two packets with the same bytes are of the same kind. -/
theorem SentPacket.header_eq {p q : SentPacket RECV_BUF_SIZE}
    (h : p.alone.recv = q.alone.recv) : p.packet.header = q.packet.header := by
  have hbytes : p.packet.encode = q.packet.encode := by
    injection h
  have hhead := congrArg (fun bytes => bytes[0]?) hbytes
  simp only [BrokerPacket.encode_head] at hhead
  exact Option.some.inj hhead

/-- A PUBLISH that comes before the SUBACK, as the protocol allows, opens
the session: the program says that it is connected, and enters the loop. -/
theorem session_not_disciplined_earlyPublish :
    ∃ s, Machine.Along System.step Delivered System.init
        (bootCalls ++ openingCalls connackDelivery ld1OnRound.first) ∧
      Machine.run System.step System.init
        (bootCalls ++ openingCalls connackDelivery ld1OnRound.first) = some s ∧
      ¬ Disciplined s := by
  obtain ⟨b', p₁, p₂, p₃, halong, hrun, hlog⟩ := session_opens Delivered
    connackDelivery ld1OnRound.first (by decide +kernel) (by decide +kernel)
    (fun _ => trivial) (fun _ _ => trivial) (fun _ => ⟨_, rfl⟩) (fun _ _ => ⟨_, rfl⟩)
  refine ⟨_, halong, hrun, fun h => ?_⟩
  obtain ⟨before, after, packet, packetId, p, properties, v, hsplit, -, -, hp, hmem⟩ :=
    h.loop .read rfl trivial
  have hmem' : Event.read p.alone.recv v ∈ b'.log := by
    have : (Event.read p.alone.recv v) ∈ before ++ Event.wrote .subscribe packet :: after := by
      simp [hmem]
    rwa [← hsplit] at this
  have hheader : p.packet.header = 0x90 := by rw [hp]; rfl
  rw [hlog] at hmem'
  simp only [List.mem_cons, List.not_mem_nil, or_false, reduceCtorEq, false_or,
    Event.read.injEq] at hmem'
  obtain ⟨hrecv, -⟩ | ⟨hrecv, -⟩ := hmem'
  · have := SentPacket.header_eq hrecv
    rw [hheader] at this
    cases this
  · have := SentPacket.header_eq hrecv
    rw [hheader] at this
    cases this

end NucleoMqtt.App
