import NucleoMqtt.App.Tasks
import NucleoMqtt.App.BoardSpec

/-!
# App — the discipline of a session

Three times the program waits for an acknowledgement: `Main_Thread` for
CONNACK and SUBACK, `Close_Program` for UNSUBACK. `Disciplined` is what the
waits are for: the log holds the acknowledgement before anything is done
that needs it. Each wait is one read, and the reader reports any packet it
accepts by a value that is not negative. `Awaited` says that a wait gets
the packet it is meant to get or one that stops the program.
-/

namespace NucleoMqtt.App

open NucleoMqtt.Lib NucleoMqtt.Spec NucleoMqtt.Mqtt

/-! ## What has been read -/

/-- A CONNACK with Reason Code 0 has been read. -/
def ConnackRead (log : List Event) : Prop :=
  ∃ (p : SentPacket RECV_BUF_SIZE) (sessionPresent : Bool) (properties : List UInt8) (v : Int),
    p.packet = .connack sessionPresent 0 properties ∧ .read p.alone.recv v ∈ log

/-- A SUBSCRIBE has been written behind the CONNACK, and since then a SUBACK
with Reason Code 0 has been read that carries its identifier. -/
def SubackRead (log : List Event) : Prop :=
  ∃ (before after : List Event) (packet : List UInt8) (packetId : Nat)
    (p : SentPacket RECV_BUF_SIZE) (properties : List UInt8) (v : Int),
    log = before ++ .wrote .subscribe packet :: after ∧ ConnackRead before ∧
      wireId packet = some packetId ∧ p.packet = .suback packetId properties [0] ∧
      .read p.alone.recv v ∈ after

/-- An UNSUBSCRIBE has been written, and since then an UNSUBACK has been
read that carries its identifier. -/
def UnsubackRead (log : List Event) : Prop :=
  ∃ (before after : List Event) (packet : List UInt8) (packetId : Nat)
    (p : SentPacket RECV_BUF_SIZE) (properties reasons : List UInt8) (v : Int),
    log = before ++ .wrote .unsubscribe packet :: after ∧
      wireId packet = some packetId ∧ p.packet = .unsuback packetId properties reasons ∧
      .read p.alone.recv v ∈ after

theorem ConnackRead.append {log : List Event} (h : ConnackRead log) (es : List Event) :
    ConnackRead (log ++ es) := by
  obtain ⟨p, sessionPresent, properties, v, hp, hmem⟩ := h
  exact ⟨p, sessionPresent, properties, v, hp, List.mem_append_left _ hmem⟩

theorem SubackRead.append {log : List Event} (h : SubackRead log) (es : List Event) :
    SubackRead (log ++ es) := by
  obtain ⟨before, after, packet, packetId, p, properties, v, rfl, hconnack, hid, hp, hmem⟩ := h
  exact ⟨before, after ++ es, packet, packetId, p, properties, v,
    by rw [List.append_assoc, List.cons_append], hconnack, hid, hp,
    List.mem_append_left _ hmem⟩

theorem UnsubackRead.append {log : List Event} (h : UnsubackRead log) (es : List Event) :
    UnsubackRead (log ++ es) := by
  obtain ⟨before, after, packet, packetId, p, properties, reasons, v, rfl, hid, hp, hmem⟩ := h
  exact ⟨before, after ++ es, packet, packetId, p, properties, reasons, v,
    by rw [List.append_assoc, List.cons_append], hid, hp, List.mem_append_left _ hmem⟩

/-! ## The discipline -/

/-- A packet handed over by one of the calls `ws`. -/
def Event.IsWrite (ws : List Write) : Event → Prop
  | .read _ _ => False
  | .wrote w _ => w ∈ ws

/-- Every packet that opens or closes the session is written behind the
acknowledgement it waits for. -/
structure Ordered (log : List Event) : Prop where
  subscribe : Machine.Guarded (Event.IsWrite [.subscribe]) ConnackRead log
  connected : Machine.Guarded (Event.IsWrite [.connected]) SubackRead log
  closing : Machine.Guarded (Event.IsWrite [.disconnected, .disconnect]) UnsubackRead log

/-- The calls of the endless loop. -/
def MainPc.InLoop : MainPc → Prop
  | .read | .writePingreq | .readAgain | .led _ | .publishLed _ | .rtcRead | .publishDate _ =>
      True
  | _ => False

/-- Session set-up and shutdown have advanced only on the acknowledgements
they wait for. -/
structure Disciplined (s : System) : Prop where
  ordered : Ordered s.board.log
  loop : ∀ pc, s.main = some pc → pc.InLoop → SubackRead s.board.log

/-! ## What a wait is given -/

/-- The deliveries that a read reports as a failure. -/
def Delivery.Refused : Delivery → Prop
  | nothing _ _ => True
  | packet p =>
      match p.packet with
      | .connack .. => p.packet.encode[3]?.getD 0 ≠ 0
      | .suback _ _ reasons => reasons.getLastD 0 ≠ 0
      | .unsuback _ _ reasons => reasons.getLastD 0 ≠ 0
      | .publish _ => False
      | .pingresp => False
      | .other _ _ => True

/-- The transport delivers a packet in `want`, or one that is refused. -/
def Awaits (want : BrokerPacket → Prop) (r : Recv RECV_BUF_SIZE) : Prop :=
  ∃ d : Delivery, r = d.recv ∧ (d.Refused ∨ ∃ p, d = .packet p ∧ want p.packet)

/-- The packet each wait of `Main_Thread` is meant for; the loop takes any. -/
def MainPc.Wants (b : Board) (p : BrokerPacket) : MainPc → Prop
  | .readConnack => ∃ sessionPresent properties, p = .connack sessionPresent 0 properties
  | .readSuback => ∃ properties, p = .suback (wireValue b.packetId) properties [0]
  | _ => True

/-- The packet the wait of `Close_Program` is meant for. -/
def ClosePc.Wants (b : Board) (p : BrokerPacket) : ClosePc → Prop
  | .readUnsuback =>
      ∃ properties reasons, p = .unsuback (wireValue b.packetId) properties reasons
  | _ => True

/-- Every read delivers nothing or one whole packet, and the reads of the
three waits no accepted packet but the one awaited. -/
def Awaited (s : System) : Action → Prop
  | .main (.recv r) => ∀ pc, s.main = some pc → Awaits (pc.Wants s.board ·) r
  | .button (.recv r) => ∀ pc, s.button = some (.close pc) → Awaits (pc.Wants s.board ·) r
  | _ => True

/-- **The refused deliveries are those with a negative value.** -/
theorem Delivery.value_neg_iff (d : Delivery) : d.value < 0 ↔ d.Refused := by
  cases d with
  | nothing code neg => exact iff_of_true neg trivial
  | packet p =>
      obtain ⟨packet, wellFormed, fits⟩ := p
      cases packet with
      | connack sessionPresent reason properties => exact accept_neg_iff _ _
      | publish q => exact iff_of_false (Int.not_lt.mpr (Int.natCast_nonneg _)) id
      | suback packetId properties reasons => exact accept_neg_iff _ _
      | unsuback packetId properties reasons => exact accept_neg_iff _ _
      | pingresp => exact iff_of_false (Int.not_lt.mpr (Int.natCast_nonneg _)) id
      | other header body => exact iff_of_true (show (-1 : Int) < 0 by decide) trivial

/-- An accepted read of a wait has got what the wait is meant for. -/
theorem Awaits.accepted {want : BrokerPacket → Prop} {r : Recv RECV_BUF_SIZE} {b b' : Board}
    {v : Int} (h : Awaits want r) (hread : b.read r = some (v, b')) (hv : 0 ≤ v) :
    ∃ p : SentPacket RECV_BUF_SIZE, r = p.alone.recv ∧ want p.packet := by
  obtain ⟨d, rfl, hrefused | ⟨p, rfl, hp⟩⟩ := h
  · obtain ⟨b'', hread', -⟩ := b.read_delivery d
    have hvalue : v = d.value := congrArg Prod.fst (Option.some.inj (hread.symm.trans hread'))
    have := d.value_neg_iff.mpr hrefused
    omega
  · exact ⟨p, rfl, hp⟩

end NucleoMqtt.App
