import NucleoMqtt.App.Board
import NucleoMqtt.Mqtt.PacketId
import NucleoMqtt.Mqtt.Segmentation

/-!
# App — what the board's calls do

`Delivery` is what the broker and the transport can give one read: nothing,
with a negative code, or one whole packet. `read_delivery` and the `write`
lemmas say what each call leaves of the board, so that nothing above has to
look into the client. The commands are compared with the buffer, and
`commandIn_of_read` is why that is sound: after an accepted packet the
buffer compares equal with a command exactly if the packet is a PUBLISH of
it, whatever was in the buffer before.
-/

namespace NucleoMqtt.App

open NucleoMqtt.Lib NucleoMqtt.Spec NucleoMqtt.Mqtt

/-! ## Deliveries -/

/-- What one read is given: no packet, or one whole well-formed packet. -/
inductive Delivery where
  | nothing (code : Int) (neg : code < 0)
  | packet (p : SentPacket RECV_BUF_SIZE)

namespace Delivery

def recv : Delivery → Recv RECV_BUF_SIZE
  | nothing code neg => .error code neg
  | packet p => p.alone.recv

/-- The value `MQTT_Read_Packet` returns. -/
def value : Delivery → Int
  | nothing code _ => code
  | packet p => (answer p.packet).1

/-- The command in the payload of a PUBLISH, cut at its first NUL. -/
def command : Delivery → Option Command
  | nothing _ _ => none
  | packet p =>
      match p.packet with
      | .publish q => Command.ofText (cString q.payload)
      | _ => none

/-- A read with a negative value brings no command. -/
theorem command_of_neg {d : Delivery} (h : d.value < 0) : d.command = none := by
  cases d with
  | nothing code neg => rfl
  | packet p =>
      obtain ⟨packet, wellFormed, fits⟩ := p
      cases packet with
      | publish q =>
          have : (0 : Int) ≤ (BrokerPacket.publish q).encode.length := by omega
          exact absurd h (Int.not_lt.mpr this)
      | _ => rfl

end Delivery

/-! ## Commands in the buffer -/

theorem Command.text_no_nul (c : Command) : 0 ∉ c.text := by
  obtain ⟨led, on⟩ := c
  cases led <;> cases on <;> decide

/-- Every command starts with an `L`. -/
theorem Command.text_head (c : Command) : ∃ tail, c.text = 76 :: tail := by
  obtain ⟨led, on⟩ := c
  exact ⟨_, rfl⟩

/-- In front of a NUL, the buffer holds a command as a string. -/
theorem commandIn_string {buf : Block UInt8 RECV_BUF_SIZE} {xs rest : List UInt8}
    (h : buf.cells = xs ++ 0 :: rest) : commandIn buf = Command.ofText (cString xs) := by
  have hcmp (c : Command) : strcmpEq buf c.text = decide (cString xs = c.text) := by
    rw [Bool.eq_iff_iff, decide_eq_true_iff, strcmpEq, List.isPrefixOf_iff_prefix, h,
      prefix_iff_cString c.text_no_nul]
  simp only [commandIn, Command.ofText, hcmp]

/-- A buffer that starts with another byte holds no command. -/
theorem commandIn_none {buf : Block UInt8 RECV_BUF_SIZE} {c : UInt8} {rest : List UInt8}
    (h : buf.cells = c :: rest) (hc : c ≠ 76) : commandIn buf = none := by
  have hcmp (cmd : Command) : strcmpEq buf cmd.text = false := by
    obtain ⟨tail, htail⟩ := cmd.text_head
    rw [strcmpEq, h, htail, List.cons_append, List.isPrefixOf_cons_cons]
    simp [Ne.symm hc]
  simp only [commandIn, hcmp]
  exact List.find?_eq_none.mpr (fun _ _ => by simp)

/-- **The buffer after an accepted packet** holds the command of the packet,
if it is a PUBLISH of one, and otherwise none. -/
theorem commandIn_of_read {b b' : Block UInt8 RECV_BUF_SIZE} (p : SentPacket RECV_BUF_SIZE)
    {v : Int} (hrun : mqttReadPacket b p.alone.recv = some (v, b')) (hv : 0 ≤ v) :
    commandIn b' = (Delivery.packet p).command := by
  obtain ⟨packet, wellFormed, fits⟩ := p
  -- an acknowledgement stays in the buffer as it came, and no type byte is an `L`
  have hack (ht : packetType packet.header ≠ typePublish) (hL : packet.header ≠ 76) :
      commandIn b' = none := by
    have hcells : b'.cells = packet.encode ++ b.cells.drop packet.encode.length := by
      rw [buffer_of_readPacket packet.encode_head ht hrun]
      rfl
    exact commandIn_none hcells hL
  cases packet with
  | publish q =>
      obtain ⟨hq, hqos, htopic, hprops⟩ := wellFormed
      obtain ⟨off, hoff, hle, hdrop⟩ := payloadOffset_publish hq hqos htopic hprops
      obtain ⟨b'', hrun', hcells⟩ := readPacket_publish b fits
        (Nat.lt_of_le_of_lt fits recvBufSize_lt) (BrokerPacket.publish q).encode_head
        (packetType_publish hq) hoff hle
      obtain ⟨-, rfl⟩ := Prod.mk.inj (Option.some.inj (hrun.symm.trans hrun'))
      rw [show (BrokerPacket.publish q).encode = q.encode from rfl, hdrop] at hcells
      exact commandIn_string hcells
  | connack | suback | unsuback | pingresp =>
      apply hack
      all_goals
        simp only [BrokerPacket.header]
        decide
  | other header body =>
      have hrefused := readPacket_unknown b fits
        (BrokerPacket.other header body).encode_head (packetType_other wellFormed)
      obtain ⟨hminus, -⟩ := Prod.mk.inj (Option.some.inj (hrun.symm.trans hrefused))
      rw [hminus] at hv
      exact absurd hv (by decide)

namespace Board

/-- **One read**: the value is the delivery's, and once it is accepted the
buffer compares equal with the delivery's command and no other. -/
theorem read_delivery (b : Board) (d : Delivery) :
    ∃ b', b.read d.recv = some (d.value, b') ∧ b'.packetId = b.packetId ∧ b'.leds = b.leds ∧
      b'.log = b.log ++ [.read d.recv d.value] ∧
      (0 ≤ d.value → commandIn b'.buf = d.command) := by
  cases d with
  | nothing code neg =>
      have hrun : mqttReadPacket b.buf (.error code neg) = some (code, b.buf) := by
        rw [mqttReadPacket, if_pos (by exact neg)]
        rfl
      refine ⟨b.record (.read (.error code neg) code), ?_, rfl, rfl, rfl,
        fun h => absurd neg (Int.not_lt.mpr h)⟩
      rw [read, Delivery.recv, hrun]
      rfl
  | packet p =>
      obtain ⟨buf, hrun⟩ := verdict_fst (verdict_encode recvBufSize_lt p.wellFormed b.buf p.fits)
      have hrun' : mqttReadPacket b.buf p.alone.recv = some ((answer p.packet).1, buf) := hrun
      refine ⟨{ b with buf := buf }.record (.read p.alone.recv (answer p.packet).1), ?_, rfl,
        rfl, rfl, commandIn_of_read p hrun'⟩
      rw [read, Delivery.recv, hrun']
      rfl

/-- **One PUBLISH**, of any message that leaves room for the Remaining Length. -/
theorem publish_eq (b : Board) (w : Write) {msg : List UInt8} (h : msg.length ≤ 65535) :
    b.publish w msg = some (b.record (.wrote w (publishOf PUBLIC_TOPIC msg).encode)) := by
  have htopic : PUBLIC_TOPIC.length = 15 := rfl
  obtain ⟨handed, hrun, -, hcells⟩ := mqttWritePublish_eq PUBLIC_TOPIC msg (by
    simp only [htopic, maxRemainingLength]
    omega)
  rw [publish, hrun, Option.map_some, hand, hcells]

theorem write_connect (b : Board) :
    ∃ packet, b.write .connect = some (b.record (.wrote .connect packet)) := by
  have hsome : (mqttWriteConnect (CLIENT_ID ++ [0]) (CLIENT_ID.length + 1) KEEP_ALIVE).isSome := by
    decide +kernel
  obtain ⟨h, hrun⟩ := Option.isSome_iff_exists.mp hsome
  refine ⟨h.buf.cells, ?_⟩
  rw [write, hrun]
  rfl

theorem write_connected (b : Board) :
    b.write .connected = some
      (b.record (.wrote .connected (publishOf PUBLIC_TOPIC MSG_CONNECTED).encode)) := by
  rw [write]
  exact publish_eq b _ (by decide)

theorem write_confirm (b : Board) (c : Command) :
    b.write (.confirm c) = some
      (b.record (.wrote (.confirm c) (publishOf PUBLIC_TOPIC c.confirmation).encode)) := by
  have hlen : c.confirmation.length ≤ 65535 := by
    obtain ⟨led, on⟩ := c
    cases led <;> cases on <;> decide
  rw [write]
  exact publish_eq b _ hlen

theorem write_date (b : Board) (date : List UInt8) (h : date.length < 30) :
    b.write (.date date) = some
      (b.record (.wrote (.date date) (publishOf PUBLIC_TOPIC date).encode)) := by
  rw [write]
  exact publish_eq b _ (by omega)

theorem write_pingreq (b : Board) :
    b.write .pingreq = some (b.record (.wrote .pingreq [0xC0, 0x00])) := rfl

/-- **A SUBSCRIBE** carries the counter's next value. -/
theorem write_subscribe (b : Board) :
    ∃ packet, b.write .subscribe = some
        ({ b with packetId := mqttGeneratePacketId b.packetId }.record
          (.wrote .subscribe packet)) ∧
      wireId packet = some (wireValue (mqttGeneratePacketId b.packetId)) := by
  obtain ⟨h, hrun, hid⟩ := FilterRequest.write_eq ⟨true, SECRET_TOPIC, by decide⟩ b.packetId
  refine ⟨h.buf.cells, ?_, hid⟩
  rw [FilterRequest.write, if_pos rfl] at hrun
  rw [write, hrun]
  rfl

/-- **An UNSUBSCRIBE** carries the counter's next value. -/
theorem write_unsubscribe (b : Board) :
    ∃ packet, b.write .unsubscribe = some
        ({ b with packetId := mqttGeneratePacketId b.packetId }.record
          (.wrote .unsubscribe packet)) ∧
      wireId packet = some (wireValue (mqttGeneratePacketId b.packetId)) := by
  obtain ⟨h, hrun, hid⟩ := FilterRequest.write_eq ⟨false, SECRET_TOPIC, by decide⟩ b.packetId
  refine ⟨h.buf.cells, ?_, hid⟩
  rw [FilterRequest.write, if_neg (by decide)] at hrun
  rw [write, hrun]
  rfl

end Board

end NucleoMqtt.App
