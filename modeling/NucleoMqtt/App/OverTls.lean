import NucleoMqtt.App.BoardSpec
import NucleoMqtt.Tls.Framing

/-!
# App — reads over TLS

The client takes what one `TLS_Read` hands out for one packet. A broker that
puts every packet in a TLS record of its own gets what it means: each read is
a `Delivery`, nothing or a whole packet, and the packets come in their order.
-/

namespace NucleoMqtt.App

open NucleoMqtt.Lib NucleoMqtt.Mqtt NucleoMqtt.Tls

/-- What a call of `TLS_Read` with the receive buffer has done to it. -/
def received (ret : Int) (out : List UInt8) : Option (Recv RECV_BUF_SIZE) :=
  if neg : ret < 0 then some (.error ret neg)
  else if fits : out.length ≤ RECV_BUF_SIZE then some (.data out fits)
  else none

/-- The board and the TLS context behind it. -/
structure Online where
  ssl : SslIn
  board : Board

namespace Online

/-- `Sw_MQTT_Read_Packet`, over a socket that answers so. -/
def step (c : Session) (s : Online) (turns : List Turn) : Option Online := do
  let (ret, out, ssl) ← sslRead c RECV_BUF_SIZE { s.ssl with turns := turns }
  let r ← received ret out
  let (_, board) ← s.board.read r
  return ⟨ssl, board⟩

/-- The peer has not closed the connection, by the calls of the socket. -/
def Open (s : Online) (turns : List Turn) : Prop := ¬ { s.ssl with turns := turns }.Closed

/-- The handshake is over, and nothing has been read of what comes next. -/
def start (wire : List UInt8) (b : Board) : Online := ⟨(Receiving.start wire).ssl, b⟩

end Online

/-- The packet of a delivery. -/
def Delivery.packet? : Delivery → Option (SentPacket RECV_BUF_SIZE)
  | .nothing _ _ => none
  | .packet p => some p

/-- The event of a read that is given this. -/
def Delivery.event (d : Delivery) : Event := .read d.recv d.value

/-- The bytes of packets, each in a record of its own. -/
def encodings (packets : List (SentPacket RECV_BUF_SIZE)) : List (List UInt8) :=
  packets.map (·.packet.encode)

theorem encodings_fit (packets : List (SentPacket RECV_BUF_SIZE)) :
    ∀ content ∈ encodings packets, content.length ≤ RECV_BUF_SIZE := by
  intro content hcontent
  obtain ⟨p, -, rfl⟩ := List.mem_map.mp hcontent
  exact p.fits

/-- **A read is a delivery**: nothing, or the next packet. -/
theorem Online.step_delivery {c : Session} {s s' : Online} {turns : List Turn} {fs : List Frame}
    {packets : List (SentPacket RECV_BUF_SIZE)} (hs : Aligned c s.ssl fs (encodings packets))
    (hopen : s.Open turns) (hstep : s.step c turns = some s') :
    ∃ d : Delivery, s'.board.log = s.board.log ++ [d.event] ∧
      ∃ fs' rest, d.packet?.toList ++ rest = packets ∧ Aligned c s'.ssl fs' (encodings rest) := by
  obtain ⟨⟨ret, out, ssl⟩, hread, hstep⟩ := Option.bind_eq_some_iff.mp hstep
  obtain ⟨r, hr, hstep⟩ := Option.bind_eq_some_iff.mp hstep
  obtain ⟨⟨v, board⟩, hboard, hs'⟩ := Option.bind_eq_some_iff.mp hstep
  cases hs'
  have hlog : ∀ d : Delivery, r = d.recv → board.log = s.board.log ++ [d.event] := by
    rintro d rfl
    obtain ⟨b', hb', -, -, hlog, -⟩ := s.board.read_delivery d
    rw [hboard] at hb'
    cases hb'
    exact hlog
  rcases sslRead_aligned (hs.turns turns) (encodings_fit packets) hread with
      ⟨hle, hs', hclosed⟩ | ⟨f, fs', rest, rfl, hpackets, hret, hs'⟩
  · have hzero : ret ≠ 0 := fun hzero => hopen (hclosed hzero)
    have hneg : ret < 0 := by omega
    rw [received, dif_pos hneg] at hr
    exact ⟨.nothing ret hneg, hlog _ (Option.some.inj hr).symm, fs, packets, rfl, hs'⟩
  · cases packets with
    | nil => cases hpackets
    | cons p packets =>
        obtain ⟨hout, hrest⟩ := List.cons.inj hpackets
        rw [received, dif_neg (by omega), ← hout, dif_pos p.fits] at hr
        refine ⟨.packet p, hlog _ (Option.some.inj hr).symm, fs', packets, rfl, ?_⟩
        rw [← hrest] at hs'
        exact hs'

/-! ## Every packet -/

/-- Calls of the socket that bring in `n` bytes and more. -/
structure Plenty (n : Nat) (turns : List Turn) : Prop where
  ready : AllReady turns
  enough : n < turns.length

/-- **A read gets the next packet** when the socket has it. -/
theorem Online.step_packet {c : Session} {s : Online} {turns : List Turn} {fs : List Frame}
    {p : SentPacket RECV_BUF_SIZE} {rest : List (SentPacket RECV_BUF_SIZE)}
    (hs : Aligned c s.ssl fs (encodings (p :: rest))) (hleft : s.ssl.inLeft = [])
    (hturns : Plenty (encodeAll fs).length turns) :
    ∃ s' fs', s.step c turns = some s' ∧ s.Open turns ∧
      s'.board.log = s.board.log ++ [(Delivery.packet p).event] ∧
      Aligned c s'.ssl fs' (encodings rest) ∧ s'.ssl.inLeft = [] ∧
      (encodeAll fs').length ≤ (encodeAll fs).length := by
  have hs' := hs.turns turns
  obtain ⟨ret, out, ssl, fs₁, hread, hfinds⟩ := sslRead_finds
    (show 0 < RECV_BUF_SIZE by decide)
    (hs'.between hleft) hturns.ready hturns.enough
  have htoCome : s.ssl.toCome c fs ≠ [] := by
    rw [SslIn.toCome, hs.carry.appData]
    intro hnil
    have hflat := (List.append_eq_nil_iff.mp hnil).2
    rw [encodings, List.map_cons, List.flatten_cons] at hflat
    exact p.packet.encode_ne_nil (List.append_eq_nil_iff.mp hflat).1
  have hout : out ≠ [] := fun hnil => htoCome (hfinds.found hnil)
  have hlength := (sslRead_handed hs'.sound hread).length
  rcases sslRead_aligned hs' (encodings_fit _) hread with ⟨hle, -, -⟩ |
      ⟨f, fs', contents, rfl, hcontents, hret, haligned⟩
  · rw [Int.toNat_of_nonpos hle] at hlength
    exact absurd (List.eq_nil_of_length_eq_zero hlength) hout
  obtain ⟨rfl, hrest⟩ := List.cons.inj hcontents
  have hpos := List.length_pos_iff.mpr hout
  have hr : received ret p.packet.encode = some (Delivery.packet p).recv := by
    rw [received, dif_neg (by omega), dif_pos p.fits]
    rfl
  obtain ⟨board, hboard, -, -, hlog, -⟩ := s.board.read_delivery (.packet p)
  refine ⟨⟨ssl, board⟩, fs', ?_, ?_, hlog, ?_, hfinds.between.inLeft, ?_⟩
  · rw [Online.step, hread]
    simp only [Option.bind_eq_bind, Option.bind_some, hr, hboard]
    rfl
  · rintro (⟨hwire, -⟩ | ⟨neg, hmem⟩)
    · exact hs.wire_ne_nil hleft hwire
    · obtain ⟨more, hready⟩ := hturns.ready _ hmem
      cases hready
  · rw [← hrest] at haligned
    exact haligned
  · rw [show encodeAll (f :: fs') = f.encode ++ encodeAll fs' from List.flatMap_cons,
      List.length_append]
    exact Nat.le_add_left _ _

theorem run_packets {c : Session} {n : Nat} {s : Online} {fs : List Frame}
    {packets : List (SentPacket RECV_BUF_SIZE)} {calls : List (List Turn)}
    (hs : Aligned c s.ssl fs (encodings packets)) (hleft : s.ssl.inLeft = [])
    (hn : (encodeAll fs).length ≤ n) (hcalls : ∀ turns ∈ calls, Plenty n turns)
    (hlen : calls.length = packets.length) :
    ∃ s', Machine.run (Online.step c) s calls = some s' ∧
      Machine.Along (Online.step c) Online.Open s calls ∧
      s'.board.log = s.board.log ++ packets.map fun p => (Delivery.packet p).event := by
  induction packets generalizing s fs calls with
  | nil =>
      obtain rfl := List.eq_nil_of_length_eq_zero hlen
      exact ⟨s, rfl, trivial, (List.append_nil _).symm⟩
  | cons p packets ih =>
      obtain ⟨turns, calls, rfl⟩ := List.exists_cons_of_length_eq_add_one hlen
      have hturns := hcalls turns List.mem_cons_self
      obtain ⟨s₁, fs', hstep, hopen, hlog, hs₁, hleft₁, hless⟩ := Online.step_packet hs hleft
        ⟨hturns.ready, Nat.lt_of_le_of_lt hn hturns.enough⟩
      obtain ⟨s', hrun, halong, hlog'⟩ := ih hs₁ hleft₁ (Nat.le_trans hless hn)
        (fun t ht => hcalls t (List.mem_cons_of_mem turns ht)) (Nat.succ.inj hlen)
      refine ⟨s', by rw [Machine.run_step hstep, hrun], halong.cons hopen hstep, ?_⟩
      rw [hlog', hlog, List.map_cons, List.append_assoc]
      rfl

/-- Two PINGRESP. -/
def pongs : List (SentPacket RECV_BUF_SIZE) := [pingrespAlone, pingrespAlone]

def pongFrames : List Frame := [⟨23, 3, 3, [0xD0, 0]⟩, ⟨23, 3, 3, [0xD0, 0]⟩]

theorem pongs_carried : AllCarry plain [] pongFrames (encodings pongs) := by
  have hpong : pingrespAlone.packet.encode = [0xD0, 0] := by decide +kernel
  have hpongs : encodings pongs = [[0xD0, 0], [0xD0, 0]] := by
    rw [encodings, pongs, List.map_cons, List.map_cons, List.map_nil, hpong]
  rw [hpongs]
  refine ⟨_, _, rfl, ?_, _, _, rfl, ?_, rfl⟩
  all_goals exact ⟨by decide, by decide, by decide, rfl, rfl, by decide, by decide⟩

/-- The socket hands out three bytes at a time. -/
def pongCalls : List (List Turn) := List.replicate 2 (List.replicate 16 (.ready 2))

theorem pongCalls_plenty : ∀ turns ∈ pongCalls, Plenty (encodeAll pongFrames).length turns := by
  intro turns hturns
  obtain rfl := List.eq_of_mem_replicate hturns
  exact ⟨fun turn hturn => ⟨2, List.eq_of_mem_replicate hturn⟩, by decide⟩

def emptyBoard : Board := ⟨Block.replicate RECV_BUF_SIZE 0, 0, ⟨false, false, false⟩, []⟩

/-- **The reads of a session are deliveries.** With a broker that sends each
packet in a TLS record of its own, and while the peer has not closed: whatever
pieces the records come in and wherever the socket times out, every read is
given nothing or one whole packet, and the packets are the broker's, in
order. -/
theorem reads_are_deliveries {c : Session} {fs : List Frame}
    {packets : List (SentPacket RECV_BUF_SIZE)} {b : Board} {calls : List (List Turn)}
    {s : Online} (hfs : AllCarry c [] fs (encodings packets))
    (hopen : Machine.Along (Online.step c) Online.Open (.start (encodeAll fs) b) calls)
    (h : Machine.run (Online.step c) (.start (encodeAll fs) b) calls = some s) :
    ∃ ds : List Delivery, s.board.log = b.log ++ ds.map Delivery.event ∧
      ds.filterMap Delivery.packet? <+: packets := by
  have hinv : ∃ (ds : List Delivery) (fs' : List Frame) (rest : List (SentPacket RECV_BUF_SIZE)),
      s.board.log = b.log ++ ds.map Delivery.event ∧
        ds.filterMap Delivery.packet? ++ rest = packets ∧ Aligned c s.ssl fs' (encodings rest) := by
    refine Machine.run_invariant (fun s : Online => ∃ (ds : List Delivery) (fs' : List Frame)
      (rest : List (SentPacket RECV_BUF_SIZE)), s.board.log = b.log ++ ds.map Delivery.event ∧
        ds.filterMap Delivery.packet? ++ rest = packets ∧ Aligned c s.ssl fs' (encodings rest))
      ?_ ?_ hopen h
    · rintro s₁ turns s₂ hok ⟨ds, fs', rest, hlog, rfl, hs₁⟩ hstep
      obtain ⟨d, hlog', fs'', rest', rfl, hs₂⟩ := Online.step_delivery hs₁ hok hstep
      refine ⟨ds ++ [d], fs'', rest', ?_, ?_, hs₂⟩
      · rw [hlog', hlog, List.map_append, List.append_assoc]
        rfl
      · rw [List.filterMap_append, List.append_assoc]
        cases d <;> rfl
    · exact ⟨[], fs, packets, (List.append_nil _).symm, rfl, start_aligned hfs⟩
  obtain ⟨ds, -, rest, hlog, hpackets, -⟩ := hinv
  exact ⟨ds, hlog, rest, hpackets⟩

theorem reads_are_deliveries_pongs : ∃ (s : Online) (ds : List Delivery),
    Machine.run (Online.step plain) (.start (encodeAll pongFrames) emptyBoard) pongCalls = some s ∧
      s.board.log = emptyBoard.log ++ ds.map Delivery.event ∧
      ds.filterMap Delivery.packet? <+: pongs := by
  obtain ⟨s, hrun, hopen, -⟩ := run_packets
    (s := .start (encodeAll pongFrames) emptyBoard) (start_aligned pongs_carried) rfl
    (Nat.le_refl _) pongCalls_plenty rfl
  obtain ⟨ds, hlog, hpackets⟩ := reads_are_deliveries pongs_carried hopen hrun
  exact ⟨s, ds, hrun, hlog, hpackets⟩

/-- **Every packet is read**, by a read of its own, when the socket has what
the broker has sent. -/
theorem reads_every_packet {c : Session} {fs : List Frame}
    {packets : List (SentPacket RECV_BUF_SIZE)} (b : Board) {calls : List (List Turn)}
    (hfs : AllCarry c [] fs (encodings packets))
    (hcalls : ∀ turns ∈ calls, Plenty (encodeAll fs).length turns)
    (hlen : calls.length = packets.length) :
    ∃ s, Machine.run (Online.step c) (.start (encodeAll fs) b) calls = some s ∧
      s.board.log = b.log ++ packets.map fun p => (Delivery.packet p).event := by
  obtain ⟨s, hrun, -, hlog⟩ := run_packets (s := .start (encodeAll fs) b) (start_aligned hfs) rfl
    (Nat.le_refl _) hcalls hlen
  exact ⟨s, hrun, hlog⟩

theorem reads_every_packet_pongs : ∃ s : Online,
    Machine.run (Online.step plain) (.start (encodeAll pongFrames) emptyBoard) pongCalls = some s ∧
      s.board.log = emptyBoard.log ++ pongs.map fun p => (Delivery.packet p).event :=
  reads_every_packet emptyBoard pongs_carried pongCalls_plenty rfl

end NucleoMqtt.App
