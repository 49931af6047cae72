import NucleoMqtt.App.Tasks
import NucleoMqtt.App.BoardSpec
import NucleoMqtt.Mqtt.Segmentation

/-!
# App — the endless loop of Main_Thread

One iteration reads a packet, a second time behind a PINGREQ if the first
read gives nothing, obeys the command in the buffer and publishes. A
`Round` is what the environment puts into one iteration. The buffer is
never cleared, but an iteration reaches the comparison only behind an
accepted packet, and then the buffer holds that packet's command
(`read_delivery`); so what a round does depends on the round alone, and a
run of rounds is their sum.
-/

namespace NucleoMqtt.App

open NucleoMqtt.Lib NucleoMqtt.Spec NucleoMqtt.Mqtt

/-- A run of `Main_Thread` alone. -/
def runMain : MainPc × Board → List Answer → Option (MainPc × Board) :=
  Machine.run fun s a => mainStep s.1 a s.2

/-- A run goes on from where its first step leads. -/
theorem runMain_step {pc pc' : MainPc} {a : Answer} {b b' : Board}
    (h : mainStep pc a b = some (pc', b')) (rest : List Answer) :
    runMain (pc, b) (a :: rest) = runMain (pc', b') rest := by
  rw [runMain, Machine.run_cons, h, Option.bind_some]

/-! ## What a message asks for -/

/-- What a command does to the LEDs. -/
def Leds.obey (l : Leds) : Command → Leds
  | ⟨.ld1, true⟩ => ⟨true, l.ld2, l.ld3⟩
  | ⟨.ld1, false⟩ => ⟨false, l.ld2, l.ld3⟩
  | ⟨.ld2, true⟩ => ⟨l.ld1, true, l.ld3⟩
  | ⟨.ld2, false⟩ => ⟨l.ld1, false, l.ld3⟩
  | ⟨.ld3, true⟩ => ⟨l.ld1, l.ld2, true⟩
  | ⟨.ld3, false⟩ => ⟨l.ld1, l.ld2, false⟩

/-- The message that tells that it has been obeyed. -/
def Command.reply : Command → List UInt8
  | ⟨.ld1, true⟩ => ascii ['[', 'L', 'E', 'D', ' ', '1', ' ', 'E', 'N', 'C', 'E', 'N', 'D', 'I',
      'D', 'O', ']']
  | ⟨.ld1, false⟩ => ascii ['[', 'L', 'E', 'D', ' ', '1', ' ', 'A', 'P', 'A', 'G', 'A', 'D', 'O',
      ']']
  | ⟨.ld2, true⟩ => ascii ['[', 'L', 'E', 'D', ' ', '2', ' ', 'E', 'N', 'C', 'E', 'N', 'D', 'I',
      'D', 'O', ']']
  | ⟨.ld2, false⟩ => ascii ['[', 'L', 'E', 'D', ' ', '2', ' ', 'A', 'P', 'A', 'G', 'A', 'D', 'O',
      ']']
  | ⟨.ld3, true⟩ => ascii ['[', 'L', 'E', 'D', ' ', '3', ' ', 'E', 'N', 'C', 'E', 'N', 'D', 'I',
      'D', 'O', ']']
  | ⟨.ld3, false⟩ => ascii ['[', 'L', 'E', 'D', ' ', '3', ' ', 'A', 'P', 'A', 'G', 'A', 'D', 'O',
      ']']

/-- What a message does to the LEDs: six texts change one of them each, and
no other text does anything. -/
def Leds.told (l : Leds) (message : List UInt8) : Leds :=
  if message = ascii ['L', 'D', '1', 'O', 'N'] then ⟨true, l.ld2, l.ld3⟩
  else if message = ascii ['L', 'D', '1', 'O', 'F', 'F'] then ⟨false, l.ld2, l.ld3⟩
  else if message = ascii ['L', 'D', '2', 'O', 'N'] then ⟨l.ld1, true, l.ld3⟩
  else if message = ascii ['L', 'D', '2', 'O', 'F', 'F'] then ⟨l.ld1, false, l.ld3⟩
  else if message = ascii ['L', 'D', '3', 'O', 'N'] then ⟨l.ld1, l.ld2, true⟩
  else if message = ascii ['L', 'D', '3', 'O', 'F', 'F'] then ⟨l.ld1, l.ld2, false⟩
  else l

/-- The calls of `Hw_LDn_On` and `Hw_LDn_Off` obey the command. -/
theorem Leds.set_obey (l : Leds) (c : Command) : l.set c.led c.on = l.obey c := by
  obtain ⟨led, on⟩ := c
  cases led <;> cases on <;> rfl

theorem Command.confirmation_eq (c : Command) : c.confirmation = c.reply := by
  obtain ⟨led, on⟩ := c
  cases led <;> cases on <;> rfl

/-- A text that is compared first and found. -/
theorem Command.find_cons (message : List UInt8) (c : Command) (cs : List Command) :
    (c :: cs).find? (fun c => message = c.text)
      = if message = c.text then some c else cs.find? (fun c => message = c.text) := by
  rw [List.find?_cons]
  by_cases h : message = c.text
  · rw [if_pos h, decide_eq_true h]
  · rw [if_neg h, decide_eq_false h]

/-- A message does what its command does, if it has one. -/
theorem Leds.told_eq (l : Leds) (message : List UInt8) :
    l.told message = (Command.ofText message).elim l l.obey := by
  -- the texts are compared in the same order on both sides
  simp only [Command.ofText, Command.all, Command.find_cons, List.find?_nil,
    apply_ite (fun c : Option Command => c.elim l l.obey), Option.elim_some, Option.elim_none]
  rfl

namespace Delivery

/-- The message of a PUBLISH: its payload, cut at its first NUL. -/
def message : Delivery → Option (List UInt8)
  | nothing _ _ => none
  | packet p =>
      match p.packet with
      | .publish q => some (cString q.payload)
      | _ => none

/-- The command of a delivery is the one that its message is. -/
theorem command_eq (d : Delivery) : d.command = d.message.bind Command.ofText := by
  cases d with
  | nothing code neg => rfl
  | packet p =>
      obtain ⟨packet, wellFormed, fits⟩ := p
      cases packet <;> rfl

/-- To obey the commands of some deliveries is to do what their messages say. -/
theorem foldl_obey (ds : List Delivery) (l : Leds) :
    (ds.filterMap command).foldl Leds.obey l = (ds.filterMap message).foldl Leds.told l := by
  induction ds generalizing l with
  | nil => rfl
  | cons d ds ih =>
      rw [List.filterMap_cons, List.filterMap_cons, command_eq]
      cases d.message with
      | none => exact ih l
      | some m =>
          rw [Option.bind_some, List.foldl_cons, Leds.told_eq]
          cases Command.ofText m with
          | none => exact ih l
          | some c => exact ih (l.obey c)

/-- What is published on a packet: the reply to its command if it has one,
otherwise the date. -/
def publication (d : Delivery) (date : List UInt8) : Event :=
  match d.command with
  | some c => .wrote (.confirm c) (publishOf PUBLIC_TOPIC c.reply).encode
  | none => .wrote (.date date) (publishOf PUBLIC_TOPIC date).encode

/-- The answers to the calls that act on a packet. -/
def actAnswers (d : Delivery) (date : List UInt8) (fits : date.length < 30) : List Answer :=
  match d.command with
  | some _ => [.void, .void]
  | none => [.text date fits, .void]

end Delivery

/-- The environment's part of one iteration. The second delivery is asked
for only if the first read has a negative value. -/
structure Round where
  first : Delivery
  second : Delivery
  date : List UInt8
  dateFits : date.length < 30

namespace Round

variable (r : Round)

/-- Both reads give nothing. -/
def Lost : Prop := r.first.value < 0 ∧ r.second.value < 0

instance : Decidable r.Lost := inferInstanceAs (Decidable (_ ∧ _))

/-- The reads of the iteration. -/
def reads : List Delivery := if r.first.value < 0 then [r.first, r.second] else [r.first]

/-- The packet the iteration acts on, if there is one. -/
def last : Delivery := if r.first.value < 0 then r.second else r.first

/-- The reads and writes of an iteration that does not stop: a PINGREQ in
front of the second read, and one PUBLISH at the end. -/
def events : List Event :=
  (if r.first.value < 0 then
    [.read r.first.recv r.first.value, .wrote .pingreq [0xC0, 0x00],
      .read r.second.recv r.second.value]
  else [.read r.first.recv r.first.value]) ++ [r.last.publication r.date]

/-- The answers the iteration gets, call by call. -/
def answers : List Answer :=
  if r.first.value < 0 then
    [.recv r.first.recv, .void, .recv r.second.recv] ++
      if r.second.value < 0 then [] else r.second.actAnswers r.date r.dateFits
  else .recv r.first.recv :: r.first.actAnswers r.date r.dateFits

/-- The commands of a round are the command of its last packet. -/
theorem reads_command : r.reads.filterMap Delivery.command = r.last.command.toList := by
  by_cases h : r.first.value < 0
  · rw [reads, last, if_pos h, if_pos h, List.filterMap_cons, Delivery.command_of_neg h]
    cases hc : r.second.command <;> simp [hc]
  · rw [reads, last, if_neg h, if_neg h]
    cases hc : r.first.command <;> simp [hc]

end Round

/-! ## One iteration -/

/-- A call that hands over a packet. -/
theorem mainStep_write (pc pc' : MainPc) {b b' : Board} {w : Write}
    (hpc : mainStep pc .void b = (b.write w).map (pc', ·)) (hw : b.write w = some b') :
    mainStep pc .void b = some (pc', b') := by
  rw [hpc, hw, Option.map_some]

/-- From the comparison on: obey and confirm, or publish the date. -/
theorem runMain_act {b : Board} {d : Delivery} (hcmd : commandIn b.buf = d.command)
    (date : List UInt8) (fits : date.length < 30) :
    ∃ b', runMain (dispatch b.buf, b) (d.actAnswers date fits) = some (.read, b') ∧
      b'.leds = d.command.toList.foldl Leds.obey b.leds ∧
      b'.log = b.log ++ [d.publication date] := by
  rw [dispatch, hcmd, Delivery.actAnswers, Delivery.publication]
  cases d.command with
  | some c =>
      have hled : mainStep (.led c) .void b = some (.publishLed c, b.setLed c.led c.on) := rfl
      have hpublish := mainStep_write (.publishLed c) .read rfl
        (Board.write_confirm (b.setLed c.led c.on) c)
      rw [Command.confirmation_eq] at hpublish
      refine ⟨(b.setLed c.led c.on).record
        (.wrote (.confirm c) (publishOf PUBLIC_TOPIC c.reply).encode), ?_,
        b.leds.set_obey c, rfl⟩
      show runMain (.led c, b) [.void, .void] = _
      rw [runMain_step hled, runMain_step hpublish, runMain, Machine.run_nil]
  | none =>
      have hrtc : mainStep .rtcRead (.text date fits) b = some (.publishDate date, b) := rfl
      have hpublish := mainStep_write (.publishDate date) .read rfl
        (Board.write_date b date fits)
      refine ⟨b.record (.wrote (.date date) (publishOf PUBLIC_TOPIC date).encode), ?_, rfl, rfl⟩
      show runMain (.rtcRead, b) [.text date fits, .void] = _
      rw [runMain_step hrtc, runMain_step hpublish, runMain, Machine.run_nil]

/-- The first read of an iteration. -/
theorem mainStep_read {b b' : Board} {d : Delivery} (h : b.read d.recv = some (d.value, b')) :
    mainStep .read (.recv d.recv) b
      = some (if d.value < 0 then .writePingreq else dispatch b'.buf, b') := by
  have hpc : mainStep .read (.recv d.recv) b = (b.read d.recv).map fun p =>
      (if p.1 < 0 then .writePingreq else dispatch p.2.buf, p.2) := rfl
  rw [hpc, h, Option.map_some]

/-- The read behind a PINGREQ. -/
theorem mainStep_readAgain {b b' : Board} {d : Delivery}
    (h : b.read d.recv = some (d.value, b')) :
    mainStep .readAgain (.recv d.recv) b
      = some (if d.value < 0 then .errorHandler else dispatch b'.buf, b') := by
  have hpc : mainStep .readAgain (.recv d.recv) b = (b.read d.recv).map fun p =>
      (if p.1 < 0 then .errorHandler else dispatch p.2.buf, p.2) := rfl
  rw [hpc, h, Option.map_some]

/-- **One iteration**, from any buffer. -/
theorem runMain_round (b : Board) (r : Round) :
    ∃ b', runMain (.read, b) r.answers
        = some (if r.Lost then .errorHandler else .read, b') ∧
      (¬ r.Lost → b'.leds = (r.reads.filterMap Delivery.command).foldl Leds.obey b.leds ∧
        b'.log = b.log ++ r.events) ∧
      (r.Lost → b'.leds = b.leds) := by
  obtain ⟨b₁, hread₁, -, hleds₁, hlog₁, hcmd₁⟩ := b.read_delivery r.first
  have hstep₁ := mainStep_read hread₁
  rw [Round.reads_command]
  by_cases hfirst : r.first.value < 0
  · have hlast : r.last = r.second := if_pos hfirst
    rw [if_pos hfirst] at hstep₁
    have hping := mainStep_write .writePingreq .readAgain rfl b₁.write_pingreq
    obtain ⟨b₂, hread₂, -, hleds₂, hlog₂, hcmd₂⟩ :=
      (b₁.record (.wrote .pingreq [0xC0, 0x00])).read_delivery r.second
    have hstep₂ := mainStep_readAgain hread₂
    rw [Board.record_leds, hleds₁] at hleds₂
    rw [Board.record_log, hlog₁] at hlog₂
    by_cases hsecond : r.second.value < 0
    · have hlost : r.Lost := ⟨hfirst, hsecond⟩
      rw [if_pos hsecond] at hstep₂
      refine ⟨b₂, ?_, fun h => absurd hlost h, fun _ => hleds₂⟩
      rw [Round.answers, if_pos hfirst, if_pos hsecond, List.append_nil, if_pos hlost,
        runMain_step hstep₁, runMain_step hping, runMain_step hstep₂, runMain,
        Machine.run_nil]
    · have hlost : ¬ r.Lost := fun h => hsecond h.2
      rw [if_neg hsecond] at hstep₂
      obtain ⟨b', hact, hleds, hlog⟩ :=
        runMain_act (hcmd₂ (Int.not_lt.mp hsecond)) r.date r.dateFits
      refine ⟨b', ?_, fun _ => ⟨?_, ?_⟩, fun h => absurd h hlost⟩
      · rw [Round.answers, if_pos hfirst, if_neg hsecond, if_neg hlost, List.cons_append,
          List.cons_append, List.cons_append, List.nil_append, runMain_step hstep₁,
          runMain_step hping, runMain_step hstep₂, hact]
      · rw [hlast, hleds, hleds₂]
      · rw [hlog, hlog₂, Round.events, if_pos hfirst, hlast]
        simp
  · have hlost : ¬ r.Lost := fun h => hfirst h.1
    have hlast : r.last = r.first := if_neg hfirst
    rw [if_neg hfirst] at hstep₁
    obtain ⟨b', hact, hleds, hlog⟩ :=
      runMain_act (hcmd₁ (Int.not_lt.mp hfirst)) r.date r.dateFits
    refine ⟨b', ?_, fun _ => ⟨?_, ?_⟩, fun h => absurd h hlost⟩
    · rw [Round.answers, if_neg hfirst, if_neg hlost, runMain_step hstep₁, hact]
    · rw [hlast, hleds, hleds₁]
    · rw [hlog, hlog₁, Round.events, if_neg hfirst, hlast, List.append_assoc]

/-! ## Any number of iterations -/

/-- A run of rounds comes back to the first read. -/
theorem runMain_rounds (b : Board) (rounds : List Round) (h : ∀ r ∈ rounds, ¬ r.Lost) :
    ∃ b', runMain (.read, b) (rounds.flatMap Round.answers) = some (.read, b') ∧
      b'.leds = ((rounds.flatMap Round.reads).filterMap Delivery.command).foldl Leds.obey b.leds ∧
      b'.log = b.log ++ rounds.flatMap Round.events := by
  induction rounds generalizing b with
  | nil => exact ⟨b, rfl, rfl, (List.append_nil _).symm⟩
  | cons r rounds ih =>
      have hr := h r (List.mem_cons_self ..)
      obtain ⟨b₁, hrun₁, hround, -⟩ := runMain_round b r
      obtain ⟨hleds₁, hlog₁⟩ := hround hr
      rw [if_neg hr] at hrun₁
      obtain ⟨b', hrun, hleds, hlog⟩ :=
        ih b₁ (fun q hq => h q (List.mem_cons_of_mem _ hq))
      refine ⟨b', ?_, ?_, ?_⟩
      · rw [List.flatMap_cons, runMain, Machine.run_append, ← runMain, hrun₁,
          Option.bind_some, hrun]
      · rw [List.flatMap_cons, List.filterMap_append, List.foldl_append, hleds, hleds₁]
      · rw [List.flatMap_cons, hlog, hlog₁, List.append_assoc]

/-- **Commands are obeyed once each and never again.** Over any rounds
neither of which loses the connection, and from any buffer, the LEDs are
the initial ones changed by what the PUBLISH payloads read say, in order;
the log gains, round by round, the reads, a PINGREQ exactly behind a first
read that gives nothing, and one PUBLISH to the public topic, of the
confirmation or the date. And whatever round comes next, the loop enters
`Error_Handler` in it exactly if both of its reads give nothing, with the
LEDs as they are. -/
theorem mainLoop_obeys (b : Board) (rounds : List Round) (h : ∀ r ∈ rounds, ¬ r.Lost) :
    ∃ b', runMain (.read, b) (rounds.flatMap Round.answers) = some (.read, b') ∧
      b'.leds = ((rounds.flatMap Round.reads).filterMap Delivery.message).foldl Leds.told b.leds ∧
      b'.log = b.log ++ rounds.flatMap Round.events ∧
      ∀ r : Round, ∃ b'', runMain (.read, b) (rounds.flatMap Round.answers ++ r.answers)
          = some (if r.Lost then .errorHandler else .read, b'') ∧
        (r.Lost → b''.leds = b'.leds) := by
  obtain ⟨b', hrun, hleds, hlog⟩ := runMain_rounds b rounds h
  refine ⟨b', hrun, hleds.trans (Delivery.foldl_obey _ _), hlog, fun r => ?_⟩
  obtain ⟨b'', hround, -, hlost⟩ := runMain_round b' r
  refine ⟨b'', ?_, hlost⟩
  rw [runMain, Machine.run_append, ← runMain, hrun, Option.bind_some]
  exact hround

theorem secret_wellFormed {msg : List UInt8} (h : msg.length ≤ 65535) :
    (BrokerPacket.publish (publishOf SECRET_TOPIC msg)).WellFormed := by
  have htopic : SECRET_TOPIC.length = 14 := rfl
  refine ⟨publishOf_wellFormed (by omega) ?_, rfl, ?_, Nat.zero_le _⟩
  · rw [htopic, maxRemainingLength]
    omega
  · show SECRET_TOPIC.length ≤ 255
    omega

/-- A message on the secret topic. -/
def secretDelivery (msg : List UInt8) (h : msg.length ≤ 65535)
    (hfits : (publishOf SECRET_TOPIC msg).encode.length ≤ RECV_BUF_SIZE) : Delivery :=
  .packet
    { packet := .publish (publishOf SECRET_TOPIC msg), wellFormed := secret_wellFormed h,
      fits := hfits }

theorem minusOne_neg : (-1 : Int) < 0 := by decide

/-- A round that delivers `LD1ON` on the secret topic. -/
def ld1OnRound : Round where
  first := secretDelivery (Command.text ⟨.ld1, true⟩) (by decide) (by decide +kernel)
  second := .nothing (-1) minusOne_neg
  date := []
  dateFits := by decide

/-- A round in which the broker only answers the PINGREQ. -/
def pongRound : Round where
  first := .nothing (-1) minusOne_neg
  second := .packet pingrespAlone
  date := [50, 49]
  dateFits := by decide

/-- `LD2ON`, behind a PINGREQ, with more behind a NUL. -/
def ld2OnRound : Round where
  first := .nothing (-0x6800) (by decide)
  second := secretDelivery (Command.text ⟨.ld2, true⟩ ++ [0, 79, 70, 70]) (by decide)
    (by decide +kernel)
  date := []
  dateFits := by decide

/-- `LD1OFF`, behind a packet of no type that is read. -/
def ld1OffRound : Round where
  first := .packet
    { packet := .other 0xE0 [0, 0]
      wellFormed := (by decide : (0xE0 : UInt8).toNat / 16 ∉ [2, 3, 9, 11, 13])
      fits := by decide +kernel }
  second := secretDelivery (Command.text ⟨.ld1, false⟩) (by decide) (by decide +kernel)
  date := []
  dateFits := by decide

/-- The loop is entered with a command in the buffer that was obeyed before. -/
def staleBoard : Board :=
  { System.init.board with
    buf := System.init.board.buf.overwrite (Command.text ⟨.ld3, true⟩ ++ [0]) (by decide) }

def someRounds : List Round := [pongRound, ld1OnRound, pongRound, ld2OnRound, ld1OffRound]

theorem mainLoop_obeys_someRounds :
    ∃ b', runMain (.read, staleBoard) (someRounds.flatMap Round.answers) = some (.read, b') ∧
      b'.leds = ((someRounds.flatMap Round.reads).filterMap Delivery.message).foldl Leds.told
        staleBoard.leds ∧
      b'.log = staleBoard.log ++ someRounds.flatMap Round.events ∧
      ∀ r : Round, ∃ b'', runMain (.read, staleBoard)
          (someRounds.flatMap Round.answers ++ r.answers)
          = some (if r.Lost then .errorHandler else .read, b'') ∧
        (r.Lost → b''.leds = b'.leds) :=
  mainLoop_obeys staleBoard someRounds (by decide +kernel)

/-- The old command is in the buffer, and only the three that are delivered count. -/
example : commandIn staleBoard.buf = some ⟨.ld3, true⟩ ∧
    ((someRounds.flatMap Round.reads).filterMap Delivery.message).foldl Leds.told
      staleBoard.leds = ⟨false, true, false⟩ := by
  decide +kernel

end NucleoMqtt.App
