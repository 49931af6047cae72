import NucleoMqtt.App.Opening

/-!
# App — what the LEDs show

The LEDs are the board's only display, and the confirmations in the public
topic are its only account of them. `MainPc.lit` is how many of them the
start-up has lit by each call; behind that a LED changes only by a command,
and its confirmation follows. `Shown` says that LEDs and confirmations
agree, up to one command that is `pending`: obeyed and not confirmed yet.
A task that takes over in that moment leaves it unconfirmed for good.
`Accounted` is what the tasks keep of that.
-/

namespace NucleoMqtt.App

open NucleoMqtt.Lib NucleoMqtt.Mqtt

/-! ## What is shown -/

/-- The command an event confirms. -/
def Event.confirm? : Event → Option Command
  | .wrote (.confirm c) _ => some c
  | _ => none

/-- The commands confirmed so far. -/
def Board.confirmed (b : Board) : List Command := b.log.filterMap Event.confirm?

def Leds.off : Leds := ⟨false, false, false⟩

def Leds.on : Leds := ⟨true, true, true⟩

/-- How far the start-up has lit the LEDs: the scheduler runs, the network
is configured, the session is open. -/
def MainPc.lit : MainPc → Leds
  | .ld1On => .off
  | .tcpipInit | .ethLinkStatus | .linkThreadNew | .dhcpRequest | .tickDelay | .ld2On =>
      ⟨true, false, false⟩
  | .dnsRequestNtp | .ntpRequest | .rtcWrite | .dnsRequestMqtt | .mqttInit | .writeConnect
  | .readConnack | .writeSubscribe | .readSuback | .publishConnected | .ld3On =>
      ⟨true, true, false⟩
  | _ => .on

/-- The command obeyed and not yet confirmed. -/
def MainPc.pending : MainPc → List Command
  | .publishLed c => [c]
  | _ => []

/-- The LEDs are what the start-up has lit, changed by what is confirmed and
by what is pending. -/
def Shown (lit : Leds) (pending : List Command) (b : Board) : Prop :=
  b.leds = (b.confirmed ++ pending).foldl Leds.obey lit

/-- The call at which `Main_Thread` stands, and when it has given up or is
terminated the call noted before. -/
def MainPc.renew (pc : MainPc) (s : System) : MainPc :=
  match s.main with
  | none => pc
  | some .errorHandler => pc
  | some pc' => pc'

/-- The call at which `Main_Thread` stands behind a run, or has ended in it. -/
def lastCall (acts : List Action) : MainPc :=
  Machine.note System.step MainPc.renew .ld1On System.init acts

/-- A state in which the LEDs show what they should, when `Main_Thread` has
come as far as the call `last`. -/
structure Shows (last : MainPc) (s : System) : Prop where
  /-- the program has ended, and they are off -/
  ended : s.locked = true → s.board.leds = .off
  /-- the progress of `Main_Thread`, and in its loop the commands confirmed -/
  main : s.locked = false → ∀ pc, s.main = some pc → pc ≠ .errorHandler →
    Shown pc.lit pc.pending s.board
  /-- the same when it has ended, as of the call at which it ended -/
  told : s.locked = false → Shown last.lit last.pending s.board ∧
    (s.button ≠ none → last.lit = .on)

/-! ## The calls -/

theorem Board.read_leds {b b' : Board} {r : Recv RECV_BUF_SIZE} {v : Int}
    (h : b.read r = some (v, b')) : b'.leds = b.leds ∧ b'.confirmed = b.confirmed := by
  obtain ⟨⟨value, buf⟩, -, heq⟩ := Option.bind_eq_some_iff.mp h
  cases heq
  refine ⟨rfl, ?_⟩
  rw [confirmed, record_log, List.filterMap_append]
  exact List.append_nil _

/-- A packet handed over leaves the LEDs alone. -/
theorem Board.hand_leds {b : Board} {w : Write} {h : Handed} :
    (b.hand w h).leds = b.leds ∧
      (b.hand w h).confirmed = b.confirmed ++ (Event.confirm? (.wrote w h.buf.cells)).toList := by
  refine ⟨rfl, ?_⟩
  rw [confirmed, hand, record_log, List.filterMap_append]
  cases w <;> rfl

/-- So only a confirmation is one. -/
theorem Board.write_leds {b b' : Board} {w : Write} (h : b.write w = some b') :
    b'.leds = b.leds ∧
      b'.confirmed = b.confirmed ++ (Event.confirm? (.wrote w [])).toList := by
  cases w with
  | connect =>
      obtain ⟨handed, -, rfl⟩ := Option.map_eq_some_iff.mp h
      exact Board.hand_leds
  | pingreq | disconnect =>
      rw [Board.write] at h
      obtain ⟨handed, -, rfl⟩ := Option.map_eq_some_iff.mp h
      exact Board.hand_leds
  | connected | confirm c | date text | disconnected =>
      rw [Board.write] at h
      obtain ⟨handed, -, rfl⟩ := Option.map_eq_some_iff.mp h
      exact Board.hand_leds
  | subscribe | unsubscribe =>
      obtain ⟨⟨handed, packetId⟩, -, rfl⟩ := Option.map_eq_some_iff.mp h
      exact Board.hand_leds (b := { b with packetId := packetId })

namespace Shown

/-- A call that neither lights a LED nor confirms. -/
theorem same {lit : Leds} {pending : List Command} {b b' : Board} (h : Shown lit pending b)
    (hleds : b'.leds = b.leds) (hconf : b'.confirmed = b.confirmed) : Shown lit pending b' := by
  rw [Shown, hleds, hconf]
  exact h

/-- A command is obeyed. -/
theorem obey {lit : Leds} {b : Board} (h : Shown lit [] b) (c : Command) :
    Shown lit [c] (b.setLed c.led c.on) := by
  have hconf : (b.setLed c.led c.on).confirmed = b.confirmed := rfl
  have hleds : (b.setLed c.led c.on).leds = b.leds.obey c := b.leds.set_obey c
  rw [Shown, hleds, hconf, h, List.append_nil, List.foldl_append]
  rfl

/-- A command is confirmed. -/
theorem confirm {lit : Leds} {b b' : Board} {c : Command} (h : Shown lit [c] b)
    (hwrite : b.write (.confirm c) = some b') : Shown lit [] b' := by
  obtain ⟨hleds, hconf⟩ := Board.write_leds hwrite
  rw [Shown, hleds, hconf, List.append_nil]
  exact h

/-- The start-up lights one LED more, before anything is confirmed. -/
theorem light {lit lit' : Leds} {led : Led} {b : Board} (h : Shown lit [] b)
    (hnone : b.confirmed = []) (hlit : lit.set led true = lit') :
    Shown lit' [] (b.setLed led true) := by
  have hconf : (b.setLed led true).confirmed = [] := hnone
  have hleds : (b.setLed led true).leds = b.leds.set led true := rfl
  rw [Shown, hnone] at h
  rw [Shown, hleds, hconf, h, ← hlit]
  rfl

end Shown

/-- What `Main_Thread` keeps at each call: the LEDs are shown, and nothing
is confirmed before the loop. -/
structure MainPc.Shows (b : Board) (pc : MainPc) : Prop where
  shown : Shown pc.lit pc.pending b
  early : pc.lit ≠ .on → b.confirmed = []

/-- A call after which the LEDs stand as before. -/
theorem MainPc.Shows.same {b b' : Board} {pc pc' : MainPc} (h : pc.Shows b)
    (hleds : b'.leds = b.leds) (hconf : b'.confirmed = b.confirmed) (hlit : pc'.lit = pc.lit)
    (hpending : pc'.pending = pc.pending) : pc'.Shows b' where
  shown := by
    rw [hlit, hpending]
    exact h.shown.same hleds hconf
  early := by
    rw [hlit, hconf]
    exact h.early

theorem dispatch_lit (buf : Block UInt8 RECV_BUF_SIZE) :
    (dispatch buf).lit = .on ∧ (dispatch buf).pending = [] ∧ dispatch buf ≠ .errorHandler := by
  rw [dispatch]
  cases commandIn buf <;> exact ⟨rfl, rfl, MainPc.noConfusion⟩

/-- **Every call of Main_Thread shows what it does.** -/
theorem mainStep_shows {pc pc' : MainPc} {a : Answer} {b b' : Board} (h : pc.Shows b)
    (hne : pc ≠ .errorHandler) (hstep : mainStep pc a b = some (pc', b')) :
    (pc' = .errorHandler ∧ pc.Shows b') ∨
      (pc' ≠ .errorHandler ∧ pc'.Shows b' ∧ (pc.lit = .on → pc'.lit = .on)) := by
  cases pc with
  | ld1On | ld2On | ld3On =>
      cases a <;> cases hstep
      have hnone : b.confirmed = [] := h.early (by decide)
      exact Or.inr ⟨nofun, ⟨h.shown.light hnone rfl, fun _ => hnone⟩, by decide⟩
  | tcpipInit | linkThreadNew | tickDelay | rtcWrite | buttonThreadNew | rtcRead =>
      cases a <;> cases hstep
      exact Or.inr ⟨nofun, h.same rfl rfl rfl rfl, id⟩
  | led c =>
      cases a <;> cases hstep
      refine Or.inr ⟨nofun, ⟨h.shown.obey c, fun hlit => absurd rfl hlit⟩, fun _ => rfl⟩
  | ethLinkStatus | dhcpRequest =>
      cases a <;> cases hstep
      right
      split
      · exact ⟨nofun, h.same rfl rfl rfl rfl, id⟩
      · exact ⟨nofun, h.same rfl rfl rfl rfl, id⟩
  | dnsRequestNtp | ntpRequest | dnsRequestMqtt | mqttInit =>
      cases a <;> cases hstep
      split
      · exact Or.inl ⟨rfl, h⟩
      · exact Or.inr ⟨nofun, h.same rfl rfl rfl rfl, id⟩
  | writeConnect | writeSubscribe | publishConnected | publishDate text =>
      cases a with
      | void =>
          obtain ⟨rfl, hwrite⟩ := map_write _ hstep
          obtain ⟨hleds, hconf⟩ := Board.write_leds hwrite
          exact Or.inr ⟨nofun, h.same hleds (hconf.trans (List.append_nil _)) rfl rfl, id⟩
      | _ => cases hstep
  | writePingreq =>
      cases a with
      | void =>
          obtain ⟨rfl, hwrite⟩ := map_write .pingreq hstep
          obtain ⟨hleds, hconf⟩ := Board.write_leds hwrite
          exact Or.inr ⟨nofun, h.same hleds (hconf.trans (List.append_nil _)) rfl rfl, id⟩
      | _ => cases hstep
  | publishLed c =>
      cases a with
      | void =>
          obtain ⟨rfl, hwrite⟩ := map_write _ hstep
          exact Or.inr ⟨nofun, ⟨h.shown.confirm hwrite, fun hlit => absurd rfl hlit⟩, id⟩
      | _ => cases hstep
  | readConnack | readSuback | read | readAgain =>
      cases a with
      | recv r =>
          obtain ⟨⟨v, b₁⟩, hread, heq⟩ := Option.map_eq_some_iff.mp hstep
          cases heq
          obtain ⟨hleds, hconf⟩ := Board.read_leds hread
          split
          · first
              | exact Or.inl ⟨rfl, h.same hleds hconf rfl rfl⟩
              | exact Or.inr ⟨nofun, h.same hleds hconf rfl rfl, id⟩
          · obtain ⟨hlit, hpending, hne'⟩ := dispatch_lit b'.buf
            first
              | exact Or.inr ⟨nofun, h.same hleds hconf rfl rfl, id⟩
              | exact Or.inr ⟨hne', h.same hleds hconf hlit hpending, fun _ => hlit⟩
      | _ => cases hstep
  | errorHandler => exact absurd rfl hne

/-- Closing neither obeys nor confirms. -/
theorem closeStep_leds {pc pc' : ClosePc} {a : Answer} {b b' : Board}
    (h : closeStep pc a b = some (pc', b')) :
    b'.leds = b.leds ∧ b'.confirmed = b.confirmed := by
  obtain ⟨w, hw, hwrite⟩ | ⟨rfl, r, v, -, hread, rfl⟩ | ⟨rfl, rfl, rfl⟩ := closeStep_cases h
  · obtain ⟨hleds, hconf⟩ := Board.write_leds hwrite
    cases hw <;> exact ⟨hleds, hconf.trans (List.append_nil _)⟩
  · exact Board.read_leds hread
  · exact ⟨rfl, rfl⟩

/-! ## The tasks together -/

/-- The call at which `Main_Thread` stands, or stood when it ended, accounts
for the LEDs. -/
structure Accounted (s : System) (pc : MainPc) : Prop where
  shows : pc.Shows s.board
  main : ∀ pc', s.main = some pc' → pc' = pc ∨ pc' = .errorHandler
  button : s.button ≠ none → pc.lit = .on

/-- The note stands when `Main_Thread` makes no call. -/
theorem Accounted.renew {s : System} {pc : MainPc} (h : Accounted s pc) : pc.renew s = pc := by
  cases hmain : s.main with
  | none => rw [MainPc.renew, hmain]
  | some pc' =>
      rcases h.main pc' hmain with rfl | rfl
      · rw [MainPc.renew, hmain]
        split <;> simp_all
      · rw [MainPc.renew, hmain]

/-- What holds of the LEDs in every run. -/
structure Lit (pc : MainPc) (s : System) : Prop where
  ended : s.locked = true → s.board.leds = .off
  running : s.locked = false → Accounted s pc

namespace Lit

theorem init : Lit .ld1On System.init where
  ended := by rintro ⟨⟩
  running _ :=
    ⟨⟨rfl, fun _ => rfl⟩, by rintro pc' ⟨⟩; exact Or.inl rfl, fun h => absurd rfl h⟩

/-- A step that leaves the kernel unlocked and the LEDs accounted for. -/
theorem of_accounted {s : System} {pc : MainPc} (hrunning : s.locked = false)
    (h : Accounted s pc) : Lit (pc.renew s) s := by
  rw [h.renew]
  exact ⟨fun hlocked => absurd hlocked (by simp [hrunning]), fun _ => h⟩

/-- **One call of any task** keeps the LEDs accounted for. -/
theorem step {pc₀ : MainPc} {s s' : System} {act : Action} (h : Lit pc₀ s)
    (hstep : s.step act = some s') : Lit (pc₀.renew s') s' := by
  by_cases hlocked : s.locked = true
  · simp [System.step, hlocked] at hstep
  have hrunning : s.locked = false := Bool.eq_false_iff.mpr hlocked
  have hpc₀ := h.running hrunning
  cases System.step_moves hstep with
  | halt => exact ⟨fun _ => rfl, by rintro ⟨⟩⟩
  | @main a pc pc' board hpc hne hmain =>
      obtain rfl : pc = pc₀ := (hpc₀.main pc hpc).resolve_right hne
      -- a task created by this call finds all LEDs lit
      have hlit (hbutton : (if pc = .buttonThreadNew then some ButtonPc.b1Read else s.button)
          ≠ none) : pc.lit = .on := by
        by_cases hnew : pc = .buttonThreadNew
        · rw [hnew]
          rfl
        · rw [if_neg hnew] at hbutton
          exact hpc₀.button hbutton
      rcases mainStep_shows hpc₀.shows hne hmain with ⟨rfl, hshows⟩ | ⟨hne', hshows, hon⟩
      · exact of_accounted hrunning
          ⟨hshows, by rintro pc' ⟨⟩; exact Or.inr rfl, hlit⟩
      · refine ⟨fun hlocked' => absurd hlocked' hlocked, fun _ => ?_⟩
        have hrenew : pc.renew
            { s with
              board := board
              main := some pc'
              link := if pc = .linkThreadNew then some .ethLinkStatus else s.link
              button := if pc = .buttonThreadNew then some .b1Read else s.button } = pc' := by
          rw [MainPc.renew]
          split <;> simp_all
        rw [hrenew]
        exact ⟨hshows, by rintro pc'' ⟨⟩; exact Or.inl rfl, fun hbutton => hon (hlit hbutton)⟩
  | link pc' =>
      exact of_accounted hrunning ⟨hpc₀.shows, hpc₀.main, hpc₀.button⟩
  | close hc hne hclose =>
      obtain ⟨hleds, hconf⟩ := closeStep_leds hclose
      exact of_accounted hrunning ⟨hpc₀.shows.same hleds hconf rfl rfl, hpc₀.main,
        fun _ => hpc₀.button (by simp [hc])⟩
  | terminate hpc =>
      exact of_accounted hrunning
        ⟨hpc₀.shows, by rintro pc ⟨⟩, fun _ => hpc₀.button (by simp [hpc])⟩
  | wait hpc hopen hopen' =>
      exact of_accounted hrunning
        ⟨hpc₀.shows, hpc₀.main, fun _ => hpc₀.button (by simp [hpc])⟩

theorem shows {last : MainPc} {s : System} (h : Lit last s) : Shows last s where
  ended := h.ended
  main hrunning pc hpc hne := by
    obtain rfl : pc = last := ((h.running hrunning).main pc hpc).resolve_right hne
    exact (h.running hrunning).shows.shown
  told hrunning := ⟨(h.running hrunning).shows.shown, (h.running hrunning).button⟩

end Lit

/-! ## Runs -/

/-- **The LEDs show how far the program is, and what it has confirmed.**
In every run, under any scheduler, they are what the start-up has lit,
changed by the commands confirmed in the public topic in their order and by
at most one that is obeyed and not confirmed yet; when `Main_Thread` has
ended they stay what they were at its last call, and once the program has
ended they are off. -/
theorem leds_shown {acts : List Action} {s : System}
    (hrun : Machine.run System.step System.init acts = some s) : Shows (lastCall acts) s :=
  (Machine.run_note Lit (fun _ _ _ _ h hstep => h.step hstep) Lit.init hrun).shows

/-- The session opened by a broker that answers at once. -/
theorem leds_shown_opening :
    ∃ s, Machine.run System.step System.init
        (bootCalls ++ openingCalls connackDelivery subackDelivery) = some s ∧
      Shows (lastCall (bootCalls ++ openingCalls connackDelivery subackDelivery)) s := by
  obtain ⟨b, -, -, -, -, hopening, -⟩ := session_opens (fun _ _ => True) connackDelivery
    subackDelivery (by decide +kernel) (by decide +kernel) (fun _ => trivial)
    (fun _ _ => trivial) (fun _ => trivial) (fun _ _ => trivial)
  exact ⟨_, hopening, leds_shown hopening⟩

end NucleoMqtt.App
