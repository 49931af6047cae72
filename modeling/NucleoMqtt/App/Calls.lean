import NucleoMqtt.App.Discipline

/-!
# App — what the calls of the tasks can do

What one call of `Main_Thread` or `Close_Program` can do to the board is
said once: it hands over one packet (`Writes`), waits for one (`Reads`), or
touches neither log nor counter; and `System.Moves` says what a call of any
task can do to the system. Everything that is proved about runs of the
tasks is derived from that. `Phase` is what `Main_Thread` has been
acknowledged, `Stage` what has been handed over.
-/

namespace NucleoMqtt.App

open NucleoMqtt.Lib NucleoMqtt.Mqtt

/-! ## The board -/

/-- A read leaves one event and the counter alone. -/
theorem Board.read_cases {b b' : Board} {r : Recv RECV_BUF_SIZE} {v : Int}
    (h : b.read r = some (v, b')) :
    b'.log = b.log ++ [.read r v] ∧ b'.packetId = b.packetId := by
  obtain ⟨⟨value, buf⟩, -, heq⟩ := Option.bind_eq_some_iff.mp h
  cases heq
  exact ⟨rfl, rfl⟩

/-- A PUBLISH leaves one event and the counter alone. -/
theorem Board.publish_cases {b b' : Board} {w : Write} {msg : List UInt8}
    (h : b.publish w msg = some b') :
    ∃ packet, b'.log = b.log ++ [.wrote w packet] ∧ b'.packetId = b.packetId := by
  obtain ⟨handed, -, rfl⟩ := Option.map_eq_some_iff.mp h
  exact ⟨_, rfl, rfl⟩

/-- So does every write that takes no identifier. -/
theorem Board.write_cases {b b' : Board} {w : Write} (h : b.write w = some b')
    (hsub : w ≠ .subscribe) (hunsub : w ≠ .unsubscribe) :
    ∃ packet, b'.log = b.log ++ [.wrote w packet] ∧ b'.packetId = b.packetId := by
  cases w with
  | subscribe => exact absurd rfl hsub
  | unsubscribe => exact absurd rfl hunsub
  | connected | disconnected | confirm c | date text =>
      rw [Board.write] at h
      exact Board.publish_cases h
  | connect | pingreq | disconnect =>
      rw [Board.write] at h
      obtain ⟨handed, -, rfl⟩ := Option.map_eq_some_iff.mp h
      exact ⟨_, rfl, rfl⟩

/-- A call of a task that hands over a packet and goes on. -/
theorem map_write {α : Type} {next pc' : α} (w : Write) {b b' : Board}
    (h : (b.write w).map (next, ·) = some (pc', b')) : pc' = next ∧ b.write w = some b' := by
  obtain ⟨b₁, hwrite, heq⟩ := Option.map_eq_some_iff.mp h
  cases heq
  exact ⟨rfl, hwrite⟩

/-! ## Main_Thread -/

/-- What `Main_Thread` has been acknowledged. -/
inductive Phase where
  | boot
  | accepted
  | subscribing
  | subscribed
  | done
deriving DecidableEq

def MainPc.phase : MainPc → Phase
  | .writeSubscribe => .accepted
  | .readSuback => .subscribing
  | .publishConnected | .ld3On | .buttonThreadNew | .read | .writePingreq | .readAgain
  | .led _ | .publishLed _ | .rtcRead | .publishDate _ => .subscribed
  | .errorHandler => .done
  | _ => .boot

/-- How far the session is by the packets handed over. -/
inductive Stage where
  | booted
  | connecting
  | subscribing
  | looping
  | unsubscribing
  | leaving
  | left

/-- The stage at which `Main_Thread` makes each call. -/
def MainPc.stage : MainPc → Stage
  | .readConnack | .writeSubscribe => .connecting
  | .readSuback | .publishConnected => .subscribing
  | .ld3On | .buttonThreadNew | .read | .writePingreq | .readAgain | .led _ | .publishLed _
  | .rtcRead | .publishDate _ => .looping
  | _ => .booted

namespace MainPc

/-- The date `Main_Thread` is about to publish is one that `strftime` made. -/
def Dated : MainPc → Prop
  | publishDate text => text.length < 30
  | _ => True

/-- The calls that hand over a packet. -/
inductive Writes : MainPc → Write → MainPc → Prop where
  | connect : Writes writeConnect .connect readConnack
  | subscribe : Writes writeSubscribe .subscribe readSuback
  | connected : Writes publishConnected .connected ld3On
  | pingreq : Writes writePingreq .pingreq readAgain
  | confirm (c : Command) : Writes (publishLed c) (.confirm c) read
  | date (text : List UInt8) : Writes (publishDate text) (.date text) read

/-- The calls that wait for a packet, by the value the wait ends with. -/
inductive Reads (buf : Block UInt8 RECV_BUF_SIZE) (v : Int) : MainPc → MainPc → Prop where
  | connack (hv : 0 ≤ v) : Reads buf v readConnack writeSubscribe
  | suback (hv : 0 ≤ v) : Reads buf v readSuback publishConnected
  | packet {pc : MainPc} (hpc : pc.phase = .subscribed) (hstage : pc.stage = .looping)
      (hv : 0 ≤ v) : Reads buf v pc (dispatch buf)
  | nothing (hv : v < 0) : Reads buf v read writePingreq
  | lost {pc : MainPc} (hv : v < 0) : Reads buf v pc errorHandler

/-- The other calls go on where they are in the session, or give up. -/
def Passes (pc pc' : MainPc) : Prop :=
  pc' = errorHandler ∨ pc'.phase = pc.phase ∧ pc'.stage = pc.stage ∧ pc'.Dated

end MainPc

theorem dispatch_spec (buf : Block UInt8 RECV_BUF_SIZE) :
    (dispatch buf).phase = .subscribed ∧ (dispatch buf).stage = .looping ∧
      (dispatch buf).Dated := by
  rw [dispatch]
  cases commandIn buf <;> exact ⟨rfl, rfl, trivial⟩

/-- The loop belongs to the last phase. -/
theorem MainPc.InLoop.phase {pc : MainPc} (h : pc.InLoop) : pc.phase = .subscribed := by
  cases pc <;> first | rfl | exact h.elim

/-- **Everything a call of Main_Thread can do.** -/
theorem mainStep_cases {pc pc' : MainPc} {a : Answer} {b b' : Board}
    (h : mainStep pc a b = some (pc', b')) :
    (b'.log = b.log ∧ b'.packetId = b.packetId ∧ pc.Passes pc') ∨
    (∃ w, pc.Writes w pc' ∧ b.write w = some b') ∨
    (∃ r v, a = .recv r ∧ b.read r = some (v, b') ∧ MainPc.Reads b'.buf v pc pc') := by
  cases pc with
  | ld1On | tcpipInit | linkThreadNew | tickDelay | ld2On | rtcWrite | ld3On | buttonThreadNew
  | led c =>
      left
      cases a <;> cases h
      exact ⟨rfl, rfl, Or.inr ⟨rfl, rfl, trivial⟩⟩
  | rtcRead =>
      left
      cases a with
      | text text fits =>
          cases h
          exact ⟨rfl, rfl, Or.inr ⟨rfl, rfl, fits⟩⟩
      | _ => cases h
  | ethLinkStatus | dhcpRequest =>
      left
      cases a <;> cases h
      refine ⟨rfl, rfl, Or.inr ?_⟩
      split <;> exact ⟨rfl, rfl, trivial⟩
  | dnsRequestNtp | ntpRequest | dnsRequestMqtt | mqttInit =>
      left
      cases a <;> cases h
      refine ⟨rfl, rfl, ?_⟩
      split
      · exact Or.inl rfl
      · exact Or.inr ⟨rfl, rfl, trivial⟩
  | writeConnect | writeSubscribe | publishConnected | publishLed c | publishDate text =>
      right; left
      cases a with
      | void =>
          obtain ⟨rfl, hwrite⟩ := map_write _ h
          exact ⟨_, by constructor, hwrite⟩
      | _ => cases h
  | writePingreq =>
      right; left
      cases a with
      | void =>
          obtain ⟨rfl, hwrite⟩ := map_write .pingreq h
          exact ⟨_, .pingreq, hwrite⟩
      | _ => cases h
  | readConnack | readSuback | read | readAgain =>
      right; right
      cases a with
      | recv r =>
          obtain ⟨⟨v, b₁⟩, hread, heq⟩ := Option.map_eq_some_iff.mp h
          cases heq
          refine ⟨r, v, rfl, hread, ?_⟩
          by_cases hv : v < 0
          · rw [if_pos hv]
            constructor
            exact hv
          · rw [if_neg hv]
            constructor <;> first | rfl | exact Int.not_lt.mp hv
      | _ => cases h
  | errorHandler => cases a <;> cases h

/-! ## Close_Program -/

/-- The stage at which `Close_Program` makes each call. -/
def ClosePc.stage : ClosePc → Stage
  | .writeUnsubscribe => .looping
  | .readUnsuback | .publishDisconnected => .unsubscribing
  | .writeDisconnect => .leaving
  | .mqttClose | .errorHandler => .left

/-- The calls that hand over a packet. -/
inductive ClosePc.Writes : ClosePc → Write → ClosePc → Prop where
  | unsubscribe : Writes .writeUnsubscribe .unsubscribe .readUnsuback
  | disconnected : Writes .publishDisconnected .disconnected .writeDisconnect
  | disconnect : Writes .writeDisconnect .disconnect .mqttClose

/-- **Everything a call of Close_Program can do.** -/
theorem closeStep_cases {pc pc' : ClosePc} {a : Answer} {b b' : Board}
    (h : closeStep pc a b = some (pc', b')) :
    (∃ w, pc.Writes w pc' ∧ b.write w = some b') ∨
    (pc = .readUnsuback ∧ ∃ r v, a = .recv r ∧ b.read r = some (v, b') ∧
      pc' = if v < 0 then .errorHandler else .publishDisconnected) ∨
    (pc = .mqttClose ∧ pc' = .errorHandler ∧ b' = b) := by
  cases pc with
  | writeUnsubscribe | publishDisconnected =>
      left
      cases a with
      | void =>
          obtain ⟨rfl, hwrite⟩ := map_write _ h
          exact ⟨_, by constructor, hwrite⟩
      | _ => cases h
  | writeDisconnect =>
      left
      cases a with
      | void =>
          obtain ⟨rfl, hwrite⟩ := map_write .disconnect h
          exact ⟨_, .disconnect, hwrite⟩
      | _ => cases h
  | readUnsuback =>
      right; left
      cases a with
      | recv r =>
          obtain ⟨⟨v, b₁⟩, hread, heq⟩ := Option.map_eq_some_iff.mp h
          cases heq
          exact ⟨rfl, r, v, rfl, hread, rfl⟩
      | _ => cases h
  | mqttClose =>
      right; right
      cases a <;> cases h
      exact ⟨rfl, rfl, rfl⟩
  | errorHandler => cases a <;> cases h

/-! ## The system -/

/-- **Everything a call of any task can do to the system.** -/
inductive System.Moves (s : System) : Action → System → Prop where
  | halt {act : Action} : Moves s act s.halt
  | main {a : Answer} {pc pc' : MainPc} {board : Board} (hpc : s.main = some pc)
      (hne : pc ≠ .errorHandler) (hstep : mainStep pc a s.board = some (pc', board)) :
      Moves s (.main a)
        { s with
          board := board
          main := some pc'
          link := if pc = .linkThreadNew then some .ethLinkStatus else s.link
          button := if pc = .buttonThreadNew then some .b1Read else s.button }
  | link {a : Answer} (pc' : LinkPc) : Moves s (.link a) { s with link := some pc' }
  | close {a : Answer} {c c' : ClosePc} {board : Board} (hc : s.button = some (.close c))
      (hne : c ≠ .errorHandler) (hstep : closeStep c a s.board = some (c', board)) :
      Moves s (.button a) { s with board := board, button := some (.close c') }
  | terminate {a : Answer} (hpc : s.button = some .terminateMain) :
      Moves s (.button a) { s with main := none, button := some (.close .writeUnsubscribe) }
  | wait {a : Answer} {pc pc' : ButtonPc} (hpc : s.button = some pc)
      (hopen : ∀ c, pc ≠ .close c) (hopen' : ∀ c, pc' ≠ .close c) :
      Moves s (.button a) { s with button := some pc' }

namespace System

/-- A call of `Main_Thread` does not put the button task into `Close_Program`. -/
theorem close_of_main {s : System} {pc : MainPc} {c : ClosePc}
    (h : (if pc = .buttonThreadNew then some ButtonPc.b1Read else s.button)
      = some (.close c)) : s.button = some (.close c) := by
  by_cases hnew : pc = .buttonThreadNew
  · rw [if_pos hnew] at h
    cases h
  · rwa [if_neg hnew] at h

theorem stepMain_moves {s s' : System} {a : Answer} (h : s.stepMain a = some s') :
    s.Moves (.main a) s' := by
  obtain ⟨pc, hpc, h⟩ := Option.bind_eq_some_iff.mp h
  by_cases hhalt : pc = .errorHandler
  · rw [if_pos hhalt] at h
    cases h
    exact .halt
  · rw [if_neg hhalt] at h
    obtain ⟨⟨pc', board⟩, hstep, rfl⟩ := Option.map_eq_some_iff.mp h
    exact .main hpc hhalt hstep

theorem stepLink_moves {s s' : System} {a : Answer} (h : s.stepLink a = some s') :
    s.Moves (.link a) s' := by
  obtain ⟨pc, -, h⟩ := Option.bind_eq_some_iff.mp h
  by_cases hhalt : pc = .errorHandler
  · rw [if_pos hhalt] at h
    cases h
    exact .halt
  · rw [if_neg hhalt] at h
    obtain ⟨pc', -, rfl⟩ := Option.map_eq_some_iff.mp h
    exact .link pc'

theorem stepButton_moves {s s' : System} {a : Answer} (h : s.stepButton a = some s') :
    s.Moves (.button a) s' := by
  obtain ⟨pc, hpc, h⟩ := Option.bind_eq_some_iff.mp h
  by_cases hhalt : pc = .close .errorHandler
  · rw [if_pos hhalt] at h
    cases h
    exact .halt
  · rw [if_neg hhalt] at h
    obtain ⟨⟨pc', board⟩, hstep, rfl⟩ := Option.map_eq_some_iff.mp h
    cases pc with
    | close c =>
        obtain ⟨⟨c', board'⟩, hclose, heq⟩ := Option.map_eq_some_iff.mp hstep
        cases heq
        exact .close hpc (fun hc => hhalt (by rw [hc])) hclose
    | terminateMain =>
        cases a <;> cases hstep
        exact .terminate hpc
    | b1Read =>
        cases a <;> cases hstep
        refine .wait hpc (by simp) fun c => ?_
        split <;> simp
    | uartStop | uartStart | delay =>
        cases a <;> cases hstep
        exact .wait hpc (by simp) (by simp)

theorem step_moves {s s' : System} {act : Action} (h : s.step act = some s') :
    s.Moves act s' := by
  by_cases hlocked : s.locked = true
  · simp [step, hlocked] at h
  · cases act with
    | main a =>
        rw [step, if_neg hlocked] at h
        exact stepMain_moves h
    | link a =>
        rw [step, if_neg hlocked] at h
        exact stepLink_moves h
    | button a =>
        rw [step, if_neg hlocked] at h
        exact stepButton_moves h

end System

end NucleoMqtt.App
