import NucleoMqtt.App.Opening

/-!
# App — how the tasks use the connection

Two tasks use one connection without a lock. `Line` is what may be done
with a connection at each point: nothing before it is set up, nothing after
it is closed, and a wait for a packet only right behind a packet of one's
own. `MainPc.On` and `ClosePc.On` say where on the line each call finds it;
`Lined` puts the tasks together, and the monitor rule follows a run.
-/

namespace NucleoMqtt.App

open NucleoMqtt.Lib NucleoMqtt.Mqtt

/-! ## The line -/

/-- What a call does with the connection. -/
inductive Use where
  /-- `Sw_MQTT_Init`, and whether it returns no negative value -/
  | init (ok : Bool)
  | write
  | read
  | close
deriving DecidableEq

/-- How far a connection is. -/
inductive Line where
  | down
  | up
  /-- the last use has been a write -/
  | sent
  /-- the last use has been a read -/
  | heard
  | closed
deriving DecidableEq

namespace Line

/-- What may be done next. -/
def step : Line → Use → Option Line
  | down, .init ok => some (if ok then up else closed)
  | up, .write | sent, .write | heard, .write => some sent
  | sent, .read => some heard
  | sent, .close => some closed
  | _, _ => none

/-- The session is open. -/
def Busy (l : Line) : Prop := l = sent ∨ l = heard

/-- No use takes a connection down again. -/
theorem step_ne_down {l : Line} {u : Use} : step l u ≠ some down := by
  cases u with
  | init ok => cases l <;> cases ok <;> rintro ⟨⟩
  | write | read | close => cases l <;> rintro ⟨⟩

/-- Only a write leads to where a packet may be waited for. -/
theorem step_sent {l : Line} {u : Use} (h : step l u = some sent) : u = .write := by
  cases u with
  | write => rfl
  | init ok => cases l <;> cases ok <;> cases h
  | read | close => cases l <;> cases h

/-- After a connection is closed nothing is done with it. -/
theorem run_closed {us : List Use} {l : Line} (h : Machine.run step closed us = some l) :
    us = [] ∧ l = closed := by
  cases us with
  | nil =>
      cases h
      exact ⟨rfl, rfl⟩
  | cons u us => cases u <;> cases h

/-- Where a connection is used, by the uses in front. -/
theorem run_split {pre post : List Use} {u : Use} {l : Line}
    (h : Machine.run step down (pre ++ u :: post) = some l) :
    ∃ l₁ l₂, Machine.run step down pre = some l₁ ∧ step l₁ u = some l₂ ∧
      Machine.run step l₂ post = some l := by
  rw [Machine.run_append] at h
  obtain ⟨l₁, hpre, h⟩ := Option.bind_eq_some_iff.mp h
  obtain ⟨l₂, hstep, hpost⟩ := Option.bind_eq_some_iff.mp h
  exact ⟨l₁, l₂, hpre, hstep, hpost⟩

/-- The last use leaves the line where it is. -/
theorem last_use {us : List Use} {l : Line} (h : Machine.run step down us = some l) :
    us = [] ∧ l = down ∨ ∃ us' u l', us = us' ++ [u] ∧ step l' u = some l := by
  rcases List.eq_nil_or_concat us with rfl | ⟨us', u, rfl⟩
  · cases h
    exact Or.inl ⟨rfl, rfl⟩
  · rw [List.concat_eq_append] at h ⊢
    obtain ⟨l', l₂, -, hstep, hend⟩ := run_split h
    cases hend
    exact Or.inr ⟨us', u, l', rfl, hstep⟩

/-- An open connection has been set up with success. -/
theorem first_use {us : List Use} {l : Line} (h : Machine.run step down us = some l)
    (hdown : l ≠ down) (hclosed : l ≠ closed) : ∃ rest, us = .init true :: rest := by
  cases us with
  | nil =>
      cases h
      exact absurd rfl hdown
  | cons u us =>
      cases u with
      | init ok =>
          cases ok with
          | true => exact ⟨us, rfl⟩
          | false => exact absurd (run_closed h).2 hclosed
      | write | read | close => cases h

end Line

/-- What using a connection in order means. -/
structure UsedInOrder (us : List Use) : Prop where
  /-- it is set up once, before anything else -/
  init : ∀ pre post ok, us = pre ++ .init ok :: post → pre = []
  /-- it is used only once that has succeeded -/
  opened : ∀ pre post u, us = pre ++ u :: post → (∀ ok, u ≠ .init ok) →
    ∃ rest, pre = .init true :: rest
  /-- a packet is waited for right behind one that is sent -/
  read : ∀ pre post, us = pre ++ .read :: post → ∃ pre', pre = pre' ++ [.write]
  /-- nothing follows the end of it -/
  close : ∀ pre post, us = pre ++ .close :: post → post = []

/-- What the line allows is in order. -/
theorem Line.usedInOrder {us : List Use} {l : Line} (h : Machine.run step down us = some l) :
    UsedInOrder us where
  init := by
    rintro pre post ok rfl
    obtain ⟨l₁, l₂, hpre, hstep, -⟩ := run_split h
    obtain ⟨rfl, -⟩ | ⟨pre', u, l', rfl, hlast⟩ := last_use hpre
    · rfl
    · cases l₁ with
      | down => exact absurd hlast step_ne_down
      | _ => cases hstep
  opened := by
    rintro pre post u rfl hu
    obtain ⟨l₁, l₂, hpre, hstep, -⟩ := run_split h
    refine first_use hpre ?_ ?_
    · rintro rfl
      cases u with
      | init ok => exact hu ok rfl
      | _ => cases hstep
    · rintro rfl
      cases u <;> cases hstep
  read := by
    rintro pre post rfl
    obtain ⟨l₁, l₂, hpre, hstep, -⟩ := run_split h
    obtain ⟨-, rfl⟩ | ⟨pre', u, l', rfl, hlast⟩ := last_use hpre
    · cases hstep
    · cases l₁ with
      | sent =>
          obtain rfl := step_sent hlast
          exact ⟨pre', rfl⟩
      | _ => cases hstep
  close := by
    rintro pre post rfl
    obtain ⟨l₁, l₂, -, hstep, hpost⟩ := run_split h
    cases l₁ with
    | sent =>
        cases hstep
        exact (run_closed hpost).1
    | _ => cases hstep

/-- What a call of `Main_Thread` does with the connection. -/
def MainPc.use : MainPc → Answer → List Use
  | .mqttInit, .int value => [.init (0 ≤ value)]
  | .writeConnect, _ | .writeSubscribe, _ | .publishConnected, _ | .writePingreq, _
  | .publishLed _, _ | .publishDate _, _ => [.write]
  | .readConnack, _ | .readSuback, _ | .read, _ | .readAgain, _ => [.read]
  | _, _ => []

/-- What a call of `Close_Program` does with it. -/
def ClosePc.use : ClosePc → List Use
  | .writeUnsubscribe | .publishDisconnected | .writeDisconnect => [.write]
  | .readUnsuback => [.read]
  | .mqttClose => [.close]
  | .errorHandler => []

/-- What the next call of a task does with it. -/
def System.use (s : System) : Action → List Use
  | .main a => s.main.elim [] (·.use a)
  | .link _ => []
  | .button _ =>
      match s.button with
      | some (.close c) => c.use
      | _ => []

/-- The uses of the connection over a run. -/
def System.uses (acts : List Action) : List Use :=
  Machine.trace System.step System.use System.init acts

/-! ## Where the calls find the line -/

/-- Where on the line each call of `Main_Thread` is made. -/
def MainPc.On (l : Line) : MainPc → Prop
  | .writeConnect => l = .up
  | .readConnack | .readSuback | .ld3On | .buttonThreadNew | .read | .readAgain => l = .sent
  | .writeSubscribe | .publishConnected | .writePingreq | .led _ | .publishLed _ | .rtcRead
  | .publishDate _ => l = .heard
  | .errorHandler => True
  | _ => l = .down

/-- Where on the line each call of `Close_Program` is made. -/
def ClosePc.On (l : Line) : ClosePc → Prop
  | .writeUnsubscribe => l.Busy
  | .publishDisconnected => l = .heard
  | .readUnsuback | .writeDisconnect | .mqttClose => l = .sent
  | .errorHandler => True

theorem dispatch_on (buf : Block UInt8 RECV_BUF_SIZE) : (dispatch buf).On .heard := by
  rw [dispatch]
  cases commandIn buf <;> rfl

/-- **Every call of Main_Thread keeps to the line.** -/
theorem mainStep_on {pc pc' : MainPc} {a : Answer} {b b' : Board} {l : Line} (h : pc.On l)
    (hne : pc ≠ .errorHandler) (hstep : mainStep pc a b = some (pc', b')) :
    ∃ l', Machine.run Line.step l (pc.use a) = some l' ∧ pc'.On l' ∧
      (l.Busy → l'.Busy) := by
  cases pc with
  | ld1On | tcpipInit | linkThreadNew | tickDelay | ld2On | rtcWrite | ld3On | buttonThreadNew
  | led c =>
      cases a <;> cases hstep
      exact ⟨l, rfl, h, id⟩
  | rtcRead =>
      cases a <;> cases hstep
      exact ⟨l, rfl, h, id⟩
  | ethLinkStatus | dhcpRequest | dnsRequestNtp | ntpRequest | dnsRequestMqtt =>
      cases a <;> cases hstep
      refine ⟨l, rfl, ?_, id⟩
      split
      · first | exact h | trivial
      · exact h
  | mqttInit =>
      cases a with
      | int value =>
          cases hstep
          obtain rfl : l = .down := h
          refine ⟨_, rfl, ?_, by rintro (h | h) <;> cases h⟩
          by_cases hv : value < 0
          · rw [if_pos hv]
            trivial
          · rw [if_neg hv, decide_eq_true (Int.not_lt.mp hv)]
            rfl
      | _ => cases hstep
  | writeConnect | writeSubscribe | publishConnected | publishLed c | publishDate text =>
      cases a with
      | void =>
          obtain ⟨rfl, -⟩ := map_write _ hstep
          obtain rfl := h
          exact ⟨.sent, rfl, rfl, fun _ => Or.inl rfl⟩
      | _ => cases hstep
  | writePingreq =>
      cases a with
      | void =>
          obtain ⟨rfl, -⟩ := map_write .pingreq hstep
          obtain rfl := h
          exact ⟨.sent, rfl, rfl, fun _ => Or.inl rfl⟩
      | _ => cases hstep
  | readConnack | readSuback | read | readAgain =>
      cases a with
      | recv r =>
          obtain ⟨⟨v, b₁⟩, -, heq⟩ := Option.map_eq_some_iff.mp hstep
          cases heq
          obtain rfl : l = .sent := h
          refine ⟨.heard, rfl, ?_, fun _ => Or.inr rfl⟩
          split
          · first | rfl | trivial
          · first | rfl | exact dispatch_on _
      | _ => cases hstep
  | errorHandler => exact absurd rfl hne

/-- **Every call of Close_Program keeps to the line.** -/
theorem closeStep_on {pc pc' : ClosePc} {a : Answer} {b b' : Board} {l : Line} (h : pc.On l)
    (hstep : closeStep pc a b = some (pc', b')) :
    ∃ l', Machine.run Line.step l pc.use = some l' ∧ pc'.On l' := by
  obtain ⟨w, hw, -⟩ | ⟨rfl, r, v, -, -, rfl⟩ | ⟨rfl, rfl, -⟩ := closeStep_cases hstep
  · cases hw with
    | unsubscribe =>
        rcases h with rfl | rfl
        · exact ⟨.sent, rfl, rfl⟩
        · exact ⟨.sent, rfl, rfl⟩
    | disconnected | disconnect =>
        obtain rfl := h
        exact ⟨.sent, rfl, rfl⟩
  · obtain rfl := h
    refine ⟨.heard, rfl, ?_⟩
    split
    · trivial
    · rfl
  · obtain rfl := h
    exact ⟨.closed, rfl, trivial⟩

/-! ## The tasks together -/

/-- Locking the kernel uses nothing. -/
theorem System.use_of_locked {s s' : System} {act : Action} (h : s.step act = some s')
    (hlocked : s'.locked = true) : s.use act = [] := by
  by_cases hs : s.locked = true
  · simp [System.step, hs] at h
  cases act with
  | link a => rfl
  | main a =>
      rw [System.step, if_neg hs] at h
      obtain ⟨pc, hpc, h⟩ := Option.bind_eq_some_iff.mp h
      by_cases hhalt : pc = .errorHandler
      · rw [System.use, hpc, hhalt]
        rfl
      · rw [if_neg hhalt] at h
        obtain ⟨⟨pc', board⟩, -, rfl⟩ := Option.map_eq_some_iff.mp h
        exact absurd hlocked hs
  | button a =>
      rw [System.step, if_neg hs] at h
      obtain ⟨pc, hpc, h⟩ := Option.bind_eq_some_iff.mp h
      by_cases hhalt : pc = .close .errorHandler
      · rw [System.use, hpc, hhalt]
        rfl
      · rw [if_neg hhalt] at h
        obtain ⟨⟨pc', board⟩, -, rfl⟩ := Option.map_eq_some_iff.mp h
        exact absurd hlocked hs

/-- All tasks find the connection where they expect it. `Button_Thread` is
created in an open session, and takes it over from `Main_Thread`. -/
structure Lined (l : Line) (s : System) : Prop where
  main : ∀ pc, s.main = some pc → pc.On l
  waiting : ∀ pc, s.button = some pc → (∀ c, pc ≠ .close c) → l.Busy
  closing : ∀ c, s.button = some (.close c) → s.main = none ∧ c.On l

namespace Lined

theorem init : Lined .down System.init where
  main := by
    rintro pc ⟨⟩
    rfl
  waiting := by rintro pc ⟨⟩
  closing := by rintro c ⟨⟩

/-- **One call of any task** keeps to the line. -/
theorem step {l : Line} {s s' : System} {act : Action} (h : Lined l s)
    (hstep : s.step act = some s') :
    ∃ l', Machine.run Line.step l (s.use act) = some l' ∧ Lined l' s' := by
  cases System.step_moves hstep with
  | halt =>
      rw [System.use_of_locked hstep rfl]
      exact ⟨l, rfl, h.main, h.waiting, h.closing⟩
  | @main a pc pc' board hpc hne hmain =>
      obtain ⟨l', hrun, hon, hbusy⟩ := mainStep_on (h.main pc hpc) hne hmain
      refine ⟨l', ?_, ?_, ?_, ?_⟩
      · rw [System.use, hpc]
        exact hrun
      · rintro pc'' ⟨⟩
        exact hon
      · intro pcButton hbutton hclose
        by_cases hnew : pc = .buttonThreadNew
        · -- the button task is new, behind the PUBLISH that opens the session
          subst hnew
          obtain rfl : l = .sent := h.main _ hpc
          exact hbusy (Or.inl rfl)
        · rw [if_neg hnew] at hbutton
          exact hbusy (h.waiting pcButton hbutton hclose)
      · intro c hclose
        rw [(h.closing c (System.close_of_main hclose)).1] at hpc
        cases hpc
  | link pc' => exact ⟨l, rfl, h.main, h.waiting, h.closing⟩
  | @close a c c' board hc hne hclose =>
      obtain ⟨hnone, hon⟩ := h.closing c hc
      obtain ⟨l', hrun, hon'⟩ := closeStep_on hon hclose
      refine ⟨l', ?_, ?_, ?_, ?_⟩
      · rw [System.use, hc]
        exact hrun
      · intro pc hpc
        rw [hnone] at hpc
        cases hpc
      · rintro pc ⟨⟩ hopen
        exact absurd rfl (hopen c')
      · rintro c'' ⟨⟩
        exact ⟨hnone, hon'⟩
  | terminate hpc =>
      have hbusy := h.waiting _ hpc (by simp)
      refine ⟨l, ?_, ?_, ?_, ?_⟩
      · rw [System.use, hpc]
        rfl
      · rintro pc ⟨⟩
      · rintro pc ⟨⟩ hopen
        exact absurd rfl (hopen _)
      · rintro c ⟨⟩
        exact ⟨rfl, hbusy⟩
  | @wait a pc pc' hpc hopen hopen' =>
      refine ⟨l, ?_, h.main, ?_, ?_⟩
      · rw [System.use, hpc]
        cases pc with
        | close c => exact absurd rfl (hopen c)
        | _ => rfl
      · intro _ _ _
        exact h.waiting pc hpc hopen
      · intro c hc
        exact absurd (Option.some.inj hc) (hopen' c)

end Lined

/-! ## Runs -/

/-- The line allows every run. -/
theorem uses_allowed {acts : List Action} {s : System}
    (hrun : Machine.run System.step System.init acts = some s) :
    ∃ l, Machine.run Line.step .down (System.uses acts) = some l := by
  obtain ⟨l, hline, -⟩ := Machine.run_monitor Lined
    (fun _ _ _ _ h hstep => h.step hstep) Lined.init hrun
  exact ⟨l, hline⟩

/-- **The connection is used in order, under any scheduler.** Whatever the
calls are answered and however the tasks are interleaved, nothing is written
or read before `Sw_MQTT_Init` has succeeded or after `Sw_MQTT_Close`, and
every read stands right behind a write: the tasks never wait for a second
packet without sending one in between. -/
theorem connection_in_order {acts : List Action} {s : System}
    (hrun : Machine.run System.step System.init acts = some s) :
    UsedInOrder (System.uses acts) := by
  obtain ⟨l, hline⟩ := uses_allowed hrun
  exact Line.usedInOrder hline

/-- The session opened by a broker that answers at once. -/
theorem connection_in_order_opening :
    ∃ s, Machine.run System.step System.init
        (bootCalls ++ openingCalls connackDelivery subackDelivery) = some s ∧
      UsedInOrder (System.uses (bootCalls ++ openingCalls connackDelivery subackDelivery)) := by
  obtain ⟨b, -, -, -, -, hopening, -⟩ := session_opens (fun _ _ => True) connackDelivery
    subackDelivery (by decide +kernel) (by decide +kernel) (fun _ => trivial)
    (fun _ _ => trivial) (fun _ => trivial) (fun _ _ => trivial)
  exact ⟨_, hopening, connection_in_order hopening⟩

end NucleoMqtt.App
