import NucleoMqtt.App.Calls

/-!
# App — a session is disciplined while its waits are

`Behind` is what each call of `Main_Thread` and `Close_Program` has behind
it in the log; a call that is given what it waits for hands it on to the
next, and `Inv` puts the tasks together. So every run under any scheduler
in which the waits are `Awaited` is disciplined.
-/

namespace NucleoMqtt.App

open NucleoMqtt.Lib NucleoMqtt.Spec NucleoMqtt.Mqtt

/-! ## The invariant -/

/-- A SUBSCRIBE is on its way behind the CONNACK, with the counter's identifier. -/
def SubscribeSent (b : Board) : Prop :=
  ∃ before after packet, b.log = before ++ .wrote .subscribe packet :: after ∧
    ConnackRead before ∧ wireId packet = some (wireValue b.packetId)

/-- An UNSUBSCRIBE is on its way, with the counter's identifier. -/
def UnsubscribeSent (b : Board) : Prop :=
  ∃ before after packet, b.log = before ++ .wrote .unsubscribe packet :: after ∧
    wireId packet = some (wireValue b.packetId)

/-- What `Main_Thread` has behind it at each call. -/
def MainPc.Behind (b : Board) (pc : MainPc) : Prop :=
  match pc.phase with
  | .boot => True
  | .accepted => ConnackRead b.log
  | .subscribing => SubscribeSent b
  | .subscribed => SubackRead b.log
  | .done => True

/-- What `Close_Program` has behind it at each call. -/
def ClosePc.Behind (b : Board) : ClosePc → Prop
  | .writeUnsubscribe => True
  | .readUnsuback => UnsubscribeSent b
  | .publishDisconnected | .writeDisconnect | .mqttClose => UnsubackRead b.log
  | .errorHandler => True

namespace Ordered

theorem nil : Ordered [] :=
  ⟨Machine.guarded_nil _ _, Machine.guarded_nil _ _, Machine.guarded_nil _ _⟩

/-- A read needs nothing behind it. -/
theorem read {log : List Event} (h : Ordered log) (r : Recv RECV_BUF_SIZE) (v : Int) :
    Ordered (log ++ [.read r v]) :=
  ⟨h.subscribe.concat False.elim, h.connected.concat False.elim, h.closing.concat False.elim⟩

/-- A write needs what its kind waits for. -/
theorem write {log : List Event} (h : Ordered log) {w : Write} (packet : List UInt8)
    (hsub : w = .subscribe → ConnackRead log) (hconn : w = .connected → SubackRead log)
    (hclose : w ∈ [.disconnected, .disconnect] → UnsubackRead log) :
    Ordered (log ++ [.wrote w packet]) :=
  ⟨h.subscribe.concat fun hw => hsub (List.mem_singleton.mp hw),
    h.connected.concat fun hw => hconn (List.mem_singleton.mp hw), h.closing.concat hclose⟩

end Ordered

namespace MainPc

/-- Within a phase, what is behind a call stays behind. -/
theorem Behind.append {b b' : Board} {pc pc' : MainPc} {es : List Event} (h : pc.Behind b)
    (hlog : b'.log = b.log ++ es) (hid : b'.packetId = b.packetId)
    (hphase : pc'.phase = pc.phase ∨ pc'.phase = .done) : pc'.Behind b' := by
  rw [Behind] at h ⊢
  rcases hphase with hphase | hphase
  · rw [hphase]
    cases hpc : pc.phase with
    | boot | done => trivial
    | accepted =>
        rw [hpc] at h
        simp only at h ⊢
        rw [hlog]
        exact h.append es
    | subscribing =>
        rw [hpc] at h
        obtain ⟨before, after, packet, hsplit, hconnack, hwire⟩ := h
        exact ⟨before, after ++ es, packet, by simp [hlog, hsplit], hconnack, by rw [hid, hwire]⟩
    | subscribed =>
        rw [hpc] at h
        simp only at h ⊢
        rw [hlog]
        exact h.append es
  · rw [hphase]
    trivial

/-- A packet handed over finds behind it what it waits for. -/
theorem Behind.writes {pc pc' : MainPc} {w : Write} {b b' : Board} (h : pc.Behind b)
    (hordered : Ordered b.log) (hw : pc.Writes w pc') (hwrite : b.write w = some b') :
    pc'.Behind b' ∧ Ordered b'.log := by
  cases hw with
  | subscribe =>
      -- the counter moves on, and the packet carries its value
      obtain ⟨packet, hwrite', hwire⟩ := b.write_subscribe
      obtain rfl := Option.some.inj (hwrite.symm.trans hwrite')
      have hconnack : ConnackRead b.log := h
      exact ⟨⟨b.log, [], packet, rfl, hconnack, hwire⟩,
        hordered.write packet (fun _ => hconnack) (by simp) (by simp)⟩
  | connected =>
      obtain ⟨packet, hlog, hid⟩ := Board.write_cases hwrite (by simp) (by simp)
      have hsuback : SubackRead b.log := h
      refine ⟨h.append hlog hid (Or.inl rfl), ?_⟩
      rw [hlog]
      exact hordered.write packet (by simp) (fun _ => hsuback) (by simp)
  | connect | pingreq | confirm c | date text =>
      obtain ⟨packet, hlog, hid⟩ := Board.write_cases hwrite (by simp) (by simp)
      refine ⟨h.append hlog hid (Or.inl rfl), ?_⟩
      rw [hlog]
      exact hordered.write packet (by simp) (by simp) (by simp)

/-- A wait that gets what it is meant for hands it on. -/
theorem Behind.reads {pc pc' : MainPc} {r : Recv RECV_BUF_SIZE} {v : Int} {b b' : Board}
    (h : pc.Behind b) (hok : Awaits (pc.Wants b ·) r) (hread : b.read r = some (v, b'))
    (hnext : Reads b'.buf v pc pc') : pc'.Behind b' := by
  obtain ⟨hlog, hid⟩ := Board.read_cases hread
  cases hnext with
  | connack hv =>
      obtain ⟨p, rfl, sessionPresent, properties, hp⟩ := hok.accepted hread hv
      exact ⟨p, sessionPresent, properties, v, hp, by simp [hlog]⟩
  | suback hv =>
      obtain ⟨p, rfl, properties, hp⟩ := hok.accepted hread hv
      obtain ⟨before, after, packet, hsplit, hconnack, hwire⟩ := h
      exact ⟨before, after ++ [.read p.alone.recv v], packet, _, p, properties, v,
        by simp [hlog, hsplit], hconnack, hwire, hp, by simp⟩
  | packet hpc hstage hv =>
      exact h.append hlog hid (Or.inl ((dispatch_spec b'.buf).1.trans hpc.symm))
  | nothing hv => exact h.append hlog hid (Or.inl rfl)
  | lost hv => exact h.append hlog hid (Or.inr rfl)

/-- **A call of Main_Thread** keeps the order and has behind it what it
should. -/
theorem Behind.step {pc pc' : MainPc} {a : Answer} {b b' : Board} (h : pc.Behind b)
    (hordered : Ordered b.log) (hok : ∀ r, a = .recv r → Awaits (pc.Wants b ·) r)
    (hstep : mainStep pc a b = some (pc', b')) : pc'.Behind b' ∧ Ordered b'.log := by
  obtain ⟨hlog, hid, hpasses⟩ | ⟨w, hw, hwrite⟩ | ⟨r, v, rfl, hread, hnext⟩ :=
    mainStep_cases hstep
  · have hlog' : b'.log = b.log ++ [] := by rw [hlog, List.append_nil]
    have hphase : pc'.phase = pc.phase ∨ pc'.phase = .done := by
      rcases hpasses with rfl | ⟨hphase, -⟩
      · exact Or.inr rfl
      · exact Or.inl hphase
    refine ⟨h.append hlog' hid hphase, ?_⟩
    rw [hlog]
    exact hordered
  · exact h.writes hordered hw hwrite
  · refine ⟨h.reads (hok r rfl) hread hnext, ?_⟩
    rw [(Board.read_cases hread).1]
    exact hordered.read r v

end MainPc

/-- A packet handed over while closing finds behind it what it waits for. -/
theorem ClosePc.Behind.writes {pc pc' : ClosePc} {w : Write} {b b' : Board} (h : pc.Behind b)
    (hordered : Ordered b.log) (hw : pc.Writes w pc') (hwrite : b.write w = some b') :
    pc'.Behind b' ∧ Ordered b'.log := by
  cases hw with
  | unsubscribe =>
      obtain ⟨packet, hwrite', hwire⟩ := b.write_unsubscribe
      obtain rfl := Option.some.inj (hwrite.symm.trans hwrite')
      exact ⟨⟨b.log, [], packet, rfl, hwire⟩,
        hordered.write packet (by simp) (by simp) (by simp)⟩
  | disconnected | disconnect =>
      obtain ⟨packet, hlog, -⟩ := Board.write_cases hwrite (by simp) (by simp)
      have hunsuback : UnsubackRead b.log := h
      refine ⟨?_, ?_⟩
      · show UnsubackRead b'.log
        rw [hlog]
        exact hunsuback.append _
      · rw [hlog]
        exact hordered.write packet (by simp) (by simp) (fun _ => hunsuback)

/-- **A call of Close_Program** likewise. -/
theorem ClosePc.Behind.step {pc pc' : ClosePc} {a : Answer} {b b' : Board} (h : pc.Behind b)
    (hordered : Ordered b.log) (hok : ∀ r, a = .recv r → Awaits (pc.Wants b ·) r)
    (hstep : closeStep pc a b = some (pc', b')) : pc'.Behind b' ∧ Ordered b'.log := by
  obtain ⟨w, hw, hwrite⟩ | ⟨rfl, r, v, rfl, hread, rfl⟩ | ⟨rfl, rfl, rfl⟩ :=
    closeStep_cases hstep
  · exact h.writes hordered hw hwrite
  · obtain ⟨hlog, -⟩ := Board.read_cases hread
    refine ⟨?_, by rw [hlog]; exact hordered.read r v⟩
    by_cases hv : v < 0
    · rw [if_pos hv]
      trivial
    · rw [if_neg hv]
      obtain ⟨p, rfl, properties, reasons, hp⟩ :=
        (hok r rfl).accepted hread (Int.not_lt.mp hv)
      obtain ⟨before, after, packet, hsplit, hwire⟩ := h
      exact ⟨before, after ++ [.read p.alone.recv v], packet, _, p, properties, reasons, v,
        by simp [hlog, hsplit], hwire, hp, by simp⟩
  · exact ⟨trivial, hordered⟩

/-- The invariant of the tasks: each has behind it what it should, and
`Main_Thread` is gone once the program closes. -/
structure Inv (s : System) : Prop where
  ordered : Ordered s.board.log
  main : ∀ pc, s.main = some pc → pc.Behind s.board
  closing : ∀ pc, s.button = some (.close pc) → s.main = none ∧ pc.Behind s.board

theorem Inv.init : Inv System.init where
  ordered := Ordered.nil
  main := by
    rintro pc ⟨⟩
    trivial
  closing := by
    rintro pc ⟨⟩

/-- What is known of the log and the counter does not see the LEDs. -/
theorem Inv.halt {s : System} (h : Inv s) : Inv s.halt :=
  ⟨h.ordered, h.main, h.closing⟩

/-- A call of `Main_Thread`, which runs and so has not been terminated. -/
theorem Inv.main_call {s : System} {a : Answer} {pc pc' : MainPc} {board : Board} (h : Inv s)
    (hok : Awaited s (.main a)) (hpc : s.main = some pc)
    (hstep : mainStep pc a s.board = some (pc', board)) :
    Inv { s with
      board := board
      main := some pc'
      link := if pc = .linkThreadNew then some .ethLinkStatus else s.link
      button := if pc = .buttonThreadNew then some .b1Read else s.button } := by
  obtain ⟨hbehind, hordered⟩ := (h.main pc hpc).step h.ordered
    (by rintro r rfl; exact hok pc hpc) hstep
  refine ⟨hordered, ?_, ?_⟩
  · rintro pc'' ⟨⟩
    exact hbehind
  · intro c hclose
    rw [(h.closing c (System.close_of_main hclose)).1] at hpc
    cases hpc

/-- **One call of any task** that is given what it waits for. -/
theorem Inv.step {s s' : System} {act : Action} (hok : Awaited s act) (h : Inv s)
    (hstep : s.step act = some s') : Inv s' := by
  cases System.step_moves hstep with
  | halt => exact h.halt
  | main hpc hne hmain => exact h.main_call hok hpc hmain
  | link pc' => exact ⟨h.ordered, h.main, h.closing⟩
  | @close a c c' board hc hne hclose =>
      obtain ⟨hnone, hbehind⟩ := h.closing c hc
      obtain ⟨hbehind', hordered⟩ := hbehind.step h.ordered
        (by rintro r rfl; exact hok c hc) hclose
      refine ⟨hordered, ?_, ?_⟩
      · intro pc hpc
        rw [hnone] at hpc
        cases hpc
      · rintro c'' ⟨⟩
        exact ⟨hnone, hbehind'⟩
  | terminate hpc =>
      refine ⟨h.ordered, ?_, ?_⟩
      · rintro pc ⟨⟩
      · rintro c ⟨⟩
        exact ⟨rfl, trivial⟩
  | wait hpc hopen hopen' =>
      exact ⟨h.ordered, h.main, fun c hc => absurd (Option.some.inj hc) (hopen' c)⟩

theorem Inv.disciplined {s : System} (h : Inv s) : Disciplined s where
  ordered := h.ordered
  loop := by
    intro pc hpc hloop
    have hbehind := h.main pc hpc
    rw [MainPc.Behind, hloop.phase] at hbehind
    exact hbehind

/-- **The session is disciplined while the waits are given what they wait
for.** In every run of the tasks, under any scheduler, in which the three
waits accept no packet but the one awaited, every state is disciplined. -/
theorem session_disciplined {acts : List Action} {s : System}
    (hok : Machine.Along System.step Awaited System.init acts)
    (hrun : Machine.run System.step System.init acts = some s) : Disciplined s :=
  (Machine.run_invariant Inv (fun _ _ _ hok h hstep => h.step hok hstep) Inv.init hok
    hrun).disciplined

end NucleoMqtt.App
