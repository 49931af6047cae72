import NucleoMqtt.App.Connection
import NucleoMqtt.Tls.Authentication

/-!
# App — packets for an authentic server

`Sw_MQTT_Init` is `TLS_Init`. Nothing but its result tells the tasks who is at
the other end, and that is enough: no packet is written and none is read
before a handshake has ended with an authentic server.
-/

namespace NucleoMqtt.App

open NucleoMqtt.Lib NucleoMqtt.Tls

variable {env : Platform} {caCrt : List X509Crt} {curveList : List EcpGroupId}
  {useClientAuth : Bool} {host : List UInt8}

/-- `TLS_Init` from the handshake on. -/
def tlsInit (env : Platform) (caCrt : List X509Crt) (curveList : List EcpGroupId)
    (useClientAuth : Bool) (host : List UInt8) (turns : List HandshakeTurn) : Option Int :=
  (sslHandshake env (tlsConf caCrt curveList useClientAuth) turns (tlsContext host)).map
    fun result => if result.1 < 0 then result.1 else 0

/-- `Sw_MQTT_Init` answers what `TLS_Init` does, or with an error in front of
the handshake. -/
def InitOverTls (env : Platform) (caCrt : List X509Crt) (curveList : List EcpGroupId)
    (useClientAuth : Bool) (host : List UInt8) (s : System) (act : Action) : Prop :=
  ∀ value, s.main = some .mqttInit → act = .main (.int value) →
    value < 0 ∨ ∃ turns, tlsInit env caCrt curveList useClientAuth host turns = some value

/-- Only the result of a handshake that returns 0 is not negative. -/
theorem tlsInit_succeeds {turns : List HandshakeTurn} {value : Int}
    (h : tlsInit env caCrt curveList useClientAuth host turns = some value) (hvalue : 0 ≤ value) :
    ∃ ssl, sslHandshake env (tlsConf caCrt curveList useClientAuth) turns (tlsContext host) =
      some (0, ssl) := by
  obtain ⟨⟨ret, ssl⟩, hrun, hret⟩ := Option.map_eq_some_iff.mp h
  have hnonpos := sslHandshake_nonpos hrun
  split at hret
  case isTrue hneg => exact absurd hvalue (Int.not_le.mpr (hret ▸ hneg))
  case isFalse hpos =>
      obtain rfl : ret = 0 := Int.le_antisymm hnonpos (Int.not_lt.mp hpos)
      exact ⟨ssl, hrun⟩

/-- The connection is set up with success by one call only. -/
theorem init_of_use {s : System} {act : Action} (h : .init true ∈ s.use act) :
    ∃ value, s.main = some .mqttInit ∧ act = .main (.int value) ∧ 0 ≤ value := by
  cases act with
  | main a =>
      cases hmain : s.main with
      | none => simp [System.use, hmain] at h
      | some pc =>
          replace h : .init true ∈ pc.use a := by simpa [System.use, hmain] using h
          cases pc with
          | mqttInit =>
              cases a with
              | int value =>
                  refine ⟨value, rfl, rfl, ?_⟩
                  simpa [MainPc.use] using h
              | _ => simp [MainPc.use] at h
          | _ => simp [MainPc.use] at h
  | link a => simp [System.use] at h
  | button a =>
      simp only [System.use] at h
      split at h
      case h_1 button c hbutton => cases c <;> simp [ClosePc.use] at h
      case h_2 => cases h

/-- **No packet before authentication.** In every run in which `Sw_MQTT_Init`
answers what `TLS_Init` does, a packet is written or waited for only behind a
handshake that has ended with a server whose certificate is for the host and
leads to the CA of the program. -/
theorem packets_authenticated {acts : List Action} {s : System}
    (hinit : Machine.Along System.step
      (InitOverTls env caCrt curveList useClientAuth host) System.init acts)
    (hrun : Machine.run System.step System.init acts = some s)
    (huse : .write ∈ System.uses acts ∨ .read ∈ System.uses acts) :
    ∃ turns ssl, sslHandshake env (tlsConf caCrt curveList useClientAuth) turns (tlsContext host) =
        some (0, ssl) ∧
      ∃ crt next path, ssl.peerCert = crt :: next ∧ IsFor crt (some host) ∧
        KeyWell x509CrtProfileDefault crt ∧
        x509CrtCheckKeyUsage crt ssl.keyExchange.usage = true ∧
        x509CrtCheckExtendedKeyUsage crt MBEDTLS_OID_SERVER_AUTH = true ∧
        Authentic env x509CrtProfileDefault [] caCrt crt next path := by
  obtain ⟨l, hline⟩ := uses_allowed hrun
  obtain ⟨u, hu, hother⟩ : ∃ u ∈ System.uses acts, ∀ ok, u ≠ .init ok := by
    rcases huse with hwrite | hread
    · exact ⟨.write, hwrite, fun _ h => nomatch h⟩
    · exact ⟨.read, hread, fun _ h => nomatch h⟩
  obtain ⟨pre, post, hsplit⟩ := List.append_of_mem hu
  obtain ⟨rest, hpre⟩ := (Line.usedInOrder hline).opened pre post u hsplit hother
  have hfirst : .init true ∈ System.uses acts := by
    rw [hsplit, hpre]
    exact List.mem_append_left _ List.mem_cons_self
  obtain ⟨s₁, act, hanswer, hmem⟩ := Machine.exists_of_mem_trace hinit hfirst
  obtain ⟨value, hmain, hact, hvalue⟩ := init_of_use hmem
  rcases hanswer value hmain hact with hneg | ⟨turns, hturns⟩
  · exact absurd hvalue (Int.not_le.mpr hneg)
  · obtain ⟨ssl, hhandshake⟩ := tlsInit_succeeds hturns hvalue
    exact ⟨turns, ssl, hhandshake, (sslHandshake_authentic hhandshake).2⟩

/-- The program up to CONNECT. -/
def firstPacket : List Action := bootCalls ++ [.main .void]

theorem packets_authenticated_firstPacket : ∃ turns ssl,
    sslHandshake platformIn2026 (tlsConf [rootCrt] [.secp256r1] false) turns
        (tlsContext serverHost) = some (0, ssl) ∧
      ∃ crt next path, ssl.peerCert = crt :: next ∧ IsFor crt (some serverHost) ∧
        KeyWell x509CrtProfileDefault crt ∧
        x509CrtCheckKeyUsage crt ssl.keyExchange.usage = true ∧
        x509CrtCheckExtendedKeyUsage crt MBEDTLS_OID_SERVER_AUTH = true ∧
        Authentic platformIn2026 x509CrtProfileDefault [] [rootCrt] crt next path := by
  have htls : tlsInit platformIn2026 [rootCrt] [.secp256r1] false serverHost
      (List.replicate 17 goodTurn) = some 0 := by decide +kernel
  have hinit : Machine.Along System.step
      (InitOverTls platformIn2026 [rootCrt] [.secp256r1] false serverHost) System.init
      firstPacket := by
    apply Machine.along_of_forall
    rintro s act hact value - rfl
    obtain rfl : value = 0 := by simpa [firstPacket, bootCalls] using hact
    exact Or.inr ⟨_, htls⟩
  have hrun : (Machine.run System.step System.init firstPacket).isSome = true := by
    decide +kernel
  obtain ⟨s, hs⟩ := Option.isSome_iff_exists.mp hrun
  exact packets_authenticated hinit hs (Or.inl (by decide +kernel))

end NucleoMqtt.App
