import NucleoMqtt.Tls.Handshake

/-!
# Tls — authentication

A run of the handshake that `TLS_Init` takes for a success has seen an
authentic server. What carries it is the result of the step that checks the
certificate. Later steps use the key in the certificate, but none of them
looks at what the check has found.
-/

namespace NucleoMqtt.Tls

variable {env : Platform} {conf : SslConfig} {ssl ssl' : SslContext} {t : HandshakeTurn}

/-! ## Runs -/

def beforeCertificate : List SslState :=
  [.helloRequest, .clientHello, .serverHello, .serverCertificate]

/-- Between the certificate and the message that shows what the client knows. -/
def beforeSecret : List SslState :=
  [.serverKeyExchange, .certificateRequest, .serverHelloDone, .clientCertificate,
    .clientKeyExchange]

/-- Nobody is trusted without a certificate, except for a while the server that
has none to show. -/
structure Guarded (env : Platform) (conf : SslConfig) (hostname : Option (List UInt8))
    (ssl : SslContext) : Prop where
  hostname : ssl.hostname = hostname
  fresh : ssl.resume = false
  vouched : ssl.state ∈ beforeCertificate ∨
    (ssl.state ∈ beforeSecret ∧ ssl.keyExchange.withoutCertificate = true) ∨ Vouched env conf ssl

variable {hostname : Option (List UInt8)}

/-- From the secret on, the certificate is accepted. -/
theorem Guarded.accepted (hssl : Guarded env conf hostname ssl)
    (hstate : ssl.state ∉ beforeCertificate ++ beforeSecret) : Vouched env conf ssl := by
  rw [List.mem_append, not_or] at hstate
  rcases hssl.vouched with hbefore | ⟨hbefore, -⟩ | hvouched
  · exact absurd hbefore hstate.1
  · exact absurd hbefore hstate.2
  · exact hvouched

theorem Guarded.step (hssl : Guarded env conf hostname ssl) (h : Goes env conf ssl ssl') :
    Guarded env conf hostname ssl' := by
  cases h with
  | hello hstate hnext hhost hresume =>
      refine ⟨hhost.trans hssl.hostname, hresume, Or.inl ?_⟩
      rw [hnext]
      decide
  | skipped hstate hwithout hnext =>
      subst hnext
      refine ⟨hssl.hostname, hssl.fresh, Or.inr (Or.inl ⟨?_, hwithout⟩)⟩
      show ssl.state.next ∈ beforeSecret
      rw [hstate]
      decide
  | vouched hstate hhost hresume hvouched =>
      exact ⟨hhost.trans hssl.hostname, hresume.trans hssl.fresh, Or.inr (Or.inr hvouched)⟩
  | kept hstate hkey hnext hkept =>
      refine ⟨hkept.hostname.trans hssl.hostname, hkept.resume.trans hssl.fresh, ?_⟩
      rcases hnext with hnext | ⟨hticket, -⟩
      · rw [hnext]
        rcases hssl.vouched with hbefore | ⟨hbefore, hwithout⟩ | hvouched
        · left
          revert hstate hbefore
          cases ssl.state <;> decide
        · refine Or.inr (Or.inl ⟨?_, hkept.keyExchange ▸ hwithout⟩)
          have hother : ssl.state ≠ .clientKeyExchange := by
            intro hclient
            rw [hkey hclient] at hwithout
            cases hwithout
          revert hother hbefore
          cases ssl.state <;> decide
        · exact Or.inr (Or.inr (hkept.vouched hvouched))
      · have hvouched := hssl.accepted (by rw [hticket]; decide)
        exact Or.inr (Or.inr (hkept.vouched hvouched))

theorem Guarded.awaitTicket (hssl : Guarded env conf hostname ssl) :
    Guarded env conf hostname (awaitTicket ssl) := by
  unfold NucleoMqtt.Tls.awaitTicket
  split
  case isTrue hticket =>
      have hvouched := hssl.accepted (by rw [hticket.1]; decide)
      exact ⟨hssl.hostname, hssl.fresh, Or.inr (Or.inr hvouched)⟩
  case isFalse => exact hssl

/-- The step that the loop takes. -/
theorem Guarded.clientStep (hssl : Guarded env conf hostname ssl)
    (hrequired : conf.authmode = .required) (hpsk : conf.psk = false)
    (hrunning : ssl.state ≠ .handshakeOver)
    (h : sslHandshakeClientStep env conf ssl t = (0, ssl')) : Guarded env conf hostname ssl' := by
  unfold sslHandshakeClientStep at h
  rw [if_neg hrunning] at h
  have hticket := hssl.awaitTicket
  exact hticket.step (sslHandshakeSwitch_goes hrequired hpsk hticket.fresh (of_noError h))

/-- What steps without an error keep holds until the loop ends: with the
handshake, or with the error of a step. -/
theorem sslHandshake_ends {P : SslContext → Prop} {turns : List HandshakeTurn} {ret : Int}
    (hstep : ∀ {ssl ssl' t}, ssl.state ≠ .handshakeOver → P ssl →
      sslHandshakeClientStep env conf ssl t = (0, ssl') → P ssl')
    (hssl : P ssl) (h : sslHandshake env conf turns ssl = some (ret, ssl')) :
    (ret = 0 ∧ ssl'.state = .handshakeOver ∧ P ssl') ∨
      (ret ≠ 0 ∧ ∃ ssl t, sslHandshakeClientStep env conf ssl t = (ret, ssl')) := by
  induction turns generalizing ssl with
  | nil =>
      unfold sslHandshake at h
      split at h
      case isTrue hover =>
          cases h
          exact Or.inl ⟨rfl, hover, hssl⟩
      case isFalse => cases h
  | cons t turns ih =>
      unfold sslHandshake at h
      split at h
      case isTrue hover =>
          cases h
          exact Or.inl ⟨rfl, hover, hssl⟩
      case isFalse hrunning =>
          dsimp only at h
          split at h
          case isTrue hret =>
              obtain ⟨rfl, rfl⟩ := Prod.mk.inj (Option.some.inj h)
              exact Or.inr ⟨hret, ssl, t, rfl⟩
          case isFalse hret =>
              have hzero : sslHandshakeClientStep env conf ssl t =
                  (0, (sslHandshakeClientStep env conf ssl t).2) :=
                Prod.ext (Decidable.not_not.mp hret) rfl
              exact ih (hstep hrunning hssl hzero) h

/-- A handshake that returns 0 ends with a certificate that is accepted. -/
theorem sslHandshake_vouched {turns : List HandshakeTurn} (hrequired : conf.authmode = .required)
    (hpsk : conf.psk = false) (hssl : Guarded env conf hostname ssl)
    (h : sslHandshake env conf turns ssl = some (0, ssl')) :
    ssl'.state = .handshakeOver ∧ ssl'.hostname = hostname ∧ Vouched env conf ssl' := by
  have hkept {ssl ssl' : SslContext} {t : HandshakeTurn} (hrunning : ssl.state ≠ .handshakeOver)
      (hssl : Guarded env conf hostname ssl)
      (h : sslHandshakeClientStep env conf ssl t = (0, ssl')) : Guarded env conf hostname ssl' :=
    hssl.clientStep hrequired hpsk hrunning h
  rcases sslHandshake_ends hkept hssl h with ⟨-, hover, hguarded⟩ | ⟨hret, -⟩
  · exact ⟨hover, hguarded.hostname, hguarded.accepted (by rw [hover]; decide)⟩
  · exact absurd rfl hret

/-! ## Results -/

theorem ite_fst_nonpos {p : Prop} [Decidable p] {x y : Int × SslContext} (hx : x.1 ≤ 0)
    (hy : y.1 ≤ 0) : (if p then x else y).1 ≤ 0 := by
  split
  · exact hx
  · exact hy

theorem ite_nonpos {p : Prop} [Decidable p] {a b : Int} (ha : a ≤ 0) (hb : b ≤ 0) :
    (if p then a else b) ≤ 0 := by
  split
  · exact ha
  · exact hb

/-- `mbedtls_x509_crt_verify_restartable` returns 0 or an error code. -/
theorem x509CrtVerify_nonpos (env : Platform) (profile : X509CrtProfile) (crl : List X509Crl)
    (trustCa : List X509Crt) (cn : Option (List UInt8)) (crt : X509Crt) (next : List X509Crt) :
    (x509CrtVerify env trustCa crl profile crtVerifyResult cn crt next).1 ≤ 0 := by
  unfold x509CrtVerify
  cases hchain : x509CrtVerifyChain env profile crl trustCa crt next false 0 0 with
  | error ret =>
      obtain rfl := verifyChain_error hchain
      exact show MBEDTLS_ERR_X509_FATAL_ERROR ≤ 0 by decide
  | ok items =>
      obtain ⟨all, hmerge, -⟩ := mergeFlags_crtVerifyResult
        (items.modifyHead fun item =>
          { item with flags := item.flags ||| eeFlags profile cn crt }).reverse 0
      simp only [bind, Except.bind, hmerge]
      exact ite_nonpos (by decide) (by decide)

theorem sslVerifyCertificate_nonpos (crt : X509Crt) (next : List X509Crt) :
    (sslVerifyCertificate env conf ssl crt next).1 ≤ 0 := by
  have hverify := x509CrtVerify_nonpos env conf.certProfile conf.caCrl conf.caChain
    ssl.hostname crt next
  unfold sslVerifyCertificate
  apply ite_fst_nonpos (Int.le_refl 0)
  apply ite_nonpos (by decide)
  apply ite_nonpos (Int.le_refl 0)
  exact ite_nonpos (by decide) (ite_nonpos (by decide) hverify)

theorem sslReadStep_nonpos (ssl : SslContext) (t : HandshakeTurn) : (sslReadStep ssl t).1 ≤ 0 :=
  ite_fst_nonpos t.before_nonpos (Int.le_refl 0)

theorem sslWriteStep_nonpos (ssl : SslContext) (t : HandshakeTurn) : (sslWriteStep ssl t).1 ≤ 0 :=
  ite_fst_nonpos t.before_nonpos t.after_nonpos

theorem sslWithPeerKey_nonpos {use : Pk → Int} (huse : ∀ pk, use pk ≤ 0) (type : PkType) :
    sslWithPeerKey ssl type use ≤ 0 := by
  unfold sslWithPeerKey
  split
  · show MBEDTLS_ERR_SSL_UNEXPECTED_MESSAGE ≤ 0
    decide
  · exact ite_nonpos (huse _) (show MBEDTLS_ERR_SSL_PK_TYPE_MISMATCH ≤ 0 by decide)

theorem sslParseServerKeyExchange_nonpos (ssl : SslContext) (t : HandshakeTurn) :
    (sslParseServerKeyExchange conf ssl t).1 ≤ 0 := by
  have hzero : (0 : Int) ≤ 0 := Int.le_refl 0
  have hparams : sslGetEcdhParamsFromCert conf ssl t ≤ 0 :=
    sslWithPeerKey_nonpos (fun pk => ite_nonpos (t.ecdhGetParams_nonpos pk)
      (ite_nonpos hzero (show MBEDTLS_ERR_SSL_BAD_HS_CERTIFICATE ≤ 0 by decide))) _
  have hverify : sslWithPeerKey ssl ssl.keyExchange.sigPkAlg t.pkVerify ≤ 0 :=
    sslWithPeerKey_nonpos t.pkVerify_nonpos _
  exact ite_fst_nonpos hzero (ite_fst_nonpos (ite_fst_nonpos hparams hzero)
    (ite_fst_nonpos t.before_nonpos
      (ite_fst_nonpos (show MBEDTLS_ERR_SSL_INTERNAL_ERROR ≤ 0 by decide)
        (ite_fst_nonpos (ite_fst_nonpos hverify hzero) hzero))))

theorem sslWriteClientKeyExchange_nonpos (ssl : SslContext) (t : HandshakeTurn) :
    (sslWriteClientKeyExchange conf ssl t).1 ≤ 0 := by
  have hencrypt : sslWriteEncryptedPms ssl t ≤ 0 := sslWithPeerKey_nonpos t.pkEncrypt_nonpos _
  exact ite_fst_nonpos (show MBEDTLS_ERR_SSL_PRIVATE_KEY_REQUIRED ≤ 0 by decide)
    (ite_fst_nonpos (show MBEDTLS_ERR_SSL_INTERNAL_ERROR ≤ 0 by decide)
      (ite_fst_nonpos t.before_nonpos
        (ite_fst_nonpos (ite_nonpos hencrypt (Int.le_refl 0))
          (ite_fst_nonpos t.derive_nonpos t.after_nonpos))))

theorem sslHandshakeSwitch_nonpos (ssl : SslContext) (t : HandshakeTurn) :
    (sslHandshakeSwitch env conf ssl t).1 ≤ 0 := by
  unfold sslHandshakeSwitch
  have hzero : (0 : Int) ≤ 0 := Int.le_refl 0
  split
  case h_1 => exact hzero
  case h_2 => exact sslWriteStep_nonpos ssl t
  case h_3 => exact ite_fst_nonpos t.before_nonpos (ite_fst_nonpos t.after_nonpos t.after_nonpos)
  case h_4 =>
      exact ite_fst_nonpos hzero (ite_fst_nonpos t.before_nonpos
        (ite_fst_nonpos t.after_nonpos (sslVerifyCertificate_nonpos t.crt t.next)))
  case h_5 => exact sslParseServerKeyExchange_nonpos ssl t
  case h_6 => exact ite_fst_nonpos hzero (ite_fst_nonpos t.before_nonpos t.after_nonpos)
  case h_7 => exact sslReadStep_nonpos ssl t
  case h_8 => exact ite_fst_nonpos hzero (ite_fst_nonpos hzero (sslWriteStep_nonpos ssl t))
  case h_9 => exact sslWriteClientKeyExchange_nonpos ssl t
  case h_10 =>
      exact ite_fst_nonpos t.before_nonpos
        (ite_fst_nonpos hzero (ite_fst_nonpos hzero t.after_nonpos))
  case h_11 => exact t.after_nonpos
  case h_12 => exact ite_fst_nonpos t.after_nonpos t.after_nonpos
  case h_13 => exact ite_fst_nonpos t.before_nonpos t.after_nonpos
  case h_14 => exact sslReadStep_nonpos ssl t
  case h_15 => exact ite_fst_nonpos t.before_nonpos (ite_fst_nonpos hzero hzero)
  case h_16 => exact hzero
  case h_17 => exact hzero
  case h_18 => show MBEDTLS_ERR_SSL_BAD_INPUT_DATA ≤ 0; decide

theorem sslHandshakeClientStep_nonpos (ssl : SslContext) (t : HandshakeTurn) :
    (sslHandshakeClientStep env conf ssl t).1 ≤ 0 :=
  ite_fst_nonpos (show MBEDTLS_ERR_SSL_BAD_INPUT_DATA ≤ 0 by decide)
    (ite_fst_nonpos t.flush_nonpos (sslHandshakeSwitch_nonpos _ t))

/-- Every result but 0 is an error that `TLS_Init` takes for one. -/
theorem sslHandshake_nonpos {turns : List HandshakeTurn} {ret : Int}
    (h : sslHandshake env conf turns ssl = some (ret, ssl')) : ret ≤ 0 := by
  rcases sslHandshake_ends (fun _ _ _ => trivial) trivial h with ⟨hret, -⟩ | ⟨-, s, t, hstep⟩
  · exact Int.le_of_eq hret
  · have hnonpos : (sslHandshakeClientStep env conf s t).1 ≤ 0 := sslHandshakeClientStep_nonpos s t
    rwa [hstep] at hnonpos

/-- A handshake of `TLS_Init` that returns 0 has seen an authentic server. -/
theorem sslHandshake_authentic {caCrt : List X509Crt} {curveList : List EcpGroupId}
    {useClientAuth : Bool} {host : List UInt8} {turns : List HandshakeTurn}
    (h : sslHandshake env (tlsConf caCrt curveList useClientAuth) turns (tlsContext host) =
      some (0, ssl)) :
    ssl.state = .handshakeOver ∧ ∃ crt next path, ssl.peerCert = crt :: next ∧
      IsFor crt (some host) ∧ KeyWell x509CrtProfileDefault crt ∧
      x509CrtCheckKeyUsage crt ssl.keyExchange.usage = true ∧
      x509CrtCheckExtendedKeyUsage crt MBEDTLS_OID_SERVER_AUTH = true ∧
      Authentic env x509CrtProfileDefault [] caCrt crt next path := by
  have hguarded : Guarded env (tlsConf caCrt curveList useClientAuth) (some host)
      (tlsContext host) := ⟨rfl, rfl, Or.inl (show .helloRequest ∈ beforeCertificate by decide)⟩
  obtain ⟨hover, hhost, crt, next, hpeer, haccepted, husage, -⟩ :=
    sslHandshake_vouched rfl rfl hguarded h
  rw [hhost] at haccepted
  obtain ⟨hfor, hkey, items, hchain, hclean⟩ := (x509CrtVerify_iff _ crt next).mp haccepted
  have hbuilt : Built env x509CrtProfileDefault [] caCrt [] crt next false items :=
    built_of_verifyChain env x509CrtProfileDefault [] caCrt hchain
  obtain ⟨hkeyUsage, hextUsage⟩ := Bool.and_eq_true_iff.mp husage
  exact ⟨hover, crt, next, crts items, hpeer, hfor, hkey, hkeyUsage, hextUsage,
    hbuilt.authentic hclean⟩

/-- **`TLS_Init` succeeds only with an authentic server**: a handshake that it
does not take for failed has ended, and the certificates that the server has
shown are for the host, for this use, and lead to one that is trusted. -/
theorem tlsInit_authentic {caCrt : List X509Crt} {curveList : List EcpGroupId}
    {useClientAuth : Bool} {host : List UInt8} {turns : List HandshakeTurn} {ret : Int}
    (h : sslHandshake env (tlsConf caCrt curveList useClientAuth) turns (tlsContext host) =
      some (ret, ssl)) (hret : ¬ ret < 0) :
    ssl.state = .handshakeOver ∧ ∃ crt next path, ssl.peerCert = crt :: next ∧
      IsFor crt (some host) ∧ KeyWell x509CrtProfileDefault crt ∧
      x509CrtCheckKeyUsage crt ssl.keyExchange.usage = true ∧
      x509CrtCheckExtendedKeyUsage crt MBEDTLS_OID_SERVER_AUTH = true ∧
      Authentic env x509CrtProfileDefault [] caCrt crt next path := by
  obtain rfl : ret = 0 := Int.le_antisymm (sslHandshake_nonpos h) (Int.not_lt.mp hret)
  exact sslHandshake_authentic h

/-- Nothing goes wrong, and the server that shows `serverCrt` and `caCrt` sends a ticket. -/
def goodTurn : HandshakeTurn where
  flush := 0
  flush_nonpos := Int.le_refl 0
  before := 0
  before_nonpos := Int.le_refl 0
  after := 0
  after_nonpos := Int.le_refl 0
  sameSession := false
  keyExchange := .ecdheRsa
  sessionTicket := true
  certificateRequest := false
  crt := serverCrt
  next := [caCrt]
  ecdhGetParams := fun _ => 0
  ecdhGetParams_nonpos := fun _ => Int.le_refl 0
  pkVerify := fun _ => 0
  pkVerify_nonpos := fun _ => Int.le_refl 0
  pkEncrypt := fun _ => 0
  pkEncrypt_nonpos := fun _ => Int.le_refl 0
  derive := 0
  derive_nonpos := Int.le_refl 0

theorem tlsInit_authentic_serverCrt : ∃ ssl : SslContext,
    ssl.state = .handshakeOver ∧ ∃ crt next path, ssl.peerCert = crt :: next ∧
      IsFor crt (some serverHost) ∧ KeyWell x509CrtProfileDefault crt ∧
      x509CrtCheckKeyUsage crt ssl.keyExchange.usage = true ∧
      x509CrtCheckExtendedKeyUsage crt MBEDTLS_OID_SERVER_AUTH = true ∧
      Authentic platformIn2026 x509CrtProfileDefault [] [rootCrt] crt next path := by
  have hrun : (sslHandshake platformIn2026 (tlsConf [rootCrt] [.secp256r1] false)
      (List.replicate 17 goodTurn) (tlsContext serverHost)).any (fun result => result.1 = 0) =
      true := by decide +kernel
  obtain ⟨⟨ret, ssl⟩, h, hret⟩ := (Option.any_eq_true _ _).mp hrun
  obtain rfl : ret = 0 := of_decide_eq_true hret
  exact ⟨ssl, tlsInit_authentic h (Int.lt_irrefl 0)⟩

/-! ## A failed check -/

/-- Another check of the same certificates: for another host name, with
another result. -/
def SslContext.withCheck (ssl : SslContext) (hostname : Option (List UInt8))
    (verifyResult : UInt32) : SslContext :=
  { ssl with hostname := hostname, verifyResult := verifyResult }

/-- What a certificate is checked with. -/
def SslConfig.withTrust (conf : SslConfig) (authmode : Authmode) (caChain : List X509Crt)
    (caCrl : List X509Crl) (certProfile : X509CrtProfile) : SslConfig :=
  { conf with
    authmode := authmode, caChain := caChain, caCrl := caCrl, certProfile := certProfile }

/-- Two results differ in the check only, and no certificate is to come. -/
structure Blind (hostname : Option (List UInt8)) (verifyResult : UInt32)
    (x x' : Int × SslContext) : Prop where
  other : x' = (x.1, x.2.withCheck hostname verifyResult)
  behind : x.2.state ∉ beforeCertificate

section

variable {env' : Platform} {authmode : Authmode} {caChain : List X509Crt} {caCrl : List X509Crl}
  {certProfile : X509CrtProfile} {verifyResult : UInt32}

theorem Blind.ite {p : Prop} [Decidable p] {x x' y y' : Int × SslContext}
    (hx : Blind hostname verifyResult x x') (hy : Blind hostname verifyResult y y') :
    Blind hostname verifyResult (if p then x else y) (if p then x' else y') := by
  split
  · exact hx
  · exact hy

theorem next_behind {state : SslState} (h : state ∉ beforeCertificate) :
    state.next ∉ beforeCertificate := by
  revert h
  cases state <;> decide

theorem sslReadStep_blind (hssl : ssl.state ∉ beforeCertificate) : Blind hostname verifyResult
    (sslReadStep ssl t) (sslReadStep (ssl.withCheck hostname verifyResult) t) :=
  .ite ⟨rfl, hssl⟩ ⟨rfl, next_behind hssl⟩

theorem sslWriteStep_blind (hssl : ssl.state ∉ beforeCertificate) : Blind hostname verifyResult
    (sslWriteStep ssl t) (sslWriteStep (ssl.withCheck hostname verifyResult) t) :=
  .ite ⟨rfl, hssl⟩ ⟨rfl, next_behind hssl⟩

/-- The server's key is used whatever its check has found. -/
theorem sslHandshakeSwitch_blind (hssl : ssl.state ∉ beforeCertificate) :
    Blind hostname verifyResult (sslHandshakeSwitch env conf ssl t)
      (sslHandshakeSwitch env' (conf.withTrust authmode caChain caCrl certProfile)
        (ssl.withCheck hostname verifyResult) t) := by
  have hfailed (ret : Int) : Blind hostname verifyResult (ret, ssl)
      (ret, ssl.withCheck hostname verifyResult) := ⟨rfl, hssl⟩
  have hnext (ret : Int) : Blind hostname verifyResult (ret, ssl.advance)
      (ret, (ssl.withCheck hostname verifyResult).advance) := ⟨rfl, next_behind hssl⟩
  have hwrapup : SslState.handshakeWrapup ∉ beforeCertificate := by decide
  have hserver : SslState.serverChangeCipherSpec ∉ beforeCertificate := by decide
  have hclient : SslState.clientChangeCipherSpec ∉ beforeCertificate := by decide
  unfold sslHandshakeSwitch
  rw [show (ssl.withCheck hostname verifyResult).state = ssl.state from rfl]
  split
  case h_1 hstate => exact absurd (by rw [hstate]; decide) hssl
  case h_2 hstate => exact absurd (by rw [hstate]; decide) hssl
  case h_3 hstate => exact absurd (by rw [hstate]; decide) hssl
  case h_4 hstate => exact absurd (by rw [hstate]; decide) hssl
  case h_5 =>
      exact .ite (hnext 0) (.ite (.ite (hfailed _) (hnext 0)) (.ite (hfailed _)
        (.ite (hfailed _) (.ite (.ite (hfailed _) (hnext 0)) (hnext 0)))))
  case h_6 => exact .ite (hnext 0) (.ite (hfailed t.before) ⟨rfl, next_behind hssl⟩)
  case h_7 => exact sslReadStep_blind hssl
  case h_8 => exact .ite (hnext 0) (.ite (hnext 0) (sslWriteStep_blind hssl))
  case h_9 =>
      exact .ite (hfailed _) (.ite (hfailed _) (.ite (hfailed _) (.ite (hfailed _)
        (.ite (hfailed _) (hnext t.after)))))
  case h_10 => exact .ite (hfailed t.before) (.ite (hnext 0) (.ite (hnext 0) (hnext t.after)))
  case h_11 => exact hnext t.after
  case h_12 => exact .ite ⟨rfl, hwrapup⟩ (hnext t.after)
  case h_13 => exact .ite (hfailed t.before) ⟨rfl, hserver⟩
  case h_14 => exact sslReadStep_blind hssl
  case h_15 => exact .ite (hfailed t.before) (.ite ⟨rfl, hclient⟩ (hnext 0))
  case h_16 => exact ⟨rfl, hwrapup⟩
  case h_17 => exact hnext 0
  case h_18 => exact hfailed _

theorem sslHandshakeClientStep_blind (hssl : ssl.state ∉ beforeCertificate) :
    Blind hostname verifyResult (sslHandshakeClientStep env conf ssl t)
      (sslHandshakeClientStep env' (conf.withTrust authmode caChain caCrl certProfile)
        (ssl.withCheck hostname verifyResult) t) := by
  have hticket : (awaitTicket ssl).state ∉ beforeCertificate ∧
      awaitTicket (ssl.withCheck hostname verifyResult) =
        (awaitTicket ssl).withCheck hostname verifyResult := by
    unfold awaitTicket
    rw [show (ssl.withCheck hostname verifyResult).state = ssl.state from rfl,
      show (ssl.withCheck hostname verifyResult).newSessionTicket = ssl.newSessionTicket from rfl]
    split
    case isTrue => exact ⟨show .serverNewSessionTicket ∉ beforeCertificate by decide, rfl⟩
    case isFalse => exact ⟨hssl, rfl⟩
  unfold sslHandshakeClientStep
  rw [hticket.2]
  exact .ite ⟨rfl, hssl⟩ (.ite ⟨rfl, hssl⟩ (sslHandshakeSwitch_blind hticket.1))

/-- **A failed check is remembered in its result only.** Behind the certificate
`mbedtls_ssl_handshake` uses the server's key, and goes through the same steps
to the same result whatever the check of it has found, and whatever it has been
made with: the host name, the CA certificates, the revocation lists, the
profile, the mode, the clock. That `TLS_Init` ends is all that stops it. -/
theorem sslHandshake_forgets (hssl : ssl.state ∉ beforeCertificate) (turns : List HandshakeTurn)
    (env' : Platform) (authmode : Authmode) (caChain : List X509Crt) (caCrl : List X509Crl)
    (certProfile : X509CrtProfile) (hostname : Option (List UInt8)) (verifyResult : UInt32) :
    sslHandshake env' (conf.withTrust authmode caChain caCrl certProfile) turns
        (ssl.withCheck hostname verifyResult) =
      (sslHandshake env conf turns ssl).map fun result =>
        (result.1, result.2.withCheck hostname verifyResult) := by
  induction turns generalizing ssl with
  | nil =>
      unfold sslHandshake
      rw [show (ssl.withCheck hostname verifyResult).state = ssl.state from rfl]
      split <;> rfl
  | cons t turns ih =>
      have hstep : Blind hostname verifyResult (sslHandshakeClientStep env conf ssl t)
          (sslHandshakeClientStep env' (conf.withTrust authmode caChain caCrl certProfile)
            (ssl.withCheck hostname verifyResult) t) :=
        sslHandshakeClientStep_blind hssl
      unfold sslHandshake
      rw [show (ssl.withCheck hostname verifyResult).state = ssl.state from rfl]
      split
      case isTrue => rfl
      case isFalse =>
          dsimp only
          rw [hstep.other]
          dsimp only
          split
          case isTrue => rfl
          case isFalse => exact ih hstep.behind

end

/-- The server has shown a certificate that is not for this host. -/
def rejected : SslContext :=
  { tlsContext [99] with
    state := .serverKeyExchange, newSessionTicket := true, keyExchange := .ecdheRsa
    peerCert := [serverCrt, caCrt], verifyResult := MBEDTLS_X509_BADCERT_CN_MISMATCH }

theorem sslHandshake_forgets_rejected :
    sslHandshake platformIn2026
        ((tlsConf [rootCrt] [.secp256r1] false).withTrust .none [] [] x509CrtProfileDefault)
        (List.replicate 13 goodTurn) (rejected.withCheck (some serverHost) 0) =
      (sslHandshake platformIn2026 (tlsConf [rootCrt] [.secp256r1] false)
        (List.replicate 13 goodTurn) rejected).map fun result =>
          (result.1, result.2.withCheck (some serverHost) 0) :=
  sslHandshake_forgets (show .serverKeyExchange ∉ beforeCertificate by decide) _ _ _ _ _ _ _ _

-- the first call ends with the certificate, a second one would succeed
example : (sslHandshake platformIn2026 (tlsConf [rootCrt] [.secp256r1] false)
    (List.replicate 17 goodTurn) (tlsContext [99])).map (fun result => (result.1, result.2.state)) =
      some (MBEDTLS_ERR_X509_CERT_VERIFY_FAILED, .serverKeyExchange) := by decide +kernel

example : (sslHandshake platformIn2026 (tlsConf [rootCrt] [.secp256r1] false)
    (List.replicate 13 goodTurn) rejected).map (fun result => (result.1, result.2.state)) =
      some (0, .handshakeOver) := by decide +kernel

-- with a key of another type it would not
example : (sslHandshake platformIn2026 (tlsConf [rootCrt] [.secp256r1] false)
    (List.replicate 13 goodTurn) { rejected with keyExchange := .ecdheEcdsa }).map
      (fun result => result.1) = some MBEDTLS_ERR_SSL_PK_TYPE_MISMATCH := by decide +kernel

end NucleoMqtt.Tls
