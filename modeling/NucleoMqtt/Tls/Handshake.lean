import NucleoMqtt.Tls.ServerCert
import NucleoMqtt.Tls.SslRead

/-!
# Tls — the handshake

`mbedtls_ssl_handshake` of the client, step by step, as `TLS_Init` runs it:
what each step does to the state and to the certificate of the server, and
what it does with the key in that certificate. The messages and the
cryptography are a `HandshakeTurn`. A failed check of the certificate moves
the state on like a good one; it is the result that stops the loop.
-/

namespace NucleoMqtt.Tls

def MBEDTLS_ERR_SSL_PK_TYPE_MISMATCH : Int := -0x6D00
def MBEDTLS_ERR_SSL_PRIVATE_KEY_REQUIRED : Int := -0x7600
def MBEDTLS_ERR_SSL_CA_CHAIN_REQUIRED : Int := -0x7680
def MBEDTLS_ERR_SSL_BAD_HS_CERTIFICATE : Int := -0x7A00

/-- `mbedtls_ssl_states`. -/
inductive SslState where
  | helloRequest | clientHello | serverHello | serverCertificate | serverKeyExchange
  | certificateRequest | serverHelloDone | clientCertificate | clientKeyExchange
  | certificateVerify | clientChangeCipherSpec | clientFinished | serverChangeCipherSpec
  | serverFinished | flushBuffers | handshakeWrapup | handshakeOver | serverNewSessionTicket
  | serverHelloVerifyRequestSent
deriving DecidableEq

/-- `ssl->state++`. -/
def SslState.next : SslState → SslState
  | .helloRequest => .clientHello
  | .clientHello => .serverHello
  | .serverHello => .serverCertificate
  | .serverCertificate => .serverKeyExchange
  | .serverKeyExchange => .certificateRequest
  | .certificateRequest => .serverHelloDone
  | .serverHelloDone => .clientCertificate
  | .clientCertificate => .clientKeyExchange
  | .clientKeyExchange => .certificateVerify
  | .certificateVerify => .clientChangeCipherSpec
  | .clientChangeCipherSpec => .clientFinished
  | .clientFinished => .serverChangeCipherSpec
  | .serverChangeCipherSpec => .serverFinished
  | .serverFinished => .flushBuffers
  | .flushBuffers => .handshakeWrapup
  | .handshakeWrapup => .handshakeOver
  | .handshakeOver => .serverNewSessionTicket
  | .serverNewSessionTicket => .serverHelloVerifyRequestSent
  | .serverHelloVerifyRequestSent => .serverHelloVerifyRequestSent

/-- `mbedtls_key_exchange_type_t`. -/
inductive KeyExchange where
  | none | rsa | dheRsa | ecdheRsa | ecdheEcdsa | psk | dhePsk | rsaPsk | ecdhePsk | ecdhRsa
  | ecdhEcdsa | ecjpake
deriving DecidableEq

/-- The server shows no certificate, and the client does not either. -/
def KeyExchange.withoutCertificate (k : KeyExchange) : Bool :=
  k = .psk ∨ k = .dhePsk ∨ k = .ecdhePsk ∨ k = .ecjpake

/-- `mbedtls_ssl_ciphersuite_cert_req_allowed`. -/
def KeyExchange.certReqAllowed (k : KeyExchange) : Bool :=
  k = .rsa ∨ k = .dheRsa ∨ k = .ecdhRsa ∨ k = .ecdheRsa ∨ k = .ecdhEcdsa ∨ k = .ecdheEcdsa

/-- `mbedtls_ssl_ciphersuite_uses_psk`. -/
def KeyExchange.usesPsk (k : KeyExchange) : Bool :=
  k = .psk ∨ k = .rsaPsk ∨ k = .dhePsk ∨ k = .ecdhePsk

/-- `mbedtls_ssl_ciphersuite_uses_server_signature`. -/
def KeyExchange.usesServerSignature (k : KeyExchange) : Bool :=
  k = .dheRsa ∨ k = .ecdheRsa ∨ k = .ecdheEcdsa

/-- `mbedtls_ssl_get_ciphersuite_sig_pk_alg`. -/
def KeyExchange.sigPkAlg : KeyExchange → PkType
  | .rsa => .rsa
  | .dheRsa => .rsa
  | .ecdheRsa => .rsa
  | .rsaPsk => .rsa
  | .ecdheEcdsa => .ecdsa
  | .ecdhRsa => .eckey
  | .ecdhEcdsa => .eckey
  | _ => .none

inductive Authmode where
  | none | optional | required
deriving DecidableEq

/-- The part of `mbedtls_ssl_config` that these steps read. -/
structure SslConfig where
  authmode : Authmode
  caChain : List X509Crt
  caCrl : List X509Crl
  certProfile : X509CrtProfile
  curveList : List EcpGroupId
  /-- there is a pre-shared key -/
  psk : Bool
  /-- there is a certificate of the client -/
  ownCert : Bool

/-- The part of `mbedtls_ssl_context` that they read and change. `resume`,
`newSessionTicket` and `keyExchange` belong to the handshake, `peerCert` and
`verifyResult` to the session that is negotiated. -/
structure SslContext where
  state : SslState
  hostname : Option (List UInt8)
  resume : Bool
  newSessionTicket : Bool
  keyExchange : KeyExchange
  clientAuth : Bool
  peerCert : List X509Crt
  verifyResult : UInt32

/-- What one step meets. A result of 0 is no error, and errors are negative. -/
structure HandshakeTurn where
  /-- the result of `mbedtls_ssl_flush_output` -/
  flush : Int
  flush_nonpos : flush ≤ 0
  /-- the first error in front of the change of the state -/
  before : Int
  before_nonpos : before ≤ 0
  /-- the first error behind it -/
  after : Int
  after_nonpos : after ≤ 0
  /-- the session that the server names is the one to be resumed -/
  sameSession : Bool
  /-- the key exchange of the ciphersuite that the server has chosen -/
  keyExchange : KeyExchange
  /-- the server will send a ticket -/
  sessionTicket : Bool
  /-- the message is a `CertificateRequest` -/
  certificateRequest : Bool
  /-- the certificates of the message -/
  crt : X509Crt
  next : List X509Crt
  /-- `mbedtls_ecdh_get_params`, of the server's key -/
  ecdhGetParams : Pk → Int
  ecdhGetParams_nonpos : ∀ pk, ecdhGetParams pk ≤ 0
  /-- `mbedtls_pk_verify`, of the server's parameters under its key -/
  pkVerify : Pk → Int
  pkVerify_nonpos : ∀ pk, pkVerify pk ≤ 0
  /-- `mbedtls_pk_encrypt`, of the client's secret under the server's key -/
  pkEncrypt : Pk → Int
  pkEncrypt_nonpos : ∀ pk, pkEncrypt pk ≤ 0
  /-- `mbedtls_ssl_psk_derive_premaster` -/
  derive : Int
  derive_nonpos : derive ≤ 0

/-! ## Steps -/

def SslContext.advance (ssl : SslContext) : SslContext := { ssl with state := ssl.state.next }

/-- A message is read, and the state changed. -/
def sslReadStep (ssl : SslContext) (t : HandshakeTurn) : Int × SslContext :=
  if t.before ≠ 0 then (t.before, ssl) else (0, ssl.advance)

/-- A message is prepared, the state changed, and the message written. -/
def sslWriteStep (ssl : SslContext) (t : HandshakeTurn) : Int × SslContext :=
  if t.before ≠ 0 then (t.before, ssl) else (t.after, ssl.advance)

/-- `ssl_write_client_hello`. -/
def sslWriteClientHello (ssl : SslContext) (t : HandshakeTurn) : Int × SslContext :=
  sslWriteStep ssl t

/-- `ssl_parse_server_hello`. -/
def sslParseServerHello (ssl : SslContext) (t : HandshakeTurn) : Int × SslContext :=
  if t.before ≠ 0 then (t.before, ssl)
  else
    let ssl := { ssl with
      keyExchange := t.keyExchange, newSessionTicket := ssl.newSessionTicket || t.sessionTicket }
    if ssl.resume = false ∨ t.sameSession = false then
      (t.after, { ssl.advance with resume := false })
    else (t.after, { ssl with state := .serverChangeCipherSpec })

/-- The usage that `mbedtls_ssl_check_cert_usage` asks of the server's key. -/
def KeyExchange.usage : KeyExchange → UInt32
  | .rsa => MBEDTLS_X509_KU_KEY_ENCIPHERMENT
  | .rsaPsk => MBEDTLS_X509_KU_KEY_ENCIPHERMENT
  | .dheRsa => MBEDTLS_X509_KU_DIGITAL_SIGNATURE
  | .ecdheRsa => MBEDTLS_X509_KU_DIGITAL_SIGNATURE
  | .ecdheEcdsa => MBEDTLS_X509_KU_DIGITAL_SIGNATURE
  | .ecdhRsa => MBEDTLS_X509_KU_KEY_AGREEMENT
  | .ecdhEcdsa => MBEDTLS_X509_KU_KEY_AGREEMENT
  | _ => 0

/-- `mbedtls_ssl_check_cert_usage`, of a server, with the flags that it adds. -/
def sslCheckCertUsage (cert : X509Crt) (k : KeyExchange) : Bool × UInt32 :=
  let usage := x509CrtCheckKeyUsage cert k.usage
  let extUsage := x509CrtCheckExtendedKeyUsage cert MBEDTLS_OID_SERVER_AUTH
  (usage && extUsage, flagIf (!usage) MBEDTLS_X509_BADCERT_KEY_USAGE |||
    flagIf (!extUsage) MBEDTLS_X509_BADCERT_EXT_KEY_USAGE)

/-- A key of an elliptic curve has to be on one of the list. -/
def badCurve (conf : SslConfig) (pk : Pk) : Bool :=
  pkCanDo pk .eckey && !(conf.curveList.any fun gid => gid = pk.grp)

/-- `mbedtls_ssl_parse_certificate`, from the moment the certificates are known. -/
def sslVerifyCertificate (env : Platform) (conf : SslConfig) (ssl : SslContext) (crt : X509Crt)
    (next : List X509Crt) : Int × SslContext :=
  let ssl := { ssl with peerCert := crt :: next }
  if conf.authmode = .none then (0, ssl.advance)
  else
    let (ret, flags) := x509CrtVerify env conf.caChain conf.caCrl conf.certProfile crtVerifyResult
      ssl.hostname crt next
    let (usageOk, usageFlags) := sslCheckCertUsage crt ssl.keyExchange
    let ret := if badCurve conf crt.pk ∧ ret = 0 then MBEDTLS_ERR_SSL_BAD_HS_CERTIFICATE else ret
    let ret := if usageOk = false ∧ ret = 0 then MBEDTLS_ERR_SSL_BAD_HS_CERTIFICATE else ret
    let ret := if conf.authmode = .optional ∧ (ret = MBEDTLS_ERR_X509_CERT_VERIFY_FAILED ∨
      ret = MBEDTLS_ERR_SSL_BAD_HS_CERTIFICATE) then 0 else ret
    let ret := if conf.caChain.isEmpty ∧ conf.authmode = .required then
      MBEDTLS_ERR_SSL_CA_CHAIN_REQUIRED else ret
    let flags := flags ||| flagIf (badCurve conf crt.pk) MBEDTLS_X509_BADCERT_BAD_KEY ||| usageFlags
    (ret, { ssl.advance with verifyResult := flags })

/-- `mbedtls_ssl_parse_certificate`, of a client. -/
def sslParseCertificate (env : Platform) (conf : SslConfig) (ssl : SslContext) (t : HandshakeTurn) :
    Int × SslContext :=
  if ssl.keyExchange.withoutCertificate then (0, ssl.advance)
  else if t.before ≠ 0 then (t.before, ssl)
  -- certificates that cannot be parsed move the state on, too
  else if t.after ≠ 0 then (t.after, ssl.advance)
  else sslVerifyCertificate env conf ssl t.crt t.next

/-- What is done with the server's key: there has to be one, of the type. -/
def sslWithPeerKey (ssl : SslContext) (type : PkType) (use : Pk → Int) : Int :=
  match ssl.peerCert with
  | [] => MBEDTLS_ERR_SSL_UNEXPECTED_MESSAGE
  | crt :: _ => if pkCanDo crt.pk type then use crt.pk else MBEDTLS_ERR_SSL_PK_TYPE_MISMATCH

/-- `ssl_get_ecdh_params_from_cert`, with `ssl_check_server_ecdh_params`. -/
def sslGetEcdhParamsFromCert (conf : SslConfig) (ssl : SslContext) (t : HandshakeTurn) : Int :=
  sslWithPeerKey ssl .eckey fun pk =>
    if t.ecdhGetParams pk ≠ 0 then t.ecdhGetParams pk
    else if conf.curveList.any (fun gid => gid = pk.grp) then 0
    else MBEDTLS_ERR_SSL_BAD_HS_CERTIFICATE

/-- `ssl_parse_server_key_exchange`. Of the messages that are read, those with
a signature are checked under the server's key. -/
def sslParseServerKeyExchange (conf : SslConfig) (ssl : SslContext) (t : HandshakeTurn) :
    Int × SslContext :=
  if ssl.keyExchange = .rsa then (0, ssl.advance)
  else if ssl.keyExchange = .ecdhRsa ∨ ssl.keyExchange = .ecdhEcdsa then
    let ret := sslGetEcdhParamsFromCert conf ssl t
    if ret ≠ 0 then (ret, ssl) else (0, ssl.advance)
  else if t.before ≠ 0 then (t.before, ssl)
  else if ssl.keyExchange = .none ∨ ssl.keyExchange = .ecjpake then
    (MBEDTLS_ERR_SSL_INTERNAL_ERROR, ssl)
  else if ssl.keyExchange.usesServerSignature then
    let ret := sslWithPeerKey ssl ssl.keyExchange.sigPkAlg t.pkVerify
    if ret ≠ 0 then (ret, ssl) else (0, ssl.advance)
  else (0, ssl.advance)

/-- `ssl_parse_certificate_request`. -/
def sslParseCertificateRequest (ssl : SslContext) (t : HandshakeTurn) : Int × SslContext :=
  if ssl.keyExchange.certReqAllowed = false then (0, ssl.advance)
  else if t.before ≠ 0 then (t.before, ssl)
  else (t.after, { ssl.advance with clientAuth := t.certificateRequest })

/-- `ssl_parse_server_hello_done`. -/
def sslParseServerHelloDone (ssl : SslContext) (t : HandshakeTurn) : Int × SslContext :=
  sslReadStep ssl t

/-- `mbedtls_ssl_write_certificate`, of a client. -/
def sslWriteCertificate (ssl : SslContext) (t : HandshakeTurn) : Int × SslContext :=
  if ssl.keyExchange.withoutCertificate then (0, ssl.advance)
  else if ssl.clientAuth = false then (0, ssl.advance)
  else sslWriteStep ssl t

/-- `ssl_write_encrypted_pms`, behind the errors that do not come from the key. -/
def sslWriteEncryptedPms (ssl : SslContext) (t : HandshakeTurn) : Int :=
  sslWithPeerKey ssl .rsa t.pkEncrypt

/-- `ssl_write_client_key_exchange`. -/
def sslWriteClientKeyExchange (conf : SslConfig) (ssl : SslContext) (t : HandshakeTurn) :
    Int × SslContext :=
  if ssl.keyExchange.usesPsk ∧ conf.psk = false then (MBEDTLS_ERR_SSL_PRIVATE_KEY_REQUIRED, ssl)
  else if ssl.keyExchange = .none ∨ ssl.keyExchange = .ecjpake then
    (MBEDTLS_ERR_SSL_INTERNAL_ERROR, ssl)
  else if t.before ≠ 0 then (t.before, ssl)
  else
    let ret := if ssl.keyExchange = .rsa ∨ ssl.keyExchange = .rsaPsk then
      sslWriteEncryptedPms ssl t else 0
    if ret ≠ 0 then (ret, ssl)
    else if ssl.keyExchange.usesPsk ∧ t.derive ≠ 0 then (t.derive, ssl)
    else (t.after, ssl.advance)

/-- `ssl_write_certificate_verify`. -/
def sslWriteCertificateVerify (conf : SslConfig) (ssl : SslContext) (t : HandshakeTurn) :
    Int × SslContext :=
  if t.before ≠ 0 then (t.before, ssl)
  else if ssl.keyExchange.usesPsk ∨ ssl.keyExchange = .ecjpake then (0, ssl.advance)
  else if ssl.clientAuth = false ∨ conf.ownCert = false then (0, ssl.advance)
  else (t.after, ssl.advance)

/-- `mbedtls_ssl_write_change_cipher_spec`. -/
def sslWriteChangeCipherSpec (ssl : SslContext) (t : HandshakeTurn) : Int × SslContext :=
  (t.after, ssl.advance)

/-- `mbedtls_ssl_write_finished`. -/
def sslWriteFinished (ssl : SslContext) (t : HandshakeTurn) : Int × SslContext :=
  if ssl.resume then (t.after, { ssl with state := .handshakeWrapup }) else (t.after, ssl.advance)

/-- `ssl_parse_new_session_ticket`. -/
def sslParseNewSessionTicket (ssl : SslContext) (t : HandshakeTurn) : Int × SslContext :=
  if t.before ≠ 0 then (t.before, ssl)
  else (t.after, { ssl with newSessionTicket := false, state := .serverChangeCipherSpec })

/-- `mbedtls_ssl_parse_change_cipher_spec`. -/
def sslParseChangeCipherSpec (ssl : SslContext) (t : HandshakeTurn) : Int × SslContext :=
  sslReadStep ssl t

/-- `mbedtls_ssl_parse_finished`. -/
def sslParseFinished (ssl : SslContext) (t : HandshakeTurn) : Int × SslContext :=
  if t.before ≠ 0 then (t.before, ssl)
  else if ssl.resume then (0, { ssl with state := .clientChangeCipherSpec })
  else (0, ssl.advance)

/-- A ticket comes in front of the `ChangeCipherSpec` of the server. -/
def awaitTicket (ssl : SslContext) : SslContext :=
  if ssl.state = .serverChangeCipherSpec ∧ ssl.newSessionTicket then
    { ssl with state := .serverNewSessionTicket }
  else ssl

/-- The `switch` of `mbedtls_ssl_handshake_client_step`. -/
def sslHandshakeSwitch (env : Platform) (conf : SslConfig) (ssl : SslContext) (t : HandshakeTurn) :
    Int × SslContext :=
  match ssl.state with
  | .helloRequest => (0, { ssl with state := .clientHello })
  | .clientHello => sslWriteClientHello ssl t
  | .serverHello => sslParseServerHello ssl t
  | .serverCertificate => sslParseCertificate env conf ssl t
  | .serverKeyExchange => sslParseServerKeyExchange conf ssl t
  | .certificateRequest => sslParseCertificateRequest ssl t
  | .serverHelloDone => sslParseServerHelloDone ssl t
  | .clientCertificate => sslWriteCertificate ssl t
  | .clientKeyExchange => sslWriteClientKeyExchange conf ssl t
  | .certificateVerify => sslWriteCertificateVerify conf ssl t
  | .clientChangeCipherSpec => sslWriteChangeCipherSpec ssl t
  | .clientFinished => sslWriteFinished ssl t
  | .serverNewSessionTicket => sslParseNewSessionTicket ssl t
  | .serverChangeCipherSpec => sslParseChangeCipherSpec ssl t
  | .serverFinished => sslParseFinished ssl t
  | .flushBuffers => (0, { ssl with state := .handshakeWrapup })
  | .handshakeWrapup => (0, ssl.advance)
  | _ => (MBEDTLS_ERR_SSL_BAD_INPUT_DATA, ssl)

/-- `mbedtls_ssl_handshake_client_step`. -/
def sslHandshakeClientStep (env : Platform) (conf : SslConfig) (ssl : SslContext)
    (t : HandshakeTurn) : Int × SslContext :=
  if ssl.state = .handshakeOver then (MBEDTLS_ERR_SSL_BAD_INPUT_DATA, ssl)
  else if t.flush ≠ 0 then (t.flush, ssl)
  else sslHandshakeSwitch env conf (awaitTicket ssl) t

/-- `mbedtls_ssl_handshake`; `none` if it needs more turns to return. -/
def sslHandshake (env : Platform) (conf : SslConfig) : List HandshakeTurn → SslContext →
    Option (Int × SslContext)
  | turns, ssl =>
      if ssl.state = .handshakeOver then some (0, ssl)
      else
        match turns with
        | [] => none
        | t :: turns =>
            let (ret, ssl) := sslHandshakeClientStep env conf ssl t
            if ret ≠ 0 then some (ret, ssl) else sslHandshake env conf turns ssl

/-- The configuration of `TLS_Init`. -/
def tlsConf (caCrt : List X509Crt) (curveList : List EcpGroupId) (useClientAuth : Bool) :
    SslConfig where
  authmode := .required
  caChain := caCrt
  caCrl := []
  certProfile := x509CrtProfileDefault
  curveList := curveList
  psk := false
  ownCert := useClientAuth

/-- The context of `TLS_Init`, when the handshake begins. -/
def tlsContext (hostname : List UInt8) : SslContext where
  state := .helloRequest
  hostname := some hostname
  resume := false
  newSessionTicket := false
  keyExchange := .none
  clientAuth := false
  peerCert := []
  verifyResult := 0

/-! ## What a step can do -/

variable {env : Platform} {conf : SslConfig} {ssl ssl' : SslContext} {t : HandshakeTurn}

theorem sslReadStep_ok (h : sslReadStep ssl t = (0, ssl')) : ssl' = ssl.advance := by
  unfold sslReadStep at h
  split at h
  case isTrue hbefore => exact absurd (Prod.mk.inj h).1 hbefore
  case isFalse => exact (Prod.mk.inj h).2.symm

theorem sslWriteStep_ok (h : sslWriteStep ssl t = (0, ssl')) : ssl' = ssl.advance := by
  unfold sslWriteStep at h
  split at h
  case isTrue hbefore => exact absurd (Prod.mk.inj h).1 hbefore
  case isFalse => exact (Prod.mk.inj h).2.symm

/-- The certificates that the server has shown are accepted. -/
def Vouched (env : Platform) (conf : SslConfig) (ssl : SslContext) : Prop :=
  ∃ crt next, ssl.peerCert = crt :: next ∧
    (x509CrtVerify env conf.caChain conf.caCrl conf.certProfile crtVerifyResult ssl.hostname crt
      next).1 = 0 ∧
    (sslCheckCertUsage crt ssl.keyExchange).1 = true ∧ badCurve conf crt.pk = false

/-- A step that has nothing to do with the certificates, nor with resuming. -/
structure Kept (ssl ssl' : SslContext) : Prop where
  peerCert : ssl'.peerCert = ssl.peerCert
  keyExchange : ssl'.keyExchange = ssl.keyExchange
  hostname : ssl'.hostname = ssl.hostname
  resume : ssl'.resume = ssl.resume

theorem Kept.advance (ssl : SslContext) : Kept ssl ssl.advance := ⟨rfl, rfl, rfl, rfl⟩

theorem Kept.vouched (h : Kept ssl ssl') (hssl : Vouched env conf ssl) : Vouched env conf ssl' := by
  obtain ⟨crt, next, hpeer, haccepted, husage, hcurve⟩ := hssl
  refine ⟨crt, next, h.peerCert.trans hpeer, ?_, ?_, hcurve⟩
  · rw [h.hostname]
    exact haccepted
  · rw [h.keyExchange]
    exact husage

/-- A later check changes a result only if it is 0. -/
theorem check_eq_zero {bad : Prop} [Decidable bad] {ret code : Int} (hcode : code ≠ 0) :
    (if bad ∧ ret = 0 then code else ret) = 0 ↔ ret = 0 ∧ ¬ bad := by
  split
  case isTrue hbad => exact iff_of_false hcode fun h => h.2 hbad.1
  case isFalse hok => exact ⟨fun h => ⟨h, fun hbad => hok ⟨hbad, h⟩⟩, And.left⟩

/-- A client that requires a certificate goes on with no other than an accepted one. -/
theorem sslVerifyCertificate_ok {crt : X509Crt} {next : List X509Crt}
    (hrequired : conf.authmode = .required)
    (h : sslVerifyCertificate env conf ssl crt next = (0, ssl')) :
    ssl'.state = ssl.state.next ∧ ssl'.hostname = ssl.hostname ∧ ssl'.resume = ssl.resume ∧
      Vouched env conf ssl' := by
  unfold sslVerifyCertificate at h
  simp only [hrequired, reduceCtorEq, if_false, false_and, and_true, Prod.mk.injEq] at h
  obtain ⟨hret, rfl⟩ := h
  split at hret
  case isTrue => cases hret
  case isFalse =>
      rw [check_eq_zero (by decide), check_eq_zero (by decide)] at hret
      obtain ⟨⟨haccepted, hcurve⟩, husage⟩ := hret
      exact ⟨rfl, rfl, rfl, crt, next, rfl, haccepted, Bool.not_eq_false _ ▸ husage,
        Bool.not_eq_true _ ▸ hcurve⟩

/-- What a step can do that returns 0. -/
inductive Goes (env : Platform) (conf : SslConfig) (ssl ssl' : SslContext) : Prop
  | hello : ssl.state = .serverHello → ssl'.state = .serverCertificate →
      ssl'.hostname = ssl.hostname → ssl'.resume = false → Goes env conf ssl ssl'
  | skipped : ssl.state = .serverCertificate → ssl.keyExchange.withoutCertificate = true →
      ssl' = ssl.advance → Goes env conf ssl ssl'
  | vouched : ssl.state = .serverCertificate → ssl'.hostname = ssl.hostname →
      ssl'.resume = ssl.resume → Vouched env conf ssl' → Goes env conf ssl ssl'
  | kept : ssl.state ∉ [.serverHello, .serverCertificate] →
      (ssl.state = .clientKeyExchange → ssl.keyExchange.withoutCertificate = false) →
      (ssl'.state = ssl.state.next ∨
        (ssl.state = .serverNewSessionTicket ∧ ssl'.state = .serverChangeCipherSpec)) →
      Kept ssl ssl' → Goes env conf ssl ssl'

/-- A step that only moves the state on. -/
theorem Goes.advance (hstate : ssl.state ∉ [.serverHello, .serverCertificate, .clientKeyExchange])
    (h : ssl' = ssl.advance) : Goes env conf ssl ssl' := by
  subst h
  simp only [List.mem_cons, List.not_mem_nil, or_false, not_or] at hstate
  obtain ⟨hhello, hcertificate, hkey⟩ := hstate
  exact .kept (by simp [hhello, hcertificate]) (fun h => absurd h hkey) (Or.inl rfl)
    (Kept.advance ssl)

theorem advance_of_skip {skip : Prop} [Decidable skip] {other : Int × SslContext}
    (h : (if skip then (0, ssl.advance) else other) = (0, ssl'))
    (hother : ¬ skip → other = (0, ssl') → ssl' = ssl.advance) : ssl' = ssl.advance := by
  split at h
  case isTrue => exact (Prod.mk.inj h).2.symm
  case isFalse hskip => exact hother hskip h

/-- Without an error the step goes on. -/
theorem of_noError {ret : Int} {failed : SslContext} {other : Int × SslContext}
    (h : (if ret ≠ 0 then (ret, failed) else other) = (0, ssl')) : other = (0, ssl') := by
  split at h
  case isTrue hret => exact absurd (Prod.mk.inj h).1 hret
  case isFalse => exact h

theorem sslParseServerHello_ok (hfresh : ssl.resume = false)
    (h : sslParseServerHello ssl t = (0, ssl')) :
    ssl'.state = ssl.state.next ∧ ssl'.hostname = ssl.hostname ∧ ssl'.resume = false := by
  have hother := of_noError h
  dsimp only at hother
  rw [if_pos (Or.inl hfresh)] at hother
  obtain ⟨-, rfl⟩ := Prod.mk.inj hother
  exact ⟨rfl, rfl, rfl⟩

theorem sslParseCertificateRequest_ok (h : sslParseCertificateRequest ssl t = (0, ssl')) :
    ssl'.state = ssl.state.next ∧ Kept ssl ssl' := by
  unfold sslParseCertificateRequest at h
  split at h
  case isTrue =>
      obtain ⟨-, rfl⟩ := Prod.mk.inj h
      exact ⟨rfl, Kept.advance ssl⟩
  case isFalse =>
      obtain ⟨-, rfl⟩ := Prod.mk.inj (of_noError h)
      exact ⟨rfl, rfl, rfl, rfl, rfl⟩

theorem sslWriteCertificate_ok (h : sslWriteCertificate ssl t = (0, ssl')) : ssl' = ssl.advance :=
  advance_of_skip h fun _ h => advance_of_skip h fun _ h => sslWriteStep_ok h

theorem sslParseServerKeyExchange_ok (h : sslParseServerKeyExchange conf ssl t = (0, ssl')) :
    ssl' = ssl.advance := by
  refine advance_of_skip h fun _ h => ?_
  split at h
  case isTrue => exact (Prod.mk.inj (of_noError h)).2.symm
  case isFalse =>
      replace h := of_noError h
      split at h
      case isTrue => cases (Prod.mk.inj h).1
      case isFalse =>
          split at h
          case isTrue => exact (Prod.mk.inj (of_noError h)).2.symm
          case isFalse => exact (Prod.mk.inj h).2.symm

/-- Without a pre-shared key, the server has to have a certificate. -/
theorem sslWriteClientKeyExchange_ok (hpsk : conf.psk = false)
    (h : sslWriteClientKeyExchange conf ssl t = (0, ssl')) :
    ssl.keyExchange.withoutCertificate = false ∧ ssl' = ssl.advance := by
  unfold sslWriteClientKeyExchange at h
  split at h
  case isTrue => cases (Prod.mk.inj h).1
  case isFalse hshared =>
      split at h
      case isTrue => cases (Prod.mk.inj h).1
      case isFalse hnone =>
          refine ⟨?_, ?_⟩
          · rw [hpsk, and_iff_left rfl] at hshared
            revert hshared hnone
            cases ssl.keyExchange <;> decide
          · replace h := of_noError (of_noError h)
            split at h
            case isTrue hderive => exact absurd (Prod.mk.inj h).1 hderive.2
            case isFalse => exact (Prod.mk.inj h).2.symm

theorem sslWriteCertificateVerify_ok (h : sslWriteCertificateVerify conf ssl t = (0, ssl')) :
    ssl' = ssl.advance :=
  advance_of_skip (of_noError h) fun _ h => advance_of_skip h fun _ h =>
    (Prod.mk.inj h).2.symm

theorem sslWriteFinished_ok (hfresh : ssl.resume = false)
    (h : sslWriteFinished ssl t = (0, ssl')) : ssl' = ssl.advance := by
  unfold sslWriteFinished at h
  rw [hfresh, if_neg Bool.false_ne_true] at h
  exact (Prod.mk.inj h).2.symm

theorem sslParseFinished_ok (hfresh : ssl.resume = false)
    (h : sslParseFinished ssl t = (0, ssl')) : ssl' = ssl.advance := by
  have hother := of_noError h
  rw [hfresh, if_neg Bool.false_ne_true] at hother
  exact (Prod.mk.inj hother).2.symm

theorem sslParseNewSessionTicket_ok (h : sslParseNewSessionTicket ssl t = (0, ssl')) :
    ssl'.state = .serverChangeCipherSpec ∧ Kept ssl ssl' := by
  obtain ⟨-, rfl⟩ := Prod.mk.inj (of_noError h)
  exact ⟨rfl, rfl, rfl, rfl, rfl⟩

theorem sslParseCertificate_ok (hrequired : conf.authmode = .required)
    (h : sslParseCertificate env conf ssl t = (0, ssl')) :
    (ssl.keyExchange.withoutCertificate = true ∧ ssl' = ssl.advance) ∨
      (ssl'.hostname = ssl.hostname ∧ ssl'.resume = ssl.resume ∧ Vouched env conf ssl') := by
  unfold sslParseCertificate at h
  split at h
  case isTrue hwithout => exact Or.inl ⟨hwithout, (Prod.mk.inj h).2.symm⟩
  case isFalse =>
      exact Or.inr (sslVerifyCertificate_ok hrequired (of_noError (of_noError h))).2

/-- One step of a handshake that resumes nothing. -/
theorem sslHandshakeSwitch_goes (hrequired : conf.authmode = .required) (hpsk : conf.psk = false)
    (hfresh : ssl.resume = false) (h : sslHandshakeSwitch env conf ssl t = (0, ssl')) :
    Goes env conf ssl ssl' := by
  unfold sslHandshakeSwitch at h
  split at h
  case h_1 hstate =>
      obtain ⟨-, rfl⟩ := Prod.mk.inj h
      exact .kept (by simp [hstate]) (by simp [hstate])
        (Or.inl (by rw [hstate]; rfl)) ⟨rfl, rfl, rfl, rfl⟩
  case h_2 hstate =>
      exact .advance (by simp [hstate]) (sslWriteStep_ok h)
  case h_3 hstate =>
      obtain ⟨hnext, hhost, hresume⟩ := sslParseServerHello_ok hfresh h
      rw [hstate] at hnext
      exact .hello hstate hnext hhost hresume
  case h_4 hstate =>
      rcases sslParseCertificate_ok hrequired h with ⟨hwithout, hnext⟩ | ⟨hhost, hresume, hvouched⟩
      · exact .skipped hstate hwithout hnext
      · exact .vouched hstate hhost hresume hvouched
  case h_5 hstate =>
      exact .advance (by simp [hstate]) (sslParseServerKeyExchange_ok h)
  case h_6 hstate =>
      obtain ⟨hnext, hkept⟩ := sslParseCertificateRequest_ok h
      exact .kept (by simp [hstate]) (by simp [hstate]) (Or.inl hnext) hkept
  case h_7 hstate =>
      exact .advance (by simp [hstate]) (sslReadStep_ok h)
  case h_8 hstate =>
      exact .advance (by simp [hstate])
        (sslWriteCertificate_ok h)
  case h_9 hstate =>
      obtain ⟨hwith, rfl⟩ := sslWriteClientKeyExchange_ok hpsk h
      exact .kept (by simp [hstate]) (fun _ => hwith) (Or.inl rfl)
        (Kept.advance ssl)
  case h_10 hstate =>
      exact .advance (by simp [hstate])
        (sslWriteCertificateVerify_ok h)
  case h_11 hstate =>
      exact .advance (by simp [hstate])
        (Prod.mk.inj h).2.symm
  case h_12 hstate =>
      exact .advance (by simp [hstate])
        (sslWriteFinished_ok hfresh h)
  case h_13 hstate =>
      obtain ⟨hnext, hkept⟩ := sslParseNewSessionTicket_ok h
      exact .kept (by simp [hstate]) (by simp [hstate])
        (Or.inr ⟨hstate, hnext⟩) hkept
  case h_14 hstate =>
      exact .advance (by simp [hstate]) (sslReadStep_ok h)
  case h_15 hstate =>
      exact .advance (by simp [hstate])
        (sslParseFinished_ok hfresh h)
  case h_16 hstate =>
      obtain ⟨-, rfl⟩ := Prod.mk.inj h
      exact .kept (by simp [hstate]) (by simp [hstate])
        (Or.inl (by rw [hstate]; rfl)) ⟨rfl, rfl, rfl, rfl⟩
  case h_17 hstate =>
      exact .advance (by simp [hstate])
        (Prod.mk.inj h).2.symm
  case h_18 => cases (Prod.mk.inj h).1

end NucleoMqtt.Tls
