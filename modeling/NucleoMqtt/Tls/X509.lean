import NucleoMqtt.Lib.Word

/-!
# Tls — certificates

What mbedTLS knows of a certificate, and how it checks one: names, host names,
validity, key usage, signatures, revocation. A check that returns 0 or an
error in the source is a `Bool` here, true for 0. The hashes, the signatures
and the time are those of a `Platform`.
-/

namespace NucleoMqtt.Tls

/-! ## Strings -/

/-- `x509_memcasecmp`, of strings of one length. -/
def x509Memcasecmp : List UInt8 → List UInt8 → Bool
  | [], [] => true
  | a :: n1, b :: n2 =>
      let diff := a ^^^ b
      if diff = 0 then x509Memcasecmp n1 n2
      else if diff = 32 ∧ ((97 ≤ a ∧ a ≤ 122) ∨ (65 ≤ a ∧ a ≤ 90)) then x509Memcasecmp n1 n2
      else false
  | _, _ => false

/-- `'*'` -/
def star : UInt8 := 42

/-- `'.'` -/
def dot : UInt8 := 46

/-- The loop of `x509_check_wildcard`. -/
def firstDot (cn : List UInt8) : Nat := (cn.findIdx? (· = dot)).getD 0

/-- `x509_check_wildcard`. -/
def x509CheckWildcard (cn name : List UInt8) : Bool :=
  if name.length < 3 ∨ name[0]? ≠ some star ∨ name[1]? ≠ some dot then false
  else
    let cnIdx := firstDot cn
    if cnIdx = 0 then false
    else cn.length - cnIdx = name.length - 1 ∧ x509Memcasecmp (name.drop 1) (cn.drop cnIdx)

/-- `x509_crt_check_cn`. -/
def x509CrtCheckCn (name cn : List UInt8) : Bool :=
  (name.length = cn.length ∧ x509Memcasecmp cn name) || x509CheckWildcard cn name

/-! ## Names -/

def MBEDTLS_ASN1_UTF8_STRING : Nat := 12

def MBEDTLS_ASN1_PRINTABLE_STRING : Nat := 19

structure X509Buf where
  tag : Nat
  p : List UInt8

/-- An attribute of a name. -/
structure X509Name where
  oid : X509Buf
  val : X509Buf
  nextMerged : Bool

def isDirectoryString (tag : Nat) : Bool :=
  tag = MBEDTLS_ASN1_UTF8_STRING ∨ tag = MBEDTLS_ASN1_PRINTABLE_STRING

/-- `x509_string_cmp`. -/
def x509StringCmp (a b : X509Buf) : Bool :=
  (a.tag = b.tag ∧ a.p.length = b.p.length ∧ a.p = b.p) ||
    (isDirectoryString a.tag && isDirectoryString b.tag &&
      (a.p.length = b.p.length ∧ x509Memcasecmp a.p b.p))

/-- `x509_name_cmp`. -/
def x509NameCmp : List X509Name → List X509Name → Bool
  | [], [] => true
  | a :: as, b :: bs =>
      if a.oid.tag ≠ b.oid.tag ∨ a.oid.p ≠ b.oid.p then false
      else if ¬ x509StringCmp a.val b.val then false
      else if a.nextMerged ≠ b.nextMerged then false
      else x509NameCmp as bs
  | _, _ => false

/-! ## Time -/

structure X509Time where
  year : Int
  mon : Int
  day : Int
  hour : Int
  min : Int
  sec : Int

/-- `x509_check_time`: `before` is after `after`. -/
def x509CheckTime (before after : X509Time) : Bool :=
  if before.year > after.year then true
  else if before.year = after.year ∧ before.mon > after.mon then true
  else if before.year = after.year ∧ before.mon = after.mon ∧ before.day > after.day then true
  else if before.year = after.year ∧ before.mon = after.mon ∧ before.day = after.day ∧
      before.hour > after.hour then true
  else if before.year = after.year ∧ before.mon = after.mon ∧ before.day = after.day ∧
      before.hour = after.hour ∧ before.min > after.min then true
  else if before.year = after.year ∧ before.mon = after.mon ∧ before.day = after.day ∧
      before.hour = after.hour ∧ before.min = after.min ∧ before.sec > after.sec then true
  else false

/-! ## Keys -/

inductive MdType where
  | none | md2 | md4 | md5 | sha1 | sha224 | sha256 | sha384 | sha512 | ripemd160
deriving DecidableEq

inductive PkType where
  | none | rsa | eckey | eckeyDh | ecdsa | rsaAlt | rsassaPss
deriving DecidableEq

inductive EcpGroupId where
  | none | secp192r1 | secp224r1 | secp256r1 | secp384r1 | secp521r1 | bp256r1 | bp384r1 | bp512r1
  | curve25519 | secp192k1 | secp224k1 | secp256k1 | curve448
deriving DecidableEq

/-- `mbedtls_pk_context`. `key` is what is in the context of its type. -/
structure Pk where
  type : PkType
  bitlen : Nat
  grp : EcpGroupId
  key : List UInt8

/-- `mbedtls_pk_can_do`, with the functions of `pk_wrap.c`. -/
def pkCanDo (pk : Pk) (type : PkType) : Bool :=
  match pk.type with
  | .rsa => type = .rsa ∨ type = .rsassaPss
  | .eckey => type = .eckey ∨ type = .eckeyDh ∨ type = .ecdsa
  | .eckeyDh => type = .eckey ∨ type = .eckeyDh
  | .ecdsa => type = .ecdsa
  | .rsaAlt => type = .rsa
  | _ => false

/-- `mbedtls_pk_rsassa_pss_options`. -/
structure PssOptions where
  mgf1HashId : MdType
  expectedSaltLen : Int

/-- What is not embedded: `x509_get_current_time`, `mbedtls_md` and
`mbedtls_pk_verify_ext`. The time does not change during a verification. -/
structure Platform where
  now : Option X509Time
  md : MdType → List UInt8 → Option (List UInt8)
  pkVerifyExt : PkType → Option PssOptions → Pk → MdType → List UInt8 → List UInt8 → Bool

/-- `mbedtls_x509_time_is_past`. -/
def x509TimeIsPast (env : Platform) (validTo : X509Time) : Bool :=
  match env.now with
  | none => true
  | some now => x509CheckTime now validTo

/-- `mbedtls_x509_time_is_future`. -/
def x509TimeIsFuture (env : Platform) (validFrom : X509Time) : Bool :=
  match env.now with
  | none => true
  | some now => x509CheckTime validFrom now

/-! ## Profiles -/

/-- `mbedtls_x509_crt_profile`. -/
structure X509CrtProfile where
  allowedMds : UInt32
  allowedPks : UInt32
  allowedCurves : UInt32
  rsaMinBitlen : Nat

/-- `MBEDTLS_X509_ID_FLAG`. -/
def idFlag (id : Nat) : UInt32 := 1 <<< UInt32.ofNat (id - 1)

/-- `mbedtls_x509_crt_profile_default`. -/
def x509CrtProfileDefault : X509CrtProfile where
  allowedMds := idFlag MdType.sha224.ctorIdx ||| idFlag MdType.sha256.ctorIdx |||
    idFlag MdType.sha384.ctorIdx ||| idFlag MdType.sha512.ctorIdx
  allowedPks := 268435455
  allowedCurves := 268435455
  rsaMinBitlen := 2048

/-- `x509_profile_check_md_alg`. -/
def x509ProfileCheckMdAlg (profile : X509CrtProfile) (md : MdType) : Bool :=
  md ≠ .none && profile.allowedMds &&& idFlag md.ctorIdx ≠ 0

/-- `x509_profile_check_pk_alg`. -/
def x509ProfileCheckPkAlg (profile : X509CrtProfile) (pk : PkType) : Bool :=
  pk ≠ .none && profile.allowedPks &&& idFlag pk.ctorIdx ≠ 0

/-- `x509_profile_check_key`. -/
def x509ProfileCheckKey (profile : X509CrtProfile) (pk : Pk) : Bool :=
  if pk.type = .rsa ∨ pk.type = .rsassaPss then pk.bitlen ≥ profile.rsaMinBitlen
  else if pk.type = .ecdsa ∨ pk.type = .eckey ∨ pk.type = .eckeyDh then
    pk.grp ≠ .none && profile.allowedCurves &&& idFlag pk.grp.ctorIdx ≠ 0
  else false

/-! ## Certificates -/

/-- `mbedtls_x509_crt`. An extension that is not in `ext_types` is `none`. -/
structure X509Crt where
  raw : List UInt8
  tbs : List UInt8
  version : Nat
  serial : List UInt8
  issuer : List X509Name
  subject : List X509Name
  validFrom : X509Time
  validTo : X509Time
  pk : Pk
  subjectAltNames : Option (List (List UInt8))
  caIstrue : Bool
  /-- one higher than in the certificate, and 0 if there is none -/
  maxPathlen : Nat
  keyUsage : Option UInt32
  extKeyUsage : Option (List (List UInt8))
  sig : List UInt8
  sigMd : MdType
  sigPk : PkType
  sigOpts : Option PssOptions

/-- `mbedtls_x509_crl`, with the serial numbers of its entries. -/
structure X509Crl where
  version : Nat
  tbs : List UInt8
  issuer : List X509Name
  thisUpdate : X509Time
  nextUpdate : X509Time
  entry : List (List UInt8)
  sig : List UInt8
  sigMd : MdType
  sigPk : PkType
  sigOpts : Option PssOptions

def MBEDTLS_X509_KU_DIGITAL_SIGNATURE : UInt32 := 128
def MBEDTLS_X509_KU_KEY_ENCIPHERMENT : UInt32 := 32
def MBEDTLS_X509_KU_KEY_AGREEMENT : UInt32 := 8
def MBEDTLS_X509_KU_KEY_CERT_SIGN : UInt32 := 4
def MBEDTLS_X509_KU_CRL_SIGN : UInt32 := 2

/-- `MBEDTLS_X509_KU_ENCIPHER_ONLY` and `MBEDTLS_X509_KU_DECIPHER_ONLY`. -/
def mayMask : UInt32 := 1 ||| 32768

/-- `mbedtls_x509_crt_check_key_usage`. -/
def x509CrtCheckKeyUsage (crt : X509Crt) (usage : UInt32) : Bool :=
  match crt.keyUsage with
  | none => true
  | some keyUsage =>
      let usageMust := usage &&& ~~~mayMask
      let usageMay := usage &&& mayMask
      (keyUsage &&& ~~~mayMask) &&& usageMust = usageMust ∧
        (keyUsage &&& mayMask) ||| usageMay = usageMay

def MBEDTLS_OID_AT_CN : List UInt8 := [85, 4, 3]

def MBEDTLS_OID_ANY_EXTENDED_KEY_USAGE : List UInt8 := [85, 29, 37, 0]

def MBEDTLS_OID_SERVER_AUTH : List UInt8 := [43, 6, 1, 5, 5, 7, 3, 1]

/-- `mbedtls_x509_crt_check_extended_key_usage`. -/
def x509CrtCheckExtendedKeyUsage (crt : X509Crt) (usage : List UInt8) : Bool :=
  match crt.extKeyUsage with
  | none => true
  | some oids => oids.any fun oid => oid = usage ∨ oid = MBEDTLS_OID_ANY_EXTENDED_KEY_USAGE

/-- `x509_crt_check_signature`. -/
def x509CrtCheckSignature (env : Platform) (child parent : X509Crt) : Bool :=
  match env.md child.sigMd child.tbs with
  | none => false
  | some hash =>
      pkCanDo parent.pk child.sigPk &&
        env.pkVerifyExt child.sigPk child.sigOpts parent.pk child.sigMd hash child.sig

/-- `mbedtls_x509_crt_is_revoked`. -/
def x509CrtIsRevoked (crt : X509Crt) : List (List UInt8) → Bool
  | [] => false
  | serial :: next =>
      if serial.length = 0 then false
      else if crt.serial = serial then true
      else x509CrtIsRevoked crt next

/-! ## Flags -/

def MBEDTLS_X509_BADCERT_EXPIRED : UInt32 := 0x01
def MBEDTLS_X509_BADCERT_REVOKED : UInt32 := 0x02
def MBEDTLS_X509_BADCERT_CN_MISMATCH : UInt32 := 0x04
def MBEDTLS_X509_BADCERT_NOT_TRUSTED : UInt32 := 0x08
def MBEDTLS_X509_BADCRL_NOT_TRUSTED : UInt32 := 0x10
def MBEDTLS_X509_BADCRL_EXPIRED : UInt32 := 0x20
def MBEDTLS_X509_BADCERT_FUTURE : UInt32 := 0x0200
def MBEDTLS_X509_BADCRL_FUTURE : UInt32 := 0x0400
def MBEDTLS_X509_BADCERT_KEY_USAGE : UInt32 := 0x0800
def MBEDTLS_X509_BADCERT_EXT_KEY_USAGE : UInt32 := 0x1000
def MBEDTLS_X509_BADCERT_BAD_MD : UInt32 := 0x4000
def MBEDTLS_X509_BADCERT_BAD_PK : UInt32 := 0x8000
def MBEDTLS_X509_BADCERT_BAD_KEY : UInt32 := 0x010000
def MBEDTLS_X509_BADCRL_BAD_MD : UInt32 := 0x020000
def MBEDTLS_X509_BADCRL_BAD_PK : UInt32 := 0x040000

/-- `if( bad ) *flags |= flag;` -/
def flagIf (bad : Bool) (flag : UInt32) : UInt32 := if bad then flag else 0

/-- `x509_crt_verifycrl`. -/
def x509CrtVerifycrl (env : Platform) (profile : X509CrtProfile) (crt ca : X509Crt) :
    List X509Crl → UInt32 → UInt32
  | [], flags => flags
  | crl :: next, flags =>
      if crl.version = 0 ∨ ¬ x509NameCmp crl.issuer ca.subject then
        x509CrtVerifycrl env profile crt ca next flags
      else if ¬ x509CrtCheckKeyUsage ca MBEDTLS_X509_KU_CRL_SIGN then
        flags ||| MBEDTLS_X509_BADCRL_NOT_TRUSTED
      else
        let flags := flags |||
          flagIf (!x509ProfileCheckMdAlg profile crl.sigMd) MBEDTLS_X509_BADCRL_BAD_MD |||
          flagIf (!x509ProfileCheckPkAlg profile crl.sigPk) MBEDTLS_X509_BADCRL_BAD_PK
        match env.md crl.sigMd crl.tbs with
        | none => flags ||| MBEDTLS_X509_BADCRL_NOT_TRUSTED
        | some hash =>
            let flags := flags |||
              flagIf (!x509ProfileCheckKey profile ca.pk) MBEDTLS_X509_BADCERT_BAD_KEY
            if ¬ env.pkVerifyExt crl.sigPk crl.sigOpts ca.pk crl.sigMd hash crl.sig then
              flags ||| MBEDTLS_X509_BADCRL_NOT_TRUSTED
            else
              let flags := flags |||
                flagIf (x509TimeIsPast env crl.nextUpdate) MBEDTLS_X509_BADCRL_EXPIRED |||
                flagIf (x509TimeIsFuture env crl.thisUpdate) MBEDTLS_X509_BADCRL_FUTURE
              if x509CrtIsRevoked crt crl.entry then flags ||| MBEDTLS_X509_BADCERT_REVOKED
              else x509CrtVerifycrl env profile crt ca next flags

/-- `x509_crt_verify_name`. -/
def x509CrtVerifyName (crt : X509Crt) (cn : List UInt8) : UInt32 :=
  match crt.subjectAltNames with
  | some names =>
      flagIf (!names.any fun name => x509CrtCheckCn name cn) MBEDTLS_X509_BADCERT_CN_MISMATCH
  | none =>
      flagIf (!crt.subject.any fun name =>
          name.oid.p = MBEDTLS_OID_AT_CN ∧ x509CrtCheckCn name.val.p cn)
        MBEDTLS_X509_BADCERT_CN_MISMATCH

/-! ## The chain -/

def MBEDTLS_X509_MAX_INTERMEDIATE_CA : Nat := 8

def MBEDTLS_ERR_X509_CERT_VERIFY_FAILED : Int := -9984

def MBEDTLS_ERR_X509_FATAL_ERROR : Int := -12288

/-- `x509_crt_check_parent`. -/
def x509CrtCheckParent (child parent : X509Crt) (top : Bool) : Bool :=
  let needCaBit := !(top && parent.version < 3)
  if ¬ x509NameCmp child.issuer parent.subject then false
  else if needCaBit && !parent.caIstrue then false
  else if needCaBit && !x509CrtCheckKeyUsage parent MBEDTLS_X509_KU_KEY_CERT_SIGN then false
  else true

/-- A parent, with the certificates behind it. -/
structure Found where
  parent : X509Crt
  next : List X509Crt
  signatureIsGood : Bool

/-- The loop of `x509_crt_find_parent_in`. -/
def x509CrtFindParentIn (env : Platform) (child : X509Crt) (top : Bool) (pathCnt selfCnt : Nat) :
    List X509Crt → Option Found → Option Found
  | [], fallback => fallback
  | parent :: next, fallback =>
      if ¬ x509CrtCheckParent child parent top then
        x509CrtFindParentIn env child top pathCnt selfCnt next fallback
      else if parent.maxPathlen > 0 ∧ parent.maxPathlen < 1 + pathCnt - selfCnt then
        x509CrtFindParentIn env child top pathCnt selfCnt next fallback
      else
        let signatureIsGood := x509CrtCheckSignature env child parent
        if top && !signatureIsGood then
          x509CrtFindParentIn env child top pathCnt selfCnt next fallback
        else if x509TimeIsPast env parent.validTo || x509TimeIsFuture env parent.validFrom then
          x509CrtFindParentIn env child top pathCnt selfCnt next
            (fallback.or (some ⟨parent, next, signatureIsGood⟩))
        else some ⟨parent, next, signatureIsGood⟩

/-- `x509_crt_find_parent`, with `parent_is_trusted`. -/
def x509CrtFindParent (env : Platform) (trustCa : List X509Crt) (child : X509Crt)
    (next : List X509Crt) (pathCnt selfCnt : Nat) : Option (Found × Bool) :=
  match x509CrtFindParentIn env child true pathCnt selfCnt trustCa none with
  | some found => some (found, true)
  | none =>
      (x509CrtFindParentIn env child false pathCnt selfCnt next none).map
        fun found => (found, false)

/-- `x509_crt_check_ee_locally_trusted`. -/
def x509CrtCheckEeLocallyTrusted (crt : X509Crt) (trustCa : List X509Crt) : Bool :=
  x509NameCmp crt.issuer crt.subject && trustCa.any fun cur => crt.raw = cur.raw

/-- `x509_crt_verify_chain_item`. -/
structure VerifyChainItem where
  crt : X509Crt
  flags : UInt32

/-- What `x509_crt_find_parent_in` asks of a parent, apart from its dates. -/
structure Found.Suitable (env : Platform) (child : X509Crt) (top : Bool) (pathCnt selfCnt : Nat)
    (found : Found) : Prop where
  parent : x509CrtCheckParent child found.parent top = true
  pathlen : found.parent.maxPathlen = 0 ∨ 1 + pathCnt - selfCnt ≤ found.parent.maxPathlen
  signature : found.signatureIsGood = x509CrtCheckSignature env child found.parent
  top : top = true → found.signatureIsGood = true

/-- The parent found is one of the candidates, unless it is the fallback. -/
theorem findParentIn_some {env : Platform} {child : X509Crt} {top : Bool} {pathCnt selfCnt : Nat}
    {candidates : List X509Crt} {fallback : Option Found} {found : Found}
    (h : x509CrtFindParentIn env child top pathCnt selfCnt candidates fallback = some found) :
    fallback = some found ∨
      (found.Suitable env child top pathCnt selfCnt ∧
        ∃ before, candidates = before ++ found.parent :: found.next) := by
  induction candidates generalizing fallback with
  | nil => exact Or.inl h
  | cons parent next ih =>
      have hlater {fallback : Option Found}
          (h : x509CrtFindParentIn env child top pathCnt selfCnt next fallback = some found) :
          fallback = some found ∨
            (found.Suitable env child top pathCnt selfCnt ∧
              ∃ before, parent :: next = before ++ found.parent :: found.next) := by
        rcases ih h with hfallback | ⟨hsuitable, before, hnext⟩
        · exact Or.inl hfallback
        · exact Or.inr ⟨hsuitable, parent :: before, by rw [hnext, List.cons_append]⟩
      unfold x509CrtFindParentIn at h
      split at h
      case isTrue => exact hlater h
      case isFalse hparent =>
          split at h
          case isTrue => exact hlater h
          case isFalse hpathlen =>
              dsimp only at h
              split at h
              case isTrue => exact hlater h
              case isFalse htop =>
                  have hhere : Found.Suitable env child top pathCnt selfCnt
                      ⟨parent, next, x509CrtCheckSignature env child parent⟩ := by
                    refine ⟨by simpa using hparent, ?_, rfl, ?_⟩
                    · dsimp only
                      omega
                    · intro hyes
                      simpa [hyes] using htop
                  split at h
                  case isTrue =>
                      rcases hlater h with hor | hlater
                      · cases fallback with
                        | some f => exact Or.inl hor
                        | none =>
                            cases hor
                            exact Or.inr ⟨hhere, [], rfl⟩
                      · exact Or.inr hlater
                  case isFalse =>
                      cases h
                      exact Or.inr ⟨hhere, [], rfl⟩

/-- What `x509_crt_find_parent` answers. -/
theorem findParent_some {env : Platform} {trustCa next : List X509Crt} {child : X509Crt}
    {pathCnt selfCnt : Nat} {found : Found} {trusted : Bool}
    (h : x509CrtFindParent env trustCa child next pathCnt selfCnt = some (found, trusted)) :
    found.Suitable env child trusted pathCnt selfCnt ∧
      ∃ before, (if trusted then trustCa else next) = before ++ found.parent :: found.next := by
  unfold x509CrtFindParent at h
  split at h
  case h_1 f hfound =>
      cases h
      exact (findParentIn_some hfound).resolve_left (Option.some_ne_none found).symm
  case h_2 =>
      obtain ⟨f, hfound, heq⟩ := Option.map_eq_some_iff.mp h
      cases heq
      exact (findParentIn_some hfound).resolve_left (Option.some_ne_none found).symm

/-- The loop of `x509_crt_verify_chain`, from the moment `child` is to be added
to a chain of `len` certificates. -/
def x509CrtVerifyChain (env : Platform) (profile : X509CrtProfile) (crl : List X509Crl)
    (trustCa : List X509Crt) (child : X509Crt) (next : List X509Crt) (childIsTrusted : Bool)
    (len selfCnt : Nat) : Except Int (List VerifyChainItem) :=
  let flags := flagIf (x509TimeIsPast env child.validTo) MBEDTLS_X509_BADCERT_EXPIRED |||
    flagIf (x509TimeIsFuture env child.validFrom) MBEDTLS_X509_BADCERT_FUTURE
  if childIsTrusted then .ok [⟨child, flags⟩]
  else
    let flags := flags |||
      flagIf (!x509ProfileCheckMdAlg profile child.sigMd) MBEDTLS_X509_BADCERT_BAD_MD |||
      flagIf (!x509ProfileCheckPkAlg profile child.sigPk) MBEDTLS_X509_BADCERT_BAD_PK
    if len = 0 ∧ x509CrtCheckEeLocallyTrusted child trustCa then .ok [⟨child, flags⟩]
    else
      match hfound : x509CrtFindParent env trustCa child next len selfCnt with
      | none => .ok [⟨child, flags ||| MBEDTLS_X509_BADCERT_NOT_TRUSTED⟩]
      | some (found, parentIsTrusted) =>
          let selfCnt :=
            if len ≠ 0 ∧ x509NameCmp child.issuer child.subject then selfCnt + 1 else selfCnt
          if parentIsTrusted = false ∧ len + 1 > MBEDTLS_X509_MAX_INTERMEDIATE_CA then
            .error MBEDTLS_ERR_X509_FATAL_ERROR
          else
            let flags := flags |||
              flagIf (!found.signatureIsGood) MBEDTLS_X509_BADCERT_NOT_TRUSTED |||
              flagIf (!x509ProfileCheckKey profile found.parent.pk)
                MBEDTLS_X509_BADCERT_BAD_KEY |||
              x509CrtVerifycrl env profile child found.parent crl 0
            (x509CrtVerifyChain env profile crl trustCa found.parent found.next parentIsTrusted
              (len + 1) selfCnt).map fun items => ⟨child, flags⟩ :: items
termination_by if childIsTrusted then 0 else next.length + 1
decreasing_by
  obtain ⟨-, before, hnext⟩ := findParent_some hfound
  rw [if_neg ‹¬childIsTrusted = true›]
  cases parentIsTrusted with
  | true => exact Nat.succ_pos _
  | false =>
      rw [if_neg Bool.false_ne_true] at hnext ⊢
      rw [hnext, List.length_append, List.length_cons]
      omega

/-- The loop of `x509_crt_merge_flags_with_cb`, from the last certificate of
the chain to the first. -/
def x509CrtMergeFlagsWithCb (fVrfy : X509Crt → Nat → UInt32 → Int × UInt32) :
    List VerifyChainItem → UInt32 → Except Int UInt32
  | [], flags => .ok flags
  | cur :: before, flags =>
      let (ret, curFlags) := fVrfy cur.crt before.length cur.flags
      if ret ≠ 0 then .error ret
      else x509CrtMergeFlagsWithCb fVrfy before (flags ||| curFlags)

/-- `ee_flags`, the bits of the first certificate alone. -/
def eeFlags (profile : X509CrtProfile) (cn : Option (List UInt8)) (crt : X509Crt) : UInt32 :=
  (match cn with
    | some cn => x509CrtVerifyName crt cn
    | none => 0) |||
  flagIf (!x509ProfileCheckPkAlg profile crt.pk.type) MBEDTLS_X509_BADCERT_BAD_PK |||
  flagIf (!x509ProfileCheckKey profile crt.pk) MBEDTLS_X509_BADCERT_BAD_KEY

/-- `mbedtls_x509_crt_verify_restartable`, of the certificate `crt` with
`next` behind it, and with its flags. -/
def x509CrtVerify (env : Platform) (trustCa : List X509Crt) (crl : List X509Crl)
    (profile : X509CrtProfile) (fVrfy : X509Crt → Nat → UInt32 → Int × UInt32)
    (cn : Option (List UInt8)) (crt : X509Crt) (next : List X509Crt) : Int × UInt32 :=
  let ret : Except Int UInt32 := do
    let verChain ← x509CrtVerifyChain env profile crl trustCa crt next false 0 0
    let verChain := verChain.modifyHead fun item =>
      { item with flags := item.flags ||| eeFlags profile cn crt }
    x509CrtMergeFlagsWithCb fVrfy verChain.reverse 0
  match ret with
  | .error ret =>
      (if ret = MBEDTLS_ERR_X509_CERT_VERIFY_FAILED then MBEDTLS_ERR_X509_FATAL_ERROR else ret,
        ~~~0)
  | .ok flags => (if flags ≠ 0 then MBEDTLS_ERR_X509_CERT_VERIFY_FAILED else 0, flags)

/-- `CRT_Verify_Result` of `tls_client.c`, without what it prints. -/
def crtVerifyResult (_crt : X509Crt) (_depth : Nat) (flags : UInt32) : Int × UInt32 := (0, flags)

end NucleoMqtt.Tls
