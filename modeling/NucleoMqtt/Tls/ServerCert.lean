import NucleoMqtt.Tls.CertPath

/-!
# Tls — the server's certificate

`mbedtls_x509_crt_verify` accepts what the server has sent only if a
certification path leads from its certificate to a trusted one. It accepts
every list that is in order, each certificate issued by the next.
-/

namespace NucleoMqtt.Tls

variable {env : Platform} {profile : X509CrtProfile} {crl : List X509Crl}
  {trustCa : List X509Crt}

/-! ## A server below an intermediate authority -/

/-- `CN=name`. -/
def commonName (name : List UInt8) : List X509Name :=
  [⟨⟨6, MBEDTLS_OID_AT_CN⟩, ⟨MBEDTLS_ASN1_UTF8_STRING, name⟩, false⟩]

/-- A certificate of `subject`, whose key is its name, signed by `issuer`. -/
def crtOf (issuer subject : List UInt8) (caIstrue : Bool) (maxPathlen : Nat)
    (names : Option (List (List UInt8))) : X509Crt where
  raw := subject ++ issuer
  tbs := subject
  version := 3
  serial := [1]
  issuer := commonName issuer
  subject := commonName subject
  validFrom := ⟨2020, 1, 1, 0, 0, 0⟩
  validTo := ⟨2030, 12, 31, 23, 59, 59⟩
  pk := ⟨.rsa, 2048, .none, subject⟩
  subjectAltNames := names
  caIstrue := caIstrue
  maxPathlen := maxPathlen
  keyUsage := none
  extKeyUsage := none
  sig := subject ++ issuer
  sigMd := .sha256
  sigPk := .rsa
  sigOpts := none

/-- A hash that is the text, and a signature that is the hash with the key behind it. -/
def platformIn2026 : Platform where
  now := some ⟨2026, 6, 30, 12, 0, 0⟩
  md := fun _ tbs => some tbs
  pkVerifyExt := fun _ _ pk _ hash sig => sig = hash ++ pk.key

def rootCrt : X509Crt := crtOf [114] [114] true 2 none

def caCrt : X509Crt := crtOf [114] [99] true 1 none

/-- Its name is `*.b`. -/
def serverCrt : X509Crt := crtOf [99] [115] false 0 (some [[42, 46, 98]])

/-- `a.b` -/
def serverHost : List UInt8 := [97, 46, 98]

/-- A host is accepted when a name of the certificate covers it; no name with a
zero in it stands for the part in front of the zero. -/
theorem host_accepted (crt : X509Crt) {host : List UInt8} (hhost : 0 ∉ host) :
    x509CrtVerifyName crt host = 0 ↔ ∃ name ∈ crt.names, 0 ∉ name ∧ Covers name host := by
  rw [x509CrtVerifyName_iff]
  constructor
  · rintro ⟨name, hname, hcovers⟩
    exact ⟨name, hname, hcovers.no_zero hhost, hcovers⟩
  · rintro ⟨name, hname, -, hcovers⟩
    exact ⟨name, hname, hcovers⟩

theorem host_accepted_serverCrt : x509CrtVerifyName serverCrt serverHost = 0 ↔
    ∃ name ∈ serverCrt.names, 0 ∉ name ∧ Covers name serverHost :=
  host_accepted serverCrt (by decide)

/-! ## The verdict -/

/-- `CRT_Verify_Result` leaves the flags as they are. -/
theorem mergeFlags_crtVerifyResult (items : List VerifyChainItem) (flags : UInt32) :
    ∃ all, x509CrtMergeFlagsWithCb crtVerifyResult items flags = .ok all ∧
      (all = 0 ↔ flags = 0 ∧ Clean items) := by
  induction items generalizing flags with
  | nil => exact ⟨flags, rfl, by simp [Clean]⟩
  | cons item items ih =>
      obtain ⟨all, hmerge, hzero⟩ := ih (flags ||| item.flags)
      refine ⟨all, hmerge, ?_⟩
      rw [hzero, UInt32.or_eq_zero_iff, clean_cons, and_assoc]

/-- The host is one that the certificate is for. -/
def IsFor (crt : X509Crt) (cn : Option (List UInt8)) : Prop :=
  ∀ host, cn = some host → ∃ name ∈ crt.names, Covers name host

/-- The key of the certificate is acceptable. -/
def KeyWell (profile : X509CrtProfile) (crt : X509Crt) : Prop :=
  x509ProfileCheckPkAlg profile crt.pk.type = true ∧ x509ProfileCheckKey profile crt.pk = true

theorem clean_reverse {items : List VerifyChainItem} : Clean items.reverse ↔ Clean items := by
  unfold Clean
  simp

/-- The only way not to build a chain is to make it too long. -/
theorem verifyChain_error {child : X509Crt} {next : List X509Crt} {childIsTrusted : Bool}
    {len selfCnt : Nat} {ret : Int}
    (h : x509CrtVerifyChain env profile crl trustCa child next childIsTrusted len selfCnt =
      .error ret) : ret = MBEDTLS_ERR_X509_FATAL_ERROR := by
  fun_induction x509CrtVerifyChain env profile crl trustCa child next childIsTrusted len selfCnt
  case case1 => cases h
  case case2 => cases h
  case case3 => cases h
  case case4 =>
      cases h
      rfl
  case case5 found parentIsTrusted _ selfCnt _ _ ih =>
      cases hmore : x509CrtVerifyChain env profile crl trustCa found.parent found.next
          parentIsTrusted _ selfCnt with
      | error ret =>
          rw [hmore] at h
          cases h
          exact ih hmore
      | ok items =>
          rw [hmore] at h
          cases h

/-- The bits of the first certificate that do not depend on the chain. -/
theorem eeFlags_iff (cn : Option (List UInt8)) (crt : X509Crt) :
    eeFlags profile cn crt = 0 ↔ IsFor crt cn ∧ KeyWell profile crt := by
  unfold eeFlags IsFor KeyWell
  simp (disch := decide) only [UInt32.or_eq_zero_iff, flagIf_eq_zero, Bool.not_eq_false', and_assoc]
  cases cn with
  | none => simp
  | some host =>
      simp only [x509CrtVerifyName_iff, Option.some.injEq, forall_eq']

theorem x509CrtVerify_iff (cn : Option (List UInt8)) (crt : X509Crt) (next : List X509Crt) :
    (x509CrtVerify env trustCa crl profile crtVerifyResult cn crt next).1 = 0 ↔
      IsFor crt cn ∧ KeyWell profile crt ∧
        ∃ items, x509CrtVerifyChain env profile crl trustCa crt next false 0 0 = .ok items ∧
          Clean items := by
  rw [← and_assoc, ← eeFlags_iff]
  unfold x509CrtVerify
  cases hchain : x509CrtVerifyChain env profile crl trustCa crt next false 0 0 with
  | error ret =>
      obtain rfl := verifyChain_error hchain
      refine iff_of_false (show MBEDTLS_ERR_X509_FATAL_ERROR ≠ 0 by decide) ?_
      rintro ⟨-, items, hitems, -⟩
      cases hitems
  | ok items =>
      have hbuilt : Built env profile crl trustCa [] crt next false items :=
        built_of_verifyChain env profile crl trustCa hchain
      obtain ⟨more, hhead⟩ := hbuilt.head
      cases items with
      | nil => cases hhead
      | cons item items =>
          obtain ⟨all, hmerge, hall⟩ := mergeFlags_crtVerifyResult
            (List.reverse (⟨item.crt, item.flags ||| eeFlags profile cn crt⟩ :: items)) 0
          have hret : (x509CrtMergeFlagsWithCb crtVerifyResult
              ((item :: items).modifyHead fun item =>
                { item with flags := item.flags ||| eeFlags profile cn crt }).reverse 0) =
              .ok all := hmerge
          simp only [bind, Except.bind, hret, Except.ok.injEq, exists_eq_left']
          have hzero : (if all ≠ 0 then MBEDTLS_ERR_X509_CERT_VERIFY_FAILED else 0) = 0 ↔
              all = 0 := by
            by_cases h : all = 0 <;> simp [h, MBEDTLS_ERR_X509_CERT_VERIFY_FAILED]
          rw [hzero, hall, clean_reverse, clean_cons, clean_cons, UInt32.or_eq_zero_iff]
          constructor
          · rintro ⟨-, ⟨hitem, hee⟩, hitems⟩
            exact ⟨hee, hitem, hitems⟩
          · rintro ⟨hee, hitem, hitems⟩
            exact ⟨rfl, ⟨hitem, hee⟩, hitems⟩

/-- **A server that is accepted is authentic.** -/
theorem verify_sound {cn : Option (List UInt8)} {crt : X509Crt} {next : List X509Crt}
    (h : (x509CrtVerify env trustCa crl profile crtVerifyResult cn crt next).1 = 0) :
    IsFor crt cn ∧ KeyWell profile crt ∧
      ∃ path, Authentic env profile crl trustCa crt next path := by
  obtain ⟨hfor, hkey, items, hchain, hclean⟩ := (x509CrtVerify_iff cn crt next).mp h
  have hbuilt : Built env profile crl trustCa [] crt next false items :=
    built_of_verifyChain env profile crl trustCa hchain
  exact ⟨hfor, hkey, crts items, hbuilt.authentic hclean⟩

theorem verify_sound_serverCrt : IsFor serverCrt (some serverHost) ∧
    KeyWell x509CrtProfileDefault serverCrt ∧
    ∃ path, Authentic platformIn2026 x509CrtProfileDefault [] [rootCrt] serverCrt [caCrt] path := by
  have haccepted : (x509CrtVerify platformIn2026 [rootCrt] [] x509CrtProfileDefault crtVerifyResult
      (some serverHost) serverCrt [caCrt]).1 = 0 := by decide +kernel
  exact verify_sound haccepted

/-! ## A list in order -/

/-- `parent` allows these certificates below it in the chain, from the first
one on. The last of them counts even if it is self-issued. -/
def Allows (parent : X509Crt) (below : List X509Crt) : Prop :=
  parent.maxPathlen = 0 ∨
    1 + below.dropLast.length - below.dropLast.tail.countP X509Crt.selfIssued ≤ parent.maxPathlen

theorem checkParent_of_issued {child parent : X509Crt} {top : Bool}
    (hname : SameDn child.issuer parent.subject)
    (hauthority : (parent.caIstrue = true ∧
      x509CrtCheckKeyUsage parent MBEDTLS_X509_KU_KEY_CERT_SIGN = true) ∨
      (top = true ∧ parent.version < 3)) : x509CrtCheckParent child parent top = true := by
  rw [← x509NameCmp_iff] at hname
  unfold x509CrtCheckParent
  rcases hauthority with ⟨hca, husage⟩ | ⟨htop, hold⟩
  · simp [hname, hca, husage]
  · simp [hname, htop, hold]

theorem inTime_flags {crt : X509Crt} (h : InTime env crt) :
    (x509TimeIsPast env crt.validTo || x509TimeIsFuture env crt.validFrom) = false := by
  rw [← timeFlags_iff] at h
  unfold timeFlags at h
  simpa (disch := decide) only [UInt32.or_eq_zero_iff, flagIf_eq_zero, Bool.or_eq_false_iff] using h

/-- Among trusted certificates that are all valid, an issuer is found if there is one. -/
theorem findParentIn_isSome {child root : X509Crt} {pathCnt selfCnt : Nat}
    {candidates : List X509Crt} {fallback : Option Found}
    (htime : ∀ c ∈ candidates, InTime env c) (hmem : root ∈ candidates)
    (hroot : x509CrtCheckParent child root true = true)
    (hpathlen : ¬ (root.maxPathlen > 0 ∧ root.maxPathlen < 1 + pathCnt - selfCnt))
    (hsigned : x509CrtCheckSignature env child root = true) :
    ∃ found, x509CrtFindParentIn env child true pathCnt selfCnt candidates fallback =
      some found := by
  induction candidates generalizing fallback with
  | nil => cases hmem
  | cons parent next ih =>
      have hnext (hne : root ≠ parent) (fallback : Option Found) :
          ∃ found, x509CrtFindParentIn env child true pathCnt selfCnt next fallback =
            some found :=
        ih (fun c hc => htime c (List.mem_cons_of_mem _ hc))
          ((List.mem_cons.mp hmem).resolve_left hne)
      unfold x509CrtFindParentIn
      split
      case isTrue hbad =>
          apply hnext
          rintro rfl
          exact hbad hroot
      case isFalse =>
          split
          case isTrue hbad =>
              apply hnext
              rintro rfl
              exact hpathlen hbad
          case isFalse =>
              dsimp only
              split
              case isTrue hbad =>
                  apply hnext
                  rintro rfl
                  rw [hsigned] at hbad
                  cases hbad
              case isFalse =>
                  have hvalid := inTime_flags (htime parent List.mem_cons_self)
                  rw [if_neg (Bool.eq_false_iff.mp hvalid)]
                  exact ⟨_, rfl⟩

/-- Of the certificates that have been sent, the next one is the issuer if it can be. -/
theorem findParentIn_next {child parent : X509Crt} {next : List X509Crt} {pathCnt selfCnt : Nat}
    {fallback : Option Found} (htime : InTime env parent)
    (hparent : x509CrtCheckParent child parent false = true)
    (hpathlen : ¬ (parent.maxPathlen > 0 ∧ parent.maxPathlen < 1 + pathCnt - selfCnt)) :
    x509CrtFindParentIn env child false pathCnt selfCnt (parent :: next) fallback =
      some ⟨parent, next, x509CrtCheckSignature env child parent⟩ := by
  unfold x509CrtFindParentIn
  rw [if_neg (not_not_intro hparent), if_neg hpathlen]
  dsimp only
  rw [Bool.false_and, if_neg Bool.false_ne_true, inTime_flags htime, if_neg Bool.false_ne_true]

/-- The loop goes on with the issuer that it finds. -/
theorem verifyChain_issued {before next : List X509Crt} {child : X509Crt} {found : Found}
    {parentIsTrusted : Bool} {items : List VerifyChainItem}
    (hlocal : ¬ (before.length = 0 ∧ x509CrtCheckEeLocallyTrusted child trustCa = true))
    (hfound : x509CrtFindParent env trustCa child next before.length
      (before.tail.countP X509Crt.selfIssued) = some (found, parentIsTrusted))
    (hfew : parentIsTrusted = false → before.length < MBEDTLS_X509_MAX_INTERMEDIATE_CA)
    (hitems : x509CrtVerifyChain env profile crl trustCa found.parent found.next parentIsTrusted
      (before ++ [child]).length ((before ++ [child]).tail.countP X509Crt.selfIssued) =
        .ok items) :
    x509CrtVerifyChain env profile crl trustCa child next false before.length
      (before.tail.countP X509Crt.selfIssued) = .ok (⟨child,
        (ownFlags env profile child |||
          flagIf (!found.signatureIsGood) MBEDTLS_X509_BADCERT_NOT_TRUSTED |||
          flagIf (!x509ProfileCheckKey profile found.parent.pk) MBEDTLS_X509_BADCERT_BAD_KEY |||
          x509CrtVerifycrl env profile child found.parent crl 0)⟩ :: items) := by
  rw [countP_tail_concat, List.length_append, List.length_singleton] at hitems
  rw [x509CrtVerifyChain, if_neg Bool.false_ne_true]
  dsimp only
  rw [if_neg hlocal]
  split
  case h_1 hnone =>
      rw [hfound] at hnone
      cases hnone
  case h_2 found' trusted' hsome =>
      rw [hfound] at hsome
      cases hsome
      have hnotMany : ¬ (parentIsTrusted = false ∧
          before.length + 1 > MBEDTLS_X509_MAX_INTERMEDIATE_CA) := by
        rintro ⟨hfalse, hmany⟩
        have := hfew hfalse
        omega
      rw [if_neg hnotMany]
      show (x509CrtVerifyChain env profile crl trustCa found.parent found.next parentIsTrusted
        (before.length + 1) (if before.length ≠ 0 ∧ child.selfIssued then
          before.tail.countP X509Crt.selfIssued + 1
        else before.tail.countP X509Crt.selfIssued)).map _ = _
      rw [hitems]
      rfl

/-- The chain ends with a certificate that is trusted. -/
theorem verifyChain_anchor (child : X509Crt) (next : List X509Crt) (len selfCnt : Nat) :
    x509CrtVerifyChain env profile crl trustCa child next true len selfCnt =
      .ok [⟨child, timeFlags env child⟩] := by
  rw [x509CrtVerifyChain, if_pos rfl]
  rfl

/-- A certificate whose issuer is as it should be has no flag, when nothing is
known to be revoked. -/
theorem clean_issued {child : X509Crt} {found : Found} {items : List VerifyChainItem}
    (hchild : InTime env child ∧ SignedWell profile child)
    (hgood : found.signatureIsGood = true)
    (hkey : x509ProfileCheckKey profile found.parent.pk = true) (hitems : Clean items) :
    Clean (⟨child, (ownFlags env profile child |||
      flagIf (!found.signatureIsGood) MBEDTLS_X509_BADCERT_NOT_TRUSTED |||
      flagIf (!x509ProfileCheckKey profile found.parent.pk) MBEDTLS_X509_BADCERT_BAD_KEY |||
      x509CrtVerifycrl env profile child found.parent [] 0)⟩ :: items) := by
  rw [clean_cons]
  refine ⟨?_, hitems⟩
  show ownFlags env profile child |||
    flagIf (!found.signatureIsGood) MBEDTLS_X509_BADCERT_NOT_TRUSTED |||
    flagIf (!x509ProfileCheckKey profile found.parent.pk) MBEDTLS_X509_BADCERT_BAD_KEY ||| 0 = 0
  rw [(ownFlags_iff env profile child).mpr hchild, hgood, hkey]
  rfl

/-- `crt`, sent with `chain` behind it, is in order: each one is issued by the
next, and the last by `root`, which is trusted. -/
structure InOrder (env : Platform) (profile : X509CrtProfile) (trustCa : List X509Crt)
    (crt : X509Crt) (chain : List X509Crt) (root : X509Crt) : Prop where
  wellFormed : ∀ c ∈ crt :: chain, InTime env c ∧ SignedWell profile c
  links : (crt :: chain).IsChain (Issued env profile [] [])
  pathlen : ∀ below parent above, chain = below ++ parent :: above →
    Allows parent (crt :: below)
  trusted : root ∈ trustCa
  last : ∀ c ∈ (crt :: chain).getLast?, Issued env profile [] trustCa c root
  rootPathlen : Allows root (crt :: chain)
  short : chain.length ≤ MBEDTLS_X509_MAX_INTERMEDIATE_CA

/-- The certificates that are trusted are valid, with acceptable keys. -/
def AnchorsWell (env : Platform) (profile : X509CrtProfile) (trustCa : List X509Crt) : Prop :=
  ∀ c ∈ trustCa, InTime env c ∧ x509ProfileCheckKey profile c.pk = true

/-- A first certificate that is itself among those trusted needs no issuer. -/
theorem verifyChain_local {before next : List X509Crt} {child : X509Crt}
    (hchild : InTime env child ∧ SignedWell profile child)
    (hlocal : before.length = 0 ∧ x509CrtCheckEeLocallyTrusted child trustCa = true) :
    ∃ items, x509CrtVerifyChain env profile crl trustCa child next false before.length
      (before.tail.countP X509Crt.selfIssued) = .ok items ∧ Clean items := by
  refine ⟨[⟨child, ownFlags env profile child⟩], ?_,
    clean_cons.mpr ⟨(ownFlags_iff env profile child).mpr hchild, fun _ h => nomatch h⟩⟩
  rw [x509CrtVerifyChain, if_neg Bool.false_ne_true]
  dsimp only
  rw [if_pos hlocal]
  rfl

/-- As soon as a trusted certificate is the issuer, the chain is complete. -/
theorem verifyChain_trusted {before next : List X509Crt} {child : X509Crt} {found : Found}
    (hanchors : AnchorsWell env profile trustCa)
    (hchild : InTime env child ∧ SignedWell profile child)
    (hlocal : ¬ (before.length = 0 ∧ x509CrtCheckEeLocallyTrusted child trustCa = true))
    (hfound : x509CrtFindParentIn env child true before.length
      (before.tail.countP X509Crt.selfIssued) trustCa none = some found) :
    ∃ items, x509CrtVerifyChain env profile [] trustCa child next false before.length
      (before.tail.countP X509Crt.selfIssued) = .ok items ∧ Clean items := by
  have hparent : x509CrtFindParent env trustCa child next before.length
      (before.tail.countP X509Crt.selfIssued) = some (found, true) := by
    unfold x509CrtFindParent
    rw [hfound]
  obtain ⟨hsuitable, earlier, hlist⟩ := findParent_some hparent
  have hmem : found.parent ∈ trustCa := by
    rw [if_pos rfl] at hlist
    rw [hlist]
    exact List.mem_append_right _ List.mem_cons_self
  obtain ⟨htime, hkey⟩ := hanchors _ hmem
  refine ⟨_, verifyChain_issued hlocal hparent (fun h => (Bool.noConfusion h : _))
    (verifyChain_anchor _ _ _ _), clean_issued hchild (hsuitable.top rfl) hkey ?_⟩
  exact clean_cons.mpr ⟨(timeFlags_iff env _).mpr htime, fun _ h => nomatch h⟩

theorem not_tooLong {parent : X509Crt} {before : List X509Crt} {child : X509Crt}
    (h : Allows parent (before ++ [child])) : ¬ (parent.maxPathlen > 0 ∧
      parent.maxPathlen < 1 + before.length - before.tail.countP X509Crt.selfIssued) := by
  unfold Allows at h
  rw [List.dropLast_concat] at h
  omega

/-- The step over the certificates sent, with those `before` in the chain already. -/
theorem verifyChain_inOrder {chain : List X509Crt} {child root : X509Crt}
    (before extra : List X509Crt) (hanchors : AnchorsWell env profile trustCa)
    (hsent : ∀ c ∈ child :: chain, InTime env c ∧ SignedWell profile c)
    (hlinks : (child :: chain).IsChain (Issued env profile [] []))
    (hpathlen : ∀ below parent above, chain = below ++ parent :: above →
      Allows parent (before ++ child :: below))
    (hroot : root ∈ trustCa)
    (hlast : ∀ c ∈ (child :: chain).getLast?, Issued env profile [] trustCa c root)
    (hrootPathlen : Allows root (before ++ child :: chain))
    (hshort : before.length + chain.length ≤ MBEDTLS_X509_MAX_INTERMEDIATE_CA) :
    ∃ items, x509CrtVerifyChain env profile [] trustCa child (chain ++ extra) false before.length
      (before.tail.countP X509Crt.selfIssued) = .ok items ∧ Clean items := by
  induction chain generalizing before child with
  | nil =>
      have hchild := hsent child List.mem_cons_self
      by_cases hlocal : before.length = 0 ∧ x509CrtCheckEeLocallyTrusted child trustCa = true
      · exact verifyChain_local hchild hlocal
      · have hissued := hlast child rfl
        have hcheck : x509CrtCheckParent child root true = true :=
          checkParent_of_issued hissued.name (hissued.authority.imp_right fun h => ⟨rfl, h.2⟩)
        obtain ⟨found, hfound⟩ := findParentIn_isSome (fun c hc => (hanchors c hc).1) hroot hcheck
          (not_tooLong hrootPathlen) hissued.signed
        exact verifyChain_trusted hanchors hchild hlocal hfound
  | cons parent chain ih =>
      have hchild := hsent child List.mem_cons_self
      by_cases hlocal : before.length = 0 ∧ x509CrtCheckEeLocallyTrusted child trustCa = true
      · exact verifyChain_local hchild hlocal
      · cases hfound : x509CrtFindParentIn env child true before.length
            (before.tail.countP X509Crt.selfIssued) trustCa none with
        | some found => exact verifyChain_trusted hanchors hchild hlocal hfound
        | none =>
            obtain ⟨hissued, hlater⟩ := List.isChain_cons_cons.mp hlinks
            have hwell := hsent parent (List.mem_cons_of_mem _ List.mem_cons_self)
            have hcheck : x509CrtCheckParent child parent false = true :=
              checkParent_of_issued hissued.name (Or.inl (hissued.authority.resolve_right
                fun h => nomatch h.1))
            have hparent : x509CrtFindParent env trustCa child (parent :: chain ++ extra)
                before.length (before.tail.countP X509Crt.selfIssued) =
                some (⟨parent, chain ++ extra, x509CrtCheckSignature env child parent⟩, false) := by
              unfold x509CrtFindParent
              rw [hfound, List.cons_append, findParentIn_next hwell.1 hcheck
                (not_tooLong (hpathlen [] parent chain rfl))]
              rfl
            have hlaterPathlen : ∀ below issuer above, chain = below ++ issuer :: above →
                Allows issuer (before ++ [child] ++ parent :: below) := by
              intro below issuer above hsplit
              rw [List.append_assoc]
              exact hpathlen (parent :: below) issuer above (by rw [hsplit, List.cons_append])
            have hlaterLast : ∀ c ∈ (parent :: chain).getLast?,
                Issued env profile [] trustCa c root := by
              intro c hc
              exact hlast c (by rwa [List.getLast?_cons_cons])
            have hlaterRoot : Allows root (before ++ [child] ++ parent :: chain) := by
              rwa [List.append_assoc]
            rw [List.length_cons] at hshort
            have hlaterShort : (before ++ [child]).length + chain.length ≤
                MBEDTLS_X509_MAX_INTERMEDIATE_CA := by
              rw [List.length_append, List.length_singleton]
              omega
            obtain ⟨items, hitems, hclean⟩ := ih (before ++ [child])
              (fun c hc => hsent c (List.mem_cons_of_mem _ hc)) hlater hlaterPathlen hlaterLast
              hlaterRoot hlaterShort
            refine ⟨_, verifyChain_issued hlocal hparent (fun _ => ?_) hitems,
              clean_issued hchild hissued.signed hissued.key hclean⟩
            omega

/-- **A list in order is accepted**, whatever is sent behind it. -/
theorem verify_complete {cn : Option (List UInt8)} {crt root : X509Crt} {chain : List X509Crt}
    (extra : List X509Crt) (hfor : IsFor crt cn) (hkey : KeyWell profile crt)
    (hanchors : AnchorsWell env profile trustCa)
    (horder : InOrder env profile trustCa crt chain root) :
    (x509CrtVerify env trustCa [] profile crtVerifyResult cn crt (chain ++ extra)).1 = 0 := by
  rw [x509CrtVerify_iff]
  exact ⟨hfor, hkey, verifyChain_inOrder [] extra hanchors horder.wellFormed
    horder.links horder.pathlen horder.trusted horder.last horder.rootPathlen
    (by simpa using horder.short)⟩

/-- Whatever it certifies, an authority has issued what is signed with its name. -/
theorem issued_crtOf {trustCa : List X509Crt} (above issuer subject : List UInt8) (caIstrue : Bool)
    (maxPathlen maxPathlen' : Nat) (names names' : Option (List (List UInt8))) :
    Issued platformIn2026 x509CrtProfileDefault [] trustCa
      (crtOf issuer subject caIstrue maxPathlen names)
      (crtOf above issuer true maxPathlen' names') where
  name := rfl
  authority := Or.inl ⟨rfl, rfl⟩
  signed := decide_eq_true (rfl : subject ++ issuer = subject ++ issuer)
  key := rfl
  notRevoked := fun _ h => nomatch h

theorem inOrder_serverCrt :
    InOrder platformIn2026 x509CrtProfileDefault [rootCrt] serverCrt [caCrt] rootCrt where
  wellFormed := by
    intro c hc
    rw [← ownFlags_iff]
    rcases List.mem_pair.mp hc with rfl | rfl <;> decide +kernel
  links := .cons_cons (issued_crtOf ..) (.singleton caCrt)
  pathlen := by
    intro below parent above hsplit
    cases below with
    | nil =>
        obtain ⟨rfl, -⟩ := List.cons.inj hsplit
        exact Or.inr (by decide +kernel)
    | cons c below =>
        obtain ⟨-, htail⟩ := List.cons.inj hsplit
        simp at htail
  trusted := List.mem_cons_self
  last := by
    intro c hc
    cases hc
    exact issued_crtOf ..
  rootPathlen := Or.inr (by decide +kernel)
  short := by decide

theorem verify_complete_serverCrt : (x509CrtVerify platformIn2026 [rootCrt] []
    x509CrtProfileDefault crtVerifyResult (some serverHost) serverCrt ([caCrt] ++ [rootCrt])).1 =
      0 := by
  have hfor : IsFor serverCrt (some serverHost) := by
    intro host hhost
    cases hhost
    exact (x509CrtVerifyName_iff _ _).mp (by decide +kernel)
  have hkey : KeyWell x509CrtProfileDefault serverCrt := ⟨by decide +kernel, by decide +kernel⟩
  have hanchors : AnchorsWell platformIn2026 x509CrtProfileDefault [rootCrt] := by
    intro c hc
    obtain rfl := List.mem_singleton.mp hc
    exact ⟨(timeFlags_iff _ _).mp (by decide +kernel), by decide +kernel⟩
  exact verify_complete [rootCrt] hfor hkey hanchors inOrder_serverCrt

end NucleoMqtt.Tls
