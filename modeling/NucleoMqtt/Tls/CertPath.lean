import Mathlib.Data.List.Chain
import NucleoMqtt.Tls.HostName

/-!
# Tls — certification paths

What it means that a chain of certificates vouches for the first of them:
every one is valid, is issued by the next, and the last is one of those the
program trusts. `x509_crt_verify_chain` builds such a chain from what the
server has sent; `Built` says how, and every property of the chain is an
induction on it.
-/

namespace NucleoMqtt.Tls

/-! ## Names and dates -/

/-- Strings that `x509_string_cmp` takes for one have this in common. -/
def X509Buf.canonical (b : X509Buf) : Nat × List UInt8 :=
  if isDirectoryString b.tag then (MBEDTLS_ASN1_UTF8_STRING, b.p.map lower) else (b.tag, b.p)

def X509Name.canonical (a : X509Name) : (Nat × List UInt8) × (Nat × List UInt8) × Bool :=
  ((a.oid.tag, a.oid.p), a.val.canonical, a.nextMerged)

/-- The same distinguished name. -/
def SameDn (a b : List X509Name) : Prop := a.map X509Name.canonical = b.map X509Name.canonical

theorem isDirectoryString_utf8 : isDirectoryString MBEDTLS_ASN1_UTF8_STRING = true := by decide

theorem x509StringCmp_iff (a b : X509Buf) :
    x509StringCmp a b = true ↔ a.canonical = b.canonical := by
  have hsame := x509Memcasecmp_iff a.p b.p
  unfold x509StringCmp X509Buf.canonical
  by_cases ha : isDirectoryString a.tag = true
  · by_cases hb : isDirectoryString b.tag = true
    · simp only [ha, hb, if_true, Bool.true_and, Bool.or_eq_true, decide_eq_true_eq, hsame,
        Prod.mk.injEq, true_and]
      constructor
      · rintro (⟨-, -, heq⟩ | ⟨-, hcase⟩)
        · rw [heq]
        · exact hcase
      · intro hcase
        exact Or.inr ⟨SameName.length hcase, hcase⟩
    · simp only [ha, hb, if_true, Bool.and_false, Bool.false_and, Bool.or_false, decide_eq_true_eq,
        Bool.false_eq_true, if_false, Prod.mk.injEq]
      constructor
      · rintro ⟨htag, -, -⟩
        exact absurd (htag ▸ ha) hb
      · rintro ⟨htag, -⟩
        exact absurd (htag ▸ isDirectoryString_utf8) hb
  · have hleft : x509StringCmp a b = true ↔ a.tag = b.tag ∧ a.p = b.p := by
      unfold x509StringCmp
      simp only [ha, Bool.false_and, Bool.or_false, decide_eq_true_eq]
      constructor
      · rintro ⟨htag, -, heq⟩
        exact ⟨htag, heq⟩
      · rintro ⟨htag, heq⟩
        exact ⟨htag, by rw [heq], heq⟩
    unfold x509StringCmp at hleft
    rw [hleft]
    simp only [ha, Bool.false_eq_true, if_false]
    split
    case isTrue hb =>
        simp only [Prod.mk.injEq]
        constructor
        · rintro ⟨htag, -⟩
          exact absurd (htag ▸ hb) ha
        · rintro ⟨htag, -⟩
          exact absurd (htag ▸ isDirectoryString_utf8) ha
    case isFalse => simp only [Prod.mk.injEq]

theorem x509NameCmp_iff (a b : List X509Name) : x509NameCmp a b = true ↔ SameDn a b := by
  unfold SameDn
  induction a generalizing b with
  | nil => cases b <;> simp [x509NameCmp]
  | cons x a ih =>
      cases b with
      | nil => simp [x509NameCmp]
      | cons y b =>
          have hval := x509StringCmp_iff x.val y.val
          unfold x509NameCmp
          rw [List.map_cons, List.map_cons, List.cons_eq_cons, ← ih b]
          simp only [X509Name.canonical, Prod.mk.injEq, ← hval]
          by_cases hoid : x.oid.tag = y.oid.tag ∧ x.oid.p = y.oid.p
          · simp only [hoid.1, hoid.2, ne_eq, not_true_eq_false, or_self, if_false, and_self,
              true_and]
            by_cases hstring : x509StringCmp x.val y.val = true
            · by_cases hmerged : x.nextMerged = y.nextMerged <;> simp [hstring, hmerged]
            · simp [hstring]
          · have hne : x.oid.tag ≠ y.oid.tag ∨ x.oid.p ≠ y.oid.p := by
              by_cases htag : x.oid.tag = y.oid.tag
              · exact Or.inr fun hp => hoid ⟨htag, hp⟩
              · exact Or.inl htag
            rw [if_pos hne]
            simp [hoid]

def X509Time.fields (t : X509Time) : List Int := [t.year, t.mon, t.day, t.hour, t.min, t.sec]

/-- One point in time is before another: year, month, day and so on, in this order. -/
def X509Time.Before (a b : X509Time) : Prop := a.fields < b.fields

theorem x509CheckTime_iff (before after : X509Time) :
    x509CheckTime before after = true ↔ after.Before before := by
  unfold x509CheckTime X509Time.Before X509Time.fields
  simp only [List.cons_lt_cons_iff, gt_iff_lt]
  grind

variable (env : Platform) (profile : X509CrtProfile) (crl : List X509Crl)
  (trustCa : List X509Crt)

/-- The certificate is valid now. -/
def InTime (crt : X509Crt) : Prop :=
  ∃ now, env.now = some now ∧ ¬ now.Before crt.validFrom ∧ ¬ crt.validTo.Before now

/-- The bits that `x509_crt_verify_chain` sets for the dates. -/
def timeFlags (crt : X509Crt) : UInt32 :=
  flagIf (x509TimeIsPast env crt.validTo) MBEDTLS_X509_BADCERT_EXPIRED |||
    flagIf (x509TimeIsFuture env crt.validFrom) MBEDTLS_X509_BADCERT_FUTURE

theorem timeFlags_iff (crt : X509Crt) : timeFlags env crt = 0 ↔ InTime env crt := by
  unfold timeFlags InTime x509TimeIsPast x509TimeIsFuture
  rw [UInt32.or_eq_zero_iff, flagIf_eq_zero (by decide), flagIf_eq_zero (by decide)]
  cases env.now with
  | none => simp
  | some now =>
      simp only [Option.some.injEq, exists_eq_left', ← Bool.not_eq_true, x509CheckTime_iff]
      exact and_comm

/-! ## Issuing -/

/-- The hash and the algorithm of its signature are acceptable. -/
def SignedWell (crt : X509Crt) : Prop :=
  x509ProfileCheckMdAlg profile crt.sigMd = true ∧ x509ProfileCheckPkAlg profile crt.sigPk = true

/-- The bits that it sets for a certificate before it looks for its issuer. -/
def ownFlags (crt : X509Crt) : UInt32 :=
  timeFlags env crt |||
    flagIf (!x509ProfileCheckMdAlg profile crt.sigMd) MBEDTLS_X509_BADCERT_BAD_MD |||
    flagIf (!x509ProfileCheckPkAlg profile crt.sigPk) MBEDTLS_X509_BADCERT_BAD_PK

theorem ownFlags_iff (crt : X509Crt) :
    ownFlags env profile crt = 0 ↔ InTime env crt ∧ SignedWell profile crt := by
  unfold ownFlags SignedWell
  simp (disch := decide) only [UInt32.or_eq_zero_iff, timeFlags_iff, flagIf_eq_zero,
    Bool.not_eq_false']
  exact and_assoc

/-- A list of revoked certificates of `ca` is as it should be, and `crt` is
not on it. -/
structure Clears (crt ca : X509Crt) (list : X509Crl) : Prop where
  usage : x509CrtCheckKeyUsage ca MBEDTLS_X509_KU_CRL_SIGN = true
  algorithms : x509ProfileCheckMdAlg profile list.sigMd = true ∧
    x509ProfileCheckPkAlg profile list.sigPk = true ∧ x509ProfileCheckKey profile ca.pk = true
  signed : ∃ hash, env.md list.sigMd list.tbs = some hash ∧
    env.pkVerifyExt list.sigPk list.sigOpts ca.pk list.sigMd hash list.sig = true
  inTime : x509TimeIsPast env list.nextUpdate = false ∧
    x509TimeIsFuture env list.thisUpdate = false
  notRevoked : x509CrtIsRevoked crt list.entry = false

/-- Every list of `ca` clears it. -/
def NotRevoked (crt ca : X509Crt) : Prop :=
  ∀ list ∈ crl, list.version ≠ 0 → SameDn list.issuer ca.subject → Clears env profile crt ca list

theorem verifycrl_iff (crt ca : X509Crt) (flags : UInt32) :
    x509CrtVerifycrl env profile crt ca crl flags = 0 ↔
      flags = 0 ∧ NotRevoked env profile crl crt ca := by
  induction crl generalizing flags with
  | nil => simp [x509CrtVerifycrl, NotRevoked]
  | cons list next ih =>
      have hcons : NotRevoked env profile (list :: next) crt ca ↔
          (list.version ≠ 0 → SameDn list.issuer ca.subject → Clears env profile crt ca list) ∧
            NotRevoked env profile next crt ca := List.forall_mem_cons
      rw [hcons]
      unfold x509CrtVerifycrl
      split
      case isTrue hother =>
          have hskip : list.version ≠ 0 → SameDn list.issuer ca.subject →
              Clears env profile crt ca list := by
            intro hversion hissuer
            rw [← x509NameCmp_iff] at hissuer
            simp [hversion, hissuer] at hother
          rw [ih, and_iff_right hskip]
      case isFalse hother =>
          rw [not_or, Decidable.not_not, x509NameCmp_iff] at hother
          have hca : (list.version ≠ 0 → SameDn list.issuer ca.subject →
              Clears env profile crt ca list) ↔ Clears env profile crt ca list :=
            ⟨fun h => h hother.1 hother.2, fun h _ _ => h⟩
          rw [hca]
          split
          case isTrue husage =>
              refine iff_of_false ?_ fun h => husage h.2.1.usage
              simp [MBEDTLS_X509_BADCRL_NOT_TRUSTED]
          case isFalse husage =>
              dsimp only
              split
              case h_1 hhash =>
                  refine iff_of_false ?_ fun h => ?_
                  · simp [MBEDTLS_X509_BADCRL_NOT_TRUSTED]
                  · obtain ⟨hash, hsome, -⟩ := h.2.1.signed
                    rw [hhash] at hsome
                    cases hsome
              case h_2 hash hhash =>
                  split
                  case isTrue hverify =>
                      refine iff_of_false ?_ fun h => ?_
                      · simp [MBEDTLS_X509_BADCRL_NOT_TRUSTED]
                      · obtain ⟨hash', hsome, hgood⟩ := h.2.1.signed
                        rw [hhash] at hsome
                        cases hsome
                        exact hverify hgood
                  case isFalse hverify =>
                      rw [Decidable.not_not] at husage hverify
                      split
                      case isTrue hrevoked =>
                          refine iff_of_false ?_ fun h => ?_
                          · simp [MBEDTLS_X509_BADCERT_REVOKED]
                          · rw [h.2.1.notRevoked] at hrevoked
                            cases hrevoked
                      case isFalse hrevoked =>
                          rw [ih]
                          simp (disch := decide) only [UInt32.or_eq_zero_iff, flagIf_eq_zero,
                            Bool.not_eq_false']
                          constructor
                          · rintro ⟨⟨⟨⟨⟨⟨hzero, hmd⟩, hpk⟩, hkey⟩, hpast⟩, hfuture⟩, hrest⟩
                            exact ⟨hzero, ⟨husage, ⟨hmd, hpk, hkey⟩, ⟨hash, hhash, hverify⟩,
                              ⟨hpast, hfuture⟩, Bool.not_eq_true _ ▸ hrevoked⟩, hrest⟩
                          · rintro ⟨hzero, hclears, hrest⟩
                            obtain ⟨hmd, hpk, hkey⟩ := hclears.algorithms
                            exact ⟨⟨⟨⟨⟨⟨hzero, hmd⟩, hpk⟩, hkey⟩, hclears.inTime.1⟩,
                              hclears.inTime.2⟩, hrest⟩

/-- `parent` may issue certificates, and has issued `child`. A certificate that
is trusted may do so without saying so, when it is of an old version. -/
structure Issued (child parent : X509Crt) : Prop where
  name : SameDn child.issuer parent.subject
  authority : (parent.caIstrue = true ∧
      x509CrtCheckKeyUsage parent MBEDTLS_X509_KU_KEY_CERT_SIGN = true) ∨
    (parent ∈ trustCa ∧ parent.version < 3)
  signed : x509CrtCheckSignature env child parent = true
  key : x509ProfileCheckKey profile parent.pk = true
  notRevoked : NotRevoked env profile crl child parent

/-- `x509_crt_check_parent`, for a parent that is trusted if it is said to be. -/
theorem checkParent_issued {child parent : X509Crt} {top : Bool}
    (h : x509CrtCheckParent child parent top = true) (htop : top = true → parent ∈ trustCa) :
    SameDn child.issuer parent.subject ∧
      ((parent.caIstrue = true ∧
        x509CrtCheckKeyUsage parent MBEDTLS_X509_KU_KEY_CERT_SIGN = true) ∨
      (parent ∈ trustCa ∧ parent.version < 3)) := by
  unfold x509CrtCheckParent at h
  dsimp only at h
  split at h
  case isTrue => cases h
  case isFalse hname =>
      rw [Decidable.not_not, x509NameCmp_iff] at hname
      refine ⟨hname, ?_⟩
      by_cases hold : (top && decide (parent.version < 3)) = true
      · rw [Bool.and_eq_true, decide_eq_true_eq] at hold
        exact Or.inr ⟨htop hold.1, hold.2⟩
      · rw [Bool.not_eq_true] at hold
        simp only [hold, Bool.not_false, Bool.true_and] at h
        split at h
        case isTrue => cases h
        case isFalse hca =>
            split at h
            case isTrue => cases h
            case isFalse husage =>
                simp only [Bool.not_eq_true, Bool.not_eq_false'] at hca husage
                exact Or.inl ⟨hca, husage⟩

/-- The issuer has the name of the subject. -/
def X509Crt.selfIssued (crt : X509Crt) : Bool := x509NameCmp crt.issuer crt.subject

/-- `path` leads from `crt`, which has been sent with `next` behind it, to a
certificate that is trusted. -/
structure Authentic (crt : X509Crt) (next path : List X509Crt) : Prop where
  first : path.head? = some crt
  inTime : ∀ c ∈ path, InTime env c
  links : path.IsChain (Issued env profile crl trustCa)
  algorithms : ∀ c ∈ path.dropLast, SignedWell profile c
  pathlen : ∀ below parent above, path = crt :: below ++ parent :: above →
    parent.maxPathlen = 0 ∨ below.countP (fun c => !c.selfIssued) < parent.maxPathlen
  sent : path.dropLast.Sublist (crt :: next)
  anchored : (∃ root ∈ trustCa, path.getLast? = some root ∧ 2 ≤ path.length) ∨
    (path = [crt] ∧ SameDn crt.issuer crt.subject ∧ SignedWell profile crt ∧
      ∃ root ∈ trustCa, crt.raw = root.raw)
  short : path.length ≤ MBEDTLS_X509_MAX_INTERMEDIATE_CA + 2

/-! ## The chain that is built -/

/-- What the loop of `x509_crt_verify_chain` makes of `child`, with the
certificates `before` it in the chain already. -/
inductive Built : List X509Crt → X509Crt → List X509Crt → Bool → List VerifyChainItem → Prop
  | anchor (before : List X509Crt) (child : X509Crt) (next : List X509Crt) :
      Built before child next true [⟨child, timeFlags env child⟩]
  | trusted (child : X509Crt) (next : List X509Crt) :
      x509CrtCheckEeLocallyTrusted child trustCa = true →
      Built [] child next false [⟨child, ownFlags env profile child⟩]
  | orphan (before : List X509Crt) (child : X509Crt) (next : List X509Crt) (flags : UInt32) :
      Built before child next false [⟨child, flags ||| MBEDTLS_X509_BADCERT_NOT_TRUSTED⟩]
  | issued (before : List X509Crt) (child : X509Crt) (next : List X509Crt) (found : Found)
      (parentIsTrusted : Bool) (items : List VerifyChainItem) :
      x509CrtFindParent env trustCa child next before.length
        (before.tail.countP X509Crt.selfIssued) = some (found, parentIsTrusted) →
      (parentIsTrusted = false → before.length < MBEDTLS_X509_MAX_INTERMEDIATE_CA) →
      Built (before ++ [child]) found.parent found.next parentIsTrusted items →
      Built before child next false (⟨child,
        (ownFlags env profile child |||
          flagIf (!found.signatureIsGood) MBEDTLS_X509_BADCERT_NOT_TRUSTED |||
          flagIf (!x509ProfileCheckKey profile found.parent.pk) MBEDTLS_X509_BADCERT_BAD_KEY |||
          x509CrtVerifycrl env profile child found.parent crl 0)⟩ :: items)

/-- One certificate more of the chain, apart from the first, that is self-issued. -/
theorem countP_tail_concat (before : List X509Crt) (child : X509Crt) :
    (before ++ [child]).tail.countP X509Crt.selfIssued =
      if before.length ≠ 0 ∧ child.selfIssued then before.tail.countP X509Crt.selfIssued + 1
      else before.tail.countP X509Crt.selfIssued := by
  cases before with
  | nil => simp
  | cons first before =>
      cases hself : child.selfIssued <;> simp [hself]

theorem built_of_verifyChain {before : List X509Crt} {child : X509Crt} {next : List X509Crt}
    {childIsTrusted : Bool} {items : List VerifyChainItem}
    (h : x509CrtVerifyChain env profile crl trustCa child next childIsTrusted before.length
      (before.tail.countP X509Crt.selfIssued) = .ok items) :
    Built env profile crl trustCa before child next childIsTrusted items := by
  generalize hlen : before.length = len at h
  generalize hself : before.tail.countP X509Crt.selfIssued = selfCnt at h
  fun_induction x509CrtVerifyChain env profile crl trustCa child next childIsTrusted len selfCnt
    generalizing before items
  case case1 child next _ _ flags =>
      cases h
      exact .anchor before child next
  case case2 child next trusted _ _ _ huntrusted _ hlocal =>
      cases h
      obtain rfl : trusted = false := Bool.eq_false_iff.mpr huntrusted
      obtain rfl := List.eq_nil_of_length_eq_zero (hlen.trans hlocal.1)
      exact .trusted child next hlocal.2
  case case3 child next trusted _ _ _ huntrusted flags _ _ =>
      cases h
      obtain rfl : trusted = false := Bool.eq_false_iff.mpr huntrusted
      exact .orphan before child next flags
  case case4 => cases h
  case case5 child next trusted len selfCnt _ huntrusted _ _ found parentIsTrusted hfound selfCnt'
      hfew flags ih =>
      obtain rfl : trusted = false := Bool.eq_false_iff.mpr huntrusted
      subst hlen hself
      have hcount : (before ++ [child]).tail.countP X509Crt.selfIssued = selfCnt' :=
        countP_tail_concat before child
      cases hmore : x509CrtVerifyChain env profile crl trustCa found.parent found.next
          parentIsTrusted (before.length + 1) selfCnt' with
      | error ret =>
          rw [hmore] at h
          cases h
      | ok more =>
          rw [hmore] at h
          cases h
          refine .issued before child next found parentIsTrusted more hfound ?_
            (ih List.length_append hcount hmore)
          intro huntrusted
          exact Nat.le_of_not_lt fun hmany => hfew ⟨huntrusted, hmany⟩

/-! ## A chain without flags -/

variable {env profile crl trustCa}

/-- No flag is set in the chain. -/
def Clean (items : List VerifyChainItem) : Prop := ∀ item ∈ items, item.flags = 0

theorem clean_cons {item : VerifyChainItem} {items : List VerifyChainItem} :
    Clean (item :: items) ↔ item.flags = 0 ∧ Clean items := List.forall_mem_cons

/-- The certificates of the chain. -/
def crts (items : List VerifyChainItem) : List X509Crt := items.map VerifyChainItem.crt

namespace Built

variable {before : List X509Crt} {child : X509Crt} {next : List X509Crt} {trusted : Bool}
  {items : List VerifyChainItem}

/-- The issuer that has been found, in a chain without flags. -/
theorem issuer {found : Found} {pathCnt selfCnt : Nat} {more : List VerifyChainItem}
    (hfound : x509CrtFindParent env trustCa child next pathCnt selfCnt = some (found, trusted))
    (h : Clean (⟨child, (ownFlags env profile child |||
        flagIf (!found.signatureIsGood) MBEDTLS_X509_BADCERT_NOT_TRUSTED |||
        flagIf (!x509ProfileCheckKey profile found.parent.pk) MBEDTLS_X509_BADCERT_BAD_KEY |||
        x509CrtVerifycrl env profile child found.parent crl 0)⟩ :: more)) :
    (InTime env child ∧ SignedWell profile child) ∧
      Issued env profile crl trustCa child found.parent ∧
      (found.parent.maxPathlen = 0 ∨ 1 + pathCnt - selfCnt ≤ found.parent.maxPathlen) ∧
      (trusted = true → found.parent ∈ trustCa) ∧
      (trusted = false → (found.parent :: found.next).Sublist next) ∧ Clean more := by
  obtain ⟨hflags, hmore⟩ := clean_cons.mp h
  simp (disch := decide) only [UInt32.or_eq_zero_iff, ownFlags_iff, flagIf_eq_zero,
    Bool.not_eq_false', verifycrl_iff, true_and] at hflags
  obtain ⟨⟨⟨hown, hgood⟩, hkey⟩, hrevoked⟩ := hflags
  obtain ⟨hsuitable, earlier, hlist⟩ := findParent_some hfound
  have htrusted : trusted = true → found.parent ∈ trustCa := by
    intro htrue
    rw [if_pos htrue] at hlist
    rw [hlist]
    exact List.mem_append_right _ List.mem_cons_self
  have hsent : trusted = false → (found.parent :: found.next).Sublist next := by
    intro hfalse
    rw [if_neg (Bool.eq_false_iff.mp hfalse)] at hlist
    rw [hlist]
    exact List.sublist_append_right _ _
  obtain ⟨hname, hauthority⟩ := checkParent_issued trustCa hsuitable.parent htrusted
  exact ⟨hown, ⟨hname, hauthority, hsuitable.signature ▸ hgood, hkey, hrevoked⟩,
    hsuitable.pathlen, htrusted, hsent, hmore⟩

theorem head (h : Built env profile crl trustCa before child next trusted items) :
    ∃ more, crts items = child :: more := by
  cases h <;> exact ⟨_, rfl⟩

theorem anchor_crts (h : Built env profile crl trustCa before child next true items) :
    crts items = [child] := by
  cases h
  rfl

theorem dropLast_cons (h : Built env profile crl trustCa before child next trusted items)
    (crt : X509Crt) : (crt :: crts items).dropLast = crt :: (crts items).dropLast := by
  obtain ⟨more, hhead⟩ := h.head
  rw [hhead, List.dropLast_cons_cons]

theorem inTime (h : Built env profile crl trustCa before child next trusted items)
    (hclean : Clean items) : ∀ crt ∈ crts items, InTime env crt := by
  induction h with
  | anchor before child next =>
      intro crt hcrt
      obtain rfl := List.mem_singleton.mp hcrt
      exact (timeFlags_iff env crt).mp (hclean _ List.mem_cons_self)
  | trusted child next hlocal =>
      intro crt hcrt
      obtain rfl := List.mem_singleton.mp hcrt
      exact ((ownFlags_iff env profile crt).mp (hclean _ List.mem_cons_self)).1
  | orphan before child next flags =>
      have hflag := hclean _ List.mem_cons_self
      simp [MBEDTLS_X509_BADCERT_NOT_TRUSTED] at hflag
  | issued before child next found parentIsTrusted items hfound hfew hmore ih =>
      obtain ⟨⟨htime, -⟩, -, -, -, -, hclean⟩ := issuer hfound hclean
      intro crt hcrt
      rcases List.mem_cons.mp hcrt with rfl | hcrt
      · exact htime
      · exact ih hclean crt hcrt

theorem links (h : Built env profile crl trustCa before child next trusted items)
    (hclean : Clean items) : (crts items).IsChain (Issued env profile crl trustCa) := by
  induction h with
  | anchor before child next => exact .singleton child
  | trusted child next hlocal => exact .singleton child
  | orphan before child next flags => exact .singleton child
  | issued before child next found parentIsTrusted items hfound hfew hmore ih =>
      obtain ⟨-, hissued, -, -, -, hclean⟩ := issuer hfound hclean
      have htail := ih hclean
      obtain ⟨more, hhead⟩ := hmore.head
      show (child :: crts items).IsChain (Issued env profile crl trustCa)
      rw [hhead] at htail ⊢
      exact .cons_cons hissued htail

theorem algorithms (h : Built env profile crl trustCa before child next trusted items)
    (hclean : Clean items) : ∀ crt ∈ (crts items).dropLast, SignedWell profile crt := by
  induction h with
  | anchor before child next =>
      intro crt hcrt
      cases hcrt
  | trusted child next hlocal =>
      intro crt hcrt
      cases hcrt
  | orphan before child next flags =>
      intro crt hcrt
      cases hcrt
  | issued before child next found parentIsTrusted items hfound hfew hmore ih =>
      obtain ⟨⟨-, hwell⟩, -, -, -, -, hclean⟩ := issuer hfound hclean
      intro crt hcrt
      replace hcrt : crt ∈ (child :: crts items).dropLast := hcrt
      rw [hmore.dropLast_cons child] at hcrt
      rcases List.mem_cons.mp hcrt with rfl | hcrt
      · exact hwell
      · exact ih hclean crt hcrt

/-- Certificates between the first one and an issuer count for its path
length, unless they are self-issued. -/
theorem pathlen (h : Built env profile crl trustCa before child next trusted items)
    (hclean : Clean items) (below : List X509Crt) (parent : X509Crt) (above : List X509Crt)
    (hsplit : crts items = child :: below ++ parent :: above) :
    parent.maxPathlen = 0 ∨
      (before ++ child :: below).tail.countP (fun crt => !crt.selfIssued) < parent.maxPathlen := by
  induction h generalizing below with
  | anchor before child next =>
      have hnil : [] = below ++ parent :: above := (List.cons.inj hsplit).2
      simp at hnil
  | trusted child next hlocal =>
      have hnil : [] = below ++ parent :: above := (List.cons.inj hsplit).2
      simp at hnil
  | orphan before child next flags =>
      have hnil : [] = below ++ parent :: above := (List.cons.inj hsplit).2
      simp at hnil
  | issued before child next found parentIsTrusted items hfound hfew hmore ih =>
      obtain ⟨-, -, hlen, -, -, hclean⟩ := issuer hfound hclean
      have htail : crts items = below ++ parent :: above := (List.cons.inj hsplit).2
      obtain ⟨more, hhead⟩ := hmore.head
      cases below with
      | nil =>
          rw [hhead] at htail
          obtain ⟨rfl, -⟩ := List.cons.inj htail
          have hall := List.length_eq_countP_add_countP X509Crt.selfIssued
            (l := (before ++ [child]).tail)
          have hcount := countP_tail_concat before child
          have hself : before.tail.countP X509Crt.selfIssued ≤
              (before ++ [child]).tail.countP X509Crt.selfIssued := by
            rw [hcount]
            split <;> omega
          simp only [List.length_tail, List.length_append, List.length_singleton] at hall
          simp only [Bool.not_eq_true, Bool.decide_eq_false] at hall
          omega
      | cons next below =>
          rw [hhead, List.cons_append] at htail
          obtain ⟨rfl, -⟩ := List.cons.inj htail
          have hlater := ih hclean below (hhead.trans htail)
          rwa [List.append_assoc] at hlater

theorem sent (h : Built env profile crl trustCa before child next trusted items)
    (hclean : Clean items) (htrusted : trusted = false) :
    (crts items).dropLast.Sublist (child :: next) := by
  induction h with
  | anchor before child next => cases htrusted
  | trusted child next hlocal => exact List.nil_sublist _
  | orphan before child next flags => exact List.nil_sublist _
  | issued before child next found parentIsTrusted items hfound hfew hmore ih =>
      obtain ⟨-, -, -, -, hsent, hclean⟩ := issuer hfound hclean
      show (child :: crts items).dropLast.Sublist (child :: next)
      rw [hmore.dropLast_cons child]
      apply List.Sublist.cons_cons
      cases parentIsTrusted with
      | false => exact (ih hclean rfl).trans (hsent rfl)
      | true =>
          rw [hmore.anchor_crts]
          exact List.nil_sublist _

/-- The last certificate is trusted, or the first one is. -/
theorem anchored (h : Built env profile crl trustCa before child next trusted items)
    (hclean : Clean items) (hchild : trusted = true → child ∈ trustCa) :
    (∃ root ∈ trustCa, (crts items).getLast? = some root ∧ (trusted = false → 2 ≤ items.length)) ∨
      (crts items = [child] ∧ x509CrtCheckEeLocallyTrusted child trustCa = true ∧
        SignedWell profile child ∧ before = []) := by
  induction h with
  | anchor before child next =>
      exact Or.inl ⟨child, hchild rfl, rfl, fun h => (Bool.noConfusion h : _)⟩
  | trusted child next hlocal =>
      exact Or.inr ⟨rfl, hlocal,
        ((ownFlags_iff env profile child).mp (hclean _ List.mem_cons_self)).2, rfl⟩
  | orphan before child next flags =>
      have hflag := hclean _ List.mem_cons_self
      simp [MBEDTLS_X509_BADCERT_NOT_TRUSTED] at hflag
  | issued before child next found parentIsTrusted items hfound hfew hmore ih =>
      obtain ⟨-, -, -, hroot, -, hclean⟩ := issuer hfound hclean
      obtain ⟨more, hhead⟩ := hmore.head
      rcases ih hclean hroot with ⟨root, hmem, hlast, -⟩ | ⟨-, -, -, hnil⟩
      · refine Or.inl ⟨root, hmem, ?_, ?_⟩
        · show (child :: crts items).getLast? = some root
          rw [hhead] at hlast ⊢
          rw [List.getLast?_cons_cons]
          exact hlast
        · intro _
          have hlen := congrArg List.length hhead
          simp only [crts, List.length_map, List.length_cons] at hlen ⊢
          omega
      · simp at hnil

theorem short (h : Built env profile crl trustCa before child next trusted items)
    (hbefore : before.length ≤ MBEDTLS_X509_MAX_INTERMEDIATE_CA + if trusted then 1 else 0) :
    before.length + items.length ≤ MBEDTLS_X509_MAX_INTERMEDIATE_CA + 2 := by
  induction h with
  | anchor before child next =>
      simp only [if_true, List.length_singleton] at hbefore ⊢
      omega
  | trusted child next hlocal => exact Nat.le_add_left 1 9
  | orphan before child next flags =>
      simp only [Bool.false_eq_true, if_false, List.length_singleton] at hbefore ⊢
      omega
  | issued before child next found parentIsTrusted items hfound hfew hmore ih =>
      have hconcat : (before ++ [child]).length = before.length + 1 := List.length_append
      rw [if_neg Bool.false_ne_true] at hbefore
      have hmany : before.length + 1 ≤
          MBEDTLS_X509_MAX_INTERMEDIATE_CA + if parentIsTrusted then 1 else 0 := by
        cases parentIsTrusted with
        | false => exact hfew rfl
        | true => exact Nat.succ_le_succ hbefore
      have htail := ih (hconcat ▸ hmany)
      rw [hconcat] at htail
      rw [List.length_cons]
      omega

/-- A chain without flags is a certification path. -/
theorem authentic (h : Built env profile crl trustCa [] child next false items)
    (hclean : Clean items) : Authentic env profile crl trustCa child next (crts items) := by
  have hshort := h.short (Nat.zero_le _)
  have hlen : (crts items).length = items.length := List.length_map _
  refine {
    first := ?_, inTime := h.inTime hclean, links := h.links hclean
    algorithms := h.algorithms hclean, pathlen := h.pathlen hclean
    sent := h.sent hclean rfl, anchored := ?_, short := ?_ }
  · obtain ⟨more, hhead⟩ := h.head
    rw [hhead, List.head?_cons]
  · rcases h.anchored hclean (fun h => absurd h Bool.false_ne_true) with
      ⟨root, hroot, hlast, hlong⟩ | ⟨hsingle, hlocal, hwell, -⟩
    · exact Or.inl ⟨root, hroot, hlast, hlen ▸ hlong rfl⟩
    · unfold x509CrtCheckEeLocallyTrusted at hlocal
      rw [Bool.and_eq_true, x509NameCmp_iff, List.any_eq_true] at hlocal
      obtain ⟨hself, root, hroot, hraw⟩ := hlocal
      exact Or.inr ⟨hsingle, hself, hwell, root, hroot, decide_eq_true_eq.mp hraw⟩
  · rw [hlen]
    simpa using hshort

end Built

end NucleoMqtt.Tls
