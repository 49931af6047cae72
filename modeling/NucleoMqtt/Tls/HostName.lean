import NucleoMqtt.Tls.X509

/-!
# Tls — host names

`x509_crt_verify_name` accepts a certificate for a host when one of its names
covers the host: the same name, without regard to case, or `*.` in front of
what follows the first label. A name with a zero in it covers no host.
-/

namespace NucleoMqtt.Tls

open NucleoMqtt.Lib

/-- ASCII lower case. -/
def lower (b : UInt8) : UInt8 := if 65 ≤ b ∧ b ≤ 90 then b + 32 else b

/-- The same name, without regard to case. -/
def SameName (a b : List UInt8) : Prop := a.map lower = b.map lower

/-- The name of a certificate covers a host. -/
def Covers (name host : List UInt8) : Prop :=
  SameName name host ∨
    ∃ label domain, label ≠ [] ∧ dot ∉ label ∧ domain ≠ [] ∧
      host = label ++ dot :: domain ∧ SameName name (star :: dot :: domain)

/-- The names of a certificate: those of the extension, if there is one. -/
def X509Crt.names (crt : X509Crt) : List (List UInt8) :=
  match crt.subjectAltNames with
  | some names => names
  | none =>
      (crt.subject.filter fun name => name.oid.p = MBEDTLS_OID_AT_CN).map fun name => name.val.p

/-! ## Case -/

theorem byte_induction {p : UInt8 → Prop} (h : ∀ i < 256, p (UInt8.ofNat i)) (b : UInt8) : p b :=
  byte_lt_induction h b.toNat_lt

/-- Letters that differ in bit 5 are the same letter. -/
theorem lower_xor (b : UInt8) :
    ((97 ≤ b ∧ b ≤ 122) ∨ (65 ≤ b ∧ b ≤ 90)) → lower (b ^^^ 32) = lower b := by
  apply byte_induction (p := fun b =>
    ((97 ≤ b ∧ b ≤ 122) ∨ (65 ≤ b ∧ b ≤ 90)) → lower (b ^^^ 32) = lower b)
  decide +kernel

/-- Upper case becomes lower case by setting bit 5. -/
theorem upper_add (b : UInt8) :
    (65 ≤ b ∧ b ≤ 90) → b + 32 = b ^^^ 32 ∧ 97 ≤ b + 32 ∧ b + 32 ≤ 122 := by
  apply byte_induction (p := fun b =>
    (65 ≤ b ∧ b ≤ 90) → b + 32 = b ^^^ 32 ∧ 97 ≤ b + 32 ∧ b + 32 ≤ 122)
  decide +kernel

theorem eq_xor_of_xor {a b c : UInt8} (h : a ^^^ b = c) : b = a ^^^ c := by
  rw [← h, ← UInt8.xor_assoc, UInt8.xor_self, UInt8.zero_xor]

/-- What `x509_memcasecmp` asks of two bytes. -/
theorem lower_eq_iff (a b : UInt8) : lower a = lower b ↔
    a ^^^ b = 0 ∨ (a ^^^ b = 32 ∧ ((97 ≤ a ∧ a ≤ 122) ∨ (65 ≤ a ∧ a ≤ 90))) := by
  constructor
  · intro h
    by_cases ha : 65 ≤ a ∧ a ≤ 90
    · by_cases hb : 65 ≤ b ∧ b ≤ 90
      · rw [lower, lower, if_pos ha, if_pos hb] at h
        exact Or.inl (UInt8.xor_eq_zero_iff.mpr ((UInt8.add_left_inj 32).mp h))
      · rw [lower, lower, if_pos ha, if_neg hb] at h
        obtain ⟨hxor, -, -⟩ := upper_add a ha
        refine Or.inr ⟨?_, Or.inr ha⟩
        rw [← h, hxor, ← UInt8.xor_assoc, UInt8.xor_self, UInt8.zero_xor]
    · by_cases hb : 65 ≤ b ∧ b ≤ 90
      · rw [lower, lower, if_neg ha, if_pos hb] at h
        obtain ⟨hxor, hlow, hhigh⟩ := upper_add b hb
        rw [← h] at hxor hlow hhigh
        refine Or.inr ⟨?_, Or.inl ⟨hlow, hhigh⟩⟩
        rw [hxor, UInt8.xor_comm b 32, UInt8.xor_assoc, UInt8.xor_self, UInt8.xor_zero]
      · rw [lower, lower, if_neg ha, if_neg hb] at h
        exact Or.inl (UInt8.xor_eq_zero_iff.mpr h)
  · intro h
    rcases h with h | ⟨h, hletter⟩
    · rw [UInt8.xor_eq_zero_iff.mp h]
    · rw [eq_xor_of_xor h]
      exact (lower_xor a hletter).symm

theorem x509Memcasecmp_iff (a b : List UInt8) : x509Memcasecmp a b = true ↔ SameName a b := by
  induction a generalizing b with
  | nil => cases b <;> simp [x509Memcasecmp, SameName]
  | cons x a ih =>
      cases b with
      | nil => simp [x509Memcasecmp, SameName]
      | cons y b =>
          have hhead := lower_eq_iff x y
          have htail := ih b
          unfold SameName at htail ⊢
          unfold x509Memcasecmp
          rw [List.map_cons, List.map_cons, List.cons_eq_cons, hhead, ← htail]
          by_cases hsame : x ^^^ y = 0
          · simp [hsame]
          · by_cases hletter : x ^^^ y = 32 ∧ ((97 ≤ x ∧ x ≤ 122) ∨ (65 ≤ x ∧ x ≤ 90))
            · rw [if_neg hsame, if_pos hletter, or_iff_right hsame, and_iff_right hletter]
            · simp only [hsame, hletter, if_false, false_or, false_and, Bool.false_eq_true]

theorem SameName.length {a b : List UInt8} (h : SameName a b) : a.length = b.length := by
  simpa using congrArg List.length h

theorem SameName.symm {a b : List UInt8} (h : SameName a b) : SameName b a := Eq.symm h

theorem sameName_cons {c : UInt8} {a b : List UInt8} :
    SameName (c :: a) (c :: b) ↔ SameName a b := by
  unfold SameName
  simp

/-! ## Wildcards -/

/-- `*` and `.` have no case. -/
theorem lower_mark (b : UInt8) : (lower b = star ↔ b = star) ∧ (lower b = dot ↔ b = dot) := by
  apply byte_induction (p := fun b => (lower b = star ↔ b = star) ∧ (lower b = dot ↔ b = dot))
  decide +kernel

/-- A name that is the same as a wildcard is one. -/
theorem sameName_wildcard {name domain : List UInt8} : SameName name (star :: dot :: domain) ↔
    ∃ rest, name = star :: dot :: rest ∧ SameName rest domain := by
  constructor
  · intro h
    have hlen := h.length
    match name with
    | [] => simp at hlen
    | [a] => simp at hlen
    | a :: b :: rest =>
        obtain ⟨ha, htail⟩ := List.cons.inj h
        obtain ⟨hb, hrest⟩ := List.cons.inj htail
        rw [show lower star = star by decide] at ha
        rw [show lower dot = dot by decide] at hb
        rw [(lower_mark a).1.mp ha, (lower_mark b).2.mp hb]
        exact ⟨rest, rfl, hrest⟩
  · rintro ⟨rest, rfl, h⟩
    exact sameName_cons.mpr (sameName_cons.mpr h)

theorem firstDot_of_not_mem {cn : List UInt8} (h : dot ∉ cn) : firstDot cn = 0 := by
  have hnone : cn.findIdx? (· = dot) = none := by
    apply List.findIdx?_eq_none_iff.mpr
    intro x hx
    simpa using fun heq : x = dot => h (heq ▸ hx)
  rw [firstDot, hnone]
  rfl

theorem firstDot_append {label : List UInt8} (h : dot ∉ label) (domain : List UInt8) :
    firstDot (label ++ dot :: domain) = label.length := by
  have hnone : label.findIdx? (· = dot) = none := by
    apply List.findIdx?_eq_none_iff.mpr
    intro x hx
    simpa using fun heq : x = dot => h (heq ▸ hx)
  rw [firstDot, List.findIdx?_append, hnone]
  simp [List.findIdx?_cons]

/-- A wildcard stands for the first label. -/
theorem x509CheckWildcard_append {label : List UInt8} (hlabel : label ≠ []) (hdot : dot ∉ label)
    (domain name : List UInt8) : x509CheckWildcard (label ++ dot :: domain) name = true ↔
      domain ≠ [] ∧ SameName name (star :: dot :: domain) := by
  have hpos : label.length ≠ 0 := fun h => hlabel (List.eq_nil_of_length_eq_zero h)
  unfold x509CheckWildcard
  rw [firstDot_append hdot domain]
  by_cases hshape : name.length < 3 ∨ name[0]? ≠ some star ∨ name[1]? ≠ some dot
  · rw [if_pos hshape]
    refine iff_of_false Bool.false_ne_true ?_
    rintro ⟨hdomain, hsame⟩
    obtain ⟨rest, rfl, hrest⟩ := sameName_wildcard.mp hsame
    rcases hshape with hshort | hstar | hdot
    · have hlen := hrest.length
      have hempty := List.length_pos_iff.mpr hdomain
      simp at hshort
      omega
    · exact hstar rfl
    · exact hdot rfl
  · rw [if_neg hshape]
    dsimp only
    rw [if_neg hpos, List.drop_left]
    simp only [not_or, ne_eq, Decidable.not_not, Nat.not_lt] at hshape
    obtain ⟨hlong, hstar, hsecond⟩ := hshape
    match name with
    | [] => cases hstar
    | [a] => cases hsecond
    | a :: b :: rest =>
        cases hstar
        cases hsecond
        have hdrop : (star :: dot :: rest).drop 1 = dot :: rest := rfl
        simp only [List.length_cons, List.length_append] at hlong ⊢
        rw [hdrop, decide_eq_true_eq, x509Memcasecmp_iff, sameName_cons, sameName_cons,
          sameName_cons]
        constructor
        · rintro ⟨-, hsame⟩
          refine ⟨?_, hsame⟩
          rintro rfl
          have hempty := hsame.length
          rw [List.length_nil] at hempty
          omega
        · rintro ⟨-, hsame⟩
          have hlen := hsame.length
          exact ⟨by omega, hsame⟩

theorem x509CheckWildcard_iff (cn name : List UInt8) : x509CheckWildcard cn name = true ↔
    ∃ label domain, label ≠ [] ∧ dot ∉ label ∧ domain ≠ [] ∧ cn = label ++ dot :: domain ∧
      SameName name (star :: dot :: domain) := by
  have hnone (h : firstDot cn = 0) : x509CheckWildcard cn name = false := by
    unfold x509CheckWildcard
    rw [h]
    split <;> rfl
  constructor
  · intro h
    by_cases hmem : dot ∈ cn
    · obtain ⟨label, domain, rfl, hdot⟩ := List.eq_append_cons_of_mem hmem
      by_cases hlabel : label = []
      · subst hlabel
        rw [hnone (firstDot_append hdot domain)] at h
        cases h
      · obtain ⟨hdomain, hsame⟩ := (x509CheckWildcard_append hlabel hdot domain name).mp h
        exact ⟨label, domain, hlabel, hdot, hdomain, rfl, hsame⟩
    · rw [hnone (firstDot_of_not_mem hmem)] at h
      cases h
  · rintro ⟨label, domain, hlabel, hdot, hdomain, rfl, hsame⟩
    exact (x509CheckWildcard_append hlabel hdot domain name).mpr ⟨hdomain, hsame⟩

theorem x509CrtCheckCn_iff (name cn : List UInt8) :
    x509CrtCheckCn name cn = true ↔ Covers name cn := by
  unfold x509CrtCheckCn Covers
  rw [Bool.or_eq_true, decide_eq_true_eq, x509Memcasecmp_iff, x509CheckWildcard_iff]
  constructor
  · rintro (⟨-, hsame⟩ | hwildcard)
    · exact Or.inl hsame.symm
    · exact Or.inr hwildcard
  · rintro (hsame | hwildcard)
    · exact Or.inl ⟨hsame.length, hsame.symm⟩
    · exact Or.inr hwildcard

/-! ## Hosts -/

theorem flagIf_eq_zero {bad : Bool} {flag : UInt32} (hflag : flag ≠ 0) :
    flagIf bad flag = 0 ↔ bad = false := by
  cases bad <;> simp [flagIf, hflag]

theorem x509CrtVerifyName_eq (crt : X509Crt) (cn : List UInt8) : x509CrtVerifyName crt cn =
    flagIf (!crt.names.any fun name => x509CrtCheckCn name cn)
      MBEDTLS_X509_BADCERT_CN_MISMATCH := by
  unfold x509CrtVerifyName X509Crt.names
  cases crt.subjectAltNames with
  | some names => rfl
  | none =>
      simp only [List.any_map, List.any_filter]
      congr 3
      funext name
      simp

theorem x509CrtVerifyName_iff (crt : X509Crt) (cn : List UInt8) :
    x509CrtVerifyName crt cn = 0 ↔ ∃ name ∈ crt.names, Covers name cn := by
  rw [x509CrtVerifyName_eq, flagIf_eq_zero (by decide), Bool.not_eq_false', List.any_eq_true]
  simp only [x509CrtCheckCn_iff]

theorem zero_mem_of_sameName {a b : List UInt8} (h : SameName a b) (hzero : 0 ∈ a) : 0 ∈ b := by
  have hmem : lower 0 ∈ b.map lower := h ▸ List.mem_map_of_mem hzero
  obtain ⟨x, hx, hlower⟩ := List.mem_map.mp hmem
  have hxzero : x = 0 := by
    revert hlower
    apply byte_induction (p := fun x => lower x = lower 0 → x = 0)
    decide +kernel
  exact hxzero ▸ hx

/-- No name with a zero in it covers a host. -/
theorem Covers.no_zero {name host : List UInt8} (h : Covers name host) (hhost : 0 ∉ host) :
    0 ∉ name := by
  intro hzero
  rcases h with hsame | ⟨label, domain, -, -, -, rfl, hsame⟩
  · exact hhost (zero_mem_of_sameName hsame hzero)
  · have hmem := zero_mem_of_sameName hsame hzero
    rw [List.mem_cons, or_iff_right (by decide)] at hmem
    exact hhost (List.mem_append_right _ hmem)

end NucleoMqtt.Tls
