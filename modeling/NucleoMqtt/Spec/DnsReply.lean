import NucleoMqtt.Spec.Dns

/-!
# Spec — DNS replies

A message up to the end of its answer section. A name in a reply may end in
a pointer to an earlier one, which is kept as it stands: no owner of a
record matters here. Authority and additional records are left in `rest`.
-/

namespace NucleoMqtt.Spec

open NucleoMqtt.Lib

/-- A name in a message: its labels, and the root or a pointer behind them. -/
structure WireName where
  labels : List (List UInt8)
  pointer : Option Nat
deriving DecidableEq

namespace WireName

/-- The end of a name. -/
def encodeEnd : Option Nat → List UInt8
  | none => [0]
  | some p => be16 (49152 + p)

def encode (w : WireName) : List UInt8 :=
  w.labels.flatMap Question.encodeLabel ++ encodeEnd w.pointer

/-- A name and the bytes behind it. -/
def read : Nat → List UInt8 → Option (WireName × List UInt8)
  | 0, _ => none
  | _ + 1, [] => none
  | fuel + 1, n :: bs =>
      if n = 0 then some (⟨[], none⟩, bs)
      else if n.toNat ≤ 63 then do
        let (l, bs) ← takeBytes n.toNat bs
        let (w, bs) ← read fuel bs
        return ({ w with labels := l :: w.labels }, bs)
      else if 192 ≤ n.toNat then do
        let (lo, bs) ← readByte bs
        return (⟨[], some (256 * (n.toNat - 192) + lo.toNat)⟩, bs)
      else none

structure WellFormed (w : WireName) : Prop where
  labels : ∀ l ∈ w.labels, 1 ≤ l.length ∧ l.length ≤ 63
  pointer : ∀ p ∈ w.pointer, p < 2 ^ 14

end WireName

/-- An entry of the question section. -/
structure Asked where
  name : WireName
  qtype : Nat
  qclass : Nat
deriving DecidableEq

/-- A resource record. -/
structure Record where
  name : WireName
  rtype : Nat
  rclass : Nat
  ttl : Nat
  rdata : List UInt8
deriving DecidableEq

structure DnsReply where
  id : Nat
  flags : Nat
  questions : List Asked
  answers : List Record
  nscount : Nat
  arcount : Nat
  rest : List UInt8
deriving DecidableEq

namespace Asked

def encode (q : Asked) : List UInt8 := q.name.encode ++ (be16 q.qtype ++ be16 q.qclass)

def read (bs : List UInt8) : Option (Asked × List UInt8) := do
  let (name, bs) ← WireName.read bs.length bs
  let (qtype, bs) ← readU16 bs
  let (qclass, bs) ← readU16 bs
  return ({ name := name, qtype := qtype, qclass := qclass }, bs)

structure WellFormed (q : Asked) : Prop where
  name : q.name.WellFormed
  qtype : q.qtype < 2 ^ 16
  qclass : q.qclass < 2 ^ 16

end Asked

namespace Record

def encode (r : Record) : List UInt8 :=
  r.name.encode ++ (be16 r.rtype ++ (be16 r.rclass ++ (be32 r.ttl ++ str r.rdata)))

def read (bs : List UInt8) : Option (Record × List UInt8) := do
  let (name, bs) ← WireName.read bs.length bs
  let (rtype, bs) ← readU16 bs
  let (rclass, bs) ← readU16 bs
  let (ttl, bs) ← readU32 bs
  let (rdata, bs) ← readStr bs
  return ({ name := name, rtype := rtype, rclass := rclass, ttl := ttl, rdata := rdata }, bs)

structure WellFormed (r : Record) : Prop where
  name : r.name.WellFormed
  rtype : r.rtype < 2 ^ 16
  rclass : r.rclass < 2 ^ 16
  ttl : r.ttl < 2 ^ 32
  rdata : r.rdata.length < 2 ^ 16

/-- An A record of the Internet class. -/
def IsAddress (r : Record) : Prop := r.rtype = 1 ∧ r.rclass = 1 ∧ r.rdata.length = 4

instance (r : Record) : Decidable r.IsAddress := inferInstanceAs (Decidable (_ ∧ _ ∧ _))

end Record

namespace DnsReply

def encode (r : DnsReply) : List UInt8 :=
  be16 r.id ++ (be16 r.flags ++ (be16 r.questions.length ++ (be16 r.answers.length
    ++ (be16 r.nscount ++ (be16 r.arcount
    ++ (r.questions.flatMap Asked.encode ++ (r.answers.flatMap Record.encode ++ r.rest)))))))

/-- The reference decoder. -/
def decode (bs : List UInt8) : Option DnsReply := do
  let (id, bs) ← readU16 bs
  let (flags, bs) ← readU16 bs
  let (qdcount, bs) ← readU16 bs
  let (ancount, bs) ← readU16 bs
  let (nscount, bs) ← readU16 bs
  let (arcount, bs) ← readU16 bs
  let (questions, bs) ← readCounted Asked.read qdcount bs
  let (answers, bs) ← readCounted Record.read ancount bs
  return {
    id := id
    flags := flags
    questions := questions
    answers := answers
    nscount := nscount
    arcount := arcount
    rest := bs }

structure WellFormed (r : DnsReply) : Prop where
  id : r.id < 2 ^ 16
  flags : r.flags < 2 ^ 16
  questions : ∀ q ∈ r.questions, q.WellFormed
  answers : ∀ a ∈ r.answers, a.WellFormed
  qdcount : r.questions.length < 2 ^ 16
  ancount : r.answers.length < 2 ^ 16
  nscount : r.nscount < 2 ^ 16
  arcount : r.arcount < 2 ^ 16

/-- A response (QR) without error (RCODE) to the query with this
transaction ID. -/
def Answers (r : DnsReply) (id : Nat) : Prop :=
  r.id = id ∧ r.flags / 2 ^ 15 = 1 ∧ r.flags % 16 = 0

instance (r : DnsReply) (id : Nat) : Decidable (r.Answers id) :=
  inferInstanceAs (Decidable (_ ∧ _ ∧ _))

/-- The addresses in the answer section. -/
def addresses (r : DnsReply) : List (List UInt8) :=
  (r.answers.filter fun a => a.IsAddress).map Record.rdata

/-- The addresses a message has for the query with this transaction ID. -/
def addressesFor (id : Nat) (msg : List UInt8) : List (List UInt8) :=
  match decode msg with
  | some r => if r.Answers id then r.addresses else []
  | none => []

end DnsReply

/-! ## Reading back -/

theorem WireName.read_encode {w : WireName} (h : w.WellFormed) {fuel : Nat}
    (hfuel : w.labels.length < fuel) (rest : List UInt8) :
    read fuel (w.encode ++ rest) = some (w, rest) := by
  obtain ⟨labels, pointer⟩ := w
  obtain ⟨hlabels, hpointer⟩ := h
  dsimp only at hlabels hpointer hfuel
  induction labels generalizing fuel with
  | nil =>
      cases fuel with
      | zero => exact absurd hfuel (Nat.not_lt_zero _)
      | succ fuel =>
          cases pointer with
          | none => rfl
          | some p =>
              have hp := hpointer p rfl
              have hhi : (UInt8.ofNat ((49152 + p) / 256)).toNat = (49152 + p) / 256 := by
                rw [toNat_byte, Nat.mod_eq_of_lt (by omega)]
              have hne : UInt8.ofNat ((49152 + p) / 256) ≠ 0 := by
                intro hzero
                rw [hzero, UInt8.toNat_zero] at hhi
                omega
              have hvalue : 256 * ((49152 + p) / 256 - 192)
                  + (UInt8.ofNat ((49152 + p) % 256)).toNat = p := by
                rw [toNat_byte]
                omega
              show read (fuel + 1) (UInt8.ofNat ((49152 + p) / 256)
                :: (UInt8.ofNat ((49152 + p) % 256) :: rest)) = _
              rw [read, if_neg hne, hhi, if_neg (by omega), if_pos (by omega)]
              simp only [readByte, Option.bind_eq_bind, Option.bind_some, hvalue, pure]
  | cons l labels ih =>
      cases fuel with
      | zero => exact absurd hfuel (Nat.not_lt_zero _)
      | succ fuel =>
          obtain ⟨hpos, hle⟩ := hlabels l List.mem_cons_self
          have hbyte : (UInt8.ofNat l.length).toNat = l.length := by
            rw [toNat_byte, Nat.mod_eq_of_lt (by omega)]
          have hne : UInt8.ofNat l.length ≠ 0 := by
            intro hzero
            rw [hzero, UInt8.toNat_zero] at hbyte
            omega
          have hrest := ih (Nat.lt_of_succ_lt_succ hfuel)
            (fun m hm => hlabels m (List.mem_cons_of_mem l hm))
          have hsplit : encode ⟨l :: labels, pointer⟩ ++ rest
              = UInt8.ofNat l.length :: (l ++ (encode ⟨labels, pointer⟩ ++ rest)) := by
            simp [encode, Question.encodeLabel]
          rw [hsplit, read, if_neg hne, hbyte, if_pos hle, takeBytes_append,
            Option.bind_eq_bind, Option.bind_some]
          simp only [hrest, Option.bind_eq_bind, Option.bind_some, pure]

theorem WireName.length_lt_encode (w : WireName) : w.labels.length < w.encode.length := by
  have hend : 0 < (encodeEnd w.pointer).length := by
    cases w.pointer with
    | none => exact Nat.zero_lt_one
    | some p => exact Nat.zero_lt_two
  have hlabels : w.labels.length ≤ (w.labels.flatMap Question.encodeLabel).length :=
    length_le_flatMap (fun l => List.cons_ne_nil _ l) w.labels
  rw [encode, List.length_append]
  omega

theorem Asked.read_encode {q : Asked} (h : q.WellFormed) (rest : List UInt8) :
    read (q.encode ++ rest) = some (q, rest) := by
  have hfuel : q.name.labels.length < (q.encode ++ rest).length := by
    have := q.name.length_lt_encode
    rw [encode, List.length_append, List.length_append]
    omega
  have hsplit : q.encode ++ rest = q.name.encode ++ (be16 q.qtype ++ (be16 q.qclass ++ rest)) := by
    rw [encode, List.append_assoc, List.append_assoc]
  rw [hsplit] at hfuel ⊢
  rw [read]
  simp only [WireName.read_encode h.name hfuel, readU16_be16 h.qtype, readU16_be16 h.qclass,
    Option.bind_eq_bind, Option.bind_some, pure]

theorem Record.read_encode {r : Record} (h : r.WellFormed) (rest : List UInt8) :
    read (r.encode ++ rest) = some (r, rest) := by
  have hfuel : r.name.labels.length < (r.encode ++ rest).length := by
    have := r.name.length_lt_encode
    rw [encode, List.length_append, List.length_append]
    omega
  have hsplit : r.encode ++ rest = r.name.encode ++ (be16 r.rtype ++ (be16 r.rclass
      ++ (be32 r.ttl ++ (str r.rdata ++ rest)))) := by
    simp only [encode, List.append_assoc]
  rw [hsplit] at hfuel ⊢
  rw [read]
  simp only [WireName.read_encode h.name hfuel, readU16_be16 h.rtype, readU16_be16 h.rclass,
    readU32_be32 h.ttl, readStr_str h.rdata, Option.bind_eq_bind, Option.bind_some, pure]

/-- **A reply is read back**, whatever its records. -/
theorem DnsReply.decode_encode {r : DnsReply} (h : r.WellFormed) : decode r.encode = some r := by
  have hquestions := readCounted_flatMap
    (fun q hq rest => Asked.read_encode (h.questions q hq) rest)
    (r.answers.flatMap Record.encode ++ r.rest)
  have hanswers := readCounted_flatMap (fun a ha rest => Record.read_encode (h.answers a ha) rest)
    r.rest
  simp only [decode, encode, readU16_be16 h.id, readU16_be16 h.flags, readU16_be16 h.qdcount,
    readU16_be16 h.ancount, readU16_be16 h.nscount, readU16_be16 h.arcount, hquestions, hanswers,
    Option.bind_eq_bind, Option.bind_some, pure]

end NucleoMqtt.Spec
