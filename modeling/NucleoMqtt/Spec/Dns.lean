import NucleoMqtt.Spec.Packet

/-!
# Spec — the question of a DNS query

A name goes on the wire as its labels, each behind one length byte of at
most 63, closed by a length of zero; type and class follow. `decode` reads
one question that fills the bytes given.
-/

namespace NucleoMqtt.Spec

open NucleoMqtt.Lib

structure Question where
  labels : List (List UInt8)
  qtype : Nat
  qclass : Nat
deriving DecidableEq

namespace Question

/-- One label behind its length. -/
def encodeLabel (l : List UInt8) : List UInt8 := UInt8.ofNat l.length :: l

/-- A name: its labels and the root. -/
def encodeName (ls : List (List UInt8)) : List UInt8 := ls.flatMap encodeLabel ++ [0]

/-- The labels up to the root, and the bytes behind it. Lengths from 64 on
are not those of a label. -/
def readName : Nat → List UInt8 → Option (List (List UInt8) × List UInt8)
  | 0, _ => none
  | _ + 1, [] => none
  | fuel + 1, n :: bs =>
      if n = 0 then some ([], bs)
      else if n.toNat ≤ 63 then do
        let (l, bs) ← takeBytes n.toNat bs
        let (ls, bs) ← readName fuel bs
        return (l :: ls, bs)
      else none

/-- The reference decoder. -/
def decode (bs : List UInt8) : Option Question := do
  let (labels, bs) ← readName bs.length bs
  let (qtype, bs) ← readU16 bs
  let (qclass, bs) ← readU16 bs
  require (bs = [])
  return { labels := labels, qtype := qtype, qclass := qclass }

@[simp] theorem length_encodeLabel (l : List UInt8) :
    (encodeLabel l).length = l.length + 1 := rfl

theorem readName_encodeName {ls : List (List UInt8)}
    (h : ∀ l ∈ ls, 1 ≤ l.length ∧ l.length ≤ 63) {fuel : Nat} (hfuel : ls.length < fuel)
    (rest : List UInt8) : readName fuel (encodeName ls ++ rest) = some (ls, rest) := by
  induction ls generalizing fuel with
  | nil =>
      cases fuel with
      | zero => exact absurd hfuel (Nat.not_lt_zero _)
      | succ fuel => rfl
  | cons l ls ih =>
      cases fuel with
      | zero => exact absurd hfuel (Nat.not_lt_zero _)
      | succ fuel =>
          obtain ⟨hpos, hle⟩ := h l List.mem_cons_self
          have hbyte : (UInt8.ofNat l.length).toNat = l.length := by
            rw [toNat_byte, Nat.mod_eq_of_lt (by omega)]
          have hne : UInt8.ofNat l.length ≠ 0 := by
            intro hzero
            rw [hzero] at hbyte
            exact absurd hbyte (by rw [UInt8.toNat_zero]; omega)
          have hsplit : encodeName (l :: ls) ++ rest
              = UInt8.ofNat l.length :: (l ++ (encodeName ls ++ rest)) := by
            simp [encodeName, encodeLabel]
          rw [hsplit, readName, if_neg hne, hbyte, if_pos hle, takeBytes_append,
            Option.bind_eq_bind, Option.bind_some]
          simp only [ih (fun m hm => h m (List.mem_cons_of_mem l hm))
            (Nat.lt_of_succ_lt_succ hfuel), Option.bind_eq_bind, Option.bind_some, pure]

theorem length_le_encodeName (ls : List (List UInt8)) : ls.length < (encodeName ls).length := by
  have hlabels := length_le_flatMap (fun l => List.cons_ne_nil (UInt8.ofNat l.length) l) ls
  rw [encodeName, List.length_append]
  exact Nat.lt_succ_of_le hlabels

theorem decode_encode {q : Question} (h : ∀ l ∈ q.labels, 1 ≤ l.length ∧ l.length ≤ 63)
    (ht : q.qtype < 2 ^ 16) (hc : q.qclass < 2 ^ 16) :
    decode (encodeName q.labels ++ (be16 q.qtype ++ be16 q.qclass)) = some q := by
  have hfuel : q.labels.length
      < (encodeName q.labels ++ (be16 q.qtype ++ be16 q.qclass)).length := by
    have := length_le_encodeName q.labels
    rw [List.length_append]
    omega
  have hclass := readU16_be16 hc []
  rw [List.append_nil] at hclass
  simp only [decode, readName_encodeName h hfuel, Option.bind_eq_bind, Option.bind_some,
    readU16_be16 ht, hclass, require_true, pure]

end Question

end NucleoMqtt.Spec
