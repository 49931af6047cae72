import NucleoMqtt.Lib.Block
import NucleoMqtt.Lib.Word

/-!
# Tls — the entropy source

`tls_client.c` feeds mbedTLS from the hardware random number generator.
`mbedtls_hardware_poll` draws one 32-bit word for every four bytes asked
for and stores it with `memset`, which repeats one byte: the low byte of
its argument. So the output holds each word's low byte four times, and two
sequences of words give different outputs exactly when they differ there.
-/

namespace NucleoMqtt.Tls

open NucleoMqtt.Lib

variable {n : Nat}

/-- `RNG_Get`: the next of the words the generator will return. -/
def rngGet : List UInt32 → Option (UInt32 × List UInt32)
  | [] => none
  | random :: words => some (random, words)

/-- The state of the gathering loop. -/
structure Gathering (n : Nat) where
  words : List UInt32
  output : Block UInt8 n
  olen : Nat

/-- `memset(&b[base], c, k)` stores `(unsigned char)c`. -/
def memset (b : Block UInt8 n) (base : Nat) (c : Int) (k : Nat) : Option (Block UInt8 n) :=
  b.fill base (UInt8.ofInt c) k

/-- The body of the loop; `(int)random` keeps the 32 bits. -/
def gatherWord (i : Nat) (g : Gathering n) : Option (Gathering n) := do
  let (random, words) ← rngGet g.words
  let olen := wadd g.olen 4
  let output ← memset g.output (4 * i) ((random.toNat : Int).bmod (2 ^ 32)) 4
  return { words := words, output := output, olen := olen }

/-- The words still to come, the output buffer and `*olen` afterwards. -/
def mbedtlsHardwarePoll (words : List UInt32) (output : Block UInt8 n) (len olen : Nat) :
    Option (Gathering n) :=
  forLoop gatherWord 0 (len / 4) { words := words, output := output, olen := olen }

/-- What one word contributes: its low byte, four times. -/
def spread (random : UInt32) : List UInt8 := List.replicate 4 random.toUInt8

/-- The byte `memset` takes from a word. -/
theorem ofInt_bmod (random : UInt32) :
    UInt8.ofInt ((random.toNat : Int).bmod (2 ^ 32)) = random.toUInt8 := by
  have hmod : ((random.toNat : Int).bmod (2 ^ 32) % 2 ^ 8).toNat = random.toNat % 2 ^ 8 := by
    have hdiv := Int.bdiv_add_bmod (random.toNat : Int) (2 ^ 32)
    omega
  apply UInt8.toNat_inj.mp
  rw [UInt8.ofInt, hmod, toNat_byte, UInt32.toNat_toUInt8]
  omega

theorem length_flatMap_spread (words : List UInt32) :
    (words.flatMap spread).length = 4 * words.length := by
  induction words with
  | nil => rfl
  | cons random words ih =>
      rw [List.flatMap_cons, List.length_append, ih, spread, List.length_replicate,
        List.length_cons]
      omega

/-- One iteration appends what its word contributes. -/
theorem gatherWord_eq {i : Nat} {g : Gathering n} {random : UInt32} {words : List UInt32}
    {done : List UInt8} (hw : g.words = random :: words) (hb : g.output.Filled done)
    (hi : 4 * i = done.length) (hfit : done.length + 4 ≤ n) (holen : g.olen + 4 < 2 ^ 32) :
    ∃ g', gatherWord i g = some g' ∧ g'.words = words ∧ g'.olen = g.olen + 4 ∧
      g'.output.Filled (done ++ spread random) := by
  obtain ⟨output, hfill, hb'⟩ := hb.fill hi random.toUInt8 hfit
  refine ⟨{ words := words, output := output, olen := g.olen + 4 }, ?_, rfl, rfl, hb'⟩
  simp only [gatherWord, rngGet, hw, memset, ofInt_bmod, hfill, wadd_of_lt holen,
    Option.bind_eq_bind, Option.bind_some, pure]

/-- **The output of a poll**: every word's low byte four times, in order. -/
theorem mbedtlsHardwarePoll_eq {words : List UInt32} (output : Block UInt8 n) {len : Nat}
    (hn : n < 2 ^ 31) (hdiv : 4 ∣ len) (hfit : len ≤ n) (hw : words.length = len / 4) :
    ∃ g, mbedtlsHardwarePoll words output len 0 = some g ∧ g.olen = len ∧
      g.output.cells.take len = words.flatMap spread := by
  have hlen : 4 * (len / 4) = len := Nat.mul_div_cancel' hdiv
  -- after `j` iterations: `j` words consumed, and their bytes at the front
  have hstep (j : Nat) (g : Gathering n) (hj : j < len / 4)
      (hinv : g.words = words.drop j ∧ g.olen = 4 * j ∧
        g.output.Filled ((words.take j).flatMap spread)) :
      ∃ g', gatherWord j g = some g' ∧ g'.words = words.drop (j + 1) ∧
        g'.olen = 4 * (j + 1) ∧ g'.output.Filled ((words.take (j + 1)).flatMap spread) := by
    obtain ⟨hwords, holen, hfilled⟩ := hinv
    have hj' : j < words.length := by omega
    have hdone : ((words.take j).flatMap spread).length = 4 * j := by
      rw [length_flatMap_spread, List.length_take, Nat.min_eq_left (by omega)]
    obtain ⟨g', hrun, hwords', holen', hfilled'⟩ := gatherWord_eq (i := j)
      (hwords.trans (List.drop_eq_getElem_cons hj')) hfilled hdone.symm (by omega) (by omega)
    refine ⟨g', hrun, hwords', by omega, ?_⟩
    rw [List.take_succ_eq_append_getElem hj', List.flatMap_append, List.flatMap_singleton]
    exact hfilled'
  obtain ⟨g, hrun, -, holen, hfilled⟩ := forLoop_rule (gatherWord (n := n)) _
    (i := 0) (k := len / 4) (s := { words := words, output := output, olen := 0 })
    ⟨rfl, rfl, Block.filled_nil output⟩ (fun j g _ hj => hstep j g (by omega))
  refine ⟨g, hrun, by omega, ?_⟩
  rw [Nat.zero_add, ← hw, List.take_length] at hfilled
  have htake := List.prefix_iff_eq_take.mp hfilled
  rw [length_flatMap_spread, hw, hlen] at htake
  exact htake.symm

/-! ## What the output tells about the words -/

/-- The spread bytes tell the low bytes and nothing else. -/
theorem flatMap_spread_inj {u v : List UInt32} :
    u.flatMap spread = v.flatMap spread ↔ u.map UInt32.toUInt8 = v.map UInt32.toUInt8 := by
  induction u generalizing v with
  | nil =>
      cases v with
      | nil => exact iff_of_true rfl rfl
      | cons y v => exact iff_of_false (fun h => by cases h) (fun h => by cases h)
  | cons x u ih =>
      cases v with
      | nil => exact iff_of_false (fun h => by cases h) (fun h => by cases h)
      | cons y v =>
          rw [List.flatMap_cons, List.flatMap_cons, List.map_cons, List.map_cons]
          constructor
          · intro h
            obtain ⟨hxy, huv⟩ := List.append_inj h rfl
            rw [(List.cons.inj hxy).1, ih.mp huv]
          · intro h
            obtain ⟨hxy, huv⟩ := List.cons.inj h
            rw [spread, spread, hxy, ih.mpr huv]

/-- **Two sequences of random words are told apart exactly when** some word
differs in its low byte: the three upper bytes of every word are lost. -/
theorem mbedtlsHardwarePoll_ne_iff {len : Nat} (hn : n < 2 ^ 31) (hdiv : 4 ∣ len)
    (hfit : len ≤ n) (output : Block UInt8 n) (u v : List UInt32) (hu : u.length = len / 4)
    (hv : v.length = len / 4) :
    ∃ a b, mbedtlsHardwarePoll u output len 0 = some a ∧
      mbedtlsHardwarePoll v output len 0 = some b ∧ a.olen = len ∧ b.olen = len ∧
      (a.output.cells.take len ≠ b.output.cells.take len ↔
        ∃ i : Nat, (u[i]?.map UInt32.toUInt8) ≠ (v[i]?.map UInt32.toUInt8)) := by
  obtain ⟨a, hrun_a, holen_a, hcells_a⟩ := mbedtlsHardwarePoll_eq output hn hdiv hfit hu
  obtain ⟨b, hrun_b, holen_b, hcells_b⟩ := mbedtlsHardwarePoll_eq output hn hdiv hfit hv
  refine ⟨a, b, hrun_a, hrun_b, holen_a, holen_b, ?_⟩
  rw [hcells_a, hcells_b, Ne, flatMap_spread_inj, List.ext_getElem?_iff, Classical.not_forall]
  simp only [List.getElem?_map, Ne]

/-- Three words, the second of which differs in its low byte. -/
theorem mbedtlsHardwarePoll_ne_iff_threeWords :
    ∃ a b, mbedtlsHardwarePoll [0x01020304, 0x0A0B0C0D, 0x11] (Block.replicate 16 0) 12 0
        = some a ∧
      mbedtlsHardwarePoll [0x21020304, 0x0A0B0C0E, 0x11] (Block.replicate 16 0) 12 0 = some b ∧
      a.olen = 12 ∧ b.olen = 12 ∧
      (a.output.cells.take 12 ≠ b.output.cells.take 12 ↔
        ∃ i : Nat, ([(0x01020304 : UInt32), 0x0A0B0C0D, 0x11][i]?.map UInt32.toUInt8)
          ≠ ([(0x21020304 : UInt32), 0x0A0B0C0E, 0x11][i]?.map UInt32.toUInt8)) :=
  mbedtlsHardwarePoll_ne_iff (by decide) (by decide) (by decide) (Block.replicate 16 0)
    [0x01020304, 0x0A0B0C0D, 0x11] [0x21020304, 0x0A0B0C0E, 0x11] rfl rfl

/-- Two words that differ in their upper bytes only fill the buffer alike. -/
theorem mbedtlsHardwarePoll_upper_bytes_lost :
    [(0x00000100 : UInt32)] ≠ [0x00000200] ∧
      (mbedtlsHardwarePoll [0x00000100] (Block.replicate 4 0) 4 0).map
          (fun g => g.output.cells.take 4) = some [0, 0, 0, 0] ∧
      (mbedtlsHardwarePoll [0x00000200] (Block.replicate 4 0) 4 0).map
          (fun g => g.output.cells.take 4) = some [0, 0, 0, 0] := by
  decide +kernel

end NucleoMqtt.Tls
