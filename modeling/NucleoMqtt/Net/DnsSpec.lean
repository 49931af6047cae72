import NucleoMqtt.Net.DnsQuery
import NucleoMqtt.Spec.Dns

/-!
# Net — what the name loop writes

The loop takes the host name apart at its dots, so the lemmas follow that
cut: a label is measured, copied, and encoded, and `dotted_induction` puts
the labels together. The packet position runs ahead of the host name
position by a constant, one byte of length against one dot, which is why
the loop ends with the last byte of the allocation still to be written.
-/

namespace NucleoMqtt.Net

open NucleoMqtt.Lib NucleoMqtt.Spec

/-- The labels of a host name. -/
def labels (s : List UInt8) : List (List UInt8) := s.splitOn 46

/-- A host name is one label, or a label, a dot and a host name. -/
theorem dotted_induction {p : List UInt8 → Prop} (last : ∀ l, 46 ∉ l → p l)
    (dot : ∀ l s, 46 ∉ l → p s → p (l ++ 46 :: s)) (s : List UInt8) : p s := by
  induction hn : s.length using Nat.strongRecOn generalizing s with
  | ind n ih =>
      by_cases hdot : 46 ∈ s
      · obtain ⟨l, t, rfl, hl⟩ := List.eq_append_cons_of_mem hdot
        refine dot l t hl (ih t.length ?_ t rfl)
        rw [← hn, List.length_append, List.length_cons]
        omega
      · exact last s hdot

theorem labels_last {l : List UInt8} (h : 46 ∉ l) : labels l = [l] := List.splitOn_eq_singleton h

theorem labels_dot {l : List UInt8} (h : 46 ∉ l) (s : List UInt8) :
    labels (l ++ 46 :: s) = l :: labels s := List.splitOn_append_cons_self_of_not_mem h s

theorem encodeName_single (l : List UInt8) :
    Question.encodeName [l] = Question.encodeLabel l ++ [0] := by
  simp [Question.encodeName]

theorem encodeName_cons (l : List UInt8) (ls : List (List UInt8)) :
    Question.encodeName (l :: ls) = Question.encodeLabel l ++ Question.encodeName ls := by
  simp [Question.encodeName]

/-- A name takes one byte more than the host name has characters, and the root. -/
theorem length_encodeName_labels (s : List UInt8) :
    (Question.encodeName (labels s)).length = s.length + 2 := by
  induction s using dotted_induction with
  | last l hl =>
      rw [labels_last hl, encodeName_single, List.length_append, List.length_singleton,
        Question.length_encodeLabel]
  | dot l s hl ih =>
      rw [labels_dot hl, encodeName_cons, List.length_append, ih, Question.length_encodeLabel,
        List.length_append, List.length_cons]
      omega

/-! ## One label -/

/-- The character the count looks at decides. -/
theorem labelLength_of_some {hostname : List UInt8} {i j : Nat} {c : UInt8}
    (h : hostname[i + j]? = some c) :
    labelLength hostname i j
      = if c ≠ 46 ∧ c ≠ 0 then labelLength hostname i (j + 1) else some j := by
  rw [labelLength]
  split
  · rename_i hnone
    rw [h] at hnone
    cases hnone
  · rename_i c' hc'
    rw [h] at hc'
    cases hc'
    rfl

/-- The count stops at the first dot or NUL. -/
theorem labelLength_eq (pre rest : List UInt8) {l : List UInt8} {stop : UInt8} (hdot : 46 ∉ l)
    (hnul : 0 ∉ l) (hstop : stop = 46 ∨ stop = 0) {i j : Nat} (hij : pre.length = i + j) :
    labelLength (pre ++ (l ++ stop :: rest)) i j = some (j + l.length) := by
  induction l generalizing pre j with
  | nil =>
      have hread : (pre ++ ([] ++ stop :: rest))[i + j]? = some stop := by simp [← hij]
      have hend : ¬ (stop ≠ 46 ∧ stop ≠ 0) := by
        rintro ⟨h46, h0⟩
        exact hstop.elim h46 h0
      rw [labelLength_of_some hread, if_neg hend, List.length_nil, Nat.add_zero]
  | cons a l ih =>
      have hread : (pre ++ (a :: l ++ stop :: rest))[i + j]? = some a := by simp [← hij]
      have ha : a ≠ 46 ∧ a ≠ 0 :=
        ⟨fun h => hdot (h ▸ List.mem_cons_self), fun h => hnul (h ▸ List.mem_cons_self)⟩
      have hrest := ih (pre ++ [a])
        (fun h => hdot (List.mem_cons_of_mem a h)) (fun h => hnul (List.mem_cons_of_mem a h))
        (show (pre ++ [a]).length = i + (j + 1) by
          rw [List.length_append, List.length_singleton, hij, Nat.add_assoc])
      rw [List.append_assoc, List.singleton_append, ← List.cons_append] at hrest
      rw [labelLength_of_some hread, if_pos ha, hrest, List.length_cons]
      congr 1
      omega

/-- The characters of a label are appended to the packet. -/
theorem copyLabel_eq {n : Nat} (pre l rest : List UInt8) {done : List UInt8} {c : Cursor n}
    {j : Nat}
    (hi : pre.length = c.i) (hb : c.packet.Filled done) (hk : done.length = c.k)
    (hj : c.k + l.length = j + 1) (hfit : done.length + l.length ≤ n) :
    ∃ b, copyLabel (pre ++ (l ++ rest)) c j = some ⟨b, c.i + l.length, c.k + l.length⟩ ∧
      b.Filled (done ++ l) := by
  induction l generalizing pre done c with
  | nil =>
      rw [List.length_nil, Nat.add_zero] at hj
      refine ⟨c.packet, ?_, by simpa using hb⟩
      rw [copyLabel, dif_neg (by omega)]
      rfl
  | cons a l ih =>
      rw [List.length_cons] at hj hfit
      have hread : (pre ++ (a :: l ++ rest))[c.i]? = some a := by simp [← hi]
      obtain ⟨b, hstore, hb'⟩ := hb.store hk.symm (by omega) a
      have hlen : (done ++ [a]).length = c.k + 1 := by
        rw [List.length_append, List.length_singleton, hk]
      obtain ⟨b', hcopy, hfill⟩ := ih (pre ++ [a]) (c := ⟨b, c.i + 1, c.k + 1⟩)
        (by rw [List.length_append, List.length_singleton, hi]) hb' hlen
        (by show c.k + 1 + l.length = j + 1; omega) (by rw [hlen]; omega)
      rw [List.append_assoc, List.singleton_append, ← List.cons_append] at hcopy
      refine ⟨b', ?_, by simpa using hfill⟩
      rw [copyLabel, dif_pos (by omega), hread, Option.bind_some, hstore, Option.bind_some, hcopy,
        List.length_cons, Nat.add_assoc, Nat.add_comm 1, Nat.add_assoc, Nat.add_comm 1]

/-- Length byte and characters of a label, up to the dot or the NUL behind it. -/
theorem encodeLabel_body {n : Nat} (pre rest : List UInt8) {l done : List UInt8} {stop : UInt8}
    {c : Cursor n} (hdot : 46 ∉ l) (hnul : 0 ∉ l) (hstop : stop = 46 ∨ stop = 0)
    (hi : pre.length = c.i) (hb : c.packet.Filled done) (hk : done.length = c.k)
    (hfit : done.length + l.length < n) :
    ∃ b : Block UInt8 n, b.Filled (done ++ Question.encodeLabel l) ∧
      ∀ len, encodeLabel (pre ++ (l ++ stop :: rest)) len c
        = if c.i + l.length + 1 = len then
            (b.store (c.k + l.length + 1) 0).map (⟨·, c.i + l.length + 1, c.k + l.length + 1⟩)
          else some ⟨b, c.i + l.length + 1, c.k + l.length + 1⟩ := by
  have hcount := labelLength_eq pre rest hdot hnul hstop (i := c.i) (j := 0) (by omega)
  rw [Nat.zero_add] at hcount
  obtain ⟨b₁, hstore, hb₁⟩ := hb.store hk.symm (by omega) (UInt8.ofNat l.length)
  have hlen : (done ++ [UInt8.ofNat l.length]).length = c.k + 1 := by
    rw [List.length_append, List.length_singleton, hk]
  obtain ⟨b₂, hcopy, hb₂⟩ := copyLabel_eq pre l (stop :: rest)
    (c := ⟨b₁, c.i, c.k + 1⟩) (j := l.length + c.k) hi hb₁ hlen
    (by show c.k + 1 + l.length = l.length + c.k + 1; omega) (by rw [hlen]; omega)
  refine ⟨b₂, ?_, ?_⟩
  · rwa [List.append_assoc, List.singleton_append] at hb₂
  · intro len
    simp only [encodeLabel, hcount, hstore, Option.bind_eq_bind, Option.bind_some, hcopy]
    rw [Nat.add_right_comm c.k 1 l.length]
    split
    · rw [Option.map_eq_bind]
      rfl
    · rfl

/-! ## The name -/

/-- One pass, and whether another follows. -/
theorem encodeName_of_some {n : Nat} {hostname : List UInt8} {len : Nat} {c d : Cursor n}
    (h : encodeLabel hostname len c = some d) :
    encodeName hostname len c = if d.i < len then encodeName hostname len d else some d := by
  rw [encodeName]
  split
  · rename_i hnone
    rw [h] at hnone
    cases hnone
  · rename_i d' hd'
    rw [h] at hd'
    cases hd'
    rfl

/-- **The name loop**: from a position at the start of a label, it writes
the name of what is left of the host name and stops behind the NUL. -/
theorem encodeName_eq {n : Nat} {s : List UInt8} (hnul : 0 ∉ s) (pre : List UInt8)
    {done : List UInt8} {c : Cursor n} {len : Nat} (hlen : len = pre.length + s.length + 1)
    (hi : pre.length = c.i) (hb : c.packet.Filled done) (hk : done.length = c.k)
    (hfit : done.length + s.length + 2 ≤ n) :
    ∃ d, encodeName (pre ++ (s ++ [0])) len c = some d ∧ d.k = c.k + s.length + 1 ∧
      d.packet.Filled (done ++ Question.encodeName (labels s)) := by
  induction s using dotted_induction generalizing pre done c with
  | last l hl =>
      obtain ⟨b, hfill, hstep⟩ := encodeLabel_body pre [] hl hnul (Or.inr rfl) hi hb hk
        (by omega)
      obtain ⟨b', hroot, hfill'⟩ := hfill.store (i := c.k + l.length + 1)
        (by rw [List.length_append, Question.length_encodeLabel, hk, Nat.add_assoc])
        (by rw [List.length_append, Question.length_encodeLabel]; omega) 0
      have hend : encodeLabel (pre ++ (l ++ [0])) len c
          = some ⟨b', c.i + l.length + 1, c.k + l.length + 1⟩ := by
        rw [hstep, if_pos (by omega), hroot]
        rfl
      refine ⟨⟨b', c.i + l.length + 1, c.k + l.length + 1⟩, ?_, rfl, ?_⟩
      · rw [encodeName_of_some hend, if_neg (by show ¬ c.i + l.length + 1 < len; omega)]
      · rwa [labels_last hl, encodeName_single, ← List.append_assoc]
  | dot l s hl ih =>
      have hnull : 0 ∉ l := fun h => hnul (List.mem_append_left _ h)
      have hnuls : 0 ∉ s := fun h => hnul (List.mem_append_right _ (List.mem_cons_of_mem _ h))
      rw [List.length_append, List.length_cons] at hlen hfit
      obtain ⟨b, hfill, hstep⟩ := encodeLabel_body pre (s ++ [0]) hl hnull (Or.inl rfl) hi hb
        hk (by omega)
      have hdone : (done ++ Question.encodeLabel l).length = c.k + l.length + 1 := by
        rw [List.length_append, Question.length_encodeLabel, hk, Nat.add_assoc]
      have hpre : (pre ++ (l ++ [46])).length = c.i + l.length + 1 := by
        rw [List.length_append, List.length_append, List.length_singleton, hi, Nat.add_assoc]
      obtain ⟨d, hrun, hdk, hdfill⟩ := ih hnuls (pre ++ (l ++ [46]))
        (c := ⟨b, c.i + l.length + 1, c.k + l.length + 1⟩) (by rw [hpre]; omega) hpre hfill hdone
        (by rw [hdone]; omega)
      have hsplit : pre ++ (l ++ [46]) ++ (s ++ [0]) = pre ++ (l ++ 46 :: (s ++ [0])) := by simp
      have hsplit' : pre ++ (l ++ 46 :: s ++ [0]) = pre ++ (l ++ 46 :: (s ++ [0])) := by simp
      have hmore : encodeLabel (pre ++ (l ++ 46 :: (s ++ [0]))) len c
          = some ⟨b, c.i + l.length + 1, c.k + l.length + 1⟩ := by
        rw [hstep, if_neg (by omega)]
      rw [hsplit] at hrun
      rw [hsplit']
      refine ⟨d, ?_, ?_, ?_⟩
      · rw [encodeName_of_some hmore, if_pos (by show c.i + l.length + 1 < len; omega), hrun]
      · rw [hdk, List.length_append, List.length_cons]
        show c.k + l.length + 1 + s.length + 1 = _
        omega
      · rwa [labels_dot hl, encodeName_cons, ← List.append_assoc]

/-! ## The query -/

/-- The check looks at every character. -/
theorem hostnameIsIpaddr_eq (hostname : List UInt8) :
    hostnameIsIpaddr hostname hostname.length = some (hostname.all isIpaddrChar) := by
  have hstep (i : Nat) (flag : Bool) (_ : 0 ≤ i) (hi : i < 0 + hostname.length)
      (hflag : flag = (hostname.take i).all isIpaddrChar) :
      ∃ flag', (hostname[i]?.bind fun c => some (if isIpaddrChar c then flag else false))
        = some flag' ∧ flag' = (hostname.take (i + 1)).all isIpaddrChar := by
    have hlt : i < hostname.length := by omega
    refine ⟨_, by rw [List.getElem?_eq_getElem hlt, Option.bind_some], ?_⟩
    rw [List.take_succ_eq_append_getElem hlt, List.all_append, List.all_cons, List.all_nil,
      Bool.and_true, hflag]
    cases isIpaddrChar hostname[i] with
    | true => rw [if_pos rfl, Bool.and_true]
    | false => rw [if_neg Bool.false_ne_true, Bool.and_false]
  obtain ⟨flag, hrun, hflag⟩ := forLoop_rule _
    (fun i flag => flag = (hostname.take i).all isIpaddrChar) (i := 0) (k := hostname.length)
    (s := true) rfl hstep
  rw [Nat.zero_add, List.take_length] at hflag
  rw [hostnameIsIpaddr, ← hflag]
  exact hrun

/-- The NUL passes the check, so the characters in front of it decide. -/
theorem hostnameIsIpaddr_string (s : List UInt8) :
    hostnameIsIpaddr (s ++ [0]) (s.length + 1) = some (s.all isIpaddrChar) := by
  have hcheck := hostnameIsIpaddr_eq (s ++ [0])
  have hnul : isIpaddrChar 0 = true := rfl
  rwa [List.length_append, List.length_singleton, List.all_append, List.all_cons, hnul,
    List.all_nil, Bool.and_self, Bool.and_true] at hcheck

/-- No query is sent for a host name of digits and dots. -/
theorem dnsQuery_none (r₀ r₁ : UInt8) {s : List UInt8} (h : s.all isIpaddrChar = true) :
    dnsQuery r₀ r₁ (s ++ [0]) (s.length + 1) = some none := by
  rw [dnsQuery, hostnameIsIpaddr_string, h]
  rfl

/-- The bytes of the query for a host name. -/
def queryBytes (r₀ r₁ : UInt8) (s : List UInt8) : List UInt8 :=
  dnsHeader r₀ r₁ ++ Question.encodeName (labels s) ++ [0, 1, 0, 1]

/-- Every store lands in the allocation, which is filled to its end. -/
theorem dnsQuery_eq (r₀ r₁ : UInt8) {s : List UInt8} (hnul : 0 ∉ s)
    (hname : ∃ c ∈ s, isIpaddrChar c = false) :
    ∃ q, dnsQuery r₀ r₁ (s ++ [0]) (s.length + 1) = some (some q) ∧
      q.alloc = DNS_PACKET_MIN_SIZE + (s.length + 1) ∧ q.last + 1 = q.alloc ∧
      q.buf.cells = queryBytes r₀ r₁ s := by
  have hcheck : hostnameIsIpaddr (s ++ [0]) (s.length + 1) = some false := by
    obtain ⟨c, hc, hbad⟩ := hname
    rw [hostnameIsIpaddr_string, List.all_eq_false.mpr]
    exact ⟨c, hc, by rw [hbad]; exact Bool.false_ne_true⟩
  obtain ⟨b, hheader, hb⟩ :=
    (Block.filled_nil (Block.replicate (DNS_PACKET_MIN_SIZE + (s.length + 1)) (0 : UInt8))).copyIn
      0 rfl (dnsHeader r₀ r₁) [] (by simp [dnsHeader, DNS_PACKET_MIN_SIZE]; omega)
  rw [List.append_nil] at hheader
  rw [List.nil_append] at hb
  obtain ⟨d, hname, hk, hd⟩ := encodeName_eq hnul []
    (c := ⟨b, 0, HOST_START⟩) (show s.length + 1 = 0 + s.length + 1 by omega) rfl hb rfl
    (by simp [dnsHeader, DNS_PACKET_MIN_SIZE]; omega)
  have hlen : (dnsHeader r₀ r₁ ++ Question.encodeName (labels s)).length = d.k + 1 := by
    rw [hk, List.length_append, length_encodeName_labels]
    simp only [dnsHeader, HOST_START, List.length_cons, List.length_nil]
    omega
  have hroom : d.k + 5 = DNS_PACKET_MIN_SIZE + (s.length + 1) := by
    rw [hk]
    simp only [HOST_START, DNS_PACKET_MIN_SIZE]
    omega
  generalize hdone : dnsHeader r₀ r₁ ++ Question.encodeName (labels s) = done at hd hlen
  obtain ⟨b₁, h₁, f₁⟩ := hd.store (i := d.k + 1) hlen.symm (by omega) 0
  obtain ⟨b₂, h₂, f₂⟩ := f₁.store (i := d.k + 2) (by simp; omega) (by simp; omega) 1
  obtain ⟨b₃, h₃, f₃⟩ := f₂.store (i := d.k + 3) (by simp; omega) (by simp; omega) 0
  obtain ⟨b₄, h₄, f₄⟩ := f₃.store (i := d.k + 4) (by simp; omega) (by simp; omega) 1
  refine ⟨⟨_, b₄, d.k + 4⟩, ?_, rfl, hroom, ?_⟩
  · rw [List.nil_append] at hname
    have hheader' : (Block.replicate (DNS_PACKET_MIN_SIZE + (s.length + 1)) (0 : UInt8)).copyIn 0
        (dnsHeader r₀ r₁) 12 = some b := hheader
    simp only [dnsQuery, hcheck, Option.bind_eq_bind, Option.bind_some, if_true, hheader', hname,
      h₁, h₂, h₃, h₄, pure]
  · rw [f₄.cells_eq (by simp; omega), queryBytes, hdone]
    simp

/-- **The DNS query is in bounds, terminating and faithful**: for every host
name that is not taken for an address, whatever its dots and labels, the
loop ends without reading behind the NUL or writing outside the allocation,
and the last class byte is at its end. With labels of 1 to 63 bytes, what
starts at offset 12 is one question for them, type A, class IN. -/
theorem dnsQuery_faithful (r₀ r₁ : UInt8) {s : List UInt8} (hnul : 0 ∉ s)
    (hname : ∃ c ∈ s, isIpaddrChar c = false) :
    ∃ q, dnsQuery r₀ r₁ (s ++ [0]) (s.length + 1) = some (some q) ∧
      q.alloc = DNS_PACKET_MIN_SIZE + (s.length + 1) ∧ q.last + 1 = q.alloc ∧
      ((∀ l ∈ labels s, 1 ≤ l.length ∧ l.length ≤ 63) →
        Question.decode (q.buf.cells.drop 12)
          = some { labels := labels s, qtype := 1, qclass := 1 }) := by
  obtain ⟨q, hrun, halloc, hlast, hcells⟩ := dnsQuery_eq r₀ r₁ hnul hname
  refine ⟨q, hrun, halloc, hlast, ?_⟩
  intro hlabels
  have hquestion : q.buf.cells.drop 12 = Question.encodeName (labels s) ++ (be16 1 ++ be16 1) := by
    rw [hcells, queryBytes, List.append_assoc]
    rfl
  rw [hquestion]
  exact Question.decode_encode (q := ⟨labels s, 1, 1⟩) hlabels (show 1 < 2 ^ 16 by decide)
    (show 1 < 2 ^ 16 by decide)

/-- The query for `a.b`. -/
theorem dnsQuery_faithful_short :
    ∃ q, dnsQuery 7 9 [97, 46, 98, 0] 4 = some (some q) ∧
      q.alloc = DNS_PACKET_MIN_SIZE + 4 ∧ q.last + 1 = q.alloc ∧
      ((∀ l ∈ labels [97, 46, 98], 1 ≤ l.length ∧ l.length ≤ 63) →
        Question.decode (q.buf.cells.drop 12)
          = some { labels := labels [97, 46, 98], qtype := 1, qclass := 1 }) :=
  dnsQuery_faithful 7 9 (s := [97, 46, 98]) (by decide) ⟨97, by decide, by decide⟩

end NucleoMqtt.Net
