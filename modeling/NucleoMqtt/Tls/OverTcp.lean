import NucleoMqtt.Net.TcpStream
import NucleoMqtt.Tls.SslRead

/-!
# Tls — the socket below

`mbedtls_net_recv` is `TCP_Read`. To a read through mbedTLS, a call of it is
a `Turn` over the bytes on the wire. This is what any run of the TCP socket
is, whatever its two threads do: the calls return, and leave in the input
buffer, what `tcpRead` says of their turns.
-/

namespace NucleoMqtt.Tls

open NucleoMqtt.Lib NucleoMqtt.Net

/-- A call of the socket, for mbedTLS. -/
def turnOf (r : RecvResult) : Turn :=
  if neg : r.ret < 0 then .failed r.ret neg else .ready (r.ret.toNat - 1)

/-- Calls of the socket are answered so, one behind the other. -/
def Answers : SslIn → List RecvResult → Prop
  | _, [] => True
  | s, r :: results =>
      (tcpRead s r.len (turnOf r)).1 = r.ret ∧
        (tcpRead s r.len (turnOf r)).2.inLeft = s.inLeft ++ r.bytes ∧
        Answers (tcpRead s r.len (turnOf r)).2 results

/-- **One call**: it returns the next bytes of the wire, or fails, or has come
to the end. -/
theorem tcpRead_turn {s : SslIn} {r : RecvResult} (hright : r.Right) (hwire : r.bytes <+: s.wire)
    (hend : r.ret = 0 → s.wire = []) :
    tcpRead s r.len (turnOf r)
      = (r.ret, { s with inLeft := s.inLeft ++ r.bytes, wire := s.wire.drop r.bytes.length }) := by
  rw [turnOf]
  by_cases hbytes : r.bytes = []
  · rw [hbytes, List.append_nil, List.length_nil, List.drop_zero]
    by_cases hneg : r.ret < 0
    · rw [dif_pos hneg, tcpRead]
    · have hzero : r.ret = 0 := by
        have hle := hright.none hbytes
        omega
      rw [dif_neg hneg, tcpRead, hzero, hend hzero]
      simp only [List.take_nil, List.drop_nil, List.append_nil, List.length_nil]
      rw [show ((0 : Nat) : Int) = 0 from rfl, ← hend hzero]
  · have hret := hright.some hbytes
    have hpos := List.length_pos_iff.mpr hbytes
    have hmin : min (r.ret.toNat - 1 + 1) r.len = r.bytes.length := by
      have hfits := hright.fits
      rw [hret]
      omega
    have htake : s.wire.take r.bytes.length = r.bytes := (List.prefix_iff_eq_take.mp hwire).symm
    rw [dif_neg (by omega), tcpRead, hmin, htake, hret]

theorem answers_of_stream {s : SslIn} {results : List RecvResult}
    (hright : ∀ r ∈ results, r.Right) (hlen : ∀ r ∈ results, 0 < r.len)
    (hstream : results.flatMap RecvResult.bytes <+: s.wire)
    (hend : Machine.Guarded (fun r => r.ret = 0 ∧ 0 < r.len)
      (fun earlier => earlier.flatMap RecvResult.bytes = s.wire) results) :
    Answers s results := by
  induction results generalizing s with
  | nil => trivial
  | cons r results ih =>
      obtain ⟨rest, hrest⟩ := hstream
      rw [List.flatMap_cons, List.append_assoc] at hrest
      have hcall := tcpRead_turn (s := s) (hright r List.mem_cons_self) ⟨_, hrest⟩ fun hzero =>
        (hend [] r results rfl ⟨hzero, hlen r List.mem_cons_self⟩).symm
      have hdrop : s.wire.drop r.bytes.length = results.flatMap RecvResult.bytes ++ rest := by
        rw [← hrest, List.drop_left]
      rw [Answers, hcall]
      refine ⟨rfl, rfl, ih (fun r' hr' => hright r' (List.mem_cons_of_mem r hr'))
        (fun r' hr' => hlen r' (List.mem_cons_of_mem r hr')) ?_ ?_⟩
      · show _ <+: s.wire.drop r.bytes.length
        rw [hdrop]
        exact List.prefix_append _ _
      · intro earlier r' later hsplit hr'
        have htold := hend.tail earlier r' later hsplit hr'
        show _ = s.wire.drop r.bytes.length
        rw [← htold, List.flatMap_cons, List.drop_left]

/-- **The TCP socket answers mbedTLS**, in every run: the calls that have been
made are turns over what has arrived. -/
theorem socket_answers {acts : List Tcp.Act} {tcp : Tcp} {ssl : SslIn}
    (hrun : Machine.run Tcp.step .init acts = some tcp)
    (hlen : ∀ r ∈ tcp.results, 0 < r.len) (hwire : ssl.wire = tcp.arrived) :
    Answers ssl tcp.results := by
  have h := Inv.run hrun
  obtain ⟨lost, hstream, -⟩ := h.stream
  refine answers_of_stream h.right hlen ?_ ?_
  · rw [hwire, ← hstream]
    exact List.prefix_append _ _
  · intro earlier r later hsplit hr
    rw [hwire]
    exact (h.eof earlier r later hsplit hr).1

/-- The input buffer is empty, and the wire has these bytes. -/
def overWire (wire : List UInt8) : SslIn := ⟨wire, [], 0, [], 0, none, [], []⟩

theorem socket_answers_twoReads : ∃ tcp : Tcp,
    Machine.run Tcp.step .init twoReads = some tcp ∧
      Answers (overWire tcp.arrived) tcp.results := by
  refine ⟨_, rfl, ?_⟩
  have hrun : Machine.run Tcp.step .init twoReads = some _ := rfl
  exact socket_answers hrun (by decide) rfl

end NucleoMqtt.Tls
