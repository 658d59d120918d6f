import MagxNet.Tcp.Ledger

set_option autoImplicit false

namespace MagxNet.Tcp

open Bytes Serial

-- A call of tcp_sndseg: the connection, the segment with those behind it, how far the segment may be
-- extended, and the window.
structure SegCall where
  conn : World
  b : Buf
  rest : List Buf
  nretrans : Int
  wnd1st : Seq
  wndnxt : Seq

-- The window intersects the segment, and what is built of it ends in the window: neither internal error
-- of tcp_sndseg is returned.
structure Meets (c : SegCall) : Prop where
  common : ∃ x, SEQLE c.wnd1st x ∧ SEQLT x c.wndnxt ∧ SEQLE (SEQ1ST c.b) x ∧ SEQLT x (seqEnd c.b)
  piece : ∃ tcph finCut, sndsegCut c.b c.wnd1st c.wndnxt = .piece tcph finCut
    ∧ SEQLE (tcph.seq + BitVec.ofInt 32 (tcpSeglen tcph)) c.wndnxt

theorem seq_lt_int (isn : Seq) (i j : Int) (near : i ≤ j + 1000000) (near' : j ≤ i + 1000000) :
    SEQLT (place isn i) (place isn j) ↔ i < j :=
  lt_place isn i j (by omega) (by omega)

theorem seq_le_int (isn : Seq) (i j : Int) (near : i ≤ j + 1000000) (near' : j ≤ i + 1000000) :
    SEQLE (place isn i) (place isn j) ↔ i ≤ j :=
  le_place isn i j (by omega) (by omega)

theorem place_succ (isn : Seq) (i : Int) : place isn i + 1 = place isn (i + 1) := place_add isn i 1

theorem place_pred (isn : Seq) (i : Int) : place isn i - 1 = place isn (i - 1) := by
  rw [Int.sub_eq_add_neg, ← place_add, BitVec.sub_eq_add_neg]
  exact congrArg (place isn i + ·) (by decide)

section Placed

variable (isn : Seq) (b : Buf) (i : Nat) (start : b.th.seq = place isn i) (ok : SegOk b.th)

-- The parts of a segment: SYN, data, FIN.
def synLen (th : Dgram) : Nat := if th.flags.syn then 1 else 0

def finLen (th : Dgram) : Nat := if th.flags.fin then 1 else 0

theorem items_parts (th : Dgram) (ok : SegOk th) : (items th).length = synLen th + th.urgptr.toNat + finLen th := by
  rw [ok.datlen]
  unfold items synLen finLen
  cases th.flags.syn <;> cases th.flags.fin <;> simp <;> omega

theorem seglen_parts (th : Dgram) : tcpSeglen th = tcpDatalen th + synLen th + finLen th := by
  unfold tcpSeglen synLen finLen
  split <;> split <;> simp

theorem datalen_datlen (th : Dgram) (ok : SegOk th) : tcpDatalen th = th.urgptr.toNat := by
  have whole := items_length th ok
  rw [items_parts th ok, seglen_parts] at whole
  omega

include start ok

theorem excess_place (e : Int) (near : e ≤ i + 500000) (near' : (i : Int) ≤ e + 500000) (small : (items b.th).length ≤ 65537) :
    excess b (place isn e) = if e < i + (items b.th).length then i + (items b.th).length - finLen b.th - e else 0 := by
  have stop := seq_end_place isn i b start ok
  unfold excess
  rw [stop, Nat.cast_add]
  by_cases cut : e < i + (items b.th).length
  · rw [if_pos cut, if_pos ((seq_lt_int isn _ _ (by omega) (by omega)).mpr cut)]
    unfold finLen
    by_cases fin : b.th.flags.fin
    · rw [if_pos fin, if_pos fin, place_pred, place_sub_toInt _ _ _ (by omega) (by omega)]
      rfl
    · rw [if_neg fin, if_neg fin, place_sub_toInt _ _ _ (by omega) (by omega)]
      omega
  · rw [if_neg cut, if_neg ((seq_lt_int isn _ _ (by omega) (by omega)).not.mpr cut)]

omit start in
theorem datalen_take (less : Int) (flags : Flags) (low : 0 ≤ less) (high : less ≤ b.th.urgptr.toNat) :
    tcpDatalen { b.th with body := b.th.body.take ((TCP_MINLEN : Int) + b.th.body.length - less - TCP_MINLEN).toNat, flags := flags }
      = b.th.urgptr.toNat - less := by
  have data := datalen_datlen b.th ok
  have header := ok.header
  have room := ok.room
  unfold tcpDatalen tcpHdrlen at data ⊢
  unfold tcpHdrlen at room
  dsimp only
  rw [List.length_take]
  unfold TCP_MINLEN at *
  omega

theorem cut_right_place (e : Int) (inside : (i : Int) < e) (near : e ≤ i + 500000) (small : (items b.th).length ≤ 65537) :
    ∃ tcph finCut, cutRight b (place isn e) = .piece tcph finCut ∧ tcph.seq = place isn i
      ∧ 0 ≤ tcpDatalen tcph ∧ 0 ≤ tcpSeglen tcph ∧ i + tcpSeglen tcph ≤ e := by
  have whole := items_parts b.th ok
  have data := datalen_datlen b.th ok
  have stop := seq_end_place isn i b start ok
  have cutOff := excess_place isn b i start ok e near (by omega) small
  have ends : SEQLT (place isn e) (seqEnd b) ↔ e < i + (items b.th).length := by
    rw [stop, Nat.cast_add, seq_lt_int _ _ _ (by omega) (by omega)]
  have one : synLen b.th ≤ 1 := by
    unfold synLen
    split <;> omega
  have room : (b.th.urgptr.toNat : Int) ≤ TCP_MINLEN + b.th.body.length := by
    rw [← data]
    unfold tcpDatalen
    omega
  unfold cutRight
  rw [cutOff]
  by_cases cut : e < i + (items b.th).length
  · have low : 0 ≤ (i : Int) + (items b.th).length - finLen b.th - e := by
      have : finLen b.th ≤ 1 := by
        unfold finLen
        split <;> omega
      omega
    have high : (i : Int) + (items b.th).length - finLen b.th - e ≤ b.th.urgptr.toNat := by omega
    rw [if_pos cut, if_neg (by omega), decide_eq_true (ends.mpr cut)]
    have datalen := datalen_take b ok _ { b.th.flags with fin := b.th.flags.fin && !true } low high
    refine ⟨_, _, rfl, start, ?_, ?_, ?_⟩
    · rw [datalen]
      omega
    · rw [seglen_parts, datalen]
      omega
    · rw [seglen_parts, datalen]
      have noFin : finLen { b.th with flags := { b.th.flags with fin := b.th.flags.fin && !true } } = 0 := by
        unfold finLen
        simp
      change i + ((b.th.urgptr.toNat : Int) - _ + (synLen b.th : Int)
        + (finLen { b.th with flags := { b.th.flags with fin := b.th.flags.fin && !true } } : Int)) ≤ e
      rw [noFin]
      omega
  · have datalen := datalen_take b ok 0 { b.th.flags with fin := b.th.flags.fin && !false } (le_refl 0) (by omega)
    rw [if_neg cut, if_neg (by omega), decide_eq_false (ends.not.mpr cut)]
    refine ⟨_, _, rfl, start, ?_, ?_, ?_⟩
    · rw [datalen]
      omega
    · rw [seglen_parts, datalen]
      omega
    · rw [seglen_parts, datalen]
      have sameFin : finLen { b.th with flags := { b.th.flags with fin := b.th.flags.fin && !false } } = finLen b.th := by
        unfold finLen
        simp
      change i + ((b.th.urgptr.toNat : Int) - _ + (synLen b.th : Int)
        + (finLen { b.th with flags := { b.th.flags with fin := b.th.flags.fin && !false } } : Int)) ≤ e
      rw [sameFin]
      omega

omit start in
theorem datalen_middle (offs todo : Int) (seq : Seq) (flags : Flags) (low : 0 ≤ offs) (some : 0 ≤ todo)
    (fits : offs + todo ≤ b.th.urgptr.toNat) :
    tcpDatalen { b.th with
      seq := seq
      body := b.th.body.take (tcpHdrlen b.th - TCP_MINLEN) ++ ((tcpData b.th).drop offs.toNat).take todo.toNat
      flags := flags } = todo := by
  have header := ok.header
  have room := ok.room
  have data := ok.datlen
  unfold tcpDatalen tcpHdrlen
  unfold tcpHdrlen at room
  dsimp only
  rw [List.length_append, List.length_take, List.length_take, List.length_drop, ← data]
  unfold TCP_MINLEN at *
  omega

theorem cut_left_place (v e : Int) (behind : (i : Int) < v) (ahead : v < i + (items b.th).length) (order : v < e)
    (near : e ≤ i + 500000) (small : (items b.th).length ≤ 65537) :
    ∃ tcph finCut, cutLeft b (place isn v) (place isn e) = .piece tcph finCut ∧ tcph.seq = place isn v
      ∧ 0 ≤ tcpDatalen tcph ∧ 0 ≤ tcpSeglen tcph ∧ v + tcpSeglen tcph ≤ e := by
  have whole := items_parts b.th ok
  have stop := seq_end_place isn i b start ok
  have cutOff := excess_place isn b i start ok e near (by omega) small
  have ends : SEQLT (place isn e) (seqEnd b) ↔ e < i + (items b.th).length := by
    rw [stop, Nat.cast_add, seq_lt_int _ _ _ (by omega) (by omega)]
  have one : synLen b.th ≤ 1 := by
    unfold synLen
    split <;> omega
  have last : finLen b.th ≤ 1 := by
    unfold finLen
    split <;> omega
  have offset : (place isn v - (if b.th.flags.syn then SEQ1ST b + 1 else SEQ1ST b)).toInt = v - i - synLen b.th := by
    unfold SEQ1ST synLen
    rw [start]
    split
    · rw [place_succ, place_sub_toInt _ _ _ (by omega) (by omega)]
      omega
    · rw [place_sub_toInt _ _ _ (by omega) (by omega)]
      omega
  unfold cutLeft DATLEN
  rw [cutOff, offset]
  dsimp only
  by_cases cut : e < i + (items b.th).length
  · rw [if_pos cut, if_neg (by omega), decide_eq_true (ends.mpr cut)]
    have datalen := datalen_middle b ok (v - i - synLen b.th) (b.th.urgptr.toNat - (v - i - synLen b.th)
      - (i + (items b.th).length - finLen b.th - e)) (place isn v) { b.th.flags with syn := false, fin := b.th.flags.fin && !true }
      (by omega) (by omega) (by omega)
    refine ⟨_, _, rfl, rfl, ?_, ?_, ?_⟩
    · rw [datalen]
      omega
    · rw [seglen_parts, datalen]
      omega
    · rw [seglen_parts, datalen]
      have noFin : finLen { b.th with flags := { b.th.flags with fin := b.th.flags.fin && !true } } = 0 := by
        unfold finLen
        simp
      change v + (_ + ((0 : Nat) : Int) + (finLen { b.th with flags := { b.th.flags with fin := b.th.flags.fin && !true } } : Int)) ≤ e
      rw [noFin]
      omega
  · rw [if_neg cut, if_neg (by omega), decide_eq_false (ends.not.mpr cut)]
    have datalen := datalen_middle b ok (v - i - synLen b.th) (b.th.urgptr.toNat - (v - i - synLen b.th) - 0) (place isn v)
      { b.th.flags with syn := false, fin := b.th.flags.fin && !false } (by omega) (by omega) (by omega)
    refine ⟨_, _, rfl, rfl, ?_, ?_, ?_⟩
    · rw [datalen]
      omega
    · rw [seglen_parts, datalen]
      omega
    · rw [seglen_parts, datalen]
      have sameFin : finLen { b.th with flags := { b.th.flags with fin := b.th.flags.fin && !false } } = finLen b.th := by
        unfold finLen
        simp
      change v + (_ + ((0 : Nat) : Int) + (finLen { b.th with flags := { b.th.flags with fin := b.th.flags.fin && !false } } : Int)) ≤ e
      rw [sameFin]
      omega

-- A segment around the window's left edge, or behind it and before its right edge.
theorem cut_place (v e : Int) (ahead : v < i + (items b.th).length) (inside : (i : Int) < e) (order : v < e)
    (near : (i : Int) ≤ v + 400000) (near' : e ≤ i + 400000) (small : (items b.th).length ≤ 65537) :
    ∃ tcph finCut, sndsegCut b (place isn v) (place isn e) = .piece tcph finCut
      ∧ SEQLE (tcph.seq + BitVec.ofInt 32 (tcpSeglen tcph)) (place isn e) := by
  have stop := seq_end_place isn i b start ok
  have reached : ¬ (SEQLE (place isn e) (SEQ1ST b) ∨ SEQLE (seqEnd b) (place isn v)) := by
    rw [SEQ1ST, start, stop, seq_le_int _ _ _ (by omega) (by omega), seq_le_int _ _ _ (by omega) (by omega)]
    omega
  have fits : ∀ (j : Int) (tcph : Dgram), tcph.seq = place isn j → 0 ≤ tcpDatalen tcph → 0 ≤ tcpSeglen tcph → j + tcpSeglen tcph ≤ e →
      (i : Int) ≤ j → ¬ SEQGT (tcph.seq + BitVec.ofInt 32 (tcpDatalen tcph)) (place isn e)
        ∧ SEQLE (tcph.seq + BitVec.ofInt 32 (tcpSeglen tcph)) (place isn e) := by
    intro j tcph seq data seg last low
    have parts := seglen_parts tcph
    rw [seq, place_add, place_add, not_not, seq_le_int _ _ _ (by omega) (by omega), seq_le_int _ _ _ (by omega) (by omega)]
    omega
  unfold sndsegCut
  rw [if_neg reached]
  by_cases left : (i : Int) < v
  · have before : SEQLT (SEQ1ST b) (place isn v) := by
      rw [SEQ1ST, start, seq_lt_int _ _ _ (by omega) (by omega)]
      exact left
    obtain ⟨tcph, finCut, cut, seq, data, seg, last⟩ := cut_left_place isn b i start ok v e left ahead order (by omega) small
    obtain ⟨within, ends⟩ := fits v tcph seq data seg last (by omega)
    rw [if_pos before, cut]
    dsimp only
    rw [if_neg within]
    exact ⟨tcph, finCut, rfl, ends⟩
  · have before : ¬ SEQLT (SEQ1ST b) (place isn v) := by
      rw [SEQ1ST, start, seq_lt_int _ _ _ (by omega) (by omega)]
      exact left
    obtain ⟨tcph, finCut, cut, seq, data, seg, last⟩ := cut_right_place isn b i start ok e inside (by omega) small
    obtain ⟨within, ends⟩ := fits i tcph seq data seg last (by omega)
    rw [if_neg before, cut]
    dsimp only
    rw [if_neg within]
    exact ⟨tcph, finCut, rfl, ends⟩

end Placed

-- What makes a call meet, in positions of the stream.
theorem meets_of_places (c : SegCall) (isn : Seq) (i : Nat) (v e : Int) (start : c.b.th.seq = place isn i) (ok : SegOk c.b.th)
    (first : c.wnd1st = place isn v) (last : c.wndnxt = place isn e) (ahead : v < i + (items c.b.th).length)
    (inside : (i : Int) < e) (order : v < e) (near : (i : Int) ≤ v + 400000) (near' : e ≤ i + 400000)
    (small : (items c.b.th).length ≤ 65537) : Meets c where
  common := by
    have some : 0 < (items c.b.th).length := List.length_pos_of_ne_nil ok.some
    refine ⟨place isn (max v i), ?_⟩
    rw [first, last, seq_end_place isn i c.b start ok, SEQ1ST, start, seq_le_int _ _ _ (by omega) (by omega),
      seq_lt_int _ _ _ (by omega) (by omega), seq_le_int _ _ _ (by omega) (by omega), seq_lt_int _ _ _ (by omega) (by omega)]
    omega
  piece := by
    rw [first, last]
    exact cut_place isn c.b i start ok v e ahead inside order near near' small

end MagxNet.Tcp
