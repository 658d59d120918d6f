import MagxNet.Tcp.LedgerEvents

set_option autoImplicit false

namespace MagxNet.Tcp

open Bytes Serial

theorem data_length_append (front rest : List Dgram) : dataLen (front ++ rest) = dataLen front + dataLen rest := by
  rw [dataLen, List.map_append, List.sum_append]
  rfl

theorem data_length_one (th : Dgram) : dataLen [th] = th.urgptr.toNat := by
  simp [dataLen]

theorem marks_append (front rest : List Item) : marks (front ++ rest) = marks front + marks rest :=
  List.countP_append

-- The ledger after more was written: the queue ends in other segments, and the stream is longer.
def Ledger.append (l : Ledger) (segs : List Dgram) (more : List Item) (n : Nat) : Ledger :=
  { l with
    segs := segs
    stream := l.stream ++ more
    write := l.write + BitVec.ofNat 32 more.length
    count := l.count + BitVec.ofNat 32 n }

theorem marks_bytes (bytes : List Byte) : marks (bytes.map Item.byte) = 0 := by
  unfold marks
  rw [List.countP_eq_zero]
  intro item member
  obtain ⟨b, -, rfl⟩ := List.mem_map.mp member
  simp [Item.isByte]

theorem kept_written {l : Ledger} {s u m : Nat} (kept : Kept l s u m) (segs : List Dgram) (more : List Item) (n : Nat)
    (lined : Lined l.isn s segs) (content : segs.flatMap items = l.stream.drop s ++ more)
    (count : dataLen segs = dataLen l.segs + n) (fits : dataLen l.segs + n ≤ 65535)
    (few : marks l.stream + marks more ≤ 2) : Kept (l.append segs more n) s u m := by
  have started := kept.started
  have written := kept.written
  refine ⟨kept.una, kept.max, ?_, lined, ?_, kept.unacked, kept.sent, ?_, ?_, ?_, kept.room, kept.mss, ?_⟩
  · dsimp only [Ledger.append]
    rw [kept.write, ← BitVec.ofInt_natCast, place_add, List.length_append, Nat.cast_add]
  · dsimp only [Ledger.append]
    rw [content, List.drop_append_of_le_length started]
  · dsimp only [Ledger.append]
    rw [List.length_append]
    omega
  · dsimp only [Ledger.append]
    rw [kept.count, count, BitVec.ofNat_add]
  · dsimp only [Ledger.append]
    omega
  · dsimp only [Ledger.append]
    rw [marks_append]
    exact few

theorem items_fill (b : Buf) (bytes : List Byte) (fin : Bool) (ok : 5 ≤ b.th.hdrlen.toNat)
    (room : tcpHdrlen b.th ≤ TCP_MINLEN + b.th.body.length) (unfinished : b.th.flags.fin = false) :
    items (fillSeg b bytes fin).th = items b.th ++ (bytes.map Item.byte ++ (if fin then [.fin] else [])) := by
  have data : ∀ th : Dgram, th.hdrlen = b.th.hdrlen → th.body = b.th.body ++ bytes →
      tcpData th = tcpData b.th ++ bytes := by
    intro th hdrlen body
    have behind : b.th.hdrlen.toNat * 4 - TCP_MINLEN ≤ b.th.body.length := by
      unfold tcpHdrlen at room
      omega
    rw [data_of_options th (by rw [hdrlen]; exact ok), data_of_options b.th ok, tcpHdrlen, tcpHdrlen, hdrlen, body,
      List.drop_append_of_le_length behind]
  have filled : tcpData (fillSeg b bytes fin).th = tcpData b.th ++ bytes := by
    apply data
    · unfold fillSeg
      split <;> split <;> rfl
    · unfold fillSeg
      dsimp only
      by_cases empty : bytes.isEmpty
      · rw [if_pos empty, List.isEmpty_iff.mp empty, List.append_nil]
        split <;> rfl
      · rw [if_neg empty]
        split <;> rfl
  have syn : (fillSeg b bytes fin).th.flags.syn = b.th.flags.syn := by
    unfold fillSeg
    split <;> split <;> rfl
  have fin' : (fillSeg b bytes fin).th.flags.fin = fin := by
    unfold fillSeg
    cases fin with
    | true => rfl
    | false => split <;> exact unfinished
  unfold items
  rw [filled, syn, fin', unfinished, List.map_append]
  simp

theorem fill_urgptr (b : Buf) (bytes : List Byte) (fin : Bool) (fits : DATLEN b + bytes.length ≤ 65535) :
    (fillSeg b bytes fin).th.urgptr.toNat = DATLEN b + bytes.length := by
  have sum : (b.th.urgptr + BitVec.ofNat 16 bytes.length).toNat = DATLEN b + bytes.length := by
    rw [BitVec.toNat_add, BitVec.toNat_ofNat, Nat.add_mod_mod]
    exact Nat.mod_eq_of_lt (by unfold DATLEN at fits; omega)
  unfold fillSeg
  dsimp only
  by_cases empty : bytes.isEmpty
  · rw [if_pos empty, List.isEmpty_iff.mp empty]
    split <;> simp [DATLEN]
  · rw [if_neg empty]
    split <;> exact sum

theorem fill_ok (b : Buf) (bytes : List Byte) (fin : Bool) (header : 5 ≤ b.th.hdrlen.toNat)
    (room : tcpHdrlen b.th ≤ TCP_MINLEN + b.th.body.length) (datlen : b.th.urgptr.toNat = (tcpData b.th).length)
    (unfinished : b.th.flags.fin = false) (fits : DATLEN b + bytes.length ≤ 65535)
    (some : items b.th ++ (bytes.map Item.byte ++ (if fin then [.fin] else [])) ≠ []) :
    SegOk (fillSeg b bytes fin).th := by
  have hdrlen : (fillSeg b bytes fin).th.hdrlen = b.th.hdrlen := by
    unfold fillSeg
    split <;> split <;> rfl
  have body : (fillSeg b bytes fin).th.body = b.th.body ++ bytes := by
    unfold fillSeg
    dsimp only
    by_cases empty : bytes.isEmpty
    · rw [if_pos empty, List.isEmpty_iff.mp empty, List.append_nil]
      split <;> rfl
    · rw [if_neg empty]
      split <;> rfl
  have longer : tcpHdrlen (fillSeg b bytes fin).th ≤ TCP_MINLEN + (fillSeg b bytes fin).th.body.length := by
    unfold tcpHdrlen at room ⊢
    rw [hdrlen, body, List.length_append]
    omega
  refine ⟨by rw [hdrlen]; exact header, longer, ?_, ?_⟩
  · have length := data_length (fillSeg b bytes fin).th
    have length' := data_length b.th
    rw [fill_urgptr b bytes fin fits]
    rw [tcpDatalen] at length length'
    rw [body, List.length_append] at length longer
    have same : tcpHdrlen (fillSeg b bytes fin).th = tcpHdrlen b.th := by
      rw [tcpHdrlen, hdrlen]
      rfl
    rw [same] at length longer
    unfold DATLEN
    push_cast at length
    omega
  · rw [items_fill b bytes fin header room unfinished]
    exact some

theorem fill_seq (b : Buf) (bytes : List Byte) (fin : Bool) : (fillSeg b bytes fin).th.seq = b.th.seq := by
  unfold fillSeg
  split <;> split <;> rfl

theorem fin_in_items (th : Dgram) (fin : th.flags.fin) : Item.fin ∈ items th := by
  simp [items, fin]

-- What one round writes for its bytes: a SYN before the first, a FIN behind the last of them.
def roundItems (flags : Flags) (first : Bool) (bytes : List Byte) (r : Nat) : List Item :=
  (if first && flags.syn then [.syn] else [])
    ++ ((bytes.take r).map Item.byte ++ (if flags.fin && (bytes.drop r).isEmpty then [.fin] else []))

theorem last_segment {l : Ledger} {s u m : Nat} (kept : Kept l s u m) (front : List Dgram) (th : Dgram)
    (split : l.segs = front ++ [th]) (noFin : Item.fin ∉ l.stream) :
    SegOk th ∧ th.flags.fin = false := by
  obtain ⟨i, -, -, ok, -, -, content⟩ := kept.located front [] th split
  refine ⟨ok, Bool.eq_false_iff.mpr fun fin => noFin ?_⟩
  exact List.mem_of_mem_drop (content.subset (fin_in_items th fin))

theorem fill_last_ledger (w : World) (front : List Buf) (b : Buf) (bytes : List Byte) (fin : Bool)
    (queued : w.data.snd.q = front ++ [b]) :
    ledger (fillLast w b bytes fin)
      = { ledger w with
        segs := front.map Buf.th ++ [(fillSeg b bytes fin).th]
        stream := w.stream ++ (bytes.map Item.byte ++ (if fin then [.fin] else []))
        write := w.tcb.seqWrite + BitVec.ofNat 32 (bytes.map Item.byte ++ (if fin then [Item.fin] else [])).length } := by
  have segs : (w.data.snd.q.dropLast ++ [fillSeg b bytes fin]).map Buf.th
      = front.map Buf.th ++ [(fillSeg b bytes fin).th] := by
    rw [queued, List.dropLast_concat, List.map_append]
    rfl
  have length : (bytes.map Item.byte ++ (if fin then [Item.fin] else [])).length
      = bytes.length + (if fin then 1 else 0) := by
    cases fin <;> simp
  rw [length, ← segs]
  rfl

-- The last segment has room: it takes r bytes.
theorem combine_keeps (w : World) (front : List Buf) (b : Buf) (bytes : List Byte) (fin : Bool)
    (queued : w.data.snd.q = front ++ [b]) {s u m : Nat} (kept : Kept (ledger w) s u m)
    (noFin : Item.fin ∉ w.stream) (fits : dataLen (ledger w).segs + bytes.length ≤ 65535)
    (few : marks w.stream + (if fin then 1 else 0) ≤ 2) :
    Kept (ledger (fillLast (growSnd w bytes.length) b bytes fin)) s u m
      ∧ dataLen (ledger (fillLast (growSnd w bytes.length) b bytes fin)).segs
        = dataLen (ledger w).segs + bytes.length := by
  have split : (ledger w).segs = front.map Buf.th ++ [b.th] := by
    change w.data.snd.q.map Buf.th = _
    rw [queued, List.map_append]
    rfl
  obtain ⟨ok, unfinished⟩ := last_segment kept _ b.th split noFin
  have lined := kept.lined
  have content := kept.content
  rw [split, lined_append] at lined
  have part : dataLen (ledger w).segs = dataLen (front.map Buf.th) + DATLEN b := by
    rw [split, data_length_append, data_length_one]
    rfl
  have small : DATLEN b + bytes.length ≤ 65535 := by omega
  have fillItems := items_fill b bytes fin ok.header ok.room unfinished
  have some : items b.th ++ (bytes.map Item.byte ++ (if fin then [.fin] else [])) ≠ [] := by simp [ok.some]
  have filled := fill_ok b bytes fin ok.header ok.room ok.datlen unfinished small some
  have total : dataLen (front.map Buf.th ++ [(fillSeg b bytes fin).th])
      = dataLen (ledger w).segs + bytes.length := by
    rw [data_length_append, data_length_one, fill_urgptr b bytes fin small, part, Nat.add_assoc]
  have new := kept_written kept (front.map Buf.th ++ [(fillSeg b bytes fin).th])
    (bytes.map Item.byte ++ (if fin then [.fin] else [])) bytes.length
    ((lined_append _ _ _ _).mpr ⟨lined.1, (fill_seq b bytes fin).trans lined.2.1, filled, trivial⟩)
    (by
      rw [split] at content
      rw [← content, List.flatMap_append, List.flatMap_append, List.append_assoc]
      simp [fillItems])
    total fits
    (by
      have none : marks (bytes.map Item.byte ++ (if fin then [.fin] else [])) = if fin then 1 else 0 := by
        rw [marks_append, marks_bytes]
        cases fin <;> simp [marks, Item.isByte]
      rw [none]
      exact few)
  rw [fill_last_ledger (growSnd w bytes.length) front b bytes fin queued]
  exact ⟨new, total⟩

theorem fresh_segment (w : World) (id : Nat) (flags : Flags) (first : Bool) :
    5 ≤ (freshSeg w id flags first).th.hdrlen.toNat
      ∧ tcpHdrlen (freshSeg w id flags first).th ≤ TCP_MINLEN + (freshSeg w id flags first).th.body.length
      ∧ tcpData (freshSeg w id flags first).th = []
      ∧ DATLEN (freshSeg w id flags first) = 0
      ∧ (freshSeg w id flags first).th.flags.fin = false
      ∧ (freshSeg w id flags first).th.seq = w.tcb.seqWrite
      ∧ items (freshSeg w id flags first).th = if first && flags.syn then [.syn] else [] := by
  unfold freshSeg
  dsimp only
  by_cases opens : first ∧ flags.syn
  · have data : ∀ th : Dgram, th.hdrlen = 6 → th.body = mssOption w.tcb.rcvMss → tcpData th = [] := by
      intro th hdrlen body
      rw [data_of_options th (by rw [hdrlen]; decide), tcpHdrlen, hdrlen, body]
      rfl
    rw [if_pos opens]
    have none := data { (⟨w.data.sport, w.data.dport, w.tcb.seqWrite, w.tcb.rcvNxt, 5, false,
      { flags with syn := false, fin := false }, 0, 0, 0, []⟩ : Dgram) with
        flags.syn := true, hdrlen := 6, body := mssOption w.tcb.rcvMss } rfl rfl
    refine ⟨by show 5 ≤ (6 : BitVec 4).toNat; decide, Nat.le_refl 24, none, rfl, rfl, rfl, ?_⟩
    rw [items, none]
    simp [opens]
  · have data : ∀ th : Dgram, th.hdrlen = 5 → th.body = [] → tcpData th = [] := by
      intro th hdrlen body
      rw [data_of_options th (by rw [hdrlen]; decide), body, List.drop_nil]
    rw [if_neg opens]
    have none := data { (⟨w.data.sport, w.data.dport, w.tcb.seqWrite, w.tcb.rcvNxt, 5, false,
      { flags with syn := false, fin := false }, 0, 0, 0, []⟩ : Dgram) with flags.ack := true } rfl rfl
    refine ⟨by show 5 ≤ (5 : BitVec 4).toNat; decide, Nat.le_refl 20, none, rfl, rfl, rfl, ?_⟩
    have opens' : (first && flags.syn) = false := by simpa using opens
    rw [items, none, opens']
    rfl

theorem fresh_syn (w : World) (id : Nat) (flags : Flags) (first : Bool) :
    (freshSeg w id flags first).th.flags.syn = (first && flags.syn) := by
  unfold freshSeg
  cases first <;> cases flags.syn <;> rfl

theorem fresh_queue (w : World) (id : Nat) (flags : Flags) (first : Bool) (r : Nat) :
    (outputFresh w id flags first r).data.snd.q = w.data.snd.q ++ [freshSeg w id flags first] := by
  unfold outputFresh writeSyn
  split <;> rfl

theorem fresh_ledger (w : World) (id : Nat) (flags : Flags) (first : Bool) (bytes : List Byte) (fin : Bool)
    (counted : (ledger w).count = BitVec.ofNat 32 (dataLen (ledger w).segs)) :
    ledger (fillLast (outputFresh w id flags first bytes.length) (freshSeg w id flags first) bytes fin)
      = (ledger w).append ((ledger w).segs ++ [(fillSeg (freshSeg w id flags first) bytes fin).th])
        ((if first && flags.syn then [.syn] else []) ++ (bytes.map Item.byte ++ (if fin then [.fin] else [])))
        bytes.length := by
  have count : (if w.data.snd.q.isEmpty then 0 else w.data.snd.curdatalen) = w.data.snd.curdatalen := by
    split
    · rename_i empty
      have none : w.data.snd.q = [] := List.isEmpty_iff.mp empty
      change w.data.snd.curdatalen = BitVec.ofNat 32 (dataLen (w.data.snd.q.map Buf.th)) at counted
      rw [counted, none]
      rfl
    · rfl
  have length : (bytes.map Item.byte ++ (if fin then [Item.fin] else [])).length
      = bytes.length + (if fin then 1 else 0) := by
    cases fin <;> simp
  have queue := fresh_queue w id flags first bytes.length
  have written : ledger (outputFresh w id flags first bytes.length)
      = { ledger w with
        segs := (ledger w).segs ++ [(freshSeg w id flags first).th]
        stream := w.stream ++ (if first && flags.syn then [.syn] else [])
        write := w.tcb.seqWrite + BitVec.ofNat 32 (if first && flags.syn then [Item.syn] else []).length
        count := w.data.snd.curdatalen + BitVec.ofNat 32 bytes.length } := by
    unfold outputFresh writeSyn
    rw [fresh_syn]
    unfold ledger enqueue
    dsimp only
    rw [count]
    cases (first && flags.syn)
    · simp
    · simp
  rw [fill_last_ledger _ w.data.snd.q _ bytes fin queue, written]
  have stream := congrArg Ledger.stream written
  have write := congrArg Ledger.write written
  change (outputFresh w id flags first bytes.length).stream = _ at stream
  change (outputFresh w id flags first bytes.length).tcb.seqWrite = _ at write
  unfold Ledger.append
  rw [stream, write, length]
  dsimp only
  rw [List.length_append, length, BitVec.add_assoc, ← BitVec.ofNat_add, List.append_assoc]
  rfl

theorem fresh_keeps (w : World) (id : Nat) (flags : Flags) (first : Bool) (bytes : List Byte) (fin : Bool)
    {s u m : Nat} (kept : Kept (ledger w) s u m)
    (fits : dataLen (ledger w).segs + bytes.length ≤ 65535)
    (few : marks w.stream + (if first && flags.syn then 1 else 0) + (if fin then 1 else 0) ≤ 2)
    (some : bytes ≠ [] ∨ (first && flags.syn) ∨ fin) :
    Kept (ledger (fillLast (outputFresh w id flags first bytes.length) (freshSeg w id flags first) bytes fin)) s u m
      ∧ dataLen (ledger (fillLast (outputFresh w id flags first bytes.length) (freshSeg w id flags first) bytes
        fin)).segs = dataLen (ledger w).segs + bytes.length := by
  obtain ⟨header, room, data, datlen, unfinished, seq, syn⟩ := fresh_segment w id flags first
  have small : DATLEN (freshSeg w id flags first) + bytes.length ≤ 65535 := by omega
  have fillItems := items_fill (freshSeg w id flags first) bytes fin header room unfinished
  rw [syn] at fillItems
  have filled := fill_ok (freshSeg w id flags first) bytes fin header room (by rw [data]; exact datlen) unfinished small
    (by
      rw [syn]
      obtain real | opens | ends := some
      · simp [real]
      · simp [opens]
      · simp [ends])
  have total : dataLen ((ledger w).segs ++ [(fillSeg (freshSeg w id flags first) bytes fin).th])
      = dataLen (ledger w).segs + bytes.length := by
    rw [data_length_append, data_length_one, fill_urgptr _ bytes fin small, datlen, Nat.zero_add]
  rw [fresh_ledger w id flags first bytes fin kept.count]
  refine ⟨kept_written kept _ _ bytes.length ?_ ?_ total fits ?_, total⟩
  · rw [lined_append]
    refine ⟨kept.lined, ?_, filled, trivial⟩
    rw [fill_seq, seq, ← kept.span]
    exact kept.write
  · rw [List.flatMap_append, kept.content, List.flatMap_cons, List.flatMap_nil, List.append_nil, fillItems]
  · have none : marks ((if first && flags.syn then [.syn] else []) ++ (bytes.map Item.byte ++ (if fin then [.fin] else [])))
        = (if first && flags.syn then 1 else 0) + (if fin then 1 else 0) := by
      rw [marks_append, marks_append, marks_bytes]
      cases (first && flags.syn) <;> cases fin <;> simp [marks, Item.isByte]
    rw [none]
    change marks w.stream + _ ≤ 2
    omega

end MagxNet.Tcp
