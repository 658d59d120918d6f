import MagxNet.Tcp.Books

set_option autoImplicit false

namespace MagxNet.Tcp

open Bytes Serial

-- The send queue as other code relies on it.
structure QueueSound (w : World) : Prop where
  count : w.data.snd.curdatalen.toInt = (w.data.snd.q.map DATLEN).sum
  abut : w.data.snd.q.IsChain fun b c => SEQ1ST c = seqEnd b
  ends : ∀ b, w.data.snd.q.getLast? = some b → seqEnd b = w.tcb.seqWrite

theorem lined_end (isn : Seq) (i : Nat) (b : Buf) (seq : b.th.seq = place isn i) (ok : SegOk b.th) :
    seqEnd b = place isn ((i + (items b.th).length : Nat) : Int) := by
  rw [seqEnd, items_length b.th ok, seq, place_add, Nat.cast_add]

theorem lined_abut (isn : Seq) (q : List Buf) (i : Nat) (lined : Lined isn i (q.map Buf.th)) :
    q.IsChain (fun b c => SEQ1ST c = seqEnd b)
      ∧ ∀ b, q.getLast? = some b → seqEnd b = place isn ((i + ((q.map Buf.th).flatMap items).length : Nat) : Int) := by
  induction q generalizing i with
  | nil => exact ⟨List.IsChain.nil, fun b last => by cases last⟩
  | cons b rest ih =>
      obtain ⟨seq, ok, later⟩ := lined
      obtain ⟨chain, ends⟩ := ih _ later
      have here := lined_end isn i b seq ok
      cases rest with
      | nil =>
          refine ⟨List.IsChain.singleton b, fun c last => ?_⟩
          obtain rfl := Option.some.inj last
          simpa using here
      | cons c rest =>
          refine ⟨List.IsChain.cons_cons ?_ chain, fun d last => ?_⟩
          · rw [here]
            exact later.1
          · rw [List.getLast?_cons_cons] at last
            rw [ends d last, Nat.add_assoc, ← List.length_append]
            rfl

theorem queue_sound_kept (w : World) {s u m : Nat} (kept : Kept (ledger w) s u m) : QueueSound w := by
  obtain ⟨abut, ends⟩ := lined_abut w.tcb.sndIsn w.data.snd.q s kept.lined
  refine ⟨?_, abut, fun b last => ?_⟩
  · have count : w.data.snd.curdatalen = BitVec.ofNat 32 (dataLen (ledger w).segs) := kept.count
    have fits := kept.fits
    have same : (w.data.snd.q.map DATLEN).sum = dataLen (ledger w).segs := by
      unfold dataLen ledger
      rw [List.map_map]
      rfl
    rw [same, count, ← BitVec.ofInt_natCast, BitVec.toInt_ofInt, Int.bmod_eq_of_le_mul_two] <;> omega
  · have write : w.tcb.seqWrite = place w.tcb.sndIsn w.stream.length := kept.write
    have span := kept.span
    change w.stream.length = s + ((w.data.snd.q.map Buf.th).flatMap items).length at span
    rw [ends b last, write, span]

theorem queue_sound_booked (w : World) (alive : w.alive) (booked : Booked (sendSide w)) : QueueSound w := by
  obtain reset | ⟨books, -⟩ := booked alive
  · obtain ⟨-, -, empty, count⟩ := reset
    have none : w.data.snd.q = [] := List.map_eq_nil_iff.mp empty
    have zero : w.data.snd.curdatalen = 0 := count
    refine ⟨?_, ?_, fun b last => ?_⟩
    · rw [none, zero]
      rfl
    · rw [none]
      exact List.IsChain.nil
    · rw [none] at last
      cases last
  · obtain ⟨s, u, m, kept⟩ := books.kept
    exact queue_sound_kept w kept

-- How many new segments tcp_output asks memory for: the last one on the queue may have room.
def segsAsked (w : World) (n : Nat) (flags : Flags) : Nat :=
  (n - (combineRoom w flags).toNat + ((w.tcb.sndMss - TCP_MAXRETRY).toNat - 1)) / (w.tcb.sndMss - TCP_MAXRETRY).toNat

-- One of the buffers that tcp_output asks for is refused.
def Starved (env : Env) (w : World) (n : Nat) (flags : Flags) : Prop :=
  ∃ i < segsAsked w n flags, env.memory (w.net.allocs + i) = false

theorem fill_info (b : Buf) (bytes : List Byte) : (fillSeg b bytes false).info = b.info := rfl

-- A segment that took all it had room for has none left.
theorem full_room (w : World) (b : Buf) (bytes : List Byte) (flags : Flags) (full : b.info - DATLEN b ≤ bytes.length)
    (fits : DATLEN b + bytes.length ≤ 65535) : combineRoom (fillLast w b bytes false) flags ≤ 0 := by
  have last : (fillLast w b bytes false).data.snd.q.getLast? = some (fillSeg b bytes false) := List.getLast?_concat
  have length : DATLEN (fillSeg b bytes false) = DATLEN b + bytes.length := fill_urgptr b bytes false fits
  unfold combineRoom
  rw [last]
  dsimp only
  split
  · rw [fill_info, length, Nat.cast_add]
    omega
  · exact le_refl 0

-- What a round that leaves something over has taken, and what it has asked for.
structure Rounded (env : Env) (w w1 : World) (flags : Flags) (n rest : Nat) : Prop where
  full : combineRoom w1 flags ≤ 0
  mss : w1.tcb.sndMss = w.tcb.sndMss
  took : combineRoom w flags > 0 ∧ w1.net.allocs = w.net.allocs ∧ (rest : Int) = n - combineRoom w flags
    ∨ combineRoom w flags ≤ 0 ∧ w1.net.allocs = w.net.allocs + 1 ∧ (rest : Int) = n - (w.tcb.sndMss - TCP_MAXRETRY)

theorem last_data (w : World) (b : Buf) (atLast : w.data.snd.q.getLast? = some b) : DATLEN b ≤ dataLen (ledger w).segs := by
  have split : (ledger w).segs = w.data.snd.q.dropLast.map Buf.th ++ [b.th] := by
    change w.data.snd.q.map Buf.th = _
    conv_lhs => rw [← List.dropLast_append_getLast? b atLast, List.map_append]
    rfl
  rw [split, data_length_append, data_length_one]
  exact Nat.le_add_left _ _

theorem combine_rounded (env : Env) (w : World) (b : Buf) (bytes : List Byte) (flags : Flags)
    (atLast : w.data.snd.q.getLast? = some b) (room : combineRoom w flags > 0)
    (fits : dataLen (ledger w).segs + bytes.length ≤ 65535) (beyond : combineRoom w flags < bytes.length) :
    Rounded env w (outputFill (growSnd w (combineRoom w flags).toNat) bytes (combineRoom w flags).toNat flags.fin) flags
      bytes.length (bytes.length - (combineRoom w flags).toNat) := by
  have space : combineRoom w flags = b.info - DATLEN b := by
    unfold combineRoom at room ⊢
    rw [atLast] at room ⊢
    dsimp only at room ⊢
    split at room
    · rename_i fits
      rw [if_pos fits]
    · omega
  have data := last_data w b atLast
  have more : (bytes.drop (combineRoom w flags).toNat).isEmpty = false := by
    rw [List.isEmpty_eq_false_iff, ne_eq, List.drop_eq_nil_iff]
    omega
  have length : (bytes.take (combineRoom w flags).toNat).length = (combineRoom w flags).toNat :=
    List.length_take_of_le (by omega)
  have filled : outputFill (growSnd w (combineRoom w flags).toNat) bytes (combineRoom w flags).toNat flags.fin
      = fillLast (growSnd w (combineRoom w flags).toNat) b (bytes.take (combineRoom w flags).toNat) false := by
    unfold outputFill
    rw [show (growSnd w (combineRoom w flags).toNat).data.snd.q.getLast? = some b from atLast, more, Bool.and_false]
  rw [filled]
  exact ⟨full_room _ b _ flags (by omega) (by omega), rfl, Or.inl ⟨room, rfl, by omega⟩⟩

theorem fresh_rounded (env : Env) (w w1 : World) (id : Nat) (bytes : List Byte) (flags : Flags) (first : Bool)
    (got : bufAlloc env w = (some id, w1)) (room : combineRoom w flags ≤ 0) (mss : 0 ≤ w.tcb.sndMss - TCP_MAXRETRY)
    (fits : bytes.length ≤ 65535) (beyond : w.tcb.sndMss - TCP_MAXRETRY < bytes.length) :
    Rounded env w (outputFill (outputFresh w1 id flags first (w.tcb.sndMss - TCP_MAXRETRY).toNat) bytes
      (w.tcb.sndMss - TCP_MAXRETRY).toNat flags.fin) flags bytes.length
      (bytes.length - (w.tcb.sndMss - TCP_MAXRETRY).toNat) := by
  obtain ⟨-, rfl⟩ := Prod.mk.inj got
  have more : (bytes.drop (w.tcb.sndMss - TCP_MAXRETRY).toNat).isEmpty = false := by
    rw [List.isEmpty_eq_false_iff, ne_eq, List.drop_eq_nil_iff]
    omega
  have length : (bytes.take (w.tcb.sndMss - TCP_MAXRETRY).toNat).length = (w.tcb.sndMss - TCP_MAXRETRY).toNat :=
    List.length_take_of_le (by omega)
  generalize made : outputFresh _ id flags first _ = w2
  have atLast : w2.data.snd.q.getLast? = some (freshSeg { w with net.allocs := w.net.allocs + 1 } id flags first) := by
    rw [← made, fresh_queue, List.getLast?_concat]
  have filled : outputFill w2 bytes (w.tcb.sndMss - TCP_MAXRETRY).toNat flags.fin
      = fillLast w2 (freshSeg { w with net.allocs := w.net.allocs + 1 } id flags first)
        (bytes.take (w.tcb.sndMss - TCP_MAXRETRY).toNat) false := by
    unfold outputFill
    rw [atLast, more, Bool.and_false]
  have same : unwritten w2 = unwritten w := by
    rw [← made, unwritten_fresh]
    rfl
  have allocs : w2.net.allocs = w.net.allocs + 1 := by
    rw [← made]
    unfold outputFresh writeSyn
    split <;> rfl
  obtain ⟨-, -, -, empty, -⟩ := fresh_segment { w with net.allocs := w.net.allocs + 1 } id flags first
  have info : (freshSeg { w with net.allocs := w.net.allocs + 1 } id flags first).info = w.tcb.sndMss - TCP_MAXRETRY := rfl
  rw [filled]
  refine ⟨full_room _ _ _ flags (by omega) (by omega), ?_, Or.inr ⟨room, allocs, by omega⟩⟩
  exact unwritten_same (·.tcb.sndMss) w w2 same fun _ => rfl

theorem round_over (env : Env) (w w1 : World) (bytes rest : List Byte) (flags : Flags) (first : Bool)
    (got : outputRound env w bytes flags first = (some rest, w1)) (more : rest ≠ [])
    (mss : 0 ≤ w.tcb.sndMss - TCP_MAXRETRY) (fits : dataLen (ledger w).segs + bytes.length ≤ 65535) :
    Rounded env w w1 flags bytes.length rest.length := by
  have short : ∀ room : Int, 0 ≤ room → rest = bytes.drop (min room bytes.length).toNat → room < bytes.length := by
    intro room some isRest
    have left := List.length_pos_of_ne_nil more
    rw [isRest, List.length_drop] at left
    omega
  unfold outputRound outputRoom at got
  by_cases room : combineRoom w flags > 0
  · rw [if_pos room] at got
    obtain ⟨isRest, rfl⟩ := Prod.mk.inj got
    obtain ⟨b, atLast, -⟩ := combine_room w flags room
    have beyond := short _ room.le (Option.some.inj isRest).symm
    have whole : (min (combineRoom w flags) bytes.length) = combineRoom w flags := by omega
    rw [← Option.some.inj isRest, whole, List.length_drop]
    exact combine_rounded env w b bytes flags atLast room fits beyond
  · rw [if_neg room] at got
    cases alloc : bufAlloc env w with
    | mk id w2 =>
        rw [alloc] at got
        cases id with
        | none => cases got
        | some id =>
            dsimp only at got
            obtain ⟨isRest, rfl⟩ := Prod.mk.inj got
            have beyond := short _ mss (Option.some.inj isRest).symm
            have whole : (min (w.tcb.sndMss - TCP_MAXRETRY) bytes.length) = w.tcb.sndMss - TCP_MAXRETRY := by omega
            rw [← Option.some.inj isRest, whole, List.length_drop]
            exact fresh_rounded env w w2 id bytes flags first alloc (not_lt.mp room) mss (by omega) beyond

theorem round_refused (env : Env) (w w1 : World) (bytes : List Byte) (flags : Flags) (first : Bool)
    (got : outputRound env w bytes flags first = (none, w1)) :
    combineRoom w flags ≤ 0 ∧ env.memory w.net.allocs = false := by
  unfold outputRound outputRoom bufAlloc at got
  by_cases room : combineRoom w flags > 0
  · rw [if_pos room] at got
    cases got
  · rw [if_neg room] at got
    refine ⟨not_lt.mp room, ?_⟩
    cases memory : env.memory w.net.allocs with
    | false => rfl
    | true =>
        rw [memory] at got
        cases got

theorem rounded_asked (env : Env) (w w1 : World) (flags : Flags) (n rest : Nat) (rounded : Rounded env w w1 flags n rest)
    (mss : 0 < w.tcb.sndMss - TCP_MAXRETRY) :
    w.net.allocs + segsAsked w n flags = w1.net.allocs + segsAsked w1 rest flags ∧ w.net.allocs ≤ w1.net.allocs := by
  have full := rounded.full
  unfold segsAsked
  rw [rounded.mss]
  obtain ⟨room, allocs, left⟩ | ⟨room, allocs, left⟩ := rounded.took
  · have same : n - (combineRoom w flags).toNat = rest - (combineRoom w1 flags).toNat := by omega
    rw [same, allocs]
    exact ⟨rfl, le_refl _⟩
  · have more : n - (combineRoom w flags).toNat + ((w.tcb.sndMss - TCP_MAXRETRY).toNat - 1)
        = rest - (combineRoom w1 flags).toNat + ((w.tcb.sndMss - TCP_MAXRETRY).toNat - 1)
          + (w.tcb.sndMss - TCP_MAXRETRY).toNat := by omega
    rw [more, Nat.add_div_right _ (by omega), allocs]
    omega

-- As long as no buffer is refused, everything gets onto the queue.
theorem served_loop (env : Env) (flags : Flags) (fuel : Nat) (w : World) (bytes : List Byte) (first : Bool)
    {s u m : Nat} (enough : bytes.length < fuel) (kept : Kept (ledger w) s u m) (noFin : Item.fin ∉ w.stream)
    (fits : dataLen (ledger w).segs + bytes.length ≤ 65535) (few : marks w.stream ≤ 1) (noSyn : flags.syn = false)
    (plain : flags.fin = false) (real : bytes ≠ []) (served : ¬ Starved env w bytes.length flags) :
    (outputLoop env flags fuel w bytes first).1 = some 0 := by
  induction fuel generalizing w bytes first with
  | zero => omega
  | succ fuel ih =>
      have mss : 0 < w.tcb.sndMss - TCP_MAXRETRY := by
        have bounds : 32 ≤ w.tcb.sndMss := kept.mss.1
        have retry : TCP_MAXRETRY = 15 := rfl
        omega
      rw [outputLoop]
      cases got : outputRound env w bytes flags first with
      | mk rest w1 =>
          cases rest with
          | none =>
              obtain ⟨full, refused⟩ := round_refused env w w1 bytes flags first got
              have some := List.length_pos_of_ne_nil real
              refine (served ⟨0, Nat.div_pos ?_ (by omega), refused⟩).elim
              omega
          | some rest =>
              cases rest with
              | nil => rfl
              | cons byte rest =>
                  have rounded := round_over env w w1 bytes _ flags first got (List.cons_ne_nil _ _) mss.le fits
                  obtain ⟨r, taken, isRest, grows, wrote⟩ := round_wrote env w w1 bytes _ flags first got kept noFin fits
                    (by simpa [noSyn, plain] using few.trans (by decide)) (Or.inl real)
                  have more : bytes.drop r ≠ [] := by
                    rw [← isRest]
                    exact List.cons_ne_nil _ _
                  have some := grows real
                  have length : (byte :: rest).length = bytes.length - r := by rw [isRest, List.length_drop]
                  have stream := wrote.stream
                  have dataLen := wrote.dataLen
                  obtain ⟨asked, later⟩ := rounded_asked env w w1 flags _ _ rounded mss
                  refine ih w1 (byte :: rest) false (by omega) wrote.kept ?_ (by omega) ?_ (List.cons_ne_nil _ _) ?_
                  · rw [stream, List.mem_append, not_or]
                    exact ⟨noFin, round_items_fin flags first bytes r (Or.inl plain)⟩
                  · rw [stream, marks_append, round_items_marks, noSyn, plain]
                    simpa using few
                  · rintro ⟨i, inside, refused⟩
                    refine served ⟨w1.net.allocs - w.net.allocs + i, by omega, ?_⟩
                    rw [← Nat.add_assoc, Nat.add_sub_cancel' later]
                    exact refused

theorem output_result (env : Env) (w : World) (bytes : List Byte) (flags : Flags) (real : bytes ≠ []) :
    (tcpOutput env w bytes flags).1 = (queued env w bytes flags).1.getD ENOMEM := by
  have writes : ¬ (bytes.isEmpty ∧ ¬ flags.syn ∧ ¬ flags.fin) := fun nothing => real (List.isEmpty_iff.mp nothing.1)
  unfold tcpOutput queued
  rw [if_neg writes]
  cases outputLoop env flags (bytes.length + 1) w bytes true with
  | mk ret w1 => cases ret <;> rfl

-- The output side is told only after the bytes are on the queue, and adds nothing to them.
theorem output_places (env : Env) (w : World) (bytes : List Byte) (flags : Flags) (real : bytes ≠ []) :
    (tcpOutput env w bytes flags).2.stream = (queued env w bytes flags).2.stream
      ∧ (tcpOutput env w bytes flags).2.tcb.seqWrite = (queued env w bytes flags).2.tcb.seqWrite := by
  rw [output_done env w bytes flags (Or.inl real)]
  obtain ended | runs := output_done_runs env flags (queued env w bytes flags)
  · obtain ⟨-, -, -, -, write, stream⟩ : _ ∧ _ ∧ _ ∧ _ ∧ _ ∧ _ := by simpa [sendPlaces] using ended.places
    exact ⟨stream, write⟩
  · exact ⟨incoming_same (·.stream) _ _ runs.1 fun _ => rfl, incoming_same (·.tcb.seqWrite) _ _ runs.1 fun _ => rfl⟩

-- What tcp_output has appended when it returns.
structure Appended (w w1 : World) (bytes : List Byte) (k : Nat) : Prop where
  stream : w1.stream = w.stream ++ (bytes.take k).map .byte
  write : w1.tcb.seqWrite = w.tcb.seqWrite + BitVec.ofNat 32 k

theorem queued_appended (env : Env) (w : World) (bytes : List Byte) (flags : Flags) {s u m : Nat}
    (kept : Kept (ledger w) s u m) (noFin : Item.fin ∉ w.stream) (few : marks w.stream ≤ 1)
    (fits : dataLen (ledger w).segs + bytes.length ≤ 65535) (real : bytes ≠ []) (noSyn : flags.syn = false)
    (plain : flags.fin = false) :
    ∃ k ≤ bytes.length, Appended w (queued env w bytes flags).2 bytes k
      ∧ ((queued env w bytes flags).1 = some 0 ∧ k = bytes.length
        ∨ (queued env w bytes flags).1.getD ENOMEM = ENOMEM ∧ Starved env w bytes.length flags) := by
  have starved : (queued env w bytes flags).1 ≠ some 0 → Starved env w bytes.length flags := by
    intro failed
    by_contra served
    exact failed (served_loop env flags _ w bytes true (Nat.lt_succ_self _) kept noFin fits few noSyn plain real served)
  have isn : (queued env w bytes flags).2.tcb.sndIsn = w.tcb.sndIsn :=
    unwritten_same (·.tcb.sndIsn) _ _ (unwritten_queued env w bytes flags) fun _ => rfl
  obtain ⟨-, none, same⟩ | ⟨k, taken, -, ended, wrote⟩ := queued_wrote env w bytes flags kept noFin fits
    (by simpa [noSyn, plain] using few.trans (by decide)) (Or.inl real)
  · refine ⟨0, Nat.zero_le _, ⟨?_, ?_⟩, Or.inr ⟨by rw [none]; rfl, starved (by rw [none]; decide)⟩⟩
    · rw [List.take_zero, List.map_nil, List.append_nil]
      exact congrArg Ledger.stream same
    · rw [BitVec.add_zero]
      exact congrArg Ledger.write same
  · have stream : (queued env w bytes flags).2.stream = w.stream ++ (bytes.take k).map .byte := by
      rw [wrote.stream, roundItems, noSyn, plain, Bool.and_false, Bool.false_and]
      simp
    refine ⟨k, taken, ⟨stream, ?_⟩, ?_⟩
    · have write : w.tcb.seqWrite = place w.tcb.sndIsn w.stream.length := kept.write
      have write' : (queued env w bytes flags).2.tcb.seqWrite
          = place (queued env w bytes flags).2.tcb.sndIsn (queued env w bytes flags).2.stream.length := wrote.kept.write
      rw [write', isn, stream, write, ← BitVec.ofInt_natCast, place_add, List.length_append, List.length_map,
        List.length_take_of_le taken, Nat.cast_add]
    · obtain ⟨done, whole⟩ | ⟨failed, part⟩ := ended
      · exact Or.inl ⟨done, whole⟩
      · refine Or.inr ⟨by rw [failed]; rfl, starved ?_⟩
        rw [failed]
        decide

-- tcp_send passes on as much as tcp_canwrite allows: a part of it is appended, all of it unless memory runs out.
theorem output_appended (env : Env) (w : World) (bytes : List Byte) (oob : Bool) (alive : w.alive)
    (booked : Booked (sendSide w)) (connects : connected w) (real : bytes ≠ [])
    (room : (bytes.length : Int) ≤ tcpCanwrite w) :
    ∃ k ≤ bytes.length, Appended w (tcpOutput env w bytes (if oob then TCPF_URG else Flags.none)).2 bytes k
      ∧ ((tcpOutput env w bytes (if oob then TCPF_URG else Flags.none)).1 = 0 ∧ k = bytes.length
        ∨ (tcpOutput env w bytes (if oob then TCPF_URG else Flags.none)).1 = ENOMEM
          ∧ Starved env w bytes.length (if oob then TCPF_URG else Flags.none)) := by
  have writes := writes_connected w connects
  obtain reset | ⟨books, -⟩ := booked alive
  · rw [show w.tcb.state = .closed from reset.1] at writes
    exact (writes_closed writes).elim
  · obtain ⟨s, u, m, kept⟩ := books.kept
    obtain ⟨noFin, few⟩ := books.unfinished writes
    obtain ⟨k, taken, ⟨stream, write⟩, ended⟩ := queued_appended env w bytes (if oob then TCPF_URG else Flags.none) kept
      noFin few (canwrite_fits w bytes.length kept (List.length_pos_of_ne_nil real) room) real
      (by cases oob <;> rfl) (by cases oob <;> rfl)
    obtain ⟨stream', write'⟩ := output_places env w bytes (if oob then TCPF_URG else Flags.none) real
    refine ⟨k, taken, ⟨stream'.trans stream, write'.trans write⟩, ?_⟩
    rw [output_result env w bytes _ real]
    obtain ⟨done, whole⟩ | failed := ended
    · exact Or.inl ⟨by rw [done]; rfl, whole⟩
    · exact Or.inr failed

end MagxNet.Tcp
