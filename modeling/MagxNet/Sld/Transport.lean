import MagxNet.Sld.Drivers
import MagxNet.Sld.Sending

set_option autoImplicit false

namespace MagxNet.Sld

open Bytes (Byte)

variable {τ π δ : Type}

-- From w to w' bytes of the device went into the ring.
structure Fed (w w' : Line τ π δ) : Prop where
  same : w' = { w with input := w'.input, fromDev := w'.fromDev }
  sound : w'.input.Sound
  size : w'.input.size = w.input.size
  bytes : ∃ bytes, w'.fromDev = w.fromDev ++ bytes ∧ w'.input.contents = w.input.contents ++ bytes

-- From w to w' bytes of the ring went to the device.
structure Drained (w w' : Line τ π δ) : Prop where
  same : w' = { w with output := w'.output, toDev := w'.toDev }
  sound : w'.output.Sound
  size : w'.output.size = w.output.size
  bytes : ∃ bytes, w'.toDev = w.toDev ++ bytes ∧ w.output.contents = bytes ++ w'.output.contents

theorem fed_refl (w : Line τ π δ) (sound : w.input.Sound) : Fed w w :=
  ⟨rfl, sound, rfl, [], (List.append_nil _).symm, (List.append_nil _).symm⟩

theorem fed_trans (w w1 w2 : Line τ π δ) (first : Fed w w1) (second : Fed w1 w2) : Fed w w2 := by
  obtain ⟨front, from1, contents1⟩ := first.bytes
  obtain ⟨back, from2, contents2⟩ := second.bytes
  refine ⟨?_, second.sound, second.size.trans first.size, front ++ back, ?_, ?_⟩
  · rw [second.same, first.same]
  · rw [from2, from1, List.append_assoc]
  · rw [contents2, contents1, List.append_assoc]

theorem drained_refl (w : Line τ π δ) (sound : w.output.Sound) : Drained w w :=
  ⟨rfl, sound, rfl, [], (List.append_nil _).symm, rfl⟩

theorem drained_trans (w w1 w2 : Line τ π δ) (first : Drained w w1) (second : Drained w1 w2) : Drained w w2 := by
  obtain ⟨front, to1, contents1⟩ := first.bytes
  obtain ⟨back, to2, contents2⟩ := second.bytes
  refine ⟨?_, second.sound, second.size.trans first.size, front ++ back, ?_, ?_⟩
  · rw [second.same, first.same]
  · rw [to2, to1, List.append_assoc]
  · rw [contents1, contents2, List.append_assoc]

-- A piece that is read ends before the cells do and before the tail.
theorem fread_fed (w : Line τ π δ) (nr : Int) (space : Nat) (answer : Option (List Byte)) (sound : w.input.Sound)
    (straight : w.input.head + space ≤ w.input.size) (room : space ≤ w.input.free) :
    Fed w (fread w nr space answer).2.2 := by
  cases answer with
  | none => exact fed_refl w sound
  | some found =>
      have short : (found.take space).length ≤ space := List.length_take_le _ _
      exact ⟨rfl, Circular.sound_fill _ _ sound (by omega), Circular.size_fill _ _ (by omega), found.take space, rfl,
        Circular.contents_fill _ _ sound (by omega) (by omega)⟩

theorem fwrite_drained (w : Line τ π δ) (nr : Int) (space : Nat) (answer : Option Nat) (sound : w.output.Sound)
    (straight : w.output.tail + space ≤ w.output.size) (held : space ≤ w.output.used) :
    Drained w (fwrite w nr space answer).2.2 := by
  cases answer with
  | none => exact drained_refl w sound
  | some takes =>
      refine ⟨rfl, Circular.sound_drop _ _ sound, rfl, w.output.contents.take (min takes space), ?_, ?_⟩
      · dsimp only [fwrite]
        rw [Circular.ahead_take _ _ sound (by omega) (by omega)]
      · dsimp only [fwrite]
        rw [Circular.contents_drop _ _ sound (by omega), List.take_append_drop]

theorem read_to_end_fed (w : Line τ π δ) (a : Answers) (sound : w.input.Sound) : Fed w (readToEnd w a).2.2 := by
  have head := sound.head
  have used := Circular.used_cases w.input sound
  have gap : (w.input.tail = 0 ∧ (if w.input.tail = 0 then 1 else 0) = 1)
      ∨ (w.input.tail ≠ 0 ∧ (if w.input.tail = 0 then 1 else 0) = 0) := by
    split
    · exact Or.inl ⟨by assumption, rfl⟩
    · exact Or.inr ⟨by assumption, rfl⟩
  unfold readToEnd
  by_cases piece : w.input.tail ≤ w.input.head ∧ w.input.size - w.input.head - (if w.input.tail = 0 then 1 else 0) > 0
  · rw [if_pos piece]
    apply fread_fed w _ _ _ sound
    · omega
    · unfold Circular.Buffer.free
      omega
  · rw [if_neg piece]
    exact fed_refl w sound

theorem read_from_start_fed (a : Answers) (w : Line τ π δ) (r nr : Int) (sound : w.input.Sound) :
    Fed w (readFromStart a (r, nr, w)).2.2 := by
  have tail := sound.tail
  have used := Circular.used_cases w.input sound
  dsimp only [readFromStart]
  split
  · apply fread_fed w _ _ _ sound
    · omega
    · unfold Circular.Buffer.free
      omega
  · exact fed_refl w sound

theorem write_to_end_drained (w : Line τ π δ) (a : Answers) (sound : w.output.Sound) : Drained w (writeToEnd w a).2.2 := by
  have used := Circular.used_cases w.output sound
  have tail := sound.tail
  unfold writeToEnd
  split
  · exact fwrite_drained w _ _ _ sound (by omega) (by omega)
  · exact drained_refl w sound

theorem write_from_start_drained (a : Answers) (w : Line τ π δ) (r nr : Int) (sound : w.output.Sound) :
    Drained w (writeFromStart a (r, nr, w)).2.2 := by
  have used := Circular.used_cases w.output sound
  have head := sound.head
  dsimp only [writeFromStart]
  split
  · exact fwrite_drained w _ _ _ sound (by omega) (by omega)
  · exact drained_refl w sound

-- What a line keeps at all times, whatever the device answers.
structure Kept (d : Driver τ π δ) (w : Line τ π δ) : Prop where
  inSound : w.input.Sound
  inSize : w.input.size = SL_IBUFSIZE
  outSound : w.output.Sound
  outSize : w.output.size = SL_OBUFSIZE
  roomy : Roomy (d.limit w.opt) w
  overrun : w.overrun = false
  received : w.seen ++ w.input.contents = w.fromDev
  sent : w.toDev ++ w.output.contents = w.put

-- Between two steps something waits for the device as long as anything waits, and then the flag is set.
structure Carried (d : Driver τ π δ) (w : Line τ π δ) : Prop extends Kept d w where
  begun : w.sndBuf ≠ none ∨ w.snd.qlen ≠ 0 → w.output.contents ≠ []
  sending : w.sending = true ↔ w.output.contents ≠ []

theorem opened_carried (d : Driver τ π δ) (opt : τ) (maxqlen : Nat) (curr : BitVec 16) (ibuf obuf : List Byte)
    (sizeIn : ibuf.length = SL_IBUFSIZE) (sizeOut : obuf.length = SL_OBUFSIZE) :
    Carried d (opened opt maxqlen curr ibuf obuf) := by
  have someIn : 0 < ibuf.length := by
    rw [sizeIn]
    decide
  have someOut : 0 < obuf.length := by
    rw [sizeOut]
    decide
  have outEmpty : Circular.Buffer.contents ⟨obuf, 0, 0⟩ = [] := (Circular.contents_nil_iff _ ⟨someOut, someOut⟩).mpr rfl
  refine ⟨⟨⟨someIn, someIn⟩, sizeIn, ⟨someOut, someOut⟩, sizeOut, ?_, rfl, ?_, outEmpty⟩, ?_, ?_⟩
  · intro b none'
    cases none'
  · exact (Circular.contents_nil_iff ⟨ibuf, 0, 0⟩ ⟨someIn, someIn⟩).mpr rfl
  · rintro (held | queued)
    · exact (held rfl).elim
    · exact (queued rfl).elim
  · simp [opened, outEmpty]

theorem set_sending_kept (d : Driver τ π δ) (w : Line τ π δ) (flag : Bool) (kept : Kept d w) :
    Kept d (setSending w flag) :=
  ⟨kept.inSound, kept.inSize, kept.outSound, kept.outSize, kept.roomy, kept.overrun, kept.received, kept.sent⟩

theorem kept_large (d : Driver τ π δ) (w : Line τ π δ) (kept : Kept d w) : 3 ≤ w.output.size := by
  rw [kept.outSize]
  decide

theorem puts_kept (d : Driver τ π δ) (w w' : Line τ π δ) (kept : Kept d w) (puts : Puts d w w') : Kept d w' := by
  have input : w'.input = w.input := congrArg Receiver.input puts.receiver
  have rcvBuf : w'.rcvBuf = w.rcvBuf := congrArg Receiver.rcvBuf puts.receiver
  have overrun : w'.overrun = w.overrun := congrArg Receiver.overrun puts.receiver
  have seen : w'.seen = w.seen := congrArg Receiver.seen puts.receiver
  have fromDev : w'.fromDev = w.fromDev := congrArg Receiver.fromDev puts.receiver
  have toDev : w'.toDev = w.toDev := congrArg Receiver.toDev puts.receiver
  obtain ⟨bytes, put, contents⟩ := puts.bytes
  refine ⟨?_, ?_, puts.sound, puts.size.trans kept.outSize, ?_, overrun.trans kept.overrun, ?_, ?_⟩
  · rw [input]
    exact kept.inSound
  · rw [input]
    exact kept.inSize
  · rw [puts.limit, Roomy, rcvBuf]
    exact kept.roomy
  · rw [input, seen, fromDev]
    exact kept.received
  · rw [toDev, put, contents, ← List.append_assoc, kept.sent]

theorem fed_kept (d : Driver τ π δ) (w w' : Line τ π δ) (kept : Kept d w) (fed : Fed w w') : Kept d w' := by
  obtain ⟨bytes, fromDev, contents⟩ := fed.bytes
  have received : w.seen ++ w'.input.contents = w'.fromDev := by
    rw [fromDev, contents, ← List.append_assoc, kept.received]
  rw [fed.same]
  exact ⟨fed.sound, fed.size.trans kept.inSize, kept.outSound, kept.outSize, kept.roomy, kept.overrun, received, kept.sent⟩

theorem drained_kept (d : Driver τ π δ) (w w' : Line τ π δ) (kept : Kept d w) (drained : Drained w w') : Kept d w' := by
  obtain ⟨bytes, toDev, contents⟩ := drained.bytes
  have sent : w'.toDev ++ w'.output.contents = w.put := by
    rw [toDev, List.append_assoc, ← contents, kept.sent]
  rw [drained.same]
  exact ⟨kept.inSound, kept.inSize, drained.sound, drained.size.trans kept.outSize, kept.roomy, kept.overrun, kept.received,
    sent⟩

theorem fed_carried (d : Driver τ π δ) (w w' : Line τ π δ) (carried : Carried d w) (fed : Fed w w') : Carried d w' := by
  refine ⟨fed_kept d w w' carried.toKept fed, ?_, ?_⟩
  · rw [fed.same]
    exact carried.begun
  · rw [fed.same]
    exact carried.sending

theorem reads_carried (d : Driver τ π δ) (tame : Tame d) (w w' : Line τ π δ) (carried : Carried d w)
    (reads : Reads d (d.limit w.opt) w w') : Carried d w' := by
  have limit := reads_limit d tame _ w w' reads
  have output : w'.output = w.output := congrArg Sender.output reads.sender
  have sndBuf : w'.sndBuf = w.sndBuf := congrArg Sender.sndBuf reads.sender
  have snd : w'.snd = w.snd := congrArg Sender.snd reads.sender
  have sending : w'.sending = w.sending := congrArg Sender.sending reads.sender
  have toDev : w'.toDev = w.toDev := congrArg Sender.toDev reads.sender
  have put : w'.put = w.put := congrArg Sender.put reads.sender
  have fromDev : w'.fromDev = w.fromDev := congrArg Sender.fromDev reads.sender
  obtain ⟨bytes, seen, contents, -, -⟩ := reads.bytes
  refine ⟨⟨reads.sound, reads.size.trans carried.inSize, ?_, ?_, ?_, reads.overrun.trans carried.overrun, ?_, ?_⟩, ?_, ?_⟩
  · rw [output]
    exact carried.outSound
  · rw [output]
    exact carried.outSize
  · rw [limit]
    exact reads.roomy
  · rw [seen, fromDev, List.append_assoc, ← contents, carried.received]
  · rw [toDev, output, put]
    exact carried.sent
  · rw [sndBuf, snd, output]
    exact carried.begun
  · rw [sending, output]
    exact carried.sending

theorem send_begun (d : Driver τ π δ) (tame : Tame d) (w : Line τ π δ) (kept : Kept d w) :
    Kept d (send d w)
      ∧ ((send d w).sndBuf ≠ none ∨ (send d w).snd.qlen ≠ 0 → (send d w).output.contents ≠ [])
      ∧ (w.snd.qlen ≠ 0 ∨ w.output.contents ≠ [] → (send d w).output.contents ≠ []) := by
  obtain ⟨puts, outcome⟩ := send_puts d tame w kept.outSound (kept_large d w kept)
  refine ⟨puts_kept d w _ kept puts, ?_, ?_⟩
  · intro waiting
    rcases outcome with ⟨noBuf, noQueue⟩ | busy
    · rcases waiting with held | queued
      · exact (held noBuf).elim
      · exact (queued noQueue).elim
    · exact busy
  · rintro (queued | busy)
    · rcases outcome with ⟨-, noQueue⟩ | busy
      · rcases puts.moved with same | busy
        · exact (queued (same.symm.trans noQueue)).elim
        · exact busy
      · exact busy
    · exact puts_busy d w _ puts busy

theorem enqueue_qlen (q q1 : Ifq π) (packet : π) (pri : BitVec 16) (queued : ifEnqueue q packet pri = some q1) :
    q1.qlen = q.qlen + 1 := by
  unfold ifEnqueue at queued
  split at queued
  · cases queued
  · split at queued
    · obtain rfl := Option.some.inj queued
      simp [Ifq.qlen]
      omega
    · obtain rfl := Option.some.inj queued
      simp [Ifq.qlen]
      omega

theorem output_carried (d : Driver τ π δ) (tame : Tame d) (w : Line τ π δ) (packet : π) (pri : BitVec 16)
    (carried : Carried d w) : Carried d (output d w packet pri) := by
  unfold output
  split
  · exact carried
  · cases queued : ifEnqueue w.snd packet pri with
    | none => exact carried
    | some snd =>
        have more := enqueue_qlen w.snd snd packet pri queued
        have kept : Kept d { w with snd := snd } := ⟨carried.inSound, carried.inSize, carried.outSound, carried.outSize,
          carried.roomy, carried.overrun, carried.received, carried.sent⟩
        dsimp only [serialSend]
        split
        · rename_i under
          exact ⟨kept, fun _ => carried.sending.mp under, carried.sending⟩
        · obtain ⟨kept1, begun, busy⟩ := send_begun d tame { w with snd := snd } kept
          have waits := busy (Or.inl (by dsimp only; omega))
          exact ⟨set_sending_kept d _ true kept1, begun, fun _ => waits, fun _ => rfl⟩

-- The flag is cleared for an empty ring only, and set again when the driver has put something.
theorem refill_carried (d : Driver τ π δ) (tame : Tame d) (w : Line τ π δ) (kept : Kept d w) (under : w.sending = true) :
    Carried d (refill d w) := by
  have edges := Circular.contents_nil_iff w.output kept.outSound
  have length := Circular.contents_length w.output kept.outSound
  have size := kept.outSize
  unfold refill
  split
  · let w0 := if w.output.tail = w.output.head then setSending w false else w
    have flag : w0.sending = true ↔ w.output.contents ≠ [] := by
      by_cases empty : w.output.tail = w.output.head
      · simp [w0, setSending, empty, edges]
      · simp [w0, empty, under, edges, Ne.symm empty]
    have kept0 : Kept d w0 ∧ w0.output = w.output := by
      by_cases empty : w.output.tail = w.output.head
      · have same : w0 = setSending w false := if_pos empty
        rw [same]
        exact ⟨set_sending_kept d w false kept, rfl⟩
      · have same : w0 = w := if_neg empty
        rw [same]
        exact ⟨kept, rfl⟩
    obtain ⟨kept1, begun, busy⟩ := send_begun d tame w0 kept0.1
    have puts := (send_puts d tame w0 kept0.1.outSound (kept_large d w0 kept0.1)).1
    have same : (send d w0).sending = w0.sending := congrArg Receiver.sending puts.receiver
    have edges1 := Circular.contents_nil_iff (send d w0).output kept1.outSound
    change Carried d (if (send d w0).output.head ≠ (send d w0).output.tail then setSending (send d w0) true else send d w0)
    split
    · rename_i some'
      have waits : (send d w0).output.contents ≠ [] := fun none' => some' (edges1.mp none')
      exact ⟨set_sending_kept d _ true kept1, begun, fun _ => waits, fun _ => rfl⟩
    · rename_i none'
      have empty := edges1.mpr (not_ne_iff.mp none')
      refine ⟨kept1, begun, ?_, fun waits => (waits empty).elim⟩
      rw [same, flag]
      intro waits
      exact busy (Or.inr (by rw [kept0.2]; exact waits))
  · rename_i full
    have waits : w.output.contents ≠ [] := by
      intro none'
      rw [none', List.length_nil] at length
      unfold Circular.Buffer.free at full
      rw [size, ← length] at full
      exact full (by decide)
    exact ⟨kept, fun _ => waits, fun _ => waits, fun _ => under⟩

theorem set_nread_carried (d : Driver τ π δ) (w : Line τ π δ) (nr : Int) (carried : Carried d w) :
    Carried d (setNread w nr) :=
  ⟨⟨carried.inSound, carried.inSize, carried.outSound, carried.outSize, carried.roomy, carried.overrun, carried.received,
    carried.sent⟩, carried.begun, carried.sending⟩

theorem set_nwrite_carried (d : Driver τ π δ) (w : Line τ π δ) (nr : Int) (carried : Carried d w) :
    Carried d (setNwrite w nr) :=
  ⟨⟨carried.inSound, carried.inSize, carried.outSound, carried.outSize, carried.roomy, carried.overrun, carried.received,
    carried.sent⟩, carried.begun, carried.sending⟩

-- The two pieces of a round that are read, and the two that are written.
theorem read_pieces_fed (w : Line τ π δ) (a : Answers) (sound : w.input.Sound) :
    Fed w (readFromStart a (readToEnd w a)).2.2 := by
  have first := read_to_end_fed w a sound
  exact fed_trans w _ _ first (read_from_start_fed a _ _ _ first.sound)

theorem write_pieces_drained (w : Line τ π δ) (a : Answers) (sound : w.output.Sound) :
    Drained w (writeFromStart a (writeToEnd w a)).2.2 := by
  have first := write_to_end_drained w a sound
  exact drained_trans w _ _ first (write_from_start_drained a _ _ _ first.sound)

theorem read_dev_carried (d : Driver τ π δ) (w : Line τ π δ) (a : Answers) (carried : Carried d w) :
    Carried d (readDev w a) := by
  unfold readDev
  split
  · exact set_nread_carried d _ _ (fed_carried d w _ carried (read_pieces_fed w a carried.inSound))
  · exact set_nread_carried d w _ carried

theorem write_dev_carried (d : Driver τ π δ) (tame : Tame d) (w : Line τ π δ) (a : Answers) (carried : Carried d w) :
    Carried d (writeDev d w a) := by
  unfold writeDev
  split
  · rename_i under
    split
    · have drained := write_pieces_drained w a carried.outSound
      have still : (writeFromStart a (writeToEnd w a)).2.2.sending = true :=
        (congrArg Line.sending drained.same).trans under
      exact set_nwrite_carried d _ _ (refill_carried d tame _ (drained_kept d w _ carried.toKept drained) still)
    · exact set_nwrite_carried d w _ carried
  · exact carried

theorem do_work_carried (d : Driver τ π δ) (tame : Tame d) (memory : Nat → Bool) (w w' : Line τ π δ) (a : Answers)
    (carried : Carried d w) (done : doWork d memory w a = some w') : Carried d w' := by
  have read := read_dev_carried d w a carried
  obtain ⟨w1, heard, rfl⟩ := Option.map_eq_some_iff.mp done
  apply write_dev_carried d tame w1 a
  split at heard
  · exact reads_carried d tame _ w1 read (recv_reads d tame memory _ w1 read.inSound read.roomy heard)
  · obtain rfl := Option.some.inj heard
    exact read

theorem step_carried (d : Driver τ π δ) (tame : Tame d) (w w' : Line τ π δ) (op : Op π) (carried : Carried d w)
    (done : step d w op = some w') : Carried d w' := by
  cases op with
  | output packet pri =>
      obtain rfl := Option.some.inj done
      exact output_carried d tame w packet pri carried
  | work memory a => exact do_work_carried d tame memory w w' a carried done

theorem reached_carried (d : Driver τ π δ) (tame : Tame d) (opt : τ) (w : Line τ π δ) (reached : Reached d opt w) :
    Carried d w :=
  reached_invariant d opt (Carried d) (opened_carried d opt)
    (fun w w' op carried done => step_carried d tame w w' op carried done) w reached

-- The device takes a byte at least from each piece.
structure Willing (w : Line τ π δ) (a : Answers) : Prop where
  room : a.nw ≥ w.output.used
  first : ∃ takes, 0 < takes ∧ a.write1 = some takes
  second : ∃ takes, 0 < takes ∧ a.write2 = some takes

theorem fwrite_some (w : Line τ π δ) (nr : Int) (space takes : Nat) (sound : w.output.Sound)
    (straight : w.output.tail + space ≤ w.output.size) (held : space ≤ w.output.used) (some' : 0 < space) (more : 0 < takes) :
    w.toDev.length < (fwrite w nr space (some takes)).2.2.toDev.length := by
  have length := Circular.contents_length w.output sound
  dsimp only [fwrite]
  rw [Circular.ahead_take _ _ sound (by omega) (by omega), List.length_append, List.length_take]
  omega

theorem write_pieces_some (w : Line τ π δ) (a : Answers) (sound : w.output.Sound) (willing : Willing w a)
    (waits : w.output.contents ≠ []) :
    w.toDev.length < (writeFromStart a (writeToEnd w a)).2.2.toDev.length := by
  have used := Circular.used_cases w.output sound
  have head := sound.head
  have tail := sound.tail
  have apart : w.output.head ≠ w.output.tail := fun same => waits ((Circular.contents_nil_iff _ sound).mpr same)
  obtain ⟨takes1, more1, first⟩ := willing.first
  obtain ⟨takes2, more2, second⟩ := willing.second
  by_cases round' : w.output.head < w.output.tail
  · have toEnd : writeToEnd w a = fwrite w a.nw (w.output.size - w.output.tail) (some takes1) := by
      rw [writeToEnd, if_pos (by omega), first]
    have one := fwrite_some w a.nw (w.output.size - w.output.tail) takes1 sound (by omega) (by omega) (by omega) more1
    have before := write_to_end_drained w a sound
    obtain ⟨bytes, toDev, -⟩ := (write_from_start_drained a (writeToEnd w a).2.2 (writeToEnd w a).1 (writeToEnd w a).2.1
      before.sound).bytes
    rw [← toEnd] at one
    have later := congrArg List.length toDev
    rw [List.length_append] at later
    exact Nat.lt_of_lt_of_le one (by rw [later]; exact Nat.le_add_right _ _)
  · have noEnd : writeToEnd w a = (1, a.nw, w) := by
      rw [writeToEnd, if_neg (by omega)]
    rw [noEnd, writeFromStart, if_pos (by omega), second]
    exact fwrite_some w a.nw (w.output.head - w.output.tail) takes2 sound (by omega) (by omega) (by omega) more2

theorem refill_to_dev (d : Driver τ π δ) (tame : Tame d) (w : Line τ π δ) (kept : Kept d w) :
    (refill d w).toDev = w.toDev := by
  have sent : ∀ w0 : Line τ π δ, Kept d w0 → (send d w0).toDev = w0.toDev := fun w0 kept0 =>
    congrArg Receiver.toDev (send_puts d tame w0 kept0.outSound (kept_large d w0 kept0)).1.receiver
  unfold refill
  split
  · by_cases empty : w.output.tail = w.output.head
    · have same := sent (setSending w false) (set_sending_kept d w false kept)
      rw [if_pos empty]
      dsimp only
      split <;> exact same
    · have same := sent w kept
      rw [if_neg empty]
      dsimp only
      split <;> exact same
  · rfl

-- Reading leaves alone what is written.
theorem read_dev_apart (w : Line τ π δ) (a : Answers) (sound : w.input.Sound) :
    (readDev w a).output = w.output ∧ (readDev w a).sending = w.sending ∧ (readDev w a).toDev = w.toDev := by
  unfold readDev
  split
  · have fed := read_pieces_fed w a sound
    have output : (readFromStart a (readToEnd w a)).2.2.output = w.output := (congrArg Line.output fed.same).trans rfl
    have sending : (readFromStart a (readToEnd w a)).2.2.sending = w.sending := (congrArg Line.sending fed.same).trans rfl
    have toDev : (readFromStart a (readToEnd w a)).2.2.toDev = w.toDev := (congrArg Line.toDev fed.same).trans rfl
    exact ⟨output, sending, toDev⟩
  · exact ⟨rfl, rfl, rfl⟩

theorem heard_apart (d : Driver τ π δ) (tame : Tame d) (memory : Nat → Bool) (w w1 : Line τ π δ) (a : Answers)
    (carried : Carried d w)
    (heard : (if (readDev w a).input.head ≠ (readDev w a).input.tail then recv d memory (readDev w a)
      else some (readDev w a)) = some w1) :
    Carried d w1 ∧ w1.output = w.output ∧ w1.sending = w.sending ∧ w1.toDev = w.toDev := by
  have read := read_dev_carried d w a carried
  obtain ⟨output, sending, toDev⟩ := read_dev_apart w a carried.inSound
  split at heard
  · have reads := recv_reads d tame memory _ w1 read.inSound read.roomy heard
    exact ⟨reads_carried d tame _ w1 read reads, (congrArg Sender.output reads.sender).trans output,
      (congrArg Sender.sending reads.sender).trans sending, (congrArg Sender.toDev reads.sender).trans toDev⟩
  · obtain rfl := Option.some.inj heard
    exact ⟨read, output, sending, toDev⟩

-- A round with a device that takes something passes it the next bytes.
theorem work_transmits (d : Driver τ π δ) (tame : Tame d) (memory : Nat → Bool) (w w' : Line τ π δ) (a : Answers)
    (carried : Carried d w) (willing : Willing w a) (sending : w.sending = true) (done : doWork d memory w a = some w') :
    ∃ bytes, bytes ≠ [] ∧ w'.toDev = w.toDev ++ bytes := by
  obtain ⟨w1, heard, rfl⟩ := Option.map_eq_some_iff.mp done
  obtain ⟨carried1, output, flag, toDev⟩ := heard_apart d tame memory w w1 a carried heard
  have drained := write_pieces_drained w1 a carried1.outSound
  have waits : w1.output.contents ≠ [] := carried1.sending.mp (flag.trans sending)
  have willing1 : Willing w1 a := ⟨by rw [output]; exact willing.room, willing.first, willing.second⟩
  have may : mayWrite w1 a := Or.inr (Or.inr willing1.room)
  have more := write_pieces_some w1 a carried1.outSound willing1 waits
  obtain ⟨bytes, passed, -⟩ := drained.bytes
  have result : (writeDev d w1 a).toDev = (writeFromStart a (writeToEnd w1 a)).2.2.toDev := by
    rw [writeDev, if_pos (flag.trans sending), if_pos may]
    exact refill_to_dev d tame _ (drained_kept d w1 _ carried1.toKept drained)
  refine ⟨bytes, ?_, ?_⟩
  · rintro rfl
    rw [passed, List.append_nil] at more
    exact lt_irrefl _ more
  · rw [result, passed, toDev]

-- The bytes of the device are the bytes of the driver, both ways, and what waits is on its way.
structure Transported (d : Driver τ π δ) (w : Line τ π δ) : Prop where
  sent : w.toDev ++ w.output.contents = w.put
  received : w.seen ++ w.input.contents = w.fromDev
  inRing : w.input.head < SL_IBUFSIZE ∧ w.input.tail < SL_IBUFSIZE ∧ w.input.contents.length < SL_IBUFSIZE
  outRing : w.output.head < SL_OBUFSIZE ∧ w.output.tail < SL_OBUFSIZE ∧ w.output.contents.length < SL_OBUFSIZE
  sending : w.output.contents ≠ [] ∨ w.sndBuf ≠ none ∨ w.snd.qlen ≠ 0 → w.sending = true
  transmits : w.sending = true → ∀ memory a w', Willing w a → doWork d memory w a = some w' →
    ∃ bytes, bytes ≠ [] ∧ w'.toDev = w.toDev ++ bytes

theorem carried_transported (d : Driver τ π δ) (tame : Tame d) (w : Line τ π δ) (carried : Carried d w) :
    Transported d w := by
  have inLength := Circular.contents_length w.input carried.inSound
  have outLength := Circular.contents_length w.output carried.outSound
  have inUsed := Circular.used_lt w.input carried.inSound
  have outUsed := Circular.used_lt w.output carried.outSound
  have inSize := carried.inSize
  have outSize := carried.outSize
  refine ⟨carried.sent, carried.received, ?_, ?_, ?_, ?_⟩
  · exact ⟨by have := carried.inSound.head; omega, by have := carried.inSound.tail; omega, by omega⟩
  · exact ⟨by have := carried.outSound.head; omega, by have := carried.outSound.tail; omega, by omega⟩
  · rintro (busy | waits)
    · exact carried.sending.mpr busy
    · exact carried.sending.mpr (carried.begun waits)
  · intro sending memory a w' willing done
    exact work_transmits d tame memory w w' a carried willing sending done

-- A line that compresses nothing.
def noVj : Vj Unit := ⟨fun t _ b => (t, Slip.TYPE_IP, b), fun t _ b => (t, some b)⟩

end MagxNet.Sld
