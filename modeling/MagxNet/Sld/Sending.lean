import MagxNet.Sld.Reception

set_option autoImplicit false

namespace MagxNet.Sld

open Bytes (Byte)

variable {τ π δ : Type}

-- The part of a line that sending leaves alone.
structure Receiver (δ : Type) where
  sending : Bool
  input : Fifo
  nread : Int
  nwrite : Int
  rcvBuf : Option Receiving
  esc : Bool
  drop : Bool
  overrun : Bool
  allocs : Nat
  toDev : List Byte
  fromDev : List Byte
  seen : List Byte
  delivered : List δ

def receiver (w : Line τ π δ) : Receiver δ :=
  ⟨w.sending, w.input, w.nread, w.nwrite, w.rcvBuf, w.esc, w.drop, w.overrun, w.allocs, w.toDev, w.fromDev, w.seen, w.delivered⟩

-- A frame as it goes over the line, without its delimiters.
def stuffed (d : Driver τ π δ) (t : τ) (frame : List Byte) : List Byte := (frame.map (d.stuff t)).flatten

-- What packets become on the line.
def streamed (d : Driver τ π δ) (t : τ) (packets : List π) : List Byte :=
  (packets.map fun packet => d.delim :: stuffed d t (d.build t packet).2 ++ [d.delim]).flatten

-- The bytes still to be put for the frame under way.
def pending (d : Driver τ π δ) (w : Line τ π δ) : List Byte :=
  match w.sndBuf with
  | none => []
  | some rest => stuffed d w.opt rest ++ [d.delim]

-- Nothing is compressed: no packet changes the options.
def Plain (d : Driver τ π δ) (t : τ) : Prop := ∀ packet, (d.build t packet).1 = t

-- From w to w' bytes were put into the ring, and a number of packets was begun.
structure Puts (d : Driver τ π δ) (w w' : Line τ π δ) : Prop where
  receiver : receiver w' = receiver w
  sound : w'.output.Sound
  size : w'.output.size = w.output.size
  limit : d.limit w'.opt = d.limit w.opt
  kin : ∀ kin, Steady d kin → kin w.opt w'.opt
  fewer : w'.snd.qlen ≤ w.snd.qlen
  moved : w'.snd.qlen = w.snd.qlen ∨ w'.output.contents ≠ []
  bytes : ∃ bytes, w'.put = w.put ++ bytes ∧ w'.output.contents = w.output.contents ++ bytes
  begun : ∃ packets, w'.taken = w.taken ++ packets
    ∧ (Plain d w.opt → w'.opt = w.opt
      ∧ w'.put ++ pending d w' = w.put ++ pending d w ++ streamed d w.opt packets)

theorem puts_refl (d : Driver τ π δ) (w : Line τ π δ) (sound : w.output.Sound) : Puts d w w :=
  ⟨rfl, sound, rfl, rfl, fun _ steady => steady.refl _, Nat.le_refl _, Or.inl rfl, ⟨[], by simp, by simp⟩, [], by simp, fun _ => ⟨rfl, by simp [streamed]⟩⟩

theorem streamed_append (d : Driver τ π δ) (t : τ) (front back : List π) :
    streamed d t (front ++ back) = streamed d t front ++ streamed d t back := by
  simp [streamed]

theorem puts_trans (d : Driver τ π δ) (w w1 w2 : Line τ π δ) (first : Puts d w w1) (second : Puts d w1 w2) :
    Puts d w w2 := by
  obtain ⟨front, put1, contents1⟩ := first.bytes
  obtain ⟨back, put2, contents2⟩ := second.bytes
  obtain ⟨packets1, taken1, owed1⟩ := first.begun
  obtain ⟨packets2, taken2, owed2⟩ := second.begun
  refine ⟨second.receiver.trans first.receiver, second.sound, second.size.trans first.size,
    second.limit.trans first.limit,
    fun kin steady => steady.trans _ _ _ (first.kin kin steady) (second.kin kin steady), second.fewer.trans first.fewer, ?_, ⟨front ++ back, ?_, ?_⟩, packets1 ++ packets2, ?_, ?_⟩
  · rcases second.moved with same | busy
    · rcases first.moved with same' | busy
      · exact Or.inl (same.trans same')
      · exact Or.inr (by rw [contents2]; exact fun none' => busy (List.append_eq_nil_iff.mp none').1)
    · exact Or.inr busy
  · rw [put2, put1, List.append_assoc]
  · rw [contents2, contents1, List.append_assoc]
  · rw [taken2, taken1, List.append_assoc]
  · intro plain
    obtain ⟨same1, all1⟩ := owed1 plain
    obtain ⟨same2, all2⟩ := owed2 (by rw [same1]; exact plain)
    refine ⟨same2.trans same1, ?_⟩
    rw [all2, all1, same1, streamed_append, List.append_assoc, List.append_assoc]

theorem put_all_eq (cs : List Byte) (w : Line τ π δ) :
    putAll w cs = { w with output := w.output.puts cs, put := w.put ++ cs } := by
  induction cs generalizing w with
  | nil => simp [putAll, Circular.Buffer.puts]
  | cons c rest ih =>
      change putAll (putc w c) rest = _
      rw [ih (putc w c)]
      simp [putc, Circular.Buffer.puts]

theorem take_from_length (q : Ifq π) (que : Bool) (curr : BitVec 16) (packet : π) (q1 : Ifq π)
    (got : takeFrom q que curr = some (packet, q1)) : q1.qlen + 1 = q.qlen := by
  unfold takeFrom at got
  split at got
  · split at got
    · cases got
    · rename_i buf rest high
      obtain ⟨-, rfl⟩ := Prod.mk.inj (Option.some.inj got)
      simp [Ifq.qlen, high]
      omega
  · split at got
    · cases got
    · rename_i buf rest low
      obtain ⟨-, rfl⟩ := Prod.mk.inj (Option.some.inj got)
      simp [Ifq.qlen, low]
      omega

theorem take_from_none (q : Ifq π) (que : Bool) (curr : BitVec 16) :
    takeFrom q que curr = none ↔ (if que then q.high else q.low) = [] := by
  unfold takeFrom
  cases que
  · cases q.low <;> simp
  · cases q.high <;> simp

theorem dequeue_length (q q1 : Ifq π) (packet : π) (got : ifDequeue q = some (packet, q1)) : q1.qlen + 1 = q.qlen := by
  unfold ifDequeue at got
  split at got
  · rename_i found here
    obtain rfl := Option.some.inj got
    exact take_from_length q _ _ packet q1 here
  · exact take_from_length q _ _ packet q1 got

-- if_dequeue finds a packet when there is one on either queue.
theorem dequeue_none (q : Ifq π) (nothing : ifDequeue q = none) : q.qlen = 0 := by
  unfold ifDequeue at nothing
  split at nothing
  · cases nothing
  · rename_i first
    have one := (take_from_none q _ _).mp first
    have other := (take_from_none q _ _).mp nothing
    unfold Ifq.qlen
    cases turn : q.turn
    · rw [turn] at one other
      simp only [Bool.false_eq_true, if_false, Bool.not_false, if_true] at one other
      rw [one, other]
      rfl
    · rw [turn] at one other
      simp only [Bool.false_eq_true, if_false, Bool.not_true, if_true] at one other
      rw [one, other]
      rfl

theorem puts_busy (d : Driver τ π δ) (w w1 : Line τ π δ) (puts : Puts d w w1) (busy : w.output.contents ≠ []) :
    w1.output.contents ≠ [] := by
  obtain ⟨bytes, -, contents⟩ := puts.bytes
  rw [contents]
  exact fun none' => busy (List.append_eq_nil_iff.mp none').1

-- A ring without room for one more character is not empty.
theorem full_busy (w : Line τ π δ) (sound : w.output.Sound) (large : 3 ≤ w.output.size) (full : halfFree w = 0) :
    w.output.contents ≠ [] := by
  intro none'
  have length := Circular.contents_length w.output sound
  rw [none', List.length_nil] at length
  unfold halfFree Circular.Buffer.free at full
  omega

theorem end_puts (d : Driver τ π δ) (w : Line τ π δ) (sound : w.output.Sound) (room : 0 < w.output.free) :
    Puts d (setSndBuf w (some [])) (putc (setSndBuf w none) d.delim) := by
  refine ⟨rfl, Circular.sound_put _ _ sound, Circular.size_put _ _, rfl, fun _ steady => steady.refl _, Nat.le_refl _,
    Or.inl rfl, ⟨[d.delim], rfl, Circular.contents_put w.output d.delim sound room⟩, [], by simp [putc, setSndBuf], fun _ => ⟨rfl, ?_⟩⟩
  simp [putc, setSndBuf, pending, stuffed, streamed]

theorem half_free_room (w : Line τ π δ) : 2 * halfFree w ≤ w.output.free := by
  unfold halfFree
  omega

section

variable (d : Driver τ π δ) (tame : Tame d)
include tame

-- One byte of a frame is put, as one character or as two.
theorem stuff_puts (w : Line τ π δ) (c : Byte) (rest : List Byte) (sound : w.output.Sound) (room : 2 ≤ w.output.free) :
    Puts d (setSndBuf w (some (c :: rest))) (setSndBuf (putAll w (d.stuff w.opt c)) (some rest))
      ∧ w.output.free ≤ (putAll w (d.stuff w.opt c)).output.free + 2 := by
  have short := tame.stuff w.opt c
  obtain ⟨sound', size, contents, free⟩ := Circular.puts_done w.output (d.stuff w.opt c) sound (by omega)
  rw [put_all_eq]
  refine ⟨⟨rfl, sound', size, rfl, fun _ steady => steady.refl _, Nat.le_refl _, Or.inl rfl,
    ⟨d.stuff w.opt c, rfl, contents⟩, [], by simp [setSndBuf], fun _ => ⟨rfl, ?_⟩⟩, ?_⟩
  · simp [setSndBuf, pending, stuffed, streamed]
  · dsimp only
    omega

theorem stuff_bytes_puts (n : Nat) (w : Line τ π δ) (rest : List Byte) (sound : w.output.Sound)
    (room : 2 * n ≤ w.output.free) :
    Puts d (setSndBuf w (some rest)) (setSndBuf (stuffBytes d n w rest).1 (some (stuffBytes d n w rest).2))
      ∧ w.output.free ≤ (stuffBytes d n w rest).1.output.free + 2 * n
      ∧ (stuffBytes d n w rest).2.length = rest.length - n := by
  induction n generalizing w rest with
  | zero =>
      have idle : stuffBytes d 0 w rest = (w, rest) := by
        unfold stuffBytes
        rfl
      rw [idle]
      exact ⟨puts_refl d _ sound, Nat.le_refl _, rfl⟩
  | succ n ih =>
      cases rest with
      | nil => exact ⟨puts_refl d _ sound, Nat.le_add_right _ _, (Nat.zero_sub _).symm⟩
      | cons c rest =>
          obtain ⟨one, less⟩ := stuff_puts d tame w c rest sound (by omega)
          obtain ⟨others, least, shorter⟩ := ih (putAll w (d.stuff w.opt c)) rest one.sound (by omega)
          rw [stuffBytes]
          refine ⟨puts_trans d _ _ _ one others, by omega, ?_⟩
          rw [shorter, List.length_cons]
          omega

theorem fill_loop_puts (fuel : Nat) (w : Line τ π δ) (rest : List Byte) (space : Nat) (sound : w.output.Sound)
    (room : 2 * space ≤ w.output.free) (enough : rest.length ≤ fuel) :
    ∃ w1 rest1 space1, fillLoop d fuel w rest space = (w1, rest1, space1)
      ∧ Puts d (setSndBuf w (some rest)) (setSndBuf w1 (some rest1)) ∧ 2 * space1 ≤ w1.output.free
      ∧ (0 < space1 → rest1 = []) ∧ ((w1 = w ∧ space1 = space) ∨ space1 = halfFree w1) := by
  induction fuel generalizing w rest space with
  | zero =>
      have nothing : rest = [] := List.eq_nil_of_length_eq_zero (by omega)
      exact ⟨w, rest, space, rfl, puts_refl d _ sound, room, fun _ => nothing, Or.inl ⟨rfl, rfl⟩⟩
  | succ fuel ih =>
      rw [fillLoop]
      split
      · rename_i over'
        refine ⟨w, rest, space, rfl, puts_refl d _ sound, room, fun more => ?_, Or.inl ⟨rfl, rfl⟩⟩
        exact List.eq_nil_of_length_eq_zero (by omega)
      · obtain ⟨one, -, shorter⟩ := stuff_bytes_puts d tame (min space rest.length) w rest sound (by omega)
        obtain ⟨w1, rest1, space1, result, others, room1, atEnd, half⟩ :=
          ih (stuffBytes d (min space rest.length) w rest).1 (stuffBytes d (min space rest.length) w rest).2
            (halfFree (stuffBytes d (min space rest.length) w rest).1) one.sound (half_free_room _) (by omega)
        refine ⟨w1, rest1, space1, result, puts_trans d _ _ _ one others, room1, atEnd, Or.inr ?_⟩
        rcases half with ⟨rfl, same⟩ | same
        · exact same
        · exact same

theorem take_puts (w w1 : Line τ π δ) (idle : w.sndBuf = none) (sound : w.output.Sound) (room : 0 < w.output.free)
    (taken : takePacket d w = some w1) :
    Puts d w w1 ∧ w1.output.free = w.output.free - 1 ∧ w1.snd.qlen + 1 = w.snd.qlen
      ∧ setSndBuf w1 (some (w1.sndBuf.getD [])) = w1 ∧ w1.output.contents ≠ [] := by
  unfold takePacket at taken
  cases got : ifDequeue w.snd with
  | none =>
      rw [got] at taken
      cases taken
  | some found =>
      obtain ⟨packet, snd⟩ := found
      rw [got] at taken
      obtain rfl := Option.some.inj taken
      have contents := Circular.contents_put w.output d.delim sound room
      have busy : (w.output.put d.delim).contents ≠ [] := by
        rw [contents]
        simp
      refine ⟨⟨rfl, Circular.sound_put _ _ sound, Circular.size_put _ _, tame.build w.opt packet,
        fun _ steady => steady.build w.opt packet, ?_, Or.inr busy, ⟨[d.delim], rfl, contents⟩, [packet], rfl, ?_⟩, Circular.free_put w.output d.delim sound room,
        dequeue_length w.snd snd packet got, rfl, busy⟩
      · have := dequeue_length w.snd snd packet got
        simp only [putc]
        omega
      · intro plain
        refine ⟨plain packet, ?_⟩
        simp [putc, pending, streamed, idle, plain packet]

-- The frame that a round goes on with.
theorem snd_buf_puts (w w1 : Line τ π δ) (rest : List Byte) (space space1 : Nat) (sound : w.output.Sound)
    (room : 2 * space ≤ w.output.free) (some' : 0 < space) (got : sndBufOf d w space = some (w1, rest, space1)) :
    Puts d w (setSndBuf w1 (some rest)) ∧ 2 * space1 ≤ w1.output.free
      ∧ w1.snd.qlen + 1 ≤ w.snd.qlen + (if w.sndBuf = none then 0 else 1)
      ∧ (0 < space1 ∨ (setSndBuf w1 (some rest)).output.contents ≠ []) := by
  unfold sndBufOf at got
  cases held : w.sndBuf with
  | some kept =>
      rw [held] at got
      obtain ⟨rfl, same⟩ := Prod.mk.inj (Option.some.inj got)
      obtain ⟨rfl, rfl⟩ := Prod.mk.inj same
      have unchanged : setSndBuf w (some kept) = w := by
        rw [setSndBuf, ← held]
      rw [unchanged]
      exact ⟨puts_refl d w sound, room, by simp, Or.inl some'⟩
  | none =>
      rw [held] at got
      obtain ⟨begun, taken, shape⟩ := Option.map_eq_some_iff.mp got
      obtain ⟨rfl, same⟩ := Prod.mk.inj shape
      obtain ⟨rfl, rfl⟩ := Prod.mk.inj same
      obtain ⟨puts, free, fewer, whole, busy⟩ := take_puts d tame w begun held sound (by omega) taken
      rw [whole]
      exact ⟨puts, by omega, by simp; omega, Or.inr busy⟩

theorem send_on_puts (w : Line τ π δ) (loop : Line τ π δ → Nat → Line τ π δ) (rest : List Byte) (space : Nat)
    (sound : w.output.Sound) (large : 3 ≤ w.output.size) (room : 2 * space ≤ w.output.free)
    (moved : 0 < space ∨ w.output.contents ≠ [])
    (good : ∀ (w2 : Line τ π δ) (space2 : Nat), w2.output.Sound → 3 ≤ w2.output.size → 2 * space2 ≤ w2.output.free →
      w2.snd.qlen ≤ w.snd.qlen → w2.sndBuf = none → Puts d w2 (loop w2 space2)
        ∧ (((loop w2 space2).sndBuf = none ∧ (loop w2 space2).snd.qlen = 0) ∨ space2 = 0
          ∨ (loop w2 space2).output.contents ≠ [])) :
    Puts d (setSndBuf w (some rest)) (sendOn d loop (fillLoop d rest.length w rest space))
      ∧ (((sendOn d loop (fillLoop d rest.length w rest space)).sndBuf = none
          ∧ (sendOn d loop (fillLoop d rest.length w rest space)).snd.qlen = 0)
        ∨ (sendOn d loop (fillLoop d rest.length w rest space)).output.contents ≠ []) := by
  obtain ⟨w1, rest1, space1, result, filled, room1, atEnd, half⟩ :=
    fill_loop_puts d tame rest.length w rest space sound room (Nat.le_refl _)
  have large1 : 3 ≤ w1.output.size := by
    have := filled.size
    change w1.output.size = w.output.size at this
    omega
  rw [result]
  dsimp only [sendOn]
  split
  · rename_i more
    obtain rfl := atEnd more
    have ended := end_puts d w1 filled.sound (by omega)
    have free : (putc (setSndBuf w1 none) d.delim).output.free = w1.output.free - 1 :=
      Circular.free_put w1.output d.delim filled.sound (by omega)
    have busy : (putc (setSndBuf w1 none) d.delim).output.contents ≠ [] := by
      have contents : (putc (setSndBuf w1 none) d.delim).output.contents = w1.output.contents ++ [d.delim] :=
        Circular.contents_put w1.output d.delim filled.sound (by omega)
      rw [contents]
      simp
    obtain ⟨rest', outcome⟩ := good (putc (setSndBuf w1 none) d.delim) (space1 - 1) ended.sound
      (by rw [ended.size]; exact large1) (by omega) filled.fewer rfl
    exact ⟨puts_trans d _ _ _ (puts_trans d _ _ _ filled ended) rest', Or.inr (puts_busy d _ _ rest' busy)⟩
  · rename_i noMore
    refine ⟨filled, Or.inr ?_⟩
    rcases half with ⟨rfl, rfl⟩ | same
    · rcases moved with some' | busy
      · exact (noMore some').elim
      · exact busy
    · exact full_busy w1 filled.sound large1 (by omega)

theorem send_loop_puts (fuel : Nat) (w : Line τ π δ) (space : Nat) (sound : w.output.Sound) (large : 3 ≤ w.output.size)
    (room : 2 * space ≤ w.output.free) (enough : w.snd.qlen + (if w.sndBuf = none then 0 else 1) < fuel) :
    Puts d w (sendLoop d fuel w space)
      ∧ (((sendLoop d fuel w space).sndBuf = none ∧ (sendLoop d fuel w space).snd.qlen = 0) ∨ space = 0
        ∨ (sendLoop d fuel w space).output.contents ≠ []) := by
  induction fuel generalizing w space with
  | zero => omega
  | succ fuel ih =>
      rw [sendLoop]
      by_cases noSpace : space = 0
      · rw [if_pos noSpace]
        exact ⟨puts_refl d w sound, Or.inr (Or.inl noSpace)⟩
      · rw [if_neg noSpace]
        cases got : sndBufOf d w space with
        | none =>
            refine ⟨puts_refl d w sound, Or.inl ?_⟩
            unfold sndBufOf at got
            cases held : w.sndBuf with
            | some kept =>
                rw [held] at got
                cases got
            | none =>
                rw [held] at got
                refine ⟨rfl, dequeue_none w.snd ?_⟩
                have nothing := Option.map_eq_none_iff.mp got
                unfold takePacket at nothing
                split at nothing
                · assumption
                · cases nothing
        | some begun =>
            obtain ⟨w1, rest, space1⟩ := begun
            obtain ⟨before, room1, fewer, moved⟩ := snd_buf_puts d tame w w1 rest space space1 sound room (by omega) got
            have large1 : 3 ≤ w1.output.size := by
              have := before.size
              change w1.output.size = w.output.size at this
              omega
            obtain ⟨after, outcome⟩ := send_on_puts d tame w1 (sendLoop d fuel) rest space1 before.sound large1 room1 moved
              fun w2 space2 sound2 large2 room2 fewer2 idle2 =>
                ih w2 space2 sound2 large2 room2 (by rw [if_pos idle2]; omega)
            refine ⟨puts_trans d _ _ _ before after, ?_⟩
            rcases outcome with done | busy
            · exact Or.inl done
            · exact Or.inr (Or.inr busy)

-- The driver puts what it can: everything, or until the ring is not empty.
theorem send_puts (w : Line τ π δ) (sound : w.output.Sound) (large : 3 ≤ w.output.size) :
    Puts d w (send d w) ∧ (((send d w).sndBuf = none ∧ (send d w).snd.qlen = 0) ∨ (send d w).output.contents ≠ []) := by
  obtain ⟨puts, outcome⟩ := send_loop_puts d tame (w.snd.qlen + 2) w (halfFree w) sound large (half_free_room w)
    (by split <;> omega)
  refine ⟨puts, ?_⟩
  rcases outcome with done | full | busy
  · exact Or.inl done
  · exact Or.inr (puts_busy d _ _ puts (full_busy w sound large full))
  · exact Or.inr busy

end

end MagxNet.Sld
