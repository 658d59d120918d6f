import MagxNet.Sld.Line

set_option autoImplicit false

namespace MagxNet.Sld

open Bytes (Byte)

-- A receiver without rings and buffers: it is fed one byte after the other, and a frame that grows to limit bytes is
-- dropped.
structure Rx (τ : Type) where
  opt : τ
  esc : Bool
  drop : Bool
  bytes : List Byte

variable {τ π δ : Type}

def fresh (opt : τ) : Rx τ := ⟨opt, false, false, []⟩

def Rx.char (d : Driver τ π δ) (a : Rx τ) (c : Byte) : Rx τ × Option δ :=
  if c = d.delim then
    if a.drop ∨ d.rejects a.esc a.bytes.length then (fresh a.opt, none)
    else (fresh (d.close a.opt a.bytes).1, (d.close a.opt a.bytes).2)
  else (⟨a.opt, (d.data a.opt a.esc c).1, a.drop, a.bytes ++ (d.data a.opt a.esc c).2.toList⟩, none)

def Rx.limited (limit : Int) (a : Rx τ) : Rx τ :=
  if limit ≤ a.bytes.length then { a with drop := true, bytes := [] } else a

def Rx.step (d : Driver τ π δ) (limit : Int) (a : Rx τ) (c : Byte) : Rx τ × Option δ :=
  ((a.char d c).1.limited limit, (a.char d c).2)

def feed (d : Driver τ π δ) (limit : Int) (a : Rx τ) : List Byte → Rx τ × List δ
  | [] => (a, [])
  | c :: rest =>
      ((feed d limit (a.step d limit c).1 rest).1, (a.step d limit c).2.toList ++ (feed d limit (a.step d limit c).1 rest).2)

theorem feed_append (d : Driver τ π δ) (limit : Int) (a : Rx τ) (front back : List Byte) :
    feed d limit a (front ++ back)
      = ((feed d limit (feed d limit a front).1 back).1,
          (feed d limit a front).2 ++ (feed d limit (feed d limit a front).1 back).2) := by
  induction front generalizing a with
  | nil => rfl
  | cons c rest ih => simp only [List.cons_append, feed, ih, List.append_assoc]

-- The receiver that a line carries.
def rx (w : Line τ π δ) : Rx τ := ⟨w.opt, w.esc, w.drop, (w.rcvBuf.map Receiving.bytes).getD []⟩

-- The part of a line that receiving leaves alone.
structure Sender (π : Type) where
  sending : Bool
  output : Fifo
  nread : Int
  nwrite : Int
  snd : Ifq π
  sndBuf : Option (List Byte)
  taken : List π
  put : List Byte
  toDev : List Byte
  fromDev : List Byte

def sender (w : Line τ π δ) : Sender π :=
  ⟨w.sending, w.output, w.nread, w.nwrite, w.snd, w.sndBuf, w.taken, w.put, w.toDev, w.fromDev⟩

-- The receive buffer holds limit bytes and is not full.
def Roomy (limit : Int) (w : Line τ π δ) : Prop := ∀ b, w.rcvBuf = some b → b.limit = limit ∧ space b > 0

-- From w to w' a number of bytes went from the ring into the receiver.
structure Reads (d : Driver τ π δ) (limit : Int) (w w' : Line τ π δ) : Prop where
  sender : sender w' = sender w
  sound : w'.input.Sound
  size : w'.input.size = w.input.size
  roomy : Roomy limit w'
  overrun : w'.overrun = w.overrun
  bytes : ∃ bytes, w'.seen = w.seen ++ bytes ∧ w.input.contents = bytes ++ w'.input.contents
    ∧ rx w' = (feed d limit (rx w) bytes).1 ∧ w'.delivered = w.delivered ++ (feed d limit (rx w) bytes).2

theorem reads_refl (d : Driver τ π δ) (limit : Int) (w : Line τ π δ) (sound : w.input.Sound) (roomy : Roomy limit w) :
    Reads d limit w w :=
  ⟨rfl, sound, rfl, roomy, rfl, [], by simp, rfl, rfl, by simp [feed]⟩

theorem reads_trans (d : Driver τ π δ) (limit : Int) (w w1 w2 : Line τ π δ) (first : Reads d limit w w1)
    (second : Reads d limit w1 w2) : Reads d limit w w2 := by
  obtain ⟨front, seen1, contents1, rx1, out1⟩ := first.bytes
  obtain ⟨back, seen2, contents2, rx2, out2⟩ := second.bytes
  refine ⟨second.sender.trans first.sender, second.sound, second.size.trans first.size, second.roomy,
    second.overrun.trans first.overrun, front ++ back, ?_, ?_, ?_, ?_⟩
  · rw [seen2, seen1, List.append_assoc]
  · rw [contents1, contents2, List.append_assoc]
  · rw [rx2, rx1, feed_append]
  · rw [out2, out1, rx1, feed_append, List.append_assoc]

-- The receiver with a buffer in hand.
def heard (w : Line τ π δ) (b : Option Receiving) : Rx τ := ⟨w.opt, w.esc, w.drop, (b.map Receiving.bytes).getD []⟩

theorem settle_rx (limit : Int) (w : Line τ π δ) (b : Option Receiving) (positive : 0 < limit)
    (full : ∀ x, b = some x → x.limit = limit) : rx (settle w b) = (heard w b).limited limit := by
  cases b with
  | none =>
      unfold Rx.limited
      rw [if_neg (by simp only [heard, Option.map_none, Option.getD_none, List.length_nil]; omega)]
      rfl
  | some x =>
      have same := full x rfl
      dsimp only [settle]
      unfold Rx.limited space heard
      by_cases overfull : x.limit - (x.bytes.length : Int) ≤ 0
      · rw [if_pos overfull, if_pos (by simp only [Option.map_some, Option.getD_some]; omega)]
        rfl
      · rw [if_neg overfull, if_neg (by simp only [Option.map_some, Option.getD_some]; omega)]
        rfl

theorem settle_roomy (limit : Int) (w : Line τ π δ) (b : Option Receiving) (positive : 0 < limit)
    (full : ∀ x, b = some x → x.limit = limit) : Roomy limit (settle w b) := by
  intro kept here
  cases b with
  | none => cases here
  | some x =>
      have same := full x rfl
      dsimp only [settle] at here
      split at here
      · obtain rfl := Option.some.inj here
        exact ⟨same, by simp only [rewind, space, List.length_nil]; omega⟩
      · obtain rfl := Option.some.inj here
        exact ⟨same, by omega⟩

theorem settle_keeps (w : Line τ π δ) (b : Option Receiving) :
    sender (settle w b) = sender w ∧ (settle w b).input = w.input ∧ (settle w b).overrun = w.overrun
      ∧ (settle w b).seen = w.seen ∧ (settle w b).delivered = w.delivered ∧ (settle w b).opt = w.opt := by
  cases b with
  | none => exact ⟨rfl, rfl, rfl, rfl, rfl, rfl⟩
  | some x =>
      dsimp only [settle]
      split <;> exact ⟨rfl, rfl, rfl, rfl, rfl, rfl⟩

-- What one character does to a line whose buffer has room.
structure CharDone (d : Driver τ π δ) (w : Line τ π δ) (b : Receiving) (c : Byte) (w1 : Line τ π δ)
    (left : Option Receiving) : Prop where
  sender : sender w1 = sender w
  input : w1.input = w.input
  overrun : w1.overrun = w.overrun
  seen : w1.seen = w.seen
  after : heard w1 left = ((heard w (some b)).char d c).1
  delivered : w1.delivered = w.delivered ++ ((heard w (some b)).char d c).2.toList
  limit : ∀ x, left = some x → x.limit = b.limit ∧ space b ≤ space x + 1

theorem rewind_space (b : Receiving) : space b ≤ space (rewind b) + 1 := by
  unfold space rewind
  simp only [List.length_nil]
  omega

theorem end_frame_done (d : Driver τ π δ) (w : Line τ π δ) (b : Receiving) :
    CharDone d w b d.delim (endFrame d w b).1 (endFrame d w b).2 := by
  have char : (heard w (some b)).char d d.delim
      = if w.drop ∨ d.rejects w.esc b.bytes.length then (fresh w.opt, none)
        else (fresh (d.close w.opt b.bytes).1, (d.close w.opt b.bytes).2) := if_pos rfl
  have same : ∀ x, some (rewind b) = some x → x.limit = b.limit ∧ space b ≤ space x + 1 := by
    rintro x ⟨⟩
    exact ⟨rfl, rewind_space b⟩
  unfold endFrame
  by_cases dropped : w.drop ∨ d.rejects w.esc b.bytes.length
  · rw [if_pos dropped] at char
    rw [if_pos dropped]
    exact ⟨rfl, rfl, rfl, rfl, by rw [char]; rfl, by rw [char]; simp [setDrop, setEsc], same⟩
  · rw [if_neg dropped] at char
    rw [if_neg dropped]
    cases closed : d.close w.opt b.bytes with
    | mk opt out =>
        rw [closed] at char
        cases out with
        | none => exact ⟨rfl, rfl, rfl, rfl, by rw [char]; rfl, by rw [char]; simp [setDrop, setEsc], same⟩
        | some out => exact ⟨rfl, rfl, rfl, rfl, by rw [char]; rfl, by rw [char]; rfl, fun _ none' => by cases none'⟩

theorem char_done (d : Driver τ π δ) (w : Line τ π δ) (b : Receiving) (c : Byte) (room : space b > 0) :
    CharDone d w b c (char d w b c).1 (char d w b c).2 := by
  unfold char
  by_cases atEnd : c = d.delim
  · rw [if_pos atEnd, atEnd]
    exact end_frame_done d w b
  · have step : (heard w (some b)).char d c
        = (⟨w.opt, (d.data w.opt w.esc c).1, w.drop, b.bytes ++ (d.data w.opt w.esc c).2.toList⟩, none) := if_neg atEnd
    rw [if_neg atEnd]
    cases meaning : d.data w.opt w.esc c with
    | mk esc x =>
        rw [meaning] at step
        cases x with
        | none =>
            refine ⟨rfl, rfl, rfl, rfl, ?_, ?_, ?_⟩
            · rw [step]
              simp [heard, setEsc]
            · rw [step]
              simp [setEsc]
            · rintro x ⟨⟩
              exact ⟨rfl, by omega⟩
        | some x =>
            have stored : store (setEsc w esc) b x = (setEsc w esc, { b with bytes := b.bytes ++ [x] }) := if_pos room
            dsimp only
            rw [stored]
            refine ⟨rfl, rfl, rfl, rfl, ?_, ?_, ?_⟩
            · rw [step]
              rfl
            · rw [step]
              simp [setEsc]
            · rintro x ⟨⟩
              refine ⟨rfl, ?_⟩
              simp only [space, List.length_append, List.length_singleton]
              omega

theorem settle_some (w : Line τ π δ) (b : Receiving) (room : space b > 0) :
    settle w (some b) = setRcvBuf w (some b) := by
  dsimp only [settle]
  rw [if_neg (by omega)]

section

variable (d : Driver τ π δ) (limit : Int) (positive : 0 < limit)
include positive

theorem char_reads (w : Line τ π δ) (b : Receiving) (sound : w.input.Sound) (some' : 0 < w.input.used)
    (full : b.limit = limit) (room : space b > 0) :
    Reads d limit (setRcvBuf w (some b))
      (settle (char d (getc w).2 b (getc w).1).1 (char d (getc w).2 b (getc w).1).2) := by
  have done := char_done d (getc w).2 b (getc w).1 room
  have limits : ∀ x, (char d (getc w).2 b (getc w).1).2 = some x → x.limit = limit :=
    fun x left => ((done.limit x left).1).trans full
  obtain ⟨keptSender, input, overrun, seen, delivered, -⟩ :=
    settle_keeps (char d (getc w).2 b (getc w).1).1 (char d (getc w).2 b (getc w).1).2
  have dropped : (char d (getc w).2 b (getc w).1).1.input = w.input.drop 1 := done.input
  refine ⟨keptSender.trans done.sender, ?_, ?_, settle_roomy limit _ _ positive limits, overrun.trans done.overrun,
    [w.input.peek], ?_, ?_, ?_, ?_⟩
  · rw [input, dropped]
    exact Circular.sound_drop _ 1 sound
  · rw [input, dropped]
    rfl
  · rw [seen, done.seen]
    rfl
  · rw [input, dropped]
    exact Circular.contents_cons w.input sound some'
  · rw [settle_rx limit _ _ positive limits, done.after]
    rfl
  · rw [delivered, done.delivered]
    simp only [feed, List.append_nil]
    rfl

theorem chunk_reads (n : Nat) (w : Line τ π δ) (b : Receiving) (sound : w.input.Sound) (full : b.limit = limit)
    (fits : (n : Int) ≤ space b) (available : n ≤ w.input.used) (room : space b > 0) :
    Reads d limit (setRcvBuf w (some b)) (settle (chunk d n w b).1 (chunk d n w b).2)
      ∧ (0 < n → (chunk d n w b).1.input.used < w.input.used) := by
  induction n generalizing w b with
  | zero =>
      refine ⟨?_, fun none' => (lt_irrefl 0 none').elim⟩
      have idle : settle (chunk d 0 w b).1 (chunk d 0 w b).2 = setRcvBuf w (some b) := settle_some w b room
      rw [idle]
      refine reads_refl d limit _ sound ?_
      rintro x ⟨⟩
      exact ⟨full, room⟩
  | succ n ih =>
      have one := char_reads d limit positive w b sound (by omega) full room
      have done := char_done d (getc w).2 b (getc w).1 room
      have dropped : (char d (getc w).2 b (getc w).1).1.input = w.input.drop 1 := done.input
      have less : (char d (getc w).2 b (getc w).1).1.input.used = w.input.used - 1 := by
        rw [dropped]
        exact Circular.used_drop w.input 1 sound (by omega)
      rw [chunk]
      cases result : char d (getc w).2 b (getc w).1 with
      | mk w1 left =>
          rw [result] at one done less
          cases left with
          | none => exact ⟨one, fun _ => by dsimp only at less ⊢; omega⟩
          | some b1 =>
              dsimp only at less ⊢
              obtain ⟨same, nearly⟩ := done.limit b1 rfl
              rcases Nat.eq_zero_or_pos n with rfl | more
              · exact ⟨one, fun _ => by rw [chunk]; dsimp only; omega⟩
              · have room1 : space b1 > 0 := by omega
                have rest := ih w1 b1 (by rw [done.input]; exact Circular.sound_drop _ 1 sound) (same.trans full) (by omega)
                  (by omega) room1
                have settled := settle_some w1 b1 room1
                dsimp only at one
                rw [settled] at one
                exact ⟨reads_trans d limit _ _ _ one rest.1, fun _ => by have := rest.2 more; omega⟩

end

-- What both drivers are like: frames do not change the size of the buffers, and a character becomes two at most.
structure Tame (d : Driver τ π δ) : Prop where
  close : ∀ t bytes, d.limit (d.close t bytes).1 = d.limit t
  build : ∀ t packet, d.limit (d.build t packet).1 = d.limit t
  stuff : ∀ t c, (d.stuff t c).length ≤ 2

-- What stays the same of the options while packets go both ways, the meaning of a character and the size of a buffer
-- among it.
structure Steady (d : Driver τ π δ) (kin : τ → τ → Prop) : Prop where
  refl : ∀ t, kin t t
  trans : ∀ t t1 t2, kin t t1 → kin t1 t2 → kin t t2
  close : ∀ t bytes, kin t (d.close t bytes).1
  build : ∀ t packet, kin t (d.build t packet).1
  data : ∀ t t', kin t t' → d.data t' = d.data t
  limit : ∀ t t', kin t t' → d.limit t' = d.limit t

theorem step_limit (d : Driver τ π δ) (tame : Tame d) (limit : Int) (a : Rx τ) (c : Byte) :
    d.limit (a.step d limit c).1.opt = d.limit a.opt := by
  have char : d.limit (a.char d c).1.opt = d.limit a.opt := by
    unfold Rx.char
    split
    · split
      · rfl
      · exact tame.close a.opt a.bytes
    · rfl
  rw [← char]
  unfold Rx.step Rx.limited
  dsimp only
  split <;> rfl

theorem feed_limit (d : Driver τ π δ) (tame : Tame d) (limit : Int) (a : Rx τ) (bytes : List Byte) :
    d.limit (feed d limit a bytes).1.opt = d.limit a.opt := by
  induction bytes generalizing a with
  | nil => rfl
  | cons c rest ih => exact (ih _).trans (step_limit d tame limit a c)

theorem reads_limit (d : Driver τ π δ) (tame : Tame d) (limit : Int) (w w' : Line τ π δ)
    (reads : Reads d limit w w') : d.limit w'.opt = d.limit w.opt := by
  obtain ⟨bytes, -, -, state, -⟩ := reads.bytes
  have opt : w'.opt = (feed d limit (rx w) bytes).1.opt := congrArg Rx.opt state
  rw [opt]
  exact feed_limit d tame limit (rx w) bytes

theorem rcv_buf_keep (d : Driver τ π δ) (memory : Nat → Bool) (w : Line τ π δ) (b : Receiving) (held : w.rcvBuf = some b) :
    rcvBufOf d memory w = (some b, w) := by
  unfold rcvBufOf
  rw [held]

-- Where the buffer of a round comes from.
theorem rcv_buf_cases (d : Driver τ π δ) (memory : Nat → Bool) (w w1 : Line τ π δ) (b : Option Receiving)
    (got : rcvBufOf d memory w = (b, w1)) :
    (w.rcvBuf = b ∧ w1 = w) ∨ (w.rcvBuf = none ∧ w1 = countAlloc w ∧ (b = none ∨ b = some ⟨d.limit w.opt, []⟩)) := by
  unfold rcvBufOf at got
  cases held : w.rcvBuf with
  | some kept =>
      rw [held] at got
      obtain ⟨rfl, rfl⟩ := Prod.mk.inj got
      exact Or.inl ⟨rfl, rfl⟩
  | none =>
      rw [held] at got
      obtain ⟨rfl, rfl⟩ := Prod.mk.inj got
      refine Or.inr ⟨rfl, rfl, ?_⟩
      split
      · exact Or.inr rfl
      · exact Or.inl rfl

theorem rcv_buf_reads (d : Driver τ π δ) (memory : Nat → Bool) (w w1 : Line τ π δ) (b : Receiving)
    (sound : w.input.Sound) (roomy : Roomy (d.limit w.opt) w) (got : rcvBufOf d memory w = (some b, w1))
    (positive : 0 < d.limit w.opt) :
    Reads d (d.limit w.opt) w (setRcvBuf w1 (some b)) ∧ w1.input = w.input ∧ b.limit = d.limit w.opt ∧ space b > 0 := by
  rcases rcv_buf_cases d memory w w1 (some b) got with ⟨held, rfl⟩ | ⟨held, rfl, none' | isNew⟩
  · have same : setRcvBuf w1 (some b) = w1 := by
      rw [setRcvBuf, ← held]
    obtain ⟨full, room⟩ := roomy b held
    rw [same]
    exact ⟨reads_refl d _ w1 sound roomy, rfl, full, room⟩
  · cases none'
  · obtain rfl := Option.some.inj isNew
    have room : space ⟨d.limit w.opt, []⟩ > 0 := by
      unfold space
      dsimp only [List.length_nil]
      omega
    refine ⟨⟨rfl, sound, rfl, ?_, rfl, [], ?_, rfl, ?_, ?_⟩, rfl, rfl, room⟩
    · rintro b ⟨⟩
      exact ⟨rfl, room⟩
    · simp [countAlloc, setRcvBuf]
    · simp [rx, feed, countAlloc, setRcvBuf, held]
    · simp [feed, countAlloc, setRcvBuf]

theorem recv_loop_round (d : Driver τ π δ) (memory : Nat → Bool) (fuel : Nat) (w w1 : Line τ π δ) (b : Receiving)
    (some' : w.input.used ≠ 0) (got : rcvBufOf d memory w = (some b, w1)) :
    recvLoop d memory (fuel + 1) w
      = recvLoop d memory fuel (settle (chunk d (min (w1.input.used : Int) (space b)).toNat w1 b).1
          (chunk d (min (w1.input.used : Int) (space b)).toNat w1 b).2) := by
  rw [recvLoop, if_neg some', got]

-- A buffer without room is never filled, and the loop does not end.
theorem recv_stuck (d : Driver τ π δ) (memory : Nat → Bool) (fuel : Nat) (w w1 : Line τ π δ) (b : Receiving)
    (some' : w.input.used ≠ 0) (got : rcvBufOf d memory w = (some b, w1)) (full : b.limit ≤ 0) :
    recvLoop d memory fuel w = none := by
  induction fuel generalizing w w1 b with
  | zero => rfl
  | succ fuel ih =>
      have noRoom : space b ≤ 0 := by
        unfold space
        omega
      have nothing : (min (w1.input.used : Int) (space b)).toNat = 0 := by omega
      have same : w1.input = w.input := by
        rcases rcv_buf_cases d memory w w1 (some b) got with ⟨-, rfl⟩ | ⟨-, rfl, -⟩ <;> rfl
      rw [recv_loop_round d memory fuel w w1 b some' got, nothing, chunk]
      refine ih (settle w1 (some b)) (settle w1 (some b)) (rewind b) ?_ (rcv_buf_keep d memory _ _ ?_) full
      · rw [(settle_keeps w1 (some b)).2.1, same]
        exact some'
      · dsimp only [settle]
        rw [if_pos noRoom]
        rfl

theorem buf_positive (d : Driver τ π δ) (memory : Nat → Bool) (w w1 : Line τ π δ) (b : Receiving)
    (roomy : Roomy (d.limit w.opt) w) (got : rcvBufOf d memory w = (some b, w1)) (closed : d.limit w.opt ≤ 0) :
    b.limit ≤ 0 := by
  rcases rcv_buf_cases d memory w w1 (some b) got with ⟨held, rfl⟩ | ⟨-, rfl, none' | isNew⟩
  · have := (roomy b held).1
    omega
  · cases none'
  · obtain rfl := Option.some.inj isNew
    exact closed

theorem recv_loop_reads (d : Driver τ π δ) (tame : Tame d) (memory : Nat → Bool) (fuel : Nat) (w w' : Line τ π δ)
    (sound : w.input.Sound) (roomy : Roomy (d.limit w.opt) w) (done : recvLoop d memory fuel w = some w') :
    Reads d (d.limit w.opt) w w' := by
  induction fuel generalizing w with
  | zero => cases done
  | succ fuel ih =>
      by_cases empty : w.input.used = 0
      · rw [recvLoop, if_pos empty] at done
        obtain rfl := Option.some.inj done
        exact reads_refl d _ w sound roomy
      · cases got : rcvBufOf d memory w with
        | mk b w1 =>
            cases b with
            | none =>
                rw [recvLoop, if_neg empty, got] at done
                obtain rfl := Option.some.inj done
                rcases rcv_buf_cases d memory w w1 none got with ⟨-, rfl⟩ | ⟨-, rfl, -⟩
                · exact reads_refl d _ w1 sound roomy
                · exact ⟨rfl, sound, rfl, roomy, rfl, [], by simp [countAlloc], rfl, rfl, by simp [feed, countAlloc]⟩
            | some b =>
                by_cases positive : 0 < d.limit w.opt
                · obtain ⟨before, same, full, room⟩ := rcv_buf_reads d memory w w1 b sound roomy got positive
                  rw [recv_loop_round d memory fuel w w1 b empty got] at done
                  have one := (chunk_reads d (d.limit w.opt) positive (min (w1.input.used : Int) (space b)).toNat w1 b
                    (by rw [same]; exact sound) full (by omega) (by omega) room).1
                  have both := reads_trans d _ _ _ _ before one
                  have limit := reads_limit d tame _ _ _ both
                  have later := ih _ both.sound (by rw [limit]; exact both.roomy) done
                  rw [limit] at later
                  exact reads_trans d _ _ _ _ both later
                · rw [recv_stuck d memory (fuel + 1) w w1 b empty got
                    (buf_positive d memory w w1 b roomy got (by omega))] at done
                  cases done

-- The loop ends: every round takes a byte, unless there is no memory.
theorem recv_loop_ends (d : Driver τ π δ) (tame : Tame d) (memory : Nat → Bool) (fuel : Nat) (w : Line τ π δ)
    (sound : w.input.Sound) (roomy : Roomy (d.limit w.opt) w) (positive : 0 < d.limit w.opt)
    (enough : w.input.used < fuel) : ∃ w', recvLoop d memory fuel w = some w' := by
  induction fuel generalizing w with
  | zero => omega
  | succ fuel ih =>
      by_cases empty : w.input.used = 0
      · exact ⟨w, by rw [recvLoop, if_pos empty]⟩
      · cases got : rcvBufOf d memory w with
        | mk b w1 =>
            cases b with
            | none => exact ⟨w1, by rw [recvLoop, if_neg empty, got]⟩
            | some b =>
                obtain ⟨before, same, full, room⟩ := rcv_buf_reads d memory w w1 b sound roomy got positive
                obtain ⟨one, less⟩ := chunk_reads d (d.limit w.opt) positive (min (w1.input.used : Int) (space b)).toNat w1 b
                    (by rw [same]; exact sound) full (by omega) (by omega) room
                have both := reads_trans d _ _ _ _ before one
                have limit := reads_limit d tame _ _ _ both
                have available : w1.input.used = w.input.used := by rw [same]
                have fewer := less (by omega)
                rw [recv_loop_round d memory fuel w w1 b empty got]
                apply ih _ both.sound (by rw [limit]; exact both.roomy) (by rw [limit]; exact positive)
                rw [(settle_keeps _ _).2.1]
                omega

theorem recv_reads (d : Driver τ π δ) (tame : Tame d) (memory : Nat → Bool) (w w' : Line τ π δ) (sound : w.input.Sound)
    (roomy : Roomy (d.limit w.opt) w) (done : recv d memory w = some w') : Reads d (d.limit w.opt) w w' :=
  recv_loop_reads d tame memory _ w w' sound roomy done

theorem recv_ends (d : Driver τ π δ) (tame : Tame d) (memory : Nat → Bool) (w : Line τ π δ) (sound : w.input.Sound)
    (roomy : Roomy (d.limit w.opt) w) (positive : 0 < d.limit w.opt) : ∃ w', recv d memory w = some w' :=
  recv_loop_ends d tame memory _ w sound roomy positive (Nat.lt_succ_self _)

end MagxNet.Sld
