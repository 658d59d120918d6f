import MagxNet.Lib.Delimited
import MagxNet.Sld.Transport

set_option autoImplicit false

namespace MagxNet.Sld

open Bytes (Byte)
open Delimited (joined)

variable {τ π δ : Type}

-- What a text stands for, whatever its length: the escape flag behind it, and the bytes.
def unstuff (meaning : Bool → Byte → Bool × Option Byte) : Bool → List Byte → Bool × List Byte
  | esc, [] => (esc, [])
  | esc, c :: rest =>
      ((unstuff meaning (meaning esc c).1 rest).1, (meaning esc c).2.toList ++ (unstuff meaning (meaning esc c).1 rest).2)

theorem unstuff_append (meaning : Bool → Byte → Bool × Option Byte) (esc : Bool) (front back : List Byte) :
    unstuff meaning esc (front ++ back)
      = ((unstuff meaning (unstuff meaning esc front).1 back).1,
          (unstuff meaning esc front).2 ++ (unstuff meaning (unstuff meaning esc front).1 back).2) := by
  induction front generalizing esc with
  | nil => rfl
  | cons c rest ih => simp only [List.cons_append, unstuff, ih, List.append_assoc]

-- The frame that a text between two delimiters carries, unless it is too long, aborted or too short.
def verdict (d : Driver τ π δ) (opt : τ) (text : List Byte) : Option (List Byte) :=
  if d.limit opt ≤ (unstuff (d.data opt) false text).2.length
      ∨ d.rejects (unstuff (d.data opt) false text).1 (unstuff (d.data opt) false text).2.length then none
  else some (unstuff (d.data opt) false text).2

-- What is made of a text; compression may have changed the options since.
def Dealt (d : Driver τ π δ) (kin : τ → τ → Prop) (opt : τ) (text : List Byte) (out : Option δ) : Prop :=
  ∃ t, kin opt t ∧ out = (verdict d opt text).bind fun bytes => (d.close t bytes).2

-- A receiver in the middle of a text.
structure Within (d : Driver τ π δ) (opt : τ) (text : List Byte) (a : Rx τ) : Prop where
  esc : a.esc = (unstuff (d.data opt) false text).1
  whole : a.drop = false → a.bytes = (unstuff (d.data opt) false text).2
    ∧ ((unstuff (d.data opt) false text).2.length : Int) < d.limit opt
  dropped : a.drop = true → d.limit opt ≤ (unstuff (d.data opt) false text).2.length

-- All that was received is a row of texts with a delimiter behind each and a text that is not yet complete; every
-- complete text was dealt with once, by itself.
structure Framed (d : Driver τ π δ) (kin : τ → τ → Prop) (opt : τ) (seen : List Byte) (a : Rx τ) (delivered : List δ)
    (texts : List (List Byte)) (rest : List Byte) (outs : List (Option δ)) : Prop where
  within : Within d opt rest a
  answers : List.Forall₂ (Dealt d kin opt) texts outs
  row : seen = joined d.delim texts ++ rest
  whole : ∀ text ∈ texts, d.delim ∉ text
  partial' : d.delim ∉ rest
  same : kin opt a.opt
  result : delivered = outs.reduceOption

theorem fresh_within (d : Driver τ π δ) (opt : τ) (positive : 0 < d.limit opt) (t : τ) : Within d opt [] (fresh t) :=
  ⟨rfl, fun _ => ⟨rfl, positive⟩, fun dropped => by cases dropped⟩

section

variable (d : Driver τ π δ) (kin : τ → τ → Prop) (steady : Steady d kin) (opt : τ)
include steady

theorem data_within (text : List Byte) (a : Rx τ) (c : Byte) (same : kin opt a.opt) (here : Within d opt text a) :
    Within d opt (text ++ [c])
      ((⟨a.opt, (d.data a.opt a.esc c).1, a.drop, a.bytes ++ (d.data a.opt a.esc c).2.toList⟩ : Rx τ).limited (d.limit opt)) := by
  have meaning := steady.data opt a.opt same
  have more : unstuff (d.data opt) false (text ++ [c])
      = ((d.data opt a.esc c).1, (unstuff (d.data opt) false text).2 ++ (d.data opt a.esc c).2.toList) := by
    rw [unstuff_append, ← here.esc]
    simp [unstuff]
  unfold Rx.limited
  dsimp only
  rw [meaning]
  cases drop : a.drop with
  | true =>
      have long := here.dropped drop
      split
      · refine ⟨?_, ?_, ?_⟩
        · rw [more]
        · rintro ⟨⟩
        · intro _
          rw [more, List.length_append]
          omega
      · refine ⟨?_, ?_, ?_⟩
        · rw [more]
        · rintro ⟨⟩
        · intro _
          rw [more, List.length_append]
          omega
  | false =>
      obtain ⟨bytes, short⟩ := here.whole drop
      rw [bytes]
      split
      · rename_i long
        refine ⟨?_, ?_, ?_⟩
        · rw [more]
        · rintro ⟨⟩
        · intro _
          rw [more]
          exact long
      · rename_i fits
        refine ⟨?_, ?_, ?_⟩
        · rw [more]
        · intro _
          rw [more]
          exact ⟨rfl, not_le.mp fits⟩
        · rintro ⟨⟩

variable (positive : 0 < d.limit opt)
include positive

-- A text ends: its frame is handed on, or not, and the next text begins.
theorem end_dealt (text : List Byte) (a : Rx τ) (same : kin opt a.opt) (here : Within d opt text a) :
    ∃ t out, kin opt t ∧ a.step d (d.limit opt) d.delim = (fresh t, out) ∧ Dealt d kin opt text out := by
  have stays : ∀ t : τ, (fresh t).limited (d.limit opt) = fresh t := by
    intro t
    unfold Rx.limited
    rw [if_neg (by simp only [fresh, List.length_nil]; omega)]
  unfold Rx.step Rx.char
  rw [if_pos rfl]
  by_cases lost : a.drop = true ∨ d.rejects a.esc a.bytes.length = true
  · have none' : verdict d opt text = none := by
      unfold verdict
      rw [if_pos]
      cases drop : a.drop with
      | true => exact Or.inl (here.dropped drop)
      | false =>
          obtain ⟨bytes, -⟩ := here.whole drop
          rw [← here.esc, ← bytes]
          rw [drop] at lost
          simpa using Or.inr lost
    rw [if_pos lost]
    refine ⟨a.opt, none, same, by rw [stays], a.opt, same, ?_⟩
    rw [none']
    rfl
  · obtain ⟨kept, taken⟩ := not_or.mp lost
    obtain ⟨bytes, short⟩ := here.whole (by simpa using kept)
    have some' : verdict d opt text = some a.bytes := by
      unfold verdict
      rw [if_neg]
      · rw [bytes]
      · rw [← here.esc, ← bytes]
        rintro (long | rejected)
        · rw [← bytes] at short
          omega
        · exact taken rejected
    rw [if_neg lost]
    refine ⟨(d.close a.opt a.bytes).1, (d.close a.opt a.bytes).2, steady.trans _ _ _ same (steady.close _ _), by rw [stays], a.opt,
      same, ?_⟩
    rw [some']
    rfl

theorem framed_step (seen : List Byte) (a : Rx τ) (delivered : List δ) (texts : List (List Byte)) (rest : List Byte)
    (outs : List (Option δ)) (c : Byte) (framed : Framed d kin opt seen a delivered texts rest outs) :
    ∃ texts rest outs, Framed d kin opt (seen ++ [c]) (a.step d (d.limit opt) c).1
      (delivered ++ (a.step d (d.limit opt) c).2.toList) texts rest outs := by
  by_cases atEnd : c = d.delim
  · obtain ⟨t, out, same, result, dealt⟩ := end_dealt d kin steady opt positive rest a framed.same framed.within
    rw [atEnd, result]
    refine ⟨texts ++ [rest], [], outs ++ [out], fresh_within d opt positive t,
      List.rel_append framed.answers (List.Forall₂.cons dealt .nil), ?_, ?_, List.not_mem_nil, same, ?_⟩
    · rw [framed.row]
      simp [joined]
    · intro text member
      rcases List.mem_append.mp member with old | new
      · exact framed.whole text old
      · obtain rfl := List.mem_singleton.mp new
        exact framed.partial'
    · rw [framed.result, List.reduceOption_append]
      cases out <;> rfl
  · have step : a.step d (d.limit opt) c
        = ((⟨a.opt, (d.data a.opt a.esc c).1, a.drop, a.bytes ++ (d.data a.opt a.esc c).2.toList⟩ : Rx τ).limited (d.limit opt),
            none) := by
      unfold Rx.step Rx.char
      rw [if_neg atEnd]
    have opt' : ∀ b : Rx τ, (b.limited (d.limit opt)).opt = b.opt := by
      intro b
      unfold Rx.limited
      split <;> rfl
    rw [step]
    refine ⟨texts, rest ++ [c], outs, data_within d kin steady opt rest a c framed.same framed.within, framed.answers,
      ?_, framed.whole, ?_, ?_, ?_⟩
    · rw [framed.row, List.append_assoc]
    · intro member
      rcases List.mem_append.mp member with old | new
      · exact framed.partial' old
      · exact atEnd (List.mem_singleton.mp new).symm
    · rw [opt']
      exact framed.same
    · rw [framed.result]
      simp

theorem framed_feed (seen : List Byte) (a : Rx τ) (delivered : List δ) (texts : List (List Byte)) (rest : List Byte)
    (outs : List (Option δ)) (bytes : List Byte) (framed : Framed d kin opt seen a delivered texts rest outs) :
    ∃ texts rest outs, Framed d kin opt (seen ++ bytes) (feed d (d.limit opt) a bytes).1
      (delivered ++ (feed d (d.limit opt) a bytes).2) texts rest outs := by
  induction bytes generalizing seen a delivered texts rest outs with
  | nil => exact ⟨texts, rest, outs, by simpa [feed] using framed⟩
  | cons c later ih =>
      obtain ⟨texts1, rest1, outs1, one⟩ := framed_step d kin steady opt positive seen a delivered texts rest outs c framed
      obtain ⟨texts2, rest2, outs2, all⟩ := ih _ _ _ texts1 rest1 outs1 one
      refine ⟨texts2, rest2, outs2, ?_⟩
      simpa [feed] using all

end

-- From w to w' nothing was received, and a number of packets was begun.
structure Sent (d : Driver τ π δ) (w w' : Line τ π δ) : Prop where
  rx : rx w' = { rx w with opt := w'.opt }
  seen : w'.seen = w.seen
  delivered : w'.delivered = w.delivered
  kin : ∀ kin, Steady d kin → kin w.opt w'.opt
  begun : ∃ packets, w'.taken = w.taken ++ packets
    ∧ (Plain d w.opt → w'.opt = w.opt
      ∧ w'.put ++ pending d w' = w.put ++ pending d w ++ streamed d w.opt packets)

theorem sent_trans (d : Driver τ π δ) (w w1 w2 : Line τ π δ) (first : Sent d w w1) (second : Sent d w1 w2) :
    Sent d w w2 := by
  obtain ⟨packets1, taken1, owed1⟩ := first.begun
  obtain ⟨packets2, taken2, owed2⟩ := second.begun
  refine ⟨?_, second.seen.trans first.seen, second.delivered.trans first.delivered,
    fun kin steady => steady.trans _ _ _ (first.kin kin steady) (second.kin kin steady), packets1 ++ packets2, ?_, ?_⟩
  · rw [second.rx, first.rx]
  · rw [taken2, taken1, List.append_assoc]
  · intro plain
    obtain ⟨same1, all1⟩ := owed1 plain
    obtain ⟨same2, all2⟩ := owed2 (by rw [same1]; exact plain)
    refine ⟨same2.trans same1, ?_⟩
    rw [all2, all1, same1, streamed_append, List.append_assoc, List.append_assoc]

-- Nothing but flags, counts and rings changes.
theorem sent_still (d : Driver τ π δ) (w w' : Line τ π δ) (opt : w'.opt = w.opt) (rcv : rx w' = rx w) (seen : w'.seen = w.seen)
    (delivered : w'.delivered = w.delivered) (taken : w'.taken = w.taken) (put : w'.put = w.put)
    (sndBuf : w'.sndBuf = w.sndBuf) : Sent d w w' := by
  refine ⟨?_, seen, delivered, ?_, [], ?_, ?_⟩
  · rw [rcv, opt]
    rfl
  · intro kin steady
    rw [opt]
    exact steady.refl _
  · rw [taken, List.append_nil]
  · intro _
    refine ⟨opt, ?_⟩
    unfold pending
    rw [put, sndBuf, opt]
    simp [streamed]

theorem puts_sent (d : Driver τ π δ) (w w' : Line τ π δ) (puts : Puts d w w') : Sent d w w' := by
  have esc : w'.esc = w.esc := congrArg Receiver.esc puts.receiver
  have drop : w'.drop = w.drop := congrArg Receiver.drop puts.receiver
  have rcvBuf : w'.rcvBuf = w.rcvBuf := congrArg Receiver.rcvBuf puts.receiver
  refine ⟨?_, congrArg Receiver.seen puts.receiver, congrArg Receiver.delivered puts.receiver, puts.kin, puts.begun⟩
  unfold rx
  rw [esc, drop, rcvBuf]

theorem send_sent (d : Driver τ π δ) (tame : Tame d) (w : Line τ π δ) (kept : Kept d w) : Sent d w (send d w) :=
  puts_sent d w _ (send_puts d tame w kept.outSound (kept_large d w kept)).1

theorem set_sending_sent (d : Driver τ π δ) (w : Line τ π δ) (flag : Bool) : Sent d w (setSending w flag) :=
  sent_still d w _ rfl rfl rfl rfl rfl rfl rfl

theorem output_sent (d : Driver τ π δ) (tame : Tame d) (w : Line τ π δ) (packet : π) (pri : BitVec 16)
    (carried : Carried d w) : Sent d w (output d w packet pri) := by
  have idle : Sent d w w := sent_still d w w rfl rfl rfl rfl rfl rfl rfl
  unfold output
  split
  · exact idle
  · cases ifEnqueue w.snd packet pri with
    | none => exact idle
    | some snd =>
        have queued : Sent d w { w with snd := snd } := sent_still d w _ rfl rfl rfl rfl rfl rfl rfl
        have kept : Kept d { w with snd := snd } := ⟨carried.inSound, carried.inSize, carried.outSound, carried.outSize,
          carried.roomy, carried.overrun, carried.received, carried.sent⟩
        dsimp only [serialSend]
        split
        · exact queued
        · exact sent_trans d _ _ _ queued (sent_trans d _ _ _ (send_sent d tame _ kept) (set_sending_sent d _ true))

theorem refill_sent (d : Driver τ π δ) (tame : Tame d) (w : Line τ π δ) (kept : Kept d w) : Sent d w (refill d w) := by
  have more : ∀ w1 : Line τ π δ, Sent d w w1 →
      Sent d w (if w1.output.head ≠ w1.output.tail then setSending w1 true else w1) := by
    intro w1 sent
    split
    · exact sent_trans d _ _ _ sent (set_sending_sent d w1 true)
    · exact sent
  unfold refill
  split
  · by_cases empty : w.output.tail = w.output.head
    · rw [if_pos empty]
      exact more _ (sent_trans d _ _ _ (set_sending_sent d w false) (send_sent d tame _ (set_sending_kept d w false kept)))
    · rw [if_neg empty]
      exact more _ (send_sent d tame w kept)
  · exact sent_still d w w rfl rfl rfl rfl rfl rfl rfl

theorem write_dev_sent (d : Driver τ π δ) (tame : Tame d) (w : Line τ π δ) (a : Answers) (carried : Carried d w) :
    Sent d w (writeDev d w a) := by
  have counted : ∀ (w1 : Line τ π δ) (nr : Int), Sent d w1 (setNwrite w1 nr) :=
    fun w1 nr => sent_still d w1 _ rfl rfl rfl rfl rfl rfl rfl
  unfold writeDev
  split
  · split
    · have drained := write_pieces_drained w a carried.outSound
      have kept := drained_kept d w _ carried.toKept drained
      have passed : Sent d w (writeFromStart a (writeToEnd w a)).2.2 := by
        rw [drained.same]
        exact sent_still d w _ rfl rfl rfl rfl rfl rfl rfl
      exact sent_trans d _ _ _ passed (sent_trans d _ _ _ (refill_sent d tame _ kept) (counted _ _))
    · exact counted w _
  · exact sent_still d w w rfl rfl rfl rfl rfl rfl rfl

theorem read_dev_sent (d : Driver τ π δ) (w : Line τ π δ) (a : Answers) (sound : w.input.Sound) : Sent d w (readDev w a) := by
  unfold readDev
  split
  · have fed := read_pieces_fed w a sound
    have got : Sent d w (readFromStart a (readToEnd w a)).2.2 := by
      rw [fed.same]
      exact sent_still d w _ rfl rfl rfl rfl rfl rfl rfl
    exact sent_trans d _ _ _ got (sent_still d _ _ rfl rfl rfl rfl rfl rfl rfl)
  · exact sent_still d w _ rfl rfl rfl rfl rfl rfl rfl

theorem sent_framed (d : Driver τ π δ) (kin : τ → τ → Prop) (steady : Steady d kin) (opt : τ) (w w' : Line τ π δ)
    (texts : List (List Byte)) (rest : List Byte) (outs : List (Option δ)) (sent : Sent d w w')
    (framed : Framed d kin opt w.seen (rx w) w.delivered texts rest outs) :
    Framed d kin opt w'.seen (rx w') w'.delivered texts rest outs := by
  have within := framed.within
  rw [sent.rx, sent.seen, sent.delivered]
  exact ⟨⟨within.esc, within.whole, within.dropped⟩, framed.answers, framed.row, framed.whole, framed.partial',
    steady.trans _ _ _ framed.same (sent.kin kin steady), framed.result⟩

-- The states of a line: what it received, and what became of it.
def Followed (d : Driver τ π δ) (kin : τ → τ → Prop) (opt : τ) (w : Line τ π δ) : Prop :=
  ∃ texts rest outs, Framed d kin opt w.seen (rx w) w.delivered texts rest outs

theorem reads_followed (d : Driver τ π δ) (kin : τ → τ → Prop) (steady : Steady d kin) (opt : τ) (positive : 0 < d.limit opt)
    (w w' : Line τ π δ) (reads : Reads d (d.limit w.opt) w w') (followed : Followed d kin opt w) : Followed d kin opt w' := by
  obtain ⟨texts, rest, outs, framed⟩ := followed
  obtain ⟨bytes, seen, -, state, delivered⟩ := reads.bytes
  rw [steady.limit opt w.opt framed.same] at state delivered
  rw [Followed, seen, state, delivered]
  exact framed_feed d kin steady opt positive w.seen (rx w) w.delivered texts rest outs bytes framed

-- One step of a line, cut where receiving ends and sending begins.
theorem step_parts (d : Driver τ π δ) (tame : Tame d) (w w' : Line τ π δ) (op : Op π) (carried : Carried d w)
    (done : step d w op = some w') :
    Sent d w w' ∨ ∃ w1 w2 memory, Sent d w w1 ∧ Carried d w1 ∧ recv d memory w1 = some w2 ∧ Carried d w2 ∧ Sent d w2 w' := by
  cases op with
  | output packet pri =>
      obtain rfl := Option.some.inj done
      exact Or.inl (output_sent d tame w packet pri carried)
  | work memory a =>
      have read := read_dev_carried d w a carried
      have got := read_dev_sent d w a carried.inSound
      obtain ⟨w1, heard, rfl⟩ := Option.map_eq_some_iff.mp done
      split at heard
      · have carried1 := reads_carried d tame _ w1 read (recv_reads d tame memory _ w1 read.inSound read.roomy heard)
        exact Or.inr ⟨readDev w a, w1, memory, got, read, heard, carried1, write_dev_sent d tame w1 a carried1⟩
      · obtain rfl := Option.some.inj heard
        exact Or.inl (sent_trans d _ _ _ got (write_dev_sent d tame _ a read))

theorem step_followed (d : Driver τ π δ) (tame : Tame d) (kin : τ → τ → Prop) (steady : Steady d kin) (opt : τ)
    (positive : 0 < d.limit opt) (w w' : Line τ π δ) (op : Op π) (carried : Carried d w) (followed : Followed d kin opt w)
    (done : step d w op = some w') : Followed d kin opt w' := by
  have still : ∀ w1 w2 : Line τ π δ, Followed d kin opt w1 → Sent d w1 w2 → Followed d kin opt w2 := by
    rintro w1 w2 ⟨texts, rest, outs, framed⟩ sent
    exact ⟨texts, rest, outs, sent_framed d kin steady opt w1 w2 texts rest outs sent framed⟩
  rcases step_parts d tame w w' op carried done with sent | ⟨w1, w2, memory, before, carried1, heard, -, after⟩
  · exact still w w' followed sent
  · have reads := recv_reads d tame memory w1 w2 carried1.inSound carried1.roomy heard
    exact still w2 w' (reads_followed d kin steady opt positive w1 w2 reads (still w w1 followed before)) after

theorem reached_followed (d : Driver τ π δ) (tame : Tame d) (kin : τ → τ → Prop) (steady : Steady d kin) (opt : τ)
    (positive : 0 < d.limit opt) (w : Line τ π δ) (reached : Reached d opt w) : Followed d kin opt w := by
  refine (reached_invariant d opt (fun w => Carried d w ∧ Followed d kin opt w) ?_ ?_ w reached).2
  · intro maxqlen curr ibuf obuf sizeIn sizeOut
    refine ⟨opened_carried d opt maxqlen curr ibuf obuf sizeIn sizeOut, [], [], [], fresh_within d opt positive opt, .nil, rfl,
      ?_, List.not_mem_nil, steady.refl opt, rfl⟩
    intro text none'
    cases none'
  · rintro w w' op ⟨carried, followed⟩ done
    exact ⟨step_carried d tame w w' op carried done,
      step_followed d tame kin steady opt positive w w' op carried followed done⟩

-- A buffer without room: the driver returns only as long as it does not get one.
theorem recv_silent (d : Driver τ π δ) (memory : Nat → Bool) (w w' : Line τ π δ) (roomy : Roomy (d.limit w.opt) w)
    (closed : d.limit w.opt ≤ 0) (done : recv d memory w = some w') : rx w' = rx w ∧ w'.seen = w.seen ∧ w'.delivered = w.delivered := by
  rw [recv, recvLoop] at done
  split at done
  · obtain rfl := Option.some.inj done
    exact ⟨rfl, rfl, rfl⟩
  · rename_i some'
    cases got : rcvBufOf d memory w with
    | mk b w1 =>
        cases b with
        | none =>
            rw [got] at done
            obtain rfl := Option.some.inj done
            rcases rcv_buf_cases d memory w w1 none got with ⟨-, rfl⟩ | ⟨-, rfl, -⟩ <;> exact ⟨rfl, rfl, rfl⟩
        | some b =>
            have stuck := recv_stuck d memory (w.input.used + 1) w w1 b some' got (buf_positive d memory w w1 b roomy got closed)
            rw [recvLoop, if_neg some'] at stuck
            rw [stuck] at done
            cases done

theorem reached_silent (d : Driver τ π δ) (tame : Tame d) (kin : τ → τ → Prop) (steady : Steady d kin) (opt : τ)
    (closed : d.limit opt ≤ 0) (w : Line τ π δ) (reached : Reached d opt w) : w.seen = [] ∧ w.delivered = [] := by
  have sent' : ∀ w1 w2 : Line τ π δ, kin opt w1.opt ∧ w1.seen = [] ∧ w1.delivered = [] → Sent d w1 w2 →
      kin opt w2.opt ∧ w2.seen = [] ∧ w2.delivered = [] := by
    rintro w1 w2 ⟨same, seen, delivered⟩ sent
    exact ⟨steady.trans _ _ _ same (sent.kin kin steady), sent.seen.trans seen, sent.delivered.trans delivered⟩
  refine (reached_invariant d opt (fun w => Carried d w ∧ kin opt w.opt ∧ w.seen = [] ∧ w.delivered = []) ?_ ?_ w reached).2.2
  · intro maxqlen curr ibuf obuf sizeIn sizeOut
    exact ⟨opened_carried d opt maxqlen curr ibuf obuf sizeIn sizeOut, steady.refl opt, rfl, rfl⟩
  · rintro w w' op ⟨carried, inv⟩ done
    refine ⟨step_carried d tame w w' op carried done, ?_⟩
    rcases step_parts d tame w w' op carried done with sent | ⟨w1, w2, memory, before, carried1, heard, -, after⟩
    · exact sent' w w' inv sent
    · obtain ⟨same, seen, delivered⟩ := sent' w w1 inv before
      obtain ⟨state, seen2, delivered2⟩ := recv_silent d memory w1 w2 carried1.roomy
        (by rw [steady.limit opt w1.opt same]; exact closed) heard
      have opt2 : w2.opt = w1.opt := congrArg Rx.opt state
      exact sent' w2 w' ⟨by rw [opt2]; exact same, seen2.trans seen, delivered2.trans delivered⟩ after

-- Compression is off: no frame changes the options, on its way out or in.
structure Still (d : Driver τ π δ) (opt : τ) : Prop where
  build : ∀ packet, (d.build opt packet).1 = opt
  close : ∀ bytes, (d.close opt bytes).1 = opt

theorem still_feed (d : Driver τ π δ) (opt : τ) (still : Still d opt) (limit : Int) (a : Rx τ) (bytes : List Byte)
    (same : a.opt = opt) : (feed d limit a bytes).1.opt = opt := by
  induction bytes generalizing a with
  | nil => exact same
  | cons c rest ih =>
      apply ih
      have char : (a.char d c).1.opt = opt := by
        unfold Rx.char
        split
        · split
          · exact same
          · rw [same]
            exact still.close a.bytes
        · exact same
      unfold Rx.step Rx.limited
      dsimp only
      split <;> exact char

-- The bytes put, with those still to be put for the frame under way, are those of the packets taken.
theorem reached_streamed (d : Driver τ π δ) (tame : Tame d) (opt : τ) (still : Still d opt) (w : Line τ π δ)
    (reached : Reached d opt w) : w.opt = opt ∧ w.put ++ pending d w = streamed d opt w.taken := by
  have sent' : ∀ w1 w2 : Line τ π δ, w1.opt = opt ∧ w1.put ++ pending d w1 = streamed d opt w1.taken → Sent d w1 w2 →
      w2.opt = opt ∧ w2.put ++ pending d w2 = streamed d opt w2.taken := by
    rintro w1 w2 ⟨same, all⟩ sent
    obtain ⟨packets, taken, owed⟩ := sent.begun
    obtain ⟨same2, all2⟩ := owed (by rw [same]; exact still.build)
    refine ⟨same2.trans same, ?_⟩
    rw [all2, all, taken, same, streamed_append]
  refine (reached_invariant d opt (fun w => Carried d w ∧ w.opt = opt ∧ w.put ++ pending d w = streamed d opt w.taken)
    ?_ ?_ w reached).2
  · intro maxqlen curr ibuf obuf sizeIn sizeOut
    exact ⟨opened_carried d opt maxqlen curr ibuf obuf sizeIn sizeOut, rfl, rfl⟩
  · rintro w w' op ⟨carried, inv⟩ done
    refine ⟨step_carried d tame w w' op carried done, ?_⟩
    rcases step_parts d tame w w' op carried done with sent | ⟨w1, w2, memory, before, carried1, heard, -, after⟩
    · exact sent' w w' inv sent
    · have inv1 := sent' w w1 inv before
      have reads := recv_reads d tame memory w1 w2 carried1.inSound carried1.roomy heard
      obtain ⟨bytes, -, -, state, -⟩ := reads.bytes
      have same2 : w2.opt = opt := (congrArg Rx.opt state).trans (still_feed d opt still _ (rx w1) bytes inv1.1)
      have put : w2.put = w1.put := congrArg Sender.put reads.sender
      have taken : w2.taken = w1.taken := congrArg Sender.taken reads.sender
      have sndBuf : w2.sndBuf = w1.sndBuf := congrArg Sender.sndBuf reads.sender
      have owed : pending d w2 = pending d w1 := by
        unfold pending
        rw [sndBuf, same2, inv1.1]
      exact sent' w2 w' ⟨same2, by rw [put, taken, owed]; exact inv1.2⟩ after

end MagxNet.Sld
