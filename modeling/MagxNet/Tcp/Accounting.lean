import MagxNet.Tcp.Queue

set_option autoImplicit false

namespace MagxNet.Tcp

theorem rdrop_while_head {α : Type} (p : α → Bool) (l : List α) (x : α) (first : l.head? = some x) :
    (l.rdropWhile p).head? = some x ∨ (l.rdropWhile p = [] ∧ p x = true) := by
  cases kept : l.rdropWhile p with
  | nil =>
      refine .inr ⟨rfl, ?_⟩
      exact List.rdropWhile_eq_nil_iff.mp kept x (List.mem_of_head? first)
  | cons y rest =>
      obtain ⟨tail, whole⟩ := List.rdropWhile_prefix p l
      rw [← whole, kept] at first
      exact .inl first

theorem drop_while_last {α : Type} (p : α → Bool) (l : List α) (x : α) (last : l.getLast? = some x) :
    (l.dropWhile p).getLast? = some x ∨ (l.dropWhile p = [] ∧ p x = true) := by
  cases kept : l.dropWhile p with
  | nil =>
      refine .inr ⟨rfl, ?_⟩
      exact List.dropWhile_eq_nil_iff.mp kept x (List.mem_of_getLast? last)
  | cons y rest =>
      obtain ⟨front, whole⟩ := List.dropWhile_suffix p (l := l)
      rw [← whole, kept, List.getLast?_append_of_ne_nil _ (List.cons_ne_nil y rest)] at last
      exact .inl last

theorem hole_in_split (seq1st seqnxt : Seq) (q before behind : List Buf)
    (found : holeIn seq1st seqnxt q = some (before, behind)) :
    q = before ++ behind ∧ before ≠ [] ∧ behind ≠ [] := by
  induction q generalizing before behind with
  | nil => simp [holeIn] at found
  | cons b rest ih =>
      cases rest with
      | nil => simp [holeIn] at found
      | cons next rest =>
          rw [holeIn] at found
          cases deeper : holeIn seq1st seqnxt (next :: rest) with
          | some cut =>
              rw [deeper] at found
              obtain ⟨rfl, rfl⟩ := Prod.mk.inj (Option.some.inj found)
              obtain ⟨split, -, nonempty⟩ := ih cut.1 cut.2 deeper
              exact ⟨by rw [split, List.cons_append], List.cons_ne_nil _ _, nonempty⟩
          | none =>
              rw [deeper] at found
              dsimp only at found
              split at found
              · obtain ⟨rfl, rfl⟩ := Prod.mk.inj (Option.some.inj found)
                exact ⟨rfl, List.cons_ne_nil _ _, List.cons_ne_nil _ _⟩
              · cases found

theorem counted_cons (q : Dataq) (first last : Buf) (atHead : q.q.head? = some first)
    (atLast : q.q.getLast? = some last) : Counted q ↔ q.curdatalen = SEQNXT last - SEQ1ST first := by
  rw [Counted, atHead, atLast]

-- Where the queue starts once a buffer is inserted behind before, with what it overlays removed.
theorem insert_head (before tail : List Buf) (buf : Buf) (overlaid : Buf → Bool) (start : Seq)
    (alone : before = [] → SEQ1ST buf = start)
    (kept : ∀ first, before.head? = some first → SEQ1ST first = start ∧ (overlaid first → SEQ1ST buf = start)) :
    ∃ first, (before.rdropWhile overlaid ++ buf :: tail).head? = some first ∧ SEQ1ST first = start := by
  cases atHead : before.head? with
  | none =>
      have empty := List.head?_eq_none_iff.mp atHead
      refine ⟨buf, ?_, alone empty⟩
      rw [empty, List.rdropWhile_nil, List.nil_append, List.head?_cons]
  | some first =>
      obtain ⟨same, swallowed⟩ := kept first atHead
      rcases rdrop_while_head overlaid before first atHead with still | ⟨gone, hidden⟩
      · exact ⟨first, by rw [List.head?_append, still, Option.some_or], same⟩
      · exact ⟨buf, by rw [gone, List.nil_append, List.head?_cons], swallowed hidden⟩

theorem insert_last (before behind : List Buf) (buf : Buf) (covered : Buf → Bool) (stop : Seq)
    (alone : behind = [] → SEQNXT buf = stop)
    (kept : ∀ last, behind.getLast? = some last → SEQNXT last = stop ∧ (covered last → SEQNXT buf = stop)) :
    ∃ last, (before ++ buf :: behind.dropWhile covered).getLast? = some last ∧ SEQNXT last = stop := by
  rw [List.getLast?_append_of_ne_nil _ (List.cons_ne_nil _ _)]
  cases atLast : behind.getLast? with
  | none =>
      have empty := List.getLast?_eq_none_iff.mp atLast
      exact ⟨buf, by rw [empty, List.dropWhile_nil, List.getLast?_singleton], alone empty⟩
  | some last =>
      obtain ⟨same, swallowed⟩ := kept last atLast
      rcases drop_while_last covered behind last atLast with still | ⟨gone, hidden⟩
      · refine ⟨last, ?_, same⟩
        rw [List.getLast?_cons, still, Option.getD_some]
      · exact ⟨buf, by rw [gone, List.getLast?_singleton], swallowed hidden⟩

-- The segment reaches beyond the queue at both ends.
def Straddles (q : Dataq) (buf : Buf) : Prop :=
  buf.th.urgptr ≠ 0 ∧ ∃ first ∈ q.q.head?, ∃ last ∈ q.q.getLast?,
    SEQLT (SEQNXT last) (SEQNXT buf) ∧ SEQLT (SEQ1ST buf) (SEQ1ST first)

theorem counted_of_ends (q : Dataq) (start stop : Seq)
    (atHead : ∃ first, q.q.head? = some first ∧ SEQ1ST first = start)
    (atLast : ∃ last, q.q.getLast? = some last ∧ SEQNXT last = stop)
    (count : q.curdatalen = stop - start) : Counted q := by
  obtain ⟨first, isFirst, rfl⟩ := atHead
  obtain ⟨last, isLast, rfl⟩ := atLast
  exact (counted_cons q first last isFirst isLast).mpr count

-- What placeFor offers: a cut of the queue, and a count that spans both the queue and the segment.
structure Placed (q : Dataq) (buf : Buf) (before behind : List Buf) (cur : BitVec 32) : Prop where
  split : q.q = before ++ behind
  span : ∃ start stop, cur = stop - start
    ∧ (before = [] → SEQ1ST buf = start) ∧ (behind = [] → SEQNXT buf = stop)
    ∧ (∀ first, before.head? = some first → SEQ1ST first = start
        ∧ (SEQLE (SEQ1ST buf) (SEQ1ST first) → SEQ1ST buf = start))
    ∧ (∀ last, behind.getLast? = some last → SEQNXT last = stop
        ∧ (SEQLE (SEQNXT last) (SEQNXT buf) → SEQNXT buf = stop))

theorem placed_counted (q : Dataq) (buf : Buf) (before behind : List Buf) (cur : BitVec 32)
    (placed : Placed q buf before behind cur) (covered overlaid : Buf → Bool)
    (isCovered : ∀ b, covered b → SEQLE (SEQNXT b) (SEQNXT buf))
    (isOverlaid : ∀ b, overlaid b → SEQLE (SEQ1ST buf) (SEQ1ST b)) :
    Counted { q with curdatalen := cur, q := before.rdropWhile overlaid ++ buf :: behind.dropWhile covered } := by
  obtain ⟨start, stop, count, aloneFirst, aloneLast, first, last⟩ := placed.span
  apply counted_of_ends _ start stop _ _ count
  · apply insert_head before _ buf overlaid start aloneFirst
    intro b atHead
    exact ⟨(first b atHead).1, fun hidden => (first b atHead).2 (isOverlaid b hidden)⟩
  · apply insert_last _ behind buf covered stop aloneLast
    intro b atLast
    exact ⟨(last b atLast).1, fun hidden => (last b atLast).2 (isCovered b hidden)⟩

theorem place_for_placed (q : Dataq) (buf : Buf) (before behind : List Buf) (cur : BitVec 32)
    (counted : Counted q) (real : buf.th.urgptr ≠ 0) (clear : ¬ Straddles q buf)
    (found : placeFor q buf = some (before, behind, cur)) : Placed q buf before behind cur := by
  unfold placeFor at found
  cases atHead : q.q.head? with
  | none =>
      rw [atHead] at found
      obtain ⟨rfl, rfl, rfl⟩ := by simpa using found
      refine ⟨List.head?_eq_none_iff.mp atHead, SEQ1ST buf, SEQNXT buf, ?_, fun _ => rfl, fun _ => rfl, ?_, ?_⟩
      · rw [SEQNXT, SEQ1ST, BitVec.add_comm, BitVec.add_sub_cancel]
      · simp
      · simp
  | some first =>
      obtain ⟨last, atLast⟩ : ∃ last, q.q.getLast? = some last := by
        cases shape : q.q with
        | nil => simp [shape] at atHead
        | cons b rest => exact ⟨_, List.getLast?_cons⟩
      have count := (counted_cons q first last atHead atLast).mp counted
      rw [atHead, atLast] at found
      dsimp only at found
      split at found
      · rename_i longer
        obtain ⟨rfl, rfl, rfl⟩ := by simpa using found
        refine ⟨(List.append_nil _).symm, SEQ1ST first, SEQNXT buf, by rw [count]; abel, ?_, fun _ => rfl, ?_, ?_⟩
        · intro empty
          simp [empty] at atHead
        · intro b isFirst
          rw [atHead] at isFirst
          obtain rfl := Option.some.inj isFirst
          refine ⟨rfl, fun overlaid => Serial.eq_of_le_of_not_lt _ _ overlaid ?_⟩
          intro earlier
          exact clear ⟨real, first, atHead, last, atLast, longer, earlier⟩
        · simp
      · rename_i notLonger
        split at found
        · obtain ⟨rfl, rfl, rfl⟩ := by simpa using found
          refine ⟨(List.nil_append _).symm, SEQ1ST buf, SEQNXT last, by rw [count]; abel, fun _ => rfl, ?_, ?_, ?_⟩
          · intro empty
            simp [empty] at atLast
          · simp
          · intro b isLast
            rw [atLast] at isLast
            obtain rfl := Option.some.inj isLast
            exact ⟨rfl, fun covered => (Serial.eq_of_le_of_not_lt _ _ covered notLonger).symm⟩
        · rename_i notEarlier
          obtain ⟨cut, hole, result⟩ := Option.map_eq_some_iff.mp found
          obtain ⟨rfl, rfl, rfl⟩ := by simpa using result
          obtain ⟨split, left, right⟩ := hole_in_split _ _ _ _ _ hole
          refine ⟨split, SEQ1ST first, SEQNXT last, count, fun empty => (left empty).elim,
            fun empty => (right empty).elim, ?_, ?_⟩
          · intro b isFirst
            rw [split, List.head?_append, isFirst] at atHead
            obtain rfl := Option.some.inj atHead
            exact ⟨rfl, fun overlaid => Serial.eq_of_le_of_not_lt _ _ overlaid notEarlier⟩
          · intro b isLast
            rw [split, List.getLast?_append, isLast] at atLast
            obtain rfl := Option.some.inj atLast
            exact ⟨rfl, fun covered => (Serial.eq_of_le_of_not_lt _ _ covered notLonger).symm⟩

theorem add_counted (q : Dataq) (buf : Buf) (counted : Counted q) (clear : ¬ Straddles q buf) :
    Counted (tcpAddseg q buf).q := by
  unfold tcpAddseg
  split
  · exact counted
  · rename_i real
    cases found : placeFor q (buf.mark false) with
    | none => exact counted
    | some cut =>
        obtain ⟨before, behind, cur⟩ := cut
        have placed := place_for_placed q (buf.mark false) before behind cur counted real clear found
        apply placed_counted q (buf.mark false) before behind cur placed
        · intro b covered
          exact of_decide_eq_true covered
        · intro b overlaid
          exact of_decide_eq_true overlaid

theorem drop_marked_counted (q : Dataq) (lowest : Seq) (bufs : List Buf) (freed : List Nat)
    (counted : Counted { q with q := bufs }) : Counted (dropMarked q lowest bufs freed).1 := by
  induction bufs generalizing q lowest freed with
  | nil => exact counted
  | cons b rest ih =>
      rw [dropMarked]
      split
      · apply ih
        cases rest with
        | nil => rfl
        | cons next rest =>
            obtain ⟨last, atLast⟩ : ∃ last, (next :: rest).getLast? = some last := ⟨_, List.getLast?_cons⟩
            have whole : (b :: next :: rest).getLast? = some last := by
              rw [List.getLast?_cons_cons, atLast]
            rw [counted_cons _ b last rfl whole] at counted
            rw [counted_cons _ next last rfl atLast]
            dsimp only at counted ⊢
            rw [lenWithout, counted]
            abel
      · exact counted

theorem flush_counted (q : Dataq) : Counted (flushQueue q) := rfl

theorem mark_counted (q : Dataq) (marks : Buf → Bool) (counted : Counted q) :
    Counted { q with q := q.q.map fun b => b.mark (marks b) } := by
  unfold Counted at counted ⊢
  rw [List.head?_map, List.getLast?_map]
  cases atHead : q.q.head? with
  | none =>
      rw [atHead] at counted
      exact counted
  | some first =>
      rw [atHead] at counted
      cases atLast : q.q.getLast? with
      | none =>
          rw [atLast] at counted
          exact counted
      | some last =>
          rw [atLast] at counted
          exact counted

-- What happens to a receive queue: segments are added, the reader marks those it is done with, the
-- marked ones at the front are dropped, and everything is flushed.
inductive QueueOp where
  | add (buf : Buf)
  | mark (marks : Buf → Bool)
  | drop (lowest : Seq)
  | flush

def queueStep (q : Dataq) : QueueOp → Dataq
  | .add buf => (tcpAddseg q buf).q
  | .mark marks => { q with q := q.q.map fun b => b.mark (marks b) }
  | .drop lowest => (dropMarked q lowest q.q []).1
  | .flush => flushQueue q

def queueAfter (q : Dataq) (ops : List QueueOp) : Dataq := ops.foldl queueStep q

-- No segment of the sequence reaches beyond the queue it finds at both ends.
def Clear (q : Dataq) : List QueueOp → Prop
  | [] => True
  | op :: ops => (∀ buf, op = .add buf → ¬ Straddles q buf) ∧ Clear (queueStep q op) ops

theorem queue_step_counted (q : Dataq) (op : QueueOp) (counted : Counted q)
    (clear : ∀ buf, op = .add buf → ¬ Straddles q buf) : Counted (queueStep q op) := by
  cases op with
  | add buf => exact add_counted q buf counted (clear buf rfl)
  | mark marks => exact mark_counted q marks counted
  | drop lowest => exact drop_marked_counted q lowest q.q [] counted
  | flush => exact flush_counted q

theorem queue_after_counted (q : Dataq) (ops : List QueueOp) (counted : Counted q) (clear : Clear q ops) :
    Counted (queueAfter q ops) := by
  induction ops generalizing q with
  | nil => exact counted
  | cons op ops ih => exact ih (queueStep q op) (queue_step_counted q op counted clear.1) clear.2

-- A segment that straddles the queue and overlays all of it leaves a count that is too small.
theorem straddling_miscounts (q : Dataq) (buf : Buf) (counted : Counted q) (straddles : Straddles q buf)
    (overlaid : ∀ b ∈ q.q, SEQLE (SEQ1ST buf) (SEQ1ST b)) : ¬ Counted (tcpAddseg q buf).q := by
  obtain ⟨real, first, atHead, last, atLast, longer, earlier⟩ := straddles
  have count := (counted_cons q first last atHead atLast).mp counted
  have placed : placeFor q (buf.mark false) = some (q.q, [], q.curdatalen + (SEQNXT buf - SEQNXT last)) := by
    rw [placeFor, atHead, atLast]
    exact if_pos longer
  have swallowed : q.q.rdropWhile (fun b => decide (SEQLE (SEQ1ST (buf.mark false)) (SEQ1ST b))) = [] := by
    rw [List.rdropWhile_eq_nil_iff]
    intro b member
    exact decide_eq_true (overlaid b member)
  intro after
  rw [tcpAddseg, if_neg real, placed] at after
  dsimp only [linkSeg] at after
  rw [swallowed, List.nil_append, List.dropWhile_nil,
    counted_cons _ (buf.mark false) (buf.mark false) rfl rfl] at after
  dsimp only at after
  rw [count, mark_seq1st, mark_seqnxt] at after
  have same : SEQ1ST buf = SEQ1ST first := by
    have gap : SEQNXT last - SEQ1ST first + (SEQNXT buf - SEQNXT last) = SEQNXT buf - SEQ1ST first := by abel
    rw [gap] at after
    exact (sub_right_injective after).symm
  exact Serial.not_lt_self_of_eq _ _ same earlier

-- curdatalen spans the queue after any sequence in which no segment straddles the queue.
theorem receive_queue_counted (maxdatalen : Int) (ops : List QueueOp) (clear : Clear ⟨maxdatalen, 0, []⟩ ops) :
    Counted (queueAfter ⟨maxdatalen, 0, []⟩ ops) :=
  queue_after_counted _ ops rfl clear

def bareSeg (id : Nat) (seq : Seq) (len : BitVec 16) : Buf :=
  ⟨id, 0, ⟨0, 0, seq, 0, 5, false, TCPF_ACK, 0, 0, len, List.replicate len.toNat 0⟩⟩

theorem receive_queue_counted_front :
    Counted (queueAfter ⟨64240, 0, []⟩ [.add (bareSeg 1 1000 100), .add (bareSeg 2 950 60), .drop 0]) := by
  apply receive_queue_counted
  refine ⟨?_, ?_, ?_, trivial⟩
  · rintro buf ⟨⟩ ⟨-, first, empty, -⟩
    cases empty
  · rintro buf ⟨⟩ ⟨-, first, -, last, isLast, longer, -⟩
    obtain rfl := Option.some.inj isLast
    revert longer
    decide
  · rintro buf ⟨⟩

-- The second segment starts before the first and ends behind it; 200 is recorded for a span of 300.
theorem receive_queue_miscounted :
    ¬ Counted (queueAfter ⟨64240, 0, []⟩ [.add (bareSeg 1 1000 100), .add (bareSeg 2 900 300)]) := by
  decide

end MagxNet.Tcp
