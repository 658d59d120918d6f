import MagxNet.Tcp.Ledger

set_option autoImplicit false

namespace MagxNet.Tcp

open Bytes Serial

theorem seq_lt_of_not_le (x y : Seq) (above : ¬ SEQLE x y) : SEQLT y x := by
  have back : y - x = -(x - y) := by abel
  have high := BitVec.toInt_lt (x := x - y)
  unfold SEQLE le at above
  unfold SEQLT lt
  rw [back, BitVec.toInt_neg_of_ne_intMin]
  · omega
  · intro least
    rw [least] at above
    exact above (by decide)

theorem ledger_raise_max (w : World) (x : Nat) (nxt : w.tcb.sndNxt = place (ledger w).isn x) {s u m : Nat}
    (kept : Kept (ledger w) s u m) (low : s ≤ x) (high : x ≤ (ledger w).stream.length) :
    Kept (ledger (raiseMax w)) s u (max m x) := by
  have raised := kept_raise kept x low high
  rw [← nxt] at raised
  unfold raiseMax
  split
  · rename_i later
    rw [if_pos (by exact later)] at raised
    exact raised
  · rename_i earlier
    rw [if_neg (by exact earlier)] at raised
    exact raised

-- What ip_send is given lies in the window, and part of the segment does.
theorem sndseg_sent (env : Env) (w : World) (b : Buf) (rest : List Buf) (nretrans : Int) (wnd1st wndnxt : Seq)
    (sent : 0 ≤ (tcpSndseg env w b rest nretrans wnd1st wndnxt).1) :
    ¬ SEQLE wndnxt (SEQ1ST b) ∧ ¬ SEQLE (seqEnd b) wnd1st := by
  rw [← not_or]
  intro outside
  have cut : sndsegCut b wnd1st wndnxt = .outside := if_pos outside
  revert sent
  unfold tcpSndseg bufAlloc
  dsimp only
  split
  · simp [ENOMEM]
  · rw [cut]
    simp

@[simp] theorem advance_data (w : World) (nxt : Seq) : (sndAdvance w nxt).data = w.data := by
  unfold sndAdvance raiseMax
  split <;> rfl

@[simp] theorem give_up_data (w : World) (r : Int) (seqnxt : Seq) : (sndGiveUp w r seqnxt).data = w.data :=
  advance_data (easeBackoff w r) seqnxt

@[simp] theorem failed_snd (w : World) (r : Int) : (sndFailed w r).data.snd = w.data.snd := by
  unfold sndFailed
  split <;> rfl

@[simp] theorem ledger_failed (w : World) (r : Int) : ledger (sndFailed w r) = ledger w := by
  unfold sndFailed
  split <;> rfl

theorem ledger_advance (w : World) (x : Nat) (nxt : Seq) (isX : nxt = place (ledger w).isn x) {s u m : Nat}
    (kept : Kept (ledger w) s u m) (low : s ≤ x) (high : x ≤ (ledger w).stream.length) :
    Kept (ledger (sndAdvance w nxt)) s u (max m x) :=
  ledger_raise_max (setSndNxt w nxt) x isX kept low high

theorem snd_loop_raises (env : Env) (wndnxt : Seq) (bufs front : List Buf) (sent : Nat) (rttseq : Seq) (w : World)
    (queued : w.data.snd.q = front ++ bufs) :
    Raises (ledger w) (ledger (sndLoop env wndnxt bufs sent rttseq w).world)
      ∧ (sndLoop env wndnxt bufs sent rttseq w).world.data.snd = w.data.snd
      ∧ (sndLoop env wndnxt bufs sent rttseq w).queue.map Buf.th = bufs.map Buf.th := by
  induction bufs generalizing front sent rttseq w with
  | nil => exact ⟨raises_refl _, rfl, rfl⟩
  | cons b rest ih =>
      rw [sndLoop]
      split
      · have same := ledger_sndseg_plain env w b rest w.tcb.sndNxt wndnxt
        have snd := sndseg_keeps_queue env w b rest 0 w.tcb.sndNxt wndnxt
        have inside := sndseg_sent env w b rest 0 w.tcb.sndNxt wndnxt
        have split : (ledger w).segs = front.map Buf.th ++ b.th :: rest.map Buf.th := by
          change w.data.snd.q.map Buf.th = _
          rw [queued, List.map_append, List.map_cons]
        cases got : tcpSndseg env w b rest 0 w.tcb.sndNxt wndnxt with
        | mk r w1 =>
            rw [got] at same snd inside
            dsimp only at same snd inside ⊢
            split
            · split
              · refine ⟨?_, ?_, rfl⟩
                · intro s u m kept
                  obtain ⟨i, low, seq, ok, high, -, -⟩ := kept.located _ _ _ split
                  have failed : ledger (easeBackoff (sndFailed w1 r) r) = ledger w := (ledger_failed w1 r).trans same
                  rw [← failed] at kept seq high
                  exact ⟨_, le_max_left m (i + (items b.th).length),
                    ledger_advance (easeBackoff (sndFailed w1 r) r) _ _ (seq_end_place _ i b seq ok) kept (by omega) high⟩
                · simpa using snd
              · exact ⟨raises_of_eq _ _ ((ledger_failed w1 r).trans same), by simpa using snd, rfl⟩
            · rename_i notFailed
              have reached := inside (by omega)
              have raised : Raises (ledger w)
                  (ledger (sndAdvance w1 (if SEQLE (seqEnd b) wndnxt then seqEnd b else wndnxt))) := by
                intro s u m kept
                obtain ⟨i, low, seq, ok, high, -, -⟩ := kept.located _ _ _ split
                have near := kept.near
                have stop := seq_end_place _ i b seq ok
                have some : 0 < (items b.th).length := List.length_pos_of_ne_nil ok.some
                obtain ⟨x, above, below, isX⟩ : ∃ x : Nat, i < x ∧ x ≤ i + (items b.th).length
                    ∧ (if SEQLE (seqEnd b) wndnxt then seqEnd b else wndnxt) = place (ledger w).isn x := by
                  split
                  · exact ⟨_, by omega, le_refl _, stop⟩
                  · rename_i cutOff
                    have after := seq_lt_of_not_le _ _ reached.1
                    have before := seq_lt_of_not_le _ _ cutOff
                    rw [SEQ1ST, seq] at after
                    rw [stop] at before
                    obtain ⟨x, above, below, isX⟩ := between_lt_lt _ wndnxt (i : Int)
                      (i + (items b.th).length : Nat) (by omega) (by omega) after before
                    exact ⟨x.toNat, by omega, by omega, by rw [Int.toNat_of_nonneg (by omega)]; exact isX⟩
                rw [← same] at kept isX high
                exact ⟨_, le_max_left m x, ledger_advance w1 x _ isX kept (by omega) (by omega)⟩
              obtain ⟨later, snd3, ths⟩ := ih (front ++ [b]) (sent + 1) (if sent = 0 then w.tcb.sndNxt else rttseq)
                (sndAdvance w1 (if SEQLE (seqEnd b) wndnxt then seqEnd b else wndnxt))
                (by rw [advance_data, snd, queued, List.append_assoc]; rfl)
              refine ⟨raises_trans _ _ _ raised later, by rw [snd3, advance_data, snd], ?_⟩
              rw [List.map_cons, List.map_cons, ths]
      · exact ⟨raises_refl _, rfl, rfl⟩

theorem ledger_sndhead_done (skipped : List Buf) (done : SndLoop)
    (queue : (skipped ++ done.queue).map Buf.th = done.world.data.snd.q.map Buf.th) :
    ledger (sndheadDone skipped done) = ledger done.world := by
  have put : ∀ x : World, ledger x = ledger done.world → ledger (setSndq x (skipped ++ done.queue)) = ledger done.world := by
    intro x alike
    have onlySegs : ledger (setSndq x (skipped ++ done.queue)) = { ledger x with segs := done.world.data.snd.q.map Buf.th } := by
      rw [← queue]
      rfl
    rw [onlySegs, alike]
    rfl
  unfold sndheadDone
  apply put
  split <;> rfl

theorem sndhead_keeps (env : Env) (w : World) :
    Raises (ledger w) (ledger (tcpSndhead env w))
      ∧ (tcpSndhead env w).data.snd.q.map Buf.th = w.data.snd.q.map Buf.th := by
  unfold tcpSndhead
  split
  · exact ⟨raises_refl _, rfl⟩
  · split
    · split <;> exact ⟨raises_refl _, rfl⟩
    · rename_i last atLast
      have whole : w.data.snd.q.takeWhile (alreadySent w) ++ w.data.snd.q.dropWhile (alreadySent w) = w.data.snd.q :=
        List.takeWhile_append_dropWhile
      obtain ⟨raised, snd, ths⟩ := snd_loop_raises env (sndheadEdge w last) _ _ 0 0 w whole.symm
      generalize sent : sndheadLoop env w last = done at *
      rw [show sndLoop env (sndheadEdge w last) (w.data.snd.q.dropWhile (alreadySent w)) 0 0 w = done from sent]
        at raised snd ths
      have queue : (w.data.snd.q.takeWhile (alreadySent w) ++ done.queue).map Buf.th = w.data.snd.q.map Buf.th := by
        rw [List.map_append, ths, ← List.map_append, whole]
      have same := ledger_sndhead_done (w.data.snd.q.takeWhile (alreadySent w)) done (by rw [queue, snd])
      refine ⟨raises_trans _ _ _ raised (raises_of_eq _ _ same), ?_⟩
      have segs := congrArg Ledger.segs same
      change _ = done.world.data.snd.q.map Buf.th at segs
      rw [snd] at segs
      exact segs

theorem raises_sndhead (env : Env) (w : World) : Raises (ledger w) (ledger (tcpSndhead env w)) :=
  (sndhead_keeps env w).1

theorem raises_sndhead_pending (env : Env) (w : World) : Raises (ledger w) (ledger (sndheadPending env w)) := by
  unfold sndheadPending
  split
  · exact raises_sndhead env w
  · exact raises_refl _

theorem ledger_drag_urg (w : World) : ledger (dragUrg w) = ledger w := by
  unfold dragUrg
  split <;> rfl

theorem ledger_artt (w : World) : ledger (tcpArtt w) = ledger w := by
  unfold tcpArtt
  split
  · split <;> rfl
  · rfl

theorem ledger_rtt (w : World) (b : Buf) : ledger (tcpRtt w b) = ledger w := by
  unfold tcpRtt
  split
  · split <;> rfl
  · rfl

theorem ledger_count_acked (w : World) (n : Nat) : ledger (countAcked w n) = ledger w := by
  unfold countAcked
  rw [ledger_drag_urg]
  split
  · exact ledger_artt w
  · rfl

-- Without its first segment, which is acked, the queue starts at the next one.
theorem kept_drop {l : Ledger} {s u m : Nat} (kept : Kept l s u m) (th : Dgram) (rest : List Dgram)
    (split : l.segs = th :: rest) (acked : s + (items th).length ≤ u) :
    Kept { l with
      segs := rest
      count := if rest.isEmpty then 0 else l.count - BitVec.ofNat 32 th.urgptr.toNat } (s + (items th).length) u m := by
  have lined := kept.lined
  have content := kept.content
  have fits := kept.fits
  have count := kept.count
  have total : dataLen l.segs = th.urgptr.toNat + dataLen rest := by
    rw [split, dataLen, List.map_cons, List.sum_cons]
    rfl
  rw [split] at lined content
  refine { kept with lined := lined.2.2, content := ?_, unacked := acked, count := ?_, fits := ?_ }
  · rw [List.flatMap_cons] at content
    dsimp only
    rw [← List.drop_drop, ← content, List.drop_left]
  · dsimp only
    split
    · rename_i empty
      rw [List.isEmpty_iff.mp empty]
      rfl
    · rw [count, total, BitVec.ofNat_add, BitVec.add_comm, BitVec.add_sub_cancel]
  · dsimp only
    omega

theorem drop_acked_keeps (una : Seq) (bufs : List Buf) (n : Nat) (w : World) (isUna : w.tcb.sndUna = una)
    {s u m : Nat} (kept : Kept (ledger (setSndq w bufs)) s u m) :
    ∃ s', s ≤ s' ∧ Kept (ledger (dropAcked una bufs n w).2) s' u m
      ∧ ∀ b ∈ (dropAcked una bufs n w).2.data.snd.q.head?, ¬ SEQLE (seqEnd b) una := by
  induction bufs generalizing n w s with
  | nil => exact ⟨s, le_refl s, kept, by simp [dropAcked, setSndq]⟩
  | cons b rest ih =>
      rw [dropAcked]
      split
      · rename_i acked
        obtain ⟨i, low, seq, ok, high, -, -⟩ := kept.located [] (rest.map Buf.th) b.th rfl
        have atS : b.th.seq = place (ledger w).isn s := kept.lined.1
        have near := kept.near
        have started := kept.started
        have unacked := kept.unacked
        have written := kept.sent.trans kept.written
        have span := kept.span
        change (ledger w).stream.length = s + ((b.th :: rest.map Buf.th).flatMap items).length at span
        rw [List.flatMap_cons, List.length_append] at span
        have isU : una = place (ledger w).isn u := by
          rw [← isUna]
          exact kept.una
        change u ≤ (ledger w).stream.length at written
        change (ledger w).stream.length ≤ s + 65537 at near
        have order : s + (items b.th).length ≤ u := by
          rw [seq_end_place _ s b atS ok, isU, seq_le_near _ _ _ (by omega) (by omega)] at acked
          exact acked
        have dropped := kept_drop kept b.th (rest.map Buf.th) rfl order
        have next : ledger (setSndq (bufDeref (tcpRtt (shortenSnd w b rest) b) b.id) rest)
            = { ledger (setSndq w (b :: rest)) with
              segs := rest.map Buf.th
              count := if (rest.map Buf.th).isEmpty then 0
                else (ledger (setSndq w (b :: rest))).count - BitVec.ofNat 32 b.th.urgptr.toNat } := by
          have timed : ledger (setSndq (bufDeref (tcpRtt (shortenSnd w b rest) b) b.id) rest)
              = { ledger (tcpRtt (shortenSnd w b rest) b) with segs := rest.map Buf.th } := rfl
          rw [timed, ledger_rtt, List.isEmpty_map]
          rfl
        rw [← next] at dropped
        obtain ⟨s', later, done, first⟩ := ih (n + 1) (bufDeref (tcpRtt (shortenSnd w b rest) b) b.id)
          (by
            have same := congrArg Ledger.una (ledger_rtt (shortenSnd w b rest) b)
            exact Eq.trans same isUna) dropped
        exact ⟨s', by omega, done, first⟩
      · rename_i unacked
        refine ⟨s, le_refl s, kept, ?_⟩
        rintro c ⟨⟩
        exact unacked

theorem dropdata_keeps (w : World) {s u m : Nat} (kept : Kept (ledger w) s u m) :
    ∃ s', s ≤ s' ∧ Kept (ledger (tcpDropdata w).2) s' u m := by
  obtain ⟨s', later, done, -⟩ := drop_acked_keeps w.tcb.sndUna w.data.snd.q 0 w rfl kept
  refine ⟨s', later, ?_⟩
  unfold tcpDropdata
  dsimp only
  rw [ledger_count_acked]
  exact done

end MagxNet.Tcp
