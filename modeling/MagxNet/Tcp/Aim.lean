import MagxNet.Tcp.SegCalls

set_option autoImplicit false

namespace MagxNet.Tcp

open Bytes Serial

-- The window with its place a in the stream: it was told with an ack that is not beyond snd_una, and snd_nxt
-- is not far from it.
structure Aimed (w : World) (s u n m : Nat) (a : Int) : Prop where
  lies : Lies w s u n m
  ack : w.tcb.sndWndack = place w.tcb.sndIsn a
  behind : a ≤ u
  wnd : 0 ≤ w.tcb.sndWnd ∧ w.tcb.sndWnd ≤ 65535
  reach : n ≤ a + 131072

-- The first segment queued is not wholly acked.
def Ledger.trimmed (l : Ledger) : Prop := ∀ th ∈ l.segs.head?, SEQLT l.una (th.seq + BitVec.ofInt 32 (tcpSeglen th))

-- Nothing is acked or dropped, and the window stays in its place.
structure Carries (w w' : World) : Prop where
  segs : (ledger w').segs = (ledger w).segs
  una : w'.tcb.sndUna = w.tcb.sndUna
  aimed : ∀ s u n m a, Aimed w s u n m a → ∃ n' m', Aimed w' s u n' m' a

theorem carries_trans (w x w' : World) (first : Carries w x) (second : Carries x w') : Carries w w' where
  segs := second.segs.trans first.segs
  una := second.una.trans first.una
  aimed := by
    intro s u n m a aimed
    obtain ⟨n', m', aimed'⟩ := first.aimed s u n m a aimed
    exact second.aimed s u n' m' a aimed'

-- What sending leaves of the window.
theorem steady_window (w w' : World) (same : steady w' = steady w) :
    w'.tcb.sndIsn = w.tcb.sndIsn ∧ w'.tcb.sndWndack = w.tcb.sndWndack ∧ w'.tcb.sndWnd = w.tcb.sndWnd ∧ w'.tcb.sndUna = w.tcb.sndUna :=
  ⟨steady_same (·.tcb.sndIsn) w w' same fun _ => rfl, steady_same (·.tcb.sndWndack) w w' same fun _ => rfl,
    steady_same (·.tcb.sndWnd) w w' same fun _ => rfl, steady_same (·.tcb.sndUna) w w' same fun _ => rfl⟩

theorem aimed_of_lies (w w' : World) (isn : w'.tcb.sndIsn = w.tcb.sndIsn) (wndack : w'.tcb.sndWndack = w.tcb.sndWndack)
    (wnd : w'.tcb.sndWnd = w.tcb.sndWnd) {s u n m n' m' : Nat} {a : Int} (aimed : Aimed w s u n m a) (lies : Lies w' s u n' m')
    (reach : n' ≤ a + 131072) : Aimed w' s u n' m' a where
  lies := lies
  ack := by rw [wndack, isn, aimed.ack]
  behind := aimed.behind
  wnd := by rw [wnd]; exact aimed.wnd
  reach := reach

theorem aimed_of_eq (w w' : World) (kept : ledger w' = ledger w) (nxt : w'.tcb.sndNxt = w.tcb.sndNxt)
    (wndack : w'.tcb.sndWndack = w.tcb.sndWndack) (wnd : w'.tcb.sndWnd = w.tcb.sndWnd) {s u n m : Nat} {a : Int}
    (aimed : Aimed w s u n m a) : Aimed w' s u n m a :=
  aimed_of_lies w w' (congrArg Ledger.isn kept) wndack wnd aimed (lies_of_eq w w' kept nxt aimed.lies) aimed.reach

theorem carries_of_eq (w w' : World) (kept : ledger w' = ledger w) (nxt : w'.tcb.sndNxt = w.tcb.sndNxt)
    (wndack : w'.tcb.sndWndack = w.tcb.sndWndack) (wnd : w'.tcb.sndWnd = w.tcb.sndWnd) : Carries w w' where
  segs := congrArg Ledger.segs kept
  una := congrArg Ledger.una kept
  aimed := fun _ _ n m _ aimed => ⟨n, m, aimed_of_eq w w' kept nxt wndack wnd aimed⟩

theorem trimmed_of_carries (w w' : World) (carries : Carries w w') (trim : (ledger w).trimmed) : (ledger w').trimmed := by
  have una : (ledger w').una = (ledger w).una := carries.una
  unfold Ledger.trimmed
  rw [carries.segs, una]
  exact trim

-- In positions: the first segment ends behind snd_una.
theorem trimmed_place (w : World) (b : Buf) (rest : List Buf) (queued : w.data.snd.q = b :: rest) {s u m : Nat}
    (kept : Kept (ledger w) s u m) : (ledger w).trimmed ↔ u < s + (items b.th).length := by
  have split : (ledger w).segs = b.th :: rest.map Buf.th := by
    change w.data.snd.q.map Buf.th = _
    rw [queued, List.map_cons]
  have lined : Lined (ledger w).isn s (ledger w).segs := kept.lined
  have span := kept.span
  have near := kept.near
  have unacked := kept.unacked
  have written := kept.sent.trans kept.written
  rw [split] at lined span
  rw [List.flatMap_cons, List.length_append] at span
  have stop := seq_end_place _ s b lined.1 lined.2.1
  have order : SEQLT (ledger w).una (seqEnd b) ↔ u < s + (items b.th).length := by
    rw [kept.una, stop, seq_lt_near _ _ _ (by omega) (by omega)]
  unfold Ledger.trimmed
  rw [split, ← order]
  exact ⟨fun trim => trim b.th rfl, fun before th first => by obtain rfl := Option.some.inj first; exact before⟩

section Loop

variable (env : Env) (wndnxt : Seq)

theorem loop_calls_full (bufs : List Buf) (w : World) (full : w.tcb.sndNxt = wndnxt)
    (beyond : ∀ b ∈ bufs.head?, ¬ SEQLE (seqEnd b) wndnxt) : loopCalls env wndnxt bufs w = [] := by
  cases bufs with
  | nil => rfl
  | cons b rest => rw [loopCalls, if_neg (full_stuck wndnxt w b full (beyond b rfl))]

-- Every call of the loop meets, and snd_nxt does not get far beyond the edge.
theorem loop_calls_meet (v : Int) (bufs : List Buf) (sent : Nat) (rttseq : Seq) (w : World) {s u n m : Nat} (lies : Lies w s u n m)
    (turns : ∀ b rest, bufs = b :: rest → ∃ i, Turn w b rest s n i) (edge : wndnxt = place w.tcb.sndIsn v)
    (near : (s : Int) ≤ v + 300000) (near' : v ≤ s + 300000) :
    (∀ c ∈ loopCalls env wndnxt bufs w, Meets c)
      ∧ ∃ n' m' : Nat, (n' : Int) ≤ max (n : Int) (v + 65537) ∧ Lies (sndLoop env wndnxt bufs sent rttseq w).world s u n' m' := by
  induction bufs generalizing sent rttseq w n m with
  | nil => exact ⟨by rintro c ⟨⟩, n, m, le_max_left _ _, lies⟩
  | cons b rest ih =>
      obtain ⟨i, turn⟩ := turns b rest rfl
      rw [sndLoop, loopCalls]
      split
      · rename_i sends
        have stop := seq_end_place _ i b turn.start turn.ok
        have span := turn.span
        have bound := turn.near
        have low := turn.low
        have behind := turn.behind
        have ahead := turn.ahead
        have order : (n : Int) < v := by
          have room := of_decide_eq_true sends
          rw [stop, lies.nxt, edge, seq_le_int _ _ _ (by omega) (by omega), seq_lt_int _ _ _ (by omega) (by omega)] at room
          omega
        have meets : Meets ⟨w, b, rest, 0, w.tcb.sndNxt, wndnxt⟩ :=
          meets_of_places _ w.tcb.sndIsn i n v turn.start turn.ok lies.nxt edge (by dsimp only; omega) (by omega) order (by omega)
            (by omega) (by dsimp only; omega)
        cases got : tcpSndseg env w b rest 0 w.tcb.sndNxt wndnxt with
        | mk r w1 =>
            dsimp only
            obtain ⟨failed, givenUp⟩ := loop_given_up env wndnxt w w1 b rest r s n i lies turn got
            have isn := fun nxt => (sent_same env wndnxt w w1 b rest r nxt got).1
            have stream := fun nxt => (sent_same env wndnxt w w1 b rest r nxt got).2
            rw [List.forall_mem_cons]
            by_cases fails : r < 0
            · rw [if_pos fails, if_pos fails]
              refine ⟨⟨meets, by rintro c ⟨⟩⟩, ?_⟩
              split
              · exact ⟨_, _, by omega, givenUp⟩
              · exact ⟨n, m, le_max_left _ _, failed⟩
            · rw [if_neg fails, if_neg fails]
              obtain ⟨whole, moved⟩ | ⟨part, beyond, x, on, limit, moved⟩ := loop_sent env wndnxt w w1 b rest r s n i lies turn sends got fails
              · rw [if_pos whole]
                obtain ⟨calls, n', m', high, done⟩ := ih (sent + 1) (if sent = 0 then w.tcb.sndNxt else rttseq) _ moved
                  (by
                    rintro b2 rest2 rfl
                    exact ⟨_, turn_next w _ b b2 rest2 s n i turn (isn _) (stream _)⟩) (by rw [isn]; exact edge)
                exact ⟨⟨meets, calls⟩, n', m', by omega, done⟩
              · rw [if_neg part, snd_loop_full env wndnxt rest _ _ _ (advance_nxt w1 wndnxt).1 beyond,
                  loop_calls_full env wndnxt rest _ (advance_nxt w1 wndnxt).1 beyond]
                exact ⟨⟨meets, by rintro c ⟨⟩⟩, x, _, by omega, moved⟩
      · exact ⟨by rintro c ⟨⟩, n, m, le_max_left _ _, lies⟩

end Loop

-- The right edge of tcp_sndhead lies in the window, or before it at the last segment.
theorem edge_place (w : World) (last : Buf) (atLast : w.data.snd.q.getLast? = some last) (sized : Sized w) {s u n m : Nat} {a : Int}
    (aimed : Aimed w s u n m a) :
    ∃ v, sndheadEdge w last = place w.tcb.sndIsn v ∧ v ≤ a + 65535 ∧ min a s ≤ v := by
  obtain ⟨front, queued⟩ := List.getLast?_eq_some_iff.mp atLast
  have kept := aimed.lies.kept
  have split : (ledger w).segs = front.map Buf.th ++ last.th :: [] := by
    change w.data.snd.q.map Buf.th = _
    rw [queued, List.map_append, List.map_cons, List.map_nil]
  obtain ⟨i, low, start, -, high, -, -⟩ := kept.located _ _ _ split
  have near := kept.near
  have unacked := kept.unacked
  have cwnd := sized.2.1
  have behind := aimed.behind
  have reach := aimed.reach
  have acked := aimed.lies.acked
  have written := aimed.lies.sent.trans kept.written
  have wnd := aimed.wnd
  have dist : (SEQ1ST last - w.tcb.sndWndack).toInt = i - a := by
    rw [SEQ1ST, aimed.ack, show last.th.seq = place w.tcb.sndIsn i from start]
    exact place_sub_toInt _ _ _ (by omega) (by omega)
  unfold sndheadEdge
  rw [dist, aimed.ack, place_add]
  refine ⟨_, rfl, by omega, ?_⟩
  split <;> omega

theorem sndhead_aims (env : Env) (w : World) (sized : Sized w) {s u n m : Nat} {a : Int} (aimed : Aimed w s u n m a) :
    (∀ c ∈ sndheadCalls env w, Meets c) ∧ ∃ n' m', Aimed (tcpSndhead env w) s u n' m' a := by
  have stays : ∃ n' m', Aimed w s u n' m' a := ⟨n, m, aimed⟩
  have steadies := steady_sndhead env w
  have lies := aimed.lies
  unfold sndheadCalls
  unfold tcpSndhead at steadies ⊢
  by_cases all : SEQGE w.tcb.sndNxt w.tcb.seqWrite
  · rw [if_pos all, if_pos all]
    exact ⟨by rintro c ⟨⟩, stays⟩
  · rw [if_neg all] at steadies ⊢
    rw [if_neg all]
    cases atLast : w.data.snd.q.getLast? with
    | none =>
        refine ⟨by rintro c ⟨⟩, ?_⟩
        dsimp only
        split
        · exact stays
        · exact (carries_of_eq w (fault w) rfl rfl rfl rfl).aimed _ _ _ _ _ aimed
    | some last =>
        rw [atLast] at steadies
        dsimp only at steadies ⊢
        have whole : w.data.snd.q = w.data.snd.q.takeWhile (alreadySent w) ++ w.data.snd.q.dropWhile (alreadySent w) :=
          List.takeWhile_append_dropWhile.symm
        obtain ⟨behind, ahead⟩ := unsent_around w _ _ whole lies (fun b member => List.mem_takeWhile_imp member)
          fun b first => by
            have open' := List.head?_dropWhile_not (alreadySent w) w.data.snd.q
            rw [Option.mem_def.mp first] at open'
            exact open'
        obtain ⟨v, edge, high, low⟩ := edge_place w last atLast sized aimed
        have near := lies.kept.near
        have unacked := lies.kept.unacked
        have written := lies.sent.trans lies.kept.written
        have acked := lies.acked
        have reach := aimed.reach
        have upto := aimed.behind
        obtain ⟨calls, n', m', bound, done⟩ := loop_calls_meet env (sndheadEdge w last) v
          (w.data.snd.q.dropWhile (alreadySent w)) 0 0 w lies (fun b rest unsent => by
            rw [unsent] at whole ahead
            exact ⟨_, turn_of_lies w _ rest b whole lies behind (ahead b rfl)⟩) edge (by omega) (by omega)
        obtain ⟨-, snd, ths⟩ := snd_loop_raises env (sndheadEdge w last) _ _ 0 0 w whole
        have same := ledger_sndhead_done (w.data.snd.q.takeWhile (alreadySent w)) (sndheadLoop env w last) (by
          rw [List.map_append, sndheadLoop, ths, ← List.map_append, ← whole, snd])
        obtain ⟨isn, wndack, wnd, -⟩ := steady_window w _ steadies
        refine ⟨calls, n', m', aimed_of_lies w _ isn wndack wnd aimed
          (lies_of_eq _ _ same (sndhead_done_keeps _ _).1 done) (by omega)⟩

theorem carries_sndhead (env : Env) (w : World) (sized : Sized w) : Carries w (tcpSndhead env w) where
  segs := (sndhead_keeps env w).2
  una := steady_same (·.tcb.sndUna) w _ (steady_sndhead env w) fun _ => rfl
  aimed := fun _ _ _ _ _ aimed => (sndhead_aims env w sized aimed).2

theorem carries_pending (env : Env) (w : World) (sized : Sized w) : Carries w (sndheadPending env w) := by
  unfold sndheadPending
  split
  · exact carries_sndhead env w sized
  · exact carries_of_eq w w rfl rfl rfl rfl

theorem pending_calls_meet (env : Env) (w : World) (sized : Sized w) {s u n m : Nat} {a : Int} (aimed : Aimed w s u n m a) :
    ∀ c ∈ pendingCalls env w, Meets c := by
  unfold pendingCalls
  split
  · exact (sndhead_aims env w sized aimed).1
  · rintro c ⟨⟩

theorem dropdata_aims (w : World) {s u n m : Nat} {a : Int} (aimed : Aimed w s u n m a) :
    ∃ s', Aimed (tcpDropdata w).2 s' u n m a ∧ (ledger (tcpDropdata w).2).trimmed := by
  obtain ⟨s', low, kept, first⟩ := drop_acked_keeps w.tcb.sndUna w.data.snd.q 0 w rfl aimed.lies.kept
  obtain ⟨-, -, -, una⟩ := steady_window w _ (steady_drop_acked w.tcb.sndUna w.data.snd.q 0 w)
  obtain ⟨isn, wndack, wnd, -⟩ := steady_window w _ (steady_dropdata w)
  have same : ledger (tcpDropdata w).2 = ledger (dropAcked w.tcb.sndUna w.data.snd.q 0 w).2 := ledger_count_acked _ _
  have nxt : (tcpDropdata w).2.tcb.sndNxt = w.tcb.sndNxt := (count_acked_nxt _ _).trans (drop_acked_nxt _ _ _ _)
  generalize (dropAcked w.tcb.sndUna w.data.snd.q 0 w).2 = x at kept first una same
  generalize (tcpDropdata w).2 = y at isn wndack wnd same nxt ⊢
  refine ⟨s', ⟨⟨same ▸ kept, ?_, aimed.lies.acked, aimed.lies.sent⟩, ?_, aimed.behind, ?_, aimed.reach⟩, ?_⟩
  · rw [nxt, isn]
    exact aimed.lies.nxt
  · rw [wndack, isn]
    exact aimed.ack
  · rw [wnd]
    exact aimed.wnd
  · rw [same]
    intro th atHead
    obtain ⟨b, isFirst, rfl⟩ : ∃ b, x.data.snd.q.head? = some b ∧ b.th = th := by
      change (List.map Buf.th _).head? = some th at atHead
      rw [List.head?_map, Option.map_eq_some_iff] at atHead
      exact atHead
    change SEQLT x.tcb.sndUna (seqEnd b)
    rw [una]
    exact seq_lt_of_not_le _ _ (first b isFirst)

theorem carries_idle_start (w : World) : Carries w (idleStart w) := by
  refine carries_of_eq w _ (ledger_idle_start w) ?_ ?_ ?_ <;> unfold idleStart <;> split <;> rfl

theorem carries_idle_sent (w : World) : Carries w (idleSent w) := by
  refine carries_of_eq w _ (ledger_idle_sent w) ?_ ?_ ?_ <;> unfold idleSent idleArm <;> split <;> rfl

theorem carries_idle (env : Env) (w : World) (event : OutEvent) (sized : Sized w) : Carries w (tcbosIdle env w event) := by
  have same := carries_of_eq w w rfl rfl rfl rfl
  cases event with
  | send =>
      dsimp only [tcbosIdle]
      split
      · exact same
      · have sent := carries_sndhead env _ (sized_idle_start w sized)
        exact carries_trans _ _ _ (carries_idle_start w) (carries_trans _ _ _ sent (carries_idle_sent _))
  | ackrcvd => exact same
  | wndopen => exact same
  | wndclose => exact same
  | timeout => exact same
  | dupack => exact same

theorem carries_wndclose (w : World) : Carries w (xmitWndclose w) := by
  refine carries_of_eq w _ (ledger_xmit_wndclose w) ?_ ?_ ?_ <;> unfold xmitWndclose <;> split <;> rfl

theorem carries_xmit_acked (w : World) : Carries w (xmitAcked w) := by
  refine carries_of_eq w _ (ledger_xmit_acked w) ?_ ?_ ?_ <;> unfold xmitAcked <;> split <;> rfl

theorem carries_persist_acked (w : World) : Carries w (persistAcked w) := by
  refine carries_of_eq w _ (ledger_persist_acked w) ?_ ?_ ?_ <;> unfold persistAcked <;> split <;> rfl

theorem carries_persist_opened (w : World) : Carries w (persistOpened w) := by
  refine carries_of_eq w _ (ledger_persist_opened w) ?_ ?_ ?_ <;> unfold persistOpened <;> split <;> rfl

theorem carries_reset_backoff (w : World) (nsegs : Nat) : Carries w (resetBackoff w nsegs) := by
  have shape : resetBackoff w nsegs = w ∨ resetBackoff w nsegs = { w with tcb.backoff := 0 } := by
    unfold resetBackoff
    split
    · split
      · exact Or.inr rfl
      · exact Or.inl rfl
    · exact Or.inl rfl
  obtain same | same := shape <;> rw [same] <;> exact carries_of_eq _ _ rfl rfl rfl rfl

theorem carries_sndseg (env : Env) (w : World) (front rest : List Buf) (b : Buf) (nretrans : Int) (wnd1st wndnxt : Seq)
    (queued : w.data.snd.q = front ++ b :: rest) : Carries w (tcpSndseg env w b rest nretrans wnd1st wndnxt).2 where
  segs := by
    change (tcpSndseg env w b rest nretrans wnd1st wndnxt).2.data.snd.q.map Buf.th = w.data.snd.q.map Buf.th
    rw [sndseg_keeps_queue]
  una := steady_same (·.tcb.sndUna) w _ (steady_sndseg env w b rest nretrans wnd1st wndnxt) fun _ => rfl
  aimed := by
    intro s u n m a aimed
    obtain ⟨isn, wndack, wnd, -⟩ := steady_window w _ (steady_sndseg env w b rest nretrans wnd1st wndnxt)
    obtain ⟨m', later, kept⟩ := sndseg_raises env w front rest b nretrans wnd1st wndnxt queued s u m aimed.lies.kept
    refine ⟨n, m', aimed_of_lies w _ isn wndack wnd aimed ⟨kept, ?_, aimed.lies.acked, aimed.lies.sent.trans later⟩ aimed.reach⟩
    rw [sndseg_nxt, isn]
    exact aimed.lies.nxt

theorem carries_dupack (env : Env) (w : World) : Carries w (dupackResend env w) := by
  have same := carries_of_eq w w rfl rfl rfl rfl
  unfold dupackResend
  split
  · split
    · exact same
    · rename_i b rest asked
      split
      · exact carries_sndseg env w _ rest b _ _ _ (drop_append _ _ b rest asked)
      · exact same
  · exact same

theorem carries_retrans_acked (env : Env) (w : World) (nsegs : Nat) (sized : Sized w) : Carries w (retransAcked env w nsegs) := by
  unfold retransAcked
  split
  · exact carries_of_eq _ _ rfl rfl rfl rfl
  · have reset := sized_of_eq _ _ (sizes_reset_backoff w nsegs) sized
    refine carries_trans _ _ _ (carries_reset_backoff w nsegs) ?_
    unfold retransProgress
    split
    · have begun : Carries (resetBackoff w nsegs) (startCwnd (resetBackoff w nsegs)) := carries_of_eq _ _ rfl rfl rfl rfl
      have pending := carries_pending env _ (sized_start_cwnd _ reset)
      exact carries_trans _ _ _ begun (carries_trans _ _ _ pending (carries_of_eq _ _ rfl rfl rfl rfl))
    · exact carries_of_eq _ _ rfl rfl rfl rfl

-- What is told of a segment queued or a window keeps everything in place.
theorem carries_event (env : Env) (w : World) (event : OutEvent) (sized : Sized w) (quiet : event ≠ .timeout)
    (noAck : event ≠ .ackrcvd) : Carries w (tcbOstate env w event) := by
  have same := carries_of_eq w w rfl rfl rfl rfl
  have pending := carries_pending env w sized
  unfold tcbOstate
  split
  · exact carries_idle env w event sized
  · cases event with
    | send => exact same
    | ackrcvd => exact (noAck rfl).elim
    | wndopen => exact same
    | wndclose =>
        dsimp only [tcbosRetrans]
        split
        · exact same
        · exact carries_of_eq _ _ rfl rfl rfl rfl
    | timeout => exact (quiet rfl).elim
    | dupack => exact carries_dupack env w
  · cases event with
    | send => exact same
    | ackrcvd => exact (noAck rfl).elim
    | wndopen => exact carries_trans _ _ _ pending (carries_persist_opened _)
    | wndclose => exact same
    | timeout => exact (quiet rfl).elim
    | dupack => exact same
  · cases event with
    | send => exact pending
    | ackrcvd => exact (noAck rfl).elim
    | wndopen => exact carries_trans _ _ _ pending (carries_wndclose _)
    | wndclose => exact carries_wndclose w
    | timeout => exact (quiet rfl).elim
    | dupack => exact same

-- A new ack takes what is acked off the queue.
theorem acked_aims (env : Env) (w : World) (sized : Sized w) (busy : w.tcb.ostate ≠ .idle) {s u n m : Nat} {a : Int}
    (aimed : Aimed w s u n m a) :
    ∃ s' n' m', Aimed (tcbOstate env w .ackrcvd) s' u n' m' a ∧ (ledger (tcbOstate env w .ackrcvd)).trimmed := by
  obtain ⟨s', dropped, trim⟩ := dropdata_aims w aimed
  have sized' := sized_dropdata w sized
  have rest : ∀ x, Carries (tcpDropdata w).2 x → ∃ s' n' m', Aimed x s' u n' m' a ∧ (ledger x).trimmed := by
    intro x carries
    obtain ⟨n', m', done⟩ := carries.aimed _ _ _ _ _ dropped
    exact ⟨s', n', m', done, trimmed_of_carries _ x carries trim⟩
  unfold tcbOstate
  split
  · rename_i idle
    exact (busy idle).elim
  · exact rest _ (carries_retrans_acked env _ _ sized')
  · exact rest _ (carries_persist_acked _)
  · exact rest _ (carries_xmit_acked _)

-- What is sent again lies between snd_una and snd_nxt.
theorem window_meets (w : World) (front rest : List Buf) (b : Buf) (queued : w.data.snd.q = front ++ b :: rest) {s u n m : Nat}
    (lies : Lies w s u n m) (trim : (ledger w).trimmed) (open' : u < n) (inside : front = [] ∨ SEQLE (seqEnd b) w.tcb.sndNxt)
    (c : SegCall) (isB : c.b = b) (first : c.wnd1st = w.tcb.sndUna) (last : c.wndnxt = w.tcb.sndNxt) : Meets c := by
  have kept := lies.kept
  have split : (ledger w).segs = front.map Buf.th ++ b.th :: rest.map Buf.th := by
    change w.data.snd.q.map Buf.th = _
    rw [queued, List.map_append, List.map_cons]
  have lined : Lined (ledger w).isn s (ledger w).segs := kept.lined
  have span := kept.span
  have near := kept.near
  have unacked := kept.unacked
  have written := lies.sent.trans kept.written
  rw [split, lined_append] at lined
  rw [split, List.flatMap_append, List.flatMap_cons, List.length_append, List.length_append] at span
  obtain ⟨-, start, ok, -⟩ := lined
  have some : 0 < (items b.th).length := List.length_pos_of_ne_nil ok.some
  have stop := seq_end_place _ _ b start ok
  have ahead : u < s + ((front.map Buf.th).flatMap items).length + (items b.th).length := by
    cases front with
    | nil => exact (trimmed_place w b rest queued kept).mp trim
    | cons f front =>
        have before := (trimmed_place w f _ queued kept).mp trim
        rw [List.map_cons, List.flatMap_cons, List.length_append]
        omega
  have within : s + ((front.map Buf.th).flatMap items).length < n := by
    obtain rfl | reached := inside
    · exact Nat.lt_of_le_of_lt unacked open'
    · rw [stop, lies.nxt] at reached
      change SEQLE (place w.tcb.sndIsn _) (place w.tcb.sndIsn _) at reached
      rw [seq_le_near _ _ _ (by omega) (by omega)] at reached
      omega
  refine meets_of_places c w.tcb.sndIsn (s + ((front.map Buf.th).flatMap items).length) u n (by rw [isB]; exact start)
    (by rw [isB]; exact ok) (first.trans kept.una) (last.trans lies.nxt) ?_ (by omega) (by omega) (by omega) (by omega) ?_
  · rw [isB]
    omega
  · rw [isB]
    omega

theorem nxt_order (w : World) {s u n m : Nat} (lies : Lies w s u n m) : SEQLT w.tcb.sndUna w.tcb.sndNxt ↔ u < n := by
  have near := lies.kept.near
  have unacked := lies.kept.unacked
  have written := lies.sent.trans lies.kept.written
  have acked := lies.acked
  have una : w.tcb.sndUna = place w.tcb.sndIsn u := lies.kept.una
  rw [una, lies.nxt, seq_lt_near _ _ _ (by omega) (by omega)]

theorem dupack_calls_meet (w : World) {s u n m : Nat} (lies : Lies w s u n m) (trim : (ledger w).trimmed) :
    ∀ c ∈ dupackCalls w, Meets c := by
  unfold dupackCalls
  split
  · rename_i asked
    split
    · rintro c ⟨⟩
    · rename_i b rest found
      split
      · rename_i reached
        have open' : u < n := by
          have again := asked.2
          unfold canretrans at again
          split at again
          · exact (nxt_order w lies).mp (of_decide_eq_true again).2.1
          · cases again
        intro c member
        obtain rfl := List.mem_singleton.mp member
        exact window_meets w _ rest b (drop_append _ _ b rest found) lies trim open' (Or.inr reached) _ rfl rfl rfl
      · rintro c ⟨⟩
  · rintro c ⟨⟩

-- A retransmission has something to repeat.
def Due (w : World) : Prop := w.tcb.nretrans < TCP_MAXRETRY → w.data.snd.q ≠ [] → SEQLT w.tcb.sndUna w.tcb.sndNxt

theorem retrans_calls_meet (w : World) (due : Due w) {s u n m : Nat} (lies : Lies w s u n m) (trim : (ledger w).trimmed) :
    ∀ c ∈ retransCalls w, Meets c := by
  unfold retransCalls
  split
  · rintro c ⟨⟩
  · rename_i few
    split
    · rintro c ⟨⟩
    · rename_i b rest queued
      intro c member
      obtain rfl := List.mem_singleton.mp member
      have some : w.data.snd.q ≠ [] := by
        rw [queued]
        exact List.cons_ne_nil b rest
      have open' := (nxt_order w lies).mp (due (by omega) some)
      exact window_meets w [] rest b queued lies trim open' (Or.inl rfl) _ rfl rfl rfl

theorem progress_calls_meet (env : Env) (w : World) (sized : Sized w) {s u n m : Nat} {a : Int} (aimed : Aimed w s u n m a) :
    ∀ c ∈ progressCalls env w, Meets c := by
  unfold progressCalls
  split
  · have begun : Carries w (startCwnd w) := carries_of_eq _ _ rfl rfl rfl rfl
    obtain ⟨n', m', started⟩ := begun.aimed _ _ _ _ _ aimed
    exact pending_calls_meet env _ (sized_start_cwnd w sized) started
  · rintro c ⟨⟩

theorem acked_calls_meet (env : Env) (w : World) (sized : Sized w) {s u n m : Nat} {a : Int} (aimed : Aimed w s u n m a) :
    ∀ c ∈ ostateCalls env w .ackrcvd, Meets c := by
  have none : ∀ c ∈ ([] : List SegCall), Meets c := by
    rintro c ⟨⟩
  unfold ostateCalls
  split
  · exact none
  · dsimp only [lossCalls]
    split
    · exact none
    · obtain ⟨s', dropped, -⟩ := dropdata_aims w aimed
      obtain ⟨n', m', reset⟩ := (carries_reset_backoff _ (tcpDropdata w).1).aimed _ _ _ _ _ dropped
      exact progress_calls_meet env _ (sized_of_eq _ _ (sizes_reset_backoff _ _) (sized_dropdata w sized)) reset
  · exact none
  · exact none

theorem event_calls_meet (env : Env) (w : World) (event : OutEvent) (sized : Sized w) (quiet : event ≠ .timeout)
    (noAck : event ≠ .ackrcvd) {s u n m : Nat} {a : Int} (aimed : Aimed w s u n m a) (trim : (ledger w).trimmed) :
    ∀ c ∈ ostateCalls env w event, Meets c := by
  have none : ∀ c ∈ ([] : List SegCall), Meets c := by
    rintro c ⟨⟩
  have pending := pending_calls_meet env w sized aimed
  unfold ostateCalls
  split
  · cases event with
    | send =>
        dsimp only [idleCalls]
        split
        · exact none
        · obtain ⟨n', m', started⟩ := (carries_idle_start w).aimed _ _ _ _ _ aimed
          exact (sndhead_aims env _ (sized_idle_start w sized) started).1
    | ackrcvd => exact none
    | wndopen => exact none
    | wndclose => exact none
    | timeout => exact none
    | dupack => exact none
  · cases event with
    | send => exact none
    | ackrcvd => exact (noAck rfl).elim
    | wndopen => exact none
    | wndclose => exact none
    | timeout => exact (quiet rfl).elim
    | dupack => exact dupack_calls_meet w aimed.lies trim
  · cases event with
    | send => exact none
    | ackrcvd => exact none
    | wndopen => exact pending
    | wndclose => exact none
    | timeout => exact (quiet rfl).elim
    | dupack => exact none
  · cases event with
    | send => exact pending
    | ackrcvd => exact none
    | wndopen => exact pending
    | wndclose => exact none
    | timeout => exact (quiet rfl).elim
    | dupack => exact none

-- The timer fires while something is outstanding.
def TimerDue (w : World) : Prop := w.tcb.ostate = .xmit ∨ w.tcb.ostate = .retrans → Due w

theorem timeout_calls_meet (env : Env) (w : World) (sized : Sized w) (due : TimerDue w) {s u n m : Nat} {a : Int}
    (aimed : Aimed w s u n m a) (trim : (ledger w).trimmed) : ∀ c ∈ ostateCalls env w .timeout, Meets c := by
  have none : ∀ c ∈ ([] : List SegCall), Meets c := by
    rintro c ⟨⟩
  unfold ostateCalls
  split
  · exact none
  · rename_i loss
    exact retrans_calls_meet w (due (Or.inr loss)) aimed.lies trim
  · dsimp only [persistCalls]
    split
    · have begun : Carries w (setWndmax w) := carries_of_eq _ _ rfl rfl rfl rfl
      obtain ⟨n', m', started⟩ := begun.aimed _ _ _ _ _ aimed
      exact (sndhead_aims env (setWndmax w) sized started).1
    · exact none
  · rename_i xmit
    have lies := lies_of_eq w (capDupacks (noRtt (setOstate w .retrans))) rfl rfl aimed.lies
    exact retrans_calls_meet (capDupacks (noRtt (setOstate w .retrans))) (due (Or.inl xmit)) lies trim

theorem carries_probe_heard (env : Env) (w : World) (heard : ¬ peerSilent w) : Carries w (tcpProbe env w) := by
  obtain ⟨steadies, kept⟩ := probe_heard env w heard
  obtain ⟨-, wndack, wnd, -⟩ := steady_window w _ steadies
  refine carries_of_eq w _ kept ?_ wndack wnd
  unfold tcpProbe
  rw [if_neg heard]
  exact probe_send_nxt env w

theorem carries_retrans_send (env : Env) (w : World) (b : Buf) (rest : List Buf) (queued : w.data.snd.q = b :: rest) :
    Carries w (retransSend env w b rest) := by
  have sent := carries_sndseg env w [] rest b w.tcb.nretrans w.tcb.sndUna w.tcb.sndNxt queued
  unfold retransSend
  cases got : tcpSndseg env w b rest w.tcb.nretrans w.tcb.sndUna w.tcb.sndNxt with
  | mk r w1 =>
      rw [got] at sent
      dsimp only at sent ⊢
      refine carries_trans _ _ _ sent ?_
      split <;> exact carries_of_eq _ _ rfl rfl rfl rfl

-- A timeout resets the connection, or keeps everything in place.
theorem carries_tcp_retrans (env : Env) (w : World) : (sendSide (tcpRetrans env w)).wasReset ∨ Carries w (tcpRetrans env w) := by
  unfold tcpRetrans
  split
  · exact Or.inl (ended_reset _ _ (ended_close_with (countRetrans w) ETIMEDOUT))
  · right
    split
    · exact carries_of_eq w _ rfl rfl rfl rfl
    · rename_i b rest queued
      have begun : Carries w (shrinkCwnd (countRetrans w)) := carries_of_eq w _ rfl rfl rfl rfl
      exact carries_trans _ _ _ begun (carries_retrans_send env _ b rest queued)

theorem carries_probe (env : Env) (w : World) : (sendSide (tcpProbe env w)).wasReset ∨ Carries w (tcpProbe env w) := by
  by_cases silent : peerSilent w
  · unfold tcpProbe
    rw [if_pos silent]
    exact Or.inl (ended_reset _ _ (ended_close_with w ETIMEDOUT))
  · exact Or.inr (carries_probe_heard env w silent)

theorem carries_persist_sent (env : Env) (w : World) :
    (sendSide (persistSent env w)).wasReset ∨ Carries w (persistSent env w) := by
  unfold persistSent
  split
  · exact Or.inr (carries_of_eq w _ rfl rfl rfl rfl)
  · have begun : Carries w (noRtt w) := carries_of_eq w _ rfl rfl rfl rfl
    exact (carries_probe env (noRtt w)).imp_right fun probed => carries_trans _ _ _ begun probed

theorem carries_timeout (env : Env) (w : World) (sized : Sized w) :
    (sendSide (tcbOstate env w .timeout)).wasReset ∨ Carries w (tcbOstate env w .timeout) := by
  unfold tcbOstate
  split
  · exact Or.inr (carries_of_eq w w rfl rfl rfl rfl)
  · exact carries_tcp_retrans env w
  · dsimp only [tcbosPersist]
    split
    · have begun : Carries w (setWndmax w) := carries_of_eq w _ rfl rfl rfl rfl
      have sent := carries_trans _ _ _ begun (carries_sndhead env (setWndmax w) sized)
      exact (carries_persist_sent env _).imp_right fun done => carries_trans _ _ _ sent done
    · exact carries_probe env w
  · have begun : Carries w (capDupacks (noRtt (setOstate w .retrans))) := carries_of_eq w _ rfl rfl rfl rfl
    exact (carries_tcp_retrans env _).imp_right fun done => carries_trans _ _ _ begun done

end MagxNet.Tcp
