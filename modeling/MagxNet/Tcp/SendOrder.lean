import MagxNet.Tcp.Books

set_option autoImplicit false

namespace MagxNet.Tcp

open Bytes Serial

-- The send side with its positions in the stream: s the first one queued, u that of snd_una, n of snd_nxt, m of snd_max.
structure Lies (w : World) (s u n m : Nat) : Prop where
  kept : Kept (ledger w) s u m
  nxt : w.tcb.sndNxt = place w.tcb.sndIsn n
  acked : u ≤ n
  sent : n ≤ m

-- Nothing is acked or taken back.
def Advances (w w' : World) : Prop :=
  ∀ s u n m, Lies w s u n m → ∃ s' n' m', s ≤ s' ∧ n ≤ n' ∧ m ≤ m' ∧ Lies w' s' u n' m'

theorem advances_trans (w x w' : World) (first : Advances w x) (second : Advances x w') : Advances w w' := by
  intro s u n m lies
  obtain ⟨s', n', m', low, on, high, lies'⟩ := first s u n m lies
  obtain ⟨s'', n'', m'', low', on', high', lies''⟩ := second s' u n' m' lies'
  exact ⟨s'', n'', m'', low.trans low', on.trans on', high.trans high', lies''⟩

theorem advances_of_keeps (w w' : World) (keeps : Keeps (ledger w) (ledger w')) (nxt : w'.tcb.sndNxt = w.tcb.sndNxt)
    (isn : w'.tcb.sndIsn = w.tcb.sndIsn) : Advances w w' := by
  intro s u n m lies
  obtain ⟨s', m', low, high, kept⟩ := keeps s u m lies.kept
  refine ⟨s', n, m', low, le_refl n, high, kept, ?_, lies.acked, lies.sent.trans high⟩
  rw [nxt, isn]
  exact lies.nxt

theorem advances_of_eq (w w' : World) (kept : ledger w' = ledger w) (nxt : w'.tcb.sndNxt = w.tcb.sndNxt) : Advances w w' :=
  advances_of_keeps w w' (keeps_of_eq _ _ kept) nxt (congrArg Ledger.isn kept)

theorem sndseg_nxt (env : Env) (w : World) (b : Buf) (rest : List Buf) (nretrans : Int) (wnd1st wndnxt : Seq) :
    (tcpSndseg env w b rest nretrans wnd1st wndnxt).2.tcb.sndNxt = w.tcb.sndNxt := by
  unfold tcpSndseg bufAlloc
  dsimp only
  split
  · rename_i got
    obtain ⟨-, rfl⟩ := Prod.mk.inj got
    rfl
  · rename_i id w1 got
    obtain ⟨-, rfl⟩ := Prod.mk.inj got
    split
    · rfl
    · rfl
    · unfold sndsegSend ipSend clearDelack tcpRcvwnd extendMax
      dsimp only
      split
      · split <;> rfl
      · split <;> split <;> rfl

theorem lies_of_eq (w w' : World) (kept : ledger w' = ledger w) (nxt : w'.tcb.sndNxt = w.tcb.sndNxt) {s u n m : Nat}
    (lies : Lies w s u n m) : Lies w' s u n m := by
  refine ⟨kept ▸ lies.kept, ?_, lies.acked, lies.sent⟩
  rw [nxt, show w'.tcb.sndIsn = w.tcb.sndIsn from congrArg Ledger.isn kept]
  exact lies.nxt

theorem failed_nxt (w : World) (r : Int) : (sndFailed w r).tcb.sndNxt = w.tcb.sndNxt := by
  unfold sndFailed
  split <;> rfl

theorem advance_nxt (w : World) (nxt : Seq) : (sndAdvance w nxt).tcb.sndNxt = nxt ∧ (sndAdvance w nxt).tcb.sndIsn = w.tcb.sndIsn := by
  unfold sndAdvance raiseMax
  split <;> exact ⟨rfl, rfl⟩

theorem lies_advance (w : World) (nxt : Seq) (x : Nat) {s u n m : Nat} (lies : Lies w s u n m)
    (isX : nxt = place w.tcb.sndIsn x) (later : n ≤ x) (high : x ≤ w.stream.length) :
    Lies (sndAdvance w nxt) s u x (max m x) := by
  have low := lies.kept.unacked.trans (lies.acked.trans later)
  obtain ⟨moved, isn⟩ := advance_nxt w nxt
  refine ⟨ledger_advance w x nxt isX lies.kept low high, ?_, lies.acked.trans later, le_max_right m x⟩
  rw [moved, isn, isX]

-- The segment b, at position i, when snd_nxt lies in it: what is left of the queue starts with b.
structure Turn (w : World) (b : Buf) (rest : List Buf) (s n i : Nat) : Prop where
  start : b.th.seq = place w.tcb.sndIsn i
  ok : SegOk b.th
  later : Lined w.tcb.sndIsn (i + (items b.th).length) (rest.map Buf.th)
  span : w.stream.length = i + ((items b.th).length + ((rest.map Buf.th).flatMap items).length)
  near : w.stream.length ≤ s + 65537
  low : s ≤ i
  behind : i ≤ n
  ahead : n < i + (items b.th).length

theorem turn_of_lies (w : World) (front rest : List Buf) (b : Buf) (queued : w.data.snd.q = front ++ b :: rest) {s u n m : Nat}
    (lies : Lies w s u n m) (behind : s + ((front.map Buf.th).flatMap items).length ≤ n)
    (ahead : n < s + ((front.map Buf.th).flatMap items).length + (items b.th).length) :
    Turn w b rest s n (s + ((front.map Buf.th).flatMap items).length) := by
  have kept := lies.kept
  have split : (ledger w).segs = front.map Buf.th ++ b.th :: rest.map Buf.th := by
    change w.data.snd.q.map Buf.th = _
    rw [queued, List.map_append, List.map_cons]
  have lined : Lined w.tcb.sndIsn s (ledger w).segs := kept.lined
  rw [split, lined_append] at lined
  obtain ⟨-, start, ok, later⟩ := lined
  have span : w.stream.length = _ := kept.span
  rw [split, List.flatMap_append, List.flatMap_cons, List.length_append, List.length_append, ← Nat.add_assoc] at span
  exact ⟨start, ok, later, span, kept.near, Nat.le_add_right _ _, behind, ahead⟩

-- Once all of b is sent the next segment has its turn.
theorem turn_next (w w' : World) (b b2 : Buf) (rest : List Buf) (s n i : Nat) (turn : Turn w b (b2 :: rest) s n i)
    (isn : w'.tcb.sndIsn = w.tcb.sndIsn) (stream : w'.stream = w.stream) :
    Turn w' b2 rest s (i + (items b.th).length) (i + (items b.th).length) := by
  obtain ⟨start, ok, later⟩ := turn.later
  have some : 0 < (items b2.th).length := List.length_pos_of_ne_nil ok.some
  have span := turn.span
  rw [List.map_cons, List.flatMap_cons, List.length_append] at span
  have low := turn.low
  refine ⟨by rw [isn]; exact start, ok, by rw [isn]; exact later, ?_, by rw [stream]; exact turn.near, by omega, le_refl _, by omega⟩
  rw [stream, span]
  omega

section Loop

variable (env : Env) (wndnxt : Seq)

-- The right edge inside a segment that is sent in part.
theorem partial_place (w : World) (b : Buf) (i n : Nat) (start : b.th.seq = place w.tcb.sndIsn i) (ok : SegOk b.th)
    (small : (items b.th).length ≤ 65537) (behind : i ≤ n) (nxt : w.tcb.sndNxt = place w.tcb.sndIsn n)
    (ahead : n < i + (items b.th).length) (sends : sendable w b wndnxt = true) (reached : ¬ SEQLE wndnxt (SEQ1ST b))
    (cut : ¬ SEQLE (seqEnd b) wndnxt) :
    ∃ x : Nat, n < x ∧ x < i + (items b.th).length ∧ wndnxt = place w.tcb.sndIsn x := by
  have stop := seq_end_place _ i b start ok
  have after := seq_lt_of_not_le _ _ reached
  have before := seq_lt_of_not_le _ _ cut
  rw [SEQ1ST, start] at after
  rw [stop] at before
  obtain ⟨x, above, below, isX⟩ := between_lt_lt _ wndnxt (i : Int) (i + (items b.th).length : Nat) (by omega) (by omega)
    after before
  have position : wndnxt = place w.tcb.sndIsn x.toNat := by
    rw [Int.toNat_of_nonneg (by omega)]
    exact isX
  have room : SEQLT w.tcb.sndNxt wndnxt := by
    unfold sendable at sends
    exact ((of_decide_eq_true sends).resolve_left cut).1
  rw [nxt, position, seq_lt_near _ _ _ (by omega) (by omega)] at room
  exact ⟨x.toNat, room, by omega, position⟩

-- With snd_nxt at the edge nothing more is sent.
theorem full_stuck (w : World) (b : Buf) (full : w.tcb.sndNxt = wndnxt) (beyond : ¬ SEQLE (seqEnd b) wndnxt) :
    ¬ sendable w b wndnxt = true := by
  unfold sendable
  rw [full]
  intro sends
  obtain whole | ⟨room, -⟩ := of_decide_eq_true sends
  · exact beyond whole
  · exact lt_irrefl _ room

theorem snd_loop_full (bufs : List Buf) (sent : Nat) (rttseq : Seq) (w : World) (full : w.tcb.sndNxt = wndnxt)
    (beyond : ∀ b ∈ bufs.head?, ¬ SEQLE (seqEnd b) wndnxt) : (sndLoop env wndnxt bufs sent rttseq w).world = w := by
  cases bufs with
  | nil => rfl
  | cons b rest => rw [sndLoop, if_neg (full_stuck wndnxt w b full (beyond b rfl))]

-- A segment goes out whole, or up to the edge inside it.
theorem loop_sent (w w1 : World) (b : Buf) (rest : List Buf) (r : Int) (s n i : Nat) {u m : Nat} (lies : Lies w s u n m)
    (turn : Turn w b rest s n i) (sends : sendable w b wndnxt = true)
    (got : tcpSndseg env w b rest 0 w.tcb.sndNxt wndnxt = (r, w1)) (sent : ¬ r < 0) :
    SEQLE (seqEnd b) wndnxt ∧ Lies (sndAdvance w1 (seqEnd b)) s u (i + (items b.th).length) (max m (i + (items b.th).length))
      ∨ ¬ SEQLE (seqEnd b) wndnxt ∧ (∀ b2 ∈ rest.head?, ¬ SEQLE (seqEnd b2) wndnxt)
        ∧ ∃ x, n < x ∧ x < i + (items b.th).length ∧ Lies (sndAdvance w1 wndnxt) s u x (max m x) := by
  have same := ledger_sndseg_plain env w b rest w.tcb.sndNxt wndnxt
  have nxt := sndseg_nxt env w b rest 0 w.tcb.sndNxt wndnxt
  have inside := sndseg_sent env w b rest 0 w.tcb.sndNxt wndnxt
  rw [got] at same nxt inside
  dsimp only at same nxt inside
  have reached := inside (by omega)
  have lies1 := lies_of_eq w w1 same nxt lies
  have isn : w1.tcb.sndIsn = w.tcb.sndIsn := congrArg Ledger.isn same
  have stream : w1.stream = w.stream := congrArg Ledger.stream same
  have stop := seq_end_place _ i b turn.start turn.ok
  have span := turn.span
  have near := turn.near
  have low := turn.low
  have behind := turn.behind
  by_cases whole : SEQLE (seqEnd b) wndnxt
  · left
    exact ⟨whole, lies_advance w1 (seqEnd b) (i + (items b.th).length) lies1 (isn ▸ stop) turn.ahead.le (by rw [stream]; omega)⟩
  · right
    obtain ⟨x, on, limit, isX⟩ := partial_place wndnxt w b i n turn.start turn.ok (by omega) turn.behind lies.nxt turn.ahead sends
      reached.1 whole
    refine ⟨whole, ?_, x, on, limit, lies_advance w1 wndnxt x lies1 (isn ▸ isX) on.le (by rw [stream]; omega)⟩
    intro b2 next
    obtain ⟨rest2, rfl⟩ : ∃ rest2, rest = b2 :: rest2 := List.head?_eq_some_iff.mp next
    obtain ⟨start2, ok2, -⟩ := turn.later
    rw [List.map_cons, List.flatMap_cons, List.length_append] at span
    rw [seq_end_place _ _ b2 start2 ok2, isX, seq_le_near _ _ _ (by omega) (by omega)]
    omega

-- With nothing outstanding a segment that failed counts as sent.
theorem loop_given_up (w w1 : World) (b : Buf) (rest : List Buf) (r : Int) (s n i : Nat) {u m : Nat} (lies : Lies w s u n m)
    (turn : Turn w b rest s n i) (got : tcpSndseg env w b rest 0 w.tcb.sndNxt wndnxt = (r, w1)) :
    Lies (sndFailed w1 r) s u n m ∧ Lies (sndGiveUp (sndFailed w1 r) r (seqEnd b)) s u (i + (items b.th).length)
      (max m (i + (items b.th).length)) := by
  have same := ledger_sndseg_plain env w b rest w.tcb.sndNxt wndnxt
  have nxt := sndseg_nxt env w b rest 0 w.tcb.sndNxt wndnxt
  rw [got] at same nxt
  dsimp only at same nxt
  have lies1 := lies_of_eq w w1 same nxt lies
  have failed := lies_of_eq w1 (sndFailed w1 r) (ledger_failed w1 r) (failed_nxt w1 r) lies1
  have eased := lies_of_eq w1 (easeBackoff (sndFailed w1 r) r) (ledger_failed w1 r) (failed_nxt w1 r) lies1
  have kept : ledger (easeBackoff (sndFailed w1 r) r) = ledger w := (ledger_failed w1 r).trans same
  have span := turn.span
  refine ⟨failed, lies_advance _ (seqEnd b) (i + (items b.th).length) eased ?_ turn.ahead.le ?_⟩
  · rw [show (easeBackoff (sndFailed w1 r) r).tcb.sndIsn = _ from congrArg Ledger.isn kept]
    exact seq_end_place _ i b turn.start turn.ok
  · rw [show (easeBackoff (sndFailed w1 r) r).stream = w.stream from congrArg Ledger.stream kept]
    omega

-- The connection keeps its stream over a segment sent.
theorem sent_same (w w1 : World) (b : Buf) (rest : List Buf) (r : Int) (nxt : Seq)
    (got : tcpSndseg env w b rest 0 w.tcb.sndNxt wndnxt = (r, w1)) :
    (sndAdvance w1 nxt).tcb.sndIsn = w.tcb.sndIsn ∧ (sndAdvance w1 nxt).stream = w.stream := by
  have same := ledger_sndseg_plain env w b rest w.tcb.sndNxt wndnxt
  rw [got] at same
  refine ⟨(advance_nxt w1 nxt).2.trans (congrArg Ledger.isn same), ?_⟩
  unfold sndAdvance raiseMax
  split <;> exact congrArg Ledger.stream same

theorem snd_loop_advances (bufs : List Buf) (sent : Nat) (rttseq : Seq) (w : World) {s u n m : Nat} (lies : Lies w s u n m)
    (turns : ∀ b rest, bufs = b :: rest → ∃ i, Turn w b rest s n i) :
    ∃ n' m', n ≤ n' ∧ m ≤ m' ∧ Lies (sndLoop env wndnxt bufs sent rttseq w).world s u n' m' := by
  induction bufs generalizing sent rttseq w n m with
  | nil => exact ⟨n, m, le_refl n, le_refl m, lies⟩
  | cons b rest ih =>
      obtain ⟨i, turn⟩ := turns b rest rfl
      rw [sndLoop]
      split
      · rename_i sends
        cases got : tcpSndseg env w b rest 0 w.tcb.sndNxt wndnxt with
        | mk r w1 =>
            dsimp only
            obtain ⟨failed, givenUp⟩ := loop_given_up env wndnxt w w1 b rest r s n i lies turn got
            have isn := fun nxt => (sent_same env wndnxt w w1 b rest r nxt got).1
            have stream := fun nxt => (sent_same env wndnxt w w1 b rest r nxt got).2
            by_cases fails : r < 0
            · rw [if_pos fails]
              split
              · exact ⟨_, _, turn.ahead.le, le_max_left _ _, givenUp⟩
              · exact ⟨n, m, le_refl n, le_refl m, failed⟩
            · rw [if_neg fails]
              obtain ⟨whole, moved⟩ | ⟨part, beyond, x, on, -, moved⟩ := loop_sent env wndnxt w w1 b rest r s n i lies turn sends got fails
              · rw [if_pos whole]
                obtain ⟨n', m', on, high, done⟩ := ih (sent + 1) (if sent = 0 then w.tcb.sndNxt else rttseq) _ moved
                  (by
                    rintro b2 rest2 rfl
                    exact ⟨_, turn_next w _ b b2 rest2 s n i turn (isn _) (stream _)⟩)
                exact ⟨n', m', turn.ahead.le.trans on, (le_max_left m _).trans high, done⟩
              · rw [if_neg part, snd_loop_full env wndnxt rest _ _ _ (advance_nxt w1 wndnxt).1 beyond]
                exact ⟨x, _, on.le, le_max_left m x, moved⟩
      · exact ⟨n, m, le_refl n, le_refl m, lies⟩

end Loop

-- What is left of the queue starts at or before snd_nxt, and its first segment ends behind it.
theorem unsent_around (w : World) (bufs : List Buf) (whole : List Buf) (queued : w.data.snd.q = whole ++ bufs) {s u n m : Nat}
    (lies : Lies w s u n m) (skipped : ∀ b ∈ whole, alreadySent w b = true) (pending : ∀ b ∈ bufs.head?, alreadySent w b = false) :
    s + ((whole.map Buf.th).flatMap items).length ≤ n
      ∧ ∀ b ∈ bufs.head?, n < s + ((whole.map Buf.th).flatMap items).length + (items b.th).length := by
  have kept := lies.kept
  have near : w.stream.length ≤ s + 65537 := kept.near
  have acked := kept.unacked.trans lies.acked
  have written : n ≤ w.stream.length := lies.sent.trans kept.written
  have order : ∀ front rest b, w.data.snd.q = front ++ b :: rest →
      (alreadySent w b = true ↔ s + ((front.map Buf.th).flatMap items).length + (items b.th).length ≤ n) := by
    intro front rest b split
    have lined : Lined w.tcb.sndIsn s (w.data.snd.q.map Buf.th) := kept.lined
    have span : w.stream.length = s + ((w.data.snd.q.map Buf.th).flatMap items).length := kept.span
    rw [split, List.map_append, List.map_cons] at lined span
    rw [lined_append] at lined
    rw [List.flatMap_append, List.flatMap_cons, List.length_append, List.length_append] at span
    have stop := seq_end_place _ _ b lined.2.1 lined.2.2.1
    change w.stream.length ≤ _ at near
    unfold alreadySent
    rw [decide_eq_true_iff, stop, lies.nxt]
    change ¬ SEQLT _ _ ↔ _
    rw [seq_lt_near _ _ _ (by omega) (by omega)]
    omega
  constructor
  · obtain rfl | ⟨front, last, rfl⟩ := List.eq_nil_or_concat' whole
    · exact acked
    · have last_sent := (order front bufs last (by rw [queued, List.append_assoc]; rfl)).mp
        (skipped last (List.mem_append_right front List.mem_cons_self))
      rw [List.map_append, List.flatMap_append, List.length_append, ← Nat.add_assoc]
      simpa using last_sent
  · intro b first
    obtain ⟨rest, rfl⟩ : ∃ rest, bufs = b :: rest := List.head?_eq_some_iff.mp first
    have open' := (order whole rest b queued).not.mp (by rw [pending b rfl]; exact Bool.false_ne_true)
    omega

theorem sndhead_advances (env : Env) (w : World) : Advances w (tcpSndhead env w) := by
  intro s u n m lies
  have stays : ∃ s' n' m', s ≤ s' ∧ n ≤ n' ∧ m ≤ m' ∧ Lies w s' u n' m' := ⟨s, n, m, le_refl s, le_refl n, le_refl m, lies⟩
  unfold tcpSndhead
  split
  · exact stays
  · split
    · split
      · exact stays
      · exact advances_of_eq w (fault w) rfl rfl s u n m lies
    · rename_i last atLast
      have whole : w.data.snd.q = w.data.snd.q.takeWhile (alreadySent w) ++ w.data.snd.q.dropWhile (alreadySent w) :=
        List.takeWhile_append_dropWhile.symm
      obtain ⟨behind, ahead⟩ := unsent_around w _ _ whole lies (fun b member => List.mem_takeWhile_imp member)
        fun b first => by
          have open' := List.head?_dropWhile_not (alreadySent w) w.data.snd.q
          rw [Option.mem_def.mp first] at open'
          exact open'
      obtain ⟨n', m', on, high, done⟩ := snd_loop_advances env (sndheadEdge w last)
          (w.data.snd.q.dropWhile (alreadySent w)) 0 0 w lies fun b rest unsent => by
        rw [unsent] at whole ahead
        exact ⟨_, turn_of_lies w _ rest b whole lies behind (ahead b rfl)⟩
      obtain ⟨-, snd, ths⟩ := snd_loop_raises env (sndheadEdge w last) _ _ 0 0 w whole
      have same := ledger_sndhead_done (w.data.snd.q.takeWhile (alreadySent w)) (sndheadLoop env w last) (by
        rw [List.map_append, sndheadLoop, ths, ← List.map_append, ← whole, snd])
      exact ⟨s, n', m', le_refl s, on, high, lies_of_eq _ _ same (sndhead_done_keeps _ _).1 done⟩

theorem advances_pending (env : Env) (w : World) : Advances w (sndheadPending env w) := by
  unfold sndheadPending
  split
  · exact sndhead_advances env w
  · exact advances_of_eq w w rfl rfl

theorem rtt_nxt (w : World) (b : Buf) : (tcpRtt w b).tcb.sndNxt = w.tcb.sndNxt := by
  unfold tcpRtt
  split
  · split <;> rfl
  · rfl

theorem drop_acked_nxt (una : Seq) (bufs : List Buf) (n : Nat) (w : World) :
    (dropAcked una bufs n w).2.tcb.sndNxt = w.tcb.sndNxt := by
  induction bufs generalizing n w with
  | nil => rfl
  | cons b rest ih =>
      rw [dropAcked]
      split
      · rw [ih]
        exact rtt_nxt (shortenSnd w b rest) b
      · rfl

theorem drag_urg_nxt (w : World) : (dragUrg w).tcb.sndNxt = w.tcb.sndNxt := by
  unfold dragUrg
  split <;> rfl

theorem artt_nxt (w : World) : (tcpArtt w).tcb.sndNxt = w.tcb.sndNxt := by
  unfold tcpArtt
  split
  · split <;> rfl
  · rfl

theorem count_acked_nxt (w : World) (n : Nat) : (countAcked w n).tcb.sndNxt = w.tcb.sndNxt := by
  unfold countAcked
  rw [drag_urg_nxt]
  split
  · exact artt_nxt w
  · rfl

theorem advances_dropdata (w : World) : Advances w (tcpDropdata w).2 := by
  refine advances_of_keeps w _ (keeps_dropdata w) ?_ (steady_same (·.tcb.sndIsn) _ _ (steady_dropdata w) fun _ => rfl)
  unfold tcpDropdata
  dsimp only
  rw [count_acked_nxt, drop_acked_nxt]

theorem advances_idle (env : Env) (w : World) (event : OutEvent) : Advances w (tcbosIdle env w event) := by
  cases event with
  | send =>
      dsimp only [tcbosIdle]
      split
      · exact advances_of_eq w w rfl rfl
      · have begun : Advances w (idleStart w) := by
          refine advances_of_eq w _ (ledger_idle_start w) ?_
          unfold idleStart
          split <;> rfl
        refine advances_trans _ _ _ begun (advances_trans _ _ _ (sndhead_advances env (idleStart w)) ?_)
        refine advances_of_eq _ _ (ledger_idle_sent _) ?_
        unfold idleSent idleArm
        split <;> rfl
  | ackrcvd => exact advances_of_eq w w rfl rfl
  | wndopen => exact advances_of_eq w w rfl rfl
  | wndclose => exact advances_of_eq w w rfl rfl
  | timeout => exact advances_of_eq w w rfl rfl
  | dupack => exact advances_of_eq w w rfl rfl

theorem advances_wndclose (w : World) : Advances w (xmitWndclose w) := by
  refine advances_of_eq w _ (ledger_xmit_wndclose w) ?_
  unfold xmitWndclose
  split <;> rfl

theorem advances_xmit_acked (w : World) : Advances w (xmitAcked w) := by
  refine advances_of_eq w _ (ledger_xmit_acked w) ?_
  unfold xmitAcked
  split <;> rfl

theorem advances_persist_acked (w : World) : Advances w (persistAcked w) := by
  refine advances_of_eq w _ (ledger_persist_acked w) ?_
  unfold persistAcked
  split <;> rfl

theorem advances_persist_opened (w : World) : Advances w (persistOpened w) := by
  refine advances_of_eq w _ (ledger_persist_opened w) ?_
  unfold persistOpened
  split <;> rfl

theorem advances_xmit (env : Env) (w : World) (event : OutEvent) (quiet : event ≠ .timeout) :
    Advances w (tcbosXmit env w event) := by
  cases event with
  | send => exact advances_pending env w
  | wndopen => exact advances_trans _ _ _ (advances_pending env w) (advances_wndclose _)
  | wndclose => exact advances_wndclose w
  | ackrcvd => exact advances_trans _ _ _ (advances_dropdata w) (advances_xmit_acked _)
  | timeout => exact (quiet rfl).elim
  | dupack => exact advances_of_eq w w rfl rfl

theorem advances_dupack (env : Env) (w : World) : Advances w (dupackResend env w) := by
  refine advances_of_keeps w _ (keeps_dupack_resend env w) ?_ ?_
  · unfold dupackResend
    split
    · split
      · rfl
      · split
        · exact sndseg_nxt env w _ _ _ _ _
        · rfl
    · rfl
  · unfold dupackResend
    split
    · split
      · rfl
      · split
        · exact steady_same (·.tcb.sndIsn) _ _ (steady_sndseg env w _ _ _ _ _) fun _ => rfl
        · rfl
    · rfl

theorem advances_retrans_acked (env : Env) (w : World) (nsegs : Nat) : Advances w (retransAcked env w nsegs) := by
  unfold retransAcked
  split
  · exact advances_of_eq w _ rfl rfl
  · have reset : Advances w (resetBackoff w nsegs) := by
      refine advances_of_eq w _ (ledger_reset_backoff w nsegs) ?_
      unfold resetBackoff
      split
      · split <;> rfl
      · rfl
    refine advances_trans _ _ _ reset ?_
    unfold retransProgress
    split
    · have begun : Advances (resetBackoff w nsegs) (startCwnd (resetBackoff w nsegs)) := advances_of_eq _ _ rfl rfl
      exact advances_trans _ _ _ begun (advances_trans _ _ _ (advances_pending env _) (advances_of_eq _ _ rfl rfl))
    · exact advances_of_eq _ _ rfl rfl

theorem advances_retrans (env : Env) (w : World) (event : OutEvent) (quiet : event ≠ .timeout) :
    Advances w (tcbosRetrans env w event) := by
  cases event with
  | ackrcvd => exact advances_trans _ _ _ (advances_dropdata w) (advances_retrans_acked env _ _)
  | wndclose =>
      dsimp only [tcbosRetrans]
      split <;> exact advances_of_eq w _ rfl rfl
  | dupack => exact advances_dupack env w
  | timeout => exact (quiet rfl).elim
  | send => exact advances_of_eq w w rfl rfl
  | wndopen => exact advances_of_eq w w rfl rfl

theorem advances_persist (env : Env) (w : World) (event : OutEvent) (quiet : event ≠ .timeout) :
    Advances w (tcbosPersist env w event) := by
  cases event with
  | ackrcvd => exact advances_trans _ _ _ (advances_dropdata w) (advances_persist_acked _)
  | wndopen => exact advances_trans _ _ _ (advances_pending env w) (advances_persist_opened _)
  | timeout => exact (quiet rfl).elim
  | send => exact advances_of_eq w w rfl rfl
  | wndclose => exact advances_of_eq w w rfl rfl
  | dupack => exact advances_of_eq w w rfl rfl

theorem advances_ostate (env : Env) (w : World) (event : OutEvent) (quiet : event ≠ .timeout) :
    Advances w (tcbOstate env w event) := by
  unfold tcbOstate
  split
  · exact advances_idle env w event
  · exact advances_retrans env w event quiet
  · exact advances_persist env w event quiet
  · exact advances_xmit env w event quiet

theorem probe_send_nxt (env : Env) (w : World) : (probeSend env w).tcb.sndNxt = w.tcb.sndNxt := by
  unfold probeSend tcpMkseg bufAlloc
  dsimp only
  by_cases memory : env.memory w.net.allocs
  · rw [if_pos memory]
    rfl
  · rw [if_neg memory]

theorem advances_probe_heard (env : Env) (w : World) (heard : ¬ peerSilent w) : Advances w (tcpProbe env w) := by
  refine advances_of_eq w _ (probe_heard env w heard).2 ?_
  unfold tcpProbe
  rw [if_neg heard]
  exact probe_send_nxt env w

-- A timeout closes the connection, or nothing is taken back.
theorem advances_probe (env : Env) (w : World) : Ended w (tcpProbe env w) ∨ Advances w (tcpProbe env w) := by
  by_cases silent : peerSilent w
  · unfold tcpProbe
    rw [if_pos silent]
    exact Or.inl (ended_close_with w _)
  · exact Or.inr (advances_probe_heard env w silent)

theorem advances_retrans_send (env : Env) (w : World) (b : Buf) (rest : List Buf) (queued : w.data.snd.q = b :: rest) :
    Advances w (retransSend env w b rest) := by
  refine advances_of_keeps w _ (runs_retrans_send env w b rest queued).2 ?_
    (incoming_same (·.tcb.sndIsn) _ _ (runs_retrans_send env w b rest queued).1 fun _ => rfl)
  have nxt := sndseg_nxt env w b rest w.tcb.nretrans w.tcb.sndUna w.tcb.sndNxt
  unfold retransSend
  cases got : tcpSndseg env w b rest w.tcb.nretrans w.tcb.sndUna w.tcb.sndNxt with
  | mk r w1 =>
      rw [got] at nxt
      dsimp only at nxt ⊢
      split <;> exact nxt

theorem advances_tcp_retrans (env : Env) (w : World) : Ended w (tcpRetrans env w) ∨ Advances w (tcpRetrans env w) := by
  unfold tcpRetrans
  split
  · exact Or.inl (ended_from w (countRetrans w) _ (ended_close_with (countRetrans w) ETIMEDOUT) rfl rfl rfl rfl)
  · right
    split
    · exact advances_of_eq w _ rfl rfl
    · rename_i b rest queued
      have begun : Advances w (shrinkCwnd (countRetrans w)) := advances_of_eq w _ rfl rfl
      exact advances_trans _ _ _ begun (advances_retrans_send env _ b rest queued)

theorem advances_persist_sent (env : Env) (w : World) : Ended w (persistSent env w) ∨ Advances w (persistSent env w) := by
  unfold persistSent
  split
  · exact Or.inr (advances_of_eq w _ rfl rfl)
  · obtain ended | advances := advances_probe env (noRtt w)
    · exact Or.inl (ended_from w (noRtt w) _ ended rfl rfl rfl rfl)
    · have begun : Advances w (noRtt w) := advances_of_eq w _ rfl rfl
      exact Or.inr (advances_trans _ _ _ begun advances)

theorem advances_timeout (env : Env) (w : World) :
    (∃ x, Advances w x ∧ Ended x (tcbOstate env w .timeout)) ∨ Advances w (tcbOstate env w .timeout) := by
  have same : Advances w w := advances_of_eq w w rfl rfl
  unfold tcbOstate
  split
  · exact Or.inr same
  · exact (advances_tcp_retrans env w).imp_left fun ended => ⟨w, same, ended⟩
  · dsimp only [tcbosPersist]
    split
    · have begun : Advances w (setWndmax w) := advances_of_eq w _ rfl rfl
      have sent := advances_trans _ _ _ begun (sndhead_advances env (setWndmax w))
      obtain ended | advances := advances_persist_sent env (tcpSndhead env (setWndmax w))
      · exact Or.inl ⟨_, sent, ended⟩
      · exact Or.inr (advances_trans _ _ _ sent advances)
    · exact (advances_probe env w).imp_left fun ended => ⟨w, same, ended⟩
  · have begun : Advances w (capDupacks (noRtt (setOstate w .retrans))) := advances_of_eq w _ rfl rfl
    obtain ended | advances := advances_tcp_retrans env (capDupacks (noRtt (setOstate w .retrans)))
    · exact Or.inl ⟨_, begun, ended⟩
    · exact Or.inr (advances_trans _ _ _ begun advances)

theorem advances_output_plain (env : Env) (flags : Flags) (done : Option Int × World) (plain : flags.urg = false) :
    Advances done.2 (outputDone env flags done) := by
  unfold outputDone
  rw [plain]
  split
  · exact advances_of_eq _ _ rfl rfl
  · exact advances_ostate env _ .send (by decide)

-- What follows once tcp_output has queued the data.
theorem advances_output_done (env : Env) (flags : Flags) (done : Option Int × World) :
    Ended done.2 (outputDone env flags done) ∨ Advances done.2 (outputDone env flags done) := by
  unfold outputDone
  split
  · exact Or.inr (advances_of_eq _ _ rfl rfl)
  · split
    · have marked : Advances done.2 (setSndUrg done.2) := advances_of_eq _ _ rfl rfl
      unfold outputUrgent
      split
      · split
        · rename_i silent
          left
          have ended : Ended (setPersistTmo (timerDel (setSndUrg done.2)) (tcpTimeout (setSndUrg done.2)))
              (tcpProbe env (setPersistTmo (timerDel (setSndUrg done.2)) (tcpTimeout (setSndUrg done.2)))) := by
            unfold tcpProbe
            rw [if_pos (by exact silent)]
            exact ended_close_with _ _
          exact ended_from done.2 _ _ ended rfl rfl rfl rfl
        · rename_i heard
          right
          have armed : Advances (setSndUrg done.2) (setPersistTmo (timerDel (setSndUrg done.2)) (tcpTimeout (setSndUrg done.2))) :=
            advances_of_eq _ _ rfl rfl
          have probed := advances_probe_heard env _ (show ¬ peerSilent (setPersistTmo (timerDel (setSndUrg done.2))
            (tcpTimeout (setSndUrg done.2))) from heard)
          exact advances_trans _ _ _ marked (advances_trans _ _ _ armed (advances_trans _ _ _ probed
            (advances_ostate env _ .send (by decide))))
      · exact Or.inr (advances_trans _ _ _ marked (advances_ostate env _ .send (by decide)))
    · exact Or.inr (advances_ostate env _ .send (by decide))

end MagxNet.Tcp
