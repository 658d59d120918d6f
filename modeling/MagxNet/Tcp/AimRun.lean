import MagxNet.Tcp.Aim
import MagxNet.Tcp.SendOrderRun
import MagxNet.Tcp.Liveness
import MagxNet.Tcp.Handshake

set_option autoImplicit false

namespace MagxNet.Tcp

open Bytes Serial

-- Of a queue with something on it, writing leaves the first segment, or adds to one that is not sent.
def FirstKept (w w' : World) : Prop :=
  (ledger w).segs = [] ∨ (ledger w').segs.head? = (ledger w).segs.head? ∨ ∃ th ∈ (ledger w').segs.head?, SEQLE w.tcb.sndMax th.seq

theorem first_kept_trans (w x w' : World) (max : x.tcb.sndMax = w.tcb.sndMax) (first : FirstKept w x) (second : FirstKept x w') :
    FirstKept w w' := by
  obtain none | same | ⟨th, atHead, unsent⟩ := first
  · exact Or.inl none
  · obtain none | same' | ⟨th, atHead, unsent⟩ := second
    · rw [none] at same
      exact Or.inl (List.head?_eq_none_iff.mp same.symm)
    · exact Or.inr (Or.inl (same'.trans same))
    · rw [max] at unsent
      exact Or.inr (Or.inr ⟨th, atHead, unsent⟩)
  · obtain none | same' | ⟨th', atHead', unsent'⟩ := second
    · rw [none] at atHead
      cases atHead
    · rw [← same'] at atHead
      exact Or.inr (Or.inr ⟨th, atHead, unsent⟩)
    · rw [max] at unsent'
      exact Or.inr (Or.inr ⟨th', atHead', unsent'⟩)

theorem first_kept_fill (w : World) (bytes : List Byte) (r : Nat) (fin : Bool) (unsent : ∀ b ∈ w.data.snd.q.getLast?, SEQLE w.tcb.sndMax (SEQ1ST b)) :
    FirstKept w (outputFill w bytes r fin) := by
  unfold outputFill
  split
  · exact Or.inr (Or.inl rfl)
  · rename_i b last
    obtain ⟨front, queued⟩ := List.getLast?_eq_some_iff.mp last
    right
    unfold fillLast
    change (List.map Buf.th (w.data.snd.q.dropLast ++ [fillSeg b _ _])).head? = (w.data.snd.q.map Buf.th).head?
      ∨ ∃ th ∈ (List.map Buf.th (w.data.snd.q.dropLast ++ [fillSeg b _ _])).head?, _
    rw [queued, List.dropLast_concat]
    cases front with
    | nil =>
        right
        refine ⟨_, rfl, ?_⟩
        rw [fill_seq]
        exact unsent b last
    | cons f front => exact Or.inl rfl

theorem first_kept_fresh (w : World) (id : Nat) (flags : Flags) (first : Bool) (bytes : List Byte) (r : Nat) (fin : Bool) :
    FirstKept w (outputFill (outputFresh w id flags first r) bytes r fin) := by
  have queue := fresh_queue w id flags first r
  cases queued : w.data.snd.q with
  | nil =>
      left
      change w.data.snd.q.map Buf.th = []
      rw [queued]
      rfl
  | cons f front =>
      right
      left
      unfold outputFill
      rw [queue, List.getLast?_concat]
      dsimp only [fillLast, ledger]
      rw [queue, List.dropLast_concat, queued]
      rfl

theorem first_kept_round (env : Env) (w : World) (bytes : List Byte) (flags : Flags) (first : Bool) :
    FirstKept w (outputRound env w bytes flags first).2 := by
  unfold outputRound outputRoom bufAlloc
  by_cases room : combineRoom w flags > 0
  · rw [if_pos room]
    refine first_kept_fill (growSnd w _) bytes _ flags.fin fun b last => ?_
    unfold combineRoom at room
    rw [show w.data.snd.q.getLast? = some b from last] at room
    dsimp only at room
    split at room
    · rename_i fits
      exact fits.1
    · exact (lt_irrefl 0 room).elim
  · rw [if_neg room]
    by_cases memory : env.memory w.net.allocs
    · rw [if_pos memory]
      exact first_kept_fresh { w with net.allocs := w.net.allocs + 1 } _ flags first bytes _ flags.fin
    · rw [if_neg memory]
      exact Or.inr (Or.inl rfl)

theorem first_kept_loop (env : Env) (flags : Flags) (fuel : Nat) (w : World) (bytes : List Byte) (first : Bool) :
    FirstKept w (outputLoop env flags fuel w bytes first).2 := by
  induction fuel generalizing w bytes first with
  | zero => exact Or.inr (Or.inl rfl)
  | succ fuel ih =>
      have round := first_kept_round env w bytes flags first
      have max := unwritten_same (·.tcb.sndMax) _ _ (unwritten_round env w bytes flags first) fun _ => rfl
      rw [outputLoop]
      split
      · rename_i w1 got
        rw [got] at round
        exact round
      · rename_i w1 got
        rw [got] at round
        exact round
      · rename_i byte rest w1 got
        rw [got] at round max
        exact first_kept_trans w w1 _ max round (ih w1 (byte :: rest) false)

-- What is written leaves the queue trimmed.
theorem trimmed_queued (env : Env) (w : World) (bytes : List Byte) (flags : Flags) {s u m : Nat} (kept : Kept (ledger w) s u m)
    (kept' : Kept (ledger (queued env w bytes flags).2) s u m) (trim : (ledger w).trimmed) :
    (ledger (queued env w bytes flags).2).trimmed := by
  have firsts : FirstKept w (queued env w bytes flags).2 := first_kept_loop env flags _ w bytes true
  have una := unwritten_same (·.tcb.sndUna) _ _ (unwritten_queued env w bytes flags) fun _ => rfl
  have max := unwritten_same (·.tcb.sndMax) _ _ (unwritten_queued env w bytes flags) fun _ => rfl
  have unacked := kept.unacked
  have written := kept.sent
  generalize (queued env w bytes flags).2 = x at kept' firsts una max ⊢
  have fresh : u ≤ s → (ledger x).trimmed := by
    intro behind
    cases queued : x.data.snd.q with
    | nil =>
        intro th atHead
        change th ∈ (x.data.snd.q.map Buf.th).head? at atHead
        rw [queued] at atHead
        cases atHead
    | cons b rest =>
        have split : (ledger x).segs = b.th :: rest.map Buf.th := by
          change x.data.snd.q.map Buf.th = _
          rw [queued, List.map_cons]
        have lined := kept'.lined
        rw [split] at lined
        have some : 0 < (items b.th).length := List.length_pos_of_ne_nil lined.2.1.some
        exact (trimmed_place x b rest queued kept').mpr (by omega)
  obtain none | same | ⟨th, atHead, unsent⟩ := firsts
  · have span := kept.span
    have high := kept.written
    rw [none] at span
    exact fresh (by simpa using (by omega : u ≤ (ledger w).stream.length).trans span.le)
  · intro th atHead
    rw [same] at atHead
    rw [show (ledger x).una = (ledger w).una from una]
    exact trim th atHead
  · apply fresh
    have lined := kept'.lined
    have near := kept'.near
    have high := kept'.written
    obtain ⟨others, split⟩ : ∃ others, (ledger x).segs = th :: others := List.head?_eq_some_iff.mp atHead
    rw [split] at lined
    rw [← max, show x.tcb.sndMax = place (ledger x).isn m from kept'.max, lined.1, seq_le_near _ _ _ (by omega) (by omega)] at unsent
    omega

theorem aimed_of_side (w w' : World) (side : sendSide w' = sendSide w) {s u n m : Nat} {a : Int} (aimed : Aimed w s u n m a) :
    Aimed w' s u n m a :=
  aimed_of_eq w w' (congrArg SendSide.ledger side) (congrArg SendSide.nxt side) (congrArg SendSide.wndack side)
    (congrArg SendSide.wnd side) aimed

theorem trimmed_of_side (w w' : World) (side : sendSide w' = sendSide w) (trim : (ledger w).trimmed) : (ledger w').trimmed := by
  rw [show ledger w' = ledger w from congrArg SendSide.ledger side]
  exact trim

theorem aimed_dupacks (w : World) (dupacks : Int) {s u n m : Nat} {a : Int} (aimed : Aimed w s u n m a) :
    Aimed (setDupacks w dupacks) s u n m a :=
  aimed_of_side w (setDupacks w dupacks) rfl aimed

-- A sender at rest has nothing left to be acked.
def Restful (w : World) : Prop := w.tcb.ostate = .idle → w.tcb.sndUna = w.tcb.seqWrite

theorem new_busy (w : World) (rests : Restful w) {s u n m j : Nat} (lies : Lies w s u n m) (later : u < j) (high : j ≤ n) :
    w.tcb.ostate ≠ .idle := by
  intro idle
  have level := (kept_level lies.kept).mp (rests idle)
  have written := lies.sent.trans lies.kept.written
  omega

section Acks

variable (env : Env) (x : World) (pkt : Pkt)

-- What tcp_ack does once the window is set.
theorem place_aims (osndWnd : Int) (sized : Sized x) {s n m : Nat} {a : Int}
    (new : SEQLE pkt.tcph.ack x.tcb.sndMax → SEQLT x.tcb.sndUna pkt.tcph.ack →
      x.tcb.ostate ≠ .idle ∧ ∃ j, Aimed (setUna x pkt.tcph.ack) s j n m a)
    (old : ¬ (SEQLE pkt.tcph.ack x.tcb.sndMax ∧ SEQLT x.tcb.sndUna pkt.tcph.ack) → ∃ u, Aimed x s u n m a ∧ (ledger x).trimmed) :
    (∀ c ∈ placeCalls env x pkt osndWnd, Meets c)
      ∧ ∃ s' u' n' m', Aimed (ackPlace env x pkt osndWnd) s' u' n' m' a ∧ (ledger (ackPlace env x pkt osndWnd)).trimmed := by
  have none : ∀ c ∈ ([] : List SegCall), Meets c := by
    rintro c ⟨⟩
  have side : ∀ y, sendSide y = sendSide x → ¬ (SEQLE pkt.tcph.ack x.tcb.sndMax ∧ SEQLT x.tcb.sndUna pkt.tcph.ack) →
      ∃ s' u' n' m', Aimed y s' u' n' m' a ∧ (ledger y).trimmed := by
    intro y same notNew
    obtain ⟨u, aimed, trim⟩ := old notNew
    exact ⟨s, u, n, m, aimed_of_side x y same aimed, trimmed_of_side x y same trim⟩
  unfold placeCalls ackPlace
  by_cases beyond : SEQGT pkt.tcph.ack x.tcb.sndMax
  · rw [if_pos beyond, if_pos beyond]
    refine ⟨none, ?_⟩
    split
    · exact side _ (side_sndrst env x pkt) fun both => beyond both.1
    · exact side _ (side_of_outgoing _ _ (outgoing_sndack env x pkt)) fun both => beyond both.1
  · rw [if_neg beyond, if_neg beyond]
    by_cases isNew : SEQLT x.tcb.sndUna pkt.tcph.ack
    · rw [if_pos isNew, if_pos isNew]
      obtain ⟨busy, j, aimed⟩ := new (not_not.mp beyond) isNew
      obtain ⟨s', n', m', done, trim⟩ := acked_aims env (setUna x pkt.tcph.ack) sized busy aimed
      exact ⟨acked_calls_meet env (setUna x pkt.tcph.ack) sized aimed, s', j, n', m', aimed_dupacks _ 0 done, trim⟩
    · rw [if_neg isNew, if_neg isNew]
      have notNew : ¬ (SEQLE pkt.tcph.ack x.tcb.sndMax ∧ SEQLT x.tcb.sndUna pkt.tcph.ack) := fun both => isNew both.2
      obtain ⟨u, aimed, trim⟩ := old notNew
      split
      · exact ⟨none, s, u, n, m, aimed, trim⟩
      · split
        · have counted := aimed_dupacks x (x.tcb.dupacks + 1) aimed
          have carries := carries_event env (setDupacks x (x.tcb.dupacks + 1)) .dupack sized (by decide) (by decide)
          obtain ⟨n', m', done⟩ := carries.aimed _ _ _ _ _ counted
          exact ⟨event_calls_meet env _ .dupack sized (by decide) (by decide) counted trim, s, u, n', m', done,
            trimmed_of_carries _ _ carries trim⟩
        · exact ⟨none, s, u, n, m, aimed, trim⟩

-- The place of an ack between snd_una and snd_nxt.
theorem within_place (w : World) (ack : Seq) {s u n m : Nat} (lies : Lies w s u n m) (after : ¬ SEQLT ack w.tcb.sndUna)
    (before : ¬ SEQLT w.tcb.sndNxt ack) : ∃ j : Nat, ack = place w.tcb.sndIsn j ∧ u ≤ j ∧ j ≤ n := by
  have near := lies.kept.near
  have unacked := lies.kept.unacked
  have written := lies.sent.trans lies.kept.written
  have acked := lies.acked
  rw [show w.tcb.sndUna = place w.tcb.sndIsn u from lies.kept.una] at after
  obtain ⟨j, least, span, isAck⟩ := steps_of_not_lt _ _ _ after
  have order : j ≤ n := by
    by_contra beyond
    rw [lies.nxt, isAck] at before
    unfold SEQLT at before
    rw [lt_place _ n j (by omega) (by omega)] at before
    omega
  refine ⟨j.toNat, ?_, by omega, by omega⟩
  rw [Int.toNat_of_nonneg (by omega)]
  exact isAck

theorem within_sent (w : World) (ack : Seq) {s u n m j : Nat} (lies : Lies w s u n m) (isAck : ack = place w.tcb.sndIsn j)
    (low : u ≤ j) (high : j ≤ n) : SEQLE ack w.tcb.sndMax := by
  have near := lies.kept.near
  have unacked := lies.kept.unacked
  have written := lies.kept.written
  have sent := lies.sent
  rw [isAck, show w.tcb.sndMax = place w.tcb.sndIsn m from lies.kept.max, seq_le_near _ _ _ (by omega) (by omega)]
  omega

theorem sndwnd_window (tcph : Dgram) : (tcpSndwnd x tcph).tcb.sndWndack = tcph.ack ∧ (tcpSndwnd x tcph).tcb.sndWnd = tcph.window.toNat
    ∧ (tcpSndwnd x tcph).tcb.sndNxt = shrunkNxt x tcph ∧ (tcpSndwnd x tcph).tcb.ostate = x.tcb.ostate := by
  unfold tcpSndwnd noteWndmax
  split <;> exact ⟨rfl, rfl, rfl, rfl⟩

-- A window that comes with an ack between snd_una and snd_nxt is placed there.
theorem window_aims {s u n m : Nat} {a : Int} (aimed : Aimed x s u n m a) (trim : (ledger x).trimmed) (rests : Restful x)
    (after : ¬ SEQLT pkt.tcph.ack x.tcb.sndUna) (before : ¬ SEQLT x.tcb.sndNxt pkt.tcph.ack) :
    ∃ n' a', (SEQLT x.tcb.sndUna pkt.tcph.ack → x.tcb.ostate ≠ .idle ∧ ∃ j, Aimed (setUna (tcpSndwnd x pkt.tcph) pkt.tcph.ack) s j n' m a')
      ∧ (¬ SEQLT x.tcb.sndUna pkt.tcph.ack → Aimed (tcpSndwnd x pkt.tcph) s u n' m a' ∧ (ledger (tcpSndwnd x pkt.tcph)).trimmed) := by
  have lies := aimed.lies
  obtain ⟨j, isAck, low, high⟩ := within_place x pkt.tcph.ack lies after before
  have near := lies.kept.near
  have unacked := lies.kept.unacked
  have written := lies.kept.written
  have sent := lies.sent
  have una : x.tcb.sndUna = place x.tcb.sndIsn u := lies.kept.una
  have order : SEQLT x.tcb.sndUna pkt.tcph.ack ↔ u < j := by
    rw [una, isAck, seq_lt_near _ _ _ (by omega) (by omega)]
  obtain ⟨n', behind, shrunk⟩ := shrunk_lies x pkt.tcph lies fun pulled early => by
    have bound := pkt.tcph.window.isLt
    have edge : wlast pkt.tcph = place x.tcb.sndIsn (j + pkt.tcph.window.toNat) := by
      unfold wlast
      rw [isAck, ← place_add, BitVec.ofInt_natCast, BitVec.ofNat_toNat]
    rw [edge, una, seq_lt_int _ _ _ (by omega) (by omega)] at early
    omega
  have kept := ledger_sndwnd x pkt.tcph
  obtain ⟨wndack, wnd, nxt, -⟩ := sndwnd_window x pkt.tcph
  have isn : (tcpSndwnd x pkt.tcph).tcb.sndIsn = x.tcb.sndIsn := congrArg Ledger.isn kept
  have reached : j ≤ n' := by
    have follows := shrunk_follows x pkt.tcph (fun _ => before) (within_sent x _ lies isAck low high)
    rw [← nxt, shrunk.nxt, isn, isAck, seq_lt_near _ _ _ (by omega) (by have := shrunk.acked; omega)] at follows
    omega
  have range : (0 : Int) ≤ pkt.tcph.window.toNat ∧ (pkt.tcph.window.toNat : Int) ≤ 65535 := by
    have bound := pkt.tcph.window.isLt
    omega
  refine ⟨n', j, fun new => ⟨new_busy x rests lies (order.mp new) high, j, ?_⟩, fun notNew => ?_⟩
  · have una' : (setUna (tcpSndwnd x pkt.tcph) pkt.tcph.ack).tcb.sndUna = place (tcpSndwnd x pkt.tcph).tcb.sndIsn j := by
      rw [isn]
      exact isAck
    have moved : Kept (ledger (setUna (tcpSndwnd x pkt.tcph) pkt.tcph.ack)) s j m :=
      { shrunk.kept with una := una', unacked := by omega, sent := by omega }
    refine ⟨⟨moved, shrunk.nxt, reached, shrunk.sent⟩, ?_, le_refl _, ?_, by omega⟩
    · exact wndack.trans una'
    · rw [show (setUna (tcpSndwnd x pkt.tcph) pkt.tcph.ack).tcb.sndWnd = _ from wnd]
      exact range
  · have level : ¬ u < j := order.not.mp notNew
    refine ⟨⟨shrunk, by rw [wndack, isn, isAck], by omega, by rw [wnd]; exact range, by omega⟩, ?_⟩
    rw [kept]
    exact trim

theorem ack_aims (update : Bool) (sized : Sized x) (rests : Restful x) {s u n m : Nat} {a : Int} (aimed : Aimed x s u n m a)
    (trim : (ledger x).trimmed)
    (follows : pkt.tcph.flags.ack → SEQLE pkt.tcph.ack x.tcb.sndMax → ¬ SEQLT x.tcb.sndNxt pkt.tcph.ack)
    (within : pkt.tcph.flags.ack → update → ¬ staleWindow x pkt.tcph →
      ¬ SEQLT pkt.tcph.ack x.tcb.sndUna ∧ ¬ SEQLT x.tcb.sndNxt pkt.tcph.ack) :
    (∀ c ∈ ackCalls env x pkt update, Meets c)
      ∧ ∃ s' u' n' m' a', Aimed (tcpAck env x pkt update) s' u' n' m' a' ∧ (ledger (tcpAck env x pkt update)).trimmed := by
  unfold ackCalls tcpAck
  by_cases acks : pkt.tcph.flags.ack
  · rw [if_neg (not_not.mpr acks), if_neg (not_not.mpr acks)]
    by_cases takes : update ∧ ¬ staleWindow x pkt.tcph
    · rw [if_pos takes, if_pos takes]
      obtain ⟨after, before⟩ := within acks takes.1 takes.2
      obtain ⟨n', a', new, old⟩ := window_aims x pkt aimed trim rests after before
      have kept := ledger_sndwnd x pkt.tcph
      have una : (tcpSndwnd x pkt.tcph).tcb.sndUna = x.tcb.sndUna := congrArg Ledger.una kept
      have max : (tcpSndwnd x pkt.tcph).tcb.sndMax = x.tcb.sndMax := congrArg Ledger.max kept
      have sized' := sized_of_eq _ _ (sizes_sndwnd x pkt.tcph) sized
      have sent : SEQLE pkt.tcph.ack x.tcb.sndMax := by
        obtain ⟨j, isAck, low, high⟩ := within_place x pkt.tcph.ack aimed.lies after before
        exact within_sent x _ aimed.lies isAck low high
      obtain ⟨calls, s', u', n'', m', placed, trim'⟩ := place_aims env (tcpSndwnd x pkt.tcph) pkt x.tcb.sndWnd sized'
        (fun _ isNew => by
          rw [una] at isNew
          rw [(sndwnd_window x pkt.tcph).2.2.2]
          exact new isNew)
        (fun notNew => by
          rw [max, una] at notNew
          exact ⟨u, old fun isNew => notNew ⟨sent, isNew⟩⟩)
      have quiet : windowEvent x pkt.tcph ≠ .timeout ∧ windowEvent x pkt.tcph ≠ .ackrcvd := by
        unfold windowEvent
        split <;> decide
      have sized'' := sized_ack_place env (tcpSndwnd x pkt.tcph) pkt x.tcb.sndWnd sized'
      have carries := carries_event env _ (windowEvent x pkt.tcph) sized'' quiet.1 quiet.2
      obtain ⟨n3, m3, done⟩ := carries.aimed _ _ _ _ _ placed
      refine ⟨fun c member => ?_, s', u', n3, m3, a', done, trimmed_of_carries _ _ carries trim'⟩
      obtain early | late := List.mem_append.mp member
      · exact calls c early
      · exact event_calls_meet env _ _ sized'' quiet.1 quiet.2 placed trim' c late
    · rw [if_neg takes, if_neg takes]
      obtain ⟨calls, s', u', n', m', done⟩ := place_aims env x pkt x.tcb.sndWnd sized
        (fun sent isNew => by
          obtain ⟨j, later, high, -, moved⟩ := new_ack x pkt.tcph.ack aimed.lies isNew sent (follows acks sent)
            (lies_not_stray x pkt.tcph aimed.lies (follows acks))
          exact ⟨new_busy x rests aimed.lies later high, j, moved, aimed.ack, by have := aimed.behind; omega, aimed.wnd, aimed.reach⟩)
        (fun _ => ⟨u, aimed, trim⟩)
      exact ⟨calls, s', u', n', m', a, done⟩
  · rw [if_pos acks, if_pos acks]
    exact ⟨by rintro c ⟨⟩, s, u, n, m, a, aimed, trim⟩

end Acks

-- The window and the queue are in place, or the connection was reset.
def Guided (w : World) : Prop :=
  (sendSide w).wasReset
    ∨ ∃ s u n m a, Aimed w s u n m a ∧ (ledger w).trimmed ∧ (w.tcb.state = .synsent → u = 0)

theorem guided_of_side (w w' : World) (side : sendSide w' = sendSide w) (guided : Guided w) : Guided w' := by
  unfold Guided
  obtain reset | ⟨s, u, n, m, a, aimed, trim, opens⟩ := guided
  · left
    rw [side]
    exact reset
  · refine Or.inr ⟨s, u, n, m, a, aimed_of_side w w' side aimed, trimmed_of_side w w' side trim, ?_⟩
    rw [show w'.tcb.state = w.tcb.state from congrArg SendSide.state side]
    exact opens

theorem guided_ended (w w' : World) (ended : Ended w w') : Guided w' :=
  Or.inl (ended_reset w w' ended)

-- A connection that has left TCBS_SYNSENT.
theorem guided_landed (w w' : World) (kept : ledger w' = ledger w) (nxt : w'.tcb.sndNxt = w.tcb.sndNxt)
    (wndack : w'.tcb.sndWndack = w.tcb.sndWndack) (wnd : w'.tcb.sndWnd = w.tcb.sndWnd) (landed : w'.tcb.state ≠ .synsent)
    {s u n m : Nat} {a : Int} (aimed : Aimed w s u n m a) (trim : (ledger w).trimmed) : Guided w' := by
  refine Or.inr ⟨s, u, n, m, a, aimed_of_eq w w' kept nxt wndack wnd aimed, ?_, fun opens => (landed opens).elim⟩
  rw [kept]
  exact trim

theorem settles_guided (tcph : Dgram) (y w' : World) (settles : Settles tcph (sendSide y) (sendSide w'))
    (notRcvd : y.tcb.state ≠ .synrcvd) (notSent : y.tcb.state ≠ .synsent) {s u n m : Nat} {a : Int} (aimed : Aimed y s u n m a)
    (trim : (ledger y).trimmed) : Guided w' := by
  have kept : ledger w' = ledger y := settles_ledger tcph _ _ settles
  have nxt : w'.tcb.sndNxt = y.tcb.sndNxt := settles_nxt tcph _ _ settles
  have window : (sendSide w').wndack = (sendSide y).wndack ∧ (sendSide w').wnd = (sendSide y).wnd ∧ (sendSide w').state ≠ .synsent := by
    generalize sendSide w' = z at settles
    cases settles with
    | stays => exact ⟨rfl, rfl, notSent⟩
    | closes => exact ⟨rfl, rfl, (fun h => by cases h)⟩
    | crosses => exact ⟨rfl, rfl, (fun h => by cases h)⟩
    | halfCloses => exact ⟨rfl, rfl, (fun h => by cases h)⟩
    | ends => exact ⟨rfl, rfl, (fun h => by cases h)⟩
    | deletes => exact ⟨rfl, rfl, (fun h => by cases h)⟩
    | opens state half => exact (notRcvd half).elim
  exact guided_landed y w' kept nxt window.1 window.2.1 window.2.2 aimed trim

-- After an ack between snd_una and snd_nxt, snd_una is that ack.
theorem ack_una (env : Env) (x : World) (pkt : Pkt) (acks : pkt.tcph.flags.ack) {s u n m : Nat} (lies : Lies x s u n m)
    (after : ¬ SEQLT pkt.tcph.ack x.tcb.sndUna) (before : ¬ SEQLT x.tcb.sndNxt pkt.tcph.ack) :
    (tcpAck env x pkt false).tcb.sndUna = pkt.tcph.ack := by
  obtain ⟨j, isAck, low, high⟩ := within_place x pkt.tcph.ack lies after before
  have sent := within_sent x _ lies isAck low high
  have near := lies.kept.near
  have unacked := lies.kept.unacked
  have written := lies.sent.trans lies.kept.written
  have una : x.tcb.sndUna = place x.tcb.sndIsn u := lies.kept.una
  unfold tcpAck ackPlace
  rw [if_neg (not_not.mpr acks), if_neg (by simp), if_neg (not_not.mpr sent)]
  split
  · exact ostate_una env (setUna x pkt.tcph.ack) .ackrcvd (by decide)
  · rename_i notNew
    have level : x.tcb.sndUna = pkt.tcph.ack := by
      rw [una, isAck, seq_lt_near _ _ _ (by omega) (by omega)] at notNew
      rw [una, isAck, show u = j by omega]
    split
    · exact (ostate_una env (setDupacks x (x.tcb.dupacks + 1)) .dupack (by decide)).trans level
    · exact level

-- The window that opens a connection: it comes with the ack that snd_una is.
theorem opened_aimed (y w' : World) (tcph : Dgram) (kept : ledger w' = ledger y) (nxt : w'.tcb.sndNxt = y.tcb.sndNxt)
    (wndack : w'.tcb.sndWndack = tcph.ack) (wnd : w'.tcb.sndWnd = tcph.window.toNat) (una : y.tcb.sndUna = tcph.ack)
    {s u n m : Nat} (lies : Lies y s u n m) : Aimed w' s u n m u := by
  have near := lies.kept.near
  have unacked := lies.kept.unacked
  have written := lies.sent.trans lies.kept.written
  have bound := tcph.window.isLt
  refine ⟨lies_of_eq y w' kept nxt lies, ?_, le_refl _, by rw [wnd]; omega, by omega⟩
  rw [wndack, ← una, show w'.tcb.sndIsn = y.tcb.sndIsn from congrArg Ledger.isn kept]
  exact lies.kept.una

-- An accepted ack that is for something sent is not beyond snd_nxt, and a window comes with an ack between
-- snd_una and snd_nxt.
def TimelyAck (env : Env) (w : World) (pkt : Pkt) : Prop :=
  (SEQLE pkt.tcph.ack w.tcb.sndMax → ¬ SEQLT w.tcb.sndNxt pkt.tcph.ack)
    ∧ (TakesWindow env w pkt ∨ w.tcb.state = .synrcvd →
      ¬ SEQLT pkt.tcph.ack w.tcb.sndUna ∧ ¬ SEQLT w.tcb.sndNxt pkt.tcph.ack)

section Segment

variable (env : Env) (w : World) (pkt : Pkt)

theorem heard_aims (x : World) (gated : outgoing x = outgoing w) (update : Bool) (sized : Sized w) (rests : Restful w)
    {s u n m : Nat} {a : Int} (aimed : Aimed w s u n m a) (trim : (ledger w).trimmed) (acks : pkt.tcph.flags.ack → Acks env w pkt)
    (updates : update → w.tcb.state = .established ∨ w.tcb.state = .finwait1 ∨ w.tcb.state = .closewait)
    (timely : Acks env w pkt → TimelyAck env w pkt) :
    (∀ c ∈ ackCalls env x (gateSeg env w pkt) update, Meets c)
      ∧ ∃ s' u' n' m' a', Aimed (tcpAck env x (gateSeg env w pkt) update) s' u' n' m' a'
        ∧ (ledger (tcpAck env x (gateSeg env w pkt) update)).trimmed := by
  obtain ⟨flag, number, -⟩ := gate_seg_keeps_ack env w pkt
  have side := side_of_outgoing x w gated.symm
  have una : x.tcb.sndUna = w.tcb.sndUna := outgoing_same (·.tcb.sndUna) w x gated fun _ => rfl
  have nxt : x.tcb.sndNxt = w.tcb.sndNxt := outgoing_same (·.tcb.sndNxt) w x gated fun _ => rfl
  have max : x.tcb.sndMax = w.tcb.sndMax := outgoing_same (·.tcb.sndMax) w x gated fun _ => rfl
  have rests' : Restful x := by
    unfold Restful
    rw [una, outgoing_same (·.tcb.ostate) w x gated fun _ => rfl, outgoing_same (·.tcb.seqWrite) w x gated fun _ => rfl]
    exact rests
  refine ack_aims env x (gateSeg env w pkt) update (sized_of_eq _ _ (sizes_outgoing _ _ gated) sized) rests'
    (aimed_of_side w x side.symm aimed) (trimmed_of_side w x side.symm trim) ?_ ?_
  · intro flagged
    rw [number, max, nxt]
    exact (timely (acks (flag ▸ flagged))).1
  · intro flagged takes fresh
    rw [outgoing_same (fun y => staleWindow y (gateSeg env w pkt).tcph) w x gated fun _ => rfl] at fresh
    rw [number, una, nxt]
    exact (timely (acks (flag ▸ flagged))).2 (Or.inl ⟨updates takes, fresh⟩)

theorem input_calls_meet (sized : Sized w) (rests : Restful w) {s u n m : Nat} {a : Int} (aimed : Aimed w s u n m a)
    (trim : (ledger w).trimmed) (timely : Acks env w pkt → TimelyAck env w pkt) : ∀ c ∈ inputCalls env w pkt, Meets c := by
  have none : ∀ c ∈ ([] : List SegCall), Meets c := by
    rintro c ⟨⟩
  unfold inputCalls
  split
  · rename_i through
    have gated := outgoing_gate env w pkt
    have state := gate_conn_state env w pkt
    have heard := fun x same update hear updates => (heard_aims env w pkt x same update sized rests aimed trim
      (acks_of_hears env w pkt through hear) updates timely).1
    have keeps : ∀ hear, ∀ c ∈ ackCalls env (gateConn env w pkt) (gateSeg env w pkt) false, Meets c := fun hear =>
      heard _ gated false hear fun updates => (Bool.false_ne_true updates).elim
    unfold hears at heard keeps
    unfold stateCalls
    cases here : (gateConn env w pkt).tcb.state <;> rw [here] at heard keeps <;> dsimp only at heard keeps ⊢
    case closed => exact none
    case listen => exact none
    case synsent =>
      split
      · exact none
      · split
        · exact none
        · split
          · exact none
          · exact heard _ ((outgoing_start_rcv _ _).trans gated) false ⟨‹_›, ‹_›, ‹_›⟩ fun updates => (Bool.false_ne_true updates).elim
    case synrcvd =>
      split
      · exact none
      · split
        · exact none
        · exact keeps (by simp_all [resetOrSyn])
    case established =>
      split
      · exact none
      · split
        · exact none
        · exact heard _ gated true (by simp_all [resetOrSyn]) fun _ => Or.inl (state.symm.trans here)
    case finwait1 =>
      split
      · exact none
      · exact heard _ gated true (Bool.eq_false_iff.mpr ‹_›) fun _ => Or.inr (Or.inl (state.symm.trans here))
    case closewait =>
      split
      · exact none
      · exact heard _ gated true (Bool.eq_false_iff.mpr ‹_›) fun _ => Or.inr (Or.inr (state.symm.trans here))
    all_goals
      split
      · exact none
      · exact keeps (Bool.eq_false_iff.mpr ‹_›)
  · exact none

theorem aimed_mss (x x' : World) (mss : Int) (range : 32 ≤ mss ∧ mss ≤ 65535)
    (same : sendSide x' = { sendSide x with ledger := { (sendSide x).ledger with mss := mss } }) {s u n m : Nat} {a : Int}
    (aimed : Aimed x s u n m a) (trim : (ledger x).trimmed) : Aimed x' s u n m a ∧ (ledger x').trimmed := by
  have kept : ledger x' = { ledger x with mss := mss } := congrArg SendSide.ledger same
  have isn : x'.tcb.sndIsn = x.tcb.sndIsn := congrArg Ledger.isn kept
  have nxt : x'.tcb.sndNxt = x.tcb.sndNxt := congrArg SendSide.nxt same
  have sized : Kept (ledger x') s u m := by
    rw [kept]
    exact { aimed.lies.kept with mss := range }
  refine ⟨aimed_of_lies x x' isn (congrArg SendSide.wndack same) (congrArg SendSide.wnd same) aimed
    ⟨sized, ?_, aimed.lies.acked, aimed.lies.sent⟩ aimed.reach, ?_⟩
  · rw [nxt, isn]
    exact aimed.lies.nxt
  · rw [kept]
    exact trim

-- Whatever segment size is found for a connection that opens.
theorem open_mss_aimed (x : World) (seg : Pkt) {s u n m : Nat} {a : Int} (aimed : Aimed x s u n m a) (trim : (ledger x).trimmed) :
    Aimed (openSndMss env x seg) s u n m a ∧ (ledger (openSndMss env x seg)).trimmed
      ∧ (openSndMss env x seg).tcb.state = x.tcb.state := by
  obtain ⟨mss, range, same⟩ := side_open_snd_mss env x seg
  have room := aimed.lies.kept.room
  have sized : 32 ≤ mss ∧ mss ≤ 65535 := by
    obtain unchanged | within := range room.1 room.2
    · rw [unchanged]
      exact aimed.lies.kept.mss
    · exact within
  obtain ⟨aimed', trim'⟩ := aimed_mss x _ mss sized same aimed trim
  exact ⟨aimed', trim', congrArg SendSide.state same⟩

-- A connection whose SYN is answered takes the window only with the ack of its SYN.
theorem synsent_open_guided (y : World) (seg : Pkt) (opened : SEQGT y.tcb.sndUna y.tcb.sndIsn → y.tcb.sndUna = seg.tcph.ack)
    {s u n m : Nat} {a : Int} (aimed : Aimed y s u n m a) (trim : (ledger y).trimmed) :
    Guided (sendAck env (tcpRcvdata env (openSndMss env (synsentOpen y seg) seg) seg)) := by
  have begun : ∃ a', Aimed (synsentOpen y seg) s u n m a' ∧ (ledger (synsentOpen y seg)).trimmed
      ∧ (synsentOpen y seg).tcb.state ≠ .synsent := by
    unfold synsentOpen
    split
    · rename_i new
      have begun := opened_aimed y (setSockState (setWindow (setState y .established) seg.tcph) .isconnected) seg.tcph rfl rfl rfl rfl
        (opened new) aimed.lies
      exact ⟨u, begun, trim, (fun h => by cases h)⟩
    · exact ⟨a, aimed_of_eq y (setState y .synrcvd) rfl rfl rfl rfl aimed, trim, (fun h => by cases h)⟩
  obtain ⟨a', placed, trim', landed⟩ := begun
  obtain ⟨sized, trim'', state⟩ := open_mss_aimed env _ seg placed trim'
  have side := (side_send_ack env _).trans (side_rcvdata env (openSndMss env (synsentOpen y seg) seg) seg)
  refine Or.inr ⟨s, u, n, m, a', aimed_of_side _ _ side sized, trimmed_of_side _ _ side trim'', fun opens => (landed ?_).elim⟩
  rw [← state]
  exact (congrArg SendSide.state side).symm.trans opens

theorem synsent_guided (through : accepted env w pkt) (state : w.tcb.state = .synsent) (sized : Sized w) (rests : Restful w)
    {s n m : Nat} {a : Int} (aimed : Aimed w s 0 n m a) (trim : (ledger w).trimmed) (timely : Acks env w pkt → TimelyAck env w pkt) :
    Guided (tcbsSynsent env (gateConn env w pkt) (gateSeg env w pkt)) := by
  have here : Guided w := Or.inr ⟨s, 0, n, m, a, aimed, trim, fun _ => rfl⟩
  unfold tcbsSynsent
  split
  · exact guided_of_side w _ (by rw [side_deref, side_sndrst, side_gate]) here
  · rename_i proper
    split
    · split
      · exact Or.inl ⟨rfl, rfl, rfl, rfl⟩
      · exact guided_of_side w _ (side_gate env w pkt) here
    · rename_i noReset
      split
      · exact guided_of_side w _ (side_gate env w pkt) here
      · rename_i opens
        have gated := (outgoing_start_rcv (gateConn env w pkt) (gateSeg env w pkt).tcph.seq).trans (outgoing_gate env w pkt)
        have acks := acks_of_hears env w pkt through (by
          rw [hears, (gate_conn_state env w pkt).trans state]
          exact ⟨proper, noReset, opens⟩)
        obtain ⟨-, s', u', n', m', a', heard, trim'⟩ := heard_aims env w pkt _ gated false sized rests aimed trim acks
          (fun updates => (Bool.false_ne_true updates).elim) timely
        have conn := outgoing_gate env w pkt
        have lies := (aimed_of_side w _ (side_of_outgoing _ _ gated) aimed).lies
        refine synsent_open_guided env _ _ (fun new => ?_) heard trim'
        obtain ⟨flag, number, -⟩ := gate_seg_keeps_ack env w pkt
        have una : (startRcv (gateConn env w pkt) (gateSeg env w pkt).tcph.seq).tcb.sndUna = (gateConn env w pkt).tcb.sndIsn :=
          lies.kept.una.trans (place_zero _)
        by_cases flagged : (gateSeg env w pkt).tcph.flags.ack
        · obtain ⟨above, sent⟩ := not_or.mp fun outside => proper ⟨flagged, outside⟩
          refine ack_una env _ _ flagged lies (fun early => above ?_) ?_
          · rw [una] at early
            exact le_of_lt _ _ early
          · have follows := (timely (acks (flag ▸ flagged))).1
            rw [number, outgoing_same (·.tcb.sndMax) _ _ conn fun _ => rfl] at sent
            rw [number, outgoing_same (·.tcb.sndNxt) _ _ gated fun _ => rfl]
            exact follows (not_not.mp sent)
        · rw [tcpAck, if_pos flagged, una] at new
          exact (new (Serial.le_refl _)).elim

-- A connection that waits for the ack of its SYN takes the window with that ack.
theorem opens_guided (y w' : World) (tcph : Dgram) (state : TcbState) (lands : state = .established ∨ state = .closewait)
    (side : sendSide w' = { sendSide y with state := state, wndack := tcph.ack, wnd := tcph.window.toNat })
    (una : y.tcb.sndUna = tcph.ack) {s u n m : Nat} {a : Int} (aimed : Aimed y s u n m a) (trim : (ledger y).trimmed) : Guided w' := by
  have kept : ledger w' = ledger y := congrArg SendSide.ledger side
  have done := opened_aimed y w' tcph kept (congrArg SendSide.nxt side) (congrArg SendSide.wndack side) (congrArg SendSide.wnd side) una
    aimed.lies
  refine Or.inr ⟨s, u, n, m, u, done, by rw [kept]; exact trim, fun opens => ?_⟩
  have here : w'.tcb.state = state := congrArg SendSide.state side
  rw [here] at opens
  rw [opens] at lands
  obtain lands | lands := lands <;> cases lands

theorem settles_half (tcph : Dgram) (y z : SendSide) (settles : Settles tcph y z) (half : y.state = .synrcvd) :
    ∃ state, (state = .established ∨ state = .closewait)
      ∧ z = { y with state := state, wndack := tcph.ack, wnd := tcph.window.toNat } := by
  cases settles with
  | stays open' waits => exact (waits half).elim
  | opens state half lands => exact ⟨state, lands, rfl⟩
  | closes here => rw [half] at here; cases here
  | crosses here => rw [half] at here; cases here
  | halfCloses here => rw [half] at here; cases here
  | deletes here => rw [half] at here; cases here
  | ends why =>
      rw [half] at why
      obtain ⟨here | here, -⟩ | here | here := why <;> cases here

theorem input_guided (duplicate : Bool) (notClosed : w.tcb.state ≠ .closed) (notListen : w.tcb.state ≠ .listen) (sized : Sized w)
    (rests : Restful w) {s u n m : Nat} {a : Int} (aimed : Aimed w s u n m a) (trim : (ledger w).trimmed)
    (opens : w.tcb.state = .synsent → u = 0) (timely : Acks env w pkt → TimelyAck env w pkt)
    (alive : (inputFound env w pkt duplicate).alive) : Guided (inputFound env w pkt duplicate) := by
  have here : Guided w := Or.inr ⟨s, u, n, m, a, aimed, trim, opens⟩
  by_cases asks : w.tcb.state = .synsent
  · cases through : accepted env w pkt with
    | true =>
        obtain rfl := opens asks
        rw [input_found_accepted env w pkt duplicate through, tcbState, gate_conn_state, asks]
        exact synsent_guided env w pkt through asks sized rests aimed trim timely
    | false => exact guided_of_side w _ (refused_side env w pkt duplicate through) here
  · have outcome := input_outcome env w pkt duplicate notClosed notListen
    cases outcome with
    | held side => exact guided_of_side w _ side here
    | ended done => exact guided_ended w _ done
    | gone dead =>
        rw [dead] at alive
        cases alive
    | deleted side =>
        exact guided_landed w _ (congrArg SendSide.ledger side) (congrArg SendSide.nxt side) (congrArg SendSide.wndack side)
          (congrArg SendSide.wnd side) (by rw [show (inputFound env w pkt duplicate).tcb.state = .closed from congrArg SendSide.state side]; decide)
          aimed trim
    | acked update acks updates settled =>
        obtain ⟨-, s', u', n', m', a', heard, trim'⟩ := heard_aims env w pkt (gateConn env w pkt) (outgoing_gate env w pkt) update sized
          rests aimed trim acks updates timely
        have state : (tcpAck env (gateConn env w pkt) (gateSeg env w pkt) update).tcb.state = w.tcb.state :=
          (ack_state env _ _ update).trans (gate_conn_state env w pkt)
        by_cases half : w.tcb.state = .synrcvd
        · have opened := input_opened_iff env w pkt duplicate half
          obtain ⟨flag, number, window⟩ := gate_seg_keeps_ack env w pkt
          obtain ⟨landed, lands, side⟩ := settles_half pkt.tcph _ _ settled (state.trans half)
          have flagged : pkt.tcph.flags.ack := by
            have there : (inputFound env w pkt duplicate).tcb.state = landed := congrArg SendSide.state side
            refine (opened.mp ?_).2.2
            unfold Opened
            rw [there]
            exact lands
          have gated := outgoing_gate env w pkt
          have lies := (aimed_of_side w _ (side_gate env w pkt) aimed).lies
          obtain ⟨after, before⟩ := (timely (acks flagged)).2 (Or.inr half)
          refine opens_guided _ _ pkt.tcph landed lands side ?_ heard trim'
          have noUpdate : update = false := by
            cases update with
            | false => rfl
            | true =>
                have takes := updates rfl
                rw [half] at takes
                obtain takes | takes | takes := takes <;> cases takes
          rw [noUpdate, ← number]
          refine ack_una env _ _ (flag.symm ▸ flagged) lies ?_ ?_
          · rw [number, outgoing_same (·.tcb.sndUna) _ _ gated fun _ => rfl]
            exact after
          · rw [number, outgoing_same (·.tcb.sndNxt) _ _ gated fun _ => rfl]
            exact before
        · exact settles_guided pkt.tcph _ _ settled (by rw [state]; exact half) (by rw [state]; exact asks) heard trim'
    | joined y state wndack wnd mss opening => exact (asks opening).elim

end Segment

end MagxNet.Tcp
