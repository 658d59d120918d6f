import MagxNet.Tcp.WindowUpdate

set_option autoImplicit false

namespace MagxNet.Tcp

structure WindowView where
  una : Seq
  nxt : Seq
  wnd : Int
  wndseq : Seq
  wndack : Seq
  wndmax : Int
  queue : Dataq
  ostate : OutState
deriving DecidableEq

def windowView (w : World) : WindowView :=
  ⟨w.tcb.sndUna, w.tcb.sndNxt, w.tcb.sndWnd, w.tcb.sndWndseq, w.tcb.sndWndack, w.tcb.sndWndmax, w.data.snd, w.tcb.ostate⟩

-- The send side is as it was, and nothing from the send queue went out.
structure Undisturbed (w w' : World) : Prop where
  side : windowView w' = windowView w
  sent : w'.net.sent.filter ofSndseg = w.net.sent.filter ofSndseg

theorem undisturbed_outgoing (w w' : World) (same : outgoing w' = outgoing w) : Undisturbed w w' :=
  ⟨outgoing_same windowView w w' same fun _ => rfl, congrArg (fun y : World => y.net.sent) same⟩

theorem undisturbed_trans (w x w' : World) (first : Undisturbed w x) (second : Undisturbed x w') : Undisturbed w w' :=
  ⟨second.side.trans first.side, second.sent.trans first.sent⟩

theorem undisturbed_symm (w w' : World) (same : Undisturbed w w') : Undisturbed w' w := ⟨same.side.symm, same.sent.symm⟩

-- The update of the window takes the segment.
def Takes (w : World) (tcph : Dgram) (update : Bool) : Prop := tcph.flags.ack ∧ update ∧ ¬ staleWindow w tcph

-- The segment says of the window what is recorded already.
def Repeats (w : World) (tcph : Dgram) : Prop :=
  tcph.seq = w.tcb.sndWndseq ∧ tcph.ack = w.tcb.sndWndack ∧ (tcph.window.toNat : Int) = w.tcb.sndWnd
    ∧ w.tcb.sndWnd ≤ w.tcb.sndWndmax

-- The first segment that is not sent yet.
def unsent (w : World) : Option Buf := (w.data.snd.q.dropWhile (alreadySent w)).head?

-- tcp_sndhead has something to send: the first unsent segment, and what goes out of it lies inside the window, or counts as
-- sent for want of anything outstanding.
def Sends (w : World) : Prop :=
  SEQLT w.tcb.sndNxt w.tcb.seqWrite ∧ ∃ last ∈ w.data.snd.q.getLast?, ∃ b ∈ unsent w, sendable w b (sndheadEdge w last) = true
    ∧ (w.tcb.sndUna = w.tcb.sndNxt ∨ ∃ tcph finCut, sndsegCut b w.tcb.sndNxt (sndheadEdge w last) = .piece tcph finCut)

-- Being told of the window again changes nothing on the output side.
def Quiet (w : World) : Prop :=
  match w.tcb.ostate with
  | .idle => True
  | .retrans => 0 < w.tcb.sndWnd
  | .persist => 0 < w.tcb.sndWnd → ¬ Sends w ∧ canretrans w = false
  | .xmit => 0 < w.tcb.sndWnd ∧ ¬ Sends w ∧ canretrans w = true

theorem canretrans_side (w w' : World) (same : windowView w' = windowView w) : canretrans w' = canretrans w := by
  have una := congrArg WindowView.una same
  have nxt := congrArg WindowView.nxt same
  have wnd := congrArg WindowView.wnd same
  have queue := congrArg (fun side => side.queue.q) same
  simp only [windowView] at una nxt wnd queue
  unfold canretrans
  rw [una, nxt, wnd, queue]

section Head

variable (env : Env) (w : World)

-- Whatever is refused leaves the queue and its places alone as long as something is outstanding.
theorem sndseg_refused (b : Buf) (rest : List Buf) (wnd1st wndnxt : Seq)
    (away : ∀ tcph finCut, sndsegCut b wnd1st wndnxt ≠ .piece tcph finCut) :
    (tcpSndseg env w b rest 0 wnd1st wndnxt).1 < 0 ∧ Undisturbed w (tcpSndseg env w b rest 0 wnd1st wndnxt).2 := by
  unfold tcpSndseg bufAlloc
  cases env.memory w.net.allocs with
  | false => exact ⟨show ENOMEM < 0 by decide, rfl, rfl⟩
  | true =>
      cases cut : sndsegCut b wnd1st wndnxt with
      | outside => exact ⟨show (-1 : Int) < 0 by decide, rfl, rfl⟩
      | overrun => exact ⟨show (-1 : Int) < 0 by decide, rfl, rfl⟩
      | piece tcph finCut => exact (away tcph finCut cut).elim

theorem undisturbed_failed (r : Int) : Undisturbed w (sndFailed w r) := by
  unfold sndFailed
  split <;> exact ⟨rfl, rfl⟩

theorem undisturbed_queue (x : World) (same : Undisturbed w x) : Undisturbed w (setSndq x w.data.snd.q) := by
  have queue := congrArg (fun side => side.queue.q) same.side
  have whole : setSndq x w.data.snd.q = x := by
    unfold setSndq
    rw [← show x.data.snd.q = w.data.snd.q from queue]
  rw [whole]
  exact same

theorem sndhead_still (not : ¬ Sends w) : Undisturbed w (sndheadPending env w) := by
  unfold sndheadPending
  split
  · rename_i pending
    unfold tcpSndhead
    split
    · exact ⟨rfl, rfl⟩
    · split
      · split <;> exact ⟨rfl, rfl⟩
      · rename_i last atLast
        have parts : w.data.snd.q.takeWhile (alreadySent w) ++ w.data.snd.q.dropWhile (alreadySent w) = w.data.snd.q :=
          List.takeWhile_append_dropWhile
        have found : ∀ b ∈ unsent w, sendable w b (sndheadEdge w last) = true → w.tcb.sndUna ≠ w.tcb.sndNxt
            ∧ ∀ tcph finCut, sndsegCut b w.tcb.sndNxt (sndheadEdge w last) ≠ .piece tcph finCut := by
          intro b here sends
          refine ⟨fun same => not ⟨pending, last, atLast, b, here, sends, Or.inl same⟩, fun tcph finCut cut => ?_⟩
          exact not ⟨pending, last, atLast, b, here, sends, Or.inr ⟨tcph, finCut, cut⟩⟩
        unfold sndheadLoop
        unfold unsent at found
        generalize w.data.snd.q.takeWhile (alreadySent w) = skipped at parts
        generalize w.data.snd.q.dropWhile (alreadySent w) = bufs at parts found
        have still : ∀ x rttseq, Undisturbed w x → Undisturbed w (sndheadDone skipped ⟨0, rttseq, bufs, false, x⟩) := by
          intro x rttseq same
          have done : sndheadDone skipped ⟨0, rttseq, bufs, false, x⟩ = setSndq x (skipped ++ bufs) := by
            unfold sndheadDone
            simp
          rw [done, parts]
          exact undisturbed_queue w x same
        cases bufs with
        | nil => exact still w 0 ⟨rfl, rfl⟩
        | cons b rest =>
            rw [sndLoop]
            split
            · rename_i sends
              obtain ⟨outstanding, away⟩ := found b rfl sends
              obtain ⟨refused, same⟩ := sndseg_refused env w b rest _ _ away
              generalize tcpSndseg env w b rest 0 w.tcb.sndNxt (sndheadEdge w last) = got at refused same ⊢
              obtain ⟨r, w1⟩ := got
              dsimp only at refused same ⊢
              rw [if_pos refused, if_neg outstanding]
              exact still _ 0 (undisturbed_trans _ _ _ same (undisturbed_failed w1 r))
            · exact still w 0 ⟨rfl, rfl⟩
  · exact ⟨rfl, rfl⟩

end Head

-- Something was sent, or counts as sent.
def Moved (w w' : World) : Prop :=
  w'.tcb.sndNxt ≠ w.tcb.sndNxt ∨ w'.net.sent.filter ofSndseg ≠ w.net.sent.filter ofSndseg

-- There is memory, and the network refuses every datagram.
def refusing : Env := ⟨fun _ => true, fun _ => -7, fun _ _ _ => 0, fun _ => false, fun _ => none, 1⟩

section Refused

variable (w : World) (b : Buf) (rest : List Buf)

theorem sent_of_send (x : World) (tcph : Dgram) :
    ((sndsegSend refusing x b rest tcph).2.net.sent.filter ofSndseg).length = (x.net.sent.filter ofSndseg).length + 1 := by
  have net : (clearDelack (tcpRcvwnd x true).2).net = x.net := by
    unfold tcpRcvwnd
    split <;> rfl
  unfold sndsegSend ipSend
  dsimp only
  rw [net, List.filter_append, List.length_append]
  rfl

theorem net_extend_max (x : World) (n : Nat) : (extendMax x rest n).net = x.net := by
  unfold extendMax
  split
  · rfl
  · dsimp only
    split <;> rfl

theorem sndseg_piece (wnd1st wndnxt : Seq) (tcph : Dgram) (finCut : Bool) (cut : sndsegCut b wnd1st wndnxt = .piece tcph finCut) :
    (tcpSndseg refusing w b rest 0 wnd1st wndnxt).1 = -7
      ∧ ((tcpSndseg refusing w b rest 0 wnd1st wndnxt).2.net.sent.filter ofSndseg).length =
        (w.net.sent.filter ofSndseg).length + 1 := by
  have taken : bufAlloc refusing w = (some w.net.allocs, { w with net.allocs := w.net.allocs + 1 }) := rfl
  unfold tcpSndseg
  rw [taken, cut]
  dsimp only
  exact ⟨rfl, (sent_of_send b rest _ _).trans (by rw [net_extend_max])⟩

theorem sndseg_refuses (wnd1st wndnxt : Seq) : (tcpSndseg refusing w b rest 0 wnd1st wndnxt).1 < 0 := by
  by_cases piece : ∃ tcph finCut, sndsegCut b wnd1st wndnxt = .piece tcph finCut
  · obtain ⟨tcph, finCut, cut⟩ := piece
    rw [(sndseg_piece w b rest wnd1st wndnxt tcph finCut cut).1]
    decide
  · exact (sndseg_refused refusing w b rest wnd1st wndnxt fun tcph finCut cut => piece ⟨tcph, finCut, cut⟩).1

end Refused

theorem snd_failed_net (w : World) (r : Int) : (sndFailed w r).net = w.net := by
  unfold sndFailed
  split <;> rfl

theorem give_up_nxt (w : World) (r : Int) (nxt : Seq) : (sndGiveUp w r nxt).tcb.sndNxt = nxt := by
  unfold sndGiveUp sndAdvance raiseMax
  split <;> rfl

theorem sndhead_moves (w : World) (sends : Sends w) : Moved w (sndheadPending refusing w) := by
  obtain ⟨pending, last, atLast, b, here, fits, either⟩ := sends
  have ahead : ¬ SEQGE w.tcb.sndNxt w.tcb.seqWrite := not_not.mpr pending
  have queued : w.data.snd.q.getLast? = some last := atLast
  unfold sndheadPending
  rw [if_pos pending]
  unfold tcpSndhead
  rw [if_neg ahead, queued]
  dsimp only
  unfold Moved
  rw [(sndhead_done_keeps _ _).1, (sndhead_done_keeps _ _).2]
  unfold sndheadLoop
  unfold unsent at here
  have notSent : ∀ c ∈ (w.data.snd.q.dropWhile (alreadySent w)).head?, alreadySent w c = false := by
    intro c first
    have kept := List.head?_dropWhile_not (alreadySent w) w.data.snd.q
    rw [show (List.dropWhile (alreadySent w) w.data.snd.q).head? = some c from first] at kept
    simpa using kept
  generalize w.data.snd.q.dropWhile (alreadySent w) = bufs at here notSent
  cases bufs with
  | nil => cases here
  | cons c rest =>
      cases here
      have further : seqEnd b ≠ w.tcb.sndNxt := by
        intro same
        have later := notSent b rfl
        unfold alreadySent at later
        rw [same] at later
        revert later
        simp [SEQGE, SEQLT, Serial.lt]
      have refused := sndseg_refuses w b rest w.tcb.sndNxt (sndheadEdge w last)
      have emitted := sndseg_piece w b rest w.tcb.sndNxt (sndheadEdge w last)
      rw [sndLoop, if_pos fits]
      generalize tcpSndseg refusing w b rest 0 w.tcb.sndNxt (sndheadEdge w last) = got at refused emitted
      obtain ⟨r, w1⟩ := got
      dsimp only at refused emitted ⊢
      rw [if_pos refused]
      by_cases idle : w.tcb.sndUna = w.tcb.sndNxt
      · rw [if_pos idle]
        refine Or.inl ?_
        rw [give_up_nxt]
        exact further
      · rw [if_neg idle, snd_failed_net]
        obtain ⟨tcph, finCut, cut⟩ := either.resolve_left idle
        have more := (emitted tcph finCut cut).2
        exact Or.inr fun same => by
          rw [same] at more
          omega

theorem moved_disturbs (w x w' : World) (moved : Moved w x) (nxt : w'.tcb.sndNxt = x.tcb.sndNxt) (net : w'.net = x.net) :
    ¬ Undisturbed w w' := by
  intro same
  obtain away | sent := moved
  · exact away (nxt.symm.trans (congrArg WindowView.nxt same.side))
  · exact sent (by rw [← net]; exact same.sent)

theorem shut_canretrans (w : World) (shut : ¬ 0 < w.tcb.sndWnd) : canretrans w = false := by
  unfold canretrans
  split
  · exact decide_eq_false fun both => shut both.1
  · rfl

-- What the output side is told of a window that has not changed.
def sameWindow (w : World) : OutEvent := if 0 < w.tcb.sndWnd then .wndopen else .wndclose

theorem quiet_still (env : Env) (w : World) (quiet : Quiet w) : Undisturbed w (tcbOstate env w (sameWindow w)) := by
  have held : Undisturbed w w := ⟨rfl, rfl⟩
  unfold sameWindow tcbOstate
  unfold Quiet at quiet
  cases state : w.tcb.ostate with
  | idle =>
      dsimp only
      split <;> exact held
  | retrans =>
      rw [state] at quiet
      rw [if_pos quiet]
      exact held
  | persist =>
      rw [state] at quiet
      by_cases opened : 0 < w.tcb.sndWnd
      · obtain ⟨nothing, waits⟩ := quiet opened
        have still := sndhead_still env w nothing
        have same := canretrans_side w (sndheadPending env w) still.side
        rw [if_pos opened]
        change Undisturbed w (persistOpened (sndheadPending env w))
        unfold persistOpened
        rw [same, waits]
        exact ⟨still.side, still.sent⟩
      · rw [if_neg opened]
        exact held
  | xmit =>
      rw [state] at quiet
      obtain ⟨opened, nothing, waits⟩ := quiet
      have still := sndhead_still env w nothing
      have same := canretrans_side w (sndheadPending env w) still.side
      rw [if_pos opened]
      change Undisturbed w (xmitWndclose (sndheadPending env w))
      unfold xmitWndclose
      rw [if_pos (same.trans waits)]
      exact still

theorem still_quiet (w : World) (still : Undisturbed w (tcbOstate refusing w (sameWindow w))) : Quiet w := by
  have kept := congrArg WindowView.ostate still.side
  unfold sameWindow tcbOstate at still kept
  unfold Quiet
  cases state : w.tcb.ostate with
  | idle => trivial
  | retrans =>
      rw [state] at still kept
      by_contra shut
      rw [if_neg shut] at kept
      change (if canretrans w then w else toPersist w).tcb.ostate = w.tcb.ostate at kept
      rw [if_neg (Bool.eq_false_iff.mp (shut_canretrans w shut)), state] at kept
      cases kept
  | persist =>
      intro opened
      rw [state, if_pos opened] at still kept
      change Undisturbed w (persistOpened (sndheadPending refusing w)) at still
      change (persistOpened (sndheadPending refusing w)).tcb.ostate = w.tcb.ostate at kept
      have nothing : ¬ Sends w := by
        intro sends
        refine moved_disturbs w _ _ (sndhead_moves w sends) ?_ ?_ still
        · unfold persistOpened
          split <;> rfl
        · unfold persistOpened
          split <;> rfl
      refine ⟨nothing, ?_⟩
      have same := canretrans_side w (sndheadPending refusing w) (sndhead_still refusing w nothing).side
      by_contra waits
      unfold persistOpened at kept
      rw [if_pos (same.trans (Bool.not_eq_false _ ▸ waits)), state] at kept
      cases kept
  | xmit =>
      rw [state] at still kept
      by_cases opened : 0 < w.tcb.sndWnd
      · rw [if_pos opened] at still kept
        change Undisturbed w (xmitWndclose (sndheadPending refusing w)) at still
        change (xmitWndclose (sndheadPending refusing w)).tcb.ostate = w.tcb.ostate at kept
        have nothing : ¬ Sends w := by
          intro sends
          refine moved_disturbs w _ _ (sndhead_moves w sends) ?_ ?_ still
          · unfold xmitWndclose
            split <;> rfl
          · unfold xmitWndclose
            split <;> rfl
        refine ⟨opened, nothing, ?_⟩
        have same := canretrans_side w (sndheadPending refusing w) (sndhead_still refusing w nothing).side
        by_contra waits
        unfold xmitWndclose at kept
        rw [if_neg (by rw [same]; exact waits), state] at kept
        cases kept
      · rw [if_neg opened] at kept
        change (xmitWndclose w).tcb.ostate = w.tcb.ostate at kept
        unfold xmitWndclose at kept
        rw [if_neg (Bool.eq_false_iff.mp (shut_canretrans w opened)), state] at kept
        cases kept

section Wndmax

variable (env : Env)

theorem wndmax_sndseg (w : World) (b : Buf) (rest : List Buf) (nretrans : Int) (wnd1st wndnxt : Seq) :
    (tcpSndseg env w b rest nretrans wnd1st wndnxt).2.tcb.sndWndmax = w.tcb.sndWndmax := by
  have sent : ∀ (x : World) (tcph : Dgram), (sndsegSend env x b rest tcph).2.tcb.sndWndmax = x.tcb.sndWndmax := by
    intro x tcph
    unfold sndsegSend ipSend tcpRcvwnd
    dsimp only
    split <;> rfl
  have raised : ∀ (x : World) (n : Nat), (extendMax x rest n).tcb.sndWndmax = x.tcb.sndWndmax := by
    intro x n
    unfold extendMax
    split
    · rfl
    · dsimp only
      split <;> rfl
  unfold tcpSndseg bufAlloc
  cases env.memory w.net.allocs with
  | false => rfl
  | true =>
      cases sndsegCut b wnd1st wndnxt with
      | outside => rfl
      | overrun => rfl
      | piece tcph finCut => exact (sent _ _).trans (raised _ _)

theorem wndmax_failed (w : World) (r : Int) : (sndFailed w r).tcb.sndWndmax = w.tcb.sndWndmax := by
  unfold sndFailed
  split <;> rfl

theorem wndmax_advance (w : World) (nxt : Seq) : (sndAdvance w nxt).tcb.sndWndmax = w.tcb.sndWndmax := by
  unfold sndAdvance raiseMax
  split <;> rfl

theorem wndmax_snd_loop (wndnxt : Seq) (bufs : List Buf) (sent : Nat) (rttseq : Seq) (w : World) :
    (sndLoop env wndnxt bufs sent rttseq w).world.tcb.sndWndmax = w.tcb.sndWndmax := by
  induction bufs generalizing sent rttseq w with
  | nil => rfl
  | cons b rest ih =>
      rw [sndLoop]
      split
      · have kept := wndmax_sndseg env w b rest 0 w.tcb.sndNxt wndnxt
        generalize tcpSndseg env w b rest 0 w.tcb.sndNxt wndnxt = got at kept
        obtain ⟨r, w1⟩ := got
        dsimp only at kept ⊢
        split
        · split
          · exact (wndmax_advance _ _).trans ((wndmax_failed w1 r).trans kept)
          · exact (wndmax_failed w1 r).trans kept
        · exact (ih _ _ _).trans ((wndmax_advance _ _).trans kept)
      · rfl

theorem wndmax_sndhead_pending (w : World) : (sndheadPending env w).tcb.sndWndmax = w.tcb.sndWndmax := by
  unfold sndheadPending
  split
  · unfold tcpSndhead
    split
    · rfl
    · split
      · split <;> rfl
      · rename_i last atLast
        have looped : (sndheadLoop env w last).world.tcb.sndWndmax = w.tcb.sndWndmax := wndmax_snd_loop env _ _ 0 0 w
        unfold sndheadDone
        dsimp only
        split <;> exact looped
  · rfl

theorem wndmax_window_event (w old : World) (tcph : Dgram) :
    (tcbOstate env w (windowEvent old tcph)).tcb.sndWndmax = w.tcb.sndWndmax := by
  have head := wndmax_sndhead_pending env w
  have close : ∀ x : World, (xmitWndclose x).tcb.sndWndmax = x.tcb.sndWndmax := by
    intro x
    unfold xmitWndclose
    split <;> rfl
  have opened : ∀ x : World, (persistOpened x).tcb.sndWndmax = x.tcb.sndWndmax := by
    intro x
    unfold persistOpened
    split <;> rfl
  unfold windowEvent tcbOstate
  cases w.tcb.ostate with
  | idle =>
      dsimp only
      split <;> rfl
  | retrans =>
      dsimp only
      split
      · rfl
      · unfold tcbosRetrans
        dsimp only
        split <;> rfl
  | persist =>
      dsimp only
      split
      · exact (opened _).trans head
      · rfl
  | xmit =>
      dsimp only
      split
      · exact (close _).trans head
      · exact close w

end Wndmax

-- What an ack for data that was not sent should do: nothing to the send side, so that no later window update that would have
-- been taken is refused.
structure Harmless (w : World) (pkt : Pkt) (update : Bool) : Prop where
  undisturbed : ∀ env, Undisturbed w (tcpAck env w pkt update)
  later : ∀ env tcph, ¬ staleWindow w tcph → ¬ staleWindow (tcpAck env w pkt update) tcph

theorem harmless_of_undisturbed (w : World) (pkt : Pkt) (update : Bool) (same : ∀ env, Undisturbed w (tcpAck env w pkt update)) :
    Harmless w pkt update := by
  refine ⟨same, fun env tcph fresh stale => fresh ?_⟩
  have seq := congrArg WindowView.wndseq (same env).side
  have ack := congrArg WindowView.wndack (same env).side
  simp only [windowView] at seq ack
  unfold staleWindow at stale ⊢
  rw [seq, ack] at stale
  exact stale

section Beyond

variable (w : World) (pkt : Pkt) (beyond : SEQGT pkt.tcph.ack w.tcb.sndMax)

include beyond

-- Nothing but an acknowledgement or a reset goes out.
theorem outgoing_beyond (env : Env) (osndWnd : Int) : outgoing (ackPlace env w pkt osndWnd) = outgoing w := by
  unfold ackPlace
  rw [if_pos beyond]
  split
  · exact outgoing_sndrst env w pkt
  · exact outgoing_sndack env w pkt

end Beyond

theorem repeated_edge (w : World) (tcph : Dgram) (repeats : Repeats w tcph) : wlast tcph = owlast w := by
  obtain ⟨-, ack, window, -⟩ := repeats
  unfold wlast owlast
  rw [ack, ← window, BitVec.ofInt_natCast, BitVec.ofNat_toNat]

theorem sndwnd_repeated (w : World) (tcph : Dgram) (repeats : Repeats w tcph) : tcpSndwnd w tcph = w := by
  have edge := repeated_edge w tcph repeats
  obtain ⟨seq, ack, window, small⟩ := repeats
  have kept : shrunkNxt w tcph = w.tcb.sndNxt := by
    unfold shrunkNxt
    rw [edge]
    exact if_neg fun both => absurd both.1 (by simp [SEQLT, Serial.lt])
  have set : setWindow (setSndNxt w (shrunkNxt w tcph)) tcph = w := by
    unfold setWindow setSndNxt
    rw [kept, seq, ack, window]
  unfold tcpSndwnd
  rw [set]
  exact if_neg (not_lt.mpr small)

theorem repeated_event (w : World) (tcph : Dgram) (repeats : Repeats w tcph) : windowEvent w tcph = sameWindow w := by
  have edge := repeated_edge w tcph repeats
  have reach : SEQLE (owlast w) (owlast w) := by simp [SEQLE, Serial.le]
  have opens : tcph.window.toNat > 0 ↔ 0 < w.tcb.sndWnd := by
    rw [← repeats.2.2.1]
    exact Int.natCast_pos.symm
  unfold windowEvent sameWindow
  simp only [edge, reach, opens, true_and]

theorem same_window_outgoing (w x : World) (same : outgoing x = outgoing w) : sameWindow x = sameWindow w :=
  outgoing_same sameWindow w x same fun _ => rfl

theorem quiet_outgoing (w x : World) (same : outgoing x = outgoing w) : Quiet x = Quiet w :=
  outgoing_same Quiet w x same fun _ => rfl

-- The window that a segment leaves behind when the update takes it.
theorem sndwnd_recorded (w : World) (tcph : Dgram) :
    (tcpSndwnd w tcph).tcb.sndWndseq = tcph.seq ∧ (tcpSndwnd w tcph).tcb.sndWndack = tcph.ack
      ∧ (tcpSndwnd w tcph).tcb.sndWnd = tcph.window.toNat
      ∧ (tcpSndwnd w tcph).tcb.sndWndmax = max w.tcb.sndWndmax tcph.window.toNat
      ∧ (tcpSndwnd w tcph).tcb.sndMax = w.tcb.sndMax := by
  unfold tcpSndwnd noteWndmax
  split
  · rename_i larger
    exact ⟨rfl, rfl, rfl, (max_eq_right (le_of_lt larger)).symm, rfl⟩
  · rename_i small
    exact ⟨rfl, rfl, rfl, (max_eq_left (not_lt.mp small)).symm, rfl⟩

section Taken

variable (env : Env) (w : World) (pkt : Pkt) (beyond : SEQGT pkt.tcph.ack w.tcb.sndMax)

include beyond

theorem outgoing_taken (osndWnd : Int) :
    outgoing (ackPlace env (tcpSndwnd w pkt.tcph) pkt osndWnd) = outgoing (tcpSndwnd w pkt.tcph) := by
  refine outgoing_beyond _ pkt ?_ env osndWnd
  rw [(sndwnd_recorded w pkt.tcph).2.2.2.2]
  exact beyond

theorem taken_recorded :
    (ackUpdating env w pkt).tcb.sndWndseq = pkt.tcph.seq ∧ (ackUpdating env w pkt).tcb.sndWndack = pkt.tcph.ack
      ∧ (ackUpdating env w pkt).tcb.sndWnd = pkt.tcph.window.toNat := by
  have told := steady_window_event env (ackPlace env (tcpSndwnd w pkt.tcph) pkt w.tcb.sndWnd) w pkt.tcph
  have placed := outgoing_taken env w pkt beyond w.tcb.sndWnd
  obtain ⟨seq, ack, window, -⟩ := sndwnd_recorded w pkt.tcph
  refine ⟨?_, ?_, ?_⟩
  · exact (steady_same (fun x => x.tcb.sndWndseq) _ _ told fun _ => rfl).trans
      ((outgoing_same (fun x => x.tcb.sndWndseq) _ _ placed fun _ => rfl).trans seq)
  · exact (steady_same (fun x => x.tcb.sndWndack) _ _ told fun _ => rfl).trans
      ((outgoing_same (fun x => x.tcb.sndWndack) _ _ placed fun _ => rfl).trans ack)
  · exact (steady_same (fun x => x.tcb.sndWnd) _ _ told fun _ => rfl).trans
      ((outgoing_same (fun x => x.tcb.sndWnd) _ _ placed fun _ => rfl).trans window)

-- A segment that repeats what is recorded only makes the output side hear of the window again.
theorem repeated_updating (repeats : Repeats w pkt.tcph) : ∃ x, outgoing x = outgoing w
    ∧ ackUpdating env w pkt = tcbOstate env x (sameWindow x) := by
  have placed := outgoing_taken env w pkt beyond w.tcb.sndWnd
  refine ⟨ackPlace env (tcpSndwnd w pkt.tcph) pkt w.tcb.sndWnd, ?_, ?_⟩
  · rw [placed, sndwnd_repeated w pkt.tcph repeats]
  · rw [same_window_outgoing _ _ placed, sndwnd_repeated w pkt.tcph repeats]
    unfold ackUpdating
    rw [sndwnd_repeated w pkt.tcph repeats, repeated_event w pkt.tcph repeats]

theorem undisturbed_repeats (same : Undisturbed w (ackUpdating env w pkt)) : Repeats w pkt.tcph := by
  obtain ⟨seq, ack, window⟩ := taken_recorded env w pkt beyond
  have seqKept : pkt.tcph.seq = w.tcb.sndWndseq := seq.symm.trans (congrArg WindowView.wndseq same.side)
  have ackKept : pkt.tcph.ack = w.tcb.sndWndack := ack.symm.trans (congrArg WindowView.wndack same.side)
  have windowKept : (pkt.tcph.window.toNat : Int) = w.tcb.sndWnd := window.symm.trans (congrArg WindowView.wnd same.side)
  have largest := congrArg WindowView.wndmax same.side
  have placed := outgoing_taken env w pkt beyond w.tcb.sndWnd
  have kept : (ackUpdating env w pkt).tcb.sndWndmax = max w.tcb.sndWndmax pkt.tcph.window.toNat :=
    (wndmax_window_event env _ w pkt.tcph).trans ((outgoing_same (fun x => x.tcb.sndWndmax) _ _ placed fun _ => rfl).trans
      (sndwnd_recorded w pkt.tcph).2.2.2.1)
  have least : max w.tcb.sndWndmax (pkt.tcph.window.toNat : Int) = w.tcb.sndWndmax := kept.symm.trans largest
  refine ⟨seqKept, ackKept, windowKept, ?_⟩
  rw [← windowKept, ← least]
  exact le_max_right _ _

end Taken

-- An ack for data that was not sent is harmless exactly when the update of the window does not take its segment, or takes
-- nothing new from it and the output side has nothing to do about that.
theorem ack_beyond_iff (w : World) (pkt : Pkt) (update : Bool) (beyond : SEQGT pkt.tcph.ack w.tcb.sndMax) :
    Harmless w pkt update ↔ (Takes w pkt.tcph update → Repeats w pkt.tcph ∧ Quiet w) := by
  by_cases takes : Takes w pkt.tcph update
  · obtain ⟨acks, updates, fresh⟩ := takes
    have updating : ∀ env, tcpAck env w pkt update = ackUpdating env w pkt := by
      intro env
      unfold tcpAck
      rw [if_neg (not_not.mpr acks), if_pos ⟨updates, fresh⟩]
    constructor
    · rintro ⟨same, -⟩ -
      have here := same refusing
      rw [updating] at here
      have repeats := undisturbed_repeats refusing w pkt beyond here
      obtain ⟨x, placed, told⟩ := repeated_updating refusing w pkt beyond repeats
      rw [told] at here
      have quiet := still_quiet x (undisturbed_trans _ _ _ (undisturbed_symm _ _ (undisturbed_outgoing w x placed)) here)
      rw [quiet_outgoing w x placed] at quiet
      exact ⟨repeats, quiet⟩
    · intro allowed
      obtain ⟨repeats, quiet⟩ := allowed ⟨acks, updates, fresh⟩
      refine harmless_of_undisturbed w pkt update fun env => ?_
      obtain ⟨x, placed, told⟩ := repeated_updating env w pkt beyond repeats
      rw [updating, told]
      rw [← quiet_outgoing w x placed] at quiet
      exact undisturbed_trans _ _ _ (undisturbed_outgoing w x placed) (quiet_still env x quiet)
  · refine ⟨fun _ taken => (takes taken).elim, fun _ => harmless_of_undisturbed w pkt update fun env => ?_⟩
    unfold tcpAck
    split
    · exact ⟨rfl, rfl⟩
    · rename_i acks
      rw [if_neg fun both => takes ⟨not_not.mp acks, both.1, both.2⟩]
      exact undisturbed_outgoing _ _ (outgoing_beyond w pkt beyond env _)

-- An ack for a thousand bytes too many, from a segment with the number of the last one.
def ackAhead : Pkt := peerSeg 5001 2001 TCPF_ACK 400 0 []

-- It is harmless where the window is not to be updated, as in LAST-ACK.
theorem ack_beyond_iff_kept : Harmless (openConn 100) ackAhead false :=
  (ack_beyond_iff (openConn 100) ackAhead false (by decide +kernel)).mpr fun takes => by cases takes.2.1

-- It is taken for the window, and the window update of a genuine ack that follows is refused.
theorem ack_beyond_taken : SEQGT ackAhead.tcph.ack (openConn 100).tcb.sndMax ∧ ¬ Harmless (openConn 100) ackAhead true
    ∧ ¬ staleWindow (openConn 100) (peerSeg 5001 1001 TCPF_ACK 4000 0 []).tcph
    ∧ staleWindow (tcpAck plainEnv (openConn 100) ackAhead true) (peerSeg 5001 1001 TCPF_ACK 4000 0 []).tcph := by
  refine ⟨by decide +kernel, fun harmless => ?_, by decide +kernel, by decide +kernel⟩
  have kept := harmless.later plainEnv (peerSeg 5001 1001 TCPF_ACK 4000 0 []).tcph (by decide +kernel)
  exact kept (by decide +kernel)

end MagxNet.Tcp
