import MagxNet.Tcp.SendOrder
import MagxNet.Tcp.Heard

set_option autoImplicit false

namespace MagxNet.Tcp

open Bytes Serial

-- snd_una <= snd_nxt <= snd_max <= seq_write, all within half of the sequence space.
def Ordered (w : World) : Prop :=
  ∃ una nxt max write : Nat, una ≤ nxt ∧ nxt ≤ max ∧ max ≤ write ∧ write < una + 2 ^ 31
    ∧ w.tcb.sndUna = place w.tcb.sndIsn una ∧ w.tcb.sndNxt = place w.tcb.sndIsn nxt
    ∧ w.tcb.sndMax = place w.tcb.sndIsn max ∧ w.tcb.seqWrite = place w.tcb.sndIsn write

theorem lies_ordered (w : World) {s u n m : Nat} (lies : Lies w s u n m) : Ordered w := by
  have kept := lies.kept
  have near := kept.near
  have unacked := kept.unacked
  exact ⟨u, n, m, (ledger w).stream.length, lies.acked, lies.sent, kept.written, by omega, kept.una, lies.nxt, kept.max,
    kept.write⟩

theorem ordered_of_places (w w' : World) (same : sendPlaces w' = sendPlaces w) (ordered : Ordered w) : Ordered w' := by
  obtain ⟨isn, una, nxt, max, write, -⟩ : _ ∧ _ ∧ _ ∧ _ ∧ _ ∧ _ := by simpa [sendPlaces] using same
  unfold Ordered
  rw [isn, una, nxt, max, write]
  exact ordered

-- The state that a segment meets takes the window from it.
def TakesWindow (env : Env) (w : World) (pkt : Pkt) : Prop :=
  (w.tcb.state = .established ∨ w.tcb.state = .finwait1 ∨ w.tcb.state = .closewait) ∧ ¬ staleWindow w (gateSeg env w pkt).tcph

def PullsBack (w : World) (tcph : Dgram) : Prop := SEQLT (wlast tcph) (owlast w) ∧ SEQLT (wlast tcph) w.tcb.sndNxt

-- No ack overtakes snd_nxt, and no window pulls it back below snd_una.
def InTurn (env : Env) (w : World) (op : Op) : Prop :=
  ∀ pkt duplicate, op = .segment pkt duplicate → Acks env w pkt →
    (SEQLE pkt.tcph.ack w.tcb.sndMax → ¬ SEQLT w.tcb.sndNxt pkt.tcph.ack)
      ∧ (TakesWindow env w pkt → PullsBack w pkt.tcph → ¬ SEQLT (wlast pkt.tcph) w.tcb.sndUna)

theorem not_lt_antipode (x : Seq) : SEQLT x (x + 0x80000000#32) := by
  unfold SEQLT lt
  rw [sub_add_cancel_left]
  decide

theorem lies_not_stray (w : World) (tcph : Dgram) {s u n m : Nat} (lies : Lies w s u n m)
    (follows : SEQLE tcph.ack w.tcb.sndMax → ¬ SEQLT w.tcb.sndNxt tcph.ack) : ¬ StrayAck w tcph := by
  rintro ⟨level, opposite⟩
  have kept := lies.kept
  have near := kept.near
  have unacked := kept.unacked
  have written := kept.written
  have same : u = m := by
    by_contra apart
    have before : SEQLT (ledger w).una (ledger w).max := by
      rw [kept.una, kept.max, seq_lt_near _ _ _ (by have := kept.sent; omega) (by omega)]
      have := kept.sent
      omega
    rw [show (ledger w).una = (ledger w).max from level] at before
    exact lt_irrefl _ before
  have nxt : w.tcb.sndNxt = w.tcb.sndUna := by
    have isN : n = u := by
      have := lies.acked
      have := lies.sent
      omega
    rw [lies.nxt, isN]
    exact kept.una.symm
  rw [nxt, ← level, opposite] at follows
  refine follows ?_ (not_lt_antipode _)
  unfold SEQLE le
  rw [add_sub_cancel_left]
  decide

theorem lies_dupacks (w : World) (dupacks : Int) {s u n m : Nat} (lies : Lies w s u n m) : Lies (setDupacks w dupacks) s u n m :=
  lies_of_eq w (setDupacks w dupacks) rfl rfl lies

-- An ack of something new: where it lies.
theorem new_ack (w : World) (ack : Seq) {s u n m : Nat} (lies : Lies w s u n m) (new : SEQLT w.tcb.sndUna ack)
    (sent : SEQLE ack w.tcb.sndMax) (follows : ¬ SEQLT w.tcb.sndNxt ack)
    (sane : ¬ (w.tcb.sndUna = w.tcb.sndMax ∧ ack = w.tcb.sndUna + 0x80000000#32)) :
    ∃ j, u < j ∧ j ≤ n ∧ ack = place w.tcb.sndIsn j ∧ Lies (setUna w ack) s j n m := by
  obtain ⟨j, later, limit, isAck, kept⟩ := kept_ack lies.kept ack new sent sane
  have near := lies.kept.near
  have unacked := lies.kept.unacked
  have written := lies.kept.written
  have acked := lies.acked
  have high := lies.sent
  have behind : j ≤ n := by
    rw [isAck, lies.nxt] at follows
    change ¬ SEQLT (place w.tcb.sndIsn n) (place w.tcb.sndIsn j) at follows
    rw [seq_lt_near _ _ _ (by omega) (by omega)] at follows
    omega
  exact ⟨j, later, behind, isAck, kept, lies.nxt, behind, lies.sent⟩

theorem ack_place_lies (env : Env) (x : World) (pkt : Pkt) (osndWnd : Int) {s u n m : Nat} (lies : Lies x s u n m)
    (follows : SEQLE pkt.tcph.ack x.tcb.sndMax → ¬ SEQLT x.tcb.sndNxt pkt.tcph.ack) :
    ∃ s' u' n' m', Lies (ackPlace env x pkt osndWnd) s' u' n' m' := by
  have sane := lies_not_stray x pkt.tcph lies follows
  have same : ∀ y, sendSide y = sendSide x → ∃ s' u' n' m', Lies y s' u' n' m' := fun y side =>
    ⟨s, u, n, m, lies_of_eq x y (congrArg SendSide.ledger side) (congrArg SendSide.nxt side) lies⟩
  unfold ackPlace
  split
  · split
    · exact same _ (side_sndrst env x pkt)
    · exact same _ (side_of_outgoing _ _ (outgoing_sndack env x pkt))
  · rename_i sent
    split
    · rename_i new
      obtain ⟨j, -, -, -, moved⟩ := new_ack x pkt.tcph.ack lies new (not_not.mp sent) (follows (not_not.mp sent)) sane
      obtain ⟨s', n', m', -, -, -, done⟩ := advances_ostate env _ .ackrcvd (by decide) s j n m moved
      exact ⟨s', j, n', m', lies_dupacks _ 0 done⟩
    · split
      · exact same x rfl
      · split
        · have counted := lies_dupacks x (x.tcb.dupacks + 1) lies
          obtain ⟨s', n', m', -, -, -, done⟩ := advances_ostate env _ .dupack (by decide) s u n m counted
          exact ⟨s', u, n', m', done⟩
        · exact same x rfl

theorem steps_of_not_lt (base x : Seq) (i : Int) (after : ¬ SEQLT x (place base i)) :
    ∃ j, i ≤ j ∧ j < i + 2 ^ 31 ∧ x = place base j := by
  unfold SEQLT lt at after
  have high := BitVec.toInt_lt (x := x - place base i)
  refine ⟨i + (x - place base i).toInt, by omega, by omega, ?_⟩
  rw [← place_place, place_offset]

-- A window that does not pull snd_nxt below snd_una.
theorem shrunk_lies (w : World) (tcph : Dgram) {s u n m : Nat} (lies : Lies w s u n m)
    (above : PullsBack w tcph → ¬ SEQLT (wlast tcph) w.tcb.sndUna) :
    ∃ n', n' ≤ n ∧ Lies (tcpSndwnd w tcph) s u n' m := by
  have windows : ∀ y : World, (noteWndmax y).tcb.sndNxt = y.tcb.sndNxt := by
    intro y
    unfold noteWndmax
    split <;> rfl
  have nxt : (tcpSndwnd w tcph).tcb.sndNxt = shrunkNxt w tcph := windows _
  have isn : (tcpSndwnd w tcph).tcb.sndIsn = w.tcb.sndIsn := congrArg Ledger.isn (ledger_sndwnd w tcph)
  unfold shrunkNxt at nxt
  by_cases pulled : SEQLT (wlast tcph) (owlast w) ∧ SEQLT (wlast tcph) w.tcb.sndNxt
  · rw [if_pos pulled] at nxt
    have near := lies.kept.near
    have unacked := lies.kept.unacked
    have written := lies.sent.trans lies.kept.written
    have acked := lies.acked
    have low := above pulled
    rw [show w.tcb.sndUna = place w.tcb.sndIsn u from lies.kept.una] at low
    obtain ⟨j, least, span, isEdge⟩ := steps_of_not_lt _ _ _ low
    have before := pulled.2
    rw [isEdge, lies.nxt] at before
    have order : j < n := by
      by_contra beyond
      unfold SEQLT at before
      rw [lt_place _ j n (by omega) (by omega)] at before
      omega
    refine ⟨j.toNat, by omega, (ledger_sndwnd w tcph).symm ▸ lies.kept, ?_, by omega, ?_⟩
    · rw [nxt, isn, isEdge, Int.toNat_of_nonneg (by omega)]
    · have sent := lies.sent
      omega
  · rw [if_neg pulled] at nxt
    exact ⟨n, le_refl n, lies_of_eq w _ (ledger_sndwnd w tcph) nxt lies⟩

-- The edge of the window is never before the ack that it comes with.
theorem shrunk_follows (w : World) (tcph : Dgram)
    (follows : SEQLE tcph.ack w.tcb.sndMax → ¬ SEQLT w.tcb.sndNxt tcph.ack) :
    SEQLE tcph.ack w.tcb.sndMax → ¬ SEQLT (shrunkNxt w tcph) tcph.ack := by
  unfold shrunkNxt
  split
  · intro _ before
    unfold SEQLT lt wlast at before
    rw [add_sub_cancel_left, BitVec.toInt_eq_toNat_of_lt] at before
    · omega
    · have bound := tcph.window.isLt
      rw [BitVec.toNat_setWidth, Nat.mod_eq_of_lt (by omega)]
      omega
  · exact follows

theorem ack_lies (env : Env) (x : World) (pkt : Pkt) (update : Bool) {s u n m : Nat} (lies : Lies x s u n m)
    (follows : pkt.tcph.flags.ack → SEQLE pkt.tcph.ack x.tcb.sndMax → ¬ SEQLT x.tcb.sndNxt pkt.tcph.ack)
    (above : pkt.tcph.flags.ack → update → ¬ staleWindow x pkt.tcph → PullsBack x pkt.tcph →
      ¬ SEQLT (wlast pkt.tcph) x.tcb.sndUna) :
    ∃ s' u' n' m', Lies (tcpAck env x pkt update) s' u' n' m' := by
  unfold tcpAck
  split
  · exact ⟨s, u, n, m, lies⟩
  · rename_i acks
    have acks := not_not.mp acks
    split
    · rename_i takes
      obtain ⟨n', -, shrunk⟩ := shrunk_lies x pkt.tcph lies (above acks takes.1 takes.2)
      have windows : (tcpSndwnd x pkt.tcph).tcb.sndNxt = shrunkNxt x pkt.tcph := by
        unfold tcpSndwnd noteWndmax
        split <;> rfl
      have max : (tcpSndwnd x pkt.tcph).tcb.sndMax = x.tcb.sndMax := congrArg Ledger.max (ledger_sndwnd x pkt.tcph)
      obtain ⟨s', u', n', m', placed⟩ := ack_place_lies env (tcpSndwnd x pkt.tcph) pkt x.tcb.sndWnd shrunk (by
        rw [windows, max]
        exact shrunk_follows x pkt.tcph (follows acks))
      obtain ⟨s'', n'', m'', -, -, -, told⟩ := advances_ostate env _ (windowEvent x pkt.tcph) (by
        unfold windowEvent
        split <;> decide) s' u' n' m' placed
      exact ⟨s'', u', n'', m'', told⟩
    · exact ack_place_lies env x pkt x.tcb.sndWnd lies (follows acks)

-- What holds of the numbers in every state: they are in order, and unless the connection was reset they lie in the stream.
structure InPlace (w : World) : Prop where
  ordered : Ordered w
  lies : (sendSide w).wasReset ∨ ∃ s u n m, Lies w s u n m

theorem in_place_of_lies (w : World) {s u n m : Nat} (lies : Lies w s u n m) : InPlace w :=
  ⟨lies_ordered w lies, Or.inr ⟨s, u, n, m, lies⟩⟩

theorem in_place_ended (x w' : World) (ended : Ended x w') (ordered : Ordered x) : InPlace w' :=
  ⟨ordered_of_places x w' ended.places ordered, Or.inl (ended_reset x w' ended)⟩

theorem settles_nxt (tcph : Dgram) (y z : SendSide) (settles : Settles tcph y z) : z.nxt = y.nxt := by
  cases settles <;> rfl

theorem ordered_of_side (w w' : World) (numbers : ledger w' = ledger w) (nxt : w'.tcb.sndNxt = w.tcb.sndNxt)
    (ordered : Ordered w) : Ordered w' := by
  refine ordered_of_places w w' ?_ ordered
  have isn : w'.tcb.sndIsn = w.tcb.sndIsn := congrArg Ledger.isn numbers
  have una : w'.tcb.sndUna = w.tcb.sndUna := congrArg Ledger.una numbers
  have max : w'.tcb.sndMax = w.tcb.sndMax := congrArg Ledger.max numbers
  have write : w'.tcb.seqWrite = w.tcb.seqWrite := congrArg Ledger.write numbers
  have stream : w'.stream = w.stream := congrArg Ledger.stream numbers
  unfold sendPlaces
  rw [isn, una, nxt, max, write, stream]

theorem in_place_of_side (w w' : World) (numbers : ledger w' = ledger w) (nxt : w'.tcb.sndNxt = w.tcb.sndNxt)
    (kept : (sendSide w).wasReset → (sendSide w').wasReset) (place : InPlace w) : InPlace w' := by
  refine ⟨ordered_of_side w w' numbers nxt place.ordered, place.lies.imp kept ?_⟩
  rintro ⟨s, u, n, m, lies⟩
  exact ⟨s, u, n, m, lies_of_eq w w' numbers nxt lies⟩

theorem outcome_in_place (env : Env) (w w' : World) (pkt : Pkt) (place : InPlace w) (notClosed : w.tcb.state ≠ .closed)
    (turn : Acks env w pkt → (SEQLE pkt.tcph.ack w.tcb.sndMax → ¬ SEQLT w.tcb.sndNxt pkt.tcph.ack)
      ∧ (TakesWindow env w pkt → PullsBack w pkt.tcph → ¬ SEQLT (wlast pkt.tcph) w.tcb.sndUna))
    (alive : w'.alive) (outcome : Outcome env w pkt w') : InPlace w' := by
  obtain ⟨flag, number, window⟩ := gate_seg_keeps_ack env w pkt
  obtain ⟨s, u, n, m, lies⟩ := place.lies.resolve_left fun reset => notClosed reset.1
  cases outcome with
  | held side => exact in_place_of_lies w' (lies_of_eq w w' (congrArg SendSide.ledger side) (congrArg SendSide.nxt side) lies)
  | ended done => exact in_place_ended w w' done place.ordered
  | gone dead =>
      rw [dead] at alive
      cases alive
  | deleted side => exact in_place_of_lies w' (lies_of_eq w w' (congrArg SendSide.ledger side) (congrArg SendSide.nxt side) lies)
  | acked update acks updates settled =>
      have gated := outgoing_gate env w pkt
      have same {α : Type} (f : World → α) (blind : ∀ x, f (outgoing x) = f x) := outgoing_same f w _ gated blind
      have side := side_gate env w pkt
      have lies' := lies_of_eq w (gateConn env w pkt) (congrArg SendSide.ledger side) (congrArg SendSide.nxt side) lies
      obtain ⟨s', u', n', m', done⟩ := ack_lies env _ (gateSeg env w pkt) update lies' (by
        intro flagged
        rw [number, same (·.tcb.sndMax) fun _ => rfl, same (·.tcb.sndNxt) fun _ => rfl]
        exact (turn (acks (flag ▸ flagged))).1) (by
        intro flagged takes fresh pulled
        have edge : wlast (gateSeg env w pkt).tcph = wlast pkt.tcph := by
          unfold wlast
          rw [number, window]
        unfold PullsBack at pulled
        rw [edge, same owlast fun _ => rfl, same (·.tcb.sndNxt) fun _ => rfl] at pulled
        rw [edge, same (·.tcb.sndUna) fun _ => rfl]
        rw [same (fun x => staleWindow x (gateSeg env w pkt).tcph) fun _ => rfl] at fresh
        exact (turn (acks (flag ▸ flagged))).2 ⟨updates takes, fresh⟩ pulled)
      exact in_place_of_lies w' (lies_of_eq _ w' (settles_ledger _ _ _ settled) (settles_nxt _ _ _ settled) done)
  | joined y state wndack wnd mss opening joins before range side =>
      have there : ∃ s' u' n' m', Lies y s' u' n' m' := by
        obtain unchanged | ⟨acks, x, side', rfl⟩ := before
        · exact ⟨s, u, n, m, lies_of_eq w y (congrArg SendSide.ledger unchanged) (congrArg SendSide.nxt unchanged) lies⟩
        · have numbers : ledger x = ledger w := congrArg SendSide.ledger side'
          have nxt : x.tcb.sndNxt = w.tcb.sndNxt := congrArg SendSide.nxt side'
          refine ack_lies env x _ false (lies_of_eq w x numbers nxt lies) (fun _ => ?_) fun _ takes => by cases takes
          rw [number, nxt, show x.tcb.sndMax = w.tcb.sndMax from congrArg Ledger.max numbers]
          exact (turn acks).1
      obtain ⟨s', u', n', m', done⟩ := there
      have numbers : ledger w' = { ledger y with mss := mss } := congrArg SendSide.ledger side
      have nxt : w'.tcb.sndNxt = y.tcb.sndNxt := congrArg SendSide.nxt side
      have isn : w'.tcb.sndIsn = y.tcb.sndIsn := congrArg Ledger.isn numbers
      have sized : Kept (ledger w') s' u' m' := by
        rw [numbers]
        refine { done.kept with mss := ?_ }
        obtain unchanged | within := range lies.kept.room.2 lies.kept.room.1
        · rw [unchanged]
          exact lies.kept.mss
        · exact within
      refine in_place_of_lies w' ⟨sized, ?_, done.acked, done.sent⟩
      rw [nxt, isn]
      exact done.nxt

-- tcp_output puts new data behind everything that is there.
theorem queued_lies (env : Env) (w : World) (bytes : List Byte) (flags : Flags) {s u n m : Nat} (lies : Lies w s u n m)
    (kept : Kept (ledger (queued env w bytes flags).2) s u m) : Lies (queued env w bytes flags).2 s u n m := by
  have unwrites := unwritten_queued env w bytes flags
  have nxt := unwritten_same (·.tcb.sndNxt) _ _ unwrites fun _ => rfl
  have isn := unwritten_same (·.tcb.sndIsn) _ _ unwrites fun _ => rfl
  refine ⟨kept, ?_, lies.acked, lies.sent⟩
  rw [nxt, isn]
  exact lies.nxt

theorem output_in_place (env : Env) (w : World) (bytes : List Byte) (flags : Flags) {s u n m : Nat} (lies : Lies w s u n m)
    (noFin : Item.fin ∉ w.stream) (few : marks w.stream ≤ 1) (fits : dataLen (ledger w).segs + bytes.length ≤ 65535)
    (some : bytes ≠ [] ∨ flags.syn ∨ flags.fin) (opens : flags.syn → w.stream = []) :
    InPlace (tcpOutput env w bytes flags).2 := by
  have few' := queued_few w flags few opens
  have kept := queued_kept env w bytes flags lies.kept noFin fits few' some
  have lies' := queued_lies env w bytes flags lies kept
  rw [output_done env w bytes flags some]
  obtain ended | advances := advances_output_done env flags (queued env w bytes flags)
  · exact in_place_ended _ _ ended (lies_ordered _ lies')
  · obtain ⟨s', n', m', -, -, -, done⟩ := advances _ _ _ _ lies'
    exact in_place_of_lies _ done

theorem moves_in_place (env : Env) (w w' : World) (op : Op) (booked : Booked (sendSide w)) (alive : w.alive) (place : InPlace w)
    (turn : InTurn env w op) (moves : Moves env w op w') (alive' : w'.alive) : InPlace w' := by
  cases moves with
  | same side =>
      refine in_place_of_side w w' (congrArg SendSide.ledger side) (congrArg SendSide.nxt side) (fun reset => ?_) place
      rw [side]
      exact reset
  | gone dead =>
      rw [dead] at alive'
      cases alive'
  | ended done => exact in_place_ended w w' done place.ordered
  | deleted held side =>
      refine in_place_of_side w w' (congrArg SendSide.ledger side) (congrArg SendSide.nxt side) (fun reset => ?_) place
      rw [side]
      exact ⟨rfl, reset.2⟩
  | heard pkt duplicate isSegment notClosed outcome =>
      exact outcome_in_place env w w' pkt place notClosed (turn pkt duplicate isSegment) alive' outcome
  | fired isTimer pending isFired =>
      rw [isFired]
      obtain reset | ⟨s, u, n, m, lies⟩ := place.lies
      · have idle : (timerDel w).tcb.ostate = .idle := reset.2.1
        rw [tcbOstate, idle]
        exact in_place_of_side w (timerDel w) rfl rfl (fun reset => reset) place
      · have begun := lies_of_eq w (timerDel w) rfl rfl lies
        obtain ⟨x, advances, ended⟩ | advances := advances_timeout env (timerDel w)
        · obtain ⟨s', n', m', -, -, -, done⟩ := advances s u n m begun
          exact in_place_ended x _ ended (lies_ordered x done)
        · obtain ⟨s', n', m', -, -, -, done⟩ := advances s u n m begun
          exact in_place_of_lies _ done
  | wrote bytes flags asks connects real room noSyn noFin isOutput =>
      rw [isOutput]
      have writes := writes_connected w connects
      obtain reset | ⟨books, notListen⟩ := booked alive
      · rw [show w.tcb.state = .closed from reset.1] at writes
        exact (writes_closed writes).elim
      · obtain reset | ⟨s, u, n, m, lies⟩ := place.lies
        · rw [show w.tcb.state = .closed from reset.1] at writes
          exact (writes_closed writes).elim
        · obtain ⟨noFin', few⟩ := books.unfinished writes
          exact output_in_place env w bytes flags lies noFin' few
            (canwrite_fits w bytes.length lies.kept (List.length_pos_of_ne_nil real) room) (Or.inl real)
            (fun syn => by rw [noSyn] at syn; cases syn)
  | finished x state sock asks calls side queue net finishes same =>
      obtain ⟨writes, ended⟩ := finishes_writes _ _ finishes
      obtain reset | ⟨books, notListen⟩ := booked alive
      · rw [show w.tcb.state = .closed from reset.1] at writes
        exact (writes_closed writes).elim
      · obtain reset | ⟨s, u, n, m, lies⟩ := place.lies
        · rw [show w.tcb.state = .closed from reset.1] at writes
          exact (writes_closed writes).elim
        · obtain ⟨noFin, few⟩ := books.unfinished writes
          have stream : x.stream = w.stream := congrArg (fun y : SendSide => y.ledger.stream) side
          have begun := lies_of_eq w (setState x state) (congrArg SendSide.ledger side) (congrArg SendSide.nxt side) lies
          have out := output_in_place env (setState x state) [] TCPF_FIN_ACK begun
            (by change Item.fin ∉ x.stream; rw [stream]; exact noFin) (by change marks x.stream ≤ 1; rw [stream]; exact few)
            begun.kept.fits (Or.inr (Or.inr rfl)) (fun syn => by cases syn)
          refine in_place_of_side _ w' (congrArg SendSide.ledger same) (congrArg SendSide.nxt same) (fun reset => ?_) out
          rw [same]
          exact reset
  | detached isDetach finishes notClosed notListen notSynsent same =>
      refine in_place_of_side w w' (congrArg SendSide.ledger same) (congrArg SendSide.nxt same) (fun reset => ?_) place
      rw [same]
      exact reset
  | accepted same =>
      refine in_place_of_side w w' (congrArg SendSide.ledger same) (congrArg SendSide.nxt same) (fun reset => ?_) place
      rw [same]
      exact reset
  | resized room low high same =>
      have numbers : ledger w' = { ledger w with room := room } := congrArg SendSide.ledger same
      have nxt : w'.tcb.sndNxt = w.tcb.sndNxt := congrArg SendSide.nxt same
      have isn : w'.tcb.sndIsn = w.tcb.sndIsn := congrArg Ledger.isn numbers
      refine ⟨?_, place.lies.imp (fun reset => ?_) ?_⟩
      · refine ordered_of_places w w' ?_ place.ordered
        have una : w'.tcb.sndUna = w.tcb.sndUna := congrArg Ledger.una numbers
        have max : w'.tcb.sndMax = w.tcb.sndMax := congrArg Ledger.max numbers
        have write : w'.tcb.seqWrite = w.tcb.seqWrite := congrArg Ledger.write numbers
        have stream : w'.stream = w.stream := congrArg Ledger.stream numbers
        unfold sendPlaces
        rw [isn, una, nxt, max, write, stream]
      · rw [same]
        exact reset
      · rintro ⟨s, u, n, m, lies⟩
        have roomy : Kept (ledger w') s u m := by
          rw [numbers]
          exact { lies.kept with room := ⟨low, high⟩ }
        refine ⟨s, u, n, m, roomy, ?_, lies.acked, lies.sent⟩
        rw [nxt, isn]
        exact lies.nxt

theorem closed_not_acks (env : Env) (w : World) (pkt : Pkt) (closed : w.tcb.state = .closed) : ¬ Acks env w pkt := by
  rintro ⟨-, -, heard⟩
  unfold hears at heard
  rw [gate_conn_state, closed] at heard
  exact heard

theorem in_turn_sane (env : Env) (w : World) (op : Op) (place : InPlace w) (turn : InTurn env w op) : Sane env w op := by
  intro pkt duplicate isSegment acks
  obtain reset | ⟨s, u, n, m, lies⟩ := place.lies
  · exact (closed_not_acks env w pkt reset.1 acks).elim
  · exact lies_not_stray w pkt.tcph lies (turn pkt duplicate isSegment acks).1

theorem step_in_place (env : Env) (w : World) (op : Op) (booked : Booked (sendSide w)) (place : w.alive → InPlace w)
    (turn : InTurn env w op) (alive' : (step env w op).alive) : InPlace (step env w op) := by
  unfold step at alive' ⊢
  split at alive'
  · rename_i alive
    rw [if_pos alive]
    exact moves_in_place env w _ op booked alive (place alive) turn (net_moves env w op (booked_not_listen w alive booked)) alive'
  · rename_i dead
    exact (dead alive').elim

theorem start_in_place (w : World) (start : Start w) : InPlace w := by
  obtain ⟨env, x, flags, state, opening, syn, fin, urg, states, same⟩ := start_opening w start
  have begun : Lies x 0 0 0 0 := by
    refine ⟨opening.kept, ?_, le_refl 0, le_refl 0⟩
    rw [opening.nxt, Nat.cast_zero, place_zero]
  have some : ([] : List Byte) ≠ [] ∨ flags.syn ∨ flags.fin := Or.inr (Or.inl syn)
  have kept := opening_queued env x flags opening syn fin
  have out := advances_output_plain env flags (queued env x [] flags) urg
  rw [← output_done env x [] flags some] at out
  obtain ⟨s', n', m', -, -, -, done⟩ := out _ _ _ _ (queued_lies env x [] flags begun kept)
  exact in_place_of_lies w (lies_of_eq _ w (congrArg SendSide.ledger same) (congrArg SendSide.nxt same) done)

theorem step_order (env : Env) (w : World) (op : Op) (turn : InTurn env w op)
    (inv : Booked (sendSide w) ∧ (w.alive → InPlace w)) :
    Booked (sendSide (step env w op)) ∧ ((step env w op).alive → InPlace (step env w op)) := by
  by_cases alive : w.alive
  · exact ⟨step_booked env w op inv.1 (in_turn_sane env w op (inv.2 alive) turn), step_in_place env w op inv.1 inv.2 turn⟩
  · unfold step
    rw [if_neg alive]
    exact inv

-- As long as no ack and no window overtakes snd_nxt, the four numbers stay in order.
theorem send_order (w : World) (reached : Reach InTurn w) (alive : w.alive) : Ordered w := by
  have inv := reach_invariant InTurn (fun w => Booked (sendSide w) ∧ (w.alive → InPlace w))
    (fun w start => ⟨start_booked w start, fun _ => start_in_place w start⟩)
    (fun env w op inv turn => step_order env w op turn inv) w reached
  exact (inv.2 alive).ordered

theorem turn_open (window : BitVec 16) :
    InTurn plainEnv synSent (.segment (peerSeg 5000 1001 TCPF_SYN_ACK window 0 []) false) := by
  rintro pkt duplicate same -
  obtain ⟨rfl, rfl⟩ := Op.segment.inj same
  have nxt : synSent.tcb.sndNxt = 1001 := by decide +kernel
  have state : synSent.tcb.state = .synsent := by decide +kernel
  refine ⟨fun _ beyond => ?_, fun takes => ?_⟩
  · rw [nxt] at beyond
    change SEQLT 1001 1001 at beyond
    revert beyond
    decide
  · unfold TakesWindow at takes
    rw [state] at takes
    simp at takes

theorem send_order_open : Ordered (openConn 5000) :=
  send_order (openConn 5000) (reach_open InTurn 5000 (turn_open 5000)) (by decide +kernel)

theorem ordered_una (w : World) (ordered : Ordered w) : SEQLE w.tcb.sndUna w.tcb.sndNxt := by
  obtain ⟨una, nxt, max, write, first, second, third, span, isUna, isNxt, -, -⟩ := ordered
  rw [isUna, isNxt, SEQLE, le_place _ _ _ (by omega) (by omega)]
  omega

-- Two bytes are sent, the window shrinks to one, and the ack of both arrives.
def overtaken : World :=
  steps (openConn 5000)
    [(plainEnv, .send ([65, 66]) false),
     (plainEnv, .segment (peerSeg 5001 1001 TCPF_ACK 1 0 []) false),
     (plainEnv, .segment (peerSeg 5001 1003 TCPF_ACK 1 0 []) false)]

theorem order_overtaken : ¬ ∀ w, Reach (fun _ _ _ => True) w → w.alive → Ordered w := by
  intro ordered
  have reached : Reach (fun _ _ _ => True) overtaken := by
    unfold overtaken
    exact reach_steps _ _ (reach_open _ 5000 trivial)
  have order := ordered_una overtaken (ordered overtaken reached (by decide +kernel))
  revert order
  decide +kernel

end MagxNet.Tcp
