import MagxNet.Tcp.Books

set_option autoImplicit false

namespace MagxNet.Tcp

open Bytes Serial

-- The number that a segment acks.
def ackOf (tcph : Dgram) : Option Seq := if tcph.flags.ack then some tcph.ack else none

def Op.acks : Op → Option Seq
  | .segment pkt _ => ackOf pkt.tcph
  | _ => none

theorem ack_kept_same (l l' : Ledger) (ack : Option Seq) {s u m : Nat} (same : l' = l) (kept : Kept l s u m) :
    AckKept l' ack s u m :=
  ack_kept_of_keeps l l' ack (keeps_of_eq l l' same) kept

theorem settles_ledger (tcph : Dgram) (y z : SendSide) (settles : Settles tcph y z) : z.ledger = y.ledger := by
  cases settles <;> rfl

theorem outcome_kept (env : Env) (w w' : World) (pkt : Pkt) {s u m : Nat} (kept : Kept (ledger w) s u m)
    (sane : Acks env w pkt → ¬ StrayAck w pkt.tcph) (alive : w'.alive) (notClosed : w'.tcb.state ≠ .closed)
    (outcome : Outcome env w pkt w') : AckKept (ledger w') (ackOf pkt.tcph) s u m := by
  obtain ⟨flag, number, -⟩ := gate_seg_keeps_ack env w pkt
  have same : ackOf (gateSeg env w pkt).tcph = ackOf pkt.tcph := by
    unfold ackOf
    rw [flag, number]
  cases outcome with
  | held side => exact ack_kept_same _ _ _ (congrArg SendSide.ledger side) kept
  | ended done => exact (notClosed done.closed).elim
  | gone dead =>
      rw [dead] at alive
      cases alive
  | deleted side => exact (notClosed (congrArg SendSide.state side)).elim
  | acked update acks updates settled =>
      have gated := side_gate env w pkt
      have kept' : Kept (ledger (gateConn env w pkt)) s u m := by
        rw [show ledger (gateConn env w pkt) = ledger w from congrArg SendSide.ledger gated]
        exact kept
      rw [show ledger w' = _ from settles_ledger _ _ _ settled, ← same]
      refine ack_keeps env _ _ update kept' fun flagged => ?_
      rw [flag] at flagged
      rw [stray_same _ w pkt _ gated number]
      exact sane (acks flagged)
  | joined y state wndack wnd mss opening joins before range side =>
      have there : AckKept (ledger y) (ackOf pkt.tcph) s u m := by
        obtain unchanged | ⟨acks, x, side', rfl⟩ := before
        · exact ack_kept_same _ _ _ (congrArg SendSide.ledger unchanged) kept
        · have kept' : Kept (ledger x) s u m := by
            rw [show ledger x = ledger w from congrArg SendSide.ledger side']
            exact kept
          rw [← same]
          refine ack_keeps env x _ false kept' fun _ => ?_
          rw [stray_same x w pkt _ side' number]
          exact sane acks
      obtain ⟨s', u', m', low, later, high, number', kept'⟩ := there
      rw [show ledger w' = { ledger y with mss := mss } from congrArg SendSide.ledger side]
      refine ⟨s', u', m', low, later, high, number', { kept' with mss := ?_ }⟩
      obtain unchanged | within := range kept.room.2 kept.room.1
      · rw [unchanged]
        exact kept.mss
      · exact within

theorem writes_books (w : World) (booked : Booked (sendSide w)) (alive : w.alive) (writes : w.tcb.state.writes) :
    Books (sendSide w) := by
  refine books_of_booked _ booked alive fun closed => ?_
  rw [show w.tcb.state = .closed from closed] at writes
  exact writes_closed writes

theorem output_ack_kept (env : Env) (w : World) (bytes : List Byte) (flags : Flags) (ack : Option Seq) {s u m : Nat}
    (kept : Kept (ledger w) s u m) (noFin : Item.fin ∉ w.stream)
    (fits : dataLen (ledger w).segs + bytes.length ≤ 65535)
    (few : marks w.stream + (if flags.syn then 1 else 0) + (if flags.fin then 1 else 0) ≤ 2)
    (some : bytes ≠ [] ∨ flags.syn ∨ flags.fin) (notClosed : (tcpOutput env w bytes flags).2.tcb.state ≠ .closed) :
    AckKept (ledger (tcpOutput env w bytes flags).2) ack s u m := by
  have queuedKept := queued_kept env w bytes flags kept noFin fits few some
  rw [output_done env w bytes flags some] at notClosed ⊢
  obtain ended | runs := output_done_runs env flags (queued env w bytes flags)
  · exact (notClosed ended.closed).elim
  · exact ack_kept_of_keeps _ _ _ runs.2 queuedKept

-- One step moves snd_una only to what a segment acks.
theorem moves_kept (env : Env) (w w' : World) (op : Op) (booked : Booked (sendSide w)) (before : w.alive)
    {s u m : Nat} (kept : Kept (ledger w) s u m) (sane : Sane env w op) (alive : w'.alive)
    (notClosed : w'.tcb.state ≠ .closed) (moves : Moves env w op w') : AckKept (ledger w') op.acks s u m := by
  cases moves with
  | same side => exact ack_kept_same _ _ _ (congrArg SendSide.ledger side) kept
  | gone dead =>
      rw [dead] at alive
      cases alive
  | ended done => exact (notClosed done.closed).elim
  | deleted held side => exact (notClosed (congrArg SendSide.state side)).elim
  | heard pkt duplicate isSegment open' outcome =>
      rw [isSegment]
      exact outcome_kept env w w' pkt kept (sane pkt duplicate isSegment) alive notClosed outcome
  | fired isTimer pending isFired =>
      obtain ⟨x, -, ended⟩ | runs := timeout_runs env (timerDel w)
      · rw [isFired] at notClosed
        exact (notClosed ended.closed).elim
      · rw [isFired]
        exact ack_kept_of_keeps (ledger (timerDel w)) _ _ runs.2 kept
  | wrote bytes flags asks connects real room noSyn noFin isOutput =>
      have writes := writes_connected w connects
      have books := writes_books w booked before writes
      obtain ⟨noFin', few⟩ := books.unfinished writes
      rw [isOutput] at notClosed ⊢
      exact output_ack_kept env w bytes flags op.acks kept noFin'
        (canwrite_fits w bytes.length kept (List.length_pos_of_ne_nil real) room)
        (by
          rw [noSyn, noFin]
          change marks w.stream + 0 + 0 ≤ 2
          change marks w.stream ≤ 1 at few
          omega) (Or.inl real) notClosed
  | finished x state sock asks calls side queue net finishes same =>
      obtain ⟨writes, -⟩ := finishes_writes _ _ finishes
      obtain ⟨noFin, few⟩ := (writes_books w booked before writes).unfinished writes
      have stream : x.stream = w.stream := congrArg (fun y : SendSide => y.ledger.stream) side
      have kept' : Kept (ledger x) s u m := by
        rw [show ledger x = ledger w from congrArg SendSide.ledger side]
        exact kept
      have closes : (outputFin env (setState x state)).tcb.state ≠ .closed := by
        have kept := congrArg SendSide.state same
        change w'.tcb.state = (outputFin env (setState x state)).tcb.state at kept
        rw [← kept]
        exact notClosed
      rw [show ledger w' = ledger (outputFin env (setState x state)) from congrArg SendSide.ledger same]
      exact output_ack_kept env (setState x state) [] TCPF_FIN_ACK op.acks kept'
        (by change Item.fin ∉ x.stream; rw [stream]; exact noFin) kept'.fits
        (by
          change marks x.stream + 0 + 1 ≤ 2
          rw [stream]
          change marks w.stream ≤ 1 at few
          omega) (Or.inr (Or.inr rfl)) closes
  | detached isDetach finishes notClosed notListen notSynsent same =>
      exact ack_kept_same _ _ _ (congrArg SendSide.ledger same) kept
  | accepted same => exact ack_kept_same _ _ _ (congrArg SendSide.ledger same) kept
  | resized room low high same =>
      rw [show ledger w' = { ledger w with room := room } from congrArg SendSide.ledger same]
      exact ⟨s, u, m, le_refl s, le_refl u, le_refl m, Or.inl rfl, { kept with room := ⟨low, high⟩ }⟩

theorem output_isn (env : Env) (w : World) (bytes : List Byte) (flags : Flags)
    (some : bytes ≠ [] ∨ flags.syn ∨ flags.fin) : (tcpOutput env w bytes flags).2.tcb.sndIsn = w.tcb.sndIsn := by
  have same := unwritten_same (·.tcb.sndIsn) _ _ (unwritten_queued env w bytes flags) fun _ => rfl
  rw [output_done env w bytes flags some]
  obtain ended | runs := output_done_runs env flags (queued env w bytes flags)
  · exact (congrArg Prod.fst ended.places).trans same
  · exact (incoming_same (·.tcb.sndIsn) _ _ runs.1 fun _ => rfl).trans same

theorem outcome_isn (env : Env) (w w' : World) (pkt : Pkt) (alive : w'.alive) (outcome : Outcome env w pkt w') :
    w'.tcb.sndIsn = w.tcb.sndIsn := by
  have acked : ∀ (x : World) (pkt' : Pkt) (update : Bool), sendSide x = sendSide w →
      (tcpAck env x pkt' update).tcb.sndIsn = w.tcb.sndIsn := by
    intro x pkt' update side
    have isn : x.tcb.sndIsn = w.tcb.sndIsn := congrArg (fun y : SendSide => y.ledger.isn) side
    rw [← isn]
    exact incoming_same (·.tcb.sndIsn) x _ (incoming_ack env x pkt' update) fun _ => rfl
  cases outcome with
  | held side => exact congrArg (fun y : SendSide => y.ledger.isn) side
  | ended done => exact congrArg Prod.fst done.places
  | gone dead =>
      rw [dead] at alive
      cases alive
  | deleted side => exact congrArg (fun y : SendSide => y.ledger.isn) side
  | acked update acks updates settled =>
      have kept := congrArg Ledger.isn (settles_ledger _ _ _ settled)
      exact Eq.trans kept (acked _ _ update (side_gate env w pkt))
  | joined y state wndack wnd mss opening joins before range side =>
      have kept : w'.tcb.sndIsn = y.tcb.sndIsn := congrArg (fun y : SendSide => y.ledger.isn) side
      rw [kept]
      obtain unchanged | ⟨acks, x, side', rfl⟩ := before
      · exact congrArg (fun y : SendSide => y.ledger.isn) unchanged
      · exact acked x _ false side'

theorem moves_isn (env : Env) (w w' : World) (op : Op) (alive : w'.alive) (moves : Moves env w op w') :
    w'.tcb.sndIsn = w.tcb.sndIsn := by
  have same : ∀ y : SendSide, sendSide w' = y → y.ledger.isn = w.tcb.sndIsn → w'.tcb.sndIsn = w.tcb.sndIsn := by
    rintro y side isn
    exact (congrArg (fun y : SendSide => y.ledger.isn) side).trans isn
  cases moves with
  | same side => exact same _ side rfl
  | gone dead =>
      rw [dead] at alive
      cases alive
  | ended done => exact congrArg Prod.fst done.places
  | deleted held side => exact same _ side rfl
  | heard pkt duplicate isSegment open' outcome => exact outcome_isn env w w' pkt alive outcome
  | fired isTimer pending isFired =>
      rw [isFired]
      obtain ⟨x, runs, ended⟩ | runs := timeout_runs env (timerDel w)
      · exact (congrArg Prod.fst ended.places).trans (incoming_same (·.tcb.sndIsn) (timerDel w) _ runs.1 fun _ => rfl)
      · exact incoming_same (·.tcb.sndIsn) (timerDel w) _ runs.1 fun _ => rfl
  | wrote bytes flags asks connects real room noSyn noFin isOutput =>
      rw [isOutput]
      exact output_isn env w bytes flags (Or.inl real)
  | finished x state sock asks calls side queue net finishes side' =>
      refine same _ side' ((output_isn env (setState x state) [] TCPF_FIN_ACK (Or.inr (Or.inr rfl))).trans ?_)
      exact congrArg (fun y : SendSide => y.ledger.isn) side
  | detached isDetach finishes notClosed notListen notSynsent side => exact same _ side rfl
  | accepted side => exact same _ side rfl
  | resized room low high side => exact same _ side rfl

theorem moves_closed (env : Env) (w w' : World) (op : Op) (closed : w.tcb.state = .closed)
    (moves : Moves env w op w') (alive : w'.alive) : w'.tcb.state = .closed := by
  have same : ∀ y : SendSide, sendSide w' = y → y.state = .closed → w'.tcb.state = .closed := by
    rintro y side state
    exact (congrArg SendSide.state side).trans state
  cases moves with
  | same side => exact same _ side closed
  | gone dead =>
      rw [dead] at alive
      cases alive
  | ended done => exact done.closed
  | deleted held side => exact same _ side rfl
  | heard pkt duplicate isSegment open' outcome => exact (open' closed).elim
  | fired isTimer pending isFired =>
      rw [isFired]
      obtain ⟨x, -, ended⟩ | runs := timeout_runs env (timerDel w)
      · exact ended.closed
      · exact (incoming_same (·.tcb.state) (timerDel w) _ runs.1 fun _ => rfl).trans closed
  | wrote bytes flags asks connects real room noSyn noFin isOutput =>
      have writes := writes_connected w connects
      rw [closed] at writes
      exact (writes_closed writes).elim
  | finished x state sock asks calls side queue net finishes side' =>
      rw [closed] at finishes
      cases finishes
  | detached isDetach finishes notClosed notListen notSynsent side => exact (notClosed closed).elim
  | accepted side => exact same _ side closed
  | resized room low high side => exact same _ side closed

-- The states reached, with what happened on the way, the last first.
inductive Ran (allowed : Env → World → Op → Prop) : List Op → World → Prop
  | start (w : World) : Start w → Ran allowed [] w
  | step (env : Env) (w : World) (op : Op) (ops : List Op) : Ran allowed ops w → allowed env w op →
      Ran allowed (op :: ops) (step env w op)

theorem ran_reach (allowed : Env → World → Op → Prop) (ops : List Op) (w : World) (ran : Ran allowed ops w) :
    Reach allowed w := by
  induction ran with
  | start w start => exact .start w start
  | step env w op ops _ ok ih => exact .step env w op ih ok

theorem reach_ran (allowed : Env → World → Op → Prop) (w : World) (reached : Reach allowed w) :
    ∃ ops, Ran allowed ops w := by
  induction reached with
  | start w start => exact ⟨[], .start w start⟩
  | step env w op _ ok ih =>
      obtain ⟨ops, ran⟩ := ih
      exact ⟨op :: ops, .step env w op ops ran ok⟩

-- A segment arrived that acks this number.
def Heard (ops : List Op) (ack : Seq) : Prop := ∃ op ∈ ops, op.acks = some ack

-- What was acked at all, a segment has acked.
def AckHeard (ops : List Op) (w : World) : Prop :=
  w.alive → w.tcb.state ≠ .closed → ∃ s u m, Kept (ledger w) s u m ∧ (u = 0 ∨ Heard ops w.tcb.sndUna)

theorem start_ack_heard (w : World) (start : Start w) : AckHeard [] w := by
  intro _ _
  obtain ⟨s, m, kept⟩ := start_kept w start
  exact ⟨s, 0, m, kept, Or.inl rfl⟩

theorem step_ack_heard (env : Env) (w : World) (op : Op) (ops : List Op) (booked : Booked (sendSide w))
    (heard : AckHeard ops w) (sane : Sane env w op) : AckHeard (op :: ops) (step env w op) := by
  have later : ∀ ack, Heard ops ack → Heard (op :: ops) ack := by
    rintro ack ⟨op', member, acks⟩
    exact ⟨op', List.mem_cons_of_mem _ member, acks⟩
  intro alive notClosed
  have before : w.alive := by
    by_contra dead
    unfold step at alive
    rw [if_neg dead] at alive
    exact dead alive
  unfold step at alive notClosed ⊢
  rw [if_pos before] at alive notClosed ⊢
  have moves := net_moves env w op (booked_not_listen w before booked)
  have open' : w.tcb.state ≠ .closed := fun closed => notClosed (moves_closed env w _ op closed moves alive)
  obtain ⟨s, u, m, kept, acked⟩ := heard before open'
  have isn := moves_isn env w _ op alive moves
  obtain ⟨s', u', m', -, -, -, number, kept'⟩ := moves_kept env w _ op booked before kept sane alive notClosed moves
  have una : (netStep env w op).tcb.sndUna = place (netStep env w op).tcb.sndIsn u' := kept'.una
  refine ⟨s', u', m', kept', ?_⟩
  obtain rfl | acks := number
  · have una' : w.tcb.sndUna = place w.tcb.sndIsn u' := kept.una
    rw [una, isn, ← una']
    exact acked.imp_right (later _)
  · right
    rw [una]
    exact ⟨op, List.mem_cons_self, acks⟩

theorem ran_ack_heard (allowed : Env → World → Op → Prop) (sane : ∀ env w op, allowed env w op → Sane env w op)
    (ops : List Op) (w : World) (ran : Ran allowed ops w) : AckHeard ops w := by
  induction ran with
  | start w start => exact start_ack_heard w start
  | step env w op ops before ok ih =>
      exact step_ack_heard env w op ops (reach_booked allowed sane w (ran_reach allowed ops w before)) ih
        (sane env w op ok)

end MagxNet.Tcp
