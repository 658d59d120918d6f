import MagxNet.Tcp.Heard
import MagxNet.Tcp.Liveness

set_option autoImplicit false

namespace MagxNet.Tcp

open Bytes Serial

-- The states that follow the sending of the FIN.
def TcbState.finished (state : TcbState) : Prop :=
  state = .finwait1 ∨ state = .finwait2 ∨ state = .closing ∨ state = .lastack ∨ state = .timewait

-- A FIN finds room in the last segment, or a buffer.
def FinFits (env : Env) (w : World) : Prop := combineRoom w TCPF_FIN_ACK > 0 ∨ env.memory w.net.allocs

theorem fin_fits_same (env : Env) (w x : World) (side : sendSide x = sendSide w) (queue : x.data.snd = w.data.snd)
    (net : x.net = w.net) : FinFits env x ↔ FinFits env w := by
  have max : x.tcb.sndMax = w.tcb.sndMax := congrArg (fun y : SendSide => y.ledger.max) side
  unfold FinFits combineRoom
  rw [queue, net, max]

theorem fin_round (env : Env) (w : World) (fits : FinFits env w) :
    (outputRound env w [] TCPF_FIN_ACK true).1 ≠ none := by
  unfold outputRound outputRoom
  obtain room | memory := fits
  · rw [if_pos room]
    exact Option.some_ne_none _
  · split
    · rename_i nothing
      split at nothing
      · cases nothing
      · unfold bufAlloc at nothing
        rw [if_pos memory] at nothing
        cases nothing
    · exact Option.some_ne_none _

theorem queued_fin (env : Env) (w : World) (fits : FinFits env w) {s u m : Nat} (kept : Kept (ledger w) s u m)
    (noFin : Item.fin ∉ w.stream) (few : marks w.stream ≤ 1) :
    (queued env w [] TCPF_FIN_ACK).2.stream = w.stream ++ [.fin] := by
  have wrote := queued_wrote env w [] TCPF_FIN_ACK kept noFin kept.fits (by
    change marks w.stream + 0 + 1 ≤ 2
    omega) (Or.inr (Or.inr rfl))
  obtain ⟨-, none, -⟩ | ⟨r, taken, -, -, wrote⟩ := wrote
  · exfalso
    have round := fin_round env w fits
    unfold queued outputLoop at none
    split at none
    · rename_i w1 got
      rw [got] at round
      exact round rfl
    · cases none
    · rename_i byte rest w1 got
      unfold outputRound at got
      split at got
      · cases got
      · obtain ⟨cut, -⟩ := Prod.mk.inj got
        rw [List.drop_nil] at cut
        cases cut
  · have first : r = 0 := Nat.le_zero.mp taken
    rw [wrote.stream, first]
    rfl

theorem queued_grows (env : Env) (w : World) (bytes : List Byte) (flags : Flags) {s u m : Nat}
    (kept : Kept (ledger w) s u m) (noFin : Item.fin ∉ w.stream)
    (fits : dataLen (ledger w).segs + bytes.length ≤ 65535)
    (few : marks w.stream + (if flags.syn then 1 else 0) + (if flags.fin then 1 else 0) ≤ 2)
    (some : bytes ≠ [] ∨ flags.syn ∨ flags.fin) : w.stream.length ≤ (queued env w bytes flags).2.stream.length := by
  obtain ⟨-, -, same⟩ | ⟨r, -, -, -, wrote⟩ := queued_wrote env w bytes flags kept noFin fits few some
  · rw [show (queued env w bytes flags).2.stream = w.stream from congrArg Ledger.stream same]
  · rw [wrote.stream, List.length_append]
    omega

-- What the call that sends the FIN leaves, besides what it puts into the stream.
theorem output_fin_kept (env : Env) (w : World) {s u m : Nat} (kept : Kept (ledger w) s u m)
    (noFin : Item.fin ∉ w.stream) (few : marks w.stream ≤ 1) :
    ∃ s' m', Kept (ledger (outputFin env w)) s' u m'
      ∧ incoming (outputFin env w) = incoming (queued env w [] TCPF_FIN_ACK).2 := by
  have some : ([] : List Byte) ≠ [] ∨ TCPF_FIN_ACK.syn ∨ TCPF_FIN_ACK.fin := Or.inr (Or.inr rfl)
  have few' : marks w.stream + (if TCPF_FIN_ACK.syn then 1 else 0) + (if TCPF_FIN_ACK.fin then 1 else 0) ≤ 2 := by
    change marks w.stream + 0 + 1 ≤ 2
    omega
  have queuedKept := queued_kept env w [] TCPF_FIN_ACK kept noFin kept.fits few' some
  have runs := output_plain_runs env TCPF_FIN_ACK (queued env w [] TCPF_FIN_ACK) rfl
  rw [← output_done env w [] TCPF_FIN_ACK some] at runs
  obtain ⟨s', m', -, -, kept'⟩ := runs.2 _ _ _ queuedKept
  exact ⟨s', m', kept', runs.1⟩

theorem output_fin_stream (env : Env) (w : World) {s u m : Nat} (kept : Kept (ledger w) s u m)
    (noFin : Item.fin ∉ w.stream) (few : marks w.stream ≤ 1) :
    (outputFin env w).stream = (queued env w [] TCPF_FIN_ACK).2.stream := by
  obtain ⟨s', m', -, same⟩ := output_fin_kept env w kept noFin few
  exact incoming_same (·.stream) _ _ same fun _ => rfl

-- With the FIN queued, or something else unacked, the ack of everything is still to come.
theorem output_fin_open (env : Env) (w : World) {s u m : Nat} (kept : Kept (ledger w) s u m)
    (noFin : Item.fin ∉ w.stream) (few : marks w.stream ≤ 1)
    (waits : FinFits env w ∨ w.tcb.sndUna ≠ w.tcb.seqWrite) :
    (outputFin env w).tcb.sndUna ≠ (outputFin env w).tcb.seqWrite := by
  obtain ⟨s', m', kept', -⟩ := output_fin_kept env w kept noFin few
  have stream := output_fin_stream env w kept noFin few
  have written : u ≤ w.stream.length := kept.sent.trans kept.written
  intro level
  have position : u = (outputFin env w).stream.length := (kept_level kept').mp level
  rw [stream] at position
  obtain fits | apart := waits
  · rw [queued_fin env w fits kept noFin few, List.length_append, List.length_singleton] at position
    omega
  · have grows := queued_grows env w [] TCPF_FIN_ACK kept noFin kept.fits
      (by
        change marks w.stream + 0 + 1 ≤ 2
        omega) (Or.inr (Or.inr rfl))
    have short : u = w.stream.length := by omega
    exact apart ((kept_level kept).mpr short)

-- What a connection in one of the later states goes by: its FIN waits for an ack, or its deletion is set;
-- and only then may the socket be gone.
structure Owned (y : SendSide) : Prop where
  waiting : y.waits → y.ledger.una ≠ y.ledger.write
  deleting : y.state = .finwait2 ∨ y.state = .timewait → y.delete.isSome
  orphan : y.sock = false → y.state.finished

def Own (y : SendSide) : Prop := y.alive → Owned y

-- A call that sends the FIN has room for it, or something else is unacked.
def FinWaits (env : Env) (w : World) (op : Op) : Prop :=
  finishing w op → FinFits env w ∨ w.tcb.sndUna ≠ w.tcb.seqWrite

theorem finished_late (state : TcbState) (finished : state.finished) : TcbState.established.num < state.num := by
  obtain rfl | rfl | rfl | rfl | rfl := finished <;> decide

theorem owned_plain (y : SendSide) (held : y.sock = true) (plain : ¬ y.state.finished) : Owned y := by
  refine ⟨fun waits => (plain ?_).elim, fun late => (plain ?_).elim, fun gone => ?_⟩
  · obtain state | state | state := waits
    · exact Or.inl state
    · exact Or.inr (Or.inr (Or.inl state))
    · exact Or.inr (Or.inr (Or.inr (Or.inl state)))
  · obtain state | state := late
    · exact Or.inr (Or.inl state)
    · exact Or.inr (Or.inr (Or.inr (Or.inr state)))
  · rw [held] at gone
    cases gone

theorem owned_held (y : SendSide) (owned : Owned y) (plain : ¬ y.state.finished) : y.sock = true := by
  cases held : y.sock with
  | true => rfl
  | false => exact (plain (owned.orphan held)).elim

theorem closed_unfinished : ¬ TcbState.finished .closed := by
  rintro (h | h | h | h | h) <;> cases h

theorem ended_own (w w' : World) (owned : Owned (sendSide w)) (ended : Ended w w') : Own (sendSide w') := by
  have closed : (sendSide w').state = .closed := ended.closed
  intro alive
  refine owned_plain _ ?_ (by rw [closed]; exact closed_unfinished)
  change w'.data.sock.isSome = true
  rw [ended.sock]
  cases held : w.data.sock with
  | some so => rfl
  | none =>
      have gone : (sendSide w).sock = false := by
        change w.data.sock.isSome = false
        rw [held]
        rfl
      have late := finished_late _ (owned.orphan gone)
      obtain dead | early := ended.freed held
      · rw [show (sendSide w').alive = false from dead] at alive
        cases alive
      · change TcbState.established.num < w.tcb.state.num at late
        omega

theorem settles_own (tcph : Dgram) (y z : SendSide) (books : Books y)
    (deleting : y.state = .finwait2 ∨ y.state = .timewait → y.delete.isSome)
    (orphan : y.sock = false → y.state.finished) (settles : Settles tcph y z) : Owned z := by
  obtain ⟨s, u, m, kept⟩ := books.kept
  have held : ¬ y.state.finished → y.sock = true := fun plain => by
    cases sock : y.sock with
    | true => rfl
    | false => exact (plain (orphan sock)).elim
  cases settles with
  | stays unacked => exact ⟨fun waits level => unacked waits ((kept_done y kept).mpr level), deleting, orphan⟩
  | closes state =>
      refine owned_plain _ (held ?_) ?_
      · rw [state]
        rintro (h | h | h | h | h) <;> cases h
      · rintro (h | h | h | h | h) <;> cases h
  | crosses state unacked =>
      refine ⟨fun _ level => unacked ((kept_done y kept).mpr level), ?_, fun _ => Or.inr (Or.inr (Or.inl rfl))⟩
      rintro (h | h) <;> cases h
  | halfCloses state acked =>
      refine ⟨?_, fun _ => rfl, fun _ => Or.inr (Or.inl rfl)⟩
      rintro (h | h | h) <;> cases h
  | ends why =>
      refine ⟨?_, fun _ => rfl, fun _ => Or.inr (Or.inr (Or.inr (Or.inr rfl)))⟩
      rintro (h | h | h) <;> cases h
  | deletes state acked sock => exact owned_plain _ sock closed_unfinished
  | opens state half lands =>
      refine owned_plain _ (held ?_) ?_
      · rw [half]
        rintro (h | h | h | h | h) <;> cases h
      · obtain rfl | rfl := lands <;> rintro (h | h | h | h | h) <;> cases h

theorem outcome_own (env : Env) (w w' : World) (pkt : Pkt) (owned : Owned (sendSide w)) (books : Books (sendSide w))
    (sane : Acks env w pkt → ¬ StrayAck w pkt.tcph) (outcome : Outcome env w pkt w') : Own (sendSide w') := by
  obtain ⟨flag, number, -⟩ := gate_seg_keeps_ack env w pkt
  cases outcome with
  | held same =>
      rw [same]
      exact fun _ => owned
  | ended done => exact ended_own w w' owned done
  | gone dead => exact fun alive => by rw [show (sendSide w').alive = false from dead] at alive; cases alive
  | deleted same why =>
      rw [same]
      have held : (sendSide w).sock = true := by
        obtain half | held := why
        · refine owned_held (sendSide w) owned ?_
          rw [show (sendSide w).state = .synrcvd from half]
          rintro (h | h | h | h | h) <;> cases h
        · exact held
      exact fun _ => owned_plain _ held closed_unfinished
  | acked update acks updates settled =>
      have gated := side_gate env w pkt
      have sane' : (gateSeg env w pkt).tcph.flags.ack → ¬ StrayAck (gateConn env w pkt) (gateSeg env w pkt).tcph := by
        intro flagged
        rw [flag] at flagged
        rw [stray_same _ w pkt _ gated number]
        exact sane (acks flagged)
      have books' : Books (sendSide (gateConn env w pkt)) := by
        rw [gated]
        exact books
      have owned' : Owned (sendSide (gateConn env w pkt)) := by
        rw [gated]
        exact owned
      have incomes := incoming_ack env (gateConn env w pkt) (gateSeg env w pkt) update
      have state := incoming_same (·.tcb.state) _ _ incomes fun _ => rfl
      have delete := incoming_same (·.tcb.deleteEvt) _ _ incomes fun _ => rfl
      have sock := incoming_same (·.data.sock.isSome) _ _ incomes fun _ => rfl
      refine fun _ => settles_own pkt.tcph _ _ (ack_books env _ _ update books' sane') ?_ ?_ settled
      · change (tcpAck env _ _ update).tcb.state = _ ∨ (tcpAck env _ _ update).tcb.state = _
          → (tcpAck env _ _ update).tcb.deleteEvt.isSome
        rw [state, delete]
        exact owned'.deleting
      · change (tcpAck env _ _ update).data.sock.isSome = false → (tcpAck env _ _ update).tcb.state.finished
        rw [state, sock]
        exact owned'.orphan
  | joined y state wndack wnd mss opening joins before range same =>
      have plain : ¬ (sendSide w).state.finished := by
        rw [show (sendSide w).state = .synsent from opening]
        rintro (h | h | h | h | h) <;> cases h
      have sock : (sendSide y).sock = (sendSide w).sock := by
        obtain kept | ⟨acks, x, side, rfl⟩ := before
        · rw [kept]
        · rw [← side]
          exact incoming_same (·.data.sock.isSome) x _ (incoming_ack env x _ false) fun _ => rfl
      rw [same]
      refine fun _ => owned_plain _ (sock.trans (owned_held _ owned plain)) ?_
      obtain rfl | rfl := joins <;> rintro (h | h | h | h | h) <;> cases h

theorem runs_owned (w w' : World) (runs : Runs w w') (books : Books (sendSide w)) (owned : Owned (sendSide w)) :
    Owned (sendSide w') := by
  obtain ⟨s, u, m, kept⟩ := books.kept
  obtain ⟨s', m', -, -, kept'⟩ := runs.2 s u m kept
  have state := incoming_same (·.tcb.state) w w' runs.1 fun _ => rfl
  have delete := incoming_same (·.tcb.deleteEvt) w w' runs.1 fun _ => rfl
  have sock := incoming_same (·.data.sock.isSome) w w' runs.1 fun _ => rfl
  have stream : (ledger w').stream = (ledger w).stream := incoming_same (·.stream) w w' runs.1 fun _ => rfl
  refine ⟨fun waits level => ?_, ?_, ?_⟩
  · have position := (kept_level kept').mp level
    rw [stream] at position
    unfold SendSide.waits at waits
    rw [show (sendSide w').state = (sendSide w).state from state] at waits
    exact owned.waiting waits ((kept_level kept).mpr position)
  · change w'.tcb.state = _ ∨ w'.tcb.state = _ → w'.tcb.deleteEvt.isSome
    rw [state, delete]
    exact owned.deleting
  · change w'.data.sock.isSome = false → w'.tcb.state.finished
    rw [state, sock]
    exact owned.orphan

theorem writes_unfinished (state : TcbState) (writes : state.writes) : ¬ state.finished := by
  obtain rfl | rfl | rfl | rfl := writes <;> rintro (h | h | h | h | h) <;> cases h

theorem moves_own (env : Env) (w w' : World) (op : Op) (alive : w.alive) (booked : Booked (sendSide w))
    (own : Own (sendSide w)) (sane : Sane env w op) (waits : FinWaits env w op) (moves : Moves env w op w') :
    Own (sendSide w') := by
  have owned := own alive
  cases moves with
  | same side =>
      rw [side]
      exact own
  | gone dead => exact fun alive => by rw [show (sendSide w').alive = false from dead] at alive; cases alive
  | ended done => exact ended_own w w' owned done
  | deleted held side =>
      rw [side]
      exact fun _ => owned_plain _ held closed_unfinished
  | heard pkt duplicate isSegment notClosed outcome =>
      exact outcome_own env w w' pkt owned (books_of_booked _ booked alive notClosed) (sane pkt duplicate isSegment)
        outcome
  | fired isTimer pending isFired =>
      rw [isFired]
      obtain reset | ⟨books, notListen⟩ := booked alive
      · have idle : (timerDel w).tcb.ostate = .idle := reset.2.1
        rw [tcbOstate, idle]
        exact fun _ => ⟨owned.waiting, owned.deleting, owned.orphan⟩
      · have owned' : Owned (sendSide (timerDel w)) := ⟨owned.waiting, owned.deleting, owned.orphan⟩
        have books' : Books (sendSide (timerDel w)) := ⟨books.kept, books.unfinished⟩
        obtain ⟨x, runs, ended⟩ | runs := timeout_runs env (timerDel w)
        · exact ended_own x _ (runs_owned _ x runs books' owned') ended
        · exact fun _ => runs_owned _ _ runs books' owned'
  | wrote bytes flags asks connects real room noSyn noFin isOutput =>
      have plain := writes_unfinished _ (writes_connected w connects)
      have held : (sendSide w).sock = true := owned_held _ owned plain
      have some : bytes ≠ [] ∨ flags.syn ∨ flags.fin := Or.inl real
      have unwrites := unwritten_queued env w bytes flags
      have state := unwritten_same (·.tcb.state) _ _ unwrites fun _ => rfl
      have sock := unwritten_same (·.data.sock.isSome) _ _ unwrites fun _ => rfl
      have owned' : Owned (sendSide (queued env w bytes flags).2) := by
        refine owned_plain _ (sock.trans held) ?_
        change ¬ (queued env w bytes flags).2.tcb.state.finished
        rw [state]
        exact plain
      rw [isOutput, output_done env w bytes flags some]
      obtain ended | runs := output_done_runs env flags (queued env w bytes flags)
      · exact ended_own _ _ owned' ended
      · have sock' := incoming_same (·.data.sock.isSome) _ _ runs.1 fun _ => rfl
        have state' := incoming_same (·.tcb.state) _ _ runs.1 fun _ => rfl
        refine fun _ => owned_plain _ (sock'.trans (sock.trans held)) ?_
        change ¬ (outputDone env flags (queued env w bytes flags)).tcb.state.finished
        rw [state', state]
        exact plain
  | finished x state sock asks calls side queue net finishes same =>
      obtain ⟨writes, ended⟩ := finishes_writes _ _ finishes
      have notClosed : w.tcb.state ≠ .closed := by
        intro closed
        rw [closed] at writes
        exact writes_closed writes
      have books := books_of_booked _ booked alive notClosed
      obtain ⟨noFin, few⟩ := books.unfinished writes
      have stream : x.stream = w.stream := congrArg (fun y : SendSide => y.ledger.stream) side
      obtain ⟨s, u, m, kept⟩ : ∃ s u m, Kept (ledger x) s u m := by
        rw [show ledger x = ledger w from congrArg SendSide.ledger side]
        exact books.kept
      have late : state = .finwait1 ∨ state = .lastack := by
        unfold TcbState.finishes at finishes
        split at finishes <;> cases finishes <;> simp
      have open' : FinFits env (setState x state) ∨ (setState x state).tcb.sndUna ≠ (setState x state).tcb.seqWrite := by
        obtain fits | apart := waits calls
        · exact Or.inl ((fin_fits_same env w x side queue net).mpr fits)
        · right
          change (ledger x).una ≠ (ledger x).write
          rw [show ledger x = ledger w from congrArg SendSide.ledger side]
          exact apart
      have unacked := output_fin_open env (setState x state) (s := s) (u := u) (m := m) kept
        (by change Item.fin ∉ x.stream; rw [stream]; exact noFin)
        (by change marks x.stream ≤ 1; rw [stream]; exact few) open'
      have kept' : (outputFin env (setState x state)).tcb.state = state :=
        output_state env (setState x state) [] TCPF_FIN_ACK rfl (Or.inr (Or.inr rfl))
      have finished : (outputFin env (setState x state)).tcb.state.finished := by
        rw [kept']
        obtain rfl | rfl := late
        · exact Or.inl rfl
        · exact Or.inr (Or.inr (Or.inr (Or.inl rfl)))
      rw [same]
      refine fun _ => ⟨fun _ => unacked, fun done => ?_, fun _ => finished⟩
      change (outputFin env (setState x state)).tcb.state = _ ∨ (outputFin env (setState x state)).tcb.state = _ at done
      rw [kept'] at done
      obtain rfl | rfl := late <;> rcases done with h | h <;> cases h
  | detached isDetach finishes notClosed notListen notSynsent same =>
      rw [same]
      refine fun _ => ⟨owned.waiting, owned.deleting, fun _ => ?_⟩
      change w.tcb.state.finished
      unfold TcbState.finishes at finishes
      unfold TcbState.finished
      cases state : w.tcb.state <;> simp_all
  | accepted same =>
      rw [same]
      exact fun _ => ⟨owned.waiting, owned.deleting, fun gone => by cases gone⟩
  | resized room low high same =>
      rw [same]
      exact fun _ => ⟨owned.waiting, owned.deleting, owned.orphan⟩

-- This side has sent its FIN, as the last of all; and where nothing more is expected from the peer, it
-- has acked that.
structure FinSent (y : SendSide) : Prop where
  placed : y.state.finished → y.ledger.stream.getLast? = some .fin
  acked : y.state = .finwait2 ∨ y.state = .timewait → y.ledger.una = y.ledger.write

def Fins (y : SendSide) : Prop := y.alive → FinSent y

-- A call that sends the FIN has room for it.
def FinQueued (env : Env) (w : World) (op : Op) : Prop := finishing w op → FinFits env w

theorem fin_plain (y : SendSide) (plain : ¬ y.state.finished) : FinSent y := by
  refine ⟨fun finished => (plain finished).elim, fun late => (plain ?_).elim⟩
  obtain state | state := late
  · exact Or.inr (Or.inl state)
  · exact Or.inr (Or.inr (Or.inr (Or.inr state)))

theorem settles_fin (tcph : Dgram) (y z : SendSide) (books : Books y) (sent : FinSent y)
    (settles : Settles tcph y z) : FinSent z := by
  obtain ⟨s, u, m, kept⟩ := books.kept
  cases settles with
  | stays => exact sent
  | closes state => exact fin_plain _ (by rintro (h | h | h | h | h) <;> cases h)
  | crosses state => exact ⟨fun _ => sent.placed (Or.inl state), by rintro (h | h) <;> cases h⟩
  | halfCloses state acked => exact ⟨fun _ => sent.placed (Or.inl state), fun _ => (kept_done y kept).mp acked⟩
  | ends why =>
      refine ⟨fun _ => sent.placed ?_, fun _ => ?_⟩
      · obtain ⟨state | state, -⟩ | state | state := why
        · exact Or.inl state
        · exact Or.inr (Or.inr (Or.inl state))
        · exact Or.inr (Or.inl state)
        · exact Or.inr (Or.inr (Or.inr (Or.inr state)))
      · obtain ⟨-, acked⟩ | half | waits := why
        · exact (kept_done y kept).mp acked
        · exact sent.acked (Or.inl half)
        · exact sent.acked (Or.inr waits)
  | deletes => exact fin_plain _ closed_unfinished
  | opens state half lands =>
      refine fin_plain _ ?_
      obtain rfl | rfl := lands <;> rintro (h | h | h | h | h) <;> cases h

theorem outcome_fin (env : Env) (w w' : World) (pkt : Pkt) (sent : FinSent (sendSide w)) (books : Books (sendSide w))
    (sane : Acks env w pkt → ¬ StrayAck w pkt.tcph) (outcome : Outcome env w pkt w') : Fins (sendSide w') := by
  obtain ⟨flag, number, -⟩ := gate_seg_keeps_ack env w pkt
  cases outcome with
  | held same =>
      rw [same]
      exact fun _ => sent
  | ended done =>
      refine fun _ => fin_plain _ ?_
      rw [show (sendSide w').state = .closed from done.closed]
      exact closed_unfinished
  | gone dead => exact fun alive => by rw [show (sendSide w').alive = false from dead] at alive; cases alive
  | deleted same why =>
      rw [same]
      exact fun _ => fin_plain _ closed_unfinished
  | acked update acks updates settled =>
      have gated := side_gate env w pkt
      have sane' : (gateSeg env w pkt).tcph.flags.ack → ¬ StrayAck (gateConn env w pkt) (gateSeg env w pkt).tcph := by
        intro flagged
        rw [flag] at flagged
        rw [stray_same _ w pkt _ gated number]
        exact sane (acks flagged)
      have books' : Books (sendSide (gateConn env w pkt)) := by
        rw [gated]
        exact books
      have sent' : FinSent (sendSide (gateConn env w pkt)) := by
        rw [gated]
        exact sent
      have incomes := incoming_ack env (gateConn env w pkt) (gateSeg env w pkt) update
      have state := incoming_same (·.tcb.state) _ _ incomes fun _ => rfl
      have stream := incoming_same (·.stream) _ _ incomes fun _ => rfl
      obtain ⟨s, u, m, kept⟩ := books'.kept
      refine fun _ => settles_fin pkt.tcph _ _ (ack_books env _ _ update books' sane') ⟨?_, fun late => ?_⟩ settled
      · change (tcpAck env _ _ update).tcb.state.finished → (tcpAck env _ _ update).stream.getLast? = _
        rw [state, stream]
        exact sent'.placed
      · change (tcpAck env _ _ update).tcb.state = _ ∨ (tcpAck env _ _ update).tcb.state = _ at late
        rw [state] at late
        exact level_ack env _ _ update kept sane' (sent'.acked late)
  | joined y state wndack wnd mss opening joins before range same =>
      rw [same]
      refine fun _ => fin_plain _ ?_
      obtain rfl | rfl := joins <;> rintro (h | h | h | h | h) <;> cases h

theorem runs_fin (w w' : World) (runs : Runs w w') (books : Books (sendSide w)) (sent : FinSent (sendSide w)) :
    FinSent (sendSide w') := by
  obtain ⟨s, u, m, kept⟩ := books.kept
  obtain ⟨s', m', -, -, kept'⟩ := runs.2 s u m kept
  have state := incoming_same (·.tcb.state) w w' runs.1 fun _ => rfl
  have stream : (ledger w').stream = (ledger w).stream := incoming_same (·.stream) w w' runs.1 fun _ => rfl
  refine ⟨?_, fun late => ?_⟩
  · change w'.tcb.state.finished → (ledger w').stream.getLast? = _
    rw [state, stream]
    exact sent.placed
  · change w'.tcb.state = _ ∨ w'.tcb.state = _ at late
    rw [state] at late
    have position := (kept_level kept).mp (sent.acked late)
    refine (kept_level kept').mpr ?_
    rw [stream]
    exact position

theorem moves_fin (env : Env) (w w' : World) (op : Op) (alive : w.alive) (booked : Booked (sendSide w))
    (fins : Fins (sendSide w)) (sane : Sane env w op) (queues : FinQueued env w op) (moves : Moves env w op w') :
    Fins (sendSide w') := by
  have sent := fins alive
  cases moves with
  | same side =>
      rw [side]
      exact fins
  | gone dead => exact fun alive => by rw [show (sendSide w').alive = false from dead] at alive; cases alive
  | ended done =>
      refine fun _ => fin_plain _ ?_
      rw [show (sendSide w').state = .closed from done.closed]
      exact closed_unfinished
  | deleted held side =>
      rw [side]
      exact fun _ => fin_plain _ closed_unfinished
  | heard pkt duplicate isSegment notClosed outcome =>
      exact outcome_fin env w w' pkt sent (books_of_booked _ booked alive notClosed) (sane pkt duplicate isSegment)
        outcome
  | fired isTimer pending isFired =>
      rw [isFired]
      obtain reset | ⟨books, notListen⟩ := booked alive
      · have idle : (timerDel w).tcb.ostate = .idle := reset.2.1
        rw [tcbOstate, idle]
        exact fun _ => ⟨sent.placed, sent.acked⟩
      · have sent' : FinSent (sendSide (timerDel w)) := ⟨sent.placed, sent.acked⟩
        have books' : Books (sendSide (timerDel w)) := ⟨books.kept, books.unfinished⟩
        obtain ⟨x, runs, ended⟩ | runs := timeout_runs env (timerDel w)
        · refine fun _ => fin_plain _ ?_
          rw [show (sendSide (tcbOstate env (timerDel w) .timeout)).state = .closed from ended.closed]
          exact closed_unfinished
        · exact fun _ => runs_fin _ _ runs books' sent'
  | wrote bytes flags asks connects real room noSyn noFin isOutput =>
      have plain := writes_unfinished _ (writes_connected w connects)
      have some : bytes ≠ [] ∨ flags.syn ∨ flags.fin := Or.inl real
      have state := queued_state env w bytes flags
      rw [isOutput, output_done env w bytes flags some]
      refine fun _ => fin_plain _ ?_
      change ¬ (outputDone env flags (queued env w bytes flags)).tcb.state.finished
      obtain ended | runs := output_done_runs env flags (queued env w bytes flags)
      · rw [ended.closed]
        exact closed_unfinished
      · rw [incoming_same (·.tcb.state) _ _ runs.1 fun _ => rfl, state]
        exact plain
  | finished x state sock asks calls side queue net finishes same =>
      obtain ⟨writes, -⟩ := finishes_writes _ _ finishes
      have books := writes_books w booked alive writes
      obtain ⟨noFin, few⟩ := books.unfinished writes
      have stream : x.stream = w.stream := congrArg (fun y : SendSide => y.ledger.stream) side
      obtain ⟨s, u, m, kept⟩ : ∃ s u m, Kept (ledger x) s u m := by
        rw [show ledger x = ledger w from congrArg SendSide.ledger side]
        exact books.kept
      have noFin' : Item.fin ∉ (setState x state).stream := by
        change Item.fin ∉ x.stream
        rw [stream]
        exact noFin
      have few' : marks (setState x state).stream ≤ 1 := by
        change marks x.stream ≤ 1
        rw [stream]
        exact few
      have fits : FinFits env (setState x state) := (fin_fits_same env w x side queue net).mpr (queues calls)
      have placed := output_fin_stream env (setState x state) (s := s) (u := u) (m := m) kept noFin' few'
      rw [queued_fin env (setState x state) fits (s := s) (u := u) (m := m) kept noFin' few'] at placed
      have here : (outputFin env (setState x state)).tcb.state = state :=
        output_state env (setState x state) [] TCPF_FIN_ACK rfl (Or.inr (Or.inr rfl))
      rw [same]
      refine fun _ => ⟨fun _ => ?_, fun late => ?_⟩
      · change (outputFin env (setState x state)).stream.getLast? = _
        rw [placed, List.getLast?_concat]
      · change (outputFin env (setState x state)).tcb.state = _ ∨ (outputFin env (setState x state)).tcb.state = _ at late
        rw [here] at late
        unfold TcbState.finishes at finishes
        split at finishes <;> cases finishes <;> rcases late with h | h <;> cases h
  | detached isDetach finishes notClosed notListen notSynsent same =>
      rw [same]
      exact fun _ => ⟨sent.placed, sent.acked⟩
  | accepted same =>
      rw [same]
      exact fun _ => ⟨sent.placed, sent.acked⟩
  | resized room low high same =>
      rw [same]
      exact fun _ => ⟨sent.placed, sent.acked⟩

-- What an ack deletes from LASTACK, it acks to the end.
theorem lastack_leaves (env : Env) (w : World) (pkt : Pkt) (duplicate : Bool) (alive : w.alive)
    (state : w.tcb.state = .lastack) (books : Books (sendSide w)) (owned : Owned (sendSide w))
    (sane : Acks env w pkt → ¬ StrayAck w pkt.tcph)
    (welcome : unwelcome (gateConn env w pkt) (gateSeg env w pkt) = false)
    (leaves : ¬ ((inputFound env w pkt duplicate).alive ∧ (inputFound env w pkt duplicate).tcb.state = .lastack)) :
    ackOf pkt.tcph = some w.tcb.seqWrite := by
  obtain ⟨flag, number, -⟩ := gate_seg_keeps_ack env w pkt
  have here := (gate_conn_state env w pkt).trans state
  cases through : accepted env w pkt with
  | false =>
      have same := refused_side env w pkt duplicate through
      exact (leaves ⟨(congrArg SendSide.alive same).trans alive, (congrArg SendSide.state same).trans state⟩).elim
  | true =>
      rw [input_found_accepted env w pkt duplicate through, tcbState, here] at leaves
      dsimp only at leaves
      rw [tcbsLastack, if_neg (by rw [welcome]; exact Bool.false_ne_true)] at leaves
      have gated := side_gate env w pkt
      obtain ⟨s, u, m, kept⟩ : ∃ s u m, Kept (ledger (gateConn env w pkt)) s u m := by
        rw [show ledger (gateConn env w pkt) = ledger w from congrArg SendSide.ledger gated]
        exact books.kept
      have heard := welcome_hears env _ _ welcome (Or.inr (Or.inr (Or.inr (Or.inl here))))
      obtain ⟨s', u', m', -, -, -, from', kept'⟩ := ack_keeps env _ (gateSeg env w pkt) false kept fun flagged => by
        rw [flag] at flagged
        rw [stray_same _ w pkt _ gated number]
        exact sane ⟨through, flagged, heard⟩
      have incomes := incoming_ack env (gateConn env w pkt) (gateSeg env w pkt) false
      have stream := incoming_same (·.stream) _ _ incomes fun _ => rfl
      have write := incoming_same (·.tcb.seqWrite) _ _ incomes fun _ => rfl
      have before : (gateConn env w pkt).tcb.seqWrite = w.tcb.seqWrite :=
        congrArg (fun y : SendSide => y.ledger.write) gated
      by_cases acked : finAcked (tcpAck env (gateConn env w pkt) (gateSeg env w pkt) false)
      · have level := (kept_level kept').mp ((kept_done (sendSide (tcpAck env _ _ false)) kept').mp acked)
        have apart : u ≠ (gateConn env w pkt).stream.length := by
          intro position
          refine owned.waiting (Or.inr (Or.inr state)) ?_
          rw [← gated]
          exact (kept_level kept).mpr position
        change u' = (tcpAck env _ _ false).stream.length at level
        rw [stream] at level
        obtain same | acks := from'
        · exact (apart (same.symm.trans level)).elim
        · have ends : (tcpAck env (gateConn env w pkt) (gateSeg env w pkt) false).tcb.seqWrite
              = place (ledger (tcpAck env (gateConn env w pkt) (gateSeg env w pkt) false)).isn u' := by
            rw [level, ← stream]
            exact kept'.write
          rw [← ends, write, before] at acks
          unfold ackOf
          rw [← flag, ← number]
          exact acks
      · rw [lastackDone, if_neg acked] at leaves
        have alive' := incoming_same (·.alive) _ _ incomes fun _ => rfl
        have before' : (gateConn env w pkt).alive = w.alive := congrArg SendSide.alive gated
        exact (leaves ⟨alive'.trans (before'.trans alive), (ack_state env _ _ false).trans here⟩).elim

theorem fin_waits_of_queued (env : Env) (w : World) (op : Op) (queues : FinQueued env w op) : FinWaits env w op :=
  fun calls => Or.inl (queues calls)

theorem start_held (w : World) (start : Start w) : (sendSide w).sock = true ∧ ¬ (sendSide w).state.finished := by
  obtain ⟨env, x, flags, state, opening, syn, fin, urg, states, same⟩ := start_opening w start
  rw [same]
  refine ⟨(congrArg Option.isSome (output_sock env x [] flags urg (Or.inr (Or.inl syn)))).trans opening.sock, ?_⟩
  obtain rfl | ⟨-, rfl⟩ := states <;> rintro (h | h | h | h | h) <;> cases h

theorem reach_own (allowed : Env → World → Op → Prop)
    (ok : ∀ env w op, allowed env w op → Sane env w op ∧ FinWaits env w op) (w : World) (reached : Reach allowed w) :
    Booked (sendSide w) ∧ Own (sendSide w) := by
  refine reach_invariant allowed (fun w => Booked (sendSide w) ∧ Own (sendSide w)) ?_ ?_ w reached
  · intro w start
    obtain ⟨held, plain⟩ := start_held w start
    exact ⟨start_booked w start, fun _ => owned_plain _ held plain⟩
  · rintro env w op ⟨booked, own⟩ may
    obtain ⟨sane, waits⟩ := ok env w op may
    refine ⟨step_booked env w op booked sane, ?_⟩
    unfold step
    split
    · rename_i alive
      exact moves_own env w _ op alive booked own sane waits (net_moves env w op (booked_not_listen w alive booked))
    · exact own

theorem reach_fin (allowed : Env → World → Op → Prop)
    (ok : ∀ env w op, allowed env w op → Sane env w op ∧ FinQueued env w op) (w : World) (reached : Reach allowed w) :
    Booked (sendSide w) ∧ Fins (sendSide w) := by
  refine reach_invariant allowed (fun w => Booked (sendSide w) ∧ Fins (sendSide w)) ?_ ?_ w reached
  · intro w start
    obtain ⟨-, plain⟩ := start_held w start
    exact ⟨start_booked w start, fun _ => fin_plain _ plain⟩
  · rintro env w op ⟨booked, fins⟩ may
    obtain ⟨sane, queues⟩ := ok env w op may
    refine ⟨step_booked env w op booked sane, ?_⟩
    unfold step
    split
    · rename_i alive
      exact moves_fin env w _ op alive booked fins sane queues (net_moves env w op (booked_not_listen w alive booked))
    · exact fins

-- The FIN of this side stands at the end of the sequence space, seq_write - 1.
def FinPlaced (w : World) : Prop :=
  w.stream.getLast? = some .fin ∧ w.tcb.seqWrite = place w.tcb.sndIsn w.stream.length

-- A connection has sent its FIN in the later states, and a segment has acked it where nothing more is expected.
structure OwnFin (ops : List Op) (w : World) : Prop where
  placed : w.tcb.state.finished → FinPlaced w
  acked : w.tcb.state = .finwait2 ∨ w.tcb.state = .timewait → Heard ops w.tcb.seqWrite
  deleted : ∀ env pkt duplicate, Sane env w (.segment pkt duplicate) → w.tcb.state = .lastack →
    unwelcome (gateConn env w pkt) (gateSeg env w pkt) = false →
    ¬ ((step env w (.segment pkt duplicate)).alive ∧ (step env w (.segment pkt duplicate)).tcb.state = .lastack) →
    ackOf pkt.tcph = some w.tcb.seqWrite

-- As long as each FIN finds room, whatever else fails.
theorem own_fin (ops : List Op) (w : World) (ran : Ran (fun env w op => Sane env w op ∧ FinQueued env w op) ops w)
    (alive : w.alive) : OwnFin ops w := by
  have reached := ran_reach _ ops w ran
  obtain ⟨booked, fins⟩ := reach_fin _ (fun _ _ _ ok => ok) w reached
  have own := (reach_own _ (fun env w op ok => ⟨ok.1, fin_waits_of_queued env w op ok.2⟩) w reached).2
  have books : w.tcb.state.finished → Books (sendSide w) := by
    intro finished
    refine books_of_booked _ booked alive fun closed => closed_unfinished ?_
    rw [← closed]
    exact finished
  refine ⟨fun finished => ?_, fun late => ?_, fun env pkt duplicate sane state welcome leaves => ?_⟩
  · obtain ⟨s, u, m, kept⟩ := (books finished).kept
    exact ⟨(fins alive).placed finished, kept.write⟩
  · have finished : w.tcb.state.finished := by
      obtain state | state := late
      · exact Or.inr (Or.inl state)
      · exact Or.inr (Or.inr (Or.inr (Or.inr state)))
    have notClosed : w.tcb.state ≠ .closed := by
      intro closed
      rw [closed] at finished
      exact closed_unfinished finished
    have level : w.tcb.sndUna = w.tcb.seqWrite := (fins alive).acked late
    obtain ⟨s, u, m, kept, first | heard⟩ := ran_ack_heard _ (fun _ _ _ ok => ok.1) ops w ran alive notClosed
    · have position : u = w.stream.length := (kept_level kept).mp level
      have last : w.stream.getLast? = some .fin := (fins alive).placed finished
      have empty : w.stream = [] := List.length_eq_zero_iff.mp (by omega)
      rw [empty] at last
      cases last
    · rw [← level]
      exact heard
  · refine lastack_leaves env w pkt duplicate alive state
      (books (by rw [state]; exact Or.inr (Or.inr (Or.inr (Or.inl rfl))))) (own alive) (sane pkt duplicate rfl) welcome ?_
    unfold step at leaves
    rw [if_pos alive] at leaves
    exact leaves

def noMemory : Env := { plainEnv with memory := fun _ => false }

theorem own_fin_shutdown : ∃ ops, OwnFin ops (step plainEnv (openConn 5000) (.shutdown 1)) := by
  obtain ⟨ops, ran⟩ := reach_ran _ _ (reach_open (fun env w op => Sane env w op ∧ FinQueued env w op) 5000
    ⟨sane_open 5000, fun calls => by cases calls⟩)
  refine ⟨_, own_fin (.shutdown 1 :: ops) _ (.step plainEnv (openConn 5000) (.shutdown 1) ops ran ⟨?_, ?_⟩) (by decide +kernel)⟩
  · intro pkt duplicate same
    cases same
  · exact fun _ => Or.inr (by decide +kernel : plainEnv.memory (openConn 5000).net.allocs = true)

-- The connection is shut down while there is no memory, and the peer sends an ack of what was sent before.
def finless : World :=
  steps (openConn 5000) [(noMemory, .shutdown 1), (plainEnv, .segment (peerSeg 5001 1001 TCPF_ACK 5000 0 []) false)]

theorem own_fin_lost :
    ∃ ops, Ran (fun _ _ _ => True) ops finless ∧ finless.alive ∧ finless.tcb.state = .finwait2
      ∧ ¬ OwnFin ops finless := by
  obtain ⟨ops, ran⟩ := reach_ran _ _ (reach_steps (openConn 5000) [(noMemory, .shutdown 1),
    (plainEnv, .segment (peerSeg 5001 1001 TCPF_ACK 5000 0 []) false)] (reach_open _ 5000 trivial))
  refine ⟨ops, ran, by decide +kernel, by decide +kernel, fun own => ?_⟩
  have last : finless.stream.getLast? = some .fin := (own.placed (Or.inr (Or.inl (by decide +kernel)))).1
  exact absurd last (by decide +kernel)

-- A connection without a socket is freed, or an event is pending that will end it.
def Reclaimed (w : World) : Prop := w.alive → w.data.sock = none → w.tcb.timerEvt.isSome ∨ w.tcb.deleteEvt.isSome

-- A closed connection without a socket is freed at once; in the later states either the deletion is set or
-- this side still waits for an ack, and then its timer runs.
theorem orphan_reclaimed (w : World)
    (reached : Reach (fun env w op => Sane env w op ∧ Near w op ∧ FinWaits env w op) w) : Reclaimed w := by
  intro alive gone
  have owned := (reach_own _ (fun env w op ok => ⟨ok.1, ok.2.2⟩) w reached).2 alive
  have live := (reach_live w (reach_weaken _ _ (fun env w op ok => ⟨ok.1, ok.2.1⟩) w reached)).2 alive
  have sock : (sendSide w).sock = false := by
    change w.data.sock.isSome = false
    rw [gone]
    rfl
  have finished := owned.orphan sock
  have calm := (live fun closed => closed_unfinished (by rw [← closed]; exact finished)).calm
  have timed : (sendSide w).waits → w.tcb.timerEvt.isSome := by
    intro waits
    obtain ⟨-, level⟩ | ⟨goes, -⟩ := calm
    · exact (owned.waiting waits level).elim
    · exact goes.2
  obtain state | state | state | state | state := finished
  · exact Or.inl (timed (Or.inl state))
  · exact Or.inr (owned.deleting (Or.inl state))
  · exact Or.inl (timed (Or.inr (Or.inl state)))
  · exact Or.inl (timed (Or.inr (Or.inr state)))
  · exact Or.inr (owned.deleting (Or.inr state))

theorem orphan_reclaimed_detach : Reclaimed (step plainEnv (openConn 5000) .detach) := by
  have opens := reach_open (fun env w op => Sane env w op ∧ Near w op ∧ FinWaits env w op) 5000
    ⟨sane_open 5000, (fun asks => by cases asks), (fun calls => by cases calls)⟩
  refine orphan_reclaimed _ (.step plainEnv (openConn 5000) .detach opens ⟨?_, ?_, ?_⟩)
  · intro pkt duplicate same
    cases same
  · exact fun _ _ => by decide +kernel
  · exact fun _ => Or.inl (Or.inr (by decide +kernel : plainEnv.memory (openConn 5000).net.allocs = true))

-- The socket is closed while there is no memory and nothing is outstanding.
def orphan : World := steps (openConn 5000) [(noMemory, .detach)]

theorem orphan_lost :
    Reach (fun _ _ _ => True) orphan ∧ orphan.alive ∧ orphan.data.sock = none ∧ ¬ Reclaimed orphan := by
  refine ⟨reach_steps _ _ (reach_open _ 5000 trivial), by decide +kernel, by decide +kernel, fun reclaimed => ?_⟩
  have pending := reclaimed (by decide +kernel) (by decide +kernel)
  exact absurd pending (by decide +kernel)

end MagxNet.Tcp
