import MagxNet.Tcp.Opening

set_option autoImplicit false

namespace MagxNet.Tcp

open Bytes Serial

theorem antipode (x y : Seq) (before : SEQLT x y) (after : SEQLE y x) : y = x + 0x80000000#32 := by
  unfold SEQLT lt at before
  unfold SEQLE le at after
  have least : y - x = BitVec.intMin 32 := by
    by_contra other
    have back : x - y = -(y - x) := by abel
    rw [back, BitVec.toInt_neg_of_ne_intMin other] at before
    omega
  rw [← BitVec.sub_add_cancel y x, least, BitVec.add_comm]
  rfl

-- An ack of something new that was sent takes snd_una to a position between the two.
theorem kept_ack {l : Ledger} {s u m : Nat} (kept : Kept l s u m) (ack : Seq) (new : SEQLT l.una ack)
    (sent : SEQLE ack l.max) (sane : ¬ (l.una = l.max ∧ ack = l.una + 0x80000000#32)) :
    ∃ j, u < j ∧ j ≤ m ∧ ack = place l.isn j ∧ Kept { l with una := ack } s j m := by
  have near := kept.near
  have unacked := kept.unacked
  have order := kept.sent
  have written := kept.written
  have behind : u < m := by
    by_contra level
    have same : u = m := by omega
    have meet : l.una = l.max := by rw [kept.una, kept.max, same]
    rw [← meet] at sent
    exact sane ⟨meet, antipode _ _ new sent⟩
  rw [kept.una] at new
  rw [kept.max] at sent
  obtain ⟨j, low, high, isAck⟩ := between_le_le l.isn ack u m (by omega) (by omega) (le_of_lt _ _ new) sent
  have position : ack = place l.isn j.toNat := by
    rw [Int.toNat_of_nonneg (by omega)]
    exact isAck
  have later : u < j.toNat := by
    rw [isAck] at new
    have step := lt_of_place_lt l.isn u j low new
    omega
  refine ⟨j.toNat, later, by omega, position, { kept with una := position, unacked := by omega, sent := by omega }⟩

theorem kept_level {l : Ledger} {s u m : Nat} (kept : Kept l s u m) : l.una = l.write ↔ u = l.stream.length := by
  have near := kept.near
  have unacked := kept.unacked
  have written := kept.sent.trans kept.written
  constructor
  · intro level
    by_contra apart
    have before : SEQLT l.una l.write := by
      rw [kept.una, kept.write, seq_lt_near _ _ _ (by omega) (by omega)]
      omega
    rw [level] at before
    exact lt_irrefl _ before
  · intro level
    rw [kept.una, kept.write, level]

theorem kept_all_acked (w : World) {s u m : Nat} (kept : Kept (ledger w) s u m) :
    allAcked w ↔ w.tcb.sndUna = w.tcb.seqWrite := by
  have near := kept.near
  have unacked := kept.unacked
  have written := kept.sent.trans kept.written
  change ¬ SEQLT (ledger w).una (ledger w).write ↔ (ledger w).una = (ledger w).write
  rw [kept_level kept, kept.una, kept.write, seq_lt_near _ _ _ (by omega) (by omega)]
  omega

theorem kept_done (y : SendSide) {s u m : Nat} (kept : Kept y.ledger s u m) :
    y.done ↔ y.ledger.una = y.ledger.write := by
  have near := kept.near
  have unacked := kept.unacked
  have written := kept.sent.trans kept.written
  unfold SendSide.done
  rw [kept_level kept, kept.una, kept.write, seq_le_near _ _ _ (by omega) (by omega)]
  omega

theorem ledger_sndwnd (w : World) (tcph : Dgram) : ledger (tcpSndwnd w tcph) = ledger w := by
  unfold tcpSndwnd noteWndmax
  split <;> rfl

-- An ack for the number opposite to snd_una, when nothing is outstanding, reads as new and as sent.
def StrayAck (w : World) (tcph : Dgram) : Prop :=
  w.tcb.sndUna = w.tcb.sndMax ∧ tcph.ack = w.tcb.sndUna + 0x80000000#32

-- How the ledger may look after an ack.
def AckKept (l : Ledger) (ack : Option Seq) (s u m : Nat) : Prop :=
  ∃ s' u' m', s ≤ s' ∧ u ≤ u' ∧ m ≤ m' ∧ (u' = u ∨ ack = some (place l.isn u')) ∧ Kept l s' u' m'

theorem ack_kept_of_keeps (l l' : Ledger) (ack : Option Seq) {s u m : Nat} (keeps : Keeps l l') (kept : Kept l s u m) :
    AckKept l' ack s u m := by
  obtain ⟨s', m', low, later, kept'⟩ := keeps s u m kept
  exact ⟨s', u, m', low, le_refl u, later, Or.inl rfl, kept'⟩

theorem place_keeps (env : Env) (x : World) (pkt : Pkt) (osndWnd : Int) {s u m : Nat} (kept : Kept (ledger x) s u m)
    (sane : ¬ StrayAck x pkt.tcph) : AckKept (ledger (ackPlace env x pkt osndWnd)) (some pkt.tcph.ack) s u m := by
  unfold ackPlace
  split
  · have same : ∀ y, sendSide y = sendSide x → AckKept (ledger y) (some pkt.tcph.ack) s u m := by
      intro y side
      exact ack_kept_of_keeps _ _ _ (keeps_of_eq _ _ (congrArg SendSide.ledger side)) kept
    split
    · exact same _ (side_sndrst env x pkt)
    · exact same _ (side_of_outgoing _ _ (outgoing_sndack env x pkt))
  · rename_i sent
    split
    · rename_i new
      obtain ⟨j, later, -, isAck, kept'⟩ := kept_ack kept pkt.tcph.ack new (not_not.mp sent) sane
      obtain ⟨s', m', low, high, done⟩ :=
        keeps_ostate env (setUna x pkt.tcph.ack) .ackrcvd (by decide) s j m kept'
      have isn : (ledger (tcbOstate env (setUna x pkt.tcph.ack) .ackrcvd)).isn = (ledger x).isn :=
        steady_same (·.tcb.sndIsn) (setUna x pkt.tcph.ack) _
          (steady_ostate env (setUna x pkt.tcph.ack) .ackrcvd (by decide)) fun _ => rfl
      refine ⟨s', j, m', low, by omega, high, Or.inr ?_, done⟩
      change _ = some (place (ledger (tcbOstate env (setUna x pkt.tcph.ack) .ackrcvd)).isn j)
      rw [isn, isAck]
    · split
      · exact ack_kept_of_keeps _ _ _ (keeps_of_eq _ _ rfl) kept
      · split
        · exact ack_kept_of_keeps _ _ _ (keeps_ostate env (setDupacks x (x.tcb.dupacks + 1)) .dupack (by decide)) kept
        · exact ack_kept_of_keeps _ _ _ (keeps_of_eq _ _ rfl) kept

theorem ack_keeps (env : Env) (x : World) (pkt : Pkt) (update : Bool) {s u m : Nat} (kept : Kept (ledger x) s u m)
    (sane : pkt.tcph.flags.ack → ¬ StrayAck x pkt.tcph) :
    AckKept (ledger (tcpAck env x pkt update)) (if pkt.tcph.flags.ack then some pkt.tcph.ack else none) s u m := by
  unfold tcpAck
  split
  · exact ack_kept_of_keeps _ _ _ (keeps_of_eq _ _ rfl) kept
  · rename_i acks
    rw [if_pos (not_not.mp acks)]
    have here := sane (not_not.mp acks)
    split
    · unfold ackUpdating
      rw [← ledger_sndwnd x pkt.tcph] at kept
      have here' : ¬ StrayAck (tcpSndwnd x pkt.tcph) pkt.tcph := by
        have same := ledger_sndwnd x pkt.tcph
        have una : (tcpSndwnd x pkt.tcph).tcb.sndUna = x.tcb.sndUna := congrArg Ledger.una same
        have max : (tcpSndwnd x pkt.tcph).tcb.sndMax = x.tcb.sndMax := congrArg Ledger.max same
        unfold StrayAck
        rw [una, max]
        exact here
      obtain ⟨s', u', m', low, later, high, number, placed⟩ :=
        place_keeps env (tcpSndwnd x pkt.tcph) pkt x.tcb.sndWnd kept here'
      obtain ⟨s'', m'', low', high', told⟩ := keeps_window_event env _ x pkt.tcph s' u' m' placed
      have isn : (ledger (tcbOstate env (ackPlace env (tcpSndwnd x pkt.tcph) pkt x.tcb.sndWnd)
          (windowEvent x pkt.tcph))).isn = (ledger (ackPlace env (tcpSndwnd x pkt.tcph) pkt x.tcb.sndWnd)).isn :=
        steady_same (·.tcb.sndIsn) _ _ (steady_window_event env _ x pkt.tcph) fun _ => rfl
      rw [← isn] at number
      exact ⟨s'', u', m'', by omega, later, by omega, number, told⟩
    · exact place_keeps env x pkt x.tcb.sndWnd kept here

theorem level_ack (env : Env) (x : World) (pkt : Pkt) (update : Bool) {s u m : Nat} (kept : Kept (ledger x) s u m)
    (sane : pkt.tcph.flags.ack → ¬ StrayAck x pkt.tcph) (level : x.tcb.sndUna = x.tcb.seqWrite) :
    (tcpAck env x pkt update).tcb.sndUna = (tcpAck env x pkt update).tcb.seqWrite := by
  obtain ⟨s', u', m', -, later, -, -, kept'⟩ := ack_keeps env x pkt update kept sane
  have stream : (ledger (tcpAck env x pkt update)).stream = (ledger x).stream :=
    incoming_same (·.stream) x _ (incoming_ack env x pkt update) fun _ => rfl
  have position := (kept_level kept).mp level
  have unacked := kept'.sent
  have written := kept'.written
  rw [stream] at written
  refine (kept_level kept').mpr ?_
  rw [stream]
  omega

-- As long as this side may write, it has not sent its FIN.
def TcbState.writes (state : TcbState) : Prop :=
  state = .synsent ∨ state = .synrcvd ∨ state = .established ∨ state = .closewait

-- The sending side is in order, and what this side may still write goes behind bytes and at most a SYN.
structure Books (y : SendSide) : Prop where
  kept : ∃ s u m, Kept y.ledger s u m
  unfinished : y.state.writes → Item.fin ∉ y.ledger.stream ∧ marks y.ledger.stream ≤ 1

-- The connection was reset.
def SendSide.wasReset (y : SendSide) : Prop := y.state = .closed ∧ y.ostate = .idle ∧ y.ledger.segs = [] ∧ y.ledger.count = 0

def Booked (y : SendSide) : Prop := y.alive → y.wasReset ∨ Books y ∧ y.state ≠ .listen

theorem writes_closed : ¬ TcbState.writes .closed := by
  rintro (h | h | h | h) <;> cases h

theorem books_of_booked (y : SendSide) (booked : Booked y) (alive : y.alive) (notClosed : y.state ≠ .closed) :
    Books y := by
  obtain reset | ⟨books, -⟩ := booked alive
  · exact (notClosed reset.1).elim
  · exact books

theorem ended_reset (w w' : World) (ended : Ended w w') : (sendSide w').wasReset :=
  ⟨ended.closed, ended.idle, List.map_eq_nil_iff.mpr ended.cleared.1, ended.cleared.2⟩

theorem ended_booked (w w' : World) (ended : Ended w w') : Booked (sendSide w') := fun _ => Or.inl (ended_reset w w' ended)

theorem runs_books (w w' : World) (runs : Runs w w') (books : Books (sendSide w)) : Books (sendSide w') where
  kept := by
    obtain ⟨s, u, m, kept⟩ := books.kept
    obtain ⟨s', m', -, -, kept'⟩ := runs.2 s u m kept
    exact ⟨s', u, m', kept'⟩
  unfinished := by
    have state := incoming_same (·.tcb.state) w w' runs.1 fun _ => rfl
    have stream := incoming_same (·.stream) w w' runs.1 fun _ => rfl
    intro writes
    change w'.tcb.state.writes at writes
    change Item.fin ∉ w'.stream ∧ marks w'.stream ≤ 1
    rw [state] at writes
    rw [stream]
    exact books.unfinished writes

theorem settles_booked (tcph : Dgram) (y z : SendSide) (books : Books y) (notListen : y.state ≠ .listen)
    (settles : Settles tcph y z) : Booked z := by
  intro _
  right
  cases settles with
  | stays => exact ⟨books, notListen⟩
  | closes state =>
      refine ⟨⟨books.kept, fun _ => books.unfinished (Or.inr (Or.inr (Or.inl state)))⟩, ?_⟩
      simp
  | crosses state => exact ⟨⟨books.kept, by rintro (h | h | h | h) <;> cases h⟩, by simp⟩
  | halfCloses state => exact ⟨⟨books.kept, by rintro (h | h | h | h) <;> cases h⟩, by simp⟩
  | ends state => exact ⟨⟨books.kept, by rintro (h | h | h | h) <;> cases h⟩, by simp⟩
  | deletes state => exact ⟨⟨books.kept, fun writes => (writes_closed writes).elim⟩, by simp⟩
  | opens state half lands =>
      refine ⟨⟨books.kept, fun _ => books.unfinished (Or.inr (Or.inl half))⟩, ?_⟩
      obtain rfl | rfl := lands <;> simp

theorem ack_books (env : Env) (x : World) (pkt : Pkt) (update : Bool) (books : Books (sendSide x))
    (sane : pkt.tcph.flags.ack → ¬ StrayAck x pkt.tcph) : Books (sendSide (tcpAck env x pkt update)) where
  kept := by
    obtain ⟨s, u, m, kept⟩ := books.kept
    obtain ⟨s', u', m', -, -, -, -, kept'⟩ := ack_keeps env x pkt update kept sane
    exact ⟨s', u', m', kept'⟩
  unfinished := by
    have stream := incoming_same (·.stream) x _ (incoming_ack env x pkt update) fun _ => rfl
    intro writes
    change (tcpAck env x pkt update).tcb.state.writes at writes
    change Item.fin ∉ (tcpAck env x pkt update).stream ∧ marks (tcpAck env x pkt update).stream ≤ 1
    rw [ack_state] at writes
    rw [stream]
    exact books.unfinished writes

-- Acks are for what was sent.
def Sane (env : Env) (w : World) (op : Op) : Prop :=
  ∀ pkt duplicate, op = .segment pkt duplicate → Acks env w pkt → ¬ StrayAck w pkt.tcph

theorem stray_same (x w : World) (pkt pkt' : Pkt) (side : sendSide x = sendSide w)
    (number : pkt'.tcph.ack = pkt.tcph.ack) : StrayAck x pkt'.tcph ↔ StrayAck w pkt.tcph := by
  have una : x.tcb.sndUna = w.tcb.sndUna := congrArg (fun y : SendSide => y.ledger.una) side
  have max : x.tcb.sndMax = w.tcb.sndMax := congrArg (fun y : SendSide => y.ledger.max) side
  unfold StrayAck
  rw [una, max, number]

theorem outcome_booked (env : Env) (w w' : World) (pkt : Pkt) (books : Books (sendSide w))
    (notListen : w.tcb.state ≠ .listen) (sane : Acks env w pkt → ¬ StrayAck w pkt.tcph)
    (outcome : Outcome env w pkt w') : Booked (sendSide w') := by
  obtain ⟨flag, number, -⟩ := gate_seg_keeps_ack env w pkt
  cases outcome with
  | held same =>
      rw [same]
      exact fun _ => Or.inr ⟨books, notListen⟩
  | ended done => exact ended_booked w w' done
  | gone dead => exact fun alive => by rw [show (sendSide w').alive = false from dead] at alive; cases alive
  | deleted same =>
      rw [same]
      exact fun _ => Or.inr ⟨⟨books.kept, fun writes => (writes_closed writes).elim⟩, by simp⟩
  | acked update acks updates settled =>
      have gated := side_gate env w pkt
      have books' : Books (sendSide (gateConn env w pkt)) := by
        rw [gated]
        exact books
      refine settles_booked pkt.tcph _ _ (ack_books env _ _ update books' fun flagged => ?_) ?_ settled
      · rw [flag] at flagged
        rw [stray_same _ w pkt _ gated number]
        exact sane (acks flagged)
      · change (tcpAck env _ _ update).tcb.state ≠ .listen
        rw [ack_state, gate_conn_state]
        exact notListen
  | joined y state wndack wnd mss opening joins before range same =>
      have books' : Books (sendSide y) := by
        obtain kept | ⟨acks, x, side, rfl⟩ := before
        · rw [kept]
          exact books
        · refine ack_books env x _ false ?_ fun _ => ?_
          · rw [side]
            exact books
          · rw [stray_same x w pkt _ side number]
            exact sane acks
      have writes : y.tcb.state.writes := by
        obtain kept | ⟨acks, x, side, rfl⟩ := before
        · rw [show y.tcb.state = w.tcb.state from congrArg SendSide.state kept, opening]
          exact Or.inl rfl
        · rw [ack_state, show x.tcb.state = w.tcb.state from congrArg SendSide.state side, opening]
          exact Or.inl rfl
      have sized : ∃ s u m, Kept { (sendSide y).ledger with mss := mss } s u m := by
        obtain ⟨s, u, m, kept⟩ := books'.kept
        obtain ⟨s0, u0, m0, kept0⟩ := books.kept
        refine ⟨s, u, m, { kept with mss := ?_ }⟩
        obtain unchanged | within := range kept0.room.2 kept0.room.1
        · rw [unchanged]
          exact kept0.mss
        · exact within
      rw [same]
      refine fun _ => Or.inr ⟨⟨sized, fun _ => books'.unfinished writes⟩, ?_⟩
      obtain rfl | rfl := joins <;> simp

theorem queued_state (env : Env) (w : World) (bytes : List Byte) (flags : Flags) :
    (queued env w bytes flags).2.tcb.state = w.tcb.state :=
  unwritten_same (·.tcb.state) _ _ (unwritten_queued env w bytes flags) fun _ => rfl

theorem queued_books (env : Env) (w : World) (bytes : List Byte) (flags : Flags) (books : Books (sendSide w))
    (noFin : Item.fin ∉ w.stream) (few : marks w.stream ≤ 1)
    (fits : dataLen (ledger w).segs + bytes.length ≤ 65535) (some : bytes ≠ [] ∨ flags.syn ∨ flags.fin)
    (opens : flags.syn → w.stream = []) (ends : flags.fin → ¬ w.tcb.state.writes) :
    Books (sendSide (queued env w bytes flags).2) := by
  obtain ⟨s, u, m, kept⟩ := books.kept
  have few' := queued_few w flags few opens
  refine ⟨⟨s, u, m, queued_kept env w bytes flags kept noFin fits few' some⟩, fun writes => ?_⟩
  change (queued env w bytes flags).2.tcb.state.writes at writes
  rw [queued_state] at writes
  exact queued_unfinished env w bytes flags kept noFin fits few opens
    (Bool.eq_false_iff.mpr fun fin => ends fin writes) some

theorem output_booked (env : Env) (w : World) (bytes : List Byte) (flags : Flags) (books : Books (sendSide w))
    (notListen : w.tcb.state ≠ .listen) (noFin : Item.fin ∉ w.stream) (few : marks w.stream ≤ 1)
    (fits : dataLen (ledger w).segs + bytes.length ≤ 65535) (some : bytes ≠ [] ∨ flags.syn ∨ flags.fin)
    (opens : flags.syn → w.stream = []) (ends : flags.fin → ¬ w.tcb.state.writes) :
    Booked (sendSide (tcpOutput env w bytes flags).2) := by
  have books' := queued_books env w bytes flags books noFin few fits some opens ends
  rw [output_done env w bytes flags some]
  obtain ended | runs := output_done_runs env flags (queued env w bytes flags)
  · exact ended_booked _ _ ended
  · refine fun _ => Or.inr ⟨runs_books _ _ runs books', ?_⟩
    have state := (incoming_same (·.tcb.state) _ _ runs.1 fun _ => rfl).trans (queued_state env w bytes flags)
    change (outputDone env flags (queued env w bytes flags)).tcb.state ≠ .listen
    rw [state]
    exact notListen

theorem writes_connected (w : World) (connects : connected w) : w.tcb.state.writes := by
  unfold connected at connects
  obtain state | state := by simpa using connects
  · exact Or.inr (Or.inr (Or.inl state))
  · exact Or.inr (Or.inr (Or.inr state))

theorem finishes_writes (state next : TcbState) (finishes : state.finishes = some next) :
    state.writes ∧ ¬ next.writes := by
  unfold TcbState.finishes at finishes
  split at finishes
  · obtain rfl := Option.some.inj finishes
    exact ⟨Or.inr (Or.inl rfl), by rintro (h | h | h | h) <;> cases h⟩
  · obtain rfl := Option.some.inj finishes
    exact ⟨Or.inr (Or.inr (Or.inl rfl)), by rintro (h | h | h | h) <;> cases h⟩
  · obtain rfl := Option.some.inj finishes
    exact ⟨Or.inr (Or.inr (Or.inr rfl)), by rintro (h | h | h | h) <;> cases h⟩
  · cases finishes

-- What tcp_canwrite allows fits into the queue.
theorem canwrite_fits (w : World) (n : Nat) {s u m : Nat} (kept : Kept (ledger w) s u m) (some : 0 < n)
    (room : (n : Int) ≤ tcpCanwrite w) : dataLen (ledger w).segs + n ≤ 65535 := by
  have fits := kept.fits
  have roomy := kept.room
  have count : w.data.snd.curdatalen.toInt = dataLen (ledger w).segs := by
    have same : w.data.snd.curdatalen = BitVec.ofNat 32 (dataLen (ledger w).segs) := kept.count
    rw [same, ← BitVec.ofInt_natCast, BitVec.toInt_ofInt, Int.bmod_eq_of_le_mul_two] <;> omega
  have high : w.data.snd.maxdatalen ≤ 65535 := roomy.2
  unfold tcpCanwrite at room
  split at room
  · omega
  · dsimp only at room
    rw [count] at room
    split at room
    · omega
    · omega

theorem moves_booked (env : Env) (w w' : World) (op : Op) (alive : w.alive) (booked : Booked (sendSide w))
    (sane : Sane env w op) (moves : Moves env w op w') : Booked (sendSide w') := by
  cases moves with
  | same side =>
      rw [side]
      exact booked
  | gone dead => exact fun alive => by rw [show (sendSide w').alive = false from dead] at alive; cases alive
  | ended done => exact ended_booked w w' done
  | deleted held side =>
      rw [side]
      obtain reset | ⟨books, -⟩ := booked alive
      · exact fun _ => Or.inl ⟨rfl, reset.2⟩
      · exact fun _ => Or.inr ⟨⟨books.kept, fun writes => (writes_closed writes).elim⟩, by simp⟩
  | heard pkt duplicate isSegment notClosed outcome =>
      obtain reset | ⟨books, notListen⟩ := booked alive
      · exact (notClosed reset.1).elim
      · exact outcome_booked env w w' pkt books notListen (sane pkt duplicate isSegment) outcome
  | fired isTimer pending isFired =>
      rw [isFired]
      obtain reset | ⟨books, notListen⟩ := booked alive
      · have idle : (timerDel w).tcb.ostate = .idle := reset.2.1
        rw [tcbOstate, idle]
        exact fun _ => Or.inl reset
      · obtain ⟨x, -, ended⟩ | runs := timeout_runs env (timerDel w)
        · exact ended_booked x _ ended
        · refine fun _ => Or.inr ⟨runs_books (timerDel w) _ runs ⟨books.kept, books.unfinished⟩, ?_⟩
          have state := incoming_same (·.tcb.state) (timerDel w) _ runs.1 fun _ => rfl
          change (tcbOstate env (timerDel w) .timeout).tcb.state ≠ .listen
          rw [state]
          exact notListen
  | wrote bytes flags asks connects real room noSyn noFin isOutput =>
      rw [isOutput]
      have writes := writes_connected w connects
      obtain reset | ⟨books, notListen⟩ := booked alive
      · rw [show w.tcb.state = .closed from reset.1] at writes
        exact (writes_closed writes).elim
      · obtain ⟨s, u, m, kept⟩ := books.kept
        obtain ⟨noFin', few⟩ := books.unfinished writes
        exact output_booked env w bytes flags books notListen noFin' few
          (canwrite_fits w bytes.length kept (List.length_pos_of_ne_nil real) room) (Or.inl real)
          (fun syn => by rw [noSyn] at syn; cases syn) (fun fin => by rw [noFin] at fin; cases fin)
  | finished x state sock asks calls side queue net finishes same =>
      obtain ⟨writes, ended⟩ := finishes_writes _ _ finishes
      obtain reset | ⟨books, notListen⟩ := booked alive
      · rw [show w.tcb.state = .closed from reset.1] at writes
        exact (writes_closed writes).elim
      · obtain ⟨noFin, few⟩ := books.unfinished writes
        have books' : Books (sendSide (setState x state)) := by
          have kept := books.kept
          rw [← side] at kept
          exact ⟨kept, fun writes => (ended writes).elim⟩
        have stream : x.stream = w.stream := congrArg (fun y : SendSide => y.ledger.stream) side
        have notListen' : state ≠ .listen := by
          rintro rfl
          unfold TcbState.finishes at finishes
          split at finishes <;> cases finishes
        have out := output_booked env (setState x state) [] TCPF_FIN_ACK books' notListen'
          (by change Item.fin ∉ x.stream; rw [stream]; exact noFin)
          (by change marks x.stream ≤ 1; rw [stream]; exact few)
          (by
            obtain ⟨s, u, m, kept⟩ := books'.kept
            exact kept.fits) (Or.inr (Or.inr rfl)) (fun syn => by cases syn) (fun _ => ended)
        rw [same]
        intro live
        obtain reset | ⟨books'', notListen''⟩ := out live
        · exact Or.inl reset
        · exact Or.inr ⟨⟨books''.kept, books''.unfinished⟩, notListen''⟩
  | detached isDetach finishes notClosed notListen notSynsent same =>
      rw [same]
      obtain reset | ⟨books, notListen⟩ := booked alive
      · exact fun _ => Or.inl reset
      · exact fun _ => Or.inr ⟨⟨books.kept, books.unfinished⟩, notListen⟩
  | accepted same =>
      rw [same]
      obtain reset | ⟨books, notListen⟩ := booked alive
      · exact fun _ => Or.inl reset
      · exact fun _ => Or.inr ⟨⟨books.kept, books.unfinished⟩, notListen⟩
  | resized room low high same =>
      rw [same]
      obtain reset | ⟨books, notListen⟩ := booked alive
      · exact fun _ => Or.inl reset
      · obtain ⟨s, u, m, kept⟩ := books.kept
        exact fun _ => Or.inr ⟨⟨⟨s, u, m, { kept with room := ⟨low, high⟩ }⟩, books.unfinished⟩, notListen⟩

theorem booked_not_listen (w : World) (alive : w.alive) (booked : Booked (sendSide w)) : w.tcb.state ≠ .listen := by
  intro listens
  obtain reset | ⟨-, notListen⟩ := booked alive
  · have closed : w.tcb.state = .closed := reset.1
    rw [listens] at closed
    cases closed
  · exact notListen listens

theorem step_booked (env : Env) (w : World) (op : Op) (booked : Booked (sendSide w)) (sane : Sane env w op) :
    Booked (sendSide (step env w op)) := by
  unfold step
  split
  · rename_i alive
    exact moves_booked env w _ op alive booked sane (net_moves env w op (booked_not_listen w alive booked))
  · exact booked

theorem opening_clean (x : World) (opening : Opening x) : Item.fin ∉ x.stream ∧ marks x.stream ≤ 1 := by
  rw [opening.stream]
  exact ⟨List.not_mem_nil, Nat.zero_le 1⟩

theorem opening_queued (env : Env) (x : World) (flags : Flags) (opening : Opening x) (syn : flags.syn)
    (fin : flags.fin = false) : Kept (ledger (queued env x [] flags).2) 0 0 0 := by
  refine queued_kept env x [] flags opening.kept (opening_clean x opening).1 opening.kept.fits ?_ (Or.inr (Or.inl syn))
  rw [opening.stream, syn, fin]
  decide

theorem start_kept (w : World) (start : Start w) : ∃ s m, Kept (ledger w) s 0 m := by
  obtain ⟨env, x, flags, state, opening, syn, fin, urg, states, same⟩ := start_opening w start
  have runs := output_plain_runs env flags (queued env x [] flags) urg
  rw [← output_done env x [] flags (Or.inr (Or.inl syn))] at runs
  obtain ⟨s', m', -, -, kept⟩ := runs.2 _ _ _ (opening_queued env x flags opening syn fin)
  rw [show ledger w = ledger (tcpOutput env x [] flags).2 from congrArg SendSide.ledger same]
  exact ⟨s', m', kept⟩

theorem start_booked (w : World) (start : Start w) : Booked (sendSide w) := by
  obtain ⟨s, m, kept⟩ := start_kept w start
  obtain ⟨env, x, flags, state, opening, syn, fin, urg, states, same⟩ := start_opening w start
  have some : ([] : List Byte) ≠ [] ∨ flags.syn ∨ flags.fin := Or.inr (Or.inl syn)
  obtain ⟨noFin, few⟩ := opening_clean x opening
  have clean := queued_unfinished env x [] flags opening.kept noFin opening.kept.fits few (fun _ => opening.stream) fin
    some
  have runs := output_plain_runs env flags (queued env x [] flags) urg
  rw [← output_done env x [] flags some] at runs
  have stream := incoming_same (·.stream) _ _ runs.1 fun _ => rfl
  refine fun _ => Or.inr ⟨⟨⟨s, 0, m, kept⟩, fun _ => ?_⟩, ?_⟩
  · rw [same]
    change Item.fin ∉ (tcpOutput env x [] flags).2.stream ∧ marks (tcpOutput env x [] flags).2.stream ≤ 1
    rw [stream]
    exact clean
  · rw [same]
    obtain rfl | ⟨-, rfl⟩ := states <;> simp

-- Whatever happens, the sending side stays in order as long as acks are for what was sent.
theorem reach_booked (allowed : Env → World → Op → Prop)
    (sane : ∀ env w op, allowed env w op → Sane env w op) (w : World) (reached : Reach allowed w) :
    Booked (sendSide w) :=
  reach_invariant allowed (fun w => Booked (sendSide w)) start_booked
    (fun env w op booked ok => step_booked env w op booked (sane env w op ok)) w reached

theorem sane_open (window : BitVec 16) :
    Sane plainEnv synSent (.segment (peerSeg 5000 1001 TCPF_SYN_ACK window 0 []) false) := by
  rintro pkt duplicate same -
  obtain ⟨rfl, rfl⟩ := Op.segment.inj same
  have una : synSent.tcb.sndUna = 1000 := by decide +kernel
  rintro ⟨-, opposite⟩
  rw [una] at opposite
  cases opposite

end MagxNet.Tcp
