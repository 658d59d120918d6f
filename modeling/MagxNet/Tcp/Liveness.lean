import MagxNet.Tcp.Armed

set_option autoImplicit false

namespace MagxNet.Tcp

open Bytes Serial

-- Either everything written is acked and no timer runs, or something is not, and one does.
def SendSide.calm (y : SendSide) : Prop :=
  (y.ostate = .idle ∧ y.timer = none) ∧ y.ledger.una = y.ledger.write
    ∨ (y.ostate ≠ .idle ∧ y.timer.isSome) ∧ y.ledger.una ≠ y.ledger.write

theorem calm_resting (w : World) (rests : Resting w) (level : w.tcb.sndUna = w.tcb.seqWrite) : (sendSide w).calm :=
  Or.inl ⟨rests, level⟩

theorem calm_going (w : World) (goes : Going w) (open' : w.tcb.sndUna ≠ w.tcb.seqWrite) : (sendSide w).calm :=
  Or.inr ⟨goes, open'⟩

theorem ostate_una (env : Env) (w : World) (event : OutEvent) (quiet : event ≠ .timeout) :
    (tcbOstate env w event).tcb.sndUna = w.tcb.sndUna :=
  steady_same (·.tcb.sndUna) w _ (steady_ostate env w event quiet) fun _ => rfl

theorem ostate_write (env : Env) (w : World) (event : OutEvent) (quiet : event ≠ .timeout) :
    (tcbOstate env w event).tcb.seqWrite = w.tcb.seqWrite :=
  steady_same (·.tcb.seqWrite) w _ (steady_ostate env w event quiet) fun _ => rfl

theorem calm_event (env : Env) (w : World) (event : OutEvent) (notTimeout : event ≠ .timeout)
    (notAck : event ≠ .ackrcvd) (notSend : event ≠ .send) (calm : (sendSide w).calm) :
    (sendSide (tcbOstate env w event)).calm := by
  obtain ⟨rests, level⟩ | ⟨goes, open'⟩ := calm
  · rw [resting_event env w event notSend rests]
    exact Or.inl ⟨rests, level⟩
  · refine calm_going _ (going_event env w event notTimeout notAck goes) ?_
    rw [ostate_una env w event notTimeout, ostate_write env w event notTimeout]
    exact open'

theorem calm_ackrcvd (env : Env) (w : World) (goes : Going w) {s u m : Nat} (kept : Kept (ledger w) s u m) :
    (sendSide (tcbOstate env w .ackrcvd)).calm := by
  have una := ostate_una env w .ackrcvd (by decide)
  have write := ostate_write env w .ackrcvd (by decide)
  obtain ⟨acked, rests⟩ | ⟨unacked, goes'⟩ := going_ackrcvd env w goes
  · exact calm_resting _ rests (by rw [una, write]; exact (kept_all_acked w kept).mp acked)
  · exact calm_going _ goes' (by rw [una, write]; exact fun level => unacked ((kept_all_acked w kept).mpr level))

-- What is told of a new segment: a sender at rest starts, as snd_nxt is before seq_write.
theorem calm_send (env : Env) (w : World) (open' : w.tcb.sndUna ≠ w.tcb.seqWrite)
    (waits : Going w ∨ Resting w ∧ SEQLT w.tcb.sndNxt w.tcb.seqWrite) : (sendSide (tcbOstate env w .send)).calm := by
  have open'' : (tcbOstate env w .send).tcb.sndUna ≠ (tcbOstate env w .send).tcb.seqWrite := by
    rw [ostate_una env w .send (by decide), ostate_write env w .send (by decide)]
    exact open'
  obtain goes | ⟨rests, before⟩ := waits
  · exact calm_going _ (going_event env w .send (by decide) (by decide) goes) open''
  · obtain ⟨nothing, -⟩ | goes := resting_send env w rests
    · exact (nothing before).elim
    · exact calm_going _ goes open''

theorem calm_of_side (w w' : World) (same : sendSide w' = sendSide w) (calm : (sendSide w).calm) :
    (sendSide w').calm := by
  rw [same]
  exact calm

theorem calm_place (env : Env) (x : World) (pkt : Pkt) (osndWnd : Int) {s u m : Nat} (kept : Kept (ledger x) s u m)
    (sane : ¬ StrayAck x pkt.tcph) (calm : (sendSide x).calm) : (sendSide (ackPlace env x pkt osndWnd)).calm := by
  unfold ackPlace
  split
  · split
    · exact calm_of_side _ _ (side_sndrst env x pkt) calm
    · exact calm_of_side _ _ (side_of_outgoing _ _ (outgoing_sndack env x pkt)) calm
  · rename_i sent
    split
    · rename_i new
      obtain ⟨j, later, high, -, kept'⟩ := kept_ack kept pkt.tcph.ack new (not_not.mp sent) sane
      have written := kept.written
      have goes : Going x := by
        obtain ⟨-, level⟩ | ⟨goes, -⟩ := calm
        · have position := (kept_level kept).mp level
          omega
        · exact goes
      exact calm_ackrcvd env (setUna x pkt.tcph.ack) goes kept'
    · split
      · exact calm
      · split
        · exact calm_event env (setDupacks x (x.tcb.dupacks + 1)) .dupack (by decide) (by decide) (by decide) calm
        · exact calm

theorem calm_sndwnd (x : World) (tcph : Dgram) (calm : (sendSide x).calm) : (sendSide (tcpSndwnd x tcph)).calm := by
  unfold tcpSndwnd noteWndmax
  split <;> exact calm

theorem calm_ack (env : Env) (x : World) (pkt : Pkt) (update : Bool) {s u m : Nat} (kept : Kept (ledger x) s u m)
    (sane : pkt.tcph.flags.ack → ¬ StrayAck x pkt.tcph) (calm : (sendSide x).calm) :
    (sendSide (tcpAck env x pkt update)).calm := by
  unfold tcpAck
  split
  · exact calm
  · rename_i acks
    have here := sane (not_not.mp acks)
    split
    · have here' : ¬ StrayAck (tcpSndwnd x pkt.tcph) pkt.tcph := by
        have same := ledger_sndwnd x pkt.tcph
        have una : (tcpSndwnd x pkt.tcph).tcb.sndUna = x.tcb.sndUna := congrArg Ledger.una same
        have max : (tcpSndwnd x pkt.tcph).tcb.sndMax = x.tcb.sndMax := congrArg Ledger.max same
        unfold StrayAck
        rw [una, max]
        exact here
      rw [← ledger_sndwnd x pkt.tcph] at kept
      have placed := calm_place env (tcpSndwnd x pkt.tcph) pkt x.tcb.sndWnd kept here' (calm_sndwnd x pkt.tcph calm)
      unfold ackUpdating windowEvent
      split
      · exact calm_event env _ .wndopen (by decide) (by decide) (by decide) placed
      · exact calm_event env _ .wndclose (by decide) (by decide) (by decide) placed
    · exact calm_place env x pkt x.tcb.sndWnd kept here calm

theorem seq_lt_ahead (nxt write : Seq) (k : Nat) (some : 0 < k) (near : (write - nxt).toNat + k ≤ 2 ^ 31) :
    SEQLT nxt (write + BitVec.ofNat 32 k) := by
  have ahead : (write + BitVec.ofNat 32 k - nxt).toNat = (write - nxt).toNat + k := by
    rw [show write + BitVec.ofNat 32 k - nxt = (write - nxt) + BitVec.ofNat 32 k by abel, BitVec.toNat_add,
      BitVec.toNat_ofNat]
    omega
  have back : nxt - (write + BitVec.ofNat 32 k) = -(write + BitVec.ofNat 32 k - nxt) := by abel
  unfold SEQLT lt
  rw [back, BitVec.toInt_eq_toNat_bmod, BitVec.toNat_neg, ahead, Int.bmod_def]
  split <;> omega

theorem round_items_length (flags : Flags) (bytes : List Byte) (r : Nat) (taken : r ≤ bytes.length) :
    (roundItems flags true bytes r).length
      ≤ bytes.length + (if flags.syn then 1 else 0) + (if flags.fin then 1 else 0) := by
  have length : (bytes.take r).length = r := List.length_take_of_le taken
  unfold roundItems
  rw [List.length_append, List.length_append, List.length_map, length]
  cases flags.syn <;> cases flags.fin <;> cases (bytes.drop r).isEmpty <;> simp <;> omega

theorem urgent_calm (env : Env) (w : World) (open' : w.tcb.sndUna ≠ w.tcb.seqWrite)
    (waits : Going w ∨ Resting w ∧ SEQLT w.tcb.sndNxt w.tcb.seqWrite) :
    Ended w (outputUrgent env w) ∨ (sendSide (outputUrgent env w)).calm := by
  unfold outputUrgent
  split
  · rename_i persist
    have busy : (setPersistTmo (timerDel w) (tcpTimeout w)).tcb.ostate ≠ .idle := by
      change w.tcb.ostate ≠ .idle
      rw [persist]
      decide
    split
    · rename_i silent
      left
      have given : Ended (setPersistTmo (timerDel w) (tcpTimeout w))
          (tcpProbe env (setPersistTmo (timerDel w) (tcpTimeout w))) := by
        unfold tcpProbe
        rw [if_pos (by exact silent)]
        exact ended_close_with _ _
      exact ended_from w _ _ given rfl rfl rfl rfl
    · rename_i heard
      right
      have probed := going_probe_heard env _ busy heard
      obtain ⟨-, same⟩ := probe_heard env (setPersistTmo (timerDel w) (tcpTimeout w)) heard
      have una : (tcpProbe env _).tcb.sndUna = w.tcb.sndUna := congrArg Ledger.una same
      have write : (tcpProbe env _).tcb.seqWrite = w.tcb.seqWrite := congrArg Ledger.write same
      refine calm_send env _ ?_ (Or.inl probed)
      rw [una, write]
      exact open'
  · exact Or.inr (calm_send env w open' waits)

theorem done_calm (env : Env) (flags : Flags) (done : Option Int × World) (some : done.1.isNone = false)
    (open' : done.2.tcb.sndUna ≠ done.2.tcb.seqWrite)
    (waits : Going done.2 ∨ Resting done.2 ∧ SEQLT done.2.tcb.sndNxt done.2.tcb.seqWrite) :
    flags.urg ∧ Ended done.2 (outputDone env flags done) ∨ (sendSide (outputDone env flags done)).calm := by
  unfold outputDone
  rw [some, if_neg Bool.false_ne_true]
  split
  · rename_i urgent
    obtain given | calm := urgent_calm env (setSndUrg done.2) open' waits
    · exact Or.inl ⟨urgent, ended_from done.2 (setSndUrg done.2) _ given rfl rfl rfl rfl⟩
    · exact Or.inr calm
  · exact Or.inr (calm_send env done.2 open' waits)

-- A call of tcp_output that queues something leaves a connection that is under way.
theorem output_calm (env : Env) (w : World) (bytes : List Byte) (flags : Flags) {s u m : Nat}
    (kept : Kept (ledger w) s u m) (noFin : Item.fin ∉ w.stream)
    (fits : dataLen (ledger w).segs + bytes.length ≤ 65535)
    (few : marks w.stream + (if flags.syn then 1 else 0) + (if flags.fin then 1 else 0) ≤ 2)
    (some : bytes ≠ [] ∨ flags.syn ∨ flags.fin) (calm : (sendSide w).calm)
    (near : w.tcb.ostate = .idle → (w.tcb.seqWrite - w.tcb.sndNxt).toNat
      + (bytes.length + (if flags.syn then 1 else 0) + (if flags.fin then 1 else 0)) ≤ 2 ^ 31) :
    flags.urg ∧ Ended (queued env w bytes flags).2 (tcpOutput env w bytes flags).2
      ∨ (sendSide (tcpOutput env w bytes flags).2).calm := by
  have unwrites := unwritten_queued env w bytes flags
  have clocks : clock (queued env w bytes flags).2 = clock w := unwritten_same clock _ _ unwrites fun _ => rfl
  have una := unwritten_same (·.tcb.sndUna) _ _ unwrites fun _ => rfl
  have nxt := unwritten_same (·.tcb.sndNxt) _ _ unwrites fun _ => rfl
  have wrote := queued_wrote env w bytes flags kept noFin fits few some
  rw [output_done env w bytes flags some]
  generalize queued env w bytes flags = done at *
  obtain ⟨-, none, same⟩ | ⟨r, taken, placed, ended, wrote⟩ := wrote
  · right
    have write : done.2.tcb.seqWrite = w.tcb.seqWrite := congrArg Ledger.write same
    unfold outputDone
    rw [none, Option.isNone_none, if_pos rfl]
    obtain ⟨rests, level⟩ | ⟨goes, open'⟩ := calm
    · refine calm_resting _ (resting_of_clock _ _ clocks rests) ?_
      rw [una, write]
      exact level
    · refine calm_going _ (going_of_clock _ _ clocks goes) ?_
      rw [una, write]
      exact open'
  · have real : done.1.isNone = false := by
      obtain ⟨ret, -⟩ | ⟨ret, -⟩ := ended <;> rw [ret] <;> rfl
    have length := round_items_length flags bytes r taken
    have grown : 0 < (roundItems flags true bytes r).length := List.length_pos_of_ne_nil (placed rfl)
    have longer : done.2.stream.length = w.stream.length + (roundItems flags true bytes r).length := by
      rw [wrote.stream, List.length_append]
    have written : u ≤ w.stream.length := kept.sent.trans kept.written
    have write : done.2.tcb.seqWrite = w.tcb.seqWrite + BitVec.ofNat 32 (roundItems flags true bytes r).length := by
      have after : done.2.tcb.seqWrite = place (ledger done.2).isn done.2.stream.length := wrote.kept.write
      have before : w.tcb.seqWrite = place (ledger w).isn w.stream.length := kept.write
      have isn : (ledger done.2).isn = (ledger w).isn := unwritten_same (·.tcb.sndIsn) _ _ unwrites fun _ => rfl
      rw [after, before, isn, longer, ← BitVec.ofInt_natCast, place_add, Nat.cast_add]
    refine done_calm env flags done real ?_ ?_
    · intro level
      have position : u = done.2.stream.length := (kept_level wrote.kept).mp level
      omega
    · obtain ⟨rests, -⟩ | ⟨goes, -⟩ := calm
      · right
        refine ⟨resting_of_clock _ _ clocks rests, ?_⟩
        have room := near rests.1
        rw [nxt, write]
        exact seq_lt_ahead _ _ _ grown (by omega)
      · exact Or.inl (going_of_clock _ _ clocks goes)

-- A connection that still exists: its output side is calm, and once the FIN is known to be acked, or not
-- to be missed, nothing is outstanding.
structure Lively (y : SendSide) : Prop where
  calm : y.calm
  closed : y.state = .finwait2 ∨ y.state = .timewait → y.ledger.una = y.ledger.write

def Live (y : SendSide) : Prop := y.alive → y.state ≠ .closed → Lively y

-- A sender at rest is not asked for more than 2^31 numbers beyond snd_nxt.
def Near (w : World) (op : Op) : Prop :=
  0 < asked w op → w.tcb.ostate = .idle → (w.tcb.seqWrite - w.tcb.sndNxt).toNat + asked w op ≤ 2 ^ 31

theorem settles_live (tcph : Dgram) (y z : SendSide) (lively : Lively y) (books : Books y)
    (settles : Settles tcph y z) : Live z := by
  obtain ⟨s, u, m, kept⟩ := books.kept
  intro _ notClosed
  cases settles with
  | stays => exact lively
  | closes state => exact ⟨lively.calm, by rintro (h | h) <;> cases h⟩
  | crosses state => exact ⟨lively.calm, by rintro (h | h) <;> cases h⟩
  | halfCloses state acked => exact ⟨lively.calm, fun _ => (kept_done y kept).mp acked⟩
  | ends why =>
      have level : y.ledger.una = y.ledger.write := by
        obtain ⟨-, acked⟩ | half | waits := why
        · exact (kept_done y kept).mp acked
        · exact lively.closed (Or.inl half)
        · exact lively.closed (Or.inr waits)
      refine ⟨?_, fun _ => level⟩
      obtain ⟨rests, -⟩ | ⟨-, open'⟩ := lively.calm
      · exact Or.inl ⟨⟨rests.1, rfl⟩, level⟩
      · exact (open' level).elim
  | deletes => exact (notClosed rfl).elim
  | opens state half lands =>
      refine ⟨lively.calm, ?_⟩
      obtain rfl | rfl := lands <;> rintro (h | h) <;> cases h

theorem outcome_live (env : Env) (w w' : World) (pkt : Pkt) (lively : Lively (sendSide w)) (books : Books (sendSide w))
    (sane : Acks env w pkt → ¬ StrayAck w pkt.tcph) (outcome : Outcome env w pkt w') : Live (sendSide w') := by
  obtain ⟨flag, number, -⟩ := gate_seg_keeps_ack env w pkt
  obtain ⟨s, u, m, kept⟩ := books.kept
  cases outcome with
  | held same =>
      rw [same]
      exact fun _ _ => lively
  | ended done => exact fun _ notClosed => (notClosed done.closed).elim
  | gone dead => exact fun alive => by rw [show (sendSide w').alive = false from dead] at alive; cases alive
  | deleted same =>
      rw [same]
      exact fun _ notClosed => (notClosed rfl).elim
  | acked update acks updates settled =>
      have gated := side_gate env w pkt
      have sane' : (gateSeg env w pkt).tcph.flags.ack → ¬ StrayAck (gateConn env w pkt) (gateSeg env w pkt).tcph := by
        intro flagged
        rw [flag] at flagged
        rw [stray_same _ w pkt _ gated number]
        exact sane (acks flagged)
      have books' : Books (sendSide (gateConn env w pkt)) := by
        rw [gated]
        exact books
      have lively' : Lively (sendSide (gateConn env w pkt)) := by
        rw [gated]
        exact lively
      obtain ⟨s', u', m', kept'⟩ := books'.kept
      refine settles_live pkt.tcph _ _ ⟨calm_ack env _ _ update kept' sane' lively'.calm, fun closed => ?_⟩
        (ack_books env _ _ update books' sane') settled
      change (tcpAck env _ _ update).tcb.state = _ ∨ (tcpAck env _ _ update).tcb.state = _ at closed
      rw [ack_state] at closed
      exact level_ack env _ _ update kept' sane' (lively'.closed closed)
  | joined y state wndack wnd mss opening joins before range same =>
      have calm' : (sendSide y).calm := by
        obtain same | ⟨acks, x, side, rfl⟩ := before
        · rw [same]
          exact lively.calm
        · have keptX : Kept (ledger x) s u m := by
            rw [show ledger x = ledger w from congrArg SendSide.ledger side]
            exact kept
          refine calm_ack env x _ false keptX (fun _ => ?_) (calm_of_side w x side lively.calm)
          rw [stray_same x w pkt _ side number]
          exact sane acks
      rw [same]
      refine fun _ _ => ⟨calm', ?_⟩
      obtain rfl | rfl := joins <;> rintro (h | h) <;> cases h

theorem wrote_live (env : Env) (w : World) (bytes : List Byte) (flags : Flags) (books : Books (sendSide w))
    (noFin : Item.fin ∉ w.stream) (few : marks w.stream ≤ 1) (fits : dataLen (ledger w).segs + bytes.length ≤ 65535)
    (some : bytes ≠ [] ∨ flags.syn ∨ flags.fin) (opens : flags.syn → w.stream = []) (calm : (sendSide w).calm)
    (unclosed : w.tcb.state ≠ .finwait2 ∧ w.tcb.state ≠ .timewait)
    (near : w.tcb.ostate = .idle → (w.tcb.seqWrite - w.tcb.sndNxt).toNat
      + (bytes.length + (if flags.syn then 1 else 0) + (if flags.fin then 1 else 0)) ≤ 2 ^ 31) :
    Live (sendSide (tcpOutput env w bytes flags).2) := by
  obtain ⟨s, u, m, kept⟩ := books.kept
  have few' := queued_few w flags few opens
  intro alive notClosed
  have state : (tcpOutput env w bytes flags).2.tcb.state = w.tcb.state := by
    have same := queued_state env w bytes flags
    rw [output_done env w bytes flags some] at notClosed ⊢
    obtain ended | runs := output_done_runs env flags (queued env w bytes flags)
    · exact (notClosed ended.closed).elim
    · exact (incoming_same (·.tcb.state) _ _ runs.1 fun _ => rfl).trans same
  obtain ⟨-, ended⟩ | calm' := output_calm env w bytes flags kept noFin fits few' some calm near
  · exact (notClosed ended.closed).elim
  · refine ⟨calm', ?_⟩
    change (tcpOutput env w bytes flags).2.tcb.state = _ ∨ (tcpOutput env w bytes flags).2.tcb.state = _ → _
    rw [state]
    rintro (half | waits)
    · exact (unclosed.1 half).elim
    · exact (unclosed.2 waits).elim

theorem timeout_live (env : Env) (w : World) (lively : Lively (sendSide w)) (books : Books (sendSide w))
    (pending : w.tcb.timerEvt.isSome) : Live (sendSide (tcbOstate env (timerDel w) .timeout)) := by
  obtain ⟨s, u, m, kept⟩ : ∃ s u m, Kept (ledger w) s u m := books.kept
  obtain ⟨rests, -⟩ | ⟨goes, open'⟩ := lively.calm
  · rw [show w.tcb.timerEvt = none from rests.2] at pending
    cases pending
  · intro alive notClosed
    obtain ⟨x, -, ended⟩ | runs := timeout_runs env (timerDel w)
    · exact (notClosed ended.closed).elim
    · obtain ⟨s', m', -, -, kept'⟩ := runs.2 s u m kept
      have state := incoming_same (·.tcb.state) (timerDel w) _ runs.1 fun _ => rfl
      have stream : (ledger (tcbOstate env (timerDel w) .timeout)).stream = (ledger w).stream :=
        incoming_same (·.stream) (timerDel w) _ runs.1 fun _ => rfl
      have apart : ¬ u = (ledger w).stream.length := fun position => open' ((kept_level kept).mpr position)
      have open'' : (tcbOstate env (timerDel w) .timeout).tcb.sndUna
          ≠ (tcbOstate env (timerDel w) .timeout).tcb.seqWrite := by
        intro level
        have position := (kept_level kept').mp level
        rw [stream] at position
        exact apart position
      obtain ⟨x, ended⟩ | empty | goes' := going_timeout env (timerDel w) goes.1
      · exact (notClosed ended.closed).elim
      · have nothing : (ledger w).stream.drop s = [] := by
          rw [← kept.content]
          change (w.data.snd.q.map Buf.th).flatMap items = []
          rw [show w.data.snd.q = [] from empty]
          rfl
        have short := congrArg List.length nothing
        rw [List.length_drop, List.length_nil] at short
        have unacked := kept.unacked
        have written := kept.sent.trans kept.written
        exact (apart (by omega)).elim
      · refine ⟨calm_going _ goes' open'', ?_⟩
        change (tcbOstate env (timerDel w) .timeout).tcb.state = _
          ∨ (tcbOstate env (timerDel w) .timeout).tcb.state = _ → _
        rw [state]
        exact fun closed => (open' (lively.closed closed)).elim

theorem moves_live (env : Env) (w w' : World) (op : Op) (alive : w.alive) (booked : Booked (sendSide w))
    (live : Live (sendSide w)) (sane : Sane env w op) (near : Near w op) (moves : Moves env w op w') :
    Live (sendSide w') := by
  cases moves with
  | same side =>
      rw [side]
      exact live
  | gone dead => exact fun alive => by rw [show (sendSide w').alive = false from dead] at alive; cases alive
  | ended done => exact fun _ notClosed => (notClosed done.closed).elim
  | deleted held side =>
      rw [side]
      exact fun _ notClosed => (notClosed rfl).elim
  | heard pkt duplicate isSegment notClosed outcome =>
      exact outcome_live env w w' pkt (live alive notClosed) (books_of_booked _ booked alive notClosed)
        (sane pkt duplicate isSegment) outcome
  | fired isTimer pending isFired =>
      rw [isFired]
      by_cases closed : w.tcb.state = .closed
      · intro _ notClosed
        obtain ⟨x, -, ended⟩ | runs := timeout_runs env (timerDel w)
        · exact (notClosed ended.closed).elim
        · exact (notClosed ((incoming_same (·.tcb.state) (timerDel w) _ runs.1 fun _ => rfl).trans closed)).elim
      · exact timeout_live env w (live alive closed) (books_of_booked _ booked alive closed) pending
  | wrote bytes flags asks connects real room noSyn noFin isOutput =>
      have writes := writes_connected w connects
      have notClosed : w.tcb.state ≠ .closed := by
        intro closed
        rw [closed] at writes
        exact writes_closed writes
      have books := books_of_booked _ booked alive notClosed
      obtain ⟨s, u, m, kept⟩ := books.kept
      obtain ⟨noFin', few⟩ := books.unfinished writes
      have length := List.length_pos_of_ne_nil real
      rw [isOutput]
      refine wrote_live env w bytes flags books noFin' few (canwrite_fits w bytes.length kept length room) (Or.inl real)
        (fun syn => by rw [noSyn] at syn; cases syn) (live alive notClosed).calm ?_ fun idle => ?_
      · constructor <;> intro state <;> rw [state] at writes <;> rcases writes with h | h | h | h <;> cases h
      · have room' := near (by omega) idle
        rw [asks] at room'
        rw [noSyn, noFin]
        simpa using room'
  | finished x state sock asks calls side queue net finishes same =>
      obtain ⟨writes, ended⟩ := finishes_writes _ _ finishes
      have notClosed : w.tcb.state ≠ .closed := by
        intro closed
        rw [closed] at writes
        exact writes_closed writes
      have books := books_of_booked _ booked alive notClosed
      obtain ⟨noFin, few⟩ := books.unfinished writes
      have stream : x.stream = w.stream := congrArg (fun y : SendSide => y.ledger.stream) side
      have books' : Books (sendSide (setState x state)) := by
        have kept := books.kept
        rw [← side] at kept
        exact ⟨kept, fun writes => (ended writes).elim⟩
      have told := wrote_live env (setState x state) [] TCPF_FIN_ACK books'
        (by change Item.fin ∉ x.stream; rw [stream]; exact noFin)
        (by change marks x.stream ≤ 1; rw [stream]; exact few)
        (by
          obtain ⟨s, u, m, kept⟩ := books'.kept
          exact kept.fits) (Or.inr (Or.inr rfl)) (fun syn => by cases syn)
        (calm_of_side w x side (live alive notClosed).calm)
        (by
          unfold TcbState.finishes at finishes
          split at finishes <;> cases finishes <;> exact ⟨(fun h => by cases h), (fun h => by cases h)⟩)
        (fun idle => by
          have ostate : x.tcb.ostate = w.tcb.ostate := congrArg SendSide.ostate side
          have nxt : x.tcb.sndNxt = w.tcb.sndNxt := congrArg SendSide.nxt side
          have write : x.tcb.seqWrite = w.tcb.seqWrite := congrArg (fun y : SendSide => y.ledger.write) side
          have room := near (by omega) (ostate.symm.trans idle)
          rw [asks] at room
          change (x.tcb.seqWrite - x.tcb.sndNxt).toNat + _ ≤ _
          rw [nxt, write]
          exact room)
      rw [same]
      exact fun live notClosed => ⟨(told live notClosed).calm, (told live notClosed).closed⟩
  | detached isDetach finishes notClosed notListen notSynsent same =>
      rw [same]
      exact fun _ notClosed => ⟨(live alive notClosed).calm, (live alive notClosed).closed⟩
  | accepted same =>
      rw [same]
      exact fun _ notClosed => ⟨(live alive notClosed).calm, (live alive notClosed).closed⟩
  | resized room low high same =>
      rw [same]
      exact fun _ notClosed => ⟨(live alive notClosed).calm, (live alive notClosed).closed⟩

theorem start_live (w : World) (start : Start w) : Live (sendSide w) := by
  obtain ⟨env, x, flags, state, opening, syn, fin, urg, states, same⟩ := start_opening w start
  have some : ([] : List Byte) ≠ [] ∨ flags.syn ∨ flags.fin := Or.inr (Or.inl syn)
  have noFin : Item.fin ∉ x.stream := by
    rw [opening.stream]
    exact List.not_mem_nil
  have few : marks x.stream + (if flags.syn then 1 else 0) + (if flags.fin then 1 else 0) ≤ 2 := by
    rw [opening.stream, syn, fin]
    decide
  have level : x.tcb.sndUna = x.tcb.seqWrite := by
    have position := (kept_level opening.kept).mpr
    refine position ?_
    change 0 = x.stream.length
    rw [opening.stream]
    rfl
  have write : x.tcb.seqWrite = x.tcb.sndNxt := by
    have start := opening.kept.una
    rw [Nat.cast_zero, place_zero] at start
    rw [opening.nxt, ← level]
    exact start
  obtain ⟨urgent, -⟩ | calm := output_calm env x [] flags opening.kept noFin opening.kept.fits few some
    (calm_resting x ⟨opening.idle, opening.timer⟩ level) (fun _ => by
      rw [write, BitVec.sub_self, syn, fin]
      decide)
  · rw [urg] at urgent
    cases urgent
  · rw [same]
    refine fun _ _ => ⟨calm, ?_⟩
    obtain rfl | ⟨-, rfl⟩ := states <;> rintro (h | h) <;> cases h

theorem step_live (env : Env) (w : World) (op : Op) (inv : Booked (sendSide w) ∧ Live (sendSide w))
    (sane : Sane env w op) (near : Near w op) :
    Booked (sendSide (step env w op)) ∧ Live (sendSide (step env w op)) := by
  refine ⟨step_booked env w op inv.1 sane, ?_⟩
  unfold step
  split
  · rename_i alive
    exact moves_live env w _ op alive inv.1 inv.2 sane near (net_moves env w op (booked_not_listen w alive inv.1))
  · exact inv.2

theorem reach_live (w : World) (reached : Reach (fun env w op => Sane env w op ∧ Near w op) w) :
    Booked (sendSide w) ∧ Live (sendSide w) :=
  reach_invariant _ (fun w => Booked (sendSide w) ∧ Live (sendSide w))
    (fun w start => ⟨start_booked w start, start_live w start⟩)
    (fun env w op inv ok => step_live env w op inv ok.1 ok.2) w reached

-- The output side is busy exactly while its timer runs, and at rest everything written is acked.
def TimerKept (w : World) : Prop :=
  (w.tcb.ostate ≠ .idle ↔ w.tcb.timerEvt.isSome) ∧ (w.tcb.ostate = .idle → SEQLE w.tcb.seqWrite w.tcb.sndUna)

instance (w : World) : Decidable (TimerKept w) := inferInstanceAs (Decidable (_ ∧ (_ → _)))

-- No data waits without a timer, as long as acks are for what was sent, and a sender at rest is not given
-- data after its snd_nxt was pulled back by half of the sequence space.
theorem timer_kept (w : World) (reached : Reach (fun env w op => Sane env w op ∧ Near w op) w) (alive : w.alive)
    (notClosed : w.tcb.state ≠ .closed) : TimerKept w := by
  have lively := (reach_live w reached).2 alive notClosed
  obtain ⟨rests, level⟩ | ⟨goes, open'⟩ := lively.calm
  · refine ⟨iff_of_false (not_not.mpr rests.1) ?_, fun _ => ?_⟩
    · rw [show w.tcb.timerEvt = none from rests.2]
      exact Bool.false_ne_true
    · rw [show w.tcb.seqWrite = w.tcb.sndUna from level.symm]
      exact Serial.le_refl _
  · exact ⟨iff_of_true goes.1 goes.2, fun idle => (goes.1 idle).elim⟩

theorem timer_kept_open : TimerKept (openConn 5000) :=
  timer_kept (openConn 5000)
    (reach_open _ 5000 ⟨sane_open 5000, fun asks => by cases asks⟩) (by decide +kernel) (by decide +kernel)

-- Two acks that lie nearly 2^31 below pull snd_nxt back so far that it reads as beyond seq_write.
def farConn : World :=
  steps (openConn 5000) [(plainEnv, .segment (peerSeg 5001 0x80001772 TCPF_ACK 0 0 []) false),
    (plainEnv, .segment (peerSeg 5002 0x7ffff062 TCPF_ACK 0 0 []) false), (plainEnv, .send [7] false)]

-- The byte written then waits at an idle sender without a timer.
theorem timer_not_kept :
    Reach (fun _ _ _ => True) farConn ∧ farConn.alive ∧ farConn.tcb.state = .established ∧ ¬ TimerKept farConn :=
  ⟨reach_steps _ _ (reach_open _ 5000 trivial), by decide +kernel, by decide +kernel, by decide +kernel⟩

end MagxNet.Tcp
