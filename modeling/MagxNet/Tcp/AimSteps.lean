import MagxNet.Tcp.AimRun

set_option autoImplicit false

namespace MagxNet.Tcp

open Bytes Serial

section Output

variable (env : Env)

-- What is told of the urgent byte.
theorem urgent_aims (w : World) (sized : Sized w) {s u n m : Nat} {a : Int} (aimed : Aimed w s u n m a) (trim : (ledger w).trimmed) :
    (∀ c ∈ urgentCalls env w, Meets c) ∧ ((sendSide (outputUrgent env w)).wasReset ∨ Carries w (outputUrgent env w)) := by
  have plain := event_calls_meet env w .send sized (by decide) (by decide) aimed trim
  have told := carries_event env w .send sized (by decide) (by decide)
  have armed : Carries w (setPersistTmo (timerDel w) (tcpTimeout w)) := carries_of_eq w _ rfl rfl rfl rfl
  unfold urgentCalls outputUrgent
  split
  · by_cases silent : peerSilent w
    · rw [if_pos silent, if_pos silent]
      exact ⟨by rintro c ⟨⟩, (carries_probe env _).imp_right fun probed => carries_trans _ _ _ armed probed⟩
    · rw [if_neg silent, if_neg silent]
      have probed := carries_trans _ _ _ armed (carries_probe_heard env (setPersistTmo (timerDel w) (tcpTimeout w)) silent)
      have sized' := sized_of_eq w _ (sizes_probe env (setPersistTmo (timerDel w) (tcpTimeout w))) sized
      obtain ⟨n', m', aimed'⟩ := probed.aimed _ _ _ _ _ aimed
      exact ⟨event_calls_meet env _ .send sized' (by decide) (by decide) aimed' (trimmed_of_carries _ _ probed trim),
        Or.inr (carries_trans _ _ _ probed (carries_event env _ .send sized' (by decide) (by decide)))⟩
  · exact ⟨plain, Or.inr told⟩

theorem sized_queued (w : World) (bytes : List Byte) (flags : Flags) (sized : Sized w) : Sized (queued env w bytes flags).2 :=
  sized_of_eq _ _ (unwritten_same sizes _ _ (unwritten_queued env w bytes flags) fun _ => rfl) sized

theorem queued_aims (w : World) (bytes : List Byte) (flags : Flags) {s u n m : Nat} {a : Int} (aimed : Aimed w s u n m a)
    (kept : Kept (ledger (queued env w bytes flags).2) s u m) : Aimed (queued env w bytes flags).2 s u n m a := by
  have same {α : Type} (f : World → α) (blind : ∀ x, f (unwritten x) = f x) :=
    unwritten_same f _ _ (unwritten_queued env w bytes flags) blind
  exact aimed_of_lies w _ (same (·.tcb.sndIsn) fun _ => rfl) (same (·.tcb.sndWndack) fun _ => rfl) (same (·.tcb.sndWnd) fun _ => rfl)
    aimed (queued_lies env w bytes flags aimed.lies kept) aimed.reach

theorem output_aims (w : World) (bytes : List Byte) (flags : Flags) (some : bytes ≠ [] ∨ flags.syn ∨ flags.fin)
    (sized : Sized (queued env w bytes flags).2) {s u n m : Nat} {a : Int} (aimed : Aimed (queued env w bytes flags).2 s u n m a)
    (trim : (ledger (queued env w bytes flags).2).trimmed) :
    (∀ c ∈ outputCalls env w bytes flags, Meets c)
      ∧ (flags.urg ∧ (sendSide (tcpOutput env w bytes flags).2).wasReset
        ∨ Carries (queued env w bytes flags).2 (tcpOutput env w bytes flags).2) := by
  have writes : ¬ (bytes.isEmpty ∧ ¬ flags.syn ∧ ¬ flags.fin) := by
    rintro ⟨empty, noSyn, noFin⟩
    obtain real | syn | fin := some
    · exact real (List.isEmpty_iff.mp empty)
    · exact noSyn syn
    · exact noFin fin
  rw [output_done env w bytes flags some]
  unfold outputCalls outputDone
  rw [if_neg writes]
  rw [show outputLoop env flags (bytes.length + 1) w bytes true = queued env w bytes flags from rfl]
  generalize queued env w bytes flags = done at sized aimed trim ⊢
  obtain ⟨r, x⟩ := done
  cases r with
  | none => exact ⟨by rintro c ⟨⟩, Or.inr (carries_of_eq x x rfl rfl rfl rfl)⟩
  | some r =>
      dsimp only [Option.isNone_some]
      rw [if_neg Bool.false_ne_true]
      split
      · rename_i urgent
        have marked : Carries x (setSndUrg x) := carries_of_eq x _ rfl rfl rfl rfl
        obtain ⟨n', m', aimed'⟩ := marked.aimed _ _ _ _ _ aimed
        obtain ⟨calls, told⟩ := urgent_aims env (setSndUrg x) sized aimed' (trimmed_of_carries _ _ marked trim)
        exact ⟨calls, told.imp (fun reset => ⟨urgent, reset⟩) fun done => carries_trans _ _ _ marked done⟩
      · exact ⟨event_calls_meet env x .send sized (by decide) (by decide) aimed trim,
          Or.inr (carries_event env x .send sized (by decide) (by decide))⟩

theorem output_stays (w : World) (bytes : List Byte) (flags : Flags) (some : bytes ≠ [] ∨ flags.syn ∨ flags.fin) :
    (sendSide (tcpOutput env w bytes flags).2).wasReset ∨ (tcpOutput env w bytes flags).2.tcb.state = w.tcb.state := by
  rw [output_done env w bytes flags some]
  obtain ended | runs := output_done_runs env flags (queued env w bytes flags)
  · exact Or.inl (ended_reset _ _ ended)
  · exact Or.inr ((incoming_same (·.tcb.state) _ _ runs.1 fun _ => rfl).trans (queued_state env w bytes flags))

-- What is queued keeps the window in place, and so does telling of it.
theorem wrote_aims (w : World) (bytes : List Byte) (flags : Flags) (some : bytes ≠ [] ∨ flags.syn ∨ flags.fin)
    (noFin : Item.fin ∉ w.stream) (few : marks w.stream ≤ 1) (fits : dataLen (ledger w).segs + bytes.length ≤ 65535)
    (opens : flags.syn → w.stream = []) (sized : Sized w) {s u n m : Nat} {a : Int} (aimed : Aimed w s u n m a)
    (trim : (ledger w).trimmed) (asks : w.tcb.state = .synsent → u = 0) :
    (∀ c ∈ outputCalls env w bytes flags, Meets c) ∧ Guided (tcpOutput env w bytes flags).2 := by
  have kept := queued_kept env w bytes flags aimed.lies.kept noFin fits (queued_few w flags few opens) some
  have aimed' := queued_aims env w bytes flags aimed kept
  have trim' := trimmed_queued env w bytes flags aimed.lies.kept kept trim
  obtain ⟨calls, ⟨-, reset⟩ | carries⟩ := output_aims env w bytes flags some (sized_queued env w bytes flags sized) aimed' trim'
  · exact ⟨calls, Or.inl reset⟩
  · refine ⟨calls, (output_stays env w bytes flags some).imp_right fun state => ?_⟩
    obtain ⟨n', m', done⟩ := carries.aimed _ _ _ _ _ aimed'
    refine ⟨s, u, n', m', a, done, trimmed_of_carries _ _ carries trim', fun here => ?_⟩
    rw [state] at here
    exact asks here

end Output

theorem guided_kept (w w' : World) (kept : ledger w' = ledger w) (nxt : w'.tcb.sndNxt = w.tcb.sndNxt)
    (wndack : w'.tcb.sndWndack = w.tcb.sndWndack) (wnd : w'.tcb.sndWnd = w.tcb.sndWnd) (state : w'.tcb.state = w.tcb.state)
    (ostate : w'.tcb.ostate = w.tcb.ostate) (guided : Guided w) : Guided w' := by
  refine guided.imp (fun reset => ⟨state.trans reset.1, ostate.trans reset.2.1, ?_⟩) ?_
  · rw [show (sendSide w').ledger = (sendSide w).ledger from kept]
    exact reset.2.2
  rintro ⟨s, u, n, m, a, aimed, trim, opens⟩
  refine ⟨s, u, n, m, a, aimed_of_eq w w' kept nxt wndack wnd aimed, by rw [kept]; exact trim, fun here => opens ?_⟩
  rw [← state]
  exact here

theorem asked_closed (w : World) (op : Op) (closed : w.tcb.state = .closed) : asked w op = 0 := by
  have noRoom : tcpCanwrite w = 0 := by
    unfold tcpCanwrite connected
    rw [closed]
    rfl
  have noFin : finAsked w = 0 := by
    unfold finAsked
    rw [closed]
    rfl
  cases op <;> simp [asked, noRoom, noFin]

theorem asked_small (w : World) (op : Op) {s u m : Nat} (kept : Kept (ledger w) s u m) : asked w op ≤ 65535 := by
  have room : (tcpCanwrite w).toNat ≤ 65535 := by
    by_cases some : 0 < (tcpCanwrite w).toNat
    · have fits := canwrite_fits w (tcpCanwrite w).toNat kept some (by omega)
      omega
    · omega
  have one : finAsked w ≤ 1 := by
    unfold finAsked
    split <;> omega
  cases op with
  | send bytes oob => exact (Nat.min_le_right _ _).trans room
  | sendWoken bytes oob => exact (Nat.min_le_right _ _).trans room
  | shutdown how =>
      dsimp only [asked]
      split <;> omega
  | detach => exact one.trans (by omega)
  | _ => exact Nat.zero_le _

-- A sender at rest has nothing unsent, so it is not far from what is asked of it.
theorem near_of_lies (w : World) (op : Op) (rests : Restful w) {s u n m : Nat} (lies : Lies w s u n m) : Near w op := by
  intro _ idle
  have level := (kept_level lies.kept).mp (rests idle)
  have acked := lies.acked
  have written := lies.sent.trans lies.kept.written
  have same : w.tcb.seqWrite = w.tcb.sndNxt := by
    rw [lies.nxt, show n = (ledger w).stream.length by omega]
    exact lies.kept.write
  have small := asked_small w op lies.kept
  rw [same, BitVec.sub_self]
  change 0 + _ ≤ _
  omega

-- The ways of a run that keep every call right.
def Timely (env : Env) (w : World) (op : Op) : Prop :=
  (∀ pkt duplicate, op = .segment pkt duplicate → Acks env w pkt → TimelyAck env w pkt)
    ∧ (op = .wakeme → w.tcb.timerEvt.isSome → TimerDue w)

structure Windowed (w : World) : Prop where
  booked : Booked (sendSide w)
  live : Live (sendSide w)
  sized : Sized w
  guided : w.alive → Guided w

theorem windowed_restful (w : World) (windowed : Windowed w) (alive : w.alive) (notClosed : w.tcb.state ≠ .closed) : Restful w := by
  intro idle
  obtain ⟨-, level⟩ | ⟨goes, -⟩ := (windowed.live alive notClosed).calm
  · exact level
  · exact (goes.1 idle).elim

theorem windowed_aimed (w : World) (windowed : Windowed w) (alive : w.alive) (notClosed : w.tcb.state ≠ .closed) :
    ∃ s u n m a, Aimed w s u n m a ∧ (ledger w).trimmed ∧ (w.tcb.state = .synsent → u = 0) :=
  (windowed.guided alive).resolve_left fun reset => notClosed reset.1

theorem windowed_near (w : World) (op : Op) (windowed : Windowed w) (alive : w.alive) : Near w op := by
  by_cases closed : w.tcb.state = .closed
  · intro some
    rw [asked_closed w op closed] at some
    exact (Nat.lt_irrefl 0 some).elim
  · obtain ⟨s, u, n, m, a, aimed, -⟩ := windowed_aimed w windowed alive closed
    exact near_of_lies w op (windowed_restful w windowed alive closed) aimed.lies

theorem windowed_sane (env : Env) (w : World) (op : Op) (windowed : Windowed w) (alive : w.alive) (timely : Timely env w op) :
    Sane env w op := by
  intro pkt duplicate isSegment acks
  by_cases closed : w.tcb.state = .closed
  · exact (closed_not_acks env w pkt closed acks).elim
  · obtain ⟨s, u, n, m, a, aimed, -⟩ := windowed_aimed w windowed alive closed
    exact lies_not_stray w pkt.tcph aimed.lies (timely.1 pkt duplicate isSegment acks).1

section Steps

variable (env : Env) (w : World) (windowed : Windowed w) (alive : w.alive)

include windowed alive

theorem fired_guided : Guided (tcbOstate env (timerDel w) .timeout) := by
  obtain reset | ⟨s, u, n, m, a, aimed, trim, opens⟩ := windowed.guided alive
  · have idle : (timerDel w).tcb.ostate = .idle := reset.2.1
    rw [tcbOstate, idle]
    exact Or.inl reset
  · have begun : Carries w (timerDel w) := carries_of_eq w _ rfl rfl rfl rfl
    obtain ⟨x, -, ended⟩ | runs := timeout_runs env (timerDel w)
    · exact guided_ended x _ ended
    · obtain reset | told := carries_timeout env (timerDel w) windowed.sized
      · exact Or.inl reset
      · have carries := carries_trans _ _ _ begun told
        obtain ⟨n', m', done⟩ := carries.aimed _ _ _ _ _ aimed
        refine Or.inr ⟨s, u, n', m', a, done, trimmed_of_carries _ _ carries trim, fun here => opens ?_⟩
        rw [incoming_same (·.tcb.state) (timerDel w) _ runs.1 fun _ => rfl] at here
        exact here

theorem wrote_meets (bytes : List Byte) (flags : Flags) (writes : w.tcb.state.writes) (real : bytes ≠ [])
    (room : (bytes.length : Int) ≤ tcpCanwrite w) (noSyn : flags.syn = false) :
    (∀ c ∈ outputCalls env w bytes flags, Meets c) ∧ Guided (tcpOutput env w bytes flags).2 := by
  have notClosed : w.tcb.state ≠ .closed := fun closed => writes_closed (closed ▸ writes)
  obtain ⟨s, u, n, m, a, aimed, trim, opens⟩ := windowed_aimed w windowed alive notClosed
  obtain ⟨noFin, few⟩ := (books_of_booked _ windowed.booked alive notClosed).unfinished writes
  have fits := canwrite_fits w bytes.length aimed.lies.kept (List.length_pos_of_ne_nil real) room
  exact wrote_aims env w bytes flags (Or.inl real) noFin few fits (fun syn => by rw [noSyn] at syn; cases syn) windowed.sized aimed trim
    opens

theorem finished_meets (x : World) (state : TcbState) (side : sendSide x = sendSide w) (size : sizes x = sizes w)
    (finishes : w.tcb.state.finishes = some state) :
    (∀ c ∈ outputCalls env (setState x state) [] TCPF_FIN_ACK, Meets c) ∧ Guided (outputFin env (setState x state)) := by
  obtain ⟨writes, ended⟩ := finishes_writes _ _ finishes
  have notClosed : w.tcb.state ≠ .closed := fun closed => writes_closed (closed ▸ writes)
  obtain ⟨s, u, n, m, a, aimed, trim, -⟩ := windowed_aimed w windowed alive notClosed
  obtain ⟨noFin, few⟩ := (books_of_booked _ windowed.booked alive notClosed).unfinished writes
  have stream : x.stream = w.stream := congrArg (fun y : SendSide => y.ledger.stream) side
  have begun := aimed_of_eq x (setState x state) rfl rfl rfl rfl (aimed_of_side w x side aimed)
  have trim' : (ledger (setState x state)).trimmed := trimmed_of_side w x side trim
  exact wrote_aims env (setState x state) [] TCPF_FIN_ACK (Or.inr (Or.inr rfl))
    (by change Item.fin ∉ x.stream; rw [stream]; exact noFin) (by change marks x.stream ≤ 1; rw [stream]; exact few)
    begun.lies.kept.fits (fun syn => by cases syn) (sized_of_eq w (setState x state) size windowed.sized) begun trim'
    (fun here => (ended (Or.inl here)).elim)

theorem send_fin_meets (x : World) (side : sendSide x = sendSide w) (size : sizes x = sizes w) :
    (∀ c ∈ finCalls env x, Meets c) ∧ Guided (sendFin env x) := by
  have state : x.tcb.state = w.tcb.state := congrArg SendSide.state side
  have begun : Guided x := guided_of_side w x side (windowed.guided alive)
  have finished := fun next => finished_meets env w windowed alive x next side size
  rw [← state] at finished
  unfold finCalls sendFin
  cases here : x.tcb.state <;> rw [here] at finished <;> dsimp only
  case synrcvd => exact finished .finwait1 rfl
  case established => exact finished .finwait1 rfl
  case closewait => exact finished .lastack rfl
  all_goals exact ⟨(by rintro c ⟨⟩), begun⟩

theorem moves_guided (op : Op) (w' : World) (noSegment : ∀ pkt duplicate, op ≠ .segment pkt duplicate) (noFin : ¬ finishing w op)
    (alive' : w'.alive) (moves : Moves env w op w') : Guided w' := by
  have here := windowed.guided alive
  cases moves with
  | same side => exact guided_of_side w w' side here
  | gone dead =>
      rw [dead] at alive'
      cases alive'
  | ended done => exact guided_ended w w' done
  | deleted held side =>
      obtain reset | ⟨s, u, n, m, a, aimed, trim, -⟩ := here
      · left
        rw [side]
        exact ⟨rfl, reset.2⟩
      · have closed : w'.tcb.state = .closed := congrArg SendSide.state side
        exact guided_landed w w' (congrArg SendSide.ledger side) (congrArg SendSide.nxt side) (congrArg SendSide.wndack side)
          (congrArg SendSide.wnd side) (by rw [closed]; decide) aimed trim
  | heard pkt duplicate isSegment => exact (noSegment pkt duplicate isSegment).elim
  | fired isTimer pending isFired =>
      rw [isFired]
      exact fired_guided env w windowed alive
  | wrote bytes flags asks connects real room noSyn noFin isOutput =>
      rw [isOutput]
      exact (wrote_meets env w windowed alive bytes flags (writes_connected w connects) real room noSyn).2
  | finished x state sock asks calls => exact (noFin calls).elim
  | detached isDetach finishes notClosed notListen notSynsent side =>
      exact guided_kept w w' (congrArg SendSide.ledger side) (congrArg SendSide.nxt side) (congrArg SendSide.wndack side)
        (congrArg SendSide.wnd side) (congrArg SendSide.state side) (congrArg SendSide.ostate side) here
  | accepted side =>
      exact guided_kept w w' (congrArg SendSide.ledger side) (congrArg SendSide.nxt side) (congrArg SendSide.wndack side)
        (congrArg SendSide.wnd side) (congrArg SendSide.state side) (congrArg SendSide.ostate side) here
  | resized room low high side =>
      have numbers : ledger w' = { ledger w with room := room } := congrArg SendSide.ledger side
      have state : w'.tcb.state = w.tcb.state := congrArg SendSide.state side
      have isn : w'.tcb.sndIsn = w.tcb.sndIsn := congrArg Ledger.isn numbers
      obtain reset | ⟨s, u, n, m, a, aimed, trim, opens⟩ := here
      · left
        rw [side]
        exact reset
      · have roomy : Kept (ledger w') s u m := by
          rw [numbers]
          exact { aimed.lies.kept with room := ⟨low, high⟩ }
        have nxt : w'.tcb.sndNxt = place w'.tcb.sndIsn n := by
          rw [isn]
          exact (congrArg SendSide.nxt side).trans aimed.lies.nxt
        refine Or.inr ⟨s, u, n, m, a, aimed_of_lies w w' isn (congrArg SendSide.wndack side) (congrArg SendSide.wnd side) aimed
          ⟨roomy, nxt, aimed.lies.acked, aimed.lies.sent⟩ aimed.reach, ?_, fun asks => opens (state ▸ asks)⟩
        rw [numbers]
        exact trim

theorem finishing_guided (op : Op) (finishes : finishing w op) : Guided (netStep env w op) := by
  have here := windowed.guided alive
  cases op with
  | shutdown how =>
      dsimp only [netStep, userStep]
      split
      · rw [tcpShutdown, if_pos finishes.1]
        exact (send_fin_meets env w windowed alive (setCant w how) (side_set_cant w how) rfl).2
      · exact here
  | detach =>
      dsimp only [netStep, userStep]
      split
      · have done := (send_fin_meets env w windowed alive w rfl rfl).2
        have side : sendSide (tcpDropsegs env (markAll (dropSock (sendFin env w)))) = { sendSide (sendFin env w) with sock := false } :=
          (dropsegs_side env (dropSock (sendFin env w))).trans (side_drop_sock _)
        have same : tcpDetach env w = tcpDropsegs env (markAll (dropSock (sendFin env w))) := by
          unfold finishing TcbState.finishes at finishes
          unfold tcpDetach
          cases state : w.tcb.state <;> rw [state] at finishes <;> first | rfl | cases finishes
        rw [same]
        exact guided_kept _ _ (congrArg SendSide.ledger side) (congrArg SendSide.nxt side) (congrArg SendSide.wndack side)
          (congrArg SendSide.wnd side) (congrArg SendSide.state side) (congrArg SendSide.ostate side) done
      · exact here
  | _ => exact finishes.elim

theorem net_guided (op : Op) (timely : Timely env w op) (alive' : (netStep env w op).alive) : Guided (netStep env w op) := by
  have notListen := booked_not_listen w alive windowed.booked
  by_cases finishes : finishing w op
  · exact finishing_guided env w windowed alive op finishes
  · by_cases hears : ∃ pkt duplicate, op = .segment pkt duplicate
    · obtain ⟨pkt, duplicate, rfl⟩ := hears
      by_cases closed : w.tcb.state = .closed
      · exact guided_of_side w _ (closed_side env w pkt duplicate closed) (windowed.guided alive)
      · obtain ⟨s, u, n, m, a, aimed, trim, opens⟩ := windowed_aimed w windowed alive closed
        exact input_guided env w pkt duplicate closed notListen windowed.sized (windowed_restful w windowed alive closed) aimed trim
          opens (timely.1 pkt duplicate rfl) alive'
    · exact moves_guided env w windowed alive op _ (fun pkt duplicate same => hears ⟨pkt, duplicate, same⟩) finishes alive'
        (net_moves env w op notListen)

theorem round_calls_meet (bytes : List Byte) (oob : Bool) : ∀ c ∈ roundCalls env w bytes oob, Meets c := by
  have none : ∀ c ∈ ([] : List SegCall), Meets c := by
    rintro c ⟨⟩
  unfold roundCalls
  split
  · exact none
  · rename_i ready
    split
    · exact none
    · rename_i open'
      rw [not_or, not_and, not_le] at ready
      have room := ready.1 (not_not.mp open')
      by_cases real : bytes.take (tcpCanwrite w).toNat = []
      · rw [real, outputCalls, if_pos (by cases oob <;> decide)]
        exact none
      · refine (wrote_meets env w windowed alive _ _ (writes_connected w (not_not.mp open')) real ?_ (by cases oob <;> rfl)).1
        rw [List.length_take]
        omega

theorem user_calls_meet (op : Op) : ∀ c ∈ userCalls env w op, Meets c := by
  have none : ∀ c ∈ ([] : List SegCall), Meets c := by
    rintro c ⟨⟩
  have round := round_calls_meet env w windowed alive
  cases op with
  | send bytes oob =>
      dsimp only [userCalls]
      split
      · exact none
      · split
        · exact none
        · exact round bytes oob
  | sendWoken bytes oob =>
      dsimp only [userCalls]
      split
      · exact none
      · split
        · exact none
        · exact round bytes oob
  | shutdown how =>
      dsimp only [userCalls]
      split
      · exact (send_fin_meets env w windowed alive (setCant w how) (side_set_cant w how) rfl).1
      · exact none
  | detach =>
      dsimp only [userCalls]
      have fin := (send_fin_meets env w windowed alive w rfl rfl).1
      split
      · exact none
      · exact none
      · exact none
      · exact fin
  | _ => exact none

theorem wakeme_calls_meet (due : TimerDue w) : ∀ c ∈ ostateCalls env (takeTimer w) .timeout, Meets c := by
  obtain reset | ⟨s, u, n, m, a, aimed, trim, -⟩ := windowed.guided alive
  · have idle : (takeTimer w).tcb.ostate = .idle := reset.2.1
    rw [ostateCalls, idle]
    rintro c ⟨⟩
  · exact timeout_calls_meet env (takeTimer w) windowed.sized due (aimed_of_eq w (takeTimer w) rfl rfl rfl rfl aimed) trim

theorem segment_calls_meet (pkt : Pkt) (timely : Acks env w pkt → TimelyAck env w pkt) : ∀ c ∈ inputCalls env w pkt, Meets c := by
  by_cases closed : w.tcb.state = .closed
  · unfold inputCalls
    split
    · rw [stateCalls, gate_conn_state, closed]
      rintro c ⟨⟩
    · rintro c ⟨⟩
  · obtain ⟨s, u, n, m, a, aimed, trim, -⟩ := windowed_aimed w windowed alive closed
    exact input_calls_meet env w pkt windowed.sized (windowed_restful w windowed alive closed) aimed trim timely

omit alive in
theorem step_calls_meet (op : Op) (timely : Timely env w op) : ∀ c ∈ stepCalls env w op, Meets c := by
  have none : ∀ c ∈ ([] : List SegCall), Meets c := by
    rintro c ⟨⟩
  unfold stepCalls
  split
  · rename_i alive
    have user : ∀ op, ∀ c ∈ (if w.data.sock.isSome then userCalls env w op else []), Meets c := by
      intro op
      split
      · exact user_calls_meet env w windowed alive op
      · exact none
    cases op with
    | segment pkt duplicate => exact segment_calls_meet env w windowed alive pkt (timely.1 pkt duplicate rfl)
    | wakeme =>
        dsimp only
        split
        · rename_i pending
          exact wakeme_calls_meet env w windowed alive (timely.2 rfl pending)
        · exact none
    | error id error => exact none
    | deleteme => exact none
    | dodelack => exact none
    | tick delta => exact none
    | send bytes oob => exact user _
    | sendWoken bytes oob => exact user _
    | recv args => exact user _
    | recvWoken args => exact user _
    | shutdown how => exact user _
    | detach => exact user _
    | accept => exact user _
    | rcvbuf val => exact user _
    | sndbuf val => exact user _
    | nodelay set => exact user _
    | oobinline set => exact user _
    | takeErr => exact user _
  · exact none

end Steps

theorem step_windowed (env : Env) (w : World) (op : Op) (windowed : Windowed w) (timely : Timely env w op) :
    Windowed (step env w op) := by
  by_cases alive : w.alive
  · obtain ⟨booked, live⟩ := step_live env w op ⟨windowed.booked, windowed.live⟩ (windowed_sane env w op windowed alive timely)
      (windowed_near w op windowed alive)
    refine ⟨booked, live, sized_step env w op windowed.sized, fun alive' => ?_⟩
    unfold step at alive' ⊢
    rw [if_pos alive] at alive' ⊢
    exact net_guided env w windowed alive op timely alive'
  · unfold step
    rw [if_neg alive]
    exact windowed

theorem opening_trimmed (x : World) (opening : Opening x) : (ledger x).trimmed := by
  intro th atHead
  obtain ⟨others, split⟩ := List.head?_eq_some_iff.mp atHead
  have lined := opening.kept.lined
  have content := opening.kept.content
  have nothing : (ledger x).stream = [] := opening.stream
  rw [split] at lined content
  rw [nothing, List.drop_nil, List.flatMap_cons, List.append_eq_nil_iff] at content
  exact (lined.2.1.some content.1).elim

-- The SYN that a connection begins with.
theorem opening_aims (env : Env) (x : World) (flags : Flags) (opening : Opening x) (sized : Sized x) (syn : flags.syn)
    (fin : flags.fin = false) (urg : flags.urg = false) :
    (∀ c ∈ outputCalls env x [] flags, Meets c)
      ∧ ∃ s n m a, Aimed (tcpOutput env x [] flags).2 s 0 n m a ∧ (ledger (tcpOutput env x [] flags).2).trimmed := by
  have room : (0 : Int) ≤ TCP_MSS ∧ TCP_MSS ≤ 65535 := by decide
  have aimed : Aimed x 0 0 0 0 0 := by
    refine ⟨⟨opening.kept, ?_, le_refl 0, le_refl 0⟩, ?_, le_refl _, by rw [opening.wnd]; exact room, by decide⟩
    · rw [opening.nxt, Nat.cast_zero, place_zero]
    · rw [opening.wndack, place_zero]
  have kept := opening_queued env x flags opening syn fin
  have trim := trimmed_queued env x [] flags opening.kept kept (opening_trimmed x opening)
  obtain ⟨calls, ⟨urgent, -⟩ | carries⟩ := output_aims env x [] flags (Or.inr (Or.inl syn)) (sized_queued env x [] flags sized)
    (queued_aims env x [] flags aimed kept) trim
  · rw [urg] at urgent
    cases urgent
  · obtain ⟨n', m', done⟩ := carries.aimed _ _ _ _ _ (queued_aims env x [] flags aimed kept)
    exact ⟨calls, 0, n', m', 0, done, trimmed_of_carries _ _ carries trim⟩

theorem start_guided (w : World) (start : Start w) : Guided w := by
  have opened : ∀ (env : Env) (x : World) (flags : Flags) (state : TcbState), Opening x → Sized x → flags.syn → flags.fin = false →
      flags.urg = false → sendSide w = { sendSide (tcpOutput env x [] flags).2 with state := state } → Guided w := by
    intro env x flags state opening sized syn fin urg side
    obtain ⟨-, s, n, m, a, aimed, trim⟩ := opening_aims env x flags opening sized syn fin urg
    have kept : ledger w = ledger (tcpOutput env x [] flags).2 := congrArg SendSide.ledger side
    refine Or.inr ⟨s, 0, n, m, a, aimed_of_eq _ w kept (congrArg SendSide.nxt side) (congrArg SendSide.wndack side)
      (congrArg SendSide.wnd side) aimed, ?_, fun _ => rfl⟩
    rw [kept]
    exact trim
  cases start with
  | connect env w args configured begins =>
      have blank := configured_blank w configured
      unfold tcpConnect at begins opened ⊢
      split at begins
      · rw [blank.closed] at begins
        cases begins
      · split at begins
        · change w.tcb.state = _ at begins
          rw [blank.closed] at begins
          cases begins
        · rename_i proceeds noDuplicate
          rw [if_neg proceeds, if_neg noDuplicate] at opened ⊢
          exact opened env (connectStart env w args) TCPF_SYN .synsent (connect_opening env w args blank)
            (sized_connect_start env w args (configured_sized w configured)) rfl rfl rfl rfl
  | listen env w pkt duplicate child spawned =>
      unfold inputSpawn listenSpawn at spawned
      split at spawned
      · split at spawned
        · cases spawned
        · split at spawned
          · obtain rfl := Option.some.inj spawned
            exact opened env (childOpened env _ _) TCPF_SYN_ACK _ (child_opening env _ _) (sized_child_opened env _ _) rfl rfl rfl rfl
          · cases spawned
      · cases spawned

theorem start_windowed (w : World) (start : Start w) : Windowed w :=
  ⟨start_booked w start, start_live w start, start_sized w start, fun _ => start_guided w start⟩

theorem reach_windowed (w : World) (reached : Reach Timely w) : Windowed w :=
  reach_invariant Timely Windowed start_windowed (fun env w op windowed timely => step_windowed env w op windowed timely) w reached

-- As long as acks are in turn and the timer runs out only on what was sent, tcp_sndseg never fails on its window.
theorem calls_meet (c : SegCall) (invoked : Invoked Timely c) : Meets c := by
  cases invoked with
  | connect env w args configured begins asked =>
      exact (opening_aims env _ TCPF_SYN (connect_opening env w args (configured_blank w configured))
        (sized_connect_start env w args (configured_sized w configured)) rfl rfl rfl).1 c asked
  | listen env w pkt asked =>
      exact (opening_aims env (childOpened env w pkt) TCPF_SYN_ACK (child_opening env w pkt) (sized_child_opened env w pkt) rfl rfl
        rfl).1 c asked
  | step env w op reached timely asked => exact step_calls_meet env w (reach_windowed w reached) op timely c asked

theorem timely_open (window : BitVec 16) : Timely plainEnv synSent (.segment (peerSeg 5000 1001 TCPF_SYN_ACK window 0 []) false) := by
  have nxt : synSent.tcb.sndNxt = 1001 := by decide +kernel
  have state : synSent.tcb.state = .synsent := by decide +kernel
  refine ⟨?_, fun fires => by cases fires⟩
  rintro pkt duplicate same -
  obtain ⟨rfl, rfl⟩ := Op.segment.inj same
  refine ⟨fun _ beyond => ?_, fun takes => ?_⟩
  · rw [nxt] at beyond
    change SEQLT 1001 1001 at beyond
    revert beyond
    decide
  · unfold TakesWindow at takes
    rw [state] at takes
    simp at takes

theorem calls_meet_sent :
    (stepCalls plainEnv (openConn 5000) (.send [65, 66] false)).length = 1
      ∧ ∀ c ∈ stepCalls plainEnv (openConn 5000) (.send [65, 66] false), Meets c := by
  have timely : Timely plainEnv (openConn 5000) (.send [65, 66] false) :=
    ⟨(fun _ _ same => by cases same), (fun fires => by cases fires)⟩
  exact ⟨by decide +kernel, fun c asked => calls_meet c (.step plainEnv (openConn 5000) _ (reach_open Timely 5000 (timely_open 5000))
    timely asked)⟩

-- In LASTACK no window is taken any more: all that was sent is acked, and two bytes and the FIN are still to go.
def restUnsent : World :=
  steps (openConn 4)
    [(plainEnv, .send [1, 2, 3, 4] false), (plainEnv, .send [5, 6] false),
     (plainEnv, .segment (peerSeg 5001 1001 TCPF_FIN_ACK 4 0 []) false), (plainEnv, .shutdown 1),
     (plainEnv, .segment (peerSeg 5002 1005 TCPF_ACK 4 0 []) false)]

theorem call_outside : ¬ ∀ c, Invoked (fun _ _ _ => True) c → Meets c := by
  intro meets
  have outside : (stepCalls plainEnv restUnsent .wakeme).map (fun c => sndsegCut c.b c.wnd1st c.wndnxt) = [.outside] := by
    decide +kernel
  have reached : Reach (fun _ _ _ => True) restUnsent := by
    unfold restUnsent
    exact reach_steps _ _ (reach_open _ 4 trivial)
  obtain ⟨c, rest, calls, cut, -⟩ := List.map_eq_cons_iff.mp outside
  have asked : c ∈ stepCalls plainEnv restUnsent .wakeme := by
    rw [calls]
    exact List.mem_cons_self
  obtain ⟨tcph, finCut, piece, -⟩ := (meets c (.step plainEnv restUnsent .wakeme reached trivial asked)).piece
  rw [cut] at piece
  cases piece

end MagxNet.Tcp
