import MagxNet.Tcp.Receiving

set_option autoImplicit false

namespace MagxNet.Tcp

open Bytes Serial

-- The state functions that hand a segment's data to tcp_rcvdata.
def takesIn (env : Env) (w : World) (pkt : Pkt) : Bool :=
  match w.tcb.state with
  | .synsent =>
      !(pkt.tcph.flags.ack && decide (SEQLE pkt.tcph.ack w.tcb.sndIsn ∨ SEQGT pkt.tcph.ack w.tcb.sndMax))
        && !pkt.tcph.flags.rst && pkt.tcph.flags.syn && !env.isBroadcast pkt.daddr
  | .synrcvd | .established => !resetOrSyn pkt && pkt.tcph.flags.ack
  | .finwait1 | .finwait2 => !unwelcome w pkt && pkt.tcph.flags.ack
  | .timewait => !unwelcome w pkt
  | _ => false

-- Whether the data of a segment gets into the receive queue.
def takes (env : Env) (w : World) (pkt : Pkt) : Bool :=
  w.alive && accepted env w pkt && takesIn env (gateConn env w pkt) (gateSeg env w pkt)

section

variable (env : Env) (w : World) (pkt : Pkt)

theorem rcvdata_state : (tcpRcvdata env w pkt).tcb.state = w.tcb.state := congrArg Standing.state (standing_rcvdata env w pkt)

-- The segment is taken once the state has moved on.
def Taken (w' : World) : Prop :=
  ∃ x, Rests (rcvSide w) (rcvSide x) ∧ x.tcb.state.synced ∧ Rests (rcvSide (tcpRcvdata env x pkt)) (rcvSide w')

theorem taken_acked (update : Bool) (synced : w.tcb.state.synced = true) (w' : World)
    (rests : Rests (rcvSide (tcpRcvdata env (tcpAck env w pkt update) pkt)) (rcvSide w')) : Taken env w pkt w' := by
  have same := rcv_incoming w _ (incoming_ack env w pkt update)
  exact ⟨_, rests_same w _ same, by rw [rcv_state _ _ same]; exact synced, rests⟩

theorem rests_sndrst (x : World) (same : rcvSide x = rcvSide (tcpSndrst env w pkt)) : Rests (rcvSide w) (rcvSide x) :=
  rests_same w x (same.trans (rcv_steady w _ (steady_sndrst env w pkt)))

theorem gone_refuse : (rcvSide (refuse env w pkt)).gone := by
  unfold refuse tcbDelete
  split <;> exact ⟨rfl, rfl⟩

-- Either a state function takes the data, or the receiving side rests.
def Suits (w' : World) : Prop :=
  (takesIn env w pkt = true → Taken env w pkt w') ∧ (takesIn env w pkt = false → Rests (rcvSide w) (rcvSide w'))

theorem rests_abort : Rests (rcvSide w) (rcvSide (synrcvdAbort w)) := by
  unfold synrcvdAbort
  split
  · exact rests_so_free w
  · exact Or.inl ⟨rfl, rfl⟩

theorem synrcvd_meets (state : w.tcb.state = .synrcvd) : Suits env w pkt (tcbsSynrcvd env w pkt) := by
  have synced : w.tcb.state.synced = true := by rw [state]; rfl
  unfold Suits takesIn
  rw [state]
  dsimp only
  constructor
  · intro takes
    obtain ⟨plain, acks⟩ := (Bool.and_eq_true _ _).mp takes
    obtain ⟨rst, syn⟩ := (Bool.or_eq_false_iff).mp ((Bool.not_eq_true' _).mp plain)
    unfold tcbsSynrcvd
    rw [if_neg (by rw [rst]; exact Bool.false_ne_true), if_neg (by rw [syn]; exact Bool.false_ne_true), if_neg (not_not.mpr acks)]
    have same := rcv_incoming w _ (incoming_ack env w pkt false)
    refine ⟨synrcvdOpen (tcpAck env w pkt false) pkt, ?_, rfl, ?_⟩
    · rw [← same]
      exact rests_state (tcpAck env w pkt false) .established (Or.inr ⟨by rw [rcv_state _ _ same]; exact synced, rfl⟩)
    · have open' := rcvdata_state env (synrcvdOpen (tcpAck env w pkt false) pkt) pkt
      unfold synrcvdAccept
      generalize tcpRcvdata env (synrcvdOpen (tcpAck env w pkt false) pkt) pkt = y at open' ⊢
      have noted : rcvSide (noteConnected y) = rcvSide y := by
        unfold noteConnected
        split <;> rfl
      have still : (noteConnected y).tcb.state.synced = true := by
        rw [rcv_state _ _ noted]
        exact congrArg TcbState.synced open'
      rw [← noted]
      unfold synrcvdDone
      split
      · exact rests_state (noteConnected y) .closewait (Or.inr ⟨still, rfl⟩)
      · exact rests_refl _
  · intro refused
    unfold tcbsSynrcvd
    split
    · exact rests_abort w
    · rename_i rst
      split
      · exact rests_trans _ _ _ (rests_sndrst env w pkt _ rfl) (rests_abort (tcpSndrst env w pkt))
      · rename_i syn
        split
        · exact rests_refl _
        · rename_i acks
          have takes : (!resetOrSyn pkt && pkt.tcph.flags.ack) = true := by
            unfold resetOrSyn
            rw [Bool.eq_false_of_not_eq_true rst, Bool.eq_false_of_not_eq_true syn, not_not.mp acks]
            rfl
          exact absurd (takes.symm.trans refused) (by decide)

theorem established_meets (state : w.tcb.state = .established) : Suits env w pkt (tcbsEstablished env w pkt) := by
  have synced : w.tcb.state.synced = true := by rw [state]; rfl
  unfold Suits takesIn
  rw [state]
  dsimp only
  constructor
  · intro takes
    obtain ⟨plain, acks⟩ := (Bool.and_eq_true _ _).mp takes
    obtain ⟨rst, syn⟩ := (Bool.or_eq_false_iff).mp ((Bool.not_eq_true' _).mp plain)
    unfold tcbsEstablished
    rw [if_neg (by rw [rst]; exact Bool.false_ne_true), if_neg (by rw [syn]; exact Bool.false_ne_true), if_neg (not_not.mpr acks)]
    refine taken_acked env w pkt true synced _ ?_
    unfold closewaitIfFinished
    split
    · refine rests_state _ .closewait (Or.inr ⟨?_, rfl⟩)
      rw [rcvdata_state, rcv_state _ _ (rcv_incoming w _ (incoming_ack env w pkt true))]
      exact synced
    · exact rests_refl _
  · intro refused
    unfold tcbsEstablished
    split
    · exact Or.inl ⟨rfl, rfl⟩
    · rename_i rst
      split
      · exact Or.inl ⟨rfl, rfl⟩
      · rename_i syn
        split
        · exact rests_refl _
        · rename_i acks
          have takes : (!resetOrSyn pkt && pkt.tcph.flags.ack) = true := by
            unfold resetOrSyn
            rw [Bool.eq_false_of_not_eq_true rst, Bool.eq_false_of_not_eq_true syn, not_not.mp acks]
            rfl
          exact absurd (takes.symm.trans refused) (by decide)

theorem finwait1_meets (state : w.tcb.state = .finwait1) : Suits env w pkt (tcbsFinwait1 env w pkt) := by
  have synced : w.tcb.state.synced = true := by rw [state]; rfl
  unfold Suits takesIn
  rw [state]
  dsimp only
  constructor
  · intro takes
    obtain ⟨welcome, acks⟩ := (Bool.and_eq_true _ _).mp takes
    unfold tcbsFinwait1
    rw [if_neg (by rw [(Bool.not_eq_true' _).mp welcome]; exact Bool.false_ne_true), if_neg (not_not.mpr acks)]
    refine taken_acked env w pkt true synced _ ?_
    have still : (tcpRcvdata env (tcpAck env w pkt true) pkt).tcb.state.synced = true := by
      rw [rcvdata_state, rcv_state _ _ (rcv_incoming w _ (incoming_ack env w pkt true))]
      exact synced
    unfold finwait1Done
    split
    · split
      · exact rests_timewait _ still
      · exact rests_state _ .closing (Or.inr ⟨still, rfl⟩)
    · split
      · rw [rcv_wait]
        exact rests_state _ .finwait2 (Or.inr ⟨still, rfl⟩)
      · exact rests_refl _
  · intro refused
    unfold tcbsFinwait1
    split
    · exact Or.inl (gone_refuse env w pkt)
    · rename_i welcome
      split
      · exact rests_refl _
      · rename_i acks
        rw [Bool.eq_false_of_not_eq_true welcome, not_not.mp acks] at refused
        cases refused

theorem finwait2_meets (state : w.tcb.state = .finwait2) : Suits env w pkt (tcbsFinwait2 env w pkt) := by
  have synced : w.tcb.state.synced = true := by rw [state]; rfl
  unfold Suits takesIn
  rw [state]
  dsimp only
  constructor
  · intro takes
    obtain ⟨welcome, acks⟩ := (Bool.and_eq_true _ _).mp takes
    unfold tcbsFinwait2
    rw [if_neg (by rw [(Bool.not_eq_true' _).mp welcome]; exact Bool.false_ne_true), if_neg (not_not.mpr acks)]
    refine taken_acked env w pkt false synced _ ?_
    unfold finwait2Done
    split
    · refine rests_timewait _ ?_
      rw [rcvdata_state, rcv_state _ _ (rcv_incoming w _ (incoming_ack env w pkt false))]
      exact synced
    · exact rests_refl _
  · intro refused
    unfold tcbsFinwait2
    split
    · refine Or.inl ?_
      unfold tcbDelete
      split <;> exact ⟨rfl, rfl⟩
    · rename_i welcome
      split
      · exact rests_refl _
      · rename_i acks
        rw [Bool.eq_false_of_not_eq_true welcome, not_not.mp acks] at refused
        cases refused

theorem timewait_meets (state : w.tcb.state = .timewait) : Suits env w pkt (tcbsTimewait env w pkt) := by
  have synced : w.tcb.state.synced = true := by rw [state]; rfl
  unfold Suits takesIn
  rw [state]
  dsimp only
  constructor
  · intro welcome
    unfold tcbsTimewait
    rw [if_neg (by rw [(Bool.not_eq_true' _).mp welcome]; exact Bool.false_ne_true)]
    refine taken_acked env w pkt false synced _ ?_
    rw [rcv_wait]
    exact rests_refl _
  · intro refused
    unfold tcbsTimewait
    rw [if_pos ((Bool.not_eq_false' _).mp refused)]
    refine rests_trans _ _ _ ?_ (rests_delete _)
    refine rests_trans _ _ _ (rests_sndrst env w pkt (bufDeref (tcpSndrst env w pkt) pkt.id) rfl) ?_
    exact rests_state _ .closed (Or.inl rfl)

-- The states in which the peer has nothing more to say.
theorem ended_meets (state : w.tcb.state = .closewait ∨ w.tcb.state = .lastack ∨ w.tcb.state = .closing) (duplicate : Bool) :
    Rests (rcvSide w) (rcvSide (tcbState env w pkt duplicate)) := by
  have acked : ∀ update, rcvSide (tcpAck env w pkt update) = rcvSide w :=
    fun update => rcv_incoming w _ (incoming_ack env w pkt update)
  unfold tcbState
  obtain state | state | state := state <;> rw [state] <;> dsimp only
  · unfold tcbsClosewait
    split
    · exact Or.inl (gone_refuse env w pkt)
    · exact rests_same w _ (acked true)
  · unfold tcbsLastack
    split
    · exact Or.inl (gone_refuse env w pkt)
    · unfold lastackDone
      rw [← acked false]
      split
      · exact rests_trans _ _ _ (rests_state (tcpAck env w pkt false) .closed (Or.inl rfl)) (rests_delete _)
      · exact rests_refl _
  · unfold tcbsClosing
    split
    · exact Or.inl (gone_refuse env w pkt)
    · unfold closingDone
      split
      · rw [← acked false]
        refine rests_timewait _ ?_
        rw [rcv_state _ _ (acked false), state]
        rfl
      · exact rests_same w _ (acked false)

theorem synced_meets (duplicate : Bool) (late : w.tcb.state = .closed ∨ w.tcb.state.synced = true) :
    Suits env w pkt (tcbState env w pkt duplicate) := by
  have rests : takesIn env w pkt = false → Rests (rcvSide w) (rcvSide (tcbState env w pkt duplicate)) →
      Suits env w pkt (tcbState env w pkt duplicate) := fun refused rests =>
    ⟨fun takes => absurd (takes.symm.trans refused) (by decide), fun _ => rests⟩
  cases state : w.tcb.state with
  | closed =>
      refine rests (by unfold takesIn; rw [state]) ?_
      unfold tcbState
      rw [state]
      exact rests_sndrst env w pkt _ rfl
  | listen =>
      rw [state] at late
      obtain late | late := late <;> cases late
  | synsent =>
      rw [state] at late
      obtain late | late := late <;> cases late
  | synrcvd =>
      unfold tcbState
      rw [state]
      exact synrcvd_meets env w pkt state
  | established =>
      unfold tcbState
      rw [state]
      exact established_meets env w pkt state
  | finwait1 =>
      unfold tcbState
      rw [state]
      exact finwait1_meets env w pkt state
  | finwait2 =>
      unfold tcbState
      rw [state]
      exact finwait2_meets env w pkt state
  | timewait =>
      unfold tcbState
      rw [state]
      exact timewait_meets env w pkt state
  | closewait => exact rests (by unfold takesIn; rw [state]) (ended_meets env w pkt (Or.inl state) duplicate)
  | lastack => exact rests (by unfold takesIn; rw [state]) (ended_meets env w pkt (Or.inr (Or.inl state)) duplicate)
  | closing => exact rests (by unfold takesIn; rw [state]) (ended_meets env w pkt (Or.inr (Or.inr state)) duplicate)

-- The receiving side starts with the peer's SYN.
def Begun (seq : Seq) (w : World) : Prop :=
  w.tcb.seqRead = seq + 1 ∧ w.tcb.seqUread = seq + 1 ∧ w.tcb.rcvNxt = seq ∧ w.tcb.flags.fin = false ∧ w.data.rcv.q = []

theorem rcv_open_snd_mss (x : World) : rcvSide (openSndMss env x pkt) = rcvSide x := by
  unfold openSndMss
  split
  · rfl
  · change rcvSide (limitRcv env x _ _) = _
    unfold limitRcv
    split
    · rfl
    · dsimp only
      split <;> rfl

theorem begun_same (seq : Seq) (x y : World) (begun : Begun seq x) (same : rcvSide y = { rcvSide x with state := y.tcb.state }) :
    Begun seq y := by
  obtain ⟨read, uread, nxt, fin, queue⟩ := begun
  exact ⟨(congrArg RcvSide.read same).trans read, (congrArg RcvSide.uread same).trans uread, (congrArg RcvSide.nxt same).trans nxt,
    (congrArg RcvSide.fin same).trans fin, (congrArg RcvSide.queue same).trans queue⟩

theorem synsent_meets (asking : w.tcb.state = .synsent) (fin : w.tcb.flags.fin = false) (queue : w.data.rcv.q = []) :
    (takesIn env w pkt = true → pkt.tcph.flags.syn = true ∧ ∃ x, Begun pkt.tcph.seq x ∧ x.tcb.state.synced
      ∧ rcvSide (tcbsSynsent env w pkt) = rcvSide (tcpRcvdata env x pkt))
    ∧ (takesIn env w pkt = false → Rests (rcvSide w) (rcvSide (tcbsSynsent env w pkt))) := by
  unfold takesIn
  rw [asking]
  dsimp only
  constructor
  · intro takes
    simp only [Bool.and_eq_true, Bool.not_eq_true', Bool.and_eq_false_iff, decide_eq_false_iff_not] at takes
    obtain ⟨⟨⟨acks, rst⟩, syn⟩, broadcast⟩ := takes
    refine ⟨syn, ?_⟩
    have wellAcked : ¬ (pkt.tcph.flags.ack ∧ (SEQLE pkt.tcph.ack w.tcb.sndIsn ∨ SEQGT pkt.tcph.ack w.tcb.sndMax)) := by
      rintro ⟨ack, beyond⟩
      obtain none | within := acks
      · exact Bool.false_ne_true (none.symm.trans ack)
      · exact within beyond
    unfold tcbsSynsent
    rw [if_neg wellAcked, if_neg (by rw [rst]; exact Bool.false_ne_true), if_neg (by rw [syn, broadcast]; simp)]
    unfold synsentAccept
    have started : Begun pkt.tcph.seq (startRcv w pkt.tcph.seq) := ⟨rfl, rfl, rfl, fin, queue⟩
    have acked := rcv_incoming (startRcv w pkt.tcph.seq) _ (incoming_ack env (startRcv w pkt.tcph.seq) pkt false)
    generalize tcpAck env (startRcv w pkt.tcph.seq) pkt false = y at acked ⊢
    have opened : (synsentOpen y pkt).tcb.state.synced = true
      ∧ rcvSide (synsentOpen y pkt) = { rcvSide y with state := (synsentOpen y pkt).tcb.state } := by
      unfold synsentOpen
      split <;> exact ⟨rfl, rfl⟩
    have sized := rcv_open_snd_mss env pkt (synsentOpen y pkt)
    refine ⟨openSndMss env (synsentOpen y pkt) pkt, ?_, ?_, ?_⟩
    · refine begun_same _ _ _ (begun_same _ _ _ (begun_same _ _ y started ?_) opened.2) ?_
      · rw [acked]
        exact congrArg (fun s => { rcvSide (startRcv w pkt.tcph.seq) with state := s }) (rcv_state _ _ acked).symm
      · rw [sized]
        exact congrArg (fun s => { rcvSide (synsentOpen y pkt) with state := s }) (rcv_state _ _ sized).symm
    · rw [rcv_state _ _ sized]
      exact opened.1
    · exact rcv_steady _ _ (steady_send_ack env _)
  · intro refused
    unfold tcbsSynsent
    split
    · exact rests_sndrst env w pkt _ rfl
    · rename_i wellAcked
      split
      · split
        · exact Or.inl ⟨rfl, rfl⟩
        · exact rests_refl _
      · rename_i rst
        split
        · exact rests_refl _
        · rename_i news
          exfalso
          simp only [not_or, not_not] at news
          obtain ⟨syn, broadcast⟩ := news
          rw [Bool.eq_false_of_not_eq_true rst, syn, Bool.eq_false_of_not_eq_true broadcast] at refused
          simp only [Bool.not_false, Bool.and_true, Bool.not_eq_false', Bool.and_eq_true, decide_eq_true_eq] at refused
          exact wellAcked refused

end

end MagxNet.Tcp
