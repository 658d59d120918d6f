import MagxNet.Tcp.Reading
import MagxNet.Tcp.Gate

set_option autoImplicit false

namespace MagxNet.Tcp

open Bytes Serial

-- A segment of a peer whose stream is S: its SYN stands right in front of the first byte, its FIN behind the last.
structure Brings (S : List Byte) (base : Seq) (tcph : Dgram) : Prop where
  piece : Piece S base (unsyn tcph)
  first : tcph.flags.syn = true → tcph.seq + 1 = base

-- Ordinary reading of a connection that is not given up, from a peer that sends the stream.
def OfStream (S : List Byte) (base : Seq) : Op → Prop
  | .segment pkt _ => Brings S base pkt.tcph
  | .recv args | .recvWoken args => args.oob = false
  | .detach => False
  | _ => True

-- The bytes that a step hands to the reader for good.
def readBy (env : Env) (w : World) : Op → List Byte
  | .recv args => if w.alive ∧ w.data.sock.isSome ∧ ¬ args.peek then given (tcpRecv env w args).1 else []
  | .recvWoken args => if w.alive ∧ w.data.sock.isSome ∧ ¬ args.peek then given (tcpRecvWoken env w args).1 else []
  | _ => []

-- The part of the stream that a step puts into the receive queue.
def came (base : Seq) (env : Env) (w : World) : Op → Set Nat
  | .segment pkt _ => if takes env w pkt then span base (unsyn pkt.tcph) else ∅
  | _ => ∅

-- The runs of a connection from its first SYN on: what its reader has got, and what has come.
inductive Streamed (S : List Byte) (base : Seq) : World → List Byte → Set Nat → Prop
  | connect (env : Env) (w : World) (args : ConnectArgs) : Configured w → (tcpConnect env w args).tcb.state = .synsent →
      Streamed S base (tcpConnect env w args) [] ∅
  | listen (env : Env) (w : World) (pkt : Pkt) (duplicate : Bool) (child : World) : inputSpawn env w pkt duplicate = some child →
      Brings S base pkt.tcph → Streamed S base child [] (span base (unsyn pkt.tcph))
  | step (env : Env) (w : World) (bytes : List Byte) (got : Set Nat) (op : Op) : Streamed S base w bytes got → OfStream S base op →
      Streamed S base (step env w op) (bytes ++ readBy env w op) (got ∪ came base env w op)

-- How far a connection has got with the stream.
inductive Phase (S : List Byte) (base : Seq) (w : World) (bytes : List Byte) (got : Set Nat) : Prop
  | asks : w.tcb.state = .synsent → w.data.rcv.q = [] → w.tcb.flags.fin = false → bytes = [] → got = ∅ → Phase S base w bytes got
  | streams (m : Nat) : w.tcb.state = .closed ∨ w.tcb.state.synced = true → bytes = S.take bytes.length →
      Follows S base w bytes.length m got → Phase S base w bytes got
  | gone : (rcvSide w).gone → bytes = S.take bytes.length → Phase S base w bytes got

section

variable (S : List Byte) (base : Seq)

theorem phase_prefix (w : World) (bytes : List Byte) (got : Set Nat) (phase : Phase S base w bytes got) :
    bytes = S.take bytes.length := by
  cases phase with
  | asks asking queue fin none none' =>
      rw [none]
      rfl
  | streams m late run follows => exact run
  | gone gone run => exact run

theorem phase_rests (w w' : World) (bytes : List Byte) (got : Set Nat) (phase : Phase S base w bytes got)
    (rests : Rests (rcvSide w) (rcvSide w')) : Phase S base w' bytes got := by
  have run := phase_prefix S base w bytes got phase
  obtain gone | quiet := rests_quiet w w' rests
  · exact .gone gone run
  obtain gone | ⟨-, state⟩ := rests
  · exact .gone gone run
  change w'.tcb.state = w.tcb.state ∨ w'.tcb.state = .closed ∨ w.tcb.state.synced = true ∧ w'.tcb.state.synced = true at state
  cases phase with
  | asks asking queue fin none none' =>
      obtain same | closed | ⟨synced, -⟩ := state
      · exact .asks (same.trans asking) (quiet.queue.trans queue) (quiet.fin.trans fin) none none'
      · exact .gone ⟨closed, quiet.queue.trans queue⟩ run
      · rw [asking] at synced
        cases synced
  | streams m late _ follows =>
      refine .streams m ?_ run (quiet_follows S base w w' _ m got follows quiet)
      obtain same | closed | ⟨-, synced⟩ := state
      · rw [same]
        exact late
      · exact Or.inl closed
      · exact Or.inr synced
  | gone gone _ =>
      refine .gone ⟨?_, quiet.queue.trans gone.2⟩ run
      obtain same | closed | ⟨synced, -⟩ := state
      · exact same.trans gone.1
      · exact closed
      · rw [show w.tcb.state = .closed from gone.1] at synced
        cases synced

-- The data behind a SYN is taken as if the SYN had come before.
theorem rcvdata_unsyn (env : Env) (w : World) (pkt : Pkt) (syn : pkt.tcph.flags.syn = true) :
    tcpRcvdata env w pkt = tcpRcvdata env (setRcvNxt w (w.tcb.rcvNxt + 1)) { pkt with tcph := unsyn pkt.tcph } := by
  have bare : unsyn pkt.tcph = { pkt.tcph with flags.syn := false, seq := pkt.tcph.seq + 1 } := if_pos syn
  have segs : rcvSeg { pkt with tcph := unsyn pkt.tcph } = rcvSeg pkt := by
    rw [bare]
    unfold rcvSeg
    dsimp only
    rw [if_neg Bool.false_ne_true, if_pos syn]
    rfl
  have noted : noteSyn (setRcvNxt w (w.tcb.rcvNxt + 1)) { pkt with tcph := unsyn pkt.tcph } = noteSyn w pkt := by
    unfold noteSyn
    rw [if_pos syn, bare, if_neg Bool.false_ne_true]
  have flags : rcvFlags (setRcvNxt w (w.tcb.rcvNxt + 1)) { pkt with tcph := unsyn pkt.tcph } = rcvFlags w pkt := by
    unfold rcvFlags notePsh noteFin segStop
    rw [noted, segs, bare]
    rfl
  unfold tcpRcvdata rcvTaken rcvQueue acksNow
  rw [flags, segs, bare]
  rfl

-- Where nothing is queued, nothing is read.
theorem empty_reads (env : Env) (w : World) (args : RecvArgs) (empty : w.data.rcv.q = []) :
    given (recvRound env w args).1 = [] ∧ (recvRound env w args).2 = w := by
  have nothing : seekSeg w args.oob = ([], if args.oob then w.tcb.seqUread else w.tcb.seqRead) := by
    unfold seekSeg
    rw [empty]
    rfl
  unfold recvRound
  rw [nothing]
  dsimp only
  split
  · exact ⟨rfl, rfl⟩
  · split
    · exact ⟨rfl, rfl⟩
    · split <;> exact ⟨rfl, rfl⟩

theorem peek_leaves (env : Env) (w : World) (args : RecvArgs) (peek : args.peek = true) : (recvRound env w args).2 = w := by
  unfold recvRound
  split
  · split
    · rfl
    · split
      · rfl
      · split <;> rfl
  · unfold recvCopy
    rw [peek]
    rfl

theorem empty_recv (env : Env) (w : World) (args : RecvArgs) (empty : w.data.rcv.q = []) :
    given (tcpRecv env w args).1 = [] ∧ (tcpRecv env w args).2 = w := by
  unfold tcpRecv
  split
  · exact ⟨rfl, rfl⟩
  · split
    · exact ⟨rfl, rfl⟩
    · exact empty_reads env w args empty

theorem empty_woken (env : Env) (w : World) (args : RecvArgs) (empty : w.data.rcv.q = []) :
    given (tcpRecvWoken env w args).1 = [] ∧ rcvSide (tcpRecvWoken env w args).2 = rcvSide w := by
  unfold tcpRecvWoken
  split
  · exact ⟨rfl, rfl⟩
  · split
    · exact ⟨rfl, rfl⟩
    · obtain ⟨nothing, same⟩ := empty_reads env w args empty
      exact ⟨nothing, congrArg rcvSide same⟩

theorem peek_rests (env : Env) (w : World) (args : RecvArgs) (peek : args.peek = true) :
    rcvSide (tcpRecv env w args).2 = rcvSide w ∧ rcvSide (tcpRecvWoken env w args).2 = rcvSide w := by
  have same := congrArg rcvSide (peek_leaves env w args peek)
  constructor
  · unfold tcpRecv
    split
    · rfl
    · split
      · rfl
      · exact same
  · unfold tcpRecvWoken
    split
    · rfl
    · split
      · rfl
      · exact same

theorem taken_extends (bytes more : List Byte) (k : Nat) (run : bytes = S.take bytes.length)
    (inside : bytes.length + k ≤ S.length) (next : more = (S.drop bytes.length).take k) :
    bytes ++ more = S.take (bytes ++ more).length ∧ (bytes ++ more).length = bytes.length + k := by
  have length : (bytes ++ more).length = bytes.length + k := by
    rw [List.length_append, next, List.length_take, List.length_drop]
    omega
  rw [length, List.take_add, ← run, ← next]
  exact ⟨rfl, rfl⟩

-- One read, of a connection in any phase.
theorem phase_reads (w w' : World) (bytes more : List Byte) (got : Set Nat) (phase : Phase S base w bytes got)
    (state : w'.tcb.state = w.tcb.state) (empty : w.data.rcv.q = [] → more = [] ∧ rcvSide w' = rcvSide w)
    (consumes : ∀ n, Reads S base w n → ∃ k : Nat, more = (S.drop n).take k ∧ Consumes S base w w' n k) :
    Phase S base w' (bytes ++ more) got := by
  have idle : w.data.rcv.q = [] → Phase S base w' (bytes ++ more) got := by
    intro queue
    obtain ⟨nothing, same⟩ := empty queue
    rw [nothing, List.append_nil]
    exact phase_rests S base w w' bytes got phase (rests_same w w' same)
  cases phase with
  | asks asking queue fin none none' => exact idle queue
  | gone gone run => exact idle gone.2
  | streams m late run follows =>
      obtain ⟨k, result, takes⟩ := consumes _ follows.reads
      obtain ⟨whole, length⟩ := taken_extends S bytes more k run takes.reads.below result
      refine .streams m ?_ whole ?_
      · rw [state]
        exact late
      · rw [length]
        exact consumes_follows S base w w' _ k m got follows takes

variable (short : S.length + 1 < 2 ^ 31)

include short

theorem recv_phase (env : Env) (w : World) (bytes : List Byte) (got : Set Nat) (args : RecvArgs) (normal : args.oob = false)
    (phase : Phase S base w bytes got) :
    Phase S base (step env w (.recv args)) (bytes ++ readBy env w (.recv args)) got
      ∧ Phase S base (step env w (.recvWoken args)) (bytes ++ readBy env w (.recvWoken args)) got := by
  have stays : ∀ more, more = [] → Phase S base w (bytes ++ more) got := by
    rintro more rfl
    rw [List.append_nil]
    exact phase
  by_cases may : w.alive ∧ w.data.sock.isSome
  · have first : step env w (.recv args) = (tcpRecv env w args).2 := (if_pos may.1).trans (if_pos may.2)
    have woken : step env w (.recvWoken args) = (tcpRecvWoken env w args).2 := (if_pos may.1).trans (if_pos may.2)
    by_cases peek : args.peek = true
    · obtain ⟨same, same'⟩ := peek_rests env w args peek
      have none : readBy env w (.recv args) = [] := if_neg fun all => all.2.2 peek
      have none' : readBy env w (.recvWoken args) = [] := if_neg fun all => all.2.2 peek
      rw [first, woken, none, none', List.append_nil]
      exact ⟨phase_rests S base w _ bytes got phase (rests_same w _ same),
        phase_rests S base w _ bytes got phase (rests_same w _ same')⟩
    · have taken := Bool.eq_false_of_not_eq_true peek
      have read : readBy env w (.recv args) = given (tcpRecv env w args).1 := if_pos ⟨may.1, may.2, peek⟩
      have read' : readBy env w (.recvWoken args) = given (tcpRecvWoken env w args).1 := if_pos ⟨may.1, may.2, peek⟩
      rw [first, woken, read, read']
      constructor
      · refine phase_reads S base w _ bytes _ got phase ?_ (fun empty => ?_) fun n reads => ?_
        · unfold tcpRecv
          split
          · rfl
          · split
            · rfl
            · exact congrArg Standing.state (standing_recv_round env w args)
        · obtain ⟨nothing, same⟩ := empty_recv env w args empty
          exact ⟨nothing, congrArg rcvSide same⟩
        · obtain ⟨k, result, consumes, -⟩ := tcp_recv_reads S base short env w args n normal taken reads
          exact ⟨k, result, consumes⟩
      · refine phase_reads S base w _ bytes _ got phase ?_ (empty_woken env w args) fun n reads => ?_
        · unfold tcpRecvWoken
          split
          · rfl
          · split
            · rfl
            · exact congrArg Standing.state (standing_recv_round env w args)
        · exact woken_reads S base short env w args n normal taken reads
  · have none : readBy env w (.recv args) = [] := if_neg fun all => may ⟨all.1, all.2.1⟩
    have none' : readBy env w (.recvWoken args) = [] := if_neg fun all => may ⟨all.1, all.2.1⟩
    have idle : ∀ op, netStep env w op = (if w.data.sock.isSome then userStep env w op else w) → step env w op = w := by
      intro op shape
      unfold step
      split
      · rename_i alive
        rw [shape, if_neg fun sock => may ⟨alive, sock⟩]
      · rfl
    rw [idle (.recv args) rfl, idle (.recvWoken args) rfl]
    exact ⟨stays _ none, stays _ none'⟩

theorem begun_follows (env : Env) (w : World) (pkt : Pkt) (begun : Begun pkt.tcph.seq w) (syn : pkt.tcph.flags.syn = true)
    (sends : Brings S base pkt.tcph) :
    ∃ m, Follows S base (tcpRcvdata env w pkt) 0 m (span base (unsyn pkt.tcph)) := by
  obtain ⟨read, uread, nxt, fin, queue⟩ := begun
  have first := sends.first syn
  have fresh : Fresh base (setRcvNxt w (w.tcb.rcvNxt + 1)) :=
    ⟨read.trans first, uread.trans first, (congrArg (· + 1) nxt).trans first, fin, queue⟩
  obtain ⟨start, length⟩ := piece_start S base { pkt with tcph := unsyn pkt.tcph } sends.piece
  obtain ⟨m, -, follows⟩ := rcvdata_follows S base short env
    (setRcvNxt w (w.tcb.rcvNxt + 1)) { pkt with tcph := unsyn pkt.tcph } 0 0 ∅
    (fresh_follows S base _ fresh) sends.piece fun real => by
      refine ⟨if_neg fun both => Bool.false_ne_true (fin.symm.trans both.1), Or.inl ?_⟩
      unfold stopAt
      change (DATLEN (rcvSeg { pkt with tcph := unsyn pkt.tcph }) : Int) = tcpDatalen (unsyn pkt.tcph) at length
      change 0 < tcpDatalen (unsyn pkt.tcph) at real
      omega
  rw [rcvdata_unsyn env w pkt syn, ← Set.empty_union (span base (unsyn pkt.tcph))]
  exact ⟨m, follows⟩

omit short in
theorem takes_plain (env : Env) (w : World) (pkt : Pkt) (takes : takesIn env w pkt = true) (late : w.tcb.state ≠ .synsent) :
    pkt.tcph.flags.syn = false := by
  have bare : resetOrSyn pkt = false → pkt.tcph.flags.syn = false := fun plain => ((Bool.or_eq_false_iff).mp plain).2
  have welcome : (!unwelcome w pkt) = true →
    pkt.tcph.flags.syn = false := fun welcome => (welcome_plain w pkt ((Bool.not_eq_true' _).mp welcome)).2
  unfold takesIn at takes
  split at takes
  · rename_i asking
    exact absurd asking late
  · exact bare ((Bool.not_eq_true' _).mp ((Bool.and_eq_true _ _).mp takes).1)
  · exact bare ((Bool.not_eq_true' _).mp ((Bool.and_eq_true _ _).mp takes).1)
  · exact welcome ((Bool.and_eq_true _ _).mp takes).1
  · exact welcome ((Bool.and_eq_true _ _).mp takes).1
  · exact welcome takes
  · cases takes

-- A segment of the stream, in any phase.
theorem segment_phase (env : Env) (w : World) (bytes : List Byte) (got : Set Nat) (pkt : Pkt) (duplicate : Bool)
    (alive : w.alive = true) (sends : Brings S base pkt.tcph) (phase : Phase S base w bytes got) :
    Phase S base (inputFound env w pkt duplicate) bytes (got ∪ came base env w (.segment pkt duplicate)) := by
  have urg : pkt.tcph.flags.urg = false := by
    have plain := sends.piece.urg
    unfold unsyn at plain
    split at plain <;> exact plain
  have gates : inputUrgent env w pkt = (pkt, setLastRecv w) := if_neg (by rw [urg]; exact Bool.false_ne_true)
  have conn : gateConn env w pkt = setLastRecv w := congrArg Prod.snd gates
  have seg : gateSeg env w pkt = gatePkt (setLastRecv w) pkt := by
    unfold gateSeg
    rw [conn, gates]
  have heard : Phase S base (setLastRecv w) bytes got := phase_rests S base w _ bytes got phase (rests_refl _)
  by_cases through : accepted env w pkt = true
  · have valid : (tcpValid (setLastRecv w) pkt.tcph).1 = true := by
      unfold accepted at through
      rw [conn, gates] at through
      exact through
    rw [input_found_accepted env w pkt duplicate through, conn, seg]
    have taking : takes env w pkt = takesIn env (setLastRecv w) (gatePkt (setLastRecv w) pkt) := by
      unfold takes
      rw [alive, through, conn, seg]
      rfl
    have brings : came base env w (.segment pkt duplicate)
        = if takesIn env (setLastRecv w) (gatePkt (setLastRecv w) pkt) then span base (unsyn pkt.tcph) else ∅ := by
      rw [← taking]
      rfl
    rw [brings]
    generalize setLastRecv w = v at *
    have rests : ∀ w', takesIn env v (gatePkt v pkt) = false → Rests (rcvSide v) (rcvSide w') →
        Phase S base w' bytes (got ∪ if takesIn env v (gatePkt v pkt) then span base (unsyn pkt.tcph) else ∅) := by
      intro w' refused rests
      rw [refused, if_neg Bool.false_ne_true, Set.union_empty]
      exact phase_rests S base v w' bytes got heard rests
    cases takes : takesIn env v (gatePkt v pkt) with
    | false =>
        rw [← takes]
        cases heard with
        | asks asking queue fin none none' =>
            unfold tcbState
            rw [asking]
            exact rests _ takes ((synsent_meets env v (gatePkt v pkt) asking fin queue).2 takes)
        | streams m late run follows => exact rests _ takes ((synced_meets env v (gatePkt v pkt) duplicate late).2 takes)
        | gone gone run => exact rests _ takes ((synced_meets env v (gatePkt v pkt) duplicate (Or.inl gone.1)).2 takes)
    | true =>
        rw [if_pos rfl]
        cases heard with
        | asks asking queue fin none none' =>
            have open' : gatePkt v pkt = pkt := by
              unfold gatePkt tcpValid
              rw [asking, if_pos (by decide)]
              rfl
            rw [open'] at takes ⊢
            obtain ⟨syn, x, begun, synced, same⟩ := (synsent_meets env v pkt asking fin queue).1 takes
            obtain ⟨m, follows⟩ := begun_follows S base short env x pkt begun syn sends
            unfold tcbState
            rw [asking, none, none', Set.empty_union]
            have state := (rcv_state _ _ same).trans (rcvdata_state env x pkt)
            refine .streams m (Or.inr (state ▸ synced)) rfl (quiet_follows S base _ _ 0 m _ follows (quiet_same _ _ ?_))
            rw [same]
            exact congrArg (fun s => { rcvSide (tcpRcvdata env x pkt) with state := s }) (rcv_state _ _ same).symm
        | streams m late run follows =>
            obtain ⟨x, rests, synced, after⟩ := (synced_meets env v (gatePkt v pkt) duplicate late).1 takes
            have open' : ¬ (rcvSide x).gone := fun gone => by
              rw [show x.tcb.state = .closed from gone.1] at synced
              cases synced
            have quiet := (rests_quiet v x rests).resolve_left open'
            have before : v.tcb.state.synced = true := by
              obtain same | closed | both := (rests.resolve_left open').2
              · exact (congrArg TcbState.synced same).symm.trans synced
              · rw [show x.tcb.state = .closed from closed] at synced
                cases synced
              · exact both.1
            have plain := takes_plain env v (gatePkt v pkt) takes fun asking => by
              rw [asking] at before
              cases before
            obtain ⟨m', -, follows'⟩ := arrive_follows S base short env v x pkt _ m got
              (quiet_follows S base v x _ m got follows quiet)
              quiet.nxt sends.piece before valid plain
            have taken : Phase S base (tcpRcvdata env x (gatePkt v pkt)) bytes (got ∪ span base (unsyn pkt.tcph)) :=
              .streams m' (Or.inr (by rw [rcvdata_state]; exact synced)) run follows'
            exact phase_rests S base _ _ bytes _ taken after
        | gone gone run =>
            unfold takesIn at takes
            rw [show v.tcb.state = .closed from gone.1] at takes
            cases takes
  · have refused : accepted env w pkt = false := Bool.eq_false_of_not_eq_true through
    have deaf : takes env w pkt = false := by
      unfold takes
      rw [refused, Bool.and_false, Bool.false_and]
    have brings : came base env w (.segment pkt duplicate) = ∅ := if_neg (by rw [deaf]; exact Bool.false_ne_true)
    rw [input_found_refused env w pkt duplicate refused, conn, brings, Set.union_empty]
    exact phase_rests S base _ _ bytes got heard (rests_same _ _ (rcv_steady _ _ (steady_sndack env _ _)))

theorem step_phase (env : Env) (w : World) (bytes : List Byte) (got : Set Nat) (op : Op) (fits : OfStream S base op)
    (phase : Phase S base w bytes got) :
    Phase S base (step env w op) (bytes ++ readBy env w op) (got ∪ came base env w op) := by
  have rests : readBy env w op = [] → came base env w op = ∅ → Rests (rcvSide w) (rcvSide (netStep env w op)) →
      Phase S base (step env w op) (bytes ++ readBy env w op) (got ∪ came base env w op) := by
    intro none none' rests
    rw [none, none', List.append_nil, Set.union_empty]
    unfold step
    split
    · exact phase_rests S base w _ bytes got phase rests
    · exact phase
  cases op with
  | segment pkt duplicate =>
      rw [show readBy env w (.segment pkt duplicate) = [] from rfl, List.append_nil]
      by_cases alive : w.alive = true
      · rw [show step env w (.segment pkt duplicate) = inputFound env w pkt duplicate from if_pos alive]
        exact segment_phase S base short env w bytes got pkt duplicate alive fits phase
      · have deaf : takes env w pkt = false := by
          unfold takes
          rw [Bool.eq_false_of_not_eq_true alive]
          rfl
        rw [show step env w (.segment pkt duplicate) = w from if_neg alive,
          show came base env w (.segment pkt duplicate) = ∅ from if_neg (by rw [deaf]; exact Bool.false_ne_true), Set.union_empty]
        exact phase
  | recv args =>
      rw [show came base env w (.recv args) = ∅ from rfl, Set.union_empty]
      exact (recv_phase S base short env w bytes got args fits phase).1
  | recvWoken args =>
      rw [show came base env w (.recvWoken args) = ∅ from rfl, Set.union_empty]
      exact (recv_phase S base short env w bytes got args fits phase).2
  | error id error => exact rests rfl rfl (rests_error w id error)
  | wakeme => exact rests rfl rfl (rests_timer env w _ (Or.inl rfl))
  | deleteme => exact rests rfl rfl (rests_timer env w _ (Or.inr (Or.inl rfl)))
  | dodelack => exact rests rfl rfl (rests_timer env w _ (Or.inr (Or.inr rfl)))
  | send bytes oob => exact rests rfl rfl (rests_call env w _ trivial)
  | sendWoken bytes oob => exact rests rfl rfl (rests_call env w _ trivial)
  | shutdown how => exact rests rfl rfl (rests_call env w _ trivial)
  | detach => exact fits.elim
  | accept => exact rests rfl rfl (rests_call env w _ trivial)
  | rcvbuf val => exact rests rfl rfl (rests_call env w _ trivial)
  | sndbuf val => exact rests rfl rfl (rests_call env w _ trivial)
  | nodelay set => exact rests rfl rfl (rests_call env w _ trivial)
  | oobinline set => exact rests rfl rfl (rests_call env w _ trivial)
  | takeErr => exact rests rfl rfl (rests_call env w _ trivial)
  | tick delta => exact rests rfl rfl (rests_refl _)

omit short in
theorem configured_empty (w : World) (configured : Configured w) : w.data.rcv.q = [] ∧ w.tcb.flags.fin = false := by
  induction configured with
  | attach sport net => exact ⟨rfl, rfl⟩
  | rcvbuf w val _ ih =>
      unfold setRcvbuf
      split <;> exact ih
  | sndbuf w val _ ih =>
      unfold setSndbuf
      split <;> exact ih
  | nodelay w set _ ih => exact ih
  | oobinline w set _ ih => exact ih
  | net w net _ ih => exact ih

omit short in
theorem connect_phase (env : Env) (w : World) (args : ConnectArgs) (configured : Configured w)
    (asking : (tcpConnect env w args).tcb.state = .synsent) : Phase S base (tcpConnect env w args) [] ∅ := by
  obtain ⟨queue, fin⟩ := configured_empty w configured
  have kept : (tcpConnect env w args).data.rcv.q = w.data.rcv.q ∧ (tcpConnect env w args).tcb.flags.fin = w.tcb.flags.fin := by
    unfold tcpConnect
    split
    · exact ⟨rfl, rfl⟩
    · split
      · exact ⟨rfl, rfl⟩
      · have sent := rcv_output env (connectStart env w args) [] TCPF_SYN rfl
        have start : (connectStart env w args).data.rcv.q = w.data.rcv.q
          ∧ (connectStart env w args).tcb.flags.fin = w.tcb.flags.fin := by
          unfold connectStart openRcvMss limitRcv
          split
          · exact ⟨rfl, rfl⟩
          · dsimp only
            split <;> exact ⟨rfl, rfl⟩
        exact ⟨(congrArg RcvSide.queue sent).trans start.1, (congrArg RcvSide.fin sent).trans start.2⟩
  exact .asks asking (kept.1.trans queue) (kept.2.trans fin) rfl rfl

theorem listen_phase (env : Env) (w : World) (pkt : Pkt) (duplicate : Bool) (child : World)
    (spawns : inputSpawn env w pkt duplicate = some child) (sends : Brings S base pkt.tcph) :
    Phase S base child [] (span base (unsyn pkt.tcph)) := by
  unfold inputSpawn at spawns
  split at spawns
  · rename_i listening
    have urg : pkt.tcph.flags.urg = false := by
      have plain := sends.piece.urg
      unfold unsyn at plain
      split at plain <;> exact plain
    have gates : inputUrgent env w pkt = (pkt, setLastRecv w) := if_neg (by rw [urg]; exact Bool.false_ne_true)
    have open' : gatePkt (setLastRecv w) pkt = pkt := by
      unfold gatePkt tcpValid
      rw [show (setLastRecv w).tcb.state = .listen from listening, if_pos (by decide)]
      rfl
    rw [gates, open'] at spawns
    unfold listenSpawn at spawns
    split at spawns
    · cases spawns
    · rename_i news
      have syn : pkt.tcph.flags.syn = true := by
        simp only [not_or, not_not] at news
        exact news.2.1
      split at spawns
      · injection spawns with made
        rw [← made]
        have begun : Begun pkt.tcph.seq (openSndMss env
          (setSockState (listenChild env (setLastRecv w) pkt) .isconnecting) pkt) := by
          have born : Begun pkt.tcph.seq (setSockState (listenChild env (setLastRecv w) pkt) .isconnecting) := by
            unfold listenChild openRcvMss limitRcv
            split
            · exact ⟨rfl, rfl, rfl, rfl, rfl⟩
            · dsimp only
              split <;> exact ⟨rfl, rfl, rfl, rfl, rfl⟩
          refine begun_same _ _ _ born ?_
          have sized := rcv_open_snd_mss env pkt (setSockState (listenChild env (setLastRecv w) pkt) .isconnecting)
          rw [sized]
          exact congrArg (fun s => { rcvSide (setSockState (listenChild env (setLastRecv w) pkt) .isconnecting) with state := s })
            (rcv_state _ _ sized).symm
        obtain ⟨m, follows⟩ := begun_follows S base short env _ pkt begun syn sends
        have same := rcv_output env (tcpRcvdata env
          (openSndMss env (setSockState (listenChild env (setLastRecv w) pkt) .isconnecting) pkt) pkt) [] TCPF_SYN_ACK rfl
        refine .streams m (Or.inr ?_) rfl (quiet_follows S base _ _ 0 m _ follows (quiet_same _ _ ?_))
        · rw [show (childAnswer env (listenChild env (setLastRecv w) pkt) pkt).tcb.state = .synrcvd from
            congrArg Standing.state (standing_child env (setLastRecv w) pkt)]
          rfl
        · unfold childAnswer synAck
          rw [same]
          exact congrArg (fun s => { rcvSide (tcpRcvdata env (openSndMss env (setSockState (listenChild env (setLastRecv w) pkt)
            .isconnecting) pkt) pkt) with state := s }) (rcv_state _ _ same).symm
      · cases spawns
  · cases spawns

theorem streamed_phase (w : World) (bytes : List Byte) (got : Set Nat) (run : Streamed S base w bytes got) :
    Phase S base w bytes got := by
  induction run with
  | connect env w args configured asking => exact connect_phase S base env w args configured asking
  | listen env w pkt duplicate child spawns sends => exact listen_phase S base short env w pkt duplicate child spawns sends
  | step env w bytes got op _ fits ih => exact step_phase S base short env w bytes got op fits ih

end

-- The handshake, two bytes, and a reader that asks for one of them and then for all.
def twoArrived : World :=
  step plainEnv (step plainEnv synSent (.segment (peerSeg 5000 1001 TCPF_SYN_ACK 100 0 []) false))
    (.segment (peerSeg 5001 1001 TCPF_ACK 100 0 [7, 8]) false)

end MagxNet.Tcp
