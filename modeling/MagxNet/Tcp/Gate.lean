import MagxNet.Tcp.Frame

set_option autoImplicit false

namespace MagxNet.Tcp

open Bytes

theorem valid_shape (w : World) (tcph : Dgram) :
    ∃ seq syn fin, (tcpValid w tcph).2 = { tcph with seq := seq, flags := { tcph.flags with syn := syn, fin := fin } } := by
  unfold tcpValid
  split
  · exact ⟨tcph.seq, tcph.flags.syn, tcph.flags.fin, rfl⟩
  · split
    · unfold stripFin stripSyn
      split <;> split <;> exact ⟨_, _, _, rfl⟩
    · exact ⟨tcph.seq, tcph.flags.syn, tcph.flags.fin, rfl⟩

theorem gate_keeps_ack (w : World) (pkt : Pkt) :
    (gatePkt w pkt).tcph.flags.ack = pkt.tcph.flags.ack ∧ (gatePkt w pkt).tcph.ack = pkt.tcph.ack
      ∧ (gatePkt w pkt).tcph.window = pkt.tcph.window := by
  obtain ⟨seq, syn, fin, shape⟩ := valid_shape w pkt.tcph
  unfold gatePkt
  rw [shape]
  exact ⟨rfl, rfl, rfl⟩

theorem urgent_shape (env : Env) (w : World) (pkt : Pkt) :
    (inputUrgent env w pkt).1 = pkt ∨ (inputUrgent env w pkt).1 = clearUrg pkt
      ∨ (inputUrgent env w pkt).1 = cutUrgent pkt := by
  unfold inputUrgent tcpRcvurg
  split
  · split
    · split
      · exact Or.inr (Or.inr rfl)
      · exact Or.inr (Or.inl rfl)
    · exact Or.inr (Or.inl rfl)
  · exact Or.inl rfl

theorem urgent_keeps_ack (env : Env) (w : World) (pkt : Pkt) :
    (inputUrgent env w pkt).1.tcph.flags.ack = pkt.tcph.flags.ack ∧ (inputUrgent env w pkt).1.tcph.ack = pkt.tcph.ack
      ∧ (inputUrgent env w pkt).1.tcph.window = pkt.tcph.window := by
  obtain same | same | same := urgent_shape env w pkt <;> rw [same] <;> exact ⟨rfl, rfl, rfl⟩

-- The connection and the segment as the state function gets them.
def gateConn (env : Env) (w : World) (pkt : Pkt) : World := (inputUrgent env w pkt).2

def gateSeg (env : Env) (w : World) (pkt : Pkt) : Pkt := gatePkt (gateConn env w pkt) (inputUrgent env w pkt).1

-- Whether tcp_valid lets the segment through once tcp_rcvurg has looked at it.
def accepted (env : Env) (w : World) (pkt : Pkt) : Bool :=
  (tcpValid (gateConn env w pkt) (inputUrgent env w pkt).1.tcph).1

theorem input_found_accepted (env : Env) (w : World) (pkt : Pkt) (duplicate : Bool)
    (through : accepted env w pkt) :
    inputFound env w pkt duplicate = tcbState env (gateConn env w pkt) (gateSeg env w pkt) duplicate :=
  if_pos through

theorem input_found_refused (env : Env) (w : World) (pkt : Pkt) (duplicate : Bool)
    (refused : accepted env w pkt = false) :
    inputFound env w pkt duplicate
      = bufDeref (tcpSndack env (gateConn env w pkt) (gateSeg env w pkt)) (inputUrgent env w pkt).1.id := by
  unfold inputFound gatePass
  rw [if_neg (by unfold accepted gateConn at refused; simp [refused])]
  rfl

theorem gate_seg_keeps_ack (env : Env) (w : World) (pkt : Pkt) :
    (gateSeg env w pkt).tcph.flags.ack = pkt.tcph.flags.ack ∧ (gateSeg env w pkt).tcph.ack = pkt.tcph.ack
      ∧ (gateSeg env w pkt).tcph.window = pkt.tcph.window := by
  obtain ⟨flag, ack, window⟩ := gate_keeps_ack (gateConn env w pkt) (inputUrgent env w pkt).1
  obtain ⟨flag', ack', window'⟩ := urgent_keeps_ack env w pkt
  exact ⟨flag.trans flag', ack.trans ack', window.trans window'⟩

@[simp] theorem outgoing_gate (env : Env) (w : World) (pkt : Pkt) : outgoing (gateConn env w pkt) = outgoing w :=
  outgoing_input_urgent env w pkt

theorem gate_conn_state (env : Env) (w : World) (pkt : Pkt) : (gateConn env w pkt).tcb.state = w.tcb.state :=
  outgoing_same (·.tcb.state) _ _ (outgoing_gate env w pkt) fun _ => rfl

theorem welcome_plain (w : World) (pkt : Pkt) (welcome : unwelcome w pkt = false) :
    pkt.tcph.flags.rst = false ∧ pkt.tcph.flags.syn = false := by
  simp only [unwelcome, resetOrSyn, Bool.or_eq_false_iff] at welcome
  exact welcome.1

theorem add_untaken (q : Dataq) (buf : Buf) (refused : (tcpAddseg q buf).taken = false) :
    (tcpAddseg q buf).q = q := by
  unfold tcpAddseg at refused ⊢
  split
  · rfl
  · rename_i real
    rw [if_neg real] at refused
    split
    · rfl
    · rename_i found
      rw [found] at refused
      cases refused

-- A segment that tcp_addseg has a place for: it makes the queue longer on one side, or fills a hole
-- at least partly.
def Fills (q : Dataq) (seq1st seqnxt : Seq) : Prop :=
  q.q = [] ∨ (∃ last ∈ q.q.getLast?, SEQLT (SEQNXT last) seqnxt) ∨ (∃ first ∈ q.q.head?, SEQLT seq1st (SEQ1ST first))
    ∨ ∃ before b next behind, q.q = before ++ b :: next :: behind
        ∧ SEQLT (SEQNXT b) (SEQ1ST next) ∧ SEQLT seq1st (SEQ1ST next) ∧ SEQLT (SEQNXT b) seqnxt

theorem hole_found (seq1st seqnxt : Seq) (bufs before behind : List Buf)
    (found : holeIn seq1st seqnxt bufs = some (before, behind)) :
    ∃ front b next rest, bufs = front ++ b :: next :: rest ∧ before = front ++ [b] ∧ behind = next :: rest
      ∧ SEQLT (SEQNXT b) (SEQ1ST next) ∧ SEQLT seq1st (SEQ1ST next) ∧ SEQLT (SEQNXT b) seqnxt := by
  induction bufs generalizing before behind with
  | nil => cases found
  | cons b bufs ih =>
      cases bufs with
      | nil => cases found
      | cons next rest =>
          rw [holeIn] at found
          cases deeper : holeIn seq1st seqnxt (next :: rest) with
          | some cut =>
              obtain ⟨before', behind'⟩ := cut
              rw [deeper] at found
              obtain ⟨rfl, rfl⟩ := by simpa using found
              obtain ⟨front, b', next', rest', split, isBefore, isBehind, hole⟩ := ih before' behind' deeper
              exact ⟨b :: front, b', next', rest', by rw [split, List.cons_append], by rw [isBefore, List.cons_append],
                isBehind, hole⟩
          | none =>
              rw [deeper] at found
              dsimp only at found
              split at found
              · rename_i hole
                obtain ⟨rfl, rfl⟩ := by simpa using found
                exact ⟨[], b, next, rest, rfl, rfl, rfl, hole⟩
              · cases found

theorem hole_exists (seq1st seqnxt : Seq) (front : List Buf) (b next : Buf) (rest : List Buf)
    (hole : SEQLT (SEQNXT b) (SEQ1ST next) ∧ SEQLT seq1st (SEQ1ST next) ∧ SEQLT (SEQNXT b) seqnxt) :
    holeIn seq1st seqnxt (front ++ b :: next :: rest) ≠ none := by
  induction front with
  | nil =>
      rw [List.nil_append, holeIn]
      split
      · simp
      · rw [if_pos hole]
        simp
  | cons c front ih =>
      cases front with
      | nil =>
          rw [List.cons_append, List.nil_append, holeIn]
          split
          · simp
          · rename_i nothing
            exact (ih nothing).elim
      | cons d front =>
          rw [List.cons_append, List.cons_append, holeIn]
          split
          · simp
          · rename_i nothing
            exact (ih nothing).elim

theorem place_for_iff (q : Dataq) (buf : Buf) : placeFor q buf ≠ none ↔ Fills q (SEQ1ST buf) (SEQNXT buf) := by
  unfold placeFor Fills
  cases shape : q.q with
  | nil => simp
  | cons first rest =>
      obtain ⟨last, atLast⟩ : ∃ last, (first :: rest).getLast? = some last := ⟨_, List.getLast?_cons⟩
      rw [atLast, List.head?_cons]
      dsimp only
      by_cases longer : SEQLT (SEQNXT last) (SEQNXT buf)
      · simp [longer]
      · by_cases earlier : SEQLT (SEQ1ST buf) (SEQ1ST first)
        · simp [longer, earlier]
        · rw [if_neg longer, if_neg earlier]
          cases found : holeIn (SEQ1ST buf) (SEQNXT buf) (first :: rest) with
          | none =>
              simp only [Option.map_none, ne_eq, not_true_eq_false, reduceCtorEq, false_or, false_iff, not_or]
              refine ⟨?_, ?_, ?_⟩
              · rintro ⟨b, ⟨⟩, beyond⟩
                exact longer beyond
              · rintro ⟨b, ⟨⟩, before⟩
                exact earlier before
              · rintro ⟨before, b, next, behind, split, hole⟩
                rw [split] at found
                exact hole_exists _ _ before b next behind hole found
          | some cut =>
              obtain ⟨front, b, next, behind, split, -, -, hole⟩ := hole_found _ _ _ cut.1 cut.2 found
              simp only [Option.map_some, ne_eq, reduceCtorEq, not_false_eq_true, true_iff]
              exact Or.inr (Or.inr (Or.inr ⟨front, b, next, behind, split, hole⟩))

theorem add_taken_iff (q : Dataq) (buf : Buf) :
    (tcpAddseg q buf).taken ↔ buf.th.urgptr ≠ 0 ∧ Fills q (SEQ1ST buf) (SEQNXT buf) := by
  rw [← mark_seq1st buf false, ← mark_seqnxt buf false, ← place_for_iff]
  unfold tcpAddseg
  split
  · rename_i empty
    simp [empty]
  · rename_i real
    split
    · rename_i nothing
      simp [nothing]
    · rename_i found
      simpa [found, linkSeg] using real

-- Where an element stands that replaces a stretch around the place where a list was cut.
theorem replaced_beside (before behind kept tail : List Buf) (buf : Buf) (isPrefix : kept.length ≤ before.length)
    (isSuffix : tail.length ≤ behind.length) (same : kept ++ buf :: tail = before ++ behind) :
    before.getLast? = some buf ∨ behind.head? = some buf := by
  rw [List.append_eq_append_iff] at same
  obtain ⟨mid, rfl, rest⟩ | ⟨mid, rfl, rest⟩ := same
  · cases mid with
    | nil =>
        right
        rw [← List.nil_append behind, ← rest, List.head?_cons]
    | cons b mid =>
        obtain ⟨rfl, rfl⟩ := List.cons.inj rest
        have alone : mid = [] := by
          have short : (mid ++ behind).length ≤ behind.length := isSuffix
          rw [List.length_append] at short
          exact List.eq_nil_of_length_eq_zero (by omega)
        left
        rw [alone, List.getLast?_concat]
  · have empty : mid = [] := by
      rw [List.length_append] at isPrefix
      exact List.eq_nil_of_length_eq_zero (by omega)
    right
    rw [rest, empty, List.nil_append, List.head?_cons]

theorem add_taken_moves (q : Dataq) (buf : Buf) (taken : (tcpAddseg q buf).taken) :
    (tcpAddseg q buf).q.q ≠ q.q := by
  unfold tcpAddseg at taken ⊢
  split
  · rename_i empty
    rw [if_pos empty] at taken
    cases taken
  · rename_i real
    split
    · rename_i nothing
      rw [if_neg real, nothing] at taken
      cases taken
    · rename_i before behind cur found
      generalize buf.mark false = seg at found ⊢
      intro same
      have beside : q.q = before ++ behind → before.getLast? = some seg ∨ behind.head? = some seg := by
        intro split
        apply replaced_beside before behind _ _ seg _ _ (same.trans split)
        · exact (List.rdropWhile_prefix _ _).length_le
        · exact (List.dropWhile_sublist _).length_le
      unfold placeFor at found
      cases shape : q.q with
      | nil =>
          simp [shape, linkSeg] at same
      | cons first rest =>
          obtain ⟨last, atLast⟩ : ∃ last, (first :: rest).getLast? = some last := ⟨_, List.getLast?_cons⟩
          rw [shape, atLast, List.head?_cons] at found
          dsimp only at found
          split at found
          · rename_i longer
            obtain ⟨rfl, rfl, rfl⟩ := by simpa using found
            obtain isLast | isHead := beside (by rw [shape, List.append_nil])
            · rw [atLast] at isLast
              obtain rfl := Option.some.inj isLast
              exact Serial.lt_irrefl _ longer
            · cases isHead
          · split at found
            · rename_i earlier
              obtain ⟨rfl, rfl, rfl⟩ := by simpa using found
              obtain isLast | isHead := beside (by rw [shape, List.nil_append])
              · cases isLast
              · obtain rfl := Option.some.inj isHead
                exact Serial.lt_irrefl _ earlier
            · obtain ⟨cut, hole, result⟩ := Option.map_eq_some_iff.mp found
              obtain ⟨rfl, rfl, rfl⟩ := by simpa using result
              obtain ⟨front, b, next, tail, split, isBefore, isBehind, -, gapNext, gapB⟩ := hole_found _ _ _ _ _ hole
              rw [isBefore, isBehind, List.getLast?_concat, List.head?_cons] at beside
              obtain isLast | isHead := beside (by rw [shape, split]; simp)
              · obtain rfl := Option.some.inj isLast
                exact Serial.lt_irrefl _ gapB
              · obtain rfl := Option.some.inj isHead
                exact Serial.lt_irrefl _ gapNext

@[simp] theorem note_urgent_rcv (w : World) (urgptr : Seq) : (noteUrgent w urgptr).data.rcv = w.data.rcv := by
  unfold noteUrgent
  split <;> rfl

@[simp] theorem note_urgent_net (w : World) (urgptr : Seq) : (noteUrgent w urgptr).net = w.net := by
  unfold noteUrgent
  split <;> rfl

theorem note_urgent_known (w : World) (urgptr : Seq) (known : ¬ SEQLT w.tcb.rcvUrg urgptr) : noteUrgent w urgptr = w :=
  if_neg known

theorem note_urgent_new (w : World) (urgptr : Seq) (new : SEQLT w.tcb.rcvUrg urgptr) :
    (noteUrgent w urgptr).tcb.rcvUrg = urgptr := by
  rw [noteUrgent, if_pos new]

theorem advance_keeps (env : Env) (w : World) (nxt : Seq) :
    (urgentAdvance env w nxt).data.rcv = w.data.rcv ∧ (urgentAdvance env w nxt).tcb.rcvUrg = w.tcb.rcvUrg := by
  unfold urgentAdvance
  split
  · have kept := steady_send_ack env (setRcvNxt w nxt)
    exact ⟨steady_same (·.data.rcv) (setRcvNxt w nxt) _ kept fun _ => rfl,
      steady_same (·.tcb.rcvUrg) (setRcvNxt w nxt) _ kept fun _ => rfl⟩
  · exact ⟨rfl, rfl⟩

theorem queue_urgent_keeps (env : Env) (w : World) (ubuf : Buf) :
    (queueUrgent env w ubuf).data.rcv = (tcpAddseg w.data.rcv ubuf).q
      ∧ (queueUrgent env w ubuf).tcb.rcvUrg = w.tcb.rcvUrg := by
  unfold queueUrgent
  split
  · exact advance_keeps env (recvSeg w ubuf) _
  · exact ⟨rfl, rfl⟩

theorem copy_urgent_urg (env : Env) (w : World) (tcph : Dgram) :
    (copyUrgent env w tcph).tcb.rcvUrg = w.tcb.rcvUrg := by
  unfold copyUrgent bufAlloc
  split
  · rename_i got
    obtain ⟨-, rfl⟩ := Prod.mk.inj got
    rfl
  · rename_i id w1 got
    obtain ⟨-, rfl⟩ := Prod.mk.inj got
    exact (queue_urgent_keeps env _ _).2

-- The copy of the urgent data that tcp_rcvurg makes is taken by the receive queue.
def CopyTaken (env : Env) (w : World) (tcph : Dgram) : Prop :=
  env.memory w.net.allocs ∧ tcph.urgptr ≠ 0 ∧ Fills w.data.rcv tcph.seq (urgEnd tcph)

theorem copy_urgent_taken (env : Env) (w : World) (tcph : Dgram) (taken : CopyTaken env w tcph) :
    (copyUrgent env w tcph).data.rcv.q ≠ w.data.rcv.q := by
  obtain ⟨memory, real, fills⟩ := taken
  have added : (tcpAddseg w.data.rcv (urgentSeg w.net.allocs tcph)).taken :=
    (add_taken_iff _ _).mpr ⟨real, fills⟩
  unfold copyUrgent bufAlloc
  rw [if_pos memory]
  dsimp only
  rw [(queue_urgent_keeps env _ _).1]
  exact add_taken_moves _ _ added

-- Otherwise nothing but the surroundings has changed.
theorem copy_urgent_refused (env : Env) (w : World) (tcph : Dgram) (refused : ¬ CopyTaken env w tcph) :
    ∃ net, copyUrgent env w tcph = setNet w net := by
  unfold copyUrgent bufAlloc
  by_cases memory : env.memory w.net.allocs
  · have untaken : ¬ (tcpAddseg w.data.rcv (urgentSeg w.net.allocs tcph)).taken := by
      rw [add_taken_iff]
      exact fun taken => refused ⟨memory, taken.1, taken.2⟩
    have kept := add_untaken _ _ (Bool.eq_false_iff.mpr untaken)
    rw [if_pos memory]
    dsimp only
    unfold queueUrgent
    dsimp only
    rw [if_neg untaken]
    unfold recvSeg setRcvq bufsDeref setNet
    dsimp only
    rw [kept]
    exact ⟨_, rfl⟩
  · rw [if_neg memory]
    exact ⟨_, rfl⟩

-- tcp_rcvurg gets something out of the segment: a new urgent pointer, or urgent data for the queue.
def UrgentTaken (env : Env) (w : World) (tcph : Dgram) : Prop :=
  ¬ SEQLE (urgEnd tcph) w.tcb.rcvNxt
    ∧ (SEQLT w.tcb.rcvUrg (urgEnd tcph) ∨ (carriesUrgent tcph ∧ CopyTaken env w tcph))

def Untouched (w w' : World) : Prop :=
  w'.tcb.rcvNxt = w.tcb.rcvNxt ∧ w'.tcb.rcvUrg = w.tcb.rcvUrg ∧ w'.data.rcv = w.data.rcv ∧ w'.tcb.state = w.tcb.state

instance (w w' : World) : Decidable (Untouched w w') := inferInstanceAs (Decidable (_ ∧ _ ∧ _ ∧ _))

theorem untouched_steady (w w1 w2 : World) (same : steady w2 = steady w1) : Untouched w w2 ↔ Untouched w w1 := by
  have kept := steady_same (Untouched w) w1 w2 same fun _ => rfl
  rw [kept]

theorem urgent_taken_touches (env : Env) (w : World) (tcph : Dgram) (taken : UrgentTaken env w tcph) :
    ¬ Untouched w (rcvurgConn env (setLastRecv w) tcph) := by
  obtain ⟨fresh, new | ⟨carries, copied⟩⟩ := taken
  · rintro ⟨-, urg, -, -⟩
    have noted := note_urgent_new (setLastRecv w) (urgEnd tcph) new
    have fresh' : ¬ SEQLE (urgEnd tcph) (setLastRecv w).tcb.rcvNxt := fresh
    have moved : (rcvurgConn env (setLastRecv w) tcph).tcb.rcvUrg = urgEnd tcph := by
      rw [rcvurgConn, if_neg fresh']
      split
      · rw [copy_urgent_urg, noted]
      · exact noted
    rw [moved] at urg
    rw [urg] at new
    exact Serial.lt_irrefl _ new
  · rintro ⟨-, -, rcv, -⟩
    have fresh' : ¬ SEQLE (urgEnd tcph) (setLastRecv w).tcb.rcvNxt := fresh
    rw [rcvurgConn, if_neg fresh', if_pos carries] at rcv
    have stillTaken : CopyTaken env (noteUrgent (setLastRecv w) (urgEnd tcph)) tcph := by
      unfold CopyTaken
      rw [note_urgent_net, note_urgent_rcv]
      exact copied
    have moved := copy_urgent_taken env _ tcph stillTaken
    rw [rcv, note_urgent_rcv] at moved
    exact moved rfl

theorem urgent_refused_keeps (env : Env) (w : World) (tcph : Dgram) (refused : ¬ UrgentTaken env w tcph) :
    ∃ net, rcvurgConn env (setLastRecv w) tcph = setNet (setLastRecv w) net := by
  unfold rcvurgConn
  split
  · exact ⟨_, rfl⟩
  · rename_i fresh
    have known : ¬ SEQLT w.tcb.rcvUrg (urgEnd tcph) := fun new => refused ⟨fresh, Or.inl new⟩
    rw [note_urgent_known (setLastRecv w) (urgEnd tcph) known]
    split
    · rename_i carries
      apply copy_urgent_refused
      exact fun copied => refused ⟨fresh, Or.inr ⟨carries, copied⟩⟩
    · exact ⟨_, rfl⟩

theorem valid_clear_urg (w : World) (pkt : Pkt) :
    (tcpValid w (clearUrg pkt).tcph).1 = (tcpValid w pkt.tcph).1 := by
  unfold tcpValid
  split
  · rfl
  · split <;> rfl

-- What gets past the gate in an unacceptable segment with URG: what tcp_rcvurg takes, or the rest of
-- the segment, if that is acceptable once the urgent bytes are cut off.
def SlipsUrgent (env : Env) (w : World) (pkt : Pkt) : Prop :=
  takesUrgent w pkt.tcph
    ∧ (UrgentTaken env w pkt.tcph ∨ (carriesUrgent pkt.tcph ∧ (tcpValid w (cutUrgent pkt).tcph).1))

theorem gate_conn_urgent (env : Env) (w : World) (pkt : Pkt) (takes : takesUrgent w pkt.tcph) :
    gateConn env w pkt = rcvurgConn env (setLastRecv w) pkt.tcph
      ∧ (inputUrgent env w pkt).1 = if carriesUrgent pkt.tcph then cutUrgent pkt else clearUrg pkt := by
  have urgent : pkt.tcph.flags.urg := by
    simp only [takesUrgent, Bool.and_eq_true] at takes
    exact takes.1.1.1
  have takes' : takesUrgent (setLastRecv w) pkt.tcph := takes
  unfold gateConn inputUrgent tcpRcvurg
  rw [if_pos urgent, if_pos takes']
  exact ⟨rfl, rfl⟩

theorem gate_conn_plain (env : Env) (w : World) (pkt : Pkt) (plain : ¬ takesUrgent w pkt.tcph) :
    gateConn env w pkt = setLastRecv w
      ∧ ((inputUrgent env w pkt).1 = pkt ∨ (inputUrgent env w pkt).1 = clearUrg pkt) := by
  have plain' : ¬ takesUrgent (setLastRecv w) pkt.tcph := plain
  unfold gateConn inputUrgent
  split
  · rw [tcpRcvurg, if_neg plain']
    exact ⟨rfl, Or.inr rfl⟩
  · exact ⟨rfl, Or.inl rfl⟩

theorem refused_steady (env : Env) (w : World) (pkt : Pkt) (duplicate : Bool) (refused : accepted env w pkt = false) :
    steady (inputFound env w pkt duplicate) = steady (gateConn env w pkt) := by
  rw [input_found_refused env w pkt duplicate refused]
  simp

-- An unacceptable segment is only answered, and the receive side left alone, unless it has URG set
-- and something of it gets past.
theorem gate_untouched_iff (env : Env) (w : World) (pkt : Pkt) (duplicate : Bool)
    (outside : (tcpValid w pkt.tcph).1 = false) :
    accepted env w pkt = false ∧ Untouched w (inputFound env w pkt duplicate) ↔ ¬ SlipsUrgent env w pkt := by
  by_cases takes : takesUrgent w pkt.tcph
  · obtain ⟨conn, seg⟩ := gate_conn_urgent env w pkt takes
    by_cases taken : UrgentTaken env w pkt.tcph
    · have slips : SlipsUrgent env w pkt := ⟨takes, Or.inl taken⟩
      refine iff_of_false ?_ (not_not.mpr slips)
      rintro ⟨refused, same⟩
      rw [untouched_steady _ _ _ (refused_steady env w pkt duplicate refused), conn] at same
      exact urgent_taken_touches env w pkt.tcph taken same
    · obtain ⟨net, kept⟩ := urgent_refused_keeps env w pkt.tcph taken
      rw [kept] at conn
      have through : accepted env w pkt = (tcpValid w (inputUrgent env w pkt).1.tcph).1 := by
        unfold accepted
        rw [conn]
        rfl
      constructor
      · rintro ⟨refused, -⟩ ⟨-, slipped | ⟨carries, cut⟩⟩
        · exact taken slipped
        · rw [through, seg, if_pos carries, cut] at refused
          cases refused
      · intro kept
        have refused : accepted env w pkt = false := by
          rw [through, seg]
          split
          · rename_i carries
            exact Bool.eq_false_iff.mpr fun cut => kept ⟨takes, Or.inr ⟨carries, cut⟩⟩
          · rw [valid_clear_urg, outside]
        refine ⟨refused, ?_⟩
        rw [untouched_steady _ _ _ (refused_steady env w pkt duplicate refused), conn]
        exact ⟨rfl, rfl, rfl, rfl⟩
  · obtain ⟨conn, seg⟩ := gate_conn_plain env w pkt takes
    have refused : accepted env w pkt = false := by
      have same : (tcpValid w (inputUrgent env w pkt).1.tcph).1 = (tcpValid w pkt.tcph).1 := by
        obtain seg | seg := seg
        · rw [seg]
        · rw [seg, valid_clear_urg]
      unfold accepted
      rw [conn]
      exact same.trans outside
    refine iff_of_true ⟨refused, ?_⟩ fun slips => takes slips.1
    rw [untouched_steady _ _ _ (refused_steady env w pkt duplicate refused), conn]
    exact ⟨rfl, rfl, rfl, rfl⟩

def plainEnv : Env := ⟨fun _ => true, fun _ => 0, fun _ _ _ => 0, fun _ => false, fun _ => none, 1⟩

def quietNet : Net := ⟨0, 0, 0, 0, [], [], false⟩

-- A segment from port 80 of host 2 to port 1024 of host 1.
def peerSeg (seq ack : Seq) (flags : Flags) (window urgptr : BitVec 16) (body : List Byte) : Pkt :=
  ⟨100, 2, 1, false, ⟨80, 1024, seq, ack, 5, false, flags, window, 0, urgptr, body⟩⟩

def synSent : World := tcpConnect plainEnv (tcpAttach 1024 quietNet) ⟨2, 80, 1, false⟩

-- Established, with 5001 and 1001 the next numbers of the two streams.
def openConn (window : BitVec 16) : World :=
  inputFound plainEnv synSent (peerSeg 5000 1001 TCPF_SYN_ACK window 0 []) false

theorem gate_untouched_iff_below :
    accepted plainEnv (openConn 100) (peerSeg 4000 1001 TCPF_ACK 100 0 [1, 2, 3]) = false
      ∧ Untouched (openConn 100)
        (inputFound plainEnv (openConn 100) (peerSeg 4000 1001 TCPF_ACK 100 0 [1, 2, 3]) false) :=
  (gate_untouched_iff plainEnv (openConn 100) (peerSeg 4000 1001 TCPF_ACK 100 0 [1, 2, 3]) false
    (by decide +kernel)).mpr fun slips => absurd slips.1 (by decide +kernel)

-- Five urgent bytes far beyond the window get onto the receive queue.
theorem gate_slipped_urgent :
    (tcpValid (openConn 100) (peerSeg 905001 1001 { TCPF_ACK with urg := true } 100 5 [1, 2, 3, 4, 5]).tcph).1 = false
      ∧ ¬ (accepted plainEnv (openConn 100) (peerSeg 905001 1001 { TCPF_ACK with urg := true } 100 5 [1, 2, 3, 4, 5])
          = false
        ∧ Untouched (openConn 100) (inputFound plainEnv (openConn 100)
          (peerSeg 905001 1001 { TCPF_ACK with urg := true } 100 5 [1, 2, 3, 4, 5]) false)) := by
  decide +kernel

end MagxNet.Tcp
