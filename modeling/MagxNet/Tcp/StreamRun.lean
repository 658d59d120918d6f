import MagxNet.Tcp.Stream

set_option autoImplicit false

namespace MagxNet.Tcp

open Bytes Serial

-- The segment behind its SYN.
def unsyn (tcph : Dgram) : Dgram := if tcph.flags.syn then { tcph with flags.syn := false, seq := tcph.seq + 1 } else tcph

-- A segment of the stream, with a FIN only at its end.
structure Piece (S : List Byte) (base : Seq) (tcph : Dgram) : Prop where
  urg : tcph.flags.urg = false
  syn : tcph.flags.syn = false
  header : 5 ≤ tcph.hdrlen.toNat
  whole : 0 ≤ tcpDatalen tcph
  short : tcpDatalen tcph < 2 ^ 16
  inside : 0 < tcpDatalen tcph ∨ tcph.flags.fin = true → ((tcph.seq - base).toNat : Int) + tcpDatalen tcph ≤ S.length
  data : 0 < tcpDatalen tcph → tcpData tcph = (S.drop (tcph.seq - base).toNat).take (tcpDatalen tcph).toNat
  fin : tcph.flags.fin = true → ((tcph.seq - base).toNat : Int) + tcpDatalen tcph = S.length

section

variable (S : List Byte) (base : Seq) (short : S.length + 1 < 2 ^ 31)

theorem piece_start (pkt : Pkt) (piece : Piece S base pkt.tcph) :
    startAt base (rcvSeg pkt) = (pkt.tcph.seq - base).toNat ∧ (DATLEN (rcvSeg pkt) : Int) = tcpDatalen pkt.tcph := by
  have whole := piece.whole
  have small := piece.short
  unfold startAt SEQ1ST DATLEN rcvSeg
  dsimp only
  rw [piece.syn, if_neg Bool.false_ne_true, BitVec.toNat_ofInt]
  refine ⟨rfl, ?_⟩
  rw [Int.toNat_of_nonneg (Int.emod_nonneg _ (by decide))]
  exact Int.emod_eq_of_lt whole (by simpa using small)

theorem piece_carries (pkt : Pkt) (piece : Piece S base pkt.tcph) (real : 0 < tcpDatalen pkt.tcph) :
    Bears S base ((rcvSeg pkt).mark false) := by
  obtain ⟨start, length⟩ := piece_start S base pkt piece
  have inside := piece.inside (Or.inl real)
  have same : tcpData ((rcvSeg pkt).mark false).th = tcpData pkt.tcph := by
    rw [data_of_options pkt.tcph piece.header]
    exact data_of_options ((rcvSeg pkt).mark false).th piece.header
  refine ⟨piece.urg, rfl, ?_, ?_, ?_⟩
  · change 0 < DATLEN (rcvSeg pkt)
    omega
  · rw [mark_stop]
    unfold stopAt
    omega
  · rw [same, mark_start, start, piece.data real, List.take_take]
    change List.take (min (DATLEN (rcvSeg pkt)) _) _ = List.take (DATLEN (rcvSeg pkt)) _
    rw [Nat.min_eq_left (by omega)]

include short

theorem has_covered (bufs : List Buf) (carry : ∀ b ∈ bufs, Bears S base b) (i : Nat) (below : i ≤ S.length) :
    place base i ∈ covered bufs ↔ Has base bufs i := by
  have number : (place base i - base).toNat = i := by
    unfold place
    rw [BitVec.ofInt_natCast, add_sub_cancel_left, BitVec.toNat_ofNat]
    exact Nat.mod_eq_of_lt (by omega)
  constructor
  · rintro ⟨b, member, inside⟩
    rw [covers_iff base b (carries_within S base short b (carry b member)), number] at inside
    exact ⟨b, member, inside⟩
  · rintro ⟨b, member, inside⟩
    refine ⟨b, member, ?_⟩
    rw [covers_iff base b (carries_within S base short b (carry b member)), number]
    exact inside

-- Where the data ends that goes on from m without a gap.
theorem chain_spec (bufs : List Buf) (m : Nat) (rising : Rising base bufs) (carry : ∀ c ∈ bufs, Bears S base c)
    (reach : ∀ c ∈ bufs, m ≤ stopAt base c) (below : m ≤ S.length) :
    ∃ r : Nat, chainNxt bufs (place base m) = place base r ∧ m ≤ r ∧ r ≤ S.length
      ∧ (∀ i, m ≤ i → i < r → Has base bufs i) ∧ ¬ Has base bufs r
      ∧ (∀ b ∈ bufs.head?, startAt base b ≤ m → stopAt base b ≤ r) ∧ (∀ b ∈ bufs.head?, m < startAt base b → r = m) := by
  induction bufs generalizing m with
  | nil =>
      refine ⟨m, rfl, Nat.le_refl m, below, fun i after before => absurd before (by omega), ?_, fun b none => ?_, fun b none => ?_⟩
      · rintro ⟨b, member, -⟩
        cases member
      · cases none
      · cases none
  | cons b rest ih =>
      obtain ⟨later, rising'⟩ := List.pairwise_cons.mp rising
      have own := carry b List.mem_cons_self
      have inside := own.inside
      have start : startAt base b ≤ S.length := by
        unfold stopAt at inside
        omega
      have joins : SEQLE (SEQ1ST b) (place base m) ↔ startAt base b ≤ m := by
        rw [seq1st_place base b, place_le S base short _ _ (by omega) (by omega)]
      rw [chainNxt]
      by_cases join : startAt base b ≤ m
      · rw [if_pos (joins.mpr join), seqnxt_place base b]
        obtain ⟨r, run, least, most, has, gap, -⟩ :=
          ih (stopAt base b) rising' (fun c member => carry c (List.mem_cons_of_mem b member))
          (fun c member => (later c member).2.le) inside
        have end' := reach b List.mem_cons_self
        refine ⟨r, run, by omega, most, fun i after before => ?_, ?_, fun c same _ => ?_, fun c same apart => ?_⟩
        · by_cases here : i < stopAt base b
          · exact ⟨b, List.mem_cons_self, by omega, here⟩
          · obtain ⟨c, member, there⟩ := has i (by omega) before
            exact ⟨c, List.mem_cons_of_mem b member, there⟩
        · rintro ⟨c, member, there⟩
          obtain rfl | member := List.mem_cons.mp member
          · omega
          · exact gap ⟨c, member, there⟩
        · obtain rfl := Option.some.inj same
          exact least
        · obtain rfl := Option.some.inj same
          omega
      · rw [if_neg fun reached => join (joins.mp reached)]
        refine ⟨m, rfl, Nat.le_refl m, below, fun i after before => absurd before (by omega), ?_, fun c same reached => ?_,
          fun _ _ _ => rfl⟩
        · rintro ⟨c, member, there⟩
          obtain rfl | member := List.mem_cons.mp member
          · omega
          · have order := (later c member).1
            omega
        · obtain rfl := Option.some.inj same
          exact absurd reached join

-- The queue with a new segment on it.
structure Joins (q : Dataq) (buf : Buf) (added : Added) : Prop where
  rising : Rising base added.q.q
  carry : ∀ b ∈ added.q.q, Bears S base b
  members : ∀ b ∈ added.q.q, b = buf.mark false ∨ b ∈ q.q
  has : ∀ i ≤ S.length, Has base added.q.q i ↔ Has base q.q i ∨ startAt base buf ≤ i ∧ i < stopAt base buf
  taken : added.taken = true → ∃ front, added.q.q = front ++ buf.mark false :: added.tail ∧ ∀ b ∈ front, b ∈ q.q
  untaken : added.taken = false → added.q = q

theorem add_reads (q : Dataq) (buf : Buf) (rising : Rising base q.q) (carry : ∀ b ∈ q.q, Bears S base b)
    (own : Bears S base (buf.mark false)) : Joins S base q buf (tcpAddseg q buf) := by
  have real : buf.th.urgptr ≠ 0 := fun none => by
    have some' := own.real
    change 0 < buf.th.urgptr.toNat at some'
    rw [none] at some'
    cases some'
  have within : ∀ b ∈ buf.mark false :: q.q, Within base b := fun b member => by
    obtain rfl | member := List.mem_cons.mp member
    · exact carries_within S base short _ own
    · exact carries_within S base short b (carry b member)
  have within' : ∀ b ∈ buf :: q.q, Within base b := fun b member => by
    obtain rfl | member := List.mem_cons.mp member
    · have here := within (b.mark false) List.mem_cons_self
      exact ⟨here.start, here.real, here.stop⟩
    · exact within b (List.mem_cons_of_mem _ member)
  obtain ⟨rising', coverage, -, -⟩ := add_ascends base q buf real rising within'
  have shape : (tcpAddseg q buf).q = q ∧ (tcpAddseg q buf).taken = false
      ∨ ∃ before behind, Divides base q (buf.mark false) before behind ∧ (tcpAddseg q buf).taken = true
        ∧ (tcpAddseg q buf).q.q = placedQueue (buf.mark false) before behind
        ∧ (tcpAddseg q buf).tail = behind.dropWhile fun c => decide (SEQLE (SEQNXT c) (SEQNXT (buf.mark false))) := by
    unfold tcpAddseg
    rw [if_neg real]
    cases found : placeFor q (buf.mark false) with
    | none => exact Or.inl ⟨rfl, rfl⟩
    | some place =>
        obtain ⟨before, behind, cur⟩ := place
        exact Or.inr ⟨before, behind, place_divides base q (buf.mark false) rising within before behind cur found, rfl, rfl, rfl⟩
  have members : ∀ b ∈ (tcpAddseg q buf).q.q, b = buf.mark false ∨ b ∈ q.q := fun b member => by
    obtain ⟨same, -⟩ | ⟨before, behind, divides, -, queue, -⟩ := shape
    · rw [same] at member
      exact Or.inr member
    · rw [queue] at member
      exact kept_members base q (buf.mark false) before behind divides b member
  have carry' : ∀ b ∈ (tcpAddseg q buf).q.q, Bears S base b := fun b member => by
    obtain rfl | old := members b member
    · exact own
    · exact carry b old
  refine ⟨rising', carry', members, fun i below => ?_, fun taken => ?_, fun untaken => ?_⟩
  · rw [← has_covered S base short _ carry' i below, ← has_covered S base short _ carry i below, coverage]
    have single := has_covered S base short [buf.mark false] (fun b
      member => by rw [List.mem_singleton.mp member]; exact own) i below
    have marked : covered [buf.mark false] = covered [buf] := by
      ext x
      simp only [covered, List.mem_singleton, exists_eq_left]
      rfl
    rw [Set.mem_union, ← marked, single]
    unfold Has
    simp only [List.mem_singleton, exists_eq_left]
    rfl
  · obtain ⟨-, none⟩ | ⟨before, behind, divides, -, queue, tail⟩ := shape
    · exact absurd (none.symm.trans taken) (by decide)
    · rw [queue, tail]
      refine ⟨_, rfl, fun b member => ?_⟩
      rw [divides.split]
      exact List.mem_append_left _ ((List.rdropWhile_prefix _ before).subset member)
  · obtain ⟨same, -⟩ | ⟨-, -, -, taken, -⟩ := shape
    · exact same
    · exact absurd (untaken.symm.trans taken) (by decide)

theorem chained_spec (w : World) (buf : Buf) (m : Nat) (joins : Joins S base w.data.rcv buf (tcpAddseg w.data.rcv buf))
    (nxt : w.tcb.rcvNxt = place base m) (gap : ¬ Has base w.data.rcv.q m) (reach : m ≤ stopAt base buf) (below : m ≤ S.length) :
    ∃ r : Nat, chainedNxt w buf = place base r ∧ m ≤ r ∧ r ≤ S.length
      ∧ (∀ i, m ≤ i → i < r → Has base (tcpAddseg w.data.rcv buf).q.q i) ∧ ¬ Has base (tcpAddseg w.data.rcv buf).q.q r := by
  unfold chainedNxt
  cases taken : (tcpAddseg w.data.rcv buf).taken with
  | false =>
      rw [if_neg Bool.false_ne_true, joins.untaken taken]
      exact ⟨m, nxt, Nat.le_refl m, below, fun i after before => absurd before (by omega), gap⟩
  | true =>
      obtain ⟨front, whole, old⟩ := joins.taken taken
      have rising := joins.rising
      have carry := joins.carry
      unfold Rising at rising
      rw [whole] at rising carry
      obtain ⟨-, back, across⟩ := List.pairwise_append.mp rising
      have later := (List.pairwise_cons.mp back).1
      have same : ∀ bufs : List Buf, chainNxt (buf :: bufs) = chainNxt (buf.mark false :: bufs) := fun bufs => by
        funext x
        rfl
      obtain ⟨r, run, least, most, has, gap', ends, apart⟩ :=
        chain_spec S base short (buf.mark false :: (tcpAddseg w.data.rcv buf).tail) m
        back (fun c member => carry c (List.mem_append_right _ member))
        (fun c member => by
          obtain rfl | member := List.mem_cons.mp member
          · exact reach
          · have order := (later c member).2
            rw [mark_stop] at order
            omega) below
      rw [if_pos rfl, nxt, same, run, whole]
      refine ⟨r, rfl, least, most, fun i after before => ?_, ?_⟩
      · obtain ⟨c, member, there⟩ := has i after before
        exact ⟨c, List.mem_append_right _ member, there⟩
      · rintro ⟨c, member, there⟩
        obtain inside | inside := List.mem_append.mp member
        · have order := (across c inside (buf.mark false) List.mem_cons_self).2
          by_cases join : startAt base (buf.mark false) ≤ m
          · have stop := ends _ rfl join
            omega
          · have still := apart _ rfl (Nat.lt_of_not_le join)
            exact gap ⟨c, old c inside, still ▸ there⟩
        · exact gap' ⟨c, inside, there⟩

-- The FIN has been reached.
def ended (w : World) (m : Nat) : Nat := if w.tcb.flags.fin = true ∧ m = S.length then 1 else 0

-- The reader stands at n, and m is the first byte that has not come.
structure Follows (w : World) (n m : Nat) (got : Set Nat) : Prop where
  reads : Reads S base w n
  order : n ≤ m
  below : m ≤ S.length
  nxt : w.tcb.rcvNxt = place base ((m + ended S w m : Nat) : Int)
  seqFin : w.tcb.flags.fin = true → w.tcb.seqFin = place base S.length
  all : ∀ i, n ≤ i → i ≤ S.length → (Has base w.data.rcv.q i ↔ i ∈ got)
  had : ∀ i < n, i ∈ got
  whole : ∀ i, n ≤ i → i < m → Has base w.data.rcv.q i
  gap : ¬ Has base w.data.rcv.q m

-- The part of the stream that a segment brings.
def span (tcph : Dgram) : Set Nat :=
  {i | (tcph.seq - base).toNat ≤ i ∧ (i : Int) < (tcph.seq - base).toNat + tcpDatalen tcph}

omit short in
theorem flags_noted (w : World) (pkt : Pkt) (syn : pkt.tcph.flags.syn = false) :
    (rcvFlags w pkt).data = w.data ∧ (rcvFlags w pkt).tcb.rcvNxt = w.tcb.rcvNxt ∧ (rcvFlags w pkt).tcb.seqRead = w.tcb.seqRead
      ∧ (rcvFlags w pkt).tcb.seqUread = w.tcb.seqUread ∧ (rcvFlags w pkt).tcb.flags.fin = (w.tcb.flags.fin || pkt.tcph.flags.fin)
      ∧ (rcvFlags w pkt).tcb.seqFin = if pkt.tcph.flags.fin then segStop pkt else w.tcb.seqFin := by
  unfold rcvFlags notePsh noteFin noteSyn
  rw [syn, if_neg Bool.false_ne_true]
  cases pkt.tcph.flags.fin <;> cases pkt.tcph.flags.psh <;> simp

omit short in
theorem answer_quiet (env : Env) (w : World) (pkt : Pkt) : Calm (rcvQueue w pkt) (rcvTaken env w pkt) := by
  unfold rcvTaken
  split
  · unfold rcvAnswer
    split
    · exact ⟨rfl, rfl, rfl, rfl, rfl, rfl⟩
    · exact incoming_quiet _ _ (incoming_of_steady _ _ (steady_send_ack env _))
  · exact ⟨rfl, rfl, rfl, rfl, rfl, rfl⟩

-- The FIN counts once everything before it is there.
theorem fin_counted (w w1 : World) (r m : Nat) (finSeq : w1.tcb.flags.fin = true → w1.tcb.seqFin = place base S.length)
    (below : r ≤ S.length) (later : w.tcb.flags.fin = true → w1.tcb.flags.fin = true)
    (old : r = m ∨ ended S w m = 0) :
    (if atFin w1 (place base ((r + ended S w m : Nat) : Int)) then place base ((r + ended S w m : Nat) : Int) + 1
      else place base ((r + ended S w m : Nat) : Int)) = place base ((r + ended S w1 r : Nat) : Int) := by
  have one : ∀ k : Nat, place base (k : Int) + 1 = place base ((k + 1 : Nat) : Int) := fun k => by
    have step := place_add base (k : Int) 1
    rw [Nat.cast_add, Nat.cast_one, ← step]
    rfl
  have small : ended S w m ≤ 1 := by
    unfold ended
    split <;> omega
  have atEnd : atFin w1 (place base ((r + ended S w m : Nat) : Int)) = true
      ↔ w1.tcb.flags.fin = true ∧ S.length = r + ended S w m := by
    unfold atFin
    rw [Bool.and_eq_true, beq_iff_eq]
    refine and_congr_right fun fin => ?_
    rw [finSeq fin, place_same S base short _ _ (by omega) (by omega)]
  rw [if_congr atEnd rfl rfl, one]
  unfold ended at old ⊢
  by_cases here : w.tcb.flags.fin = true ∧ m = S.length
  · rw [if_pos here] at old ⊢
    obtain rfl := old.resolve_right (by decide)
    rw [if_neg (by omega), if_pos ⟨later here.1, here.2⟩]
  · rw [if_neg here]
    by_cases now : w1.tcb.flags.fin = true ∧ r = S.length
    · rw [if_pos ⟨now.1, by omega⟩, if_pos now]
    · rw [if_neg fun both => now ⟨both.1, by omega⟩, if_neg now]

theorem rcvdata_follows (env : Env) (w : World) (pkt : Pkt) (n m : Nat) (got : Set Nat) (follows : Follows S base w n m got)
    (piece : Piece S base pkt.tcph)
    (reach : 0 < tcpDatalen pkt.tcph → ended S w m = 0
      ∧ (m < stopAt base (rcvSeg pkt) ∨ m ≤ stopAt base (rcvSeg pkt) ∧ stopAt base (rcvSeg pkt) = S.length)) :
    ∃ m', m ≤ m' ∧ Follows S base (tcpRcvdata env w pkt) n m' (got ∪ span base pkt.tcph) := by
  obtain ⟨reads, order, below, nxt, seqFin, all, had, whole, gap⟩ := follows
  obtain ⟨start, length⟩ := piece_start S base pkt piece
  obtain ⟨data, nxt1, read1, uread1, fin1, seqFin1⟩ := flags_noted w pkt piece.syn
  have quiet := answer_quiet env (rcvFlags w pkt) pkt
  have finSeq : (rcvFlags w pkt).tcb.flags.fin = true → (rcvFlags w pkt).tcb.seqFin = place base S.length := by
    rw [fin1, seqFin1]
    intro either
    split
    · rename_i now
      have total := piece.fin now
      unfold segStop
      rw [seq1st_place base, place_add, start, total]
    · rename_i not'
      exact seqFin ((Bool.or_eq_true_iff.mp either).resolve_right not')
  have later : w.tcb.flags.fin = true → (rcvFlags w pkt).tcb.flags.fin = true := fun fin => by
    rw [fin1, fin, Bool.true_or]
  have brings : ∀ i : Nat, i ∈ span base pkt.tcph ↔ startAt base (rcvSeg pkt) ≤ i ∧ i < stopAt base (rcvSeg pkt) := fun i => by
    unfold span stopAt
    rw [Set.mem_ofPred_eq, start]
    omega
  obtain empty | real := piece.whole.eq_or_lt
  · have none : (rcvSeg pkt).th.urgptr = 0 := by
      apply BitVec.eq_of_toNat_eq
      change DATLEN (rcvSeg pkt) = 0
      omega
    have added : tcpAddseg (rcvFlags w pkt).data.rcv (rcvSeg pkt) = ⟨false, w.data.rcv, [], [(rcvSeg pkt).id]⟩ := by
      rw [data]
      exact if_pos none
    have nothing : span base pkt.tcph = ∅ := by
      ext i
      rw [brings]
      unfold stopAt
      exact ⟨fun inside => by omega, fun inside => inside.elim⟩
    have queue : (rcvQueue (rcvFlags w pkt) pkt).data.rcv.q = w.data.rcv.q := by
      change (tcpAddseg (rcvFlags w pkt).data.rcv (rcvSeg pkt)).q.q = _
      rw [added]
    have still : chainedNxt (rcvFlags w pkt) (rcvSeg pkt) = place base ((m + ended S w m : Nat) : Int) := by
      unfold chainedNxt
      rw [added, if_neg Bool.false_ne_true, nxt1, nxt]
    have counted := fin_counted S base short w (rcvFlags w pkt) m m finSeq below later (Or.inl rfl)
    rw [nothing, Set.union_empty]
    refine ⟨m, Nat.le_refl m, ⟨?_, order, below, ?_, ?_, ?_, had, ?_, ?_⟩⟩
    · refine quiet_reads S base _ _ n quiet ⟨read1.trans reads.read, uread1 ▸ reads.uread, reads.below, ?_, ?_, ?_⟩
      · exact queue ▸ reads.rising
      · exact queue ▸ reads.carry
      · exact queue ▸ reads.ahead
    · unfold tcpRcvdata ended
      rw [quiet.nxt, quiet.fin]
      change (if atFin (rcvFlags w pkt) (chainedNxt (rcvFlags w pkt) (rcvSeg pkt)) then chainedNxt (rcvFlags w pkt) (rcvSeg pkt) + 1
        else chainedNxt (rcvFlags w pkt) (rcvSeg pkt)) = _
      rw [still, counted]
      rfl
    · unfold tcpRcvdata
      rw [quiet.fin, quiet.seqFin]
      exact finSeq
    · unfold tcpRcvdata
      rw [quiet.queue, queue]
      exact all
    · unfold tcpRcvdata
      rw [quiet.queue, queue]
      exact whole
    · unfold tcpRcvdata
      rw [quiet.queue, queue]
      exact gap
  · obtain ⟨notEnded, within⟩ := reach real
    have own := piece_carries S base pkt piece real
    have joins := add_reads S base short w.data.rcv (rcvSeg pkt) reads.rising reads.carry own
    have joins1 : Joins S base (rcvFlags w pkt).data.rcv (rcvSeg pkt) (tcpAddseg (rcvFlags w pkt).data.rcv (rcvSeg pkt)) := by
      rw [data]
      exact joins
    rw [notEnded, Nat.add_zero] at nxt
    obtain ⟨r, run, least, most, has, gap'⟩ := chained_spec S base short (rcvFlags w pkt) (rcvSeg pkt) m joins1 (nxt1.trans nxt)
      (by rw [data]; exact gap) (by omega) below
    have queue : (rcvQueue (rcvFlags w pkt) pkt).data.rcv.q = (tcpAddseg w.data.rcv (rcvSeg pkt)).q.q := by
      change (tcpAddseg (rcvFlags w pkt).data.rcv (rcvSeg pkt)).q.q = _
      rw [data]
    rw [data] at has gap'
    have counted := fin_counted S base short w (rcvFlags w pkt) r m finSeq most later (Or.inr notEnded)
    rw [notEnded, Nat.add_zero] at counted
    have below' := reads.below
    refine ⟨r, least, ⟨?_, order.trans least, most, ?_, ?_, fun i after low => ?_, fun i before => Or.inl (had i before),
      fun i after before => ?_, ?_⟩⟩
    · refine quiet_reads S base _ _ n quiet ⟨read1.trans reads.read, uread1 ▸ reads.uread, reads.below, ?_, ?_, ?_⟩
      · exact queue ▸ joins.rising
      · exact queue ▸ joins.carry
      · rw [queue]
        intro b member
        obtain rfl | old := joins.members b member
        · rw [mark_stop]
          omega
        · exact reads.ahead b old
    · unfold tcpRcvdata ended
      rw [quiet.nxt, quiet.fin]
      change (if atFin (rcvFlags w pkt) (chainedNxt (rcvFlags w pkt) (rcvSeg pkt)) then chainedNxt (rcvFlags w pkt) (rcvSeg pkt) + 1
        else chainedNxt (rcvFlags w pkt) (rcvSeg pkt)) = _
      rw [run, counted]
      rfl
    · unfold tcpRcvdata
      rw [quiet.fin, quiet.seqFin]
      exact finSeq
    · unfold tcpRcvdata
      rw [quiet.queue, queue, joins.has i low, all i after low, Set.mem_union, brings]
    · unfold tcpRcvdata
      rw [quiet.queue, queue]
      by_cases here : i < m
      · exact (joins.has i (by omega)).mpr (Or.inl (whole i after here))
      · exact has i (by omega) before
    · unfold tcpRcvdata
      rw [quiet.queue, queue]
      exact gap'

omit short in
theorem piece_unfinned (tcph : Dgram) (piece : Piece S base tcph) : Piece S base { tcph with flags.fin := false } := by
  refine ⟨piece.urg, piece.syn, piece.header, piece.whole, piece.short, fun either => piece.inside (Or.inl ?_), fun real => ?_,
    fun fin => absurd fin Bool.false_ne_true⟩
  · exact either.resolve_right Bool.false_ne_true
  · have alike : tcpData { tcph with flags.fin := false } = tcpData tcph :=
      (data_of_options { tcph with flags.fin := false } piece.header).trans (data_of_options tcph piece.header).symm
    exact alike.trans (piece.data real)

omit short in
theorem valid_strips (w : World) (tcph : Dgram) (plain : (tcpValid w tcph).2.flags.syn = false) :
    (tcpValid w tcph).2 = unsyn tcph ∨ (tcpValid w tcph).2 = { unsyn tcph with flags.fin := false } := by
  have bare : tcph.flags.syn = false → unsyn tcph = tcph := fun syn => if_neg (by rw [syn]; exact Bool.false_ne_true)
  unfold tcpValid at plain ⊢
  by_cases synced : w.tcb.state.synced = true
  · rw [if_neg (not_not.mpr synced)] at plain ⊢
    by_cases room : rcvSpace w > 0
    · rw [if_pos room] at plain ⊢
      have strips : ∀ t, stripFin (rcvEdge w) (segLast tcph) t = t
        ∨ stripFin (rcvEdge w) (segLast tcph) t = { t with flags.fin := false } := by
        intro t
        unfold stripFin
        split
        · exact Or.inr rfl
        · exact Or.inl rfl
      have kept : ∀ t, (stripFin (rcvEdge w) (segLast tcph) t).flags.syn = t.flags.syn := fun t => by
        obtain same | same := strips t <;> rw [same]
      have whole : stripSyn w tcph = unsyn tcph := by
        have off := (kept _).symm.trans plain
        unfold stripSyn unsyn at *
        by_cases syn : tcph.flags.syn = true
        · by_cases low : SEQLT tcph.seq w.tcb.rcvNxt
          · rw [if_pos ⟨syn, low⟩, if_pos syn]
          · rw [if_neg fun both => low both.2] at off
            exact absurd (syn.symm.trans off) (by decide)
        · rw [if_neg fun both => syn both.1, if_neg syn]
      rw [← whole]
      exact strips _
    · rw [if_neg room] at plain ⊢
      exact Or.inl (bare plain).symm
  · rw [if_pos synced] at plain ⊢
    exact Or.inl (bare plain).symm

omit short in
theorem valid_piece (w : World) (tcph : Dgram) (piece : Piece S base (unsyn tcph)) (plain : (tcpValid w tcph).2.flags.syn = false) :
    Piece S base (tcpValid w tcph).2 ∧ (tcpValid w tcph).2.seq = (unsyn tcph).seq
      ∧ tcpDatalen (tcpValid w tcph).2 = tcpDatalen (unsyn tcph) := by
  obtain same | same := valid_strips w tcph plain
  · rw [same]
    exact ⟨piece, rfl, rfl⟩
  · rw [same]
    exact ⟨piece_unfinned S base _ piece, rfl, rfl⟩

omit short in
theorem valid_last (w : World) (tcph : Dgram) (synced : w.tcb.state.synced = true) (valid : (tcpValid w tcph).1 = true)
    (real : 0 < tcpDatalen tcph) : SEQLE w.tcb.rcvNxt (segLast (unsyn tcph)) := by
  have last : segLast (unsyn tcph) = segLast tcph := by
    by_cases syn : tcph.flags.syn = true
    · have bare : unsyn tcph = { tcph with flags.syn := false, seq := tcph.seq + 1 } := if_pos syn
      have more : tcpSeglen tcph = tcpSeglen (unsyn tcph) + 1 := by
        rw [bare]
        unfold tcpSeglen
        rw [if_pos syn, if_neg Bool.false_ne_true]
        change tcpDatalen tcph + 1 + _ = tcpDatalen tcph + 0 + _ + 1
        ring
      have some : 0 < tcpSeglen (unsyn tcph) := by
        rw [bare]
        unfold tcpSeglen
        change 0 < tcpDatalen tcph + _ + _
        split <;> split <;> omega
      have start : (unsyn tcph).seq = tcph.seq + 1 := by rw [bare]
      unfold segLast
      rw [if_pos (by omega), if_pos (by omega), more, start, BitVec.ofInt_add]
      change tcph.seq + 1 + _ - 1 = tcph.seq + (_ + 1) - 1
      abel
    · rw [show unsyn tcph = tcph from if_neg syn]
  unfold tcpValid at valid
  rw [if_neg (not_not.mpr synced)] at valid
  rw [last]
  split at valid
  · exact (of_decide_eq_true valid).1
  · have none := (of_decide_eq_true valid).1
    unfold tcpSeglen at none
    split at none <;> split at none <;> omega

-- What tcp_valid lets through reaches up to the first number that has not come.
theorem last_reaches (w : World) (tcph : Dgram) (n m : Nat) (got : Set Nat) (follows : Follows S base w n m got)
    (piece : Piece S base tcph) (reach : SEQLE w.tcb.rcvNxt (segLast tcph)) (real : 0 < tcpDatalen tcph) :
    ended S w m = 0 ∧ ((m : Int) < (tcph.seq - base).toNat + tcpDatalen tcph
      ∨ (m : Int) ≤ (tcph.seq - base).toNat + tcpDatalen tcph ∧ (tcph.seq - base).toNat + tcpDatalen tcph = S.length) := by
  have inside := piece.inside (Or.inl real)
  have below := follows.below
  have ends : ended S w m = 0 ∨ ended S w m = 1 ∧ m = S.length := by
    unfold ended
    split
    · rename_i here
      exact Or.inr ⟨rfl, here.2⟩
    · exact Or.inl rfl
  have start : tcph.seq = place base ((tcph.seq - base).toNat : Int) := by
    unfold place
    rw [BitVec.ofInt_natCast, BitVec.ofNat_toNat, BitVec.setWidth_eq]
    abel
  unfold segLast tcpSeglen at reach
  rw [piece.syn, if_neg Bool.false_ne_true, add_zero, follows.nxt] at reach
  have last : ∀ extra : Int, 0 ≤ extra → (tcph.seq - base).toNat + tcpDatalen tcph + extra ≤ S.length + 1 →
      SEQLE (place base ((m + ended S w m : Nat) : Int)) (tcph.seq + BitVec.ofInt 32 (tcpDatalen tcph + extra) - 1) →
      (m + ended S w m : Int) ≤ (tcph.seq - base).toNat + (tcpDatalen tcph + extra) - 1 := by
    intro extra positive bound ordered
    have stop : tcph.seq + BitVec.ofInt 32 (tcpDatalen tcph + extra) - 1
        = place base ((tcph.seq - base).toNat + (tcpDatalen tcph + extra) - 1) := by
      rw [Int.sub_eq_add_neg, ← place_add, ← place_add, ← start, BitVec.sub_eq_add_neg]
      exact congrArg _ (by decide)
    rw [stop, SEQLE, le_place _ _ _ (by omega) (by omega)] at ordered
    omega
  cases fin : tcph.flags.fin with
  | false =>
      rw [fin, if_neg Bool.false_ne_true, add_zero, if_pos (by omega)] at reach
      have ordered := last 0 (by omega) (by omega) (by rw [add_zero]; exact reach)
      omega
  | true =>
      have total := piece.fin fin
      rw [fin, if_pos rfl, if_pos (by omega)] at reach
      have ordered := last 1 (by omega) (by omega) reach
      omega

-- A segment that tcp_valid has let through at v is taken into x, which has the same rcv_nxt.
theorem arrive_follows (env : Env) (v x : World) (pkt : Pkt) (n m : Nat) (got : Set Nat) (follows : Follows S base x n m got)
    (same : x.tcb.rcvNxt = v.tcb.rcvNxt) (piece : Piece S base (unsyn pkt.tcph)) (synced : v.tcb.state.synced = true)
    (valid : (tcpValid v pkt.tcph).1 = true) (plain : (tcpValid v pkt.tcph).2.flags.syn = false) :
    ∃ m', m ≤ m' ∧ Follows S base (tcpRcvdata env x (gatePkt v pkt)) n m' (got ∪ span base (unsyn pkt.tcph)) := by
  obtain ⟨piece', seq, length⟩ := valid_piece S base v pkt.tcph piece plain
  have alike : span base (tcpValid v pkt.tcph).2 = span base (unsyn pkt.tcph) := by
    unfold span
    rw [seq, length]
  obtain ⟨start, stop⟩ := piece_start S base (gatePkt v pkt) piece'
  change startAt base (rcvSeg (gatePkt v pkt)) = ((tcpValid v pkt.tcph).2.seq - base).toNat at start
  change (DATLEN (rcvSeg (gatePkt v pkt)) : Int) = tcpDatalen (tcpValid v pkt.tcph).2 at stop
  rw [seq] at start
  rw [length] at stop
  rw [← alike]
  refine rcvdata_follows S base short env x (gatePkt v pkt) n m got follows piece' fun real => ?_
  have real' : 0 < tcpDatalen (unsyn pkt.tcph) := length ▸ real
  have size : tcpDatalen (unsyn pkt.tcph) = tcpDatalen pkt.tcph := by
    unfold unsyn
    split <;> rfl
  have last := valid_last v pkt.tcph synced valid (size ▸ real')
  rw [← same] at last
  obtain ⟨notEnded, reach⟩ := last_reaches S base short x (unsyn pkt.tcph) n m got follows piece last real'
  refine ⟨notEnded, ?_⟩
  unfold stopAt
  omega

omit short in
theorem consumes_follows (w w' : World) (n k m : Nat) (got : Set Nat) (follows : Follows S base w n m got)
    (consumes : Consumes S base w w' n k) : Follows S base w' (n + k) m got := by
  obtain ⟨reads, order, below, nxt, seqFin, all, had, whole, gap⟩ := follows
  have order' : n + k ≤ m := by
    by_contra beyond
    exact gap (consumes.had m order (Nat.lt_of_not_le beyond))
  refine ⟨consumes.reads, order', below, ?_, ?_, fun i after inside => ?_, fun i before => ?_, fun i after before => ?_,
    fun has => ?_⟩
  · unfold ended at nxt ⊢
    rw [consumes.nxt, consumes.fin, nxt]
  · rw [consumes.fin, consumes.seqFin]
    exact seqFin
  · rw [consumes.kept i after]
    exact all i (by omega) inside
  · by_cases old : i < n
    · exact had i old
    · exact (all i (by omega) (by omega)).mp (consumes.had i (by omega) before)
  · exact (consumes.kept i after).mpr (whole i (by omega) before)
  · exact gap ((consumes.kept m order').mp has)

omit short in
theorem quiet_follows (w w' : World) (n m : Nat) (got : Set Nat) (follows : Follows S base w n m got) (quiet : Calm w w') :
    Follows S base w' n m got := by
  obtain ⟨reads, order, below, nxt, seqFin, all, had, whole, gap⟩ := follows
  refine ⟨quiet_reads S base w w' n quiet reads, order, below, ?_, ?_, ?_, had, ?_, ?_⟩
  · unfold ended at nxt ⊢
    rw [quiet.nxt, quiet.fin, nxt]
  · rw [quiet.fin, quiet.seqFin]
    exact seqFin
  · rw [quiet.queue]
    exact all
  · rw [quiet.queue]
    exact whole
  · rw [quiet.queue]
    exact gap

end

-- A connection about to receive the stream.
structure Fresh (base : Seq) (w : World) : Prop where
  read : w.tcb.seqRead = base
  uread : w.tcb.seqUread = base
  nxt : w.tcb.rcvNxt = base
  fin : w.tcb.flags.fin = false
  queue : w.data.rcv.q = []

theorem fresh_follows (S : List Byte) (base : Seq) (w : World) (fresh : Fresh base w) : Follows S base w 0 0 ∅ := by
  have none : ∀ i, ¬ Has base w.data.rcv.q i := fun i => by
    rw [fresh.queue]
    rintro ⟨b, member, -⟩
    cases member
  refine ⟨⟨?_, ⟨0, Nat.le_refl 0, ?_⟩, Nat.zero_le _, ?_, ?_, ?_⟩, Nat.le_refl 0, Nat.zero_le _, ?_, fun fin => ?_, fun i _ _ => ?_,
    fun i less => absurd less (Nat.not_lt_zero i), fun i _ less => absurd less (Nat.not_lt_zero i), none 0⟩
  · rw [fresh.read]
    exact (place_zero base).symm
  · rw [fresh.uread]
    exact (place_zero base).symm
  · rw [fresh.queue]
    exact List.Pairwise.nil
  · rw [fresh.queue]
    exact fun b member => absurd member List.not_mem_nil
  · rw [fresh.queue]
    exact fun b member => absurd member List.not_mem_nil
  · unfold ended
    rw [fresh.nxt, fresh.fin, if_neg fun both => Bool.false_ne_true both.1]
    exact (place_zero base).symm
  · exact absurd (fresh.fin.symm.trans fin) (by decide)
  · exact iff_of_false (none i) (Set.notMem_empty i)

end MagxNet.Tcp
