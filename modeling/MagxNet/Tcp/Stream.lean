import MagxNet.Tcp.Coverage

set_option autoImplicit false

namespace MagxNet.Tcp

open Bytes Serial

-- A segment that holds its part of the stream, of which the first byte has the number base.
structure Bears (S : List Byte) (base : Seq) (b : Buf) : Prop where
  plain : b.th.flags.urg = false
  unread : b.th.freeme = false
  real : 0 < DATLEN b
  inside : stopAt base b ≤ S.length
  bytes : (tcpData b.th).take (DATLEN b) = (S.drop (startAt base b)).take (DATLEN b)

-- Some segment holds the byte at i.
def Has (base : Seq) (bufs : List Buf) (i : Nat) : Prop := ∃ b ∈ bufs, startAt base b ≤ i ∧ i < stopAt base b

section

variable (S : List Byte) (base : Seq) (short : S.length + 1 < 2 ^ 31)

theorem carried_part (b : Buf) (carries : Bears S base b) (n k : Nat) (after : startAt base b ≤ n)
    (before : n + k ≤ stopAt base b) : ((tcpData b.th).drop (n - startAt base b)).take k = (S.drop n).take k := by
  unfold stopAt at before
  have cut := congrArg (fun l => (l.drop (n - startAt base b)).take k) carries.bytes
  rw [List.drop_take, List.drop_take, List.take_take, List.take_take, Nat.min_eq_left (by omega), List.drop_drop,
    Nat.add_sub_cancel' after] at cut
  exact cut

include short

theorem carries_within (b : Buf) (carries : Bears S base b) : Within base b := by
  have real := carries.real
  have inside := carries.inside
  unfold stopAt at inside
  exact ⟨by omega, by unfold stopAt; omega, by unfold stopAt; omega⟩

theorem place_le (i j : Nat) (below : i ≤ S.length + 1) (below' : j ≤ S.length + 1) :
    SEQLE (place base i) (place base j) ↔ i ≤ j := by
  rw [SEQLE, le_place _ _ _ (by omega) (by omega)]
  exact Int.ofNat_le

theorem place_lt (i j : Nat) (below : i ≤ S.length + 1) (below' : j ≤ S.length + 1) :
    SEQLT (place base i) (place base j) ↔ i < j := by
  rw [SEQLT, lt_place _ _ _ (by omega) (by omega)]
  exact Int.ofNat_lt

theorem place_same (i j : Nat) (below : i ≤ S.length + 1) (below' : j ≤ S.length + 1) : place base i = place base j ↔ i = j := by
  refine ⟨fun same => ?_, fun same => by rw [same]⟩
  have first := (place_le S base short i j below below').mp (same ▸ Serial.le_refl _)
  have second := (place_le S base short j i below' below).mp (same ▸ Serial.le_refl _)
  omega

theorem read_offset (b : Buf) (n : Nat) (after : startAt base b ≤ n) (below : n ≤ S.length) :
    (place base n - SEQ1ST b).toInt = ((n - startAt base b : Nat) : Int) := by
  rw [seq1st_place base b, place_sub_toInt _ _ _ (by omega) (by omega)]
  omega

-- The marks that reading up to a place leaves.
def readUpTo (N : Nat) (b : Buf) : Buf := if stopAt base b ≤ N then b.mark true else b

omit short in
theorem unread_same (N : Nat) (bufs : List Buf) (ahead : ∀ b ∈ bufs, N < stopAt base b) : bufs.map (readUpTo base N) = bufs := by
  refine (List.map_congr_left fun b member => ?_).trans (List.map_id bufs)
  exact if_neg (Nat.not_le.mpr (ahead b member))

-- From n on the bytes are copied as far as they are there, the segments hold and the caller wants.
theorem copy_spec (w : World) (args : RecvArgs) (bufs : List Buf) (n : Nat) (size : Int) (normal : args.peek = false)
    (rising : Rising base bufs) (carry : ∀ b ∈ bufs, Bears S base b) (ahead : ∀ b ∈ bufs, n < stopAt base b)
    (below : n ≤ S.length) :
    ∃ k : Nat, copyLoop w args false bufs size (place base n)
        = ⟨place base ((n + k : Nat) : Int), (S.drop n).take k, bufs.map (readUpTo base (n + k))⟩
      ∧ (∀ i, n ≤ i → i < n + k → Has base bufs i) ∧ (k : Int) ≤ max size 0 ∧ n + k ≤ S.length
      ∧ (size ≤ k ∨ ¬ Has base bufs (n + k)) := by
  induction bufs generalizing n size with
  | nil =>
      refine ⟨0, rfl, fun i after before => absurd before (by omega), by omega, below, Or.inr ?_⟩
      rintro ⟨b, member, -⟩
      cases member
  | cons b rest ih =>
      obtain ⟨stops, rising'⟩ := List.pairwise_cons.mp rising
      have own := carry b List.mem_cons_self
      have end' := ahead b List.mem_cons_self
      have inside := own.inside
      rw [copyLoop]
      by_cases done : size ≤ 0 ∨ b.th.flags.urg ≠ false ∨ SEQLT (place base n) (SEQ1ST b)
      · rw [if_pos done]
        refine ⟨0, ?_, fun i after before => absurd before (by omega), by omega, below, ?_⟩
        · rw [Nat.add_zero, unread_same base n _ ahead]
          rfl
        · refine done.imp id fun others => ?_
          have apart := others.resolve_left fun urgent => urgent own.plain
          rw [seq1st_place base b, place_lt S base short _ _ (by omega) (by unfold stopAt at inside; omega)] at apart
          rintro ⟨c, member, there⟩
          obtain rfl | member := List.mem_cons.mp member
          · omega
          · have order := (stops c member).1
            omega
      · obtain ⟨wanted, others⟩ := not_or.mp done
        have begun : startAt base b ≤ n := by
          have reached := (not_or.mp others).2
          rw [seq1st_place base b, place_lt S base short _ _ (by omega) (by unfold stopAt at inside; omega)] at reached
          omega
        have same : skipUread w args false b (place base n) = place base n := if_neg fun all => Bool.false_ne_true all.2.1
        rw [if_neg done, own.unread, if_neg Bool.false_ne_true, same]
        dsimp only
        rw [read_offset S base short b n begun below]
        obtain ⟨d, cando⟩ : ∃ d : Nat, min size ((DATLEN b : Int) - ((n - startAt base b : Nat) : Int)) = d :=
          ⟨(min size ((DATLEN b : Int) - ((n - startAt base b : Nat) : Int))).toNat, by unfold stopAt at end'; omega⟩
        have within : n + d ≤ stopAt base b := by
          unfold stopAt at end' ⊢
          omega
        have after : place base n + BitVec.ofInt 32 d = place base ((n + d : Nat) : Int) := by
          rw [place_add]
          rfl
        have marks : ((¬ args.peek = true) ∧ SEQLE (SEQNXT b) (place base ((n + d : Nat) : Int))) ↔ stopAt base b ≤ n + d := by
          rw [seqnxt_place base b, place_le S base short _ _ (by omega) (by omega), normal]
          simp
        obtain ⟨k, run, has, most, fits, full⟩ :=
          ih (n + d) (size - d) rising' (fun c member => carry c (List.mem_cons_of_mem b member))
          (fun c member => within.trans_lt (stops c member).2) (within.trans inside)
        have total : n + d + k = n + (d + k) := Nat.add_assoc ..
        refine ⟨d + k, ?_, fun i first last => ?_, by omega, by omega, ?_⟩
        · rw [cando, after, run, total]
          dsimp only
          rw [Int.toNat_natCast, Int.toNat_natCast, carried_part S base b own n d begun within, List.take_add, List.drop_drop,
            List.map_cons]
          have own' : (if (¬ args.peek = true) ∧ SEQLE (SEQNXT b) (place base ((n + d : Nat) : Int)) then b.mark true else b)
              = readUpTo base (n + (d + k)) b := by
            unfold readUpTo
            rw [if_congr marks rfl rfl]
            by_cases all : stopAt base b ≤ n + d
            · rw [if_pos all, if_pos (by omega)]
            · have last : k = 0 := by
                unfold stopAt at all end'
                omega
              rw [last, Nat.add_zero]
          rw [own']
        · by_cases here : i < n + d
          · exact ⟨b, List.mem_cons_self, by omega, by omega⟩
          · obtain ⟨c, member, there⟩ := has i (by omega) (by omega)
            exact ⟨c, List.mem_cons_of_mem b member, there⟩
        · by_cases enough : size ≤ d
          · exact Or.inl (by omega)
          · refine full.imp (by omega) fun gap => ?_
            rintro ⟨c, member, there⟩
            rw [← total] at there
            obtain rfl | member := List.mem_cons.mp member
            · unfold stopAt at within there end'
              omega
            · exact gap ⟨c, member, there⟩

-- The reader stands at n, and the queue holds what it has not read. Only when the stream has come to its end can a segment stay
-- that ends at n.
structure Reads (w : World) (n : Nat) : Prop where
  read : w.tcb.seqRead = place base n
  uread : ∃ u : Nat, u ≤ n ∧ w.tcb.seqUread = place base u
  below : n ≤ S.length
  rising : Rising base w.data.rcv.q
  carry : ∀ b ∈ w.data.rcv.q, Bears S base b
  ahead : ∀ b ∈ w.data.rcv.q, n < stopAt base b ∨ n = S.length

theorem seek_reads (w : World) (n : Nat) (reads : Reads S base w n) :
    (∃ x, seekSeg w false = ([], x)) ∧ ¬ Has base w.data.rcv.q n
      ∨ seekSeg w false = (w.data.rcv.q, place base n) ∧ ∀ b ∈ w.data.rcv.q, n < stopAt base b := by
  obtain ⟨read, -, below, rising, carry, ahead⟩ := reads
  unfold seekSeg
  rw [if_neg Bool.false_ne_true, read]
  dsimp only
  have passes : ∀ b ∈ w.data.rcv.q, SEQLE (SEQNXT b) (place base n) ↔ stopAt base b ≤ n := fun b member => by
    have inside := (carry b member).inside
    rw [seqnxt_place base b, place_le S base short _ _ (by omega) (by omega)]
  by_cases full : n = S.length
  · have none : (w.data.rcv.q.dropWhile fun b => decide (SEQLE (SEQNXT b) (place base n))) = [] :=
      List.dropWhile_eq_nil_iff.mpr fun b member => decide_eq_true ((passes b member).mpr (full ▸ (carry b member).inside))
    rw [none]
    refine Or.inl ⟨⟨_, rfl⟩, ?_⟩
    rintro ⟨b, member, there⟩
    have inside := (carry b member).inside
    omega
  · have later : ∀ b ∈ w.data.rcv.q, n < stopAt base b := fun b member => (ahead b member).resolve_right full
    generalize w.data.rcv.q = bufs at *
    cases bufs with
    | nil =>
        refine Or.inl ⟨⟨_, rfl⟩, ?_⟩
        rintro ⟨b, member, -⟩
        cases member
    | cons b rest =>
        have own := carry b List.mem_cons_self
        have inside := own.inside
        have stays : ¬ SEQLE (SEQNXT b) (place base n) := fun behind =>
          Nat.not_le.mpr (later b List.mem_cons_self) ((passes b List.mem_cons_self).mp behind)
        have fit : unfit w.data.oobinline false b = false := by
          unfold unfit
          rw [own.unread, own.plain]
          simp
        rw [List.dropWhile_cons_of_neg (by simpa using stays), skipUnfit, fit, if_neg fun both => Bool.false_ne_true both.1]
        dsimp only
        by_cases begun : SEQLE (SEQ1ST b) (place base n)
        · rw [if_pos begun]
          exact Or.inr ⟨rfl, later⟩
        · rw [if_neg begun]
          refine Or.inl ⟨⟨_, rfl⟩, ?_⟩
          rw [seq1st_place base b, place_le S base short _ _ (by unfold stopAt at inside; omega) (by omega)] at begun
          rintro ⟨c, member, there⟩
          obtain rfl | member := List.mem_cons.mp member
          · omega
          · have order := (List.rel_of_pairwise_cons rising member).1
            omega

omit short in
theorem drop_spec (rcv : Dataq) (lowest : Seq) (bufs : List Buf) (freed : List Nat) (N : Nat) (rising : Rising base bufs)
    (carry : ∀ b ∈ bufs, Bears S base b) :
    ∃ cur lowest' freed', dropMarked rcv lowest (bufs.map (readUpTo base N)) freed
        = ({ rcv with curdatalen := cur, q := bufs.filter fun b => decide (N < stopAt base b) }, lowest', freed')
      ∧ (lowest' = lowest ∨ ∃ b ∈ bufs, stopAt base b ≤ N ∧ lowest' = SEQNXT b) := by
  induction bufs generalizing rcv lowest freed with
  | nil => exact ⟨rcv.curdatalen, lowest, freed, rfl, Or.inl rfl⟩
  | cons b rest ih =>
      obtain ⟨stops, rising'⟩ := List.pairwise_cons.mp rising
      have own := carry b List.mem_cons_self
      by_cases read : stopAt base b ≤ N
      · have mark : readUpTo base N b = b.mark true := if_pos read
        obtain ⟨cur, lowest', freed', run, least⟩ :=
          ih { rcv with curdatalen := lenWithout rcv (b.mark true) (rest.map (readUpTo base N)) }
          (SEQNXT b) (freed ++ [b.id]) rising' fun c member => carry c (List.mem_cons_of_mem b member)
        refine ⟨cur, lowest', freed', ?_, Or.inr ?_⟩
        · rw [List.map_cons, mark, dropMarked, List.filter_cons_of_neg (by simpa using read)]
          exact run
        · obtain same | ⟨c, member, there, same⟩ := least
          · exact ⟨b, List.mem_cons_self, read, same⟩
          · exact ⟨c, List.mem_cons_of_mem b member, there, same⟩
      · have later : ∀ c ∈ b :: rest, N < stopAt base c := fun c member => by
          obtain rfl | member := List.mem_cons.mp member
          · omega
          · have order := (stops c member).2
            omega
        refine ⟨rcv.curdatalen, lowest, freed, ?_, Or.inl rfl⟩
        rw [unread_same base N _ later, dropMarked, own.unread, if_neg Bool.false_ne_true,
          List.filter_eq_self.mpr fun c member => decide_eq_true (later c member)]

end

-- What the other side of a connection leaves alone.
structure Calm (w w' : World) : Prop where
  read : w'.tcb.seqRead = w.tcb.seqRead
  uread : w'.tcb.seqUread = w.tcb.seqUread
  nxt : w'.tcb.rcvNxt = w.tcb.rcvNxt
  fin : w'.tcb.flags.fin = w.tcb.flags.fin
  seqFin : w'.tcb.seqFin = w.tcb.seqFin
  queue : w'.data.rcv.q = w.data.rcv.q

theorem incoming_quiet (w w' : World) (same : incoming w' = incoming w) : Calm w w' :=
  ⟨incoming_same (fun w => w.tcb.seqRead) w w' same fun _ => rfl, incoming_same (fun w => w.tcb.seqUread) w w' same fun _ => rfl,
    incoming_same (fun w => w.tcb.rcvNxt) w w' same fun _ => rfl, incoming_same (fun w => w.tcb.flags.fin) w w' same fun _ => rfl,
    incoming_same (fun w => w.tcb.seqFin) w w' same fun _ => rfl, incoming_same (fun w => w.data.rcv.q) w w' same fun _ => rfl⟩

theorem quiet_trans (w w1 w2 : World) (first : Calm w w1) (second : Calm w1 w2) : Calm w w2 :=
  ⟨second.read.trans first.read, second.uread.trans first.uread, second.nxt.trans first.nxt, second.fin.trans first.fin,
    second.seqFin.trans first.seqFin, second.queue.trans first.queue⟩

theorem announce_quiet (env : Env) (w : World) : Calm w (announce env w) := by
  unfold announce
  split
  · exact incoming_quiet _ _ (incoming_of_steady _ _ (steady_send_ack env w))
  · exact ⟨rfl, rfl, rfl, rfl, rfl, rfl⟩

-- What a reader leaves that takes k bytes from n on.
structure Consumes (S : List Byte) (base : Seq) (w w' : World) (n k : Nat) : Prop where
  reads : Reads S base w' (n + k)
  nxt : w'.tcb.rcvNxt = w.tcb.rcvNxt
  fin : w'.tcb.flags.fin = w.tcb.flags.fin
  seqFin : w'.tcb.seqFin = w.tcb.seqFin
  kept : ∀ i, n + k ≤ i → (Has base w'.data.rcv.q i ↔ Has base w.data.rcv.q i)
  had : ∀ i, n ≤ i → i < n + k → Has base w.data.rcv.q i

-- The bytes that a call of tcp_recv returns.
def given : RecvResult → List Byte
  | .data bytes => bytes
  | _ => []

section

variable (S : List Byte) (base : Seq) (short : S.length + 1 < 2 ^ 31)

theorem quiet_reads (w w' : World) (n : Nat) (quiet : Calm w w') (reads : Reads S base w n) : Reads S base w' n := by
  obtain ⟨read, uread, below, rising, carry, ahead⟩ := reads
  rw [← quiet.queue] at rising carry ahead
  exact ⟨quiet.read.trans read, quiet.uread ▸ uread, below, rising, carry, ahead⟩

theorem consumes_none (w : World) (n : Nat) (reads : Reads S base w n) : Consumes S base w w n 0 :=
  ⟨reads, rfl, rfl, rfl, fun _ _ => Iff.rfl, fun i after before => absurd before (by omega)⟩

include short

-- The reader's pointers behind tcp_dropsegs: nothing that is dropped lies behind them.
theorem free_reads (w : World) (bufs : List Buf) (N u : Nat) (rising : Rising base bufs) (carry : ∀ b ∈ bufs, Bears S base b)
    (queue : w.data.rcv.q = bufs.map (readUpTo base N)) (read : w.tcb.seqRead = place base N)
    (uread : w.tcb.seqUread = place base u) (under : u ≤ N) (below : N ≤ S.length) :
    Reads S base (freeMarked w) N ∧ (freeMarked w).data.rcv.q = (bufs.filter fun b => decide (N < stopAt base b))
    ∧ (freeMarked w).tcb.rcvNxt = w.tcb.rcvNxt ∧ (freeMarked w).tcb.flags.fin = w.tcb.flags.fin
    ∧ (freeMarked w).tcb.seqFin = w.tcb.seqFin := by
  obtain ⟨cur, lowest, freed, run, least⟩ := drop_spec S base w.data.rcv (lowestRead w) bufs [] N rising carry
  obtain ⟨v, small, place'⟩ : ∃ v : Nat, v ≤ N ∧ lowest = place base v := by
    obtain same | ⟨b, -, there, same⟩ := least
    · unfold lowestRead at same
      rw [same]
      split
      · exact ⟨N, Nat.le_refl N, read⟩
      · exact ⟨u, under, uread⟩
    · exact ⟨stopAt base b, there, same.trans (seqnxt_place base b)⟩
  have result : freeMarked w = dragPointers (bufsDeref (setRcvq w { w.data.rcv with
      curdatalen := cur, q := bufs.filter fun b => decide (N < stopAt base b) }) freed) lowest := by
    unfold freeMarked
    rw [queue, run]
  have drag : ∀ x : Nat, x ≤ N → ∃ y : Nat, y ≤ N
    ∧ (if SEQLT (place base x) lowest then lowest else place base x) = place base y := by
    intro x most
    rw [place']
    split
    · exact ⟨v, small, rfl⟩
    · exact ⟨x, most, rfl⟩
  have still : (if SEQLT (place base N) lowest then lowest else place base N) = place base N := by
    rw [place']
    exact if_neg fun less => Nat.not_lt.mpr small ((place_lt S base short _ _ (by omega) (by omega)).mp less)
  rw [result]
  refine ⟨⟨?_, ?_, below, rising.filter _, fun b member => carry b (List.mem_filter.mp member).1,
    fun b member => Or.inl (of_decide_eq_true (List.mem_filter.mp member).2)⟩, rfl, rfl, rfl, rfl⟩
  · change (if SEQLT w.tcb.seqRead lowest then lowest else w.tcb.seqRead) = _
    rw [read, still]
  · change ∃ y : Nat, y ≤ N ∧ (if SEQLT w.tcb.seqUread lowest then lowest else w.tcb.seqUread) = place base y
    rw [uread]
    exact drag u under

theorem recv_copies (env : Env) (w : World) (args : RecvArgs) (n : Nat) (normal : args.oob = false) (taken : args.peek = false)
    (reads : Reads S base w n) (ahead : ∀ b ∈ w.data.rcv.q, n < stopAt base b) :
    ∃ k : Nat, (recvCopy env w args w.data.rcv.q (place base n)).1 = (S.drop n).take k
      ∧ Consumes S base w (recvCopy env w args w.data.rcv.q (place base n)).2 n k ∧ k ≤ args.size
      ∧ (args.size ≤ k ∨ ¬ Has base w.data.rcv.q (n + k)) := by
  obtain ⟨read, ⟨u, under, uread⟩, below, rising, carry, -⟩ := reads
  obtain ⟨k, run, has, most, fits, full⟩ := copy_spec S base short w args w.data.rcv.q n args.size taken rising carry ahead below
  have kind : (w.data.rcv.q.head?.map fun b => b.th.flags.urg).getD false = false := by
    cases whole : w.data.rcv.q with
    | nil => rfl
    | cons b rest => exact (carry b (whole ▸ List.mem_cons_self)).plain
  have copied : recvCopied w args w.data.rcv.q (place base n)
      = ⟨place base ((n + k : Nat) : Int), (S.drop n).take k, w.data.rcv.q.map (readUpTo base (n + k))⟩ := by
    unfold recvCopied
    rw [kind, run]
  have put : putBack w w.data.rcv.q (w.data.rcv.q.map (readUpTo base (n + k)))
      = { w with data.rcv.q := w.data.rcv.q.map (readUpTo base (n + k)) } := by
    unfold putBack
    rw [Nat.sub_self, List.take_zero, List.nil_append]
  obtain ⟨v, small, pointer⟩ : ∃ v : Nat, v ≤ n + k
      ∧ (setReadPtr (putBack w w.data.rcv.q (w.data.rcv.q.map (readUpTo base (n + k)))) false
        (place base ((n + k : Nat) : Int))).tcb.seqUread
        = place base v := by
    unfold setReadPtr
    dsimp only
    split
    · exact ⟨n + k, Nat.le_refl _, rfl⟩
    · exact ⟨u, by omega, uread⟩
  have queue : (setReadPtr (putBack w w.data.rcv.q (w.data.rcv.q.map (readUpTo base (n + k)))) false
      (place base ((n + k : Nat) : Int))).data.rcv.q = w.data.rcv.q.map (readUpTo base (n + k)) := by
    rw [put]
    rfl
  obtain ⟨reads', left, nxt, fin, seqFin⟩ :=
    free_reads S base short _ w.data.rcv.q (n + k) v rising carry queue rfl pointer small fits
  unfold recvCopy
  rw [copied, normal, taken]
  dsimp only
  rw [if_neg Bool.false_ne_true]
  have quiet := announce_quiet env (freeMarked (setReadPtr (putBack w w.data.rcv.q (w.data.rcv.q.map (readUpTo base (n + k)))) false
    (place base ((n + k : Nat) : Int))))
  refine ⟨k, rfl, ⟨quiet_reads S base _ _ _ quiet reads', quiet.nxt.trans nxt, quiet.fin.trans fin, quiet.seqFin.trans seqFin,
    fun i after => ?_, has⟩, by omega, full.imp (by omega) id⟩
  unfold tcpDropsegs
  rw [quiet.queue, left]
  unfold Has
  constructor
  · rintro ⟨b, member, there⟩
    exact ⟨b, (List.mem_filter.mp member).1, there⟩
  · rintro ⟨b, member, there⟩
    exact ⟨b, List.mem_filter.mpr ⟨member, decide_eq_true (after.trans_lt there.2)⟩, there⟩

theorem recv_reads (env : Env) (w : World) (args : RecvArgs) (n : Nat) (normal : args.oob = false) (taken : args.peek = false)
    (reads : Reads S base w n) :
    ∃ k : Nat, given (recvRound env w args).1 = (S.drop n).take k ∧ Consumes S base w (recvRound env w args).2 n k ∧ k ≤ args.size
      ∧ (args.size ≤ k ∨ ¬ Has base w.data.rcv.q (n + k)) := by
  obtain ⟨⟨x, none⟩, gap⟩ | ⟨found, ahead⟩ := seek_reads S base short w n reads
  · have nothing : ∃ k : Nat, ([] : List Byte) = (S.drop n).take k ∧ Consumes S base w w n k ∧ k ≤ args.size
        ∧ (args.size ≤ k ∨ ¬ Has base w.data.rcv.q (n + k)) := ⟨0, rfl, consumes_none S base w n reads, Nat.zero_le _, Or.inr gap⟩
    unfold recvRound
    rw [normal, none]
    dsimp only
    split
    · exact nothing
    · rw [if_neg fun both => Bool.false_ne_true both.1]
      split <;> exact nothing
  · have copies := recv_copies S base short env w args n normal taken reads ahead
    cases whole : w.data.rcv.q with
    | nil =>
        have nothing : ∃ k : Nat, ([] : List Byte) = (S.drop n).take k ∧ Consumes S base w w n k ∧ k ≤ args.size
            ∧ (args.size ≤ k ∨ ¬ Has base [] (n + k)) := ⟨0, rfl, consumes_none S base w n reads, Nat.zero_le _, Or.inr (by
          rintro ⟨b, member, -⟩
          cases member)⟩
        unfold recvRound
        rw [normal, found, whole]
        dsimp only
        split
        · exact nothing
        · rw [if_neg fun both => Bool.false_ne_true both.1]
          split <;> exact nothing
    | cons b rest =>
        rw [whole] at found copies
        unfold recvRound
        rw [normal, found]
        exact copies

theorem tcp_recv_reads (env : Env) (w : World) (args : RecvArgs) (n : Nat) (normal : args.oob = false) (taken : args.peek = false)
    (reads : Reads S base w n) :
    ∃ k : Nat, given (tcpRecv env w args).1 = (S.drop n).take k ∧ Consumes S base w (tcpRecv env w args).2 n k ∧ k ≤ args.size
      ∧ (w.tcb.state.synced = true → args.size ≤ k ∨ ¬ Has base w.data.rcv.q (n + k)) := by
  unfold tcpRecv
  split
  · rename_i empty
    exact ⟨0, rfl, consumes_none S base w n reads, Nat.zero_le _, fun _ => Or.inl empty.le⟩
  · split
    · rename_i early
      refine ⟨0, rfl, consumes_none S base w n reads, Nat.zero_le _, fun synced => ?_⟩
      have late := of_decide_eq_true synced
      exact absurd (late.trans early) (by decide)
    · obtain ⟨k, bytes, consumes, most, full⟩ := recv_reads S base short env w args n normal taken reads
      exact ⟨k, bytes, consumes, most, fun _ => full⟩

theorem woken_reads (env : Env) (w : World) (args : RecvArgs) (n : Nat) (normal : args.oob = false) (taken : args.peek = false)
    (reads : Reads S base w n) :
    ∃ k : Nat, given (tcpRecvWoken env w args).1 = (S.drop n).take k ∧ Consumes S base w (tcpRecvWoken env w args).2 n k := by
  unfold tcpRecvWoken
  split
  · exact ⟨0, rfl, ⟨reads.read, reads.uread, reads.below, reads.rising, reads.carry, reads.ahead⟩, rfl, rfl, rfl,
      fun _ _ => Iff.rfl,
      fun i after before => absurd before (by omega)⟩
  · split
    · exact ⟨0, rfl, consumes_none S base w n reads⟩
    · obtain ⟨k, bytes, consumes, -⟩ := recv_reads S base short env w args n normal taken reads
      exact ⟨k, bytes, consumes⟩

end

end MagxNet.Tcp
