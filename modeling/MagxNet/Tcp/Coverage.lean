import MagxNet.Tcp.Segq

set_option autoImplicit false

namespace MagxNet.Tcp

-- Where a segment begins and ends, counted from base.
def startAt (base : Seq) (b : Buf) : Nat := (SEQ1ST b - base).toNat

def stopAt (base : Seq) (b : Buf) : Nat := startAt base b + DATLEN b

-- The first number of b is in [base, base + 2^31), and the one behind its last in (base, base + 2^31].
structure Within (base : Seq) (b : Buf) : Prop where
  start : startAt base b < 2 ^ 31
  real : 0 < stopAt base b
  stop : stopAt base b ≤ 2 ^ 31

-- A queue with each segment behind the one before at both ends.
def Ascending (bufs : List Buf) : Prop :=
  bufs.IsChain fun b next => SEQLT (SEQ1ST b) (SEQ1ST next) ∧ SEQLT (SEQNXT b) (SEQNXT next)

-- The sequence numbers that are there.
def covered (bufs : List Buf) : Set Seq := {x | ∃ b ∈ bufs, (x - SEQ1ST b).toNat < DATLEN b}

def Contained (b c : Buf) : Prop := SEQLE (SEQ1ST c) (SEQ1ST b) ∧ SEQLE (SEQNXT b) (SEQNXT c)

section Offsets

variable (base : Seq)

theorem seq1st_place (b : Buf) : SEQ1ST b = Serial.place base (startAt base b) := by
  unfold Serial.place startAt
  rw [BitVec.ofInt_natCast, BitVec.ofNat_toNat, BitVec.setWidth_eq]
  abel

theorem seqnxt_place (b : Buf) : SEQNXT b = Serial.place base (stopAt base b) := by
  have length : SEQNXT b = SEQ1ST b + BitVec.ofInt 32 (DATLEN b) := by
    unfold SEQNXT SEQ1ST DATLEN
    rw [BitVec.ofInt_natCast, BitVec.ofNat_toNat]
  rw [length, seq1st_place base, Serial.place_add]
  rfl

section Two

variable (b c : Buf) (here : Within base b) (there : Within base c)

include here there

theorem start_lt : SEQLT (SEQ1ST b) (SEQ1ST c) ↔ startAt base b < startAt base c := by
  have first := here.start
  have second := there.start
  rw [seq1st_place base b, seq1st_place base c, SEQLT, Serial.lt_place _ _ _ (by omega) (by omega)]
  omega

theorem start_le : SEQLE (SEQ1ST b) (SEQ1ST c) ↔ startAt base b ≤ startAt base c := by
  have first := here.start
  have second := there.start
  rw [seq1st_place base b, seq1st_place base c, SEQLE, Serial.le_place _ _ _ (by omega) (by omega)]
  omega

theorem stop_lt : SEQLT (SEQNXT b) (SEQNXT c) ↔ stopAt base b < stopAt base c := by
  obtain ⟨-, first, first'⟩ := here
  obtain ⟨-, second, second'⟩ := there
  rw [seqnxt_place base b, seqnxt_place base c, SEQLT, Serial.lt_place _ _ _ (by omega) (by omega)]
  omega

theorem stop_le : SEQLE (SEQNXT b) (SEQNXT c) ↔ stopAt base b ≤ stopAt base c := by
  obtain ⟨-, first, first'⟩ := here
  obtain ⟨-, second, second'⟩ := there
  rw [seqnxt_place base b, seqnxt_place base c, SEQLE, Serial.le_place _ _ _ (by omega) (by omega)]
  omega

theorem gap_lt (order : startAt base b < startAt base c) : SEQLT (SEQNXT b) (SEQ1ST c) ↔ stopAt base b < startAt base c := by
  obtain ⟨-, first, first'⟩ := here
  have second := there.start
  rw [seqnxt_place base b, seq1st_place base c, SEQLT, Serial.lt_place _ _ _ (by omega) (by omega)]
  omega

end Two

-- Which numbers a segment holds, counted from base.
theorem covers_iff (b : Buf) (within : Within base b) (x : Seq) :
    (x - SEQ1ST b).toNat < DATLEN b ↔ startAt base b ≤ (x - base).toNat ∧ (x - base).toNat < stopAt base b := by
  have shift : x - SEQ1ST b = (x - base) - (SEQ1ST b - base) := by abel
  have bound := (x - base).isLt
  obtain ⟨start, -, stop⟩ := within
  unfold stopAt startAt at *
  rw [shift, BitVec.toNat_sub]
  generalize (x - base).toNat = i at *
  generalize (SEQ1ST b - base).toNat = k at *
  omega

def Rising (bufs : List Buf) : Prop :=
  bufs.Pairwise fun b c => startAt base b < startAt base c ∧ stopAt base b < stopAt base c

theorem rising_iff (bufs : List Buf) (within : ∀ b ∈ bufs, Within base b) : Ascending bufs ↔ Rising base bufs := by
  have : Trans (fun b c => startAt base b < startAt base c ∧ stopAt base b < stopAt base c)
      (fun b c => startAt base b < startAt base c ∧ stopAt base b < stopAt base c)
      (fun b c => startAt base b < startAt base c ∧ stopAt base b < stopAt base c) :=
    ⟨fun first second => ⟨first.1.trans second.1, first.2.trans second.2⟩⟩
  unfold Rising Ascending
  rw [← List.isChain_iff_pairwise]
  refine List.IsChain.iff_of_mem_imp fun b c inside inside' => ?_
  rw [start_lt base b c (within b inside) (within c inside'), stop_lt base b c (within b inside) (within c inside')]

-- Between a segment that begins at or before a number and one that ends behind it, there is the number or a hole with it.
theorem hole_at (i : Nat) (rest : List Buf) (a : Buf) (early : startAt base a ≤ i) (late : i < stopAt base (rest.getLastD a))
    (uncovered : ∀ b ∈ a :: rest, ¬ (startAt base b ≤ i ∧ i < stopAt base b)) :
    ∃ front p d back, a :: rest = front ++ p :: d :: back ∧ stopAt base p ≤ i ∧ i < startAt base d := by
  induction rest generalizing a with
  | nil => exact (uncovered a List.mem_cons_self ⟨early, late⟩).elim
  | cons c rest ih =>
      obtain behind | ahead := Nat.lt_or_ge i (startAt base c)
      · have stop : stopAt base a ≤ i := by
          by_contra more
          exact uncovered a List.mem_cons_self ⟨early, Nat.lt_of_not_le more⟩
        exact ⟨[], a, c, rest, rfl, stop, behind⟩
      · rw [List.getLastD_cons] at late
        obtain ⟨front, p, d, back, split, stop, start⟩ := ih c ahead late fun b member =>
          uncovered b (List.mem_cons_of_mem a member)
        exact ⟨a :: front, p, d, back, by rw [split, List.cons_append], stop, start⟩

section Add

variable (q : Dataq) (buf : Buf) (rising : Rising base q.q) (within : ∀ b ∈ buf :: q.q, Within base b)

-- The place found cuts the queue: what is before it ends before the segment does, what is behind it begins behind its start.
structure Divides (before behind : List Buf) : Prop where
  split : q.q = before ++ behind
  ahead : ∀ b ∈ before, stopAt base b < stopAt base buf
  later : ∀ c ∈ behind, startAt base buf < startAt base c

theorem mark_start (freeme : Bool) : startAt base (buf.mark freeme) = startAt base buf := rfl

theorem mark_stop (freeme : Bool) : stopAt base (buf.mark freeme) = stopAt base buf := rfl

include rising

theorem last_stops (l r : List Buf) (last : Buf) (split : q.q = l ++ last :: r) : ∀ b ∈ l, stopAt base b < stopAt base last := by
  intro b member
  have rising := rising
  rw [Rising, split] at rising
  exact ((List.pairwise_append.mp rising).2.2 b member last List.mem_cons_self).2

theorem first_starts (l r : List Buf) (first : Buf) (split : q.q = l ++ first :: r) :
    ∀ c ∈ r, startAt base first < startAt base c := by
  intro c member
  have rising := rising
  rw [Rising, split] at rising
  exact (List.rel_of_pairwise_cons (List.pairwise_append.mp rising).2.1 member).1

include within

theorem place_divides (before behind : List Buf) (cur : BitVec 32) (found : placeFor q buf = some (before, behind, cur)) :
    Divides base q buf before behind := by
  have here := within buf List.mem_cons_self
  have there : ∀ b ∈ q.q, Within base b := fun b member => within b (List.mem_cons_of_mem buf member)
  unfold placeFor at found
  obtain empty | ⟨init, last, whole⟩ := List.eq_nil_or_concat' q.q
  · rw [empty] at found
    cases found
    exact ⟨empty, fun b member => absurd member List.not_mem_nil, fun c member => absurd member List.not_mem_nil⟩
  · obtain ⟨first, rest, whole'⟩ : ∃ first rest, q.q = first :: rest := List.exists_cons_of_ne_nil (by simp [whole])
    have head : q.q.head? = some first := by rw [whole']; rfl
    have tail : q.q.getLast? = some last := by rw [whole]; exact List.getLast?_concat ..
    have atFirst := there first (by simp [whole'])
    have atLast := there last (by simp [whole])
    rw [head, tail] at found
    dsimp only at found
    split at found
    · rename_i longer
      have longer := (stop_lt base last buf atLast here).mp longer
      cases found
      refine ⟨(List.append_nil _).symm, fun b member => ?_, fun c member => absurd member List.not_mem_nil⟩
      rw [whole] at member
      obtain inside | same := List.mem_append.mp member
      · exact (last_stops base q rising init [] last whole b inside).trans longer
      · obtain rfl := List.mem_singleton.mp same
        exact longer
    · split at found
      · rename_i earlier
        have earlier := (start_lt base buf first here atFirst).mp earlier
        cases found
        refine ⟨rfl, fun b member => absurd member List.not_mem_nil, fun c member => ?_⟩
        rw [whole'] at member
        obtain rfl | inside := List.mem_cons.mp member
        · exact earlier
        · exact earlier.trans (first_starts base q rising [] rest first whole' c inside)
      · obtain ⟨cut, hole, result⟩ := Option.map_eq_some_iff.mp found
        cases result
        obtain ⟨front, p, d, back, split, before, behind, -, start, stop⟩ := hole_found _ _ _ _ _ hole
        have atP := there p (by simp [split])
        have atD := there d (by simp [split])
        have start := (start_lt base buf d here atD).mp start
        have stop := (stop_lt base p buf atP here).mp stop
        rw [before, behind]
        refine ⟨by rw [split]; simp, fun b member => ?_, fun c member => ?_⟩
        · obtain inside | same := List.mem_append.mp member
          · exact (last_stops base q rising front (d :: back) p split b inside).trans stop
          · obtain rfl := List.mem_singleton.mp same
            exact stop
        · obtain rfl | inside := List.mem_cons.mp member
          · exact start
          · exact start.trans (first_starts base q rising (front ++ [p]) back d (by rw [split]; simp) c inside)

omit rising within in
-- What stays before the segment begins before it does.
theorem kept_ahead (before : List Buf) (rising : Rising base before) (within : ∀ b ∈ buf :: before, Within base b) :
    ∀ b ∈ before.rdropWhile (fun b => decide (SEQLE (SEQ1ST buf) (SEQ1ST b))), startAt base b < startAt base buf := by
  induction before using List.reverseRecOn with
  | nil => exact fun b member => absurd member List.not_mem_nil
  | append_singleton l x ih =>
      obtain ⟨rising', -, apart⟩ := List.pairwise_append.mp rising
      have here := within buf List.mem_cons_self
      have there := within x (by simp)
      by_cases gone : SEQLE (SEQ1ST buf) (SEQ1ST x)
      · rw [List.rdropWhile_concat, if_pos (decide_eq_true gone)]
        exact ih rising' fun b member => within b (by simp at member ⊢; tauto)
      · rw [List.rdropWhile_concat, if_neg (by simpa using gone)]
        rw [start_le base buf x here there] at gone
        intro b member
        obtain inside | same := List.mem_append.mp member
        · exact (apart b inside x (List.mem_singleton.mpr rfl)).1.trans (Nat.lt_of_not_le gone)
        · obtain rfl := List.mem_singleton.mp same
          exact Nat.lt_of_not_le gone

omit rising within in
theorem kept_behind (behind : List Buf) (rising : Rising base behind) (within : ∀ b ∈ buf :: behind, Within base b) :
    ∀ c ∈ behind.dropWhile (fun c => decide (SEQLE (SEQNXT c) (SEQNXT buf))), stopAt base buf < stopAt base c := by
  induction behind with
  | nil => exact fun c member => absurd member List.not_mem_nil
  | cons x rest ih =>
      obtain ⟨apart, rising'⟩ := List.pairwise_cons.mp rising
      have here := within buf List.mem_cons_self
      have there := within x (by simp)
      by_cases gone : SEQLE (SEQNXT x) (SEQNXT buf)
      · rw [List.dropWhile_cons, if_pos (decide_eq_true gone)]
        exact ih rising' fun b member => within b (by simp at member ⊢; tauto)
      · rw [List.dropWhile_cons, if_neg (by simpa using gone)]
        rw [stop_le base x buf there here] at gone
        intro c member
        obtain rfl | inside := List.mem_cons.mp member
        · exact Nat.lt_of_not_le gone
        · exact (Nat.lt_of_not_le gone).trans (apart c inside).2

section Placed

variable (before behind : List Buf) (divides : Divides base q buf before behind)

-- The queue once the segment is in its place and what it contains has gone.
def placedQueue (buf : Buf) (before behind : List Buf) : List Buf :=
  before.rdropWhile (fun b => decide (SEQLE (SEQ1ST buf) (SEQ1ST b)))
    ++ buf :: behind.dropWhile fun c => decide (SEQLE (SEQNXT c) (SEQNXT buf))

include divides

theorem placed_rising : Rising base (placedQueue buf before behind) := by
  have rising := rising
  unfold Rising at rising
  rw [divides.split] at rising within
  obtain ⟨front, back, across⟩ := List.pairwise_append.mp rising
  have ahead := kept_ahead base buf before front fun b member => within b (by simp at member ⊢; tauto)
  have later := kept_behind base buf behind back fun b member => within b (by simp at member ⊢; tauto)
  have isBefore := (List.rdropWhile_prefix (fun b => decide (SEQLE (SEQ1ST buf) (SEQ1ST b))) before).sublist
  have isBehind := (List.dropWhile_suffix (l := behind) (fun c => decide (SEQLE (SEQNXT c) (SEQNXT buf)))).sublist
  refine List.pairwise_append.mpr ⟨front.sublist isBefore, List.pairwise_cons.mpr ⟨fun c member => ?_, back.sublist isBehind⟩,
    fun b member c member' => ?_⟩
  · exact ⟨divides.later c (isBehind.subset member), later c member⟩
  · obtain rfl | inside := List.mem_cons.mp member'
    · exact ⟨ahead b member, divides.ahead b (isBefore.subset member)⟩
    · exact across b (isBefore.subset member) c (isBehind.subset inside)

omit rising in
-- What goes is contained in the segment.
theorem gone_contained (b : Buf) (member : b ∈ q.q) :
    b ∈ placedQueue buf before behind ∨ startAt base buf ≤ startAt base b ∧ stopAt base b ≤ stopAt base buf := by
  have here := within buf List.mem_cons_self
  have there := within b (List.mem_cons_of_mem buf member)
  rw [divides.split] at member
  unfold placedQueue
  obtain inside | inside := List.mem_append.mp member
  · have parts := List.rdropWhile_append_rtakeWhile (p := fun b => decide (SEQLE (SEQ1ST buf) (SEQ1ST b))) (l := before)
    rw [← parts] at inside
    obtain kept | gone := List.mem_append.mp inside
    · exact Or.inl (List.mem_append_left _ kept)
    · have overlaid := List.mem_rtakeWhile_imp gone
      have order := (start_le base buf b here there).mp (of_decide_eq_true overlaid)
      exact Or.inr ⟨order, (divides.ahead b ((List.rtakeWhile_suffix _ _).subset gone)).le⟩
  · have parts := List.takeWhile_append_dropWhile (p := fun c => decide (SEQLE (SEQNXT c) (SEQNXT buf))) (l := behind)
    rw [← parts] at inside
    obtain gone | kept := List.mem_append.mp inside
    · have ends := List.mem_takeWhile_imp gone
      have order := (stop_le base b buf there here).mp (of_decide_eq_true ends)
      exact Or.inr ⟨(divides.later b (List.takeWhile_sublist _ |>.subset gone)).le, order⟩
    · exact Or.inl (List.mem_append_right _ (List.mem_cons_of_mem buf kept))

omit rising within in
theorem kept_members (b : Buf) (member : b ∈ placedQueue buf before behind) : b = buf ∨ b ∈ q.q := by
  rw [divides.split]
  obtain kept | inside := List.mem_append.mp member
  · exact Or.inr (List.mem_append_left _ ((List.rdropWhile_prefix _ before).subset kept))
  · obtain rfl | kept := List.mem_cons.mp inside
    · exact Or.inl rfl
    · exact Or.inr (List.mem_append_right _ ((List.dropWhile_suffix _).subset kept))

omit rising in
theorem placed_covered : covered (placedQueue buf before behind) = covered q.q ∪ covered [buf] := by
  ext x
  constructor
  · rintro ⟨b, member, inside⟩
    obtain rfl | old := kept_members base q buf before behind divides b member
    · exact Or.inr ⟨b, List.mem_singleton.mpr rfl, inside⟩
    · exact Or.inl ⟨b, old, inside⟩
  · rintro (⟨b, member, inside⟩ | ⟨b, member, inside⟩)
    · obtain kept | ⟨start, stop⟩ := gone_contained base q buf within before behind divides b member
      · exact ⟨b, kept, inside⟩
      · rw [covers_iff base b (within b (List.mem_cons_of_mem buf member))] at inside
        refine ⟨buf, List.mem_append_right _ List.mem_cons_self, ?_⟩
        rw [covers_iff base buf (within buf List.mem_cons_self)]
        omega
    · obtain rfl := List.mem_singleton.mp member
      exact ⟨b, List.mem_append_right _ List.mem_cons_self, inside⟩

end Placed

-- A segment that has no place brings nothing new.
theorem unplaced_covered (nowhere : ¬ Fills q (SEQ1ST buf) (SEQNXT buf)) : covered [buf] ⊆ covered q.q := by
  rintro x ⟨b, member, inside⟩
  obtain rfl := List.mem_singleton.mp member
  have here := within b List.mem_cons_self
  have there : ∀ c ∈ q.q, Within base c := fun c member => within c (List.mem_cons_of_mem b member)
  unfold Fills at nowhere
  obtain ⟨notEmpty, notLonger, notEarlier, noHole⟩ : q.q ≠ [] ∧ (¬ ∃ last ∈ q.q.getLast?, SEQLT (SEQNXT last) (SEQNXT b))
      ∧ (¬ ∃ first ∈ q.q.head?, SEQLT (SEQ1ST b) (SEQ1ST first)) ∧ _ := by
    simpa only [not_or] using nowhere
  obtain ⟨first, rest, whole⟩ := List.exists_cons_of_ne_nil notEmpty
  by_contra uncovered
  rw [covers_iff base b here] at inside
  have early : startAt base first ≤ startAt base b := by
    by_contra less
    refine notEarlier ⟨first, by rw [whole]; rfl, ?_⟩
    rw [start_lt base b first here (there first (by simp [whole]))]
    omega
  have late : stopAt base b ≤ stopAt base (rest.getLastD first) := by
    by_contra more
    have inQueue : rest.getLastD first ∈ q.q := whole ▸ List.getLastD_mem_cons
    refine notLonger ⟨rest.getLastD first, by rw [whole, List.getLast?_cons, List.getLastD_eq_getLast?]; rfl, ?_⟩
    rw [stop_lt base _ b (there _ inQueue) here]
    omega
  obtain ⟨front, p, d, back, split, stop, start⟩ := hole_at base (x - base).toNat rest first (by omega) (by omega)
    fun c member both => uncovered ⟨c, whole ▸ member, (covers_iff base c (there c (whole ▸ member)) x).mpr both⟩
  have atP := there p (by simp [whole, split])
  have atD := there d (by simp [whole, split])
  have order := first_starts base q rising front (d :: back) p (whole.trans split) d List.mem_cons_self
  refine noHole ⟨front, p, d, back, whole.trans split, ?_, ?_, ?_⟩
  · rw [gap_lt base p d atP atD order]
    omega
  · rw [start_lt base b d here atD]
    omega
  · rw [stop_lt base p b atP here]
    omega

end Add

theorem add_ascends (q : Dataq) (buf : Buf) (real : buf.th.urgptr ≠ 0) (rising : Rising base q.q)
    (within : ∀ b ∈ buf :: q.q, Within base b) :
    Rising base (tcpAddseg q buf).q.q ∧ covered (tcpAddseg q buf).q.q = covered q.q ∪ covered [buf]
      ∧ (∀ b ∈ (tcpAddseg q buf).q.q, Within base b)
      ∧ ((tcpAddseg q buf).taken = false → covered [buf] ⊆ covered q.q) := by
  have within' : ∀ b ∈ buf.mark false :: q.q, Within base b := by
    intro b member
    obtain rfl | old := List.mem_cons.mp member
    · have here := within buf List.mem_cons_self
      exact ⟨here.start, here.real, here.stop⟩
    · exact within b (List.mem_cons_of_mem buf old)
  have marked : covered [buf.mark false] = covered [buf] := by
    ext x
    simp only [covered, List.mem_singleton, exists_eq_left]
    rfl
  cases found : placeFor q (buf.mark false) with
  | none =>
      have nowhere : ¬ Fills q (SEQ1ST (buf.mark false)) (SEQNXT (buf.mark false)) := fun fills =>
        (place_for_iff q (buf.mark false)).mpr fills found
      have inside := unplaced_covered base q (buf.mark false) rising within' nowhere
      rw [marked] at inside
      rw [tcpAddseg, if_neg real, found]
      exact ⟨rising, (Set.union_eq_self_of_subset_right inside).symm, fun b member => within b (List.mem_cons_of_mem buf member),
        fun _ => inside⟩
  | some place =>
      obtain ⟨before, behind, cur⟩ := place
      have divides := place_divides base q (buf.mark false) rising within' before behind cur found
      rw [tcpAddseg, if_neg real, found]
      refine ⟨placed_rising base q (buf.mark false) rising within' before behind divides, ?_, fun b member => ?_, fun untaken => ?_⟩
      · rw [← marked]
        exact placed_covered base q (buf.mark false) within' before behind divides
      · obtain rfl | old := kept_members base q (buf.mark false) before behind divides b member
        · exact within' _ List.mem_cons_self
        · exact within' b (List.mem_cons_of_mem _ old)
      · cases untaken

theorem rising_apart (bufs : List Buf) (rising : Rising base bufs) (within : ∀ b ∈ bufs, Within base b) :
    bufs.Pairwise fun b c => ¬ Contained b c ∧ ¬ Contained c b := by
  refine rising.imp_of_mem fun {b c} inside inside' order => ?_
  have here := within b inside
  have there := within c inside'
  unfold Contained
  rw [start_le base c b there here, start_le base b c here there, stop_le base b c here there, stop_le base c b there here]
  omega

end Offsets

-- On every queue in order, within reach of the numbers' comparisons, tcp_addseg ends; the queue is in order again and holds the
-- old numbers and the new ones; and only what was there is called a duplicate.
theorem addseg_queue (base : Seq) (q : Segq) (l : List Nat) (b : Nat) (linked : Linked q l) (fresh : b ∉ l) (notNull : b ≠ 0)
    (real : (q.buf b).th.urgptr ≠ 0) (within : ∀ c ∈ b :: l, Within base (q.buf c)) (ascending : Ascending (l.map q.buf))
    (fuel : Nat) (enough : l.length < fuel) :
    ∃ r q' l' gone, addseg fuel q b = some (r, q') ∧ Linked q' l' ∧ Ascending (l'.map q'.buf)
      ∧ (l'.map q'.buf).Pairwise (fun c d => ¬ Contained c d ∧ ¬ Contained d c)
      ∧ covered (l'.map q'.buf) = covered (l.map q.buf) ∪ covered [q.buf b]
      ∧ q'.freed = q.freed ++ gone ∧ (l' ++ gone).Perm (b :: l)
      ∧ (r = 0 ∨ r = -1 ∧ covered [q.buf b] ⊆ covered (l.map q.buf)) := by
  obtain ⟨r, q', l', gone, run, adds⟩ := addseg_adds q l b fresh linked notNull fuel enough
  have list : l'.map q'.buf = (tcpAddseg (q.list l) (q.buf b)).q.q := congrArg Dataq.q adds.list
  have within' : ∀ c ∈ q.buf b :: (q.list l).q, Within base c := by
    intro c member
    obtain rfl | old := List.mem_cons.mp member
    · exact within b List.mem_cons_self
    · obtain ⟨d, inside, rfl⟩ := List.mem_map.mp old
      exact within d (List.mem_cons_of_mem b inside)
  have rising := (rising_iff base _ fun c member => within' c (List.mem_cons_of_mem _ member)).mp ascending
  obtain ⟨rising', coverage, inside, duplicate⟩ := add_ascends base (q.list l) (q.buf b) real rising within'
  rw [← list] at rising' coverage inside
  refine ⟨r, q', l', gone, run, adds.linked, (rising_iff base _ inside).mpr rising', rising_apart base _ rising' inside, coverage,
    adds.freed, adds.whole, ?_⟩
  cases taken : (tcpAddseg (q.list l) (q.buf b)).taken with
  | true => exact Or.inl (by rw [adds.result, taken]; rfl)
  | false => exact Or.inr ⟨by rw [adds.result, taken]; rfl, duplicate taken⟩

-- Two segments with a hole between them, and one that fills it.
def segOf (seq : Seq) (length : BitVec 16) : Buf := ⟨0, 0, ⟨0, 0, seq, 0, 5, false, Flags.none, 0, 0, length, []⟩⟩

def twoSegs : Segq where
  next c := if c = 1 then 2 else 0
  prev c := if c = 2 then 1 else 0
  buf c := if c = 1 then segOf 0xfffffff0 10 else if c = 2 then segOf 20 10 else segOf 0xfffffff8 40
  qfirst := 1
  qlast := 2
  maxdatalen := 0
  curdatalen := 46
  freed := []

theorem two_linked : Linked twoSegs [1, 2] :=
  ⟨⟨by unfold Links.Path; decide, by unfold Links.Path; decide, by decide, by decide⟩, rfl, rfl⟩

theorem addseg_queue_two : ∃ r q' l' gone, addseg 3 twoSegs 3 = some (r, q') ∧ Linked q' l' ∧ Ascending (l'.map q'.buf)
    ∧ (l'.map q'.buf).Pairwise (fun c d => ¬ Contained c d ∧ ¬ Contained d c)
    ∧ covered (l'.map q'.buf) = covered [segOf 0xfffffff0 10, segOf 20 10] ∪ covered [segOf 0xfffffff8 40]
    ∧ q'.freed = [] ++ gone ∧ (l' ++ gone).Perm [3, 1, 2]
    ∧ (r = 0 ∨ r = -1 ∧ covered [segOf 0xfffffff8 40] ⊆ covered [segOf 0xfffffff0 10, segOf 20 10]) :=
  addseg_queue 0xfffffff0 twoSegs [1, 2] 3 two_linked (by decide) (by decide) (by decide)
    (fun c member => by
      obtain rfl | rfl | rfl := by simpa using member
      all_goals exact ⟨by decide, by decide, by decide⟩)
    (by unfold Ascending; decide) 3 (by decide)

end MagxNet.Tcp
