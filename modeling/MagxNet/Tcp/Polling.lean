import MagxNet.Tcp.Gate
import MagxNet.Tcp.Run

set_option autoImplicit false

namespace MagxNet.Tcp

open Bytes

-- Where tcp_canread starts to count. Inline, nothing is skipped but what lies behind the pointer.
def pollSeg (w : World) : List Buf × Seq :=
  let behind := w.data.rcv.q.dropWhile fun b => decide (SEQLE (SEQNXT b) w.tcb.seqRead)
  if w.data.oobinline then (behind, w.tcb.seqRead) else skipUnfit false false behind w.tcb.seqRead

def pollUread (w : World) (urg : Bool) (b : Buf) (readnxt : Seq) : Seq :=
  if urg ∧ w.data.oobinline ∧ SEQLT readnxt w.tcb.seqUread ∧ SEQLT w.tcb.seqUread (SEQNXT b) then w.tcb.seqUread else readnxt

def countLoop (w : World) (urg : Bool) : List Buf → Seq → Int
  | [], _ => 0
  | b :: rest, readnxt =>
      if b.th.flags.urg ≠ urg ∨ SEQLT readnxt (SEQ1ST b) then 0
      else if b.th.freeme then countLoop w urg rest (SEQNXT b)
      else
        let readnxt := pollUread w urg b readnxt
        let cando := DATLEN b - (readnxt - SEQ1ST b).toInt
        cando + countLoop w urg rest (readnxt + BitVec.ofInt 32 cando)

def tcpCanread (w : World) : Int :=
  if w.tcb.state = .listen then 0
  else match pollSeg w with
    | ([], _) => 0
    | (b :: rest, readnxt) => if SEQGT (SEQ1ST b) readnxt then 0 else countLoop w b.th.flags.urg (b :: rest) readnxt

-- The order that the comment over tcp_addseg gives a queue, the lengths that it holds, and the data behind the headers.
structure InOrder (q : List Buf) : Prop where
  ends : q.IsChain fun b next => SEQGT (SEQNXT next) (SEQNXT b)
  holds : ∀ b ∈ q, 0 < DATLEN b ∧ DATLEN b ≤ (tcpData b.th).length

-- The pointer is inside the segment.
def Inside (readnxt : Seq) (b : Buf) : Prop := 0 ≤ (readnxt - SEQ1ST b).toInt ∧ (readnxt - SEQ1ST b).toInt < DATLEN b

theorem seqnxt_sub (b : Buf) (readnxt : Seq) :
    SEQNXT b - readnxt = BitVec.ofNat 32 (DATLEN b) - (readnxt - SEQ1ST b) := by
  unfold SEQNXT SEQ1ST DATLEN
  have length : BitVec.ofNat 32 b.th.urgptr.toNat = b.th.urgptr.setWidth 32 := by simp
  rw [length]
  generalize BitVec.setWidth 32 b.th.urgptr = len
  bv_omega

theorem inside_of_start (b : Buf) (readnxt : Seq) (ahead : SEQGT (SEQNXT b) readnxt) (start : ¬ SEQLT readnxt (SEQ1ST b)) :
    Inside readnxt b := by
  have length : DATLEN b < 2 ^ 16 := b.th.urgptr.isLt
  unfold SEQGT SEQLE Serial.le at ahead
  unfold SEQLT Serial.lt at start
  rw [seqnxt_sub] at ahead
  unfold Inside
  generalize readnxt - SEQ1ST b = x at ahead start ⊢
  have bound := x.isLt
  rw [BitVec.toInt_eq_toNat_cond] at ahead start ⊢
  rw [BitVec.toNat_sub, BitVec.toNat_ofNat] at ahead
  omega

theorem inside_of_reach (b : Buf) (readnxt : Seq) (ahead : SEQGT (SEQNXT b) readnxt) (reach : SEQLE (SEQ1ST b) readnxt) :
    Inside readnxt b := by
  have length : DATLEN b < 2 ^ 16 := b.th.urgptr.isLt
  unfold SEQGT SEQLE Serial.le at ahead
  unfold SEQLE Serial.le at reach
  rw [seqnxt_sub] at ahead
  have turned : SEQ1ST b - readnxt = - (readnxt - SEQ1ST b) := by bv_omega
  rw [turned] at reach
  unfold Inside
  generalize readnxt - SEQ1ST b = x at ahead reach ⊢
  have bound := x.isLt
  rw [BitVec.toInt_eq_toNat_cond] at ahead reach ⊢
  rw [BitVec.toNat_sub, BitVec.toNat_ofNat] at ahead
  rw [BitVec.toNat_neg] at reach
  omega

theorem poll_inside (w : World) (urg : Bool) (b : Buf) (readnxt : Seq) (inside : Inside readnxt b) :
    Inside (pollUread w urg b readnxt) b := by
  have length : DATLEN b < 2 ^ 16 := b.th.urgptr.isLt
  unfold pollUread
  split
  · rename_i skips
    obtain ⟨-, -, after, before⟩ := skips
    have first : readnxt - w.tcb.seqUread = (readnxt - SEQ1ST b) - (w.tcb.seqUread - SEQ1ST b) := by bv_omega
    have second : w.tcb.seqUread - SEQNXT b = (w.tcb.seqUread - SEQ1ST b) - BitVec.ofNat 32 (DATLEN b) := by
      have turned := seqnxt_sub b w.tcb.seqUread
      bv_omega
    unfold SEQLT Serial.lt at after before
    rw [first] at after
    rw [second] at before
    unfold Inside at inside ⊢
    generalize readnxt - SEQ1ST b = x at after inside
    generalize w.tcb.seqUread - SEQ1ST b = y at after before ⊢
    have boundX := x.isLt
    have boundY := y.isLt
    rw [BitVec.toInt_eq_toNat_cond] at after before ⊢
    simp only [BitVec.toInt_eq_toNat_cond] at inside
    rw [BitVec.toNat_sub] at after before
    rw [BitVec.toNat_ofNat] at before
    omega
  · exact inside

-- What is left of the segment takes the pointer to its end.
theorem inside_end (b : Buf) (readnxt : Seq) : readnxt + BitVec.ofInt 32 (DATLEN b - (readnxt - SEQ1ST b).toInt) = SEQNXT b := by
  have turned := seqnxt_sub b readnxt
  rw [Int.sub_eq_add_neg, BitVec.ofInt_add, BitVec.ofInt_neg, BitVec.ofInt_toInt]
  have length : BitVec.ofInt 32 (DATLEN b : Int) = BitVec.ofNat 32 (DATLEN b) := by simp
  rw [length]
  bv_omega

def total (q : List Buf) : Nat := (q.map DATLEN).sum

theorem total_cons (b : Buf) (rest : List Buf) : total (b :: rest) = DATLEN b + total rest := by
  simp [total]

theorem in_order_tail (b : Buf) (rest : List Buf) (order : InOrder (b :: rest)) : InOrder rest :=
  ⟨order.ends.tail, fun c member => order.holds c (List.mem_cons_of_mem b member)⟩

theorem in_order_next (b next : Buf) (rest : List Buf) (order : InOrder (b :: next :: rest)) : SEQGT (SEQNXT next) (SEQNXT b) :=
  (List.isChain_cons_cons.mp order.ends).1

-- The pointer has not reached the end of the first segment.
def Ahead (q : List Buf) (readnxt : Seq) : Prop := ∀ b ∈ q.head?, SEQGT (SEQNXT b) readnxt

theorem ahead_next (b : Buf) (rest : List Buf) (order : InOrder (b :: rest)) : Ahead rest (SEQNXT b) := by
  cases rest with
  | nil =>
      intro next first
      cases first
  | cons next rest =>
      intro c first
      cases first
      exact in_order_next b next rest order

section Loops

variable (w : World) (urg : Bool)

theorem count_cons (b : Buf) (rest : List Buf) (readnxt : Seq) (same : b.th.flags.urg = urg) (reach : ¬ SEQLT readnxt (SEQ1ST b))
    (unread : b.th.freeme = false) :
    countLoop w urg (b :: rest) readnxt =
      DATLEN b - (pollUread w urg b readnxt - SEQ1ST b).toInt + countLoop w urg rest (SEQNXT b) := by
  rw [countLoop, if_neg (by simp [same, reach]), if_neg (by simp [unread])]
  dsimp only
  rw [inside_end]

theorem count_nonneg (bufs : List Buf) : ∀ readnxt, InOrder bufs → Ahead bufs readnxt → 0 ≤ countLoop w urg bufs readnxt := by
  induction bufs with
  | nil => exact fun _ _ _ => le_refl 0
  | cons b rest ih =>
      intro readnxt order ahead
      have later := ih (SEQNXT b) (in_order_tail b rest order) (ahead_next b rest order)
      by_cases stops : b.th.flags.urg ≠ urg ∨ SEQLT readnxt (SEQ1ST b)
      · rw [countLoop, if_pos stops]
      · obtain ⟨same, reach⟩ := not_or.mp stops
        cases read : b.th.freeme with
        | true =>
            rw [countLoop, if_neg stops, if_pos read]
            exact later
        | false =>
            rw [count_cons w urg b rest readnxt (not_not.mp same) reach read]
            have inside := poll_inside w urg b readnxt (inside_of_start b readnxt (ahead b rfl) reach)
            unfold Inside at inside
            omega

theorem skip_poll (args : RecvArgs) (plain : args.oob = false) (b : Buf) (readnxt : Seq) :
    skipUread w args urg b readnxt = pollUread w urg b readnxt := by
  unfold skipUread pollUread
  rw [plain]
  by_cases inline : w.data.oobinline = true <;> by_cases urgent : urg = true <;> simp [inline, urgent]

-- With room for everything tcp_recv copies what tcp_canread counts.
theorem copy_count (args : RecvArgs) (plain : args.oob = false) (bufs : List Buf) : ∀ (room : Int) (readnxt : Seq),
    InOrder bufs → Ahead bufs readnxt → total bufs < room →
    ((copyLoop w args urg bufs room readnxt).bytes.length : Int) = countLoop w urg bufs readnxt := by
  induction bufs with
  | nil => exact fun _ _ _ _ _ => rfl
  | cons b rest ih =>
      intro room readnxt order ahead enough
      rw [total_cons] at enough
      have space : ¬ room ≤ 0 := by omega
      have tail := in_order_tail b rest order
      have next := ahead_next b rest order
      by_cases stops : b.th.flags.urg ≠ urg ∨ SEQLT readnxt (SEQ1ST b)
      · rw [countLoop, if_pos stops, copyLoop, if_pos (Or.inr stops)]
        rfl
      · obtain ⟨same, reach⟩ := not_or.mp stops
        have goes : ¬ (room ≤ 0 ∨ b.th.flags.urg ≠ urg ∨ SEQLT readnxt (SEQ1ST b)) := fun ends => ends.elim space stops
        rw [copyLoop, if_neg goes]
        cases read : b.th.freeme with
        | true =>
            rw [countLoop, if_neg stops, if_pos read]
            exact ih room (SEQNXT b) tail next (by omega)
        | false =>
            have inside := poll_inside w urg b readnxt (inside_of_start b readnxt (ahead b rfl) reach)
            have held := (order.holds b List.mem_cons_self).2
            rw [count_cons w urg b rest readnxt (not_not.mp same) reach read]
            dsimp only
            rw [if_neg Bool.false_ne_true, skip_poll w urg args plain]
            generalize pollUread w urg b readnxt = readnxt' at inside ⊢
            have rest' := inside_end b readnxt'
            unfold Inside at inside
            generalize (readnxt' - SEQ1ST b).toInt = offset at inside rest' ⊢
            have whole : min room (DATLEN b - offset) = DATLEN b - offset := min_eq_right (by omega)
            have later := ih (room - (DATLEN b - offset)) (SEQNXT b) tail next (by omega)
            rw [whole, rest', List.length_append, List.length_take, List.length_drop, Int.natCast_add, later]
            omega

end Loops

theorem skip_suffix (oobinline urg : Bool) (bufs : List Buf) : ∀ readnxt, (skipUnfit oobinline urg bufs readnxt).1 <:+ bufs := by
  induction bufs with
  | nil => exact fun _ => List.suffix_rfl
  | cons b rest ih =>
      intro readnxt
      rw [skipUnfit]
      split
      · exact (ih (SEQNXT b)).trans (List.suffix_cons b rest)
      · exact List.suffix_rfl

theorem skip_ahead (oobinline urg : Bool) (bufs : List Buf) : ∀ readnxt, InOrder bufs → Ahead bufs readnxt →
    Ahead (skipUnfit oobinline urg bufs readnxt).1 (skipUnfit oobinline urg bufs readnxt).2 := by
  induction bufs with
  | nil => exact fun _ _ ahead => ahead
  | cons b rest ih =>
      intro readnxt order ahead
      rw [skipUnfit]
      split
      · exact ih (SEQNXT b) (in_order_tail b rest order) (ahead_next b rest order)
      · exact ahead

-- What the search stops at can be read, if the pointer has reached it.
theorem skip_head (oobinline urg : Bool) (bufs : List Buf) : ∀ readnxt, ∀ b ∈ (skipUnfit oobinline urg bufs readnxt).1.head?,
    SEQLE (SEQ1ST b) (skipUnfit oobinline urg bufs readnxt).2 → unfit oobinline urg b = false := by
  induction bufs with
  | nil =>
      intro readnxt b first
      cases first
  | cons c rest ih =>
      intro readnxt b first reach
      rw [skipUnfit] at first reach
      split at first
      · rename_i skips
        rw [if_pos skips] at reach
        exact ih (SEQNXT c) b first reach
      · rename_i stays
        rw [if_neg stays] at reach
        cases first
        by_contra unfit'
        exact stays ⟨Bool.not_eq_false _ ▸ unfit', reach⟩

theorem in_order_suffix (q bufs : List Buf) (suffix : bufs <:+ q) (order : InOrder q) : InOrder bufs := by
  obtain ⟨front, rfl⟩ := suffix
  exact ⟨(List.isChain_append.mp order.ends).2.1, fun b member => order.holds b (List.mem_append_right front member)⟩

theorem total_suffix (q bufs : List Buf) (suffix : bufs <:+ q) : total bufs ≤ total q := by
  obtain ⟨front, rfl⟩ := suffix
  simp [total]

-- The segments at the pointer that the reader is done with.
def alreadyRead : List Buf → Seq → List Buf
  | [], _ => []
  | b :: rest, readnxt => if b.th.freeme ∧ SEQLE (SEQ1ST b) readnxt then b :: alreadyRead rest (SEQNXT b) else []

def behindRead (w : World) : List Buf := w.data.rcv.q.dropWhile fun b => decide (SEQLE (SEQNXT b) w.tcb.seqRead)

theorem behind_ahead (w : World) : Ahead (behindRead w) w.tcb.seqRead := by
  intro b first behind
  have kept := List.head?_dropWhile_not (fun b => decide (SEQLE (SEQNXT b) w.tcb.seqRead)) w.data.rcv.q
  unfold behindRead at first
  rw [show (List.dropWhile (fun b => decide (SEQLE (SEQNXT b) w.tcb.seqRead)) w.data.rcv.q).head? = some b from first] at kept
  simp [behind] at kept

theorem behind_suffix (w : World) : behindRead w <:+ w.data.rcv.q := List.dropWhile_suffix _

section Search

variable (w : World) (urg : Bool)

-- Inline, the count goes through the segments already read, as long as they are of the kind it began with.
theorem count_read (bufs : List Buf) : ∀ readnxt, InOrder bufs → Ahead bufs readnxt →
    countLoop w urg bufs readnxt = if ∀ b ∈ alreadyRead bufs readnxt, b.th.flags.urg = urg then
      countLoop w urg (skipUnfit true false bufs readnxt).1 (skipUnfit true false bufs readnxt).2 else 0 := by
  induction bufs with
  | nil =>
      intro readnxt _ _
      rfl
  | cons b rest ih =>
      intro readnxt order ahead
      by_cases read : b.th.freeme ∧ SEQLE (SEQ1ST b) readnxt
      · have skips : unfit true false b = true ∧ SEQLE (SEQ1ST b) readnxt := ⟨by simp [unfit, read.1], read.2⟩
        have inside := inside_of_reach b readnxt (ahead b rfl) read.2
        have reach : ¬ SEQLT readnxt (SEQ1ST b) := not_lt.mpr inside.1
        rw [alreadyRead, if_pos read, skipUnfit, if_pos skips]
        by_cases same : b.th.flags.urg = urg
        · rw [countLoop, if_neg (by simp [same, reach]), if_pos read.1,
            ih (SEQNXT b) (in_order_tail b rest order) (ahead_next b rest order)]
          simp [same]
        · rw [countLoop, if_pos (Or.inl same), if_neg (fun all => same (all b List.mem_cons_self))]
      · have stays : ¬ (unfit true false b = true ∧ SEQLE (SEQ1ST b) readnxt) := by simpa [unfit] using read
        rw [alreadyRead, if_neg read, skipUnfit, if_neg stays, if_pos (fun _ member => by cases member)]

theorem count_gap (b : Buf) (rest : List Buf) (readnxt : Seq) (gap : ¬ SEQLE (SEQ1ST b) readnxt) :
    countLoop w urg (b :: rest) readnxt = 0 := by
  have before : SEQLT readnxt (SEQ1ST b) := by
    have turned : readnxt - SEQ1ST b = - (SEQ1ST b - readnxt) := by bv_omega
    unfold SEQLE Serial.le at gap
    unfold SEQLT Serial.lt
    rw [turned]
    generalize SEQ1ST b - readnxt = x at gap
    have bound := x.isLt
    rw [BitVec.toInt_eq_toNat_cond] at gap ⊢
    rw [BitVec.toNat_neg]
    omega
  rw [countLoop, if_pos (Or.inr before)]

theorem count_pos (b : Buf) (rest : List Buf) (readnxt : Seq) (order : InOrder (b :: rest)) (ahead : Ahead (b :: rest) readnxt)
    (reach : SEQLE (SEQ1ST b) readnxt) (unread : b.th.freeme = false) :
    0 < countLoop w b.th.flags.urg (b :: rest) readnxt := by
  have inside := inside_of_reach b readnxt (ahead b rfl) reach
  have later := count_nonneg w b.th.flags.urg rest (SEQNXT b) (in_order_tail b rest order) (ahead_next b rest order)
  rw [count_cons w _ b rest readnxt rfl (not_lt.mpr inside.1) unread]
  have polled := poll_inside w b.th.flags.urg b readnxt inside
  unfold Inside at polled
  omega

end Search

def countFound (w : World) : List Buf × Seq → Int
  | ([], _) => 0
  | (b :: rest, readnxt) => countLoop w b.th.flags.urg (b :: rest) readnxt

-- What the search of tcp_recv finds: readable, or nothing.
structure Found (w : World) (bufs : List Buf) (readnxt : Seq) : Prop where
  suffix : bufs <:+ w.data.rcv.q
  ahead : Ahead bufs readnxt
  reached : ∀ b ∈ bufs.head?, SEQLE (SEQ1ST b) readnxt ∧ b.th.freeme = false

def reached (found : List Buf × Seq) : List Buf × Seq :=
  match found.1 with
  | [] => ([], found.2)
  | b :: rest => if SEQLE (SEQ1ST b) found.2 then (b :: rest, found.2) else ([], found.2)

theorem seek_reached (w : World) :
    seekSeg w false = reached (skipUnfit w.data.oobinline false (behindRead w) w.tcb.seqRead) := rfl

theorem count_other (w : World) (urg : Bool) (b : Buf) (rest : List Buf) (readnxt : Seq) (other : b.th.flags.urg ≠ urg) :
    countLoop w urg (b :: rest) readnxt = 0 := by
  rw [countLoop, if_pos (Or.inl other)]

theorem reached_head (f : Buf) (fs : List Buf) (readnxt : Seq) (reach : SEQLE (SEQ1ST f) readnxt) :
    reached (f :: fs, readnxt) = (f :: fs, readnxt) := if_pos reach

theorem reached_gap (f : Buf) (fs : List Buf) (readnxt : Seq) (gap : ¬ SEQLE (SEQ1ST f) readnxt) :
    reached (f :: fs, readnxt) = ([], readnxt) := if_neg gap

-- Some of the segments already read are of another kind than the one to read.
def OtherKind (run : List Buf) (found : List Buf × Seq) : Prop :=
  ∃ f ∈ found.1.head?, ∃ c ∈ run, c.th.flags.urg ≠ f.th.flags.urg

theorem other_kind_nil (run : List Buf) (readnxt : Seq) : ¬ OtherKind run ([], readnxt) := by
  rintro ⟨f, here, -⟩
  cases here

theorem count_kinds (w : World) (b : Buf) (rest : List Buf) (start : Seq) (reach : SEQLE (SEQ1ST b) start) (counted : Int)
    (count : counted = if ∀ c ∈ alreadyRead (b :: rest) start, c.th.flags.urg = b.th.flags.urg then
      countLoop w b.th.flags.urg (skipUnfit true false (b :: rest) start).1 (skipUnfit true false (b :: rest) start).2 else 0) :
    (OtherKind (alreadyRead (b :: rest) start) (reached (skipUnfit true false (b :: rest) start)) → counted = 0)
      ∧ (¬ OtherKind (alreadyRead (b :: rest) start) (reached (skipUnfit true false (b :: rest) start)) →
        counted = countFound w (reached (skipUnfit true false (b :: rest) start))) := by
  have first : b ∈ alreadyRead (b :: rest) start ∨
      alreadyRead (b :: rest) start = [] ∧ skipUnfit true false (b :: rest) start = (b :: rest, start) := by
    rw [alreadyRead, skipUnfit]
    by_cases read : b.th.freeme = true
    · rw [if_pos ⟨read, reach⟩]
      exact Or.inl List.mem_cons_self
    · rw [if_neg fun both => read both.1, if_neg (by simp [unfit, read])]
      exact Or.inr ⟨rfl, rfl⟩
  generalize alreadyRead (b :: rest) start = run at first count ⊢
  generalize skipUnfit true false (b :: rest) start = found at first count ⊢
  obtain ⟨bufs, readnxt⟩ := found
  dsimp only at count
  cases bufs with
  | nil =>
      refine ⟨fun other => (other_kind_nil run readnxt other).elim, fun _ => ?_⟩
      rw [count]
      exact ite_self _
  | cons f fs =>
      by_cases gap : SEQLE (SEQ1ST f) readnxt
      · rw [reached_head f fs readnxt gap]
        constructor
        · rintro ⟨g, here, c, inside, other⟩
          cases here
          rw [count]
          split
          · rename_i same
            rw [same c inside] at other
            exact count_other w _ f fs readnxt other.symm
          · rfl
        · intro alike
          have same : ∀ c ∈ run, c.th.flags.urg = f.th.flags.urg := by
            intro c inside
            by_contra other
            exact alike ⟨f, rfl, c, inside, other⟩
          have kind : b.th.flags.urg = f.th.flags.urg := by
            obtain inside | ⟨-, stays⟩ := first
            · exact same b inside
            · cases stays
              rfl
          rw [count, kind, if_pos same]
          rfl
      · rw [reached_gap f fs readnxt gap]
        refine ⟨fun other => (other_kind_nil run readnxt other).elim, fun _ => ?_⟩
        rw [count, count_gap w _ f fs readnxt gap]
        exact ite_self _

-- Inline, some of the segments already read are urgent and what can be read is not, or the other way round.
def Mixed (w : World) : Prop := w.data.oobinline ∧ OtherKind (alreadyRead (behindRead w) w.tcb.seqRead) (seekSeg w false)

section Agreement

variable (w : World) (order : InOrder w.data.rcv.q)

include order in
theorem seek_found : Found w (seekSeg w false).1 (seekSeg w false).2 := by
  have suffix := (skip_suffix w.data.oobinline false (behindRead w) w.tcb.seqRead).trans (behind_suffix w)
  have ahead := skip_ahead w.data.oobinline false (behindRead w) w.tcb.seqRead
    (in_order_suffix _ _ (behind_suffix w) order) (behind_ahead w)
  have head := skip_head w.data.oobinline false (behindRead w) w.tcb.seqRead
  rw [seek_reached]
  generalize skipUnfit w.data.oobinline false (behindRead w) w.tcb.seqRead = found at suffix ahead head ⊢
  obtain ⟨bufs, readnxt⟩ := found
  have nothing : Found w [] readnxt := ⟨List.nil_suffix, (fun b first => by cases first), (fun b first => by cases first)⟩
  cases bufs with
  | nil => exact nothing
  | cons b rest =>
      unfold reached
      dsimp only at suffix ahead head ⊢
      split
      · rename_i reach
        refine ⟨suffix, ahead, fun c first => ?_⟩
        cases first
        have fits := head b rfl reach
        unfold unfit at fits
        exact ⟨reach, (Bool.or_eq_false_iff.mp fits).1⟩
      · exact nothing

include order in
theorem found_positive : 0 < countFound w (seekSeg w false) ↔ (seekSeg w false).1 ≠ [] := by
  have found := seek_found w order
  generalize seekSeg w false = seek at found ⊢
  obtain ⟨bufs, readnxt⟩ := seek
  cases bufs with
  | nil => simp [countFound]
  | cons b rest =>
      obtain ⟨reach, unread⟩ := found.reached b rfl
      have positive := count_pos w b rest readnxt (in_order_suffix _ _ found.suffix order) found.ahead reach unread
      exact ⟨fun _ => List.cons_ne_nil b rest, fun _ => positive⟩

theorem canread_count (talks : w.tcb.state ≠ .listen) :
    tcpCanread w = match pollSeg w with
      | ([], _) => 0
      | (b :: rest, readnxt) => if SEQGT (SEQ1ST b) readnxt then 0 else countLoop w b.th.flags.urg (b :: rest) readnxt :=
  if_neg talks

-- Not inline, both searches are the same.
theorem canread_apart (talks : w.tcb.state ≠ .listen) (apart : w.data.oobinline = false) :
    tcpCanread w = countFound w (seekSeg w false) := by
  have poll : pollSeg w = skipUnfit w.data.oobinline false (behindRead w) w.tcb.seqRead := by
    unfold pollSeg
    rw [apart]
    rfl
  rw [canread_count w talks, poll, seek_reached]
  generalize skipUnfit w.data.oobinline false (behindRead w) w.tcb.seqRead = found
  obtain ⟨bufs, readnxt⟩ := found
  cases bufs with
  | nil => rfl
  | cons b rest =>
      unfold reached
      dsimp only
      by_cases reach : SEQLE (SEQ1ST b) readnxt
      · rw [if_pos reach, if_neg (not_not.mpr reach)]
        rfl
      · rw [if_neg reach, if_pos reach]
        rfl

include order in
-- Inline, the count begins at the first segment behind the pointer, whether it is already read or not.
theorem canread_inline (talks : w.tcb.state ≠ .listen) (inline : w.data.oobinline = true) :
    (OtherKind (alreadyRead (behindRead w) w.tcb.seqRead) (seekSeg w false) → tcpCanread w = 0)
      ∧ (¬ OtherKind (alreadyRead (behindRead w) w.tcb.seqRead) (seekSeg w false) →
        tcpCanread w = countFound w (seekSeg w false)) := by
  have poll : pollSeg w = (behindRead w, w.tcb.seqRead) := by
    unfold pollSeg
    rw [inline]
    rfl
  have behind := in_order_suffix _ _ (behind_suffix w) order
  have ahead := behind_ahead w
  rw [canread_count w talks, poll, seek_reached, inline]
  generalize behindRead w = l at behind ahead ⊢
  generalize w.tcb.seqRead = start at ahead ⊢
  cases l with
  | nil => exact ⟨fun _ => rfl, fun _ => rfl⟩
  | cons b rest =>
      dsimp only
      by_cases reach : SEQLE (SEQ1ST b) start
      · rw [if_neg (not_not.mpr reach)]
        exact count_kinds w b rest start reach _ (count_read w b.th.flags.urg (b :: rest) start behind ahead)
      · have stays : skipUnfit true false (b :: rest) start = (b :: rest, start) := by
          rw [skipUnfit, if_neg fun both => reach both.2]
        rw [if_pos reach, stays, reached_gap b rest start reach]
        exact ⟨fun _ => rfl, fun _ => rfl⟩

include order in
theorem canread_mixed (talks : w.tcb.state ≠ .listen) (mixed : Mixed w) : tcpCanread w = 0 :=
  (canread_inline w order talks mixed.1).1 mixed.2

include order in
theorem canread_found (talks : w.tcb.state ≠ .listen) (alike : ¬ Mixed w) : tcpCanread w = countFound w (seekSeg w false) := by
  by_cases inline : w.data.oobinline = true
  · exact (canread_inline w order talks inline).2 fun other => alike ⟨inline, other⟩
  · exact canread_apart w talks (Bool.eq_false_iff.mpr inline)

-- How many bytes a call brings.
def received : RecvResult → Nat
  | .data bytes => bytes.length
  | .eof => 0
  | .fail _ => 0
  | .wait => 0

include order in
theorem recv_count (env : Env) (size : Nat) (peek : Bool) (unlimited : total w.data.rcv.q < size)
    (open' : TcbState.synsent.num < w.tcb.state.num) :
    (received (tcpRecv env w ⟨size, false, peek, true⟩).1 : Int) = countFound w (seekSeg w false) := by
  have found := seek_found w order
  unfold tcpRecv
  rw [if_neg (show ¬ size = 0 by omega), if_neg (show ¬ w.tcb.state.num ≤ TcbState.synsent.num by omega)]
  unfold recvRound
  dsimp only
  generalize seekSeg w false = seek at found ⊢
  obtain ⟨bufs, readnxt⟩ := seek
  cases bufs with
  | nil =>
      dsimp only
      split <;> rfl
  | cons b rest =>
      have enough : ((total (b :: rest) : Nat) : Int) < size := by
        have less := total_suffix _ _ found.suffix
        dsimp only at less
        omega
      exact copy_count w b.th.flags.urg ⟨size, false, peek, true⟩ rfl (b :: rest) size readnxt
        (in_order_suffix _ _ found.suffix order) found.ahead enough

theorem recv_refused (env : Env) (size : Nat) (peek : Bool) (unlimited : total w.data.rcv.q < size)
    (shut : w.tcb.state.num ≤ TcbState.synsent.num) : received (tcpRecv env w ⟨size, false, peek, true⟩).1 = 0 := by
  unfold tcpRecv
  rw [if_neg (show ¬ size = 0 by omega), if_pos shut]
  rfl

-- tcp_canread says what tcp_recv would return with room for everything.
structure Agrees (w : World) : Prop where
  count : ∀ env size peek, total w.data.rcv.q < size →
    (received (tcpRecv env w ⟨size, false, peek, true⟩).1 : Int) = tcpCanread w
  positive : ∀ env size peek, total w.data.rcv.q < size →
    (0 < tcpCanread w ↔ ∃ bytes, bytes ≠ [] ∧ (tcpRecv env w ⟨size, false, peek, true⟩).1 = .data bytes)

theorem received_pos (result : RecvResult) : 0 < received result ↔ ∃ bytes, bytes ≠ [] ∧ result = .data bytes := by
  constructor
  · intro positive
    cases result with
    | data bytes => exact ⟨bytes, List.ne_nil_of_length_pos positive, rfl⟩
    | eof => cases positive
    | fail err => cases positive
    | wait => cases positive
  · rintro ⟨bytes, some', rfl⟩
    exact List.length_pos_of_ne_nil some'

theorem agrees_of_count (count : ∀ env size peek, total w.data.rcv.q < size →
    (received (tcpRecv env w ⟨size, false, peek, true⟩).1 : Int) = tcpCanread w) : Agrees w := by
  refine ⟨count, fun env size peek unlimited => ?_⟩
  rw [← count env size peek unlimited, ← received_pos]
  exact Int.natCast_pos

theorem num_shut (state : TcbState) : state.num ≤ TcbState.synsent.num ↔ state = .listen ∨ state = .closed ∨ state = .synsent := by
  cases state <;> simp [TcbState.num]

end Agreement

theorem agrees_iff (w : World) (order : InOrder w.data.rcv.q) (env : Env) (talks : w.tcb.state ≠ .listen)
    (some' : (seekSeg w false).1 ≠ []) : Agrees w ↔ (Mixed w ↔ w.tcb.state = .closed ∨ w.tcb.state = .synsent) := by
  have positive := (found_positive w order).mpr some'
  have mixed := canread_mixed w order talks
  have found := canread_found w order talks
  by_cases shut : w.tcb.state.num ≤ TcbState.synsent.num
  · have state := ((num_shut w.tcb.state).mp shut).resolve_left talks
    constructor
    · intro agrees
      have none' := agrees.count env _ false (Nat.lt_succ_self _)
      rw [recv_refused w env _ false (Nat.lt_succ_self _) shut] at none'
      refine ⟨fun _ => state, fun _ => ?_⟩
      by_contra alike
      rw [found alike] at none'
      omega
    · intro kinds
      refine agrees_of_count w fun env size peek unlimited => ?_
      rw [recv_refused w env size peek unlimited shut, mixed (kinds.mpr state)]
      rfl
  · have open' : TcbState.synsent.num < w.tcb.state.num := Nat.lt_of_not_le shut
    have state : ¬ (w.tcb.state = .closed ∨ w.tcb.state = .synsent) := fun both =>
      shut ((num_shut w.tcb.state).mpr (Or.inr both))
    constructor
    · intro agrees
      have whole := agrees.count env _ false (Nat.lt_succ_self _)
      rw [recv_count w order env _ false (Nat.lt_succ_self _) open'] at whole
      refine ⟨fun other => ?_, fun both => (state both).elim⟩
      rw [mixed other] at whole
      omega
    · intro kinds
      refine agrees_of_count w fun env size peek unlimited => ?_
      rw [recv_count w order env size peek unlimited open', found fun other => state (kinds.mp other)]

theorem agrees_empty (w : World) (order : InOrder w.data.rcv.q) (talks : w.tcb.state ≠ .listen)
    (none' : (seekSeg w false).1 = []) : Agrees w := by
  have zero : countFound w (seekSeg w false) = 0 := by
    generalize seekSeg w false = seek at none' ⊢
    obtain ⟨bufs, readnxt⟩ := seek
    cases bufs with
    | nil => rfl
    | cons b rest => cases none'
  have nothing : tcpCanread w = 0 := by
    by_cases mixed : Mixed w
    · exact canread_mixed w order talks mixed
    · exact (canread_found w order talks mixed).trans zero
  refine agrees_of_count w fun env size peek unlimited => ?_
  rw [nothing]
  by_cases shut : w.tcb.state.num ≤ TcbState.synsent.num
  · rw [recv_refused w env size peek unlimited shut]
    rfl
  · rw [recv_count w order env size peek unlimited (Nat.lt_of_not_le shut), zero]

theorem agrees_listen (w : World) (listens : w.tcb.state = .listen) : Agrees w := by
  refine agrees_of_count w fun env size peek unlimited => ?_
  rw [recv_refused w env size peek unlimited ((num_shut w.tcb.state).mpr (Or.inl listens))]
  unfold tcpCanread
  rw [if_pos listens]
  rfl

-- The two agree where there is nothing to read; elsewhere in the states in which tcp_recv works, unless the kinds are
-- mixed, and in the others only if they are.
theorem canread_agrees (w : World) (order : InOrder w.data.rcv.q) : Agrees w ↔
    w.tcb.state = .listen ∨ (seekSeg w false).1 = [] ∨ (Mixed w ↔ w.tcb.state = .closed ∨ w.tcb.state = .synsent) := by
  by_cases listens : w.tcb.state = .listen
  · exact ⟨fun _ => Or.inl listens, fun _ => agrees_listen w listens⟩
  · by_cases none' : (seekSeg w false).1 = []
    · exact ⟨fun _ => Or.inr (Or.inl none'), fun _ => agrees_empty w order listens none'⟩
    · have iff := agrees_iff w order plainEnv listens none'
      exact ⟨fun agrees => Or.inr (Or.inr (iff.mp agrees)), fun cases' => iff.mpr ((cases'.resolve_left listens).resolve_left none')⟩

-- One byte has come and is not read.
def oneByte : World := inputFound plainEnv (openConn 4096) (peerSeg 5001 1001 TCPF_ACK 4096 0 [65]) false

-- Both sides have closed since.
def closedUnread : World :=
  inputFound plainEnv (tcpShutdown plainEnv (setCant (inputFound plainEnv oneByte (peerSeg 5002 1001 TCPF_FIN_ACK 4096 0 []) false) 1) 1)
    (peerSeg 5003 1002 TCPF_ACK 4096 0 []) false

def queuedByte (seq : Seq) (urg freeme : Bool) (byte : Byte) : Buf :=
  ⟨100, 0, ⟨80, 1024, seq, 1001, 5, freeme, { TCPF_ACK with urg := urg }, 4096, 0, 1, [byte]⟩⟩

-- Inline, an urgent byte that was read with MSG_OOB is followed by an ordinary one.
def mixedKinds : World :=
  { oneByte with data.oobinline := true, data.rcv.q := [queuedByte 5001 true true 65, queuedByte 5002 false false 66] }

theorem in_order_single (b : Buf) (holds : 0 < DATLEN b ∧ DATLEN b ≤ (tcpData b.th).length) : InOrder [b] :=
  ⟨List.isChain_singleton b, fun c member => by cases List.mem_singleton.mp member; exact holds⟩

theorem in_order_pair (b c : Buf) (ends : SEQGT (SEQNXT c) (SEQNXT b)) (first : 0 < DATLEN b ∧ DATLEN b ≤ (tcpData b.th).length)
    (second : 0 < DATLEN c ∧ DATLEN c ≤ (tcpData c.th).length) : InOrder [b, c] := by
  refine ⟨List.isChain_pair.mpr ends, fun d member => ?_⟩
  obtain rfl | member := List.mem_cons.mp member
  · exact first
  · cases List.mem_singleton.mp member
    exact second

theorem canread_agrees_byte : Agrees oneByte := by
  have queue : oneByte.data.rcv.q = [queuedByte 5001 false false 65] := by decide +kernel
  have order : InOrder oneByte.data.rcv.q := by
    rw [queue]
    exact in_order_single _ (by decide)
  have state : oneByte.tcb.state = .established := by decide +kernel
  refine (canread_agrees oneByte order).mpr (Or.inr (Or.inr ⟨fun mixed => ?_, fun shut => ?_⟩))
  · have apart : oneByte.data.oobinline = false := by decide +kernel
    have inline := mixed.1
    rw [apart] at inline
    cases inline
  · rw [state] at shut
    obtain shut | shut := shut <;> cases shut

-- The byte is announced, but tcp_recv refuses; and the ordinary byte is there, but not announced.
theorem canread_disagrees :
    (InOrder closedUnread.data.rcv.q ∧ tcpCanread closedUnread = 1
        ∧ (tcpRecv plainEnv closedUnread ⟨100, false, false, true⟩).1 = .fail ENOTCONN ∧ ¬ Agrees closedUnread)
      ∧ InOrder mixedKinds.data.rcv.q ∧ tcpCanread mixedKinds = 0
        ∧ (tcpRecv plainEnv mixedKinds ⟨100, false, false, true⟩).1 = .data [66] ∧ ¬ Agrees mixedKinds := by
  have closedQueue : closedUnread.data.rcv.q = [queuedByte 5001 false false 65] := by decide +kernel
  have announced : tcpCanread closedUnread = 1 := by decide +kernel
  have refused : (tcpRecv plainEnv closedUnread ⟨100, false, false, true⟩).1 = .fail ENOTCONN := by decide +kernel
  have hidden : tcpCanread mixedKinds = 0 := by decide +kernel
  have there : (tcpRecv plainEnv mixedKinds ⟨100, false, false, true⟩).1 = .data [66] := by decide +kernel
  refine ⟨⟨?_, announced, refused, fun agrees => ?_⟩, ?_, hidden, there, fun agrees => ?_⟩
  · rw [closedQueue]
    exact in_order_single _ (by decide)
  · have same := agrees.count plainEnv 100 false (by rw [closedQueue]; decide)
    rw [refused, announced] at same
    cases same
  · exact in_order_pair _ _ (by decide) (by decide) (by decide)
  · have same := agrees.count plainEnv 100 false (by decide)
    rw [there, hidden] at same
    cases same

end MagxNet.Tcp
