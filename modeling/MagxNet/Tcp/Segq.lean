import MagxNet.Lib.Links
import MagxNet.Tcp.Gate

set_option autoImplicit false

namespace MagxNet.Tcp

open Links

-- A queue as it lies in memory: the buffers by their addresses, with 0 for null.
structure Segq where
  next : Nat → Nat
  prev : Nat → Nat
  buf : Nat → Buf
  qfirst : Nat
  qlast : Nat
  maxdatalen : Int
  curdatalen : BitVec 32
  freed : List Nat

def Segq.deref (q : Segq) (b : Nat) : Segq := { q with freed := q.freed ++ [b] }

def Segq.unmark (q : Segq) (b : Nat) : Segq := { q with buf := Function.update q.buf b ((q.buf b).mark false) }

-- The queue was empty before.
def segAlone (q : Segq) (b : Nat) : Segq :=
  { q with next := Function.update q.next b 0, prev := Function.update q.prev b 0, qfirst := b, qlast := b,
           curdatalen := (q.buf b).th.urgptr.setWidth 32 }

def segBehind (q : Segq) (b : Nat) : Segq :=
  { q with next := Function.update (Function.update q.next b 0) q.qlast b, prev := Function.update q.prev b q.qlast, qlast := b,
           curdatalen := q.curdatalen + (SEQNXT (q.buf b) - SEQNXT (q.buf q.qlast)) }

def segAhead (q : Segq) (b : Nat) : Segq :=
  { q with next := Function.update q.next b q.qfirst, prev := Function.update (Function.update q.prev b 0) q.qfirst b, qfirst := b,
           curdatalen := q.curdatalen + (SEQ1ST (q.buf q.qfirst) - SEQ1ST (q.buf b)) }

-- Between c->prev and c.
def segBetween (q : Segq) (b c : Nat) : Segq :=
  { q with next := Function.update (Function.update q.next b c) (q.prev c) b,
           prev := Function.update (Function.update q.prev b (q.prev c)) c b }

-- The search for a hole, backwards; the segment is put into the first one found. The loop is left at the second result.
def holeLoop (b : Nat) : Nat → Segq → Nat → Option (Segq × Nat)
  | 0, _, _ => none
  | fuel + 1, q, c =>
      if q.prev c = 0 then some (q, c)
      else if SEQLT (SEQNXT (q.buf (q.prev c))) (SEQ1ST (q.buf c)) ∧ SEQLT (SEQ1ST (q.buf b)) (SEQ1ST (q.buf c))
          ∧ SEQLT (SEQNXT (q.buf (q.prev c))) (SEQNXT (q.buf b)) then
        some (segBetween q b c, c)
      else holeLoop b fuel q (q.prev c)

-- c is taken out from behind b.
def unlinkBehind (q : Segq) (b c : Nat) : Segq :=
  { q with qlast := if q.qlast = c then b else q.qlast, next := Function.update q.next b (q.next c),
           prev := if q.next c = 0 then q.prev else Function.update q.prev (q.next c) b, freed := q.freed ++ [c] }

-- The first of the two loops at the end; gone says which segments are contained in the new one.
def dropBehind (gone : Nat → Bool) (b : Nat) : Nat → Segq → Option Segq
  | 0, _ => none
  | fuel + 1, q => if q.next b ≠ 0 ∧ gone (q.next b) then dropBehind gone b fuel (unlinkBehind q b (q.next b)) else some q

-- The queue read the other way.
def Segq.mirror (q : Segq) : Segq := { q with next := q.prev, prev := q.next, qfirst := q.qlast, qlast := q.qfirst }

-- The second loop is the first one with prev for next and qfirst for qlast.
def dropAhead (gone : Nat → Bool) (b : Nat) (fuel : Nat) (q : Segq) : Option Segq :=
  (dropBehind gone b fuel q.mirror).map Segq.mirror

def dropContained (fuel : Nat) (q : Segq) (b : Nat) : Option Segq :=
  (dropBehind (fun c => decide (SEQLE (SEQNXT (q.buf c)) (SEQNXT (q.buf b)))) b fuel q).bind
    (dropAhead (fun c => decide (SEQLE (SEQ1ST (q.buf b)) (SEQ1ST (q.buf c)))) b fuel)

-- The same tcp_addseg as tcpAddseg, on the memory itself; none when a loop does not end within fuel rounds.
def addseg (fuel : Nat) (q : Segq) (b : Nat) : Option (Int × Segq) :=
  if (q.buf b).th.urgptr = 0 then some (-1, q.deref b)
  else
    let q := q.unmark b
    if q.qfirst = 0 then some (0, segAlone q b)
    else if SEQLT (SEQNXT (q.buf q.qlast)) (SEQNXT (q.buf b)) then
      (dropContained fuel (segBehind q b) b).map fun q => (0, q)
    else if SEQLT (SEQ1ST (q.buf b)) (SEQ1ST (q.buf q.qfirst)) then
      (dropContained fuel (segAhead q b) b).map fun q => (0, q)
    else if q.qlast = 0 then some (-1, q.deref b)
    else
      (holeLoop b fuel q q.qlast).bind fun (q, c) =>
        if q.prev c = 0 then some (-1, q.deref b) else (dropContained fuel q b).map fun q => (0, q)

-- The buffers of l are the queue.
structure Linked (q : Segq) (l : List Nat) : Prop where
  chain : Chain q.next q.prev 0 l
  first : q.qfirst = l.headD 0
  last : q.qlast = l.getLastD 0

theorem linked_mirror (q : Segq) (l : List Nat) (linked : Linked q l) : Linked q.mirror l.reverse := by
  refine ⟨chain_reverse _ _ _ _ linked.chain, ?_, ?_⟩
  · rw [List.headD_eq_head?_getD, List.head?_reverse, ← List.getLastD_eq_getLast?]
    exact linked.last
  · rw [List.getLastD_eq_getLast?, List.getLast?_reverse, ← List.headD_eq_head?_getD]
    exact linked.first

theorem last_append (l r : List Nat) (b : Nat) : (l ++ b :: r).getLastD 0 = r.getLastD b := by
  rw [List.getLastD_eq_getLast?, List.getLast?_append, List.getLast?_cons, List.getLastD_eq_getLast?]
  rfl

theorem head_append (l r r' : List Nat) (b : Nat) : (l ++ b :: r).headD 0 = (l ++ b :: r').headD 0 := by
  cases l <;> rfl

-- What stays when only the links of a queue are changed.
structure Relinked (q q' : Segq) : Prop where
  buf : q'.buf = q.buf
  maxdatalen : q'.maxdatalen = q.maxdatalen
  curdatalen : q'.curdatalen = q.curdatalen

theorem relinked_trans (q q' q'' : Segq) (first : Relinked q q') (second : Relinked q' q'') : Relinked q q'' :=
  ⟨second.buf.trans first.buf, second.maxdatalen.trans first.maxdatalen, second.curdatalen.trans first.curdatalen⟩

theorem unlink_behind (q : Segq) (l r : List Nat) (b c : Nat) (linked : Linked q (l ++ b :: c :: r)) :
    Linked (unlinkBehind q b c) (l ++ b :: r) := by
  refine ⟨chain_absorb q.next q.prev 0 b c l r linked.chain, linked.first.trans (head_append l (c :: r) r b), ?_⟩
  have last := linked.last
  rw [last_append, List.getLastD_cons] at last
  rw [last_append]
  unfold unlinkBehind
  dsimp only
  cases r with
  | nil => exact if_pos last
  | cons d r =>
      have distinct := (List.nodup_cons.mp (List.nodup_append.mp linked.chain.distinct).2.1).2
      rw [List.getLastD_cons] at last ⊢
      have other : q.qlast ≠ c := by
        rw [last]
        rintro same
        exact (List.nodup_cons.mp distinct).1 (same ▸ List.getLastD_mem_cons)
      rw [if_neg other]
      exact last

theorem drop_behind (gone : Nat → Bool) (l r : List Nat) (b fuel : Nat) (q : Segq) (linked : Linked q (l ++ b :: r))
    (enough : r.length < fuel) :
    ∃ q', dropBehind gone b fuel q = some q' ∧ Linked q' (l ++ b :: r.dropWhile gone) ∧ Relinked q q'
      ∧ q'.freed = q.freed ++ r.takeWhile gone := by
  induction r generalizing fuel q with
  | nil =>
      have ahead : q.next b = 0 := chain_next _ _ _ _ _ _ linked.chain
      obtain ⟨more, rfl⟩ := Nat.exists_eq_add_of_lt enough
      refine ⟨q, ?_, linked, ⟨rfl, rfl, rfl⟩, (List.append_nil _).symm⟩
      rw [dropBehind, if_neg fun both => both.1 ahead]
  | cons c r ih =>
      have ahead : q.next b = c := chain_next _ _ _ _ _ _ linked.chain
      have real : c ≠ 0 := by
        rintro rfl
        exact linked.chain.proper (by simp)
      obtain ⟨fuel, rfl⟩ : ∃ more, fuel = more + 1 := ⟨fuel - 1, by rw [List.length_cons] at enough; omega⟩
      rw [dropBehind, ahead, List.dropWhile_cons, List.takeWhile_cons]
      cases contained : gone c with
      | true =>
          obtain ⟨q', result, linked', same, freed⟩ := ih fuel (unlinkBehind q b c) (unlink_behind q l r b c linked)
            (by rw [List.length_cons] at enough; omega)
          refine ⟨q', ?_, linked', relinked_trans q (unlinkBehind q b c) q' ⟨rfl, rfl, rfl⟩ same, ?_⟩
          · rw [if_pos ⟨real, rfl⟩]
            exact result
          · rw [freed]
            exact List.append_assoc _ _ _
      | false =>
          refine ⟨q, ?_, linked, ⟨rfl, rfl, rfl⟩, (List.append_nil _).symm⟩
          rw [if_neg fun both => Bool.false_ne_true both.2]

theorem drop_ahead (gone : Nat → Bool) (l r : List Nat) (b fuel : Nat) (q : Segq) (linked : Linked q (l ++ b :: r))
    (enough : l.length < fuel) :
    ∃ q', dropAhead gone b fuel q = some q' ∧ Linked q' (l.rdropWhile gone ++ b :: r) ∧ Relinked q q'
      ∧ q'.freed = q.freed ++ (l.rtakeWhile gone).reverse := by
  have turned := linked_mirror q _ linked
  rw [List.reverse_append, List.reverse_cons, List.append_assoc, List.singleton_append] at turned
  obtain ⟨q', result, linked', same, freed⟩ := drop_behind gone r.reverse l.reverse b fuel q.mirror turned
    (by rwa [List.length_reverse])
  have back := linked_mirror q' _ linked'
  rw [List.reverse_append, List.reverse_cons, List.reverse_reverse, List.append_assoc, List.singleton_append] at back
  refine ⟨q'.mirror, ?_, back, ⟨same.buf, same.maxdatalen, same.curdatalen⟩, ?_⟩
  · rw [dropAhead, result]
    rfl
  · rw [List.rtakeWhile, List.reverse_reverse]
    exact freed

theorem put_behind (q : Segq) (l : List Nat) (a b : Nat) (linked : Linked q (l ++ [a])) (fresh : b ∉ l ++ [a]) (real : b ≠ 0) :
    Linked (segBehind q b) (l ++ [a, b]) := by
  have ahead : q.next a = 0 := chain_next _ _ _ _ _ _ linked.chain
  have last : q.qlast = a := linked.last.trans (last_append l [] a)
  have chain := chain_split q.next q.prev 0 a b l [] linked.chain fresh real
  rw [if_pos ahead, ahead, ← last] at chain
  refine ⟨?_, linked.first.trans (head_append l [] [b] a), (last_append l [b] a).symm⟩
  rw [← last]
  exact chain

theorem put_ahead (q : Segq) (l : List Nat) (a b : Nat) (linked : Linked q (a :: l)) (fresh : b ∉ a :: l) (real : b ≠ 0) :
    Linked (segAhead q b) (b :: a :: l) := by
  have turned := linked_mirror q _ linked
  rw [List.reverse_cons] at turned
  have ahead := put_behind q.mirror l.reverse a b turned (by simpa [or_comm] using fresh) real
  have back := linked_mirror _ _ ahead
  rw [List.reverse_append, List.reverse_reverse] at back
  exact ⟨back.chain, back.first, back.last⟩

theorem put_between (q : Segq) (l r : List Nat) (a b c : Nat) (linked : Linked q (l ++ a :: c :: r))
    (fresh : b ∉ l ++ a :: c :: r) (real : b ≠ 0) : Linked (segBetween q b c) (l ++ a :: b :: c :: r) := by
  have ahead : q.next a = c := chain_next _ _ _ _ _ _ linked.chain
  have behind : q.prev c = a := by
    have split : l ++ a :: c :: r = (l ++ [a]) ++ c :: r := by simp
    have before := chain_prev q.next q.prev 0 c (l ++ [a]) r (split ▸ linked.chain)
    rwa [last_append] at before
  have proper : c ≠ 0 := by
    rintro rfl
    exact linked.chain.proper (by simp)
  have different : b ≠ c := by
    rintro rfl
    exact fresh (by simp)
  have chain := chain_split q.next q.prev 0 a b l (c :: r) linked.chain fresh real
  rw [ahead, if_neg proper, Function.update_comm different.symm] at chain
  refine ⟨?_, linked.first.trans (head_append l _ _ a), ?_⟩
  · unfold segBetween
    rw [behind]
    exact chain
  · have last := linked.last
    rw [last_append] at last ⊢
    exact last

theorem hole_in_deeper (seq1st seqnxt : Seq) (front rest before behind : List Buf)
    (found : holeIn seq1st seqnxt rest = some (before, behind)) :
    holeIn seq1st seqnxt (front ++ rest) = some (front ++ before, behind) := by
  induction front with
  | nil => exact found
  | cons b front ih =>
      rw [List.cons_append, List.cons_append]
      cases whole : front ++ rest with
      | nil =>
          rw [(List.append_eq_nil_iff.mp whole).2] at found
          cases found
      | cons next more =>
          rw [whole] at ih
          rw [holeIn, ih]

theorem hole_in_none (seq1st seqnxt : Seq) (b next : Buf) (rest : List Buf)
    (nothing : holeIn seq1st seqnxt (next :: rest) = none) :
    holeIn seq1st seqnxt (b :: next :: rest) =
      if SEQLT (SEQNXT b) (SEQ1ST next) ∧ SEQLT seq1st (SEQ1ST next) ∧ SEQLT (SEQNXT b) seqnxt then some ([b], next :: rest)
      else none := by
  rw [holeIn, nothing]

-- The loop finds the hole that holeIn finds, or comes to the front.
theorem hole_loop (b : Nat) (q : Segq) (l r : List Nat) (c fuel : Nat) (linked : Linked q (l ++ c :: r))
    (enough : l.length < fuel)
    (nothing : holeIn (SEQ1ST (q.buf b)) (SEQNXT (q.buf b)) ((c :: r).map q.buf) = none) :
    (∃ front p d back, l ++ c :: r = front ++ p :: d :: back ∧ holeLoop b fuel q c = some (segBetween q b d, d)
        ∧ holeIn (SEQ1ST (q.buf b)) (SEQNXT (q.buf b)) ((l ++ c :: r).map q.buf)
          = some ((front ++ [p]).map q.buf, (d :: back).map q.buf))
      ∨ ∃ first, holeLoop b fuel q c = some (q, first) ∧ q.prev first = 0
        ∧ holeIn (SEQ1ST (q.buf b)) (SEQNXT (q.buf b)) ((l ++ c :: r).map q.buf) = none := by
  induction l using List.reverseRecOn generalizing r c fuel with
  | nil =>
      have behind : q.prev c = 0 := chain_prev _ _ _ _ _ _ linked.chain
      obtain ⟨more, rfl⟩ := Nat.exists_eq_add_of_lt enough
      refine Or.inr ⟨c, ?_, behind, nothing⟩
      rw [holeLoop, if_pos behind]
  | append_singleton l p ih =>
      have behind : q.prev c = p := by
        have before := chain_prev _ _ _ _ _ _ linked.chain
        rwa [last_append] at before
      have proper : p ≠ 0 := by
        rintro rfl
        exact linked.chain.proper (by simp)
      obtain ⟨fuel, rfl⟩ : ∃ more, fuel = more + 1 := ⟨fuel - 1, by rw [List.length_append] at enough; omega⟩
      have split : (l ++ [p]) ++ c :: r = l ++ p :: c :: r := by simp
      have here := hole_in_none _ _ (q.buf p) (q.buf c) (r.map q.buf) nothing
      rw [holeLoop, behind, if_neg proper, split]
      by_cases hole : SEQLT (SEQNXT (q.buf p)) (SEQ1ST (q.buf c)) ∧ SEQLT (SEQ1ST (q.buf b)) (SEQ1ST (q.buf c))
          ∧ SEQLT (SEQNXT (q.buf p)) (SEQNXT (q.buf b))
      · rw [if_pos hole] at here ⊢
        refine Or.inl ⟨l, p, c, r, rfl, rfl, ?_⟩
        rw [List.map_append, List.map_append]
        exact hole_in_deeper _ _ (l.map q.buf) _ _ _ here
      · rw [if_neg hole] at here ⊢
        exact ih (c :: r) p fuel (split ▸ linked) (by rw [List.length_append] at enough; exact Nat.lt_of_succ_lt_succ enough) here

theorem drop_contained (q : Segq) (before behind : List Nat) (b fuel : Nat) (linked : Linked q (before ++ b :: behind))
    (enough : before.length < fuel) (enough' : behind.length < fuel) :
    ∃ q', dropContained fuel q b = some q'
      ∧ Linked q' (before.rdropWhile (fun c => decide (SEQLE (SEQ1ST (q.buf b)) (SEQ1ST (q.buf c))))
          ++ b :: behind.dropWhile fun c => decide (SEQLE (SEQNXT (q.buf c)) (SEQNXT (q.buf b))))
      ∧ Relinked q q'
      ∧ q'.freed = q.freed ++ (behind.takeWhile (fun c => decide (SEQLE (SEQNXT (q.buf c)) (SEQNXT (q.buf b))))
          ++ (before.rtakeWhile fun c => decide (SEQLE (SEQ1ST (q.buf b)) (SEQ1ST (q.buf c)))).reverse) := by
  obtain ⟨q1, result, linked1, same, freed⟩ := drop_behind _ before behind b fuel q linked enough'
  obtain ⟨q2, result', linked2, same', freed'⟩ :=
    drop_ahead (fun c => decide (SEQLE (SEQ1ST (q.buf b)) (SEQ1ST (q.buf c)))) before _ b fuel q1 linked1 enough
  refine ⟨q2, ?_, linked2, relinked_trans q q1 q2 same same', ?_⟩
  · rw [dropContained, result]
    exact result'
  · rw [freed', freed, List.append_assoc]

def Segq.list (q : Segq) (l : List Nat) : Dataq := ⟨q.maxdatalen, q.curdatalen, l.map q.buf⟩

-- What tcp_addseg comes to in memory, against tcpAddseg on the list of the buffers: every buffer is either on the queue
-- afterwards, or is freed once.
structure Adds (q : Segq) (l : List Nat) (b : Nat) (r : Int) (q' : Segq) (l' gone : List Nat) : Prop where
  linked : Linked q' l'
  list : q'.list l' = (tcpAddseg (q.list l) (q.buf b)).q
  result : r = if (tcpAddseg (q.list l) (q.buf b)).taken then 0 else -1
  freed : q'.freed = q.freed ++ gone
  whole : (l' ++ gone).Perm (b :: l)

theorem map_drop_while (f : Nat → Buf) (p : Buf → Bool) (l : List Nat) :
    (l.dropWhile fun c => p (f c)).map f = (l.map f).dropWhile p := by
  rw [List.dropWhile_map]
  rfl

theorem map_rdrop_while (f : Nat → Buf) (p : Buf → Bool) (l : List Nat) :
    (l.rdropWhile fun c => p (f c)).map f = (l.map f).rdropWhile p := by
  rw [List.rdropWhile, List.rdropWhile, List.map_reverse, map_drop_while, List.map_reverse]

section Add

variable (q : Segq) (l : List Nat) (b : Nat) (fresh : b ∉ l)

include fresh

theorem unmark_others : l.map (q.unmark b).buf = l.map q.buf := by
  refine List.map_congr_left fun c member => Function.update_of_ne ?_ _ _
  rintro rfl
  exact fresh member

-- The segment has been put in between before and behind: what is contained in it goes.
theorem placed_adds (q1 : Segq) (before behind : List Nat) (fuel : Nat) (split : l = before ++ behind)
    (enough : l.length < fuel) (real : (q.buf b).th.urgptr ≠ 0) (linked : Linked q1 (before ++ b :: behind))
    (buf : q1.buf = (q.unmark b).buf) (max : q1.maxdatalen = q.maxdatalen) (freed : q1.freed = q.freed)
    (found : placeFor (q.list l) ((q.buf b).mark false) = some (before.map q.buf, behind.map q.buf, q1.curdatalen)) :
    ∃ r q' l' gone, (dropContained fuel q1 b).map (fun q => ((0 : Int), q)) = some (r, q') ∧ Adds q l b r q' l' gone := by
  subst split
  rw [List.length_append] at enough
  obtain ⟨q', result, linked', same, freed'⟩ := drop_contained q1 before behind b fuel linked (by omega) (by omega)
  have here : q1.buf b = (q.buf b).mark false := by
    rw [buf]
    exact Function.update_self ..
  have front : before.map q1.buf = before.map q.buf := by
    rw [buf]
    exact unmark_others q before b fun member => fresh (List.mem_append_left _ member)
  have back : behind.map q1.buf = behind.map q.buf := by
    rw [buf]
    exact unmark_others q behind b fun member => fresh (List.mem_append_right _ member)
  refine ⟨0, q', _, _, by rw [result]; rfl, linked', ?_, ?_, by rw [freed', freed], ?_⟩
  · unfold Segq.list tcpAddseg
    rw [if_neg real, show placeFor ⟨q.maxdatalen, q.curdatalen, _⟩ _ = _ from found]
    unfold linkSeg
    dsimp only
    rw [same.buf, same.curdatalen, same.maxdatalen, max, List.map_append, List.map_cons, here, ← front, ← back,
      ← map_rdrop_while, ← map_drop_while]
  · unfold tcpAddseg
    rw [if_neg real, found]
    rfl
  · generalize (fun c => decide (SEQLE (SEQ1ST (q1.buf b)) (SEQ1ST (q1.buf c)))) = overlaid
    generalize (fun c => decide (SEQLE (SEQNXT (q1.buf c)) (SEQNXT (q1.buf b)))) = covered
    have front := List.rdropWhile_append_rtakeWhile (p := overlaid) (l := before)
    have back := List.takeWhile_append_dropWhile (p := covered) (l := behind)
    refine List.perm_iff_count.mpr fun c => ?_
    have front := congrArg (List.count c) front
    have back := congrArg (List.count c) back
    simp only [List.count_append, List.count_cons, List.count_reverse] at front back ⊢
    omega

omit fresh in
-- The duplicate is freed, and the queue is as it was.
theorem duplicate_adds (linked : Linked q l) (q1 : Segq) (links : q1.next = q.next ∧ q1.prev = q.prev)
    (ends : q1.qfirst = q.qfirst ∧ q1.qlast = q.qlast) (list : q1.list l = q.list l) (freed : q1.freed = q.freed ++ [b])
    (untaken : (tcpAddseg (q.list l) (q.buf b)).taken = false) : Adds q l b (-1) q1 l [b] := by
  refine ⟨⟨?_, ends.1.trans linked.first, ends.2.trans linked.last⟩, ?_, ?_, freed, List.perm_append_singleton b l⟩
  · rw [links.1, links.2]
    exact linked.chain
  · rw [list, add_untaken _ _ untaken]
  · rw [untaken]
    rfl

theorem unmark_list : (q.unmark b).list l = q.list l := by
  unfold Segq.list
  rw [unmark_others q l b fresh]
  rfl

omit fresh in
-- The queue was empty.
theorem alone_adds (queue : l = []) (some : (q.buf b).th.urgptr ≠ 0) (notNull : b ≠ 0) :
    Adds q l b 0 (segAlone (q.unmark b) b) [b] [] := by
  subst queue
  have marked : (q.unmark b).buf b = (q.buf b).mark false := Function.update_self ..
  have added : tcpAddseg (q.list []) (q.buf b)
      = ⟨true, ⟨q.maxdatalen, (q.buf b).th.urgptr.setWidth 32, [(q.buf b).mark false]⟩, [], []⟩ := by
    rw [tcpAddseg, if_neg some]
    rfl
  refine ⟨⟨?_, rfl, rfl⟩, ?_, ?_, (List.append_nil _).symm, List.Perm.refl _⟩
  · exact chain_single _ _ 0 b (Function.update_self ..) (Function.update_self ..) notNull
  · rw [added]
    unfold Segq.list segAlone
    dsimp only
    rw [List.map_singleton, marked]
    rfl
  · rw [added]
    rfl

omit fresh in
theorem place_for_ends (init rest : List Nat) (last a : Nat) (whole : l = init ++ [last]) (first : l = a :: rest) (x : Buf) :
    placeFor (q.list l) x =
      if SEQLT (SEQNXT (q.buf last)) (SEQNXT x) then some (l.map q.buf, [], q.curdatalen + (SEQNXT x - SEQNXT (q.buf last)))
      else if SEQLT (SEQ1ST x) (SEQ1ST (q.buf a)) then some ([], l.map q.buf, q.curdatalen + (SEQ1ST (q.buf a) - SEQ1ST x))
      else (holeIn (SEQ1ST x) (SEQNXT x) (l.map q.buf)).map fun cut => (cut.1, cut.2, q.curdatalen) := by
  have head : (q.list l).q.head? = some (q.buf a) := by
    rw [first]
    rfl
  have tail : (q.list l).q.getLast? = some (q.buf last) := by
    unfold Segq.list
    rw [whole, List.map_append]
    exact List.getLast?_concat ..
  unfold placeFor
  rw [head, tail]
  rfl

-- The segment goes into the hole the search stops at, or is a duplicate.
theorem search_adds (linked : Linked q l) (notNull : b ≠ 0) (some : (q.buf b).th.urgptr ≠ 0) (fuel : Nat)
    (enough : l.length < fuel) (init : List Nat) (last : Nat) (whole : l = init ++ [last])
    (placed : placeFor (q.list l) ((q.buf b).mark false)
      = (holeIn (SEQ1ST ((q.buf b).mark false)) (SEQNXT ((q.buf b).mark false)) (l.map q.buf)).map fun cut =>
          (cut.1, cut.2, q.curdatalen)) :
    ∃ r q' l' gone, ((holeLoop b fuel (q.unmark b) last).bind fun stop =>
        if stop.1.prev stop.2 = 0 then Option.some (-1, stop.1.deref b)
        else (dropContained fuel stop.1 b).map fun q => (0, q)) = Option.some (r, q')
      ∧ Adds q l b r q' l' gone := by
  have marked : (q.unmark b).buf b = (q.buf b).mark false := Function.update_self ..
  have linked1 : Linked (q.unmark b) l := ⟨linked.chain, linked.first, linked.last⟩
  have less : init.length < fuel := by
    rw [whole, List.length_append] at enough
    omega
  have search := hole_loop b (q.unmark b) init [] last fuel (whole ▸ linked1) less rfl
  rw [marked, ← whole, unmark_others q l b fresh] at search
  obtain ⟨front, p, d, back, split, result, found⟩ | ⟨c, result, atEnd, nothing⟩ := search
  · have here := put_between (q.unmark b) front back p b d (split ▸ linked1) (split ▸ fresh) notNull
    have behind : (segBetween (q.unmark b) b d).prev d ≠ 0 := by
      have same : (segBetween (q.unmark b) b d).prev d = b := Function.update_self ..
      rw [same]
      exact notNull
    rw [result, Option.bind_some, if_neg behind]
    refine placed_adds q l b fresh _ (front ++ [p]) (d :: back) fuel (by rw [split]; simp) enough some (by simpa using here)
      rfl rfl rfl ?_
    have outside : ∀ part : List Nat, (∀ c ∈ part, c ∈ l) → part.map (q.unmark b).buf = part.map q.buf := fun part inside =>
      unmark_others q part b fun member => fresh (inside b member)
    rw [placed, found, outside (front ++ [p]) fun c member => by rw [split]; simp at member ⊢; tauto,
      outside (d :: back) fun c member => by rw [split]; simp at member ⊢; tauto]
    rfl
  · rw [result, Option.bind_some, if_pos atEnd]
    refine ⟨-1, _, l, [b], rfl, duplicate_adds q l b linked _ ⟨rfl, rfl⟩ ⟨rfl, rfl⟩ (unmark_list q l b fresh) rfl ?_⟩
    rw [tcpAddseg, if_neg some, placed, nothing]
    rfl

-- On a queue that is linked, tcp_addseg ends and does what tcpAddseg does.
theorem addseg_adds (linked : Linked q l) (notNull : b ≠ 0) (fuel : Nat) (enough : l.length < fuel) :
    ∃ r q' l' gone, addseg fuel q b = some (r, q') ∧ Adds q l b r q' l' gone := by
  unfold addseg
  by_cases empty : (q.buf b).th.urgptr = 0
  · rw [if_pos empty]
    refine ⟨-1, q.deref b, l, [b], rfl, duplicate_adds q l b linked _ ⟨rfl, rfl⟩ ⟨rfl, rfl⟩ rfl rfl ?_⟩
    rw [tcpAddseg, if_pos empty]
  rw [if_neg empty]
  have marked : (q.unmark b).buf b = (q.buf b).mark false := Function.update_self ..
  have others : ∀ c ∈ l, (q.unmark b).buf c = q.buf c := fun c member =>
    Function.update_of_ne (fun same : c = b => fresh (same ▸ member)) _ _
  have linked1 : Linked (q.unmark b) l := ⟨linked.chain, linked.first, linked.last⟩
  dsimp only
  rw [marked]
  obtain rfl | ⟨init, last, whole⟩ := List.eq_nil_or_concat' l
  · have none : (q.unmark b).qfirst = 0 := linked.first
    rw [if_pos none]
    exact ⟨0, segAlone (q.unmark b) b, [b], [], rfl, alone_adds q [] b rfl empty notNull⟩
  obtain ⟨a, rest, first⟩ : ∃ a rest, l = a :: rest := List.exists_cons_of_ne_nil (by simp [whole])
  have proper : ∀ c ∈ l, c ≠ 0 := fun c member null => linked.chain.proper (null ▸ member)
  have inside : a ∈ l := by simp [first]
  have inside' : last ∈ l := by simp [whole]
  have atFirst : (q.unmark b).qfirst = a := by
    rw [linked1.first, first]
    rfl
  have atLast : (q.unmark b).qlast = last := by
    rw [linked1.last, whole, last_append]
    rfl
  have placed := place_for_ends q l init rest last a whole first ((q.buf b).mark false)
  rw [atFirst, atLast, if_neg (proper a inside), others a inside, others last inside']
  by_cases longer : SEQLT (SEQNXT (q.buf last)) (SEQNXT ((q.buf b).mark false))
  · rw [if_pos longer] at placed ⊢
    refine placed_adds q l b fresh (segBehind (q.unmark b) b) l [] fuel (List.append_nil l).symm enough empty ?_ rfl rfl rfl ?_
    · have behind := put_behind (q.unmark b) init last b (whole ▸ linked1) (whole ▸ fresh) notNull
      rw [whole, List.append_assoc]
      exact behind
    · unfold segBehind
      rw [placed, marked, atLast, others last inside']
      rfl
  · rw [if_neg longer] at placed ⊢
    by_cases earlier : SEQLT (SEQ1ST ((q.buf b).mark false)) (SEQ1ST (q.buf a))
    · rw [if_pos earlier] at placed ⊢
      refine placed_adds q l b fresh (segAhead (q.unmark b) b) [] l fuel rfl enough empty ?_ rfl rfl rfl ?_
      · rw [first]
        exact put_ahead (q.unmark b) rest a b (first ▸ linked1) (first ▸ fresh) notNull
      · unfold segAhead
        rw [placed, marked, atFirst, others a inside]
        rfl
    · rw [if_neg earlier] at placed ⊢
      rw [if_neg (proper last inside')]
      exact search_adds q l b fresh linked notNull empty fuel enough init last whole placed

end Add

end MagxNet.Tcp
