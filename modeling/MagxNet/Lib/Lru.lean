import MagxNet.Lib.Links

set_option autoImplicit false

namespace Lru

open Links

variable {α : Type}

-- A circular list through next, read from what follows its last element on.
structure Ring (next : α → α) (last : α) (nodes : List α) : Prop where
  path : Path next (last :: nodes)
  ends : nodes.getLast? = some last
  distinct : nodes.Nodup

-- The rounds of a search that starts behind x: the element it stops at with the one in front of it, and whether it is
-- the one looked for or just the last; none when fuel rounds are not enough.
def seek [DecidableEq α] (next : α → α) (hit : α → Bool) (last : α) : Nat → α → Option (α × α × Bool)
  | 0, _ => none
  | fuel + 1, x =>
      if hit (next x) then some (x, next x, true)
      else if next x = last then some (x, next x, false)
      else seek next hit last fuel (next x)

theorem ring_head (next : α → α) (last a : α) (nodes : List α) (ring : Ring next last (a :: nodes)) : next last = a :=
  (List.isChain_cons_cons.mp ring.path).1

theorem ring_next (next : α → α) (last a b : α) (front back : List α) (ring : Ring next last (front ++ a :: b :: back)) :
    next a = b :=
  path_here next (last :: front) back a b ring.path

theorem ring_congr (next next' : α → α) (last : α) (nodes : List α) (ring : Ring next last nodes)
    (same : ∀ x ∈ nodes, next' x = next x) : Ring next' last nodes := by
  have inside : last ∈ nodes := List.mem_of_getLast? ring.ends
  refine ⟨path_congr next next' _ ring.path fun x member => ?_, ring.ends, ring.distinct⟩
  obtain rfl | member := List.mem_cons.mp (List.mem_of_mem_dropLast member)
  · exact same x inside
  · exact same x member

-- The last element becomes the first when the one in front of it becomes the last.
theorem ring_turn (next : α → α) (last x : α) (front : List α) (ring : Ring next last (front ++ [x, last])) :
    Ring next x (last :: front ++ [x]) := by
  have ahead := ring_next next last x last front [] ring
  have path := ring.path
  have whole : last :: (front ++ [x, last]) = (last :: front) ++ x :: [last] := rfl
  rw [whole] at path
  refine ⟨List.isChain_cons_cons.mpr ⟨ahead, ((path_split next (last :: front) [last] x).mp path).1⟩, ?_, ?_⟩
  · exact List.getLast?_concat ..
  · have order : front ++ [x, last] = (front ++ [x]) ++ [last] := by simp
    have distinct := ring.distinct
    rw [order] at distinct
    exact (List.perm_append_singleton last (front ++ [x])).nodup_iff.mp distinct

variable [DecidableEq α]

-- c is taken out from behind p, and put behind the last element, which makes it the first.
def bring (next : α → α) (last p c : α) : α → α :=
  let next := Function.update next p (next c)
  let next := Function.update next c (next last)
  Function.update next last c

theorem ring_bring (next : α → α) (last p c : α) (front mid : List α)
    (ring : Ring next last (front ++ p :: c :: (mid ++ [last]))) :
    Ring (bring next last p c) last (c :: front ++ p :: (mid ++ [last])) := by
  have order : (last :: (front ++ p :: c :: mid)).Perm (front ++ p :: c :: (mid ++ [last])) := by
    have turned := List.perm_append_singleton last (front ++ p :: c :: mid)
    simpa using turned.symm
  have distinct := order.nodup_iff.mpr ring.distinct
  obtain ⟨d, back, ahead⟩ : ∃ d back, mid ++ [last] = d :: back := List.exists_cons_of_ne_nil (by simp)
  obtain ⟨first, rest, split⟩ : ∃ first rest, front ++ p :: (mid ++ [last]) = first :: rest :=
    List.exists_cons_of_ne_nil (by simp)
  have others : p ≠ last ∧ c ≠ last ∧ c ∉ front ∧ c ≠ p ∧ c ∉ mid := by
    obtain ⟨outer, inner⟩ := List.nodup_cons.mp distinct
    obtain ⟨-, inner, apart⟩ := List.nodup_append.mp inner
    rw [List.mem_append, List.mem_cons, List.mem_cons, not_or, not_or, not_or] at outer
    obtain ⟨first, second⟩ := List.nodup_cons.mp inner
    refine ⟨fun same => outer.2.1 same.symm, fun same => outer.2.2.1 same.symm, fun member => ?_, ?_, (List.nodup_cons.mp second).1⟩
    · exact apart c member c (List.mem_cons_of_mem _ List.mem_cons_self) rfl
    · rintro rfl
      exact first List.mem_cons_self
  have head : next last = first := by
    cases front with
    | nil =>
        cases split
        exact ring_head next last _ _ ring
    | cons e front =>
        cases split
        exact ring_head next last _ _ ring
  have skipped : Path (Function.update next p (next c)) (last :: front ++ p :: (mid ++ [last])) := by
    rw [ahead] at ring ⊢
    have behind : next c = d := ring_next next last c d (front ++ [p]) back (by simpa using ring)
    rw [behind]
    refine path_skip next (last :: front) back p c d ring.path ?_
    have shape : last :: front ++ p :: c :: d :: back = (last :: (front ++ p :: c :: mid)) ++ [last] := by
      rw [← ahead]
      simp
    rw [shape, List.dropLast_concat]
    exact distinct
  have shape : last :: first :: rest = (last :: (front ++ p :: mid)) ++ [last] := by
    rw [← split]
    simp
  have apart : (last :: (front ++ p :: mid)).Nodup := distinct.sublist (by simp)
  have inserted := path_insert (Function.update next p (next c)) [] rest last c first
    (by
      rw [List.nil_append, ← split]
      exact skipped)
    (by
      rw [List.nil_append, shape, List.dropLast_concat]
      exact apart)
    (by
      rw [List.nil_append, shape, List.dropLast_concat]
      simp only [List.mem_cons, List.mem_append, not_or]
      exact ⟨others.2.1, others.2.2.1, others.2.2.2.1, others.2.2.2.2⟩)
  refine ⟨?_, ?_, ?_⟩
  · unfold bring
    dsimp only
    rw [Function.update_of_ne (Ne.symm others.1), head, List.cons_append, split]
    exact inserted
  · have shape : c :: front ++ p :: (mid ++ [last]) = (c :: front ++ p :: mid) ++ [last] := by simp
    rw [shape]
    exact List.getLast?_concat ..
  · refine (List.Perm.nodup_iff ?_).mp ring.distinct
    have moved : (front ++ [p] ++ c :: (mid ++ [last])).Perm (c :: (front ++ [p] ++ (mid ++ [last]))) := List.perm_middle
    simpa using moved

theorem seek_spec (next : α → α) (hit : α → Bool) (last x : α) (front rest : List α) (fuel : Nat)
    (ring : Ring next last (front ++ x :: rest)) (some : rest ≠ []) (enough : rest.length ≤ fuel) :
    (∃ a p c b, x :: rest = a ++ p :: c :: b ∧ hit c = true ∧ (∀ y ∈ (a ++ [p]).tail, hit y = false)
        ∧ seek next hit last fuel x = Option.some (p, c, true))
      ∨ ∃ a p, x :: rest = a ++ [p, last] ∧ (∀ y ∈ rest, hit y = false)
        ∧ seek next hit last fuel x = Option.some (p, last, false) := by
  induction rest generalizing front x fuel with
  | nil => exact absurd rfl some
  | cons c more ih =>
      obtain ⟨fuel, rfl⟩ : ∃ less, fuel = less + 1 := ⟨fuel - 1, by rw [List.length_cons] at enough; omega⟩
      have ahead := ring_next next last x c front more ring
      rw [seek, ahead]
      cases here : hit c with
      | true => exact Or.inl ⟨[], x, c, more, rfl, here, fun y member => absurd member List.not_mem_nil, rfl⟩
      | false =>
          have ends := ring.ends
          rw [if_neg Bool.false_ne_true]
          cases more with
          | nil =>
              obtain rfl : c = last := by simpa using ends
              refine Or.inr ⟨[], x, rfl, fun y member => ?_, if_pos rfl⟩
              rwa [List.mem_singleton.mp member]
          | cons d back =>
              have other : c ≠ last := by
                rintro rfl
                have inside : c ∈ d :: back := by
                  refine List.mem_of_getLast? ?_
                  rw [← ends, List.getLast?_append_of_ne_nil _ (List.cons_ne_nil _ _)]
                  rfl
                have distinct := (List.nodup_append.mp ring.distinct).2.1
                exact (List.nodup_cons.mp (List.nodup_cons.mp distinct).2).1 inside
              rw [if_neg other]
              have split : front ++ x :: c :: d :: back = (front ++ [x]) ++ c :: d :: back := by simp
              obtain ⟨a, p, e, b, whole, found, missed, result⟩ | ⟨a, p, whole, missed, result⟩ :=
                ih c (front ++ [x]) fuel (split ▸ ring) (List.cons_ne_nil d back) (Nat.le_of_succ_le_succ enough)
              · refine Or.inl ⟨x :: a, p, e, b, by rw [whole]; rfl, found, fun y member => ?_, result⟩
                obtain ⟨more, begins⟩ : ∃ more, a ++ [p] = c :: more := by
                  cases a with
                  | nil => exact ⟨[], congrArg (· :: []) (List.cons_eq_cons.mp whole).1.symm⟩
                  | cons f a => exact ⟨a ++ [p], congrArg (· :: (a ++ [p])) (List.cons_eq_cons.mp whole).1.symm⟩
                rw [List.cons_append, List.tail_cons] at member
                rw [begins] at member missed
                obtain rfl | member := List.mem_cons.mp member
                · exact here
                · exact missed y member
              · refine Or.inr ⟨x :: a, p, by rw [whole]; rfl, fun y member => ?_, result⟩
                obtain rfl | member := List.mem_cons.mp member
                · exact here
                · exact missed y member

-- What a search finds: the first element that hits, or the last of all.
inductive Finds (hit : α → Bool) (nodes : List α) (c : α) : Bool → Prop where
  | hit (front back : List α) (whole : nodes = front ++ c :: back) (here : hit c = true) (missed : ∀ y ∈ front, hit y = false) :
      Finds hit nodes c true
  | oldest (front : List α) (whole : nodes = front ++ [c]) (missed : ∀ y ∈ nodes, hit y = false) : Finds hit nodes c false

theorem erase_here (front back : List α) (c : α) (distinct : (front ++ c :: back).Nodup) :
    (front ++ c :: back).erase c = front ++ back := by
  have outside : c ∉ front := fun member => (List.nodup_append.mp distinct).2.2 c member c List.mem_cons_self rfl
  rw [List.erase_append_right _ outside, List.erase_cons_head]

-- A key is used: it comes first, and another one leaves the list for it when it was not there.
def touch (k : α) (l : List α) : List α := if k ∈ l then k :: l.erase k else k :: l.dropLast

theorem erase_take (k : α) (n : Nat) (l : List α) (inside : k ∈ l.take (n + 1)) : (l.take (n + 1)).erase k = (l.erase k).take n :=
    by
  induction l generalizing n with
  | nil => cases inside
  | cons a l ih =>
      rw [List.take_succ_cons] at inside ⊢
      by_cases same : a = k
      · rw [same, List.erase_cons_head, List.erase_cons_head]
      · have member : k ∈ l.take n := (List.mem_cons.mp inside).resolve_left (Ne.symm same)
        rw [List.erase_cons_tail (by simpa using same), List.erase_cons_tail (by simpa using same)]
        cases n with
        | zero => cases member
        | succ n => rw [ih n member, List.take_succ_cons]

theorem take_erase (k : α) (n : Nat) (l : List α) (outside : k ∉ l.take n) : (l.erase k).take n = l.take n := by
  induction l generalizing n with
  | nil => rfl
  | cons a l ih =>
      cases n with
      | zero => rfl
      | succ n =>
          rw [List.take_succ_cons, List.mem_cons, not_or] at outside
          rw [List.erase_cons_tail (by simpa using Ne.symm outside.1), List.take_succ_cons, List.take_succ_cons, ih n outside.2]

theorem dedup_snoc (ks : List α) (k : α) : (ks ++ [k]).dedup = ks.dedup.erase k ++ [k] := by
  induction ks with
  | nil => simp
  | cons a ks ih =>
      rw [List.cons_append]
      by_cases again : a ∈ ks
      · rw [List.dedup_cons_of_mem again, List.dedup_cons_of_mem (List.mem_append_left _ again), ih]
      · by_cases same : a = k
        · subst same
          rw [List.dedup_cons_of_notMem again, List.dedup_cons_of_mem (by simp), ih, List.erase_cons_head,
            List.erase_of_not_mem (by simpa using again)]
        · rw [List.dedup_cons_of_notMem again, List.dedup_cons_of_notMem (by simp [again, same]), ih,
            List.erase_cons_tail (by simpa using same), List.cons_append]

-- The element found gets the key and comes first.
theorem finds_touch {κ : Type} [DecidableEq κ] (key : α → κ) (k : κ) (nodes : List α) (c : α) (found : Bool)
    (finds : Finds (fun i => decide (k = key i)) nodes c found) (distinct : nodes.Nodup) :
    (c :: nodes.erase c).map (Function.update key c k) = touch k (nodes.map key) := by
  have others : ∀ l : List α, c ∉ l → l.map (Function.update key c k) = l.map key := fun l outside =>
    List.map_congr_left fun i member => Function.update_of_ne (ne_of_mem_of_not_mem member outside) ..
  cases finds with
  | hit front back whole here missed =>
      obtain rfl := of_decide_eq_true here
      subst whole
      have apart : c ∉ front ++ back := by
        have order : (front ++ c :: back).Perm (c :: (front ++ back)) := List.perm_middle
        exact (List.nodup_cons.mp (order.nodup_iff.mp distinct)).1
      have before : key c ∉ front.map key := fun inside => by
        obtain ⟨y, member, same⟩ := List.mem_map.mp inside
        exact of_decide_eq_false (missed y member) same.symm
      rw [erase_here front back c distinct, List.map_cons, Function.update_self, others _ apart, touch, if_pos (by simp),
        List.map_append, List.map_append, List.map_cons, List.erase_append_right _ before, List.erase_cons_head]
  | oldest front whole missed =>
      subst whole
      have apart : c ∉ front := by
        have order := List.perm_append_singleton c front
        exact (List.nodup_cons.mp (order.nodup_iff.mp distinct)).1
      have absent : k ∉ (front ++ [c]).map key := fun inside => by
        obtain ⟨y, member, same⟩ := List.mem_map.mp inside
        exact of_decide_eq_false (missed y member) same.symm
      rw [erase_here front [] c distinct, List.append_nil, List.map_cons, Function.update_self, others _ apart, touch,
        if_neg absent,
        List.map_append, List.map_singleton, List.dropLast_concat]

-- What was used last, each once, the latest first.
def latest (ks : List α) : List α := ks.dedup.reverse

theorem latest_snoc (ks : List α) (k : α) : latest (ks ++ [k]) = k :: (latest ks).erase k := by
  unfold latest
  have order := (List.nodup_dedup ks).erase_eq_filter k
  have turned := (List.nodup_reverse.mpr (List.nodup_dedup ks)).erase_eq_filter k
  rw [dedup_snoc, List.reverse_append, List.reverse_singleton, List.singleton_append, order, turned, List.filter_reverse]

-- A table in which only what is not used gets lost holds what was used last.
theorem touched_latest (n : Nat) (start ks : List α) (size : start.length = n + 1) (fresh : ∀ k ∈ ks, k ∉ start) :
    ks.foldl (fun l k => touch k l) start = (latest ks ++ start).take (n + 1) := by
  induction ks using List.reverseRecOn with
  | nil =>
      rw [List.foldl_nil, latest, List.dedup_nil, List.reverse_nil, List.nil_append, ← size, List.take_length]
  | append_singleton ks k ih =>
      have before := ih fun j member => fresh j (List.mem_append_left _ member)
      have absent : k ∉ start := fresh k (List.mem_append_right _ List.mem_cons_self)
      rw [List.foldl_append, List.foldl_cons, List.foldl_nil, before, latest_snoc, List.cons_append, List.take_succ_cons]
      have whole : (latest ks).erase k ++ start = (latest ks ++ start).erase k := by
        by_cases used : k ∈ latest ks
        · rw [List.erase_append_left _ used]
        · rw [List.erase_append_right _ used, List.erase_of_not_mem used, List.erase_of_not_mem absent]
      rw [whole]
      unfold touch
      split
      · rename_i inside
        rw [erase_take k n _ inside]
      · rename_i outside
        have long : n + 1 ≤ (latest ks ++ start).length := by
          rw [List.length_append, size]
          omega
        have less : k ∉ (latest ks ++ start).take n := fun member =>
          outside ((List.take_sublist_take_left (Nat.le_succ n)).subset member)
        rw [take_erase k n _ less, List.dropLast_eq_take, List.take_take, List.length_take, Nat.min_eq_left long,
          Nat.add_sub_cancel,
          Nat.min_eq_left (Nat.le_succ n)]

end Lru
