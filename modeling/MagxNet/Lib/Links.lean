import Mathlib

set_option autoImplicit false

namespace Links

variable {α : Type}

-- Following f leads through the nodes one after the other; f of the last one does not matter.
def Path (f : α → α) (nodes : List α) : Prop := nodes.IsChain fun x y => f x = y

theorem path_congr (f g : α → α) (nodes : List α) (path : Path f nodes) (same : ∀ x ∈ nodes.dropLast, g x = f x) :
    Path g nodes := by
  induction nodes with
  | nil => exact List.isChain_nil
  | cons x rest next =>
      cases rest with
      | nil => exact List.isChain_singleton x
      | cons y others =>
          obtain ⟨here, later⟩ := List.isChain_cons_cons.mp path
          refine List.isChain_cons_cons.mpr ⟨(same x (by simp)).trans here, next later fun z member => ?_⟩
          exact same z (by rw [List.dropLast_cons_cons]; exact List.mem_cons_of_mem _ member)

theorem path_here (f : α → α) (l r : List α) (a b : α) (path : Path f (l ++ a :: b :: r)) : f a = b :=
  (List.isChain_append_cons_cons.mp path).2.1

theorem path_split (f : α → α) (l r : List α) (a : α) : Path f (l ++ a :: r) ↔ Path f (l ++ [a]) ∧ Path f (a :: r) :=
  List.isChain_split

theorem drop_last_append (l r : List α) (a : α) : (l ++ a :: r).dropLast = l ++ (a :: r).dropLast :=
  List.dropLast_append_of_ne_nil (List.cons_ne_nil a r)

-- A circular doubly linked list through its head.
structure Ring (next prev : α → α) (head : α) (nodes : List α) : Prop where
  forward : Path next (head :: nodes ++ [head])
  backward : Path prev (head :: nodes.reverse ++ [head])
  distinct : (head :: nodes).Nodup

theorem ring_self (next prev : α → α) (head : α) (ahead : next head = head) (behind : prev head = head) :
    Ring next prev head [] :=
  ⟨List.isChain_pair.mpr ahead, List.isChain_pair.mpr behind, List.nodup_singleton head⟩

theorem ring_congr (next prev next' prev' : α → α) (head : α) (nodes : List α) (ring : Ring next prev head nodes)
    (ahead : ∀ x ∈ head :: nodes, next' x = next x) (behind : ∀ x ∈ head :: nodes, prev' x = prev x) :
    Ring next' prev' head nodes := by
  refine ⟨path_congr _ _ _ ring.forward fun x member => ahead x ?_,
    path_congr _ _ _ ring.backward fun x member => behind x ?_, ring.distinct⟩
  · rwa [List.dropLast_concat] at member
  · rw [List.dropLast_concat] at member
    simpa using member

theorem ring_next (next prev : α → α) (head : α) (nodes : List α) (ring : Ring next prev head nodes) :
    next head = nodes.headD head := by
  cases nodes with
  | nil => exact path_here next [] [] head head ring.forward
  | cons b rest => exact path_here next [] (rest ++ [head]) head b ring.forward

-- The neighbours of a node, and what lies beyond them.
theorem ring_around (next prev : α → α) (head b : α) (l r : List α) (ring : Ring next prev head (l ++ b :: r)) :
    ∃ front p q back, head :: l = front ++ [p] ∧ r ++ [head] = q :: back ∧ prev b = p ∧ next b = q := by
  obtain ⟨front, p, before⟩ : ∃ front p, head :: l = front ++ [p] :=
    ⟨_, _, (List.dropLast_append_getLast (List.cons_ne_nil head l)).symm⟩
  obtain ⟨q, back, after⟩ : ∃ q back, r ++ [head] = q :: back :=
    List.exists_cons_of_ne_nil (by simp)
  refine ⟨front, p, q, back, before, after, ?_, ?_⟩
  · have whole : head :: (l ++ b :: r).reverse ++ [head] = (head :: r.reverse) ++ b :: p :: front.reverse := by
      have turned := congrArg List.reverse before
      simp only [List.reverse_cons, List.reverse_append, List.reverse_nil, List.nil_append, List.singleton_append] at turned
      simp [turned]
    exact path_here prev _ _ b p (whole ▸ ring.backward)
  · have whole : head :: (l ++ b :: r) ++ [head] = (head :: l) ++ b :: q :: back := by simp [after]
    exact path_here next _ _ b q (whole ▸ ring.forward)

-- A doubly linked list whose ends point to null.
structure Chain (next prev : α → α) (null : α) (nodes : List α) : Prop where
  forward : Path next (nodes ++ [null])
  backward : Path prev (nodes.reverse ++ [null])
  distinct : nodes.Nodup
  proper : null ∉ nodes

theorem chain_single (next prev : α → α) (null a : α) (ahead : next a = null) (behind : prev a = null)
    (proper : a ≠ null) : Chain next prev null [a] :=
  ⟨List.isChain_pair.mpr ahead, List.isChain_pair.mpr behind, List.nodup_singleton a, by simpa using proper.symm⟩

theorem chain_congr (next prev next' prev' : α → α) (null : α) (nodes : List α) (chain : Chain next prev null nodes)
    (ahead : ∀ x ∈ nodes, next' x = next x) (behind : ∀ x ∈ nodes, prev' x = prev x) :
    Chain next' prev' null nodes := by
  refine ⟨path_congr _ _ _ chain.forward fun x member => ahead x ?_,
    path_congr _ _ _ chain.backward fun x member => behind x ?_, chain.distinct, chain.proper⟩
  · rwa [List.dropLast_concat] at member
  · rw [List.dropLast_concat] at member
    simpa using member

theorem chain_next (next prev : α → α) (null a : α) (l r : List α) (chain : Chain next prev null (l ++ a :: r)) :
    next a = r.headD null := by
  have path := chain.forward
  rw [List.append_assoc, List.cons_append] at path
  cases r with
  | nil => exact path_here next l [] a null path
  | cons b rest => exact path_here next l (rest ++ [null]) a b path

theorem chain_prev (next prev : α → α) (null a : α) (l r : List α) (chain : Chain next prev null (l ++ a :: r)) :
    prev a = l.getLastD null := by
  have path := chain.backward
  rw [List.reverse_append, List.reverse_cons, List.append_assoc, List.append_assoc, List.singleton_append] at path
  cases l using List.reverseRecOn with
  | nil => exact path_here prev r.reverse [] a null path
  | append_singleton front b =>
      rw [List.reverse_append, List.reverse_singleton, List.append_assoc, List.singleton_append] at path
      rw [List.getLastD_concat]
      exact path_here prev r.reverse (front.reverse ++ [null]) a b path

-- Read from its end, a chain is one with next and prev exchanged.
theorem chain_reverse (next prev : α → α) (null : α) (nodes : List α) (chain : Chain next prev null nodes) :
    Chain prev next null nodes.reverse :=
  ⟨chain.backward, by rw [List.reverse_reverse]; exact chain.forward, List.nodup_reverse.mpr chain.distinct,
    fun member => chain.proper (List.mem_reverse.mp member)⟩

variable [DecidableEq α]

-- b is taken out from between a and c.
theorem path_skip (f : α → α) (l r : List α) (a b c : α) (path : Path f (l ++ a :: b :: c :: r))
    (distinct : (l ++ a :: b :: c :: r).dropLast.Nodup) : Path (Function.update f a c) (l ++ a :: c :: r) := by
  rw [drop_last_append, List.dropLast_cons_cons, List.dropLast_cons_cons] at distinct
  obtain ⟨_, inner, apart⟩ := List.nodup_append.mp distinct
  obtain ⟨front, back⟩ := (path_split f l (b :: c :: r) a).mp path
  obtain ⟨_, back⟩ := List.isChain_cons_cons.mp back
  obtain ⟨_, back⟩ := List.isChain_cons_cons.mp back
  refine (path_split _ l (c :: r) a).mpr ⟨path_congr f _ _ front fun x member => ?_, ?_⟩
  · rw [List.dropLast_concat] at member
    have different : x ≠ a := fun same => apart x member a (List.mem_cons_self ..) same
    rw [Function.update_of_ne different]
  · refine List.isChain_cons_cons.mpr ⟨Function.update_self .., path_congr f _ _ back fun x member => ?_⟩
    have different : x ≠ a := by
      rintro rfl
      exact (List.nodup_cons.mp inner).1 (List.mem_cons_of_mem _ member)
    rw [Function.update_of_ne different]

-- b is put in between a and c.
theorem path_insert (f : α → α) (l r : List α) (a b c : α) (path : Path f (l ++ a :: c :: r))
    (distinct : (l ++ a :: c :: r).dropLast.Nodup) (fresh : b ∉ (l ++ a :: c :: r).dropLast) :
    Path (Function.update (Function.update f b c) a b) (l ++ a :: b :: c :: r) := by
  rw [drop_last_append, List.dropLast_cons_cons] at distinct fresh
  obtain ⟨_, inner, apart⟩ := List.nodup_append.mp distinct
  obtain ⟨front, back⟩ := (path_split f l (c :: r) a).mp path
  obtain ⟨_, back⟩ := List.isChain_cons_cons.mp back
  have other : ∀ x, x ≠ a → x ≠ b → Function.update (Function.update f b c) a b x = f x := fun x first second => by
    rw [Function.update_of_ne first, Function.update_of_ne second]
  have isNew : a ≠ b := by
    rintro rfl
    exact fresh (by simp)
  refine (path_split _ l (b :: c :: r) a).mpr ⟨path_congr f _ _ front fun x member => ?_, ?_⟩
  · rw [List.dropLast_concat] at member
    refine other x (fun same => apart x member a (List.mem_cons_self ..) same) ?_
    rintro rfl
    exact fresh (List.mem_append_left _ member)
  · refine List.isChain_cons_cons.mpr ⟨Function.update_self .., List.isChain_cons_cons.mpr ⟨?_, ?_⟩⟩
    · rw [Function.update_of_ne isNew.symm, Function.update_self]
    · refine path_congr f _ _ back fun x member => other x ?_ ?_
      · rintro rfl
        exact (List.nodup_cons.mp inner).1 member
      · rintro rfl
        exact fresh (List.mem_append_right _ (List.mem_cons_of_mem _ member))

theorem ring_unlink (next prev : α → α) (head b : α) (l r : List α) (ring : Ring next prev head (l ++ b :: r)) :
    Ring (Function.update next (prev b) (next b)) (Function.update prev (next b) (prev b)) head (l ++ r) := by
  obtain ⟨front, p, q, back, before, after, behind, ahead⟩ := ring_around next prev head b l r ring
  have turned := congrArg List.reverse before
  have turnedBack := congrArg List.reverse after
  simp only [List.reverse_cons, List.reverse_append, List.reverse_nil, List.nil_append, List.singleton_append]
    at turned turnedBack
  rw [behind, ahead]
  refine ⟨?_, ?_, ?_⟩
  · have whole : head :: (l ++ b :: r) ++ [head] = front ++ p :: b :: q :: back := by
      rw [← List.cons_append, before, List.append_assoc, List.cons_append, after]
      simp
    have less : head :: (l ++ r) ++ [head] = front ++ p :: q :: back := by
      rw [← List.cons_append, before, List.append_assoc, after]
      simp
    rw [less]
    exact path_skip next front back p b q (whole ▸ ring.forward)
      (by rw [← whole, List.dropLast_concat]; exact ring.distinct)
  · have whole : head :: (l ++ b :: r).reverse ++ [head] = back.reverse ++ q :: b :: p :: front.reverse := by
      rw [List.reverse_append, List.reverse_cons, ← List.cons_append, ← List.cons_append, turnedBack, List.append_assoc,
        turned]
      simp
    have less : head :: (l ++ r).reverse ++ [head] = back.reverse ++ q :: p :: front.reverse := by
      rw [List.reverse_append, ← List.cons_append, turnedBack, List.append_assoc, turned]
      simp
    rw [less]
    refine path_skip prev _ _ q b p (whole ▸ ring.backward) ?_
    rw [← whole, List.dropLast_concat]
    have distinct := ring.distinct
    rw [List.nodup_cons] at distinct ⊢
    exact ⟨by simpa only [List.mem_reverse] using distinct.1, List.nodup_reverse.mpr distinct.2⟩
  · exact ring.distinct.sublist (by simp)

-- b becomes the node right behind the head.
theorem ring_push (next prev : α → α) (head b : α) (nodes : List α) (ring : Ring next prev head nodes)
    (fresh : b ∉ head :: nodes) :
    Ring (Function.update (Function.update next b (next head)) head b)
      (Function.update (Function.update prev b head) (next head) b) head (b :: nodes) := by
  obtain ⟨q, back, after⟩ : ∃ q back, nodes ++ [head] = q :: back := List.exists_cons_of_ne_nil (by simp)
  have whole : head :: nodes ++ [head] = [] ++ head :: q :: back := by simp [after]
  have ahead : next head = q := path_here next [] back head q (whole ▸ ring.forward)
  have turned := congrArg List.reverse after
  simp only [List.reverse_cons, List.reverse_append, List.reverse_nil, List.nil_append, List.singleton_append] at turned
  have reversed : head :: nodes.reverse ++ [head] = back.reverse ++ q :: head :: [] := by
    rw [turned]
    simp
  have distinct := ring.distinct
  rw [ahead]
  refine ⟨?_, ?_, List.nodup_cons.mpr ⟨?_, List.nodup_cons.mpr ⟨?_, (List.nodup_cons.mp distinct).2⟩⟩⟩
  · have more : head :: b :: nodes ++ [head] = [] ++ head :: b :: q :: back := by simp [after]
    rw [more]
    refine path_insert next [] back head b q (whole ▸ ring.forward) ?_ ?_
    · rw [← whole, List.dropLast_concat]
      exact distinct
    · rw [← whole, List.dropLast_concat]
      exact fresh
  · have more : head :: (b :: nodes).reverse ++ [head] = back.reverse ++ q :: b :: head :: [] := by
      rw [List.reverse_cons, ← List.cons_append, turned]
      simp
    rw [more]
    refine path_insert prev _ [] q b head (reversed ▸ ring.backward) ?_ ?_
    · rw [← reversed, List.dropLast_concat]
      exact List.nodup_cons.mpr ⟨by simpa using (List.nodup_cons.mp distinct).1,
        List.nodup_reverse.mpr (List.nodup_cons.mp distinct).2⟩
    · rw [← reversed, List.dropLast_concat]
      simpa using fresh
  · intro member
    rcases List.mem_cons.mp member with rfl | inside
    · exact fresh (List.mem_cons_self ..)
    · exact (List.nodup_cons.mp distinct).1 inside
  · exact fun inside => fresh (List.mem_cons_of_mem _ inside)

-- The node behind a is dropped from the list.
theorem chain_absorb (next prev : α → α) (null a b : α) (l r : List α) (chain : Chain next prev null (l ++ a :: b :: r)) :
    Chain (Function.update next a (next b))
      (if next b = null then prev else Function.update prev (next b) a) null (l ++ a :: r) := by
  have ahead : next b = r.headD null := by
    have whole : l ++ a :: b :: r = (l ++ [a]) ++ b :: r := by simp
    exact chain_next next prev null b (l ++ [a]) r (whole ▸ chain)
  have distinct := chain.distinct
  have proper := chain.proper
  refine ⟨?_, ?_, distinct.sublist (by simp), fun member => proper ?_⟩
  · have path := chain.forward
    rw [List.append_assoc, List.cons_append, List.cons_append] at path
    rw [List.append_assoc, List.cons_append]
    have ends : (l ++ a :: b :: (r ++ [null])).dropLast.Nodup := by
      rw [show l ++ a :: b :: (r ++ [null]) = (l ++ a :: b :: r) ++ [null] by simp, List.dropLast_concat]
      exact distinct
    rw [ahead]
    cases r with
    | nil => exact path_skip next l [] a b null path ends
    | cons c rest => exact path_skip next l (rest ++ [null]) a b c path ends
  · have path := chain.backward
    cases r with
    | nil =>
        rw [ahead, List.headD_nil, if_pos rfl]
        rw [List.reverse_append, List.reverse_cons, List.reverse_cons] at path
        simp only [List.reverse_nil, List.nil_append, List.singleton_append, List.append_assoc] at path
        rw [List.reverse_append, List.reverse_cons]
        simp only [List.reverse_nil, List.nil_append, List.singleton_append]
        exact (List.isChain_cons_cons.mp path).2
    | cons c rest =>
        have real : c ≠ null := by
          rintro rfl
          exact proper (by simp)
        have before : (l ++ a :: b :: c :: rest).reverse ++ [null] =
            rest.reverse ++ c :: b :: a :: (l.reverse ++ [null]) := by simp
        have after : (l ++ a :: c :: rest).reverse ++ [null] = rest.reverse ++ c :: a :: (l.reverse ++ [null]) := by simp
        rw [ahead, List.headD_cons, if_neg real, after]
        rw [before] at path
        refine path_skip prev _ _ c b a path ?_
        rw [← before, List.dropLast_concat]
        exact List.nodup_reverse.mpr distinct
  · simp only [List.mem_append, List.mem_cons] at member ⊢
    tauto

-- A new node b goes in behind a.
theorem chain_split (next prev : α → α) (null a b : α) (l r : List α) (chain : Chain next prev null (l ++ a :: r))
    (fresh : b ∉ l ++ a :: r) (real : b ≠ null) :
    Chain (Function.update (Function.update next b (next a)) a b)
      (Function.update (if next a = null then prev else Function.update prev (next a) b) b a) null (l ++ a :: b :: r) := by
  have ahead := chain_next next prev null a l r chain
  have distinct := chain.distinct
  have proper := chain.proper
  refine ⟨?_, ?_, ?_, ?_⟩
  · have path := chain.forward
    rw [List.append_assoc, List.cons_append] at path
    rw [List.append_assoc, List.cons_append, List.cons_append, ahead]
    have ends : (l ++ a :: (r ++ [null])).dropLast = l ++ a :: r := by
      rw [show l ++ a :: (r ++ [null]) = (l ++ a :: r) ++ [null] by simp, List.dropLast_concat]
    cases r with
    | nil => exact path_insert next l [] a b null path (ends.symm ▸ distinct) (ends.symm ▸ fresh)
    | cons c rest => exact path_insert next l (rest ++ [null]) a b c path (ends.symm ▸ distinct) (ends.symm ▸ fresh)
  · have path := chain.backward
    have unequal : b ≠ a := by
      rintro rfl
      exact fresh (by simp)
    cases r with
    | nil =>
        rw [ahead, List.headD_nil, if_pos rfl]
        have before : (l ++ [a]).reverse ++ [null] = a :: (l.reverse ++ [null]) := by simp
        have after : (l ++ [a, b]).reverse ++ [null] = b :: a :: (l.reverse ++ [null]) := by simp
        rw [before] at path
        rw [after]
        refine List.isChain_cons_cons.mpr ⟨Function.update_self .., path_congr prev _ _ path fun x member => ?_⟩
        rw [← before, List.dropLast_concat] at member
        have different : x ≠ b := by
          rintro rfl
          exact fresh (by simpa [or_comm] using member)
        rw [Function.update_of_ne different]
    | cons c rest =>
        have proper' : c ≠ null := by
          rintro rfl
          exact proper (by simp)
        have notNew : c ≠ b := by
          rintro rfl
          exact fresh (by simp)
        have before : (l ++ a :: c :: rest).reverse ++ [null] = rest.reverse ++ c :: a :: (l.reverse ++ [null]) := by simp
        have after : (l ++ a :: b :: c :: rest).reverse ++ [null] =
            rest.reverse ++ c :: b :: a :: (l.reverse ++ [null]) := by simp
        rw [ahead, List.headD_cons, if_neg proper', after, Function.update_comm notNew]
        rw [before] at path
        refine path_insert prev _ _ c b a path ?_ ?_
        · rw [← before, List.dropLast_concat]
          exact List.nodup_reverse.mpr distinct
        · rw [← before, List.dropLast_concat]
          exact fun member => fresh (by simpa only [List.mem_reverse] using member)
  · refine List.nodup_append.mpr ?_
    obtain ⟨left, right, apart⟩ := List.nodup_append.mp distinct
    obtain ⟨notLater, later⟩ := List.nodup_cons.mp right
    simp only [List.mem_append, List.mem_cons, not_or] at fresh
    refine ⟨left, List.nodup_cons.mpr ⟨?_, List.nodup_cons.mpr ⟨fresh.2.2, later⟩⟩, ?_⟩
    · simp only [List.mem_cons, not_or]
      exact ⟨fun same => fresh.2.1 same.symm, notLater⟩
    · intro x inLeft y inRight
      rcases List.mem_cons.mp inRight with rfl | deeper
      · exact apart x inLeft y (List.mem_cons_self ..)
      · rcases List.mem_cons.mp deeper with rfl | deepest
        · rintro rfl
          exact fresh.1 inLeft
        · exact apart x inLeft y (List.mem_cons_of_mem _ deepest)
  · simp only [List.mem_append, List.mem_cons, not_or] at proper ⊢
    exact ⟨proper.1, proper.2.1, real.symm, proper.2.2⟩

end Links
