import Mathlib

set_option autoImplicit false

namespace Singly

variable {α : Type}

-- A list through pointers that may be null: following next from start leads through the nodes and ends.
def Linked (next : α → Option α) : Option α → List α → Prop
  | start, [] => start = none
  | start, a :: rest => start = some a ∧ Linked next (next a) rest

theorem linked_unique (next : α → Option α) (l l' : List α) : ∀ start, Linked next start l → Linked next start l' → l = l' := by
  induction l generalizing l' with
  | nil =>
      intro start ends linked
      cases l' with
      | nil => rfl
      | cons b rest =>
          rw [show start = none from ends] at linked
          cases linked.1
  | cons a rest ih =>
      intro start linked linked'
      cases l' with
      | nil =>
          rw [show start = none from linked'] at linked
          cases linked.1
      | cons b rest' =>
          obtain ⟨here, later⟩ := linked
          obtain ⟨here', later'⟩ := linked'
          cases here.symm.trans here'
          rw [ih rest' (next a) later later']

theorem linked_congr (next next' : α → Option α) (l : List α) : ∀ start, (∀ a ∈ l, next' a = next a) →
    Linked next start l → Linked next' start l := by
  induction l with
  | nil => exact fun _ _ linked => linked
  | cons a rest ih =>
      intro start same linked
      refine ⟨linked.1, ?_⟩
      rw [same a List.mem_cons_self]
      exact ih (next a) (fun b member => same b (List.mem_cons_of_mem a member)) linked.2

theorem linked_behind (next : α → Option α) (l r : List α) (b : α) : ∀ start, Linked next start (l ++ b :: r) →
    Linked next (next b) r := by
  induction l with
  | nil => exact fun _ linked => linked.2
  | cons a rest ih => exact fun _ linked => ih (next a) linked.2

-- No node comes twice: its two tails would be one list.
theorem linked_nodup (next : α → Option α) (l : List α) : ∀ start, Linked next start l → l.Nodup := by
  induction l with
  | nil => exact fun _ _ => List.nodup_nil
  | cons a rest ih =>
      intro start linked
      refine List.nodup_cons.mpr ⟨fun again => ?_, ih (next a) linked.2⟩
      obtain ⟨front, back, split⟩ := List.append_of_mem again
      have whole := linked.2
      have behind := linked_behind next front back a (next a) (split ▸ whole)
      have same := congrArg List.length (linked_unique next rest back (next a) whole behind)
      rw [split, List.length_append, List.length_cons] at same
      omega

-- The cell that a pointer to a link points to: the start of the list, or the link of a node.
inductive Cell (α : Type) where
  | start
  | link (a : α)
deriving DecidableEq, Repr

def peek (start : Option α) (next : α → Option α) : Cell α → Option α
  | .start => start
  | .link a => next a

-- The cell that points to what comes behind l.
def cellBehind (l : List α) : Cell α := (l.getLast?.map Cell.link).getD .start

theorem cell_behind_concat (l : List α) (a : α) : cellBehind (l ++ [a]) = .link a := by
  simp [cellBehind]

theorem peek_behind (next : α → Option α) (start : Option α) (l r : List α) (linked : Linked next start (l ++ r)) :
    Linked next (peek start next (cellBehind l)) r := by
  cases l using List.reverseRecOn with
  | nil => exact linked
  | append_singleton front a =>
      rw [cell_behind_concat]
      rw [List.append_assoc] at linked
      exact linked_behind next front r a start linked

-- A queue with pointers to its first and to its last node.
structure Queued (next : α → Option α) (first last : Option α) (l : List α) : Prop where
  linked : Linked next first l
  ends : last = l.getLast?

theorem queued_empty (next : α → Option α) : Queued next none none [] := ⟨rfl, rfl⟩

theorem queued_congr (next next' : α → Option α) (first last : Option α) (l : List α) (same : ∀ a ∈ l, next' a = next a)
    (queued : Queued next first last l) : Queued next' first last l :=
  ⟨linked_congr next next' l first same queued.linked, queued.ends⟩

theorem queued_nil_iff (next : α → Option α) (first last : Option α) (l : List α) (queued : Queued next first last l) :
    last = none ↔ l = [] := by
  rw [queued.ends, List.getLast?_eq_none_iff]

-- The first node is taken out.
theorem queued_pop (next : α → Option α) (first last : Option α) (l : List α) (a : α) (queued : Queued next first last l)
    (head : first = some a) :
    ∃ rest, l = a :: rest ∧ Queued next (next a) (if next a = none then none else last) rest := by
  obtain ⟨linked, ends⟩ := queued
  cases l with
  | nil =>
      rw [show first = none from linked] at head
      cases head
  | cons c rest =>
      obtain rfl : c = a := Option.some.inj (linked.1.symm.trans head)
      refine ⟨rest, rfl, linked.2, ?_⟩
      cases rest with
      | nil => exact if_pos linked.2
      | cons d rest =>
          have more : next c ≠ none := fun none_next => by cases none_next.symm.trans linked.2.1
          rw [if_neg more, ends, List.getLast?_cons_cons]

variable [DecidableEq α]

theorem linked_skip_rest (next : α → Option α) (front r : List α) (a b : α) (apart : a ∉ front)
    (tail : Linked (Function.update next a (next b)) (next b) r) : ∀ start, Linked next start (front ++ a :: b :: r) →
    Linked (Function.update next a (next b)) start (front ++ a :: r) := by
  induction front with
  | nil =>
      intro start linked
      refine ⟨linked.1, ?_⟩
      rw [Function.update_self]
      exact tail
  | cons c front ih =>
      intro start linked
      have other : c ≠ a := fun same => apart (same ▸ List.mem_cons_self)
      refine ⟨linked.1, ?_⟩
      rw [Function.update_of_ne other]
      exact ih (fun inside => apart (List.mem_cons_of_mem c inside)) (next c) linked.2

-- The node behind a is taken out by writing its link into that of a.
theorem linked_skip (next : α → Option α) (start : Option α) (front r : List α) (a b : α)
    (linked : Linked next start (front ++ a :: b :: r)) :
    Linked (Function.update next a (next b)) start (front ++ a :: r) := by
  have distinct := linked_nodup next _ start linked
  obtain ⟨-, inner, outer⟩ := List.nodup_append.mp distinct
  have apart : a ∉ front := fun inside => outer a inside a List.mem_cons_self rfl
  have behind : Linked next (next b) r := (linked_behind next front (b :: r) a start linked).2
  refine linked_skip_rest next front r a b apart ?_ start linked
  refine linked_congr next _ r (next b) (fun x member => Function.update_of_ne ?_ _ _) behind
  rintro rfl
  exact (List.nodup_cons.mp inner).1 (List.mem_cons_of_mem b member)

theorem linked_append_node (next : α → Option α) (l : List α) (b a : α) (distinct : (l ++ [b]).Nodup) (fresh : a ∉ l ++ [b]) :
    ∀ first, Linked next first (l ++ [b]) → next a = none → Linked (Function.update next b (some a)) first (l ++ [b] ++ [a]) := by
  intro first linked last
  induction l generalizing first with
  | nil =>
      have other : a ≠ b := fun same => fresh (List.mem_singleton.mpr same)
      refine ⟨linked.1, ?_, ?_⟩
      · rw [Function.update_self]
      · rw [Function.update_of_ne other]
        exact last
  | cons c rest ih =>
      obtain ⟨apart, distinct⟩ := List.nodup_cons.mp distinct
      have other : c ≠ b := fun same => apart (List.mem_append_right _ (List.mem_singleton.mpr same))
      refine ⟨linked.1, ?_⟩
      rw [Function.update_of_ne other]
      exact ih distinct (fun inside => fresh (List.mem_cons_of_mem _ inside)) (next c) linked.2

-- A node is put behind the last one, if there is any.
theorem queued_back (next : α → Option α) (first last : Option α) (l : List α) (a b : α) (fresh : a ∉ l)
    (queued : Queued next first last l) (some_last : last = some b) :
    Queued (Function.update (Function.update next a none) b (some a)) first (some a) (l ++ [a]) := by
  have ends : l.getLast? = some b := queued.ends.symm.trans some_last
  obtain ⟨front, rfl⟩ := List.getLast?_eq_some_iff.mp ends
  refine ⟨?_, by simp⟩
  have kept : Linked (Function.update next a none) first (front ++ [b]) :=
    linked_congr next _ _ first (fun c member => Function.update_of_ne (ne_of_mem_of_not_mem member fresh) _ _) queued.linked
  exact linked_append_node _ front b a (linked_nodup next _ first queued.linked) fresh first kept (Function.update_self ..)

theorem queued_single (next : α → Option α) (a : α) : Queued (Function.update next a none) (some a) (some a) [a] :=
  ⟨⟨rfl, Function.update_self ..⟩, rfl⟩

theorem queued_front (next : α → Option α) (first last : Option α) (l : List α) (a : α) (fresh : a ∉ l)
    (queued : Queued next first last l) :
    Queued (Function.update next a first) (some a) (if last = none then some a else last) (a :: l) := by
  refine ⟨⟨rfl, ?_⟩, ?_⟩
  · rw [Function.update_self]
    exact linked_congr next _ l first (fun c member => Function.update_of_ne (ne_of_mem_of_not_mem member fresh) _ _) queued.linked
  · cases l with
    | nil => exact if_pos queued.ends
    | cons c rest =>
        have some_last : last ≠ none := fun none_last => by cases (queued_nil_iff next first last _ queued).mp none_last
        rw [if_neg some_last, queued.ends, List.getLast?_cons_cons]

-- The last node is cut off.
theorem queued_cut (next : α → Option α) (first last : Option α) (front : List α) (b a : α)
    (queued : Queued next first last (front ++ [b, a])) : Queued (Function.update next b none) first (some b) (front ++ [b]) := by
  have linked := queued.linked
  have ends : next a = none := by
    rw [List.append_cons] at linked
    exact linked_behind next (front ++ [b]) [] a first linked
  refine ⟨?_, (List.getLast?_concat ..).symm⟩
  rw [← ends]
  exact linked_skip next first front [] b a linked

end Singly
