import Mathlib

set_option autoImplicit false

namespace Delta

-- An entry of a callout list: gap is how long after its predecessor it is due.
structure Entry (κ : Type) where
  key : κ
  gap : Int
deriving DecidableEq, Repr

section Lists

variable {κ : Type}

-- When each entry is due, counted from start.
def due : Int → List (Entry κ) → List (κ × Int)
  | _, [] => []
  | start, cur :: rest => (cur.key, start + cur.gap) :: due (start + cur.gap) rest

def addFirst (c : Int) : List (Entry κ) → List (Entry κ)
  | [] => []
  | cur :: rest => { cur with gap := cur.gap + c } :: rest

-- The new entry goes behind those due at the same time.
def insertAfter (key : κ) : Int → List (Entry κ) → List (Entry κ)
  | delta, [] => [⟨key, delta⟩]
  | delta, cur :: rest =>
      if cur.gap ≤ delta then cur :: insertAfter key (delta - cur.gap) rest
      else ⟨key, delta⟩ :: { cur with gap := cur.gap - delta } :: rest

-- The new entry goes before those due at the same time.
def insertBefore (key : κ) : Int → List (Entry κ) → List (Entry κ)
  | delta, [] => [⟨key, delta⟩]
  | delta, cur :: rest =>
      if delta ≤ cur.gap then ⟨key, delta⟩ :: { cur with gap := cur.gap - delta } :: rest
      else cur :: insertBefore key (delta - cur.gap) rest

-- The first entry that matches is taken out; its successor is due when it was.
def remove (which : κ → Bool) : List (Entry κ) → List (Entry κ)
  | [] => []
  | cur :: rest => if which cur.key then addFirst cur.gap rest else cur :: remove which rest

-- All that match are taken out; c is what the successor of those just taken out is credited with.
def removeAll (which : κ → Bool) : Int → List (Entry κ) → List (Entry κ)
  | _, [] => []
  | c, cur :: rest =>
      if which cur.key then removeAll which (c + cur.gap) rest else { cur with gap := cur.gap + c } :: removeAll which 0 rest

-- The first entry that matches is taken out and put in again later, for delta after start.
def move (which : κ → Bool) : Int → List (Entry κ) → List (Entry κ)
  | _, [] => []
  | delta, cur :: rest =>
      if which cur.key then insertAfter cur.key delta (addFirst cur.gap rest)
      else cur :: move which (delta - cur.gap) rest

-- How long after start the first entry that matches is due.
def timeOf (which : κ → Bool) : Int → List (Entry κ) → Option Int
  | _, [] => none
  | start, cur :: rest => if which cur.key then some (start + cur.gap) else timeOf which (start + cur.gap) rest

@[simp] theorem due_nil (start : Int) : due start ([] : List (Entry κ)) = [] := rfl

@[simp] theorem due_cons (start : Int) (cur : Entry κ) (rest : List (Entry κ)) :
    due start (cur :: rest) = (cur.key, start + cur.gap) :: due (start + cur.gap) rest := rfl

theorem due_eq_nil (start : Int) (l : List (Entry κ)) : due start l = [] ↔ l = [] := by
  cases l <;> simp

@[simp] theorem due_add_first (start c : Int) (l : List (Entry κ)) : due start (addFirst c l) = due (start + c) l := by
  cases l with
  | nil => rfl
  | cons cur rest =>
      have same : start + (cur.gap + c) = start + c + cur.gap := by ring
      simp only [addFirst, due_cons, same]

theorem due_shift (c : Int) (l : List (Entry κ)) : ∀ start : Int, due (start + c) l = (due start l).map fun x => (x.1, x.2 + c) := by
  induction l with
  | nil => exact fun _ => rfl
  | cons cur rest next =>
      intro start
      have same : start + c + cur.gap = start + cur.gap + c := by ring
      rw [due_cons, due_cons, List.map_cons, same, next]

theorem time_of_shift (which : κ → Bool) (c : Int) (l : List (Entry κ)) : ∀ start : Int,
    timeOf which (start + c) l = (timeOf which start l).map fun time => time + c := by
  induction l with
  | nil => exact fun _ => rfl
  | cons cur rest next =>
      intro start
      have same : start + c + cur.gap = start + cur.gap + c := by ring
      rw [timeOf, timeOf, same, next]
      split <;> rfl

theorem due_insert_after (key : κ) (l : List (Entry κ)) : ∀ start delta : Int,
    (due start (insertAfter key delta l)).Perm ((key, start + delta) :: due start l) := by
  induction l with
  | nil => exact fun _ _ => List.Perm.refl _
  | cons cur rest next =>
      intro start delta
      by_cases later : cur.gap ≤ delta
      · have place := next (start + cur.gap) (delta - cur.gap)
        have same : start + cur.gap + (delta - cur.gap) = start + delta := by ring
        rw [same] at place
        rw [insertAfter, if_pos later, due_cons, due_cons]
        exact (place.cons _).trans (List.Perm.swap ..)
      · have same : start + delta + (cur.gap - delta) = start + cur.gap := by ring
        rw [insertAfter, if_neg later]
        simp only [due_cons, same]
        exact List.Perm.refl _

theorem due_insert_before (key : κ) (l : List (Entry κ)) : ∀ start delta : Int,
    (due start (insertBefore key delta l)).Perm ((key, start + delta) :: due start l) := by
  induction l with
  | nil => exact fun _ _ => List.Perm.refl _
  | cons cur rest next =>
      intro start delta
      by_cases sooner : delta ≤ cur.gap
      · have same : start + delta + (cur.gap - delta) = start + cur.gap := by ring
        rw [insertBefore, if_pos sooner]
        simp only [due_cons, same]
        exact List.Perm.refl _
      · have place := next (start + cur.gap) (delta - cur.gap)
        have same : start + cur.gap + (delta - cur.gap) = start + delta := by ring
        rw [same] at place
        rw [insertBefore, if_neg sooner, due_cons, due_cons]
        exact (place.cons _).trans (List.Perm.swap ..)

theorem due_remove (which : κ → Bool) (l : List (Entry κ)) : ∀ start : Int,
    due start (remove which l) = (due start l).eraseP fun x => which x.1 := by
  induction l with
  | nil => exact fun _ => rfl
  | cons cur rest next =>
      intro start
      by_cases here : which cur.key
      · rw [remove, if_pos here, due_add_first, due_cons, List.eraseP_cons, here, cond_true]
      · rw [remove, if_neg here, due_cons, due_cons, List.eraseP_cons, eq_false_of_ne_true here, cond_false, next]

theorem due_remove_all (which : κ → Bool) (l : List (Entry κ)) : ∀ start c : Int,
    due start (removeAll which c l) = (due (start + c) l).filter fun x => !which x.1 := by
  induction l with
  | nil => exact fun _ _ => rfl
  | cons cur rest next =>
      intro start c
      have sum : start + (c + cur.gap) = start + c + cur.gap := by ring
      by_cases here : which cur.key
      · rw [removeAll, if_pos here, next, due_cons, List.filter_cons_of_neg (by simp [here]), sum]
      · have credit : start + (cur.gap + c) = start + c + cur.gap := by ring
        rw [removeAll, if_neg here, due_cons, due_cons, List.filter_cons_of_pos (by simp [here]), next, credit, add_zero]

theorem due_move (which : κ → Bool) (l : List (Entry κ)) (time : Int) : ∀ start delta : Int, timeOf which start l = some time →
    ∃ key, which key ∧ (key, time) ∈ due start l ∧
      (due start (move which delta l)).Perm ((key, start + delta) :: (due start l).eraseP fun x => which x.1) := by
  induction l with
  | nil => exact fun _ _ found => by cases found
  | cons cur rest next =>
      intro start delta found
      by_cases here : which cur.key
      · rw [timeOf, if_pos here] at found
        cases found
        refine ⟨cur.key, here, List.mem_cons_self .., ?_⟩
        rw [move, if_pos here, due_cons, List.eraseP_cons, here, cond_true, ← due_add_first]
        exact due_insert_after cur.key _ start delta
      · rw [timeOf, if_neg here] at found
        obtain ⟨key, same, member, place⟩ := next (start + cur.gap) (delta - cur.gap) found
        have sum : start + cur.gap + (delta - cur.gap) = start + delta := by ring
        rw [sum] at place
        refine ⟨key, same, List.mem_cons_of_mem _ member, ?_⟩
        rw [move, if_neg here, due_cons, due_cons, List.eraseP_cons, eq_false_of_ne_true here, cond_false]
        exact (place.cons _).trans (List.Perm.swap ..)

theorem due_keys (l : List (Entry κ)) : ∀ start : Int, (due start l).map Prod.fst = l.map Entry.key := by
  induction l with
  | nil => exact fun _ => rfl
  | cons cur rest next =>
      intro start
      rw [due_cons, List.map_cons, List.map_cons, next]

theorem keys_add_first (c : Int) (l : List (Entry κ)) : (addFirst c l).map Entry.key = l.map Entry.key := by
  cases l <;> rfl

theorem keys_insert_after (key : κ) (delta : Int) (l : List (Entry κ)) :
    ((insertAfter key delta l).map Entry.key).Perm (key :: l.map Entry.key) := by
  have place := (due_insert_after key l 0 delta).map Prod.fst
  rwa [due_keys, List.map_cons, due_keys] at place

theorem keys_insert_before (key : κ) (delta : Int) (l : List (Entry κ)) :
    ((insertBefore key delta l).map Entry.key).Perm (key :: l.map Entry.key) := by
  have place := (due_insert_before key l 0 delta).map Prod.fst
  rwa [due_keys, List.map_cons, due_keys] at place

theorem keys_remove (which : κ → Bool) (l : List (Entry κ)) : (remove which l).map Entry.key = (l.map Entry.key).eraseP which := by
  rw [← due_keys _ 0, due_remove, ← due_keys l 0, List.eraseP_map]
  rfl

theorem remove_absent [DecidableEq κ] (key : κ) (l : List (Entry κ)) (absent : key ∉ l.map Entry.key) :
    remove (fun k => k = key) l = l := by
  induction l with
  | nil => rfl
  | cons cur rest next =>
      rw [List.map_cons, List.mem_cons, not_or] at absent
      rw [remove, if_neg (by simpa using Ne.symm absent.1), next absent.2]

theorem add_first_zero (l : List (Entry κ)) : addFirst 0 l = l := by
  cases l with
  | nil => rfl
  | cons cur rest => rw [addFirst, add_zero]

theorem keys_remove_all (which : κ → Bool) (c : Int) (l : List (Entry κ)) :
    (removeAll which c l).map Entry.key = (l.map Entry.key).filter fun k => !which k := by
  rw [← due_keys _ 0, due_remove_all, ← due_keys l (0 + c), List.filter_map]
  rfl

-- Whoever is due first comes first.
def Sorted (l : List (Entry κ)) : Prop := (due 0 l).Pairwise fun x y => x.2 ≤ y.2

theorem sorted_iff (start : Int) (l : List (Entry κ)) : Sorted l ↔ (due start l).Pairwise fun x y => x.2 ≤ y.2 := by
  have moved := due_shift start l 0
  rw [zero_add] at moved
  rw [moved, List.pairwise_map, Sorted]
  simp only [add_le_add_iff_right]

theorem sorted_cons (start : Int) (cur : Entry κ) (rest : List (Entry κ)) :
    Sorted (cur :: rest) ↔ (∀ x ∈ due (start + cur.gap) rest, start + cur.gap ≤ x.2) ∧ Sorted rest := by
  rw [sorted_iff start, sorted_iff (start + cur.gap) rest, due_cons, List.pairwise_cons]

theorem sorted_add_first (c : Int) (l : List (Entry κ)) : Sorted (addFirst c l) ↔ Sorted l := by
  rw [Sorted, due_add_first, ← sorted_iff]

theorem sorted_remove (which : κ → Bool) (l : List (Entry κ)) (sorted : Sorted l) : Sorted (remove which l) := by
  rw [Sorted, due_remove]
  exact List.Pairwise.sublist List.eraseP_sublist sorted

theorem sorted_insert_after (key : κ) (l : List (Entry κ)) : ∀ delta : Int, Sorted l → Sorted (insertAfter key delta l) := by
  induction l with
  | nil => exact fun _ _ => List.pairwise_singleton ..
  | cons cur rest next =>
      intro delta sorted
      obtain ⟨first, later⟩ := (sorted_cons 0 cur rest).mp sorted
      by_cases behind : cur.gap ≤ delta
      · rw [insertAfter, if_pos behind]
        refine (sorted_cons 0 _ _).mpr ⟨fun x member => ?_, next _ later⟩
        rcases List.mem_cons.mp ((due_insert_after key rest _ (delta - cur.gap)).mem_iff.mp member) with rfl | old
        · change 0 + cur.gap ≤ 0 + cur.gap + (delta - cur.gap)
          omega
        · exact first x old
      · have same : 0 + delta + (cur.gap - delta) = 0 + cur.gap := by ring
        have sooner : 0 + delta ≤ 0 + cur.gap := by omega
        rw [insertAfter, if_neg behind]
        refine (sorted_cons 0 _ _).mpr ⟨fun x member => ?_, ?_⟩
        · simp only [due_cons, same] at member
          rcases List.mem_cons.mp member with rfl | old
          · exact sooner
          · exact sooner.trans (first x old)
        · have moved := (sorted_add_first (-delta) (cur :: rest)).mpr sorted
          simpa only [addFirst, sub_eq_add_neg] using moved

theorem sorted_remove_all (which : κ → Bool) (l : List (Entry κ)) (sorted : Sorted l) : Sorted (removeAll which 0 l) := by
  rw [Sorted, due_remove_all, add_zero]
  exact List.Pairwise.sublist List.filter_sublist sorted

theorem sorted_insert_before (key : κ) (l : List (Entry κ)) : ∀ delta : Int, Sorted l → Sorted (insertBefore key delta l) := by
  induction l with
  | nil => exact fun _ _ => List.pairwise_singleton ..
  | cons cur rest next =>
      intro delta sorted
      obtain ⟨first, later⟩ := (sorted_cons 0 cur rest).mp sorted
      by_cases ahead : delta ≤ cur.gap
      · have same : 0 + delta + (cur.gap - delta) = 0 + cur.gap := by ring
        have sooner : 0 + delta ≤ 0 + cur.gap := by omega
        rw [insertBefore, if_pos ahead]
        refine (sorted_cons 0 _ _).mpr ⟨fun x member => ?_, ?_⟩
        · simp only [due_cons, same] at member
          rcases List.mem_cons.mp member with rfl | old
          · exact sooner
          · exact sooner.trans (first x old)
        · have moved := (sorted_add_first (-delta) (cur :: rest)).mpr sorted
          simpa only [addFirst, sub_eq_add_neg] using moved
      · rw [insertBefore, if_neg ahead]
        refine (sorted_cons 0 _ _).mpr ⟨fun x member => ?_, next _ later⟩
        rcases List.mem_cons.mp ((due_insert_before key rest _ (delta - cur.gap)).mem_iff.mp member) with rfl | old
        · change 0 + cur.gap ≤ 0 + cur.gap + (delta - cur.gap)
          omega
        · exact first x old

-- Moving an entry to a later time keeps the order.
theorem sorted_move (which : κ → Bool) (l : List (Entry κ)) (time : Int) : ∀ start delta : Int, Sorted l →
    timeOf which start l = some time → time ≤ start + delta → Sorted (move which delta l) := by
  induction l with
  | nil => exact fun _ _ _ found => by cases found
  | cons cur rest next =>
      intro start delta sorted found later
      obtain ⟨first, tail⟩ := (sorted_cons start cur rest).mp sorted
      by_cases here : which cur.key
      · rw [move, if_pos here]
        exact sorted_insert_after cur.key _ delta ((sorted_add_first _ _).mpr tail)
      · rw [timeOf, if_neg here] at found
        have sum : start + cur.gap + (delta - cur.gap) = start + delta := by ring
        obtain ⟨key, _, member, place⟩ := due_move which rest time (start + cur.gap) (delta - cur.gap) found
        rw [sum] at place
        rw [move, if_neg here]
        refine (sorted_cons start _ _).mpr ⟨fun x inMoved => ?_, next (start + cur.gap) _ tail found (sum.symm ▸ later)⟩
        rcases List.mem_cons.mp (place.mem_iff.mp inMoved) with rfl | old
        · exact (first _ member).trans later
        · exact first x (List.mem_of_mem_eraseP old)

-- Moving an entry to a later time is taking it out and putting it in again.
theorem move_eq [DecidableEq κ] (key : κ) (l : List (Entry κ)) (time : Int) : ∀ start delta : Int, Sorted l →
    timeOf (fun k => k = key) start l = some time → time ≤ start + delta →
      move (fun k => k = key) delta l = insertAfter key delta (remove (fun k => k = key) l) := by
  induction l with
  | nil => exact fun _ _ _ found => by cases found
  | cons cur rest next =>
      intro start delta sorted found later
      obtain ⟨first, tail⟩ := (sorted_cons start cur rest).mp sorted
      by_cases here : cur.key = key
      · rw [move, remove, if_pos (decide_eq_true here), if_pos (decide_eq_true here), here]
      · have elsewhere : ¬ decide (cur.key = key) = true := by simpa using here
        rw [timeOf, if_neg elsewhere] at found
        have sum : start + cur.gap + (delta - cur.gap) = start + delta := by ring
        obtain ⟨_, _, member, _⟩ := due_move _ rest time (start + cur.gap) (delta - cur.gap) found
        have sooner : start + cur.gap ≤ time := first _ member
        rw [move, remove, if_neg elsewhere, if_neg elsewhere, insertAfter, if_pos (by omega),
          next (start + cur.gap) _ tail found (sum.symm ▸ later)]

end Lists

end Delta
