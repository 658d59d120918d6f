import MagxNet.Lib.Delta

set_option autoImplicit false

namespace Callout

open Delta

-- Something that is set for a time; number says how many have been set before it.
structure Item (κ : Type) where
  key : κ
  time : Int
  number : Nat
deriving DecidableEq, Repr

-- Who goes first among those that are set for the same time.
inductive Ties where
  | oldestFirst
  | newestFirst
deriving DecidableEq, Repr

-- pending lists those of the same time in the order in which they are to be called. The other lists
-- record what has been called in its time, what was called when it was set, and what was withdrawn.
structure Agenda (κ : Type) where
  now : Int
  pending : List (Item κ)
  count : Nat
  called : List (Item κ)
  atOnce : List (Item κ)
  withdrawn : List (Item κ)
deriving DecidableEq, Repr

section Operations

variable {κ : Type}

def new : Agenda κ := ⟨0, [], 0, [], [], []⟩

def Ties.put : Ties → Item κ → List (Item κ) → List (Item κ)
  | .oldestFirst, x, l => l ++ [x]
  | .newestFirst, x, l => x :: l

def wait (d : Nat) (a : Agenda κ) : Agenda κ := { a with now := a.now + d }

def withdraw (which : κ → Bool) (a : Agenda κ) : Agenda κ :=
  { a with
    pending := a.pending.filter fun x => !which x.key, withdrawn := a.withdrawn ++ a.pending.filter fun x => which x.key }

-- The first of those that nobody is due before.
def next (l : List (Item κ)) : Option (Item κ) := l.find? fun x => l.all fun y => x.time ≤ y.time

-- Nothing is due.
def rest (a : Agenda κ) : Option (Agenda κ) := if a.pending.all fun x => a.now < x.time then some a else none

variable [DecidableEq κ]

def set (ties : Ties) (key : κ) (delta : Int) (a : Agenda κ) : Agenda κ :=
  let a := withdraw (fun k => k = key) a
  { a with pending := ties.put ⟨key, a.now + delta, a.count⟩ a.pending, count := a.count + 1 }

def setAtOnce (key : κ) (delta : Int) (a : Agenda κ) : Agenda κ :=
  let a := withdraw (fun k => k = key) a
  { a with atOnce := a.atOnce ++ [⟨key, a.now + delta, a.count⟩], count := a.count + 1 }

def call (key : κ) (a : Agenda κ) : Option (Agenda κ) :=
  match next a.pending with
  | none => none
  | some x =>
      if x.key = key ∧ x.time ≤ a.now then
        some { a with pending := a.pending.filter fun y => !decide (y.key = key), called := a.called ++ [x] }
      else none

def deadline (a : Agenda κ) (key : κ) : Option Int := (a.pending.find? fun x => x.key = key).map Item.time

end Operations

section Invariants

variable {κ : Type}

-- Whatever was set has been called once, or withdrawn, or is pending.
structure Kept (a : Agenda κ) : Prop where
  keys : (a.pending.map Item.key).Nodup
  account : ((a.called ++ a.atOnce ++ a.withdrawn ++ a.pending).map Item.number).Perm (List.range a.count)

-- Calls come in the order of their times.
structure InOrder (a : Agenda κ) : Prop where
  past : ∀ x ∈ a.called, x.time ≤ a.now
  order : a.called.Pairwise fun x y => x.time ≤ y.time
  ahead : ∀ x ∈ a.called, ∀ y ∈ a.pending, x.time ≤ y.time

-- Those of the same time come in the order in which they were set.
structure Fifo (a : Agenda κ) : Prop where
  pending : a.pending.Pairwise fun x y => x.number < y.number
  called : a.called.Pairwise fun x y => x.time = y.time → x.number < y.number
  ahead : ∀ x ∈ a.called, ∀ y ∈ a.pending, x.time = y.time → x.number < y.number

theorem next_spec (l : List (Item κ)) (x : Item κ) (found : next l = some x) :
    x ∈ l ∧ (∀ y ∈ l, x.time ≤ y.time) ∧
      ∃ before after, l = before ++ x :: after ∧ ∀ y ∈ before, x.time < y.time := by
  obtain ⟨least, before, after, split, others⟩ := List.find?_eq_some_iff_append.mp found
  have bound : ∀ y ∈ l, x.time ≤ y.time := by simpa using least
  refine ⟨split ▸ List.mem_append_right _ (List.mem_cons_self ..), bound, before, after, split, fun y member => ?_⟩
  have more : ∃ z ∈ l, z.time < y.time := by simpa using others y member
  obtain ⟨z, inside, sooner⟩ := more
  exact (bound z inside).trans_lt sooner

theorem number_lt (a : Agenda κ) (kept : Kept a) : ∀ x ∈ a.called ++ a.atOnce ++ a.withdrawn ++ a.pending, x.number < a.count :=
  fun _ member => List.mem_range.mp (kept.account.mem_iff.mp (List.mem_map_of_mem member))

theorem kept_new : Kept (new : Agenda κ) := ⟨List.nodup_nil, List.Perm.refl _⟩

theorem in_order_new : InOrder (new : Agenda κ) :=
  ⟨fun _ member => absurd member List.not_mem_nil, List.Pairwise.nil, fun _ member => absurd member List.not_mem_nil⟩

theorem fifo_new : Fifo (new : Agenda κ) :=
  ⟨List.Pairwise.nil, List.Pairwise.nil, fun _ member => absurd member List.not_mem_nil⟩

section Wait

variable (d : Nat) (a : Agenda κ)

theorem wait_zero : wait 0 a = a := by
  rw [wait, Nat.cast_zero, add_zero]

theorem wait_kept (kept : Kept a) : Kept (wait d a) := ⟨kept.keys, kept.account⟩

theorem wait_in_order (inOrder : InOrder a) : InOrder (wait d a) := by
  refine ⟨fun x member => ?_, inOrder.order, inOrder.ahead⟩
  have before := inOrder.past x member
  dsimp only [wait]
  omega

theorem wait_fifo (fifo : Fifo a) : Fifo (wait d a) := ⟨fifo.pending, fifo.called, fifo.ahead⟩

end Wait

section Withdraw

variable (which : κ → Bool) (a : Agenda κ)

theorem withdraw_kept (kept : Kept a) : Kept (withdraw which a) := by
  refine ⟨kept.keys.sublist (List.filter_sublist.map _), (List.Perm.map _ ?_).trans kept.account⟩
  have split := List.filter_append_perm (fun x : Item κ => which x.key) a.pending
  dsimp only [withdraw]
  rw [← List.append_assoc, List.append_assoc]
  exact split.append_left _

theorem withdraw_in_order (inOrder : InOrder a) : InOrder (withdraw which a) :=
  ⟨inOrder.past, inOrder.order, fun x member y inside => inOrder.ahead x member y (List.mem_of_mem_filter inside)⟩

theorem withdraw_fifo (fifo : Fifo a) : Fifo (withdraw which a) :=
  ⟨fifo.pending.sublist List.filter_sublist, fifo.called,
    fun x member y inside => fifo.ahead x member y (List.mem_of_mem_filter inside)⟩

end Withdraw

theorem account_cons (x : Item κ) (l l' : List (Item κ)) (more : l'.Perm (x :: l))
    (account : (l.map Item.number).Perm (List.range x.number)) : (l'.map Item.number).Perm (List.range (x.number + 1)) := by
  refine (more.map Item.number).trans ?_
  rw [List.map_cons, List.range_succ]
  exact (account.cons x.number).trans (List.perm_append_singleton _ _).symm

theorem put_perm (ties : Ties) (x : Item κ) (l : List (Item κ)) : (ties.put x l).Perm (x :: l) := by
  cases ties with
  | oldestFirst => exact List.perm_append_singleton x l
  | newestFirst => exact List.Perm.refl _

variable [DecidableEq κ]

theorem filter_gone (key : κ) (l : List (Item κ)) : key ∉ (l.filter fun x => !decide (x.key = key)).map Item.key := by
  intro inside
  obtain ⟨x, member, same⟩ := List.mem_map.mp inside
  simpa [same] using (List.mem_filter.mp member).2

section Set

variable (ties : Ties) (key : κ) (delta : Int) (a : Agenda κ)

theorem set_kept (kept : Kept a) : Kept (set ties key delta a) := by
  have before := withdraw_kept (fun k => decide (k = key)) a kept
  have placed := put_perm ties ⟨key, a.now + delta, a.count⟩ (a.pending.filter fun x => !decide (x.key = key))
  refine ⟨(placed.map Item.key).symm.nodup (List.nodup_cons.mpr ⟨filter_gone key a.pending, before.keys⟩), ?_⟩
  exact account_cons ⟨key, a.now + delta, a.count⟩ _ _ ((placed.append_left _).trans List.perm_middle) before.account

theorem set_in_order (later : ∀ x ∈ a.called, x.time ≤ a.now + delta) (inOrder : InOrder a) : InOrder (set ties key delta a) := by
  refine ⟨inOrder.past, inOrder.order, fun x member y inside => ?_⟩
  rcases List.mem_cons.mp ((put_perm ties _ _).mem_iff.mp inside) with rfl | old
  · exact later x member
  · exact inOrder.ahead x member y (List.mem_of_mem_filter old)

theorem set_fifo (later : ∀ x ∈ a.called, x.time < a.now + delta) (kept : Kept a) (fifo : Fifo a) :
    Fifo (set .oldestFirst key delta a) := by
  refine ⟨?_, fifo.called, fun x member y inside => ?_⟩
  · refine List.pairwise_append.mpr ⟨fifo.pending.sublist List.filter_sublist, List.pairwise_singleton .., fun x member y inside => ?_⟩
    rw [List.mem_singleton.mp inside]
    exact number_lt a kept x (List.mem_append_right _ (List.mem_of_mem_filter member))
  · rcases List.mem_cons.mp ((put_perm .oldestFirst _ _).mem_iff.mp inside) with rfl | old
    · exact fun same => absurd same (later x member).ne
    · exact fifo.ahead x member y (List.mem_of_mem_filter old)

theorem set_at_once_kept (kept : Kept a) : Kept (setAtOnce key delta a) := by
  have before := withdraw_kept (fun k => decide (k = key)) a kept
  refine ⟨before.keys, account_cons ⟨key, a.now + delta, a.count⟩ _ _ ?_ before.account⟩
  dsimp only [setAtOnce]
  simp only [List.append_assoc, List.singleton_append]
  rw [← List.append_assoc]
  exact List.perm_middle.trans (List.Perm.of_eq (by simp [withdraw]))

theorem set_at_once_in_order (inOrder : InOrder a) : InOrder (setAtOnce key delta a) :=
  let before := withdraw_in_order (fun k => decide (k = key)) a inOrder
  ⟨before.past, before.order, before.ahead⟩

theorem set_at_once_fifo (fifo : Fifo a) : Fifo (setAtOnce key delta a) :=
  let before := withdraw_fifo (fun k => decide (k = key)) a fifo
  ⟨before.pending, before.called, before.ahead⟩

end Set

theorem call_spec (key : κ) (a a' : Agenda κ) (run : call key a = some a') :
    ∃ x, next a.pending = some x ∧ x.key = key ∧ x.time ≤ a.now ∧
      a' = { a with pending := a.pending.filter fun y => !decide (y.key = key), called := a.called ++ [x] } := by
  rw [call] at run
  split at run
  · cases run
  · rename_i x found
    split at run
    · rename_i due
      cases run
      exact ⟨x, found, due.1, due.2, rfl⟩
    · cases run

-- Taking out the key of an item takes out the item.
theorem filter_key (x : Item κ) (before after : List (Item κ)) (keys : ((before ++ x :: after).map Item.key).Nodup) :
    (before ++ x :: after).filter (fun y => !decide (y.key = x.key)) = before ++ after := by
  have split := (List.perm_middle.map Item.key).nodup keys
  rw [List.map_cons, List.nodup_cons] at split
  have others : ∀ y ∈ before ++ after, (!decide (y.key = x.key)) = true := by
    intro y member
    have apart : y.key ≠ x.key := fun same => split.1 (same ▸ List.mem_map_of_mem member)
    simp [apart]
  rw [List.filter_append, List.filter_cons_of_neg (by simp), ← List.filter_append]
  exact List.filter_eq_self.mpr others

section Call

variable (key : κ) (a a' : Agenda κ)

theorem call_kept (kept : Kept a) (run : call key a = some a') : Kept a' := by
  obtain ⟨x, found, rfl, _, rfl⟩ := call_spec key a a' run
  obtain ⟨_, _, before, after, split, _⟩ := next_spec a.pending x found
  refine ⟨kept.keys.sublist (List.filter_sublist.map _), (List.Perm.map _ ?_).trans kept.account⟩
  dsimp only
  rw [split, filter_key x before after (split ▸ kept.keys)]
  simp only [List.append_assoc, List.singleton_append]
  refine List.Perm.append_left a.called ?_
  rw [← List.append_assoc, ← List.append_assoc, ← List.append_assoc a.atOnce, ← List.append_assoc (a.atOnce ++ a.withdrawn)]
  exact List.perm_middle.symm

theorem call_in_order (inOrder : InOrder a) (run : call key a = some a') : InOrder a' := by
  obtain ⟨x, found, rfl, due, rfl⟩ := call_spec key a a' run
  obtain ⟨member, least, _⟩ := next_spec a.pending x found
  refine ⟨fun y inside => ?_, ?_, fun y inside z other => ?_⟩
  · rcases List.mem_append.mp inside with old | fresh
    · exact inOrder.past y old
    · exact (List.mem_singleton.mp fresh) ▸ due
  · refine List.pairwise_append.mpr ⟨inOrder.order, List.pairwise_singleton .., fun y inside z fresh => ?_⟩
    rw [List.mem_singleton.mp fresh]
    exact inOrder.ahead y inside x member
  · have pending := List.mem_of_mem_filter other
    rcases List.mem_append.mp inside with old | fresh
    · exact inOrder.ahead y old z pending
    · exact (List.mem_singleton.mp fresh) ▸ least z pending

theorem call_fifo (kept : Kept a) (fifo : Fifo a) (run : call key a = some a') : Fifo a' := by
  obtain ⟨x, found, rfl, due, rfl⟩ := call_spec key a a' run
  obtain ⟨member, least, before, after, split, sooner⟩ := next_spec a.pending x found
  have order := fifo.pending
  rw [split] at order
  have ordered := (List.pairwise_append.mp order).2.1
  refine ⟨fifo.pending.sublist List.filter_sublist, ?_, fun y inside z other same => ?_⟩
  · refine List.pairwise_append.mpr ⟨fifo.called, List.pairwise_singleton .., fun y inside z fresh => ?_⟩
    rw [List.mem_singleton.mp fresh]
    exact fifo.ahead y inside x member
  · have pending := List.mem_of_mem_filter other
    rcases List.mem_append.mp inside with old | fresh
    · exact fifo.ahead y old z pending same
    · obtain rfl := List.mem_singleton.mp fresh
      dsimp only at other
      rw [split, filter_key y before after (split ▸ kept.keys)] at other
      rcases List.mem_append.mp other with front | back
      · exact absurd same (sooner z front).ne
      · exact (List.pairwise_cons.mp ordered).1 z back

end Call

end Invariants

section Deltas

variable {κ : Type}

def timed (x : Item κ) : κ × Int := (x.key, x.time)

-- The entries of a callout list, counted from now, are what is pending; those due at the same time come in
-- the same order.
structure Shows (now : Int) (events : List (Entry κ)) (pending : List (Item κ)) : Prop where
  sorted : Sorted events
  keys : (events.map Entry.key).Nodup
  same : ∀ time, ((due now events).filter fun x => x.2 = time) = (pending.filter fun x => x.time = time).map timed

theorem shows_mem (now : Int) (events : List (Entry κ)) (pending : List (Item κ)) (shows' : Shows now events pending) (x : κ × Int) :
    x ∈ due now events ↔ ∃ y ∈ pending, timed y = x := by
  have at_time := congrArg (x ∈ ·) (shows'.same x.2)
  simp only [List.mem_filter, List.mem_map, decide_true, and_true, decide_eq_true_eq] at at_time
  rw [at_time]
  refine ⟨fun ⟨y, inside, same⟩ => ⟨y, inside.1, same⟩, fun ⟨y, inside, same⟩ => ⟨y, ⟨inside, ?_⟩, same⟩⟩
  rw [← same]
  rfl

theorem shows_wait (now d : Int) (events : List (Entry κ)) (pending : List (Item κ)) (shows' : Shows now events pending) :
    Shows (now + d) (addFirst (-d) events) pending := by
  refine ⟨(sorted_add_first _ _).mpr shows'.sorted, (keys_add_first (-d) events).symm ▸ shows'.keys, fun time => ?_⟩
  rw [due_add_first, add_neg_cancel_right]
  exact shows'.same time

theorem erase_eq_filter (which : κ → Bool) (l : List (κ × Int))
    (one : l.Pairwise fun x y => which x.1 = true → which y.1 = false) :
    (l.eraseP fun x => which x.1) = l.filter fun x => !which x.1 := by
  induction l with
  | nil => rfl
  | cons x rest next =>
      obtain ⟨apart, later⟩ := List.pairwise_cons.mp one
      rw [List.eraseP_cons]
      by_cases here : which x.1
      · rw [here, cond_true, List.filter_cons_of_neg (by simp [here])]
        exact (List.filter_eq_self.mpr fun y member => by simp [apart y member here]).symm
      · rw [eq_false_of_ne_true here, cond_false, List.filter_cons_of_pos (by simp [here]), next later]

theorem shows_remove (which : κ → Bool) (now : Int) (events : List (Entry κ)) (pending : List (Item κ))
    (one : (events.map Entry.key).Pairwise fun k l => which k = true → which l = false) (shows' : Shows now events pending) :
    Shows now (remove which events) (pending.filter fun x => !which x.key) := by
  refine ⟨sorted_remove which events shows'.sorted, ?_, fun time => ?_⟩
  · rw [keys_remove]
    exact shows'.keys.sublist List.eraseP_sublist
  · rw [← due_keys events now, List.pairwise_map] at one
    rw [due_remove, erase_eq_filter which _ one, List.filter_comm, shows'.same time, List.filter_map, List.filter_comm]
    rfl

theorem keys_apart [DecidableEq κ] (key : κ) (l : List κ) (distinct : l.Nodup) :
    l.Pairwise fun k k' => decide (k = key) = true → decide (k' = key) = false :=
  distinct.imp fun apart first => decide_eq_false fun second => apart ((of_decide_eq_true first).trans second.symm)

theorem due_insert_after_same (key : κ) (time : Int) (l : List (Entry κ)) : ∀ start delta : Int, Sorted l →
    ((due start (insertAfter key delta l)).filter fun x => x.2 = time) =
      ((due start l).filter fun x => x.2 = time) ++ if start + delta = time then [(key, time)] else [] := by
  induction l with
  | nil =>
      intro start delta _
      rw [insertAfter, due_cons, due_nil, due_nil, List.filter_cons, List.filter_nil, List.nil_append]
      by_cases here : start + delta = time
      · simp [here]
      · simp [here]
  | cons cur rest next =>
      intro start delta sorted
      obtain ⟨first, later⟩ := (sorted_cons start cur rest).mp sorted
      by_cases behind : cur.gap ≤ delta
      · have sum : start + cur.gap + (delta - cur.gap) = start + delta := by ring
        rw [insertAfter, if_pos behind, due_cons, due_cons, List.filter_cons, List.filter_cons, next _ _ later, sum]
        split <;> rfl
      · have sum : start + delta + (cur.gap - delta) = start + cur.gap := by ring
        rw [insertAfter, if_neg behind]
        simp only [due_cons, sum]
        by_cases here : start + delta = time
        · have none : (((cur.key, start + cur.gap) :: due (start + cur.gap) rest).filter fun x => decide (x.2 = time)) = [] := by
            refine List.filter_eq_nil_iff.mpr fun x member => ?_
            have bound : start + cur.gap ≤ x.2 := by
              rcases List.mem_cons.mp member with rfl | old
              · exact le_refl _
              · exact first x old
            simp only [decide_eq_true_eq]
            omega
          rw [List.filter_cons_of_pos (by simpa using here), none, if_pos here, here, List.nil_append]
        · rw [List.filter_cons_of_neg (by simpa using here), if_neg here, List.append_nil]

theorem shows_insert_after (key : κ) (delta now : Int) (number : Nat) (events : List (Entry κ)) (pending : List (Item κ))
    (absent : key ∉ events.map Entry.key) (shows' : Shows now events pending) :
    Shows now (insertAfter key delta events) (Ties.oldestFirst.put ⟨key, now + delta, number⟩ pending) := by
  refine ⟨sorted_insert_after key events delta shows'.sorted, ?_, fun time => ?_⟩
  · exact (keys_insert_after key delta events).symm.nodup (List.nodup_cons.mpr ⟨absent, shows'.keys⟩)
  · rw [due_insert_after_same key time events now delta shows'.sorted, shows'.same time, Ties.put, List.filter_append, List.map_append]
    by_cases here : now + delta = time
    · simp [here, timed]
    · simp [here]

theorem due_insert_before_same (key : κ) (time : Int) (l : List (Entry κ)) : ∀ start delta : Int, Sorted l →
    ((due start (insertBefore key delta l)).filter fun x => x.2 = time) =
      (if start + delta = time then [(key, time)] else []) ++ (due start l).filter fun x => x.2 = time := by
  induction l with
  | nil =>
      intro start delta _
      rw [insertBefore, due_cons, due_nil, due_nil, List.filter_cons, List.filter_nil, List.append_nil]
      by_cases here : start + delta = time
      · simp [here]
      · simp [here]
  | cons cur rest next =>
      intro start delta sorted
      obtain ⟨first, later⟩ := (sorted_cons start cur rest).mp sorted
      by_cases ahead : delta ≤ cur.gap
      · have sum : start + delta + (cur.gap - delta) = start + cur.gap := by ring
        rw [insertBefore, if_pos ahead]
        simp only [due_cons, sum]
        by_cases here : start + delta = time
        · rw [List.filter_cons_of_pos (by simpa using here), if_pos here, here]
          rfl
        · rw [List.filter_cons_of_neg (by simpa using here), if_neg here, List.nil_append]
      · have sum : start + cur.gap + (delta - cur.gap) = start + delta := by ring
        rw [insertBefore, if_neg ahead, due_cons, due_cons, List.filter_cons, List.filter_cons, next _ _ later, sum]
        by_cases here : start + delta = time
        · have elsewhere : start + cur.gap ≠ time := by omega
          simp [elsewhere]
        · rw [if_neg here, List.nil_append, List.nil_append]

theorem shows_insert_before (key : κ) (delta now : Int) (number : Nat) (events : List (Entry κ)) (pending : List (Item κ))
    (absent : key ∉ events.map Entry.key) (shows' : Shows now events pending) :
    Shows now (insertBefore key delta events) (Ties.newestFirst.put ⟨key, now + delta, number⟩ pending) := by
  refine ⟨sorted_insert_before key events delta shows'.sorted, ?_, fun time => ?_⟩
  · exact (keys_insert_before key delta events).symm.nodup (List.nodup_cons.mpr ⟨absent, shows'.keys⟩)
  · rw [due_insert_before_same key time events now delta shows'.sorted, shows'.same time, Ties.put, List.filter_cons]
    by_cases here : now + delta = time
    · simp [here, timed]
    · simp [here]

theorem shows_remove_all (which : κ → Bool) (now : Int) (events : List (Entry κ)) (pending : List (Item κ))
    (shows' : Shows now events pending) : Shows now (removeAll which 0 events) (pending.filter fun x => !which x.key) := by
  refine ⟨sorted_remove_all which events shows'.sorted, ?_, fun time => ?_⟩
  · rw [keys_remove_all]
    exact shows'.keys.sublist List.filter_sublist
  · rw [due_remove_all, add_zero, List.filter_comm, shows'.same time, List.filter_map, List.filter_comm]
    rfl

-- The head of the list is the next to be called.
theorem shows_next (now : Int) (cur : Entry κ) (rest : List (Entry κ)) (pending : List (Item κ)) (shows' : Shows now (cur :: rest) pending) :
    ∃ x, next pending = some x ∧ timed x = (cur.key, now + cur.gap) := by
  have first := ((sorted_cons now cur rest).mp shows'.sorted).1
  have least : ∀ y ∈ pending, now + cur.gap ≤ y.time := by
    intro y member
    rcases List.mem_cons.mp ((shows_mem now _ pending shows' (timed y)).mpr ⟨y, member, rfl⟩) with same | old
    · exact (congrArg Prod.snd same).ge
    · exact first (timed y) old
  have here := shows'.same (now + cur.gap)
  rw [due_cons, List.filter_cons_of_pos (by simp)] at here
  obtain ⟨x, others, split, same, _⟩ := List.map_eq_cons_iff.mp here.symm
  have inside : x ∈ pending.filter fun x => decide (x.time = now + cur.gap) := split ▸ List.mem_cons_self ..
  obtain ⟨member, at_time⟩ := List.mem_filter.mp inside
  have agree : ∀ y ∈ pending, (pending.all fun z => decide (y.time ≤ z.time)) = decide (y.time = now + cur.gap) := by
    intro y pendingY
    rw [Bool.eq_iff_iff, List.all_eq_true, decide_eq_true_eq]
    refine ⟨fun all => le_antisymm ?_ (least y pendingY), fun equal z pendingZ => decide_eq_true (equal ▸ least z pendingZ)⟩
    exact (of_decide_eq_true (all x member)).trans (of_decide_eq_true at_time).le
  refine ⟨x, ?_, same⟩
  rw [next, ← List.head?_filter, List.filter_congr agree, split]
  rfl

theorem shows_rest (now : Int) (events : List (Entry κ)) (pending : List (Item κ)) (shows' : Shows now events pending)
    (front : ∀ cur ∈ events.head?, 0 < cur.gap) : ∀ y ∈ pending, now < y.time := by
  intro y member
  have inside := (shows_mem now events pending shows' (timed y)).mpr ⟨y, member, rfl⟩
  cases events with
  | nil => exact absurd inside List.not_mem_nil
  | cons cur rest =>
      have positive := front cur rfl
      have bound : now + cur.gap ≤ y.time := by
        rcases List.mem_cons.mp inside with same | old
        · exact (congrArg Prod.snd same).ge
        · exact ((sorted_cons now cur rest).mp shows'.sorted).1 (timed y) old
      omega

variable [DecidableEq κ]

theorem time_of_iff (key : κ) (time : Int) (l : List (Entry κ)) : ∀ start : Int, (l.map Entry.key).Nodup →
    (timeOf (fun k => k = key) start l = some time ↔ (key, time) ∈ due start l) := by
  induction l with
  | nil => simp [timeOf]
  | cons cur rest next =>
      intro start distinct
      obtain ⟨absent, later⟩ := List.nodup_cons.mp distinct
      rw [timeOf, due_cons, List.mem_cons]
      by_cases here : cur.key = key
      · have gone : (key, time) ∉ due (start + cur.gap) rest := by
          intro inside
          have listed : key ∈ (due (start + cur.gap) rest).map Prod.fst := List.mem_map_of_mem inside
          rw [due_keys] at listed
          exact absent (here ▸ listed)
        simp only [here, decide_true, if_true, gone, or_false, Option.some.injEq, Prod.mk.injEq, true_and]
        exact eq_comm
      · rw [if_neg (by simpa using here), next _ later]
        simp [Ne.symm here]

theorem deadline_iff (a : Agenda κ) (key : κ) (time : Int) (keys : (a.pending.map Item.key).Nodup) :
    deadline a key = some time ↔ ∃ x ∈ a.pending, timed x = (key, time) := by
  rw [deadline, Option.map_eq_some_iff]
  refine ⟨fun ⟨x, found, same⟩ => ⟨x, List.mem_of_find?_eq_some found, ?_⟩, fun ⟨x, member, same⟩ => ⟨x, ?_, congrArg Prod.snd same⟩⟩
  · have named := List.find?_some found
    exact Prod.ext (of_decide_eq_true named) same
  · have named : x.key = key := congrArg Prod.fst same
    cases found : a.pending.find? fun x => decide (x.key = key) with
    | none =>
        have not := List.find?_eq_none.mp found x member
        exact absurd (decide_eq_true named) not
    | some y =>
        have alike := List.find?_some (p := fun x : Item κ => decide (x.key = key)) found
        have other := of_decide_eq_true alike
        have equal := List.inj_on_of_nodup_map keys (List.mem_of_find?_eq_some found) member (other.trans named.symm)
        rw [equal]

-- What a callout list says of an entry is what it is set for.
theorem shows_deadline (a : Agenda κ) (events : List (Entry κ)) (kept : Kept a) (shows' : Shows a.now events a.pending) (key : κ) :
    timeOf (fun k => k = key) a.now events = deadline a key := by
  refine Option.ext fun time => ?_
  rw [time_of_iff key time events a.now shows'.keys, deadline_iff a key time kept.keys]
  exact shows_mem a.now events a.pending shows' (key, time)

theorem deadline_withdraw_all (which : κ → Bool) (a : Agenda κ) (kept : Kept a) (k : κ) :
    deadline (withdraw which a) k = if which k then none else deadline a k := by
  refine Option.ext fun time => ?_
  rw [deadline_iff _ k time (withdraw_kept _ a kept).keys]
  by_cases here : which k
  · rw [if_pos here]
    refine ⟨fun ⟨x, member, same⟩ => ?_, fun none => by cases none⟩
    have named : x.key = k := congrArg Prod.fst same
    simpa [named, here] using (List.mem_filter.mp member).2
  · rw [if_neg here, deadline_iff a k time kept.keys]
    refine ⟨fun ⟨x, member, same⟩ => ⟨x, List.mem_of_mem_filter member, same⟩, fun ⟨x, member, same⟩ => ⟨x, ?_, same⟩⟩
    have named : x.key = k := congrArg Prod.fst same
    exact List.mem_filter.mpr ⟨member, by simp [named, here]⟩

theorem deadline_withdraw (key : κ) (a : Agenda κ) (kept : Kept a) :
    deadline (withdraw (fun k => decide (k = key)) a) = Function.update (deadline a) key none := by
  funext k
  rw [deadline_withdraw_all _ a kept, Function.update_apply]
  simp only [decide_eq_true_eq]

theorem deadline_set (ties : Ties) (key : κ) (delta : Int) (a : Agenda κ) (kept : Kept a) :
    deadline (set ties key delta a) = Function.update (deadline a) key (some (a.now + delta)) := by
  funext k
  refine Option.ext fun time => ?_
  have others := withdraw_kept (fun k => decide (k = key)) a kept
  have before := deadline_iff _ k time others.keys
  rw [deadline_withdraw key a kept] at before
  rw [deadline_iff _ k time (set_kept ties key delta a kept).keys]
  have placed : ∀ x, x ∈ (set ties key delta a).pending ↔
      x = ⟨key, a.now + delta, a.count⟩ ∨ x ∈ (withdraw (fun k => decide (k = key)) a).pending := fun x =>
    (put_perm ties _ _).mem_iff.trans List.mem_cons
  simp only [placed, or_and_right, exists_or, exists_eq_left, ← before]
  by_cases here : k = key
  · simp [here, timed]
  · simp [here, timed, Ne.symm here]

end Deltas

end Callout
