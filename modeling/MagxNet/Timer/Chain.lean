import MagxNet.Timer.Timers

set_option autoImplicit false

namespace MagxNet.Timer

open Delta

-- The pending timeouts of check_events, and how many ms are left by the count of new_etv_timer.
def pending (s : Timers) : List (Timeout × Int) := (due 0 s.tlist).filter fun t => t.1.func = .checkEvents

-- The timeout of check_events with left to go fires in time for every event: the clock steps since new_etv_timer
-- and since update_head last ran are taken into account.
def OnTime (s : Timers) (left : Int) : Prop :=
  ∀ ep ∈ due 0 s.allevents, left - 5 * s.phase ≤ EVTGRAN * ep.2 - 5 * (s.hz - s.last) + 5

-- The lists are well formed, whatever is pending.
structure Base (s : Timers) : Prop where
  distinct : (inUse s).Nodup
  sorted : Sorted s.allevents
  keys : (s.allevents.map Entry.key).Nodup
  started : s.init = true → s.allevents = []
  elapsed : s.last ≤ s.hz ∨ s.init = true
  phase : 0 ≤ s.phase

-- In a callback nothing is pending. Otherwise nexttimeout is what is pending, and it fires in time.
def Watched (s : Timers) : Prop :=
  (s.calling = true ∧ pending s = []) ∨ (s.calling = false ∧ s.nexttimeout = none ∧ pending s = [] ∧ s.allevents = []) ∨
    (s.calling = false ∧ ∃ id left, s.nexttimeout = some id ∧ pending s = [(⟨id, .checkEvents⟩, left)] ∧ OnTime s left)

-- An event's func is set while the event is in the list; ep is out of it.
def ListedBut (ep : Nat) (s : Timers) : Prop :=
  ep ∉ s.allevents.map Entry.key ∧ ∀ e, e ≠ ep → (s.armed e = true ↔ e ∈ s.allevents.map Entry.key)

structure Inv (s : Timers) : Prop where
  base : Base s
  watched : Watched s
  listed : ∀ ep, s.armed ep = true ↔ ep ∈ s.allevents.map Entry.key

section UpdateHead

variable (s : Timers)

-- What update_head comes to once the clock does not run backwards.
theorem update_head_spec (started : s.init = true → s.allevents = []) (elapsed : s.last ≤ s.hz ∨ s.init = true) :
    ∃ diff : Int, (updateHead s).allevents = addFirst (-diff) s.allevents ∧ (updateHead s).init = false ∧
      (s.allevents = [] ∧ (updateHead s).last = s.hz ∨ (updateHead s).last = s.last + diff * 2) ∧
      (updateHead s).last ≤ s.hz ∧ s.hz ≤ (updateHead s).last + 1 := by
  rw [updateHead]
  by_cases fresh : s.init = true ∨ s.allevents = [] ∨ s.hz - s.last < 0
  · rw [if_pos fresh]
    have none : s.allevents = [] := by
      rcases fresh with yes | none | back
      · exact started yes
      · exact none
      · rcases elapsed with order | yes
        · omega
        · exact started yes
    exact ⟨0, by rw [none]; rfl, rfl, Or.inl ⟨none, rfl⟩, le_refl _, by dsimp only; omega⟩
  · rw [if_neg fresh]
    simp only [not_or] at fresh
    have run : s.init = false := by simpa using fresh.1
    refine ⟨(s.hz - s.last) / 2, rfl, run, Or.inr rfl, ?_, ?_⟩ <;> dsimp only <;> omega

theorem update_head_frame : (updateHead s).tlist = s.tlist ∧ (updateHead s).expireList = s.expireList ∧
    (updateHead s).nexttimeout = s.nexttimeout ∧ (updateHead s).hz = s.hz ∧ (updateHead s).phase = s.phase ∧
    (updateHead s).calling = s.calling ∧ (updateHead s).armed = s.armed := by
  rw [updateHead]
  split <;> exact ⟨rfl, rfl, rfl, rfl, rfl, rfl, rfl⟩

theorem update_head_pending : pending (updateHead s) = pending s := by
  rw [pending, pending, (update_head_frame s).1]

theorem update_head_in_use : inUse (updateHead s) = inUse s := by
  rw [inUse, inUse, (update_head_frame s).1, (update_head_frame s).2.1]

theorem update_head_on_time (left : Int) (started : s.init = true → s.allevents = []) (elapsed : s.last ≤ s.hz ∨ s.init = true)
    (onTime : OnTime s left) : OnTime (updateHead s) left := by
  obtain ⟨diff, events, _, last, _, _⟩ := update_head_spec s started elapsed
  obtain ⟨_, _, _, hz, phase, _⟩ := update_head_frame s
  intro ep member
  rw [events, due_add_first] at member
  rcases last with ⟨none, _⟩ | moved
  · rw [none] at member
    exact absurd member List.not_mem_nil
  · rw [due_shift (-diff) s.allevents 0] at member
    obtain ⟨old, inside, rfl⟩ := List.mem_map.mp member
    have bound := onTime old inside
    rw [hz, phase, moved]
    dsimp only [EVTGRAN] at bound ⊢
    omega

theorem update_head_base (base : Base s) : Base (updateHead s) := by
  obtain ⟨diff, events, init, last, lower, upper⟩ := update_head_spec s base.started base.elapsed
  obtain ⟨_, _, _, hz, phase, _⟩ := update_head_frame s
  refine ⟨(update_head_in_use s).symm ▸ base.distinct, ?_, ?_, fun yes => ?_, Or.inl (hz.symm ▸ lower), phase.symm ▸ base.phase⟩
  · rw [events, sorted_add_first]
    exact base.sorted
  · rw [events, keys_add_first]
    exact base.keys
  · rw [init] at yes
    cases yes

theorem update_head_keys (base : Base s) : (updateHead s).allevents.map Entry.key = s.allevents.map Entry.key := by
  obtain ⟨diff, events, _⟩ := update_head_spec s base.started base.elapsed
  rw [events, keys_add_first]

theorem update_head_watched (base : Base s) (watched : Watched s) : Watched (updateHead s) := by
  obtain ⟨diff, events, _⟩ := update_head_spec s base.started base.elapsed
  obtain ⟨_, _, next, _, _, calling, _⟩ := update_head_frame s
  rw [Watched, update_head_pending, next, calling]
  rcases watched with inside | ⟨outside, none, idle, empty⟩ | ⟨outside, id, left, some, one, onTime⟩
  · exact Or.inl inside
  · exact Or.inr (Or.inl ⟨outside, none, idle, by rw [events, empty]; rfl⟩)
  · exact Or.inr (Or.inr ⟨outside, id, left, some, one, update_head_on_time s left base.started base.elapsed onTime⟩)

end UpdateHead

theorem take_expired_spec (func : Func) (l others : List (Timeout × Int)) (id : Nat) (found : takeExpired func l = some (id, others)) :
    (l.map fun t => t.1.id).Perm (id :: others.map fun t => t.1.id) := by
  induction l generalizing others with
  | nil => cases found
  | cons t rest next =>
      rw [takeExpired] at found
      by_cases here : t.1.func = func
      · rw [if_pos here] at found
        cases found
        exact List.Perm.refl _
      · rw [if_neg here] at found
        obtain ⟨⟨id', others'⟩, deeper, same⟩ := Option.map_eq_some_iff.mp found
        cases same
        exact ((next others' deeper).cons _).trans (List.Perm.swap ..)

section Root

variable (s : Timers)

theorem in_use_eq : inUse s = (s.tlist.map Entry.key).map Timeout.id ++ s.expireList.map fun t => t.1.id := by
  rw [inUse, List.map_map]
  rfl

theorem addroottimeout_spec (newtimeout : Newtimeout) (fresh : ∀ used, newtimeout used ∉ used) (delta : Int) (func : Func)
    (distinct : (inUse s).Nodup) :
    ∃ id tlist expireList, addroottimeout newtimeout s delta func = (id, { s with tlist := tlist, expireList := expireList }) ∧
      (due 0 tlist).Perm ((⟨id, func⟩, delta) :: due 0 s.tlist) ∧
      (inUse { s with tlist := tlist, expireList := expireList }).Nodup := by
  have place : ∀ id, (due 0 (insertBefore ⟨id, func⟩ delta s.tlist)).Perm ((⟨id, func⟩, delta) :: due 0 s.tlist) := fun id => by
    simpa only [zero_add] using due_insert_before (⟨id, func⟩ : Timeout) s.tlist 0 delta
  have ids : ∀ id, ((insertBefore ⟨id, func⟩ delta s.tlist).map Entry.key).Perm (⟨id, func⟩ :: s.tlist.map Entry.key) := fun id =>
    keys_insert_before (⟨id, func⟩ : Timeout) delta s.tlist
  rw [in_use_eq] at distinct
  rw [addroottimeout]
  cases found : takeExpired func s.expireList with
  | some result =>
      obtain ⟨id, others⟩ := result
      refine ⟨id, _, others, rfl, place id, ?_⟩
      rw [in_use_eq]
      refine List.Perm.nodup ?_ distinct
      refine ((take_expired_spec func s.expireList others id found).append_left _).trans ?_
      refine List.perm_middle.trans ?_
      exact (((ids id).map Timeout.id).append_right _).symm
  | none =>
      have unused := fresh (inUse s)
      dsimp only
      generalize newtimeout (inUse s) = id at unused ⊢
      rw [in_use_eq] at unused
      refine ⟨id, _, s.expireList, rfl, place id, ?_⟩
      rw [in_use_eq]
      refine List.Perm.nodup (((ids id).map Timeout.id).append_right _).symm ?_
      exact List.nodup_cons.mpr ⟨unused, distinct⟩

theorem pending_root (tlist : List (Entry Timeout)) (expireList : List (Timeout × Int)) (id : Nat) (func : Func) (delta : Int)
    (place : (due 0 tlist).Perm ((⟨id, func⟩, delta) :: due 0 s.tlist)) :
    (pending { s with tlist := tlist, expireList := expireList }).Perm
      (if func = .checkEvents then (⟨id, func⟩, delta) :: pending s else pending s) := by
  have kept := place.filter fun t => t.1.func = .checkEvents
  by_cases own : func = .checkEvents
  · rw [if_pos own]
    rwa [List.filter_cons_of_pos (by simpa using own)] at kept
  · rw [if_neg own]
    rwa [List.filter_cons_of_neg (by simpa using own)] at kept

-- What a timeout of somebody else does not touch.
theorem erased_gone {α : Type} (f : α → Nat) (id : Nat) (l : List α) (distinct : (l.map f).Nodup) :
    ∀ x ∈ l.eraseP fun y => f y = id, f x ≠ id := by
  induction l with
  | nil => exact fun x member => absurd member List.not_mem_nil
  | cons y rest next =>
      rw [List.map_cons, List.nodup_cons] at distinct
      intro x member
      rw [List.eraseP_cons] at member
      by_cases here : f y = id
      · simp only [here, decide_true, cond_true] at member
        exact fun same => distinct.1 (here ▸ same ▸ List.mem_map_of_mem member)
      · simp only [here, decide_false, cond_false] at member
        rcases List.mem_cons.mp member with rfl | deeper
        · exact here
        · exact next distinct.2 x deeper

theorem filter_erase_other {α : Type} (p q : α → Bool) (l : List α) (apart : ∀ x ∈ l, q x → p x = false) :
    (l.eraseP q).filter p = l.filter p := by
  induction l with
  | nil => rfl
  | cons x rest next =>
      rw [List.eraseP_cons]
      by_cases here : q x
      · rw [here, cond_true, List.filter_cons_of_neg (by simp [apart x (List.mem_cons_self ..) here])]
      · rw [eq_false_of_ne_true here, cond_false, List.filter_cons, List.filter_cons,
          next fun y member => apart y (List.mem_cons_of_mem _ member)]

theorem cancelroottimeout_spec (id : Nat) (distinct : (inUse s).Nodup) :
    ∃ tlist expireList, cancelroottimeout s id = { s with tlist := tlist, expireList := expireList } ∧
      (inUse { s with tlist := tlist, expireList := expireList }).Nodup ∧
      ((∀ t ∈ pending s, t.1.id ≠ id) → pending { s with tlist := tlist, expireList := expireList } = pending s) ∧
      ((∀ t ∈ pending s, t.1.id = id) → pending { s with tlist := tlist, expireList := expireList } = []) := by
  have whole := distinct
  rw [in_use_eq] at distinct
  obtain ⟨front, _, apart⟩ := List.nodup_append.mp distinct
  have inTlist : ∀ t ∈ due 0 s.tlist, t.1.id ∈ (s.tlist.map Entry.key).map Timeout.id := by
    intro t member
    have key : t.1 ∈ s.tlist.map Entry.key := by
      rw [← due_keys s.tlist 0]
      exact List.mem_map_of_mem member
    exact List.mem_map_of_mem key
  rw [cancelroottimeout]
  by_cases old : s.expireList.any fun t => t.1.id = id
  · rw [if_pos old]
    refine ⟨s.tlist, _, rfl, ?_, fun _ => rfl, fun all => ?_⟩
    · rw [in_use_eq]
      exact distinct.sublist ((List.eraseP_sublist.map _).append_left _)
    · obtain ⟨x, inside, same⟩ := List.any_eq_true.mp old
      have expired : id ∈ s.expireList.map fun t => t.1.id := (of_decide_eq_true same) ▸ List.mem_map_of_mem inside
      refine List.eq_nil_iff_forall_not_mem.mpr fun t member => ?_
      have listed := inTlist t (List.mem_of_mem_filter member)
      exact apart _ listed id expired (all t member)
  · rw [if_neg old]
    have dues : due 0 (remove (fun t => t.id = id) s.tlist) = (due 0 s.tlist).eraseP fun t => t.1.id = id := due_remove _ _ 0
    refine ⟨_, s.expireList, rfl, ?_, fun none => ?_, fun all => ?_⟩
    · rw [in_use_eq]
      refine distinct.sublist ((List.Sublist.map _ ?_).append_right _)
      dsimp only
      rw [keys_remove]
      exact List.eraseP_sublist
    · rw [pending, pending]
      dsimp only
      rw [dues]
      refine filter_erase_other _ _ _ fun t member same => ?_
      by_contra own
      exact none t (List.mem_filter.mpr ⟨member, by simpa using own⟩) (of_decide_eq_true same)
    · rw [pending]
      dsimp only
      rw [dues]
      refine List.eq_nil_iff_forall_not_mem.mpr fun t member => ?_
      obtain ⟨inside, own⟩ := List.mem_filter.mp member
      have ids : ((due 0 s.tlist).map fun t => t.1.id).Nodup := by
        have keys := due_keys s.tlist 0
        rw [← keys, List.map_map] at front
        exact front
      have gone := erased_gone (fun t : Timeout × Int => t.1.id) id (due 0 s.tlist) ids t inside
      exact gone (all t (List.mem_filter.mpr ⟨List.mem_of_mem_eraseP inside, own⟩))

end Root

section Events

variable (s : Timers)

-- Events that are due no sooner than those that were there are watched by the same timeout.
theorem events_watched (events : List (Entry Nat)) (watched : Watched s)
    (later : ∀ x ∈ due 0 events, ∃ y ∈ due 0 s.allevents, y.2 ≤ x.2) : Watched { s with allevents := events } := by
  rcases watched with inside | ⟨outside, none, idle, empty⟩ | ⟨outside, id, left, some, one, onTime⟩
  · exact Or.inl inside
  · refine Or.inr (Or.inl ⟨outside, none, idle, (due_eq_nil 0 events).mp (List.eq_nil_iff_forall_not_mem.mpr fun x member => ?_)⟩)
    obtain ⟨y, old, _⟩ := later x member
    rw [empty] at old
    exact absurd old List.not_mem_nil
  · refine Or.inr (Or.inr ⟨outside, id, left, some, one, fun x member => ?_⟩)
    obtain ⟨y, old, order⟩ := later x member
    have bound := onTime y old
    dsimp only [EVTGRAN] at bound ⊢
    omega

theorem events_base (events : List (Entry Nat)) (base : Base s) (sorted : Sorted events) (keys : (events.map Entry.key).Nodup)
    (run : s.init = false) : Base { s with allevents := events } :=
  ⟨base.distinct, sorted, keys, fun yes => absurd (run.symm.trans yes) Bool.false_ne_true, base.elapsed, base.phase⟩

theorem remove_keys (ep : Nat) :
    ((eventRemove s ep).allevents.map Entry.key) = (s.allevents.map Entry.key).erase ep := by
  rw [eventRemove]
  dsimp only
  rw [keys_remove, List.erase_eq_eraseP']
  rfl

theorem remove_base (ep : Nat) (base : Base s) : Base (eventRemove s ep) := by
  refine ⟨base.distinct, sorted_remove _ _ base.sorted, ?_, fun yes => ?_, base.elapsed, base.phase⟩
  · rw [remove_keys s ep]
    exact base.keys.erase ep
  · rw [eventRemove, base.started yes]
    rfl

theorem remove_watched (ep : Nat) (watched : Watched s) : Watched (eventRemove s ep) := by
  refine events_watched s _ watched fun x member => ?_
  rw [due_remove] at member
  exact ⟨x, List.mem_of_mem_eraseP member, le_refl _⟩

theorem remove_listed (ep : Nat) (base : Base s) (listed : ∀ e, s.armed e = true ↔ e ∈ s.allevents.map Entry.key) :
    ListedBut ep (eventRemove s ep) := by
  rw [ListedBut, remove_keys s ep]
  refine ⟨fun inside => ?_, fun e other => ?_⟩
  · exact absurd rfl (base.keys.mem_erase_iff.mp inside).1
  · rw [base.keys.mem_erase_iff]
    exact (listed e).trans ⟨fun inside => ⟨other, inside⟩, fun facts => facts.2⟩

theorem armed_watched (armed : Nat → Bool) (watched : Watched s) : Watched { s with armed := armed } := watched

theorem armed_base (armed : Nat → Bool) (base : Base s) : Base { s with armed := armed } :=
  ⟨base.distinct, base.sorted, base.keys, base.started, base.elapsed, base.phase⟩

-- What is at the head when the event goes in before all others.
theorem first_due (l : List (Entry Nat)) (ep : Nat) (delta : Int) (sorted : Sorted l)
    (front : ∀ cur rest, l = cur :: rest → delta < cur.gap) : ∀ x ∈ due 0 (insertAfter ep delta l), delta ≤ x.2 := by
  intro x member
  rcases List.mem_cons.mp ((due_insert_after ep l 0 delta).mem_iff.mp member) with rfl | old
  · change delta ≤ 0 + delta
    omega
  · cases l with
    | nil => exact absurd old List.not_mem_nil
    | cons cur rest =>
        have ahead := front cur rest rfl
        rcases List.mem_cons.mp old with rfl | later
        · change delta ≤ 0 + cur.gap
          omega
        · have order := ((sorted_cons 0 cur rest).mp sorted).1 x later
          omega

-- check_events is armed for the event at the head; nothing else is pending.
theorem arm_next_spec (newtimeout : Newtimeout) (fresh : ∀ used, newtimeout used ∉ used) (delta : Int) (base : Base s)
    (idle : pending s = []) (recent : s.last ≤ s.hz ∧ s.hz ≤ s.last + 1) (first : ∀ x ∈ due 0 s.allevents, delta ≤ x.2) :
    ∃ id tlist expireList, armNext newtimeout s delta =
        { s with tlist := tlist, expireList := expireList, nexttimeout := some id } ∧
      Base (armNext newtimeout s delta) ∧ pending (armNext newtimeout s delta) = [(⟨id, .checkEvents⟩, delta * EVTGRAN)] ∧
      OnTime (armNext newtimeout s delta) (delta * EVTGRAN) := by
  obtain ⟨id, tlist, expireList, step, place, distinct⟩ :=
    addroottimeout_spec s newtimeout fresh (delta * EVTGRAN) .checkEvents base.distinct
  have one := pending_root s tlist expireList id .checkEvents (delta * EVTGRAN) place
  rw [if_pos rfl, idle] at one
  have result : armNext newtimeout s delta = { s with tlist := tlist, expireList := expireList, nexttimeout := some id } := by
    rw [armNext, step]
  rw [result]
  refine ⟨id, tlist, expireList, rfl, ⟨distinct, base.sorted, base.keys, base.started, base.elapsed, base.phase⟩,
    List.perm_singleton.mp one, fun x member => ?_⟩
  have order := first x member
  have phase := base.phase
  dsimp only [EVTGRAN]
  omega

-- Cancelling nexttimeout leaves nothing pending.
theorem cancelled_spec (base : Base s)
    (handle : (s.nexttimeout = none ∧ pending s = []) ∨ ∃ id left, s.nexttimeout = some id ∧ pending s = [(⟨id, .checkEvents⟩, left)]) :
    ∃ tlist expireList, cancelNext s = { s with tlist := tlist, expireList := expireList } ∧ Base (cancelNext s) ∧
      pending (cancelNext s) = [] := by
  rcases handle with ⟨none, idle⟩ | ⟨id, left, some, one⟩
  · have same : cancelNext s = s := by
      rw [cancelNext, none]
    rw [same]
    exact ⟨s.tlist, s.expireList, rfl, base, idle⟩
  · obtain ⟨tlist, expireList, step, distinct, _, gone⟩ := cancelroottimeout_spec s id base.distinct
    have result : cancelNext s = cancelroottimeout s id := by rw [cancelNext, some]
    rw [result, step]
    refine ⟨tlist, expireList, rfl, ⟨distinct, base.sorted, base.keys, base.started, base.elapsed, base.phase⟩, gone fun t member => ?_⟩
    rw [one] at member
    rw [List.mem_singleton.mp member]

theorem insert_inv (newtimeout : Newtimeout) (fresh : ∀ used, newtimeout used ∉ used) (ep : Nat) (delta : Int) (base : Base s)
    (watched : Watched s) (listed : ListedBut ep s) (set : s.armed ep = true)
    (quiet : s.calling = true → insertsAtHead s delta = false) : Inv (eventInsert newtimeout s ep delta) := by
  rw [eventInsert]
  by_cases atOnce : delta ≤ 0
  · rw [if_pos atOnce]
    refine ⟨armed_base s _ base, armed_watched s _ watched, fun e => ?_⟩
    by_cases same : e = ep
    · rw [same]
      simp [listed.1]
    · change Function.update s.armed ep false e = true ↔ _
      rw [Function.update_of_ne same]
      exact listed.2 e same
  · rw [if_neg atOnce]
    have base1 := update_head_base s base
    have watched1 := update_head_watched s base watched
    have keys1 := update_head_keys s base
    obtain ⟨_, _, init1, _, lower, upper⟩ := update_head_spec s base.started base.elapsed
    obtain ⟨_, _, _, hz1, _, calling1, armed1⟩ := update_head_frame s
    rw [insertsAtHead] at quiet
    generalize updateHead s = s1 at base1 watched1 keys1 init1 lower upper hz1 calling1 armed1 quiet ⊢
    have placed := keys_insert_after ep delta s1.allevents
    have absent : ep ∉ s1.allevents.map Entry.key := keys1.symm ▸ listed.1
    have distinct : ((insertAfter ep delta s1.allevents).map Entry.key).Nodup :=
      placed.symm.nodup (List.nodup_cons.mpr ⟨absent, base1.keys⟩)
    have base2 := events_base s1 _ base1 (sorted_insert_after ep _ delta base1.sorted) distinct init1
    have listed2 : ∀ e, s1.armed e = true ↔ e ∈ (insertAfter ep delta s1.allevents).map Entry.key := by
      intro e
      rw [placed.mem_iff, List.mem_cons, armed1]
      by_cases same : e = ep
      · simp [same, set]
      · rw [keys1, listed.2 e same]
        simp [same]
    by_cases front : ∀ cur rest, s1.allevents = cur :: rest → delta < cur.gap
    · have head : (insertAfter ep delta s1.allevents).head?.map Entry.key = some ep := by
        cases events : s1.allevents with
        | nil => rfl
        | cons cur rest => rw [insertAfter, if_neg (not_le.mpr (front cur rest events))]; rfl
      have outside : s1.calling = false := by
        cases inside : s1.calling with
        | false => rfl
        | true =>
            have no := quiet (calling1 ▸ inside)
            cases events : s1.allevents with
            | nil => simp [events, lt_of_not_ge atOnce] at no
            | cons cur rest =>
                have ahead := front cur rest events
                simp only [events, Bool.and_eq_false_iff, decide_eq_false_iff_not] at no
                omega
      have first := first_due s1.allevents ep delta base1.sorted front
      dsimp only
      rw [if_pos head]
      have handle : (s1.nexttimeout = none ∧ pending s1 = []) ∨
          ∃ id left, s1.nexttimeout = some id ∧ pending s1 = [(⟨id, .checkEvents⟩, left)] := by
        rcases watched1 with inside | ⟨_, none, idle, _⟩ | ⟨_, id, left, some, one, _⟩
        · rw [outside] at inside
          cases inside.1
        · exact Or.inl ⟨none, idle⟩
        · exact Or.inr ⟨id, left, some, one⟩
      obtain ⟨tlist3, expireList3, cancelled, base3, idle3⟩ :=
        cancelled_spec { s1 with allevents := insertAfter ep delta s1.allevents } base2 handle
      rw [cancelled] at base3 idle3 ⊢
      obtain ⟨id, tlist4, expireList4, added, base4, one, onTime⟩ :=
        arm_next_spec _ newtimeout fresh delta base3 idle3 ⟨hz1.symm ▸ lower, hz1.symm ▸ upper⟩ first
      rw [added] at base4 one onTime ⊢
      exact ⟨base4, Or.inr (Or.inr ⟨outside, id, _, rfl, one, onTime⟩), listed2⟩
    · push Not at front
      obtain ⟨cur, rest, events, behind⟩ := front
      have head : (insertAfter ep delta s1.allevents).head?.map Entry.key ≠ some ep := by
        rw [events, insertAfter, if_pos behind]
        intro same
        rw [events] at absent
        exact absent ((Option.some.inj same) ▸ List.mem_cons_self ..)
      dsimp only
      rw [if_neg head]
      refine ⟨base2, events_watched s1 _ watched1 fun x member => ?_, listed2⟩
      rcases List.mem_cons.mp ((due_insert_after ep _ 0 delta).mem_iff.mp member) with rfl | old
      · refine ⟨(cur.key, 0 + cur.gap), by rw [events]; exact List.mem_cons_self .., ?_⟩
        change 0 + cur.gap ≤ 0 + delta
        omega
      · exact ⟨x, old, le_refl _⟩

theorem at_head_armed (armed : Nat → Bool) (delta : Int) : insertsAtHead { s with armed := armed } delta = insertsAtHead s delta := by
  have same : (updateHead { s with armed := armed }).allevents = (updateHead s).allevents := by
    simp only [updateHead]
    split <;> rfl
  rw [insertsAtHead, insertsAtHead, same]

theorem add_inv (newtimeout : Newtimeout) (fresh : ∀ used, newtimeout used ∉ used) (ep : Nat) (delta : Int) (inv : Inv s)
    (quiet : s.calling = true → (Cmd.add ep delta).atHead s = false) : Inv (eventAdd newtimeout s ep delta) := by
  rw [eventAdd]
  rw [Cmd.atHead] at quiet
  have self : Function.update s.armed ep true ep = true := Function.update_self ..
  have others : ∀ (s' : Timers), ListedBut ep s' → ListedBut ep { s' with armed := Function.update s'.armed ep true } :=
    fun s' listed => ⟨listed.1, fun e other => by
      change Function.update s'.armed ep true e = true ↔ _
      rw [Function.update_of_ne other]
      exact listed.2 e other⟩
  by_cases set : s.armed ep = true
  · rw [if_pos set] at quiet ⊢
    refine insert_inv _ newtimeout fresh ep delta (armed_base _ _ (remove_base s ep inv.base)) (remove_watched s ep inv.watched)
      (others _ (remove_listed s ep inv.base inv.listed)) (Function.update_self ..) fun inside => ?_
    rw [at_head_armed]
    exact quiet inside
  · rw [if_neg set] at quiet ⊢
    refine insert_inv _ newtimeout fresh ep delta (armed_base _ _ inv.base) inv.watched (others _ ⟨?_, fun e _ => inv.listed e⟩)
      self fun inside => ?_
    · exact fun inside => set ((inv.listed ep).mpr inside)
    · rw [at_head_armed]
      exact quiet inside

theorem del_inv (ep : Nat) (inv : Inv s) : Inv (eventDel s ep) := by
  rw [eventDel]
  by_cases set : s.armed ep = true
  · rw [if_pos set]
    obtain ⟨absent, others⟩ := remove_listed s ep inv.base inv.listed
    refine ⟨armed_base _ _ (remove_base s ep inv.base), remove_watched s ep inv.watched, fun e => ?_⟩
    by_cases same : e = ep
    · rw [same]
      simp [absent]
    · change Function.update s.armed ep false e = true ↔ _
      rw [Function.update_of_ne same]
      exact others e same
  · rw [if_neg set]
    exact inv

theorem ask_inv (inv : Inv s) : Inv (updateHead s) := by
  refine ⟨update_head_base s inv.base, update_head_watched s inv.base inv.watched, fun e => ?_⟩
  rw [update_head_keys s inv.base, (update_head_frame s).2.2.2.2.2.2]
  exact inv.listed e

theorem reset_inv (newtimeout : Newtimeout) (fresh : ∀ used, newtimeout used ∉ used) (ep : Nat) (delta : Int) (inv : Inv s)
    (quiet : s.calling = true → (Cmd.reset ep delta).atHead s = false) : Inv (eventReset newtimeout s ep delta) := by
  have inv1 := ask_inv s inv
  have calling1 : (updateHead s).calling = s.calling := (update_head_frame s).2.2.2.2.2.1
  have init1 : (updateHead s).init = false := by
    obtain ⟨_, _, init1, _⟩ := update_head_spec s inv.base.started inv.base.elapsed
    exact init1
  rw [Cmd.atHead] at quiet
  rw [eventReset]
  generalize updateHead s = s1 at inv1 calling1 init1 quiet ⊢
  cases found : timeOf (fun curr => decide (curr = ep)) 0 s1.allevents with
  | none => exact inv1
  | some ticks =>
      rw [found] at quiet
      dsimp only at quiet ⊢
      obtain ⟨key, same, member, place⟩ := due_move (fun curr => decide (curr = ep)) s1.allevents ticks 0 delta found
      obtain rfl : key = ep := of_decide_eq_true same
      by_cases equal : delta = ticks
      · rw [if_pos equal]
        exact inv1
      · rw [if_neg equal]
        by_cases later : ticks < delta
        · rw [if_pos later]
          have keys := place.map Prod.fst
          have erased := due_remove (fun curr => decide (curr = key)) s1.allevents 0
          rw [due_keys, List.map_cons, ← erased, due_keys] at keys
          have removed := remove_keys s1 key
          rw [eventRemove] at removed
          rw [removed] at keys
          have present : key ∈ s1.allevents.map Entry.key := by
            rw [← due_keys s1.allevents 0]
            exact List.mem_map_of_mem member
          have same := keys.trans (List.perm_cons_erase present).symm
          refine ⟨events_base s1 _ inv1.base (sorted_move _ _ ticks 0 delta inv1.base.sorted found (by omega))
            (same.symm.nodup inv1.base.keys) init1, events_watched s1 _ inv1.watched fun x inside => ?_, fun e => ?_⟩
          · rcases List.mem_cons.mp (place.mem_iff.mp inside) with rfl | old
            · refine ⟨(key, ticks), member, ?_⟩
              change ticks ≤ 0 + delta
              omega
            · exact ⟨x, List.mem_of_mem_eraseP old, le_refl _⟩
          · exact (inv1.listed e).trans same.mem_iff.symm
        · rw [if_neg later]
          have present : key ∈ s1.allevents.map Entry.key := by
            rw [← due_keys s1.allevents 0]
            exact List.mem_map_of_mem member
          refine insert_inv _ newtimeout fresh key delta (remove_base s1 key inv1.base) (remove_watched s1 key inv1.watched)
            (remove_listed s1 key inv1.base inv1.listed) ((inv1.listed key).mpr present) fun inside => ?_
          have no := quiet (calling1 ▸ inside)
          have sooner : delta < ticks := by omega
          simpa [sooner] using no

-- check_events goes on when nothing is pending: up to the next callback, or until it is armed again.
theorem check_events_inv (newtimeout : Newtimeout) (fresh : ∀ used, newtimeout used ∉ used) (base : Base s) (idle : pending s = [])
    (listed : ∀ ep, s.armed ep = true ↔ ep ∈ s.allevents.map Entry.key) : Inv (checkEvents newtimeout s) := by
  have base1 := update_head_base s base
  have keys1 := update_head_keys s base
  have idle1 := (update_head_pending s).trans idle
  obtain ⟨_, _, init1, _, lower, upper⟩ := update_head_spec s base.started base.elapsed
  obtain ⟨_, _, _, hz1, _, _, armed1⟩ := update_head_frame s
  rw [checkEvents]
  generalize updateHead s = s1 at base1 keys1 idle1 init1 lower upper hz1 armed1 ⊢
  have listed1 : ∀ ep, s1.armed ep = true ↔ ep ∈ s1.allevents.map Entry.key := fun ep => by rw [armed1, keys1, listed ep]
  cases events : s1.allevents with
  | nil =>
      rw [events] at listed1
      refine ⟨⟨base1.distinct, ?_, ?_, fun _ => rfl, base1.elapsed, base1.phase⟩, Or.inr (Or.inl ⟨rfl, rfl, idle1, rfl⟩), listed1⟩
      · exact List.Pairwise.nil
      · exact List.nodup_nil
  | cons ep rest =>
      dsimp only
      by_cases due_ : ep.gap ≤ 0
      · rw [if_pos due_]
        have sorted := base1.sorted
        have keys := base1.keys
        rw [events] at sorted keys listed1
        rw [List.map_cons, List.nodup_cons] at keys
        refine ⟨⟨base1.distinct, ?_, ?_, fun yes => absurd (init1.symm.trans yes) Bool.false_ne_true, base1.elapsed, base1.phase⟩,
          Or.inl ⟨rfl, idle1⟩, fun e => ?_⟩
        · exact (sorted_add_first _ _).mpr ((sorted_cons 0 ep rest).mp sorted).2
        · rw [keys_add_first]
          exact keys.2
        · change Function.update s1.armed ep.key false e = true ↔ e ∈ (addFirst ep.gap rest).map Entry.key
          rw [keys_add_first]
          by_cases same : e = ep.key
          · rw [same]
            simp [keys.1]
          · rw [Function.update_of_ne same, listed1 e, List.map_cons, List.mem_cons]
            simp [same]
      · rw [if_neg due_]
        have first : ∀ x ∈ due 0 s1.allevents, ep.gap ≤ x.2 := by
          intro x member
          rw [events] at member
          rcases List.mem_cons.mp member with rfl | old
          · change ep.gap ≤ 0 + ep.gap
            omega
          · have order := ((sorted_cons 0 ep rest).mp (events ▸ base1.sorted)).1 x old
            omega
        obtain ⟨id, tlist, expireList, added, base2, one, onTime⟩ :=
          arm_next_spec s1 newtimeout fresh ep.gap base1 idle1 ⟨hz1.symm ▸ lower, hz1.symm ▸ upper⟩ first
        rw [added] at base2 one onTime ⊢
        exact ⟨⟨base2.distinct, base2.sorted, base2.keys, base2.started, base2.elapsed, base2.phase⟩,
          Or.inr (Or.inr ⟨rfl, id, _, rfl, one, onTime⟩), listed1⟩

end Events

end MagxNet.Timer
