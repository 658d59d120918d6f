import MagxNet.Timer.Events

set_option autoImplicit false

namespace MagxNet.Timer

open Delta Callout

-- When each event is due, counted like now.
def dueOf (now : Int) (s : Timers) (ep : Nat) : Option Int := timeOf (fun k => k = ep) now s.allevents

-- What the operations do to the deadlines: now is the time at which update_head last ran.
structure Deadlines (newtimeout : Newtimeout) (s : Timers) (now : Int) : Prop where
  add : ∀ ep delta, 0 < delta → dueOf (now + elapsed s) (eventAdd newtimeout s ep delta) =
    Function.update (dueOf now s) ep (some (now + elapsed s + delta))
  addAtOnce : ∀ ep delta, delta ≤ 0 → dueOf now (eventAdd newtimeout s ep delta) = Function.update (dueOf now s) ep none
  del : ∀ ep, dueOf now (eventDel s ep) = Function.update (dueOf now s) ep none
  reset : ∀ ep delta time, dueOf now s ep = some time → (0 < delta ∨ time ≤ now + elapsed s + delta) →
    dueOf (now + elapsed s) (eventReset newtimeout s ep delta) = Function.update (dueOf now s) ep (some (now + elapsed s + delta))
  resetAtOnce : ∀ ep delta time, dueOf now s ep = some time → ¬ (0 < delta ∨ time ≤ now + elapsed s + delta) →
    dueOf (now + elapsed s) (eventReset newtimeout s ep delta) = Function.update (dueOf now s) ep none

section Deadline

variable (newtimeout : Newtimeout) (s : Timers) (a : Agenda Nat)

theorem views_due (views : Views s a) : dueOf a.now s = deadline a :=
  funext fun ep => shows_deadline a s.allevents views.kept views.shown ep

theorem views_deadlines (views : Views s a) : Deadlines newtimeout s a.now := by
  have passed := wait_kept (elapsed s) a views.kept
  have before := views_due s a views
  refine ⟨fun ep delta ahead => ?_, fun ep delta atOnce => ?_, fun ep => ?_, fun ep delta time found kind => ?_,
    fun ep delta time found kind => ?_⟩
  · have added := add_views newtimeout s a ep delta views
    rw [if_pos ahead] at added
    rw [before]
    exact (views_due _ _ added).trans (deadline_set .oldestFirst ep delta _ passed)
  · have added := add_views newtimeout s a ep delta views
    rw [if_neg (not_lt.mpr atOnce)] at added
    rw [before]
    exact (views_due _ _ added).trans (deadline_withdraw ep a views.kept)
  · rw [before]
    exact (views_due _ _ (del_views s a ep views)).trans (deadline_withdraw ep a views.kept)
  · obtain ⟨a', done, views'⟩ := reset_views newtimeout s a ep delta views
    rw [before] at found ⊢
    have old : deadline (wait (elapsed s) a) ep = some time := found
    rw [act, old] at done
    dsimp only at done
    by_cases equal : time = (wait (elapsed s) a).now + delta
    · rw [if_pos equal] at done
      cases done
      refine (views_due _ _ views').trans ?_
      have same : time = a.now + elapsed s + delta := equal
      rw [← same, ← found]
      exact (Function.update_eq_self ep (deadline a)).symm
    · rw [if_neg equal, if_pos] at done
      · cases done
        exact (views_due _ _ views').trans (deadline_set .oldestFirst ep delta _ passed)
      · dsimp only [wait] at equal ⊢
        omega
  · obtain ⟨a', done, views'⟩ := reset_views newtimeout s a ep delta views
    rw [before] at found ⊢
    have old : deadline (wait (elapsed s) a) ep = some time := found
    rw [act, old] at done
    dsimp only at done
    rw [if_neg (by dsimp only [wait]; omega), if_neg (by dsimp only [wait]; omega)] at done
    cases done
    exact (views_due _ _ views').trans (deadline_withdraw ep _ passed)

end Deadline

theorem follow_append (first second : List Act) (a : Agenda Nat) :
    follow (first ++ second) a = (follow first a).bind (follow second) := by
  induction first generalizing a with
  | nil => rfl
  | cons x rest next =>
      rw [List.cons_append, follow, follow, Option.bind_assoc]
      exact congrArg _ (funext next)

theorem run_views (newtimeout : Newtimeout) (ops : List Op) : ∀ (s s' : Timers) (a : Agenda Nat), Views s a →
    runOps newtimeout ops s = some s' → ∃ a', follow (actsOf newtimeout ops s) a = some a' ∧ Views s' a' := by
  induction ops with
  | nil =>
      intro s s' a views run
      cases run
      exact ⟨a, rfl, views⟩
  | cons op rest next =>
      intro s s' a views run
      obtain ⟨mid, first, later⟩ := Option.bind_eq_some_iff.mp run
      obtain ⟨a1, done, views1⟩ := step_views newtimeout s a op mid views first
      obtain ⟨a2, more, views2⟩ := next mid s' a1 views1 later
      refine ⟨a2, ?_, views2⟩
      rw [actsOf, first]
      dsimp only
      rw [follow_append, done]
      exact more

-- An event that is set back goes no further back than its calls have come.
theorem act_ordered (x : Act) (a a' : Agenda Nat) (kept : Kept a) (inOrder : InOrder a) (fifo : Fifo a) (run : act a x = some a') :
    Kept a' ∧ InOrder a' ∧ Fifo a' := by
  have set_ordered : ∀ ep delta, (∀ x ∈ a.called, x.time < a.now + delta) → Kept (set .oldestFirst ep delta a) ∧
      InOrder (set .oldestFirst ep delta a) ∧ Fifo (set .oldestFirst ep delta a) := fun ep delta later =>
    ⟨set_kept _ ep delta a kept, set_in_order _ ep delta a (fun x member => (later x member).le) inOrder, set_fifo ep delta a later kept fifo⟩
  have ahead : ∀ delta, 0 < delta → ∀ x ∈ a.called, x.time < a.now + delta := fun delta positive x member => by
    have past := inOrder.past x member
    omega
  have at_once_ordered : ∀ ep delta, Kept (setAtOnce ep delta a) ∧ InOrder (setAtOnce ep delta a) ∧ Fifo (setAtOnce ep delta a) :=
    fun ep delta => ⟨set_at_once_kept ep delta a kept, set_at_once_in_order ep delta a inOrder, set_at_once_fifo ep delta a fifo⟩
  cases x with
  | wait d =>
      cases run
      exact ⟨wait_kept d a kept, wait_in_order d a inOrder, wait_fifo d a fifo⟩
  | add ep delta =>
      cases run
      split
      · rename_i positive
        exact set_ordered ep delta (ahead delta positive)
      · exact at_once_ordered ep delta
  | del ep =>
      cases run
      exact ⟨withdraw_kept _ a kept, withdraw_in_order _ a inOrder, withdraw_fifo _ a fifo⟩
  | reset ep delta =>
      rw [act] at run
      cases found : deadline a ep with
      | none =>
          rw [found] at run
          cases run
          exact ⟨kept, inOrder, fifo⟩
      | some time =>
          rw [found] at run
          dsimp only at run
          split at run
          · cases run
            exact ⟨kept, inOrder, fifo⟩
          · split at run
            · rename_i kind
              cases run
              refine set_ordered ep delta fun x member => ?_
              rcases kind with later | positive
              · obtain ⟨y, inside, same⟩ := (deadline_iff a ep time kept.keys).mp found
                have old : y.time = time := congrArg Prod.snd same
                have order := inOrder.ahead x member y inside
                omega
              · exact ahead delta positive x member
            · cases run
              exact at_once_ordered ep delta
  | call ep => exact ⟨call_kept ep a a' kept run, call_in_order ep a a' inOrder run, call_fifo ep a a' kept fifo run⟩
  | rest =>
      rw [act, rest] at run
      split at run
      · cases run
        exact ⟨kept, inOrder, fifo⟩
      · cases run

theorem follow_ordered (list : List Act) : ∀ a a' : Agenda Nat, Kept a → InOrder a → Fifo a → follow list a = some a' →
    InOrder a' ∧ Fifo a' := by
  induction list with
  | nil =>
      intro a a' _ inOrder fifo run
      cases run
      exact ⟨inOrder, fifo⟩
  | cons x rest next =>
      intro a a' kept inOrder fifo run
      obtain ⟨mid, first, later⟩ := Option.bind_eq_some_iff.mp run
      obtain ⟨kept1, inOrder1, fifo1⟩ := act_ordered x a mid kept inOrder fifo first
      exact next mid a' kept1 inOrder1 fifo1 later

theorem initial_views (hz phase : Int) : Views (initial hz phase) new :=
  ⟨⟨List.Pairwise.nil, List.nodup_nil, fun _ => rfl⟩, kept_new, fun _ => by simp [initial], fun _ => rfl⟩

-- Every run does to an agenda what its operations ask for.
theorem event_queue (newtimeout : Newtimeout) (hz phase : Int) (ops : List Op) (s : Timers)
    (run : runOps newtimeout ops (initial hz phase) = some s) :
    ∃ a, follow (actsOf newtimeout ops (initial hz phase)) new = some a ∧ Views s a ∧ Deadlines newtimeout s a.now ∧ InOrder a ∧ Fifo a := by
  obtain ⟨a, done, views⟩ := run_views newtimeout ops _ s new (initial_views hz phase) run
  obtain ⟨inOrder, fifo⟩ := follow_ordered _ new a kept_new in_order_new fifo_new done
  exact ⟨a, done, views, views_deadlines newtimeout s a views, inOrder, fifo⟩

-- Two events are added, the clock goes on and the first of them is set back behind the other.
theorem event_queue_two : ∃ s a, runOps unusedTimeout
    [.cmd (.add 0 1), .cmd (.add 1 2), .cmd .clock, .cmd .clock, .cmd (.reset 0 2)] (initial 1000 0) = some s ∧ Views s a := by
  obtain ⟨a, _, views, _⟩ := event_queue unusedTimeout 1000 0
    [.cmd (.add 0 1), .cmd (.add 1 2), .cmd .clock, .cmd .clock, .cmd (.reset 0 2)] _ rfl
  exact ⟨_, a, rfl, views⟩

-- The events that are called one after the other, with their deadlines.
def fires : List Act → Agenda Nat → List (Nat × Int)
  | [], _ => []
  | x :: rest, a =>
      match act a x with
      | none => []
      | some a' => (a'.called.drop a.called.length ++ a'.atOnce.drop a.atOnce.length).map timed ++ fires rest a'

-- When event 1 is added for now, event 0 is overdue already.
def overtaken : List Op :=
  [.cmd (.add 0 1), .cmd .clock, .cmd .clock, .cmd .clock, .cmd .clock, .cmd .ask, .cmd (.add 1 0), .cmd .alarm]

theorem event_queue_overtaken : ¬ ∀ (newtimeout : Newtimeout) (ops : List Op) (s : Timers),
    runOps newtimeout ops (initial 1000 0) = some s →
      (fires (actsOf newtimeout ops (initial 1000 0)) new).Pairwise fun x y => x.2 ≤ y.2 := by
  intro all
  have run : (runOps unusedTimeout overtaken (initial 1000 0)).isSome = true := by decide
  obtain ⟨s, result⟩ := Option.isSome_iff_exists.mp run
  have order := all unusedTimeout overtaken s result
  have calls : fires (actsOf unusedTimeout overtaken (initial 1000 0)) new = [(1, 502), (0, 501)] := by decide
  rw [calls] at order
  exact absurd order (by decide)

end MagxNet.Timer
