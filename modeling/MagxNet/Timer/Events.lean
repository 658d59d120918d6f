import MagxNet.Lib.Callout
import MagxNet.Timer.Run

set_option autoImplicit false

namespace MagxNet.Timer

open Delta Callout

-- Beside what step does the clock may be set to any time.
inductive Op where
  | cmd (c : Cmd)
  | setClock (hz : Int)
deriving DecidableEq, Repr

def stepOp (newtimeout : Newtimeout) (s : Timers) : Op → Option Timers
  | .cmd c => step newtimeout s c
  | .setClock hz => some { s with hz := hz }

def runOps (newtimeout : Newtimeout) : List Op → Timers → Option Timers
  | [], s => some s
  | op :: rest, s => (stepOp newtimeout s op).bind (runOps newtimeout rest)

-- What is asked of an agenda of events.
inductive Act where
  | wait (d : Nat)
  | add (ep : Nat) (delta : Int)
  | del (ep : Nat)
  | reset (ep : Nat) (delta : Int)
  | call (ep : Nat)
  | rest
deriving DecidableEq, Repr

-- An event that is added for no later than now is called at once; one that is set back to no later than now, too.
def act (a : Agenda Nat) : Act → Option (Agenda Nat)
  | .wait d => some (wait d a)
  | .add ep delta => some (if 0 < delta then set .oldestFirst ep delta a else setAtOnce ep delta a)
  | .del ep => some (withdraw (fun k => k = ep) a)
  | .reset ep delta =>
      match deadline a ep with
      | none => some a
      | some time =>
          if time = a.now + delta then some a
          else if time < a.now + delta ∨ 0 < delta then some (set .oldestFirst ep delta a)
          else some (setAtOnce ep delta a)
  | .call ep => call ep a
  | .rest => rest a

def follow : List Act → Agenda Nat → Option (Agenda Nat)
  | [], a => some a
  | x :: rest, a => (act a x).bind (follow rest)

-- How far update_head moves its time base, in units of EVTGRAN: not at all when the clock has run backwards.
def elapsed (s : Timers) : Nat := ((s.hz - s.last) / 2).toNat

def checkActs (s : Timers) : List Act :=
  [.wait (elapsed s), match (updateHead s).allevents with
    | [] => .rest
    | ep :: _ => if ep.gap ≤ 0 then .call ep.key else .rest]

def acts (s : Timers) : Op → List Act
  | .cmd (.add ep delta) => if 0 < delta then [.wait (elapsed s), .add ep delta] else [.add ep delta]
  | .cmd (.del ep) => [.del ep]
  | .cmd (.reset ep delta) => [.wait (elapsed s), .reset ep delta]
  | .cmd .ask => [.wait (elapsed s)]
  | .cmd .alarm =>
      match s.tlist with
      | [] => []
      | t :: _ => if t.key.func = .checkEvents then checkActs s else []
  | .cmd .back => checkActs s
  | _ => []

def actsOf (newtimeout : Newtimeout) : List Op → Timers → List Act
  | [], _ => []
  | op :: rest, s =>
      match stepOp newtimeout s op with
      | none => []
      | some s' => acts s op ++ actsOf newtimeout rest s'

-- The event list shows the agenda, counted from the time base of update_head.
structure Views (s : Timers) (a : Agenda Nat) : Prop where
  shown : Shows a.now s.allevents a.pending
  kept : Kept a
  listed : ∀ ep, s.armed ep = true ↔ ep ∈ s.allevents.map Entry.key
  started : s.init = true → s.allevents = []

section Frames

variable (s : Timers)

-- What the list of events consists of.
def events (s : Timers) : List (Entry Nat) × (Nat → Bool) × Bool := (s.allevents, s.armed, s.init)

theorem views_events (s' : Timers) (a : Agenda Nat) (same : events s' = events s) (views : Views s a) : Views s' a := by
  obtain ⟨list, armed, init⟩ := Prod.ext_iff.mp same |>.imp_right Prod.ext_iff.mp
  dsimp only [events] at list armed init
  exact ⟨list ▸ views.shown, views.kept, by rw [list, armed]; exact views.listed, by rw [list, init]; exact views.started⟩

theorem add_root_events (newtimeout : Newtimeout) (delta : Int) (func : Func) :
    events (addroottimeout newtimeout s delta func).2 = events s := by
  rw [addroottimeout]
  split <;> rfl

theorem cancel_root_events (id : Nat) : events (cancelroottimeout s id) = events s := by
  rw [cancelroottimeout]
  split <;> rfl

theorem cancel_next_events : events (cancelNext s) = events s := by
  rw [cancelNext]
  split
  · exact cancel_root_events s _
  · rfl

theorem arm_next_events (newtimeout : Newtimeout) (delta : Int) : events (armNext newtimeout s delta) = events s :=
  add_root_events s newtimeout (delta * EVTGRAN) .checkEvents

theorem update_head_list (started : s.init = true → s.allevents = []) :
    (updateHead s).allevents = addFirst (-(elapsed s : Int)) s.allevents := by
  rw [updateHead, elapsed]
  split
  · rename_i fresh
    rcases fresh with yes | none | back
    · rw [started yes]
      rfl
    · rw [none]
      rfl
    · have zero : ((s.hz - s.last) / 2).toNat = 0 := by omega
      rw [zero]
      exact (add_first_zero _).symm
  · have few : (((s.hz - s.last) / 2).toNat : Int) = (s.hz - s.last) / 2 := by omega
    rw [few]

theorem update_head_init : (updateHead s).init = false := by
  rw [updateHead]
  split
  · rfl
  · rename_i fresh
    simp only [not_or] at fresh
    simpa using fresh.1

theorem update_head_elapsed : elapsed (updateHead s) = 0 := by
  rw [elapsed, updateHead]
  split <;> dsimp only <;> omega

theorem update_head_views (a : Agenda Nat) (views : Views s a) : Views (updateHead s) (wait (elapsed s) a) := by
  have list := update_head_list s views.started
  have armed := (update_head_frame s).2.2.2.2.2.2
  refine ⟨list ▸ shows_wait a.now (elapsed s) s.allevents a.pending views.shown, wait_kept _ a views.kept, fun ep => ?_, fun yes => ?_⟩
  · rw [armed, list, keys_add_first]
    exact views.listed ep
  · rw [update_head_init] at yes
    cases yes

end Frames

section Steps

variable (newtimeout : Newtimeout) (s : Timers) (a : Agenda Nat)

theorem removed_shown (ep : Nat) (shown : Shows a.now s.allevents a.pending) :
    Shows a.now (eventRemove s ep).allevents (withdraw (fun k => decide (k = ep)) a).pending :=
  shows_remove (fun k => decide (k = ep)) a.now s.allevents a.pending (keys_apart ep _ shown.keys) shown

theorem removed_listed (ep : Nat) (views : Views s a) : ListedBut ep (eventRemove s ep) := by
  rw [ListedBut, remove_keys s ep]
  have keys := views.shown.keys
  refine ⟨fun inside => absurd rfl (keys.mem_erase_iff.mp inside).1, fun e other => ?_⟩
  rw [keys.mem_erase_iff]
  exact (views.listed e).trans ⟨fun inside => ⟨other, inside⟩, fun facts => facts.2⟩

theorem removed_started (ep : Nat) (started : s.init = true → s.allevents = []) :
    (eventRemove s ep).init = true → (eventRemove s ep).allevents = [] := by
  intro yes
  rw [eventRemove, started yes]
  rfl

-- event_insert of an event that is not in the list: what the agenda had it for is withdrawn.
theorem insert_views (ep : Nat) (delta : Int) (kept : Kept a) (listed : ListedBut ep s) (set' : s.armed ep = true)
    (started : s.init = true → s.allevents = [])
    (shown : Shows a.now s.allevents (withdraw (fun k => decide (k = ep)) a).pending) :
    Views (eventInsert newtimeout s ep delta)
      (if 0 < delta then set .oldestFirst ep delta (wait (elapsed s) a) else setAtOnce ep delta a) := by
  rw [eventInsert]
  by_cases atOnce : delta ≤ 0
  · rw [if_pos atOnce, if_neg (not_lt.mpr atOnce)]
    refine ⟨shown, set_at_once_kept ep delta a kept, fun e => ?_, started⟩
    by_cases same : e = ep
    · rw [same]
      simp [listed.1]
    · change Function.update s.armed ep false e = true ↔ _
      rw [Function.update_of_ne same]
      exact listed.2 e same
  · rw [if_neg atOnce, if_pos (not_le.mp atOnce)]
    have list := update_head_list s started
    have armed := (update_head_frame s).2.2.2.2.2.2
    have init := update_head_init s
    generalize updateHead s = s1 at list armed init ⊢
    have placed := keys_insert_after ep delta s1.allevents
    have absent : ep ∉ s1.allevents.map Entry.key := by
      rw [list, keys_add_first]
      exact listed.1
    have inserted : Views { s1 with allevents := insertAfter ep delta s1.allevents }
        (set .oldestFirst ep delta (wait (elapsed s) a)) := by
      refine ⟨?_, set_kept _ ep delta _ (wait_kept _ a kept), fun e => ?_, fun yes => by rw [init] at yes; cases yes⟩
      · have before := shows_wait a.now (elapsed s) s.allevents _ shown
        rw [← list] at before
        exact shows_insert_after ep delta (a.now + elapsed s) a.count s1.allevents _ absent before
      · dsimp only
        rw [placed.mem_iff, List.mem_cons, armed, list, keys_add_first]
        by_cases same : e = ep
        · simp [same, set']
        · rw [listed.2 e same]
          simp [same]
    dsimp only
    split
    · refine views_events _ _ _ ?_ inserted
      exact (arm_next_events _ newtimeout delta).trans (cancel_next_events _)
    · exact inserted

theorem add_views (ep : Nat) (delta : Int) (views : Views s a) :
    Views (eventAdd newtimeout s ep delta)
      (if 0 < delta then set .oldestFirst ep delta (wait (elapsed s) a) else setAtOnce ep delta a) := by
  have removed : (if s.armed ep = true then eventRemove s ep else s) = eventRemove s ep := by
    split
    · rfl
    · rename_i unset
      rw [eventRemove, remove_absent ep s.allevents (fun inside => unset ((views.listed ep).mpr inside))]
  rw [eventAdd, removed]
  have listed := removed_listed s a ep views
  refine insert_views newtimeout { eventRemove s ep with armed := Function.update (eventRemove s ep).armed ep true } a ep delta views.kept
    ⟨listed.1, fun e other => ?_⟩ (Function.update_self ..) (removed_started s ep views.started) (removed_shown s a ep views.shown)
  change Function.update (eventRemove s ep).armed ep true e = true ↔ _
  rw [Function.update_of_ne other]
  exact listed.2 e other

theorem del_views (ep : Nat) (views : Views s a) : Views (eventDel s ep) (withdraw (fun k => decide (k = ep)) a) := by
  rw [eventDel]
  have shown := removed_shown s a ep views.shown
  have kept := withdraw_kept (fun k => decide (k = ep)) a views.kept
  by_cases yes : s.armed ep = true
  · rw [if_pos yes]
    obtain ⟨absent, others⟩ := removed_listed s a ep views
    refine ⟨shown, kept, fun e => ?_, removed_started s ep views.started⟩
    by_cases same : e = ep
    · rw [same]
      simp [absent]
    · change Function.update s.armed ep false e = true ↔ _
      rw [Function.update_of_ne same]
      exact others e same
  · rw [if_neg yes]
    rw [eventRemove, remove_absent ep s.allevents (fun inside => yes ((views.listed ep).mpr inside))] at shown
    exact ⟨shown, kept, views.listed, views.started⟩

theorem reset_views (ep : Nat) (delta : Int) (views : Views s a) :
    ∃ a', act (wait (elapsed s) a) (.reset ep delta) = some a' ∧ Views (eventReset newtimeout s ep delta) a' := by
  have views1 := update_head_views s a views
  have still : elapsed (updateHead s) = 0 := update_head_elapsed s
  have init := update_head_init s
  rw [eventReset, act]
  generalize updateHead s = s1 at views1 still init ⊢
  generalize wait (elapsed s) a = a1 at views1 ⊢
  have time : deadline a1 ep = (timeOf (fun k => decide (k = ep)) 0 s1.allevents).map fun ticks => ticks + a1.now := by
    rw [← shows_deadline a1 s1.allevents views1.kept views1.shown ep, ← time_of_shift, zero_add]
  have removed := removed_shown s1 a1 ep views1.shown
  cases found : timeOf (fun k => decide (k = ep)) 0 s1.allevents with
  | none =>
      rw [found] at time
      rw [time]
      exact ⟨a1, rfl, views1⟩
  | some ticks =>
      rw [found] at time
      rw [time]
      dsimp only [Option.map_some]
      by_cases equal : delta = ticks
      · rw [if_pos equal, if_pos (by omega)]
        exact ⟨a1, rfl, views1⟩
      · rw [if_neg equal, if_neg (by omega)]
        by_cases later : ticks < delta
        · rw [if_pos later, if_pos (Or.inl (by omega)), move_eq ep s1.allevents ticks 0 delta views1.shown.sorted found (by omega)]
          have listed := removed_listed s1 a1 ep views1
          have placed := keys_insert_after ep delta (remove (fun k => decide (k = ep)) s1.allevents)
          refine ⟨_, rfl, shows_insert_after ep delta a1.now a1.count _ _ listed.1 removed, set_kept _ ep delta a1 views1.kept, fun e => ?_,
            fun yes => by rw [init] at yes; cases yes⟩
          dsimp only
          rw [placed.mem_iff, List.mem_cons]
          by_cases same : e = ep
          · have present : ep ∈ s1.allevents.map Entry.key := by
              obtain ⟨key, alike, member, _⟩ := due_move _ s1.allevents ticks 0 delta found
              rw [← due_keys s1.allevents 0, ← of_decide_eq_true alike]
              exact List.mem_map_of_mem member
            simp only [same, true_or, iff_true]
            exact (views1.listed ep).mpr present
          · simp only [same, false_or]
            exact listed.2 e same
        · rw [if_neg later]
          have present : s1.armed ep = true := by
            obtain ⟨key, alike, member, _⟩ := due_move _ s1.allevents ticks 0 delta found
            rw [views1.listed ep, ← due_keys s1.allevents 0, ← of_decide_eq_true alike]
            exact List.mem_map_of_mem member
          have inserted := insert_views newtimeout (eventRemove s1 ep) a1 ep delta views1.kept (removed_listed s1 a1 ep views1) present
            (removed_started s1 ep views1.started) removed
          have none : elapsed (eventRemove s1 ep) = 0 := still
          rw [none, wait_zero] at inserted
          by_cases ahead : 0 < delta
          · rw [if_pos (Or.inr ahead)]
            rw [if_pos ahead] at inserted
            exact ⟨_, rfl, inserted⟩
          · rw [if_neg (by omega)]
            rw [if_neg ahead] at inserted
            exact ⟨_, rfl, inserted⟩

theorem check_views (views : Views s a) : ∃ a', follow (checkActs s) a = some a' ∧ Views (checkEvents newtimeout s) a' := by
  have views1 := update_head_views s a views
  have init := update_head_init s
  rw [checkEvents, checkActs, follow, act, Option.bind_some, follow]
  generalize updateHead s = s1 at views1 init ⊢
  generalize wait (elapsed s) a = a1 at views1 ⊢
  have quiet : (∀ cur ∈ s1.allevents.head?, 0 < cur.gap) → act a1 .rest = some a1 := by
    intro front
    have waiting := shows_rest a1.now s1.allevents a1.pending views1.shown front
    rw [act, rest, if_pos (by simpa using waiting)]
  cases list : s1.allevents with
  | nil =>
      dsimp only
      refine ⟨a1, ?_, views_events s1 _ a1 (by rw [events, events, list]) views1⟩
      rw [quiet (by simp [list])]
      rfl
  | cons ep rest =>
      dsimp only
      by_cases due' : ep.gap ≤ 0
      · rw [if_pos due', if_pos due']
        have shown := views1.shown
        rw [list] at shown
        obtain ⟨x, found, same⟩ := shows_next a1.now ep rest a1.pending shown
        have named : x.key = ep.key := congrArg Prod.fst same
        have time : x.time = a1.now + ep.gap := congrArg Prod.snd same
        have called : act a1 (.call ep.key) = some { a1 with
            pending := a1.pending.filter fun y => !decide (y.key = ep.key), called := a1.called ++ [x] } := by
          rw [act, call, found]
          exact if_pos ⟨named, by omega⟩
        rw [called]
        refine ⟨_, rfl, ?_, call_kept ep.key a1 _ views1.kept called, fun e => ?_, fun yes => by rw [init] at yes; cases yes⟩
        · have removed := shows_remove (fun k => decide (k = ep.key)) a1.now _ a1.pending (keys_apart ep.key _ shown.keys) shown
          rwa [remove, if_pos (by simp)] at removed
        · have keys := shown.keys
          rw [List.map_cons, List.nodup_cons] at keys
          dsimp only
          rw [keys_add_first]
          by_cases self : e = ep.key
          · rw [self]
            simp [keys.1]
          · rw [Function.update_of_ne self, views1.listed e, list, List.map_cons, List.mem_cons]
            simp [self]
      · rw [if_neg due', if_neg due']
        refine ⟨a1, ?_, views_events s1 _ a1 (arm_next_events s1 newtimeout ep.gap) views1⟩
        rw [quiet (by simpa [list] using due')]
        rfl

theorem step_views (op : Op) (s' : Timers) (views : Views s a) (run : stepOp newtimeout s op = some s') :
    ∃ a', follow (acts s op) a = some a' ∧ Views s' a' := by
  cases op with
  | setClock hz =>
      cases run
      exact ⟨a, rfl, views_events s _ a rfl views⟩
  | cmd c =>
      rw [stepOp] at run
      cases c with
      | add ep delta =>
          cases run
          have added := add_views newtimeout s a ep delta views
          rw [acts]
          split
          · rename_i ahead
            rw [if_pos ahead] at added
            refine ⟨_, ?_, added⟩
            rw [follow, act, Option.bind_some, follow, act, if_pos ahead]
            rfl
          · rename_i atOnce
            rw [if_neg atOnce] at added
            refine ⟨_, ?_, added⟩
            rw [follow, act, if_neg atOnce]
            rfl
      | del ep =>
          cases run
          exact ⟨_, rfl, del_views s a ep views⟩
      | reset ep delta =>
          cases run
          obtain ⟨a', done, views'⟩ := reset_views newtimeout s a ep delta views
          refine ⟨a', ?_, views'⟩
          rw [acts, follow, act, Option.bind_some, follow, done]
          rfl
      | ask =>
          cases run
          exact ⟨_, rfl, update_head_views s a views⟩
      | clock =>
          cases run
          refine ⟨a, rfl, views_events s _ a ?_ views⟩
          rw [clock]
          split <;> rfl
      | alarm =>
          rw [step] at run
          split at run
          · cases run
          · rw [checkalarms] at run
            rw [acts]
            cases timeouts : s.tlist with
            | nil =>
                rw [timeouts] at run
                cases run
            | cons t others =>
                rw [timeouts] at run
                dsimp only at run ⊢
                split at run
                · by_cases own : t.key.func = .checkEvents
                  · rw [if_pos own] at run ⊢
                    cases run
                    have before : Views { s with
                        tlist := addFirst t.gap others, expireList := (t.key, s.hz + TIMEOUT_EXPIRE_LIMIT) :: s.expireList } a :=
                      views_events s _ a rfl views
                    obtain ⟨a', done, views'⟩ := check_views newtimeout _ a before
                    refine ⟨a', ?_, views'⟩
                    have list := update_head_list s views.started
                    have list' := update_head_list _ before.started
                    rw [checkActs, list'] at done
                    rw [checkActs, list]
                    exact done
                  · rw [if_neg own] at run ⊢
                    cases run
                    exact ⟨a, rfl, views_events s _ a rfl views⟩
                · cases run
      | back =>
          rw [step] at run
          split at run
          · cases run
            exact check_views newtimeout s a views
          · cases run
      | dispose =>
          rw [step] at run
          split at run
          · cases run
          · cases run
            exact ⟨a, rfl, views_events s _ a rfl views⟩
      | root n delta =>
          cases run
          exact ⟨a, rfl, views_events s _ a (add_root_events s newtimeout delta _) views⟩
      | unroot id =>
          rw [step] at run
          split at run
          · cases run
          · cases run
            exact ⟨a, rfl, views_events s _ a (cancel_root_events s id) views⟩

end Steps

end MagxNet.Timer
