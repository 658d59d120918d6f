import MagxNet.Timer.Chain

set_option autoImplicit false

namespace MagxNet.Timer

open Delta

section Steps

variable (s : Timers)

theorem check_inv (newtimeout : Newtimeout) (fresh : ∀ used, newtimeout used ∉ used) (inv : Inv s) (inside : s.calling = true) :
    Inv (checkEvents newtimeout s) := by
  rcases inv.watched with ⟨_, idle⟩ | ⟨outside, _⟩ | ⟨outside, _⟩
  · exact check_events_inv s newtimeout fresh inv.base idle inv.listed
  · rw [outside] at inside
    cases inside
  · rw [outside] at inside
    cases inside

-- A step of the clock takes 5 ms off what is left of every event, and 20 ms off a timeout when new_etv_timer runs.
theorem clock_inv (inv : Inv s) : Inv (clock s) := by
  have elapsed : s.last ≤ s.hz + 1 ∨ s.init = true := inv.base.elapsed.imp_left fun order => by omega
  have phase := inv.base.phase
  rw [clock]
  dsimp only
  by_cases wrap : s.phase = 3
  · rw [if_pos wrap]
    have dues : due 0 (addFirst (-20) s.tlist) = (due 0 s.tlist).map fun t => (t.1, t.2 + -20) := by
      rw [due_add_first, due_shift]
    have less : (due 0 (addFirst (-20) s.tlist)).filter (fun t => t.1.func = .checkEvents) =
        (pending s).map fun t => (t.1, t.2 + -20) := by
      rw [dues, List.filter_map]
      rfl
    refine ⟨⟨?_, inv.base.sorted, inv.base.keys, inv.base.started, elapsed, le_refl 0⟩, ?_, inv.listed⟩
    · have distinct := inv.base.distinct
      rw [in_use_eq] at distinct ⊢
      rw [newEtvTimer]
      dsimp only
      rw [keys_add_first]
      exact distinct
    · rcases inv.watched with ⟨inside, idle⟩ | ⟨outside, none, idle, empty⟩ | ⟨outside, id, left, some, one, onTime⟩
      · exact Or.inl ⟨inside, less.trans (by rw [idle]; rfl)⟩
      · exact Or.inr (Or.inl ⟨outside, none, less.trans (by rw [idle]; rfl), empty⟩)
      · refine Or.inr (Or.inr ⟨outside, id, left + -20, some, less.trans (by rw [one]; rfl), fun ep member => ?_⟩)
        have bound := onTime ep member
        dsimp only [newEtvTimer, EVTGRAN] at bound ⊢
        omega
  · rw [if_neg wrap]
    refine ⟨⟨inv.base.distinct, inv.base.sorted, inv.base.keys, inv.base.started, elapsed, by dsimp only; omega⟩, ?_, inv.listed⟩
    rcases inv.watched with inside | none | ⟨outside, id, left, some, one, onTime⟩
    · exact Or.inl inside
    · exact Or.inr (Or.inl none)
    · refine Or.inr (Or.inr ⟨outside, id, left, some, one, fun ep member => ?_⟩)
      have bound := onTime ep member
      dsimp only [EVTGRAN] at bound ⊢
      omega

-- The lists of timeouts change, but what is pending for check_events does not.
theorem others_inv (tlist : List (Entry Timeout)) (expireList : List (Timeout × Int)) (inv : Inv s)
    (distinct : (inUse { s with tlist := tlist, expireList := expireList }).Nodup)
    (same : pending { s with tlist := tlist, expireList := expireList } = pending s) :
    Inv { s with tlist := tlist, expireList := expireList } := by
  refine ⟨⟨distinct, inv.base.sorted, inv.base.keys, inv.base.started, inv.base.elapsed, inv.base.phase⟩, ?_, inv.listed⟩
  rw [Watched, same]
  exact inv.watched

theorem root_inv (newtimeout : Newtimeout) (fresh : ∀ used, newtimeout used ∉ used) (n : Nat) (delta : Int) (inv : Inv s) :
    Inv (addroottimeout newtimeout s delta (.other n)).2 := by
  obtain ⟨id, tlist, expireList, step, place, distinct⟩ := addroottimeout_spec s newtimeout fresh delta (.other n) inv.base.distinct
  have same := pending_root s tlist expireList id (.other n) delta place
  rw [if_neg (fun own => by cases own)] at same
  rw [step]
  refine others_inv s tlist expireList inv distinct ?_
  rcases inv.watched with ⟨_, idle⟩ | ⟨_, _, idle, _⟩ | ⟨_, _, _, _, one, _⟩
  · rw [idle] at same ⊢
    exact List.perm_nil.mp same
  · rw [idle] at same ⊢
    exact List.perm_nil.mp same
  · rw [one] at same ⊢
    exact List.perm_singleton.mp same

theorem pending_key (t : Timeout × Int) (member : t ∈ pending s) : t.1 ∈ s.tlist.map Entry.key ∧ t.1.func = .checkEvents := by
  obtain ⟨inside, own⟩ := List.mem_filter.mp member
  rw [← due_keys s.tlist 0]
  exact ⟨List.mem_map_of_mem inside, of_decide_eq_true own⟩

theorem unroot_inv (id : Nat) (inv : Inv s)
    (foreign : ∀ t ∈ s.tlist.map Entry.key ++ s.expireList.map Prod.fst, ¬ (t.id = id ∧ t.func = .checkEvents)) :
    Inv (cancelroottimeout s id) := by
  obtain ⟨tlist, expireList, step, distinct, kept, _⟩ := cancelroottimeout_spec s id inv.base.distinct
  rw [step]
  refine others_inv s tlist expireList inv distinct (kept fun t member same => ?_)
  obtain ⟨key, own⟩ := pending_key s t member
  exact foreign t.1 (List.mem_append_left _ key) ⟨same, own⟩

theorem dispose_inv (inv : Inv s) : Inv (disposeOldTimeouts s) := by
  refine others_inv s s.tlist _ inv ?_ rfl
  have distinct := inv.base.distinct
  rw [in_use_eq] at distinct ⊢
  exact distinct.sublist (((List.takeWhile_sublist _).map _).append_left _)

theorem alarm_inv (newtimeout : Newtimeout) (fresh : ∀ used, newtimeout used ∉ used) (s' : Timers) (inv : Inv s)
    (run : checkalarms newtimeout s = some s') : Inv s' := by
  rw [checkalarms] at run
  cases timeouts : s.tlist with
  | nil =>
      rw [timeouts] at run
      cases run
  | cons t rest =>
      rw [timeouts] at run
      dsimp only at run
      by_cases expired : t.gap ≤ 0
      · rw [if_pos expired] at run
        generalize popped : { s with
          tlist := addFirst t.gap rest, expireList := (t.key, s.hz + TIMEOUT_EXPIRE_LIMIT) :: s.expireList } = s1 at run
        have dues : due 0 s.tlist = (t.key, 0 + t.gap) :: due 0 (addFirst t.gap rest) := by
          rw [timeouts, due_cons, due_add_first]
        have distinct : (inUse s1).Nodup := by
          have before := inv.base.distinct
          rw [in_use_eq, timeouts] at before
          subst popped
          rw [in_use_eq]
          dsimp only
          rw [keys_add_first]
          exact List.perm_middle.symm.nodup before
        by_cases own : t.key.func = .checkEvents
        · rw [if_pos own] at run
          cases run
          have idle : pending s1 = [] := by
            have split : pending s = (t.key, 0 + t.gap) :: pending s1 := by
              subst popped
              rw [pending, dues, List.filter_cons_of_pos (by simpa using own)]
              rfl
            rcases inv.watched with ⟨_, idle⟩ | ⟨_, _, idle, _⟩ | ⟨_, _, _, _, one, _⟩
            · rw [idle] at split
              cases split
            · rw [idle] at split
              cases split
            · rw [one] at split
              exact (List.cons.inj split).2.symm
          subst popped
          refine check_events_inv _ newtimeout fresh ?_ idle inv.listed
          exact ⟨distinct, inv.base.sorted, inv.base.keys, inv.base.started, inv.base.elapsed, inv.base.phase⟩
        · rw [if_neg own] at run
          cases run
          subst popped
          refine others_inv s _ _ inv distinct ?_
          rw [pending, pending, dues, List.filter_cons_of_neg (by simpa using own)]
      · rw [if_neg expired] at run
        cases run

theorem step_inv (newtimeout : Newtimeout) (fresh : ∀ used, newtimeout used ∉ used) (cmd : Cmd) (s' : Timers) (inv : Inv s)
    (quiet : s.calling = true → cmd.atHead s = false) (run : step newtimeout s cmd = some s') : Inv s' := by
  cases cmd with
  | add ep delta =>
      cases run
      exact add_inv s newtimeout fresh ep delta inv quiet
  | del ep =>
      cases run
      exact del_inv s ep inv
  | reset ep delta =>
      cases run
      exact reset_inv s newtimeout fresh ep delta inv quiet
  | ask =>
      cases run
      exact ask_inv s inv
  | clock =>
      cases run
      exact clock_inv s inv
  | alarm =>
      rw [step] at run
      split at run
      · cases run
      · exact alarm_inv s newtimeout fresh s' inv run
  | back =>
      rw [step] at run
      split at run
      · cases run
        exact check_inv s newtimeout fresh inv (by assumption)
      · cases run
  | dispose =>
      rw [step] at run
      split at run
      · cases run
      · cases run
        exact dispose_inv s inv
  | root n delta =>
      cases run
      exact root_inv s newtimeout fresh n delta inv
  | unroot id =>
      rw [step] at run
      split at run
      · cases run
      · rename_i foreign
        cases run
        refine unroot_inv s id inv fun t member own => foreign (List.any_eq_true.mpr ⟨t, member, by simpa using own⟩)

end Steps

def initial (hz phase : Int) : Timers where
  allevents := []
  armed _ := false
  nexttimeout := none
  tlist := []
  expireList := []
  last := 0
  init := true
  hz := hz
  phase := phase
  calling := false

-- The states that runs lead to whose steps are all allowed.
inductive Reachable (allowed : Timers → Cmd → Prop) : Timers → Prop where
  | start (hz phase : Int) (lower : 0 ≤ phase) (upper : phase ≤ 3) : Reachable allowed (initial hz phase)
  | step (newtimeout : Newtimeout) (s s' : Timers) (cmd : Cmd) (reach : Reachable allowed s)
      (fresh : ∀ used, newtimeout used ∉ used) (yes : allowed s cmd) (run : step newtimeout s cmd = some s') :
      Reachable allowed s'

-- No callback of check_events puts an event at the head of the list.
def Quiet (s : Timers) (cmd : Cmd) : Prop := s.calling = true → cmd.atHead s = false

-- At most one timeout of check_events is pending, and exactly one if there are events; by the clock, in units of
-- EVTGRAN, it is due no later than the event at the head.
structure Chained (s : Timers) : Prop where
  atMost : (pending s).length ≤ 1
  due : s.allevents ≠ [] → ∃ t, pending s = [t] ∧
    ∀ ep ∈ (updateHead s).allevents.head?, (t.2 - 5 * s.phase) / EVTGRAN ≤ ep.gap

theorem reachable_inv (s : Timers) (reach : Reachable Quiet s) : Inv s := by
  induction reach with
  | start hz phase lower upper =>
      refine ⟨⟨List.nodup_nil, List.Pairwise.nil, List.nodup_nil, fun _ => rfl, Or.inr rfl, lower⟩, Or.inr (Or.inl ⟨rfl, rfl, rfl, rfl⟩), ?_⟩
      simp [initial]
  | step newtimeout s s' cmd _ fresh quiet run inv => exact step_inv s newtimeout fresh cmd s' inv quiet run

theorem inv_chained (s : Timers) (inv : Inv s) (outside : s.calling = false) : Chained s := by
  rcases inv.watched with ⟨inside, _⟩ | ⟨_, _, idle, empty⟩ | ⟨_, id, left, _, one, onTime⟩
  · rw [outside] at inside
    cases inside
  · refine ⟨by rw [idle]; exact Nat.zero_le 1, fun some => absurd empty some⟩
  · refine ⟨by rw [one]; exact le_refl 1, fun _ => ⟨_, one, fun ep head => ?_⟩⟩
    obtain ⟨rest, events⟩ := List.head?_eq_some_iff.mp head
    obtain ⟨_, _, _, _, lower, upper⟩ := update_head_spec s inv.base.started inv.base.elapsed
    obtain ⟨_, _, _, hz, phase, _⟩ := update_head_frame s
    have bound := update_head_on_time s left inv.base.started inv.base.elapsed onTime (ep.key, 0 + ep.gap)
      (by rw [events]; exact List.mem_cons_self ..)
    rw [hz, phase] at bound
    dsimp only [EVTGRAN] at bound ⊢
    omega

theorem timer_chain_unique (s : Timers) (reach : Reachable Quiet s) (outside : s.calling = false) : Chained s :=
  inv_chained s (reachable_inv s reach) outside

def unusedTimeout : Newtimeout := fun used => used.foldr max 0 + 1

theorem unused_fresh (used : List Nat) : unusedTimeout used ∉ used := by
  have below : ∀ (l : List Nat), ∀ x ∈ l, x ≤ l.foldr max 0 := by
    intro l
    induction l with
    | nil => exact fun x member => absurd member List.not_mem_nil
    | cons y rest next =>
        intro x member
        rw [List.foldr_cons]
        rcases List.mem_cons.mp member with rfl | deeper
        · exact le_max_left ..
        · exact (next x deeper).trans (le_max_right ..)
  intro inside
  have := below used _ inside
  rw [unusedTimeout] at this
  omega

-- An event is added; nothing has been pending before.
theorem timer_chain_unique_add : ∃ s : Timers, s.allevents = [⟨0, 5⟩] ∧ Chained s := by
  have start : Reachable Quiet (initial 1000 0) := .start 1000 0 (le_refl 0) (by decide)
  have added := Reachable.step unusedTimeout _ _ (.add 0 5) start unused_fresh (fun inside => by cases inside) rfl
  exact ⟨_, rfl, timer_chain_unique _ added rfl⟩

def steps (newtimeout : Newtimeout) : List Cmd → Timers → Option Timers
  | [], s => some s
  | cmd :: rest, s => (step newtimeout s cmd).bind (steps newtimeout rest)

theorem reachable_steps (newtimeout : Newtimeout) (fresh : ∀ used, newtimeout used ∉ used) (cmds : List Cmd) :
    ∀ s s' : Timers, Reachable (fun _ _ => True) s → steps newtimeout cmds s = some s' → Reachable (fun _ _ => True) s' := by
  induction cmds with
  | nil =>
      intro s s' reach run
      cases run
      exact reach
  | cons cmd rest next =>
      intro s s' reach run
      obtain ⟨mid, first, later⟩ := Option.bind_eq_some_iff.mp run
      exact next mid s' (.step newtimeout s mid cmd reach fresh trivial first) later

-- The callback of the only event adds the event again.
def periodic : List Cmd := [.add 0 1, .clock, .clock, .clock, .clock, .alarm, .add 0 1, .back]

theorem periodic_pending : (steps unusedTimeout periodic (initial 1000 0)).map (fun s => (s.calling, (pending s).length)) = some (false, 2) := by
  decide

theorem timer_chain_doubled : ¬ ∀ s : Timers, Reachable (fun _ _ => True) s → s.calling = false → Chained s := by
  intro all
  obtain ⟨s, run, result⟩ := Option.map_eq_some_iff.mp periodic_pending
  have reach := reachable_steps unusedTimeout unused_fresh periodic _ s (.start 1000 0 (le_refl 0) (by decide)) run
  have two : (pending s).length = 2 := congrArg Prod.snd result
  have one := (all s reach (congrArg Prod.fst result)).atMost
  omega

end MagxNet.Timer
