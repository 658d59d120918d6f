import MagxNet.Timer.Expiry

set_option autoImplicit false

namespace MagxNet.Timeouts

open Delta Callout

-- A caller cancels what one of the calls of addroottimeout has returned; the calls are counted.
inductive Call where
  | add (delta : Int) (func : Nat) (flags : Nat)
  | cancel (number : Nat)
  | cancelAll (curproc : Nat)
  | tick
  | setHz (hz : Int)
  | alarm
deriving DecidableEq, Repr

-- handles lists what addroottimeout has returned so far.
structure Issued where
  state : State
  handles : List (Option Ref)

def handle (w : Issued) (number : Nat) : Option Ref := (w.handles[number]?).join

def callStep (w : Issued) : Call → Option Issued
  | .add delta func flags => (addroottimeout w.state delta func flags).map fun r => ⟨r.2, w.handles ++ [r.1]⟩
  | .cancel number => (handle w number).map fun this => { w with state := cancelroottimeout w.state this }
  | .cancelAll curproc => some { w with state := cancelalltimeouts w.state curproc }
  | .tick => some { w with state := newEtvTimer w.state }
  | .setHz hz => some { w with state := { w.state with hz := hz } }
  | .alarm => some { w with state := checkalarms w.state }

def start (hz : Int) : Issued := ⟨initial hz, []⟩

-- The structure t stands for the timeout of the last call that has returned it.
def Latest (handles : List (Option Ref)) (t : Ref) (number : Nat) : Prop :=
  handles[number]? = some (some t) ∧ ∀ later, number < later → handles[later]? ≠ some (some t)

-- The timeout armed by the call number has neither fired nor been cancelled.
def Pending (w : Issued) (number : Nat) : Prop := ∃ t ∈ w.state.tlist.map Entry.key, Latest w.handles t number

-- Cancelling the handle of the call number takes away no other timeout than that of this call.
def CancelsOwn (w : Issued) (number : Nat) : Prop :=
  ∀ w', callStep w (.cancel number) = some w' → ∀ other, Pending w other → other ≠ number → Pending w' other

-- The structure has not been handed out again, or it is not waiting.
def NotReused (w : Issued) (number : Nat) : Prop :=
  ∀ t, handle w number = some t → t ∈ w.state.tlist.map Entry.key → ∀ later, number < later → handle w later ≠ some t

-- In a run, what is said of a cancelled handle holds before each cancel.
def EachCancel (holds : Issued → Nat → Prop) : List Call → Issued → Prop
  | [], _ => True
  | call :: rest, w => (∀ number, call = .cancel number → holds w number) ∧ ∀ w', callStep w call = some w' → EachCancel holds rest w'

structure Tracked (w : Issued) : Prop where
  views : ∃ a, Views w.state a
  returned : ∀ t ∈ listed w.state, some t ∈ w.handles

section Handles

variable (handles : List (Option Ref)) (t : Ref)

theorem latest_exists (inside : some t ∈ handles) : ∃ number, Latest handles t number := by
  induction handles using List.reverseRecOn with
  | nil => cases inside
  | append_singleton before last next =>
      by_cases here : last = some t
      · refine ⟨before.length, by simp [here], fun later more => ?_⟩
        rw [List.getElem?_eq_none (by simpa using more)]
        exact fun same => by cases same
      · have old : some t ∈ before := (List.mem_append.mp inside).resolve_right fun new => here (List.mem_singleton.mp new).symm
        obtain ⟨number, found, others⟩ := next old
        have less := (List.getElem?_eq_some_iff.mp found).1
        refine ⟨number, by rwa [List.getElem?_append_left less], fun later more same => ?_⟩
        rcases Nat.lt_or_ge later before.length with inner | outer
        · rw [List.getElem?_append_left inner] at same
          exact others later more same
        · rw [List.getElem?_append_right outer, List.getElem?_singleton] at same
          split at same
          · exact here (Option.some.inj same)
          · cases same

theorem handle_iff (w : Issued) (number : Nat) : handle w number = some t ↔ w.handles[number]? = some (some t) := by
  rw [handle, Option.join_eq_some_iff]

end Handles

section Steps

variable (w : Issued)

theorem cancel_keys (s : State) (a : Agenda Ref) (this : Ref) (views : Views s a) (r : Ref) :
    r ∈ (cancelroottimeout s this).tlist.map Entry.key ↔ r ∈ s.tlist.map Entry.key ∧ r ≠ this := by
  have once := views.once
  rw [listed, List.nodup_append] at once
  obtain ⟨front, _, apart⟩ := once
  rw [cancelroottimeout]
  split
  · rename_i expired
    obtain ⟨x, inside, same⟩ := List.any_eq_true.mp expired
    have old : this ∈ s.expireList.map Prod.fst := of_decide_eq_true same ▸ List.mem_map_of_mem inside
    exact ⟨fun pending => ⟨pending, apart r pending this old⟩, And.left⟩
  · split
    · dsimp only
      have keys : (remove (fun cur => decide (cur = this)) s.tlist).map Entry.key = (s.tlist.map Entry.key).erase this := by
        rw [keys_remove, List.erase_eq_eraseP']
        rfl
      rw [keys, front.mem_erase_iff, and_comm]
    · rename_i absent
      exact ⟨fun pending => ⟨pending, fun same => absent (same ▸ pending)⟩, And.left⟩

theorem cancels_own_iff (number : Nat) (tracked : Tracked w) : CancelsOwn w number ↔ NotReused w number := by
  obtain ⟨a, views⟩ := tracked.views
  constructor
  · intro own t returned waiting later more again
    obtain ⟨last, newest⟩ := latest_exists w.handles t (tracked.returned t (List.mem_append_left _ waiting))
    have order : later ≤ last := by
      by_contra less
      exact newest.2 later (not_le.mp less) ((handle_iff t w later).mp again)
    have kept := own _ (by rw [callStep, returned]; rfl) last ⟨t, waiting, newest⟩ (by omega)
    obtain ⟨r, left, held⟩ := kept
    have same : r = t := by
      have both := held.1.symm.trans newest.1
      injection both with inner
      injection inner
    exact ((cancel_keys w.state a t views r).mp left).2 same
  · intro fresh w' run other pending different
    obtain ⟨t, returned, rfl⟩ := Option.map_eq_some_iff.mp run
    obtain ⟨r, waiting, newest⟩ := pending
    refine ⟨r, (cancel_keys w.state a t views r).mpr ⟨waiting, ?_⟩, newest⟩
    rintro rfl
    have here := (handle_iff r w number).mp returned
    rcases Nat.lt_or_gt_of_ne different with before | after
    · exact newest.2 number before here
    · exact fresh r returned waiting other after ((handle_iff r w other).mpr newest.1)

theorem add_listed (s s' : State) (delta : Int) (func flags : Nat) (r : Option Ref)
    (run : addroottimeout s delta func flags = some (r, s')) : ∀ t ∈ listed s', some t = r ∨ t ∈ listed s := by
  rw [addroottimeout] at run
  have put : ∀ (mid : State) (t : Ref), mid.tlist = s.tlist → (∀ x ∈ mid.expireList.map Prod.fst, x ∈ listed s) →
      ∀ x ∈ listed (inserttimeout mid t delta), some x = some t ∨ x ∈ listed s := by
    intro mid t front back x inside
    rcases List.mem_append.mp inside with new | old
    · rcases List.mem_cons.mp ((keys_insert_before t delta mid.tlist).mem_iff.mp new) with here | before
      · exact Or.inl (congrArg some here)
      · exact Or.inr (List.mem_append_left _ (front ▸ before))
    · exact Or.inr (back x old)
  split at run
  · rename_i found
    cases run
    refine put _ _ rfl fun x old => List.mem_append_right _ ?_
    exact ((List.eraseP_sublist).map Prod.fst).subset old
  · split at run
    · cases run
    · cases run
      exact fun t inside => Or.inr inside
    · cases run
      exact put _ _ rfl fun x old => List.mem_append_right _ old

theorem cancel_listed (s : State) (this : Ref) : ∀ t ∈ listed (cancelroottimeout s this), t ∈ listed s := by
  intro t inside
  rw [cancelroottimeout] at inside
  split at inside
  · exact (((List.eraseP_sublist).map Prod.fst).append_left _).subset inside
  · split at inside
    · refine (List.Sublist.append_right ?_ _).subset inside
      rw [keys_remove]
      exact List.eraseP_sublist
    · exact inside

theorem cancel_all_listed (s : State) (curproc : Nat) : ∀ t ∈ listed (cancelalltimeouts s curproc), t ∈ listed s := by
  intro t inside
  rw [listed, cancelalltimeouts] at inside
  dsimp only at inside
  rw [keys_remove_all] at inside
  rcases List.mem_append.mp inside with front | back
  · exact List.mem_append_left _ (List.mem_filter.mp front).1
  · exact List.mem_append_right _ ((List.filter_sublist.map Prod.fst).subset back)

theorem dispose_old_listed (s : State) : ∀ t ∈ listed (disposeOldTimeouts s), t ∈ listed s := fun t inside => by
  rcases List.mem_append.mp inside with front | back
  · exact List.mem_append_left _ front
  · exact List.mem_append_right _ (((List.takeWhile_sublist _).map Prod.fst).subset back)

theorem alarm_listed (s : State) : ∀ t ∈ listed (checkalarms s), t ∈ listed s := by
  intro t inside
  rw [checkalarms] at inside
  split at inside
  · exact dispose_old_listed s t inside
  · rename_i old rest list
    split at inside
    · rw [listed] at inside ⊢
      dsimp only at inside
      rw [keys_add_first] at inside
      rw [list, List.map_cons]
      exact List.perm_middle.mem_iff.mp inside
    · exact dispose_old_listed s t inside

theorem call_tracked (call : Call) (w' : Issued) (tracked : Tracked w) (run : callStep w call = some w') : Tracked w' := by
  obtain ⟨⟨a, views⟩, returned⟩ := tracked
  have stays : ∀ (cmd : Cmd) (s : State), step w.state cmd = some s → (∀ t ∈ listed s, t ∈ listed w.state) →
      Tracked { w with state := s } := by
    intro cmd s done fewer
    obtain ⟨a', _, views'⟩ := step_views w.state a cmd s views done
    exact ⟨⟨a', views'⟩, fun t inside => returned t (fewer t inside)⟩
  cases call with
  | add delta func flags =>
      obtain ⟨⟨r, s⟩, added, rfl⟩ := Option.map_eq_some_iff.mp run
      obtain ⟨a', _, views'⟩ := step_views w.state a (.add delta func flags) s views (by rw [step, added]; rfl)
      refine ⟨⟨a', views'⟩, fun t inside => ?_⟩
      rcases add_listed w.state s delta func flags r added t inside with new | old
      · exact List.mem_append_right _ (List.mem_singleton.mpr new)
      · exact List.mem_append_left _ (returned t old)
  | cancel number =>
      obtain ⟨this, _, rfl⟩ := Option.map_eq_some_iff.mp run
      exact stays (.cancel this) _ rfl (cancel_listed w.state this)
  | cancelAll curproc =>
      cases run
      exact stays (.cancelAll curproc) _ rfl (cancel_all_listed w.state curproc)
  | tick =>
      cases run
      refine stays .tick _ rfl fun t inside => ?_
      rwa [listed, newEtvTimer, keys_add_first] at inside
  | setHz hz =>
      cases run
      exact stays (.setHz hz) _ rfl fun t inside => inside
  | alarm =>
      cases run
      exact stays .alarm _ rfl (alarm_listed w.state)

end Steps

theorem start_tracked (hz : Int) : Tracked (start hz) :=
  ⟨⟨new, initial_views hz⟩, fun _ inside => absurd inside List.not_mem_nil⟩

theorem run_cancels_iff (calls : List Call) : ∀ w, Tracked w → (EachCancel CancelsOwn calls w ↔ EachCancel NotReused calls w) := by
  induction calls with
  | nil => exact fun _ _ => Iff.rfl
  | cons call rest next =>
      intro w tracked
      refine and_congr ?_ ?_
      · exact forall_congr' fun number => imp_congr_right fun _ => cancels_own_iff w number tracked
      · exact forall_congr' fun w' => imp_congr_right fun run => next w' (call_tracked w call w' tracked run)

-- A handle cancels its own timeout, or nothing, as long as its structure has not been handed out again and waits.
theorem root_handles (hz : Int) (calls : List Call) :
    EachCancel CancelsOwn calls (start hz) ↔ EachCancel NotReused calls (start hz) :=
  run_cancels_iff calls (start hz) (start_tracked hz)

-- The first timeout has fired; its structure serves the second call, which cancelling the first handle undoes.
theorem stale_handle : ¬ EachCancel CancelsOwn [.add 0 7 1, .alarm, .add 1000 7 1, .cancel 0] (start 0) := by
  intro each
  obtain ⟨_, each⟩ := each
  obtain ⟨_, each⟩ := each _ rfl
  obtain ⟨_, each⟩ := each _ rfl
  obtain ⟨own, _⟩ := each _ rfl
  have pending := own 0 rfl _ rfl 1 ⟨.timeouts 0, by decide, by decide, fun later more => ?_⟩ (by decide)
  · obtain ⟨t, waiting, _⟩ := pending
    exact List.not_mem_nil (show t ∈ [] from waiting)
  · exact fun same => absurd ((List.getElem?_eq_none (show 2 ≤ later from more)).symm.trans same) (fun equal => by cases equal)

end MagxNet.Timeouts
