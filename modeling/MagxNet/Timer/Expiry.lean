import MagxNet.Timer.Timeouts

set_option autoImplicit false

namespace MagxNet.Timeouts

open Delta Callout

section Marks

variable (mem : Ref → Tmout)

theorem newtimeout_spec (fromlist : Bool) (t : Ref) (mem' : Ref → Tmout) (run : newtimeout fromlist mem = some (some t, mem')) :
    ¬ InUse t (mem t) ∧ InUse t (mem' t) ∧ ∀ r, r ≠ t → mem' r = mem r := by
  rw [newtimeout] at run
  split at run
  · obtain ⟨r, found, same⟩ := Option.map_eq_some_iff.mp run
    cases same
    rw [timeoutAlloc, Option.map_eq_some_iff] at found
    obtain ⟨i, free, rfl⟩ := found
    have idle : (!(mem (.pool i)).inuse) = true := List.find?_some (p := fun i => !(mem (.pool i)).inuse) free
    refine ⟨fun use => ?_, ?_, fun r other => Function.update_of_ne other ..⟩
    · rw [use.2] at idle
      cases idle
    · rw [Function.update_self]
      exact ⟨rfl, rfl⟩
  · split at run
    · rename_i i free
      cases run
      have idle : (!(mem (.timeouts i)).used) = true := List.find?_some (p := fun i => !(mem (.timeouts i)).used) free
      refine ⟨fun use => ?_, ?_, fun r other => Function.update_of_ne other ..⟩
      · rw [use.2] at idle
        cases idle
      · rw [Function.update_self]
        exact ⟨rfl, rfl⟩
    · cases run

theorem set_func_in_use (t r : Ref) (func : Nat) : InUse r (setFunc mem t func r) ↔ InUse r (mem r) := by
  rw [setFunc]
  by_cases same : r = t
  · rw [same, Function.update_self]
    cases t <;> exact Iff.rfl
  · rw [Function.update_of_ne same]

theorem dispose_all_other (old : List Ref) (r : Ref) (other : r ∉ old) : disposeAll old mem r = mem r := if_neg other

end Marks

section Steps

variable (s : State) (a : Agenda Ref)

-- A timeout that is not pending is withdrawn in vain.
theorem absent_shown (t : Ref) (absent : t ∉ s.tlist.map Entry.key) (shown : Shows a.now s.tlist a.pending) :
    Shows a.now s.tlist (withdraw (fun k => decide (k = t)) a).pending := by
  have removed := shows_remove (fun k => decide (k = t)) a.now s.tlist a.pending (keys_apart t _ shown.keys) shown
  rwa [remove_absent t s.tlist absent] at removed

-- A timeout that is on neither list, or on its way from one to the other, is put on tlist.
theorem insert_views (t : Ref) (delta : Int) (once : (t :: listed s).Nodup) (marked : ∀ r ∈ t :: listed s, InUse r (s.mem r))
    (shown : Shows a.now s.tlist a.pending) (kept : Kept a) :
    Views (inserttimeout s t delta) (set .newestFirst t delta a) := by
  obtain ⟨absent, _⟩ := List.nodup_cons.mp once
  have off : t ∉ s.tlist.map Entry.key := fun inside => absent (List.mem_append_left _ inside)
  have moved : (listed (inserttimeout s t delta)).Perm (t :: listed s) :=
    (keys_insert_before t delta s.tlist).append_right _
  exact ⟨moved.symm.nodup once, fun r member => marked r (moved.mem_iff.mp member),
    shows_insert_before t delta a.now a.count s.tlist _ off (absent_shown s a t off shown), set_kept _ t delta a kept⟩

theorem add_views (delta : Int) (func flags : Nat) (r : Option Ref) (s' : State) (views : Views s a)
    (run : addroottimeout s delta func flags = some (r, s')) :
    match r with
    | some t => t ∉ s.tlist.map Entry.key ∧ Views s' (set .newestFirst t delta a)
    | none => s' = s := by
  rw [addroottimeout] at run
  split at run
  · rename_i t found
    cases run
    obtain ⟨alike, before, after, split, others⟩ := List.find?_eq_some_iff_append.mp found
    have rest : s.expireList.eraseP (fun t => decide ((s.mem t.1).func = func)) = before ++ after := by
      rw [split, List.eraseP_append_right _ (fun x member => by simpa using others x member), List.eraseP_cons, alike, cond_true]
    have moved : (t.1 :: (s.tlist.map Entry.key ++ (before ++ after).map Prod.fst)).Perm (listed s) := by
      rw [listed, split]
      refine List.perm_middle.symm.trans (List.Perm.append_left _ ?_)
      exact (List.perm_middle.map Prod.fst).symm
    have once := moved.symm.nodup views.once
    dsimp only
    rw [rest]
    refine ⟨fun inside => (List.nodup_cons.mp once).1 (List.mem_append_left _ inside), ?_⟩
    refine insert_views _ a t.1 delta once (fun r member => ?_) views.shown views.kept
    exact (set_func_in_use s.mem t.1 r func).mpr (views.marked r (moved.mem_iff.mp member))
  · split at run
    · cases run
    · cases run
      rfl
    · rename_i t mem fresh
      cases run
      obtain ⟨idle, use, same⟩ := newtimeout_spec s.mem _ t mem fresh
      have absent : t ∉ listed s := fun inside => idle (views.marked t inside)
      refine ⟨fun inside => absent (List.mem_append_left _ inside), ?_⟩
      refine insert_views _ a t delta (List.nodup_cons.mpr ⟨absent, views.once⟩) (fun r member => ?_) views.shown views.kept
      refine (set_func_in_use mem t r func).mpr ?_
      rcases List.mem_cons.mp member with rfl | old
      · exact use
      · rw [same r fun equal => absent (equal ▸ old)]
        exact views.marked r old

theorem cancel_all_views (curproc : Nat) (views : Views s a) :
    Views (cancelalltimeouts s curproc) (withdraw (fun t => decide ((s.mem t).proc = curproc)) a) := by
  have shown := shows_remove_all (fun t => decide ((s.mem t).proc = curproc)) a.now s.tlist a.pending views.shown
  have fewer : listed (cancelalltimeouts s curproc) = (listed s).filter fun t => !decide ((s.mem t).proc = curproc) := by
    have expired : (s.expireList.filter fun t => !decide ((s.mem t.1).proc = curproc)).map Prod.fst =
        (s.expireList.map Prod.fst).filter fun t => !decide ((s.mem t).proc = curproc) := by
      rw [List.filter_map]
      rfl
    rw [listed, listed, List.filter_append, cancelalltimeouts]
    dsimp only
    rw [keys_remove_all, expired]
  refine ⟨fewer ▸ views.once.sublist List.filter_sublist, fun r member => ?_, shown, withdraw_kept _ a views.kept⟩
  rw [fewer] at member
  obtain ⟨inside, other⟩ := List.mem_filter.mp member
  have stays : (cancelalltimeouts s curproc).mem r = s.mem r := by
    refine dispose_all_other s.mem _ r fun gone => ?_
    have mine := (List.mem_filter.mp gone).2
    rw [mine] at other
    cases other
  rw [stays]
  exact views.marked r inside

theorem cancel_views (this : Ref) (views : Views s a) :
    Views (cancelroottimeout s this) (withdraw (fun t => decide (t = this)) a) := by
  have kept := withdraw_kept (fun t => decide (t = this)) a views.kept
  have once := views.once
  rw [listed, List.nodup_append] at once
  obtain ⟨front, back, apart⟩ := once
  -- Whoever is left on the lists is another timeout.
  have left : ∀ s', (listed s').Sublist (listed s) → this ∉ listed s' → s'.mem = disposeAll [this] s.mem →
      Shows a.now s'.tlist (withdraw (fun t => decide (t = this)) a).pending → Views s' (withdraw (fun t => decide (t = this)) a) := by
    intro s' fewer gone mem shown
    refine ⟨views.once.sublist fewer, fun r member => ?_, shown, kept⟩
    rw [mem, dispose_all_other s.mem [this] r fun same => gone ((List.mem_singleton.mp same) ▸ member)]
    exact views.marked r (fewer.subset member)
  rw [cancelroottimeout]
  split
  · rename_i expired
    obtain ⟨x, inside, same⟩ := List.any_eq_true.mp expired
    have named : x.1 = this := of_decide_eq_true same
    have off : this ∉ s.tlist.map Entry.key := fun pending =>
      apart this pending this (named ▸ List.mem_map_of_mem inside) rfl
    have erased : (s.expireList.eraseP fun cur => decide (cur.1 = this)).map Prod.fst = (s.expireList.map Prod.fst).erase this := by
      rw [List.erase_eq_eraseP', List.eraseP_map]
      rfl
    refine left _ ((List.eraseP_sublist.map _).append_left _) (fun member => ?_) rfl (absent_shown s a this off views.shown)
    rcases List.mem_append.mp member with pending | old
    · exact off pending
    · dsimp only at old
      rw [erased] at old
      exact (back.mem_erase_iff.mp old).1 rfl
  · rename_i fresh
    split
    · rename_i pending
      have removed := shows_remove (fun k => decide (k = this)) a.now s.tlist a.pending (keys_apart this _ views.shown.keys) views.shown
      have keys : (remove (fun cur => decide (cur = this)) s.tlist).map Entry.key = (s.tlist.map Entry.key).erase this := by
        rw [keys_remove, List.erase_eq_eraseP']
        rfl
      refine left _ (List.Sublist.append_right ?_ _) (fun member => ?_) rfl removed
      · dsimp only
        rw [keys]
        exact List.erase_sublist
      · rcases List.mem_append.mp member with still | old
        · dsimp only at still
          rw [keys] at still
          exact (front.mem_erase_iff.mp still).1 rfl
        · exact apart this pending this old rfl
    · rename_i off
      exact ⟨views.once, views.marked, absent_shown s a this off views.shown, kept⟩

theorem dispose_old_views (views : Views s a) : Views (disposeOldTimeouts s) a := by
  have whole : (s.expireList.takeWhile fun t => decide (s.hz ≤ t.2)) ++ (s.expireList.dropWhile fun t => decide (s.hz ≤ t.2)) =
      s.expireList := List.takeWhile_append_dropWhile
  have once := views.once
  rw [listed, ← whole, List.map_append, ← List.append_assoc, List.nodup_append] at once
  obtain ⟨fewer, _, apart⟩ := once
  refine ⟨fewer, fun r member => ?_, views.shown, views.kept⟩
  have stays : (disposeOldTimeouts s).mem r = s.mem r :=
    dispose_all_other s.mem _ r fun gone => apart r member r gone rfl
  rw [stays]
  refine views.marked r ?_
  rw [listed, ← whole, List.map_append, ← List.append_assoc]
  exact List.mem_append_left _ member

theorem alarm_views (views : Views s a) : ∃ a', follow (acts s .alarm) a = some a' ∧ Views (checkalarms s) a' := by
  have quiet : (∀ cur ∈ s.tlist.head?, 0 < cur.gap) → act a .rest = some a := by
    intro front
    have waiting := shows_rest a.now s.tlist a.pending views.shown front
    rw [act, Callout.rest, if_pos (by simpa using waiting)]
  rw [acts, checkalarms]
  cases list : s.tlist with
  | nil =>
      refine ⟨a, ?_, dispose_old_views s a views⟩
      rw [follow, quiet (by simp [list])]
      rfl
  | cons old rest =>
      dsimp only
      by_cases expired : old.gap ≤ 0
      · rw [if_pos expired, if_pos expired]
        have shown := views.shown
        rw [list] at shown
        obtain ⟨x, found, same⟩ := shows_next a.now old rest a.pending shown
        have named : x.key = old.key := congrArg Prod.fst same
        have time : x.time = a.now + old.gap := congrArg Prod.snd same
        have called : act a (.call old.key) = some { a with
            pending := a.pending.filter fun y => !decide (y.key = old.key), called := a.called ++ [x] } := by
          rw [act, call, found]
          exact if_pos ⟨named, by omega⟩
        have moved : ((addFirst old.gap rest).map Entry.key ++ (old.key, s.hz + TIMEOUT_EXPIRE_LIMIT).1 :: s.expireList.map Prod.fst).Perm
            (listed s) := by
          rw [keys_add_first, listed, list]
          exact List.perm_middle
        refine ⟨_, ?_, moved.symm.nodup views.once, fun r member => views.marked r (moved.mem_iff.mp member), ?_,
          call_kept old.key a _ views.kept called⟩
        · rw [follow, called]
          rfl
        · have removed := shows_remove (fun k => decide (k = old.key)) a.now _ a.pending (keys_apart old.key _ shown.keys) shown
          rwa [remove, if_pos (by simp)] at removed
      · rw [if_neg expired, if_neg expired]
        refine ⟨a, ?_, dispose_old_views s a views⟩
        rw [follow, quiet (by simpa [list] using expired)]
        rfl

theorem step_views (cmd : Cmd) (s' : State) (views : Views s a) (run : step s cmd = some s') :
    ∃ a', follow (acts s cmd) a = some a' ∧ Views s' a' := by
  cases cmd with
  | add delta func flags =>
      obtain ⟨⟨r, s1⟩, added, same⟩ := Option.map_eq_some_iff.mp run
      cases same
      have spec := add_views s a delta func flags r s1 views added
      rw [acts, added]
      cases r with
      | none =>
          cases spec
          exact ⟨a, rfl, views⟩
      | some t => exact ⟨_, rfl, spec.2⟩
  | cancel this =>
      cases run
      exact ⟨_, rfl, cancel_views s a this views⟩
  | cancelAll curproc =>
      cases run
      exact ⟨_, rfl, cancel_all_views s a curproc views⟩
  | tick =>
      cases run
      refine ⟨_, rfl, ?_, fun r member => ?_, shows_wait a.now 20 s.tlist a.pending views.shown, wait_kept 20 a views.kept⟩
      · rw [listed, newEtvTimer, keys_add_first]
        exact views.once
      · rw [listed, newEtvTimer, keys_add_first] at member
        exact views.marked r member
  | setHz hz =>
      cases run
      exact ⟨a, rfl, views.once, views.marked, views.shown, views.kept⟩
  | alarm =>
      cases run
      exact alarm_views s a views

end Steps

-- When each timeout expires, counted like now.
def expiryOf (now : Int) (s : State) (t : Ref) : Option Int := timeOf (fun k => k = t) now s.tlist

-- What the operations do to the expiry times; now is the ms counted by new_etv_timer.
structure Expiries (s : State) (now : Int) : Prop where
  add : ∀ delta func flags t s', addroottimeout s delta func flags = some (some t, s') →
    expiryOf now s t = none ∧ expiryOf now s' = Function.update (expiryOf now s) t (some (now + delta))
  addFails : ∀ delta func flags s', addroottimeout s delta func flags = some (none, s') → expiryOf now s' = expiryOf now s
  cancel : ∀ this, expiryOf now (cancelroottimeout s this) = Function.update (expiryOf now s) this none
  cancelAll : ∀ curproc, expiryOf now (cancelalltimeouts s curproc) =
    fun t => if (s.mem t).proc = curproc then none else expiryOf now s t
  tick : expiryOf (now + 20) (newEtvTimer s) = expiryOf now s
  alarm : (∃ t time, expiryOf now s t = some time ∧ time ≤ now ∧ (∀ t' time', expiryOf now s t' = some time' → time ≤ time') ∧
      expiryOf now (checkalarms s) = Function.update (expiryOf now s) t none) ∨
    ((∀ t time, expiryOf now s t = some time → now < time) ∧ expiryOf now (checkalarms s) = expiryOf now s)

section Expiry

variable (s : State) (a : Agenda Ref)

theorem views_expiry (views : Views s a) : expiryOf a.now s = deadline a :=
  funext fun t => shows_deadline a s.tlist views.kept views.shown t

theorem expiry_absent (now : Int) (t : Ref) (sorted : (s.tlist.map Entry.key).Nodup) (absent : t ∉ s.tlist.map Entry.key) :
    expiryOf now s t = none := by
  refine Option.eq_none_iff_forall_ne_some.mpr fun time found => absent ?_
  rw [← due_keys s.tlist now]
  exact List.mem_map_of_mem ((time_of_iff t time s.tlist now sorted).mp found)

theorem alarm_expiries (views : Views s a) :
    (∃ t time, deadline a t = some time ∧ time ≤ a.now ∧ (∀ t' time', deadline a t' = some time' → time ≤ time') ∧
      expiryOf a.now (checkalarms s) = Function.update (deadline a) t none) ∨
    ((∀ t time, deadline a t = some time → a.now < time) ∧ expiryOf a.now (checkalarms s) = deadline a) := by
  obtain ⟨a', done, views'⟩ := alarm_views s a views
  have item := fun t time => deadline_iff a t time views.kept.keys
  have quiet : follow [.rest] a = some a' → (∀ t time, deadline a t = some time → a.now < time) ∧
      expiryOf a.now (checkalarms s) = deadline a := by
    intro run
    rw [follow, act, Callout.rest] at run
    split at run
    · rename_i waiting
      cases run
      refine ⟨fun t time found => ?_, views_expiry _ a views'⟩
      obtain ⟨x, member, same⟩ := (item t time).mp found
      have later : a.now < x.time := of_decide_eq_true (List.all_eq_true.mp waiting x member)
      have here : x.time = time := congrArg Prod.snd same
      omega
    · cases run
  rw [acts] at done
  split at done
  · exact Or.inr (quiet done)
  · split at done
    · rename_i old rest list expired
      left
      obtain ⟨mid, called, same⟩ := Option.bind_eq_some_iff.mp done
      cases same
      obtain ⟨x, found, named, due, rfl⟩ := call_spec old.key a a' called
      obtain ⟨member, least, _⟩ := next_spec a.pending x found
      refine ⟨old.key, x.time, (item _ _).mpr ⟨x, member, Prod.ext named rfl⟩, due, fun t' time' other => ?_, ?_⟩
      · obtain ⟨y, inside, same⟩ := (item t' time').mp other
        have here : y.time = time' := congrArg Prod.snd same
        have order := least y inside
        omega
      · rw [← deadline_withdraw old.key a views.kept]
        exact views_expiry _ _ views'
    · exact Or.inr (quiet done)

theorem views_expiries (views : Views s a) : Expiries s a.now := by
  have before := views_expiry s a views
  refine ⟨fun delta func flags t s' run => ?_, fun delta func flags s' run => ?_, fun this => ?_, fun curproc => ?_, ?_, ?_⟩
  · obtain ⟨absent, views'⟩ := add_views s a delta func flags (some t) s' views run
    refine ⟨expiry_absent s a.now t views.shown.keys absent, ?_⟩
    rw [before]
    exact (views_expiry s' _ views').trans (deadline_set .newestFirst t delta a views.kept)
  · cases add_views s a delta func flags none s' views run
    rfl
  · rw [before]
    exact (views_expiry _ _ (cancel_views s a this views)).trans (deadline_withdraw this a views.kept)
  · funext t
    have after := congrFun (views_expiry _ _ (cancel_all_views s a curproc views)) t
    rw [before]
    refine after.trans ((deadline_withdraw_all _ a views.kept t).trans ?_)
    simp only [decide_eq_true_eq]
  · obtain ⟨a', done, views'⟩ := step_views s a .tick (newEtvTimer s) views rfl
    cases done
    exact (views_expiry _ _ views').trans before.symm
  · rw [before]
    exact alarm_expiries s a views

end Expiry

theorem follow_append (first second : List Act) (a : Agenda Ref) :
    follow (first ++ second) a = (follow first a).bind (follow second) := by
  induction first generalizing a with
  | nil => rfl
  | cons x rest next =>
      rw [List.cons_append, follow, follow, Option.bind_assoc]
      exact congrArg _ (funext next)

theorem run_views (cmds : List Cmd) : ∀ (s s' : State) (a : Agenda Ref), Views s a → steps cmds s = some s' →
    ∃ a', follow (actsOf cmds s) a = some a' ∧ Views s' a' := by
  induction cmds with
  | nil =>
      intro s s' a views run
      cases run
      exact ⟨a, rfl, views⟩
  | cons cmd rest next =>
      intro s s' a views run
      obtain ⟨mid, first, later⟩ := Option.bind_eq_some_iff.mp run
      obtain ⟨a1, done, views1⟩ := step_views s a cmd mid views first
      obtain ⟨a2, more, views2⟩ := next mid s' a1 views1 later
      refine ⟨a2, ?_, views2⟩
      rw [actsOf, first]
      dsimp only
      rw [follow_append, done]
      exact more

-- No timeout is added for a time that is over.
def Timely (cmds : List Cmd) : Prop := ∀ delta func flags, Cmd.add delta func flags ∈ cmds → 0 ≤ delta

theorem act_in_order (x : Act) (a a' : Agenda Ref) (timely : ∀ t delta, x = .set t delta → 0 ≤ delta) (inOrder : InOrder a)
    (run : act a x = some a') : InOrder a' := by
  cases x with
  | set t delta =>
      cases run
      have ahead := timely t delta rfl
      refine set_in_order .newestFirst t delta a (fun x member => ?_) inOrder
      have past := inOrder.past x member
      omega
  | withdraw which =>
      cases run
      exact withdraw_in_order which a inOrder
  | wait d =>
      cases run
      exact wait_in_order d a inOrder
  | call t => exact call_in_order t a a' inOrder run
  | rest =>
      rw [act, Callout.rest] at run
      split at run
      · cases run
        exact inOrder
      · cases run

theorem follow_in_order (list : List Act) : ∀ a a' : Agenda Ref, (∀ t delta, Act.set t delta ∈ list → 0 ≤ delta) → InOrder a →
    follow list a = some a' → InOrder a' := by
  induction list with
  | nil =>
      intro a a' _ inOrder run
      cases run
      exact inOrder
  | cons x rest next =>
      intro a a' timely inOrder run
      obtain ⟨mid, first, later⟩ := Option.bind_eq_some_iff.mp run
      have one := act_in_order x a mid (fun t delta same => timely t delta (same ▸ List.mem_cons_self ..)) inOrder first
      exact next mid a' (fun t delta member => timely t delta (List.mem_cons_of_mem _ member)) one later

theorem acts_timely (cmds : List Cmd) : ∀ s : State, Timely cmds → ∀ t delta, Act.set t delta ∈ actsOf cmds s → 0 ≤ delta := by
  induction cmds with
  | nil => exact fun _ _ _ _ member => absurd member List.not_mem_nil
  | cons cmd rest next =>
      intro s timely t delta member
      rw [actsOf] at member
      split at member
      · exact absurd member List.not_mem_nil
      · rename_i s' _
        rcases List.mem_append.mp member with here | later
        · cases cmd with
          | add delta' func flags =>
              rw [acts] at here
              split at here
              · cases List.mem_singleton.mp here
                exact timely delta func flags (List.mem_cons_self ..)
              · exact absurd here List.not_mem_nil
          | cancel this => cases List.mem_singleton.mp here
          | cancelAll curproc => cases List.mem_singleton.mp here
          | tick => cases List.mem_singleton.mp here
          | setHz hz => exact absurd here List.not_mem_nil
          | alarm =>
              rw [acts] at here
              split at here
              · cases List.mem_singleton.mp here
              · split at here <;> cases List.mem_singleton.mp here
        · exact next s' (fun delta func flags inside => timely delta func flags (List.mem_cons_of_mem _ inside)) t delta later

theorem initial_views (hz : Int) : Views (initial hz) new :=
  ⟨List.nodup_nil, fun _ member => absurd member List.not_mem_nil, ⟨List.Pairwise.nil, List.nodup_nil, fun _ => rfl⟩, kept_new⟩

-- The function of a timeout adds another one for a time that is over.
def belated : List Cmd := [.add 0 7 0, .alarm, .add (-5) 8 0, .alarm]

end MagxNet.Timeouts
