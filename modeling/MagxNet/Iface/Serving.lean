import MagxNet.Iface.Queue

set_option autoImplicit false

namespace MagxNet.Iface

open Singly

section Serving

variable {β : Type}

-- One operation of the program does what the lines ask for.
structure Does (w : World β) (l : Lanes β) (op : Op β) (answer : Answer β) (w' : World β) (derefs : List β) (l' : Lanes β) : Prop where
  spec : Spec w.q.maxqlen l op answer derefs l'
  shows : Shows w' l'
  derefs : w'.derefs = w.derefs ++ derefs
  maxqlen : w'.q.maxqlen = w.q.maxqlen

variable (w : World β) (l : Lanes β)

-- buf has been put into the line p.
theorem put_shows (w' : World β) (p : Nat) (buf : β) (line : List β) (bound : p < IF_PRIORITIES) (shows_ : Shows w l)
    (fresh : buf ∉ l.all) (space : w.q.qlen < w.q.maxqlen) (more : line.Perm (buf :: l.lane p))
    (here : Queued w'.link3 (w'.q.qfirst p) (w'.q.qlast p) line)
    (elsewhere : ∀ r < IF_PRIORITIES, r ≠ p → w'.q.qfirst r = w.q.qfirst r ∧ w'.q.qlast r = w.q.qlast r ∧
      ∀ a ∈ l.lane r, w'.link3 a = w.link3 a)
    (count : w'.q.qlen = w.q.qlen + 1) (limit : w'.q.maxqlen = w.q.maxqlen) (turn : w'.q.curr = w.q.curr) :
    Shows w' (l.put p line) := by
  have all := put_all l p buf line bound more
  refine ⟨fun r less => ?_, ?_, ?_, by omega, ?_⟩
  · rw [Lanes.put]
    dsimp only
    by_cases same : r = p
    · rw [same, Function.update_self]
      exact here
    · obtain ⟨first, last, links⟩ := elsewhere r less same
      rw [Function.update_of_ne same, first, last]
      exact queued_congr _ _ _ _ _ links (shows_.queued r less)
  · exact all.symm.nodup (List.nodup_cons.mpr ⟨fresh, shows_.once⟩)
  · rw [all.length_eq, List.length_cons, count, shows_.count]
    push_cast
    rfl
  · rw [turn]
    exact shows_.fair

theorem admits_room (buf : β) (next : Lanes β) (shows_ : Shows w l) (space : w.q.qlen < w.q.maxqlen) :
    Admits w.q.maxqlen l buf next 0 [] next := by
  rw [Admits, if_pos (by rw [← shows_.count]; exact space)]
  exact ⟨rfl, rfl, rfl⟩

theorem admits_full (buf : β) (next : Lanes β) (shows_ : Shows w l) (full : w.q.maxqlen ≤ w.q.qlen) :
    Admits w.q.maxqlen l buf next ENOMEM [buf] l := by
  rw [Admits, if_neg (by rw [← shows_.count]; omega)]
  exact ⟨rfl, rfl, rfl⟩

theorem deref_shows (buf : β) (shows_ : Shows w l) : Shows (bufDeref w buf) l :=
  ⟨shows_.queued, shows_.once, shows_.count, shows_.room, shows_.fair⟩

-- The buffer at the head of line que leaves; curr is what curr has become.
theorem serve_shows (w' : World β) (que : Nat) (buf : β) (bound : que < IF_PRIORITIES) (shows_ : Shows w l)
    (head : w.q.qfirst que = some buf)
    (first : w'.q.qfirst = Function.update w.q.qfirst que (w.link3 buf))
    (last : w'.q.qlast = if w.link3 buf = none then Function.update w.q.qlast que none else w.q.qlast)
    (links : w'.link3 = w.link3) (count : w'.q.qlen = w.q.qlen - 1) (limit : w'.q.maxqlen = w.q.maxqlen)
    (fair : ∀ p < IF_PRIORITIES, p ≠ que → l.lane p ≠ [] → l.passed p + 1 + slack w'.q.curr p ≤ 2) :
    ∃ rest, l.lane que = buf :: rest ∧ Shows w' (l.serve que rest) := by
  obtain ⟨rest, line, popped⟩ := queued_pop _ _ _ _ buf (shows_.queued que bound) head
  have all := serve_all l que buf rest bound line
  have fewer := all.length_eq
  rw [List.length_cons] at fewer
  have counted := shows_.count
  have room := shows_.room
  refine ⟨rest, line, fun p less => ?_, ?_, by omega, by omega, fun p less => ?_⟩
  · rw [Lanes.serve, first, last, links]
    dsimp only
    by_cases same : p = que
    · rw [same, Function.update_self, Function.update_self]
      split at popped
      · rename_i ends
        rwa [if_pos ends, Function.update_self]
      · rename_i more
        rwa [if_neg more]
    · rw [Function.update_of_ne same, Function.update_of_ne same]
      have kept : (if w.link3 buf = none then Function.update w.q.qlast que none else w.q.qlast) p = w.q.qlast p := by
        split
        · exact Function.update_of_ne same ..
        · rfl
      rw [kept]
      exact shows_.queued p less
  · exact (List.nodup_cons.mp (all.nodup shows_.once)).2
  · have limited := slack_le w'.q.curr p
    rw [Lanes.serve]
    dsimp only
    split
    · omega
    · rename_i others
      exact fair p less (fun same => others (Or.inl same)) fun empty => others (Or.inr empty)

theorem loop_found (que i : Nat) (buf : β) (head : w.q.qfirst que = some buf) :
    ∃ w', dequeueLoop w (i + 1) que = (some buf, w') ∧ w'.q.qfirst = Function.update w.q.qfirst que (w.link3 buf) ∧
      w'.q.qlast = (if w.link3 buf = none then Function.update w.q.qlast que none else w.q.qlast) ∧ w'.link3 = w.link3 ∧
      w'.q.qlen = w.q.qlen - 1 ∧ w'.q.maxqlen = w.q.maxqlen ∧ w'.derefs = w.derefs ∧
      w'.q.curr = INC_QUEUE (if i + 1 < IF_PRIORITIES then SET_QUEUE que else w.q.curr) que := by
  rw [dequeueLoop, head]
  dsimp only [setFirst]
  split <;> split <;> exact ⟨_, rfl, rfl, rfl, rfl, rfl, rfl, rfl, rfl⟩

theorem head_lane (que : Nat) (bound : que < IF_PRIORITIES) (shows_ : Shows w l) : w.q.qfirst que = (l.lane que).head? := by
  have linked := (shows_.queued que bound).linked
  cases line : l.lane que with
  | nil =>
      rw [line] at linked
      exact linked
  | cons buf rest =>
      rw [line] at linked
      exact linked.1

theorem dequeue_does (shows_ : Shows w l) :
    ∃ derefs l', Does w l .dequeue (.got (ifDequeue w).1) (ifDequeue w).2 derefs l' := by
  have count := shows_.count
  rw [ifDequeue]
  by_cases some_queued : 0 < w.q.qlen
  · rw [if_pos some_queued]
    have turn := get_queue_lt w.q.curr
    generalize here : GET_QUEUE w.q.curr = que at turn ⊢
    cases head : w.q.qfirst que with
    | some buf =>
        obtain ⟨w', run, first, last, links, len, limit, kept, curr⟩ := loop_found w que 1 buf head
        obtain ⟨rest, line, shows_'⟩ := serve_shows w l w' que buf turn shows_ head first last links len limit fun p less other _ => by
          have fair := shows_.fair p less
          have closer := slack_inc w.q.curr p less (here ▸ other)
          rw [here] at closer
          rw [curr, if_neg (by decide)]
          omega
        have served : dequeueLoop w IF_PRIORITIES que = (some buf, w') := run
        rw [served]
        exact ⟨[], _, ⟨rfl, que, turn, rest, line, rfl⟩, shows_', by rw [kept, List.append_nil], limit⟩
    | none =>
        have empty : l.lane que = [] := List.head?_eq_none_iff.mp ((head_lane w l que turn shows_).symm.trans head)
        have next : (que + 1) % IF_PRIORITIES < IF_PRIORITIES := Nat.mod_lt _ (by decide)
        have step : dequeueLoop w IF_PRIORITIES que = dequeueLoop w 1 ((que + 1) % IF_PRIORITIES) := by
          change dequeueLoop w (1 + 1) que = _
          rw [dequeueLoop, head]
        rw [step]
        -- The other line has someone.
        have other_line : ∀ p < IF_PRIORITIES, p ≠ (que + 1) % IF_PRIORITIES → p = que := by
          rw [show IF_PRIORITIES = 2 from rfl] at turn ⊢
          intro p less apart
          omega
        generalize (que + 1) % IF_PRIORITIES = other at next other_line ⊢
        cases head' : w.q.qfirst other with
        | none =>
            have empty' : l.lane other = [] := List.head?_eq_none_iff.mp ((head_lane w l other next shows_).symm.trans head')
            have nothing : l.all = [] := by
              refine List.eq_nil_iff_forall_not_mem.mpr fun a inside => ?_
              obtain ⟨p, less, member⟩ := (mem_all_iff l a).mp inside
              by_cases same : p = other
              · rw [same, empty'] at member
                cases member
              · rw [other_line p less same, empty] at member
                cases member
            rw [nothing] at count
            rw [count] at some_queued
            cases some_queued
        | some buf =>
            obtain ⟨w', run, first, last, links, len, limit, kept, curr⟩ := loop_found w other 0 buf head'
            obtain ⟨rest, line, shows_'⟩ := serve_shows w l w' other buf next shows_ head' first last links len limit
              fun p less apart found => absurd (other_line p less apart ▸ empty) found
            rw [run]
            exact ⟨[], _, ⟨rfl, other, next, rest, line, rfl⟩, shows_', by rw [kept, List.append_nil], limit⟩
  · rw [if_neg some_queued]
    have nothing : l.all = [] := List.length_eq_zero_iff.mp (by omega)
    exact ⟨[], l, ⟨nothing, rfl, rfl⟩, shows_, (List.append_nil _).symm, rfl⟩

theorem flush_loop_derefs (line : List β) : ∀ (fuel : Nat) (w : World β) (buf : Option β), Linked w.link3 buf line →
    (∀ w', flushLoop fuel w buf = .ret w' → w' = { w with derefs := w.derefs ++ line }) ∧
      (line.length < fuel → ∃ w', flushLoop fuel w buf = .ret w') := by
  induction line with
  | nil =>
      intro fuel w buf linked
      rw [show buf = none from linked]
      cases fuel with
      | zero => exact ⟨fun w' run => (by cases run), fun less => absurd less (Nat.not_lt_zero _)⟩
      | succ fuel =>
          refine ⟨fun w' run => ?_, fun _ => ⟨w, rfl⟩⟩
          cases run
          rw [List.append_nil]
  | cons a rest next =>
      intro fuel w buf linked
      rw [linked.1]
      cases fuel with
      | zero => exact ⟨fun w' run => (by cases run), fun less => absurd less (Nat.not_lt_zero _)⟩
      | succ fuel =>
          obtain ⟨result, ends⟩ := next fuel (bufDeref w a) (w.link3 a) linked.2
          refine ⟨fun w' run => ?_, fun less => ends (by simpa using less)⟩
          rw [result w' run, bufDeref, List.append_assoc]
          rfl

theorem flush_pri_derefs (fuel i : Nat) (linked : Linked w.link3 (w.q.qfirst i) (l.lane i)) :
    (∀ w', flushPri fuel w i = .ret w' → w' = setFirst (setLast { w with derefs := w.derefs ++ l.lane i } i none) i none) ∧
      ((l.lane i).length < fuel → ∃ w', flushPri fuel w i = .ret w') := by
  obtain ⟨result, ends⟩ := flush_loop_derefs (l.lane i) fuel w (w.q.qfirst i) linked
  constructor
  · intro w' run
    obtain ⟨mid, looped, rest⟩ := (Outcome.bind_eq_ret _ _ _).mp run
    cases rest
    rw [result mid looped]
  · intro less
    obtain ⟨mid, looped⟩ := ends less
    exact ⟨_, (Outcome.bind_eq_ret _ _ _).mpr ⟨mid, looped, rfl⟩⟩

theorem flushed_shows (shows_ : Shows w l) :
    Shows (setQlen (setFirst (setLast { setFirst (setLast { w with derefs := w.derefs ++ l.lane 0 } 0 none) 0 none with
      derefs := w.derefs ++ l.lane 0 ++ l.lane 1 } 1 none) 1 none) 0) { l with lane := fun _ => [] } := by
  refine ⟨fun p less => ?_, List.nodup_nil, rfl, ?_, shows_.fair⟩
  · dsimp only [setQlen, setFirst, setLast]
    obtain rfl | rfl := priorities p less
    · rw [Function.update_of_ne (by decide), Function.update_self, Function.update_of_ne (by decide), Function.update_self]
      exact queued_empty _
    · rw [Function.update_self, Function.update_self]
      exact queued_empty _
  · have count := shows_.count
    have room := shows_.room
    change (0 : Int) ≤ w.q.maxqlen
    omega

theorem flushq_does (fuel : Nat) (shows_ : Shows w l) :
    (∀ w', ifFlushq fuel w = .ret w' → ∃ derefs l', Does w l .flushq .done w' derefs l') ∧
      (l.all.length < fuel → ∃ w', ifFlushq fuel w = .ret w') := by
  obtain ⟨result, ends⟩ := flush_pri_derefs w l fuel 0 (shows_.queued 0 (by decide)).linked
  -- The second line is as it was.
  have kept : Linked w.link3 ((setFirst (setLast { w with derefs := w.derefs ++ l.lane 0 } 0 none) 0 none).q.qfirst 1) (l.lane 1) := by
    have linked := (shows_.queued 1 (by decide)).linked
    rwa [← Function.update_of_ne (show (1 : Nat) ≠ 0 by decide) none w.q.qfirst] at linked
  obtain ⟨result', ends'⟩ := flush_pri_derefs (setFirst (setLast { w with derefs := w.derefs ++ l.lane 0 } 0 none) 0 none) l fuel 1
    kept
  constructor
  · intro w' run
    obtain ⟨w1, first, run⟩ := (Outcome.bind_eq_ret _ _ _).mp run
    obtain ⟨w2, second, run⟩ := (Outcome.bind_eq_ret _ _ _).mp run
    cases run
    rw [result w1 first] at second
    rw [result' w2 second]
    refine ⟨l.all, _, ⟨rfl, rfl⟩, flushed_shows w l shows_, ?_, rfl⟩
    exact List.append_assoc _ _ _
  · intro less
    rw [Lanes.all, List.length_append] at less
    obtain ⟨w1, first⟩ := ends (by omega)
    obtain ⟨w2, second⟩ := ends' (by omega)
    rw [← result w1 first] at second
    exact ⟨_, (Outcome.bind_eq_ret _ _ _).mpr ⟨w1, first, (Outcome.bind_eq_ret _ _ _).mpr ⟨w2, second, rfl⟩⟩⟩

theorem inside_iff (buf : β) (shows_ : Shows w l) : Inside w buf ↔ buf ∈ l.all := by
  rw [mem_all_iff]
  constructor
  · rintro ⟨p, less, line, linked, inside⟩
    rw [linked_unique _ _ _ _ linked (shows_.queued p less).linked] at inside
    exact ⟨p, less, inside⟩
  · rintro ⟨p, less, inside⟩
    exact ⟨p, less, l.lane p, (shows_.queued p less).linked, inside⟩

theorem fresh_shows (fresh : Fresh w) : Shows w nobody := by
  refine ⟨fun p less => ?_, List.nodup_nil, fresh.none_queued, ?_, fun p _ => ?_⟩
  · rw [fresh.firsts p less, fresh.lasts p less]
    exact queued_empty _
  · rw [fresh.none_queued]
    exact fresh.room
  · rw [nobody, Nat.zero_add]
    exact slack_le _ p

variable [DecidableEq β]

theorem enqueue_shows (buf : β) (pri : BitVec 16) (shows_ : Shows w l) (fresh : buf ∉ l.all) (space : w.q.qlen < w.q.maxqlen) :
    Shows (ifEnqueue w buf pri).2 (l.put (lane pri) (l.lane (lane pri) ++ [buf])) := by
  have bound := lane_lt pri
  have absent : ∀ r < IF_PRIORITIES, buf ∉ l.lane r := fun r less inside => fresh ((mem_all_iff l buf).mpr ⟨r, less, inside⟩)
  have queued := shows_.queued (lane pri) bound
  have perm : (l.lane (lane pri) ++ [buf]).Perm (buf :: l.lane (lane pri)) := List.perm_append_singleton ..
  rw [ifEnqueue, if_neg (not_le.mpr space)]
  dsimp only [setLink3]
  generalize lane pri = p at bound queued perm ⊢
  cases ends : w.q.qlast p with
  | some last =>
      have inside : last ∈ l.lane p := List.mem_of_getLast? (queued.ends.symm.trans ends)
      refine put_shows w l _ p buf _ bound shows_ fresh space perm ?_ (fun r less other => ⟨rfl, ?_, fun a member => ?_⟩) rfl rfl rfl
      · dsimp only [setLast, setQlen]
        rw [Function.update_self]
        exact queued_back _ _ _ _ _ _ (absent p bound) queued ends
      · exact Function.update_of_ne other ..
      · have apart : a ≠ last := fun same => lanes_apart l shows_.once p r last bound less other inside (same ▸ member)
        have new : a ≠ buf := fun same => absent r less (same ▸ member)
        exact (Function.update_of_ne apart ..).trans (Function.update_of_ne new ..)
  | none =>
      have empty := (queued_nil_iff _ _ _ _ queued).mp ends
      refine put_shows w l _ p buf _ bound shows_ fresh space perm ?_ (fun r less other => ⟨?_, ?_, fun a member => ?_⟩) rfl rfl rfl
      · dsimp only [setLast, setFirst, setQlen]
        rw [Function.update_self, Function.update_self, empty]
        exact queued_single w.link3 buf
      · exact Function.update_of_ne other ..
      · exact Function.update_of_ne other ..
      · exact Function.update_of_ne (ne_of_mem_of_not_mem member (absent r less)) ..

theorem enqueue_does (buf : β) (pri : BitVec 16) (shows_ : Shows w l) (fresh : buf ∉ l.all) :
    ∃ derefs l', Does w l (.enqueue buf pri) (.code (ifEnqueue w buf pri).1) (ifEnqueue w buf pri).2 derefs l' := by
  by_cases full : w.q.maxqlen ≤ w.q.qlen
  · rw [ifEnqueue, if_pos full]
    exact ⟨[buf], l, admits_full w l buf _ shows_ full, deref_shows w l buf shows_, rfl, rfl⟩
  · have shows_' := enqueue_shows w l buf pri shows_ fresh (not_le.mp full)
    refine ⟨[], _, ?_, shows_', ?_, ?_⟩
    · rw [ifEnqueue, if_neg full]
      exact admits_room w l buf _ shows_ (not_le.mp full)
    · rw [ifEnqueue, if_neg full, List.append_nil]
      dsimp only
      split <;> rfl
    · rw [ifEnqueue, if_neg full]
      dsimp only
      split <;> rfl

theorem putback_shows (buf : β) (pri : BitVec 16) (shows_ : Shows w l) (fresh : buf ∉ l.all) (space : w.q.qlen < w.q.maxqlen) :
    Shows (ifPutback w buf pri).2 (l.put (lane pri) (buf :: l.lane (lane pri))) := by
  have bound := lane_lt pri
  have absent : ∀ r < IF_PRIORITIES, buf ∉ l.lane r := fun r less inside => fresh ((mem_all_iff l buf).mpr ⟨r, less, inside⟩)
  have queued := shows_.queued (lane pri) bound
  rw [ifPutback, if_neg (not_le.mpr space)]
  dsimp only [setLink3, setFirst]
  generalize lane pri = p at bound queued ⊢
  have front := queued_front w.link3 _ _ _ buf (absent p bound) queued
  have elsewhere : ∀ r < IF_PRIORITIES, ∀ a ∈ l.lane r, Function.update w.link3 buf (w.q.qfirst p) a = w.link3 a :=
    fun r less a member => Function.update_of_ne (ne_of_mem_of_not_mem member (absent r less)) ..
  by_cases ends : w.q.qlast p = none
  · rw [if_pos ends] at front ⊢
    refine put_shows w l _ p buf _ bound shows_ fresh space (List.Perm.refl _) ?_
      (fun r less other => ⟨?_, ?_, elsewhere r less⟩) rfl rfl rfl
    · dsimp only [setLast, setQlen]
      rw [Function.update_self, Function.update_self]
      exact front
    · exact Function.update_of_ne other ..
    · exact Function.update_of_ne other ..
  · rw [if_neg ends] at front ⊢
    refine put_shows w l _ p buf _ bound shows_ fresh space (List.Perm.refl _) ?_
      (fun r less other => ⟨?_, rfl, elsewhere r less⟩) rfl rfl rfl
    · dsimp only [setQlen]
      rw [Function.update_self]
      exact front
    · exact Function.update_of_ne other ..

theorem putback_does (buf : β) (pri : BitVec 16) (shows_ : Shows w l) (fresh : buf ∉ l.all) :
    ∃ derefs l', Does w l (.putback buf pri) (.code (ifPutback w buf pri).1) (ifPutback w buf pri).2 derefs l' := by
  by_cases full : w.q.maxqlen ≤ w.q.qlen
  · rw [ifPutback, if_pos full]
    exact ⟨[buf], l, admits_full w l buf _ shows_ full, deref_shows w l buf shows_, rfl, rfl⟩
  · have shows_' := putback_shows w l buf pri shows_ fresh (not_le.mp full)
    refine ⟨[], _, ?_, shows_', ?_, ?_⟩
    · rw [ifPutback, if_neg full]
      exact admits_room w l buf _ shows_ (not_le.mp full)
    · rw [ifPutback, if_neg full, List.append_nil]
      dsimp only
      split <;> rfl
    · rw [ifPutback, if_neg full]
      dsimp only
      split <;> rfl

theorem set_link_does (buf : β) (next : Option β) (shows_ : Shows w l) (fresh : buf ∉ l.all) :
    Does w l (.setLink buf next) .done (setLink3 w buf next) [] l := by
  refine ⟨⟨rfl, rfl⟩, ⟨fun p less => ?_, shows_.once, shows_.count, shows_.room, shows_.fair⟩, (List.append_nil _).symm, rfl⟩
  refine queued_congr _ _ _ _ _ (fun a member => Function.update_of_ne ?_ ..) (shows_.queued p less)
  exact ne_of_mem_of_not_mem ((mem_all_iff l a).mpr ⟨p, less, member⟩) fresh

theorem step_does (fuel : Nat) (op : Op β) (answer : Answer β) (w' : World β) (shows_ : Shows w l) (allowed : op.Allowed w)
    (run : step fuel w op = .ret (answer, w')) : ∃ derefs l', Does w l op answer w' derefs l' := by
  cases op with
  | enqueue buf pri =>
      cases run
      exact enqueue_does w l buf pri shows_ ((inside_iff w l buf shows_).not.mp allowed)
  | putback buf pri =>
      cases run
      exact putback_does w l buf pri shows_ ((inside_iff w l buf shows_).not.mp allowed)
  | dequeue =>
      cases run
      exact dequeue_does w l shows_
  | flushq =>
      obtain ⟨w1, flushed, rest⟩ := (Outcome.bind_eq_ret _ _ _).mp run
      cases rest
      exact (flushq_does w l fuel shows_).1 w' flushed
  | setLink buf next =>
      cases run
      exact ⟨[], l, set_link_does w l buf next shows_ ((inside_iff w l buf shows_).not.mp allowed)⟩

theorem step_returns (op : Op β) (shows_ : Shows w l) :
    ∃ fuel answer w', step fuel w op = .ret (answer, w') := by
  cases op with
  | flushq =>
      obtain ⟨w', flushed⟩ := (flushq_does w l (l.all.length + 1) shows_).2 (Nat.lt_succ_self _)
      exact ⟨_, .done, w', (Outcome.bind_eq_ret _ _ _).mpr ⟨w', flushed, rfl⟩⟩
  | enqueue buf pri => exact ⟨0, _, _, rfl⟩
  | putback buf pri => exact ⟨0, _, _, rfl⟩
  | dequeue => exact ⟨0, _, _, rfl⟩
  | setLink buf next => exact ⟨0, _, _, rfl⟩

-- Every run is one of the lines, with the same answers and the same buffers dereferenced, and can be carried on.
-- A line in which someone waits has been passed by at most two dequeues.
theorem interface_queue (start : World β) (fresh : Fresh start) (trace : List (Op β × Answer β)) (run : Reached start trace w) :
    ∃ derefs l, SpecRun start.q.maxqlen trace derefs l ∧ w.derefs = start.derefs ++ derefs ∧
      (∀ p < IF_PRIORITIES, Queued w.link3 (w.q.qfirst p) (w.q.qlast p) (l.lane p)) ∧
      l.all.Nodup ∧ w.q.qlen = l.all.length ∧ w.q.qlen ≤ start.q.maxqlen ∧ (∀ p < IF_PRIORITIES, l.passed p ≤ 2) ∧
      ∀ op : Op β, ∃ fuel answer w', step fuel w op = .ret (answer, w') := by
  have shown : ∃ derefs l, SpecRun start.q.maxqlen trace derefs l ∧ w.derefs = start.derefs ++ derefs ∧ Shows w l ∧
      w.q.maxqlen = start.q.maxqlen := by
    induction run with
    | start => exact ⟨[], nobody, .start, (List.append_nil _).symm, fresh_shows start fresh, rfl⟩
    | step fuel trace w w' op answer before allowed run next =>
        obtain ⟨derefs, l, spec, kept, shows_, limit⟩ := next
        obtain ⟨more, l', does⟩ := step_does w l fuel op answer w' shows_ allowed run
        refine ⟨derefs ++ more, l', .step trace derefs more l l' op answer spec (limit ▸ does.spec), ?_, does.shows,
          does.maxqlen.trans limit⟩
        rw [does.derefs, kept, List.append_assoc]
  obtain ⟨derefs, l, spec, kept, shows_, limit⟩ := shown
  refine ⟨derefs, l, spec, kept, shows_.queued, shows_.once, shows_.count, limit ▸ shows_.room, fun p less => ?_, fun op => ?_⟩
  · exact (Nat.le_add_right _ _).trans (shows_.fair p less)
  · exact step_returns w l op shows_

end Serving

def oneQueue : World Nat := ⟨⟨2, 0, 0, fun _ => none, fun _ => none⟩, fun _ => none, []⟩

theorem one_queue_fresh : Fresh oneQueue := ⟨by decide, rfl, fun _ _ => rfl, fun _ _ => rfl⟩

theorem one_queue_free (buf : Nat) : ¬ Inside oneQueue buf := by
  rintro ⟨p, _, l, linked, inside⟩
  cases l with
  | nil => cases inside
  | cons a rest => cases linked.1

-- A buffer of an unknown priority goes through the queue.
theorem interface_queue_through : ∃ derefs l, SpecRun 2 [(.enqueue 7 5, .code 0), (.dequeue, .got (some 7))] derefs l ∧
    l.all = ([] : List Nat) := by
  have first : Reached oneQueue [(.enqueue 7 5, .code 0)] (ifEnqueue oneQueue 7 5).2 :=
    .step 0 [] oneQueue _ (.enqueue 7 5) (.code 0) .start (one_queue_free 7) rfl
  have second : Reached oneQueue [(.enqueue 7 5, .code 0), (.dequeue, .got (some 7))] (ifDequeue (ifEnqueue oneQueue 7 5).2).2 :=
    .step 0 _ _ _ .dequeue (.got (some 7)) first trivial rfl
  obtain ⟨derefs, l, spec, _, _, _, count, _⟩ := interface_queue _ oneQueue one_queue_fresh _ second
  exact ⟨derefs, l, spec, List.length_eq_zero_iff.mp (Int.ofNat.inj count.symm)⟩

end MagxNet.Iface
