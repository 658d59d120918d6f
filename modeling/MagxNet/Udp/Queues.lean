import MagxNet.Lib.Buckets
import MagxNet.Udp.Mail

set_option autoImplicit false

namespace MagxNet.Udp

open Bytes Singly
open Buckets (count_le_listed counts_le_listed listed listed_update)

-- How often a buffer is anywhere: about to go somewhere, in a queue, freed, or in an ICMP message.
def places (w : World) (q : Nat → List Nat) (hand : List Nat) (buf : Nat) : Nat :=
  hand.count buf + listed w.made q buf + w.derefs.count buf + (w.replies.map Prod.fst).count buf

-- q id are the buffers that the queue of a socket links together.
structure Holds (w : World) (q : Nat → List Nat) (hand : List Nat) : Prop where
  ahead : ∀ id, Queued w.next (w.sock id).rcv.qfirst (w.sock id).rcv.qlast (q id)
  behind : ∀ id, Queued w.prev (w.sock id).rcv.qlast (w.sock id).rcv.qfirst (q id).reverse
  total : ∀ id, (w.sock id).rcv.curdatalen = ((q id).map fun b => todoOf (w.sock id).proto (w.dgram b)).sum
  sized : ∀ id, ∀ b ∈ q id, todoOf (w.sock id).proto (w.dgram b) = size (w.sock id).proto (w.dgram b)
  unmade : ∀ id, w.made ≤ id → q id = []
  once : ∀ b, places w q hand b = if b < w.bufs then 1 else 0

section Places

variable {w : World} {q : Nat → List Nat} {hand : List Nat}

theorem queued_made (holds : Holds w q hand) {id b : Nat} (member : b ∈ q id) : id < w.made := by
  by_contra unmade
  rw [holds.unmade id (Nat.le_of_not_lt unmade)] at member
  cases member

theorem places_once (holds : Holds w q hand) (b : Nat) : places w q hand b ≤ 1 := by
  rw [holds.once]
  split <;> omega

theorem below_of_place (holds : Holds w q hand) (b : Nat) (some : 0 < places w q hand b) : b < w.bufs := by
  by_contra beyond
  rw [holds.once, if_neg beyond] at some
  cases some

theorem queued_below (holds : Holds w q hand) {id b : Nat} (member : b ∈ q id) : b < w.bufs := by
  have counted := count_le_listed w.made id q b (queued_made holds member)
  have positive := List.count_pos_iff.mpr member
  refine below_of_place holds b ?_
  unfold places
  omega

theorem queued_apart (holds : Holds w q hand) {id id' b : Nat} (first : b ∈ q id) (second : b ∈ q id') : id = id' := by
  by_contra different
  have counted := counts_le_listed w.made id id' q b (queued_made holds first) (queued_made holds second) different
  have positive := List.count_pos_iff.mpr first
  have positive' := List.count_pos_iff.mpr second
  have bound := places_once holds b
  unfold places at bound
  omega

theorem hand_apart {buf : Nat} (holds : Holds w q (buf :: hand)) (id : Nat) : buf ∉ q id := by
  intro member
  have counted := count_le_listed w.made id q buf (queued_made holds member)
  have positive := List.count_pos_iff.mpr member
  have bound := places_once holds buf
  unfold places at bound
  rw [List.count_cons_self] at bound
  omega

theorem hand_below {buf : Nat} (holds : Holds w q (buf :: hand)) : buf < w.bufs := by
  refine below_of_place holds buf ?_
  unfold places
  rw [List.count_cons_self]
  omega

-- One queue is another afterwards; the buffers that it has lost or gained are those that the hand has gained or lost.
theorem holds_change {w' : World} {hand' l : List Nat} {id : Nat} (holds : Holds w q hand)
    (others : ∀ i, i ≠ id → w'.sock i = w.sock i) (proto : (w'.sock id).proto = (w.sock id).proto)
    (rest : (w'.made, w'.dgram, w'.bufs, w'.derefs, w'.replies) = (w.made, w.dgram, w.bufs, w.derefs, w.replies))
    (next : ∀ i, i ≠ id → ∀ b ∈ q i, w'.next b = w.next b) (prev : ∀ i, i ≠ id → ∀ b ∈ q i, w'.prev b = w.prev b)
    (ahead : Queued w'.next (w'.sock id).rcv.qfirst (w'.sock id).rcv.qlast l)
    (behind : Queued w'.prev (w'.sock id).rcv.qlast (w'.sock id).rcv.qfirst l.reverse)
    (total : (w'.sock id).rcv.curdatalen = (l.map fun b => todoOf (w.sock id).proto (w.dgram b)).sum)
    (sized : ∀ b ∈ l, todoOf (w.sock id).proto (w.dgram b) = size (w.sock id).proto (w.dgram b)) (inside : id < w.made)
    (moved : ∀ b, hand'.count b + l.count b = hand.count b + (q id).count b) : Holds w' (Function.update q id l) hand' := by
  obtain ⟨made, dgram, bufs, derefs, replies⟩ : w'.made = w.made ∧ w'.dgram = w.dgram ∧ w'.bufs = w.bufs
      ∧ w'.derefs = w.derefs ∧ w'.replies = w.replies := by simpa using rest
  refine ⟨fun i => ?_, fun i => ?_, fun i => ?_, fun i => ?_, fun i beyond => ?_, fun b => ?_⟩
  · by_cases here : i = id
    · subst here
      rw [Function.update_self]
      exact ahead
    · rw [Function.update_of_ne here, others i here]
      exact queued_congr w.next w'.next _ _ _ (next i here) (holds.ahead i)
  · by_cases here : i = id
    · subst here
      rw [Function.update_self]
      exact behind
    · rw [Function.update_of_ne here, others i here]
      exact queued_congr w.prev w'.prev _ _ _ (fun b member => prev i here b (List.mem_reverse.mp member)) (holds.behind i)
  · by_cases here : i = id
    · subst here
      rw [Function.update_self, total, proto, dgram]
    · rw [Function.update_of_ne here, others i here, dgram]
      exact holds.total i
  · by_cases here : i = id
    · subst here
      rw [Function.update_self, proto, dgram]
      exact sized
    · rw [Function.update_of_ne here, others i here, dgram]
      exact holds.sized i
  · rw [made] at beyond
    rw [Function.update_of_ne (by omega)]
    exact holds.unmade i beyond
  · have counted := listed_update w.made id q l b inside
    have before := holds.once b
    have shift := moved b
    unfold places at before ⊢
    rw [made, bufs, derefs, replies, ← before]
    omega

end Places

-- What the code's state means to the users.
def view (w : World) (q : Nat → List Nat) : Mail :=
  ⟨fun id => ⟨settings w id, (w.sock id).rcv.maxdatalen, (q id).map w.dgram⟩, w.made, w.udp, w.raw⟩

theorem mail_ext (m m' : Mail) (box : ∀ id, m.box id = m'.box id) (rest : (m.made, m.udp, m.raw) = (m'.made, m'.udp, m'.raw)) :
    m = m' := by
  cases m
  cases m'
  obtain rfl := funext box
  cases rest
  rfl

section Changes

variable (w : World) (q : Nat → List Nat) (hand : List Nat)

theorem set_sock_here (id : Nat) (s : Sock) : (setSock w id s).sock id = { w.sock id with toSock := s } :=
  Function.update_self ..

theorem set_sock_other (id i : Nat) (s : Sock) (other : i ≠ id) : (setSock w id s).sock i = w.sock i :=
  Function.update_of_ne other ..

theorem set_sock_rcv (id i : Nat) (s : Sock) : ((setSock w id s).sock i).rcv = (w.sock i).rcv := by
  by_cases here : i = id
  · subst here
    rw [set_sock_here]
  · rw [set_sock_other w id i s here]

theorem set_sock_proto (id i : Nat) (s : Sock) (same : s.proto = (w.sock id).proto) :
    ((setSock w id s).sock i).proto = (w.sock i).proto := by
  by_cases here : i = id
  · subst here
    rw [set_sock_here]
    exact same
  · rw [set_sock_other w id i s here]

-- What matters is whose the queues are, where they begin and end, and their counts.
theorem holds_alike (w' : World) (holds : Holds w q hand)
    (alike : ∀ i, ((w'.sock i).proto, (w'.sock i).rcv.qfirst, (w'.sock i).rcv.qlast, (w'.sock i).rcv.curdatalen)
      = ((w.sock i).proto, (w.sock i).rcv.qfirst, (w.sock i).rcv.qlast, (w.sock i).rcv.curdatalen))
    (rest : (w'.made, w'.next, w'.prev, w'.dgram, w'.bufs, w'.derefs, w'.replies)
      = (w.made, w.next, w.prev, w.dgram, w.bufs, w.derefs, w.replies)) : Holds w' q hand := by
  simp only [Prod.mk.injEq] at alike rest
  obtain ⟨made, next, prev, dgram, bufs, derefs, replies⟩ := rest
  refine ⟨fun i => ?_, fun i => ?_, fun i => ?_, fun i => ?_, fun i beyond => holds.unmade i (made ▸ beyond), fun b => ?_⟩
  · rw [next, (alike i).2.1, (alike i).2.2.1]
    exact holds.ahead i
  · rw [prev, (alike i).2.1, (alike i).2.2.1]
    exact holds.behind i
  · rw [dgram, (alike i).1, (alike i).2.2.2]
    exact holds.total i
  · rw [dgram, (alike i).1]
    exact holds.sized i
  · have before := holds.once b
    unfold places at before ⊢
    rw [made, bufs, derefs, replies]
    exact before

theorem holds_set_sock (id : Nat) (s : Sock) (same : s.proto = (w.sock id).proto) (holds : Holds w q hand) :
    Holds (setSock w id s) q hand := by
  refine holds_alike w q hand (setSock w id s) holds (fun i => ?_) rfl
  rw [set_sock_rcv, set_sock_proto w id i s same]

theorem view_set_sock (id : Nat) (s : Sock) : view (setSock w id s) q = (view w q).setSock id s := by
  refine mail_ext _ _ (fun i => ?_) rfl
  unfold Mail.setSock Mail.setBox view settings
  dsimp only
  by_cases here : i = id
  · subst here
    rw [set_sock_here, Function.update_self]
    rfl
  · rw [set_sock_other w id i s here, Function.update_of_ne here]
    rfl

theorem holds_deref (buf : Nat) (holds : Holds w q (buf :: hand)) : Holds (bufDeref w buf) q hand := by
  refine ⟨holds.ahead, holds.behind, holds.total, holds.sized, holds.unmade, fun b => ?_⟩
  have before := holds.once b
  unfold places at before
  rw [List.count_cons] at before
  change hand.count b + listed w.made q b + (buf :: w.derefs).count b + (w.replies.map Prod.fst).count b = _
  rw [List.count_cons]
  exact (by omega : _ = _).trans before

theorem holds_reply (buf : Nat) (holds : Holds w q (buf :: hand)) : Holds (icmpSend w buf) q hand := by
  refine ⟨holds.ahead, holds.behind, holds.total, holds.sized, holds.unmade, fun b => ?_⟩
  have before := holds.once b
  unfold places at before
  rw [List.count_cons] at before
  change hand.count b + listed w.made q b + w.derefs.count b + (buf :: w.replies.map Prod.fst).count b = _
  rw [List.count_cons]
  exact (by omega : _ = _).trans before

theorem filled_other (bytes : Buffer) (b : Nat) (below : b < w.bufs) : (bufFilled w bytes).dgram b = w.dgram b :=
  Function.update_of_ne (Nat.ne_of_lt below) ..

theorem holds_filled (bytes : Buffer) (holds : Holds w q hand) : Holds (bufFilled w bytes) q (w.bufs :: hand) := by
  refine ⟨holds.ahead, holds.behind, fun i => ?_, fun i b member => ?_, holds.unmade, fun b => ?_⟩
  · rw [show ((bufFilled w bytes).sock i) = w.sock i from rfl, holds.total i]
    refine congrArg List.sum (List.map_congr_left fun b member => ?_)
    rw [filled_other w bytes b (queued_below holds member)]
  · rw [filled_other w bytes b (queued_below holds member)]
    exact holds.sized i b member
  · have before := holds.once b
    unfold places bufFilled at *
    dsimp only
    rw [List.count_cons]
    by_cases here : w.bufs = b
    · subst here
      rw [if_neg (Nat.lt_irrefl _)] at before
      rw [if_pos (beq_self_eq_true _), if_pos (Nat.lt_succ_self _)]
      omega
    · rw [if_neg (by rw [beq_iff_eq]; exact here)]
      by_cases below : b < w.bufs
      · rw [if_pos below] at before
        rw [if_pos (Nat.lt_succ_of_lt below)]
        omega
      · rw [if_neg below] at before
        rw [if_neg (by omega)]
        omega

theorem view_filled (bytes : Buffer) (holds : Holds w q hand) : view (bufFilled w bytes) q = view w q := by
  refine mail_ext _ _ (fun i => ?_) rfl
  unfold view
  dsimp only
  refine congrArg (Box.mk _ _) (List.map_congr_left fun b member => ?_)
  exact filled_other w bytes b (queued_below holds member)

end Changes

-- A queue changes its links and its count, and nothing else that a user could see does.
structure Requeued (w w' : World) : Prop where
  settings : ∀ i, settings w' i = settings w i
  limit : ∀ i, (w'.sock i).rcv.maxdatalen = (w.sock i).rcv.maxdatalen
  rest : (w'.made, w'.udp, w'.raw, w'.dgram, w'.bufs, w'.derefs, w'.replies)
    = (w.made, w.udp, w.raw, w.dgram, w.bufs, w.derefs, w.replies)

theorem requeued_rcv (w : World) (id : Nat) (r : Dataq) (same : r.maxdatalen = (w.sock id).rcv.maxdatalen) :
    Requeued w (setRcv w id r) := by
  refine ⟨fun i => ?_, fun i => ?_, rfl⟩
  · unfold settings setRcv setData
    by_cases here : i = id
    · subst here
      dsimp only
      rw [Function.update_self]
    · dsimp only
      rw [Function.update_of_ne here]
  · unfold setRcv setData
    by_cases here : i = id
    · subst here
      dsimp only
      rw [Function.update_self]
      exact same
    · dsimp only
      rw [Function.update_of_ne here]

theorem set_rcv_here (w : World) (id : Nat) (r : Dataq) : (setRcv w id r).sock id = { w.sock id with rcv := r } :=
  Function.update_self ..

theorem set_rcv_other (w : World) (id i : Nat) (r : Dataq) (other : i ≠ id) : (setRcv w id r).sock i = w.sock i :=
  Function.update_of_ne other ..

theorem enqueue_none (w : World) (id buf : Nat) (len : Int) (last : (w.sock id).rcv.qlast = none) :
    enqueue w id buf len = setRcv (setPrev (setNext w buf none) buf none) id
      { (w.sock id).rcv with qfirst := some buf, qlast := some buf, curdatalen := (w.sock id).rcv.curdatalen + len } := by
  unfold enqueue
  dsimp only
  rw [last]

theorem enqueue_some (w : World) (id buf b : Nat) (len : Int) (last : (w.sock id).rcv.qlast = some b) :
    enqueue w id buf len = setRcv (setPrev (setNext (setNext w buf none) b (some buf)) buf (some b)) id
      { (w.sock id).rcv with qlast := some buf, curdatalen := (w.sock id).rcv.curdatalen + len } := by
  unfold enqueue
  dsimp only
  rw [last]

theorem enqueue_requeued (w : World) (id buf : Nat) (len : Int) : Requeued w (enqueue w id buf len) := by
  cases last : (w.sock id).rcv.qlast with
  | none =>
      rw [enqueue_none w id buf len last]
      obtain ⟨settings, limit, rest⟩ := requeued_rcv (setPrev (setNext w buf none) buf none) id
        { (w.sock id).rcv with qfirst := some buf, qlast := some buf, curdatalen := (w.sock id).rcv.curdatalen + len } rfl
      exact ⟨settings, limit, rest⟩
  | some b =>
      rw [enqueue_some w id buf b len last]
      obtain ⟨settings, limit, rest⟩ := requeued_rcv (setPrev (setNext (setNext w buf none) b (some buf)) buf (some b)) id
        { (w.sock id).rcv with qlast := some buf, curdatalen := (w.sock id).rcv.curdatalen + len } rfl
      exact ⟨settings, limit, rest⟩

theorem holds_enqueue (w : World) (q : Nat → List Nat) (hand : List Nat) (id buf : Nat) (len : Int)
    (holds : Holds w q (buf :: hand)) (made : id < w.made) (own : todoOf (w.sock id).proto (w.dgram buf) = len)
    (sized : len = size (w.sock id).proto (w.dgram buf)) :
    Holds (enqueue w id buf len) (Function.update q id (q id ++ [buf])) hand := by
  have apart := hand_apart holds
  have grown : (w.sock id).rcv.curdatalen + len
      = ((q id ++ [buf]).map fun b => todoOf (w.sock id).proto (w.dgram b)).sum := by
    rw [holds.total id, List.map_append, List.sum_append, List.map_singleton, List.sum_singleton, own]
  have known : ∀ b ∈ q id ++ [buf], todoOf (w.sock id).proto (w.dgram b) = size (w.sock id).proto (w.dgram b) := by
    intro b member
    obtain old | new := List.mem_append.mp member
    · exact holds.sized id b old
    · rw [List.mem_singleton.mp new, own, sized]
  have moved : ∀ b, hand.count b + (q id ++ [buf]).count b = (buf :: hand).count b + (q id).count b := by
    intro b
    rw [List.count_append, List.count_cons, List.count_cons, List.count_nil]
    omega
  cases last : (w.sock id).rcv.qlast with
  | none =>
      have empty := (queued_nil_iff w.next _ _ _ (holds.ahead id)).mp last
      rw [enqueue_none w id buf len last]
      refine holds_change holds (fun i other => set_rcv_other _ id i _ other) (by rw [set_rcv_here]; rfl) rfl
        (fun i _ b member => Function.update_of_ne (ne_of_mem_of_not_mem member (apart i)) ..)
        (fun i _ b member => Function.update_of_ne (ne_of_mem_of_not_mem member (apart i)) ..) ?_ ?_ ?_ known made moved
      · rw [set_rcv_here, empty]
        exact queued_single w.next buf
      · rw [set_rcv_here, empty]
        exact queued_single w.prev buf
      · rw [set_rcv_here]
        exact grown
  | some b =>
      have ends : b ∈ q id := List.mem_of_getLast? ((holds.ahead id).ends.symm.trans last)
      have first : (w.sock id).rcv.qfirst ≠ none := fun none_first => by
        have empty := (queued_nil_iff w.prev _ _ _ (holds.behind id)).mp none_first
        rw [List.reverse_eq_nil_iff.mp empty] at ends
        cases ends
      rw [enqueue_some w id buf b len last]
      refine holds_change holds (fun i other => set_rcv_other _ id i _ other) (by rw [set_rcv_here]; rfl) rfl
        (fun i other c member => ?_)
        (fun i _ c member => Function.update_of_ne (ne_of_mem_of_not_mem member (apart i)) ..) ?_ ?_ ?_ known made moved
      · have different : c ≠ b := fun same => other (queued_apart holds member (same ▸ ends))
        exact (Function.update_of_ne different ..).trans (Function.update_of_ne (ne_of_mem_of_not_mem member (apart i)) ..)
      · rw [set_rcv_here]
        exact queued_back w.next _ _ (q id) buf b (apart id) (holds.ahead id) last
      · have front := queued_front w.prev _ _ (q id).reverse buf (fun member => apart id (List.mem_reverse.mp member))
          (holds.behind id)
        rw [last, if_neg first] at front
        rw [set_rcv_here, List.reverse_concat]
        exact front
      · rw [set_rcv_here]
        exact grown

theorem dequeue_none (w : World) (id buf : Nat) (todo : Int) (link : w.next buf = none) :
    dequeue w id buf todo = setRcv w id { (w.sock id).rcv with qfirst := none, qlast := none, curdatalen := 0 } := by
  unfold dequeue
  dsimp only
  rw [link]

theorem dequeue_some (w : World) (id buf b : Nat) (todo : Int) (link : w.next buf = some b) :
    dequeue w id buf todo = setPrev (setRcv w id
      { (w.sock id).rcv with qfirst := some b, curdatalen := (w.sock id).rcv.curdatalen - todo }) b none := by
  unfold dequeue
  dsimp only
  rw [link]

theorem dequeue_requeued (w : World) (id buf : Nat) (todo : Int) : Requeued w (dequeue w id buf todo) := by
  cases link : w.next buf with
  | none =>
      rw [dequeue_none w id buf todo link]
      exact requeued_rcv w id _ rfl
  | some b =>
      rw [dequeue_some w id buf b todo link]
      obtain ⟨settings, limit, rest⟩ := requeued_rcv w id
        { (w.sock id).rcv with qfirst := some b, curdatalen := (w.sock id).rcv.curdatalen - todo } rfl
      exact ⟨settings, limit, rest⟩

theorem holds_dequeue (w : World) (q : Nat → List Nat) (hand : List Nat) (id buf : Nat) (rest : List Nat)
    (holds : Holds w q hand) (head : q id = buf :: rest) :
    Holds (dequeue w id buf (todoOf (w.sock id).proto (w.dgram buf))) (Function.update q id rest) (buf :: hand) := by
  have here : buf ∈ q id := by
    rw [head]
    exact List.mem_cons_self
  have first : (w.sock id).rcv.qfirst = some buf := by
    have linked := (holds.ahead id).linked
    rw [head] at linked
    exact linked.1
  obtain ⟨rest', again, popped⟩ := queued_pop w.next _ _ (q id) buf (holds.ahead id) first
  obtain rfl : rest' = rest := (List.cons.inj (again.symm.trans head)).2
  have total := holds.total id
  rw [head, List.map_cons, List.sum_cons] at total
  have known : ∀ b ∈ rest', todoOf (w.sock id).proto (w.dgram b) = size (w.sock id).proto (w.dgram b) := fun b member =>
    holds.sized id b (head ▸ List.mem_cons_of_mem buf member)
  have moved : ∀ b, (buf :: hand).count b + rest'.count b = hand.count b + (q id).count b := by
    intro b
    rw [head, List.count_cons, List.count_cons]
    omega
  cases link : w.next buf with
  | none =>
      rw [link] at popped
      have empty : rest' = [] := (queued_nil_iff w.next _ _ _ popped).mp (if_pos rfl)
      rw [dequeue_none w id buf _ link]
      refine holds_change holds (fun i other => set_rcv_other w id i _ other) (by rw [set_rcv_here]) rfl
        (fun _ _ _ _ => rfl) (fun _ _ _ _ => rfl) ?_ ?_ ?_ known (queued_made holds here) moved
      · rw [set_rcv_here, empty]
        exact queued_empty w.next
      · rw [set_rcv_here, empty]
        exact queued_empty w.prev
      · rw [set_rcv_here, empty]
        rfl
  | some b =>
      rw [link, if_neg nofun] at popped
      obtain ⟨more, rfl⟩ : ∃ more, rest' = b :: more := by
        cases rest' with
        | nil => cases popped.linked
        | cons c more =>
            obtain rfl := Option.some.inj popped.linked.1
            exact ⟨more, rfl⟩
      have second : b ∈ q id := by
        rw [head]
        exact List.mem_cons_of_mem buf List.mem_cons_self
      rw [dequeue_some w id buf b _ link]
      refine holds_change holds (fun i other => set_rcv_other w id i _ other) ?_ rfl (fun _ _ _ _ => rfl)
        (fun i other c member => ?_) ?_ ?_ ?_ known (queued_made holds here) moved
      · change ((setRcv w id _).sock id).proto = _
        rw [set_rcv_here]
      · exact Function.update_of_ne (fun same : c = b => other (queued_apart holds member (same ▸ second))) ..
      · change Queued w.next ((setRcv w id _).sock id).rcv.qfirst ((setRcv w id _).sock id).rcv.qlast _
        rw [set_rcv_here]
        exact popped
      · have back := holds.behind id
        rw [head, List.reverse_cons, List.reverse_cons, List.append_assoc, List.singleton_append] at back
        change Queued (Function.update w.prev b none) ((setRcv w id _).sock id).rcv.qlast ((setRcv w id _).sock id).rcv.qfirst _
        rw [set_rcv_here, List.reverse_cons]
        exact queued_cut w.prev _ _ more.reverse b buf back
      · change ((setRcv w id _).sock id).rcv.curdatalen = _
        rw [set_rcv_here]
        dsimp only
        omega

theorem queued_few (w : World) (q : Nat → List Nat) (hand : List Nat) (holds : Holds w q hand) (id : Nat) :
    (q id).length ≤ w.bufs := by
  have distinct := linked_nodup w.next (q id) _ (holds.ahead id).linked
  have among : q id ⊆ List.range w.bufs := fun b member => List.mem_range.mpr (queued_below holds member)
  have few := (List.subperm_of_subset distinct among).length_le
  rwa [List.length_range] at few

theorem holds_derefs (w : World) (q : Nat → List Nat) (hand l : List Nat) (holds : Holds w q (l ++ hand)) :
    Holds { w with derefs := l ++ w.derefs } q hand := by
  refine ⟨holds.ahead, holds.behind, holds.total, holds.sized, holds.unmade, fun b => ?_⟩
  have before := holds.once b
  unfold places at before
  rw [List.count_append] at before
  change hand.count b + listed w.made q b + (l ++ w.derefs).count b + (w.replies.map Prod.fst).count b = _
  rw [List.count_append]
  exact (by omega : _ = _).trans before

-- The loop frees every buffer of the queue.
theorem flush_loop (l : List Nat) : ∀ fuel start w, Linked w.next start l → l.length < fuel →
    flushLoop fuel w start = some { w with derefs := l.reverse ++ w.derefs } := by
  induction l with
  | nil =>
      intro fuel start w linked enough
      obtain ⟨n, rfl⟩ := Nat.exists_eq_succ_of_ne_zero (Nat.ne_of_gt enough)
      rw [show start = none from linked]
      rfl
  | cons buf rest ih =>
      intro fuel start w linked enough
      obtain ⟨n, rfl⟩ := Nat.exists_eq_succ_of_ne_zero (Nat.ne_of_gt (Nat.lt_of_le_of_lt (Nat.zero_le _) enough))
      rw [linked.1]
      have later := ih n (w.next buf) (bufDeref w buf) linked.2 (Nat.lt_of_succ_lt_succ enough)
      rw [flushLoop, later, List.reverse_cons, List.append_assoc]
      rfl

end MagxNet.Udp
