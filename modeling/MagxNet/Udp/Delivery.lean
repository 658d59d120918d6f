import MagxNet.Udp.Queues

set_option autoImplicit false

namespace MagxNet.Udp

open Bytes
open Ip (iphDaddr iphProto iphSaddr)
open Tcp (SizedIov iovSize slots)

section Room

variable {w : World} {q : Nat → List Nat} {hand : List Nat}

theorem total_weight (holds : Holds w q hand) (id : Nat) : (w.sock id).rcv.curdatalen = ((view w q).box id).weight := by
  rw [holds.total id, List.map_congr_left (holds.sized id)]
  unfold Box.weight view
  rw [List.map_map, Nat.cast_list_sum, List.map_map]
  rfl

theorem full_accepts (holds : Holds w q hand) (id : Nat) (letter : Buffer) (len : Int)
    (sized : len = size (w.sock id).proto letter) :
    ((view w q).box id).accepts letter = (!full (w.sock id) len && !(w.sock id).cantrcvmore) := by
  have weight := total_weight holds id
  unfold Box.accepts full
  rw [weight, sized, ← decide_not]
  refine congrArg (· && !(w.sock id).cantrcvmore) (decide_eq_decide.mpr ?_)
  change (_ : Int) ≤ (w.sock id).rcv.maxdatalen ↔ _
  rw [not_lt, Nat.cast_add]
  rfl

end Room

-- The data of a datagram with the right length is what its header says.
theorem whole_size (letter : Buffer) (good : badLength letter = false) :
    pktlen letter - UDP_MINLEN = size .udp letter ∧ todoOf .udp letter = size .udp letter := by
  unfold badLength at good
  rw [Bool.or_eq_false_iff, decide_eq_false_iff_not, decide_eq_false_iff_not] at good
  obtain ⟨long, same⟩ := good
  rw [not_not] at same
  have small : uhLength letter < 2 ^ 16 := (get16 (uh letter) 4).isLt
  have length : (size .udp letter : Int) = (letter.length - Ip.ipHdrlen letter - UDP_MINLEN : Nat) := by
    unfold size dataOf uh
    rw [List.length_drop, List.length_drop]
  rw [same, BitVec.toNat_ofInt] at long
  unfold todoOf
  unfold pktlen at same ⊢
  unfold UDP_MINLEN at *
  dsimp only
  omega

-- What is read of the data is the data.
theorem peek_data (data : Buffer) (n : Nat) (fits : n ≤ data.length) : peek (get8 data) 0 n = data.take n := by
  unfold peek get8
  refine List.ext_getElem (by simp [fits]) fun i _ there => ?_
  rw [List.length_take] at there
  rw [List.getElem_take, List.getElem_map, List.getElem_range, Nat.zero_add, List.getD_eq_getElem _ _ (by omega)]

section Posting

variable (m : Mail) (letter : Buffer)

theorem post_nil : m.post letter [] = m := rfl

theorem post_cons (id : Nat) (ids : List Nat) (apart : id ∉ ids) :
    (m.post letter [id]).post letter ids = m.post letter (id :: ids) := by
  refine mail_ext _ _ (fun i => ?_) rfl
  unfold Mail.post
  dsimp only
  by_cases here : i = id
  · subst here
    rw [if_neg apart, if_pos List.mem_cons_self, if_pos List.mem_cons_self]
  · by_cases later : i ∈ ids
    · rw [if_pos later, if_pos (List.mem_cons_of_mem id later), if_neg (by simpa using here)]
    · rw [if_neg later, if_neg (by simpa using here), if_neg (by simp [here, later])]

theorem post_settings (ids : List Nat) (i : Nat) : (m.post letter ids).settings i = m.settings i := by
  unfold Mail.post Mail.settings
  dsimp only
  split <;> rfl

theorem post_other (ids : List Nat) (i : Nat) (other : i ∉ ids) : (m.post letter ids).box i = m.box i := if_neg other

theorem takes_post (id i : Nat) (other : i ≠ id) (letter' : Buffer) :
    takes (m.post letter [id]) letter' i = takes m letter' i := by
  unfold takes wants
  rw [post_settings, post_other m letter [id] i (by simpa using other)]

end Posting

theorem view_requeued (w w' : World) (q : Nat → List Nat) (id : Nat) (l : List Nat) (same : Requeued w w') :
    view w' (Function.update q id l) = (view w q).setLetters id (l.map w.dgram) := by
  have rest := same.rest
  rw [Prod.mk.injEq, Prod.mk.injEq, Prod.mk.injEq, Prod.mk.injEq] at rest
  obtain ⟨made, udp, raw, dgram, -⟩ := rest
  refine mail_ext _ _ (fun i => ?_) ?_
  · unfold view Mail.setLetters Mail.setBox
    dsimp only
    rw [same.settings i, same.limit i, dgram]
    by_cases here : i = id
    · subst here
      rw [Function.update_self, Function.update_self]
    · rw [Function.update_of_ne here, Function.update_of_ne here]
  · unfold view Mail.setLetters Mail.setBox
    dsimp only
    rw [made, udp, raw]

-- The buffer is put into the queue, and so its datagram into the box.
theorem view_enqueue (w : World) (q : Nat → List Nat) (id buf : Nat) (len : Int) :
    view (enqueue w id buf len) (Function.update q id (q id ++ [buf])) = (view w q).post (w.dgram buf) [id] := by
  rw [view_requeued w _ q id _ (enqueue_requeued w id buf len)]
  refine mail_ext _ _ (fun i => ?_) rfl
  unfold Mail.setLetters Mail.setBox Mail.post
  dsimp only
  by_cases here : i = id
  · subst here
    rw [Function.update_self, if_pos (List.mem_singleton_self i), List.map_append]
    rfl
  · rw [Function.update_of_ne here, if_neg (by simpa using here)]

theorem enqueue_dgram (w : World) (id buf : Nat) (len : Int) : (enqueue w id buf len).dgram = w.dgram
    ∧ (enqueue w id buf len).replies = w.replies ∧ (enqueue w id buf len).bufs = w.bufs := by
  have rest := (enqueue_requeued w id buf len).rest
  simp only [Prod.mk.injEq] at rest
  exact ⟨rest.2.2.2.1, rest.2.2.2.2.2.2, rest.2.2.2.2.1⟩

section Raw

variable (env : Env) (buf : Nat) (letter : Buffer)

-- The buffer, until a socket has got it.
def left (delivered : Nat) : List Nat := if delivered = 0 then [buf] else []

theorem served_cons (delivered id : Nat) (ids : List Nat) (gets : delivered = 0 ∨ env.clone delivered) :
    served env delivered (id :: ids) = id :: served env (delivered + 1) ids := if_pos gets

-- What the loop does for one socket that takes the datagram.
theorem rip_buf_holds (w : World) (q : Nat → List Nat) (delivered id : Nat) (made : id < w.made)
    (raw : (w.sock id).proto = .raw) (holds : Holds w q (left buf delivered)) (below : buf < w.bufs)
    (gets : delivered = 0 ∨ env.clone delivered) :
    ∃ nbuf w1, ripBuf env w buf delivered = some (nbuf, w1) ∧
      let w2 := enqueue w1 id nbuf (w.dgram buf).length
      Holds w2 (Function.update q id (q id ++ [nbuf])) [] ∧ w2.dgram buf = w.dgram buf ∧ w2.replies = w.replies ∧ w.bufs ≤ w2.bufs
        ∧ view w2 (Function.update q id (q id ++ [nbuf])) = (view w q).post (w.dgram buf) [id] := by
  unfold left at holds
  unfold ripBuf
  by_cases first : delivered = 0
  · rw [if_pos first] at holds ⊢
    obtain ⟨dgram, replies, bufs⟩ := enqueue_dgram w id buf (w.dgram buf).length
    refine ⟨buf, w, rfl, holds_enqueue w q [] id buf _ holds made ?_ ?_, congrFun dgram buf, replies, bufs.ge,
      view_enqueue w q id buf _⟩
    · rw [raw]
      rfl
    · rw [raw]
      rfl
  · rw [if_neg first] at holds ⊢
    rw [if_pos (gets.resolve_left first)]
    have same := filled_other w (w.dgram buf) buf below
    have new : (bufFilled w (w.dgram buf)).dgram w.bufs = w.dgram buf := Function.update_self ..
    obtain ⟨dgram, replies, bufs⟩ := enqueue_dgram (bufFilled w (w.dgram buf)) id w.bufs (w.dgram buf).length
    refine ⟨w.bufs, bufFilled w (w.dgram buf), rfl, holds_enqueue _ q [] id w.bufs _ (holds_filled w q [] _ holds) made ?_ ?_,
      (congrFun dgram buf).trans same, replies, bufs.ge.trans' (Nat.le_succ _), ?_⟩
    · change todoOf (w.sock id).proto _ = _
      rw [raw, new]
      rfl
    · change _ = ((size (w.sock id).proto _ : Nat) : Int)
      rw [raw, new]
      rfl
    · rw [view_enqueue (bufFilled w (w.dgram buf)) q id w.bufs, new, view_filled w q [] _ holds]

theorem served_among (ids : List Nat) : ∀ delivered, ∀ id ∈ served env delivered ids, id ∈ ids := by
  induction ids with
  | nil => exact fun _ _ member => member
  | cons first rest ih =>
      intro delivered id member
      rw [served] at member
      split at member
      · obtain rfl | later := List.mem_cons.mp member
        · exact List.mem_cons_self
        · exact List.mem_cons_of_mem first (ih (delivered + 1) id later)
      · cases member

theorem rip_takes (w : World) (q : Nat → List Nat) (hand : List Nat) (holds : Holds w q hand) (id : Nat)
    (raw : (w.sock id).proto = .raw) :
    takes (view w q) letter id = (wants (view w q) letter id && ripTakes letter (w.sock id)) := by
  unfold takes ripTakes
  rw [full_accepts holds id letter letter.length (by rw [raw]; rfl)]

-- The loop serves those that take the datagram one after the other, until there is no memory for a copy.
theorem rip_loop_serves (ids : List Nat) : ∀ (r r' : Rip) (q : Nat → List Nat), ids.Nodup →
    (∀ id ∈ ids, id < r.world.made ∧ (r.world.sock id).proto = .raw) → Holds r.world q (left buf r.delivered) →
    buf < r.world.bufs → r.world.dgram buf = letter → r.delivered ≤ r.found →
    ripLoop env buf (iphSaddr letter) (iphDaddr letter) ids r = r' →
    ∃ q', Holds r'.world q' (left buf r'.delivered) ∧ r'.world.dgram buf = letter ∧ r'.world.replies = r.world.replies
      ∧ r'.delivered ≤ r'.found ∧ (r'.found = 0 ↔ r.found = 0 ∧ ids.any (wants (view r.world q) letter) = false)
      ∧ view r'.world q'
        = (view r.world q).post letter (served env r.delivered (ids.filter (takes (view r.world q) letter))) := by
  induction ids with
  | nil =>
      rintro r r' q _ _ holds _ same fewer rfl
      exact ⟨q, holds, same, rfl, fewer, by simp [ripLoop], rfl⟩
  | cons id rest ih =>
      intro r r' q distinct raw holds below same fewer run
      obtain ⟨apart, distinct⟩ := List.nodup_cons.mp distinct
      obtain ⟨made, proto⟩ := raw id List.mem_cons_self
      have raw' := fun i member => raw i (List.mem_cons_of_mem id member)
      have taken := rip_takes letter r.world q _ holds id proto
      have want : ripWants letter (iphSaddr letter) (iphDaddr letter) (settings r.world id) =
        wants (view r.world q) letter id := rfl
      rw [ripLoop, same, want] at run
      rw [List.filter_cons, List.any_cons, taken]
      by_cases wanted : wants (view r.world q) letter id = true
      · rw [if_pos wanted] at run
        rw [wanted, Bool.true_or, Bool.true_and]
        by_cases room : ripTakes letter (r.world.sock id) = true
        · rw [if_pos room] at run ⊢
          by_cases gets : r.delivered = 0 ∨ env.clone r.delivered
          · obtain ⟨nbuf, w1, clone, kept⟩ := rip_buf_holds env buf r.world q r.delivered id made proto holds below gets
            rw [clone] at run
            rw [same] at kept
            obtain ⟨holds', same', replies, bufs, viewed⟩ := kept
            have boxes : ∀ i, settings (enqueue w1 id nbuf letter.length) i = settings r.world i := fun i =>
              (congrArg (fun m => Mail.settings m i) viewed).trans (post_settings ..)
            have counted : (enqueue w1 id nbuf letter.length).made = r.world.made := congrArg Mail.made viewed
            obtain ⟨q', keeps, same'', replies', fewer', found, whole⟩ := ih _ r' _ distinct
              (fun i member => by
                rw [counted, show (_ : InData).proto = (settings r.world i).proto from congrArg Sock.proto (boxes i)]
                exact raw' i member) holds' (Nat.lt_of_lt_of_le below bufs) same' (Nat.succ_le_succ fewer) run
            refine ⟨q', keeps, same'', replies'.trans replies, fewer', ?_, ?_⟩
            · exact iff_of_false (fun zero => Nat.succ_ne_zero _ (found.mp zero).1) (fun both => Bool.noConfusion both.2)
            · have later : rest.filter (takes ((view r.world q).post letter [id]) letter) =
                rest.filter (takes (view r.world q) letter) :=
                List.filter_congr fun i member => takes_post _ letter id i (ne_of_mem_of_not_mem member apart) letter
              rw [whole, viewed, later, served_cons env _ id _ gets, post_cons]
              exact fun member => apart (List.mem_of_mem_filter (served_among env _ _ id member))
          · have fails : ripBuf env r.world buf r.delivered = none := by
              rw [not_or] at gets
              rw [ripBuf, if_neg gets.1, if_neg gets.2]
            rw [fails] at run
            obtain rfl := run
            refine ⟨q, holds, same, rfl, Nat.le_succ_of_le fewer, ?_, ?_⟩
            · exact iff_of_false (Nat.succ_ne_zero _) (fun both => Bool.noConfusion both.2)
            · rw [served, if_neg gets, post_nil]
        · rw [if_neg room] at run ⊢
          obtain ⟨q', keeps, same', replies, fewer', found, whole⟩ :=
            ih ⟨r.found + 1, r.delivered, r.world⟩ r' q distinct raw' holds below same (Nat.le_succ_of_le fewer) run
          refine ⟨q', keeps, same', replies, fewer', ?_, whole⟩
          exact iff_of_false (fun zero => Nat.succ_ne_zero _ (found.mp zero).1) (fun both => Bool.noConfusion both.2)
      · rw [if_neg wanted] at run
        rw [Bool.eq_false_of_not_eq_true wanted]
        exact ih r r' q distinct raw' holds below same fewer run

end Raw

-- The lists hold sockets of their own protocols that there are, and no raw one twice.
structure Sound (m : Mail) : Prop where
  udp : ∀ id ∈ m.udp, id < m.made ∧ (m.box id).proto = .udp
  raw : ∀ id ∈ m.raw, id < m.made ∧ (m.box id).proto = .raw
  once : m.raw.Nodup

section Input

variable (env : Env) (w : World) (q : Nat → List Nat) (buf : Nat)

theorem rip_input_serves (sound : Sound (view w q)) (holds : Holds w q [buf]) :
    let letter := w.dgram buf
    let m := view w q
    let r := ripInput env w buf (iphSaddr letter) (iphDaddr letter)
    let done := m.raw.any (wants m letter) ∨ isInetProto (iphProto letter).toNat
    ∃ q', Holds r.2 q' (if done then [] else [buf]) ∧ r.2.dgram buf = letter ∧ r.2.replies = w.replies
      ∧ r.1 = (if done then 0 else -1) ∧ view r.2 q' = m.post letter (rawTakers env m letter) := by
  obtain ⟨q', keeps, same, replies, fewer, found, served⟩ := rip_loop_serves env buf (w.dgram buf) w.raw ⟨0, 0, w⟩ _ q
    sound.once sound.raw holds (hand_below holds) rfl (Nat.le_refl 0) rfl
  dsimp only
  unfold ripInput
  generalize ripLoop env buf (iphSaddr (w.dgram buf)) (iphDaddr (w.dgram buf)) w.raw ⟨0, 0, w⟩ = r at *
  dsimp only at *
  by_cases some' : r.found = 0
  · have unwanted := (found.mp some').2
    rw [show r.delivered = 0 by omega] at keeps
    rw [if_neg (not_not.mpr some'), show (view w q).raw.any (wants (view w q) (w.dgram buf)) = false from unwanted]
    by_cases inet : isInetProto (iphProto (w.dgram buf)).toNat = true
    · rw [if_pos inet, if_pos (Or.inr inet), if_pos (Or.inr inet)]
      exact ⟨q', holds_deref r.world q' [] buf keeps, same, replies, rfl, served⟩
    · rw [if_neg inet, if_neg (by simp [inet]), if_neg (by simp [inet])]
      exact ⟨q', keeps, same, replies, rfl, served⟩
  · have wanted : (view w q).raw.any (wants (view w q) (w.dgram buf)) = true := by
      by_contra none'
      exact some' (found.mpr ⟨rfl, Bool.eq_false_of_not_eq_true none'⟩)
    rw [if_pos some', if_pos (Or.inl wanted), if_pos (Or.inl wanted)]
    unfold left at keeps
    by_cases kept : r.delivered = 0
    · rw [if_pos kept] at keeps ⊢
      exact ⟨q', holds_deref r.world q' [] buf keeps, same, replies, rfl, served⟩
    · rw [if_neg kept] at keeps ⊢
      exact ⟨q', keeps, same, replies, rfl, served⟩

theorem udp_found (letter : Buffer) : udpFound (settings w) w.udp letter (iphSaddr letter) (iphDaddr letter)
    = addressee (view w q) letter := lookup_best ..

-- Nobody is bound to the port: the sender gets a copy back, if there is memory for it, and the buffer is left.
theorem udp_input_unreached (holds : Holds w q [buf]) (good : whole env (w.dgram buf) = true)
    (unknown : addressee (view w q) (w.dgram buf) = none) :
    let letter := w.dgram buf
    let r := udpInput env w buf (iphSaddr letter) (iphDaddr letter)
    r.1 = -1 ∧ Holds r.2 q [buf] ∧ r.2.dgram buf = letter ∧ view r.2 q = view w q
      ∧ r.2.replies = if env.clone 0 then (w.bufs, letter) :: w.replies else w.replies := by
  unfold whole at good
  rw [Bool.and_eq_true, Bool.not_eq_true', Bool.not_eq_true'] at good
  dsimp only
  rw [← udp_found] at unknown
  unfold udpInput portUnreach
  rw [good.1, good.2, if_neg Bool.false_ne_true, if_neg Bool.false_ne_true, unknown]
  dsimp only
  by_cases memory : env.clone 0 = true
  · have fill := holds_filled w q [buf] (w.dgram buf) holds
    have copy : (bufFilled w (w.dgram buf)).dgram w.bufs = w.dgram buf := Function.update_self ..
    rw [if_pos memory, if_pos memory]
    refine ⟨rfl, holds_reply _ q [buf] w.bufs fill, filled_other w _ buf (hand_below holds), view_filled w q [buf] _ holds, ?_⟩
    unfold icmpSend
    dsimp only
    rw [copy]
    rfl
  · rw [if_neg memory, if_neg memory]
    exact ⟨rfl, holds, rfl, rfl, rfl⟩

-- Who gets a UDP datagram that is not left.
def udpReceivers (m : Mail) (letter : Buffer) : List Nat :=
  if whole env letter then (addressee m letter).elim [] fun id => if (m.box id).accepts letter then [id] else [] else []

theorem udp_input_serves (sound : Sound (view w q)) (holds : Holds w q [buf])
    (known : whole env (w.dgram buf) = true → addressee (view w q) (w.dgram buf) ≠ none) :
    let letter := w.dgram buf
    let r := udpInput env w buf (iphSaddr letter) (iphDaddr letter)
    ∃ q', r.1 = 0 ∧ Holds r.2 q' [] ∧ r.2.replies = w.replies
      ∧ view r.2 q' = (view w q).post letter (udpReceivers env (view w q) letter) := by
  dsimp only
  unfold udpReceivers
  cases good : whole env (w.dgram buf) with
  | false =>
      refine ⟨q, ?_⟩
      unfold whole at good
      unfold udpInput
      by_cases length : badLength (w.dgram buf) = true
      · rw [if_pos length]
        exact ⟨rfl, holds_deref w q [] buf holds, rfl, rfl⟩
      · rw [Bool.eq_false_of_not_eq_true length, Bool.not_false, Bool.true_and, Bool.not_eq_false'] at good
        rw [if_neg length, if_pos good]
        exact ⟨rfl, holds_deref w q [] buf holds, rfl, rfl⟩
  | true =>
      obtain ⟨id, found⟩ := Option.ne_none_iff_exists'.mp (known good)
      unfold whole at good
      rw [Bool.and_eq_true, Bool.not_eq_true', Bool.not_eq_true'] at good
      rw [found, if_pos rfl, Option.elim_some]
      obtain ⟨made, proto⟩ := sound.udp id (best_among _ _ _ _ _ _ id found)
      rw [← udp_found] at found
      have proto' : (w.sock id).proto = .udp := proto
      have sizes := whole_size (w.dgram buf) good.1
      have room := full_accepts holds id (w.dgram buf) (pktlen (w.dgram buf) - UDP_MINLEN) (by rw [proto', sizes.1])
      unfold udpInput
      rw [good.1, good.2, if_neg Bool.false_ne_true, if_neg Bool.false_ne_true, found]
      dsimp only
      rw [room]
      by_cases crowded : full (w.sock id) (pktlen (w.dgram buf) - UDP_MINLEN) = true
      · rw [if_pos crowded, crowded, if_neg (by simp)]
        exact ⟨q, rfl, holds_deref w q [] buf holds, rfl, rfl⟩
      · rw [if_neg crowded, Bool.eq_false_of_not_eq_true crowded, Bool.not_false, Bool.true_and]
        by_cases shut : (w.sock id).cantrcvmore = true
        · rw [if_pos shut, shut, if_neg (by simp)]
          exact ⟨q, rfl, holds_deref w q [] buf holds, rfl, rfl⟩
        · rw [if_neg shut, Bool.eq_false_of_not_eq_true shut, Bool.not_false, if_pos rfl]
          refine ⟨_, rfl, holds_enqueue w q [] id buf _ holds made ?_ ?_, (enqueue_dgram w id buf _).2.1,
            view_enqueue w q id buf _⟩
          · rw [proto', sizes.2, sizes.1]
          · rw [proto', sizes.1]

-- Everybody gets what he is to get, and the buffer and its copies are all somewhere.
theorem deliver_serves (sound : Sound (view w q)) (holds : Holds w q [buf]) :
    let letter := w.dgram buf
    let m := view w q
    let w' := deliver env w buf
    ∃ q' new, Holds w' q' [] ∧ w'.replies = new ++ w.replies ∧ new.map Prod.snd = returned env m letter
      ∧ view w' q' = m.post letter (receivers env m letter) := by
  dsimp only
  unfold receivers returned deliver
  dsimp only
  by_cases udp : (iphProto (w.dgram buf)).toNat = IPPROTO_UDP
  · rw [if_pos udp, if_pos udp, if_pos udp]
    by_cases unreached : whole env (w.dgram buf) = true ∧ addressee (view w q) (w.dgram buf) = none
    · obtain ⟨good, unknown⟩ := unreached
      obtain ⟨refuses, keeps, same, viewed, replies⟩ := udp_input_unreached env w q buf holds good unknown
      rw [good, unknown, if_pos rfl]
      generalize udpInput env w buf (iphSaddr (w.dgram buf)) (iphDaddr (w.dgram buf)) = r at *
      have refused : r.1 ≠ 0 := by
        rw [refuses]
        decide
      have done : isInetProto (iphProto (r.2.dgram buf)).toNat = true := by
        rw [same, udp]
        rfl
      obtain ⟨q', keeps', -, replies', takes', served⟩ := rip_input_serves env r.2 q buf (viewed ▸ sound) keeps
      rw [if_pos (Or.inr done)] at keeps' takes'
      rw [same] at keeps' takes' replies' served
      rw [if_neg refused, if_pos takes']
      rw [replies] at replies'
      rw [viewed] at served
      by_cases memory : env.clone 0 = true
      · rw [if_pos memory] at replies'
        rw [if_pos ⟨rfl, rfl, memory⟩]
        exact ⟨q', [(w.bufs, w.dgram buf)], keeps', replies', rfl, served⟩
      · rw [if_neg memory] at replies'
        rw [if_neg fun all => memory all.2.2]
        exact ⟨q', [], keeps', replies', rfl, served⟩
    · obtain ⟨q', takes', keeps, replies, served⟩ :=
        udp_input_serves env w q buf sound holds fun good unknown => unreached ⟨good, unknown⟩
      rw [if_pos takes', if_pos takes', if_neg fun all => unreached ⟨all.1, all.2.1⟩]
      refine ⟨q', [], keeps, replies, rfl, served.trans ?_⟩
      unfold udpReceivers
      cases good : whole env (w.dgram buf) with
      | false => rfl
      | true =>
          obtain ⟨id, found⟩ := Option.ne_none_iff_exists'.mp fun unknown => unreached ⟨good, unknown⟩
          rw [found]
          rfl
  · have refused : ((-1, w) : Int × World).1 ≠ 0 := show (-1 : Int) ≠ 0 by decide
    rw [if_neg udp, if_neg udp, if_neg udp, if_neg refused]
    obtain ⟨q', keeps, same, replies, takes', served⟩ := rip_input_serves env w q buf sound holds
    dsimp only at *
    by_cases done : (view w q).raw.any (wants (view w q) (w.dgram buf)) = true ∨ isInetProto (iphProto (w.dgram buf)).toNat = true
    · rw [if_pos done] at keeps takes' ⊢
      rw [if_pos takes']
      exact ⟨q', [], keeps, replies, rfl, served⟩
    · rw [if_neg done] at keeps takes' ⊢
      rw [if_neg (by rw [takes']; decide)]
      refine ⟨q', [(buf, w.dgram buf)], holds_reply _ q' [] buf keeps, ?_, rfl, served⟩
      unfold icmpSend
      rw [same, replies]
      rfl

theorem new_replies (w w' : World) (new : List (Nat × Buffer)) (replies : w'.replies = new ++ w.replies) :
    newReplies w w' = new.map Prod.snd := by
  unfold newReplies
  rw [replies, List.length_append, Nat.add_sub_cancel, List.take_left]

end Input

end MagxNet.Udp
