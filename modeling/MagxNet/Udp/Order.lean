import MagxNet.Udp.Post

set_option autoImplicit false

namespace MagxNet.Udp

open Bytes

-- What an operation puts into a box, and what is taken out of it: by a reader who gets as far as the letters, or when the
-- socket is closed.

def posted (m : Mail) (op : Op) (id : Nat) : List Buffer :=
  match op with
  | .input env letter => if id ∈ receivers env m letter then [letter] else []
  | _ => []

def reads (m : Mail) : Op → Option (Nat × RecvArgs)
  | .recv id a => if id ∈ m.udp ++ m.raw ∧ recvStopped (m.settings id) = none ∧ refused a = none then some (id, a) else none
  | .woken id a interrupted => if refused a = none ∧ wokenBy (m.settings id) interrupted = none then some (id, a) else none
  | _ => none

def closed (m : Mail) : Op → Option Nat
  | .release id => if id ∈ m.udp ++ m.raw then some id else none
  | .shutdown id how _ => if id ∈ m.udp ++ m.raw ∧ bothShut (shut (m.settings id) how) then some id else none
  | _ => none

def taken (m : Mail) (op : Op) (id : Nat) : List Buffer :=
  if closed m op = some id then (m.box id).letters
  else if (reads m op).any fun r => decide (r.1 = id) && !r.2.peek then (m.box id).letters.take 1
  else []

def overRun (f : Mail → Op → Nat → List Buffer) (m : Mail) (id : Nat) : List Op → List Buffer
  | [] => []
  | op :: rest => f m op id ++ overRun f (mailStep m op).2 id rest

-- What every box keeps to: boxes nobody has opened are empty, and none has more in it than a receive buffer may ever have.
structure Kept (m : Mail) : Prop where
  unopened : ∀ id, m.made ≤ id → (m.box id).letters = []
  limit : ∀ id, (m.box id).limit ≤ IN_MAX_RSPACE
  weight : ∀ id, ((m.box id).weight : Int) ≤ IN_MAX_RSPACE

section Order

variable (m : Mail)

theorem raw_takers_take (env : Env) (letter : Buffer) (id : Nat) (member : id ∈ rawTakers env m letter) :
    id ∈ m.raw ∧ (m.box id).accepts letter = true := by
  obtain ⟨raw, takes'⟩ := List.mem_filter.mp (served_among env _ _ id member)
  unfold takes at takes'
  rw [Bool.and_eq_true] at takes'
  exact ⟨raw, takes'.2⟩

-- Who gets a letter is there and has room for it.
theorem receivers_accept (env : Env) (letter : Buffer) (id : Nat) (member : id ∈ receivers env m letter) :
    id ∈ m.udp ++ m.raw ∧ (m.box id).accepts letter = true := by
  have raw : id ∈ rawTakers env m letter → id ∈ m.udp ++ m.raw ∧ (m.box id).accepts letter = true := fun takes' =>
    ⟨List.mem_append_right _ (raw_takers_take m env letter id takes').1, (raw_takers_take m env letter id takes').2⟩
  unfold receivers at member
  split at member
  · split at member
    · split at member
      · rename_i found
        split at member
        · rename_i room
          rw [List.mem_singleton.mp member]
          exact ⟨List.mem_append_left _ (best_among _ _ _ _ _ _ _ found), room⟩
        · cases member
      · exact raw member
    · cases member
  · exact raw member

theorem set_box_letters (id i : Nat) (b : Box) (same : b.letters = (m.box id).letters) :
    ((m.setBox id b).box i).letters = (m.box i).letters := by
  unfold Mail.setBox
  dsimp only
  by_cases here : i = id
  · rw [here, Function.update_self]
    exact same
  · rw [Function.update_of_ne here]

theorem set_box_limit (id : Nat) (b : Box) (low : b.limit ≤ IN_MAX_RSPACE) (limit : ∀ i, (m.box i).limit ≤ IN_MAX_RSPACE)
    (i : Nat) : ((m.setBox id b).box i).limit ≤ IN_MAX_RSPACE := by
  unfold Mail.setBox
  dsimp only
  by_cases here : i = id
  · rw [here, Function.update_self]
    exact low
  · rw [Function.update_of_ne here]
    exact limit i

theorem set_sock_letters (id i : Nat) (s : Sock) : ((m.setSock id s).box i).letters = (m.box i).letters :=
  set_box_letters m id i { m.box id with toSock := s } rfl

theorem set_sock_limit (id : Nat) (s : Sock) (limit : ∀ i, (m.box i).limit ≤ IN_MAX_RSPACE) (i : Nat) :
    ((m.setSock id s).box i).limit ≤ IN_MAX_RSPACE := set_box_limit m id { m.box id with toSock := s } (limit id) limit i

-- What a reader who gets to the letters takes out of a box.
def fetched (id : Nat) (a : RecvArgs) (i : Nat) : List Buffer := if id = i ∧ a.peek = false then (m.box i).letters.take 1 else []

theorem fetch_order (id : Nat) (a : RecvArgs) (i : Nat) :
    (m.box i).letters = fetched m id a i ++ ((fetch m id a).2.box i).letters := by
  unfold fetched fetch
  cases line : (m.box id).letters with
  | nil =>
      split
      · rename_i here
        rw [← here.1, line]
        rfl
      · rfl
  | cons letter rest =>
      dsimp only
      cases peek : a.peek with
      | true =>
          rw [if_neg fun both => Bool.noConfusion both.2]
          rfl
      | false =>
          rw [if_neg Bool.false_ne_true]
          unfold Mail.setLetters Mail.setBox
          dsimp only
          by_cases here : id = i
          · rw [if_pos ⟨here, rfl⟩, ← here, Function.update_self, line]
            rfl
          · rw [if_neg fun both => here both.1, Function.update_of_ne fun same => here same.symm]
            rfl

theorem taken_read (op : Op) (id : Nat) (a : RecvArgs) (i : Nat) (open' : closed m op = none) (read : reads m op = some (id, a)) :
    taken m op i = fetched m id a i := by
  unfold taken fetched
  rw [open', read, if_neg nofun, Option.any_some]
  refine ite_congr ?_ (fun _ => rfl) (fun _ => rfl)
  rw [Bool.and_eq_true, decide_eq_true_eq, Bool.not_eq_true']

theorem taken_none (op : Op) (i : Nat) (open' : closed m op = none) (read : reads m op = none) : taken m op i = [] := by
  unfold taken
  rw [open', read, if_neg nofun]
  rfl

theorem collect_order (id : Nat) (a : RecvArgs) (i : Nat) (live : id ∈ m.udp ++ m.raw) :
    (m.box i).letters = taken m (.recv id a) i ++ ((collect m id a).2.box i).letters := by
  have read : reads m (.recv id a)
      = if id ∈ m.udp ++ m.raw ∧ recvStopped (m.settings id) = none ∧ refused a = none then some (id, a) else none := rfl
  unfold collect
  cases stopped : recvStopped (m.settings id) with
  | some p =>
      rw [if_neg (by rw [stopped]; exact fun all => nomatch all.2.1)] at read
      rw [taken_none m _ i rfl read]
      exact (set_sock_letters m id i p.2).symm
  | none =>
      have bound : ((m.setSock id (autobind (m.settings id) a.port)).box i).letters = (m.box i).letters :=
        set_sock_letters m id i _
      dsimp only
      cases fine : refused a with
      | some r =>
          rw [if_neg (by rw [fine]; exact fun all => nomatch all.2.2)] at read
          rw [taken_none m _ i rfl read]
          exact bound.symm
      | none =>
          rw [if_pos ⟨live, stopped, fine⟩] at read
          have order := fetch_order (m.setSock id (autobind (m.settings id) a.port)) id a i
          unfold fetched at order
          rw [bound] at order
          rw [taken_read m _ id a i rfl read]
          exact order

theorem wake_order (id : Nat) (a : RecvArgs) (interrupted : Bool) (i : Nat) (fine : refused a = none) :
    (m.box i).letters = taken m (.woken id a interrupted) i ++ ((wake m id a interrupted).2.box i).letters := by
  have read : reads m (.woken id a interrupted)
      = if refused a = none ∧ wokenBy (m.settings id) interrupted = none then some (id, a) else none := rfl
  unfold wake
  cases stopped : wokenBy (m.settings id) interrupted with
  | some p =>
      rw [if_neg (by rw [stopped]; exact fun all => nomatch all.2)] at read
      rw [taken_none m _ i rfl read]
      exact (set_sock_letters m id i p.2).symm
  | none =>
      rw [if_pos ⟨fine, stopped⟩] at read
      rw [taken_read m _ id a i rfl read]
      exact fetch_order m id a i

theorem close_letters (id i : Nat) :
    ((close m id).box i).letters = (if i = id then [] else (m.box i).letters) ∧ ((close m id).box i).limit = (m.box i).limit
      ∧ ((close m id).box i).proto = (m.box i).proto := by
  have box : (close m id).box = Function.update m.box id { m.box id with toSock := gone (m.settings id), letters := [] } := by
    unfold close
    cases (m.box id).proto <;> rfl
  rw [box]
  by_cases here : i = id
  · rw [if_pos here, here, Function.update_self]
    exact ⟨rfl, rfl, rfl⟩
  · rw [if_neg here, Function.update_of_ne here]
    exact ⟨rfl, rfl, rfl⟩

-- What is in a box when it is closed is thrown away.
theorem close_order (m1 : Mail) (op : Op) (id i : Nat) (same : (m1.box i).letters = (m.box i).letters)
    (shut' : closed m op = some id) (read : reads m op = none) :
    (m.box i).letters = taken m op i ++ ((close m1 id).box i).letters := by
  unfold taken
  rw [shut', read, (close_letters m1 id i).1, same]
  by_cases here : i = id
  · rw [if_pos (congrArg some here.symm), if_pos here, List.append_nil]
  · rw [if_neg fun again => here (Option.some.inj again).symm, if_neg here]
    rfl

theorem close_shut_order (id : Nat) (how : Int) (port : Tcp.InPort) (i : Nat) (live : id ∈ m.udp ++ m.raw) :
    (m.box i).letters = taken m (.shutdown id how port) i ++ ((closeShut m id how port).box i).letters := by
  have bound : ((m.setSock id (autobind (shut (m.settings id) how) port)).box i).letters = (m.box i).letters :=
    set_sock_letters m id i _
  unfold closeShut
  dsimp only
  by_cases both : bothShut (shut (m.settings id) how) = true
  · rw [if_pos both]
    exact close_order m _ _ id i bound (if_pos ⟨live, both⟩) rfl
  · have stays : closed m (.shutdown id how port) = none := if_neg fun all => both all.2
    rw [if_neg both, taken_none m _ i stays rfl]
    exact bound.symm

theorem post_order (letter : Buffer) (ids : List Nat) (i : Nat) :
    ((m.post letter ids).box i).letters = (m.box i).letters ++ if i ∈ ids then [letter] else [] := by
  unfold Mail.post
  dsimp only
  split
  · rfl
  · exact (List.append_nil _).symm

theorem open_letters (proto : Handler) (protonum : Nat) (kept : Kept m) (i : Nat) :
    ((open' m proto protonum).box i).letters = (m.box i).letters ∧ ((open' m proto protonum).box i).limit ≤ IN_MAX_RSPACE := by
  have box : (open' m proto protonum).box = Function.update m.box m.made
      ⟨(inDataCreate proto protonum).toSock, (inDataCreate proto protonum).rcv.maxdatalen, []⟩ := by
    unfold open'
    cases proto <;> rfl
  rw [box]
  by_cases new : i = m.made
  · rw [new, Function.update_self]
    refine ⟨(kept.unopened m.made (Nat.le_refl _)).symm, ?_⟩
    change IN_DEFAULT_RSPACE ≤ IN_MAX_RSPACE
    decide
  · rw [Function.update_of_ne new]
    exact ⟨rfl, kept.limit i⟩

-- What was in a box and what comes into it are what is taken out and what is in it afterwards.
theorem serve_order (op : Op) (kept : Kept m) (fine : comes (m.udp ++ m.raw) op = true) (i : Nat) :
    (m.box i).letters ++ posted m op i = taken m op i ++ ((serve m op).2.box i).letters := by
  cases op with
  | attach proto protonum =>
      rw [taken_none m _ i rfl rfl]
      exact (List.append_nil _).trans (open_letters m proto protonum kept i).1.symm
  | bind id addr port =>
      rw [taken_none m _ i rfl rfl]
      exact (List.append_nil _).trans (set_sock_letters m id i _).symm
  | connect id args =>
      rw [taken_none m _ i rfl rfl]
      exact (List.append_nil _).trans (set_sock_letters m id i _).symm
  | rcvbuf id val =>
      rw [taken_none m _ i rfl rfl]
      exact (List.append_nil _).trans (set_box_letters m id i { m.box id with limit := rcvbufSize val } rfl).symm
  | send id addr addrlen port sent =>
      rw [taken_none m _ i rfl rfl]
      exact (List.append_nil _).trans (set_sock_letters m id i _).symm
  | shutdown id how port => exact (List.append_nil _).trans (close_shut_order m id how port i (of_decide_eq_true fine))
  | release id =>
      exact (List.append_nil _).trans (close_order m m _ id i rfl (if_pos (of_decide_eq_true fine)) rfl)
  | recv id a => exact (List.append_nil _).trans (collect_order m id a i (of_decide_eq_true fine))
  | woken id a interrupted =>
      exact (List.append_nil _).trans (wake_order m id a interrupted i (Option.isNone_iff_eq_none.mp fine))
  | select id =>
      rw [taken_none m _ i rfl rfl]
      exact List.append_nil _
  | fionread id =>
      rw [taken_none m _ i rfl rfl]
      exact List.append_nil _
  | input env letter =>
      rw [taken_none m _ i rfl rfl]
      exact (post_order m letter _ i).symm
  | error packet errno =>
      rw [taken_none m _ i rfl rfl]
      refine (List.append_nil _).trans ?_
      change _ = (((concerned m packet).elim m fun id => m.setSock id (setErr (m.settings id) errno)).box i).letters
      cases concerned m packet with
      | none => rfl
      | some id => exact (set_sock_letters m id i _).symm

theorem mail_order (op : Op) (kept : Kept m) (i : Nat) :
    (m.box i).letters ++ posted m op i = taken m op i ++ ((mailStep m op).2.box i).letters := by
  unfold mailStep
  by_cases fine : comes (m.udp ++ m.raw) op = true
  · rw [if_pos fine]
    exact serve_order m op kept fine i
  · have none' : closed m op = none ∧ reads m op = none ∧ posted m op i = [] := by
      cases op with
      | release id => exact ⟨if_neg fun live => fine (decide_eq_true live), rfl, rfl⟩
      | recv id a => exact ⟨rfl, if_neg fun all => fine (decide_eq_true all.1), rfl⟩
      | woken id a interrupted => exact ⟨rfl, if_neg fun all => fine (Option.isNone_iff_eq_none.mpr all.1), rfl⟩
      | attach proto protonum => exact absurd rfl fine
      | input env letter => exact absurd rfl fine
      | error packet errno => exact absurd rfl fine
      | bind id addr port => exact ⟨rfl, rfl, rfl⟩
      | connect id args => exact ⟨rfl, rfl, rfl⟩
      | rcvbuf id val => exact ⟨rfl, rfl, rfl⟩
      | send id addr addrlen port sent => exact ⟨rfl, rfl, rfl⟩
      | shutdown id how port => exact ⟨if_neg fun all => fine (decide_eq_true all.1), rfl, rfl⟩
      | select id => exact ⟨rfl, rfl, rfl⟩
      | fionread id => exact ⟨rfl, rfl, rfl⟩
    rw [if_neg fine, taken_none m op i none'.1 none'.2.1, none'.2.2]
    exact List.append_nil _

theorem posted_accept (op : Op) (i : Nat) (some' : posted m op i ≠ []) :
    ∃ letter, posted m op i = [letter] ∧ i ∈ m.udp ++ m.raw ∧ (m.box i).accepts letter = true := by
  cases op with
  | input env letter =>
      by_cases receives : i ∈ receivers env m letter
      · exact ⟨letter, if_pos receives, receivers_accept m env letter i receives⟩
      · exact absurd (if_neg receives) some'
  | _ => exact absurd rfl some'

theorem fetch_limit (id : Nat) (a : RecvArgs) (limit : ∀ i, (m.box i).limit ≤ IN_MAX_RSPACE) (i : Nat) :
    ((fetch m id a).2.box i).limit ≤ IN_MAX_RSPACE := by
  unfold fetch
  split
  · exact limit i
  · dsimp only
    split
    · exact limit i
    · refine set_box_limit m id _ ?_ limit i
      exact limit id

theorem collect_limit (id : Nat) (a : RecvArgs) (limit : ∀ i, (m.box i).limit ≤ IN_MAX_RSPACE) (i : Nat) :
    ((collect m id a).2.box i).limit ≤ IN_MAX_RSPACE := by
  unfold collect
  cases recvStopped (m.settings id) with
  | some p => exact set_sock_limit m id _ limit i
  | none =>
      dsimp only
      cases refused a with
      | some r => exact set_sock_limit m id _ limit i
      | none => exact fetch_limit _ id a (set_sock_limit m id _ limit) i

theorem wake_limit (id : Nat) (a : RecvArgs) (interrupted : Bool) (limit : ∀ i, (m.box i).limit ≤ IN_MAX_RSPACE) (i : Nat) :
    ((wake m id a interrupted).2.box i).limit ≤ IN_MAX_RSPACE := by
  unfold wake
  cases wokenBy (m.settings id) interrupted with
  | some p => exact set_sock_limit m id _ limit i
  | none => exact fetch_limit m id a limit i

theorem rcvbuf_within (val : Int) : rcvbufSize val ≤ IN_MAX_RSPACE := by
  unfold rcvbufSize IN_MAX_RSPACE IN_MIN_RSPACE
  split
  · exact le_refl _
  · split <;> omega

theorem close_shut_limit (id : Nat) (how : Int) (port : Tcp.InPort) (limit : ∀ i, (m.box i).limit ≤ IN_MAX_RSPACE) (i : Nat) :
    ((closeShut m id how port).box i).limit ≤ IN_MAX_RSPACE := by
  have bound := set_sock_limit m id (autobind (shut (m.settings id) how) port) limit i
  unfold closeShut
  dsimp only
  split
  · exact (close_letters _ id i).2.1.le.trans bound
  · exact bound

theorem serve_limit (op : Op) (kept : Kept m) (i : Nat) : ((serve m op).2.box i).limit ≤ IN_MAX_RSPACE := by
  cases op with
  | attach proto protonum => exact (open_letters m proto protonum kept i).2
  | bind id addr port => exact set_sock_limit m id _ kept.limit i
  | connect id args => exact set_sock_limit m id _ kept.limit i
  | rcvbuf id val =>
      exact set_box_limit m id { m.box id with limit := rcvbufSize val } (rcvbuf_within val) kept.limit i
  | send id addr addrlen port sent => exact set_sock_limit m id _ kept.limit i
  | shutdown id how port => exact close_shut_limit m id how port kept.limit i
  | release id => exact (close_letters m id i).2.1.le.trans (kept.limit i)
  | recv id a => exact collect_limit m id a kept.limit i
  | woken id a interrupted => exact wake_limit m id a interrupted kept.limit i
  | select id => exact kept.limit i
  | fionread id => exact kept.limit i
  | input env letter =>
      refine le_of_eq_of_le ?_ (kept.limit i)
      change ((m.post letter (receivers env m letter)).box i).limit = _
      unfold Mail.post
      dsimp only
      split <;> rfl
  | error packet errno =>
      change (((concerned m packet).elim m fun id => m.setSock id (setErr (m.settings id) errno)).box i).limit ≤ _
      cases concerned m packet with
      | none => exact kept.limit i
      | some id => exact set_sock_limit m id _ kept.limit i

-- The number of boxes only grows, and a box is for one protocol as long as it may have anything in it.
def Steady (m' : Mail) : Prop :=
  m.made ≤ m'.made ∧ ∀ i, (m'.box i).proto = (m.box i).proto ∨ (m'.box i).letters = []

theorem steady_lists (m' : Mail) (same : lists m' = lists m) : Steady m m' := by
  unfold lists at same
  simp only [Prod.mk.injEq] at same
  exact ⟨same.1.ge, fun i => Or.inl (congrFun same.2.2.2 i)⟩

theorem close_steady (m1 : Mail) (id : Nat) (same : lists m1 = lists m) : Steady m (close m1 id) := by
  have made : (close m1 id).made = m1.made := by
    unfold close
    cases (m1.box id).proto <;> rfl
  obtain ⟨grown, protos⟩ := steady_lists m m1 same
  unfold lists at same
  simp only [Prod.mk.injEq] at same
  exact ⟨made.ge.trans' grown, fun i => Or.inl ((close_letters m1 id i).2.2.trans (congrFun same.2.2.2 i))⟩

theorem serve_steady (op : Op) (kept : Kept m) : Steady m (serve m op).2 := by
  cases op with
  | attach proto protonum =>
      have made : (open' m proto protonum).made = m.made + 1 := by
        unfold open'
        cases proto <;> rfl
      refine ⟨made.ge.trans' (Nat.le_succ _), fun i => ?_⟩
      by_cases old : i < m.made
      · exact Or.inl (congrArg (fun b : Box => b.proto) ((open_protos m proto protonum).2 i old))
      · exact Or.inr ((open_letters m proto protonum kept i).1.trans (kept.unopened i (Nat.le_of_not_lt old)))
  | bind id addr port => exact steady_lists m _ (set_box_lists m id _ (bind_proto ..))
  | connect id args => exact steady_lists m _ (set_box_lists m id _ (connect_proto ..))
  | rcvbuf id val => exact steady_lists m _ (set_box_lists m id _ rfl)
  | send id addr addrlen port sent => exact steady_lists m _ (set_box_lists m id _ (send_proto ..))
  | shutdown id how port =>
      have proto := (autobind_proto (shut (m.settings id) how) port).trans (shut_proto (m.settings id) how)
      have bound := set_box_lists m id { m.box id with toSock := autobind (shut (m.settings id) how) port } proto
      change Steady m (closeShut m id how port)
      unfold closeShut
      dsimp only
      split
      · exact close_steady m _ id bound
      · exact steady_lists m _ bound
  | release id => exact close_steady m m id rfl
  | recv id a => exact steady_lists m _ (collect_lists m id a)
  | woken id a interrupted => exact steady_lists m _ (wake_lists m id a interrupted)
  | select id => exact steady_lists m _ rfl
  | fionread id => exact steady_lists m _ rfl
  | input env letter => exact steady_lists m _ (post_lists m letter _)
  | error packet errno =>
      change Steady m ((concerned m packet).elim m fun id => m.setSock id (setErr (m.settings id) errno))
      cases concerned m packet with
      | none => exact steady_lists m _ rfl
      | some id => exact steady_lists m _ (set_box_lists m id _ rfl)

theorem mail_sound (op : Op) (sound : Sound m) : Sound (mailStep m op).2 := by
  unfold mailStep
  split
  · exact serve_sound m op sound
  · exact sound

theorem mail_kept (op : Op) (sound : Sound m) (kept : Kept m) : Kept (mailStep m op).2 := by
  have steady : Steady m (mailStep m op).2 := by
    unfold mailStep
    split
    · exact serve_steady m op kept
    · exact steady_lists m m rfl
  have order := mail_order m op kept
  have live : ∀ i ∈ m.udp ++ m.raw, i < m.made := by
    intro i there
    rcases List.mem_append.mp there with udp | raw
    · exact (sound.udp i udp).1
    · exact (sound.raw i raw).1
  refine ⟨fun i beyond => ?_, ?_, fun i => ?_⟩
  · have before := kept.unopened i (steady.1.trans beyond)
    have nothing' : posted m op i = [] := by
      by_contra some'
      obtain ⟨letter, -, there, -⟩ := posted_accept m op i some'
      exact absurd (live i there) (Nat.not_lt.mpr (steady.1.trans beyond))
    have both := order i
    rw [before, nothing'] at both
    exact (List.append_eq_nil_iff.mp both.symm).2
  · unfold mailStep
    split
    · exact serve_limit m op kept
    · exact kept.limit
  · have whole' := congrArg (fun l => (l.map (size (m.box i).proto)).sum) (order i)
    simp only [List.map_append, List.sum_append] at whole'
    have within := kept.weight i
    have room : (((m.box i).weight + ((posted m op i).map (size (m.box i).proto)).sum : Nat) : Int) ≤ IN_MAX_RSPACE := by
      by_cases none' : posted m op i = []
      · rw [none']
        simpa using within
      · obtain ⟨letter, single, -, accepts⟩ := posted_accept m op i none'
        unfold Box.accepts at accepts
        rw [Bool.and_eq_true, decide_eq_true_eq] at accepts
        have limit := kept.limit i
        have fits := accepts.1
        rw [single, List.map_singleton, List.sum_singleton]
        omega
    rcases steady.2 i with proto | empty
    · unfold Box.weight at *
      rw [proto]
      omega
    · unfold Box.weight
      rw [empty]
      change (0 : Int) ≤ IN_MAX_RSPACE
      decide

theorem run_order (ops : List Op) : ∀ m : Mail, Sound m → Kept m → Kept (mailRun m ops).2 ∧ ∀ id,
    (m.box id).letters ++ overRun posted m id ops = overRun taken m id ops ++ ((mailRun m ops).2.box id).letters := by
  induction ops with
  | nil => exact fun m _ kept => ⟨kept, fun id => List.append_nil _⟩
  | cons op rest ih =>
      intro m sound kept
      obtain ⟨later, order⟩ := ih (mailStep m op).2 (mail_sound m op sound) (mail_kept m op sound kept)
      refine ⟨later, fun id => ?_⟩
      calc (m.box id).letters ++ overRun posted m id (op :: rest)
          = ((m.box id).letters ++ posted m op id) ++ overRun posted (mailStep m op).2 id rest := (List.append_assoc ..).symm
        _ = taken m op id ++ (((mailStep m op).2.box id).letters ++ overRun posted (mailStep m op).2 id rest) := by
            rw [mail_order m op kept id, List.append_assoc]
        _ = overRun taken m id (op :: rest) ++ ((mailRun m (op :: rest)).2.box id).letters := by
            rw [order id, ← List.append_assoc]
            rfl

end Order

theorem init_kept : Kept Mail.init := by
  refine ⟨fun _ _ => rfl, fun _ => ?_, fun _ => ?_⟩
  · change IN_DEFAULT_RSPACE ≤ IN_MAX_RSPACE
    decide
  · change (0 : Int) ≤ IN_MAX_RSPACE
    decide

end MagxNet.Udp
