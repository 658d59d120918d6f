import MagxNet.Ip.Arrivals

set_option autoImplicit false

namespace MagxNet.Ip

open Bytes

-- What happens to the lists: a datagram comes in, or the timer of a slot fires. link3 is where that field of
-- the first fragment leads to once icmp_send is back.
inductive FragEvent where
  | arrival (oracle : Oracle) (buf : IpBuf)
  | expiry (i : Fin IPFRAG_HEADS) (link3 : List IpBuf)

-- A timer that fires is not pending any more.
def disarm (frag : Fragment) : Fragment := { frag with tmout := false }

def fragStep (frags : FragTable) (net : IpNet) : FragEvent → Outcome (Option IpBuf × FragTable × IpNet)
  | .arrival oracle buf => ipDefrag oracle frags net buf
  | .expiry i link3 =>
      if (frags i).tmout then
        let done := fragTimeout net (disarm (frags i)) link3
        .ret (none, Function.update frags i done.1, done.2)
      else .ret (none, frags, net)

-- The IP header is no longer than the datagram says it is itself.
def HeaderFits (iph : Buffer) : Prop := ipHdrlen iph ≤ (iphLength iph).toNat

theorem datalen_nonneg (iph : Buffer) (fits : HeaderFits iph) : 0 ≤ datalen iph := by
  unfold HeaderFits at fits
  unfold datalen
  omega

def Stored (frags : FragTable) : Prop := ∀ i, ∀ b ∈ (frags i).buf, HeaderFits b.bytes

def Vacant (frag : Fragment) : Prop := frag.buf = [] ∧ frag.tmout = false

-- Each of the buffers is dereferenced once, and nothing else is released.
def Released (net net' : IpNet) (bufs : List Nat) : Prop :=
  ∃ d : List Nat, d.Perm bufs ∧ net'.released = net.released ++ d.map .deref

-- The count says that the datagram is there.
def Fragment.complete (frag : Fragment) : Prop := ¬ (frag.totlen = 0 ∨ frag.totlen ≠ frag.curlen)

instance (frag : Fragment) : Decidable frag.complete := inferInstanceAs (Decidable (¬ _))

-- The buffer that frag_pullup asks for.
def pullupBuf (oracle : Oracle) (net : IpNet) (frag : Fragment) : Option IpBuf :=
  match frag.buf with
  | [] => none
  | first :: _ => (bufAlloc oracle net (BitVec.ofInt 32 (ipHdrlen first.bytes + frag.totlen))).1

def Fragment.names (frag : Fragment) : List Nat := frag.buf.map (·.id)

-- The buffers that a step takes in: what arrives, and what is allocated for it.
def taken (frags : FragTable) (net : IpNet) : FragEvent → List Nat
  | .arrival oracle buf =>
      if iphFragoff buf.bytes &&& (IP_MF ||| IP_FRAGOFF) = 0 then [buf.id]
      else match slotOf frags buf.bytes with
        | .found i =>
            let done := fragInsert net (frags i) buf
            buf.id :: if done.1.complete then (pullupBuf oracle done.2 done.1).toList.map (·.id) else []
        | _ => [buf.id]
  | .expiry _ _ => []

def Release.name : Release → Nat
  | .deref id => id
  | .icmp _ _ _ id => id

def held (frags : FragTable) : List Nat := (List.finRange IPFRAG_HEADS).flatMap fun i => (frags i).names

-- Of all the buffers taken in, each is held in one list, has been released once, or has been passed on.
def Balanced (frags : FragTable) (net : IpNet) (intake passed : List Nat) : Prop :=
  intake.Perm (held frags ++ (net.released.map Release.name ++ passed))

-- When ip_defrag gives up on a datagram or its timer fires, all its buffers are released and its slot is free.
def GivesBack (frags : FragTable) (net : IpNet) (out : Option IpBuf) (frags' : FragTable) (net' : IpNet) : FragEvent → Prop
  | .arrival oracle buf => ∀ i, iphFragoff buf.bytes &&& (IP_MF ||| IP_FRAGOFF) ≠ 0 →
      slotOf frags buf.bytes = .found i → (fragInsert net (frags i) buf).1.complete → out = none →
        Vacant (frags' i) ∧ Released net net' ((frags i).names ++ [buf.id]
          ++ (pullupBuf oracle (fragInsert net (frags i) buf).2 (fragInsert net (frags i) buf).1).toList.map (·.id))
  | .expiry i _ => ∀ first rest, (frags i).tmout → (frags i).buf = first :: rest →
      Vacant (frags' i) ∧ Released (icmpSend net ICMPT_TIMEX ICMPC_FRAGEX (frags i).saddr first) net' (rest.map (·.id))

-- The fragments lie side by side from offset on.
def Abuts : Int → List IpBuf → Prop
  | _, [] => True
  | offset, b :: rest => offset = fragOffset b.bytes * 8 ∧ Abuts (offset + datalen b.bytes) rest

-- No fragment with a header beyond its end gets into a list; the fragments of a list that is complete by its
-- count abut, unless there is no memory for it; and icmp_send leaves the link of the fragment it is given alone.
def Careful (frags : FragTable) (net : IpNet) : FragEvent → Prop
  | .arrival oracle buf => iphFragoff buf.bytes &&& (IP_MF ||| IP_FRAGOFF) ≠ 0 →
      match slotOf frags buf.bytes with
      | .found i => (fragLink buf (frags i).buf ≠ none → HeaderFits buf.bytes)
          ∧ ((fragInsert net (frags i) buf).1.complete →
            pullupBuf oracle (fragInsert net (frags i) buf).2 (fragInsert net (frags i) buf).1 ≠ none →
            Abuts 0 (fragInsert net (frags i) buf).1.buf)
      | .free _ => HeaderFits buf.bytes
      | .full => True
  | .expiry i link3 => (frags i).tmout → link3 = (frags i).buf.tail

-- Runs of the reassembly, with the buffers that it has taken in and passed on so far.
inductive FragRuns (allowed : FragTable → IpNet → FragEvent → Prop) : FragTable → IpNet → List Nat → List Nat → Prop
  | start (net : IpNet) : net.released = [] → FragRuns allowed allfrags net [] []
  | step (frags frags' : FragTable) (net net' : IpNet) (intake passed : List Nat) (e : FragEvent) (out : Option IpBuf) :
      FragRuns allowed frags net intake passed → allowed frags net e → fragStep frags net e = .ret (out, frags', net') →
      FragRuns allowed frags' net' (intake ++ taken frags net e) (passed ++ out.toList.map (·.id))

theorem deref_all_released (net : IpNet) (bufs : List IpBuf) :
    (derefAll net bufs).released = net.released ++ (bufs.map (·.id)).map .deref := by
  induction bufs generalizing net with
  | nil => exact (List.append_nil _).symm
  | cons b rest ih =>
      have later := ih (bufDeref net b)
      rw [derefAll, List.foldl_cons]
      rw [derefAll] at later
      rw [later, bufDeref, List.append_assoc]
      rfl

theorem frag_link_perm (buf : IpBuf) (chain chain' : List IpBuf) (last : Bool)
    (linked : fragLink buf chain = some (chain', last)) : chain'.Perm (buf :: chain) := by
  induction chain generalizing chain' last with
  | nil =>
      cases linked
      exact List.Perm.refl _
  | cons curr rest ih =>
      rw [fragLink] at linked
      split at linked
      · cases linked
        exact List.Perm.refl _
      · split at linked
        · cases linked
        · cases further : fragLink buf rest with
          | none =>
              rw [further] at linked
              cases linked
          | some result =>
              obtain ⟨tail, atEnd⟩ := result
              rw [further] at linked
              obtain ⟨rfl, -⟩ := Prod.mk.inj (Option.some.inj linked)
              exact ((ih tail atEnd further).cons curr).trans (List.Perm.swap buf curr rest)

-- Inserting a fragment keeps it, or drops it as a duplicate.
theorem frag_insert_names (net : IpNet) (frag : Fragment) (buf : IpBuf) :
    ∃ dropped : List Nat, (fragInsert net frag buf).2.released = net.released ++ dropped.map .deref
      ∧ (dropped ++ (fragInsert net frag buf).1.names).Perm (frag.names ++ [buf.id]) := by
  unfold fragInsert
  cases linked : fragLink buf frag.buf with
  | none => exact ⟨[buf.id], rfl, List.perm_append_comm⟩
  | some result =>
      obtain ⟨chain, last⟩ := result
      refine ⟨[], (List.append_nil _).symm, ?_⟩
      have kept := (frag_link_perm buf frag.buf chain last linked).map (·.id)
      exact kept.trans (List.perm_append_singleton buf.id frag.names).symm

theorem frag_insert_fits (net : IpNet) (frag : Fragment) (buf : IpBuf) (fits : ∀ b ∈ frag.buf, HeaderFits b.bytes)
    (new : fragLink buf frag.buf ≠ none → HeaderFits buf.bytes) :
    ∀ b ∈ (fragInsert net frag buf).1.buf, HeaderFits b.bytes := by
  unfold fragInsert
  cases linked : fragLink buf frag.buf with
  | none => exact fits
  | some result =>
      obtain ⟨chain, last⟩ := result
      intro b member
      obtain rfl | old := (frag_link_mem buf frag.buf chain last linked b).mp member
      · exact new (by rw [linked]; exact Option.some_ne_none _)
      · exact fits b old

-- Fragments that abut are all copied, and released one after the other.
theorem frag_copy_abuts (chain : List IpBuf) (bytes : Buffer) (offset : Int) (net : IpNet)
    (fits : ∀ b ∈ chain, HeaderFits b.bytes) (abuts : Abuts offset chain) :
    ∃ copied net', fragCopy bytes offset net chain = .ret (some copied, [], net')
      ∧ net'.released = net.released ++ (chain.map (·.id)).map .deref := by
  induction chain generalizing bytes offset net with
  | nil => exact ⟨_, _, rfl, (List.append_nil _).symm⟩
  | cons b rest ih =>
      obtain ⟨here, later⟩ := abuts
      have whole := datalen_nonneg b.bytes (fits b (List.mem_cons_self ..))
      rw [← Int.toNat_of_nonneg whole] at later
      rw [fragCopy, if_neg (not_not.mpr here), if_neg (not_lt.mpr whole)]
      obtain ⟨copied, net', done, released⟩ := ih _ _ (bufDeref net b)
        (fun c member => fits c (List.mem_cons_of_mem _ member)) later
      refine ⟨copied, net', done, ?_⟩
      rw [released, bufDeref, List.append_assoc]
      rfl

theorem buf_alloc_released (oracle : Oracle) (net : IpNet) (size : BitVec 32) :
    (bufAlloc oracle net size).2.released = net.released := by
  unfold bufAlloc
  split
  · rfl
  · split <;> rfl

-- What frag_pullup comes to: it waits for more, or the list is gone and the buffer, if there is one, passed on.
structure Pulled (oracle : Oracle) (net : IpNet) (frag : Fragment) (out : Option IpBuf) (frag' : Fragment) (net' : IpNet) :
    Prop where
  waits : ¬ frag.complete → out = none ∧ frag' = frag ∧ net' = net
  ends : frag.complete → Vacant frag' ∧ net'.released = net.released ++ frag.names.map .deref
    ∧ out.map (·.id) = (pullupBuf oracle net frag).map (·.id)

theorem pullup_pulled (oracle : Oracle) (net : IpNet) (frag : Fragment) (busy : frag.buf ≠ [])
    (fits : ∀ b ∈ frag.buf, HeaderFits b.bytes)
    (abuts : frag.complete → pullupBuf oracle net frag ≠ none → Abuts 0 frag.buf) :
    ∃ out frag' net', fragPullup oracle net frag = .ret (out, frag', net') ∧ Pulled oracle net frag out frag' net' := by
  unfold fragPullup
  by_cases waits : frag.totlen = 0 ∨ frag.totlen ≠ frag.curlen
  · rw [if_pos waits]
    exact ⟨_, _, _, rfl, fun _ => ⟨rfl, rfl, rfl⟩, fun complete => (complete waits).elim⟩
  · rw [if_neg waits]
    cases chain : frag.buf with
    | nil => exact (busy chain).elim
    | cons first rest =>
        dsimp only
        have asked : pullupBuf oracle net frag
            = (bufAlloc oracle net (BitVec.ofInt 32 (ipHdrlen first.bytes + frag.totlen))).1 := by
          rw [pullupBuf, chain]
        have quiet := buf_alloc_released oracle net (BitVec.ofInt 32 (ipHdrlen first.bytes + frag.totlen))
        cases got : bufAlloc oracle net (BitVec.ofInt 32 (ipHdrlen first.bytes + frag.totlen)) with
        | mk nbuf net1 =>
            rw [got] at asked quiet
            cases nbuf with
            | none =>
                refine ⟨_, _, _, rfl, fun early => (early waits).elim, fun _ => ⟨⟨rfl, rfl⟩, ?_, by rw [asked]⟩⟩
                rw [fragDelete, deref_all_released, quiet]
                rfl
            | some nbuf =>
                have lie := abuts waits (by rw [asked]; exact Option.some_ne_none _)
                obtain ⟨⟨bytes, offset⟩, net2, copied, released⟩ :=
                  frag_copy_abuts frag.buf (copyBytes first.bytes 0 (ipHdrlen first.bytes)) 0 net1 fits lie
                rw [chain] at copied
                rw [quiet] at released
                refine ⟨some { nbuf with bytes := setFragoff (setLength bytes offset.toNat) 0 },
                  { frag with buf := [], tmout := false }, net2, ?_, fun early => (early waits).elim, fun _ => ?_⟩
                · dsimp only
                  rw [copied]
                  rfl
                · exact ⟨⟨rfl, rfl⟩, released, by rw [asked]; rfl⟩

theorem stored_update (frags : FragTable) (i : Fin IPFRAG_HEADS) (frag : Fragment) (stored : Stored frags)
    (fits : ∀ b ∈ frag.buf, HeaderFits b.bytes) : Stored (Function.update frags i frag) := by
  intro j
  by_cases here : j = i
  · rw [here, Function.update_self]
    exact fits
  · rw [Function.update_of_ne here]
    exact stored j

theorem perm_ends {α : Type} (a b c : List α) : (a ++ b ++ c).Perm (c ++ b ++ a) := by
  have back : (a ++ b ++ c).Perm (c ++ (a ++ b)) := List.perm_append_comm
  rw [List.append_assoc c b a]
  exact back.trans (List.perm_append_comm.append_left c)

-- One of the lists that are strung together is exchanged.
theorem flat_map_change {ι α : Type} (l : List ι) (i : ι) (g g' : ι → List α) (once : l.Nodup) (member : i ∈ l)
    (same : ∀ j, j ≠ i → g' j = g j) : (l.flatMap g' ++ g i).Perm (l.flatMap g ++ g' i) := by
  induction l with
  | nil => cases member
  | cons j rest ih =>
      obtain ⟨absent, once⟩ := List.nodup_cons.mp once
      rw [List.flatMap_cons, List.flatMap_cons]
      by_cases here : j = i
      · have others : rest.flatMap g' = rest.flatMap g :=
          List.flatMap_congr fun k inside => same k fun again => absent (by rw [here, ← again]; exact inside)
        rw [here, others]
        exact perm_ends _ _ _
      · have later := ih once ((List.mem_cons.mp member).resolve_left (Ne.symm here))
        rw [same j here, List.append_assoc, List.append_assoc]
        exact later.append_left (g j)

theorem held_update (frags : FragTable) (i : Fin IPFRAG_HEADS) (frag : Fragment) :
    (held (Function.update frags i frag) ++ (frags i).names).Perm (held frags ++ frag.names) := by
  have changed := flat_map_change (List.finRange IPFRAG_HEADS) i (fun j => (frags j).names)
    (fun j => (Function.update frags i frag j).names) (List.nodup_finRange _) (List.mem_finRange i)
    (fun j other => by rw [Function.update_of_ne other])
  rwa [Function.update_self] at changed

-- The buffers before a step and those it takes in are the ones behind it.
def Evens (frags : FragTable) (net : IpNet) (fresh : List Nat) (out : Option IpBuf) (frags' : FragTable) (net' : IpNet) : Prop :=
  (held frags ++ (net.released.map Release.name ++ fresh)).Perm
    (held frags' ++ (net'.released.map Release.name ++ out.toList.map (·.id)))

theorem released_names (net net' : IpNet) (d : List Nat) (released : net'.released = net.released ++ d.map .deref) :
    net'.released.map Release.name = net.released.map Release.name ++ d := by
  rw [released, List.map_append, List.map_map]
  congr 1
  exact (List.map_congr_left fun _ _ => rfl).trans (List.map_id d)

-- It is enough to look at the slot that changes.
theorem evens_slot (frags : FragTable) (net net' : IpNet) (i : Fin IPFRAG_HEADS) (frag : Fragment) (out : Option IpBuf)
    (fresh d : List Nat) (released : net'.released.map Release.name = net.released.map Release.name ++ d)
    (slot : ((frags i).names ++ fresh).Perm (frag.names ++ (d ++ out.toList.map (·.id)))) :
    Evens frags net fresh out (Function.update frags i frag) net' := by
  have table := held_update frags i frag
  unfold Evens
  rw [released]
  rw [List.perm_iff_count] at table slot ⊢
  intro n
  have here := table n
  have there := slot n
  simp only [List.count_append] at here there ⊢
  omega

structure StepOk (frags : FragTable) (net : IpNet) (e : FragEvent) (out : Option IpBuf) (frags' : FragTable) (net' : IpNet) :
    Prop where
  stored : Stored frags'
  gives : GivesBack frags net out frags' net' e
  evens : Evens frags net (taken frags net e) out frags' net'

-- A fragment for a list that is there.
theorem found_ok (frags : FragTable) (net : IpNet) (oracle : Oracle) (buf : IpBuf) (i : Fin IPFRAG_HEADS)
    (part : iphFragoff buf.bytes &&& (IP_MF ||| IP_FRAGOFF) ≠ 0) (slot : slotOf frags buf.bytes = .found i)
    (stored : Stored frags) (new : fragLink buf (frags i).buf ≠ none → HeaderFits buf.bytes)
    (out : Option IpBuf) (frag' : Fragment) (net' : IpNet)
    (pulled : Pulled oracle (fragInsert net (frags i) buf).2 (fragInsert net (frags i) buf).1 out frag' net') :
    StepOk frags net (.arrival oracle buf) out (Function.update frags i frag') net' := by
  have fits := frag_insert_fits net (frags i) buf (stored i) new
  obtain ⟨dropped, quiet, kept⟩ := frag_insert_names net (frags i) buf
  have took : taken frags net (.arrival oracle buf) = buf.id :: if (fragInsert net (frags i) buf).1.complete then
      (pullupBuf oracle (fragInsert net (frags i) buf).2 (fragInsert net (frags i) buf).1).toList.map (·.id) else [] := by
    rw [taken, if_neg part, slot]
  by_cases complete : (fragInsert net (frags i) buf).1.complete
  · obtain ⟨vacant, released, passed⟩ := pulled.ends complete
    rw [if_pos complete] at took
    have all : net'.released = net.released ++ (dropped ++ (fragInsert net (frags i) buf).1.names).map .deref := by
      rw [released, quiet, List.map_append, List.append_assoc]
    have same : out.toList.map (·.id)
        = (pullupBuf oracle (fragInsert net (frags i) buf).2 (fragInsert net (frags i) buf).1).toList.map (·.id) := by
      rw [← Option.toList_map, passed, Option.toList_map]
    refine ⟨stored_update frags i frag' stored fun b member => ?_, ?_, ?_⟩
    · rw [vacant.1] at member
      cases member
    · intro j _ found _ none
      obtain rfl := Slot.found.inj (slot.symm.trans found)
      rw [Function.update_self, ← same, none]
      refine ⟨vacant, _, ?_, all⟩
      rw [Option.toList_none, List.map_nil, List.append_nil]
      exact kept
    · rw [took, ← same]
      refine evens_slot frags net net' i frag' out _ _ (released_names net net' _ all) ?_
      have empty : frag'.names = [] := by rw [Fragment.names, vacant.1, List.map_nil]
      rw [empty, List.nil_append, ← List.singleton_append, ← List.append_assoc]
      exact kept.symm.append_right _
  · obtain ⟨rfl, rfl, rfl⟩ := pulled.waits complete
    rw [if_neg complete] at took
    refine ⟨stored_update frags i _ stored fits, ?_, ?_⟩
    · intro j _ found ends
      obtain rfl := Slot.found.inj (slot.symm.trans found)
      exact (complete ends).elim
    · rw [took]
      refine evens_slot frags net _ i _ none _ _ (released_names net _ _ quiet) ?_
      rw [Option.toList_none, List.map_nil, List.append_nil]
      exact kept.symm.trans List.perm_append_comm

theorem arrival_ok (frags : FragTable) (net : IpNet) (oracle : Oracle) (buf : IpBuf) (stored : Stored frags)
    (careful : Careful frags net (.arrival oracle buf)) :
    ∃ out frags' net', ipDefrag oracle frags net buf = .ret (out, frags', net')
      ∧ StepOk frags net (.arrival oracle buf) out frags' net' := by
  unfold ipDefrag
  by_cases whole : iphFragoff buf.bytes &&& (IP_MF ||| IP_FRAGOFF) = 0
  · rw [if_pos whole]
    refine ⟨_, _, _, rfl, stored, fun i part => (part whole).elim, ?_⟩
    rw [taken, if_pos whole]
    exact List.Perm.refl _
  · have careful := careful whole
    rw [if_neg whole]
    cases slot : slotOf frags buf.bytes with
    | found i =>
        rw [slot] at careful
        obtain ⟨new, abuts⟩ := careful
        have fits := frag_insert_fits net (frags i) buf (stored i) new
        have busy := (frag_insert_spec net (frags i) buf).busy
        obtain ⟨out, frag', net', pull, pulled⟩ := pullup_pulled oracle _ _ busy fits abuts
        refine ⟨out, Function.update frags i frag', net', ?_, found_ok frags net oracle buf i whole slot stored new out frag' net' pulled⟩
        dsimp only
        rw [pull]
        rfl
    | free i =>
        rw [slot] at careful
        have empty := (slot_of_free frags buf.bytes i slot).1
        have took : taken frags net (.arrival oracle buf) = [buf.id] := by rw [taken, if_neg whole, slot]
        refine ⟨_, _, _, rfl, stored_update frags i _ stored fun b member => ?_, fun j _ found => ?_, ?_⟩
        · rw [List.mem_singleton.mp member]
          exact careful
        · rw [slot] at found
          cases found
        · rw [took]
          refine evens_slot frags net _ i _ none _ [] (List.append_nil _).symm ?_
          rw [Fragment.names, empty]
          exact List.Perm.refl _
    | full =>
        have took : taken frags net (.arrival oracle buf) = [buf.id] := by rw [taken, if_neg whole, slot]
        refine ⟨_, _, _, rfl, stored, fun j _ found => ?_, ?_⟩
        · rw [slot] at found
          cases found
        · rw [took, Evens, released_names net (bufDeref net buf) [buf.id] rfl, Option.toList_none, List.map_nil,
            List.append_nil]

theorem frag_timeout_fired (net : IpNet) (frag : Fragment) (link3 : List IpBuf) (first : IpBuf) (rest : List IpBuf)
    (chain : frag.buf = first :: rest) : fragTimeout net frag link3
      = fragDelete (icmpSend net ICMPT_TIMEX ICMPC_FRAGEX frag.saddr first) { frag with buf := link3 } := by
  rw [fragTimeout, chain]

theorem expiry_ok (frags : FragTable) (net : IpNet) (i : Fin IPFRAG_HEADS) (link3 : List IpBuf) (stored : Stored frags)
    (careful : Careful frags net (.expiry i link3)) :
    ∃ out frags' net', fragStep frags net (.expiry i link3) = .ret (out, frags', net')
      ∧ StepOk frags net (.expiry i link3) out frags' net' := by
  unfold fragStep
  by_cases fires : (frags i).tmout
  · dsimp only
    rw [if_pos fires]
    refine ⟨_, _, _, rfl, ?_⟩
    cases chain : (frags i).buf with
    | nil =>
        have idle : fragTimeout net (disarm (frags i)) link3 = (disarm (frags i), net) := by
          rw [fragTimeout, show (disarm (frags i)).buf = [] from chain]
        rw [idle]
        refine ⟨stored_update frags i _ stored (stored i), fun first rest _ busy => ?_, ?_⟩
        · rw [chain] at busy
          cases busy
        · refine evens_slot frags net net i _ none _ [] (List.append_nil _).symm ?_
          rw [taken, Option.toList_none, List.map_nil]
          exact List.Perm.refl _
    | cons first rest =>
        have left : link3 = rest := by rw [careful fires, chain, List.tail_cons]
        have gone : ∀ x : IpNet, (derefAll x rest).released = x.released ++ (rest.map (·.id)).map .deref :=
          fun x => deref_all_released x rest
        rw [frag_timeout_fired net (disarm (frags i)) link3 first rest chain, left]
        refine ⟨stored_update frags i _ stored (fun b member => by cases member), ?_, ?_⟩
        · intro head tail _ busy
          obtain ⟨rfl, rfl⟩ := List.cons.inj (chain.symm.trans busy)
          rw [Function.update_self]
          exact ⟨⟨rfl, rfl⟩, _, List.Perm.refl _, gone (icmpSend net ICMPT_TIMEX ICMPC_FRAGEX (frags i).saddr first)⟩
        · refine evens_slot frags net _ i _ none _ (first.id :: rest.map (·.id)) ?_ ?_
          · have all := released_names _ _ _ (gone (icmpSend net ICMPT_TIMEX ICMPC_FRAGEX (frags i).saddr first))
            refine all.trans ?_
            rw [icmpSend, List.map_append, List.append_assoc]
            rfl
          · rw [Fragment.names, chain, taken, Option.toList_none]
            simp [Fragment.names, fragDelete]
  · dsimp only
    rw [if_neg fires]
    refine ⟨_, _, _, rfl, stored, fun first rest fired => (fires fired).elim, ?_⟩
    rw [taken]
    exact List.Perm.refl _

theorem careful_step (frags : FragTable) (net : IpNet) (e : FragEvent) (stored : Stored frags) (careful : Careful frags net e) :
    ∃ out frags' net', fragStep frags net e = .ret (out, frags', net') ∧ StepOk frags net e out frags' net' := by
  cases e with
  | arrival oracle buf => exact arrival_ok frags net oracle buf stored careful
  | expiry i link3 => exact expiry_ok frags net i link3 stored careful

theorem balanced_step (frags frags' : FragTable) (net net' : IpNet) (intake passed fresh : List Nat) (out : Option IpBuf)
    (balanced : Balanced frags net intake passed) (evens : Evens frags net fresh out frags' net') :
    Balanced frags' net' (intake ++ fresh) (passed ++ out.toList.map (·.id)) := by
  unfold Balanced Evens at *
  rw [List.perm_iff_count] at balanced evens ⊢
  intro n
  have before := balanced n
  have step := evens n
  simp only [List.count_append] at before step ⊢
  omega

-- What the reassembly owes at every moment of a run: no header is longer than its fragment, no buffer is lost or
-- released twice, and the next step copies nothing of a negative length and gives back all that it gives up.
structure Accounts (allowed : FragTable → IpNet → FragEvent → Prop) (frags : FragTable) (net : IpNet)
    (intake passed : List Nat) : Prop where
  stored : Stored frags
  balanced : Balanced frags net intake passed
  next : ∀ e, allowed frags net e →
    ∃ out frags' net', fragStep frags net e = .ret (out, frags', net') ∧ GivesBack frags net out frags' net' e

theorem frag_gives_back (frags : FragTable) (net : IpNet) (intake passed : List Nat)
    (runs : FragRuns Careful frags net intake passed) : Accounts Careful frags net intake passed := by
  have kept : Stored frags ∧ Balanced frags net intake passed := by
    induction runs with
    | start net fresh =>
        refine ⟨fun i b member => absurd member List.not_mem_nil, ?_⟩
        have empty : held allfrags = [] := by decide
        rw [Balanced, empty, fresh]
        exact List.Perm.refl _
    | step frags frags' net net' intake passed e out _ careful stepped ih =>
        obtain ⟨out2, frags2, net2, done, ok⟩ := careful_step frags net e ih.1 careful
        rw [stepped] at done
        cases done
        exact ⟨ok.stored, balanced_step frags frags' net net' intake passed _ out ih.2 ok.evens⟩
  refine ⟨kept.1, kept.2, fun e careful => ?_⟩
  obtain ⟨out, frags', net', done, ok⟩ := careful_step frags net e kept.1 careful
  exact ⟨out, frags', net', done, ok.gives⟩

def Oracle.starved : Oracle := ⟨fun _ => false, fun _ => 0⟩

-- The second half arrives, and there is no memory for the whole.
theorem frag_gives_back_half : Accounts Careful halfTable .init [0] []
    ∧ Careful halfTable .init (.arrival .starved secondHalf)
    ∧ ∃ frags' net', fragStep halfTable .init (.arrival .starved secondHalf) = .ret (none, frags', net')
      ∧ net'.released = [.deref 0, .deref 1] := by
  refine ⟨frag_gives_back halfTable .init [0] [] ?_, ?_, _, _, rfl, rfl⟩
  · refine .step allfrags halfTable .init .init [] [] (.arrival .willing firstHalf) none (.start .init rfl) ?_ half_run
    intro _
    show HeaderFits firstHalf.bytes
    unfold HeaderFits
    decide
  · intro _
    refine ⟨fun _ => ?_, fun _ granted => (granted rfl).elim⟩
    unfold HeaderFits
    decide

-- What can come in, and where icmp_send may leave the link: what is queued on an interface has it cleared.
def Occurs (frags : FragTable) (_ : IpNet) : FragEvent → Prop
  | .arrival _ buf => ipInputAccepts buf.bytes = true
  | .expiry i link3 => link3 = (frags i).buf.tail ∨ link3 = []

-- Behind firstHalf: 24 bytes from 16 on, and the last 8 bytes from 32 on.
def farPart : IpBuf :=
  ⟨1, [0x45, 0, 0, 44, 0, 7, 0x20, 2, 64, 17, 0x46, 0xb6, 10, 0, 0, 1, 10, 0, 0, 2] ++ List.replicate 24 0x62, 0⟩

def lastPart : IpBuf :=
  ⟨2, [0x45, 0, 0, 28, 0, 7, 0, 4, 64, 17, 0x66, 0xc4, 10, 0, 0, 1, 10, 0, 0, 2] ++ List.replicate 8 0x63, 0⟩

instance : NeZero IPFRAG_HEADS := ⟨by decide⟩

def overlapTable : FragTable := Function.update halfTable 15 ⟨[firstHalf, farPart], 7, 0x0a000001, 0, 32, true⟩

-- The count is right, the list is malformed, and the buffer for the datagram is lost.
theorem frag_leaks : ¬ ∀ frags net intake passed, FragRuns Occurs frags net intake passed →
    Accounts Occurs frags net intake passed := by
  intro all
  have first : ipInputAccepts firstHalf.bytes = true := by decide
  have far : ipInputAccepts farPart.bytes = true := by decide
  have last : ipInputAccepts lastPart.bytes = true := by decide
  have half : FragRuns Occurs halfTable .init [0] [] :=
    .step allfrags halfTable .init .init [] [] (.arrival .willing firstHalf) none (.start .init rfl) first half_run
  have two : FragRuns Occurs overlapTable .init [0, 1] [] :=
    .step halfTable overlapTable .init .init [0] [] (.arrival .willing farPart) none half far rfl
  obtain ⟨out, frags', net', done, gives⟩ := (all overlapTable .init [0, 1] [] two).next (.arrival .willing lastPart) last
  have none : out = none := by
    cases done
    rfl
  have three : net'.released = [.deref 0, .deref 1, .deref 2] := by
    cases done
    rfl
  obtain ⟨-, d, order, released⟩ := gives 15 (by decide) rfl (by decide) none
  have four := order.length_eq
  rw [three] at released
  have listed := congrArg List.length released
  rw [List.length_append, List.length_map, four] at listed
  cases listed

end MagxNet.Ip
