import MagxNet.Ip.Isolation
import MagxNet.Ip.ReassemblyRun

set_option autoImplicit false

namespace MagxNet.Ip

open Bytes

def HasKey (saddr : BitVec 32) (id : BitVec 16) (frag : Fragment) : Prop := frag.saddr = saddr ∧ frag.id = id

-- The table before the datagram's first fragment, or once it is done: no chain of its own.
def NoChain (saddr : BitVec 32) (id : BitVec 16) (frags : FragTable) : Prop :=
  ∀ i, (frags i).buf ≠ [] → ¬ HasKey saddr id (frags i)

-- The fragments of D arrive in any order, with duplicates as long as some are missing; got holds
-- those that have arrived. In between come fragments of other datagrams, and their chains time out.
-- A slot is free when the first of D arrives.
inductive Arrivals (saddr : BitVec 32) (id : BitVec 16) (D : List Buffer) : List Buffer → FragTable → Prop where
  | start (frags : FragTable) (none : NoChain saddr id frags) : Arrivals saddr id D [] frags
  | mine (got : List Buffer) (frags frags' : FragTable) (oracle : Oracle) (net net' : IpNet) (buf : IpBuf)
      (out : Option IpBuf) (before : Arrivals saddr id D got frags) (member : buf.bytes ∈ D)
      (missing : ∃ f ∈ D, f ∉ got) (slot : got = [] → ∃ i, (frags i).buf = [])
      (run : ipDefrag oracle frags net buf = .ret (out, frags', net')) : Arrivals saddr id D (buf.bytes :: got) frags'
  | other (got : List Buffer) (frags frags' : FragTable) (oracle : Oracle) (net net' : IpNet) (buf : IpBuf)
      (out : Option IpBuf) (before : Arrivals saddr id D got frags)
      (foreign : ¬ (iphSaddr buf.bytes = saddr ∧ iphId buf.bytes = id))
      (run : ipDefrag oracle frags net buf = .ret (out, frags', net')) : Arrivals saddr id D got frags'
  | timeout (got : List Buffer) (frags : FragTable) (net : IpNet) (i : Fin IPFRAG_HEADS) (link3 : List IpBuf)
      (before : Arrivals saddr id D got frags) (foreign : ¬ HasKey saddr id (frags i)) :
      Arrivals saddr id D got (Function.update frags i (fragTimeout net (frags i) link3).1)

-- While fragments are missing exactly one slot holds those that are there.
structure Collecting (saddr : BitVec 32) (id : BitVec 16) (P : Buffer) (D got : List Buffer) (frags : FragTable)
    (i : Fin IPFRAG_HEADS) : Prop where
  key : HasKey saddr id (frags i)
  busy : (frags i).buf ≠ []
  holding : Holding P D (fun f => decide (f ∈ got)) (frags i)
  others : ∀ j, j ≠ i → (frags j).buf ≠ [] → ¬ HasKey saddr id (frags j)

def Progress (saddr : BitVec 32) (id : BitVec 16) (P : Buffer) (D got : List Buffer) (frags : FragTable) : Prop :=
  ((got = [] ∨ ∀ f ∈ D, f ∈ got) ∧ NoChain saddr id frags) ∨ ∃ i, Collecting saddr id P D got frags i

theorem matches_key (saddr : BitVec 32) (id : BitVec 16) (iph : Buffer) (frag : Fragment)
    (mine : iphSaddr iph = saddr ∧ iphId iph = id) : Matches iph frag ↔ HasKey saddr id frag := by
  rw [Matches, HasKey, mine.1, mine.2]
  tauto

-- Datagrams that are no shorter than their header never make memcpy run away.
theorem ip_defrag_returns (oracle : Oracle) (frags : FragTable) (net : IpNet) (buf : IpBuf)
    (keeps : ∀ i, Keeps (fun iph => 0 ≤ datalen iph) (frags i)) (whole : 0 ≤ datalen buf.bytes) :
    ∃ result, ipDefrag oracle frags net buf = .ret result := by
  unfold ipDefrag
  by_cases flags : iphFragoff buf.bytes &&& (IP_MF ||| IP_FRAGOFF) = 0
  · exact ⟨_, if_pos flags⟩
  · rw [if_neg flags]
    cases slot : slotOf frags buf.bytes with
    | found i =>
        dsimp only
        have inserted := frag_insert_spec net (frags i) buf
        have kept := keeps_inserted _ _ _ _ (keeps i) whole (slot_of_found frags buf.bytes i slot).2 inserted
        generalize fragInsert net (frags i) buf = result at inserted kept ⊢
        obtain ⟨frag, after⟩ := result
        have pull : ∃ value, fragPullup oracle after frag = .ret value := by
          unfold fragPullup
          by_cases incomplete : frag.totlen = 0 ∨ frag.totlen ≠ frag.curlen
          · exact ⟨_, if_pos incomplete⟩
          · rw [if_neg incomplete]
            cases chain : frag.buf with
            | nil => exact absurd chain inserted.busy
            | cons first rest =>
                dsimp only
                generalize bufAlloc oracle after _ = result
                obtain ⟨granted, after'⟩ := result
                cases granted with
                | none => exact ⟨_, rfl⟩
                | some nbuf =>
                    obtain ⟨⟨copied, left, after''⟩, copy⟩ := frag_copy_ret (first :: rest)
                      (copyBytes first.bytes 0 (ipHdrlen first.bytes)) 0 after' fun b member =>
                        (kept b (by rw [chain]; exact member)).1
                    dsimp only
                    rw [copy]
                    cases copied <;> exact ⟨_, rfl⟩
        obtain ⟨⟨out, frag', after'⟩, pull⟩ := pull
        exact ⟨_, by rw [pull, Outcome.ret_bind]⟩
    | free i => exact ⟨_, rfl⟩
    | full => exact ⟨_, rfl⟩

-- Nothing that happens in the slots of other datagrams matters.
theorem progress_update (saddr : BitVec 32) (id : BitVec 16) (P : Buffer) (D got : List Buffer) (frags : FragTable)
    (i : Fin IPFRAG_HEADS) (frag : Fragment) (progress : Progress saddr id P D got frags)
    (foreign : (frags i).buf ≠ [] → ¬ HasKey saddr id (frags i)) (fresh : frag.buf ≠ [] → ¬ HasKey saddr id frag) :
    Progress saddr id P D got (Function.update frags i frag) := by
  have others : ∀ j, (j ≠ i → (frags j).buf ≠ [] → ¬ HasKey saddr id (frags j)) →
      (Function.update frags i frag j).buf ≠ [] → ¬ HasKey saddr id (Function.update frags i frag j) := by
    intro j old
    by_cases here : j = i
    · rw [here, Function.update_self]
      exact fresh
    · rw [Function.update_of_ne here]
      exact old here
  rcases progress with ⟨stage, none⟩ | ⟨k, collecting⟩
  · exact Or.inl ⟨stage, fun j => others j fun _ => none j⟩
  · have apart : k ≠ i := by
      rintro rfl
      exact foreign collecting.busy collecting.key
    refine Or.inr ⟨k, ?_, ?_, ?_, fun j different => others j fun _ => collecting.others j different⟩
    · rw [Function.update_of_ne apart]
      exact collecting.key
    · rw [Function.update_of_ne apart]
      exact collecting.busy
    · rw [Function.update_of_ne apart]
      exact collecting.holding

theorem progress_other (saddr : BitVec 32) (id : BitVec 16) (P : Buffer) (D got : List Buffer) (frags frags' : FragTable)
    (buf : IpBuf) (out : Option IpBuf) (progress : Progress saddr id P D got frags)
    (foreign : ¬ (iphSaddr buf.bytes = saddr ∧ iphId buf.bytes = id)) (step : Defragged frags buf out frags') :
    Progress saddr id P D got frags' := by
  have apart : ∀ frag : Fragment, Matches buf.bytes frag → ¬ HasKey saddr id frag := fun frag same key =>
    foreign ⟨same.2.trans key.1, same.1.trans key.2⟩
  cases step with
  | whole flags => exact progress
  | added i frag frag' out flags found inserted pulled =>
      refine progress_update saddr id P D got frags i frag' progress (fun _ => apart _ found) fun _ => apart _ ?_
      exact ⟨found.1.trans (inserted.id.symm.trans pulled.id.symm), found.2.trans (inserted.saddr.symm.trans pulled.saddr.symm)⟩
  | started i frag empty inserted =>
      refine progress_update saddr id P D got frags i frag progress (fun busy => absurd empty busy) fun _ => apart _ ?_
      exact ⟨inserted.id.symm, inserted.saddr.symm⟩
  | dropped => exact progress

theorem frag_timeout_empty (net : IpNet) (frag : Fragment) (link3 : List IpBuf) :
    (fragTimeout net frag link3).1.buf = [] := by
  cases chain : frag.buf with
  | nil => simp [fragTimeout, chain]
  | cons first rest => simp [fragTimeout, fragDelete, chain]

-- The buffer for the whole datagram is to be had.
def Granted (oracle : Oracle) (net : IpNet) (P : Buffer) (D : List Buffer) : Prop :=
  ∃ first rest, D = first :: rest ∧ Buf.tooBig (BitVec.ofInt 32 (ipHdrlen first + P.length)) = false ∧
    oracle.memory net.calls = true

-- What ip_defrag returns for a fragment of D, got being those that have arrived by then.
structure Answer (oracle : Oracle) (net : IpNet) (P : Buffer) (D got : List Buffer) (out : Option IpBuf) : Prop where
  early : (∃ f ∈ D, f ∉ got) → out = none
  done : (∀ f ∈ D, f ∈ got) → Granted oracle net P D → ∃ nbuf, out = some nbuf ∧ payload nbuf.bytes = P
  refused : (∀ f ∈ D, f ∈ got) → ∀ first second rest, D = first :: second :: rest →
    Buf.tooBig (BitVec.ofInt 32 (ipHdrlen first + P.length)) = true → out = none

theorem granted_alloc (oracle : Oracle) (net : IpNet) (size : BitVec 32) (fits : Buf.tooBig size = false)
    (memory : oracle.memory net.calls = true) : (bufAlloc oracle net size).1 ≠ none := by
  simp [bufAlloc, fits, memory]

theorem decide_cons (got : List Buffer) (f : Buffer) :
    (fun g => decide (g ∈ got) || g == f) = fun g => decide (g ∈ f :: got) := by
  funext g
  by_cases same : g = f
  · simp [same]
  · simp [same]

-- A chain of the datagram grows by one fragment and is pulled up when it is complete.
theorem collecting_step (saddr : BitVec 32) (id : BitVec 16) (P : Buffer) (D got : List Buffer) (oracle : Oracle)
    (net : IpNet) (frag : Fragment) (buf : IpBuf) (cut : Cut saddr id P D)
    (holding : Holding P D (fun f => decide (f ∈ got)) frag) (member : buf.bytes ∈ D) (missing : ∃ f ∈ D, f ∉ got) :
    ∃ out frag' net', fragPullup oracle (fragInsert net frag buf).2 (fragInsert net frag buf).1 = .ret (out, frag', net') ∧
      frag'.id = frag.id ∧ frag'.saddr = frag.saddr ∧ Answer oracle net P D (buf.bytes :: got) out ∧
      ((∃ f ∈ D, f ∉ buf.bytes :: got) → frag' = (fragInsert net frag buf).1 ∧
        Holding P D (fun f => decide (f ∈ buf.bytes :: got)) frag') ∧
      ((∀ f ∈ D, f ∈ buf.bytes :: got) → frag'.buf = []) := by
  by_cases again : buf.bytes ∈ got
  · have same : fragInsert net frag buf = (frag, bufDeref net buf) :=
      holding_again saddr id P D _ net frag buf cut holding member (by simpa using again)
    have known : ∀ f, f ∈ buf.bytes :: got ↔ f ∈ got := fun f => by
      simp only [List.mem_cons]
      exact ⟨fun either => either.elim (fun here => here ▸ again) (fun there => there), Or.inr⟩
    obtain ⟨g, inside, absent⟩ := missing
    have open_ : ¬ ∀ f ∈ D, f ∈ buf.bytes :: got := fun all => absent ((known g).mp (all g inside))
    have pull := holding_incomplete saddr id P D _ oracle (bufDeref net buf) frag cut holding g inside (by simpa using absent)
    refine ⟨none, frag, bufDeref net buf, by rw [same]; exact pull, rfl, rfl, ?_, fun _ => ?_, fun all => absurd all open_⟩
    · exact ⟨fun _ => rfl, fun all => absurd all open_, fun _ _ _ _ _ _ => rfl⟩
    · refine ⟨by rw [same], ?_⟩
      simpa only [known] using holding
  · obtain ⟨netSame, grown⟩ := holding_insert saddr id P D _ net frag buf cut holding member (by simpa using again)
    rw [decide_cons] at grown
    have inserted := frag_insert_spec net frag buf
    rw [netSame]
    by_cases complete : ∀ f ∈ D, f ∈ buf.bytes :: got
    · obtain ⟨first, rest, out, frag', net', order, pull, empty, sameId, sameSaddr, refused, given⟩ :=
        holding_complete saddr id P D _ oracle net _ cut grown (by simpa using complete)
      refine ⟨out, frag', net', pull, sameId.trans inserted.id, sameSaddr.trans inserted.saddr, ?_, ?_, fun _ => empty⟩
      · refine ⟨fun ⟨f, isIn, absent⟩ => absurd (complete f isIn) absent, fun _ granted => ?_, fun _ => ?_⟩
        · obtain ⟨first', rest', order', fits, memory⟩ := granted
          rw [order] at order'
          cases order'
          exact given (granted_alloc oracle net _ fits memory)
        · intro first' second rest' order' large
          rw [order] at order'
          cases order'
          exact refused (by simp [bufAlloc, large])
      · exact fun ⟨f, isIn, absent⟩ => absurd (complete f isIn) absent
    · obtain ⟨g, inside, absent⟩ : ∃ g ∈ D, g ∉ buf.bytes :: got := by
        by_contra none
        exact complete fun f isIn => by_contra fun absent => none ⟨f, isIn, absent⟩
      have pull := holding_incomplete saddr id P D _ oracle net _ cut grown g inside (by simpa using absent)
      refine ⟨none, _, net, pull, inserted.id, inserted.saddr, ?_, fun _ => ⟨rfl, grown⟩, fun all => absurd all complete⟩
      exact ⟨fun _ => rfl, fun all => absurd all complete, fun all => absurd all complete⟩

theorem holding_empty (P : Buffer) (D : List Buffer) (saddr : BitVec 32) (id : BitVec 16) :
    Holding P D (fun f => decide (f ∈ ([] : List Buffer))) ⟨[], id, saddr, 0, 0, true⟩ := by
  have none : D.filter (fun f => decide (f ∈ ([] : List Buffer))) = [] := by simp
  exact ⟨by rw [none]; rfl, by rw [none]; rfl, fun f _ held => absurd held (by simp), fun _ => rfl⟩

theorem progress_mine (saddr : BitVec 32) (id : BitVec 16) (P : Buffer) (D got : List Buffer) (frags : FragTable)
    (oracle : Oracle) (net : IpNet) (buf : IpBuf) (cut : Cut saddr id P D) (progress : Progress saddr id P D got frags)
    (member : buf.bytes ∈ D) (missing : ∃ f ∈ D, f ∉ got) (slot : got = [] → ∃ i, (frags i).buf = []) :
    ∃ out frags' net', ipDefrag oracle frags net buf = .ret (out, frags', net') ∧
      Progress saddr id P D (buf.bytes :: got) frags' ∧ Answer oracle net P D (buf.bytes :: got) out := by
  have mine := fun frag => matches_key saddr id buf.bytes frag (cut.key _ member)
  unfold ipDefrag
  by_cases flags : iphFragoff buf.bytes &&& (IP_MF ||| IP_FRAGOFF) = 0
  · have alone := in_order_whole D cut.pieces cut.inOrder buf.bytes member flags
    have all : ∀ f ∈ D, f ∈ buf.bytes :: got := by
      rw [alone]
      exact fun f inside => List.mem_cons.mpr (Or.inl (List.mem_singleton.mp inside))
    have content : payload buf.bytes = P := by
      have whole := cut.payloads
      rw [alone] at whole
      simpa using whole
    refine ⟨some buf, frags, net, if_pos flags, ?_, ?_⟩
    · rcases progress with ⟨_, none⟩ | ⟨i, collecting⟩
      · exact Or.inl ⟨Or.inr all, none⟩
      · -- The chain of a slot holds the only fragment there is, so nothing was missing.
        obtain ⟨b, inChain⟩ := List.exists_mem_of_ne_nil _ collecting.busy
        have held : b.bytes ∈ D.filter fun f => decide (f ∈ got) := by
          rw [← collecting.holding.chain]
          exact List.mem_map_of_mem inChain
        obtain ⟨inD, inGot⟩ := List.mem_filter.mp held
        obtain ⟨g, inside, absent⟩ := missing
        rw [alone] at inD inside
        rw [List.mem_singleton.mp inside, ← List.mem_singleton.mp inD] at absent
        exact absurd (of_decide_eq_true inGot) absent
    · refine ⟨fun ⟨f, isIn, absent⟩ => absurd (all f isIn) absent, fun _ _ => ⟨buf, rfl, content⟩, ?_⟩
      intro _ first second rest several
      rw [alone] at several
      cases several
  · rw [if_neg flags]
    rcases progress with ⟨stage, none⟩ | ⟨k, collecting⟩
    · obtain ⟨g, inside, absent⟩ := missing
      obtain rfl : got = [] := stage.resolve_right fun all => absent (all g inside)
      obtain ⟨empty, isEmpty⟩ := slot rfl
      cases choice : slotOf frags buf.bytes with
      | found i =>
          obtain ⟨busy, same⟩ := slot_of_found frags buf.bytes i choice
          exact absurd ((mine _).mp same) (none i busy)
      | full => exact absurd isEmpty (slot_of_full frags buf.bytes choice empty).1
      | free i =>
          obtain ⟨netSame, grown⟩ := holding_insert saddr id P D _ net ⟨[], iphId buf.bytes, iphSaddr buf.bytes, 0, 0, true⟩
            buf cut (holding_empty P D _ _) member (by simp)
          rw [decide_cons] at grown
          have inserted := frag_insert_spec net ⟨[], iphId buf.bytes, iphSaddr buf.bytes, 0, 0, true⟩ buf
          have more : ∃ f ∈ D, f ∉ [buf.bytes] := by
            by_contra none
            have only : ∀ f ∈ D, f = buf.bytes := fun f isIn =>
              List.mem_singleton.mp (by_contra fun other => none ⟨f, isIn, other⟩)
            exact flags (in_order_alone D buf.bytes cut.pieces cut.inOrder only)
          refine ⟨Option.none, _, _, rfl, Or.inr ⟨i, ?_, ?_, ?_, ?_⟩, ?_⟩
          · rw [Function.update_self]
            exact ⟨inserted.saddr.trans (cut.key _ member).1, inserted.id.trans (cut.key _ member).2⟩
          · rw [Function.update_self]
            exact inserted.busy
          · rw [Function.update_self]
            exact grown
          · intro j different
            rw [Function.update_of_ne different]
            exact none j
          · obtain ⟨f, isIn, gone⟩ := more
            exact ⟨fun _ => rfl, fun all => absurd (all f isIn) gone, fun all => absurd (all f isIn) gone⟩
    · cases choice : slotOf frags buf.bytes with
      | free i => exact absurd ((mine _).mpr collecting.key) ((slot_of_free frags buf.bytes i choice).2 k collecting.busy)
      | full => exact absurd ((mine _).mpr collecting.key) (slot_of_full frags buf.bytes choice k).2
      | found i =>
          obtain ⟨busy, same⟩ := slot_of_found frags buf.bytes i choice
          obtain rfl : i = k := by
            by_contra different
            exact collecting.others i different busy ((mine _).mp same)
          obtain ⟨out, frag', net', pull, sameId, sameSaddr, answer, open_, closed⟩ :=
            collecting_step saddr id P D got oracle net (frags i) buf cut collecting.holding member missing
          have inserted := frag_insert_spec net (frags i) buf
          dsimp only
          refine ⟨out, Function.update frags i frag', net', by rw [pull]; rfl, ?_, answer⟩
          have others : ∀ j, j ≠ i → (Function.update frags i frag' j).buf ≠ [] →
              ¬ HasKey saddr id (Function.update frags i frag' j) := by
            intro j different
            rw [Function.update_of_ne different]
            exact collecting.others j different
          by_cases complete : ∀ f ∈ D, f ∈ buf.bytes :: got
          · refine Or.inl ⟨Or.inr complete, fun j => ?_⟩
            by_cases here : j = i
            · rw [here, Function.update_self]
              exact fun busy => absurd (closed complete) busy
            · exact others j here
          · have gap : ∃ f ∈ D, f ∉ buf.bytes :: got := by
              by_contra none
              exact complete fun f isIn => by_contra fun absent => none ⟨f, isIn, absent⟩
            obtain ⟨unchanged, holding⟩ := open_ gap
            refine Or.inr ⟨i, ?_, ?_, ?_, others⟩
            · rw [Function.update_self]
              exact ⟨sameSaddr.trans collecting.key.1, sameId.trans collecting.key.2⟩
            · rw [Function.update_self, unchanged]
              exact inserted.busy
            · rw [Function.update_self]
              exact holding

theorem arrivals_progress (saddr : BitVec 32) (id : BitVec 16) (P : Buffer) (D got : List Buffer) (frags : FragTable)
    (cut : Cut saddr id P D) (arrivals : Arrivals saddr id D got frags) : Progress saddr id P D got frags := by
  induction arrivals with
  | start frags none => exact Or.inl ⟨Or.inl rfl, none⟩
  | mine got frags frags' oracle net net' buf out before member missing slot run progress =>
      obtain ⟨out', after, net'', same, next, _⟩ :=
        progress_mine saddr id P D got frags oracle net buf cut progress member missing slot
      rw [run] at same
      cases same
      exact next
  | other got frags frags' oracle net net' buf out before foreign run progress =>
      exact progress_other saddr id P D got frags frags' buf out progress foreign
        (ip_defrag_cases oracle frags frags' net net' buf out run)
  | timeout got frags net i link3 before foreign progress =>
      exact progress_update saddr id P D got frags i _ progress (fun _ => foreign)
        fun busy => absurd (frag_timeout_empty net (frags i) link3) busy

theorem ip_defrag_reassembles (saddr : BitVec 32) (id : BitVec 16) (P : Buffer) (D got : List Buffer)
    (frags : FragTable) (oracle : Oracle) (net : IpNet) (buf : IpBuf) (cut : Cut saddr id P D)
    (arrivals : Arrivals saddr id D got frags) (member : buf.bytes ∈ D) (missing : ∃ f ∈ D, f ∉ got)
    (slot : got = [] → ∃ i, (frags i).buf = []) :
    ∃ out frags' net', ipDefrag oracle frags net buf = .ret (out, frags', net') ∧
      ((∃ f ∈ D, f ∉ buf.bytes :: got) → out = none) ∧
      ((∀ f ∈ D, f ∈ buf.bytes :: got) → Granted oracle net P D → ∃ nbuf, out = some nbuf ∧ payload nbuf.bytes = P) := by
  have progress := arrivals_progress saddr id P D got frags cut arrivals
  obtain ⟨out, frags', net', run, _, answer⟩ :=
    progress_mine saddr id P D got frags oracle net buf cut progress member missing slot
  exact ⟨out, frags', net', run, answer.early, answer.done⟩

theorem halves_cut : Cut 0x0a000001 7 (List.replicate 8 0x61 ++ List.replicate 8 0x62)
    [firstHalf.bytes, secondHalf.bytes] :=
  ⟨by decide, by decide, by decide, by decide, by decide,
    ⟨by decide, by decide, by decide, by decide, by decide⟩, by decide, by decide⟩

theorem halves_arrive : Arrivals 0x0a000001 7 [firstHalf.bytes, secondHalf.bytes] [firstHalf.bytes] halfTable :=
  .mine [] allfrags halfTable .willing .init .init firstHalf none
    (.start allfrags fun _ busy => absurd rfl busy) (by decide) (by decide) (fun _ => ⟨0, rfl⟩) half_run

theorem ip_defrag_reassembles_halves : ∃ out frags' net',
    ipDefrag .willing halfTable .init secondHalf = .ret (out, frags', net') ∧
      ((∃ f ∈ [firstHalf.bytes, secondHalf.bytes], f ∉ [secondHalf.bytes, firstHalf.bytes]) → out = none) ∧
      ((∀ f ∈ [firstHalf.bytes, secondHalf.bytes], f ∈ [secondHalf.bytes, firstHalf.bytes]) →
        Granted .willing .init (List.replicate 8 0x61 ++ List.replicate 8 0x62) [firstHalf.bytes, secondHalf.bytes] →
        ∃ nbuf, out = some nbuf ∧ payload nbuf.bytes = List.replicate 8 0x61 ++ List.replicate 8 0x62) :=
  ip_defrag_reassembles 0x0a000001 7 _ _ [firstHalf.bytes] halfTable .willing .init secondHalf halves_cut halves_arrive
    (by decide) (by decide) (fun none => absurd none (by decide))

-- A datagram of 40000 bytes in two fragments of 20000: together they fit no network buffer.
def largeHeader (high low : Byte) : Buffer :=
  [0x45, 0, 0x4e, 0x34, 0, 9, high, low, 64, 17, 0, 0, 10, 0, 0, 1, 10, 0, 0, 2]

def largeBody : Buffer := List.replicate 20000 0x61

theorem large_body_length : largeBody.length = 20000 := List.length_replicate

def largePart (high low : Byte) : IpBuf := ⟨0, largeHeader high low ++ largeBody, 0⟩

theorem large_part_hdrlen (high low : Byte) : ipHdrlen (largePart high low).bytes = 20 := by
  rw [ipHdrlen, iphHdrlen, largePart, get8_append_left _ _ _ (by simp [largeHeader])]
  simp [largeHeader, get8]

theorem large_part_payload (high low : Byte) : payload (largePart high low).bytes = largeBody := by
  rw [payload, large_part_hdrlen, largePart]
  exact List.drop_left' rfl

theorem large_part_length (high low : Byte) :
    (largePart high low).bytes.length = 20020 ∧ iphLength (largePart high low).bytes = 20020 := by
  constructor
  · rw [largePart, List.length_append, large_body_length]
    simp [largeHeader]
  · rw [iphLength, largePart, get16_append_left _ _ _ (by simp [largeHeader])]
    simp [largeHeader, get16, get8]

theorem large_part_fragoff (high low : Byte) : iphFragoff (largePart high low).bytes = high ++ low := by
  rw [iphFragoff, largePart, get16_append_left _ _ _ (by simp [largeHeader])]
  simp [largeHeader, get16, get8]

theorem large_part_key (high low : Byte) :
    iphSaddr (largePart high low).bytes = 0x0a000001 ∧ iphId (largePart high low).bytes = 9 := by
  constructor
  · rw [iphSaddr, get32, largePart, get16_append_left _ _ _ (by simp [largeHeader]),
      get16_append_left _ _ _ (by simp [largeHeader])]
    simp [largeHeader, get16, get8]
  · rw [iphId, largePart, get16_append_left _ _ _ (by simp [largeHeader])]
    simp [largeHeader, get16, get8]

theorem large_cut : Cut 0x0a000001 9 (largeBody ++ largeBody)
    [(largePart 0x20 0).bytes, (largePart 0x09 0xc4).bytes] := by
  have parts : ∀ f ∈ [(largePart 0x20 0).bytes, (largePart 0x09 0xc4).bytes], ∃ high low, f = (largePart high low).bytes := by
    intro f member
    rcases List.mem_cons.mp member with rfl | later
    · exact ⟨_, _, rfl⟩
    · exact ⟨_, _, List.mem_singleton.mp later⟩
  refine ⟨?_, ?_, ?_, ?_, ?_, ?_, ?_, ?_⟩
  · intro f member
    obtain ⟨high, low, rfl⟩ := parts f member
    exact large_part_key high low
  · intro f member
    obtain ⟨high, low, rfl⟩ := parts f member
    rw [(large_part_length high low).1, (large_part_length high low).2]
    rfl
  · intro f member
    obtain ⟨high, low, rfl⟩ := parts f member
    exact (large_part_hdrlen high low).ge
  · intro f member
    obtain ⟨high, low, rfl⟩ := parts f member
    rw [large_part_hdrlen, (large_part_length high low).1]
    decide
  · intro f member
    obtain ⟨high, low, rfl⟩ := parts f member
    rw [large_part_payload]
    exact List.ne_nil_of_length_pos (by rw [large_body_length]; decide)
  · refine ⟨?_, ?_, ?_, ?_, ?_⟩
    · rw [fragOffset, large_part_fragoff]
      decide
    · rw [moreFrags, large_part_fragoff]
      decide
    · rw [large_part_payload, large_body_length]
      decide
    · rw [fragOffset, large_part_fragoff, large_part_payload, large_body_length]
      decide
    · rw [moreFrags, large_part_fragoff]
      decide
  · simp [large_part_payload]
  · rw [List.length_append, large_body_length]
    decide

-- All fragments have arrived, memory is there, and yet nothing is delivered.
theorem large_dgram_lost : ∃ saddr id P D got frags buf, Cut saddr id P D ∧ Arrivals saddr id D got frags ∧
    buf.bytes ∈ D ∧ (∃ f ∈ D, f ∉ got) ∧ got ≠ [] ∧ (∀ f ∈ D, f ∈ buf.bytes :: got) ∧
    ∃ frags' net', ipDefrag .willing frags .init buf = .ret (none, frags', net') := by
  have different : (largePart 0x09 0xc4).bytes ≠ (largePart 0x20 0).bytes := by
    intro same
    have flags := congrArg iphFragoff same
    rw [large_part_fragoff, large_part_fragoff] at flags
    exact absurd flags (by decide)
  have start : Arrivals 0x0a000001 9 [(largePart 0x20 0).bytes, (largePart 0x09 0xc4).bytes] [] allfrags :=
    .start allfrags fun _ busy => absurd rfl busy
  obtain ⟨out, frags, net, run, progress, _⟩ := progress_mine _ _ _ _ [] allfrags .willing .init (largePart 0x20 0)
    large_cut (arrivals_progress _ _ _ _ _ _ large_cut start) (by simp) ⟨_, List.mem_cons_self .., by simp⟩ (fun _ => ⟨0, rfl⟩)
  have missing : ∃ f ∈ [(largePart 0x20 0).bytes, (largePart 0x09 0xc4).bytes], f ∉ [(largePart 0x20 0).bytes] :=
    ⟨(largePart 0x09 0xc4).bytes, by simp, by simpa using different⟩
  have all : ∀ f ∈ [(largePart 0x20 0).bytes, (largePart 0x09 0xc4).bytes],
      f ∈ [(largePart 0x09 0xc4).bytes, (largePart 0x20 0).bytes] := by
    intro f member
    simpa [or_comm] using member
  obtain ⟨out', frags', net', run', _, answer⟩ := progress_mine _ _ _ _ _ frags .willing .init (largePart 0x09 0xc4)
    large_cut progress (by simp) missing (fun none => absurd none (by simp))
  have large : Buf.tooBig (BitVec.ofInt 32
      (ipHdrlen (largePart 0x20 0).bytes + (largeBody ++ largeBody).length)) = true := by
    rw [large_part_hdrlen, List.length_append, large_body_length]
    decide
  obtain rfl := answer.refused all _ _ _ rfl large
  exact ⟨_, _, _, _, _, frags, largePart 0x09 0xc4, large_cut,
    .mine [] allfrags frags .willing .init net (largePart 0x20 0) out start (by simp)
      ⟨_, List.mem_cons_self .., by simp⟩ (fun _ => ⟨0, rfl⟩) run,
    by simp, missing, by simp, all, frags', net', run'⟩

end MagxNet.Ip
