import MagxNet.Arp.Removal

set_option autoImplicit false

namespace MagxNet.Arp

open Buckets (insert unlink listed Filed)

-- An entry that is resolved is in both tables or in none of them.
def Paired (s : Cache) (busy : Nat → Prop) : Prop :=
  ∀ are, ¬ busy are → s.live are = true → (s.entry are).flags.hwcom = true →
    ((∃ i, are ∈ s.arptab i) ↔ ∃ i, are ∈ s.rarptab i)

def nobody : Nat → Prop := fun _ => False

theorem paired_calm (s s' : Cache) (busy : Nat → Prop) (paired : Paired s busy) (calm : Calm s s')
    (arptab : s'.arptab = s.arptab) (rarptab : s'.rarptab = s.rarptab) : Paired s' busy := by
  intro are idle live hwcom
  rw [(calm.keys are live).flags] at hwcom
  rw [arptab, rarptab]
  exact paired are idle (calm.live are live) hwcom

theorem books_event (s : Cache) (loose : List Nat) (are : Nat) (events : List Nat) (pending : Bool) (books : Books s loose)
    (once : events.Nodup) (others : ∀ other, other ≠ are → (other ∈ events ↔ other ∈ s.events))
    (here : are ∈ events ↔ s.live are = true ∧ pending = true) :
    Books ({ s with events := events }.setEntry are { s.entry are with tmout := pending }) loose := by
  have keys : ∀ other, ∃ b, ({ s with events := events }.setEntry are { s.entry are with tmout := pending }).entry other
      = { s.entry other with tmout := b } := by
    intro other
    by_cases same : other = are
    · rw [same]
      exact ⟨pending, entry_set_here _ are _⟩
    · exact ⟨(s.entry other).tmout, entry_set_other _ are other _ same⟩
  constructor
  · refine Buckets.filed_rehash _ _ _ _ books.prFiled fun i other _ => ?_
    obtain ⟨b, same⟩ := keys other
    rw [same]
    rfl
  · refine Buckets.filed_rehash _ _ _ _ books.hwFiled fun i other _ => ?_
    obtain ⟨b, same⟩ := keys other
    rw [same]
    rfl
  · exact books.prLive
  · exact books.hwLive
  · intro i other member
    obtain ⟨b, same⟩ := keys other
    rw [same]
    exact books.hwCom i other member
  · intro other live
    obtain ⟨b, same⟩ := keys other
    rw [same]
    exact books.prCom other live
  · exact books.known
  · exact once
  · intro other
    by_cases same : other = are
    · rw [same, entry_set_here]
      exact here
    · rw [entry_set_other _ are other _ same]
      exact (others other same).trans (books.eventsSet other)
  · exact books.heldLive
  · exact books.looseLive
  · intro other live
    obtain ⟨b, same⟩ := keys other
    rw [same]
    exact books.links other live
  · exact books.used
  · exact books.room

theorem sound_event (s : Cache) (loose : List Nat) (busy : Nat → Prop) (are : Nat) (events : List Nat) (pending : Bool)
    (sound : Sound s loose busy) (once : events.Nodup)
    (others : ∀ other, other ≠ are → (other ∈ events ↔ other ∈ s.events))
    (here : are ∈ events ↔ s.live are = true ∧ pending = true) :
    Sound ({ s with events := events }.setEntry are { s.entry are with tmout := pending }) loose busy
      ∧ Calm s ({ s with events := events }.setEntry are { s.entry are with tmout := pending }) := by
  refine ⟨⟨books_event s loose are events pending sound.books once others here, ?_⟩, ?_⟩
  · have packets : Packets { s with events := events } busy :=
      packets_same s _ busy sound.packets rfl rfl rfl rfl (fun _ => rfl) fun _ => rfl
    exact packets_set _ busy are _ packets rfl rfl
  · have calm := calm_set { s with events := events } are { s.entry are with tmout := pending } ⟨rfl, rfl, rfl, rfl⟩
    exact ⟨calm.live, calm.keys, calm.held, calm.stale, calm.dest, calm.allocs⟩

-- What both leave alone, besides the events.
structure SameTables (s s' : Cache) : Prop where
  arptab : s'.arptab = s.arptab
  rarptab : s'.rarptab = s.rarptab
  live : s'.live = s.live

theorem same_tables_refl (s : Cache) : SameTables s s := ⟨rfl, rfl, rfl⟩

theorem same_tables_trans (s t u : Cache) (first : SameTables s t) (second : SameTables t u) : SameTables s u :=
  ⟨second.arptab.trans first.arptab, second.rarptab.trans first.rarptab, second.live.trans first.live⟩

theorem event_del_sound (s : Cache) (loose : List Nat) (busy : Nat → Prop) (are : Nat) (sound : Sound s loose busy) :
    Sound (eventDel s are) loose busy ∧ Calm s (eventDel s are) ∧ SameTables s (eventDel s are)
      ∧ (eventDel s are).entry are = { s.entry are with tmout := false } := by
  unfold eventDel
  split
  · have once := sound.books.eventsOnce
    obtain ⟨deleted, calm⟩ := sound_event s loose busy are (s.events.erase are) false sound (once.erase are)
      (fun other different => List.mem_erase_of_ne different)
      ⟨fun member => absurd member once.not_mem_erase, fun no => by cases no.2⟩
    exact ⟨deleted, calm, ⟨rfl, rfl, rfl⟩, entry_set_here _ are _⟩
  · rename_i unset
    refine ⟨sound, calm_refl s, same_tables_refl s, ?_⟩
    rw [← Bool.eq_false_iff.mpr unset]

theorem event_add_sound (s : Cache) (loose : List Nat) (busy : Nat → Prop) (are : Nat) (sound : Sound s loose busy)
    (live : s.live are = true) : Sound (eventAdd s are) loose busy ∧ Calm s (eventAdd s are) ∧ SameTables s (eventAdd s are)
      ∧ (eventAdd s are).entry are = { s.entry are with tmout := true } := by
  have once := sound.books.eventsOnce
  have added : ∀ before : List Nat, before.Nodup → are ∉ before →
      (∀ other, other ≠ are → (other ∈ before ↔ other ∈ s.events)) →
      Sound ({ s with events := before ++ [are] }.setEntry are { s.entry are with tmout := true }) loose busy
        ∧ Calm s ({ s with events := before ++ [are] }.setEntry are { s.entry are with tmout := true }) := by
    intro before nodup absent others
    refine sound_event s loose busy are (before ++ [are]) true sound ?_ ?_ ?_
    · rw [List.nodup_append]
      refine ⟨nodup, List.nodup_singleton are, fun first member second last same => ?_⟩
      rw [List.mem_singleton.mp last] at same
      exact absent (same ▸ member)
    · intro other different
      rw [List.mem_append, List.mem_singleton]
      exact ⟨fun either => either.elim (others other different).mp fun same => absurd same different,
        fun member => Or.inl ((others other different).mpr member)⟩
    · exact ⟨fun _ => ⟨live, rfl⟩, fun _ => List.mem_append_right before (List.mem_singleton.mpr rfl)⟩
  unfold eventAdd
  by_cases pending : (s.entry are).tmout = true
  · rw [if_pos pending]
    obtain ⟨inserted, calm⟩ := added (s.events.erase are) (once.erase are) once.not_mem_erase
      fun other different => List.mem_erase_of_ne different
    exact ⟨inserted, calm, ⟨rfl, rfl, rfl⟩, entry_set_here _ are _⟩
  · rw [if_neg pending]
    obtain ⟨inserted, calm⟩ := added s.events once (fun member => pending ((sound.books.eventsSet are).mp member).2)
      fun _ _ => Iff.rfl
    exact ⟨inserted, calm, ⟨rfl, rfl, rfl⟩, entry_set_here _ are _⟩

theorem dosend_sound (env : Env) (s : Cache) (loose : List Nat) (busy : Nat → Prop) (frame : Frame)
    (sound : Sound s loose busy) : Sound (arpDosend env s frame) loose busy ∧ Calm s (arpDosend env s frame)
      ∧ SameTables s (arpDosend env s frame) := by
  have alike := dosend_alike env s frame
  refine ⟨⟨books_alike s _ loose sound.books alike, packets_alike s _ busy sound.packets alike⟩, ?_,
    ⟨alike.arptab, alike.rarptab, alike.live⟩⟩
  refine ⟨fun are live => alike.live ▸ live, fun are _ => alike.entry ▸ same_id_refl _, alike.held, ?_, alike.dest, alike.allocs⟩
  unfold arpDosend
  split
  · rfl
  · rfl

-- Both tables are rid of the entry, as long as the first removal does not free it.
theorem remove_both (env : Env) (s : Cache) (loose : List Nat) (busy : Nat → Prop) (are : Nat) (sound : Sound s loose busy)
    (paired : Paired s nobody) (live : s.live are = true) (still : (arpRemove env s are).live are = true)
    (few : loose.count are ≤ 1) :
    Sound (rarpRemove env (arpRemove env s are) are) loose busy ∧ Paired (rarpRemove env (arpRemove env s are) are) nobody
      ∧ Calm s (rarpRemove env (arpRemove env s are) are) := by
  have first := arp_remove_sound env s loose busy are sound live few
  have second := rarp_remove_sound env _ loose busy are first.sound still few
  have both := calm_trans _ _ _ first.calm second.calm
  refine ⟨second.sound, fun other _ there hwcom => ?_, both⟩
  rw [(both.keys other there).flags] at hwcom
  have before := paired other (fun no => no) (both.live other there) hwcom
  rw [second.side]
  simp only [second.left, first.left, first.side, exists_and_right]
  rw [before]

theorem com_flags (s : Cache) (loose : List Nat) (are : Nat) (books : Books s loose) (live : s.live are = true) :
    isCom (s.entry are) = (s.entry are).flags.hwcom := by
  unfold isCom
  rw [books.prCom are live, Bool.true_and]

-- The entry is in the other table too, and so is not freed by the first removal.
theorem remove_resolved (env : Env) (s : Cache) (loose : List Nat) (busy : Nat → Prop) (are : Nat)
    (sound : Sound s loose busy) (paired : Paired s nobody) (live : s.live are = true)
    (hwcom : (s.entry are).flags.hwcom = true) (few : loose.count are ≤ 1) : (arpRemove env s are).live are = true := by
  have first := arp_remove_sound env s loose busy are sound live few
  by_cases member : are ∈ s.arptab (prHash (s.entry are))
  · obtain ⟨i, other⟩ := (paired are (fun no => no) live hwcom).mp ⟨_, member⟩
    exact first.sound.books.hwLive i are (first.side ▸ other)
  · rw [arp_remove_eq env s loose are sound.books live, if_neg member]
    exact live

def retried (e : Entry) : Entry := { e with retries := (e.retries + 1) % 65536 }

theorem retried_same (e : Entry) : SameKeys e (retried e) ∧ SameId e (retried e) ∧ (retried e).outq = e.outq := by
  refine ⟨⟨?_, ?_, ?_, ?_, ?_, ?_⟩, ⟨?_, ?_, ?_, ?_⟩, ?_⟩ <;> simp [retried]

theorem retried_sound (s : Cache) (loose : List Nat) (busy : Nat → Prop) (are : Nat) (sound : Sound s loose busy) :
    Sound (s.setEntry are (retried (s.entry are))) loose busy ∧ Calm s (s.setEntry are (retried (s.entry are))) := by
  obtain ⟨keys, id, outq⟩ := retried_same (s.entry are)
  exact ⟨⟨books_set s loose are _ sound.books keys, packets_set s busy are _ sound.packets outq keys.hwcom⟩, calm_set s are _ id⟩

-- A request is sent, unless there is no address or no memory.
theorem request_sound (env : Env) (s : Cache) (loose : List Nat) (busy : Nat → Prop) (are : Nat) (sound : Sound s loose busy)
    (live : s.live are = true) (again : (retried (s.entry are)).retries ≤ ARP_RETRIES) :
    Sound (arpSendreq env s are) loose busy ∧ Calm s (arpSendreq env s are) ∧ SameTables s (arpSendreq env s are) := by
  obtain ⟨counted, calm⟩ := retried_sound s loose busy are sound
  have same : SameTables s (s.setEntry are (retried (s.entry are))) := ⟨rfl, rfl, rfl⟩
  unfold arpSendreq
  rw [use_of_live s are live]
  dsimp only
  rw [entry_set_here, ← retried.eq_1, if_neg (Nat.not_lt.mpr again)]
  split
  · exact ⟨counted, calm, same⟩
  · split
    · obtain ⟨deleted, calm₁, same₁, _⟩ := event_del_sound _ loose busy are counted
      have still : (eventDel (s.setEntry are (retried (s.entry are))) are).live are = true := by rw [same₁.live]; exact live
      obtain ⟨added, calm₂, same₂, _⟩ := event_add_sound _ loose busy are deleted still
      obtain ⟨sent, calm₃, same₃⟩ := dosend_sound env _ loose busy
        ⟨(retried (s.entry are)).nif, arpRequest env (retried (s.entry are)) _,
          (env.nif (retried (s.entry are)).nif).hwbrcst.bytes, (retried (s.entry are)).hwaddr.len, false⟩ added
      exact ⟨sent, calm_trans _ _ _ calm (calm_trans _ _ _ calm₁ (calm_trans _ _ _ calm₂ calm₃)),
        same_tables_trans _ _ _ same (same_tables_trans _ _ _ same₁ (same_tables_trans _ _ _ same₂ same₃))⟩
    · exact ⟨counted, calm, same⟩

theorem use_sound (s : Cache) (loose : List Nat) (busy : Nat → Prop) (are : Nat) (sound : Sound s loose busy) :
    Sound (use s are) loose busy :=
  ⟨books_alike s _ loose sound.books (use_alike s are), packets_alike s _ busy sound.packets (use_alike s are)⟩

-- Nothing besides the records changes for those that are left.
structure Rest (s s' : Cache) : Prop where
  held : s'.held = s.held
  dest : s'.dest = s.dest

theorem rest_calm (s s' : Cache) (calm : Calm s s') : Rest s s' := ⟨calm.held, calm.dest⟩

-- The last request has not been answered: the entry is taken out of the table, and often freed by that.
theorem give_up_sound (env : Env) (s : Cache) (busy : Nat → Prop) (are : Nat) (sound : Sound s [] busy)
    (paired : Paired s nobody) (live : s.live are = true)
    (beyond : ARP_RETRIES < (retried (s.entry are)).retries) :
    Sound (arpSendreq env s are) [] busy ∧ Paired (arpSendreq env s are) nobody ∧ Rest s (arpSendreq env s are) := by
  obtain ⟨counted, calm⟩ := retried_sound s [] busy are sound
  have paired' := paired_calm s _ nobody paired calm rfl rfl
  unfold arpSendreq
  rw [use_of_live s are live]
  dsimp only
  rw [entry_set_here, ← retried.eq_1, if_pos beyond]
  have live' : (s.setEntry are (retried (s.entry are))).live are = true := live
  generalize s.setEntry are (retried (s.entry are)) = t at *
  have first := arp_remove_sound env t [] busy are counted live' (Nat.zero_le 1)
  by_cases still : (arpRemove env t are).live are = true
  · obtain ⟨last, paired'', calm''⟩ := remove_both env t [] busy are counted paired' live' still (Nat.zero_le 1)
    exact ⟨last, paired'', rest_calm _ _ (calm_trans _ _ _ calm calm'')⟩
  · rw [rarp_remove_freed env _ [] are first.sound.books (Bool.eq_false_iff.mpr still)]
    have alike := use_alike (arpRemove env t are) are
    refine ⟨use_sound _ [] busy are first.sound, ?_, ?_⟩
    · intro other idle there hwcom
      rw [alike.live] at there
      rw [alike.entry, (first.calm.keys other there).flags] at hwcom
      rw [alike.arptab, alike.rarptab, first.side]
      have different : other ≠ are := fun same => still (same ▸ there)
      have before := paired' other idle (first.calm.live other there) hwcom
      simpa only [first.left, exists_and_right, different, not_false_eq_true, and_true] using before
    · have both := calm_trans _ _ _ calm first.calm
      exact ⟨alike.held.trans both.held, alike.dest.trans both.dest⟩

def givesUp (s : Cache) (are : Nat) : Prop :=
  isCom (s.entry are) = false ∧ ARP_RETRIES < (retried (s.entry are)).retries

theorem timeout_sound (env : Env) (s : Cache) (busy : Nat → Prop) (are : Nat) (sound : Sound s [] busy)
    (paired : Paired s nobody) (live : s.live are = true) :
    Sound (arpTimeout env s are) [] busy ∧ Paired (arpTimeout env s are) nobody ∧ Rest s (arpTimeout env s are)
      ∧ (¬ givesUp s are → (arpTimeout env s are).stale = s.stale) := by
  have com := com_flags s [] are sound.books live
  unfold arpTimeout
  rw [use_of_live s are live]
  dsimp only
  by_cases hwcom : (s.entry are).flags.hwcom = true
  · rw [com, if_pos hwcom]
    split
    · exact ⟨sound, paired, ⟨rfl, rfl⟩, fun _ => rfl⟩
    · have still := remove_resolved env s [] busy are sound paired live hwcom (Nat.zero_le 1)
      obtain ⟨last, paired', calm⟩ := remove_both env s [] busy are sound paired live still (Nat.zero_le 1)
      exact ⟨last, paired', rest_calm _ _ calm, fun _ => calm.stale⟩
  · rw [com, if_neg hwcom, if_pos (sound.books.prCom are live)]
    by_cases again : (retried (s.entry are)).retries ≤ ARP_RETRIES
    · obtain ⟨sent, calm, same⟩ := request_sound env s [] busy are sound live again
      exact ⟨sent, paired_calm s _ nobody paired calm same.arptab same.rarptab, rest_calm _ _ calm, fun _ => calm.stale⟩
    · obtain ⟨last, paired', rest⟩ := give_up_sound env s busy are sound paired live (Nat.lt_of_not_le again)
      refine ⟨last, paired', rest, fun kept => absurd ⟨?_, Nat.lt_of_not_le again⟩ kept⟩
      rw [com]
      exact Bool.eq_false_iff.mpr hwcom

theorem expire_sound (env : Env) (s : Cache) (busy : Nat → Prop) (are : Nat) (sound : Sound s [] busy)
    (paired : Paired s nobody) (event : are ∈ s.events) :
    Sound (expire env s are) [] busy ∧ Paired (expire env s are) nobody ∧ Rest s (expire env s are)
      ∧ (¬ givesUp s are → (expire env s are).stale = s.stale) := by
  have live := ((sound.books.eventsSet are).mp event).1
  have once := sound.books.eventsOnce
  obtain ⟨fired, calm⟩ := sound_event s [] busy are (s.events.erase are) false sound (once.erase are)
    (fun other different => List.mem_erase_of_ne different)
    ⟨fun member => absurd member once.not_mem_erase, fun no => by cases no.2⟩
  obtain ⟨last, paired', rest, stale⟩ := timeout_sound env _ busy are fired (paired_calm s _ nobody paired calm rfl rfl) live
  unfold expire
  rw [use_of_live s are live]
  refine ⟨last, paired', ⟨rest.held, rest.dest⟩, fun kept => stale fun gives => kept ?_⟩
  unfold givesUp at gives ⊢
  rw [entry_set_here] at gives
  exact gives

def belongs (s : Cache) (nif : Nat) (chain : List Nat) (are : Nat) : Prop := are ∈ chain ∧ (s.entry are).nif = nif

-- One chain is walked: what is looked at is still in it, and not freed.
theorem flush_chain_cut (drop : Cache → Nat → Cache) (tab side : Cache → Nat → List Nat) (nif i : Nat) (busy : Nat → Prop)
    (tabLive : ∀ s j are, Sound s [] busy → are ∈ tab s j → s.live are = true)
    (dropped : ∀ s are, Sound s [] busy → are ∈ tab s i → Cut tab side s (drop s are) [] busy fun other => other = are)
    (chain : List Nat) (s : Cache) (sound : Sound s [] busy) (within : ∀ c ∈ chain, c ∈ tab s i) (once : chain.Nodup) :
    Cut tab side s (flushChain drop nif chain s) [] busy (belongs s nif chain) := by
  induction chain generalizing s with
  | nil => exact ⟨sound, calm_refl s, fun j other => by simp [flushChain, belongs], rfl⟩
  | cons curr next rest =>
      obtain ⟨fresh, once'⟩ := List.nodup_cons.mp once
      have here := within curr List.mem_cons_self
      unfold flushChain
      rw [use_of_live s curr (tabLive s i curr sound here)]
      dsimp only
      by_cases mine : (s.entry curr).nif = nif
      · rw [if_pos mine]
        have first := dropped s curr sound here
        have within' : ∀ c ∈ next, c ∈ tab (drop s curr) i := fun c member =>
          (first.left i c).mpr ⟨within c (List.mem_cons_of_mem curr member), fun same => fresh (same ▸ member)⟩
        have last := rest (drop s curr) first.sound within' once'
        refine ⟨last.sound, calm_trans _ _ _ first.calm last.calm, fun j other => ?_, last.side.trans first.side⟩
        have nifSame : other ∈ tab (drop s curr) j → ((drop s curr).entry other).nif = (s.entry other).nif := fun member =>
          (first.calm.keys other (tabLive _ j other first.sound member)).nif
        rw [last.left j other]
        constructor
        · rintro ⟨member, kept⟩
          obtain ⟨before, different⟩ := (first.left j other).mp member
          refine ⟨before, fun both => kept ⟨(List.mem_cons.mp both.1).resolve_left different, ?_⟩⟩
          rw [nifSame member]
          exact both.2
        · rintro ⟨before, kept⟩
          have member := (first.left j other).mpr ⟨before, fun same => kept ⟨same ▸ List.mem_cons_self, same ▸ mine⟩⟩
          refine ⟨member, fun both => kept ⟨List.mem_cons_of_mem curr both.1, ?_⟩⟩
          rw [← nifSame member]
          exact both.2
      · rw [if_neg mine]
        have last := rest s sound (fun c member => within c (List.mem_cons_of_mem curr member)) once'
        refine ⟨last.sound, last.calm, fun j other => ?_, last.side⟩
        have chains : belongs s nif (curr :: next) other ↔ belongs s nif next other := by
          unfold belongs
          rw [List.mem_cons]
          exact ⟨fun both => ⟨both.1.resolve_left fun same => mine (same ▸ both.2), both.2⟩, fun both => ⟨Or.inr both.1, both.2⟩⟩
        rw [last.left j other, chains]

-- What the flush of the chains below n has left.
structure Flushed (s s' : Cache) (nif n : Nat) (busy : Nat → Prop) : Prop where
  sound : Sound s' [] busy
  calm : Calm s s'
  pr : ∀ j other, other ∈ s'.arptab j ↔ other ∈ s.arptab j ∧ ¬ (j < n ∧ (s.entry other).nif = nif)
  hw : ∀ j other, other ∈ s'.rarptab j ↔ other ∈ s.rarptab j ∧ ¬ (j < n ∧ (s.entry other).nif = nif)

-- An entry of the chain that is flushed now, in terms of the entries as they were at first.
theorem flushed_step (s t : Cache) (hash : Nat → Nat) (before after : Nat → List Nat) (nif i : Nat) (j other : Nat)
    (filed : Filed ARP_HASHSIZE hash after) (nifSame : other ∈ after j → (t.entry other).nif = (s.entry other).nif)
    (earlier : other ∈ after j ↔ other ∈ before j ∧ ¬ (j < i ∧ (s.entry other).nif = nif)) :
    other ∈ after j ∧ ¬ belongs t nif (after i) other ↔ other ∈ before j ∧ ¬ (j < i + 1 ∧ (s.entry other).nif = nif) := by
  constructor
  · rintro ⟨member, kept⟩
    obtain ⟨first, below⟩ := earlier.mp member
    refine ⟨first, fun both => ?_⟩
    by_cases last : j = i
    · exact kept ⟨last ▸ member, (nifSame member).trans both.2⟩
    · exact below ⟨by omega, both.2⟩
  · rintro ⟨first, kept⟩
    have member := earlier.mpr ⟨first, fun both => kept ⟨by omega, both.2⟩⟩
    refine ⟨member, fun both => kept ⟨?_, (nifSame member).symm.trans both.2⟩⟩
    rw [filed.chain j other member, ← filed.chain i other both.1]
    exact Nat.lt_succ_self i

theorem flush_chains_sound (env : Env) (nif i : Nat) (busy : Nat → Prop) (s t : Cache) (flushed : Flushed s t nif i busy) :
    Flushed s (flushChains env nif t i) nif (i + 1) busy := by
  have first := flush_chain_cut (dropPr env i) Cache.arptab Cache.rarptab nif i busy
    (fun s j are sound member => sound.books.prLive j are member)
    (fun s are sound member => drop_pr env s [] busy i are sound member (Nat.zero_le 1)) (t.arptab i) t flushed.sound
    (fun _ member => member) (flushed.sound.books.prFiled.once i)
  have second := flush_chain_cut (dropHw env i) Cache.rarptab Cache.arptab nif i busy
    (fun s j are sound member => sound.books.hwLive j are member)
    (fun s are sound member => drop_hw env s [] busy i are sound member (Nat.zero_le 1))
    ((flushChain (dropPr env i) nif (t.arptab i) t).rarptab i) _ first.sound (fun _ member => member)
    (first.sound.books.hwFiled.once i)
  have calm := calm_trans _ _ _ flushed.calm first.calm
  refine ⟨second.sound, calm_trans _ _ _ calm second.calm, fun j other => ?_, fun j other => ?_⟩
  · unfold flushChains
    dsimp only
    rw [second.side, first.left j other]
    exact flushed_step s t _ s.arptab t.arptab nif i j other flushed.sound.books.prFiled
      (fun member => (flushed.calm.keys other (flushed.sound.books.prLive j other member)).nif) (flushed.pr j other)
  · unfold flushChains
    dsimp only
    rw [second.left j other]
    have filed := first.sound.books.hwFiled
    have live := first.sound.books.hwLive
    refine flushed_step s _ _ s.rarptab _ nif i j other filed (fun member => (calm.keys other (live j other member)).nif) ?_
    rw [first.side]
    exact flushed.hw j other

theorem flush_sound (env : Env) (nif n : Nat) (busy : Nat → Prop) (s : Cache) (sound : Sound s [] busy) :
    Flushed s ((List.range n).foldl (flushChains env nif) s) nif n busy := by
  induction n with
  | zero => exact ⟨sound, calm_refl s, fun j other => by simp, fun j other => by simp⟩
  | succ n rest =>
      rw [List.range_succ, List.foldl_append]
      exact flush_chains_sound env nif n busy s _ rest

theorem arp_flush_sound (env : Env) (nif : Nat) (busy : Nat → Prop) (s : Cache) (sound : Sound s [] busy)
    (paired : Paired s nobody) :
    Sound (arpFlush env nif s) [] busy ∧ Paired (arpFlush env nif s) nobody ∧ Calm s (arpFlush env nif s) := by
  have flushed : Flushed s (arpFlush env nif s) nif ARP_HASHSIZE busy := by
    unfold arpFlush
    exact flush_sound env nif ARP_HASHSIZE busy s sound
  refine ⟨flushed.sound, fun other _ there hwcom => ?_, flushed.calm⟩
  rw [(flushed.calm.keys other there).flags] at hwcom
  have before := paired other (fun no => no) (flushed.calm.live other there) hwcom
  constructor
  · rintro ⟨i, member⟩
    obtain ⟨first, kept⟩ := (flushed.pr i other).mp member
    obtain ⟨j, second⟩ := before.mp ⟨i, first⟩
    exact ⟨j, (flushed.hw j other).mpr ⟨second, fun both => kept ⟨sound.books.prFiled.bound i other first, both.2⟩⟩⟩
  · rintro ⟨i, member⟩
    obtain ⟨first, kept⟩ := (flushed.hw i other).mp member
    obtain ⟨j, second⟩ := before.mpr ⟨i, first⟩
    exact ⟨j, (flushed.pr j other).mpr ⟨second, fun both => kept ⟨sound.books.hwFiled.bound i other first, both.2⟩⟩⟩

end MagxNet.Arp
