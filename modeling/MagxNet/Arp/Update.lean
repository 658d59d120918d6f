import MagxNet.Arp.Lookup

set_option autoImplicit false

namespace MagxNet.Arp

open Bytes (Byte Buffer get8 get16 get32 copyBytes)
open Buckets (insert unlink listed Filed)

-- What the two callers of arp_update change in an entry.
structure Resolves (change : Entry → Entry) : Prop where
  links : ∀ e, (change e).links = e.links
  prcom : ∀ e, (change e).flags.prcom = e.flags.prcom
  hwcom : ∀ e, (change e).flags.hwcom = true
  praddr : ∀ e, (change e).praddr = e.praddr
  tmout : ∀ e, (change e).tmout = e.tmout
  outq : ∀ e, (change e).outq = e.outq

theorem packets_resolve (s : Cache) (are : Nat) (e : Entry) (packets : Packets s nobody)
    (outq : e.outq = (s.entry are).outq) (hwcom : e.flags.hwcom = true) :
    Packets (s.setEntry are e) fun other => other = are := by
  have others := entry_set_other s are
  have queues : ∀ other, ((s.setEntry are e).entry other).outq = (s.entry other).outq := by
    intro other
    by_cases same : other = are
    · rw [same, entry_set_here, outq]
    · rw [others other e same]
  refine ⟨packets.doneFor, packets.doneOnce, ?_, ?_, ?_, ?_, packets.known, ?_, packets.freed, ?_⟩
  · intro other
    rw [queues]
    exact packets.queuedFor other
  · intro other
    rw [queues]
    exact packets.queuedOnce other
  · intro other
    rw [queues]
    exact packets.apart other
  · intro p other
    rw [queues]
    exact packets.placed p other
  · intro other different there com
    rw [others other e different] at com ⊢
    exact packets.quiet other (fun no => no) there com
  · intro d member which there
    by_cases same : d.are = are
    · rw [same, entry_set_here]
      exact hwcom
    · rw [others d.are e same]
      exact packets.resolved d member which there

theorem drainq_eq (s : Cache) (are : Nat) (fate : Fate) : SameTables s (drainq s are fate) ∧ Calm s (drainq s are fate) := by
  have calm := calm_set
    { s with done := s.done ++ (s.entry are).outq.map (Done.mk · are fate) } are { s.entry are with outq := [] } ⟨rfl, rfl, rfl, rfl⟩
  exact ⟨⟨rfl, rfl, rfl⟩, ⟨calm.live, calm.keys, calm.held, calm.stale, calm.dest, calm.allocs⟩⟩

theorem drainq_sound (s : Cache) (loose : List Nat) (are : Nat) (fate : Fate)
    (sound : Sound s loose fun other => other = are) (live : s.live are = true)
    (hwcom : (s.entry are).flags.hwcom = true) (kept : fate ≠ .freed) : Sound (drainq s are fate) loose nobody := by
  refine ⟨?_, packets_drainq s are fate sound.packets live hwcom kept⟩
  have books : Books { s with done := s.done ++ (s.entry are).outq.map (Done.mk · are fate) } loose :=
    books_same s _ loose sound.books (fun other => same_keys_refl _) rfl rfl rfl rfl rfl rfl
  exact books_set _ loose are _ books ⟨rfl, rfl, rfl, rfl, rfl, rfl⟩

theorem sendq_sound (env : Env) (s : Cache) (loose : List Nat) (are : Nat) (sound : Sound s loose fun other => other = are)
    (live : s.live are = true) (hwcom : (s.entry are).flags.hwcom = true) :
    Sound (arpSendq env s are) loose nobody ∧ Calm s (arpSendq env s are) ∧ SameTables s (arpSendq env s are) := by
  unfold arpSendq
  rw [use_of_live s are live]
  dsimp only
  split
  · exact ⟨drainq_sound s loose are _ sound live hwcom (fun no => by cases no), (drainq_eq s are _).2, (drainq_eq s are _).1⟩
  · exact ⟨drainq_sound s loose are _ sound live hwcom (fun no => by cases no), (drainq_eq s are _).2, (drainq_eq s are _).1⟩

theorem put_sound (s : Cache) (busy : Nat → Prop) (are : Nat) (sound : Sound s [are] busy)
    (hwcom : (s.entry are).flags.hwcom = true) (absent : ∀ i, are ∉ s.rarptab i) :
    Sound (rarpPut s are) [are] busy ∧ Calm s (rarpPut s are) ∧ (rarpPut s are).arptab = s.arptab
      ∧ ∀ i other, other ∈ (rarpPut s are).rarptab i ↔ (i = hwHash (s.entry are) ∧ other = are) ∨ other ∈ s.rarptab i := by
  have live := sound.books.looseLive are (List.mem_singleton.mpr rfl)
  have few : refs s [are] are + 1 < 65536 := by
    have pr := listed_le_one _ s.arptab are sound.books.prFiled
    have room := sound.books.room are
    rw [refs_cons_self]
    unfold refs
    rw [Buckets.listed_absent _ s.rarptab are absent, List.count_nil]
    omega
  obtain ⟨counted, calm⟩ := inc_sound s [are] busy are sound live few
  obtain ⟨_, _, _, hwaddr, flags, _⟩ := inc_same (s.entry are)
  have place : hwHash (incLinks (s.entry are)) = hwHash (s.entry are) := by unfold hwHash; rw [hwaddr]
  have linked := books_link_hw _ [are] are counted.books (by rw [entry_set_here, flags]; exact hwcom) absent
  unfold rarpPut
  rw [use_of_live s are live]
  refine ⟨⟨linked, packets_same _ _ busy counted.packets rfl rfl rfl rfl (fun _ => rfl) fun _ => rfl⟩,
    ⟨calm.live, calm.keys, rfl, rfl, rfl, rfl⟩, rfl, fun i other => ?_⟩
  dsimp only
  rw [entry_set_here, place]
  exact Buckets.mem_insert s.rarptab _ i are other

-- The event of a resolved entry: none for a static one.
theorem rearm_sound (s : Cache) (loose : List Nat) (busy : Nat → Prop) (are : Nat) (sound : Sound s loose busy)
    (live : s.live are = true) : ∃ t, (if ((eventDel s are).entry are).flags.perm then eventDel s are
      else eventAdd (eventDel s are) are) = t ∧ Sound t loose busy ∧ Calm s t ∧ SameTables s t := by
  obtain ⟨deleted, calm, same, _⟩ := event_del_sound s loose busy are sound
  split
  · exact ⟨_, rfl, deleted, calm, same⟩
  · obtain ⟨added, calm', same', _⟩ := event_add_sound _ loose busy are deleted (by rw [same.live]; exact live)
    exact ⟨_, rfl, added, calm_trans _ _ _ calm calm', same_tables_trans _ _ _ same same'⟩

theorem deref_looked (env : Env) (s : Cache) (are : Nat) (sound : Sound s [are] nobody) (paired : Paired s nobody) :
    Sound (arpDeref env s are) [] nobody ∧ Paired (arpDeref env s are) nobody ∧ Calm s (arpDeref env s are) := by
  have live := sound.books.looseLive are (List.mem_singleton.mpr rfl)
  have calm := calm_deref env s are live
  obtain ⟨arptab, rarptab⟩ := deref_tables env s are live
  exact ⟨deref_sound env s [] nobody are sound (Nat.zero_le 1), paired_calm s _ nobody paired calm arptab rarptab, calm⟩

-- Nothing is left over of a call.
structure Returned (s s' : Cache) : Prop where
  sound : Sound s' [] nobody
  paired : Paired s' nobody
  held : s'.held = s.held
  stale : s'.stale = s.stale

theorem update_done (env : Env) (s : Cache) (are : Nat) (change : Entry → Entry) (resolves : Resolves change)
    (sound : Sound s [are] nobody) (paired : Paired s nobody) (listed : ∃ i, are ∈ s.arptab i) :
    Returned s (arpUpdate env s are change) ∧ (arpUpdate env s are change).dest = s.dest := by
  obtain ⟨i, member⟩ := listed
  have cut := rarp_remove_sound env s [are] nobody are sound (sound.books.looseLive are (List.mem_singleton.mpr rfl))
    (by rw [List.count_singleton_self])
  unfold arpUpdate
  have live₁ := cut.sound.books.looseLive are (List.mem_singleton.mpr rfl)
  have prTable := cut.side
  have absent : ∀ j, are ∉ (rarpRemove env s are).rarptab j := fun j there => ((cut.left j are).mp there).2 rfl
  have left := cut.left
  have calm₁ := cut.calm
  have sound₁ := cut.sound
  dsimp only
  rw [use_of_live _ are live₁]
  generalize rarpRemove env s are = t at *
  have changed : Sound (t.setEntry are (change (t.entry are))) [are] fun other => other = are :=
    ⟨books_readdress t [are] are _ sound₁.books absent (resolves.links _) (resolves.prcom _) (resolves.praddr _)
      (resolves.tmout _), packets_resolve t are _ sound₁.packets (resolves.outq _) (resolves.hwcom _)⟩
  have hwcom : ((t.setEntry are (change (t.entry are))).entry are).flags.hwcom = true := by
    rw [entry_set_here]
    exact resolves.hwcom _
  have others : ∀ other, other ≠ are → (t.setEntry are (change (t.entry are))).entry other = t.entry other :=
    fun other different => entry_set_other t are other _ different
  have fields : (t.setEntry are (change (t.entry are))).held = t.held ∧ (t.setEntry are (change (t.entry are))).stale = t.stale
    ∧ (t.setEntry are (change (t.entry are))).dest = t.dest ∧ (t.setEntry are (change (t.entry are))).live = t.live
    ∧ (t.setEntry are (change (t.entry are))).arptab = t.arptab ∧ (t.setEntry are (change (t.entry are))).rarptab = t.rarptab :=
    ⟨rfl, rfl, rfl, rfl, rfl, rfl⟩
  generalize t.setEntry are (change (t.entry are)) = u at *
  obtain ⟨held₂, stale₂, dest₂, live₂, prTable₂, hwTable₂⟩ := fields
  obtain ⟨put, calm₃, prTable₃, hwTable₃⟩ := put_sound u _ are changed hwcom (by rw [hwTable₂]; exact absent)
  obtain ⟨v, armed, sound₄, calm₄, same₄⟩ := rearm_sound (rarpPut u are) [are] _ are put
    (put.books.looseLive are (List.mem_singleton.mpr rfl))
  rw [armed]
  have live₄ := sound₄.books.looseLive are (List.mem_singleton.mpr rfl)
  have through := calm_trans _ _ _ calm₃ calm₄
  have hwcom₄ : (v.entry are).flags.hwcom = true := by rw [(through.keys are live₄).flags]; exact hwcom
  obtain ⟨sent, calm₅, same₅⟩ := sendq_sound env v [are] are sound₄ live₄ hwcom₄
  have all := calm_trans _ _ _ through calm₅
  have paired' : Paired (arpSendq env v are) nobody := by
    intro other idle there com
    rw [same₅.arptab, same₄.arptab, prTable₃, prTable₂, prTable, same₅.rarptab, same₄.rarptab]
    simp only [hwTable₃, hwTable₂, left]
    by_cases same : other = are
    · subst same
      exact ⟨fun _ => ⟨_, Or.inl ⟨rfl, rfl⟩⟩, fun _ => ⟨i, member⟩⟩
    · have before : t.live other = true := by rw [← live₂]; exact all.live other there
      rw [(all.keys other there).flags, others other same, (calm₁.keys other before).flags] at com
      simpa only [same, and_false, false_or, not_false_eq_true, and_true] using
        paired other idle (calm₁.live other before) com
  obtain ⟨last, paired'', calm₆⟩ := deref_looked env _ are sent paired'
  exact ⟨⟨last, paired'', calm₆.held.trans (all.held.trans (held₂.trans calm₁.held)),
    calm₆.stale.trans (all.stale.trans (stale₂.trans calm₁.stale))⟩, calm₆.dest.trans (all.dest.trans (dest₂.trans calm₁.dest))⟩

theorem set_hwaddr_resolves (buf : Buffer) : Resolves (setHwaddr buf) :=
  ⟨fun _ => rfl, fun _ => rfl, fun _ => rfl, fun _ => rfl, fun _ => rfl, fun _ => rfl⟩

theorem set_static_resolves (req : ArpReq) (hwaddr : Hwaddr) : Resolves (setStatic req hwaddr) :=
  ⟨fun _ => rfl, fun _ => rfl, fun _ => rfl, fun _ => rfl, fun _ => rfl, fun _ => rfl⟩

end MagxNet.Arp
