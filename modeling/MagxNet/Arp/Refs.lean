import MagxNet.Arp.Books

set_option autoImplicit false

namespace MagxNet.Arp

open Buckets (insert unlink listed Filed)

-- What arp_free leaves.
structure Freed (env : Env) (s t : Cache) (are : Nat) : Prop where
  here : t.entry are = env.junk are
  others : ∀ other, other ≠ are → t.entry other = s.entry other
  live : t.live = Function.update s.live are false
  allocs : t.allocs = s.allocs
  arptab : t.arptab = s.arptab
  rarptab : t.rarptab = s.rarptab
  held : t.held = s.held
  dest : t.dest = s.dest
  events : t.events = if (s.entry are).tmout then s.events.erase are else s.events
  done : t.done = s.done ++ (s.entry are).outq.map (Done.mk · are .freed)

theorem arp_free_freed (env : Env) (s : Cache) (are : Nat) (live : s.live are = true) : Freed env s (arpFree env s are) are := by
  have here : (drainq s are .freed).entry are = { s.entry are with outq := [] } := entry_set_here _ are _
  have other : ∀ other, other ≠ are → (drainq s are .freed).entry other = s.entry other := fun other different =>
    entry_set_other _ are other _ different
  unfold arpFree eventDel
  rw [use_of_live s are live]
  dsimp only
  rw [here]
  dsimp only
  by_cases pending : (s.entry are).tmout = true
  · rw [if_pos pending]
    refine ⟨entry_set_here _ are _, fun other different => ?_, rfl, rfl, rfl, rfl, rfl, rfl, (if_pos pending).symm, rfl⟩
    rw [entry_set_other _ are other _ different]
    dsimp only
    rw [entry_set_other _ are other _ different]
    exact entry_set_other _ are other _ different
  · rw [if_neg pending]
    refine ⟨entry_set_here _ are _, fun other different => ?_, rfl, rfl, rfl, rfl, rfl, rfl, (if_neg pending).symm, rfl⟩
    rw [entry_set_other _ are other _ different]
    exact entry_set_other _ are other _ different

theorem set_links_same (e : Entry) (n : Nat) :
    ({ e with links := n } : Entry).tmout = e.tmout ∧ ({ e with links := n } : Entry).outq = e.outq
      ∧ ({ e with links := n } : Entry).praddr = e.praddr ∧ ({ e with links := n } : Entry).hwaddr = e.hwaddr
      ∧ ({ e with links := n } : Entry).flags = e.flags ∧ ({ e with links := n } : Entry).nif = e.nif :=
  ⟨rfl, rfl, rfl, rfl, rfl, rfl⟩

theorem dec_same (e : Entry) : (decLinks e).tmout = e.tmout ∧ (decLinks e).outq = e.outq ∧ (decLinks e).praddr = e.praddr
    ∧ (decLinks e).hwaddr = e.hwaddr ∧ (decLinks e).flags = e.flags ∧ (decLinks e).nif = e.nif :=
  set_links_same e _

theorem arp_deref_cases (env : Env) (s : Cache) (are : Nat) (live : s.live are = true) :
    (arpDeref env s are = s.setEntry are (decLinks (s.entry are)) ∧ (decLinks (s.entry are)).links ≠ 0) ∨
      ((decLinks (s.entry are)).links = 0 ∧ Freed env s (arpDeref env s are) are) := by
  unfold arpDeref
  rw [use_of_live s are live]
  dsimp only
  rw [entry_set_here]
  split
  · rename_i zero
    have freed := arp_free_freed env (s.setEntry are (decLinks (s.entry are))) are live
    refine Or.inr ⟨zero, freed.here, ?_, freed.live, freed.allocs, freed.arptab, freed.rarptab, freed.held, freed.dest, ?_, ?_⟩
    · intro other different
      rw [freed.others other different, entry_set_other s are other _ different]
    · rw [freed.events, entry_set_here, (dec_same _).1]
      rfl
    · rw [freed.done, entry_set_here, (dec_same _).2.1]
      rfl
  · rename_i left
    exact Or.inl ⟨rfl, left⟩

theorem dec_links (s : Cache) (loose : List Nat) (are : Nat) (books : Books s (are :: loose)) (live : s.live are = true)
    (few : loose.count are ≤ 1) : (decLinks (s.entry are)).links = refs s loose are := by
  have bound := refs_bound s _ are books
  have counted := books.links are live
  rw [refs_cons_self] at bound counted
  rw [List.count_cons_self] at bound
  unfold decLinks
  dsimp only
  rw [counted]
  omega

theorem books_freed (env : Env) (s t : Cache) (loose : List Nat) (are : Nat) (books : Books s (are :: loose))
    (unused : refs s loose are = 0) (freed : Freed env s t are) : Books t loose := by
  have live := books.looseLive are List.mem_cons_self
  have nowhere : (∀ i, are ∉ s.arptab i) ∧ (∀ i, are ∉ s.rarptab i) ∧ are ∉ s.held ∧ are ∉ loose := by
    have counted : listed ARP_HASHSIZE s.arptab are = 0 ∧ listed ARP_HASHSIZE s.rarptab are = 0
        ∧ s.held.count are = 0 ∧ loose.count are = 0 := by
      unfold refs at unused
      omega
    obtain ⟨pr, hw, held, loosely⟩ := counted
    refine ⟨fun i member => ?_, fun i member => ?_, List.count_eq_zero.mp held, List.count_eq_zero.mp loosely⟩
    · have place := books.prFiled.chain i are member
      have once := Buckets.listed_filed ARP_HASHSIZE _ s.arptab are books.prFiled (place ▸ member)
      omega
    · have place := books.hwFiled.chain i are member
      have once := Buckets.listed_filed ARP_HASHSIZE _ s.rarptab are books.hwFiled (place ▸ member)
      omega
  obtain ⟨noPr, noHw, noHeld, noLoose⟩ := nowhere
  have aliveIff : ∀ other, t.live other = true ↔ other ≠ are ∧ s.live other = true := by
    intro other
    rw [freed.live]
    by_cases same : other = are
    · rw [same, Function.update_self]
      simp
    · rw [Function.update_of_ne same]
      simp [same]
  have counted : ∀ other, other ≠ are → refs t loose other = refs s (are :: loose) other := by
    intro other different
    rw [refs_cons_other s loose are other different]
    unfold refs
    rw [freed.arptab, freed.rarptab, freed.held]
  have events : ∀ other, other ∈ t.events ↔ other ≠ are ∧ other ∈ s.events := by
    intro other
    rw [freed.events]
    split
    · exact List.Nodup.mem_erase_iff books.eventsOnce
    · rename_i unset
      refine ⟨fun member => ⟨fun same => ?_, member⟩, fun both => both.2⟩
      exact unset ((books.eventsSet are).mp (same ▸ member)).2
  constructor
  · rw [freed.arptab]
    refine Buckets.filed_rehash _ _ _ _ books.prFiled fun i other member => ?_
    rw [freed.others other fun same => noPr i (same ▸ member)]
  · rw [freed.rarptab]
    refine Buckets.filed_rehash _ _ _ _ books.hwFiled fun i other member => ?_
    rw [freed.others other fun same => noHw i (same ▸ member)]
  · rw [freed.arptab]
    exact fun i other member => (aliveIff other).mpr ⟨fun same => noPr i (same ▸ member), books.prLive i other member⟩
  · rw [freed.rarptab]
    exact fun i other member => (aliveIff other).mpr ⟨fun same => noHw i (same ▸ member), books.hwLive i other member⟩
  · rw [freed.rarptab]
    intro i other member
    rw [freed.others other fun same => noHw i (same ▸ member)]
    exact books.hwCom i other member
  · intro other alive
    obtain ⟨different, before⟩ := (aliveIff other).mp alive
    rw [freed.others other different]
    exact books.prCom other before
  · intro other alive
    rw [freed.allocs]
    exact books.known other ((aliveIff other).mp alive).2
  · rw [freed.events]
    split
    · exact books.eventsOnce.erase are
    · exact books.eventsOnce
  · intro other
    rw [events other, aliveIff other]
    constructor
    · rintro ⟨different, member⟩
      rw [freed.others other different]
      exact ⟨⟨different, ((books.eventsSet other).mp member).1⟩, ((books.eventsSet other).mp member).2⟩
    · rintro ⟨⟨different, alive⟩, pending⟩
      rw [freed.others other different] at pending
      exact ⟨different, (books.eventsSet other).mpr ⟨alive, pending⟩⟩
  · rw [freed.held]
    exact fun other member => (aliveIff other).mpr ⟨fun same => noHeld (same ▸ member), books.heldLive other member⟩
  · intro other member
    exact (aliveIff other).mpr
      ⟨fun same => noLoose (same ▸ member), books.looseLive other (List.mem_cons_of_mem are member)⟩
  · intro other alive
    obtain ⟨different, before⟩ := (aliveIff other).mp alive
    rw [freed.others other different, counted other different]
    exact books.links other before
  · intro other alive
    obtain ⟨different, before⟩ := (aliveIff other).mp alive
    rw [counted other different]
    exact books.used other before
  · rw [freed.held]
    exact books.room

theorem books_deref (env : Env) (s : Cache) (loose : List Nat) (are : Nat) (books : Books s (are :: loose))
    (few : loose.count are ≤ 1) : Books (arpDeref env s are) loose := by
  have live := books.looseLive are List.mem_cons_self
  have links := dec_links s loose are books live few
  rcases arp_deref_cases env s are live with ⟨same, left⟩ | ⟨zero, freed⟩
  · rw [same]
    rw [links] at left
    obtain ⟨tmout, _, praddr, hwaddr, flags, _⟩ := dec_same (s.entry are)
    refine books_links s _ loose are _ books (by rw [flags]) (by rw [flags]) praddr hwaddr tmout (fun _ => links) (fun _ => Nat.pos_of_ne_zero left) ?_ ?_
    · exact fun other among => books.looseLive other (List.mem_cons_of_mem are among)
    · exact fun other different => (List.count_cons_of_ne (Ne.symm different)).symm
  · exact books_freed env s _ loose are books (links ▸ zero) freed

end MagxNet.Arp
