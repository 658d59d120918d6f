import MagxNet.Arp.Packets

set_option autoImplicit false

namespace MagxNet.Arp

open Buckets (insert unlink listed Filed)

structure Sound (s : Cache) (loose : List Nat) (busy : Nat → Prop) : Prop where
  books : Books s loose
  packets : Packets s busy

structure SameId (e e' : Entry) : Prop where
  praddr : e'.praddr = e.praddr
  hwaddr : e'.hwaddr = e.hwaddr
  flags : e'.flags = e.flags
  nif : e'.nif = e.nif

-- What is said of the entries that are left, and of what callers hold.
structure Calm (s s' : Cache) : Prop where
  live : ∀ are, s'.live are = true → s.live are = true
  keys : ∀ are, s'.live are = true → SameId (s.entry are) (s'.entry are)
  held : s'.held = s.held
  stale : s'.stale = s.stale
  dest : s'.dest = s.dest
  allocs : s'.allocs = s.allocs

theorem same_id_refl (e : Entry) : SameId e e := ⟨rfl, rfl, rfl, rfl⟩

theorem calm_refl (s : Cache) : Calm s s := ⟨fun _ live => live, fun are _ => same_id_refl (s.entry are), rfl, rfl, rfl, rfl⟩

theorem calm_trans (s t u : Cache) (first : Calm s t) (second : Calm t u) : Calm s u := by
  refine ⟨fun are live => first.live are (second.live are live), fun are live => ?_, second.held.trans first.held,
    second.stale.trans first.stale, second.dest.trans first.dest, second.allocs.trans first.allocs⟩
  have before := first.keys are (second.live are live)
  have after := second.keys are live
  exact ⟨after.praddr.trans before.praddr, after.hwaddr.trans before.hwaddr, after.flags.trans before.flags,
    after.nif.trans before.nif⟩

theorem calm_set (s : Cache) (are : Nat) (e : Entry) (same : SameId (s.entry are) e) : Calm s (s.setEntry are e) := by
  refine ⟨fun _ live => live, fun other _ => ?_, rfl, rfl, rfl, rfl⟩
  by_cases here : other = are
  · rw [here, entry_set_here]
    exact same
  · rw [entry_set_other s are other e here]
    exact same_id_refl _

theorem stale_free (env : Env) (s : Cache) (are : Nat) (live : s.live are = true) : (arpFree env s are).stale = s.stale := by
  unfold arpFree eventDel
  rw [use_of_live s are live]
  dsimp only
  split
  · rfl
  · rfl

theorem calm_deref (env : Env) (s : Cache) (are : Nat) (live : s.live are = true) : Calm s (arpDeref env s are) := by
  have quiet : (arpDeref env s are).stale = s.stale := by
    unfold arpDeref
    rw [use_of_live s are live]
    dsimp only
    split
    · exact stale_free env _ are live
    · rfl
  rcases arp_deref_cases env s are live with ⟨same, _⟩ | ⟨_, freed⟩
  · obtain ⟨_, _, praddr, hwaddr, flags, nif⟩ := dec_same (s.entry are)
    rw [same]
    exact calm_set s are _ ⟨praddr, hwaddr, flags, nif⟩
  · have still : ∀ other, (arpDeref env s are).live other = true → other ≠ are ∧ s.live other = true := by
      intro other there
      rw [freed.live] at there
      by_cases same : other = are
      · rw [same, Function.update_self] at there
        cases there
      · rw [Function.update_of_ne same] at there
        exact ⟨same, there⟩
    refine ⟨fun other there => (still other there).2, fun other there => ?_, freed.held, quiet, freed.dest, freed.allocs⟩
    rw [freed.others other (still other there).1]
    exact same_id_refl _

theorem deref_tables (env : Env) (s : Cache) (are : Nat) (live : s.live are = true) :
    (arpDeref env s are).arptab = s.arptab ∧ (arpDeref env s are).rarptab = s.rarptab := by
  rcases arp_deref_cases env s are live with ⟨same, _⟩ | ⟨_, freed⟩
  · rw [same]
    exact ⟨rfl, rfl⟩
  · exact ⟨freed.arptab, freed.rarptab⟩

theorem deref_sound (env : Env) (s : Cache) (loose : List Nat) (busy : Nat → Prop) (are : Nat)
    (sound : Sound s (are :: loose) busy) (few : loose.count are ≤ 1) : Sound (arpDeref env s are) loose busy :=
  ⟨books_deref env s loose are sound.books few,
    packets_deref env s busy are sound.packets (sound.books.looseLive are List.mem_cons_self)⟩

-- Some entries are out of the chains of one table, and their references with them; the other table stays.
structure Cut (tab side : Cache → Nat → List Nat) (s s' : Cache) (loose : List Nat) (busy gone : Nat → Prop) : Prop where
  sound : Sound s' loose busy
  calm : Calm s s'
  left : ∀ j other, other ∈ tab s' j ↔ other ∈ tab s j ∧ ¬ gone other
  side : side s' = side s

theorem unlinked (hash : Nat → Nat) (tab : Nat → List Nat) (i are : Nat) (filed : Filed ARP_HASHSIZE hash tab)
    (member : are ∈ tab i) (j other : Nat) : other ∈ unlink tab i are j ↔ other ∈ tab j ∧ ¬ other = are := by
  constructor
  · intro still
    refine ⟨Buckets.mem_of_unlink tab i j are other still, fun same => ?_⟩
    exact Buckets.filed_unlinked _ i hash tab are filed (filed.chain i are member) j (same ▸ still)
  · exact fun both => (Buckets.mem_unlink_other tab i j are other both.2).mpr both.1

theorem drop_pr (env : Env) (s : Cache) (loose : List Nat) (busy : Nat → Prop) (i are : Nat) (sound : Sound s loose busy)
    (member : are ∈ s.arptab i) (few : loose.count are ≤ 1) :
    Cut Cache.arptab Cache.rarptab s (dropPr env i s are) loose busy fun other => other = are := by
  have live := sound.books.prLive i are member
  have books := books_unlink_pr s loose i are sound.books member
  have packets : Packets { s with arptab := unlink s.arptab i are } busy :=
    packets_same s _ busy sound.packets rfl rfl rfl rfl (fun _ => rfl) fun _ => rfl
  have calm := calm_deref env { s with arptab := unlink s.arptab i are } are live
  have tables := deref_tables env { s with arptab := unlink s.arptab i are } are live
  unfold dropPr
  refine ⟨deref_sound env _ loose busy are ⟨books, packets⟩ few,
    ⟨calm.live, calm.keys, calm.held, calm.stale, calm.dest, calm.allocs⟩, fun j other => ?_, tables.2⟩
  rw [tables.1]
  exact unlinked _ s.arptab i are sound.books.prFiled member j other

theorem drop_hw (env : Env) (s : Cache) (loose : List Nat) (busy : Nat → Prop) (i are : Nat) (sound : Sound s loose busy)
    (member : are ∈ s.rarptab i) (few : loose.count are ≤ 1) :
    Cut Cache.rarptab Cache.arptab s (dropHw env i s are) loose busy fun other => other = are := by
  have live := sound.books.hwLive i are member
  have books := books_unlink_hw s loose i are sound.books member
  have packets : Packets { s with rarptab := unlink s.rarptab i are } busy :=
    packets_same s _ busy sound.packets rfl rfl rfl rfl (fun _ => rfl) fun _ => rfl
  have calm := calm_deref env { s with rarptab := unlink s.rarptab i are } are live
  have tables := deref_tables env { s with rarptab := unlink s.rarptab i are } are live
  unfold dropHw
  refine ⟨deref_sound env _ loose busy are ⟨books, packets⟩ few,
    ⟨calm.live, calm.keys, calm.held, calm.stale, calm.dest, calm.allocs⟩, fun j other => ?_, tables.1⟩
  rw [tables.2]
  exact unlinked _ s.rarptab i are sound.books.hwFiled member j other

theorem cut_absent (tab side : Cache → Nat → List Nat) (s : Cache) (loose : List Nat) (busy : Nat → Prop) (are : Nat)
    (sound : Sound s loose busy) (absent : ∀ i, are ∉ tab s i) : Cut tab side s s loose busy fun other => other = are :=
  ⟨sound, calm_refl s, fun j _ => ⟨fun member => ⟨member, fun same => absent j (same ▸ member)⟩, fun both => both.1⟩, rfl⟩

theorem arp_remove_eq (env : Env) (s : Cache) (loose : List Nat) (are : Nat) (books : Books s loose)
    (live : s.live are = true) : arpRemove env s are =
      if are ∈ s.arptab (prHash (s.entry are)) then
        dropPr env (prHash (s.entry are)) s are
      else s := by
  unfold arpRemove
  rw [use_of_live s are live]
  dsimp only
  rw [if_pos (books.prCom are live), walk_of_live _ _ s (books.prLive _), find_here]
  by_cases member : are ∈ s.arptab (prHash (s.entry are))
  · rw [if_pos member, if_pos member]
  · rw [if_neg member, if_neg member]

theorem rarp_remove_eq (env : Env) (s : Cache) (loose : List Nat) (are : Nat) (books : Books s loose)
    (live : s.live are = true) : rarpRemove env s are =
      if are ∈ s.rarptab (hwHash (s.entry are)) then
        dropHw env (hwHash (s.entry are)) s are
      else s := by
  unfold rarpRemove
  rw [use_of_live s are live]
  dsimp only
  by_cases hwcom : (s.entry are).flags.hwcom = true
  · rw [if_pos hwcom, walk_of_live _ _ s (books.hwLive _), find_here]
    by_cases member : are ∈ s.rarptab (hwHash (s.entry are))
    · rw [if_pos member, if_pos member]
    · rw [if_neg member, if_neg member]
  · rw [if_neg hwcom, if_neg fun member => hwcom (books.hwCom _ are member)]

-- Whatever is found in an entry that is freed, no chain has it.
theorem rarp_remove_freed (env : Env) (s : Cache) (loose : List Nat) (are : Nat) (books : Books s loose)
    (dead : s.live are = false) : rarpRemove env s are = use s are := by
  have alike := use_alike s are
  have absent : are ∉ s.rarptab (hwHash (s.entry are)) := fun member => by
    rw [books.hwLive _ are member] at dead
    cases dead
  have chain : ∀ curr ∈ s.rarptab (hwHash (s.entry are)), (use s are).live curr = true := by
    rw [alike.live]
    exact books.hwLive _
  unfold rarpRemove
  dsimp only
  rw [alike.entry, alike.rarptab]
  split
  · rw [walk_of_live _ _ _ chain, find_here, if_neg absent]
  · rfl

theorem arp_remove_sound (env : Env) (s : Cache) (loose : List Nat) (busy : Nat → Prop) (are : Nat)
    (sound : Sound s loose busy) (live : s.live are = true) (few : loose.count are ≤ 1) :
    Cut Cache.arptab Cache.rarptab s (arpRemove env s are) loose busy fun other => other = are := by
  rw [arp_remove_eq env s loose are sound.books live]
  split
  · rename_i member
    exact drop_pr env s loose busy _ are sound member few
  · rename_i absent
    exact cut_absent _ _ s loose busy are sound fun i member => absent (sound.books.prFiled.chain i are member ▸ member)

theorem rarp_remove_sound (env : Env) (s : Cache) (loose : List Nat) (busy : Nat → Prop) (are : Nat)
    (sound : Sound s loose busy) (live : s.live are = true) (few : loose.count are ≤ 1) :
    Cut Cache.rarptab Cache.arptab s (rarpRemove env s are) loose busy fun other => other = are := by
  rw [rarp_remove_eq env s loose are sound.books live]
  split
  · rename_i member
    exact drop_hw env s loose busy _ are sound member few
  · rename_i absent
    exact cut_absent _ _ s loose busy are sound fun i member => absent (sound.books.hwFiled.chain i are member ▸ member)

end MagxNet.Arp
