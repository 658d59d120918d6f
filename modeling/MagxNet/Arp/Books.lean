import MagxNet.Arp.Cache

set_option autoImplicit false

namespace MagxNet.Arp

open Buckets (insert unlink listed Filed)

def refs (s : Cache) (loose : List Nat) (are : Nat) : Nat :=
  listed ARP_HASHSIZE s.arptab are + listed ARP_HASHSIZE s.rarptab are + s.held.count are + loose.count are

-- loose are the references that the running functions have.
structure Books (s : Cache) (loose : List Nat) : Prop where
  prFiled : Filed ARP_HASHSIZE (fun are => prHash (s.entry are)) s.arptab
  hwFiled : Filed ARP_HASHSIZE (fun are => hwHash (s.entry are)) s.rarptab
  prLive : ∀ i are, are ∈ s.arptab i → s.live are = true
  hwLive : ∀ i are, are ∈ s.rarptab i → s.live are = true
  hwCom : ∀ i are, are ∈ s.rarptab i → (s.entry are).flags.hwcom = true
  prCom : ∀ are, s.live are = true → (s.entry are).flags.prcom = true
  known : ∀ are, s.live are = true → are < s.allocs
  eventsOnce : s.events.Nodup
  eventsSet : ∀ are, are ∈ s.events ↔ s.live are = true ∧ (s.entry are).tmout = true
  heldLive : ∀ are ∈ s.held, s.live are = true
  looseLive : ∀ are ∈ loose, s.live are = true
  links : ∀ are, s.live are = true → (s.entry are).links = refs s loose are
  used : ∀ are, s.live are = true → 0 < refs s loose are
  room : ∀ are, s.held.count are + 3 < 65536

theorem entry_set_here (s : Cache) (are : Nat) (e : Entry) : (s.setEntry are e).entry are = e := by
  simp [Cache.setEntry]

theorem entry_set_other (s : Cache) (are other : Nat) (e : Entry) (different : other ≠ are) :
    (s.setEntry are e).entry other = s.entry other := by
  simp [Cache.setEntry, different]

theorem use_of_live (s : Cache) (are : Nat) (live : s.live are = true) : use s are = s := by
  unfold use
  rw [if_pos live]

-- What the records say does not matter to the books.
structure Alike (s s' : Cache) : Prop where
  entry : s'.entry = s.entry
  live : s'.live = s.live
  allocs : s'.allocs = s.allocs
  arptab : s'.arptab = s.arptab
  rarptab : s'.rarptab = s.rarptab
  events : s'.events = s.events
  held : s'.held = s.held
  dest : s'.dest = s.dest
  done : s'.done = s.done

theorem alike_refl (s : Cache) : Alike s s := ⟨rfl, rfl, rfl, rfl, rfl, rfl, rfl, rfl, rfl⟩

theorem use_alike (s : Cache) (are : Nat) : Alike s (use s are) := by
  unfold use
  split
  · exact alike_refl s
  · exact ⟨rfl, rfl, rfl, rfl, rfl, rfl, rfl, rfl, rfl⟩

theorem dosend_alike (env : Env) (s : Cache) (frame : Frame) : Alike s (arpDosend env s frame) := by
  unfold arpDosend
  split
  · exact ⟨rfl, rfl, rfl, rfl, rfl, rfl, rfl, rfl, rfl⟩
  · exact alike_refl s

-- What the books say of an entry.
structure SameKeys (e e' : Entry) : Prop where
  links : e'.links = e.links
  prcom : e'.flags.prcom = e.flags.prcom
  hwcom : e'.flags.hwcom = e.flags.hwcom
  praddr : e'.praddr = e.praddr
  hwaddr : e'.hwaddr = e.hwaddr
  tmout : e'.tmout = e.tmout

theorem same_keys_refl (e : Entry) : SameKeys e e := ⟨rfl, rfl, rfl, rfl, rfl, rfl⟩

theorem books_same (s s' : Cache) (loose : List Nat) (books : Books s loose)
    (keys : ∀ are, SameKeys (s.entry are) (s'.entry are)) (live : s'.live = s.live) (allocs : s'.allocs = s.allocs)
    (arptab : s'.arptab = s.arptab) (rarptab : s'.rarptab = s.rarptab) (events : s'.events = s.events)
    (held : s'.held = s.held) : Books s' loose := by
  have counted : ∀ are, refs s' loose are = refs s loose are := fun are => by unfold refs; rw [arptab, rarptab, held]
  have prSame : ∀ are, prHash (s'.entry are) = prHash (s.entry are) := fun are => by unfold prHash; rw [(keys are).praddr]
  have hwSame : ∀ are, hwHash (s'.entry are) = hwHash (s.entry are) := fun are => by unfold hwHash; rw [(keys are).hwaddr]
  constructor
  · rw [arptab]
    exact Buckets.filed_rehash _ _ _ _ books.prFiled fun _ are _ => prSame are
  · rw [rarptab]
    exact Buckets.filed_rehash _ _ _ _ books.hwFiled fun _ are _ => hwSame are
  · rw [arptab, live]
    exact books.prLive
  · rw [rarptab, live]
    exact books.hwLive
  · intro i are member
    rw [(keys are).hwcom]
    exact books.hwCom i are (rarptab ▸ member)
  · intro are here
    rw [(keys are).prcom]
    exact books.prCom are (live ▸ here)
  · rw [live, allocs]
    exact books.known
  · rw [events]
    exact books.eventsOnce
  · intro are
    rw [events, live, (keys are).tmout]
    exact books.eventsSet are
  · rw [held, live]
    exact books.heldLive
  · rw [live]
    exact books.looseLive
  · intro are here
    rw [(keys are).links, counted]
    exact books.links are (live ▸ here)
  · intro are here
    rw [counted]
    exact books.used are (live ▸ here)
  · rw [held]
    exact books.room

theorem books_alike (s s' : Cache) (loose : List Nat) (books : Books s loose) (alike : Alike s s') : Books s' loose :=
  books_same s s' loose books (fun are => alike.entry ▸ same_keys_refl (s.entry are)) alike.live alike.allocs alike.arptab
    alike.rarptab alike.events alike.held

theorem books_set (s : Cache) (loose : List Nat) (are : Nat) (e : Entry) (books : Books s loose)
    (keys : SameKeys (s.entry are) e) : Books (s.setEntry are e) loose := by
  refine books_same s _ loose books (fun other => ?_) rfl rfl rfl rfl rfl rfl
  by_cases same : other = are
  · rw [same, entry_set_here]
    exact keys
  · rw [entry_set_other s are other e same]
    exact same_keys_refl _

theorem walk_of_live (stop : Nat → Bool) (chain : List Nat) (s : Cache) (live : ∀ are ∈ chain, s.live are = true) :
    walk stop chain s = (s, chain.find? stop) := by
  induction chain with
  | nil => rfl
  | cons curr next rest =>
      unfold walk
      rw [use_of_live s curr (live curr List.mem_cons_self), rest fun are member => live are (List.mem_cons_of_mem curr member)]
      cases hit : stop curr with
      | true => rw [if_pos rfl, List.find?_cons_of_pos hit]
      | false => rw [if_neg (by decide), List.find?_cons_of_neg (by rw [hit]; decide)]

theorem find_here (are : Nat) (chain : List Nat) :
    chain.find? (fun curr => decide (curr = are)) = if are ∈ chain then some are else none := by
  split
  · rename_i member
    cases found : chain.find? fun curr => decide (curr = are) with
    | none => exact absurd (List.find?_eq_none.mp found are member) (by simp)
    | some curr =>
        have hit := List.find?_some found
        rw [of_decide_eq_true hit]
  · rename_i absent
    rw [List.find?_eq_none]
    intro curr member same
    exact absent (of_decide_eq_true same ▸ member)

theorem listed_le_one (hash : Nat → Nat) (tab : Nat → List Nat) (are : Nat) (filed : Filed ARP_HASHSIZE hash tab) :
    listed ARP_HASHSIZE tab are ≤ 1 := by
  by_cases member : are ∈ tab (hash are)
  · rw [Buckets.listed_filed ARP_HASHSIZE hash tab are filed member]
  · rw [Buckets.listed_absent ARP_HASHSIZE tab are fun i other => member (filed.chain i are other ▸ other)]
    exact Nat.zero_le 1

theorem refs_bound (s : Cache) (loose : List Nat) (are : Nat) (books : Books s loose) :
    refs s loose are < 65535 + loose.count are := by
  have pr := listed_le_one _ s.arptab are books.prFiled
  have hw := listed_le_one _ s.rarptab are books.hwFiled
  have room := books.room are
  unfold refs
  omega

theorem hash_bound (addr : Bytes.Buffer) (len : Nat) : arpHash addr len < ARP_HASHSIZE := by
  unfold arpHash
  exact Nat.mod_lt _ (by decide)

-- A reference of a table goes over to the function that unlinks.
theorem books_unlink_pr (s : Cache) (loose : List Nat) (i are : Nat) (books : Books s loose) (member : are ∈ s.arptab i) :
    Books { s with arptab := unlink s.arptab i are } (are :: loose) := by
  have inside := books.prFiled.bound i are member
  have counted : ∀ other, refs { s with arptab := unlink s.arptab i are } (are :: loose) other = refs s loose other := by
    intro other
    unfold refs
    dsimp only
    by_cases same : other = are
    · subst same
      have fewer := Buckets.listed_unlink ARP_HASHSIZE i s.arptab other inside member
      rw [List.count_cons_self]
      omega
    · rw [Buckets.listed_unlink_other ARP_HASHSIZE i s.arptab are other inside same, List.count_cons_of_ne (Ne.symm same)]
  refine ⟨Buckets.filed_unlink _ i _ _ are books.prFiled, books.hwFiled, ?_, books.hwLive, books.hwCom, books.prCom,
    books.known, books.eventsOnce, books.eventsSet, books.heldLive, ?_, ?_, ?_, books.room⟩
  · intro j other still
    exact books.prLive j other (Buckets.mem_of_unlink _ i j are other still)
  · intro other among
    rcases List.mem_cons.mp among with same | before
    · exact same ▸ books.prLive i are member
    · exact books.looseLive other before
  · intro other live
    rw [counted]
    exact books.links other live
  · intro other live
    rw [counted]
    exact books.used other live

theorem books_unlink_hw (s : Cache) (loose : List Nat) (i are : Nat) (books : Books s loose) (member : are ∈ s.rarptab i) :
    Books { s with rarptab := unlink s.rarptab i are } (are :: loose) := by
  have inside := books.hwFiled.bound i are member
  have counted : ∀ other, refs { s with rarptab := unlink s.rarptab i are } (are :: loose) other = refs s loose other := by
    intro other
    unfold refs
    dsimp only
    by_cases same : other = are
    · subst same
      have fewer := Buckets.listed_unlink ARP_HASHSIZE i s.rarptab other inside member
      rw [List.count_cons_self]
      omega
    · rw [Buckets.listed_unlink_other ARP_HASHSIZE i s.rarptab are other inside same, List.count_cons_of_ne (Ne.symm same)]
  refine ⟨books.prFiled, Buckets.filed_unlink _ i _ _ are books.hwFiled, books.prLive, ?_, ?_, books.prCom,
    books.known, books.eventsOnce, books.eventsSet, books.heldLive, ?_, ?_, ?_, books.room⟩
  · intro j other still
    exact books.hwLive j other (Buckets.mem_of_unlink _ i j are other still)
  · intro j other still
    exact books.hwCom j other (Buckets.mem_of_unlink _ i j are other still)
  · intro other among
    rcases List.mem_cons.mp among with same | before
    · exact same ▸ books.hwLive i are member
    · exact books.looseLive other before
  · intro other live
    rw [counted]
    exact books.links other live
  · intro other live
    rw [counted]
    exact books.used other live

-- One link less or more: of the entry's keys only the count changes.
theorem books_links (s : Cache) (loose loose' : List Nat) (are : Nat) (e : Entry) (books : Books s loose)
    (prcom : e.flags.prcom = (s.entry are).flags.prcom) (hwcom : e.flags.hwcom = (s.entry are).flags.hwcom)
    (praddr : e.praddr = (s.entry are).praddr) (hwaddr : e.hwaddr = (s.entry are).hwaddr)
    (tmout : e.tmout = (s.entry are).tmout) (links : s.live are = true → e.links = refs s loose' are)
    (used : s.live are = true → 0 < refs s loose' are) (looseLive : ∀ other ∈ loose', s.live other = true)
    (others : ∀ other, other ≠ are → loose'.count other = loose.count other) : Books (s.setEntry are e) loose' := by
  have prSame : ∀ other, prHash ((s.setEntry are e).entry other) = prHash (s.entry other) := by
    intro other
    by_cases same : other = are
    · rw [same, entry_set_here]
      unfold prHash
      rw [praddr]
    · rw [entry_set_other s are other e same]
  have hwSame : ∀ other, hwHash ((s.setEntry are e).entry other) = hwHash (s.entry other) := by
    intro other
    by_cases same : other = are
    · rw [same, entry_set_here]
      unfold hwHash
      rw [hwaddr]
    · rw [entry_set_other s are other e same]
  have counted : ∀ other, refs (s.setEntry are e) loose' other = refs s loose' other := fun _ => rfl
  refine ⟨Buckets.filed_rehash _ _ _ _ books.prFiled fun _ other _ => prSame other,
    Buckets.filed_rehash _ _ _ _ books.hwFiled fun _ other _ => hwSame other, books.prLive, books.hwLive, ?_, ?_,
    books.known, books.eventsOnce, ?_, books.heldLive, looseLive, ?_, ?_, books.room⟩
  · intro i other member
    by_cases same : other = are
    · rw [same, entry_set_here, hwcom, ← same]
      exact books.hwCom i other member
    · rw [entry_set_other s are other e same]
      exact books.hwCom i other member
  · intro other live
    by_cases same : other = are
    · rw [same, entry_set_here, prcom, ← same]
      exact books.prCom other live
    · rw [entry_set_other s are other e same]
      exact books.prCom other live
  · intro other
    by_cases same : other = are
    · rw [same, entry_set_here, tmout]
      exact books.eventsSet are
    · rw [entry_set_other s are other e same]
      exact books.eventsSet other
  · intro other live
    rw [counted]
    by_cases same : other = are
    · rw [same, entry_set_here]
      exact links (same ▸ live)
    · rw [entry_set_other s are other e same, books.links other live]
      unfold refs
      rw [others other same]
  · intro other live
    rw [counted]
    by_cases same : other = are
    · rw [same]
      exact used (same ▸ live)
    · have before := books.used other live
      unfold refs at before ⊢
      rwa [others other same]

theorem refs_cons_self (s : Cache) (loose : List Nat) (are : Nat) : refs s (are :: loose) are = refs s loose are + 1 := by
  unfold refs
  rw [List.count_cons_self]
  omega

theorem refs_cons_other (s : Cache) (loose : List Nat) (are other : Nat) (different : other ≠ are) :
    refs s (are :: loose) other = refs s loose other := by
  unfold refs
  rw [List.count_cons_of_ne (Ne.symm different)]

theorem books_inc (s : Cache) (loose : List Nat) (are : Nat) (books : Books s loose) (live : s.live are = true)
    (few : refs s loose are + 1 < 65536) : Books (s.setEntry are (incLinks (s.entry are))) (are :: loose) := by
  refine books_links s loose _ are _ books rfl rfl rfl rfl rfl ?_ ?_ ?_ ?_
  · intro _
    rw [refs_cons_self]
    unfold incLinks
    dsimp only
    rw [books.links are live, Nat.mod_eq_of_lt few]
  · intro _
    rw [refs_cons_self]
    exact Nat.succ_pos _
  · intro other among
    rcases List.mem_cons.mp among with same | before
    · exact same ▸ live
    · exact books.looseLive other before
  · intro other different
    exact List.count_cons_of_ne (Ne.symm different)

-- The other way round.
theorem books_link_hw (s : Cache) (loose : List Nat) (are : Nat) (books : Books s (are :: loose))
    (hwcom : (s.entry are).flags.hwcom = true) (absent : ∀ i, are ∉ s.rarptab i) :
    Books { s with rarptab := insert s.rarptab (hwHash (s.entry are)) are } loose := by
  have inside : hwHash (s.entry are) < ARP_HASHSIZE := hash_bound _ _
  have counted : ∀ other, refs { s with rarptab := insert s.rarptab (hwHash (s.entry are)) are } loose other
      = refs s (are :: loose) other := by
    intro other
    by_cases same : other = are
    · subst same
      rw [refs_cons_self]
      unfold refs
      dsimp only
      rw [Buckets.listed_insert _ _ _ _ inside]
      omega
    · rw [refs_cons_other s loose are other same]
      unfold refs
      dsimp only
      rw [Buckets.listed_insert_other _ _ _ _ _ inside same]
  have member : ∀ i other, other ∈ insert s.rarptab (hwHash (s.entry are)) are i → other = are ∨ other ∈ s.rarptab i :=
    fun i other there => ((Buckets.mem_insert _ _ i are other).mp there).imp And.right id
  refine ⟨books.prFiled, Buckets.filed_insert _ (fun other => hwHash (s.entry other)) _ are books.hwFiled inside absent,
    books.prLive, ?_, ?_, books.prCom, books.known, books.eventsOnce, books.eventsSet, books.heldLive,
    fun other among => books.looseLive other (List.mem_cons_of_mem are among), ?_, ?_, books.room⟩
  · intro i other there
    rcases member i other there with same | before
    · exact same ▸ books.looseLive are List.mem_cons_self
    · exact books.hwLive i other before
  · intro i other there
    rcases member i other there with same | before
    · exact same ▸ hwcom
    · exact books.hwCom i other before
  · intro other live
    rw [counted]
    exact books.links other live
  · intro other live
    rw [counted]
    exact books.used other live

-- The hardware address changes of an entry that is in no chain for it.
theorem books_readdress (s : Cache) (loose : List Nat) (are : Nat) (e : Entry) (books : Books s loose)
    (absent : ∀ i, are ∉ s.rarptab i) (links : e.links = (s.entry are).links)
    (prcom : e.flags.prcom = (s.entry are).flags.prcom) (praddr : e.praddr = (s.entry are).praddr)
    (tmout : e.tmout = (s.entry are).tmout) : Books (s.setEntry are e) loose := by
  have others := entry_set_other s are
  have elsewhere : ∀ i other, other ∈ s.rarptab i → other ≠ are := fun i other member same => absent i (same ▸ member)
  refine ⟨Buckets.filed_rehash _ _ _ _ books.prFiled fun _ other _ => ?_,
    Buckets.filed_rehash _ _ _ _ books.hwFiled fun i other member => ?_, books.prLive, books.hwLive, ?_, ?_, books.known,
    books.eventsOnce, ?_, books.heldLive, books.looseLive, ?_, books.used, books.room⟩
  · by_cases same : other = are
    · rw [same, entry_set_here]
      unfold prHash
      rw [praddr]
    · rw [others other e same]
  · rw [others other e (elsewhere i other member)]
  · intro i other member
    rw [others other e (elsewhere i other member)]
    exact books.hwCom i other member
  · intro other live
    by_cases same : other = are
    · rw [same, entry_set_here, prcom]
      exact books.prCom are (same ▸ live)
    · rw [others other e same]
      exact books.prCom other live
  · intro other
    by_cases same : other = are
    · rw [same, entry_set_here, tmout]
      exact books.eventsSet are
    · rw [others other e same]
      exact books.eventsSet other
  · intro other live
    by_cases same : other = are
    · rw [same, entry_set_here, links]
      exact books.links are (same ▸ live)
    · rw [others other e same]
      exact books.links other live

end MagxNet.Arp
