import MagxNet.Route.Input
import MagxNet.Route.Linked

set_option autoImplicit false

namespace MagxNet.Route

-- The counters say how often a route is owned, and what is owned is not given back.
def CountedBy (owned : Nat → Nat) (t : Table) : Prop :=
  ∀ id, 0 < owned id → t.freed id = false ∧ (t.rt id).refcnt = BitVec.ofNat 16 (owned id)

def links (t : Table) (id : Nat) : Nat :=
  (t.allroutes (routeHash (t.rt id).net)).count id + t.defroute.toList.count id

-- A route is owned by its link and by everybody who fetched it and has not given it back.
def owners (held : List Nat) (t : Table) (id : Nat) : Nat := links t id + held.count id

structure Counted (held : List Nat) (t : Table) : Prop where
  linked : Linked t
  old : ∀ id ∈ held, id < t.fresh
  counts : CountedBy (owners held t) t

theorem links_same (t t' : Table) (same : SameLinks t t') (id : Nat) : links t' id = links t id := by
  unfold links
  rw [same.allroutes, same.defroute, same.net]

theorem links_le_one (t : Table) (linked : Linked t) (id : Nat) : links t id ≤ 1 := by
  have once := List.nodup_iff_count_le_one.mp (linked.once (routeHash (t.rt id).net)) id
  unfold links
  cases found : t.defroute with
  | none => exact once
  | some other =>
      rw [Option.toList_some, List.count_singleton]
      by_cases same : other = id
      · subst same
        rw [List.count_eq_zero_of_not_mem (linked.defOnly other found _), beq_self_eq_true, if_pos rfl]
      · rw [if_neg (by simpa using same)]
        exact once

theorem links_in_bucket (t : Table) (linked : Linked t) (b : BitVec 8) (id : Nat) (member : id ∈ t.allroutes b) :
    links t id = 1 := by
  refine Nat.le_antisymm (links_le_one t linked id) ?_
  unfold links
  rw [linked.hashed b id member]
  exact Nat.le_add_right_of_le (List.count_pos_iff.mpr member)

theorem links_default (t : Table) (linked : Linked t) (id : Nat) (isDefault : t.defroute = some id) : links t id = 1 := by
  unfold links
  rw [isDefault, List.count_eq_zero_of_not_mem (linked.defOnly id isDefault _), Option.toList_some, List.count_singleton_self]

theorem links_loose (t : Table) (id : Nat) (loose : Loose t id) : links t id = 0 := by
  have notDefault : id ∉ t.defroute.toList := fun member => loose.notDefault (Option.mem_toList.mp member)
  unfold links
  rw [List.count_eq_zero_of_not_mem notDefault, List.count_eq_zero_of_not_mem (loose.unlinked _)]

theorem owners_le (held : List Nat) (t : Table) (linked : Linked t) (id : Nat) : owners held t id ≤ held.length + 1 := by
  have link := links_le_one t linked id
  have few := held.count_le_length (a := id)
  unfold owners
  omega

theorem counted_by_eq (owned owned' : Nat → Nat) (t : Table) (counted : CountedBy owned t)
    (same : ∀ id, owned' id = owned id) : CountedBy owned' t := by
  intro id some'
  rw [same] at some' ⊢
  exact counted id some'

-- Giving a route back lowers its counter, and frees it when nobody owns it any more.
theorem deref_counted_by (owned : Nat → Nat) (t : Table) (id k : Nat) (counted : CountedBy owned t)
    (count : owned id = k + 1) (small : k + 1 < 2 ^ 15) : CountedBy (Function.update owned id k) (routeDeref t id) := by
  obtain ⟨alive, refs⟩ := counted id (by omega)
  have lower : (decref (t.rt id)).refcnt = BitVec.ofNat 16 k := by
    change (t.rt id).refcnt - 1 = _
    rw [refs, count]
    rw [BitVec.ofNat_add]
    exact BitVec.add_sub_cancel _ _
  have above : (decref (t.rt id)).refcnt.toInt ≤ 0 ↔ k = 0 := by
    rw [lower, BitVec.toInt_eq_toNat_of_lt] <;> rw [BitVec.toNat_ofNat, Nat.mod_eq_of_lt (by omega)] <;> omega
  intro other owns
  by_cases same : other = id
  · subst same
    rw [Function.update_self] at owns ⊢
    unfold routeDeref
    dsimp only
    rw [if_neg (by rw [above]; omega)]
    exact ⟨alive, (congrArg Rt.refcnt (Function.update_self _ _ _)).trans lower⟩
  · rw [Function.update_of_ne same] at owns ⊢
    unfold routeDeref
    dsimp only
    split
    · refine ⟨?_, ?_⟩
      · exact (Function.update_of_ne same _ _).trans (counted other owns).1
      · exact (congrArg Rt.refcnt (Function.update_of_ne same _ _)).trans (counted other owns).2
    · exact ⟨(counted other owns).1, (congrArg Rt.refcnt (Function.update_of_ne same _ _)).trans (counted other owns).2⟩

theorem counted_perm (held held' : List Nat) (t : Table) (counted : Counted held t) (perm : held.Perm held') :
    Counted held' t := by
  refine ⟨counted.linked, fun id member => counted.old id (perm.mem_iff.mpr member), ?_⟩
  refine counted_by_eq _ _ t counted.counts fun id => ?_
  unfold owners
  rw [perm.count_eq]

theorem deref_counted (held : List Nat) (t : Table) (id : Nat) (counted : Counted (id :: held) t)
    (few : held.length + 2 < 2 ^ 15) : Counted held (routeDeref t id) := by
  have same := deref_same t id
  have count : owners (id :: held) t id = owners held t id + 1 := by
    unfold owners
    rw [List.count_cons_self]
    omega
  have bound := owners_le held t counted.linked id
  refine ⟨linked_same _ _ counted.linked same, ?_, ?_⟩
  · intro other member
    rw [same.fresh]
    exact counted.old other (List.mem_cons_of_mem _ member)
  · refine counted_by_eq _ _ _ (deref_counted_by _ t id _ counted.counts count (by omega)) fun other => ?_
    by_cases this : other = id
    · subst this
      rw [Function.update_self]
      unfold owners
      rw [links_same t _ same]
    · rw [Function.update_of_ne this]
      unfold owners
      rw [links_same t _ same, List.count_cons_of_ne (Ne.symm this)]

theorem scan_member (t : Table) (daddr : InAddr) (ids : List Nat) (netrt : Option Nat) (id : Nat)
    (found : routeScan t daddr ids netrt = some id) : id ∈ ids ∨ netrt = some id := by
  induction ids generalizing netrt with
  | nil => exact Or.inr found
  | cons first rest ih =>
      have later : ∀ netrt, routeScan t daddr rest netrt = some id → id ∈ first :: rest ∨ netrt = some id :=
        fun netrt found => (ih netrt found).imp_left (List.mem_cons_of_mem _)
      have this : ∀ netrt, some first = some id → id ∈ first :: rest ∨ netrt = some id := by
        rintro netrt ⟨rfl⟩
        exact Or.inl List.mem_cons_self
      rw [routeScan] at found
      by_cases up : usable (t.rt first)
      · rw [if_neg (not_not.mpr up)] at found
        by_cases fits : matchesAddr (t.rt first) daddr
        · rw [if_pos fits] at found
          by_cases host : (t.rt first).has RTF_HOST
          · rw [if_pos host] at found
            exact this _ found
          · rw [if_neg host] at found
            obtain member | same := later _ found
            · exact Or.inl member
            · exact this _ same
        · rw [if_neg fits] at found
          exact later _ found
      · rw [if_pos up] at found
        exact later _ found

theorem found_linked (t : Table) (linked : Linked t) (daddr : InAddr) (id : Nat) (found : routeFind t daddr = some id) :
    links t id = 1 ∧ id < t.fresh := by
  unfold routeFind at found
  obtain ⟨found, -⟩ := Option.filter_eq_some_iff.mp found
  obtain scanned | ⟨-, isDefault⟩ := Option.or_eq_some_iff.mp found
  · obtain member | none' := scan_member t daddr _ none id scanned
    · exact ⟨links_in_bucket t linked _ id member, linked.old _ id member⟩
    · cases none'
  · exact ⟨links_default t linked id isDefault, linked.defOld id isDefault⟩

-- A route that is fetched gets one more owner.
theorem get_counted (held : List Nat) (t : Table) (daddr : InAddr) (id : Nat) (counted : Counted held t)
    (found : (routeGet t daddr).1 = some id) : Counted (id :: held) (routeGet t daddr).2 := by
  have same := get_same t daddr
  unfold routeGet at found same ⊢
  cases there : routeFind t daddr with
  | none =>
      rw [there] at found
      cases found
  | some id' =>
      rw [there] at found same
      cases found
      obtain ⟨link, old⟩ := found_linked t counted.linked daddr id there
      refine ⟨linked_same _ _ counted.linked same, ?_, ?_⟩
      · intro other member
        rw [same.fresh]
        obtain rfl | member := List.mem_cons.mp member
        · exact old
        · exact counted.old other member
      · intro other owns
        unfold owners at owns ⊢
        rw [links_same t _ same] at owns ⊢
        dsimp only [Table.setRt] at owns ⊢
        by_cases this : other = id
        · subst this
          obtain ⟨alive, refs⟩ := counted.counts other (by unfold owners; omega)
          refine ⟨alive, ?_⟩
          rw [Function.update_self, List.count_cons_self]
          change (t.rt other).refcnt + 1 = _
          rw [refs, ← Nat.add_assoc, BitVec.ofNat_add]
          rfl
        · rw [List.count_cons_of_ne (Ne.symm this)] at owns ⊢
          rw [Function.update_of_ne this]
          exact counted.counts other owns

theorem get_none_counted (held : List Nat) (t : Table) (daddr : InAddr) (counted : Counted held t)
    (missed : (routeGet t daddr).1 = none) : Counted held (routeGet t daddr).2 := by
  unfold routeGet at missed ⊢
  cases there : routeFind t daddr with
  | none => exact counted
  | some id =>
      rw [there] at missed
      cases missed

-- A new route is owned by the one who makes it.
theorem alloc_counted (held : List Nat) (t : Table) (rt : Rt) (counted : Counted held t) (one : rt.refcnt = 1) :
    Counted (t.fresh :: held) (t.alloc rt) := by
  have linked := counted.linked
  have linked' := linked_alloc t rt linked
  have new : held.count t.fresh = 0 := List.count_eq_zero_of_not_mem fun member => Nat.lt_irrefl _ (counted.old _ member)
  have loose := links_loose _ _ (alloc_loose t rt linked)
  refine ⟨linked', ?_, ?_⟩
  · intro id member
    obtain rfl | member := List.mem_cons.mp member
    · exact Nat.lt_succ_self _
    · exact Nat.lt_succ_of_lt (counted.old id member)
  · intro id owns
    by_cases this : id = t.fresh
    · subst this
      unfold owners
      rw [loose, List.count_cons_self, new]
      exact ⟨Function.update_self _ _ _, (congrArg Rt.refcnt (Function.update_self _ _ _)).trans one⟩
    · have same : owners (t.fresh :: held) (t.alloc rt) id = owners held t id := by
        unfold owners links
        rw [List.count_cons_of_ne (Ne.symm this)]
        dsimp only [Table.alloc]
        rw [Function.update_of_ne this]
      rw [same] at owns ⊢
      obtain ⟨alive, refs⟩ := counted.counts id owns
      exact ⟨(Function.update_of_ne this _ _).trans alive, (congrArg Rt.refcnt (Function.update_of_ne this _ _)).trans refs⟩

-- A route that never got linked is given back without counting.
theorem kfree_counted (held : List Nat) (t : Table) (id : Nat) (counted : Counted (id :: held) t) (loose : links t id = 0)
    (alone : id ∉ held) : Counted held (kfree t id) := by
  refine ⟨linked_kfree t id counted.linked, fun other member => counted.old other (List.mem_cons_of_mem _ member), ?_⟩
  intro other owns
  by_cases this : other = id
  · subst this
    have none' : owners held t other = 0 := by
      unfold owners
      rw [loose, List.count_eq_zero_of_not_mem alone]
    exact absurd none' (Nat.ne_of_gt owns)
  · have same : owners (id :: held) t other = owners held t other := by
      unfold owners
      rw [List.count_cons_of_ne (Ne.symm this)]
    obtain ⟨alive, refs⟩ := counted.counts other (by rw [same]; exact owns)
    rw [same] at refs
    exact ⟨(Function.update_of_ne this _ _).trans alive, refs⟩

theorem links_set_defroute (t : Table) (defroute : Option Nat) (id : Nat) :
    links (t.setDefroute defroute) id + t.defroute.toList.count id = links t id + defroute.toList.count id := by
  unfold links
  dsimp only [Table.setDefroute]
  omega

theorem links_set_bucket (t : Table) (linked : Linked t) (b : BitVec 8) (ids : List Nat)
    (hashed : ∀ id ∈ ids, routeHash (t.rt id).net = b) (id : Nat) :
    links (t.setBucket b ids) id + (t.allroutes b).count id = links t id + ids.count id := by
  unfold links
  dsimp only [Table.setBucket]
  by_cases here : routeHash (t.rt id).net = b
  · rw [here, Function.update_self]
    omega
  · have gone : (t.allroutes b).count id = 0 :=
      List.count_eq_zero_of_not_mem fun member => here (linked.hashed b id member)
    have absent : ids.count id = 0 := List.count_eq_zero_of_not_mem fun member => here (hashed id member)
    rw [Function.update_of_ne here, gone, absent]

-- The owners of a route after one of them has given it back.
theorem deref?_counted_by (owned : Nat → Nat) (t : Table) (id : Option Nat) (counted : CountedBy owned t)
    (isOwner : ∀ i, id = some i → 0 < owned i) (small : ∀ i, owned i < 2 ^ 15) :
    CountedBy (fun i => owned i - id.toList.count i) (routeDeref? t id) := by
  cases id with
  | none => exact counted
  | some id =>
      have some' := isOwner id rfl
      have fits := small id
      refine counted_by_eq _ _ _ (deref_counted_by owned t id (owned id - 1) counted (by omega) (by omega)) fun i => ?_
      rw [Option.toList_some]
      by_cases same : i = id
      · subst same
        rw [Function.update_self, List.count_singleton_self]
      · rw [Function.update_of_ne same, List.count_eq_zero_of_not_mem (by simpa using same), Nat.sub_zero]

theorem count_first (i x : Nat) (l : List Nat) : (x :: l).count i = [x].count i + l.count i := by
  rw [← List.count_append]
  rfl

theorem link_counted (held : List Nat) (t : Table) (newrt : Nat) (new : NewRt) (counted : Counted (newrt :: held) t)
    (loose : Loose t newrt) (net : (t.rt newrt).net = new.net) (alone : newrt ∉ held) (few : held.length + 3 < 2 ^ 15) :
    Counted held (routeLink t newrt new).2 := by
  have linked := counted.linked
  have linked' := link_linked t newrt new linked loose net
  have bound := owners_le (newrt :: held) t linked
  have small : ∀ i, owners (newrt :: held) t i < 2 ^ 15 := fun i => by
    have := bound i
    rw [List.length_cons] at this
    omega
  have old : ∀ i ∈ held, i < t.fresh := fun i member => counted.old i (List.mem_cons_of_mem _ member)
  unfold routeLink at linked' ⊢
  by_cases any : new.net = INADDR_ANY
  · rw [if_pos any] at linked' ⊢
    have same := deref?_same t t.defroute
    have lowered := deref?_counted_by _ t t.defroute counted.counts (fun i found => by
      unfold owners
      rw [links_default t linked i found]
      omega) small
    refine ⟨linked', fun i member => same.fresh.symm ▸ old i member, counted_by_eq _ _ _ lowered fun i => ?_⟩
    have link := links_set_defroute (routeDeref? t t.defroute) (some newrt) i
    rw [same.defroute, links_same _ _ same, Option.toList_some] at link
    dsimp only
    unfold owners
    rw [count_first]
    omega
  rw [if_neg any] at linked' ⊢
  dsimp only at linked' ⊢
  cases split : splitBucket t new.net new.mask (t.allroutes (routeHash new.net)) with
  | mk before after =>
      have whole := span_bucket t _ _ _ _ _ split
      rw [split] at linked'
      have hashed : ∀ i ∈ before ++ after, routeHash (t.rt i).net = routeHash new.net := fun i member =>
        linked.hashed _ i (whole ▸ member)
      cases after with
      | nil =>
          dsimp only at linked' ⊢
          rw [List.append_nil] at whole hashed
          refine ⟨linked', old, counted_by_eq _ _ _ counted.counts fun i => ?_⟩
          have link := links_set_bucket t linked (routeHash new.net) (before ++ [newrt]) (by
            intro i member
            obtain member | same := List.mem_append.mp member
            · exact hashed i member
            · rw [List.mem_singleton.mp same, net]) i
          rw [whole, List.count_append] at link
          unfold owners
          rw [count_first]
          omega
      | cons rt after =>
          dsimp only at linked' ⊢
          split_ifs at linked' ⊢
          · exact kfree_counted held t newrt counted (links_loose t newrt loose) alone
          · have same := deref_same t rt
            have rtLink := links_in_bucket t linked (routeHash new.net) rt (whole ▸ List.mem_append_right _ List.mem_cons_self)
            have lowered := deref?_counted_by _ t (some rt) counted.counts (fun i found => by
              cases found
              unfold owners
              omega) small
            refine ⟨linked', fun i member => same.fresh.symm ▸ old i member, counted_by_eq _ _ _ lowered fun i => ?_⟩
            have link := links_set_bucket (routeDeref t rt) (linked_same _ _ linked same) (routeHash new.net)
              (before ++ newrt :: after) (by
                intro i member
                rw [same.net]
                obtain member | member := List.mem_append.mp member
                · exact hashed i (List.mem_append_left _ member)
                · obtain rfl | member := List.mem_cons.mp member
                  · rw [net]
                  · exact hashed i (List.mem_append_right _ (List.mem_cons_of_mem _ member))) i
            rw [same.allroutes, whole, links_same _ _ same, List.count_append, List.count_append,
              count_first i rt, count_first i newrt] at link
            dsimp only
            unfold owners
            rw [count_first, Option.toList_some]
            omega

theorem add_counted (held : List Nat) (kmalloc : Bool) (t : Table) (new : NewRt) (counted : Counted held t)
    (few : held.length + 3 < 2 ^ 15) : Counted held (routeAdd kmalloc t new).2 := by
  have given := alloc_counted held t (newRt new) counted rfl
  have loose := alloc_loose t (newRt new) counted.linked
  have alone : t.fresh ∉ held := fun member => Nat.lt_irrefl _ (counted.old _ member)
  unfold routeAdd routeAlloc
  split_ifs with memory gateway
  · exact kfree_counted held _ _ given (links_loose _ _ loose) alone
  · refine link_counted held _ _ new given loose ?_ alone few
    dsimp only [Table.alloc]
    rw [Function.update_self]
    rfl
  · exact counted

theorem unlink_all_counted (gone : Rt → Bool) (ids : List Nat) (t : Table) (owned : Nat → Nat)
    (counted : CountedBy owned t) (owners' : ∀ i, ids.count i ≤ owned i) (small : ∀ i, owned i < 2 ^ 15) :
    CountedBy (fun i => owned i + (unlinkAll gone ids t).1.count i - ids.count i) (unlinkAll gone ids t).2 := by
  induction ids generalizing t owned with
  | nil => exact counted_by_eq _ _ _ counted fun i => by rw [unlinkAll]; rfl
  | cons id rest ih =>
      rw [unlinkAll]
      split
      · have lowered := deref?_counted_by owned t (some id) counted (fun i found => by
          cases found
          have first := owners' id
          rw [List.count_cons_self] at first
          omega) small
        rw [Option.toList_some] at lowered
        refine counted_by_eq _ _ _ (ih _ _ lowered ?_ ?_) fun i => ?_
        · intro i
          have first := owners' i
          rw [count_first] at first
          omega
        · intro i
          have := small i
          omega
        · have first := owners' i
          rw [count_first] at first ⊢
          omega
      · refine counted_by_eq _ _ _ (ih t owned counted ?_ small) fun i => ?_
        · intro i
          have first := owners' i
          rw [count_first] at first
          omega
        · dsimp only
          rw [count_first i id rest, count_first i id (unlinkAll gone rest t).1]
          omega

theorem sweep_counted (held : List Nat) (gone : Rt → Bool) (t : Table) (b : BitVec 8) (counted : Counted held t)
    (few : held.length + 3 < 2 ^ 15) : Counted held (sweep gone t b) := by
  have linked := counted.linked
  obtain ⟨within, same⟩ := unlink_all_spec gone (t.allroutes b) t
  have isOwner : ∀ i, (t.allroutes b).count i ≤ owners held t i := by
    intro i
    by_cases member : i ∈ t.allroutes b
    · have once := List.nodup_iff_count_le_one.mp (linked.once b) i
      have link := links_in_bucket t linked b i member
      unfold owners
      omega
    · rw [List.count_eq_zero_of_not_mem member]
      exact Nat.zero_le _
  have lowered := unlink_all_counted gone (t.allroutes b) t _ counted.counts isOwner fun i => by
    have := owners_le held t linked i
    omega
  refine ⟨sweep_linked gone t b linked, ?_, counted_by_eq _ _ _ lowered fun i => ?_⟩
  · intro i member
    exact same.fresh.symm ▸ counted.old i member
  · have link := links_set_bucket (unlinkAll gone (t.allroutes b) t).2 (linked_same _ _ linked same) b
      (unlinkAll gone (t.allroutes b) t).1 (by
        intro i member
        rw [same.net]
        exact linked.hashed b i (within.subset member)) i
    have enough := isOwner i
    rw [same.allroutes, links_same _ _ same] at link
    unfold owners at enough ⊢
    dsimp only [sweep]
    omega

theorem drop_default_counted (held : List Nat) (t : Table) (id : Nat) (counted : Counted held t)
    (isDefault : t.defroute = some id) (few : held.length + 3 < 2 ^ 15) :
    Counted held ((routeDeref t id).setDefroute none) := by
  have linked := counted.linked
  have same := deref_same t id
  have lowered := deref?_counted_by _ t (some id) counted.counts (fun i found => by
    cases found
    unfold owners
    rw [links_default t linked id isDefault]
    omega) fun i => by
      have := owners_le held t linked i
      omega
  refine ⟨drop_default_linked t id linked, fun i member => same.fresh.symm ▸ counted.old i member,
    counted_by_eq _ _ _ lowered fun i => ?_⟩
  have link := links_set_defroute (routeDeref t id) none i
  rw [same.defroute, links_same _ _ same, isDefault, Option.toList_none, List.count_nil] at link
  unfold owners
  omega

theorem del_counted (held : List Nat) (t : Table) (net mask : InAddr) (counted : Counted held t)
    (few : held.length + 3 < 2 ^ 15) : Counted held (routeDel t net mask) := by
  unfold routeDel
  split
  · rename_i default'
    obtain ⟨id, found⟩ := Option.isSome_iff_exists.mp default'.1
    rw [found]
    exact drop_default_counted held t id counted found few
  · exact sweep_counted held _ t _ counted few

theorem flush_counted (held : List Nat) (t : Table) (nif : Nat) (counted : Counted held t)
    (few : held.length + 3 < 2 ^ 15) : Counted held (routeFlush t nif) := by
  have all : ∀ (bs : List (BitVec 8)) (t : Table), Counted held t →
      Counted held (bs.foldl (sweep fun rt => decide (rt.nif = nif) && !decide (rt.has RTF_LOCAL)) t) := by
    intro bs
    induction bs with
    | nil => exact fun t counted => counted
    | cons b bs ih => exact fun t counted => ih _ (sweep_counted held _ t b counted few)
  refine all _ _ ?_
  cases found : t.defroute with
  | none => exact counted
  | some id =>
      dsimp only
      split
      · exact drop_default_counted held t id counted found few
      · exact counted

theorem init_counted : Counted [] Table.init := by
  refine ⟨init_linked, fun id member => (List.not_mem_nil member).elim, fun id owns => ?_⟩
  have none' : owners [] Table.init id = 0 := rfl
  omega

-- A flag does not count.
theorem reject_counted (held : List Nat) (t : Table) (id : Nat) (counted : Counted held t) :
    Counted held (setReject t id) := by
  have same : SameLinks t (setReject t id) := set_rt_same t id _ rfl
  refine ⟨linked_same _ _ counted.linked same, counted.old, ?_⟩
  intro other owns
  have eq : owners held (setReject t id) other = owners held t other := by
    unfold owners
    rw [links_same _ _ same]
  rw [eq] at owns ⊢
  obtain ⟨alive, refs⟩ := counted.counts other owns
  refine ⟨alive, ?_⟩
  dsimp only [setReject, Table.setRt]
  by_cases this : other = id
  · subst this
    rw [Function.update_self]
    exact refs
  · rw [Function.update_of_ne this]
    exact refs

end MagxNet.Route
