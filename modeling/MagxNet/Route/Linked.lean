import MagxNet.Route.Table

set_option autoImplicit false

namespace MagxNet.Route

-- Every route is linked once: in the bucket that its net hashes to, or as the default.
structure Linked (t : Table) : Prop where
  hashed : ∀ b, ∀ id ∈ t.allroutes b, routeHash (t.rt id).net = b
  old : ∀ b, ∀ id ∈ t.allroutes b, id < t.fresh
  once : ∀ b, (t.allroutes b).Nodup
  defOld : ∀ id, t.defroute = some id → id < t.fresh
  defOnly : ∀ id, t.defroute = some id → ∀ b, id ∉ t.allroutes b

-- Counters, flags and what is given back do not matter to the links.
structure SameLinks (t t' : Table) : Prop where
  allroutes : t'.allroutes = t.allroutes
  defroute : t'.defroute = t.defroute
  fresh : t'.fresh = t.fresh
  net : ∀ id, (t'.rt id).net = (t.rt id).net

theorem same_links_refl (t : Table) : SameLinks t t := ⟨rfl, rfl, rfl, fun _ => rfl⟩

theorem same_links_trans (t t' t'' : Table) (first : SameLinks t t') (second : SameLinks t' t'') : SameLinks t t'' :=
  ⟨second.allroutes.trans first.allroutes, second.defroute.trans first.defroute, second.fresh.trans first.fresh,
    fun id => (second.net id).trans (first.net id)⟩

theorem linked_same (t t' : Table) (linked : Linked t) (same : SameLinks t t') : Linked t' := by
  constructor
  · intro b id member
    rw [same.net]
    exact linked.hashed b id (same.allroutes ▸ member)
  · intro b id member
    rw [same.fresh]
    exact linked.old b id (same.allroutes ▸ member)
  · intro b
    rw [same.allroutes]
    exact linked.once b
  · intro id found
    rw [same.fresh]
    exact linked.defOld id (same.defroute ▸ found)
  · intro id found b
    rw [same.allroutes]
    exact linked.defOnly id (same.defroute ▸ found) b

theorem set_rt_same (t : Table) (id : Nat) (rt : Rt) (net : rt.net = (t.rt id).net) : SameLinks t (t.setRt id rt) := by
  refine ⟨rfl, rfl, rfl, fun other => ?_⟩
  dsimp only [Table.setRt]
  by_cases same : other = id
  · rw [same, Function.update_self, net]
  · rw [Function.update_of_ne same]

theorem deref_same (t : Table) (id : Nat) : SameLinks t (routeDeref t id) := by
  have counted := set_rt_same t id (decref (t.rt id)) rfl
  unfold routeDeref
  dsimp only
  split
  · exact ⟨counted.allroutes, counted.defroute, counted.fresh, counted.net⟩
  · exact counted

theorem deref?_same (t : Table) (id : Option Nat) : SameLinks t (routeDeref? t id) := by
  cases id with
  | none => exact same_links_refl t
  | some id => exact deref_same t id

theorem get_same (t : Table) (daddr : InAddr) : SameLinks t (routeGet t daddr).2 := by
  unfold routeGet
  split
  · exact set_rt_same t _ _ rfl
  · exact same_links_refl t

theorem linked_set_defroute (t : Table) (defroute : Option Nat) (linked : Linked t)
    (old : ∀ id, defroute = some id → id < t.fresh) (only : ∀ id, defroute = some id → ∀ b, id ∉ t.allroutes b) :
    Linked (t.setDefroute defroute) :=
  ⟨linked.hashed, linked.old, linked.once, old, only⟩

theorem linked_set_bucket (t : Table) (b : BitVec 8) (ids : List Nat) (linked : Linked t) (once : ids.Nodup)
    (members : ∀ id ∈ ids, id ∈ t.allroutes b
      ∨ routeHash (t.rt id).net = b ∧ id < t.fresh ∧ t.defroute ≠ some id) : Linked (t.setBucket b ids) := by
  have elsewhere : ∀ c, c ≠ b → (t.setBucket b ids).allroutes c = t.allroutes c := fun c other =>
    Function.update_of_ne other _ _
  have here : (t.setBucket b ids).allroutes b = ids := Function.update_self _ _ _
  constructor
  · intro c id member
    by_cases same : c = b
    · subst same
      obtain there | ⟨hash, -⟩ := members id (here ▸ member)
      · exact linked.hashed c id there
      · exact hash
    · exact linked.hashed c id (elsewhere c same ▸ member)
  · intro c id member
    by_cases same : c = b
    · subst same
      obtain there | ⟨-, old, -⟩ := members id (here ▸ member)
      · exact linked.old c id there
      · exact old
    · exact linked.old c id (elsewhere c same ▸ member)
  · intro c
    by_cases same : c = b
    · subst same
      rw [here]
      exact once
    · rw [elsewhere c same]
      exact linked.once c
  · exact linked.defOld
  · intro id found c
    by_cases same : c = b
    · subst same
      rw [here]
      intro member
      obtain there | ⟨-, -, other⟩ := members id member
      · exact linked.defOnly id found c there
      · exact other found
    · rw [elsewhere c same]
      exact linked.defOnly id found c

theorem linked_alloc (t : Table) (rt : Rt) (linked : Linked t) : Linked (t.alloc rt) := by
  constructor
  · intro b id member
    have old := linked.old b id member
    dsimp only [Table.alloc]
    rw [Function.update_of_ne (Nat.ne_of_lt old)]
    exact linked.hashed b id member
  · intro b id member
    exact Nat.lt_succ_of_lt (linked.old b id member)
  · exact linked.once
  · intro id found
    exact Nat.lt_succ_of_lt (linked.defOld id found)
  · exact linked.defOnly

theorem linked_kfree (t : Table) (id : Nat) (linked : Linked t) : Linked (kfree t id) :=
  ⟨linked.hashed, linked.old, linked.once, linked.defOld, linked.defOnly⟩

-- A route that is there and not linked yet.
structure Loose (t : Table) (id : Nat) : Prop where
  old : id < t.fresh
  unlinked : ∀ b, id ∉ t.allroutes b
  notDefault : t.defroute ≠ some id

theorem alloc_loose (t : Table) (rt : Rt) (linked : Linked t) : Loose (t.alloc rt) t.fresh :=
  ⟨Nat.lt_succ_self _, fun b member => Nat.lt_irrefl _ (linked.old b _ member),
    fun found => Nat.lt_irrefl _ (linked.defOld _ found)⟩

theorem span_bucket (t : Table) (net mask : InAddr) (ids before after : List Nat)
    (split : splitBucket t net mask ids = (before, after)) : ids = before ++ after := by
  have whole := List.span_eq_takeWhile_dropWhile (p := fun id => !decide (sameRoute (t.rt id) net mask)) (l := ids)
  rw [splitBucket, whole] at split
  rw [← (Prod.mk.inj split).1, ← (Prod.mk.inj split).2, List.takeWhile_append_dropWhile]

theorem link_linked (t : Table) (newrt : Nat) (new : NewRt) (linked : Linked t) (loose : Loose t newrt)
    (net : (t.rt newrt).net = new.net) : Linked (routeLink t newrt new).2 := by
  unfold routeLink
  by_cases any : new.net = INADDR_ANY
  · rw [if_pos any]
    have released := deref?_same t t.defroute
    refine linked_set_defroute _ _ (linked_same _ _ linked released) ?_ ?_
    · rintro id ⟨rfl⟩
      rw [released.fresh]
      exact loose.old
    · rintro id ⟨rfl⟩ b
      rw [released.allroutes]
      exact loose.unlinked b
  rw [if_neg any]
  dsimp only
  cases split : splitBucket t new.net new.mask (t.allroutes (routeHash new.net)) with
  | mk before after =>
      have whole := span_bucket t _ _ _ _ _ split
      have once := linked.once (routeHash new.net)
      have apart := loose.unlinked (routeHash new.net)
      rw [whole] at once apart
      cases after with
      | nil =>
          rw [List.append_nil] at whole once apart
          refine linked_set_bucket t _ _ linked (List.nodup_append.mpr ⟨once, List.nodup_singleton _, ?_⟩) ?_
          · intro id member other there
            rw [List.mem_singleton.mp there]
            exact fun same => apart (same ▸ member)
          · intro id member
            obtain member | same := List.mem_append.mp member
            · exact Or.inl (whole ▸ member)
            · rw [List.mem_singleton.mp same]
              exact Or.inr ⟨by rw [net], loose.old, loose.notDefault⟩
      | cons rt after =>
          dsimp only
          split_ifs
          · exact linked_kfree t newrt linked
          · have released := deref_same t rt
            have pieces := List.nodup_append.mp once
            have behind := List.nodup_cons.mp pieces.2.1
            refine linked_set_bucket _ _ _ (linked_same _ _ linked released) ?_ ?_
            · refine List.nodup_append.mpr ⟨pieces.1, List.nodup_cons.mpr ⟨?_, behind.2⟩, ?_⟩
              · exact fun member => apart (List.mem_append_right _ (List.mem_cons_of_mem _ member))
              · intro id member other there
                obtain rfl | there := List.mem_cons.mp there
                · exact fun same => apart (List.mem_append_left _ (same ▸ member))
                · exact pieces.2.2 id member other (List.mem_cons_of_mem _ there)
            · intro id member
              rw [released.allroutes, released.fresh, released.defroute, released.net, whole]
              obtain member | member := List.mem_append.mp member
              · exact Or.inl (List.mem_append_left _ member)
              · obtain rfl | member := List.mem_cons.mp member
                · exact Or.inr ⟨by rw [net], loose.old, loose.notDefault⟩
                · exact Or.inl (List.mem_append_right _ (List.mem_cons_of_mem _ member))

theorem add_linked (kmalloc : Bool) (t : Table) (new : NewRt) (linked : Linked t) :
    Linked (routeAdd kmalloc t new).2 := by
  unfold routeAdd routeAlloc
  split_ifs with memory gateway
  · exact linked_kfree _ _ (linked_alloc t _ linked)
  · refine link_linked _ _ new (linked_alloc t _ linked) (alloc_loose t _ linked) ?_
    dsimp only [Table.alloc]
    rw [Function.update_self]
    rfl
  · exact linked

theorem unlink_all_spec (gone : Rt → Bool) (ids : List Nat) (t : Table) :
    (unlinkAll gone ids t).1.Sublist ids ∧ SameLinks t (unlinkAll gone ids t).2 := by
  induction ids generalizing t with
  | nil => exact ⟨List.Sublist.refl _, same_links_refl t⟩
  | cons id rest ih =>
      rw [unlinkAll]
      split
      · obtain ⟨within, same⟩ := ih (routeDeref t id)
        exact ⟨within.cons id, same_links_trans _ _ _ (deref_same t id) same⟩
      · obtain ⟨within, same⟩ := ih t
        exact ⟨within.cons_cons id, same⟩

theorem sweep_linked (gone : Rt → Bool) (t : Table) (b : BitVec 8) (linked : Linked t) : Linked (sweep gone t b) := by
  obtain ⟨within, same⟩ := unlink_all_spec gone (t.allroutes b) t
  refine linked_set_bucket _ _ _ (linked_same _ _ linked same) ((linked.once b).sublist within) ?_
  intro id member
  rw [same.allroutes]
  exact Or.inl (within.subset member)

theorem drop_default_linked (t : Table) (id : Nat) (linked : Linked t) :
    Linked ((routeDeref t id).setDefroute none) :=
  linked_set_defroute _ _ (linked_same _ _ linked (deref_same t id)) (fun _ found => by cases found)
    (fun _ found => by cases found)

theorem del_linked (t : Table) (net mask : InAddr) (linked : Linked t) : Linked (routeDel t net mask) := by
  unfold routeDel
  split
  · rename_i default'
    obtain ⟨id, found⟩ := Option.isSome_iff_exists.mp default'.1
    rw [found]
    exact drop_default_linked t id linked
  · exact sweep_linked _ t _ linked

theorem flush_linked (t : Table) (nif : Nat) (linked : Linked t) : Linked (routeFlush t nif) := by
  have all : ∀ (bs : List (BitVec 8)) (t : Table), Linked t →
      Linked (bs.foldl (sweep fun rt => decide (rt.nif = nif) && !decide (rt.has RTF_LOCAL)) t) := by
    intro bs
    induction bs with
    | nil => exact fun t linked => linked
    | cons b bs ih => exact fun t linked => ih _ (sweep_linked _ t b linked)
  refine all _ _ ?_
  cases found : t.defroute with
  | none => exact linked
  | some id =>
      dsimp only
      split
      · exact drop_default_linked t id linked
      · exact linked

theorem init_linked : Linked Table.init := by
  constructor <;> simp [Table.init]

end MagxNet.Route
