import MagxNet.Route.Lookup
import MagxNet.Route.Forward

set_option autoImplicit false

namespace MagxNet.Route

open Bytes
open Ip (iphSaddr iphDaddr)

-- What a lookup reads of a route.
def look (rt : Rt) : InAddr × InAddr × InAddr × Short × Short := (rt.net, rt.mask, rt.gway, rt.ttl, rt.flags)

theorem look_same {α : Type} (f : Rt → α) (rt rt' : Rt) (same : look rt' = look rt)
    (blind : ∀ x, f ⟨x.net, x.mask, x.gway, 0, 0, x.ttl, x.flags, 0, 0⟩ = f x) : f rt' = f rt := by
  obtain ⟨net, mask, gway, ttl, flags⟩ : rt'.net = rt.net ∧ rt'.mask = rt.mask ∧ rt'.gway = rt.gway ∧ rt'.ttl = rt.ttl
      ∧ rt'.flags = rt.flags := by simpa [look] using same
  rw [← blind rt', ← blind rt, net, mask, gway, ttl, flags]

-- The same routes in the same places, whoever uses them.
structure SameRouting (t t' : Table) : Prop where
  links : SameLinks t t'
  look : ∀ id, look (t'.rt id) = look (t.rt id)

theorem same_routing_refl (t : Table) : SameRouting t t := ⟨same_links_refl t, fun _ => rfl⟩

theorem same_routing_trans (t t' t'' : Table) (first : SameRouting t t') (second : SameRouting t' t'') : SameRouting t t'' :=
  ⟨same_links_trans _ _ _ first.links second.links, fun id => (second.look id).trans (first.look id)⟩

theorem set_rt_look (t : Table) (id : Nat) (rt : Rt) (same : look rt = look (t.rt id)) (other : Nat) :
    look ((t.setRt id rt).rt other) = look (t.rt other) := by
  dsimp only [Table.setRt]
  by_cases here : other = id
  · rw [here, Function.update_self, same]
  · rw [Function.update_of_ne here]

theorem get_routing (t : Table) (daddr : InAddr) : SameRouting t (routeGet t daddr).2 := by
  refine ⟨get_same t daddr, fun id => ?_⟩
  unfold routeGet
  split
  · rename_i found _
    exact set_rt_look t found (incref (t.rt found)) rfl id
  · rfl

theorem deref_routing (t : Table) (id : Nat) : SameRouting t (routeDeref t id) := by
  refine ⟨deref_same t id, fun other => ?_⟩
  unfold routeDeref
  dsimp only
  split <;> exact set_rt_look t id (decref (t.rt id)) rfl other

theorem probe_routing {α : Type} (node : Node) (daddr : InAddr) (see : Rt → α) :
    SameRouting node.table (probe node daddr see).2.table ∧ (probe node daddr see).2.calls = node.calls := by
  have got := get_routing node.table daddr
  unfold probe get
  generalize (routeGet node.table daddr).2 = t at got
  cases (routeGet node.table daddr).1 with
  | none => exact ⟨got, rfl⟩
  | some rt => exact ⟨same_routing_trans _ _ _ got (deref_routing t rt), rfl⟩

section Scan

variable (t t' : Table) (daddr : InAddr)

theorem scan_look (ids : List Nat) (same : ∀ id ∈ ids, look (t'.rt id) = look (t.rt id)) (netrt : Option Nat) :
    routeScan t' daddr ids netrt = routeScan t daddr ids netrt := by
  induction ids generalizing netrt with
  | nil => rfl
  | cons id rest ih =>
      have here := same id List.mem_cons_self
      have up : usable (t'.rt id) = usable (t.rt id) := look_same usable _ _ here fun _ => rfl
      have fits : matchesAddr (t'.rt id) daddr = matchesAddr (t.rt id) daddr :=
        look_same (fun rt => matchesAddr rt daddr) _ _ here fun _ => rfl
      have host : (t'.rt id).has RTF_HOST = (t.rt id).has RTF_HOST := look_same (fun rt => rt.has RTF_HOST) _ _ here fun _ => rfl
      have later := ih fun other member => same other (List.mem_cons_of_mem id member)
      simp only [routeScan, up, fits, host, later]

-- A route that is not up is passed over.
theorem scan_down (before after : List Nat) (id : Nat) (down : ¬ usable (t.rt id)) (netrt : Option Nat) :
    routeScan t daddr (before ++ id :: after) netrt = routeScan t daddr (before ++ after) netrt := by
  induction before generalizing netrt with
  | nil => rw [List.nil_append, List.nil_append, routeScan, if_pos down]
  | cons other before ih => simp only [List.cons_append, routeScan, ih]

end Scan

-- The table t' is t with one more route, which is not up.
structure Extends (t t' : Table) (newrt : Nat) : Prop where
  look : ∀ id, id ≠ newrt → look (t'.rt id) = look (t.rt id)
  down : Installed t' newrt → ¬ (t'.rt newrt).has RTF_UP
  bucket : ∀ b, t'.allroutes b = t.allroutes b
    ∨ ∃ before after, t.allroutes b = before ++ after ∧ t'.allroutes b = before ++ newrt :: after
  default : t'.defroute = t.defroute ∨ t.defroute = none ∧ t'.defroute = some newrt
  apart : ¬ Installed t newrt

section Extended

variable (t t' : Table) (newrt : Nat) (extends' : Extends t t' newrt)

include extends'

theorem extends_bucket_look (b : BitVec 8) (id : Nat) (member : id ∈ t.allroutes b) : look (t'.rt id) = look (t.rt id) :=
  extends'.look id fun same => extends'.apart (Or.inl ⟨b, same ▸ member⟩)

theorem extends_scan (daddr : InAddr) :
    routeScan t' daddr (t'.allroutes (routeHash daddr)) none = routeScan t daddr (t.allroutes (routeHash daddr)) none := by
  have same := extends_bucket_look t t' newrt extends' (routeHash daddr)
  obtain kept | ⟨before, after, whole, more⟩ := extends'.bucket (routeHash daddr)
  · rw [kept]
    exact scan_look t t' daddr _ same none
  · have down : ¬ usable (t'.rt newrt) := by
      intro up
      refine extends'.down (Or.inl ⟨routeHash daddr, ?_⟩) up.2
      rw [more]
      exact List.mem_append_right before List.mem_cons_self
    rw [more, scan_down t' daddr before after newrt down, whole]
    exact scan_look t t' daddr _ (fun id member => same id (by rw [whole]; exact member)) none

theorem extends_find (daddr : InAddr) :
    routeFind t' daddr = routeFind t daddr ∧ ∀ id, routeFind t daddr = some id → look (t'.rt id) = look (t.rt id) := by
  have scan := extends_scan t t' newrt extends' daddr
  have inside : ∀ id, (routeScan t daddr (t.allroutes (routeHash daddr)) none).or t.defroute = some id →
      look (t'.rt id) = look (t.rt id) := by
    intro id found
    obtain found | ⟨-, isDefault⟩ := Option.or_eq_some_iff.mp found
    · obtain member | nothing := scan_member t daddr _ none id found
      · exact extends_bucket_look t t' newrt extends' _ id member
      · cases nothing
    · exact extends'.look id fun same => extends'.apart (Or.inr (same ▸ isDefault))
  have up : ∀ id, look (t'.rt id) = look (t.rt id) → (t'.rt id).has RTF_UP = (t.rt id).has RTF_UP := fun id same =>
    look_same (fun rt => rt.has RTF_UP) _ _ same fun _ => rfl
  refine ⟨?_, fun id found => inside id (Option.filter_eq_some_iff.mp found).1⟩
  unfold routeFind
  rw [scan]
  obtain kept | ⟨none', added⟩ := extends'.default
  · rw [kept]
    cases best : (routeScan t daddr (t.allroutes (routeHash daddr)) none).or t.defroute with
    | none => rfl
    | some id =>
        have same := up id (inside id best)
        simp only [Option.filter_some, same]
  · rw [none', added]
    cases best : routeScan t daddr (t.allroutes (routeHash daddr)) none with
    | none =>
        have down : ¬ (t'.rt newrt).has RTF_UP := extends'.down (Or.inr added)
        simp [down]
    | some id =>
        have same := up id (inside id (by rw [best]; rfl))
        simp only [Option.some_or, Option.filter_some, same]

theorem extends_member (id : Nat) (other : id ≠ newrt) : (∃ b, id ∈ t'.allroutes b) ↔ ∃ b, id ∈ t.allroutes b := by
  refine exists_congr fun b => ?_
  obtain kept | ⟨before, after, whole, more⟩ := extends'.bucket b
  · rw [kept]
  · rw [whole, more]
    simp [other]

theorem extends_host_route (daddr : InAddr) : (∃ id, HostRoute t' daddr id) ↔ ∃ id, HostRoute t daddr id := by
  have same : ∀ id, id ≠ newrt → (HostRoute t' daddr id ↔ HostRoute t daddr id) := by
    intro id other
    have here := extends'.look id other
    have up : usable (t'.rt id) = usable (t.rt id) := look_same usable _ _ here fun _ => rfl
    have fits : matchesAddr (t'.rt id) daddr = matchesAddr (t.rt id) daddr :=
      look_same (fun rt => matchesAddr rt daddr) _ _ here fun _ => rfl
    have host : (t'.rt id).has RTF_HOST = (t.rt id).has RTF_HOST := look_same (fun rt => rt.has RTF_HOST) _ _ here fun _ => rfl
    unfold HostRoute Candidate
    rw [extends_member t t' newrt extends' id other, up, fits, host]
  constructor
  · rintro ⟨id, route⟩
    refine ⟨id, (same id ?_).mp route⟩
    rintro rfl
    exact extends'.down (Or.inl route.1.1) route.1.2.1.2
  · rintro ⟨id, route⟩
    refine ⟨id, (same id ?_).mpr route⟩
    rintro rfl
    exact extends'.apart (Or.inl route.1.1)

end Extended

theorem split_look (t t' : Table) (net mask : InAddr) (ids : List Nat) (same : ∀ id ∈ ids, look (t'.rt id) = look (t.rt id)) :
    splitBucket t' net mask ids = splitBucket t net mask ids := by
  unfold splitBucket
  rw [List.span_eq_takeWhile_dropWhile, List.span_eq_takeWhile_dropWhile]
  induction ids with
  | nil => rfl
  | cons id rest ih =>
      have later := Prod.mk.inj (ih fun other member => same other (List.mem_cons_of_mem id member))
      have here : sameRoute (t'.rt id) net mask = sameRoute (t.rt id) net mask :=
        look_same (fun rt => sameRoute rt net mask) _ _ (same id List.mem_cons_self) fun _ => rfl
      simp only [List.takeWhile_cons, List.dropWhile_cons, here, later.1, later.2]

-- The bucket that a new route goes into, around the one that it replaces.
def around (t : Table) (new : NewRt) : List Nat × List Nat :=
  splitBucket t new.net new.mask (t.allroutes (routeHash new.net))

-- A route that is not static comes in, unless it would replace one that is.
def Installs (kmalloc : Bool) (t : Table) (new : NewRt) : Prop :=
  kmalloc = true ∧ new.gway ≠ INADDR_ANY ∧ (new.net = INADDR_ANY ∨ ∀ rt ∈ (around t new).2.head?, ¬ (t.rt rt).has RTF_STATIC)

instance (kmalloc : Bool) (t : Table) (new : NewRt) : Decidable (Installs kmalloc t new) := by
  unfold Installs
  infer_instance

-- The routes besides the new one.
def others (kmalloc : Bool) (t : Table) (new : NewRt) : Table :=
  if ¬ Installs kmalloc t new then t
  else if new.net = INADDR_ANY then t.setDefroute none
  else t.setBucket (routeHash new.net) ((around t new).1 ++ (around t new).2.tail)

section Added

variable (kmalloc : Bool) (t : Table) (new : NewRt) (linked : Linked t) (down : new.flags &&& RTF_UP = 0)
  (dynamic : new.flags &&& RTF_STATIC = 0) (gatewayed : new.flags &&& RTF_GATEWAY ≠ 0)

theorem alloc_look (rt : Rt) (id : Nat) (other : id ≠ t.fresh) : look ((t.alloc rt).rt id) = look (t.rt id) := by
  dsimp only [Table.alloc]
  rw [Function.update_of_ne other]

include linked in
theorem fresh_apart : ¬ Installed t t.fresh := by
  rintro (⟨b, member⟩ | isDefault)
  · exact Nat.lt_irrefl _ (linked.old b _ member)
  · exact Nat.lt_irrefl _ (linked.defOld _ isDefault)

-- The links are the same, and the routes but for one that is not linked.
theorem extends_refl (t' : Table) (newrt : Nat) (same : ∀ id, id ≠ newrt → look (t'.rt id) = look (t.rt id))
    (allroutes : t'.allroutes = t.allroutes) (defroute : t'.defroute = t.defroute) (apart : ¬ Installed t newrt) :
    Extends t t' newrt := by
  refine ⟨same, fun installed => ?_, fun b => Or.inl (congrFun allroutes b), Or.inl defroute, apart⟩
  unfold Installed at installed
  rw [allroutes, defroute] at installed
  exact (apart installed).elim

include linked in
theorem around_alloc (rt : Rt) : splitBucket (t.alloc rt) new.net new.mask (t.allroutes (routeHash new.net)) = around t new :=
  split_look t (t.alloc rt) new.net new.mask _ fun id member =>
    alloc_look t rt id fun same => fresh_apart t linked (Or.inl ⟨_, same ▸ member⟩)

-- The new route is the one more of the table, if it comes in.
structure Joined (t' : Table) : Prop where
  extends' : Extends (others kmalloc t new) t' t.fresh
  installed : Installed t' t.fresh ↔ Installs kmalloc t new
  route : Installs kmalloc t new → look (t'.rt t.fresh) = look (newRt new)

include linked in
theorem joined_kept (t' : Table) (kept : ¬ Installs kmalloc t new) (same : ∀ id, id ≠ t.fresh → look (t'.rt id) = look (t.rt id))
    (allroutes : t'.allroutes = t.allroutes) (defroute : t'.defroute = t.defroute) : Joined kmalloc t new t' := by
  have apart := fresh_apart t linked
  refine ⟨?_, ⟨fun installed => ?_, fun comes => (kept comes).elim⟩, fun comes => (kept comes).elim⟩
  · unfold others
    rw [if_pos kept]
    exact extends_refl t t' t.fresh same allroutes defroute apart
  · unfold Installed at installed
    rw [allroutes, defroute] at installed
    exact (apart installed).elim

theorem deref?_routing (id : Option Nat) : SameRouting t (routeDeref? t id) := by
  cases id with
  | none => exact same_routing_refl t
  | some id => exact deref_routing t id

theorem new_rt_look : look ((t.alloc (newRt new)).rt t.fresh) = look (newRt new) := by
  dsimp only [Table.alloc]
  rw [Function.update_self]

include down in
theorem new_rt_down (rt : Rt) (same : look rt = look (newRt new)) : ¬ rt.has RTF_UP := by
  have flags : rt.flags = new.flags := look_same Rt.flags (newRt new) rt same fun _ => rfl
  unfold Rt.has
  rw [flags, down]
  exact not_not.mpr rfl

-- The default route.
include linked down in
theorem joined_default (any : new.net = INADDR_ANY) (comes : Installs kmalloc t new) :
    Joined kmalloc t new ((routeDeref? (t.alloc (newRt new)) t.defroute).setDefroute (some t.fresh)) := by
  have released := deref?_routing (t.alloc (newRt new)) t.defroute
  have route := (released.look t.fresh).trans (new_rt_look t new)
  have rest : others kmalloc t new = t.setDefroute none := by
    unfold others
    rw [if_neg (not_not.mpr comes), if_pos any]
  refine ⟨?_, iff_of_true (Or.inr rfl) comes, fun _ => route⟩
  rw [rest]
  refine ⟨fun id other => (released.look id).trans (alloc_look t _ id other), fun _ => new_rt_down new down _ route,
    fun b => Or.inl (congrFun released.links.allroutes b), Or.inr ⟨rfl, rfl⟩, ?_⟩
  rintro (⟨b, member⟩ | nothing)
  · exact fresh_apart t linked (Or.inl ⟨b, member⟩)
  · cases nothing

-- A bucket that the new route comes into, between what is before and what is behind.
include linked down in
theorem joined_bucket (t' : Table) (before after : List Nat) (net : new.net ≠ INADDR_ANY) (comes : Installs kmalloc t new)
    (split : (around t new).1 = before ∧ (around t new).2.tail = after) (routing : SameRouting (t.alloc (newRt new)) t') :
    Joined kmalloc t new (t'.setBucket (routeHash new.net) (before ++ t.fresh :: after)) := by
  have route := (routing.look t.fresh).trans (new_rt_look t new)
  have rest : others kmalloc t new = t.setBucket (routeHash new.net) (before ++ after) := by
    unfold others
    rw [if_neg (not_not.mpr comes), if_neg net, split.1, split.2]
  have here : (t'.setBucket (routeHash new.net) (before ++ t.fresh :: after)).allroutes (routeHash new.net) =
      before ++ t.fresh :: after := Function.update_self _ _ _
  have left : (t.setBucket (routeHash new.net) (before ++ after)).allroutes (routeHash new.net) = before ++ after :=
    Function.update_self _ _ _
  have whole := span_bucket t new.net new.mask _ _ _ (Prod.mk.eta (p := around t new)).symm
  have within : ∀ id ∈ before ++ after, id ∈ t.allroutes (routeHash new.net) := by
    intro id member
    rw [whole, split.1]
    obtain member | member := List.mem_append.mp member
    · exact List.mem_append_left _ member
    · rw [← split.2] at member
      exact List.mem_append_right _ (List.mem_of_mem_tail member)
  refine ⟨?_, iff_of_true (Or.inl ⟨routeHash new.net, ?_⟩) comes, fun _ => route⟩
  · rw [rest]
    refine ⟨fun id other => (routing.look id).trans (alloc_look t _ id other), fun _ => new_rt_down new down _ route, fun b => ?_,
      Or.inl routing.links.defroute, ?_⟩
    · by_cases same : b = routeHash new.net
      · subst same
        exact Or.inr ⟨before, after, left, here⟩
      · refine Or.inl ?_
        dsimp only [Table.setBucket]
        rw [Function.update_of_ne same, Function.update_of_ne same]
        exact congrFun routing.links.allroutes b
    · rintro (⟨b, member⟩ | isDefault)
      · by_cases same : b = routeHash new.net
        · subst same
          rw [left] at member
          exact fresh_apart t linked (Or.inl ⟨_, within _ member⟩)
        · dsimp only [Table.setBucket] at member
          rw [Function.update_of_ne same] at member
          exact fresh_apart t linked (Or.inl ⟨b, member⟩)
      · exact fresh_apart t linked (Or.inr isDefault)
  · rw [here]
    exact List.mem_append_right before List.mem_cons_self

include linked down dynamic gatewayed in
theorem add_joined : Joined kmalloc t new (routeAdd kmalloc t new).2 := by
  have elsewhere : ∀ t' : Table, t'.rt = (t.alloc (newRt new)).rt → ∀ id, id ≠ t.fresh → look (t'.rt id) = look (t.rt id) := by
    intro t' same id other
    rw [same]
    exact alloc_look t _ id other
  unfold routeAdd routeAlloc
  by_cases memory : kmalloc = true
  · rw [if_neg (not_not.mpr memory)]
    by_cases anyGway : new.gway = INADDR_ANY
    · rw [if_pos ⟨gatewayed, anyGway⟩]
      exact joined_kept kmalloc t new linked _ (fun comes => comes.2.1 anyGway) (elsewhere _ rfl) rfl rfl
    · rw [if_neg fun both => anyGway both.2]
      dsimp only
      unfold routeLink
      by_cases any : new.net = INADDR_ANY
      · rw [if_pos any]
        exact joined_default kmalloc t new linked down any ⟨memory, anyGway, Or.inl any⟩
      · rw [if_neg any]
        dsimp only
        rw [show (t.alloc (newRt new)).allroutes = t.allroutes from rfl, around_alloc t new linked]
        cases split : around t new with
        | mk before after =>
            cases after with
            | nil =>
                have comes : Installs kmalloc t new := by
                  refine ⟨memory, anyGway, Or.inr fun rt first => ?_⟩
                  rw [split] at first
                  cases first
                exact joined_bucket kmalloc t new linked down _ before [] any comes (by rw [split]; exact ⟨rfl, rfl⟩)
                  (same_routing_refl _)
            | cons rt after =>
                have member : rt ∈ t.allroutes (routeHash new.net) := by
                  rw [span_bucket t new.net new.mask _ _ _ split]
                  exact List.mem_append_right before List.mem_cons_self
                have static : ((t.alloc (newRt new)).rt rt).has RTF_STATIC = (t.rt rt).has RTF_STATIC :=
                  look_same (fun rt => rt.has RTF_STATIC) _ _
                    (alloc_look t _ rt fun same => fresh_apart t linked (Or.inl ⟨_, same ▸ member⟩)) fun _ => rfl
                dsimp only
                by_cases keeps : ((t.alloc (newRt new)).rt rt).has RTF_STATIC
                · rw [if_pos ⟨dynamic, keeps⟩]
                  refine joined_kept kmalloc t new linked _ (fun comes => ?_) (elsewhere _ rfl) rfl rfl
                  refine comes.2.2.elim any fun free => free rt ?_ (static.mp keeps)
                  rw [split]
                  rfl
                · rw [if_neg fun both => keeps both.2]
                  have comes : Installs kmalloc t new := by
                    refine ⟨memory, anyGway, Or.inr fun other first => ?_⟩
                    rw [split] at first
                    cases first
                    exact fun fixed => keeps (static.mpr fixed)
                  exact joined_bucket kmalloc t new linked down _ before after any comes (by rw [split]; exact ⟨rfl, rfl⟩)
                    (deref_routing _ rt)
  · rw [if_pos memory]
    exact joined_kept kmalloc t new linked t (fun comes => memory comes.1) (fun _ _ => rfl) rfl rfl

end Added

section Routing

variable (t t1 : Table) (same : SameRouting t t1)

include same

theorem installed_routing (id : Nat) : Installed t1 id ↔ Installed t id := by
  unfold Installed
  rw [same.links.allroutes, same.links.defroute]

theorem around_routing (new : NewRt) : around t1 new = around t new := by
  unfold around
  rw [same.links.allroutes]
  exact split_look t t1 new.net new.mask _ fun id _ => same.look id

theorem installs_routing (kmalloc : Bool) (new : NewRt) : Installs kmalloc t1 new ↔ Installs kmalloc t new := by
  have static : ∀ id, (t1.rt id).has RTF_STATIC ↔ (t.rt id).has RTF_STATIC := fun id =>
    iff_of_eq (look_same (fun rt => rt.has RTF_STATIC) _ _ (same.look id) fun _ => rfl)
  unfold Installs
  simp only [around_routing t t1 same new, static]

theorem others_routing (kmalloc : Bool) (new : NewRt) : SameRouting (others kmalloc t new) (others kmalloc t1 new) := by
  have buckets : ∀ b, t1.allroutes b = t.allroutes b := fun b => congrFun same.links.allroutes b
  unfold others
  by_cases comes : Installs kmalloc t new
  · have comes1 := (installs_routing t t1 same kmalloc new).mpr comes
    rw [if_neg (not_not.mpr comes), if_neg (not_not.mpr comes1)]
    split
    · exact ⟨⟨same.links.allroutes, rfl, same.links.fresh, same.links.net⟩, same.look⟩
    · rw [around_routing t t1 same new]
      refine ⟨⟨?_, same.links.defroute, same.links.fresh, same.links.net⟩, same.look⟩
      unfold Table.setBucket
      rw [same.links.allroutes]
  · have kept := fun comes1 => comes ((installs_routing t t1 same kmalloc new).mp comes1)
    rw [if_pos comes, if_pos kept]
    exact same

theorem extends_routing (t' : Table) (newrt : Nat) (extends' : Extends t1 t' newrt) : Extends t t' newrt := by
  refine ⟨fun id other => (extends'.look id other).trans (same.look id), extends'.down, fun b => ?_, ?_, fun installed => ?_⟩
  · rw [← congrFun same.links.allroutes b]
    exact extends'.bucket b
  · rw [← same.links.defroute]
    exact extends'.default
  · exact extends'.apart ((installed_routing t t1 same newrt).mpr installed)

theorem joined_routing (kmalloc : Bool) (new : NewRt) (t' : Table) (joined : Joined kmalloc t1 new t') : Joined kmalloc t new t' := by
  have fresh := same.links.fresh
  have comes := installs_routing t t1 same kmalloc new
  obtain ⟨extends', installed, route⟩ := joined
  rw [fresh] at extends' installed route
  exact ⟨extends_routing _ _ (others_routing t t1 same kmalloc new) t' _ extends', installed.trans comes,
    fun installs => route (comes.mpr installs)⟩

end Routing

theorem others_installed (kmalloc : Bool) (t : Table) (new : NewRt) (id : Nat) (installed : Installed (others kmalloc t new) id) :
    Installed t id := by
  unfold others at installed
  split at installed
  · exact installed
  · split at installed
    · obtain member | nothing := installed
      · exact Or.inl member
      · cases nothing
    · obtain ⟨b, member⟩ | isDefault := installed
      · refine Or.inl ⟨b, ?_⟩
        dsimp only [Table.setBucket] at member
        by_cases same : b = routeHash new.net
        · subst same
          rw [Function.update_self] at member
          rw [span_bucket t new.net new.mask _ _ _ (Prod.mk.eta (p := around t new)).symm]
          obtain member | member := List.mem_append.mp member
          · exact List.mem_append_left _ member
          · exact List.mem_append_right _ (List.mem_of_mem_tail member)
        · rw [Function.update_of_ne same] at member
          exact member
      · exact Or.inr isDefault

-- The redirect gets past the two checks of the gateways.
structure Passes (buf : Buffer) (len : Nat) (node : Node) : Prop where
  whole : ICMP_QUOTE ≤ len
  code : icmphCode buf = ICMPC_NETRD ∨ icmphCode buf = ICMPC_HOSTRD
  newGw : (probe node (redirGw buf) goodGw).1 = some true
  sender : (probe (probe node (redirGw buf) goodGw).2 (iphDaddr (quoted buf)) (sentBy (iphSaddr buf))).1 = some true

-- The route that it asks for.
def redirRt (ifs : Netifs) (buf : Buffer) (nif : Nat) : NewRt :=
  if icmphCode buf = ICMPC_NETRD then
    ⟨nif, iphDaddr (quoted buf), ipNetmask ifs (iphDaddr (quoted buf)), redirGw buf, RTF_DYNAMIC ||| RTF_MODIFIED ||| RTF_GATEWAY,
      RT_TTL, 1⟩
  else ⟨nif, iphDaddr (quoted buf), 0xffffffff, redirGw buf, RTF_DYNAMIC ||| RTF_MODIFIED ||| RTF_HOST ||| RTF_GATEWAY, RT_TTL, 1⟩

-- The destinations that it is about: the host, or the hosts of the network that have no route of their own.
def Meant (new : NewRt) (t : Table) (daddr : InAddr) : Prop :=
  daddr &&& new.mask = new.net &&& new.mask ∧ (new.flags &&& RTF_HOST = 0 → ¬ ∃ id, HostRoute t daddr id)

-- route_get finds a usable route to the destination, and it leads through the gateway.
def Through (t : Table) (daddr gway : InAddr) : Prop :=
  ∃ id, routeFind t daddr = some id ∧ usable (t.rt id) ∧ (t.rt id).has RTF_GATEWAY ∧ (t.rt id).gway = gway

structure Effective (new : NewRt) (t t' : Table) : Prop where
  routed : ∀ daddr, Meant new t' daddr → Through t' daddr new.gway
  masked : ∀ id, Installed t' id → ¬ Installed t id → (t'.rt id).net &&& ~~~(t'.rt id).mask = 0

section Extended

variable (t t' : Table) (newrt : Nat) (extends' : Extends t t' newrt)

include extends'

theorem extends_through (daddr gway : InAddr) : Through t' daddr gway ↔ Through t daddr gway := by
  obtain ⟨find, seen⟩ := extends_find t t' newrt extends' daddr
  unfold Through
  rw [find]
  refine exists_congr fun id => and_congr_right fun found => ?_
  have same := seen id found
  have up : usable (t'.rt id) = usable (t.rt id) := look_same usable _ _ same fun _ => rfl
  have through : (t'.rt id).has RTF_GATEWAY = (t.rt id).has RTF_GATEWAY := look_same (fun rt => rt.has RTF_GATEWAY) _ _ same fun _ => rfl
  have towards : (t'.rt id).gway = (t.rt id).gway := look_same Rt.gway _ _ same fun _ => rfl
  rw [up, through, towards]

theorem extends_meant (new : NewRt) (daddr : InAddr) : Meant new t' daddr ↔ Meant new t daddr := by
  unfold Meant
  rw [extends_host_route t t' newrt extends' daddr]

theorem extends_installed (id : Nat) (other : id ≠ newrt) (installed : Installed t' id) : Installed t id := by
  obtain member | isDefault := installed
  · exact Or.inl ((extends_member t t' newrt extends' id other).mp member)
  · obtain kept | ⟨-, added⟩ := extends'.default
    · exact Or.inr (kept ▸ isDefault)
    · rw [added] at isDefault
      exact (other (Option.some.inj isDefault).symm).elim

end Extended

theorem effective_iff (kmalloc : Bool) (t t' : Table) (new : NewRt) (linked : Linked t) (joined : Joined kmalloc t new t') :
    Effective new t t' ↔
      (∀ daddr, Meant new (others kmalloc t new) daddr → Through (others kmalloc t new) daddr new.gway)
        ∧ (Installs kmalloc t new → new.net &&& ~~~new.mask = 0) := by
  have routed : (∀ daddr, Meant new t' daddr → Through t' daddr new.gway) ↔
      ∀ daddr, Meant new (others kmalloc t new) daddr → Through (others kmalloc t new) daddr new.gway :=
    forall_congr' fun daddr => imp_congr (extends_meant _ t' _ joined.extends' new daddr)
      (extends_through _ t' _ joined.extends' daddr new.gway)
  have masks : Installs kmalloc t new →
      (t'.rt t.fresh).net &&& ~~~(t'.rt t.fresh).mask = new.net &&& ~~~new.mask := fun comes =>
    look_same (fun rt => rt.net &&& ~~~rt.mask) (newRt new) _ (joined.route comes) fun _ => rfl
  constructor
  · rintro ⟨through, masked⟩
    refine ⟨routed.mp through, fun comes => ?_⟩
    rw [← masks comes]
    exact masked t.fresh (joined.installed.mpr comes) (fresh_apart t linked)
  · rintro ⟨through, masked⟩
    refine ⟨routed.mpr through, fun id installed missing => ?_⟩
    by_cases same : id = t.fresh
    · subst same
      have comes := joined.installed.mp installed
      rw [masks comes]
      exact masked comes
    · exact (missing (others_installed kmalloc t new id (extends_installed _ t' _ joined.extends' id same installed))).elim

theorem redir_adds (env : Env) (buf : Buffer) (nif len : Nat) (node : Node) (passes : Passes buf len node) :
    ∃ t1, SameRouting node.table t1
      ∧ (doRedir env buf nif len node).2.table = (routeAdd (env.alloc node.calls) t1 (redirRt env.ifs buf nif)).2 := by
  obtain ⟨whole, code, newGw, sender⟩ := passes
  have first := probe_routing node (redirGw buf) goodGw
  have second := probe_routing (probe node (redirGw buf) goodGw).2 (iphDaddr (quoted buf)) (sentBy (iphSaddr buf))
  refine ⟨_, same_routing_trans _ _ _ first.1 second.1, ?_⟩
  have calls := second.2.trans first.2
  unfold doRedir redirRt
  dsimp only
  rw [if_neg (Nat.not_lt.mpr whole), if_neg (by tauto), if_neg (not_not.mpr newGw), if_neg (not_not.mpr sender)]
  by_cases net : icmphCode buf = ICMPC_NETRD
  · rw [if_pos net, if_pos net, ← calls]
    rfl
  · rw [if_neg net, if_neg net, ← calls]
    rfl

-- The route of a redirect is never up: it is effective exactly when the routes besides it lead to the new gateway anyway,
-- and its net fits its mask.
theorem redirect_effective_iff (env : Env) (buf : Buffer) (nif len : Nat) (node : Node) (linked : Linked node.table)
    (passes : Passes buf len node) :
    Effective (redirRt env.ifs buf nif) node.table (doRedir env buf nif len node).2.table ↔
      (∀ daddr, Meant (redirRt env.ifs buf nif) (others (env.alloc node.calls) node.table (redirRt env.ifs buf nif)) daddr →
        Through (others (env.alloc node.calls) node.table (redirRt env.ifs buf nif)) daddr (redirGw buf))
      ∧ (Installs (env.alloc node.calls) node.table (redirRt env.ifs buf nif) →
        iphDaddr (quoted buf) &&& ~~~(redirRt env.ifs buf nif).mask = 0) := by
  obtain ⟨t1, same, added⟩ := redir_adds env buf nif len node passes
  have gway : (redirRt env.ifs buf nif).gway = redirGw buf := by
    unfold redirRt
    split <;> rfl
  have net : (redirRt env.ifs buf nif).net = iphDaddr (quoted buf) := by
    unfold redirRt
    split <;> rfl
  have flags : (redirRt env.ifs buf nif).flags &&& RTF_UP = 0 ∧ (redirRt env.ifs buf nif).flags &&& RTF_STATIC = 0
      ∧ (redirRt env.ifs buf nif).flags &&& RTF_GATEWAY ≠ 0 := by
    unfold redirRt
    split
    · refine ⟨?_, ?_, ?_⟩ <;> dsimp only <;> decide
    · refine ⟨?_, ?_, ?_⟩ <;> dsimp only <;> decide
  have joined := joined_routing node.table t1 same (env.alloc node.calls) (redirRt env.ifs buf nif) _
    (add_joined (env.alloc node.calls) t1 _ (linked_same _ _ linked same.links) flags.1 flags.2.1 flags.2.2)
  rw [added, effective_iff (env.alloc node.calls) node.table _ _ linked joined, gway, net]

-- A redirect from 192.168.0.1 about 10.1.2.3 to a gateway on the same net.
def redirMsg (code gw : Byte) : Buffer :=
  [0x45] ++ List.replicate 11 0 ++ [192, 168, 0, 1, 192, 168, 0, 9] ++ [5, code, 0, 0, 192, 168, 0, gw]
    ++ [0x45] ++ List.replicate 15 0 ++ [10, 1, 2, 3] ++ List.replicate 8 0

-- The local net, and by default the gateway 192.168.0.1.
def viaFirst : Table :=
  let first := (routeAdd true Table.init ⟨0, 0xc0a80000, 0xffffff00, 0, RTF_UP, RT_TTL, 0⟩).2
  (routeAdd true first ⟨0, INADDR_ANY, 0, 0xc0a80001, RTF_UP ||| RTF_GATEWAY, RT_TTL, 0⟩).2

-- The second gateway is the default, and the first one leads to 10.1.2.3.
def viaSecond : Table :=
  let first := (routeAdd true Table.init ⟨0, 0xc0a80000, 0xffffff00, 0, RTF_UP, RT_TTL, 0⟩).2
  let second := (routeAdd true first ⟨0, INADDR_ANY, 0, 0xc0a80002, RTF_UP ||| RTF_GATEWAY, RT_TTL, 0⟩).2
  (routeAdd true second ⟨0, 0x0a010203, 0xffffffff, 0xc0a80001, RTF_UP ||| RTF_HOST ||| RTF_GATEWAY, RT_TTL, 0⟩).2

def routing (t : Table) : Node := ⟨t, fun _ => [], 0, 0, false, []⟩

-- The host route makes room for one that is never used, and the default leads to the new gateway.
theorem redirect_effective_iff_default :
    Effective (redirRt gateway.ifs (redirMsg ICMPC_HOSTRD 2) 0) viaSecond
      (doRedir gateway (redirMsg ICMPC_HOSTRD 2) 0 36 (routing viaSecond)).2.table := by
  have linked : Linked viaSecond := add_linked _ _ _ (add_linked _ _ _ (add_linked _ _ _ init_linked))
  refine (redirect_effective_iff gateway (redirMsg ICMPC_HOSTRD 2) 0 36 (routing viaSecond) linked
    ⟨by decide, by decide, by decide +kernel, by decide +kernel⟩).mpr ⟨fun daddr meant => ?_, fun _ => by decide +kernel⟩
  have host : daddr = 0x0a010203 := by
    have here := meant.1
    rw [show (redirRt gateway.ifs (redirMsg ICMPC_HOSTRD 2) 0).mask = 0xffffffff by decide +kernel,
      show (redirRt gateway.ifs (redirMsg ICMPC_HOSTRD 2) 0).net = 0x0a010203 by decide +kernel,
      show (0xffffffff : InAddr) = BitVec.allOnes 32 from rfl, BitVec.and_allOnes, BitVec.and_allOnes] at here
    exact here
  subst host
  exact ⟨1, by decide +kernel, by decide +kernel, by decide +kernel, by decide +kernel⟩

-- After a host redirect the old gateway is used as before, and a net redirect installs a route whose net is the address of
-- the host.
theorem redirect_ineffective :
    Passes (redirMsg ICMPC_HOSTRD 2) 36 (routing viaFirst) ∧ Passes (redirMsg ICMPC_NETRD 2) 36 (routing viaFirst)
      ∧ ¬ Effective (redirRt gateway.ifs (redirMsg ICMPC_HOSTRD 2) 0) viaFirst
        (doRedir gateway (redirMsg ICMPC_HOSTRD 2) 0 36 (routing viaFirst)).2.table
      ∧ ¬ Effective (redirRt gateway.ifs (redirMsg ICMPC_NETRD 2) 0) viaFirst
        (doRedir gateway (redirMsg ICMPC_NETRD 2) 0 36 (routing viaFirst)).2.table := by
  refine ⟨⟨by decide, by decide, by decide +kernel, by decide +kernel⟩, ⟨by decide, by decide, by decide +kernel, by decide +kernel⟩,
    fun effective => ?_, fun effective => ?_⟩
  · obtain ⟨id, found, -, -, through⟩ := effective.routed 0x0a010203 ⟨rfl, fun free => absurd free (by decide +kernel)⟩
    have old : routeFind (doRedir gateway (redirMsg ICMPC_HOSTRD 2) 0 36 (routing viaFirst)).2.table 0x0a010203 = some 1 := by
      decide +kernel
    cases old.symm.trans found
    revert through
    decide +kernel
  · have linked : Linked viaFirst := add_linked _ _ _ (add_linked _ _ _ init_linked)
    have fresh : viaFirst.fresh = 2 := by decide +kernel
    have apart := fresh_apart viaFirst linked
    rw [fresh] at apart
    have unmasked := effective.masked 2 (Or.inl ⟨routeHash 0x0a010203, by decide +kernel⟩) apart
    revert unmasked
    decide +kernel

end MagxNet.Route
