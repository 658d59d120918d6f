import MagxNet.Route.Linked

set_option autoImplicit false

namespace MagxNet.Route

-- The tables that route_add, route_del and route_flush build.
inductive Built : Table → Prop where
  | init : Built Table.init
  | add (kmalloc : Bool) (t : Table) (new : NewRt) (before : Built t) : Built (routeAdd kmalloc t new).2
  | del (t : Table) (net mask : InAddr) (before : Built t) : Built (routeDel t net mask)
  | flush (t : Table) (nif : Nat) (before : Built t) : Built (routeFlush t nif)

theorem built_linked (t : Table) (built : Built t) : Linked t := by
  induction built with
  | init => exact init_linked
  | add kmalloc t new _ ih => exact add_linked kmalloc t new ih
  | del t net mask _ ih => exact del_linked t net mask ih
  | flush t nif _ ih => exact flush_linked t nif ih

theorem built_ioctl (kmalloc : Bool) (ifs : Netifs) (t : Table) (cmd : RouteCmd) (rte : Rtentry) (built : Built t) :
    Built (routeIoctl kmalloc ifs t cmd rte).2 := by
  unfold routeIoctl
  split
  · exact built
  split
  · exact built
  cases cmd with
  | del => exact .del t _ _ built
  | add =>
      dsimp only
      split
      · exact built
      split
      · exact built
      · exact .add kmalloc t _ built

section

variable (t : Table) (daddr : InAddr)

-- An installed route that may serve the destination, and one for this host alone.
def Candidate (id : Nat) : Prop := (∃ b, id ∈ t.allroutes b) ∧ usable (t.rt id) ∧ matchesAddr (t.rt id) daddr

def HostRoute (id : Nat) : Prop := Candidate t daddr id ∧ (t.rt id).has RTF_HOST

def Complete : Prop :=
  match (routeGet t daddr).1 with
  | some id => HostRoute t daddr id ∨ Candidate t daddr id ∧ (∀ h, ¬ HostRoute t daddr h)
      ∨ t.defroute = some id ∧ ∀ c, ¬ Candidate t daddr c
  | none => ∀ c, ¬ Candidate t daddr c

def SameHash (id : Nat) : Prop := routeHash (t.rt id).net = routeHash daddr

-- One of the best routes is where route_get looks.
def Hashable : Prop :=
  ((∃ h, HostRoute t daddr h) → ∃ h, HostRoute t daddr h ∧ SameHash t daddr h)
    ∧ ((∀ h, ¬ HostRoute t daddr h) → (∃ c, Candidate t daddr c) → ∃ c, Candidate t daddr c ∧ SameHash t daddr c)

theorem candidate_in_bucket (linked : Linked t) (id : Nat) (candidate : Candidate t daddr id)
    (same : SameHash t daddr id) : id ∈ t.allroutes (routeHash daddr) := by
  obtain ⟨⟨b, member⟩, -⟩ := candidate
  rw [← same, linked.hashed b id member]
  exact member

theorem scan_host (ids : List Nat) (netrt : Option Nat)
    (host : ∃ h ∈ ids, usable (t.rt h) ∧ matchesAddr (t.rt h) daddr ∧ (t.rt h).has RTF_HOST) :
    ∃ h ∈ ids, usable (t.rt h) ∧ matchesAddr (t.rt h) daddr ∧ (t.rt h).has RTF_HOST
      ∧ routeScan t daddr ids netrt = some h := by
  induction ids generalizing netrt with
  | nil =>
      obtain ⟨h, member, -⟩ := host
      cases member
  | cons id rest ih =>
      have later : ∀ netrt, ¬ (usable (t.rt id) ∧ matchesAddr (t.rt id) daddr ∧ (t.rt id).has RTF_HOST) →
          ∃ h ∈ id :: rest, usable (t.rt h) ∧ matchesAddr (t.rt h) daddr ∧ (t.rt h).has RTF_HOST
            ∧ routeScan t daddr rest netrt = some h := by
        intro netrt notThis
        obtain ⟨h, member, isHost⟩ := host
        obtain rfl | member := List.mem_cons.mp member
        · exact (notThis isHost).elim
        · obtain ⟨found, there, found'⟩ := ih netrt ⟨h, member, isHost⟩
          exact ⟨found, List.mem_cons_of_mem _ there, found'⟩
      rw [routeScan]
      by_cases up : usable (t.rt id)
      · rw [if_neg (not_not.mpr up)]
        by_cases fits : matchesAddr (t.rt id) daddr
        · rw [if_pos fits]
          by_cases isHost : (t.rt id).has RTF_HOST
          · rw [if_pos isHost]
            exact ⟨id, List.mem_cons_self, up, fits, isHost, rfl⟩
          · rw [if_neg isHost]
            exact later _ fun this => isHost this.2.2
        · rw [if_neg fits]
          exact later _ fun this => fits this.2.1
      · rw [if_pos up]
        exact later _ fun this => up this.1

-- Without a host route the scan ends with a net route, or with what it began with.
theorem scan_net (ids : List Nat) (netrt : Option Nat)
    (noHost : ∀ h ∈ ids, usable (t.rt h) → matchesAddr (t.rt h) daddr → ¬ (t.rt h).has RTF_HOST) :
    (∃ c ∈ ids, usable (t.rt c) ∧ matchesAddr (t.rt c) daddr ∧ routeScan t daddr ids netrt = some c)
      ∨ (∀ c ∈ ids, usable (t.rt c) → ¬ matchesAddr (t.rt c) daddr) ∧ routeScan t daddr ids netrt = netrt := by
  induction ids generalizing netrt with
  | nil => exact Or.inr ⟨fun c member => (List.not_mem_nil member).elim, rfl⟩
  | cons id rest ih =>
      have onward := fun netrt => ih netrt fun h member => noHost h (List.mem_cons_of_mem _ member)
      have pass : ∀ netrt, ¬ (usable (t.rt id) ∧ matchesAddr (t.rt id) daddr) →
          (∃ c ∈ id :: rest, usable (t.rt c) ∧ matchesAddr (t.rt c) daddr ∧ routeScan t daddr rest netrt = some c)
            ∨ (∀ c ∈ id :: rest, usable (t.rt c) → ¬ matchesAddr (t.rt c) daddr)
              ∧ routeScan t daddr rest netrt = netrt := by
        intro netrt notThis
        obtain ⟨c, member, found⟩ | ⟨none', found⟩ := onward netrt
        · exact Or.inl ⟨c, List.mem_cons_of_mem _ member, found⟩
        · refine Or.inr ⟨?_, found⟩
          intro c member up fits
          obtain rfl | member := List.mem_cons.mp member
          · exact notThis ⟨up, fits⟩
          · exact none' c member up fits
      rw [routeScan]
      by_cases up : usable (t.rt id)
      · rw [if_neg (not_not.mpr up)]
        by_cases fits : matchesAddr (t.rt id) daddr
        · rw [if_pos fits, if_neg (noHost id List.mem_cons_self up fits)]
          obtain ⟨c, member, found⟩ | ⟨-, found⟩ := onward (some id)
          · exact Or.inl ⟨c, List.mem_cons_of_mem _ member, found⟩
          · exact Or.inl ⟨id, List.mem_cons_self, up, fits, found⟩
        · rw [if_neg fits]
          exact pass _ fun this => fits this.2
      · rw [if_pos up]
        exact pass _ fun this => up this.1

theorem get_found (id : Nat) (found : routeScan t daddr (t.allroutes (routeHash daddr)) none = some id)
    (up : (t.rt id).has RTF_UP) : (routeGet t daddr).1 = some id := by
  have same : routeFind t daddr = some id := by
    unfold routeFind
    rw [found, Option.some_or, Option.filter_some, if_pos (decide_eq_true up)]
  unfold routeGet
  rw [same]

theorem get_default (missed : routeScan t daddr (t.allroutes (routeHash daddr)) none = none) :
    (routeGet t daddr).1 = none ∨ ∃ id, (routeGet t daddr).1 = some id ∧ t.defroute = some id := by
  have same : routeFind t daddr = t.defroute.filter fun id => decide ((t.rt id).has RTF_UP) := by
    unfold routeFind
    rw [missed, Option.none_or]
  unfold routeGet
  cases found : routeFind t daddr with
  | none => exact Or.inl rfl
  | some id =>
      rw [same] at found
      exact Or.inr ⟨id, rfl, (Option.filter_eq_some_iff.mp found).1⟩

-- When the bucket has nothing for the destination, the default is right only if no bucket has.
theorem missed_complete_iff (linked : Linked t)
    (missed : routeScan t daddr (t.allroutes (routeHash daddr)) none = none) :
    Complete t daddr ↔ ∀ c, ¬ Candidate t daddr c := by
  unfold Complete
  obtain none' | ⟨id, found, isDefault⟩ := get_default t daddr missed
  · rw [none']
  · rw [found]
    dsimp only
    have notInstalled : ¬ Candidate t daddr id := fun candidate =>
      candidate.1.elim fun b member => linked.defOnly id isDefault b member
    constructor
    · rintro (host | ⟨candidate, -⟩ | ⟨-, none'⟩)
      · exact (notInstalled host.1).elim
      · exact (notInstalled candidate).elim
      · exact none'
    · exact fun none' => Or.inr (Or.inr ⟨isDefault, none'⟩)

theorem get_complete_iff (linked : Linked t) : Complete t daddr ↔ Hashable t daddr := by
  have inBucket := candidate_in_bucket t daddr linked
  by_cases host : ∃ h ∈ t.allroutes (routeHash daddr),
      usable (t.rt h) ∧ matchesAddr (t.rt h) daddr ∧ (t.rt h).has RTF_HOST
  · obtain ⟨h, member, up, fits, isHost, found⟩ := scan_host t daddr _ none host
    have isRoute : HostRoute t daddr h := ⟨⟨⟨_, member⟩, up, fits⟩, isHost⟩
    refine iff_of_true ?_ ⟨fun _ => ⟨h, isRoute, linked.hashed _ h member⟩, fun none' => (none' h isRoute).elim⟩
    unfold Complete
    rw [get_found t daddr h found up.2]
    exact Or.inl isRoute
  · have noHost : ∀ h ∈ t.allroutes (routeHash daddr), usable (t.rt h) → matchesAddr (t.rt h) daddr →
        ¬ (t.rt h).has RTF_HOST := fun h member up fits isHost => host ⟨h, member, up, fits, isHost⟩
    have elsewhere : ∀ h, HostRoute t daddr h → ¬ SameHash t daddr h := fun h isRoute same =>
      noHost h (inBucket h isRoute.1 same) isRoute.1.2.1 isRoute.1.2.2 isRoute.2
    obtain ⟨c, member, up, fits, found⟩ | ⟨nothing, missed⟩ := scan_net t daddr _ none noHost
    · have candidate : Candidate t daddr c := ⟨⟨_, member⟩, up, fits⟩
      have notHost : ¬ HostRoute t daddr c := fun isRoute => noHost c member up fits isRoute.2
      have notDefault : t.defroute ≠ some c := fun isDefault => linked.defOnly c isDefault _ member
      unfold Complete
      rw [get_found t daddr c found up.2]
      constructor
      · rintro (isRoute | ⟨-, none'⟩ | ⟨isDefault, -⟩)
        · exact (notHost isRoute).elim
        · exact ⟨fun ⟨h, isRoute⟩ => (none' h isRoute).elim, fun _ _ => ⟨c, candidate, linked.hashed _ c member⟩⟩
        · exact (notDefault isDefault).elim
      · intro hashable
        refine Or.inr (Or.inl ⟨candidate, fun h isRoute => ?_⟩)
        obtain ⟨h, isRoute, same⟩ := hashable.1 ⟨h, isRoute⟩
        exact elsewhere h isRoute same
    · have missing : ∀ c, Candidate t daddr c → ¬ SameHash t daddr c := fun c candidate same =>
        nothing c (inBucket c candidate same) candidate.2.1 candidate.2.2
      rw [missed_complete_iff t daddr linked missed]
      constructor
      · intro none'
        exact ⟨fun ⟨h, isRoute⟩ => (none' h isRoute.1).elim, fun _ ⟨c, candidate⟩ => (none' c candidate).elim⟩
      · intro hashable c candidate
        by_cases someHost : ∃ h, HostRoute t daddr h
        · obtain ⟨h, isRoute, same⟩ := hashable.1 someHost
          exact elsewhere h isRoute same
        · obtain ⟨c, candidate, same⟩ := hashable.2 (fun h isRoute => someHost ⟨h, isRoute⟩) ⟨c, candidate⟩
          exact missing c candidate same

end

theorem route_get_complete (t : Table) (daddr : InAddr) (built : Built t) :
    Complete t daddr ↔ Hashable t daddr :=
  get_complete_iff t daddr (built_linked t built)

-- The bits of an address that its hash depends on.
def classBits (addr : InAddr) : InAddr := if classMask addr = 0 then 0xffffffff else classMask addr

theorem part_agrees (d n bits part : InAddr) (within : bits &&& part = part) (agree : d &&& bits = n &&& bits) :
    d &&& part = n &&& part := by
  rw [← within, ← BitVec.and_assoc, ← BitVec.and_assoc, agree]

theorem octet_ones (i : Fin 4) : (0xff#32 <<< (8 * i.val)).extractLsb' (8 * i) 8 = BitVec.allOnes 8 := by
  revert i
  decide

theorem octet_agrees (d n bits : InAddr) (i : Fin 4) (agree : d &&& bits = n &&& bits)
    (within : bits &&& 0xff#32 <<< (8 * i.val) = 0xff#32 <<< (8 * i.val)) :
    d.extractLsb' (8 * i) 8 = n.extractLsb' (8 * i) 8 := by
  have part : ∀ x : InAddr, x.extractLsb' (8 * i) 8 = (x &&& 0xff#32 <<< (8 * i.val)).extractLsb' (8 * i) 8 := by
    intro x
    rw [BitVec.extractLsb'_and, octet_ones, BitVec.and_allOnes]
  rw [part d, part n, part_agrees d n bits _ within agree]

theorem hash_of_class (d n : InAddr) (agree : d &&& classBits d = n &&& classBits d) : routeHash d = routeHash n := by
  unfold classBits classMask at agree
  by_cases a : IN_CLASSA d
  · have aMask : IN_CLASSA_NET ≠ 0 := by decide
    rw [if_pos a, if_neg aMask] at agree
    have a' : IN_CLASSA n := (part_agrees d n _ _ (by decide) agree).symm.trans a
    unfold routeHash
    rw [if_pos a, if_pos a']
    exact octet_agrees d n _ 3 agree (by decide)
  rw [if_neg a] at agree
  by_cases b : IN_CLASSB d
  · have bMask : IN_CLASSB_NET ≠ 0 := by decide
    rw [if_pos b, if_neg bMask] at agree
    have a' : ¬ IN_CLASSA n := fun a' => a ((part_agrees d n _ _ (by decide) agree).trans a')
    have b' : IN_CLASSB n := (part_agrees d n _ _ (by decide) agree).symm.trans b
    unfold routeHash
    rw [if_neg a, if_pos b, if_neg a', if_pos b']
    exact congrArg₂ _ (octet_agrees d n _ 2 agree (by decide)) (octet_agrees d n _ 3 agree (by decide))
  rw [if_neg b] at agree
  by_cases c : IN_CLASSC d
  · have cMask : IN_CLASSC_NET ≠ 0 := by decide
    rw [if_pos c, if_neg cMask] at agree
    have a' : ¬ IN_CLASSA n := fun a' => a ((part_agrees d n _ _ (by decide) agree).trans a')
    have b' : ¬ IN_CLASSB n := fun b' => b ((part_agrees d n _ _ (by decide) agree).trans b')
    have c' : IN_CLASSC n := (part_agrees d n _ _ (by decide) agree).symm.trans c
    unfold routeHash
    rw [if_neg a, if_neg b, if_pos c, if_neg a', if_neg b', if_pos c']
    exact congrArg₂ _ (congrArg₂ _ (octet_agrees d n _ 1 agree (by decide)) (octet_agrees d n _ 2 agree (by decide)))
      (octet_agrees d n _ 3 agree (by decide))
  · rw [if_neg c, if_pos rfl] at agree
    have all : ∀ x : InAddr, x &&& 0xffffffff = x := fun x => BitVec.and_allOnes
    rw [all, all] at agree
    rw [agree]

-- Masks that reach over the class's part of the address are always found: subnets are, supernets are not.
theorem subnets_complete (t : Table) (daddr : InAddr) (built : Built t)
    (masks : ∀ id, Candidate t daddr id → (t.rt id).mask &&& classBits daddr = classBits daddr) : Complete t daddr := by
  have hashes : ∀ id, Candidate t daddr id → SameHash t daddr id := by
    intro id candidate
    refine (hash_of_class daddr _ ?_).symm
    rw [← candidate.2.2, BitVec.and_comm (t.rt id).mask, BitVec.and_assoc, masks id candidate]
  refine (route_get_complete t daddr built).mpr ⟨?_, ?_⟩
  · rintro ⟨h, isRoute⟩
    exact ⟨h, isRoute, hashes h isRoute.1⟩
  · rintro - ⟨c, candidate⟩
    exact ⟨c, candidate, hashes c candidate⟩

-- An interface at 192.168.0.1 whose mask was set to 255.255.0.0, and the route to its net.
def ethernet : Netif := ⟨true, true, false, 1500, 0, some ⟨0xc0a80001, 0xc0a80000, 0xffffff00, 0xc0a80000, 0xffffff00, 0xc0a800ff, 0xc0a800ff⟩⟩

def supernetted : Netifs := siocsifnetmask ⟨fun _ => ethernet, [0], 0, 0⟩ 0 0xffff0000

def supernet : Table := (routeIoctl true supernetted Table.init .add ⟨true, 0xc0a80000, true, 0, RTF_UP, 0⟩).2

theorem supernet_built : Built supernet := built_ioctl true supernetted Table.init .add _ .init

theorem route_get_complete_near : Complete supernet 0xc0a80007 ↔ Hashable supernet 0xc0a80007 :=
  route_get_complete supernet 0xc0a80007 supernet_built

-- 192.168.5.1 is on that net, but is looked for elsewhere.
theorem route_get_misses :
    (supernet.allroutes 0x68 = [0] ∧ (supernet.rt 0).net = 0xc0a80000 ∧ (supernet.rt 0).mask = 0xffff0000
      ∧ Candidate supernet 0xc0a80501 0) ∧ (routeGet supernet 0xc0a80007).1 = some 0
      ∧ (routeGet supernet 0xc0a80501).1 = none ∧ ¬ Complete supernet 0xc0a80501 := by
  have candidate : Candidate supernet 0xc0a80501 0 := ⟨⟨0x68, by decide +kernel⟩, by decide +kernel, by decide +kernel⟩
  have missed : (routeGet supernet 0xc0a80501).1 = none := by decide +kernel
  refine ⟨⟨by decide +kernel, by decide +kernel, by decide +kernel, candidate⟩, by decide +kernel, missed, ?_⟩
  unfold Complete
  rw [missed]
  exact fun none' => none' 0 candidate

end MagxNet.Route
