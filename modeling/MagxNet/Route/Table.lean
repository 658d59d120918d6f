import MagxNet.Lib.Bytes

set_option autoImplicit false

namespace MagxNet.Route

abbrev InAddr := BitVec 32
abbrev Short := BitVec 16

def INADDR_ANY : InAddr := 0
def INADDR_BROADCAST : InAddr := 0xffffffff
def INADDR_LOOPBACK : InAddr := 0x7f000001

def IN_CLASSA_NET : InAddr := 0xff000000
def IN_CLASSB_NET : InAddr := 0xffff0000
def IN_CLASSC_NET : InAddr := 0xffffff00

def IN_CLASSA (a : InAddr) : Prop := a &&& 0x80000000 = 0
def IN_CLASSB (a : InAddr) : Prop := a &&& 0xc0000000 = 0x80000000
def IN_CLASSC (a : InAddr) : Prop := a &&& 0xe0000000 = 0xc0000000

instance (a : InAddr) : Decidable (IN_CLASSA a) := inferInstanceAs (Decidable (a &&& 0x80000000 = 0))

instance (a : InAddr) : Decidable (IN_CLASSB a) := inferInstanceAs (Decidable (a &&& 0xc0000000 = 0x80000000))

instance (a : InAddr) : Decidable (IN_CLASSC a) := inferInstanceAs (Decidable (a &&& 0xe0000000 = 0xc0000000))

-- ifu is a union: the broadcast address, or the other end of a point to point link.
structure Ifaddr where
  adr : InAddr
  net : InAddr
  netmask : InAddr
  subnet : InAddr
  subnetmask : InAddr
  netBroadaddr : InAddr
  ifu : InAddr
deriving DecidableEq, Repr

structure Netif where
  up : Bool
  broadcast : Bool
  pointopoint : Bool
  mtu : BitVec 32
  maxpackets : Int
  ifaddr : Option Ifaddr
deriving DecidableEq, Repr

-- The interfaces by their pointers: allinterfaces in its order, if_primary and the loopback one.
structure Netifs where
  netif : Nat → Netif
  allinterfaces : List Nat
  primary : Nat
  lo : Nat

section

variable (ifs : Netifs)

def ifAf2ifaddr (nif : Nat) : Option Ifaddr := (ifs.netif nif).ifaddr

def classMask (addr : InAddr) : InAddr :=
  if IN_CLASSA addr then IN_CLASSA_NET
  else if IN_CLASSB addr then IN_CLASSB_NET
  else if IN_CLASSC addr then IN_CLASSC_NET
  else 0

def ipNetmask (addr : InAddr) : InAddr :=
  if classMask addr = 0 then 0
  else (ifs.allinterfaces.findSome? fun nif =>
    (ifAf2ifaddr ifs nif).bind fun ifa =>
      if ifa.net = addr &&& classMask addr then some ifa.subnetmask else none).getD (classMask addr)

def ipIsBrdcstAddr (addr : InAddr) : Bool :=
  decide (addr = INADDR_ANY) || decide (addr = INADDR_BROADCAST) ||
    ifs.allinterfaces.any fun nif => (ifAf2ifaddr ifs nif).any fun ifa =>
      decide (addr = ifa.net) || decide (addr = ifa.subnet) || decide (addr = ifa.netBroadaddr)
        || (ifs.netif nif).broadcast && decide (addr = ifa.ifu)

def ipIsLocalAddr (addr : InAddr) : Bool :=
  decide (addr = INADDR_LOOPBACK) ||
    ifs.allinterfaces.any fun nif => (ifAf2ifaddr ifs nif).any fun ifa => decide (addr = ifa.adr)

-- An interface on the same network as the address.
def ifNet2if (addr : InAddr) : Option Nat :=
  let linked := fun nif => (ifs.netif nif).up && (ifAf2ifaddr ifs nif).any fun ifa =>
    ((ifs.netif nif).pointopoint || (ifs.netif nif).broadcast) && decide (addr = ifa.ifu)
  let masked := fun nif => (ifs.netif nif).up && (ifAf2ifaddr ifs nif).any fun ifa =>
    decide (addr &&& ifa.netmask = ifa.net)
  (ifs.allinterfaces.find? linked).or (ifs.allinterfaces.find? masked)

-- SIOCSIFNETMASK, before the driver's own ioctl: any mask is taken.
def siocsifnetmask (nif : Nat) (mask : InAddr) : Netifs :=
  { ifs with netif := Function.update ifs.netif nif { ifs.netif nif with
      ifaddr := (ifAf2ifaddr ifs nif).map fun ifa => { ifa with subnetmask := mask, subnet := mask &&& ifa.adr } } }

end

def RTF_UP : Short := 0x0001
def RTF_GATEWAY : Short := 0x0002
def RTF_HOST : Short := 0x0004
def RTF_REJECT : Short := 0x0008
def RTF_STATIC : Short := 0x0010
def RTF_DYNAMIC : Short := 0x0020
def RTF_MODIFIED : Short := 0x0040
def RTF_LOCAL : Short := 0x0100
def RT_TTL : Short := 100

def ENOMEM : Int := -39
def EACCES : Int := -36
def ENOSYS : Int := -32
def EADDRNOTAVAIL : Int := -311
def EAFNOSUPPORT : Int := -309
def ENETUNREACH : Int := -313

structure Rt where
  net : InAddr
  mask : InAddr
  gway : InAddr
  metric : BitVec 32
  nif : Nat
  ttl : Short
  flags : Short
  usecnt : BitVec 32
  refcnt : Short
deriving DecidableEq, Repr

def Rt.has (rt : Rt) (flag : Short) : Prop := rt.flags &&& flag ≠ 0

instance (rt : Rt) (flag : Short) : Decidable (rt.has flag) := inferInstanceAs (Decidable (rt.flags &&& flag ≠ 0))

-- The routes that were ever allocated, by their pointers; freed says which are given back. A bucket is a list of
-- pointers.
structure Table where
  rt : Nat → Rt
  freed : Nat → Bool
  fresh : Nat
  allroutes : BitVec 8 → List Nat
  defroute : Option Nat

def routeHash (d : InAddr) : BitVec 8 :=
  let octet := fun (i : Nat) => d.extractLsb' (8 * i) 8
  if IN_CLASSA d then octet 3
  else if IN_CLASSB d then octet 2 ^^^ octet 3
  else if IN_CLASSC d then octet 1 ^^^ octet 2 ^^^ octet 3
  else octet 0 ^^^ octet 1 ^^^ octet 2 ^^^ octet 3

def Table.setRt (t : Table) (id : Nat) (rt : Rt) : Table := { t with rt := Function.update t.rt id rt }

def Table.setBucket (t : Table) (b : BitVec 8) (ids : List Nat) : Table :=
  { t with allroutes := Function.update t.allroutes b ids }

def Table.setDefroute (t : Table) (defroute : Option Nat) : Table := { t with defroute := defroute }

def kfree (t : Table) (id : Nat) : Table := { t with freed := Function.update t.freed id true }

def decref (rt : Rt) : Rt := { rt with refcnt := rt.refcnt - 1 }

def incref (rt : Rt) : Rt := { rt with refcnt := rt.refcnt + 1, usecnt := rt.usecnt + 1 }

-- The counter is a short, and is compared as one.
def routeDeref (t : Table) (id : Nat) : Table :=
  let counted := t.setRt id (decref (t.rt id))
  if (decref (t.rt id)).refcnt.toInt ≤ 0 then kfree counted id else counted

def routeDeref? (t : Table) (id : Option Nat) : Table := id.elim t (routeDeref t)

def usable (rt : Rt) : Prop := 0 < rt.ttl.toInt ∧ rt.has RTF_UP

instance (rt : Rt) : Decidable (usable rt) := inferInstanceAs (Decidable (_ ∧ _))

def matchesAddr (rt : Rt) (daddr : InAddr) : Prop := rt.mask &&& daddr = rt.net

instance (rt : Rt) (daddr : InAddr) : Decidable (matchesAddr rt daddr) := inferInstanceAs (Decidable (_ = _))

-- The loop of route_get: the first host route, or else the last net route, that is usable.
def routeScan (t : Table) (daddr : InAddr) : List Nat → Option Nat → Option Nat
  | [], netrt => netrt
  | id :: rest, netrt =>
      if ¬ usable (t.rt id) then routeScan t daddr rest netrt
      else if matchesAddr (t.rt id) daddr then
        if (t.rt id).has RTF_HOST then some id else routeScan t daddr rest (some id)
      else routeScan t daddr rest netrt

def routeFind (t : Table) (daddr : InAddr) : Option Nat :=
  ((routeScan t daddr (t.allroutes (routeHash daddr)) none).or t.defroute).filter fun id => decide ((t.rt id).has RTF_UP)

def routeGet (t : Table) (daddr : InAddr) : Option Nat × Table :=
  match routeFind t daddr with
  | some id => (some id, t.setRt id (incref (t.rt id)))
  | none => (none, t)

-- The arguments of route_alloc and route_add.
structure NewRt where
  nif : Nat
  net : InAddr
  mask : InAddr
  gway : InAddr
  flags : Short
  ttl : Short
  metric : BitVec 32
deriving DecidableEq, Repr

def newRt (new : NewRt) : Rt :=
  ⟨new.net, new.mask, if new.flags &&& RTF_GATEWAY ≠ 0 then new.gway else INADDR_ANY, new.metric, new.nif, new.ttl,
    new.flags, 0, 1⟩

def Table.alloc (t : Table) (rt : Rt) : Table :=
  { t with
    rt := Function.update t.rt t.fresh rt
    fresh := t.fresh + 1
    freed := Function.update t.freed t.fresh false }

-- kmalloc says whether there is memory.
def routeAlloc (kmalloc : Bool) (t : Table) (new : NewRt) : Option Nat × Table :=
  if ¬ kmalloc then (none, t)
  else if new.flags &&& RTF_GATEWAY ≠ 0 ∧ new.gway = INADDR_ANY then (none, kfree (t.alloc (newRt new)) t.fresh)
  else (some t.fresh, t.alloc (newRt new))

def sameRoute (rt : Rt) (net mask : InAddr) : Prop := rt.mask = mask ∧ rt.net = net

instance (rt : Rt) (net mask : InAddr) : Decidable (sameRoute rt net mask) := inferInstanceAs (Decidable (_ ∧ _))

-- A bucket around the first route with this net and mask.
def splitBucket (t : Table) (net mask : InAddr) (ids : List Nat) : List Nat × List Nat :=
  ids.span fun id => !decide (sameRoute (t.rt id) net mask)

-- route_add, once the new route is there.
def routeLink (t : Table) (newrt : Nat) (new : NewRt) : Int × Table :=
  if new.net = INADDR_ANY then (0, (routeDeref? t t.defroute).setDefroute (some newrt))
  else
    let b := routeHash new.net
    match splitBucket t new.net new.mask (t.allroutes b) with
    | (before, []) => (0, t.setBucket b (before ++ [newrt]))
    | (before, rt :: after) =>
        if new.flags &&& RTF_STATIC = 0 ∧ (t.rt rt).has RTF_STATIC then (EACCES, kfree t newrt)
        else (0, (routeDeref t rt).setBucket b (before ++ newrt :: after))

def routeAdd (kmalloc : Bool) (t : Table) (new : NewRt) : Int × Table :=
  match routeAlloc kmalloc t new with
  | (none, t) => (ENOMEM, t)
  | (some newrt, t) => routeLink t newrt new

-- The loop of route_del and route_flush: the routes that are taken out of a bucket.
def unlinkAll (gone : Rt → Bool) : List Nat → Table → List Nat × Table
  | [], t => ([], t)
  | id :: rest, t =>
      if gone (t.rt id) then unlinkAll gone rest (routeDeref t id)
      else
        let result := unlinkAll gone rest t
        (id :: result.1, result.2)

def sweep (gone : Rt → Bool) (t : Table) (b : BitVec 8) : Table :=
  let result := unlinkAll gone (t.allroutes b) t
  result.2.setBucket b result.1

def routeDel (t : Table) (net mask : InAddr) : Table :=
  if t.defroute.isSome ∧ net = INADDR_ANY then (routeDeref? t t.defroute).setDefroute none
  else sweep (fun rt => decide (sameRoute rt net mask)) t (routeHash net)

def RT_HASH_SIZE : Nat := 256

def routeFlush (t : Table) (nif : Nat) : Table :=
  let t := match t.defroute with
    | some id => if (t.rt id).nif = nif then (routeDeref t id).setDefroute none else t
    | none => t
  ((List.range RT_HASH_SIZE).map fun i => BitVec.ofNat 8 i).foldl
    (sweep fun rt => decide (rt.nif = nif) && !decide (rt.has RTF_LOCAL)) t

-- SIOCADDRT and SIOCDELRT, with the families of the addresses.
inductive RouteCmd where
  | add
  | del
deriving DecidableEq, Repr

structure Rtentry where
  dstInet : Bool
  dst : InAddr
  gatewayInet : Bool
  gateway : InAddr
  flags : Short
  metric : BitVec 32
deriving DecidableEq, Repr

-- The mask and the flags of a route to an address: a host route, unless it is the number of a net.
def ioctlMask (ifs : Netifs) (rte : Rtentry) : InAddr × Short :=
  if rte.dst &&& ~~~ipNetmask ifs rte.dst ≠ 0 then (0xffffffff, rte.flags ||| RTF_HOST)
  else (ipNetmask ifs rte.dst, rte.flags &&& ~~~RTF_HOST)

def routeIoctl (kmalloc : Bool) (ifs : Netifs) (t : Table) (cmd : RouteCmd) (rte : Rtentry) : Int × Table :=
  if ¬ rte.dstInet then (EAFNOSUPPORT, t)
  else if ipNetmask ifs rte.dst = 0 then (EADDRNOTAVAIL, t)
  else
    let mask := (ioctlMask ifs rte).1
    let flags := (ioctlMask ifs rte).2
    match cmd with
    | .del => (0, routeDel t rte.dst mask)
    | .add =>
        if flags &&& RTF_GATEWAY ≠ 0 ∧ ¬ rte.gatewayInet then (EAFNOSUPPORT, t)
        else
          let gway := if flags &&& RTF_GATEWAY ≠ 0 then rte.gateway else INADDR_ANY
          match ifNet2if ifs (if flags &&& RTF_GATEWAY ≠ 0 then gway else rte.dst) with
          | none => (ENETUNREACH, t)
          | some nif => routeAdd kmalloc t ⟨nif, rte.dst, mask, gway, flags, RT_TTL, rte.metric⟩

-- After route_init.
def Table.init : Table := ⟨fun _ => ⟨0, 0, 0, 0, 0, 0, 0, 0, 0⟩, fun _ => false, 0, fun _ => [], none⟩

end MagxNet.Route
