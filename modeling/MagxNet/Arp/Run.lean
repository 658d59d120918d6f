import MagxNet.Arp.Send

set_option autoImplicit false

namespace MagxNet.Arp

open Bytes (Byte Buffer)
open Buckets (listed)

inductive Op where
  | lookup (nocreat noresolv : Bool) (nif : Option Nat) (type : BitVec 16) (len : Nat) (addr : Buffer)
  | deref (are : Nat)
  | send (nif : Nat) (nexthop : Buffer) (isbrcst : Bool)
  | input (nif : Nat) (buf : Buffer)
  | rarpInput (nif : Nat) (buf : Buffer)
  | ioctl (cmd : Cmd) (req : ArpReq)
  | flush (nif : Nat)
  | expire (are : Nat)

def take (s : Cache) (found : Option Nat) : Cache := { s with held := found.toList ++ s.held }

def give (env : Env) (s : Cache) (are : Nat) : Cache := arpDeref env { s with held := s.held.erase are } are

-- The outside world may be another one at every step.
def step (env : Env) (s : Cache) : Op → Option Cache
  | .lookup nocreat noresolv nif type len addr =>
      (arpLookup env s nocreat noresolv nif type len addr).map fun r => take r.1 r.2
  | .deref are => some (give env s are)
  | .send nif nexthop isbrcst => (ifSend env nif nexthop isbrcst s).map Prod.fst
  | .input nif buf => arpInput env nif buf s
  | .rarpInput nif buf => some (rarpInput env nif buf s)
  | .ioctl cmd req => (arpIoctl env cmd req s).map Prod.fst
  | .flush nif => some (arpFlush env nif s)
  | .expire are => some (expire env s are)

-- Callers give back what they hold, and never hold so many references of one entry that their number does not fit
-- into links; if_send holds one. An event that expires is one of the timer's.
def Allowed (s : Cache) : Op → Prop
  | .lookup _ _ _ _ _ _ => ∀ are ∈ s.held, s.held.count are + 4 < 65536
  | .deref are => are ∈ s.held
  | .expire are => are ∈ s.events
  | _ => True

instance (s : Cache) (op : Op) : Decidable (Allowed s op) := by
  cases op <;> unfold Allowed <;> infer_instance

def empty (memory : Nat → Entry) : Cache where
  entry := memory
  live := fun _ => false
  allocs := 0
  arptab := fun _ => []
  rarptab := fun _ => []
  events := []
  held := []
  dest := []
  done := []
  wire := []
  stale := []

inductive Reached : Cache → Prop where
  | start (memory : Nat → Entry) : Reached (empty memory)
  | step (s s' : Cache) (env : Env) (op : Op) (before : Reached s) (allowed : Allowed s op)
      (result : Arp.step env s op = some s') : Reached s'

-- The address of an entry has room for the one that is looked up.
def Fits : Op → Prop
  | .lookup _ _ _ _ len _ => len ≤ ADR_SIZE
  | .input _ buf => arphPrlen buf ≤ ADR_SIZE
  | _ => True

def GivesUp (s : Cache) : Op → Prop
  | .expire are => givesUp s are
  | _ => False

def callers : Op → Bool
  | .lookup _ _ _ _ _ _ => true
  | .deref _ => true
  | _ => false

def resolvedOrFreed (s : Cache) (d : Done) : Prop :=
  match d.fate with
  | .freed => s.live d.are = false
  | .sent _ _ _ => s.live d.are = true → (s.entry d.are).flags.hwcom = true
  | .ifDown => s.live d.are = true → (s.entry d.are).flags.hwcom = true
  | .direct _ _ _ => True
  | .full => True

-- A packet waits on the entry that it was for until that is resolved; else one thing has become of it.
inductive Placed (s : Cache) (p are : Nat) : Prop where
  | waits (live : s.live are = true) (queued : (s.entry are).outq.count p = 1) (pending : (s.entry are).flags.hwcom = false)
      (open_ : p ∉ s.done.map Done.packet)
  | done (d : Done) (member : d ∈ s.done) (packet : d.packet = p) (same : d.are = are)
      (once : (s.done.map Done.packet).count p = 1) (gone : ∀ other, s.live other = true → p ∉ (s.entry other).outq)
      (why : resolvedOrFreed s d)

structure CacheHolds (s : Cache) : Prop where
  links : ∀ are, s.live are = true → (s.entry are).links =
    listed ARP_HASHSIZE s.arptab are + listed ARP_HASHSIZE s.rarptab are + s.held.count are
  prChain : ∀ i are, are ∈ s.arptab i → i = prHash (s.entry are)
  hwChain : ∀ i are, are ∈ s.rarptab i → i = hwHash (s.entry are)
  resolved : ∀ i are, are ∈ s.arptab i → (s.entry are).flags.hwcom = true → are ∈ s.rarptab (hwHash (s.entry are))
  prLive : ∀ i are, are ∈ s.arptab i → s.live are = true
  hwLive : ∀ i are, are ∈ s.rarptab i → s.live are = true
  eventLive : ∀ are ∈ s.events, s.live are = true
  heldLive : ∀ are ∈ s.held, s.live are = true
  packets : ∀ (p are : Nat), s.dest[p]? = some are → Placed s p are

theorem start_sound (memory : Nat → Entry) : Sound (empty memory) [] nobody ∧ Paired (empty memory) nobody := by
  refine ⟨⟨⟨⟨?_, ?_, ?_⟩, ⟨?_, ?_, ?_⟩, ?_, ?_, ?_, ?_, ?_, ?_, ?_, ?_, ?_, ?_, ?_, ?_⟩, ⟨?_, ?_, ?_, ?_, ?_, ?_, ?_, ?_, ?_, ?_⟩⟩, ?_⟩
  all_goals simp [empty]
  intro are _ live
  cases live

-- The reference of a caller becomes that of the function that gives it back.
theorem books_give (s : Cache) (are : Nat) (books : Books s []) (member : are ∈ s.held) :
    Books { s with held := s.held.erase are } [are] := by
  have counted : ∀ other, refs { s with held := s.held.erase are } [are] other = refs s [] other := by
    intro other
    by_cases same : other = are
    · subst same
      have present := List.count_pos_iff.mpr member
      rw [refs_cons_self]
      unfold refs
      dsimp only
      rw [List.count_erase_self]
      omega
    · rw [refs_cons_other _ [] are other same]
      unfold refs
      dsimp only
      rw [List.count_erase_of_ne same]
  refine ⟨books.prFiled, books.hwFiled, books.prLive, books.hwLive, books.hwCom, books.prCom, books.known, books.eventsOnce,
    books.eventsSet, fun other inside => books.heldLive other (List.mem_of_mem_erase inside), ?_, ?_, ?_, ?_⟩
  · intro other inside
    rw [List.mem_singleton.mp inside]
    exact books.heldLive are member
  · intro other live
    rw [counted]
    exact books.links other live
  · intro other live
    rw [counted]
    exact books.used other live
  · intro other
    have fewer := List.Sublist.count_le other (List.erase_sublist (a := are) (l := s.held))
    have room := books.room other
    dsimp only
    omega

theorem books_take (s : Cache) (found : Option Nat) (books : Books s found.toList)
    (room : ∀ are ∈ s.held, s.held.count are + 4 < 65536) : Books (take s found) [] := by
  have counted : ∀ other, refs (take s found) [] other = refs s found.toList other := by
    intro other
    unfold refs take
    dsimp only
    rw [List.count_append, List.count_nil]
    omega
  refine ⟨books.prFiled, books.hwFiled, books.prLive, books.hwLive, books.hwCom, books.prCom, books.known, books.eventsOnce,
    books.eventsSet, ?_, fun _ no => absurd no List.not_mem_nil, ?_, ?_, ?_⟩
  · intro other inside
    exact (List.mem_append.mp inside).elim (books.looseLive other) (books.heldLive other)
  · intro other live
    rw [counted]
    exact books.links other live
  · intro other live
    rw [counted]
    exact books.used other live
  · intro other
    have one : found.toList.count other ≤ 1 := by
      cases found with
      | none => exact Nat.zero_le 1
      | some are => exact List.count_le_length
    unfold take
    dsimp only
    rw [List.count_append]
    by_cases inside : other ∈ s.held
    · have few := room other inside
      omega
    · rw [List.count_eq_zero.mpr inside]
      omega

structure Stepped (s s' : Cache) (op : Op) : Prop where
  sound : Sound s' [] nobody
  paired : Paired s' nobody
  stale : ¬ GivesUp s op → s'.stale = s.stale
  held : callers op = false → s'.held = s.held

theorem returned_stepped (s s' : Cache) (op : Op) (returned : Returned s s') : Stepped s s' op :=
  ⟨returned.sound, returned.paired, fun _ => returned.stale, fun _ => returned.held⟩

theorem step_stepped (env : Env) (s s' : Cache) (op : Op) (sound : Sound s [] nobody) (paired : Paired s nobody)
    (allowed : Allowed s op) (result : step env s op = some s') : Stepped s s' op := by
  cases op with
  | lookup nocreat noresolv nif type len addr =>
      obtain ⟨⟨t, found⟩, inner, same⟩ := Option.map_eq_some_iff.mp result
      have looked := lookup_looked env s t nocreat noresolv nif type len addr found sound paired inner
      cases same
      have held := looked.held
      refine ⟨⟨books_take t found looked.sound.books (held ▸ allowed), ?_⟩, looked.paired, fun _ => looked.stale,
        fun no => by cases no⟩
      exact packets_same t _ nobody looked.sound.packets rfl rfl rfl rfl (fun _ => rfl) fun _ => rfl
  | deref are =>
      cases result
      have packets := packets_same s { s with held := s.held.erase are } nobody sound.packets rfl rfl rfl rfl (fun _ => rfl)
        fun _ => rfl
      have returned := deref_returned env _ are ⟨books_give s are sound.books allowed, packets⟩ paired
      exact ⟨returned.sound, returned.paired, fun _ => returned.stale, fun no => by cases no⟩
  | send nif nexthop isbrcst =>
      obtain ⟨⟨t, ret⟩, inner, same⟩ := Option.map_eq_some_iff.mp result
      cases same
      exact returned_stepped s _ _ (send_returned env s t nif nexthop isbrcst ret sound paired inner)
  | input nif buf => exact returned_stepped s s' _ (input_returned env s s' nif buf sound paired result)
  | rarpInput nif buf =>
      cases result
      exact returned_stepped s _ _ (rarp_input_returned env s nif buf sound paired)
  | ioctl cmd req =>
      obtain ⟨⟨t, ret, req'⟩, inner, same⟩ := Option.map_eq_some_iff.mp result
      cases same
      exact returned_stepped s _ _ (ioctl_returned env s t cmd req req' ret sound paired inner)
  | flush nif =>
      obtain ⟨flushed, paired', calm⟩ := arp_flush_sound env nif nobody s sound paired
      have same : arpFlush env nif s = s' := Option.some.inj result
      rw [same] at flushed paired' calm
      exact ⟨flushed, paired', fun _ => calm.stale, fun _ => calm.held⟩
  | expire are =>
      cases result
      obtain ⟨fired, paired', rest, stale⟩ := expire_sound env s nobody are sound paired allowed
      exact ⟨fired, paired', stale, fun _ => rest.held⟩

theorem step_total (env : Env) (s : Cache) (op : Op) (fits : Fits op) : ∃ s', step env s op = some s' := by
  apply Option.ne_none_iff_exists'.mp
  intro overrun
  cases op with
  | lookup nocreat noresolv nif type len addr =>
      exact absurd (lookup_none env s _ _ _ _ _ _ (Option.map_eq_none_iff.mp overrun)).2 (Nat.not_lt.mpr fits)
  | deref are => cases overrun
  | send nif nexthop isbrcst => exact send_total env s nif nexthop isbrcst (Option.map_eq_none_iff.mp overrun)
  | input nif buf => exact input_total env s nif buf fits overrun
  | rarpInput nif buf => cases overrun
  | ioctl cmd req => exact ioctl_total env s cmd req (Option.map_eq_none_iff.mp overrun)
  | flush nif => exact Option.some_ne_none _ overrun
  | expire are => cases overrun

theorem reached_sound (s : Cache) (reached : Reached s) : Sound s [] nobody ∧ Paired s nobody := by
  induction reached with
  | start memory => exact start_sound memory
  | step s s' env op _ allowed result before =>
      have stepped := step_stepped env s s' op before.1 before.2 allowed result
      exact ⟨stepped.sound, stepped.paired⟩

theorem packets_placed (s : Cache) (packets : Packets s nobody) (p are : Nat) (goes : s.dest[p]? = some are) : Placed s p are := by
  rcases packets.placed p are goes with ⟨live, queued⟩ | gone
  · have pending : (s.entry are).flags.hwcom = false := by
      refine Bool.eq_false_iff.mpr fun com => ?_
      rw [packets.quiet are (fun no => no) live com] at queued
      cases queued
    exact .waits live (List.count_eq_one_of_mem (packets.queuedOnce are live) queued) pending (packets.apart are live p queued)
  · obtain ⟨d, member, same⟩ := List.mem_map.mp gone
    have was := packets.doneFor d member
    rw [same, goes] at was
    refine .done d member same (Option.some.inj was).symm (List.count_eq_one_of_mem packets.doneOnce gone)
      (fun other live queued => packets.apart other live p queued gone) ?_
    unfold resolvedOrFreed
    have freed := packets.freed d member
    have resolved := packets.resolved d member
    cases fate : d.fate with
    | freed => exact freed fate
    | sent nif hwaddr hwlen => exact resolved (by rw [fate]; rfl)
    | ifDown => exact resolved (by rw [fate]; rfl)
    | direct nif hwaddr hwlen => trivial
    | full => trivial

theorem sound_holds (s : Cache) (sound : Sound s [] nobody) (paired : Paired s nobody) : CacheHolds s := by
  have books := sound.books
  refine ⟨?_, books.prFiled.chain, books.hwFiled.chain, ?_, books.prLive, books.hwLive,
    fun are member => ((books.eventsSet are).mp member).1, books.heldLive, packets_placed s sound.packets⟩
  · intro are live
    rw [books.links are live]
    unfold refs
    rw [List.count_nil, Nat.add_zero]
  intro i are member com
  obtain ⟨j, other⟩ := (paired are (fun no => no) (books.prLive i are member) com).mp ⟨i, member⟩
  exact books.hwFiled.chain j are other ▸ other

theorem arp_cache (s : Cache) (reached : Reached s) : CacheHolds s ∧ ∀ (env : Env) (op : Op), Allowed s op → Fits op →
    ∃ s', step env s op = some s' ∧ Reached s' ∧ (¬ GivesUp s op → s'.stale = s.stale) ∧ (callers op = false → s'.held = s.held) := by
  obtain ⟨sound, paired⟩ := reached_sound s reached
  refine ⟨sound_holds s sound paired, fun env op allowed fits => ?_⟩
  obtain ⟨s', result⟩ := step_total env s op fits
  have stepped := step_stepped env s s' op sound paired allowed result
  exact ⟨s', result, .step s s' env op reached allowed result, stepped.stale, stepped.held⟩

def steps : List (Env × Op) → Cache → Option Cache
  | [], s => some s
  | (env, op) :: next, s => if Allowed s op then (step env s op).bind (steps next) else none

theorem reached_steps (ops : List (Env × Op)) (s s' : Cache) (reached : Reached s) (result : steps ops s = some s') :
    Reached s' := by
  induction ops generalizing s with
  | nil =>
      cases result
      exact reached
  | cons first next rest =>
      unfold steps at result
      split at result
      · rename_i allowed
        obtain ⟨t, one, later⟩ := Option.bind_eq_some_iff.mp result
        exact rest t (.step s t first.1 first.2 reached allowed one) later
      · cases result

-- One interface, 10.0.0.1, with the eight zero bytes behind the address.
def ethernet (up : Bool) : Env where
  nif := fun _ =>
    { up := up, noarp := false, hwtype := HWTYPE_ETH, hwlocal := ⟨6, [2, 0, 0, 0, 0, 1]⟩,
      hwbrcst := ⟨6, [255, 255, 255, 255, 255, 255]⟩, myaddr := some [10, 0, 0, 1, 0, 0, 0, 0, 0, 0, 0, 0], fits := by decide }
  kmalloc := true
  bufAlloc := true
  junk := fun _ => arpAlloc
  stack := []
  root := true
  route := fun _ => some ⟨0, false⟩
  output := 0
  gnuc := false

def resolve : Op := .send 0 [10, 0, 0, 2] false

def reply : Buffer := [0, 1, 8, 0, 6, 4, 0, 2, 2, 0, 0, 0, 0, 2, 10, 0, 0, 2, 2, 0, 0, 0, 0, 1, 10, 0, 0, 1]

def longReply : Buffer :=
  [0, 1, 8, 0, 6, 12, 0, 2, 2, 0, 0, 0, 0, 2, 10, 0, 0, 2, 1, 1, 1, 1, 1, 1, 1, 1, 2, 0, 0, 0, 0, 1,
    10, 0, 0, 1, 0, 0, 0, 0, 0, 0, 0, 0]

theorem arp_cache_resolved : ∃ s, Reached s ∧ CacheHolds s ∧ s.done.map Done.fate = [.sent 0 [2, 0, 0, 0, 0, 2, 0, 0, 0, 0] 6] := by
  have run : (steps [(ethernet true, resolve), (ethernet true, .input 0 reply)] (empty fun _ => arpAlloc)).any
      (fun s => decide (s.done.map Done.fate = [.sent 0 [2, 0, 0, 0, 0, 2, 0, 0, 0, 0] 6])) = true := by decide +kernel
  obtain ⟨s, result, sent⟩ := (Option.any_eq_true _ _).mp run
  have reached := reached_steps _ _ s (.start _) result
  exact ⟨s, reached, (arp_cache s reached).1, of_decide_eq_true sent⟩

-- The interface is down when the answer comes, and the packet is dropped although its entry is resolved and not
-- freed. Nobody answers, and the freed entry is handed to rarp_remove. The address is longer than an entry's.
theorem arp_cache_beyond :
    (∃ s, Reached s ∧ ∃ d ∈ s.done, d.fate = .ifDown ∧ s.live d.are = true) ∧
      (∃ s, Reached s ∧ ∃ are ∈ s.stale, s.live are = false) ∧
      ∃ s env op, Reached s ∧ Allowed s op ∧ step env s op = none := by
  have down : (steps [(ethernet true, resolve), (ethernet false, .input 0 reply)] (empty fun _ => arpAlloc)).any
      (fun s => decide (∃ d ∈ s.done, d.fate = .ifDown ∧ s.live d.are = true)) = true := by decide +kernel
  have silent : (steps ((ethernet true, resolve) :: List.replicate 4 (ethernet true, .expire 0)) (empty fun _ => arpAlloc)).any
      (fun s => decide (∃ are ∈ s.stale, s.live are = false)) = true := by decide +kernel
  have long : (step (ethernet true) (empty fun _ => arpAlloc) (.input 0 longReply)).isNone = true := by decide +kernel
  obtain ⟨s, result, dropped⟩ := (Option.any_eq_true _ _).mp down
  obtain ⟨t, result', used⟩ := (Option.any_eq_true _ _).mp silent
  exact ⟨⟨s, reached_steps _ _ s (.start _) result, of_decide_eq_true dropped⟩,
    ⟨t, reached_steps _ _ t (.start _) result', of_decide_eq_true used⟩,
    empty fun _ => arpAlloc, ethernet true, .input 0 longReply, .start _, trivial, Option.isNone_iff_eq_none.mp long⟩

end MagxNet.Arp
