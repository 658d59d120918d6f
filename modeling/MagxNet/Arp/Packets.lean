import MagxNet.Arp.Refs

set_option autoImplicit false

namespace MagxNet.Arp

def resolving : Fate → Bool
  | .sent _ _ _ => true
  | .ifDown => true
  | _ => false

-- Every packet is on the queue of the entry that it was for, or one thing has become of it. busy is an entry
-- that has been resolved while its queue has not been emptied yet.
structure Packets (s : Cache) (busy : Nat → Prop) : Prop where
  doneFor : ∀ d ∈ s.done, s.dest[d.packet]? = some d.are
  doneOnce : (s.done.map Done.packet).Nodup
  queuedFor : ∀ are, s.live are = true → ∀ p ∈ (s.entry are).outq, s.dest[p]? = some are
  queuedOnce : ∀ are, s.live are = true → (s.entry are).outq.Nodup
  apart : ∀ are, s.live are = true → ∀ p ∈ (s.entry are).outq, p ∉ s.done.map Done.packet
  placed : ∀ (p : Nat) (are : Nat), s.dest[p]? = some are →
    (s.live are = true ∧ p ∈ (s.entry are).outq) ∨ p ∈ s.done.map Done.packet
  known : ∀ are ∈ s.dest, are < s.allocs
  quiet : ∀ are, ¬ busy are → s.live are = true → (s.entry are).flags.hwcom = true → (s.entry are).outq = []
  freed : ∀ d ∈ s.done, d.fate = .freed → s.live d.are = false
  resolved : ∀ d ∈ s.done, resolving d.fate = true → s.live d.are = true → (s.entry d.are).flags.hwcom = true

theorem packets_same (s s' : Cache) (busy : Nat → Prop) (packets : Packets s busy) (live : s'.live = s.live)
    (allocs : s'.allocs = s.allocs) (dest : s'.dest = s.dest) (done : s'.done = s.done)
    (outq : ∀ are, (s'.entry are).outq = (s.entry are).outq)
    (hwcom : ∀ are, (s'.entry are).flags.hwcom = (s.entry are).flags.hwcom) : Packets s' busy := by
  constructor
  · rw [done, dest]
    exact packets.doneFor
  · rw [done]
    exact packets.doneOnce
  · intro are
    rw [live, dest, outq]
    exact packets.queuedFor are
  · intro are
    rw [live, outq]
    exact packets.queuedOnce are
  · intro are
    rw [live, outq, done]
    exact packets.apart are
  · intro p are
    rw [dest, live, outq, done]
    exact packets.placed p are
  · rw [dest, allocs]
    exact packets.known
  · intro are
    rw [live, hwcom, outq]
    exact packets.quiet are
  · rw [done, live]
    exact packets.freed
  · intro d
    rw [done, live, hwcom]
    exact packets.resolved d

theorem packets_set (s : Cache) (busy : Nat → Prop) (are : Nat) (e : Entry) (packets : Packets s busy)
    (outq : e.outq = (s.entry are).outq) (hwcom : e.flags.hwcom = (s.entry are).flags.hwcom) :
    Packets (s.setEntry are e) busy := by
  refine packets_same s _ busy packets rfl rfl rfl rfl (fun other => ?_) fun other => ?_
  · by_cases same : other = are
    · rw [same, entry_set_here, outq]
    · rw [entry_set_other s are other e same]
  · by_cases same : other = are
    · rw [same, entry_set_here, hwcom]
    · rw [entry_set_other s are other e same]

theorem packets_alike (s s' : Cache) (busy : Nat → Prop) (packets : Packets s busy) (alike : Alike s s') : Packets s' busy :=
  packets_same s s' busy packets alike.live alike.allocs alike.dest alike.done (fun _ => by rw [alike.entry])
    fun _ => by rw [alike.entry]

theorem mem_moved (s : Cache) (are : Nat) (fate : Fate) (d : Done) :
    d ∈ s.done ++ (s.entry are).outq.map (Done.mk · are fate) ↔
      d ∈ s.done ∨ (d.packet ∈ (s.entry are).outq ∧ d.are = are ∧ d.fate = fate) := by
  rw [List.mem_append, List.mem_map]
  constructor
  · rintro (before | ⟨p, queued, rfl⟩)
    · exact Or.inl before
    · exact Or.inr ⟨queued, rfl, rfl⟩
  · rintro (before | ⟨queued, rfl, rfl⟩)
    · exact Or.inl before
    · exact Or.inr ⟨d.packet, queued, rfl⟩

theorem moved_packets (s : Cache) (are : Nat) (fate : Fate) :
    (s.done ++ (s.entry are).outq.map (Done.mk · are fate)).map Done.packet = s.done.map Done.packet ++ (s.entry are).outq := by
  rw [List.map_append, List.map_map]
  congr 1
  exact List.map_id _

-- A queue that is emptied: its packets go over to those that something has become of.
theorem packets_moved (s s' : Cache) (busy busy' : Nat → Prop) (are : Nat) (fate : Fate) (packets : Packets s busy)
    (live : s.live are = true)
    (done : s'.done = s.done ++ (s.entry are).outq.map (Done.mk · are fate)) (dest : s'.dest = s.dest)
    (allocs : s'.allocs = s.allocs) (others : ∀ other, other ≠ are → s'.entry other = s.entry other)
    (alive : ∀ other, other ≠ are → s'.live other = s.live other)
    (here : s'.live are = true → (s'.entry are).outq = [] ∧ (s'.entry are).flags.hwcom = (s.entry are).flags.hwcom)
    (busier : ∀ other, other ≠ are → busy other → busy' other)
    (freed : fate = .freed → s'.live are = false)
    (resolved : resolving fate = true → s'.live are = true → (s.entry are).flags.hwcom = true) : Packets s' busy' := by
  have gone : ∀ d ∈ s'.done, d ∈ s.done ∨ (d.packet ∈ (s.entry are).outq ∧ d.are = are ∧ d.fate = fate) := by
    intro d member
    exact (mem_moved s are fate d).mp (done ▸ member)
  have names : s'.done.map Done.packet = s.done.map Done.packet ++ (s.entry are).outq := by
    rw [done, moved_packets]
  constructor
  · intro d member
    rw [dest]
    rcases gone d member with before | ⟨queued, same, _⟩
    · exact packets.doneFor d before
    · rw [same]
      exact packets.queuedFor are live d.packet queued
  · rw [names, List.nodup_append]
    refine ⟨packets.doneOnce, packets.queuedOnce are live, fun p before q queued same => ?_⟩
    exact packets.apart are live q queued (same ▸ before)
  · intro other there p queued
    rw [dest]
    by_cases same : other = are
    · rw [same, (here (same ▸ there)).1] at queued
      exact absurd queued List.not_mem_nil
    · rw [others other same] at queued
      exact packets.queuedFor other (alive other same ▸ there) p queued
  · intro other there
    by_cases same : other = are
    · rw [same, (here (same ▸ there)).1]
      exact List.nodup_nil
    · rw [others other same]
      exact packets.queuedOnce other (alive other same ▸ there)
  · intro other there p queued
    by_cases same : other = are
    · rw [same, (here (same ▸ there)).1] at queued
      exact absurd queued List.not_mem_nil
    · rw [others other same] at queued
      have before := alive other same ▸ there
      rw [names, List.mem_append]
      rintro (old | moved)
      · exact packets.apart other before p queued old
      · have mine := packets.queuedFor are live p moved
        have theirs := packets.queuedFor other before p queued
        rw [mine] at theirs
        exact same (Option.some.inj theirs).symm
  · intro p other goes
    rw [names, List.mem_append]
    rw [dest] at goes
    rcases packets.placed p other goes with ⟨there, queued⟩ | old
    · by_cases same : other = are
      · exact Or.inr (Or.inr (same ▸ queued))
      · rw [alive other same, others other same]
        exact Or.inl ⟨there, queued⟩
    · exact Or.inr (Or.inl old)
  · rw [dest, allocs]
    exact packets.known
  · intro other idle there hwcom
    by_cases same : other = are
    · rw [same]
      exact (here (same ▸ there)).1
    · rw [others other same] at hwcom ⊢
      exact packets.quiet other (fun was => idle (busier other same was)) (alive other same ▸ there) hwcom
  · intro d member which
    rcases gone d member with before | ⟨_, same, which'⟩
    · have dead := packets.freed d before which
      by_cases same : d.are = are
      · rw [same, live] at dead
        cases dead
      · rw [alive d.are same, dead]
    · rw [same]
      exact freed (which'.symm.trans which)
  · intro d member which there
    rcases gone d member with before | ⟨_, same, which'⟩
    · by_cases same : d.are = are
      · rw [same] at there ⊢
        rw [(here there).2]
        exact same ▸ packets.resolved d before which (same ▸ live)
      · rw [others d.are same]
        exact packets.resolved d before which (alive d.are same ▸ there)
    · rw [same] at there ⊢
      rw [(here there).2]
      exact resolved (which' ▸ which) there

theorem packets_freed (env : Env) (s t : Cache) (busy : Nat → Prop) (are : Nat) (packets : Packets s busy)
    (live : s.live are = true) (freed : Freed env s t are) : Packets t busy := by
  have dead : t.live are = false := by rw [freed.live, Function.update_self]
  refine packets_moved s t busy busy are .freed packets live freed.done freed.dest freed.allocs freed.others ?_ ?_
    (fun _ _ was => was) (fun _ => dead) (fun no => by cases no)
  · intro other different
    rw [freed.live, Function.update_of_ne different]
  · intro there
    rw [dead] at there
    cases there

theorem packets_deref (env : Env) (s : Cache) (busy : Nat → Prop) (are : Nat) (packets : Packets s busy)
    (live : s.live are = true) : Packets (arpDeref env s are) busy := by
  rcases arp_deref_cases env s are live with ⟨same, _⟩ | ⟨_, freed⟩
  · obtain ⟨_, outq, _, _, flags, _⟩ := dec_same (s.entry are)
    rw [same]
    exact packets_set s busy are _ packets outq (by rw [flags])
  · exact packets_freed env s _ busy are packets live freed

theorem packets_drainq (s : Cache) (are : Nat) (fate : Fate) (packets : Packets s fun other => other = are)
    (live : s.live are = true) (hwcom : (s.entry are).flags.hwcom = true) (kept : fate ≠ .freed) :
    Packets (drainq s are fate) fun _ => False := by
  refine packets_moved s _ _ _ are fate packets live rfl rfl rfl (fun other different => entry_set_other _ are other _ different)
    (fun _ _ => rfl) (fun _ => ?_) (fun other different same => different same) (fun same => absurd same kept) (fun _ _ => hwcom)
  unfold drainq
  rw [entry_set_here]
  exact ⟨rfl, rfl⟩

end MagxNet.Arp
