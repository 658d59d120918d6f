import MagxNet.Arp.Calls

set_option autoImplicit false

namespace MagxNet.Arp

open Bytes (Byte Buffer)

theorem dest_grows (dest : List Nat) (are other p : Nat) (goes : dest[p]? = some other) : (dest ++ [are])[p]? = some other := by
  obtain ⟨bound, _⟩ := List.getElem?_eq_some_iff.mp goes
  rw [List.getElem?_append_left bound]
  exact goes

theorem dest_last (dest : List Nat) (are : Nat) : (dest ++ [are])[dest.length]? = some are := by
  simp

theorem dest_split (dest : List Nat) (are other p : Nat) (goes : (dest ++ [are])[p]? = some other) :
    dest[p]? = some other ∨ (p = dest.length ∧ other = are) := by
  by_cases before : p < dest.length
  · rw [List.getElem?_append_left before] at goes
    exact Or.inl goes
  · obtain ⟨bound, _⟩ := List.getElem?_eq_some_iff.mp goes
    rw [List.length_append, List.length_singleton] at bound
    have last : p = dest.length := by omega
    rw [last, dest_last] at goes
    exact Or.inr ⟨last, (Option.some.inj goes).symm⟩

-- A packet is new: nothing has become of it, and no queue has it.
theorem new_packet (s : Cache) (busy : Nat → Prop) (packets : Packets s busy) :
    s.dest.length ∉ s.done.map Done.packet ∧ ∀ are, s.live are = true → s.dest.length ∉ (s.entry are).outq := by
  have unknown : ∀ are, s.dest[s.dest.length]? ≠ some are := fun are same => by simp at same
  refine ⟨fun inside => ?_, fun are live inside => unknown are (packets.queuedFor are live _ inside)⟩
  obtain ⟨d, member, same⟩ := List.mem_map.mp inside
  exact unknown d.are (same ▸ packets.doneFor d member)

-- It goes to the interface at once, or is dropped at once.
theorem packets_at_once (s : Cache) (are : Nat) (fate : Fate) (packets : Packets s nobody) (known : are < s.allocs)
    (plain : resolving fate = false) (kept : fate ≠ .freed) :
    Packets { s with dest := s.dest ++ [are], done := s.done ++ [⟨s.dest.length, are, fate⟩] } nobody := by
  obtain ⟨fresh, unqueued⟩ := new_packet s nobody packets
  have names : (s.done ++ [Done.mk s.dest.length are fate]).map Done.packet = s.done.map Done.packet ++ [s.dest.length] := by
    rw [List.map_append]
    rfl
  have either : ∀ d, d ∈ s.done ++ [Done.mk s.dest.length are fate] → d ∈ s.done ∨ d = ⟨s.dest.length, are, fate⟩ := fun d member =>
    (List.mem_append.mp member).imp id List.mem_singleton.mp
  refine ⟨?_, ?_, ?_, packets.queuedOnce, ?_, ?_, ?_, packets.quiet, ?_, ?_⟩
  · intro d member
    rcases either d member with before | same
    · exact dest_grows s.dest are _ _ (packets.doneFor d before)
    · rw [same]
      exact dest_last s.dest are
  · dsimp only
    rw [names, List.nodup_append]
    refine ⟨packets.doneOnce, List.nodup_singleton _, fun p before q last same => ?_⟩
    rw [List.mem_singleton.mp last] at same
    exact fresh (same ▸ before)
  · intro other live p queued
    exact dest_grows s.dest are _ _ (packets.queuedFor other live p queued)
  · intro other live p queued
    dsimp only
    rw [names, List.mem_append, List.mem_singleton]
    rintro (before | same)
    · exact packets.apart other live p queued before
    · exact unqueued other live (same ▸ queued)
  · intro p other goes
    dsimp only
    rw [names, List.mem_append, List.mem_singleton]
    rcases dest_split s.dest are other p goes with before | ⟨last, _⟩
    · exact (packets.placed p other before).imp id Or.inl
    · exact Or.inr (Or.inr last)
  · intro other member
    rcases List.mem_append.mp member with before | last
    · exact packets.known other before
    · rw [List.mem_singleton.mp last]
      exact known
  · intro d member which
    rcases either d member with before | same
    · exact packets.freed d before which
    · rw [same] at which
      exact absurd which kept
  · intro d member which
    rcases either d member with before | same
    · exact packets.resolved d before which
    · rw [same, plain] at which
      cases which

theorem packets_queued (s : Cache) (are : Nat) (packets : Packets s nobody) (known : are < s.allocs) (live : s.live are = true)
    (pending : (s.entry are).flags.hwcom = false) :
    Packets ({ s with dest := s.dest ++ [are] }.setEntry are
      { s.entry are with outq := (s.entry are).outq ++ [s.dest.length] }) nobody := by
  obtain ⟨fresh, unqueued⟩ := new_packet s nobody packets
  have here : ({ s with dest := s.dest ++ [are] }.setEntry are
      { s.entry are with outq := (s.entry are).outq ++ [s.dest.length] }).entry are
      = { s.entry are with outq := (s.entry are).outq ++ [s.dest.length] } := entry_set_here _ are _
  have others : ∀ other, other ≠ are → ({ s with dest := s.dest ++ [are] }.setEntry are
      { s.entry are with outq := (s.entry are).outq ++ [s.dest.length] }).entry other = s.entry other :=
    fun other different => entry_set_other _ are other _ different
  have dest : ({ s with dest := s.dest ++ [are] }.setEntry are
      { s.entry are with outq := (s.entry are).outq ++ [s.dest.length] }).dest = s.dest ++ [are] := rfl
  have same : ∀ t : Cache, t = { s with dest := s.dest ++ [are] }.setEntry are
      { s.entry are with outq := (s.entry are).outq ++ [s.dest.length] } →
      t.done = s.done ∧ t.live = s.live ∧ t.allocs = s.allocs := fun t equal => by rw [equal]; exact ⟨rfl, rfl, rfl⟩
  obtain ⟨done, alive, allocs⟩ := same _ rfl
  generalize ({ s with dest := s.dest ++ [are] }.setEntry are
      { s.entry are with outq := (s.entry are).outq ++ [s.dest.length] }) = t at *
  have queue : ∀ other p, p ∈ (t.entry other).outq → p ∈ (s.entry other).outq ∨ (p = s.dest.length ∧ other = are) := by
    intro other p queued
    by_cases equal : other = are
    · rw [equal, here] at queued
      rw [equal]
      exact (List.mem_append.mp queued).imp id fun last => ⟨List.mem_singleton.mp last, rfl⟩
    · rw [others other equal] at queued
      exact Or.inl queued
  constructor
  · rw [done, dest]
    exact fun d member => dest_grows s.dest are _ _ (packets.doneFor d member)
  · rw [done]
    exact packets.doneOnce
  · rw [dest, alive]
    intro other there p queued
    rcases queue other p queued with before | ⟨last, equal⟩
    · exact dest_grows s.dest are _ _ (packets.queuedFor other there p before)
    · rw [last, equal]
      exact dest_last s.dest are
  · rw [alive]
    intro other there
    by_cases equal : other = are
    · rw [equal, here, List.nodup_append]
      refine ⟨packets.queuedOnce are live, List.nodup_singleton _, fun p before q last twice => ?_⟩
      rw [List.mem_singleton.mp last] at twice
      exact unqueued are live (twice ▸ before)
    · rw [others other equal]
      exact packets.queuedOnce other there
  · rw [alive, done]
    intro other there p queued
    rcases queue other p queued with before | ⟨last, _⟩
    · exact packets.apart other there p before
    · rw [last]
      exact fresh
  · rw [dest, alive, done]
    intro p other goes
    rcases dest_split s.dest are other p goes with before | ⟨last, equal⟩
    · refine (packets.placed p other before).imp (fun both => ⟨both.1, ?_⟩) id
      by_cases equal : other = are
      · rw [equal, here]
        exact List.mem_append_left _ (equal ▸ both.2)
      · rw [others other equal]
        exact both.2
    · rw [equal, here, last]
      exact Or.inl ⟨live, List.mem_append_right _ (List.mem_singleton.mpr rfl)⟩
  · rw [dest, allocs]
    intro other member
    rcases List.mem_append.mp member with before | last
    · exact packets.known other before
    · rw [List.mem_singleton.mp last]
      exact known
  · rw [alive]
    intro other idle there com
    by_cases equal : other = are
    · rw [equal, here, pending] at com
      cases com
    · rw [others other equal] at com ⊢
      exact packets.quiet other idle there com
  · rw [done, alive]
    exact packets.freed
  · rw [done, alive]
    intro d member which there
    by_cases equal : d.are = are
    · rw [equal, here]
      exact equal ▸ packets.resolved d member which there
    · rw [others d.are equal]
      exact packets.resolved d member which there

theorem sent_to_returned (env : Env) (s : Cache) (are : Nat) (sound : Sound s [are] nobody) (paired : Paired s nobody) :
    Returned s (ifSendTo env s are).1 := by
  have live := sound.books.looseLive are (List.mem_singleton.mpr rfl)
  have known := sound.books.known are live
  have com := com_flags s [are] are sound.books live
  have at_once : ∀ fate, resolving fate = false → fate ≠ .freed → Returned s (arpDeref env
      { s with dest := s.dest ++ [are], done := s.done ++ [⟨s.dest.length, are, fate⟩] } are) := by
    intro fate plain kept
    have books : Books { s with dest := s.dest ++ [are], done := s.done ++ [⟨s.dest.length, are, fate⟩] } [are] :=
      books_same s _ [are] sound.books (fun other => same_keys_refl _) rfl rfl rfl rfl rfl rfl
    have returned := deref_returned env _ are ⟨books, packets_at_once s are fate sound.packets known plain kept⟩ paired
    exact ⟨returned.sound, returned.paired, returned.held, returned.stale⟩
  unfold ifSendTo
  rw [use_of_live s are live]
  dsimp only
  rw [com]
  by_cases hwcom : (s.entry are).flags.hwcom = true
  · rw [if_pos hwcom]
    exact at_once _ rfl (fun no => by cases no)
  · rw [if_neg hwcom]
    unfold ifEnqueue
    split
    · rename_i room
      have books : Books { s with dest := s.dest ++ [are] } [are] :=
        books_same s _ [are] sound.books (fun other => same_keys_refl _) rfl rfl rfl rfl rfl rfl
      have calm := calm_set { s with dest := s.dest ++ [are] } are
        { s.entry are with outq := (s.entry are).outq ++ [s.dest.length] } ⟨rfl, rfl, rfl, rfl⟩
      have paired' := paired_calm { s with dest := s.dest ++ [are] } _ nobody paired calm rfl rfl
      have queued := books_set _ [are] are { s.entry are with outq := (s.entry are).outq ++ [s.dest.length] } books
        ⟨rfl, rfl, rfl, rfl, rfl, rfl⟩
      have packets := packets_queued s are sound.packets known live (Bool.eq_false_iff.mpr hwcom)
      have returned := deref_returned env _ are ⟨queued, packets⟩ paired'
      exact ⟨returned.sound, returned.paired, returned.held, returned.stale⟩
    · exact at_once .full rfl (fun no => by cases no)

theorem send_returned (env : Env) (s s' : Cache) (nif : Nat) (nexthop : Buffer) (isbrcst : Bool) (ret : Int)
    (sound : Sound s [] nobody) (paired : Paired s nobody) (result : ifSend env nif nexthop isbrcst s = some (s', ret)) :
    Returned s s' := by
  have same : ∀ ret' : Int, some (s, ret') = some (s', ret) → Returned s s' := fun ret' equal => by
    cases equal
    exact returned_refl s sound paired
  unfold ifSend at result
  split at result
  · exact same _ result
  · split at result
    · exact same _ result
    · split at result
      · split at result
        · exact same _ result
        · split at result
          · cases result
          · rename_i t found
            cases result
            exact looked_returned s _ (lookup_looked env s _ _ _ _ _ _ _ _ sound paired found)
          · rename_i t are found
            have looked := lookup_looked env s _ _ _ _ _ _ _ _ sound paired found
            have sent := sent_to_returned env t are looked.sound looked.paired
            rw [Option.some.inj result] at sent
            exact returned_looked s t s' _ looked sent
      · exact same _ result

theorem send_total (env : Env) (s : Cache) (nif : Nat) (nexthop : Buffer) (isbrcst : Bool) :
    ifSend env nif nexthop isbrcst s ≠ none := by
  unfold ifSend
  split
  · exact Option.some_ne_none _
  · split
    · exact Option.some_ne_none _
    · split
      · split
        · exact Option.some_ne_none _
        · split
          · rename_i overrun
            exact absurd (lookup_none env s _ _ _ _ _ _ overrun).2 (by decide)
          · exact Option.some_ne_none _
          · exact Option.some_ne_none _
      · exact Option.some_ne_none _

end MagxNet.Arp
