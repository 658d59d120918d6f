import MagxNet.Inet.Step
import MagxNet.Tcp.Callers

set_option autoImplicit false

namespace MagxNet.Inet

open Tcp

-- The list is in the order of the numbers, from the last one given down.
structure Numbered (p : Proto) : Prop where
  falling : p.datas.Pairwise fun s t => t.id < s.id
  below : ∀ s ∈ p.datas, s.id < p.made

def KeepsId (f : Sock → Option Sock) : Prop := ∀ s t, f s = some t → t.id = s.id

theorem get_mem (p : Proto) (id : Nat) (s : Sock) (found : p.get id = some s) : s ∈ p.datas ∧ s.id = id := by
  refine ⟨List.mem_of_find?_eq_some found, ?_⟩
  simpa using List.find?_some found

theorem id_inj (p : Proto) (numbered : Numbered p) (s t : Sock) (left : s ∈ p.datas) (right : t ∈ p.datas)
    (same : s.id = t.id) : s = t := by
  have apart : p.datas.Pairwise fun a b => a.id ≠ b.id := by
    refine numbered.falling.imp ?_
    intro a b less
    exact Nat.ne_of_gt less
  have : Std.Symm fun a b : Sock => a.id ≠ b.id := ⟨fun _ _ => Ne.symm⟩
  by_contra differ
  exact apart.forall left right differ same

theorem get_of_mem (p : Proto) (numbered : Numbered p) (s : Sock) (member : s ∈ p.datas) : p.get s.id = some s := by
  unfold Proto.get
  cases found : p.datas.find? (fun t => decide (t.id = s.id)) with
  | none => exact absurd (List.find?_eq_none.mp found s member) (by simp)
  | some t =>
      have same : t.id = s.id := by simpa using List.find?_some found
      exact congrArg some (id_inj p numbered t s (List.mem_of_find?_eq_some found) member same)

theorem mem_change (p : Proto) (id : Nat) (f : Sock → Option Sock) (t : Sock) :
    t ∈ (change p id f).datas ↔ ∃ s ∈ p.datas, (if s.id = id then f s else some s) = some t :=
  List.mem_filterMap

theorem change_cases (p : Proto) (id : Nat) (f : Sock → Option Sock) (t : Sock) (member : t ∈ (change p id f).datas) :
    (t ∈ p.datas ∧ t.id ≠ id) ∨ ∃ s ∈ p.datas, s.id = id ∧ f s = some t := by
  obtain ⟨s, there, same⟩ := (mem_change p id f t).mp member
  split at same
  · rename_i mine
    exact Or.inr ⟨s, there, mine, same⟩
  · rename_i other
    cases same
    exact Or.inl ⟨there, other⟩

theorem numbered_change (p : Proto) (id : Nat) (f : Sock → Option Sock) (keeps : KeepsId f) (numbered : Numbered p) :
    Numbered (change p id f) where
  falling := by
    have same : ∀ s t, (if s.id = id then f s else some s) = some t → t.id = s.id := by
      intro s t kept
      split at kept
      · exact keeps s t kept
      · cases kept
        rfl
    refine List.Pairwise.filterMap _ ?_ numbered.falling
    intro a a' less b from' b' from''
    rw [same a b from', same a' b' from'']
    exact less
  below := by
    intro t member
    obtain ⟨there, -⟩ | ⟨s, there, -, kept⟩ := change_cases p id f t member
    · exact numbered.below t there
    · rw [keeps s t kept]
      exact numbered.below s there

theorem settle_id (w : World) : KeepsId fun s => settle s w := by
  intro s t kept
  dsimp only [settle] at kept
  split at kept
  · cases kept
    rfl
  · cases kept

theorem numbered_push (p : Proto) (w : World) (server : Option Nat) (numbered : Numbered p) :
    Numbered (inDataPut p w server) where
  falling := List.pairwise_cons.mpr ⟨numbered.below, numbered.falling⟩
  below := by
    intro s member
    obtain rfl | member := List.mem_cons.mp member
    · exact Nat.lt_succ_self p.made
    · exact Nat.lt_succ_of_lt (numbered.below s member)

abbrev Assoc := InAddr × InPort × InAddr × InPort

-- The two ends of a connection that is connected and not dead.
def assoc (s : Standing) : Option Assoc :=
  if s.isconnected ∧ ¬ s.dead then some (s.saddr, s.sport, s.daddr, s.dport) else none

def sockAssoc (s : Sock) : Option Assoc := assoc (standing s.conn)

def assocs (p : Proto) : List Assoc := p.datas.filterMap sockAssoc

-- Which sockets can still be bound, connected or made to listen.
structure Ends (s : Standing) : Prop where
  listening : s.state = .listen → s.isconnected = false
  used : s.isconnected → s.sockState ≠ some .isunconnected
  bound : s.isconnected → s.isbound

-- Nothing that would make a new association.
structure Milder (s s' : Standing) : Prop where
  ends : s'.ends = s.ends
  dead : s.dead → s'.dead
  listening : s'.state = .listen → s.state = .listen
  used : s'.sockState = some .isunconnected → s.sockState = some .isunconnected

theorem ends_connected (s s' : Standing) (same : s'.ends = s.ends) : s'.isconnected = s.isconnected :=
  congrArg (fun e : InAddr × InPort × InAddr × InPort × Bool × Bool => e.2.2.2.2.2) same

theorem ends_bound (s s' : Standing) (same : s'.ends = s.ends) : s'.isbound = s.isbound :=
  congrArg (fun e : InAddr × InPort × InAddr × InPort × Bool × Bool => e.2.2.2.2.1) same

theorem ends_milder (s s' : Standing) (milder : Milder s s') (ends : Ends s) : Ends s' where
  listening := by
    intro listening
    rw [ends_connected s s' milder.ends]
    exact ends.listening (milder.listening listening)
  used := by
    intro connected fresh
    rw [ends_connected s s' milder.ends] at connected
    exact ends.used connected (milder.used fresh)
  bound := by
    intro connected
    rw [ends_connected s s' milder.ends] at connected
    rw [ends_bound s s' milder.ends]
    exact ends.bound connected

theorem assoc_milder (s s' : Standing) (milder : Milder s s') : assoc s' = none ∨ assoc s' = assoc s := by
  by_cases dead : s'.dead
  · exact Or.inl (if_neg (fun both => both.2 dead))
  · have alive : ¬ s.dead := fun was => dead (milder.dead was)
    refine Or.inr ?_
    have same := milder.ends
    simp only [Standing.ends, Prod.mk.injEq] at same
    unfold assoc
    rw [same.1, same.2.1, same.2.2.1, same.2.2.2.1, same.2.2.2.2.2]
    simp only [dead, alive]

theorem milder_refl (s : Standing) : Milder s s := ⟨rfl, id, id, id⟩

theorem milder_trans (a b c : Standing) (ab : Milder a b) (bc : Milder b c) : Milder a c where
  ends := bc.ends.trans ab.ends
  dead := fun dead => bc.dead (ab.dead dead)
  listening := fun listening => ab.listening (bc.listening listening)
  used := fun fresh => ab.used (bc.used fresh)

theorem milder_stays (s s' : Standing) (stays : Stays s s') : Milder s s' where
  ends := stays.ends
  dead := stays.dead
  listening := fun listening => (stays.opens (Or.inl listening)).symm.trans listening
  used := by
    intro fresh
    have kept := stays.sock
    unfold Standing.sockState at fresh ⊢
    cases old : s.sock with
    | none =>
        cases new : s'.sock with
        | none =>
            rw [new] at fresh
            cases fresh
        | some so' =>
            rw [old, new] at kept
            exact kept.elim
    | some so =>
        cases new : s'.sock with
        | none =>
            rw [new] at fresh
            cases fresh
        | some so' =>
            rw [old, new] at kept
            rw [new] at fresh
            exact congrArg some (kept.2.2 (Option.some.inj fresh))

-- A change that makes no new association.
def Tame (s s' : Standing) : Prop := Ends s → Ends s' ∧ (assoc s' = none ∨ assoc s' = assoc s)

theorem milder_tame (s s' : Standing) (milder : Milder s s') : Tame s s' :=
  fun ends => ⟨ends_milder s s' milder ends, assoc_milder s s' milder⟩

theorem stays_tame (s s' : Standing) (stays : Stays s s') : Tame s s' := milder_tame s s' (milder_stays s s' stays)

-- A socket that is not connected has no association, whatever it is bound to.
theorem loose_tame (s s' : Standing) (loose : Ends s → Ends s' ∧ s'.isconnected = false) : Tame s s' := by
  intro ends
  obtain ⟨after, unconnected⟩ := loose ends
  exact ⟨after, Or.inl (if_neg (by simp [unconnected]))⟩

-- The invariant of the associations.
structure Distinct (p : Proto) : Prop where
  numbered : Numbered p
  ends : ∀ s ∈ p.datas, Ends (standing s.conn)
  unique : (assocs p).Nodup

theorem filter_map_sublist {α β : Type} (l : List α) (h k : α → Option β) (fewer : ∀ a ∈ l, h a = none ∨ h a = k a) :
    (l.filterMap h).Sublist (l.filterMap k) := by
  induction l with
  | nil => exact List.Sublist.refl _
  | cons a l ih =>
      have rest := ih fun b member => fewer b (List.mem_cons_of_mem a member)
      rw [List.filterMap_cons, List.filterMap_cons]
      obtain none' | same := fewer a List.mem_cons_self
      · rw [none']
        cases k a with
        | none => exact rest
        | some b => exact rest.cons b
      · rw [same]
        cases k a with
        | none => exact rest
        | some b => exact rest.cons_cons b

theorem assocs_change (p : Proto) (id : Nat) (f : Sock → Option Sock) :
    assocs (change p id f) = p.datas.filterMap fun s => (if s.id = id then f s else some s).bind sockAssoc :=
  List.filterMap_filterMap

theorem fewer_change (p : Proto) (id : Nat) (f : Sock → Option Sock)
    (tame : ∀ s ∈ p.datas, s.id = id → ∀ t, f s = some t → Tame (standing s.conn) (standing t.conn))
    (distinct : Distinct p) : (assocs (change p id f)).Sublist (assocs p) := by
  rw [assocs_change]
  refine filter_map_sublist p.datas _ sockAssoc ?_
  intro s there
  split
  · rename_i mine
    cases kept : f s with
    | none => exact Or.inl rfl
    | some t => exact (tame s there mine t kept (distinct.ends s there)).2
  · exact Or.inr rfl

-- One socket is changed in a harmless way, or goes.
theorem distinct_change (p : Proto) (id : Nat) (f : Sock → Option Sock) (keeps : KeepsId f)
    (tame : ∀ s ∈ p.datas, s.id = id → ∀ t, f s = some t → Tame (standing s.conn) (standing t.conn))
    (distinct : Distinct p) : Distinct (change p id f) where
  numbered := numbered_change p id f keeps distinct.numbered
  ends := by
    intro t member
    obtain ⟨there, -⟩ | ⟨s, there, mine, kept⟩ := change_cases p id f t member
    · exact distinct.ends t there
    · exact (tame s there mine t kept (distinct.ends s there)).1
  unique := (fewer_change p id f tame distinct).nodup distinct.unique

theorem distinct_net (p : Proto) (net : Net) (distinct : Distinct p) : Distinct { p with net := net } :=
  ⟨⟨distinct.numbered.falling, distinct.numbered.below⟩, distinct.ends, distinct.unique⟩

theorem settle_conn (s t : Sock) (w : World) (kept : settle s w = some t) : w.alive ∧ t = { s with conn := w } := by
  unfold settle at kept
  split at kept
  · rename_i alive
    exact ⟨alive, (Option.some.inj kept).symm⟩
  · cases kept

theorem distinct_put (p : Proto) (s : Sock) (w : World) (tame : w.alive → ∀ t ∈ p.datas, t.id = s.id →
    Tame (standing t.conn) (standing w)) (distinct : Distinct p) : Distinct (put p s w) := by
  refine distinct_net _ w.net (distinct_change p s.id _ (settle_id w) ?_ distinct)
  intro t there mine t' kept
  obtain ⟨alive, rfl⟩ := settle_conn t t' w kept
  exact tame alive t there mine

theorem distinct_run (p : Proto) (id : Nat) (f : World → World)
    (tame : ∀ w, (f w).alive → Tame (standing w) (standing (f w))) (distinct : Distinct p) : Distinct (run p id f) := by
  unfold run
  split
  · exact distinct
  · rename_i s found
    obtain ⟨there, -⟩ := get_mem p id s found
    refine distinct_put p s _ ?_ distinct
    intro alive t member same
    rw [id_inj p distinct.numbered t s member there same]
    exact tame (here p s) alive

section

variable (f : Sock → Option Sock) (id : Nat) (a : Assoc)

def changed (s : Sock) : Option Assoc := (if s.id = id then f s else some s).bind sockAssoc

theorem changed_mem (l : List Sock) (gives : ∀ s ∈ l, s.id = id → ∀ t, f s = some t → sockAssoc t = some a) (b : Assoc)
    (member : b ∈ l.filterMap (changed f id)) : b = a ∨ b ∈ l.filterMap sockAssoc := by
  obtain ⟨s, there, same⟩ := List.mem_filterMap.mp member
  unfold changed at same
  split at same
  · rename_i mine
    obtain ⟨t, kept, same⟩ := Option.bind_eq_some_iff.mp same
    exact Or.inl (Option.some.inj (same.symm.trans (gives s there mine t kept)))
  · exact Or.inr (List.mem_filterMap.mpr ⟨s, there, same⟩)

-- One socket gets an association that no other has.
theorem changed_nodup (l : List Sock) (falling : l.Pairwise fun s t => t.id < s.id)
    (gives : ∀ s ∈ l, s.id = id → ∀ t, f s = some t → sockAssoc t = some a) (fresh : a ∉ l.filterMap sockAssoc)
    (unique : (l.filterMap sockAssoc).Nodup) : (l.filterMap (changed f id)).Nodup := by
  induction l with
  | nil => exact List.nodup_nil
  | cons s l ih =>
      obtain ⟨above, falling⟩ := List.pairwise_cons.mp falling
      have sub : (l.filterMap sockAssoc).Sublist ((s :: l).filterMap sockAssoc) := (List.sublist_cons_self s l).filterMap _
      have freshTail : a ∉ l.filterMap sockAssoc := fun there => fresh (sub.subset there)
      by_cases mine : s.id = id
      · have others : l.filterMap (changed f id) = l.filterMap sockAssoc := by
          refine List.filterMap_congr fun t there => ?_
          have less := above t there
          exact congrArg (fun kept : Option Sock => kept.bind sockAssoc) (if_neg (by omega))
        rw [List.filterMap_cons, others]
        cases got : changed f id s with
        | none => exact sub.nodup unique
        | some b =>
            unfold changed at got
            rw [if_pos mine] at got
            obtain ⟨t, kept, same⟩ := Option.bind_eq_some_iff.mp got
            cases Option.some.inj (same.symm.trans (gives s List.mem_cons_self mine t kept))
            exact List.nodup_cons.mpr ⟨freshTail, sub.nodup unique⟩
      · have rest := ih falling (fun t there => gives t (List.mem_cons_of_mem s there)) freshTail (sub.nodup unique)
        have same : changed f id s = sockAssoc s :=
          congrArg (fun kept : Option Sock => kept.bind sockAssoc) (if_neg mine)
        rw [List.filterMap_cons, same]
        rw [List.filterMap_cons] at fresh unique
        cases got : sockAssoc s with
        | none => exact rest
        | some b =>
            rw [got] at fresh unique
            refine List.nodup_cons.mpr ⟨fun there => ?_, rest⟩
            obtain rfl | there := changed_mem f id a l (fun t there => gives t (List.mem_cons_of_mem s there)) b there
            · exact fresh List.mem_cons_self
            · exact (List.nodup_cons.mp unique).1 there

end

-- A connection is made of a socket that has none.
theorem distinct_insert (p : Proto) (s : Sock) (w : World) (a : Assoc) (ends : Ends (standing w))
    (gives : assoc (standing w) = some a) (fresh : a ∉ assocs p) (distinct : Distinct p) : Distinct (put p s w) := by
  refine distinct_net (change p s.id fun t => settle t w) w.net ⟨?_, ?_, ?_⟩
  · exact numbered_change p s.id _ (settle_id w) distinct.numbered
  · intro t member
    obtain ⟨there, -⟩ | ⟨u, there, mine, kept⟩ := change_cases p s.id _ t member
    · exact distinct.ends t there
    · obtain ⟨-, rfl⟩ := settle_conn u t w kept
      exact ends
  · rw [assocs_change]
    refine changed_nodup _ s.id a p.datas distinct.numbered.falling ?_ fresh distinct.unique
    intro u there mine t kept
    obtain ⟨-, rfl⟩ := settle_conn u t w kept
    exact gives

theorem assoc_mem (p : Proto) (a : Assoc) (member : a ∈ assocs p) :
    ∃ s ∈ p.datas, s.conn.data.isconnected ∧ ¬ s.conn.data.dead
      ∧ a = (s.conn.data.saddr, s.conn.data.sport, s.conn.data.daddr, s.conn.data.dport) := by
  obtain ⟨s, there, same⟩ := List.mem_filterMap.mp member
  unfold sockAssoc assoc at same
  split at same
  · rename_i both
    exact ⟨s, there, both.1, both.2, (Option.some.inj same).symm⟩
  · cases same

theorem distinct_push (p : Proto) (w : World) (server : Option Nat) (ends : Ends (standing w))
    (fresh : ∀ a, assoc (standing w) = some a → a ∉ assocs p) (distinct : Distinct p) : Distinct (inDataPut p w server) where
  numbered := numbered_push p w server distinct.numbered
  ends := by
    intro s member
    obtain rfl | member := List.mem_cons.mp member
    · exact ends
    · exact distinct.ends s member
  unique := by
    have same : sockAssoc ⟨p.made, w, false, server, []⟩ = assoc (standing w) := rfl
    unfold assocs inDataPut
    rw [List.filterMap_cons, same]
    cases got : assoc (standing w) with
    | none => exact distinct.unique
    | some a => exact List.nodup_cons.mpr ⟨fresh a got, distinct.unique⟩

-- What is done to the queues of clients.

theorem milder_queue (s : Sock) (q : List Nat) : Milder (standing s.conn) (standing (setQueue s q).conn) where
  ends := rfl
  dead := id
  listening := id
  used := by
    intro fresh
    have same : (standing (setQueue s q).conn).sockState = (standing s.conn).sockState := by
      show (s.conn.data.sock.map fun so => { so with queued := q.length }).map (·.state) = s.conn.data.sock.map (·.state)
      rw [Option.map_map]
      rfl
    exact same.symm.trans fresh

theorem distinct_dequeue (p : Proto) (server client : Nat) (distinct : Distinct p) : Distinct (dequeue p server client) := by
  refine distinct_change p server _ ?_ ?_ distinct
  · intro s t kept
    cases kept
    rfl
  · intro s _ _ t kept
    cases kept
    exact milder_tame _ _ (milder_queue s _)

theorem distinct_forget (p : Proto) (client : Nat) (distinct : Distinct p) : Distinct (forget p client) := by
  refine distinct_change p client _ ?_ ?_ distinct
  · intro s t kept
    cases kept
    rfl
  · intro s _ _ t kept
    cases kept
    exact milder_tame _ _ (milder_refl _)

theorem distinct_leave (p : Proto) (s : Sock) (distinct : Distinct p) : Distinct (leaveQueue p s) := by
  unfold leaveQueue
  split
  · split
    · exact distinct_forget _ _ (distinct_dequeue p _ _ distinct)
    · exact distinct
  · exact distinct

theorem milder_detach (env : Env) (w : World) (alive : (tcpDetach env w).alive) :
    Milder (standing w) (standing (tcpDetach env w)) := by
  obtain gone | ⟨s, stays, -, same⟩ := detach_standing env w
  · have dead : (tcpDetach env w).alive = false := congrArg Standing.alive gone
    rw [dead] at alive
    cases alive
  · rw [same]
    refine milder_trans _ s _ (milder_stays _ s stays) ⟨rfl, id, id, ?_⟩
    intro fresh
    cases fresh

theorem milder_sock_state (w : World) (state : SoState) (used : state ≠ .isunconnected) :
    Milder (standing w) (standing (setSockState w state)) where
  ends := rfl
  dead := id
  listening := id
  used := by
    intro fresh
    have same : (standing (setSockState w state)).sockState = w.data.sock.map fun _ => state := by
      show (w.data.sock.map fun so => { so with state := state }).map (·.state) = _
      rw [Option.map_map]
      rfl
    rw [same] at fresh
    obtain ⟨-, -, same⟩ := Option.map_eq_some_iff.mp fresh
    exact (used same).elim

theorem distinct_detach (env : Env) (p : Proto) (id : Nat) (distinct : Distinct p) : Distinct (soDetach env p id) := by
  refine distinct_run p id _ ?_ distinct
  intro w alive
  exact milder_tame _ _ (milder_trans _ _ _ (milder_sock_state w .isdisconnecting (by decide)) (milder_detach env _ alive))

theorem distinct_abort (env : Env) (server : Nat) (clients : List Nat) (p : Proto) (distinct : Distinct p) :
    Distinct (abortClients env server clients p) := by
  induction clients generalizing p with
  | nil => exact distinct
  | cons client rest ih =>
      exact ih _ (distinct_detach env _ client (distinct_forget _ client (distinct_dequeue p server client distinct)))

theorem distinct_release (env : Env) (p : Proto) (s : Sock) (distinct : Distinct p) : Distinct (soRelease env p s) := by
  unfold soRelease
  split
  · exact distinct
  · split
    · exact distinct
    · refine distinct_detach env _ s.id (distinct_leave _ s ?_)
      split
      · exact distinct_abort env s.id s.iconnQ p distinct
      · exact distinct

end MagxNet.Inet
