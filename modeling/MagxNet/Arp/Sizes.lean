import MagxNet.Arp.Run

set_option autoImplicit false

namespace MagxNet.Arp

open Bytes (Byte Buffer)

-- The addresses of the entries in use fit into their fields.
def Sized (s : Cache) : Prop := ∀ are, s.live are = true → (s.entry are).praddr.len ≤ ADR_SIZE

theorem sized_same (s s' : Cache) (sized : Sized s) (entry : s'.entry = s.entry) (live : s'.live = s.live) : Sized s' := by
  intro are alive
  rw [entry]
  exact sized are (live ▸ alive)

theorem sized_set (s : Cache) (are : Nat) (e : Entry) (sized : Sized s) (same : e.praddr = (s.entry are).praddr) :
    Sized (s.setEntry are e) := by
  intro other alive
  by_cases here : other = are
  · subst here
    rw [entry_set_here, same]
    exact sized other alive
  · rw [entry_set_other s are other e here]
    exact sized other alive

theorem sized_use (s : Cache) (are : Nat) (sized : Sized s) : Sized (use s are) :=
  sized_same s _ sized (use_alike s are).entry (use_alike s are).live

theorem sized_walk (stop : Nat → Bool) (chain : List Nat) (s : Cache) (sized : Sized s) : Sized (walk stop chain s).1 := by
  induction chain generalizing s with
  | nil => exact sized
  | cons curr next ih =>
      unfold walk
      split
      · exact sized_use s curr sized
      · exact ih _ (sized_use s curr sized)

theorem sized_event_del (s : Cache) (are : Nat) (sized : Sized s) : Sized (eventDel s are) := by
  unfold eventDel
  split
  · exact sized_set { s with events := s.events.erase are } are _ sized rfl
  · exact sized

theorem sized_event_add (s : Cache) (are : Nat) (sized : Sized s) : Sized (eventAdd s are) := by
  unfold eventAdd
  refine sized_set _ are _ ?_ rfl
  split <;> exact sized

theorem sized_drainq (s : Cache) (are : Nat) (fate : Fate) (sized : Sized s) : Sized (drainq s are fate) :=
  sized_set { s with done := s.done ++ (s.entry are).outq.map (Done.mk · are fate) } are _ sized rfl

theorem sized_dosend (env : Env) (s : Cache) (frame : Frame) (sized : Sized s) : Sized (arpDosend env s frame) :=
  sized_same s _ sized (dosend_alike env s frame).entry (dosend_alike env s frame).live

theorem sized_dead (s : Cache) (are : Nat) (e : Entry) (sized : Sized s) :
    Sized ({ s with live := Function.update s.live are false }.setEntry are e) := by
  intro other alive
  by_cases here : other = are
  · subst here
    have dead : Function.update s.live other false other = true := alive
    rw [Function.update_self] at dead
    cases dead
  · have still : Function.update s.live are false other = true := alive
    rw [Function.update_of_ne here] at still
    rw [entry_set_other _ are other _ here]
    exact sized other still

theorem sized_free (env : Env) (s : Cache) (are : Nat) (sized : Sized s) : Sized (arpFree env s are) := by
  have drained := sized_event_del _ are (sized_drainq (use s are) are .freed (sized_use s are sized))
  exact sized_dead (eventDel (drainq (use s are) are .freed) are) are (env.junk are) drained

theorem sized_deref (env : Env) (s : Cache) (are : Nat) (sized : Sized s) : Sized (arpDeref env s are) := by
  have inner : Sized ((use s are).setEntry are (decLinks ((use s are).entry are))) :=
    sized_set _ are _ (sized_use s are sized) (dec_same _).2.2.1
  unfold arpDeref
  dsimp only
  split
  · exact sized_free env _ are inner
  · exact inner

theorem sized_drop_pr (env : Env) (i : Nat) (s : Cache) (are : Nat) (sized : Sized s) : Sized (dropPr env i s are) :=
  sized_deref env _ are sized

theorem sized_drop_hw (env : Env) (i : Nat) (s : Cache) (are : Nat) (sized : Sized s) : Sized (dropHw env i s are) :=
  sized_deref env _ are sized

theorem sized_arp_remove (env : Env) (s : Cache) (are : Nat) (sized : Sized s) : Sized (arpRemove env s are) := by
  unfold arpRemove
  dsimp only
  split
  · have walked := sized_walk (· = are) ((use s are).arptab (prHash ((use s are).entry are))) _ (sized_use s are sized)
    split
    · rename_i t found hit
      rw [hit] at walked
      exact sized_drop_pr env _ t are walked
    · rename_i t hit
      rw [hit] at walked
      exact walked
  · exact sized_use s are sized

theorem sized_rarp_remove (env : Env) (s : Cache) (are : Nat) (sized : Sized s) : Sized (rarpRemove env s are) := by
  unfold rarpRemove
  dsimp only
  split
  · have walked := sized_walk (· = are) ((use s are).rarptab (hwHash ((use s are).entry are))) _ (sized_use s are sized)
    split
    · rename_i t found hit
      rw [hit] at walked
      exact sized_drop_hw env _ t are walked
    · rename_i t hit
      rw [hit] at walked
      exact walked
  · exact sized_use s are sized

theorem sized_rarp_put (s : Cache) (are : Nat) (sized : Sized s) : Sized (rarpPut s are) :=
  sized_set (use s are) are (incLinks ((use s are).entry are)) (sized_use s are sized) rfl

theorem sized_flush_chain (drop : Cache → Nat → Cache) (nif : Nat) (chain : List Nat) (s : Cache)
    (keeps : ∀ (t : Cache) (are : Nat), Sized t → Sized (drop t are)) (sized : Sized s) :
    Sized (flushChain drop nif chain s) := by
  induction chain generalizing s with
  | nil => exact sized
  | cons curr next ih =>
      unfold flushChain
      dsimp only
      split
      · exact ih _ (keeps _ curr (sized_use s curr sized))
      · exact ih _ (sized_use s curr sized)

theorem sized_flush (env : Env) (nif : Nat) (s : Cache) (sized : Sized s) : Sized (arpFlush env nif s) := by
  unfold arpFlush
  generalize List.range ARP_HASHSIZE = indices
  induction indices generalizing s with
  | nil => exact sized
  | cons i rest ih =>
      refine ih _ (sized_flush_chain (dropHw env i) nif _ _ (sized_drop_hw env i) ?_)
      exact sized_flush_chain (dropPr env i) nif _ s (sized_drop_pr env i) sized

theorem sized_sendreq (env : Env) (s : Cache) (are : Nat) (sized : Sized s) : Sized (arpSendreq env s are) := by
  have counted : Sized ((use s are).setEntry are
      { (use s are).entry are with retries := (((use s are).entry are).retries + 1) % 65536 }) :=
    sized_set _ are _ (sized_use s are sized) rfl
  unfold arpSendreq
  dsimp only
  split
  · exact sized_rarp_remove env _ are (sized_arp_remove env _ are counted)
  · split
    · exact counted
    · split
      · exact sized_dosend env _ _ (sized_event_add _ are (sized_event_del _ are counted))
      · exact counted

theorem sized_expire (env : Env) (s : Cache) (are : Nat) (sized : Sized s) : Sized (expire env s are) := by
  have fired : Sized ({ use s are with events := (use s are).events.erase are }.setEntry are
      { (use s are).entry are with tmout := false }) :=
    sized_set { use s are with events := (use s are).events.erase are } are _ (sized_use s are sized) rfl
  unfold expire arpTimeout
  dsimp only
  have used := sized_use _ are fired
  split
  · split
    · exact used
    · exact sized_rarp_remove env _ are (sized_arp_remove env _ are used)
  · split
    · exact sized_sendreq env _ are used
    · exact used

theorem sized_create (env : Env) (s : Cache) (nif : Nat) (type : BitVec 16) (len : Nat) (addr : Buffer) (sized : Sized s)
    (fits : len ≤ ADR_SIZE) : Sized (create env s nif type len addr) := by
  intro other alive
  by_cases here : other = s.allocs
  · subst here
    rw [(create_here env s nif type len addr).1]
    exact fits
  · obtain ⟨entry, live⟩ := create_others env s nif type len addr other here
    rw [entry]
    exact sized other (live ▸ alive)

theorem sized_lookup (env : Env) (s s' : Cache) (nocreat noresolv : Bool) (nif : Option Nat) (type : BitVec 16) (len : Nat)
    (addr : Buffer) (found : Option Nat) (sized : Sized s)
    (result : arpLookup env s nocreat noresolv nif type len addr = some (s', found)) : Sized s' := by
  have walked := sized_walk (fun are => prMatches env (s.entry are) nif type len addr) (s.arptab (arpHash addr len)) s sized
  unfold arpLookup at result
  split at result
  · rename_i t are hit
    rw [hit] at walked
    obtain ⟨rfl, rfl⟩ := Prod.mk.inj (Option.some.inj result)
    exact sized_set t are _ walked rfl
  · rename_i t hit
    rw [hit] at walked
    split at result
    · obtain ⟨rfl, rfl⟩ := Prod.mk.inj (Option.some.inj result)
      exact walked
    · rename_i nif
      split at result
      · obtain ⟨rfl, rfl⟩ := Prod.mk.inj (Option.some.inj result)
        exact walked
      · split at result
        · cases result
        · rename_i fits
          obtain ⟨made, rfl⟩ := Prod.mk.inj (Option.some.inj result)
          have created := sized_create env t nif type len addr walked (Nat.not_lt.mp fits)
          rw [← made]
          split
          · exact created
          · exact sized_sendreq env _ _ created

theorem sized_rarp_lookup (s : Cache) (nif : Nat) (type : BitVec 16) (len : Nat) (addr : Buffer) (sized : Sized s) :
    Sized (rarpLookup s nif type len addr).1 := by
  have walked := sized_walk (fun are => hwMatches (s.entry are) nif type len addr) (s.rarptab (arpHash addr len)) s sized
  unfold rarpLookup
  split
  · rename_i t are hit
    rw [hit] at walked
    exact sized_set t are _ walked rfl
  · rename_i t hit
    rw [hit] at walked
    exact walked

theorem sized_sendq (env : Env) (s : Cache) (are : Nat) (sized : Sized s) : Sized (arpSendq env s are) := by
  unfold arpSendq
  dsimp only
  split <;> exact sized_drainq _ are _ (sized_use s are sized)

theorem sized_update (env : Env) (s : Cache) (are : Nat) (change : Entry → Entry)
    (same : ∀ e, (change e).praddr = e.praddr) (sized : Sized s) : Sized (arpUpdate env s are change) := by
  unfold arpUpdate
  have removed := sized_use _ are (sized_rarp_remove env s are sized)
  have put := sized_event_del _ are (sized_rarp_put _ are (sized_set _ are _ removed (same _)))
  refine sized_deref env _ are (sized_sendq env _ are ?_)
  split
  · exact put
  · exact sized_event_add _ are put

theorem sized_proxy (env : Env) (s : Cache) (nif : Nat) (buf : Buffer) (are : Nat) (sized : Sized s) :
    Sized (proxyReply env s nif buf are) := by
  unfold proxyReply
  refine sized_deref env _ are ?_
  split
  · exact sized_dosend env _ _ (sized_use s are sized)
  · exact sized_use s are sized

theorem sized_answer (env : Env) (s s' : Cache) (nif : Nat) (buf myaddr : Buffer) (sized : Sized s)
    (result : arpAnswer env s nif buf myaddr = some s') : Sized s' := by
  unfold arpAnswer at result
  split at result
  · split at result
    · cases result
      exact sized_dosend env s _ sized
    · split at result
      · cases result
      · rename_i t looked
        cases result
        exact sized_lookup env s _ _ _ _ _ _ _ _ sized looked
      · rename_i t are looked
        cases result
        exact sized_proxy env t nif buf are (sized_lookup env s t _ _ _ _ _ _ _ sized looked)
  · cases result
    exact sized

theorem sized_input (env : Env) (s s' : Cache) (nif : Nat) (buf : Buffer) (sized : Sized s)
    (result : arpInput env nif buf s = some s') : Sized s' := by
  unfold arpInput at result
  split at result
  · split at result
    · cases result
      exact sized
    · split at result
      · split at result
        · cases result
        · rename_i t looked
          exact sized_answer env t s' nif buf _ (sized_lookup env s t _ _ _ _ _ _ _ sized looked) result
        · rename_i t are looked
          have found := sized_lookup env s t _ _ _ _ _ _ _ sized looked
          exact sized_answer env _ s' nif buf _ (sized_update env t are (setHwaddr buf) (fun _ => rfl) found) result
      · cases result
        exact sized
  · cases result
    exact sized

theorem sized_rarp_input (env : Env) (s : Cache) (nif : Nat) (buf : Buffer) (sized : Sized s) :
    Sized (rarpInput env nif buf s) := by
  unfold rarpInput
  split
  · split
    · exact sized
    · split
      · have looked := sized_rarp_lookup s nif (arphHwtype buf) (arphHwlen buf) (buf.drop ARP_SHW) sized
        split
        · rename_i t hit
          rw [hit] at looked
          exact looked
        · rename_i t are hit
          rw [hit] at looked
          unfold rarpReply
          refine sized_deref env _ are ?_
          split
          · exact sized_dosend env _ _ (sized_use t are looked)
          · exact sized_use t are looked
      · exact sized
  · exact sized

theorem sized_sarp (env : Env) (req : ArpReq) (s s' : Cache) (ret : Int) (sized : Sized s)
    (result : siocsarp env req s = some (s', ret)) : Sized s' := by
  unfold siocsarp at result
  split at result
  · cases result
    exact sized
  · split at result
    · split at result
      · cases result
        exact sized
      · split at result
        · cases result
          exact sized
        · split at result
          · cases result
          · rename_i t looked
            cases result
            exact sized_lookup env s _ _ _ _ _ _ _ _ sized looked
          · rename_i t are looked
            cases result
            exact sized_update env t are _ (fun _ => rfl) (sized_lookup env s t _ _ _ _ _ _ _ sized looked)
    · cases result
      exact sized

theorem sized_darp (env : Env) (req : ArpReq) (s s' : Cache) (ret : Int) (sized : Sized s)
    (result : siocdarp env req s = some (s', ret)) : Sized s' := by
  unfold siocdarp at result
  split at result
  · cases result
    exact sized
  · split at result
    · cases result
      exact sized
    · split at result
      · cases result
      · rename_i t looked
        cases result
        exact sized_lookup env s _ _ _ _ _ _ _ _ sized looked
      · rename_i t are looked
        cases result
        have found := sized_lookup env s t _ _ _ _ _ _ _ sized looked
        exact sized_deref env _ are (sized_rarp_remove env _ are (sized_arp_remove env _ are found))

theorem sized_garp (env : Env) (req req' : ArpReq) (s s' : Cache) (ret : Int) (sized : Sized s)
    (result : siocgarp env req s = some (s', ret, req')) : Sized s' := by
  unfold siocgarp at result
  split at result
  · cases result
    exact sized
  · split at result
    · cases result
    · rename_i t looked
      cases result
      exact sized_lookup env s _ _ _ _ _ _ _ _ sized looked
    · rename_i t are looked
      have found := sized_deref env _ are (sized_use _ are (sized_lookup env s t _ _ _ _ _ _ _ sized looked))
      dsimp only at result
      split at result
      · cases result
        exact found
      · cases result
        exact found

theorem sized_send_to (env : Env) (s : Cache) (are : Nat) (sized : Sized s) : Sized (ifSendTo env s are).1 := by
  have numbered : Sized { use s are with dest := (use s are).dest ++ [are] } := sized_use s are sized
  unfold ifSendTo
  dsimp only
  split
  · exact sized_deref env _ are numbered
  · refine sized_deref env _ are ?_
    unfold ifEnqueue
    split
    · exact sized_set _ are _ numbered rfl
    · exact numbered

theorem sized_send (env : Env) (nif : Nat) (nexthop : Buffer) (isbrcst : Bool) (s s' : Cache) (ret : Int) (sized : Sized s)
    (result : ifSend env nif nexthop isbrcst s = some (s', ret)) : Sized s' := by
  unfold ifSend at result
  split at result
  · cases result
    exact sized
  · split at result
    · cases result
      exact sized
    · split at result
      · split at result
        · cases result
          exact sized
        · split at result
          · cases result
          · rename_i t looked
            cases result
            exact sized_lookup env s _ _ _ _ _ _ _ _ sized looked
          · rename_i t are looked
            have sent := sized_send_to env t are (sized_lookup env s t _ _ _ _ _ _ _ sized looked)
            rw [Option.some.inj result] at sent
            exact sent
      · cases result
        exact sized

theorem sized_step (env : Env) (s s' : Cache) (op : Op) (sized : Sized s) (result : step env s op = some s') : Sized s' := by
  cases op with
  | lookup nocreat noresolv nif type len addr =>
      obtain ⟨⟨t, found⟩, inner, same⟩ := Option.map_eq_some_iff.mp result
      cases same
      exact sized_lookup env s t _ _ _ _ _ _ _ sized inner
  | deref are =>
      cases result
      exact sized_deref env { s with held := s.held.erase are } are sized
  | send nif nexthop isbrcst =>
      obtain ⟨⟨t, ret⟩, inner, same⟩ := Option.map_eq_some_iff.mp result
      cases same
      exact sized_send env nif nexthop isbrcst s _ ret sized inner
  | input nif buf => exact sized_input env s s' nif buf sized result
  | rarpInput nif buf =>
      cases result
      exact sized_rarp_input env s nif buf sized
  | ioctl cmd req =>
      obtain ⟨⟨t, ret, req'⟩, inner, same⟩ := Option.map_eq_some_iff.mp result
      cases same
      cases cmd with
      | sarp =>
          obtain ⟨⟨u, value⟩, call, whole⟩ := Option.map_eq_some_iff.mp inner
          cases whole
          exact sized_sarp env req s _ _ sized call
      | darp =>
          obtain ⟨⟨u, value⟩, call, whole⟩ := Option.map_eq_some_iff.mp inner
          cases whole
          exact sized_darp env req s _ _ sized call
      | garp => exact sized_garp env req req' s _ ret sized inner
      | other =>
          cases inner
          exact sized
  | flush nif =>
      have same : arpFlush env nif s = s' := Option.some.inj result
      rw [← same]
      exact sized_flush env nif s sized
  | expire are =>
      cases result
      exact sized_expire env s are sized

theorem reached_sized (s : Cache) (reached : Reached s) : Sized s := by
  induction reached with
  | start memory =>
      intro are alive
      cases alive
  | step s s' env op _ _ result before => exact sized_step env s s' op before result

end MagxNet.Arp
