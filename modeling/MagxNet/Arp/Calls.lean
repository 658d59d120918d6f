import MagxNet.Arp.Update

set_option autoImplicit false

namespace MagxNet.Arp

open Bytes (Byte Buffer get8 get16 get32 copyBytes)

theorem returned_refl (s : Cache) (sound : Sound s [] nobody) (paired : Paired s nobody) : Returned s s := ⟨sound, paired, rfl, rfl⟩

theorem returned_trans (s t u : Cache) (first : Returned s t) (second : Returned t u) : Returned s u :=
  ⟨second.sound, second.paired, second.held.trans first.held, second.stale.trans first.stale⟩

theorem returned_looked (s t u : Cache) (found : Option Nat) (looked : Looked s t found) (returned : Returned t u) : Returned s u :=
  ⟨returned.sound, returned.paired, returned.held.trans looked.held, returned.stale.trans looked.stale⟩

theorem looked_returned (s t : Cache) (looked : Looked s t none) : Returned s t :=
  ⟨looked.sound, looked.paired, looked.held, looked.stale⟩

theorem deref_returned (env : Env) (s : Cache) (are : Nat) (sound : Sound s [are] nobody) (paired : Paired s nobody) :
    Returned s (arpDeref env s are) := by
  obtain ⟨last, paired', calm⟩ := deref_looked env s are sound paired
  exact ⟨last, paired', calm.held, calm.stale⟩

theorem reply_sound (env : Env) (s : Cache) (loose : List Nat) (nif : Nat) (buf : Buffer) (op : BitVec 16) (spr shw dpr : Buffer)
    (rarp : Bool) (sound : Sound s loose nobody) (paired : Paired s nobody) :
    Sound (sendReply env s nif buf op spr shw dpr rarp) loose nobody ∧ Paired (sendReply env s nif buf op spr shw dpr rarp) nobody
      ∧ Calm s (sendReply env s nif buf op spr shw dpr rarp) := by
  obtain ⟨sent, calm, same⟩ := dosend_sound env s loose nobody
    ⟨nif, arpReply buf op shw spr dpr, copyBytes buf ARP_SHW (arphHwlen buf), arphHwlen buf, rarp⟩ sound
  exact ⟨sent, paired_calm s _ nobody paired calm same.arptab same.rarptab, calm⟩

theorem calm_returned (s t u : Cache) (calm : Calm s t) (returned : Returned t u) : Returned s u :=
  ⟨returned.sound, returned.paired, returned.held.trans calm.held, returned.stale.trans calm.stale⟩

theorem proxy_returned (env : Env) (s : Cache) (nif : Nat) (buf : Buffer) (are : Nat) (sound : Sound s [are] nobody)
    (paired : Paired s nobody) : Returned s (proxyReply env s nif buf are) := by
  unfold proxyReply
  rw [use_of_live s are (sound.books.looseLive are (List.mem_singleton.mpr rfl))]
  dsimp only
  split
  · obtain ⟨sent, paired', calm⟩ := reply_sound env s [are] nif buf _ _ _ _ _ sound paired
    exact calm_returned s _ _ calm (deref_returned env _ are sent paired')
  · exact deref_returned env s are sound paired

theorem rarp_reply_returned (env : Env) (s : Cache) (nif : Nat) (buf myaddr : Buffer) (are : Nat) (sound : Sound s [are] nobody)
    (paired : Paired s nobody) : Returned s (rarpReply env s nif buf myaddr are) := by
  unfold rarpReply
  rw [use_of_live s are (sound.books.looseLive are (List.mem_singleton.mpr rfl))]
  dsimp only
  split
  · obtain ⟨sent, paired', calm⟩ := reply_sound env s [are] nif buf _ _ _ _ _ sound paired
    exact calm_returned s _ _ calm (deref_returned env _ are sent paired')
  · exact deref_returned env s are sound paired

theorem answer_returned (env : Env) (s s' : Cache) (nif : Nat) (buf myaddr : Buffer) (sound : Sound s [] nobody)
    (paired : Paired s nobody) (result : arpAnswer env s nif buf myaddr = some s') : Returned s s' := by
  unfold arpAnswer at result
  split at result
  · split at result
    · cases result
      obtain ⟨sent, paired', calm⟩ := reply_sound env s [] nif buf _ _ _ _ _ sound paired
      exact ⟨sent, paired', calm.held, calm.stale⟩
    · split at result
      · cases result
      · rename_i t found
        cases result
        exact looked_returned s _ (lookup_looked env s _ _ _ _ _ _ _ _ sound paired found)
      · rename_i t are found
        cases result
        have looked := lookup_looked env s _ _ _ _ _ _ _ _ sound paired found
        exact returned_looked s t _ _ looked (proxy_returned env t nif buf are looked.sound looked.paired)
  · cases result
    exact returned_refl s sound paired

theorem answer_total (env : Env) (s : Cache) (nif : Nat) (buf myaddr : Buffer) : arpAnswer env s nif buf myaddr ≠ none := by
  unfold arpAnswer
  split
  · split
    · exact Option.some_ne_none _
    · split
      · rename_i overrun
        cases (lookup_none env s _ _ _ _ _ _ overrun).1
      · exact Option.some_ne_none _
      · exact Option.some_ne_none _
  · exact Option.some_ne_none _

theorem input_returned (env : Env) (s s' : Cache) (nif : Nat) (buf : Buffer) (sound : Sound s [] nobody)
    (paired : Paired s nobody) (result : arpInput env nif buf s = some s') : Returned s s' := by
  unfold arpInput at result
  split at result
  · split at result
    · cases result
      exact returned_refl s sound paired
    · split at result
      · split at result
        · cases result
        · rename_i t found
          have looked := looked_returned s t (lookup_looked env s t _ _ _ _ _ _ _ sound paired found)
          exact returned_trans s t s' looked (answer_returned env t s' nif buf _ looked.sound looked.paired result)
        · rename_i t are found
          have looked := lookup_looked env s t _ _ _ _ _ _ _ sound paired found
          obtain ⟨updated, _⟩ := update_done env t are (setHwaddr buf) (set_hwaddr_resolves buf) looked.sound looked.paired
            (looked.listed are rfl)
          have answered := answer_returned env _ s' nif buf _ updated.sound updated.paired result
          exact returned_looked s t s' _ looked (returned_trans t _ s' updated answered)
      · cases result
        exact returned_refl s sound paired
  · cases result
    exact returned_refl s sound paired

theorem input_total (env : Env) (s : Cache) (nif : Nat) (buf : Buffer) (fits : arphPrlen buf ≤ ADR_SIZE) :
    arpInput env nif buf s ≠ none := by
  unfold arpInput
  split
  · split
    · exact Option.some_ne_none _
    · split
      · split
        · rename_i overrun
          exact absurd (lookup_none env s _ _ _ _ _ _ overrun).2 (Nat.not_lt.mpr fits)
        · exact answer_total env _ nif buf _
        · exact answer_total env _ nif buf _
      · exact Option.some_ne_none _
  · exact Option.some_ne_none _

theorem rarp_lookup_looked (s s' : Cache) (nif : Nat) (type : BitVec 16) (len : Nat) (addr : Buffer) (found : Option Nat)
    (sound : Sound s [] nobody) (paired : Paired s nobody) (result : rarpLookup s nif type len addr = (s', found)) :
    Sound s' found.toList nobody ∧ Paired s' nobody ∧ Calm s s' := by
  unfold rarpLookup at result
  rw [walk_of_live _ _ s (sound.books.hwLive _)] at result
  cases hit : (s.rarptab (arpHash addr len)).find? fun are => hwMatches (s.entry are) nif type len addr with
  | none =>
      rw [hit] at result
      obtain ⟨rfl, rfl⟩ := Prod.mk.inj result
      exact ⟨sound, paired, calm_refl s⟩
  | some are =>
      rw [hit] at result
      obtain ⟨rfl, rfl⟩ := Prod.mk.inj result
      have few := refs_bound s [] are sound.books
      rw [List.count_nil] at few
      obtain ⟨counted, calm⟩ := inc_sound s [] nobody are sound
        (sound.books.hwLive _ are (List.mem_of_find?_eq_some hit)) (by omega)
      exact ⟨counted, paired_calm s _ nobody paired calm rfl rfl, calm⟩

theorem rarp_input_returned (env : Env) (s : Cache) (nif : Nat) (buf : Buffer) (sound : Sound s [] nobody)
    (paired : Paired s nobody) : Returned s (rarpInput env nif buf s) := by
  unfold rarpInput
  split
  · split
    · exact returned_refl s sound paired
    · split
      · split
        · rename_i t found
          obtain ⟨sound', paired', calm⟩ := rarp_lookup_looked s t nif _ _ _ none sound paired found
          exact ⟨sound', paired', calm.held, calm.stale⟩
        · rename_i t are found
          obtain ⟨sound', paired', calm⟩ := rarp_lookup_looked s t nif _ _ _ (some are) sound paired found
          exact calm_returned s t _ calm (rarp_reply_returned env t nif buf _ are sound' paired')
      · exact returned_refl s sound paired
  · exact returned_refl s sound paired

theorem sarp_returned (env : Env) (s s' : Cache) (req : ArpReq) (ret : Int) (sound : Sound s [] nobody)
    (paired : Paired s nobody) (result : siocsarp env req s = some (s', ret)) : Returned s s' := by
  have same : ∀ ret' : Int, some (s, ret') = some (s', ret) → Returned s s' := fun ret' equal => by
    cases equal
    exact returned_refl s sound paired
  unfold siocsarp at result
  split at result
  · exact same _ result
  · split at result
    · split at result
      · exact same _ result
      · split at result
        · exact same _ result
        · split at result
          · cases result
          · rename_i t found
            cases result
            exact looked_returned s _ (lookup_looked env s _ _ _ _ _ _ _ _ sound paired found)
          · rename_i hwaddr _ _ _ _ _ t are found
            cases result
            have looked := lookup_looked env s _ _ _ _ _ _ _ _ sound paired found
            exact returned_looked s t _ _ looked
              (update_done env t are _ (set_static_resolves req _) looked.sound looked.paired (looked.listed are rfl)).1
    · exact same _ result

theorem darp_returned (env : Env) (s s' : Cache) (req : ArpReq) (ret : Int) (sound : Sound s [] nobody)
    (paired : Paired s nobody) (result : siocdarp env req s = some (s', ret)) : Returned s s' := by
  unfold siocdarp at result
  split at result
  · cases result
    exact returned_refl s sound paired
  · split at result
    · cases result
      exact returned_refl s sound paired
    · split at result
      · cases result
      · rename_i t found
        cases result
        exact looked_returned s _ (lookup_looked env s _ _ _ _ _ _ _ _ sound paired found)
      · rename_i t are found
        cases result
        have looked := lookup_looked env s _ _ _ _ _ _ _ _ sound paired found
        have live := looked.sound.books.looseLive are (List.mem_singleton.mpr rfl)
        have few : [are].count are ≤ 1 := by rw [List.count_singleton_self]
        -- The reference that the lookup gave keeps the entry through both removals.
        have first := arp_remove_sound env t [are] nobody are looked.sound live few
        have still := first.sound.books.looseLive are (List.mem_singleton.mpr rfl)
        obtain ⟨removed, paired', calm⟩ := remove_both env t [are] nobody are looked.sound looked.paired live still few
        exact returned_looked s t _ _ looked (calm_returned t _ _ calm (deref_returned env _ are removed paired'))

theorem garp_returned (env : Env) (s s' : Cache) (req req' : ArpReq) (ret : Int) (sound : Sound s [] nobody)
    (paired : Paired s nobody) (result : siocgarp env req s = some (s', ret, req')) : Returned s s' := by
  unfold siocgarp at result
  split at result
  · cases result
    exact returned_refl s sound paired
  · split at result
    · cases result
    · rename_i t found
      cases result
      exact looked_returned s _ (lookup_looked env s _ _ _ _ _ _ _ _ sound paired found)
    · rename_i t are found
      have looked := lookup_looked env s _ _ _ _ _ _ _ _ sound paired found
      have returned := returned_looked s t _ _ looked (deref_returned env t are looked.sound looked.paired)
      rw [use_of_live t are (looked.sound.books.looseLive are (List.mem_singleton.mpr rfl))] at result
      dsimp only at result
      split at result
      · cases result
        exact returned
      · cases result
        exact returned

theorem ioctl_returned (env : Env) (s s' : Cache) (cmd : Cmd) (req req' : ArpReq) (ret : Int) (sound : Sound s [] nobody)
    (paired : Paired s nobody) (result : arpIoctl env cmd req s = some (s', ret, req')) : Returned s s' := by
  cases cmd with
  | sarp =>
      obtain ⟨⟨t, code⟩, inner, same⟩ := Option.map_eq_some_iff.mp result
      cases same
      exact sarp_returned env s t req _ sound paired inner
  | darp =>
      obtain ⟨⟨t, code⟩, inner, same⟩ := Option.map_eq_some_iff.mp result
      cases same
      exact darp_returned env s t req _ sound paired inner
  | garp => exact garp_returned env s s' req req' ret sound paired result
  | other =>
      cases result
      exact returned_refl s sound paired

theorem ioctl_total (env : Env) (s : Cache) (cmd : Cmd) (req : ArpReq) : arpIoctl env cmd req s ≠ none := by
  have four : ∀ praddr, getPraddr req = some praddr → ¬ ADR_SIZE < praddr.len := by
    intro praddr got
    unfold getPraddr at got
    split at got
    · cases got
      exact Nat.not_lt.mpr (by decide : 4 ≤ ADR_SIZE)
    · cases got
  intro result
  cases cmd with
  | sarp =>
      have inner := Option.map_eq_none_iff.mp result
      unfold siocsarp at inner
      split at inner
      · cases inner
      · split at inner
        · rename_i praddr hwaddr got _
          split at inner
          · cases inner
          · split at inner
            · cases inner
            · split at inner
              · rename_i overrun
                exact four praddr got (lookup_none env s _ _ _ _ _ _ overrun).2
              · cases inner
              · cases inner
        · cases inner
  | darp =>
      have inner := Option.map_eq_none_iff.mp result
      unfold siocdarp at inner
      split at inner
      · cases inner
      · split at inner
        · cases inner
        · split at inner
          · rename_i overrun
            cases (lookup_none env s _ _ _ _ _ _ overrun).1
          · cases inner
          · cases inner
  | garp =>
      change siocgarp env req s = none at result
      unfold siocgarp at result
      split at result
      · cases result
      · split at result
        · rename_i overrun
          cases (lookup_none env s _ _ _ _ _ _ overrun).1
        · cases result
        · dsimp only at result
          split at result
          · cases result
          · cases result
  | other => cases result

end MagxNet.Arp
