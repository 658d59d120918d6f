import MagxNet.Tcp.LedgerWrite

set_option autoImplicit false

namespace MagxNet.Tcp

open Bytes Serial

theorem fresh_stream (w : World) (id : Nat) (flags : Flags) (first : Bool) (r : Nat) :
    (outputFresh w id flags first r).stream = w.stream ++ if first && flags.syn then [.syn] else [] := by
  unfold outputFresh writeSyn
  rw [fresh_syn]
  cases (first && flags.syn)
  · exact (List.append_nil _).symm
  · rfl

-- What a round that takes r bytes leaves behind.
structure Wrote (w w' : World) (flags : Flags) (first : Bool) (bytes : List Byte) (r s u m : Nat) : Prop where
  kept : Kept (ledger w') s u m
  stream : w'.stream = w.stream ++ roundItems flags first bytes r
  dataLen : dataLen (ledger w').segs = dataLen (ledger w).segs + r

theorem combine_wrote (w : World) (b : Buf) (bytes : List Byte) (flags : Flags) (first : Bool) (r : Nat)
    (atLast : w.data.snd.q.getLast? = some b) (noSyn : flags.syn = false) {s u m : Nat} (kept : Kept (ledger w) s u m)
    (noFin : Item.fin ∉ w.stream) (fits : dataLen (ledger w).segs + r ≤ 65535) (taken : r ≤ bytes.length)
    (few : marks w.stream + (if flags.fin then 1 else 0) ≤ 2) :
    Wrote w (outputFill (growSnd w r) bytes r flags.fin) flags first bytes r s u m := by
  have queued : w.data.snd.q = w.data.snd.q.dropLast ++ [b] := by
    rw [List.dropLast_append_getLast? b atLast]
  have length : (bytes.take r).length = r := List.length_take_of_le taken
  have few' : marks w.stream + (if flags.fin && (bytes.drop r).isEmpty then 1 else 0) ≤ 2 := by
    refine le_trans ?_ few
    cases flags.fin <;> cases (bytes.drop r).isEmpty <;> simp
  have filled : outputFill (growSnd w r) bytes r flags.fin
      = fillLast (growSnd w r) b (bytes.take r) (flags.fin && (bytes.drop r).isEmpty) := by
    unfold outputFill
    rw [show (growSnd w r).data.snd.q.getLast? = some b from atLast]
  have new := combine_keeps w w.data.snd.q.dropLast b (bytes.take r) (flags.fin && (bytes.drop r).isEmpty) queued kept
    noFin (by omega) few'
  rw [length] at new
  rw [filled]
  refine ⟨new.1, ?_, new.2⟩
  unfold roundItems
  rw [noSyn, Bool.and_false]
  rfl

theorem fresh_wrote (w : World) (id : Nat) (bytes : List Byte) (flags : Flags) (first : Bool) (r : Nat) {s u m : Nat}
    (kept : Kept (ledger w) s u m) (fits : dataLen (ledger w).segs + r ≤ 65535) (taken : r ≤ bytes.length)
    (few : marks w.stream + (if first && flags.syn then 1 else 0) + (if flags.fin then 1 else 0) ≤ 2)
    (some : (bytes ≠ [] ∧ 0 < r) ∨ (first && flags.syn) ∨ (bytes = [] ∧ flags.fin)) :
    Wrote w (outputFill (outputFresh w id flags first r) bytes r flags.fin) flags first bytes r s u m := by
  have length : (bytes.take r).length = r := List.length_take_of_le taken
  have filled : outputFill (outputFresh w id flags first r) bytes r flags.fin
      = fillLast (outputFresh w id flags first r) (freshSeg w id flags first) (bytes.take r)
        (flags.fin && (bytes.drop r).isEmpty) := by
    have atLast : (outputFresh w id flags first r).data.snd.q.getLast? = Option.some (freshSeg w id flags first) := by
      rw [fresh_queue, List.getLast?_concat]
    unfold outputFill
    rw [atLast]
  have few' : marks w.stream + (if first && flags.syn then 1 else 0)
      + (if flags.fin && (bytes.drop r).isEmpty then 1 else 0) ≤ 2 := by
    refine le_trans ?_ few
    cases flags.fin <;> cases (bytes.drop r).isEmpty <;> simp
  have some' : bytes.take r ≠ [] ∨ (first && flags.syn) ∨ (flags.fin && (bytes.drop r).isEmpty) := by
    obtain ⟨real, room⟩ | opens | ⟨empty, ends⟩ := some
    · left
      rw [ne_eq, List.take_eq_nil_iff, not_or]
      exact ⟨by omega, real⟩
    · exact Or.inr (Or.inl opens)
    · right
      right
      simp [empty, ends]
  have new := fresh_keeps w id flags first (bytes.take r) (flags.fin && (bytes.drop r).isEmpty) kept (by omega) few'
    some'
  rw [length] at new
  rw [filled]
  refine ⟨new.1, ?_, new.2⟩
  unfold roundItems
  rw [← List.append_assoc, ← fresh_stream w id flags first r]
  rfl

theorem combine_room (w : World) (flags : Flags) (room : combineRoom w flags > 0) :
    ∃ b, w.data.snd.q.getLast? = some b ∧ flags.syn = false := by
  unfold combineRoom at room
  cases atLast : w.data.snd.q.getLast? with
  | none =>
      rw [atLast] at room
      exact (lt_irrefl 0 room).elim
  | some b =>
      rw [atLast] at room
      dsimp only at room
      split at room
      · rename_i fits
        exact ⟨b, rfl, by simpa using fits.2.2⟩
      · exact (lt_irrefl 0 room).elim

theorem round_none (env : Env) (w w1 : World) (bytes : List Byte) (flags : Flags) (first : Bool)
    (got : outputRound env w bytes flags first = (none, w1)) : w1 = (bufAlloc env w).2 := by
  unfold outputRound outputRoom at got
  by_cases room : combineRoom w flags > 0
  · rw [if_pos room] at got
    cases got
  · rw [if_neg room] at got
    unfold bufAlloc at got ⊢
    split at got
    · rename_i refused
      split at refused
      · rename_i denied
        split at denied
        · cases denied
        · obtain ⟨-, rfl⟩ := Prod.mk.inj denied
          obtain ⟨-, rfl⟩ := Prod.mk.inj refused
          exact (Prod.mk.inj got).2.symm
      · cases refused
    · cases got

theorem round_wrote (env : Env) (w w1 : World) (bytes rest : List Byte) (flags : Flags) (first : Bool) {s u m : Nat}
    (got : outputRound env w bytes flags first = (some rest, w1)) (kept : Kept (ledger w) s u m)
    (noFin : Item.fin ∉ w.stream) (fits : dataLen (ledger w).segs + bytes.length ≤ 65535)
    (few : marks w.stream + (if first && flags.syn then 1 else 0) + (if flags.fin then 1 else 0) ≤ 2)
    (some : bytes ≠ [] ∨ (first && flags.syn) ∨ flags.fin) :
    ∃ r, r ≤ bytes.length ∧ rest = bytes.drop r ∧ (bytes ≠ [] → 0 < r) ∧ Wrote w w1 flags first bytes r s u m := by
  unfold outputRound outputRoom at got
  by_cases room : combineRoom w flags > 0
  · rw [if_pos room] at got
    obtain ⟨isRest, rfl⟩ := Prod.mk.inj got
    obtain ⟨b, atLast, noSyn⟩ := combine_room w flags room
    have taken : (min (combineRoom w flags) bytes.length).toNat ≤ bytes.length := by omega
    refine ⟨_, taken, (Option.some.inj isRest).symm, ?_, ?_⟩
    · intro real
      have some := List.length_pos_of_ne_nil real
      omega
    · exact combine_wrote w b bytes flags first _ atLast noSyn kept noFin (by omega) taken (by omega)
  · rw [if_neg room] at got
    unfold bufAlloc at got
    by_cases memory : env.memory w.net.allocs
    · rw [if_pos memory] at got
      obtain ⟨isRest, rfl⟩ := Prod.mk.inj got
      have mss := kept.mss
      change 32 ≤ w.tcb.sndMss ∧ _ at mss
      have grows : bytes ≠ [] → 0 < (min (w.tcb.sndMss - TCP_MAXRETRY) bytes.length).toNat := by
        intro real
        have some := List.length_pos_of_ne_nil real
        unfold TCP_MAXRETRY
        omega
      have taken : (min (w.tcb.sndMss - TCP_MAXRETRY) bytes.length).toNat ≤ bytes.length := by omega
      refine ⟨_, taken, (Option.some.inj isRest).symm, grows, ?_⟩
      have new := fresh_wrote (bufAlloc env w).2 w.net.allocs bytes flags first
        (min (w.tcb.sndMss - TCP_MAXRETRY) bytes.length).toNat kept (by
          change dataLen (ledger w).segs + _ ≤ _
          omega) taken few (by
          by_cases real : bytes = []
          · obtain real' | opens | ends := some
            · exact (real' real).elim
            · exact Or.inr (Or.inl opens)
            · exact Or.inr (Or.inr ⟨real, ends⟩)
          · exact Or.inl ⟨real, grows real⟩)
      exact ⟨new.kept, new.stream, new.dataLen⟩
    · rw [if_neg memory] at got
      cases got

theorem round_items_add (flags : Flags) (first : Bool) (bytes : List Byte) (r k : Nat)
    (more : bytes.drop r ≠ []) :
    roundItems flags first bytes r ++ roundItems flags false (bytes.drop r) k = roundItems flags first bytes (r + k) := by
  have early : (bytes.drop r).isEmpty = false := by simpa using more
  unfold roundItems
  rw [early, Bool.and_false, if_neg Bool.false_ne_true, List.drop_drop, List.take_add, List.map_append, Bool.false_and,
    if_neg Bool.false_ne_true]
  simp

theorem round_items_fin (flags : Flags) (first : Bool) (bytes : List Byte) (r : Nat)
    (more : flags.fin = false ∨ bytes.drop r ≠ []) : Item.fin ∉ roundItems flags first bytes r := by
  have early : (flags.fin && (bytes.drop r).isEmpty) = false := by
    obtain noFin | more := more
    · rw [noFin, Bool.false_and]
    · rw [Bool.and_eq_false_iff]
      exact Or.inr (by simpa using more)
  unfold roundItems
  rw [early]
  generalize bytes.take r = taken
  split <;> simp

theorem round_items_marks (flags : Flags) (first : Bool) (bytes : List Byte) (r : Nat) :
    marks (roundItems flags first bytes r)
      = (if first && flags.syn then 1 else 0) + (if flags.fin && (bytes.drop r).isEmpty then 1 else 0) := by
  unfold roundItems
  rw [marks_append, marks_append, marks_bytes]
  cases (first && flags.syn) <;> cases (flags.fin && (bytes.drop r).isEmpty) <;> simp [marks, Item.isByte]

-- How the loop ends: with nothing queued, with all of it, or without memory for the rest.
def LoopWrote (w : World) (flags : Flags) (first : Bool) (bytes : List Byte) (s u m : Nat)
    (ended : Option Int × World) : Prop :=
  (first = true ∧ ended.1 = none ∧ ledger ended.2 = ledger w)
    ∨ ∃ r, r ≤ bytes.length ∧ (first = true → roundItems flags first bytes r ≠ []) ∧
      (ended.1 = some 0 ∧ r = bytes.length ∨ ended.1 = some ENOMEM ∧ r < bytes.length)
      ∧ Wrote w ended.2 flags first bytes r s u m

theorem output_loop_wrote (env : Env) (flags : Flags) (fuel : Nat) (w : World) (bytes : List Byte) (first : Bool)
    {s u m : Nat} (enough : bytes.length < fuel) (kept : Kept (ledger w) s u m)
    (noFin : Item.fin ∉ w.stream) (fits : dataLen (ledger w).segs + bytes.length ≤ 65535)
    (few : marks w.stream + (if first && flags.syn then 1 else 0) + (if flags.fin then 1 else 0) ≤ 2)
    (some : bytes ≠ [] ∨ first = true ∧ (flags.syn ∨ flags.fin)) :
    LoopWrote w flags first bytes s u m (outputLoop env flags fuel w bytes first) := by
  induction fuel generalizing w bytes first with
  | zero => omega
  | succ fuel ih =>
      rw [outputLoop]
      cases got : outputRound env w bytes flags first with
      | mk rest w1 =>
          cases rest with
          | none =>
              have same := round_none env w w1 bytes flags first got
              dsimp only
              split
              · rename_i isFirst
                exact Or.inl ⟨isFirst, rfl, by rw [same]; rfl⟩
              · rename_i notFirst
                have real : bytes ≠ [] := some.resolve_right fun opens => notFirst opens.1
                refine Or.inr ⟨0, Nat.zero_le _, fun isFirst => (notFirst isFirst).elim,
                  Or.inr ⟨rfl, List.length_pos_of_ne_nil real⟩, ?_⟩
                have nothing : roundItems flags first bytes 0 = [] := by
                  have early : bytes.isEmpty = false := by simpa using real
                  simp [roundItems, notFirst, early]
                rw [same]
                exact ⟨kept, by rw [nothing, List.append_nil]; rfl, rfl⟩
          | some rest =>
              obtain ⟨r, taken, isRest, grows, wrote⟩ := round_wrote env w w1 bytes rest flags first got kept noFin fits
                few (by
                  obtain real | ⟨isFirst, opens | ends⟩ := some
                  · exact Or.inl real
                  · exact Or.inr (Or.inl (by rw [isFirst, opens]; rfl))
                  · exact Or.inr (Or.inr ends))
              have placed : first = true → roundItems flags first bytes r ≠ [] := by
                intro isFirst
                unfold roundItems
                obtain real | ⟨-, opens | ends⟩ := some
                · have some := List.length_pos_of_ne_nil real
                  have started := grows real
                  simp [real]
                  omega
                · simp [isFirst, opens]
                · by_cases real : bytes = []
                  · simp [real, ends]
                  · have started := grows real
                    simp [real]
                    omega
              cases rest with
              | nil =>
                  have whole : r = bytes.length := by
                    have none := congrArg List.length isRest
                    rw [List.length_drop, List.length_nil] at none
                    omega
                  exact Or.inr ⟨r, taken, placed, Or.inl ⟨rfl, whole⟩, wrote⟩
              | cons byte rest =>
                  have more : bytes.drop r ≠ [] := by
                    rw [← isRest]
                    exact List.cons_ne_nil _ _
                  have real : bytes ≠ [] := by
                    rintro rfl
                    exact more List.drop_nil
                  have started := grows real
                  have length := List.length_drop (i := r) (l := bytes)
                  have fits' := wrote.dataLen
                  have stream := wrote.stream
                  have marked : marks w1.stream = marks w.stream + (if first && flags.syn then 1 else 0) := by
                    have early : (bytes.drop r).isEmpty = false := by simpa using more
                    rw [stream, marks_append, round_items_marks, early, Bool.and_false]
                    rfl
                  dsimp only
                  rw [isRest]
                  have later := ih w1 (bytes.drop r) false (by omega) wrote.kept
                    (by
                      rw [stream, List.mem_append, not_or]
                      exact ⟨noFin, round_items_fin flags first bytes r (Or.inr more)⟩)
                    (by omega) (by rw [Bool.false_and, marked]; simpa using few) (Or.inl more)
                  obtain ⟨absurd, -⟩ | ⟨k, within, -, ended, wrote'⟩ := later
                  · cases absurd
                  · refine Or.inr ⟨r + k, by omega, ?_, ?_, wrote'.kept, ?_, ?_⟩
                    · intro isFirst
                      rw [← round_items_add flags first bytes r k more]
                      exact List.append_ne_nil_of_left_ne_nil (placed isFirst) _
                    · obtain ⟨ret, whole⟩ | ⟨ret, part⟩ := ended
                      · exact Or.inl ⟨ret, by omega⟩
                      · exact Or.inr ⟨ret, by omega⟩
                    · rw [wrote'.stream, stream, List.append_assoc, round_items_add flags first bytes r k more]
                    · rw [wrote'.dataLen, fits', Nat.add_assoc]

-- The connection with everything blanked that writing may change before the output side is told.
def unwritten (w : World) : World :=
  { w with
    tcb.seqWrite := 0
    data.snd.q := []
    data.snd.curdatalen := 0
    net.allocs := 0
    net.fault := false
    stream := [] }

theorem unwritten_same {α : Type} (f : World → α) (w w' : World) (same : unwritten w' = unwritten w)
    (blind : ∀ x, f (unwritten x) = f x) : f w' = f w := by
  rw [← blind w', same, blind]

theorem unwritten_fill (w : World) (bytes : List Byte) (r : Nat) (fin : Bool) :
    unwritten (outputFill w bytes r fin) = unwritten w := by
  unfold outputFill
  split <;> rfl

theorem unwritten_fresh (w : World) (id : Nat) (flags : Flags) (first : Bool) (r : Nat) :
    unwritten (outputFresh w id flags first r) = unwritten w := by
  unfold outputFresh writeSyn
  split <;> rfl

theorem unwritten_round (env : Env) (w : World) (bytes : List Byte) (flags : Flags) (first : Bool) :
    unwritten (outputRound env w bytes flags first).2 = unwritten w := by
  unfold outputRound outputRoom bufAlloc
  by_cases room : combineRoom w flags > 0
  · rw [if_pos room]
    exact unwritten_fill _ _ _ _
  · rw [if_neg room]
    by_cases memory : env.memory w.net.allocs
    · rw [if_pos memory]
      exact (unwritten_fill _ _ _ _).trans (unwritten_fresh _ _ _ _ _)
    · rw [if_neg memory]
      rfl

theorem unwritten_loop (env : Env) (flags : Flags) (fuel : Nat) (w : World) (bytes : List Byte) (first : Bool) :
    unwritten (outputLoop env flags fuel w bytes first).2 = unwritten w := by
  induction fuel generalizing w bytes first with
  | zero => rfl
  | succ fuel ih =>
      have round := unwritten_round env w bytes flags first
      rw [outputLoop]
      split
      · rename_i w1 got
        rw [got] at round
        exact round
      · rename_i w1 got
        rw [got] at round
        exact round
      · rename_i byte rest w1 got
        rw [got] at round
        exact (ih w1 (byte :: rest) false).trans round

-- The connection once the bytes and flags are on the send queue.
def queued (env : Env) (w : World) (bytes : List Byte) (flags : Flags) : Option Int × World :=
  outputLoop env flags (bytes.length + 1) w bytes true

theorem unwritten_queued (env : Env) (w : World) (bytes : List Byte) (flags : Flags) :
    unwritten (queued env w bytes flags).2 = unwritten w :=
  unwritten_loop env flags _ w bytes true

theorem queued_wrote (env : Env) (w : World) (bytes : List Byte) (flags : Flags) {s u m : Nat}
    (kept : Kept (ledger w) s u m) (noFin : Item.fin ∉ w.stream)
    (fits : dataLen (ledger w).segs + bytes.length ≤ 65535)
    (few : marks w.stream + (if flags.syn then 1 else 0) + (if flags.fin then 1 else 0) ≤ 2)
    (some : bytes ≠ [] ∨ flags.syn ∨ flags.fin) : LoopWrote w flags true bytes s u m (queued env w bytes flags) :=
  output_loop_wrote env flags _ w bytes true (Nat.lt_succ_self _) kept noFin fits (by simpa using few)
    (some.imp_right fun flag => ⟨rfl, flag⟩)

-- What tcp_output leaves behind, when there is something to write.
def outputDone (env : Env) (flags : Flags) (done : Option Int × World) : World :=
  if done.1.isNone then done.2
  else if flags.urg then outputUrgent env (setSndUrg done.2) else tcbOstate env done.2 .send

theorem output_done (env : Env) (w : World) (bytes : List Byte) (flags : Flags)
    (some : bytes ≠ [] ∨ flags.syn ∨ flags.fin) :
    (tcpOutput env w bytes flags).2 = outputDone env flags (queued env w bytes flags) := by
  have writes : ¬ (bytes.isEmpty ∧ ¬ flags.syn ∧ ¬ flags.fin) := by
    rintro ⟨empty, noSyn, noFin⟩
    obtain real | syn | fin := some
    · exact real (List.isEmpty_iff.mp empty)
    · exact noSyn syn
    · exact noFin fin
  unfold tcpOutput outputDone queued
  rw [if_neg writes]
  split
  · rename_i w1 ended
    rw [ended]
    rfl
  · rename_i ret w1 ended
    rw [ended]
    rfl

-- An urgent write may find the peer silent for too long.
theorem output_urgent_runs (env : Env) (w : World) : Ended w (outputUrgent env w) ∨ Runs w (outputUrgent env w) := by
  unfold outputUrgent
  split
  · split
    · rename_i silent
      left
      have ended : Ended (setPersistTmo (timerDel w) (tcpTimeout w))
          (tcpProbe env (setPersistTmo (timerDel w) (tcpTimeout w))) := by
        unfold tcpProbe
        rw [if_pos (by exact silent)]
        exact ended_close_with _ _
      exact ended_from w _ _ ended rfl rfl rfl rfl
    · rename_i heard
      right
      obtain ⟨same, kept⟩ := probe_heard env (setPersistTmo (timerDel w) (tcpTimeout w)) heard
      refine runs_trans _ _ _ (runs_of_eq w _ ?_ ?_) (runs_ostate env _ .send (by decide))
      · exact incoming_of_steady _ _ same
      · exact kept
  · exact Or.inr (runs_ostate env w .send (by decide))

theorem output_plain_runs (env : Env) (flags : Flags) (done : Option Int × World) (plain : flags.urg = false) :
    Runs done.2 (outputDone env flags done) := by
  unfold outputDone
  rw [plain]
  split
  · exact runs_of_eq _ _ rfl rfl
  · exact runs_ostate env _ .send (by decide)

theorem output_done_runs (env : Env) (flags : Flags) (done : Option Int × World) :
    Ended done.2 (outputDone env flags done) ∨ Runs done.2 (outputDone env flags done) := by
  cases urgent : flags.urg with
  | false => exact Or.inr (output_plain_runs env flags done urgent)
  | true =>
      unfold outputDone
      rw [urgent]
      split
      · exact Or.inr (runs_of_eq _ _ rfl rfl)
      · rw [if_pos rfl]
        obtain ended | runs := output_urgent_runs env (setSndUrg done.2)
        · exact Or.inl (ended_from done.2 (setSndUrg done.2) _ ended rfl rfl rfl rfl)
        · have begun : Runs done.2 (setSndUrg done.2) := runs_of_eq _ _ rfl rfl
          exact Or.inr (runs_trans _ _ _ begun runs)

theorem queued_few (w : World) (flags : Flags) (few : marks w.stream ≤ 1) (opens : flags.syn → w.stream = []) :
    marks w.stream + (if flags.syn then 1 else 0) + (if flags.fin then 1 else 0) ≤ 2 := by
  have one : (if flags.fin then 1 else 0) ≤ 1 := by split <;> omega
  by_cases syn : flags.syn
  · have none : marks w.stream = 0 := by
      rw [opens syn]
      rfl
    rw [if_pos syn]
    omega
  · rw [if_neg syn]
    omega

theorem queued_kept (env : Env) (w : World) (bytes : List Byte) (flags : Flags) {s u m : Nat}
    (kept : Kept (ledger w) s u m) (noFin : Item.fin ∉ w.stream)
    (fits : dataLen (ledger w).segs + bytes.length ≤ 65535)
    (few : marks w.stream + (if flags.syn then 1 else 0) + (if flags.fin then 1 else 0) ≤ 2)
    (some : bytes ≠ [] ∨ flags.syn ∨ flags.fin) : Kept (ledger (queued env w bytes flags).2) s u m := by
  obtain ⟨-, -, same⟩ | ⟨r, -, -, -, wrote⟩ := queued_wrote env w bytes flags kept noFin fits few some
  · rw [same]
    exact kept
  · exact wrote.kept

-- Without a FIN nothing but bytes, and a SYN at the beginning, is added to the stream.
theorem queued_unfinished (env : Env) (w : World) (bytes : List Byte) (flags : Flags) {s u m : Nat}
    (kept : Kept (ledger w) s u m) (noFin : Item.fin ∉ w.stream)
    (fits : dataLen (ledger w).segs + bytes.length ≤ 65535) (few : marks w.stream ≤ 1)
    (opens : flags.syn → w.stream = []) (plain : flags.fin = false) (some : bytes ≠ [] ∨ flags.syn ∨ flags.fin) :
    Item.fin ∉ (queued env w bytes flags).2.stream ∧ marks (queued env w bytes flags).2.stream ≤ 1 := by
  have one : marks w.stream + (if flags.syn then 1 else 0) ≤ 1 := by
    by_cases syn : flags.syn
    · rw [opens syn, if_pos syn]
      exact le_refl 1
    · rw [if_neg syn]
      exact few
  have few' : marks w.stream + (if flags.syn then 1 else 0) + (if flags.fin then 1 else 0) ≤ 2 := by
    rw [plain, if_neg Bool.false_ne_true]
    omega
  obtain ⟨-, -, same⟩ | ⟨r, -, -, -, wrote⟩ := queued_wrote env w bytes flags kept noFin fits few' some
  · rw [show (queued env w bytes flags).2.stream = w.stream from congrArg Ledger.stream same]
    exact ⟨noFin, few⟩
  · rw [wrote.stream, List.mem_append, not_or, marks_append, round_items_marks, plain, Bool.false_and, Bool.true_and]
    exact ⟨⟨noFin, round_items_fin flags true bytes r (Or.inl plain)⟩, one⟩

theorem steady_output (env : Env) (w : World) (bytes : List Byte) (flags : Flags) (plain : flags.urg = false)
    (some : bytes ≠ [] ∨ flags.syn ∨ flags.fin) :
    steady (tcpOutput env w bytes flags).2 = steady (queued env w bytes flags).2 := by
  rw [output_done env w bytes flags some]
  unfold outputDone
  rw [plain]
  split
  · rfl
  · exact steady_ostate env _ .send (by decide)

theorem output_state (env : Env) (w : World) (bytes : List Byte) (flags : Flags) (plain : flags.urg = false)
    (some : bytes ≠ [] ∨ flags.syn ∨ flags.fin) : (tcpOutput env w bytes flags).2.tcb.state = w.tcb.state :=
  (steady_same (·.tcb.state) _ _ (steady_output env w bytes flags plain some) fun _ => rfl).trans
    (unwritten_same (·.tcb.state) _ _ (unwritten_queued env w bytes flags) fun _ => rfl)

theorem output_sock (env : Env) (w : World) (bytes : List Byte) (flags : Flags) (plain : flags.urg = false)
    (some : bytes ≠ [] ∨ flags.syn ∨ flags.fin) : (tcpOutput env w bytes flags).2.data.sock = w.data.sock :=
  (steady_same (·.data.sock) _ _ (steady_output env w bytes flags plain some) fun _ => rfl).trans
    (unwritten_same (·.data.sock) _ _ (unwritten_queued env w bytes flags) fun _ => rfl)

end MagxNet.Tcp
