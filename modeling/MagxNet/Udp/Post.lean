import MagxNet.Udp.Delivery

set_option autoImplicit false

namespace MagxNet.Udp

open Bytes
open Ip (iphDaddr iphProto iphSaddr)
open Tcp (SizedIov iovSize slots)

-- The code answers as the boxes do, and means them afterwards.
def Serves (w : World) (q : Nat → List Nat) (op : Op) : Prop :=
  ∃ w' q', act w op = some ((serve (view w q) op).1, w') ∧ Holds w' q' [] ∧ view w' q' = (serve (view w q) op).2

section Calls

variable (w : World) (q : Nat → List Nat)

theorem called_serves (id : Nat) (op : Op) (r : Int × Sock) (proto : r.2.proto = (w.sock id).proto) (holds : Holds w q [])
    (code : act w op = called w id r) (boxes : serve (view w q) op = called' (view w q) id r) : Serves w q op := by
  refine ⟨setSock w id r.2, q, ?_, holds_set_sock w q [] id r.2 proto holds, ?_⟩
  · rw [code, boxes]
    rfl
  · rw [boxes]
    exact view_set_sock w q id r.2

theorem bind_proto (s : Sock) (addr : Tcp.InAddr) (port : Tcp.InPort) : (bind s addr port).2.proto = s.proto := by
  unfold bind
  split <;> rfl

theorem autobind_proto (s : Sock) (port : Tcp.InPort) : (autobind s port).proto = s.proto := by
  unfold autobind
  split <;> rfl

theorem connect_proto (s : Sock) (args : ConnectArgs) : (inetConnect s args).2.proto = s.proto := by
  have bound := autobind_proto s args.port
  unfold inetConnect udpConnect ripConnect
  split
  · rfl
  · split
    · rfl
    · split
      · rfl
      · split
        · split <;> exact bound
        · exact bound

theorem stopped_proto (s s' : Sock) (r : Int) (stopped : recvStopped s = some (r, s')) : s'.proto = s.proto := by
  unfold recvStopped at stopped
  split at stopped
  · cases stopped
    rfl
  · split at stopped
    · cases stopped
      rfl
    · cases stopped

theorem woken_proto (s s' : Sock) (interrupted : Bool) (r : Int) (stopped : wokenBy s interrupted = some (r, s')) :
    s'.proto = s.proto := by
  unfold wokenBy at stopped
  split at stopped
  · cases stopped
    rfl
  · split at stopped
    · cases stopped
      rfl
    · split at stopped
      · cases stopped
        rfl
      · cases stopped

theorem fetch_empty (id : Nat) (a : RecvArgs) (holds : Holds w q []) (empty : q id = []) :
    recvTurn w id a = ((fetch (view w q) id a).1, w) ∧ (fetch (view w q) id a).2 = view w q := by
  have linked := (holds.ahead id).linked
  rw [empty] at linked
  have letters : ((view w q).box id).letters = [] := congrArg (List.map w.dgram) empty
  unfold recvTurn fetch
  rw [show (w.sock id).rcv.qfirst = none from linked, letters]
  exact ⟨rfl, rfl⟩

-- What a datagram's reader gets is what is in it, as far as he has room.
theorem recv_data (proto : Handler) (letter : Buffer) (a : RecvArgs) (sized : SizedIov a.iov)
    (length : todoOf proto letter = size proto letter) :
    let data := dataOf proto letter
    let places := slots a.iov data.length 0
    Tcp.iovCopied (todoOf proto letter) a.iov 0 = places.length
      ∧ Tcp.buf2iovCpy (get8 data) a.mem (todoOf proto letter) a.iov 0 = Tcp.store a.mem places data := by
  have few : (slots a.iov (dataOf proto letter).length 0).length ≤ (dataOf proto letter).length := List.length_take_le _ _
  dsimp only
  rw [length]
  constructor
  · rw [Tcp.slots_length a.mem]
    exact Tcp.iov_copied a.mem a.iov sized _ 0
  · refine (Tcp.buf2iov_slots _ a.mem a.iov sized _ 0).trans ?_
    unfold size
    rw [peek_data _ _ few, Tcp.store_short]

theorem recv_turn_fetches (id : Nat) (a : RecvArgs) (sized : SizedIov a.iov) (holds : Holds w q []) :
    ∃ q', (recvTurn w id a).1 = (fetch (view w q) id a).1 ∧ Holds (recvTurn w id a).2 q' []
      ∧ view (recvTurn w id a).2 q' = (fetch (view w q) id a).2 := by
  cases line : q id with
  | nil =>
      obtain ⟨code, boxes⟩ := fetch_empty w q id a holds line
      rw [code, boxes]
      exact ⟨q, rfl, holds, rfl⟩
  | cons buf rest =>
      have linked := (holds.ahead id).linked
      rw [line] at linked
      have letters : ((view w q).box id).letters = w.dgram buf :: rest.map w.dgram := congrArg (List.map w.dgram) line
      have member : buf ∈ q id := line ▸ List.mem_cons_self
      obtain ⟨copied, stored⟩ := recv_data (w.sock id).proto (w.dgram buf) a sized (holds.sized id buf member)
      have taken := holds_dequeue w q [] id buf rest holds line
      have viewed := view_requeued w _ q id rest (dequeue_requeued w id buf (todoOf (w.sock id).proto (w.dgram buf)))
      unfold recvTurn fetch
      rw [linked.1, letters]
      dsimp only
      rw [copied, stored]
      by_cases peek : a.peek = true
      · rw [if_pos peek, if_pos peek]
        exact ⟨q, rfl, holds, rfl⟩
      · rw [if_neg peek, if_neg peek]
        exact ⟨_, rfl, holds_deref _ _ [] buf taken, viewed⟩

theorem refused_sized (a : RecvArgs) (fine : refused a = none) : SizedIov a.iov := by
  unfold refused at fine
  refine Tcp.iov_size_sized a.iov ?_
  by_contra negative
  rw [if_neg (by omega), if_pos (by omega)] at fine
  cases fine

theorem inet_recv_collects (id : Nat) (a : RecvArgs) (holds : Holds w q []) :
    ∃ q', (inetRecv w id a).1 = (collect (view w q) id a).1 ∧ Holds (inetRecv w id a).2 q' []
      ∧ view (inetRecv w id a).2 q' = (collect (view w q) id a).2 := by
  have same : (view w q).settings id = settings w id := rfl
  unfold inetRecv collect
  rw [same]
  cases stopped : recvStopped (settings w id) with
  | some p => exact ⟨q, rfl, holds_set_sock w q [] id p.2 (stopped_proto _ p.2 p.1 stopped) holds, view_set_sock w q id p.2⟩
  | none =>
      have bound := holds_set_sock w q [] id (autobind (settings w id) a.port) (autobind_proto ..) holds
      have viewed := view_set_sock w q id (autobind (settings w id) a.port)
      dsimp only
      rw [← viewed]
      unfold protoRecv
      cases fine : refused a with
      | some r => exact ⟨q, rfl, bound, rfl⟩
      | none => exact recv_turn_fetches _ q id a (refused_sized a fine) bound

theorem recv_woken_wakes (id : Nat) (a : RecvArgs) (interrupted : Bool) (sized : SizedIov a.iov) (holds : Holds w q []) :
    ∃ q', (recvWoken w id a interrupted).1 = (wake (view w q) id a interrupted).1 ∧ Holds (recvWoken w id a interrupted).2 q' []
      ∧ view (recvWoken w id a interrupted).2 q' = (wake (view w q) id a interrupted).2 := by
  have same : (view w q).settings id = settings w id := rfl
  unfold recvWoken wake
  rw [same]
  cases stopped : wokenBy (settings w id) interrupted with
  | some p =>
      have proto := woken_proto _ p.2 interrupted p.1 stopped
      exact ⟨q, rfl, holds_set_sock w q [] id p.2 proto holds, view_set_sock w q id p.2⟩
  | none => exact recv_turn_fetches w q id a sized holds

-- A new socket is in no queue's way: the one of its number was empty.
theorem attach_serves (proto : Handler) (protonum : Nat) (holds : Holds w q []) : Serves w q (.attach proto protonum) := by
  have empty : q w.made = [] := holds.unmade w.made (Nat.le_refl _)
  have here : (inDataPut w (inDataCreate proto protonum)).sock w.made = inDataCreate proto protonum := by
    unfold inDataPut inDataCreate
    cases proto <;> exact Function.update_self ..
  have others : ∀ i, i ≠ w.made → (inDataPut w (inDataCreate proto protonum)).sock i = w.sock i := by
    intro i other
    unfold inDataPut inDataCreate
    cases proto <;> exact Function.update_of_ne other ..
  have rest : ∀ w', w' = inDataPut w (inDataCreate proto protonum) → w'.made = w.made + 1 ∧ w'.next = w.next ∧ w'.prev = w.prev
      ∧ w'.dgram = w.dgram ∧ w'.bufs = w.bufs ∧ w'.derefs = w.derefs ∧ w'.replies = w.replies := by
    rintro w' rfl
    unfold inDataPut inDataCreate
    cases proto <;> exact ⟨rfl, rfl, rfl, rfl, rfl, rfl, rfl⟩
  refine ⟨inDataPut w (inDataCreate proto protonum), q, rfl, ?_, ?_⟩
  · obtain ⟨made, next, prev, dgram, bufs, derefs, replies⟩ := rest _ rfl
    generalize inDataPut w (inDataCreate proto protonum) = w' at *
    refine ⟨fun i => ?_, fun i => ?_, fun i => ?_, fun i => ?_, fun i beyond => holds.unmade i (by omega), fun b => ?_⟩
    · rw [next]
      by_cases new : i = w.made
      · rw [new, here, empty]
        exact Singly.queued_empty w.next
      · rw [others i new]
        exact holds.ahead i
    · rw [prev]
      by_cases new : i = w.made
      · rw [new, here, empty]
        exact Singly.queued_empty w.prev
      · rw [others i new]
        exact holds.behind i
    · rw [dgram]
      by_cases new : i = w.made
      · rw [new, here, empty]
        rfl
      · rw [others i new]
        exact holds.total i
    · rw [dgram]
      by_cases new : i = w.made
      · rw [new, empty]
        exact fun _ member => absurd member List.not_mem_nil
      · rw [others i new]
        exact holds.sized i
    · have before := holds.once b
      unfold places Buckets.listed at *
      rw [made, bufs, derefs, replies, Finset.sum_range_succ, empty, List.count_nil, Nat.add_zero]
      exact before
  · refine mail_ext _ _ (fun i => ?_) ?_
    · have box : (open' (view w q) proto protonum).box
          = ((view w q).setBox w.made
            ⟨(inDataCreate proto protonum).toSock, (inDataCreate proto protonum).rcv.maxdatalen, []⟩).box := by
        unfold open'
        cases proto <;> rfl
      change (view (inDataPut w (inDataCreate proto protonum)) q).box i = (open' (view w q) proto protonum).box i
      rw [box]
      unfold view Mail.setBox settings
      dsimp only
      rw [(rest _ rfl).2.2.2.1]
      by_cases new : i = w.made
      · rw [new, here, empty, Function.update_self]
        rfl
      · rw [others i new, Function.update_of_ne new]
    · cases proto <;> rfl

theorem remove_same (id : Nat) (holds : Holds w q []) : Holds (inDataRemove w id) q [] := by
  unfold inDataRemove
  split <;> exact holds_alike w q [] _ holds (fun _ => rfl) rfl

def emptied (r : Dataq) : Dataq := { r with curdatalen := 0, qfirst := none, qlast := none }

-- Every buffer of the queue goes, once.
theorem flush_empties (id : Nat) (made : id < w.made) (holds : Holds w q []) :
    ∃ w', inDataFlush w id = some w' ∧ Holds w' (Function.update q id []) []
      ∧ view w' (Function.update q id []) = (view w q).setLetters id [] := by
  have few := Nat.lt_succ_of_le (queued_few w q [] holds id)
  have freed := flush_loop (q id) (w.bufs + 1) _ w (holds.ahead id).linked few
  refine ⟨{ setRcv w id (emptied (w.sock id).rcv) with derefs := (q id).reverse ++ w.derefs }, ?_, ?_, ?_⟩
  · unfold inDataFlush
    rw [freed]
    rfl
  · have moved : ∀ b, ((q id).reverse ++ []).count b + ([] : List Nat).count b = ([] : List Nat).count b + (q id).count b := by
      intro b
      rw [List.append_nil, List.count_reverse, List.count_nil, Nat.add_comm]
    refine holds_derefs _ _ [] (q id).reverse (holds_change holds (fun i other => set_rcv_other w id i _ other)
      (by rw [set_rcv_here]) rfl (fun _ _ _ _ => rfl) (fun _ _ _ _ => rfl) ?_ ?_ ?_
      (fun _ member => absurd member List.not_mem_nil) made moved)
    · rw [set_rcv_here]
      exact Singly.queued_empty w.next
    · rw [set_rcv_here]
      exact Singly.queued_empty w.prev
    · rw [set_rcv_here]
      rfl
  · exact view_requeued w (setRcv w id _) q id [] (requeued_rcv w id (emptied (w.sock id).rcv) rfl)

theorem remove_sock (id : Nat) : (inDataRemove w id).sock = w.sock ∧ (inDataRemove w id).made = w.made := by
  unfold inDataRemove
  split <;> exact ⟨rfl, rfl⟩

theorem close_view (id : Nat) :
    ((view (inDataRemove w id) q).setLetters id []).setSock id (gone (settings w id)) = close (view w q) id := by
  have same : ∀ m : Mail, ((m.setLetters id []).setSock id (gone (settings w id))).box
      = Function.update m.box id { m.box id with toSock := gone (settings w id), letters := [] } := by
    intro m
    unfold Mail.setSock Mail.setLetters Mail.setBox
    dsimp only
    rw [Function.update_self, Function.update_idem]
  refine mail_ext _ _ (fun i => ?_) ?_
  · rw [same]
    unfold close inDataRemove
    cases proto : (w.sock id).proto with
    | udp =>
        rw [show ((view w q).box id).proto = .udp from proto]
        rfl
    | raw =>
        rw [show ((view w q).box id).proto = .raw from proto]
        rfl
  · unfold close inDataRemove
    cases proto : (w.sock id).proto with
    | udp =>
        rw [show ((view w q).box id).proto = .udp from proto]
        rfl
    | raw =>
        rw [show ((view w q).box id).proto = .raw from proto]
        rfl

theorem release_closes (id : Nat) (made : id < w.made) (holds : Holds w q []) :
    ∃ w' q', soRelease w id = some w' ∧ Holds w' q' [] ∧ view w' q' = close (view w q) id := by
  obtain ⟨sock, counted⟩ := remove_sock w id
  obtain ⟨w1, flushed, keeps, viewed⟩ := flush_empties (inDataRemove w id) q id (counted ▸ made) (remove_same w q id holds)
  have same : settings w1 id = settings w id := by
    have there : settings w1 id = ((view (inDataRemove w id) q).setLetters id []).settings id :=
      congrArg (fun m => Mail.settings m id) viewed
    rw [there]
    unfold Mail.setLetters Mail.setBox Mail.settings
    dsimp only
    rw [Function.update_self]
    exact congrArg InData.toSock (congrFun sock id)
  have proto : (settings w id).proto = (settings w1 id).proto := by rw [same]
  refine ⟨_, Function.update q id [], ?_, holds_set_sock w1 _ [] id (gone (settings w id)) proto keeps, ?_⟩
  · unfold soRelease
    rw [flushed, Option.map_some, same]
  · rw [view_set_sock, viewed]
    exact close_view w q id

theorem release_serves (id : Nat) (made : id < w.made) (holds : Holds w q []) : Serves w q (.release id) := by
  obtain ⟨w', q', released, keeps, viewed⟩ := release_closes w q id made holds
  exact ⟨w', q', congrArg (Option.map (Prod.mk Answer.nothing)) released, keeps, viewed⟩

theorem shut_proto (s : Sock) (how : Int) : (shut s how).proto = s.proto := by
  unfold shut
  split <;> rfl

theorem send_stopped_proto (s s' : Sock) (addr : Option Inet.SockaddrIn) (addrlen : Nat) (r : Int)
    (stopped : sendStopped s addr addrlen = some (r, s')) : s'.proto = s.proto := by
  unfold sendStopped at stopped
  split at stopped
  · cases stopped
    rfl
  · split at stopped
    · cases stopped
      rfl
    · split at stopped
      · cases stopped
        rfl
      · split at stopped
        · cases stopped
        · split at stopped
          · cases stopped
            rfl
          · split at stopped
            · cases stopped
              rfl
            · cases stopped

theorem send_proto (s : Sock) (addr : Option Inet.SockaddrIn) (addrlen : Nat) (port : Tcp.InPort) (sent : Int) :
    (inetSend s addr addrlen port sent).2.proto = s.proto := by
  unfold inetSend
  cases stopped : sendStopped s addr addrlen with
  | some p => exact send_stopped_proto s p.2 addr addrlen p.1 stopped
  | none => exact autobind_proto s port

theorem shutdown_serves (id : Nat) (how : Int) (port : Tcp.InPort) (made : id < w.made) (holds : Holds w q []) :
    Serves w q (.shutdown id how port) := by
  have proto : (autobind (shut (settings w id) how) port).proto = (w.sock id).proto :=
    (autobind_proto ..).trans (shut_proto ..)
  have bound := holds_set_sock w q [] id _ proto holds
  have viewed := view_set_sock w q id (autobind (shut (settings w id) how) port)
  suffices done : ∃ w' q', inetShutdown w id how port = some w' ∧ Holds w' q' []
      ∧ view w' q' = closeShut (view w q) id how port by
    obtain ⟨w', q', shutdown, keeps, same⟩ := done
    exact ⟨w', q', congrArg (Option.map (Prod.mk (Answer.code 0))) shutdown, keeps, same⟩
  unfold inetShutdown closeShut
  rw [show (view w q).settings id = settings w id from rfl]
  dsimp only
  by_cases both : bothShut (shut (settings w id) how) = true
  · rw [if_pos both, if_pos both, ← viewed]
    exact release_closes _ q id made bound
  · rw [if_neg both, if_neg both]
    exact ⟨_, q, rfl, bound, viewed⟩

theorem rcvbuf_serves (id : Nat) (val : Int) (holds : Holds w q []) : Serves w q (.rcvbuf id val) := by
  have others : ∀ i, i ≠ id → (setRcvbuf w id val).sock i = w.sock i := fun i other => set_rcv_other w id i _ other
  have here : (setRcvbuf w id val).sock id = { w.sock id with rcv := { (w.sock id).rcv with maxdatalen := rcvbufSize val } } :=
    set_rcv_here w id _
  refine ⟨setRcvbuf w id val, q, rfl, holds_alike w q [] _ holds (fun i => ?_) rfl, mail_ext _ _ (fun i => ?_) rfl⟩
  · by_cases own : i = id
    · rw [own, here]
    · rw [others i own]
  · change (⟨((setRcvbuf w id val).sock i).toSock, ((setRcvbuf w id val).sock i).rcv.maxdatalen, _⟩ : Box)
      = Function.update (view w q).box id { (view w q).box id with limit := rcvbufSize val } i
    by_cases own : i = id
    · rw [own, here, Function.update_self]
      rfl
    · rw [others i own, Function.update_of_ne own]
      rfl

theorem first_letter (id : Nat) (holds : Holds w q []) :
    ((w.sock id).rcv.qfirst = none ∧ ((view w q).box id).letters = [])
      ∨ ∃ buf rest, (w.sock id).rcv.qfirst = some buf ∧ buf ∈ q id ∧ ((view w q).box id).letters = w.dgram buf :: rest := by
  have linked := (holds.ahead id).linked
  cases line : q id with
  | nil =>
      rw [line] at linked
      exact Or.inl ⟨linked, congrArg (List.map w.dgram) line⟩
  | cons buf rest =>
      rw [line] at linked
      exact Or.inr ⟨buf, rest.map w.dgram, linked.1, List.mem_cons_self, congrArg (List.map w.dgram) line⟩

theorem select_serves (id : Nat) (holds : Holds w q []) : Serves w q (.select id) := by
  refine ⟨w, q, ?_, holds, rfl⟩
  unfold act serve selectRead
  dsimp only
  rcases first_letter w q id holds with ⟨first, letters⟩ | ⟨buf, rest, first, -, letters⟩
  · rw [first, letters]
    rfl
  · rw [first, letters]
    rfl

theorem fionread_serves (id : Nat) (holds : Holds w q []) : Serves w q (.fionread id) := by
  refine ⟨w, q, ?_, holds, rfl⟩
  unfold act serve fionread waitingSize
  dsimp only
  rcases first_letter w q id holds with ⟨first, letters⟩ | ⟨buf, rest, first, member, letters⟩
  · rw [first, letters]
    rfl
  · rw [first, letters]
    dsimp only
    rw [holds.sized id buf member]
    rfl

theorem input_serves (env : Env) (dgram : Buffer) (sound : Sound (view w q)) (holds : Holds w q []) :
    Serves w q (.input env dgram) := by
  have viewed := view_filled w q [] dgram holds
  have new : (bufFilled w dgram).dgram w.bufs = dgram := Function.update_self ..
  obtain ⟨q', replied, keeps, replies, dgrams, served⟩ :=
    deliver_serves env (bufFilled w dgram) q w.bufs (viewed ▸ sound) (holds_filled w q [] dgram holds)
  rw [new, viewed] at dgrams served
  refine ⟨deliver env (bufFilled w dgram) w.bufs, q', ?_, keeps, served⟩
  have answers := new_replies w (deliver env (bufFilled w dgram) w.bufs) replied replies
  unfold act serve
  dsimp only
  rw [answers, dgrams]

theorem error_serves (dgram : Buffer) (errno : Int) (holds : Holds w q []) : Serves w q (.error dgram errno) := by
  have viewed := view_filled w q [] dgram holds
  have fill := holds_filled w q [] dgram holds
  have new : (bufFilled w dgram).dgram w.bufs = dgram := Function.update_self ..
  have gone := holds_deref _ q [] w.bufs fill
  suffices told : ∃ w', report (bufFilled w dgram) w.bufs errno = w' ∧ Holds w' q []
      ∧ view w' q = (serve (view w q) (.error dgram errno)).2 by
    obtain ⟨w', rfl, keeps, same⟩ := told
    exact ⟨_, q, rfl, keeps, same⟩
  unfold report serve concerned
  dsimp only
  rw [new, ← viewed]
  by_cases udp : (iphProto dgram).toNat = IPPROTO_UDP
  · have found : errorFound (settings (bufFilled w dgram)) (bufFilled w dgram).udp dgram (iphSaddr dgram) (iphDaddr dgram)
        = best (iphDaddr dgram) (uhDstport dgram) (iphSaddr dgram) (uhSrcport dgram) (view (bufFilled w dgram) q).settings
          (view (bufFilled w dgram) q).udp := lookup_best ..
    rw [if_pos udp, if_pos udp]
    unfold udpError
    rw [new, found]
    cases best (iphDaddr dgram) (uhDstport dgram) (iphSaddr dgram) (uhSrcport dgram) (view (bufFilled w dgram) q).settings
        (view (bufFilled w dgram) q).udp with
    | none => exact ⟨_, rfl, gone, rfl⟩
    | some id =>
        rw [Option.filter_some]
        dsimp only
        by_cases connected : ((bufFilled w dgram).sock id).isconnected = true
        · rw [if_pos connected, if_pos (show ((view (bufFilled w dgram) q).box id).isconnected = true from connected)]
          refine ⟨_, rfl, holds_deref _ q [] w.bufs (holds_set_sock _ q [w.bufs] id _ rfl fill), ?_⟩
          exact view_set_sock (bufFilled w dgram) q id _
        · rw [if_neg connected, if_neg (show ¬ ((view (bufFilled w dgram) q).box id).isconnected = true from connected)]
          exact ⟨_, rfl, gone, rfl⟩
  · rw [if_neg udp, if_neg udp]
    exact ⟨_, rfl, gone, rfl⟩

theorem act_serves (op : Op) (sound : Sound (view w q)) (holds : Holds w q [])
    (fine : comes (w.udp ++ w.raw) op = true) : Serves w q op := by
  have live : ∀ id, decide (id ∈ w.udp ++ w.raw) = true → id < w.made := by
    intro id there
    rcases List.mem_append.mp (of_decide_eq_true there) with udp | raw
    · exact (sound.udp id udp).1
    · exact (sound.raw id raw).1
  cases op with
  | attach proto protonum => exact attach_serves w q proto protonum holds
  | bind id addr port => exact called_serves w q id _ _ (bind_proto ..) holds rfl rfl
  | connect id args => exact called_serves w q id _ _ (connect_proto ..) holds rfl rfl
  | rcvbuf id val => exact rcvbuf_serves w q id val holds
  | send id addr addrlen port sent => exact called_serves w q id _ _ (send_proto ..) holds rfl rfl
  | shutdown id how port => exact shutdown_serves w q id how port (live id fine) holds
  | release id => exact release_serves w q id (live id fine) holds
  | recv id a =>
      obtain ⟨q', code, keeps, boxes⟩ := inet_recv_collects w q id a holds
      exact ⟨_, q', congrArg (fun r => some (Answer.recv r, _)) code, keeps, boxes⟩
  | woken id a interrupted =>
      have sized := refused_sized a (Option.isNone_iff_eq_none.mp fine)
      obtain ⟨q', code, keeps, boxes⟩ := recv_woken_wakes w q id a interrupted sized holds
      exact ⟨_, q', congrArg (fun r => some (Answer.recv r, _)) code, keeps, boxes⟩
  | select id => exact select_serves w q id holds
  | fionread id => exact fionread_serves w q id holds
  | input env dgram => exact input_serves w q env dgram sound holds
  | error dgram errno => exact error_serves w q dgram errno holds

end Calls

section Lists

variable (m : Mail)

def lists : Nat × List Nat × List Nat × (Nat → Handler) := (m.made, m.udp, m.raw, fun id => (m.box id).proto)

theorem sound_lists (m' : Mail) (same : lists m' = lists m) (sound : Sound m) : Sound m' := by
  unfold lists at same
  simp only [Prod.mk.injEq] at same
  obtain ⟨made, udp, raw, proto⟩ := same
  refine ⟨?_, ?_, raw ▸ sound.once⟩
  · rw [udp, made]
    exact fun id member => ⟨(sound.udp id member).1, (congrFun proto id).trans (sound.udp id member).2⟩
  · rw [raw, made]
    exact fun id member => ⟨(sound.raw id member).1, (congrFun proto id).trans (sound.raw id member).2⟩

theorem set_box_lists (id : Nat) (b : Box) (same : b.proto = (m.box id).proto) : lists (m.setBox id b) = lists m := by
  unfold lists Mail.setBox
  refine congrArg (fun proto => (_, _, _, proto)) (funext fun i => ?_)
  by_cases here : i = id
  · rw [here]
    dsimp only
    rw [Function.update_self]
    exact same
  · dsimp only
    rw [Function.update_of_ne here]

theorem fetch_lists (id : Nat) (a : RecvArgs) : lists (fetch m id a).2 = lists m := by
  unfold fetch
  split
  · rfl
  · dsimp only
    split
    · rfl
    · exact set_box_lists m id _ rfl

theorem collect_lists (id : Nat) (a : RecvArgs) : lists (collect m id a).2 = lists m := by
  unfold collect
  cases stopped : recvStopped (m.settings id) with
  | some p => exact set_box_lists m id _ (stopped_proto _ p.2 p.1 stopped)
  | none =>
      have bound : lists (m.setSock id (autobind (m.settings id) a.port)) = lists m := set_box_lists m id _ (autobind_proto ..)
      dsimp only
      cases refused a with
      | some r => exact bound
      | none => exact (fetch_lists _ id a).trans bound

theorem wake_lists (id : Nat) (a : RecvArgs) (interrupted : Bool) : lists (wake m id a interrupted).2 = lists m := by
  unfold wake
  cases stopped : wokenBy (m.settings id) interrupted with
  | some p => exact set_box_lists m id _ (woken_proto _ p.2 interrupted p.1 stopped)
  | none => exact fetch_lists m id a

theorem post_lists (letter : Buffer) (ids : List Nat) : lists (m.post letter ids) = lists m := by
  unfold lists
  refine congrArg (fun proto => (_, _, _, proto)) (funext fun i => ?_)
  exact congrArg Sock.proto (post_settings m letter ids i)

theorem open_protos (proto : Handler) (protonum : Nat) :
    ((open' m proto protonum).box m.made).proto = proto ∧ ∀ i, i < m.made → (open' m proto protonum).box i = m.box i := by
  have box : (open' m proto protonum).box = Function.update m.box m.made
      ⟨(inDataCreate proto protonum).toSock, (inDataCreate proto protonum).rcv.maxdatalen, []⟩ := by
    unfold open'
    cases proto <;> rfl
  rw [box]
  refine ⟨?_, fun i below => Function.update_of_ne (Nat.ne_of_lt below) ..⟩
  rw [Function.update_self]
  rfl

theorem open_sound (proto : Handler) (protonum : Nat) (sound : Sound m) : Sound (open' m proto protonum) := by
  obtain ⟨new, old⟩ := open_protos m proto protonum
  have kept : ∀ handler id, id < m.made ∧ (m.box id).proto = handler →
      id < m.made + 1 ∧ ((open' m proto protonum).box id).proto = handler := by
    rintro handler id ⟨below, same⟩
    rw [old id below]
    exact ⟨Nat.lt_succ_of_lt below, same⟩
  cases proto with
  | udp =>
      refine ⟨fun id member => ?_, fun id member => kept .raw id (sound.raw id member), sound.once⟩
      rcases List.mem_cons.mp member with rfl | before
      · exact ⟨Nat.lt_succ_self _, new⟩
      · exact kept .udp id (sound.udp id before)
  | raw =>
      refine ⟨fun id member => kept .udp id (sound.udp id member), fun id member => ?_, ?_⟩
      · rcases List.mem_cons.mp member with rfl | before
        · exact ⟨Nat.lt_succ_self _, new⟩
        · exact kept .raw id (sound.raw id before)
      · exact List.nodup_cons.mpr ⟨fun twice => Nat.lt_irrefl _ (sound.raw _ twice).1, sound.once⟩

theorem erased_sound (udp raw : List Nat) (less : udp ⊆ m.udp) (less' : raw ⊆ m.raw) (once : raw.Nodup) (sound : Sound m) :
    Sound { m with udp := udp, raw := raw } :=
  ⟨fun id member => sound.udp id (less member), fun id member => sound.raw id (less' member), once⟩

theorem close_sound (id : Nat) (sound : Sound m) : Sound (close m id) := by
  unfold close
  cases (m.box id).proto with
  | udp =>
      refine sound_lists _ _ (set_box_lists _ id _ rfl) ?_
      exact erased_sound m _ m.raw List.erase_subset (List.Subset.refl _) sound.once sound
  | raw =>
      refine sound_lists _ _ (set_box_lists _ id _ rfl) ?_
      exact erased_sound m m.udp _ (List.Subset.refl _) List.erase_subset (sound.once.erase id) sound

theorem close_shut_sound (id : Nat) (how : Int) (port : Tcp.InPort) (sound : Sound m) : Sound (closeShut m id how port) := by
  have proto := (autobind_proto (shut (m.settings id) how) port).trans (shut_proto (m.settings id) how)
  have lists' := set_box_lists m id { m.box id with toSock := autobind (shut (m.settings id) how) port } proto
  have bound := sound_lists m _ lists' sound
  unfold closeShut
  dsimp only
  split
  · exact close_sound _ id bound
  · exact bound

theorem serve_sound (op : Op) (sound : Sound m) : Sound (serve m op).2 := by
  cases op with
  | attach proto protonum => exact open_sound m proto protonum sound
  | bind id addr port => exact sound_lists m _ (set_box_lists m id _ (bind_proto ..)) sound
  | connect id args => exact sound_lists m _ (set_box_lists m id _ (connect_proto ..)) sound
  | rcvbuf id val => exact sound_lists m _ (set_box_lists m id _ rfl) sound
  | send id addr addrlen port sent => exact sound_lists m _ (set_box_lists m id _ (send_proto ..)) sound
  | shutdown id how port => exact close_shut_sound m id how port sound
  | release id => exact close_sound m id sound
  | recv id a => exact sound_lists m _ (collect_lists m id a) sound
  | woken id a interrupted => exact sound_lists m _ (wake_lists m id a interrupted) sound
  | select id => exact sound
  | fionread id => exact sound
  | input env dgram => exact sound_lists m _ (post_lists m dgram _) sound
  | error dgram errno =>
      change Sound ((concerned m dgram).elim m fun id => m.setSock id (setErr (m.settings id) errno))
      cases concerned m dgram with
      | none => exact sound
      | some id => exact sound_lists m _ (set_box_lists m id _ rfl) sound

end Lists

theorem step_serves (w : World) (q : Nat → List Nat) (op : Op) (sound : Sound (view w q)) (holds : Holds w q []) :
    ∃ w' q', step w op = some ((mailStep (view w q) op).1, w') ∧ Sound (view w' q') ∧ Holds w' q' []
      ∧ view w' q' = (mailStep (view w q) op).2 := by
  have same : comes ((view w q).udp ++ (view w q).raw) op = comes (w.udp ++ w.raw) op := rfl
  unfold step mailStep
  rw [same]
  by_cases fine : comes (w.udp ++ w.raw) op = true
  · rw [if_pos fine, if_pos fine]
    obtain ⟨w', q', served, keeps, viewed⟩ := act_serves w q op sound holds fine
    exact ⟨w', q', served, viewed ▸ serve_sound (view w q) op sound, keeps, viewed⟩
  · rw [if_neg fine, if_neg fine]
    exact ⟨w, q, rfl, sound, holds, rfl⟩

theorem run_serves (ops : List Op) : ∀ (w : World) (q : Nat → List Nat), Sound (view w q) → Holds w q [] →
    ∃ w' q', run w ops = some ((mailRun (view w q) ops).1, w') ∧ Holds w' q' [] ∧ view w' q' = (mailRun (view w q) ops).2 := by
  induction ops with
  | nil => exact fun w q _ holds => ⟨w, q, rfl, holds, rfl⟩
  | cons op rest ih =>
      intro w q sound holds
      obtain ⟨w1, q1, served, sound1, keeps1, viewed1⟩ := step_serves w q op sound holds
      obtain ⟨w', q', later, keeps, viewed⟩ := ih w1 q1 sound1 keeps1
      rw [viewed1] at later viewed
      refine ⟨w', q', ?_, keeps, viewed⟩
      rw [run, served, Option.bind_some, later]
      rfl

theorem init_holds : Holds World.init (fun _ => []) [] := by
  refine ⟨fun _ => Singly.queued_empty _, fun _ => Singly.queued_empty _, fun _ => rfl, ?_, fun _ _ => rfl, fun b => ?_⟩
  · exact fun _ _ member => absurd member List.not_mem_nil
  · rw [if_neg (show ¬ b < World.init.bufs from Nat.not_lt_zero b)]
    rfl

theorem init_sound : Sound Mail.init := by
  refine ⟨?_, ?_, List.nodup_nil⟩
  · exact fun _ member => absurd member List.not_mem_nil
  · exact fun _ member => absurd member List.not_mem_nil

end MagxNet.Udp
