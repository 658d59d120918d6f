import MagxNet.Lib.Delta

set_option autoImplicit false

namespace MagxNet.Timer

open Delta

abbrev EVTGRAN : Int := 10
abbrev TIMEOUT_EXPIRE_LIMIT : Int := 400

-- What a root timeout calls: check_events, or a function of somebody else.
inductive Func where
  | checkEvents
  | other (n : Nat)
deriving DecidableEq, Repr

structure Timeout where
  id : Nat
  func : Func
deriving DecidableEq, Repr

-- The gaps in allevents are the deltas of the events, those in tlist the whens of the timeouts; an
-- expired timeout has its when beside it. armed says whether an event's func is set. phase counts the
-- steps of the 200 Hz clock hz since new_etv_timer last ran. calling: control is in a callback of
-- check_events.
structure Timers where
  allevents : List (Entry Nat)
  armed : Nat → Bool
  nexttimeout : Option Nat
  tlist : List (Entry Timeout)
  expireList : List (Timeout × Int)
  last : Int
  init : Bool
  hz : Int
  phase : Int
  calling : Bool

def updateHead (s : Timers) : Timers :=
  if s.init ∨ s.allevents = [] ∨ s.hz - s.last < 0 then { s with last := s.hz, init := false }
  else
    let diff := (s.hz - s.last) / 2
    { s with allevents := addFirst (-diff) s.allevents, last := s.last + diff * 2 }

def inUse (s : Timers) : List Nat := s.tlist.map (fun t => t.key.id) ++ s.expireList.map fun t => t.1.id

-- The first expired timeout that had this function attached, and the others.
def takeExpired (func : Func) : List (Timeout × Int) → Option (Nat × List (Timeout × Int))
  | [] => none
  | t :: rest =>
      if t.1.func = func then some (t.1.id, rest)
      else (takeExpired func rest).map fun found => (found.1, t :: found.2)

-- newtimeout finds a timeout that is not in use.
abbrev Newtimeout := List Nat → Nat

def addroottimeout (newtimeout : Newtimeout) (s : Timers) (delta : Int) (func : Func) : Nat × Timers :=
  match takeExpired func s.expireList with
  | some (id, others) => (id, { s with expireList := others, tlist := insertBefore ⟨id, func⟩ delta s.tlist })
  | none =>
      let id := newtimeout (inUse s)
      (id, { s with tlist := insertBefore ⟨id, func⟩ delta s.tlist })

def cancelroottimeout (s : Timers) (id : Nat) : Timers :=
  if s.expireList.any fun t => t.1.id = id then { s with expireList := s.expireList.eraseP fun t => t.1.id = id }
  else { s with tlist := remove (fun t => t.id = id) s.tlist }

-- if (nexttimeout) cancelroottimeout (nexttimeout);
def cancelNext (s : Timers) : Timers :=
  match s.nexttimeout with
  | some id => cancelroottimeout s id
  | none => s

-- nexttimeout = addroottimeout (delta * EVTGRAN, check_events, 0);
def armNext (newtimeout : Newtimeout) (s : Timers) (delta : Int) : Timers :=
  let (id, s) := addroottimeout newtimeout s (delta * EVTGRAN) .checkEvents
  { s with nexttimeout := some id }

-- A timeout function that is called at once does its work in the steps that follow.
def eventInsert (newtimeout : Newtimeout) (s : Timers) (ep : Nat) (delta : Int) : Timers :=
  if delta ≤ 0 then { s with armed := Function.update s.armed ep false }
  else
    let s := updateHead s
    let s := { s with allevents := insertAfter ep delta s.allevents }
    if s.allevents.head?.map Entry.key = some ep then armNext newtimeout (cancelNext s) delta else s

def eventRemove (s : Timers) (ep : Nat) : Timers := { s with allevents := remove (fun curr => curr = ep) s.allevents }

def eventAdd (newtimeout : Newtimeout) (s : Timers) (ep : Nat) (delta : Int) : Timers :=
  let s := if s.armed ep then eventRemove s ep else s
  eventInsert newtimeout { s with armed := Function.update s.armed ep true } ep delta

def eventDel (s : Timers) (ep : Nat) : Timers :=
  if s.armed ep then { eventRemove s ep with armed := Function.update s.armed ep false } else s

def eventReset (newtimeout : Newtimeout) (s : Timers) (ep : Nat) (delta : Int) : Timers :=
  let s := updateHead s
  match timeOf (fun curr => curr = ep) 0 s.allevents with
  | none => s
  | some ticks =>
      if delta = ticks then s
      else if ticks < delta then { s with allevents := move (fun curr => curr = ep) delta s.allevents }
      else eventInsert newtimeout (eventRemove s ep) ep delta

-- check_events from one update_head on: up to the next callback, or to its end.
def checkEvents (newtimeout : Newtimeout) (s : Timers) : Timers :=
  let s := updateHead s
  match s.allevents with
  | [] => { s with nexttimeout := none, calling := false }
  | ep :: rest =>
      if ep.gap ≤ 0 then
        { s with allevents := addFirst ep.gap rest, armed := Function.update s.armed ep.key false, calling := true }
      else { armNext newtimeout s ep.gap with calling := false }

-- One round of the loop of checkalarms.
def checkalarms (newtimeout : Newtimeout) (s : Timers) : Option Timers :=
  match s.tlist with
  | [] => none
  | t :: rest =>
      if t.gap ≤ 0 then
        let s := { s with tlist := addFirst t.gap rest, expireList := (t.key, s.hz + TIMEOUT_EXPIRE_LIMIT) :: s.expireList }
        some (if t.key.func = .checkEvents then checkEvents newtimeout s else s)
      else none

def disposeOldTimeouts (s : Timers) : Timers :=
  { s with expireList := s.expireList.takeWhile fun t => s.hz ≤ t.2 }

def newEtvTimer (s : Timers) : Timers := { s with tlist := addFirst (-20) s.tlist }

def clock (s : Timers) : Timers :=
  let s := { s with hz := s.hz + 1 }
  if s.phase = 3 then { newEtvTimer s with phase := 0 } else { s with phase := s.phase + 1 }

inductive Cmd where
  | add (ep : Nat) (delta : Int)
  | del (ep : Nat)
  | reset (ep : Nat) (delta : Int)
  | ask
  | clock
  | alarm
  | back
  | dispose
  | root (n : Nat) (delta : Int)
  | unroot (id : Nat)
deriving DecidableEq, Repr

-- Outside of check_events and in its callbacks alike anybody may use the events, the clock may go on
-- and others may use timeouts of their own; a callback ends with back.
def step (newtimeout : Newtimeout) (s : Timers) : Cmd → Option Timers
  | .add ep delta => some (eventAdd newtimeout s ep delta)
  | .del ep => some (eventDel s ep)
  | .reset ep delta => some (eventReset newtimeout s ep delta)
  | .ask => some (updateHead s)
  | .clock => some (clock s)
  | .alarm => if s.calling then none else checkalarms newtimeout s
  | .back => if s.calling then some (checkEvents newtimeout s) else none
  | .dispose => if s.calling then none else some (disposeOldTimeouts s)
  | .root n delta => some (addroottimeout newtimeout s delta (.other n)).2
  | .unroot id =>
      if (s.tlist.map Entry.key ++ s.expireList.map Prod.fst).any fun t => t.id = id ∧ t.func = .checkEvents then none
      else some (cancelroottimeout s id)

-- Whether event_insert puts the event at the head of the list.
def insertsAtHead (s : Timers) (delta : Int) : Bool :=
  decide (0 < delta) && match (updateHead s).allevents with
    | [] => true
    | cur :: _ => decide (delta < cur.gap)

def Cmd.atHead (s : Timers) : Cmd → Bool
  | .add ep delta => insertsAtHead (if s.armed ep then eventRemove s ep else s) delta
  | .reset ep delta =>
      match timeOf (fun curr => curr = ep) 0 (updateHead s).allevents with
      | none => false
      | some ticks => decide (delta < ticks) && insertsAtHead (eventRemove (updateHead s) ep) delta
  | _ => false

end MagxNet.Timer
