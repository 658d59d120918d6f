import MagxNet.Lib.Callout

set_option autoImplicit false

namespace MagxNet.Timeouts

open Delta Callout

abbrev TIMEOUTS : Nat := 64
abbrev TIMEOUT_POOLSIZE : Nat := 128
abbrev TIMEOUT_EXPIRE_LIMIT : Int := 400

-- A TIMEOUT is one of the static ones or in an element of timeout_list, counted along that list.
inductive Ref where
  | timeouts (i : Nat)
  | pool (i : Nat)
deriving DecidableEq, Repr

-- The two flags, and inuse of the element of the pool. Nothing ever sets proc.
structure Tmout where
  proc : Nat
  func : Nat
  isStatic : Bool
  used : Bool
  inuse : Bool
deriving DecidableEq, Repr

-- The gaps in tlist are the whens; an expired timeout has its when beside it. hz is the 200 Hz clock.
structure State where
  mem : Ref → Tmout
  tlist : List (Entry Ref)
  expireList : List (Ref × Int)
  hz : Int

-- timeout_alloc: behind the end of timeout_list it runs into an illegal instruction.
def timeoutAlloc (mem : Ref → Tmout) : Option Ref :=
  ((List.range (TIMEOUT_POOLSIZE + 1)).find? fun i => !(mem (.pool i)).inuse).map .pool

def newtimeout (fromlist : Bool) (mem : Ref → Tmout) : Option (Option Ref × (Ref → Tmout)) :=
  if !fromlist then
    (timeoutAlloc mem).map fun t =>
      (some t, Function.update mem t { mem t with inuse := true, isStatic := false, used := false })
  else
    match (List.range TIMEOUTS).find? fun i => !(mem (.timeouts i)).used with
    | some i =>
        let t := Ref.timeouts i
        some (some t, Function.update mem t { mem t with isStatic := true, used := true })
    | none => some (none, mem)

def disposetimeout (t : Tmout) : Tmout := if t.isStatic then { t with used := false } else { t with inuse := false }

def disposeAll (old : List Ref) (mem : Ref → Tmout) : Ref → Tmout :=
  fun t => if t ∈ old then disposetimeout (mem t) else mem t

def disposeOldTimeouts (s : State) : State :=
  { s with
    expireList := s.expireList.takeWhile fun t => s.hz ≤ t.2
    mem := disposeAll ((s.expireList.dropWhile fun t => s.hz ≤ t.2).map Prod.fst) s.mem }

def inserttimeout (s : State) (t : Ref) (delta : Int) : State := { s with tlist := insertBefore t delta s.tlist }

def setFunc (mem : Ref → Tmout) (t : Ref) (func : Nat) : Ref → Tmout := Function.update mem t { mem t with func := func }

-- An expired timeout that had the same function attached is used again.
def addroottimeout (s : State) (delta : Int) (func : Nat) (flags : Nat) : Option (Option Ref × State) :=
  match s.expireList.find? fun t => (s.mem t.1).func = func with
  | some t =>
      let s := { s with expireList := s.expireList.eraseP fun t => (s.mem t.1).func = func }
      some (some t.1, inserttimeout { s with mem := setFunc s.mem t.1 func } t.1 delta)
  | none =>
      match newtimeout (flags % 2 = 1) s.mem with
      | none => none
      | some (none, _) => some (none, s)
      | some (some t, mem) => some (some t, inserttimeout { s with mem := setFunc mem t func } t delta)

def cancelalltimeouts (s : State) (curproc : Nat) : State :=
  let mine := fun t => decide ((s.mem t).proc = curproc)
  { s with
    tlist := removeAll mine 0 s.tlist
    expireList := s.expireList.filter fun t => !mine t.1
    mem := disposeAll ((s.tlist.map Entry.key ++ s.expireList.map Prod.fst).filter mine) s.mem }

def cancelroottimeout (s : State) (this : Ref) : State :=
  if s.expireList.any fun cur => cur.1 = this then
    { s with expireList := s.expireList.eraseP fun cur => cur.1 = this, mem := disposeAll [this] s.mem }
  else if this ∈ s.tlist.map Entry.key then
    { s with tlist := remove (fun cur => cur = this) s.tlist, mem := disposeAll [this] s.mem }
  else s

-- One round of the loop of checkalarms, up to the call of the timeout's function, or its end.
def checkalarms (s : State) : State :=
  match s.tlist with
  | [] => disposeOldTimeouts s
  | old :: rest =>
      if old.gap ≤ 0 then
        { s with tlist := addFirst old.gap rest, expireList := (old.key, s.hz + TIMEOUT_EXPIRE_LIMIT) :: s.expireList }
      else disposeOldTimeouts s

def newEtvTimer (s : State) : State := { s with tlist := addFirst (-20) s.tlist }

-- The functions of the timeouts and interrupts do what they like between the rounds of checkalarms, and the
-- functions may have it started again.
inductive Cmd where
  | add (delta : Int) (func : Nat) (flags : Nat)
  | cancel (this : Ref)
  | cancelAll (curproc : Nat)
  | tick
  | setHz (hz : Int)
  | alarm
deriving DecidableEq, Repr

def step (s : State) : Cmd → Option State
  | .add delta func flags => (addroottimeout s delta func flags).map Prod.snd
  | .cancel this => some (cancelroottimeout s this)
  | .cancelAll curproc => some (cancelalltimeouts s curproc)
  | .tick => some (newEtvTimer s)
  | .setHz hz => some { s with hz := hz }
  | .alarm => some (checkalarms s)

def steps : List Cmd → State → Option State
  | [], s => some s
  | cmd :: rest, s => (step s cmd).bind (steps rest)

def initial (hz : Int) : State := ⟨fun _ => ⟨0, 0, false, false, false⟩, [], [], hz⟩

-- What is asked of an agenda of timeouts, in ms.
inductive Act where
  | set (t : Ref) (delta : Int)
  | withdraw (which : Ref → Bool)
  | wait (d : Nat)
  | call (t : Ref)
  | rest

def act (a : Agenda Ref) : Act → Option (Agenda Ref)
  | .set t delta => some (Callout.set .newestFirst t delta a)
  | .withdraw which => some (Callout.withdraw which a)
  | .wait d => some (Callout.wait d a)
  | .call t => Callout.call t a
  | .rest => Callout.rest a

def acts (s : State) : Cmd → List Act
  | .add delta func flags =>
      match addroottimeout s delta func flags with
      | some (some t, _) => [.set t delta]
      | _ => []
  | .cancel this => [.withdraw fun t => t = this]
  | .cancelAll curproc => [.withdraw fun t => (s.mem t).proc = curproc]
  | .tick => [.wait 20]
  | .setHz _ => []
  | .alarm =>
      match s.tlist with
      | [] => [.rest]
      | old :: _ => if old.gap ≤ 0 then [.call old.key] else [.rest]

def follow : List Act → Agenda Ref → Option (Agenda Ref)
  | [], a => some a
  | x :: rest, a => (act a x).bind (follow rest)

def actsOf : List Cmd → State → List Act
  | [], _ => []
  | cmd :: rest, s =>
      match step s cmd with
      | none => []
      | some s' => acts s cmd ++ actsOf rest s'

def listed (s : State) : List Ref := s.tlist.map Entry.key ++ s.expireList.map Prod.fst

def InUse : Ref → Tmout → Prop
  | .timeouts _, t => t.isStatic = true ∧ t.used = true
  | .pool _, t => t.isStatic = false ∧ t.inuse = true

-- No timeout is twice on the lists, and those on them are marked as in use; tlist shows the agenda.
structure Views (s : State) (a : Agenda Ref) : Prop where
  once : (listed s).Nodup
  marked : ∀ t ∈ listed s, InUse t (s.mem t)
  shown : Shows a.now s.tlist a.pending
  kept : Kept a

end MagxNet.Timeouts
