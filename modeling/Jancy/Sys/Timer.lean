import Jancy.Lib.Run
import Mathlib.Algebra.Group.Nat.Defs

/-! `sys.Timer`: the calls, from the outside and from inside of the timer function, and the threads
that they start. Times are in units of 100 nanoseconds, intervals in milliseconds. -/
namespace Jancy.Sys

/-- The parameters of `start`. -/
structure Schedule (F : Type) where
  ptr : F
  dueTime : ℕ
  interval : ℕ
  deriving DecidableEq, Repr

inductive TimerCall (F : Type) where
  | start (schedule : Schedule F)
  | stop
  deriving DecidableEq, Repr

def TimerCall.isStart {F : Type} : TimerCall F → Bool
  | .start _ => true
  | .stop => false

/-- A thread of the timer, from inside of the function, or another one. -/
inductive Caller where
  | timer (t : ℕ)
  | other (i : ℕ)
  deriving DecidableEq, Repr

/-- What a call does next. -/
inductive CallPc where
  | signaling
  | checking
  /-- in `waitAndClose`, for this thread if there is one -/
  | waiting (t : Option ℕ)
  | clearing
  /-- in `start`, past `stop` -/
  | setting
  | resetting
  | creating
  deriving DecidableEq, Repr

structure CallState (F : Type) where
  call : TimerCall F
  pc : CallPc
  deriving DecidableEq, Repr

/-- Where a thread of the timer stands; a wait ends at a time, or never. -/
inductive ThreadPc where
  | starting
  | delaying (deadline : Option ℕ)
  /-- in front of the call of the function, the first one or not -/
  | calling (isFirst : Bool)
  | inside (isFirst : Bool)
  | pausing (deadline : Option ℕ)
  | ended
  deriving DecidableEq, Repr

/-- A thread with what it was started for. It is stopped once a call of another thread has waited
for it, or by a call of its function, which may be a `start`. -/
structure TimerThread (F : Type) where
  schedule : Schedule F
  pc : ThreadPc
  isStopped : Bool
  isRestarted : Bool
  deriving DecidableEq, Repr

structure Timer (F : Type) where
  timerFuncPtr : Option F
  dueTime : ℕ
  interval : ℕ
  stopEvent : Bool
  /-- `m_thread` -/
  thread : Option ℕ
  threads : ℕ → Option (TimerThread F)
  /-- how many threads there have been -/
  threadCount : ℕ
  calls : Caller → Option (CallState F)
  /-- `getTimestamp` -/
  now : ℕ

inductive TimerAction (F : Type) where
  /-- the clock goes on -/
  | tick (time : ℕ)
  | call (caller : Caller) (call : TimerCall F)
  /-- the next step of a call, with what starting the thread gives -/
  | advance (caller : Caller) (result : Bool)
  /-- the next step of a thread, or the return of its function -/
  | thread (t : ℕ)
  deriving DecidableEq, Repr

namespace Timer

variable {F : Type}

def initial : Timer F where
  timerFuncPtr := none
  dueTime := 0
  interval := 0
  stopEvent := false
  thread := none
  threads := fun _ => none
  threadCount := 0
  calls := fun _ => none
  now := 0

def setThread (s : Timer F) (t : ℕ) (thread : TimerThread F) : Timer F :=
  { s with threads := Function.update s.threads t (some thread) }

def setCall (s : Timer F) (caller : Caller) (call : Option (CallState F)) : Timer F :=
  { s with calls := Function.update s.calls caller call }

/-- Only a thread in its function calls, and not before its last call has returned. -/
def call (s : Timer F) (caller : Caller) (call : TimerCall F) : Option (Timer F) :=
  let isFree : Bool := match caller with
    | .timer t =>
        match s.threads t with
        | some { pc := .inside _, .. } => true
        | _ => false
    | .other _ => true
  if isFree ∧ s.calls caller = none then some (s.setCall caller (some ⟨call,.signaling⟩)) else none

/-- The thread is waited for, and this is its end. -/
def hasEnded (s : Timer F) : Option ℕ → Bool
  | none => true
  | some t =>
      match s.threads t with
      | some thread => decide (thread.pc = .ended)
      | none => true

/-- `waitAndClose` has returned. -/
def close (s : Timer F) : Timer F :=
  { s with
    thread := none
    threads := fun t => (s.threads t).map fun thread => { thread with isStopped := true } }

/-- The call is made from inside of the function that the timer's own thread is in. -/
def isOwn (s : Timer F) (caller : Caller) : Bool :=
  match caller with
  | .timer t => decide (s.thread = some t)
  | .other _ => false

def note (s : Timer F) (caller : Caller) (isRestarted : Bool) : Timer F :=
  match caller with
  | .other _ => s
  | .timer t =>
      match s.threads t with
      | none => s
      | some thread => s.setThread t { thread with isStopped := true, isRestarted }

def clear (s : Timer F) : Timer F := { s with timerFuncPtr := none, dueTime := 0, interval := 0 }

/-- `m_thread.start()`. -/
def create (s : Timer F) (schedule : Schedule F) (result : Bool) : Timer F :=
  if result then
    { s.setThread s.threadCount ⟨schedule,.starting,false,false⟩ with
      thread := some s.threadCount
      threadCount := s.threadCount + 1 }
  else { s with timerFuncPtr := none }

def advance (s : Timer F) (caller : Caller) (result : Bool) : Option (Timer F) :=
  match s.calls caller with
  | none => none
  | some ⟨call,pc⟩ =>
      let goTo (s : Timer F) (pc : CallPc) : Timer F := s.setCall caller (some ⟨call,pc⟩)
      match pc with
      | .signaling => some (goTo { s with stopEvent := true } .checking)
      | .checking =>
          some (if s.isOwn caller then goTo s .clearing else goTo s (.waiting s.thread))
      | .waiting t => if s.hasEnded t then some (goTo s.close .clearing) else none
      | .clearing =>
          let s := if s.isOwn caller then s.clear.note caller call.isStart else s.clear
          some (if call.isStart then goTo s .setting else s.setCall caller none)
      | .setting =>
          match call with
          | .stop => none
          | .start schedule =>
              some (goTo { s with
                timerFuncPtr := some schedule.ptr
                dueTime := schedule.dueTime
                interval := schedule.interval } .resetting)
      | .resetting => some (goTo { s with stopEvent := false } .creating)
      | .creating =>
          match call with
          | .stop => none
          | .start schedule =>
              some ((s.create schedule result).setCall caller none)

/-- The end of `m_stopEvent.wait(timeout)` if the event is not signaled: -1 is for ever. -/
def waitUntil (s : Timer F) (timeout : ℕ) : Option ℕ :=
  if timeout = 2 ^ 32 - 1 then none else some (s.now + timeout * 10000)

/-- The time that is left, in milliseconds, as far as it fits. -/
def delay (s : Timer F) : ℕ := (s.dueTime - s.now) / 10000 % 2 ^ 32

/-- `m_stopEvent.wait`: the event is taken, or the time is over. -/
def wait (s : Timer F) (t : ℕ) (thread : TimerThread F) (deadline : Option ℕ) (isFirst : Bool) :
    Option (Timer F) :=
  if s.stopEvent then some ({ s with stopEvent := false }.setThread t { thread with pc := .ended })
  else
    match deadline with
    | none => none
    | some time =>
        if time ≤ s.now then some (s.setThread t { thread with pc := .calling isFirst }) else none

/-- The thread has no more calls to make after the first one. -/
def isSingleShot (s : Timer F) : Bool := decide (s.interval = 0 ∨ s.interval = 2 ^ 32 - 1)

def threadFunc (s : Timer F) (t : ℕ) : Option (Timer F) :=
  match s.threads t with
  | none => none
  | some thread =>
      match thread.pc with
      | .starting =>
          some (s.setThread t { thread with
            pc := if s.now < s.dueTime then .delaying (s.waitUntil s.delay) else .calling true })
      | .delaying deadline => s.wait t thread deadline true
      | .calling isFirst => some (s.setThread t { thread with pc := .inside isFirst })
      | .inside isFirst =>
          if s.calls (.timer t) ≠ none then none
          else
            some (s.setThread t { thread with
              pc := if isFirst && s.isSingleShot then .ended
                else .pausing (s.waitUntil s.interval) })
      | .pausing deadline => s.wait t thread deadline false
      | .ended => none

def step (s : Timer F) : TimerAction F → Option (Timer F)
  | .tick time => some { s with now := s.now + time }
  | .call caller call => s.call caller call
  | .advance caller result => s.advance caller result
  | .thread t => s.threadFunc t

/-- The schedule has been started, and has not come to its end or been stopped. -/
def IsActive (s : Timer F) (t : ℕ) : Prop :=
  ∃ thread, s.threads t = some thread ∧ thread.pc ≠ .ended ∧ thread.isStopped = false

def AtMostOne (s : Timer F) : Prop := ∀ t t', s.IsActive t → s.IsActive t' → t = t'

def Proper (s : Timer F) : TimerAction F → Prop
  | .thread t => ∀ thread isFirst, s.threads t = some thread → thread.pc = .calling isFirst →
      thread.isStopped = false ∧ s.timerFuncPtr = some thread.schedule.ptr ∧
        (isFirst = true → thread.schedule.dueTime ≤ s.now)
  | _ => True

/-- A call of `stop` by the thread that the timer has. -/
def IsOwnStop (s : Timer F) (caller : Caller) (call : TimerCall F) : Prop :=
  s.isOwn caller = true ∧ call = .stop

/-- Calls do not overlap, except for `stop` from inside of the function; what is left until a
schedule is due is told in milliseconds, in 32 bits; and where the function has called `start`, it
was in its first call, and will not be called again by its thread. -/
def StepOk (s : Timer F) : TimerAction F → Prop
  | .call caller call => s.IsOwnStop caller call ∨
      ∀ caller' c, s.calls caller' = some c → s.IsOwnStop caller' c.call
  | .thread t =>
      match s.threads t with
      | none => True
      | some thread =>
          match thread.pc with
          | .starting => s.dueTime ≤ s.now ∨
              ((s.dueTime - s.now) % 10000 = 0 ∧ (s.dueTime - s.now) / 10000 < 2 ^ 32)
          | .inside isFirst => s.calls (.timer t) = none → thread.isRestarted = true →
              isFirst = true ∧ s.isSingleShot = true
          | _ => True
  | _ => True

end Timer
end Jancy.Sys
