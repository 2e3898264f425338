import Jancy.Lib.HandleTable
import Jancy.Lib.Run

/-! `PromiseImpl`: its waits and completions, cut into steps where the lock is released. Any number
of calls may be on their way at once, those made by handlers included. -/
namespace Jancy.Rtl

inductive PromiseState where
  | initial | completed
  deriving DecidableEq, Repr

inductive AsyncWaitKind where
  | noArgs | errorArg | resultErrorArgs
  deriving DecidableEq, Repr

/-- What a handler is called with. A null variant and a null error are `none`. -/
inductive HandlerArgs (V E : Type) where
  | none
  | error (errorPtr : Option E)
  | resultError (result : Option V) (errorPtr : Option E)
  deriving DecidableEq, Repr

/-- `address` is what a pointer to the wait tells apart. -/
structure AsyncWait (F : Type) where
  address : ℕ
  waitKind : AsyncWaitKind
  handlerPtr : F
  handle : Handle
  deriving DecidableEq, Repr

/-- The `SyncWait` on the stack of a blocking call. -/
structure SyncWait where
  call : ℕ
  signaled : Bool
  deriving DecidableEq, Repr

/-- `asyncWaitMap` holds addresses of waits, and `nextAddress` is the next one to be allocated. -/
structure Promise (V E F : Type) (H : HandleTable ℕ) where
  state : PromiseState
  result : Option V
  errorPtr : Option E
  syncWaitList : List SyncWait
  asyncWaitList : List (AsyncWait F)
  asyncWaitMap : H.Table
  nextAddress : ℕ

/-- The calls on a promise. `complete_0` and `complete_1` are `complete` with nulls. -/
inductive PromiseRequest (V E F : Type) where
  | wait (kind : AsyncWaitKind) (handlerPtr : F)
  | cancelWait (handle : Handle)
  | complete (result : Option V) (errorPtr : Option E)
  | blockingWait
  deriving DecidableEq, Repr

inductive PromiseReturn (V : Type) where
  | void
  | handle (handle : Handle)
  | bool (found : Bool)
  | variant (result : Option V)
  deriving DecidableEq, Repr

/-- Where a call stands. Only `entered` and `notified` are about to take the lock. -/
inductive PromisePc (V E F : Type) where
  | entered (request : PromiseRequest V E F)
  /-- about to call the handler of a wait that came too late -/
  | serving (kind : AsyncWaitKind) (handlerPtr : F)
  | served
  /-- about to call the handler of the wait at the head of the list -/
  | notifying (wait : AsyncWait F)
  | notified (wait : AsyncWait F)
  | blocked
  | returned (value : PromiseReturn V)
  | threw
  deriving DecidableEq, Repr

inductive PromiseEvent (V E F : Type) where
  | added (handle : Handle) (handlerPtr : F)
  | cancelled (handle : Handle)
  | invoked (handle : Handle) (handlerPtr : F) (args : HandlerArgs V E)
  | served (call : ℕ) (handlerPtr : F) (args : HandlerArgs V E)
  deriving DecidableEq, Repr

/-- What a step of a call leads to. -/
structure PromiseOutcome (V E F : Type) (H : HandleTable ℕ) where
  promise : Promise V E F H
  pc : PromisePc V E F
  events : List (PromiseEvent V E F) := []

namespace Promise

variable {V E F : Type} {H : HandleTable ℕ}

def initial : Promise V E F H := ⟨.initial,none,none,[],[],H.new,0⟩

def addAsyncWait (p : Promise V E F H) (waitKind : AsyncWaitKind) (handlerPtr : F) :
    PromiseOutcome V E F H :=
  let address := p.nextAddress
  let (handle,asyncWaitMap) := H.add p.asyncWaitMap address
  let wait : AsyncWait F := ⟨address,waitKind,handlerPtr,handle⟩
  ⟨{ p with
      asyncWaitList := p.asyncWaitList ++ [wait]
      asyncWaitMap
      nextAddress := address + 1 },
    .returned (.handle handle),[.added handle handlerPtr]⟩

/-- `wait_0`, `wait_1` and `wait_2`. -/
def wait (p : Promise V E F H) (kind : AsyncWaitKind) (handlerPtr : F) :
    PromiseOutcome V E F H :=
  if p.state ≠ .completed then p.addAsyncWait kind handlerPtr
  else ⟨p,.serving kind handlerPtr,[]⟩

/-- What the three waits call a handler with, on a completed promise. -/
def waitArgs (p : Promise V E F H) : AsyncWaitKind → HandlerArgs V E
  | .noArgs => .none
  | .errorArg => .error p.errorPtr
  | .resultErrorArgs => .resultError p.result p.errorPtr

def eraseWait (p : Promise V E F H) (address : ℕ) : Promise V E F H :=
  { p with asyncWaitList := p.asyncWaitList.filter fun wait => decide (wait.address ≠ address) }

def cancelWait (p : Promise V E F H) (handle : Handle) : PromiseOutcome V E F H :=
  match H.find p.asyncWaitMap handle with
  | none => ⟨p,.returned (.bool false),[]⟩
  | some address =>
      ⟨{ p.eraseWait address with asyncWaitMap := H.erase p.asyncWaitMap handle },
        .returned (.bool true),[.cancelled handle]⟩

/-- The test of the loop in `complete_2`, with the head of the list taken out of the map. -/
def completeLoop (p : Promise V E F H) : PromiseOutcome V E F H :=
  match p.asyncWaitList with
  | [] => ⟨p,.returned .void,[]⟩
  | wait :: _ =>
      ⟨{ p with asyncWaitMap := H.erase p.asyncWaitMap wait.handle },.notifying wait,[]⟩

/-- `complete_2` up to its first handler. -/
def complete (p : Promise V E F H) (result : Option V) (errorPtr : Option E) :
    PromiseOutcome V E F H :=
  if p.state = .completed then ⟨p,.returned .void,[]⟩
  else
    let p := { p with result, errorPtr, state := .completed }
    if errorPtr.isSome ∧ p.syncWaitList = [] ∧ p.asyncWaitList = [] then ⟨p,.returned .void,[]⟩
    else
      completeLoop
        { p with syncWaitList := p.syncWaitList.map fun wait => { wait with signaled := true } }

/-- The end of `blockingWaitImpl`: an error is thrown. -/
def blockingResult (p : Promise V E F H) : PromisePc V E F :=
  if p.errorPtr.isSome then .threw else .returned (.variant p.result)

def blockingWait (p : Promise V E F H) (call : ℕ) : PromiseOutcome V E F H :=
  if p.state ≠ .completed then
    ⟨{ p with syncWaitList := p.syncWaitList ++ [⟨call,false⟩] },.blocked,[]⟩
  else ⟨p,p.blockingResult,[]⟩

/-- The next step of call number `call`; `none` while its event is not signaled. -/
def advance (p : Promise V E F H) (call : ℕ) :
    PromisePc V E F → Option (PromiseOutcome V E F H)
  | .entered (.wait kind handlerPtr) => some (p.wait kind handlerPtr)
  | .entered (.cancelWait handle) => some (p.cancelWait handle)
  | .entered (.complete result errorPtr) => some (p.complete result errorPtr)
  | .entered .blockingWait => some (p.blockingWait call)
  | .serving kind handlerPtr =>
      some ⟨p,.served,[.served call handlerPtr (p.waitArgs kind)]⟩
  | .served => some ⟨p,.returned (.handle 0),[]⟩
  | .notifying wait =>
      some ⟨p,.notified wait,
        [.invoked wait.handle wait.handlerPtr (.resultError p.result p.errorPtr)]⟩
  | .notified wait => some (p.eraseWait wait.address).completeLoop
  | .blocked =>
      if ⟨call,true⟩ ∈ p.syncWaitList then
        some ⟨{ p with syncWaitList := p.syncWaitList.erase ⟨call,true⟩ },p.blockingResult,[]⟩
      else none
  | .returned _ | .threw => none

end Promise

/-- A promise with all the calls made on it so far, and what they did to handlers. -/
structure PromiseSystem (V E F : Type) (H : HandleTable ℕ) where
  promise : Promise V E F H
  calls : List (PromisePc V E F)
  log : List (PromiseEvent V E F)

inductive PromiseAction (V E F : Type) where
  | call (request : PromiseRequest V E F)
  | advance (i : ℕ)
  /-- the handler that call `i` is in throws, past the frame of that call -/
  | handlerThrows (i : ℕ)
  deriving DecidableEq, Repr

namespace PromiseSystem

variable {V E F : Type} {H : HandleTable ℕ}

def initial : PromiseSystem V E F H := ⟨.initial,[],[]⟩

def apply (s : PromiseSystem V E F H) (i : ℕ) (o : PromiseOutcome V E F H) :
    PromiseSystem V E F H :=
  ⟨o.promise,s.calls.set i o.pc,s.log ++ o.events⟩

def step (s : PromiseSystem V E F H) : PromiseAction V E F → Option (PromiseSystem V E F H)
  | .call request => some { s with calls := s.calls ++ [.entered request] }
  | .advance i =>
      match s.calls[i]? with
      | none => none
      | some pc => (s.promise.advance i pc).map (s.apply i)
  | .handlerThrows i =>
      match s.calls[i]? with
      | some .served | some (.notified _) => some { s with calls := s.calls.set i .threw }
      | _ => none

end PromiseSystem
end Jancy.Rtl
