import Jancy.Lib.HandleTable
import Jancy.Lib.Run

/-! `AsyncIoBase`: waits for events, cut into steps where the lock is released. Any number of calls
may be on their way at once, those made by handlers included. -/
namespace Jancy.Io

/-- A `uint_t` of event bits. -/
abbrev Events := BitVec 32

/-- The two share an event. -/
def Events.Meets (mask events : Events) : Prop := mask &&& events ≠ 0

instance (mask events : Events) : Decidable (mask.Meets events) :=
  inferInstanceAs (Decidable (_ ≠ _))

namespace AsyncIoBaseEvent

def ioError : Events := 0x0001

end AsyncIoBaseEvent

/-- `address` is what a pointer to the wait tells apart. -/
structure AsyncWait (F : Type) where
  address : ℕ
  mask : Events
  handlerPtr : F
  handle : Handle
  deriving DecidableEq, Repr

/-- The `SyncWait` on the stack of a blocking call; `signaled` is the state of its event. -/
structure SyncWait where
  call : ℕ
  mask : Events
  signaled : Bool
  deriving DecidableEq, Repr

/-- `asyncWaitMap` holds addresses of waits, and `nextAddress` is the next one to be allocated. -/
structure AsyncIoBase (F : Type) (H : HandleTable ℕ) where
  activeEvents : Events
  isOpen : Bool
  syncWaitList : List SyncWait
  asyncWaitList : List (AsyncWait F)
  pendingAsyncWaitList : List (AsyncWait F)
  asyncWaitMap : H.Table
  nextAddress : ℕ

inductive WaitRequest (F : Type) where
  | open
  | wait (eventMask : Events) (handlerPtr : F)
  | cancelWait (handle : Handle)
  | blockingWait (eventMask : Events)
  | setEvents (events : Events)
  | cancelAllWaits
  | close
  deriving DecidableEq, Repr

inductive WaitReturn where
  | void
  | handle (handle : Option Handle)
  | bool (found : Bool)
  | events (triggered : Events)
  deriving DecidableEq, Repr

/-- Where a call stands. -/
inductive WaitPc (F : Type) where
  | entered (request : WaitRequest F)
  /-- in `wait`, past the test of `m_isOpen` -/
  | opened (eventMask : Events) (handlerPtr : F)
  /-- in the handler of a wait for events that are active already -/
  | serving
  /-- in `processWaitLists_l`, in the handler of a pending wait -/
  | notifying (wait : AsyncWait F)
  /-- in `blockingWait`, in front of its event -/
  | blocked (eventMask : Events)
  | awake (eventMask : Events)
  /-- in `close`, past `cancelAllWaits` -/
  | closing
  | returned (value : WaitReturn)
  deriving DecidableEq, Repr

inductive WaitEvent (F : Type) where
  | added (wait : AsyncWait F)
  | delivered (address : ℕ) (handlerPtr : F) (triggered : Events)
  | cancelled (address : ℕ)
  /-- a handler was called by `wait` itself -/
  | served (call : ℕ) (eventMask triggered : Events)
  /-- taken off `m_asyncWaitList` -/
  | unlisted (address : ℕ)
  /-- taken out of `m_asyncWaitMap` -/
  | unmapped (handle : Handle)
  /-- erased from `m_pendingAsyncWaitList` -/
  | erased (address : ℕ)
  deriving DecidableEq, Repr

/-- What a step of a call leads to. -/
structure WaitOutcome (F : Type) (H : HandleTable ℕ) where
  base : AsyncIoBase F H
  pc : WaitPc F
  events : List (WaitEvent F) := []

namespace AsyncIoBase

variable {F : Type} {H : HandleTable ℕ}

def initial : AsyncIoBase F H := ⟨0,false,[],[],[],H.new,0⟩

def open' (b : AsyncIoBase F H) : AsyncIoBase F H := { b with isOpen := true, activeEvents := 0 }

/-- `wait` up to its lock. -/
def wait (b : AsyncIoBase F H) (eventMask : Events) (handlerPtr : F) : WaitPc F :=
  if b.isOpen = false then .returned (.handle none) else .opened eventMask handlerPtr

/-- `wait` under the lock. -/
def addWait (b : AsyncIoBase F H) (call : ℕ) (eventMask : Events) (handlerPtr : F) :
    WaitOutcome F H :=
  if eventMask.Meets b.activeEvents then
    ⟨b,.serving,[.served call eventMask (eventMask &&& b.activeEvents)]⟩
  else
    let address := b.nextAddress
    let (handle,asyncWaitMap) := H.add b.asyncWaitMap address
    let wait : AsyncWait F := ⟨address,eventMask,handlerPtr,handle⟩
    ⟨{ b with
        asyncWaitList := b.asyncWaitList ++ [wait]
        asyncWaitMap
        nextAddress := address + 1 },
      .returned (.handle (some handle)),[.added wait]⟩

def eraseWait (b : AsyncIoBase F H) (address : ℕ) : AsyncIoBase F H :=
  { b with asyncWaitList := b.asyncWaitList.filter fun wait => decide (wait.address ≠ address) }

def cancelWait (b : AsyncIoBase F H) (handle : Handle) : WaitOutcome F H :=
  match H.find b.asyncWaitMap handle with
  | none => ⟨b,.returned (.bool false),[]⟩
  | some address =>
      ⟨{ b.eraseWait address with asyncWaitMap := H.erase b.asyncWaitMap handle },
        .returned (.bool true),[.cancelled address,.unlisted address,.unmapped handle]⟩

/-- `blockingWait` up to its event. -/
def blockingWait (b : AsyncIoBase F H) (call : ℕ) (eventMask : Events) : WaitOutcome F H :=
  if eventMask.Meets b.activeEvents then ⟨b,.returned (.events (eventMask &&& b.activeEvents)),[]⟩
  else
    ⟨{ b with syncWaitList := b.syncWaitList ++ [⟨call,eventMask,false⟩] },.blocked eventMask,[]⟩

/-- The event of call number `call`, which resets as it lets the call through. -/
def wake (b : AsyncIoBase F H) (call : ℕ) : AsyncIoBase F H :=
  { b with
    syncWaitList := b.syncWaitList.map fun wait =>
      if wait.call = call then { wait with signaled := false } else wait }

/-- The end of `blockingWait`. -/
def leaveWait (b : AsyncIoBase F H) (call : ℕ) (eventMask : Events) : WaitOutcome F H :=
  ⟨{ b with syncWaitList := b.syncWaitList.filter fun wait => decide (wait.call ≠ call) },
    .returned (.events (eventMask &&& b.activeEvents)),[]⟩

def signalAll (b : AsyncIoBase F H) : AsyncIoBase F H :=
  { b with syncWaitList := b.syncWaitList.map fun wait => { wait with signaled := true } }

def cancelAllWaits (b : AsyncIoBase F H) : AsyncIoBase F H × List (WaitEvent F) :=
  ({ b.signalAll with asyncWaitList := [], asyncWaitMap := H.clear b.asyncWaitMap },
    b.asyncWaitList.flatMap fun wait =>
      [.cancelled wait.address,.unlisted wait.address,.unmapped wait.handle])

/-- The loop over `m_asyncWaitList`: what is triggered goes to the end of the pending list. -/
def moveTriggered (b : AsyncIoBase F H) :
    List (AsyncWait F) → List (AsyncWait F) → List (AsyncWait F) → H.Table →
      List (WaitEvent F) → AsyncIoBase F H × List (WaitEvent F)
  | [], kept, pending, asyncWaitMap, events =>
      ({ b with asyncWaitList := kept, pendingAsyncWaitList := pending, asyncWaitMap },events)
  | wait :: rest, kept, pending, asyncWaitMap, events =>
      if wait.mask.Meets b.activeEvents then
        moveTriggered b rest kept
          (pending ++ [{ wait with mask := wait.mask &&& b.activeEvents }])
          (H.erase asyncWaitMap wait.handle)
          (events ++ [.unlisted wait.address,.unmapped wait.handle])
      else moveTriggered b rest (kept ++ [wait]) pending asyncWaitMap events

def signalTriggered (b : AsyncIoBase F H) : AsyncIoBase F H :=
  { b with
    syncWaitList := b.syncWaitList.map fun wait =>
      if wait.mask.Meets b.activeEvents then { wait with signaled := true } else wait }

/-- The test of the last loop, with the head of the pending list picked and its handler called. -/
def notifyLoop (b : AsyncIoBase F H) : WaitOutcome F H :=
  match b.pendingAsyncWaitList with
  | [] => ⟨b,.returned .void,[]⟩
  | wait :: _ => ⟨b,.notifying wait,[.delivered wait.address wait.handlerPtr wait.mask]⟩

/-- The end of a turn: the handler has returned. Its wait is found by its address. -/
def notified (b : AsyncIoBase F H) (wait : AsyncWait F) : WaitOutcome F H :=
  let o := notifyLoop { b with
    pendingAsyncWaitList :=
      b.pendingAsyncWaitList.filter fun w => decide (w.address ≠ wait.address) }
  { o with events := .erased wait.address :: o.events }

/-- `processWaitLists_l` up to its first handler. -/
def processWaitLists (b : AsyncIoBase F H) : WaitOutcome F H :=
  let (b,events) :=
    b.moveTriggered b.asyncWaitList [] b.pendingAsyncWaitList b.asyncWaitMap []
  let o := b.signalTriggered.notifyLoop
  { o with events := events ++ o.events }

def setEvents (b : AsyncIoBase F H) (events : Events) : WaitOutcome F H :=
  if b.activeEvents &&& events = events then ⟨b,.returned .void,[]⟩
  else processWaitLists { b with activeEvents := b.activeEvents ||| events }

/-- The next step of call number `call`; `none` while its event is not signaled. -/
def advance (b : AsyncIoBase F H) (call : ℕ) : WaitPc F → Option (WaitOutcome F H)
  | .entered .open => some ⟨b.open',.returned .void,[]⟩
  | .entered (.wait eventMask handlerPtr) => some ⟨b,b.wait eventMask handlerPtr,[]⟩
  | .entered (.cancelWait handle) => some (b.cancelWait handle)
  | .entered (.blockingWait eventMask) => some (b.blockingWait call eventMask)
  | .entered (.setEvents events) => some (b.setEvents events)
  | .entered .cancelAllWaits =>
      some ⟨b.cancelAllWaits.1,.returned .void,b.cancelAllWaits.2⟩
  | .entered .close => some ⟨b.cancelAllWaits.1,.closing,b.cancelAllWaits.2⟩
  | .opened eventMask handlerPtr => some (b.addWait call eventMask handlerPtr)
  | .serving => some ⟨b,.returned (.handle (some 0)),[]⟩
  | .notifying wait => some (b.notified wait)
  | .blocked eventMask =>
      if ⟨call,eventMask,true⟩ ∈ b.syncWaitList then some ⟨b.wake call,.awake eventMask,[]⟩
      else none
  | .awake eventMask => some (b.leaveWait call eventMask)
  | .closing => some ⟨{ b with isOpen := false },.returned .void,[]⟩
  | .returned _ => none

end AsyncIoBase

/-- An object with all the calls made on it so far, and what they did to waits. -/
structure WaitSystem (F : Type) (H : HandleTable ℕ) where
  base : AsyncIoBase F H
  calls : List (WaitPc F)
  log : List (WaitEvent F)

inductive WaitAction (F : Type) where
  | call (request : WaitRequest F)
  | advance (i : ℕ)
  /-- the timeout of the blocking call `i` -/
  | timeout (i : ℕ)
  deriving DecidableEq, Repr

namespace WaitSystem

variable {F : Type} {H : HandleTable ℕ}

def initial : WaitSystem F H := ⟨.initial,[],[]⟩

def apply (s : WaitSystem F H) (i : ℕ) (o : WaitOutcome F H) : WaitSystem F H :=
  ⟨o.base,s.calls.set i o.pc,s.log ++ o.events⟩

def step (s : WaitSystem F H) : WaitAction F → Option (WaitSystem F H)
  | .call request => some { s with calls := s.calls ++ [.entered request] }
  | .advance i =>
      match s.calls[i]? with
      | none => none
      | some pc => (s.base.advance i pc).map (s.apply i)
  | .timeout i =>
      match s.calls[i]? with
      | some (.blocked eventMask) => some { s with calls := s.calls.set i (.awake eventMask) }
      | _ => none

end WaitSystem
end Jancy.Io
