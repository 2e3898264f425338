import Jancy.Lib.Run

/-! `UsbAsyncControlEndpoint`: control transfers, their completion thread and the calls, cut into
steps where the lock is released. -/
namespace Jancy.Io

/-- A `Transfer`, told apart by the call that made it. -/
structure ControlTransfer where
  call : ℕ
  /-- `m_completionFuncPtr` has a closure -/
  hasClosure : Bool
  /-- `m_inBufferPtr` has a validator -/
  hasInBuffer : Bool
  deriving DecidableEq, Repr

inductive UsbTransferStatus where
  | completed (actualLength : ℕ)
  | cancelled
  | failed
  deriving DecidableEq, Repr

/-- What a completion function is called with; the two errors come with -1. -/
inductive ControlResult where
  | size (resultSize : ℕ)
  | cancelled
  | ioError
  /-- the last error of a transfer that was not submitted -/
  | lastError
  deriving DecidableEq, Repr

def UsbTransferStatus.result : UsbTransferStatus → ControlResult
  | .completed actualLength => .size actualLength
  | .cancelled => .cancelled
  | .failed => .ioError

/-- What the garbage collector marks for a transfer. -/
inductive ControlRoot where
  | closure (call : ℕ)
  | inBuffer (call : ℕ)
  deriving DecidableEq, Repr

namespace ControlTransfer

def roots (t : ControlTransfer) : List ControlRoot :=
  (if t.hasClosure then [.closure t.call] else []) ++
    if t.hasInBuffer then [.inBuffer t.call] else []

/-- `markTransferGcRoots`; `none` where it goes through a null closure. -/
def markGcRoots (t : ControlTransfer) : Option (List ControlRoot) :=
  if t.hasClosure then some t.roots else none

end ControlTransfer

inductive ControlRequest where
  | transfer (isIn hasValidator hasClosure : Bool)
  | cancelTransfers
  | stop
  deriving DecidableEq, Repr

inductive ControlCallPc where
  | entered (request : ControlRequest)
  /-- in `transfer`, with the transfer filled -/
  | filled (t : ControlTransfer)
  /-- on the active list -/
  | inserted (t : ControlTransfer)
  /-- not created or not submitted -/
  | failed
  /-- in the completion function, for a transfer that failed -/
  | failing
  | transferred (result : Bool)
  /-- in `cancelTransfers`, in front of `m_idleEvent` -/
  | awaitingIdle
  /-- in `stop`, until the thread ends -/
  | awaitingThread
  | returned
  deriving DecidableEq, Repr

/-- `nested` calls are made by a completion function on the completion thread. -/
structure ControlCall where
  pc : ControlCallPc
  nested : Bool
  deriving DecidableEq, Repr

/-- Where the completion thread stands; `last` after it has seen `Flag_Stop`. -/
inductive CompletionPc where
  /-- in front of `m_event` -/
  | waiting
  | woken
  /-- in `cancelAllActiveTransfers_l`, with the transfers still to be cancelled -/
  | cancelling (activeTransferArray : List ℕ) (last : Bool)
  | draining (last : Bool)
  /-- in front of `m_event`, until all transfers have completed -/
  | drainWaiting (last : Bool)
  /-- in `finalizeTransfers_l`, with what is left of its own list -/
  | finalizing (transferList : List (ControlTransfer × UsbTransferStatus)) (last : Bool)
  /-- in the completion function of `t` -/
  | calling (t : ControlTransfer) (transferList : List (ControlTransfer × UsbTransferStatus))
      (last : Bool)
  | ended
  deriving DecidableEq, Repr

inductive ControlEvent where
  | submitted (t : ControlTransfer)
  /-- a completion function is called -/
  | invoked (call : ℕ) (result : ControlResult)
  /-- it has returned -/
  | finished (call : ℕ)
  /-- a garbage collection with what it marked, or one that went through a null pointer -/
  | collected (marked : Option (List ControlRoot))
  deriving DecidableEq, Repr

structure UsbAsyncControlEndpoint where
  stopFlag : Bool
  cancelFlag : Bool
  event : Bool
  idleEvent : Bool
  activeTransferList : List ControlTransfer
  completedTransferList : List (ControlTransfer × UsbTransferStatus)
  thread : CompletionPc
  calls : List ControlCall
  /-- what libusb has been given and not called back for -/
  owned : List ℕ
  log : List ControlEvent
  deriving DecidableEq, Repr

inductive ControlAction where
  | call (request : ControlRequest) (nested : Bool)
  /-- the next step of call `i`; `ok` is the outcome of creation and of submission -/
  | advance (i : ℕ) (ok : Bool)
  /-- the next step of the completion thread -/
  | thread
  /-- libusb calls `onTransferCompleted` -/
  | complete (i : ℕ) (status : UsbTransferStatus)
  /-- `markOpaqueGcRoots` -/
  | collect
  deriving DecidableEq, Repr

namespace UsbAsyncControlEndpoint

/-- As `start` leaves it. -/
def initial : UsbAsyncControlEndpoint := ⟨false,false,false,true,[],[],.waiting,[],[],[]⟩

def isIdle (e : UsbAsyncControlEndpoint) : Bool :=
  e.activeTransferList.isEmpty && e.completedTransferList.isEmpty

def setCall (e : UsbAsyncControlEndpoint) (i : ℕ) (c : ControlCall) : UsbAsyncControlEndpoint :=
  { e with calls := e.calls.set i c }

def emit (e : UsbAsyncControlEndpoint) (ev : ControlEvent) : UsbAsyncControlEndpoint :=
  { e with log := e.log ++ [ev] }

def insertActive (e : UsbAsyncControlEndpoint) (t : ControlTransfer) : UsbAsyncControlEndpoint :=
  { e with
    idleEvent := if e.isIdle then false else e.idleEvent
    activeTransferList := e.activeTransferList ++ [t] }

def removeActive (e : UsbAsyncControlEndpoint) (i : ℕ) : UsbAsyncControlEndpoint :=
  { e with activeTransferList := e.activeTransferList.filter fun t => decide (t.call ≠ i) }

/-- The next step of call `i`. -/
def advance (e : UsbAsyncControlEndpoint) (i : ℕ) (ok : Bool) :
    ControlCallPc → Option (UsbAsyncControlEndpoint × ControlCallPc)
  | .entered (.transfer isIn hasValidator hasClosure) =>
      some (e,if ok then .filled ⟨i,hasClosure,isIn && hasValidator⟩ else .failed)
  | .filled t => some (e.insertActive t,.inserted t)
  | .inserted t =>
      if ok then some ({ e with owned := e.owned ++ [i] }.emit (.submitted t),.transferred true)
      else some (e.removeActive i,.failed)
  | .failed => some (e.emit (.invoked i .lastError),.failing)
  | .failing => some (e.emit (.finished i),.transferred false)
  | .entered .cancelTransfers => some ({ e with cancelFlag := true, event := true },.awaitingIdle)
  | .awaitingIdle => if e.idleEvent then some (e,.returned) else none
  | .entered .stop => some ({ e with stopFlag := true, event := true },.awaitingThread)
  | .awaitingThread => if e.thread = .ended then some (e,.returned) else none
  | .transferred _ | .returned => none

/-- `m_lock` is taken, and the array of active transfers filled. -/
def cancelAllActiveTransfers (e : UsbAsyncControlEndpoint) (last : Bool) :
    UsbAsyncControlEndpoint :=
  { e with thread := .cancelling (e.activeTransferList.map ControlTransfer.call) last }

/-- `finalizeTransfers_l` up to where it releases the lock. -/
def takeOverCompleted (e : UsbAsyncControlEndpoint) (last : Bool) : UsbAsyncControlEndpoint :=
  { e with completedTransferList := [], thread := .finalizing e.completedTransferList last }

def callReturned (c : ControlCall) : Bool :=
  match c.pc with
  | .transferred _ | .returned => true
  | _ => false

/-- A completion function on the completion thread has no call under way. -/
def nestedReturned (e : UsbAsyncControlEndpoint) : Bool :=
  e.calls.all fun c => !c.nested || callReturned c

def threadStep (e : UsbAsyncControlEndpoint) : Option UsbAsyncControlEndpoint :=
  match e.thread with
  | .waiting => if e.event then some { e with event := false, thread := .woken } else none
  | .woken =>
      if e.stopFlag then some (e.cancelAllActiveTransfers true)
      else if e.cancelFlag then some ({ e with cancelFlag := false }.cancelAllActiveTransfers false)
      else some (e.takeOverCompleted false)
  | .cancelling (_ :: rest) last => some { e with thread := .cancelling rest last }
  | .cancelling [] last => some { e with thread := .draining last }
  | .draining last =>
      if e.activeTransferList = [] then some (e.takeOverCompleted last)
      else some { e with thread := .drainWaiting last }
  | .drainWaiting last =>
      if e.event then some { e with event := false, thread := .draining last } else none
  | .finalizing ((t,status) :: rest) last =>
      some ({ e with thread := .calling t rest last }.emit (.invoked t.call status.result))
  | .calling t rest last =>
      if e.nestedReturned then
        some ({ e with thread := .finalizing rest last }.emit (.finished t.call))
      else none
  | .finalizing [] last =>
      some { e with
        idleEvent := if e.isIdle then true else e.idleEvent
        thread := if last then .ended else .waiting }
  | .ended => none

/-- `onTransferCompleted`. -/
def onTransferCompleted (e : UsbAsyncControlEndpoint) (i : ℕ) (status : UsbTransferStatus) :
    UsbAsyncControlEndpoint :=
  { e.removeActive i with
    completedTransferList := e.completedTransferList ++
      (e.activeTransferList.filter fun t => decide (t.call = i)).map fun t => (t,status)
    owned := e.owned.erase i
    event := true }

/-- All lists that are known to the collector, in one go under the lock. -/
def markOpaqueGcRoots (e : UsbAsyncControlEndpoint) : Option (List ControlRoot) :=
  ((e.activeTransferList ++ e.completedTransferList.map Prod.fst).mapM
    ControlTransfer.markGcRoots).map List.flatten

def step (e : UsbAsyncControlEndpoint) : ControlAction → Option UsbAsyncControlEndpoint
  | .call request nested =>
      match nested,e.thread with
      | true,.calling _ _ _ =>
          if e.nestedReturned then some { e with calls := e.calls ++ [⟨.entered request,true⟩] }
          else none
      | true,_ => none
      | false,_ => some { e with calls := e.calls ++ [⟨.entered request,false⟩] }
  | .advance i ok =>
      match e.calls[i]? with
      | none => none
      | some c => (e.advance i ok c.pc).map fun r => r.1.setCall i ⟨r.2,c.nested⟩
  | .thread => e.threadStep
  | .complete i status => if i ∈ e.owned then some (e.onTransferCompleted i status) else none
  | .collect => some (e.emit (.collected e.markOpaqueGcRoots))

end UsbAsyncControlEndpoint
end Jancy.Io
