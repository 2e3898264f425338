import Jancy.Io.AsyncIoDevice

/-! `UsbEndpoint`: transfers, the I/O thread of an endpoint and the calls, cut into steps where the
lock is released. -/
namespace Jancy.Io

namespace UsbEndpointEvent

def writeCompleted : Events := 0x0010

end UsbEndpointEvent

inductive EndpointStatus where
  | completed
  | timedOut
  | cancelled
  | failed
  deriving DecidableEq, Repr

/-- What libusb leaves in a transfer: its status and the bytes that went over the wire, as many as
`actual_length` says. -/
structure EndpointResult (α : Type) where
  status : EndpointStatus
  bytes : List α
  deriving DecidableEq, Repr

/-- A `Transfer` in use; `number` tells how many were put on the active list before it. -/
structure EndpointTransfer (α : Type) where
  id : ℕ
  number : ℕ
  /-- what it was submitted with; for a read, only the size counts -/
  block : List α
  size : ℕ
  isCompletedOutOfOrder : Bool
  result : Option (EndpointResult α)
  deriving DecidableEq, Repr

/-- Where the I/O thread stands; `left` counts the reads to be submitted after this one. -/
inductive EndpointPc where
  | sleeping
  | awake
  | submitting (id left : ℕ)
  /-- `submitTransfer` has returned -/
  | submitted (id left : ℕ) (result : Bool)
  /-- in `setIoErrorEvent_l`, with the lock released -/
  | failing
  | cancelling
  /-- in `cancelAllActiveTransfers`, in front of its lock -/
  | draining
  | drainSleeping
  | ended
  deriving DecidableEq, Repr

inductive EndpointCallPc (α : Type) where
  | read (size : ℕ)
  | write (p : List α)
  /-- in `write`, between its two locks -/
  | written (result : DeviceReturn α)
  | close
  | closing
  | unsuspend
  | returned (result : DeviceReturn α)
  deriving DecidableEq, Repr

structure UsbEndpointState (α : Type) where
  platform : Platform
  isIn : Bool
  readParallelism : ℕ
  readBlockSize : ℕ
  device : AsyncIoDevice α
  closing : Bool
  suspended : Bool
  /-- the self pipe, or the event, that the thread sleeps on -/
  woken : Bool
  transferPool : List ℕ
  /-- transfers that were ever allocated -/
  allocated : ℕ
  inserted : ℕ
  activeTransferList : List (EndpointTransfer α)
  completedTransferList : List (EndpointTransfer α)
  /-- what libusb has been given and not called back for -/
  owned : List ℕ
  writeBlock : List α
  thread : EndpointPc
  calls : List (EndpointCallPc α)
  /-- bytes that were accepted, with the call of `write` that they came from -/
  accepted : List (α × ℕ)
  /-- writes of no bytes that were put into the list of sizes, and transfers of no bytes -/
  emptyBlocks : ℕ
  emptyTransfers : ℕ
  /-- bytes that libusb has sent -/
  transmitted : List α
  /-- reads that libusb has completed, and reads that were added to the read buffer -/
  delivered : List (ℕ × List α)
  added : List (ℕ × List α)
  /-- bytes that `read` has returned -/
  taken : List α

inductive EndpointAction (α : Type) where
  | call (pc : EndpointCallPc α)
  | advance (i : ℕ)
  /-- the next step of the thread; `ok` is the outcome of an allocation and of `submitTransfer` -/
  | thread (ok : Bool)
  /-- libusb calls `onTransferCompleted` -/
  | complete (id : ℕ) (result : EndpointResult α)

namespace UsbEndpointState

variable {α : Type}

/-- As `open` leaves it. -/
def opened (platform : Platform) (isIn : Bool) (readParallelism readBlockSize : ℕ)
    (device : AsyncIoDevice α) (isSuspended : Bool) : UsbEndpointState α where
  platform
  isIn
  readParallelism
  readBlockSize
  device
  closing := false
  suspended := isSuspended
  woken := true
  transferPool := []
  allocated := 0
  inserted := 0
  activeTransferList := []
  completedTransferList := []
  owned := []
  writeBlock := []
  thread := .sleeping
  calls := []
  accepted := []
  emptyBlocks := 0
  emptyTransfers := 0
  transmitted := []
  delivered := []
  added := []
  taken := []

def initial (platform : Platform) (isIn : Bool) (readParallelism readBlockSize : ℕ)
    (readBufferSize writeBufferSize : ℕ+) (keepReadBlockSize keepWriteBlockSize isSuspended : Bool) :
    UsbEndpointState α :=
  opened platform isIn readParallelism readBlockSize
    ((AsyncIoDevice.ofSizes readBufferSize writeBufferSize).open'
      ⟨keepReadBlockSize,keepWriteBlockSize,false,nofun⟩) isSuspended

def putTransfer (e : UsbEndpointState α) (id : ℕ) : UsbEndpointState α :=
  { e with transferPool := id :: e.transferPool }

/-- `m_transferPool.get`: one that is free, or a new one. -/
def getTransfer (e : UsbEndpointState α) : ℕ × UsbEndpointState α :=
  match e.transferPool with
  | [] => (e.allocated,{ e with allocated := e.allocated + 1 })
  | id :: rest => (id,{ e with transferPool := rest })

/-- A transfer goes to the end of the active list, prior to its submission. -/
def insertTransfer (e : UsbEndpointState α) (block : List α) (size left : ℕ) : UsbEndpointState α :=
  let (id,e) := e.getTransfer
  { e with
    inserted := e.inserted + 1
    activeTransferList := e.activeTransferList ++ [⟨id,e.inserted,block,size,false,none⟩]
    thread := .submitting id left }

def removeActive (e : UsbEndpointState α) (id : ℕ) : UsbEndpointState α :=
  { e with
    activeTransferList := e.activeTransferList.filter fun t => decide (t.id ≠ id) }

def setActiveEvents (e : UsbEndpointState α) (events : Events) : UsbEndpointState α :=
  { e with device := { e.device with activeEvents := events } }

/-- The transfers that have completed are added to the read buffer up to the first error; `true` if
there is one. -/
def addCompleted (e : UsbEndpointState α) :
    List (EndpointTransfer α) → Bool × UsbEndpointState α
  | [] => (false,{ e with completedTransferList := [] })
  | t :: rest =>
      match t.result with
      | some ⟨.failed,_⟩ => (true,{ e.putTransfer t.id with completedTransferList := rest })
      | some ⟨_,bytes⟩ =>
          addCompleted { e.putTransfer t.id with
            device := e.device.addToReadBuffer bytes []
            added := e.added ++ [(t.number,bytes)] } rest
      | none => addCompleted (e.putTransfer t.id) rest

/-- A read is prepared, unless there is no memory for its buffer. -/
def startRead (e : UsbEndpointState α) (left : ℕ) (ok : Bool) : UsbEndpointState α :=
  if ok then e.insertTransfer [] e.readBlockSize left
  else
    let (id,e) := e.getTransfer
    { e.putTransfer id with thread := .failing }

def finishRead (e : UsbEndpointState α) : UsbEndpointState α :=
  { e with
    device := { e.device with activeEvents := 0 }.updateReadWriteBufferEvents
    thread := .sleeping }

def readPass (e : UsbEndpointState α) (ok : Bool) : UsbEndpointState α :=
  if e.suspended then { e with thread := .sleeping }
  else
    match e.addCompleted e.completedTransferList with
    | (true,e) => { e with thread := .failing }
    | (false,e) =>
        if e.device.readBuffer.isFull = false ∧ e.activeTransferList.length < e.readParallelism then
          e.startRead (e.readParallelism - e.activeTransferList.length - 1) ok
        else e.finishRead

/-- The transfer that has completed; `true` if it has failed. -/
def takeCompleted (e : UsbEndpointState α) : Bool × UsbEndpointState α :=
  match e.completedTransferList with
  | [] => (false,e)
  | t :: rest =>
      let e := { e.putTransfer t.id with completedTransferList := rest }
      match t.result with
      | some ⟨.completed,bytes⟩ =>
          (false,{ e with
            writeBlock := if bytes.length < e.writeBlock.length then e.writeBlock.drop bytes.length
              else [] })
      | _ => (true,e)

def finishWrite (e : UsbEndpointState α) : UsbEndpointState α :=
  let device := { e.device with activeEvents := 0 }.updateReadWriteBufferEvents
  let activeEvents := if e.device.writeBuffer.isEmpty && e.activeTransferList.isEmpty then
      device.activeEvents ||| UsbEndpointEvent.writeCompleted
    else device.activeEvents &&& ~~~ UsbEndpointEvent.writeCompleted
  { e with device := { device with activeEvents }, thread := .sleeping }

/-- `getNextWriteBlock(&m_writeBlock)`. -/
def takeBlock (e : UsbEndpointState α) : UsbEndpointState α :=
  let (block,device) := e.device.getNextWriteBlock ⟨e.writeBlock,[]⟩
  { e with device, writeBlock := block.data }

def writePass (e : UsbEndpointState α) : UsbEndpointState α :=
  match e.takeCompleted with
  | (true,e) => { e with thread := .failing }
  | (false,e) =>
      let e := e.takeBlock
      if e.activeTransferList = [] ∧ e.writeBlock ≠ [] then
        e.insertTransfer e.writeBlock e.writeBlock.length 0
      else e.finishWrite

/-- `submitTransfer`. -/
def submitTransfer (e : UsbEndpointState α) (id left : ℕ) (ok : Bool) : UsbEndpointState α :=
  { e with
    owned := if ok then id :: e.owned else e.owned
    emptyTransfers := if ok = true ∧ e.isIn = false ∧ e.writeBlock = [] then e.emptyTransfers + 1
      else e.emptyTransfers
    thread := .submitted id left ok }

/-- All transfers are free again; `WriteCompleted` tells that there is nothing to wait for. -/
def endThread (e : UsbEndpointState α) : UsbEndpointState α :=
  { e with
    transferPool := e.completedTransferList.map EndpointTransfer.id ++ e.transferPool
    completedTransferList := []
    device := if e.isIn then e.device
      else { e.device with
        activeEvents := e.device.activeEvents ||| UsbEndpointEvent.writeCompleted }
    thread := .ended }

def threadStep (e : UsbEndpointState α) (ok : Bool) : Option (UsbEndpointState α) :=
  match e.thread with
  | .sleeping => if e.woken then some { e with woken := false, thread := .awake } else none
  | .awake =>
      if e.closing then some { e with thread := .cancelling }
      else some (if e.isIn then e.readPass ok else e.writePass)
  | .submitting id left => some (e.submitTransfer id left ok)
  | .submitted id _ false => some { (e.removeActive id).putTransfer id with thread := .failing }
  | .submitted _ (left + 1) true => some (e.startRead left ok)
  | .submitted _ 0 true => some (if e.isIn then e.finishRead else e.finishWrite)
  | .failing => some { e.setActiveEvents
      (e.device.activeEvents ||| AsyncIoBaseEvent.ioError) with thread := .cancelling }
  | .cancelling => some { e with thread := .draining }
  | .draining =>
      if e.activeTransferList = [] then some e.endThread else some { e with thread := .drainSleeping }
  | .drainSleeping => if e.woken then some { e with woken := false, thread := .draining } else none
  | .ended => none

/-- The head and what completed before it behind it. -/
def completeHead (e : UsbEndpointState α) : UsbEndpointState α :=
  match e.activeTransferList with
  | [] => e
  | t :: rest =>
      { e with
        completedTransferList := e.completedTransferList ++
          t :: rest.takeWhile EndpointTransfer.isCompletedOutOfOrder
        activeTransferList := rest.dropWhile EndpointTransfer.isCompletedOutOfOrder
        woken := true }

def setResult (e : UsbEndpointState α) (id : ℕ) (result : EndpointResult α) (outOfOrder : Bool) :
    UsbEndpointState α :=
  { e with
    activeTransferList := e.activeTransferList.map fun t =>
      if t.id = id then
        { t with result := some result, isCompletedOutOfOrder := outOfOrder }
      else t }

/-- The transfer is no longer libusb's. -/
def takeBack (e : UsbEndpointState α) (t : EndpointTransfer α) (result : EndpointResult α) :
    UsbEndpointState α :=
  { e with
    owned := e.owned.erase t.id
    transmitted := if e.isIn then e.transmitted else e.transmitted ++ result.bytes
    delivered := if e.isIn then e.delivered ++ [(t.number,result.bytes)] else e.delivered }

def onTransferCompleted (e : UsbEndpointState α) (t : EndpointTransfer α)
    (result : EndpointResult α) : UsbEndpointState α :=
  if e.activeTransferList.head?.map EndpointTransfer.id = some t.id then
    ((e.takeBack t result).setResult t.id result t.isCompletedOutOfOrder).completeHead
  else (e.takeBack t result).setResult t.id result true

/-- What libusb may report: a write sends the front of the block, as it stands in memory. -/
def Reports (e : UsbEndpointState α) (t : EndpointTransfer α) (result : EndpointResult α) : Prop :=
  t.id ∈ e.owned ∧ result.bytes.length ≤ t.size ∧
    (e.isIn = false → result.bytes <+: e.writeBlock)

instance [DecidableEq α] (e : UsbEndpointState α) (t : EndpointTransfer α)
    (result : EndpointResult α) : Decidable (e.Reports t result) :=
  inferInstanceAs (Decidable (_ ∧ _ ∧ _))

/-- -1, or nothing. -/
def noReturn : DeviceReturn α := ⟨none,[],[]⟩

/-- `write` up to its second lock. -/
def bufferedWrite (e : UsbEndpointState α) (i : ℕ) (p : List α) : UsbEndpointState α :=
  let (r,device) := e.device.bufferedWrite p []
  let n := r.result.getD 0
  { e with
    device
    woken := if n = 0 then e.woken else true
    accepted := e.accepted ++ (p.take n).map fun x => (x,i)
    emptyBlocks := if device.writeMetaList.length ≠ e.device.writeMetaList.length ∧ n = 0 then
        e.emptyBlocks + 1
      else e.emptyBlocks }

/-- The rest of `write`. -/
def clearWriteCompleted (e : UsbEndpointState α) : UsbEndpointState α :=
  if e.device.activeEvents &&& AsyncIoBaseEvent.ioError = 0 ∧
      (e.device.writeBuffer.isEmpty = false ∨ e.activeTransferList ≠ []) then
    e.setActiveEvents (e.device.activeEvents &&& ~~~ UsbEndpointEvent.writeCompleted)
  else e

def advance (e : UsbEndpointState α) (i : ℕ) :
    EndpointCallPc α → Option (UsbEndpointState α × EndpointCallPc α)
  | .read size =>
      if e.isIn = false then some (e,.returned noReturn)
      else
        let (r,device) := e.device.bufferedRead size
        some ({ e with device, woken := e.woken || e.device.isOpen, taken := e.taken ++ r.data },
          .returned r)
  | .write p =>
      if e.isIn then some (e,.returned noReturn)
      else some (e.bufferedWrite i p,.written (e.device.bufferedWrite p []).1)
  | .written r => some (e.clearWriteCompleted,.returned r)
  | .close =>
      if e.device.isOpen = false then some (e,.returned noReturn)
      else some ({ e with closing := true, woken := true },.closing)
  | .closing =>
      if e.thread = .ended then
        some ({ e with transferPool := [], device := e.device.close e.platform },.returned noReturn)
      else none
  | .unsuspend => some ({ e with suspended := false, woken := true },.returned noReturn)
  | .returned _ => none

/-- Calls start at their beginning. -/
def EndpointCallPc.isEntry : EndpointCallPc α → Bool
  | .read _ | .write _ | .close | .unsuspend => true
  | _ => false

def step [DecidableEq α] (e : UsbEndpointState α) : EndpointAction α → Option (UsbEndpointState α)
  | .call pc => if EndpointCallPc.isEntry pc then some { e with calls := e.calls ++ [pc] } else none
  | .advance i =>
      match e.calls[i]? with
      | none => none
      | some pc => (e.advance i pc).map fun r => { r.1 with calls := r.1.calls.set i r.2 }
  | .thread ok => e.threadStep ok
  | .complete id result =>
      match e.activeTransferList.find? fun t => decide (t.id = id) with
      | none => none
      | some t => if e.Reports t result then some (e.onTransferCompleted t result) else none

end UsbEndpointState
end Jancy.Io
