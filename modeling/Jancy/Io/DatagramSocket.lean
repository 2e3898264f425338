import Jancy.Io.AsyncIoDevice

/-! `Socket` for datagrams: `readDatagram`, `writeDatagram` and the two `sendRecvLoop`, cut into
steps where the lock is released and where the operating system is called. -/
namespace Jancy.Io

/-- An address as it is put in front of a datagram; it has a size. -/
structure SocketAddress (α : Type) where
  family : ℕ
  sockAddr : List α
  sized : sockAddr ≠ []

/-- What the operating system says to a call of the thread. -/
inductive SocketResult (α : Type) where
  | done
  | received (datagram : Block α)
  | wouldBlock
  | error

inductive DatagramPc where
  /-- in `ioThreadFunc` -/
  | starting
  /-- in `select`, or in `WaitForMultipleObjects` -/
  | waiting
  /-- in front of the lock of its pass -/
  | locking
  /-- POSIX: in the loops of the pass, with the lock -/
  | receiving
  | sending
  /-- Windows: in front of the receives that have completed, and of the send that has -/
  | collecting
  | checking
  /-- Windows: behind the lock, in front of `wsaSendTo` and of `wsaRecvFrom`, with the snapshot of
  whether the read buffer is full -/
  | submitting (isReadBufferFull : Bool)
  | posting (isReadBufferFull : Bool)
  | ended
  deriving DecidableEq, Repr

/-- The thread has the lock between two of its steps. -/
def DatagramPc.isLocked : DatagramPc → Bool
  | .receiving | .sending => true
  | _ => false

/-- What a call gives back: `none` for -1, else its result, with the bytes, and with what the
address was set from if it was. -/
structure DatagramReturn (α : Type) where
  result : Option ℕ
  data : List α
  address : Option (List α)
  deriving DecidableEq, Repr

structure DatagramSocket (α : Type) where
  platform : Platform
  family : ℕ
  readParallelism : ℕ
  readBlockSize : ℕ
  device : AsyncIoDevice α
  closing : Bool
  suspended : Bool
  /-- the self pipe, or the event, that wakes the thread -/
  woken : Bool
  /-- `writeBlock` and `writeParams`, or `m_sendBlock` and `m_sendToParams` -/
  block : Block α
  canReadSocket : Bool
  canWriteSocket : Bool
  isSendingSocket : Bool
  /-- the completion event of the overlapped send -/
  sendCompleted : Bool
  /-- overlapped receives, with what has arrived for them -/
  activeRecvs : List (Option (Block α))
  thread : DatagramPc
  /-- datagrams that `writeDatagram` has accepted, and those the operating system has taken -/
  accepted : List (Block α)
  sent : List (Block α)
  /-- datagrams that were received and not read -/
  unread : List (Block α)
  /-- what `readDatagram` has returned, and what it should have -/
  returned : List (DatagramReturn α)
  owed : List (DatagramReturn α)

inductive DatagramAction (α : Type) where
  | readDatagram (size : ℕ) (hasAddress : Bool)
  | writeDatagram (p : List α) (address : SocketAddress α)
  | close
  | closed
  | unsuspend
  /-- `select` returns -/
  | select (readable writable : Bool)
  /-- the next step of the thread, with what the operating system says to it -/
  | thread (result : SocketResult α)
  /-- Windows: an overlapped operation completes -/
  | recvCompleted (i : ℕ) (datagram : Block α)
  | sendCompleted

namespace DatagramSocket

variable {α : Type}

/-- As `openImpl` leaves it. -/
def initial (platform : Platform) (family readParallelism readBlockSize : ℕ)
    (readBufferSize writeBufferSize : ℕ+) (isSuspended : Bool) : DatagramSocket α where
  platform
  family
  readParallelism
  readBlockSize
  device := (AsyncIoDevice.ofSizes readBufferSize writeBufferSize).open' .ofDatagram
  closing := false
  suspended := isSuspended
  woken := true
  block := ⟨[],[]⟩
  canReadSocket := false
  canWriteSocket := false
  isSendingSocket := false
  sendCompleted := false
  activeRecvs := []
  thread := .starting
  accepted := []
  sent := []
  unread := []
  returned := []
  owed := []

def return' (s : DatagramSocket α) (returned owed : DatagramReturn α) : DatagramSocket α :=
  { s with returned := s.returned ++ [returned], owed := s.owed ++ [owed] }

/-- The address is set from the parameters that `bufferedRead` leaves, whatever they are. -/
def readDatagram (s : DatagramSocket α) (size : ℕ) (hasAddress : Bool) :
    DatagramReturn α × DatagramSocket α :=
  if s.device.mode.datagram = false then (⟨none,[],none⟩,s)
  else
    let (r,device) := s.device.bufferedRead size
    (⟨r.result,r.data,if hasAddress then some r.params else none⟩,
      { s with
        device
        woken := if s.device.isOpen then true else s.woken
        unread := if s.device.isOpen then s.unread.tail else s.unread })

/-- The first datagram that was not read, cut to the size of the call. -/
def owedDatagram (s : DatagramSocket α) (size : ℕ) (hasAddress : Bool) : DatagramReturn α :=
  if s.device.isOpen = false then ⟨none,[],none⟩
  else
    match s.unread with
    | [] => ⟨some 0,[],none⟩
    | b :: _ => ⟨some (b.data.take size).length,b.data.take size,
        if hasAddress then some b.params else none⟩

def writeDatagram (s : DatagramSocket α) (p : List α) (address : SocketAddress α) :
    DatagramSocket α :=
  if s.device.mode.datagram = false ∨ address.family ≠ s.family then s
  else
    let (r,device) := s.device.bufferedWrite p address.sockAddr
    { s with
      device
      woken := if r.result.getD 0 = 0 then s.woken else true
      accepted := if s.device.isOpen = false ∨ s.device.writeBuffer.isFull = true then s.accepted
        else s.accepted ++ [⟨p,address.sockAddr⟩] }

def setActiveEvents (s : DatagramSocket α) (events : Events) : DatagramSocket α :=
  { s with device := { s.device with activeEvents := events } }

/-- `setIoErrorEvent`, and the loop is left. -/
def fail (s : DatagramSocket α) : DatagramSocket α :=
  { s.setActiveEvents (s.device.activeEvents ||| AsyncIoBaseEvent.ioError) with thread := .ended }

def addToReadBuffer (s : DatagramSocket α) (datagram : Block α) : DatagramSocket α :=
  { s with
    device := s.device.addToReadBuffer datagram.data datagram.params
    unread := s.unread ++ [datagram] }

/-- `getNextWriteBlock` into the block and the address of the thread. -/
def takeBlock (s : DatagramSocket α) : DatagramSocket α :=
  let (block,device) := s.device.getNextWriteBlock s.block
  { s with device, block }

/-- The operating system has taken the block. -/
def handOver (s : DatagramSocket α) : DatagramSocket α := { s with sent := s.sent ++ [s.block] }

def clearBlock (s : DatagramSocket α) : DatagramSocket α :=
  { s with block := ⟨[],s.block.params⟩ }

/-- Up to the lock of `ioThreadFunc`; the loop for Windows wakes itself. -/
def start (s : DatagramSocket α) : Option (DatagramSocket α) :=
  if s.woken = false then none
  else if s.closing then some { s with thread := .ended }
  else some { s with woken := decide (s.platform = .win), thread := .waiting }

/-- `select` returns for what it was given. -/
def select (s : DatagramSocket α) (readable writable : Bool) : Option (DatagramSocket α) :=
  if s.platform = .win ∨ s.thread ≠ .waiting ∨ (readable = true ∧ s.canReadSocket = true) ∨
      (writable = true ∧ s.canWriteSocket = true) ∨
      (s.woken = false ∧ readable = false ∧ writable = false) then none
  else some { s with
    woken := false
    canReadSocket := s.canReadSocket || readable
    canWriteSocket := s.canWriteSocket || writable
    thread := .locking }

/-- Only the first event that is signaled is reset. -/
def waitForMultipleObjects (s : DatagramSocket α) : Option (DatagramSocket α) :=
  if s.platform = .posix then none
  else if s.woken then some { s with woken := false, thread := .collecting }
  else if s.sendCompleted = true ∨ (s.activeRecvs.head?.join).isSome = true then
    some { s with thread := .collecting }
  else none

/-- The lock is taken; for POSIX it is kept for the loops. -/
def lock (s : DatagramSocket α) : DatagramSocket α :=
  if s.closing then { s with thread := .ended }
  else if s.suspended then { s with thread := .waiting }
  else
    match s.platform with
    | .posix => { s.setActiveEvents 0 with thread := .receiving }
    | .win =>
        let s := (s.setActiveEvents 0).takeBlock
        { s with
          device := s.device.updateReadWriteBufferEvents
          thread := .submitting s.device.readBuffer.isFull }

def finish (s : DatagramSocket α) : DatagramSocket α :=
  { s with device := s.device.updateReadWriteBufferEvents, thread := .waiting }

def receive (s : DatagramSocket α) (result : SocketResult α) : Option (DatagramSocket α) :=
  if s.canReadSocket = true ∧ s.device.readBuffer.isFull = false then
    match result with
    | .received datagram =>
        if datagram.data.length ≤ s.readBlockSize then some (s.addToReadBuffer datagram) else none
    | .wouldBlock => some { s with canReadSocket := false }
    | .error => some s.fail
    | .done => none
  else some { s with thread := .sending }

/-- `sendto`; the block stays, and the address, when it would have to wait. -/
def sendTo (s : DatagramSocket α) (result : SocketResult α) : Option (DatagramSocket α) :=
  if s.canWriteSocket then
    let s := s.takeBlock
    if s.block.params = [] then some s.finish
    else
      match result with
      | .done => some s.handOver.clearBlock
      | .wouldBlock => some { s with canWriteSocket := false }
      | .error => some s.fail
      | .received _ => none
  else some s.finish

/-- The receives at the head that have completed, one by one. -/
def collect (s : DatagramSocket α) (result : SocketResult α) : Option (DatagramSocket α) :=
  match s.activeRecvs with
  | some datagram :: rest =>
      match result with
      | .done => some { s.addToReadBuffer datagram with activeRecvs := rest }
      | .error => some s.fail
      | _ => none
  | _ => some { s with thread := .checking }

def check (s : DatagramSocket α) (result : SocketResult α) : Option (DatagramSocket α) :=
  if s.isSendingSocket = true ∧ s.sendCompleted = true then
    match result with
    | .done => some { s.clearBlock with
        sendCompleted := false, isSendingSocket := false, thread := .locking }
    | .error => some s.fail
    | _ => none
  else some { s with thread := .locking }

/-- `wsaSendTo`. -/
def submit (s : DatagramSocket α) (isReadBufferFull : Bool) (result : SocketResult α) :
    Option (DatagramSocket α) :=
  if s.isSendingSocket = false ∧ s.block.params ≠ [] then
    match result with
    | .done => some { s.handOver with
        isSendingSocket := true, thread := .posting isReadBufferFull }
    | .error => some s.fail
    | _ => none
  else some { s with thread := .posting isReadBufferFull }

/-- `wsaRecvFrom`, as many times as there is room for. -/
def post (s : DatagramSocket α) (isReadBufferFull : Bool) (result : SocketResult α) :
    Option (DatagramSocket α) :=
  if isReadBufferFull = false ∧ s.activeRecvs.length < s.readParallelism then
    match result with
    | .done => some { s with
        activeRecvs := s.activeRecvs ++
          List.replicate (s.readParallelism - s.activeRecvs.length) none
        thread := .waiting }
    | .error => some s.fail
    | _ => none
  else some { s with thread := .waiting }

def threadStep (s : DatagramSocket α) (result : SocketResult α) : Option (DatagramSocket α) :=
  match s.thread with
  | .starting => s.start
  | .waiting => s.waitForMultipleObjects
  | .locking => some s.lock
  | .receiving => s.receive result
  | .sending => s.sendTo result
  | .collecting => s.collect result
  | .checking => s.check result
  | .submitting isReadBufferFull => s.submit isReadBufferFull result
  | .posting isReadBufferFull => s.post isReadBufferFull result
  | .ended => none

def step (s : DatagramSocket α) : DatagramAction α → Option (DatagramSocket α)
  | .readDatagram size hasAddress =>
      if s.thread.isLocked then none
      else
        let (r,s') := s.readDatagram size hasAddress
        some (s'.return' r (s.owedDatagram size hasAddress))
  | .writeDatagram p address =>
      if s.thread.isLocked then none else some (s.writeDatagram p address)
  | .close =>
      if s.thread.isLocked then none
      else if s.device.isOpen then some { s with closing := true, woken := true }
      else some s
  | .closed =>
      if s.closing = true ∧ s.thread = .ended then
        some { s with device := s.device.close s.platform }
      else none
  | .unsuspend =>
      if s.thread.isLocked then none else some { s with suspended := false, woken := true }
  | .select readable writable => s.select readable writable
  | .thread result => s.threadStep result
  | .recvCompleted i datagram =>
      if s.platform = .win ∧ s.activeRecvs[i]?.map Option.isNone = some true ∧
          datagram.data.length ≤ s.readBlockSize then
        some { s with activeRecvs := s.activeRecvs.set i (some datagram) }
      else none
  | .sendCompleted =>
      if s.platform = .win ∧ s.isSendingSocket = true then some { s with sendCompleted := true }
      else none

end DatagramSocket
end Jancy.Io
