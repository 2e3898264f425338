import Jancy.Io.AsyncIoDevice

/-! `Socket` and `SslSocket` for POSIX: the loops of the I/O thread, cut into steps where the lock
is released and where the operating system or `m_ssl` is called, beside the calls. -/
namespace Jancy.Io

namespace SocketEvent

def incomingConnection : Events := 0x0010
def tcpConnected : Events := 0x0020
def tcpDisconnected : Events := 0x0040
def tcpReset : Events := 0x0080
def tcpAborted : Events := 0x0100

end SocketEvent

namespace SslSocketEvent

def sslHandshakeCompleted : Events := 0x0200

end SslSocketEvent

/-- `Socket` for TCP, `Socket` for anything else, or `SslSocket`. -/
inductive SocketKind where
  | tcp
  | datagram
  | ssl
  deriving DecidableEq, Repr

/-- An `errno`. -/
inductive SocketError where
  | connReset
  | connAborted
  | timedOut
  | other
  deriving DecidableEq, Repr

def getSocketEventsFromTcpSendRecvError : SocketError → Events
  | .connReset => SocketEvent.tcpDisconnected ||| SocketEvent.tcpReset
  | .connAborted | .timedOut => SocketEvent.tcpDisconnected ||| SocketEvent.tcpAborted
  | .other => AsyncIoBaseEvent.ioError

/-- What the operating system, or `m_ssl`, says to a call of the thread. -/
inductive LoopResult (α : Type) where
  /-- connected, or through with the handshake -/
  | completed
  | accepted
  | received (p params : List α)
  | sent (size : ℕ)
  /-- nothing was received -/
  | disconnected
  | wouldBlock
  | wantRead
  | wantWrite
  | failed (error : SocketError)
  deriving DecidableEq, Repr

/-- Where the thread goes on once events have been set. -/
inductive LoopNext where
  | handshake
  | enter
  | loop
  | exit
  deriving DecidableEq, Repr

inductive SocketPc (F : Type) where
  /-- in `ioThreadFunc` -/
  | starting
  /-- in `suspendLoop` -/
  | suspended
  /-- in `connectLoop` -/
  | connecting
  /-- in `sslHandshakeLoop` -/
  | handshaking
  /-- in `select` -/
  | waiting
  /-- in front of the lock of a pass -/
  | locking
  /-- in the loops of the pass, with the lock -/
  | receiving
  | sending
  /-- in `m_ssl`, without the lock -/
  | reading
  | writing
  /-- in the loop of a pass of `acceptLoop`, with the lock -/
  | accepting
  /-- in front of the lock of `setEvents` -/
  | setting (events : Events) (next : LoopNext)
  /-- the same past the beginning of a pass, which is given up -/
  | failing (events : Events)
  /-- in `processWaitLists_l`, in the handler of a pending wait -/
  | notifying (wait : AsyncWait F) (next : LoopNext)
  | ended
  deriving DecidableEq, Repr

/-- The thread has the lock between two of its steps. -/
def SocketPc.isLocked {F : Type} : SocketPc F → Bool
  | .receiving | .sending | .accepting => true
  | _ => false

def SocketPc.isWaiting {F : Type} : SocketPc F → Bool
  | .waiting => true
  | _ => false

def SocketPc.isEnded {F : Type} : SocketPc F → Bool
  | .ended => true
  | _ => false

/-- The next step of a call takes the lock. -/
def WaitPc.takesLock {F : Type} : WaitPc F → Bool
  | .entered (.wait _ _) | .serving | .blocked _ => false
  | _ => true

/-- A wait for these events is put on a list, if none of them is active. -/
def WaitPc.registers {F : Type} : WaitPc F → List Events
  | .opened eventMask _ | .entered (.blockingWait eventMask) => [eventMask]
  | _ => []

/-- The waits of `AsyncIoBase`; its other members are those of the device. -/
structure WaitLists (F : Type) (H : HandleTable ℕ) where
  syncWaitList : List SyncWait
  asyncWaitList : List (AsyncWait F)
  pendingAsyncWaitList : List (AsyncWait F)
  asyncWaitMap : H.Table
  nextAddress : ℕ

structure SocketLoop (F α : Type) (H : HandleTable ℕ) where
  kind : SocketKind
  /-- the flags of the thread -/
  connecting : Bool
  listening : Bool
  incomingConnection : Bool
  closing : Bool
  suspended : Bool
  /-- the self pipe has something to read -/
  woken : Bool
  readBlockSize : ℕ
  device : AsyncIoDevice α
  waits : WaitLists F H
  calls : List (WaitPc F)
  pendingIncomingConnections : ℕ
  thread : SocketPc F
  /-- the loop is `acceptLoop` -/
  isAccepting : Bool
  /-- the variables of the loop -/
  readBlockCount : ℕ
  block : Block α
  canReadSocket : Bool
  canWriteSocket : Bool
  prevActiveEvents : Events
  /-- masks of the waits that were registered since the pass began -/
  late : List Events
  /-- disconnect, reset and error events that were active since the socket was opened -/
  reached : Events

inductive SocketAction (F α : Type) where
  /-- `open`, or the way of `accept` to open the socket of a connection -/
  | open (kind : SocketKind) (mode : DeviceMode) (isIncoming isSuspended : Bool)
  | connect
  | listen
  | accept
  | read (size : ℕ)
  | write (p params : List α)
  | setReadBufferSize (size : ℕ+) (result : Bool)
  | setWriteBufferSize (size : ℕ+) (result : Bool)
  | setReadBlockSize (size : ℕ)
  | setOptions (mode : DeviceMode)
  | unsuspend
  | close
  /-- a call for waits; the one for `close` follows the end of the thread -/
  | call (request : WaitRequest F)
  | advance (i : ℕ)
  | timeout (i : ℕ)
  /-- `select` returns -/
  | select (readable writable : Bool)
  /-- the next step of the thread -/
  | thread (result : LoopResult α)

def SocketAction.opens {F α : Type} : SocketAction F α → Bool
  | .open _ _ _ _ => true
  | _ => false

namespace SocketLoop

variable {F α : Type} {H : HandleTable ℕ}

/-- As it is constructed. -/
def initial (kind : SocketKind) (readBlockSize : ℕ) (readBufferSize writeBufferSize : ℕ+) :
    SocketLoop F α H where
  kind
  connecting := false
  listening := false
  incomingConnection := false
  closing := false
  suspended := false
  woken := false
  readBlockSize
  device := .ofSizes readBufferSize writeBufferSize
  waits := ⟨[],[],[],H.new,0⟩
  calls := []
  pendingIncomingConnections := 0
  thread := .ended
  isAccepting := false
  readBlockCount := 0
  block := ⟨[],[]⟩
  canReadSocket := false
  canWriteSocket := false
  prevActiveEvents := 0
  late := []
  reached := 0

def base (s : SocketLoop F α H) : AsyncIoBase F H where
  activeEvents := s.device.activeEvents
  isOpen := s.device.isOpen
  syncWaitList := s.waits.syncWaitList
  asyncWaitList := s.waits.asyncWaitList
  pendingAsyncWaitList := s.waits.pendingAsyncWaitList
  asyncWaitMap := s.waits.asyncWaitMap
  nextAddress := s.waits.nextAddress

def setBase (s : SocketLoop F α H) (b : AsyncIoBase F H) : SocketLoop F α H :=
  { s with
    device := { s.device with activeEvents := b.activeEvents, isOpen := b.isOpen }
    waits := ⟨b.syncWaitList,b.asyncWaitList,b.pendingAsyncWaitList,b.asyncWaitMap,
      b.nextAddress⟩ }

def setActiveEvents (s : SocketLoop F α H) (events : Events) : SocketLoop F α H :=
  { s with device := { s.device with activeEvents := events } }

def open' (s : SocketLoop F α H) (kind : SocketKind) (mode : DeviceMode)
    (isIncoming isSuspended : Bool) : Option (SocketLoop F α H) :=
  if s.device.isOpen = true ∨ s.thread.isEnded = false ∨
      mode.datagram ≠ decide (kind = .datagram) then none
  else some { s with
    kind
    connecting := false
    listening := false
    incomingConnection := isIncoming
    closing := false
    suspended := isSuspended
    woken := isIncoming || decide (kind = .datagram)
    device := s.device.open' mode
    pendingIncomingConnections := 0
    thread := .starting
    isAccepting := false }

def connect (s : SocketLoop F α H) : SocketLoop F α H :=
  if s.device.isOpen then { s with connecting := true, woken := true } else s

def listen (s : SocketLoop F α H) : SocketLoop F α H :=
  if s.device.isOpen then { s with listening := true, woken := true } else s

/-- What `accept` does to the socket that listens. -/
def accept (s : SocketLoop F α H) : SocketLoop F α H :=
  match s.pendingIncomingConnections with
  | 0 => s
  | 1 => { s.setActiveEvents (s.device.activeEvents &&& ~~~ SocketEvent.incomingConnection) with
      pendingIncomingConnections := 0 }
  | n + 2 => { s with pendingIncomingConnections := n + 1 }

def read (s : SocketLoop F α H) (size : ℕ) : SocketLoop F α H :=
  { s with
    device := (s.device.bufferedRead size).2
    woken := if s.device.isOpen then true else s.woken }

def write (s : SocketLoop F α H) (p params : List α) : SocketLoop F α H :=
  let (r,device) := s.device.bufferedWrite p params
  { s with device, woken := if r.result.getD 0 = 0 then s.woken else true }

def setReadBufferSize (s : SocketLoop F α H) (size : ℕ+) (result : Bool) : SocketLoop F α H :=
  let events := AsyncIoDeviceEvent.readBufferFull ||| AsyncIoDeviceEvent.incomingData
  { s with
    device := s.device.setReadBufferSize size result
    woken := if s.device.readBuffer.bufferSize ≠ size ∧ events.Meets s.device.activeEvents then true
      else s.woken }

def setWriteBufferSize (s : SocketLoop F α H) (size : ℕ+) (result : Bool) : SocketLoop F α H :=
  { s with
    device := s.device.setWriteBufferSize size result
    woken := if s.device.writeBuffer.bufferSize ≠ size ∧
        ¬ AsyncIoDeviceEvent.writeBufferEmpty.Meets s.device.activeEvents then true
      else s.woken }

/-- `setSetting`. -/
def setReadBlockSize (s : SocketLoop F α H) (size : ℕ) : SocketLoop F α H :=
  { s with readBlockSize := size, woken := if s.device.isOpen then true else s.woken }

/-- The blocks of datagrams are kept whatever the options say. -/
def setOptions (s : SocketLoop F α H) (mode : DeviceMode) : Option (SocketLoop F α H) :=
  if s.device.isOpen = true ∧ mode.datagram ≠ s.device.mode.datagram then none
  else some { s with
    device := { s.device with mode }
    woken := if s.device.isOpen then true else s.woken }

def close (s : SocketLoop F α H) : SocketLoop F α H :=
  if s.device.isOpen then { s with closing := true, woken := true } else s

/-- The other requests are not for users. -/
def call (s : SocketLoop F α H) (request : WaitRequest F) : Option (SocketLoop F α H) :=
  let isAllowed : Bool := match request with
    | .wait _ _ | .cancelWait _ | .blockingWait _ => true
    | .close => s.closing && s.thread.isEnded
    | _ => false
  if isAllowed then some { s with calls := s.calls ++ [.entered request] } else none

def advance (s : SocketLoop F α H) (i : ℕ) : Option (SocketLoop F α H) :=
  match s.calls[i]? with
  | none => none
  | some pc =>
      if s.thread.isLocked && pc.takesLock then none
      else (s.base.advance i pc).map fun o =>
        { s.setBase o.base with calls := s.calls.set i o.pc, late := s.late ++ pc.registers }

def timeout (s : SocketLoop F α H) (i : ℕ) : Option (SocketLoop F α H) :=
  match s.calls[i]? with
  | some (.blocked eventMask) => some { s with calls := s.calls.set i (.awake eventMask) }
  | _ => none

/-- The loop of `SslSocket` starts with all that it could do, and is woken to do it. -/
def enterLoop (s : SocketLoop F α H) : SocketLoop F α H :=
  let isReady := decide (s.kind = .ssl) && !s.isAccepting
  { s with
    block := ⟨[],[]⟩
    canReadSocket := isReady
    canWriteSocket := isReady
    woken := s.woken || isReady
    thread := .waiting }

def proceed (s : SocketLoop F α H) : LoopNext → SocketLoop F α H
  | .handshake => { s with thread := .handshaking }
  | .enter => s.enterLoop
  | .loop => { s with thread := .waiting }
  | .exit => { s with thread := .ended }

/-- The thread has been through the lists of waits, or has a handler to call first. -/
def notify (s : SocketLoop F α H) (o : WaitOutcome F H) (next : LoopNext) : SocketLoop F α H :=
  match o.pc with
  | .notifying wait => { s.setBase o.base with thread := .notifying wait next }
  | _ => (s.setBase o.base).proceed next

/-- `setIoErrorEvent` outside of a pass. -/
def fail (s : SocketLoop F α H) : SocketLoop F α H :=
  { s with thread := .setting AsyncIoBaseEvent.ioError .exit }

def start (s : SocketLoop F α H) : Option (SocketLoop F α H) :=
  if s.woken = false then none
  else
    let s := { s with woken := false }
    if s.closing then some { s with thread := .ended }
    else if s.kind = .datagram then some s.enterLoop
    else if s.connecting then some { s with thread := .connecting }
    else if s.listening then some { s with isAccepting := true }.enterLoop
    else if s.incomingConnection = false then some { s with thread := .ended }
    else if s.kind = .tcp then some s.enterLoop
    else some { s with thread := .suspended }

def suspendLoop (s : SocketLoop F α H) : Option (SocketLoop F α H) :=
  if s.closing then some { s with thread := .ended }
  else if s.suspended = false then some { s with thread := .handshaking }
  else if s.woken then some { s with woken := false }
  else none

def connectLoop (s : SocketLoop F α H) : LoopResult α → Option (SocketLoop F α H)
  | .completed => some { s with
      thread := .setting SocketEvent.tcpConnected (if s.kind = .ssl then .handshake else .enter) }
  | .failed _ => some s.fail
  | .wouldBlock =>
      if s.woken = false then none
      else if s.closing then some { s with woken := false, thread := .ended }
      else some { s with woken := false }
  | _ => none

/-- A handshake that is not through yet sleeps in `select`. -/
def sslHandshakeLoop (s : SocketLoop F α H) : LoopResult α → Option (SocketLoop F α H)
  | .completed =>
      let s := s.setActiveEvents
        (SocketEvent.tcpConnected ||| SslSocketEvent.sslHandshakeCompleted)
      some (s.notify s.base.processWaitLists .enter)
  | .failed _ => some s.fail
  | .wantRead | .wantWrite =>
      if s.closing then some { s with woken := false, thread := .ended }
      else some { s with woken := false }
  | _ => none

def baseEvents (s : SocketLoop F α H) : Events :=
  if s.isAccepting then 0
  else
    match s.kind with
    | .tcp => SocketEvent.tcpConnected
    | .datagram => 0
    | .ssl => SocketEvent.tcpConnected ||| SslSocketEvent.sslHandshakeCompleted

/-- `select` returns for what it was given. -/
def select (s : SocketLoop F α H) (readable writable : Bool) : Option (SocketLoop F α H) :=
  if s.thread.isWaiting = false ∨ (readable = true ∧ s.canReadSocket = true) ∨
      (writable = true ∧ (s.canWriteSocket = true ∨ s.isAccepting = true)) ∨
      (s.woken = false ∧ readable = false ∧ writable = false) then none
  else some { s with
    woken := false
    canReadSocket := s.canReadSocket || readable
    canWriteSocket := s.canWriteSocket || writable
    thread := .locking }

/-- Only `Socket` looks whether it is suspended. -/
def lock (s : SocketLoop F α H) : SocketLoop F α H :=
  if s.closing then { s with thread := .ended }
  else if s.suspended = true ∧ s.kind ≠ .ssl ∧ s.isAccepting = false then
    { s with thread := .waiting }
  else
    { s.setActiveEvents s.baseEvents with
      prevActiveEvents := s.device.activeEvents
      late := []
      readBlockCount := s.readBlockSize
      thread := if s.isAccepting then .accepting else .receiving }

/-- `setEvents_l`, and the loop is left. -/
def exitWith (s : SocketLoop F α H) (events : Events) : SocketLoop F α H :=
  s.notify (s.base.setEvents events) .exit

/-- For anything but these events, `setIoErrorEvent_l`, which releases the lock first. -/
def processTcpSendRecvErrno (s : SocketLoop F α H) (error : SocketError) : SocketLoop F α H :=
  let events := getSocketEventsFromTcpSendRecvError error
  if events.Meets AsyncIoBaseEvent.ioError then
    { s with thread := .failing AsyncIoBaseEvent.ioError }
  else s.exitWith events

def addToReadBuffer (s : SocketLoop F α H) (p params : List α) : SocketLoop F α H :=
  { s with device := s.device.addToReadBuffer p params }

def receives (s : SocketLoop F α H) : Bool := s.canReadSocket && !s.device.readBuffer.isFull

def receive (s : SocketLoop F α H) (result : LoopResult α) : Option (SocketLoop F α H) :=
  if s.receives then
    match s.kind, result with
    | .ssl, _ => some { s with thread := .reading }
    | .tcp, .received p _ =>
        if p ≠ [] ∧ p.length ≤ s.readBlockCount then some (s.addToReadBuffer p []) else none
    | .tcp, .wouldBlock => some { s with canReadSocket := false }
    | .tcp, .disconnected => some (s.exitWith SocketEvent.tcpDisconnected)
    | .tcp, .failed error => some (s.processTcpSendRecvErrno error)
    | .datagram, .received p sockAddr =>
        if p.length ≤ s.readBlockCount then some (s.addToReadBuffer p sockAddr) else none
    | .datagram, .wouldBlock => some { s with canReadSocket := false }
    | .datagram, .failed _ => some { s with thread := .failing AsyncIoBaseEvent.ioError }
    | _, _ => none
  else some { s with thread := .sending }

def sslRead (s : SocketLoop F α H) : LoopResult α → Option (SocketLoop F α H)
  | .received p _ =>
      if p ≠ [] ∧ p.length ≤ s.readBlockCount then
        some { s.addToReadBuffer p [] with thread := .receiving }
      else none
  | .wantRead => some { s with canReadSocket := false, thread := .receiving }
  | .wantWrite => some { s with canWriteSocket := false, thread := .receiving }
  | .disconnected => some { s with thread := .failing SocketEvent.tcpDisconnected }
  | .failed error => some { s with thread := .failing (getSocketEventsFromTcpSendRecvError error) }
  | _ => none

/-- `getNextWriteBlock` into the block of the thread. -/
def takeBlock (s : SocketLoop F α H) : SocketLoop F α H :=
  if s.canWriteSocket then
    let (block,device) := s.device.getNextWriteBlock s.block
    { s with device, block }
  else s

/-- The tests of the loop that sends; a datagram without an address ends it. -/
def sends (s : SocketLoop F α H) : Bool :=
  s.canWriteSocket &&
    !(if s.kind = .datagram then s.block.params.isEmpty else s.block.data.isEmpty)

def removeSent (s : SocketLoop F α H) (size : ℕ) : SocketLoop F α H :=
  { s with
    block := ⟨if size < s.block.data.length then s.block.data.drop size else [],s.block.params⟩ }

def endPass (s : SocketLoop F α H) : SocketLoop F α H :=
  if s.device.activeEvents ≠ s.prevActiveEvents then s.notify s.base.processWaitLists .loop
  else { s with thread := .waiting }

/-- The device as the pass leaves it. -/
def updated (s : SocketLoop F α H) : SocketLoop F α H :=
  { s with device := s.device.updateReadWriteBufferEvents }

def send (s : SocketLoop F α H) (result : LoopResult α) : Option (SocketLoop F α H) :=
  let s := s.takeBlock
  if s.sends then
    match s.kind, result with
    | .ssl, _ => some { s with thread := .writing }
    | .tcp, .sent size => some (s.removeSent size)
    | .tcp, .wouldBlock => some { s with canWriteSocket := false }
    | .tcp, .failed error => some (s.processTcpSendRecvErrno error)
    | .datagram, .sent _ => some { s with block := ⟨[],s.block.params⟩ }
    | .datagram, .wouldBlock => some { s with canWriteSocket := false }
    | .datagram, .failed _ => some { s with thread := .failing AsyncIoBaseEvent.ioError }
    | _, _ => none
  else some s.updated.endPass

def sslWrite (s : SocketLoop F α H) : LoopResult α → Option (SocketLoop F α H)
  | .sent size => some { s.removeSent size with thread := .sending }
  | .wantRead => some { s with canReadSocket := false, thread := .sending }
  | .wantWrite => some { s with canWriteSocket := false, thread := .sending }
  | .failed error => some { s with thread := .failing (getSocketEventsFromTcpSendRecvError error) }
  | _ => none

/-- The events of a pass of `acceptLoop` come from the connections that nobody has accepted. -/
def acceptLoop (s : SocketLoop F α H) (result : LoopResult α) : Option (SocketLoop F α H) :=
  if s.canReadSocket then
    match result with
    | .accepted => some { s with
        pendingIncomingConnections := s.pendingIncomingConnections + 1 }
    | .wouldBlock => some { s with canReadSocket := false }
    | .failed _ => some { s with thread := .failing AsyncIoBaseEvent.ioError }
    | _ => none
  else if s.pendingIncomingConnections = 0 then some s.endPass
  else
    some (s.setActiveEvents
      (s.device.activeEvents ||| SocketEvent.incomingConnection)).endPass

def threadStep (s : SocketLoop F α H) (result : LoopResult α) : Option (SocketLoop F α H) :=
  match s.thread with
  | .starting => s.start
  | .suspended => s.suspendLoop
  | .connecting => s.connectLoop result
  | .handshaking => s.sslHandshakeLoop result
  | .waiting =>
      match result with
      | .failed _ => some s.fail
      | _ => none
  | .locking => some s.lock
  | .receiving => s.receive result
  | .sending => s.send result
  | .reading => s.sslRead result
  | .writing => s.sslWrite result
  | .accepting => s.acceptLoop result
  | .setting events next => some (s.notify (s.base.setEvents events) next)
  | .failing events => some (s.exitWith events)
  | .notifying wait next => some (s.notify (s.base.notified wait) next)
  | .ended => none

/-- What a call does in one step under the lock. -/
def locked (s : SocketLoop F α H) (s' : SocketLoop F α H) : Option (SocketLoop F α H) :=
  if s.thread.isLocked then none else some s'

def act (s : SocketLoop F α H) : SocketAction F α → Option (SocketLoop F α H)
  | .open kind mode isIncoming isSuspended => s.open' kind mode isIncoming isSuspended
  | .connect => s.locked s.connect
  | .listen => s.locked s.listen
  | .accept => s.locked s.accept
  | .read size => s.locked (s.read size)
  | .write p params => s.locked (s.write p params)
  | .setReadBufferSize size result => s.locked (s.setReadBufferSize size result)
  | .setWriteBufferSize size result => s.locked (s.setWriteBufferSize size result)
  | .setReadBlockSize size => s.locked (s.setReadBlockSize size)
  | .setOptions mode => if s.thread.isLocked then none else s.setOptions mode
  | .unsuspend => s.locked { s with suspended := false, woken := true }
  | .close => s.locked s.close
  | .call request => s.call request
  | .advance i => s.advance i
  | .timeout i => s.timeout i
  | .select readable writable => s.select readable writable
  | .thread result => s.threadStep result

/-- Events that are to stay until the socket is opened again. -/
def lasting : Events :=
  SocketEvent.tcpDisconnected ||| SocketEvent.tcpReset ||| SocketEvent.tcpAborted |||
    AsyncIoBaseEvent.ioError

def step (s : SocketLoop F α H) (a : SocketAction F α) : Option (SocketLoop F α H) :=
  (s.act a).map fun s' => { s' with
    reached := (if a.opens then 0 else s.reached) ||| s'.device.activeEvents &&& lasting }

end SocketLoop
end Jancy.Io
