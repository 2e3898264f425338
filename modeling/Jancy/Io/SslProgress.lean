import Jancy.Io.SocketLoop

/-! The loop of `SslSocket`, watched: how often a pass calls `m_ssl`, and what the thread waits for
after it. -/
namespace Jancy.Io

/-- What the socket may have become. -/
inductive SocketCondition where
  | readable
  | writable
  deriving DecidableEq, Repr

def LoopResult.asks {α : Type} : LoopResult α → Option SocketCondition
  | .wantRead => some .readable
  | .wantWrite => some .writable
  | _ => none

/-- What `wsaEnumEvents` tells: the events that there are, each of them with its error. -/
structure NetworkEvents where
  read : Option (Option SocketError)
  write : Option (Option SocketError)
  close : Option (Option SocketError)
  deriving DecidableEq, Repr

/-- `networkEvents` is the way of Windows to return from the wait of the loop. -/
inductive SslAction (F α : Type) where
  | act (action : SocketAction F α)
  | networkEvents (events : NetworkEvents)

namespace SocketLoop

variable {F α : Type} {H : HandleTable ℕ}

/-- The socket is waited on for this. -/
def Selects (s : SocketLoop F α H) : SocketCondition → Prop
  | .readable => s.canReadSocket = false
  | .writable => s.canWriteSocket = false

/-- `processTcpSendRecvError` outside of a pass, or `setEvents`, and the loop is left. -/
def leave (s : SocketLoop F α H) (events : Events) : SocketLoop F α H :=
  { s with woken := false, thread := .setting events .exit }

/-- `WaitForMultipleObjects` returns, in the loop of `SslSocket`. -/
def waitForEvents (s : SocketLoop F α H) (e : NetworkEvents) : Option (SocketLoop F α H) :=
  if s.thread.isWaiting = false ∨ s.isAccepting = true ∨
      (e.read.isSome = true ∧ s.canReadSocket = true) ∨
      (e.write.isSome = true ∧ s.canWriteSocket = true) ∨
      (s.woken = false ∧ e = ⟨none,none,none⟩) then none
  else
    match e.read.join,e.write.join with
    | some error,_ => some (s.leave (getSocketEventsFromTcpSendRecvError error))
    | none,some error => some (s.leave (getSocketEventsFromTcpSendRecvError error))
    | none,none =>
        let canReadSocket := s.canReadSocket || e.read.isSome
        let canWriteSocket := s.canWriteSocket || e.write.isSome
        match canReadSocket,e.close with
        | false,some none =>
            some (s.leave SocketEvent.tcpDisconnected)
        | false,some (some error) => some (s.leave (getSocketEventsFromTcpSendRecvError error))
        | _,_ => some { s with woken := false, canReadSocket, canWriteSocket, thread := .locking }

/-- Bytes that wait to be sent. -/
def queued (s : SocketLoop F α H) : ℕ :=
  s.block.data.length + s.device.writeBuffer.data.length + s.device.writeOverflowBuffer.length

/-- Room for bytes that are received. -/
def room (s : SocketLoop F α H) : ℕ := s.device.readBuffer.space

end SocketLoop

/-- An `SslSocket`, with what is watched of its loop. -/
structure SslLoop (F α : Type) (H : HandleTable ℕ) where
  socket : SocketLoop F α H
  /-- what the last `m_ssl.read` and `m_ssl.write` asked for, until the socket has become so -/
  readAsked : Option SocketCondition
  writeAsked : Option SocketCondition
  /-- calls of `m_ssl` in this pass -/
  sslCalls : ℕ
  /-- room and bytes to send at the beginning of the pass -/
  work : ℕ
  /-- what the other threads have added to them since -/
  added : ℕ

namespace SslLoop

variable {F α : Type} {H : HandleTable ℕ}

def initial (readBlockSize : ℕ) (readBufferSize writeBufferSize : ℕ+) : SslLoop F α H :=
  ⟨.initial .ssl readBlockSize readBufferSize writeBufferSize,none,none,0,0,0⟩

/-- Without what the socket has become. -/
def still (readable writable : Bool) : Option SocketCondition → Option SocketCondition
  | some .readable => if readable then none else some .readable
  | some .writable => if writable then none else some .writable
  | none => none

/-- The step took the socket to `s`. -/
def observe (r : SslLoop F α H) (s : SocketLoop F α H) : SslAction F α → SslLoop F α H
  | .act (.thread result) =>
      match r.socket.thread with
      | .locking => { r with socket := s, sslCalls := 0, work := s.room + s.queued, added := 0 }
      | .reading => { r with socket := s, readAsked := result.asks, sslCalls := r.sslCalls + 1 }
      | .writing => { r with socket := s, writeAsked := result.asks, sslCalls := r.sslCalls + 1 }
      | _ => { r with socket := s }
  | .act (.select readable writable) =>
      { r with
        socket := s
        readAsked := still readable writable r.readAsked
        writeAsked := still readable writable r.writeAsked }
  | .networkEvents e =>
      { r with
        socket := s
        readAsked := still e.read.isSome e.write.isSome r.readAsked
        writeAsked := still e.read.isSome e.write.isSome r.writeAsked }
  | .act (.open _ _ _ _) => { r with socket := s, readAsked := none, writeAsked := none }
  | .act _ =>
      { r with
        socket := s
        added := r.added + (s.room - r.socket.room) + (s.queued - r.socket.queued) }

/-- An `SslSocket` is opened as one; the loop of `SslSocket` waits as the platform does. -/
def allows (platform : Platform) (s : SocketLoop F α H) : SslAction F α → Bool
  | .act (.open kind _ _ _) => decide (kind = .ssl)
  | .act (.select _ _) => decide (platform = .posix) || s.isAccepting
  | .networkEvents _ => decide (platform = .win)
  | _ => true

def act (s : SocketLoop F α H) : SslAction F α → Option (SocketLoop F α H)
  | .act a => s.step a
  | .networkEvents e => s.waitForEvents e

def step (platform : Platform) (r : SslLoop F α H) (a : SslAction F α) : Option (SslLoop F α H) :=
  if allows platform r.socket a then (act r.socket a).map (r.observe · a) else none

/-- What the platform returns from the wait with if nothing has happened on the socket. -/
def wakes : Platform → SslAction F α
  | .win => .networkEvents ⟨none,none,none⟩
  | .posix => .act (.select false false)

/-- A pass has not called `m_ssl` more often than there was room or something to send; the thread
waits for what was asked for; and it does not sleep over a request to close. -/
structure Progressing (platform : Platform) (r : SslLoop F α H) : Prop where
  finite : r.sslCalls ≤ r.work + r.added
  selects : r.socket.thread = .waiting → ∀ c,
    r.readAsked = some c ∨ r.writeAsked = some c → r.socket.Selects c
  notices : r.socket.thread = .waiting → r.socket.isAccepting = false → r.socket.closing = true →
    ∃ r', step platform r (wakes platform) = some r' ∧ r'.socket.lock.thread = .ended

/-- `SSL_write` that succeeds has sent something of the block. -/
def Sends (r : SslLoop F α H) : SslAction F α → Prop
  | .act (.thread (.sent size)) => r.socket.thread = .writing →
      0 < size ∧ size ≤ r.socket.block.data.length
  | _ => True

/-- A result that asks for something comes again until the socket has become so. -/
def Repeats (r : SslLoop F α H) : SslAction F α → Prop
  | .act (.thread result) =>
      match r.socket.thread with
      | .reading => r.readAsked ≠ none → result.asks = r.readAsked
      | .writing => r.writeAsked ≠ none → result.asks = r.writeAsked
      | _ => True
  | _ => True

/-- No `m_ssl.read` asks to write, and no `m_ssl.write` asks to read. -/
def StepOk (r : SslLoop F α H) : SslAction F α → Prop
  | .act (.thread result) =>
      match r.socket.thread with
      | .reading => result.asks ≠ some .writable
      | .writing => result.asks ≠ some .readable
      | _ => True
  | _ => True

end SslLoop
end Jancy.Io
