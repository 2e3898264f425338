import Jancy.Io.WebSocketStream

/-! The state machine that puts messages together from frames, and the socket that hands them
over. Both are here from the end of the handshake on. -/
namespace Jancy.Io

open WebSocketFrameParser

inductive WebSocketState where
  | connected
  | controlFrameReady
  | messageReady
  deriving DecidableEq,Repr

structure WebSocketMessage where
  opcode : WebSocketFrameOpcode
  frameCount : ℕ
  payload : List UInt8
  deriving DecidableEq,Repr

def WebSocketMessage.clear : WebSocketMessage := ⟨.undefined,0,[]⟩

/-- The frame of the machine is the one its parser points to. A parser that is not made yet is a
parser that has read nothing. -/
structure WebSocketStateMachine where
  state : WebSocketState
  frameParser : WebSocketFrameParser
  message : WebSocketMessage
  deriving DecidableEq,Repr

namespace WebSocketStateMachine

def withParser (machine : WebSocketStateMachine) (frameParser : WebSocketFrameParser) :
    WebSocketStateMachine :=
  { machine with frameParser }

def setConnectedState (machine : WebSocketStateMachine) : WebSocketStateMachine where
  state := .connected
  frameParser := { machine.frameParser.reset with frame := .clear }
  message := .clear

def processFrame (machine : WebSocketStateMachine) : Option String × WebSocketStateMachine :=
  let frame := machine.frameParser.frame
  let opcode := WebSocketFrameOpcode.ofBits frame.opcode
  let taken (message : WebSocketMessage) : WebSocketStateMachine :=
    { machine with message, state := if frame.fin then .messageReady else machine.state }
  if WebSocketFrameOpcode.firstControl.bits ≤ frame.opcode then
    (none,{ machine with state := .controlFrameReady })
  else if opcode = .continuation then
    if machine.message.opcode = .undefined then
      (some "continuation frame without initial data frame",machine)
    else
      (none,taken { machine.message with
        frameCount := machine.message.frameCount + 1
        payload := machine.message.payload ++ frame.payload })
  else if machine.message.opcode ≠ .undefined then
    (some "incomplete fragmented message",machine)
  else (none,taken ⟨opcode,1,frame.payload⟩)

/-- The loop of `parse`, with a bound for the number of frames. -/
def parseLoop : ℕ → WebSocketStateMachine → List UInt8 → Except String ℕ × WebSocketStateMachine
  | 0,machine,_ => (.ok 0,machine)
  | frames + 1,machine,bytes =>
    if bytes = [] ∨ machine.state ≠ .connected then (.ok 0,machine)
    else
      match machine.frameParser.parse bytes with
      | (.error error,frameParser) => (.error error,machine.withParser frameParser)
      | (.ok size,frameParser) =>
        if frameParser.state ≠ .completed then (.ok bytes.length,machine.withParser frameParser)
        else
          match (machine.withParser frameParser.reset).processFrame with
          | (some error,machine) => (.error error,machine)
          | (none,machine) => taken size (parseLoop frames machine (bytes.drop size))

def parse (machine : WebSocketStateMachine) (bytes : List UInt8) :
    Except String ℕ × WebSocketStateMachine :=
  parseLoop bytes.length machine bytes

end WebSocketStateMachine

inductive WebSocketEvent where
  | incomingData
  | webSocketCloseRequested
  | webSocketCloseCompleted
  | ioError
  deriving DecidableEq,Repr

structure WebSocketOptions where
  includeControlFrames : Bool
  disableCloseResponse : Bool
  disablePongResponse : Bool
  deriving DecidableEq,Repr

/-- What the state machine hands over when it is ready. -/
inductive WebSocketDelivery where
  | control (opcode : WebSocketFrameOpcode) (payload : List UInt8)
  | message (opcode : WebSocketFrameOpcode) (payload : List UInt8)
  deriving DecidableEq,Repr

/-- The read buffer keeps the size and the opcode of every block. `delivered` is a record for the
statements below, in the order of the deliveries; nothing reads it. -/
structure WebSocket where
  stateMachine : WebSocketStateMachine
  options : WebSocketOptions
  connecting : Bool
  webSocketCloseAdded : Bool
  readBuffer : List (WebSocketFrameOpcode × List UInt8)
  writeBuffer : List UInt8
  writeBufferSize : ℕ
  randomCount : ℕ
  activeEvents : List WebSocketEvent
  ioError : Option String
  delivered : List WebSocketDelivery
  deriving DecidableEq,Repr

namespace WebSocket

def withMachine (socket : WebSocket) (stateMachine : WebSocketStateMachine) : WebSocket :=
  { socket with stateMachine }

def setEvents (socket : WebSocket) (events : List WebSocketEvent) : WebSocket :=
  let activeEvents := events.foldl (fun active event => active.insert event) socket.activeEvents
  { socket with activeEvents }

def setIoErrorEvent (socket : WebSocket) (error : String) : WebSocket :=
  { socket.setEvents [.ioError] with ioError := some error }

def addToReadBuffer (socket : WebSocket) (payload : List UInt8) (opcode : WebSocketFrameOpcode) :
    WebSocket :=
  { socket with readBuffer := socket.readBuffer ++ [(opcode,payload)] }

/-- The result says whether anything was written; a full buffer takes nothing. -/
def addToWriteBuffer (socket : WebSocket) (bytes : List UInt8) : ℕ × WebSocket :=
  let size := min bytes.length (socket.writeBufferSize - socket.writeBuffer.length)
  (size,{ socket with writeBuffer := socket.writeBuffer ++ bytes.take size })

variable (random : ℕ → UInt32)

def replyToControlFrame (socket : WebSocket) (opcode : WebSocketFrameOpcode)
    (payload : List UInt8) : List WebSocketEvent × WebSocket :=
  match opcode with
  | .close =>
    if socket.webSocketCloseAdded then ([.webSocketCloseCompleted],socket)
    else if socket.options.disableCloseResponse then ([.webSocketCloseRequested],socket)
    else
      let replyFrame := buildWebSocketFrame .close true false 0 []
      let (size,socket) := socket.addToWriteBuffer replyFrame
      ([.webSocketCloseRequested],
        if size ≠ 0 then { socket with webSocketCloseAdded := true } else socket)
  | .ping =>
    if socket.options.disablePongResponse then ([],socket)
    else
      let replyFrame := buildWebSocketFrame .pong true socket.connecting
        (random socket.randomCount) payload
      let (_,socket) := socket.addToWriteBuffer replyFrame
      ([],if socket.connecting then { socket with randomCount := socket.randomCount + 1 }
        else socket)
  | _ => ([],socket)

def takeControlFrame (socket : WebSocket) : WebSocket :=
  let frame := socket.stateMachine.frameParser.frame
  let opcode := WebSocketFrameOpcode.ofBits frame.opcode
  let delivered := socket.delivered ++ [.control opcode frame.payload]
  let socket := { socket with delivered }
  let (events,socket) :=
    if socket.options.includeControlFrames then
      ([WebSocketEvent.incomingData],socket.addToReadBuffer frame.payload opcode)
    else ([],socket)
  let (replyEvents,socket) := socket.replyToControlFrame random opcode frame.payload
  let socket := socket.setEvents (events ++ replyEvents)
  socket.withMachine socket.stateMachine.setConnectedState

def takeMessage (socket : WebSocket) : WebSocket :=
  let message := socket.stateMachine.message
  let delivered := socket.delivered ++ [.message message.opcode message.payload]
  let socket := { socket with delivered }
  let socket := (socket.addToReadBuffer message.payload message.opcode).setEvents [.incomingData]
  socket.withMachine socket.stateMachine.setConnectedState

/-- The switch over the state that `parse` left. -/
def processState (socket : WebSocket) : WebSocket :=
  match socket.stateMachine.state with
  | .connected => socket
  | .controlFrameReady => socket.takeControlFrame random
  | .messageReady => socket.takeMessage

/-- The loop of `processIncomingData`, with a bound for its turns. -/
def processIncomingLoop : ℕ → WebSocket → List UInt8 → Bool × WebSocket
  | 0,socket,_ => (true,socket)
  | turns + 1,socket,bytes =>
    if bytes = [] then (true,socket)
    else
      match socket.stateMachine.parse bytes with
      | (.error error,stateMachine) =>
        (false,(socket.withMachine stateMachine).setIoErrorEvent error)
      | (.ok size,stateMachine) =>
        processIncomingLoop turns ((socket.withMachine stateMachine).processState random)
          (bytes.drop size)

def processIncomingData (socket : WebSocket) (bytes : List UInt8) : Bool × WebSocket :=
  processIncomingLoop random bytes.length socket bytes

def receive (socket : WebSocket) (chunks : List (List UInt8)) : WebSocket :=
  chunks.foldl (fun socket bytes =>
    if socket.ioError = none then (socket.processIncomingData random bytes).2 else socket) socket

/-- The socket at the end of its handshake. -/
def connected (socket : WebSocket) : WebSocket :=
  { socket with
    stateMachine := socket.stateMachine.setConnectedState
    readBuffer := []
    ioError := none
    delivered := [] }

end WebSocket

end Jancy.Io
