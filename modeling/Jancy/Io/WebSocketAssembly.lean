import Jancy.Io.WebSocketCodec
import Jancy.Io.WebSocketState

/-! The two loops of the socket, over the frames of a chunk and over what the state machine hands
over, take the frames of a stream one by one. -/
namespace Jancy.Io

open WebSocketFrameParser

namespace WebSocket

variable {random : ℕ → UInt32}

def toSession (socket : WebSocket) : WebSocketSession WebSocket :=
  ⟨socket.stateMachine.frameParser,0,socket,socket.ioError⟩

def ofSession (session : WebSocketSession WebSocket) : WebSocket :=
  let socket := session.app.withMachine (session.app.stateMachine.withParser session.parser)
  match session.error with
  | some error => socket.setIoErrorEvent error
  | none => socket

/-- What the socket does once a frame is there. -/
def complete (random : ℕ → UInt32) (session : WebSocketSession WebSocket) :
    WebSocketSession WebSocket :=
  match (session.app.stateMachine.withParser session.parser.reset).processFrame with
  | (some error,stateMachine) =>
    ⟨stateMachine.frameParser,0,session.app.withMachine stateMachine,some error⟩
  | (none,stateMachine) => toSession ((session.app.withMachine stateMachine).processState random)

theorem ofSession_toSession {socket : WebSocket} (h : socket.ioError = none) :
    ofSession socket.toSession = socket := by
  obtain ⟨machine,options,connecting,closeAdded,readBuffer,writeBuffer,size,random,events,error,
    delivered⟩ := socket
  cases h
  rfl

end WebSocket

namespace WebSocketStateMachine

theorem processFrame_frameParser (machine : WebSocketStateMachine) :
    (machine.processFrame).2.frameParser = machine.frameParser := by
  simp only [processFrame]
  by_cases hcontrol : WebSocketFrameOpcode.firstControl.bits ≤ machine.frameParser.frame.opcode
  · rw [if_pos hcontrol]
  rw [if_neg hcontrol]
  by_cases hcontinuation :
      WebSocketFrameOpcode.ofBits machine.frameParser.frame.opcode = .continuation
  · rw [if_pos hcontinuation]
    split <;> rfl
  · rw [if_neg hcontinuation]
    split <;> rfl

end WebSocketStateMachine

namespace WebSocket

variable {random : ℕ → UInt32}

theorem processState_frameParser (socket : WebSocket)
    (h : socket.stateMachine.frameParser.state = .header ∧ socket.stateMachine.frameParser.buffer = []) :
    (socket.processState random).stateMachine.frameParser.state = .header ∧
      (socket.processState random).stateMachine.frameParser.buffer = [] := by
  unfold processState
  split
  · exact h
  · exact ⟨rfl,rfl⟩
  · exact ⟨rfl,rfl⟩

theorem complete_waits (session : WebSocketSession WebSocket) :
    (complete random session).parser.state = .header ∧
      (complete random session).parser.buffer = [] := by
  have hparser := WebSocketStateMachine.processFrame_frameParser
    (session.app.stateMachine.withParser session.parser.reset)
  simp only [complete]
  rcases hprocess :
    (session.app.stateMachine.withParser session.parser.reset).processFrame with ⟨error,machine⟩
  rw [hprocess] at hparser
  have hreset : machine.frameParser.state = .header ∧ machine.frameParser.buffer = [] := by
    rw [hparser]
    exact ⟨rfl,rfl⟩
  cases error with
  | some error => exact hreset
  | none => exact processState_frameParser _ hreset

theorem complete_open (session : WebSocketSession WebSocket) :
    (complete random session).Open := by
  obtain ⟨hstate,hbuffer⟩ := @complete_waits random session
  generalize (complete random session) = next at *
  obtain ⟨⟨frame,buffer,state⟩,count,app,error⟩ := next
  cases hstate
  cases hbuffer
  exact fun _ => ⟨reset_valid ⟨frame,[],.header⟩,nofun⟩

def Ready (session : WebSocketSession WebSocket) : Prop :=
  session.app.ioError = none ∧ session.app.stateMachine.state = .connected

theorem processState_state (socket : WebSocket) :
    (socket.processState random).stateMachine.state = .connected := by
  unfold processState
  split
  case h_1 h => exact h
  case h_2 => rfl
  case h_3 => rfl

/-- The two sockets have received the same. -/
structure Alike (socket socket' : WebSocket) : Prop where
  stateMachine : socket'.stateMachine = socket.stateMachine
  options : socket'.options = socket.options
  readBuffer : socket'.readBuffer = socket.readBuffer
  ioError : socket'.ioError = socket.ioError
  delivered : socket'.delivered = socket.delivered

theorem Alike.refl (socket : WebSocket) : Alike socket socket := ⟨rfl,rfl,rfl,rfl,rfl⟩

theorem replyToControlFrame_alike (socket : WebSocket) (opcode : WebSocketFrameOpcode)
    (payload : List UInt8) : Alike socket (socket.replyToControlFrame random opcode payload).2 := by
  cases opcode with
  | close =>
    simp only [replyToControlFrame]
    by_cases hadded : socket.webSocketCloseAdded = true
    · rw [if_pos hadded]
      exact .refl _
    rw [if_neg hadded]
    by_cases hdisabled : socket.options.disableCloseResponse = true
    · rw [if_pos hdisabled]
      exact .refl _
    rw [if_neg hdisabled]
    simp only
    split <;> exact ⟨rfl,rfl,rfl,rfl,rfl⟩
  | ping =>
    simp only [replyToControlFrame]
    by_cases hdisabled : socket.options.disablePongResponse = true
    · rw [if_pos hdisabled]
      exact .refl _
    rw [if_neg hdisabled]
    simp only
    split <;> exact ⟨rfl,rfl,rfl,rfl,rfl⟩
  | _ => exact .refl _

theorem takeControlFrame_received (socket : WebSocket) :
    let frame := socket.stateMachine.frameParser.frame
    let opcode := WebSocketFrameOpcode.ofBits frame.opcode
    let taken := socket.takeControlFrame random
    taken.stateMachine = socket.stateMachine.setConnectedState ∧
      taken.options = socket.options ∧ taken.ioError = socket.ioError ∧
      taken.readBuffer = socket.readBuffer ++
        (if socket.options.includeControlFrames then [(opcode,frame.payload)] else []) ∧
      taken.delivered = socket.delivered ++ [.control opcode frame.payload] := by
  intro frame opcode taken
  have hreply := fun before : WebSocket =>
    @replyToControlFrame_alike random before opcode frame.payload
  cases hinclude : socket.options.includeControlFrames with
  | true =>
    have h := hreply (addToReadBuffer
      { socket with delivered := socket.delivered ++ [.control opcode frame.payload] }
      frame.payload opcode)
    simp only [taken,takeControlFrame,hinclude,if_true]
    exact ⟨congrArg WebSocketStateMachine.setConnectedState h.stateMachine,h.options,h.ioError,h.readBuffer,h.delivered⟩
  | false =>
    have h := hreply
      { socket with delivered := socket.delivered ++ [.control opcode frame.payload] }
    simp only [taken,takeControlFrame,hinclude,Bool.false_eq_true,if_false,List.append_nil]
    exact ⟨congrArg WebSocketStateMachine.setConnectedState h.stateMachine,h.options,h.ioError,h.readBuffer,h.delivered⟩

theorem processState_ioError (socket : WebSocket) :
    (socket.processState random).ioError = socket.ioError := by
  unfold processState
  split
  · rfl
  · exact (takeControlFrame_received socket).2.2.1
  · rfl

theorem processFrame_state {machine machine' : WebSocketStateMachine} {error : String}
    (h : machine.processFrame = (some error,machine')) : machine' = machine := by
  simp only [WebSocketStateMachine.processFrame] at h
  by_cases hcontrol : WebSocketFrameOpcode.firstControl.bits ≤ machine.frameParser.frame.opcode
  · rw [if_pos hcontrol] at h
    cases h
  rw [if_neg hcontrol] at h
  by_cases hcontinuation :
      WebSocketFrameOpcode.ofBits machine.frameParser.frame.opcode = .continuation
  · rw [if_pos hcontinuation] at h
    split at h
    · cases h
      rfl
    · cases h
  · rw [if_neg hcontinuation] at h
    split at h
    · cases h
      rfl
    · cases h

theorem complete_ready {session : WebSocketSession WebSocket} (h : Ready session) :
    Ready (complete random session) := by
  simp only [complete]
  rcases hprocess :
    (session.app.stateMachine.withParser session.parser.reset).processFrame with ⟨error,machine⟩
  cases error with
  | some error =>
    rw [processFrame_state hprocess]
    exact h
  | none => exact ⟨(processState_ioError _).trans h.1,processState_state _⟩

theorem deliver_ready {session : WebSocketSession WebSocket} (bytes : List UInt8)
    (h : Ready session) : Ready (session.deliver (complete random) bytes) :=
  WebSocketSession.deliver_induction (fun _ _ _ h => h) (fun _ _ _ h => h)
    (fun _ h => complete_ready h) bytes h

/-- The result of the state machine's `parse` is what its session takes until it is ready. -/
def DeliversAs (random : ℕ → UInt32) (session : WebSocketSession WebSocket) (bytes : List UInt8) :
    Except String ℕ × WebSocketStateMachine → Prop
  | (.error error,stateMachine) =>
    ofSession (session.deliver (complete random) bytes) =
      (session.app.withMachine stateMachine).setIoErrorEvent error
  | (.ok size,stateMachine) =>
    if stateMachine.state = .connected then
      size = bytes.length ∧
        ofSession (session.deliver (complete random) bytes) = session.app.withMachine stateMachine
    else 0 < size ∧ session.deliver (complete random) bytes =
      (toSession ((session.app.withMachine stateMachine).processState random)).deliver
        (complete random) (bytes.drop size)

theorem deliversAs_nil {session : WebSocketSession WebSocket} (herror : session.error = none)
    (hready : Ready session) : DeliversAs random session []
      (.ok 0,session.app.stateMachine.withParser session.parser) := by
  have hstate : (session.app.stateMachine.withParser session.parser).state = .connected := hready.2
  rw [DeliversAs,if_pos hstate]
  exact ⟨rfl,by simp [ofSession,WebSocketSession.deliver,WebSocketSession.deliverLoop,herror]⟩

theorem DeliversAs.prepend {session : WebSocketSession WebSocket} {bytes : List UInt8} {size : ℕ}
    {machine : WebSocketStateMachine} {result : Except String ℕ × WebSocketStateMachine}
    (hsize : size ≤ bytes.length) (hdeliver : session.deliver (complete random) bytes =
      (toSession (session.app.withMachine machine)).deliver (complete random) (bytes.drop size))
    (h : DeliversAs random (toSession (session.app.withMachine machine)) (bytes.drop size) result) :
    DeliversAs random session bytes (taken size result) := by
  match result with
  | (.error error,machine') =>
    simp only [DeliversAs,taken] at h ⊢
    rw [hdeliver,h]
    rfl
  | (.ok rest,machine') =>
    simp only [DeliversAs,taken] at h ⊢
    rw [hdeliver]
    by_cases hstate : machine'.state = .connected
    · rw [if_pos hstate,List.length_drop] at h
      rw [if_pos hstate,h.2]
      exact ⟨by omega,rfl⟩
    · rw [if_neg hstate,List.drop_drop] at h
      rw [if_neg hstate,h.2]
      exact ⟨by omega,rfl⟩

theorem parseLoop_deliversAs (frames : ℕ) {session : WebSocketSession WebSocket}
    {bytes : List UInt8} (hopen : session.Open) (herror : session.error = none)
    (hready : Ready session) (hframes : bytes.length ≤ frames) :
    DeliversAs random session bytes (WebSocketStateMachine.parseLoop frames
      (session.app.stateMachine.withParser session.parser) bytes) := by
  induction frames generalizing session bytes with
  | zero =>
    have hbytes := List.eq_nil_of_length_eq_zero (Nat.le_zero.mp hframes)
    subst hbytes
    exact deliversAs_nil herror hready
  | succ frames ih =>
    have hstate : (session.app.stateMachine.withParser session.parser).state = .connected :=
      hready.2
    rw [WebSocketStateMachine.parseLoop]
    by_cases hbytes : bytes = []
    · subst hbytes
      rw [if_pos (.inl rfl)]
      exact deliversAs_nil herror hready
    rw [if_neg (by simp [hbytes,hstate])]
    have hdeliver := WebSocketSession.deliver_eq (@complete_open random) hopen herror hbytes
    rcases hparse : session.parser.parse bytes with ⟨error | size,parser⟩
    · simp only [WebSocketStateMachine.withParser,hparse] at hdeliver ⊢
      rw [DeliversAs,hdeliver]
      rfl
    have hparse' : (session.app.stateMachine.withParser session.parser).frameParser.parse bytes =
        (.ok size,parser) := hparse
    simp only [hparse,hparse'] at hdeliver ⊢
    by_cases hcompleted : parser.state = .completed
    · rw [if_neg (not_not_intro hcompleted)]
      rw [if_pos hcompleted] at hdeliver
      have hsize := WebSocketSession.size_pos hopen herror hparse hcompleted
      have hopen' := @complete_open random (session.parsed parser size)
      have hready' := @complete_ready random (session.parsed parser size) hready
      have hcomplete : complete random (session.parsed parser size) =
          match (session.app.stateMachine.withParser parser.reset).processFrame with
          | (some error,machine) =>
            ⟨machine.frameParser,0,session.app.withMachine machine,some error⟩
          | (none,machine) => toSession ((session.app.withMachine machine).processState random) :=
        rfl
      have htwice : (session.app.stateMachine.withParser session.parser).withParser parser.reset =
          session.app.stateMachine.withParser parser.reset := rfl
      rw [htwice]
      rcases hprocess : (session.app.stateMachine.withParser parser.reset).processFrame with
        ⟨error,machine⟩
      rw [hprocess] at hcomplete
      rw [hcomplete] at hdeliver hopen' hready'
      cases error with
      | some error =>
        simp only [DeliversAs]
        rw [hdeliver,WebSocketSession.deliver_of_error (by simp)]
        rfl
      | none =>
        simp only at hdeliver hopen' hready' ⊢
        by_cases hconnected : machine.state = .connected
        · have hsame : (session.app.withMachine machine).processState random =
              session.app.withMachine machine := by
            simp only [processState,withMachine,hconnected]
          rw [hsame] at hdeliver hopen' hready'
          have hle := WebSocketSession.size_le (@complete_open random) hopen herror hparse hcompleted
          apply DeliversAs.prepend hle hdeliver
          apply ih hopen' hready'.1 hready'
          rw [List.length_drop]
          omega
        · have hdone : WebSocketStateMachine.parseLoop frames machine (bytes.drop size) =
              (.ok 0,machine) := by
            cases frames with
            | zero => rfl
            | succ frames => rw [WebSocketStateMachine.parseLoop,if_pos (.inr hconnected)]
          rw [hdone,taken,DeliversAs,if_neg hconnected]
          exact ⟨hsize,hdeliver⟩
    · rw [if_pos hcompleted]
      rw [if_neg hcompleted] at hdeliver
      have hstate' : ((session.app.stateMachine.withParser session.parser).withParser
          parser).state = .connected := hready.2
      rw [DeliversAs,if_pos hstate',hdeliver]
      refine ⟨rfl,?_⟩
      simp only [ofSession,WebSocketSession.parsed,herror]
      rfl

theorem processState_open {socket : WebSocket} (h : socket.stateMachine.state ≠ .connected) :
    (toSession (socket.processState random)).Open := by
  have hparser : (socket.processState random).stateMachine.frameParser =
      WebSocketFrameParser.initial := by
    unfold processState
    split
    case h_1 hconnected => exact absurd hconnected h
    case h_2 => rw [(takeControlFrame_received socket).1]; rfl
    case h_3 => rfl
  intro _
  rw [toSession,hparser]
  exact ⟨reset_valid WebSocketFrameParser.initial,nofun⟩

/-- What the socket does with a chunk is what its session does. -/
theorem processIncomingLoop_eq (turns : ℕ) {session : WebSocketSession WebSocket}
    {bytes : List UInt8} (hopen : session.Open) (herror : session.error = none)
    (hready : Ready session) (hturns : bytes.length ≤ turns) :
    ((ofSession session).processIncomingLoop random turns bytes).2 =
      ofSession (session.deliver (complete random) bytes) := by
  induction turns generalizing session bytes with
  | zero =>
    have hbytes := List.eq_nil_of_length_eq_zero (Nat.le_zero.mp hturns)
    subst hbytes
    rfl
  | succ turns ih =>
    rw [processIncomingLoop]
    by_cases hbytes : bytes = []
    · subst hbytes
      rfl
    rw [if_neg hbytes]
    have hlength : 0 < bytes.length := List.length_pos_iff.mpr hbytes
    have hdelivers := @parseLoop_deliversAs random _ session bytes hopen herror hready le_rfl
    have hmachine : (ofSession session).stateMachine =
        session.app.stateMachine.withParser session.parser := by
      simp only [ofSession,herror]
      rfl
    have hwith : ∀ machine, (ofSession session).withMachine machine =
        session.app.withMachine machine := by
      intro machine
      simp only [ofSession,herror]
      rfl
    rw [← WebSocketStateMachine.parse,← hmachine] at hdelivers
    rcases hresult : (ofSession session).stateMachine.parse bytes with ⟨error | size,machine⟩
    · rw [hresult,DeliversAs] at hdelivers
      simp only [hdelivers,hwith]
    · rw [hresult,DeliversAs] at hdelivers
      simp only [hwith]
      by_cases hstate : machine.state = .connected
      · rw [if_pos hstate] at hdelivers
        have hsame : (session.app.withMachine machine).processState random =
            session.app.withMachine machine := by
          simp only [processState,withMachine,hstate]
        rw [hsame,hdelivers.1,List.drop_length,hdelivers.2]
        cases turns <;> rfl
      · rw [if_neg hstate] at hdelivers
        rw [hdelivers.2]
        have hopen' := @processState_open random (session.app.withMachine machine) hstate
        have herror' : ((session.app.withMachine machine).processState random).ioError = none :=
          (processState_ioError _).trans hready.1
        rw [← ih hopen' herror' ⟨herror',processState_state _⟩ (by rw [List.length_drop]; omega),
          ofSession_toSession herror']

theorem deliver_open {session : WebSocketSession WebSocket} (bytes : List UInt8)
    (hopen : session.Open) : (session.deliver (complete random) bytes).Open := by
  obtain ⟨n,hloop⟩ := WebSocketSession.deliverLoop_loop (@complete_open random) hopen
    (le_refl bytes.length)
  exact hloop.inv (WebSocketSession.reader_lawful complete_open) hopen

theorem receive_eq {session : WebSocketSession WebSocket} (hopen : session.Open)
    (hready : Ready session) (chunks : List (List UInt8)) :
    (ofSession session).receive random chunks =
      ofSession (session.deliver (complete random) chunks.flatten) := by
  rw [← WebSocketSession.deliver_flatten complete_open hopen]
  induction chunks generalizing session with
  | nil => rfl
  | cons bytes chunks ih =>
    rw [List.foldl_cons,← ih (deliver_open bytes hopen) (deliver_ready bytes hready),receive,
      List.foldl_cons]
    congr 1
    cases herror : session.error with
    | none =>
      have hnone : (ofSession session).ioError = none := by
        simp only [ofSession,herror]
        exact hready.1
      rw [if_pos hnone]
      exact processIncomingLoop_eq _ hopen herror hready le_rfl
    | some error =>
      have hsome : (ofSession session).ioError ≠ none := by
        simp only [ofSession,herror]
        nofun
      rw [if_neg hsome,WebSocketSession.deliver_of_error (by simp [herror])]

end WebSocket

end Jancy.Io
