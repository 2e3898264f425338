import Jancy.Io.WebSocketAssembly

/-! Messages are put together from their fragments, as long as no control frame comes between two
of them. -/
namespace Jancy.Io

open WebSocketFrameParser

/-- A frame as its sender builds it. -/
structure SentFrame where
  opcode : WebSocketFrameOpcode
  isFinal : Bool
  isMasked : Bool
  key : UInt32
  payload : List UInt8
  size_lt : payload.length < 2 ^ 64

namespace SentFrame

def bytes (frame : SentFrame) : List UInt8 :=
  buildWebSocketFrame frame.opcode frame.isFinal frame.isMasked frame.key frame.payload

/-- The frame by itself is one that the parser accepts. -/
def Accepted (frame : SentFrame) : Prop :=
  refusal frame.opcode frame.isFinal frame.payload.length = none

instance : DecidablePred Accepted := fun frame =>
  inferInstanceAs (Decidable (refusal frame.opcode frame.isFinal frame.payload.length = none))

theorem Accepted.ne_undefined {frame : SentFrame} (h : frame.Accepted) :
    frame.opcode ≠ .undefined := by
  intro hopcode
  simp [Accepted,refusal,hopcode] at h

end SentFrame

/-- What has been put together from the frames so far: an unfinished message, whether a control
frame came after its last fragment, what is delivered and whether a rule was violated. -/
structure MessageAssembly where
  message : Option (WebSocketFrameOpcode × List UInt8)
  interrupted : Bool
  delivered : List WebSocketDelivery
  violated : Bool

namespace MessageAssembly

def initial : MessageAssembly := ⟨none,false,[],false⟩

def fragment (assembly : MessageAssembly) (isFinal : Bool) (opcode : WebSocketFrameOpcode)
    (payload : List UInt8) : MessageAssembly :=
  if isFinal then
    ⟨none,false,assembly.delivered ++ [.message opcode payload],false⟩
  else ⟨some (opcode,payload),false,assembly.delivered,false⟩

/-- The fragmentation rules: control frames come whole and anywhere, a continuation needs a
message to continue, and no message begins before the last one is finished. -/
def take (assembly : MessageAssembly) (frame : SentFrame) : MessageAssembly :=
  if assembly.violated then assembly
  else if ¬ frame.Accepted then { assembly with violated := true }
  else if frame.opcode.IsControl then
    { assembly with
      interrupted := assembly.message.isSome
      delivered := assembly.delivered ++ [.control frame.opcode frame.payload] }
  else
    match assembly.message with
    | some (opcode,payload) =>
      if frame.opcode = .continuation then
        assembly.fragment frame.isFinal opcode (payload ++ frame.payload)
      else { assembly with violated := true }
    | none =>
      if frame.opcode = .continuation then { assembly with violated := true }
      else assembly.fragment frame.isFinal frame.opcode frame.payload

def assemble (frames : List SentFrame) : MessageAssembly :=
  frames.foldl take initial

/-- A control frame came inside a message and then another fragment or a new message. -/
def Interrupted (assembly : MessageAssembly) : List SentFrame → Prop
  | [] => False
  | frame :: frames =>
    (¬ assembly.violated ∧ assembly.interrupted ∧ frame.Accepted ∧ ¬ frame.opcode.IsControl) ∨
      Interrupted (assembly.take frame) frames

/-- The blocks of the read buffer; the socket may be set to leave control frames out. -/
def blocks (includeControlFrames : Bool) (delivered : List WebSocketDelivery) :
    List (WebSocketFrameOpcode × List UInt8) :=
  delivered.flatMap fun
    | .control opcode payload => if includeControlFrames then [(opcode,payload)] else []
    | .message opcode payload => [(opcode,payload)]

theorem blocks_append (includeControlFrames : Bool) (xs ys : List WebSocketDelivery) :
    blocks includeControlFrames (xs ++ ys) =
      blocks includeControlFrames xs ++ blocks includeControlFrames ys :=
  List.flatMap_append

end MessageAssembly

namespace WebSocket

variable {random : ℕ → UInt32}

/-- The socket has delivered what was put together and reports exactly the violations. -/
structure Delivers (socket : WebSocket) (assembly : MessageAssembly) : Prop where
  delivered : socket.delivered = assembly.delivered
  readBuffer : socket.readBuffer =
    MessageAssembly.blocks socket.options.includeControlFrames assembly.delivered
  ioError : socket.ioError.isSome = assembly.violated

/-- The machine has kept what was put together, unless a control frame made it forget. -/
structure Follows (session : WebSocketSession WebSocket) (assembly : MessageAssembly) : Prop where
  delivered : session.app.delivered = assembly.delivered
  readBuffer : session.app.readBuffer =
    MessageAssembly.blocks session.app.options.includeControlFrames assembly.delivered
  error : session.error.isSome = assembly.violated
  parser : session.error = none → session.parser.state = .header ∧ session.parser.buffer = []
  ready : Ready session
  message : session.error = none →
    match assembly.message with
    | none => session.app.stateMachine.message.opcode = .undefined ∧ ¬ assembly.interrupted
    | some (opcode,payload) =>
      opcode ≠ .undefined ∧
        if assembly.interrupted then session.app.stateMachine.message.opcode = .undefined
        else session.app.stateMachine.message.opcode = opcode ∧
          session.app.stateMachine.message.payload = payload

theorem Follows.open {session : WebSocketSession WebSocket} {assembly : MessageAssembly}
    (h : Follows session assembly) : session.Open := by
  intro herror
  obtain ⟨hstate,hbuffer⟩ := h.parser herror
  obtain ⟨⟨frame,buffer,state⟩,count,app,error⟩ := session
  cases hstate
  cases hbuffer
  exact ⟨reset_valid ⟨frame,[],.header⟩,nofun⟩

theorem Follows.delivers {session : WebSocketSession WebSocket} {assembly : MessageAssembly}
    (h : Follows session assembly) : (ofSession session).Delivers assembly := by
  have hready := h.ready.1
  cases herror : session.error with
  | none =>
    have hviolated := h.error
    rw [herror] at hviolated
    have hsocket : ofSession session = session.app.withMachine
        (session.app.stateMachine.withParser session.parser) := by
      simp only [ofSession,herror]
    rw [hsocket]
    exact ⟨h.delivered,h.readBuffer,by rw [← hviolated]; exact congrArg _ hready⟩
  | some error =>
    have hviolated := h.error
    rw [herror] at hviolated
    have hsocket : ofSession session = (session.app.withMachine
        (session.app.stateMachine.withParser session.parser)).setIoErrorEvent error := by
      simp only [ofSession,herror]
    rw [hsocket]
    exact ⟨h.delivered,h.readBuffer,hviolated⟩

theorem deliver_accepted {session : WebSocketSession WebSocket} {frame : SentFrame}
    (herror : session.error = none) (hstate : session.parser.state = .header)
    (hbuffer : session.parser.buffer = []) (haccepted : frame.Accepted) :
    session.deliver (complete random) frame.bytes =
      complete random (session.parsed ⟨sentFrame frame.opcode frame.isFinal frame.isMasked frame.key
        frame.payload,[],.completed⟩ frame.bytes.length) := by
  obtain ⟨next,hparse,hnext⟩ := parse_buildWebSocketFrame frame.opcode frame.isFinal frame.isMasked
    frame.key frame.payload [] hstate hbuffer frame.size_lt
  have hframe := hnext haccepted
  subst hframe
  rw [show refusal frame.opcode frame.isFinal frame.payload.length = none from haccepted] at hparse
  have hbytes : frame.bytes ≠ [] := by
    rw [SentFrame.bytes,buildWebSocketFrame_eq]
    nofun
  have hdeliver := WebSocketSession.deliver_frame (@complete_open random) herror hbytes hparse rfl
  rw [List.append_nil] at hdeliver
  exact hdeliver

theorem deliver_refused {session : WebSocketSession WebSocket} {frame : SentFrame}
    (herror : session.error = none) (hstate : session.parser.state = .header)
    (hbuffer : session.parser.buffer = []) (hrefused : ¬ frame.Accepted) :
    ∃ parser error, session.deliver (complete random) frame.bytes = session.failed parser error := by
  obtain ⟨next,hparse,-⟩ := parse_buildWebSocketFrame frame.opcode frame.isFinal frame.isMasked
    frame.key frame.payload [] hstate hbuffer frame.size_lt
  have hbytes : frame.bytes ≠ [] := by
    rw [SentFrame.bytes,buildWebSocketFrame_eq]
    nofun
  cases hrefusal : refusal frame.opcode frame.isFinal frame.payload.length with
  | none => exact absurd hrefusal hrefused
  | some error =>
    rw [hrefusal,List.append_nil] at hparse
    exact ⟨next,error,WebSocketSession.deliver_failed herror hbytes hparse⟩

theorem firstControl_le {opcode : WebSocketFrameOpcode} (h : opcode ≠ .undefined) :
    WebSocketFrameOpcode.firstControl.bits ≤ opcode.bits ↔ opcode.IsControl := by
  cases opcode with
  | undefined => exact absurd rfl h
  | _ => decide

def completed (session : WebSocketSession WebSocket) (frame : SentFrame) : WebSocketStateMachine :=
  session.app.stateMachine.withParser ⟨sentFrame frame.opcode frame.isFinal frame.isMasked frame.key
    frame.payload,[],.header⟩

theorem processFrame_completed (session : WebSocketSession WebSocket) {frame : SentFrame}
    (h : frame.opcode ≠ .undefined) :
    (completed session frame).processFrame =
      if frame.opcode.IsControl then
        (none,{ completed session frame with state := .controlFrameReady })
      else
        let message := session.app.stateMachine.message
        let state := if frame.isFinal then .messageReady else session.app.stateMachine.state
        if frame.opcode = .continuation then
          if message.opcode = .undefined then
            (some "continuation frame without initial data frame",completed session frame)
          else (none,{ completed session frame with
            state
            message := ⟨message.opcode,message.frameCount + 1,message.payload ++ frame.payload⟩ })
        else if message.opcode ≠ .undefined then
          (some "incomplete fragmented message",completed session frame)
        else (none,{ completed session frame with
          state, message := ⟨frame.opcode,1,frame.payload⟩ }) := by
  have hopcode : (completed session frame).frameParser.frame.opcode = frame.opcode.bits := rfl
  simp only [WebSocketStateMachine.processFrame]
  rw [hopcode,WebSocketFrameOpcode.ofBits_bits]
  by_cases hcontrol : frame.opcode.IsControl
  · rw [if_pos ((firstControl_le h).mpr hcontrol),if_pos hcontrol]
  · rw [if_neg (mt (firstControl_le h).mp hcontrol),if_neg hcontrol]
    rfl

theorem complete_completed (session : WebSocketSession WebSocket) (frame : SentFrame) :
    complete random (session.parsed ⟨sentFrame frame.opcode frame.isFinal frame.isMasked frame.key
        frame.payload,[],.completed⟩ frame.bytes.length) =
      match (completed session frame).processFrame with
      | (some error,stateMachine) =>
        ⟨stateMachine.frameParser,0,session.app.withMachine stateMachine,some error⟩
      | (none,stateMachine) =>
        toSession ((session.app.withMachine stateMachine).processState random) := rfl

theorem Follows.of_socket {socket : WebSocket} {assembly : MessageAssembly}
    (hdelivered : socket.delivered = assembly.delivered)
    (hread : socket.readBuffer =
      MessageAssembly.blocks socket.options.includeControlFrames assembly.delivered)
    (hioError : socket.ioError = none) (hviolated : assembly.violated = false)
    (hstate : socket.stateMachine.state = .connected)
    (hparser : socket.stateMachine.frameParser.state = .header ∧
      socket.stateMachine.frameParser.buffer = [])
    (hmessage : match assembly.message with
      | none => socket.stateMachine.message.opcode = .undefined ∧ ¬ assembly.interrupted
      | some (opcode,payload) =>
        opcode ≠ .undefined ∧
          if assembly.interrupted then socket.stateMachine.message.opcode = .undefined
          else socket.stateMachine.message.opcode = opcode ∧
            socket.stateMachine.message.payload = payload) :
    Follows (toSession socket) assembly where
  delivered := hdelivered
  readBuffer := hread
  error := by rw [hviolated,toSession,hioError]; rfl
  parser := fun _ => hparser
  ready := ⟨hioError,hstate⟩
  message := fun _ => hmessage

theorem complete_control (session : WebSocketSession WebSocket) {frame : SentFrame}
    (haccepted : frame.Accepted) (hcontrol : frame.opcode.IsControl) :
    ∃ socket : WebSocket, complete random (session.parsed ⟨sentFrame frame.opcode frame.isFinal
        frame.isMasked frame.key frame.payload,[],.completed⟩ frame.bytes.length) =
        toSession socket ∧
      socket.stateMachine = (completed session frame).setConnectedState ∧
      socket.options = session.app.options ∧ socket.ioError = session.app.ioError ∧
      socket.readBuffer = session.app.readBuffer ++
        (if session.app.options.includeControlFrames then [(frame.opcode,frame.payload)] else []) ∧
      socket.delivered = session.app.delivered ++ [.control frame.opcode frame.payload] := by
  have hprocess := processFrame_completed session (SentFrame.Accepted.ne_undefined haccepted)
  rw [if_pos hcontrol] at hprocess
  have htaken := @takeControlFrame_received random
    (session.app.withMachine { completed session frame with state := .controlFrameReady })
  have hopcode : WebSocketFrameOpcode.ofBits (sentFrame frame.opcode frame.isFinal frame.isMasked
      frame.key frame.payload).opcode = frame.opcode := WebSocketFrameOpcode.ofBits_bits _
  rw [complete_completed,hprocess]
  refine ⟨_,rfl,?_⟩
  simp only [completed,WebSocketStateMachine.withParser,withMachine,hopcode] at htaken ⊢
  exact htaken

theorem Follows.control {session : WebSocketSession WebSocket} {assembly : MessageAssembly}
    {frame : SentFrame} (h : Follows session assembly) (herror : session.error = none)
    (haccepted : frame.Accepted) (hcontrol : frame.opcode.IsControl) :
    Follows (session.deliver (complete random) frame.bytes) (assembly.take frame) := by
  obtain ⟨hstate,hbuffer⟩ := h.parser herror
  have hviolated : assembly.violated = false := by simpa [herror] using h.error.symm
  have htake : assembly.take frame = { assembly with
      interrupted := assembly.message.isSome
      delivered := assembly.delivered ++ [.control frame.opcode frame.payload] } := by
    simp [MessageAssembly.take,hviolated,haccepted,hcontrol]
  obtain ⟨socket,hcomplete,hmachine,hoptions,hioError,hread,hdelivered⟩ :=
    @complete_control random session frame haccepted hcontrol
  rw [deliver_accepted herror hstate hbuffer haccepted,hcomplete,htake]
  apply Follows.of_socket
  · rw [hdelivered,h.delivered]
  · rw [hread,h.readBuffer,hoptions,MessageAssembly.blocks_append]
    simp [MessageAssembly.blocks]
  · exact hioError.trans h.ready.1
  · exact hviolated
  · rw [hmachine]
    rfl
  · rw [hmachine]
    exact ⟨rfl,rfl⟩
  · rw [hmachine]
    have hmessage := h.message herror
    cases hopen : assembly.message with
    | none => exact ⟨rfl,nofun⟩
    | some message =>
      simp only [hopen] at hmessage ⊢
      exact ⟨hmessage.1,by rw [Option.isSome_some,if_pos rfl]; rfl⟩

theorem Follows.fragment {session : WebSocketSession WebSocket} {assembly : MessageAssembly}
    {frame : SentFrame} {message : WebSocketMessage} (h : Follows session assembly)
    (hmessage : message.opcode ≠ .undefined)
    (hprocess : (completed session frame).processFrame = (none,{ completed session frame with
      state := if frame.isFinal then .messageReady else session.app.stateMachine.state
      message })) :
    Follows (complete random (session.parsed ⟨sentFrame frame.opcode frame.isFinal frame.isMasked
        frame.key frame.payload,[],.completed⟩ frame.bytes.length))
      (assembly.fragment frame.isFinal message.opcode message.payload) := by
  rw [complete_completed,hprocess]
  cases hfinal : frame.isFinal with
  | true =>
    simp only [if_true,processState,withMachine,MessageAssembly.fragment]
    apply Follows.of_socket
    · simp only [takeMessage,← h.delivered]
      rfl
    · simp only [takeMessage,MessageAssembly.blocks_append]
      have hread := congrArg (· ++ [(message.opcode,message.payload)]) h.readBuffer
      exact hread
    · exact h.ready.1
    · rfl
    · rfl
    · exact ⟨rfl,rfl⟩
    · exact ⟨rfl,by rintro ⟨⟩⟩
  | false =>
    have hconnected := h.ready.2
    simp only [Bool.false_eq_true,if_false,processState,withMachine,MessageAssembly.fragment,
      hconnected]
    apply Follows.of_socket
    · exact h.delivered
    · exact h.readBuffer
    · exact h.ready.1
    · rfl
    · rfl
    · exact ⟨rfl,rfl⟩
    · exact ⟨hmessage,by rw [if_neg (by rintro ⟨⟩)]; exact ⟨rfl,rfl⟩⟩

theorem Follows.violated {session : WebSocketSession WebSocket} {assembly : MessageAssembly}
    (h : Follows session assembly) {session' : WebSocketSession WebSocket}
    (hdelivered : session'.app.delivered = session.app.delivered)
    (hread : session'.app.readBuffer = session.app.readBuffer)
    (hoptions : session'.app.options = session.app.options) (hready : Ready session')
    (herror : session'.error.isSome) :
    Follows session' { assembly with violated := true } where
  delivered := hdelivered.trans h.delivered
  readBuffer := by rw [hread,hoptions,h.readBuffer]
  error := herror
  parser := fun hnone => by simp [hnone] at herror
  ready := hready
  message := fun hnone => by simp [hnone] at herror

theorem Follows.refused {session : WebSocketSession WebSocket} {assembly : MessageAssembly}
    {frame : SentFrame} {error : String} (h : Follows session assembly)
    (hprocess : (completed session frame).processFrame = (some error,completed session frame)) :
    Follows (complete random (session.parsed ⟨sentFrame frame.opcode frame.isFinal frame.isMasked
        frame.key frame.payload,[],.completed⟩ frame.bytes.length))
      { assembly with violated := true } := by
  rw [complete_completed,hprocess]
  exact @Follows.violated session assembly h
    ⟨(completed session frame).frameParser,0,session.app.withMachine (completed session frame),
      some error⟩ rfl rfl rfl h.ready rfl

theorem Follows.step {session : WebSocketSession WebSocket} {assembly : MessageAssembly}
    {frame : SentFrame} (h : Follows session assembly)
    (hfits : ¬ (¬ assembly.violated ∧ assembly.interrupted ∧ frame.Accepted ∧
      ¬ frame.opcode.IsControl)) :
    Follows (session.deliver (complete random) frame.bytes) (assembly.take frame) := by
  have hready := @deliver_ready random session frame.bytes h.ready
  cases herror : session.error with
  | some error =>
    have hviolated : assembly.violated = true := by simpa [herror] using h.error.symm
    rw [WebSocketSession.deliver_of_error (by simp [herror]),MessageAssembly.take,if_pos hviolated]
    exact h
  | none =>
    have hviolated : assembly.violated = false := by simpa [herror] using h.error.symm
    obtain ⟨hstate,hbuffer⟩ := h.parser herror
    by_cases haccepted : frame.Accepted
    · by_cases hcontrol : frame.opcode.IsControl
      · exact h.control herror haccepted hcontrol
      have hinterrupted : assembly.interrupted = false := by
        simpa [hviolated,haccepted,hcontrol] using hfits
      have hmessage := h.message herror
      have hprocess := processFrame_completed session (SentFrame.Accepted.ne_undefined haccepted)
      rw [if_neg hcontrol] at hprocess
      rw [deliver_accepted herror hstate hbuffer haccepted] at hready ⊢
      have htake : assembly.take frame =
          match assembly.message with
          | some (opcode,payload) =>
            if frame.opcode = .continuation then
              assembly.fragment frame.isFinal opcode (payload ++ frame.payload)
            else { assembly with violated := true }
          | none =>
            if frame.opcode = .continuation then { assembly with violated := true }
            else assembly.fragment frame.isFinal frame.opcode frame.payload := by
        simp [MessageAssembly.take,hviolated,haccepted,hcontrol]
      rw [htake]
      cases hopen : assembly.message with
      | none =>
        simp only [hopen] at hmessage ⊢
        simp only [hmessage.1,if_true,ne_eq,not_true_eq_false,if_false] at hprocess
        by_cases hcontinuation : frame.opcode = .continuation
        · rw [if_pos hcontinuation] at hprocess ⊢
          simpa only [hopen] using h.refused hprocess
        · rw [if_neg hcontinuation] at hprocess ⊢
          exact @Follows.fragment random session assembly frame ⟨frame.opcode,1,frame.payload⟩ h
            (SentFrame.Accepted.ne_undefined haccepted) hprocess
      | some message =>
        obtain ⟨opcode,payload⟩ := message
        simp only [hopen,hinterrupted,Bool.false_eq_true,if_false] at hmessage ⊢
        obtain ⟨hopcode,rfl,rfl⟩ := hmessage
        simp only [hopcode,if_false,ne_eq,not_false_eq_true,if_true] at hprocess
        by_cases hcontinuation : frame.opcode = .continuation
        · rw [if_pos hcontinuation] at hprocess ⊢
          exact @Follows.fragment random session assembly frame
            ⟨session.app.stateMachine.message.opcode,
              session.app.stateMachine.message.frameCount + 1,
              session.app.stateMachine.message.payload ++ frame.payload⟩ h hopcode hprocess
        · rw [if_neg hcontinuation] at hprocess ⊢
          simpa only [hopen,hinterrupted] using h.refused hprocess
    · obtain ⟨parser,error,hrefused⟩ := @deliver_refused random session frame herror hstate hbuffer
        haccepted
      have htake : assembly.take frame = { assembly with violated := true } := by
        simp [MessageAssembly.take,hviolated,haccepted]
      rw [hrefused] at hready ⊢
      rw [htake]
      exact h.violated rfl rfl rfl hready rfl

theorem Follows.interrupted {session : WebSocketSession WebSocket} {assembly : MessageAssembly}
    {frame : SentFrame} (h : Follows session assembly) (hviolated : ¬ assembly.violated)
    (hinterrupted : assembly.interrupted) (haccepted : frame.Accepted)
    (hcontrol : ¬ frame.opcode.IsControl) :
    ¬ (ofSession (session.deliver (complete random) frame.bytes)).Delivers
      (assembly.take frame) := by
  have hassembly : assembly.violated = false := by simpa using hviolated
  have herror : session.error = none := by simpa [hassembly] using h.error
  obtain ⟨hstate,hbuffer⟩ := h.parser herror
  have hmessage := h.message herror
  have hprocess := processFrame_completed session (SentFrame.Accepted.ne_undefined haccepted)
  rw [if_neg hcontrol] at hprocess
  cases hopen : assembly.message with
  | none =>
    simp only [hopen] at hmessage
    exact absurd hinterrupted hmessage.2
  | some message =>
    obtain ⟨opcode,payload⟩ := message
    simp only [hopen,hinterrupted,if_true] at hmessage
    simp only [hmessage.2,if_true,ne_eq,not_true_eq_false,if_false] at hprocess
    have htake : assembly.take frame =
        if frame.opcode = .continuation then
          assembly.fragment frame.isFinal opcode (payload ++ frame.payload)
        else { assembly with violated := true } := by
      simp [MessageAssembly.take,hassembly,haccepted,hcontrol,hopen]
    rw [deliver_accepted herror hstate hbuffer haccepted,complete_completed,htake]
    intro hdelivers
    have hioError := hdelivers.ioError
    by_cases hcontinuation : frame.opcode = .continuation
    · rw [if_pos hcontinuation] at hprocess hioError
      have hfragment : (assembly.fragment frame.isFinal opcode
          (payload ++ frame.payload)).violated = false := by
        unfold MessageAssembly.fragment
        split <;> rfl
      rw [hprocess,hfragment] at hioError
      cases hioError
    · rw [if_neg hcontinuation] at hprocess hioError
      rw [hprocess] at hioError
      have hnone : (ofSession (toSession ((session.app.withMachine { completed session frame with
          state := if frame.isFinal then .messageReady else session.app.stateMachine.state
          message := ⟨frame.opcode,1,frame.payload⟩ }).processState random))).ioError = none := by
        rw [ofSession_toSession] <;> exact (processState_ioError _).trans h.ready.1
      rw [hnone] at hioError
      cases hioError

def wire (frames : List SentFrame) : List UInt8 :=
  frames.flatMap SentFrame.bytes

theorem deliver_wire {session : WebSocketSession WebSocket} (frame : SentFrame)
    (frames : List SentFrame) (hopen : session.Open) :
    session.deliver (complete random) (wire (frame :: frames)) =
      (session.deliver (complete random) frame.bytes).deliver (complete random) (wire frames) := by
  have hpair := WebSocketSession.deliver_flatten (@complete_open random) hopen
    [frame.bytes,wire frames]
  simpa [wire] using hpair.symm

/-- A run delivers right after each of its frames exactly if no control frame makes it lose an
unfinished message. -/
theorem Follows.delivers_iff {session : WebSocketSession WebSocket} {assembly : MessageAssembly}
    (h : Follows session assembly) (frames : List SentFrame) :
    (∀ n, (ofSession (session.deliver (complete random) (wire (frames.take n)))).Delivers
      ((frames.take n).foldl MessageAssembly.take assembly)) ↔ ¬ assembly.Interrupted frames := by
  induction frames generalizing session assembly with
  | nil =>
    have hnil : session.deliver (complete random) (wire []) = session := rfl
    simp only [List.take_nil,List.foldl_nil,hnil,MessageAssembly.Interrupted,not_false_eq_true,
      iff_true]
    exact fun _ => h.delivers
  | cons frame frames ih =>
    rw [MessageAssembly.Interrupted,not_or]
    have hsplit : (∀ n, (ofSession (session.deliver (complete random)
          (wire ((frame :: frames).take n)))).Delivers
          (((frame :: frames).take n).foldl MessageAssembly.take assembly)) ↔
        ∀ n, (ofSession ((session.deliver (complete random) frame.bytes).deliver (complete random)
          (wire (frames.take n)))).Delivers
          ((frames.take n).foldl MessageAssembly.take (assembly.take frame)) := by
      constructor
      · intro hall n
        have hnext := hall (n + 1)
        rwa [List.take_succ_cons,deliver_wire _ _ h.open] at hnext
      · intro hall n
        cases n with
        | zero => exact h.delivers
        | succ n =>
          rw [List.take_succ_cons,deliver_wire _ _ h.open]
          exact hall n
    rw [hsplit]
    by_cases hfits : ¬ assembly.violated ∧ assembly.interrupted ∧ frame.Accepted ∧
        ¬ frame.opcode.IsControl
    · have hlost := @Follows.interrupted random session assembly frame h hfits.1 hfits.2.1
        hfits.2.2.1 hfits.2.2.2
      exact ⟨fun hall => absurd (hall 0) hlost,fun hnot => absurd hfits hnot.1⟩
    · rw [ih (h.step hfits)]
      exact ⟨fun hrest => ⟨hfits,hrest⟩,fun hboth => hboth.2⟩

theorem connected_follows (socket : WebSocket) :
    Follows (toSession socket.connected) MessageAssembly.initial :=
  .of_socket rfl rfl rfl rfl rfl ⟨rfl,rfl⟩ ⟨rfl,nofun⟩

/-- The socket delivers every message and every control frame of a sequence once and in order, and
reports exactly the violations of the fragmentation rules, after each of its frames and in every
chunking, if and only if no control frame interrupts a message that another data frame follows. -/
theorem receive_delivers_iff (socket : WebSocket) (frames : List SentFrame) :
    (∀ n chunks, chunks.flatten = wire (frames.take n) →
      (socket.connected.receive random chunks).Delivers
        (MessageAssembly.assemble (frames.take n))) ↔
      ¬ MessageAssembly.initial.Interrupted frames := by
  have hfollows := connected_follows socket
  have hsession : ofSession (toSession socket.connected) = socket.connected :=
    ofSession_toSession rfl
  rw [← @Follows.delivers_iff random _ _ hfollows frames]
  constructor
  · intro hall n
    have hone := hall n [wire (frames.take n)] (by simp)
    rwa [← hsession,receive_eq hfollows.open hfollows.ready,List.flatten_singleton] at hone
  · intro hall n chunks hchunks
    rw [← hsession,receive_eq hfollows.open hfollows.ready,hchunks]
    exact hall n

/-- A ping between the two fragments of a message: the second fragment ends the connection. -/
theorem receive_pingInside :
    ¬ ∀ (socket : WebSocket) (frames : List SentFrame) (chunks : List (List UInt8)),
      chunks.flatten = wire frames →
      (socket.connected.receive (fun _ => 0) chunks).Delivers
        (MessageAssembly.assemble frames) := by
  intro h
  have hdelivers := h
    ⟨⟨.connected,.initial,.clear⟩,⟨true,false,false⟩,false,false,[],[],1024,0,[],none,[]⟩
    [⟨.text,false,false,0,[0x61],by decide⟩,⟨.ping,true,false,0,[],by decide⟩,
      ⟨.continuation,true,false,0,[0x62],by decide⟩]
    [[0x01,0x01,0x61],[0x89,0x00],[0x80,0x01,0x62]] (by decide)
  exact absurd hdelivers.ioError (by decide)

end WebSocket

end Jancy.Io
