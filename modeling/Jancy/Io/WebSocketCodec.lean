import Jancy.Io.WebSocketStream

/-! What is built is parsed back, wherever the stream is cut. -/
namespace Jancy.Io

open LittleEndian

namespace WebSocketFrameParser

/-- The frame that the builder writes down. -/
def sentFrame (opcode : WebSocketFrameOpcode) (isFinal isMasked : Bool) (key : UInt32)
    (payload : List UInt8) : WebSocketFrame where
  opcode := opcode.bits
  reserved := 0
  fin := isFinal
  lengthCode :=
    if payload.length < 126 then BitVec.ofNat 7 payload.length
    else if payload.length < 65536 then 126 else 127
  mask := isMasked
  payloadLength := payload.length
  maskKey := if isMasked then key else 0
  payload := payload

/-- Why the parser refuses a built frame. -/
def refusal (opcode : WebSocketFrameOpcode) (isFinal : Bool) (payloadSize : ℕ) : Option String :=
  if opcode = .undefined then some "unknown frame opcode"
  else if opcode.IsControl ∧ !isFinal then some "fragmented control frame"
  else if payloadSize > maxPayloadLength then some "payload length too large"
  else none

theorem parseLoop_piece (turns : ℕ) {parser next : WebSocketFrameParser} {piece : List UInt8}
    (rest : List UInt8) (hpiece : piece ≠ []) (hcollected : parser.collected = [])
    (htarget : parser.targetSize = piece.length)
    (haccept : (parser.append piece).accept = (none,next)) :
    parseLoop (turns + 1) parser (piece ++ rest) =
      taken piece.length (parseLoop turns next rest) := by
  have hstate : parser.state ≠ .completed := by
    intro hstate
    have hlength := List.length_pos_iff.mpr hpiece
    rw [← htarget,targetSize,hstate] at hlength
    exact absurd hlength (Nat.lt_irrefl 0)
  have hlong := @parseLoop_long turns parser (piece ++ rest) piece.length
    (by simp [hpiece]) hstate (by rw [hcollected,htarget,List.length_nil,Nat.zero_add])
    (by rw [List.length_append]; omega)
  rw [hlong,List.take_left,List.drop_left,haccept]

theorem parseLoop_refused (turns : ℕ) {parser next : WebSocketFrameParser} {piece : List UInt8}
    {error : String} (rest : List UInt8) (hpiece : piece ≠ []) (hcollected : parser.collected = [])
    (htarget : parser.targetSize = piece.length)
    (haccept : (parser.append piece).accept = (some error,next)) :
    parseLoop (turns + 1) parser (piece ++ rest) = (.error error,next) := by
  have hstate : parser.state ≠ .completed := by
    intro hstate
    have hlength := List.length_pos_iff.mpr hpiece
    rw [← htarget,targetSize,hstate] at hlength
    exact absurd hlength (Nat.lt_irrefl 0)
  have hlong := @parseLoop_long turns parser (piece ++ rest) piece.length
    (by simp [hpiece]) hstate (by rw [hcollected,htarget,List.length_nil,Nat.zero_add])
    (by rw [List.length_append]; omega)
  rw [hlong,List.take_left,haccept]

theorem parseLoop_payload (turns : ℕ) {frame : WebSocketFrame} {body : List UInt8}
    (rest : List UInt8) (hlength : frame.payloadLength = body.length)
    (hpayload : frame.payload = []) :
    parseLoop (turns + 1) ⟨frame,[],frame.getPayloadState⟩ (body ++ rest) =
      (.ok body.length,
        ⟨{ frame with payload := if frame.mask then mask frame.maskKey body else body },[],
          .completed⟩) := by
  unfold WebSocketFrame.getPayloadState
  by_cases hbody : body = []
  · subst hbody
    rw [if_neg (by simpa using hlength),parseLoop_completed _ _ rfl]
    obtain ⟨hdr,payloadLength,maskKey,payload⟩ := frame
    cases hpayload
    simp [mask,store]
  · have hne : frame.payloadLength ≠ 0 := by simpa [hlength] using hbody
    have haccept : (append ⟨frame,[],.payload⟩ body).accept =
        (none,⟨{ frame with payload := if frame.mask then mask frame.maskKey body else body },[],
          .completed⟩) := by
      simp only [accept,acceptPayload,append,hpayload,List.nil_append]
      cases frame.mask <;> rfl
    rw [if_pos hne,@parseLoop_piece turns ⟨frame,[],.payload⟩ _ body rest hbody hpayload hlength
      haccept,parseLoop_completed _ _ rfl]
    rfl

theorem parseLoop_mask (turns : ℕ) {frame : WebSocketFrame} {key : UInt32} {body : List UInt8}
    (rest : List UInt8) (hlength : frame.payloadLength = body.length)
    (hpayload : frame.payload = []) (hkey : frame.maskKey = 0) :
    parseLoop (turns + 2) ⟨frame,[],frame.getMaskState⟩
      ((if frame.mask then store 4 key.toNat else []) ++ body ++ rest) =
      (.ok ((if frame.mask then store 4 key.toNat else []).length + body.length),
        ⟨{ frame with
          maskKey := if frame.mask then key else 0
          payload := if frame.mask then mask key body else body },[],.completed⟩) := by
  unfold WebSocketFrame.getMaskState
  cases hmask : frame.mask with
  | false =>
    simp only [Bool.false_eq_true,if_false,List.nil_append,List.length_nil,Nat.zero_add]
    rw [parseLoop_payload (turns + 1) rest hlength hpayload,hmask]
    simp [← hkey]
  | true =>
    have hload : UInt32.ofNat (load (store 4 key.toNat)) = key := by
      rw [load_store_of_lt key.toNat_lt,UInt32.ofNat_toNat]
    simp only [if_true,List.append_assoc]
    have hpiece := @parseLoop_piece (turns + 1) ⟨frame,[],.maskKey⟩
      ⟨{ frame with maskKey := key },[],frame.getPayloadState⟩ (store 4 key.toNat) (body ++ rest)
      nofun rfl (length_store 4 _).symm (by
        simp only [accept,acceptMaskKey,append,List.nil_append,hload]
        rfl)
    have hbody := @parseLoop_payload turns { frame with maskKey := key } body rest hlength hpayload
    simp only [hmask,if_true] at hbody
    rw [hpiece]
    exact congrArg (taken _) hbody

/-- The bytes of the length behind the header. -/
def lengthBytes (size : ℕ) : List UInt8 :=
  if size < 126 then []
  else if size < 65536 then store 2 (swapByteOrder 2 size)
  else store 8 (swapByteOrder 8 size)

theorem buildWebSocketFrame_eq (opcode : WebSocketFrameOpcode) (isFinal isMasked : Bool)
    (key : UInt32) (payload : List UInt8) :
    buildWebSocketFrame opcode isFinal isMasked key payload =
      (sentFrame opcode isFinal isMasked key payload).toBytes ++ (lengthBytes payload.length ++
        ((if isMasked then store 4 key.toNat else []) ++
          if isMasked then mask key payload else payload)) := by
  unfold buildWebSocketFrame sentFrame lengthBytes
  cases isMasked with
  | false =>
    simp only [Bool.false_eq_true,if_false,List.nil_append]
    split
    · simp
    · split <;> simp
  | true =>
    simp only [if_true]
    split
    · simp
    · split <;> simp

def headerFrame (hdr : WebSocketFrameHdr) (payloadLength : ℕ) : WebSocketFrame :=
  { WebSocketFrame.clear with toWebSocketFrameHdr := hdr, payloadLength }

/-- Where an accepted header leads. -/
def afterHeader (hdr : WebSocketFrameHdr) : WebSocketFrameParser :=
  if hdr.lengthCode = 126 then ⟨headerFrame hdr 0,[],.payloadLength16⟩
  else if hdr.lengthCode = 127 then ⟨headerFrame hdr 0,[],.payloadLength64⟩
  else ⟨headerFrame hdr hdr.lengthCode.toNat,[],
    (headerFrame hdr hdr.lengthCode.toNat).getMaskState⟩

theorem accept_header (frame : WebSocketFrame) (hdr : WebSocketFrameHdr) :
    (append ⟨frame,[],.header⟩ hdr.toBytes).accept =
      match opcodeError hdr with
      | some error => (some error,⟨headerFrame hdr 0,hdr.toBytes,.header⟩)
      | none => (none,afterHeader hdr) := by
  have haccept : (append ⟨frame,[],.header⟩ hdr.toBytes).accept =
      acceptHeader ⟨frame,hdr.toBytes,.header⟩ := rfl
  rw [haccept,acceptHeader,WebSocketFrameHdr.ofBytes_toBytes]
  cases opcodeError hdr with
  | some error => rfl
  | none =>
    simp only [afterHeader]
    by_cases h16 : hdr.lengthCode = 126
    · rw [if_pos h16,if_pos h16]
      rfl
    · rw [if_neg h16,if_neg h16]
      by_cases h64 : hdr.lengthCode = 127
      · rw [if_pos h64,if_pos h64]
        rfl
      · rw [if_neg h64,if_neg h64]
        rfl

theorem opcodeError_sentFrame (opcode : WebSocketFrameOpcode) (isFinal isMasked : Bool)
    (key : UInt32) (payload : List UInt8) :
    opcodeError (sentFrame opcode isFinal isMasked key payload).toWebSocketFrameHdr =
      if opcode = .undefined then some "unknown frame opcode"
      else if opcode.IsControl ∧ !isFinal then some "fragmented control frame"
      else none := by
  unfold opcodeError sentFrame
  rw [WebSocketFrameOpcode.ofBits_bits]
  cases opcode <;> cases isFinal <;> rfl

/-- What is left of a frame behind its header. -/
theorem parseLoop_length {hdr : WebSocketFrameHdr} {key : UInt32} {body : List UInt8}
    (rest : List UInt8) (hsize : body.length < 2 ^ 64)
    (hcode : hdr.lengthCode = if body.length < 126 then BitVec.ofNat 7 body.length
      else if body.length < 65536 then 126 else 127) :
    ∃ next, parseLoop 3 (afterHeader hdr) (lengthBytes body.length ++
        ((if hdr.mask then store 4 key.toNat else []) ++ body ++ rest)) =
        (if body.length > maxPayloadLength then .error "payload length too large"
          else .ok ((lengthBytes body.length).length +
            ((if hdr.mask then store 4 key.toNat else []).length + body.length)),next) ∧
      (body.length ≤ maxPayloadLength → next = ⟨{ headerFrame hdr body.length with
        maskKey := if hdr.mask then key else 0
        payload := if hdr.mask then mask key body else body },[],.completed⟩) := by
  have hmask := fun turns => @parseLoop_mask turns (headerFrame hdr body.length) key body rest rfl
    rfl rfl
  by_cases hshort : body.length < 126
  · rw [if_pos hshort] at hcode
    have hnat : hdr.lengthCode.toNat = body.length := by
      rw [hcode,BitVec.toNat_ofNat]
      omega
    have hafter : afterHeader hdr = ⟨headerFrame hdr body.length,[],
        (headerFrame hdr body.length).getMaskState⟩ := by
      rw [afterHeader,if_neg,if_neg,hnat]
      · intro h
        rw [h] at hnat
        exact absurd hnat.symm (Nat.ne_of_lt (hshort.trans (by decide)))
      · intro h
        rw [h] at hnat
        exact absurd hnat.symm (Nat.ne_of_lt hshort)
    have hfits : ¬ body.length > maxPayloadLength := by
      unfold maxPayloadLength
      omega
    simp only [lengthBytes,if_pos hshort,if_neg hfits,List.nil_append,List.length_nil,
      Nat.zero_add,hafter]
    exact ⟨_,hmask 1,fun _ => rfl⟩
  rw [if_neg hshort] at hcode
  by_cases hmiddle : body.length < 65536
  · rw [if_pos hmiddle] at hcode
    have hfits : ¬ body.length > maxPayloadLength := by
      unfold maxPayloadLength
      omega
    have hpiece := @parseLoop_piece 2 ⟨headerFrame hdr 0,[],.payloadLength16⟩
      ⟨headerFrame hdr body.length,[],(headerFrame hdr body.length).getMaskState⟩
      (store 2 (swapByteOrder 2 body.length))
      ((if hdr.mask then store 4 key.toNat else []) ++ body ++ rest) (by rintro ⟨⟩) rfl
      (length_store 2 _).symm (by
        simp only [accept,acceptPayloadLength16,append,List.nil_append]
        rw [load_store_of_lt (swapByteOrder_lt 2 _),swapByteOrder_swapByteOrder hmiddle]
        rfl)
    simp only [lengthBytes,if_neg hshort,if_pos hmiddle,if_neg hfits,afterHeader,hcode,if_true,
      hpiece]
    exact ⟨_,congrArg (taken _) (hmask 0),fun _ => rfl⟩
  · rw [if_neg hmiddle] at hcode
    have hlength : swapByteOrder 8 (load (store 8 (swapByteOrder 8 body.length))) = body.length := by
      rw [load_store_of_lt (swapByteOrder_lt 8 _),swapByteOrder_swapByteOrder hsize]
    have hne : ¬ ((127 : BitVec 7) = 126) := by decide
    simp only [lengthBytes,if_neg hshort,if_neg hmiddle,afterHeader,hcode,if_neg hne,if_true]
    by_cases hfits : body.length > maxPayloadLength
    · have hpiece := @parseLoop_refused 2 ⟨headerFrame hdr 0,[],.payloadLength64⟩
        ⟨headerFrame hdr 0,store 8 (swapByteOrder 8 body.length),.payloadLength64⟩
        (store 8 (swapByteOrder 8 body.length)) "payload length too large"
        ((if hdr.mask then store 4 key.toNat else []) ++ body ++ rest) (by rintro ⟨⟩) rfl
        (length_store 8 _).symm (by
          simp only [accept,acceptPayloadLength64,append,List.nil_append,hlength,if_pos hfits])
      rw [hpiece,if_pos hfits]
      exact ⟨_,rfl,fun hle => absurd hle (Nat.not_le.mpr hfits)⟩
    · have hpiece := @parseLoop_piece 2 ⟨headerFrame hdr 0,[],.payloadLength64⟩
        ⟨headerFrame hdr body.length,[],(headerFrame hdr body.length).getMaskState⟩
        (store 8 (swapByteOrder 8 body.length))
        ((if hdr.mask then store 4 key.toNat else []) ++ body ++ rest) (by rintro ⟨⟩) rfl
        (length_store 8 _).symm (by
          simp only [accept,acceptPayloadLength64,append,List.nil_append,hlength,if_neg hfits]
          rfl)
      rw [hpiece,if_neg hfits]
      exact ⟨_,congrArg (taken _) (hmask 0),fun _ => rfl⟩

theorem parse_buildWebSocketFrame {parser : WebSocketFrameParser} (opcode : WebSocketFrameOpcode)
    (isFinal isMasked : Bool) (key : UInt32) (payload rest : List UInt8)
    (hstate : parser.state = .header) (hbuffer : parser.buffer = [])
    (hsize : payload.length < 2 ^ 64) :
    ∃ next, parser.parse (buildWebSocketFrame opcode isFinal isMasked key payload ++ rest) =
        (match refusal opcode isFinal payload.length with
          | some error => .error error
          | none => .ok (buildWebSocketFrame opcode isFinal isMasked key payload).length,next) ∧
      (refusal opcode isFinal payload.length = none →
        next = ⟨sentFrame opcode isFinal isMasked key payload,[],.completed⟩) := by
  obtain ⟨frame,buffer,state⟩ := parser
  cases hstate
  cases hbuffer
  have hopcode := opcodeError_sentFrame opcode isFinal isMasked key payload
  have haccept := accept_header frame
    (sentFrame opcode isFinal isMasked key payload).toWebSocketFrameHdr
  generalize hbody : (if isMasked then mask key payload else payload) = body
  have hlength : body.length = payload.length := by
    subst hbody
    cases isMasked <;> simp
  have hrest := @parseLoop_length
    (sentFrame opcode isFinal isMasked key payload).toWebSocketFrameHdr key body rest
    (hlength ▸ hsize) (by rw [hlength]; rfl)
  rw [buildWebSocketFrame_eq,hbody,parse]
  generalize hhdr : (sentFrame opcode isFinal isMasked key payload).toWebSocketFrameHdr = hdr at *
  have hmask : hdr.mask = isMasked := by rw [← hhdr]; rfl
  simp only [hmask,hlength] at hrest
  simp only [List.append_assoc] at hrest ⊢
  rw [hopcode] at haccept
  unfold refusal
  by_cases hundefined : opcode = .undefined
  · simp only [if_pos hundefined] at haccept ⊢
    exact ⟨_,parseLoop_refused 3 _ (by rintro ⟨⟩) rfl rfl haccept,by rintro ⟨⟩⟩
  simp only [if_neg hundefined] at haccept ⊢
  by_cases hcontrol : opcode.IsControl ∧ !isFinal
  · simp only [if_pos hcontrol] at haccept ⊢
    exact ⟨_,parseLoop_refused 3 _ (by rintro ⟨⟩) rfl rfl haccept,by rintro ⟨⟩⟩
  simp only [if_neg hcontrol] at haccept ⊢
  obtain ⟨next,hparse,hnext⟩ := hrest
  refine ⟨next,?_,fun hfits => ?_⟩
  · have hpiece := @parseLoop_piece 3 ⟨frame,[],.header⟩ _ hdr.toBytes (lengthBytes payload.length ++
      ((if isMasked then store 4 key.toNat else []) ++ (body ++ rest)))
      (by rintro ⟨⟩) rfl rfl haccept
    rw [State.turns,hpiece,hparse]
    by_cases hfits : payload.length > maxPayloadLength
    · simp only [if_pos hfits,taken]
    · simp only [if_neg hfits,taken,List.length_append,hlength]
  · have hle : payload.length ≤ maxPayloadLength := by
      by_contra hlt
      rw [if_pos (Nat.lt_of_not_le hlt)] at hfits
      cases hfits
    rw [hnext hle,← hhdr,← hbody]
    unfold headerFrame sentFrame
    cases isMasked <;> simp

end WebSocketFrameParser

open WebSocketFrameParser

namespace WebSocketSession

/-- A caller that keeps every frame with the number of bytes it took. -/
def logFrame (session : WebSocketSession (List (WebSocketFrame × ℕ))) :
    WebSocketSession (List (WebSocketFrame × ℕ)) :=
  { session with
    parser := session.parser.reset
    count := 0
    app := session.app ++ [(session.parser.frame,session.count)] }

/-- Everything the frames of a stream are parsed to. -/
def receive (chunks : List (List UInt8)) : WebSocketSession (List (WebSocketFrame × ℕ)) :=
  chunks.foldl (deliver logFrame) (initial [])

theorem logFrame_open (session : WebSocketSession (List (WebSocketFrame × ℕ))) :
    (logFrame session).Open :=
  fun _ => ⟨reset_valid _,nofun⟩

theorem receive_eq (chunks : List (List UInt8)) :
    receive chunks = deliver logFrame (initial []) chunks.flatten :=
  deliver_flatten logFrame_open (initial_open []) chunks

/-- A frame that is built is parsed back and the stream goes on behind it, however it is cut; what
is not a whole frame is refused; and no stream is parsed differently when it is cut differently. -/
theorem receive_buildWebSocketFrame :
    (∀ (opcode : WebSocketFrameOpcode) (isFinal isMasked : Bool) (key : UInt32)
      (payload rest : List UInt8) (chunks : List (List UInt8)), payload.length < 2 ^ 64 →
      chunks.flatten = buildWebSocketFrame opcode isFinal isMasked key payload ++ rest →
      match refusal opcode isFinal payload.length with
      | some error => (receive chunks).error = some error ∧ (receive chunks).app = []
      | none => ∃ frame : WebSocketFrame,
        frame.opcode = opcode.bits ∧ frame.fin = isFinal ∧ frame.payload = payload ∧
        receive chunks = deliver logFrame
          { initial [(frame,(buildWebSocketFrame opcode isFinal isMasked key payload).length)] with
            parser := ⟨frame,[],.header⟩ } rest) ∧
    ∀ chunks chunks' : List (List UInt8), chunks.flatten = chunks'.flatten →
      receive chunks = receive chunks' := by
  constructor
  · intro opcode isFinal isMasked key payload rest chunks hsize hchunks
    obtain ⟨next,hparse,hnext⟩ := @parse_buildWebSocketFrame WebSocketFrameParser.initial opcode
      isFinal isMasked key payload rest rfl rfl hsize
    rw [receive_eq,hchunks]
    have hbuilt : buildWebSocketFrame opcode isFinal isMasked key payload ≠ [] := by
      rw [buildWebSocketFrame_eq]
      nofun
    cases hrefusal : refusal opcode isFinal payload.length with
    | some error =>
      rw [hrefusal] at hparse
      have hfailed := @deliver_failed _ logFrame (initial []) _ next error rfl (by simp [hbuilt])
        hparse
      simp only [hfailed]
      exact ⟨rfl,rfl⟩
    | none =>
      rw [hrefusal] at hparse
      have hdone := hnext hrefusal
      have hframe := @deliver_frame _ logFrame logFrame_open (initial []) _ rest next rfl hbuilt
        hparse (by rw [hdone])
      refine ⟨sentFrame opcode isFinal isMasked key payload,rfl,rfl,rfl,?_⟩
      rw [hframe,hdone]
      simp [logFrame,parsed,initial,reset]
  · intro chunks chunks' h
    rw [receive_eq,receive_eq,h]

/-- A masked text frame that comes byte by byte. -/
theorem receive_maskedText :
    ∃ frame : WebSocketFrame, frame.opcode = WebSocketFrameOpcode.text.bits ∧ frame.fin = true ∧
      frame.payload = [0x48,0x65,0x6c,0x6c,0x6f] ∧
      receive ((buildWebSocketFrame .text true true 0x37fa213d
          [0x48,0x65,0x6c,0x6c,0x6f]).map fun byte => [byte]) =
        deliver logFrame { initial [(frame,11)] with parser := ⟨frame,[],.header⟩ } [] := by
  have hframe := receive_buildWebSocketFrame.1 .text true true 0x37fa213d
    [0x48,0x65,0x6c,0x6c,0x6f] []
    ((buildWebSocketFrame .text true true 0x37fa213d
      [0x48,0x65,0x6c,0x6c,0x6f]).map fun byte => [byte]) (by decide) (by decide)
  exact hframe

/-- A control frame built without the final bit is not parsed back. -/
theorem receive_fragmentedPing :
    ¬ ∀ (opcode : WebSocketFrameOpcode) (isFinal isMasked : Bool) (key : UInt32)
      (payload : List UInt8), ∃ frame : WebSocketFrame,
        frame.opcode = opcode.bits ∧ frame.fin = isFinal ∧ frame.payload = payload ∧
        (receive [buildWebSocketFrame opcode isFinal isMasked key payload]).app =
          [(frame,(buildWebSocketFrame opcode isFinal isMasked key payload).length)] := by
  intro h
  obtain ⟨frame,-,-,-,happ⟩ := h .ping false false 0 []
  have hnone : (receive [buildWebSocketFrame .ping false false 0 []]).app = [] := by decide
  rw [hnone] at happ
  cases happ

end WebSocketSession

end Jancy.Io
