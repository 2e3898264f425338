import Jancy.Lib.Feed
import Jancy.Lib.LittleEndian

/-! WebSocket frames on the wire: the header, the mask and the builder. -/
namespace Jancy.Io

open LittleEndian

inductive WebSocketFrameOpcode where
  | continuation
  | text
  | binary
  | close
  | ping
  | pong
  | undefined
  deriving DecidableEq,Repr

namespace WebSocketFrameOpcode

/-- The value of the enumerator in the four bits of the header. -/
def bits : WebSocketFrameOpcode → BitVec 4
  | continuation => 0x0
  | text => 0x1
  | binary => 0x2
  | close => 0x8
  | ping => 0x9
  | pong => 0xa
  | undefined => 0xf

/-- Values without an enumerator count as undefined. -/
def ofBits (field : BitVec 4) : WebSocketFrameOpcode :=
  if field = 0x0 then continuation
  else if field = 0x1 then text
  else if field = 0x2 then binary
  else if field = 0x8 then close
  else if field = 0x9 then ping
  else if field = 0xa then pong
  else undefined

def firstControl : WebSocketFrameOpcode := close

@[simp] theorem ofBits_bits (opcode : WebSocketFrameOpcode) : ofBits opcode.bits = opcode := by
  cases opcode <;> rfl

def IsControl (opcode : WebSocketFrameOpcode) : Prop :=
  opcode = close ∨ opcode = ping ∨ opcode = pong

instance : DecidablePred IsControl := fun opcode => by
  unfold IsControl
  infer_instance

end WebSocketFrameOpcode

structure WebSocketFrameHdr where
  opcode : BitVec 4
  reserved : BitVec 3
  fin : Bool
  lengthCode : BitVec 7
  mask : Bool
  deriving DecidableEq,Repr

namespace WebSocketFrameHdr

/-- The first bit field of a byte is in its low bits. -/
def toBytes (hdr : WebSocketFrameHdr) : List UInt8 :=
  [UInt8.ofNat (hdr.opcode.toNat + 16 * hdr.reserved.toNat + 128 * hdr.fin.toNat),
    UInt8.ofNat (hdr.lengthCode.toNat + 128 * hdr.mask.toNat)]

def ofBytes (bytes : List UInt8) : WebSocketFrameHdr where
  opcode := BitVec.ofNat 4 (bytes.getD 0 0).toNat
  reserved := BitVec.ofNat 3 ((bytes.getD 0 0).toNat / 16)
  fin := decide (128 ≤ (bytes.getD 0 0).toNat)
  lengthCode := BitVec.ofNat 7 (bytes.getD 1 0).toNat
  mask := decide (128 ≤ (bytes.getD 1 0).toNat)

@[simp] theorem ofBytes_toBytes (hdr : WebSocketFrameHdr) : ofBytes hdr.toBytes = hdr := by
  obtain ⟨opcode,reserved,fin,lengthCode,mask⟩ := hdr
  have hopcode := opcode.isLt
  have hreserved := reserved.isLt
  have hlengthCode := lengthCode.isLt
  have hfin := fin.toNat_lt
  have hmask := mask.toNat_lt
  simp only [ofBytes,toBytes,List.getD_cons_zero,List.getD_cons_succ,UInt8.toNat_ofNat',
    mk.injEq]
  refine ⟨?_,?_,?_,?_,?_⟩
  · apply BitVec.eq_of_toNat_eq
    rw [BitVec.toNat_ofNat]
    omega
  · apply BitVec.eq_of_toNat_eq
    rw [BitVec.toNat_ofNat]
    omega
  · cases fin <;> simp only [Bool.toNat_false,Bool.toNat_true] <;> simp <;> omega
  · apply BitVec.eq_of_toNat_eq
    rw [BitVec.toNat_ofNat]
    omega
  · cases mask <;> simp only [Bool.toNat_false,Bool.toNat_true] <;> simp <;> omega

end WebSocketFrameHdr

structure WebSocketFrame extends WebSocketFrameHdr where
  payloadLength : ℕ
  maskKey : UInt32
  payload : List UInt8
  deriving DecidableEq,Repr

def WebSocketFrame.clear : WebSocketFrame where
  opcode := 0
  reserved := 0
  fin := false
  lengthCode := 0
  mask := false
  payloadLength := 0
  maskKey := 0
  payload := []

/-- Whole words are masked. The part of the last one that lies behind the payload is in the
reserved space of the buffer and is never read. -/
def mask (key : UInt32) : List UInt8 → List UInt8
  | b₀ :: b₁ :: b₂ :: b₃ :: bytes =>
    store 4 (load [b₀,b₁,b₂,b₃] ^^^ key.toNat) ++ mask key bytes
  | bytes => store bytes.length (load bytes ^^^ key.toNat)

theorem mask_word {word : List UInt8} (bytes : List UInt8) (hword : word.length = 4)
    (key : UInt32) : mask key (word ++ bytes) =
      store 4 (load word ^^^ key.toNat) ++ mask key bytes := by
  match word,hword with
  | [b₀,b₁,b₂,b₃],_ => rfl

theorem mask_tail {bytes : List UInt8} (h : bytes.length < 4) (key : UInt32) :
    mask key bytes = store bytes.length (load bytes ^^^ key.toNat) := by
  match bytes,h with
  | [],_ | [_],_ | [_,_],_ | [_,_,_],_ => rfl

@[simp] theorem length_mask (key : UInt32) (bytes : List UInt8) :
    (mask key bytes).length = bytes.length := by
  fun_induction mask key bytes with
  | case1 b₀ b₁ b₂ b₃ bytes ih => simp [ih]; omega
  | case2 bytes => simp

@[simp] theorem mask_mask (key : UInt32) (bytes : List UInt8) :
    mask key (mask key bytes) = bytes := by
  fun_induction mask key bytes with
  | case1 b₀ b₁ b₂ b₃ bytes ih =>
    have hword := store_xor_load_store 4 (load [b₀,b₁,b₂,b₃]) key.toNat
    have hstored := store_load [b₀,b₁,b₂,b₃]
    rw [mask_word _ (length_store 4 _),ih,hword]
    exact congrArg (· ++ bytes) hstored
  | case2 bytes hshort =>
    have hlength : bytes.length < 4 := by
      match bytes with
      | [] | [_] | [_,_] | [_,_,_] => simp
      | b₀ :: b₁ :: b₂ :: b₃ :: bytes => exact absurd rfl (hshort b₀ b₁ b₂ b₃ bytes)
    rw [mask_tail (by simpa using hlength)]
    rw [length_store,store_xor_load_store,store_load]

def swapByteOrder (width n : ℕ) : ℕ :=
  load (store width n).reverse

@[simp] theorem swapByteOrder_swapByteOrder {width n : ℕ} (h : n < 2 ^ (8 * width)) :
    swapByteOrder width (swapByteOrder width n) = n := by
  have hlength : width = (store width n).reverse.length := by simp
  have hstore : store width (load (store width n).reverse) = (store width n).reverse := by
    conv_lhs => rw [hlength]
    simpa using store_load (store width n).reverse
  rw [swapByteOrder,swapByteOrder,hstore,List.reverse_reverse,load_store_of_lt h]

theorem swapByteOrder_lt (width n : ℕ) : swapByteOrder width n < 2 ^ (8 * width) := by
  have hlt := load_lt (store width n).reverse
  rwa [List.length_reverse,length_store] at hlt

/-- The key is what `RAND_bytes` put in front of the payload. -/
def buildWebSocketFrame (opcode : WebSocketFrameOpcode) (isFinal isMasked : Bool) (key : UInt32)
    (payload : List UInt8) : List UInt8 :=
  let hdr (lengthCode : BitVec 7) : List UInt8 :=
    WebSocketFrameHdr.toBytes ⟨opcode.bits,0,isFinal,lengthCode,isMasked⟩
  let start : List UInt8 :=
    if payload.length < 126 then hdr (BitVec.ofNat 7 payload.length)
    else if payload.length < 65536 then
      hdr 126 ++ store 2 (swapByteOrder 2 payload.length)
    else hdr 127 ++ store 8 (swapByteOrder 8 payload.length)
  if isMasked then start ++ store 4 key.toNat ++ mask key payload
  else start ++ payload

end Jancy.Io

/-! The frame parser, which can stop after every byte and go on with the next chunk. -/
namespace Jancy.Io

open LittleEndian

/-- The result of a loop, with the bytes that were taken before. -/
def taken {σ : Type} (copied : ℕ) : Except String ℕ × σ → Except String ℕ × σ
  | (.ok size,state) => (.ok (copied + size),state)
  | (.error error,state) => (.error error,state)

inductive WebSocketFrameParser.State where
  | header
  | payloadLength16
  | payloadLength64
  | maskKey
  | payload
  | completed
  deriving DecidableEq,Repr

/-- The frame is the caller's; the parser only points to it. -/
structure WebSocketFrameParser where
  frame : WebSocketFrame
  buffer : List UInt8
  state : WebSocketFrameParser.State
  deriving DecidableEq,Repr

namespace WebSocketFrameParser

def maxPayloadLength : ℕ := 0x7fffffffffffffff

def initial : WebSocketFrameParser := ⟨.clear,[],.header⟩

def reset (parser : WebSocketFrameParser) : WebSocketFrameParser :=
  { parser with state := .header, buffer := [] }

end WebSocketFrameParser

def WebSocketFrame.getPayloadState (frame : WebSocketFrame) : WebSocketFrameParser.State :=
  if frame.payloadLength ≠ 0 then .payload else .completed

def WebSocketFrame.getMaskState (frame : WebSocketFrame) : WebSocketFrameParser.State :=
  if frame.mask then .maskKey else frame.getPayloadState

namespace WebSocketFrameParser

/-- The size that each case of `parse` passes to `bufferUntil`. -/
def targetSize (parser : WebSocketFrameParser) : ℕ :=
  match parser.state with
  | .header => 2
  | .payloadLength16 => 2
  | .payloadLength64 => 8
  | .maskKey => 4
  | .payload => parser.frame.payloadLength
  | .completed => 0

/-- The array that each case of `parse` passes to `bufferUntil`. -/
def collected (parser : WebSocketFrameParser) : List UInt8 :=
  match parser.state with
  | .payload => parser.frame.payload
  | _ => parser.buffer

def append (parser : WebSocketFrameParser) (bytes : List UInt8) : WebSocketFrameParser :=
  match parser.state with
  | .payload => { parser with frame.payload := parser.frame.payload ++ bytes }
  | _ => { parser with buffer := parser.buffer ++ bytes }

/-- The number of bytes that `bufferUntil` copies. -/
def copySize (parser : WebSocketFrameParser) (size : ℕ) : ℕ :=
  min (parser.targetSize - parser.collected.length) size

def opcodeError (hdr : WebSocketFrameHdr) : Option String :=
  match WebSocketFrameOpcode.ofBits hdr.opcode with
  | .continuation | .text | .binary => none
  | .close | .ping | .pong => if hdr.fin then none else some "fragmented control frame"
  | .undefined => some "unknown frame opcode"

def acceptHeader (parser : WebSocketFrameParser) : Option String × WebSocketFrameParser :=
  let hdr := WebSocketFrameHdr.ofBytes parser.buffer
  let frame := { WebSocketFrame.clear with toWebSocketFrameHdr := hdr }
  match opcodeError hdr with
  | some error => (some error,{ parser with frame })
  | none =>
    if hdr.lengthCode = 126 then (none,⟨frame,[],.payloadLength16⟩)
    else if hdr.lengthCode = 127 then (none,⟨frame,[],.payloadLength64⟩)
    else
      let frame := { frame with payloadLength := hdr.lengthCode.toNat }
      (none,⟨frame,[],frame.getMaskState⟩)

def acceptPayloadLength16 (parser : WebSocketFrameParser) :
    Option String × WebSocketFrameParser :=
  let frame := { parser.frame with payloadLength := swapByteOrder 2 (load parser.buffer) }
  (none,⟨frame,[],frame.getMaskState⟩)

def acceptPayloadLength64 (parser : WebSocketFrameParser) :
    Option String × WebSocketFrameParser :=
  let payloadLength := swapByteOrder 8 (load parser.buffer)
  if payloadLength > maxPayloadLength then (some "payload length too large",parser)
  else
    let frame := { parser.frame with payloadLength }
    (none,⟨frame,[],frame.getMaskState⟩)

def acceptMaskKey (parser : WebSocketFrameParser) : Option String × WebSocketFrameParser :=
  let frame := { parser.frame with maskKey := UInt32.ofNat (load parser.buffer) }
  (none,⟨frame,[],frame.getPayloadState⟩)

def acceptPayload (parser : WebSocketFrameParser) : Option String × WebSocketFrameParser :=
  let frame := parser.frame
  let frame := if frame.mask then { frame with payload := mask frame.maskKey frame.payload }
    else frame
  (none,{ parser with frame, state := .completed })

/-- What each case of `parse` does once it has all its bytes. -/
def accept (parser : WebSocketFrameParser) : Option String × WebSocketFrameParser :=
  match parser.state with
  | .header => parser.acceptHeader
  | .payloadLength16 => parser.acceptPayloadLength16
  | .payloadLength64 => parser.acceptPayloadLength64
  | .maskKey => parser.acceptMaskKey
  | .payload => parser.acceptPayload
  | .completed => (none,parser)

/-- The loop of `parse`, with a bound for its turns. -/
def parseLoop : ℕ → WebSocketFrameParser → List UInt8 → Except String ℕ × WebSocketFrameParser
  | 0,parser,_ => (.ok 0,parser)
  | turns + 1,parser,bytes =>
    if bytes = [] ∨ parser.state = .completed then (.ok 0,parser)
    else
      let copied := parser.copySize bytes.length
      let parser := parser.append (bytes.take copied)
      if parser.collected.length < parser.targetSize then (.ok bytes.length,parser)
      else
        match parser.accept with
        | (some error,parser) => (.error error,parser)
        | (none,parser) => taken copied (parseLoop turns parser (bytes.drop copied))

/-- Each turn that does not end the loop leads to a later state. -/
def State.turns : State → ℕ
  | .header => 4
  | .payloadLength16 | .payloadLength64 => 3
  | .maskKey => 2
  | .payload => 1
  | .completed => 0

/-- An error stands for the result -1. -/
def parse (parser : WebSocketFrameParser) (bytes : List UInt8) :
    Except String ℕ × WebSocketFrameParser :=
  parseLoop parser.state.turns parser bytes

@[simp] theorem parseLoop_nil (turns : ℕ) (parser : WebSocketFrameParser) :
    parseLoop turns parser [] = (.ok 0,parser) := by
  cases turns with
  | zero => rfl
  | succ turns => rw [parseLoop,if_pos (.inl rfl)]

theorem parseLoop_completed (turns : ℕ) {parser : WebSocketFrameParser} (bytes : List UInt8)
    (hstate : parser.state = .completed) : parseLoop turns parser bytes = (.ok 0,parser) := by
  cases turns with
  | zero => rfl
  | succ turns => rw [parseLoop,if_pos (.inr hstate)]

/-- The assertion of `bufferUntil`, with what keeps it true. -/
structure Valid (parser : WebSocketFrameParser) : Prop where
  length_lt : parser.state ≠ .completed → parser.collected.length < parser.targetSize
  payload_nil : parser.state ≠ .header → parser.state ≠ .payload →
    parser.state ≠ .completed → parser.frame.payload = []

theorem reset_valid (parser : WebSocketFrameParser) : parser.reset.Valid where
  length_lt := fun _ => Nat.zero_lt_two
  payload_nil := fun h => absurd rfl h

@[simp] theorem append_state (parser : WebSocketFrameParser) (bytes : List UInt8) :
    (parser.append bytes).state = parser.state := by
  obtain ⟨frame,buffer,state⟩ := parser
  cases state <;> rfl

@[simp] theorem append_targetSize (parser : WebSocketFrameParser) (bytes : List UInt8) :
    (parser.append bytes).targetSize = parser.targetSize := by
  obtain ⟨frame,buffer,state⟩ := parser
  cases state <;> rfl

@[simp] theorem append_collected (parser : WebSocketFrameParser) (bytes : List UInt8) :
    (parser.append bytes).collected = parser.collected ++ bytes := by
  obtain ⟨frame,buffer,state⟩ := parser
  cases state <;> rfl

@[simp] theorem append_append (parser : WebSocketFrameParser) (xs ys : List UInt8) :
    (parser.append xs).append ys = parser.append (xs ++ ys) := by
  obtain ⟨frame,buffer,state⟩ := parser
  cases state <;> simp [append]

theorem parseLoop_short (turns : ℕ) {parser : WebSocketFrameParser} {bytes : List UInt8}
    (hbytes : bytes ≠ []) (hstate : parser.state ≠ .completed)
    (hshort : parser.collected.length + bytes.length < parser.targetSize) :
    parseLoop (turns + 1) parser bytes = (.ok bytes.length,parser.append bytes) := by
  have hcopied : parser.copySize bytes.length = bytes.length := min_eq_right (by omega)
  rw [parseLoop,if_neg (not_or.mpr ⟨hbytes,hstate⟩)]
  simp only [hcopied,List.take_length,append_collected,append_targetSize,List.length_append]
  rw [if_pos hshort]

theorem parseLoop_long (turns : ℕ) {parser : WebSocketFrameParser} {bytes : List UInt8}
    {missing : ℕ} (hbytes : bytes ≠ []) (hstate : parser.state ≠ .completed)
    (hmissing : parser.collected.length + missing = parser.targetSize)
    (hlong : missing ≤ bytes.length) :
    parseLoop (turns + 1) parser bytes =
      match (parser.append (bytes.take missing)).accept with
      | (some error,next) => (.error error,next)
      | (none,next) => taken missing (parseLoop turns next (bytes.drop missing)) := by
  have hcopied : parser.copySize bytes.length = missing := by
    rw [copySize,min_eq_left (by omega)]
    omega
  have hlength : (bytes.take missing).length = missing := by
    rw [List.length_take]
    omega
  rw [parseLoop,if_neg (not_or.mpr ⟨hbytes,hstate⟩)]
  simp only [hcopied,append_collected,append_targetSize,List.length_append,hlength]
  rw [if_neg (by omega)]

theorem Valid.append {parser : WebSocketFrameParser} (h : parser.Valid) {bytes : List UInt8}
    (hlt : parser.collected.length + bytes.length < parser.targetSize) :
    (parser.append bytes).Valid where
  length_lt := by simpa using fun _ => hlt
  payload_nil := by
    obtain ⟨frame,buffer,state⟩ := parser
    cases state with
    | payload => exact fun _ hstate => absurd rfl hstate
    | _ => exact h.payload_nil

theorem turns_getPayloadState (frame : WebSocketFrame) : frame.getPayloadState.turns ≤ 1 := by
  unfold WebSocketFrame.getPayloadState
  split <;> decide

theorem turns_getMaskState (frame : WebSocketFrame) : frame.getMaskState.turns ≤ 2 := by
  unfold WebSocketFrame.getMaskState
  split
  · decide
  · exact (turns_getPayloadState frame).trans (by decide)

theorem valid_getPayloadState {frame : WebSocketFrame} (hpayload : frame.payload = []) :
    Valid ⟨frame,[],frame.getPayloadState⟩ := by
  unfold WebSocketFrame.getPayloadState
  split
  case isTrue hlength =>
    exact ⟨fun _ => by simpa [collected,targetSize,hpayload] using Nat.pos_of_ne_zero hlength,
      fun _ hstate => absurd rfl hstate⟩
  case isFalse =>
    exact ⟨fun hstate => absurd rfl hstate,fun _ _ hstate => absurd rfl hstate⟩

theorem valid_getMaskState {frame : WebSocketFrame} (hpayload : frame.payload = []) :
    Valid ⟨frame,[],frame.getMaskState⟩ := by
  unfold WebSocketFrame.getMaskState
  split
  · exact ⟨fun _ => Nat.succ_pos 3,fun _ _ _ => hpayload⟩
  · exact valid_getPayloadState hpayload

theorem accept_ok {parser next : WebSocketFrameParser} (hstate : parser.state ≠ .completed)
    (hpayload : parser.state ≠ .header → parser.state ≠ .payload → parser.frame.payload = [])
    (h : parser.accept = (none,next)) :
    next.state.turns < parser.state.turns ∧ next.Valid := by
  obtain ⟨frame,buffer,state⟩ := parser
  cases state with
  | header =>
    simp only [accept,acceptHeader] at h
    split at h
    · cases h
    · split at h
      · cases h
        exact ⟨Nat.lt_succ_self 3,fun _ => Nat.zero_lt_two,fun _ _ _ => rfl⟩
      · split at h
        · cases h
          exact ⟨Nat.lt_succ_self 3,fun _ => Nat.succ_pos 7,fun _ _ _ => rfl⟩
        · cases h
          exact ⟨Nat.lt_of_le_of_lt (turns_getMaskState _) (Nat.le_succ 3),
            valid_getMaskState rfl⟩
  | payloadLength16 =>
    cases h
    exact ⟨Nat.lt_of_le_of_lt (turns_getMaskState _) (Nat.lt_succ_self 2),
      valid_getMaskState (hpayload nofun nofun)⟩
  | payloadLength64 =>
    simp only [accept,acceptPayloadLength64] at h
    split at h
    · cases h
    · cases h
      exact ⟨Nat.lt_of_le_of_lt (turns_getMaskState _) (Nat.lt_succ_self 2),
        valid_getMaskState (hpayload nofun nofun)⟩
  | maskKey =>
    cases h
    exact ⟨Nat.lt_of_le_of_lt (turns_getPayloadState _) (Nat.lt_succ_self 1),
      valid_getPayloadState (hpayload nofun nofun)⟩
  | payload =>
    cases h
    exact ⟨Nat.zero_lt_one,fun hcompleted => absurd rfl hcompleted,
      fun _ _ hcompleted => absurd rfl hcompleted⟩
  | completed => exact absurd rfl hstate

end WebSocketFrameParser

end Jancy.Io
