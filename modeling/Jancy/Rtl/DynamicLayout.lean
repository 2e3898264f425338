import Jancy.Lib.Feed
import Jancy.Ct.FieldDecl

/-! `DynamicLayout`: the functions that a layout coroutine calls, the promise it awaits, and the
loop of `resume` that feeds it. -/
namespace Jancy.Rtl

open Ct (LayoutType PtrTypeFlags)

abbrev Byte := UInt8

def sizeMax : ℕ := 2 ^ 64 - 1

/-- The difference of two `size_t`. -/
def subSize (a b : ℕ) : ℕ := (a + 2 ^ 64 - b) % 2 ^ 64

inductive DynamicLayoutMode where
  | block | stream
  deriving DecidableEq, Repr

inductive DynamicLayoutAwaitKind where
  | none | size | char
  deriving DecidableEq, Repr

/-- The kinds of a notification; fields come with and without bits. -/
inductive SectionKind where
  | undefined | struct | array | field | bitField
  deriving DecidableEq, Repr

structure NotificationParams where
  sectionKind : SectionKind := .undefined
  offset : ℕ := 0
  elementCount : ℕ := 0
  bitOffset : ℕ := 0
  bitCount : ℕ := 0
  ptrTypeFlags : PtrTypeFlags := ⟨false,0⟩
  deriving DecidableEq, Repr

/-- What the sink is told; `p` is what its pointer gives access to. -/
inductive Notification (D τ : Type) where
  | onSection (decl : Option D) (type : Option τ) (params : NotificationParams) (p : List Byte)
  | onGroupOpened (decl : Option D) (offset : ℕ)
  | onGroupClosed (decl : Option D) (offset : ℕ) (p : List Byte) (size : ℕ)

structure Group (D : Type) where
  decl : Option D
  offset : ℕ

/-- Of a promise: its state, its result, and whether the coroutine stands in its wait list. -/
structure LayoutPromise where
  completed : Bool := false
  hasWait : Bool := false
  result : Option ℕ := none
  deriving DecidableEq, Repr

/-- `ptr` is what `m_ptr` gives access to, and `inBuffer` says that it points into `m_buffer`.
`log` is what the sink was told so far; the top of `groupStack` comes first. -/
structure DynamicLayout (D τ : Type) where
  buffer : List Byte := []
  ptr : List Byte := []
  inBuffer : Bool := false
  sink : Bool := false
  promise : Option LayoutPromise := none
  auxPromise : Option LayoutPromise := none
  size : ℕ := 0
  bufferSize : ℕ := 0
  sizeLimit : ℕ := sizeMax
  mode : DynamicLayoutMode := .block
  awaitKind : DynamicLayoutAwaitKind := .none
  awaitChar : Byte := 0
  currentDecl : Option D := none
  currentType : Option τ := none
  pending : NotificationParams := {}
  groupStack : List (Group D) := []
  lastBitFieldType : Option τ := none
  lastBitOffset : ℕ := 0
  lastBitCount : ℕ := 0
  log : List (Notification D τ) := []

inductive SizeStatus where
  | error | complete | incomplete
  deriving DecidableEq, Repr

/-- The outcome of a call: a failed assertion, an error, a value, or a promise to await. -/
inductive CallResult (D τ : Type) where
  | assertion
  | threw (l : DynamicLayout D τ)
  | returned (value : ℕ) (l : DynamicLayout D τ)
  | promised (l : DynamicLayout D τ)

/-- The functions that add a section go on only if there is room for it. -/
def CallResult.ofAdded {D τ : Type} (added : Option (SizeStatus × DynamicLayout D τ))
    (go : SizeStatus → DynamicLayout D τ → CallResult D τ) : CallResult D τ :=
  match added with
  | none => .assertion
  | some (.error,l) => .threw l
  | some (status,l) => go status l

namespace DynamicLayout

variable {D τ : Type}

def reset (l : DynamicLayout D τ) (mode : DynamicLayoutMode) (sink : Bool) (data : List Byte) :
    DynamicLayout D τ :=
  { l with
    buffer := []
    promise := none
    sink
    mode
    ptr := data
    inBuffer := false
    size := 0
    bufferSize := data.length
    currentDecl := none
    currentType := none
    pending := {}
    groupStack := []
    lastBitFieldType := none
    awaitKind := .none }

/-- The two promises take turns; one that is used again has to be done with. -/
def preparePromise (l : DynamicLayout D τ) : Option (DynamicLayout D τ) :=
  match l.auxPromise with
  | none => some { l with auxPromise := l.promise, promise := some {} }
  | some p =>
      if p.completed && !p.hasWait then
        some { l with auxPromise := l.promise, promise := some {} }
      else none

def prepareForAwait (l : DynamicLayout D τ) : Option (DynamicLayout D τ) :=
  (if l.inBuffer then l else { l with buffer := l.ptr.take l.bufferSize }).preparePromise

/-- `Promise::complete` on the layout's own promise; the first completion counts. -/
def completePromise (l : DynamicLayout D τ) (result : Option ℕ) : DynamicLayout D τ :=
  { l with
    promise := l.promise.map fun p =>
      if p.completed then p else { p with completed := true, result } }

def addSize (l : DynamicLayout D τ) (size : ℕ) (isAsync : Bool) :
    Option (SizeStatus × DynamicLayout D τ) :=
  if size > l.sizeLimit ∨ l.size > l.sizeLimit - size then some (.error,l)
  else
    let l := { l with size := l.size + size }
    if l.size ≤ l.bufferSize then some (.complete,l)
    else if isAsync = false ∨ l.mode ≠ .stream then some (.error,l)
    else l.prepareForAwait.map fun l => (.incomplete,{ l with awaitKind := .size })

/-- Tells the sink about a section with `m_currentDecl` and `m_currentType`. -/
def notify (l : DynamicLayout D τ) (params : NotificationParams) : DynamicLayout D τ :=
  { l with
    log := l.log ++
      [.onSection l.currentDecl l.currentType params (l.ptr.drop params.offset)]
    currentDecl := none
    currentType := none }

def sendPendingNotification (l : DynamicLayout D τ) : DynamicLayout D τ :=
  { l.notify l.pending with pending := {} }

/-- A section is reported at once, or in `resume` when its bytes have come. -/
def report (l : DynamicLayout D τ) (status : SizeStatus) (decl : Option D) (type : τ)
    (params : NotificationParams) : DynamicLayout D τ :=
  if l.sink then
    let l := { l with currentDecl := decl, currentType := some type }
    if status ≠ .complete then { l with pending := params } else l.notify params
  else l

/-- What of the data at hand has not been laid out yet is searched first. -/
def asyncScanTo (l : DynamicLayout D τ) (c : Byte) : CallResult D τ :=
  if l.awaitKind ≠ .none then .threw l
  else
    match ((l.ptr.take l.bufferSize).drop l.size).findIdx? (· == c), l.mode with
    | none, .stream =>
        match l.prepareForAwait with
        | none => .assertion
        | some l => .promised { l with awaitKind := .char, awaitChar := c }
    | none, .block =>
        match l.preparePromise with
        | none => .assertion
        | some l => .promised (l.completePromise (some (subSize l.bufferSize l.size)))
    | some distance, _ =>
        match l.preparePromise with
        | none => .assertion
        | some l => .promised (l.completePromise (some distance))

def openGroup (l : DynamicLayout D τ) (decl : Option D) : CallResult D τ :=
  let group : Group D := ⟨if l.sink then decl else none,l.size⟩
  let l := { l with groupStack := group :: l.groupStack }
  .returned group.offset
    (if l.sink then { l with log := l.log ++ [.onGroupOpened group.decl group.offset] } else l)

def closeGroups (l : DynamicLayout D τ) (count : ℕ) : CallResult D τ :=
  let stop := min l.size l.bufferSize
  let closed := l.groupStack.take count
  let l := { l with groupStack := l.groupStack.drop count }
  .returned 0
    (if l.sink then
      { l with
        log := l.log ++ closed.map fun group =>
          let offset := min group.offset stop
          .onGroupClosed group.decl group.offset (l.ptr.drop offset) (stop - offset) }
    else l)

/-- The property `m_shouldAwait`. -/
def shouldAwait (l : DynamicLayout D τ) : Bool :=
  decide (l.mode = .stream) && decide (l.size > l.bufferSize)

/-- What `resume` checks first. -/
def isResumable (l : DynamicLayout D τ) : Bool :=
  l.promise.isSome && decide (l.awaitKind ≠ .none)

/-- `packetLeftover`, once the bytes at hand are enough. -/
def packetLeftover (l : DynamicLayout D τ) (bytes : List Byte) : Option ℕ :=
  match l.awaitKind with
  | .none => none
  | .size =>
      if bytes.length < l.size - l.bufferSize then none else some (l.size - l.bufferSize)
  | .char => bytes.findIdx? (· == l.awaitChar)

def append (l : DynamicLayout D τ) (bytes : List Byte) : DynamicLayout D τ :=
  { l with buffer := l.buffer ++ bytes, bufferSize := (l.buffer ++ bytes).length }

/-- The await is satisfied by `bytes`: the buffer grows, the sink is told, and the promise is
completed. -/
def satisfy (l : DynamicLayout D τ) (bytes : List Byte) : DynamicLayout D τ :=
  let awaitResult :=
    if l.awaitKind = .char then some (subSize (l.bufferSize + bytes.length) l.size) else none
  let l := l.append bytes
  let l := { l with awaitKind := .none, ptr := l.buffer, inBuffer := true }
  let l := if l.pending.sectionKind ≠ .undefined then l.sendPendingNotification else l
  l.completePromise awaitResult

variable [LayoutType τ]

def addStruct (l : DynamicLayout D τ) (type : τ) (isAsync : Bool) : CallResult D τ :=
  let offset := l.size
  .ofAdded (l.addSize (LayoutType.size type) isAsync) fun status l =>
    .returned offset { l.report status none type { sectionKind := .struct, offset } with
      lastBitFieldType := none }

/-- `none` where the product does not fit `size_t`. -/
def getArraySize (type : τ) (elementCount : ℕ) : Option ℕ :=
  if elementCount ≠ 0 ∧ LayoutType.size type > sizeMax / elementCount then none
  else some (LayoutType.size type * elementCount)

def addArray (l : DynamicLayout D τ) (decl : Option D) (type : τ) (elementCount : ℕ)
    (ptrTypeFlags : PtrTypeFlags) (isAsync : Bool) : CallResult D τ :=
  let offset := l.size
  match getArraySize type elementCount with
  | none => .threw l
  | some size =>
      if size = sizeMax then .threw l
      else
        .ofAdded (l.addSize size isAsync) fun status l =>
          .returned offset
            { l.report status decl type
                { sectionKind := .array, offset, elementCount, ptrTypeFlags } with
              lastBitFieldType := none }

def addField (l : DynamicLayout D τ) (decl : Option D) (type : τ) (ptrTypeFlags : PtrTypeFlags)
    (isAsync : Bool) : CallResult D τ :=
  let offset := l.size
  .ofAdded (l.addSize (LayoutType.size type) isAsync) fun status l =>
    .returned offset
      { l.report status decl type { sectionKind := .field, offset, ptrTypeFlags } with
        lastBitFieldType := none }

def mergeBitField [DecidableEq τ] (l : DynamicLayout D τ) (type : τ) (bitCount : ℕ)
    (ptrTypeFlags : PtrTypeFlags) : Bool × ℕ :=
  let baseBitCount := LayoutType.size type * 8
  let isMerged := decide (l.lastBitFieldType = some type)
  if ptrTypeFlags.bigEndian then
    if !isMerged then (false,baseBitCount - bitCount)
    else
      let isMerged := decide (l.lastBitOffset ≥ bitCount)
      (isMerged,if isMerged then l.lastBitOffset - bitCount else baseBitCount - bitCount)
  else
    if !isMerged then (false,0)
    else
      let lastBitOffset := l.lastBitOffset + l.lastBitCount
      let isMerged := decide (lastBitOffset + bitCount ≤ baseBitCount)
      (isMerged,if isMerged then lastBitOffset else 0)

/-- The value holds the offset in its upper bits and the bit offset in the lowest eight. -/
def addBitField [DecidableEq τ] (l : DynamicLayout D τ) (decl : Option D) (type : τ)
    (bitCount : ℕ) (ptrTypeFlags : PtrTypeFlags) (isAsync : Bool) : CallResult D τ :=
  let size := LayoutType.size type
  if bitCount > size * 8 then .threw l
  else
    let (isMerged,bitOffset) := l.mergeBitField type bitCount ptrTypeFlags
    -- a merged field shares bytes with the previous bit field
    let offset := if isMerged then l.size - size else l.size
    .ofAdded (if isMerged then some (.complete,l) else l.addSize size isAsync) fun status l =>
      .returned (offset * 2 ^ 8 + bitOffset)
        { l.report status decl type
            { sectionKind := .bitField, offset, bitOffset, bitCount, ptrTypeFlags } with
          lastBitFieldType := some type
          lastBitOffset := bitOffset
          lastBitCount := bitCount }

end DynamicLayout

inductive LayoutCall (D τ : Type) where
  | asyncScanTo (c : Byte)
  | addStruct (type : τ) (isAsync : Bool)
  | addArray (decl : Option D) (type : τ) (elementCount : ℕ) (ptrTypeFlags : PtrTypeFlags)
      (isAsync : Bool)
  | addField (decl : Option D) (type : τ) (ptrTypeFlags : PtrTypeFlags) (isAsync : Bool)
  | addBitField (decl : Option D) (type : τ) (bitCount : ℕ) (ptrTypeFlags : PtrTypeFlags)
      (isAsync : Bool)
  | openGroup (decl : Option D)
  | closeGroups (count : ℕ)
  | setSizeLimit (sizeLimit : ℕ)

/-- What a call, with its await, hands back to the coroutine. -/
inductive Reply where
  | value (n : ℕ)
  | null
  | error
  deriving DecidableEq, Repr

/-- A layout coroutine: in each of its states it ends, or makes a call and goes on with the
reply. Nothing says that it ever ends. -/
structure Coroutine (S D τ : Type) where
  next : S → Option (LayoutCall D τ × (Reply → S))

/-- Where a coroutine stands. A waiting one has its reply already, unless it is the promise's
result. -/
inductive CoroutinePc (S : Type) where
  | running (s : S)
  | waiting (reply : Option Reply) (resume : Reply → S)
  | finished
  | aborted

structure LayoutRun (S D τ : Type) where
  layout : DynamicLayout D τ
  pc : CoroutinePc S
  replies : List Reply := []

def replyOf : Option ℕ → Reply
  | none => .null
  | some n => .value n

def LayoutCall.isAsync {D τ : Type} : LayoutCall D τ → Bool
  | .addStruct _ isAsync | .addArray _ _ _ _ isAsync | .addField _ _ _ isAsync
  | .addBitField _ _ _ _ isAsync => isAsync
  | _ => false

/-- The function behind a call. -/
def LayoutCall.perform {D τ : Type} [LayoutType τ] [DecidableEq τ] (l : DynamicLayout D τ) :
    LayoutCall D τ → CallResult D τ
  | .asyncScanTo c => l.asyncScanTo c
  | .addStruct type isAsync => l.addStruct type isAsync
  | .addArray decl type elementCount ptrTypeFlags isAsync =>
      l.addArray decl type elementCount ptrTypeFlags isAsync
  | .addField decl type ptrTypeFlags isAsync => l.addField decl type ptrTypeFlags isAsync
  | .addBitField decl type bitCount ptrTypeFlags isAsync =>
      l.addBitField decl type bitCount ptrTypeFlags isAsync
  | .openGroup decl => l.openGroup decl
  | .closeGroups count => l.closeGroups count
  | .setSizeLimit sizeLimit => .returned 0 { l with sizeLimit }

namespace LayoutRun

variable {S D τ : Type}

def continueWith (l : DynamicLayout D τ) (replies : List Reply) (resume : Reply → S) (r : Reply) :
    LayoutRun S D τ :=
  ⟨l,.running (resume r),replies ++ [r]⟩

/-- `await m_promise`. A completed promise resumes the coroutine at once. -/
def await (l : DynamicLayout D τ) (replies : List Reply) (reply : Option Reply)
    (resume : Reply → S) : LayoutRun S D τ :=
  match l.promise with
  | none => continueWith l replies resume .error
  | some p =>
      if p.completed then continueWith l replies resume (reply.getD (replyOf p.result))
      else
        ⟨{ l with promise := some { p with hasWait := true } },.waiting reply resume,replies⟩

def afterCall (c : LayoutRun S D τ) (isAsync : Bool) (resume : Reply → S) :
    CallResult D τ → LayoutRun S D τ
  | .assertion => { c with pc := .aborted }
  | .threw l => continueWith l c.replies resume .error
  | .returned value l =>
      if isAsync && l.shouldAwait then await l c.replies (some (.value value)) resume
      else continueWith l c.replies resume (.value value)
  | .promised l => await l c.replies none resume

def micro [LayoutType τ] [DecidableEq τ] (co : Coroutine S D τ) (c : LayoutRun S D τ) :
    Option (LayoutRun S D τ) :=
  match c.pc with
  | .running s =>
      match co.next s with
      | none => some { c with pc := .finished }
      | some (call,resume) =>
          some (c.afterCall call.isAsync resume (call.perform c.layout))
  | _ => none

/-- The coroutine runs until it waits or ends. -/
inductive Segment [LayoutType τ] [DecidableEq τ] (co : Coroutine S D τ) :
    LayoutRun S D τ → LayoutRun S D τ → Prop
  | halt {c : LayoutRun S D τ} (h : micro co c = none) : Segment co c c
  | step {c c' c'' : LayoutRun S D τ} (h : micro co c = some c') (hs : Segment co c' c'') :
      Segment co c c''

def satisfy (c : LayoutRun S D τ) (bytes : List Byte) : LayoutRun S D τ :=
  let l := c.layout.satisfy bytes
  match c.pc, c.layout.promise with
  | .waiting reply resume, some p =>
      if p.hasWait && !p.completed then
        continueWith l c.replies resume
          (reply.getD (replyOf (l.promise.bind LayoutPromise.result)))
      else { c with layout := l }
  | _, _ => { c with layout := l }

/-- The wait leaves the list once the call of its handler is over. -/
def unwind (c : LayoutRun S D τ) : LayoutRun S D τ :=
  let erase (p : LayoutPromise) : LayoutPromise := if p.completed then { p with hasWait := false } else p
  { c with
    layout := { c.layout with
      promise := c.layout.promise.map erase
      auxPromise := c.layout.auxPromise.map erase } }

/-- The loop of `resume`. -/
def reader [LayoutType τ] [DecidableEq τ] (co : Coroutine S D τ) :
    Feed.Reader (LayoutRun S D τ) Byte where
  Awaiting c := c.layout.isResumable = true
  demand c bytes := c.layout.packetLeftover bytes
  store c bytes := { c with layout := c.layout.append bytes }
  satisfy := satisfy
  Wake c c' := ∃ c₁, Segment co c c₁ ∧ c' = c₁.unwind

/-- A layout in stream mode, with the data of `reset` and the coroutine at its first state. -/
def start (l : DynamicLayout D τ) (sink : Bool) (data : List Byte) (s : S) : LayoutRun S D τ :=
  ⟨l.reset .stream sink data,.running s,[]⟩

end LayoutRun
end Jancy.Rtl
