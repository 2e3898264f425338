import Jancy.Io.AsyncIoBase
import Jancy.Lib.CircularBuffer
import Mathlib.Algebra.GroupWithZero.Nat

/-! `AsyncIoDevice`: in each direction a buffer, what overflows from it, and a list with the sizes
of the blocks. Each function is what it does under the lock. -/
namespace Jancy.Io

inductive Platform where
  | win
  | posix
  deriving DecidableEq, Repr

namespace AsyncIoDeviceEvent

def incomingData : Events := 0x0002
def readBufferFull : Events := 0x0004
def writeBufferEmpty : Events := 0x0008

end AsyncIoDeviceEvent

/-- `m_options` as far as the buffers look at them and `IoThreadFlag_Datagram`, which the options
follow wherever it is set. -/
structure DeviceMode where
  keepReadBlockSize : Bool
  keepWriteBlockSize : Bool
  datagram : Bool
  keeps : datagram = true → keepReadBlockSize = true ∧ keepWriteBlockSize = true

theorem keeps_stream : false = true → false = true ∧ false = true := by
  rintro ⟨⟩

def DeviceMode.ofDatagram : DeviceMode := ⟨true,true,true,fun _ => ⟨rfl,rfl⟩⟩

structure ReadWriteMeta (α : Type) where
  dataSize : ℕ
  params : List α
  deriving DecidableEq, Repr

/-- What a call gives back: `none` for -1, else its result, with the bytes and the parameters. -/
structure DeviceReturn (α : Type) where
  result : Option ℕ
  data : List α
  params : List α
  deriving DecidableEq, Repr

structure AsyncIoDevice (α : Type) where
  isOpen : Bool
  mode : DeviceMode
  activeEvents : Events
  readBuffer : CircularBuffer α
  readOverflowBuffer : List α
  readMetaList : List (ReadWriteMeta α)
  writeBuffer : CircularBuffer α
  writeOverflowBuffer : List α
  writeMetaList : List (ReadWriteMeta α)

namespace AsyncIoDevice

variable {α : Type}

/-- A device as it is constructed, with the sizes of its buffers. -/
def ofSizes (readSize writeSize : ℕ+) : AsyncIoDevice α :=
  ⟨false,⟨false,false,false,keeps_stream⟩,0,.ofSize α readSize,[],[],.ofSize α writeSize,[],[]⟩

def open' (d : AsyncIoDevice α) (mode : DeviceMode) : AsyncIoDevice α :=
  { d with
    isOpen := true
    mode
    activeEvents := 0
    readBuffer := d.readBuffer.clear
    readOverflowBuffer := []
    writeBuffer := d.writeBuffer.clear }

def close (platform : Platform) (d : AsyncIoDevice α) : AsyncIoDevice α :=
  match platform with
  | .win => { d with isOpen := false, readMetaList := [], writeMetaList := [] }
  | .posix => { d with isOpen := false }

/-- A buffer takes a new size, unless there is no memory for it. -/
def resized (b : CircularBuffer α) (size : ℕ+) (result : Bool) : CircularBuffer α :=
  if result then .ofSize α size else b

def setReadBufferSize (d : AsyncIoDevice α) (size : ℕ+) (result : Bool) :
    AsyncIoDevice α :=
  if d.readBuffer.bufferSize = size then d
  else
    { d with
      readMetaList := []
      readBuffer := resized d.readBuffer.clear size result
      readOverflowBuffer := []
      activeEvents := d.activeEvents &&&
        ~~~ (AsyncIoDeviceEvent.readBufferFull ||| AsyncIoDeviceEvent.incomingData) }

def setWriteBufferSize (d : AsyncIoDevice α) (size : ℕ+) (result : Bool) :
    AsyncIoDevice α :=
  if d.writeBuffer.bufferSize = size then d
  else
    { d with
      writeMetaList := []
      writeBuffer := resized d.writeBuffer.clear size result }

def getMetaListDataSize (l : List (ReadWriteMeta α)) : ℕ := (l.map ReadWriteMeta.dataSize).sum

def takeReadMeta (d : AsyncIoDevice α) (size : ℕ) : List α × ℕ × List (ReadWriteMeta α) :=
  match d.readMetaList with
  | [] => ([],size,[])
  | m :: rest =>
      if m.dataSize ≤ size then (m.params,m.dataSize,rest)
      else if d.mode.datagram then (m.params,size,rest)
      else (m.params,size,{ m with dataSize := m.dataSize - size } :: rest)

/-- The bytes that the two buffers give, and what is left in them. -/
def readBytes (d : AsyncIoDevice α) (size : ℕ) : List α × CircularBuffer α × List α :=
  let (p,readBuffer) := d.readBuffer.read size
  if p ≠ [] ∧ d.readOverflowBuffer ≠ [] then
    if readBuffer.isEmpty = false then
      let (movedSize,readBuffer) := readBuffer.write d.readOverflowBuffer
      (p,readBuffer,d.readOverflowBuffer.drop movedSize)
    else
      let extraSize := min d.readOverflowBuffer.length (size - p.length)
      let (movedSize,readBuffer) := readBuffer.write (d.readOverflowBuffer.drop extraSize)
      (p ++ d.readOverflowBuffer.take extraSize,readBuffer,
        d.readOverflowBuffer.drop (extraSize + movedSize))
  else (p,readBuffer,d.readOverflowBuffer)

def bufferedRead (d : AsyncIoDevice α) (size : ℕ) : DeviceReturn α × AsyncIoDevice α :=
  if d.isOpen = false then (⟨none,[],[]⟩,d)
  else
    let (params,size,readMetaList) := d.takeReadMeta size
    let (p,readBuffer,readOverflowBuffer) := d.readBytes size
    let activeEvents := if readBuffer.isFull then d.activeEvents
      else d.activeEvents &&& ~~~ AsyncIoDeviceEvent.readBufferFull
    let activeEvents := if readBuffer.isEmpty && readMetaList.isEmpty then
        activeEvents &&& ~~~ AsyncIoDeviceEvent.incomingData
      else activeEvents
    (⟨some p.length,p,params⟩,
      { d with readBuffer, readOverflowBuffer, readMetaList, activeEvents })

def addToReadBuffer (d : AsyncIoDevice α) (p params : List α) : AsyncIoDevice α :=
  if p = [] ∧ d.mode.keepReadBlockSize = false then d
  else
    let (addedSize,readBuffer) := d.readBuffer.write p
    { d with
      readBuffer
      readOverflowBuffer := if addedSize < p.length then d.readOverflowBuffer ++ p.drop addedSize
        else d.readOverflowBuffer
      readMetaList := if d.mode.keepReadBlockSize then d.readMetaList ++ [⟨p.length,params⟩]
        else d.readMetaList }

def addToWriteBuffer (d : AsyncIoDevice α) (p params : List α) : ℕ × AsyncIoDevice α :=
  if d.writeBuffer.isFull then (0,d)
  else
    let (result,writeBuffer) := d.writeBuffer.write p
    let overflows := decide (result < p.length) && d.mode.datagram
    let writeOverflowBuffer := if overflows then d.writeOverflowBuffer ++ p.drop result
      else d.writeOverflowBuffer
    let result := if overflows then p.length else result
    let writeMetaList := if d.mode.keepWriteBlockSize then d.writeMetaList ++ [⟨result,params⟩]
      else d.writeMetaList
    let activeEvents := if writeBuffer.isEmpty && writeMetaList.isEmpty then d.activeEvents
      else d.activeEvents &&& ~~~ AsyncIoDeviceEvent.writeBufferEmpty
    (result,{ d with writeBuffer, writeOverflowBuffer, writeMetaList, activeEvents })

def bufferedWrite (d : AsyncIoDevice α) (p params : List α) : DeviceReturn α × AsyncIoDevice α :=
  if d.isOpen = false then (⟨none,[],[]⟩,d)
  else
    let (result,d) := d.addToWriteBuffer p params
    (⟨some result,[],[]⟩,d)

/-- A block that is not empty stays as it is. -/
def getNextWriteBlock (d : AsyncIoDevice α) (block : Block α) : Block α × AsyncIoDevice α :=
  if block.data ≠ [] then (block,d)
  else
    match d.writeMetaList with
    | [] =>
        let (data,writeBuffer) := d.writeBuffer.readAll
        (⟨data ++ d.writeOverflowBuffer,[]⟩,{ d with writeBuffer, writeOverflowBuffer := [] })
    | m :: rest =>
        let (p,writeBuffer) := d.writeBuffer.read m.dataSize
        if p.length < m.dataSize then
          -- the overflow holds the rest of the last block, and nothing else
          (⟨p ++ d.writeOverflowBuffer.take (m.dataSize - p.length),m.params⟩,
            { d with writeBuffer, writeOverflowBuffer := [], writeMetaList := rest })
        else (⟨p,m.params⟩,{ d with writeBuffer, writeMetaList := rest })

def updateReadWriteBufferEvents (d : AsyncIoDevice α) : AsyncIoDevice α :=
  let activeEvents := if d.readBuffer.isFull then
      d.activeEvents ||| AsyncIoDeviceEvent.readBufferFull else d.activeEvents
  let activeEvents := if d.readBuffer.isEmpty && d.readMetaList.isEmpty then activeEvents
    else activeEvents ||| AsyncIoDeviceEvent.incomingData
  let activeEvents := if d.writeBuffer.isEmpty && d.writeMetaList.isEmpty then
      activeEvents ||| AsyncIoDeviceEvent.writeBufferEmpty else activeEvents
  { d with activeEvents }

end AsyncIoDevice
end Jancy.Io
