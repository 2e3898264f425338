import Jancy.Io.AsyncIoDevice

/-! The buffers of a device against two queues of blocks, over runs of calls. -/
namespace Jancy.Io

/-- Calls of the object and of its I/O thread. -/
inductive DeviceCall (α : Type) where
  | open (mode : DeviceMode)
  | close
  | bufferedRead (size : ℕ)
  | bufferedWrite (p params : List α)
  | addToReadBuffer (p params : List α)
  | getNextWriteBlock (block : Block α)
  | setReadBufferSize (size : ℕ+) (result : Bool)
  | setWriteBufferSize (size : ℕ+) (result : Bool)

/-- A device beside the queues it stands for, with what its calls have returned and what the
queues say they should. -/
structure BufferedRun (α : Type) where
  device : AsyncIoDevice α
  reads : BlockFifo α
  writes : BlockFifo α
  returned : List (DeviceReturn α)
  owed : List (DeviceReturn α)

/-- Size, bytes and parameters of a block. -/
def DeviceReturn.ofBlock {α : Type} (b : Block α) : DeviceReturn α :=
  ⟨some b.data.length,b.data,b.params⟩

namespace BufferedRun

variable {α : Type}

def initial (readSize writeSize : ℕ+) : BufferedRun α :=
  ⟨.ofSizes readSize writeSize,.empty false,.empty false,[],[]⟩

def return' (s : BufferedRun α) (returned owed : DeviceReturn α) : BufferedRun α :=
  { s with returned := s.returned ++ [returned], owed := s.owed ++ [owed] }

/-- What of a write is put into the queue: a datagram as a whole, of other data what fits. -/
def acceptedBlock (d : AsyncIoDevice α) (p params : List α) : Option (Block α) :=
  if d.writeBuffer.isFull then none
  else if d.mode.datagram then some ⟨p,params⟩
  else some ⟨p.take d.writeBuffer.space,params⟩

/-- `empties` tells whether a new size for a buffer is to drop its contents. The I/O thread runs
only while the device is open. -/
def step (platform : Platform) (empties : Bool) (s : BufferedRun α) :
    DeviceCall α → Option (BufferedRun α)
  | .open mode => some { s with
      device := s.device.open' mode
      reads := .empty mode.keepReadBlockSize
      writes := .empty mode.keepWriteBlockSize }
  | .close => some { s with device := s.device.close platform }
  | .bufferedRead size =>
      let (r,device) := s.device.bufferedRead size
      if s.device.isOpen = false then some ({ s with device }.return' r ⟨none,[],[]⟩)
      else
        let (b,reads) := s.reads.take s.device.mode.datagram size
        some ({ s with device, reads }.return' r (.ofBlock b))
  | .bufferedWrite p params =>
      let (r,device) := s.device.bufferedWrite p params
      if s.device.isOpen = false then some ({ s with device }.return' r ⟨none,[],[]⟩)
      else
        match acceptedBlock s.device p params with
        | none => some ({ s with device }.return' r ⟨some 0,[],[]⟩)
        | some b =>
            some ({ s with device, writes := s.writes.put b }.return' r
              ⟨some b.data.length,[],[]⟩)
  | .addToReadBuffer p params =>
      if s.device.isOpen = false then none
      else some { s with
        device := s.device.addToReadBuffer p params
        reads := s.reads.put ⟨p,params⟩ }
  | .getNextWriteBlock block =>
      if s.device.isOpen = false then none
      else
        let (r,device) := s.device.getNextWriteBlock block
        if block.data ≠ [] then some ({ s with device }.return' (.ofBlock r) (.ofBlock block))
        else
          let (b,writes) := s.writes.takeBlock
          some ({ s with device, writes }.return' (.ofBlock r) (.ofBlock b))
  | .setReadBufferSize size result => some { s with
      device := s.device.setReadBufferSize size result
      reads := if s.device.readBuffer.bufferSize = size ∨ empties = false then s.reads
        else s.reads.clear }
  | .setWriteBufferSize size result => some { s with
      device := s.device.setWriteBufferSize size result
      writes := if s.device.writeBuffer.bufferSize = size ∨ empties = false then s.writes
        else s.writes.clear }

end BufferedRun

/-- A queue whose bytes these are, and the sizes of whose blocks. -/
def Holds {α : Type} (bytes : List α) (metaList : List (ReadWriteMeta α)) : BlockFifo α → Prop
  | .stream bs => bytes = bs ∧ metaList = []
  | .blocks l => bytes = BlockFifo.bytesOf l ∧ metaList = l.map fun b => ⟨b.data.length,b.params⟩

namespace AsyncIoDevice

variable {α : Type} (d : AsyncIoDevice α)

def readBytesHeld : List α := d.readBuffer.data ++ d.readOverflowBuffer

def writeBytesHeld : List α := d.writeBuffer.data ++ d.writeOverflowBuffer

end AsyncIoDevice

namespace BufferedRun

variable {α : Type}

/-- All calls have returned what the queues say, and an open device holds what they hold. -/
structure Faithful (s : BufferedRun α) : Prop where
  returned : s.returned = s.owed
  reads : s.device.isOpen = true → Holds s.device.readBytesHeld s.device.readMetaList s.reads
  writes : s.device.isOpen = true → Holds s.device.writeBytesHeld s.device.writeMetaList s.writes
  readSizes : s.device.isOpen = true → s.device.mode.keepReadBlockSize = true →
    AsyncIoDevice.getMetaListDataSize s.device.readMetaList =
      s.device.readBuffer.data.length + s.device.readOverflowBuffer.length
  writeSizes : s.device.isOpen = true → s.device.mode.keepWriteBlockSize = true →
    AsyncIoDevice.getMetaListDataSize s.device.writeMetaList =
      s.device.writeBuffer.data.length + s.device.writeOverflowBuffer.length

/-- Nothing is left behind for the next session, no datagram is read in part, and no data is
written while the overflow of a datagram waits behind a main buffer with room. -/
def Seamless (empties : Bool) (s : BufferedRun α) : DeviceCall α → Prop
  | .open _ => s.device.readMetaList = [] ∧ s.device.writeMetaList = [] ∧
      s.device.writeOverflowBuffer = []
  | .bufferedRead size => s.device.isOpen = true → s.device.mode.datagram = true →
      ∀ m ∈ s.device.readMetaList.head?, m.dataSize ≤ size
  | .bufferedWrite p _ => s.device.isOpen = true →
      p.take s.device.writeBuffer.space ++ s.device.writeOverflowBuffer =
        s.device.writeOverflowBuffer ++ p.take s.device.writeBuffer.space
  | .getNextWriteBlock block => block.data = [] → ∀ m ∈ s.device.writeMetaList.head?,
      m.dataSize ≤ s.device.writeBuffer.data.length ∨
        m.dataSize = s.device.writeBytesHeld.length
  | .setReadBufferSize size _ => s.device.isOpen = true → s.device.readBuffer.bufferSize ≠ size →
      empties = true ∨ s.device.readBytesHeld = [] ∧ s.device.readMetaList = []
  | .setWriteBufferSize size _ =>
      s.device.isOpen = true → s.device.writeBuffer.bufferSize ≠ size →
      s.device.writeOverflowBuffer = [] ∧
        (empties = true ∨ s.device.writeBytesHeld = [] ∧ s.device.writeMetaList = [])
  | _ => True

end BufferedRun

section Holds

variable {α : Type} {bytes : List α} {metaList : List (ReadWriteMeta α)} {f : BlockFifo α}

theorem holds_empty_iff {keep : Bool} :
    Holds bytes metaList (.empty keep) ↔ bytes = [] ∧ metaList = [] := by
  cases keep
  · rfl
  · rfl

theorem holds_clear_iff : Holds bytes metaList f.clear ↔ bytes = [] ∧ metaList = [] := by
  cases f
  · rfl
  · rfl

section

variable (h : Holds bytes metaList f)

include h

theorem Holds.put (b : Block α) :
    Holds (bytes ++ b.data)
      (if f.keeps then metaList ++ [⟨b.data.length,b.params⟩] else metaList) (f.put b) := by
  cases f with
  | stream bs => exact ⟨by rw [h.1],h.2⟩
  | blocks l =>
    obtain ⟨rfl,rfl⟩ := h
    exact ⟨by simp,by simp [BlockFifo.keeps]⟩

theorem Holds.sizes (hkeep : f.keeps = true) :
    AsyncIoDevice.getMetaListDataSize metaList = bytes.length := by
  cases f with
  | stream bs => cases hkeep
  | blocks l =>
    obtain ⟨rfl,rfl⟩ := h
    clear hkeep
    induction l with
    | nil => rfl
    | cons b l ih =>
      simp only [AsyncIoDevice.getMetaListDataSize,List.map_cons,List.sum_cons,
        BlockFifo.bytesOf_cons,List.length_append] at ih ⊢
      rw [ih]

theorem Holds.unique {bytes' : List α} {metaList' : List (ReadWriteMeta α)}
    (h' : Holds bytes' metaList' f) :
    bytes = bytes' ∧ metaList = metaList' := by
  cases f with
  | stream bs => exact ⟨h.1.trans h'.1.symm,h.2.trans h'.2.symm⟩
  | blocks l => exact ⟨h.1.trans h'.1.symm,h.2.trans h'.2.symm⟩

theorem Holds.bytes_put {bytes' : List α} {metaList' : List (ReadWriteMeta α)} {b : Block α}
    (h' : Holds bytes' metaList' (f.put b)) :
    bytes' = bytes ++ b.data := h'.unique (h.put b) |>.1

theorem Holds.cons {m : ReadWriteMeta α} (hm : m ∈ metaList.head?) :
    ∃ b l, f = .blocks (b :: l) ∧ m = ⟨b.data.length,b.params⟩ := by
  cases f with
  | stream bs =>
    rw [h.2] at hm
    cases hm
  | blocks l =>
    rw [h.2] at hm
    cases l with
    | nil => cases hm
    | cons b l =>
      cases hm
      exact ⟨b,l,rfl,rfl⟩

theorem Holds.empties (hbytes : bytes = []) (hmeta : metaList = []) :
    Holds [] [] f := by
  rw [hbytes,hmeta] at h
  exact h

end

end Holds

namespace AsyncIoDevice

variable {α : Type} {d : AsyncIoDevice α}

/-- The main buffer is filled before anything overflows from it. -/
def ReadFull (d : AsyncIoDevice α) : Prop :=
  d.readOverflowBuffer ≠ [] → d.readBuffer.isFull = true

theorem refill_full (b : CircularBuffer α) (p : List α) (h : p.drop (b.write p).1 ≠ []) :
    (b.write p).2.isFull = true := by
  refine b.write_full ?_
  by_contra hle
  exact h (List.drop_eq_nil_of_le (Nat.le_of_not_lt hle))

theorem refill_bytes (b : CircularBuffer α) (p : List α) :
    (b.write p).2.data ++ p.drop (b.write p).1 = b.data ++ p := by
  rw [CircularBuffer.write_data,CircularBuffer.write_rest,List.append_assoc,List.take_append_drop]

theorem readBytes_spec (hfull : d.ReadFull) (size : ℕ) :
    (d.readBytes size).1 = d.readBytesHeld.take size ∧
      (d.readBytes size).2.1.data ++ (d.readBytes size).2.2 = d.readBytesHeld.drop size ∧
      ((d.readBytes size).2.2 ≠ [] → (d.readBytes size).2.1.isFull = true) := by
  unfold readBytes readBytesHeld
  by_cases hov : d.readOverflowBuffer = []
  · simp [hov]
  have hlen : d.readBuffer.data.length = d.readBuffer.bufferSize := by
    simpa [CircularBuffer.isFull] using hfull hov
  have hpos := d.readBuffer.positive
  by_cases hsize : size = 0
  · subst hsize
    refine ⟨by simp,by simp,fun _ => ?_⟩
    simpa [CircularBuffer.isFull] using hlen
  have hp : (d.readBuffer.read size).1 ≠ [] := by
    intro hnil
    have := congrArg List.length hnil
    simp only [CircularBuffer.read_fst,List.length_take,List.length_nil] at this
    omega
  simp only [if_pos (And.intro hp hov)]
  by_cases hempty : (d.readBuffer.read size).2.isEmpty = false
  · have hlt : size < d.readBuffer.data.length := by
      by_contra hle
      have hnil := List.drop_eq_nil_of_le (Nat.le_of_not_lt hle)
      rw [Bool.eq_false_iff,Ne,CircularBuffer.isEmpty_iff,CircularBuffer.read_data] at hempty
      exact hempty hnil
    simp only [if_pos hempty]
    refine ⟨?_,?_,refill_full _ _⟩
    · rw [CircularBuffer.read_fst,List.take_append_of_le_length (Nat.le_of_lt hlt)]
    · rw [refill_bytes,CircularBuffer.read_data,List.drop_append_of_le_length (Nat.le_of_lt hlt)]
  · have hle : d.readBuffer.data.length ≤ size := by
      rw [Bool.not_eq_false,CircularBuffer.isEmpty_iff,CircularBuffer.read_data] at hempty
      exact List.drop_eq_nil_iff.mp hempty
    have htake : (d.readBuffer.read size).1 = d.readBuffer.data := by
      rw [CircularBuffer.read_fst,List.take_of_length_le hle]
    have hdrop : (d.readBuffer.read size).2.data = [] := by
      rw [CircularBuffer.read_data,List.drop_eq_nil_of_le hle]
    simp only [if_neg hempty,htake]
    have hextra : ∀ n, d.readOverflowBuffer.take (min d.readOverflowBuffer.length n) =
        d.readOverflowBuffer.take n := fun n => by
      rw [List.take_eq_take_iff]
      omega
    have hrest : ∀ n, d.readOverflowBuffer.drop (min d.readOverflowBuffer.length n) =
        d.readOverflowBuffer.drop n := fun n => by
      rcases Nat.le_total d.readOverflowBuffer.length n with hn | hn
      · rw [Nat.min_eq_left hn,List.drop_length,List.drop_eq_nil_of_le hn]
      · rw [Nat.min_eq_right hn]
    rw [← List.drop_drop]
    refine ⟨?_,?_,refill_full _ _⟩
    · rw [hextra,List.take_append,List.take_of_length_le hle]
    · rw [refill_bytes,hdrop,hrest,List.nil_append,List.drop_append,
        List.drop_eq_nil_of_le hle,List.nil_append]

theorem takeReadMeta_spec {f : BlockFifo α} {metaList : List (ReadWriteMeta α)} {bytes : List α}
    (hm : d.readMetaList = metaList) (h : Holds bytes metaList f) (size : ℕ)
    (hcut : d.mode.datagram = true → ∀ m ∈ metaList.head?, m.dataSize ≤ size) :
    bytes.take (d.takeReadMeta size).2.1 = (f.take d.mode.datagram size).1.data ∧
      (d.takeReadMeta size).1 = (f.take d.mode.datagram size).1.params ∧
      Holds (bytes.drop (d.takeReadMeta size).2.1) (d.takeReadMeta size).2.2
        (f.take d.mode.datagram size).2 := by
  unfold takeReadMeta
  rw [hm]
  cases f with
  | stream bs =>
    obtain ⟨rfl,rfl⟩ := h
    exact ⟨rfl,rfl,rfl,rfl⟩
  | blocks l =>
    obtain ⟨rfl,rfl⟩ := h
    cases l with
    | nil => exact ⟨by simp [BlockFifo.take],rfl,by simp,rfl⟩
    | cons b l =>
      simp only [List.map_cons,BlockFifo.bytesOf_cons,BlockFifo.take]
      by_cases hsize : b.data.length ≤ size
      · simp only [if_pos hsize,if_pos (Or.inr hsize : d.mode.datagram = true ∨ _)]
        exact ⟨by simp [List.take_of_length_le hsize],trivial,by simp [Holds]⟩
      · have hmode : d.mode.datagram ≠ true := by
          intro hd
          exact hsize (hcut hd ⟨b.data.length,b.params⟩ (by simp))
        have hlt := Nat.le_of_lt (Nat.lt_of_not_le hsize)
        simp only [if_neg hsize,if_neg hmode,if_neg (not_or.mpr ⟨hmode,hsize⟩)]
        refine ⟨List.take_append_of_le_length hlt,trivial,?_,?_⟩
        · simp [List.drop_append_of_le_length hlt]
        · simp

theorem readBytes_rest (hfull : d.ReadFull) {b : Block α} {l : List (Block α)}
    (hbytes : d.readBytesHeld = b.data ++ BlockFifo.bytesOf l) {size : ℕ}
    (hsize : size < b.data.length) :
    (d.readBytes size).2.1.data ++ (d.readBytes size).2.2 ≠ BlockFifo.bytesOf l := by
  intro heq
  have hlen := congrArg List.length heq
  rw [(readBytes_spec hfull size).2.1,hbytes,List.length_drop,List.length_append] at hlen
  omega

theorem write_overflow (b : CircularBuffer α) {overflow p : List α}
    (h : p.take b.space ++ overflow = overflow ++ p.take b.space) :
    (b.write p).2.data ++ (overflow ++ p.drop (b.write p).1) = b.data ++ overflow ++ p := by
  calc (b.write p).2.data ++ (overflow ++ p.drop (b.write p).1)
      = b.data ++ (p.take b.space ++ overflow) ++ p.drop (b.write p).1 := by simp
    _ = b.data ++ overflow ++ (p.take b.space ++ p.drop (b.write p).1) := by rw [h]; simp
    _ = b.data ++ overflow ++ p := by rw [CircularBuffer.write_rest,List.take_append_drop]

theorem drop_written {b : CircularBuffer α} {p : List α} (h : ¬ (b.write p).1 < p.length) :
    p.drop (b.write p).1 = [] := List.drop_eq_nil_of_le (Nat.le_of_not_lt h)

theorem ReadFull.commutes (hfull : d.ReadFull) (p : List α) :
    p.take d.readBuffer.space ++ d.readOverflowBuffer =
      d.readOverflowBuffer ++ p.take d.readBuffer.space := by
  by_cases hov : d.readOverflowBuffer = []
  · simp [hov]
  · simp [d.readBuffer.isFull_iff.mp (hfull hov)]

theorem addToReadBuffer_bytes (p params : List α) (hfull : d.ReadFull) :
    (d.addToReadBuffer p params).readBytesHeld = d.readBytesHeld ++ p ∧
      (d.addToReadBuffer p params).ReadFull := by
  have hbytes := write_overflow d.readBuffer (hfull.commutes p)
  unfold addToReadBuffer
  by_cases hnone : p = [] ∧ d.mode.keepReadBlockSize = false
  · rw [if_pos hnone,hnone.1,List.append_nil]
    exact ⟨rfl,hfull⟩
  rw [if_neg hnone]
  by_cases hpart : (d.readBuffer.write p).1 < p.length
  · simp only [ReadFull,readBytesHeld,if_pos hpart]
    exact ⟨hbytes,fun _ => d.readBuffer.write_full hpart⟩
  · rw [drop_written hpart,List.append_nil] at hbytes
    simp only [ReadFull,readBytesHeld,if_neg hpart]
    refine ⟨hbytes,fun hov => ?_⟩
    have hspace := d.readBuffer.isFull_iff.mp (hfull hov)
    rw [CircularBuffer.isFull_iff]
    simp only [CircularBuffer.space,CircularBuffer.write_bufferSize,CircularBuffer.write_data,
      List.length_append] at hspace ⊢
    omega

theorem addToReadBuffer_meta (p params : List α) :
    (d.addToReadBuffer p params).readMetaList =
      if d.mode.keepReadBlockSize then d.readMetaList ++ [⟨p.length,params⟩]
      else d.readMetaList := by
  unfold addToReadBuffer
  by_cases hkeep : d.mode.keepReadBlockSize = true
  · simp [hkeep]
  · split_ifs
    · rfl
    · rfl

/-- The part of a datagram that does not fit. -/
def excess (d : AsyncIoDevice α) (p : List α) : List α :=
  if d.mode.datagram then p.drop d.writeBuffer.space else []

variable {p params : List α}

section

variable (hroom : d.writeBuffer.isFull = false)

include hroom

theorem addToWriteBuffer_bytes :
    (d.addToWriteBuffer p params).2.writeBytesHeld = d.writeBuffer.data ++
      (p.take d.writeBuffer.space ++ d.writeOverflowBuffer) ++ d.excess p := by
  unfold addToWriteBuffer writeBytesHeld excess
  rw [hroom,if_neg Bool.false_ne_true]
  by_cases hmode : d.mode.datagram = true
  swap
  · simp [hmode]
  by_cases hle : p.length ≤ d.writeBuffer.space
  · simp [hmode,hle]
  · have hlt := Nat.lt_of_not_le hle
    simp [hmode,Nat.min_eq_right (Nat.le_of_lt hlt),hlt]

theorem addToWriteBuffer_result :
    (d.addToWriteBuffer p params).1 = (p.take d.writeBuffer.space ++ d.excess p).length := by
  unfold addToWriteBuffer excess
  rw [hroom,if_neg Bool.false_ne_true]
  by_cases hmode : d.mode.datagram = true
  swap
  · simp [hmode,Nat.min_comm]
  by_cases hle : p.length ≤ d.writeBuffer.space
  · simp [hmode,hle]
  · have hlt := Nat.lt_of_not_le hle
    simp [hmode,Nat.min_eq_right (Nat.le_of_lt hlt),hlt]

theorem addToWriteBuffer_meta :
    (d.addToWriteBuffer p params).2.writeMetaList =
      if d.mode.keepWriteBlockSize then
        d.writeMetaList ++ [⟨(d.addToWriteBuffer p params).1,params⟩]
      else d.writeMetaList := by
  unfold addToWriteBuffer
  rw [hroom,if_neg Bool.false_ne_true]

end

/-- What is taken from the main buffer first, and the rest from the overflow. -/
theorem getNextWriteBlock_spec {f : BlockFifo α} {block : Block α} (hblock : block.data = [])
    (h : Holds d.writeBytesHeld d.writeMetaList f)
    (hseam : ∀ m ∈ d.writeMetaList.head?, m.dataSize ≤ d.writeBuffer.data.length ∨
      m.dataSize = d.writeBytesHeld.length) :
    (d.getNextWriteBlock block).1 = f.takeBlock.1 ∧
      Holds (d.getNextWriteBlock block).2.writeBytesHeld
        (d.getNextWriteBlock block).2.writeMetaList f.takeBlock.2 := by
  unfold getNextWriteBlock
  rw [if_neg (not_not.mpr hblock)]
  unfold writeBytesHeld at *
  cases f with
  | stream bs =>
    obtain ⟨rfl,hm⟩ := h
    simp [hm,BlockFifo.takeBlock,Holds]
  | blocks l =>
    obtain ⟨hbytes,hm⟩ := h
    cases l with
    | nil =>
      rw [BlockFifo.bytesOf_nil,List.append_eq_nil_iff] at hbytes
      simp [hm,hbytes,BlockFifo.takeBlock,Holds]
    | cons b l =>
      rw [BlockFifo.bytesOf_cons] at hbytes
      have hseam : b.data.length ≤ d.writeBuffer.data.length ∨
          b.data.length = (d.writeBuffer.data ++ d.writeOverflowBuffer).length :=
        hseam ⟨b.data.length,b.params⟩ (by simp [hm])
      simp only [hm,List.map_cons,BlockFifo.takeBlock]
      by_cases hshort : ((d.writeBuffer.read b.data.length).1).length < b.data.length
      · have hall : b.data.length = (d.writeBuffer.data ++ d.writeOverflowBuffer).length := by
          refine hseam.resolve_left fun hle => ?_
          simp only [CircularBuffer.read_fst,List.length_take] at hshort
          omega
        have hrest : BlockFifo.bytesOf l = [] := by
          have hlen := congrArg List.length hbytes
          rw [← hall,List.length_append] at hlen
          exact List.eq_nil_of_length_eq_zero (by omega)
        rw [hrest,List.append_nil] at hbytes
        have hdata : (d.writeBuffer.read b.data.length).1 ++ d.writeOverflowBuffer.take
            (b.data.length - (d.writeBuffer.read b.data.length).1.length) = b.data := by
          have hmain : d.writeBuffer.data.length ≤ b.data.length := by
            rw [hall,List.length_append]
            omega
          rw [CircularBuffer.read_fst,List.take_of_length_le hmain,List.take_of_length_le,hbytes]
          rw [hall,List.length_append]
          omega
        have hmain : d.writeBuffer.data.drop b.data.length = [] := by
          refine List.drop_eq_nil_of_le ?_
          rw [hall,List.length_append]
          omega
        simp only [if_pos hshort]
        rw [hdata]
        simp [Holds,hmain,hrest]
      · have hle : b.data.length ≤ d.writeBuffer.data.length := by
          simp only [CircularBuffer.read_fst,List.length_take] at hshort
          omega
        have hdata : (d.writeBuffer.read b.data.length).1 = b.data := by
          have := congrArg (List.take b.data.length) hbytes
          simpa [List.take_append_of_le_length hle] using this
        have hdrop : d.writeBuffer.data.drop b.data.length ++ d.writeOverflowBuffer =
            BlockFifo.bytesOf l := by
          have := congrArg (List.drop b.data.length) hbytes
          simpa [List.drop_append_of_le_length hle] using this
        simp only [if_neg hshort]
        rw [hdata]
        exact ⟨rfl,hdrop,rfl⟩

theorem getNextWriteBlock_lost {b : Block α} {l : List (Block α)} {block : Block α}
    (hblock : block.data = []) (h : Holds d.writeBytesHeld d.writeMetaList (.blocks (b :: l)))
    (hmain : d.writeBuffer.data.length < b.data.length)
    (hall : b.data.length ≠ d.writeBytesHeld.length) :
    (d.getNextWriteBlock block).2.writeBytesHeld ≠ BlockFifo.bytesOf l := by
  obtain ⟨hbytes,hm⟩ := h
  have hshort : ((d.writeBuffer.read b.data.length).1).length < b.data.length := by
    simp only [CircularBuffer.read_fst,List.length_take]
    omega
  have hheld : (d.getNextWriteBlock block).2.writeBytesHeld = [] := by
    unfold getNextWriteBlock
    rw [if_neg (not_not.mpr hblock)]
    simp only [hm,List.map_cons,if_pos hshort,writeBytesHeld]
    simp [Nat.le_of_lt hmain]
  intro heq
  rw [hheld] at heq
  rw [BlockFifo.bytesOf_cons,← heq,List.append_nil] at hbytes
  exact hall (by rw [hbytes])

end AsyncIoDevice

namespace BufferedRun

variable {α : Type} {s s' : BufferedRun α} {platform : Platform} {empties : Bool}

structure Inv (s : BufferedRun α) : Prop where
  returned : s.returned = s.owed
  reads : s.device.isOpen = true → Holds s.device.readBytesHeld s.device.readMetaList s.reads
  writes : s.device.isOpen = true → Holds s.device.writeBytesHeld s.device.writeMetaList s.writes
  readKeeps : s.reads.keeps = s.device.mode.keepReadBlockSize
  writeKeeps : s.writes.keeps = s.device.mode.keepWriteBlockSize
  readFull : s.device.ReadFull
  writeOverflow : s.device.writeOverflowBuffer ≠ [] → s.device.mode.datagram = true

theorem initial_inv {readSize writeSize : ℕ+} :
    (initial readSize writeSize : BufferedRun α).Inv where
  returned := rfl
  reads h := by cases h
  writes h := by cases h
  readKeeps := rfl
  writeKeeps := rfl
  readFull h := absurd rfl h
  writeOverflow h := absurd rfl h

theorem Inv.faithful (h : s.Inv) : s.Faithful where
  returned := h.returned
  reads := h.reads
  writes := h.writes
  readSizes ho hkeep := by
    rw [← List.length_append]
    exact (h.reads ho).sizes (h.readKeeps.trans hkeep)
  writeSizes ho hkeep := by
    rw [← List.length_append]
    exact (h.writes ho).sizes (h.writeKeeps.trans hkeep)

theorem Inv.return' (h : s.Inv) {r o : DeviceReturn α} (hr : r = o) : (s.return' r o).Inv where
  returned := by
    show s.returned ++ [r] = s.owed ++ [o]
    rw [h.returned,hr]
  reads := h.reads
  writes := h.writes
  readKeeps := h.readKeeps
  writeKeeps := h.writeKeeps
  readFull := h.readFull
  writeOverflow := h.writeOverflow

theorem Inv.open (h : s.Inv) (mode : DeviceMode)
    (hseam : s.device.readMetaList = [] ∧ s.device.writeMetaList = [] ∧
      s.device.writeOverflowBuffer = []) :
    Inv { s with
      device := s.device.open' mode
      reads := .empty mode.keepReadBlockSize
      writes := .empty mode.keepWriteBlockSize } where
  returned := h.returned
  reads _ := holds_empty_iff.mpr ⟨rfl,hseam.1⟩
  writes _ := holds_empty_iff.mpr ⟨hseam.2.2,hseam.2.1⟩
  readKeeps := BlockFifo.keeps_empty _
  writeKeeps := BlockFifo.keeps_empty _
  readFull hov := absurd rfl hov
  writeOverflow hov := absurd hseam.2.2 hov

theorem Inv.close (h : s.Inv) : Inv { s with device := s.device.close platform } := by
  cases platform
  · exact ⟨h.returned,nofun,nofun,h.readKeeps,h.writeKeeps,h.readFull,h.writeOverflow⟩
  · exact ⟨h.returned,nofun,nofun,h.readKeeps,h.writeKeeps,h.readFull,h.writeOverflow⟩

variable {d : AsyncIoDevice α}

theorem bufferedRead_open (ho : d.isOpen = true) (size : ℕ) :
    (d.bufferedRead size).1 = ⟨some (d.readBytes (d.takeReadMeta size).2.1).1.length,
        (d.readBytes (d.takeReadMeta size).2.1).1,(d.takeReadMeta size).1⟩ ∧
      (d.bufferedRead size).2.isOpen = true ∧ (d.bufferedRead size).2.mode = d.mode ∧
      (d.bufferedRead size).2.readBytesHeld = (d.readBytes (d.takeReadMeta size).2.1).2.1.data ++
        (d.readBytes (d.takeReadMeta size).2.1).2.2 ∧
      (d.bufferedRead size).2.readBuffer = (d.readBytes (d.takeReadMeta size).2.1).2.1 ∧
      (d.bufferedRead size).2.readOverflowBuffer = (d.readBytes (d.takeReadMeta size).2.1).2.2 ∧
      (d.bufferedRead size).2.readMetaList = (d.takeReadMeta size).2.2 ∧
      (d.bufferedRead size).2.writeBytesHeld = d.writeBytesHeld ∧
      (d.bufferedRead size).2.writeOverflowBuffer = d.writeOverflowBuffer ∧
      (d.bufferedRead size).2.writeMetaList = d.writeMetaList := by
  unfold AsyncIoDevice.bufferedRead
  rw [if_neg (by simp [ho])]
  exact ⟨rfl,ho,rfl,rfl,rfl,rfl,rfl,rfl,rfl,rfl⟩

theorem Inv.bufferedRead (h : s.Inv) (ho : s.device.isOpen = true) (size : ℕ)
    (hseam : s.device.mode.datagram = true →
      ∀ m ∈ s.device.readMetaList.head?, m.dataSize ≤ size) :
    Inv ({ s with
      device := (s.device.bufferedRead size).2
      reads := (s.reads.take s.device.mode.datagram size).2 }.return' (s.device.bufferedRead size).1
        (.ofBlock (s.reads.take s.device.mode.datagram size).1)) := by
  obtain ⟨hr,hopen,hmode,hheld,hmain,hov,hm,hw,hwo,hwm⟩ := bufferedRead_open ho size
  obtain ⟨hdata,hparams,hholds⟩ :=
    AsyncIoDevice.takeReadMeta_spec rfl (h.reads ho) size hseam
  obtain ⟨hp,hrest,hfull⟩ := AsyncIoDevice.readBytes_spec h.readFull (s.device.takeReadMeta size).2.1
  have hinv : Inv { s with
      device := (s.device.bufferedRead size).2
      reads := (s.reads.take s.device.mode.datagram size).2 } := by
    refine ⟨h.returned,fun _ => ?_,fun _ => ?_,?_,?_,?_,?_⟩
    · show Holds (s.device.bufferedRead size).2.readBytesHeld
        (s.device.bufferedRead size).2.readMetaList _
      rw [hheld,hrest,hm]
      exact hholds
    · show Holds (s.device.bufferedRead size).2.writeBytesHeld
        (s.device.bufferedRead size).2.writeMetaList _
      rw [hw,hwm]
      exact h.writes ho
    · show _ = (s.device.bufferedRead size).2.mode.keepReadBlockSize
      rw [hmode,BlockFifo.keeps_take]
      exact h.readKeeps
    · show _ = (s.device.bufferedRead size).2.mode.keepWriteBlockSize
      rw [hmode]
      exact h.writeKeeps
    · show (s.device.bufferedRead size).2.ReadFull
      unfold AsyncIoDevice.ReadFull
      rw [hmain,hov]
      exact hfull
    · show (s.device.bufferedRead size).2.writeOverflowBuffer ≠ [] →
        (s.device.bufferedRead size).2.mode.datagram = true
      rw [hwo,hmode]
      exact h.writeOverflow
  refine hinv.return' ?_
  rw [hr,hp,hdata,hparams]
  rfl

/-- What the calls on the write buffers leave alone. -/
structure WriteFramed (d d' : AsyncIoDevice α) : Prop where
  isOpen : d'.isOpen = d.isOpen
  mode : d'.mode = d.mode
  held : d'.readBytesHeld = d.readBytesHeld
  metaList : d'.readMetaList = d.readMetaList
  full : d.ReadFull → d'.ReadFull
  overflow : (d.writeOverflowBuffer ≠ [] → d.mode.datagram = true) →
    d'.writeOverflowBuffer ≠ [] → d.mode.datagram = true

theorem addToWriteBuffer_framed (d : AsyncIoDevice α) (p params : List α) :
    WriteFramed d (d.addToWriteBuffer p params).2 := by
  unfold AsyncIoDevice.addToWriteBuffer
  by_cases hfull : d.writeBuffer.isFull = true
  · rw [if_pos hfull]
    exact ⟨rfl,rfl,rfl,rfl,id,id⟩
  rw [if_neg hfull]
  refine ⟨rfl,rfl,rfl,rfl,id,fun hold hov => ?_⟩
  by_contra hmode
  rw [Bool.not_eq_true] at hmode
  simp only [hmode,Bool.and_false,Bool.false_eq_true,if_false] at hov hold
  exact hold hov

theorem getNextWriteBlock_framed (d : AsyncIoDevice α) (block : Block α) :
    WriteFramed d (d.getNextWriteBlock block).2 := by
  unfold AsyncIoDevice.getNextWriteBlock
  split_ifs
  · exact ⟨rfl,rfl,rfl,rfl,id,id⟩
  split
  · exact ⟨rfl,rfl,rfl,rfl,id,fun _ hov => absurd rfl hov⟩
  · dsimp only
    split_ifs
    · exact ⟨rfl,rfl,rfl,rfl,id,fun _ hov => absurd rfl hov⟩
    · exact ⟨rfl,rfl,rfl,rfl,id,id⟩

theorem setWriteBufferSize_framed (d : AsyncIoDevice α) (size : ℕ+)
    (result : Bool) : WriteFramed d (d.setWriteBufferSize size result) := by
  unfold AsyncIoDevice.setWriteBufferSize
  split_ifs
  · exact ⟨rfl,rfl,rfl,rfl,id,id⟩
  · exact ⟨rfl,rfl,rfl,rfl,id,id⟩

theorem Inv.write (h : s.Inv) {writes : BlockFifo α} (hd : WriteFramed s.device d)
    (hkeeps : writes.keeps = s.writes.keeps)
    (hw : s.device.isOpen = true → Holds d.writeBytesHeld d.writeMetaList writes) :
    Inv { s with device := d, writes } where
  returned := h.returned
  reads ho := by
    show Holds d.readBytesHeld d.readMetaList s.reads
    rw [hd.held,hd.metaList]
    exact h.reads (hd.isOpen ▸ ho)
  writes ho := hw (hd.isOpen ▸ ho)
  readKeeps := by
    show _ = d.mode.keepReadBlockSize
    rw [hd.mode]
    exact h.readKeeps
  writeKeeps := by
    show _ = d.mode.keepWriteBlockSize
    rw [hd.mode,hkeeps]
    exact h.writeKeeps
  readFull := hd.full h.readFull
  writeOverflow := by
    show d.writeOverflowBuffer ≠ [] → d.mode.datagram = true
    rw [hd.mode]
    exact hd.overflow h.writeOverflow

def putBlock (d : AsyncIoDevice α) (p params : List α) : Block α :=
  ⟨p.take d.writeBuffer.space ++ d.excess p,params⟩

variable {p params : List α}

theorem acceptedBlock_eq (hroom : d.writeBuffer.isFull = false) :
    acceptedBlock d p params = some (putBlock d p params) := by
  unfold acceptedBlock putBlock AsyncIoDevice.excess
  rw [hroom]
  cases d.mode.datagram
  · simp
  · simp

theorem Inv.bufferedWrite (h : s.Inv) (ho : s.device.isOpen = true)
    (hroom : s.device.writeBuffer.isFull = false)
    (hseam : p.take s.device.writeBuffer.space ++ s.device.writeOverflowBuffer =
      s.device.writeOverflowBuffer ++ p.take s.device.writeBuffer.space) :
    Inv { s with
      device := (s.device.addToWriteBuffer p params).2
      writes := s.writes.put (putBlock s.device p params) } := by
  refine h.write (addToWriteBuffer_framed _ _ _) (BlockFifo.keeps_put _ _) fun _ => ?_
  have hput := (h.writes ho).put (putBlock s.device p params)
  rw [h.writeKeeps] at hput
  rw [AsyncIoDevice.addToWriteBuffer_meta hroom,AsyncIoDevice.addToWriteBuffer_result hroom,
    AsyncIoDevice.addToWriteBuffer_bytes hroom,hseam]
  simpa [AsyncIoDevice.writeBytesHeld,putBlock] using hput

theorem addToReadBuffer_framed (d : AsyncIoDevice α) (p params : List α) :
    (d.addToReadBuffer p params).isOpen = d.isOpen ∧
      (d.addToReadBuffer p params).mode = d.mode ∧
      (d.addToReadBuffer p params).writeBytesHeld = d.writeBytesHeld ∧
      (d.addToReadBuffer p params).writeOverflowBuffer = d.writeOverflowBuffer ∧
      (d.addToReadBuffer p params).writeMetaList = d.writeMetaList := by
  unfold AsyncIoDevice.addToReadBuffer
  by_cases hnone : p = [] ∧ d.mode.keepReadBlockSize = false
  · rw [if_pos hnone]
    exact ⟨rfl,rfl,rfl,rfl,rfl⟩
  · rw [if_neg hnone]
    exact ⟨rfl,rfl,rfl,rfl,rfl⟩

theorem setReadBufferSize_framed (d : AsyncIoDevice α) (size : ℕ+)
    (result : Bool) :
    (d.setReadBufferSize size result).isOpen = d.isOpen ∧
      (d.setReadBufferSize size result).mode = d.mode ∧
      (d.setReadBufferSize size result).writeBytesHeld = d.writeBytesHeld ∧
      (d.setReadBufferSize size result).writeOverflowBuffer = d.writeOverflowBuffer ∧
      (d.setReadBufferSize size result).writeMetaList = d.writeMetaList := by
  unfold AsyncIoDevice.setReadBufferSize
  split_ifs
  · exact ⟨rfl,rfl,rfl,rfl,rfl⟩
  · exact ⟨rfl,rfl,rfl,rfl,rfl⟩

theorem Inv.read (h : s.Inv) {reads : BlockFifo α}
    (hd : d.isOpen = s.device.isOpen ∧ d.mode = s.device.mode ∧
      d.writeBytesHeld = s.device.writeBytesHeld ∧
      d.writeOverflowBuffer = s.device.writeOverflowBuffer ∧
      d.writeMetaList = s.device.writeMetaList) (hkeeps : reads.keeps = s.reads.keeps)
    (hr : s.device.isOpen = true → Holds d.readBytesHeld d.readMetaList reads) (hfull : d.ReadFull) :
    Inv { s with device := d, reads } where
  returned := h.returned
  reads ho := hr (hd.1 ▸ ho)
  writes ho := by
    show Holds d.writeBytesHeld d.writeMetaList s.writes
    rw [hd.2.2.1,hd.2.2.2.2]
    exact h.writes (hd.1 ▸ ho)
  readKeeps := by
    show _ = d.mode.keepReadBlockSize
    rw [hd.2.1,hkeeps]
    exact h.readKeeps
  writeKeeps := by
    show _ = d.mode.keepWriteBlockSize
    rw [hd.2.1]
    exact h.writeKeeps
  readFull := hfull
  writeOverflow := by
    show d.writeOverflowBuffer ≠ [] → d.mode.datagram = true
    rw [hd.2.1,hd.2.2.2.1]
    exact h.writeOverflow

theorem Inv.addToReadBuffer (h : s.Inv) (ho : s.device.isOpen = true) (p params : List α) :
    Inv { s with
      device := s.device.addToReadBuffer p params
      reads := s.reads.put ⟨p,params⟩ } := by
  obtain ⟨hbytes,hfull⟩ := AsyncIoDevice.addToReadBuffer_bytes p params h.readFull
  refine h.read (addToReadBuffer_framed _ _ _) (BlockFifo.keeps_put _ _) (fun _ => ?_) hfull
  have hput := (h.reads ho).put ⟨p,params⟩
  rw [h.readKeeps] at hput
  rw [hbytes,AsyncIoDevice.addToReadBuffer_meta]
  exact hput

theorem resized_data (b : CircularBuffer α) (size : ℕ+) (result : Bool)
    (hb : b.data = []) : (AsyncIoDevice.resized b size result).data = [] := by
  cases result
  · exact hb
  · rfl

theorem resized_holds {f : BlockFifo α} {bytes : List α} {metaList : List (ReadWriteMeta α)}
    (h : Holds bytes metaList f) (hdrop : empties = true ∨ bytes = [] ∧ metaList = [])
    {P : Prop} [Decidable P] (hP : ¬ P) :
    Holds [] [] (if P ∨ empties = false then f else f.clear) := by
  rcases hdrop with rfl | ⟨hbytes,hm⟩
  · rw [if_neg (by simp [hP])]
    exact holds_clear_iff.mpr ⟨rfl,rfl⟩
  · split_ifs
    · exact h.empties hbytes hm
    · exact holds_clear_iff.mpr ⟨rfl,rfl⟩

theorem resized_keeps (f : BlockFifo α) {P : Prop} [Decidable P] :
    (if P then f else f.clear).keeps = f.keeps := by
  split_ifs
  · rfl
  · exact BlockFifo.keeps_clear f

theorem Inv.setReadBufferSize (h : s.Inv) (size : ℕ+) (result : Bool)
    (hseam : s.device.isOpen = true → s.device.readBuffer.bufferSize ≠ size →
      empties = true ∨ s.device.readBytesHeld = [] ∧ s.device.readMetaList = []) :
    Inv { s with
      device := s.device.setReadBufferSize size result
      reads := if s.device.readBuffer.bufferSize = size ∨ empties = false then s.reads
        else s.reads.clear } := by
  refine h.read (setReadBufferSize_framed _ _ _) (resized_keeps _) (fun ho => ?_) ?_
  · unfold AsyncIoDevice.setReadBufferSize
    by_cases hsame : s.device.readBuffer.bufferSize = size
    · simp only [if_pos hsame,if_pos (Or.inl hsame : _ ∨ empties = false)]
      exact h.reads ho
    · rw [if_neg hsame]
      have hdata := resized_data s.device.readBuffer.clear size result rfl
      simp only [AsyncIoDevice.readBytesHeld,hdata]
      exact resized_holds (h.reads ho) (hseam ho hsame) hsame
  · unfold AsyncIoDevice.setReadBufferSize
    split_ifs
    · exact h.readFull
    · exact fun hov => absurd rfl hov

theorem Inv.setWriteBufferSize (h : s.Inv) (size : ℕ+) (result : Bool)
    (hseam : s.device.isOpen = true → s.device.writeBuffer.bufferSize ≠ size →
      s.device.writeOverflowBuffer = [] ∧
        (empties = true ∨ s.device.writeBytesHeld = [] ∧ s.device.writeMetaList = [])) :
    Inv { s with
      device := s.device.setWriteBufferSize size result
      writes := if s.device.writeBuffer.bufferSize = size ∨ empties = false then s.writes
        else s.writes.clear } := by
  refine h.write (setWriteBufferSize_framed _ _ _) (resized_keeps _) fun ho => ?_
  unfold AsyncIoDevice.setWriteBufferSize
  by_cases hsame : s.device.writeBuffer.bufferSize = size
  · simp only [if_pos hsame,if_pos (Or.inl hsame : _ ∨ empties = false)]
    exact h.writes ho
  · obtain ⟨hov,hdrop⟩ := hseam ho hsame
    rw [if_neg hsame]
    have hdata := resized_data s.device.writeBuffer.clear size result rfl
    simp only [AsyncIoDevice.writeBytesHeld,hdata,hov]
    exact resized_holds (h.writes ho) hdrop hsame

theorem Inv.step (h : s.Inv) (c : DeviceCall α) (hc : s.Seamless empties c)
    (hs : s.step platform empties c = some s') : s'.Inv := by
  cases c with
  | «open» mode =>
    cases hs
    exact h.open mode hc
  | close =>
    cases hs
    exact h.close
  | bufferedRead size =>
    simp only [BufferedRun.step] at hs
    by_cases ho : s.device.isOpen = false
    · rw [if_pos ho] at hs
      cases hs
      have hclosed : s.device.bufferedRead size = (⟨none,[],[]⟩,s.device) := if_pos ho
      rw [hclosed]
      exact h.return' rfl
    · rw [if_neg ho] at hs
      cases hs
      rw [Bool.not_eq_false] at ho
      exact h.bufferedRead ho size (hc ho)
  | bufferedWrite p params =>
    simp only [BufferedRun.step] at hs
    by_cases ho : s.device.isOpen = false
    · rw [if_pos ho] at hs
      cases hs
      have hclosed : s.device.bufferedWrite p params = (⟨none,[],[]⟩,s.device) := if_pos ho
      rw [hclosed]
      exact h.return' rfl
    rw [if_neg ho] at hs
    have hopen : s.device.bufferedWrite p params =
        (⟨some (s.device.addToWriteBuffer p params).1,[],[]⟩,
          (s.device.addToWriteBuffer p params).2) := if_neg ho
    rw [hopen] at hs
    rw [Bool.not_eq_false] at ho
    cases hroom : s.device.writeBuffer.isFull with
    | true =>
      have hfull : s.device.addToWriteBuffer p params = (0,s.device) := if_pos hroom
      simp only [acceptedBlock,hroom,if_true,hfull] at hs
      cases hs
      exact h.return' rfl
    | false =>
      simp only [acceptedBlock_eq hroom] at hs
      cases hs
      refine (h.bufferedWrite ho hroom (hc ho)).return' ?_
      rw [AsyncIoDevice.addToWriteBuffer_result hroom]
      rfl
  | addToReadBuffer p params =>
    simp only [BufferedRun.step] at hs
    split_ifs at hs with ho
    cases hs
    exact h.addToReadBuffer (by simpa using ho) p params
  | getNextWriteBlock block =>
    simp only [BufferedRun.step] at hs
    split_ifs at hs with ho hblock
    · cases hs
      have hsame : s.device.getNextWriteBlock block = (block,s.device) := if_pos hblock
      rw [hsame]
      exact h.return' rfl
    · cases hs
      rw [not_not] at hblock
      have ho : s.device.isOpen = true := by simpa using ho
      obtain ⟨hb,hholds⟩ := AsyncIoDevice.getNextWriteBlock_spec hblock (h.writes ho) (hc hblock)
      refine (h.write (getNextWriteBlock_framed _ _) (BlockFifo.keeps_takeBlock _)
        fun _ => hholds).return' ?_
      rw [hb]
  | setReadBufferSize size result =>
    cases hs
    exact h.setReadBufferSize size result hc
  | setWriteBufferSize size result =>
    cases hs
    exact h.setWriteBufferSize size result hc

theorem Inv.bufferedRead_cut (h : s.Inv) (ho : s.device.isOpen = true)
    (hmode : s.device.mode.datagram = true) {m : ReadWriteMeta α}
    (hm : m ∈ s.device.readMetaList.head?) {size : ℕ} (hsize : size < m.dataSize) :
    ¬ Holds (s.device.bufferedRead size).2.readBytesHeld
      (s.device.bufferedRead size).2.readMetaList (s.reads.take true size).2 := by
  obtain ⟨b,l,hreads,rfl⟩ := (h.reads ho).cons hm
  have hholds := h.reads ho
  rw [hreads] at hholds
  obtain ⟨hbytes,hlist⟩ := hholds
  obtain ⟨-,-,-,hheld,-⟩ := bufferedRead_open ho size
  have htake : (s.device.takeReadMeta size).2.1 = size := by
    simp only [AsyncIoDevice.takeReadMeta,hlist,List.map_cons]
    simp [Nat.not_le_of_lt hsize,hmode]
  rw [hreads,hheld,htake]
  simp only [BlockFifo.take,true_or,if_true]
  rintro ⟨hrest,-⟩
  exact AsyncIoDevice.readBytes_rest h.readFull hbytes hsize hrest

theorem Inv.bufferedWrite_ahead (h : s.Inv) (ho : s.device.isOpen = true)
    (hroom : s.device.writeBuffer.isFull = false)
    (hseam : p.take s.device.writeBuffer.space ++ s.device.writeOverflowBuffer ≠
      s.device.writeOverflowBuffer ++ p.take s.device.writeBuffer.space) :
    ¬ Holds (s.device.addToWriteBuffer p params).2.writeBytesHeld
      (s.device.addToWriteBuffer p params).2.writeMetaList
      (s.writes.put (putBlock s.device p params)) := by
  intro hholds
  have hbytes := (h.writes ho).bytes_put hholds
  rw [AsyncIoDevice.addToWriteBuffer_bytes hroom] at hbytes
  simp only [AsyncIoDevice.writeBytesHeld,putBlock,List.append_assoc,List.append_cancel_left_eq]
    at hbytes
  rw [← List.append_assoc,← List.append_assoc] at hbytes
  exact hseam (List.append_cancel_right hbytes)

theorem Inv.broken (h : s.Inv) (c : DeviceCall α) (hc : ¬ s.Seamless empties c)
    (hs : s.step platform empties c = some s') : ¬ s'.Faithful := by
  intro hf
  cases c with
  | «open» mode =>
    cases hs
    obtain ⟨-,hreads⟩ := holds_empty_iff.mp (hf.reads rfl)
    obtain ⟨hbytes,hwrites⟩ := holds_empty_iff.mp (hf.writes rfl)
    exact hc ⟨hreads,hwrites,hbytes⟩
  | close => exact hc trivial
  | addToReadBuffer p params => exact hc trivial
  | bufferedRead size =>
    simp only [Seamless] at hc
    push Not at hc
    obtain ⟨ho,hmode,m,hm,hsize⟩ := hc
    simp only [BufferedRun.step,ho,Bool.true_eq_false,if_false] at hs
    cases hs
    have hopen : (s.device.bufferedRead size).2.isOpen = true := (bufferedRead_open ho size).2.1
    have hreads := hf.reads hopen
    simp only [BufferedRun.return',hmode] at hreads
    exact h.bufferedRead_cut ho hmode hm hsize hreads
  | bufferedWrite p params =>
    simp only [Seamless] at hc
    push Not at hc
    obtain ⟨ho,hseam⟩ := hc
    have hroom : s.device.writeBuffer.isFull = false := by
      refine (CircularBuffer.not_isFull_iff _).mpr (Nat.pos_of_ne_zero fun hz => hseam ?_)
      simp [hz]
    have hclosed : s.device.isOpen ≠ false := by simp [ho]
    have hopen : s.device.bufferedWrite p params =
        (⟨some (s.device.addToWriteBuffer p params).1,[],[]⟩,
          (s.device.addToWriteBuffer p params).2) := if_neg hclosed
    simp only [BufferedRun.step,if_neg hclosed,hopen,acceptedBlock_eq hroom] at hs
    cases hs
    have hsame := (addToWriteBuffer_framed s.device p params).isOpen
    exact h.bufferedWrite_ahead ho hroom hseam (hf.writes (hsame.trans ho))
  | getNextWriteBlock block =>
    simp only [Seamless] at hc
    push Not at hc
    obtain ⟨hblock,m,hm,hmain,hall⟩ := hc
    simp only [BufferedRun.step] at hs
    split_ifs at hs with ho hnonempty
    · exact hnonempty hblock
    cases hs
    have ho : s.device.isOpen = true := by simpa using ho
    obtain ⟨b,l,hwrites,rfl⟩ := (h.writes ho).cons hm
    have hholds := h.writes ho
    have hsame := (getNextWriteBlock_framed s.device block).isOpen
    have hafter := hf.writes (hsame.trans ho)
    simp only [BufferedRun.return',hwrites] at hholds hafter
    exact AsyncIoDevice.getNextWriteBlock_lost hblock hholds hmain hall hafter.1
  | setReadBufferSize size result =>
    simp only [Seamless] at hc
    push Not at hc
    obtain ⟨ho,hsame,hkept,hfilled⟩ := hc
    have hkept := Bool.eq_false_iff.mpr hkept
    cases hs
    have hopen := (setReadBufferSize_framed s.device size result).1
    have hafter := hf.reads (hopen.trans ho)
    have hdata := resized_data s.device.readBuffer.clear size result rfl
    simp only [AsyncIoDevice.setReadBufferSize,if_neg hsame,AsyncIoDevice.readBytesHeld,hdata,
      if_pos (Or.inr hkept : _ ∨ empties = false)] at hafter
    obtain ⟨hbytes,hlist⟩ := (h.reads ho).unique hafter
    exact hfilled hbytes hlist
  | setWriteBufferSize size result =>
    simp only [Seamless] at hc
    push Not at hc
    obtain ⟨ho,hsame,hfilled⟩ := hc
    cases hs
    have hopen := (setWriteBufferSize_framed s.device size result).isOpen
    have hafter := hf.writes (hopen.trans ho)
    have hdata := resized_data s.device.writeBuffer.clear size result rfl
    simp only [AsyncIoDevice.setWriteBufferSize,if_neg hsame,AsyncIoDevice.writeBytesHeld,hdata]
      at hafter
    cases hempties : empties with
    | true =>
      rw [hempties,if_neg (by simp [hsame])] at hafter
      exact (hfilled (holds_clear_iff.mp hafter).1).1 hempties
    | false =>
      rw [if_pos (Or.inr hempties)] at hafter
      obtain ⟨hbytes,hlist⟩ := (h.writes ho).unique hafter
      have hov : s.device.writeOverflowBuffer = [] := by
        by_contra hov
        have hkeep := (s.device.mode.keeps (h.writeOverflow hov)).2
        have hsizes := hafter.sizes (h.writeKeeps.trans hkeep)
        simp only [AsyncIoDevice.getMetaListDataSize,List.map_nil,List.sum_nil,
          List.nil_append] at hsizes
        exact hov (List.eq_nil_of_length_eq_zero hsizes.symm)
      refine (hfilled hov).2 ?_ hlist
      rw [hbytes,hov,List.append_nil]

/-- The buffers are two queues in every state of a run exactly when no call meets a seam. -/
theorem faithful_iff_seamless (platform : Platform) (empties : Bool) (readSize writeSize : ℕ+)
    (calls : List (DeviceCall α)) :
    Run.Always (step platform empties) Faithful (initial readSize writeSize) calls ↔
      Run.Along (step platform empties) (Seamless empties) (initial readSize writeSize) calls :=
  Run.always_iff_along (fun _ h => h.faithful) (fun _ c _ h => h.step c)
    (fun _ c _ h => h.broken c) initial_inv calls

/-- The third datagram goes in front of the end of the second one. -/
theorem not_faithful_write_ahead :
    ¬ Run.Always (step .posix true) Faithful (initial 2 2 : BufferedRun ℕ)
      [.open .ofDatagram,.bufferedWrite [1] [],.bufferedWrite [2,3] [],.getNextWriteBlock ⟨[],[]⟩,
        .bufferedWrite [4] [],.getNextWriteBlock ⟨[],[]⟩] := by
  intro h
  have hreturned := (h.last rfl).returned
  revert hreturned
  decide

end BufferedRun
end Jancy.Io
