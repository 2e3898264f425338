import Jancy.Lib.Run

/-! `io.UsbMonitor` for completed transfers only: what the parser reports becomes a stream of
records, with the submitted out-transfers in a tracker until they complete. -/
namespace Jancy.Io

/-- `UsbMonTransferHdr`, with the fields that are not looked at here as one. -/
structure UsbMonTransferHdr where
  id : BitVec 64
  status : BitVec 32
  flags : BitVec 16
  transferType : BitVec 8
  address : BitVec 8
  endpoint : BitVec 8
  capturedDataSize : BitVec 32
  packetCount : BitVec 32
  others : List (BitVec 8)
  deriving DecidableEq, Repr

namespace UsbMonTransferHdr

/-- `UsbMonTransferFlag_Completed`. -/
def isCompleted (hdr : UsbMonTransferHdr) : Bool :=
  hdr.flags &&& 1 ≠ 0

def isIn (hdr : UsbMonTransferHdr) : Bool :=
  hdr.endpoint &&& 0x80 ≠ 0

/-- `LIBUSB_TRANSFER_TYPE_ISOCHRONOUS`. -/
def isIsochronous (hdr : UsbMonTransferHdr) : Bool :=
  hdr.transferType = 1

/-- How many packets the header says. -/
def isoCount (hdr : UsbMonTransferHdr) : ℕ :=
  if hdr.isIsochronous then hdr.packetCount.toNat else 0

end UsbMonTransferHdr

/-- `UsbMonIsoPacket`. -/
structure UsbMonIsoPacket where
  status : BitVec 32
  offset : BitVec 32
  length : BitVec 32
  deriving DecidableEq, Repr

/-- What stands in the read buffer; past the end of an array there are bytes of anything. -/
inductive UsbMonItem where
  | hdr (hdr : UsbMonTransferHdr)
  | packet (packet : UsbMonIsoPacket)
  | byte (byte : BitVec 8)
  | pastEnd
  deriving DecidableEq, Repr

inductive UsbMonDataState where
  | incomplete
  | complete
  | truncated
  deriving DecidableEq, Repr

/-- What a call of the parser reports, with what stands in its input there. -/
inductive UsbMonParserEvent where
  | incompleteHeader
  | completeHeader (hdr : UsbMonTransferHdr) (isoPacketArray : List UsbMonIsoPacket)
  | data (state : UsbMonDataState) (bytes : List (BitVec 8))
  deriving DecidableEq, Repr

namespace UsbMonitor

structure Transfer where
  hdr : UsbMonTransferHdr
  isoPacketArray : List UsbMonIsoPacket
  data : List (BitVec 8)
  deriving DecidableEq, Repr

/-- `TransferTracker`; a transfer is known by its place among those ever allocated. -/
structure TransferTracker where
  transfers : ℕ → Transfer
  allocated : ℕ
  transferPool : List ℕ
  activeTransferList : List ℕ
  activeTransferMap : BitVec 64 → Option ℕ

inductive TransferDataMode where
  | ignore
  | addToTransfer
  | addToBuffer
  deriving DecidableEq, Repr

structure TransferParserContext where
  transfer : Option ℕ
  dataMode : TransferDataMode
  deriving DecidableEq, Repr

namespace TransferTracker

def noTransfer : Transfer :=
  ⟨⟨0,0,0,0,0,0,0,0,[]⟩,[],[]⟩

def initial : TransferTracker :=
  ⟨fun _ => noTransfer,0,[],[],fun _ => none⟩

/-- `m_transferPool.get`: one that is free, or a new one. -/
def get (tracker : TransferTracker) : ℕ × TransferTracker :=
  match tracker.transferPool with
  | [] => (tracker.allocated,{ tracker with allocated := tracker.allocated + 1 })
  | t :: rest => (t,{ tracker with transferPool := rest })

def set (tracker : TransferTracker) (t : ℕ) (transfer : Transfer) : TransferTracker :=
  { tracker with transfers := Function.update tracker.transfers t transfer }

/-- `m_activeTransferMap.add` and `m_activeTransferList.insertTail`. -/
def track (tracker : TransferTracker) (id : BitVec 64) (t : ℕ) : TransferTracker :=
  { tracker with
    activeTransferMap := Function.update tracker.activeTransferMap id (some t)
    activeTransferList := tracker.activeTransferList ++ [t] }

def release (tracker : TransferTracker) (id : BitVec 64) (t : ℕ) : TransferTracker :=
  { tracker with
    activeTransferMap := Function.update tracker.activeTransferMap id none
    activeTransferList := tracker.activeTransferList.erase t
    transferPool := t :: tracker.transferPool }

end TransferTracker

/-- `count` elements of an array are read. -/
def readArray {α : Type*} (item : α → UsbMonItem) (array : List α) (count : ℕ) :
    List UsbMonItem :=
  (array.take count).map item ++ List.replicate (count - array.length) .pastEnd

end UsbMonitor

/-- The monitor in the I/O thread. -/
structure UsbMonitor where
  isLinux : Bool
  addressFilter : ℕ
  transferTracker : UsbMonitor.TransferTracker
  context : UsbMonitor.TransferParserContext
  readBuffer : List UsbMonItem

namespace UsbMonitor

def initial (isLinux : Bool) (addressFilter : ℕ) : UsbMonitor :=
  ⟨isLinux,addressFilter,.initial,⟨none,.ignore⟩,[]⟩

def setAddressFilter (monitor : UsbMonitor) (address : ℕ) (isSetByDriver : Bool) : UsbMonitor :=
  if !monitor.isLinux && !isSetByDriver then monitor
  else { monitor with addressFilter := address }

def addToReadBuffer (monitor : UsbMonitor) (items : List UsbMonItem) : UsbMonitor :=
  { monitor with readBuffer := monitor.readBuffer ++ items }

def setDataMode (monitor : UsbMonitor) (dataMode : TransferDataMode) : UsbMonitor :=
  { monitor with context := { monitor.context with dataMode := dataMode } }

def isFiltered (monitor : UsbMonitor) (hdr : UsbMonTransferHdr) : Bool :=
  monitor.isLinux && monitor.addressFilter ≠ 0 && hdr.address.toNat ≠ monitor.addressFilter

def submit (monitor : UsbMonitor) (hdr : UsbMonTransferHdr)
    (isoPacketArray : List UsbMonIsoPacket) : UsbMonitor :=
  let (t,tracker) := monitor.transferTracker.get
  let isoPacketArray :=
    if hdr.isIsochronous then isoPacketArray else (tracker.transfers t).isoPacketArray
  { monitor with
    transferTracker := (tracker.set t ⟨hdr,isoPacketArray,[]⟩).track hdr.id t
    context := ⟨some t,.addToTransfer⟩ }

def addIsoPackets (monitor : UsbMonitor) (hdr : UsbMonTransferHdr)
    (isoPacketArray : List UsbMonIsoPacket) : UsbMonitor :=
  if hdr.isIsochronous then
    monitor.addToReadBuffer (readArray .packet isoPacketArray hdr.packetCount.toNat)
  else monitor

def completeIn (monitor : UsbMonitor) (hdr : UsbMonTransferHdr)
    (isoPacketArray : List UsbMonIsoPacket) : UsbMonitor :=
  ((monitor.addToReadBuffer [.hdr hdr]).addIsoPackets hdr isoPacketArray).setDataMode .addToBuffer

def completeOut (monitor : UsbMonitor) (hdr : UsbMonTransferHdr)
    (isoPacketArray : List UsbMonIsoPacket) : UsbMonitor :=
  let monitor := monitor.setDataMode .ignore
  match monitor.transferTracker.activeTransferMap hdr.id with
  | none => monitor
  | some t =>
      let transfer := monitor.transferTracker.transfers t
      let transfer := { transfer with hdr := { transfer.hdr with status := hdr.status } }
      let monitor :=
        { monitor with transferTracker := monitor.transferTracker.set t transfer }
      let monitor := monitor.addToReadBuffer [.hdr transfer.hdr]
      let monitor := monitor.addIsoPackets hdr isoPacketArray
      let monitor := monitor.addToReadBuffer
        (readArray .byte transfer.data transfer.hdr.capturedDataSize.toNat)
      { monitor with transferTracker := monitor.transferTracker.release hdr.id t }

def onHeader (monitor : UsbMonitor) (hdr : UsbMonTransferHdr)
    (isoPacketArray : List UsbMonIsoPacket) : UsbMonitor :=
  if monitor.isFiltered hdr then monitor.setDataMode .ignore
  else if !hdr.isCompleted then
    if hdr.isIn then monitor.setDataMode .ignore
    else monitor.submit hdr isoPacketArray
  else if hdr.isIn then monitor.completeIn hdr isoPacketArray
  else monitor.completeOut hdr isoPacketArray

def onData (monitor : UsbMonitor) (bytes : List (BitVec 8)) : UsbMonitor :=
  match monitor.context.dataMode with
  | .ignore => monitor
  | .addToTransfer =>
      match monitor.context.transfer with
      | none => monitor
      | some t =>
          let transfer := monitor.transferTracker.transfers t
          let transfer := { transfer with data := transfer.data ++ bytes }
          { monitor with transferTracker := monitor.transferTracker.set t transfer }
  | .addToBuffer => monitor.addToReadBuffer (bytes.map .byte)

/-- One round of the loop in `parseCompletedTransfersOnly_l`. -/
def parse (monitor : UsbMonitor) : UsbMonParserEvent → UsbMonitor
  | .incompleteHeader => monitor
  | .completeHeader hdr isoPacketArray => monitor.onHeader hdr isoPacketArray
  | .data _ bytes => monitor.onData bytes

/-- The events of a block of input; none stands for a failure of the parser. -/
def parseCompletedTransfersOnly_l (monitor : UsbMonitor) :
    List (Option UsbMonParserEvent) → Bool × UsbMonitor
  | [] => (true,monitor)
  | none :: _ => (false,monitor)
  | some event :: rest => (monitor.parse event).parseCompletedTransfersOnly_l rest

theorem parseCompletedTransfersOnly_l_append (monitor : UsbMonitor)
    (first : List UsbMonParserEvent) (rest : List (Option UsbMonParserEvent)) :
    monitor.parseCompletedTransfersOnly_l (first.map some ++ rest) =
      (first.foldl parse monitor).parseCompletedTransfersOnly_l rest := by
  induction first generalizing monitor with
  | nil => rfl
  | cons event first ih => exact ih (monitor.parse event)

/-- What the parser has said of one header, its data so far, and if the filter was against it. -/
structure Report where
  hdr : UsbMonTransferHdr
  isoPacketArray : List UsbMonIsoPacket
  data : List (BitVec 8)
  isFiltered : Bool
  deriving DecidableEq, Repr

structure Record where
  hdr : UsbMonTransferHdr
  isoPacketArray : List UsbMonIsoPacket
  data : List (BitVec 8)
  deriving DecidableEq, Repr

def Record.items (record : Record) : List UsbMonItem :=
  .hdr record.hdr :: record.isoPacketArray.map .packet ++ record.data.map .byte

/-- As many packets and bytes as the header says. -/
def Record.WellFormed (record : Record) : Prop :=
  record.isoPacketArray.length = record.hdr.isoCount ∧
    record.data.length = record.hdr.capturedDataSize.toNat

/-- The packets that belong to a header. -/
def Report.packets (report : Report) : List UsbMonIsoPacket :=
  if report.hdr.isIsochronous then report.isoPacketArray else []

/-- What a header is for the stream; one that is filtered out, or that submits an in-transfer, is
nothing. -/
inductive ReportKind where
  | nothing
  | submission
  | completedIn
  | completedOut
  deriving DecidableEq, Repr

def Report.kind (report : Report) : ReportKind :=
  if report.isFiltered then .nothing
  else
    match report.hdr.isCompleted,report.hdr.isIn with
    | false,true => .nothing
    | false,false => .submission
    | true,true => .completedIn
    | true,false => .completedOut

/-- The out-transfers that have been submitted and did not complete, and the records. -/
structure Account where
  submitted : BitVec 64 → Option Report
  records : List Record

def Account.add (account : Account) (report : Report) : Account :=
  match report.kind with
  | .nothing => account
  | .submission =>
      { account with submitted := Function.update account.submitted report.hdr.id (some report) }
  | .completedIn =>
      { account with records := account.records ++ [⟨report.hdr,report.packets,report.data⟩] }
  | .completedOut =>
      match account.submitted report.hdr.id with
      | none => account
      | some submission =>
          { submitted := Function.update account.submitted report.hdr.id none
            records := account.records ++ [⟨{ submission.hdr with status := report.hdr.status },
              report.packets,submission.data⟩] }

def accountOf (reports : List Report) : Account :=
  reports.foldl Account.add ⟨fun _ => none,[]⟩

theorem accountOf_append (reports : List Report) (report : Report) :
    accountOf (reports ++ [report]) = (accountOf reports).add report :=
  List.foldl_append

end UsbMonitor

/-! The tracker of submitted out-transfers: its list, map and pool stay apart and agree. -/
namespace UsbMonitor

structure TransferTracker.Consistent (tracker : TransferTracker) : Prop where
  nodup : (tracker.activeTransferList ++ tracker.transferPool).Nodup
  mapped : ∀ t ∈ tracker.activeTransferList,
    tracker.activeTransferMap (tracker.transfers t).hdr.id = some t
  listed : ∀ id t, tracker.activeTransferMap id = some t →
    t ∈ tracker.activeTransferList ∧ (tracker.transfers t).hdr.id = id

namespace TransferTracker

/-- What is known of a submitted transfer. -/
def lookup (tracker : TransferTracker) (id : BitVec 64) :
    Option (UsbMonTransferHdr × List (BitVec 8)) :=
  (tracker.activeTransferMap id).map fun t =>
    ((tracker.transfers t).hdr,(tracker.transfers t).data)

structure Inv (tracker : TransferTracker) : Prop extends tracker.Consistent where
  bound : ∀ t ∈ tracker.activeTransferList ++ tracker.transferPool, t < tracker.allocated

theorem initial_inv : initial.Inv :=
  ⟨⟨List.nodup_nil,fun _ h => absurd h List.not_mem_nil,nofun⟩,
    fun _ h => absurd h List.not_mem_nil⟩

theorem get_spec {tracker tracker' : TransferTracker} {t : ℕ} (h : tracker.Inv)
    (hget : tracker.get = (t,tracker')) :
    tracker'.transfers = tracker.transfers ∧
      tracker'.activeTransferMap = tracker.activeTransferMap ∧
      tracker'.activeTransferList = tracker.activeTransferList ∧ tracker'.Inv ∧
      t < tracker'.allocated ∧ t ∉ tracker'.activeTransferList ++ tracker'.transferPool := by
  unfold get at hget
  cases hpool : tracker.transferPool with
  | nil =>
    rw [hpool] at hget
    cases hget
    have hnodup := h.nodup
    have hbound := h.bound
    rw [hpool] at hnodup hbound
    exact ⟨rfl,rfl,rfl,⟨⟨hnodup,h.mapped,h.listed⟩,fun t ht => Nat.lt_succ_of_lt (hbound t ht)⟩,
      Nat.lt_succ_self _,fun ht => Nat.lt_irrefl _ (hbound _ ht)⟩
  | cons u rest =>
    rw [hpool] at hget
    cases hget
    have hnodup := h.nodup
    have hbound := h.bound
    rw [hpool,List.perm_middle.nodup_iff,List.nodup_cons] at hnodup
    have hmem : ∀ v ∈ tracker.activeTransferList ++ rest,
        v ∈ tracker.activeTransferList ++ tracker.transferPool := by
      intro v hv
      rw [hpool]
      exact List.perm_middle.mem_iff.mpr (List.mem_cons_of_mem t hv)
    have ht : t ∈ tracker.activeTransferList ++ tracker.transferPool := by
      rw [hpool]
      exact List.mem_append_right _ List.mem_cons_self
    exact ⟨rfl,rfl,rfl,⟨⟨hnodup.2,h.mapped,h.listed⟩,fun v hv => hbound v (hmem v hv)⟩,
      hbound t ht,hnodup.1⟩

section Track

variable {tracker : TransferTracker} {t : ℕ} {transfer : Transfer}

section

variable (h : tracker.Inv)

include h

theorem Inv.set (hid : transfer.hdr.id = (tracker.transfers t).hdr.id) :
    (tracker.set t transfer).Inv := by
  have hids : ∀ u, ((tracker.set t transfer).transfers u).hdr.id =
      (tracker.transfers u).hdr.id := by
    intro u
    by_cases hu : u = t
    · subst hu
      simp only [TransferTracker.set,Function.update_self]
      exact hid
    · simp only [TransferTracker.set,Function.update_of_ne hu]
  refine ⟨⟨h.nodup,fun u hu => ?_,fun id u hu => ⟨(h.listed id u hu).1,?_⟩⟩,h.bound⟩
  · rw [hids]
    exact h.mapped u hu
  · rw [hids]
    exact (h.listed id u hu).2

theorem Inv.track (hfresh : t ∉ tracker.activeTransferList ++ tracker.transferPool)
    (hbound : t < tracker.allocated) (hnone : tracker.activeTransferMap transfer.hdr.id = none) :
    ((tracker.set t transfer).track transfer.hdr.id t).Inv := by
  have hne : ∀ u ∈ tracker.activeTransferList, u ≠ t := by
    rintro u hu rfl
    exact hfresh (List.mem_append_left _ hu)
  refine ⟨⟨?_,fun u hu => ?_,fun id u hu => ?_⟩,fun u hu => ?_⟩
  · show (tracker.activeTransferList ++ [t] ++ tracker.transferPool).Nodup
    rw [List.append_assoc]
    exact List.perm_middle.nodup_iff.mpr (List.nodup_cons.mpr ⟨hfresh,h.nodup⟩)
  · show Function.update tracker.activeTransferMap transfer.hdr.id (some t)
      (Function.update tracker.transfers t transfer u).hdr.id = some u
    cases List.mem_append.mp hu with
    | inl hu =>
      rw [Function.update_of_ne (hne u hu)]
      have hmapped := h.mapped u hu
      rw [Function.update_of_ne,hmapped]
      intro heq
      rw [heq,hnone] at hmapped
      cases hmapped
    | inr hu =>
      obtain rfl := List.mem_singleton.mp hu
      rw [Function.update_self,Function.update_self]
  · show u ∈ tracker.activeTransferList ++ [t] ∧
      (Function.update tracker.transfers t transfer u).hdr.id = id
    change Function.update tracker.activeTransferMap transfer.hdr.id (some t) id = some u at hu
    by_cases hid : id = transfer.hdr.id
    · rw [hid,Function.update_self] at hu
      cases hu
      rw [Function.update_self]
      exact ⟨List.mem_append_right _ List.mem_cons_self,hid.symm⟩
    · rw [Function.update_of_ne hid] at hu
      obtain ⟨hmem,heq⟩ := h.listed id u hu
      rw [Function.update_of_ne (hne u hmem)]
      exact ⟨List.mem_append_left _ hmem,heq⟩
  · change u ∈ tracker.activeTransferList ++ [t] ++ tracker.transferPool at hu
    rw [List.append_assoc] at hu
    cases List.mem_cons.mp (List.perm_middle.mem_iff.mp hu) with
    | inl heq => exact heq ▸ hbound
    | inr hmem => exact h.bound u hmem

theorem Inv.release {id : BitVec 64} (hmap : tracker.activeTransferMap id = some t) :
    (tracker.release id t).Inv := by
  obtain ⟨hmem,hid⟩ := h.listed id t hmap
  have hnodup := h.nodup
  have hlist := (List.nodup_append.mp hnodup).1
  have hperm : (tracker.activeTransferList.erase t ++ t :: tracker.transferPool).Perm
      (tracker.activeTransferList ++ tracker.transferPool) :=
    List.perm_middle.trans ((List.perm_cons_erase hmem).symm.append_right _)
  refine ⟨⟨hperm.nodup_iff.mpr hnodup,fun u hu => ?_,fun id' u hu => ?_⟩,
    fun u hu => h.bound u (hperm.mem_iff.mp hu)⟩
  · obtain ⟨hne,hu⟩ := (List.Nodup.mem_erase_iff hlist).mp hu
    have hmapped := h.mapped u hu
    show Function.update tracker.activeTransferMap id none (tracker.transfers u).hdr.id = some u
    rw [Function.update_of_ne,hmapped]
    intro heq
    rw [heq,hmap] at hmapped
    cases hmapped
    exact hne rfl
  · change Function.update tracker.activeTransferMap id none id' = some u at hu
    by_cases hid' : id' = id
    · rw [hid',Function.update_self] at hu
      cases hu
    · rw [Function.update_of_ne hid'] at hu
      obtain ⟨hmem',heq⟩ := h.listed id' u hu
      refine ⟨(List.Nodup.mem_erase_iff hlist).mpr ⟨?_,hmem'⟩,heq⟩
      rintro rfl
      exact hid' (heq.symm.trans hid)

theorem lookup_track (hfresh : t ∉ tracker.activeTransferList ++ tracker.transferPool)
    (id : BitVec 64) :
    ((tracker.set t transfer).track transfer.hdr.id t).lookup id =
      if id = transfer.hdr.id then some (transfer.hdr,transfer.data) else tracker.lookup id := by
  unfold lookup
  show (Function.update tracker.activeTransferMap transfer.hdr.id (some t) id).map (fun u =>
    ((Function.update tracker.transfers t transfer u).hdr,
      (Function.update tracker.transfers t transfer u).data)) = _
  split_ifs with hid
  · rw [hid,Function.update_self,Option.map_some,Function.update_self]
  · rw [Function.update_of_ne hid]
    refine Option.map_congr fun u hu => ?_
    rw [Function.update_of_ne]
    rintro rfl
    exact hfresh (List.mem_append_left _ (h.listed id u hu).1)

theorem lookup_set {id : BitVec 64} (hmap : tracker.activeTransferMap id = some t) (id' : BitVec 64) :
    (tracker.set t transfer).lookup id' =
      if id' = id then some (transfer.hdr,transfer.data) else tracker.lookup id' := by
  unfold lookup
  show (tracker.activeTransferMap id').map (fun u =>
    ((Function.update tracker.transfers t transfer u).hdr,
      (Function.update tracker.transfers t transfer u).data)) = _
  split_ifs with hid
  · rw [hid,hmap,Option.map_some,Function.update_self]
  · refine Option.map_congr fun u hu => ?_
    rw [Function.update_of_ne]
    rintro rfl
    exact hid ((h.listed id' u hu).2.symm.trans (h.listed id u hmap).2)

end

theorem lookup_release (id id' : BitVec 64) :
    (tracker.release id t).lookup id' = if id' = id then none else tracker.lookup id' := by
  unfold lookup
  show (Function.update tracker.activeTransferMap id none id').map _ = _
  split_ifs with hid
  · rw [hid,Function.update_self]
    rfl
  · rw [Function.update_of_ne hid]
    rfl

end Track
end TransferTracker

end UsbMonitor
end Jancy.Io
