import Jancy.Io.UsbMonitor

/-! Runs of the monitor: the parser reports, the address filter changes, and the stream is the
records of what has been reported. -/
namespace Jancy.Io
namespace UsbMonitor

/-- The monitor, with the reports that are finished and the one that is going on. -/
structure Session where
  monitor : UsbMonitor
  reports : List Report
  current : Option Report

inductive SessionAction where
  | parse (event : UsbMonParserEvent)
  | setAddressFilter (address : ℕ) (isSetByDriver : Bool)
  deriving DecidableEq, Repr

namespace Session

def initial (isLinux : Bool) (addressFilter : ℕ) : Session :=
  ⟨UsbMonitor.initial isLinux addressFilter,[],none⟩

def allReports (s : Session) : List Report :=
  s.reports ++ s.current.toList

def account (s : Session) : Account :=
  accountOf s.allReports

/-- What has been reported after an event. -/
def report (s : Session) (event : UsbMonParserEvent) : List Report × Option Report :=
  match event with
  | .incompleteHeader => (s.reports,s.current)
  | .completeHeader hdr isoPacketArray =>
      (s.allReports,some ⟨hdr,isoPacketArray,[],s.monitor.isFiltered hdr⟩)
  | .data _ bytes =>
      (s.reports,s.current.map fun report => { report with data := report.data ++ bytes })

def step (s : Session) : SessionAction → Option Session
  | .parse event => some ⟨s.monitor.parse event,(s.report event).1,(s.report event).2⟩
  | .setAddressFilter address isSetByDriver =>
      some { s with monitor := s.monitor.setAddressFilter address isSetByDriver }

/-- All data of the report that is going on has come. -/
def IsDataComplete (s : Session) : Prop :=
  ∀ report, s.current = some report → report.data.length = report.hdr.capturedDataSize.toNat

/-- The bytes added so far are records, each with what its header says once its data has come. -/
structure Proper (s : Session) : Prop where
  stream : s.monitor.readBuffer = s.account.records.flatMap Record.items
  finished : ∀ record ∈ (accountOf s.reports).records, record.WellFormed
  wellFormed : s.IsDataComplete → ∀ record ∈ s.account.records, record.WellFormed
  consistent : s.monitor.transferTracker.Consistent

def ParserOk (s : Session) : SessionAction → Prop
  | .parse .incompleteHeader => s.IsDataComplete
  | .parse (.completeHeader hdr isoPacketArray) =>
      s.IsDataComplete ∧
        (hdr.isIsochronous = true → isoPacketArray.length = hdr.packetCount.toNat)
  | .parse (.data state bytes) => ∃ report, s.current = some report ∧
      match state with
      | .incomplete =>
          report.data.length + bytes.length < report.hdr.capturedDataSize.toNat
      | .complete | .truncated =>
          report.data.length + bytes.length = report.hdr.capturedDataSize.toNat
  | .setAddressFilter .. => True

def StepOk (s : Session) : SessionAction → Prop
  | .parse (.completeHeader hdr isoPacketArray) =>
      match (Report.mk hdr isoPacketArray [] (s.monitor.isFiltered hdr)).kind with
      | .submission => s.monitor.transferTracker.activeTransferMap hdr.id = none
      | .completedOut => ∀ t, s.monitor.transferTracker.activeTransferMap hdr.id = some t →
          hdr.isoCount = (s.monitor.transferTracker.transfers t).hdr.isoCount
      | _ => True
  | _ => True

end Session

/-- What all reports of an account have that got their data. -/
structure Account.Sound (account : Account) : Prop where
  records : ∀ record ∈ account.records, record.WellFormed
  submitted : ∀ id submission, account.submitted id = some submission →
    submission.data.length = submission.hdr.capturedDataSize.toNat

/-- The packets of a report are as many as its header says, and its submission says. -/
structure Account.Agrees (account : Account) (report : Report) : Prop where
  packets : report.packets.length = report.hdr.isoCount
  submission : report.kind = .completedOut → ∀ submission,
    account.submitted report.hdr.id = some submission →
    report.hdr.isoCount = submission.hdr.isoCount

theorem Report.packets_length {report : Report} (h : report.hdr.isIsochronous = true →
    report.isoPacketArray.length = report.hdr.packetCount.toNat) :
    report.packets.length = report.hdr.isoCount := by
  unfold Report.packets UsbMonTransferHdr.isoCount
  split_ifs with hiso
  · exact h hiso
  · rfl

section Add

variable {account : Account} {report : Report}

theorem Account.add_nothing (hkind : report.kind = .nothing) : account.add report = account := by
  unfold Account.add
  rw [hkind]

theorem Account.add_submission (hkind : report.kind = .submission) :
    account.add report = { account with
      submitted := Function.update account.submitted report.hdr.id (some report) } := by
  unfold Account.add
  rw [hkind]

theorem Account.add_completedIn (hkind : report.kind = .completedIn) :
    account.add report = { account with
      records := account.records ++ [⟨report.hdr,report.packets,report.data⟩] } := by
  unfold Account.add
  rw [hkind]

theorem Account.add_untracked (hkind : report.kind = .completedOut)
    (hsub : account.submitted report.hdr.id = none) : account.add report = account := by
  unfold Account.add
  rw [hkind]
  dsimp only
  rw [hsub]

theorem Account.add_completedOut {submission : Report} (hkind : report.kind = .completedOut)
    (hsub : account.submitted report.hdr.id = some submission) :
    account.add report =
      { submitted := Function.update account.submitted report.hdr.id none
        records := account.records ++ [⟨{ submission.hdr with status := report.hdr.status },
          report.packets,submission.data⟩] } := by
  unfold Account.add
  rw [hkind]
  dsimp only
  rw [hsub]

theorem Account.Sound.add (h : account.Sound) (hagrees : account.Agrees report)
    (hdata : report.data.length = report.hdr.capturedDataSize.toNat) :
    (account.add report).Sound := by
  cases hkind : report.kind with
  | nothing =>
    rw [Account.add_nothing hkind]
    exact h
  | submission =>
    rw [Account.add_submission hkind]
    refine ⟨h.records,fun id submission hs => ?_⟩
    simp only [Function.update_apply] at hs
    split_ifs at hs with hid
    · cases hs
      exact hdata
    · exact h.submitted id submission hs
  | completedIn =>
    rw [Account.add_completedIn hkind]
    refine ⟨List.forall_mem_append.mpr ⟨h.records,?_⟩,h.submitted⟩
    exact List.forall_mem_singleton.mpr ⟨hagrees.packets,hdata⟩
  | completedOut =>
    cases hsub : account.submitted report.hdr.id with
    | none =>
      rw [Account.add_untracked hkind hsub]
      exact h
    | some submission =>
      rw [Account.add_completedOut hkind hsub]
      refine ⟨List.forall_mem_append.mpr ⟨h.records,?_⟩,fun id other hs => ?_⟩
      · refine List.forall_mem_singleton.mpr ⟨?_,h.submitted _ _ hsub⟩
        exact hagrees.packets.trans (hagrees.submission hkind submission hsub)
      · simp only [Function.update_apply] at hs
        split_ifs at hs with hid
        exact h.submitted id other hs

end Add

structure Ties (monitor : UsbMonitor) (account : Account) : Prop where
  tracker : monitor.transferTracker.Inv
  tracked : ∀ id, monitor.transferTracker.lookup id =
    (account.submitted id).map fun submission => (submission.hdr,submission.data)
  stream : monitor.readBuffer = account.records.flatMap Record.items

/-- Where the data after a header of this kind goes. -/
def ReportKind.dataMode : ReportKind → TransferDataMode
  | .nothing | .completedOut => .ignore
  | .submission => .addToTransfer
  | .completedIn => .addToBuffer

/-- The parser context is that of the last header. -/
structure Follows (monitor : UsbMonitor) (report : Report) : Prop where
  dataMode : monitor.context.dataMode = report.kind.dataMode
  transfer : report.kind = .submission → ∃ t, monitor.context.transfer = some t ∧
    monitor.transferTracker.activeTransferMap report.hdr.id = some t

section Header

variable {monitor : UsbMonitor} {account : Account} {hdr : UsbMonTransferHdr}
  {isoPacketArray : List UsbMonIsoPacket}

theorem onHeader_eq (monitor : UsbMonitor) (hdr : UsbMonTransferHdr)
    (isoPacketArray : List UsbMonIsoPacket) :
    monitor.onHeader hdr isoPacketArray =
      match (Report.mk hdr isoPacketArray [] (monitor.isFiltered hdr)).kind with
      | .nothing => monitor.setDataMode .ignore
      | .submission => monitor.submit hdr isoPacketArray
      | .completedIn => monitor.completeIn hdr isoPacketArray
      | .completedOut => monitor.completeOut hdr isoPacketArray := by
  unfold onHeader Report.kind
  cases monitor.isFiltered hdr with
  | true => rfl
  | false => cases hdr.isCompleted <;> cases hdr.isIn <;> rfl

theorem readArray_all {α : Type*} (item : α → UsbMonItem) {array : List α} {count : ℕ}
    (h : array.length = count) : readArray item array count = array.map item := by
  subst h
  simp only [readArray,List.take_length,Nat.sub_self,List.replicate_zero,List.append_nil]

theorem addIsoPackets_readBuffer (report : Report)
    (h : report.packets.length = report.hdr.isoCount) :
    (monitor.addIsoPackets report.hdr report.isoPacketArray).readBuffer =
      monitor.readBuffer ++ report.packets.map .packet := by
  unfold addIsoPackets
  unfold Report.packets UsbMonTransferHdr.isoCount at h
  unfold Report.packets
  split_ifs at h ⊢ with hiso
  · exact congrArg (monitor.readBuffer ++ ·) (readArray_all UsbMonItem.packet h)
  · exact (List.append_nil _).symm

theorem addIsoPackets_tracker (monitor : UsbMonitor) (hdr : UsbMonTransferHdr)
    (isoPacketArray : List UsbMonIsoPacket) :
    (monitor.addIsoPackets hdr isoPacketArray).transferTracker = monitor.transferTracker := by
  unfold addIsoPackets
  split_ifs <;> rfl

theorem items_append (records : List Record) (record : Record) :
    (records ++ [record]).flatMap Record.items = records.flatMap Record.items ++ record.items := by
  rw [List.flatMap_append,List.flatMap_singleton]

theorem Ties.submit (h : Ties monitor account) (report : Report)
    (hkind : report.kind = .submission) (hdata : report.data = [])
    (hnone : monitor.transferTracker.activeTransferMap report.hdr.id = none) :
    Ties (monitor.submit report.hdr report.isoPacketArray) (account.add report) ∧
      Follows (monitor.submit report.hdr report.isoPacketArray) report := by
  rw [Account.add_submission hkind]
  rcases hget : monitor.transferTracker.get with ⟨t,tracker⟩
  obtain ⟨htransfers,hmap,hlist,hinv,hbound,hfresh⟩ :=
    TransferTracker.get_spec h.tracker hget
  have hsubmit : ∃ transfer : Transfer, transfer.hdr = report.hdr ∧ transfer.data = [] ∧
      monitor.submit report.hdr report.isoPacketArray =
        { monitor with
          transferTracker := (tracker.set t transfer).track transfer.hdr.id t
          context := ⟨some t,.addToTransfer⟩ } := by
    unfold UsbMonitor.submit
    rw [hget]
    exact ⟨⟨report.hdr,_,[]⟩,rfl,rfl,rfl⟩
  obtain ⟨transfer,hhdr,hempty,heq⟩ := hsubmit
  rw [heq]
  rw [← hmap,← hhdr] at hnone
  refine ⟨⟨hinv.track hfresh hbound hnone,fun id => ?_,h.stream⟩,⟨?_,fun _ => ⟨t,rfl,?_⟩⟩⟩
  · refine (TransferTracker.lookup_track hinv hfresh id).trans ?_
    simp only [Function.update_apply,hhdr,hempty]
    split_ifs with hid
    · rw [Option.map_some,hdata]
    · rw [← h.tracked id]
      unfold TransferTracker.lookup
      rw [hmap,htransfers]
  · rw [hkind]
    rfl
  · rw [← hhdr]
    exact Function.update_self _ _ _

theorem Ties.completeIn (h : Ties monitor account) (report : Report)
    (hkind : report.kind = .completedIn) (hdata : report.data = [])
    (hpackets : report.packets.length = report.hdr.isoCount) :
    Ties (monitor.completeIn report.hdr report.isoPacketArray) (account.add report) ∧
      Follows (monitor.completeIn report.hdr report.isoPacketArray) report := by
  rw [Account.add_completedIn hkind]
  have htracker : (monitor.completeIn report.hdr report.isoPacketArray).transferTracker =
      monitor.transferTracker := addIsoPackets_tracker _ _ _
  refine ⟨⟨?_,?_,?_⟩,⟨?_,fun h => ?_⟩⟩
  · rw [htracker]
    exact h.tracker
  · rw [htracker]
    exact h.tracked
  · refine (addIsoPackets_readBuffer report hpackets).trans ?_
    rw [items_append,← h.stream]
    simp only [addToReadBuffer,Record.items,hdata,List.map_nil,List.append_nil,List.append_assoc,
      List.singleton_append]
  · rw [hkind]
    rfl
  · rw [hkind] at h
    cases h

def Transfer.complete (transfer : Transfer) (status : BitVec 32) : Transfer :=
  { transfer with hdr := { transfer.hdr with status := status } }

theorem completeOut_none (hmap : monitor.transferTracker.activeTransferMap hdr.id = none) :
    monitor.completeOut hdr isoPacketArray = monitor.setDataMode .ignore := by
  unfold completeOut
  dsimp only [setDataMode]
  rw [hmap]

theorem completeOut_some (isoPacketArray : List UsbMonIsoPacket) {t : ℕ}
    (hmap : monitor.transferTracker.activeTransferMap hdr.id = some t) :
    (monitor.completeOut hdr isoPacketArray).transferTracker =
      (monitor.transferTracker.set t
        ((monitor.transferTracker.transfers t).complete hdr.status)).release hdr.id t ∧
    (monitor.completeOut hdr isoPacketArray).context.dataMode = .ignore ∧
    (monitor.completeOut hdr isoPacketArray).readBuffer =
      ((monitor.addToReadBuffer
          [.hdr { (monitor.transferTracker.transfers t).hdr with status := hdr.status }]).addIsoPackets
        hdr isoPacketArray).readBuffer ++
      readArray .byte (monitor.transferTracker.transfers t).data
        (monitor.transferTracker.transfers t).hdr.capturedDataSize.toNat := by
  unfold completeOut
  dsimp only [setDataMode]
  rw [hmap]
  dsimp only [addToReadBuffer]
  unfold addIsoPackets
  split_ifs <;> exact ⟨rfl,rfl,rfl⟩

theorem Ties.completeOut (h : Ties monitor account) (hsound : account.Sound) (report : Report)
    (hkind : report.kind = .completedOut)
    (hpackets : report.packets.length = report.hdr.isoCount) :
    Ties (monitor.completeOut report.hdr report.isoPacketArray) (account.add report) ∧
      Follows (monitor.completeOut report.hdr report.isoPacketArray) report := by
  have htracked := h.tracked report.hdr.id
  unfold TransferTracker.lookup at htracked
  have hnot : ¬report.kind = .submission := by
    rw [hkind]
    exact nofun
  cases hmap : monitor.transferTracker.activeTransferMap report.hdr.id with
  | none =>
    rw [hmap] at htracked
    rw [completeOut_none hmap,
      Account.add_untracked hkind (Option.map_eq_none_iff.mp htracked.symm)]
    refine ⟨⟨h.tracker,h.tracked,h.stream⟩,⟨?_,fun h => absurd h hnot⟩⟩
    rw [hkind]
    rfl
  | some t =>
    rw [hmap] at htracked
    obtain ⟨submission,hsub,hpair⟩ := Option.map_eq_some_iff.mp htracked.symm
    obtain ⟨hhdr,hdata⟩ := Prod.mk.inj hpair
    obtain ⟨htracker,hmode,hbuffer⟩ :=
      completeOut_some report.isoPacketArray hmap
    rw [Account.add_completedOut hkind hsub]
    have hset : (monitor.transferTracker.set t
        ((monitor.transferTracker.transfers t).complete report.hdr.status)).Inv :=
      h.tracker.set rfl
    refine ⟨⟨?_,fun id => ?_,?_⟩,⟨?_,fun h => absurd h hnot⟩⟩
    · rw [htracker]
      exact hset.release hmap
    · rw [htracker]
      refine (TransferTracker.lookup_release report.hdr.id id).trans ?_
      simp only [Function.update_apply]
      split_ifs with hid
      · rfl
      · refine (TransferTracker.lookup_set h.tracker hmap id).trans ?_
        rw [if_neg hid]
        exact h.tracked id
    · have hlength := hsound.submitted _ _ hsub
      rw [hbuffer,addIsoPackets_readBuffer report hpackets,items_append,← h.stream,← hhdr,← hdata,
        readArray_all UsbMonItem.byte hlength]
      simp only [addToReadBuffer,Record.items,List.append_assoc,List.cons_append,List.nil_append]
    · rw [hmode,hkind]
      rfl

theorem Ties.onHeader (h : Ties monitor account) (hsound : account.Sound)
    (hagrees : account.Agrees ⟨hdr,isoPacketArray,[],monitor.isFiltered hdr⟩)
    (hfresh : (Report.mk hdr isoPacketArray [] (monitor.isFiltered hdr)).kind = .submission →
      monitor.transferTracker.activeTransferMap hdr.id = none) :
    Ties (monitor.onHeader hdr isoPacketArray)
        (account.add ⟨hdr,isoPacketArray,[],monitor.isFiltered hdr⟩) ∧
      Follows (monitor.onHeader hdr isoPacketArray)
        ⟨hdr,isoPacketArray,[],monitor.isFiltered hdr⟩ := by
  rw [onHeader_eq]
  generalize hreport : Report.mk hdr isoPacketArray [] (monitor.isFiltered hdr) = report at *
  obtain rfl : hdr = report.hdr := congrArg Report.hdr hreport
  obtain rfl : isoPacketArray = report.isoPacketArray := congrArg Report.isoPacketArray hreport
  have hdata : report.data = [] := (congrArg Report.data hreport).symm
  cases hkind : report.kind with
  | nothing =>
    rw [Account.add_nothing hkind]
    refine ⟨⟨h.tracker,h.tracked,h.stream⟩,⟨?_,fun h => ?_⟩⟩
    · rw [hkind]
      rfl
    · rw [hkind] at h
      cases h
  | submission => exact h.submit report hkind hdata (hfresh hkind)
  | completedIn => exact h.completeIn report hkind hdata hagrees.packets
  | completedOut => exact h.completeOut hsound report hkind hagrees.packets

end Header

section Data

variable {monitor : UsbMonitor} {account : Account} {report : Report}

theorem onData_ignore (h : monitor.context.dataMode = .ignore) (bytes : List (BitVec 8)) :
    monitor.onData bytes = monitor := by
  unfold onData
  rw [h]

theorem Account.add_ignore (h : report.kind.dataMode = .ignore) (bytes : List (BitVec 8)) :
    account.add { report with data := report.data ++ bytes } = account.add report := by
  have hsame : Report.kind { report with data := report.data ++ bytes } = report.kind := rfl
  cases hkind : report.kind with
  | nothing => rw [Account.add_nothing hkind,Account.add_nothing (hsame.trans hkind)]
  | completedOut =>
    cases hsub : account.submitted report.hdr.id with
    | none => rw [Account.add_untracked hkind hsub,Account.add_untracked (hsame.trans hkind) hsub]
    | some submission =>
      rw [Account.add_completedOut hkind hsub,Account.add_completedOut (hsame.trans hkind) hsub]
      rfl
  | submission =>
    rw [hkind] at h
    cases h
  | completedIn =>
    rw [hkind] at h
    cases h

theorem Ties.onData (hfollows : Follows monitor report) (h : Ties monitor (account.add report))
    (bytes : List (BitVec 8)) :
    Ties (monitor.onData bytes) (account.add { report with data := report.data ++ bytes }) ∧
      Follows (monitor.onData bytes) { report with data := report.data ++ bytes } := by
  have hsame : Report.kind { report with data := report.data ++ bytes } = report.kind := rfl
  have hmode := hfollows.dataMode
  cases hkind : report.kind with
  | nothing =>
    have hignore : report.kind.dataMode = .ignore := by
      rw [hkind]
      rfl
    rw [onData_ignore (hmode.trans hignore),Account.add_ignore hignore]
    exact ⟨h,hfollows.dataMode,hfollows.transfer⟩
  | completedOut =>
    have hignore : report.kind.dataMode = .ignore := by
      rw [hkind]
      rfl
    rw [onData_ignore (hmode.trans hignore),Account.add_ignore hignore]
    exact ⟨h,hfollows.dataMode,hfollows.transfer⟩
  | completedIn =>
    have heq : monitor.onData bytes = monitor.addToReadBuffer (bytes.map .byte) := by
      unfold UsbMonitor.onData
      rw [hmode,hkind]
      rfl
    rw [Account.add_completedIn hkind] at h
    rw [heq,Account.add_completedIn (hsame.trans hkind)]
    refine ⟨⟨h.tracker,h.tracked,?_⟩,hfollows.dataMode,hfollows.transfer⟩
    have hstream := h.stream
    rw [items_append] at hstream ⊢
    show monitor.readBuffer ++ bytes.map UsbMonItem.byte = _
    rw [hstream]
    simp only [Record.items,List.map_append,List.append_assoc,List.cons_append]
    rfl
  | submission =>
    obtain ⟨t,htransfer,hmap⟩ := hfollows.transfer hkind
    have heq : monitor.onData bytes = { monitor with
        transferTracker := monitor.transferTracker.set t
          { monitor.transferTracker.transfers t with
            data := (monitor.transferTracker.transfers t).data ++ bytes } } := by
      unfold UsbMonitor.onData
      simp only [hmode,hkind,htransfer,ReportKind.dataMode]
    rw [Account.add_submission hkind] at h
    rw [heq,Account.add_submission (hsame.trans hkind)]
    have htracked := h.tracked
    refine ⟨⟨h.tracker.set rfl,fun id => ?_,h.stream⟩,hfollows.dataMode,fun _ => ⟨t,htransfer,hmap⟩⟩
    refine (TransferTracker.lookup_set h.tracker hmap id).trans ?_
    have hself := htracked report.hdr.id
    unfold TransferTracker.lookup at hself
    rw [hmap] at hself
    simp only [Function.update_self,Option.map_some] at hself
    obtain ⟨hhdr,hdata⟩ := Prod.mk.inj (Option.some.inj hself)
    simp only [Function.update_apply] at htracked ⊢
    split_ifs with hid
    · rw [hhdr,hdata]
      rfl
    · rw [htracked id,if_neg hid]

end Data

namespace Session

variable {s s' : Session}

structure Inv (s : Session) : Prop where
  ties : Ties s.monitor s.account
  sound : (accountOf s.reports).Sound
  agrees : ∀ report, s.current = some report → (accountOf s.reports).Agrees report
  follows : ∀ report, s.current = some report → Follows s.monitor report
  idle : s.current = none → s.monitor.context.dataMode = .ignore

theorem account_none (h : s.current = none) : s.account = accountOf s.reports := by
  unfold account allReports
  rw [h]
  exact congrArg accountOf (List.append_nil s.reports)

theorem account_some {report : Report} (h : s.current = some report) :
    s.account = (accountOf s.reports).add report := by
  unfold account allReports
  rw [h]
  exact accountOf_append s.reports report

theorem initial_inv (isLinux : Bool) (addressFilter : ℕ) : (initial isLinux addressFilter).Inv :=
  ⟨⟨TransferTracker.initial_inv,fun _ => rfl,rfl⟩,⟨fun _ h => absurd h List.not_mem_nil,nofun⟩,
    nofun,nofun,fun _ => rfl⟩

theorem Inv.account_sound (h : s.Inv) (hcomplete : s.IsDataComplete) : s.account.Sound := by
  cases hcurrent : s.current with
  | none =>
    rw [account_none hcurrent]
    exact h.sound
  | some report =>
    rw [account_some hcurrent]
    exact h.sound.add (h.agrees report hcurrent) (hcomplete report hcurrent)

theorem Inv.proper (h : s.Inv) : s.Proper :=
  ⟨h.ties.stream,h.sound.records,fun hcomplete => (h.account_sound hcomplete).records,
    h.ties.tracker.toConsistent⟩

theorem Inv.onHeader (h : s.Inv) {hdr : UsbMonTransferHdr} {isoPacketArray : List UsbMonIsoPacket}
    (hparser : s.ParserOk (.parse (.completeHeader hdr isoPacketArray)))
    (hok : s.StepOk (.parse (.completeHeader hdr isoPacketArray))) :
    Inv ⟨s.monitor.onHeader hdr isoPacketArray,s.allReports,
      some ⟨hdr,isoPacketArray,[],s.monitor.isFiltered hdr⟩⟩ := by
  have hsound : (accountOf s.allReports).Sound := h.account_sound hparser.1
  unfold StepOk at hok
  dsimp only at hok
  have hagrees : (accountOf s.allReports).Agrees
      ⟨hdr,isoPacketArray,[],s.monitor.isFiltered hdr⟩ := by
    refine ⟨Report.packets_length hparser.2,fun hkind submission hsub => ?_⟩
    rw [hkind] at hok
    have htracked := h.ties.tracked hdr.id
    rw [show s.account.submitted hdr.id = some submission from hsub] at htracked
    obtain ⟨t,hmap,hpair⟩ := Option.map_eq_some_iff.mp htracked
    rw [← (Prod.mk.inj hpair).1]
    exact hok t hmap
  have hheader := h.ties.onHeader hsound hagrees fun hkind => by
    rw [hkind] at hok
    exact hok
  refine ⟨?_,hsound,?_,?_,nofun⟩
  · rw [account_some rfl]
    exact hheader.1
  · rintro report ⟨⟩
    exact hagrees
  · rintro report ⟨⟩
    exact hheader.2

theorem Inv.onData (h : s.Inv) (bytes : List (BitVec 8)) :
    Inv ⟨s.monitor.onData bytes,s.reports,
      s.current.map fun report => { report with data := report.data ++ bytes }⟩ := by
  cases hcurrent : s.current with
  | none =>
    have hties := h.ties
    rw [account_none hcurrent] at hties
    rw [onData_ignore (h.idle hcurrent)]
    refine ⟨?_,h.sound,nofun,nofun,fun _ => h.idle hcurrent⟩
    rw [account_none rfl]
    exact hties
  | some report =>
    have hties := h.ties
    rw [account_some hcurrent] at hties
    have hdata := hties.onData (h.follows report hcurrent) bytes
    refine ⟨?_,h.sound,?_,?_,nofun⟩
    · rw [account_some rfl]
      exact hdata.1
    · rintro _ ⟨⟩
      exact ⟨(h.agrees report hcurrent).packets,(h.agrees report hcurrent).submission⟩
    · rintro _ ⟨⟩
      exact hdata.2

theorem Inv.step {a : SessionAction} (h : s.Inv) (hok : s.ParserOk a ∧ s.StepOk a)
    (hstep : s.step a = some s') : s'.Inv := by
  cases a with
  | setAddressFilter address isSetByDriver =>
    cases hstep
    unfold setAddressFilter
    split_ifs
    · exact h
    · exact ⟨⟨h.ties.tracker,h.ties.tracked,h.ties.stream⟩,h.sound,h.agrees,
        fun report hreport => ⟨(h.follows report hreport).dataMode,
          (h.follows report hreport).transfer⟩,h.idle⟩
  | parse event =>
    cases hstep
    cases event with
    | incompleteHeader => exact h
    | completeHeader hdr isoPacketArray => exact h.onHeader hok.1 hok.2
    | data state bytes => exact h.onData bytes

/-- In every run whose steps meet the condition the read buffer is a sequence of records, and the
tracker stays consistent. -/
theorem stream_proper_of_stepOk (isLinux : Bool) (addressFilter : ℕ) (as : List SessionAction)
    (hparser : Run.Along step ParserOk (initial isLinux addressFilter) as)
    (hok : Run.Along step StepOk (initial isLinux addressFilter) as) :
    Run.Always step Proper (initial isLinux addressFilter) as :=
  Run.always_of_along (fun _ h => h.proper) (fun _ _ _ h hok hstep => h.step hok hstep)
    (initial_inv isLinux addressFilter) (hparser.and hok)

/-- An out-transfer with one byte is submitted, an in-transfer completes, and then the first one. -/
theorem stream_proper_of_stepOk_transfers :
    Run.Always step Proper (initial true 3)
      [.parse (.completeHeader ⟨1,0,0,2,3,2,1,0,[]⟩ []),.parse (.data .complete [7]),
        .parse (.completeHeader ⟨2,0,1,2,3,0x81,2,0,[]⟩ []),.parse (.data .incomplete [8]),
        .parse (.data .complete [9]),.parse (.completeHeader ⟨1,5,1,2,3,2,0,0,[]⟩ [])] := by
  refine stream_proper_of_stepOk true 3 _ ?_ ?_
  · refine .cons rfl ⟨nofun,nofun⟩ <| .cons rfl ⟨_,rfl,rfl⟩ <|
      .cons rfl ⟨?_,nofun⟩ <| .cons rfl ⟨_,rfl,?_⟩ <|
      .cons rfl ⟨_,rfl,rfl⟩ <| .cons rfl ⟨?_,nofun⟩ trivial
    · rintro report ⟨⟩
      rfl
    · exact Nat.one_lt_two
    · rintro report ⟨⟩
      rfl
  · refine .cons rfl rfl <| .cons rfl trivial <| .cons rfl trivial <|
      .cons rfl trivial <| .cons rfl trivial <| .cons rfl ?_ trivial
    intro t ht
    cases ht
    rfl

/-- The id of a tracked out-transfer is submitted again. -/
def submittedAgain : List SessionAction :=
  [.parse (.completeHeader ⟨1,0,0,2,3,2,0,0,[]⟩ []),
    .parse (.completeHeader ⟨1,0,0,2,3,2,0,0,[]⟩ [])]

/-- An isochronous out-transfer of two packets completes with one. -/
def completedShorter : List SessionAction :=
  [.parse (.completeHeader ⟨1,0,0,1,3,2,0,2,[]⟩ [⟨0,0,4⟩,⟨0,4,4⟩]),
    .parse (.completeHeader ⟨1,0,1,1,3,2,0,1,[]⟩ [⟨0,0,4⟩])]

/-- An id that is submitted again leaves a transfer in the list that the map does not have; a record
gets the packets of the completion behind the header of the submission. -/
theorem stream_not_always_proper :
    (Run.Along step ParserOk (initial true 0) submittedAgain ∧
      ¬Run.Always step Proper (initial true 0) submittedAgain) ∧
    Run.Along step ParserOk (initial true 0) completedShorter ∧
      ¬Run.Always step Proper (initial true 0) completedShorter := by
  refine ⟨⟨?_,fun h => ?_⟩,?_,fun h => ?_⟩
  · refine .cons rfl ⟨nofun,nofun⟩ <| .cons rfl ⟨?_,nofun⟩ trivial
    rintro report ⟨⟩
    rfl
  · have hmapped := (h.last rfl).consistent.mapped 0 List.mem_cons_self
    cases hmapped
  · refine .cons rfl ⟨nofun,fun _ => rfl⟩ <|
      .cons rfl ⟨?_,fun _ => rfl⟩ trivial
    rintro report ⟨⟩
    rfl
  · have hformed := (h.last rfl).wellFormed (by rintro report ⟨⟩; rfl) _ List.mem_cons_self
    cases hformed.1

end Session
end UsbMonitor
end Jancy.Io
