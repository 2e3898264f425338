import Jancy.Io.UsbEndpointTransfers
import Mathlib.Data.List.Infix

/-! The writes of an OUT endpoint: what has been accepted is either transmitted or pending. -/
namespace Jancy.Io

namespace AsyncIoDevice

variable {α : Type} {d : AsyncIoDevice α}

structure Stores (d : AsyncIoDevice α) : Prop where
  mode : d.mode.datagram = false
  overflow : d.writeOverflowBuffer = []
  sizes : d.isOpen = true → d.mode.keepWriteBlockSize = true →
    getMetaListDataSize d.writeMetaList = d.writeBuffer.data.length
  unkept : d.mode.keepWriteBlockSize = false → d.writeMetaList = []
  positive : ∀ m ∈ d.writeMetaList, 0 < m.dataSize

theorem Stores.held (h : d.Stores) : d.writeBytesHeld = d.writeBuffer.data := by
  rw [writeBytesHeld,h.overflow,List.append_nil]

theorem Stores.keep (h : d.Stores) {m : ReadWriteMeta α} {rest : List (ReadWriteMeta α)}
    (hm : d.writeMetaList = m :: rest) : d.mode.keepWriteBlockSize = true := by
  by_contra hk
  have := h.unkept (by simpa using hk)
  rw [hm] at this
  cases this

/-- A block is taken only when there is none, and there is none left only when all are taken. -/
theorem Stores.getNextWriteBlock (h : d.Stores) (ho : d.isOpen = true) (block : Block α) :
    (d.getNextWriteBlock block).2.Stores ∧
      (d.getNextWriteBlock block).1.data ++ (d.getNextWriteBlock block).2.writeBytesHeld =
        block.data ++ d.writeBytesHeld ∧
      (d.getNextWriteBlock block).2.activeEvents = d.activeEvents ∧
      (d.getNextWriteBlock block).2.isOpen = d.isOpen ∧
      (block.data ≠ [] → d.getNextWriteBlock block = (block,d)) ∧
      ((d.getNextWriteBlock block).1.data = [] →
        (d.getNextWriteBlock block).2.writeBytesHeld = []) := by
  unfold AsyncIoDevice.getNextWriteBlock
  by_cases hblock : block.data ≠ []
  · rw [if_pos hblock]
    exact ⟨h,rfl,rfl,rfl,fun _ => rfl,fun hnil => absurd hnil hblock⟩
  rw [if_neg hblock]
  rw [not_not] at hblock
  cases hm : d.writeMetaList with
  | nil =>
    simp only [CircularBuffer.readAll_fst,h.overflow,List.append_nil,hblock,List.nil_append]
    refine ⟨⟨h.mode,rfl,fun _ _ => ?_,fun _ => rfl,?_⟩,?_,trivial,trivial,nofun,fun _ => ?_⟩
    · simp [getMetaListDataSize]
    · simp
    · simp [writeBytesHeld,h.overflow]
    · simp [writeBytesHeld]
  | cons m rest =>
    have hk := h.keep hm
    have hsum := h.sizes ho hk
    have hpos := h.positive m (by rw [hm]; exact List.mem_cons_self)
    simp only [hm,getMetaListDataSize,List.map_cons,List.sum_cons] at hsum
    have hshort : ¬ (d.writeBuffer.read m.dataSize).1.length < m.dataSize := by
      rw [CircularBuffer.read_fst,List.length_take]
      omega
    simp only [if_neg hshort]
    refine ⟨⟨h.mode,h.overflow,fun _ _ => ?_,fun hno => ?_,fun m' hm' => ?_⟩,?_,trivial,trivial,
      fun hne => absurd hblock hne,fun hnil => ?_⟩
    · simp only [getMetaListDataSize,CircularBuffer.read_data,List.length_drop]
      omega
    · rw [hk] at hno
      cases hno
    · exact h.positive m' (by rw [hm]; exact List.mem_cons_of_mem m hm')
    · simp [writeBytesHeld,h.overflow,hblock]
    · have hlen := congrArg List.length hnil
      rw [CircularBuffer.read_fst,List.length_take,List.length_nil] at hlen
      omega

/-- Bytes are accepted as far as there is room; an empty block is not to be put. -/
theorem Stores.bufferedWrite (h : d.Stores) (p : List α)
    (hp : p = [] → d.isOpen = false ∨ d.mode.keepWriteBlockSize = false ∨
      d.writeBuffer.isFull = true) :
    (d.bufferedWrite p []).2.Stores ∧
      (d.bufferedWrite p []).2.writeBytesHeld =
        d.writeBytesHeld ++ p.take ((d.bufferedWrite p []).1.result.getD 0) ∧
      ((d.bufferedWrite p []).2.activeEvents = d.activeEvents ∨
        (d.bufferedWrite p []).2.activeEvents =
          d.activeEvents &&& ~~~ AsyncIoDeviceEvent.writeBufferEmpty) ∧
      (d.bufferedWrite p []).2.isOpen = d.isOpen ∧
      ((d.bufferedWrite p []).1.result.getD 0 = 0 →
        (d.bufferedWrite p []).2.writeMetaList.length = d.writeMetaList.length) := by
  unfold AsyncIoDevice.bufferedWrite
  by_cases ho : d.isOpen = false
  · rw [if_pos ho]
    exact ⟨h,by simp,Or.inl rfl,rfl,fun _ => rfl⟩
  rw [if_neg ho]
  unfold addToWriteBuffer
  by_cases hfull : d.writeBuffer.isFull = true
  · rw [if_pos hfull]
    exact ⟨h,by simp,Or.inl rfl,rfl,fun _ => rfl⟩
  rw [if_neg hfull]
  have hspace := d.writeBuffer.not_isFull_iff.mp (by simpa using hfull)
  simp only [h.mode,Bool.and_false,Bool.false_eq_true,if_false,CircularBuffer.write_fst,
    Option.getD_some]
  have hpos : d.mode.keepWriteBlockSize = true → 0 < min p.length d.writeBuffer.space := by
    intro hk
    have hne : p ≠ [] := fun hnil => by
      rcases hp hnil with hc | hc | hc
      · exact ho hc
      · rw [hk] at hc
        cases hc
      · exact hfull hc
    have := List.length_pos_iff.mpr hne
    omega
  refine ⟨⟨h.mode,h.overflow,fun _ hk => ?_,fun hk => ?_,fun m hm => ?_⟩,?_,?_,trivial,fun hz => ?_⟩
  · have hsum := h.sizes (by simpa using ho) hk
    have hk : d.mode.keepWriteBlockSize = true := hk
    simp only [hk,if_true,getMetaListDataSize,List.map_append,List.sum_append,List.map_cons,
      List.map_nil,List.sum_cons,List.sum_nil,CircularBuffer.write_data,List.length_append,
      List.length_take] at hsum ⊢
    omega
  · have hk : d.mode.keepWriteBlockSize = false := hk
    simp only [hk,Bool.false_eq_true,if_false]
    exact h.unkept hk
  · by_cases hk : d.mode.keepWriteBlockSize = true
    · simp only [hk,if_true] at hm
      rcases List.mem_append.mp hm with hm | hm
      · exact h.positive m hm
      · rw [List.mem_singleton.mp hm]
        exact hpos hk
    · simp only [hk] at hm
      exact h.positive m hm
  · simp only [writeBytesHeld,h.overflow,List.append_nil,CircularBuffer.write_data]
    rw [CircularBuffer.write_rest,CircularBuffer.write_fst]
  · exact ite_eq_or_eq _ _ _
  · by_cases hk : d.mode.keepWriteBlockSize = true
    · have := hpos hk
      omega
    · simp [hk]

theorem Stores.close (h : d.Stores) (platform : Platform) : (d.close platform).Stores := by
  cases platform
  · exact ⟨h.mode,h.overflow,nofun,fun _ => rfl,nofun⟩
  · exact ⟨h.mode,h.overflow,nofun,h.unkept,h.positive⟩

end AsyncIoDevice

namespace UsbEndpointState

variable {α : Type} {e e' : UsbEndpointState α} {id left : ℕ} {t : EndpointTransfer α}

/-- The bytes of the write block that are sent, but still in it. -/
def sentSize (e : UsbEndpointState α) : ℕ :=
  match e.completedTransferList with
  | [] => 0
  | t :: _ => (t.result.elim [] EndpointResult.bytes).length

def pending (e : UsbEndpointState α) : List α :=
  e.writeBlock.drop e.sentSize ++ e.device.writeBytesHeld

/-- What writes are about, besides the device and the thread. -/
def writeView (e : UsbEndpointState α) : List (EndpointTransfer α) × List (EndpointTransfer α) ×
    List α × List α × List (α × ℕ) × ℕ × ℕ :=
  (e.completedTransferList,e.activeTransferList,e.writeBlock,e.transmitted,e.accepted,e.emptyBlocks,
    e.emptyTransfers)

def WriteCompleted (e : UsbEndpointState α) : Prop :=
  UsbEndpointEvent.writeCompleted.Meets e.device.activeEvents

instance (e : UsbEndpointState α) : Decidable e.WriteCompleted :=
  inferInstanceAs (Decidable (UsbEndpointEvent.writeCompleted.Meets _))

structure Writes (e : UsbEndpointState α) : Prop where
  isIn : e.isIn = false
  stores : e.device.Stores
  single : e.activeTransferList.length + e.completedTransferList.length ≤ 1
  block : ∀ t ∈ e.activeTransferList, t.block = e.writeBlock ∧ e.writeBlock ≠ []
  order : e.transmitted <+: e.accepted.map Prod.fst
  flow : e.thread.inLoop = true ∨ e.activeTransferList ≠ [] →
    e.transmitted ++ e.pending = e.accepted.map Prod.fst
  noEmpties : e.emptyBlocks = 0 ∧ e.emptyTransfers = 0
  reads : e.thread.inLoop = true → e.thread.left = 0

/-- What holds of the events and of the thread while it is in its loop. -/
structure Told (e : UsbEndpointState α) : Prop where
  noError : e.device.activeEvents &&& AsyncIoBaseEvent.ioError = 0
  busy : e.thread = .sleeping ∨ e.thread = .awake → e.activeTransferList ≠ [] → ¬ e.WriteCompleted
  drained : e.activeTransferList = [] → e.device.writeBuffer.isEmpty = true →
    e.WriteCompleted ∨ e.thread.isSubmitted = true → e.pending = []
  idle : e.thread ≠ .awake → e.woken = false → e.activeTransferList = [] → e.pending = []
  told : e.WriteCompleted →
    ∀ p ∈ e.accepted.drop e.transmitted.length, ∃ r, e.calls[p.2]? = some (.written r)

theorem opened_writes {platform : Platform} {readParallelism readBlockSize : ℕ}
    {device : AsyncIoDevice α} {isSuspended : Bool} (hs : device.Stores)
    (hheld : device.writeBytesHeld = []) :
    (opened platform false readParallelism readBlockSize device isSuspended).Writes where
  isIn := rfl
  stores := hs
  single := Nat.zero_le _
  block := nofun
  order := List.prefix_rfl
  flow _ := by simpa [opened,pending] using hheld
  noEmpties := ⟨rfl,rfl⟩
  reads _ := rfl

theorem opened_told {platform : Platform} {isIn : Bool} {readParallelism readBlockSize : ℕ}
    {device : AsyncIoDevice α} {isSuspended : Bool} (hevents : device.activeEvents = 0)
    (hheld : device.writeBytesHeld = []) :
    (opened platform isIn readParallelism readBlockSize device isSuspended).Told where
  noError := by
    show device.activeEvents &&& _ = 0
    rw [hevents]
    rfl
  busy _ h := absurd rfl h
  drained _ _ _ := by simpa [opened,pending] using hheld
  idle _ h := by cases h
  told _ := nofun

theorem Writes.congr (h : e.Writes) (hisIn : e'.isIn = e.isIn) (hview : e'.writeView = e.writeView)
    (hstores : e.device.Stores → e'.device.Stores)
    (hheld : e'.device.writeBytesHeld = e.device.writeBytesHeld)
    (hloop : e'.thread.inLoop = true → e.thread.inLoop = true ∧ e'.thread.left = 0) :
    e'.Writes := by
  simp only [writeView,Prod.mk.injEq] at hview
  obtain ⟨hcompleted,hactive,hblock,htransmitted,haccepted,hblocks,htransfers⟩ := hview
  have hpending : e'.pending = e.pending := by
    rw [pending,pending,sentSize,sentSize,hcompleted,hblock,hheld]
  refine ⟨hisIn.trans h.isIn,hstores h.stores,?_,?_,?_,fun hin => ?_,?_,fun hin => (hloop hin).2⟩
  · rw [hactive,hcompleted]
    exact h.single
  · rw [hactive,hblock]
    exact h.block
  · rw [htransmitted,haccepted]
    exact h.order
  · rw [htransmitted,haccepted,hpending]
    exact h.flow (hin.imp (fun h' => (hloop h').1) (hactive ▸ ·))
  · rw [hblocks,htransfers]
    exact h.noEmpties

theorem Writes.single_active (h : e.Writes) (ht : t ∈ e.activeTransferList) :
    e.activeTransferList = [t] ∧ e.completedTransferList = [] := by
  have hsingle := h.single
  cases hactive : e.activeTransferList with
  | nil =>
    rw [hactive] at ht
    cases ht
  | cons u rest =>
    rw [hactive,List.length_cons] at hsingle
    have hrest : rest = [] := List.eq_nil_of_length_eq_zero (by omega)
    rw [hactive,hrest,List.mem_singleton] at ht
    exact ⟨by rw [hrest,ht],List.eq_nil_of_length_eq_zero (by omega)⟩

theorem pending_nil (hcompleted : e.completedTransferList = []) :
    e.pending = e.writeBlock ++ e.device.writeBytesHeld := by
  rw [pending,sentSize,hcompleted]
  rfl

variable {r : EndpointResult α}

theorem pending_cons {rest : List (EndpointTransfer α)}
    (hcompleted : e.completedTransferList = t :: rest) (hr : t.result = some r) :
    e.pending = e.writeBlock.drop r.bytes.length ++ e.device.writeBytesHeld := by
  simp only [pending,sentSize,hcompleted,hr,Option.elim_some]

theorem drop_or_nil {l : List α} (n : ℕ) :
    (if n < l.length then l.drop n else []) = l.drop n := by
  split_ifs with hlt
  · rfl
  · exact (List.drop_eq_nil_of_le (Nat.le_of_not_lt hlt)).symm

theorem takeCompleted_spec (hp : e.Places) (ha : e.Awaited) (hw : e.Writes) (ht : e.Told)
    (hthread : e.thread = .awake) :
    (e.takeCompleted.1 = false → e.takeCompleted.2.Places ∧ e.takeCompleted.2.Awaited ∧
        e.takeCompleted.2.Writes ∧ e.takeCompleted.2.Told ∧
        e.takeCompleted.2.completedTransferList = [] ∧ e.takeCompleted.2.thread = .awake) ∧
      (e.takeCompleted.1 = true → Places { e.takeCompleted.2 with thread := .failing } ∧
        Writes { e.takeCompleted.2 with thread := .failing }) := by
  have hne : e.thread ≠ .ended := by simp [hthread]
  have hun : e.thread.unsubmitted = none := by rw [hthread]; rfl
  have hin : e.thread.inLoop = true := by rw [hthread]; rfl
  unfold takeCompleted
  cases hcompleted : e.completedTransferList with
  | nil => exact ⟨fun _ => ⟨hp,ha,hw,ht,hcompleted,hthread⟩,by rintro ⟨⟩⟩
  | cons t rest =>
    have hsingle := hw.single
    rw [hcompleted,List.length_cons] at hsingle
    have hrest : rest = [] := List.eq_nil_of_length_eq_zero (by omega)
    have hactive : e.activeTransferList = [] := List.eq_nil_of_length_eq_zero (by omega)
    subst hrest
    have hput := hp.put hne hcompleted
    have hfail : Places { e.putTransfer t.id with
        completedTransferList := [], thread := .failing } ∧ Writes { e.putTransfer t.id with
        completedTransferList := [], thread := .failing } := by
      refine ⟨hput.congr rfl rfl rfl rfl rfl rfl (Or.inr ⟨hne,EndpointPc.noConfusion,rfl⟩),
        hw.isIn,hw.stores,?_,hw.block,hw.order,fun hor => ?_,hw.noEmpties,by rintro ⟨⟩⟩
      · show e.activeTransferList.length + 0 ≤ 1
        omega
      · rcases hor with hf | hf
        · cases hf
        · exact absurd hactive hf
    cases hres : t.result with
    | none =>
      simp only [hres]
      exact ⟨by rintro ⟨⟩,fun _ => hfail⟩
    | some r =>
      obtain ⟨status,bytes⟩ := r
      cases status with
      | completed =>
        simp only [hres]
        refine ⟨fun _ => ⟨?_,?_,?_,?_,trivial,hthread⟩,by rintro ⟨⟩⟩
        · exact hput.congr rfl rfl rfl rfl rfl rfl (Or.inl rfl)
        · exact ha.congr rfl rfl (Or.inl hun)
        all_goals
          have hpending : pending { e.putTransfer t.id with
              completedTransferList := []
              writeBlock := if bytes.length < e.writeBlock.length then e.writeBlock.drop bytes.length
                else [] } = e.pending := by
            rw [pending_nil rfl,pending_cons hcompleted hres]
            exact congrArg (· ++ _) (drop_or_nil _)
        · refine ⟨hw.isIn,hw.stores,?_,?_,hw.order,fun _ => ?_,hw.noEmpties,hw.reads⟩
          · show e.activeTransferList.length + 0 ≤ 1
            omega
          · show ∀ u ∈ e.activeTransferList, _
            rw [hactive]
            rintro _ ⟨⟩
          · exact (congrArg (e.transmitted ++ ·) hpending).trans
              (hw.flow (Or.inl hin))
        · refine ⟨ht.noError,ht.busy,fun h₁ h₂ h₃ => ?_,fun h₁ => absurd hthread h₁,ht.told⟩
          exact hpending.trans (ht.drained h₁ h₂ h₃)
      | timedOut =>
        simp only [hres]
        exact ⟨by rintro ⟨⟩,fun _ => hfail⟩
      | cancelled =>
        simp only [hres]
        exact ⟨by rintro ⟨⟩,fun _ => hfail⟩
      | failed =>
        simp only [hres]
        exact ⟨by rintro ⟨⟩,fun _ => hfail⟩

theorem updated_events (d : AsyncIoDevice α) :
    UsbEndpointEvent.writeCompleted &&&
        { d with activeEvents := 0 }.updateReadWriteBufferEvents.activeEvents = 0 ∧
      { d with activeEvents := 0 }.updateReadWriteBufferEvents.activeEvents &&&
        AsyncIoBaseEvent.ioError = 0 := by
  unfold AsyncIoDevice.updateReadWriteBufferEvents
  dsimp only
  split_ifs <;> decide

theorem meets_set {u mask : Events} (hmask : mask ≠ 0) : mask.Meets (u ||| mask) := by
  intro h
  rw [BitVec.and_or_distrib_left,BitVec.and_self] at h
  exact hmask (BitVec.or_eq_zero_iff.mp h).2

theorem not_meets_clear {u mask : Events} : ¬ mask.Meets (u &&& ~~~ mask) := by
  rw [Events.Meets,not_not,BitVec.and_comm u,← BitVec.and_assoc]
  simp

theorem finishWrite_events (e : UsbEndpointState α) :
    (e.finishWrite.WriteCompleted ↔
      e.device.writeBuffer.isEmpty = true ∧ e.activeTransferList = []) ∧
      e.finishWrite.device.activeEvents &&& AsyncIoBaseEvent.ioError = 0 := by
  obtain ⟨-,herror⟩ := updated_events e.device
  rw [← List.isEmpty_iff,← Bool.and_eq_true]
  unfold WriteCompleted finishWrite
  dsimp only
  split_ifs with hempty
  · refine ⟨iff_of_true (meets_set (by decide)) hempty,?_⟩
    rw [BitVec.and_comm,BitVec.and_or_distrib_left,BitVec.and_comm,herror]
    decide
  · refine ⟨iff_of_false not_meets_clear hempty,?_⟩
    rw [BitVec.and_assoc,BitVec.and_comm (~~~ _),← BitVec.and_assoc,herror]
    decide

theorem finishWrite_spec (hp : e.Places) (ha : e.Awaited) (hw : e.Writes)
    (hin : e.thread.inLoop = true) (hun : e.thread.unsubmitted = none)
    (hdrained : e.activeTransferList = [] → e.device.writeBuffer.isEmpty = true → e.pending = [])
    (hidle : e.woken = false → e.activeTransferList = [] → e.pending = []) :
    e.finishWrite.Places ∧ e.finishWrite.Awaited ∧ e.finishWrite.Writes ∧ e.finishWrite.Told := by
  obtain ⟨hevent,herror⟩ := e.finishWrite_events
  have hne : e.thread ≠ .ended := by
    intro hended
    rw [hended] at hin
    cases hin
  refine ⟨hp.congr rfl rfl rfl rfl rfl rfl (Or.inr ⟨hne,EndpointPc.noConfusion,rfl⟩),
    ha.congr rfl rfl (Or.inl hun),hw.congr rfl rfl (fun h => ⟨h.1,h.2,h.3,h.4,h.5⟩) rfl
      fun _ => ⟨hin,rfl⟩,herror,?_,?_,?_,?_⟩
  · intro _ hactive hb
    exact hactive (hevent.mp hb).2
  · intro hactive hempty _
    exact hdrained hactive hempty
  · intro _ hwoken hactive
    exact hidle hwoken hactive
  · intro hb
    obtain ⟨hempty,hactive⟩ := hevent.mp hb
    have hflow := hw.flow (Or.inl hin)
    rw [hdrained hactive hempty,List.append_nil] at hflow
    have hlen := congrArg List.length hflow
    rw [List.length_map] at hlen
    show ∀ p ∈ e.accepted.drop e.transmitted.length, _
    rw [hlen,List.drop_length]
    nofun

theorem takeBlock_spec (hp : e.Places) (ha : e.Awaited) (hw : e.Writes)
    (hcompleted : e.completedTransferList = []) (hthread : e.thread = .awake) :
    e.takeBlock.Places ∧ e.takeBlock.Awaited ∧ e.takeBlock.Writes ∧
      e.takeBlock.pending = e.pending ∧
      e.takeBlock.device.activeEvents = e.device.activeEvents ∧
      (e.takeBlock.writeBlock = [] → e.takeBlock.pending = []) := by
  obtain ⟨hstores,hbytes,hevents,hopen,hkeep,hnil⟩ :=
    hw.stores.getNextWriteBlock (hp.isOpen (by simp [hthread])) ⟨e.writeBlock,[]⟩
  have hun : e.thread.unsubmitted = none := by rw [hthread]; rfl
  have hin : e.thread.inLoop = true := by rw [hthread]; rfl
  have hpending : e.takeBlock.pending = e.pending := by
    rw [pending_nil hcompleted,pending_nil (by exact hcompleted)]
    exact hbytes
  refine ⟨hp.congr rfl rfl rfl rfl rfl hopen (Or.inl rfl),ha.congr rfl rfl (Or.inl hun),
    ⟨hw.isIn,hstores,hw.single,fun t ht => ?_,hw.order,fun _ => ?_,hw.noEmpties,hw.reads⟩,hpending,
    hevents,fun hblock => ?_⟩
  · obtain ⟨hblock,hne⟩ := hw.block t ht
    have hsame : e.takeBlock.writeBlock = e.writeBlock :=
      congrArg (fun r => r.1.data) (hkeep hne)
    rw [hsame]
    exact ⟨hblock,hne⟩
  · rw [hpending]
    exact hw.flow (Or.inl hin)
  · rw [pending_nil (by exact hcompleted),hblock]
    exact hnil hblock

theorem writePass_spec (hp : e.Places) (ha : e.Awaited) (hw : e.Writes) (ht : e.Told)
    (hthread : e.thread = .awake) : e.writePass.Places ∧ e.writePass.Writes ∧
      (e.writePass.thread.inLoop = true → e.writePass.Awaited ∧ e.writePass.Told) := by
  obtain ⟨hdone,hfail⟩ := takeCompleted_spec hp ha hw ht hthread
  unfold writePass
  split
  · next e₁ heq =>
    rw [heq] at hfail
    obtain ⟨hplaces,hwrites⟩ := hfail rfl
    exact ⟨hplaces,hwrites,nofun⟩
  next e₁ heq =>
  rw [heq] at hdone
  obtain ⟨hp,ha,hw,ht,hcompleted,hthread⟩ := hdone rfl
  have hthread : e₁.thread = .awake := hthread
  obtain ⟨hp₂,ha₂,hw₂,hpending,hevents,hnil⟩ := takeBlock_spec hp ha hw hcompleted hthread
  have hne : e₁.takeBlock.thread ≠ .ended := by
    show e₁.thread ≠ .ended
    simp [hthread]
  have hun : e₁.takeBlock.thread.unsubmitted = none := by
    show e₁.thread.unsubmitted = none
    rw [hthread]
    rfl
  have hin : e₁.takeBlock.thread.inLoop = true := by
    show e₁.thread.inLoop = true
    rw [hthread]
    rfl
  dsimp only
  by_cases hsubmit : e₁.takeBlock.activeTransferList = [] ∧ e₁.takeBlock.writeBlock ≠ []
  · rw [if_pos hsubmit]
    have hplaces := hp₂.insert hne e₁.takeBlock.writeBlock e₁.takeBlock.writeBlock.length 0
    have hawaited := ha₂.insert hun e₁.takeBlock.writeBlock e₁.takeBlock.writeBlock.length 0
    obtain ⟨pool,n,heq⟩ :=
      e₁.takeBlock.insertTransfer_eq e₁.takeBlock.writeBlock e₁.takeBlock.writeBlock.length 0
    rw [heq] at hplaces hawaited ⊢
    refine ⟨hplaces,⟨hw₂.isIn,hw₂.stores,?_,?_,hw₂.order,fun _ => ?_,hw₂.noEmpties,fun _ => rfl⟩,
      fun _ => ⟨hawaited,?_,?_,?_,?_,?_⟩⟩
    · show (e₁.takeBlock.activeTransferList ++ [_]).length + e₁.completedTransferList.length ≤ 1
      rw [hsubmit.1,hcompleted]
      exact le_rfl
    · show ∀ t ∈ e₁.takeBlock.activeTransferList ++ [_], _
      rw [hsubmit.1,List.nil_append]
      intro t ht
      rw [List.mem_singleton.mp ht]
      exact ⟨rfl,hsubmit.2⟩
    · exact hw₂.flow (Or.inl hin)
    · show e₁.takeBlock.device.activeEvents &&& _ = 0
      rw [hevents]
      exact ht.noError
    · rintro (h | h)
      · cases h
      · cases h
    · exact fun h => absurd h (List.append_ne_nil_of_right_ne_nil _ (List.cons_ne_nil _ _))
    · exact fun _ _ h => absurd h (List.append_ne_nil_of_right_ne_nil _ (List.cons_ne_nil _ _))
    · intro hb
      change UsbEndpointEvent.writeCompleted.Meets e₁.takeBlock.device.activeEvents at hb
      rw [hevents] at hb
      exact ht.told hb
  · rw [if_neg hsubmit]
    have hdrained : e₁.takeBlock.activeTransferList = [] → e₁.takeBlock.pending = [] := by
      intro hactive
      exact hnil (by_contra fun hne => hsubmit ⟨hactive,hne⟩)
    obtain ⟨hplaces,hawaited,hwrites,htold⟩ :=
      finishWrite_spec hp₂ ha₂ hw₂ hin hun (fun h _ => hdrained h) fun _ h => hdrained h
    exact ⟨hplaces,hwrites,fun _ => ⟨hawaited,htold⟩⟩

theorem Writes.submit (h : e.Writes) (hp : e.Places) (hthread : e.thread = .submitting id left)
    (ok : Bool) : (e.submitTransfer id left ok).Writes := by
  obtain ⟨-,t,ht,-⟩ := hp.fresh id (by rw [hthread]; rfl)
  have hin : e.thread.inLoop = true := by rw [hthread]; rfl
  have hleft := h.reads hin
  rw [hthread] at hleft
  refine ⟨h.isIn,h.stores,h.single,h.block,h.order,fun _ => h.flow (Or.inl hin),?_,fun _ => hleft⟩
  refine ⟨h.noEmpties.1,?_⟩
  simp only [submitTransfer,(h.block t ht).2,and_false,if_false]
  exact h.noEmpties.2

theorem Told.submit (h : e.Told) (hp : e.Places) (hthread : e.thread = .submitting id left)
    (ok : Bool) : (e.submitTransfer id left ok).Told := by
  obtain ⟨-,t,ht,-⟩ := hp.fresh id (by rw [hthread]; rfl)
  have hactive : e.activeTransferList ≠ [] := List.ne_nil_of_mem ht
  refine ⟨h.noError,?_,fun hnil => absurd hnil hactive,fun _ _ hnil => absurd hnil hactive,h.told⟩
  rintro (hs | hs)
  · cases hs
  · cases hs

theorem complete_single (hactive : e.activeTransferList = [t])
    (hcompleted : e.completedTransferList = []) : e.onTransferCompleted t r =
      { e.takeBack t r with
        activeTransferList := []
        completedTransferList := [{ t with result := some r }]
        woken := true } := by
  unfold onTransferCompleted
  rw [hactive]
  simp [completeHead,setResult,takeBack,hactive,hcompleted]

theorem Writes.complete (h : e.Writes) (ht : t ∈ e.activeTransferList) (hr : e.Reports t r) :
    (e.onTransferCompleted t r).Writes ∧
      (e.onTransferCompleted t r).transmitted = e.transmitted ++ r.bytes ∧
      (e.onTransferCompleted t r).pending =
        e.writeBlock.drop r.bytes.length ++ e.device.writeBytesHeld := by
  obtain ⟨hactive,hcompleted⟩ := h.single_active ht
  have hfront : r.bytes ++ e.writeBlock.drop r.bytes.length = e.writeBlock := by
    obtain ⟨rest,hrest⟩ := hr.2.2 h.isIn
    rw [← hrest,List.drop_left]
  have hflow := h.flow (Or.inr (List.ne_nil_of_mem ht))
  rw [pending_nil hcompleted,← hfront,List.append_assoc,← List.append_assoc] at hflow
  have hsent : (e.takeBack t r).transmitted = e.transmitted ++ r.bytes := by
    rw [takeBack,h.isIn]
    rfl
  rw [complete_single hactive hcompleted]
  refine ⟨⟨h.isIn,h.stores,le_rfl,by rintro _ ⟨⟩,?_,fun _ => ?_,h.noEmpties,h.reads⟩,hsent,rfl⟩
  · show (e.takeBack t r).transmitted <+: e.accepted.map Prod.fst
    rw [hsent,← hflow]
    exact List.prefix_append _ _
  · show (e.takeBack t r).transmitted ++ _ = e.accepted.map Prod.fst
    rw [hsent,← hflow]
    rfl

theorem Told.complete (h : e.Told) (hw : e.Writes) (ht : t ∈ e.activeTransferList)
    (hr : e.Reports t r) (hall : e.thread.isSubmitted = true → e.device.writeBuffer.isEmpty = true →
      r.bytes = e.writeBlock) (hun : e.thread.unsubmitted = none) (hin : e.thread.inLoop = true) :
    (e.onTransferCompleted t r).Told := by
  obtain ⟨hactive,hcompleted⟩ := hw.single_active ht
  obtain ⟨-,hsent,hpending⟩ := hw.complete ht hr
  have hlater : ∀ p ∈ e.accepted.drop (e.transmitted ++ r.bytes).length,
      p ∈ e.accepted.drop e.transmitted.length := by
    intro p hp
    rw [List.length_append,← List.drop_drop] at hp
    exact List.mem_of_mem_drop hp
  rw [complete_single hactive hcompleted] at hsent hpending ⊢
  refine ⟨h.noError,fun _ hne => absurd rfl hne,fun _ hempty hb => ?_,fun _ hw => ?_,
    fun hb p hp => ?_⟩
  · have hempty : e.device.writeBuffer.isEmpty = true := hempty
    rw [hpending,hw.stores.held]
    have hsubmitted : e.thread.isSubmitted = true := by
      rcases hb with hb | hb
      · -- the thread would have cleared the event before it slept
        cases hthread : e.thread with
        | submitted j n ok =>
          cases ok with
          | true => rfl
          | false =>
            rw [hthread] at hun
            cases hun
        | sleeping => exact absurd hb (h.busy (Or.inl hthread) (List.ne_nil_of_mem ht))
        | awake => exact absurd hb (h.busy (Or.inr hthread) (List.ne_nil_of_mem ht))
        | submitting j n =>
          rw [hthread] at hun
          cases hun
        | failing | cancelling | draining | drainSleeping | ended =>
          rw [hthread] at hin
          cases hin
      · exact hb
    rw [hall hsubmitted hempty,List.drop_length,(CircularBuffer.isEmpty_iff _).mp hempty]
    rfl
  · cases hw
  · rw [hsent] at hp
    exact h.told hb p (hlater p hp)

theorem meets_masked {u mask kept : Events} (h : mask &&& kept = mask) :
    mask.Meets (u &&& kept) ↔ mask.Meets u := by
  rw [Events.Meets,Events.Meets,BitVec.and_comm u,← BitVec.and_assoc,h]

theorem Writes.bufferedWrite (h : e.Writes) {i : ℕ} {p : List α}
    (hp : p = [] → e.device.isOpen = false ∨ e.device.mode.keepWriteBlockSize = false ∨
      e.device.writeBuffer.isFull = true) : (e.bufferedWrite i p).Writes := by
  obtain ⟨hstores,hheld,-,-,hmeta⟩ := h.stores.bufferedWrite p hp
  have haccepted : (e.bufferedWrite i p).accepted.map Prod.fst = e.accepted.map Prod.fst ++
      p.take ((e.device.bufferedWrite p []).1.result.getD 0) := by
    simp [UsbEndpointState.bufferedWrite,Function.comp_def]
  refine ⟨h.isIn,hstores,h.single,h.block,?_,fun hor => ?_,⟨?_,h.noEmpties.2⟩,h.reads⟩
  · rw [haccepted]
    exact h.order.trans (List.prefix_append _ _)
  · rw [haccepted,← h.flow hor,List.append_assoc]
    refine congrArg (e.transmitted ++ ·) ?_
    show e.writeBlock.drop e.sentSize ++ (e.device.bufferedWrite p []).2.writeBytesHeld = _
    rw [hheld,pending,List.append_assoc]
  · simp only [UsbEndpointState.bufferedWrite]
    rw [if_neg fun hboth => hboth.1 (hmeta hboth.2)]
    exact h.noEmpties.1

theorem Told.bufferedWrite (h : e.Told) (hw : e.Writes) {i : ℕ} {p : List α}
    (hp : p = [] → e.device.isOpen = false ∨ e.device.mode.keepWriteBlockSize = false ∨
      e.device.writeBuffer.isFull = true) (hc : e.calls[i]? = some (.write p))
    {r : DeviceReturn α} :
    Told { e.bufferedWrite i p with calls := (e.bufferedWrite i p).calls.set i (.written r) } := by
  obtain ⟨hstores,hheld,hevents,-,-⟩ := hw.stores.bufferedWrite p hp
  have hevent : UsbEndpointEvent.writeCompleted.Meets (e.device.bufferedWrite p []).2.activeEvents ↔
      e.WriteCompleted := by
    rcases hevents with hsame | hclear
    · rw [hsame]
      rfl
    · rw [hclear]
      exact meets_masked (by decide)
  have herror : (e.device.bufferedWrite p []).2.activeEvents &&& AsyncIoBaseEvent.ioError = 0 := by
    rcases hevents with hsame | hclear
    · rw [hsame]
      exact h.noError
    · rw [hclear,BitVec.and_assoc,BitVec.and_comm (~~~ _),← BitVec.and_assoc,h.noError]
      decide
  have hpending : pending { e.bufferedWrite i p with
      calls := (e.bufferedWrite i p).calls.set i (.written r) } =
        e.pending ++ p.take ((e.device.bufferedWrite p []).1.result.getD 0) := by
    show e.writeBlock.drop e.sentSize ++ (e.device.bufferedWrite p []).2.writeBytesHeld = _
    rw [hheld,pending,List.append_assoc]
  refine ⟨herror,?_,fun hactive hempty hb => ?_,fun hne hwoken hactive => ?_,fun hb q hq => ?_⟩
  · intro hthread hactive hb
    exact h.busy hthread hactive (hevent.mp hb)
  · have hnil : e.device.writeBytesHeld ++
        p.take ((e.device.bufferedWrite p []).1.result.getD 0) = [] := by
      rw [← hheld,hstores.held]
      exact (CircularBuffer.isEmpty_iff _).mp hempty
    obtain ⟨hbefore,hnew⟩ := List.append_eq_nil_iff.mp hnil
    rw [hw.stores.held] at hbefore
    rw [hpending,hnew,List.append_nil]
    exact h.drained hactive ((CircularBuffer.isEmpty_iff _).mpr hbefore) (hb.imp_left hevent.mp)
  · change (if (e.device.bufferedWrite p []).1.result.getD 0 = 0 then e.woken else true) = false
      at hwoken
    split_ifs at hwoken with hz
    rw [hpending,hz,List.take_zero,List.append_nil]
    exact h.idle hne hwoken hactive
  · have hb : e.WriteCompleted := hevent.mp hb
    change q ∈ (e.accepted ++ (p.take ((e.device.bufferedWrite p []).1.result.getD 0)).map
      fun x => (x,i)).drop e.transmitted.length at hq
    rw [List.drop_append] at hq
    show ∃ r', (e.calls.set i (.written r))[q.2]? = some (.written r')
    rw [Calls.set_eq hc]
    rcases List.mem_append.mp hq with hq | hq
    · obtain ⟨r',hr'⟩ := h.told hb q hq
      have hne : q.2 ≠ i := by
        rintro heq
        rw [heq,hc] at hr'
        cases hr'
      rw [if_neg hne]
      exact ⟨r',hr'⟩
    · obtain ⟨x,-,rfl⟩ := List.mem_map.mp (List.mem_of_mem_drop hq)
      exact ⟨r,if_pos rfl⟩

theorem Told.clear (h : e.Told) (hw : e.Writes) (hin : e.thread.inLoop = true) (i : ℕ)
    (r : DeviceReturn α) :
    Told { e.clearWriteCompleted with calls := e.clearWriteCompleted.calls.set i (.returned r) } := by
  unfold clearWriteCompleted
  split_ifs with hleft
  · refine ⟨?_,?_,?_,h.idle,?_⟩
    · show (e.device.activeEvents &&& _) &&& _ = _
      rw [BitVec.and_assoc,BitVec.and_comm (~~~ _),← BitVec.and_assoc,h.noError]
      decide
    · exact fun _ _ => not_meets_clear
    · intro hactive hempty hb
      exact h.drained hactive hempty (hb.imp_left fun hb => absurd hb not_meets_clear)
    · exact fun hb => absurd hb not_meets_clear
  · refine ⟨h.noError,h.busy,h.drained,h.idle,fun hb => ?_⟩
    have hnone : e.device.writeBuffer.isEmpty = true ∧ e.activeTransferList = [] := by
      by_contra hsome
      refine hleft ⟨h.noError,?_⟩
      by_cases hempty : e.device.writeBuffer.isEmpty = true
      · exact Or.inr fun hactive => hsome ⟨hempty,hactive⟩
      · exact Or.inl (by simpa using hempty)
    have hflow := hw.flow (Or.inl hin)
    rw [h.drained hnone.2 hnone.1 (Or.inl hb),List.append_nil] at hflow
    have hlen := congrArg List.length hflow
    rw [List.length_map] at hlen
    show ∀ q ∈ e.accepted.drop e.transmitted.length, _
    rw [hlen,List.drop_length]
    nofun

theorem Told.congr (h : e.Told) (hview : e'.writeView = e.writeView) (hdevice : e'.device = e.device)
    (hthread : e'.thread = e.thread ∨ e'.thread = .awake ∧ e.thread = .sleeping)
    (hwoken : e'.woken = false → e.woken = false ∨ e'.thread = .awake)
    (hcalls : ∀ (i : ℕ) (r : DeviceReturn α), e.calls[i]? = some (.written r) →
      ∃ r : DeviceReturn α, e'.calls[i]? = some (.written r)) : e'.Told := by
  simp only [writeView,Prod.mk.injEq] at hview
  obtain ⟨hcompleted,hactive,hblock,htransmitted,haccepted,-,-⟩ := hview
  have hpending : e'.pending = e.pending := by
    rw [pending,pending,sentSize,sentSize,hcompleted,hblock,hdevice]
  have hevent : e'.WriteCompleted ↔ e.WriteCompleted := by rw [WriteCompleted,WriteCompleted,hdevice]
  refine ⟨?_,?_,?_,?_,?_⟩
  · rw [hdevice]
    exact h.noError
  · rw [hactive,hevent]
    intro hrest
    refine h.busy ?_
    rcases hthread with hsame | ⟨-,hs⟩
    · rw [← hsame]
      exact hrest
    · exact Or.inl hs
  · rw [hactive,hdevice,hevent,hpending]
    intro hnil hempty hb
    refine h.drained hnil hempty (hb.imp_right fun hs => ?_)
    rcases hthread with hsame | ⟨hawake,-⟩
    · rw [← hsame]
      exact hs
    · rw [hawake] at hs
      cases hs
  · rw [hactive,hpending]
    intro hne hw hnil
    refine h.idle ?_ ((hwoken hw).resolve_right hne) hnil
    rcases hthread with hsame | ⟨hawake,-⟩
    · rw [← hsame]
      exact hne
    · exact absurd hawake hne
  · rw [hevent,haccepted,htransmitted]
    intro hb q hq
    obtain ⟨r,hr⟩ := h.told hb q hq
    exact hcalls q.2 r hr

end UsbEndpointState
end Jancy.Io
