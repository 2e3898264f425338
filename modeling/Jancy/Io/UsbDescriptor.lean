import Mathlib.Data.List.Basic
import Mathlib.Algebra.Order.Group.Nat

/-! Descriptors of USB configurations: the copy of what `libusb` reports, a table of interfaces with a
linked list of alternate settings for each, and the lookup of interfaces and endpoints in it. -/
namespace Jancy.Io.UsbDescriptor

structure LibusbEndpointDescriptor where
  bEndpointAddress : UInt8
  bmAttributes : UInt8
  wMaxPacketSize : UInt16
  bInterval : UInt8
  bRefresh : UInt8
  bSynchAddress : UInt8
  deriving DecidableEq

structure LibusbInterfaceDescriptor where
  bInterfaceNumber : UInt8
  bAlternateSetting : UInt8
  bInterfaceClass : UInt8
  bInterfaceSubClass : UInt8
  bInterfaceProtocol : UInt8
  iInterface : UInt8
  endpoint : List LibusbEndpointDescriptor
  deriving DecidableEq

structure LibusbInterface where
  altsetting : List LibusbInterfaceDescriptor
  deriving DecidableEq

/-- The number of interfaces is a byte. -/
structure LibusbConfigDescriptor where
  interface : List LibusbInterface
  bConfigurationValue : UInt8
  iConfiguration : UInt8
  bmAttributes : UInt8
  maxPower : UInt8
  count_lt : interface.length < 256

def LibusbConfigDescriptor.altsettings (src : LibusbConfigDescriptor) :
    List LibusbInterfaceDescriptor :=
  src.interface.flatMap (·.altsetting)

structure UsbEndpointDescriptor where
  endpointId : UInt8
  transferType : UInt8
  isoSyncType : UInt8
  isoUsage : UInt8
  maxPacketSize : UInt16
  interval : UInt8
  refresh : UInt8
  synchAddress : UInt8
  deriving DecidableEq

/-- A pointer is the place of the descriptor in the heap. -/
structure UsbInterfaceDescriptor where
  nextAltSettingInterfacePtr : Option ℕ
  endpointTable : List UsbEndpointDescriptor
  endpointCount : ℕ
  interfaceId : UInt8
  altSettingId : UInt8
  class_ : UInt8
  subClass : UInt8
  protocol : UInt8
  descriptionStringId : UInt8
  deriving DecidableEq

/-- What the heap allocates is zero. -/
def UsbInterfaceDescriptor.zero : UsbInterfaceDescriptor := ⟨none,[],0,0,0,0,0,0,0⟩

abbrev Heap := List UsbInterfaceDescriptor

/-- The table of interfaces stands at the start of the heap. -/
structure UsbConfigurationDescriptor where
  heap : Heap
  interfaceCount : ℕ
  configurationId : UInt8
  descriptionStringId : UInt8
  attributes : UInt8
  maxPower : UInt8

def initUsbEndpointDescriptor (src : LibusbEndpointDescriptor) : UsbEndpointDescriptor where
  endpointId := src.bEndpointAddress
  transferType := src.bmAttributes &&& 0x03
  isoSyncType := src.bmAttributes &&& 0x0c
  isoUsage := src.bmAttributes &&& 0x30
  maxPacketSize := src.wMaxPacketSize
  interval := src.bInterval
  refresh := src.bRefresh
  synchAddress := src.bSynchAddress

def initUsbInterfaceDescriptor (src : LibusbInterfaceDescriptor) : UsbInterfaceDescriptor where
  nextAltSettingInterfacePtr := none
  endpointTable := src.endpoint.map initUsbEndpointDescriptor
  endpointCount := src.endpoint.length
  interfaceId := src.bInterfaceNumber
  altSettingId := src.bAlternateSetting
  class_ := src.bInterfaceClass
  subClass := src.bInterfaceSubClass
  protocol := src.bInterfaceProtocol
  descriptionStringId := src.iInterface

/-- The loop over the other alternate settings, each of them linked to the one before. -/
def initAltSettings (heap : Heap) (prev : ℕ) : List LibusbInterfaceDescriptor → Heap
  | [] => heap
  | src :: rest =>
      let descriptorPtr := heap.length
      let heap := heap ++ [initUsbInterfaceDescriptor src]
      let heap := heap.modify prev fun descriptor =>
        { descriptor with nextAltSettingInterfacePtr := some descriptorPtr }
      initAltSettings heap descriptorPtr rest

/-- An interface without alternate settings is left as it was allocated. -/
def initUsbInterface (heap : Heap) (dst : ℕ) (iface : LibusbInterface) : Heap :=
  match iface.altsetting with
  | [] => heap
  | first :: rest => initAltSettings (heap.set dst (initUsbInterfaceDescriptor first)) dst rest

def initInterfaceTable (heap : Heap) (i : ℕ) : List LibusbInterface → Heap
  | [] => heap
  | iface :: rest => initInterfaceTable (initUsbInterface heap i iface) (i + 1) rest

def initUsbConfigurationDescriptor (src : LibusbConfigDescriptor) : UsbConfigurationDescriptor where
  heap := initInterfaceTable (List.replicate src.interface.length .zero) 0 src.interface
  interfaceCount := src.interface.length
  configurationId := src.bConfigurationValue
  descriptionStringId := src.iConfiguration
  attributes := src.bmAttributes
  maxPower := src.maxPower

/-- The first endpoint in the table with the address. -/
def UsbInterfaceDescriptor.findEndpointDescriptor (descriptor : UsbInterfaceDescriptor)
    (endpointId : UInt8) : Option UsbEndpointDescriptor :=
  (descriptor.endpointTable.take descriptor.endpointCount).find? (·.endpointId = endpointId)

/-- So many links from a descriptor on. -/
def nextAltSetting (heap : Heap) : ℕ → ℕ → Option ℕ
  | 0, ptr => some ptr
  | count + 1, ptr =>
      match heap[ptr]?.bind (·.nextAltSettingInterfacePtr) with
      | none => none
      | some next => nextAltSetting heap count next

/-- The descriptor that the pointer leads to, if the pointer is not null. -/
def UsbConfigurationDescriptor.findInterfaceDescriptor (config : UsbConfigurationDescriptor)
    (interfaceId altSettingId : UInt8) : Option UsbInterfaceDescriptor :=
  if config.interfaceCount ≤ interfaceId.toNat then none
  else (nextAltSetting config.heap altSettingId.toNat interfaceId.toNat).bind (config.heap[·]?)

/-- The descriptors from the pointer on are the copies of these, linked in this order, and each of
them stands at an owned place. -/
def Linked (heap : Heap) (owned : ℕ → Prop) : ℕ → List LibusbInterfaceDescriptor → Prop
  | _, [] => False
  | ptr, [src] => owned ptr ∧ heap[ptr]? = some (initUsbInterfaceDescriptor src)
  | ptr, src :: next :: rest => owned ptr ∧ ∃ nextPtr,
      heap[ptr]? = some
        { initUsbInterfaceDescriptor src with nextAltSettingInterfacePtr := some nextPtr } ∧
      Linked heap owned nextPtr (next :: rest)

variable {alts : List LibusbInterfaceDescriptor}

theorem Linked.frame {heap heap' : Heap} {owned : ℕ → Prop} {ptr : ℕ}
    (h : Linked heap owned ptr alts) (hsame : ∀ p < heap.length, owned p → heap'[p]? = heap[p]?) :
    Linked heap' owned ptr alts := by
  have hread {p : ℕ} {d : UsbInterfaceDescriptor} (howned : owned p) (hp : heap[p]? = some d) :
      heap'[p]? = some d := by
    rw [hsame p (List.getElem?_eq_some_iff.1 hp).1 howned,hp]
  induction alts generalizing ptr with
  | nil => exact h
  | cons src rest ih =>
    cases rest with
    | nil => exact ⟨h.1,hread h.1 h.2⟩
    | cons next rest =>
      obtain ⟨howned,nextPtr,hptr,hnext⟩ := h
      exact ⟨howned,nextPtr,hread howned hptr,ih hnext⟩

theorem Linked.mono {heap : Heap} {owned owned' : ℕ → Prop} {ptr : ℕ}
    (h : Linked heap owned ptr alts) (hle : ∀ p, owned p → owned' p) :
    Linked heap owned' ptr alts := by
  induction alts generalizing ptr with
  | nil => exact h
  | cons src rest ih =>
    cases rest with
    | nil => exact ⟨hle _ h.1,h.2⟩
    | cons next rest =>
      obtain ⟨howned,nextPtr,hptr,hnext⟩ := h
      exact ⟨hle _ howned,nextPtr,hptr,ih hnext⟩

theorem Linked.walk {heap : Heap} {owned : ℕ → Prop} {ptr : ℕ} (h : Linked heap owned ptr alts)
    (count : ℕ) :
    ((nextAltSetting heap count ptr).bind (heap[·]?)).map
        ({ · with nextAltSettingInterfacePtr := none }) =
      alts[count]?.map initUsbInterfaceDescriptor := by
  induction alts generalizing ptr count with
  | nil => exact h.elim
  | cons src rest ih =>
    cases rest with
    | nil =>
      cases count with
      | zero => simp [nextAltSetting,h.2,initUsbInterfaceDescriptor]
      | succ count => simp [nextAltSetting,h.2,initUsbInterfaceDescriptor]
    | cons next rest =>
      obtain ⟨-,nextPtr,hptr,hnext⟩ := h
      cases count with
      | zero => simp [nextAltSetting,hptr,initUsbInterfaceDescriptor]
      | succ count =>
        rw [nextAltSetting,hptr]
        exact ih hnext count

section

variable (heap : Heap)

include heap

theorem initAltSettings_length (prev : ℕ) (alts : List LibusbInterfaceDescriptor) :
    heap.length ≤ (initAltSettings heap prev alts).length := by
  induction alts generalizing heap prev with
  | nil => exact le_rfl
  | cons src rest ih =>
    refine le_trans ?_ (ih _ _)
    simp

theorem initAltSettings_frame (prev : ℕ) (alts : List LibusbInterfaceDescriptor) {p : ℕ}
    (hlt : p < heap.length) (hne : p ≠ prev) :
    (initAltSettings heap prev alts)[p]? = heap[p]? := by
  induction alts generalizing heap prev with
  | nil => rfl
  | cons src rest ih =>
    rw [initAltSettings,ih _ _ (by simp; omega) hlt.ne]
    simp [hne.symm,List.getElem?_append_left hlt]

theorem initAltSettings_linked (prev : ℕ) (first : LibusbInterfaceDescriptor)
    (alts : List LibusbInterfaceDescriptor)
    (hprev : heap[prev]? = some (initUsbInterfaceDescriptor first)) :
    Linked (initAltSettings heap prev alts) (fun p => p = prev ∨ heap.length ≤ p) prev
      (first :: alts) := by
  induction alts generalizing heap prev first with
  | nil => exact ⟨Or.inl rfl,hprev⟩
  | cons src rest ih =>
    have hlt : prev < heap.length := (List.getElem?_eq_some_iff.1 hprev).1
    rw [initAltSettings]
    have hnext := ih ((heap ++ [initUsbInterfaceDescriptor src]).modify prev
      ({ · with nextAltSettingInterfacePtr := some heap.length })) heap.length src
      (by simp [hlt.ne])
    refine ⟨Or.inl rfl,heap.length,?_,hnext.mono ?_⟩
    · rw [initAltSettings_frame _ _ _ (by simp; omega) hlt.ne]
      simp [List.getElem?_append_left hlt,hprev]
    · rintro p (rfl | hle)
      · exact Or.inr le_rfl
      · exact Or.inr (Nat.le_of_succ_le (by simpa using hle))

theorem initUsbInterface_length (dst : ℕ) (iface : LibusbInterface) :
    heap.length ≤ (initUsbInterface heap dst iface).length := by
  unfold initUsbInterface
  split
  · exact le_rfl
  · refine le_trans ?_ (initAltSettings_length _ _ _)
    simp

theorem initUsbInterface_frame (dst : ℕ) (iface : LibusbInterface) {p : ℕ} (hlt : p < heap.length)
    (hne : p ≠ dst) :
    (initUsbInterface heap dst iface)[p]? = heap[p]? := by
  unfold initUsbInterface
  split
  · rfl
  · rw [initAltSettings_frame _ _ _ (by simpa using hlt) hne,List.getElem?_set_ne hne.symm]

theorem initUsbInterface_linked {dst : ℕ} (iface : LibusbInterface) (hlt : dst < heap.length)
    (hne : iface.altsetting ≠ []) :
    Linked (initUsbInterface heap dst iface) (fun p => p = dst ∨ heap.length ≤ p) dst
      iface.altsetting := by
  unfold initUsbInterface
  split
  · next heq => exact absurd heq hne
  · next first rest heq =>
    rw [heq]
    have hlinked := initAltSettings_linked (heap.set dst (initUsbInterfaceDescriptor first)) dst
      first rest (by simp [hlt])
    simpa using hlinked

theorem initInterfaceTable_frame (i : ℕ) (ifaces : List LibusbInterface) {p : ℕ}
    (hlt : p < heap.length) (hout : p < i ∨ i + ifaces.length ≤ p) :
    (initInterfaceTable heap i ifaces)[p]? = heap[p]? := by
  induction ifaces generalizing heap i with
  | nil => rfl
  | cons iface rest ih =>
    rw [List.length_cons] at hout
    rw [initInterfaceTable,ih _ _ (hlt.trans_le (initUsbInterface_length ..)) (by omega),
      initUsbInterface_frame _ _ _ hlt (by omega)]

/-- Every interface with alternate settings has them linked, and the place of one without them is as
it was allocated. -/
theorem initInterfaceTable_entry (i count : ℕ) (ifaces : List LibusbInterface)
    (hcount : i + ifaces.length ≤ count) (hlength : count ≤ heap.length) {k : ℕ}
    {iface : LibusbInterface} (hk : ifaces[k]? = some iface) :
    if iface.altsetting = [] then (initInterfaceTable heap i ifaces)[i + k]? = heap[i + k]?
    else Linked (initInterfaceTable heap i ifaces) (fun p => p = i + k ∨ count ≤ p) (i + k)
      iface.altsetting := by
  induction ifaces generalizing heap i k with
  | nil => simp at hk
  | cons head rest ih =>
    rw [List.length_cons] at hcount
    have hgrow := initUsbInterface_length heap i head
    cases k with
    | zero =>
      obtain rfl : head = iface := by simpa using hk
      split
      · next hnil =>
        rw [initInterfaceTable,initInterfaceTable_frame _ _ _ (by omega) (by omega)]
        simp [initUsbInterface,hnil]
      · next hne =>
        have hlt : i < heap.length := by omega
        have hlinked := initUsbInterface_linked heap head hlt hne
        refine (hlinked.mono fun p hp => ?_).frame fun p hp howned => ?_
        · exact hp.imp id hlength.trans
        · rw [initInterfaceTable,initInterfaceTable_frame _ _ _ hp (by omega)]
    | succ k =>
      have hk : rest[k]? = some iface := by simpa using hk
      have hkLt := (List.getElem?_eq_some_iff.1 hk).1
      have hrest := ih (initUsbInterface heap i head) (i + 1) (by omega) (by omega) hk
      rw [initUsbInterface_frame heap i head (p := i + 1 + k) (by omega) (by omega)] at hrest
      rw [show i + (k + 1) = i + 1 + k by omega]
      exact hrest

end

theorem findInterfaceDescriptor_eq (src : LibusbConfigDescriptor) (interfaceId altSettingId : UInt8) :
    ((initUsbConfigurationDescriptor src).findInterfaceDescriptor interfaceId altSettingId).map
        ({ · with nextAltSettingInterfacePtr := none }) =
      src.interface[interfaceId.toNat]?.bind fun iface =>
        if iface.altsetting = [] then if altSettingId.toNat = 0 then some .zero else none
        else iface.altsetting[altSettingId.toNat]?.map initUsbInterfaceDescriptor := by
  unfold UsbConfigurationDescriptor.findInterfaceDescriptor
  split
  · next hle => simp [List.getElem?_eq_none_iff.2 (show src.interface.length ≤ _ from hle)]
  · next hlt =>
    have hlt : interfaceId.toNat < src.interface.length := not_le.1 hlt
    have hk := List.getElem?_eq_getElem hlt
    have hentry := initInterfaceTable_entry (List.replicate src.interface.length .zero) 0
      src.interface.length src.interface (by omega) (by simp) hk
    rw [Nat.zero_add] at hentry
    rw [hk,Option.bind_some]
    split at hentry
    · next hnil =>
      have hentry : (initUsbConfigurationDescriptor src).heap[interfaceId.toNat]? = some .zero := by
        rw [initUsbConfigurationDescriptor,hentry]
        simp [hlt]
      rw [if_pos hnil]
      cases altSettingId.toNat with
      | zero => simp [nextAltSetting,hentry,UsbInterfaceDescriptor.zero]
      | succ count => simp [nextAltSetting,hentry,UsbInterfaceDescriptor.zero]
    · next hne =>
      rw [if_neg hne]
      exact hentry.walk altSettingId.toNat

def FindsEndpoints (descriptor : UsbInterfaceDescriptor) (alt : LibusbInterfaceDescriptor) : Prop :=
  ∀ endpointId,
    (∀ endpoint, descriptor.findEndpointDescriptor endpointId = some endpoint →
      endpoint.endpointId = endpointId ∧
        ∃ src ∈ alt.endpoint, endpoint = initUsbEndpointDescriptor src) ∧
    (descriptor.findEndpointDescriptor endpointId = none ↔
      ∀ src ∈ alt.endpoint, src.bEndpointAddress ≠ endpointId)

/-- What is found has the numbers that were asked for and the endpoints of a descriptor with these
numbers, and null is returned exactly if there is no such descriptor. -/
structure LibusbConfigDescriptor.Lookups (src : LibusbConfigDescriptor) : Prop where
  found : ∀ interfaceId altSettingId descriptor,
    (initUsbConfigurationDescriptor src).findInterfaceDescriptor interfaceId altSettingId =
      some descriptor →
    descriptor.interfaceId = interfaceId ∧ descriptor.altSettingId = altSettingId
  null : ∀ interfaceId altSettingId,
    (initUsbConfigurationDescriptor src).findInterfaceDescriptor interfaceId altSettingId = none ↔
      ∀ alt ∈ src.altsettings,
        ¬(alt.bInterfaceNumber = interfaceId ∧ alt.bAlternateSetting = altSettingId)
  endpoints : ∀ interfaceId altSettingId descriptor,
    (initUsbConfigurationDescriptor src).findInterfaceDescriptor interfaceId altSettingId =
      some descriptor →
    ∃ alt ∈ src.altsettings, alt.bInterfaceNumber = interfaceId ∧
      alt.bAlternateSetting = altSettingId ∧ FindsEndpoints descriptor alt

structure LibusbConfigDescriptor.Positioned (src : LibusbConfigDescriptor) : Prop where
  some_altsetting : ∀ k iface, src.interface[k]? = some iface → iface.altsetting = [] →
    k = 0 ∧ ∃ alt ∈ src.altsettings, alt.bInterfaceNumber = 0 ∧ alt.bAlternateSetting = 0 ∧
      alt.endpoint = []
  numbers : ∀ (k : ℕ) (iface : LibusbInterface) (j : ℕ) (alt : LibusbInterfaceDescriptor),
    src.interface[k]? = some iface → iface.altsetting[j]? = some alt → j < 256 → alt.bInterfaceNumber.toNat = k ∧ alt.bAlternateSetting.toNat = j
  repeats : ∀ alt ∈ src.altsettings, ∃ iface,
    src.interface[alt.bInterfaceNumber.toNat]? = some iface ∧
      alt.bAlternateSetting.toNat < max 1 iface.altsetting.length

section Lookups

variable {src : LibusbConfigDescriptor} {descriptor : UsbInterfaceDescriptor}

variable {alt : LibusbInterfaceDescriptor}

theorem findEndpointDescriptor_copy
    (hcopy : { descriptor with nextAltSettingInterfacePtr := none } =
      initUsbInterfaceDescriptor alt) : FindsEndpoints descriptor alt := by
  intro endpointId
  have htable : descriptor.endpointTable = alt.endpoint.map initUsbEndpointDescriptor :=
    congrArg (·.endpointTable) hcopy
  have hcount : descriptor.endpointCount = alt.endpoint.length :=
    congrArg (·.endpointCount) hcopy
  unfold UsbInterfaceDescriptor.findEndpointDescriptor
  rw [htable,hcount,List.take_of_length_le (by simp)]
  refine ⟨fun endpoint hfind => ⟨by simpa using List.find?_some hfind,?_⟩,?_⟩
  · obtain ⟨src,hmem,heq⟩ := List.mem_map.1 (List.mem_of_find?_eq_some hfind)
    exact ⟨src,hmem,heq.symm⟩
  · simp only [List.find?_eq_none,List.mem_map,initUsbEndpointDescriptor,decide_eq_true_eq]
    simp

/-- A descriptor that is found is at the position that was asked for, or is the place of an interface
without alternate settings. -/
theorem findInterfaceDescriptor_some {interfaceId altSettingId : UInt8}
    (hfind : (initUsbConfigurationDescriptor src).findInterfaceDescriptor interfaceId altSettingId =
      some descriptor) :
    ∃ iface, src.interface[interfaceId.toNat]? = some iface ∧
      ((iface.altsetting = [] ∧ altSettingId.toNat = 0 ∧
          { descriptor with nextAltSettingInterfacePtr := none } = .zero) ∨
        ∃ alt, iface.altsetting[altSettingId.toNat]? = some alt ∧
          { descriptor with nextAltSettingInterfacePtr := none } =
            initUsbInterfaceDescriptor alt) := by
  have heq := findInterfaceDescriptor_eq src interfaceId altSettingId
  rw [hfind,Option.map_some] at heq
  obtain ⟨iface,hiface,heq⟩ := Option.bind_eq_some_iff.1 heq.symm
  refine ⟨iface,hiface,?_⟩
  split at heq
  · next hnil =>
    split at heq
    · next hzero => exact Or.inl ⟨hnil,hzero,(Option.some.inj heq).symm⟩
    · cases heq
  · obtain ⟨alt,halt,heq⟩ := Option.map_eq_some_iff.1 heq
    exact Or.inr ⟨alt,halt,heq.symm⟩

theorem findInterfaceDescriptor_at {interfaceId altSettingId : UInt8} {iface : LibusbInterface}
    (hiface : src.interface[interfaceId.toNat]? = some iface)
    (halt : iface.altsetting[altSettingId.toNat]? = some alt) :
    ∃ descriptor, (initUsbConfigurationDescriptor src).findInterfaceDescriptor interfaceId
        altSettingId = some descriptor ∧
      { descriptor with nextAltSettingInterfacePtr := none } = initUsbInterfaceDescriptor alt := by
  have hne : iface.altsetting ≠ [] := by
    rintro hnil
    simp [hnil] at halt
  have heq := findInterfaceDescriptor_eq src interfaceId altSettingId
  rw [hiface,Option.bind_some,if_neg hne,halt,Option.map_some] at heq
  exact Option.map_eq_some_iff.1 heq

theorem mem_altsettings :
    alt ∈ src.altsettings ↔ ∃ (k : ℕ) (iface : LibusbInterface) (j : ℕ),
      src.interface[k]? = some iface ∧ iface.altsetting[j]? = some alt := by
  rw [LibusbConfigDescriptor.altsettings,List.mem_flatMap]
  constructor
  · rintro ⟨iface,hiface,halt⟩
    obtain ⟨k,hk⟩ := List.getElem?_of_mem hiface
    obtain ⟨j,hj⟩ := List.getElem?_of_mem halt
    exact ⟨k,iface,j,hk,hj⟩
  · rintro ⟨k,iface,j,hk,hj⟩
    exact ⟨iface,List.mem_of_getElem? hk,List.mem_of_getElem? hj⟩

theorem LibusbConfigDescriptor.interface_lt {k : ℕ} {iface : LibusbInterface}
    (hk : src.interface[k]? = some iface) : k < 256 :=
  (List.getElem?_eq_some_iff.1 hk).1.trans src.count_lt

theorem LibusbConfigDescriptor.Lookups.positioned (h : src.Lookups) : src.Positioned where
  some_altsetting k iface hk hnil := by
    have hid : (UInt8.ofNat k).toNat = k := by
      simpa using src.interface_lt hk
    have heq := findInterfaceDescriptor_eq src (UInt8.ofNat k) 0
    rw [hid,hk,Option.bind_some,if_pos hnil,if_pos (by rfl)] at heq
    obtain ⟨descriptor,hfind,hzero⟩ := Option.map_eq_some_iff.1 heq
    have hnumber : descriptor.interfaceId = 0 := congrArg (·.interfaceId) hzero
    have hfound := (h.found _ _ _ hfind).1
    rw [hnumber] at hfound
    have hk0 : k = 0 := by
      rw [← hid,← hfound]
      rfl
    obtain ⟨alt,hmem,hinterface,hsetting,hends⟩ := h.endpoints _ _ _ hfind
    refine ⟨hk0,alt,hmem,hinterface.trans hfound.symm,hsetting,?_⟩
    have hempty : descriptor.endpointTable = [] := congrArg (·.endpointTable) hzero
    refine List.eq_nil_iff_forall_not_mem.2 fun endpoint hendpoint => ?_
    have hnone := (hends endpoint.bEndpointAddress).2.1
      (by simp [UsbInterfaceDescriptor.findEndpointDescriptor,hempty])
    exact hnone endpoint hendpoint rfl
  numbers k iface j alt hk hj hlt := by
    have hid : (UInt8.ofNat k).toNat = k := by
      simpa using src.interface_lt hk
    have hsetting : (UInt8.ofNat j).toNat = j := by
      simpa using hlt
    rw [← hid] at hk
    rw [← hsetting] at hj
    obtain ⟨descriptor,hfind,hcopy⟩ := findInterfaceDescriptor_at hk hj
    have hnumber : descriptor.interfaceId = alt.bInterfaceNumber := congrArg (·.interfaceId) hcopy
    have halternate : descriptor.altSettingId = alt.bAlternateSetting :=
      congrArg (·.altSettingId) hcopy
    have hfound := h.found _ _ _ hfind
    rw [hnumber,halternate] at hfound
    rw [hfound.1,hfound.2]
    exact ⟨hid,hsetting⟩
  repeats alt hmem := by
    cases hfind : (initUsbConfigurationDescriptor src).findInterfaceDescriptor
        alt.bInterfaceNumber alt.bAlternateSetting with
    | none => exact absurd ⟨rfl,rfl⟩ ((h.null _ _).1 hfind alt hmem)
    | some descriptor =>
      obtain ⟨iface,hiface,hat⟩ := findInterfaceDescriptor_some hfind
      refine ⟨iface,hiface,?_⟩
      rcases hat with ⟨-,hzero,-⟩ | ⟨other,hother,-⟩
      · omega
      · have hlt := (List.getElem?_eq_some_iff.1 hother).1
        omega

theorem LibusbConfigDescriptor.Positioned.lookups (h : src.Positioned) : src.Lookups := by
  have hends : ∀ interfaceId altSettingId descriptor,
      (initUsbConfigurationDescriptor src).findInterfaceDescriptor interfaceId altSettingId =
        some descriptor →
      descriptor.interfaceId = interfaceId ∧ descriptor.altSettingId = altSettingId ∧
        ∃ alt ∈ src.altsettings, alt.bInterfaceNumber = interfaceId ∧
          alt.bAlternateSetting = altSettingId ∧ FindsEndpoints descriptor alt := by
    intro interfaceId altSettingId descriptor hfind
    obtain ⟨iface,hiface,⟨hnil,hsetting,hzero⟩ | ⟨alt,halt,hcopy⟩⟩ :=
      findInterfaceDescriptor_some hfind
    · obtain ⟨hk,alt,hmem,hnumber,halternate,hnone⟩ := h.some_altsetting _ _ hiface hnil
      have hinterface : interfaceId = 0 := UInt8.toNat_inj.1 hk
      have hsetting : altSettingId = 0 := UInt8.toNat_inj.1 hsetting
      have htable : descriptor.endpointTable = [] := congrArg (·.endpointTable) hzero
      refine ⟨hinterface ▸ congrArg (·.interfaceId) hzero,hsetting ▸ congrArg (·.altSettingId) hzero,
        alt,hmem,hinterface ▸ hnumber,hsetting ▸ halternate,fun endpointId => ?_⟩
      simp [UsbInterfaceDescriptor.findEndpointDescriptor,htable,hnone]
    · obtain ⟨hnumber,halternate⟩ := h.numbers _ _ _ _ hiface halt altSettingId.toNat_lt
      have hnumber := UInt8.toNat_inj.1 hnumber
      have halternate := UInt8.toNat_inj.1 halternate
      exact ⟨(congrArg (·.interfaceId) hcopy).trans hnumber,
        (congrArg (·.altSettingId) hcopy).trans halternate,alt,
        mem_altsettings.2 ⟨_,_,_,hiface,halt⟩,hnumber,halternate,findEndpointDescriptor_copy hcopy⟩
  refine ⟨fun i a d hfind => ⟨(hends i a d hfind).1,(hends i a d hfind).2.1⟩,fun i a => ⟨?_,?_⟩,
    fun i a d hfind => (hends i a d hfind).2.2⟩
  · rintro hnone alt hmem ⟨rfl,rfl⟩
    obtain ⟨iface,hiface,hlt⟩ := h.repeats alt hmem
    have heq := findInterfaceDescriptor_eq src alt.bInterfaceNumber alt.bAlternateSetting
    rw [hnone,hiface,Option.map_none,Option.bind_some] at heq
    split at heq
    · next hnil =>
      rw [hnil,List.length_nil] at hlt
      rw [if_pos (by omega)] at heq
      cases heq
    · next hne =>
      have hpos := List.length_pos_of_ne_nil hne
      rw [List.getElem?_eq_getElem (by omega)] at heq
      cases heq
  · intro hnone
    cases hfind : (initUsbConfigurationDescriptor src).findInterfaceDescriptor i a with
    | none => rfl
    | some descriptor =>
      obtain ⟨-,-,alt,hmem,hnumber,halternate,-⟩ := hends i a descriptor hfind
      exact absurd ⟨hnumber,halternate⟩ (hnone alt hmem)

/-- The lookup is right exactly for the configurations that are numbered by position. -/
theorem LibusbConfigDescriptor.lookups_iff (src : LibusbConfigDescriptor) :
    src.Lookups ↔ src.Positioned :=
  ⟨fun h => h.positioned,fun h => h.lookups⟩

def singleInterface2 : LibusbConfigDescriptor where
  interface := [⟨[⟨2,0,0xff,0,0,0,[⟨0x81,2,64,0,0,0⟩]⟩]⟩]
  bConfigurationValue := 1
  iConfiguration := 0
  bmAttributes := 0x80
  maxPower := 50
  count_lt := by decide

/-- Interface 2 is not found where it is the only one. -/
theorem not_lookups_of_number : ¬∀ src : LibusbConfigDescriptor, src.Lookups := by
  intro h
  have hnull := ((h singleInterface2).null 2 0).1 (by decide)
  exact hnull _ (List.mem_singleton.2 rfl) ⟨rfl,rfl⟩

end Lookups
end Jancy.Io.UsbDescriptor
