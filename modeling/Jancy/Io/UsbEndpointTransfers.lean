import Jancy.Io.UsbEndpoint
import Jancy.Io.AsyncIoDeviceRun
import Jancy.Lib.Calls
import Jancy.Lib.Counting
import Mathlib.Data.List.TakeWhile

/-! The places of transfers: each is on one list, and libusb owns none that is not active. -/
namespace Jancy.Io

namespace EndpointPc

/-- The transfer that is on the active list and not with libusb. -/
def unsubmitted : EndpointPc → Option ℕ
  | .submitting id _ | .submitted id _ false => some id
  | _ => none

/-- The thread is in `readLoop` or `writeLoop`. -/
def inLoop : EndpointPc → Bool
  | .sleeping | .awake | .submitting _ _ | .submitted _ _ _ => true
  | _ => false

def left : EndpointPc → ℕ
  | .submitting _ left | .submitted _ left _ => left
  | _ => 0

/-- `submitTransfer` has succeeded. -/
def isSubmitted : EndpointPc → Bool
  | .submitted _ _ true => true
  | _ => false

end EndpointPc

namespace UsbEndpointState

variable {α : Type} {e e' : UsbEndpointState α} {id left : ℕ} {t : EndpointTransfer α}

def ids (e : UsbEndpointState α) : List ℕ :=
  e.activeTransferList.map EndpointTransfer.id ++ e.completedTransferList.map EndpointTransfer.id ++
    e.transferPool

structure Places (e : UsbEndpointState α) : Prop where
  once : e.device.isOpen = true → ∀ id, e.ids.count id = if id < e.allocated then 1 else 0
  closed : e.device.isOpen = false → e.thread = .ended ∧ e.ids = []
  ended : e.thread = .ended → e.activeTransferList = [] ∧ e.completedTransferList = []
  ownedOnce : e.owned.Nodup
  owned : ∀ id ∈ e.owned, ∃ t ∈ e.activeTransferList, t.id = id ∧ t.result = none
  completed : ∀ t ∈ e.completedTransferList, t.result.isSome = true
  parked : ∀ t ∈ e.activeTransferList, t.isCompletedOutOfOrder = true → t.result.isSome = true
  fresh : ∀ id, e.thread.unsubmitted = some id →
    id ∉ e.owned ∧ ∃ t ∈ e.activeTransferList, t.id = id ∧ t.result = none

theorem opened_places {platform : Platform} {isIn : Bool} {readParallelism readBlockSize : ℕ}
    {device : AsyncIoDevice α} {isSuspended : Bool} (ho : device.isOpen = true) :
    (opened platform isIn readParallelism readBlockSize device isSuspended).Places where
  once _ id := by simp [opened,ids]
  closed hc := by
    have hc : device.isOpen = false := hc
    rw [ho] at hc
    cases hc
  ended h := by cases h
  ownedOnce := List.nodup_nil
  owned := by simp [opened]
  completed := by simp [opened]
  parked := by simp [opened]
  fresh id h := by cases h

section

variable (h : e.Places)

include h

theorem Places.congr (hactive : e'.activeTransferList = e.activeTransferList)
    (hcompleted : e'.completedTransferList = e.completedTransferList)
    (hpool : e'.transferPool = e.transferPool) (hallocated : e'.allocated = e.allocated)
    (howned : e'.owned = e.owned) (hopen : e'.device.isOpen = e.device.isOpen)
    (hthread : e'.thread = e.thread ∨ e.thread ≠ .ended ∧ e'.thread ≠ .ended ∧
      e'.thread.unsubmitted = none) : e'.Places := by
  have hids : e'.ids = e.ids := by simp only [ids,hactive,hcompleted,hpool]
  constructor
  · rw [hopen,hids,hallocated]
    exact h.once
  · rw [hopen,hids]
    intro hc
    obtain ⟨hended,hnil⟩ := h.closed hc
    rcases hthread with hsame | ⟨hne,-,-⟩
    · exact ⟨hsame.trans hended,hnil⟩
    · exact absurd hended hne
  · rw [hactive,hcompleted]
    intro hended
    rcases hthread with hsame | ⟨-,hne,-⟩
    · exact h.ended (hsame.symm.trans hended)
    · exact absurd hended hne
  · rw [howned]
    exact h.ownedOnce
  · rw [howned,hactive]
    exact h.owned
  · rw [hcompleted]
    exact h.completed
  · rw [hactive]
    exact h.parked
  · rw [howned,hactive]
    intro id hid
    rcases hthread with hsame | ⟨-,-,hnone⟩
    · rw [hsame] at hid
      exact h.fresh id hid
    · rw [hnone] at hid
      cases hid

theorem Places.isOpen (hthread : e.thread ≠ .ended) : e.device.isOpen = true := by
  by_contra hc
  exact hthread (h.closed (by simpa using hc)).1

theorem Places.nodup : e.ids.Nodup := by
  refine List.nodup_iff_count_le_one.mpr fun id => ?_
  cases ho : e.device.isOpen with
  | false => simp [(h.closed ho).2]
  | true =>
    rw [h.once ho]
    split_ifs <;> omega

theorem Places.active_unique {t u : EndpointTransfer α} (ht : t ∈ e.activeTransferList)
    (hu : u ∈ e.activeTransferList) (hid : t.id = u.id) : t = u := by
  have hnd := (List.nodup_append.mp (List.nodup_append.mp h.nodup).1).1
  exact List.inj_on_of_nodup_map hnd ht hu hid

theorem Places.insert (hthread : e.thread ≠ .ended) (block : List α) (size left : ℕ) :
    (e.insertTransfer block size left).Places := by
  have hopen := h.isOpen hthread
  have honce := h.once hopen
  have hnot : e.getTransfer.1 ∉ e.owned := by
    intro ho
    obtain ⟨t,ht,htid,-⟩ := h.owned _ ho
    have hone := honce e.getTransfer.1
    have hpos := List.count_pos_iff.mpr (List.mem_map.mpr ⟨t,ht,htid⟩)
    unfold getTransfer at hone hpos
    split at hone
    · next hpool =>
      simp only [hpool,ids,List.count_append] at hone hpos
      rw [if_neg (Nat.lt_irrefl _)] at hone
      omega
    · next id rest hpool =>
      simp only [hpool,ids,List.count_append,List.count_cons,beq_self_eq_true,if_true] at hone hpos
      split_ifs at hone; all_goals omega
  have hown : ∀ l : List (EndpointTransfer α), ∀ id ∈ e.owned,
      ∃ t ∈ e.activeTransferList ++ l, t.id = id ∧ t.result = none := fun l id hid => by
    obtain ⟨t,ht,hrest⟩ := h.owned id hid
    exact ⟨t,List.mem_append_left _ ht,hrest⟩
  have hparked : ∀ t ∈ e.activeTransferList ++
      [⟨e.getTransfer.1,e.inserted,block,size,false,none⟩], t.isCompletedOutOfOrder = true →
        t.result.isSome = true := by
    intro t ht hp
    rcases List.mem_append.mp ht with ht | ht
    · exact h.parked t ht hp
    · rw [List.mem_singleton.mp ht] at hp
      cases hp
  unfold getTransfer at hnot hparked
  unfold insertTransfer getTransfer
  split at hnot
  · next hpool =>
    simp only [hpool] at hparked ⊢
    refine ⟨fun _ id => ?_,fun hc => ?_,nofun,h.ownedOnce,hown _,h.completed,hparked,?_⟩
    · have := honce id
      simp only [ids,hpool,List.map_append,List.map_cons,List.map_nil,List.count_append,
        List.count_nil,List.count_singleton,beq_iff_eq] at this ⊢
      split_ifs at this ⊢ <;> omega
    · exact absurd (hopen.symm.trans hc) (by decide)
    · rintro id hid
      cases hid
      exact ⟨hnot,_,List.mem_append_right _ (List.mem_singleton.mpr rfl),rfl,rfl⟩
  · next free rest hpool =>
    simp only [hpool] at hparked ⊢
    refine ⟨fun _ id => ?_,fun hc => ?_,nofun,h.ownedOnce,hown _,h.completed,hparked,?_⟩
    · have := honce id
      simp only [ids,hpool,List.map_append,List.map_cons,List.map_nil,List.count_append,
        List.count_cons,List.count_nil,beq_iff_eq] at this ⊢
      split_ifs at this ⊢ <;> omega
    · exact absurd (hopen.symm.trans hc) (by decide)
    · rintro id hid
      cases hid
      exact ⟨hnot,_,List.mem_append_right _ (List.mem_singleton.mpr rfl),rfl,rfl⟩

theorem Places.put (hthread : e.thread ≠ .ended) {rest : List (EndpointTransfer α)}
    (hcompleted : e.completedTransferList = t :: rest) :
    Places { e.putTransfer t.id with completedTransferList := rest } := by
  refine ⟨fun ho id => ?_,fun hc => absurd (h.closed hc).1 hthread,fun hended => ?_,h.ownedOnce,
    h.owned,fun u hu => ?_,h.parked,h.fresh⟩
  · have := h.once ho id
    simp only [ids,hcompleted,putTransfer,List.map_cons,List.count_append,List.count_cons]
      at this ⊢
    split_ifs at this ⊢ <;> omega
  · exact absurd hended hthread
  · exact h.completed u (by rw [hcompleted]; exact List.mem_cons_of_mem t hu)

theorem Places.unsubmitted (hthread : e.thread.unsubmitted = some id) :
    Places { (e.removeActive id).putTransfer id with thread := .failing } := by
  obtain ⟨hnot,t,ht,htid,-⟩ := h.fresh id hthread
  have hne : e.thread ≠ .ended := by
    intro hended
    rw [hended] at hthread
    cases hthread
  refine ⟨fun ho j => ?_,fun hc => absurd (h.closed hc).1 hne,nofun,h.ownedOnce,?_,h.completed,?_,
    nofun⟩
  · have hj := h.once ho j
    have hpos := List.count_pos_iff.mpr (List.mem_map.mpr ⟨t,ht,htid⟩)
    simp only [ids,putTransfer,removeActive,List.count_append,List.count_cons,
      Counting.count_filter_ne,beq_iff_eq] at hj ⊢
    by_cases hji : j = id
    · subst hji
      have hle : (if j < e.allocated then 1 else 0) ≤ 1 := by split_ifs <;> omega
      simp only [if_true]
      refine Eq.trans ?_ hj
      omega
    · simp only [hji,Ne.symm hji,if_false]
      exact hj
  · intro j hj
    obtain ⟨u,hu,huj,hres⟩ := h.owned j hj
    refine ⟨u,List.mem_filter.mpr ⟨hu,?_⟩,huj,hres⟩
    have hne : u.id ≠ id := fun heq => hnot (heq ▸ huj ▸ hj)
    simpa using hne
  · intro u hu
    exact h.parked u (List.mem_filter.mp hu).1

theorem Places.submit (hthread : e.thread = .submitting id left) (ok : Bool) :
    (e.submitTransfer id left ok).Places := by
  obtain ⟨hnot,t,ht,htid,hres⟩ := h.fresh id (by rw [hthread]; rfl)
  have hne : e.thread ≠ .ended := by simp [hthread]
  refine ⟨h.once,fun hc => absurd (h.closed hc).1 hne,nofun,?_,?_,h.completed,h.parked,?_⟩
  · cases ok
    · exact h.ownedOnce
    · exact List.nodup_cons.mpr ⟨hnot,h.ownedOnce⟩
  · cases ok
    · exact h.owned
    · intro j hj
      rcases List.mem_cons.mp hj with rfl | hj
      · exact ⟨t,ht,htid,hres⟩
      · exact h.owned j hj
  · cases ok
    · rintro j hj
      cases hj
      exact ⟨hnot,t,ht,htid,hres⟩
    · rintro j hj
      cases hj

theorem Places.endThread (hthread : e.thread ≠ .ended) (hactive : e.activeTransferList = []) :
    e.endThread.Places := by
  have hdevice : e.endThread.device.isOpen = e.device.isOpen := by
    unfold UsbEndpointState.endThread
    split_ifs <;> rfl
  refine ⟨fun ho id => ?_,fun hc => ?_,fun _ => ⟨hactive,rfl⟩,h.ownedOnce,h.owned,nofun,h.parked,
    nofun⟩
  · have := h.once (hdevice ▸ ho) id
    simp only [ids,UsbEndpointState.endThread,hactive,List.map_nil,List.nil_append,
      List.count_append] at this ⊢
    exact this
  · exact absurd (h.closed (hdevice ▸ hc)).1 hthread

theorem Places.close (hthread : e.thread = .ended) :
    Places { e with transferPool := [], device := e.device.close e.platform } := by
  obtain ⟨hactive,hcompleted⟩ := h.ended hthread
  have hclosed : (e.device.close e.platform).isOpen = false := by
    unfold AsyncIoDevice.close
    split <;> rfl
  refine ⟨fun ho => ?_,fun _ => ⟨hthread,?_⟩,fun _ => ⟨hactive,hcompleted⟩,h.ownedOnce,h.owned,
    h.completed,h.parked,h.fresh⟩
  · exact absurd (hclosed.symm.trans ho) (by decide)
  · simp [ids,hactive,hcompleted]

end

theorem setResult_ids (e : UsbEndpointState α) (id : ℕ) (r : EndpointResult α) (o : Bool) :
    (e.setResult id r o).activeTransferList.map EndpointTransfer.id =
      e.activeTransferList.map EndpointTransfer.id := by
  rw [setResult,List.map_map]
  refine List.map_congr_left fun t _ => ?_
  simp only [Function.comp_apply]
  split_ifs <;> rfl

/-- libusb gives a transfer back that stays on the active list for now. -/
theorem Places.setResult (h : e.Places) {e₁ : UsbEndpointState α} {r : EndpointResult α}
    {outOfOrder : Bool} (ht : t ∈ e.activeTransferList) (hid : t.id ∈ e.owned)
    (hactive : e₁.activeTransferList = e.activeTransferList)
    (hcompleted : e₁.completedTransferList = e.completedTransferList)
    (hpool : e₁.transferPool = e.transferPool) (hallocated : e₁.allocated = e.allocated)
    (howned : e₁.owned = e.owned.erase t.id) (hdevice : e₁.device = e.device)
    (hthread : e₁.thread = e.thread) : (e₁.setResult t.id r outOfOrder).Places := by
  have hids : (e₁.setResult t.id r outOfOrder).ids = e.ids := by
    simp only [ids,setResult_ids]
    simp only [UsbEndpointState.setResult,hactive,hcompleted,hpool]
  have hkeep : ∀ u ∈ e.activeTransferList, u.id ≠ t.id →
      u ∈ (e₁.setResult t.id r outOfOrder).activeTransferList := by
    intro u hu hne
    simp only [UsbEndpointState.setResult,hactive]
    exact List.mem_map.mpr ⟨u,hu,if_neg hne⟩
  constructor
  · show e₁.device.isOpen = true → ∀ id, _ = if id < e₁.allocated then 1 else 0
    rw [hids,hdevice,hallocated]
    exact h.once
  · show e₁.device.isOpen = false → e₁.thread = .ended ∧ _
    rw [hids,hdevice,hthread]
    exact h.closed
  · show e₁.thread = .ended → _
    rw [hthread]
    intro hended
    rw [(h.ended hended).1] at ht
    cases ht
  · show e₁.owned.Nodup
    rw [howned]
    exact h.ownedOnce.erase _
  · show ∀ id ∈ e₁.owned, _
    rw [howned]
    intro id hmem
    have hne : id ≠ t.id := fun heq => h.ownedOnce.not_mem_erase (heq ▸ hmem)
    obtain ⟨u,hu,huid,hres⟩ := h.owned id (List.mem_of_mem_erase hmem)
    exact ⟨u,hkeep u hu (huid ▸ hne),huid,hres⟩
  · show ∀ u ∈ e₁.completedTransferList, _
    rw [hcompleted]
    exact h.completed
  · simp only [UsbEndpointState.setResult,hactive]
    intro u hu hp
    obtain ⟨v,hv,rfl⟩ := List.mem_map.mp hu
    split_ifs at hp ⊢
    · rfl
    · exact h.parked v hv hp
  · show ∀ id, e₁.thread.unsubmitted = some id → id ∉ e₁.owned ∧ _
    rw [hthread,howned]
    intro id hfresh
    obtain ⟨hnot,u,hu,huid,hres⟩ := h.fresh id hfresh
    refine ⟨fun hmem => hnot (List.mem_of_mem_erase hmem),u,hkeep u hu ?_,huid,hres⟩
    rintro heq
    rw [huid] at heq
    rw [heq] at hnot
    exact hnot hid

theorem mem_dropWhile_of_none {l : List (EndpointTransfer α)}
    (hparked : ∀ t ∈ l, t.isCompletedOutOfOrder = true → t.result.isSome = true)
    (ht : t ∈ l) (hres : t.result = none) :
    t ∈ l.dropWhile EndpointTransfer.isCompletedOutOfOrder := by
  rw [← List.takeWhile_append_dropWhile (p := EndpointTransfer.isCompletedOutOfOrder) (l := l)] at ht
  rcases List.mem_append.mp ht with ht | ht
  · have hp := List.mem_takeWhile_imp ht
    have hsome := hparked t ((List.takeWhile_prefix _).mem ht) hp
    rw [hres] at hsome
    cases hsome
  · exact ht

/-- The head leaves with what is parked behind it. -/
theorem Places.completeHead (h : e.Places)
    (hhead : ∀ t ∈ e.activeTransferList.head?, t.result.isSome = true) :
    e.completeHead.Places := by
  unfold UsbEndpointState.completeHead
  cases hactive : e.activeTransferList with
  | nil => exact h
  | cons u rest =>
    rw [hactive] at hhead
    have hu : u.result.isSome = true := hhead u rfl
    have hne : e.thread ≠ .ended := by
      intro hended
      rw [(h.ended hended).1] at hactive
      cases hactive
    have hparked : ∀ t ∈ rest, t.isCompletedOutOfOrder = true → t.result.isSome = true :=
      fun t ht => h.parked t (by rw [hactive]; exact List.mem_cons_of_mem u ht)
    have hmove : ∀ t ∈ u :: rest, t.result = none →
        t ∈ rest.dropWhile EndpointTransfer.isCompletedOutOfOrder := by
      intro t ht hres
      rcases List.mem_cons.mp ht with rfl | ht
      · rw [hres] at hu
        cases hu
      · exact mem_dropWhile_of_none hparked ht hres
    refine ⟨fun ho id => ?_,fun hc => absurd (h.closed hc).1 hne,fun hended => absurd hended hne,
      h.ownedOnce,fun id hid => ?_,fun t ht => ?_,fun t ht => ?_,fun id hid => ?_⟩
    · have hcount := h.once ho id
      have hsplit := congrArg (fun l => (l.map EndpointTransfer.id).count id)
        (List.takeWhile_append_dropWhile (p := EndpointTransfer.isCompletedOutOfOrder) (l := rest))
      simp only [ids,hactive,List.map_append,List.map_cons,List.count_append,
        List.count_cons] at hcount hsplit ⊢
      omega
    · obtain ⟨t,ht,htid,hres⟩ := h.owned id hid
      exact ⟨t,hmove t (hactive ▸ ht) hres,htid,hres⟩
    · rcases List.mem_append.mp ht with ht | ht
      · exact h.completed t ht
      · rcases List.mem_cons.mp ht with rfl | ht
        · exact hu
        · exact hparked t ((List.takeWhile_prefix _).mem ht) (List.mem_takeWhile_imp ht)
    · exact hparked t ((List.dropWhile_suffix _).mem ht)
    · obtain ⟨hnot,t,ht,htid,hres⟩ := h.fresh id hid
      exact ⟨hnot,t,hmove t (hactive ▸ ht) hres,htid,hres⟩

theorem Places.complete (h : e.Places) (ht : t ∈ e.activeTransferList) (hid : t.id ∈ e.owned)
    (r : EndpointResult α) : (e.onTransferCompleted t r).Places := by
  unfold onTransferCompleted
  split_ifs with hhead
  · refine Places.completeHead (h.setResult ht hid rfl rfl rfl rfl rfl rfl rfl) fun u hu => ?_
    simp only [UsbEndpointState.setResult,takeBack,List.head?_map,Option.mem_def,Option.map_eq_some_iff]
      at hu hhead
    obtain ⟨v,hv,rfl⟩ := hu
    obtain ⟨w,hw,hwid⟩ := hhead
    rw [hv] at hw
    cases hw
    rw [if_pos hwid]
    rfl
  · exact h.setResult ht hid rfl rfl rfl rfl rfl rfl rfl

/-- The first active transfer is with libusb, or about to be given to it. -/
structure Awaited (e : UsbEndpointState α) : Prop where
  head : ∀ t ∈ e.activeTransferList.head?, t.result = none
  parked : ∀ t ∈ e.activeTransferList, t.result.isSome = true → t.isCompletedOutOfOrder = true
  given : ∀ t ∈ e.activeTransferList, t.result = none →
    t.id ∈ e.owned ∨ e.thread.unsubmitted = some t.id

theorem Awaited.congr (h : e.Awaited) (hactive : e'.activeTransferList = e.activeTransferList)
    (howned : e'.owned = e.owned)
    (hthread : e.thread.unsubmitted = none ∨ e'.thread = e.thread) : e'.Awaited := by
  refine ⟨hactive ▸ h.head,hactive ▸ h.parked,?_⟩
  rw [hactive,howned]
  intro t ht hres
  refine (h.given t ht hres).imp_right fun hun => ?_
  rcases hthread with hnone | hsame
  · rw [hnone] at hun
    cases hun
  · rwa [hsame]

theorem Awaited.owned_nil (h : e.Awaited) (howned : e.owned = [])
    (hthread : e.thread.unsubmitted = none) : e.activeTransferList = [] := by
  cases hactive : e.activeTransferList with
  | nil => rfl
  | cons t rest =>
    have ht : t ∈ e.activeTransferList := hactive ▸ List.mem_cons_self
    rcases h.given t ht (h.head t (by rw [hactive]; rfl)) with ho | hun
    · rw [howned] at ho
      cases ho
    · rw [hthread] at hun
      cases hun

theorem getTransfer_eq (e : UsbEndpointState α) :
    ∃ pool n, e.getTransfer.2 = { e with transferPool := pool, allocated := n } := by
  unfold getTransfer
  split
  · exact ⟨e.transferPool,e.allocated + 1,rfl⟩
  · next id rest hpool => exact ⟨rest,e.allocated,rfl⟩

theorem insertTransfer_eq (e : UsbEndpointState α) (block : List α) (size left : ℕ) :
    ∃ pool n, e.insertTransfer block size left = { e with
      transferPool := pool
      allocated := n
      inserted := e.inserted + 1
      activeTransferList := e.activeTransferList ++
        [⟨e.getTransfer.1,e.inserted,block,size,false,none⟩]
      thread := .submitting e.getTransfer.1 left } := by
  obtain ⟨pool,n,heq⟩ := e.getTransfer_eq
  refine ⟨pool,n,?_⟩
  unfold insertTransfer
  simp only [heq]

theorem Awaited.insert (h : e.Awaited) (hthread : e.thread.unsubmitted = none) (block : List α)
    (size left : ℕ) : (e.insertTransfer block size left).Awaited := by
  obtain ⟨pool,n,heq⟩ := e.insertTransfer_eq block size left
  rw [heq]
  constructor
  · intro t ht
    cases hactive : e.activeTransferList with
    | nil =>
      simp only [hactive] at ht
      cases ht
      rfl
    | cons u rest =>
      simp only [hactive] at ht
      cases ht
      exact h.head t (by rw [hactive]; rfl)
  · intro t ht hres
    rcases List.mem_append.mp ht with ht | ht
    · exact h.parked t ht hres
    · rw [List.mem_singleton.mp ht] at hres
      cases hres
  · intro t ht hres
    rcases List.mem_append.mp ht with ht | ht
    · refine Or.inl ((h.given t ht hres).resolve_right fun hun => ?_)
      rw [hthread] at hun
      cases hun
    · rw [List.mem_singleton.mp ht]
      exact Or.inr rfl

theorem Awaited.submit (h : e.Awaited) (hthread : e.thread = .submitting id left) (ok : Bool) :
    (e.submitTransfer id left ok).Awaited := by
  refine ⟨h.head,h.parked,fun t ht hres => ?_⟩
  have hgiven := h.given t ht hres
  rw [hthread] at hgiven
  cases ok with
  | false => exact hgiven
  | true =>
    rcases hgiven with ho | hun
    · exact Or.inl (List.mem_cons_of_mem id ho)
    · cases hun
      exact Or.inl List.mem_cons_self

theorem Awaited.complete (h : e.Awaited) (hp : e.Places) (ht : t ∈ e.activeTransferList)
    (r : EndpointResult α) : (e.onTransferCompleted t r).Awaited := by
  have hgiven : ∀ u ∈ e.activeTransferList, u.id ≠ t.id → u.result = none →
      u.id ∈ e.owned.erase t.id ∨ e.thread.unsubmitted = some u.id := fun u hu hne hres =>
    (h.given u hu hres).imp_left fun ho => (List.mem_erase_of_ne hne).mpr ho
  cases hactive : e.activeTransferList with
  | nil =>
    rw [hactive] at ht
    cases ht
  | cons w rest =>
    rw [hactive] at ht hgiven
    have hnd := (List.nodup_append.mp (List.nodup_append.mp hp.nodup).1).1
    rw [hactive,List.map_cons,List.nodup_cons] at hnd
    have hparked : ∀ u ∈ rest, u.result.isSome = true → u.isCompletedOutOfOrder = true :=
      fun u hu => h.parked u (hactive ▸ List.mem_cons_of_mem w hu)
    unfold onTransferCompleted
    split_ifs with hhead
    · -- the list is left as it is behind the head
      have hwt : w = t := by
        rw [hactive] at hhead
        exact hp.active_unique (hactive ▸ List.mem_cons_self) (hactive ▸ ht)
          (Option.some.inj hhead)
      subst hwt
      have hne : ∀ u ∈ rest, u.id ≠ w.id := fun u hu heq =>
        hnd.1 (heq ▸ List.mem_map_of_mem hu)
      have hrest : (rest.map fun u => if u.id = w.id then
          { u with result := some r, isCompletedOutOfOrder := w.isCompletedOutOfOrder }
          else u) = rest :=
        (List.map_congr_left fun u hu => if_neg (hne u hu)).trans (List.map_id rest)
      have hleft : (((e.takeBack w r).setResult w.id r
          w.isCompletedOutOfOrder).completeHead).activeTransferList =
            rest.dropWhile EndpointTransfer.isCompletedOutOfOrder := by
        simp only [UsbEndpointState.completeHead,UsbEndpointState.setResult,takeBack,hactive,
          List.map_cons,hrest]
      have hkeeps : (((e.takeBack w r).setResult w.id r
          w.isCompletedOutOfOrder).completeHead).owned = e.owned.erase w.id ∧
          (((e.takeBack w r).setResult w.id r
            w.isCompletedOutOfOrder).completeHead).thread = e.thread := by
        simp only [UsbEndpointState.completeHead,UsbEndpointState.setResult,takeBack,hactive,
          List.map_cons,and_self]
      have hsub : ∀ u ∈ rest.dropWhile EndpointTransfer.isCompletedOutOfOrder, u ∈ rest :=
        fun u hu => (List.dropWhile_suffix _).mem hu
      constructor
      · rw [hleft]
        intro u hu
        have hnot : u.isCompletedOutOfOrder = false := by
          cases hdrop : rest.dropWhile EndpointTransfer.isCompletedOutOfOrder with
          | nil =>
            rw [hdrop] at hu
            cases hu
          | cons v l =>
            have hv := List.head_dropWhile_not EndpointTransfer.isCompletedOutOfOrder
              (by rw [hdrop]; exact List.cons_ne_nil _ _)
            rw [hdrop] at hu
            cases hu
            simpa [hdrop] using hv
        cases hres : u.result with
        | none => rfl
        | some r' =>
          have := hparked u (hsub u (List.mem_of_mem_head? hu)) (by rw [hres]; rfl)
          rw [hnot] at this
          cases this
      · rw [hleft]
        exact fun u hu => hparked u (hsub u hu)
      · rw [hleft,hkeeps.1,hkeeps.2]
        exact fun u hu => hgiven u (List.mem_cons_of_mem w (hsub u hu)) (hne u (hsub u hu))
    · have hwt : w.id ≠ t.id := by
        intro heq
        rw [hactive] at hhead
        exact hhead (congrArg some heq)
      refine ⟨fun u hu => ?_,fun u hu hres => ?_,fun u hu hres => ?_⟩
      · change u ∈ (e.activeTransferList.map _).head? at hu
        rw [hactive,List.map_cons,if_neg hwt] at hu
        exact h.head u (by rw [hactive]; exact hu)
      · obtain ⟨v,hv,rfl⟩ := List.mem_map.mp hu
        by_cases hvt : v.id = t.id
        · rw [if_pos hvt]
        · rw [if_neg hvt] at hres ⊢
          exact h.parked v hv hres
      · obtain ⟨v,hv,rfl⟩ := List.mem_map.mp hu
        by_cases hvt : v.id = t.id
        · rw [if_pos hvt] at hres
          cases hres
        · rw [if_neg hvt] at hres ⊢
          exact hgiven v (hactive ▸ hv) hvt hres

end UsbEndpointState
end Jancy.Io
