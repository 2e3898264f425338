import Jancy.Io.UsbDevice
import Mathlib.Data.List.Nodup

/-! The runs of calls in which the lists of devices and interfaces tell the truth and every
teardown is complete. -/
namespace Jancy.Io

namespace UsbState

structure Listed (s : UsbState) : Prop where
  interfaces : ∀ d i, i ∈ (s.device d).interfaceList ↔
    (s.iface i).isClaimed = true ∧ (s.iface i).device = d
  endpoints : ∀ i e, e ∈ (s.iface i).endpointList ↔
    (s.endpoint e).isOpen = true ∧ (s.endpoint e).iface = i
  interfacesOnce : ∀ d, (s.device d).interfaceList.Nodup
  endpointsOnce : ∀ i, (s.iface i).endpointList.Nodup

def deviceOf (s : UsbState) (e : UsbEndpointId) : UsbDeviceId :=
  (s.iface (s.endpoint e).iface).device

/-- From `s` to `s'` every claimed interface of the device is released once, and every open
endpoint of it is closed once, before its interface is released. -/
structure TornDown (s : UsbState) (d : UsbDeviceId) (s' : UsbState) (l : List UsbEvent) :
    Prop where
  log : s'.log = s.log ++ l
  interfaces : ∀ i, (s.iface i).isClaimed = true → (s.iface i).device = d →
    l.count (.interfaceReleased i) = 1
  endpoints : ∀ e, (s.endpoint e).isOpen = true → s.deviceOf e = d →
    ∃ l₁ l₂, l = l₁ ++ .endpointClosed e :: l₂ ∧ .endpointClosed e ∉ l₁ ++ l₂ ∧
      .interfaceReleased (s.endpoint e).iface ∉ l₁

end UsbState

def UsbCall.closes : UsbCall → Option UsbDeviceId
  | .openDevice d _ | .close d => some d
  | _ => none

namespace UsbState

/-- What the call in front of `s'` owes. -/
structure Orderly (s : UsbState) (call : UsbCall) (s' : UsbState) : Prop where
  listed : s'.Listed
  tornDown : ∀ d, call.closes = some d → (s.device d).isOpen = true → ∃ l, TornDown s d s' l
  unclaimed : ∀ d interfaceId altSettingId claims config,
    call = .claimInterface d interfaceId altSettingId claims config →
    s'.nextInterface = s.nextInterface → (s'.device d).claimed = (s.device d).claimed

def InOrder (s : UsbState) : UsbCall → Prop
  | .openDevice d _ | .close d => (s.device d).isOpen = true →
      (∀ i, (s.iface i).isClaimed = true → (s.iface i).device ≠ d) ∧
        ∀ e, (s.endpoint e).isOpen = true → s.deviceOf e ≠ d
  | .release i => (s.iface i).isClaimed = true →
      ∀ e, (s.endpoint e).isOpen = true → (s.endpoint e).iface ≠ i
  | .claimInterface d interfaceId altSettingId claims config =>
      (s.device d).isOpen = true → claims = true → ∃ c, config = some c ∧
        (c.findInterfaceDescriptor interfaceId altSettingId = none →
          interfaceId ∈ (s.device d).claimed)
  | .openEndpoint _ _ | .closeEndpoint _ => True

structure Inv (s : UsbState) : Prop extends s.Listed where
  claimedOpen : ∀ i, (s.iface i).isClaimed = true → (s.device (s.iface i).device).isOpen = true
  freshInterface : ∀ i, s.nextInterface ≤ i → (s.iface i).isClaimed = false ∧
    (s.iface i).endpointList = [] ∧ (s.iface i).interfaceDescriptor.endpointTable = []
  freshEndpoint : ∀ e, s.nextEndpoint ≤ e → (s.endpoint e).isOpen = false

theorem initial_inv : initial.Inv where
  interfaces := by simp [initial]
  endpoints := by simp [initial]
  interfacesOnce := by simp [initial]
  endpointsOnce := by simp [initial]
  claimedOpen := by simp [initial]
  freshInterface := by simp [initial]
  freshEndpoint := by simp [initial]

variable {s s' : UsbState} {d : UsbDeviceId} {i : UsbInterfaceId} {e : UsbEndpointId}

def withoutEndpoint (s : UsbState) (e : UsbEndpointId) : UsbState :=
  let i := (s.endpoint e).iface
  ((s.setEndpointList i ((s.iface i).endpointList.erase e)).setEndpoint e
    { s.endpoint e with isOpen := false }).emit (.endpointClosed e)

theorem unlink_mem {l : List ℕ} {x : ℕ} (h : x ∈ l) : unlink l x = some (l.erase x) := if_pos h

theorem unlink_stray {l : List ℕ} {x : ℕ} (h : x ∉ l) : unlink l x = none := if_neg h

theorem Inv.closeEndpoint_open (h : s.Inv) (ho : (s.endpoint e).isOpen = true) :
    s.closeEndpoint e = some (s.withoutEndpoint e) := by
  have hmem : e ∈ (s.iface (s.endpoint e).iface).endpointList := (h.endpoints _ e).mpr ⟨ho,rfl⟩
  simp only [closeEndpoint,ho,removeEndpoint,unlink_mem hmem,Bool.true_eq_false,if_false,
    Option.map_some]
  rfl

theorem Inv.withoutEndpoint (h : s.Inv) (e : UsbEndpointId) : (s.withoutEndpoint e).Inv where
  interfaces d i := by
    have := h.interfaces d i
    simp only [UsbState.withoutEndpoint,emit,setEndpoint,setEndpointList,setInterface,
      Function.update_apply]
    split_ifs with hi
    · subst hi
      exact this
    · exact this
  endpoints i f := by
    have := h.endpoints i f
    have hnd := h.endpointsOnce i
    simp only [UsbState.withoutEndpoint,emit,setEndpoint,setEndpointList,setInterface,
      Function.update_apply]
    split_ifs with hi hf hf
    · subst hi hf
      simp [hnd.mem_erase_iff]
    · subst hi
      simpa [hnd.mem_erase_iff,hf] using this
    · subst hf
      simp only [this,false_and,iff_false,not_and]
      exact fun _ heq => hi heq.symm
    · exact this
  interfacesOnce := h.interfacesOnce
  endpointsOnce i := by
    simp only [UsbState.withoutEndpoint,emit,setEndpoint,setEndpointList,setInterface,
      Function.update_apply]
    split_ifs with hi
    · exact (h.endpointsOnce _).erase _
    · exact h.endpointsOnce i
  claimedOpen i := by
    have := h.claimedOpen i
    simp only [UsbState.withoutEndpoint,emit,setEndpoint,setEndpointList,setInterface,
      Function.update_apply]
    split_ifs with hi
    · subst hi
      exact this
    · exact this
  freshInterface i hle := by
    obtain ⟨hc,hl,ht⟩ := h.freshInterface i hle
    simp only [UsbState.withoutEndpoint,emit,setEndpoint,setEndpointList,setInterface,
      Function.update_apply]
    split_ifs with hi
    · subst hi
      exact ⟨hc,by simp [hl],ht⟩
    · exact ⟨hc,hl,ht⟩
  freshEndpoint f hle := by
    have := h.freshEndpoint f hle
    simp only [UsbState.withoutEndpoint,emit,setEndpoint,Function.update_apply]
    split_ifs
    · rfl
    · exact this

theorem Inv.openEndpoint (h : s.Inv) (i : UsbInterfaceId) (endpointId : ℕ) :
    (s.openEndpoint i endpointId).Inv := by
  by_cases hfound : endpointId ∈ (s.iface i).interfaceDescriptor.endpointTable
  swap
  · rwa [UsbState.openEndpoint,if_pos hfound]
  have hi : i < s.nextInterface := by
    by_contra hle
    rw [(h.freshInterface i (Nat.le_of_not_lt hle)).2.2] at hfound
    exact List.not_mem_nil hfound
  have hclosed := h.freshEndpoint s.nextEndpoint (Nat.le_refl _)
  have hnew : ∀ j, s.nextEndpoint ∉ (s.iface j).endpointList := by
    intro j hmem
    simp [h.endpoints,hclosed] at hmem
  rw [UsbState.openEndpoint,if_neg (not_not.mpr hfound)]
  refine ⟨⟨?_,?_,h.interfacesOnce,?_⟩,?_,?_,?_⟩ <;>
    simp only [setEndpoint,setEndpointList,setInterface,Function.update_apply]
  · intro d j
    have := h.interfaces d j
    split_ifs with hj
    · subst hj
      exact this
    · exact this
  · intro j f
    have := h.endpoints j f
    split_ifs with hj hf hf
    · subst hj hf
      simp
    · subst hj
      simpa [hf] using this
    · subst hf
      simpa [hnew j] using Ne.symm hj
    · exact this
  · intro j
    split_ifs with hj
    · refine List.nodup_append.mpr ⟨h.endpointsOnce i,by simp,?_⟩
      rintro x hx y hy rfl
      obtain rfl := List.mem_singleton.mp hy
      exact hnew i hx
    · exact h.endpointsOnce j
  · intro j
    have := h.claimedOpen j
    split_ifs with hj
    · subst hj
      exact this
    · exact this
  · intro j hle
    have hj : j ≠ i := Nat.ne_of_gt (Nat.lt_of_lt_of_le hi hle)
    simpa [hj] using h.freshInterface j hle
  · intro f hle
    have hf : f ≠ s.nextEndpoint := Nat.ne_of_gt hle
    simpa [hf] using h.freshEndpoint f (Nat.le_of_succ_le hle)

def withoutInterface (s : UsbState) (i : UsbInterfaceId) : UsbState :=
  let d := (s.iface i).device
  let s := s.releaseInterface d i
  (s.setInterfaceList d ((s.device d).interfaceList.erase i)).setInterface i
    { s.iface i with isClaimed := false }

theorem release_stuck (hc : (s.iface i).isClaimed = true) (hl : (s.iface i).endpointList ≠ [])
    (hopen : ∀ e ∈ (s.iface i).endpointList,
      (s.endpoint e).isOpen = true ∧ (s.endpoint e).iface = i)
    (hnd : (s.iface i).endpointList.Nodup) : s.release i = none := by
  obtain ⟨f,rest,hlist⟩ := List.exists_cons_of_ne_nil hl
  rw [hlist] at hopen hnd
  obtain ⟨ho,hi⟩ := hopen f List.mem_cons_self
  have hclose : (s.setEndpointList i rest).closeEndpoint f = none := by
    simp [closeEndpoint,setEndpointList,setInterface,ho,hi,removeEndpoint,
      unlink_stray (List.nodup_cons.mp hnd).1]
  have hloop : releaseLoop i (s.iface i).endpointList.length s = none := by
    rw [hlist,List.length_cons,releaseLoop,hlist]
    simp only [hclose,Option.bind_none]
  simp [release,hc,hloop]

theorem releaseLoop_empty (hl : (s.iface i).endpointList = []) :
    releaseLoop i (s.iface i).endpointList.length s = some s := by
  rw [hl,List.length_nil,releaseLoop,if_pos hl]

theorem release_unlisted (hc : (s.iface i).isClaimed = true)
    (hi : i ∉ (s.device (s.iface i).device).interfaceList)
    (hopen : ∀ e ∈ (s.iface i).endpointList,
      (s.endpoint e).isOpen = true ∧ (s.endpoint e).iface = i)
    (hnd : (s.iface i).endpointList.Nodup) : s.release i = none := by
  by_cases hl : (s.iface i).endpointList = []
  · have hunlink : unlink (((s.releaseInterface (s.iface i).device i).device
        (s.iface i).device).interfaceList) i = none := by
      simp [releaseInterface,setDevice,emit,unlink_stray hi]
    simp only [release,hc,Bool.true_eq_false,if_false,releaseLoop_empty hl,Option.bind_some,
      removeInterface,hunlink,Option.map_none]
  · exact release_stuck hc hl hopen hnd

theorem Inv.release_empty (h : s.Inv) (hc : (s.iface i).isClaimed = true)
    (hl : (s.iface i).endpointList = []) : s.release i = some (s.withoutInterface i) := by
  have hmem : i ∈ (s.device (s.iface i).device).interfaceList := (h.interfaces _ i).mpr ⟨hc,rfl⟩
  have hunlink : unlink (((s.releaseInterface (s.iface i).device i).device
      (s.iface i).device).interfaceList) i =
        some ((s.device (s.iface i).device).interfaceList.erase i) := by
    rw [releaseInterface]
    simp [setDevice,emit,unlink_mem hmem]
  simp only [release,hc,Bool.true_eq_false,if_false,releaseLoop_empty hl,Option.bind_some,
    removeInterface,hunlink,Option.map_some]
  simp [withoutInterface,releaseInterface,setInterfaceList,setDevice,emit]

theorem Inv.withoutInterface (h : s.Inv) (hl : (s.iface i).endpointList = []) :
    (s.withoutInterface i).Inv := by
  refine ⟨⟨?_,?_,?_,?_⟩,?_,?_,h.freshEndpoint⟩ <;>
    simp only [UsbState.withoutInterface,releaseInterface,setInterfaceList,setDevice,emit,
      setInterface,Function.update_apply]
  · intro d j
    have := h.interfaces d j
    have hnd := h.interfacesOnce d
    by_cases hj : j = i
    · subst hj
      by_cases hd : d = (s.iface j).device
      · subst hd
        simp [hnd.mem_erase_iff]
      · simpa [hd,Ne.symm hd] using this
    · by_cases hd : d = (s.iface i).device
      · subst hd
        simpa [hj,hnd.mem_erase_iff] using this
      · simpa [hj,hd] using this
  · intro j e
    have := h.endpoints j e
    by_cases hj : j = i
    · subst hj
      simpa using this
    · simpa [hj] using this
  · intro d
    have hnd := h.interfacesOnce d
    by_cases hd : d = (s.iface i).device
    · subst hd
      simpa using hnd.erase i
    · simpa [hd] using hnd
  · intro j
    have := h.endpointsOnce j
    by_cases hj : j = i
    · subst hj
      simpa using this
    · simpa [hj] using this
  · intro j
    have := h.claimedOpen j
    by_cases hj : j = i
    · simp [hj]
    · by_cases hd : (s.iface j).device = (s.iface i).device
      · simpa [hj,hd] using this
      · simpa [hj,hd] using this
  · intro j hle
    obtain ⟨hc,hl',ht⟩ := h.freshInterface j hle
    by_cases hj : j = i
    · subst hj
      simpa using ⟨hl',ht⟩
    · simpa [hj] using ⟨hc,hl',ht⟩

def withoutDevice (s : UsbState) (d : UsbDeviceId) : UsbState :=
  (s.setDevice d { s.device d with isOpen := false, claimed := [] }).emit (.deviceClosed d)

theorem close_empty (ho : (s.device d).isOpen = true) (hl : (s.device d).interfaceList = []) :
    s.close d = some (s.withoutDevice d) := by
  have hloop : closeLoop d (s.device d).interfaceList.length s = some s := by
    rw [hl,List.length_nil,closeLoop,if_pos hl]
  simp [close,ho,hloop,withoutDevice]

/-- The first interface is off the list when its `release` looks for it there, if it comes that
far. -/
theorem Inv.close_stuck (h : s.Inv) (ho : (s.device d).isOpen = true)
    (hl : (s.device d).interfaceList ≠ []) : s.close d = none := by
  obtain ⟨i,rest,hlist⟩ := List.exists_cons_of_ne_nil hl
  obtain ⟨hc,hd⟩ := (h.interfaces d i).mp (by simp [hlist])
  have hrest : i ∉ rest := by
    have := h.interfacesOnce d
    rw [hlist] at this
    exact (List.nodup_cons.mp this).1
  have hrelease : (s.setInterfaceList d rest).release i = none := by
    refine release_unlisted hc ?_ (fun e he => (h.endpoints i e).mp he) (h.endpointsOnce i)
    simpa [setInterfaceList,setDevice,hd] using hrest
  have hloop : closeLoop d (s.device d).interfaceList.length s = none := by
    rw [hlist,List.length_cons,closeLoop,hlist]
    simp only [hrelease,Option.bind_none]
  simp [close,ho,hloop]

theorem Inv.withoutDevice (h : s.Inv) (hl : (s.device d).interfaceList = []) :
    (s.withoutDevice d).Inv := by
  have hdev : ∀ j, ((s.withoutDevice d).device j).interfaceList = (s.device j).interfaceList := by
    intro j
    by_cases hj : j = d
    · subst hj
      simp [UsbState.withoutDevice,setDevice,emit]
    · simp [UsbState.withoutDevice,setDevice,emit,hj]
  refine ⟨⟨fun j i => ?_,h.endpoints,fun j => ?_,h.endpointsOnce⟩,fun i hc => ?_,
    h.freshInterface,h.freshEndpoint⟩
  · rw [hdev j]
    exact h.interfaces j i
  · rw [hdev j]
    exact h.interfacesOnce j
  · have hne : (s.iface i).device ≠ d := by
      intro hd
      have := (h.interfaces d i).mpr ⟨hc,hd⟩
      simp [hl] at this
    have := h.claimedOpen i hc
    simpa [UsbState.withoutDevice,setDevice,emit,hne] using this

theorem Inv.reopen (h : s.Inv) (d : UsbDeviceId) :
    (s.setDevice d { s.device d with isOpen := true }).Inv := by
  have hdev : ∀ j, ((s.setDevice d { s.device d with isOpen := true }).device j).interfaceList =
      (s.device j).interfaceList := by
    intro j
    by_cases hj : j = d
    · subst hj
      simp [setDevice]
    · simp [setDevice,hj]
  refine ⟨⟨fun j i => ?_,h.endpoints,fun j => ?_,h.endpointsOnce⟩,fun i hc => ?_,
    h.freshInterface,h.freshEndpoint⟩
  · rw [hdev j]
    exact h.interfaces j i
  · rw [hdev j]
    exact h.interfacesOnce j
  · have := h.claimedOpen i hc
    by_cases hd : (s.iface i).device = d
    · simp [setDevice,hd]
    · simpa [setDevice,hd] using this

theorem Inv.claim (h : s.Inv) (d : UsbDeviceId) (interfaceId : ℕ) :
    (s.claim d interfaceId).Inv := by
  refine ⟨⟨fun j i => ?_,h.endpoints,fun j => ?_,h.endpointsOnce⟩,fun i hc => ?_,
    h.freshInterface,h.freshEndpoint⟩ <;>
    simp only [UsbState.claim,setDevice,Function.update_apply]
  · have := h.interfaces j i
    split_ifs with hj
    · subst hj
      exact this
    · exact this
  · have := h.interfacesOnce j
    split_ifs with hj
    · subst hj
      exact this
    · exact this
  · have := h.claimedOpen i hc
    split_ifs with hd
    · rwa [hd] at this
    · exact this

theorem Inv.createInterface (h : s.Inv) (ho : (s.device d).isOpen = true)
    (descriptor : UsbInterfaceDescriptor) : (s.createInterface d descriptor).Inv := by
  obtain ⟨hfresh,hempty,-⟩ := h.freshInterface s.nextInterface (Nat.le_refl _)
  have hnew : ∀ j, s.nextInterface ∉ (s.device j).interfaceList := by
    intro j hmem
    simp [h.interfaces,hfresh] at hmem
  have hnone : ∀ e, (s.endpoint e).isOpen = true → (s.endpoint e).iface ≠ s.nextInterface := by
    intro e he heq
    have := (h.endpoints _ e).mpr ⟨he,heq⟩
    simp [hempty] at this
  refine ⟨⟨?_,?_,?_,?_⟩,?_,?_,h.freshEndpoint⟩ <;>
    simp only [UsbState.createInterface,setInterfaceList,setDevice,setInterface,
      Function.update_apply]
  · intro j i
    have := h.interfaces j i
    by_cases hi : i = s.nextInterface
    · subst hi
      by_cases hj : j = d
      · simp [hj]
      · simpa [hj,Ne.symm hj] using hnew j
    · by_cases hj : j = d
      · subst hj
        simpa [hi] using this
      · simpa [hj,hi] using this
  · intro i e
    have := h.endpoints i e
    by_cases hi : i = s.nextInterface
    · subst hi
      simpa using hnone e
    · simpa [hi] using this
  · intro j
    have hnd := h.interfacesOnce j
    by_cases hj : j = d
    · subst hj
      simp only [if_true]
      refine List.nodup_append.mpr ⟨hnd,by simp,?_⟩
      rintro x hx y hy rfl
      obtain rfl := List.mem_singleton.mp hy
      exact hnew _ hx
    · simpa [hj] using hnd
  · intro i
    have := h.endpointsOnce i
    by_cases hi : i = s.nextInterface
    · simp [hi]
    · simpa [hi] using this
  · intro i
    have := h.claimedOpen i
    by_cases hi : i = s.nextInterface
    · simpa [hi] using ho
    · by_cases hd : (s.iface i).device = d
      · simp [hi,hd,ho]
      · simpa [hi,hd] using this
  · intro i hle
    have hi : i ≠ s.nextInterface := Nat.ne_of_gt hle
    simpa [hi] using h.freshInterface i (Nat.le_of_succ_le hle)

theorem TornDown.of_idle (hi : ∀ i, (s.iface i).isClaimed = true → (s.iface i).device ≠ d)
    (he : ∀ e, (s.endpoint e).isOpen = true → s.deviceOf e ≠ d) {l : List UsbEvent}
    (hlog : s'.log = s.log ++ l) : TornDown s d s' l where
  log := hlog
  interfaces i hc hd := absurd hd (hi i hc)
  endpoints e ho hd := absurd hd (he e ho)

theorem Inv.interfaceList_nil (h : s.Inv) :
    (s.device d).interfaceList = [] ↔
      ∀ i, (s.iface i).isClaimed = true → (s.iface i).device ≠ d := by
  constructor
  · intro hl i hc hd
    have := (h.interfaces d i).mpr ⟨hc,hd⟩
    simp [hl] at this
  · intro hi
    refine List.eq_nil_iff_forall_not_mem.mpr fun i hmem => ?_
    obtain ⟨hc,hd⟩ := (h.interfaces d i).mp hmem
    exact hi i hc hd

theorem Inv.endpointList_nil (h : s.Inv) :
    (s.iface i).endpointList = [] ↔
      ∀ e, (s.endpoint e).isOpen = true → (s.endpoint e).iface ≠ i := by
  constructor
  · intro hl e ho hi
    have := (h.endpoints i e).mpr ⟨ho,hi⟩
    simp [hl] at this
  · intro he
    refine List.eq_nil_iff_forall_not_mem.mpr fun e hmem => ?_
    obtain ⟨ho,hi⟩ := (h.endpoints i e).mp hmem
    exact he e ho hi

theorem close_closed (ho : ¬ (s.device d).isOpen = true) : s.close d = some s :=
  if_pos (by simpa using ho)

theorem Inv.close (h : s.Inv)
    (hidle : (s.device d).isOpen = true →
      (∀ i, (s.iface i).isClaimed = true → (s.iface i).device ≠ d) ∧
        ∀ e, (s.endpoint e).isOpen = true → s.deviceOf e ≠ d) :
    ∃ t, s.close d = some t ∧ t.Inv ∧
      ((s.device d).isOpen = true → ∃ l, TornDown s d t l) := by
  by_cases ho : (s.device d).isOpen = true
  · obtain ⟨hi,he⟩ := hidle ho
    have hl := h.interfaceList_nil.mpr hi
    exact ⟨_,close_empty ho hl,h.withoutDevice hl,fun _ => ⟨_,.of_idle hi he rfl⟩⟩
  · exact ⟨s,close_closed ho,h,fun ho' => absurd ho' ho⟩

theorem Inv.close_needs (h : s.Inv) {t : UsbState} (hclose : s.close d = some t)
    {l : List UsbEvent} (hlog : s'.log = t.log) (htorn : TornDown s d s' l)
    (ho : (s.device d).isOpen = true) :
    (∀ i, (s.iface i).isClaimed = true → (s.iface i).device ≠ d) ∧
      ∀ e, (s.endpoint e).isOpen = true → s.deviceOf e ≠ d := by
  have hl : (s.device d).interfaceList = [] := by
    by_contra hne
    rw [h.close_stuck ho hne] at hclose
    cases hclose
  refine ⟨h.interfaceList_nil.mp hl,fun e he hd => ?_⟩
  rw [close_empty ho hl] at hclose
  obtain rfl := Option.some.inj hclose
  have heq : l = [.deviceClosed d] := by
    have : s.log ++ l = s.log ++ [.deviceClosed d] := by rw [← htorn.log,hlog]; rfl
    exact List.append_cancel_left this
  obtain ⟨l₁,l₂,hsplit,-,-⟩ := htorn.endpoints e he hd
  have hmem : UsbEvent.endpointClosed e ∈ l := by simp [hsplit]
  simp [heq] at hmem

theorem Inv.orderly_of_inOrder (h : s.Inv) {call : UsbCall} (hin : s.InOrder call) :
    ∃ s', s.call call = some s' ∧ s.Orderly call s' ∧ s'.Inv := by
  cases call with
  | openDevice d opened =>
    obtain ⟨t,hclose,ht,htorn⟩ := h.close hin
    have hlog : ∀ u, u = (if opened = true then t.setDevice d { t.device d with isOpen := true }
        else t) → u.Inv ∧ u.log = t.log := by
      rintro u rfl
      split_ifs
      · exact ⟨ht.reopen d,rfl⟩
      · exact ⟨ht,rfl⟩
    obtain ⟨hinv,hlog⟩ := hlog _ rfl
    refine ⟨_,by simp only [UsbState.call,openDevice,hclose,Option.map_some],
      ⟨hinv.toListed,?_,by simp⟩,hinv⟩
    rintro d' hd' ho
    obtain rfl := Option.some.inj hd'
    obtain ⟨l,hl⟩ := htorn ho
    exact ⟨l,⟨by rw [hlog,hl.log],hl.interfaces,hl.endpoints⟩⟩
  | close d =>
    obtain ⟨t,hclose,ht,htorn⟩ := h.close hin
    refine ⟨t,hclose,⟨ht.toListed,?_,by simp⟩,ht⟩
    rintro d' hd' ho
    obtain rfl := Option.some.inj hd'
    exact htorn ho
  | claimInterface d interfaceId altSettingId claims config =>
    have hkept : s.Orderly (.claimInterface d interfaceId altSettingId claims config) s :=
      ⟨h.toListed,by simp [UsbCall.closes],fun _ _ _ _ _ _ _ => rfl⟩
    by_cases ho : (s.device d).isOpen = true
    swap
    · exact ⟨s,if_pos (by simpa using ho),hkept,h⟩
    cases claims with
    | false => exact ⟨s,by simp [UsbState.call,UsbState.claimInterface,ho],hkept,h⟩
    | true =>
      obtain ⟨c,rfl,hknown⟩ := hin ho rfl
      have hclaim := h.claim d interfaceId
      have ho' : ((s.claim d interfaceId).device d).isOpen = true := by
        simpa [UsbState.claim,setDevice] using ho
      cases hfind : c.findInterfaceDescriptor interfaceId altSettingId with
      | none =>
        refine ⟨s.claim d interfaceId,by simp [UsbState.call,UsbState.claimInterface,ho,hfind],
          ⟨hclaim.toListed,by simp [UsbCall.closes],?_⟩,hclaim⟩
        rintro d' n a b c' hcall -
        cases hcall
        simp [UsbState.claim,setDevice,List.insert_of_mem (hknown hfind)]
      | some descriptor =>
        have hcreate := hclaim.createInterface ho' descriptor
        refine ⟨_,by simp [UsbState.call,UsbState.claimInterface,ho,hfind],
          ⟨hcreate.toListed,by simp [UsbCall.closes],?_⟩,hcreate⟩
        rintro d' n a b c' - hsame
        exact absurd hsame (Nat.succ_ne_self _)
  | openEndpoint i endpointId =>
    have hopen := h.openEndpoint i endpointId
    exact ⟨_,rfl,⟨hopen.toListed,by simp [UsbCall.closes],by simp⟩,hopen⟩
  | closeEndpoint e =>
    by_cases ho : (s.endpoint e).isOpen = true
    · have hclose := h.withoutEndpoint e
      exact ⟨_,h.closeEndpoint_open ho,⟨hclose.toListed,by simp [UsbCall.closes],by simp⟩,hclose⟩
    · exact ⟨s,if_pos (by simpa using ho),⟨h.toListed,by simp [UsbCall.closes],by simp⟩,h⟩
  | release i =>
    by_cases hc : (s.iface i).isClaimed = true
    · have hl := h.endpointList_nil.mpr (hin hc)
      have hrelease := h.withoutInterface hl
      exact ⟨_,h.release_empty hc hl,⟨hrelease.toListed,by simp [UsbCall.closes],by simp⟩,hrelease⟩
    · exact ⟨s,if_pos (by simpa using hc),⟨h.toListed,by simp [UsbCall.closes],by simp⟩,h⟩

theorem Inv.inOrder_of_orderly (h : s.Inv) {call : UsbCall} (hcall : s.call call = some s')
    (hord : s.Orderly call s') : s.InOrder call := by
  cases call with
  | openDevice d opened =>
    intro ho
    obtain ⟨t,hclose,hopen⟩ := Option.map_eq_some_iff.mp hcall
    have hlog : s'.log = t.log := by
      rw [← hopen]
      split_ifs <;> rfl
    obtain ⟨l,hl⟩ := hord.tornDown d rfl ho
    exact h.close_needs hclose hlog hl ho
  | close d =>
    intro ho
    obtain ⟨l,hl⟩ := hord.tornDown d rfl ho
    exact h.close_needs hcall rfl hl ho
  | claimInterface d interfaceId altSettingId claims config =>
    rintro ho rfl
    simp only [UsbState.call,UsbState.claimInterface,ho,Bool.true_eq_false,if_false] at hcall
    obtain ⟨c,rfl,hclaim⟩ := Option.map_eq_some_iff.mp hcall
    refine ⟨c,rfl,fun hnone => ?_⟩
    rw [hnone] at hclaim
    have hsame := hord.unclaimed _ _ _ _ _ rfl (by rw [← hclaim]; rfl)
    have hmem : interfaceId ∈ (s'.device d).claimed := by
      rw [← hclaim]
      simp [UsbState.claim,setDevice]
    rwa [hsame] at hmem
  | openEndpoint i endpointId => trivial
  | closeEndpoint e => trivial
  | release i =>
    intro hc
    refine h.endpointList_nil.mp ?_
    by_contra hne
    have hstuck := release_stuck hc hne (fun e he => (h.endpoints i e).mp he) (h.endpointsOnce i)
    rw [UsbState.call,hstuck] at hcall
    cases hcall

/-- Every call of a run goes right, leaves lists that tell the truth and tears down what it
closes, if and only if the program tears everything down itself, from the inside out, and no
claim is made that the configuration does not describe. -/
theorem teardown_iff (calls : List UsbCall) :
    Run.Through call Orderly initial calls ↔ Run.Before call InOrder initial calls :=
  Run.through_iff_before (fun _ _ h hin => h.orderly_of_inOrder hin)
    (fun _ _ _ h hcall hord => h.inOrder_of_orderly hcall hord) initial_inv calls

/-- Two interfaces are claimed, and the device is closed. -/
theorem not_teardown_two_interfaces : ¬ Run.Through call Orderly initial
    [.openDevice 0 true,.claimInterface 0 0 0 true (some [[⟨0,[]⟩],[⟨1,[]⟩]]),
      .claimInterface 0 1 0 true (some [[⟨0,[]⟩],[⟨1,[]⟩]]),.close 0] := by
  intro h
  have hnone := h.exec_isSome
  revert hnone
  decide

end UsbState
end Jancy.Io
