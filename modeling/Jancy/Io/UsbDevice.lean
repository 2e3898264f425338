import Jancy.Lib.Run

/-! `UsbDevice` and `UsbInterface` with the parts of `UsbEndpoint` that open and close: who is on
whose list, and what is claimed of libusb. -/
namespace Jancy.Io

abbrev UsbDeviceId := ℕ

abbrev UsbInterfaceId := ℕ

abbrev UsbEndpointId := ℕ

/-- `endpointTable` holds the ids of the endpoints. -/
structure UsbInterfaceDescriptor where
  interfaceId : ℕ
  endpointTable : List ℕ
  deriving DecidableEq, Repr

/-- One entry for each interface: its alternate settings in the order of the chain. -/
abbrev UsbConfigurationDescriptor := List (List UsbInterfaceDescriptor)

/-- Both arguments are `uint8_t`; the first one is an index. -/
def UsbConfigurationDescriptor.findInterfaceDescriptor (config : UsbConfigurationDescriptor)
    (interfaceId altSettingId : ℕ) : Option UsbInterfaceDescriptor :=
  config[interfaceId % 256]?.bind fun settings => settings[altSettingId % 256]?

structure UsbEndpoint where
  iface : UsbInterfaceId
  isOpen : Bool
  deriving DecidableEq, Repr

structure UsbInterface where
  device : UsbDeviceId
  interfaceDescriptor : UsbInterfaceDescriptor
  isClaimed : Bool
  endpointList : List UsbEndpointId
  deriving DecidableEq, Repr

/-- `claimed` lists the interfaces that libusb has claimed for the handle of the device. -/
structure UsbDevice where
  isOpen : Bool
  claimed : List ℕ
  interfaceList : List UsbInterfaceId
  deriving DecidableEq, Repr

inductive UsbEvent where
  | endpointClosed (e : UsbEndpointId)
  | interfaceReleased (i : UsbInterfaceId)
  | deviceClosed (d : UsbDeviceId)
  deriving DecidableEq, Repr

/-- All devices, interfaces and endpoints. Those that were not created yet are neither claimed
nor open. -/
structure UsbState where
  device : UsbDeviceId → UsbDevice
  iface : UsbInterfaceId → UsbInterface
  endpoint : UsbEndpointId → UsbEndpoint
  nextInterface : UsbInterfaceId
  nextEndpoint : UsbEndpointId
  log : List UsbEvent

/-- `sl::List::remove`. Nothing is known of it for an element that is not on the list. -/
def unlink (l : List ℕ) (x : ℕ) : Option (List ℕ) :=
  if x ∈ l then some (l.erase x) else none

namespace UsbState

def initial : UsbState where
  device _ := ⟨false,[],[]⟩
  iface _ := ⟨0,⟨0,[]⟩,false,[]⟩
  endpoint _ := ⟨0,false⟩
  nextInterface := 0
  nextEndpoint := 0
  log := []

def setDevice (s : UsbState) (d : UsbDeviceId) (v : UsbDevice) : UsbState :=
  { s with device := Function.update s.device d v }

def setInterface (s : UsbState) (i : UsbInterfaceId) (v : UsbInterface) : UsbState :=
  { s with iface := Function.update s.iface i v }

def setEndpoint (s : UsbState) (e : UsbEndpointId) (v : UsbEndpoint) : UsbState :=
  { s with endpoint := Function.update s.endpoint e v }

def emit (s : UsbState) (event : UsbEvent) : UsbState := { s with log := s.log ++ [event] }

def setInterfaceList (s : UsbState) (d : UsbDeviceId) (l : List UsbInterfaceId) : UsbState :=
  s.setDevice d { s.device d with interfaceList := l }

def setEndpointList (s : UsbState) (i : UsbInterfaceId) (l : List UsbEndpointId) : UsbState :=
  s.setInterface i { s.iface i with endpointList := l }

def removeEndpoint (s : UsbState) (i : UsbInterfaceId) (e : UsbEndpointId) : Option UsbState :=
  (unlink (s.iface i).endpointList e).map (s.setEndpointList i)

/-- `UsbEndpoint::close`, once the I/O thread has ended. -/
def closeEndpoint (s : UsbState) (e : UsbEndpointId) : Option UsbState :=
  if (s.endpoint e).isOpen = false then some s
  else
    (s.removeEndpoint (s.endpoint e).iface e).map fun s =>
      (s.setEndpoint e { s.endpoint e with isOpen := false }).emit (.endpointClosed e)

/-- `UsbInterface::openEndpoint`. It does not look at `m_isClaimed`. -/
def openEndpoint (s : UsbState) (i : UsbInterfaceId) (endpointId : ℕ) : UsbState :=
  if endpointId ∉ (s.iface i).interfaceDescriptor.endpointTable then s
  else
    let e := s.nextEndpoint
    let s := { s with nextEndpoint := e + 1 }
    (s.setEndpointList i ((s.iface i).endpointList ++ [e])).setEndpoint e ⟨i,true⟩

/-- The loop of `UsbInterface::release`: every turn takes the head off the list before the
endpoint is closed. -/
def releaseLoop (i : UsbInterfaceId) : ℕ → UsbState → Option UsbState
  | 0, s => if (s.iface i).endpointList = [] then some s else none
  | n + 1, s =>
      match (s.iface i).endpointList with
      | [] => some s
      | e :: rest => ((s.setEndpointList i rest).closeEndpoint e).bind (releaseLoop i n)

def removeInterface (s : UsbState) (d : UsbDeviceId) (i : UsbInterfaceId) : Option UsbState :=
  (unlink (s.device d).interfaceList i).map (s.setInterfaceList d)

/-- `axl::io::UsbDevice::releaseInterface` for the interface `i`. -/
def releaseInterface (s : UsbState) (d : UsbDeviceId) (i : UsbInterfaceId) : UsbState :=
  let claimed := (s.device d).claimed.erase (s.iface i).interfaceDescriptor.interfaceId
  (s.setDevice d { s.device d with claimed }).emit (.interfaceReleased i)

/-- `UsbInterface::release`. -/
def release (s : UsbState) (i : UsbInterfaceId) : Option UsbState :=
  if (s.iface i).isClaimed = false then some s
  else
    (releaseLoop i (s.iface i).endpointList.length s).bind fun s =>
      ((s.releaseInterface (s.iface i).device i).removeInterface (s.iface i).device i).map fun s =>
        s.setInterface i { s.iface i with isClaimed := false }

/-- The loop of `UsbDevice::close`. -/
def closeLoop (d : UsbDeviceId) : ℕ → UsbState → Option UsbState
  | 0, s => if (s.device d).interfaceList = [] then some s else none
  | n + 1, s =>
      match (s.device d).interfaceList with
      | [] => some s
      | i :: rest => ((s.setInterfaceList d rest).release i).bind (closeLoop d n)

/-- `UsbDevice::close`. Closing the handle gives up what libusb still has claimed for it. -/
def close (s : UsbState) (d : UsbDeviceId) : Option UsbState :=
  if (s.device d).isOpen = false then some s
  else
    (closeLoop d (s.device d).interfaceList.length s).map fun s =>
      (s.setDevice d { s.device d with isOpen := false, claimed := [] }).emit (.deviceClosed d)

/-- `UsbDevice::open`; `opened` is whether access is granted and libusb opens the device. -/
def openDevice (s : UsbState) (d : UsbDeviceId) (opened : Bool) : Option UsbState :=
  (s.close d).map fun s =>
    if opened then s.setDevice d { s.device d with isOpen := true } else s

/-- `axl::io::UsbDevice::claimInterface`, when it succeeds: libusb claims an interface once. -/
def claim (s : UsbState) (d : UsbDeviceId) (interfaceId : ℕ) : UsbState :=
  s.setDevice d { s.device d with claimed := (s.device d).claimed.insert interfaceId }

def createInterface (s : UsbState) (d : UsbDeviceId) (descriptor : UsbInterfaceDescriptor) :
    UsbState :=
  let i := s.nextInterface
  let s := { s with nextInterface := i + 1 }
  (s.setInterface i ⟨d,descriptor,true,[]⟩).setInterfaceList d ((s.device d).interfaceList ++ [i])

/-- `UsbDevice::claimInterface`; `claims` is what libusb answers, and `config` the active
configuration, null where there is none. The null pointer is used without a check. -/
def claimInterface (s : UsbState) (d : UsbDeviceId) (interfaceId altSettingId : ℕ) (claims : Bool)
    (config : Option UsbConfigurationDescriptor) : Option UsbState :=
  if (s.device d).isOpen = false then some s
  else if claims = false then some s
  else
    config.map fun config =>
      match config.findInterfaceDescriptor interfaceId altSettingId with
      | none => s.claim d interfaceId
      | some descriptor => (s.claim d interfaceId).createInterface d descriptor

end UsbState

/-- The calls, with what libusb answers to them. -/
inductive UsbCall where
  | openDevice (d : UsbDeviceId) (opened : Bool)
  | claimInterface (d : UsbDeviceId) (interfaceId altSettingId : ℕ) (claims : Bool)
      (config : Option UsbConfigurationDescriptor)
  | openEndpoint (i : UsbInterfaceId) (endpointId : ℕ)
  | closeEndpoint (e : UsbEndpointId)
  | release (i : UsbInterfaceId)
  | close (d : UsbDeviceId)
  deriving DecidableEq, Repr

/-- A call; `none` if it goes wrong: a list is asked to remove what it does not hold, or a null
pointer is used. -/
def UsbState.call (s : UsbState) : UsbCall → Option UsbState
  | .openDevice d opened => s.openDevice d opened
  | .claimInterface d interfaceId altSettingId claims config =>
      s.claimInterface d interfaceId altSettingId claims config
  | .openEndpoint i endpointId => some (s.openEndpoint i endpointId)
  | .closeEndpoint e => s.closeEndpoint e
  | .release i => s.release i
  | .close d => s.close d

end Jancy.Io
