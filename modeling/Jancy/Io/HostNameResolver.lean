import Jancy.Lib.Run
import Mathlib.Algebra.Group.Int.Defs
import Mathlib.Algebra.Group.Nat.Defs

/-! `io.HostNameResolver`: the calls of the program, cut at the lock, and the resolver thread. -/
namespace Jancy.Io

/-- An address, with its port in network byte order. -/
structure ResolvedAddress where
  family : ℕ
  address : ℕ
  port : BitVec 16
  deriving DecidableEq, Repr

/-- The system: its `AF_INET6`, and what `SockAddr::parse` reads of a numeric address. -/
structure ResolverSystem where
  isWin : Bool
  afInet6 : ℕ
  parse : List Char → Option ResolvedAddress

/-- `AddressFamily_Ip6`. -/
def addressFamilyIp6 : ℕ := 3

/-- What stands before and after the first colon. -/
def splitColon : List Char → Option (List Char × List Char)
  | [] => none
  | c :: rest =>
      if c = ':' then some ([],rest)
      else (splitColon rest).map fun parts => (c :: parts.1,parts.2)

def isSpace (c : Char) : Bool :=
  c = ' ' || (9 ≤ c.toNat && c.toNat ≤ 13)

def digitsValue (value : ℕ) : List Char → ℕ
  | [] => value
  | c :: rest => if c.isDigit then digitsValue (value * 10 + (c.toNat - '0'.toNat)) rest else value

def unsignedValue : List Char → Option ℕ
  | [] => none
  | c :: rest => if c.isDigit then some (digitsValue 0 (c :: rest)) else none

def signedValue : List Char → Option ℤ
  | [] => none
  | c :: rest =>
      if c = '-' then (unsignedValue rest).map fun value => -(value : ℤ)
      else if c = '+' then (unsignedValue rest).map fun value => (value : ℤ)
      else (unsignedValue (c :: rest)).map fun value => (value : ℤ)

/-- The number that `strtol` reads, if there is one. -/
def writtenNumber (text : List Char) : Option ℤ :=
  signedValue (text.dropWhile isSpace)

/-- What a name stands for: an address, or a host with the port that is written after it, or 0. -/
inductive ResolveTarget where
  | numeric (address : ResolvedAddress)
  | invalidPort
  | host (name : List Char) (port : ℤ)
  deriving DecidableEq, Repr

def ResolverSystem.target (system : ResolverSystem) (name : List Char) : ResolveTarget :=
  match system.parse name with
  | some address => .numeric address
  | none =>
      match splitColon name with
      | none => .host name 0
      | some (host,text) =>
          match writtenNumber text with
          | none => .invalidPort
          | some port => .host host port

/-- A `long` has 32 bits for Windows. -/
def ResolverSystem.clamp (system : ResolverSystem) (value : ℤ) : ℤ :=
  let max : ℤ := if system.isWin then 2 ^ 31 - 1 else 2 ^ 63 - 1
  if value > max then max else if value < -max - 1 then -max - 1 else value

def swapByteOrder16 (port : BitVec 16) : BitVec 16 :=
  (port >>> 8) ||| (port <<< 8)

/-- The fields by which a request is told from another one. -/
structure LookupKey where
  name : List Char
  addrFamily : ℕ
  port : BitVec 16
  deriving DecidableEq, Repr

inductive AddressSource where
  | numeric (name : List Char)
  | lookup (name : List Char) (addrFamily : ℕ)
  deriving DecidableEq, Repr

structure AddressTable where
  source : AddressSource
  addresses : List ResolvedAddress
  deriving DecidableEq, Repr

inductive ResolverError where
  | invalidPort (name : List Char)
  | lookup (name : List Char) (addrFamily : ℕ)
  deriving DecidableEq, Repr

/-- A `resolve` call. -/
structure ResolveRequest where
  name : List Char
  addrFamily : ℕ
  deriving DecidableEq, Repr

/-- Where the resolver thread stands in `ioThreadFunc`. -/
inductive ResolverThread where
  | starting
  | sleeping
  | woken
  | resolving (key : LookupKey)
  | resolved (key : LookupKey) (result : Option (List ResolvedAddress))
  /-- in `complete_l`, before and after `memDup` -/
  | completing (key : LookupKey) (addresses : List ResolvedAddress)
  | completed (key : LookupKey) (count : ℕ)
  /-- in `setIoErrorEvent_l`, before and after `memDup` -/
  | failing (key : LookupKey)
  | failed (key : LookupKey)
  deriving DecidableEq, Repr

/-- What a call does next. -/
inductive ResolverCall where
  | cancel
  | close
  | resolve (name : List Char) (addrFamily : ℕ) (hasCapability : Bool)
  /-- in `waitAndClose` -/
  | closing
  /-- past `cancel` in `resolve` -/
  | opening (name : List Char) (addrFamily : ℕ)
  /-- in `complete` for a numeric address: at the lock, before and after `memDup` -/
  | numeric (name : List Char) (address : ResolvedAddress)
  | numericCaptured (key : LookupKey) (name : List Char) (address : ResolvedAddress)
  | numericDup (key : LookupKey)
  /-- in `setIoErrorEvent`, before and after `memDup` -/
  | portError (name : List Char)
  | portErrorDup
  | host (name : List Char) (addrFamily : ℕ) (port : BitVec 16)
  | starting
  deriving DecidableEq, Repr

def ResolverCall.isStart : ResolverCall → Bool
  | .cancel | .close | .resolve .. => true
  | _ => false

structure HostNameResolver where
  isOpen : Bool
  isStarted : Bool
  isClosing : Bool
  resolvedEvent : Bool
  ioErrorEvent : Bool
  name : List Char
  addrFamily : ℕ
  port : BitVec 16
  addressTable : Option AddressTable
  pendingAddressTable : Option AddressTable
  ioError : Option ResolverError
  pendingIoError : Option ResolverError
  /-- the wake-ups that are pending: the event, or the bytes in the pipe -/
  wakeCount : ℕ
  thread : Option ResolverThread
  /-- the latest `resolve` call that has not been cancelled -/
  latest : Option ResolveRequest

structure ResolverState where
  resolver : HostNameResolver
  calls : ℕ → Option ResolverCall

inductive ResolverAction where
  | call (caller : ℕ) (call : ResolverCall)
  /-- the next step of a call -/
  | advance (caller : ℕ)
  /-- the next step of the thread, with the result of a lookup -/
  | thread (result : Option (List ResolvedAddress))
  deriving DecidableEq, Repr

namespace HostNameResolver

variable (system : ResolverSystem)

def initial : HostNameResolver where
  isOpen := false
  isStarted := false
  isClosing := false
  resolvedEvent := false
  ioErrorEvent := false
  name := []
  addrFamily := 0
  port := 0
  addressTable := none
  pendingAddressTable := none
  ioError := none
  pendingIoError := none
  wakeCount := 0
  thread := none
  latest := none

def key (s : HostNameResolver) : LookupKey := ⟨s.name,s.addrFamily,s.port⟩

def wakeIoThread (s : HostNameResolver) : HostNameResolver :=
  { s with wakeCount := if system.isWin then 1 else s.wakeCount + 1 }

/-- The locked section of `cancel`. -/
def cancelled (s : HostNameResolver) : HostNameResolver :=
  { s with name := [], resolvedEvent := false, ioErrorEvent := false, latest := none }

/-- `AsyncIoBase::open`. -/
def opened (s : HostNameResolver) : HostNameResolver :=
  { s with
    isOpen := true
    isStarted := false
    isClosing := false
    resolvedEvent := false
    ioErrorEvent := false
    ioError := none
    pendingIoError := none
    wakeCount := 0 }

/-- The last section of `complete_l`. -/
def publish (s : HostNameResolver) (count : ℕ) : HostNameResolver :=
  { s with
    addressTable := s.pendingAddressTable.map fun table =>
      { table with addresses := (table.addresses.take count).map fun address =>
          { address with
            family := if address.family = system.afInet6 then addressFamilyIp6 else address.family
            port := s.port } }
    pendingAddressTable := none
    resolvedEvent := true }

/-- The last section of `setIoErrorEvent_l`. -/
def publishError (s : HostNameResolver) : HostNameResolver :=
  { s with ioError := s.pendingIoError, pendingIoError := none, ioErrorEvent := true }

/-- What `resolve` goes on with, by the name. -/
def resolveTarget (name : List Char) (addrFamily : ℕ) : ResolverCall :=
  match system.target name with
  | .numeric address => .numeric name address
  | .invalidPort => .portError name
  | .host host port =>
      .host host addrFamily (swapByteOrder16 (BitVec.ofInt 16 (system.clamp port)))

/-- A step of a call: where the call stands then, and what has become of the resolver. -/
def advance (s : HostNameResolver) : ResolverCall → Option (Option ResolverCall × HostNameResolver)
  | .cancel => some (none,s.cancelled)
  | .close =>
      some (some .closing,
        wakeIoThread system { s.cancelled with isClosing := true, isStarted := false })
  | .closing => if s.thread = none then some (none,{ s with isOpen := false }) else none
  | .resolve name addrFamily hasCapability =>
      if hasCapability then
        some (some (.opening name addrFamily),{ s.cancelled with latest := some ⟨name,addrFamily⟩ })
      else some (none,s.cancelled)
  | .opening name addrFamily =>
      some (some (resolveTarget system name addrFamily),if s.isOpen then s else s.opened)
  | .numeric name address => some (some (.numericCaptured s.key name address),s)
  | .numericCaptured key name address =>
      some (some (.numericDup key),
        { s with pendingAddressTable := some ⟨.numeric name,[address]⟩ })
  | .numericDup key => some (none,if key ≠ s.key then s else s.publish system 1)
  | .portError name =>
      some (some .portErrorDup,{ s with pendingIoError := some (.invalidPort name) })
  | .portErrorDup => some (none,s.publishError)
  | .host name addrFamily port =>
      let s := { s with name, addrFamily, port }
      if s.isStarted then some (none,wakeIoThread system s) else some (some .starting,s)
  | .starting => some (none,{ s with isStarted := true, thread := some .starting })

/-- A step of the thread. -/
def ioThreadFunc (s : HostNameResolver) (result : Option (List ResolvedAddress)) :
    Option HostNameResolver :=
  match s.thread with
  | none => none
  | some .starting => some { wakeIoThread system s with thread := some .sleeping }
  | some .sleeping =>
      if s.wakeCount = 0 then none
      else some { s with
        wakeCount := if system.isWin then 0 else s.wakeCount - 256
        thread := some .woken }
  | some .woken =>
      if s.isClosing then some { s with thread := none }
      else if s.name = [] then some { s with thread := some .sleeping }
      else some { s with thread := some (.resolving s.key) }
  | some (.resolving key) => some { s with thread := some (.resolved key result) }
  | some (.resolved key result) =>
      if s.isClosing then some { s with thread := none }
      else if key ≠ s.key then some { s with thread := some .sleeping }
      else
        match result with
        | none => some { s with thread := some (.failing key) }
        | some addresses => some { s with thread := some (.completing s.key addresses) }
  | some (.completing key addresses) =>
      some { s with
        pendingAddressTable := some ⟨.lookup key.name key.addrFamily,addresses⟩
        thread := some (.completed key addresses.length) }
  | some (.completed key count) =>
      if key ≠ s.key then some { s with thread := some .sleeping }
      else some { s.publish system count with thread := some .sleeping }
  | some (.failing key) =>
      some { s with
        pendingIoError := some (.lookup key.name key.addrFamily)
        thread := some (.failed key) }
  | some (.failed _) => some { s.publishError with thread := some .sleeping }

end HostNameResolver

namespace ResolverState

variable (system : ResolverSystem)

def initial : ResolverState := ⟨.initial,fun _ => none⟩

def step (s : ResolverState) : ResolverAction → Option ResolverState
  | .call caller call =>
      if call.isStart = true ∧ s.calls caller = none then
        some { s with calls := Function.update s.calls caller (some call) }
      else none
  | .advance caller =>
      match s.calls caller with
      | none => none
      | some call =>
          (s.resolver.advance system call).map fun next =>
            ⟨next.2,Function.update s.calls caller next.1⟩
  | .thread result =>
      (s.resolver.ioThreadFunc system result).map fun resolver => { s with resolver }

end ResolverState

namespace ResolverSystem

variable (system : ResolverSystem)

def Answers (request : ResolveRequest) (table : AddressTable) : Prop :=
  match system.target request.name with
  | .numeric address => table.source = .numeric request.name ∧ ∃ found,
      table.addresses = [found] ∧ found.address = address.address ∧ found.port = address.port
  | .invalidPort => False
  | .host host port => table.source = .lookup host request.addrFamily ∧
      ∀ found ∈ table.addresses, 0 ≤ port ∧ port < 2 ^ 16 ∧
        found.port = swapByteOrder16 (BitVec.ofInt 16 port)

def Fails (request : ResolveRequest) (error : ResolverError) : Prop :=
  match system.target request.name with
  | .numeric _ => False
  | .invalidPort => error = .invalidPort request.name
  | .host host _ => error = .lookup host request.addrFamily

end ResolverSystem

namespace HostNameResolver

variable (system : ResolverSystem)

def Belongs (s : HostNameResolver) : Prop :=
  (s.resolvedEvent = true → ∃ request table, s.latest = some request ∧
    s.addressTable = some table ∧ system.Answers request table) ∧
  (s.ioErrorEvent = true → ∃ request error, s.latest = some request ∧
    s.ioError = some error ∧ system.Fails request error)

def NotLost (s : HostNameResolver) : Prop :=
  s.thread = some .sleeping → s.wakeCount = 0 → ∀ request host port, s.latest = some request →
    system.target request.name = .host host port →
      s.resolvedEvent = true ∨ s.ioErrorEvent = true

end HostNameResolver

namespace ResolverState

variable (system : ResolverSystem)

/-- In every state; while no call is on its way the latest request is not lost either. -/
def Proper (s : ResolverState) : Prop :=
  s.resolver.Belongs system ∧ ((∀ caller, s.calls caller = none) → s.resolver.NotLost system)

end ResolverState

def HostNameResolver.NameOk (system : ResolverSystem) (s : HostNameResolver) (name : List Char) :
    Prop :=
  match system.target name with
  | .numeric address => address.port = s.port
  | .invalidPort => True
  | .host host port => host ≠ [] ∧ 0 ≤ port ∧ port < 2 ^ 16

namespace ResolverState

variable (system : ResolverSystem)

/-- Calls do not overlap, and their names are fine; no call begins while the thread is about to set
an error; and neither of the two that copy a table does so before the other has taken its own. -/
def StepOk (s : ResolverState) : ResolverAction → Prop
  | .call _ call => (∀ caller, s.calls caller = none) ∧
      ∀ name addrFamily hasCapability, call = .resolve name addrFamily hasCapability →
        s.resolver.NameOk system name
  | .advance caller =>
      match s.calls caller with
      | some .cancel | some .close | some (.resolve ..) =>
          ∀ key, s.resolver.thread ≠ some (.failing key) ∧ s.resolver.thread ≠ some (.failed key)
      | some (.numericCaptured ..) => ∀ key count, s.resolver.thread ≠ some (.completed key count)
      | _ => True
  | .thread _ => ∀ key addresses, s.resolver.thread = some (.completing key addresses) →
      ∀ caller key, s.calls caller ≠ some (.numericDup key)

end ResolverState
end Jancy.Io
