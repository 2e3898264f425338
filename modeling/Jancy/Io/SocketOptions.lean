import Jancy.Lib.Run
import Mathlib.Algebra.Group.Nat.Defs

/-! The options of `SocketBase`: what is stored, and what the sockets of the operating system have. A
value of the system is a number, with 0 and 1 for flags. -/
namespace Jancy.Io

inductive SocketFamily where
  | undefined
  | ip4
  | ip6
  deriving DecidableEq, Repr

def SocketFamily.isIp6 : SocketFamily → Bool
  | .ip6 => true
  | _ => false

inductive SocketProtocol where
  | tcp
  | udp
  | raw
  | other
  deriving DecidableEq, Repr

/-- A `SocketAddress`, as far as an interface is told by it. -/
inductive InterfaceAddress where
  | empty
  | ip4 (address : ℕ)
  | ip6 (isUnspecified : Bool) (scopeId : ℕ)
  deriving DecidableEq, Repr

def InterfaceAddress.family : InterfaceAddress → SocketFamily
  | .empty => .undefined
  | .ip4 _ => .ip4
  | .ip6 _ _ => .ip6

/-- What the code looks at of a mask of `SocketOption`; `keepReadWriteBlockSize` is the one of
`AsyncIoDeviceOption`. -/
structure SocketOptions where
  rawHeader : Bool
  tcpKeepAlive : Bool
  tcpNagle : Bool
  tcpReset : Bool
  udpBroadcast : Bool
  reuseAddress : Bool
  reusePort : Bool
  disableMulticastLoopback : Bool
  keepReadWriteBlockSize : Bool
  deriving DecidableEq, Repr

/-- An option of a socket of the operating system; some are there for both families. -/
inductive SystemOption where
  | tcpNoDelay
  | keepAlive
  | keepIdle
  | keepInterval
  | linger
  | broadcast
  | multicastLoop (isIp6 : Bool)
  | multicastHops (isIp6 : Bool)
  | multicastIf (isIp6 : Bool)
  | headerIncluded (isIp6 : Bool)
  | reuseAddr
  | reusePort
  deriving DecidableEq, Repr

/-- The times between keep-alive packets are in milliseconds for Windows, else in seconds, and those
of the system are known for Windows only. -/
inductive System where
  | win
  | posix (hasReusePort : Bool) (keepIdle keepInterval : ℕ)
  deriving DecidableEq, Repr

namespace System

/-- `Def_TcpKeepAliveIdleTimeout`. -/
def keepIdle : System → ℕ
  | .win => 7200000
  | .posix _ keepIdle _ => keepIdle

/-- `Def_TcpKeepAliveRetryInterval`. -/
def keepInterval : System → ℕ
  | .win => 1000
  | .posix _ _ keepInterval => keepInterval

def hasReusePort : System → Bool
  | .win => false
  | .posix hasReusePort _ _ => hasReusePort

/-- A time that is stored, in the unit of the system. -/
def timeValue (system : System) (default time : ℕ) : ℕ :=
  if time = 0 then default
  else
    match system with
    | .win => time
    | .posix .. => max 1 (time / 1000)

end System

/-- The options that a new socket has. -/
def freshOptions (system : System) : SystemOption → ℕ
  | .keepIdle => system.keepIdle
  | .keepInterval => system.keepInterval
  | .multicastLoop _ | .multicastHops _ => 1
  | _ => 0

/-- A call of the operating system sets some options; without one the code itself gives up. -/
abbrev SystemCall := Option (List (SystemOption × ℕ))

/-- A call that sets no options. -/
def SystemCall.plain : SystemCall := some []

def SystemCall.set (option : SystemOption) (value : ℕ) : SystemCall := some [(option,value)]

def setAll (options : SystemOption → ℕ) : List (SystemOption × ℕ) → SystemOption → ℕ
  | [] => options
  | (option,value) :: rest => setAll (Function.update options option value) rest

/-- Calls one after another, up to the first that fails; they succeed for which no result is told. -/
def perform : List SystemCall → List Bool → (SystemOption → ℕ) → Bool × (SystemOption → ℕ)
  | [],_,options => (true,options)
  | none :: _,_,options => (false,options)
  | some values :: calls,[],options => perform calls [] (setAll options values)
  | some values :: calls,true :: results,options => perform calls results (setAll options values)
  | some _ :: _,false :: _,options => (false,options)

structure SocketBase where
  isOpen : Bool
  protocol : SocketProtocol
  family : SocketFamily
  /-- the socket has been bound to an address as it was opened -/
  isBound : Bool
  /-- `IoThreadFlag_Datagram` -/
  isDatagram : Bool
  options : SocketOptions
  tcpKeepAliveIdleTimeout : ℕ
  tcpKeepAliveRetryInterval : ℕ
  multicastHopLimit : ℕ
  multicastInterfaceAddress : InterfaceAddress
  /-- the options of the socket of the operating system -/
  system : SystemOption → ℕ

namespace SocketBase

/-- `Def_Options` and no times. -/
def initial (system : System) : SocketBase where
  isOpen := false
  protocol := .other
  family := .undefined
  isBound := false
  isDatagram := false
  options := ⟨false,false,false,false,false,false,false,false,false⟩
  tcpKeepAliveIdleTimeout := 0
  tcpKeepAliveRetryInterval := 0
  multicastHopLimit := 0
  multicastInterfaceAddress := .empty
  system := freshOptions system

def setTcpKeepAliveIdleTimeoutImpl (system : System) (s : SocketBase) (timeout : ℕ) : SystemCall :=
  match system with
  | .win => some [(.keepAlive,1),
      (.keepIdle,if timeout = 0 then system.keepIdle else timeout),
      (.keepInterval,if s.tcpKeepAliveRetryInterval = 0 then system.keepInterval
        else s.tcpKeepAliveRetryInterval)]
  | .posix .. => .set .keepIdle (max 1 (timeout / 1000))

def setTcpKeepAliveRetryIntervalImpl (system : System) (s : SocketBase) (interval : ℕ) :
    SystemCall :=
  match system with
  | .win => some [(.keepAlive,1),
      (.keepIdle,if s.tcpKeepAliveIdleTimeout = 0 then system.keepIdle
        else s.tcpKeepAliveIdleTimeout),
      (.keepInterval,if interval = 0 then system.keepInterval else interval)]
  | .posix .. => .set .keepInterval (max 1 (interval / 1000))

def setMulticastLoopbackImpl (family : SocketFamily) (isEnabled : Bool) : SystemCall :=
  .set (.multicastLoop family.isIp6) isEnabled.toNat

def setMulticastHopLimitImpl (family : SocketFamily) (limit : ℕ) : SystemCall :=
  .set (.multicastHops family.isIp6) (if limit = 0 then 1 else limit)

def interfaceValue : InterfaceAddress → ℕ
  | .empty => 0
  | .ip4 address => address
  | .ip6 _ scopeId => scopeId

def setMulticastInterfaceAddressImpl (family : SocketFamily) (address : InterfaceAddress) :
    SystemCall :=
  if address.family ≠ .undefined ∧ address.family ≠ family then none
  else if family.isIp6 = false then .set (.multicastIf false) (interfaceValue address)
  else
    match address with
    | .ip6 false 0 => none
    | _ => .set (.multicastIf true) (interfaceValue address)

/-- A time is not applied while it is 0. -/
def unlessZero (value : ℕ) (call : SystemCall) : List SystemCall :=
  if value = 0 then [] else [call]

/-- What is left to do where keep-alive packets are turned on. -/
def keepAliveCalls (system : System) (s : SocketBase) : List SystemCall :=
  unlessZero s.tcpKeepAliveIdleTimeout
    (setTcpKeepAliveIdleTimeoutImpl system s s.tcpKeepAliveIdleTimeout) ++
  unlessZero s.tcpKeepAliveRetryInterval
    (setTcpKeepAliveRetryIntervalImpl system s s.tcpKeepAliveRetryInterval)

/-- Only what differs is set. -/
def differing (isDifferent : Bool) (calls : List SystemCall) : List SystemCall :=
  if isDifferent then calls else []

def setOptionsCalls (system : System) (s : SocketBase) (options : SocketOptions) :
    List SystemCall :=
  differing (options.tcpNagle != s.options.tcpNagle)
    [.set .tcpNoDelay (!options.tcpNagle).toNat] ++
  differing (options.tcpKeepAlive != s.options.tcpKeepAlive)
    (.set .keepAlive options.tcpKeepAlive.toNat ::
      if options.tcpKeepAlive then keepAliveCalls system s else []) ++
  differing (options.tcpReset != s.options.tcpReset) [.set .linger options.tcpReset.toNat] ++
  differing (options.udpBroadcast != s.options.udpBroadcast)
    [.set .broadcast options.udpBroadcast.toNat] ++
  differing (options.disableMulticastLoopback != s.options.disableMulticastLoopback)
    [setMulticastLoopbackImpl s.family (!options.disableMulticastLoopback)]

def setOptions (system : System) (s : SocketBase) (options : SocketOptions) (results : List Bool) :
    Bool × SocketBase :=
  if s.isOpen = false then (true,{ s with options })
  else
    match perform (setOptionsCalls system s options) results s.system with
    | (false,values) => (false,{ s with system := values })
    | (true,values) =>
        let options := if s.isDatagram then { options with keepReadWriteBlockSize := true }
          else options
        (true,{ s with options, system := values })

/-- A setter with one call for a socket that is open, where it applies at all. -/
def setOne (s : SocketBase) (isApplied : Bool) (call : SystemCall) (results : List Bool)
    (store : SocketBase → SocketBase) : Bool × SocketBase :=
  if isApplied then
    match perform [call] results s.system with
    | (false,values) => (false,{ s with system := values })
    | (true,values) => (true,store { s with system := values })
  else (true,store s)

def setTcpKeepAliveIdleTimeout (system : System) (s : SocketBase) (timeout : ℕ)
    (results : List Bool) : Bool × SocketBase :=
  s.setOne (s.isOpen && s.options.tcpKeepAlive) (setTcpKeepAliveIdleTimeoutImpl system s timeout)
    results ({ · with tcpKeepAliveIdleTimeout := timeout })

def setTcpKeepAliveRetryInterval (system : System) (s : SocketBase) (interval : ℕ)
    (results : List Bool) : Bool × SocketBase :=
  s.setOne (s.isOpen && s.options.tcpKeepAlive) (setTcpKeepAliveRetryIntervalImpl system s interval)
    results ({ · with tcpKeepAliveRetryInterval := interval })

def setMulticastHopLimit (s : SocketBase) (limit : ℕ) (results : List Bool) : Bool × SocketBase :=
  s.setOne s.isOpen (setMulticastHopLimitImpl s.family limit) results
    ({ · with multicastHopLimit := limit })

def setMulticastInterfaceAddress (s : SocketBase) (address : InterfaceAddress)
    (results : List Bool) : Bool × SocketBase :=
  s.setOne s.isOpen (setMulticastInterfaceAddressImpl s.family address) results
    ({ · with multicastInterfaceAddress := address })

/-- `result` is the one of the call that reads the option. -/
def getTcpKeepAliveIdleTimeout (system : System) (s : SocketBase) (result : Bool) : ℕ :=
  if s.isOpen = false ∨ s.options.tcpKeepAlive = false then s.tcpKeepAliveIdleTimeout
  else
    match system with
    | .win => if s.tcpKeepAliveIdleTimeout = 0 then system.keepIdle else s.tcpKeepAliveIdleTimeout
    | .posix .. => if result then s.system .keepIdle * 1000 % 2 ^ 32 else 2 ^ 32 - 1

def getTcpKeepAliveRetryInterval (system : System) (s : SocketBase) (result : Bool) : ℕ :=
  if s.isOpen = false ∨ s.options.tcpKeepAlive = false then s.tcpKeepAliveRetryInterval
  else
    match system with
    | .win =>
        if s.tcpKeepAliveRetryInterval = 0 then system.keepInterval
        else s.tcpKeepAliveRetryInterval
    | .posix .. => if result then s.system .keepInterval * 1000 % 2 ^ 32 else 2 ^ 32 - 1

def openCalls (system : System) (s : SocketBase) (family : SocketFamily) :
    SocketProtocol → List SystemCall
  | .tcp =>
      [.set .tcpNoDelay (!s.options.tcpNagle).toNat,.set .keepAlive s.options.tcpKeepAlive.toNat,
        .set .linger s.options.tcpReset.toNat] ++
      if s.options.tcpKeepAlive then keepAliveCalls system s else []
  | .udp =>
      [.set .broadcast s.options.udpBroadcast.toNat] ++
      differing s.options.disableMulticastLoopback [setMulticastLoopbackImpl family false] ++
      unlessZero s.multicastHopLimit (setMulticastHopLimitImpl family s.multicastHopLimit) ++
      differing (decide (s.multicastInterfaceAddress.family ≠ .undefined))
        [setMulticastInterfaceAddressImpl family s.multicastInterfaceAddress]
  | .raw => [.set (.headerIncluded family.isIp6) s.options.rawHeader.toNat]
  | .other => []

/-- `checkAccess` and `openSocket`. -/
def openSocketCalls (system : System) (s : SocketBase) (family : SocketFamily)
    (protocol : SocketProtocol) (hasAddress : Bool) : List SystemCall :=
  -- the capabilities, the socket, and its mode
  [.plain,.plain,.plain] ++ openCalls system s family protocol ++
  differing hasAddress
    (differing s.options.reuseAddress [.set .reuseAddr 1] ++
      differing (system.hasReusePort && s.options.reusePort) [.set .reusePort 1] ++ [.plain])

/-- The socket of the operating system is closed first, and a new one is made. -/
def «open» (system : System) (s : SocketBase) (family : SocketFamily) (protocol : SocketProtocol)
    (hasAddress : Bool) (results : List Bool) : Bool × SocketBase :=
  match perform (openSocketCalls system s family protocol hasAddress) results
    (freshOptions system) with
  | (false,values) => (false,{ s with isOpen := false, system := values })
  | (true,values) =>
      (true,{ s with
        isOpen := true
        protocol
        family
        isBound := hasAddress
        isDatagram := decide (protocol ≠ .tcp)
        options := if protocol = .tcp then s.options
          else { s.options with keepReadWriteBlockSize := true }
        system := values })

/-- A connection that was accepted, with the options `given` by the operating system. -/
def accept (system : System) (s : SocketBase) (given : SystemOption → ℕ)
    (readsIdle readsInterval : Bool) : SocketBase :=
  { initial system with
    isOpen := true
    protocol := .tcp
    options := s.options
    tcpKeepAliveIdleTimeout := s.getTcpKeepAliveIdleTimeout system readsIdle
    tcpKeepAliveRetryInterval := s.getTcpKeepAliveRetryInterval system readsInterval
    system := given }

/-- What is stored says about an option of the socket; a time of 0 means that of the system. -/
def prescribed (system : System) (s : SocketBase) : SystemOption → Option ℕ
  | .tcpNoDelay => if s.protocol = .tcp then some (!s.options.tcpNagle).toNat else none
  | .keepAlive => if s.protocol = .tcp then some s.options.tcpKeepAlive.toNat else none
  | .linger => if s.protocol = .tcp then some s.options.tcpReset.toNat else none
  | .keepIdle =>
      if s.protocol = .tcp ∧ s.options.tcpKeepAlive = true then
        some (system.timeValue system.keepIdle s.tcpKeepAliveIdleTimeout)
      else none
  | .keepInterval =>
      if s.protocol = .tcp ∧ s.options.tcpKeepAlive = true then
        some (system.timeValue system.keepInterval s.tcpKeepAliveRetryInterval)
      else none
  | .broadcast => if s.protocol = .udp then some s.options.udpBroadcast.toNat else none
  | .multicastLoop isIp6 =>
      if s.protocol = .udp ∧ s.family.isIp6 = isIp6 then
        some (!s.options.disableMulticastLoopback).toNat
      else none
  | .multicastHops isIp6 =>
      if s.protocol = .udp ∧ s.family.isIp6 = isIp6 then
        some (if s.multicastHopLimit = 0 then 1 else s.multicastHopLimit)
      else none
  | .multicastIf isIp6 =>
      if s.protocol = .udp ∧ s.family.isIp6 = isIp6 then
        some (interfaceValue s.multicastInterfaceAddress)
      else none
  | .headerIncluded isIp6 =>
      if s.protocol = .raw ∧ s.family.isIp6 = isIp6 then some s.options.rawHeader.toNat else none
  | .reuseAddr => if s.isBound then some s.options.reuseAddress.toNat else none
  | .reusePort =>
      if s.isBound = true ∧ system.hasReusePort = true then some s.options.reusePort.toNat else none

def Coherent (system : System) (s : SocketBase) : Prop :=
  s.isOpen = true → ∀ option value, s.prescribed system option = some value →
    s.system option = value

end SocketBase

inductive SocketSetter where
  | options (options : SocketOptions)
  | tcpKeepAliveIdleTimeout (timeout : ℕ)
  | tcpKeepAliveRetryInterval (interval : ℕ)
  | multicastHopLimit (limit : ℕ)
  | multicastInterfaceAddress (address : InterfaceAddress)
  deriving DecidableEq, Repr

/-- `results` are those of the calls of the operating system. -/
inductive SocketOptionAction where
  | create
  | open (i : ℕ) (family : SocketFamily) (protocol : SocketProtocol) (hasAddress : Bool)
      (results : List Bool)
  | accept (i : ℕ) (given : SystemOption → ℕ) (readsIdle readsInterval : Bool)
  | set (i : ℕ) (setter : SocketSetter) (results : List Bool)
  | close (i : ℕ)

namespace SocketBase

def runSetter (system : System) (s : SocketBase) (results : List Bool) :
    SocketSetter → Bool × SocketBase
  | .options options => s.setOptions system options results
  | .tcpKeepAliveIdleTimeout timeout => s.setTcpKeepAliveIdleTimeout system timeout results
  | .tcpKeepAliveRetryInterval interval => s.setTcpKeepAliveRetryInterval system interval results
  | .multicastHopLimit limit => s.setMulticastHopLimit limit results
  | .multicastInterfaceAddress address => s.setMulticastInterfaceAddress address results

def step (system : System) (sockets : List SocketBase) :
    SocketOptionAction → Option (List SocketBase)
  | .create => some (sockets ++ [initial system])
  | .open i family protocol hasAddress results =>
      sockets[i]?.map fun s =>
        sockets.set i (s.open system family protocol hasAddress results).2
  | .accept i given readsIdle readsInterval =>
      sockets[i]?.map fun s => sockets ++ [s.accept system given readsIdle readsInterval]
  | .set i setter results =>
      sockets[i]?.map fun s => sockets.set i (s.runSetter system results setter).2
  | .close i => sockets[i]?.map fun s => sockets.set i { s with isOpen := false }

def AllCoherent (system : System) (sockets : List SocketBase) : Prop :=
  ∀ s ∈ sockets, s.Coherent system

/-- A setter that fails leaves everything as it was. -/
def Keeps (system : System) (sockets : List SocketBase) : SocketOptionAction → Prop
  | .set i setter results => ∀ s, sockets[i]? = some s →
      (s.runSetter system results setter).1 = false → (s.runSetter system results setter).2 = s
  | _ => True

/-- Keep-alive packets that are turned on with a time of 0 find the one of the system. -/
def KeepAliveOk (system : System) (s : SocketBase) : Prop :=
  (s.tcpKeepAliveIdleTimeout = 0 → s.system .keepIdle = system.keepIdle ∨
    (system = .win ∧ s.tcpKeepAliveRetryInterval ≠ 0)) ∧
  (s.tcpKeepAliveRetryInterval = 0 → s.system .keepInterval = system.keepInterval ∨
    (system = .win ∧ s.tcpKeepAliveIdleTimeout ≠ 0))

/-- The operating system has given a connection what is stored for it: the options of the socket
that listens, and the times that are read there. -/
def GivenOk (system : System) (s : SocketBase) (given : SystemOption → ℕ)
    (readsIdle readsInterval : Bool) : Prop :=
  given .tcpNoDelay = (!s.options.tcpNagle).toNat ∧
  given .keepAlive = s.options.tcpKeepAlive.toNat ∧
  given .linger = s.options.tcpReset.toNat ∧
  (s.options.tcpKeepAlive = true →
    given .keepIdle =
      system.timeValue system.keepIdle (s.getTcpKeepAliveIdleTimeout system readsIdle) ∧
    given .keepInterval =
      system.timeValue system.keepInterval (s.getTcpKeepAliveRetryInterval system readsInterval))

/-- The changes that a socket that is open follows. -/
def Follows (system : System) (s : SocketBase) (options : SocketOptions) : Prop :=
  (s.protocol = .raw → options.rawHeader = s.options.rawHeader) ∧
  (s.isBound = true → options.reuseAddress = s.options.reuseAddress ∧
    (system.hasReusePort = true → options.reusePort = s.options.reusePort)) ∧
  (s.protocol = .tcp → options.tcpKeepAlive = true → s.options.tcpKeepAlive = false →
    s.KeepAliveOk system)

/-- Either the first call of `setOptions` fails, or none of them does and the changes are ones that
the socket follows; a time of 0 is not set for a socket that sends keep-alive packets; and a
connection is given the options that are stored for it. -/
def StepOk (system : System) (sockets : List SocketBase) : SocketOptionAction → Prop
  | .set i (.options options) results => ∀ s, sockets[i]? = some s → s.isOpen = true →
      (setOptionsCalls system s options ≠ [] ∧ results.head? = some false) ∨
        (false ∉ results.take (setOptionsCalls system s options).length ∧
          s.Follows system options)
  | .set i (.tcpKeepAliveIdleTimeout timeout) results => ∀ s, sockets[i]? = some s →
      s.isOpen = true → s.protocol = .tcp → s.options.tcpKeepAlive = true → system ≠ .win →
        results.head? = some false ∨ timeout ≠ 0 ∨ system.keepIdle = 1
  | .set i (.tcpKeepAliveRetryInterval interval) results => ∀ s, sockets[i]? = some s →
      s.isOpen = true → s.protocol = .tcp → s.options.tcpKeepAlive = true → system ≠ .win →
        results.head? = some false ∨ interval ≠ 0 ∨ system.keepInterval = 1
  | .accept i given readsIdle readsInterval => ∀ s, sockets[i]? = some s →
      s.GivenOk system given readsIdle readsInterval
  | _ => True

end SocketBase
end Jancy.Io
