import Jancy.Io.SocketOptions

/-! The calls of the operating system for `setOptions` and `open`, by their effect on each option. -/
namespace Jancy.Io

open SocketBase

variable {system : System} {options values : SystemOption → ℕ} {calls : List SystemCall}
  {results : List Bool}

/-- All of the calls, if none of them fails. -/
def applyAll : List SystemCall → (SystemOption → ℕ) → SystemOption → ℕ
  | [],options => options
  | none :: calls,options => applyAll calls options
  | some values :: calls,options => applyAll calls (setAll options values)

theorem applyAll_append (calls calls' : List SystemCall) (options : SystemOption → ℕ) :
    applyAll (calls ++ calls') options = applyAll calls' (applyAll calls options) := by
  induction calls generalizing options with
  | nil => rfl
  | cons call calls ih =>
    cases call with
    | none => exact ih options
    | some values => exact ih _

theorem applyAll_differing (isDifferent : Bool) (calls : List SystemCall)
    (options : SystemOption → ℕ) : applyAll (differing isDifferent calls) options =
      if isDifferent then applyAll calls options else options := by
  cases isDifferent with
  | false => rfl
  | true => rfl

theorem applyAll_unlessZero (value : ℕ) (call : SystemCall) (options : SystemOption → ℕ) :
    applyAll (unlessZero value call) options =
      if value = 0 then options else applyAll [call] options := by
  unfold unlessZero
  split_ifs
  · rfl
  · rfl

theorem applyAll_set (option : SystemOption) (value : ℕ) (options : SystemOption → ℕ) :
    applyAll [.set option value] options = Function.update options option value := rfl

theorem applyAll_plain (options : SystemOption → ℕ) : applyAll [.plain] options = options := rfl

theorem perform_true (h : perform calls results options = (true,values)) :
    values = applyAll calls options := by
  induction calls generalizing results options with
  | nil => exact (Prod.mk.inj h).2.symm
  | cons call calls ih =>
    cases call with
    | none => cases h
    | some set =>
      cases results with
      | nil => exact ih h
      | cons result results =>
        cases result with
        | true => exact ih h
        | false => cases h

theorem perform_first (hcalls : calls ≠ []) (h : results.head? = some false) :
    perform calls results options = (false,options) := by
  cases calls with
  | nil => exact absurd rfl hcalls
  | cons call calls =>
    cases results with
    | nil => cases h
    | cons result results =>
      cases h
      cases call with
      | none => rfl
      | some set => rfl

theorem perform_all (options : SystemOption → ℕ) (hcalls : ∀ call ∈ calls, call ≠ none)
    (h : false ∉ results.take calls.length) : (perform calls results options).1 = true := by
  induction calls generalizing results options with
  | nil => rfl
  | cons call calls ih =>
    cases call with
    | none => exact absurd rfl (hcalls none List.mem_cons_self)
    | some set =>
      have hrest : ∀ call ∈ calls, call ≠ none :=
        fun call hcall => hcalls call (List.mem_cons_of_mem _ hcall)
      cases results with
      | nil => exact ih _ hrest (by simp)
      | cons result results =>
        rw [List.length_cons,List.take_succ_cons,List.mem_cons,not_or] at h
        cases result with
        | true => exact ih _ hrest h.2
        | false => exact absurd rfl h.1

theorem perform_one {call : SystemCall} (h : perform [call] results options = (false,values)) :
    values = options := by
  cases call with
  | none => exact (Prod.mk.inj h).2.symm
  | some set =>
    cases results with
    | nil => cases h
    | cons result results =>
      cases result with
      | true => cases h
      | false => exact (Prod.mk.inj h).2.symm

namespace SocketBase

variable {s : SocketBase}

theorem keepAliveCalls_spec (system : System) (s : SocketBase) (options : SystemOption → ℕ) :
    (∀ option, option ≠ .keepAlive → option ≠ .keepIdle → option ≠ .keepInterval →
      applyAll (keepAliveCalls system s) options option = options option) ∧
    (options .keepAlive = 1 → applyAll (keepAliveCalls system s) options .keepAlive = 1) ∧
    (s.tcpKeepAliveIdleTimeout ≠ 0 ∨ options .keepIdle = system.keepIdle ∨
        (system = .win ∧ s.tcpKeepAliveRetryInterval ≠ 0) →
      applyAll (keepAliveCalls system s) options .keepIdle =
        system.timeValue system.keepIdle s.tcpKeepAliveIdleTimeout) ∧
    (s.tcpKeepAliveRetryInterval ≠ 0 ∨ options .keepInterval = system.keepInterval ∨
        (system = .win ∧ s.tcpKeepAliveIdleTimeout ≠ 0) →
      applyAll (keepAliveCalls system s) options .keepInterval =
        system.timeValue system.keepInterval s.tcpKeepAliveRetryInterval) := by
  rw [keepAliveCalls,applyAll_append,applyAll_unlessZero,applyAll_unlessZero]
  cases system with
  | win =>
    by_cases hidle : s.tcpKeepAliveIdleTimeout = 0 <;>
      by_cases hinterval : s.tcpKeepAliveRetryInterval = 0 <;>
      simp +contextual [hidle,hinterval,applyAll,setTcpKeepAliveIdleTimeoutImpl,
        setTcpKeepAliveRetryIntervalImpl,setAll,System.timeValue]
  | posix hasReusePort keepIdle keepInterval =>
    by_cases hidle : s.tcpKeepAliveIdleTimeout = 0 <;>
      by_cases hinterval : s.tcpKeepAliveRetryInterval = 0 <;>
      simp +contextual [hidle,hinterval,applyAll_set,setTcpKeepAliveIdleTimeoutImpl,
        setTcpKeepAliveRetryIntervalImpl,System.timeValue]

theorem differing_value {a b : Bool} {x : ℕ} (f : Bool → ℕ) (h : x = f b) :
    (if (a != b) = true then f a else x) = f a := by
  cases a <;> cases b <;> first | rfl | exact h

theorem applyAll_differing_set (isDifferent : Bool) (option option' : SystemOption) (value : ℕ)
    (options : SystemOption → ℕ) :
    applyAll (differing isDifferent [.set option value]) options option' =
      if option' = option then if isDifferent then value else options option
      else options option' := by
  rw [applyAll_differing,applyAll_set]
  cases isDifferent with
  | false =>
    rw [if_neg Bool.false_ne_true,if_neg Bool.false_ne_true]
    split_ifs with heq
    · rw [heq]
    · rfl
  | true => exact Function.update_apply _ _ _ _

/-- The part of `setOptions` for keep-alive packets. -/
def keepAlivePart (system : System) (s : SocketBase) (isOn : Bool) : List SystemCall :=
  differing (isOn != s.options.tcpKeepAlive)
    (.set .keepAlive isOn.toNat :: if isOn then keepAliveCalls system s else [])

theorem keepAlivePart_other (system : System) (s : SocketBase) (isOn : Bool)
    (options : SystemOption → ℕ) {option : SystemOption} (halive : option ≠ .keepAlive)
    (hidle : option ≠ .keepIdle) (hinterval : option ≠ .keepInterval) :
    applyAll (keepAlivePart system s isOn) options option = options option := by
  rw [keepAlivePart,applyAll_differing]
  split_ifs with hdiffers hon
  · exact ((keepAliveCalls_spec system s _).1 option halive hidle hinterval).trans
      (Function.update_of_ne halive _ _)
  · exact Function.update_of_ne halive _ _
  · rfl

theorem keepAlivePart_on (system : System) (s : SocketBase) (isOn : Bool)
    (options : SystemOption → ℕ) (h : options .keepAlive = s.options.tcpKeepAlive.toNat) :
    applyAll (keepAlivePart system s isOn) options .keepAlive = isOn.toNat := by
  rw [keepAlivePart,applyAll_differing]
  split_ifs with hdiffers hon
  · rw [hon]
    exact (keepAliveCalls_spec system s _).2.1
      (Function.update_self SystemOption.keepAlive 1 options)
  · exact Function.update_self SystemOption.keepAlive isOn.toNat options
  · rw [h,not_not.mp (fun hne => hdiffers (bne_iff_ne.mpr hne))]

theorem keepAlivePart_times (system : System) (s : SocketBase) (options : SystemOption → ℕ)
    (hbefore : s.options.tcpKeepAlive = true →
      options .keepIdle = system.timeValue system.keepIdle s.tcpKeepAliveIdleTimeout ∧
      options .keepInterval = system.timeValue system.keepInterval s.tcpKeepAliveRetryInterval)
    (hok : s.options.tcpKeepAlive = false → { s with system := options }.KeepAliveOk system) :
    applyAll (keepAlivePart system s true) options .keepIdle =
        system.timeValue system.keepIdle s.tcpKeepAliveIdleTimeout ∧
      applyAll (keepAlivePart system s true) options .keepInterval =
        system.timeValue system.keepInterval s.tcpKeepAliveRetryInterval := by
  rw [keepAlivePart,applyAll_differing]
  cases hold : s.options.tcpKeepAlive with
  | true => exact hbefore hold
  | false =>
    obtain ⟨hidle,hinterval⟩ := hok hold
    obtain ⟨-,-,hspecIdle,hspecInterval⟩ := keepAliveCalls_spec system s
      (Function.update options .keepAlive 1)
    exact ⟨hspecIdle ((eq_or_ne _ 0).symm.imp_right hidle),
      hspecInterval ((eq_or_ne _ 0).symm.imp_right hinterval)⟩

theorem setOptionsCalls_eq (system : System) (s : SocketBase) (options : SocketOptions) :
    setOptionsCalls system s options =
      differing (options.tcpNagle != s.options.tcpNagle)
        [.set .tcpNoDelay (!options.tcpNagle).toNat] ++
      keepAlivePart system s options.tcpKeepAlive ++
      differing (options.tcpReset != s.options.tcpReset) [.set .linger options.tcpReset.toNat] ++
      differing (options.udpBroadcast != s.options.udpBroadcast)
        [.set .broadcast options.udpBroadcast.toNat] ++
      differing (options.disableMulticastLoopback != s.options.disableMulticastLoopback)
        [.set (.multicastLoop s.family.isIp6) (!options.disableMulticastLoopback).toNat] := rfl

/-- The calls of `setOptions` set what is stored. -/
theorem Coherent.setOptions (h : s.Coherent system) (hopen : s.isOpen = true)
    {options : SocketOptions} (hfollows : s.Follows system options) {isKept : Bool} :
    ({ s with
      options := { options with keepReadWriteBlockSize := isKept }
      system := applyAll (setOptionsCalls system s options) s.system } :
        SocketBase).Coherent system := by
  obtain ⟨hraw,hbound,hkeepAlive⟩ := hfollows
  have hbefore := h hopen
  have htimes : s.protocol = .tcp → options.tcpKeepAlive = true →
      applyAll (setOptionsCalls system s options) s.system .keepIdle =
          system.timeValue system.keepIdle s.tcpKeepAliveIdleTimeout ∧
        applyAll (setOptionsCalls system s options) s.system .keepInterval =
          system.timeValue system.keepInterval s.tcpKeepAliveRetryInterval := by
    intro htcp hon
    have hpart := keepAlivePart_times system s (applyAll
      (differing (options.tcpNagle != s.options.tcpNagle)
        [.set .tcpNoDelay (!options.tcpNagle).toNat]) s.system) ?_ fun hold => ?_
    · simp only [setOptionsCalls_eq,applyAll_append,applyAll_differing_set,reduceCtorEq,if_false,
        hon]
      exact hpart
    · intro hold
      simp only [applyAll_differing_set,reduceCtorEq,if_false]
      exact ⟨hbefore .keepIdle _ (if_pos ⟨htcp,hold⟩),
        hbefore .keepInterval _ (if_pos ⟨htcp,hold⟩)⟩
    · have hok := hkeepAlive htcp hon hold
      simp only [KeepAliveOk,applyAll_differing_set,reduceCtorEq,if_false] at hok ⊢
      exact hok
  have hnone : ∀ option, option ≠ .tcpNoDelay → option ≠ .keepAlive → option ≠ .keepIdle →
      option ≠ .keepInterval → option ≠ .linger → option ≠ .broadcast →
      option ≠ .multicastLoop s.family.isIp6 →
        applyAll (setOptionsCalls system s options) s.system option = s.system option := by
    intro option h₁ h₂ h₃ h₄ h₅ h₆ h₇
    simp only [setOptionsCalls_eq,applyAll_append,applyAll_differing_set,keepAlivePart_other,ne_eq,
      h₁,h₂,h₃,h₄,h₅,h₆,h₇,not_false_eq_true,if_false]
  intro _ option value hvalue
  dsimp only
  cases option with
  | tcpNoDelay =>
    simp only [prescribed] at hvalue
    split_ifs at hvalue with htcp
    cases hvalue
    simp only [setOptionsCalls_eq,applyAll_append,applyAll_differing_set,keepAlivePart_other,ne_eq,
      reduceCtorEq,not_false_eq_true,if_false,if_true]
    exact differing_value (fun b => (!b).toNat) (hbefore .tcpNoDelay _ (if_pos htcp))
  | keepAlive =>
    simp only [prescribed] at hvalue
    split_ifs at hvalue with htcp
    cases hvalue
    simp only [setOptionsCalls_eq,applyAll_append,applyAll_differing_set,reduceCtorEq,if_false]
    refine keepAlivePart_on _ _ _ _ ?_
    simp only [applyAll_differing_set,reduceCtorEq,if_false]
    exact hbefore .keepAlive _ (if_pos htcp)
  | keepIdle =>
    simp only [prescribed] at hvalue
    split_ifs at hvalue with htcp
    cases hvalue
    exact (htimes htcp.1 htcp.2).1
  | keepInterval =>
    simp only [prescribed] at hvalue
    split_ifs at hvalue with htcp
    cases hvalue
    exact (htimes htcp.1 htcp.2).2
  | linger =>
    simp only [prescribed] at hvalue
    split_ifs at hvalue with htcp
    cases hvalue
    simp only [setOptionsCalls_eq,applyAll_append,applyAll_differing_set,keepAlivePart_other,ne_eq,
      reduceCtorEq,not_false_eq_true,if_false,if_true]
    exact differing_value Bool.toNat (hbefore .linger _ (if_pos htcp))
  | broadcast =>
    simp only [prescribed] at hvalue
    split_ifs at hvalue with hudp
    cases hvalue
    simp only [setOptionsCalls_eq,applyAll_append,applyAll_differing_set,keepAlivePart_other,ne_eq,
      reduceCtorEq,not_false_eq_true,if_false,if_true]
    exact differing_value Bool.toNat (hbefore .broadcast _ (if_pos hudp))
  | multicastLoop isIp6 =>
    simp only [prescribed] at hvalue
    split_ifs at hvalue with hudp
    cases hvalue
    obtain ⟨hprotocol,rfl⟩ := hudp
    simp only [setOptionsCalls_eq,applyAll_append,applyAll_differing_set,keepAlivePart_other,ne_eq,
      reduceCtorEq,not_false_eq_true,if_false,if_true]
    exact differing_value (fun b => (!b).toNat)
      (hbefore (.multicastLoop _) _ (if_pos ⟨hprotocol,rfl⟩))
  | multicastHops isIp6 =>
    rw [hnone (.multicastHops isIp6) nofun nofun nofun nofun nofun nofun nofun]
    exact hbefore _ _ hvalue
  | multicastIf isIp6 =>
    rw [hnone (.multicastIf isIp6) nofun nofun nofun nofun nofun nofun nofun]
    exact hbefore _ _ hvalue
  | headerIncluded isIp6 =>
    simp only [prescribed] at hvalue
    split_ifs at hvalue with hprotocol
    cases hvalue
    rw [hnone (.headerIncluded isIp6) nofun nofun nofun nofun nofun nofun nofun,hraw hprotocol.1]
    exact hbefore (.headerIncluded isIp6) _ (if_pos hprotocol)
  | reuseAddr =>
    simp only [prescribed] at hvalue
    split_ifs at hvalue with hisBound
    cases hvalue
    rw [hnone SystemOption.reuseAddr nofun nofun nofun nofun nofun nofun nofun,(hbound hisBound).1]
    exact hbefore .reuseAddr _ (if_pos hisBound)
  | reusePort =>
    simp only [prescribed] at hvalue
    split_ifs at hvalue with hisBound
    cases hvalue
    rw [hnone SystemOption.reusePort nofun nofun nofun nofun nofun nofun nofun,(hbound hisBound.1).2 hisBound.2]
    exact hbefore .reusePort _ (if_pos hisBound)

/-- The part of `openSocket` for the address. -/
def bindPart (system : System) (s : SocketBase) (hasAddress : Bool) : List SystemCall :=
  differing hasAddress
    (differing s.options.reuseAddress [.set .reuseAddr 1] ++
      differing (system.hasReusePort && s.options.reusePort) [.set .reusePort 1] ++ [.plain])

theorem bindPart_spec (system : System) (s : SocketBase) (hasAddress : Bool)
    (options : SystemOption → ℕ) :
    (∀ option, option ≠ .reuseAddr → option ≠ .reusePort →
      applyAll (bindPart system s hasAddress) options option = options option) ∧
    (hasAddress = true → options .reuseAddr = 0 → options .reusePort = 0 →
      applyAll (bindPart system s hasAddress) options .reuseAddr = s.options.reuseAddress.toNat ∧
      (system.hasReusePort = true →
        applyAll (bindPart system s hasAddress) options .reusePort =
          s.options.reusePort.toNat)) := by
  cases hasAddress with
  | false => exact ⟨fun _ _ _ => rfl,nofun⟩
  | true =>
    have heq : applyAll (bindPart system s true) options =
        applyAll (differing (system.hasReusePort && s.options.reusePort) [.set .reusePort 1])
          (applyAll (differing s.options.reuseAddress [.set .reuseAddr 1]) options) := by
      simp only [bindPart,differing,if_true,applyAll_append,applyAll_plain]
    rw [heq]
    refine ⟨fun option haddr hport => ?_,fun _ haddr hport => ⟨?_,fun hhas => ?_⟩⟩
    · simp only [applyAll_differing_set,haddr,hport,if_false]
    · simp only [applyAll_differing_set,reduceCtorEq,if_false,if_true,haddr]
      cases s.options.reuseAddress <;> rfl
    · simp only [applyAll_differing_set,reduceCtorEq,if_false,if_true,hport,hhas,Bool.true_and]
      cases s.options.reusePort <;> rfl

theorem openSocketCalls_eq (system : System) (s : SocketBase) (family : SocketFamily)
    (protocol : SocketProtocol) (hasAddress : Bool) (options : SystemOption → ℕ) :
    applyAll (openSocketCalls system s family protocol hasAddress) options =
      applyAll (bindPart system s hasAddress) (applyAll (openCalls system s family protocol)
        options) := by
  rw [openSocketCalls,applyAll_append,applyAll_append]
  rfl

theorem openCalls_tcp (system : System) (s : SocketBase) (family : SocketFamily) :
    applyAll (openCalls system s family .tcp) (freshOptions system) =
      applyAll (if s.options.tcpKeepAlive then keepAliveCalls system s else [])
        (Function.update (Function.update (Function.update (freshOptions system) .tcpNoDelay
          (!s.options.tcpNagle).toNat) .keepAlive s.options.tcpKeepAlive.toNat) .linger
            s.options.tcpReset.toNat) := by
  rw [openCalls,applyAll_append]
  rfl

theorem openCalls_tcp_spec (system : System) (s : SocketBase) (family : SocketFamily) :
    applyAll (openCalls system s family .tcp) (freshOptions system) .tcpNoDelay =
        (!s.options.tcpNagle).toNat ∧
      applyAll (openCalls system s family .tcp) (freshOptions system) .keepAlive =
        s.options.tcpKeepAlive.toNat ∧
      applyAll (openCalls system s family .tcp) (freshOptions system) .linger =
        s.options.tcpReset.toNat ∧
      (s.options.tcpKeepAlive = true →
        applyAll (openCalls system s family .tcp) (freshOptions system) .keepIdle =
          system.timeValue system.keepIdle s.tcpKeepAliveIdleTimeout ∧
        applyAll (openCalls system s family .tcp) (freshOptions system) .keepInterval =
          system.timeValue system.keepInterval s.tcpKeepAliveRetryInterval) ∧
      applyAll (openCalls system s family .tcp) (freshOptions system) .reuseAddr = 0 ∧
      applyAll (openCalls system s family .tcp) (freshOptions system) .reusePort = 0 := by
  rw [openCalls_tcp]
  generalize hbefore : Function.update (Function.update (Function.update (freshOptions system)
    .tcpNoDelay (!s.options.tcpNagle).toNat) .keepAlive s.options.tcpKeepAlive.toNat) .linger
      s.options.tcpReset.toNat = before
  obtain ⟨hother,halive,hidle,hinterval⟩ := keepAliveCalls_spec system s before
  cases hon : s.options.tcpKeepAlive with
  | false =>
    rw [hon] at hbefore
    subst hbefore
    exact ⟨rfl,rfl,rfl,by rintro ⟨⟩,rfl,rfl⟩
  | true =>
    rw [hon] at hbefore
    simp only [if_true]
    rw [hother .tcpNoDelay (by decide) (by decide) (by decide),
      hother .linger (by decide) (by decide) (by decide),
      hother .reuseAddr (by decide) (by decide) (by decide),
      hother .reusePort (by decide) (by decide) (by decide)]
    subst hbefore
    exact ⟨rfl,halive rfl,rfl,fun _ => ⟨hidle (Or.inr (Or.inl rfl)),
      hinterval (Or.inr (Or.inl rfl))⟩,rfl,rfl⟩

theorem setMulticastInterfaceAddressImpl_eq {family : SocketFamily} {address : InterfaceAddress}
    (h : setMulticastInterfaceAddressImpl family address ≠ none) :
    setMulticastInterfaceAddressImpl family address =
      .set (.multicastIf family.isIp6) (interfaceValue address) := by
  unfold setMulticastInterfaceAddressImpl at h ⊢
  split_ifs at h ⊢ with hfamily hip6
  · exact absurd rfl h
  · rw [hip6]
  · split at h
    · exact absurd rfl h
    · rw [(Bool.not_eq_false _).mp hip6]

theorem openCalls_udp_spec (system : System) (s : SocketBase) (family : SocketFamily)
    (h : none ∉ openCalls system s family .udp) :
    applyAll (openCalls system s family .udp) (freshOptions system) .broadcast =
        s.options.udpBroadcast.toNat ∧
      applyAll (openCalls system s family .udp) (freshOptions system)
        (.multicastLoop family.isIp6) = (!s.options.disableMulticastLoopback).toNat ∧
      applyAll (openCalls system s family .udp) (freshOptions system)
        (.multicastHops family.isIp6) = (if s.multicastHopLimit = 0 then 1 else s.multicastHopLimit) ∧
      applyAll (openCalls system s family .udp) (freshOptions system)
        (.multicastIf family.isIp6) = interfaceValue s.multicastInterfaceAddress ∧
      applyAll (openCalls system s family .udp) (freshOptions system) .reuseAddr = 0 ∧
      applyAll (openCalls system s family .udp) (freshOptions system) .reusePort = 0 := by
  have hinterface : differing (decide (s.multicastInterfaceAddress.family ≠ .undefined))
        [setMulticastInterfaceAddressImpl family s.multicastInterfaceAddress] =
      differing (decide (s.multicastInterfaceAddress.family ≠ .undefined))
        [.set (.multicastIf family.isIp6) (interfaceValue s.multicastInterfaceAddress)] := by
    cases hdecide : decide (s.multicastInterfaceAddress.family ≠ .undefined) with
    | false => rfl
    | true =>
      have hne : setMulticastInterfaceAddressImpl family s.multicastInterfaceAddress ≠ none :=
        fun heq => h (by simp [openCalls,hdecide,heq,differing])
      rw [setMulticastInterfaceAddressImpl_eq hne]
  have hempty : s.multicastInterfaceAddress.family = .undefined →
      interfaceValue s.multicastInterfaceAddress = 0 := by
    cases s.multicastInterfaceAddress with
    | empty => exact fun _ => rfl
    | ip4 address => exact nofun
    | ip6 isUnspecified scopeId => exact nofun
  have hlimit : ∀ values, applyAll (unlessZero s.multicastHopLimit
      (setMulticastHopLimitImpl family s.multicastHopLimit)) values =
      applyAll (differing (decide (s.multicastHopLimit ≠ 0))
        [.set (.multicastHops family.isIp6) s.multicastHopLimit]) values := by
    intro values
    rw [applyAll_unlessZero,applyAll_differing]
    by_cases hzero : s.multicastHopLimit = 0
    · simp [hzero]
    · simp [hzero,setMulticastHopLimitImpl]
  simp only [openCalls,hinterface,applyAll_append,hlimit,setMulticastLoopbackImpl,
    applyAll_differing_set,applyAll_set]
  simp only [reduceCtorEq,if_false,if_true,decide_eq_true_eq]
  refine ⟨rfl,?_,?_,?_,rfl,rfl⟩
  · cases s.options.disableMulticastLoopback <;> rfl
  · by_cases hzero : s.multicastHopLimit = 0
    · rw [if_neg (not_not.mpr hzero),if_pos hzero]
      rfl
    · rw [if_pos hzero,if_neg hzero]
  · split_ifs with hne
    · rfl
    · exact (hempty (not_not.mp hne)).symm

theorem perform_none (h : perform calls results options = (true,values)) : none ∉ calls := by
  induction calls generalizing results options with
  | nil => exact List.not_mem_nil
  | cons call calls ih =>
    cases call with
    | none => cases h
    | some set =>
      rw [List.mem_cons,not_or]
      refine ⟨nofun,?_⟩
      cases results with
      | nil => exact ih h
      | cons result results =>
        cases result with
        | true => exact ih h
        | false => cases h

theorem coherent_open (system : System) (s : SocketBase) (family : SocketFamily)
    (protocol : SocketProtocol) (hasAddress : Bool) (results : List Bool) :
    (s.open system family protocol hasAddress results).2.Coherent system := by
  unfold SocketBase.open
  rcases hperform : perform (openSocketCalls system s family protocol hasAddress) results
    (freshOptions system) with ⟨_ | _,values⟩
  · exact nofun
  have hnone : none ∉ openCalls system s family protocol := by
    have hcalls := perform_none hperform
    rw [openSocketCalls,List.mem_append,List.mem_append,not_or,not_or] at hcalls
    exact hcalls.1.2
  have hvalues := perform_true hperform
  rw [openSocketCalls_eq] at hvalues
  subst hvalues
  obtain ⟨hother,hbind⟩ := bindPart_spec system s hasAddress
    (applyAll (openCalls system s family protocol) (freshOptions system))
  have htcp := openCalls_tcp_spec system s family
  have hudp := openCalls_udp_spec system s family
  have hreuse : applyAll (openCalls system s family protocol) (freshOptions system) .reuseAddr = 0 ∧
      applyAll (openCalls system s family protocol) (freshOptions system) .reusePort = 0 := by
    cases protocol with
    | tcp => exact htcp.2.2.2.2
    | udp => exact (hudp hnone).2.2.2.2
    | raw => exact ⟨rfl,rfl⟩
    | other => exact ⟨rfl,rfl⟩
  have hkept : (if protocol = .tcp then s.options
      else { s.options with keepReadWriteBlockSize := true }) =
      { s.options with keepReadWriteBlockSize :=
          if protocol = .tcp then s.options.keepReadWriteBlockSize else true } := by
    split_ifs
    · rfl
    · rfl
  dsimp only
  rw [hkept]
  intro _ option value hvalue
  cases option with
  | tcpNoDelay =>
    simp only [prescribed] at hvalue
    split_ifs at hvalue with hprotocol
    subst hprotocol
    cases hvalue
    exact (hother .tcpNoDelay nofun nofun).trans htcp.1
  | keepAlive =>
    simp only [prescribed] at hvalue
    split_ifs at hvalue with hprotocol
    subst hprotocol
    cases hvalue
    exact (hother .keepAlive nofun nofun).trans htcp.2.1
  | linger =>
    simp only [prescribed] at hvalue
    split_ifs at hvalue with hprotocol
    subst hprotocol
    cases hvalue
    exact (hother .linger nofun nofun).trans htcp.2.2.1
  | keepIdle =>
    simp only [prescribed] at hvalue
    split_ifs at hvalue with hprotocol
    obtain ⟨rfl,hon⟩ := hprotocol
    cases hvalue
    exact (hother .keepIdle nofun nofun).trans (htcp.2.2.2.1 hon).1
  | keepInterval =>
    simp only [prescribed] at hvalue
    split_ifs at hvalue with hprotocol
    obtain ⟨rfl,hon⟩ := hprotocol
    cases hvalue
    exact (hother .keepInterval nofun nofun).trans (htcp.2.2.2.1 hon).2
  | broadcast =>
    simp only [prescribed] at hvalue
    split_ifs at hvalue with hprotocol
    subst hprotocol
    cases hvalue
    exact (hother .broadcast nofun nofun).trans (hudp hnone).1
  | multicastLoop isIp6 =>
    simp only [prescribed] at hvalue
    split_ifs at hvalue with hprotocol
    obtain ⟨rfl,rfl⟩ := hprotocol
    cases hvalue
    exact (hother (.multicastLoop family.isIp6) nofun nofun).trans (hudp hnone).2.1
  | multicastHops isIp6 =>
    obtain ⟨⟨rfl,rfl⟩,heq⟩ := Option.ite_none_right_eq_some.mp hvalue
    cases heq
    exact (hother (.multicastHops family.isIp6) nofun nofun).trans (hudp hnone).2.2.1
  | multicastIf isIp6 =>
    simp only [prescribed] at hvalue
    split_ifs at hvalue with hprotocol
    obtain ⟨rfl,rfl⟩ := hprotocol
    cases hvalue
    exact (hother (.multicastIf family.isIp6) nofun nofun).trans (hudp hnone).2.2.2.1
  | headerIncluded isIp6 =>
    simp only [prescribed] at hvalue
    split_ifs at hvalue with hprotocol
    obtain ⟨rfl,rfl⟩ := hprotocol
    cases hvalue
    exact (hother (.headerIncluded family.isIp6) nofun nofun).trans
      (Function.update_self _ _ _)
  | reuseAddr =>
    simp only [prescribed] at hvalue
    split_ifs at hvalue with haddress
    cases hvalue
    exact (hbind haddress hreuse.1 hreuse.2).1
  | reusePort =>
    simp only [prescribed] at hvalue
    split_ifs at hvalue with haddress
    cases hvalue
    exact (hbind haddress.1 hreuse.1 hreuse.2).2 haddress.2

end SocketBase
end Jancy.Io
