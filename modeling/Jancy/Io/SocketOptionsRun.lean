import Jancy.Io.SocketOptionsCalls

/-! Runs of sockets: their options stay the ones that are stored as long as no call but a first one
fails and the changes are ones that a socket follows. -/
namespace Jancy.Io.SocketBase

variable {system : System} {s s' : SocketBase} {options values : SystemOption → ℕ}
  {results : List Bool} {sockets : List SocketBase}

theorem coherent_initial (system : System) : (initial system).Coherent system := nofun

theorem coherent_closed : ({ s with isOpen := false } : SocketBase).Coherent system := nofun

theorem GivenOk.coherent {given : SystemOption → ℕ} {readsIdle readsInterval : Bool}
    (h : s.GivenOk system given readsIdle readsInterval) :
    (s.accept system given readsIdle readsInterval).Coherent system := by
  obtain ⟨hnoDelay,halive,hlinger,htimes⟩ := h
  intro _ option value hvalue
  cases option with
  | tcpNoDelay =>
    cases hvalue
    exact hnoDelay
  | keepAlive =>
    cases hvalue
    exact halive
  | linger =>
    cases hvalue
    exact hlinger
  | keepIdle =>
    obtain ⟨⟨-,hon⟩,heq⟩ := Option.ite_none_right_eq_some.mp hvalue
    cases heq
    exact (htimes hon).1
  | keepInterval =>
    obtain ⟨⟨-,hon⟩,heq⟩ := Option.ite_none_right_eq_some.mp hvalue
    cases heq
    exact (htimes hon).2
  | _ => cases hvalue

/-- A setter with one call: nothing has changed, or the call has been made and the value is stored,
or the value is stored only. -/
theorem setOne_cases (s : SocketBase) (isApplied : Bool) (call : SystemCall) (results : List Bool)
    (store : SocketBase → SocketBase) :
    ((s.setOne isApplied call results store).1 = false ∧
      (s.setOne isApplied call results store).2 = s) ∨
    (isApplied = true ∧ call ≠ none ∧ results.head? ≠ some false ∧
      s.setOne isApplied call results store =
        (true,store { s with system := applyAll [call] s.system })) ∨
    (isApplied = false ∧ s.setOne isApplied call results store = (true,store s)) := by
  cases isApplied with
  | false => exact Or.inr (Or.inr ⟨rfl,rfl⟩)
  | true =>
    unfold setOne
    rcases hperform : perform [call] results s.system with ⟨_ | _,values⟩
    · obtain rfl := perform_one hperform
      exact Or.inl ⟨rfl,rfl⟩
    · refine Or.inr (Or.inl ⟨rfl,fun hnone => ?_,fun hfails => ?_,?_⟩)
      · exact perform_none hperform (hnone ▸ List.mem_singleton_self _)
      · rw [perform_first (List.cons_ne_nil _ _) hfails] at hperform
        cases hperform
      · rw [perform_true hperform]
        rfl

theorem timeValue_posix {hasReusePort : Bool} {keepIdle keepInterval default time : ℕ}
    (h : time ≠ 0 ∨ default = 1) :
    (System.posix hasReusePort keepIdle keepInterval).timeValue default time =
      max 1 (time / 1000) := by
  unfold System.timeValue
  split_ifs with hzero
  · rw [h.resolve_left (not_not.mpr hzero),hzero]
    rfl
  · rfl

section

variable (h : s.Coherent system)

include h

/-- Only what is set for keep-alive packets has changed. -/
theorem Coherent.times {idle interval : ℕ}
    (hother : ∀ option, option ≠ .keepAlive → option ≠ .keepIdle → option ≠ .keepInterval →
      values option = s.system option) (hkeepAlive : s.isOpen = true → s.protocol = .tcp →
      values .keepAlive = s.options.tcpKeepAlive.toNat ∧
      (s.options.tcpKeepAlive = true →
        values .keepIdle = system.timeValue system.keepIdle idle ∧
        values .keepInterval = system.timeValue system.keepInterval interval)) :
    ({ s with
      tcpKeepAliveIdleTimeout := idle
      tcpKeepAliveRetryInterval := interval
      system := values } : SocketBase).Coherent system := by
  intro hopen option value hvalue
  have hbefore := h hopen option value
  cases option with
  | keepAlive =>
    obtain ⟨htcp,heq⟩ := Option.ite_none_right_eq_some.mp hvalue
    cases heq
    exact (hkeepAlive hopen htcp).1
  | keepIdle =>
    obtain ⟨⟨htcp,hon⟩,heq⟩ := Option.ite_none_right_eq_some.mp hvalue
    cases heq
    exact ((hkeepAlive hopen htcp).2 hon).1
  | keepInterval =>
    obtain ⟨⟨htcp,hon⟩,heq⟩ := Option.ite_none_right_eq_some.mp hvalue
    cases heq
    exact ((hkeepAlive hopen htcp).2 hon).2
  | _ =>
    rw [← hbefore hvalue]
    exact hother _ nofun nofun nofun

theorem Coherent.storeTimes {idle interval : ℕ}
    (happlied : (s.isOpen && s.options.tcpKeepAlive) = false) :
    ({ s with
      tcpKeepAliveIdleTimeout := idle
      tcpKeepAliveRetryInterval := interval } : SocketBase).Coherent system := by
  refine h.times (fun _ _ _ _ => rfl) fun hopen htcp => ⟨h hopen .keepAlive _ (if_pos htcp),?_⟩
  rw [hopen,Bool.true_and] at happlied
  rw [happlied]
  rintro ⟨⟩

/-- On Windows one call sets all three. -/
theorem Coherent.winTimes {idle interval : ℕ} (hwin : system = .win)
    (hon : s.options.tcpKeepAlive = true) :
    ({ s with
      tcpKeepAliveIdleTimeout := idle
      tcpKeepAliveRetryInterval := interval
      system := setAll s.system [(.keepAlive,1),
        (.keepIdle,System.win.timeValue System.win.keepIdle idle),
        (.keepInterval,System.win.timeValue System.win.keepInterval interval)] } :
      SocketBase).Coherent system := by
  subst hwin
  refine h.times (fun option halive hidle hinterval => ?_) fun _ _ => ?_
  · simp only [setAll,Function.update_of_ne halive,Function.update_of_ne hidle,
      Function.update_of_ne hinterval]
  · rw [hon]
    exact ⟨rfl,fun _ => ⟨rfl,rfl⟩⟩

theorem Coherent.setOne {isApplied : Bool} {call : SystemCall} {store : SocketBase → SocketBase}
    (hcalled : isApplied = true → call ≠ none → results.head? ≠ some false →
      (store { s with system := applyAll [call] s.system }).Coherent system)
    (hstored : isApplied = false → (store s).Coherent system) :
    (s.setOne isApplied call results store).2.Coherent system := by
  obtain ⟨-,heq⟩ | ⟨happlied,hcall,hresult,heq⟩ | ⟨happlied,heq⟩ :=
    setOne_cases s isApplied call results store
  · rw [heq]
    exact h
  · rw [heq]
    exact hcalled happlied hcall hresult
  · rw [heq]
    exact hstored happlied

theorem Coherent.setTcpKeepAliveIdleTimeout {timeout : ℕ}
    (hok : s.isOpen = true → s.protocol = .tcp → s.options.tcpKeepAlive = true → system ≠ .win →
      results.head? = some false ∨ timeout ≠ 0 ∨ system.keepIdle = 1) :
    (s.setTcpKeepAliveIdleTimeout system timeout results).2.Coherent system := by
  refine h.setOne (fun happlied _ hresult => ?_) h.storeTimes
  obtain ⟨hopen,hon⟩ := Bool.and_eq_true_iff.mp happlied
  cases system with
  | win => exact h.winTimes rfl hon
  | posix hasReusePort keepIdle keepInterval =>
    refine h.times (fun option _ hidle _ => Function.update_of_ne hidle _ _) fun _ htcp =>
      ⟨h hopen .keepAlive _ (if_pos htcp),fun _ => ⟨?_,
        h hopen .keepInterval _ (if_pos ⟨htcp,hon⟩)⟩⟩
    rw [timeValue_posix ((hok hopen htcp hon (by rintro ⟨⟩)).resolve_left hresult)]
    exact Function.update_self SystemOption.keepIdle _ s.system

theorem Coherent.setTcpKeepAliveRetryInterval {interval : ℕ}
    (hok : s.isOpen = true → s.protocol = .tcp → s.options.tcpKeepAlive = true → system ≠ .win →
      results.head? = some false ∨ interval ≠ 0 ∨ system.keepInterval = 1) :
    (s.setTcpKeepAliveRetryInterval system interval results).2.Coherent system := by
  refine h.setOne (fun happlied _ hresult => ?_) h.storeTimes
  obtain ⟨hopen,hon⟩ := Bool.and_eq_true_iff.mp happlied
  cases system with
  | win => exact h.winTimes rfl hon
  | posix hasReusePort keepIdle keepInterval =>
    refine h.times (fun option _ _ hinterval => Function.update_of_ne hinterval _ _) fun _ htcp =>
      ⟨h hopen .keepAlive _ (if_pos htcp),fun _ => ⟨
        h hopen .keepIdle _ (if_pos ⟨htcp,hon⟩),?_⟩⟩
    rw [timeValue_posix ((hok hopen htcp hon (by rintro ⟨⟩)).resolve_left hresult)]
    exact Function.update_self SystemOption.keepInterval _ s.system

theorem Coherent.update (option : SystemOption) {value : ℕ}
    (hprescribed : ∀ option', option' ≠ option →
      s'.prescribed system option' = s.prescribed system option')
    (hvalue : ∀ value', s'.prescribed system option = some value' → value = value')
    (hopen : s'.isOpen = s.isOpen) (hsystem : s'.system = Function.update s.system option value) :
    s'.Coherent system := by
  intro hopen' option' value' hvalue'
  rw [hsystem]
  by_cases heq : option' = option
  · rw [heq] at hvalue' ⊢
    rw [Function.update_self]
    exact hvalue value' hvalue'
  · rw [Function.update_of_ne heq]
    rw [hprescribed option' heq] at hvalue'
    exact h (hopen ▸ hopen') option' value' hvalue'

theorem Coherent.setMulticastHopLimit (limit : ℕ) :
    (s.setMulticastHopLimit limit results).2.Coherent system := by
  refine h.setOne (fun _ _ _ => h.update (.multicastHops s.family.isIp6) (fun option' hne => ?_)
    (fun value' hvalue' => Option.some.inj (Option.ite_none_right_eq_some.mp hvalue').2) rfl rfl)
    fun hclosed hopen => absurd (hclosed.symm.trans hopen) Bool.false_ne_true
  cases option' with
  | multicastHops isIp6 =>
    have hfamily : s.family.isIp6 ≠ isIp6 := fun heq => hne (by rw [heq])
    exact (if_neg fun hand => hfamily hand.2).trans (if_neg fun hand => hfamily hand.2).symm
  | _ => rfl

theorem Coherent.setMulticastInterfaceAddress (address : InterfaceAddress) :
    (s.setMulticastInterfaceAddress address results).2.Coherent system := by
  refine h.setOne (fun _ hcall _ => ?_)
    fun hclosed hopen => absurd (hclosed.symm.trans hopen) Bool.false_ne_true
  rw [setMulticastInterfaceAddressImpl_eq hcall]
  refine h.update (.multicastIf s.family.isIp6) (fun option' hne => ?_)
    (fun value' hvalue' => Option.some.inj (Option.ite_none_right_eq_some.mp hvalue').2) rfl rfl
  cases option' with
  | multicastIf isIp6 =>
    have hfamily : s.family.isIp6 ≠ isIp6 := fun heq => hne (by rw [heq])
    exact (if_neg fun hand => hfamily hand.2).trans (if_neg fun hand => hfamily hand.2).symm
  | _ => rfl

end

theorem setOptionsCalls_ne_none (system : System) (s : SocketBase) (options : SocketOptions) :
    ∀ call ∈ setOptionsCalls system s options, call ≠ none := by
  have hset : ∀ isDifferent option value, ∀ call ∈ differing isDifferent [.set option value],
      call ≠ none := by
    intro isDifferent option value call hcall
    unfold differing at hcall
    split_ifs at hcall
    · rw [List.mem_singleton.mp hcall]
      exact nofun
    · exact absurd hcall List.not_mem_nil
  have hunless : ∀ value call', call' ≠ none → ∀ call ∈ unlessZero value call', call ≠ none := by
    intro value call' hne call hcall
    unfold unlessZero at hcall
    split_ifs at hcall
    · exact absurd hcall List.not_mem_nil
    · rw [List.mem_singleton.mp hcall]
      exact hne
  intro call hcall
  rw [setOptionsCalls_eq] at hcall
  simp only [List.mem_append] at hcall
  obtain (((hcall | hcall) | hcall) | hcall) | hcall := hcall
  · exact hset _ _ _ call hcall
  · unfold keepAlivePart differing at hcall
    split_ifs at hcall
    · rcases List.mem_cons.mp hcall with rfl | hcall
      · exact nofun
      · rcases List.mem_append.mp hcall with hcall | hcall
        · exact hunless _ _ (by cases system <;> exact nofun) call hcall
        · exact hunless _ _ (by cases system <;> exact nofun) call hcall
    · rw [List.mem_singleton.mp hcall]
      exact nofun
    · exact absurd hcall List.not_mem_nil
  · exact hset _ _ _ call hcall
  · exact hset _ _ _ call hcall
  · exact hset _ _ _ call hcall

variable {options : SocketOptions}

theorem setOptions_first (hopen : s.isOpen = true) (hcalls : setOptionsCalls system s options ≠ [])
    (hfirst : results.head? = some false) :
    s.setOptions system options results = (false,s) := by
  rw [SocketBase.setOptions,if_neg (by rw [hopen]; exact Bool.noConfusion),
    perform_first hcalls hfirst]

theorem setOptions_all (hopen : s.isOpen = true)
    (hall : false ∉ results.take (setOptionsCalls system s options).length) :
    ∃ isKept, s.setOptions system options results = (true,{ s with
      options := { options with keepReadWriteBlockSize := isKept }
      system := applyAll (setOptionsCalls system s options) s.system }) := by
  rw [SocketBase.setOptions,if_neg (by rw [hopen]; exact Bool.noConfusion)]
  have htrue := perform_all s.system (setOptionsCalls_ne_none system s options) hall
  rcases hperform : perform (setOptionsCalls system s options) results s.system with
    ⟨result,values⟩
  rw [hperform] at htrue
  cases htrue
  rw [perform_true hperform]
  cases hdatagram : s.isDatagram with
  | false => exact ⟨options.keepReadWriteBlockSize,rfl⟩
  | true => exact ⟨true,rfl⟩

theorem Coherent.runOptions (h : s.Coherent system) (hok : s.isOpen = true →
      (setOptionsCalls system s options ≠ [] ∧ results.head? = some false) ∨
        (false ∉ results.take (setOptionsCalls system s options).length ∧
          s.Follows system options)) :
    (s.setOptions system options results).2.Coherent system ∧
      ((s.setOptions system options results).1 = false →
        (s.setOptions system options results).2 = s) := by
  cases hopen : s.isOpen with
  | false =>
    rw [SocketBase.setOptions,if_pos hopen]
    exact ⟨fun hopen' => absurd (hopen.symm.trans hopen') Bool.false_ne_true,nofun⟩
  | true =>
    obtain ⟨hcalls,hfirst⟩ | ⟨hall,hfollows⟩ := hok hopen
    · rw [setOptions_first hopen hcalls hfirst]
      exact ⟨h,fun _ => rfl⟩
    · obtain ⟨isKept,heq⟩ := setOptions_all hopen hall
      rw [heq]
      exact ⟨h.setOptions hopen hfollows,nofun⟩

theorem setOne_keeps {isApplied : Bool} {call : SystemCall} {store : SocketBase → SocketBase}
    (h : (s.setOne isApplied call results store).1 = false) :
    (s.setOne isApplied call results store).2 = s := by
  obtain ⟨-,heq⟩ | ⟨-,-,-,heq⟩ | ⟨-,heq⟩ := setOne_cases s isApplied call results store
  · exact heq
  · rw [heq] at h
    cases h
  · rw [heq] at h
    cases h

section

variable (h : AllCoherent system sockets)

include h

theorem AllCoherent.get {i : ℕ} (hi : sockets[i]? = some s) :
    s.Coherent system := h s (List.mem_of_getElem? hi)

theorem AllCoherent.set {i : ℕ} (hs : s.Coherent system) :
    AllCoherent system (sockets.set i s) := by
  intro s' hmem
  rcases List.mem_or_eq_of_mem_set hmem with hmem | rfl
  · exact h s' hmem
  · exact hs

theorem AllCoherent.push (hs : s.Coherent system) :
    AllCoherent system (sockets ++ [s]) := by
  intro s' hmem
  rcases List.mem_append.mp hmem with hmem | hmem
  · exact h s' hmem
  · rw [List.mem_singleton.mp hmem]
    exact hs

end

theorem Coherent.runSetter (h : s.Coherent system) {i : ℕ} {setter : SocketSetter}
    (hi : sockets[i]? = some s) (hok : StepOk system sockets (.set i setter results)) :
    (s.runSetter system results setter).2.Coherent system ∧
      ((s.runSetter system results setter).1 = false →
        (s.runSetter system results setter).2 = s) := by
  cases setter with
  | options options => exact h.runOptions (hok s hi)
  | tcpKeepAliveIdleTimeout timeout =>
    exact ⟨h.setTcpKeepAliveIdleTimeout (hok s hi),setOne_keeps⟩
  | tcpKeepAliveRetryInterval interval =>
    exact ⟨h.setTcpKeepAliveRetryInterval (hok s hi),setOne_keeps⟩
  | multicastHopLimit limit => exact ⟨h.setMulticastHopLimit limit,setOne_keeps⟩
  | multicastInterfaceAddress address =>
    exact ⟨h.setMulticastInterfaceAddress address,setOne_keeps⟩

theorem AllCoherent.step (h : AllCoherent system sockets) {a : SocketOptionAction}
    {sockets' : List SocketBase} (hok : StepOk system sockets a)
    (hstep : step system sockets a = some sockets') : AllCoherent system sockets' := by
  cases a with
  | create =>
    cases hstep
    exact h.push (coherent_initial system)
  | «open» i family protocol hasAddress results =>
    obtain ⟨s,-,rfl⟩ := Option.map_eq_some_iff.mp hstep
    exact h.set (coherent_open system s family protocol hasAddress results)
  | accept i given readsIdle readsInterval =>
    obtain ⟨s,hi,rfl⟩ := Option.map_eq_some_iff.mp hstep
    exact h.push (hok s hi).coherent
  | set i setter results =>
    obtain ⟨s,hi,rfl⟩ := Option.map_eq_some_iff.mp hstep
    exact h.set ((h.get hi).runSetter hi hok).1
  | close i =>
    obtain ⟨s,-,rfl⟩ := Option.map_eq_some_iff.mp hstep
    exact h.set coherent_closed

theorem AllCoherent.keeps (h : AllCoherent system sockets) {a : SocketOptionAction}
    (hok : StepOk system sockets a) : Keeps system sockets a := by
  cases a with
  | set i setter results => exact fun s hi => ((h.get hi).runSetter hi hok).2
  | _ => trivial

/-- In every run whose steps meet the condition the sockets that are open have the options that are
stored for them, and a setter that fails changes nothing. -/
theorem allCoherent_of_stepOk (system : System) (as : List SocketOptionAction)
    (hok : Run.Along (step system) (StepOk system) [] as) :
    Run.Always (step system) (AllCoherent system) [] as ∧
      Run.Along (step system) (Keeps system) [] as := by
  have hinitial : AllCoherent system [] := fun _ hmem => absurd hmem List.not_mem_nil
  have hkeep : ∀ sockets a sockets', AllCoherent system sockets → StepOk system sockets a →
      step system sockets a = some sockets' → AllCoherent system sockets' :=
    fun _ _ _ h hok hstep => h.step hok hstep
  have hkeeps : ∀ sockets a, AllCoherent system sockets → StepOk system sockets a →
      Keeps system sockets a := fun _ _ h hok => h.keeps hok
  exact ⟨Run.always_of_along (fun _ h => h) hkeep hinitial hok,
    Run.Along.of_invariant hkeeps hkeep hinitial hok⟩

/-- A connection that the operating system gave the options of the socket that listens, whose Nagle
option is turned on while the system first refuses it. -/
theorem allCoherent_of_stepOk_accept :
    Run.Always (step .win) (AllCoherent .win) []
        [.create,.set 0 (.options ⟨false,false,false,true,false,true,false,false,false⟩) [],
          .open 0 .ip4 .tcp true [],.accept 0 (Function.update (Function.update (freshOptions .win)
            .tcpNoDelay 1) .linger 1) true true,
          .set 1 (.options ⟨false,false,true,true,false,true,false,false,false⟩) [false],
          .set 1 (.options ⟨false,false,true,true,false,true,false,false,false⟩) [true],
          .set 1 (.multicastHopLimit 5) [true],.close 1] ∧
      Run.Along (step .win) (Keeps .win) []
        [.create,.set 0 (.options ⟨false,false,false,true,false,true,false,false,false⟩) [],
          .open 0 .ip4 .tcp true [],.accept 0 (Function.update (Function.update (freshOptions .win)
            .tcpNoDelay 1) .linger 1) true true,
          .set 1 (.options ⟨false,false,true,true,false,true,false,false,false⟩) [false],
          .set 1 (.options ⟨false,false,true,true,false,true,false,false,false⟩) [true],
          .set 1 (.multicastHopLimit 5) [true],.close 1] := by
  refine allCoherent_of_stepOk .win _ ?_
  refine .cons rfl trivial <| .cons rfl ?_ <| .cons rfl trivial <|
    .cons rfl ?_ <| .cons rfl ?_ <| .cons rfl ?_ <|
    .cons rfl trivial <| .cons rfl trivial trivial
  · rintro s hs hopen
    cases hs
    cases hopen
  · rintro s hs
    cases hs
    exact ⟨rfl,rfl,rfl,nofun⟩
  · rintro s hs -
    cases hs
    exact Or.inl ⟨List.cons_ne_nil _ _,rfl⟩
  · rintro s hs -
    cases hs
    exact Or.inr ⟨by decide,nofun,nofun,nofun⟩

/-- A connection sends small packets late although it is not to, as nothing has been set for it;
`setOptions` that fails at its second call has set the first; a socket that is open does not follow
the raw header; and a time of 0 is set to one second. -/
theorem not_always_allCoherent :
    ¬Run.Always (step .win) (AllCoherent .win) []
        [.create,.open 0 .ip4 .tcp true [],.accept 0 (freshOptions .win) true true] ∧
      ¬Run.Along (step .win) (Keeps .win) []
        ([.create,.open 0 .ip4 .tcp true []] ++
          [.set 0 (.options ⟨false,false,true,true,false,false,false,false,false⟩) [true,false]]) ∧
      ¬Run.Always (step .win) (AllCoherent .win) []
        [.create,.open 0 .ip4 .raw false [],
          .set 0 (.options ⟨true,false,false,false,false,false,false,false,false⟩) []] ∧
      ¬Run.Always (step (.posix true 7200 75)) (AllCoherent (.posix true 7200 75)) []
        [.create,.set 0 (.options ⟨false,true,false,false,false,false,false,false,false⟩) [],
          .open 0 .ip4 .tcp true [],.set 0 (.tcpKeepAliveIdleTimeout 0) [true]] := by
  refine ⟨fun h => ?_,fun h => ?_,fun h => ?_,fun h => ?_⟩
  · have hcoherent := h.last rfl _ (List.mem_cons_of_mem _ List.mem_cons_self) rfl .tcpNoDelay _ rfl
    cases hcoherent
  · have hkeeps := h.last rfl rfl _ rfl rfl
    have hnoDelay := congrArg (fun s : SocketBase => s.system .tcpNoDelay) hkeeps
    cases hnoDelay
  · have hcoherent := h.last rfl _ List.mem_cons_self rfl (.headerIncluded false) _ rfl
    cases hcoherent
  · have hcoherent := h.last rfl _ List.mem_cons_self rfl .keepIdle _ rfl
    cases hcoherent

end Jancy.Io.SocketBase
