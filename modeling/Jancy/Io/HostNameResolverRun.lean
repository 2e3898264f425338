import Jancy.Io.HostNameResolver

/-! Runs of `io.HostNameResolver`: what each step of a call and of the thread keeps. -/
namespace Jancy.Io

variable {system : ResolverSystem}

/-- The fields are those that a request for a host sets. -/
def HostKey (system : ResolverSystem) (request : ResolveRequest) (key : LookupKey) : Prop :=
  key.name ≠ [] ∧ key.addrFamily = request.addrFamily ∧ ∃ port,
    system.target request.name = .host key.name port ∧ 0 ≤ port ∧ port < 2 ^ 16 ∧
      key.port = swapByteOrder16 (BitVec.ofInt 16 port)

theorem clamp_port {port : ℤ} (hlow : 0 ≤ port) (hhigh : port < 2 ^ 16) :
    system.clamp port = port := by
  unfold ResolverSystem.clamp
  cases system.isWin
  · simp only [Bool.false_eq_true,if_false]
    rw [if_neg (by omega),if_neg (by omega)]
  · simp only [if_true]
    rw [if_neg (by omega),if_neg (by omega)]

namespace HostNameResolver

/-- The thread has nothing to do, or it will be woken, or it has been done. -/
def Awake (s : HostNameResolver) : Prop :=
  s.name = [] ∨ s.resolvedEvent = true ∨ s.ioErrorEvent = true ∨ 0 < s.wakeCount

/-- A lookup for the fields as they are, or else the thread will be woken after it. -/
def Current (s : HostNameResolver) (key : LookupKey) : Prop :=
  key.name ≠ [] ∧ (key = s.key ∨ s.Awake)

def ThreadOk (s : HostNameResolver) : Option ResolverThread → Prop
  | none | some .starting | some .woken => True
  | some .sleeping => s.Awake
  | some (.resolving key) | some (.resolved key _) | some (.completing key _) => s.Current key
  | some (.completed key _) => s.Current key ∧ ∃ addresses,
      s.pendingAddressTable = some ⟨.lookup key.name key.addrFamily,addresses⟩
  | some (.failing key) => key.name ≠ [] ∧ key = s.key
  | some (.failed key) => key.name ≠ [] ∧ key = s.key ∧
      s.pendingIoError = some (.lookup key.name key.addrFamily)

/-- What holds where a call stands. -/
def CallOk (system : ResolverSystem) (s : HostNameResolver) : Option ResolverCall → Prop
  | none | some .cancel | some .close | some .closing =>
      ∀ request host port, s.latest = some request → system.target request.name = .host host port →
        s.name ≠ []
  | some (.resolve name _ _) => s.NameOk system name ∧
      ∀ request host port, s.latest = some request → system.target request.name = .host host port →
        s.name ≠ []
  | some (.opening name addrFamily) =>
      s.name = [] ∧ s.latest = some ⟨name,addrFamily⟩ ∧ s.NameOk system name
  | some (.numeric name address) => s.name = [] ∧ s.isOpen = true ∧
      (∃ addrFamily, s.latest = some ⟨name,addrFamily⟩) ∧
      system.target name = .numeric address ∧ address.port = s.port
  | some (.numericCaptured key name address) => s.name = [] ∧ s.isOpen = true ∧
      (∃ addrFamily, s.latest = some ⟨name,addrFamily⟩) ∧
      system.target name = .numeric address ∧ address.port = s.port ∧ key = s.key
  | some (.numericDup key) => s.name = [] ∧ s.isOpen = true ∧ (∃ request address,
      s.latest = some request ∧ system.target request.name = .numeric address ∧
      address.port = s.port ∧
      s.pendingAddressTable = some ⟨.numeric request.name,[address]⟩) ∧ key = s.key ∧
      ∀ key' count, s.thread ≠ some (.completed key' count)
  | some (.portError name) => s.name = [] ∧ s.isOpen = true ∧
      (∃ addrFamily, s.latest = some ⟨name,addrFamily⟩) ∧ system.target name = .invalidPort
  | some .portErrorDup => s.name = [] ∧ s.isOpen = true ∧ ∃ request, s.latest = some request ∧
      system.target request.name = .invalidPort ∧
      s.pendingIoError = some (.invalidPort request.name)
  | some (.host name addrFamily port) => s.name = [] ∧ s.isOpen = true ∧
      ∃ request, s.latest = some request ∧ HostKey system request ⟨name,addrFamily,port⟩
  | some .starting => s.name ≠ [] ∧ s.isOpen = true

/-- The invariant, where at most one call is on its way. -/
structure Inv (system : ResolverSystem) (s : HostNameResolver) (call : Option ResolverCall) :
    Prop where
  fields : s.name ≠ [] → ∃ request, s.latest = some request ∧ HostKey system request s.key
  belongs : s.Belongs system
  thread : s.ThreadOk s.thread
  closed : s.isOpen = false → s.thread = none
  idle : s.isStarted = false → s.thread = none ∨ call = some .closing
  call : s.CallOk system call

theorem initial_inv : initial.Inv system none where
  fields := fun h => absurd rfl h
  belongs := ⟨nofun,nofun⟩
  thread := trivial
  closed := fun _ => rfl
  idle := fun _ => Or.inl rfl
  call := nofun

theorem Inv.notLost {s : HostNameResolver} (h : s.Inv system none) : s.NotLost system := by
  intro hsleeping hwake request host port hlatest htarget
  have hawake := h.thread
  rw [hsleeping] at hawake
  obtain hname | hresolved | herror | hpending := hawake
  · exact absurd hname (h.call request host port hlatest htarget)
  · exact Or.inl hresolved
  · exact Or.inr herror
  · omega

variable {s s' : HostNameResolver}

theorem publish_answers {request : ResolveRequest} (h : HostKey system request s.key)
    {addresses : List ResolvedAddress} (count : ℕ)
    (hpending : s.pendingAddressTable = some ⟨.lookup s.name s.addrFamily,addresses⟩) :
    ∃ table, (s.publish system count).addressTable = some table ∧
      system.Answers request table := by
  obtain ⟨-,hfamily,port,htarget,hlow,hhigh,hport⟩ := h
  refine ⟨_,by rw [publish,hpending]; rfl,?_⟩
  unfold ResolverSystem.Answers
  rw [htarget]
  refine ⟨by rw [← hfamily]; rfl,fun found hfound => ?_⟩
  obtain ⟨address,-,rfl⟩ := List.mem_map.mp hfound
  exact ⟨hlow,hhigh,hport⟩

variable {call : Option ResolverCall}

theorem CallOk.congr (h : s.CallOk system call) (hkey : s'.key = s.key)
    (hlatest : s'.latest = s.latest) (hopen : s'.isOpen = s.isOpen)
    (hdup : ∀ key, call = some (.numericDup key) →
      s'.pendingAddressTable = s.pendingAddressTable ∧
        ∀ key' count, s'.thread ≠ some (.completed key' count))
    (herror : call = some .portErrorDup → s'.pendingIoError = s.pendingIoError) :
    s'.CallOk system call := by
  have hname : s'.name = s.name := congrArg LookupKey.name hkey
  have hport : s'.port = s.port := congrArg LookupKey.port hkey
  cases call with
  | none => simpa only [CallOk,hname,hlatest] using h
  | some call =>
    cases call with
    | numericDup key =>
      obtain ⟨htable,hthread⟩ := hdup key rfl
      simp only [CallOk,hname,hlatest,hopen,hport,hkey,htable] at h ⊢
      exact ⟨h.1,h.2.1,h.2.2.1,h.2.2.2.1,hthread⟩
    | portErrorDup =>
      have hpending := herror rfl
      simpa only [CallOk,hname,hlatest,hopen,hpending] using h
    | _ => simpa only [CallOk,NameOk,hname,hlatest,hopen,hport,hkey] using h

theorem CallOk.not_copying (h : s.CallOk system call) (hname : s.name ≠ []) :
    (∀ key, call ≠ some (.numericDup key)) ∧ call ≠ some .portErrorDup := by
  refine ⟨fun key heq => ?_,fun heq => ?_⟩
  · subst heq
    exact hname h.1
  · subst heq
    exact hname h.1

variable {t : Option ResolverThread}

theorem Inv.move (h : s.Inv system call) (ht : s.ThreadOk t) (hclosed : s.isOpen = false → t = none)
    (hidle : s.isStarted = false → t = none ∨ call = some .closing)
    (hdup : ∀ key count, t ≠ some (.completed key count)) :
    ({ s with thread := t } : HostNameResolver).Inv system call where
  fields := h.fields
  belongs := h.belongs
  thread := ht
  closed := hclosed
  idle := hidle
  call := h.call.congr rfl rfl rfl (fun _ _ => ⟨rfl,hdup⟩) fun _ => rfl

theorem awake_wakeIoThread (system : ResolverSystem) (s : HostNameResolver) :
    (wakeIoThread system s).Awake := by
  refine Or.inr (Or.inr (Or.inr ?_))
  unfold wakeIoThread
  dsimp only
  split_ifs
  · exact Nat.one_pos
  · exact Nat.succ_pos _

/-- What the thread does keeps the invariant, if it leaves the table of a call alone. -/
theorem Inv.ioThreadFunc (h : s.Inv system call) {result : Option (List ResolvedAddress)}
    (hok : ∀ key addresses, s.thread = some (.completing key addresses) →
      ∀ key, call ≠ some (.numericDup key)) (hstep : s.ioThreadFunc system result = some s') :
    s'.Inv system call := by
  have hthread := h.thread
  unfold HostNameResolver.ioThreadFunc at hstep
  cases hpc : s.thread with
  | none =>
    rw [hpc] at hstep
    cases hstep
  | some pc =>
    have hclosed : ∀ t : Option ResolverThread, s.isOpen = false → t = none :=
      fun _ hc => nomatch hpc.symm.trans (h.closed hc)
    have hidle : ∀ t : Option ResolverThread, s.isStarted = false →
        t = none ∨ call = some .closing :=
      fun _ hs => Or.inr ((h.idle hs).resolve_left (by rw [hpc]; nofun))
    rw [hpc] at hstep hthread
    cases pc with
    | starting =>
      cases hstep
      exact ⟨h.fields,h.belongs,awake_wakeIoThread system s,hclosed _,hidle _,
        h.call.congr rfl rfl rfl (fun _ _ => ⟨rfl,nofun⟩) fun _ => rfl⟩
    | sleeping =>
      by_cases hwake : s.wakeCount = 0
      · rw [if_pos hwake] at hstep
        cases hstep
      · rw [if_neg hwake] at hstep
        cases hstep
        exact ⟨h.fields,h.belongs,trivial,hclosed _,hidle _,
          h.call.congr rfl rfl rfl (fun _ _ => ⟨rfl,nofun⟩) fun _ => rfl⟩
    | woken =>
      dsimp only at hstep
      split_ifs at hstep with hclosing hname
      · cases hstep
        exact h.move trivial (fun _ => rfl) (hidle _) nofun
      · cases hstep
        exact h.move (Or.inl hname) (hclosed _) (hidle _) nofun
      · cases hstep
        exact h.move ⟨hname,Or.inl rfl⟩ (hclosed _) (hidle _) nofun
    | resolving key =>
      cases hstep
      exact h.move hthread (hclosed _) (hidle _) nofun
    | resolved key result =>
      dsimp only at hstep
      split_ifs at hstep with hclosing hkey
      · cases hstep
        exact h.move trivial (fun _ => rfl) (hidle _) nofun
      · cases hstep
        exact h.move (hthread.2.resolve_left hkey) (hclosed _) (hidle _) nofun
      · have hkey := not_not.mp hkey
        cases result with
        | none =>
          cases hstep
          exact h.move ⟨hthread.1,hkey⟩ (hclosed _) (hidle _) nofun
        | some addresses =>
          cases hstep
          exact h.move ⟨hkey ▸ hthread.1,Or.inl rfl⟩ (hclosed _) (hidle _) nofun
    | completing key addresses =>
      cases hstep
      exact ⟨h.fields,h.belongs,⟨hthread,addresses,rfl⟩,hclosed _,hidle _,
        h.call.congr rfl rfl rfl (fun key' heq => absurd heq (hok key addresses hpc key'))
          fun _ => rfl⟩
    | completed key count =>
      dsimp only at hstep
      split_ifs at hstep with hkey
      · cases hstep
        exact h.move (hthread.1.2.resolve_left hkey) (hclosed _) (hidle _) nofun
      · cases hstep
        obtain rfl := not_not.mp hkey
        obtain ⟨⟨hname,-⟩,addresses,hpending⟩ := hthread
        obtain ⟨request,hlatest,hhost⟩ := h.fields hname
        obtain ⟨table,htable,hanswers⟩ := publish_answers hhost count hpending
        have hcopying := h.call.not_copying hname
        exact ⟨h.fields,⟨fun _ => ⟨request,table,hlatest,htable,hanswers⟩,h.belongs.2⟩,
          Or.inr (Or.inl rfl),hclosed _,hidle _,
          h.call.congr rfl rfl rfl (fun key heq => absurd heq (hcopying.1 key)) fun _ => rfl⟩
    | failing key =>
      cases hstep
      obtain ⟨hname,hkey⟩ := hthread
      have hne : s.key.name ≠ [] := hkey ▸ hname
      have hcopying := h.call.not_copying hne
      exact ⟨h.fields,h.belongs,⟨hname,hkey,rfl⟩,hclosed _,hidle _,
        h.call.congr rfl rfl rfl (fun key heq => absurd heq (hcopying.1 key))
          fun heq => absurd heq hcopying.2⟩
    | failed key =>
      cases hstep
      obtain ⟨hname,rfl,hpending⟩ := hthread
      obtain ⟨request,hlatest,-,hfamily,port,htarget,-⟩ := h.fields hname
      have hcopying := h.call.not_copying hname
      have hfails : system.Fails request (.lookup s.name s.addrFamily) := by
        unfold ResolverSystem.Fails
        rw [htarget]
        exact congrArg _ hfamily
      exact ⟨h.fields,⟨h.belongs.1,fun _ => ⟨request,_,hlatest,hpending,hfails⟩⟩,
        Or.inr (Or.inr (Or.inl rfl)),hclosed _,hidle _,
        h.call.congr rfl rfl rfl (fun key heq => absurd heq (hcopying.1 key))
          fun heq => absurd heq hcopying.2⟩

theorem ThreadOk.congr (h : s.ThreadOk t) (hkey : s'.key = s.key) (hawake : s.Awake → s'.Awake)
    (htable : ∀ key count, t = some (.completed key count) →
      s'.pendingAddressTable = s.pendingAddressTable)
    (herror : ∀ key, t = some (.failed key) → s'.pendingIoError = s.pendingIoError) :
    s'.ThreadOk t := by
  have hcurrent : ∀ key, s.Current key → s'.Current key :=
    fun key hc => ⟨hc.1,hc.2.imp (fun heq => heq.trans hkey.symm) hawake⟩
  cases t with
  | none => trivial
  | some t =>
    cases t with
    | starting => trivial
    | sleeping => exact hawake h
    | woken => trivial
    | resolving key => exact hcurrent key h
    | resolved key result => exact hcurrent key h
    | completing key addresses => exact hcurrent key h
    | completed key count =>
      refine ⟨hcurrent key h.1,?_⟩
      rw [htable key count rfl]
      exact h.2
    | failing key => exact ⟨h.1,h.2.trans hkey.symm⟩
    | failed key => exact ⟨h.1,h.2.1.trans hkey.symm,(herror key rfl).trans h.2.2⟩

theorem ThreadOk.awake (h : s.ThreadOk t)
    (hfails : ∀ key, t ≠ some (.failing key) ∧ t ≠ some (.failed key)) (hawake : s'.Awake)
    (htable : s'.pendingAddressTable = s.pendingAddressTable) : s'.ThreadOk t := by
  cases t with
  | none => trivial
  | some t =>
    cases t with
    | starting => trivial
    | sleeping => exact hawake
    | woken => trivial
    | resolving key => exact ⟨h.1,Or.inr hawake⟩
    | resolved key result => exact ⟨h.1,Or.inr hawake⟩
    | completing key addresses => exact ⟨h.1,Or.inr hawake⟩
    | completed key count => exact ⟨⟨h.1.1,Or.inr hawake⟩,htable ▸ h.2⟩
    | failing key => exact absurd rfl (hfails key).1
    | failed key => exact absurd rfl (hfails key).2

theorem ThreadOk.not_failed (h : s.ThreadOk t) (hname : s.name = []) (key : LookupKey) :
    t ≠ some (.failing key) ∧ t ≠ some (.failed key) := by
  constructor
  · rintro rfl
    obtain ⟨hne,rfl⟩ := h
    exact hne hname
  · rintro rfl
    obtain ⟨hne,rfl,-⟩ := h
    exact hne hname

theorem Inv.cancelled (h : s.Inv system call)
    (hfails : ∀ key, s.thread ≠ some (.failing key) ∧ s.thread ≠ some (.failed key))
    (hcall : call ≠ some .closing) {latest : Option ResolveRequest} {call' : Option ResolverCall}
    (hcall' : ({ s.cancelled with latest } : HostNameResolver).CallOk system call') :
    ({ s.cancelled with latest } : HostNameResolver).Inv system call' where
  fields := fun hname => absurd rfl hname
  belongs := ⟨nofun,nofun⟩
  thread := h.thread.awake hfails (Or.inl rfl) rfl
  closed := h.closed
  idle := fun hs => Or.inl ((h.idle hs).resolve_right hcall)
  call := hcall'

theorem resolveTarget_ok {name : List Char} {addrFamily : ℕ} (hname : s.name = [])
    (hopen : s.isOpen = true) (hlatest : s.latest = some ⟨name,addrFamily⟩)
    (hok : s.NameOk system name) :
    s.CallOk system (some (resolveTarget system name addrFamily)) := by
  unfold NameOk at hok
  unfold resolveTarget
  cases htarget : system.target name with
  | numeric address =>
    rw [htarget] at hok
    exact ⟨hname,hopen,⟨addrFamily,hlatest⟩,htarget,hok⟩
  | invalidPort => exact ⟨hname,hopen,⟨addrFamily,hlatest⟩,htarget⟩
  | host host port =>
    rw [htarget] at hok
    obtain ⟨hhost,hlow,hhigh⟩ := hok
    refine ⟨hname,hopen,_,hlatest,hhost,rfl,port,htarget,hlow,hhigh,?_⟩
    rw [clamp_port hlow hhigh]

/-- What a call does keeps the invariant, under the condition. -/
theorem Inv.advance {call : ResolverCall} (h : s.Inv system (some call))
    (hstart : call.isStart = true → ∀ key, s.thread ≠ some (.failing key) ∧
      s.thread ≠ some (.failed key))
    (hcopy : ∀ key name address, call = .numericCaptured key name address →
      ∀ key count, s.thread ≠ some (.completed key count))
    {call' : Option ResolverCall} (hstep : s.advance system call = some (call',s')) :
    s'.Inv system call' := by
  cases call with
  | cancel =>
    cases hstep
    exact h.cancelled (hstart rfl) nofun nofun
  | close =>
    cases hstep
    exact ⟨fun hname => absurd rfl hname,⟨nofun,nofun⟩,h.thread.awake (hstart rfl) (Or.inl rfl) rfl,h.closed,
      fun _ => Or.inr rfl,nofun⟩
  | closing =>
    unfold HostNameResolver.advance at hstep
    dsimp only at hstep
    split_ifs at hstep with hthread
    cases hstep
    exact ⟨h.fields,h.belongs,h.thread,fun _ => hthread,fun _ => Or.inl hthread,h.call⟩
  | resolve name addrFamily hasCapability =>
    cases hasCapability with
    | false =>
      cases hstep
      exact h.cancelled (hstart rfl) nofun nofun
    | true =>
      cases hstep
      exact h.cancelled (hstart rfl) nofun ⟨rfl,rfl,h.call.1⟩
  | opening name addrFamily =>
    obtain ⟨hname,hlatest,hok⟩ := h.call
    unfold HostNameResolver.advance at hstep
    dsimp only at hstep
    cases hopen : s.isOpen with
    | true =>
      rw [hopen,if_pos rfl] at hstep
      cases hstep
      exact ⟨h.fields,h.belongs,h.thread,h.closed,
        fun hs => Or.inl ((h.idle hs).resolve_right nofun),resolveTarget_ok hname hopen hlatest hok⟩
    | false =>
      rw [hopen,if_neg Bool.false_ne_true] at hstep
      cases hstep
      have hthread := h.closed hopen
      refine ⟨h.fields,⟨nofun,nofun⟩,?_,nofun,fun _ => Or.inl hthread,
        resolveTarget_ok hname rfl hlatest hok⟩
      show s.opened.ThreadOk s.thread
      rw [hthread]
      trivial
  | numeric name address =>
    cases hstep
    obtain ⟨hname,hopen,hlatest,htarget,hport⟩ := h.call
    exact ⟨h.fields,h.belongs,h.thread,h.closed,
      fun hs => Or.inl ((h.idle hs).resolve_right nofun),hname,hopen,hlatest,htarget,hport,rfl⟩
  | numericCaptured key name address =>
    cases hstep
    obtain ⟨hname,hopen,⟨addrFamily,hlatest⟩,htarget,hport,hkey⟩ := h.call
    have hnot := hcopy key name address rfl
    exact ⟨h.fields,h.belongs,
      h.thread.congr rfl id (fun key count heq => absurd heq (hnot key count)) fun _ _ => rfl,
      h.closed,fun hs => Or.inl ((h.idle hs).resolve_right nofun),hname,hopen,
      ⟨⟨name,addrFamily⟩,address,hlatest,htarget,hport,rfl⟩,hkey,hnot⟩
  | numericDup key =>
    cases hstep
    obtain ⟨hname,hopen,⟨request,address,hlatest,htarget,hport,hpending⟩,rfl,hnot⟩ := h.call
    rw [if_neg (not_not.mpr rfl)]
    have hanswers : ∃ table, (s.publish system 1).addressTable = some table ∧
        system.Answers request table := by
      refine ⟨_,by rw [publish,hpending]; rfl,?_⟩
      unfold ResolverSystem.Answers
      rw [htarget]
      exact ⟨rfl,_,rfl,rfl,hport.symm⟩
    obtain ⟨table,htable,hanswers⟩ := hanswers
    refine ⟨h.fields,⟨fun _ => ⟨request,table,hlatest,htable,hanswers⟩,h.belongs.2⟩,
      h.thread.congr rfl (fun _ => Or.inl hname) (fun key count heq => absurd heq (hnot key count))
        fun _ _ => rfl,h.closed,fun hs => Or.inl ((h.idle hs).resolve_right nofun),?_⟩
    intro request' host port hlatest' htarget'
    cases hlatest.symm.trans hlatest'
    cases htarget.symm.trans htarget'
  | portError name =>
    cases hstep
    obtain ⟨hname,hopen,⟨addrFamily,hlatest⟩,htarget⟩ := h.call
    exact ⟨h.fields,h.belongs,
      h.thread.congr rfl id (fun _ _ _ => rfl)
        (fun key heq => absurd heq (h.thread.not_failed hname key).2),
      h.closed,fun hs => Or.inl ((h.idle hs).resolve_right nofun),hname,hopen,_,hlatest,htarget,rfl⟩
  | portErrorDup =>
    cases hstep
    obtain ⟨hname,hopen,request,hlatest,htarget,hpending⟩ := h.call
    have hfails : system.Fails request (.invalidPort request.name) := by
      unfold ResolverSystem.Fails
      rw [htarget]
    refine ⟨h.fields,⟨h.belongs.1,fun _ => ⟨request,_,hlatest,hpending,hfails⟩⟩,
      h.thread.congr rfl (fun _ => Or.inl hname) (fun _ _ _ => rfl)
        (fun key heq => absurd heq (h.thread.not_failed hname key).2),
      h.closed,fun hs => Or.inl ((h.idle hs).resolve_right nofun),?_⟩
    intro request' host port hlatest' htarget'
    cases hlatest.symm.trans hlatest'
    cases htarget.symm.trans htarget'
  | host name addrFamily port =>
    obtain ⟨hname,hopen,request,hlatest,hhost⟩ := h.call
    unfold HostNameResolver.advance at hstep
    dsimp only at hstep
    cases hstarted : s.isStarted with
    | true =>
      rw [hstarted,if_pos rfl] at hstep
      cases hstep
      exact ⟨fun _ => ⟨request,hlatest,hhost⟩,h.belongs,
        h.thread.awake (h.thread.not_failed hname) (awake_wakeIoThread system _) rfl,h.closed,
        nofun,fun _ _ _ _ _ => hhost.1⟩
    | false =>
      rw [hstarted,if_neg Bool.false_ne_true] at hstep
      cases hstep
      have hthread := (h.idle hstarted).resolve_right nofun
      refine ⟨fun _ => ⟨request,hlatest,hhost⟩,h.belongs,?_,h.closed,fun _ => Or.inl hthread,
        hhost.1,hopen⟩
      dsimp only
      rw [hthread]
      trivial
  | starting =>
    cases hstep
    obtain ⟨hname,hopen⟩ := h.call
    exact ⟨h.fields,h.belongs,trivial,fun hc => absurd (hopen.symm.trans hc) (by decide),nofun,
      fun _ _ _ _ _ => hname⟩

end HostNameResolver

namespace ResolverState

/-- At most one call is on its way. -/
def callsOf : Option (ℕ × ResolverCall) → ℕ → Option ResolverCall
  | none => fun _ => none
  | some (caller,call) => Function.update (fun _ => none) caller (some call)

theorem callsOf_some {phase : Option (ℕ × ResolverCall)} {caller : ℕ} {call : ResolverCall}
    (h : callsOf phase caller = some call) : phase = some (caller,call) := by
  cases phase with
  | none => cases h
  | some entry =>
    obtain ⟨caller',call'⟩ := entry
    rw [callsOf] at h
    by_cases heq : caller = caller'
    · subst heq
      rw [Function.update_self] at h
      cases h
      rfl
    · rw [Function.update_of_ne heq] at h
      cases h

theorem callsOf_none {phase : Option (ℕ × ResolverCall)}
    (h : ∀ caller, callsOf phase caller = none) : phase = none := by
  cases phase with
  | none => rfl
  | some entry =>
    have hnone := h entry.1
    rw [callsOf,Function.update_self] at hnone
    cases hnone

theorem callsOf_advance (caller : ℕ) (call : ResolverCall) (call' : Option ResolverCall) :
    Function.update (callsOf (some (caller,call))) caller call' =
      callsOf (call'.map fun call => (caller,call)) := by
  rw [callsOf,Function.update_idem]
  cases call' with
  | none => exact Function.update_eq_self caller _
  | some call' => rfl

structure Inv (system : ResolverSystem) (s : ResolverState) : Prop where
  phase : ∃ phase, s.calls = callsOf phase ∧ s.resolver.Inv system (phase.map Prod.snd)

theorem initial_inv : initial.Inv system :=
  ⟨none,rfl,HostNameResolver.initial_inv⟩

variable {s s' : ResolverState}

theorem Inv.step (h : s.Inv system) {a : ResolverAction} (hok : s.StepOk system a)
    (hstep : s.step system a = some s') : s'.Inv system := by
  obtain ⟨phase,hcalls,hinv⟩ := h
  cases a with
  | call caller call =>
    obtain ⟨hnone,hname⟩ := hok
    unfold ResolverState.step at hstep
    dsimp only at hstep
    split_ifs at hstep with hfree
    cases hstep
    obtain rfl := callsOf_none (hcalls ▸ hnone)
    refine ⟨some (caller,call),by rw [hcalls]; rfl,?_⟩
    refine ⟨hinv.fields,hinv.belongs,hinv.thread,hinv.closed,
      fun hs => Or.inl ((hinv.idle hs).resolve_right nofun),?_⟩
    cases call with
    | cancel => exact hinv.call
    | close => exact hinv.call
    | resolve name addrFamily hasCapability =>
      exact ⟨hname name addrFamily hasCapability rfl,hinv.call⟩
    | _ => cases hfree.1
  | advance caller =>
    unfold ResolverState.step at hstep
    dsimp only at hstep
    unfold StepOk at hok
    dsimp only at hok
    cases hcall : s.calls caller with
    | none =>
      rw [hcall] at hstep
      cases hstep
    | some call =>
      rw [hcall] at hstep hok
      obtain rfl := callsOf_some (hcalls ▸ hcall)
      obtain ⟨⟨call',resolver⟩,hadvance,rfl⟩ := Option.map_eq_some_iff.mp hstep
      refine ⟨call'.map fun call => (caller,call),by rw [hcalls]; exact callsOf_advance _ _ _,?_⟩
      have hinv' := HostNameResolver.Inv.advance hinv ?_ ?_ hadvance
      · cases call' with
        | none => exact hinv'
        | some call' => exact hinv'
      · intro hstart
        cases call with
        | cancel => exact hok
        | close => exact hok
        | resolve name addrFamily hasCapability => exact hok
        | _ => cases hstart
      · rintro key name address rfl
        exact hok
  | thread result =>
    obtain ⟨resolver,hresolver,rfl⟩ := Option.map_eq_some_iff.mp hstep
    refine ⟨phase,hcalls,hinv.ioThreadFunc (fun key addresses hthread key' hphase => ?_) hresolver⟩
    obtain ⟨⟨caller,call⟩,rfl,rfl⟩ := Option.map_eq_some_iff.mp hphase
    refine hok key addresses hthread caller key' ?_
    rw [hcalls]
    exact Function.update_self caller (some (ResolverCall.numericDup key')) fun _ => none

theorem Inv.proper (h : s.Inv system) : s.Proper system := by
  obtain ⟨phase,hcalls,hinv⟩ := h
  refine ⟨hinv.belongs,fun hnone => ?_⟩
  obtain rfl := callsOf_none (hcalls ▸ hnone)
  exact hinv.notLost

/-- The calls of a first request for a host, up to the start of the thread. -/
def firstRequest (name : List Char) : List ResolverAction :=
  [.call 0 (.resolve name 2 true),.advance 0,.advance 0,.advance 0,.advance 0]

end ResolverState
end Jancy.Io
