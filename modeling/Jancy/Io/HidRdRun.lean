import Jancy.Lib.Run
import Jancy.Io.HidStandaloneReport

/-! Runs of calls on an `HidRd` and standalone reports, with all their wrappers kept: when every
call gives the wrapper of the native object it is about. -/
namespace Jancy.Io
namespace HidSystem

structure Proper (s : HidSystem) : Prop where
  rd : s.rd.Proper
  standalones : ∀ k, (s.standalones k).Proper k

/-- An answer is the wrapper of a native object, or null if there is none. -/
def Answers (answer : HidAnswer) (make : ℕ → HidAnswer) (Has : ℕ → NativePtr → Prop)
    (target : Option NativePtr) : Prop :=
  ∃ result : Option ℕ, answer = result.elim .null make ∧ Option.Rel Has result target

def nativeField (s : HidSystem) : FieldRef → Option NativeField
  | .rd f => s.rd.nativeField f
  | .standalone k f => (s.standalones k).nativeField f

/-- No fault, the wrapper of the native object that a call is about, and null where there is none;
an item or usage is 0 when the native field is gone. -/
def AnswerOk (s s' : HidSystem) (answer : HidAnswer) : HidCall → Prop
  | .parse .. | .clear | .loadDecodeInfo .. => answer = .done
  | .findReport reportType reportId =>
      Answers answer .report s'.rd.HasReport (s.rd.reportFor reportType reportId)
  | .getReport reportType i =>
      Answers answer .report s'.rd.HasReport (s.rd.reportAt reportType i)
  | .reportGetField w i =>
      Answers answer (fun f => .field (.rd f)) s'.rd.HasField (s.rd.reportFieldAt w i)
  | .standaloneGetField k i =>
      Answers answer (fun f => .field (.standalone k f)) (s'.standalones k).HasField
        ((s.standalones k).fieldAt i)
  | .getCollection c i => Answers answer .collection s'.rd.HasChild (s.rd.childAt c i)
  | .collectionGetField c i =>
      Answers answer (fun f => .field (.rd f)) s'.rd.HasField (s.rd.collectionFieldAt c i)
  | .getItem f id => answer = .number ((s.nativeField f).elim 0 fun native => native.item id)
  | .getUsage f i => answer = .number ((s.nativeField f).elim 0 fun native => native.usage i)

/-- A call gives what it should, and leaves the wrappers as they should be. -/
def Right (s : HidSystem) (call : HidCall) : Prop :=
  s.AnswerOk (s.call call).2 (s.call call).1 call ∧ (s.call call).2.Proper

/-- The native field of a wrapper is still there. -/
def IsThere (s : HidSystem) : FieldRef → Prop
  | .rd f => ∀ p, (s.rd.fields.objects f).field = some p → s.rd.IsField p
  | .standalone k f => ∀ p, ((s.standalones k).fieldObjects f).field = some p →
      (s.standalones k).IsField p

/-- No index is the count of what is there, no item or usage is read of a native field that is gone,
no reload of a standalone report fails and leaves a native report that is not described, and none
leaves a wrapper in the place of a field that is asked for. -/
def StepOk (s : HidSystem) : HidCall → Prop
  | .loadDecodeInfo k _ native isLoaded =>
      isLoaded = false → (s.standalones k).hasReport = true → (s.standalones k).Describes native
  | .reportGetField w i => (s.rd.reports.objects w).report.isSome →
      i ≠ (s.rd.reports.objects w).fieldCount
  | .standaloneGetField k i => (s.standalones k).hasReport = true →
      i ≠ (s.standalones k).fieldCount ∧ (s.standalones k).IsCurrent i
  | .getCollection c i => (s.rd.collection c).collection.isSome →
      i ≠ (s.rd.collection c).collectionCount
  | .collectionGetField c i => (s.rd.collection c).collection.isSome →
      i ≠ (s.rd.collection c).fieldCount
  | .getItem f _ | .getUsage f _ => s.IsThere f
  | _ => True

structure Inv (s : HidSystem) : Prop where
  rd : s.rd.Inv
  standalones : ∀ k, (s.standalones k).Inv k

variable {s s' : HidSystem}

theorem initial_inv : initial.Inv :=
  ⟨HidRd.initial_inv,HidStandaloneReport.initial_inv⟩

theorem Inv.proper (h : s.Inv) : s.Proper :=
  ⟨h.rd.proper,fun k => (h.standalones k).proper⟩

theorem Inv.answerRd (h : s.Inv) {Has : HidRd → ℕ → NativePtr → Prop} {target : Option NativePtr}
    {result : Except HidFault (Option ℕ × HidRd)} (make : ℕ → HidAnswer)
    (hgives : s.rd.Gives Has target result) :
    Answers (s.answerRd make result).1 make (Has (s.answerRd make result).2.rd) target ∧
      (s.answerRd make result).2.Inv := by
  obtain ⟨answer,rd',rfl,hrd,-,hrel⟩ := hgives
  exact ⟨⟨answer,rfl,hrel⟩,hrd,h.standalones⟩

theorem Inv.update (h : s.Inv) {k : ℕ} {report : HidStandaloneReport} (hreport : report.Inv k) :
    Inv { s with standalones := Function.update s.standalones k report } := by
  refine ⟨h.rd,fun j => ?_⟩
  by_cases hj : j = k
  · subst hj
    simp only [Function.update_self]
    exact hreport
  · simp only [Function.update_of_ne hj]
    exact h.standalones j

theorem isRef {c : CollectionRef} {i : ℕ}
    (hobjects : s.hasObjects (.getCollection c i) = true) : s.rd.IsRef c := by
  cases c with
  | root => trivial
  | made w =>
    have hlt : w < s.rd.collections.count := of_decide_eq_true hobjects
    exact hlt

theorem isRef_field {c : CollectionRef} {i : ℕ}
    (hobjects : s.hasObjects (.collectionGetField c i) = true) : s.rd.IsRef c := by
  cases c with
  | root => trivial
  | made w =>
    have hlt : w < s.rd.collections.count := of_decide_eq_true hobjects
    exact hlt

/-- The native field of a wrapper is read for an item or a usage. -/
def readField (s : HidSystem) : FieldRef → Except HidFault (Option NativeField)
  | .rd f => s.rd.readField f
  | .standalone k f => (s.standalones k).readField f

theorem readField_ok {f : FieldRef} (hf : s.IsThere f) : s.readField f = .ok (s.nativeField f) := by
  cases f with
  | rd f => exact HidRd.readField_ok hf
  | standalone k f => exact HidStandaloneReport.readField_ok hf

theorem readField_error {f : FieldRef} (hf : ¬s.IsThere f) : s.readField f = .error .destroyed := by
  cases f with
  | rd f =>
    obtain ⟨p,hp⟩ := not_forall.mp hf
    obtain ⟨hp,hnot⟩ := Classical.not_imp.mp hp
    exact HidRd.readField_error hp hnot
  | standalone k f =>
    obtain ⟨p,hp⟩ := not_forall.mp hf
    obtain ⟨hp,hnot⟩ := Classical.not_imp.mp hp
    exact HidStandaloneReport.readField_error hp hnot

theorem call_getItem (s : HidSystem) (f : FieldRef) (id : BitVec 32) :
    s.call (.getItem f id) = s.answerNumber (do
      let native ← s.readField f
      .ok (native.elim 0 fun native => native.item id)) := by
  cases f <;> rfl

theorem call_getUsage (s : HidSystem) (f : FieldRef) (i : ℕ) :
    s.call (.getUsage f i) = s.answerNumber (do
      let native ← s.readField f
      .ok (native.elim 0 fun native => native.usage i)) := by
  cases f <;> rfl

theorem Inv.right (h : s.Inv) {call : HidCall} (hobjects : s.hasObjects call = true)
    (hok : s.StepOk call) :
    s.AnswerOk (s.call call).2 (s.call call).1 call ∧ (s.call call).2.Inv := by
  cases call with
  | parse db native => exact ⟨rfl,h.rd.parse db native,h.standalones⟩
  | clear => exact ⟨rfl,h.rd.clear,h.standalones⟩
  | loadDecodeInfo k db native isLoaded =>
    exact ⟨rfl,h.update ((h.standalones k).loadDecodeInfo hok)⟩
  | findReport reportType reportId =>
    exact h.answerRd .report (HidRd.findReport_gives h.rd reportType reportId)
  | getReport reportType i => exact h.answerRd .report (HidRd.getReport_gives h.rd reportType i)
  | reportGetField w i =>
    exact h.answerRd (fun f => .field (.rd f))
      (HidRd.reportGetField_gives h.rd (of_decide_eq_true hobjects) hok)
  | standaloneGetField k i =>
    obtain ⟨answer,report',heq,hinv,hrel⟩ :=
      HidStandaloneReport.getField_gives (h.standalones k) hok
    unfold HidSystem.call
    dsimp only
    rw [heq]
    refine ⟨⟨answer,rfl,?_⟩,h.update hinv⟩
    simp only [answerStandalone,Function.update_self]
    exact hrel
  | getCollection c i =>
    exact h.answerRd .collection (HidRd.collectionGetCollection_gives h.rd (isRef hobjects) hok)
  | collectionGetField c i =>
    exact h.answerRd (fun f => .field (.rd f))
      (HidRd.collectionGetField_gives h.rd (isRef_field hobjects) hok)
  | getItem f id =>
    rw [call_getItem,readField_ok hok]
    exact ⟨rfl,h⟩
  | getUsage f i =>
    rw [call_getUsage,readField_ok hok]
    exact ⟨rfl,h⟩

theorem not_answers_fault {e : HidFault} (make : ℕ → HidAnswer) {Has : ℕ → NativePtr → Prop}
    {target : Option NativePtr} (hmake : ∀ w, make w ≠ .fault e) :
    ¬Answers (.fault e) make Has target := by
  rintro ⟨result,heq,-⟩
  cases result with
  | none => cases heq
  | some w => exact hmake w heq.symm

theorem Inv.stepOk (h : s.Inv) {call : HidCall} (hobjects : s.hasObjects call = true)
    (hright : s.Right call) : s.StepOk call := by
  obtain ⟨hanswer,hproper⟩ := hright
  cases call with
  | parse db native => trivial
  | clear => trivial
  | findReport reportType reportId => trivial
  | getReport reportType i => trivial
  | loadDecodeInfo k db native isLoaded =>
    rintro rfl hreport
    have hdescribes := (hproper.standalones k).describes
    simp only [HidSystem.call,Function.update_self] at hdescribes
    have hd := hdescribes hreport
    exact ⟨hd.reportType,hd.reportId,hd.bitCount,hd.size,hd.fieldCount⟩
  | reportGetField w i =>
    rintro hsome rfl
    obtain ⟨p,hp⟩ := Option.isSome_iff_exists.mp hsome
    unfold HidSystem.call at hanswer
    dsimp only at hanswer
    rw [HidRd.reportGetField_end h.rd (of_decide_eq_true hobjects) hp] at hanswer
    exact not_answers_fault (fun f => .field (.rd f)) (fun _ => nofun) hanswer
  | getCollection c i =>
    rintro hsome rfl
    obtain ⟨p,hp⟩ := Option.isSome_iff_exists.mp hsome
    unfold HidSystem.call at hanswer
    dsimp only at hanswer
    rw [HidRd.collectionGetCollection_end h.rd (isRef hobjects) hp] at hanswer
    exact not_answers_fault .collection (fun _ => nofun) hanswer
  | collectionGetField c i =>
    rintro hsome rfl
    obtain ⟨p,hp⟩ := Option.isSome_iff_exists.mp hsome
    unfold HidSystem.call at hanswer
    dsimp only at hanswer
    rw [HidRd.collectionGetField_end h.rd (isRef_field hobjects) hp] at hanswer
    exact not_answers_fault (fun f => .field (.rd f)) (fun _ => nofun) hanswer
  | standaloneGetField k i =>
    intro hreport
    unfold HidSystem.call at hanswer
    dsimp only at hanswer
    refine ⟨?_,fun f p hslot hp => ?_⟩
    · rintro rfl
      rw [HidStandaloneReport.getField_end (h.standalones k) hreport] at hanswer
      exact not_answers_fault (fun f => .field (.standalone k f)) (fun _ => nofun) hanswer
    · rw [HidStandaloneReport.getField_cached (h.standalones k) hreport hslot] at hanswer
      obtain ⟨result,heq,hrel⟩ := hanswer
      simp only [answerStandalone,Function.update_self] at heq hrel
      cases result with
      | none => cases heq
      | some f' =>
        cases heq
        unfold HidStandaloneReport.fieldAt at hrel
        split_ifs at hrel
        · cases hrel with
          | some hhas =>
            rw [hhas.2] at hp
            cases hp
            rfl
        · cases hrel
  | getItem f id =>
    by_contra hnot
    rw [call_getItem,readField_error hnot] at hanswer
    cases hanswer
  | getUsage f i =>
    by_contra hnot
    rw [call_getUsage,readField_error hnot] at hanswer
    cases hanswer

/-- In every run each call is right exactly if each meets the condition. -/
theorem right_iff_stepOk (calls : List HidCall) :
    Run.Along step Right initial calls ↔ Run.Along step StepOk initial calls := by
  refine Run.along_iff_along (I := Inv) (fun s call s' h hstep => ?_) (fun s call s' h hok hstep => ?_)
    initial_inv calls
  · have hobjects : s.hasObjects call = true := by
      unfold step at hstep
      split_ifs at hstep with hobjects
      exact hobjects
    refine ⟨h.stepOk hobjects,fun hok => ?_⟩
    obtain ⟨hanswer,hinv⟩ := h.right hobjects hok
    exact ⟨hanswer,hinv.proper⟩
  · unfold step at hstep
    split_ifs at hstep with hobjects
    cases hstep
    exact (h.right hobjects hok).2

def oneFieldRd : NativeRd where
  flags := 0
  reports := [⟨1,0,8,1,[0]⟩]
  fields := [⟨0,none,8,2,0,1,fun _ => 7,fun _ => 5⟩]
  collections := [⟨0,none,0,[],[0]⟩]
  root := Nat.zero_lt_one
  fieldReport := fun field h => by
    rw [List.mem_singleton.mp h]
    exact Nat.zero_lt_one
  reportFields := fun report h => by
    rw [List.mem_singleton.mp h]
    exact fun i hi => List.mem_singleton.mp hi ▸ Nat.zero_lt_one
  collectionFields := fun collection h => by
    rw [List.mem_singleton.mp h]
    exact fun i hi => List.mem_singleton.mp hi ▸ Nat.zero_lt_one
  children := fun collection h => by
    rw [List.mem_singleton.mp h]
    exact fun i hi => absurd hi List.not_mem_nil

def oneFieldReport : NativeStandaloneReport :=
  ⟨1,0,8,1,[⟨0,none,8,2,0,1,fun _ => 7,fun _ => 5⟩]⟩

/-- A report, the root collection and a standalone report are asked for what is one past the end; an
item is read of a field that a clear has destroyed; and a standalone report that is loaded again
gives the wrapper of before. -/
theorem not_always_right :
    ¬Run.Along step Right initial [.parse 0 oneFieldRd,.getReport 1 0,.reportGetField 0 1] ∧
    ¬Run.Along step Right initial [.parse 0 oneFieldRd,.getCollection .root 0] ∧
    ¬Run.Along step Right initial [.parse 0 oneFieldRd,.collectionGetField .root 1] ∧
    ¬Run.Along step Right initial
      [.parse 0 oneFieldRd,.collectionGetField .root 0,.clear,.getItem (.rd 0) 0] ∧
    ¬Run.Along step Right initial [.loadDecodeInfo 0 0 oneFieldReport true,.standaloneGetField 0 0,
      .loadDecodeInfo 0 0 oneFieldReport true,.standaloneGetField 0 0] := by
  refine ⟨fun h => ?_,fun h => ?_,fun h => ?_,fun h => ?_,fun h => ?_⟩
  · obtain ⟨result,heq,-⟩ := (h.2.2.1).1
    cases result <;> cases heq
  · obtain ⟨result,heq,-⟩ := (h.2.1).1
    cases result <;> cases heq
  · obtain ⟨result,heq,-⟩ := (h.2.1).1
    cases result <;> cases heq
  · have hitem := (h.2.2.2.1).1
    cases hitem
  · obtain ⟨result,heq,hrel⟩ := (h.2.2.2.1).1
    cases result with
    | none => cases heq
    | some f =>
      cases heq
      cases hrel with
      | some hhas => cases hhas.2

end HidSystem
end Jancy.Io
