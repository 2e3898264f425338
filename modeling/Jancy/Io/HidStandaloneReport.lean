import Jancy.Io.HidRdWrappers

/-! `io.HidStandaloneReport`: a report that is loaded on its own, with the wrappers of its fields;
and the calls of a program on one `HidRd` and standalone reports. -/
namespace Jancy.Io

/-- `axl::io::HidStandaloneReport`. -/
structure NativeStandaloneReport where
  reportType : ℕ
  reportId : ℕ
  bitCount : ℕ
  size : ℕ
  fields : List NativeField

/-- The report has its native report once `loadDecodeInfo` has succeeded; `fieldObjects` are all
wrappers it ever made, the first `fieldObjectCount` of them. -/
structure HidStandaloneReport where
  reportType : ℕ
  reportId : ℕ
  bitCount : ℕ
  size : ℕ
  fieldCount : ℕ
  hasReport : Bool
  db : Option ℕ
  native : NativeStandaloneReport
  generation : ℕ
  fieldArray : List (Option ℕ)
  fieldObjects : ℕ → HidReportField
  fieldObjectCount : ℕ

namespace HidStandaloneReport

def initial : HidStandaloneReport where
  reportType := 0
  reportId := 0
  bitCount := 0
  size := 0
  fieldCount := 0
  hasReport := false
  db := none
  native := ⟨0,0,0,0,[]⟩
  generation := 0
  fieldArray := []
  fieldObjects := fun _ => .blank
  fieldObjectCount := 0

/-- `sl::Array::setCountZeroConstruct`: elements that are there stay, new ones are null. -/
def setCountZeroConstruct {α : Type*} (array : List (Option α)) (count : ℕ) : List (Option α) :=
  array.take count ++ List.replicate (count - array.length) none

/-- The native report is loaded anew in any case, with its fields destroyed before. -/
def loadDecodeInfo (report : HidStandaloneReport) (db : ℕ) (native : NativeStandaloneReport)
    (isLoaded : Bool) : HidStandaloneReport :=
  let report := { report with native := native, generation := report.generation + 1 }
  if isLoaded then
    { report with
      db := some db
      hasReport := true
      reportType := native.reportType
      reportId := native.reportId
      bitCount := native.bitCount
      size := native.size
      fieldCount := native.fields.length
      fieldArray := setCountZeroConstruct report.fieldArray native.fields.length }
  else report

/-- The `self`th report; a result is a wrapper, or null. -/
def getFieldImpl (report : HidStandaloneReport) (self i : ℕ) :
    Except HidFault (Option ℕ × HidStandaloneReport) :=
  if i ≥ report.fieldCount then .ok (none,report)
  else
    match report.fieldArray[i]? with
    | none => .error .pastEnd
    | some (some f) => .ok (some f,report)
    | some none =>
        match report.native.fields[i]? with
        | none => .error .pastEnd
        | some field =>
            let f := report.fieldObjectCount
            .ok (some f,{ report with
              fieldObjects := Function.update report.fieldObjects f
                (HidReportField.init self report.db ⟨report.generation,i⟩ field)
              fieldObjectCount := f + 1
              fieldArray := report.fieldArray.set i (some f) })

/-- `HidReport::getField`, for a standalone report: the field is read out of the array first. -/
def getField (report : HidStandaloneReport) (self i : ℕ) :
    Except HidFault (Option ℕ × HidStandaloneReport) :=
  if !report.hasReport || i > report.fieldCount then .ok (none,report)
  else
    match report.native.fields[i]? with
    | none => .error .pastEnd
    | some _ => report.getFieldImpl self i

def readField (report : HidStandaloneReport) (f : ℕ) : Except HidFault (Option NativeField) :=
  match (report.fieldObjects f).field with
  | none => .ok none
  | some p =>
      if p.generation = report.generation then
        match report.native.fields[p.index]? with
        | none => .error .destroyed
        | some field => .ok (some field)
      else .error .destroyed

def getItem (report : HidStandaloneReport) (f : ℕ) (id : BitVec 32) : Except HidFault ℕ := do
  let native ← report.readField f
  .ok (native.elim 0 fun native => native.item id)

def getUsage (report : HidStandaloneReport) (f i : ℕ) : Except HidFault ℕ := do
  let native ← report.readField f
  .ok (native.elim 0 fun native => native.usage i)

end HidStandaloneReport

/-- A field wrapper of the `HidRd`, or of a standalone report. -/
inductive FieldRef where
  | rd (f : ℕ)
  | standalone (k f : ℕ)
  deriving DecidableEq, Repr

inductive HidCall where
  | parse (db : ℕ) (native : NativeRd)
  | clear
  | loadDecodeInfo (k db : ℕ) (native : NativeStandaloneReport) (isLoaded : Bool)
  | findReport (reportType reportId : ℕ)
  | getReport (reportType i : ℕ)
  | reportGetField (w i : ℕ)
  | standaloneGetField (k i : ℕ)
  | getCollection (collection : CollectionRef) (i : ℕ)
  | collectionGetField (collection : CollectionRef) (i : ℕ)
  | getItem (field : FieldRef) (id : BitVec 32)
  | getUsage (field : FieldRef) (i : ℕ)

inductive HidAnswer where
  | done
  | null
  | report (w : ℕ)
  | field (f : FieldRef)
  | collection (c : ℕ)
  | number (value : ℕ)
  | fault (e : HidFault)
  deriving DecidableEq, Repr

/-- One `HidRd` and any number of standalone reports. -/
structure HidSystem where
  rd : HidRd
  standalones : ℕ → HidStandaloneReport

namespace HidSystem

def initial : HidSystem :=
  ⟨.initial,fun _ => .initial⟩

def hasObjects (s : HidSystem) : HidCall → Bool
  | .reportGetField w _ => w < s.rd.reports.count
  | .getCollection (.made w) _ | .collectionGetField (.made w) _ => w < s.rd.collections.count
  | .getItem (.rd f) _ | .getUsage (.rd f) _ => f < s.rd.fields.count
  | .getItem (.standalone k f) _ | .getUsage (.standalone k f) _ =>
      f < (s.standalones k).fieldObjectCount
  | _ => true

/-- A wrapper or null, of the `HidRd`. -/
def answerRd (s : HidSystem) (answer : ℕ → HidAnswer) :
    Except HidFault (Option ℕ × HidRd) → HidAnswer × HidSystem
  | .error e => (.fault e,s)
  | .ok (result,rd) => (result.elim .null answer,{ s with rd := rd })

def answerStandalone (s : HidSystem) (k : ℕ) :
    Except HidFault (Option ℕ × HidStandaloneReport) → HidAnswer × HidSystem
  | .error e => (.fault e,s)
  | .ok (result,report) => (result.elim .null fun f => .field (.standalone k f),
      { s with standalones := Function.update s.standalones k report })

def answerNumber (s : HidSystem) : Except HidFault ℕ → HidAnswer × HidSystem
  | .error e => (.fault e,s)
  | .ok value => (.number value,s)

def call (s : HidSystem) : HidCall → HidAnswer × HidSystem
  | .parse db native => (.done,{ s with rd := s.rd.parse db native })
  | .clear => (.done,{ s with rd := s.rd.clear })
  | .loadDecodeInfo k db native isLoaded => (.done,{ s with
      standalones := Function.update s.standalones k
        ((s.standalones k).loadDecodeInfo db native isLoaded) })
  | .findReport reportType reportId => s.answerRd .report (s.rd.findReport reportType reportId)
  | .getReport reportType i => s.answerRd .report (s.rd.getReport reportType i)
  | .reportGetField w i => s.answerRd (fun f => .field (.rd f)) (s.rd.reportGetField w i)
  | .standaloneGetField k i => s.answerStandalone k ((s.standalones k).getField k i)
  | .getCollection c i => s.answerRd .collection (s.rd.collectionGetCollection c i)
  | .collectionGetField c i =>
      s.answerRd (fun f => .field (.rd f)) (s.rd.collectionGetField c i)
  | .getItem (.rd f) id => s.answerNumber (s.rd.getItem f id)
  | .getItem (.standalone k f) id => s.answerNumber ((s.standalones k).getItem f id)
  | .getUsage (.rd f) i => s.answerNumber (s.rd.getUsage f i)
  | .getUsage (.standalone k f) i => s.answerNumber ((s.standalones k).getUsage f i)

def step (s : HidSystem) (call : HidCall) : Option HidSystem :=
  if s.hasObjects call then some (s.call call).2 else none

end HidSystem

/-! The field wrappers of a standalone report, over its reloads. -/
namespace HidStandaloneReport

def IsField (report : HidStandaloneReport) (p : NativePtr) : Prop :=
  p.generation = report.generation ∧ p.index < report.native.fields.length

def HasField (report : HidStandaloneReport) (f : ℕ) (p : NativePtr) : Prop :=
  f < report.fieldObjectCount ∧ (report.fieldObjects f).field = some p

def FieldOk (report : HidStandaloneReport) (k : ℕ) (p : NativePtr) (field : HidReportField) :
    Prop :=
  ∃ native, report.native.fields[p.index]? = some native ∧
    field = HidReportField.init k report.db p native

structure Describes (report : HidStandaloneReport) (native : NativeStandaloneReport) : Prop where
  reportType : report.reportType = native.reportType
  reportId : report.reportId = native.reportId
  bitCount : report.bitCount = native.bitCount
  size : report.size = native.size
  fieldCount : report.fieldCount = native.fields.length

/-- The report describes its native one, and so does the wrapper of each field that is still
there; no field has two. -/
structure Proper (report : HidStandaloneReport) (k : ℕ) : Prop where
  describes : report.hasReport = true → report.Describes report.native
  fields : ∀ f p, report.HasField f p → report.IsField p →
    report.FieldOk k p (report.fieldObjects f)
  oneField : ∀ f f' p, report.HasField f p → report.HasField f' p → report.IsField p → f = f'

structure Inv (report : HidStandaloneReport) (k : ℕ) : Prop where
  describes : report.hasReport = true → report.Describes report.native
  array : report.fieldArray.length = report.fieldCount
  slots : ∀ i f, report.fieldArray[i]? = some (some f) →
    ∃ p, report.HasField f p ∧ p.index = i
  older : ∀ f p, report.HasField f p → p.generation ≤ report.generation
  current : ∀ f p, report.HasField f p → p.generation = report.generation →
    report.fieldArray[p.index]? = some (some f) ∧ report.FieldOk k p (report.fieldObjects f)

variable {report : HidStandaloneReport} {k : ℕ}

theorem initial_inv (k : ℕ) : initial.Inv k :=
  ⟨nofun,rfl,nofun,fun _ _ h => absurd h.1 (Nat.not_lt_zero _),
    fun _ _ h => absurd h.1 (Nat.not_lt_zero _)⟩

theorem Inv.proper (h : report.Inv k) : report.Proper k where
  describes := h.describes
  fields := fun f p hf his => (h.current f p hf his.1).2
  oneField := fun f f' p hf hf' his =>
    Option.some.inj (Option.some.inj
      ((h.current f p hf his.1).1.symm.trans (h.current f' p hf' his.1).1))

theorem setCountZeroConstruct_length {α : Type*} (array : List (Option α)) (count : ℕ) :
    (setCountZeroConstruct array count).length = count := by
  unfold setCountZeroConstruct
  rw [List.length_append,List.length_take,List.length_replicate]
  omega

theorem setCountZeroConstruct_some {α : Type*} {array : List (Option α)} {count i : ℕ} {a : α}
    (h : (setCountZeroConstruct array count)[i]? = some (some a)) : array[i]? = some (some a) := by
  unfold setCountZeroConstruct at h
  rw [List.getElem?_append] at h
  split_ifs at h with hi
  · rw [List.length_take] at hi
    rw [List.getElem?_take_of_lt (by omega)] at h
    exact h
  · rw [List.getElem?_replicate] at h
    split_ifs at h
    cases h

theorem Inv.loadDecodeInfo (h : report.Inv k) {db : ℕ} {native : NativeStandaloneReport}
    {isLoaded : Bool}
    (hok : isLoaded = false → report.hasReport = true → report.Describes native) :
    (report.loadDecodeInfo db native isLoaded).Inv k := by
  have hlater : ∀ f p, report.HasField f p → p.generation < report.generation + 1 :=
    fun f p hf => Nat.lt_succ_of_le (h.older f p hf)
  cases isLoaded with
  | true =>
    refine ⟨fun _ => ⟨rfl,rfl,rfl,rfl,rfl⟩,setCountZeroConstruct_length _ _,fun i f hf => ?_,
      fun f p hf => Nat.le_of_lt (hlater f p hf),
      fun f p hf heq => absurd heq (Nat.ne_of_lt (hlater f p hf))⟩
    exact h.slots i f (setCountZeroConstruct_some hf)
  | false =>
    refine ⟨fun hreport => ?_,h.array,h.slots,fun f p hf => Nat.le_of_lt (hlater f p hf),
      fun f p hf heq => absurd heq (Nat.ne_of_lt (hlater f p hf))⟩
    have hdescribes := hok rfl hreport
    exact ⟨hdescribes.reportType,hdescribes.reportId,hdescribes.bitCount,hdescribes.size,
      hdescribes.fieldCount⟩

/-- The native field that a call of `getField` is about. -/
def fieldAt (report : HidStandaloneReport) (i : ℕ) : Option NativePtr :=
  if report.hasReport && i < report.native.fields.length then some ⟨report.generation,i⟩ else none

/-- The wrapper in the array is of the fields that are there now. -/
def IsCurrent (report : HidStandaloneReport) (i : ℕ) : Prop :=
  ∀ f p, report.fieldArray[i]? = some (some f) → (report.fieldObjects f).field = some p →
    p.generation = report.generation

theorem Inv.make (h : report.Inv k) {i : ℕ} (hslot : report.fieldArray[i]? = some none)
    {native : NativeField} (hnative : report.native.fields[i]? = some native) :
    Inv { report with
      fieldObjects := Function.update report.fieldObjects report.fieldObjectCount
        (HidReportField.init k report.db ⟨report.generation,i⟩ native)
      fieldObjectCount := report.fieldObjectCount + 1
      fieldArray := report.fieldArray.set i (some report.fieldObjectCount) } k := by
  have hi : i < report.fieldArray.length := (List.getElem?_eq_some_iff.mp hslot).1
  have hold : ∀ f p, f ≠ report.fieldObjectCount → f < report.fieldObjectCount + 1 →
      (report.fieldObjects f).field = some p → report.HasField f p := fun f p hne hf hp =>
    ⟨Nat.lt_of_le_of_ne (Nat.le_of_lt_succ hf) hne,hp⟩
  refine ⟨fun hreport => ?_,?_,fun j f hf => ?_,?_,?_⟩
  · have hdescribes := h.describes hreport
    exact ⟨hdescribes.reportType,hdescribes.reportId,hdescribes.bitCount,hdescribes.size,
      hdescribes.fieldCount⟩
  · dsimp only
    rw [List.length_set]
    exact h.array
  · by_cases hj : j = i
    · subst hj
      rw [List.getElem?_set_self hi] at hf
      cases hf
      exact ⟨⟨report.generation,j⟩,⟨Nat.lt_succ_self _,by
        simp only [Function.update_self]
        rfl⟩,rfl⟩
    · rw [List.getElem?_set_ne (Ne.symm hj)] at hf
      obtain ⟨p,⟨hlt,hp⟩,hindex⟩ := h.slots j f hf
      refine ⟨p,⟨Nat.lt_succ_of_lt hlt,?_⟩,hindex⟩
      simp only [Function.update_of_ne (Nat.ne_of_lt hlt)]
      exact hp
  · rintro f p ⟨hf,hp⟩
    by_cases hne : f = report.fieldObjectCount
    · simp only [hne,Function.update_self] at hp
      cases hp
      exact Nat.le_refl _
    · simp only [Function.update_of_ne hne] at hp
      exact h.older f p (hold f p hne hf hp)
  · rintro f p ⟨hf,hp⟩ hgeneration
    by_cases hne : f = report.fieldObjectCount
    · simp only [hne,Function.update_self] at hp ⊢
      cases hp
      exact ⟨List.getElem?_set_self hi,native,hnative,rfl⟩
    · simp only [Function.update_of_ne hne] at hp ⊢
      obtain ⟨harray,hok⟩ := h.current f p (hold f p hne hf hp) hgeneration
      refine ⟨?_,hok⟩
      rw [List.getElem?_set_ne]
      · exact harray
      · rintro rfl
        rw [hslot] at harray
        cases harray

theorem getField_gives (h : report.Inv k) {i : ℕ}
    (hi : report.hasReport = true → i ≠ report.fieldCount ∧ report.IsCurrent i) :
    ∃ answer report', report.getField k i = .ok (answer,report') ∧ report'.Inv k ∧
      Option.Rel report'.HasField answer (report.fieldAt i) := by
  unfold getField fieldAt
  cases hreport : report.hasReport with
  | false => exact ⟨none,report,rfl,h,.none⟩
  | true =>
    obtain ⟨hne,hcurrent⟩ := hi hreport
    have hcount := (h.describes hreport).fieldCount
    by_cases hgt : i > report.fieldCount
    · refine ⟨none,report,?_,h,?_⟩
      · rw [if_pos (by simpa using hgt)]
      · rw [if_neg (by simp; omega)]
        exact .none
    · have hlt : i < report.fieldCount := Nat.lt_of_le_of_ne (Nat.le_of_not_lt hgt) hne
      obtain ⟨native,hnative⟩ := HidRd.exists_getElem? (hcount ▸ hlt)
      obtain ⟨slot,hslot⟩ := HidRd.exists_getElem? (h.array.symm ▸ hlt)
      rw [if_neg (by simpa using Nat.le_of_not_lt hgt),hnative,
        if_pos (by simpa using hcount ▸ hlt)]
      unfold getFieldImpl
      dsimp only
      rw [if_neg (Nat.not_le_of_lt hlt),hslot]
      cases slot with
      | some f =>
        obtain ⟨p,hhas,hindex⟩ := h.slots i f hslot
        have hp : p = ⟨report.generation,i⟩ := by
          rw [← hcurrent f p hslot hhas.2,← hindex]
        exact ⟨some f,report,rfl,h,.some (hp ▸ hhas)⟩
      | none =>
        rw [hnative]
        refine ⟨_,_,rfl,h.make hslot hnative,.some ⟨Nat.lt_succ_self _,?_⟩⟩
        simp only [Function.update_self]
        rfl

theorem getField_end (h : report.Inv k) (hreport : report.hasReport = true) :
    report.getField k report.fieldCount = .error .pastEnd := by
  unfold getField
  rw [hreport,List.getElem?_eq_none (Nat.le_of_eq (h.describes hreport).fieldCount.symm)]
  simp only [Bool.not_true,Bool.false_or,gt_iff_lt,Nat.lt_irrefl,decide_false,Bool.false_eq_true,
    if_false]

theorem getField_cached (h : report.Inv k) (hreport : report.hasReport = true) {i f : ℕ}
    (hslot : report.fieldArray[i]? = some (some f)) :
    report.getField k i = .ok (some f,report) := by
  have hlt : i < report.fieldCount := h.array ▸ (List.getElem?_eq_some_iff.mp hslot).1
  obtain ⟨native,hnative⟩ :=
    HidRd.exists_getElem? ((h.describes hreport).fieldCount ▸ hlt)
  unfold getField getFieldImpl
  rw [hreport,if_neg (by simpa using Nat.le_of_lt hlt),hnative]
  dsimp only
  rw [if_neg (Nat.not_le_of_lt hlt),hslot]

/-- The native field of a wrapper, if it is still there. -/
def nativeField (report : HidStandaloneReport) (f : ℕ) : Option NativeField :=
  (report.fieldObjects f).field.bind fun p =>
    if p.generation = report.generation then report.native.fields[p.index]? else none

theorem readField_ok {f : ℕ}
    (hf : ∀ p, (report.fieldObjects f).field = some p → report.IsField p) :
    report.readField f = .ok (report.nativeField f) := by
  unfold readField nativeField
  cases hp : (report.fieldObjects f).field with
  | none => rfl
  | some p =>
    have his := hf p hp
    obtain ⟨native,hnative⟩ := HidRd.exists_getElem? his.2
    dsimp only
    rw [if_pos his.1,hnative,Option.bind_some,if_pos his.1,hnative]

theorem readField_error {f : ℕ} {p : NativePtr} (hp : (report.fieldObjects f).field = some p)
    (hnot : ¬report.IsField p) : report.readField f = .error .destroyed := by
  unfold readField
  rw [hp]
  dsimp only
  split_ifs with hgeneration
  · rw [List.getElem?_eq_none (Nat.le_of_not_lt fun hlt => hnot ⟨hgeneration,hlt⟩)]
  · rfl

end HidStandaloneReport
end Jancy.Io
