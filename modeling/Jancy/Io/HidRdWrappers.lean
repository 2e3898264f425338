import Jancy.Io.HidRd

/-! The wrappers of an `HidRd`: every call keeps one wrapper for each native object, and gives it. -/
namespace Jancy.Io
namespace HidRd

def IsReport (rd : HidRd) (p : NativePtr) : Prop :=
  p.generation = rd.generation ∧ p.index < rd.native.reports.length

def IsField (rd : HidRd) (p : NativePtr) : Prop :=
  p.generation = rd.generation ∧ p.index < rd.native.fields.length

/-- Other than the root collection. -/
def IsChild (rd : HidRd) (p : NativePtr) : Prop :=
  p.generation = rd.generation ∧ 0 < p.index ∧ p.index < rd.native.collections.length

/-- The wrapper describes the native object. -/
def ReportOk (rd : HidRd) (p : NativePtr) (report : HidReport) : Prop :=
  ∃ native, rd.native.reports[p.index]? = some native ∧ report = HidReport.init p native

def FieldOk (rd : HidRd) (p : NativePtr) (field : HidReportField) : Prop :=
  ∃ native, rd.native.fields[p.index]? = some native ∧
    ∃ r, rd.reports.Has HidReport.report r ⟨p.generation,native.report⟩ ∧
      field = HidReportField.init r rd.db p native

/-- Its array, once it is filled, has the wrappers of the children. -/
def CollectionOk (rd : HidRd) (p : NativePtr) (collection : HidRdCollection) : Prop :=
  ∃ native, rd.native.collections[p.index]? = some native ∧
    collection = HidRdCollection.init collection rd.db p native ∧
    (collection.collectionArray = [] ∨
      rd.collections.Shows HidRdCollection.collection collection.collectionArray
        (native.collections.map fun i => ⟨p.generation,i⟩))

structure Inv (rd : HidRd) : Prop where
  reports : rd.reports.Inv HidReport.report rd.IsReport rd.ReportOk
  fields : rd.fields.Inv HidReportField.field rd.IsField rd.FieldOk
  collections : rd.collections.Inv HidRdCollection.collection rd.IsChild rd.CollectionOk
  reportKeys : rd.reports.Keys HidReport.report rd.IsReport
  fieldKeys : rd.fields.Keys HidReportField.field fun p => p.generation ≤ rd.generation
  collectionKeys : rd.collections.Keys HidRdCollection.collection rd.IsChild
  root : rd.rootCollection = .detached ∨ rd.CollectionOk ⟨rd.generation,0⟩ rd.rootCollection
  table : ∀ t, rd.reportTable t = [] ∨ rd.reports.Shows HidReport.report (rd.reportTable t)
    (rd.ptrs (rd.native.reportMap (t + 1)))
  db : 1 < rd.native.collections.length → rd.db.isSome

/-- The native objects stay, and wrappers are only made. -/
structure Grows (rd rd' : HidRd) : Prop where
  native : rd'.native = rd.native
  generation : rd'.generation = rd.generation
  db : rd'.db = rd.db
  reports : Registry.Extends HidReport.report rd.reports rd'.reports
  fields : Registry.Extends HidReportField.field rd.fields rd'.fields
  collections : Registry.Extends HidRdCollection.collection rd.collections rd'.collections

variable {rd rd' : HidRd} {p : NativePtr}

theorem Grows.refl (rd : HidRd) : Grows rd rd :=
  ⟨rfl,rfl,rfl,.refl _ _,.refl _ _,.refl _ _⟩

theorem Grows.trans {rd'' : HidRd} (h : Grows rd rd') (h' : Grows rd' rd'') : Grows rd rd'' :=
  ⟨h'.native.trans h.native,h'.generation.trans h.generation,h'.db.trans h.db,
    h.reports.trans h'.reports,h.fields.trans h'.fields,h.collections.trans h'.collections⟩

theorem read_ok {α : Type*} {objects : List α} {object : α} (hp : p.generation = rd.generation)
    (hobject : objects[p.index]? = some object) : rd.read objects p = .ok object := by
  unfold read
  rw [if_pos hp,hobject]

theorem read_error {α : Type*} {objects : List α}
    (h : ¬(p.generation = rd.generation ∧ p.index < objects.length)) :
    rd.read objects p = .error .destroyed := by
  unfold read
  split_ifs with hp
  · rw [List.getElem?_eq_none (Nat.le_of_not_lt fun hlt => h ⟨hp,hlt⟩)]
  · rfl

theorem FieldOk.grows {field : HidReportField} (h : rd.FieldOk p field) (hgrows : Grows rd rd') :
    rd'.FieldOk p field := by
  obtain ⟨native,hnative,r,hr,heq⟩ := h
  refine ⟨native,hgrows.native ▸ hnative,r,hr.extends hgrows.reports,?_⟩
  rw [hgrows.db]
  exact heq

theorem CollectionOk.grows {collection : HidRdCollection} (h : rd.CollectionOk p collection)
    (hgrows : Grows rd rd') : rd'.CollectionOk p collection := by
  obtain ⟨native,hnative,heq,harray⟩ := h
  refine ⟨native,hgrows.native ▸ hnative,?_,harray.imp id fun h => h.extends hgrows.collections⟩
  rw [hgrows.db]
  exact heq

variable {i : ℕ}

theorem exists_getElem? {α : Type*} {objects : List α} (h : i < objects.length) :
    ∃ object, objects[i]? = some object :=
  ⟨objects[i],List.getElem?_eq_getElem h⟩

theorem getReportImpl_ok (h : rd.Inv) (hp : rd.IsReport p) : ∃ w rd',
    rd.getReportImpl p = .ok (w,rd') ∧ rd'.Inv ∧ Grows rd rd' ∧ rd'.fields = rd.fields ∧
      rd'.reports.Has HidReport.report w p := by
  unfold getReportImpl
  cases hfind : rd.reports.find p with
  | some w =>
    obtain ⟨hw,hkey,-,-⟩ := h.reports.mapped p w (Registry.mem_of_find hfind)
    exact ⟨w,rd,rfl,h,.refl rd,rfl,hw,hkey⟩
  | none =>
    obtain ⟨native,hnative⟩ := exists_getElem? hp.2
    dsimp only
    rw [read_ok hp.1 hnative]
    have hext : Registry.Extends HidReport.report rd.reports
        (rd.reports.add p (HidReport.init p native)) := Registry.extends_add _ _
    have hgrows : Grows rd { rd with reports := rd.reports.add p (HidReport.init p native) } :=
      ⟨rfl,rfl,rfl,hext,.refl _ _,.refl _ _⟩
    refine ⟨_,_,rfl,?_,hgrows,rfl,Registry.has_add rfl⟩
    exact ⟨h.reports.add hfind hp rfl ⟨native,hnative,rfl⟩,
      h.fields.mono fun _ _ hok => hok.grows hgrows,h.collections,h.reportKeys.add rfl hp,
      h.fieldKeys,h.collectionKeys,h.root,fun t => (h.table t).imp id fun h => h.extends hext,h.db⟩

theorem getField_ok (h : rd.Inv) (hp : rd.IsField p) : ∃ f rd',
    rd.getField p = .ok (f,rd') ∧ rd'.Inv ∧ Grows rd rd' ∧
      rd'.fields.Has HidReportField.field f p := by
  unfold getField
  cases hfind : rd.fields.find p with
  | some f =>
    obtain ⟨hf,hkey,-,-⟩ := h.fields.mapped p f (Registry.mem_of_find hfind)
    exact ⟨f,rd,rfl,h,.refl rd,hf,hkey⟩
  | none =>
    obtain ⟨native,hnative⟩ := exists_getElem? hp.2
    dsimp only
    rw [read_ok hp.1 hnative]
    have hreport : rd.IsReport ⟨p.generation,native.report⟩ :=
      ⟨hp.1,rd.native.fieldReport _ (List.mem_of_getElem? hnative)⟩
    obtain ⟨r,rd₁,hr,h₁,hgrows₁,hfields,hhas⟩ := getReportImpl_ok h hreport
    have hp₁ : rd₁.IsField p := ⟨hp.1.trans hgrows₁.generation.symm,by
      rw [hgrows₁.native]
      exact hp.2⟩
    have hext : Registry.Extends HidReportField.field rd₁.fields
        (rd₁.fields.add p (HidReportField.init r rd₁.db p native)) := Registry.extends_add _ _
    have hgrows : Grows rd₁ { rd₁ with
        fields := rd₁.fields.add p (HidReportField.init r rd₁.db p native) } :=
      ⟨rfl,rfl,rfl,.refl _ _,hext,.refl _ _⟩
    have hok : rd₁.FieldOk p (HidReportField.init r rd₁.db p native) :=
      ⟨native,hgrows₁.native ▸ hnative,r,hhas,rfl⟩
    refine ⟨rd₁.fields.count,{ rd₁ with
      fields := rd₁.fields.add p (HidReportField.init r rd₁.db p native) },?_,?_,
      hgrows₁.trans hgrows,Registry.has_add rfl⟩
    · simp only [bind,Except.bind,hr]
    · exact ⟨h₁.reports,h₁.fields.add (hfields ▸ hfind) hp₁ rfl hok,h₁.collections,
        h₁.reportKeys,h₁.fieldKeys.add rfl (Nat.le_of_eq hp₁.1),h₁.collectionKeys,h₁.root,h₁.table,
        h₁.db⟩

theorem getCollection_ok (h : rd.Inv) (hp : rd.IsChild p) : ∃ c rd',
    rd.getCollection p = .ok (c,rd') ∧ rd'.Inv ∧ Grows rd rd' ∧
      rd'.rootCollection = rd.rootCollection ∧
      rd'.collections.Has HidRdCollection.collection c p := by
  unfold getCollection
  cases hfind : rd.collections.find p with
  | some c =>
    obtain ⟨hc,hkey,-,-⟩ := h.collections.mapped p c (Registry.mem_of_find hfind)
    exact ⟨c,rd,rfl,h,.refl rd,rfl,hc,hkey⟩
  | none =>
    obtain ⟨native,hnative⟩ := exists_getElem? hp.2.2
    dsimp only
    rw [read_ok hp.1 hnative]
    have hdb : rd.db.isNone = false := by
      rw [← Option.not_isSome,h.db (Nat.lt_of_le_of_lt hp.2.1 hp.2.2)]
      rfl
    have hext : Registry.Extends HidRdCollection.collection rd.collections
        (rd.collections.add p (HidRdCollection.init .detached rd.db p native)) :=
      Registry.extends_add _ _
    have hgrows : Grows rd { rd with
        collections := rd.collections.add p (HidRdCollection.init .detached rd.db p native) } :=
      ⟨rfl,rfl,rfl,.refl _ _,.refl _ _,hext⟩
    have hok : rd.CollectionOk p (HidRdCollection.init .detached rd.db p native) :=
      ⟨native,hnative,rfl,Or.inl rfl⟩
    refine ⟨rd.collections.count,{ rd with
      collections := rd.collections.add p (HidRdCollection.init .detached rd.db p native) },?_,?_,
      hgrows,rfl,Registry.has_add rfl⟩
    · show (if native.usagePage.isSome && rd.db.isNone then Except.error HidFault.nullDb else _) = _
      rw [hdb,Bool.and_false]
      rfl
    · exact ⟨h.reports,h.fields,
        (h.collections.add hfind hp rfl hok).mono fun _ _ hok => hok.grows hgrows,h.reportKeys,
        h.fieldKeys,h.collectionKeys.add rfl hp,h.root.imp id fun hok => hok.grows hgrows,h.table,
        h.db⟩

theorem fill_ok (get : HidRd → NativePtr → Except HidFault (ℕ × HidRd))
    (Native : HidRd → NativePtr → Prop) (Has : HidRd → ℕ → NativePtr → Prop)
    (Same : HidRd → HidRd → Prop)
    (hget : ∀ rd p, Inv rd → Native rd p → ∃ w rd', get rd p = .ok (w,rd') ∧ rd'.Inv ∧
      Grows rd rd' ∧ Same rd rd' ∧ Has rd' w p)
    (hnative : ∀ rd rd' p, Grows rd rd' → Native rd p → Native rd' p)
    (hhas : ∀ rd rd' w p, Grows rd rd' → Has rd w p → Has rd' w p)
    (hrefl : ∀ rd, Same rd rd) (htrans : ∀ rd rd' rd'', Same rd rd' → Same rd' rd'' → Same rd rd'')
    (h : rd.Inv) (ps : List NativePtr) (hps : ∀ p ∈ ps, Native rd p) : ∃ ws rd',
      rd.fill get ps = .ok (ws,rd') ∧ rd'.Inv ∧ Grows rd rd' ∧ Same rd rd' ∧
        List.Forall₂ (Has rd') ws ps := by
  induction ps generalizing rd with
  | nil => exact ⟨[],rd,rfl,h,.refl rd,hrefl rd,.nil⟩
  | cons p ps ih =>
    obtain ⟨w,rd₁,hw,h₁,hgrows₁,hsame₁,hhas₁⟩ := hget rd p h (hps p List.mem_cons_self)
    obtain ⟨ws,rd₂,hws,h₂,hgrows₂,hsame₂,hhas₂⟩ := ih h₁ fun q hq =>
      hnative rd rd₁ q hgrows₁ (hps q (List.mem_cons_of_mem p hq))
    refine ⟨w :: ws,rd₂,?_,h₂,hgrows₁.trans hgrows₂,htrans _ _ _ hsame₁ hsame₂,
      .cons (hhas _ _ w p hgrows₂ hhas₁) hhas₂⟩
    unfold fill
    rw [hw]
    simp only [bind,Except.bind,hws]

/-- The wrapper of a native object is given, or null if there is none. -/
def Gives (rd : HidRd) (Has : HidRd → ℕ → NativePtr → Prop) (target : Option NativePtr)
    (result : Except HidFault (Option ℕ × HidRd)) : Prop :=
  ∃ answer rd', result = .ok (answer,rd') ∧ rd'.Inv ∧ Grows rd rd' ∧ Option.Rel (Has rd') answer target

def HasReport (rd : HidRd) : ℕ → NativePtr → Prop :=
  rd.reports.Has HidReport.report

def HasField (rd : HidRd) : ℕ → NativePtr → Prop :=
  rd.fields.Has HidReportField.field

def HasChild (rd : HidRd) : ℕ → NativePtr → Prop :=
  rd.collections.Has HidRdCollection.collection

/-- The native report that a call of `getReport` is about. -/
def reportAt (rd : HidRd) (reportType i : ℕ) : Option NativePtr :=
  if isValidReportType reportType then (rd.ptrs (rd.native.reportMap reportType))[i]? else none

def reportFor (rd : HidRd) (reportType reportId : ℕ) : Option NativePtr :=
  if isValidReportType reportType then
    (rd.native.findReport reportType reportId).map fun i => ⟨rd.generation,i⟩
  else none

def reportFieldAt (rd : HidRd) (w i : ℕ) : Option NativePtr :=
  (rd.reports.objects w).report.bind fun p => rd.native.reports[p.index]?.bind fun native =>
    (rd.ptrs native.fields)[i]?

def childAt (rd : HidRd) (ref : CollectionRef) (i : ℕ) : Option NativePtr :=
  (rd.collection ref).collection.bind fun p => rd.native.collections[p.index]?.bind fun native =>
    (rd.ptrs native.collections)[i]?

def collectionFieldAt (rd : HidRd) (ref : CollectionRef) (i : ℕ) : Option NativePtr :=
  (rd.collection ref).collection.bind fun p => rd.native.collections[p.index]?.bind fun native =>
    (rd.ptrs native.fields)[i]?

def IsRef (rd : HidRd) : CollectionRef → Prop
  | .root => True
  | .made w => w < rd.collections.count

theorem mem_reportMap {native : NativeRd} {reportType i : ℕ} (h : i ∈ native.reportMap reportType) :
    i < native.reports.length :=
  List.mem_range.mp (List.mem_filter.mp h).1

theorem getReport_gives (h : rd.Inv) (reportType i : ℕ) :
    rd.Gives HasReport (rd.reportAt reportType i) (rd.getReport reportType i) := by
  unfold getReport reportAt
  cases hvalid : isValidReportType reportType with
  | false => exact ⟨none,rd,rfl,h,.refl rd,.none⟩
  | true =>
    have hsucc : reportType - 1 + 1 = reportType :=
      Nat.sub_add_cancel (of_decide_eq_true (Bool.and_eq_true_iff.mp hvalid).1)
    simp only [if_true]
    split_ifs with hlt hge
    · have hshows := (h.table (reportType - 1)).resolve_left fun hnil => by
        rw [hnil] at hlt
        exact Nat.not_lt_zero _ hlt
      rw [hsucc] at hshows
      exact ⟨_,rd,rfl,h,.refl rd,hshows.getElem? i⟩
    · refine ⟨none,rd,rfl,h,.refl rd,?_⟩
      unfold ptrs
      rw [List.getElem?_map,List.getElem?_eq_none hge]
      exact .none
    · obtain ⟨ws,rd',hfill,h',hgrows,-,hhas⟩ :=
        fill_ok getReportImpl IsReport HasReport (fun _ _ => True)
          (fun rd p h hp =>
            let ⟨w,rd',hw,h',hgrows,_,hhas⟩ := getReportImpl_ok h hp
            ⟨w,rd',hw,h',hgrows,trivial,hhas⟩)
          (fun rd rd' p hgrows hp => ⟨hp.1.trans hgrows.generation.symm,hgrows.native ▸ hp.2⟩)
          (fun rd rd' w p hgrows hhas => hhas.extends hgrows.reports) (fun _ => trivial)
          (fun _ _ _ _ _ => trivial) h (rd.ptrs (rd.native.reportMap reportType)) (by
            intro p hp
            obtain ⟨j,hj,rfl⟩ := List.mem_map.mp hp
            exact ⟨rfl,mem_reportMap hj⟩)
      rw [hfill]
      have hshows : rd'.reports.Shows HidReport.report ws
          (rd.ptrs (rd.native.reportMap reportType)) := hhas
      refine ⟨ws[i]?,_,rfl,?_,?_,hshows.getElem? i⟩
      · refine ⟨h'.reports,h'.fields,h'.collections,h'.reportKeys,h'.fieldKeys,h'.collectionKeys,
          h'.root,fun t => ?_,h'.db⟩
        simp only [Function.update_apply]
        split_ifs with ht
        · refine Or.inr ?_
          rw [ht,hsucc]
          unfold ptrs
          rw [hgrows.generation,hgrows.native]
          exact hshows
        · exact h'.table t
      · exact ⟨hgrows.native,hgrows.generation,hgrows.db,hgrows.reports,hgrows.fields,
          hgrows.collections⟩

theorem findReport_gives (h : rd.Inv) (reportType reportId : ℕ) :
    rd.Gives HasReport (rd.reportFor reportType reportId) (rd.findReport reportType reportId) := by
  unfold findReport reportFor
  cases isValidReportType reportType with
  | false => exact ⟨none,rd,rfl,h,.refl rd,.none⟩
  | true =>
    cases hfind : rd.native.findReport reportType reportId with
    | none => exact ⟨none,rd,rfl,h,.refl rd,.none⟩
    | some i =>
      have hi : i < rd.native.reports.length :=
        List.mem_range.mp (List.mem_of_find?_eq_some hfind)
      obtain ⟨w,rd',hw,h',hgrows,-,hhas⟩ :=
        getReportImpl_ok (p := ⟨rd.generation,i⟩) h ⟨rfl,hi⟩
      refine ⟨some w,rd',?_,h',hgrows,.some hhas⟩
      simp only [bind,Except.bind,hw,if_true]

theorem getFieldAt_gives (h : rd.Inv) {fields : List ℕ}
    (hfields : ∀ j ∈ fields, j < rd.native.fields.length) (hi : i < fields.length) :
    rd.Gives HasField (rd.ptrs fields)[i]? (rd.getFieldAt rd.generation fields i) := by
  obtain ⟨j,hj⟩ := exists_getElem? hi
  obtain ⟨f,rd',hf,h',hgrows,hhas⟩ :=
    getField_ok (p := ⟨rd.generation,j⟩) h ⟨rfl,hfields j (List.mem_of_getElem? hj)⟩
  unfold getFieldAt ptrs
  rw [List.getElem?_map,hj]
  refine ⟨some f,rd',?_,h',hgrows,.some hhas⟩
  simp only [bind,Except.bind,hf]

theorem getFieldAt_end {fields : List ℕ} (hi : fields.length ≤ i) (generation : ℕ) :
    rd.getFieldAt generation fields i = .error .pastEnd := by
  unfold getFieldAt
  rw [List.getElem?_eq_none hi]

theorem ptrs_getElem?_eq_none {indices : List ℕ} (h : indices.length ≤ i) :
    (rd.ptrs indices)[i]? = none := by
  unfold ptrs
  rw [List.getElem?_map,List.getElem?_eq_none h]
  rfl

theorem Inv.report (h : rd.Inv) {w : ℕ} (hw : w < rd.reports.count)
    (hp : (rd.reports.objects w).report = some p) : rd.IsReport p ∧
      ∃ native, rd.native.reports[p.index]? = some native ∧
        (rd.reports.objects w).fieldCount = native.fields.length := by
  have his := h.reportKeys w p hw hp
  obtain ⟨native,hnative,heq⟩ := h.reports.good his hw hp
  exact ⟨his,native,hnative,congrArg HidReport.fieldCount heq⟩

theorem Inv.root_index (h : rd.Inv) (hp : rd.rootCollection.collection = some p) :
    p = ⟨rd.generation,0⟩ := by
  cases h.root with
  | inl hdetached =>
    rw [hdetached] at hp
    cases hp
  | inr hok =>
    obtain ⟨native,-,heq,-⟩ := hok
    rw [heq] at hp
    exact (Option.some.inj hp).symm

variable {ref : CollectionRef}

theorem Inv.collectionOk (h : rd.Inv) (href : rd.IsRef ref)
    (hp : (rd.collection ref).collection = some p) :
    p.generation = rd.generation ∧ rd.CollectionOk p (rd.collection ref) := by
  cases ref with
  | root =>
    obtain rfl := h.root_index hp
    refine ⟨rfl,h.root.resolve_left fun hdetached => ?_⟩
    change rd.rootCollection.collection = some _ at hp
    rw [hdetached] at hp
    cases hp
  | made w =>
    have his := h.collectionKeys w p href hp
    exact ⟨his.1,h.collections.good his href hp⟩

theorem reportGetField_gives (h : rd.Inv) {w i : ℕ} (hw : w < rd.reports.count)
    (hi : (rd.reports.objects w).report.isSome → i ≠ (rd.reports.objects w).fieldCount) :
    rd.Gives HasField (rd.reportFieldAt w i) (rd.reportGetField w i) := by
  unfold reportGetField reportFieldAt
  dsimp only
  cases hp : (rd.reports.objects w).report with
  | none => exact ⟨none,rd,rfl,h,.refl rd,.none⟩
  | some p =>
    obtain ⟨his,native,hnative,hcount⟩ := h.report hw hp
    have hne := hi (hp ▸ rfl)
    rw [hcount] at hne
    rw [hcount]
    simp only [Option.bind_some,hnative]
    split_ifs with hgt
    · rw [ptrs_getElem?_eq_none (Nat.le_of_lt hgt)]
      exact ⟨none,rd,rfl,h,.refl rd,.none⟩
    · rw [read_ok his.1 hnative,his.1]
      exact getFieldAt_gives h (rd.native.reportFields native (List.mem_of_getElem? hnative))
        (Nat.lt_of_le_of_ne (Nat.le_of_not_lt hgt) hne)

theorem reportGetField_end (h : rd.Inv) {w : ℕ} (hw : w < rd.reports.count)
    (hp : (rd.reports.objects w).report = some p) :
    rd.reportGetField w (rd.reports.objects w).fieldCount = .error .pastEnd := by
  obtain ⟨his,native,hnative,hcount⟩ := h.report hw hp
  unfold reportGetField
  dsimp only
  rw [hp]
  dsimp only
  rw [if_neg (Nat.lt_irrefl _),read_ok his.1 hnative]
  exact getFieldAt_end (Nat.le_of_eq hcount.symm) _

theorem collectionGetField_gives (h : rd.Inv) (href : rd.IsRef ref)
    (hi : (rd.collection ref).collection.isSome → i ≠ (rd.collection ref).fieldCount) :
    rd.Gives HasField (rd.collectionFieldAt ref i) (rd.collectionGetField ref i) := by
  unfold collectionGetField collectionFieldAt
  dsimp only
  cases hp : (rd.collection ref).collection with
  | none => exact ⟨none,rd,rfl,h,.refl rd,.none⟩
  | some p =>
    obtain ⟨hgeneration,native,hnative,heq,-⟩ := h.collectionOk href hp
    have hcount : (rd.collection ref).fieldCount = native.fields.length :=
      congrArg HidRdCollection.fieldCount heq
    have hne := hi (hp ▸ rfl)
    rw [hcount] at hne
    rw [hcount]
    simp only [Option.bind_some,hnative]
    split_ifs with hgt
    · rw [ptrs_getElem?_eq_none (Nat.le_of_lt hgt)]
      exact ⟨none,rd,rfl,h,.refl rd,.none⟩
    · rw [read_ok hgeneration hnative,hgeneration]
      exact getFieldAt_gives h (rd.native.collectionFields native (List.mem_of_getElem? hnative))
        (Nat.lt_of_le_of_ne (Nat.le_of_not_lt hgt) hne)

theorem collectionGetField_end (h : rd.Inv) (href : rd.IsRef ref)
    (hp : (rd.collection ref).collection = some p) :
    rd.collectionGetField ref (rd.collection ref).fieldCount = .error .pastEnd := by
  obtain ⟨hgeneration,native,hnative,heq,-⟩ := h.collectionOk href hp
  have hcount : (rd.collection ref).fieldCount = native.fields.length :=
    congrArg HidRdCollection.fieldCount heq
  unfold collectionGetField
  dsimp only
  rw [hp]
  dsimp only
  rw [if_neg (Nat.lt_irrefl _),read_ok hgeneration hnative]
  exact getFieldAt_end (Nat.le_of_eq hcount.symm) _

variable {native : NativeCollection}

section

variable (h : rd.Inv)

include h

theorem setCollectionArray_inv (href : rd.IsRef ref) (hp : (rd.collection ref).collection = some p)
    (hnative : rd.native.collections[p.index]? = some native) {ws : List ℕ}
    (hws : List.Forall₂ (HasChild rd) ws (native.collections.map fun i => ⟨p.generation,i⟩)) :
    (rd.setCollectionArray ref ws).Inv ∧ Grows rd (rd.setCollectionArray ref ws) := by
  have hset : ∀ q collection, collection.collection = some p → rd.CollectionOk q collection →
      rd.CollectionOk q { collection with collectionArray := ws } := by
    rintro q collection hq ⟨native',hnative',heq,-⟩
    obtain rfl : q = p := by
      rw [heq] at hq
      exact Option.some.inj hq
    obtain rfl : native' = native := Option.some.inj (hnative'.symm.trans hnative)
    refine ⟨native',hnative',?_,Or.inr hws⟩
    conv_lhs => rw [heq]
    rfl
  cases ref with
  | root =>
    have hgrows : Grows rd (rd.setCollectionArray .root ws) :=
      ⟨rfl,rfl,rfl,.refl _ _,.refl _ _,.refl _ _⟩
    refine ⟨⟨h.reports,h.fields,h.collections,h.reportKeys,h.fieldKeys,h.collectionKeys,
      Or.inr (hset _ _ hp ?_),h.table,h.db⟩,hgrows⟩
    refine h.root.resolve_left fun hdetached => ?_
    change rd.rootCollection.collection = some p at hp
    rw [hdetached] at hp
    cases hp
  | made w =>
    have hext : Registry.Extends HidRdCollection.collection rd.collections
        (rd.collections.modify w fun collection => { collection with collectionArray := ws }) :=
      Registry.extends_modify rfl
    have hgrows : Grows rd (rd.setCollectionArray (.made w) ws) :=
      ⟨rfl,rfl,rfl,.refl _ _,.refl _ _,hext⟩
    have hcollections : (rd.collections.modify w fun collection =>
        { collection with collectionArray := ws }).Inv HidRdCollection.collection rd.IsChild
          rd.CollectionOk :=
      h.collections.modify rfl fun q hok => hset q _ hp hok
    refine ⟨⟨h.reports,h.fields,hcollections.mono fun _ _ hok => hok.grows hgrows,h.reportKeys,
      h.fieldKeys,fun v q hv hq => ?_,h.root.imp id fun hok => hok.grows hgrows,h.table,h.db⟩,
      hgrows⟩
    exact h.collectionKeys v q hv ((hgrows.collections.key v hv).symm.trans hq)

theorem childrenAt_eq (href : rd.IsRef ref) (hp : (rd.collection ref).collection = some p)
    (hnative : rd.native.collections[p.index]? = some native) (i : ℕ) :
    rd.childAt ref i = (native.collections.map fun i => (⟨p.generation,i⟩ : NativePtr))[i]? := by
  unfold childAt
  rw [hp]
  simp only [Option.bind_some,hnative,ptrs,(h.collectionOk href hp).1]

theorem collectionArray_length (href : rd.IsRef ref) (hp : (rd.collection ref).collection = some p)
    (hi : i < (rd.collection ref).collectionArray.length) :
    (rd.collection ref).collectionArray.length = (rd.collection ref).collectionCount ∧
      Option.Rel (HasChild rd) (rd.collection ref).collectionArray[i]? (rd.childAt ref i) := by
  obtain ⟨hgeneration,native,hnative,heq,harray⟩ := h.collectionOk href hp
  have hshows := harray.resolve_left fun hnil => by
    rw [hnil] at hi
    exact Nat.not_lt_zero _ hi
  have hlength := List.Forall₂.length_eq hshows
  rw [List.length_map] at hlength
  refine ⟨hlength.trans (congrArg HidRdCollection.collectionCount heq).symm,?_⟩
  rw [childrenAt_eq h href hp hnative]
  exact hshows.getElem? i

theorem fillCollections (hnative : native ∈ rd.native.collections) : ∃ ws rd',
      rd.fill getCollection (native.collections.map fun i => ⟨rd.generation,i⟩) = .ok (ws,rd') ∧
        rd'.Inv ∧ Grows rd rd' ∧ rd'.rootCollection = rd.rootCollection ∧
        List.Forall₂ (HasChild rd') ws (native.collections.map fun i => ⟨rd.generation,i⟩) :=
  fill_ok getCollection IsChild HasChild (fun rd rd' => rd'.rootCollection = rd.rootCollection)
    (fun _ _ h hp => getCollection_ok h hp)
    (fun _ _ _ hgrows hp => ⟨hp.1.trans hgrows.generation.symm,hgrows.native ▸ hp.2⟩)
    (fun _ _ _ _ hgrows hhas => hhas.extends hgrows.collections) (fun _ => rfl)
    (fun _ _ _ hsame hsame' => hsame'.trans hsame) h _ (by
      intro p hp
      obtain ⟨j,hj,rfl⟩ := List.mem_map.mp hp
      exact ⟨rfl,rd.native.children native hnative j hj⟩)

/-- A call that fills the array: of an index below the count, or at it. -/
theorem collectionGetCollection_fill (href : rd.IsRef ref)
    (hp : (rd.collection ref).collection = some p) (hle : ¬i > (rd.collection ref).collectionCount)
    (hnot : ¬i < (rd.collection ref).collectionArray.length) : ∃ (ws : List ℕ) (rd' : HidRd),
      rd'.Inv ∧ Grows rd rd' ∧ ws.length = (rd.collection ref).collectionCount ∧
      Option.Rel (HasChild rd') ws[i]? (rd.childAt ref i) ∧
      rd.collectionGetCollection ref i =
        match ws[i]? with
        | none => .error .pastEnd
        | some w => .ok (some w,rd') := by
  obtain ⟨hgeneration,native,hnative,heq,-⟩ := h.collectionOk href hp
  have hcount : (rd.collection ref).collectionCount = native.collections.length :=
    congrArg HidRdCollection.collectionCount heq
  obtain ⟨ws,rd₁,hfill,h₁,hgrows₁,hroot,hhas⟩ :=
    fillCollections h (List.mem_of_getElem? hnative)
  rw [← hgeneration] at hfill hhas
  have href₁ : rd₁.IsRef ref := by
    cases ref with
    | root => trivial
    | made w => exact Nat.lt_of_lt_of_le href hgrows₁.collections.count
  have hp₁ : (rd₁.collection ref).collection = some p := by
    cases ref with
    | root => exact (congrArg HidRdCollection.collection hroot).trans hp
    | made w => exact (hgrows₁.collections.key w href).trans hp
  obtain ⟨h₂,hgrows₂⟩ :=
    setCollectionArray_inv h₁ href₁ hp₁ (hgrows₁.native ▸ hnative) hhas
  have hlength := List.Forall₂.length_eq hhas
  rw [List.length_map] at hlength
  have hshows : rd₁.collections.Shows HidRdCollection.collection ws
      (native.collections.map fun i => ⟨p.generation,i⟩) := hhas
  refine ⟨ws,_,h₂,hgrows₁.trans hgrows₂,hlength.trans hcount.symm,?_,?_⟩
  · rw [childrenAt_eq h href hp hnative]
    exact (hshows.extends hgrows₂.collections).getElem? i
  · unfold collectionGetCollection
    dsimp only
    rw [hp]
    dsimp only
    rw [if_neg hle,if_neg hnot,read_ok hgeneration hnative]
    show (if native.collections.length ≠ (rd.collection ref).collectionCount then _ else _) = _
    rw [if_neg (not_not.mpr hcount.symm),hfill]
    show (match ws[i]? with
      | none => _
      | some w => _) = _
    cases ws[i]? <;> rfl

theorem collectionGetCollection_gives (href : rd.IsRef ref)
    (hi : (rd.collection ref).collection.isSome → i ≠ (rd.collection ref).collectionCount) :
    rd.Gives HasChild (rd.childAt ref i) (rd.collectionGetCollection ref i) := by
  cases hp : (rd.collection ref).collection with
  | none =>
    unfold collectionGetCollection childAt
    dsimp only
    rw [hp]
    exact ⟨none,rd,rfl,h,.refl rd,.none⟩
  | some p =>
    have hne := hi (hp ▸ rfl)
    by_cases hgt : i > (rd.collection ref).collectionCount
    · obtain ⟨-,native,hnative,heq,-⟩ := h.collectionOk href hp
      have hcount : (rd.collection ref).collectionCount = native.collections.length :=
        congrArg HidRdCollection.collectionCount heq
      refine ⟨none,rd,?_,h,.refl rd,?_⟩
      · unfold collectionGetCollection
        dsimp only
        rw [hp]
        exact if_pos hgt
      · rw [childrenAt_eq h href hp hnative,List.getElem?_map,
          List.getElem?_eq_none (hcount ▸ Nat.le_of_lt hgt)]
        exact .none
    · by_cases hlt : i < (rd.collection ref).collectionArray.length
      · refine ⟨_,rd,?_,h,.refl rd,(collectionArray_length h href hp hlt).2⟩
        unfold collectionGetCollection
        dsimp only
        rw [hp]
        dsimp only
        rw [if_neg hgt,if_pos hlt]
      · obtain ⟨ws,rd',h',hgrows,hlength,hrel,heq⟩ :=
          collectionGetCollection_fill h href hp hgt hlt
        obtain ⟨w,hw⟩ := exists_getElem? (hlength ▸ Nat.lt_of_le_of_ne (Nat.le_of_not_lt hgt) hne)
        rw [hw] at heq hrel
        exact ⟨some w,rd',heq,h',hgrows,hrel⟩

theorem collectionGetCollection_end (href : rd.IsRef ref)
    (hp : (rd.collection ref).collection = some p) :
    rd.collectionGetCollection ref (rd.collection ref).collectionCount = .error .pastEnd := by
  have hnot : ¬(rd.collection ref).collectionCount <
      (rd.collection ref).collectionArray.length := by
    intro hlt
    rw [(collectionArray_length h href hp hlt).1] at hlt
    exact Nat.lt_irrefl _ hlt
  obtain ⟨ws,rd',-,-,hlength,-,heq⟩ :=
    collectionGetCollection_fill h href hp (Nat.lt_irrefl _) hnot
  rw [heq,List.getElem?_eq_none (Nat.le_of_eq hlength)]

end

/-- The native field of a wrapper, if it is still there. -/
def nativeField (rd : HidRd) (f : ℕ) : Option NativeField :=
  (rd.fields.objects f).field.bind fun p =>
    if p.generation = rd.generation then rd.native.fields[p.index]? else none

theorem readField_ok {f : ℕ}
    (hf : ∀ p, (rd.fields.objects f).field = some p → rd.IsField p) :
    rd.readField f = .ok (rd.nativeField f) := by
  unfold readField nativeField
  cases hp : (rd.fields.objects f).field with
  | none => rfl
  | some p =>
    have his := hf p hp
    obtain ⟨native,hnative⟩ := exists_getElem? his.2
    dsimp only
    rw [read_ok his.1 hnative,Option.bind_some,if_pos his.1,hnative]
    rfl

theorem readField_error {f : ℕ} (hp : (rd.fields.objects f).field = some p)
    (hnot : ¬rd.IsField p) : rd.readField f = .error .destroyed := by
  unfold readField
  rw [hp]
  dsimp only
  rw [read_error hnot]
  rfl

/-- No wrapper is left with a native report or collection, and none in a map or an array. -/
structure Blank (rd : HidRd) : Prop where
  reportMap : rd.reports.map = []
  fieldMap : rd.fields.map = []
  collectionMap : rd.collections.map = []
  reportKeys : ∀ w, w < rd.reports.count → (rd.reports.objects w).report = none
  fieldKeys : rd.fields.Keys HidReportField.field fun p => p.generation < rd.generation
  collectionKeys : ∀ c, c < rd.collections.count → (rd.collections.objects c).collection = none
  table : ∀ t, rd.reportTable t = []

theorem Blank.inv (h : rd.Blank)
    (hroot : rd.rootCollection = .detached ∨ rd.CollectionOk ⟨rd.generation,0⟩ rd.rootCollection)
    (hdb : 1 < rd.native.collections.length → rd.db.isSome) : rd.Inv where
  reports := Registry.inv_of_map_nil h.reportMap fun w k hw hkey => by
    rw [h.reportKeys w hw] at hkey
    cases hkey
  fields := Registry.inv_of_map_nil h.fieldMap fun f p hf hp his =>
    Nat.ne_of_lt (h.fieldKeys f p hf hp) his.1
  collections := Registry.inv_of_map_nil h.collectionMap fun c k hc hkey => by
    rw [h.collectionKeys c hc] at hkey
    cases hkey
  reportKeys := fun w k hw hkey => by
    rw [h.reportKeys w hw] at hkey
    cases hkey
  fieldKeys := fun f p hf hp => Nat.le_of_lt (h.fieldKeys f p hf hp)
  collectionKeys := fun c k hc hkey => by
    rw [h.collectionKeys c hc] at hkey
    cases hkey
  root := hroot
  table := fun t => Or.inl (h.table t)
  db := hdb

theorem initial_inv : initial.Inv :=
  ⟨Registry.empty_inv _,Registry.empty_inv _,Registry.empty_inv _,
    fun _ _ h => absurd h (Nat.not_lt_zero _),fun _ _ h => absurd h (Nat.not_lt_zero _),
    fun _ _ h => absurd h (Nat.not_lt_zero _),Or.inl rfl,fun _ => Or.inl rfl,
    fun h => absurd h (Nat.lt_irrefl 1)⟩

theorem Inv.clear_blank (h : rd.Inv) : rd.clear.Blank where
  reportMap := rfl
  fieldMap := rfl
  collectionMap := rfl
  reportKeys := fun _ hw => h.reports.clear_key h.reportKeys HidReport.detach (fun _ => rfl) (fun _ => rfl) _ hw
  fieldKeys := fun f p hf hp => by
    have hkey : HidReportField.field (rd.clear.fields.objects f) = (rd.fields.objects f).field :=
      Registry.clear_key_eq HidReportField.detach (fun _ => rfl) (fun _ => rfl) [] f
    exact Nat.lt_succ_of_le (h.fieldKeys f p hf (hkey.symm.trans hp))
  collectionKeys := fun _ hc =>
    h.collections.clear_key h.collectionKeys HidRdCollection.detach (fun _ => rfl) (fun _ => rfl) _ hc
  table := fun _ => rfl

theorem Inv.clear (h : rd.Inv) : rd.clear.Inv :=
  h.clear_blank.inv (Or.inl rfl) fun h => absurd h (Nat.lt_irrefl 1)

theorem Inv.parse (h : rd.Inv) (db : ℕ) (native : NativeRd) : (rd.parse db native).Inv := by
  have hblank := h.clear_blank
  have hparsed : (rd.parse db native).Blank :=
    ⟨rfl,rfl,rfl,hblank.reportKeys,fun f p hf hp => Nat.lt_succ_of_lt (hblank.fieldKeys f p hf hp),
      hblank.collectionKeys,fun _ => rfl⟩
  refine hparsed.inv (Or.inr ⟨native.collections.get ⟨0,native.root⟩,?_,rfl,Or.inl rfl⟩) fun _ => rfl
  exact List.getElem?_eq_getElem native.root

/-- A wrapper with a native report or collection, or with a native field that is still there,
describes it, and no native object has two of them. -/
structure Proper (rd : HidRd) : Prop where
  reports : ∀ w p, w < rd.reports.count → (rd.reports.objects w).report = some p →
    rd.IsReport p ∧ rd.ReportOk p (rd.reports.objects w)
  oneReport : ∀ w w' p, rd.HasReport w p → rd.HasReport w' p → w = w'
  fields : ∀ f p, rd.HasField f p → rd.IsField p → rd.FieldOk p (rd.fields.objects f)
  oneField : ∀ f f' p, rd.HasField f p → rd.HasField f' p → rd.IsField p → f = f'
  collections : ∀ ref p, rd.IsRef ref → (rd.collection ref).collection = some p →
    p.generation = rd.generation ∧ rd.CollectionOk p (rd.collection ref)
  oneCollection : ∀ ref ref' p, rd.IsRef ref → rd.IsRef ref' →
    (rd.collection ref).collection = some p → (rd.collection ref').collection = some p → ref = ref'

theorem Inv.proper (h : rd.Inv) : rd.Proper where
  reports := fun w p hw hp => ⟨h.reportKeys w p hw hp,h.reports.good (h.reportKeys w p hw hp) hw hp⟩
  oneReport := fun w w' p hw hw' =>
    h.reports.unique (h.reportKeys w p hw.1 hw.2) hw.1 hw'.1 hw.2 hw'.2
  fields := fun _ _ hf his => h.fields.good his hf.1 hf.2
  oneField := fun _ _ _ hf hf' his => h.fields.unique his hf.1 hf'.1 hf.2 hf'.2
  collections := fun _ _ href hp => h.collectionOk href hp
  oneCollection := fun ref ref' p href href' hp hp' => by
    cases ref with
    | root =>
      cases ref' with
      | root => rfl
      | made w' =>
        have hindex := (h.collectionKeys w' p href' hp').2.1
        rw [h.root_index hp] at hindex
        exact absurd hindex (Nat.lt_irrefl 0)
    | made w =>
      have his := h.collectionKeys w p href hp
      cases ref' with
      | root =>
        have hindex := his.2.1
        rw [h.root_index hp'] at hindex
        exact absurd hindex (Nat.lt_irrefl 0)
      | made w' => exact congrArg CollectionRef.made (h.collections.unique his href href' hp hp')

end HidRd
end Jancy.Io
