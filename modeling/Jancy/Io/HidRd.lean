import Jancy.Lib.Registry
import Mathlib.Algebra.Group.Nat.Defs

/-! `io.HidRd`: wrappers of the reports, fields and collections of a parsed HID report descriptor. -/
namespace Jancy.Io

/-- `axl::io::HidReportField`, with its items and usages as they are read. -/
structure NativeField where
  report : ℕ
  usagePage : Option ℕ
  bitCount : ℕ
  valueFlags : ℕ
  mask : ℕ
  usageCount : ℕ
  item : BitVec 32 → ℕ
  usage : ℕ → ℕ

/-- `axl::io::HidReport`; a field is given by its place among all fields. -/
structure NativeReport where
  reportType : ℕ
  reportId : ℕ
  bitCount : ℕ
  size : ℕ
  fields : List ℕ

/-- `axl::io::HidRdCollection`. -/
structure NativeCollection where
  collectionKind : ℕ
  usagePage : Option ℕ
  usage : ℕ
  collections : List ℕ
  fields : List ℕ

/-- `axl::io::HidRd`: all objects of a descriptor, the root collection first. -/
structure NativeRd where
  flags : ℕ
  reports : List NativeReport
  fields : List NativeField
  collections : List NativeCollection
  root : 0 < collections.length
  fieldReport : ∀ field ∈ fields, field.report < reports.length
  reportFields : ∀ report ∈ reports, ∀ i ∈ report.fields, i < fields.length
  collectionFields : ∀ collection ∈ collections, ∀ i ∈ collection.fields, i < fields.length
  children : ∀ collection ∈ collections, ∀ i ∈ collection.collections,
    0 < i ∧ i < collections.length

namespace NativeRd

/-- Nothing but a root collection. -/
def empty : NativeRd where
  flags := 0
  reports := []
  fields := []
  collections := [⟨0,none,0,[],[]⟩]
  root := Nat.zero_lt_one
  fieldReport := fun _ h => absurd h List.not_mem_nil
  reportFields := fun _ h => absurd h List.not_mem_nil
  collectionFields := fun _ h => by
    rw [List.mem_singleton.mp h]
    exact fun _ hi => absurd hi List.not_mem_nil
  children := fun _ h => by
    rw [List.mem_singleton.mp h]
    exact fun _ hi => absurd hi List.not_mem_nil

/-- `getReportMap`. -/
def reportMap (native : NativeRd) (reportType : ℕ) : List ℕ :=
  (List.range native.reports.length).filter fun i =>
    native.reports[i]?.any fun report => report.reportType = reportType

def findReport (native : NativeRd) (reportType reportId : ℕ) : Option ℕ :=
  (List.range native.reports.length).find? fun i =>
    native.reports[i]?.any fun report =>
      report.reportType = reportType && report.reportId = reportId

end NativeRd

/-- A native object, by how often all have been destroyed before it was made and its place. -/
structure NativePtr where
  generation : ℕ
  index : ℕ
  deriving DecidableEq, Repr

inductive HidFault where
  | destroyed
  | pastEnd
  | assertion
  | nullDb
  deriving DecidableEq, Repr

/-- `db->getUsagePage`, for a database and an id. -/
def getUsagePage (db page : Option ℕ) : Option (ℕ × ℕ) :=
  match db,page with
  | some db,some page => some (db,page)
  | _,_ => none

structure HidReportField where
  report : Option ℕ
  usagePage : Option (ℕ × ℕ)
  bitCount : ℕ
  valueFlags : ℕ
  mask : ℕ
  usageCount : ℕ
  field : Option NativePtr
  deriving DecidableEq, Repr

namespace HidReportField

def blank : HidReportField :=
  ⟨none,none,0,0,0,0,none⟩

def init (report : ℕ) (db : Option ℕ) (p : NativePtr) (field : NativeField) : HidReportField where
  report := some report
  usagePage := getUsagePage db field.usagePage
  bitCount := field.bitCount
  valueFlags := field.valueFlags
  mask := field.mask
  usageCount := field.usageCount
  field := some p

def detach (field : HidReportField) : HidReportField :=
  { field with report := none, bitCount := 0, valueFlags := 0, mask := 0 }

end HidReportField

/-- A `HidReport` of an `HidRd`; with a native report it has its `HidRd`. -/
structure HidReport where
  reportType : ℕ
  reportId : ℕ
  bitCount : ℕ
  size : ℕ
  fieldCount : ℕ
  report : Option NativePtr
  deriving DecidableEq, Repr

namespace HidReport

def detached : HidReport :=
  ⟨0,0,0,0,0,none⟩

def init (p : NativePtr) (report : NativeReport) : HidReport where
  reportType := report.reportType
  reportId := report.reportId
  bitCount := report.bitCount
  size := report.size
  fieldCount := report.fields.length
  report := some p

def detach (_ : HidReport) : HidReport :=
  detached

end HidReport

structure HidRdCollection where
  collectionKind : ℕ
  usagePage : Option (ℕ × ℕ)
  usage : ℕ
  collectionCount : ℕ
  fieldCount : ℕ
  collection : Option NativePtr
  collectionArray : List ℕ
  deriving DecidableEq, Repr

/-- `HidRdCollectionKind_Invalid`. -/
def invalidCollectionKind : ℕ := 2 ^ 32 - 1

namespace HidRdCollection

def detached : HidRdCollection :=
  ⟨invalidCollectionKind,none,0,0,0,none,[]⟩

def init (old : HidRdCollection) (db : Option ℕ) (p : NativePtr) (collection : NativeCollection) :
    HidRdCollection where
  collectionKind := collection.collectionKind
  usagePage := getUsagePage db collection.usagePage
  usage := collection.usage
  collectionCount := collection.collections.length
  fieldCount := collection.fields.length
  collection := some p
  collectionArray := old.collectionArray

def detach (_ : HidRdCollection) : HidRdCollection :=
  detached

end HidRdCollection

/-- The root collection is a member of the `HidRd`. -/
inductive CollectionRef where
  | root
  | made (w : ℕ)
  deriving DecidableEq, Repr

structure HidRd where
  flags : ℕ
  db : Option ℕ
  native : NativeRd
  generation : ℕ
  reportTable : ℕ → List ℕ
  reports : Registry NativePtr HidReport
  fields : Registry NativePtr HidReportField
  collections : Registry NativePtr HidRdCollection
  rootCollection : HidRdCollection

namespace HidRd

def initial : HidRd where
  flags := 0
  db := none
  native := .empty
  generation := 0
  reportTable := fun _ => []
  reports := .empty HidReport.detached
  fields := .empty HidReportField.blank
  collections := .empty HidRdCollection.detached
  rootCollection := HidRdCollection.detached

def read {α : Type*} (rd : HidRd) (objects : List α) (p : NativePtr) : Except HidFault α :=
  if p.generation = rd.generation then
    match objects[p.index]? with
    | none => .error .destroyed
    | some object => .ok object
  else .error .destroyed

def getReportImpl (rd : HidRd) (p : NativePtr) : Except HidFault (ℕ × HidRd) :=
  match rd.reports.find p with
  | some w => .ok (w,rd)
  | none => do
      let report ← rd.read rd.native.reports p
      .ok (rd.reports.count,{ rd with reports := rd.reports.add p (HidReport.init p report) })

def getField (rd : HidRd) (p : NativePtr) : Except HidFault (ℕ × HidRd) :=
  match rd.fields.find p with
  | some f => .ok (f,rd)
  | none => do
      let field ← rd.read rd.native.fields p
      let (report,rd) ← rd.getReportImpl ⟨p.generation,field.report⟩
      .ok (rd.fields.count,
        { rd with fields := rd.fields.add p (HidReportField.init report rd.db p field) })

def getCollection (rd : HidRd) (p : NativePtr) : Except HidFault (ℕ × HidRd) :=
  match rd.collections.find p with
  | some c => .ok (c,rd)
  | none => do
      let collection ← rd.read rd.native.collections p
      if collection.usagePage.isSome && rd.db.isNone then .error .nullDb
      else
        .ok (rd.collections.count,
          { rd with
            collections := rd.collections.add p
              (HidRdCollection.init .detached rd.db p collection) })

/-- The loops that fill an array with the wrappers of native objects. -/
def fill (get : HidRd → NativePtr → Except HidFault (ℕ × HidRd)) (rd : HidRd) :
    List NativePtr → Except HidFault (List ℕ × HidRd)
  | [] => .ok ([],rd)
  | p :: ps => do
      let (w,rd) ← get rd p
      let (ws,rd) ← rd.fill get ps
      .ok (w :: ws,rd)

def isValidReportType (reportType : ℕ) : Bool :=
  1 ≤ reportType && reportType ≤ 3

/-- The native objects at some places. -/
def ptrs (rd : HidRd) (indices : List ℕ) : List NativePtr :=
  indices.map fun i => ⟨rd.generation,i⟩

/-- A result is a wrapper, or null. -/
def getReport (rd : HidRd) (reportType i : ℕ) : Except HidFault (Option ℕ × HidRd) :=
  if isValidReportType reportType then
    let reportArray := rd.reportTable (reportType - 1)
    if i < reportArray.length then .ok (reportArray[i]?,rd)
    else
      let reportMap := rd.native.reportMap reportType
      if i ≥ reportMap.length then .ok (none,rd)
      else do
        let (ws,rd) ← rd.fill getReportImpl (rd.ptrs reportMap)
        .ok (ws[i]?,{ rd with
          reportTable := Function.update rd.reportTable (reportType - 1) ws })
  else .ok (none,rd)

def findReport (rd : HidRd) (reportType reportId : ℕ) : Except HidFault (Option ℕ × HidRd) :=
  if isValidReportType reportType then
    match rd.native.findReport reportType reportId with
    | none => .ok (none,rd)
    | some i => do
        let (w,rd) ← rd.getReportImpl ⟨rd.generation,i⟩
        .ok (some w,rd)
  else .ok (none,rd)

/-- `getFieldArray()[i]` of a report or a collection, and its wrapper. -/
def getFieldAt (rd : HidRd) (generation : ℕ) (fields : List ℕ) (i : ℕ) :
    Except HidFault (Option ℕ × HidRd) :=
  match fields[i]? with
  | none => .error .pastEnd
  | some index => do
      let (f,rd) ← rd.getField ⟨generation,index⟩
      .ok (some f,rd)

/-- `HidReport::getField`, for a report of the `HidRd`. -/
def reportGetField (rd : HidRd) (w i : ℕ) : Except HidFault (Option ℕ × HidRd) :=
  let report := rd.reports.objects w
  match report.report with
  | none => .ok (none,rd)
  | some p =>
      if i > report.fieldCount then .ok (none,rd)
      else do
        let native ← rd.read rd.native.reports p
        rd.getFieldAt p.generation native.fields i

def collection (rd : HidRd) : CollectionRef → HidRdCollection
  | .root => rd.rootCollection
  | .made w => rd.collections.objects w

def setCollectionArray (rd : HidRd) (ref : CollectionRef) (ws : List ℕ) : HidRd :=
  match ref with
  | .root => { rd with rootCollection := { rd.rootCollection with collectionArray := ws } }
  | .made w => { rd with
      collections := rd.collections.modify w fun collection =>
        { collection with collectionArray := ws } }

/-- `HidRdCollection::getCollection`. -/
def collectionGetCollection (rd : HidRd) (ref : CollectionRef) (i : ℕ) :
    Except HidFault (Option ℕ × HidRd) :=
  let collection := rd.collection ref
  match collection.collection with
  | none => .ok (none,rd)
  | some p =>
      if i > collection.collectionCount then .ok (none,rd)
      else if i < collection.collectionArray.length then
        .ok (collection.collectionArray[i]?,rd)
      else do
        let native ← rd.read rd.native.collections p
        if native.collections.length ≠ collection.collectionCount then .error .assertion
        else do
          let (ws,rd) ← rd.fill getCollection
            (native.collections.map fun index => ⟨p.generation,index⟩)
          match ws[i]? with
          | none => .error .pastEnd
          | some w => .ok (some w,rd.setCollectionArray ref ws)

/-- `HidRdCollection::getField`. -/
def collectionGetField (rd : HidRd) (ref : CollectionRef) (i : ℕ) :
    Except HidFault (Option ℕ × HidRd) :=
  let collection := rd.collection ref
  match collection.collection with
  | none => .ok (none,rd)
  | some p =>
      if i > collection.fieldCount then .ok (none,rd)
      else do
        let native ← rd.read rd.native.collections p
        rd.getFieldAt p.generation native.fields i

def readField (rd : HidRd) (f : ℕ) : Except HidFault (Option NativeField) :=
  match (rd.fields.objects f).field with
  | none => .ok none
  | some p => do
      let native ← rd.read rd.native.fields p
      .ok (some native)

/-- `HidReportField::getItem`. -/
def getItem (rd : HidRd) (f : ℕ) (id : BitVec 32) : Except HidFault ℕ := do
  let native ← rd.readField f
  .ok (native.elim 0 fun native => native.item id)

/-- `HidReportField::getUsage`. -/
def getUsage (rd : HidRd) (f i : ℕ) : Except HidFault ℕ := do
  let native ← rd.readField f
  .ok (native.elim 0 fun native => native.usage i)

/-- The native objects are destroyed, and there are others. -/
def renew (rd : HidRd) (native : NativeRd) : HidRd :=
  { rd with native := native, generation := rd.generation + 1 }

def clear (rd : HidRd) : HidRd :=
  let rd :=
    { rd with
      reportTable := fun _ => []
      reports := rd.reports.clear HidReport.detach
        (rd.reportTable 0 ++ rd.reportTable 1 ++ rd.reportTable 2)
      fields := rd.fields.clear HidReportField.detach []
      collections := rd.collections.clear HidRdCollection.detach []
      rootCollection := rd.rootCollection.detach }
  { rd.renew .empty with db := none, flags := 0 }

def parse (rd : HidRd) (db : ℕ) (native : NativeRd) : HidRd :=
  let rd := rd.clear.renew native
  { rd with
    rootCollection := rd.rootCollection.init (some db) ⟨rd.generation,0⟩
      (native.collections.get ⟨0,native.root⟩)
    flags := native.flags
    db := some db }

end HidRd
end Jancy.Io
