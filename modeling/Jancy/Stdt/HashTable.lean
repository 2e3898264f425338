import Jancy.Lib.LinkedLists
import Jancy.Lib.Run
import Jancy.Stdt.Dictionary
import Mathlib.Data.List.Find

/-! `stdt.HashTable`: entries are on the list of their table and in a bucket of it. -/
namespace Jancy.Stdt

abbrev BucketId := ℕ

/-- The objects of a program. An entry has one bucket entry, which is named after it: rehashing
reuses it. A table is the array of its buckets. -/
structure HashHeap (K V : Type) where
  lists : LinkedLists TableId EntryId
  buckets : LinkedLists BucketId EntryId
  key : EntryId → K
  value : EntryId → V
  bucket : EntryId → Option BucketId
  table : TableId → List (Option BucketId)
  hash : TableId → K → ℕ
  eq : TableId → K → K → Bool
  allocated : ℕ
  allocatedBuckets : ℕ

inductive HashCall (K V : Type) where
  | dict (c : DictCall K V)
  | setBucketCount (t : TableId) (count : ℕ)

def InitialBucketCount : ℕ := 32

def ResizeThreshold : ℕ := 75

namespace HashHeap

variable {K V : Type}

def initial [Inhabited K] [Inhabited V] (hash : TableId → K → ℕ) (eq : TableId → K → K → Bool) :
    HashHeap K V where
  lists := .empty
  buckets := .empty
  key _ := default
  value _ := default
  bucket _ := none
  table _ := []
  hash := hash
  eq := eq
  allocated := 0
  allocatedBuckets := 0

section Methods

variable (h : HashHeap K V)

/-- What a loop over the list visits. -/
def entriesOf (t : TableId) : List EntryId :=
  (h.lists.links t).walk h.allocated (h.lists.head t)

/-- What a loop over a bucket visits. -/
def bucketEntries (b : BucketId) : List EntryId :=
  (h.buckets.links b).walk h.allocated (h.buckets.head b)

/-- `m_hash(key) % m_table.m_count`; there is no remainder for zero. -/
def bucketIdx (t : TableId) (key : K) : Option ℕ :=
  if (h.table t).length = 0 then none else some (h.hash t key % (h.table t).length)

/-- The search through a bucket that `find` and `visit` have in common. -/
def findInBucket (t : TableId) (b : BucketId) (key : K) : Option EntryId :=
  (h.bucketEntries b).find? fun p => h.eq t key (h.key p)

def find (t : TableId) (key : K) : Option EntryId := do
  let i ← h.bucketIdx t key
  let bucket ← (h.table t)[i]?
  let bucket ← bucket
  h.findInBucket t bucket key

/-- The bucket of a slot, which is made if there is none. -/
def bucketAt (t : TableId) (i : ℕ) : HashHeap K V × BucketId :=
  match (h.table t)[i]? with
  | some (some b) => (h,b)
  | _ =>
      ({ h with
          table := Function.update h.table t ((h.table t).set i (some h.allocatedBuckets))
          allocatedBuckets := h.allocatedBuckets + 1 },h.allocatedBuckets)

/-- Move an entry to the bucket of its slot. -/
def rehashEntry (t : TableId) (p : EntryId) : Option (HashHeap K V) := do
  let i ← h.bucketIdx t (h.key p)
  let (h,b) := h.bucketAt t i
  let old ← h.bucket p
  let buckets := h.buckets.remove old p
  return { h with
    buckets := buckets.insertBetween b (buckets.tail b) none p
    bucket := Function.update h.bucket p (some b) }

/-- `none`: a remainder by zero was taken. -/
def setBucketCount (t : TableId) (count : ℕ) : Option (HashHeap K V) :=
  (h.entriesOf t).foldlM (fun h p => h.rehashEntry t p)
    { h with table := Function.update h.table t (List.replicate count none) }

def insertNew [Inhabited V] (t : TableId) (b : BucketId) (key : K) : HashHeap K V :=
  let p := h.allocated
  { h with
    key := Function.update h.key p key
    value := Function.update h.value p default
    bucket := Function.update h.bucket p (some b)
    buckets := h.buckets.insertBetween b (h.buckets.tail b) none p
    lists := h.lists.insertBetween t (h.lists.tail t) none p
    allocated := h.allocated + 1 }

/-- `m_table.setCount(InitialBucketCount)` where there are no buckets yet. -/
def ensureTable (t : TableId) : HashHeap K V :=
  if (h.table t).length = 0 then
    { h with table := Function.update h.table t (List.replicate InitialBucketCount none) }
  else h

def visit [Inhabited V] (t : TableId) (key : K) : Option (HashHeap K V × EntryId) := do
  let h := h.ensureTable t
  let i ← h.bucketIdx t key
  match h.find t key with
  | some p => return (h,p)
  | none =>
      let p := h.allocated
      let (h,b) := h.bucketAt t i
      let h := h.insertNew t b key
      let loadFactor := h.lists.count t * 100 / (h.table t).length
      let h ← if ResizeThreshold < loadFactor then h.setBucketCount t ((h.table t).length * 2)
        else some h
      return (h,p)

/-- `none`: there is no such entry. -/
def remove (t : TableId) (p : EntryId) : Option (HashHeap K V) := do
  let b ← h.bucket p
  return { h with buckets := h.buckets.remove b p,lists := h.lists.remove t p }

def clear (t : TableId) : HashHeap K V :=
  { h with lists := h.lists.clear t,table := Function.update h.table t [] }

/-- `m_hash` and `m_eq` are not moved. -/
def takeOver (t src : TableId) : HashHeap K V :=
  { h with
    lists := h.lists.takeOver t src
    table := Function.update (Function.update h.table t (h.table src)) src [] }

/-- Assertions are compiled or not; one of them is the first statement of `List.takeOver`. -/
def call [Inhabited V] (asserts : Bool) : HashCall K V → Option (HashHeap K V × DictResult)
  | .dict (.visit t key) => (h.visit t key).map fun r => (r.1,.entry (some r.2))
  | .dict (.find t key) => some (h,.entry (h.find t key))
  | .dict (.store e value) => some ({ h with value := Function.update h.value e value },.void)
  | .dict (.remove t e) => (h.remove t e).map (·,.void)
  | .dict (.removeKey t key) =>
      match h.find t key with
      | none => some (h,.bool false)
      | some e => (h.remove t e).map (·,.bool true)
  | .dict (.clear t) => some (h.clear t,.void)
  | .dict (.takeOver t src) =>
      if asserts && src == t then some (h,.thrown) else some (h.takeOver t src,.void)
  | .setBucketCount t count => (h.setBucketCount t count).map (·,.bool true)

def step [Inhabited V] (asserts : Bool) (c : HashCall K V) : Option (HashHeap K V) :=
  (h.call asserts c).map Prod.fst

end Methods

end HashHeap

/-! Entries of a `stdt.HashTable` are in the buckets of their slots, at the end of every method and
on the way through a rehash. -/

/-- Equality is one, and equal keys hash equally. -/
structure Agrees {K : Type} (hash : K → ℕ) (eq : K → K → Bool) : Prop where
  refl : ∀ k, eq k k = true
  symm : ∀ k k', eq k k' = true → eq k' k = true
  trans : ∀ k k' k'', eq k k' = true → eq k' k'' = true → eq k k'' = true
  hash : ∀ k k', eq k k' = true → hash k = hash k'

namespace HashHeap

variable {K V : Type} {h h' : HashHeap K V} {es ds : TableId → List EntryId}
  {bs : BucketId → List EntryId} {t : TableId} {b : BucketId} {e p : EntryId}

def slotOf (h : HashHeap K V) (t : TableId) (e : EntryId) : ℕ :=
  h.hash t (h.key e) % (h.table t).length

/-- The entries of `ds` are in the buckets of their slots and nothing else is. Buckets that no table
has any more may keep entries. -/
structure Placed (h : HashHeap K V) (ds : TableId → List EntryId)
    (bs : BucketId → List EntryId) : Prop where
  buckets : h.buckets.Represents bs
  slot : ∀ t, ∀ e ∈ ds t, ∃ b,
    (h.table t)[h.slotOf t e]? = some (some b) ∧ h.bucket e = some b
  filled : ∀ t (i : ℕ) b, (h.table t)[i]? = some (some b) →
    bs b = (ds t).filter fun e => h.slotOf t e == i
  apart : ∀ t t' (i i' : ℕ) b, (h.table t)[i]? = some (some b) →
    (h.table t')[i']? = some (some b) → t = t' ∧ i = i'
  inBuckets : ∀ b, ∀ e ∈ bs b, e < h.allocated
  tables : ∀ t (i : ℕ) b, (h.table t)[i]? = some (some b) → b < h.allocatedBuckets
  unused : ∀ b, h.allocatedBuckets ≤ b → bs b = []

/-- The entries of `ds` are placed; those of `es` that are not are still in a bucket that no table
has any more. -/
structure Partly (h : HashHeap K V) (es ds : TableId → List EntryId)
    (bs : BucketId → List EntryId) : Prop where
  lists : h.lists.Represents es
  placed : h.Placed ds bs
  sub : ∀ t, ∀ e ∈ ds t, e ∈ es t
  pending : ∀ t, ∀ e ∈ es t, e ∉ ds t → ∃ b, h.bucket e = some b ∧ e ∈ bs b
  keys : ∀ t, (es t).Pairwise fun e e' => h.eq t (h.key e) (h.key e') = false
  allocated : ∀ t, ∀ e ∈ es t, e < h.allocated

abbrev Tidy (h : HashHeap K V) (es : TableId → List EntryId) (bs : BucketId → List EntryId) : Prop :=
  h.Partly es es bs

theorem initial_tidy [Inhabited K] [Inhabited V] (hash : TableId → K → ℕ)
    (eq : TableId → K → K → Bool) :
    (initial hash eq : HashHeap K V).Tidy (fun _ => []) (fun _ => []) where
  lists := LinkedLists.empty_represents
  placed :=
    { buckets := LinkedLists.empty_represents
      slot _ _ he := absurd he List.not_mem_nil
      filled _ _ _ hb := by cases hb
      apart _ _ _ _ _ hb := by cases hb
      inBuckets _ _ he := absurd he List.not_mem_nil
      tables _ _ _ hb := by cases hb
      unused _ _ := rfl }
  sub _ _ he := he
  pending _ _ he := absurd he List.not_mem_nil
  keys _ := .nil
  allocated _ _ he := absurd he List.not_mem_nil

theorem Partly.entriesOf_eq (hp : h.Partly es ds bs) : h.entriesOf = es := by
  funext t
  exact hp.lists.walk_eq (hp.lists.length_le (hp.allocated t))

theorem Placed.bucketEntries_eq (hp : h.Placed ds bs) : h.bucketEntries = bs := by
  funext b
  exact hp.buckets.walk_eq (hp.buckets.length_le (hp.inBuckets b))

theorem Placed.length_ne_zero (hp : h.Placed ds bs) (he : e ∈ ds t) :
    (h.table t).length ≠ 0 := by
  obtain ⟨b,hb,-⟩ := hp.slot t e he
  have hlt := (List.getElem?_eq_some_iff.mp hb).1
  omega

theorem Placed.mem_bucket (hp : h.Placed ds bs) (he : e ∈ ds t) :
    ∃ b, (h.table t)[h.slotOf t e]? = some (some b) ∧ h.bucket e = some b ∧ e ∈ bs b := by
  obtain ⟨b,hb,hbucket⟩ := hp.slot t e he
  refine ⟨b,hb,hbucket,?_⟩
  rw [hp.filled _ _ _ hb]
  exact List.mem_filter.mpr ⟨he,by simp⟩

theorem Placed.congr (hp : h.Placed ds bs) (hbuckets : h'.buckets = h.buckets)
    (hbucket : ∀ t, ∀ e ∈ ds t, h'.bucket e = h.bucket e) (htable : h'.table = h.table)
    (hslot : ∀ t, ∀ e ∈ ds t, h'.slotOf t e = h.slotOf t e) (halloc : h.allocated ≤ h'.allocated)
    (hallocb : h'.allocatedBuckets = h.allocatedBuckets) : h'.Placed ds bs where
  buckets := hbuckets ▸ hp.buckets
  slot t e he := by
    rw [htable,hslot t e he,hbucket t e he]
    exact hp.slot t e he
  filled t i b hb := by
    rw [htable] at hb
    rw [hp.filled t i b hb]
    apply List.filter_congr
    intro e he
    rw [hslot t e he]
  apart := htable ▸ hp.apart
  inBuckets b e he := (hp.inBuckets b e he).trans_le halloc
  tables := by
    rw [htable,hallocb]
    exact hp.tables
  unused := hallocb ▸ hp.unused

theorem Placed.find_eq (hp : h.Placed es bs) (hag : Agrees (h.hash t) (h.eq t)) (key : K) :
    h.find t key = (es t).find? fun e => h.eq t key (h.key e) := by
  have hslot : ∀ e, h.eq t key (h.key e) = true →
      h.slotOf t e = h.hash t key % (h.table t).length := by
    intro e heq
    rw [slotOf,hag.hash _ _ heq]
  by_cases hlen : (h.table t).length = 0
  · have hempty : es t = [] := by
      rw [List.eq_nil_iff_forall_not_mem]
      exact fun e he => hp.length_ne_zero he hlen
    simp [find,bucketIdx,hlen,hempty]
  · have hlt : h.hash t key % (h.table t).length < (h.table t).length :=
      Nat.mod_lt _ (Nat.pos_of_ne_zero hlen)
    have hidx : h.bucketIdx t key = some (h.hash t key % (h.table t).length) := if_neg hlen
    have hget := List.getElem?_eq_getElem hlt
    cases hcell : (h.table t)[h.hash t key % (h.table t).length] with
    | none =>
      have hnone : (es t).find? (fun e => h.eq t key (h.key e)) = none := by
        rw [List.find?_eq_none]
        intro e he heq
        obtain ⟨b,hb,-⟩ := hp.slot t e he
        rw [hslot e heq,hget,hcell] at hb
        cases hb
      rw [hnone]
      simp [find,hidx,hget,hcell]
    | some b =>
      rw [hcell] at hget
      have hbucket : h.bucketEntries b =
          (es t).filter fun e => h.slotOf t e == h.hash t key % (h.table t).length := by
        rw [hp.bucketEntries_eq,hp.filled _ _ _ hget]
      have hfind : h.find t key = h.findInBucket t b key := by
        simp [find,hidx,hget]
      rw [hfind,findInBucket,hbucket,List.find?_filter]
      apply List.find?_congr
      intro e he
      cases heq : h.eq t key (h.key e) with
      | false => simp
      | true => simp [hslot e heq]

def withBucket (h : HashHeap K V) (t : TableId) (i : ℕ) : HashHeap K V :=
  { h with
    table := Function.update h.table t ((h.table t).set i (some h.allocatedBuckets))
    allocatedBuckets := h.allocatedBuckets + 1 }

theorem bucketAt_of_some {i : ℕ} (hb : (h.table t)[i]? = some (some b)) :
    h.bucketAt t i = (h,b) := by
  simp [bucketAt,hb]

theorem bucketAt_of_none {i : ℕ} (hb : (h.table t)[i]? = some none) :
    h.bucketAt t i = (h.withBucket t i,h.allocatedBuckets) := by
  simp [bucketAt,hb,withBucket]

theorem withBucket_get {t' : TableId} {i i' : ℕ} (hi : i < (h.table t).length) :
    ((h.withBucket t i).table t')[i']? =
      if t' = t ∧ i' = i then some (some h.allocatedBuckets) else (h.table t')[i']? := by
  by_cases ht : t' = t
  · subst ht
    by_cases heq : i' = i
    · subst heq
      simp [withBucket,hi]
    · have hne : i ≠ i' := fun h => heq h.symm
      simp [withBucket,heq,List.getElem?_set_ne hne]
  · simp [withBucket,ht]

theorem withBucket_length (i : ℕ) (t' : TableId) :
    ((h.withBucket t i).table t').length = (h.table t').length := by
  by_cases ht : t' = t
  · subst ht
    simp [withBucket]
  · simp [withBucket,ht]

theorem Placed.withBucket (hp : h.Placed ds bs) {i : ℕ} (hi : (h.table t)[i]? = some none) :
    (h.withBucket t i).Placed ds bs := by
  have hlt : i < (h.table t).length := (List.getElem?_eq_some_iff.mp hi).1
  have hslot : ∀ t' e, (h.withBucket t i).slotOf t' e = h.slotOf t' e := by
    intro t' e
    rw [slotOf,withBucket_length]
    rfl
  have hempty : ∀ e ∈ ds t, h.slotOf t e ≠ i := by
    rintro e he rfl
    obtain ⟨b,hb,-⟩ := hp.slot t e he
    rw [hi] at hb
    cases hb
  have hold : ∀ t' (i' : ℕ) b, ((h.withBucket t i).table t')[i']? = some (some b) →
      t' = t ∧ i' = i ∧ b = h.allocatedBuckets ∨ (h.table t')[i']? = some (some b) := by
    intro t' i' b hb
    rw [withBucket_get hlt] at hb
    split at hb
    · rename_i heq
      cases hb
      exact .inl ⟨heq.1,heq.2,rfl⟩
    · exact .inr hb
  refine ⟨hp.buckets,?_,?_,?_,hp.inBuckets,?_,?_⟩
  · intro t' e he
    obtain ⟨b,hb,hbucket⟩ := hp.slot t' e he
    refine ⟨b,?_,hbucket⟩
    rw [withBucket_get hlt,hslot,if_neg]
    · exact hb
    · rintro ⟨rfl,heq⟩
      exact hempty e he heq
  · intro t' i' b hb
    simp only [hslot]
    rcases hold t' i' b hb with ⟨rfl,rfl,rfl⟩ | hb
    · rw [hp.unused _ le_rfl,eq_comm,List.filter_eq_nil_iff]
      intro e he
      simpa using hempty e he
    · exact hp.filled t' i' b hb
  · intro t₁ t₂ i₁ i₂ b hb₁ hb₂
    rcases hold t₁ i₁ b hb₁ with ⟨rfl,rfl,rfl⟩ | hb₁'
    · rcases hold t₂ i₂ _ hb₂ with ⟨rfl,rfl,-⟩ | hb₂'
      · exact ⟨rfl,rfl⟩
      · exact absurd (hp.tables _ _ _ hb₂') (lt_irrefl _)
    · rcases hold t₂ i₂ b hb₂ with ⟨rfl,rfl,rfl⟩ | hb₂'
      · exact absurd (hp.tables _ _ _ hb₁') (lt_irrefl _)
      · exact hp.apart _ _ _ _ _ hb₁' hb₂'
  · intro t' i' b hb
    rcases hold t' i' b hb with ⟨-,-,rfl⟩ | hb
    · exact Nat.lt_succ_self _
    · exact Nat.lt_succ_of_lt (hp.tables _ _ _ hb)
  · exact fun b hb => hp.unused b (Nat.le_of_succ_le hb)

theorem Placed.bucketAt (hp : h.Placed ds bs) {i : ℕ} (hi : i < (h.table t).length) :
    (h.bucketAt t i).1.Placed ds bs ∧
      ((h.bucketAt t i).1.table t)[i]? = some (some (h.bucketAt t i).2) ∧
      ∀ t', ((h.bucketAt t i).1.table t').length = (h.table t').length := by
  have hget := List.getElem?_eq_getElem hi
  cases hcell : (h.table t)[i] with
  | some b =>
    rw [hcell] at hget
    rw [bucketAt_of_some hget]
    exact ⟨hp,hget,fun _ => rfl⟩
  | none =>
    rw [hcell] at hget
    rw [bucketAt_of_none hget]
    refine ⟨hp.withBucket hget,?_,withBucket_length i⟩
    rw [withBucket_get hi,if_pos ⟨rfl,rfl⟩]

/-- Store an entry at the end of a bucket. -/
def place (h : HashHeap K V) (b : BucketId) (p : EntryId) : HashHeap K V :=
  { h with
    buckets := h.buckets.insertBetween b (h.buckets.tail b) none p
    bucket := Function.update h.bucket p (some b) }

def unplace (h : HashHeap K V) (b : BucketId) (p : EntryId) : HashHeap K V :=
  { h with buckets := h.buckets.remove b p }

theorem Placed.place (hp : h.Placed ds bs) (hb : (h.table t)[h.slotOf t p]? = some (some b))
    (hds : ∀ t, p ∉ ds t) (hbs : ∀ b, p ∉ bs b) (halloc : p < h.allocated) :
    (h.place b p).Placed (Function.update ds t (ds t ++ [p]))
      (Function.update bs b (bs b ++ [p])) := by
  have hds' : ∀ t' e, e ∈ Function.update ds t (ds t ++ [p]) t' → e ∈ ds t' ∨ t' = t ∧ e = p := by
    intro t' e he
    by_cases ht : t' = t
    · subst ht
      simpa using he
    · rw [Function.update_of_ne ht] at he
      exact .inl he
  refine ⟨hp.buckets.insertTail hbs,?_,?_,hp.apart,?_,hp.tables,?_⟩
  · intro t' e he
    rcases hds' t' e he with he | ⟨rfl,rfl⟩
    · obtain ⟨b',hb',hbucket⟩ := hp.slot t' e he
      refine ⟨b',hb',?_⟩
      have hne : e ≠ p := fun heq => hds t' (heq ▸ he)
      simpa [HashHeap.place,hne] using hbucket
    · exact ⟨b,hb,by simp [HashHeap.place]⟩
  · intro t' i b' hb'
    have hb'' : (h.table t')[i]? = some (some b') := hb'
    by_cases heq : b' = b
    · subst heq
      obtain ⟨rfl,rfl⟩ := hp.apart _ _ _ _ _ hb'' hb
      rw [Function.update_self,Function.update_self,List.filter_append,hp.filled _ _ _ hb]
      have hslot : (h.place b' p).slotOf t' = h.slotOf t' := rfl
      simp [hslot]
    · rw [Function.update_of_ne heq,hp.filled _ _ _ hb'']
      by_cases ht : t' = t
      · subst ht
        have hne : h.slotOf t' p ≠ i := by
          rintro rfl
          rw [hb''] at hb
          cases hb
          exact heq rfl
        have hslot : (h.place b p).slotOf t' = h.slotOf t' := rfl
        simp [hslot,hne]
      · rw [Function.update_of_ne ht]
        rfl
  · intro b' e he
    by_cases heq : b' = b
    · subst heq
      rw [Function.update_self,List.mem_append,List.mem_singleton] at he
      rcases he with he | rfl
      · exact hp.inBuckets _ _ he
      · exact halloc
    · rw [Function.update_of_ne heq] at he
      exact hp.inBuckets _ _ he
  · intro b' hb'
    have hne : b' ≠ b := by
      rintro rfl
      exact absurd (hp.tables _ _ _ hb) (not_lt.mpr hb')
    rw [Function.update_of_ne hne]
    exact hp.unused b' hb'

theorem Placed.unplace (hp : h.Placed ds bs) (hb : p ∈ bs b) (hds : ∀ t', p ∈ ds t' → t' = t) :
    (h.unplace b p).Placed (Function.update ds t ((ds t).erase p))
        (Function.update bs b ((bs b).erase p)) ∧
      ∀ b', p ∉ Function.update bs b ((bs b).erase p) b' := by
  obtain ⟨hbuckets,hnot⟩ := hp.buckets.remove hb
  have hds' : ∀ t' e, e ∈ Function.update ds t ((ds t).erase p) t' → e ∈ ds t' := by
    intro t' e he
    by_cases ht : t' = t
    · subst ht
      rw [Function.update_self] at he
      exact List.mem_of_mem_erase he
    · rwa [Function.update_of_ne ht] at he
  have hdsErase : ∀ t', Function.update ds t ((ds t).erase p) t' = (ds t').erase p := by
    intro t'
    by_cases ht : t' = t
    · rw [ht,Function.update_self]
    · rw [Function.update_of_ne ht,List.erase_of_not_mem fun hmem => ht (hds t' hmem)]
  have hbsErase : ∀ b', Function.update bs b ((bs b).erase p) b' = (bs b').erase p := by
    intro b'
    by_cases heq : b' = b
    · rw [heq,Function.update_self]
    · rw [Function.update_of_ne heq,
        List.erase_of_not_mem fun hmem => heq (hp.buckets.disjoint hmem hb)]
  refine ⟨⟨hbuckets,?_,?_,hp.apart,?_,hp.tables,?_⟩,hnot⟩
  · exact fun t' e he => hp.slot t' e (hds' t' e he)
  · intro t' i b' hb'
    have hb'' : (h.table t')[i]? = some (some b') := hb'
    rw [hdsErase,hbsErase,hp.filled _ _ _ hb'']
    exact List.erase_filter
  · intro b' e he
    rw [hbsErase] at he
    exact hp.inBuckets b' e (List.mem_of_mem_erase he)
  · intro b' hb'
    rw [hbsErase,hp.unused b' hb']
    rfl

end HashHeap

end Jancy.Stdt
