import Jancy.Stdt.HashTable

/-! What the methods of `stdt.HashTable` do to the sequences of entries. -/
namespace Jancy.Stdt.HashHeap

variable {K V : Type} {h h' h'' : HashHeap K V} {es ds : TableId → List EntryId}
  {bs : BucketId → List EntryId} {t : TableId} {b : BucketId} {e p : EntryId}

/-- Only buckets differ. -/
structure SameEntries (h h' : HashHeap K V) : Prop where
  lists : h'.lists = h.lists
  key : h'.key = h.key
  value : h'.value = h.value
  hash : h'.hash = h.hash
  eq : h'.eq = h.eq
  allocated : h'.allocated = h.allocated

theorem SameEntries.refl (h : HashHeap K V) : h.SameEntries h := ⟨rfl,rfl,rfl,rfl,rfl,rfl⟩

theorem SameEntries.trans (h₁ : h.SameEntries h') (h₂ : h'.SameEntries h'') :
    h.SameEntries h'' where
  lists := h₂.lists.trans h₁.lists
  key := h₂.key.trans h₁.key
  value := h₂.value.trans h₁.value
  hash := h₂.hash.trans h₁.hash
  eq := h₂.eq.trans h₁.eq
  allocated := h₂.allocated.trans h₁.allocated

theorem Partly.of_placed {ds' : TableId → List EntryId} {bs' : BucketId → List EntryId}
    (hp : h.Partly es ds bs) (hs : h.SameEntries h') (hplaced : h'.Placed ds' bs')
    (hsub : ∀ t, ∀ e ∈ ds' t, e ∈ es t)
    (hpending : ∀ t, ∀ e ∈ es t, e ∉ ds' t → ∃ b, h'.bucket e = some b ∧ e ∈ bs' b) :
    h'.Partly es ds' bs' where
  lists := hs.lists ▸ hp.lists
  placed := hplaced
  sub := hsub
  pending := hpending
  keys := by
    rw [hs.eq,hs.key]
    exact hp.keys
  allocated := hs.allocated ▸ hp.allocated

theorem Placed.tidy (hplaced : h.Placed es bs) (hlists : h.lists.Represents es)
    (hkeys : ∀ t, (es t).Pairwise fun e e' => h.eq t (h.key e) (h.key e') = false)
    (halloc : ∀ t, ∀ e ∈ es t, e < h.allocated) : h.Tidy es bs where
  lists := hlists
  placed := hplaced
  sub _ _ he := he
  pending _ _ he hnot := absurd he hnot
  keys := hkeys
  allocated := halloc

theorem bucketAt_same (i : ℕ) : h.SameEntries (h.bucketAt t i).1 := by
  unfold bucketAt
  split
  · exact .refl h
  · exact ⟨rfl,rfl,rfl,rfl,rfl,rfl⟩

theorem bucketAt_bucket (i : ℕ) : (h.bucketAt t i).1.bucket = h.bucket := by
  unfold bucketAt
  split <;> rfl

theorem rehashEntry_eq (hlen : (h.table t).length ≠ 0) (hb : h.bucket p = some b) :
    h.rehashEntry t p =
      some (((h.bucketAt t (h.slotOf t p)).1.unplace b p).place
        (h.bucketAt t (h.slotOf t p)).2 p) := by
  have hidx : h.bucketIdx t (h.key p) = some (h.slotOf t p) := if_neg hlen
  have hold : (h.bucketAt t (h.slotOf t p)).1.bucket p = some b := by rw [bucketAt_bucket,hb]
  simp only [rehashEntry,hidx,Option.bind_eq_bind,Option.bind_some,hold]
  rfl

theorem Placed.move (hp : h.Placed ds bs) {b₀ : BucketId} (hin : p ∈ bs b₀) (hds : ∀ t, p ∉ ds t)
    (hb : (h.table t)[h.slotOf t p]? = some (some b)) :
    ∃ bs', ((h.unplace b₀ p).place b p).Placed (Function.update ds t (ds t ++ [p])) bs' ∧
      ∀ b', ∀ e ∈ bs b', e ≠ p → e ∈ bs' b' := by
  obtain ⟨hun,hgone⟩ := hp.unplace (t := t) hin (fun t' hmem => absurd hmem (hds t'))
  rw [List.erase_of_not_mem (hds t),Function.update_eq_self] at hun
  refine ⟨_,hun.place hb hds hgone (hp.inBuckets b₀ p hin),?_⟩
  intro b' e he hne
  have herased : e ∈ Function.update bs b₀ ((bs b₀).erase p) b' := by
    by_cases heq : b' = b₀
    · subst heq
      rw [Function.update_self]
      exact (List.mem_erase_of_ne hne).mpr he
    · rwa [Function.update_of_ne heq]
  by_cases heq : b' = b
  · subst heq
    rw [Function.update_self]
    exact List.mem_append_left [p] herased
  · rwa [Function.update_of_ne heq]

theorem Partly.rehashEntry (hp : h.Partly es ds bs) (hmem : p ∈ es t) (hnot : p ∉ ds t)
    (hlen : (h.table t).length ≠ 0) :
    ∃ h' bs', h.rehashEntry t p = some h' ∧
      h'.Partly es (Function.update ds t (ds t ++ [p])) bs' ∧ h.SameEntries h' ∧
      (h'.table t).length = (h.table t).length := by
  obtain ⟨b₀,hb₀,hin⟩ := hp.pending t p hmem hnot
  have hlt : h.slotOf t p < (h.table t).length := Nat.mod_lt _ (Nat.pos_of_ne_zero hlen)
  obtain ⟨hplaced,hget,hlength⟩ := hp.placed.bucketAt hlt
  have hsame := bucketAt_same (h := h) (t := t) (h.slotOf t p)
  have hslot : (h.bucketAt t (h.slotOf t p)).1.slotOf t p = h.slotOf t p := by
    rw [slotOf,hsame.hash,hsame.key,hlength]
    rfl
  have hbucket := bucketAt_bucket (h := h) (t := t) (h.slotOf t p)
  rw [rehashEntry_eq hlen hb₀]
  generalize (h.bucketAt t (h.slotOf t p)).1 = h₁,(h.bucketAt t (h.slotOf t p)).2 = b at *
  have hds : ∀ t', p ∉ ds t' := by
    intro t' hmem'
    have heq := hp.lists.disjoint (hp.sub t' p hmem') hmem
    exact hnot (heq ▸ hmem')
  rw [← hslot] at hget
  obtain ⟨bs',hmoved,hkept⟩ := hplaced.move hin hds hget
  have hsame' : h.SameEntries ((h₁.unplace b₀ p).place b p) :=
    hsame.trans ⟨rfl,rfl,rfl,rfl,rfl,rfl⟩
  refine ⟨_,bs',rfl,hp.of_placed hsame' hmoved ?_ ?_,hsame',hlength t⟩
  · intro t' e he
    by_cases ht : t' = t
    · subst ht
      rw [Function.update_self,List.mem_append,List.mem_singleton] at he
      rcases he with he | rfl
      · exact hp.sub t' e he
      · exact hmem
    · rw [Function.update_of_ne ht] at he
      exact hp.sub t' e he
  · intro t' e he hnot'
    have hold : e ∉ ds t' ∧ e ≠ p := by
      by_cases ht : t' = t
      · subst ht
        simpa using hnot'
      · rw [Function.update_of_ne ht] at hnot'
        refine ⟨hnot',?_⟩
        rintro rfl
        exact ht (hp.lists.disjoint he hmem)
    obtain ⟨b',hb',hin'⟩ := hp.pending t' e he hold.1
    refine ⟨b',?_,hkept b' e hin' hold.2⟩
    simpa [place,unplace,hold.2,hbucket] using hb'

theorem Partly.rehash (rest : List EntryId) (hp : h.Partly es ds bs)
    (hmem : ∀ p ∈ rest, p ∈ es t) (hnot : ∀ p ∈ rest, p ∉ ds t) (hnodup : rest.Nodup)
    (hlen : rest ≠ [] → (h.table t).length ≠ 0) :
    ∃ h' bs', rest.foldlM (fun h p => h.rehashEntry t p) h = some h' ∧
      h'.Partly es (Function.update ds t (ds t ++ rest)) bs' ∧ h.SameEntries h' := by
  induction rest generalizing h ds bs with
  | nil =>
    refine ⟨h,bs,rfl,?_,.refl h⟩
    rwa [List.append_nil,Function.update_eq_self]
  | cons p rest ih =>
    have hlen' := hlen (List.cons_ne_nil p rest)
    obtain ⟨hfresh,hnodup'⟩ := List.nodup_cons.mp hnodup
    obtain ⟨h₁,bs₁,hstep,hp₁,hsame₁,hlength⟩ := hp.rehashEntry
      (hmem p List.mem_cons_self) (hnot p List.mem_cons_self) hlen'
    have hnot' : ∀ q ∈ rest, q ∉ Function.update ds t (ds t ++ [p]) t := by
      intro q hq hin
      rw [Function.update_self,List.mem_append,List.mem_singleton] at hin
      rcases hin with hin | rfl
      · exact hnot q (List.mem_cons_of_mem p hq) hin
      · exact hfresh hq
    obtain ⟨h₂,bs₂,hrest,hp₂,hsame₂⟩ := ih hp₁
      (fun q hq => hmem q (List.mem_cons_of_mem p hq)) hnot' hnodup'
      (fun _ => hlength ▸ hlen')
    refine ⟨h₂,bs₂,?_,?_,hsame₁.trans hsame₂⟩
    · rw [List.foldlM_cons,hstep]
      exact hrest
    · rwa [Function.update_self,Function.update_idem,List.append_assoc] at hp₂

/-- Set the array of buckets of a table. -/
def withTable (h : HashHeap K V) (t : TableId) (cells : List (Option BucketId)) : HashHeap K V :=
  { h with table := Function.update h.table t cells }

theorem Placed.emptied (hp : h.Placed ds bs) (t : TableId) (n : ℕ) :
    (h.withTable t (List.replicate n none)).Placed (Function.update ds t []) bs := by
  have hget : ∀ t' (i : ℕ) b,
      ((h.withTable t (List.replicate n none)).table t')[i]? = some (some b) →
      t' ≠ t ∧ (h.table t')[i]? = some (some b) := by
    intro t' i b hb
    by_cases ht : t' = t
    · subst ht
      simp [withTable,List.getElem?_replicate] at hb
    · simp only [withTable,Function.update_of_ne ht] at hb
      exact ⟨ht,hb⟩
  have hslot : ∀ t' e, t' ≠ t →
      (h.withTable t (List.replicate n none)).slotOf t' e = h.slotOf t' e := by
    intro t' e ht
    simp [slotOf,withTable,ht]
  refine ⟨hp.buckets,?_,?_,?_,hp.inBuckets,?_,hp.unused⟩
  · intro t' e he
    by_cases ht : t' = t
    · simp [ht] at he
    · rw [Function.update_of_ne ht] at he
      obtain ⟨b,hb,hbucket⟩ := hp.slot t' e he
      refine ⟨b,?_,hbucket⟩
      rw [hslot t' e ht]
      simpa [withTable,ht] using hb
  · intro t' i b hb
    obtain ⟨ht,hb'⟩ := hget t' i b hb
    rw [Function.update_of_ne ht,hp.filled t' i b hb']
    simp only [hslot t' _ ht]
  · intro t₁ t₂ i₁ i₂ b hb₁ hb₂
    exact hp.apart _ _ _ _ _ (hget t₁ i₁ b hb₁).2 (hget t₂ i₂ b hb₂).2
  · exact fun t' i b hb => hp.tables _ _ _ (hget t' i b hb).2

theorem Partly.setBucketCount (hp : h.Tidy es bs) {n : ℕ} (hn : es t ≠ [] → n ≠ 0) :
    ∃ h' bs', h.setBucketCount t n = some h' ∧ h'.Tidy es bs' ∧ h.SameEntries h' := by
  have hsame₀ : h.SameEntries (h.withTable t (List.replicate n none)) :=
    ⟨rfl,rfl,rfl,rfl,rfl,rfl⟩
  have hstart : (h.withTable t (List.replicate n none)).Partly es (Function.update es t []) bs := by
    refine hp.of_placed hsame₀ (hp.placed.emptied t n) ?_ ?_
    · intro t' e he
      by_cases ht : t' = t
      · simp [ht] at he
      · rwa [Function.update_of_ne ht] at he
    · intro t' e he _
      obtain ⟨b,-,hbucket,hin⟩ := hp.placed.mem_bucket he
      exact ⟨b,hbucket,hin⟩
  have hlen : es t ≠ [] → ((h.withTable t (List.replicate n none)).table t).length ≠ 0 := by
    intro hne
    simpa [withTable] using hn hne
  obtain ⟨h',bs',hrun,hp',hsame⟩ := hstart.rehash (es t) (fun _ hmem => hmem)
    (fun p _ => by simp) (hp.lists.nodup t) hlen
  refine ⟨h',bs',?_,?_,?_⟩
  · rw [HashHeap.setBucketCount,hp.entriesOf_eq]
    exact hrun
  · simpa using hp'
  · exact hsame₀.trans hsame

theorem Partly.setBucketCount_zero (hp : h.Tidy es bs) (hne : es t ≠ []) :
    h.setBucketCount t 0 = none := by
  obtain ⟨p,rest,hcons⟩ := List.exists_cons_of_ne_nil hne
  have hidx : (h.withTable t []).bucketIdx t (h.key p) = none := by simp [bucketIdx,withTable]
  have hstep : (h.withTable t []).rehashEntry t p = none := by
    rw [HashHeap.rehashEntry]
    change ((h.withTable t []).bucketIdx t (h.key p)).bind _ = none
    rw [hidx]
    rfl
  rw [HashHeap.setBucketCount,hp.entriesOf_eq,hcons,List.foldlM_cons]
  change ((h.withTable t []).rehashEntry t p).bind _ = none
  rw [hstep]
  rfl

theorem Partly.ensureTable (hp : h.Tidy es bs) (t : TableId) :
    (h.ensureTable t).Tidy es bs ∧ h.SameEntries (h.ensureTable t) ∧
      ((h.ensureTable t).table t).length ≠ 0 := by
  by_cases hlen : (h.table t).length = 0
  · have hempty : es t = [] := by
      rw [List.eq_nil_iff_forall_not_mem]
      exact fun e he => hp.placed.length_ne_zero he hlen
    have heq : h.ensureTable t = h.withTable t (List.replicate InitialBucketCount none) :=
      if_pos hlen
    have hplaced := hp.placed.emptied t InitialBucketCount
    rw [← hempty,Function.update_eq_self] at hplaced
    rw [heq]
    refine ⟨hplaced.tidy hp.lists hp.keys hp.allocated,⟨rfl,rfl,rfl,rfl,rfl,rfl⟩,?_⟩
    simp [withTable,InitialBucketCount]
  · have heq : h.ensureTable t = h := if_neg hlen
    rw [heq]
    exact ⟨hp,.refl h,hlen⟩

/-- The entry of a new key, which is in no bucket yet. -/
def withEntry [Inhabited V] (h : HashHeap K V) (key : K) : HashHeap K V :=
  { h with
    key := Function.update h.key h.allocated key
    value := Function.update h.value h.allocated default
    allocated := h.allocated + 1 }

theorem withEntry_key [Inhabited V] (key : K) (he : e < h.allocated) :
    (h.withEntry key).key e = h.key e := by
  simp [withEntry,Nat.ne_of_lt he]

/-- A key that is not found gets an entry at the end. -/
theorem Partly.insertNew [Inhabited V] (hp : h.Tidy es bs) {key : K}
    (hb : (h.table t)[h.hash t key % (h.table t).length]? = some (some b))
    (hnew : ∀ e ∈ es t, h.eq t (h.key e) key = false) :
    ∃ bs', (h.insertNew t b key).Tidy (Function.update es t (es t ++ [h.allocated])) bs' := by
  have hfresh : ∀ t', h.allocated ∉ es t' :=
    fun t' hmem => lt_irrefl _ (hp.allocated t' _ hmem)
  have hfreshB : ∀ b', h.allocated ∉ bs b' :=
    fun b' hmem => lt_irrefl _ (hp.placed.inBuckets b' _ hmem)
  have hkey : ∀ t', ∀ e ∈ es t', (h.withEntry key).key e = h.key e :=
    fun t' e he => withEntry_key key (hp.allocated t' e he)
  have hself : (h.withEntry key).key h.allocated = key := by simp [withEntry]
  have hplaced₀ : (h.withEntry key).Placed es bs := by
    apply hp.placed.congr
    · rfl
    · exact fun _ _ _ => rfl
    · rfl
    · intro t' e he
      rw [slotOf,hkey t' e he]
      rfl
    · exact Nat.le_succ _
    · rfl
  have hget : ((h.withEntry key).table t)[(h.withEntry key).slotOf t h.allocated]? =
      some (some b) := by
    rw [slotOf,hself]
    exact hb
  have hplaced := hplaced₀.place hget hfresh hfreshB (Nat.lt_succ_self h.allocated)
  refine ⟨_,Placed.tidy (hplaced.congr rfl (fun _ _ _ => rfl) rfl (fun _ _ _ => rfl) le_rfl rfl)
    (hp.lists.insertTail hfresh) ?_ ?_⟩
  · intro t'
    have hold : ∀ t', (es t').Pairwise fun e e' =>
        h.eq t' ((h.withEntry key).key e) ((h.withEntry key).key e') = false := by
      intro t'
      apply (hp.keys t').imp_of_mem
      intro e e' he he' heq
      rwa [hkey t' e he,hkey t' e' he']
    change (Function.update es t (es t ++ [h.allocated]) t').Pairwise fun e e' =>
        h.eq t' ((h.withEntry key).key e) ((h.withEntry key).key e') = false
    by_cases ht : t' = t
    · subst ht
      rw [Function.update_self,List.pairwise_append]
      refine ⟨hold t',List.pairwise_singleton _ _,?_⟩
      intro e he e' he'
      rw [List.mem_singleton] at he'
      subst he'
      rw [hkey t' e he,hself]
      exact hnew e he
    · rw [Function.update_of_ne ht]
      exact hold t'
  · intro t' e he
    change e < h.allocated + 1
    by_cases ht : t' = t
    · subst ht
      rw [Function.update_self,List.mem_append,List.mem_singleton] at he
      rcases he with he | rfl
      · exact Nat.lt_succ_of_lt (hp.allocated t' e he)
      · exact Nat.lt_succ_self _
    · rw [Function.update_of_ne ht] at he
      exact Nat.lt_succ_of_lt (hp.allocated t' e he)

theorem Partly.visit_old [Inhabited V] (hp : h.Tidy es bs) (hag : Agrees (h.hash t) (h.eq t))
    {key : K} (hfind : (es t).find? (fun e => h.eq t key (h.key e)) = some p) :
    h.visit t key = some (h.ensureTable t,p) := by
  obtain ⟨hp₁,hsame,hlen⟩ := hp.ensureTable t
  have hidx : (h.ensureTable t).bucketIdx t key =
      some (h.hash t key % ((h.ensureTable t).table t).length) := by
    rw [bucketIdx,if_neg hlen,hsame.hash]
  have hag₁ : Agrees ((h.ensureTable t).hash t) ((h.ensureTable t).eq t) := by
    rwa [hsame.hash,hsame.eq]
  have hfound : (h.ensureTable t).find t key = some p := by
    rw [hp₁.placed.find_eq hag₁,hsame.eq,hsame.key]
    exact hfind
  simp [HashHeap.visit,hidx,hfound]

/-- The end of `visit`, for a key that is not found. -/
def insertResult [Inhabited V] (h : HashHeap K V) (t : TableId) (i : ℕ) (key : K) :
    Option (HashHeap K V) :=
  let h' := (h.bucketAt t i).1.insertNew t (h.bucketAt t i).2 key
  if ResizeThreshold < h'.lists.count t * 100 / (h'.table t).length then
    h'.setBucketCount t ((h'.table t).length * 2)
  else some h'

section

variable (hp : h.Tidy es bs)

include hp

/-- The new entry is at the end, also when the table was rehashed for it. -/
theorem Partly.visit_new [Inhabited V] (hag : Agrees (h.hash t) (h.eq t)) {key : K}
    (hfind : (es t).find? (fun e => h.eq t key (h.key e)) = none) :
    ∃ h' bs', h.visit t key = some (h',h.allocated) ∧
      h'.Tidy (Function.update es t (es t ++ [h.allocated])) bs' ∧
      h'.key = Function.update h.key h.allocated key ∧
      h'.value = Function.update h.value h.allocated default ∧
      h'.hash = h.hash ∧ h'.eq = h.eq ∧ h'.allocated = h.allocated + 1 := by
  obtain ⟨hp₁,hsame,hlen⟩ := hp.ensureTable t
  have hidx : (h.ensureTable t).bucketIdx t key =
      some (h.hash t key % ((h.ensureTable t).table t).length) := by
    rw [bucketIdx,if_neg hlen,hsame.hash]
  have hag₁ : Agrees ((h.ensureTable t).hash t) ((h.ensureTable t).eq t) := by
    rwa [hsame.hash,hsame.eq]
  have hnone : (h.ensureTable t).find t key = none := by
    rw [hp₁.placed.find_eq hag₁,hsame.eq,hsame.key]
    exact hfind
  have hlt : h.hash t key % ((h.ensureTable t).table t).length <
      ((h.ensureTable t).table t).length := Nat.mod_lt _ (Nat.pos_of_ne_zero hlen)
  have hvisit : h.visit t key =
      (insertResult (h.ensureTable t) t (h.hash t key % ((h.ensureTable t).table t).length)
        key).map fun h' => (h',(h.ensureTable t).allocated) := by
    simp only [HashHeap.visit,hidx,hnone,Option.bind_eq_bind,Option.bind_some,insertResult]
    split
    · rw [Option.map_eq_bind]
      rfl
    · rfl
  obtain ⟨hplaced,hget,hlength⟩ := hp₁.placed.bucketAt hlt
  have hsame₂ := bucketAt_same (h := h.ensureTable t) (t := t)
    (h.hash t key % ((h.ensureTable t).table t).length)
  rw [hvisit]
  unfold insertResult
  generalize ((h.ensureTable t).bucketAt t
    (h.hash t key % ((h.ensureTable t).table t).length)).1 = h₂,
    ((h.ensureTable t).bucketAt t
      (h.hash t key % ((h.ensureTable t).table t).length)).2 = b at *
  have hsame' := hsame.trans hsame₂
  have hp₂ : h₂.Tidy es bs := hp.of_placed hsame' hplaced (fun _ _ he => he)
    (fun _ _ he hnot => absurd he hnot)
  have hnew : ∀ e ∈ es t, h₂.eq t (h₂.key e) key = false := by
    intro e he
    have hne : h.eq t key (h.key e) ≠ true := List.find?_eq_none.mp hfind e he
    rw [hsame'.eq,hsame'.key,Bool.eq_false_iff]
    exact fun heq => hne (hag.symm _ _ heq)
  rw [← hlength t,← hsame'.hash] at hget
  obtain ⟨bs₃,hp₃⟩ := hp₂.insertNew hget hnew
  rw [hsame'.allocated] at hp₃
  have hkey : (h₂.insertNew t b key).key = Function.update h.key h.allocated key := by
    rw [← hsame'.key,← hsame'.allocated]
    rfl
  have hvalue : (h₂.insertNew t b key).value = Function.update h.value h.allocated default := by
    rw [← hsame'.value,← hsame'.allocated]
    rfl
  have hallocated : (h₂.insertNew t b key).allocated = h.allocated + 1 :=
    congrArg (· + 1) hsame'.allocated
  have hlen₃ : ((h₂.insertNew t b key).table t).length ≠ 0 := by
    change (h₂.table t).length ≠ 0
    rwa [hlength]
  rw [hsame.allocated]
  dsimp only
  split
  · obtain ⟨h₄,bs₄,hset,hp₄,hsame₄⟩ := hp₃.setBucketCount (t := t)
      (n := ((h₂.insertNew t b key).table t).length * 2) (fun _ => by omega)
    refine ⟨h₄,bs₄,by rw [hset]; rfl,hp₄,?_,?_,?_,?_,hsame₄.allocated.trans hallocated⟩
    · rw [hsame₄.key,hkey]
    · rw [hsame₄.value,hvalue]
    · rw [hsame₄.hash]
      exact hsame'.hash
    · rw [hsame₄.eq]
      exact hsame'.eq
  · exact ⟨_,bs₃,rfl,hp₃,hkey,hvalue,hsame'.hash,hsame'.eq,hallocated⟩

theorem Partly.shrink {xs : List EntryId} (hsub : xs.Sublist (es t)) {bs' : BucketId → List EntryId}
    (hplaced : h'.Placed (Function.update es t xs) bs')
    (hlists : h'.lists.Represents (Function.update es t xs)) (hkey : h'.key = h.key)
    (heq : h'.eq = h.eq) (halloc : h'.allocated = h.allocated) :
    h'.Tidy (Function.update es t xs) bs' := by
  have hsub' : ∀ t', (Function.update es t xs t').Sublist (es t') := by
    intro t'
    by_cases ht : t' = t
    · subst ht
      rwa [Function.update_self]
    · rw [Function.update_of_ne ht]
  apply hplaced.tidy hlists
  · intro t'
    rw [heq,hkey]
    exact (hp.keys t').sublist (hsub' t')
  · intro t' e he
    rw [halloc]
    exact hp.allocated t' e ((hsub' t').subset he)

theorem Partly.remove (he : e ∈ es t) :
    ∃ h' bs', h.remove t e = some h' ∧
      h'.Tidy (Function.update es t ((es t).erase e)) bs' ∧
      h'.key = h.key ∧ h'.value = h.value ∧ h'.hash = h.hash ∧ h'.eq = h.eq := by
  obtain ⟨b,-,hbucket,hin⟩ := hp.placed.mem_bucket he
  obtain ⟨hplaced,-⟩ := hp.placed.unplace hin (fun t' hmem => hp.lists.disjoint hmem he)
  have hremove : h.remove t e =
      some { h.unplace b e with lists := h.lists.remove t e } := by
    rw [HashHeap.remove,hbucket]
    rfl
  refine ⟨_,Function.update bs b ((bs b).erase e),hremove,?_,rfl,rfl,rfl,rfl⟩
  exact hp.shrink List.erase_sublist
    (hplaced.congr rfl (fun _ _ _ => rfl) rfl (fun _ _ _ => rfl) le_rfl rfl)
    (hp.lists.remove he).1 rfl rfl rfl

theorem Partly.clear (t : TableId) :
    (h.clear t).Tidy (Function.update es t []) bs := by
  exact hp.shrink (List.nil_sublist _)
    ((hp.placed.emptied t 0).congr rfl (fun _ _ _ => rfl) rfl (fun _ _ _ => rfl) le_rfl rfl)
    (hp.lists.clear t) rfl rfl rfl

theorem Partly.remove_stray (hr : h.remove t e = some h') :
    h'.lists.count t ≠ (es t).length := by
  obtain ⟨b,-,hb⟩ := Option.bind_eq_some_iff.mp hr
  obtain rfl := Option.some.inj hb
  rw [← hp.lists.count t]
  exact LinkedLists.remove_count_ne e

end

theorem bucketAt_length (i : ℕ) (t' : TableId) :
    ((h.bucketAt t i).1.table t').length = (h.table t').length := by
  unfold bucketAt
  split
  · rfl
  · exact withBucket_length i t'

/-- The lists and the sizes of the arrays of buckets. -/
def SameSizes (h h' : HashHeap K V) : Prop :=
  h'.lists = h.lists ∧ h'.allocated = h.allocated ∧
    ∀ t, (h'.table t).length = (h.table t).length

theorem rehashEntry_sizes (hr : h.rehashEntry t p = some h') : h.SameSizes h' := by
  obtain ⟨i,-,hr⟩ := Option.bind_eq_some_iff.mp hr
  obtain ⟨b₀,-,hr⟩ := Option.bind_eq_some_iff.mp hr
  cases hr
  have hsame := bucketAt_same (h := h) (t := t) i
  exact ⟨hsame.lists,hsame.allocated,bucketAt_length i⟩

theorem rehash_sizes (rest : List EntryId)
    (hr : rest.foldlM (fun h p => h.rehashEntry t p) h = some h') : h.SameSizes h' := by
  induction rest generalizing h with
  | nil =>
    cases hr
    exact ⟨rfl,rfl,fun _ => rfl⟩
  | cons p rest ih =>
    rw [List.foldlM_cons] at hr
    obtain ⟨h₁,hstep,hrest⟩ := Option.bind_eq_some_iff.mp hr
    obtain ⟨hlists,halloc,hlength⟩ := rehashEntry_sizes hstep
    obtain ⟨hlists',halloc',hlength'⟩ := ih hrest
    exact ⟨hlists'.trans hlists,halloc'.trans halloc,
      fun t' => (hlength' t').trans (hlength t')⟩

theorem setBucketCount_sizes {n : ℕ} (hs : h.setBucketCount t n = some h') :
    h'.lists = h.lists ∧ h'.allocated = h.allocated ∧ (h'.table t).length = n ∧
      ∀ t', t' ≠ t → (h'.table t').length = (h.table t').length := by
  obtain ⟨hlists,halloc,hlength⟩ := rehash_sizes _ hs
  refine ⟨hlists,halloc,?_,fun t' ht => ?_⟩
  · rw [hlength]
    simp
  · rw [hlength]
    simp [ht]

/-- Entries stay in their buckets when another table takes them over, if it would put them in the
same slots. -/
theorem Placed.takeOver (hp : h.Placed ds bs) {src : TableId} (hne : src ≠ t)
    (hslot : ∀ e ∈ ds src, h.hash t (h.key e) % (h.table src).length = h.slotOf src e) :
    (h.takeOver t src).Placed (transferred ds t src []) bs := by
  have hsrc : (h.takeOver t src).table src = [] := transferred_src _ _ _ _
  have hdst : (h.takeOver t src).table t = h.table src := transferred_dst _ hne _
  have hother : ∀ t', t' ≠ src → t' ≠ t → (h.takeOver t src).table t' = h.table t' :=
    fun t' h₁ h₂ => transferred_other _ h₁ h₂ _
  have hslotDst : ∀ e ∈ ds src, (h.takeOver t src).slotOf t e = h.slotOf src e := by
    intro e he
    rw [slotOf,hdst]
    exact hslot e he
  have hslotOther : ∀ t' e, t' ≠ src → t' ≠ t →
      (h.takeOver t src).slotOf t' e = h.slotOf t' e := by
    intro t' e h₁ h₂
    rw [slotOf,hother t' h₁ h₂]
    rfl
  -- where a bucket of the state after was before
  have horigin : ∀ t' (i : ℕ) b, ((h.takeOver t src).table t')[i]? = some (some b) →
      t' = t ∧ (h.table src)[i]? = some (some b) ∨
        t' ≠ src ∧ t' ≠ t ∧ (h.table t')[i]? = some (some b) := by
    intro t' i b hb
    by_cases h₁ : t' = src
    · rw [h₁,hsrc] at hb
      cases hb
    · by_cases h₂ : t' = t
      · subst h₂
        rw [hdst] at hb
        exact .inl ⟨rfl,hb⟩
      · rw [hother t' h₁ h₂] at hb
        exact .inr ⟨h₁,h₂,hb⟩
  refine ⟨hp.buckets,?_,?_,?_,hp.inBuckets,?_,hp.unused⟩
  · intro t' e he
    by_cases h₁ : t' = src
    · rw [h₁,transferred_src] at he
      cases he
    · by_cases h₂ : t' = t
      · subst h₂
        rw [transferred_dst _ hne] at he
        rw [hslotDst e he,hdst]
        exact hp.slot src e he
      · rw [transferred_other _ h₁ h₂] at he
        rw [hslotOther t' e h₁ h₂,hother t' h₁ h₂]
        exact hp.slot t' e he
  · intro t' i b hb
    rcases horigin t' i b hb with ⟨rfl,hb'⟩ | ⟨h₁,h₂,hb'⟩
    · rw [transferred_dst _ hne,hp.filled _ _ _ hb']
      apply List.filter_congr
      intro e he
      rw [hslotDst e he]
    · rw [transferred_other _ h₁ h₂,hp.filled _ _ _ hb']
      simp only [hslotOther t' _ h₁ h₂]
  · intro t₁ t₂ i₁ i₂ b hb₁ hb₂
    rcases horigin t₁ i₁ b hb₁ with ⟨rfl,hold₁⟩ | ⟨h₁,-,hold₁⟩
    · rcases horigin t₂ i₂ b hb₂ with ⟨rfl,hold₂⟩ | ⟨h₂,-,hold₂⟩
      · exact ⟨rfl,(hp.apart _ _ _ _ _ hold₁ hold₂).2⟩
      · exact absurd (hp.apart _ _ _ _ _ hold₁ hold₂).1.symm h₂
    · rcases horigin t₂ i₂ b hb₂ with ⟨rfl,hold₂⟩ | ⟨-,-,hold₂⟩
      · exact absurd (hp.apart _ _ _ _ _ hold₁ hold₂).1 h₁
      · exact hp.apart _ _ _ _ _ hold₁ hold₂
  · intro t' i b hb
    rcases horigin t' i b hb with ⟨-,hb⟩ | ⟨-,-,hb⟩
    · exact hp.tables _ _ _ hb
    · exact hp.tables _ _ _ hb

theorem Partly.takeOver (hp : h.Tidy es bs) {src : TableId} (hne : src ≠ t)
    (heq : h.eq t = h.eq src)
    (hslot : ∀ e ∈ es src, h.hash t (h.key e) % (h.table src).length = h.slotOf src e) :
    (h.takeOver t src).Tidy (transferred es t src []) bs := by
  have hold : ∀ t', transferred es t src [] t' = [] ∨ t' = t ∧ transferred es t src [] t' = es src ∨
      transferred es t src [] t' = es t' := by
    intro t'
    by_cases h₁ : t' = src
    · rw [h₁]
      exact .inl (transferred_src _ _ _ _)
    · by_cases h₂ : t' = t
      · subst h₂
        exact .inr (.inl ⟨rfl,transferred_dst _ hne _⟩)
      · exact .inr (.inr (transferred_other _ h₁ h₂ _))
  apply (hp.placed.takeOver hne hslot).tidy (hp.lists.takeOver hne)
  · intro t'
    rcases hold t' with hnil | ⟨rfl,hsrc⟩ | hsame
    · rw [hnil]
      exact .nil
    · rw [hsrc]
      have hkeys := hp.keys src
      rw [← heq] at hkeys
      exact hkeys
    · rw [hsame]
      exact hp.keys t'
  · intro t' e he
    rcases hold t' with hnil | ⟨-,hsrc⟩ | hsame
    · rw [hnil] at he
      cases he
    · rw [hsrc] at he
      exact hp.allocated src e he
    · rw [hsame] at he
      exact hp.allocated t' e he

end Jancy.Stdt.HashHeap
