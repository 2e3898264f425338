import Jancy.Stdt.HashTableOps

/-! Programs over `stdt.HashTable`: which of them keep the tables and get the answers of a
dictionary. -/
namespace Jancy.Stdt.HashHeap

variable {K V : Type} {h h' : HashHeap K V} {es : TableId → List EntryId}
  {bs bs' : BucketId → List EntryId} {t : TableId} {e : EntryId}

/-- Every entry of a list is in exactly one bucket, the one of its slot. -/
def WellFormed (h : HashHeap K V) : Prop := h.Tidy h.entriesOf h.bucketEntries

/-- What a program sees: new entries are the last ones of the iteration. -/
def worldOf (h : HashHeap K V) : World K V :=
  .of h.entriesOf h.key h.value fun t => ⟨h.eq t,fun _ _ => false⟩

/-- The call returns what the dictionary returns and does what the dictionary does. A rehash is not
seen. -/
def Serves [Inhabited V] (asserts : Bool) (h : HashHeap K V) (c : HashCall K V)
    (h' : HashHeap K V) : Prop :=
  ∃ r, h.call asserts c = some (h',r) ∧ h'.WellFormed ∧
    match c with
    | .dict d => h.worldOf.call asserts h.allocated d = (h'.worldOf,r)
    | .setBucketCount _ _ => h'.worldOf = h.worldOf ∧ r = .bool true

def CallOk (asserts : Bool) (h : HashHeap K V) : HashCall K V → Prop
  | .dict (.remove t e) => e ∈ h.entriesOf t
  | .dict (.takeOver t src) =>
      if src = t then asserts = true ∨ h.entriesOf t = []
      else h.eq t = h.eq src ∧ ∀ e ∈ h.entriesOf src,
        h.hash t (h.key e) % (h.table src).length = h.hash src (h.key e) % (h.table src).length
  | .dict _ => True
  | .setBucketCount t count => h.entriesOf t ≠ [] → count ≠ 0

theorem Partly.wellFormed (hp : h.Tidy es bs) : h.WellFormed := by
  rw [WellFormed,hp.entriesOf_eq,hp.placed.bucketEntries_eq]
  exact hp

theorem Partly.worldOf_eq (hp : h.Tidy es bs) :
    h.worldOf = .of es h.key h.value fun t => ⟨h.eq t,fun _ _ => false⟩ := by
  rw [worldOf,hp.entriesOf_eq]

theorem Partly.worldOf_same (hp : h.Tidy es bs) (hp' : h'.Tidy es bs')
    (hs : h.SameEntries h') : h'.worldOf = h.worldOf := by
  rw [hp'.worldOf_eq,hp.worldOf_eq,hs.key,hs.value,hs.eq]

theorem Partly.worldOf_erase (hp : h.Tidy es bs)
    (hp' : h'.Tidy (Function.update es t ((es t).erase e)) bs') (hkey : h'.key = h.key)
    (hvalue : h'.value = h.value) (heq : h'.eq = h.eq) :
    h'.worldOf = h.worldOf.erase t e := by
  rw [hp'.worldOf_eq,hp.worldOf_eq,World.of_erase (hp.lists.nodup t),hkey,hvalue,heq]

section Calls

variable [Inhabited V] {asserts : Bool} {key : K}

theorem Partly.serves_visit (hp : h.Tidy es bs) (hag : Agrees (h.hash t) (h.eq t)) :
    ∃ h', h.Serves asserts (.dict (.visit t key)) h' ∧ h'.hash = h.hash ∧ h'.eq = h.eq := by
  cases hfind : (es t).find? (fun e => h.eq t key (h.key e)) with
  | some p =>
    obtain ⟨hp',hsame,-⟩ := hp.ensureTable t
    refine ⟨h.ensureTable t,⟨.entry (some p),?_,hp'.wellFormed,?_⟩,hsame.hash,hsame.eq⟩
    · rw [call,hp.visit_old hag hfind]
      rfl
    · dsimp only
      rw [World.call,hp'.worldOf_eq,hp.worldOf_eq,World.of_find,hfind,hsame.key,hsame.value,
        hsame.eq]
  | none =>
    obtain ⟨h',bs',hvisit,hp',hkey,hvalue,hhash,heq,-⟩ := hp.visit_new hag hfind
    refine ⟨h',⟨.entry (some h.allocated),?_,hp'.wellFormed,?_⟩,hhash,heq⟩
    · rw [call,hvisit]
      rfl
    · have hfresh : ∀ t', h.allocated ∉ es t' :=
        fun t' hmem => lt_irrefl _ (hp.allocated t' _ hmem)
      dsimp only
      rw [World.call,hp.worldOf_eq,World.of_find,hfind,hp'.worldOf_eq,
        World.of_put (List.append_nil (es t)).symm default (fun _ _ => rfl)
          (fun _ he => absurd he List.not_mem_nil) hfresh,hkey,hvalue,heq]

omit [Inhabited V] in
theorem Partly.serves_remove (hp : h.Tidy es bs) (he : e ∈ es t) :
    ∃ h', h.remove t e = some h' ∧ h'.WellFormed ∧ h'.worldOf = h.worldOf.erase t e ∧
      h'.hash = h.hash ∧ h'.eq = h.eq := by
  obtain ⟨h',bs',hremove,hp',hkey,hvalue,hhash,heq⟩ := hp.remove he
  exact ⟨h',hremove,hp'.wellFormed,hp.worldOf_erase hp' hkey hvalue heq,hhash,heq⟩

theorem Partly.serves_removeKey (hp : h.Tidy es bs) (hag : Agrees (h.hash t) (h.eq t)) :
    ∃ h', h.Serves asserts (.dict (.removeKey t key)) h' ∧ h'.hash = h.hash ∧ h'.eq = h.eq := by
  have hfind := hp.placed.find_eq hag key
  have hfind' : h.worldOf.find t key = (es t).find? fun e => h.eq t key (h.key e) := by
    rw [hp.worldOf_eq,World.of_find]
  cases hfound : (es t).find? (fun e => h.eq t key (h.key e)) with
  | none =>
    rw [hfound] at hfind hfind'
    refine ⟨h,⟨.bool false,?_,hp.wellFormed,?_⟩,rfl,rfl⟩
    · simp only [call,hfind]
    · simp only [World.call,hfind']
  | some e =>
    rw [hfound] at hfind hfind'
    obtain ⟨h',hremove,hwf,hworld,hhash,heq⟩ := hp.serves_remove (List.mem_of_find?_eq_some hfound)
    refine ⟨h',⟨.bool true,?_,hwf,?_⟩,hhash,heq⟩
    · simp only [call,hfind,hremove,Option.map_some]
    · simp only [World.call,hfind',hworld]

theorem Partly.serves_store (hp : h.Tidy es bs) (value : V) :
    ∃ h', h.Serves asserts (.dict (.store e value)) h' ∧ h'.hash = h.hash ∧ h'.eq = h.eq := by
  have hp' : ({ h with value := Function.update h.value e value } : HashHeap K V).Tidy es bs :=
    Placed.tidy (hp.placed.congr rfl (fun _ _ _ => rfl) rfl (fun _ _ _ => rfl) le_rfl rfl)
      hp.lists hp.keys hp.allocated
  refine ⟨_,⟨.void,rfl,hp'.wellFormed,?_⟩,rfl,rfl⟩
  dsimp only
  rw [World.call,hp.worldOf_eq,hp'.worldOf_eq,World.of_store]

theorem Partly.serves_clear (hp : h.Tidy es bs) (t : TableId) :
    h.Serves asserts (.dict (.clear t)) (h.clear t) := by
  have hp' := hp.clear t
  refine ⟨.void,rfl,hp'.wellFormed,?_⟩
  dsimp only
  rw [World.call,hp.worldOf_eq,hp'.worldOf_eq,World.of_clear]
  rfl

omit [Inhabited V] in
theorem takeOver_self : h.takeOver t t = h.clear t := by
  simp [takeOver,clear,LinkedLists.takeOver_self]

theorem Partly.serves_takeOver (hp : h.Tidy es bs) {src : TableId} (hne : src ≠ t)
    (heq : h.eq t = h.eq src)
    (hslot : ∀ e ∈ es src, h.hash t (h.key e) % (h.table src).length = h.slotOf src e) :
    h.Serves asserts (.dict (.takeOver t src)) (h.takeOver t src) := by
  have hp' := hp.takeOver hne heq hslot
  have hcall : h.call asserts (.dict (.takeOver t src)) = some (h.takeOver t src,.void) := by
    have hbeq : (asserts && src == t) = false := by simp [hne]
    simp [call,hbeq]
  have hdisc : Function.update (fun t => (⟨h.eq t,fun _ _ => false⟩ : Discipline K)) t
      ⟨h.eq src,fun _ _ => false⟩ = fun t => ⟨h.eq t,fun _ _ => false⟩ := by
    rw [← heq,Function.update_eq_self]
  refine ⟨.void,hcall,hp'.wellFormed,?_⟩
  dsimp only
  rw [hp.worldOf_eq,World.of_takeOver hne,hp'.worldOf_eq,hdisc]
  rfl

theorem Partly.serves_takeOver_self (hp : h.Tidy es bs)
    (hself : asserts = true ∨ es t = []) :
    ∃ h', h.Serves asserts (.dict (.takeOver t t)) h' ∧ h'.hash = h.hash ∧ h'.eq = h.eq := by
  cases hasserts : asserts with
  | true =>
    refine ⟨h,⟨.thrown,?_,hp.wellFormed,?_⟩,rfl,rfl⟩
    · simp [call]
    · simp [World.call]
  | false =>
    have hempty : es t = [] := by simpa [hasserts] using hself
    have hp' := hp.clear t
    rw [← takeOver_self,← hempty,Function.update_eq_self] at hp'
    refine ⟨h.takeOver t t,⟨.void,?_,hp'.wellFormed,?_⟩,rfl,rfl⟩
    · simp [call]
    · dsimp only
      rw [World.call,if_pos rfl,hp.worldOf_eq,hp'.worldOf_eq]
      rfl

theorem Partly.serves_setBucketCount (hp : h.Tidy es bs) {n : ℕ} (hn : es t ≠ [] → n ≠ 0) :
    ∃ h', h.Serves asserts (.setBucketCount t n) h' ∧ h'.hash = h.hash ∧ h'.eq = h.eq := by
  obtain ⟨h',bs',hset,hp',hsame⟩ := hp.setBucketCount hn
  refine ⟨h',⟨.bool true,?_,hp'.wellFormed,hp.worldOf_same hp' hsame,rfl⟩,hsame.hash,hsame.eq⟩
  simp only [call,hset,Option.map_some]

theorem Partly.serves (hp : h.Tidy es bs) (hag : ∀ t, Agrees (h.hash t) (h.eq t))
    {c : HashCall K V} (hok : h.CallOk asserts c) :
    ∃ h', h.Serves asserts c h' ∧ h'.hash = h.hash ∧ h'.eq = h.eq := by
  cases c with
  | setBucketCount t n =>
    rw [CallOk,hp.entriesOf_eq] at hok
    exact hp.serves_setBucketCount hok
  | dict d =>
    cases d with
    | visit t key => exact hp.serves_visit (hag t)
    | find t key =>
      refine ⟨h,⟨.entry (h.find t key),rfl,hp.wellFormed,?_⟩,rfl,rfl⟩
      dsimp only
      rw [World.call,hp.worldOf_eq,World.of_find,hp.placed.find_eq (hag t)]
    | store e value => exact hp.serves_store value
    | remove t e =>
      rw [CallOk,hp.entriesOf_eq] at hok
      obtain ⟨h',hremove,hwf,hworld,hsame⟩ := hp.serves_remove hok
      refine ⟨h',⟨.void,?_,hwf,?_⟩,hsame⟩
      · simp only [call,hremove,Option.map_some]
      · simp only [World.call,hworld]
    | removeKey t key => exact hp.serves_removeKey (hag t)
    | clear t => exact ⟨_,hp.serves_clear t,rfl,rfl⟩
    | takeOver t src =>
      rw [CallOk,hp.entriesOf_eq] at hok
      split at hok
      · rename_i heq
        subst heq
        exact hp.serves_takeOver_self hok
      · rename_i hne
        exact ⟨_,hp.serves_takeOver hne hok.1 hok.2,rfl,rfl⟩

end Calls

section Necessity

variable [Inhabited V] {asserts : Bool}

omit [Inhabited V] in
theorem worldOf_entries (h : HashHeap K V) (t : TableId) :
    (h.worldOf.dict t).map Record.entry = h.entriesOf t := World.of_entries t

section

variable (hp : h.Tidy es bs)

include hp

theorem Partly.remove_needs (hserves : h.Serves asserts (.dict (.remove t e)) h') :
    e ∈ h.entriesOf t := by
  obtain ⟨r,hcall,hwf,hworld⟩ := hserves
  by_contra hnot
  have hremove : h.remove t e = some h' := by
    obtain ⟨h'',hr,heq⟩ := Option.map_eq_some_iff.mp hcall
    rw [hr,(Prod.mk.inj heq).1]
  have hsame : h'.worldOf.dict t = h.worldOf.dict t := by
    have hdict := congrArg (fun w : World K V × DictResult => w.1.dict t) hworld
    have hkeep : ∀ x ∈ h.worldOf.dict t, (x.entry != e) = true := by
      intro x hx
      rw [bne_iff_ne]
      rintro rfl
      exact hnot (h.worldOf_entries t ▸ List.mem_map_of_mem hx)
    simp only [World.call,World.erase,World.setDict,Function.update_self] at hdict
    rw [← hdict,List.filter_eq_self.mpr hkeep]
  have hcount := hwf.lists.count t
  rw [← worldOf_entries,hsame,worldOf_entries,hp.entriesOf_eq] at hcount
  exact hp.remove_stray hremove hcount

theorem Partly.takeOver_self_needs (hserves : h.Serves asserts (.dict (.takeOver t t)) h') :
    asserts = true ∨ h.entriesOf t = [] := by
  obtain ⟨r,hcall,-,hworld⟩ := hserves
  cases asserts with
  | true => exact .inl rfl
  | false =>
    right
    have heq : h' = h.clear t := by
      have hstep : h.call false (.dict (.takeOver t t)) = some (h.takeOver t t,.void) := by
        simp [call]
      rw [← takeOver_self]
      exact (Prod.mk.inj (Option.some.inj (hcall.symm.trans hstep))).1
    have hp' := hp.clear t
    rw [← heq] at hp'
    have hdict := congrArg (fun w : World K V × DictResult => w.1.dict t) hworld
    simp only [World.call,if_pos] at hdict
    rw [← worldOf_entries,hdict,worldOf_entries,hp'.entriesOf_eq,Function.update_self]

theorem Partly.takeOver_needs {src : TableId} (hne : src ≠ t)
    (hserves : h.Serves asserts (.dict (.takeOver t src)) h') :
    h.eq t = h.eq src ∧ ∀ e ∈ es src,
      h.hash t (h.key e) % (h.table src).length = h.slotOf src e := by
  obtain ⟨r,hcall,hwf,hworld⟩ := hserves
  obtain rfl : h' = h.takeOver t src := by
    have hbeq : (asserts && src == t) = false := by simp [hne]
    have hstep : h.call asserts (.dict (.takeOver t src)) = some (h.takeOver t src,.void) := by
      simp [call,hbeq]
    exact (Prod.mk.inj (Option.some.inj (hcall.symm.trans hstep))).1
  dsimp only at hworld
  rw [World.call,if_neg hne] at hworld
  have hworld' := (Prod.mk.inj hworld).1
  constructor
  · have hdisc := congrArg (fun w : World K V => (w.discipline t).same) hworld'
    dsimp only at hdisc
    rw [Function.update_self] at hdisc
    exact hdisc.symm
  · intro e he
    have hmem : e ∈ (h.takeOver t src).entriesOf t := by
      rw [← worldOf_entries,← hworld']
      dsimp only
      rw [Function.update_of_ne hne.symm,Function.update_self,worldOf_entries,hp.entriesOf_eq]
      exact he
    obtain ⟨b,hb,hbucket⟩ := hwf.placed.slot t e hmem
    obtain ⟨b',hb',hbucket'⟩ := hp.placed.slot src e he
    have htable : (h.takeOver t src).table t = h.table src := transferred_dst _ hne _
    obtain rfl : b = b' := Option.some.inj (hbucket.symm.trans hbucket')
    rw [slotOf,htable] at hb
    exact (hp.placed.apart _ _ _ _ _ hb hb').2

theorem Partly.setBucketCount_needs {n : ℕ} (hserves : h.Serves asserts (.setBucketCount t n) h')
    (hne : h.entriesOf t ≠ []) : n ≠ 0 := by
  rintro rfl
  obtain ⟨r,hcall,-⟩ := hserves
  rw [hp.entriesOf_eq] at hne
  rw [call,hp.setBucketCount_zero hne] at hcall
  cases hcall

theorem Partly.callOk {c : HashCall K V} (hserves : h.Serves asserts c h') :
    h.CallOk asserts c := by
  cases c with
  | setBucketCount t n => exact hp.setBucketCount_needs hserves
  | dict d =>
    cases d with
    | remove t e => exact hp.remove_needs hserves
    | takeOver t src =>
      rw [CallOk]
      split
      · rename_i heq
        subst heq
        exact hp.takeOver_self_needs hserves
      · rename_i hne
        rw [hp.entriesOf_eq]
        exact hp.takeOver_needs hne hserves
    | _ => trivial

end

end Necessity

/-- An entry that is removed is on the table, and a table with entries gets a bucket. -/
def InPlace (h : HashHeap K V) : HashCall K V → Prop
  | .dict (.remove t e) => e ∈ h.entriesOf t
  | .setBucketCount t count => h.entriesOf t ≠ [] → count ≠ 0
  | .dict _ => True

/-- The table that takes over compares in the same way and puts the entries in the same slots; one
that takes over itself is empty, or it is told so. -/
def TransferOk (asserts : Bool) (h : HashHeap K V) : HashCall K V → Prop
  | .dict (.takeOver t src) =>
      if src = t then asserts = true ∨ h.entriesOf t = []
      else h.eq t = h.eq src ∧ ∀ e ∈ h.entriesOf src,
        h.hash t (h.key e) % (h.table src).length = h.hash src (h.key e) % (h.table src).length
  | _ => True

theorem callOk_iff {asserts : Bool} (c : HashCall K V) :
    h.CallOk asserts c ↔ h.InPlace c ∧ h.TransferOk asserts c := by
  cases c with
  | setBucketCount t n => simp [CallOk,InPlace,TransferOk]
  | dict d => cases d <;> simp [CallOk,InPlace,TransferOk]

/-- What the tables of a program hash and compare with stays the same. -/
def Keeps (hash : TableId → K → ℕ) (eq : TableId → K → K → Bool) (h : HashHeap K V) : Prop :=
  (∃ es bs, h.Tidy es bs) ∧ h.hash = hash ∧ h.eq = eq

section Runs

variable [Inhabited V] {asserts : Bool} {hash : TableId → K → ℕ} {eq : TableId → K → K → Bool}

theorem Keeps.initial [Inhabited K] :
    Keeps hash eq (HashHeap.initial hash eq : HashHeap K V) := ⟨⟨_,_,initial_tidy _ _⟩,rfl,rfl⟩

theorem Keeps.step (hag : ∀ t, Agrees (hash t) (eq t)) (hk : Keeps hash eq h) {c : HashCall K V}
    (hok : h.CallOk asserts c) :
    ∃ h', h.step asserts c = some h' ∧ h.Serves asserts c h' ∧ Keeps hash eq h' := by
  obtain ⟨⟨es,bs,hp⟩,rfl,rfl⟩ := hk
  obtain ⟨h',hserves,hhash,heq⟩ := hp.serves hag hok
  have ⟨r,hcall,hwf,_⟩ := hserves
  refine ⟨h',?_,hserves,⟨_,_,hwf⟩,hhash,heq⟩
  rw [HashHeap.step,hcall]
  rfl

/-- Tables whose entries are in place are served by every call but a transfer from a table that
hashes or compares in another way, or to itself. -/
theorem served_iff [Inhabited K] (hag : ∀ t, Agrees (hash t) (eq t)) {calls : List (HashCall K V)}
    (hplace : Run.Before (fun h => h.step asserts) InPlace (initial hash eq) calls) :
    Run.Through (fun h => h.step asserts) (Serves asserts) (initial hash eq) calls ↔
      Run.Before (fun h => h.step asserts) (TransferOk asserts) (initial hash eq) calls := by
  refine Run.through_iff_before_of_before (I := Keeps hash eq) ?_ ?_ .initial hplace
  · exact fun h c hk hplace hok => hk.step hag ((callOk_iff c).mpr ⟨hplace,hok⟩)
  · rintro h c h' ⟨⟨es,bs,hp⟩,-⟩ - - hserves
    exact ((callOk_iff c).mp (hp.callOk hserves)).2

end Runs

/-- Every call of a program over tables with one hash function and one equality returns and is
served: entries stay in their buckets, and answers are those of a dictionary. -/
def TableKept [Inhabited K] [Inhabited V] (hash : K → ℕ) (eq : K → K → Bool) (asserts : Bool)
    (calls : List (HashCall K V)) : Prop :=
  Run.Through (fun h => h.step asserts) (Serves asserts) (initial (fun _ => hash) (fun _ => eq))
    calls

/-- Tables that hash and compare alike can always take over from each other. -/
def ArgumentsOk (asserts : Bool) (h : HashHeap K V) : HashCall K V → Prop
  | .dict (.remove t e) => e ∈ h.entriesOf t
  | .dict (.takeOver t src) => src = t → asserts = true ∨ h.entriesOf t = []
  | .dict _ => True
  | .setBucketCount t count => h.entriesOf t ≠ [] → count ≠ 0

instance (asserts : Bool) (h : HashHeap K V) : (c : HashCall K V) →
    Decidable (h.ArgumentsOk asserts c)
  | .dict (.remove t e) => inferInstanceAs (Decidable (e ∈ h.entriesOf t))
  | .dict (.takeOver t src) =>
      inferInstanceAs (Decidable (src = t → asserts = true ∨ h.entriesOf t = []))
  | .dict (.visit _ _) | .dict (.find _ _) | .dict (.store _ _) | .dict (.removeKey _ _)
  | .dict (.clear _) => .isTrue trivial
  | .setBucketCount t count => inferInstanceAs (Decidable (h.entriesOf t ≠ [] → count ≠ 0))

theorem callOk_iff_argumentsOk {asserts : Bool} {hash : K → ℕ} {eq : K → K → Bool}
    (hhash : h.hash = fun _ => hash) (heq : h.eq = fun _ => eq) (c : HashCall K V) :
    h.CallOk asserts c ↔ h.ArgumentsOk asserts c := by
  cases c with
  | setBucketCount t n => rfl
  | dict d =>
    cases d with
    | takeOver t src =>
      rw [CallOk,ArgumentsOk,hhash,heq]
      split
      · rename_i hsrc
        exact ⟨fun hself _ => hself,fun hself => hself hsrc⟩
      · rename_i hne
        exact ⟨fun _ hsrc => absurd hsrc hne,fun _ => ⟨rfl,fun _ _ => rfl⟩⟩
    | _ => rfl

theorem agrees_mod (n : ℕ) : Agrees (· % n) (fun k k' : ℕ => k == k') where
  refl _ := beq_self_eq_true _
  symm k k' h := by
    rw [beq_iff_eq] at *
    exact h.symm
  trans k k' k'' h h' := by
    rw [beq_iff_eq] at *
    exact h.trans h'
  hash _ _ h := by rw [beq_iff_eq.mp h]

section Load

/-- No more than three quarters of the slots are for entries, and an array that was made larger has
been needed for the entries that were made. -/
def Loaded (h : HashHeap K V) : Prop :=
  ∀ t, (h.lists.count t = 0 ∨
      h.lists.count t * 100 < (ResizeThreshold + 1) * (h.table t).length) ∧
    ((h.table t).length ≤ InitialBucketCount ∨
      (ResizeThreshold + 1) * (h.table t).length ≤ 200 * h.allocated)

variable [Inhabited V] {asserts : Bool} {key : K}

omit [Inhabited V] in
theorem Loaded.ensureTable (hl : h.Loaded) (t : TableId) : (h.ensureTable t).Loaded := by
  by_cases hlen : (h.table t).length = 0
  · rw [HashHeap.ensureTable,if_pos hlen]
    intro t'
    by_cases ht : t' = t
    · subst ht
      have hcount := (hl t').1
      refine ⟨.inl (hcount.resolve_right ?_),.inl ?_⟩
      · rw [hlen]
        exact Nat.not_lt_zero _
      · simp
    · simpa [ht] using hl t'
  · rwa [HashHeap.ensureTable,if_neg hlen]

/-- A rehash doubles the slots before one too many is for entries. -/
theorem Loaded.insertResult (hl : h.Loaded) (hcount : h.lists.count t ≤ h.allocated)
    (hpos : 0 < (h.table t).length) {i : ℕ} (hr : insertResult h t i key = some h') :
    h'.Loaded := by
  have hsame := bucketAt_same (h := h) (t := t) i
  have hlength := bucketAt_length (h := h) (t := t) i
  unfold HashHeap.insertResult at hr
  generalize (h.bucketAt t i).1 = h₁,(h.bucketAt t i).2 = b at *
  have hlists : (h₁.insertNew t b key).lists.count =
      Function.update h.lists.count t (h.lists.count t + 1) := by
    simp [insertNew,LinkedLists.insertBetween,LinkedLists.setCount,hsame.lists]
  have htable : ∀ t', ((h₁.insertNew t b key).table t').length = (h.table t').length := hlength
  have halloc : (h₁.insertNew t b key).allocated = h.allocated + 1 :=
    congrArg (· + 1) hsame.allocated
  have hother : ∀ t', t' ≠ t → (h₁.insertNew t b key).lists.count t' = h.lists.count t' := by
    intro t' ht
    rw [hlists,Function.update_of_ne ht]
  have hself : (h₁.insertNew t b key).lists.count t = h.lists.count t + 1 := by
    rw [hlists,Function.update_self]
  have hold := hl t
  dsimp only at hr
  rw [hself,htable] at hr
  split at hr
  next hfull =>
    obtain ⟨hlists',halloc',hdoubled,htable'⟩ := setBucketCount_sizes hr
    have hfull' := (Nat.le_div_iff_mul_le hpos).mp hfull
    intro t'
    rw [hlists',halloc',halloc]
    by_cases ht : t' = t
    · subst ht
      rw [hself,hdoubled]
      simp only [ResizeThreshold,InitialBucketCount] at *
      rcases Nat.lt_or_ge (h.table t').length 2 with hone | htwo <;> omega
    · rw [hother t' ht,htable' t' ht,htable]
      have hold := hl t'
      omega
  next hroom =>
    cases hr
    intro t'
    rw [halloc,htable]
    by_cases ht : t' = t
    · subst ht
      rw [hself]
      simp only [ResizeThreshold,InitialBucketCount] at *
      have hroom' := (Nat.div_lt_iff_lt_mul hpos).mp (Nat.lt_succ_of_le (Nat.le_of_not_lt hroom))
      omega
    · rw [hother t' ht]
      have hold := hl t'
      omega

omit [Inhabited V] in
theorem Loaded.mono (hl : h.Loaded) (halloc : h'.allocated = h.allocated)
    (hold : ∀ t, h'.lists.count t ≤ h.lists.count t ∧ h'.table t = h.table t ∨
      h'.lists.count t = 0 ∧ h'.table t = [] ∨
      ∃ src, h'.lists.count t = h.lists.count src ∧ h'.table t = h.table src) : h'.Loaded := by
  intro t
  rw [halloc]
  rcases hold t with ⟨hcount,htable⟩ | ⟨hcount,htable⟩ | ⟨src,hcount,htable⟩
  · have h₁ := hl t
    rw [htable]
    omega
  · rw [hcount,htable]
    exact ⟨.inl rfl,.inl (Nat.zero_le _)⟩
  · rw [hcount,htable]
    exact hl src

theorem Loaded.visit (hl : h.Loaded) (hcount : h.lists.count t ≤ h.allocated) {p : EntryId}
    (hv : h.visit t key = some (h',p)) : h'.Loaded := by
  have hpos : 0 < ((h.ensureTable t).table t).length := by
    unfold HashHeap.ensureTable
    split
    · simp [InitialBucketCount]
    · omega
  have hcount' : (h.ensureTable t).lists.count t ≤ (h.ensureTable t).allocated := by
    unfold HashHeap.ensureTable
    split <;> exact hcount
  obtain ⟨i,-,hv⟩ := Option.bind_eq_some_iff.mp hv
  dsimp only at hv
  split at hv
  · cases hv
    exact hl.ensureTable t
  · have hr : (h.ensureTable t).insertResult t i key = some h' := by
      unfold HashHeap.insertResult
      dsimp only
      split at hv
      next hfull =>
        obtain ⟨h₁,hr,hv⟩ := Option.bind_eq_some_iff.mp hv
        cases hv
        rw [if_pos hfull,hr]
      next hroom =>
        cases hv
        rw [if_neg hroom]
    exact (hl.ensureTable t).insertResult hcount' hpos hr

omit [Inhabited V] in
theorem Loaded.remove (hl : h.Loaded) (hcount : h.lists.count t ≠ 0)
    (hr : h.remove t e = some h') : h'.Loaded := by
  obtain ⟨b,-,hr⟩ := Option.bind_eq_some_iff.mp hr
  cases hr
  refine hl.mono rfl fun t' => .inl ⟨?_,rfl⟩
  by_cases ht : t' = t
  · subst ht
    simp [LinkedLists.remove,LinkedLists.setCount,hcount]
  · simp [LinkedLists.remove,LinkedLists.setCount,ht]

theorem Loaded.step (hp : h.Tidy es bs) (hag : ∀ t, Agrees (h.hash t) (h.eq t)) (hl : h.Loaded)
    {c : DictCall K V} (hok : h.ArgumentsOk asserts (.dict c))
    (hs : h.step asserts (.dict c) = some h') : h'.Loaded := by
  have hcount : ∀ t, h.lists.count t ≤ h.allocated := fun t =>
    hp.lists.count t ▸ hp.lists.length_le (hp.allocated t)
  have hused : ∀ {t e}, e ∈ es t → h.lists.count t ≠ 0 := fun he => by
    rw [hp.lists.count]
    exact Nat.ne_of_gt (List.length_pos_of_mem he)
  obtain ⟨⟨h₁,r⟩,hcall,rfl⟩ := Option.map_eq_some_iff.mp hs
  cases c with
  | visit t key =>
    obtain ⟨⟨h₂,p⟩,hv,heq⟩ := Option.map_eq_some_iff.mp hcall
    cases heq
    exact hl.visit (hcount t) hv
  | find t key =>
    cases hcall
    exact hl
  | store e value =>
    cases hcall
    exact hl
  | remove t e =>
    obtain ⟨h₂,hr,heq⟩ := Option.map_eq_some_iff.mp hcall
    cases heq
    rw [ArgumentsOk,hp.entriesOf_eq] at hok
    exact hl.remove (hused hok) hr
  | removeKey t key =>
    simp only [call] at hcall
    split at hcall
    · cases hcall
      exact hl
    next e hfind =>
      obtain ⟨h₂,hr,heq⟩ := Option.map_eq_some_iff.mp hcall
      cases heq
      rw [hp.placed.find_eq (hag t)] at hfind
      exact hl.remove (hused (List.mem_of_find?_eq_some hfind)) hr
  | clear t =>
    cases hcall
    refine hl.mono rfl fun t' => ?_
    by_cases ht : t' = t
    · subst ht
      exact .inr (.inl (by simp [HashHeap.clear,LinkedLists.clear,LinkedLists.setEnds]))
    · exact .inl (by simp [HashHeap.clear,LinkedLists.clear,LinkedLists.setEnds,ht])
  | takeOver t src =>
    simp only [call] at hcall
    split at hcall
    · cases hcall
      exact hl
    · cases hcall
      refine hl.mono rfl fun t' => ?_
      by_cases hsrc : t' = src
      · subst hsrc
        exact .inr (.inl (by simp [HashHeap.takeOver,LinkedLists.takeOver,LinkedLists.clear,
          LinkedLists.setEnds]))
      · by_cases ht : t' = t
        · subst ht
          exact .inr (.inr ⟨src,by simp [HashHeap.takeOver,LinkedLists.takeOver,
            LinkedLists.clear,LinkedLists.setEnds,hsrc]⟩)
        · exact .inl (by simp [HashHeap.takeOver,LinkedLists.takeOver,LinkedLists.clear,
            LinkedLists.setEnds,hsrc,ht])

/-- A program that only uses its tables as dictionaries keeps them at most three quarters full, and
their arrays of buckets in proportion to what it has ever put there. -/
theorem load_bounded [Inhabited K] {hash : K → ℕ} {eq : K → K → Bool} (hag : Agrees hash eq)
    (asserts : Bool) {calls : List (DictCall K V)}
    (hcalls : Run.Before (fun h c => h.step asserts (.dict c))
      (fun h c => h.ArgumentsOk asserts (.dict c)) (initial (fun _ => hash) (fun _ => eq)) calls) :
    Run.Always (fun h c => h.step asserts (.dict c))
      (fun h => ∀ t, (h.entriesOf t).length * 100 / (h.table t).length ≤ ResizeThreshold ∧
        ((h.table t).length = 0 → h.entriesOf t = []) ∧
        ((h.table t).length ≤ InitialBucketCount ∨ 38 * (h.table t).length ≤ 100 * h.allocated))
      (initial (fun _ => hash) (fun _ => eq)) calls := by
  refine Run.always_of_along (I := fun h => Keeps (fun _ => hash) (fun _ => eq) h ∧ h.Loaded)
    ?_ ?_ ⟨.initial,fun t => ⟨.inl rfl,.inl (Nat.zero_le _)⟩⟩ hcalls.along
  · rintro h ⟨⟨⟨es,bs,hp⟩,-⟩,hl⟩ t
    obtain ⟨hload,hsize⟩ := hl t
    rw [hp.lists.count] at hload
    rw [hp.entriesOf_eq]
    simp only [ResizeThreshold] at *
    refine ⟨?_,fun hzero => ?_,by omega⟩
    · rcases Nat.eq_zero_or_pos (h.table t).length with hzero | hpos
      · rw [hzero,Nat.div_zero]
        exact Nat.zero_le _
      · rw [← Nat.lt_succ_iff,Nat.div_lt_iff_lt_mul hpos]
        omega
    · rw [hzero] at hload
      exact List.eq_nil_of_length_eq_zero (by omega)
  · rintro h c h' ⟨hk,hl⟩ hok hstep
    obtain ⟨⟨es,bs,hp⟩,hhash,heq⟩ := hk
    have hag' : ∀ t, Agrees (h.hash t) (h.eq t) := by
      rw [hhash,heq]
      exact fun _ => hag
    refine ⟨?_,hl.step hp hag' hok hstep⟩
    obtain ⟨h'',hstep',-,hk'⟩ := Keeps.step (fun _ => hag) ⟨⟨es,bs,hp⟩,hhash,heq⟩
      ((callOk_iff_argumentsOk hhash heq _).mpr hok)
    obtain rfl : h' = h'' := Option.some.inj (hstep.symm.trans hstep')
    exact hk'

theorem load_bounded_transfer :
    Run.Always (fun (h : HashHeap ℕ ℕ) c => h.step false (.dict c))
      (fun h => ∀ t, (h.entriesOf t).length * 100 / (h.table t).length ≤ ResizeThreshold ∧
        ((h.table t).length = 0 → h.entriesOf t = []) ∧
        ((h.table t).length ≤ InitialBucketCount ∨ 38 * (h.table t).length ≤ 100 * h.allocated))
      (initial (fun _ => (· % 32)) fun _ k k' => k == k')
      [.visit 0 7,.visit 0 39,.remove 0 0,.takeOver 1 0,.removeKey 1 39] :=
  load_bounded (agrees_mod 32) false (by decide)

end Load

section Hash

variable [Inhabited V] {asserts : Bool} {c : HashCall K V}

/-- How many entries a call makes. -/
def made (w : World K V) : HashCall K V → ℕ
  | .dict (.visit t key) => if w.find t key = none then 1 else 0
  | _ => 0

omit [Inhabited V] in
theorem remove_allocated (hr : h.remove t e = some h') : h'.allocated = h.allocated := by
  obtain ⟨b,-,hr⟩ := Option.bind_eq_some_iff.mp hr
  cases hr
  rfl

theorem Partly.step_allocated (hp : h.Tidy es bs) (hag : ∀ t, Agrees (h.hash t) (h.eq t))
    (hok : h.CallOk asserts c) (hs : h.step asserts c = some h') :
    h'.allocated = h.allocated + made h.worldOf c := by
  obtain ⟨⟨h₁,x⟩,hcall,rfl⟩ := Option.map_eq_some_iff.mp hs
  cases c with
  | setBucketCount t n =>
    rw [CallOk,hp.entriesOf_eq] at hok
    obtain ⟨h₂,bs₂,hset,-,hsame⟩ := hp.setBucketCount hok
    rw [call,hset] at hcall
    cases hcall
    exact hsame.allocated
  | dict d =>
    cases d with
    | visit t key =>
      rw [made,hp.worldOf_eq,World.of_find]
      obtain ⟨⟨h₂,p⟩,hvisit,hx⟩ := Option.map_eq_some_iff.mp hcall
      cases hx
      cases hfind : (es t).find? fun e => h.eq t key (h.key e) with
      | some e =>
        cases (hp.visit_old (hag t) hfind).symm.trans hvisit
        exact (hp.ensureTable t).2.1.allocated
      | none =>
        obtain ⟨h₃,bs₃,hvisit',-,-,-,-,-,hallocated⟩ := hp.visit_new (hag t) hfind
        cases hvisit'.symm.trans hvisit
        exact hallocated
    | remove t e =>
      obtain ⟨h₂,hr,hx⟩ := Option.map_eq_some_iff.mp hcall
      cases hx
      exact remove_allocated hr
    | removeKey t key =>
      rw [call] at hcall
      split at hcall
      · cases hcall
        rfl
      · obtain ⟨h₂,hr,hx⟩ := Option.map_eq_some_iff.mp hcall
        cases hx
        exact remove_allocated hr
    | takeOver t src =>
      rw [call] at hcall
      split at hcall
      all_goals
        cases hcall
        rfl
    | _ =>
      cases hcall
      rfl

/-- Two programs that have the same dictionaries, in the same order. -/
structure Alike (h h₂ : HashHeap K V) : Prop where
  world : h.worldOf = h₂.worldOf
  allocated : h.allocated = h₂.allocated

omit [Inhabited V] in
theorem Alike.argumentsOk {h₂ : HashHeap K V} (ha : h.Alike h₂) (hok : h.ArgumentsOk asserts c) :
    h₂.ArgumentsOk asserts c := by
  have hentries : h.entriesOf = h₂.entriesOf := by
    funext t
    rw [← worldOf_entries,ha.world,worldOf_entries]
  cases c with
  | setBucketCount t n => rwa [ArgumentsOk,← hentries]
  | dict d =>
    cases d with
    | remove t e => rwa [ArgumentsOk,← hentries]
    | takeOver t src => rwa [ArgumentsOk,← hentries]
    | _ => trivial

/-- What a program sees of a call: the result, and the dictionaries behind it. -/
def seen (asserts : Bool) (h : HashHeap K V) (c : HashCall K V) (h' : HashHeap K V) :
    List (Option DictResult × World K V) := [((h.call asserts c).map Prod.snd,h'.worldOf)]

variable {hash hash' : K → ℕ} {eq : K → K → Bool}

theorem Alike.step {h₂ : HashHeap K V} (ha : h.Alike h₂) (hag : Agrees hash eq)
    (hag' : Agrees hash' eq) (hk : h.Keeps (fun _ => hash) fun _ => eq)
    (hk₂ : h₂.Keeps (fun _ => hash') fun _ => eq) (hok : h.ArgumentsOk asserts c) :
    ∃ h' h₂',h.step asserts c = some h' ∧ h₂.step asserts c = some h₂' ∧ h'.Alike h₂' ∧
      h'.Keeps (fun _ => hash) (fun _ => eq) ∧ h₂'.Keeps (fun _ => hash') (fun _ => eq) ∧
      seen asserts h c h' = seen asserts h₂ c h₂' := by
  have ⟨⟨es,bs,hp⟩,hhash,heq⟩ := hk
  have ⟨⟨es₂,bs₂,hp₂⟩,hhash₂,heq₂⟩ := hk₂
  have hok' := (callOk_iff_argumentsOk hhash heq c).mpr hok
  have hok₂ := (callOk_iff_argumentsOk hhash₂ heq₂ c).mpr (ha.argumentsOk hok)
  obtain ⟨h',hstep,⟨x,hcall,-,hworld⟩,hk'⟩ := hk.step (fun _ => hag) hok'
  obtain ⟨h₂',hstep₂,⟨y,hcall₂,-,hworld₂⟩,hk₂'⟩ := hk₂.step (fun _ => hag') hok₂
  have hsame : (h'.worldOf,x) = (h₂'.worldOf,y) := by
    cases c with
    | dict d => rw [← hworld,← hworld₂,ha.world,ha.allocated]
    | setBucketCount t n => rw [hworld.1,hworld.2,hworld₂.1,hworld₂.2,ha.world]
  refine ⟨h',h₂',hstep,hstep₂,⟨congrArg Prod.fst hsame,?_⟩,hk',hk₂',?_⟩
  · rw [hp.step_allocated (fun _ => by rwa [hhash,heq]) hok' hstep,
      hp₂.step_allocated (fun _ => by rwa [hhash₂,heq₂]) hok₂ hstep₂,ha.world,ha.allocated]
  · rw [seen,seen,hcall,hcall₂]
    exact congrArg (fun r => [(some r.2,r.1)]) hsame

theorem Alike.collect {h₂ : HashHeap K V} (ha : h.Alike h₂) (hag : Agrees hash eq)
    (hag' : Agrees hash' eq) (hk : h.Keeps (fun _ => hash) fun _ => eq)
    (hk₂ : h₂.Keeps (fun _ => hash') fun _ => eq) {calls : List (HashCall K V)}
    (hcalls : Run.Before (fun h => h.step asserts) (ArgumentsOk asserts) h calls) :
    Run.collect (fun h => h.step asserts) (seen asserts) h calls =
      Run.collect (fun h => h.step asserts) (seen asserts) h₂ calls := by
  induction calls generalizing h h₂ with
  | nil => rfl
  | cons c calls ih =>
    obtain ⟨hok,hrest⟩ := hcalls
    obtain ⟨h',h₂',hstep,hstep₂,ha',hk',hk₂',hseen⟩ := ha.step hag hag' hk hk₂ hok
    dsimp only at hrest
    rw [hstep] at hrest
    rw [Run.collect_cons _ hstep,Run.collect_cons _ hstep₂,hseen,ih ha' hk' hk₂' hrest]

end Hash

end Jancy.Stdt.HashHeap
