import Jancy.Stdt.RbTreeOps

/-! Programs over `stdt.RbTree`: which of them keep the trees and get the answers of a dictionary. -/
namespace Jancy.Stdt.RbHeap

open LinkedTrees RedBlack

variable {K V : Type} {h h' : RbHeap K V} {es es' : TableId → List EntryId}
  {ts ts' : TableId → Shape EntryId RbTreeColor} {t : TableId} {e : EntryId}

/-- Every tree is a red-black tree whose nodes, in order, are the entries of its sorted list. -/
def WellFormed (h : RbHeap K V) : Prop := ∃ ts, h.Grown h.entriesOf ts

/-- What a program sees: a new entry goes in front of the first one with a greater key. -/
def worldOf (h : RbHeap K V) : World K V :=
  .of h.entriesOf h.key h.value fun t => ⟨same (h.cmp t),h.cmp t⟩

/-- The call returns what the dictionary returns and does what the dictionary does. -/
def Serves [Inhabited V] (asserts : Bool) (h : RbHeap K V) (c : DictCall K V) (h' : RbHeap K V) :
    Prop :=
  ∃ r, h.call asserts c = some (h',r) ∧ h'.WellFormed ∧
    h.worldOf.call asserts h.allocated c = (h'.worldOf,r)

/-- An entry that is removed is on the tree, and the entries that are taken over are those of
another tree that compares in the same way. -/
def CallOk (asserts : Bool) (h : RbHeap K V) : DictCall K V → Prop
  | .remove t e => e ∈ h.entriesOf t
  | .takeOver t src =>
      if src = t then asserts = true ∨ h.entriesOf t = [] else h.cmp t = h.cmp src
  | _ => True

theorem Grown.wellFormed (hg : h.Grown es ts) : h.WellFormed := by
  rw [WellFormed,hg.entriesOf_eq]
  exact ⟨ts,hg⟩

theorem Grown.worldOf_eq (hg : h.Grown es ts) :
    h.worldOf = .of es h.key h.value fun t => ⟨same (h.cmp t),h.cmp t⟩ := by
  rw [worldOf,hg.entriesOf_eq]

theorem Grown.worldOf_find (hg : h.Grown es ts) (key : K) :
    h.worldOf.find t key = (es t).find? fun e => same (h.cmp t) key (h.key e) := by
  rw [hg.worldOf_eq,World.of_find]

section Calls

variable [Inhabited V] {asserts : Bool} {key : K}

theorem Grown.serves_visit (hg : h.Grown es ts) (hlt : StrictWeak (h.cmp t)) :
    ∃ h', h.Serves asserts (.visit t key) h' ∧ h'.cmp = h.cmp := by
  cases hfind : (es t).find? (fun e => same (h.cmp t) key (h.key e)) with
  | some e =>
    refine ⟨h,⟨.entry (some e),?_,hg.wellFormed,?_⟩,rfl⟩
    · rw [call,hg.visit_old hlt hfind]
      rfl
    · rw [World.call,hg.worldOf_find,hfind]
  | none =>
    obtain ⟨h',xs,ys,u,hvisit,hcut,hbetween,hg',hkey,hvalue,hcmp⟩ := hg.visit_new hlt hfind
    refine ⟨h',⟨.entry (some h.allocated),?_,hg'.wellFormed,?_⟩,hcmp⟩
    · rw [call,hvisit]
      rfl
    · have hxs : ∀ x ∈ xs, h.cmp t key (h.key x) = false := by
        intro x hx
        have hlt' := hbetween.before x hx
        exact Bool.eq_false_iff.mpr fun hgt => hlt.irrefl _ (hlt.trans _ _ _ hgt hlt')
      rw [World.call,hg.worldOf_find,hfind]
      dsimp only
      rw [hg.worldOf_eq,World.of_put hcut default hxs hbetween.after hg.fresh,hg'.worldOf_eq,
        hkey,hvalue,hcmp]

omit [Inhabited V] in
theorem Grown.serves_remove (hg : h.Grown es ts) (he : e ∈ es t) :
    ∃ h', RbHeap.remove h t e = some h' ∧ h'.WellFormed ∧ h'.worldOf = h.worldOf.erase t e ∧
      h'.cmp = h.cmp := by
  obtain ⟨h',u,hremove,hg',hkey,hvalue,hcmp⟩ := hg.remove he
  refine ⟨h',hremove,hg'.wellFormed,?_,hcmp⟩
  rw [hg'.worldOf_eq,hg.worldOf_eq,World.of_erase (hg.lists.nodup t),hkey,hvalue,hcmp]

theorem Grown.serves_removeKey (hg : h.Grown es ts) (hlt : StrictWeak (h.cmp t)) :
    ∃ h', h.Serves asserts (.removeKey t key) h' ∧ h'.cmp = h.cmp := by
  have hfind := hg.find_eq hlt key
  have hworld := hg.worldOf_find (t := t) key
  cases hfound : (es t).find? (fun e => same (h.cmp t) key (h.key e)) with
  | none =>
    rw [hfound] at hfind hworld
    refine ⟨h,⟨.bool false,?_,hg.wellFormed,?_⟩,rfl⟩
    · simp [call,hfind]
    · simp [World.call,hworld]
  | some e =>
    rw [hfound] at hfind hworld
    obtain ⟨h',hremove,hwf,hworld',hcmp⟩ := hg.serves_remove (List.mem_of_find?_eq_some hfound)
    refine ⟨h',⟨.bool true,?_,hwf,?_⟩,hcmp⟩
    · simp [call,hfind,hremove]
    · simp [World.call,hworld,hworld']

theorem Grown.serves_store (hg : h.Grown es ts) (value : V) :
    ∃ h', h.Serves asserts (.store e value) h' ∧ h'.cmp = h.cmp := by
  have hg' : Grown ({ h with value := Function.update h.value e value } : RbHeap K V) es ts :=
    ⟨hg.lists,hg.nodes,hg.balanced,hg.inorder,hg.sorted,hg.allocated⟩
  refine ⟨_,⟨.void,rfl,hg'.wellFormed,?_⟩,rfl⟩
  rw [World.call,hg.worldOf_eq,hg'.worldOf_eq,World.of_store]

theorem Grown.serves_clear (hg : h.Grown es ts) (t : TableId) :
    h.Serves asserts (.clear t) (RbHeap.clear h t) := by
  have hg' := hg.clear t
  refine ⟨.void,rfl,hg'.wellFormed,?_⟩
  rw [World.call,hg.worldOf_eq,hg'.worldOf_eq,World.of_clear]
  rfl

omit [Inhabited V] in
theorem takeOver_self : takeOver h t t = clear h t := by
  simp [takeOver,clear,LinkedLists.takeOver_self,setRoot]

theorem Grown.serves_takeOver (hg : h.Grown es ts) {src : TableId} (hne : src ≠ t)
    (hcmp : h.cmp t = h.cmp src) : h.Serves asserts (.takeOver t src) (RbHeap.takeOver h t src) := by
  have hg' := hg.takeOver hne hcmp
  have hcall : h.call asserts (.takeOver t src) = some (RbHeap.takeOver h t src,.void) := by
    have hbeq : (asserts && src == t) = false := by simp [hne]
    simp [call,hbeq]
  have hdiscipline : Function.update (fun t => (⟨same (h.cmp t),h.cmp t⟩ : Discipline K)) t
      ⟨same (h.cmp src),h.cmp src⟩ = fun t => ⟨same (h.cmp t),h.cmp t⟩ := by
    rw [← hcmp,Function.update_eq_self]
  refine ⟨.void,hcall,hg'.wellFormed,?_⟩
  rw [hg.worldOf_eq,World.of_takeOver hne,hg'.worldOf_eq,hdiscipline]
  rfl

theorem Grown.serves_takeOver_self (hg : h.Grown es ts) (hself : asserts = true ∨ es t = []) :
    ∃ h', h.Serves asserts (.takeOver t t) h' ∧ h'.cmp = h.cmp := by
  cases hasserts : asserts with
  | true =>
    refine ⟨h,⟨.thrown,?_,hg.wellFormed,?_⟩,rfl⟩
    · simp [call]
    · simp [World.call]
  | false =>
    have hempty : es t = [] := by simpa [hasserts] using hself
    have hg' := hg.clear t
    rw [← takeOver_self,← hempty,Function.update_eq_self] at hg'
    refine ⟨RbHeap.takeOver h t t,⟨.void,?_,hg'.wellFormed,?_⟩,rfl⟩
    · simp [call]
    · rw [World.call,if_pos rfl,hg.worldOf_eq,hg'.worldOf_eq]
      rfl

theorem Grown.serves (hg : h.Grown es ts) (hlt : ∀ t, StrictWeak (h.cmp t)) {c : DictCall K V}
    (hok : h.CallOk asserts c) : ∃ h', h.Serves asserts c h' ∧ h'.cmp = h.cmp := by
  cases c with
  | visit t key => exact hg.serves_visit (hlt t)
  | find t key =>
    refine ⟨h,⟨.entry (h.worldOf.find t key),?_,hg.wellFormed,rfl⟩,rfl⟩
    rw [call,hg.find_eq (hlt t),hg.worldOf_find]
    rfl
  | store e value => exact hg.serves_store value
  | remove t e =>
    rw [CallOk,hg.entriesOf_eq] at hok
    obtain ⟨h',hremove,hwf,hworld,hcmp⟩ := hg.serves_remove hok
    refine ⟨h',⟨.void,?_,hwf,?_⟩,hcmp⟩
    · simp [call,hremove]
    · simp [World.call,hworld]
  | removeKey t key => exact hg.serves_removeKey (hlt t)
  | clear t => exact ⟨_,hg.serves_clear t,rfl⟩
  | takeOver t src =>
    rw [CallOk,hg.entriesOf_eq] at hok
    split at hok
    · rename_i heq
      subst heq
      exact hg.serves_takeOver_self hok
    · rename_i hne
      exact ⟨_,hg.serves_takeOver hne hok,rfl⟩

end Calls

section Necessity

variable [Inhabited V] {asserts : Bool}

omit [Inhabited V] in
theorem worldOf_entries (h : RbHeap K V) (t : TableId) :
    (h.worldOf.dict t).map Record.entry = h.entriesOf t := World.of_entries t

omit [Inhabited V] in
theorem remove_lists (hremove : remove h t e = some h') : h'.lists = h.lists.remove t e := by
  obtain ⟨⟨h₁,child⟩,hreplace,hrest⟩ := Option.bind_eq_some_iff.mp hremove
  obtain ⟨nodes,-,heq⟩ := Option.bind_eq_some_iff.mp hrest
  obtain rfl := Option.some.inj heq
  obtain ⟨nodes₁,-,hrest₁⟩ := Option.bind_eq_some_iff.mp hreplace
  obtain ⟨nodes₂,-,heq₁⟩ := Option.bind_eq_some_iff.mp hrest₁
  obtain ⟨rfl,-⟩ := Prod.mk.inj (Option.some.inj heq₁)
  rfl

theorem Grown.remove_needs (hg : h.Grown es ts) (hserves : h.Serves asserts (.remove t e) h') :
    e ∈ h.entriesOf t := by
  obtain ⟨r,hcall,⟨ts',hg'⟩,hworld⟩ := hserves
  by_contra hnot
  have hremove : RbHeap.remove h t e = some h' := by
    obtain ⟨h'',hr,heq⟩ := Option.map_eq_some_iff.mp hcall
    rw [hr,(Prod.mk.inj heq).1]
  have hsame : h'.entriesOf t = h.entriesOf t := by
    have hdict := congrArg (fun w : World K V × DictResult => w.1.dict t) hworld
    have hkeep : ∀ x ∈ h.worldOf.dict t, (x.entry != e) = true := by
      intro x hx
      rw [bne_iff_ne]
      rintro rfl
      exact hnot (h.worldOf_entries t ▸ List.mem_map_of_mem hx)
    simp only [World.call,World.erase,World.setDict,Function.update_self] at hdict
    rw [← worldOf_entries,← hdict,List.filter_eq_self.mpr hkeep,worldOf_entries]
  have hcount := hg'.lists.count t
  rw [hsame,remove_lists hremove,hg.entriesOf_eq,← hg.lists.count t] at hcount
  exact LinkedLists.remove_count_ne e hcount

theorem Grown.takeOver_self_needs (hg : h.Grown es ts)
    (hserves : h.Serves asserts (.takeOver t t) h') : asserts = true ∨ h.entriesOf t = [] := by
  obtain ⟨r,hcall,-,hworld⟩ := hserves
  cases asserts with
  | true => exact .inl rfl
  | false =>
    right
    have heq : h' = RbHeap.clear h t := by
      have hstep : h.call false (.takeOver t t) = some (RbHeap.takeOver h t t,.void) := by
        simp [call]
      rw [← takeOver_self]
      exact (Prod.mk.inj (Option.some.inj (hcall.symm.trans hstep))).1
    have hg' := hg.clear t
    rw [← heq] at hg'
    have hdict := congrArg (fun w : World K V × DictResult => w.1.dict t) hworld
    simp only [World.call,if_pos] at hdict
    rw [← worldOf_entries,hdict,worldOf_entries,hg'.entriesOf_eq,Function.update_self]

theorem takeOver_needs {src : TableId} (hne : src ≠ t)
    (hserves : h.Serves asserts (.takeOver t src) h') : h.cmp t = h.cmp src := by
  obtain ⟨r,hcall,-,hworld⟩ := hserves
  obtain rfl : h' = takeOver h t src := by
    have hbeq : (asserts && src == t) = false := by simp [hne]
    have hstep : h.call asserts (.takeOver t src) = some (takeOver h t src,.void) := by
      simp [call,hbeq]
    exact (Prod.mk.inj (Option.some.inj (hcall.symm.trans hstep))).1
  rw [World.call,if_neg hne] at hworld
  have hbefore := congrArg (fun w : World K V => (w.discipline t).before) (Prod.mk.inj hworld).1
  dsimp only at hbefore
  rw [Function.update_self] at hbefore
  exact hbefore.symm

theorem Grown.callOk (hg : h.Grown es ts) {c : DictCall K V} (hserves : h.Serves asserts c h') :
    h.CallOk asserts c := by
  cases c with
  | remove t e => exact hg.remove_needs hserves
  | takeOver t src =>
    rw [CallOk]
    split
    · rename_i heq
      subst heq
      exact hg.takeOver_self_needs hserves
    · rename_i hne
      exact takeOver_needs hne hserves
  | _ => trivial

end Necessity

/-- Every call of a program over trees with these comparators returns and is served: no assertion
fails, the trees stay red-black trees, and answers are those of a dictionary. -/
def TreeKept [Inhabited K] [Inhabited V] (cmp : TableId → K → K → Bool) (asserts : Bool)
    (calls : List (DictCall K V)) : Prop :=
  Run.Through (fun h => h.step asserts) (Serves asserts) (initial cmp) calls

/-- What the trees of a program compare with stays the same. -/
def Keeps (cmp : TableId → K → K → Bool) (h : RbHeap K V) : Prop := h.WellFormed ∧ h.cmp = cmp

def InPlace (h : RbHeap K V) : DictCall K V → Prop
  | .remove t e => e ∈ h.entriesOf t
  | _ => True

/-- The tree that takes over compares in the same way; one that takes over itself is empty, or it is
told so. -/
def TransferOk (asserts : Bool) (h : RbHeap K V) : DictCall K V → Prop
  | .takeOver t src =>
      if src = t then asserts = true ∨ h.entriesOf t = [] else h.cmp t = h.cmp src
  | _ => True

theorem callOk_iff {asserts : Bool} (c : DictCall K V) :
    h.CallOk asserts c ↔ h.InPlace c ∧ h.TransferOk asserts c := by
  cases c <;> simp [CallOk,InPlace,TransferOk]

section Runs

variable [Inhabited K] [Inhabited V] {asserts : Bool} {cmp : TableId → K → K → Bool}

theorem Keeps.initial : Keeps cmp (RbHeap.initial cmp : RbHeap K V) :=
  ⟨(initial_grown cmp).wellFormed,rfl⟩

omit [Inhabited K] in
theorem Keeps.step (hlt : ∀ t, StrictWeak (cmp t)) (hk : Keeps cmp h) {c : DictCall K V}
    (hok : h.CallOk asserts c) :
    ∃ h', h.step asserts c = some h' ∧ h.Serves asserts c h' ∧ Keeps cmp h' := by
  obtain ⟨⟨ts,hg⟩,rfl⟩ := hk
  obtain ⟨h',hserves,hcmp⟩ := hg.serves hlt hok
  have ⟨r,hcall,hwf,_⟩ := hserves
  refine ⟨h',?_,hserves,hwf,hcmp⟩
  rw [RbHeap.step,hcall]
  rfl

/-- Trees whose entries are in place are served by every call but a transfer from a tree that
compares in another way, or to itself. -/
theorem served_iff (hlt : ∀ t, StrictWeak (cmp t)) {calls : List (DictCall K V)}
    (hplace : Run.Before (fun h => h.step asserts) InPlace (initial cmp) calls) :
    Run.Through (fun h => h.step asserts) (Serves asserts) (initial cmp) calls ↔
      Run.Before (fun h => h.step asserts) (TransferOk asserts) (initial cmp) calls := by
  refine Run.through_iff_before_of_before (I := Keeps cmp) ?_ ?_ .initial hplace
  · exact fun h c hk hplace hok => hk.step hlt ((callOk_iff c).mpr ⟨hplace,hok⟩)
  · rintro h c h' ⟨⟨ts,hg⟩,-⟩ - - hserves
    exact ((callOk_iff c).mp (hg.callOk hserves)).2

end Runs

/-- What is removed through an iterator is on the tree, and trees do not take over each other. -/
def OnTree (h : RbHeap K V) : DictCall K V → Prop
  | .remove t e => e ∈ h.entriesOf t
  | .takeOver _ _ => False
  | _ => True

instance (h : RbHeap K V) : (c : DictCall K V) → Decidable (h.OnTree c)
  | .remove t e => inferInstanceAs (Decidable (e ∈ h.entriesOf t))
  | .takeOver _ _ => .isFalse id
  | .visit _ _ | .find _ _ | .store _ _ | .removeKey _ _ | .clear _ => .isTrue trivial

/-- Lookups, insertions and removals keep red-black trees and are those of a finite map. -/
theorem treeKept_of_onTree [Inhabited K] [Inhabited V] {cmp : TableId → K → K → Bool}
    (hlt : ∀ t, StrictWeak (cmp t)) (asserts : Bool) {calls : List (DictCall K V)}
    (hcalls : Run.Before (fun h => h.step asserts) OnTree (initial cmp) calls) :
    TreeKept cmp asserts calls := by
  apply (served_iff hlt (hcalls.mono ?_)).mpr (hcalls.mono ?_)
  · intro h c hon
    cases c with
    | remove t e => exact hon
    | _ => trivial
  · intro h c hon
    cases c with
    | takeOver t src => exact hon.elim
    | _ => trivial

/-- The way down to a key has at most twice as many turns as the number of entries has binary
digits. -/
theorem descends_in_log_turns [Inhabited K] [Inhabited V] {cmp : TableId → K → K → Bool}
    (hlt : ∀ t, StrictWeak (cmp t)) (asserts : Bool) {calls : List (DictCall K V)}
    (hcalls : Run.Before (fun h => h.step asserts) (CallOk asserts) (initial cmp) calls) :
    Run.Always (fun h => h.step asserts)
      (fun h => ∀ t key p, h.nodes.root t = some p →
        ∃ r, h.descend t key (2 * Nat.log2 (h.lists.count t + 1)) p = some r)
      (initial cmp) calls := by
  refine Run.always_of_along (I := Keeps cmp) ?_ ?_ .initial hcalls.along
  · rintro h ⟨⟨ts,hg⟩,rfl⟩ t key p hroot
    obtain ⟨m,hbalanced⟩ := hg.balanced t
    have hheight := hbalanced.height_le_log
    rw [hg.inorder,← hg.lists.count t] at hheight
    obtain ⟨r,hdescend,-⟩ := hg.spot (hlt t) ((hg.nodes t).root.symm.trans hroot) key hheight
    exact ⟨r,hdescend⟩
  · intro h c h' hk hok hstep
    obtain ⟨h'',hstep',-,hk'⟩ := hk.step hlt hok
    obtain rfl : h' = h'' := Option.some.inj (hstep.symm.trans hstep')
    exact hk'

theorem strictWeak_lt : StrictWeak fun k k' : ℕ => decide (k < k') where
  irrefl k hk := lt_irrefl k (of_decide_eq_true hk)
  trans _ _ _ h h' := decide_eq_true ((of_decide_eq_true h).trans (of_decide_eq_true h'))
  incomp_trans k k' k'' h h' := by
    simp only [decide_eq_true_eq] at *
    omega

/-- A new entry is rotated up, and the one with two children is removed. -/
theorem treeKept_rotations :
    TreeKept (V := ℕ) (fun _ (k k' : ℕ) => decide (k < k')) false
      [.visit 0 1,.visit 0 2,.visit 0 3,.visit 0 4,.remove 0 1,.removeKey 0 1,.find 0 3] :=
  treeKept_of_onTree (fun _ => strictWeak_lt) false (by decide)

theorem descends_in_log_turns_rotations :
    Run.Always (fun h : RbHeap ℕ ℕ => h.step false)
      (fun h => ∀ t key p, h.nodes.root t = some p →
        ∃ r, h.descend t key (2 * Nat.log2 (h.lists.count t + 1)) p = some r)
      (initial fun _ (k k' : ℕ) => decide (k < k'))
      [.visit 0 1,.visit 0 2,.visit 0 3,.removeKey 0 1] :=
  descends_in_log_turns (fun _ => strictWeak_lt) false ⟨trivial,trivial,trivial,trivial,trivial⟩

end Jancy.Stdt.RbHeap
