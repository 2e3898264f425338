import Jancy.Stdt.RbTreeRemove

/-! The invariant of `stdt.RbTree` and the way down to a key. -/
namespace Jancy.Stdt.RbHeap

open LinkedTrees RedBlack

variable {K V : Type} {h h' : RbHeap K V} {es : TableId → List EntryId}
  {ts : TableId → Shape EntryId RbTreeColor} {t : TableId} {e p : EntryId} {key : K}

abbrev StrictWeak (cmp : K → K → Bool) : Prop := IsStrictWeakOrder K fun a b => cmp a b = true

/-- Links spell out red-black trees whose nodes, in order, are the entries of the lists, and those
are sorted. -/
structure Grown (h : RbHeap K V) (es : TableId → List EntryId)
    (ts : TableId → Shape EntryId RbTreeColor) : Prop where
  lists : h.lists.Represents es
  nodes : ∀ t, h.nodes.Holds t (ts t)
  balanced : ∀ t, ∃ m, Balanced (ts t) .black m
  inorder : ∀ t, (ts t).ids = es t
  sorted : ∀ t, (es t).Pairwise fun e e' => h.cmp t (h.key e) (h.key e') = true
  allocated : ∀ t, ∀ e ∈ es t, e < h.allocated

theorem initial_grown [Inhabited K] [Inhabited V] (cmp : TableId → K → K → Bool) :
    Grown (initial cmp : RbHeap K V) (fun _ => []) (fun _ => .leaf) where
  lists := LinkedLists.empty_represents
  nodes _ := ⟨trivial,rfl,List.nodup_nil⟩
  balanced _ := ⟨0,.leaf⟩
  inorder _ := rfl
  sorted _ := .nil
  allocated _ _ he := absurd he List.not_mem_nil

theorem Grown.entriesOf_eq (hg : Grown h es ts) : h.entriesOf = es := by
  funext t
  exact hg.lists.walk_eq (hg.lists.length_le (hg.allocated t))

/-- What a way down finds: an entry that is neither in front of the key nor behind it, or the gap
between the entries in front of it and those behind it. -/
def IsSpot (h : RbHeap K V) (t : TableId) (key : K) (u : Shape EntryId RbTreeColor) : Spot → Prop
  | .found e => e ∈ u.ids ∧ h.cmp t key (h.key e) = false ∧ h.cmp t (h.key e) key = false
  | .below e s => ∃ f path, u = Path.plug (f :: path) .leaf ∧ f.a = e ∧ f.side = s ∧
      (∀ x ∈ Path.before (f :: path), h.cmp t (h.key x) key = true) ∧
      ∀ x ∈ Path.after (f :: path), h.cmp t key (h.key x) = true

theorem descend_spec (hlt : StrictWeak (h.cmp t)) (path : Path EntryId RbTreeColor)
    {u : Shape EntryId RbTreeColor} {fuel : ℕ} (hh : h.nodes.Holds t (Path.plug path u))
    (hsorted : (Path.plug path u).ids.Pairwise fun e e' => h.cmp t (h.key e) (h.key e') = true)
    (hbefore : ∀ x ∈ Path.before path, h.cmp t (h.key x) key = true)
    (hafter : ∀ x ∈ Path.after path, h.cmp t key (h.key x) = true) (htop : u.top = some p)
    (hfuel : height u ≤ fuel) :
    ∃ r, h.descend t key fuel p = some r ∧ IsSpot h t key (Path.plug path u) r := by
  induction fuel generalizing path u p with
  | zero =>
    cases u with
    | leaf => cases htop
    | node l a c r => cases hfuel
  | succ fuel ih =>
    cases u with
    | leaf => cases htop
    | node l a c r =>
      obtain rfl : a = p := Option.some.inj htop
      obtain ⟨-,-,hleft,hright,-,-⟩ := hh.inside
      have hnode : (Shape.node l a c r).ids.Pairwise
          fun e e' => h.cmp t (h.key e) (h.key e') = true := by
        rw [Path.ids_plug,List.append_assoc] at hsorted
        exact (List.pairwise_append.mp (List.pairwise_append.mp hsorted).2.1).1
      obtain ⟨-,hra,hla⟩ := List.pairwise_append.mp hnode
      obtain ⟨hlenl,hlenr⟩ := Nat.max_le.mp (Nat.le_of_succ_le_succ hfuel)
      rw [TreeHeap.descend]
      split
      · rename_i hkey
        have hafter' : ∀ x ∈ Path.after (⟨.left,a,c,r⟩ :: path),
            h.cmp t key (h.key x) = true := by
          intro x hx
          rcases List.mem_append.mp hx with hx | hx
          · rcases List.mem_cons.mp hx with rfl | hx
            · exact hkey
            · exact hlt.trans _ _ _ hkey ((List.pairwise_cons.mp hra).1 x hx)
          · exact hafter x hx
        have hbefore' : ∀ x ∈ Path.before (⟨.left,a,c,r⟩ :: path),
            h.cmp t (h.key x) key = true := by
          intro x hx
          exact hbefore x (by simpa [Path.before] using hx)
        rw [hleft]
        cases hl : l.top with
        | none =>
          obtain rfl := Shape.eq_leaf hl
          exact ⟨.below a .left,rfl,⟨.left,a,c,r⟩,path,rfl,rfl,rfl,hbefore',hafter'⟩
        | some q =>
          exact ih (⟨.left,a,c,r⟩ :: path) hh hsorted hbefore' hafter' hl hlenl
      · split
        · rename_i hkey
          have hbefore' : ∀ x ∈ Path.before (⟨.right,a,c,l⟩ :: path),
              h.cmp t (h.key x) key = true := by
            intro x hx
            rcases List.mem_append.mp hx with hx | hx
            · exact hbefore x hx
            · rcases List.mem_append.mp hx with hx | hx
              · exact hlt.trans _ _ _ (hla x hx a List.mem_cons_self) hkey
              · rw [List.mem_singleton.mp hx]
                exact hkey
          have hafter' : ∀ x ∈ Path.after (⟨.right,a,c,l⟩ :: path),
              h.cmp t key (h.key x) = true := by
            intro x hx
            exact hafter x (by simpa [Path.after] using hx)
          rw [hright]
          cases hr : r.top with
          | none =>
            obtain rfl := Shape.eq_leaf hr
            exact ⟨.below a .right,rfl,⟨.right,a,c,l⟩,path,rfl,rfl,rfl,hbefore',hafter'⟩
          | some q =>
            exact ih (⟨.right,a,c,l⟩ :: path) hh hsorted hbefore' hafter' hr hlenr
        · rename_i hless hgreater
          refine ⟨.found a,rfl,?_,Bool.eq_false_iff.mpr hless,Bool.eq_false_iff.mpr hgreater⟩
          exact Path.mem_ids_plug.mpr (.inr (by simp [Shape.ids]))

/-- Whether two keys are the same to a comparator. -/
def same (cmp : K → K → Bool) (k k' : K) : Bool := !cmp k k' && !cmp k' k

variable {cmp : K → K → Bool}

theorem same_iff {k k' : K} :
    same cmp k k' = true ↔ cmp k k' = false ∧ cmp k' k = false := by
  simp [same]

theorem find?_same {f : EntryId → K} (hlt : StrictWeak cmp) {xs : List EntryId}
    (hsorted : xs.Pairwise fun e e' => cmp (f e) (f e') = true) (he : e ∈ xs)
    (hsame : same cmp key (f e) = true) :
    xs.find? (fun x => same cmp key (f x)) = some e := by
  have hunique : ∀ x ∈ xs, same cmp key (f x) = true →
      cmp (f x) (f e) = false ∧ cmp (f e) (f x) = false := by
    intro x _ hx
    obtain ⟨hkx,hxk⟩ := same_iff.mp hx
    obtain ⟨hke,hek⟩ := same_iff.mp hsame
    have hincomp := hlt.incomp_trans (f x) key (f e) ⟨by simp [hxk],by simp [hkx]⟩
      ⟨by simp [hke],by simp [hek]⟩
    exact ⟨Bool.eq_false_iff.mpr hincomp.1,Bool.eq_false_iff.mpr hincomp.2⟩
  induction xs with
  | nil => cases he
  | cons x xs ih =>
    obtain ⟨hx,hxs⟩ := List.pairwise_cons.mp hsorted
    cases hcase : same cmp key (f x) with
    | true =>
      simp only [List.find?_cons,hcase]
      rcases List.mem_cons.mp he with rfl | he
      · rfl
      · have hlt' := hx e he
        rw [(hunique x List.mem_cons_self hcase).1] at hlt'
        cases hlt'
    | false =>
      simp only [List.find?_cons,hcase]
      rcases List.mem_cons.mp he with rfl | he
      · rw [hsame] at hcase
        cases hcase
      · exact ih hxs he fun y hy => hunique y (List.mem_cons_of_mem x hy)

theorem find?_gap {f : EntryId → K} {xs ys : List EntryId} (hxs : ∀ x ∈ xs, cmp (f x) key = true)
    (hys : ∀ x ∈ ys, cmp key (f x) = true) :
    (xs ++ ys).find? (fun x => same cmp key (f x)) = none := by
  rw [List.find?_eq_none]
  intro x hx
  rw [same_iff]
  rcases List.mem_append.mp hx with hx | hx
  · simp [hxs x hx]
  · simp [hys x hx]

end Jancy.Stdt.RbHeap
