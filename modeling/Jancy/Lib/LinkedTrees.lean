import Mathlib.Data.List.Nodup

/-! Binary trees whose nodes have links to their children and to their parent, one root for each
tree of a family. -/

inductive Side where
  | left
  | right
  deriving DecidableEq, Repr

namespace Side

def other : Side → Side
  | left => right
  | right => left

@[simp] theorem other_other (s : Side) : s.other.other = s := by cases s <;> rfl

@[simp] theorem other_ne (s : Side) : s.other ≠ s := by cases s <;> nofun

@[simp] theorem ne_other (s : Side) : s ≠ s.other := s.other_ne.symm

theorem eq_or_eq_other (s s' : Side) : s = s' ∨ s = s'.other := by
  cases s <;> cases s' <;> simp [other]

end Side

structure LinkedTrees (ι α γ : Type*) where
  child : Side → α → Option α
  parent : α → Option α
  mark : α → γ
  root : ι → Option α

namespace LinkedTrees

variable {ι α γ : Type*}

/-- What the links of a tree spell out. -/
inductive Shape (α γ : Type*) where
  | leaf
  | node (l : Shape α γ) (a : α) (c : γ) (r : Shape α γ)

namespace Shape

def top : Shape α γ → Option α
  | leaf => none
  | node _ a _ _ => some a

@[simp] theorem top_node (l r : Shape α γ) (a : α) (c : γ) : (node l a c r).top = some a := rfl

/-- The nodes in order. -/
def ids : Shape α γ → List α
  | leaf => []
  | node l a _ r => l.ids ++ a :: r.ids

/-- A node with its children on one side and on the other. -/
def facing (s : Side) (near : Shape α γ) (a : α) (c : γ) (far : Shape α γ) : Shape α γ :=
  match s with
  | .left => node near a c far
  | .right => node far a c near

@[simp] theorem top_facing (s : Side) (near far : Shape α γ) (a : α) (c : γ) :
    (Shape.facing s near a c far).top = some a := by cases s <;> rfl

theorem facing_other (s : Side) (near far : Shape α γ) (a : α) (c : γ) :
    Shape.facing s.other far a c near = Shape.facing s near a c far := by cases s <;> rfl

@[simp] theorem mem_ids_facing {s : Side} {near far : Shape α γ} {a x : α} {c : γ} :
    x ∈ (Shape.facing s near a c far).ids ↔ x = a ∨ x ∈ near.ids ∨ x ∈ far.ids := by
  cases s <;> simp [Shape.facing,ids] <;> tauto

theorem nodup_facing {s : Side} {near far : Shape α γ} {a : α} {c : γ} :
    (Shape.facing s near a c far).ids.Nodup ↔ a ∉ near.ids ∧ a ∉ far.ids ∧ near.ids.Nodup ∧
      far.ids.Nodup ∧ near.ids.Disjoint far.ids := by
  cases s with
  | left =>
    simp only [Shape.facing,ids,List.nodup_append',List.nodup_cons,List.disjoint_cons_right]
    tauto
  | right =>
    have hcomm : near.ids.Disjoint far.ids ↔ far.ids.Disjoint near.ids := List.disjoint_comm
    simp only [Shape.facing,ids,List.nodup_append',List.nodup_cons,List.disjoint_cons_right,hcomm]
    tauto

theorem top_mem {t : Shape α γ} {a : α} (h : t.top = some a) : a ∈ t.ids := by
  cases t with
  | leaf => cases h
  | node l b c r =>
    obtain rfl : b = a := Option.some.inj h
    simp [ids]

theorem exists_facing (s : Side) {t : Shape α γ} {a : α} (h : t.top = some a) :
    ∃ near c far, t = Shape.facing s near a c far := by
  cases t with
  | leaf => cases h
  | node l b c r =>
    obtain rfl : b = a := Option.some.inj h
    cases s with
    | left => exact ⟨l,c,r,rfl⟩
    | right => exact ⟨r,c,l,rfl⟩

theorem eq_leaf {t : Shape α γ} (h : t.top = none) : t = leaf := by
  cases t with
  | leaf => rfl
  | node l b c r => cases h

end Shape

/-- A node above a hole, with its other child. -/
structure Frame (α γ : Type*) where
  side : Side
  a : α
  c : γ
  sibling : Shape α γ

/-- The nodes above a hole, the innermost one first. -/
abbrev Path (α γ : Type*) := List (Frame α γ)

def Frame.fill (f : Frame α γ) (t : Shape α γ) : Shape α γ := Shape.facing f.side t f.a f.c f.sibling

namespace Path

def plug : Path α γ → Shape α γ → Shape α γ
  | [],t => t
  | f :: p,t => plug p (f.fill t)

/-- The node above the hole; above the whole path is `q`. -/
def parent (q : Option α) : Path α γ → Option α
  | [] => q
  | f :: _ => some f.a

def before : Path α γ → List α
  | [] => []
  | f :: p => before p ++ match f.side with
      | .left => []
      | .right => f.sibling.ids ++ [f.a]

def after : Path α γ → List α
  | [] => []
  | f :: p => (match f.side with
      | .left => f.a :: f.sibling.ids
      | .right => []) ++ after p

/-- The nodes outside of the hole. -/
def ids (p : Path α γ) : List α := before p ++ after p

/-- The side of the node above that the hole is on. -/
def hole : Path α γ → Option (Side × α)
  | [] => none
  | f :: _ => some (f.side,f.a)

/-- The node that is above all others. -/
def outer : Path α γ → Option α
  | [] => none
  | [f] => some f.a
  | _ :: g :: p => outer (g :: p)

theorem plug_append (p q : Path α γ) (t : Shape α γ) : plug (p ++ q) t = plug q (plug p t) := by
  induction p generalizing t with
  | nil => rfl
  | cons f p ih => exact ih (f.fill t)

theorem plug_far (s : Side) (p : Path α γ) (near far : Shape α γ) (a : α) (c : γ) :
    plug (⟨s.other,a,c,near⟩ :: p) far = plug p (.facing s near a c far) :=
  congrArg (plug p) (Shape.facing_other s near far a c)

theorem ids_plug (p : Path α γ) (t : Shape α γ) :
    (plug p t).ids = before p ++ t.ids ++ after p := by
  induction p generalizing t with
  | nil => simp [plug,before,after]
  | cons f p ih =>
    rw [plug,ih]
    rcases f with ⟨s,a,c,sib⟩
    cases s <;> simp [Frame.fill,Shape.facing,Shape.ids,before,after]

variable {p : Path α γ}

theorem mem_ids_plug {t : Shape α γ} {x : α} :
    x ∈ (plug p t).ids ↔ x ∈ ids p ∨ x ∈ t.ids := by
  rw [ids_plug,ids]
  simp only [List.mem_append]
  tauto

theorem length_le_ids_plug (p : Path α γ) (t : Shape α γ) :
    p.length + t.ids.length ≤ (plug p t).ids.length := by
  induction p generalizing t with
  | nil => simp [plug]
  | cons f p ih =>
    have hfill : t.ids.length + 1 ≤ (f.fill t).ids.length := by
      rcases f with ⟨s,a,c,sib⟩
      cases s <;> simp [Frame.fill,Shape.facing,Shape.ids]
    have hle := ih (f.fill t)
    rw [plug,List.length_cons]
    omega

@[simp] theorem mem_ids_cons {f : Frame α γ} {x : α} :
    x ∈ ids (f :: p) ↔ x = f.a ∨ x ∈ f.sibling.ids ∨ x ∈ ids p := by
  rcases f with ⟨s,a,c,sib⟩
  cases s <;> simp [ids,before,after] <;> tauto

theorem outer_mem {a : α} (h : outer p = some a) : a ∈ ids p := by
  induction p with
  | nil => cases h
  | cons f p ih =>
    cases p with
    | nil =>
      obtain rfl : f.a = a := Option.some.inj h
      simp
    | cons g p => exact mem_ids_cons.mpr (.inr (.inr (ih h)))

theorem top_plug (p : Path α γ) (t : Shape α γ) :
    (plug p t).top = if p = [] then t.top else outer p := by
  induction p generalizing t with
  | nil => rfl
  | cons f p ih =>
    rw [plug,ih]
    cases p with
    | nil => simp [Frame.fill,outer]
    | cons g p => simp [outer]

theorem hole_ne {s : Side} {a : α} (h : a ∉ ids p) : hole p ≠ some (s,a) := by
  cases p with
  | nil => nofun
  | cons f p =>
    intro heq
    obtain ⟨-,rfl⟩ := Prod.mk.inj (Option.some.inj heq)
    exact h (by simp)

theorem nodup_plug {t : Shape α γ} :
    (plug p t).ids.Nodup ↔ (ids p).Nodup ∧ t.ids.Nodup ∧ t.ids.Disjoint (ids p) := by
  have hperm : List.Perm (plug p t).ids (t.ids ++ ids p) := by
    rw [ids_plug,ids,List.append_assoc,← List.append_assoc t.ids]
    exact (List.perm_append_comm_assoc _ _ _).trans (by rw [List.append_assoc])
  rw [hperm.nodup_iff,List.nodup_append']
  tauto

theorem top_plug_cons (f : Frame α γ) (p : Path α γ) (t t' : Shape α γ) :
    (plug (f :: p) t).top = (plug (f :: p) t').top := by
  rw [top_plug,top_plug,if_neg (List.cons_ne_nil f p),if_neg (List.cons_ne_nil f p)]

theorem nodup_cons {f : Frame α γ} (h : (ids (f :: p)).Nodup) :
    f.a ∉ f.sibling.ids ∧ f.a ∉ ids p ∧ (ids p).Nodup ∧ f.sibling.ids.Disjoint (ids p) := by
  have hplug : (plug p (f.fill .leaf)).ids.Nodup := by
    rw [← plug,ids_plug]
    simpa [Shape.ids,ids] using h
  obtain ⟨hp,hfill,hdisjoint⟩ := nodup_plug.mp hplug
  obtain ⟨-,hsib,-⟩ := Shape.nodup_facing.mp hfill
  exact ⟨hsib,hdisjoint (by simp [Frame.fill]),hp,
    fun x hx => hdisjoint (by simp [Frame.fill,hx])⟩

theorem before_eq_nil (h : ∀ f ∈ p, f.side = .left) : before p = [] := by
  induction p with
  | nil => rfl
  | cons f p ih =>
    rw [before,ih (fun g hg => h g (List.mem_cons_of_mem f hg)),h f List.mem_cons_self]
    rfl

end Path

theorem Shape.exists_end (s : Side) {t : Shape α γ} (ht : t ≠ .leaf) :
    ∃ p a c far, t = Path.plug p (.facing s .leaf a c far) ∧ ∀ f ∈ p, f.side = s := by
  induction t with
  | leaf => exact absurd rfl ht
  | node l b d r ihl ihr =>
    obtain ⟨near,far,hnode,ih⟩ : ∃ near far, Shape.node l b d r = .facing s near b d far ∧
        (near ≠ .leaf → ∃ p a c far, near = Path.plug p (.facing s .leaf a c far) ∧
          ∀ f ∈ p, f.side = s) := by
      cases s with
      | left => exact ⟨l,r,rfl,ihl⟩
      | right => exact ⟨r,l,rfl,ihr⟩
    by_cases hleaf : near = .leaf
    · subst hleaf
      exact ⟨[],b,d,far,hnode,fun f hf => absurd hf List.not_mem_nil⟩
    · obtain ⟨p,a,c,far',hnear,hside⟩ := ih hleaf
      refine ⟨p ++ [⟨s,b,d,far⟩],a,c,far',?_,?_⟩
      · rw [hnode,Path.plug_append,← hnear]
        rfl
      · intro f hf
        rcases List.mem_append.mp hf with hf | hf
        · exact hside f hf
        · rw [List.mem_singleton.mp hf]

theorem Shape.exists_path {t : Shape α γ} {a : α} (ha : a ∈ t.ids) :
    ∃ p l c r, t = Path.plug p (.node l a c r) := by
  induction t with
  | leaf => cases ha
  | node l b c r ihl ihr =>
    rcases List.mem_append.mp ha with ha | ha
    · obtain ⟨p,l',c',r',rfl⟩ := ihl ha
      exact ⟨p ++ [⟨.left,b,c,r⟩],l',c',r',by rw [Path.plug_append]; rfl⟩
    · rcases List.mem_cons.mp ha with rfl | ha
      · exact ⟨[],l,c,r,rfl⟩
      · obtain ⟨p,l',c',r',rfl⟩ := ihr ha
        exact ⟨p ++ [⟨.right,b,c,l⟩],l',c',r',by rw [Path.plug_append]; rfl⟩

/-- Links and marks are those of the shape, and `q` is above it. -/
def Linked (h : LinkedTrees ι α γ) (q : Option α) : Shape α γ → Prop
  | .leaf => True
  | .node l a c r => h.parent a = q ∧ h.mark a = c ∧ h.child .left a = l.top ∧
      h.child .right a = r.top ∧ Linked h (some a) l ∧ Linked h (some a) r

/-- Links and marks are those of the path, and `hole` is below it. -/
def Around (h : LinkedTrees ι α γ) (q : Option α) : Path α γ → Option α → Prop
  | [],_ => True
  | f :: p,hole => h.parent f.a = Path.parent q p ∧ h.mark f.a = f.c ∧ h.child f.side f.a = hole ∧
      h.child f.side.other f.a = f.sibling.top ∧ h.Linked (some f.a) f.sibling ∧
      Around h q p (some f.a)

/-- A tree of the family spells out a shape without repetition. -/
structure Holds (h : LinkedTrees ι α γ) (i : ι) (t : Shape α γ) : Prop where
  linked : h.Linked none t
  root : h.root i = t.top
  nodup : t.ids.Nodup

/-- Nothing differs at these nodes. -/
structure SameOn (h h' : LinkedTrees ι α γ) (xs : List α) : Prop where
  child : ∀ a ∈ xs, ∀ s, h'.child s a = h.child s a
  parent : ∀ a ∈ xs, h'.parent a = h.parent a
  mark : ∀ a ∈ xs, h'.mark a = h.mark a

section Links

variable {h h' h'' : LinkedTrees ι α γ} {i : ι} {q q' hole : Option α} {t t' : Shape α γ}
  {p : Path α γ} {s : Side} {a x : α} {c : γ} {xs : List α}

theorem linked_facing {near far : Shape α γ} :
    h.Linked q (.facing s near a c far) ↔ h.parent a = q ∧ h.mark a = c ∧
      h.child s a = near.top ∧ h.child s.other a = far.top ∧ h.Linked (some a) near ∧
      h.Linked (some a) far := by
  cases s with
  | left => rfl
  | right =>
    simp only [Shape.facing,Linked,Side.other]
    tauto

theorem linked_plug : h.Linked q (Path.plug p t) ↔
    h.Around q p t.top ∧ h.Linked (Path.parent q p) t := by
  induction p generalizing t with
  | nil => simp [Path.plug,Around,Path.parent]
  | cons f p ih =>
    rw [Path.plug,ih,Frame.fill,linked_facing,Shape.top_facing]
    simp only [Around,Path.parent]
    tauto

theorem SameOn.refl (h : LinkedTrees ι α γ) (xs : List α) : h.SameOn h xs :=
  ⟨fun _ _ _ => rfl,fun _ _ => rfl,fun _ _ => rfl⟩

theorem SameOn.trans (h₁ : h.SameOn h' xs) (h₂ : h'.SameOn h'' xs) : h.SameOn h'' xs where
  child a ha s := (h₂.child a ha s).trans (h₁.child a ha s)
  parent a ha := (h₂.parent a ha).trans (h₁.parent a ha)
  mark a ha := (h₂.mark a ha).trans (h₁.mark a ha)

theorem SameOn.mono {ys : List α} (hs : h.SameOn h' xs) (hsub : ys ⊆ xs) : h.SameOn h' ys where
  child a ha := hs.child a (hsub ha)
  parent a ha := hs.parent a (hsub ha)
  mark a ha := hs.mark a (hsub ha)

theorem Linked.congr (hl : h.Linked q t) (hs : h.SameOn h' t.ids) : h'.Linked q t := by
  induction t generalizing q with
  | leaf => trivial
  | node l a c r ihl ihr =>
    obtain ⟨hq,hc,hleft,hright,hl,hr⟩ := hl
    have ha : a ∈ (Shape.node l a c r).ids := by simp [Shape.ids]
    refine ⟨?_,?_,?_,?_,?_,?_⟩
    · rw [hs.parent a ha,hq]
    · rw [hs.mark a ha,hc]
    · rw [hs.child a ha,hleft]
    · rw [hs.child a ha,hright]
    · exact ihl hl (hs.mono fun x hx => by simp [Shape.ids,hx])
    · exact ihr hr (hs.mono fun x hx => by simp [Shape.ids,hx])

theorem Linked.reparent (hl : h.Linked q t)
    (hchild : ∀ a ∈ t.ids, ∀ s, h'.child s a = h.child s a)
    (hmark : ∀ a ∈ t.ids, h'.mark a = h.mark a)
    (hparent : ∀ a ∈ t.ids, t.top ≠ some a → h'.parent a = h.parent a)
    (htop : ∀ a, t.top = some a → h'.parent a = q') (hnodup : t.ids.Nodup) :
    h'.Linked q' t := by
  cases t with
  | leaf => trivial
  | node l a c r =>
    obtain ⟨-,hc,hleft,hright,hl,hr⟩ := hl
    have hnodup' : (Shape.facing .left l a c r).ids.Nodup := hnodup
    obtain ⟨hal,har,-⟩ := Shape.nodup_facing.mp hnodup'
    have ha : a ∈ (Shape.node l a c r).ids := by simp [Shape.ids]
    have hbelow : ∀ xs : List α, a ∉ xs → xs ⊆ (Shape.node l a c r).ids → h.SameOn h' xs := by
      intro xs hnot hsub
      refine ⟨fun x hx => hchild x (hsub hx),?_,fun x hx => hmark x (hsub hx)⟩
      intro x hx
      apply hparent x (hsub hx)
      intro heq
      exact hnot (Option.some.inj heq ▸ hx)
    refine ⟨htop a rfl,?_,?_,?_,?_,?_⟩
    · rw [hmark a ha,hc]
    · rw [hchild a ha,hleft]
    · rw [hchild a ha,hright]
    · exact hl.congr (hbelow l.ids hal fun x hx => by simp [Shape.ids,hx])
    · exact hr.congr (hbelow r.ids har fun x hx => by simp [Shape.ids,hx])

theorem Around.congr (ha : h.Around q p hole) (hs : h.SameOn h' (Path.ids p)) :
    h'.Around q p hole := by
  induction p generalizing hole with
  | nil => trivial
  | cons f p ih =>
    obtain ⟨hparent,hmark,hchild,hother,hsib,hrest⟩ := ha
    have hmem : f.a ∈ Path.ids (f :: p) := by simp
    refine ⟨?_,?_,?_,?_,?_,?_⟩
    · rw [hs.parent _ hmem,hparent]
    · rw [hs.mark _ hmem,hmark]
    · rw [hs.child _ hmem,hchild]
    · rw [hs.child _ hmem,hother]
    · exact hsib.congr (hs.mono fun x hx => by simp [hx])
    · exact ih hrest (hs.mono fun x hx => by simp [hx])

end Links

section Stores

variable [DecidableEq ι] [DecidableEq α] (h : LinkedTrees ι α γ)

def setChild (s : Side) (a : α) (v : Option α) : LinkedTrees ι α γ :=
  { h with child := Function.update h.child s (Function.update (h.child s) a v) }

def setParent (a : α) (v : Option α) : LinkedTrees ι α γ :=
  { h with parent := Function.update h.parent a v }

def setMark (a : α) (c : γ) : LinkedTrees ι α γ := { h with mark := Function.update h.mark a c }

def setRoot (i : ι) (v : Option α) : LinkedTrees ι α γ :=
  { h with root := Function.update h.root i v }

/-- Store to the parent of a node, if there is one. -/
def setParentOf (a : Option α) (v : Option α) : LinkedTrees ι α γ :=
  match a with
  | none => h
  | some a => h.setParent a v

/-- Store to the link that leads to a hole. -/
def setHole (i : ι) (p : Path α γ) (v : Option α) : LinkedTrees ι α γ :=
  match p with
  | [] => h.setRoot i v
  | f :: _ => h.setChild f.side f.a v

variable {h} {h' h'' : LinkedTrees ι α γ} {i j : ι} {p : Path α γ} {t t' : Shape α γ}
  {s s' : Side} {a b x : α} {c : γ} {v w : Option α} {xs : List α}

omit [DecidableEq ι] in
@[simp] theorem setChild_child :
    (h.setChild s a v).child s' x = if s' = s ∧ x = a then v else h.child s' x := by
  by_cases hs : s' = s
  · subst hs
    simp [setChild,Function.update_apply]
  · simp [setChild,hs]

omit [DecidableEq ι] in
@[simp] theorem setChild_parent : (h.setChild s a v).parent = h.parent := rfl

omit [DecidableEq ι] in
@[simp] theorem setChild_mark : (h.setChild s a v).mark = h.mark := rfl

omit [DecidableEq ι] in
@[simp] theorem setChild_root : (h.setChild s a v).root = h.root := rfl

omit [DecidableEq ι] in
@[simp] theorem setParent_child : (h.setParent a v).child = h.child := rfl

omit [DecidableEq ι] in
@[simp] theorem setParent_parent :
    (h.setParent a v).parent x = if x = a then v else h.parent x := by
  simp [setParent,Function.update_apply]

omit [DecidableEq ι] in
@[simp] theorem setParent_mark : (h.setParent a v).mark = h.mark := rfl

omit [DecidableEq ι] in
@[simp] theorem setParent_root : (h.setParent a v).root = h.root := rfl

omit [DecidableEq ι] in
@[simp] theorem setParentOf_child : (h.setParentOf w v).child = h.child := by cases w <;> rfl

omit [DecidableEq ι] in
@[simp] theorem setParentOf_parent :
    (h.setParentOf w v).parent x = if w = some x then v else h.parent x := by
  cases w with
  | none => simp [setParentOf]
  | some a => simp [setParentOf,eq_comm]

omit [DecidableEq ι] in
@[simp] theorem setParentOf_mark : (h.setParentOf w v).mark = h.mark := by cases w <;> rfl

omit [DecidableEq ι] in
@[simp] theorem setParentOf_root : (h.setParentOf w v).root = h.root := by cases w <;> rfl

omit [DecidableEq ι] in
@[simp] theorem setMark_child : (h.setMark a c).child = h.child := rfl

omit [DecidableEq ι] in
@[simp] theorem setMark_parent : (h.setMark a c).parent = h.parent := rfl

omit [DecidableEq ι] in
@[simp] theorem setMark_mark : (h.setMark a c).mark x = if x = a then c else h.mark x := by
  simp [setMark,Function.update_apply]

omit [DecidableEq ι] in
@[simp] theorem setMark_root : (h.setMark a c).root = h.root := rfl

omit [DecidableEq α] in
@[simp] theorem setRoot_child : (h.setRoot i v).child = h.child := rfl

omit [DecidableEq α] in
@[simp] theorem setRoot_parent : (h.setRoot i v).parent = h.parent := rfl

omit [DecidableEq α] in
@[simp] theorem setRoot_mark : (h.setRoot i v).mark = h.mark := rfl

omit [DecidableEq α] in
@[simp] theorem setRoot_root : (h.setRoot i v).root j = if j = i then v else h.root j := by
  simp [setRoot,Function.update_apply]

@[simp] theorem setHole_parent : (h.setHole i p v).parent = h.parent := by cases p <;> rfl

@[simp] theorem setHole_mark : (h.setHole i p v).mark = h.mark := by cases p <;> rfl

@[simp] theorem setHole_child : (h.setHole i p v).child s x =
    if Path.hole p = some (s,x) then v else h.child s x := by
  cases p with
  | nil => simp [setHole,Path.hole]
  | cons f p => simp [setHole,Path.hole,eq_comm]

@[simp] theorem setHole_root : (h.setHole i p v).root j =
    if Path.hole p = none ∧ j = i then v else h.root j := by
  cases p with
  | nil => simp [setHole,setRoot,Path.hole,Function.update_apply]
  | cons f p => simp [setHole,Path.hole]

omit [DecidableEq ι] in
theorem sameOn_setChild (ha : a ∉ xs) : h.SameOn (h.setChild s a v) xs := by
  refine ⟨?_,fun _ _ => rfl,fun _ _ => rfl⟩
  intro x hx s'
  have hne : x ≠ a := fun heq => ha (heq ▸ hx)
  simp [hne]

omit [DecidableEq ι] in
theorem sameOn_setParent (ha : a ∉ xs) : h.SameOn (h.setParent a v) xs := by
  refine ⟨fun _ _ _ => rfl,?_,fun _ _ => rfl⟩
  intro x hx
  have hne : x ≠ a := fun heq => ha (heq ▸ hx)
  simp [hne]

omit [DecidableEq ι] in
theorem sameOn_setParentOf (ha : ∀ a, w = some a → a ∉ xs) : h.SameOn (h.setParentOf w v) xs := by
  cases w with
  | none => exact .refl h xs
  | some a => exact sameOn_setParent (ha a rfl)

omit [DecidableEq ι] in
theorem sameOn_setMark (ha : a ∉ xs) : h.SameOn (h.setMark a c) xs := by
  refine ⟨fun _ _ _ => rfl,fun _ _ => rfl,?_⟩
  intro x hx
  have hne : x ≠ a := fun heq => ha (heq ▸ hx)
  simp [hne]

theorem sameOn_setHole (hp : xs.Disjoint (Path.ids p)) : h.SameOn (h.setHole i p v) xs := by
  cases p with
  | nil => exact ⟨fun _ _ _ => rfl,fun _ _ => rfl,fun _ _ => rfl⟩
  | cons f p => exact sameOn_setChild fun hf => hp hf (by simp)

/-- Nothing but the nodes of the list and the root of one tree differs. -/
structure Within (h h' : LinkedTrees ι α γ) (i : ι) (xs : List α) : Prop where
  child : ∀ a, a ∉ xs → ∀ s, h'.child s a = h.child s a
  parent : ∀ a, a ∉ xs → h'.parent a = h.parent a
  mark : ∀ a, a ∉ xs → h'.mark a = h.mark a
  root : ∀ j, j ≠ i → h'.root j = h.root j

omit [DecidableEq ι] [DecidableEq α] in
theorem Within.refl (h : LinkedTrees ι α γ) (i : ι) (xs : List α) : h.Within h i xs :=
  ⟨fun _ _ _ => rfl,fun _ _ => rfl,fun _ _ => rfl,fun _ _ => rfl⟩

omit [DecidableEq ι] [DecidableEq α] in
theorem Within.trans (h₁ : h.Within h' i xs) (h₂ : h'.Within h'' i xs) : h.Within h'' i xs where
  child a ha s := (h₂.child a ha s).trans (h₁.child a ha s)
  parent a ha := (h₂.parent a ha).trans (h₁.parent a ha)
  mark a ha := (h₂.mark a ha).trans (h₁.mark a ha)
  root j hj := (h₂.root j hj).trans (h₁.root j hj)

omit [DecidableEq ι] [DecidableEq α] in
theorem Within.mono {ys : List α} (hw : h.Within h' i xs) (hsub : xs ⊆ ys) : h.Within h' i ys where
  child a ha := hw.child a fun hx => ha (hsub hx)
  parent a ha := hw.parent a fun hx => ha (hsub hx)
  mark a ha := hw.mark a fun hx => ha (hsub hx)
  root := hw.root

omit [DecidableEq ι] [DecidableEq α] in
theorem within_of_sameOn (hs : ∀ a, a ∉ xs → h.SameOn h' [a])
    (hroot : ∀ j, j ≠ i → h'.root j = h.root j) : h.Within h' i xs where
  child a ha := (hs a ha).child a List.mem_cons_self
  parent a ha := (hs a ha).parent a List.mem_cons_self
  mark a ha := (hs a ha).mark a List.mem_cons_self
  root := hroot

omit [DecidableEq ι] [DecidableEq α] in
theorem Within.holds (hw : h.Within h' i xs) (hh : h.Holds j t) (hj : j ≠ i)
    (hdisjoint : t.ids.Disjoint xs) : h'.Holds j t where
  linked := by
    apply hh.linked.congr
    exact ⟨fun a ha => hw.child a (hdisjoint ha),fun a ha => hw.parent a (hdisjoint ha),
      fun a ha => hw.mark a (hdisjoint ha)⟩
  root := by rw [hw.root j hj,hh.root]
  nodup := hh.nodup

omit [DecidableEq ι] [DecidableEq α] in
theorem Holds.around (hh : h.Holds i (Path.plug p t)) : h.Around none p t.top :=
  (linked_plug.mp hh.linked).1

omit [DecidableEq ι] [DecidableEq α] in
theorem Holds.inside (hh : h.Holds i (Path.plug p t)) : h.Linked (Path.parent none p) t :=
  (linked_plug.mp hh.linked).2

omit [DecidableEq ι] [DecidableEq α] in
theorem Holds.node {near far : Shape α γ} (hh : h.Holds i (Path.plug p (.facing s near a c far))) :
    h.parent a = Path.parent none p ∧ h.mark a = c ∧ h.child s a = near.top ∧
      h.child s.other a = far.top := by
  obtain ⟨hparent,hmark,hnear,hfar,-⟩ := linked_facing.mp hh.inside
  exact ⟨hparent,hmark,hnear,hfar⟩

omit [DecidableEq ι] in
/-- A path keeps its shape below another node and with something else in its hole. -/
theorem Around.rehang {q q' : Option α} (ha : h.Around q p v) (hnodup : (Path.ids p).Nodup)
    (hchild : ∀ x ∈ Path.ids p, ∀ s,
      h'.child s x = if Path.hole p = some (s,x) then w else h.child s x)
    (hmark : ∀ x ∈ Path.ids p, h'.mark x = h.mark x)
    (hparent : ∀ x ∈ Path.ids p, Path.outer p ≠ some x → h'.parent x = h.parent x)
    (houter : ∀ x, Path.outer p = some x → h'.parent x = q') : h'.Around q' p w := by
  induction p generalizing v w with
  | nil => trivial
  | cons f p ih =>
    obtain ⟨hq,hc,hhole,hother,hsib,hrest⟩ := ha
    obtain ⟨hnotSib,hnotRest,hnodupRest,hapart⟩ := Path.nodup_cons hnodup
    have hmem : f.a ∈ Path.ids (f :: p) := by simp
    have hsibMem : ∀ x ∈ f.sibling.ids, x ∈ Path.ids (f :: p) := fun x hx => by simp [hx]
    have hrestMem : ∀ x ∈ Path.ids p, x ∈ Path.ids (f :: p) := fun x hx => by simp [hx]
    have hkept : ∀ x ∈ Path.ids (f :: p), x ≠ f.a → ∀ s, h'.child s x = h.child s x := by
      intro x hx hne s
      rw [hchild x hx,if_neg]
      intro heq
      exact hne (Prod.mk.inj (Option.some.inj heq)).2.symm
    refine ⟨?_,?_,?_,?_,?_,?_⟩
    · cases p with
      | nil => exact houter f.a rfl
      | cons g p =>
        have hne : Path.outer (f :: g :: p) ≠ some f.a := by
          intro heq
          exact hnotRest (Path.outer_mem heq)
        rw [hparent f.a hmem hne,hq]
        rfl
    · rw [hmark _ hmem,hc]
    · rw [hchild _ hmem]
      simp [Path.hole]
    · rw [hchild _ hmem]
      simpa [Path.hole] using hother
    · apply hsib.congr
      refine ⟨?_,?_,fun x hx => hmark x (hsibMem x hx)⟩
      · intro x hx
        exact hkept x (hsibMem x hx) (fun heq => hnotSib (heq ▸ hx))
      · intro x hx
        apply hparent x (hsibMem x hx)
        intro heq
        cases p with
        | nil => exact hnotSib (Option.some.inj heq ▸ hx)
        | cons g p => exact hapart hx (Path.outer_mem heq)
    · have hne : ∀ x ∈ Path.ids p, x ≠ f.a := fun x hx heq => hnotRest (heq ▸ hx)
      apply ih hrest hnodupRest
      · intro x hx s
        rw [hkept x (hrestMem x hx) (hne x hx)]
        split
        · rename_i heq
          cases p with
          | nil => cases heq
          | cons g p =>
            obtain ⟨rfl,rfl⟩ := Prod.mk.inj (Option.some.inj heq)
            exact hrest.2.2.1
        · rfl
      · exact fun x hx => hmark x (hrestMem x hx)
      · intro x hx hnot
        apply hparent x (hrestMem x hx)
        cases p with
        | nil => exact fun heq => hne x hx (Option.some.inj heq).symm
        | cons g p => exact hnot
      · intro x hx
        cases p with
        | nil => cases hx
        | cons g p => exact houter x hx

omit [DecidableEq ι] [DecidableEq α] in
theorem Around.parent_outer {q : Option α} (ha : h.Around q p v) (hx : Path.outer p = some x) :
    h.parent x = q := by
  induction p generalizing v with
  | nil => cases hx
  | cons f p ih =>
    cases p with
    | nil =>
      obtain rfl : f.a = x := Option.some.inj hx
      exact ha.1
    | cons g p => exact ih ha.2.2.2.2.2 hx

theorem Holds.refill (hh : h.Holds i (Path.plug p t))
    (hchild : ∀ x ∈ Path.ids p, ∀ s, h'.child s x = (h.setHole i p t'.top).child s x)
    (hparent : ∀ x ∈ Path.ids p, h'.parent x = h.parent x)
    (hmark : ∀ x ∈ Path.ids p, h'.mark x = h.mark x)
    (hroot : h'.root i = (h.setHole i p t'.top).root i)
    (hinside : h'.Linked (Path.parent none p) t') (hnodup : (Path.plug p t').ids.Nodup) :
    h'.Holds i (Path.plug p t') where
  linked := by
    refine linked_plug.mpr ⟨?_,hinside⟩
    apply hh.around.rehang (Path.nodup_plug.mp hnodup).1
    · intro x hx s
      rw [hchild x hx,setHole_child]
    · exact hmark
    · exact fun x hx _ => hparent x hx
    · intro x hx
      rw [hparent x (Path.outer_mem hx)]
      exact hh.around.parent_outer hx
  root := by
    rw [hroot]
    cases p with
    | nil => simp [Path.hole,Path.plug]
    | cons f p =>
      have hold := hh.root
      rw [Path.top_plug_cons f p t t'] at hold
      simpa [Path.hole] using hold
  nodup := hnodup

/-- Store to the link of `q` that leads to a node, which is looked for on one side first. -/
def relink (h : LinkedTrees ι α γ) (s : Side) (i : ι) (q : Option α) (a : α) (v : Option α) :
    LinkedTrees ι α γ :=
  match q with
  | none => h.setRoot i v
  | some q => if h.child s q = some a then h.setChild s q v else h.setChild s.other q v

theorem relink_eq_setHole (ha : h.Around none p (some a)) (hnot : a ∉ Path.ids p) (s : Side) :
    h.relink s i (Path.parent none p) a v = h.setHole i p v := by
  cases p with
  | nil => rfl
  | cons f p =>
    obtain ⟨-,-,hhole,hother,-⟩ := ha
    have hne : h.child f.side.other f.a ≠ some a := by
      rw [hother]
      intro htop
      exact hnot (by simp [Shape.top_mem htop])
    rcases Side.eq_or_eq_other s f.side with rfl | rfl
    · simp [relink,Path.parent,hhole,setHole]
    · simp [relink,Path.parent,hne,setHole]

omit [DecidableEq ι] in
theorem Holds.setMark {near far : Shape α γ} {d : γ}
    (hh : h.Holds i (Path.plug p (.facing s near a c far))) :
    (h.setMark a d).Holds i (Path.plug p (.facing s near a d far)) := by
  have hids : (Path.plug p (Shape.facing s near a d far)).ids =
      (Path.plug p (Shape.facing s near a c far)).ids := by
    rw [Path.ids_plug,Path.ids_plug]
    cases s <;> rfl
  have hnodup := hh.nodup
  obtain ⟨-,hnodup',hdisjoint⟩ := Path.nodup_plug.mp hnodup
  obtain ⟨hnear,hfar,-⟩ := Shape.nodup_facing.mp hnodup'
  have hnot : a ∉ Path.ids p := hdisjoint (by simp)
  obtain ⟨hparent,-,hchild,hother,hlnear,hlfar⟩ := linked_facing.mp hh.inside
  refine ⟨linked_plug.mpr ⟨?_,?_⟩,?_,?_⟩
  · rw [Shape.top_facing]
    have haround := hh.around
    rw [Shape.top_facing] at haround
    exact haround.congr (sameOn_setMark hnot)
  · refine linked_facing.mpr ⟨hparent,by simp,hchild,hother,?_,?_⟩
    · exact hlnear.congr (sameOn_setMark hnear)
    · exact hlfar.congr (sameOn_setMark hfar)
  · have hroot := hh.root
    cases p with
    | nil => simpa [Path.plug] using hroot
    | cons f p =>
      rw [Path.top_plug_cons f p _ (Shape.facing s near a d far)] at hroot
      exact hroot
  · rw [hids]
    exact hnodup

end Stores

end LinkedTrees
