import Jancy.Stdt.BinTreeInv
import Jancy.Stdt.RbTree

/-! What the steps of rebalancing have in common: the tree has another shape afterwards. -/
namespace Jancy.Stdt.RbNodes

open LinkedTrees RedBlack TreeNodes

variable {h h' : RbNodes} {t : TableId} {path : Path EntryId RbTreeColor}
  {a b e u near far : Shape EntryId RbTreeColor} {s : Side} {x y p g : EntryId} {c d : RbTreeColor}
  {n fuel : ℕ}

/-- A nonempty tree that is a red-black tree once its root is black. -/
def NearlyBalanced (u : Shape EntryId RbTreeColor) : Prop :=
  ∃ l x c r m, u = .node l x c r ∧ Balanced (.node l x .black r) .black m

/-- What rebalancing does: the tree has another shape, its nodes have the same order, and nothing
else changes. -/
structure Reshapes (h h' : RbNodes) (t : TableId) (u u' : Shape EntryId RbTreeColor) : Prop where
  holds : h'.Holds t u'
  ids : u'.ids = u.ids
  within : h.Within h' t u.ids

theorem Reshapes.refl (hh : h.Holds t u) : Reshapes h h t u u := ⟨hh,rfl,.refl h t u.ids⟩

theorem Reshapes.trans {h'' : RbNodes} {u' u'' : Shape EntryId RbTreeColor}
    (h₁ : Reshapes h h' t u u') (h₂ : Reshapes h' h'' t u' u'') : Reshapes h h'' t u u'' where
  holds := h₂.holds
  ids := h₂.ids.trans h₁.ids
  within := h₁.within.trans (h₁.ids ▸ h₂.within)

theorem reshapes_rotate (hh : h.Holds t (Path.plug path (.facing s a x c (.facing s b y d e)))) :
    ∃ h', rotate h s t x = some h' ∧
      Reshapes h h' t (Path.plug path (.facing s a x c (.facing s b y d e)))
        (Path.plug path (.facing s (.facing s a x c b) y d e)) := by
  obtain ⟨h',hrotate,hh',hwithin⟩ := rotate_holds hh
  refine ⟨h',hrotate,hh',?_,hwithin⟩
  rw [Path.ids_plug,Path.ids_plug]
  cases s <;> simp [Shape.facing,Shape.ids]

theorem reshapes_setMark (hh : h.Holds t (Path.plug path (.facing s near x c far)))
    (d : RbTreeColor) :
    Reshapes h (h.setMark x d) t (Path.plug path (.facing s near x c far))
      (Path.plug path (.facing s near x d far)) := by
  refine ⟨hh.setMark,?_,?_⟩
  · rw [Path.ids_plug,Path.ids_plug]
    cases s <;> rfl
  · apply within_of_sameOn
    · intro z hz
      rw [Path.mem_ids_plug] at hz
      simp only [Shape.mem_ids_facing,not_or] at hz
      exact sameOn_setMark (by simpa using Ne.symm hz.2.1)
    · exact fun _ _ => rfl

theorem getColor_eq {q : Option EntryId} (hl : h.Linked q u) (hb : Balanced u c n) :
    getColor h u.top = c := by
  cases hb with
  | leaf => rfl
  | red _ _ => exact hl.2.1
  | black _ _ => exact hl.2.1

theorem sideOf_eq (hh : h.Holds t (Path.plug path (.facing s near g c far))) (hx : near.top = some x) :
    sideOf h g (some x) = s := by
  obtain ⟨-,-,hnear,hfar⟩ := hh.node
  obtain ⟨-,hnodup,-⟩ := Path.nodup_plug.mp hh.nodup
  obtain ⟨-,-,-,-,hapart⟩ := Shape.nodup_facing.mp hnodup
  cases s with
  | left => rw [sideOf,hnear,hx,if_pos rfl]
  | right =>
    simp only [Side.other] at hfar
    rw [sideOf,hfar,if_neg]
    exact fun htop => hapart (Shape.top_mem hx) (Shape.top_mem htop.symm)

theorem root_ne {f : Frame EntryId RbTreeColor} (hh : h.Holds t (Path.plug (f :: path) u))
    (hx : u.top = some x) : h.root t ≠ some x := by
  rw [hh.root,Path.top_plug,if_neg (List.cons_ne_nil f path)]
  obtain ⟨-,-,hdisjoint⟩ := Path.nodup_plug.mp hh.nodup
  exact fun htop => hdisjoint (Shape.top_mem hx) (Path.outer_mem htop)

theorem Balanced.nearly (hb : Balanced u .black n) (hu : u ≠ .leaf) : NearlyBalanced u := by
  cases hb with
  | leaf => exact absurd rfl hu
  | black hl hr => exact ⟨_,_,_,_,_,rfl,.black hl hr⟩

theorem assertValid_none : assertValid h fuel none = some 1 := by
  cases fuel <;> rfl

theorem assertValid_eq {q : Option EntryId} (hl : h.Linked q u) (hb : Balanced u c n)
    (hfuel : u.ids.length ≤ fuel) : assertValid h fuel u.top = some (n + 1) := by
  induction hb generalizing q fuel with
  | leaf => exact assertValid_none
  | @red l r _ _ hbl hbr ihl ihr =>
    obtain ⟨-,hmark,hleft,hright,hll,hlr⟩ := hl
    simp only [Shape.ids,List.length_append,List.length_cons] at hfuel
    obtain ⟨k,rfl⟩ : ∃ k, fuel = k + 1 := Nat.exists_eq_succ_of_ne_zero (by omega)
    have hlenl : l.ids.length ≤ k := by omega
    have hlenr : r.ids.length ≤ k := by omega
    have hl := ihl hll hlenl
    have hr := ihr hlr hlenr
    have hcl := getColor_eq hll hbl
    have hcr := getColor_eq hlr hbr
    simp [assertValid,Shape.top_node,hmark,hleft,hright,hl,hr,hcl,hcr,guard]
  | @black l r _ _ _ _ hbl hbr ihl ihr =>
    obtain ⟨-,hmark,hleft,hright,hll,hlr⟩ := hl
    simp only [Shape.ids,List.length_append,List.length_cons] at hfuel
    obtain ⟨k,rfl⟩ : ∃ k, fuel = k + 1 := Nat.exists_eq_succ_of_ne_zero (by omega)
    have hlenl : l.ids.length ≤ k := by omega
    have hlenr : r.ids.length ≤ k := by omega
    have hl := ihl hll hlenl
    have hr := ihr hlr hlenr
    simp [assertValid,Shape.top_node,hmark,hleft,hright,hl,hr,guard]

theorem checked_eq (hh : h.Holds t u) (hb : Balanced u c n) (hfuel : u.ids.length ≤ fuel) :
    checked h fuel t = some h := by
  have hvalid := assertValid_eq hh.linked hb hfuel
  rw [← hh.root] at hvalid
  simp [checked,hvalid,guard]

theorem blackened (hh : h.Holds t u) (hu : NearlyBalanced u) :
    ∃ x u' m, h.root t = some x ∧ Reshapes h (h.setMark x .black) t u u' ∧ Balanced u' .black m := by
  obtain ⟨l,x,c,r,m,rfl,hb⟩ := hu
  have hview : h.Holds t (Path.plug [] (.facing .left l x c r)) := hh
  exact ⟨x,.node l x .black r,m,hh.root,reshapes_setMark hview .black,hb⟩

theorem ids_length_le (hh : h.Holds t u) (hlt : ∀ e ∈ u.ids, e < fuel) : u.ids.length ≤ fuel := by
  have hsub : u.ids ⊆ List.range fuel := fun e he => List.mem_range.mpr (hlt e he)
  simpa using (List.subperm_of_subset hh.nodup hsub).length_le

end Jancy.Stdt.RbNodes

/-! The tree is a red-black tree again after `rebalanceOnInsert`. -/
namespace Jancy.Stdt.RbNodes

open LinkedTrees RedBlack TreeNodes

variable {h h' : RbNodes} {t : TableId} {path : Path EntryId RbTreeColor}
  {a b u near far : Shape EntryId RbTreeColor} {s : Side} {x y g : EntryId} {c : RbTreeColor}
  {n fuel : ℕ}

variable {f : Frame EntryId RbTreeColor}

theorem straighten_reshapes (hh : h.Holds t (Path.plug path (f.fill (.facing s a x .red b))))
    (hf : f.c = .red) (ha : Balanced a .black n) (hb : Balanced b .black n)
    (hsib : Balanced f.sibling .black n) :
    ∃ h' x' p' A B C, straighten h s t x f.a = some (h',x') ∧
      Reshapes h h' t (Path.plug path (f.fill (.facing s a x .red b)))
        (Path.plug path (.facing s (.facing s A x' .red B) p' .red C)) ∧
      Balanced A .black n ∧ Balanced B .black n ∧ Balanced C .black n := by
  rcases f with ⟨fs,p,fc,sib⟩
  obtain rfl : fc = .red := hf
  rcases Side.eq_or_eq_other fs s with rfl | rfl
  · have hnot : h.child fs.other p ≠ some x := by
      obtain ⟨-,-,-,hfar⟩ := hh.node
      obtain ⟨-,hnodup,-⟩ := Path.nodup_plug.mp hh.nodup
      obtain ⟨-,-,-,-,hapart⟩ := Shape.nodup_facing.mp hnodup
      rw [hfar]
      exact fun htop => hapart (by simp) (Shape.top_mem htop)
    have hstay : straighten h fs t x p = some (h,x) := by
      rw [straighten,if_neg hnot]
    exact ⟨h,x,p,a,b,sib,hstay,.refl hh,ha,hb,hsib⟩
  · have hfill : (Frame.fill ⟨s.other,p,.red,sib⟩ (.facing s a x .red b)) =
        Shape.facing s sib p .red (.facing s a x .red b) := Shape.facing_other s sib _ p .red
    rw [hfill] at hh ⊢
    have hinner : h.child s.other p = some x := by
      rw [hh.node.2.2.2,Shape.top_facing]
    obtain ⟨h',hrotate,hreshapes⟩ := reshapes_rotate hh
    have hturn : straighten h s t x p = some (h',p) := by
      rw [straighten,if_pos hinner,hrotate]
      rfl
    exact ⟨h',p,x,sib,a,b,hturn,hreshapes,hsib,ha,hb⟩

/-- Below a black uncle one rotation is enough, after the new node is on the outer side. -/
theorem rotateUp_reshapes {uncle : Shape EntryId RbTreeColor}
    (hh : h.Holds t (Path.plug path (.facing s (f.fill (.facing s a x .red b)) g .black uncle)))
    (hf : f.c = .red) (ha : Balanced a .black n) (hb : Balanced b .black n)
    (hsib : Balanced f.sibling .black n) :
    ∃ h' x' p' A B C, rotateUp h s t x f.a = some (h',x') ∧
      Reshapes h h' t
        (Path.plug path (.facing s (f.fill (.facing s a x .red b)) g .black uncle))
        (Path.plug path (.facing s (.facing s A x' .red B) p' .black (.facing s C g .red uncle))) ∧
      Balanced A .black n ∧ Balanced B .black n ∧ Balanced C .black n := by
  have hview : h.Holds t (Path.plug (⟨s,g,.black,uncle⟩ :: path)
      (f.fill (.facing s a x .red b))) := hh
  obtain ⟨h₁,x',p',A,B,C,hstraight,hr₁,hA,hB,hC⟩ := straighten_reshapes hview hf ha hb hsib
  have hp' : h₁.parent x' = some p' :=
    (Holds.node (p := ⟨s,p',.red,C⟩ :: ⟨s,g,.black,uncle⟩ :: path) hr₁.holds).1
  have hr₂ := reshapes_setMark hr₁.holds .black
  have hg : h₁.parent p' = some g := hr₂.holds.node.1
  have hview₂ : (h₁.setMark p' .black).Holds t (Path.plug path
      (.facing s (.facing s (.facing s A x' .red B) p' .black C) g .black uncle)) := hr₂.holds
  have hr₃ := reshapes_setMark hview₂ .red
  have hflip : Shape.facing s (.facing s (.facing s A x' .red B) p' .black C) g .red uncle =
      .facing s.other uncle g .red (.facing s.other C p' .black (.facing s A x' .red B)) := by
    rw [Shape.facing_other,Shape.facing_other]
  have hh₃ := hr₃.holds
  rw [hflip] at hh₃
  obtain ⟨h₄,hrotate,hr₄⟩ := reshapes_rotate hh₃
  refine ⟨h₄,x',p',A,B,C,?_,?_,hA,hB,hC⟩
  · simp [rotateUp,hstraight,hp',hg,hrotate]
  · have hend : Shape.facing s.other (.facing s.other uncle g .red C) p' .black
        (.facing s A x' .red B) =
        .facing s (.facing s A x' .red B) p' .black (.facing s C g .red uncle) := by
      rw [Shape.facing_other,Shape.facing_other]
    rw [← hflip,hend] at hr₄
    exact hr₁.trans (hr₂.trans (hr₃.trans hr₄))

theorem recolored_reshapes {X : Shape EntryId RbTreeColor}
    (hh : h.Holds t (Path.plug path (.facing s (f.fill X) g .black (.facing .left near y .red far)))) :
    Reshapes h (((h.setMark f.a .black).setMark y .black).setMark g .red) t
      (Path.plug path (.facing s (f.fill X) g .black (.facing .left near y .red far)))
      (Path.plug path (.facing s (Frame.fill { f with c := .black } X) g .red
        (.facing .left near y .black far))) := by
  have hview₁ : h.Holds t (Path.plug (⟨s,g,.black,.facing .left near y .red far⟩ :: path)
      (.facing f.side X f.a f.c f.sibling)) := hh
  have hr₁ := reshapes_setMark hview₁ .black
  have hview₂ : (h.setMark f.a .black).Holds t (Path.plug
      (⟨s.other,g,.black,.facing f.side X f.a .black f.sibling⟩ :: path)
      (.facing .left near y .red far)) := by
    rw [Path.plug_far]
    exact hr₁.holds
  have hr₂ := reshapes_setMark hview₂ .black
  rw [Path.plug_far,Path.plug_far] at hr₂
  exact hr₁.trans (hr₂.trans (reshapes_setMark hr₂.holds .red))

/-- One round below a red parent; the black node above is there because the root is black. -/
theorem insertLoop_red
    (ih : ∀ {h : RbNodes} {path : Path EntryId RbTreeColor} {a b : Shape EntryId RbTreeColor}
      {s : Side} {x : EntryId} {n : ℕ}, h.Holds t (Path.plug path (.facing s a x .red b)) →
      Balanced a .black n → Balanced b .black n → Fits path .black n → path.length < fuel →
      ∃ h' u, insertLoop t fuel h x = some h' ∧
        Reshapes h h' t (Path.plug path (.facing s a x .red b)) u ∧ NearlyBalanced u)
    (hh : h.Holds t (Path.plug (f :: path) (.facing s a x .red b))) (hf : f.c = .red)
    (ha : Balanced a .black n) (hb : Balanced b .black n) (hfits : Fits (f :: path) .black n)
    (hfuel : (f :: path).length < fuel + 1) :
    ∃ h' u, insertLoop t (fuel + 1) h x = some h' ∧
      Reshapes h h' t (Path.plug (f :: path) (.facing s a x .red b)) u ∧ NearlyBalanced u := by
  have hfits' : Balanced f.sibling .black n ∧ Fits path .red n := by
    simp only [Fits,hf] at hfits
    exact hfits.2
  obtain ⟨hsib,hfitsPath⟩ := hfits'
  cases path with
  | nil => cases hfitsPath
  | cons g rest =>
    rcases g with ⟨gs,g,gc,uncle⟩
    cases gc with
    | red => cases hfitsPath.1
    | black =>
      obtain ⟨⟨cu,huncle⟩,hfitsRest⟩ := hfitsPath
      dsimp only at huncle
      obtain ⟨a',b',hturn,ha',hb'⟩ : ∃ a' b', Shape.facing s a x .red b =
          .facing gs a' x .red b' ∧ Balanced a' .black n ∧ Balanced b' .black n := by
        rcases Side.eq_or_eq_other s gs with rfl | rfl
        · exact ⟨a,b,rfl,ha,hb⟩
        · exact ⟨b,a,Shape.facing_other gs b a x .red,hb,ha⟩
      rw [hturn] at hh ⊢
      have hroot := root_ne hh (Shape.top_facing gs a' b' x .red)
      have hx : h.parent x = some f.a := hh.node.1
      have hview : h.Holds t (Path.plug (⟨gs,g,.black,uncle⟩ :: rest)
          (.facing f.side (.facing gs a' x .red b') f.a f.c f.sibling)) := hh
      have hmark : h.mark f.a = .red := by rw [hview.node.2.1,hf]
      have hg : h.parent f.a = some g := hview.node.1
      have hview' : h.Holds t (Path.plug rest
          (.facing gs (f.fill (.facing gs a' x .red b')) g .black uncle)) := hh
      have hside : sideOf h g (some f.a) = gs := sideOf_eq hview' (Shape.top_facing _ _ _ _ _)
      obtain ⟨-,-,-,huncleTop⟩ := hview'.node
      have hcolor : getColor h uncle.top = cu := by
        obtain ⟨-,-,-,-,-,hl⟩ := linked_facing.mp hview'.inside
        exact getColor_eq hl huncle
      have hrest : rest.length + 1 < fuel := by
        simp only [List.length_cons] at hfuel
        omega
      cases cu with
      | red =>
        obtain ⟨y,hy⟩ : ∃ y, uncle.top = some y := by
          cases huncle
          exact ⟨_,rfl⟩
        obtain ⟨near,cy,far,rfl⟩ := Shape.exists_facing .left hy
        cases cy with
        | black => cases (balanced_black.mp huncle).1
        | red =>
          obtain ⟨-,hnear,hfar⟩ := balanced_red.mp huncle
          have hr := recolored_reshapes hview'
          have hfill : Balanced (Frame.fill { f with c := .black }
              (.facing gs a' x .red b')) .black (n + 1) :=
            balanced_black.mpr ⟨rfl,n,rfl,⟨.red,balanced_red.mpr ⟨rfl,ha',hb'⟩⟩,
              ⟨.black,hsib⟩⟩
          have hfar' : Balanced (.facing .left near y .black far) .black (n + 1) :=
            balanced_black.mpr ⟨rfl,n,rfl,⟨.black,hnear⟩,⟨.black,hfar⟩⟩
          obtain ⟨h',u,hloop,hr',hu⟩ := ih hr.holds hfill hfar' hfitsRest
            (Nat.lt_of_succ_lt hrest)
          refine ⟨h',u,?_,hr.trans hr',hu⟩
          rw [Shape.top_facing] at huncleTop hcolor
          simpa [insertLoop,hroot,hx,hmark,hg,hside,huncleTop,hcolor] using hloop
      | black =>
        obtain ⟨h₁,x',p',A,B,C,hup,hr,hA,hB,hC⟩ := rotateUp_reshapes hview' hf ha' hb' hsib
        have hfits₁ : Fits (⟨gs,p',.black,.facing gs C g .red uncle⟩ :: rest) .black n :=
          ⟨⟨.red,balanced_red.mpr ⟨rfl,hC,huncle⟩⟩,hfitsRest⟩
        have hview₁ : h₁.Holds t (Path.plug (⟨gs,p',.black,.facing gs C g .red uncle⟩ :: rest)
            (.facing gs A x' .red B)) := hr.holds
        obtain ⟨h',u,hloop,hr',hu⟩ := ih hview₁ hA hB hfits₁ hrest
        refine ⟨h',u,?_,hr.trans hr',hu⟩
        simpa [insertLoop,hroot,hx,hmark,hg,hside,huncleTop,hcolor,hup] using hloop

theorem insertLoop_reshapes (hh : h.Holds t (Path.plug path (.facing s a x .red b)))
    (ha : Balanced a .black n) (hb : Balanced b .black n) (hfits : Fits path .black n)
    (hfuel : path.length < fuel) :
    ∃ h' u, insertLoop t fuel h x = some h' ∧
      Reshapes h h' t (Path.plug path (.facing s a x .red b)) u ∧ NearlyBalanced u := by
  induction fuel generalizing h path a b s x n with
  | zero => exact absurd hfuel (Nat.not_lt_zero _)
  | succ fuel ih =>
    cases path with
    | nil =>
      have hroot : h.root t = some x := by
        rw [hh.root]
        exact Shape.top_facing s a b x .red
      refine ⟨h,_,?_,.refl hh,?_⟩
      · simp [insertLoop,hroot]
      · cases s with
        | left => exact ⟨a,x,.red,b,n + 1,rfl,.black ha hb⟩
        | right => exact ⟨b,x,.red,a,n + 1,rfl,.black hb ha⟩
    | cons f path =>
      cases hf : f.c with
      | red => exact insertLoop_red ih hh hf ha hb hfits hfuel
      | black =>
        have hroot := root_ne hh (Shape.top_facing s a b x .red)
        have hx : h.parent x = some f.a := hh.node.1
        have hview : h.Holds t (Path.plug path
            (.facing f.side (.facing s a x .red b) f.a f.c f.sibling)) := hh
        have hmark : h.mark f.a = .black := by rw [hview.node.2.1,hf]
        refine ⟨h,_,?_,.refl hh,?_⟩
        · simp [insertLoop,hroot,hx,hmark]
        · simp only [Fits,hf] at hfits
          have hfill : Balanced (f.fill (.facing s a x .red b)) .black (n + 1) := by
            rw [Frame.fill,hf]
            exact balanced_black.mpr ⟨rfl,n,rfl,⟨.red,balanced_red.mpr ⟨rfl,ha,hb⟩⟩,hfits.1⟩
          obtain ⟨m,hm⟩ := hfits.2.plug hfill
          refine Balanced.nearly hm ?_
          intro hleaf
          have hmem : x ∈ (Path.plug (f :: path) (.facing s a x .red b)).ids :=
            Path.mem_ids_plug.mpr (.inr (by simp))
          rw [hleaf] at hmem
          cases hmem

theorem rebalanceOnInsert_reshapes
    (hh : h.Holds t (Path.plug path (.facing s .leaf x c .leaf))) (hfits : Fits path .black 0)
    (hlt : ∀ e ∈ (Path.plug path (.facing s .leaf x c .leaf)).ids, e < fuel) :
    ∃ h' u m, rebalanceOnInsert h fuel t x = some h' ∧
      Reshapes h h' t (Path.plug path (.facing s .leaf x c .leaf)) u ∧ Balanced u .black m := by
  have hr₁ := reshapes_setMark hh .red
  have hlen := ids_length_le hh hlt
  have hfuel : path.length < fuel := by
    have hle := Path.length_le_ids_plug path (Shape.facing s .leaf x c .leaf)
    have hone : (Shape.facing s .leaf x c .leaf).ids.length = 1 := by cases s <;> rfl
    omega
  obtain ⟨h₂,u₂,hloop,hr₂,hu₂⟩ := insertLoop_reshapes hr₁.holds .leaf .leaf hfits hfuel
  obtain ⟨y,u₃,m,hroot,hr₃,hb⟩ := blackened hr₂.holds hu₂
  have hr := hr₁.trans (hr₂.trans hr₃)
  have hlen' : u₃.ids.length ≤ fuel := by
    rw [hr.ids]
    exact hlen
  have hcheck := checked_eq hr.holds hb hlen'
  refine ⟨h₂.setMark y .black,u₃,m,?_,hr,hb⟩
  simp [rebalanceOnInsert,hloop,hroot,hcheck]

end Jancy.Stdt.RbNodes
