import Jancy.Stdt.RbTreeInv

/-! What the methods of `stdt.RbTree` do to the entries of a tree. -/
namespace Jancy.Stdt.RbHeap

open LinkedTrees RedBlack TreeNodes

variable {K V : Type} {h h' : RbHeap K V} {es : TableId → List EntryId}
  {ts : TableId → Shape EntryId RbTreeColor} {t : TableId} {e p : EntryId} {key : K}

section

variable (hg : Grown h es ts)

include hg

theorem Grown.update (ys : List EntryId) {xs : List EntryId} {u : Shape EntryId RbTreeColor} {m : ℕ}
    (hlists : h'.lists.Represents (Function.update es t xs)) (hholds : h'.nodes.Holds t u)
    (hbalanced : Balanced u .black m) (hids : u.ids = xs)
    (hsorted : xs.Pairwise fun e e' => h'.cmp t (h'.key e) (h'.key e') = true)
    (hallocated : ∀ e ∈ xs, e < h'.allocated) (hwithin : h.nodes.Within h'.nodes t ys)
    (hapart : ∀ t', t' ≠ t → (es t').Disjoint ys) (hkey : ∀ t, ∀ e ∈ es t, h'.key e = h.key e)
    (hcmp : h'.cmp = h.cmp) (hle : h.allocated ≤ h'.allocated) :
    Grown h' (Function.update es t xs) (Function.update ts t u) where
  lists := hlists
  nodes t' := by
    by_cases ht : t' = t
    · subst ht
      rwa [Function.update_self]
    · rw [Function.update_of_ne ht]
      apply hwithin.holds (hg.nodes t') ht
      rw [hg.inorder]
      exact hapart t' ht
  balanced t' := by
    by_cases ht : t' = t
    · subst ht
      rw [Function.update_self]
      exact ⟨m,hbalanced⟩
    · rw [Function.update_of_ne ht]
      exact hg.balanced t'
  inorder t' := by
    by_cases ht : t' = t
    · subst ht
      rw [Function.update_self,Function.update_self,hids]
    · rw [Function.update_of_ne ht,Function.update_of_ne ht,hg.inorder]
  sorted t' := by
    by_cases ht : t' = t
    · subst ht
      rwa [Function.update_self]
    · rw [Function.update_of_ne ht,hcmp]
      apply (hg.sorted t').imp_of_mem
      intro e e' he he' hlt
      rw [hkey t' e he,hkey t' e' he',hlt]
  allocated t' e he := by
    by_cases ht : t' = t
    · subst ht
      rw [Function.update_self] at he
      exact hallocated e he
    · rw [Function.update_of_ne ht] at he
      exact (hg.allocated t' e he).trans_le hle

theorem Grown.fresh (t : TableId) : h.allocated ∉ es t :=
  fun hmem => lt_irrefl _ (hg.allocated t _ hmem)

theorem Grown.length_le (t : TableId) : (ts t).ids.length ≤ h.allocated := by
  rw [hg.inorder]
  exact hg.lists.length_le (hg.allocated t)

theorem Grown.height_le (t : TableId) : height (ts t) ≤ h.allocated :=
  (height_le_length (ts t)).trans (hg.length_le t)

theorem Grown.spot (hlt : StrictWeak (h.cmp t)) (hroot : (ts t).top = some p) (key : K) {fuel : ℕ}
    (hfuel : height (ts t) ≤ fuel) :
    ∃ r, h.descend t key fuel p = some r ∧ IsSpot h t key (ts t) r := by
  have hsorted := hg.sorted t
  rw [← hg.inorder] at hsorted
  exact descend_spec hlt [] (hg.nodes t) hsorted (fun _ hx => absurd hx List.not_mem_nil)
    (fun _ hx => absurd hx List.not_mem_nil) hroot hfuel

theorem Grown.find?_found (hlt : StrictWeak (h.cmp t)) (hspot : IsSpot h t key (ts t) (.found e)) :
    (es t).find? (fun e => same (h.cmp t) key (h.key e)) = some e := by
  obtain ⟨hmem,hkey⟩ := hspot
  rw [hg.inorder] at hmem
  exact find?_same hlt (hg.sorted t) hmem (same_iff.mpr hkey)

theorem Grown.find_eq (hlt : StrictWeak (h.cmp t)) (key : K) :
    h.find t key = some ((es t).find? fun e => same (h.cmp t) key (h.key e)) := by
  have hroot := (hg.nodes t).root
  cases htop : (ts t).top with
  | none =>
    rw [htop] at hroot
    have hempty := hg.inorder t
    rw [Shape.eq_leaf htop] at hempty
    rw [← hempty,TreeHeap.find,hroot]
    rfl
  | some p =>
    rw [htop] at hroot
    obtain ⟨r,hdescend,hspot⟩ := hg.spot hlt htop key (hg.height_le t)
    cases r with
    | found e =>
      rw [hg.find?_found hlt hspot]
      simp [TreeHeap.find,hroot,hdescend]
    | below e s =>
      obtain ⟨f,path,htree,-,-,hbefore,hafter⟩ := hspot
      have hids := hg.inorder t
      rw [htree,Path.ids_plug,Shape.ids,List.append_nil] at hids
      rw [← hids,find?_gap hbefore hafter]
      simp [TreeHeap.find,hroot,hdescend]

end

def attached (h : RbHeap K V) (t : TableId) (path : Path EntryId RbTreeColor) : RbNodes :=
  ((setLinks h.nodes h.allocated none none (Path.parent none path)).setMark h.allocated
    .black).setHole t path (some h.allocated)

theorem attached_holds {path : Path EntryId RbTreeColor}
    (hh : h.nodes.Holds t (Path.plug path .leaf)) (hnew : h.allocated ∉ Path.ids path) :
    (attached h t path).Holds t (Path.plug path (.facing .left .leaf h.allocated .black .leaf)) ∧
      h.nodes.Within (attached h t path) t (h.allocated :: Path.ids path) := by
  have hne : ∀ x ∈ Path.ids path, x ≠ h.allocated := fun x hx heq => hnew (heq ▸ hx)
  have hhole : ∀ s, Path.hole path ≠ some (s,h.allocated) := fun s => Path.hole_ne hnew
  constructor
  · apply hh.refill
    · intro x hx s
      simp [attached,setLinks,hne x hx,Shape.facing]
    · intro x hx
      simp [attached,setLinks,hne x hx]
    · intro x hx
      simp [attached,setLinks,hne x hx]
    · simp [attached,setLinks,Shape.facing]
    · refine ⟨?_,?_,?_,?_,trivial,trivial⟩
      · simp [attached,setLinks]
      · simp [attached,setLinks]
      · simp [attached,setLinks,hhole,Shape.top]
      · simp [attached,setLinks,hhole,Shape.top]
    · obtain ⟨hpath,-,-⟩ := Path.nodup_plug.mp hh.nodup
      refine Path.nodup_plug.mpr ⟨hpath,by simp [Shape.facing,Shape.ids],?_⟩
      simpa [Shape.facing,Shape.ids] using hnew
  · refine ⟨?_,?_,?_,?_⟩
    · intro x hx s
      have hxpath := List.not_mem_of_not_mem_cons hx
      simp [attached,setLinks,List.ne_of_not_mem_cons hx,Path.hole_ne hxpath]
    · intro x hx
      simp [attached,setLinks,List.ne_of_not_mem_cons hx]
    · intro x hx
      simp [attached,setLinks,List.ne_of_not_mem_cons hx]
    · intro t' ht
      simp [attached,setLinks,ht]

section Insert

variable [Inhabited V]

/-- A heap with a new entry whose place is the hole of a path. -/
def entered (h : RbHeap K V) (t : TableId) (key : K) (path : Path EntryId RbTreeColor)
    (nodes : RbNodes) : RbHeap K V :=
  { newEntry h key none with
    nodes := nodes
    lists := h.lists.insertBetween t (Path.before path).getLast? (Path.after path).head?
      h.allocated }

theorem Grown.enter (hg : Grown h es ts) (key : K) {path : Path EntryId RbTreeColor}
    (htree : ts t = Path.plug path .leaf)
    (hbefore : ∀ x ∈ Path.before path, h.cmp t (h.key x) key = true)
    (hafter : ∀ x ∈ Path.after path, h.cmp t key (h.key x) = true) {nodes : RbNodes}
    {u : Shape EntryId RbTreeColor} {m : ℕ}
    (hreshapes : RbNodes.Reshapes (attached h t path) nodes t
      (Path.plug path (.facing .left .leaf h.allocated .black .leaf)) u)
    (hbalanced : Balanced u .black m) :
    Grown (entered h t key path nodes)
      (Function.update es t (Path.before path ++ h.allocated :: Path.after path))
      (Function.update ts t u) := by
  have hcut : es t = Path.before path ++ Path.after path := by
    rw [← hg.inorder,htree,Path.ids_plug,Shape.ids,List.append_nil]
  have hmem : ∀ x, x ∈ Path.before path ∨ x ∈ Path.after path → x ∈ es t := by
    intro x hx
    rw [hcut]
    exact List.mem_append.mpr hx
  have hids : (Path.plug path (.facing .left .leaf h.allocated .black .leaf)).ids =
      Path.before path ++ h.allocated :: Path.after path := by
    simp [Path.ids_plug,Shape.facing,Shape.ids]
  have hnodes := hg.nodes t
  rw [htree] at hnodes
  have hkey : ∀ t, ∀ e ∈ es t, (entered h t key path nodes).key e = h.key e := by
    intro t' e he
    apply Function.update_of_ne
    rintro rfl
    exact hg.fresh t' he
  have hkeynew : (entered h t key path nodes).key h.allocated = key :=
    Function.update_self _ _ _
  obtain ⟨-,hwithin⟩ := attached_holds hnodes fun hx => hg.fresh t (hmem _ (List.mem_append.mp hx))
  apply hg.update (Path.before path ++ h.allocated :: Path.after path)
  · exact hg.lists.insertBetween hcut hg.fresh
  · exact hreshapes.holds
  · exact hbalanced
  · rw [hreshapes.ids,hids]
  · have hsorted := hg.sorted t
    rw [hcut] at hsorted
    obtain ⟨hxs,hys,hxy⟩ := List.pairwise_append.mp hsorted
    have hcongr : ∀ x ∈ es t, (entered h t key path nodes).key x = h.key x := hkey t
    refine List.pairwise_append.mpr ⟨?_,List.pairwise_cons.mpr ⟨?_,?_⟩,?_⟩
    · apply hxs.imp_of_mem
      intro x y hx hy hxy
      rw [hcongr x (hmem x (.inl hx)),hcongr y (hmem y (.inl hy))]
      exact hxy
    · intro y hy
      rw [hkeynew,hcongr y (hmem y (.inr hy))]
      exact hafter y hy
    · apply hys.imp_of_mem
      intro x y hx hy hxy
      rw [hcongr x (hmem x (.inr hx)),hcongr y (hmem y (.inr hy))]
      exact hxy
    · intro x hx y hy
      rw [hcongr x (hmem x (.inl hx))]
      rcases List.mem_cons.mp hy with rfl | hy
      · rw [hkeynew]
        exact hbefore x hx
      · rw [hcongr y (hmem y (.inr hy))]
        exact hxy x hx y hy
  · intro x hx
    apply Nat.lt_succ_of_le
    rcases List.mem_append.mp hx with hx | hx
    · exact (hg.allocated t x (hmem x (.inl hx))).le
    · rcases List.mem_cons.mp hx with rfl | hx
      · exact le_rfl
      · exact (hg.allocated t x (hmem x (.inr hx))).le
  · have hbelow := hreshapes.within
    rw [hids] at hbelow
    refine (hwithin.mono ?_).trans hbelow
    intro x hx
    rcases List.mem_cons.mp hx with rfl | hx
    · simp
    · rcases List.mem_append.mp hx with hx | hx
      · exact List.mem_append_left _ hx
      · exact List.mem_append_right _ (List.mem_cons_of_mem _ hx)
  · intro t' ht x hx hmem'
    rcases List.mem_append.mp hmem' with hx' | hx'
    · exact ht (hg.lists.disjoint hx (hmem x (.inl hx')))
    · rcases List.mem_cons.mp hx' with rfl | hx'
      · exact hg.fresh t' hx
      · exact ht (hg.lists.disjoint hx (hmem x (.inr hx')))
  · exact hkey
  · rfl
  · exact Nat.le_succ _

theorem Grown.insertBelow_eq (hg : Grown h es ts) (key : K) {f : Frame EntryId RbTreeColor}
    {path : Path EntryId RbTreeColor} (htree : ts t = Path.plug (f :: path) .leaf) :
    insertBelow h t key f.a f.side = entered h t key (f :: path)
      (attached h t (f :: path)) := by
  have hids := hg.inorder t
  rw [htree,Path.ids_plug,Shape.ids,List.append_nil] at hids
  have hlinks := hg.lists.links t
  rw [← hids] at hlinks
  rcases f with ⟨s,a,c,sib⟩
  cases s with
  | left =>
    have hprev : h.lists.prev a = (Path.before (⟨.left,a,c,sib⟩ :: path)).getLast? :=
      hlinks.prev_some
    rw [insertBelow,entered,← hprev]
    rfl
  | right =>
    have hcut : Path.before (⟨.right,a,c,sib⟩ :: path) ++ Path.after (⟨.right,a,c,sib⟩ :: path) =
        (Path.before path ++ sib.ids) ++ a :: Path.after path := by
      simp [Path.before,Path.after]
    rw [hcut] at hlinks
    have hnext : h.lists.next a = (Path.after (⟨.right,a,c,sib⟩ :: path)).head? :=
      hlinks.next_some
    have hlast : (Path.before (⟨.right,a,c,sib⟩ :: path)).getLast? = some a := by
      simp [Path.before]
    rw [insertBelow,entered,← hnext,hlast]
    rfl

theorem Grown.visit_old (hg : Grown h es ts) (hlt : StrictWeak (h.cmp t))
    (hfind : (es t).find? (fun e => same (h.cmp t) key (h.key e)) = some e) :
    visit h t key = some (h,e) := by
  have hroot := (hg.nodes t).root
  cases htop : (ts t).top with
  | none =>
    have hempty := hg.inorder t
    rw [Shape.eq_leaf htop,Shape.ids] at hempty
    rw [← hempty] at hfind
    cases hfind
  | some p =>
    rw [htop] at hroot
    obtain ⟨r,hdescend,hspot⟩ := hg.spot hlt htop key (hg.height_le t)
    cases r with
    | found e' =>
      rw [hg.find?_found hlt hspot] at hfind
      obtain rfl := Option.some.inj hfind
      simp [visit,hroot,hdescend]
    | below a s =>
      obtain ⟨f,path,htree,-,-,hbefore,hafter⟩ := hspot
      have hids := hg.inorder t
      rw [htree,Path.ids_plug,Shape.ids,List.append_nil] at hids
      rw [← hids,find?_gap hbefore hafter] at hfind
      cases hfind

/-- What a new entry is between. -/
structure Between (h : RbHeap K V) (t : TableId) (key : K) (xs ys : List EntryId) : Prop where
  before : ∀ x ∈ xs, h.cmp t (h.key x) key = true
  after : ∀ x ∈ ys, h.cmp t key (h.key x) = true

theorem Grown.visit_new (hg : Grown h es ts) (hlt : StrictWeak (h.cmp t))
    (hfind : (es t).find? (fun e => same (h.cmp t) key (h.key e)) = none) :
    ∃ h' xs ys u, visit h t key = some (h',h.allocated) ∧ es t = xs ++ ys ∧
      Between h t key xs ys ∧
      Grown h' (Function.update es t (xs ++ h.allocated :: ys)) (Function.update ts t u) ∧
      h'.key = Function.update h.key h.allocated key ∧
      h'.value = Function.update h.value h.allocated default ∧ h'.cmp = h.cmp := by
  have hnodes := hg.nodes t
  have hroot := hnodes.root
  cases htop : (ts t).top with
  | none =>
    rw [htop] at hroot
    have htree : ts t = Path.plug [] .leaf := Shape.eq_leaf htop
    have hempty := hg.inorder t
    rw [htree,Path.plug,Shape.ids] at hempty
    have htail : h.lists.tail t = none := by
      have htail := (hg.lists.links t).prev_none
      rw [← hempty] at htail
      exact htail
    rw [htree] at hnodes
    obtain ⟨hattached,-⟩ := attached_holds hnodes List.not_mem_nil
    have hgrown := hg.enter key htree
      (fun _ hx => absurd hx List.not_mem_nil) (fun _ hx => absurd hx List.not_mem_nil)
      (.refl hattached) (.black .leaf .leaf)
    refine ⟨_,[],[],_,?_,hempty.symm,⟨by rintro _ ⟨⟩,by rintro _ ⟨⟩⟩,hgrown,rfl,rfl,rfl⟩
    rw [visit,hroot]
    simp only [insertRoot,newEntry,htail]
    rfl
  | some p =>
    rw [htop] at hroot
    obtain ⟨r,hdescend,hspot⟩ := hg.spot hlt htop key (hg.height_le t)
    cases r with
    | found e =>
      rw [hg.find?_found hlt hspot] at hfind
      cases hfind
    | below a s =>
      obtain ⟨f,path,htree,rfl,rfl,hbefore,hafter⟩ := hspot
      have hcut : es t = Path.before (f :: path) ++ Path.after (f :: path) := by
        rw [← hg.inorder,htree,Path.ids_plug,Shape.ids,List.append_nil]
      have hold : ∀ x, x ∈ Path.ids (f :: path) → x ∈ es t := fun x hx => hcut ▸ hx
      obtain ⟨m,hbalanced⟩ := hg.balanced t
      rw [htree] at hnodes hbalanced
      obtain ⟨hattached,-⟩ := attached_holds hnodes fun hx => hg.fresh t (hold _ hx)
      obtain ⟨c,n,hfits,hleaf⟩ := fits_of_plug hbalanced
      cases hleaf
      have hallocated : ∀ e ∈ (Path.plug (f :: path)
          (.facing .left .leaf h.allocated .black .leaf)).ids, e < h.allocated + 1 := by
        intro e he
        rcases Path.mem_ids_plug.mp he with he | he
        · exact Nat.lt_succ_of_lt (hg.allocated t e (hold e he))
        · obtain rfl := List.mem_singleton.mp he
          exact Nat.lt_succ_self _
      obtain ⟨nodes,u,k,hrebalance,hreshapes,hbalanced'⟩ :=
        RbNodes.rebalanceOnInsert_reshapes hattached hfits hallocated
      have hgrown := hg.enter key htree hbefore hafter hreshapes hbalanced'
      refine ⟨_,_,_,u,?_,hcut,⟨hbefore,hafter⟩,hgrown,rfl,rfl,rfl⟩
      have heq := hg.insertBelow_eq key htree
      have hstep : RbNodes.rebalanceOnInsert
          (entered h t key (f :: path) (attached h t (f :: path))).nodes
          (entered h t key (f :: path) (attached h t (f :: path))).allocated t h.allocated =
            some nodes := hrebalance
      simp only [visit,hroot,hdescend,Option.bind_eq_bind,Option.bind_some,heq,hstep]
      rfl

end Insert

theorem erase_middle {xs ys : List EntryId} (hnodup : (xs ++ e :: ys).Nodup) :
    (xs ++ e :: ys).erase e = xs ++ ys := by
  have hnot := (List.nodup_cons.mp (List.nodup_middle.mp hnodup)).1
  rw [List.erase_append_right _ fun hx => hnot (List.mem_append_left ys hx),List.erase_cons_head]

/-- A node with at most one child, where the entry to remove is or has been moved to. -/
structure Removable (h : RbHeap K V) (nodes : RbNodes) (t : TableId) (e : EntryId)
    (xs : List EntryId) (path : Path EntryId RbTreeColor) (s : Side) (c : RbTreeColor)
    (u : Shape EntryId RbTreeColor) (n : ℕ) : Prop where
  exchange : h.exchangeNext t e = some nodes
  holds : nodes.Holds t (Path.plug path (.facing s .leaf e c u))
  within : h.nodes.Within nodes t xs
  ids : ∀ x, x ∈ (Path.plug path (.facing s .leaf e c u)).ids → x ∈ xs
  rest : (Path.plug path u).ids = xs.erase e
  fits : Fits path c n
  balanced : Balanced (.facing s .leaf e c u) c n

theorem Grown.removable_facing (hg : Grown h es ts) {path : Path EntryId RbTreeColor} {s : Side}
    {c : RbTreeColor} {u : Shape EntryId RbTreeColor}
    (htree : ts t = Path.plug path (.facing s .leaf e c u)) :
    ∃ n, Removable h h.nodes t e (es t) path s c u n := by
  have hnodes := hg.nodes t
  obtain ⟨m,hbalanced⟩ := hg.balanced t
  have hids := hg.inorder t
  have hnodup := hg.lists.nodup t
  rw [htree] at hnodes hbalanced hids
  rw [← hids] at hnodup
  obtain ⟨c',n,hfits,hb⟩ := fits_of_plug hbalanced
  obtain rfl := hb.color_eq
  have hchild : h.nodes.child s e = none := hnodes.node.2.2.1
  refine ⟨n,?_,hnodes,.refl _ _ _,fun x hx => hids ▸ hx,?_,hfits,hb⟩
  · cases s with
    | left => simp only [TreeHeap.exchangeNext,hchild]
    | right =>
      cases hleft : h.nodes.child .left e with
      | none => simp only [TreeHeap.exchangeNext,hleft]
      | some l => simp only [TreeHeap.exchangeNext,hleft,hchild]
  · rw [← hids]
    rw [Path.ids_plug] at hnodup ⊢
    rw [Path.ids_plug]
    cases s with
    | left =>
      have hview : Path.before path ++ (Shape.facing .left .leaf e c' u).ids ++ Path.after path =
          Path.before path ++ e :: (u.ids ++ Path.after path) := by
        simp [Shape.facing,Shape.ids]
      rw [hview] at hnodup ⊢
      rw [erase_middle hnodup,List.append_assoc]
    | right =>
      have hview : Path.before path ++ (Shape.facing .right .leaf e c' u).ids ++ Path.after path =
          (Path.before path ++ u.ids) ++ e :: Path.after path := by
        simp [Shape.facing,Shape.ids]
      rw [hview] at hnodup ⊢
      rw [erase_middle hnodup]

section Exchange

variable {path spine : Path EntryId RbTreeColor} {l rr : Shape EntryId RbTreeColor} {x lt : EntryId}
  {c cs : RbTreeColor}

theorem ids_around_next (hside : ∀ f ∈ spine, f.side = .left) :
    (Path.plug path (.node l e c (Path.plug spine (.node .leaf x cs rr)))).ids =
      (Path.before path ++ l.ids) ++ e :: x :: (rr.ids ++ Path.after spine ++ Path.after path) := by
  rw [Path.ids_plug,Shape.ids,Path.ids_plug,Path.before_eq_nil hside]
  simp [Shape.ids]

theorem Grown.exchangeNext_eq (hg : Grown h es ts)
    (htree : ts t = Path.plug path (.node l e c (Path.plug spine (.node .leaf x cs rr))))
    (hside : ∀ f ∈ spine, f.side = .left) (htop : l.top = some lt) :
    h.exchangeNext t e = some (exchanged h.nodes t path spine e x l.top rr.top
      (Path.plug spine (.node .leaf e cs rr)).top) := by
  have hnodes := hg.nodes t
  have hlinks := hg.lists.links t
  have hlen := hg.length_le t
  have hids := hg.inorder t
  rw [htree] at hnodes hlen hids
  rw [← hids,ids_around_next hside] at hlinks
  obtain ⟨rt,hrt⟩ : ∃ rt, (Path.plug spine (.node .leaf x cs rr)).top = some rt := by
    apply Option.ne_none_iff_exists'.mp
    intro hnone
    have hmem : x ∈ (Path.plug spine (.node .leaf x cs rr)).ids :=
      Path.mem_ids_plug.mpr (.inr (by simp [Shape.ids]))
    rw [Shape.eq_leaf hnone] at hmem
    cases hmem
  have hnext : h.lists.next e = some x := hlinks.next_some
  have hprev : h.lists.prev e = endOf .right l := by
    obtain ⟨z,hz⟩ : ∃ z, l.ids.getLast? = some z := by
      apply Option.ne_none_iff_exists'.mp
      rw [Ne,List.getLast?_eq_none_iff]
      exact List.ne_nil_of_mem (Shape.top_mem htop)
    have hprev : h.lists.prev e = (Path.before path ++ l.ids).getLast? := hlinks.prev_some
    rw [hprev,endOf,List.getLast?_append,hz]
    rfl
  obtain ⟨-,-,hchildLeft,hchildRight,hlinkedLeft,hlinkedRight⟩ := hnodes.inside
  have hlengths : l.ids.length ≤ h.allocated ∧
      (Path.plug spine (.node .leaf x cs rr)).ids.length ≤ h.allocated := by
    have hle := Path.length_le_ids_plug path (.node l e c (Path.plug spine (.node .leaf x cs rr)))
    rw [Shape.ids,List.length_append,List.length_cons] at hle
    omega
  have hleftmost : getLeftmostChild h.nodes h.allocated rt = some x := by
    rw [getLeftmostChild,outermost_eq hlinkedRight hrt hlengths.2,endOf,Path.ids_plug,
      Path.before_eq_nil hside]
    rfl
  have hrightmost : getRightmostChild h.nodes h.allocated lt = endOf .right l :=
    outermost_eq hlinkedLeft htop hlengths.1
  have hto := nextTo_of_holds hnodes hside
  have hleft : (exchanged h.nodes t path spine e x l.top rr.top
      (Path.plug spine (.node .leaf e cs rr)).top).child .left e = none := by
    obtain ⟨-,-,-,-,-,hlinked⟩ := (hto.exchanged_holds (t := t) hnodes).inside
    exact (linked_plug.mp hlinked).2.2.2.1
  rw [TreeHeap.exchangeNext,hchildLeft,hchildRight,htop,hrt]
  rw [htop] at hleft
  have hexchange := hto.exchange_eq (t := t)
  rw [htop] at hexchange
  simp [hnext,hprev,hleftmost,hrightmost,hexchange,hleft,guard]

theorem Grown.removable_next (hg : Grown h es ts)
    (htree : ts t = Path.plug path (.node l e c (Path.plug spine (.node .leaf x cs rr))))
    (hside : ∀ f ∈ spine, f.side = .left) (htop : l.top = some lt) :
    ∃ nodes n, Removable h nodes t e (es t) (spine ++ ⟨.right,x,c,l⟩ :: path) .left cs rr n := by
  have hnodes := hg.nodes t
  have hids := hg.inorder t
  have hnodup := hg.lists.nodup t
  obtain ⟨m,hbalanced⟩ := hg.balanced t
  rw [htree] at hnodes hids hbalanced
  have hcut := hids.symm.trans (ids_around_next hside)
  have hto := nextTo_of_holds hnodes hside
  have hholds := hto.exchanged_holds (t := t) hnodes
  have hwithin := hto.exchanged_within (t := t)
  rw [hids] at hwithin
  have hplug : ∀ a b u, Path.plug (spine ++ ⟨.right,a,c,l⟩ :: path) (.facing .left .leaf b cs u) =
      Path.plug path (.node l a c (Path.plug spine (.node .leaf b cs u))) := by
    intro a b u
    rw [Path.plug_append]
    rfl
  rw [← hplug] at hholds hbalanced
  obtain ⟨c',n,hfits,hb⟩ := fits_of_plug hbalanced
  obtain rfl := hb.color_eq
  have hrest : (Path.plug (spine ++ ⟨.right,x,c,l⟩ :: path) rr).ids =
      (Path.before path ++ l.ids) ++ x :: (rr.ids ++ Path.after spine ++ Path.after path) := by
    rw [Path.plug_append,Path.ids_plug,Path.ids_plug,Path.before_eq_nil hside]
    simp [Path.before,Path.after]
  refine ⟨_,n,hg.exchangeNext_eq htree hside htop,hholds,hwithin,?_,?_,hfits.rename,hb.rename⟩
  · intro y hy
    rw [hplug,ids_around_next hside] at hy
    rw [hcut]
    simp only [List.mem_append,List.mem_cons] at hy ⊢
    tauto
  · rw [hrest,hcut]
    rw [hcut] at hnodup
    rw [erase_middle hnodup]

end Exchange

/-- Every entry of a tree can be removed, after it has changed places with the next one if it has
two children. -/
theorem Grown.removable (hg : Grown h es ts) (he : e ∈ es t) :
    ∃ nodes path s c u n, Removable h nodes t e (es t) path s c u n := by
  rw [← hg.inorder] at he
  obtain ⟨path,l,c,r,htree⟩ := Shape.exists_path he
  cases hl : l.top with
  | none =>
    rw [Shape.eq_leaf hl] at htree
    obtain ⟨n,hr⟩ := hg.removable_facing (s := .left) htree
    exact ⟨_,_,_,_,_,n,hr⟩
  | some lt =>
    by_cases hr : r = .leaf
    · rw [hr] at htree
      obtain ⟨n,hr⟩ := hg.removable_facing (s := .right) htree
      exact ⟨_,_,_,_,_,n,hr⟩
    · obtain ⟨spine,x,cs,rr,rfl,hside⟩ := Shape.exists_end .left hr
      obtain ⟨nodes,n,hr⟩ := hg.removable_next htree hside hl
      exact ⟨nodes,_,_,_,_,n,hr⟩

theorem Grown.remove (hg : Grown h es ts) (he : e ∈ es t) :
    ∃ h' u, RbHeap.remove h t e = some h' ∧
      Grown h' (Function.update es t ((es t).erase e)) (Function.update ts t u) ∧ h'.key = h.key ∧
      h'.value = h.value ∧ h'.cmp = h.cmp := by
  obtain ⟨nodes,path,s,c,u,n,hr⟩ := hg.removable he
  obtain ⟨nodes₁,hunlink,hholds₁,hwithin₁,hmark,hparent⟩ := unlinkNode_holds hr.holds
  obtain ⟨hparent',hmark',-⟩ := hr.holds.node
  have hsub : ∀ x, x ∈ (es t).erase e → x ∈ es t := fun x hx => List.mem_of_mem_erase hx
  have hnot : e ∉ (es t).erase e := (hg.lists.nodup t).not_mem_erase
  have hlt : ∀ x ∈ (Path.plug path u).ids, x < h.allocated := by
    intro x hx
    rw [hr.rest] at hx
    exact hg.allocated t x (hsub x hx)
  have hnotplug : e ∉ (Path.plug path u).ids := by
    rw [hr.rest]
    exact hnot
  obtain ⟨nodes₂,u',m,hrebalance,hreshapes,hbalanced⟩ :=
    RbNodes.rebalanceOnRemove_reshapes hholds₁ (hmark.trans hmark') (hparent.trans hparent')
      hr.fits hr.balanced hlt hnotplug (hg.allocated t e he)
  have hchild := onlyChild_eq hr.holds
  have hremove : RbHeap.remove h t e =
      some { h with nodes := nodes₂,lists := h.lists.remove t e } := by
    simp [RbHeap.remove,TreeHeap.replaceWithChild,hr.exchange,hunlink,hchild,hrebalance]
  refine ⟨_,u',hremove,?_,rfl,rfl,rfl⟩
  apply hg.update (es t)
  · exact (hg.lists.remove he).1
  · exact hreshapes.holds
  · exact hbalanced
  · rw [hreshapes.ids,hr.rest]
  · exact (hg.sorted t).sublist (List.erase_sublist)
  · exact fun x hx => hg.allocated t x (hsub x hx)
  · apply hr.within.trans
    apply (hwithin₁.mono hr.ids).trans
    apply hreshapes.within.mono
    intro x hx
    rw [hr.rest] at hx
    exact hsub x hx
  · exact fun t' ht x hx hx' => ht (hg.lists.disjoint hx hx')
  · exact fun _ _ _ => rfl
  · rfl
  · exact le_rfl

theorem Grown.clear (hg : Grown h es ts) (t : TableId) :
    Grown (RbHeap.clear h t) (Function.update es t []) (Function.update ts t .leaf) := by
  apply hg.update [] (hg.lists.clear t) (m := 0)
  · exact ⟨trivial,by simp [RbHeap.clear,Shape.top],List.nodup_nil⟩
  · exact .leaf
  · rfl
  · exact .nil
  · exact fun _ he => absurd he List.not_mem_nil
  · exact ⟨fun _ _ _ => rfl,fun _ _ => rfl,fun _ _ => rfl,fun j hj => by simp [RbHeap.clear,hj]⟩
  · exact fun _ _ _ _ hx => absurd hx List.not_mem_nil
  · exact fun _ _ _ => rfl
  · rfl
  · exact le_rfl

/-- A tree that compares in the same way takes over. -/
theorem Grown.takeOver (hg : Grown h es ts) {src : TableId} (hne : src ≠ t)
    (hcmp : h.cmp t = h.cmp src) :
    Grown (RbHeap.takeOver h t src) (transferred es t src []) (transferred ts t src .leaf) where
  lists := hg.lists.takeOver hne
  nodes t' := by
    by_cases hsrc : t' = src
    · subst hsrc
      rw [transferred_src]
      exact ⟨trivial,by simp [RbHeap.takeOver,Shape.top],List.nodup_nil⟩
    · by_cases ht : t' = t
      · subst ht
        rw [transferred_dst _ hne]
        have hold := hg.nodes src
        exact ⟨hold.linked.congr ⟨fun _ _ _ => rfl,fun _ _ => rfl,fun _ _ => rfl⟩,
          by simp [RbHeap.takeOver,hne.symm,hold.root],hold.nodup⟩
      · rw [transferred_other _ hsrc ht]
        have hold := hg.nodes t'
        exact ⟨hold.linked.congr ⟨fun _ _ _ => rfl,fun _ _ => rfl,fun _ _ => rfl⟩,
          by simp [RbHeap.takeOver,hsrc,ht,hold.root],hold.nodup⟩
  balanced t' := by
    by_cases hsrc : t' = src
    · subst hsrc
      rw [transferred_src]
      exact ⟨0,.leaf⟩
    · by_cases ht : t' = t
      · subst ht
        rw [transferred_dst _ hne]
        exact hg.balanced src
      · rw [transferred_other _ hsrc ht]
        exact hg.balanced t'
  inorder t' := by
    by_cases hsrc : t' = src
    · subst hsrc
      rw [transferred_src,transferred_src]
      rfl
    · by_cases ht : t' = t
      · subst ht
        rw [transferred_dst _ hne,transferred_dst _ hne,hg.inorder]
      · rw [transferred_other _ hsrc ht,transferred_other _ hsrc ht,hg.inorder]
  sorted t' := by
    by_cases hsrc : t' = src
    · subst hsrc
      rw [transferred_src]
      exact .nil
    · by_cases ht : t' = t
      · subst ht
        rw [transferred_dst _ hne]
        have hsorted := hg.sorted src
        rw [← hcmp] at hsorted
        exact hsorted
      · rw [transferred_other _ hsrc ht]
        exact hg.sorted t'
  allocated t' := by
    by_cases hsrc : t' = src
    · subst hsrc
      rw [transferred_src]
      exact fun _ he => absurd he List.not_mem_nil
    · by_cases ht : t' = t
      · subst ht
        rw [transferred_dst _ hne]
        exact hg.allocated src
      · rw [transferred_other _ hsrc ht]
        exact hg.allocated t'

end Jancy.Stdt.RbHeap
