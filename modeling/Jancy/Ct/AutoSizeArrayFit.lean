import Jancy.Ct.AutoSizeArrayScan

/-! The initializers whose elements are counted as the parse stores them. -/
namespace Jancy.Ct.AutoSizeArray
open Nesting (outside)

variable {T : Type}

section Stores

def Store.elements (store : Store) : List ℕ :=
  match store.index with
  | none => []
  | some index => List.range' index store.length

/-- How many elements an item of an array stores. -/
def Item.stored (isCharArray : Bool) : Item → ℕ
  | .expr value => if isCharArray then value.charArray.getD 1 else 1
  | .curly _ => 1
  | _ => 0

def Item.isSkip : Item → Bool
  | .skip => true
  | _ => false

/-- No item is left out before one that stores. -/
def NoGap : List Item → Prop
  | [] => True
  | .skip :: items => ∀ item ∈ items,item.isSkip = true
  | _ :: items => NoGap items

def storesFrom (isCharArray : Bool) : ℕ → List Item → List Store
  | _,[] => []
  | index,.skip :: items => storesFrom isCharArray (index + 1) items
  | index,item :: items =>
      ⟨some index,item.stored isCharArray⟩ ::
        storesFrom isCharArray (index + item.stored isCharArray) items

variable (operators : Operators T) (isSafe isCharArray : Bool) (element : T)

/-- What does not depend on the size of the array. -/
def Item.accepted : Item → Bool
  | .expr value => operators.store element value
  | .curly items => (parseCurly operators (operators.target element) items).isSome
  | .skip => true
  | _ => false

/-- What the parse compares with the size of the array. -/
def Item.fits (elementCount index : ℕ) : Item → Prop
  | .expr value =>
      (isSafe = true → index < elementCount) ∧
        (isCharArray = true → ∀ length,value.charArray = some length → index + length ≤ elementCount)
  | .curly _ => isSafe = true → index < elementCount
  | _ => True

def endFrom : ℕ → List Item → ℕ
  | index,[] => index
  | index,.skip :: items => endFrom (index + 1) items
  | index,item :: items => endFrom (index + item.stored isCharArray) items

def fitFrom (elementCount : ℕ) : ℕ → List Item → Prop
  | _,[] => True
  | index,.skip :: items => fitFrom elementCount (index + 1) items
  | index,item :: items =>
      item.fits isSafe isCharArray elementCount index ∧
        fitFrom elementCount (index + item.stored isCharArray) items

variable {operators isSafe isCharArray element}

theorem byIndex_eq_some_iff {elementCount index : ℕ} {member : T} :
    (arrayTarget isSafe isCharArray element elementCount).byIndex index = some member ↔
      (isSafe = true → index < elementCount) ∧ member = element := by
  show (if isSafe = true ∧ elementCount ≤ index then none else some element) = some member ↔ _
  split
  next hbound =>
    exact iff_of_false (fun h => nomatch h) fun h => absurd (h.1 hbound.1) (Nat.not_lt.2 hbound.2)
  next hbound =>
    rw [Option.some.injEq]
    exact ⟨fun h => ⟨fun hsafe => Nat.lt_of_not_le fun hle => hbound ⟨hsafe,hle⟩,h.symm⟩,
      fun h => h.2.symm⟩

theorem assign_array {elementCount index count : ℕ} {value : Expr}
    {result : CurlyInitializer × List Store} :
    assignCurlyInitializerItem operators (arrayTarget isSafe isCharArray element elementCount)
        ⟨some index,count⟩ element value = some result ↔
      operators.store element value = true ∧
        (isCharArray = true → ∀ length,value.charArray = some length →
          index + length ≤ elementCount) ∧
        result = (⟨some (index + (Item.expr value).stored isCharArray),count + 1⟩,
          [⟨some index,(Item.expr value).stored isCharArray⟩]) := by
  unfold assignCurlyInitializerItem
  cases hstore : operators.store element value with
  | false => exact iff_of_false (fun h => nomatch h) fun h => nomatch h.1
  | true =>
    cases hchar : isCharArray with
    | false =>
      cases harray : value.charArray <;>
        simp [arrayTarget,Item.stored,nextCurlyInitializerItem,eq_comm]
    | true =>
      cases harray : value.charArray with
      | none => simp [Item.stored,nextCurlyInitializerItem,harray,eq_comm]
      | some length => simp [arrayTarget,Item.stored,harray,eq_comm]

variable {item : Item}

section

variable (hskip : item.isSkip = false)

include hskip

theorem parseItem_array {elementCount index count : ℕ} {result : CurlyInitializer × List Store} :
    parseItem operators (arrayTarget isSafe isCharArray element elementCount) ⟨some index,count⟩
        item = some result ↔
      item.accepted operators element = true ∧ item.fits isSafe isCharArray elementCount index ∧
        result = (⟨some (index + item.stored isCharArray),count + 1⟩,
          [⟨some index,item.stored isCharArray⟩]) := by
  cases item with
  | named name value => simp [parseItem,arrayTarget,Item.accepted]
  | namedCurly name items => simp [parseItem,arrayTarget,Item.accepted]
  | skip => cases hskip
  | expr value =>
    unfold parseItem
    simp only [Option.bind_eq_bind,Option.bind_some,Option.bind_eq_some_iff,byIndex_eq_some_iff]
    constructor
    · rintro ⟨_,⟨hindex,rfl⟩,hassign⟩
      obtain ⟨hstore,hlength,hresult⟩ := assign_array.1 hassign
      exact ⟨hstore,⟨hindex,hlength⟩,hresult⟩
    · rintro ⟨hstore,⟨hindex,hlength⟩,hresult⟩
      exact ⟨element,⟨hindex,rfl⟩,assign_array.2 ⟨hstore,hlength,hresult⟩⟩
  | curly items =>
    unfold parseItem
    simp only [Option.bind_eq_bind,Option.bind_some,Option.bind_eq_some_iff,byIndex_eq_some_iff]
    constructor
    · rintro ⟨_,⟨hindex,rfl⟩,stores,hstores,hresult⟩
      exact ⟨Option.isSome_iff_exists.2 ⟨stores,hstores⟩,hindex,(Option.some.inj hresult).symm⟩
    · rintro ⟨haccepted,hindex,rfl⟩
      obtain ⟨stores,hstores⟩ := Option.isSome_iff_exists.1 haccepted
      exact ⟨element,⟨hindex,rfl⟩,stores,hstores,rfl⟩

theorem storesFrom_cons (index : ℕ) (items : List Item) :
    storesFrom isCharArray index (item :: items) =
      ⟨some index,item.stored isCharArray⟩ ::
        storesFrom isCharArray (index + item.stored isCharArray) items := by
  cases item with
  | skip => cases hskip
  | _ => rfl

theorem fitFrom_cons (elementCount index : ℕ) (items : List Item) :
    fitFrom isSafe isCharArray elementCount index (item :: items) ↔
      item.fits isSafe isCharArray elementCount index ∧
        fitFrom isSafe isCharArray elementCount (index + item.stored isCharArray) items := by
  cases item with
  | skip => cases hskip
  | _ => rfl

theorem endFrom_cons (index : ℕ) (items : List Item) :
    endFrom isCharArray index (item :: items) =
      endFrom isCharArray (index + item.stored isCharArray) items := by
  cases item with
  | skip => cases hskip
  | _ => rfl

end

theorem isSkip_eq_true (hskip : item.isSkip = true) : item = .skip := by
  cases item with
  | skip => rfl
  | _ => cases hskip

theorem parseItems_array {elementCount : ℕ} (items : List Item) :
    ∀ (index count : ℕ) (result : CurlyInitializer × List Store),
      parseItems operators (arrayTarget isSafe isCharArray element elementCount) ⟨some index,count⟩
          items = some result ↔
        (∀ item ∈ items,item.accepted operators element = true) ∧
          fitFrom isSafe isCharArray elementCount index items ∧
          result = (⟨some (endFrom isCharArray index items),
              count + (storesFrom isCharArray index items).length⟩,
            storesFrom isCharArray index items) := by
  induction items with
  | nil =>
    intro index count result
    unfold parseItems fitFrom
    rw [Option.some.injEq]
    exact ⟨fun h => ⟨fun _ hmem => absurd hmem List.not_mem_nil,trivial,h.symm⟩,
      fun h => h.2.2.symm⟩
  | cons item items ih =>
    intro index count result
    unfold parseItems
    simp only [Option.bind_eq_bind,Option.bind_eq_some_iff,List.forall_mem_cons]
    cases hskip : item.isSkip with
    | true =>
      obtain rfl := isSkip_eq_true hskip
      constructor
      · rintro ⟨⟨state,stores⟩,hitem,⟨state',rest⟩,hrest,hresult⟩
        unfold parseItem at hitem
        obtain ⟨rfl,rfl⟩ := Prod.mk.inj (Option.some.inj hitem)
        obtain ⟨haccepted,hfit,hend⟩ := (ih (index + 1) count _).1 hrest
        refine ⟨⟨rfl,haccepted⟩,hfit,?_⟩
        rw [← Option.some.inj hresult,hend]
        rfl
      · rintro ⟨⟨-,haccepted⟩,hfit,rfl⟩
        unfold parseItem
        exact ⟨(skipCurlyInitializerItem ⟨some index,count⟩,[]),rfl,_,
          (ih (index + 1) count _).2 ⟨haccepted,hfit,rfl⟩,rfl⟩
    | false =>
      rw [fitFrom_cons hskip,endFrom_cons hskip,storesFrom_cons hskip]
      constructor
      · rintro ⟨⟨state,stores⟩,hitem,⟨state',rest⟩,hrest,hresult⟩
        obtain ⟨haccepted₁,hfit₁,hend₁⟩ := (parseItem_array hskip).1 hitem
        obtain ⟨rfl,rfl⟩ := Prod.mk.inj hend₁
        obtain ⟨haccepted,hfit,hend⟩ := (ih _ _ _).1 hrest
        refine ⟨⟨haccepted₁,haccepted⟩,⟨hfit₁,hfit⟩,?_⟩
        rw [← Option.some.inj hresult]
        obtain ⟨rfl,rfl⟩ := Prod.mk.inj hend
        rw [List.length_cons,Nat.add_assoc,Nat.add_comm 1]
        rfl
      · rintro ⟨⟨haccepted₁,haccepted⟩,⟨hfit₁,hfit⟩,rfl⟩
        refine ⟨_,(parseItem_array hskip).2 ⟨haccepted₁,hfit₁,rfl⟩,_,
          (ih _ _ _).2 ⟨haccepted,hfit,rfl⟩,?_⟩
        rw [List.length_cons,Nat.add_assoc,Nat.add_comm 1]
        rfl

theorem parseCurly_array {elementCount : ℕ} {items : List Item} {stores : List Store} :
    parseCurly operators (arrayTarget isSafe isCharArray element elementCount) items =
        some stores ↔
      (∀ item ∈ items,item.accepted operators element = true) ∧
        fitFrom isSafe isCharArray elementCount 0 items ∧
        stores = storesFrom isCharArray 0 items ∧ stores ≠ [] := by
  unfold parseCurly
  simp only [Option.bind_eq_bind,Option.bind_eq_some_iff,parseItems_array]
  constructor
  · rintro ⟨_,⟨haccepted,hfit,rfl⟩,hend⟩
    simp only [Nat.zero_add,List.length_eq_zero_iff] at hend
    split at hend
    next => cases hend
    next hne =>
      obtain rfl := Option.some.inj hend
      exact ⟨haccepted,hfit,rfl,hne⟩
  · rintro ⟨haccepted,hfit,rfl,hne⟩
    refine ⟨_,⟨haccepted,hfit,rfl⟩,?_⟩
    simp only [Nat.zero_add,List.length_eq_zero_iff,if_neg hne]

end Stores

section Coverage

variable {operators : Operators T} {isSafe isCharArray : Bool} {element : T}

variable {item : Item}

theorem stored_skip (hskip : item.isSkip = true) : item.stored isCharArray = 0 := by
  rw [isSkip_eq_true hskip]
  rfl

theorem stored_pos (haccepted : item.accepted operators element = true)
    (hskip : item.isSkip = false) : 0 < item.stored isCharArray := by
  cases item with
  | named name value => cases haccepted
  | namedCurly name items => cases haccepted
  | skip => cases hskip
  | curly items => exact Nat.one_pos
  | expr value =>
    show 0 < if isCharArray then value.charArray.getD 1 else 1
    split
    next =>
      cases harray : value.charArray with
      | none => exact Nat.one_pos
      | some length =>
        exact Nat.pos_of_ne_zero fun hzero => value.charArray_ne (hzero ▸ harray)
    next => exact Nat.one_pos

variable {items : List Item}

theorem storesFrom_skips (hskips : ∀ item ∈ items,item.isSkip = true) (index : ℕ) :
    storesFrom isCharArray index items = [] := by
  induction items generalizing index with
  | nil => rfl
  | cons item items ih =>
    obtain ⟨hskip,hskips⟩ := List.forall_mem_cons.1 hskips
    rw [isSkip_eq_true hskip]
    exact ih hskips (index + 1)

theorem sum_skips (hskips : ∀ item ∈ items,item.isSkip = true) :
    (items.map (Item.stored isCharArray)).sum = 0 := by
  induction items with
  | nil => rfl
  | cons item items ih =>
    obtain ⟨hskip,hskips⟩ := List.forall_mem_cons.1 hskips
    rw [List.map_cons,List.sum_cons,ih hskips,stored_skip hskip]

def covered (isCharArray : Bool) (index : ℕ) (items : List Item) : List ℕ :=
  (storesFrom isCharArray index items).flatMap Store.elements

theorem covered_skip (hskip : item.isSkip = true) (index : ℕ) (items : List Item) :
    covered isCharArray index (item :: items) = covered isCharArray (index + 1) items := by
  rw [isSkip_eq_true hskip]
  rfl

theorem covered_cons (hskip : item.isSkip = false) (index : ℕ) (items : List Item) :
    covered isCharArray index (item :: items) =
      List.range' index (item.stored isCharArray) ++
        covered isCharArray (index + item.stored isCharArray) items := by
  unfold covered
  rw [storesFrom_cons hskip,List.flatMap_cons]
  rfl

theorem length_covered (items : List Item) :
    ∀ index,(covered isCharArray index items).length =
      (items.map (Item.stored isCharArray)).sum := by
  induction items with
  | nil => exact fun _ => rfl
  | cons item items ih =>
    intro index
    rw [List.map_cons,List.sum_cons]
    cases hskip : item.isSkip with
    | true => rw [covered_skip hskip,ih,stored_skip hskip,Nat.zero_add]
    | false => rw [covered_cons hskip,List.length_append,List.length_range',ih]

theorem le_of_mem_covered (items : List Item) :
    ∀ index,∀ i ∈ covered isCharArray index items,index ≤ i := by
  induction items with
  | nil => exact fun _ _ hmem => absurd hmem List.not_mem_nil
  | cons item items ih =>
    intro index i hmem
    cases hskip : item.isSkip with
    | true =>
      rw [covered_skip hskip] at hmem
      exact Nat.le_of_succ_le (ih _ i hmem)
    | false =>
      rw [covered_cons hskip,List.mem_append] at hmem
      obtain hmem | hmem := hmem
      · exact (List.mem_range'_1.1 hmem).1
      · exact Nat.le_trans (Nat.le_add_right _ _) (ih _ i hmem)

theorem skips_of_sum (haccepted : ∀ item ∈ items,item.accepted operators element = true)
    (hsum : (items.map (Item.stored isCharArray)).sum = 0) :
    ∀ item ∈ items,item.isSkip = true := by
  intro item hmem
  cases hskip : item.isSkip with
  | true => rfl
  | false =>
    have hzero := List.sum_eq_zero_iff_forall_eq_nat.1 hsum _ (List.mem_map_of_mem hmem)
    exact absurd hzero (Nat.ne_of_gt (stored_pos (haccepted item hmem) hskip))

theorem noGap_cons (hskip : item.isSkip = false) (items : List Item) :
    NoGap (item :: items) ↔ NoGap items := by
  cases item with
  | skip => cases hskip
  | _ => rfl

theorem covered_of_noGap (hgap : NoGap items) :
    ∀ index,covered isCharArray index items =
      List.range' index (items.map (Item.stored isCharArray)).sum := by
  induction items with
  | nil => exact fun _ => rfl
  | cons item items ih =>
    intro index
    rw [List.map_cons,List.sum_cons]
    cases hskip : item.isSkip with
    | true =>
      obtain rfl := isSkip_eq_true hskip
      rw [covered_skip hskip,stored_skip hskip,sum_skips hgap]
      unfold covered
      rw [storesFrom_skips hgap]
      rfl
    | false =>
      rw [covered_cons hskip,ih ((noGap_cons hskip items).1 hgap),List.range'_append_1]

theorem noGap_of_covered (haccepted : ∀ item ∈ items,item.accepted operators element = true) :
    ∀ index count,covered isCharArray index items = List.range' index count → NoGap items := by
  induction items with
  | nil => exact fun _ _ _ => trivial
  | cons item items ih =>
    have haccepted' := (List.forall_mem_cons.1 haccepted).2
    intro index count hcovered
    have hlength := congrArg List.length hcovered
    rw [length_covered,List.length_range'] at hlength
    cases hskip : item.isSkip with
    | true =>
      obtain rfl := isSkip_eq_true hskip
      rw [covered_skip hskip] at hcovered
      cases count with
      | zero =>
        rw [List.map_cons,List.sum_cons,stored_skip hskip,Nat.zero_add] at hlength
        exact skips_of_sum haccepted' hlength
      | succ count =>
        have hmem : index ∈ covered isCharArray (index + 1) items := by
          rw [hcovered]
          exact List.mem_range'_1.2 ⟨Nat.le_refl _,Nat.lt_add_of_pos_right (Nat.succ_pos _)⟩
        exact absurd (le_of_mem_covered items _ _ hmem) (Nat.not_succ_le_self _)
    | false =>
      rw [noGap_cons hskip]
      rw [covered_cons hskip] at hcovered
      rw [List.map_cons,List.sum_cons] at hlength
      rw [← hlength,← List.range'_append_1] at hcovered
      exact ih haccepted' _ _ (List.append_cancel_left hcovered)

theorem fit_skips (hskips : ∀ item ∈ items,item.isSkip = true) (elementCount index : ℕ) :
    fitFrom isSafe isCharArray elementCount index items := by
  induction items generalizing index with
  | nil => trivial
  | cons item items ih =>
    obtain ⟨hskip,hskips⟩ := List.forall_mem_cons.1 hskips
    rw [isSkip_eq_true hskip]
    exact ih hskips (index + 1)

theorem item_fits {elementCount index : ℕ} (hpos : 0 < item.stored isCharArray)
    (hle : index + item.stored isCharArray ≤ elementCount) :
    item.fits isSafe isCharArray elementCount index := by
  have hlt : index < elementCount := Nat.lt_of_lt_of_le (Nat.lt_add_of_pos_right hpos) hle
  cases item with
  | expr value =>
    refine ⟨fun _ => hlt,fun hchar length harray => ?_⟩
    have hstored : (Item.expr value).stored isCharArray = length := by
      show (if isCharArray = true then value.charArray.getD 1 else 1) = length
      rw [if_pos hchar,harray]
      rfl
    exact hstored ▸ hle
  | curly items => exact fun _ => hlt
  | _ => trivial

theorem fit_of_noGap {elementCount : ℕ}
    (haccepted : ∀ item ∈ items,item.accepted operators element = true) (hgap : NoGap items) :
    ∀ index,index + (items.map (Item.stored isCharArray)).sum ≤ elementCount →
      fitFrom isSafe isCharArray elementCount index items := by
  induction items with
  | nil => exact fun _ _ => trivial
  | cons item items ih =>
    obtain ⟨hitem,haccepted'⟩ := List.forall_mem_cons.1 haccepted
    intro index hle
    cases hskip : item.isSkip with
    | true =>
      obtain rfl := isSkip_eq_true hskip
      exact fit_skips hgap elementCount (index + 1)
    | false =>
      rw [List.map_cons,List.sum_cons,← Nat.add_assoc] at hle
      rw [fitFrom_cons hskip]
      exact ⟨item_fits (stored_pos hitem hskip) (Nat.le_trans (Nat.le_add_right _ _) hle),
        ih haccepted' ((noGap_cons hskip items).1 hgap) _ hle⟩

end Coverage

section Agreement

variable (lexer : String → Option (List Token)) (operators : Operators T)
  (isSafe isCharArray : Bool) (element : T) (items : List Item)

def Written (initializer : List Token) : Prop :=
  initializer = curlyTokens items ∨
    ∃ text,initializer = [.body text] ∧ lexer text = some (curlyTokens items)

/-- The initializer is one of an array of some size. -/
def Accepted : Prop :=
  ∃ elementCount stores,
    parseCurly operators (arrayTarget isSafe isCharArray element elementCount) items = some stores

def Meets : Prop :=
  ∀ initializer,Written lexer items initializer →
    ∃ elementCount stores,
      getAutoSizeArrayElementCount lexer isCharArray initializer = some elementCount ∧
        parseCurly operators (arrayTarget isSafe isCharArray element elementCount) items =
          some stores ∧
        stores.flatMap Store.elements = List.range elementCount

/-- No item is left out before one that stores, and over all the items the elements counted in the
tokens are as many as those stored. -/
def Fits : Prop :=
  NoGap items ∧
    (items.map fun item => counted isCharArray item.tokens).sum =
      (items.map (Item.stored isCharArray)).sum

variable {lexer operators isSafe isCharArray element items}

theorem count_written {initializer : List Token} (hwritten : Written lexer items initializer) :
    getAutoSizeArrayElementCount lexer isCharArray initializer =
      some (items.map fun item => counted isCharArray item.tokens).sum := by
  rw [← count_curlyTokens]
  obtain rfl | ⟨text,rfl,htext⟩ := hwritten
  · cases items <;> rfl
  · show (lexer text).map (getAutoSizeArrayElementCountCurly isCharArray) = _
    rw [htext]
    rfl

theorem Accepted.items_accepted (haccepted : Accepted operators isSafe isCharArray element items) :
    (∀ item ∈ items,item.accepted operators element = true) ∧
      storesFrom isCharArray 0 items ≠ [] := by
  obtain ⟨elementCount,stores,hparse⟩ := haccepted
  obtain ⟨hitems,-,rfl,hne⟩ := parseCurly_array.1 hparse
  exact ⟨hitems,hne⟩

end Agreement

section Inputs

/-- Every value can be stored to an element, which has no members. -/
def plainOperators : Operators Unit :=
  ⟨fun _ => ⟨fun _ => none,fun _ => none,none⟩,fun _ _ => true⟩

/-- A text of two characters, and a trailing comma. -/
def text : List Item := [.expr (.literal [.literal 2] (List.cons_ne_nil _ _)),.skip]

/-- A call with two arguments. -/
def call : Expr where
  tokens := [.identifier "max",.other 40,.other 1,.comma,.other 2,.other 41]
  charArray := none
  balanced := rfl
  tokens_ne := List.cons_ne_nil _ _
  head_ne := by decide
  last_ne := by decide
  charArray_ne := nofun

end Inputs

end Jancy.Ct.AutoSizeArray
