import Jancy.Ct.AutoSizeArray

/-! What the scan counts in an initializer, item by item. -/
namespace Jancy.Ct.AutoSizeArray
open Nesting (Bracket depth outside Balanced)

def endsElement (isCharArray : Bool) (segment : List Token) : Bool :=
  match segment.getLast? with
  | none => false
  | some (.binLiteral _) => !isCharArray
  | some _ => true

/-- The text of the literals between two commas, and one for what is no hex literal at the end. -/
def segmentCount (isCharArray : Bool) (segment : List Token) : ℕ :=
  (if isCharArray then (segment.map Token.length).sum else 0) +
    if endsElement isCharArray segment then 1 else 0

/-- What the scan counts for the tokens of one item: every comma outside of braces ends an
element. -/
def counted (isCharArray : Bool) (tokens : List Token) : ℕ :=
  (((outside Token.bracket 0 tokens).splitOn .comma).map (segmentCount isCharArray)).sum

section Flat

/-- A turn of the scan outside of braces. -/
def flatStep (isCharArray : Bool) (state : ℕ × Bool) : Token → ℕ × Bool
  | .comma => (state.1 + (if state.2 then 1 else 0),false)
  | .literal length => (if isCharArray then state.1 + length else state.1,true)
  | .binLiteral count => if isCharArray then (state.1 + count,false) else (state.1,true)
  | _ => (state.1,true)

variable {isCharArray : Bool} {tokens segment : List Token} {state : ℕ × Bool} {d e : ℕ}

theorem flatStep_snoc {token : Token} (htoken : token ≠ .comma) (c : ℕ) :
    flatStep isCharArray
        (c + (if isCharArray then (segment.map Token.length).sum else 0),
          endsElement isCharArray segment) token =
      (c + (if isCharArray then ((segment ++ [token]).map Token.length).sum else 0),
        endsElement isCharArray (segment ++ [token])) := by
  have hlast : (segment ++ [token]).getLast? = some token := List.getLast?_concat
  unfold endsElement
  rw [hlast,List.map_append,List.sum_append]
  cases token with
  | comma => exact absurd rfl htoken
  | literal length => cases isCharArray <;> simp [flatStep,Token.length,Nat.add_assoc]
  | binLiteral count => cases isCharArray <;> simp [flatStep,Token.length,Nat.add_assoc]
  | _ => cases isCharArray <;> simp [flatStep,Token.length]

theorem flat_scan (isCharArray : Bool) (tokens : List Token) :
    ∀ (segment : List Token) (c : ℕ),Token.comma ∉ segment →
      (flatStep isCharArray
        (tokens.foldl (flatStep isCharArray)
          (c + (if isCharArray then (segment.map Token.length).sum else 0),
            endsElement isCharArray segment)) .comma).1 =
      c + (((segment ++ tokens).splitOn .comma).map (segmentCount isCharArray)).sum := by
  induction tokens with
  | nil =>
    intro segment c hcomma
    rw [List.append_nil,List.splitOn_eq_singleton hcomma]
    simp only [List.foldl_nil,flatStep,List.map_cons,List.map_nil,List.sum_cons,List.sum_nil,
      segmentCount,Nat.add_zero,Nat.add_assoc]
    rfl
  | cons token tokens ih =>
    intro segment c hcomma
    rw [List.foldl_cons]
    by_cases htoken : token = .comma
    · subst htoken
      rw [List.splitOn_append_cons_self_of_not_mem hcomma,List.map_cons,List.sum_cons,
        ← Nat.add_assoc]
      have hnext := ih [] (c + segmentCount isCharArray segment) List.not_mem_nil
      rw [List.nil_append] at hnext
      rw [← hnext]
      have hstart : endsElement isCharArray [] = false := rfl
      simp only [flatStep,segmentCount,hstart,List.map_nil,List.sum_nil,ite_self,Nat.add_zero,
        Nat.add_assoc]
    · rw [flatStep_snoc htoken]
      have hmem : Token.comma ∉ segment ++ [token] := by
        rw [List.mem_append,List.mem_singleton]
        exact not_or.2 ⟨hcomma,fun heq => htoken heq.symm⟩
      rw [ih (segment ++ [token]) c hmem,List.append_assoc,List.singleton_append]

theorem flat_counted (c : ℕ) :
    (flatStep isCharArray ((outside Token.bracket 0 tokens).foldl (flatStep isCharArray) (c,false))
      .comma).1 = c + counted isCharArray tokens := by
  have hscan := flat_scan isCharArray (outside Token.bracket 0 tokens) [] c
    List.not_mem_nil
  have hstart : endsElement isCharArray [] = false := rfl
  rw [hstart] at hscan
  simp only [List.map_nil,List.sum_nil,ite_self,Nat.add_zero,List.nil_append] at hscan
  exact hscan

end Flat

section Levels

variable {isCharArray : Bool} {tokens : List Token} {state : ℕ × Bool} {d e : ℕ}

/-- The scan inside the initializer, with so many braces open in it. -/
def Scan.inner (d : ℕ) (state : ℕ × Bool) : Scan := ⟨1 + d,state.1,state.2⟩

theorem inner_level_iff : (Scan.inner d state).level = 1 ↔ d = 0 := by
  show (1 : ℤ) + d = 1 ↔ d = 0
  omega

theorem finish_inner (isCharArray : Bool) :
    (Scan.inner 0 state).finish = .inner 0 (flatStep isCharArray state .comma) := by
  obtain ⟨count,isElement⟩ := state
  cases isElement <;> rfl

theorem finish_deep (hd : d ≠ 0) : (Scan.inner d state).finish = .inner d state := by
  unfold Scan.finish
  rw [if_neg fun hlevel => hd (inner_level_iff.1 hlevel.1)]

theorem element_inner : (Scan.inner 0 state).element = .inner 0 (state.1,true) := rfl

theorem element_deep (hd : d ≠ 0) : (Scan.inner d state).element = .inner d state := by
  unfold Scan.element
  rw [if_neg fun hlevel => hd (inner_level_iff.1 hlevel)]

theorem token_plain {token : Token} (hplain : token.bracket = .plain) :
    (Scan.inner 0 state).token isCharArray token =
      .inner 0 (flatStep isCharArray state token) := by
  cases token with
  | openBrace => cases hplain
  | closeBrace => cases hplain
  | comma => exact finish_inner isCharArray
  | literal length => rfl
  | binLiteral count => cases isCharArray <;> rfl
  | _ => exact element_inner

theorem token_deep (hd : d ≠ 0) {token : Token} (hplain : token.bracket = .plain) :
    (Scan.inner d state).token isCharArray token = .inner d state := by
  have hlevel : (Scan.inner d state).level ≠ 1 := fun hlevel => hd (inner_level_iff.1 hlevel)
  cases token with
  | openBrace => cases hplain
  | closeBrace => cases hplain
  | comma => exact finish_deep hd
  | literal length => exact if_neg hlevel
  | binLiteral count => exact if_neg hlevel
  | _ => exact element_deep hd

theorem token_openBrace :
    (Scan.inner d state).token isCharArray .openBrace =
      .inner (d + 1) (if d = 0 then flatStep isCharArray state .openBrace else state) := by
  have hlevel : (1 : ℤ) + d + 1 = 1 + (d + 1 : ℕ) := by omega
  by_cases hd : d = 0
  · subst hd
    rfl
  · show { (Scan.inner d state).element with level := (1 : ℤ) + d + 1 } = _
    rw [element_deep hd,if_neg hd,hlevel]
    rfl

theorem token_closeBrace :
    (Scan.inner (d + 1) state).token isCharArray .closeBrace = .inner d state := by
  have hlevel : (1 : ℤ) + (d + 1 : ℕ) - 1 = 1 + d := by omega
  show { (Scan.inner (d + 1) state).finish with level := (1 : ℤ) + (d + 1 : ℕ) - 1 } = _
  rw [finish_deep (Nat.succ_ne_zero d),hlevel]
  rfl

theorem scan_outside (isCharArray : Bool) (tokens : List Token) :
    ∀ (d : ℕ) (state : ℕ × Bool),depth Token.bracket d tokens = some e →
      tokens.foldl (Scan.token isCharArray) (.inner d state) =
        .inner e ((outside Token.bracket d tokens).foldl (flatStep isCharArray) state) := by
  induction tokens with
  | nil =>
    intro d state hdepth
    obtain rfl := Option.some.inj hdepth
    rfl
  | cons token tokens ih =>
    intro d state hdepth
    rw [List.foldl_cons,outside]
    cases hbracket : token.bracket with
    | opening =>
      obtain rfl : token = .openBrace := by cases token <;> first | rfl | cases hbracket
      rw [Nesting.depth_opening hbracket] at hdepth
      rw [token_openBrace,ih _ _ hdepth]
      by_cases hd : d = 0
      · subst hd
        rfl
      · simp only [if_neg hd]
    | closing =>
      obtain rfl : token = .closeBrace := by cases token <;> first | rfl | cases hbracket
      cases d with
      | zero =>
        rw [Nesting.depth_closing_zero hbracket] at hdepth
        cases hdepth
      | succ d =>
        rw [Nesting.depth_closing hbracket] at hdepth
        rw [token_closeBrace,ih _ _ hdepth]
        rfl
    | plain =>
      rw [Nesting.depth_plain hbracket] at hdepth
      by_cases hd : d = 0
      · subst hd
        rw [token_plain hbracket,ih _ _ hdepth]
        rfl
      · rw [token_deep hd hbracket,ih _ _ hdepth]
        simp only [if_neg hd]

end Levels

section Items

variable {isCharArray : Bool}

mutual

theorem Item.balanced : ∀ item : Item,Balanced Token.bracket item.tokens
  | .named _ expr => (expr.balanced.plain rfl).plain rfl
  | .namedCurly _ items => ((curly_balanced items).plain rfl).plain rfl
  | .expr expr => expr.balanced
  | .curly items => curly_balanced items
  | .skip => rfl

theorem curly_balanced : ∀ items : List Item,Balanced Token.bracket (curlyTokens items)
  | [] => rfl
  | item :: items => by
    have hitem := Nesting.depth_succ (Item.balanced item)
    show depth Token.bracket 0 (.openBrace :: (item.tokens ++ restTokens items)) = some 0
    rw [Nesting.depth_opening rfl,Nesting.depth_append,hitem]
    exact rest_closes items

theorem rest_closes : ∀ items : List Item,depth Token.bracket 1 (restTokens items) = some 0
  | [] => rfl
  | item :: items => by
    have hitem := Nesting.depth_succ (Item.balanced item)
    show depth Token.bracket 1 (.comma :: (item.tokens ++ restTokens items)) = some 0
    rw [Nesting.depth_plain rfl,Nesting.depth_append,hitem]
    exact rest_closes items

end

theorem scan_item (isCharArray : Bool) (item : Item) (c : ℕ) :
    (item.tokens.foldl (Scan.token isCharArray) (.inner 0 (c,false))).finish =
      .inner 0 (c + counted isCharArray item.tokens,false) := by
  rw [scan_outside isCharArray item.tokens 0 (c,false) item.balanced,finish_inner isCharArray,
    ← flat_counted]
  rfl

theorem scan_rest (items : List Item) :
    ∀ (item : Item) (c : ℕ),
      (item.tokens ++ restTokens items).foldl (Scan.token isCharArray) (.inner 0 (c,false)) =
        ⟨0,c + ((item :: items).map fun item => counted isCharArray item.tokens).sum,false⟩ := by
  induction items with
  | nil =>
    intro item c
    rw [List.foldl_append]
    have hscan := scan_outside isCharArray item.tokens 0 (c,false) item.balanced
    have hend := scan_item isCharArray item c
    rw [hscan] at hend ⊢
    show { (Scan.inner 0 _).finish with level := (1 : ℤ) + (0 : ℕ) - 1 } = _
    rw [hend]
    rfl
  | cons next items ih =>
    intro item c
    rw [List.foldl_append]
    show (next.tokens ++ restTokens items).foldl (Scan.token isCharArray)
      (item.tokens.foldl (Scan.token isCharArray) (.inner 0 (c,false))).finish = _
    rw [scan_item,ih next,List.map_cons,List.sum_cons,Nat.add_assoc]
    rfl

theorem count_curlyTokens (items : List Item) :
    getAutoSizeArrayElementCountCurly isCharArray (curlyTokens items) =
      (items.map fun item => counted isCharArray item.tokens).sum := by
  cases items with
  | nil => rfl
  | cons item items =>
    unfold getAutoSizeArrayElementCountCurly
    show ((item.tokens ++ restTokens items).foldl (Scan.token isCharArray)
      (.inner 0 (0,false))).elementCount = _
    rw [scan_rest,Nat.zero_add]

end Items

section Counted

variable {isCharArray : Bool} {segment : List Token}

/-- The elements counted in an array of no characters: one for every list of tokens. -/
def segments (tokens : List Token) : ℕ := ((tokens.splitOn .comma).map (segmentCount false)).sum

end Counted

end Jancy.Ct.AutoSizeArray
