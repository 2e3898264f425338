import Mathlib.Algebra.GroupWithZero.Nat
import Jancy.Lib.Nesting

/-! Auto-size arrays: the scan that counts the elements of a curly initializer, and the parse that
stores them. -/
namespace Jancy.Ct.AutoSizeArray
open Nesting (Bracket)

/-- Tokens as far as the scan and the grammar of initializers tell them apart; a literal has the
length of its text, a body its text. -/
inductive Token where
  | openBrace | closeBrace | comma
  | literal (length : ℕ)
  | binLiteral (count : ℕ)
  | identifier (name : String)
  | assign
  | body (text : String)
  | other (token : ℕ)
  deriving DecidableEq

def Token.bracket : Token → Bracket
  | .openBrace => .opening
  | .closeBrace => .closing
  | _ => .plain

section Count

structure Scan where
  level : ℤ
  elementCount : ℕ
  isElement : Bool
  deriving DecidableEq

namespace Scan

/-- The end of an element, at a comma and at a closing brace. -/
def finish (scan : Scan) : Scan :=
  if scan.level = 1 ∧ scan.isElement then
    { scan with elementCount := scan.elementCount + 1, isElement := false }
  else scan

def element (scan : Scan) : Scan :=
  if scan.level = 1 then { scan with isElement := true } else scan

/-- One turn of the loop over the tokens. -/
def token (isCharArray : Bool) (scan : Scan) : Token → Scan
  | .openBrace => { scan.element with level := scan.level + 1 }
  | .closeBrace => { scan.finish with level := scan.level - 1 }
  | .comma => scan.finish
  | .literal length =>
      if scan.level = 1 then
        { scan with
          elementCount := if isCharArray then scan.elementCount + length else scan.elementCount
          isElement := true }
      else scan
  | .binLiteral count =>
      if scan.level = 1 then
        if isCharArray then
          { scan with elementCount := scan.elementCount + count, isElement := false }
        else { scan with isElement := true }
      else scan
  | _ => scan.element

end Scan

def getAutoSizeArrayElementCountCurly (isCharArray : Bool) (initializer : List Token) : ℕ :=
  (initializer.foldl (Scan.token isCharArray) ⟨0,0,false⟩).elementCount

/-- What a literal token adds to the text. -/
def Token.length : Token → ℕ
  | .literal length => length
  | .binLiteral count => count
  | _ => 0

def Token.isLiteral : Token → Bool
  | .literal _ => true
  | _ => false

def getAutoSizeArrayElementCountLiteral (initializer : List Token) : ℕ :=
  (initializer.map Token.length).sum + if initializer.getLast?.any Token.isLiteral then 1 else 0

/-- The text of a body is lexed first; there is no count where that fails. -/
def getAutoSizeArrayElementCount (lexer : String → Option (List Token)) (isCharArray : Bool)
    (initializer : List Token) : Option ℕ :=
  match initializer with
  | .literal _ :: _ => some (getAutoSizeArrayElementCountLiteral initializer)
  | .binLiteral _ :: _ => some (getAutoSizeArrayElementCountLiteral initializer)
  | .body text :: _ => (lexer text).map (getAutoSizeArrayElementCountCurly isCharArray)
  | .openBrace :: _ => some (getAutoSizeArrayElementCountCurly isCharArray initializer)
  | _ => none

end Count

section Syntax

structure Expr where
  tokens : List Token
  charArray : Option ℕ
  balanced : Nesting.Balanced Token.bracket tokens
  tokens_ne : Nesting.outside Token.bracket 0 tokens ≠ []
  head_ne : (Nesting.outside Token.bracket 0 tokens).head? ≠ some .comma
  last_ne : (Nesting.outside Token.bracket 0 tokens).getLast? ≠ some .comma
  charArray_ne : charArray ≠ some 0

/-- `curly_initializer_item`, with the items of the curly initializer it may be. -/
inductive Item where
  | named (name : String) (expr : Expr)
  | namedCurly (name : String) (items : List Item)
  | expr (expr : Expr)
  | curly (items : List Item)
  | skip

mutual

def Item.tokens : Item → List Token
  | .named name expr => .identifier name :: .assign :: expr.tokens
  | .namedCurly name items => .identifier name :: .assign :: curlyTokens items
  | .expr expr => expr.tokens
  | .curly items => curlyTokens items
  | .skip => []

def curlyTokens : List Item → List Token
  | [] => [.openBrace,.closeBrace]
  | item :: items => .openBrace :: (item.tokens ++ restTokens items)

def restTokens : List Item → List Token
  | [] => [.closeBrace]
  | item :: items => .comma :: (item.tokens ++ restTokens items)

end

end Syntax

section Literals

inductive LiteralAtom where
  | literal (length : ℕ)
  | binLiteral (count : ℕ)

def LiteralAtom.token : LiteralAtom → Token
  | .literal length => .literal length
  | .binLiteral count => .binLiteral count

/-- The bytes of a literal; the last atom decides whether a terminator is appended. -/
def literalSize (atoms : List LiteralAtom) : ℕ :=
  (atoms.map fun atom => atom.token.length).sum +
    if atoms.getLast?.any fun atom => atom.token.isLiteral then 1 else 0

/-- `setCharArray` makes no empty array. -/
def finalizeLiteral (atoms : List LiteralAtom) : ℕ :=
  if literalSize atoms = 0 then 1 else literalSize atoms

theorem literals_plain {atoms : List LiteralAtom} :
    ∀ token ∈ atoms.map LiteralAtom.token,token.bracket = .plain ∧ token ≠ .comma := by
  intro token htoken
  obtain ⟨atom,-,rfl⟩ := List.mem_map.1 htoken
  cases atom <;> exact ⟨rfl,Token.noConfusion⟩

theorem outside_literals (atoms : List LiteralAtom) :
    Nesting.outside Token.bracket 0 (atoms.map LiteralAtom.token) =
      atoms.map LiteralAtom.token :=
  Nesting.outside_of_plain fun token htoken => (literals_plain token htoken).1

theorem finalizeLiteral_ne_zero (atoms : List LiteralAtom) : finalizeLiteral atoms ≠ 0 := by
  unfold finalizeLiteral
  split
  next => exact Nat.one_ne_zero
  next hsize => exact hsize

/-- A literal without formatting sites. -/
def Expr.literal (atoms : List LiteralAtom) (hatoms : atoms ≠ []) : Expr where
  tokens := atoms.map LiteralAtom.token
  charArray := some (finalizeLiteral atoms)
  balanced := Nesting.balanced_of_plain fun token htoken => (literals_plain token htoken).1
  tokens_ne := fun hnil => hatoms (List.map_eq_nil_iff.1 ((outside_literals atoms).symm.trans hnil))
  head_ne := fun hhead =>
    (literals_plain _ (outside_literals atoms ▸ List.mem_of_head? hhead)).2 rfl
  last_ne := fun hlast =>
    (literals_plain _ (outside_literals atoms ▸ List.mem_of_getLast? hlast)).2 rfl
  charArray_ne := fun hsize => finalizeLiteral_ne_zero atoms (Option.some.inj hsize)

end Literals

section Parse

/-- What the member operators find in the target of an initializer, and its element count where it
is a character array. -/
structure Target (T : Type) where
  byName : String → Option T
  byIndex : ℕ → Option T
  charArray : Option ℕ

/-- The targets behind the members, and whether a value can be stored to one. -/
structure Operators (T : Type) where
  target : T → Target T
  store : T → Expr → Bool

/-- The index is missing from the first named item on. -/
structure CurlyInitializer where
  index : Option ℕ
  count : ℕ
  deriving DecidableEq

structure Store where
  index : Option ℕ
  length : ℕ
  deriving DecidableEq

variable {T : Type} (operators : Operators T) (target : Target T)

def skipCurlyInitializerItem (initializer : CurlyInitializer) : CurlyInitializer :=
  { initializer with index := initializer.index.map (· + 1) }

def nextCurlyInitializerItem (initializer : CurlyInitializer) : CurlyInitializer :=
  ⟨initializer.index.map (· + 1),initializer.count + 1⟩

def assignCurlyInitializerItem (initializer : CurlyInitializer) (member : T) (value : Expr) :
    Option (CurlyInitializer × List Store) :=
  if operators.store member value = false then none
  else
    match initializer.index,value.charArray,target.charArray with
    | some index,some length,some elementCount =>
        if elementCount < index + length then none
        else some (⟨some (index + length),initializer.count + 1⟩,[⟨some index,length⟩])
    | _,_,_ => some (nextCurlyInitializerItem initializer,[⟨initializer.index,1⟩])

mutual

def parseItem (target : Target T) (initializer : CurlyInitializer) :
    Item → Option (CurlyInitializer × List Store)
  | .named name expr => do
      let member ← target.byName name
      assignCurlyInitializerItem operators target ⟨none,initializer.count⟩ member expr
  | .namedCurly name items => do
      let member ← target.byName name
      let _ ← parseCurly (operators.target member) items
      some (⟨none,initializer.count + 1⟩,[⟨none,1⟩])
  | .expr expr => do
      let index ← initializer.index
      let member ← target.byIndex index
      assignCurlyInitializerItem operators target initializer member expr
  | .curly items => do
      let index ← initializer.index
      let member ← target.byIndex index
      let _ ← parseCurly (operators.target member) items
      some (nextCurlyInitializerItem initializer,[⟨some index,1⟩])
  | .skip => some (skipCurlyInitializerItem initializer,[])

def parseItems (target : Target T) (initializer : CurlyInitializer) :
    List Item → Option (CurlyInitializer × List Store)
  | [] => some (initializer,[])
  | item :: items => do
      let (initializer,stores) ← parseItem target initializer item
      let (initializer,rest) ← parseItems target initializer items
      some (initializer,stores ++ rest)

/-- Stores to the members of the target itself; an initializer without any is refused. -/
def parseCurly (target : Target T) (items : List Item) : Option (List Store) := do
  let (initializer,stores) ← parseItems target ⟨some 0,0⟩ items
  if initializer.count = 0 then none else some stores

end

/-- An array behind a safe reference has its index checked; no member of it has a name. -/
def arrayTarget (isSafe isCharArray : Bool) (element : T) (elementCount : ℕ) : Target T where
  byName _ := none
  byIndex index := if isSafe ∧ elementCount ≤ index then none else some element
  charArray := if isCharArray then some elementCount else none

end Parse

end Jancy.Ct.AutoSizeArray
