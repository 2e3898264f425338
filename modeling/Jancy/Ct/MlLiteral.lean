import Mathlib.Data.List.TakeWhile
import Mathlib.Data.List.Basic

/-! Multi-line literals: the common indent that the lexer narrows while it scans, and its removal
from the pieces of the text. -/
namespace Jancy.Ct.MlLiteral

/-- One of `[ \t\r]`. -/
def isWs (c : Char) : Bool := c = ' ' || c = '\t' || c = '\r'

/-- Decoding of escape sequences, one after the other; none of them reaches over a line feed. -/
structure EscapeEncoding where
  decode : List Char → List Char
  decode_nil : decode [] = []
  decode_cons : ∀ c s, c ≠ '\\' → decode (c :: s) = c :: decode s
  decode_line : ∀ s t, decode (s ++ '\n' :: t) = decode s ++ '\n' :: decode t

inductive LiteralExKind where
  | undefined
  | fmtMl
  | ml
  | mlEsc
  deriving DecidableEq,Repr

structure LiteralExInfo where
  literalKind : LiteralExKind
  indent : List Char
  indentLength : ℕ
  deriving DecidableEq,Repr

structure Lexer where
  literalExInfo : LiteralExInfo
  fmtLiteralStack : List LiteralExInfo
  deriving DecidableEq,Repr

/-- The machines that scan the text of a literal. -/
inductive Machine where
  | litMl
  | litMlRaw
  | litFmtMl
  deriving DecidableEq,Repr

/-- The text begins with the indent of its first line if a line break follows the quotes. -/
def preCreateMlLiteral (literalKind : LiteralExKind) (isLineBreak : Bool) (text : List Char) :
    LiteralExInfo where
  literalKind := literalKind
  indent := if isLineBreak then text else []
  indentLength := if isLineBreak then (text.takeWhile isWs).length else 0

/-- `ws` is what the token has behind its line feed. -/
def updateMlLiteralIndent (info : LiteralExInfo) (ws : List Char) : LiteralExInfo :=
  if info.indentLength = 0 then info
  else
    let indentLength := min info.indentLength ws.length
    { info with
      indentLength :=
        ((List.range indentLength).find? fun i => info.indent[i]? ≠ ws[i]?).getD indentLength }

theorem length_dropWhile_lt (text : List Char) :
    (text.dropWhile isWs).length < text.length + 1 :=
  Nat.lt_succ_of_le (List.dropWhile_sublist isWs).length_le

/-- The tokens of a text without formatting parts. -/
def scan (machine : Machine) (info : LiteralExInfo) : List Char → LiteralExInfo
  | [] => info
  | '\n' :: text =>
      scan machine (updateMlLiteralIndent info (text.takeWhile isWs)) (text.dropWhile isWs)
  | '\\' :: '\n' :: text =>
      scan machine (updateMlLiteralIndent info (text.takeWhile isWs)) (text.dropWhile isWs)
  | '\\' :: c :: text =>
      match machine with
      | .litMl => scan machine { info with literalKind := .mlEsc } text
      | .litFmtMl => scan machine info text
      | .litMlRaw => scan machine info (c :: text)
  | _ :: text => scan machine info text
termination_by text => text.length
decreasing_by
  all_goals simp only [List.length_cons]
  all_goals grind [length_dropWhile_lt]

/-- A formatting part. An opener leaves the scan to the main machine up to its closing brace, and
the literals in between leave their own state. -/
inductive FmtPart where
  | token
  | opener (nested : LiteralExInfo)
  deriving DecidableEq,Repr

namespace Lexer

def createFmtOpenerToken (lexer : Lexer) : Lexer :=
  { literalExInfo := { lexer.literalExInfo with literalKind := .undefined }
    fmtLiteralStack := lexer.literalExInfo :: lexer.fmtLiteralStack }

def onRightBrace (lexer : Lexer) : Lexer :=
  match lexer.fmtLiteralStack with
  | [] => lexer
  | entry :: stack => ⟨entry,stack⟩

def fmtPart (lexer : Lexer) : FmtPart → Lexer
  | .token => lexer
  | .opener nested => { lexer.createFmtOpenerToken with literalExInfo := nested }.onRightBrace

def scan (machine : Machine) (lexer : Lexer) (text : List Char) : Lexer :=
  { lexer with literalExInfo := MlLiteral.scan machine lexer.literalExInfo text }

/-- The rest of a literal behind its first text. -/
def scanParts (machine : Machine) : Lexer → List (FmtPart × List Char) → Lexer
  | lexer, [] => lexer
  | lexer, (part,text) :: parts => scanParts machine ((lexer.fmtPart part).scan machine text) parts

end Lexer

/-- No text if the scan passes the end. -/
def unindentMlLiteral (indent : ℕ) (source : List Char) : Option (List Char) :=
  match _h : source.dropWhile (· ≠ '\n') with
  | [] => some source
  | nl :: rest =>
      if rest.length < indent then none
      else
        (unindentMlLiteral indent (rest.drop indent)).map
          (source.takeWhile (· ≠ '\n') ++ [nl] ++ ·)
termination_by source.length
decreasing_by
  have hle := (List.dropWhile_sublist (· ≠ '\n') (l := source)).length_le
  rw [_h,List.length_cons] at hle
  rw [List.length_drop]
  omega

def finalizeMlLiteralToken (E : EscapeEncoding) (info : LiteralExInfo) (text : List Char) :
    Option (List Char) :=
  let string :=
    if info.indentLength = 0 then some text
    else unindentMlLiteral info.indentLength (text.drop info.indentLength)
  if info.literalKind = .mlEsc then string.map E.decode else string

/-- The chunks between the formatting sites are decoded already. -/
def finalizeFmtMlLiteral (indent : ℕ) (chunks : List (List Char)) : List (Option (List Char)) :=
  if indent = 0 then chunks.map some
  else
    match chunks with
    | [] => []
    | first :: chunks =>
        unindentMlLiteral indent (first.drop indent) :: chunks.map (unindentMlLiteral indent)

/-- A literal of the source: whether a line break follows the quotes, its first text, and the
formatting parts, each with the text behind it. -/
inductive Literal where
  | ml (isRaw isLineBreak : Bool) (text : List Char)
  | fmtMl (isLineBreak : Bool) (text : List Char) (parts : List (FmtPart × List Char))
  deriving DecidableEq,Repr

namespace Literal

def isLineBreak : Literal → Bool
  | ml _ isLineBreak _ => isLineBreak
  | fmtMl isLineBreak _ _ => isLineBreak

def machine : Literal → Machine
  | ml isRaw _ _ => if isRaw then .litMlRaw else .litMl
  | fmtMl _ _ _ => .litFmtMl

def literalKind : Literal → LiteralExKind
  | ml _ _ _ => .ml
  | fmtMl _ _ _ => .fmtMl

def text : Literal → List Char
  | ml _ _ text => text
  | fmtMl _ text _ => text

def parts : Literal → List (FmtPart × List Char)
  | ml _ _ _ => []
  | fmtMl _ _ parts => parts

def pieces (literal : Literal) : List (List Char) := literal.text :: literal.parts.map Prod.snd

/-- The lexer at the closing quotes, in front of whose literal the stack held `stack`. -/
def lexer (literal : Literal) (stack : List LiteralExInfo) : Lexer :=
  let info := preCreateMlLiteral literal.literalKind literal.isLineBreak literal.text
  let text := if literal.isLineBreak then literal.text.dropWhile isWs else literal.text
  Lexer.scanParts literal.machine (Lexer.scan literal.machine ⟨info,stack⟩ text) literal.parts

def info (literal : Literal) (stack : List LiteralExInfo) : LiteralExInfo :=
  (literal.lexer stack).literalExInfo

/-- The values of the texts between the formatting parts. -/
def values (literal : Literal) (E : EscapeEncoding) (stack : List LiteralExInfo) :
    List (Option (List Char)) :=
  match literal with
  | ml _ _ text => [finalizeMlLiteralToken E (literal.info stack) text]
  | fmtMl _ _ _ =>
      finalizeFmtMlLiteral (literal.info stack).indentLength (literal.pieces.map E.decode)

end Literal

/-- `indent` is taken away behind each line feed, and nothing else. -/
inductive Unindented (indent : List Char) : List Char → List Char → Prop
  | line {line : List Char} (hline : '\n' ∉ line) : Unindented indent line line
  | cons {line source result : List Char} (hline : '\n' ∉ line)
      (hsource : Unindented indent source result) :
      Unindented indent (line ++ '\n' :: (indent ++ source)) (line ++ '\n' :: result)

/-- The common indent in front of the lines. -/
def LiteralExInfo.common (info : LiteralExInfo) : List Char := info.indent.take info.indentLength

structure CommonIndent (literal : Literal) (indent : List Char) : Prop where
  white : ∀ c ∈ indent, isWs c = true
  first : if literal.isLineBreak then indent <+: literal.text else indent = []
  line : ∀ piece ∈ literal.pieces, ∀ before behind, piece = before ++ '\n' :: behind →
    indent <+: behind

/-- The value of a text without the indent of its lines. -/
def decoded (E : EscapeEncoding) (info : LiteralExInfo) (literal : Literal) (text : List Char) :
    List Char :=
  match literal with
  | .ml _ _ _ => if info.literalKind = .mlEsc then E.decode text else text
  | .fmtMl _ _ _ => E.decode text

/-- No scan passes the end of its text, and each text loses the indent of its lines only. -/
def Unindents (E : EscapeEncoding) (literal : Literal) (stack : List LiteralExInfo) : Prop :=
  let info := literal.info stack
  List.Forall₂
    (fun source value =>
      ∃ result, Unindented info.common source result ∧
        value = some (decoded E info literal result))
    (literal.text.drop info.indentLength :: literal.parts.map Prod.snd) (literal.values E stack)

def NoEscapedLineFeed (E : EscapeEncoding) (text : List Char) : Prop :=
  (E.decode text).count '\n' = text.count '\n'

def Clean (E : EscapeEncoding) (literal : Literal) (stack : List LiteralExInfo) : Prop :=
  match literal with
  | .ml _ _ _ => True
  | .fmtMl _ _ _ =>
      (literal.info stack).indentLength = 0 ∨
        ∀ piece ∈ literal.pieces, NoEscapedLineFeed E piece

/-- The indent is no longer than the line it was read from. -/
def LiteralExInfo.Ok (info : LiteralExInfo) : Prop := info.indentLength ≤ info.indent.length

theorem LiteralExInfo.Ok.length_common {info : LiteralExInfo} (h : info.Ok) :
    info.common.length = info.indentLength := List.length_take_of_le h

theorem updateMlLiteralIndent_spec {info : LiteralExInfo} (h : info.Ok) (ws : List Char) :
    (updateMlLiteralIndent info ws).Ok ∧
      (updateMlLiteralIndent info ws).common <+: info.common ∧
      (updateMlLiteralIndent info ws).common <+: ws := by
  unfold updateMlLiteralIndent
  split
  · rename_i hzero
    refine ⟨h,List.prefix_rfl,?_⟩
    unfold LiteralExInfo.common
    rw [hzero]
    exact List.nil_prefix
  · -- the indents agree up to the index that is found
    have hagree : ∀ n length : ℕ,
        ((List.range length).find? fun i => info.indent[i]? ≠ ws[i]?).getD length = n →
        n ≤ length ∧ ∀ i < n, info.indent[i]? = ws[i]? := by
      intro n length hn
      cases hfind : (List.range length).find? fun i => info.indent[i]? ≠ ws[i]? with
      | none =>
        rw [hfind,Option.getD_none] at hn
        subst hn
        rw [List.find?_eq_none] at hfind
        exact ⟨Nat.le_refl _,fun i hi => by simpa using hfind i (List.mem_range.mpr hi)⟩
      | some j =>
        rw [hfind,Option.getD_some] at hn
        subst hn
        rw [List.find?_range_eq_some] at hfind
        exact ⟨Nat.le_of_lt (List.mem_range.mp hfind.2.1),fun i hi => by simpa using hfind.2.2 i hi⟩
    dsimp only
    generalize hn : ((List.range (min info.indentLength ws.length)).find? fun i =>
      info.indent[i]? ≠ ws[i]?).getD (min info.indentLength ws.length) = n
    obtain ⟨hle,heq⟩ := hagree n _ hn
    have hinfo : n ≤ info.indentLength := hle.trans (Nat.min_le_left _ _)
    refine ⟨hinfo.trans h,List.take_prefix_take_left hinfo,?_⟩
    have htake : info.indent.take n = ws.take n := by
      refine List.ext_getElem? fun i => ?_
      by_cases hi : i < n
      · rw [List.getElem?_take_of_lt hi,List.getElem?_take_of_lt hi,heq i hi]
      · rw [List.getElem?_take_eq_none (Nat.le_of_not_lt hi),
          List.getElem?_take_eq_none (Nat.le_of_not_lt hi)]
    show info.indent.take n <+: ws
    rw [htake]
    exact List.take_prefix n ws

/-- `indent` stands behind every line feed. -/
def AtLines (indent text : List Char) : Prop :=
  ∀ before behind, text = before ++ '\n' :: behind → indent <+: behind

theorem AtLines.nil (indent : List Char) : AtLines indent [] := by
  intro before behind h
  simp at h

theorem AtLines.cons {indent text : List Char} {c : Char} (hc : c ≠ '\n')
    (h : AtLines indent text) : AtLines indent (c :: text) := by
  intro before behind heq
  cases before with
  | nil => exact absurd (List.cons_eq_cons.mp heq).1 hc
  | cons d before => exact h before behind (List.cons_eq_cons.mp heq).2

theorem AtLines.newline {indent text : List Char} (hws : indent <+: text.takeWhile isWs)
    (h : AtLines indent (text.dropWhile isWs)) : AtLines indent ('\n' :: text) := by
  intro before behind heq
  cases before with
  | nil =>
    rw [← (List.cons_eq_cons.mp heq).2]
    exact hws.trans (List.takeWhile_prefix isWs)
  | cons d before =>
    refine h (before.dropWhile isWs) behind ?_
    have htext : text = before ++ '\n' :: behind := (List.cons_eq_cons.mp heq).2
    rw [htext,List.dropWhile_append]
    split
    · rename_i hempty
      rw [List.isEmpty_iff.mp hempty]
      rfl
    · rfl

theorem AtLines.mono {indent indent' text : List Char} (h : AtLines indent' text)
    (hindent : indent <+: indent') : AtLines indent text :=
  fun before behind heq => hindent.trans (h before behind heq)

theorem scan_spec (machine : Machine) (info : LiteralExInfo) (text : List Char) (h : info.Ok) :
    (scan machine info text).Ok ∧ (scan machine info text).common <+: info.common ∧
      AtLines (scan machine info text).common text := by
  fun_induction scan machine info text with
  | case1 info => exact ⟨h,List.prefix_rfl,.nil _⟩
  | case2 info text ih =>
    obtain ⟨hok,hnarrow,hws⟩ := updateMlLiteralIndent_spec h (text.takeWhile isWs)
    obtain ⟨hscan,hcommon,hlines⟩ := ih hok
    exact ⟨hscan,hcommon.trans hnarrow,.newline (hcommon.trans hws) hlines⟩
  | case3 info text ih =>
    obtain ⟨hok,hnarrow,hws⟩ := updateMlLiteralIndent_spec h (text.takeWhile isWs)
    obtain ⟨hscan,hcommon,hlines⟩ := ih hok
    exact ⟨hscan,hcommon.trans hnarrow,
      .cons (by decide) (.newline (hcommon.trans hws) hlines)⟩
  | case4 info c text hc hmachine ih =>
    subst hmachine
    obtain ⟨hscan,hcommon,hlines⟩ := ih h
    exact ⟨hscan,hcommon,.cons (by decide) (.cons (by simpa using hc) hlines)⟩
  | case5 info c text hc hmachine ih =>
    subst hmachine
    obtain ⟨hscan,hcommon,hlines⟩ := ih h
    exact ⟨hscan,hcommon,.cons (by decide) (.cons (by simpa using hc) hlines)⟩
  | case6 info c text hc hmachine ih =>
    subst hmachine
    obtain ⟨hscan,hcommon,hlines⟩ := ih h
    exact ⟨hscan,hcommon,.cons (by decide) hlines⟩
  | case7 info c text hnl _ _ ih =>
    obtain ⟨hscan,hcommon,hlines⟩ := ih h
    exact ⟨hscan,hcommon,.cons (by simpa using hnl) hlines⟩

namespace Lexer

theorem fmtPart_eq (lexer : Lexer) (part : FmtPart) : lexer.fmtPart part = lexer := by
  cases part with
  | token => rfl
  | opener nested => rfl

theorem scanParts_spec (machine : Machine) (parts : List (FmtPart × List Char)) :
    ∀ lexer : Lexer, lexer.literalExInfo.Ok →
      (scanParts machine lexer parts).literalExInfo.Ok ∧
        (scanParts machine lexer parts).literalExInfo.common <+: lexer.literalExInfo.common ∧
        ∀ piece ∈ parts.map Prod.snd,
          AtLines (scanParts machine lexer parts).literalExInfo.common piece := by
  induction parts with
  | nil =>
    intro lexer h
    exact ⟨h,List.prefix_rfl,fun piece hpiece => absurd hpiece List.not_mem_nil⟩
  | cons entry parts ih =>
    intro lexer h
    obtain ⟨part,text⟩ := entry
    rw [scanParts,fmtPart_eq]
    obtain ⟨hok,hnarrow,hlines⟩ := scan_spec machine lexer.literalExInfo text h
    obtain ⟨hok',hnarrow',hlines'⟩ := ih (lexer.scan machine text) hok
    refine ⟨hok',hnarrow'.trans hnarrow,?_⟩
    rw [List.map_cons,List.forall_mem_cons]
    exact ⟨hlines.mono hnarrow',hlines'⟩

end Lexer

theorem takeWhile_isWs_white (text : List Char) : ∀ c ∈ text.takeWhile isWs, isWs c = true :=
  fun _ hc => List.mem_takeWhile_imp hc

theorem not_isWs_newline {c : Char} (h : isWs c = true) : c ≠ '\n' ∧ c ≠ '\\' := by
  constructor
  · rintro rfl
    exact absurd h (by decide)
  · rintro rfl
    exact absurd h (by decide)

theorem preCreateMlLiteral_spec (literalKind : LiteralExKind) (isLineBreak : Bool)
    (text : List Char) :
    (preCreateMlLiteral literalKind isLineBreak text).Ok ∧
      (preCreateMlLiteral literalKind isLineBreak text).common =
        if isLineBreak then text.takeWhile isWs else [] := by
  cases isLineBreak with
  | false => exact ⟨Nat.le_refl 0,rfl⟩
  | true =>
    refine ⟨(List.takeWhile_sublist isWs).length_le,?_⟩
    show text.take (text.takeWhile isWs).length = text.takeWhile isWs
    exact (List.prefix_iff_eq_take.mp (List.takeWhile_prefix isWs)).symm

namespace Literal

variable (literal : Literal) (stack : List LiteralExInfo)

theorem info_spec : (literal.info stack).Ok ∧
    CommonIndent literal (literal.info stack).common := by
  have hpre := preCreateMlLiteral_spec literal.literalKind literal.isLineBreak literal.text
  generalize hstart : preCreateMlLiteral literal.literalKind literal.isLineBreak literal.text =
    start at hpre
  obtain ⟨hok,hcommon⟩ := hpre
  generalize hbody : (if literal.isLineBreak then literal.text.dropWhile isWs
    else literal.text) = body
  have hinfo : literal.info stack = (Lexer.scanParts literal.machine
      (Lexer.scan literal.machine ⟨start,stack⟩ body) literal.parts).literalExInfo := by
    unfold info lexer
    rw [hstart,hbody]
  obtain ⟨hok',hnarrow,hlines⟩ := scan_spec literal.machine start body hok
  obtain ⟨hfinal,hnarrow',hlines'⟩ := Lexer.scanParts_spec literal.machine literal.parts
    (Lexer.scan literal.machine ⟨start,stack⟩ body) hok'
  rw [← hinfo] at hfinal hnarrow' hlines'
  have htotal := hnarrow'.trans hnarrow
  rw [hcommon] at htotal
  have hfirst := hlines.mono hnarrow'
  refine ⟨hfinal,?_,?_,?_⟩
  · intro c hc
    have hmem := htotal.mem hc
    split at hmem
    · exact takeWhile_isWs_white _ c hmem
    · exact absurd hmem List.not_mem_nil
  · split
    · rename_i hbreak
      rw [if_pos hbreak] at htotal
      exact htotal.trans (List.takeWhile_prefix isWs)
    · rename_i hbreak
      rw [if_neg hbreak] at htotal
      exact List.prefix_nil.mp htotal
  · intro piece hpiece
    obtain rfl | hmem := List.mem_cons.mp hpiece
    · -- the indent of the first line is no line feed
      rw [← hbody] at hfirst
      split at hfirst
      · rename_i hbreak
        rw [if_pos hbreak] at htotal
        have hnewline := AtLines.newline htotal hfirst
        intro before behind heq
        exact hnewline ('\n' :: before) behind (by rw [heq]; rfl)
      · exact hfirst
    · exact hlines' piece hmem

end Literal

end Jancy.Ct.MlLiteral
