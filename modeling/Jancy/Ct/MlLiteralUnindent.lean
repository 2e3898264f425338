import Jancy.Ct.MlLiteral
import Mathlib.Data.List.Forall2

/-! The texts of a multi-line literal without their indent, read as they stand and read behind the
decoding of their escape sequences. -/
namespace Jancy.Ct.MlLiteral

variable {indent : List Char}

theorem unindentMlLiteral_line (n : ℕ) {line : List Char} (hline : '\n' ∉ line) :
    unindentMlLiteral n line = some line := by
  have hdrop : line.dropWhile (· ≠ '\n') = [] := by
    rw [List.dropWhile_eq_nil_iff]
    intro c hc
    exact decide_eq_true fun h => hline (h ▸ hc)
  rw [unindentMlLiteral.eq_def]
  split
  · rfl
  · rename_i heq
    rw [hdrop] at heq
    cases heq

theorem unindentMlLiteral_append (n : ℕ) {line : List Char} (hline : '\n' ∉ line)
    (rest : List Char) :
    unindentMlLiteral n (line ++ '\n' :: rest) =
      if rest.length < n then none
      else (unindentMlLiteral n (rest.drop n)).map (line ++ '\n' :: ·) := by
  have hall : ∀ c ∈ line, decide (c ≠ '\n') = true := fun c hc =>
    decide_eq_true fun h => hline (h ▸ hc)
  have htake : (line ++ '\n' :: rest).takeWhile (· ≠ '\n') = line := by
    rw [List.takeWhile_append_of_pos hall,List.takeWhile_cons_of_neg (by decide),List.append_nil]
  have hdrop : (line ++ '\n' :: rest).dropWhile (· ≠ '\n') = '\n' :: rest := by
    rw [List.dropWhile_append_of_pos hall,List.dropWhile_cons_of_neg (by decide)]
  rw [unindentMlLiteral.eq_def]
  split
  · rename_i heq
    rw [hdrop] at heq
    cases heq
  · rename_i nl rest' heq
    rw [hdrop] at heq
    obtain ⟨rfl,rfl⟩ := List.cons_eq_cons.mp heq
    rw [htake]
    simp

theorem unindentMlLiteral_nil (n : ℕ) : unindentMlLiteral n [] = some [] :=
  unindentMlLiteral_line n List.not_mem_nil

theorem unindentMlLiteral_newline (n : ℕ) (rest : List Char) :
    unindentMlLiteral n ('\n' :: rest) =
      if rest.length < n then none
      else (unindentMlLiteral n (rest.drop n)).map ('\n' :: ·) :=
  unindentMlLiteral_append n List.not_mem_nil rest

theorem unindentMlLiteral_cons (n : ℕ) {c : Char} (hc : c ≠ '\n') (rest : List Char) :
    unindentMlLiteral n (c :: rest) = (unindentMlLiteral n rest).map (c :: ·) := by
  have hcons : ∀ {line : List Char}, '\n' ∉ line → '\n' ∉ c :: line := fun hline =>
    List.not_mem_cons_of_ne_of_not_mem (Ne.symm hc) hline
  by_cases hmem : '\n' ∈ rest
  · obtain ⟨line,behind,rfl,hline⟩ := List.eq_append_cons_of_mem hmem
    rw [unindentMlLiteral_append n hline,← List.cons_append,
      unindentMlLiteral_append n (hcons hline)]
    split
    · rfl
    · rw [Option.map_map]
      rfl
  · rw [unindentMlLiteral_line n hmem,unindentMlLiteral_line n (hcons hmem)]
    rfl

theorem unindentMlLiteral_of_atLines (text : List Char) (h : AtLines indent text) :
    ∃ result, Unindented indent text result ∧
      unindentMlLiteral indent.length text = some result := by
  induction hn : text.length using Nat.strong_induction_on generalizing text with
  | _ n ih =>
    by_cases hmem : '\n' ∈ text
    · obtain ⟨line,behind,rfl,hline⟩ := List.eq_append_cons_of_mem hmem
      obtain ⟨source,rfl⟩ := h line behind rfl
      have hsource : AtLines indent source := by
        intro before behind heq
        refine h (line ++ '\n' :: (indent ++ before)) behind ?_
        rw [heq]
        simp
      have hlt : source.length < n := by
        rw [← hn,List.length_append,List.length_cons,List.length_append]
        omega
      obtain ⟨result,hresult,heq⟩ := ih source.length hlt source hsource rfl
      refine ⟨line ++ '\n' :: result,.cons hline hresult,?_⟩
      rw [unindentMlLiteral_append _ hline,if_neg (by simp),List.drop_left,heq]
      rfl
    · exact ⟨text,.line hmem,unindentMlLiteral_line _ hmem⟩

/-- A decoded text and what it should become. `extra` counts the line feeds that stand in the text
as escape sequences and keep what is behind them. -/
inductive Decoded (indent : List Char) : List Char → List Char → ℕ → Prop
  | nil : Decoded indent [] [] 0
  | char {text result : List Char} {extra : ℕ} (c : Char)
      (htext : Decoded indent text result extra) :
      Decoded indent (c :: text) (c :: result) (extra + if c = '\n' then 1 else 0)
  | newline {text result : List Char} {extra : ℕ} (htext : Decoded indent text result extra) :
      Decoded indent ('\n' :: (indent ++ text)) ('\n' :: result) extra

variable {text result : List Char}

theorem Decoded.append {extra : ℕ} (h : Decoded indent text result extra) (line : List Char) :
    Decoded indent (line ++ text) (line ++ result) (extra + line.count '\n') := by
  induction line with
  | nil => exact h
  | cons c line ih =>
    have hchar := Decoded.char c ih
    rw [List.count_cons,← Nat.add_assoc]
    simpa using hchar

theorem EscapeEncoding.decode_append (E : EscapeEncoding) {plain : List Char}
    (hplain : '\\' ∉ plain) (text : List Char) :
    E.decode (plain ++ text) = plain ++ E.decode text := by
  induction plain with
  | nil => rfl
  | cons c plain ih =>
    rw [List.mem_cons,not_or] at hplain
    rw [List.cons_append,E.decode_cons c _ (Ne.symm hplain.1),ih hplain.2,List.cons_append]

theorem Unindented.decoded (E : EscapeEncoding) (hwhite : ∀ c ∈ indent, isWs c = true)
    {source result : List Char} (h : Unindented indent source result) :
    ∃ extra, Decoded indent (E.decode source) (E.decode result) extra ∧
      (E.decode source).count '\n' = source.count '\n' + extra := by
  have hplain : '\\' ∉ indent := fun hmem => (not_isWs_newline (hwhite _ hmem)).2 rfl
  have hindent : indent.count '\n' = 0 :=
    List.count_eq_zero.mpr fun hmem => (not_isWs_newline (hwhite _ hmem)).1 rfl
  induction h with
  | @line line hline =>
    refine ⟨(E.decode line).count '\n',?_,?_⟩
    · have happend := (@Decoded.nil indent).append (E.decode line)
      rw [List.append_nil,Nat.zero_add] at happend
      exact happend
    · rw [List.count_eq_zero.mpr hline,Nat.zero_add]
  | @cons line source result hline hsource ih =>
    obtain ⟨extra,hdecoded,hcount⟩ := ih
    refine ⟨extra + (E.decode line).count '\n',?_,?_⟩
    · rw [E.decode_line,E.decode_line,E.decode_append hplain]
      exact hdecoded.newline.append (E.decode line)
    · rw [E.decode_line,E.decode_append hplain]
      simp only [List.count_append,List.count_cons_self,hcount,hindent,
        List.count_eq_zero.mpr hline]
      omega

/-- A scan that is ahead of the text it should read ends too early. -/
theorem Decoded.ahead {extra : ℕ} (h : Decoded indent text result extra) :
    ∀ source : List Char, source.length < text.length →
      unindentMlLiteral indent.length source ≠ some result := by
  induction h with
  | nil => exact fun source hlt => absurd hlt (Nat.not_lt_zero _)
  | @char text result extra c htext ih =>
    intro source hlt
    cases source with
    | nil =>
      rw [unindentMlLiteral_nil]
      exact fun heq => absurd (Option.some.inj heq) (List.cons_ne_nil c result).symm
    | cons d source =>
      rw [List.length_cons,List.length_cons] at hlt
      by_cases hd : d = '\n'
      · rw [hd,unindentMlLiteral_newline]
        split
        · exact Option.some_ne_none _ |>.symm
        · intro heq
          obtain ⟨rest,hrest,hcons⟩ := Option.map_eq_some_iff.mp heq
          rw [(List.cons_eq_cons.mp hcons).2] at hrest
          refine ih _ ?_ hrest
          rw [List.length_drop]
          omega
      · rw [unindentMlLiteral_cons _ hd]
        intro heq
        obtain ⟨rest,hrest,hcons⟩ := Option.map_eq_some_iff.mp heq
        rw [(List.cons_eq_cons.mp hcons).2] at hrest
        exact ih source (Nat.lt_of_succ_lt_succ hlt) hrest
  | @newline text result extra htext ih =>
    intro source hlt
    cases source with
    | nil =>
      rw [unindentMlLiteral_nil]
      exact fun heq => absurd (Option.some.inj heq) (List.cons_ne_nil _ result).symm
    | cons d source =>
      rw [List.length_cons,List.length_cons,List.length_append] at hlt
      by_cases hd : d = '\n'
      · rw [hd,unindentMlLiteral_newline]
        split
        · exact Option.some_ne_none _ |>.symm
        · intro heq
          obtain ⟨rest,hrest,hcons⟩ := Option.map_eq_some_iff.mp heq
          rw [(List.cons_eq_cons.mp hcons).2] at hrest
          refine ih _ ?_ hrest
          rw [List.length_drop]
          omega
      · rw [unindentMlLiteral_cons _ hd]
        intro heq
        obtain ⟨rest,-,hcons⟩ := Option.map_eq_some_iff.mp heq
        exact hd (List.cons_eq_cons.mp hcons).1

/-- A decoded text loses the indent of its lines if and only if no line feed is an escape
sequence. -/
theorem Decoded.unindentMlLiteral_iff (hindent : indent ≠ []) {extra : ℕ}
    (h : Decoded indent text result extra) :
    unindentMlLiteral indent.length text = some result ↔ extra = 0 := by
  have hpos : 0 < indent.length := List.length_pos_iff.mpr hindent
  have hmap : ∀ (c : Char) (value : Option (List Char)) (result : List Char),
      value.map (c :: ·) = some (c :: result) ↔ value = some result := by
    intro c value result
    cases value with
    | none => simp
    | some text => simp
  induction h with
  | nil => exact iff_of_true (unindentMlLiteral_nil _) rfl
  | @char text result extra c htext ih =>
    by_cases hc : c = '\n'
    · rw [if_pos hc,hc,unindentMlLiteral_newline]
      refine iff_of_false ?_ (Nat.succ_ne_zero _)
      split
      · exact Option.some_ne_none _ |>.symm
      · rw [hmap]
        refine htext.ahead _ ?_
        rw [List.length_drop]
        omega
    · rw [if_neg hc,unindentMlLiteral_cons _ hc,hmap]
      exact ih
  | @newline text result extra htext ih =>
    rw [unindentMlLiteral_newline,if_neg (by simp),List.drop_left,hmap]
    exact ih

theorem unindented_nil (text : List Char) : Unindented [] text text := by
  induction hn : text.length using Nat.strong_induction_on generalizing text with
  | _ n ih =>
    by_cases hmem : '\n' ∈ text
    · obtain ⟨line,behind,rfl,hline⟩ := List.eq_append_cons_of_mem hmem
      refine Unindented.cons hline (ih behind.length ?_ behind rfl)
      rw [← hn,List.length_append,List.length_cons]
      omega
    · exact .line hmem

theorem piece_iff (E : EscapeEncoding) (hwhite : ∀ c ∈ indent, isWs c = true)
    (hindent : indent ≠ []) {source : List Char} (hlines : AtLines indent source) :
    (∃ result, Unindented indent source result ∧
        unindentMlLiteral indent.length (E.decode source) = some (E.decode result)) ↔
      NoEscapedLineFeed E source := by
  unfold NoEscapedLineFeed
  constructor
  · rintro ⟨result,hresult,heq⟩
    obtain ⟨extra,hdecoded,hcount⟩ := hresult.decoded E hwhite
    rw [hcount,(hdecoded.unindentMlLiteral_iff hindent).mp heq,Nat.add_zero]
  · intro hcount
    obtain ⟨result,hresult,-⟩ := unindentMlLiteral_of_atLines source hlines
    obtain ⟨extra,hdecoded,hextra⟩ := hresult.decoded E hwhite
    exact ⟨result,hresult,(hdecoded.unindentMlLiteral_iff hindent).mpr (by omega)⟩

theorem noEscapedLineFeed_append (E : EscapeEncoding) (hwhite : ∀ c ∈ indent, isWs c = true)
    (source : List Char) :
    NoEscapedLineFeed E (indent ++ source) ↔ NoEscapedLineFeed E source := by
  have hplain : '\\' ∉ indent := fun hmem => (not_isWs_newline (hwhite _ hmem)).2 rfl
  unfold NoEscapedLineFeed
  rw [E.decode_append hplain,List.count_append,List.count_append]
  exact Nat.add_left_cancel_iff

namespace Literal

variable (E : EscapeEncoding) (stack : List LiteralExInfo)

theorem exists_text (literal : Literal) : ∃ source,
    literal.text = (literal.info stack).common ++ source ∧
      literal.text.drop (literal.info stack).indentLength = source ∧
      AtLines (literal.info stack).common source := by
  obtain ⟨hok,hwhite,hfirst,hline⟩ := literal.info_spec stack
  have hprefix : (literal.info stack).common <+: literal.text := by
    split at hfirst
    · exact hfirst
    · rw [hfirst]
      exact List.nil_prefix
  obtain ⟨source,hsource⟩ := hprefix
  refine ⟨source,hsource.symm,?_,?_⟩
  · rw [← hok.length_common,← hsource,List.drop_left]
  · intro before behind heq
    refine hline literal.text List.mem_cons_self ((literal.info stack).common ++ before) behind ?_
    rw [← hsource,heq,List.append_assoc]

theorem unindents_ml (isRaw isLineBreak : Bool) (text : List Char) :
    Unindents E (ml isRaw isLineBreak text) stack := by
  obtain ⟨source,htext,hdrop,hlines⟩ := exists_text stack (ml isRaw isLineBreak text)
  have hok := ((ml isRaw isLineBreak text).info_spec stack).1
  unfold Unindents values
  dsimp only
  generalize (ml isRaw isLineBreak text).info stack = info at htext hdrop hlines hok
  rw [hdrop]
  refine List.Forall₂.cons ?_ .nil
  have hvalue : ∃ result, Unindented info.common source result ∧
      (if info.indentLength = 0 then some text
        else unindentMlLiteral info.indentLength (text.drop info.indentLength)) = some result := by
    split
    · rename_i hzero
      have hnil : info.common = [] := List.length_eq_zero_iff.mp (hok.length_common.trans hzero)
      rw [hnil] at htext ⊢
      exact ⟨source,unindented_nil source,congrArg some htext⟩
    · obtain ⟨result,hresult,heq⟩ := unindentMlLiteral_of_atLines source hlines
      rw [hok.length_common] at heq
      exact ⟨result,hresult,(congrArg _ hdrop).trans heq⟩
  obtain ⟨result,hresult,heq⟩ := hvalue
  refine ⟨result,hresult,?_⟩
  unfold finalizeMlLiteralToken decoded
  dsimp only
  rw [heq]
  split <;> rfl

theorem unindents_fmtMl (isLineBreak : Bool) (text : List Char)
    (parts : List (FmtPart × List Char)) :
    Unindents E (fmtMl isLineBreak text parts) stack ↔
      ((fmtMl isLineBreak text parts).info stack).indentLength = 0 ∨
        ∀ piece ∈ (fmtMl isLineBreak text parts).pieces, NoEscapedLineFeed E piece := by
  obtain ⟨source,htext,hdrop,hlines⟩ := exists_text stack (fmtMl isLineBreak text parts)
  obtain ⟨hok,hwhite,-,hline⟩ := (fmtMl isLineBreak text parts).info_spec stack
  unfold Unindents values
  dsimp only
  generalize (fmtMl isLineBreak text parts).info stack = info at htext hdrop hlines hok hwhite hline
  rw [hdrop]
  have htext' : text = info.common ++ source := htext
  unfold pieces finalizeFmtMlLiteral at *
  by_cases hzero : info.indentLength = 0
  · have hnil : info.common = [] := List.length_eq_zero_iff.mp (hok.length_common.trans hzero)
    rw [hnil] at htext' ⊢
    refine iff_of_true ?_ (.inl hzero)
    rw [if_pos hzero,List.map_map,List.forall₂_map_right_iff]
    show List.Forall₂ _ (source :: parts.map Prod.snd) (text :: parts.map Prod.snd)
    rw [htext',List.nil_append,List.forall₂_same]
    exact fun piece _ => ⟨piece,unindented_nil piece,rfl⟩
  · have hindent : info.common ≠ [] := by
      intro hnil
      exact hzero (hok.length_common.symm.trans (List.length_eq_zero_iff.mpr hnil))
    have hplain : '\\' ∉ info.common := fun hmem => (not_isWs_newline (hwhite _ hmem)).2 rfl
    have hfirst : (E.decode text).drop info.indentLength = E.decode source := by
      rw [htext',E.decode_append hplain,← hok.length_common,List.drop_left]
    rw [if_neg hzero,or_iff_right hzero]
    show List.Forall₂ _ (source :: parts.map Prod.snd)
        (unindentMlLiteral info.indentLength ((E.decode text).drop info.indentLength) ::
          ((parts.map Prod.snd).map E.decode).map (unindentMlLiteral info.indentLength)) ↔
      ∀ piece ∈ text :: parts.map Prod.snd, NoEscapedLineFeed E piece
    rw [hfirst,← hok.length_common,List.forall₂_cons,List.map_map,List.forall₂_map_right_iff,
      List.forall₂_same,List.forall_mem_cons,htext',noEscapedLineFeed_append E hwhite]
    refine and_congr (piece_iff E hwhite hindent hlines) (forall₂_congr fun piece hpiece => ?_)
    exact piece_iff E hwhite hindent (hline piece (List.mem_cons_of_mem _ hpiece))

/-- The indent is common to all lines. Each text loses it, and no scan passes the end of its text,
if and only if the literal is no formatting one, has no indent, or has no escape sequence for a
line feed. -/
theorem unindents_iff (literal : Literal) :
    CommonIndent literal (literal.info stack).common ∧
      (Unindents E literal stack ↔ Clean E literal stack) := by
  refine ⟨(literal.info_spec stack).2,?_⟩
  cases literal with
  | ml isRaw isLineBreak text => exact iff_of_true (unindents_ml E stack isRaw isLineBreak text) trivial
  | fmtMl isLineBreak text parts => exact unindents_fmtMl E stack isLineBreak text parts

end Literal

/-- `\n` is a line feed, and any other character stands for itself. -/
def decodeLineFeed : List Char → List Char
  | [] => []
  | '\\' :: 'n' :: s => '\n' :: decodeLineFeed s
  | '\\' :: '\n' :: s => '\n' :: decodeLineFeed s
  | '\\' :: c :: s => c :: decodeLineFeed s
  | ['\\'] => []
  | c :: s => c :: decodeLineFeed s

theorem decodeLineFeed_cons {c : Char} (hc : c ≠ '\\') (s : List Char) :
    decodeLineFeed (c :: s) = c :: decodeLineFeed s := by simp [decodeLineFeed,hc]

theorem decodeLineFeed_append (s t : List Char) :
    decodeLineFeed (s ++ '\n' :: t) = decodeLineFeed s ++ '\n' :: decodeLineFeed t := by
  fun_induction decodeLineFeed s with
  | case1 => simp [decodeLineFeed]
  | case2 s ih => simp [decodeLineFeed,ih]
  | case3 s ih => simp [decodeLineFeed,ih]
  | case4 c s hn hnl ih => simp [decodeLineFeed,ih]
  | case5 => simp [decodeLineFeed]
  | case6 c s _ _ hpair hlast ih =>
    have hc : c ≠ '\\' := by
      intro hc
      cases s with
      | nil => exact hlast hc rfl
      | cons d s => exact hpair d s hc rfl
    rw [List.cons_append,decodeLineFeed_cons hc,ih,List.cons_append]

def lineFeedEncoding : EscapeEncoding where
  decode := decodeLineFeed
  decode_nil := rfl
  decode_cons _ s hc := decodeLineFeed_cons hc s
  decode_line := decodeLineFeed_append

/-- Two characters behind an escaped line feed are lost. -/
theorem fmtMl_loses_text :
    let literal : Literal :=
      .fmtMl true [' ',' ','a','\\','n','b','c','d'] [(.token,['\n',' ',' '])]
    literal.values lineFeedEncoding [] = [some ['a','\n','d'],some ['\n']] ∧
      ¬Unindents lineFeedEncoding literal [] := by
  intro literal
  have hinfo : literal.info [] = ⟨.fmtMl,[' ',' ','a','\\','n','b','c','d'],2⟩ := by
    simp [literal,Literal.info,Literal.lexer,Literal.machine,Literal.literalKind,
      Literal.isLineBreak,Literal.text,Literal.parts,preCreateMlLiteral,isWs,Lexer.scanParts,
      Lexer.scan,Lexer.fmtPart,scan,updateMlLiteralIndent]
    decide
  refine ⟨?_,?_⟩
  · show finalizeFmtMlLiteral (literal.info []).indentLength
        (literal.pieces.map lineFeedEncoding.decode) = _
    rw [hinfo]
    show [unindentMlLiteral 2 ['a','\n','b','c','d'],unindentMlLiteral 2 ['\n',' ',' ']] = _
    simp [unindentMlLiteral_newline,unindentMlLiteral_cons,unindentMlLiteral_nil]
  · rw [Literal.unindents_fmtMl,hinfo]
    rintro (hzero | hpieces)
    · exact absurd hzero (by decide)
    · exact absurd (hpieces _ List.mem_cons_self)
        (by simp [NoEscapedLineFeed,Literal.text,lineFeedEncoding,decodeLineFeed])

end Jancy.Ct.MlLiteral
