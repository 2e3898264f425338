import Mathlib.Data.List.TakeWhile
import Mathlib.Algebra.Group.Nat.Defs

/-! Literals that spell bytes in a radix, and the decoder that splits them and leaves the digits to
`strtoul`. -/
namespace Jancy.Ct.ByteString

/-- "must be 2, 8, 10 or 16" -/
inductive Radix where
  | bin | oct | dec | hex
  deriving DecidableEq,Repr

namespace Radix

def toNat : Radix → ℕ
  | bin => 2
  | oct => 8
  | dec => 10
  | hex => 16

/-- The number of digits of the largest byte. -/
def maxByteLength : Radix → ℕ
  | hex => 2
  | bin => 8
  | _ => 3

end Radix

/-- One of `" \t\r\n.,;:"`. -/
def isByteStringSep (c : UInt8) : Bool :=
  c = 32 || c = 9 || c = 13 || c = 10 || c = 46 || c = 44 || c = 59 || c = 58

def isSpace (c : UInt8) : Bool := c = 32 || (9 ≤ c && c ≤ 13)

/-- The value of a decimal digit or of a letter. -/
def digitValue (c : UInt8) : Option ℕ :=
  if 48 ≤ c && c ≤ 57 then some (c.toNat - 48)
  else if 97 ≤ c && c ≤ 122 then some (c.toNat - 87)
  else if 65 ≤ c && c ≤ 90 then some (c.toNat - 55)
  else none

def isDigit (radix : ℕ) (c : UInt8) : Bool :=
  match digitValue c with
  | some d => d < radix
  | none => false

def valueOf (radix : ℕ) (digits : List UInt8) : ℕ :=
  digits.foldl (fun n c => n * radix + (digitValue c).getD 0) 0

/-- A sign, and what follows it. -/
def splitSign : List UInt8 → Bool × List UInt8
  | 45 :: s => (true,s)
  | 43 :: s => (false,s)
  | s => (false,s)

/-- `0x` counts as a prefix in front of a digit. -/
def dropHexPrefix (radix : ℕ) : List UInt8 → List UInt8
  | 48 :: x :: d :: s =>
      if radix = 16 && (x = 120 || x = 88) && isDigit 16 d then d :: s else 48 :: x :: d :: s
  | s => s

/-- An `unsigned long`, saturated or negated. -/
def toULong (isNegative : Bool) (value : ℕ) : ℕ :=
  if 2 ^ 64 ≤ value then 2 ^ 64 - 1
  else if isNegative then (2 ^ 64 - value) % 2 ^ 64
  else value

/-- The value and the text behind the number, the whole text if there is no number. -/
def strtoul (s : List UInt8) (radix : ℕ) : ℕ × List UInt8 :=
  let (isNegative,rest) := splitSign (s.dropWhile isSpace)
  let rest := dropHexPrefix radix rest
  let digits := rest.takeWhile (isDigit radix)
  if digits.isEmpty then (0,s)
  else (toULong isNegative (valueOf radix digits),rest.dropWhile (isDigit radix))

inductive State where
  | sep
  | byte (byteBuffer : List UInt8)
  deriving DecidableEq,Repr

/-- The byte, if the parser takes the whole buffer. -/
def decodeByte (radix : Radix) (byteBuffer : List UInt8) : Option UInt8 :=
  let (x,byteEnd) := strtoul byteBuffer radix.toNat
  if byteEnd.isEmpty then some (UInt8.ofNat x) else none

def decodeLoop (radix : Radix) : List UInt8 → State → List UInt8 → List UInt8 × State
  | buffer, state, [] => (buffer,state)
  | buffer, .sep, c :: p =>
      if isByteStringSep c then decodeLoop radix buffer .sep p
      else decodeLoop radix buffer (.byte [c]) p
  | buffer, .byte byteBuffer, c :: p =>
      if !isByteStringSep c && decide ((byteBuffer ++ [c]).length < radix.maxByteLength) then
        decodeLoop radix buffer (.byte (byteBuffer ++ [c])) p
      else
        match decodeByte radix (if isByteStringSep c then byteBuffer else byteBuffer ++ [c]) with
        | some x => decodeLoop radix (buffer ++ [x]) .sep p
        | none => (buffer,.sep)

def decodeByteString (radix : Radix) (string : List UInt8) : List UInt8 :=
  match decodeLoop radix [] .sep string with
  | (buffer,.sep) => buffer
  | (buffer,.byte byteBuffer) =>
      match decodeByte radix byteBuffer with
      | some x => buffer ++ [x]
      | none => buffer

/-- The digits of one byte in full or with fewer leading zeros. -/
structure Digits (radix : Radix) (digits : List UInt8) (b : UInt8) : Prop where
  nonempty : digits ≠ []
  length_le : digits.length ≤ radix.maxByteLength
  digit : ∀ c ∈ digits, isDigit radix.toNat c = true
  value : valueOf radix.toNat digits = b.toNat

/-- A text that writes a sequence of bytes. A byte that no separator follows has its full width,
unless it is the last one. -/
inductive Writes (radix : Radix) : List UInt8 → List UInt8 → Prop
  | done {seps : List UInt8} (hseps : ∀ c ∈ seps, isByteStringSep c = true) : Writes radix seps []
  | byte {seps digits text bytes : List UInt8} {b : UInt8}
      (hseps : ∀ c ∈ seps, isByteStringSep c = true) (hdigits : Digits radix digits b)
      (hend : digits.length = radix.maxByteLength ∨ text = [] ∨
        ∃ c rest, text = c :: rest ∧ isByteStringSep c = true)
      (htext : Writes radix text bytes) : Writes radix (seps ++ digits ++ text) (b :: bytes)

/-- The text without its separators, cut into pieces of at most the full width. -/
def groups (radix : Radix) : List UInt8 → List UInt8 → List (List UInt8)
  | cur, [] => if cur.isEmpty then [] else [cur]
  | cur, c :: p =>
      if isByteStringSep c then
        if cur.isEmpty then groups radix [] p else cur :: groups radix [] p
      else if cur.length + 1 < radix.maxByteLength then groups radix (cur ++ [c]) p
      else (cur ++ [c]) :: groups radix [] p

def properByte (radix : Radix) (group : List UInt8) : Option UInt8 :=
  if group.all (isDigit radix.toNat) && decide (valueOf radix.toNat group ≤ 255) then
    some (UInt8.ofNat (valueOf radix.toNat group))
  else none

def writtenBytes (radix : Radix) : List (List UInt8) → List UInt8
  | [] => []
  | group :: rest =>
      match properByte radix group with
      | some b => b :: writtenBytes radix rest
      | none => []

/-- Digits of the radix, perhaps behind white space and a sign. -/
def LooksLikeNumber (radix : Radix) (group : List UInt8) : Prop :=
  (splitSign (group.dropWhile isSpace)).2 ≠ [] ∧
    ∀ c ∈ (splitSign (group.dropWhile isSpace)).2, isDigit radix.toNat c = true

/-- The first piece that writes no byte, if there is one, does not look like a number either. -/
def NoLenientGroup (radix : Radix) : List (List UInt8) → Prop
  | [] => True
  | group :: rest =>
      match properByte radix group with
      | some _ => NoLenientGroup radix rest
      | none => ¬ LooksLikeNumber radix group

variable {radix : Radix} {group : List UInt8}

theorem dropHexPrefix_eq (h : radix = .hex → group.length ≤ 2) :
    dropHexPrefix radix.toNat group = group := by
  unfold dropHexPrefix
  split
  · rename_i x d s
    split
    · rename_i hpre
      have hhex : radix = .hex := by
        cases radix with
        | hex => rfl
        | _ => exact absurd hpre (by simp [Radix.toNat])
      have hlength := h hhex
      simp at hlength
    · rfl
  · rfl

theorem length_splitSign (s : List UInt8) : (splitSign s).2.length ≤ s.length := by
  unfold splitSign
  split
  · exact Nat.le_succ _
  · exact Nat.le_succ _
  · exact Nat.le_refl _

theorem decodeByte_isSome (hlength : group.length ≤ radix.maxByteLength) (hne : group ≠ []) :
    (decodeByte radix group).isSome = true ↔ LooksLikeNumber radix group := by
  have hshort : radix = .hex → (splitSign (group.dropWhile isSpace)).2.length ≤ 2 := by
    rintro rfl
    have hle := length_splitSign (group.dropWhile isSpace)
    have hdrop := (List.dropWhile_sublist isSpace (l := group)).length_le
    have htwo : group.length ≤ 2 := hlength
    omega
  unfold decodeByte strtoul LooksLikeNumber
  dsimp only
  rw [dropHexPrefix_eq hshort]
  generalize (splitSign (group.dropWhile isSpace)).2 = rest
  cases hdigits : (rest.takeWhile (isDigit radix.toNat)).isEmpty with
  | true =>
    rw [if_pos rfl,if_neg (by simpa using hne)]
    refine iff_of_false Bool.false_ne_true ?_
    rintro ⟨hrest,hall⟩
    rw [List.takeWhile_eq_self_iff.mpr hall,List.isEmpty_iff] at hdigits
    exact hrest hdigits
  | false =>
    rw [if_neg Bool.false_ne_true]
    have hrest : rest ≠ [] := by
      rintro rfl
      exact Bool.false_ne_true hdigits.symm
    have hall : (rest.dropWhile (isDigit radix.toNat)).isEmpty = true ↔
        ∀ c ∈ rest, isDigit radix.toNat c = true := by
      rw [List.isEmpty_iff,List.dropWhile_eq_nil_iff]
    dsimp only
    split
    · rename_i hend
      exact iff_of_true rfl ⟨hrest,hall.mp hend⟩
    · rename_i hend
      exact iff_of_false Bool.false_ne_true fun h => hend (hall.mpr h.2)

variable {c : UInt8}

theorem digitValue_some (h : (digitValue c).isSome = true) :
    isByteStringSep c = false ∧ isSpace c = false ∧ c ≠ 45 ∧ c ≠ 43 := by
  have hall : ∀ n < 256, (digitValue (UInt8.ofNat n)).isSome = true →
      isByteStringSep (UInt8.ofNat n) = false ∧ isSpace (UInt8.ofNat n) = false ∧
        UInt8.ofNat n ≠ 45 ∧ UInt8.ofNat n ≠ 43 := by
    decide +kernel
  have hc := hall c.toNat c.toNat_lt
  rw [UInt8.ofNat_toNat] at hc
  exact hc h

theorem digitValue_of_isDigit {radix : ℕ} (h : isDigit radix c = true) :
    (digitValue c).isSome = true := by
  unfold isDigit at h
  split at h
  · rename_i hd
    rw [hd]
    rfl
  · cases h

theorem decodeByte_proper {b : UInt8} (hlength : group.length ≤ radix.maxByteLength)
    (hne : group ≠ []) (h : properByte radix group = some b) : decodeByte radix group = some b := by
  unfold properByte at h
  split at h
  · rename_i hproper
    rw [Bool.and_eq_true,List.all_eq_true,decide_eq_true_iff] at hproper
    obtain ⟨hall,hvalue⟩ := hproper
    obtain ⟨c,rest,rfl⟩ := List.exists_cons_of_ne_nil hne
    obtain ⟨-,hspace,hminus,hplus⟩ :=
      digitValue_some (digitValue_of_isDigit (hall c List.mem_cons_self))
    have hdrop : (c :: rest).dropWhile isSpace = c :: rest := by
      rw [List.dropWhile_cons,hspace]
      rfl
    have hsign : splitSign (c :: rest) = (false,c :: rest) := by
      unfold splitSign
      split
      · rename_i heq
        exact absurd (List.cons_eq_cons.mp heq).1 hminus
      · rename_i heq
        exact absurd (List.cons_eq_cons.mp heq).1 hplus
      · rfl
    have hpre : dropHexPrefix radix.toNat (c :: rest) = c :: rest := by
      refine dropHexPrefix_eq ?_
      rintro rfl
      exact hlength
    have htake : (c :: rest).takeWhile (isDigit radix.toNat) = c :: rest :=
      List.takeWhile_eq_self_iff.mpr hall
    have hend : (c :: rest).dropWhile (isDigit radix.toNat) = [] :=
      List.dropWhile_eq_nil_iff.mpr hall
    have hvalue : toULong false (valueOf radix.toNat (c :: rest)) =
        valueOf radix.toNat (c :: rest) := by
      unfold toULong
      rw [if_neg (by omega)]
      rfl
    unfold decodeByte strtoul
    simp only [hdrop,hsign,hpre,htake,hend,List.isEmpty_cons,hvalue]
    exact h
  · cases h

/-- The bytes of the pieces up to the first one the parser does not take. -/
def decodeGroups (radix : Radix) : List (List UInt8) → List UInt8
  | [] => []
  | group :: rest =>
      match decodeByte radix group with
      | some b => b :: decodeGroups radix rest
      | none => []

def State.pending : State → List UInt8
  | .sep => []
  | .byte byteBuffer => byteBuffer

def State.Partial (radix : Radix) : State → Prop
  | .sep => True
  | .byte byteBuffer => byteBuffer ≠ [] ∧ byteBuffer.length < radix.maxByteLength

theorem one_lt_maxByteLength (radix : Radix) : 1 < radix.maxByteLength := by
  cases radix <;> decide

/-- The end of the decoder. -/
def finish (radix : Radix) : List UInt8 × State → List UInt8
  | (buffer,.sep) => buffer
  | (buffer,.byte byteBuffer) =>
      match decodeByte radix byteBuffer with
      | some x => buffer ++ [x]
      | none => buffer

theorem decodeByteString_eq_finish (string : List UInt8) :
    decodeByteString radix string = finish radix (decodeLoop radix [] .sep string) := rfl

theorem decodeGroups_cons (group : List UInt8) (rest : List (List UInt8)) :
    decodeGroups radix (group :: rest) =
      ((decodeByte radix group).map fun b => b :: decodeGroups radix rest).getD [] := by
  rw [decodeGroups]
  cases decodeByte radix group <;> rfl

theorem finish_byte (buffer byteBuffer : List UInt8) :
    finish radix (buffer,.byte byteBuffer) = buffer ++ decodeGroups radix [byteBuffer] := by
  rw [decodeGroups_cons,finish]
  cases decodeByte radix byteBuffer with
  | none => exact (List.append_nil buffer).symm
  | some x => rfl

/-- The loop decodes the pieces one after the other. -/
theorem finish_decodeLoop (text : List UInt8) :
    ∀ (buffer : List UInt8) (state : State), state.Partial radix →
      finish radix (decodeLoop radix buffer state text) =
        buffer ++ decodeGroups radix (groups radix state.pending text) := by
  induction text with
  | nil =>
    intro buffer state hstate
    cases state with
    | sep => exact (List.append_nil buffer).symm
    | byte byteBuffer =>
      rw [decodeLoop,State.pending,groups,if_neg (by simpa using hstate.1),finish_byte]
  | cons c p ih =>
    intro buffer state hstate
    cases state with
    | sep =>
      rw [decodeLoop,State.pending,groups]
      cases hc : isByteStringSep c with
      | true =>
        rw [if_pos rfl,if_pos rfl]
        exact ih buffer .sep trivial
      | false =>
        have hone := one_lt_maxByteLength radix
        rw [if_neg Bool.false_ne_true,if_neg Bool.false_ne_true,if_pos (by simpa using hone)]
        exact ih buffer (.byte [c]) ⟨List.cons_ne_nil c [],hone⟩
    | byte byteBuffer =>
      have hstop : ∀ group, finish radix
          (match decodeByte radix group with
            | some x => decodeLoop radix (buffer ++ [x]) .sep p
            | none => (buffer,.sep)) =
          buffer ++ decodeGroups radix (group :: groups radix [] p) := by
        intro group
        rw [decodeGroups_cons]
        cases decodeByte radix group with
        | none => exact (List.append_nil buffer).symm
        | some x =>
          have hrest := ih (buffer ++ [x]) .sep trivial
          rw [List.append_assoc] at hrest
          exact hrest
      rw [decodeLoop,State.pending,groups]
      cases hc : isByteStringSep c with
      | true =>
        rw [if_neg (by simp),if_pos rfl,if_pos rfl,if_neg (by simpa using hstate.1)]
        exact hstop byteBuffer
      | false =>
        rw [if_neg Bool.false_ne_true]
        by_cases hlength : byteBuffer.length + 1 < radix.maxByteLength
        · rw [if_pos (by simpa using hlength),if_pos hlength]
          refine ih buffer (.byte (byteBuffer ++ [c])) ⟨by simp,?_⟩
          simpa using hlength
        · rw [if_neg (by simpa using hlength),if_neg hlength,if_neg Bool.false_ne_true]
          exact hstop (byteBuffer ++ [c])

theorem decodeByteString_eq_decodeGroups (text : List UInt8) :
    decodeByteString radix text = decodeGroups radix (groups radix [] text) := by
  rw [decodeByteString_eq_finish,finish_decodeLoop text [] .sep trivial]
  rfl

theorem mem_groups (text : List UInt8) : ∀ cur : List UInt8, cur.length < radix.maxByteLength →
    ∀ group ∈ groups radix cur text, group ≠ [] ∧ group.length ≤ radix.maxByteLength := by
  have hempty : ([] : List UInt8).length < radix.maxByteLength :=
    (Nat.zero_lt_one).trans (one_lt_maxByteLength radix)
  induction text with
  | nil =>
    intro cur hcur group hgroup
    rw [groups] at hgroup
    split at hgroup
    · cases hgroup
    · rename_i hne
      rw [List.mem_singleton] at hgroup
      subst hgroup
      exact ⟨by simpa using hne,hcur.le⟩
  | cons c p ih =>
    intro cur hcur group hgroup
    rw [groups] at hgroup
    split at hgroup
    · split at hgroup
      · exact ih [] hempty group hgroup
      · rename_i hne
        obtain rfl | hmem := List.mem_cons.mp hgroup
        · exact ⟨by simpa using hne,hcur.le⟩
        · exact ih [] hempty group hmem
    · split at hgroup
      · rename_i hlength
        exact ih (cur ++ [c]) (by simpa using hlength) group hgroup
      · obtain rfl | hmem := List.mem_cons.mp hgroup
        · refine ⟨by simp,?_⟩
          rw [List.length_append,List.length_singleton]
          exact hcur
        · exact ih [] hempty group hmem

theorem isByteStringSep_of_isDigit {radix : ℕ} (h : isDigit radix c = true) :
    isByteStringSep c = false :=
  (digitValue_some (digitValue_of_isDigit h)).1

theorem groups_sep (hc : isByteStringSep c = true) (text : List UInt8) :
    groups radix [] (c :: text) = groups radix [] text := by
  rw [groups,if_pos hc]
  rfl

theorem groups_seps {seps : List UInt8} (hseps : ∀ c ∈ seps, isByteStringSep c = true)
    (text : List UInt8) : groups radix [] (seps ++ text) = groups radix [] text := by
  induction seps with
  | nil => rfl
  | cons c seps ih =>
    rw [List.cons_append,groups_sep (hseps c List.mem_cons_self)]
    exact ih fun d hd => hseps d (List.mem_cons_of_mem c hd)

theorem groups_digits {digits text : List UInt8}
    (hdigits : ∀ c ∈ digits, isDigit radix.toNat c = true) :
    ∀ cur : List UInt8, cur ++ digits ≠ [] → cur.length < radix.maxByteLength →
      (cur ++ digits).length ≤ radix.maxByteLength →
      ((cur ++ digits).length = radix.maxByteLength ∨ text = [] ∨
        ∃ c rest, text = c :: rest ∧ isByteStringSep c = true) →
      groups radix cur (digits ++ text) = (cur ++ digits) :: groups radix [] text := by
  induction digits with
  | nil =>
    intro cur hne hcur _ hend
    rw [List.append_nil] at hne hend
    have hempty : ¬cur.isEmpty = true := by simpa using hne
    rw [List.append_nil,List.nil_append]
    obtain hfull | rfl | ⟨c,rest,rfl,hc⟩ := hend
    · omega
    · rw [groups,if_neg hempty]
      rfl
    · rw [groups_sep hc,groups,if_pos hc,if_neg hempty]
  | cons d digits ih =>
    intro cur _ _ hlength hend
    have hd : isByteStringSep d = false :=
      isByteStringSep_of_isDigit (hdigits d List.mem_cons_self)
    have happend : cur ++ d :: digits = cur ++ [d] ++ digits := by simp
    rw [happend] at hlength hend ⊢
    rw [List.cons_append,groups,if_neg (by simp [hd])]
    by_cases hmore : cur.length + 1 < radix.maxByteLength
    · rw [if_pos hmore]
      refine ih (fun c hc => hdigits c (List.mem_cons_of_mem d hc)) (cur ++ [d]) (by simp) ?_
        hlength hend
      rw [List.length_append,List.length_singleton]
      exact hmore
    · -- the width is used up
      have hnil : digits = [] := by
        rw [List.length_append,List.length_append,List.length_singleton] at hlength
        exact List.length_eq_zero_iff.mp (by omega)
      rw [if_neg hmore,hnil]
      simp

theorem Digits.properByte_eq {digits : List UInt8} {b : UInt8} (h : Digits radix digits b) :
    properByte radix digits = some b := by
  have hall : digits.all (isDigit radix.toNat) = true := List.all_eq_true.mpr h.digit
  have hle : b.toNat ≤ 255 := Nat.le_of_lt_succ b.toNat_lt
  rw [properByte,hall,h.value,Bool.true_and,if_pos (decide_eq_true hle),UInt8.ofNat_toNat]

theorem digits_of_properByte {b : UInt8} (hne : group ≠ [])
    (hlength : group.length ≤ radix.maxByteLength) (h : properByte radix group = some b) :
    Digits radix group b := by
  unfold properByte at h
  split at h
  · rename_i hproper
    rw [Bool.and_eq_true,List.all_eq_true,decide_eq_true_iff] at hproper
    refine ⟨hne,hlength,hproper.1,?_⟩
    rw [← Option.some.inj h,UInt8.toNat_ofNat']
    omega
  · cases h

variable {text bytes : List UInt8}

theorem Writes.sep (hc : isByteStringSep c = true) (h : Writes radix text bytes) :
    Writes radix (c :: text) bytes := by
  cases h with
  | done hseps => exact .done (List.forall_mem_cons.mpr ⟨hc,hseps⟩)
  | @byte seps _ _ _ _ hseps hdigits hend htext =>
    exact Writes.byte (List.forall_mem_cons.mpr ⟨hc,hseps⟩) hdigits hend htext

theorem Writes.groups_proper (h : Writes radix text bytes) :
    (∀ group ∈ groups radix [] text, (properByte radix group).isSome = true) ∧
      writtenBytes radix (groups radix [] text) = bytes := by
  induction h with
  | @done seps hseps =>
    have hnil := @groups_seps radix _ hseps []
    rw [List.append_nil] at hnil
    rw [hnil]
    exact ⟨fun group hgroup => absurd hgroup List.not_mem_nil,rfl⟩
  | @byte seps digits text bytes b hseps hdigits hend htext ih =>
    have hpiece := @groups_digits radix digits text hdigits.digit []
      hdigits.nonempty (Nat.zero_lt_one.trans (one_lt_maxByteLength radix)) hdigits.length_le hend
    rw [List.append_assoc,groups_seps hseps,hpiece,List.nil_append]
    have hproper := hdigits.properByte_eq
    refine ⟨List.forall_mem_cons.mpr ⟨by rw [hproper]; rfl,ih.1⟩,?_⟩
    rw [writtenBytes,hproper,ih.2]

theorem writes_of_groups (text : List UInt8) :
    ∀ cur : List UInt8, cur.length < radix.maxByteLength →
      (∀ group ∈ groups radix cur text, (properByte radix group).isSome = true) →
      Writes radix (cur ++ text) (writtenBytes radix (groups radix cur text)) := by
  -- one more piece in front of a text that writes its own bytes
  have hcons : ∀ {group rest : List UInt8} {pieces : List (List UInt8)}, group ≠ [] →
      group.length ≤ radix.maxByteLength →
      (group.length = radix.maxByteLength ∨ rest = [] ∨
        ∃ c p, rest = c :: p ∧ isByteStringSep c = true) →
      (properByte radix group).isSome = true → Writes radix rest (writtenBytes radix pieces) →
      Writes radix (group ++ rest) (writtenBytes radix (group :: pieces)) := by
    intro group rest pieces hne hlength hend hproper hrest
    obtain ⟨b,hb⟩ := Option.isSome_iff_exists.mp hproper
    rw [writtenBytes,hb]
    exact @Writes.byte radix [] _ _ _ _ (fun c hc => absurd hc List.not_mem_nil)
      (digits_of_properByte hne hlength hb) hend hrest
  have hzero : ([] : List UInt8).length < radix.maxByteLength :=
    Nat.zero_lt_one.trans (one_lt_maxByteLength radix)
  induction text with
  | nil =>
    intro cur hcur hall
    rw [groups] at hall ⊢
    split
    · rename_i hempty
      rw [List.isEmpty_iff.mp hempty]
      exact .done fun c hc => absurd hc List.not_mem_nil
    · rename_i hne
      rw [if_neg hne] at hall
      exact hcons (by simpa using hne) hcur.le (.inr (.inl rfl)) (hall cur List.mem_cons_self)
        (.done fun c hc => absurd hc List.not_mem_nil)
  | cons c p ih =>
    intro cur hcur hall
    rw [groups] at hall ⊢
    by_cases hc : isByteStringSep c = true
    · rw [if_pos hc] at hall ⊢
      by_cases hempty : cur.isEmpty = true
      · rw [if_pos hempty] at hall ⊢
        rw [List.isEmpty_iff.mp hempty]
        exact (ih [] hzero hall).sep hc
      · rw [if_neg hempty] at hall ⊢
        obtain ⟨hfirst,hrest⟩ := List.forall_mem_cons.mp hall
        exact hcons (by simpa using hempty) hcur.le (.inr (.inr ⟨c,p,rfl,hc⟩)) hfirst
          ((ih [] hzero hrest).sep hc)
    · rw [if_neg hc] at hall ⊢
      have happend : cur ++ c :: p = cur ++ [c] ++ p := by simp
      by_cases hmore : cur.length + 1 < radix.maxByteLength
      · rw [if_pos hmore] at hall ⊢
        rw [happend]
        refine ih (cur ++ [c]) ?_ hall
        rw [List.length_append,List.length_singleton]
        exact hmore
      · rw [if_neg hmore] at hall ⊢
        obtain ⟨hfirst,hrest⟩ := List.forall_mem_cons.mp hall
        have hfull : (cur ++ [c]).length = radix.maxByteLength := by
          rw [List.length_append,List.length_singleton]
          omega
        rw [happend]
        exact hcons (by simp) hfull.le (.inl hfull) hfirst (ih [] hzero hrest)

theorem writes_iff :
    Writes radix text bytes ↔
      (∀ group ∈ groups radix [] text, (properByte radix group).isSome = true) ∧
        writtenBytes radix (groups radix [] text) = bytes := by
  constructor
  · exact Writes.groups_proper
  · rintro ⟨hall,rfl⟩
    exact writes_of_groups text [] (Nat.zero_lt_one.trans (one_lt_maxByteLength radix)) hall

theorem decodeGroups_eq_iff {pieces : List (List UInt8)}
    (hpieces : ∀ group ∈ pieces, group ≠ [] ∧ group.length ≤ radix.maxByteLength) :
    decodeGroups radix pieces = writtenBytes radix pieces ↔ NoLenientGroup radix pieces := by
  induction pieces with
  | nil => exact iff_of_true rfl trivial
  | cons group rest ih =>
    obtain ⟨⟨hne,hlength⟩,hrest⟩ := List.forall_mem_cons.mp hpieces
    rw [decodeGroups,writtenBytes,NoLenientGroup]
    cases hproper : properByte radix group with
    | some b =>
      rw [decodeByte_proper hlength hne hproper]
      dsimp only
      rw [List.cons_inj_right]
      exact ih hrest
    | none =>
      rw [← decodeByte_isSome hlength hne]
      cases hbyte : decodeByte radix group with
      | some x => exact iff_of_false (List.cons_ne_nil _ _) fun h => h rfl
      | none => exact iff_of_true rfl Bool.false_ne_true

theorem noLenientGroup_of_proper {pieces : List (List UInt8)}
    (h : ∀ group ∈ pieces, (properByte radix group).isSome = true) :
    NoLenientGroup radix pieces := by
  induction pieces with
  | nil => trivial
  | cons group rest ih =>
    obtain ⟨hfirst,hrest⟩ := List.forall_mem_cons.mp h
    obtain ⟨b,hb⟩ := Option.isSome_iff_exists.mp hfirst
    rw [NoLenientGroup,hb]
    exact ih hrest

/-- The bytes that a text writes are decoded. Any text yields the bytes in front of its first
improper piece if and only if this piece does not look like a number. -/
theorem decodeByteString_iff (radix : Radix) (text : List UInt8) :
    (∀ bytes, Writes radix text bytes → decodeByteString radix text = bytes) ∧
      (decodeByteString radix text = writtenBytes radix (groups radix [] text) ↔
        NoLenientGroup radix (groups radix [] text)) := by
  have hpieces := @mem_groups radix text []
    (Nat.zero_lt_one.trans (one_lt_maxByteLength radix))
  have hiff := decodeGroups_eq_iff hpieces
  rw [← decodeByteString_eq_decodeGroups] at hiff
  refine ⟨?_,hiff⟩
  intro bytes hbytes
  obtain ⟨hall,hwritten⟩ := writes_iff.mp hbytes
  exact (hiff.mpr (noLenientGroup_of_proper hall)).trans hwritten

/-- `300` writes no decimal bytes and is decoded to 44. -/
theorem overflow_decoded :
    (¬∃ bytes, Writes .dec [51,48,48] bytes) ∧
      writtenBytes .dec (groups .dec [] [51,48,48]) = [] ∧
      decodeByteString .dec [51,48,48] = [44] := by
  refine ⟨?_,by decide,by decide⟩
  rintro ⟨bytes,hbytes⟩
  have hall := (writes_iff.mp hbytes).1
  revert hall
  decide

end Jancy.Ct.ByteString
