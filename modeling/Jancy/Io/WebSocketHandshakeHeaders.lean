import Mathlib.Data.List.Induction
import Mathlib.Data.List.Nodup

/-! The headers of a handshake, a list of values under each name. The first value is stored apart
from the extra ones. -/
namespace Jancy.Io

namespace WebSocketHandshakeHeaders

abbrev Text := List Char

/-- A string of the language. `none` is the null string. -/
abbrev JncString := Option Text

/-- `>> toAxl` -/
def toAxl (s : JncString) : Text := s.getD []

structure DualString where
  axl : Text := []
  jnc : JncString := none
  deriving DecidableEq,Repr

namespace DualString

def isEmpty (s : DualString) : Bool := s.axl.isEmpty

/-- A string that only the native side has is allocated. -/
def getString (s : DualString) : JncString :=
  if !(toAxl s.jnc).isEmpty || s.axl.isEmpty then s.jnc else some s.axl

/-- The characters up to the first null character. -/
def sz (s : DualString) : Text := s.axl.takeWhile (· ≠ '\x00')

end DualString

structure WebSocketHandshakeHeader where
  name : DualString := {}
  firstValue : DualString := {}
  extraValueArray : List DualString := []
  deriving DecidableEq,Repr

def WebSocketHandshakeHeader.add (header : WebSocketHandshakeHeader) (valueAxl : Text)
    (valueJnc : JncString) : WebSocketHandshakeHeader :=
  if header.firstValue.isEmpty then { header with firstValue := ⟨valueAxl,valueJnc⟩ }
  else { header with extraValueArray := header.extraValueArray ++ [⟨valueAxl,valueJnc⟩] }

/-- The map finds the header of a name in the array. -/
structure Headers where
  headerArray : List WebSocketHandshakeHeader := []
  deriving DecidableEq,Repr

namespace Headers

variable (self : Headers)

def findName (name : Text) : Option ℕ :=
  self.headerArray.findIdx? fun header => header.name.axl = name

def addImpl (nameAxl : Text) (nameJnc : JncString) (valueAxl : Text) (valueJnc : JncString) :
    ℕ × Headers :=
  match self.findName nameAxl with
  | some nameIdx =>
      (nameIdx,⟨self.headerArray.modify nameIdx fun header => header.add valueAxl valueJnc⟩)
  | none =>
      let header : WebSocketHandshakeHeader := { name := ⟨nameAxl,nameJnc⟩ }
      (self.headerArray.length,⟨self.headerArray ++ [header.add valueAxl valueJnc]⟩)

def add (name value : JncString) : ℕ × Headers :=
  self.addImpl (toAxl name) name (toAxl value) value

def getValueCount (nameIdx : ℕ) : ℕ :=
  match self.headerArray[nameIdx]? with
  | some header => header.extraValueArray.length + 1
  | none => 0

/-- `none` is a read past the end of the array. -/
def getValue (nameIdx valueIdx : ℕ) : Option JncString :=
  match self.headerArray[nameIdx]? with
  | none => some none
  | some header =>
      if valueIdx > header.extraValueArray.length then some none
      else if valueIdx = 0 then some header.firstValue.getString
      else header.extraValueArray[valueIdx]?.map DualString.getString

/-- The lines of one header. -/
def formatHeader (delimiter eol : Text) (header : WebSocketHandshakeHeader) : List Text :=
  (header.name.sz ++ ": ".toList ++ header.firstValue.sz ++ "\r\n".toList) ::
    header.extraValueArray.map fun value => header.name.axl ++ delimiter ++ value.axl ++ eol

def formatLines (delimiter eol : Text) : List Text :=
  self.headerArray.flatMap (formatHeader delimiter eol)

def format (delimiter eol : JncString) : Text :=
  (self.formatLines (toAxl delimiter) (toAxl eol)).flatten

end Headers

/-- A sequence of calls of `add`. -/
def addAll (adds : List (JncString × JncString)) : Headers :=
  adds.foldl (fun self a => (self.add a.1 a.2).2) {}

section Added

variable (adds : List (JncString × JncString))

def distinctNames : List Text := (adds.map fun a => toAxl a.1).eraseDups

def values (name : Text) : List JncString :=
  (adds.filter fun a => toAxl a.1 = name).map Prod.snd

def valuesAt (i : ℕ) : List JncString :=
  match (distinctNames adds)[i]? with
  | some name => values adds name
  | none => []

/-- The value with an index, the null string if there is none. -/
def valueAt (vs : List JncString) (j : ℕ) : JncString := (vs[j]?).getD none

def expectedLines (delimiter eol : Text) : List Text :=
  (distinctNames adds).flatMap fun name =>
    (values adds name).map fun value => name ++ delimiter ++ toAxl value ++ eol

end Added

/-- The number of values at the start that a later one has overwritten. -/
def overwritten : List JncString → ℕ
  | v :: w :: vs => if (toAxl v).isEmpty then overwritten (w :: vs) + 1 else 0
  | _ => 0

/-- Where `getValue` is right about values added under one name. -/
def GetsValue (vs : List JncString) (j : ℕ) : Prop :=
  if j = 0 then valueAt vs (overwritten vs) = valueAt vs 0
  else if vs.length ≤ j + overwritten vs then valueAt vs j = none
  else j + overwritten vs + 1 < vs.length ∧ valueAt vs (j + overwritten vs + 1) = valueAt vs j

instance (vs : List JncString) (j : ℕ) : Decidable (GetsValue vs j) := by
  unfold GetsValue
  infer_instance

/-- Where the first line of a name has the delimiter and the end that were asked for. -/
def FormatsFirst (name delimiter eol : Text) (vs : List JncString) : Prop :=
  name ++ delimiter ++ toAxl (valueAt vs 0) ++ eol =
    (⟨name,none⟩ : DualString).sz ++ ": ".toList ++
      (⟨toAxl (valueAt vs 0),none⟩ : DualString).sz ++ "\r\n".toList

def dual (v : JncString) : DualString := ⟨toAxl v,v⟩

theorem dual_getString (v : JncString) : (dual v).getString = v := by
  unfold DualString.getString dual
  cases hv : (toAxl v).isEmpty <;> simp

structure Holds (header : WebSocketHandshakeHeader) (vs : List JncString) : Prop where
  added : vs ≠ []
  first : header.firstValue = dual (valueAt vs (overwritten vs))
  extra : header.extraValueArray = (vs.drop (overwritten vs + 1)).map dual

theorem overwritten_lt {vs : List JncString} (h : vs ≠ []) : overwritten vs < vs.length := by
  induction vs with
  | nil => exact absurd rfl h
  | cons v vs ih =>
    cases vs with
    | nil => exact Nat.zero_lt_one
    | cons w vs =>
      have hrest := ih (List.cons_ne_nil w vs)
      unfold overwritten
      split
      · exact Nat.succ_lt_succ hrest
      · exact Nat.succ_pos _

theorem overwritten_append (v : JncString) {vs : List JncString} (h : vs ≠ []) :
    overwritten (vs ++ [v]) =
      if (toAxl (valueAt vs (overwritten vs))).isEmpty then vs.length else overwritten vs := by
  induction vs with
  | nil => exact absurd rfl h
  | cons u vs ih =>
    cases vs with
    | nil =>
      show (if (toAxl u).isEmpty then overwritten [v] + 1 else 0) = _
      cases hu : (toAxl u).isEmpty with
      | true => simp [overwritten,valueAt,hu]
      | false => simp [overwritten,valueAt,hu]
    | cons w vs =>
      have hrest := ih (List.cons_ne_nil w vs)
      show (if (toAxl u).isEmpty then overwritten (w :: vs ++ [v]) + 1 else 0) = _
      have hown : overwritten (u :: w :: vs) =
        if (toAxl u).isEmpty then overwritten (w :: vs) + 1 else 0 := rfl
      cases hu : (toAxl u).isEmpty with
      | true =>
        rw [hown,hu,if_pos rfl,if_pos rfl,hrest]
        have hat : valueAt (u :: w :: vs) (overwritten (w :: vs) + 1) =
          valueAt (w :: vs) (overwritten (w :: vs)) := rfl
        rw [hat]
        split <;> rfl
      | false =>
        have hat : valueAt (u :: w :: vs) 0 = u := rfl
        rw [hown,hu]
        simp [hat,hu]

theorem overwritten_last {vs : List JncString} (h : vs ≠ [])
    (hempty : (toAxl (valueAt vs (overwritten vs))).isEmpty) : overwritten vs + 1 = vs.length := by
  induction vs with
  | nil => exact absurd rfl h
  | cons u vs ih =>
    cases vs with
    | nil => rfl
    | cons w vs =>
      have hown : overwritten (u :: w :: vs) =
        if (toAxl u).isEmpty then overwritten (w :: vs) + 1 else 0 := rfl
      cases hu : (toAxl u).isEmpty with
      | true =>
        rw [hown,hu,if_pos rfl] at hempty ⊢
        exact congrArg (· + 1) (ih (List.cons_ne_nil w vs) hempty)
      | false =>
        rw [hown,hu] at hempty
        exact absurd (hu.symm.trans hempty) Bool.false_ne_true

theorem holds_new (name : DualString) (value : JncString) :
    Holds (({ name } : WebSocketHandshakeHeader).add (toAxl value) value) [value] :=
  ⟨List.cons_ne_nil _ _,rfl,rfl⟩

theorem Holds.add {header : WebSocketHandshakeHeader} {vs : List JncString} (h : Holds header vs)
    (value : JncString) : Holds (header.add (toAxl value) value) (vs ++ [value]) := by
  have hover := overwritten_append value h.added
  have hlt := overwritten_lt h.added
  have hempty : header.firstValue.isEmpty = (toAxl (valueAt vs (overwritten vs))).isEmpty := by
    rw [h.first]
    rfl
  unfold WebSocketHandshakeHeader.add
  cases hfirst : header.firstValue.isEmpty with
  | true =>
    rw [← hempty,hfirst,if_pos rfl] at hover
    have hextra := overwritten_last h.added (hempty.symm.trans hfirst)
    refine ⟨by simp,?_,?_⟩
    · rw [hover]
      simp [valueAt,dual]
    · rw [hover]
      simp [h.extra,hextra]
  | false =>
    rw [← hempty,hfirst,if_neg Bool.false_ne_true] at hover
    refine ⟨by simp,?_,?_⟩
    · show header.firstValue = _
      rw [hover,h.first,valueAt,valueAt,List.getElem?_append_left hlt]
    · show header.extraValueArray ++ _ = _
      rw [hover,h.extra,List.drop_append_of_le_length hlt,List.map_append]
      rfl

structure Represents (headers : Headers) (adds : List (JncString × JncString)) : Prop where
  names : headers.headerArray.map (fun header => header.name.axl) = distinctNames adds
  holds : ∀ header ∈ headers.headerArray, Holds header (values adds header.name.axl)

theorem mem_distinctNames {adds : List (JncString × JncString)} {name : Text} :
    name ∈ distinctNames adds ↔ ∃ a ∈ adds, toAxl a.1 = name := by
  rw [distinctNames,List.mem_eraseDups,List.mem_map]

theorem distinctNames_append (adds : List (JncString × JncString)) (name value : JncString) :
    distinctNames (adds ++ [(name,value)]) =
      if toAxl name ∈ distinctNames adds then distinctNames adds
      else distinctNames adds ++ [toAxl name] := by
  have hmem : toAxl name ∈ distinctNames adds ↔ toAxl name ∈ adds.map fun a => toAxl a.1 :=
    List.mem_eraseDups
  unfold distinctNames at hmem ⊢
  rw [List.map_append,List.eraseDups_append]
  split
  · rename_i hold
    simp [List.cons_removeAll,hmem.mp hold]
  · rename_i hnew
    have hmap : toAxl name ∉ adds.map fun a => toAxl a.1 := fun h => hnew (hmem.mpr h)
    simp only [List.map_cons,List.map_nil,List.cons_removeAll,List.contains_eq_mem,hmap]
    rfl

theorem nodup_distinctNames (adds : List (JncString × JncString)) : (distinctNames adds).Nodup := by
  induction adds using List.reverseRecOn with
  | nil => exact List.nodup_nil
  | append_singleton adds a ih =>
    rw [distinctNames_append]
    split
    · exact ih
    · rename_i hnew
      rw [List.nodup_append]
      refine ⟨ih,List.nodup_singleton _,fun n hn m hm heq => hnew ?_⟩
      rw [← List.mem_singleton.mp hm,← heq]
      exact hn

theorem values_append (adds : List (JncString × JncString)) (name value : JncString) (n : Text) :
    values (adds ++ [(name,value)]) n =
      if toAxl name = n then values adds n ++ [value] else values adds n := by
  unfold values
  rw [List.filter_append,List.map_append]
  split
  · rename_i h
    simp [h]
  · rename_i h
    simp [h]

theorem values_of_not_mem {adds : List (JncString × JncString)} {n : Text}
    (h : n ∉ distinctNames adds) : values adds n = [] := by
  unfold values
  rw [List.map_eq_nil_iff,List.filter_eq_nil_iff]
  intro a ha heq
  exact h (mem_distinctNames.mpr ⟨a,ha,of_decide_eq_true heq⟩)

theorem represents_nil : Represents {} [] :=
  ⟨rfl,fun _ h => absurd h List.not_mem_nil⟩

theorem add_name (header : WebSocketHandshakeHeader) (valueAxl : Text) (valueJnc : JncString) :
    (header.add valueAxl valueJnc).name = header.name := by
  unfold WebSocketHandshakeHeader.add
  split <;> rfl

variable {headers : Headers} {adds : List (JncString × JncString)}

section

variable (h : Represents headers adds)

include h

theorem Represents.nodup :
    (headers.headerArray.map fun header => header.name.axl).Nodup := by
  rw [h.names]
  exact nodup_distinctNames adds

theorem Represents.add_old {name value : JncString} {nameIdx : ℕ}
    (hlt : nameIdx < headers.headerArray.length)
    (hname : headers.headerArray[nameIdx].name.axl = toAxl name) :
    Represents ⟨headers.headerArray.modify nameIdx fun header => header.add (toAxl value) value⟩
      (adds ++ [(name,value)]) := by
  have hmem : toAxl name ∈ distinctNames adds := by
    rw [← h.names,← hname]
    exact List.mem_map_of_mem (List.getElem_mem hlt)
  constructor
  · rw [distinctNames_append,if_pos hmem,← h.names]
    apply List.ext_getElem
    · simp
    · intro j hj hj'
      rw [List.getElem_map,List.getElem_map,List.getElem_modify]
      split
      · rename_i heq
        subst heq
        rw [add_name]
      · rfl
  · intro header hheader
    obtain ⟨j,hj,rfl⟩ := List.getElem_of_mem hheader
    have hj' : j < headers.headerArray.length := by simpa using hj
    have hold := h.holds _ (List.getElem_mem hj')
    rw [List.getElem_modify,values_append]
    split
    · rename_i heq
      subst heq
      rw [add_name,hname,if_pos rfl,← hname]
      exact hold.add value
    · rename_i hne
      have hother : toAxl name ≠ headers.headerArray[j].name.axl := by
        intro heq
        have hi : nameIdx < (headers.headerArray.map fun header => header.name.axl).length := by
          simpa using hlt
        have hk : j < (headers.headerArray.map fun header => header.name.axl).length := by
          simpa using hj'
        have hsame : (headers.headerArray.map fun header => header.name.axl)[nameIdx] =
            (headers.headerArray.map fun header => header.name.axl)[j] := by
          rw [List.getElem_map,List.getElem_map,hname,heq]
        exact hne ((List.Nodup.getElem_inj_iff h.nodup).mp hsame)
      rw [if_neg hother]
      exact hold

theorem Represents.add_new {name value : JncString}
    (hnew : ∀ header ∈ headers.headerArray, header.name.axl ≠ toAxl name) :
    Represents ⟨headers.headerArray ++
      [({ name := ⟨toAxl name,name⟩ } : WebSocketHandshakeHeader).add (toAxl value) value]⟩
      (adds ++ [(name,value)]) := by
  have hmem : toAxl name ∉ distinctNames adds := by
    rw [← h.names]
    intro hin
    obtain ⟨header,hheader,heq⟩ := List.mem_map.mp hin
    exact hnew header hheader heq
  constructor
  · rw [distinctNames_append,if_neg hmem,← h.names,List.map_append]
    rfl
  · intro header hheader
    rw [values_append]
    cases List.mem_append.mp hheader with
    | inl hold =>
      rw [if_neg fun heq => hnew header hold heq.symm]
      exact h.holds header hold
    | inr hlast =>
      rw [List.mem_singleton.mp hlast,add_name,if_pos rfl,values_of_not_mem hmem]
      exact holds_new _ value

theorem Represents.add (name value : JncString) :
    Represents (headers.add name value).2 (adds ++ [(name,value)]) := by
  unfold Headers.add Headers.addImpl
  split
  · rename_i nameIdx hfind
    obtain ⟨hlt,hname,-⟩ := List.findIdx?_eq_some_iff_getElem.mp hfind
    exact h.add_old hlt (of_decide_eq_true hname)
  · rename_i hfind
    refine h.add_new fun header hheader heq => ?_
    have hno := List.findIdx?_eq_none_iff.mp hfind header hheader
    exact absurd heq (of_decide_eq_false hno)

end

theorem represents_addAll (adds : List (JncString × JncString)) :
    Represents (addAll adds) adds := by
  induction adds using List.reverseRecOn with
  | nil => exact represents_nil
  | append_singleton adds a ih =>
    have hstep : addAll (adds ++ [a]) = ((addAll adds).add a.1 a.2).2 := by
      unfold addAll
      rw [List.foldl_append]
      rfl
    rw [hstep]
    exact ih.add a.1 a.2

theorem Represents.header_at (h : Represents headers adds) (i : ℕ) :
    (∃ header, headers.headerArray[i]? = some header ∧ Holds header (valuesAt adds i) ∧
      (distinctNames adds)[i]? = some header.name.axl) ∨
    (headers.headerArray[i]? = none ∧ valuesAt adds i = []) := by
  unfold valuesAt
  rw [← h.names,List.getElem?_map]
  cases hi : headers.headerArray[i]? with
  | none => exact Or.inr ⟨rfl,rfl⟩
  | some header => exact Or.inl ⟨header,rfl,h.holds header (List.mem_of_getElem? hi),rfl⟩

theorem Holds.length_extra {header : WebSocketHandshakeHeader} {vs : List JncString}
    (h : Holds header vs) :
    header.extraValueArray.length + (overwritten vs + 1) = vs.length := by
  have hlt := overwritten_lt h.added
  rw [h.extra,List.length_map,List.length_drop]
  omega

theorem Holds.getValue_iff {header : WebSocketHandshakeHeader} {vs : List JncString}
    (h : Holds header vs) (j : ℕ) :
    (if j > header.extraValueArray.length then some none
      else if j = 0 then some header.firstValue.getString
      else header.extraValueArray[j]?.map DualString.getString) = some (valueAt vs j) ↔
      GetsValue vs j := by
  have hlength := h.length_extra
  unfold GetsValue
  cases j with
  | zero =>
    rw [if_neg (Nat.not_lt_zero _),if_pos rfl,if_pos rfl,Option.some_inj,h.first,dual_getString]
  | succ j =>
    have hsucc : ¬ j + 1 = 0 := Nat.succ_ne_zero j
    by_cases hgt : j + 1 > header.extraValueArray.length
    · have hend : vs.length ≤ j + 1 + overwritten vs := by omega
      rw [if_pos hgt,if_neg hsucc,if_pos hend,Option.some_inj]
      exact eq_comm
    · have hend : ¬ vs.length ≤ j + 1 + overwritten vs := by omega
      rw [if_neg hgt,if_neg hsucc,if_neg hsucc,if_neg hend]
      have hat : header.extraValueArray[j + 1]? = (vs[j + 1 + overwritten vs + 1]?).map dual := by
        rw [h.extra,List.getElem?_map,List.getElem?_drop]
        congr 2
        omega
      rw [hat,Option.map_map]
      cases hv : vs[j + 1 + overwritten vs + 1]? with
      | none =>
        have hout := List.getElem?_eq_none_iff.mp hv
        simp only [Option.map_none,reduceCtorEq,false_iff]
        omega
      | some v =>
        have hin := (List.getElem?_eq_some_iff.mp hv).1
        have hvalue : valueAt vs (j + 1 + overwritten vs + 1) = v := by
          rw [valueAt,hv]
          rfl
        rw [Option.map_some,Function.comp_apply,dual_getString,Option.some_inj,hvalue]
        exact ⟨fun heq => ⟨hin,heq⟩,And.right⟩

theorem Represents.getValue_iff (h : Represents headers adds) (i j : ℕ) :
    headers.getValue i j = some (valueAt (valuesAt adds i) j) ↔ GetsValue (valuesAt adds i) j := by
  unfold Headers.getValue
  cases h.header_at i with
  | inl hat =>
    obtain ⟨header,hheader,hholds,-⟩ := hat
    rw [hheader]
    exact hholds.getValue_iff j
  | inr hout =>
    rw [hout.1,hout.2]
    have hnone : valueAt [] j = none := rfl
    refine iff_of_true rfl ?_
    unfold GetsValue
    split
    · rfl
    · have hend : ([] : List JncString).length ≤ j + overwritten [] := Nat.zero_le _
      rw [if_pos hend]
      exact hnone

theorem Represents.getValueCount_iff (h : Represents headers adds) (i : ℕ) :
    headers.getValueCount i = (valuesAt adds i).length ↔ overwritten (valuesAt adds i) = 0 := by
  unfold Headers.getValueCount
  cases h.header_at i with
  | inl hat =>
    obtain ⟨header,hheader,hholds,-⟩ := hat
    have hlength := hholds.length_extra
    rw [hheader]
    show header.extraValueArray.length + 1 = _ ↔ _
    omega
  | inr hout =>
    rw [hout.1,hout.2]
    exact iff_of_true rfl rfl

theorem Holds.length_format {header : WebSocketHandshakeHeader} {vs : List JncString}
    (h : Holds header vs) (delimiter eol : Text) :
    (Headers.formatHeader delimiter eol header).length + overwritten vs = vs.length := by
  have hlength := h.length_extra
  rw [Headers.formatHeader,List.length_cons,List.length_map]
  omega

theorem Holds.format_iff {header : WebSocketHandshakeHeader} {vs : List JncString}
    (h : Holds header vs) (delimiter eol : Text) :
    Headers.formatHeader delimiter eol header =
        vs.map (fun value => header.name.axl ++ delimiter ++ toAxl value ++ eol) ↔
      overwritten vs = 0 ∧ FormatsFirst header.name.axl delimiter eol vs := by
  have hlength := h.length_format delimiter eol
  constructor
  · intro heq
    have hzero : overwritten vs = 0 := by
      rw [heq,List.length_map] at hlength
      omega
    refine ⟨hzero,?_⟩
    have hfirst := h.first
    rw [hzero] at hfirst
    obtain ⟨v,vs',rfl⟩ := List.exists_cons_of_ne_nil h.added
    have hhead := (List.cons_eq_cons.mp heq).1
    rw [hfirst] at hhead
    exact hhead.symm
  · rintro ⟨hzero,hline⟩
    have hfirst := h.first
    have hextra := h.extra
    rw [hzero] at hfirst hextra
    obtain ⟨v,vs',rfl⟩ := List.exists_cons_of_ne_nil h.added
    rw [Headers.formatHeader,hfirst,hextra,List.map_cons,List.map_map]
    refine List.cons_eq_cons.mpr ⟨?_,rfl⟩
    exact hline.symm

theorem length_flatMap_le {α β : Type} {f g : α → List β} {l : List α}
    (h : ∀ a ∈ l, (f a).length ≤ (g a).length) : (l.flatMap f).length ≤ (l.flatMap g).length := by
  induction l with
  | nil => exact Nat.le_refl _
  | cons a l ih =>
    rw [List.flatMap_cons,List.flatMap_cons,List.length_append,List.length_append]
    exact Nat.add_le_add (h a List.mem_cons_self) (ih fun b hb => h b (List.mem_cons_of_mem a hb))

theorem flatMap_eq_iff {α β : Type} {f g : α → List β} {l : List α}
    (h : ∀ a ∈ l, (f a).length ≤ (g a).length) :
    l.flatMap f = l.flatMap g ↔ ∀ a ∈ l, f a = g a := by
  induction l with
  | nil => simp
  | cons a l ih =>
    have hrest := ih fun b hb => h b (List.mem_cons_of_mem a hb)
    rw [List.flatMap_cons,List.flatMap_cons,List.forall_mem_cons,← hrest]
    constructor
    · intro heq
      have hle := length_flatMap_le fun b hb => h b (List.mem_cons_of_mem a hb)
      have hsum := congrArg List.length heq
      rw [List.length_append,List.length_append] at hsum
      have hhead := h a List.mem_cons_self
      exact List.append_inj heq (by omega)
    · rintro ⟨hhead,htail⟩
      rw [hhead,htail]

theorem Represents.formatLines_iff (h : Represents headers adds) (delimiter eol : Text) :
    headers.formatLines delimiter eol = expectedLines adds delimiter eol ↔
      ∀ name ∈ distinctNames adds, overwritten (values adds name) = 0 ∧
        FormatsFirst name delimiter eol (values adds name) := by
  have hexpected : expectedLines adds delimiter eol = headers.headerArray.flatMap fun header =>
      (values adds header.name.axl).map fun value =>
        header.name.axl ++ delimiter ++ toAxl value ++ eol := by
    unfold expectedLines
    rw [← h.names,List.flatMap_map]
  rw [hexpected,Headers.formatLines,flatMap_eq_iff ?_,← h.names]
  · rw [List.forall_mem_map]
    refine forall_congr' fun header => forall_congr' fun hheader => ?_
    exact (h.holds header hheader).format_iff delimiter eol
  · intro header hheader
    have hlength := (h.holds header hheader).length_format delimiter eol
    rw [List.length_map]
    omega

/-- What is read, counted and formatted after any sequence of calls, and when it is what was
added. -/
theorem addAll_iff (adds : List (JncString × JncString)) :
    (∀ i j, (addAll adds).getValue i j = some (valueAt (valuesAt adds i) j) ↔
      GetsValue (valuesAt adds i) j) ∧
    (∀ i, (addAll adds).getValueCount i = (valuesAt adds i).length ↔
      overwritten (valuesAt adds i) = 0) ∧
    ∀ delimiter eol, (addAll adds).formatLines delimiter eol = expectedLines adds delimiter eol ↔
      ∀ name ∈ distinctNames adds, overwritten (values adds name) = 0 ∧
        FormatsFirst name delimiter eol (values adds name) := by
  have h := represents_addAll adds
  exact ⟨h.getValue_iff,h.getValueCount_iff,h.formatLines_iff⟩

def text (s : String) : JncString := some s.toList

/-- The second of two values is read past the end of the array, and an empty first value is lost. -/
theorem addAll_not_read_back :
    (addAll [(text "Via",text "a"),(text "Via",text "b")]).getValue 0 1 ≠
        some (valueAt (valuesAt [(text "Via",text "a"),(text "Via",text "b")] 0) 1) ∧
      (addAll [(text "Via",text ""),(text "Via",text "b")]).getValueCount 0 ≠
        (valuesAt [(text "Via",text ""),(text "Via",text "b")] 0).length ∧
      (addAll [(text "Via",text "a")]).formatLines ['='] [';'] ≠
        expectedLines [(text "Via",text "a")] ['='] [';'] := by
  decide

end WebSocketHandshakeHeaders
end Jancy.Io
