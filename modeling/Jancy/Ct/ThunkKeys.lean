import Jancy.Ct.ThunkCache
import Jancy.Ct.TypeSignatureReads

/-! What the printed key of a thunk tells of its request: all of it but the upper half of an
address. -/
namespace Jancy.Ct.Thunks

open Types

theorem digitChar_inj : ∀ a < 16, ∀ b < 16, Nat.digitChar a = Nat.digitChar b → a = b := by
  decide

theorem digitChar_ne_dot : ∀ a < 16, Nat.digitChar a ≠ '.' := by decide

theorem dot_notMem_toDigits (n : ℕ) : '.' ∉ Nat.toDigits 16 n := by
  induction n using Nat.strongRecOn with
  | _ n ih =>
    rcases Nat.lt_or_ge n 16 with hlt | hge
    · rw [Nat.toDigits_of_lt_base hlt,List.mem_singleton]
      exact (digitChar_ne_dot n hlt).symm
    · rw [Nat.toDigits_of_base_le (by decide) hge,List.mem_append,List.mem_singleton,not_or]
      exact ⟨ih _ (Nat.div_lt_self (by omega) (by decide)),
        (digitChar_ne_dot _ (Nat.mod_lt _ (by decide))).symm⟩

theorem toDigits_hex_inj {m n : ℕ} (h : Nat.toDigits 16 m = Nat.toDigits 16 n) : m = n := by
  induction m using Nat.strongRecOn generalizing n with
  | _ m ih =>
    rcases Nat.lt_or_ge m 16 with hm | hm
    · rcases Nat.lt_or_ge n 16 with hn | hn
      · rw [Nat.toDigits_of_lt_base hm,Nat.toDigits_of_lt_base hn] at h
        exact digitChar_inj m hm n hn (List.cons.inj h).1
      · rw [Nat.toDigits_of_lt_base hm,Nat.toDigits_of_base_le (by decide) hn] at h
        have hlength := congrArg List.length h
        rw [List.length_append,List.length_singleton,List.length_singleton] at hlength
        have hempty : (Nat.toDigits 16 (n / 16)).length = 0 := by omega
        exact absurd (List.length_eq_zero_iff.mp hempty) Nat.toDigits_ne_nil
    · rcases Nat.lt_or_ge n 16 with hn | hn
      · rw [Nat.toDigits_of_base_le (by decide) hm,Nat.toDigits_of_lt_base hn] at h
        have hlength := congrArg List.length h
        rw [List.length_append,List.length_singleton,List.length_singleton] at hlength
        have hempty : (Nat.toDigits 16 (m / 16)).length = 0 := by omega
        exact absurd (List.length_eq_zero_iff.mp hempty) Nat.toDigits_ne_nil
      · rw [Nat.toDigits_of_base_le (by decide) hm,Nat.toDigits_of_base_le (by decide) hn] at h
        obtain ⟨hrest,hlast⟩ := List.append_inj' h rfl
        have hdiv := ih (m / 16) (Nat.div_lt_self (by omega) (by decide)) hrest
        have hmod := digitChar_inj _ (Nat.mod_lt m (by decide)) _ (Nat.mod_lt n (by decide))
          (List.cons.inj hlast).1
        omega

theorem formatHex_inj {address address' : BitVec 64} (h : formatHex address = formatHex address') :
    address.setWidth 32 = address'.setWidth 32 := BitVec.eq_of_toNat_eq (toDigits_hex_inj h)

theorem thunkSignature_inj {hasUnusedClosure hasUnusedClosure' : Bool}
    {address address' : BitVec 64} {signature signature' : List Char} :
    thunkSignature hasUnusedClosure address signature =
        thunkSignature hasUnusedClosure' address' signature' ↔
      hasUnusedClosure = hasUnusedClosure' ∧ address.setWidth 32 = address'.setWidth 32 ∧
        signature = signature' := by
  constructor
  · intro h
    obtain ⟨hflag,hrest⟩ := List.cons.inj h
    have hdots : ∀ address : BitVec 64, ∀ c ∈ formatHex address, c ≠ '.' :=
      fun _ c hc heq => dot_notMem_toDigits _ (heq ▸ hc)
    have hends : ∀ x : List Char, ∀ c ∈ ('.' :: x).head?, ¬c ≠ '.' := by
      rintro x c hc hne
      cases hc
      exact hne rfl
    obtain ⟨hhex,hsignature⟩ := PrefixCode.append_inj_of_class (hdots _) (hdots _) (hends _)
      (hends _) hrest
    refine ⟨?_,formatHex_inj hhex,(List.cons.inj hsignature).2⟩
    revert hflag
    cases hasUnusedClosure <;> cases hasUnusedClosure' <;> decide
  · rintro ⟨rfl,haddress,rfl⟩
    rw [thunkSignature,thunkSignature,formatHex,formatHex,haddress]

theorem stdObjectMemberMethodType_signature {type type' : FunctionTy} :
    (stdObjectMemberMethodType type).signature = (stdObjectMemberMethodType type').signature ↔
      type.signature = type'.signature := by
  rw [FunctionTy.signature_eq_iff,FunctionTy.signature_eq_iff]
  obtain ⟨flags,callConv,returnType,asyncReturnType,argArray,serial⟩ := type
  obtain ⟨flags',callConv',returnType',asyncReturnType',argArray',serial'⟩ := type'
  simp [stdObjectMemberMethodType,FunctionTy.forget,ArgTys.forget]

theorem FunctionRequest.key_eq_iff {m : ThunkModule} {r r' : FunctionRequest} :
    r.key m = r'.key m ↔ r.hasUnusedClosure = r'.hasUnusedClosure ∧
      (m.function r.targetFunction).address.setWidth 32 =
        (m.function r'.targetFunction).address.setWidth 32 ∧
      r.thunkFunctionType.signature = r'.thunkFunctionType.signature := by
  rw [key,key,thunkSignature_inj]
  refine and_congr_right fun hflag => and_congr_right fun _ => ?_
  rw [type,type,hflag]
  split_ifs
  · exact stdObjectMemberMethodType_signature
  · rfl

theorem PropertyRequest.key_eq_iff {m : ThunkModule} {r r' : PropertyRequest} :
    r.key m = r'.key m ↔ r.hasUnusedClosure = r'.hasUnusedClosure ∧
      (r.address m).setWidth 32 = (r'.address m).setWidth 32 ∧
      r.thunkPropertyType.signature = r'.thunkPropertyType.signature := thunkSignature_inj

variable {m : ThunkModule}

namespace FunctionRequest

variable {r r' : FunctionRequest}

theorem Same.key_eq (h : r.Same r') : r.key m = r'.key m :=
  key_eq_iff.mpr ⟨h.2.2,by rw [h.1],h.2.1⟩

theorem Same.isDirect_eq (h : r.Same r') : r.isDirect m = r'.isDirect m := by
  rw [isDirect,isDirect,h.1,h.2.1,h.2.2]

theorem apart_iff : r.Apart m r' ↔ (r.key m = r'.key m → r.Same r') := by
  constructor
  · intro hapart hkey
    obtain ⟨hflag,haddress,hsignature⟩ := key_eq_iff.mp hkey
    exact ⟨of_not_not fun hne => hapart hsignature hflag hne haddress,hsignature,hflag⟩
  · intro hsame hsignature hflag hne haddress
    exact hne (hsame (key_eq_iff.mpr ⟨hflag,haddress,hsignature⟩)).1

end FunctionRequest

namespace PropertyRequest

variable {r r' : PropertyRequest}

theorem Same.key_eq (h : r.Same r') : r.key m = r'.key m :=
  key_eq_iff.mpr ⟨h.2.2,by rw [address,address,h.1],h.2.1⟩

theorem Same.isDirect_eq (h : r.Same r') : r.isDirect m = r'.isDirect m := by
  rw [isDirect,isDirect,h.1,h.2.1,h.2.2]

theorem apart_iff : r.Apart m r' ↔ (r.key m = r'.key m → r.Same r') := by
  constructor
  · intro hapart hkey
    obtain ⟨hflag,haddress,hsignature⟩ := key_eq_iff.mp hkey
    exact ⟨of_not_not fun hne => hapart hsignature hflag hne haddress,hsignature,hflag⟩
  · intro hsame hsignature hflag hne haddress
    exact hne (hsame (key_eq_iff.mpr ⟨hflag,haddress,hsignature⟩)).1

end PropertyRequest

end Jancy.Ct.Thunks

/-! What `ThunkFunction::compile` makes of a thunk, against the call that is expected of it. -/
namespace Jancy.Ct.Thunks

open Types

variable {m : ThunkModule} {j : ℕ} {args targetArgs : List (Bool × Ty)}

theorem castArgs_some
    (h : ∀ pair ∈ args.zip targetArgs, m.castOperator pair.1.2 pair.2.2 = true) :
    castArgs m j args targetArgs =
      some (((targetArgs.take args.length).zipIdx j).map fun arg => (arg.2,arg.1.2)) := by
  induction args generalizing j targetArgs with
  | nil => rfl
  | cons arg args ih =>
    cases targetArgs with
    | nil => rfl
    | cons targetArg targetArgs =>
      rw [List.zip_cons_cons,List.forall_mem_cons] at h
      rw [castArgs,if_pos h.1,ih h.2]
      rfl

theorem castArgs_none
    (h : ¬∀ pair ∈ args.zip targetArgs, m.castOperator pair.1.2 pair.2.2 = true) :
    castArgs m j args targetArgs = none := by
  induction args generalizing j targetArgs with
  | nil => exact absurd nofun h
  | cons arg args ih =>
    cases targetArgs with
    | nil => exact absurd nofun h
    | cons targetArg targetArgs =>
      rw [List.zip_cons_cons,List.forall_mem_cons,not_and_or] at h
      rw [castArgs]
      split_ifs with hcast
      · rw [ih (h.resolve_left (not_not.mpr hcast))]
        rfl
      · rfl

theorem drop_take_args (j : ℕ) (args targetArgs : List (Bool × Ty)) :
    (args.take (if args.length > j + targetArgs.length then j + targetArgs.length
      else args.length)).drop j = (args.drop j).take targetArgs.length := by
  rw [List.drop_take]
  split_ifs with hmore
  · rw [Nat.add_sub_cancel_left]
  · rw [List.take_of_length_le (Nat.le_of_eq List.length_drop),
      List.take_of_length_le (by rw [List.length_drop]; omega)]

theorem zip_take_left (xs ys : List (Bool × Ty)) :
    (xs.take ys.length).zip ys = xs.zip ys := by
  induction xs generalizing ys with
  | nil => rw [List.take_nil]
  | cons x xs ih =>
    cases ys with
    | nil => rfl
    | cons y ys => rw [List.length_cons,List.take_succ_cons,List.zip_cons_cons,ih,List.zip_cons_cons]

theorem take_take_length (xs ys : List (Bool × Ty)) :
    ys.take (xs.take ys.length).length = ys.take xs.length := by
  rw [List.length_take,List.take_eq_take_iff]
  omega

namespace ThunkFunction

variable {thunk : ThunkFunction}

theorem closureCount_eq (m : ThunkModule) (thunk : ThunkFunction) :
    (if takesThis (argArray thunk.type) &&
      !takesThis (argArray (m.function thunk.targetFunction).type) then 1 else 0) =
      thunk.closureCount m := by
  rw [closureCount]
  congr 1
  rw [Bool.and_eq_true,Bool.not_eq_true']

theorem compile_of_not_canCast (h : ¬thunk.CanCast m) : thunk.compile m = none := by
  unfold compile
  simp only [closureCount_eq]
  rw [drop_take_args,castArgs_none]
  rw [zip_take_left]
  exact h

theorem compile_of_canCast (h : thunk.CanCast m) :
    thunk.compile m =
      if returnType thunk.type = .primitive .void then
        some (if (m.function thunk.targetFunction).callOperator (thunk.passed m).length then
          some ⟨thunk.targetFunction,thunk.passed m⟩ else none)
      else if (m.function thunk.targetFunction).callOperator (thunk.passed m).length &&
          canReturn m (m.function thunk.targetFunction).type thunk.type then
        some (if (m.function thunk.targetFunction).callOperator (thunk.passed m).length then
          some ⟨thunk.targetFunction,thunk.passed m⟩ else none)
      else none := by
  unfold compile
  simp only [closureCount_eq]
  rw [drop_take_args,castArgs_some (by rw [zip_take_left]; exact h),take_take_length,
    List.length_drop]
  rfl

theorem compiles_iff (m : ThunkModule) (thunk : ThunkFunction) : thunk.Compiles m ↔
    (returnType thunk.type = .primitive .void → thunk.CanCast m → thunk.CanCall m) := by
  by_cases hcast : thunk.CanCast m
  · rw [Compiles,compile_of_canCast hcast]
    by_cases hcall : (m.function thunk.targetFunction).callOperator (thunk.passed m).length = true
    · have hcan : thunk.CanCall m := hcall
      refine iff_of_true ⟨fun h => ?_,fun h => ?_⟩ fun _ _ => hcan
      · obtain ⟨-,-,hreturn⟩ := h
        simp only [hcall,if_true,Bool.true_and]
        split_ifs with hvoid hret
        · rfl
        · rfl
        · exact absurd (hreturn.resolve_left hvoid) hret
      · have hreturn := fun hor => h ⟨hcast,hcan,hor⟩
        rw [imp_false,not_or] at hreturn
        rw [if_neg hreturn.1,hcall,Bool.true_and,if_neg hreturn.2]
    · have hcan : ¬thunk.CanCall m := hcall
      have hcallable : ¬thunk.Callable m := fun h => hcan h.2.1
      rw [Bool.not_eq_true] at hcall
      by_cases hvoid : returnType thunk.type = .primitive .void
      · refine iff_of_false (fun h => ?_) fun h => hcan (h hvoid hcast)
        have hnone := h.2 hcallable
        rw [if_pos hvoid] at hnone
        cases hnone
      · refine iff_of_true ⟨fun h => absurd h hcallable,fun _ => ?_⟩ fun h => absurd h hvoid
        rw [if_neg hvoid,hcall]
        rfl
  · refine iff_of_true ⟨fun h => absurd h.1 hcast,fun _ => compile_of_not_canCast hcast⟩
      fun _ h => absurd h hcast

end ThunkFunction

end Jancy.Ct.Thunks
