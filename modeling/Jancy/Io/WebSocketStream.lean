import Mathlib.Data.List.Basic
import Jancy.Io.WebSocketFrame

/-! A stream of frames: the caller of the parser takes each completed frame and parses on. What it
has in the end does not depend on how the bytes were cut into chunks. -/
namespace Jancy.Io

open WebSocketFrameParser

variable {α : Type}

/-- A parser with its caller: the count is the sum of what `parse` returned for the current
frame, and the caller stops at an error. -/
structure WebSocketSession (α : Type) where
  parser : WebSocketFrameParser
  count : ℕ
  app : α
  error : Option String
  deriving DecidableEq,Repr

namespace WebSocketSession

def initial (app : α) : WebSocketSession α := ⟨.initial,0,app,none⟩

def failed (session : WebSocketSession α) (parser : WebSocketFrameParser) (error : String) :
    WebSocketSession α :=
  { session with parser, count := 0, error := some error }

def parsed (session : WebSocketSession α) (parser : WebSocketFrameParser) (size : ℕ) :
    WebSocketSession α :=
  { session with parser, count := session.count + size }

/-- The caller's loop over one chunk, with a bound for the number of frames in it. -/
def deliverLoop (complete : WebSocketSession α → WebSocketSession α) :
    ℕ → WebSocketSession α → List UInt8 → WebSocketSession α
  | 0,session,_ => session
  | frames + 1,session,bytes =>
    if bytes = [] ∨ session.error ≠ none then session
    else
      match session.parser.parse bytes with
      | (.error error,parser) => session.failed parser error
      | (.ok size,parser) =>
        if parser.state = .completed then
          deliverLoop complete frames (complete (session.parsed parser size)) (bytes.drop size)
        else session.parsed parser size

def deliver (complete : WebSocketSession α → WebSocketSession α) (session : WebSocketSession α)
    (bytes : List UInt8) : WebSocketSession α :=
  deliverLoop complete bytes.length session bytes

/-- Between two chunks a session that has not failed has an unfinished frame. -/
def Open (session : WebSocketSession α) : Prop :=
  session.error = none → session.parser.Valid ∧ session.parser.state ≠ .completed

theorem initial_open (app : α) : (initial app).Open :=
  fun _ => ⟨reset_valid WebSocketFrameParser.initial,nofun⟩

def wake (complete : WebSocketSession α → WebSocketSession α) (session : WebSocketSession α) :
    WebSocketSession α :=
  match session.parser.accept with
  | (some error,parser) => session.failed parser error
  | (none,parser) =>
    if parser.state = .completed then complete { session with parser }
    else { session with parser }

/-- Each piece of a frame is a wait for the bytes that are missing. -/
def reader (complete : WebSocketSession α → WebSocketSession α) :
    Feed.Reader (WebSocketSession α) UInt8 where
  Awaiting := fun session => session.error = none
  demand := fun session bytes =>
    let missing := session.parser.targetSize - session.parser.collected.length
    if missing ≤ bytes.length then some missing else none
  store := fun session bytes => session.parsed (session.parser.append bytes) bytes.length
  satisfy := fun session bytes => session.parsed (session.parser.append bytes) bytes.length
  Wake := fun session session' => session' = wake complete session

variable {complete : WebSocketSession α → WebSocketSession α}

theorem accept_append {parser next : WebSocketFrameParser} {bytes : List UInt8}
    (hvalid : parser.Valid) (hstate : parser.state ≠ .completed)
    (haccept : (parser.append bytes).accept = (none,next)) :
    next.state.turns < parser.state.turns ∧ next.Valid := by
  have hnext := accept_ok (by simpa using hstate) ?_ haccept
  · rwa [append_state] at hnext
  · intro hheader hpayload
    rw [append_state] at hheader hpayload
    have hframe := hvalid.payload_nil hheader hpayload hstate
    obtain ⟨frame,buffer,state⟩ := parser
    cases state with
    | payload => exact absurd rfl hpayload
    | _ => exact hframe

theorem wake_open (hcomplete : ∀ session, (complete session).Open)
    {session : WebSocketSession α} {bytes : List UInt8} (hopen : session.Open)
    (herror : session.error = none) :
    (wake complete (session.parsed (session.parser.append bytes) bytes.length)).Open := by
  obtain ⟨hvalid,hstate⟩ := hopen herror
  unfold wake
  split
  case h_1 => exact nofun
  case h_2 next haccept =>
    split
    case isTrue => exact hcomplete _
    case isFalse hnext => exact fun _ => ⟨(accept_append hvalid hstate haccept).2,hnext⟩

theorem reader_lawful (hcomplete : ∀ session, (complete session).Open) :
    Feed.Lawful (reader complete) Open where
  demand_le := by
    intro session bytes missing h
    simp only [reader] at h
    split at h
    · cases h
      assumption
    · cases h
  demand_prefix := by
    intro session xs missing ys h
    simp only [reader] at h ⊢
    split at h
    · rw [if_pos (by rw [List.length_append]; omega)]
      exact h
    · cases h
  demand_store := by
    intro session xs ys hopen herror _ _ h
    simp only [reader,parsed,append_targetSize,append_collected,List.length_append] at h ⊢
    split at h
    · cases h
    · split
      · rw [if_pos (by omega),Option.map_some]
        congr 1
        omega
      · rw [if_neg (by omega),Option.map_none]
  awaiting_store := fun _ herror => herror
  store_store := by
    intro session xs ys _ _
    simp [reader,parsed,Nat.add_assoc]
  satisfy_store := by
    intro session xs ys _ _
    simp [reader,parsed,Nat.add_assoc]
  store_inv := by
    intro session xs hopen herror h _
    obtain ⟨hvalid,hstate⟩ := hopen herror
    simp only [reader] at h
    split at h
    · cases h
    · exact ⟨hvalid.append (by omega),by simpa [reader,parsed] using hstate⟩
  wake_inv := by
    rintro session bytes _ hopen herror rfl
    exact wake_open hcomplete hopen herror

theorem parsed_parsed (session : WebSocketSession α) (p q : WebSocketFrameParser) (m n : ℕ) :
    (session.parsed p m).parsed q n = session.parsed q (m + n) := by
  simp [parsed,Nat.add_assoc]

theorem loop_of_turn {session : WebSocketSession α} {bytes : List UInt8} {missing : ℕ}
    (herror : session.error = none) (hbytes : bytes ≠ [])
    (hmissing : session.parser.collected.length + missing = session.parser.targetSize)
    (hlong : missing ≤ bytes.length) {m : ℕ} {session' : WebSocketSession α}
    (hrest : Feed.Loop (reader complete)
      (wake complete (session.parsed (session.parser.append (bytes.take missing)) missing))
      (bytes.drop missing) m session') :
    Feed.Loop (reader complete) session bytes (missing + m) session' := by
  have hsize : session.parser.targetSize - session.parser.collected.length = missing := by omega
  have hdemand : (reader complete).demand session bytes = some missing := by
    simp only [reader,hsize,if_pos hlong]
  have hlength : (bytes.take missing).length = missing := by
    rw [List.length_take]
    omega
  refine .satisfied hbytes herror hdemand ?_ hrest
  simp only [reader,hlength]

/-- The result of `parse` is what the waits for the pieces of a frame lead to. -/
def ParsesAs (complete : WebSocketSession α → WebSocketSession α) (session : WebSocketSession α)
    (bytes : List UInt8) : Except String ℕ × WebSocketFrameParser → Prop
  | (.error error,parser) =>
    ∃ n, Feed.Loop (reader complete) session bytes n (session.failed parser error)
  | (.ok size,parser) =>
    if parser.state = .completed then
      0 < size ∧ ∀ m session', Feed.Loop (reader complete)
        (complete (session.parsed parser size)) (bytes.drop size) m session' →
          Feed.Loop (reader complete) session bytes (size + m) session'
    else Feed.Loop (reader complete) session bytes size (session.parsed parser size)

theorem ParsesAs.prepend {session : WebSocketSession α} {next : WebSocketFrameParser}
    {bytes : List UInt8} {copied : ℕ} {result : Except String ℕ × WebSocketFrameParser}
    (hturn : ∀ m session',
      Feed.Loop (reader complete) (session.parsed next copied) (bytes.drop copied) m session' →
        Feed.Loop (reader complete) session bytes (copied + m) session')
    (hrest : ParsesAs complete (session.parsed next copied) (bytes.drop copied) result) :
    ParsesAs complete session bytes (taken copied result) := by
  match result with
  | (.error error,last) =>
    obtain ⟨n,hloop⟩ := hrest
    exact ⟨_,hturn _ _ hloop⟩
  | (.ok size,last) =>
    simp only [ParsesAs,taken,parsed_parsed,List.drop_drop] at hrest ⊢
    split at hrest
    case isTrue hlast =>
      rw [if_pos hlast]
      refine ⟨by omega,fun m session' hloop => ?_⟩
      rw [Nat.add_assoc]
      exact hturn _ _ (hrest.2 _ _ hloop)
    case isFalse hlast =>
      rw [if_neg hlast]
      exact hturn _ _ hrest

theorem parseLoop_parsesAs (turns : ℕ) {session : WebSocketSession α} (bytes : List UInt8)
    (hopen : session.Open) (herror : session.error = none)
    (hturns : session.parser.state.turns ≤ turns) :
    ParsesAs complete session bytes (parseLoop turns session.parser bytes) := by
  induction turns generalizing session bytes with
  | zero =>
    have hstate := (hopen herror).2
    cases hcases : session.parser.state <;> simp_all [State.turns]
  | succ turns ih =>
    obtain ⟨hvalid,hstate⟩ := hopen herror
    by_cases hbytes : bytes = []
    · subst hbytes
      rw [parseLoop_nil,ParsesAs,if_neg hstate]
      exact .stop (.inl rfl)
    have hpos := hvalid.length_lt hstate
    obtain ⟨missing,hmissing⟩ := Nat.exists_eq_add_of_lt hpos
    have hpiece : session.parser.collected.length + (missing + 1) = session.parser.targetSize := by
      omega
    by_cases hlong : missing + 1 ≤ bytes.length
    · have hturn := fun m session' => @loop_of_turn α complete session bytes _ herror hbytes hpiece
        hlong m session'
      rw [parseLoop_long turns hbytes hstate hpiece hlong]
      rcases haccept : (session.parser.append (bytes.take (missing + 1))).accept with ⟨error,next⟩
      simp only [wake,parsed,haccept] at hturn
      cases error with
      | some error => exact ⟨_,hturn _ _ (.stop (.inr nofun))⟩
      | none =>
        have hnext := accept_append hvalid hstate haccept
        by_cases hcompleted : next.state = .completed
        · simp only [if_pos hcompleted] at hturn
          simp only [parseLoop_completed turns _ hcompleted,taken,ParsesAs]
          rw [if_pos hcompleted]
          exact ⟨Nat.succ_pos missing,hturn⟩
        · simp only [if_neg hcompleted] at hturn
          apply ParsesAs.prepend hturn
          exact @ih (session.parsed next (missing + 1)) _
            (fun _ => ⟨hnext.2,hcompleted⟩) herror (by simp only [parsed]; omega)
    · rw [parseLoop_short turns hbytes hstate (by omega),ParsesAs,append_state,if_neg hstate]
      have hdemand : (reader complete).demand session bytes = none := by
        simp only [reader]
        rw [if_neg (by omega)]
      exact .notYet hbytes herror hdemand

theorem deliverLoop_loop (hcomplete : ∀ session, (complete session).Open) {frames : ℕ}
    {session : WebSocketSession α} {bytes : List UInt8} (hopen : session.Open)
    (hframes : bytes.length ≤ frames) :
    ∃ n, Feed.Loop (reader complete) session bytes n (deliverLoop complete frames session bytes) := by
  induction frames generalizing session bytes with
  | zero =>
    have hbytes := List.eq_nil_of_length_eq_zero (Nat.le_zero.mp hframes)
    exact ⟨0,.stop (.inl hbytes)⟩
  | succ frames ih =>
    rw [deliverLoop]
    split
    case isTrue hstop => exact ⟨0,.stop hstop⟩
    case isFalse hgo =>
      obtain ⟨hbytes,herror⟩ := not_or.mp hgo
      rw [not_not] at herror
      have hparse := @parseLoop_parsesAs α complete _ session bytes hopen herror le_rfl
      rw [← parse] at hparse
      rcases hresult : session.parser.parse bytes with ⟨error | size,parser⟩
      · rw [hresult] at hparse
        exact hparse
      · simp only [hresult,ParsesAs] at hparse ⊢
        split at hparse
        case isTrue hcompleted =>
          rw [if_pos hcompleted]
          have hlength : 0 < bytes.length := List.length_pos_iff.mpr hbytes
          obtain ⟨m,hrest⟩ := @ih (complete (session.parsed parser size)) (bytes.drop size)
            (hcomplete _) (by rw [List.length_drop]; omega)
          exact ⟨_,hparse.2 _ _ hrest⟩
        case isFalse hcompleted =>
          rw [if_neg hcompleted]
          exact ⟨_,hparse⟩

theorem reader_unique (session session₁ session₂ : WebSocketSession α)
    (h₁ : (reader complete).Wake session session₁) (h₂ : (reader complete).Wake session session₂) :
    session₁ = session₂ :=
  Eq.trans h₁ h₂.symm

theorem deliver_of_error {session : WebSocketSession α} (herror : session.error ≠ none)
    (bytes : List UInt8) : deliver complete session bytes = session := by
  rw [deliver]
  cases bytes.length with
  | zero => rfl
  | succ frames => rw [deliverLoop,if_pos (.inr herror)]

section

variable (hcomplete : ∀ session, (complete session).Open)

include hcomplete

theorem deliver_chunks {session : WebSocketSession α} (hopen : session.Open)
    (chunks : List (List UInt8)) :
    ∃ n, Feed.Chunks (reader complete) session chunks n (chunks.foldl (deliver complete) session) := by
  induction chunks generalizing session with
  | nil => exact ⟨0,.nil⟩
  | cons bytes chunks ih =>
    obtain ⟨n,hloop⟩ := deliverLoop_loop hcomplete hopen (le_refl bytes.length)
    obtain ⟨m,hrest⟩ := ih (hloop.inv (reader_lawful hcomplete) hopen)
    by_cases herror : session.error = none
    · exact ⟨_,.resume herror hloop hrest⟩
    · have hfailed := @deliver_of_error α complete session herror
      rw [List.foldl_fixed' hfailed]
      exact ⟨0,.refused herror⟩

theorem deliver_flatten {session : WebSocketSession α} (hopen : session.Open)
    (chunks : List (List UInt8)) :
    chunks.foldl (deliver complete) session = deliver complete session chunks.flatten := by
  have hlawful := reader_lawful hcomplete
  obtain ⟨n,hchunks⟩ := deliver_chunks hcomplete hopen chunks
  obtain ⟨m,hwhole⟩ := deliverLoop_loop hcomplete hopen (le_refl chunks.flatten.length)
  have hloop := (Feed.chunks_iff_loop hlawful hopen _ _ _).mp hchunks
  exact (hloop.unique reader_unique hwhole).2

theorem deliverLoop_eq {frames : ℕ} {session : WebSocketSession α} {bytes : List UInt8}
    (hopen : session.Open) (hframes : bytes.length ≤ frames) :
    deliverLoop complete frames session bytes = deliver complete session bytes := by
  obtain ⟨n,hloop⟩ := deliverLoop_loop hcomplete hopen hframes
  obtain ⟨m,hwhole⟩ := deliverLoop_loop hcomplete hopen (le_refl bytes.length)
  exact (hloop.unique reader_unique hwhole).2

theorem deliver_eq {session : WebSocketSession α} {bytes : List UInt8} (hopen : session.Open)
    (herror : session.error = none) (hbytes : bytes ≠ []) :
    deliver complete session bytes =
      match session.parser.parse bytes with
      | (.error error,parser) => session.failed parser error
      | (.ok size,parser) =>
        if parser.state = .completed then
          deliver complete (complete (session.parsed parser size)) (bytes.drop size)
        else session.parsed parser size := by
  have hlength : 0 < bytes.length := List.length_pos_iff.mpr hbytes
  have hparse := @parseLoop_parsesAs α complete _ session bytes hopen herror le_rfl
  rw [← parse] at hparse
  rw [deliver,← Nat.sub_add_cancel hlength,deliverLoop,if_neg (by simp [hbytes,herror])]
  rcases hresult : session.parser.parse bytes with ⟨error | size,parser⟩
  · rfl
  · simp only [hresult,ParsesAs] at hparse ⊢
    split at hparse
    case isTrue hcompleted =>
      rw [if_pos hcompleted,if_pos hcompleted]
      exact deliverLoop_eq hcomplete (hcomplete _) (by rw [List.length_drop]; omega)
    case isFalse hcompleted => rw [if_neg hcompleted,if_neg hcompleted]

end

theorem size_pos {session : WebSocketSession α} {bytes : List UInt8} {size : ℕ}
    {parser : WebSocketFrameParser} (hopen : session.Open) (herror : session.error = none)
    (hparse : session.parser.parse bytes = (.ok size,parser)) (hstate : parser.state = .completed) :
    0 < size := by
  have hruns := @parseLoop_parsesAs α id _ session bytes hopen herror le_rfl
  rw [← parse,hparse,ParsesAs,if_pos hstate] at hruns
  exact hruns.1

theorem size_le (hcomplete : ∀ session, (complete session).Open) {session : WebSocketSession α}
    {bytes : List UInt8} {size : ℕ} {parser : WebSocketFrameParser} (hopen : session.Open)
    (herror : session.error = none) (hparse : session.parser.parse bytes = (.ok size,parser))
    (hstate : parser.state = .completed) : size ≤ bytes.length := by
  have hruns := @parseLoop_parsesAs α complete _ session bytes hopen herror le_rfl
  rw [← parse,hparse,ParsesAs,if_pos hstate] at hruns
  obtain ⟨m,hrest⟩ := deliverLoop_loop hcomplete (hcomplete (session.parsed parser size))
    (le_refl (bytes.drop size).length)
  have hle := (hruns.2 _ _ hrest).le_length (reader_lawful hcomplete)
  omega

theorem deliver_induction {P : WebSocketSession α → Prop}
    (hparsed : ∀ session parser size, P session → P (session.parsed parser size))
    (hfailed : ∀ session parser error, P session → P (session.failed parser error))
    (hcomplete : ∀ session, P session → P (complete session))
    {session : WebSocketSession α} (bytes : List UInt8) (h : P session) :
    P (deliver complete session bytes) := by
  rw [deliver]
  generalize bytes.length = frames
  induction frames generalizing session bytes with
  | zero => exact h
  | succ frames ih =>
    rw [deliverLoop]
    split
    · exact h
    · split
      · exact hfailed _ _ _ h
      · split
        · exact ih _ (hcomplete _ (hparsed _ _ _ h))
        · exact hparsed _ _ _ h

theorem deliver_frame (hcomplete : ∀ session, (complete session).Open)
    {session : WebSocketSession α} {bytes rest : List UInt8} {parser : WebSocketFrameParser}
    (herror : session.error = none) (hbytes : bytes ≠ [])
    (hparse : session.parser.parse (bytes ++ rest) = (.ok bytes.length,parser))
    (hstate : parser.state = .completed) :
    deliver complete session (bytes ++ rest) =
      deliver complete (complete (session.parsed parser bytes.length)) rest := by
  have hlength : 0 < bytes.length := List.length_pos_iff.mpr hbytes
  rw [deliver,List.length_append,← Nat.sub_add_cancel (show 1 ≤ bytes.length + rest.length by omega),
    deliverLoop,if_neg (by simp [hbytes,herror]),hparse]
  simp only [hstate,if_true,List.drop_left]
  exact deliverLoop_eq hcomplete (hcomplete _) (by omega)

theorem deliver_failed {session : WebSocketSession α} {bytes : List UInt8}
    {parser : WebSocketFrameParser} {error : String} (herror : session.error = none)
    (hbytes : bytes ≠ []) (hparse : session.parser.parse bytes = (.error error,parser)) :
    deliver complete session bytes = session.failed parser error := by
  have hlength : 0 < bytes.length := List.length_pos_iff.mpr hbytes
  rw [deliver,← Nat.sub_add_cancel hlength,deliverLoop,if_neg (by simp [hbytes,herror]),hparse]

end WebSocketSession

end Jancy.Io
