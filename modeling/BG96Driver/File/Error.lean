import BG96Driver.File.Implementation
import BG96Driver.Lib.Walk
import Mathlib.Logic.Function.Basic

/-!
# The error of a file operation

An operation asks for its error in a critical section of its own, after the one of the command that
failed, and all threads share `_fs_error`. Between the two another thread's command can fail, and
the question can itself stay without an answer.

* `State`, `Step`: the threads' operations, whose calls are single steps, the modem's last error
  code and `_fs_error`.
* `Outcome`: how the last command of an operation ended. `Reports`: what the operation then returns.
* `Quiet`: the steps that do not mix up the errors.
* `error_of_operation`: after quiet steps, `fs_get_error` gives the error of the operation that has
  returned.
-/

namespace Bg96.File

open Program Transitions

variable {α : Type}

/-! ## The course of an operation -/

/-- A call that sets `_fs_error`. The other calls are commands. -/
def Call.sets : Call → Bool
  | .getError | .clearError => true
  | _ => false

/-- The next call sets `_fs_error`. -/
def decides : Fs α → Bool
  | .call c _ => c.sets
  | _ => false

/-- The next call clears `_fs_error`: the operation takes its last command for a success. -/
def clears : Fs α → Bool
  | .call .clearError _ => true
  | _ => false

/-- An operation whose last command succeeded or not, as `ok` says, sets `_fs_error` after each
command, and returns what `R` allows. -/
def Staged (R : Bool → α → Prop) : Bool → Fs α → Prop
  | ok, .ret a => R ok a
  | ok, .call c k =>
    if c.sets then (c = .clearError ↔ ok = true) ∧ ∀ r, decides (k r) = false ∧ Staged R ok (k r)
    else ∀ r, decides (k r) = true ∧ Staged R (clears (k r)) (k r)
  | _, .stop => False

/-- What an operation returns, as its last command succeeded or not. The size of a file and the like
can be 0 also after a success. -/
def Op.Reports : (op : Op) → Bool → op.Reply → Prop
  | .freeSize, ok, r | .totalSize, ok, r | .totalNumberOfFiles, ok, r | .totalSizeOfFiles, ok, r
  | .fileSize _, ok, r => ok = false → r = (0 : Int)
  | .deleteFile _, ok, r | .uploadFile .., ok, r => r = if ok then (0 : Int) else -1
  | .downloadFile _, ok, r => ok = false → r.1 = 0
  | .fileExists _, ok, r | .write .., ok, r | .seek .., ok, r | .rewind _, ok, r | .eof _, ok, r
  | .truncate .., ok, r | .close _, ok, r => r = ok
  | .open .., ok, r | .getOffset _, ok, r | .read .., ok, r => r.1 = ok

/-- A command and its error are in order if what comes after them is. -/
theorem staged_reporting {β : Type} {R : Bool → β → Prop} {c : Call} {accept : c.Reply → Bool}
    {f : c.Reply → Fs β} (hc : c.sets = false) (ok : Bool)
    (hf : ∀ r, decides (f r) = false ∧ Staged R (accept r) (f r)) :
    Staged R ok (reporting c accept >>= f) := by
  rw [reporting_bind, Staged, hc]
  intro r
  have hf := hf r
  cases hr : accept r with
  | true =>
    rw [hr] at hf
    exact ⟨rfl, by simpa [clears, Staged, Call.sets] using hf⟩
  | false =>
    rw [hr] at hf
    exact ⟨rfl, by simpa [clears, Staged, Call.sets] using hf⟩

theorem run_staged (op : Op) (ok : Bool) : Staged op.Reports ok op.run := by
  cases op with
  | freeSize | totalSize | totalNumberOfFiles | totalSizeOfFiles | fileSize =>
    refine staged_reporting rfl ok fun r => ⟨rfl, fun h => ?_⟩
    exact if_neg (by simp [h])
  | downloadFile filename =>
    show Staged _ ok ((reporting _ _ >>= _) >>= _)
    rw [Prog.bind_assoc]
    refine staged_reporting rfl ok fun r => ⟨rfl, ?_⟩
    refine staged_reporting rfl _ fun r => ⟨rfl, fun h => ?_⟩
    exact if_neg (by simp [h])
  | deleteFile filename =>
    refine staged_reporting rfl ok fun rc => ⟨rfl, ?_⟩
    show (if rc = 0 then (0 : Int) else -1) = if decide (rc = 0) then 0 else -1
    simp
  | uploadFile filename data size =>
    refine staged_reporting rfl ok fun r => ⟨rfl, ?_⟩
    show (if isOk r.1 && r.2 = size then (0 : Int) else -1) = _
    simp
  | _ => exact staged_reporting rfl ok fun r => ⟨rfl, rfl⟩

/-- An operation begins with a command. -/
theorem run_starts (op : Op) : ∃ c k, op.run = .call c k ∧ c.sets = false := by
  cases op <;> exact ⟨_, _, rfl, rfl⟩

/-! ## Threads -/

/-- How the last command of an operation ended: with success, or with a failure for which the modem
has kept an error code or not. -/
inductive Outcome where
  | succeeded
  | failed (code : Option Int)

def Outcome.ok : Outcome → Bool
  | .succeeded => true
  | .failed _ => false

/-- `_fs_error` after this outcome: no error, or the non-zero code of the failure itself. -/
def Outcome.Matches (error : FsError) : Outcome → Prop
  | .succeeded => error.errornum = 0
  | .failed code => ∃ e, code = some e ∧ e ≠ 0 ∧ error.errornum = e

/-- An operation that a thread is in: what is left of it, and how its last command ended. -/
structure Busy where
  op : Op
  prog : Fs op.Reply
  outcome : Outcome

/-- An operation that has returned. -/
structure Returned where
  op : Op
  reply : op.Reply
  outcome : Outcome

/-- The modem's code for its last failed command, `_fs_error`, the threads, and the last operation
that has returned, if none has started after that. -/
structure State (τ : Type) where
  lastError : Int
  fsError : FsError
  thread : τ → Option Busy
  last : Option Returned

/-- No thread is in an operation. -/
def State.init (τ : Type) : State τ := ⟨0, noError, fun _ => none, none⟩

/-- `FSImplementation::fs_get_error`. -/
def State.fsGetError {τ : Type} (s : State τ) : FsError := s.fsError

/-- What a thread does. A command may fail in the modem with a code; an answer to the question for
the error gives a description. -/
inductive Label (τ : Type) where
  | start (t : τ) (op : Op)
  | exchange (t : τ) (code : Option Int)
  | getError (t : τ) (answer : Option String)
  | clearError (t : τ)
  | ret (t : τ)
  | other (t : τ) (code : Option Int)

variable {τ : Type}

section Step

variable [DecidableEq τ]

/-- `thread` with another thread `t`. -/
def State.set (s : State τ) (t : τ) (b : Option Busy) : State τ :=
  { s with thread := Function.update s.thread t b }

/-- The outcome of a command after which an operation goes on with `prog`. -/
def outcomeOf (prog : Fs α) (code : Option Int) : Outcome :=
  if clears prog then .succeeded else .failed code

/-- The steps. A command of an operation, its question for the error and a command of another part
of the driver are critical sections; the modem answers them as it likes. -/
inductive Step : State τ → Label τ → State τ → Prop where
  | start {s : State τ} {t : τ} (op : Op) (h : s.thread t = none) :
    Step s (.start t op) { s.set t (some ⟨op, op.run, .succeeded⟩) with last := none }
  | exchange {s : State τ} {t : τ} {op : Op} {c : Call} {k : c.Reply → Fs op.Reply} {o : Outcome}
    (h : s.thread t = some ⟨op, .call c k, o⟩) (hc : c.sets = false) (r : c.Reply)
    (code : Option Int) (h₀ : code ≠ some 0) :
    Step s (.exchange t code)
      { s.set t (some ⟨op, k r, outcomeOf (k r) code⟩) with lastError := code.getD s.lastError }
  | getError {s : State τ} {t : τ} {op : Op} {k : Unit → Fs op.Reply} {o : Outcome}
    (h : s.thread t = some ⟨op, .call .getError k, o⟩) (answer : Option String) :
    Step s (.getError t answer)
      { s.set t (some ⟨op, k (), o⟩) with
        fsError := answer.elim s.fsError fun desc => ⟨desc, s.lastError⟩ }
  | clearError {s : State τ} {t : τ} {op : Op} {k : Unit → Fs op.Reply} {o : Outcome}
    (h : s.thread t = some ⟨op, .call .clearError k, o⟩) :
    Step s (.clearError t) { s.set t (some ⟨op, k (), o⟩) with fsError := noError }
  | ret {s : State τ} {t : τ} {op : Op} {r : op.Reply} {o : Outcome}
    (h : s.thread t = some ⟨op, .ret r, o⟩) :
    Step s (.ret t) { s.set t none with last := some ⟨op, r, o⟩ }
  | other {s : State τ} {t : τ} (h : s.thread t = none) (code : Option Int) (h₀ : code ≠ some 0) :
    Step s (.other t code) { s with lastError := code.getD s.lastError }

end Step

/-- The modem answers the question for the error with its code and a description, if at all. -/
def tells (code : Int) : Env Unit Modem.Call Modem.Call.Reply
  | _, .recv ⟨"+QIGETERROR: %d,%[^\\n]", []⟩, some vs, _ => ∃ desc, vs = [.int code, .str desc]
  | _, _, _, _ => True

/-- The step of `getError` is what `BG96::getError` does. -/
theorem getError_spec (code : Int) (error : FsError) :
    wp (tells code) True (fun error' _ => ∃ answer : Option String,
      error' = answer.elim error fun desc => ⟨desc, code⟩) (getError error) () := by
  rintro - _ -
  rintro (_ | _) _ -
  · rintro - _ -
    exact ⟨none, rfl⟩
  · rintro (_ | vs) _ hvs
    · rintro - _ -
      exact ⟨none, rfl⟩
    · obtain ⟨desc, rfl⟩ := hvs
      rintro ok _ - - _ -
      exact ⟨some desc, rfl⟩

/-! ## Steps that do not mix up the errors -/

/-- The operation has set `_fs_error` for the last time. -/
def Busy.settled (b : Busy) : Prop :=
  match b.prog with
  | .ret _ => True
  | _ => False

/-- The operation is about to ask for the error of its last command. -/
def Busy.waits (b : Busy) : Prop := decides b.prog = true ∧ b.outcome.ok = false

/-- `_fs_error` is the error of an operation that has returned or is about to. -/
def Settled (s : State τ) : Prop := s.last.isSome ∨ ∃ t b, s.thread t = some b ∧ b.settled

/-- Commands that fail with a code have the code that each waiting operation is to get. -/
def Spares (s : State τ) (code : Option Int) : Prop :=
  ∀ e, code = some e → ∀ t b, s.thread t = some b → b.waits → b.outcome = .failed (some e)

/-- The steps that do not mix up the errors. A command that fails in the driver has failed with a
code in the modem; no command fails with another code while an operation waits for its own; the
question is answered, or `_fs_error` is the answer already; and nothing changes `_fs_error` that is
the error of another operation that has returned or is about to. -/
def Quiet (s : State τ) : Label τ → State τ → Prop
  | .exchange t code, s' => Spares s code ∧
    ∀ b, s'.thread t = some b → b.outcome.ok = false → code ≠ none
  | .other _ code, _ => Spares s code
  | .getError _ answer, _ => s.fsError.errornum = s.lastError ∨ answer.isSome ∧ ¬ Settled s
  | .clearError _, _ => s.fsError.errornum = 0 ∨ ¬ Settled s
  | .start .., _ | .ret _, _ => True

/-! ## What the steps keep -/

/-- What an operation that a thread is in relies on. -/
structure Busy.Fits (lastError : Int) (error : FsError) (b : Busy) : Prop where
  staged : Staged b.op.Reports b.outcome.ok b.prog
  waits : b.waits → ∃ e, b.outcome = .failed (some e) ∧ e ≠ 0 ∧ lastError = e
  settled : b.settled → b.outcome.Matches error

/-- The operation has returned what its last command tells, and `_fs_error` is its error. -/
structure Returned.Fits (error : FsError) (r : Returned) : Prop where
  reports : r.op.Reports r.outcome.ok r.reply
  error : r.outcome.Matches error

/-- What the steps keep. -/
structure Fits (s : State τ) : Prop where
  thread : ∀ t b, s.thread t = some b → b.Fits s.lastError s.fsError
  last : ∀ r, s.last = some r → r.Fits s.fsError

variable {s s' : State τ} {t : τ} {b : Busy} {l : Label τ} {error error' : FsError}
  {lastError lastError' : Int} {code : Option Int}

theorem Outcome.Matches.congr {o : Outcome} (h : o.Matches error)
    (he : error'.errornum = error.errornum) : o.Matches error' := by
  cases o with
  | succeeded => exact he.trans h
  | failed code =>
    obtain ⟨e, hc, h₀, h⟩ := h
    exact ⟨e, hc, h₀, he.trans h⟩

theorem Outcome.eq_succeeded {o : Outcome} (h : o.ok = true) : o = .succeeded := by
  cases o with
  | succeeded => rfl
  | failed code => cases h

theorem outcomeOf_ok (prog : Fs α) (code : Option Int) :
    (outcomeOf prog code).ok = clears prog := by
  unfold outcomeOf
  cases clears prog <;> rfl

theorem Busy.not_settled_of_decides (h : decides b.prog = true) : ¬ b.settled := by
  obtain ⟨op, prog, o⟩ := b
  cases prog with
  | ret a => cases h
  | call c k => exact id
  | stop => cases h

/-- The other threads go on if their codes and their errors stay. -/
theorem Busy.Fits.congr (h : b.Fits lastError error) (hl : b.waits → lastError' = lastError)
    (he : b.settled → error'.errornum = error.errornum) : b.Fits lastError' error' := by
  refine ⟨h.staged, fun hw => ?_, fun hs => (h.settled hs).congr (he hs)⟩
  obtain ⟨e, ho, h₀, rfl⟩ := h.waits hw
  exact ⟨lastError, ho, h₀, hl hw⟩

/-- A command that fails with a code leaves the waiting operations theirs. -/
theorem Spares.keeps (h : Spares s code) (hs : Fits s) {b : Busy} (hb : s.thread t = some b)
    (hw : b.waits) : code.getD s.lastError = s.lastError := by
  cases code with
  | none => rfl
  | some e =>
    obtain ⟨e', ho, -, hl⟩ := (hs.thread t b hb).waits hw
    rw [h e rfl t b hb hw] at ho
    cases ho
    exact hl.symm

theorem fits_init (τ : Type) : Fits (State.init τ) := ⟨nofun, nofun⟩

variable [DecidableEq τ]

/-- A step of one thread. -/
theorem Fits.set {thread : Option Busy} (h : Fits s)
    (hl : ∀ u b, s.thread u = some b → b.waits → lastError = s.lastError)
    (he : error.errornum = s.fsError.errornum ∨ ¬ Settled s)
    (ht : ∀ b, thread = some b → b.Fits lastError error) :
    Fits { s.set t thread with lastError := lastError, fsError := error } := by
  refine ⟨fun u b hu => ?_, fun r hr => ?_⟩
  · by_cases hut : u = t
    · subst hut
      exact ht b (by simpa [State.set] using hu)
    · have hu : s.thread u = some b := by simpa [State.set, hut] using hu
      refine (h.thread u b hu).congr (hl u b hu) fun hs => he.resolve_right fun hn => ?_
      exact hn (.inr ⟨u, b, hu, hs⟩)
  · have hr : s.last = some r := hr
    have hs : Settled s := .inl (by rw [hr]; rfl)
    have he := he.resolve_right fun hn => hn hs
    exact ⟨(h.last r hr).reports, (h.last r hr).error.congr he⟩

/-- A command: if the operation takes it for a failure, the modem has a code for it. -/
theorem Busy.Fits.exchange {op : Op} {c : Call} {k : c.Reply → Fs op.Reply} {o : Outcome}
    (h : Busy.Fits lastError error ⟨op, .call c k, o⟩) (hc : c.sets = false) (r : c.Reply)
    (h₀ : code ≠ some 0) (hcode : (outcomeOf (k r) code).ok = false → code ≠ none) :
    Busy.Fits (code.getD lastError) error ⟨op, k r, outcomeOf (k r) code⟩ := by
  have hstaged := h.staged
  simp only [Staged, hc] at hstaged
  obtain ⟨hd, hk⟩ := hstaged r
  refine ⟨?_, fun hw => ?_, fun hs => ?_⟩
  · rw [outcomeOf_ok]
    exact hk
  · obtain ⟨e, rfl⟩ := Option.ne_none_iff_exists'.mp (hcode hw.2)
    have hclears := hw.2
    rw [outcomeOf_ok] at hclears
    exact ⟨e, by simp [outcomeOf, hclears], fun he => h₀ (by rw [he]), rfl⟩
  · exact absurd hs (Busy.not_settled_of_decides hd)

/-- The question for the error, after which `_fs_error` has the modem's code. -/
theorem Busy.Fits.getError {op : Op} {k : Unit → Fs op.Reply} {o : Outcome}
    (h : Busy.Fits lastError error ⟨op, .call .getError k, o⟩)
    (he : error'.errornum = lastError) : Busy.Fits lastError error' ⟨op, k (), o⟩ := by
  obtain ⟨hclear, hk⟩ := h.staged
  have ho : o.ok = false := by
    cases hok : o.ok with
    | true => exact nomatch hclear.mpr hok
    | false => rfl
  obtain ⟨e, rfl, h₀, rfl⟩ := h.waits ⟨rfl, ho⟩
  refine ⟨(hk ()).2, fun hw => ?_, fun _ => ⟨lastError, rfl, h₀, he⟩⟩
  exact absurd hw.1 (by simp [(hk ()).1])

/-- `_fs_error` is cleared only after a success. -/
theorem Busy.Fits.clearError {op : Op} {k : Unit → Fs op.Reply} {o : Outcome}
    (h : Busy.Fits lastError error ⟨op, .call .clearError k, o⟩) :
    Busy.Fits lastError noError ⟨op, k (), o⟩ := by
  obtain ⟨hclear, hk⟩ := h.staged
  obtain rfl := Outcome.eq_succeeded (hclear.mp rfl)
  refine ⟨(hk ()).2, fun hw => ?_, fun _ => rfl⟩
  exact absurd hw.1 (by simp [(hk ()).1])

theorem Fits.start {op : Op} (h : Fits s) :
    Fits { s.set t (some ⟨op, op.run, .succeeded⟩) with last := none } := by
  have hb : Busy.Fits s.lastError s.fsError ⟨op, op.run, .succeeded⟩ := by
    obtain ⟨c, k, hrun, hc⟩ := run_starts op
    refine ⟨run_staged op _, fun hw => (nomatch hw.2), fun hs => ?_⟩
    rw [Busy.settled, hrun] at hs
    exact hs.elim
  have hset := h.set (t := t) (fun _ _ _ _ => rfl) (.inl rfl) fun _ hb' => Option.some.inj hb' ▸ hb
  exact ⟨hset.thread, nofun⟩

/-- **A quiet step.** It keeps what the operations rely on. -/
theorem Step.fits (h : Step s l s') (hs : Fits s) (hq : Quiet s l s') : Fits s' := by
  cases h with
  | start op h => exact hs.start
  | exchange h hc r code h₀ =>
    obtain ⟨hspares, hcode⟩ := hq
    refine hs.set (fun u b hu hw => hspares.keeps hs hu hw) (.inl rfl) ?_
    rintro b ⟨⟩
    exact (hs.thread _ _ h).exchange hc r h₀ (hcode _ (Function.update_self ..))
  | getError h answer =>
    refine hs.set (fun _ _ _ _ => rfl) ?_ ?_
    · cases answer with
      | none => exact .inl rfl
      | some desc => exact hq.imp Eq.symm And.right
    · rintro b ⟨⟩
      refine (hs.thread _ _ h).getError ?_
      cases answer with
      | none => exact hq.resolve_right fun hn => nomatch hn.1
      | some desc => rfl
  | clearError h =>
    refine hs.set (fun _ _ _ _ => rfl) (hq.imp_left Eq.symm) ?_
    rintro b ⟨⟩
    exact (hs.thread _ _ h).clearError
  | @ret t op r o h =>
    have hb := hs.thread _ _ h
    have hset := hs.set (t := t) (fun _ _ _ _ => rfl) (.inl rfl) (nofun : ∀ b, none = some b → _)
    refine ⟨hset.thread, ?_⟩
    rintro r ⟨⟩
    exact ⟨hb.staged, hb.settled trivial⟩
  | other h code h₀ =>
    refine ⟨fun u b hu => ?_, hs.last⟩
    exact (hs.thread u b hu).congr (fun hw => Spares.keeps hq hs hu hw) fun _ => rfl

/-- **The error of a file operation.** After quiet steps, an operation that has returned gives its
failure value if its last command failed, and `fs_get_error` the non-zero code of that failure, or 0
after a success. -/
theorem error_of_operation {hist : List (State τ × Label τ × State τ)} {r : Returned}
    (h : Walk Step (State.init τ) hist s) (hq : All Quiet hist) (hr : s.last = some r) :
    r.op.Reports r.outcome.ok r.reply ∧ r.outcome.Matches s.fsGetError := by
  have hs : Fits s := h.invariant (fits_init τ) (fun s l s' hs h hq => h.fits hs hq) hq
  exact ⟨(hs.last r hr).reports, (hs.last r hr).error⟩

/-- A failed `fs_close` while another thread's command fails without a code. -/
theorem error_of_operation_close : ∃ (s : State Bool) (r : Returned),
    r.op = .close 5 ∧ r.outcome = .failed (some 420) ∧ s.last = some r ∧
      r.op.Reports r.outcome.ok r.reply ∧ r.outcome.Matches s.fsGetError := by
  have h₁ := Walk.nil.cons (Step.start (s := State.init Bool) (t := true) (.close 5) rfl)
  have h₂ := h₁.cons (.exchange (t := true) rfl rfl nsapiErrorDeviceError (some 420) nofun)
  have h₃ := h₂.cons (.other (t := false) rfl none nofun)
  have h₄ := h₃.cons (.getError (t := true) rfl (some "invalid handle"))
  have h := h₄.cons (.ret (t := true) rfl)
  refine ⟨_, _, rfl, rfl, rfl, error_of_operation h ?_ rfl⟩
  refine all_cons.mpr ⟨trivial, all_cons.mpr ⟨.inr ⟨rfl, ?_⟩, all_cons.mpr ⟨nofun, ?_⟩⟩⟩
  · rintro (h | ⟨_ | _, b, hb, hs⟩)
    · cases h
    · cases hb
    · cases hb
      exact hs
  · refine all_cons.mpr ⟨⟨?_, fun _ _ _ => nofun⟩, all_cons.mpr ⟨trivial, all_nil⟩⟩
    rintro _ _ (_ | _) b hb hw
    · cases hb
    · cases hb
      exact nomatch hw.2

/-- Another thread's command fails between a failed `fs_open` and its question for the error. -/
theorem error_of_operation_mixed : ¬ ∀ (hist : List (State Bool × Label Bool × State Bool))
    (s : State Bool), Walk Step (State.init Bool) hist s → ∀ r, s.last = some r →
      r.op.Reports r.outcome.ok r.reply ∧ r.outcome.Matches s.fsGetError := by
  intro hall
  have h₁ := Walk.nil.cons
    (Step.start (s := State.init Bool) (t := true) (.open "a" .existonlyRo) rfl)
  have h₂ := h₁.cons (.exchange (t := true) rfl rfl (nsapiErrorDeviceError, some 0)
    (some 417) nofun)
  have h₃ := h₂.cons (.other (t := false) rfl (some 563) nofun)
  have h₄ := h₃.cons (.getError (t := true) rfl (some "Socket identity has been used"))
  have h₅ := h₄.cons (.ret (t := true) rfl)
  obtain ⟨e, he, -, hn⟩ := (hall _ _ h₅ _ rfl).2
  cases he
  exact absurd hn (by decide)

end Bg96.File
