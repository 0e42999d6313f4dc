import BG96Driver.Modem.Verdict

/-!
# Operations one after the other

* `ReachedSession`: the runs of operations against the module, from the constructor on, whose steps
  meet a condition.
* `own`: the command that decides a success.
* `Tidy`: the operations that may leave an `OK` (`Op.MayLeave`) leave none to the next one, and
  `connect` none to its last command. Then each success is that of the operation's own command
  (`own_verdict`).
-/

namespace Bg96.Modem

open Program

/-- An operation of a run: has it reported a success, and what did it send? -/
structure Step where
  op : Op
  success : Bool
  log : List Sent

/-- A condition on a step: the steps before it (the last one first), the object and the unread input
before it, the operation, and what it sends. -/
abbrev Condition := List Step → BG96 → List Item → Op → List Sent → Prop

/-- The runs of operations that return, with the object and the unread input after them. -/
inductive ReachedSession (scan : Format → Line → Option (List Value)) (P : Condition) :
    List Step → BG96 → List Item → Prop where
  | start : ReachedSession scan P [] .ctor []
  | step {steps : List Step} {self self' : BG96} {input input' : List Item} {n : Nat} {op : Op}
    {success : Bool} {log : List Sent} (h : ReachedSession scan P steps self input)
    (hrun : Runs (channel scan) (op.prog n self) ⟨input, []⟩ (some (self', success)) ⟨input', log⟩)
    (hP : P steps self input op log) :
    ReachedSession scan P (⟨op, success, log⟩ :: steps) self' input'

/-- The command whose `OK` a success rests on: the first one of `open`, the last one of the other
operations. -/
def own : Op → List Sent → Option Sent
  | .open .., log => log.getLast?
  | _, log => log.head?

/-- No `OK` is left to the operation by one that may leave it, nor to the command with which
`connect` activates the context. -/
def Tidy : Condition := fun steps self input op log =>
  (∀ step, steps.head? = some step → step.op.MayLeave → oks input = 0) ∧
    ∀ apn username password, op = .connect apn username password →
      ∀ e ∈ log, e.cmd = qiact self → e.clean = true

variable {scan : Format → Line → Option (List Value)} {steps : List Step} {self : BG96}
  {input : List Item}

theorem own_head {op : Op} (hop : ∀ type id addr port, op ≠ .open type id addr port)
    (log : List Sent) : own op log = log.head? := by
  cases op with
  | «open» type id addr port => exact absurd rfl (hop type id addr port)
  | _ => rfl

/-- An operation that begins with no `OK` unread reports a success of its own command. -/
theorem own_spec (hscan : ScansOk scan) (n : Nat) (self : BG96) (op : Op) (hinput : oks input = 0) :
    wp (channel scan) True (fun r s => Tidy [] self input op s.log → r.2 = true →
      ∃ e, own op s.log = some e ∧ e.ok = true) (op.prog n self) ⟨input, []⟩ := by
  -- the operations that report no success
  have hfinish {γ : Type} (p : At γ) : wp (channel scan) True
      (fun r s => Tidy [] self input op s.log → r.2 = true →
        ∃ e, own op s.log = some e ∧ e.ok = true) (finish self p) ⟨input, []⟩ :=
    (wp_bind _).mpr (wp_of_forall trivial (fun _ _ _ h => nomatch h) _ _)
  by_cases hop : op.MayLeave
  · cases op with
    | connect apn username password =>
      refine (wp_bind _).mpr (wp_mono (connect_spec hscan self n apn username password _) ?_)
      intro rc s hs htidy hrc
      obtain ⟨e, hhead, hcmd, hok⟩ := hs (of_decide_eq_true hrc)
      exact ⟨e, hhead, hok (htidy.2 _ _ _ rfl e (List.mem_of_head? hhead) hcmd)⟩
    | «open» type id addr port =>
      refine (wp_bind _).mpr (wp_mono (open_spec hscan self n type id addr port hinput) ?_)
      exact fun ok s hs _ hok => hs hok
    | recv id cnt =>
      refine (wp_bind _).mpr (wp_mono (recv_acked hscan id cnt hinput) ?_)
      exact fun r s hs _ hr => hs (of_decide_eq_true hr)
    | updateGnssLoc =>
      refine (wp_bind _).mpr (wp_of_forall trivial (fun r s => ?_) _ _)
      exact fun _ h => nomatch h
    | _ => first | exact hfinish _ | exact hop.elim
  · have hne : ∀ type id addr port, op ≠ .open type id addr port := by
      rintro type id addr port rfl
      exact hop trivial
    refine wp_mono (verdict_prog hscan n self hop ⟨input, []⟩ hinput) fun r s hs _ hr => ?_
    rw [own_head hne]
    exact hs.2 hr

/-- What holds after each step of a tidy run. -/
theorem reached_spec (hscan : ScansOk scan) (hr : ReachedSession scan Tidy steps self input) :
    (∀ step ∈ steps, step.success = true → ∃ e, own step.op step.log = some e ∧ e.ok = true) ∧
      ((∀ step, steps.head? = some step → ¬ step.op.MayLeave) → oks input = 0) := by
  induction hr with
  | start => exact ⟨nofun, fun _ => rfl⟩
  | @step steps self self' input input' n op success log h hrun hP ih =>
    have hinput : oks input = 0 := by
      by_cases hlast : ∃ step, steps.head? = some step ∧ step.op.MayLeave
      · obtain ⟨step, hstep, hleave⟩ := hlast
        exact hP.1 step hstep hleave
      · exact ih.2 fun step hstep hleave => hlast ⟨step, hstep, hleave⟩
    constructor
    · intro step hstep hsuccess
      rcases List.mem_cons.mp hstep with rfl | hstep
      · exact hrun.ends (own_spec hscan n self op hinput) ⟨nofun, hP.2⟩ hsuccess
      · exact ih.1 step hstep hsuccess
    · intro hlast
      have hop : ¬ op.MayLeave := hlast _ rfl
      exact (hrun.ends (verdict_prog hscan n self hop ⟨input, []⟩ hinput)).1

/-- **Each success is that of the operation's own command**, in a run whose steps are tidy. -/
theorem own_verdict (hscan : ScansOk scan) (hr : ReachedSession scan Tidy steps self input) :
    ∀ step ∈ steps, step.success = true → ∃ e, own step.op step.log = some e ∧ e.ok = true :=
  (reached_spec hscan hr).1

/-! A file that is asked for its offset, and then sought in. -/

/-- A line with the offset 5. -/
def offsetLine : InfoLine := ⟨"+QFPOSITION: 5", by simp⟩

/-- The matching of the patterns `OK` and `+QFPOSITION: %u`. -/
def scanOffset (pattern : Format) : Line → Option (List Value)
  | .ok => if pattern.text = "OK" then some [] else none
  | .error => none
  | .text l =>
    if pattern.text = "+QFPOSITION: %u\r\n" ∧ l = offsetLine then some [.int 5] else none

theorem scansOk_scanOffset : ScansOk scanOffset := by
  intro l
  cases l <;> simp [scanOffset, okFormat]

/-- The commands that are sent: the first one when no `OK` is unread. -/
def askOffset (ok : Bool) : Sent := ⟨⟨"AT+QFPOSITION=%ld", [.int 1]⟩, true, ok⟩

def seekStart (clean ok : Bool) : Sent :=
  ⟨⟨"AT+QFSEEK=%ld,%u,%d", [.int 1, .int 0, .int 0]⟩, clean, ok⟩

theorem channel_answer (s : Channel) (cmd : Format) (a : Answer) :
    channel scan s (.send cmd) true ⟨s.input ++ a.items, ⟨cmd, oks s.input = 0, a.ok⟩ :: s.log⟩ :=
  ⟨[], a, by simp⟩

theorem channel_receive (s : Channel) (pattern : Format) :
    channel scan s (.recv pattern) (receive scan pattern s.input).1
      ⟨(receive scan pattern s.input).2, s.log⟩ := ⟨[], by simp, rfl⟩

/-- The offset is not given, and the seek succeeds. -/
theorem reached_seekAfterError :
    ReachedSession scanOffset Tidy [⟨.fsSeek 1 0 0, true, [seekStart true true]⟩,
      ⟨.fsGetOffset 1, false, [askOffset false]⟩] .ctor [] := by
  have hask : ReachedSession scanOffset Tidy [⟨.fsGetOffset 1, false, [askOffset false]⟩] .ctor
      [] := by
    refine .step (n := 0) .start ?_ ⟨nofun, nofun⟩
    refine .call (r := ()) ⟨[], rfl⟩ <| .call (channel_answer _ _ ⟨[], false, []⟩) <|
      .call (channel_receive _ _) <| .call (r := ()) ⟨[], rfl⟩ ?_
    exact .ret (BG96.ctor, false) _
  refine .step (n := 0) hask ?_ ⟨fun _ _ _ => rfl, nofun⟩
  refine .call (r := ()) ⟨[], rfl⟩ <| .call (channel_answer _ _ ⟨[], true, []⟩) <|
    .call (channel_receive _ _) <| .call (r := ()) ⟨[], rfl⟩ ?_
  exact .ret (BG96.ctor, true) _

theorem own_verdict_seekAfterError :
    ∃ e, own (.fsSeek 1 0 0) [seekStart true true] = some e ∧ e.ok = true :=
  own_verdict scansOk_scanOffset reached_seekAfterError _ List.mem_cons_self rfl

/-- The `OK` that `fsGetOffset` leaves is taken for that of the seek, which has failed. -/
theorem own_verdict_seekAfterOffset :
    ∃ steps self input, ReachedSession scanOffset (fun _ _ _ _ _ => True) steps self input ∧
      ∃ step ∈ steps, step.success = true ∧ ∃ e, own step.op step.log = some e ∧ e.ok = false := by
  refine ⟨[⟨.fsSeek 1 0 0, true, [seekStart false false]⟩,
    ⟨.fsGetOffset 1, false, [askOffset true]⟩], .ctor, [.line .error], ?_,
    _, List.mem_cons_self, rfl, seekStart false false, rfl, rfl⟩
  have hask : ReachedSession scanOffset (fun _ _ _ _ _ => True)
      [⟨.fsGetOffset 1, false, [askOffset true]⟩] .ctor [.line .ok] := by
    refine .step (n := 0) .start ?_ trivial
    refine .call (r := ()) ⟨[], rfl⟩ <| .call (channel_answer _ _ ⟨[.text offsetLine], true, []⟩) <|
      .call (channel_receive _ _) <| .call (r := ()) ⟨[], rfl⟩ ?_
    exact .ret (BG96.ctor, false) _
  refine .step (n := 0) hask ?_ trivial
  refine .call (r := ()) ⟨[], rfl⟩ <| .call (channel_answer _ _ ⟨[], false, []⟩) <|
    .call (channel_receive _ _) <| .call (r := ()) ⟨[], rfl⟩ ?_
  exact .ret (BG96.ctor, true) _

end Bg96.Modem
