import BG96Driver.File.RoundTrip
import BG96Driver.Lib.Walk

/-!
# Truncation

`fs_truncate` neither sends its offset nor moves the position of the handle. The module cuts the
file at the position that the reads, writes and seeks before have left.

* `cut`, `cutting`: a module that cuts a file at the position of its handle.
* `KeepsOpen`: files stay there and handles stay open, in every call (`keeps_step`).
* `moving`: an operation that moves a position. `Truncates`: what a truncation is to do.
* `truncate_iff`: after every history, the file is cut where asked if and only if the position that
  the history has left is the offset, or beyond the end of the file that is to stay as it is.
-/

namespace Bg96.File

open Program Modem Transitions

/-! ## The module -/

/-- The module cuts the file of a handle at the position of the handle. -/
def cut (s : Storage) (fh : Int) : Storage :=
  match s.handles fh with
  | some h =>
    { s with files := Function.update s.files h.name (some ((s.bytesOf h).take h.pos)) }.tell okLine
  | none => s.refuse

/-- What a module that cuts files does with a command. -/
def CutsOrAnswers (checksum : List UInt8 → Nat) (mayRefuse : Format → Prop) (s : Storage)
    (cmd : Format) (s' : Storage) : Prop :=
  match cmd with
  | ⟨"AT+QFTUCAT=%ld", [.int fh]⟩ => s' = cut s fh
  | cmd => Answers checksum mayRefuse s cmd s'

/-- The serial line with a module that cuts files. -/
def cutting (checksum : List UInt8 → Nat) (mayRefuse : Format → Prop) :
    Env Storage Modem.Call Modem.Call.Reply := fun s c r s' =>
  match c, r with
  | .send cmd, r => r = true ∧ CutsOrAnswers checksum mayRefuse s cmd s'
  | c, r => serial checksum mayRefuse s c r s'

/-- The handle is open, and the file is there. -/
def IsOpen (s : Storage) (fh : Int) : Prop :=
  ∃ h, s.handles fh = some h ∧ (s.files h.name).isSome

/-- Files stay there, and handles stay open. -/
structure KeepsOpen (s s' : Storage) : Prop where
  files : ∀ name, (s.files name).isSome → (s'.files name).isSome
  handles : ∀ fh h, s.handles fh = some h → ∃ pos, s'.handles fh = some { h with pos := pos }

section KeepsOpen

variable {s t u : Storage} {fh : Int} {h : Handle} {name : String} {content : List UInt8}
  {pos : Nat}

theorem KeepsOpen.trans (hst : KeepsOpen s t) (htu : KeepsOpen t u) : KeepsOpen s u := by
  refine ⟨fun name hs => htu.files name (hst.files name hs), fun fh h hopen => ?_⟩
  obtain ⟨pos, ht⟩ := hst.handles fh h hopen
  exact htu.handles fh ⟨h.name, pos⟩ ht

theorem KeepsOpen.isOpen (hk : KeepsOpen s t) (hopen : IsOpen s fh) : IsOpen t fh := by
  obtain ⟨h, hs, hfile⟩ := hopen
  obtain ⟨pos, ht⟩ := hk.handles fh h hs
  exact ⟨_, ht, hk.files h.name hfile⟩

/-- The files and the handles are the same. -/
theorem KeepsOpen.same (hfiles : t.files = s.files) (hhandles : t.handles = s.handles) :
    KeepsOpen s t := by
  refine ⟨fun name hs => ?_, fun fh h hopen => ⟨h.pos, ?_⟩⟩
  · rwa [hfiles]
  · rwa [hhandles]

/-- A file is stored. -/
theorem KeepsOpen.store (hfiles : t.files = Function.update s.files name (some content))
    (hhandles : t.handles = s.handles) : KeepsOpen s t := by
  refine ⟨fun name' hs => ?_, fun fh h hopen => ⟨h.pos, ?_⟩⟩
  · rw [hfiles]
    by_cases heq : name' = name
    · rw [heq, Function.update_self]
      rfl
    · rwa [Function.update_of_ne heq]
  · rwa [hhandles]

/-- A position is moved. -/
theorem KeepsOpen.move (hopen : s.handles fh = some h) (hfiles : t.files = s.files)
    (hhandles : t.handles = Function.update s.handles fh (some ⟨h.name, pos⟩)) : KeepsOpen s t := by
  refine ⟨fun name hs => ?_, fun fh' h' hopen' => ?_⟩
  · rwa [hfiles]
  · rw [hhandles]
    by_cases heq : fh' = fh
    · subst heq
      obtain rfl : h = h' := Option.some.inj (hopen.symm.trans hopen')
      exact ⟨pos, Function.update_self ..⟩
    · exact ⟨h'.pos, (Function.update_of_ne heq ..).trans hopen'⟩

theorem keeps_cut (s : Storage) (fh : Int) : KeepsOpen s (cut s fh) := by
  unfold cut
  split
  · exact .store rfl rfl
  · exact .same rfl rfl

variable (checksum : List UInt8 → Nat)

theorem keeps_take (s : Storage) (target : Incoming) (n : Nat) (got : List UInt8) :
    KeepsOpen s (s.take checksum target n got) := by
  unfold Storage.take
  split
  · cases target with
    | upload name => exact .store rfl rfl
    | write fh =>
      unfold Storage.store
      dsimp only
      split
      · rename_i h hopen
        let content := overwrite (s.bytesOf h) h.pos got
        have hstore : KeepsOpen s
            { s with files := Function.update s.files h.name (some content) } := .store rfl rfl
        exact hstore.trans (.move hopen rfl rfl)
      · exact .same rfl rfl
  · exact .same rfl rfl

theorem keeps_put (s : Storage) (c : UInt8) : KeepsOpen s (s.put checksum c) := by
  unfold Storage.put
  split
  · exact keeps_take ..
  · exact .same rfl rfl

theorem keeps_answer (s : Storage) (cmd : Format) : KeepsOpen s (s.answer checksum cmd) := by
  have hconnect (target : Incoming) (n : Nat) :
      KeepsOpen s ((s.tell (connectLine [])).take checksum target n []) := by
    have htell : KeepsOpen s (s.tell (connectLine [])) := .same rfl rfl
    exact htell.trans (keeps_take ..)
  unfold Storage.answer
  split
  · split
    · exact hconnect ..
    · exact .same rfl rfl
  · split <;> exact .same rfl rfl
  · split <;> exact .same rfl rfl
  · split
    · exact hconnect ..
    · exact .same rfl rfl
  · split
    · exact .move ‹_› rfl rfl
    · exact .same rfl rfl
  · split
    · exact .move ‹_› rfl rfl
    · exact .same rfl rfl
  · exact .same rfl rfl

end KeepsOpen

variable {checksum : List UInt8 → Nat} {mayRefuse : Format → Prop} {s s' : Storage}

/-- No call closes a handle or takes a file away. -/
theorem keeps_step {c : Modem.Call} {r : c.Reply} (h : cutting checksum mayRefuse s c r s') :
    KeepsOpen s s' := by
  cases c with
  | send cmd =>
    obtain ⟨-, h⟩ := h
    unfold CutsOrAnswers at h
    split at h
    · obtain rfl := h
      exact keeps_cut ..
    · obtain rfl | ⟨-, rfl | ⟨-, more, rfl⟩⟩ := h
      · exact keeps_answer ..
      · exact .same rfl rfl
      · exact .same rfl rfl
  | recv pattern =>
    obtain ⟨-, rfl⟩ := h
    exact .same rfl rfl
  | getc =>
    obtain ⟨-, rfl⟩ := h
    exact .same rfl rfl
  | putc c =>
    obtain rfl : s' = s.put checksum c := h
    exact keeps_put ..
  | _ =>
    obtain rfl : s' = s := h
    exact .same rfl rfl

theorem cutting_answers (s : Storage) (c : Modem.Call) :
    ∃ r s', cutting checksum mayRefuse s c r s' := by
  cases c with
  | send cmd =>
    obtain ⟨s', h⟩ : ∃ s', CutsOrAnswers checksum mayRefuse s cmd s' := by
      unfold CutsOrAnswers
      split
      · exact ⟨_, rfl⟩
      · exact ⟨_, .inl rfl⟩
    exact ⟨true, s', rfl, h⟩
  | _ => exact @serial_answers checksum mayRefuse s _

/-! ## The cut -/

/-- The operations that move the position of a handle. -/
def Moves : Op → Prop
  | .read .. | .write .. | .seek .. | .rewind _ | .eof _ => True
  | _ => False

section Truncate

variable (checksum : List UInt8 → Nat) (mayRefuse : Format → Prop)

/-- An operation that moves a position, whether it succeeds or not. -/
def moving (s : Storage) (op : Op) (s' : Storage) : Prop :=
  Moves op ∧ ∃ error r, Runs (cutting checksum mayRefuse) (op.at error) s (some r) s'

/-- A truncation that returns `true` leaves the first `offset` bytes of the file. -/
def Truncates (s : Storage) (fh : Int) (offset : Nat) (name : String) (content : List UInt8) :
    Prop :=
  ∀ error, wp (cutting checksum mayRefuse) False
    (fun r s' => r.1 = true → s'.files name = some (content.take offset))
    ((Op.truncate fh offset).at error) s

end Truncate

/-- Handles stay open in every operation. -/
theorem moving_isOpen {fh : Int} {op : Op} (h : moving checksum mayRefuse s op s')
    (hopen : IsOpen s fh) : IsOpen s' fh := by
  obtain ⟨-, error, r, hrun⟩ := h
  have hkeeps : Leads (cutting checksum mayRefuse) True KeepsOpen (op.at error) :=
    leads_of_step (fun _ => .same rfl rfl) (fun _ _ _ => .trans) (fun _ _ _ _ h => keeps_step h) _
  exact (hrun.ends (hkeeps s)).isOpen hopen

theorem command_cut {fh : Int} {h : Handle} (hopen : s.handles fh = some h) :
    wp (cutting checksum mayRefuse) False (fun done s' =>
        done = true ∧ s'.files h.name = some ((s.bytesOf h).take h.pos))
      (command ⟨"AT+QFTUCAT=%ld", [.int fh]⟩) s := by
  rintro _ _ ⟨rfl, rfl⟩ r t ⟨rfl, rfl⟩
  rw [cut, hopen]
  have hline : (s.unread ++ [Scanf.cr]) ++ Scanf.lf :: (Scanf.bytes "OK" ++ crlf) =
      s.unread ++ okLine := by
    simp [okLine, answerLine, crlf]
  have hok := received_ok_isSome (s.unread ++ [Scanf.cr]) crlf
  rw [hline] at hok
  exact ⟨hok, Function.update_self ..⟩

/-- A truncation always succeeds, and cuts the file at the position of the handle. -/
theorem truncateFile_spec {fh : Int} {h : Handle} (offset : Nat) (error : FsError)
    (hopen : s.handles fh = some h) :
    wp (cutting checksum mayRefuse) False (fun r s' =>
        r.1 = true ∧ s'.files h.name = some ((s.bytesOf h).take h.pos))
      ((Op.truncate fh offset).at error) s := by
  refine wp_reporting_ret isOk (fun _ => rfl) ?_
  show wp _ _ _ (Modem.fsTruncate fh offset >>= _) _
  rw [wp_bind]
  show wp _ _ _ (locked _ >>= _) _
  rw [wp_bind]
  refine wp_locked (fun _ _ _ => id) (fun _ _ _ => id) (wp_timed (fun _ _ _ _ => id) ?_)
  refine wp_mono (command_cut hopen) ?_
  rintro _ s' ⟨rfl, hfiles⟩
  exact ⟨rfl, hfiles⟩

/-- After a history, the file is cut where asked if and only if the position is the offset, where a
position beyond the end counts as the end. -/
theorem truncates_iff {fh : Int} {name : String} {pos offset : Nat} {content : List UInt8}
    (hopen : s.handles fh = some ⟨name, pos⟩) (hfile : s.files name = some content)
    (hle : offset ≤ content.length) :
    Truncates checksum mayRefuse s fh offset name content ↔ min pos content.length = offset := by
  have hbytes : s.bytesOf ⟨name, pos⟩ = content := by rw [Storage.bytesOf, hfile]; rfl
  have htake : content.take pos = content.take offset ↔ min pos content.length = offset := by
    rw [List.take_eq_take_iff, Nat.min_eq_left hle]
  constructor
  · intro h
    obtain ⟨r, s', -, ⟨htrue, hcut⟩, hasked⟩ :=
      exists_run cutting_answers (wp_and (truncateFile_spec offset noError hopen) (h noError))
    rw [hbytes] at hcut
    exact htake.mp (Option.some.inj (hcut.symm.trans (hasked htrue)))
  · intro heq error
    refine wp_mono (truncateFile_spec offset error hopen) ?_
    rintro r s' ⟨-, hcut⟩ -
    rw [hcut, hbytes, htake.mpr heq]

/-- **Truncation.** After every history of reads, writes and seeks the handle is open, and a
truncation that returns `true` leaves the first `offset` bytes of the file if and only if the
history has left the handle at `offset`. -/
theorem truncate_iff (checksum : List UInt8 → Nat) (mayRefuse : Format → Prop) {s₀ s : Storage}
    {hist : List (Storage × Op × Storage)} {fh : Int} (hopen : IsOpen s₀ fh)
    (hwalk : Walk (moving checksum mayRefuse) s₀ hist s) :
    ∃ name pos content, s.handles fh = some ⟨name, pos⟩ ∧ s.files name = some content ∧
      ∀ offset ≤ content.length, Truncates checksum mayRefuse s fh offset name content ↔
        min pos content.length = offset := by
  obtain ⟨⟨name, pos⟩, hs, hsome⟩ :=
    hwalk.keeps hopen fun s op s' hs hmove => moving_isOpen hmove hs
  obtain ⟨content, hfile⟩ := Option.isSome_iff_exists.mp hsome
  exact ⟨name, pos, content, hs, hfile, fun _ hle => truncates_iff hs hfile hle⟩

/-- A file of five bytes, whose handle is at a position. -/
def fiveBytes (pos : Nat) : Storage :=
  ⟨[], fun _ => some (Scanf.bytes "hello"), fun _ => some ⟨"a.txt", pos⟩, none⟩

/-- A command is carried out where it can be. -/
def obey (s : Storage) : Format → Storage
  | ⟨"AT+QFTUCAT=%ld", [.int fh]⟩ => cut s fh
  | cmd => s.answer (fun _ => 0) cmd

/-- The answers of a module that obeys. -/
def obeying (s : Storage) : (c : Modem.Call) → c.Reply × Storage
  | .send cmd => (true, obey s cmd)
  | .recv pattern => ((received pattern s.unread).1,
      { s with unread := (received pattern s.unread).2 })
  | .getc => (s.unread.head?, { s with unread := s.unread.tail })
  | .putc c => ((0 : Int), s.put (fun _ => 0) c)
  | .read _ => (((0 : Int), []), s)
  | .write _ | .readMs _ => ((0 : Int), s)
  | .readable | .writable => (true, s)
  | .lock | .unlock | .setTimeout _ | .flush | .debugOn _ => ((), s)

/-- The module after an operation. -/
def afterOp (s : Storage) (op : Op) : Storage := ((op.at noError).eval obeying s).2

theorem cutting_obeying (s : Storage) (c : Modem.Call) :
    cutting (fun _ => 0) MayRefuse s c (obeying s c).1 (obeying s c).2 := by
  cases c with
  | send cmd =>
    refine ⟨rfl, ?_⟩
    show CutsOrAnswers _ _ s cmd (obey s cmd)
    unfold CutsOrAnswers
    split
    · rfl
    · rename_i hcmd
      refine .inl ?_
      unfold obey
      split
      · exact absurd rfl (hcmd _)
      · rfl
  | recv | getc => exact ⟨rfl, rfl⟩
  | _ => rfl

theorem moving_afterOp {op : Op} (hop : Moves op)
    (hreturns : ((op.at noError).eval obeying s).1.isSome = true) :
    moving (fun _ => 0) MayRefuse s op (afterOp s op) := by
  obtain ⟨r, hr⟩ := Option.isSome_iff_exists.mp hreturns
  have hrun := runs_eval cutting_obeying (op.at noError) s
  rw [hr] at hrun
  exact ⟨hop, noError, r, hrun⟩

/-- The handle has been moved to the second byte, and then two bytes have been read. -/
def movedToThird : Storage := afterOp (afterOp (fiveBytes 0) (.seek 0 1)) (.read 0 2)

/-- After these operations the file is cut after three bytes. -/
theorem truncate_iff_moved : Truncates (fun _ => 0) MayRefuse movedToThird 0 3 "a.txt"
    (Scanf.bytes "hello") := by
  have hopen : IsOpen (fiveBytes 0) 0 := ⟨⟨"a.txt", 0⟩, rfl, rfl⟩
  have hseek : moving (fun _ => 0) MayRefuse (fiveBytes 0) (.seek 0 1)
      (afterOp (fiveBytes 0) (.seek 0 1)) := moving_afterOp trivial (by decide +kernel)
  have hread : moving (fun _ => 0) MayRefuse (afterOp (fiveBytes 0) (.seek 0 1)) (.read 0 2)
      movedToThird := moving_afterOp trivial (by decide +kernel)
  obtain ⟨name, pos, content, hs, hfile, hiff⟩ :=
    truncate_iff (fun _ => 0) MayRefuse hopen (.cons (.cons .nil hseek) hread)
  have hhandle : movedToThird.handles 0 = some ⟨"a.txt", 3⟩ := rfl
  have hcontent : movedToThird.files "a.txt" = some (Scanf.bytes "hello") := rfl
  cases hs.symm.trans hhandle
  cases hfile.symm.trans hcontent
  exact (hiff 3 (by decide)).mpr (by decide)

/-- A handle at the start of its file, which is to be cut after three bytes. -/
theorem truncate_iff_start : ¬ ∀ (checksum : List UInt8 → Nat) (mayRefuse : Format → Prop)
    (s₀ s : Storage) (hist : List (Storage × Op × Storage)) (fh : Int) (name : String) (pos : Nat)
    (content : List UInt8) (offset : Nat), Walk (moving checksum mayRefuse) s₀ hist s →
      s.handles fh = some ⟨name, pos⟩ → s.files name = some content → offset ≤ content.length →
        Truncates checksum mayRefuse s fh offset name content := fun h => by
  have hcuts := h (fun _ => 0) MayRefuse (fiveBytes 0) (fiveBytes 0) [] 0 "a.txt" 0
    (Scanf.bytes "hello") 3 .nil rfl rfl (by decide)
  exact absurd ((truncates_iff rfl rfl (by decide)).mp hcuts) (by decide)

end Bg96.File
