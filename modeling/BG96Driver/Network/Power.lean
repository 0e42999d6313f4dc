import BG96Driver.Lib.Walk
import BG96Driver.Network.Interface

/-!
# The power of the module and the open files

`_power_off` counts the calls of `allowPowerOff` against those of `disallowPowerOff`, and
`_power_off_allowed` is what `powerDown` looks at. `allowPowerOff` always sets it, and
`disallowPowerOff` only clears it when the count comes down to 0 exactly. `fs_open` disallows also
when it fails.

* `State`, `Turn`: the interface with the counts that the application can make, and its steps.
* `Kept`: the count is right, and `powerDown` does nothing while a file is open.
* `Calm`: the steps that keep it. `power_kept_iff`: they are the only ones.
-/

namespace Bg96.Network

open Program Transitions

/-- The interface, and what the application knows: its calls of `allowPowerOff` and of
`disallowPowerOff`, and the files that it has opened and not closed. -/
structure State where
  self : BG96Interface
  allows : Nat
  disallows : Nat
  handles : Nat

/-- The constructor's state. -/
def State.init (powerOffAllowed : Bool) : State := ⟨.ctor powerOffAllowed, 0, 0, 0⟩

/-- What the application does. A file operation has its result. -/
inductive Label where
  | allow
  | disallow
  | powerDown
  | file (op : File.Op) (r : op.Reply)

/-- The calls give anything. -/
def anything : Env Unit Call Call.Reply := fun _ _ _ _ => True

/-- The open files after an operation: a failed `fs_open` opens none, and `fs_close` closes one. -/
def handlesAfter (handles : Nat) : (op : File.Op) → op.Reply → Nat
  | .open .., r => if r.1 then handles + 1 else handles
  | .close _, _ => handles - 1
  | _, _ => handles

/-- A step. -/
inductive Turn : State → Label → State → Prop where
  | allow (s : State) :
    Turn s .allow { s with self := allowPowerOff s.self, allows := s.allows + 1 }
  | disallow (s : State) :
    Turn s .disallow { s with self := disallowPowerOff s.self, disallows := s.disallows + 1 }
  | powerDown {s : State} {self' : BG96Interface} {off : Bool}
    (h : Runs anything (powerDown s.self) () (some (self', off)) ()) :
    Turn s .powerDown { s with self := self' }
  | file {s : State} {self' : BG96Interface} {op : File.Op} {r : op.Reply}
    (h : Runs anything (fileOp s.self op) () (some (self', r)) ()) :
    Turn s (.file op r) { s with self := self', handles := handlesAfter s.handles op r }

/-- The count is what the application expects, and while a file is open `powerDown` returns `false`
and makes no call. -/
structure Kept (s : State) : Prop where
  count : s.self.powerOff = s.allows - s.disallows - s.handles
  on : 0 < s.handles → powerDown s.self = pure (s.self, false)

/-- The steps that keep it: `fs_open` succeeds, with the count at 1 or the power off not allowed;
`fs_close` closes the only open file; what ends with `allowPowerOff` runs with no open file. -/
def Calm (s : State) : Label → Prop
  | .allow => s.handles = 0
  | .disallow | .powerDown => True
  | .file (.open ..) r =>
    r.1 = true ∧ (s.self.powerOff = 1 ∨ s.self.powerOffAllowed = false)
  | .file (.close _) _ => s.handles = 1
  | .file (.read ..) _ | .file (.write ..) _ | .file (.seek ..) _ | .file (.rewind _) _
  | .file (.eof _) _ | .file (.getOffset _) _ | .file (.truncate ..) _ => True
  | .file _ _ => s.handles = 0

/-! ## What the functions do -/

variable {self self' : BG96Interface} {op : File.Op} {s s' : State} {l : Label}

/-- What an operation does to the members. -/
def opPower (self : BG96Interface) : File.Op → BG96Interface
  | .open .. => disallowPowerOff self
  | .close _ => allowPowerOff self
  | .read .. | .write .. | .seek .. | .rewind _ | .eof _ | .getOffset _ | .truncate .. => self
  | _ => allowPowerOff (disallowPowerOff self)

theorem fileOp_self {r : op.Reply}
    (h : Runs anything (fileOp self op) () (some (self', r)) ()) : self' = opPower self op := by
  have hwp : wp anything False (fun a _ => a.1 = opPower self op) (fileOp self op) () := by
    cases op <;> exact fun _ _ _ => rfl
  exact h.ends hwp

theorem powerDown_power {off : Bool}
    (h : Runs anything (powerDown self) () (some (self', off)) ()) :
    self'.powerOff = self.powerOff ∧ self'.powerOffAllowed = self.powerOffAllowed := by
  have hwp : wp anything False (fun a _ => a.1.powerOff = self.powerOff ∧
      a.1.powerOffAllowed = self.powerOffAllowed) (powerDown self) () := by
    unfold powerDown
    split
    · exact ⟨rfl, rfl⟩
    · exact fun _ _ _ _ _ _ _ _ _ => ⟨rfl, rfl⟩
  exact h.ends hwp

/-- `powerDown` does nothing if and only if it is not allowed. -/
theorem powerDown_eq_iff : powerDown self = pure (self, false) ↔ self.powerOffAllowed = false := by
  unfold powerDown
  split
  · exact iff_of_true rfl ‹_›
  · exact iff_of_false nofun ‹_›

theorem kept_iff : Kept s ↔ s.self.powerOff = s.allows - s.disallows - s.handles ∧
    (0 < s.handles → s.self.powerOffAllowed = false) := by
  rw [← powerDown_eq_iff]
  exact ⟨fun h => ⟨h.count, h.on⟩, fun h => ⟨h.1, h.2⟩⟩

/-! ## Steps and runs -/

theorem kept_init (powerOffAllowed : Bool) : Kept (.init powerOffAllowed) :=
  kept_iff.mpr ⟨rfl, fun h => absurd h (Nat.lt_irrefl 0)⟩

/-- **Step.** From a state with the property, a step leads to one with it if and only if it is
calm. -/
theorem Turn.kept_iff (h : Turn s l s') (hs : Kept s) : Kept s' ↔ Calm s l := by
  obtain ⟨hcount, hon⟩ := Network.kept_iff.mp hs
  rw [Network.kept_iff]
  cases h with
  | allow => simp [allowPowerOff, Calm]; omega
  | disallow => simp [disallowPowerOff, Calm]; exact ⟨by omega, fun h _ => hon h⟩
  | powerDown h =>
    obtain ⟨hoff, hallowed⟩ := powerDown_power h
    rw [hoff, hallowed]
    exact iff_of_true ⟨hcount, hon⟩ trivial
  | @file _ op r h =>
    obtain rfl := fileOp_self h
    cases op with
    | «open» filename mode =>
      obtain ⟨ok, fh⟩ := r
      cases ok with
      | true =>
        -- the flag is cleared if the count comes down to 0
        have hcount' : s.self.powerOff - 1 = s.allows - s.disallows - (s.handles + 1) := by omega
        have hzero : s.self.powerOff - 1 = 0 ↔ s.self.powerOff = 1 := by omega
        simp [opPower, disallowPowerOff, handlesAfter, Calm, hcount', ← hzero, or_iff_not_imp_left]
      | false => simp [opPower, disallowPowerOff, handlesAfter, Calm]; omega
    | close fh => simp [opPower, allowPowerOff, handlesAfter, Calm]; omega
    | read | write | seek | rewind | eof | getOffset | truncate =>
      exact iff_of_true ⟨hcount, hon⟩ trivial
    | _ => simp [opPower, allowPowerOff, disallowPowerOff, handlesAfter, Calm]; omega

/-- **The power and the open files.** Along any run from the constructor, whatever
`_power_off_allowed` is, the count is right and `powerDown` does nothing while a file is open, after
each step, if and only if each step is calm. -/
theorem power_kept_iff {powerOffAllowed : Bool} {hist : List (State × Label × State)}
    (h : Walk Turn (.init powerOffAllowed) hist s) :
    All (fun _ _ s' => Kept s') hist ↔ All (fun s l _ => Calm s l) hist :=
  h.exact (I := Kept) (kept_init powerOffAllowed) (fun _ _ _ hs ht => ht.kept_iff hs)
    fun _ _ _ hs ht hcalm => (ht.kept_iff hs).mpr hcalm

/-- The interface after `allowPowerOff` and a successful `fs_open`. -/
def opened : State where
  self := disallowPowerOff (allowPowerOff (.ctor false))
  allows := 1
  disallows := 0
  handles := 1

/-- `fs_open` of a file, which succeeds. -/
def openFile : Label := .file (.open "log" .createRw) (true, some 1)

/-- `fs_free_size`, which gives 100. -/
def freeSize : Label := .file .freeSize (100 : Int)

theorem turn_openFile (s : State) :
    Turn s openFile { s with self := disallowPowerOff s.self, handles := s.handles + 1 } :=
  .file (.call (r := (true, some 1)) trivial (.ret _ _))

theorem turn_freeSize (s : State) :
    Turn s freeSize { s with self := allowPowerOff (disallowPowerOff s.self) } :=
  .file (.call (r := (100 : Int)) trivial (.ret _ _))

/-- The steps to `opened`, the newest first. -/
def openedHist : List (State × Label × State) :=
  [({ State.init false with self := allowPowerOff (.ctor false), allows := 1 }, openFile, opened),
    (.init false, .allow,
      { State.init false with self := allowPowerOff (.ctor false), allows := 1 })]

theorem walk_opened : Walk Turn (.init false) openedHist opened :=
  .cons (.cons .nil (.allow _)) (turn_openFile _)

/-- After `opened` the power off is refused. -/
theorem power_kept_iff_opened :
    powerDown opened.self = pure (opened.self, false) := by
  have hcalm : All (fun s l _ => Calm s l) openedHist := by
    simp [openedHist, All, Calm, openFile, State.init, allowPowerOff, BG96Interface.ctor]
  have h := (power_kept_iff walk_opened).mpr hcalm
  exact (h _ List.mem_cons_self).on Nat.one_pos

/-- A query while the file is open allows the power off. -/
theorem power_kept_iff_query :
    ¬ ∀ powerOffAllowed hist s, Walk Turn (.init powerOffAllowed) hist s → Kept s := by
  intro h
  have hkept := h _ _ _ (.cons walk_opened (turn_freeSize _))
  exact absurd ((kept_iff.mp hkept).2 Nat.one_pos) (by decide)

end Bg96.Network
