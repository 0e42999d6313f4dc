import Mathlib.Logic.Function.Basic

/-!
# Files and handles

A store has files, and handles that are open at a position of a file.

* `Store`, `Action`, `Store.act`: what is done to the files and the handles. An action on a file or
  a handle that is not there is not possible.
* `Store.acts`: actions one after the other.
* `Action.handle`, `Store.changes`: the handle of an action, and the file that it changes. Nothing
  else is changed (`act_files`, `act_cursors`).
* `Appending`: a handle is open at the end of a file, and no other handle is open on it. The writes
  of the handle then append to the file, whatever is done to other files (`Appending.acts`).
-/

namespace FileStore

variable {N H B : Type}

/-- A position of a file. -/
structure Cursor (N : Type) where
  name : N
  pos : Nat

/-- The files and the open handles. -/
structure Store (N H B : Type) where
  files : N → Option (List B)
  cursors : H → Option (Cursor N)

/-- How a file is opened: it is created if it is not there; it is emptied; it has to be there. -/
inductive Mode where
  | create
  | replace
  | existing

/-- The contents of a file that is opened. -/
def Mode.opened : Mode → Option (List B) → Option (List B)
  | .create, content => some (content.getD [])
  | .replace, _ => some []
  | .existing, content => content

/-- Where a handle is moved to. -/
inductive Target where
  | start (offset : Nat)
  | current (offset : Nat)
  | «end»

/-- The new position in a file. -/
def Target.pos : Target → Nat → List B → Nat
  | .start offset, _, _ => offset
  | .current offset, pos, _ => pos + offset
  | .end, _, content => content.length

inductive Action (N H B : Type) where
  | put (name : N) (content : List B)
  | remove (name : N)
  | open (name : N) (mode : Mode) (h : H)
  | close (h : H)
  | read (h : H) (n : Nat)
  | write (h : H) (bs : List B)
  | move (h : H) (target : Target)
  | cut (h : H)

/-- Bytes at a position of a file. -/
def overwrite (content : List B) (pos : Nat) (bs : List B) : List B :=
  content.take pos ++ bs ++ content.drop (pos + bs.length)

theorem overwrite_end (content bs : List B) :
    overwrite content content.length bs = content ++ bs := by
  simp [overwrite]

namespace Store

/-- The contents of a file; of one that is not there, nothing. -/
def content (s : Store N H B) (name : N) : List B := (s.files name).getD []

/-- The bytes that a read gives. -/
def bytesAt (s : Store N H B) (c : Cursor N) (n : Nat) : List B :=
  ((s.content c.name).drop c.pos).take n

/-- The file that an action changes. -/
def changes (s : Store N H B) : Action N H B → Option N
  | .put name _ | .remove name | .open name .. => some name
  | .write h _ | .cut h => (s.cursors h).map Cursor.name
  | .close _ | .read .. | .move .. => none

variable [DecidableEq N] [DecidableEq H]

def setFile (s : Store N H B) (name : N) (content : Option (List B)) : Store N H B :=
  { s with files := Function.update s.files name content }

def setCursor (s : Store N H B) (h : H) (c : Option (Cursor N)) : Store N H B :=
  { s with cursors := Function.update s.cursors h c }

/-- An action. -/
def act (s : Store N H B) : Action N H B → Option (Store N H B)
  | .put name content => some (s.setFile name (some content))
  | .remove name => (s.files name).map fun _ => s.setFile name none
  | .open name mode h =>
    if (s.cursors h).isSome then none
    else (mode.opened (s.files name)).map fun content =>
      (s.setFile name (some content)).setCursor h (some ⟨name, 0⟩)
  | .close h => (s.cursors h).map fun _ => s.setCursor h none
  | .read h n => (s.cursors h).map fun c =>
      s.setCursor h (some ⟨c.name, c.pos + (s.bytesAt c n).length⟩)
  | .write h bs => (s.cursors h).map fun c =>
      (s.setFile c.name (some (overwrite (s.content c.name) c.pos bs))).setCursor h
        (some ⟨c.name, c.pos + bs.length⟩)
  | .move h target => (s.cursors h).map fun c =>
      s.setCursor h (some ⟨c.name, target.pos c.pos (s.content c.name)⟩)
  | .cut h => (s.cursors h).map fun c =>
      s.setFile c.name (some ((s.content c.name).take c.pos))

/-- Actions, one after the other. -/
def acts (s : Store N H B) : List (Action N H B) → Option (Store N H B)
  | [] => some s
  | a :: as => (s.act a).bind fun s' => s'.acts as

end Store

/-- The handle of an action. -/
def Action.handle : Action N H B → Option H
  | .put .. | .remove _ => none
  | .open _ _ h | .close h | .read h _ | .write h _ | .move h _ | .cut h => some h

variable {s s' : Store N H B} {a : Action N H B} {name : N} {h : H} {content : List B}

/-! ## What an action leaves as it is -/

section Act

variable [DecidableEq N] [DecidableEq H]

theorem act_files (hact : s.act a = some s') (hne : s.changes a ≠ some name) :
    s'.files name = s.files name := by
  have hfile {name' : N} {c : Option (List B)} (hne : some name' ≠ some name) :
      (s.setFile name' c).files name = s.files name :=
    Function.update_of_ne (fun heq => hne (congrArg some heq.symm)) ..
  cases a with
  | put name' content =>
    obtain rfl : _ = s' := Option.some.inj hact
    exact hfile hne
  | remove name' =>
    obtain ⟨_, -, rfl⟩ := Option.map_eq_some_iff.mp hact
    exact hfile hne
  | «open» name' mode h =>
    rw [Store.act] at hact
    split at hact
    · cases hact
    · obtain ⟨_, -, rfl⟩ := Option.map_eq_some_iff.mp hact
      exact hfile hne
  | write h bs | cut h =>
    obtain ⟨c, hc, rfl⟩ := Option.map_eq_some_iff.mp hact
    rw [Store.changes, hc] at hne
    exact hfile hne
  | close h | read h n | move h target =>
    obtain ⟨_, -, rfl⟩ := Option.map_eq_some_iff.mp hact
    rfl

theorem act_cursors (hact : s.act a = some s') (hne : a.handle ≠ some h) :
    s'.cursors h = s.cursors h := by
  have hcursor {t : Store N H B} {h' : H} {c : Option (Cursor N)} (hne : some h' ≠ some h) :
      (t.setCursor h' c).cursors h = t.cursors h :=
    Function.update_of_ne (fun heq => hne (congrArg some heq.symm)) ..
  cases a with
  | put name' content =>
    obtain rfl : _ = s' := Option.some.inj hact
    rfl
  | remove name' =>
    obtain ⟨_, -, rfl⟩ := Option.map_eq_some_iff.mp hact
    rfl
  | «open» name' mode h' =>
    rw [Store.act] at hact
    split at hact
    · cases hact
    · obtain ⟨_, -, rfl⟩ := Option.map_eq_some_iff.mp hact
      exact hcursor hne
  | cut h' =>
    obtain ⟨_, -, rfl⟩ := Option.map_eq_some_iff.mp hact
    rfl
  | close h' | read h' n | write h' bs | move h' target =>
    obtain ⟨_, -, rfl⟩ := Option.map_eq_some_iff.mp hact
    exact hcursor hne

/-- A handle that is open on a file was open on it, or the file has been opened. -/
theorem act_name {c' : Cursor N} (hact : s.act a = some s') (hc' : s'.cursors h = some c') :
    (∃ c, s.cursors h = some c ∧ c.name = c'.name) ∨ ∃ mode, a = .open c'.name mode h := by
  by_cases hne : a.handle ≠ some h
  · exact .inl ⟨c', (act_cursors hact hne).symm.trans hc', rfl⟩
  rw [not_not] at hne
  have hself {t : Store N H B} {c : Option (Cursor N)} : (t.setCursor h c).cursors h = c :=
    Function.update_self ..
  cases a with
  | put | remove => cases hne
  | «open» name' mode h' =>
    cases hne
    rw [Store.act] at hact
    split at hact
    · cases hact
    · obtain ⟨_, -, rfl⟩ := Option.map_eq_some_iff.mp hact
      cases hself.symm.trans hc'
      exact .inr ⟨mode, rfl⟩
  | close h' =>
    cases hne
    obtain ⟨_, -, rfl⟩ := Option.map_eq_some_iff.mp hact
    cases hself.symm.trans hc'
  | cut h' =>
    cases hne
    obtain ⟨_, -, rfl⟩ := Option.map_eq_some_iff.mp hact
    exact .inl ⟨c', hc', rfl⟩
  | read h' n | write h' bs | move h' target =>
    cases hne
    obtain ⟨c, hc, rfl⟩ := Option.map_eq_some_iff.mp hact
    cases hself.symm.trans hc'
    exact .inl ⟨c, hc, rfl⟩

end Act

/-! ## Appending -/

/-- The handle is open at the end of the file, and no other handle is open on it. -/
structure Appending (s : Store N H B) (h : H) (name : N) (content : List B) : Prop where
  file : s.files name = some content
  cursor : s.cursors h = some ⟨name, content.length⟩
  only : ∀ h' c, s.cursors h' = some c → c.name = name → h' = h

/-- Neither the file nor the handle is named. -/
def Action.Spares (name : N) (h : H) : Action N H B → Prop
  | .put name' _ | .remove name' | .open name' .. => name' ≠ name
  | .close h' | .read h' _ | .write h' _ | .move h' _ | .cut h' => h' ≠ h

theorem Action.Spares.not_changes (ha : a.Spares name h) (hs : Appending s h name content) :
    s.changes a ≠ some name := by
  -- an action on another handle changes another file
  have hother {h' : H} (hne : h' ≠ h) : (s.cursors h').map Cursor.name ≠ some name := by
    intro heq
    obtain ⟨c, hc, hcname⟩ := Option.map_eq_some_iff.mp heq
    exact hne (hs.only h' c hc hcname)
  cases a with
  | put | remove | «open» => exact fun heq => ha (Option.some.inj heq)
  | write | cut => exact hother ha
  | close | read | move => exact nofun

theorem Action.Spares.handle_ne [DecidableEq N] [DecidableEq H] (ha : a.Spares name h)
    (hs : Appending s h name content) (hact : s.act a = some s') : a.handle ≠ some h := by
  cases a with
  | put | remove => exact nofun
  | «open» name' mode h' =>
    -- the handle that is opened is not in use
    rintro ⟨⟩
    rw [Store.act, hs.cursor, Option.isSome_some, if_pos rfl] at hact
    cases hact
  | close | read | write | move | cut => exact fun heq => ha (Option.some.inj heq)

theorem Appending.spared [DecidableEq N] [DecidableEq H] (hs : Appending s h name content)
    (ha : a.Spares name h)
    (hact : s.act a = some s') : Appending s' h name content := by
  refine ⟨(act_files hact (ha.not_changes hs)).trans hs.file,
    (act_cursors hact (ha.handle_ne hs hact)).trans hs.cursor, fun h' c' hc' hname => ?_⟩
  obtain ⟨c, hc, hcname⟩ | ⟨mode, rfl⟩ := act_name hact hc'
  · exact hs.only h' c hc (hcname.trans hname)
  · exact absurd hname ha

theorem Appending.write [DecidableEq N] [DecidableEq H] {bs : List B}
    (hs : Appending s h name content)
    (hact : s.act (.write h bs) = some s') : Appending s' h name (content ++ bs) := by
  have hbytes : s.content name = content := by rw [Store.content, hs.file]; rfl
  obtain ⟨c, hc, rfl⟩ := Option.map_eq_some_iff.mp hact
  obtain rfl : c = ⟨name, content.length⟩ := Option.some.inj (hc.symm.trans hs.cursor)
  refine ⟨?_, ?_, fun h' c' hc' hname => ?_⟩
  · refine (Function.update_self ..).trans (congrArg some ?_)
    rw [hbytes, overwrite_end]
  · refine (Function.update_self ..).trans (congrArg some ?_)
    rw [List.length_append]
  · by_contra hne
    refine hne (hs.only h' c' ?_ hname)
    rw [← hc']
    exact (Function.update_of_ne hne ..).symm

/-- What the writes of a handle write. -/
def written [DecidableEq H] (h : H) : List (Action N H B) → List B
  | [] => []
  | .write h' bs :: as => if h' = h then bs ++ written h as else written h as
  | _ :: as => written h as

theorem written_cons_of_spares [DecidableEq H] {as : List (Action N H B)} (ha : a.Spares name h) :
    written h (a :: as) = written h as := by
  cases a with
  | write h' bs => exact if_neg ha
  | _ => rfl

/-- **Appending.** Where the handle only writes, and nothing else is done to the file, the file is
what it was and then what the handle has written. -/
theorem Appending.acts [DecidableEq N] [DecidableEq H] {as : List (Action N H B)}
    (hs : Appending s h name content)
    (has : ∀ a ∈ as, (∃ bs, a = .write h bs) ∨ a.Spares name h) (hacts : s.acts as = some s') :
    Appending s' h name (content ++ written h as) := by
  induction as generalizing s content with
  | nil =>
    obtain rfl : s = s' := Option.some.inj hacts
    simpa [written] using hs
  | cons a as ih =>
    obtain ⟨ha, hrest⟩ := List.forall_mem_cons.mp has
    obtain ⟨t, hact, htail⟩ := Option.bind_eq_some_iff.mp hacts
    rcases ha with ⟨bs, rfl⟩ | hspares
    · have hend := ih (hs.write hact) hrest htail
      rwa [List.append_assoc, ← show written h (.write h bs :: as) = bs ++ written h as from
        if_pos rfl] at hend
    · rw [written_cons_of_spares hspares]
      exact ih (hs.spared hspares hact) hrest htail

end FileStore
