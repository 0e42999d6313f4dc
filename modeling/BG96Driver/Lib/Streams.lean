import Mathlib.Logic.Function.Basic
import Mathlib.Data.List.Basic
import Mathlib.Data.List.Induction

/-!
# Connections with two byte streams

A connection has the bytes that have come from the other side, how many of them have been read, and
the bytes that have been accepted for the other side. Bytes may come at any time.

* `Conn`, `Conns`: a connection, and the open ones. `Comes`: bytes come.
* `ConnEvent`, `Does`: a connection is opened, accepts bytes, or bytes that have come are read: they
  are given to someone, or dropped.
* `sentOn`, `gotOn`, `droppedOn`, `takenOn`: what a list of events says of one connection since it
  was opened.
* `Course`: events in their order. Between them bytes come, and connections are closed.
  `Course.exact`: a connection has accepted the bytes that the events say, and those that were read
  are those that have come, from the first one on.
* `DropsFirst`: what is dropped of a connection comes before what is given.
-/

namespace Streams

variable {I B : Type}

/-- A connection. -/
structure Conn (B : Type) where
  /-- What has come from the other side. -/
  arrived : List B
  /-- The number of bytes that have been read of it. -/
  read : Nat
  /-- What has been accepted for the other side. -/
  accepted : List B
  le : read ≤ arrived.length

namespace Conn

def fresh : Conn B := ⟨[], 0, [], Nat.le_refl 0⟩

/-- What has been read. -/
def taken (c : Conn B) : List B := c.arrived.take c.read

/-- What has come and has not been read. -/
def waiting (c : Conn B) : List B := c.arrived.drop c.read

/-- Bytes come. -/
def extend (c : Conn B) (more : List B) : Conn B where
  arrived := c.arrived ++ more
  read := c.read
  accepted := c.accepted
  le := by
    have h := c.le
    rw [List.length_append]
    omega

/-- Bytes are read, as many as have come at most. -/
def give (c : Conn B) (n : Nat) : Conn B where
  arrived := c.arrived
  read := min (c.read + n) c.arrived.length
  accepted := c.accepted
  le := Nat.min_le_right ..

/-- Bytes are accepted. -/
def accept (c : Conn B) (bs : List B) : Conn B := { c with accepted := c.accepted ++ bs }

theorem taken_append_waiting (c : Conn B) : c.taken ++ c.waiting = c.arrived :=
  List.take_append_drop ..

@[simp] theorem taken_fresh : (fresh : Conn B).taken = [] := rfl

@[simp] theorem taken_accept (c : Conn B) (bs : List B) : (c.accept bs).taken = c.taken := rfl

@[simp] theorem accepted_extend (c : Conn B) (more : List B) :
    (c.extend more).accepted = c.accepted := rfl

@[simp] theorem accepted_give (c : Conn B) (n : Nat) : (c.give n).accepted = c.accepted := rfl

@[simp] theorem taken_extend (c : Conn B) (more : List B) : (c.extend more).taken = c.taken :=
  List.take_append_of_le_length c.le

/-- Bytes at the head of those that wait are read. -/
theorem taken_give {c : Conn B} {bs : List B} (h : bs <+: c.waiting) :
    (c.give bs.length).taken = c.taken ++ bs := by
  obtain ⟨rest, hrest⟩ := h
  have harrived : c.arrived = c.taken ++ bs ++ rest := by
    rw [List.append_assoc, hrest, taken_append_waiting]
  have hlen : c.taken.length = c.read := by
    rw [taken, List.length_take]
    exact Nat.min_eq_left c.le
  have hread : min (c.read + bs.length) c.arrived.length = (c.taken ++ bs).length := by
    rw [harrived]
    simp only [List.length_append]
    omega
  show c.arrived.take (min (c.read + bs.length) c.arrived.length) = c.taken ++ bs
  rw [hread, harrived]
  exact List.take_left

end Conn

/-- The open connections. -/
abbrev Conns (I B : Type) := I → Option (Conn B)

/-- Bytes come on the open connections. -/
def Comes (s s' : Conns I B) : Prop :=
  ∃ more : I → List B, s' = fun i => (s i).map fun c => c.extend (more i)

theorem Comes.refl (s : Conns I B) : Comes s s := by
  refine ⟨fun _ => [], funext fun i => ?_⟩
  cases h : s i with
  | none => rfl
  | some c => simp [Conn.extend]

theorem Comes.trans {s s' s'' : Conns I B} (h : Comes s s') (h' : Comes s' s'') :
    Comes s s'' := by
  obtain ⟨more, rfl⟩ := h
  obtain ⟨more', rfl⟩ := h'
  refine ⟨fun i => more i ++ more' i, funext fun i => ?_⟩
  simp [Conn.extend, Option.map_map, Function.comp_def]

/-- The connection, if it is open, has accepted these bytes, and those were read. -/
def Has (i : I) (sent read : List B) (s : Conns I B) : Prop :=
  ∀ c, s i = some c → c.accepted = sent ∧ c.taken = read

theorem Comes.has {i : I} {sent read : List B} {s s' : Conns I B} (h : Comes s s')
    (hs : Has i sent read s) : Has i sent read s' := by
  obtain ⟨more, rfl⟩ := h
  intro c hc
  obtain ⟨c₀, hc₀, rfl⟩ := Option.map_eq_some_iff.mp hc
  simpa using hs c₀ hc₀

/-- What happens to a connection. -/
inductive ConnEvent (I B : Type) where
  | opened (i : I)
  | accepted (i : I) (bs : List B)
  | gave (i : I) (bs : List B)
  | dropped (i : I) (bs : List B)

section Events

variable [DecidableEq I]

/-- An event. Bytes are read from the head of those that wait. -/
def Does (s : Conns I B) : ConnEvent I B → Conns I B → Prop
  | .opened i, s' => s' = Function.update s i (some .fresh)
  | .accepted i bs, s' => ∃ c, s i = some c ∧ s' = Function.update s i (some (c.accept bs))
  | .gave i bs, s' | .dropped i bs, s' => ∃ c, s i = some c ∧ bs <+: c.waiting ∧
    s' = Function.update s i (some (c.give bs.length))

/-- The connection that an event is about. -/
def ConnEvent.conn : ConnEvent I B → I
  | .opened i | .accepted i _ | .gave i _ | .dropped i _ => i

/-- What a connection has accepted after an event. -/
def ConnEvent.sent (i : I) (acc : List B) : ConnEvent I B → List B
  | .opened j => if j = i then [] else acc
  | .accepted j bs => if j = i then acc ++ bs else acc
  | .gave .. | .dropped .. => acc

/-- What has been read of a connection after an event. -/
def ConnEvent.taken (i : I) (acc : List B) : ConnEvent I B → List B
  | .opened j => if j = i then [] else acc
  | .gave j bs | .dropped j bs => if j = i then acc ++ bs else acc
  | .accepted .. => acc

/-- What a connection has given after an event. -/
def ConnEvent.got (i : I) (acc : List B) : ConnEvent I B → List B
  | .opened j => if j = i then [] else acc
  | .gave j bs => if j = i then acc ++ bs else acc
  | .accepted .. | .dropped .. => acc

/-- What has been dropped of a connection after an event. -/
def ConnEvent.lost (i : I) (acc : List B) : ConnEvent I B → List B
  | .opened j => if j = i then [] else acc
  | .dropped j bs => if j = i then acc ++ bs else acc
  | .accepted .. | .gave .. => acc

/-- An event of another connection says nothing of this one. -/
theorem ConnEvent.of_ne {i : I} {e : ConnEvent I B} (h : e.conn ≠ i) (acc : List B) :
    e.sent i acc = acc ∧ e.taken i acc = acc ∧ e.got i acc = acc ∧ e.lost i acc = acc := by
  cases e <;> simp_all [conn, sent, taken, got, lost]

/-- What a connection has accepted since it was opened. -/
def sentOn (i : I) (es : List (ConnEvent I B)) : List B := es.foldl (ConnEvent.sent i) []

/-- What has been read of a connection since it was opened. -/
def takenOn (i : I) (es : List (ConnEvent I B)) : List B := es.foldl (ConnEvent.taken i) []

/-- What a connection has given since it was opened. -/
def gotOn (i : I) (es : List (ConnEvent I B)) : List B := es.foldl (ConnEvent.got i) []

/-- What has been dropped of a connection since it was opened. -/
def droppedOn (i : I) (es : List (ConnEvent I B)) : List B := es.foldl (ConnEvent.lost i) []

/-- Events in their order. Before each of them, and after it, bytes may come and connections may be
closed. -/
inductive Course : Conns I B → List (ConnEvent I B) → Conns I B → Prop where
  | nil (s : Conns I B) : Course s [] s
  | comes {s s' s'' : Conns I B} {es : List (ConnEvent I B)} (h : Comes s s')
    (hrest : Course s' es s'') : Course s es s''
  | closes {s s' : Conns I B} {es : List (ConnEvent I B)} (i : I)
    (hrest : Course (Function.update s i none) es s') : Course s es s'
  | does {s s' s'' : Conns I B} {e : ConnEvent I B} {es : List (ConnEvent I B)} (h : Does s e s')
    (hrest : Course s' es s'') : Course s (e :: es) s''

theorem Course.append {s s' s'' : Conns I B} {es es' : List (ConnEvent I B)} (h : Course s es s')
    (h' : Course s' es' s'') : Course s (es ++ es') s'' := by
  induction h with
  | nil s => exact h'
  | comes hg _ ih => exact .comes hg (ih h')
  | closes i _ ih => exact .closes i (ih h')
  | does hd _ ih => exact .does hd (ih h')

variable {i : I} {sent read : List B} {s s' : Conns I B}

/-- **Step.** An event goes with what it says. -/
theorem Does.has {e : ConnEvent I B} (h : Does s e s') (hs : Has i sent read s) :
    Has i (e.sent i sent) (e.taken i read) s' := by
  intro c hc
  cases e with
  | opened j =>
    obtain rfl : s' = _ := h
    by_cases hj : j = i
    · subst hj
      rw [Function.update_self] at hc
      cases hc
      simp [ConnEvent.sent, ConnEvent.taken, Conn.fresh, Conn.taken]
    · rw [Function.update_of_ne (Ne.symm hj)] at hc
      simpa [ConnEvent.sent, ConnEvent.taken, hj] using hs c hc
  | accepted j bs =>
    obtain ⟨c₀, hc₀, rfl⟩ := h
    by_cases hj : j = i
    · subst hj
      rw [Function.update_self] at hc
      cases hc
      obtain ⟨h₁, h₂⟩ := hs c₀ hc₀
      simp [ConnEvent.sent, ConnEvent.taken, Conn.accept, h₁, ← h₂, Conn.taken]
    · rw [Function.update_of_ne (Ne.symm hj)] at hc
      simpa [ConnEvent.sent, ConnEvent.taken, hj] using hs c hc
  | gave j bs | dropped j bs =>
    obtain ⟨c₀, hc₀, hbs, rfl⟩ := h
    by_cases hj : j = i
    · subst hj
      rw [Function.update_self] at hc
      cases hc
      obtain ⟨h₁, h₂⟩ := hs c₀ hc₀
      simp [ConnEvent.sent, ConnEvent.taken, Conn.taken_give hbs, h₁, h₂]
    · rw [Function.update_of_ne (Ne.symm hj)] at hc
      simpa [ConnEvent.sent, ConnEvent.taken, hj] using hs c hc

theorem Has.closes (hs : Has i sent read s) (j : I) :
    Has i sent read (Function.update s j none) := by
  intro c hc
  by_cases hj : j = i
  · subst hj
    rw [Function.update_self] at hc
    cases hc
  · rw [Function.update_of_ne (Ne.symm hj)] at hc
    exact hs c hc

theorem Course.has {es : List (ConnEvent I B)} (h : Course s es s') (hs : Has i sent read s) :
    Has i (es.foldl (ConnEvent.sent i) sent) (es.foldl (ConnEvent.taken i) read) s' := by
  induction h generalizing sent read with
  | nil s => exact hs
  | comes hg _ ih => exact ih (hg.has hs)
  | closes j _ ih => exact ih (hs.closes j)
  | does hd _ ih => exact ih (hd.has hs)

/-- **Exact streams.** From a state in which the connection is not open: what it has accepted, and
what has been read of it, are what the events since it was opened say. -/
theorem Course.exact {es : List (ConnEvent I B)} {c : Conn B} (h : Course s es s') (hs : s i = none)
    (hc : s' i = some c) : c.accepted = sentOn i es ∧ c.taken = takenOn i es := by
  have hclosed : Has i [] [] s := by
    intro c₀ hc₀
    rw [hs] at hc₀
    cases hc₀
  exact h.has hclosed c hc

/-! ## What is dropped -/

/-- What these events drop of a connection comes before what they give, whatever has been dropped
and given before. -/
def DropsFirst (i : I) (es : List (ConnEvent I B)) : Prop :=
  ∀ d g : List B, es.foldl (ConnEvent.taken i) (d ++ g) =
    es.foldl (ConnEvent.lost i) d ++ es.foldl (ConnEvent.got i) g

theorem DropsFirst.takenOn {es : List (ConnEvent I B)} (h : DropsFirst i es) :
    takenOn i es = droppedOn i es ++ gotOn i es := h [] []

/-- Where nothing is dropped, all that is read is given. -/
theorem takenOn_eq_gotOn {es : List (ConnEvent I B)} (h : droppedOn i es = []) :
    takenOn i es = gotOn i es := by
  unfold droppedOn at h
  unfold takenOn gotOn
  induction es using List.reverseRecOn with
  | nil => rfl
  | append_singleton es e ih =>
    rw [List.foldl_append, List.foldl_cons, List.foldl_nil] at h ⊢
    rw [List.foldl_append, List.foldl_cons, List.foldl_nil]
    cases e with
    | opened j =>
      by_cases hj : j = i
      · simp [ConnEvent.taken, ConnEvent.got, hj]
      · simpa [ConnEvent.taken, ConnEvent.got, hj] using ih (by simpa [ConnEvent.lost, hj] using h)
    | accepted j bs => exact ih h
    | gave j bs => rw [ConnEvent.taken, ConnEvent.got, ih h]
    | dropped j bs =>
      by_cases hj : j = i
      · have hnil : es.foldl (ConnEvent.lost i) [] ++ bs = [] := by
          simpa only [ConnEvent.lost, if_pos hj] using h
        obtain ⟨hes, rfl⟩ := List.append_eq_nil_iff.mp hnil
        simpa [ConnEvent.taken, ConnEvent.got, hj] using ih hes
      · simpa [ConnEvent.taken, ConnEvent.got, hj] using ih (by simpa [ConnEvent.lost, hj] using h)

theorem DropsFirst.nil : DropsFirst i ([] : List (ConnEvent I B)) := fun _ _ => rfl

theorem DropsFirst.append {es es' : List (ConnEvent I B)} (h : DropsFirst i es)
    (h' : DropsFirst i es') : DropsFirst i (es ++ es') := by
  intro d g
  rw [List.foldl_append, List.foldl_append, List.foldl_append, h, h']

/-- Bytes that are given, or another event in which none are dropped. -/
theorem DropsFirst.single {e : ConnEvent I B} (h : ∀ j bs, e ≠ .dropped j bs) :
    DropsFirst i [e] := by
  intro d g
  cases e with
  | opened j =>
    by_cases hj : j = i <;> simp [ConnEvent.taken, ConnEvent.lost, ConnEvent.got, hj]
  | accepted j bs => rfl
  | gave j bs =>
    by_cases hj : j = i <;> simp [ConnEvent.taken, ConnEvent.lost, ConnEvent.got, hj]
  | dropped j bs => exact absurd rfl (h j bs)

/-- Events in which nothing is dropped. -/
theorem DropsFirst.of_not_dropped {es : List (ConnEvent I B)}
    (h : ∀ e ∈ es, ∀ j bs, e ≠ .dropped j bs) : DropsFirst i es := by
  induction es with
  | nil => exact .nil
  | cons e es ih =>
    obtain ⟨he, hes⟩ := List.forall_mem_cons.mp h
    exact (DropsFirst.single he).append (ih hes)

/-- Events of other connections. -/
theorem DropsFirst.of_ne {es : List (ConnEvent I B)} (h : ∀ e ∈ es, e.conn ≠ i) :
    DropsFirst i es := by
  induction es with
  | nil => exact .nil
  | cons e es ih =>
    obtain ⟨he, hes⟩ := List.forall_mem_cons.mp h
    intro d g
    obtain ⟨-, htaken, -, -⟩ := ConnEvent.of_ne he (d ++ g)
    obtain ⟨-, -, -, hlost⟩ := ConnEvent.of_ne he d
    obtain ⟨-, -, hgot, -⟩ := ConnEvent.of_ne he g
    rw [List.foldl_cons, List.foldl_cons, List.foldl_cons, htaken, hlost, hgot]
    exact ih hes d g

theorem foldl_dropped {j : I} {es : List (ConnEvent I B)} (h : ∀ e ∈ es, ∃ bs, e = .dropped j bs)
    (d g : List B) : es.foldl (ConnEvent.taken i) d = es.foldl (ConnEvent.lost i) d ∧
      es.foldl (ConnEvent.got i) g = g := by
  induction es generalizing d with
  | nil => exact ⟨rfl, rfl⟩
  | cons e es ih =>
    obtain ⟨⟨bs, rfl⟩, hes⟩ := List.forall_mem_cons.mp h
    exact ih hes _

/-- A connection is opened, and then bytes of it are dropped. -/
theorem DropsFirst.opened {j : I} {es : List (ConnEvent I B)}
    (h : ∀ e ∈ es, ∃ bs, e = .dropped j bs) : DropsFirst i (.opened j :: es) := by
  intro d g
  by_cases hj : j = i
  · subst hj
    obtain ⟨htaken, hgot⟩ := foldl_dropped (i := j) h ([] : List B) []
    simp [ConnEvent.taken, ConnEvent.lost, ConnEvent.got, htaken, hgot]
  · have hopened : (ConnEvent.opened j : ConnEvent I B).conn ≠ i := hj
    refine DropsFirst.of_ne (List.forall_mem_cons.mpr ⟨hopened, fun e he => ?_⟩) d g
    obtain ⟨bs, rfl⟩ := h e he
    exact hj

end Events

end Streams
