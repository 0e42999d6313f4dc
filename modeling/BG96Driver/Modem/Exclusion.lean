import BG96Driver.Lib.Mutex
import BG96Driver.Modem.Lock

/-!
# Threads that share the modem

Several threads call operations of `BG96`, and `_bg96_mutex` keeps their exchanges with the modem
apart: the calls of the parser are made with it, but for `readable`, `writable` and `debug_on`.

* `Guarded`: a program takes the mutex before each exchange, gives it back as often, and leaves the
  default time-out behind. `Within` is its counterpart for a part that runs with the mutex held.
* `Op.Held`: the operations that may keep the mutex. `Op.Bare`: those that do not take it.
  `Op.Changes`: those that change the object of the driver.
* `safe_prog`, `safe_bare`: the program of each operation is safe. `safe_calls`: so are threads that
  call operations.
* `exclusive`, `only_held_blocks`, `default_timeout`: what this says of all runs.
* `sections_in_turn`, `operations_in_turn`: what it says where the threads have one object, and none
  of them changes it.
-/

namespace Bg96.Modem

open Program Mutex Relation

/-- What a call does with `_bg96_mutex`. -/
def Call.use : Call → Use
  | .lock => .acquire
  | .unlock => .release
  | _ => .inside

/-- The time-out of the parser is the default, or the one with which `connect` waits for the
registration, if `A`: it keeps that one when it fails to register, until it activates the context. -/
def Timely (A : Prop) (s : Session) : Prop := s.timeout = atTimeout ∨ A ∧ s.timeout = 2000

variable {α β : Type}

/-- The program is safe from the depth, where the mutex is free only with a time-out that is
`Timely`, and ends as `Q` says. -/
abbrev SafeAt (A : Prop) (Q : α → Nat → Session → Prop) (p : At α) (d : Nat) (s : Session) : Prop :=
  SafeUse Call.use session (Timely A) (fun _ => False) True Q p d s

/-- From each depth, the program goes back to it, with a time-out as before. -/
def Guarded (A : Prop) (p : At α) : Prop :=
  ∀ d s, (d = 0 → Timely A s) →
    SafeAt A (fun _ d' s' => d' = d ∧ (Timely A s → Timely A s')) p d s

/-- With the mutex held, the program goes back to the depth, with a time-out as before, if `K`; and
it does not give back what it has not taken. -/
structure Within (A K : Prop) (p : At α) : Prop where
  safe (d : Nat) (s : Session) :
    SafeAt A (fun _ d' s' => d' = d + 1 ∧ (K → Timely A s → Timely A s')) p (d + 1) s
  stays : Stays Call.use p 0

/-- A guarded program with one section. -/
structure Single (A : Prop) (p : At α) : Prop where
  guarded : Guarded A p
  once : Once Call.use p 0

variable {A K : Prop} {p : At α}

/-- The calls that are quiet leave the time-out as it is. -/
theorem quiet_steady (hp : Only True Call.Quiet p) :
    Leads session True (fun s s' => s'.timeout = s.timeout) p := by
  refine hp.leads (fun _ => rfl) (fun _ _ _ h h' => h'.trans h) ?_
  rintro s c r _ hc rfl
  cases c <;> first | exact hc.elim | rfl

theorem Call.Flat.inside {c : Call} (hc : c.Flat) : c.use = .inside := by
  cases c <;> first | exact hc.elim | rfl

theorem Single.within (hp : Single A p) : Within A K p where
  safe d s := safeUse_mono (hp.guarded (d + 1) s nofun) fun _ _ _ h => ⟨h.1, fun _ => h.2⟩
  stays := hp.once.stays

namespace Within

theorem ret (a : α) : Within A K (.ret a) := ⟨fun _ _ => ⟨rfl, fun _ h => h⟩, rfl⟩

theorem bind {f : α → At β} (hp : Within A K p) (hf : ∀ a, Within A K (f a)) :
    Within A K (p >>= f) where
  safe d s := by
    refine safeUse_bind (safeUse_mono (hp.safe d s) ?_)
    rintro a _ s₁ ⟨rfl, h₁⟩
    exact safeUse_mono ((hf a).safe d s₁) fun _ _ _ ⟨hd, h⟩ => ⟨hd, fun hK hs => h hK (h₁ hK hs)⟩
  stays := hp.stays.bind fun a => (hf a).stays

theorem map {f : α → β} (hp : Within A K p) : Within A K (p >>= fun a => pure (f a)) :=
  hp.bind fun a => ret (f a)

theorem ite {b : Prop} [Decidable b] {q : At α} (hp : b → Within A K p) (hq : ¬ b → Within A K q) :
    Within A K (if b then p else q) := by
  split
  · exact hp ‹_›
  · exact hq ‹_›

/-- A program that leaves the mutex alone. -/
theorem of_flat (hp : Only True Call.Flat p)
    (hK : K → Leads session True (fun s s' => Timely A s → Timely A s') p) : Within A K p where
  safe d s := by
    refine safeUse_of_wp (hp.mono id fun c hc => hc.inside) ?_
    by_cases h : K
    · exact wp_mono (hK h s) fun _ _ hs' => ⟨rfl, fun _ => hs'⟩
    · exact wp_of_forall trivial (fun _ _ => ⟨rfl, fun hK => absurd hK h⟩) p s
  stays := stays_of_only (hp.mono id fun c hc => hc.inside)

theorem quiet (hp : Only True Call.Quiet p) : Within A K p :=
  of_flat (flat_quiet hp) fun _ => (quiet_steady hp).mono fun s s' h hs => by rwa [Timely, h]

theorem flat (hp : Only True Call.Flat p) : Within A False p := of_flat hp False.elim

/-- A body between two changes of the time-out. -/
theorem timed {ms : Int} (hp : Within A False p) : Within A K (timed ms p) where
  safe d s := by
    refine (safeUse_inside rfl).mpr fun _ s₁ _ => ?_
    show SafeAt A _ (p >>= _) _ _
    refine safeUse_bind (safeUse_mono (hp.safe d s₁) ?_)
    rintro a _ s₂ ⟨rfl, -⟩
    refine (safeUse_inside rfl).mpr ?_
    rintro _ _ rfl
    exact ⟨rfl, fun _ _ => .inl rfl⟩
  stays := fun _ => hp.stays.bind fun _ _ => rfl

/-- A body and then the default time-out. -/
theorem reset {f : α → β} (hp : Within A False p) :
    Within A K (p >>= fun a => Parser.setTimeout atTimeout >>= fun _ => pure (f a)) where
  safe d s := by
    refine safeUse_bind (safeUse_mono (hp.safe d s) ?_)
    rintro a _ s₁ ⟨rfl, -⟩
    refine (safeUse_inside rfl).mpr ?_
    rintro _ _ rfl
    exact ⟨rfl, fun _ _ => .inl rfl⟩
  stays := hp.stays.bind fun _ _ => rfl

theorem retry {started : Bool} {limit : Int} {p : At Bool} (hp : Within A K p) (n : Nat) :
    Within A K (retry started limit p n) := by
  induction n with
  | zero => exact ⟨fun _ _ => trivial, trivial⟩
  | succ n ih =>
    refine bind (quiet ⟨trivial, fun _ => trivial⟩) fun ms => ?_
    refine ite (fun _ => hp.bind fun done => ?_) fun _ => ret false
    exact ite (fun _ => ret true) fun _ => ih

end Within

namespace Guarded

theorem ret (a : α) : Guarded A (.ret a) := fun _ _ _ => ⟨rfl, id⟩

theorem bind {f : α → At β} (hp : Guarded A p) (hf : ∀ a, Guarded A (f a)) :
    Guarded A (p >>= f) := by
  intro d s hs
  refine safeUse_bind (safeUse_mono (hp d s hs) ?_)
  rintro a _ s₁ ⟨rfl, h₁⟩
  exact safeUse_mono (hf a _ s₁ fun hd => h₁ (hs hd)) fun _ _ _ ⟨hd, h⟩ => ⟨hd, fun hs => h (h₁ hs)⟩

theorem map {f : α → β} (hp : Guarded A p) : Guarded A (p >>= fun a => pure (f a)) :=
  hp.bind fun a => ret (f a)

theorem ite {b : Prop} [Decidable b] {q : At α} (hp : b → Guarded A p) (hq : ¬ b → Guarded A q) :
    Guarded A (if b then p else q) := by
  split
  · exact hp ‹_›
  · exact hq ‹_›

theorem stop : Guarded A (.stop : At α) := fun _ _ _ => trivial

/-- A text that is printed into an array first. -/
theorem sprintf {size : Nat} {f : Format} {g : Unit → At α} (hg : Guarded A (g ())) :
    Guarded A (Modem.sprintf size f >>= g) := by
  unfold Modem.sprintf
  split
  · exact hg
  · exact stop

/-- A command that is printed into an array first. -/
theorem sprintfCommand {size : Nat} {f : Format} {g : Unit → At α} (hg : Guarded A (g ())) :
    Guarded A (Modem.sprintfCommand size f >>= g) := by
  unfold Modem.sprintfCommand
  split
  · exact hg
  · exact stop

/-- What is safe after the mutex has been given back, is safe after `unlock`. -/
theorem unlock {Q : α → Nat → Session → Prop} {d : Nat} {s : Session} (hs : d = 0 → Timely A s)
    (h : ∀ s', (d = 0 → Timely A s') → (Timely A s → Timely A s') → SafeAt A Q p d s') :
    SafeAt A Q (unlock >>= fun _ => p) (d + 1) s := by
  refine (safeUse_release rfl).mpr ⟨Nat.succ_pos d, ?_⟩
  rintro _ _ rfl
  refine ⟨fun hd => hs (by omega), fun s' hs' => ?_⟩
  split at hs'
  · exact h s' (fun _ => hs') fun _ => hs'
  · subst hs'
    exact h _ (fun hd => by omega) id

end Guarded

namespace Single

theorem ret (a : α) : Single A (.ret a) := ⟨.ret a, rfl⟩

theorem sprintfCommand {size : Nat} {f : Format} {g : Unit → At α} (hg : Single A (g ())) :
    Single A (Modem.sprintfCommand size f >>= g) where
  guarded := .sprintfCommand hg.guarded
  once := by
    unfold Modem.sprintfCommand
    split
    · exact hg.once
    · trivial

/-- A program, and then a value. -/
theorem bind_ret {f : α → At β} (hp : Single A p) (hf : ∀ a, ∃ b, f a = .ret b) :
    Single A (p >>= f) where
  guarded := hp.guarded.bind fun a => by
    obtain ⟨b, hb⟩ := hf a
    rw [hb]
    exact .ret b
  once := hp.once.bind_ret hf

theorem map {f : α → β} (hp : Single A p) : Single A (p >>= fun a => pure (f a)) :=
  hp.bind_ret fun a => ⟨f a, rfl⟩

theorem ite {b : Prop} [Decidable b] {q : At α} (hp : b → Single A p) (hq : ¬ b → Single A q) :
    Single A (if b then p else q) := by
  split
  · exact hp ‹_›
  · exact hq ‹_›

/-- A body between `lock` and `unlock`. -/
theorem locked (hp : Within A True p) : Single A (locked p) where
  guarded := by
    intro d s hs
    refine (safeUse_acquire rfl).mpr ?_
    rintro _ _ rfl
    show SafeAt A _ (p >>= _) _ _
    refine safeUse_bind (safeUse_mono (hp.safe d _) ?_)
    rintro a _ s₁ ⟨rfl, h₁⟩
    refine Guarded.unlock (fun hd => h₁ trivial (hs hd)) fun s' _ hs' => ?_
    exact ⟨rfl, fun h => hs' (h₁ trivial h)⟩
  once := fun _ => hp.stays.once (d := 0) fun a _ => ⟨a, rfl⟩

theorem locked_quiet (hp : Only True Call.Quiet p) : Single A (Modem.locked p) :=
  locked (.quiet hp)

theorem locked_timed {ms : Int} (hp : Only True Call.Flat p) :
    Single A (Modem.locked (timed ms p)) := locked (.timed (.flat hp))

end Single

/-! ## The operations -/

theorem single_getError : Single A getError := (Single.locked_quiet quiet_query).map

/-- The number is printed into an array without the mutex. -/
theorem guarded_getErrorString (size : Nat) : Guarded A (getErrorString size) := by
  refine (Single.locked_quiet quiet_queryInto).guarded.bind fun vs => ?_
  cases vs with
  | none => exact Guarded.ret none
  | some vs => exact Guarded.sprintf (Guarded.ret _)

theorem single_tx2bg96 {cmd : Format} : Single A (tx2bg96 cmd) := .locked_quiet quiet_command

theorem single_getRev : Single A getRev := by
  refine .locked (single_tx2bg96.within.bind fun ok => ?_)
  refine Within.ite (fun _ => ?_) fun _ => Within.ret none
  refine (Within.quiet quiet_recvThenOk).bind fun buf1 => ?_
  cases buf1 with
  | none => exact Within.ret none
  | some buf1 =>
    refine (Within.quiet quiet_query).bind fun buf2 => ?_
    cases buf2 <;> exact Within.ret _

theorem single_bg96Ready (n : Nat) (self : BG96) : Single A (bg96Ready n self) :=
  .locked (Within.retry (Within.quiet quiet_recv).map n).map

theorem single_startup (n : Nat) (self : BG96) : Single A (startup n self) := by
  refine (single_bg96Ready n self).bind_ret fun r => ?_
  dsimp only
  split <;> exact ⟨_, rfl⟩

theorem single_powerOnGnss (n : Nat) (self : BG96) : Single A (powerOnGnss n self) := by
  refine Single.ite (fun _ => Single.ret _) fun _ => (single_bg96Ready n self).bind_ret fun r => ?_
  dsimp only
  split <;> exact ⟨_, rfl⟩

theorem single_connectPdp (n : Nat) (self : BG96) (pdpId : Int) :
    Single A (connectPdp n self pdpId) :=
  .locked (Within.retry single_tx2bg96.within n).reset

theorem single_getIpAddress : Single A getIpAddress := by
  refine .locked (.of_flat ⟨trivial, fun sent => ?_⟩ fun _ s => ?_)
  · cases sent with
    | false => exact ⟨trivial, fun _ => ⟨trivial, fun _ => trivial⟩⟩
    | true =>
      refine ⟨trivial, fun _ => (flat_quiet quiet_recvThenOk).bind fun r => ?_⟩
      exact ⟨trivial, fun _ => ⟨trivial, fun _ => trivial⟩⟩
  · -- the default time-out comes at the end, with or without the other one before it
    rintro sent _ rfl
    cases sent with
    | false =>
      rintro _ _ rfl _ _ rfl _
      exact .inl rfl
    | true =>
      rintro _ _ rfl
      show wp session True _ (recvThenOk _ >>= _) _
      rw [wp_bind]
      refine wp_of_forall trivial (fun r s₁ => ?_) _ _
      rintro _ _ rfl _ _ rfl _
      exact .inl rfl

/-- The part of `BG96::recv` after `chkRxAvail`. -/
def recvData (id : Int) (cnt : Nat) : At (Int × List UInt8) :=
  locked do
    match ← peek ⟨"AT+QIRD=%d,%d", [.int id, .int (toInt cnt)]⟩ ⟨"+QIRD:%d\r\n", []⟩ with
    | some vs =>
      if 0 < intAt vs 0 then
        let _ ← Parser.getc
        let (_, data) ← Parser.read (intAt vs 0)
        if ← recvOk then return (intAt vs 0, data) else return (nsapiErrorDeviceError, data)
      else return (intAt vs 0, [])
    | none => return (nsapiErrorDeviceError, [])

theorem recv_eq (id : Int) (cnt : Nat) :
    recv id cnt = chkRxAvail id >>= fun _ => recvData id cnt := rfl

theorem single_chkRxAvail (id : Int) : Single A (chkRxAvail id) :=
  .locked_timed (flat_quiet quiet_recv.map)

theorem single_recvData (id : Int) (cnt : Nat) : Single A (recvData id cnt) := by
  refine .locked_quiet (quiet_peek.bind fun vs => ?_)
  cases vs with
  | none => trivial
  | some vs =>
    refine only_ite.mpr ⟨fun _ => ⟨trivial, fun _ => ⟨trivial, fun r => ?_⟩⟩, fun _ => trivial⟩
    exact quiet_recvOk.bind fun _ => only_ite.mpr ⟨fun _ => trivial, fun _ => trivial⟩

theorem guarded_recv (id : Int) (cnt : Nat) : Guarded A (recv id cnt) :=
  (single_chkRxAvail id).guarded.bind fun _ => (single_recvData id cnt).guarded

theorem guarded_drain (id : Int) (n : Nat) : Guarded A (drain id n) := by
  induction n with
  | zero => exact fun _ _ _ => trivial
  | succ n ih =>
    refine (guarded_recv id 20).bind fun r => ?_
    exact Guarded.ite (fun _ => ih) fun _ => Guarded.ret ()

theorem single_openLink (self : BG96) (type : Char) (id : Int) (addr : String) (port : Int) :
    Single A (openLink self type id addr port) := by
  refine .locked_timed (flat_quiet (quiet_command.bind fun ok => ?_))
  refine only_ite.mpr ⟨fun _ => quiet_recv.bind fun vs => ?_, fun _ => trivial⟩
  cases vs <;> trivial

theorem guarded_open (n : Nat) (self : BG96) (type : Char) (id : Int) (addr : String)
    (port : Int) : Guarded A (Modem.open n self type id addr port) := by
  refine (single_openLink self type id addr port).guarded.bind fun ok =>
    Guarded.ite (fun _ => ?_) fun _ => Guarded.ret ok
  exact (guarded_drain id n).bind fun _ => Guarded.ret ok

theorem single_getCsServiceStatus : Single A getCsServiceStatus := by
  refine .locked_timed (flat_quiet ⟨trivial, fun _ => quiet_recvThenOk.bind fun vs => ?_⟩)
  cases vs <;> trivial

theorem single_resolveUrl (self : BG96) (name : String) (size : Nat) :
    Single A (resolveUrl self name size) := by
  refine .locked_timed ⟨trivial, fun _ => (flat_quiet quiet_recvOk).bind fun ok => ?_⟩
  refine only_ite.mpr ⟨fun _ => ?_, fun _ => trivial⟩
  exact only_resolveAddress size (fun _ => trivial) fun _ => trivial

theorem single_getMacAddress (sn : List Char) : Single A (getMacAddress sn) :=
  .locked_quiet ⟨trivial, fun _ => only_ite.mpr
    ⟨fun _ => ⟨trivial, fun _ => trivial⟩, fun _ => trivial⟩⟩

theorem single_send (id : Int) (data : List UInt8) : Single A (send id data) := by
  refine .locked_timed ⟨trivial, fun sent => ?_⟩
  cases sent with
  | false => trivial
  | true =>
    refine ⟨trivial, fun vs => ?_⟩
    cases vs with
    | none => exact ⟨trivial, fun _ => trivial⟩
    | some vs =>
      refine ⟨trivial, fun size => ?_⟩
      exact only_ite.mpr ⟨fun _ => ⟨trivial, fun _ => trivial⟩, fun _ => trivial⟩

theorem single_fsUploadFile (filename : String) (data : List UInt8) (lsize : Nat) :
    Single A (fsUploadFile filename data lsize) :=
  .locked_timed (flat_upload (fun _ => trivial) fun _ => (flat_quiet quiet_recvOk).map)

theorem single_uploadFile (content : List UInt8) (filename : String) :
    Single A (uploadFile content filename) :=
  .sprintfCommand (.locked_timed
    (flat_upload (fun _ => trivial) fun _ => (flat_quiet quiet_recvOk).map))

theorem single_fileExists (filename : String) : Single A (fileExists filename) :=
  .sprintfCommand (Single.locked_timed (flat_quiet quiet_queryInto)).map

theorem single_deleteFile (filename : String) : Single A (deleteFile filename) :=
  .sprintfCommand (.locked_quiet quiet_command)

theorem guarded_sendFileKept (content : List UInt8) (filename : String) (overrideok : Bool) :
    Guarded A (sendFileKept content filename overrideok) := by
  have hup := (single_uploadFile (A := A) content filename).guarded.map (f := Prod.mk false)
  refine (single_fileExists filename).guarded.bind fun found => ?_
  refine Guarded.ite (fun _ => Guarded.ite (fun _ => ?_) fun _ => Guarded.ret (true, 1))
    fun _ => hup
  refine (single_deleteFile filename).guarded.bind fun deleted => ?_
  exact Guarded.ite (fun _ => hup) fun _ => Guarded.ret (false, 0)

theorem single_fsDownloadFile (filename : String) (filesize : Nat) :
    Single A (fsDownloadFile filename filesize) := by
  refine .locked_timed ((flat_quiet quiet_connectData).bind fun ok => ?_)
  refine only_ite.mpr ⟨fun _ => (flat_quiet (only_getBytes trivial filesize)).bind fun data => ?_,
    fun _ => trivial⟩
  refine ⟨trivial, fun _ => ⟨trivial, fun vs => ?_⟩⟩
  cases vs with
  | none => trivial
  | some vs => exact only_ite.mpr ⟨fun _ => trivial, fun _ => trivial⟩

theorem single_fsOpen (filename : String) (mode : Int) : Single A (fsOpen filename mode) := by
  refine .locked_quiet ⟨trivial, fun _ => only_ite.mpr ⟨fun _ => ?_, fun _ => trivial⟩⟩
  refine quiet_recvThenOk.bind fun vs => ?_
  cases vs <;> trivial

theorem single_fsRead (fh : Int) (length : Nat) : Single A (fsRead fh length) := by
  refine .locked_timed (flat_quiet (quiet_connectData.bind fun ok => ?_))
  refine only_ite.mpr
    ⟨fun _ => (only_getBytes trivial length).bind fun data => ?_, fun _ => trivial⟩
  exact quiet_recvOk.bind fun _ => only_ite.mpr ⟨fun _ => trivial, fun _ => trivial⟩

theorem single_fsWrite (fh : Int) (length : Nat) (data : List UInt8) :
    Single A (fsWrite fh length data) := by
  refine .locked_timed (flat_quiet (quiet_connectData.bind fun ok => ?_))
  refine only_ite.mpr
    ⟨fun _ => (only_putBytes (fun _ => trivial) data 0 (fun _ => trivial)).bind fun _ => ?_,
    fun _ => trivial⟩
  exact quiet_recvOk.bind fun _ => only_ite.mpr ⟨fun _ => trivial, fun _ => trivial⟩

theorem single_configureCacert (path : String) (sslctxId : Int) :
    Single A (configureCacert path sslctxId) := by
  refine .locked (.timed ((Within.quiet quiet_command).bind fun ok => ?_))
  refine Within.ite (fun _ => Within.ret (true, 1)) fun _ => ?_
  exact single_getError.within.bind fun err => (Within.quiet quiet_command).map

theorem single_sslopen (hostname : String) (port pdpCtx clientId sslctxId : Int) :
    Single A (sslopen hostname port pdpCtx clientId sslctxId) := by
  refine Single.ite (fun _ => Single.ret false) fun _ => ?_
  refine Single.ite (fun _ => Single.ret false) fun _ => ?_
  refine .locked_timed (flat_quiet (quiet_command.bind fun ok => ?_))
  refine only_ite.mpr ⟨fun _ => quiet_recv.bind fun vs => ?_, fun _ => trivial⟩
  cases vs <;> trivial

theorem single_sslsend (clientId : Int) (data : List UInt8) :
    Single A (sslsend clientId data) := by
  refine .locked_timed (flat_quiet (quiet_peek.bind fun vs => ?_))
  cases vs with
  | none => exact quiet_recv.map
  | some vs => exact ⟨trivial, fun _ => quiet_recv.map⟩

theorem single_sslsendTimeout (clientId : Int) (data : List UInt8) (timeout : Int) :
    Single A (sslsendTimeout clientId data timeout) := by
  refine .locked_timed ⟨trivial, fun _ => flat_quiet (quiet_recv.bind fun vs => ?_)⟩
  cases vs with
  | none => trivial
  | some vs => exact ⟨trivial, fun _ => quiet_recv.map⟩

theorem guarded_sslrecv (clientId : Int) (cnt : Nat) : Guarded A (sslrecv clientId cnt) := by
  refine (Single.locked_timed (flat_quiet quiet_recv.map)).guarded.bind fun _ => ?_
  refine (Single.locked_timed (flat_quiet (quiet_peek.bind fun vs => ?_))).guarded
  cases vs with
  | none => trivial
  | some vs => exact only_ite.mpr ⟨fun _ => ⟨trivial, fun r => quiet_recvOk.map⟩, fun _ => trivial⟩

/-- The shape of `mqttOpen` and `mqttConnect`: an error is looked up without the mutex. -/
theorem guarded_branches {ms : Int} {size size' : Nat} {cmd pattern : Format}
    {f : Option (List Value) → α} {g : Option Int → α} :
    Guarded A (do
      sprintfCommand size cmd
      lock
      Parser.setTimeout ms
      if ← command cmd then
        let r ← Parser.recv pattern
        Parser.setTimeout atTimeout
        unlock
        return f r
      else
        Parser.setTimeout atTimeout
        unlock
        return g (← getErrorString size')) := by
  refine Guarded.sprintfCommand fun d s _ => ?_
  refine (safeUse_acquire rfl).mpr fun _ _ _ => ?_
  refine (safeUse_inside rfl).mpr fun _ s₁ _ => ?_
  show SafeAt A _ (command cmd >>= _) _ _
  refine safeUse_bind (safeUse_mono ((Within.quiet (K := False) quiet_command).safe d s₁) ?_)
  rintro ok _ s₂ ⟨rfl, -⟩
  cases ok with
  | true =>
    refine (safeUse_inside rfl).mpr fun r s₃ _ => ?_
    refine (safeUse_inside rfl).mpr ?_
    rintro _ _ rfl
    refine Guarded.unlock (p := .ret (f r)) (fun _ => .inl rfl) fun s' _ hs' => ?_
    exact ⟨rfl, fun _ => hs' (.inl rfl)⟩
  | false =>
    refine (safeUse_inside rfl).mpr ?_
    rintro _ _ rfl
    refine Guarded.unlock (p := getErrorString size' >>= fun err => pure (g err))
      (fun _ => .inl rfl) fun s' hd hs' => ?_
    exact safeUse_mono ((guarded_getErrorString size').map d s' hd)
      fun _ _ _ h => ⟨h.1, fun _ => h.2 (hs' (.inl rfl))⟩

theorem single_mqttCloseAck : Single A mqttCloseAck := by
  refine .locked_quiet (quiet_command.bind fun ok => ?_)
  exact only_ite.mpr ⟨fun _ => quiet_recv.map, fun _ => trivial⟩

/-- The error of a generic command is not looked up: `rc` is not negative. -/
theorem single_sendGenericCmd (cmd : Option String) (timeout : Int) :
    Single A (sendGenericCmd cmd timeout) := by
  cases cmd with
  | none => exact Single.ret _
  | some cmd =>
    refine (Single.locked_timed (flat_quiet quiet_command)).bind_ret fun ok => ?_
    cases ok <;> exact ⟨_, rfl⟩

theorem single_configurePdpContext (self : BG96) (pdpCtx : Option PdpCtx) :
    Single A (configurePdpContext self pdpCtx) := by
  cases pdpCtx with
  | none => exact Single.ret _
  | some ctx =>
    refine (Single.locked_quiet quiet_command).bind_ret fun ok => ?_
    split <;> exact ⟨_, rfl⟩

/-! ## All operations -/

/-- The calls of the parser that operations make without the mutex. -/
def Call.Free : Call → Prop
  | .readable | .writable | .debugOn _ => True
  | _ => False

/-- They leave the session as it is. -/
theorem Call.Free.keeps {c : Call} (hc : c.Free) {s s' : Session} {r : c.Reply}
    (h : session s c r s') : s' = s := by
  subst h
  cases c <;> first | exact hc.elim | rfl

/-- The operations that may return with the mutex held. -/
def Op.Held : Op → Prop
  | .connect .. | .mqttPublish .. => True
  | _ => False

/-- The operations that do not take the mutex: they ask the serial line for its readiness, or switch
the debug output of the parser. -/
def Op.Bare : Op → Prop
  | .readable | .writeable | .doDebug _ => True
  | _ => False

/-- The operations that take the mutex more than once, one time after the other. -/
def Op.Split : Op → Prop
  | .open .. | .recv .. | .sendFile .. | .sslrecv .. | .mqttOpen .. | .mqttConnect .. => True
  | _ => False

theorem single_prog {n : Nat} {self : BG96} {op : Op} (hb : ¬ op.Bare) (hh : ¬ op.Held)
    (hs : ¬ op.Split) : Single A (op.prog n self) := by
  cases op with
  | connect | mqttPublish => exact absurd trivial hh
  | readable | writeable | doDebug => exact absurd trivial hb
  | «open» | recv | sendFile | sslrecv | mqttOpen | mqttConnect => exact absurd trivial hs
  | startup => exact (single_startup n self).map
  | powerOnGnss => exact (single_powerOnGnss n self).map
  | connectPdp => exact (single_connectPdp n self _).map
  | disconnect => exact (Single.locked (.timed single_tx2bg96.within)).map
  | getRev => exact single_getRev.map
  | getError => exact single_getError.map
  | getCsServiceStatus => exact single_getCsServiceStatus.map
  | getIpAddress => exact single_getIpAddress.map
  | isConnected => exact single_getIpAddress.map.map
  | getMacAddress => exact (single_getMacAddress _).map
  | send => exact (single_send _ _).map
  | resolveUrl => exact (single_resolveUrl self _ _).map
  | configurePdpContext => exact (single_configurePdpContext self _).map
  | sendGenericCmd => exact (single_sendGenericCmd _ _).map
  | configureCacertPath => exact (single_configureCacert _ _).map
  | sslopen => exact (single_sslopen _ _ _ _ _).map
  | sslsend => exact (single_sslsend _ _).map
  | sslsendTimeout => exact (single_sslsendTimeout _ _ _).map
  | mqttClose => exact single_mqttCloseAck.map
  | fsUploadFile => exact (single_fsUploadFile _ _ _).map
  | fsDownloadFile => exact (single_fsDownloadFile _ _).map
  | fsOpen => exact (single_fsOpen _ _).map
  | fsRead => exact (single_fsRead _ _).map
  | fsWrite => exact (single_fsWrite _ _ _).map
  | getSimStatus | close | sslclose =>
    exact (Single.locked_timed (flat_quiet quiet_command)).map
  | mqttSubscribe | mqttUnsubscribe | fsDeleteFile | fsTruncate | fsClose =>
    exact (Single.locked_timed (flat_quiet quiet_command)).map.map
  | startGnss | stopGnss => exact (Single.locked_quiet quiet_command).map
  | fileExists => exact (single_fileExists _).map
  | deleteFile => exact (single_deleteFile _).map
  | fsFileSize => exact (Single.locked_timed (flat_quiet quiet_queryInto)).map.map
  | configureClientCertPath | configurePrivkeyPath | mqttDisconnect | fsSeek =>
    exact (Single.locked_quiet quiet_command).map.map
  | getLatesSyncTime | fsSize | fsNfiles =>
    exact (Single.locked_timed (flat_quiet quiet_query)).map.map
  | getRssi | rxAvail | fsGetOffset => exact (Single.locked_quiet quiet_peek).map.map
  | isGnssOn | updateGnssLoc | sslClientStatus =>
    exact (Single.locked_timed (flat_quiet quiet_peek)).map.map
  | chkRxAvail | sslChkRxAvail =>
    exact (Single.locked_timed (flat_quiet quiet_recv.map)).map
  | mqttRecv | mqttCheckAvail =>
    exact (Single.locked_timed (flat_quiet quiet_recv)).map.map
  | getGnssLoc => exact (Single.locked (Within.ret self.gnssLoc)).map
  | reset | powerDown | setContext | isPowerOn | powerOffGnss | configureGnss =>
    exact Single.ret _

theorem guarded_prog {n : Nat} {self : BG96} {op : Op} (hb : ¬ op.Bare) (hh : ¬ op.Held) :
    Guarded A (op.prog n self) := by
  by_cases hs : op.Split
  · cases op with
    | «open» => exact (guarded_open n self _ _ _ _).map
    | recv => exact (guarded_recv _ _).map
    | sendFile => exact (guarded_sendFileKept _ _ _).map
    | sslrecv => exact (guarded_sslrecv _ _).map
    | mqttOpen | mqttConnect => exact guarded_branches.map
    | _ => exact hs.elim
  · exact (single_prog hb hh hs).guarded

/-! The two operations that may keep the mutex. -/

/-- `mqttPublish` gives the mutex back with the default time-out, or keeps it. -/
theorem safe_mqttPublish (mqttId msgId qos retain : Int) (topic : String) (data : List UInt8)
    {d : Nat} {s : Session} (hs : d = 0 → Timely A s) :
    SafeAt A (fun _ d' s' => d ≤ d' ∧ (d' = 0 → Timely A s'))
      (mqttPublish mqttId msgId qos retain topic data) d s := by
  unfold mqttPublish
  split
  · exact ⟨Nat.le_refl d, hs⟩
  · refine (safeUse_acquire rfl).mpr fun _ _ _ => ?_
    refine (safeUse_inside rfl).mpr fun _ s₁ _ => ?_
    show SafeAt A _ (peek _ _ >>= _) _ _
    refine safeUse_bind (safeUse_mono ((Within.quiet (K := False) quiet_peek).safe d s₁) ?_)
    rintro prompt _ s₂ ⟨rfl, -⟩
    split
    · refine safeUse_bind (safeUse_mono
        ((Within.quiet (K := False) (quiet_publishData data)).safe d s₂) ?_)
      rintro rc _ s₃ ⟨rfl, -⟩
      refine (safeUse_inside rfl).mpr ?_
      rintro _ _ rfl
      exact Guarded.unlock (p := .ret rc) (fun _ => .inl rfl) fun s' hs' _ => ⟨Nat.le_refl d, hs'⟩
    · exact ⟨by omega, nofun⟩

theorem within_register : Within A K register := by
  refine single_tx2bg96.within.bind fun ok => Within.ite (fun _ => ?_) fun _ => Within.ret true
  refine single_tx2bg96.within.bind fun _ => ?_
  refine (Within.quiet (only_registrationLoop trivial trivial 255)).bind fun registration => ?_
  refine Within.ite (fun _ => ?_) fun _ => Within.ret false
  exact (Within.quiet quiet_peekInto).bind fun _ => single_tx2bg96.within.map

/-- `checkApn` leaves the default time-out behind. -/
theorem safe_checkApn (self : BG96) (apn username password : String) (d : Nat) (s : Session) :
    SafeAt A (fun _ d' s' => d' = d + 1 ∧ Timely A s') (checkApn self apn username password)
      (d + 1) s := by
  have hend (done : Bool) (s : Session) :
      SafeAt A (fun _ d' s' => d' = d + 1 ∧ Timely A s') (if done = true then do
        let _ ← recvOk
        Parser.setTimeout atTimeout
        return true
      else do
        Parser.setTimeout atTimeout
        command (storeApn self apn username password)) (d + 1) s := by
    split
    · refine safeUse_bind (safeUse_mono ((Within.quiet (K := False) quiet_recvOk).safe d s) ?_)
      rintro ok _ s₁ ⟨rfl, -⟩
      refine (safeUse_inside rfl).mpr ?_
      rintro _ _ rfl
      exact ⟨rfl, .inl rfl⟩
    · refine (safeUse_inside rfl).mpr ?_
      rintro _ _ rfl
      refine safeUse_mono ((Within.quiet (K := True) quiet_command).safe d _) fun _ _ _ h => ?_
      exact ⟨h.1, h.2 trivial (.inl rfl)⟩
  refine (safeUse_inside rfl).mpr fun _ s₁ _ => ?_
  refine (safeUse_inside rfl).mpr fun sent s₂ _ => ?_
  cases sent with
  | false => exact hend true s₂
  | true =>
    have hlogin : Within A False (recvInto loginArrays
        ⟨"+QICSGP: %d,\"%[^\"]\",\"%[^\"]\",\"%[^\"]\",%d\r\n", []⟩) :=
      .quiet (only_recvInto trivial trivial)
    refine safeUse_bind (safeUse_bind (safeUse_mono (hlogin.safe d s₂) ?_))
    rintro vs _ s₃ ⟨rfl, -⟩
    exact hend vs.isSome s₃

/-- `connect` gives the mutex back with the default time-out or with that of its registration, or
keeps it. -/
theorem safe_connect (n : Nat) (self : BG96) (apn username password : String) {d : Nat}
    {s : Session} (hA : A) :
    SafeAt A (fun _ d' s' => d ≤ d' ∧ (d' = 0 → Timely A s'))
      (connect n self apn username password) d s := by
  have hend {s : Session} (hs : Timely A s) :
      SafeAt A (fun _ d' s' => d ≤ d' ∧ (d' = 0 → Timely A s')) (do
        unlock
        connectPdp n self self.contextID) (d + 1) s := by
    refine Guarded.unlock (fun _ => hs) fun s' hd hs' => ?_
    refine safeUse_mono ((single_connectPdp n self self.contextID).guarded d s' hd) ?_
    rintro _ _ s'' ⟨rfl, h⟩
    exact ⟨Nat.le_refl _, fun _ => h (hs' hs)⟩
  refine (safeUse_acquire rfl).mpr fun _ _ _ => ?_
  refine (safeUse_inside rfl).mpr ?_
  rintro _ _ rfl
  show SafeAt A _ (register >>= _) _ _
  refine safeUse_bind (safeUse_mono ((within_register (K := True)).safe d _) ?_)
  rintro done _ s₁ ⟨rfl, h₁⟩
  cases done with
  | false => exact hend (h₁ trivial (.inr ⟨hA, rfl⟩))
  | true =>
    show SafeAt A _ (checkApn self apn username password >>= _) _ _
    refine safeUse_bind (safeUse_mono (safe_checkApn self apn username password d s₁) ?_)
    rintro stored _ s₂ ⟨rfl, h₂⟩
    cases stored with
    | true => exact hend h₂
    | false => exact ⟨by omega, nofun⟩

/-- The operations that may leave the mutex free with another time-out for a while. -/
def Op.Attaches : Op → Prop
  | .connect .. => True
  | _ => False

/-- Each operation but the bare ones is safe; those that are not `Held` go back to the depth. -/
theorem safe_prog {n : Nat} {self : BG96} {op : Op} (hb : ¬ op.Bare) (hA : op.Attaches → A)
    {d : Nat} {s : Session} (hs : d = 0 → Timely A s) :
    SafeAt A (fun _ d' s' => d ≤ d' ∧ (d' = 0 → Timely A s') ∧ (d < d' → op.Held))
      (op.prog n self) d s := by
  by_cases hh : op.Held
  · cases op with
    | connect apn username password =>
      refine safeUse_bind (safeUse_mono (safe_connect n self apn username password (hA trivial)) ?_)
      exact fun _ _ _ h => ⟨h.1, h.2, fun _ => trivial⟩
    | mqttPublish mqttId msgId qos retain topic data =>
      refine safeUse_bind (safeUse_mono (safe_mqttPublish mqttId msgId qos retain topic data hs) ?_)
      exact fun _ _ _ h => ⟨h.1, h.2, fun _ => trivial⟩
    | _ => exact hh.elim
  · refine safeUse_mono (guarded_prog hb hh d s hs) ?_
    rintro _ _ s' ⟨rfl, h⟩
    exact ⟨Nat.le_refl _, fun hd => h (hs hd), fun hd => absurd hd (Nat.lt_irrefl _)⟩

/-- An operation without the mutex makes free calls. -/
theorem safe_bare {n : Nat} {self : BG96} {op : Op} (hb : op.Bare) {d : Nat} {s : Session}
    (hs : d = 0 → Timely A s) :
    SafeUse Call.use session (Timely A) Call.Free True
      (fun _ d' s' => d' = d ∧ (d' = 0 → Timely A s')) (op.prog n self) d s := by
  have hcall {c : Call} (hin : c.use = .inside) (hc : c.Free) (f : c.Reply → BG96 × Bool) :
      SafeUse Call.use session (Timely A) Call.Free True
        (fun _ d' s' => d' = d ∧ (d' = 0 → Timely A s')) (.call c fun r => .ret (f r)) d s := by
    cases d with
    | zero => exact (safeUse_free hin).mpr ⟨hc, fun _ _ hs' => ⟨rfl, fun _ => hs'⟩⟩
    | succ d =>
      refine (safeUse_inside hin).mpr fun r s' hE => ⟨rfl, ?_⟩
      rw [hc.keeps hE]
      exact hs
  cases op with
  | readable => exact hcall (c := .readable) rfl trivial _
  | writeable => exact hcall (c := .writable) rfl trivial _
  | doDebug f => exact hcall (c := .debugOn _) rfl trivial _
  | _ => exact hb.elim

/-! ## Threads -/

/-- A call of an operation: the turns that its loops may take, and the object as it finds it. -/
structure Invocation where
  turns : Nat
  self : BG96
  op : Op

/-- The program of a call. -/
def Invocation.prog (i : Invocation) : At (BG96 × Bool) := i.op.prog i.turns i.self

/-- A thread that calls operations, one after the other. -/
def calls : List Invocation → At Unit
  | [] => return ()
  | i :: is => do
    let _ ← i.prog
    calls is

/-- The call is safe, with such free calls, and keeps the mutex only if its operation may. -/
def Invocation.Settles (A : Prop) (F : Call → Prop) (i : Invocation) : Prop :=
  ∀ d s, (d = 0 → Timely A s) → SafeUse Call.use session (Timely A) F True
    (fun _ d' s' => d ≤ d' ∧ (d' = 0 → Timely A s') ∧ (d < d' → i.op.Held)) i.prog d s

theorem Invocation.settles {i : Invocation} (hA : i.op.Attaches → A) : i.Settles A Call.Free := by
  intro d s hs
  by_cases hb : i.op.Bare
  · refine safeUse_mono (safe_bare hb hs) ?_
    rintro _ _ _ ⟨rfl, h⟩
    exact ⟨Nat.le_refl _, h, fun hd => absurd hd (Nat.lt_irrefl _)⟩
  · exact safeUse_weaken (safe_prog hb hA hs) (fun _ => False.elim) fun _ _ _ => id

theorem safe_calls {F : Call → Prop} {is : List Invocation} (hi : ∀ i ∈ is, i.Settles A F)
    {d : Nat} {s : Session} (hs : d = 0 → Timely A s) :
    SafeUse Call.use session (Timely A) F True (fun _ d' _ => d < d' → ∃ i ∈ is, i.op.Held)
      (calls is) d s := by
  induction is generalizing d s with
  | nil => exact fun h => absurd h (Nat.lt_irrefl d)
  | cons i is ih =>
    refine safeUse_bind (safeUse_mono (hi i List.mem_cons_self d s hs) ?_)
    rintro _ d₁ s₁ ⟨hd, hs₁, hheld⟩
    refine safeUse_mono (ih (fun j hj => hi j (List.mem_cons_of_mem i hj)) hs₁) ?_
    intro _ d' _ hrest hd'
    by_cases h : d < d₁
    · exact ⟨i, List.mem_cons_self, hheld h⟩
    · obtain ⟨j, hj, hj'⟩ := hrest (by omega)
      exact ⟨j, List.mem_cons_of_mem i hj, hj'⟩

section Threads

variable {τ S : Type} [DecidableEq τ] {E : Env S Call Call.Reply} {script : τ → List Invocation}
  {self : BG96} {s : S} {x : Config τ S Call Call.Reply Unit}

/-- Threads that call the operations of their scripts. The mutex is free. -/
def start (script : τ → List Invocation) (s : S) : Config τ S Call Call.Reply Unit :=
  ⟨none, s, fun t => calls (script t)⟩

/-- A thread calls `connect`. -/
def Attaching (script : τ → List Invocation) : Prop := ∃ t, ∃ i ∈ script t, i.op.Attaches

omit [DecidableEq τ] in
theorem settles_script (script : τ → List Invocation) (t : τ) :
    ∀ i ∈ script t, i.Settles (Attaching script) Call.Free :=
  fun i hi => Invocation.settles fun h => ⟨t, i, hi, h⟩

theorem inv_session (script : τ → List Invocation) {s : Session}
    (hs : Timely (Attaching script) s) :
    Mutex.Inv Call.use session (Timely (Attaching script)) Call.Free True
      (fun t _ d _ => 0 < d → ∃ i ∈ script t, i.op.Held) (start script s) :=
  Inv.init hs fun t _ hs' => safe_calls (settles_script script t) fun _ => hs'

/-- What is safe in the session is safe whatever the modem and its state are. -/
theorem inv_env {F : Call → Prop} (E : Env S Call Call.Reply) (s : S)
    (hi : ∀ t, ∀ i ∈ script t, i.Settles (Attaching script) F) :
    Mutex.Inv Call.use E (fun _ => True) F True
      (fun t _ d _ => 0 < d → ∃ i ∈ script t, i.op.Held) (start script s) := by
  refine Inv.init trivial fun t s' _ => ?_
  have hsafe := safe_calls (hi t) (d := 0) (s := ⟨0, atTimeout, []⟩) fun _ => .inl rfl
  have hany : ∀ s c r, ∃ s', session s c r s' := fun s c r => ⟨_, rfl⟩
  refine safeUse_mono (hsafe.env hany ⟨⟨0, atTimeout, []⟩, .inl rfl⟩ s') ?_
  rintro _ _ _ ⟨_, h⟩
  exact h

/-- The threads without the state are safe in each reachable configuration. -/
theorem inv_blind (hr : Reach Call.use E (start script s) x) :
    Mutex.Inv Call.use anyReply (fun _ => True) Call.Free True
      (fun t _ d _ => 0 < d → ∃ i ∈ script t, i.op.Held) x.blind :=
  (inv_env anyReply () (settles_script script)).reach ⟨(), trivial⟩ (fun _ _ _ _ _ _ => rfl)
    hr.blind

/-- **The exchanges are kept apart.** A thread that is about to make a call other than `lock` and
the free ones has the mutex, and no other thread has it. -/
theorem exclusive (hr : Reach Call.use E (start script s) x) {t : τ} {c : Call}
    {k : c.Reply → At Unit} (ht : x.threads t = .call c k) (hc : c ≠ .lock) (hfree : ¬ c.Free) :
    0 < x.depth t ∧ ∀ u, u ≠ t → x.depth u = 0 := by
  have huse : c.use ≠ .acquire := by
    cases c <;> first | exact absurd rfl hc | exact nofun
  have hd : 0 < x.depth t := (inv_blind hr).holds ⟨(), trivial⟩ ht huse hfree
  refine ⟨hd, fun u hu => ?_⟩
  by_contra hpos
  exact hu (Config.owner_unique (by omega) hd)

/-- One thread closes two sockets, the other one asks for the signal. -/
def closerAndReader : Bool → List Invocation
  | false => [⟨0, .ctor, .close 1⟩, ⟨0, .ctor, .close 2⟩]
  | true => [⟨0, .ctor, .getRssi⟩]

/-- A session between two operations. -/
def calm : Session := ⟨0, atTimeout, []⟩

/-- A reply with which a command succeeds. -/
def Call.done : (c : Call) → c.Reply
  | .lock | .unlock | .setTimeout _ | .flush | .debugOn _ => ()
  | .send _ | .readable | .writable => true
  | .recv _ => some []
  | .getc => none
  | .read _ => (0, [])
  | .write _ | .putc _ | .readMs _ => (0 : Int)

/-- The first thread has sent its command, and awaits the answer. -/
theorem reach_closing : ∃ x : Config Bool Session Call Call.Reply Unit,
    Reach Call.use session (start closerAndReader calm) x ∧
      ∃ k, x.threads false = .call (.recv okFormat) k := by
  have hlock : Move Call.use session 0 (calls (closerAndReader false)) calm 1 _ _ :=
    .acquire (c := Call.lock) (r := ()) rfl rfl
  have hset := (Inside.enter hlock).move (.inside (c := Call.setTimeout _) (r := ()) rfl rfl)
  have hsent := hset.move
    (.inside (c := Call.send ⟨"AT+QICLOSE=%d,%d", [.int 1, .int bg96CloseTo]⟩) (r := true) rfl rfl)
  exact ⟨_, Inside.reach (P := fun t => calls (closerAndReader t)) (t := false) hsent, _, rfl⟩

theorem exclusive_closing : ∃ x : Config Bool Session Call Call.Reply Unit,
    Reach Call.use session (start closerAndReader calm) x ∧ 0 < x.depth false ∧
      ∀ u, u ≠ false → x.depth u = 0 := by
  obtain ⟨x, hr, k, ht⟩ := reach_closing
  exact ⟨x, hr, exclusive hr ht nofun id⟩

/-! ### Progress -/

/-- **Progress.** If no thread can take a step, then all have come to an end; or the thread that has
the mutex has, and it has called an operation that may keep it, or waits for the modem for ever, or
has stored beyond an array. -/
theorem only_held_blocks (hE : ∀ s c, ∃ r s', E s c r s')
    (hr : Reach Call.use E (start script s) x) (hx : ∀ t y, ¬ Step Call.use E t x y) :
    (∀ t, Ended (x.threads t)) ∨
      ∃ t, 0 < x.depth t ∧ Ended (x.threads t) ∧
        (x.threads t = .stop ∨ ∃ i ∈ script t, i.op.Held) := by
  rcases Config.stuck hE hx with h | ⟨t, ht, hend⟩
  · exact .inl h
  refine .inr ⟨t, ht, hend, ?_⟩
  have hsafe := (inv_blind hr).owner t ht
  change SafeUse _ _ _ _ _ _ (x.threads t) (x.depth t) _ at hsafe
  cases hp : x.threads t with
  | stop => exact .inl rfl
  | ret a =>
    rw [hp] at hsafe
    exact .inr (hsafe ht)
  | call c k =>
    rw [hp] at hend
    exact hend.elim

/-- One thread publishes a message, the other one reads the location. -/
def publisherAndReader : Bool → List Invocation
  | false => [⟨0, .ctor, publishOne⟩]
  | true => [⟨0, .ctor, .getGnssLoc⟩]

/-- The prompt has not come: the mutex is kept. -/
def kept : Config Bool Session Call Call.Reply Unit :=
  ⟨some (false, 0), ⟨1, bg96Timeout60s,
      [.received ⟨">", []⟩ false, .sent (qmtpub 0 1 1 0 "a/x") true]⟩,
    Function.update (fun t => calls (publisherAndReader t)) false (.ret ())⟩

/-- `publishOne` after it has awaited the prompt. -/
def afterPrompt (prompt : Option (List Value)) : At (BG96 × Bool) :=
  finish .ctor (if prompt.isSome then do
    let rc ← publishData [49]
    Parser.setTimeout atTimeout
    unlock
    return rc
  else return (-1 : Int))

theorem reach_kept : Reach Call.use session (start publisherAndReader calm) kept := by
  have hin : Inside Call.use session (publishOne.prog 0 .ctor) calm 1
      (.ret (BG96.ctor, false)) kept.state := by
    refine (((Inside.enter (.acquire (r := ()) rfl rfl)).move (.inside (r := ()) rfl rfl)).move
      (.inside (r := true) rfl rfl)).move ?_
    have hprompt : Move Call.use session 1 (.call (.recv ⟨">", []⟩) afterPrompt)
        ⟨1, bg96Timeout60s, [.sent (qmtpub 0 1 1 0 "a/x") true]⟩ 1 (afterPrompt none)
        kept.state := .inside rfl rfl
    exact hprompt
  exact Inside.reach (P := fun t => calls (publisherAndReader t)) (t := false)
    (hin.bind (f := fun _ => .ret ()))

theorem stuck_kept (t : Bool) (y : Config Bool Session Call Call.Reply Unit) :
    ¬ Step Call.use session t kept y := by
  intro hst
  cases t with
  | false =>
    have hend : kept.threads false = .ret () := rfl
    cases hst with
    | move _ hm =>
      rw [hend] at hm
      cases hm
    | bare hd _ _ _ => exact absurd hd (Nat.succ_ne_zero 0)
  | true =>
    cases hst with
    | move hfree _ => exact absurd (hfree false Bool.false_ne_true) (Nat.succ_ne_zero 0)
    | bare _ ht hc _ =>
      cases ht
      exact hc rfl

theorem only_held_blocks_kept :
    (∀ t, Ended (kept.threads t)) ∨ ∃ t, 0 < kept.depth t ∧ Ended (kept.threads t) ∧
      (kept.threads t = .stop ∨ ∃ i ∈ publisherAndReader t, i.op.Held) :=
  only_held_blocks (fun _ c => ⟨c.done, _, rfl⟩) reach_kept stuck_kept

/-! ### The object of the driver -/

/-- The operations that may change the object: its pins, its context or its location. Most of them
do so without the mutex. -/
def Op.Changes : Op → Prop
  | .startup | .reset | .powerDown | .powerOnGnss | .powerOffGnss => True
  | .setContext _ | .configurePdpContext _ | .updateGnssLoc => True
  | _ => False

/-- Another operation leaves the object as it is. -/
theorem wp_prog_object {n : Nat} {self : BG96} {op : Op} (hop : ¬ op.Changes) (s : S) :
    wp E True (fun r _ => r.1 = self) (op.prog n self) s := by
  have hreport {β : Type} {success : β → Bool} {p : At β} :
      wp E True (fun r _ => r.1 = self) (report self success p) s := by
    show wp E True _ (p >>= _) s
    rw [wp_bind]
    exact wp_of_forall trivial (fun _ _ => rfl) p s
  cases op with
  | startup | reset | powerDown | powerOnGnss | powerOffGnss => exact absurd trivial hop
  | setContext | configurePdpContext | updateGnssLoc => exact absurd trivial hop
  | isPowerOn | configureGnss => rfl
  | _ => exact hreport

/-- All calls find one object, which they leave as it is, and take the mutex. -/
def SharedObject (self : BG96) (script : τ → List Invocation) : Prop :=
  ∀ t, ∀ i ∈ script t, i.self = self ∧ ¬ i.op.Changes ∧ ¬ i.op.Bare

omit [DecidableEq τ] in
theorem SharedObject.settles (hs : SharedObject self script) (t : τ) :
    ∀ i ∈ script t, i.Settles (Attaching script) fun _ => False :=
  fun i hi _ _ hd => safe_prog (hs t i hi).2.2 (fun h => ⟨t, i, hi, h⟩) hd

/-- **Sections.** Whatever the modem answers, threads that call operations on one object run in
sections: each state that they reach comes from whole sections, one after the other, and what the
owner of the mutex has done of its own. And each sequence of whole sections is one that they can
run. -/
theorem sections_in_turn (E : Env S Call Call.Reply) (s : S) (hs : SharedObject self script) :
    (∀ x, Reach Call.use E (start script s) x → ∃ P s',
      ReflTransGen (Serial Call.use E) (fun t => calls (script t), s) (P, s') ∧
        UnderWay Call.use E P s' x) ∧
    ∀ P s', ReflTransGen (Serial Call.use E) (fun t => calls (script t), s) (P, s') →
      Reach Call.use E (start script s) ⟨none, s', P⟩ :=
  ⟨fun _ hr => (inv_env E s hs.settles).serial hr,
    fun _ _ hser => (reach_iff (inv_env E s hs.settles)).mpr hser⟩

theorem shared_closerAndReader : SharedObject .ctor closerAndReader := by
  intro t i hi
  cases t with
  | false =>
    rcases List.mem_pair.mp hi with rfl | rfl
    · exact ⟨rfl, not_false, not_false⟩
    · exact ⟨rfl, not_false, not_false⟩
  | true =>
    obtain rfl := List.mem_singleton.mp hi
    exact ⟨rfl, not_false, not_false⟩

/-- The owner is in the middle of its first section. -/
theorem sections_in_turn_closing : ∃ x P s',
    Reach Call.use session (start closerAndReader calm) x ∧ 0 < x.depth false ∧
      ReflTransGen (Serial Call.use session) (fun t => calls (closerAndReader t), calm) (P, s') ∧
        UnderWay Call.use session P s' x := by
  obtain ⟨x, hr, k, ht⟩ := reach_closing
  obtain ⟨P, s', hser, hway⟩ := (sections_in_turn session calm shared_closerAndReader).1 x hr
  have hd : 0 < x.depth false :=
    (inv_blind hr).holds ⟨(), trivial⟩ ht nofun (id : ¬ (Call.recv okFormat).Free)
  exact ⟨x, P, s', hr, hd, hser, hway⟩

/-! ### Operations with one section -/

/-- A thread runs the next operation of its script on the object, and no other thread does anything
meanwhile. -/
def InTurn (E : Env S Call Call.Reply) (x y : (τ → List Invocation) × BG96 × S) : Prop :=
  ∃ t i is success, x.1 t = i :: is ∧
    Runs E (i.op.prog i.turns x.2.1) x.2.2 (some (y.2.1, success)) y.2.2 ∧
      y.1 = Function.update x.1 t is

/-- All calls take the mutex once, and give it back. -/
def TakeOnce (script : τ → List Invocation) : Prop :=
  ∀ t, ∀ i ∈ script t, ¬ i.op.Held ∧ ¬ i.op.Split

/-- A section of a thread is an operation of it, after some that make no calls. -/
theorem section_calls {is : List Invocation} {p : At Unit} {s s' : S}
    (honce : ∀ i ∈ is, Once Call.use i.prog 0) (h : Section Call.use E (calls is) s p s') :
    ∃ before i rest r, is = before ++ i :: rest ∧ (∀ j ∈ before, ∃ a, j.prog = .ret a) ∧
      Runs E i.prog s (some r) s' ∧ p = calls rest := by
  induction is with
  | nil =>
    obtain ⟨d, q, s₁, hin, -⟩ := h
    exact hin.not_ret.elim
  | cons i is ih =>
    by_cases hret : ∃ a, i.prog = .ret a
    · obtain ⟨a, ha⟩ := hret
      have hcalls : calls (i :: is) = calls is := by
        show (i.prog >>= fun _ => calls is) = _
        rw [ha]
        rfl
      rw [hcalls] at h
      obtain ⟨before, j, rest, r, rfl, hbefore, hrun, hp⟩ :=
        ih (fun j hj => honce j (List.mem_cons_of_mem i hj)) h
      refine ⟨i :: before, j, rest, r, rfl, fun k hk => ?_, hrun, hp⟩
      rcases List.mem_cons.mp hk with rfl | hk
      · exact ⟨a, ha⟩
      · exact hbefore k hk
    · have h : Section Call.use E (i.prog >>= fun _ => calls is) s p s' := h
      have hcall : ∀ a, i.prog ≠ .ret a := fun a ha => hret ⟨a, ha⟩
      obtain ⟨r, hrun⟩ := h.runs (honce i List.mem_cons_self) hcall
      exact ⟨[], i, is, r, rfl, fun _ hj => absurd hj List.not_mem_nil, hrun.1, hrun.2⟩

/-- An operation in its turn leaves the shared object as it is. -/
theorem inTurn_object {t : τ} {i : Invocation} {is : List Invocation} {s s' : S}
    {r : BG96 × Bool} (hs : SharedObject self script) (ht : script t = i :: is)
    (hrun : Runs E i.prog s (some r) s') :
    InTurn E (script, self, s) (Function.update script t is, self, s') := by
  obtain ⟨hself, hop, -⟩ := hs t i (by simp [ht])
  obtain ⟨self', success⟩ := r
  obtain rfl : self' = i.self := hrun.ends (wp_prog_object hop s)
  refine ⟨t, i, is, success, ht, ?_, rfl⟩
  rw [← hself]
  exact hrun

omit [DecidableEq τ] in
theorem SharedObject.mono {script' : τ → List Invocation} (hs : SharedObject self script)
    (hsub : ∀ t, ∀ i ∈ script' t, i ∈ script t) : SharedObject self script' :=
  fun t i hi => hs t i (hsub t i hi)

theorem mem_of_mem_update {t : τ} {before rest : List Invocation}
    (ht : script t = before ++ rest) :
    ∀ u, ∀ i ∈ Function.update script t rest u, i ∈ script u := by
  intro u i hi
  by_cases hu : u = t
  · subst hu
    rw [Function.update_self] at hi
    rw [ht]
    exact List.mem_append_right before hi
  · rwa [Function.update_of_ne hu] at hi

/-- Operations that make no calls. -/
theorem silent_in_turn {t : τ} {before rest : List Invocation} (hs : SharedObject self script)
    (ht : script t = before ++ rest) (hb : ∀ j ∈ before, ∃ a, j.prog = .ret a) :
    ReflTransGen (InTurn E) (script, self, s) (Function.update script t rest, self, s) := by
  induction before generalizing script with
  | nil =>
    have hself : Function.update script t rest = script := by
      rw [show rest = script t from ht.symm, Function.update_eq_self]
    rw [hself]
  | cons j before ih =>
    obtain ⟨a, ha⟩ := hb j List.mem_cons_self
    have hrun : Runs E j.prog s (some a) s := by
      rw [ha]
      exact .ret a s
    have hstep := inTurn_object hs ht hrun
    have ht' : Function.update script t (before ++ rest) t = before ++ rest := by simp
    have hs' : SharedObject self (Function.update script t (before ++ rest)) :=
      hs.mono (mem_of_mem_update (show script t = [j] ++ (before ++ rest) from ht))
    have hrest := ih hs' ht' fun k hk => hb k (List.mem_cons_of_mem j hk)
    rw [Function.update_idem] at hrest
    exact .head hstep hrest

/-- What an operation does alone, a thread can do when it comes to it. -/
theorem reach_operation {t : τ} {i : Invocation} {is : List Invocation} {s s' : S}
    {r : BG96 × Bool} (ht : script t = i :: is) (honce : Once Call.use i.prog 0)
    (hrun : Runs E i.prog s (some r) s') :
    Reach Call.use E (start script s) (start (Function.update script t is) s') := by
  obtain ⟨_, rfl, hreach⟩ := (honce.safe s).reach (t := t) (P := fun u => calls (script u))
    (f := fun _ => calls is) hrun
  have hfirst : (i.prog >>= fun _ => calls is) = calls (script t) := by
    rw [ht]
    rfl
  have hrest : (fun u => calls (Function.update script t is u)) =
      Function.update (fun u => calls (script u)) t (calls is) :=
    Function.comp_update calls script t is
  rw [hfirst, Function.update_eq_self] at hreach
  rw [start, start, hrest]
  exact hreach

omit [DecidableEq τ] in
theorem TakeOnce.once (hone : TakeOnce script) (hs : SharedObject self script) (t : τ) :
    ∀ i ∈ script t, Once Call.use i.prog 0 :=
  fun i hi => (single_prog (A := True) (hs t i hi).2.2 (hone t i hi).1 (hone t i hi).2).once

/-- Whole sections are operations in turn. -/
theorem serial_in_turn {x : (τ → At Unit) × S} (hs : SharedObject self script)
    (hone : TakeOnce script)
    (hser : ReflTransGen (Serial Call.use E) (fun t => calls (script t), s) x) :
    ∃ script', ReflTransGen (InTurn E) (script, self, s) (script', self, x.2) ∧
      (∀ t, ∀ i ∈ script' t, i ∈ script t) ∧ x.1 = fun t => calls (script' t) := by
  induction hser with
  | refl => exact ⟨script, .refl, fun _ _ hi => hi, rfl⟩
  | @tail y z _ hst ih =>
    obtain ⟨script', hturn, hsub, hy⟩ := ih
    obtain ⟨t, p, hsec, hz⟩ := hst
    rw [hy] at hsec hz
    have honce : ∀ i ∈ script' t, Once Call.use i.prog 0 :=
      fun i hi => hone.once hs t i (hsub t i hi)
    obtain ⟨before, i, rest, r, hsplit, hbefore, hrun, rfl⟩ := section_calls honce hsec
    have hs' := hs.mono hsub
    have hstep := inTurn_object (hs'.mono (mem_of_mem_update hsplit)) (Function.update_self ..) hrun
    rw [Function.update_idem] at hstep
    have hrest : script' t = (before ++ [i]) ++ rest := by rw [hsplit, List.append_cons]
    refine ⟨_, (hturn.trans (silent_in_turn hs' hsplit hbefore)).tail hstep,
      fun u j hj => hsub u j (mem_of_mem_update hrest u j hj), ?_⟩
    rw [hz]
    exact (Function.comp_update calls script' t rest).symm

/-- Operations in turn are a run of the threads. -/
theorem in_turn_reach {x : (τ → List Invocation) × BG96 × S} (hs : SharedObject self script)
    (hone : TakeOnce script) (hturn : ReflTransGen (InTurn E) (script, self, s) x) :
    x.2.1 = self ∧ (∀ t, ∀ i ∈ x.1 t, i ∈ script t) ∧
      Reach Call.use E (start script s) (start x.1 x.2.2) := by
  induction hturn with
  | refl => exact ⟨rfl, fun _ _ hi => hi, .refl⟩
  | @tail y z _ hst ih =>
    obtain ⟨hself, hsub, hreach⟩ := ih
    obtain ⟨t, i, is, success, ht, hrun, hz⟩ := hst
    have hmem : i ∈ script t := hsub t i (by simp [ht])
    obtain ⟨hi, hop, -⟩ := hs t i hmem
    rw [hself, ← hi] at hrun
    have hobject : z.2.1 = i.self := hrun.ends (wp_prog_object hop _)
    rw [hz]
    exact ⟨hobject.trans hi,
      fun u j hj => hsub u j (mem_of_mem_update (show y.1 t = [i] ++ is from ht) u j hj),
      hreach.trans (reach_operation ht (hone.once hs t i hmem) hrun)⟩

/-- **Operations in turn.** Let the operations that threads call on one object take the mutex once
each. Then the threads reach with the free mutex what the operations do one after the other, whole,
in some order, and nothing else. -/
theorem operations_in_turn {s' : S} {P : τ → At Unit} (hs : SharedObject self script)
    (hone : TakeOnce script) :
    Reach Call.use E (start script s) ⟨none, s', P⟩ ↔
      ∃ script', ReflTransGen (InTurn E) (script, self, s) (script', self, s') ∧
        P = fun t => calls (script' t) := by
  constructor
  · intro hr
    obtain ⟨script', hturn, -, hP⟩ :=
      serial_in_turn hs hone ((reach_iff (inv_env E s hs.settles)).mp hr)
    exact ⟨script', hturn, hP⟩
  · rintro ⟨script', hturn, rfl⟩
    exact (in_turn_reach hs hone hturn).2.2

/-- The session after an operation whose commands all succeed. -/
def Session.done (s : Session) (op : Op) : Session :=
  ((op.prog 0 .ctor).eval (fun s c => (c.done, s.after c c.done)) s).2

theorem runs_done {op : Op} {s : Session} {success : Bool}
    (hr : ((op.prog 0 .ctor).eval (fun s c => (c.done, s.after c c.done)) s).1 =
      some (.ctor, success)) :
    Runs session (op.prog 0 .ctor) s (some (.ctor, success)) (s.done op) := by
  rw [← hr]
  exact runs_eval (fun _ _ => rfl) (op.prog 0 .ctor) s

theorem in_turn_done {script : Bool → List Invocation} {t : Bool} {op : Op} {s : Session}
    {is : List Invocation} {success : Bool} (ht : script t = ⟨0, .ctor, op⟩ :: is)
    (hr : ((op.prog 0 .ctor).eval (fun s c => (c.done, s.after c c.done)) s).1 =
      some (.ctor, success)) :
    InTurn session (script, .ctor, s) (Function.update script t is, .ctor, s.done op) :=
  ⟨t, _, is, success, ht, runs_done hr, rfl⟩

/-- The first socket is closed, then the signal is asked for, and the second socket is closed. -/
theorem in_turn_closed : ∃ script', ReflTransGen (InTurn session) (closerAndReader, .ctor, calm)
    (script', .ctor, ((calm.done (.close 1)).done .getRssi).done (.close 2)) := by
  have hclose : InTurn session (closerAndReader, .ctor, calm) _ := in_turn_done (t := false) rfl rfl
  have hrssi := ReflTransGen.tail (.single hclose) (in_turn_done (t := true) rfl rfl)
  exact ⟨_, hrssi.tail (in_turn_done (t := false) rfl rfl)⟩

theorem operations_in_turn_closed : ∃ P, Reach Call.use session (start closerAndReader calm)
    ⟨none, ((calm.done (.close 1)).done .getRssi).done (.close 2), P⟩ := by
  have hone : TakeOnce closerAndReader := by
    intro t i hi
    cases t with
    | false => rcases List.mem_pair.mp hi with rfl | rfl <;> exact ⟨not_false, not_false⟩
    | true =>
      obtain rfl := List.mem_singleton.mp hi
      exact ⟨not_false, not_false⟩
  obtain ⟨script', hturn⟩ := in_turn_closed
  exact ⟨_, (operations_in_turn shared_closerAndReader hone).mpr ⟨script', hturn, rfl⟩⟩

/-! ### The time-out -/

/-- **The default time-out.** Whenever the mutex is free, the time-out of the parser is the default,
or the one that a call of `connect` leaves for a while. -/
theorem default_timeout {s : Session} (hs : s.timeout = atTimeout)
    {x : Config τ Session Call Call.Reply Unit} (hr : Reach Call.use session (start script s) x)
    (hfree : x.lock = none) :
    x.state.timeout = atTimeout ∨ Attaching script ∧ x.state.timeout = 2000 :=
  ((inv_session script (.inl hs)).reach ⟨s, .inl hs⟩ (fun _ _ _ _ hc => hc.keeps) hr).free
    hfree

/-- One thread closes a socket and asks for the signal, the other one attaches the module. -/
def attachers : Bool → List Invocation
  | false => [⟨0, .ctor, .close 1⟩, ⟨0, .ctor, .getRssi⟩]
  | true => [⟨0, .ctor, .connect "internet" "" ""⟩]

/-- The commands of the loop that waits for the registration are not taken. -/
theorem inside_unregistered {p : At α} {f : At Bool → At α} {s s₁ : Session} {d : Nat}
    (hf : ∀ c k, f (.call c k) = .call c fun r => f (k r)) (i : Nat)
    (h : Inside Call.use session p s (d + 1) (f (registrationLoop i)) s₁) :
    ∃ s₂, s₂.timeout = s₁.timeout ∧ Inside Call.use session p s (d + 1) (f (.ret false)) s₂ := by
  induction i generalizing s₁ with
  | zero => exact ⟨s₁, rfl, h⟩
  | succ i ih =>
    have hloop : f (registrationLoop (i + 1)) = .call (.send ⟨"AT+CGREG?", []⟩) _ := hf _ _
    rw [hloop] at h
    have hsend := h.move (.inside (r := false) rfl rfl)
    obtain ⟨s₂, htimeout, hin⟩ := ih hsend
    exact ⟨s₂, htimeout, hin⟩

/-- The module does not register: `connect` has given the mutex back with its time-out. -/
theorem section_unregistered (s : Session) :
    ∃ p s', Section Call.use session (calls (attachers true)) s p s' ∧ s'.timeout = 2000 := by
  have hlock : Move Call.use session 0 (calls (attachers true)) s 1 _ _ :=
    .acquire (c := Call.lock) (r := ()) rfl rfl
  have hset := (Inside.enter hlock).move (.inside (c := Call.setTimeout 2000) (r := ()) rfl rfl)
  -- the echo is switched off, and the reports of the registration are not
  have hate0 := (((hset.move (.acquire (c := Call.lock) (r := ()) rfl rfl)).move
    (.inside (c := Call.send ⟨"ATE0", []⟩) (r := true) rfl rfl)).move
    (.inside (c := Call.recv okFormat) (r := some []) rfl rfl)).move
    (.release (c := Call.unlock) (r := ()) rfl rfl)
  have hcgreg := ((hate0.move (.acquire (c := Call.lock) (r := ()) rfl rfl)).move
    (.inside (c := Call.send ⟨"AT+CGREG=0", []⟩) (r := false) rfl rfl)).move
    (.release (c := Call.unlock) (r := ()) rfl rfl)
  obtain ⟨s₂, htimeout, hin⟩ := inside_unregistered
    (f := fun p => (((p >>= _) >>= _) >>= _) >>= _) (fun _ _ => rfl) 255 hcgreg
  exact ⟨_, _, ⟨0, _, s₂, hin, .release (c := Call.unlock) (r := ()) rfl rfl⟩, htimeout⟩

/-- After a socket is closed, `connect` has begun, and no thread has the mutex. -/
theorem default_timeout_unregistered : ∃ x, Reach Call.use session (start attachers calm) x ∧
    x.lock = none ∧ x.state.timeout = 2000 ∧ Attaching attachers := by
  have hsingle : Single True (Op.prog 0 .ctor (.close 1)) :=
    single_prog not_false not_false not_false
  have hclose : Reach Call.use session (start attachers calm) (start _ _) :=
    reach_operation (t := false) rfl hsingle.once (runs_done (s := calm) rfl)
  obtain ⟨p, s', hsec, htimeout⟩ := section_unregistered (calm.done (.close 1))
  have hr := hclose.trans (Section.reach
    (P := fun t => calls (Function.update attachers false [⟨0, .ctor, .getRssi⟩] t))
    (t := true) hsec)
  refine ⟨_, hr, rfl, htimeout, ?_⟩
  rcases default_timeout rfl hr rfl with h | h
  · exact absurd (htimeout.symm.trans h) (by decide)
  · exact h.1

end Threads

end Bg96.Modem
