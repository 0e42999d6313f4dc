import BG96Driver.Modem.Channel

/-!
# Whose final line an operation reports

An operation that begins with no `OK` unread reports the final line of its own command, and most
operations end so (`Verdict`). But some return before the `OK` of their command (`Op.MayLeave`), and
the next command that is sent takes it. In a run in which they leave none, every success is that of
the operation's own command (`own_verdict`).

* `Verdict`: with no `OK` unread, a program leaves none unread, and its success is acknowledged.
-/

namespace Bg96.Modem

open Program

variable {scan : Format → Line → Option (List Value)} {α β : Type} {s t : Channel}

/-- With no `OK` unread, the program leaves none unread, and a success is the final line of its last
command. -/
def Verdict (scan : Format → Line → Option (List Value)) (success : α → Bool) (p : At α) : Prop :=
  ∀ s, Clean s →
    wp (channel scan) True (fun a s' => Clean s' ∧ (success a = true → Acked s')) p s

/-- With no `OK` unread, the program leaves none unread. -/
abbrev Keeps (scan : Format → Line → Option (List Value)) (p : At α) : Prop :=
  Verdict scan (fun _ => false) p

theorem Reads.acked (h : Reads s t) (hs : Acked s) : Acked t := by
  rwa [Acked, h.1]

theorem Reads.trans {u : Channel} (h : Reads s t) (h' : Reads t u) : Reads s u :=
  ⟨h'.1.trans h.1, Nat.le_trans h'.2 h.2⟩

namespace Verdict

variable {f : α → Bool} {g : β → Bool} {p : At α}

theorem keeps (hp : Verdict scan f p) : Keeps scan p := fun s hs =>
  wp_mono (hp s hs) fun _ _ h => ⟨h.1, nofun⟩

theorem ret {a : α} (ha : f a = false) : Verdict scan f (.ret a) := fun _ hs =>
  ⟨hs, fun h => by rw [ha] at h; cases h⟩

theorem bind {q : α → At β} (hp : Keeps scan p) (hq : ∀ a, Verdict scan g (q a)) :
    Verdict scan g (p >>= q) := by
  intro s hs
  rw [wp_bind]
  exact wp_mono (hp s hs) fun a t ht => hq a t ht.1

/-- The result goes on as it is, or as a failure. -/
theorem map {h : α → β} (hp : Verdict scan f p) (hg : ∀ a, g (h a) = true → f a = true) :
    Verdict scan g (p >>= fun a => pure (h a)) := by
  intro s hs
  rw [wp_bind]
  exact wp_mono (hp s hs) fun a t ht => ⟨ht.1, fun hsuccess => ht.2 (hg a hsuccess)⟩

theorem ite {b : Prop} [Decidable b] {q : At α} (hp : b → Verdict scan f p)
    (hq : ¬ b → Verdict scan f q) : Verdict scan f (if b then p else q) := by
  split
  · exact hp ‹_›
  · exact hq ‹_›

/-- After a success nothing is sent. -/
theorem after_ok {p : At Bool} {q : Bool → At α}
    (hp : wp (channel scan) True (fun ok t => Clean t ∧ (ok = true → Acked t)) p s)
    (htrue : Only True Call.Silent (q true)) (hfalse : Verdict scan f (q false)) :
    wp (channel scan) True (fun a t => Clean t ∧ (f a = true → Acked t)) (p >>= q) s := by
  rw [wp_bind]
  refine wp_mono hp fun ok t ht => ?_
  cases ok with
  | true =>
    refine wp_mono (silent_reads htrue t) fun _ u hu => ?_
    exact ⟨hu.clean ht.1, fun _ => hu.acked (ht.2 rfl)⟩
  | false => exact hfalse t ht.1

theorem bind_ok {p : At Bool} {q : Bool → At α} (hp : Verdict scan id p)
    (htrue : Only True Call.Silent (q true)) (hfalse : Verdict scan f (q false)) :
    Verdict scan f (p >>= q) := fun s hs => after_ok (hp s hs) htrue hfalse

/-- After values are found nothing is sent. -/
theorem after_some {p : At (Option β)} {q : Option β → At α}
    (hp : wp (channel scan) True (fun vs t => Clean t ∧ (vs.isSome = true → Acked t)) p s)
    (hsome : ∀ vs, Only True Call.Silent (q (some vs))) (hnone : Verdict scan f (q none)) :
    wp (channel scan) True (fun a t => Clean t ∧ (f a = true → Acked t)) (p >>= q) s := by
  rw [wp_bind]
  refine wp_mono hp fun vs t ht => ?_
  cases vs with
  | some vs =>
    refine wp_mono (silent_reads (hsome vs) t) fun _ u hu => ?_
    exact ⟨hu.clean ht.1, fun _ => hu.acked (ht.2 rfl)⟩
  | none => exact hnone t ht.1

/-- A result that is reported as a number. -/
theorem status {p : At Bool} {done failed : Int} (hp : Verdict scan id p) (hne : failed ≠ done) :
    Verdict scan (· = done) (p >>= fun ok => pure (if ok then done else failed)) :=
  hp.map fun ok h => by
    cases ok with
    | true => rfl
    | false => exact absurd (of_decide_eq_true h) hne

/-- The result of a query, or a failure. -/
theorem values {p : At (Option (List Value))} {h : List Value → β} {b : β}
    (hp : Verdict scan Option.isSome p) (hb : g b = false) :
    Verdict scan g (do return match ← p with | some vs => h vs | none => b) :=
  hp.map fun vs hsuccess => by
    cases vs with
    | some vs => rfl
    | none => rw [hb] at hsuccess; cases hsuccess

/-- Nothing is sent. -/
theorem silent (hp : Only True Call.Silent p) : Keeps scan p := fun s hs =>
  wp_mono (silent_reads hp s) fun _ _ h => ⟨h.clean hs, nofun⟩

/-- A program between two calls that send nothing. -/
theorem around {c d : Call} (hc : c.Silent) (hd : d.Silent) (hp : Verdict scan f p) :
    Verdict scan f (.call c fun _ => p >>= fun a => .call d fun _ => .ret a) := by
  intro s hs r t ht
  have hclean : Clean t := Reads.clean (channel_step hc ht) hs
  show wp (channel scan) True _ (p >>= _) t
  rw [wp_bind]
  refine wp_mono (hp t hclean) fun a u hu => ?_
  intro r v hv
  have hreads : Reads u v := channel_step hd hv
  exact ⟨hreads.clean hu.1, fun hsuccess => hreads.acked (hu.2 hsuccess)⟩

theorem locked (hp : Verdict scan f p) : Verdict scan f (locked p) :=
  around (c := .lock) (d := .unlock) nofun nofun hp

theorem timed {ms : Int} (hp : Verdict scan f p) : Verdict scan f (timed ms p) :=
  around (c := .setTimeout ms) (d := .setTimeout atTimeout) nofun nofun hp

theorem retry {started : Bool} {limit : Int} {p : At Bool} (hp : Verdict scan id p) (n : Nat) :
    Verdict scan id (retry started limit p n) := by
  induction n with
  | zero => exact fun _ _ => trivial
  | succ n ih =>
    refine bind (silent ⟨nofun, fun _ => trivial⟩) fun ms => ite (fun _ => ?_) fun _ => ret rfl
    exact hp.bind_ok trivial ih

end Verdict

/-! ## Commands and queries -/

section Commands

variable {cmd pattern : Format}

theorem verdict_command (hscan : ScansOk scan) : Verdict scan id (command cmd) := by
  intro s hs sent t ht
  obtain ⟨howned, hclean⟩ := send_spec hs ht
  cases sent with
  | false => exact ⟨hclean rfl, nofun⟩
  | true => exact recvOk_spec hscan howned

theorem recvThenOk_spec (hscan : ScansOk scan) (hs : Owned s) :
    wp (channel scan) True (fun vs t => Clean t ∧ (Option.isSome vs = true → Acked t))
      (recvThenOk pattern) s := by
  intro vs t ht
  obtain ⟨howned, hclean⟩ := recv_spec hs ht
  cases vs with
  | none => exact ⟨hclean rfl, nofun⟩
  | some vs => exact Verdict.after_ok (recvOk_spec hscan howned) trivial (Verdict.ret rfl)

theorem verdict_recvThenOk (hscan : ScansOk scan) :
    Verdict scan Option.isSome (recvThenOk pattern) := fun _ hs => recvThenOk_spec hscan hs.owned

theorem verdict_query (hscan : ScansOk scan) : Verdict scan Option.isSome (query cmd pattern) := by
  intro s hs sent t ht
  obtain ⟨howned, hclean⟩ := send_spec hs ht
  cases sent with
  | false => exact ⟨hclean rfl, nofun⟩
  | true => exact recvThenOk_spec hscan howned

theorem verdict_queryInto (hscan : ScansOk scan) {arrays : List (Nat × Nat)} :
    Verdict scan Option.isSome (queryInto arrays cmd pattern) := fun s hs =>
  wp_queryInto trivial (verdict_query hscan s hs)

theorem verdict_sprintfCommand {size : Nat} {f : Format} : Keeps scan (sprintfCommand size f) :=
  fun _ hs => wp_sprintfCommand trivial fun _ => ⟨hs, nofun⟩

/-- A `peek` may leave the `OK` of its command. -/
theorem peek_spec (hs : Clean s) :
    wp (channel scan) True (fun vs t => Owned t ∧ (vs = none → Clean t)) (peek cmd pattern) s := by
  intro sent t ht
  obtain ⟨howned, hclean⟩ := send_spec hs ht
  cases sent with
  | false => exact ⟨howned, fun _ => hclean rfl⟩
  | true => exact fun vs u hu => recv_spec howned hu

/-- A command, and what follows its `OK` or its failure. -/
theorem verdict_then (hscan : ScansOk scan) {success : α → Bool} {p q : At α}
    (hp : Only True Call.Silent p) (hq : Verdict scan success q) :
    Verdict scan success (do if ← command cmd then p else q) :=
  (verdict_command hscan).bind_ok hp hq

/-- A command whose data go between `CONNECT` and its end. -/
theorem verdict_data {success : α → Bool} {p : At β} {q : β → At α} {a : α}
    (ha : success a = false) (hp : Only True Call.Silent p)
    (hq : ∀ b s, Owned s →
      wp (channel scan) True (fun r t => Clean t ∧ (success r = true → Acked t)) (q b) s) :
    Verdict scan success (do
      if ← connectData cmd then
        let b ← p
        q b
      else return a) := by
  intro s hs
  rw [wp_bind, connectData, wp_bind]
  refine wp_mono (peek_spec hs) fun vs t ht => ?_
  cases vs with
  | none => exact ⟨ht.2 rfl, fun h => by rw [ha] at h; cases h⟩
  | some vs =>
    show wp (channel scan) True _ (p >>= _) t
    rw [wp_bind]
    exact wp_mono (silent_reads hp t) fun b u hu => hq b u (hu.owned ht.1)

end Commands

/-! ## The operations -/

section Operations

variable (hscan : ScansOk scan) (self : BG96)
include hscan

theorem verdict_tx2bg96 {cmd : Format} : Verdict scan id (tx2bg96 cmd) :=
  (verdict_command hscan).locked

theorem verdict_getError : Verdict scan Option.isSome getError :=
  (verdict_query hscan).locked.values rfl

theorem verdict_getErrorString (size : Nat) : Keeps scan (getErrorString size) := by
  refine Verdict.bind (verdict_queryInto hscan).locked.keeps fun vs => ?_
  cases vs with
  | none => exact Verdict.ret rfl
  | some vs =>
    refine Verdict.bind (Verdict.silent (only_sprintf trivial)) fun _ => ?_
    exact Verdict.ret rfl

theorem verdict_getRev : Verdict scan Option.isSome getRev := by
  refine Verdict.locked ((verdict_tx2bg96 hscan).keeps.bind fun ok => ?_)
  refine Verdict.ite (fun _ => ?_) fun _ => Verdict.ret rfl
  refine (verdict_recvThenOk hscan).keeps.bind fun buf1 => ?_
  cases buf1 with
  | none => exact Verdict.ret rfl
  | some buf1 =>
    intro s hs
    exact Verdict.after_some (verdict_query hscan s hs) (fun _ => trivial) (Verdict.ret rfl)

theorem verdict_getCsServiceStatus : Verdict scan id getCsServiceStatus := by
  refine Verdict.locked (Verdict.timed fun s hs sent t ht => ?_)
  have howned : Owned t := (send_spec hs ht).1
  exact Verdict.after_some (recvThenOk_spec hscan howned) (fun _ => trivial) (Verdict.ret rfl)

theorem verdict_connectPdp (n : Nat) (pdpId : Int) :
    Verdict scan (· = nsapiErrorOk) (connectPdp n self pdpId) := by
  refine Verdict.locked (((verdict_tx2bg96 hscan).retry n).bind_ok ?_ ?_)
  · exact ⟨silent_timeout _, fun _ => trivial⟩
  · refine Verdict.bind (Verdict.silent ⟨silent_timeout _, fun _ => trivial⟩) fun _ => ?_
    exact Verdict.ret (by decide)

theorem verdict_getIpAddress : Verdict scan Option.isSome getIpAddress := by
  refine Verdict.locked fun s hs sent t ht => ?_
  obtain ⟨howned, hclean⟩ := send_spec hs ht
  cases sent with
  | false =>
    intro _ u hu _ v hv
    have hreads : Reads t v :=
      Reads.trans (channel_step (c := .flush) nofun hu) (channel_step (silent_timeout _) hv)
    exact ⟨hreads.clean (hclean rfl), nofun⟩
  | true =>
    intro _ u hu
    have hu : Owned u := Reads.owned (channel_step (silent_timeout _) hu) howned
    show wp (channel scan) True _ (recvThenOk _ >>= _) u
    rw [wp_bind]
    refine wp_mono (recvThenOk_spec hscan hu) fun vs v hv _ w hw _ x hx => ?_
    have hreads : Reads v x :=
      Reads.trans (channel_step (c := .flush) nofun hw) (channel_step (silent_timeout _) hx)
    exact ⟨hreads.clean hv.1, fun h => hreads.acked (hv.2 (by simpa using h))⟩

theorem verdict_resolveUrl (name : String) (size : Nat) :
    Verdict scan Prod.fst (resolveUrl self name size) := by
  refine Verdict.locked (Verdict.timed fun s hs sent t ht => ?_)
  show wp (channel scan) True _ (recvOk >>= _) t
  refine Verdict.after_ok (recvOk_spec hscan (send_spec hs ht).1) ?_ (Verdict.ret rfl)
  exact only_resolveAddress size (fun _ => nofun) silent_recv

theorem verdict_configurePdpContext (pdpCtx : Option PdpCtx) :
    Verdict scan (fun r => r.2 ≠ -1) (configurePdpContext self pdpCtx) := by
  cases pdpCtx with
  | none => exact Verdict.ret rfl
  | some ctx => exact (verdict_command hscan).locked.bind_ok trivial (Verdict.ret rfl)

theorem verdict_sendGenericCmd (cmd : Option String) (timeout : Int) :
    Verdict scan (· = 1) (sendGenericCmd cmd timeout) := by
  cases cmd with
  | none => exact Verdict.ret rfl
  | some cmd => exact (verdict_command hscan).timed.locked.bind_ok trivial (Verdict.ret rfl)

theorem verdict_fileExists (filename : String) : Verdict scan id (fileExists filename) :=
  Verdict.bind verdict_sprintfCommand fun _ => (verdict_queryInto hscan).timed.locked.values rfl

theorem verdict_deleteFile (filename : String) : Verdict scan id (deleteFile filename) :=
  Verdict.bind verdict_sprintfCommand fun _ => (verdict_command hscan).locked

/-- The line that ends an upload comes before its `OK`. -/
theorem verdict_upload {cmd : Format} {size : Nat} {data : List UInt8} {f : List Value → α}
    {a b : α} : Keeps scan (do
      if ← connectData cmd then
        putBytes 16 size 0 data
        Parser.setTimeout bg96Wait1s
        match ← Parser.recv qfupl with
        | some vs => do
          let _ ← recvOk
          return f vs
        | none => return a
      else return b) := by
  refine verdict_data rfl (only_putBytes (fun _ => nofun) data 0 fun _ => trivial) ?_
  intro _ s hs _ t ht vs u hu
  obtain ⟨howned, hclean⟩ := recv_spec (Reads.owned (channel_step (silent_timeout _) ht) hs) hu
  cases vs with
  | none => exact ⟨hclean rfl, nofun⟩
  | some vs => exact Verdict.after_ok (recvOk_spec hscan howned) trivial (Verdict.ret rfl)

theorem verdict_fsUploadFile (filename : String) (data : List UInt8) (lsize : Nat) :
    Keeps scan (fsUploadFile filename data lsize) := (verdict_upload hscan).timed.locked

theorem verdict_uploadFile (content : List UInt8) (filename : String) :
    Keeps scan (uploadFile content filename) :=
  Verdict.bind verdict_sprintfCommand fun _ => (verdict_upload hscan).timed.locked

/-- A file that is kept was found. -/
theorem verdict_sendFileKept (content : List UInt8) (filename : String) (overrideok : Bool) :
    Verdict scan Prod.fst (sendFileKept content filename overrideok) := by
  have hup : Verdict scan Prod.fst (do return (false, ← uploadFile content filename)) :=
    (verdict_uploadFile hscan content filename).map fun _ => id
  intro s hs
  rw [sendFileKept, wp_bind]
  refine wp_mono (verdict_fileExists hscan filename s hs) fun found t ht => ?_
  cases found with
  | false => exact hup t ht.1
  | true =>
    cases overrideok with
    | false => exact ⟨ht.1, fun _ => ht.2 rfl⟩
    | true =>
      refine Verdict.bind (verdict_deleteFile hscan filename).keeps (fun deleted => ?_) t ht.1
      exact Verdict.ite (fun _ => hup) fun _ => Verdict.ret rfl

theorem verdict_configureCacert (path : String) (sslctxId : Int) :
    Verdict scan Prod.fst (configureCacert path sslctxId) := by
  refine Verdict.locked (Verdict.timed (verdict_then hscan trivial ?_))
  refine (verdict_getError hscan).keeps.bind fun err => ?_
  exact (verdict_command hscan).keeps.map fun _ => id

theorem verdict_fsOpen (filename : String) (mode : Int) :
    Verdict scan (fun r => r.1 = nsapiErrorOk) (fsOpen filename mode) := by
  refine Verdict.locked fun s hs sent t ht => ?_
  obtain ⟨howned, hclean⟩ := send_spec hs ht
  cases sent with
  | false => exact ⟨hclean rfl, nofun⟩
  | true =>
    exact Verdict.after_some (recvThenOk_spec hscan howned) (fun _ => trivial) (Verdict.ret rfl)

theorem verdict_fsRead (fh : Int) (length : Nat) :
    Verdict scan (fun r => r.1 = nsapiErrorOk) (fsRead fh length) := by
  refine Verdict.locked (Verdict.timed (verdict_data rfl (only_getBytes nofun length) ?_))
  exact fun _ _ hs => Verdict.after_ok (recvOk_spec hscan hs) trivial (Verdict.ret rfl)

theorem verdict_fsWrite (fh : Int) (length : Nat) (data : List UInt8) :
    Verdict scan (· = nsapiErrorOk) (fsWrite fh length data) := by
  refine Verdict.locked (Verdict.timed (verdict_data rfl ?_ ?_))
  · exact only_putBytes (fun _ => nofun) data 0 fun _ => trivial
  · exact fun _ _ hs => Verdict.after_ok (recvOk_spec hscan hs) trivial (Verdict.ret rfl)

theorem verdict_sslopen (hostname : String) (port pdpCtx clientId sslctxId : Int) :
    Verdict scan id (sslopen hostname port pdpCtx clientId sslctxId) := by
  refine Verdict.ite (fun _ => Verdict.ret rfl) fun _ => ?_
  refine Verdict.ite (fun _ => Verdict.ret rfl) fun _ => ?_
  refine Verdict.locked (Verdict.timed (verdict_then hscan ?_ (Verdict.ret rfl)))
  refine ⟨silent_recv _, fun vs => ?_⟩
  cases vs <;> trivial

/-- The shape of `mqtt_open` and `mqtt_connect`: after a failure, the error is asked for. -/
theorem verdict_branches {size : Nat} {ms : Int} {cmd pattern : Format}
    {f : Option (List Value) → α} {g : Option Int → α} {success : α → Bool}
    (hg : ∀ err, success (g err) = false) :
    Verdict scan success (do
      sprintfCommand size cmd
      lock
      Parser.setTimeout ms
      if ← command cmd then
        let r ← Parser.recv pattern
        Parser.setTimeout atTimeout
        unlock
        return f r
      else
        Parser.setTimeout atTimeout
        unlock
        return g (← getErrorString 15)) := by
  refine Verdict.bind verdict_sprintfCommand fun _ => ?_
  refine Verdict.bind (Verdict.silent ⟨nofun, fun _ => trivial⟩) fun _ => ?_
  refine Verdict.bind (Verdict.silent ⟨silent_timeout _, fun _ => trivial⟩) fun _ => ?_
  refine verdict_then hscan ?_ ?_
  · exact ⟨silent_recv _, fun vs => ⟨silent_timeout _, fun _ => ⟨nofun, fun _ => trivial⟩⟩⟩
  · refine Verdict.bind (Verdict.silent ⟨silent_timeout _, fun _ => trivial⟩) fun _ => ?_
    refine Verdict.bind (Verdict.silent ⟨nofun, fun _ => trivial⟩) fun _ => ?_
    exact (verdict_getErrorString hscan 15).map fun err h => by rw [hg err] at h; cases h

theorem verdict_mqttOpenAck (hostname : String) (port : Int) :
    Verdict scan (fun r => r.1 && r.2 = 0) (mqttOpenAck hostname port) :=
  verdict_branches hscan fun _ => rfl

theorem verdict_mqttConnect (sslctxId : Int) (clientid username password : String)
    (result : ConnectResult) :
    Verdict scan Prod.fst (mqttConnect sslctxId clientid username password result) :=
  verdict_branches hscan fun _ => rfl

theorem verdict_mqttCloseAck : Verdict scan (fun r => r.1 && r.2 = 0) mqttCloseAck := by
  refine Verdict.locked (verdict_then hscan ?_ (Verdict.ret rfl))
  exact ⟨silent_recv _, fun vs => trivial⟩

end Operations

/-! `startup` and `powerOnGnss` wait for `RDY`, and send nothing. -/

theorem silent_bg96Ready (n : Nat) (self : BG96) : Only True Call.Silent (bg96Ready n self) := by
  refine only_locked nofun nofun (Only.map ?_)
  induction n with
  | zero => trivial
  | succ n ih =>
    refine ⟨nofun, fun ms => only_ite.mpr ⟨fun _ => ?_, fun _ => trivial⟩⟩
    exact ((only_recv (silent_recv _)).map).bind fun done =>
      only_ite.mpr ⟨fun _ => trivial, fun _ => ih⟩

theorem silent_startup (n : Nat) (self : BG96) : Only True Call.Silent (startup n self) :=
  (silent_bg96Ready n self).bind fun _ => only_ite.mpr ⟨fun _ => trivial, fun _ => trivial⟩

theorem silent_powerOnGnss (n : Nat) (self : BG96) : Only True Call.Silent (powerOnGnss n self) :=
  only_ite.mpr ⟨fun _ => trivial, fun _ => silent_startup n self⟩

/-- The shape of the operations that only receive. -/
theorem silent_lockedRecv {ms : Int} {pattern : Format} {f : Option (List Value) → α} :
    Only True Call.Silent (locked (timed ms (do return f (← Parser.recv pattern)))) :=
  only_locked nofun nofun (only_timed silent_timeout (only_recv (silent_recv _)).map)

/-! ## The final line of an operation -/

/-- The operations that may return before the `OK` of a command of theirs is received. -/
def Op.MayLeave : Op → Prop
  | .connect .. | .getRssi | .getMacAddress _ | .open .. | .send .. | .recv .. | .rxAvail _
  | .isGnssOn | .updateGnssLoc | .sslsend .. | .sslsendTimeout .. | .sslrecv .. | .sslClientStatus _
  | .mqttPublish .. | .fsDownloadFile .. | .fsGetOffset _ => True
  | _ => False

/-- The other operations leave no `OK` unread, and a success is that of their last command. -/
theorem verdict_prog (hscan : ScansOk scan) (n : Nat) (self : BG96) {op : Op}
    (hop : ¬ op.MayLeave) : Verdict scan Prod.snd (op.prog n self) := by
  have hmap {γ : Type} {f : γ → Bool} {p : At γ} (hp : Verdict scan f p) :
      Verdict scan Prod.snd (report self f p) := hp.map fun _ => id
  cases op with
  | startup => exact (Verdict.silent (silent_startup n self)).map fun _ => id
  | getSimStatus => exact hmap (verdict_command hscan).timed.locked
  | getCsServiceStatus => exact hmap (verdict_getCsServiceStatus hscan)
  | connectPdp pdpId => exact hmap (verdict_connectPdp hscan self n pdpId)
  | disconnect => exact hmap (verdict_tx2bg96 hscan).timed.locked
  | getIpAddress => exact hmap (verdict_getIpAddress hscan)
  | isConnected => exact hmap ((verdict_getIpAddress hscan).map fun _ => id)
  | close id => exact hmap (verdict_command hscan).timed.locked
  | readable => exact hmap (Verdict.silent ⟨nofun, fun _ => trivial⟩)
  | writeable => exact hmap (Verdict.silent ⟨nofun, fun _ => trivial⟩)
  | doDebug f => exact hmap (Verdict.silent ⟨nofun, fun _ => trivial⟩)
  | resolveUrl name size => exact hmap (verdict_resolveUrl hscan self name size)
  | configurePdpContext pdpCtx =>
    exact (verdict_configurePdpContext hscan self pdpCtx).map fun _ => id
  | getRev => exact hmap (verdict_getRev hscan)
  | getError => exact hmap (verdict_getError hscan)
  | chkRxAvail id => exact hmap (Verdict.silent silent_lockedRecv)
  | powerOnGnss => exact (Verdict.silent (silent_powerOnGnss n self)).map fun _ => id
  | startGnss => exact hmap (verdict_command hscan).locked
  | stopGnss => exact hmap (verdict_command hscan).locked
  | getGnssLoc => exact hmap (Verdict.ret rfl).locked
  | getLatesSyncTime =>
    exact hmap ((verdict_query hscan).timed.locked.values rfl)
  | sendGenericCmd cmd timeout => exact hmap (verdict_sendGenericCmd hscan cmd timeout)
  | fileExists filename => exact hmap (verdict_fileExists hscan filename)
  | deleteFile filename => exact hmap (verdict_deleteFile hscan filename)
  | sendFile content filename overrideok =>
    exact hmap (verdict_sendFileKept hscan content filename overrideok)
  | configureCacertPath path sslctxId => exact hmap (verdict_configureCacert hscan path sslctxId)
  | configureClientCertPath path sslctxId =>
    exact hmap ((verdict_command hscan).locked.status nofun)
  | configurePrivkeyPath path sslctxId =>
    exact hmap ((verdict_command hscan).locked.status nofun)
  | sslopen hostname port pdpCtx clientId sslctxId =>
    exact hmap (verdict_sslopen hscan hostname port pdpCtx clientId sslctxId)
  | sslChkRxAvail clientId => exact hmap (Verdict.silent silent_lockedRecv)
  | sslclose clientId => exact hmap (verdict_command hscan).timed.locked
  | mqttOpen hostname port => exact hmap (verdict_mqttOpenAck hscan hostname port)
  | mqttClose => exact hmap (verdict_mqttCloseAck hscan)
  | mqttConnect sslctxId clientid username password result =>
    exact hmap (verdict_mqttConnect hscan sslctxId clientid username password result)
  | mqttDisconnect mqttId => exact hmap ((verdict_command hscan).locked.status nofun)
  | mqttSubscribe mqttId topic qos msgId =>
    exact hmap ((verdict_command hscan).timed.locked.status nofun)
  | mqttUnsubscribe mqttId topic msgId =>
    exact hmap ((verdict_command hscan).timed.locked.status nofun)
  | mqttRecv mqttId => exact hmap (Verdict.silent silent_lockedRecv.map)
  | mqttCheckAvail mqttId => exact hmap (Verdict.silent silent_lockedRecv.map)
  | fsSize => exact hmap ((verdict_query hscan).timed.locked.values rfl)
  | fsNfiles => exact hmap ((verdict_query hscan).timed.locked.values rfl)
  | fsFileSize filename => exact hmap ((verdict_queryInto hscan).timed.locked.values rfl)
  | fsDeleteFile filename => exact hmap ((verdict_command hscan).timed.locked.status nofun)
  | fsUploadFile filename data lsize => exact hmap (verdict_fsUploadFile hscan filename data lsize)
  | fsOpen filename mode => exact hmap (verdict_fsOpen hscan filename mode)
  | fsRead fh length => exact hmap (verdict_fsRead hscan fh length)
  | fsWrite fh length data => exact hmap (verdict_fsWrite hscan fh length data)
  | fsSeek fh offset position => exact hmap ((verdict_command hscan).locked.status nofun)
  | fsTruncate fh offset => exact hmap ((verdict_command hscan).timed.locked.status nofun)
  | fsClose fh => exact hmap ((verdict_command hscan).timed.locked.status nofun)
  | _ => first | exact Verdict.ret rfl | exact absurd trivial hop

/-! The success of an operation that may leave an `OK` is still that of its own command, if no `OK`
is unread when that is sent. -/

section Leaving

variable (hscan : ScansOk scan) (self : BG96)
include hscan

/-- `recv` reports data only after the `OK` of its command. -/
theorem recv_acked (id : Int) (cnt : Nat) (hs : Clean s) :
    wp (channel scan) True (fun r t => 0 < r.1 → Acked t) (recv id cnt) s := by
  show wp (channel scan) True _ (chkRxAvail id >>= _) s
  rw [wp_bind]
  refine wp_mono (silent_reads (silent_lockedRecv (f := Option.isSome)) s) fun _ s' hs' r t ht => ?_
  have hclean : Clean t := (Reads.trans hs' (channel_step (c := .lock) nofun ht)).clean hs
  show wp (channel scan) True _ (peek _ _ >>= _ >>= _) t
  rw [wp_bind, wp_bind]
  refine wp_mono (peek_spec hclean) fun vs u hu => ?_
  cases vs with
  | none => exact fun _ _ _ h => absurd h (by decide)
  | some vs =>
    dsimp only
    split
    · intro b v hv bytes w hw
      have hreads : Reads u w :=
        Reads.trans (channel_step (c := .getc) nofun hv) (channel_step (c := .read _) nofun hw)
      show wp (channel scan) True _ (recvOk >>= _ >>= _) w
      rw [wp_bind, wp_bind]
      refine wp_mono (recvOk_spec hscan (hreads.owned hu.1)) fun ok x hx => ?_
      cases ok with
      | true => exact fun _ y hy _ => Reads.acked (channel_step (c := .unlock) nofun hy) (hx.2 rfl)
      | false => exact fun _ _ _ h => absurd h (by simp [nsapiErrorDeviceError])
    · rename_i hcount
      exact fun _ _ _ h => absurd h hcount

/-- A command that is sent while no `OK` is unread is acknowledged by its own final line. -/
theorem tx2bg96_spec (cmd : Format) (s : Channel) :
    wp (channel scan) True
      (fun ok t => ok = true →
        ∃ e, t.log.head? = some e ∧ e.cmd = cmd ∧ (e.clean = true → e.ok = true))
      (tx2bg96 cmd) s := by
  intro r t _ sent u hu
  cases sent with
  | false => exact fun _ _ _ => nofun
  | true =>
    obtain ⟨e, hlog, hcmd, hclean, hoks⟩ := channel_send hu
    intro vs v hv _ w hw hok
    cases vs with
    | none => cases hok
    | some vs =>
      have htaken := channel_recvOk hscan hv
      have hread : w.log = u.log :=
        (Reads.trans (channel_step (silent_recv _) hv) (channel_step (c := .unlock) nofun hw)).1
      refine ⟨e, by rw [hread, hlog]; rfl, hcmd, fun h => ?_⟩
      rw [hclean, decide_eq_true_iff] at h
      by_contra hfailed
      rw [if_neg hfailed] at hoks
      omega

/-- `connectPdp` succeeds with a command whose final line is `OK`, if no `OK` was unread. -/
theorem connectPdp_spec (n : Nat) (pdpId : Int) (s : Channel) :
    wp (channel scan) True (fun rc t => rc = nsapiErrorOk →
      ∃ e, t.log.head? = some e ∧ e.cmd = qiact self ∧ (e.clean = true → e.ok = true))
      (connectPdp n self pdpId) s := by
  have hretry (n : Nat) : ∀ s, wp (channel scan) True (fun done t => done = true →
      ∃ e, t.log.head? = some e ∧ e.cmd = qiact self ∧ (e.clean = true → e.ok = true))
      (retry false bg96Timeout150s (tx2bg96 (qiact self)) n) s := by
    induction n with
    | zero => exact fun _ => trivial
    | succ n ih =>
      intro s ms t _
      show wp (channel scan) True _ (if ms < _ then _ else _) t
      split
      · rw [wp_bind]
        refine wp_mono (tx2bg96_spec hscan (qiact self) t) fun done u hu => ?_
        cases done with
        | true => exact fun _ => hu rfl
        | false => exact ih u
      · exact nofun
  intro r t _
  show wp (channel scan) True _ (retry _ _ _ _ >>= _ >>= _) t
  rw [wp_bind, wp_bind]
  refine wp_mono (hretry n t) fun done u hu _ v hv _ w hw hrc => ?_
  have hread : w.log = u.log :=
    (Reads.trans (channel_step (silent_timeout _) hv) (channel_step (c := .unlock) nofun hw)).1
  cases done with
  | true => rw [hread]; exact hu rfl
  | false => exact absurd hrc (by decide)

theorem connect_spec (n : Nat) (apn username password : String) (s : Channel) :
    wp (channel scan) True (fun rc t => rc = nsapiErrorOk →
      ∃ e, t.log.head? = some e ∧ e.cmd = qiact self ∧ (e.clean = true → e.ok = true))
      (connect n self apn username password) s := by
  have hend (stored : Bool) (s : Channel) : wp (channel scan) True (fun rc t => rc = nsapiErrorOk →
      ∃ e, t.log.head? = some e ∧ e.cmd = qiact self ∧ (e.clean = true → e.ok = true))
      (if stored then do unlock; connectPdp n self self.contextID else return nsapiErrorDeviceError)
      s := by
    cases stored with
    | true => exact fun _ t _ => connectPdp_spec hscan self n self.contextID t
    | false => exact fun h => absurd h (by decide)
  intro _ t _ _ u _
  show wp (channel scan) True _ (register >>= _) u
  rw [wp_bind]
  refine wp_of_forall trivial (fun registered v => ?_) _ _
  cases registered with
  | false => exact hend true v
  | true => exact (wp_bind _).mpr (wp_of_forall trivial hend _ _)

/-- The first command of `open` is acknowledged by its own final line. -/
theorem open_spec (n : Nat) (type : Char) (id : Int) (addr : String) (port : Int)
    {input : List Item} (hs : oks input = 0) :
    wp (channel scan) True (fun ok t => ok = true → ∃ e, t.log.getLast? = some e ∧ e.ok = true)
      (Modem.open n self type id addr port) ⟨input, []⟩ := by
  have hlink : Verdict scan (fun ok => ok) (openLink self type id addr port) := by
    refine Verdict.locked (Verdict.timed (verdict_then hscan ⟨silent_recv _, fun vs => ?_⟩ ?_))
    · cases vs <;> trivial
    · exact Verdict.ret rfl
  have hone : wp (channel scan) True (fun _ t => t.log.length ≤ 1)
      (openLink self type id addr port) ⟨input, []⟩ := by
    intro _ t ht _ u hu sent v hv
    have hread : u.log = [] :=
      (Reads.trans (channel_step (c := .lock) nofun ht) (channel_step (silent_timeout _) hu)).1
    have hle : v.log.length ≤ 1 := by
      rcases channel_log hv with hlog | ⟨e, hlog⟩ <;> rw [hlog, hread] <;> simp
    refine wp_mono (silent_reads ?_ v) fun _ w hw => hw.1 ▸ hle
    have hend (done : Bool) : Only True Call.Silent (do
        Parser.setTimeout atTimeout
        unlock
        return done) := ⟨silent_timeout _, fun _ => ⟨nofun, fun _ => trivial⟩⟩
    cases sent with
    | false => exact hend false
    | true =>
      refine ⟨silent_recv _, fun vs => ?_⟩
      cases vs with
      | none => exact hend false
      | some vs =>
        refine ⟨silent_recv _, fun vs => ?_⟩
        cases vs with
        | none => exact hend false
        | some vs => exact hend _
  show wp (channel scan) True _ (openLink _ _ _ _ _ >>= _) _
  rw [wp_bind]
  refine wp_mono (wp_and (hlink _ hs) hone) fun ok t ⟨⟨_, hok⟩, hle⟩ => ?_
  cases ok with
  | false => exact nofun
  | true =>
    obtain ⟨e, hhead, heok⟩ := hok rfl
    have hlog : t.log = [e] := by
      match t.log, hhead, hle with
      | [e], rfl, _ => rfl
    show wp (channel scan) True _ (drain id n >>= _) t
    rw [wp_bind]
    refine wp_mono (extends_log (drain id n) t) fun _ u ⟨l, hl⟩ _ => ⟨e, ?_, heok⟩
    rw [← hl, hlog]
    exact List.getLast?_concat

end Leaving

end Bg96.Modem
